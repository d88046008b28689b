/-
# Lifetime traffic (`PersistentTrafficStatsStore`, `MainActivity`)

Three counters are kept in step.  The service, a process of its own, counts all bytes since its
process began and never starts over.  The UI process holds a copy of those totals, renewed by
every report.  The activity adds what is new in the copy to a lifetime total, which it persists;
how much of the copy it has already added is its baseline.

The baseline is the activity's own and goes back to zero when the status leaves CONNECTED, as if
the service began to count afresh with every connection.  It does not.  `lifetime_conserved_iff`
says in which runs the persisted total is nevertheless what was carried and reported: those in
which CONNECTED is never shown on top of a copy that already has something in it, and no report
mixes bytes counted inside a connection with bytes counted outside.

The three parties are one state, `World`, and a run is any order of their steps.

* Every step leaves a state that is `Sound`: the activity's totals are the stored ones, and its
  baselines are the copy while CONNECTED is shown and zero while it is not.
* So the effect adds to the stored totals what the copy holds beyond the baselines
  (`accumulate_eq`), and a step conserves them exactly if this is what was reported meanwhile
  (`conserved_step_iff`).

Counters are natural numbers: the source has `long` ones, and nothing is said about runs that carry
`2 ^ 63` bytes or more.
-/
import ShiroKhorshid.Lib.Transition
import ShiroKhorshid.Traffic.Series

namespace ShiroKhorshid.Traffic

/-! ## 1. The source -/

/-- What `PersistentTrafficStatsStore` keeps, each of the two 0 until it is first written. -/
structure PersistentTraffic where
  downloadBytes : ℕ
  uploadBytes : ℕ
deriving DecidableEq

structure AccumulateResult where
  lifetimeDownload : ℕ
  lifetimeUpload : ℕ
  lastSessionDownload : ℕ
  lastSessionUpload : ℕ
  changed : Bool

/-- `accumulateSessionDelta`, with the store after it.  The subtraction of two counts that
`coerceAtLeast(0L)` follows is the truncated one. -/
def PersistentTraffic.accumulateSessionDelta (store : PersistentTraffic)
    (lifetimeDownload lifetimeUpload sessionDownload sessionUpload lastSessionDownload
      lastSessionUpload : ℕ) : AccumulateResult × PersistentTraffic :=
  let downloadDelta := sessionDownload - lastSessionDownload
  let uploadDelta := sessionUpload - lastSessionUpload
  if downloadDelta = 0 ∧ uploadDelta = 0 then
    (⟨lifetimeDownload, lifetimeUpload, sessionDownload, sessionUpload, false⟩, store)
  else
    let newDownload := lifetimeDownload + downloadDelta
    let newUpload := lifetimeUpload + uploadDelta
    (⟨newDownload, newUpload, sessionDownload, sessionUpload, true⟩, ⟨newDownload, newUpload⟩)

/-- The service process: its statistics, and whether `networkConnectionState` is CONNECTED. -/
structure Service where
  stats : DataTransferStats
  isConnected : Bool

/-- The states that the activity's composition remembers.  None of them is saved, so a new
activity begins with the initial ones. -/
structure Activity where
  /-- `connectionStatus == CONNECTED` -/
  connected : Bool
  lifetimeDownload : ℕ
  lifetimeUpload : ℕ
  lastSessionDownload : ℕ
  lastSessionUpload : ℕ

/-- The two processes and the store, and, for the record, which bytes there were. -/
structure World where
  service : Service
  /-- `getDataTransferStatsForUI()`, of the UI process -/
  uiStats : DataTransferStats
  activity : Activity
  store : PersistentTraffic
  /-- bytes counted while the service was connected -/
  carried : Bucket
  /-- those of them that have been reported to the UI -/
  reported : Bucket

/-- A new activity: the status is that of a stopped tunnel until the service says otherwise. -/
def Activity.new (store : PersistentTraffic) : Activity :=
  ⟨false, store.downloadBytes, store.uploadBytes, 0, 0⟩

/-- The service's process begins. -/
def World.initial (store : PersistentTraffic) (uiStats : DataTransferStats) (now : ℕ) : World :=
  ⟨⟨DataTransferStats.new now, false⟩, uiStats, Activity.new store, store, 0, 0⟩

/-- What happens in either process.  A message is taken to arrive when it is sent: until then the
processes do not touch each other's state, and messages keep their order. -/
inductive Event where
  /-- the service: `runTunnel` begins -/
  | runTunnel (now : ℕ)
  /-- the service: `onConnecting` -/
  | onConnecting (now : ℕ)
  /-- the service: `onStartedWaitingForNetworkConnectivity` -/
  | onStartedWaitingForNetworkConnectivity
  /-- the service: `onConnected` -/
  | onConnected (now : ℕ)
  /-- the service: `onBytesTransferred`, with a reading of the clock for each count -/
  | onBytesTransferred (sentNow sent receivedNow received : ℕ)
  /-- the service: `runTunnel` ends -/
  | tunnelStopped (now : ℕ)
  /-- a report of the service's statistics reaches the UI -/
  | dataTransferStats
  /-- `dataStats` changes without a report: `dataStatsRelay.accept(0L)` -/
  | serviceDisconnected
  /-- the status that the activity derives from the service's state is, or is not, CONNECTED -/
  | connectionStatus (connected : Bool)
  /-- the activity is created anew -/
  | recreate
  /-- the UI process is started anew, and the activity with it -/
  | restartUi (now : ℕ)

namespace World

/-- The effect on `dataStats` and `connectionStatus`. -/
def accumulate (w : World) : World :=
  if w.activity.connected then
    let (result, store) := w.store.accumulateSessionDelta w.activity.lifetimeDownload
      w.activity.lifetimeUpload w.uiStats.m_totalBytesReceived w.uiStats.m_totalBytesSent
      w.activity.lastSessionDownload w.activity.lastSessionUpload
    { w with
      store := store
      activity :=
        { w.activity with
          lifetimeDownload :=
            if result.changed then result.lifetimeDownload else w.activity.lifetimeDownload
          lifetimeUpload :=
            if result.changed then result.lifetimeUpload else w.activity.lifetimeUpload
          lastSessionDownload := result.lastSessionDownload
          lastSessionUpload := result.lastSessionUpload } }
  else w

/-- The effect on `connectionStatus`. -/
def resetBaselines (w : World) : World :=
  if w.activity.connected then w
  else { w with activity := { w.activity with lastSessionDownload := 0, lastSessionUpload := 0 } }

/-- `getDataTransferStatsFromBundle`. -/
def report (w : World) : World := { w with uiStats := w.service.stats, reported := w.carried }

/-- Another status. -/
def compose (w : World) (connected : Bool) : World :=
  { w with activity := { w.activity with connected := connected } }

def step (w : World) : Event → World
  | .runTunnel now =>
    { w with service := { stats := w.service.stats.startSession now, isConnected := false } }
  | .onConnecting now =>
    { w with service := { stats := w.service.stats.stop now, isConnected := false } }
  | .onStartedWaitingForNetworkConnectivity =>
    { w with service := { w.service with isConnected := false } }
  | .onConnected now =>
    { w with service := { stats := w.service.stats.startConnected now, isConnected := true } }
  | .onBytesTransferred sentNow sent receivedNow received =>
    let stats := (w.service.stats.addBytesSent sentNow sent).addBytesReceived receivedNow received
    { w with
      service := { w.service with stats := stats }
      carried := if w.service.isConnected then w.carried + ⟨sent, received⟩ else w.carried }
  | .tunnelStopped now =>
    { w with service := { stats := w.service.stats.stop now, isConnected := false } }
  | .dataTransferStats => w.report.accumulate
  | .serviceDisconnected => w.accumulate
  | .connectionStatus connected =>
    -- effects run again when a key of theirs has changed
    if connected = w.activity.connected then w
    else (w.compose connected).resetBaselines.accumulate
  | .recreate => { w with activity := Activity.new w.store }
  | .restartUi now =>
    { w with uiStats := DataTransferStats.new now, activity := Activity.new w.store }

/-! ## 2. What one step does to the store -/

/-- The activity's totals are the stored ones, and its baselines are the copy while CONNECTED is
shown and zero while it is not. -/
structure Sound (w : World) : Prop where
  lifetimeDownload : w.activity.lifetimeDownload = w.store.downloadBytes
  lifetimeUpload : w.activity.lifetimeUpload = w.store.uploadBytes
  lastSessionDownload : w.activity.lastSessionDownload =
    if w.activity.connected then w.uiStats.m_totalBytesReceived else 0
  lastSessionUpload : w.activity.lastSessionUpload =
    if w.activity.connected then w.uiStats.m_totalBytesSent else 0

theorem sound_initial (store : PersistentTraffic) (uiStats : DataTransferStats) (now : ℕ) :
    (initial store uiStats now).Sound := ⟨rfl, rfl, rfl, rfl⟩

/-- What the copy holds beyond the baselines. -/
def beyond (w : World) : Bucket :=
  ⟨w.uiStats.m_totalBytesSent - w.activity.lastSessionUpload,
    w.uiStats.m_totalBytesReceived - w.activity.lastSessionDownload⟩

/-- While CONNECTED is not shown nothing is added. -/
theorem accumulate_of_not {w : World} (h : w.activity.connected = false) : w.accumulate = w := by
  simp [accumulate, h]

/-- **What the effect does** while CONNECTED is shown: what the copy holds beyond the baselines is
added to the stored totals, and the copy is the new baseline. -/
theorem accumulate_eq {w : World} (hconnected : w.activity.connected = true)
    (hdownload : w.activity.lifetimeDownload = w.store.downloadBytes)
    (hupload : w.activity.lifetimeUpload = w.store.uploadBytes) :
    let download := w.store.downloadBytes + w.beyond.m_bytesReceived
    let upload := w.store.uploadBytes + w.beyond.m_bytesSent
    w.accumulate =
      { w with
        store := ⟨download, upload⟩
        activity := ⟨true, download, upload, w.uiStats.m_totalBytesReceived,
          w.uiStats.m_totalBytesSent⟩ } := by
  intro download upload
  rw [accumulate, if_pos hconnected, PersistentTraffic.accumulateSessionDelta]
  by_cases hsame : w.uiStats.m_totalBytesReceived - w.activity.lastSessionDownload = 0 ∧
      w.uiStats.m_totalBytesSent - w.activity.lastSessionUpload = 0
  · have hdown : download = w.store.downloadBytes := by simp [download, beyond, hsame.1]
    have hup : upload = w.store.uploadBytes := by simp [upload, beyond, hsame.2]
    rw [if_pos hsame, hdown, hup]
    simp [hconnected, hdownload, hupload]
  · rw [if_neg hsame, hdownload, hupload]
    simp [hconnected, download, upload, beyond]

/-- The effect leaves a sound state, whatever the baselines were. -/
theorem sound_accumulate {w : World} (hconnected : w.activity.connected = true)
    (hdownload : w.activity.lifetimeDownload = w.store.downloadBytes)
    (hupload : w.activity.lifetimeUpload = w.store.uploadBytes) : w.accumulate.Sound := by
  rw [accumulate_eq hconnected hdownload hupload]
  exact ⟨rfl, rfl, rfl, rfl⟩

theorem Sound.accumulate {w : World} (h : w.Sound) : w.accumulate.Sound := by
  cases hconnected : w.activity.connected with
  | true => exact sound_accumulate hconnected h.lifetimeDownload h.lifetimeUpload
  | false =>
    rw [accumulate_of_not hconnected]
    exact h

/-- **Every step** leaves a sound state. -/
theorem Sound.step {w : World} (h : w.Sound) (e : Event) : (w.step e).Sound := by
  cases e with
  | dataTransferStats =>
    cases hconnected : w.activity.connected with
    | true => exact sound_accumulate hconnected h.lifetimeDownload h.lifetimeUpload
    | false =>
      have hsound : w.report.Sound := by
        refine ⟨h.lifetimeDownload, h.lifetimeUpload, ?_, ?_⟩
        · simpa [report, hconnected] using h.lastSessionDownload
        · simpa [report, hconnected] using h.lastSessionUpload
      exact hsound.accumulate
  | serviceDisconnected => exact h.accumulate
  | connectionStatus connected =>
    rw [World.step]
    split
    · exact h
    · cases connected with
      | true => exact sound_accumulate rfl h.lifetimeDownload h.lifetimeUpload
      | false => exact ⟨h.lifetimeDownload, h.lifetimeUpload, rfl, rfl⟩
  | recreate => exact ⟨rfl, rfl, rfl, rfl⟩
  | restartUi now => exact ⟨rfl, rfl, rfl, rfl⟩
  | _ => exact ⟨h.lifetimeDownload, h.lifetimeUpload, h.lastSessionDownload, h.lastSessionUpload⟩

/-! ## 3. Conservation -/

/-- The stored totals have grown by what was carried and reported. -/
def Conserved (before : PersistentTraffic) (w : World) : Prop :=
  w.store.downloadBytes = before.downloadBytes + w.reported.m_bytesReceived ∧
    w.store.uploadBytes = before.uploadBytes + w.reported.m_bytesSent

/-- What the next report will add to the copy. -/
def unreported (w : World) : Bucket :=
  ⟨w.service.stats.m_totalBytesSent - w.uiStats.m_totalBytesSent,
    w.service.stats.m_totalBytesReceived - w.uiStats.m_totalBytesReceived⟩

/-- The condition on a step.  While CONNECTED is shown a report brings what was carried since the
last one and nothing else; while it is not shown a report brings nothing that was carried; and
CONNECTED is shown only on top of an empty copy. -/
def Meets (w : World) : Event → Prop
  | .dataTransferStats =>
    if w.activity.connected then w.reported + w.unreported = w.carried
    else w.reported = w.carried
  | .connectionStatus true => w.activity.connected = false → w.uiStats.totals = 0
  | _ => True

/-- Where nothing is stored nothing may have been reported. -/
theorem conserved_iff_reported {before : PersistentTraffic} {w w' : World}
    (h : w.Conserved before) (hstore : w'.store = w.store) :
    w'.Conserved before ↔ w.reported = w'.reported := by
  obtain ⟨hdown, hup⟩ := h
  rw [Conserved, hstore, hdown, hup, Bucket.ext_iff, and_comm, Nat.add_right_inj,
    Nat.add_right_inj]

/-- What the effect adds to conserved totals must be what was reported meanwhile. -/
theorem conserved_accumulate_iff {before : PersistentTraffic} {w w' : World}
    (h : w.Conserved before) (hstore : w'.store = w.store)
    (hconnected : w'.activity.connected = true)
    (hdownload : w'.activity.lifetimeDownload = w'.store.downloadBytes)
    (hupload : w'.activity.lifetimeUpload = w'.store.uploadBytes) :
    w'.accumulate.Conserved before ↔ w.reported + w'.beyond = w'.reported := by
  obtain ⟨hdown, hup⟩ := h
  rw [accumulate_eq hconnected hdownload hupload, Conserved, hstore, hdown, hup, Bucket.ext_iff,
    Bucket.add_sent, Bucket.add_received, and_comm, Nat.add_assoc, Nat.add_assoc,
    Nat.add_right_inj, Nat.add_right_inj]

/-- While CONNECTED is shown the copy holds nothing beyond the baselines. -/
theorem Sound.beyond_eq_zero {w : World} (h : w.Sound) (hconnected : w.activity.connected = true) :
    w.beyond = 0 := by
  rw [beyond, h.lastSessionDownload, h.lastSessionUpload, hconnected, if_pos rfl, if_pos rfl,
    Nat.sub_self, Nat.sub_self]
  rfl

/-- A report then brings what the copy was behind by. -/
theorem Sound.beyond_report {w : World} (h : w.Sound) (hconnected : w.activity.connected = true) :
    w.report.beyond = w.unreported := by
  have hdown := h.lastSessionDownload
  have hup := h.lastSessionUpload
  rw [hconnected, if_pos rfl] at hdown hup
  rw [beyond, unreported, ← hdown, ← hup]
  rfl

/-- When CONNECTED comes to be shown, the whole copy is beyond them. -/
theorem Sound.beyond_compose {w : World} (h : w.Sound)
    (hconnected : w.activity.connected = false) : (w.compose true).beyond = w.uiStats.totals := by
  have hdown := h.lastSessionDownload
  have hup := h.lastSessionUpload
  rw [hconnected, if_neg Bool.false_ne_true] at hdown hup
  change (⟨w.uiStats.m_totalBytesSent - w.activity.lastSessionUpload,
    w.uiStats.m_totalBytesReceived - w.activity.lastSessionDownload⟩ : Bucket) = _
  rw [hdown, hup]
  rfl

/-- **One step** keeps the totals conserved exactly when it meets the condition. -/
theorem conserved_step_iff {before : PersistentTraffic} {w : World} (hsound : w.Sound)
    (h : w.Conserved before) (e : Event) : (w.step e).Conserved before ↔ w.Meets e := by
  cases e with
  | dataTransferStats =>
    rw [Meets]
    cases hconnected : w.activity.connected with
    | true =>
      rw [if_pos rfl, ← hsound.beyond_report hconnected]
      exact @conserved_accumulate_iff before w w.report h rfl hconnected hsound.lifetimeDownload
        hsound.lifetimeUpload
    | false =>
      have hstep : w.step .dataTransferStats = w.report := @accumulate_of_not w.report hconnected
      rw [hstep, if_neg Bool.false_ne_true]
      exact @conserved_iff_reported before w w.report h rfl
  | serviceDisconnected =>
    cases hconnected : w.activity.connected with
    | true =>
      refine (conserved_accumulate_iff h rfl hconnected hsound.lifetimeDownload
        hsound.lifetimeUpload).trans (iff_of_true ?_ trivial)
      rw [hsound.beyond_eq_zero hconnected, add_zero]
    | false =>
      have hstep : w.step .serviceDisconnected = w := accumulate_of_not hconnected
      rw [hstep]
      exact iff_of_true h trivial
  | connectionStatus connected =>
    rw [World.step]
    split
    · rename_i hsame
      refine iff_of_true h ?_
      cases connected with
      | true => exact fun hnot => Bool.noConfusion (hsame.trans hnot)
      | false => trivial
    · rename_i hchanged
      cases connected with
      | false => exact iff_of_true h trivial
      | true =>
        have hnot : w.activity.connected = false := by
          cases hc : w.activity.connected with
          | true => exact absurd hc.symm hchanged
          | false => rfl
        refine (@conserved_accumulate_iff before w (w.compose true) h rfl rfl
          hsound.lifetimeDownload hsound.lifetimeUpload).trans ?_
        rw [hsound.beyond_compose hnot, Meets]
        change w.reported + w.uiStats.totals = w.reported ↔ _
        rw [Bucket.add_eq_left]
        exact ⟨fun hempty _ => hempty, fun hmeets => hmeets hnot⟩
  | _ => exact iff_of_true ⟨h.1, h.2⟩ trivial

end World

/-- **Lifetime traffic.**  In a run of one service process the stored totals are at every moment
what they were and the bytes carried and reported since, exactly when every step meets the
condition in the state it is taken in. -/
theorem lifetime_conserved_iff (store : PersistentTraffic) (uiStats : DataTransferStats) (now : ℕ)
    (events : List Event) :
    (∀ done, done <+: events →
        (done.foldl World.step (World.initial store uiStats now)).Conserved store) ↔
      ∀ done e rest, events = done ++ e :: rest →
        (done.foldl World.step (World.initial store uiStats now)).Meets e :=
  Transition.foldl_forall_iff World.step (World.sound_initial store uiStats now) ⟨rfl, rfl⟩
    (fun _ e h => h.step e) (fun _ e hsound h => World.conserved_step_iff hsound h e) events

/-- **Where it fails.**  Ten bytes are received and reported in the first connection; the second
connection carries none, and the ten bytes are added again. -/
theorem reconnect_counts_again :
    let events : List Event := [.onConnected 0, .connectionStatus true,
      .onBytesTransferred 100 0 100 10, .dataTransferStats, .onConnecting 200,
      .connectionStatus false, .onConnected 300, .connectionStatus true]
    let w := events.foldl World.step
      (World.initial ⟨0, 0⟩ (DataTransferStats.new 0) 0)
    w.reported = ⟨0, 10⟩ ∧ w.store = ⟨20, 0⟩ ∧ ¬ w.Conserved ⟨0, 0⟩ := by
  unfold World.Conserved
  decide

end ShiroKhorshid.Traffic
