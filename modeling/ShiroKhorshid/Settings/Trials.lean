/-
# Trials (`ConnectionCoordinator`, `FindBestConnectionController`)

Two long-running jobs change settings on their own account.  A connect
(`connectWithInternetVerification`) tries one transport after another until the internet is
really reachable, and a scan (`runScan`) measures every transport in every region.  Both load
the settings once, when they start, save a TRIAL for each attempt (the loaded record with the
transport replaced) and at last save the loaded record again, the RESTORE.

They are coroutines on the main thread: a job runs on without interruption to its next
suspension point, and whatever else the app does happens while jobs are suspended.  A job is
therefore a state with a phase, and `resume` runs it from one suspension point to the next.

* A write of a job is a trial or the restore, and touches the transport alone, in a scan the region
  as well (`connectTrial_touches`, `scanTrial_touches`, `restore_touches`).
* Every resume makes at most one write, and it is one of the job's (`Connect.resume_respects`,
  `Scan.resume_respects`); the record it was loaded with stays what it is (`Job.resume_respects`).

That is all that `Updates` has to know of a job.  What the surroundings answer at a suspension
point is `Answer`; an exception is one of them.

What a job does to the tunnel is left out here: see `Attempts` and `FindBest`, where the same two
functions are followed statement by statement.
-/
import ShiroKhorshid.Settings.Store

namespace ShiroKhorshid.Settings

open Jvm Service Record

/-! ## 1. What a job saves -/

/-- A save of a whole record by a writer that means to change some of its fields, which it then
puts once more, one by one. -/
structure Write where
  settings : AzadiSettings
  changed : List Field

/-- `settingsStore.save(settings)`, then a `prefs.put` for each changed field. -/
def Write.commit (w : Write) (p : Preferences) : Preferences :=
  w.changed.foldl (fun p x => put p x.key (x.kind.print (w.settings x))) (save p w.settings)

/-- The write agrees with `original` off the fields in `changed`, and means to change no other. -/
def Write.Touches (w : Write) (original : AzadiSettings) (changed : List Field) : Prop :=
  w.changed = changed ∧ ∀ x, x ∉ changed → w.settings x = original x

/-- The extra puts repeat what the save has put. -/
theorem Write.commit_eq_save {w : Write}
    (h : ∀ x ∈ w.changed, x.puts (w.settings x) = [(x.key, x.kind.print (w.settings x))])
    (p : Preferences) : w.commit p = save p w.settings := by
  have hputs : ∀ xs : List Field, (∀ x ∈ xs, x ∈ w.changed) →
      xs.foldl (fun p x => put p x.key (x.kind.print (w.settings x))) (save p w.settings)
        = save p w.settings := by
    intro xs
    induction xs with
    | nil => exact fun _ => rfl
    | cons x xs ih =>
      intro hxs
      have hx : put (save p w.settings) x.key (x.kind.print (w.settings x))
          = save p w.settings :=
        layout.put_save (h x (hxs x List.mem_cons_self)) p
      rw [List.foldl_cons, hx]
      exact ih fun y hy => hxs y (List.mem_cons_of_mem x hy)
  exact hputs w.changed fun _ hx => hx

/-- The fields a connect means to change. -/
def connectFields : List Field := [.protocolSelection, .beastModeEnabled]

/-- The fields a scan means to change. -/
def scanFields : List Field := [.protocolSelection, .beastModeEnabled, .egressRegion]

/-- A trial of a connect. -/
def connectTrial (original : AzadiSettings) (protocolSelection : String) (beastMode : Bool) :
    Write where
  settings :=
    (original.copy .protocolSelection protocolSelection).copy .beastModeEnabled beastMode
  changed := connectFields

/-- `applyTrial` -/
def scanTrial (base : AzadiSettings) (protocol region : String) (beast : Bool) : Write where
  settings :=
    ((base.copy .protocolSelection protocol).copy .egressRegion region).copy
      .beastModeEnabled beast
  changed := scanFields

theorem connectTrial_touches (original : AzadiSettings) (protocolSelection : String)
    (beastMode : Bool) :
    (connectTrial original protocolSelection beastMode).Touches original connectFields := by
  refine ⟨rfl, ?_⟩
  intro x hx
  simp only [connectFields, List.mem_cons, List.not_mem_nil, or_false, not_or] at hx
  exact (Function.update_of_ne hx.2 _ _).trans (Function.update_of_ne hx.1 _ _)

theorem scanTrial_touches (base : AzadiSettings) (protocol region : String) (beast : Bool) :
    (scanTrial base protocol region beast).Touches base scanFields := by
  refine ⟨rfl, ?_⟩
  intro x hx
  simp only [scanFields, List.mem_cons, List.not_mem_nil, or_false, not_or] at hx
  exact (Function.update_of_ne hx.2.1 _ _).trans
    ((Function.update_of_ne hx.2.2 _ _).trans (Function.update_of_ne hx.1 _ _))

/-- `restore(original)` -/
def restore (original : AzadiSettings) (changed : List Field) : Write := ⟨original, changed⟩

theorem restore_touches (original : AzadiSettings) (changed : List Field) :
    (restore original changed).Touches original changed :=
  ⟨rfl, fun _ _ => rfl⟩

/-! ## 2. The attempts of a connect (`FallbackChainController`) -/

structure FallbackStep where
  protocolSelection : String
  beastMode : Bool
  timeoutSeconds : ℤ
deriving DecidableEq

def escapeHatches : List FallbackStep :=
  [⟨"cdn_fronting", true, 120⟩, ⟨"auto", true, 120⟩, ⟨"direct", false, 120⟩]

def stepsFor (protocolSelection : String) : List FallbackStep :=
  let cdn : FallbackStep := ⟨"cdn_fronting", true, 120⟩
  let auto : FallbackStep := ⟨"auto", true, 120⟩
  let direct : FallbackStep := ⟨"direct", false, 120⟩
  if protocolSelection = "cdn_fronting" then [cdn, auto, direct]
  else if protocolSelection = "auto" then [cdn, direct]
  else if protocolSelection = "direct" then [direct]
  else []

/-- `add`: a step whose transport has been seen is dropped. -/
def addStep (out : List FallbackStep) (step : FallbackStep) : List FallbackStep :=
  if out.any fun seen =>
      seen.protocolSelection = step.protocolSelection && seen.beastMode = step.beastMode
  then out else out ++ [step]

/-- Ordered connection attempts: user selection first, then smart chain, then escape routes. -/
def internetAwareAttemptsFor (settings : AzadiSettings) : List FallbackStep :=
  let protocolSelection : String := settings .protocolSelection
  let smartFallbackChainEnabled : Bool := settings .smartFallbackChainEnabled
  let chain :=
    if smartFallbackChainEnabled && protocolSelection != "conduit" then stepsFor protocolSelection
    else []
  (⟨protocolSelection, settings .beastModeEnabled, 120⟩ :: chain ++ escapeHatches).foldl addStep []

/-! ## 3. A connect -/

/-- What a suspended job is resumed with. -/
inductive Answer
  /-- A delay is over, or a log entry is written. -/
  | done
  /-- `awaitTunnelState().isRunning` -/
  | running (isRunning : Bool)
  /-- `startTunnel()` -/
  | started (ok : Bool)
  /-- `waitForConnected`, `waitConnected` -/
  | connected (up : Bool)
  /-- `PostConnectDiagnostics.run(…).internetOk` -/
  | internet (ok : Bool)
  /-- `measureSpeedMbps() >= minSpeedMbps` -/
  | speed (enough : Bool)
  /-- A `CancellationException` or any other exception. -/
  | thrown
deriving DecidableEq

inductive ConnectPhase
  /-- The top of the loop. -/
  | attempt
  /-- `awaitTunnelState()` -/
  | before
  | stopping
  | starting
  | waiting
  /-- `delay(2500)` -/
  | settling
  /-- The region, for the diagnostics. -/
  | locating
  | diagnosing
  /-- `delay(1000)` after a failed attempt. -/
  | resting
deriving DecidableEq

/-- A running `connectWithInternetVerification`. -/
structure Connect where
  original : AzadiSettings
  /-- The attempts still to be made. -/
  attempts : List FallbackStep
  phase : ConnectPhase

/-- The job up to its first suspension point, over what `load` returned. -/
def Connect.begin (skipRecursiveFallback : Bool) (original : AzadiSettings) : Connect where
  original := original
  attempts :=
    if skipRecursiveFallback then
      [⟨original .protocolSelection, original .beastModeEnabled, 120⟩]
    else internetAwareAttemptsFor original
  phase := .attempt

/-- What a step saves, and the job it leaves suspended (`none`: the job has ended). -/
abbrev Outcome (Job : Type) := Option Write × Option Job

/-- The job is suspended again, with nothing saved. -/
def Connect.goto (job : Connect) (phase : ConnectPhase) : Option (Outcome Connect) :=
  some (none, some { job with phase := phase })

/-- One step. -/
def Connect.resume (job : Connect) (answer : Answer) : Option (Outcome Connect) :=
  match job.phase, answer with
  -- nothing catches an exception: there is no restore
  | _, .thrown => some (none, none)
  | .attempt, .done => match job.attempts with
    | [] => some (some (restore job.original connectFields), none)
    | step :: rest =>
      some (some (connectTrial job.original step.protocolSelection step.beastMode),
        some { job with attempts := rest, phase := .before })
  | .before, .running isRunning => job.goto (if isRunning then .stopping else .starting)
  | .stopping, .done => job.goto .starting
  | .starting, .started ok => job.goto (if ok then .waiting else .attempt)
  | .waiting, .connected up => job.goto (if up then .settling else .attempt)
  | .settling, .done => job.goto .locating
  | .locating, .done => job.goto .diagnosing
  | .diagnosing, .internet ok => if ok then some (none, none) else job.goto .resting
  | .resting, .done => job.goto .attempt
  | _, _ => none

/-- What a step does, in terms of what the job has loaded: it saves nothing, or a write over the
loaded record that touches `changed`; and a job that goes on keeps what it has loaded. -/
def Outcome.Respects {Job : Type} (outcome : Outcome Job) (snapshot : Job → AzadiSettings)
    (original : AzadiSettings) (changed : List Field) : Prop :=
  (∀ w, outcome.1 = some w → w.Touches original changed) ∧
    ∀ job, outcome.2 = some job → snapshot job = original

theorem Outcome.respects_ended {Job : Type} {snapshot : Job → AzadiSettings}
    {original : AzadiSettings} {changed : List Field} {o : Option Write}
    (h : ∀ w, o = some w → w.Touches original changed) :
    Outcome.Respects (o, none) snapshot original changed :=
  ⟨h, fun _ hjob => nomatch hjob⟩

theorem Outcome.respects_suspended {Job : Type} {snapshot : Job → AzadiSettings}
    {original : AzadiSettings} {changed : List Field} {o : Option Write} {job : Job}
    (h : ∀ w, o = some w → w.Touches original changed) (hjob : snapshot job = original) :
    Outcome.Respects (o, some job) snapshot original changed :=
  ⟨h, fun _ hj => by rw [← Option.some.inj hj, hjob]⟩

theorem touches_of_none {original : AzadiSettings} {changed : List Field} (w : Write)
    (h : none = some w) : w.Touches original changed := nomatch h

theorem touches_of_some {original : AzadiSettings} {changed : List Field} {u : Write}
    (hu : u.Touches original changed) (w : Write) (h : some u = some w) :
    w.Touches original changed := by
  rwa [← Option.some.inj h]

/-- A connect saves nothing but changes of the transport over what it loaded. -/
theorem Connect.resume_respects {job : Connect} {answer : Answer} {outcome : Outcome Connect}
    (h : job.resume answer = some outcome) :
    outcome.Respects Connect.original job.original connectFields := by
  have hgoto : ∀ phase, job.goto phase = some outcome →
      outcome.Respects Connect.original job.original connectFields := by
    intro phase hphase
    obtain rfl := Option.some.inj hphase
    exact Outcome.respects_suspended touches_of_none rfl
  have hended : some (none, none) = some outcome →
      outcome.Respects Connect.original job.original connectFields := by
    intro hnone
    obtain rfl := Option.some.inj hnone
    exact Outcome.respects_ended touches_of_none
  unfold Connect.resume at h
  split at h
  · exact hended h
  · split at h
    · obtain rfl := Option.some.inj h
      exact Outcome.respects_ended (touches_of_some (restore_touches _ _))
    · obtain rfl := Option.some.inj h
      exact Outcome.respects_suspended (touches_of_some (connectTrial_touches _ _ _)) rfl
  · exact hgoto _ h
  · exact hgoto _ h
  · exact hgoto _ h
  · exact hgoto _ h
  · exact hgoto _ h
  · exact hgoto _ h
  · split at h
    · exact hended h
    · exact hgoto _ h
  · exact hgoto _ h
  · cases h

/-! ## 4. A scan -/

/-- `regions`, with `REGION_CODE_ANY` first. -/
def regions : List String :=
  ["", "US", "CA", "GB", "DE", "FR", "NL", "CH", "SE", "JP", "SG", "AU", "IR", "AE", "IN", "BR",
    "ZA"]

/-- The candidates in the order of the two loops, each a protocol and a region. -/
def candidates (conduitAllowed : Bool) : List (String × String) :=
  regions.map (fun region => ("direct", region)) ++
    regions.map (fun region => ("cdn_fronting", region)) ++
    if conduitAllowed then [("conduit", "")] else []

inductive ScanPhase
  /-- The top of the inner loop. -/
  | candidate
  /-- `delay(800)` after the trial is saved. -/
  | stopping
  | starting
  | waiting
  | measuring
  /-- `delay(500)` with the question whether to go on. -/
  | asking
  | resting
deriving DecidableEq

/-- A running `runScan`. -/
structure Scan where
  original : AzadiSettings
  /-- The candidates still to be tried. -/
  rest : List (String × String)
  /-- `working.size` -/
  working : ℕ
  phase : ScanPhase

/-- The job up to its first suspension point, over what `load` returned. -/
def Scan.begin (conduitAllowed : Bool) (original : AzadiSettings) : Scan where
  original := original
  rest := candidates conduitAllowed
  working := 0
  phase := .candidate

def Scan.goto (job : Scan) (phase : ScanPhase) : Option (Outcome Scan) :=
  some (none, some { job with phase := phase })

/-- The scan is over, whichever way. -/
def Scan.finish (job : Scan) : Option (Outcome Scan) :=
  some (some (restore job.original scanFields), none)

/-- One step, with the controller's `cancelled` flag. -/
def Scan.resume (job : Scan) (cancelled : Bool) (answer : Answer) : Option (Outcome Scan) :=
  match job.phase, answer with
  | _, .thrown => job.finish
  | .candidate, .done =>
    if cancelled then job.finish
    else match job.rest with
      | [] => job.finish
      | (protocol, region) :: rest =>
        some (some (scanTrial job.original protocol region (protocol != "direct")),
          some { job with rest := rest, phase := .stopping })
  | .stopping, .done => job.goto .starting
  | .starting, .started ok => job.goto (if ok then .waiting else .candidate)
  | .waiting, .connected up => job.goto (if up then .measuring else .candidate)
  | .measuring, .speed enough =>
    if enough then
      Scan.goto { job with working := job.working + 1 }
        (if job.working + 1 ≥ 5 then .asking else .resting)
    else job.goto .resting
  -- the flag leaves both loops
  | .asking, .done => if cancelled then job.finish else job.goto .resting
  | .resting, .done => job.goto .candidate
  | _, _ => none

/-- A scan saves nothing but changes of the transport and the region over what it loaded. -/
theorem Scan.resume_respects {job : Scan} {cancelled : Bool} {answer : Answer}
    {outcome : Outcome Scan} (h : job.resume cancelled answer = some outcome) :
    outcome.Respects Scan.original job.original scanFields := by
  have hgoto : ∀ (job' : Scan) (phase : ScanPhase), job'.original = job.original →
      job'.goto phase = some outcome →
      outcome.Respects Scan.original job.original scanFields := by
    intro job' phase horiginal hphase
    obtain rfl := Option.some.inj hphase
    exact Outcome.respects_suspended touches_of_none horiginal
  have hfinish : job.finish = some outcome →
      outcome.Respects Scan.original job.original scanFields := by
    intro hrestore
    obtain rfl := Option.some.inj hrestore
    exact Outcome.respects_ended (touches_of_some (restore_touches _ _))
  unfold Scan.resume at h
  split at h
  · exact hfinish h
  · split at h
    · exact hfinish h
    · split at h
      · exact hfinish h
      · obtain rfl := Option.some.inj h
        exact Outcome.respects_suspended (touches_of_some (scanTrial_touches _ _ _ _)) rfl
  · exact hgoto job _ rfl h
  · exact hgoto job _ rfl h
  · exact hgoto job _ rfl h
  · split at h
    · exact hgoto { job with working := job.working + 1 } _ rfl h
    · exact hgoto job _ rfl h
  · split at h
    · exact hfinish h
    · exact hgoto job _ rfl h
  · exact hgoto job _ rfl h
  · cases h

/-! ## 5. Jobs -/

/-- A suspended job. -/
inductive Job
  | connect (job : Connect)
  | scan (job : Scan)

/-- What the job loaded when it began. -/
def Job.original : Job → AzadiSettings
  | .connect job => job.original
  | .scan job => job.original

/-- The fields the job means to change. -/
def Job.changed : Job → List Field
  | .connect _ => connectFields
  | .scan _ => scanFields

def Job.resume (cancelled : Bool) (answer : Answer) : Job → Option (Outcome Job)
  | .connect job => (job.resume answer).map fun outcome => (outcome.1, outcome.2.map .connect)
  | .scan job => (job.resume cancelled answer).map fun outcome => (outcome.1, outcome.2.map .scan)

theorem Outcome.Respects.map {J K : Type} {outcome : Outcome J} {snapshot : J → AzadiSettings}
    {original : AzadiSettings} {changed : List Field} {snapshot' : K → AzadiSettings} {f : J → K}
    (h : outcome.Respects snapshot original changed)
    (hf : ∀ job, snapshot' (f job) = snapshot job) :
    Outcome.Respects (outcome.1, outcome.2.map f) snapshot' original changed := by
  refine ⟨h.1, ?_⟩
  intro job hjob
  obtain ⟨job', hjob', rfl⟩ := Option.map_eq_some_iff.mp hjob
  rw [hf, h.2 job' hjob']

theorem Job.resume_respects {job : Job} {cancelled : Bool} {answer : Answer}
    {outcome : Outcome Job} (h : job.resume cancelled answer = some outcome) :
    outcome.Respects Job.original job.original job.changed := by
  cases job with
  | connect job =>
    obtain ⟨outcome, houtcome, rfl⟩ := Option.map_eq_some_iff.mp h
    exact (Connect.resume_respects houtcome).map fun _ => rfl
  | scan job =>
    obtain ⟨outcome, houtcome, rfl⟩ := Option.map_eq_some_iff.mp h
    exact (Scan.resume_respects houtcome).map fun _ => rfl

/-- A job keeps to the fields it began with. -/
theorem Job.resume_changed {job job' : Job} {cancelled : Bool} {answer : Answer}
    {write : Option Write} (h : job.resume cancelled answer = some (write, some job')) :
    job'.changed = job.changed := by
  cases job with
  | connect job =>
    obtain ⟨outcome, -, heq⟩ := Option.map_eq_some_iff.mp h
    obtain ⟨next, -, rfl⟩ := Option.map_eq_some_iff.mp (Prod.mk.inj heq).2
    rfl
  | scan job =>
    obtain ⟨outcome, -, heq⟩ := Option.map_eq_some_iff.mp h
    obtain ⟨next, -, rfl⟩ := Option.map_eq_some_iff.mp (Prod.mk.inj heq).2
    rfl

/-- The fields a job means to change have one key each. -/
theorem Job.puts_of_mem_changed {job : Job} {x : Field} (h : x ∈ job.changed) (v : x.Value) :
    x.puts v = [(x.key, x.kind.print v)] := by
  have hscan : x ∈ scanFields := by
    cases job with
    | connect _ => exact List.mem_append_left [.egressRegion] h
    | scan _ => exact h
  simp only [scanFields, List.mem_cons, List.not_mem_nil, or_false] at hscan
  rcases hscan with rfl | rfl | rfl <;> rfl

/-- A job's write is one whole-record save. -/
theorem Job.commit_eq_save {job : Job} {w : Write} (hw : w.Touches job.original job.changed)
    (p : Preferences) : w.commit p = save p w.settings :=
  Write.commit_eq_save (fun _ hx => Job.puts_of_mem_changed (hw.1 ▸ hx) _) p

end ShiroKhorshid.Settings
