/-
# Starts and stops

A start command reaches `onStartCommand` of the service instance there is, or of a new one; the
first start an instance sees makes the stop latch and the tunnel thread, and every later one does
nothing.  A stop counts the latch down; the thread wakes, cleans up and calls `stopSelf`, and the
system then destroys the instance.  A start that reaches an instance on its way out is therefore
lost, and nothing makes up for it.

`System` is what the operating system sees: an instance at most, and what happened to the last
command.

* Every instance is in order (`Instance.Ok`, `LifecycleStep.ok`): its first start is the only one
  that makes anything, and its latch is counted down once.
* `Tracks` ties the last command to the instance.  A step keeps it if its start, where it is one,
  lands: it reaches no instance, or one that still serves (`Tracks.step`).
* A start that does not land is lost once the instance it has reached has shut down, which it can do
  at once (`start_lost`).

`start_lands_or_is_lost` is both directions: a run keeps to the last command as long as every start
lands, and every start that does not land can be lost.

Section 4 connects the thread to that of the full machine: every run of `Machine` is, seen from
outside, a run of one instance here (`lifecycle_of_run`).

`onRevoke` is not one of the commands, and the system is taken to deliver commands in order.
-/
import ShiroKhorshid.Service.Machine

namespace ShiroKhorshid.Service

open Transition

/-! ## 1. One instance -/

/-- Where the tunnel thread stands, as far as starts and stops go. -/
inductive ThreadPhase
  | absent
  /-- in the `try` block of `runTunnel`, up to the stop signal -/
  | running
  /-- in the `finally` block -/
  | finishing
  /-- `stopSelf` has been called -/
  | ended
deriving DecidableEq

/-- A service instance. -/
structure Instance where
  m_firstStart : Bool
  /-- the count of the latch, when there is one -/
  m_tunnelThreadStopSignal : Option ℕ
  m_tunnelThread : ThreadPhase
  /-- `stopSelf` has been called -/
  stopSelf : Bool
  /-- the main thread is in `onDestroy` -/
  destroying : Bool
deriving DecidableEq

namespace Instance

def new : Instance := ⟨true, none, .absent, false, false⟩

/-- `countDown` -/
def countDown (i : Instance) : Instance :=
  { i with m_tunnelThreadStopSignal := i.m_tunnelThreadStopSignal.map (· - 1) }

/-- `signalStopService` -/
def signalStopService (i : Instance) : Instance := i.countDown

/-- `onStartCommand`, with or without the stop action. -/
def onStartCommand (i : Instance) (stopTunnel : Bool) : Instance :=
  if stopTunnel then
    if i.m_tunnelThreadStopSignal = none ∨ i.m_tunnelThreadStopSignal = some 0 then
      { i with stopSelf := true }
    else i.signalStopService
  else if i.m_firstStart then
    { i with
      m_firstStart := false
      m_tunnelThreadStopSignal := some 1
      m_tunnelThread := .running }
  else i

/-- The first half of `stopAndWaitForTunnel`, as `onDestroy` calls it; `destroyed` is the end of
the second. -/
def onDestroy (i : Instance) : Instance := { i.countDown with destroying := true }

/-- The thread runs and has not been told to stop, and the instance is to stay. -/
def Serving (i : Instance) : Prop :=
  i.m_tunnelThread = .running ∧ i.m_tunnelThreadStopSignal = some 1 ∧ i.stopSelf = false

instance (i : Instance) : Decidable i.Serving := by
  unfold Serving
  infer_instance

end Instance

/-! ## 2. The system -/

/-- A command the service receives. -/
inductive Command
  | start
  | stop
deriving DecidableEq

/-- The instance there is, and two things for the record: the last command received, and whether
the thread has ended, or begun to end, on its own since. -/
structure System where
  current : Option Instance
  lastCommand : Option Command
  failed : Bool
deriving DecidableEq

def System.new : System := ⟨none, none, false⟩

/-- What can happen. -/
inductive LifecycleEvent
  /-- a start command -/
  | start
  /-- an INTENT_ACTION_STOP_TUNNEL intent -/
  | stopIntent
  /-- a STOP_SERVICE message -/
  | stopMessage
  /-- an exception ends the `try` block -/
  | throws
  /-- a notice of the core (a port in use, a region that is not available) stops the service -/
  | giveUp
  /-- the thread wakes at the stop signal -/
  | wake
  /-- the `finally` block is done -/
  | finish
  | destroy
  | destroyed
deriving DecidableEq

/-- A command reaches the instance there is, or a new one; while the main thread is in
`onDestroy` it waits. -/
def receive (s : System) (command : Command) (stopTunnel : Bool) : Option System :=
  let i := s.current.getD Instance.new
  if i.destroying then none
  else some ⟨some (i.onStartCommand stopTunnel), some command, false⟩

/-- One event; `none` when it cannot happen. -/
def lifecycleStep (s : System) (e : LifecycleEvent) : Option System :=
  match e, s.current with
  | .start, _ => receive s .start false
  | .stopIntent, _ => receive s .stop true
  | .stopMessage, some i =>
    if i.destroying then none else some ⟨some i.signalStopService, some .stop, false⟩
  | .throws, some i =>
    if i.m_tunnelThread = .running then
      some { s with current := some { i with m_tunnelThread := .finishing }, failed := true }
    else none
  | .giveUp, some i =>
    if i.m_tunnelThread = .running ∧ i.destroying = false then
      some { s with current := some i.signalStopService, failed := true }
    else none
  | .wake, some i =>
    if i.m_tunnelThread = .running ∧ i.m_tunnelThreadStopSignal = some 0 then
      some { s with current := some { i with m_tunnelThread := .finishing } }
    else none
  | .finish, some i =>
    if i.m_tunnelThread = .finishing then
      some { s with current := some { i with m_tunnelThread := .ended, stopSelf := true } }
    else none
  | .destroy, some i =>
    if i.stopSelf = true ∧ i.destroying = false then
      some { s with current := some i.onDestroy }
    else none
  | .destroyed, some i =>
    if i.destroying = true ∧ (i.m_tunnelThread = .absent ∨ i.m_tunnelThread = .ended) then
      some { s with current := none }
    else none
  | _, none => none

/-- **What an event can do.** -/
inductive LifecycleStep (s : System) : LifecycleEvent → System → Prop
  | start : (s.current.getD Instance.new).destroying = false →
      LifecycleStep s .start
        ⟨some ((s.current.getD Instance.new).onStartCommand false), some .start, false⟩
  | stopIntent : (s.current.getD Instance.new).destroying = false →
      LifecycleStep s .stopIntent
        ⟨some ((s.current.getD Instance.new).onStartCommand true), some .stop, false⟩
  | stopMessage {i : Instance} : s.current = some i → i.destroying = false →
      LifecycleStep s .stopMessage ⟨some i.signalStopService, some .stop, false⟩
  | throws {i : Instance} : s.current = some i → i.m_tunnelThread = .running →
      LifecycleStep s .throws
        { s with current := some { i with m_tunnelThread := .finishing }, failed := true }
  | giveUp {i : Instance} : s.current = some i → i.m_tunnelThread = .running →
      i.destroying = false →
      LifecycleStep s .giveUp { s with current := some i.signalStopService, failed := true }
  | wake {i : Instance} : s.current = some i → i.m_tunnelThread = .running →
      i.m_tunnelThreadStopSignal = some 0 →
      LifecycleStep s .wake { s with current := some { i with m_tunnelThread := .finishing } }
  | finish {i : Instance} : s.current = some i → i.m_tunnelThread = .finishing →
      LifecycleStep s .finish
        { s with current := some { i with m_tunnelThread := .ended, stopSelf := true } }
  | destroy {i : Instance} : s.current = some i → i.stopSelf = true → i.destroying = false →
      LifecycleStep s .destroy { s with current := some i.onDestroy }
  | destroyed {i : Instance} : s.current = some i →
      i.m_tunnelThread = .absent ∨ i.m_tunnelThread = .ended →
      LifecycleStep s .destroyed { s with current := none }

theorem receive_eq_some {s t : System} {command : Command} {stopTunnel : Bool}
    (h : receive s command stopTunnel = some t) :
    (s.current.getD Instance.new).destroying = false ∧
      t = ⟨some ((s.current.getD Instance.new).onStartCommand stopTunnel), some command,
        false⟩ := by
  unfold receive at h
  dsimp only at h
  split at h
  · cases h
  · rename_i hready
    exact ⟨Bool.eq_false_iff.mpr hready, (Option.some.inj h).symm⟩

theorem LifecycleStep.of_lifecycleStep {s t : System} {e : LifecycleEvent}
    (h : lifecycleStep s e = some t) : LifecycleStep s e t := by
  unfold lifecycleStep at h
  split at h
  · obtain ⟨hready, rfl⟩ := receive_eq_some h
    exact .start hready
  · obtain ⟨hready, rfl⟩ := receive_eq_some h
    exact .stopIntent hready
  · rename_i hcurrent
    split at h
    · cases h
    · rename_i hready
      exact Option.some.inj h ▸ .stopMessage hcurrent (Bool.eq_false_iff.mpr hready)
  · rename_i hcurrent
    split at h
    · rename_i hth
      exact Option.some.inj h ▸ .throws hcurrent hth
    · cases h
  · rename_i hcurrent
    split at h
    · rename_i hcond
      exact Option.some.inj h ▸ .giveUp hcurrent hcond.1 hcond.2
    · cases h
  · rename_i hcurrent
    split at h
    · rename_i hcond
      exact Option.some.inj h ▸ .wake hcurrent hcond.1 hcond.2
    · cases h
  · rename_i hcurrent
    split at h
    · rename_i hth
      exact Option.some.inj h ▸ .finish hcurrent hth
    · cases h
  · rename_i hcurrent
    split at h
    · rename_i hcond
      exact Option.some.inj h ▸ .destroy hcurrent hcond.1 hcond.2
    · cases h
  · rename_i hcurrent
    split at h
    · rename_i hcond
      exact Option.some.inj h ▸ .destroyed hcurrent hcond.2
    · cases h
  · cases h

/-! ## 3. Keeping to the last command -/

/-- There is a tunnel thread that has not begun to clean up. -/
def System.running (s : System) : Bool := s.current.any fun i => i.m_tunnelThread = .running

/-- The tunnel thread is shutting down, or is to. -/
def System.shuttingDown (s : System) : Bool := s.current.any fun i =>
  i.m_tunnelThread = .finishing ||
    (i.m_tunnelThread = .running && i.m_tunnelThreadStopSignal = some 0)

/-- **The last command counts**: a thread runs if and only if the last command was a start, except
where it ended on its own. -/
def KeepsToLastCommand (s : System) : Prop :=
  (s.running = true → s.lastCommand = some .start) ∧
    (s.lastCommand = some .start → s.running = true ∨ s.failed = true)

instance (s : System) : Decidable (KeepsToLastCommand s) := by
  unfold KeepsToLastCommand
  infer_instance

/-- The condition on a step: a start reaches no instance on its way out. -/
def StartLands (s : System) : LifecycleEvent → Prop
  | .start => ∀ i ∈ s.current, i.Serving
  | _ => True

instance (s : System) (e : LifecycleEvent) : Decidable (StartLands s e) :=
  match e with
  | .start => by
    dsimp only [StartLands]
    infer_instance
  | .stopIntent | .stopMessage | .throws | .giveUp | .wake | .finish | .destroy | .destroyed =>
    instDecidableTrue

/-- An instance that has seen a start has a thread and a latch; one that has not is on its way
out. -/
structure Instance.Ok (i : Instance) : Prop where
  fresh : i.m_firstStart = true →
    i.m_tunnelThread = .absent ∧ i.m_tunnelThreadStopSignal = none ∧ i.stopSelf = true
  begun : i.m_firstStart = false → i.m_tunnelThread ≠ .absent ∧
    (i.m_tunnelThreadStopSignal = some 0 ∨ i.m_tunnelThreadStopSignal = some 1)

theorem Instance.Ok.countDown {i : Instance} (h : i.Ok) : i.countDown.Ok := by
  constructor
  · intro hfirst
    obtain ⟨hth, hsignal, hstop⟩ := h.fresh hfirst
    exact ⟨hth, by simp [Instance.countDown, hsignal], hstop⟩
  · intro hfirst
    obtain ⟨hth, hsignal⟩ := h.begun hfirst
    refine ⟨hth, Or.inl ?_⟩
    rcases hsignal with hsignal | hsignal <;> simp [Instance.countDown, hsignal]

/-- A start command makes any instance one that has seen a start. -/
theorem Instance.ok_start {i : Instance} (h : i = Instance.new ∨ i.Ok) :
    (i.onStartCommand false).Ok := by
  cases hfirst : i.m_firstStart with
  | true =>
    simp only [Instance.onStartCommand, hfirst, Bool.false_eq_true, if_false, if_true]
    exact ⟨nofun, fun _ => ⟨nofun, Or.inr rfl⟩⟩
  | false =>
    simp only [Instance.onStartCommand, hfirst, Bool.false_eq_true, if_false]
    rcases h with rfl | h
    · cases hfirst
    · exact h

theorem Instance.ok_stopIntent {i : Instance} (h : i = Instance.new ∨ i.Ok) :
    (i.onStartCommand true).Ok := by
  rcases h with rfl | h
  · exact ⟨fun _ => ⟨rfl, rfl, rfl⟩, nofun⟩
  · simp only [Instance.onStartCommand, if_true]
    split
    · exact ⟨fun hfirst => ⟨(h.fresh hfirst).1, (h.fresh hfirst).2.1, rfl⟩, h.begun⟩
    · exact h.countDown

/-- **Every step** keeps the instance in order. -/
theorem LifecycleStep.ok {s t : System} {e : LifecycleEvent} (h : LifecycleStep s e t)
    (hs : ∀ i ∈ s.current, i.Ok) : ∀ i ∈ t.current, i.Ok := by
  have hreached : s.current.getD Instance.new = Instance.new ∨
      (s.current.getD Instance.new).Ok := by
    cases hcurrent : s.current with
    | none => exact Or.inl rfl
    | some i => exact Or.inr (hs i hcurrent)
  intro j hj
  cases h with
  | start _ => exact Option.some.inj hj ▸ Instance.ok_start hreached
  | stopIntent _ => exact Option.some.inj hj ▸ Instance.ok_stopIntent hreached
  | stopMessage hcurrent _ => exact Option.some.inj hj ▸ (hs _ hcurrent).countDown
  | throws hcurrent hth | wake hcurrent hth _ =>
    obtain rfl := Option.some.inj hj
    have hi := hs _ hcurrent
    exact ⟨fun hfirst => absurd ((hi.fresh hfirst).1.symm.trans hth) (by decide),
      fun hfirst => ⟨nofun, (hi.begun hfirst).2⟩⟩
  | giveUp hcurrent _ _ => exact Option.some.inj hj ▸ (hs _ hcurrent).countDown
  | finish hcurrent hth =>
    obtain rfl := Option.some.inj hj
    have hi := hs _ hcurrent
    exact ⟨fun hfirst => absurd ((hi.fresh hfirst).1.symm.trans hth) (by decide),
      fun hfirst => ⟨nofun, (hi.begun hfirst).2⟩⟩
  | destroy hcurrent _ _ =>
    obtain rfl := Option.some.inj hj
    have hi := (hs _ hcurrent).countDown
    exact ⟨hi.fresh, hi.begun⟩
  | destroyed _ _ => cases hj

/-- The invariant: a thread that runs and has not been told to stop belongs to a last command that
is a start, and such a command has its thread unless that ended on its own. -/
structure Tracks (s : System) : Prop where
  ok : ∀ i ∈ s.current, i.Ok
  serving : ∀ i ∈ s.current, i.m_tunnelThread = .running →
    i.m_tunnelThreadStopSignal = some 1 → s.lastCommand = some .start
  start : s.lastCommand = some .start → s.failed = false → ∃ i ∈ s.current, i.Serving

/-- A latch that has been counted down does not read 1. -/
theorem Instance.Ok.countDown_ne_one {i : Instance} (h : i.Ok) :
    i.countDown.m_tunnelThreadStopSignal ≠ some 1 := by
  intro hone
  cases hfirst : i.m_firstStart with
  | true => simp [Instance.countDown, (h.fresh hfirst).2.1] at hone
  | false =>
    rcases (h.begun hfirst).2 with hsignal | hsignal
    · simp [Instance.countDown, hsignal] at hone
    · simp [Instance.countDown, hsignal] at hone

/-- An instance on which a start is not the last word serves no more. -/
theorem Tracks.of_not_serving {s : System} (hok : ∀ i ∈ s.current, i.Ok)
    (hnot : ∀ i ∈ s.current, i.m_tunnelThread = .running →
      i.m_tunnelThreadStopSignal ≠ some 1)
    (hstart : s.lastCommand = some .start → s.failed = true) : Tracks s :=
  ⟨hok, fun i hi hth hone => absurd hone (hnot i hi hth), fun hlast hfailed =>
    absurd ((hstart hlast).symm.trans hfailed) (by decide)⟩

/-- A start that has not failed is incompatible with an instance that does not serve. -/
theorem Tracks.failed_of_not_serving {s : System} (hs : Tracks s) {i : Instance}
    (hcurrent : s.current = some i) (hnot : ¬ i.Serving) :
    s.lastCommand = some .start → s.failed = true := by
  intro hlast
  by_contra hfailed
  obtain ⟨j, hj, hserving⟩ := hs.start hlast (Bool.eq_false_iff.mpr hfailed)
  obtain rfl := Option.some.inj (hcurrent.symm.trans hj)
  exact hnot hserving

/-- **Every step** of which a start, if it is one, lands, keeps the invariant. -/
theorem Tracks.step {s t : System} {e : LifecycleEvent} (hs : Tracks s) (hok : StartLands s e)
    (h : LifecycleStep s e t) : Tracks t := by
  have ht := h.ok hs.ok
  cases h with
  | start _ =>
    refine ⟨ht, fun _ _ _ _ => rfl, fun _ _ => ⟨_, rfl, ?_⟩⟩
    cases hcurrent : s.current with
    | none => exact ⟨rfl, rfl, rfl⟩
    | some i =>
      have hserving : i.Serving := hok i hcurrent
      have hfirst : i.m_firstStart = false := by
        by_contra hne
        have habsent := ((hs.ok i hcurrent).fresh (Bool.eq_true_of_not_eq_false hne)).1
        exact absurd (habsent.symm.trans hserving.1) (by decide)
      simpa [Instance.onStartCommand, hfirst] using hserving
  | stopIntent _ =>
    refine .of_not_serving ht ?_ nofun
    intro i hi hth
    obtain rfl := Option.some.inj hi
    cases hcurrent : s.current with
    | none => exact nofun
    | some i =>
      simp only [Instance.onStartCommand, if_true, Option.getD_some]
      split
      · rename_i hcond
        rcases hcond with hsignal | hsignal <;> simp [hsignal]
      · exact (hs.ok i hcurrent).countDown_ne_one
  | stopMessage hcurrent _ =>
    refine .of_not_serving ht ?_ nofun
    intro i hi _
    exact Option.some.inj hi ▸ (hs.ok _ hcurrent).countDown_ne_one
  | throws hcurrent _ =>
    exact .of_not_serving ht (fun i hi hth => by cases Option.some.inj hi; cases hth) (fun _ => rfl)
  | giveUp hcurrent _ _ =>
    refine .of_not_serving ht ?_ (fun _ => rfl)
    intro i hi _
    exact Option.some.inj hi ▸ (hs.ok _ hcurrent).countDown_ne_one
  | wake hcurrent _ hzero =>
    refine .of_not_serving ht ?_ (hs.failed_of_not_serving hcurrent ?_)
    · intro i hi hth
      cases Option.some.inj hi
      cases hth
    · exact fun hserving => absurd (hzero.symm.trans hserving.2.1) (by decide)
  | finish hcurrent hfinishing =>
    refine .of_not_serving ht ?_ (hs.failed_of_not_serving hcurrent ?_)
    · intro i hi hth
      cases Option.some.inj hi
      cases hth
    · exact fun hserving => absurd (hfinishing.symm.trans hserving.1) (by decide)
  | destroy hcurrent hstop _ =>
    refine .of_not_serving ht ?_ (hs.failed_of_not_serving hcurrent ?_)
    · intro i hi _
      cases Option.some.inj hi
      exact (hs.ok _ hcurrent).countDown_ne_one
    · exact fun hserving => absurd (hstop.symm.trans hserving.2.2) (by decide)
  | destroyed hcurrent hgone =>
    refine .of_not_serving ht nofun (hs.failed_of_not_serving hcurrent ?_)
    intro hserving
    rcases hgone with hgone | hgone
    · exact absurd (hgone.symm.trans hserving.1) (by decide)
    · exact absurd (hgone.symm.trans hserving.1) (by decide)

theorem tracks_new : Tracks System.new := ⟨nofun, nofun, nofun⟩

/-- With no thread shutting down, the invariant is what is wanted. -/
theorem Tracks.keepsToLastCommand {s : System} (hs : Tracks s) (hsettled : s.shuttingDown = false) :
    KeepsToLastCommand s := by
  constructor
  · intro hrunning
    obtain ⟨i, hi, hth⟩ := (Option.any_eq_true _ _).mp hrunning
    have hth : i.m_tunnelThread = .running := of_decide_eq_true hth
    have hnot : i.m_tunnelThreadStopSignal ≠ some 0 := by
      intro hzero
      simp [System.shuttingDown, hi, hth, hzero] at hsettled
    cases hfirst : i.m_firstStart with
    | true =>
      have habsent := ((hs.ok i hi).fresh hfirst).1
      exact absurd (habsent.symm.trans hth) (by decide)
    | false =>
      rcases ((hs.ok i hi).begun hfirst).2 with hzero | hone
      · exact absurd hzero hnot
      · exact hs.serving i hi hth hone
  · intro hlast
    cases hfailed : s.failed with
    | true => exact Or.inr rfl
    | false =>
      obtain ⟨i, hi, hserving⟩ := hs.start hlast hfailed
      exact Or.inl ((Option.any_eq_true _ _).mpr ⟨i, hi, decide_eq_true hserving.1⟩)

/-- The steps of an instance that goes away. -/
def LifecycleEvent.isShutdown : LifecycleEvent → Bool
  | .wake | .finish | .destroy | .destroyed => true
  | _ => false

/-- The last command is a start, and no thread of it is left. -/
theorem lost_of_ended {i : Instance} (h : i.m_tunnelThread = .ended) :
    System.shuttingDown ⟨some i, some .start, false⟩ = false ∧
      ¬ KeepsToLastCommand ⟨some i, some .start, false⟩ := by
  constructor
  · simp [System.shuttingDown, h]
  · intro hkeeps
    rcases hkeeps.2 rfl with hrunning | hfailed
    · simp [System.running, h] at hrunning
    · cases hfailed

/-- **A start that does not land** is lost once the instance it reached has shut down. -/
theorem start_lost {s t : System} (hs : ∀ i ∈ s.current, i.Ok)
    (h : LifecycleStep s .start t) (hlands : ¬ StartLands s .start) :
    ∃ es u, (∀ e ∈ es, e.isShutdown = true) ∧ exec lifecycleStep t es = some u ∧
      u.shuttingDown = false ∧ ¬ KeepsToLastCommand u := by
  obtain ⟨i, hlands⟩ := not_forall.mp hlands
  obtain ⟨hcurrent, hnot⟩ := Classical.not_imp.mp hlands
  have hi := hs i hcurrent
  obtain ⟨first, signal, th, stop, destroying⟩ := i
  cases h with
  | start hready =>
    have hcurrent : s.current = some ⟨first, signal, th, stop, destroying⟩ := hcurrent
    rw [hcurrent] at hready ⊢
    obtain rfl : destroying = false := hready
    cases first with
    | true =>
      obtain ⟨-, -, rfl⟩ := hi.fresh rfl
      exact ⟨[.destroy, .wake, .finish], _, by decide, rfl, lost_of_ended rfl⟩
    | false =>
      obtain ⟨hth, hsignal⟩ := hi.begun rfl
      cases th with
      | absent => exact absurd rfl hth
      | finishing => exact ⟨[.finish], _, by decide, rfl, lost_of_ended rfl⟩
      | ended => exact ⟨[], _, by decide, rfl, lost_of_ended rfl⟩
      | running =>
        rcases hsignal with hsignal | hsignal
        · obtain rfl : signal = some 0 := hsignal
          exact ⟨[.wake, .finish], _, by decide, rfl, lost_of_ended rfl⟩
        · obtain rfl : signal = some 1 := hsignal
          cases stop with
          | false => exact absurd ⟨rfl, rfl, rfl⟩ hnot
          | true => exact ⟨[.destroy, .wake, .finish], _, by decide, rfl, lost_of_ended rfl⟩

/-- **Starts and stops.**  In a run in which every start lands, once no thread is shutting down a
thread runs if and only if the last command was a start, except where it ended on its own.  And
whenever a start does not land, the instance can shut down so that it is lost. -/
theorem start_lands_or_is_lost {es : List LifecycleEvent} {s : System}
    (h : exec lifecycleStep System.new es = some s) :
    (Run lifecycleStep StartLands System.new es s → s.shuttingDown = false →
      KeepsToLastCommand s) ∧
    (∀ t, lifecycleStep s .start = some t → ¬ StartLands s .start →
      ∃ es' u, (∀ e ∈ es', e.isShutdown = true) ∧ exec lifecycleStep t es' = some u ∧
        u.shuttingDown = false ∧ ¬ KeepsToLastCommand u) := by
  constructor
  · intro hrun hsettled
    have hs : Tracks s := hrun.invariant tracks_new
      (fun _ _ _ hs hok hst => hs.step hok (.of_lifecycleStep hst))
    exact hs.keepsToLastCommand hsettled
  · intro t hst hlands
    have hs : ∀ i ∈ s.current, i.Ok := (run_of_exec h).invariant nofun
      (fun _ _ _ hs _ hst => (LifecycleStep.of_lifecycleStep hst).ok hs)
    exact start_lost hs (.of_lifecycleStep hst) hlands

/-- The theorem at a start after a stop that has been carried out. -/
theorem start_lands_after_shutdown :
    ∃ s, exec lifecycleStep System.new
        [.start, .stopMessage, .wake, .finish, .destroy, .destroyed, .start] = some s ∧
      KeepsToLastCommand s := by
  obtain ⟨s, hs, hsettled⟩ := (Option.any_eq_true _ _).mp
    (show (execIf lifecycleStep StartLands System.new
      [.start, .stopMessage, .wake, .finish, .destroy, .destroyed, .start]).any
      (fun s => s.shuttingDown = false) = true by decide)
  have hrun := run_of_execIf hs
  exact ⟨s, hrun.exec_eq,
    (start_lands_or_is_lost hrun.exec_eq).1 hrun (of_decide_eq_true hsettled)⟩

/-- **Where a start is lost.**  It comes while the stopped thread cleans up: it does nothing, and
then the service is gone. -/
theorem start_during_shutdown_lost :
    ∃ s, exec lifecycleStep System.new
        [.start, .stopMessage, .wake, .start, .finish, .destroy, .destroyed] = some s ∧
      s.current = none ∧ s.lastCommand = some .start ∧ s.failed = false := by
  exact ⟨_, rfl, rfl, rfl, rfl⟩

/-! ## 4. The thread of the full machine -/

/-- The phase a tunnel thread is in. -/
def TunnelThread.phase : TunnelThread → ThreadPhase
  | .absent => .absent
  | .finishing | .cancelled | .announced | .tornDown => .finishing
  | .ended => .ended
  | _ => .running

/-- The instance a state of the full machine is about. -/
def TunnelManager.view (s : TunnelManager) : Instance where
  m_firstStart := s.m_tunnelThread = .absent
  m_tunnelThreadStopSignal :=
    if s.m_tunnelThread = .absent then none else some (if s.stopSignalled then 0 else 1)
  m_tunnelThread := s.m_tunnelThread.phase
  stopSelf := s.m_tunnelThread = .ended
  destroying := false

theorem TunnelThread.phase_of_inTry {th : TunnelThread} (h : th.inTry = true) :
    th.phase = .running ∧ th ≠ .absent := by
  cases th <;> first | exact ⟨rfl, nofun⟩ | cases h

/-- The view of a state whose thread is there. -/
theorem view_of_present {s : TunnelManager} {th : TunnelThread} (hth : s.m_tunnelThread = th)
    (hpresent : th ≠ .absent) :
    s.view = ⟨false, some (if s.stopSignalled then 0 else 1), th.phase, th = .ended, false⟩ := by
  simp [TunnelManager.view, hth, hpresent]

/-- A step of the tunnel thread within one phase is not seen. -/
theorem view_eq_of_phase {s t : TunnelManager} (hs : s.m_tunnelThread ≠ .absent)
    (ht : t.m_tunnelThread ≠ .absent) (hstop : t.stopSignalled = s.stopSignalled)
    (hphase : t.m_tunnelThread.phase = s.m_tunnelThread.phase)
    (hended : t.m_tunnelThread ≠ .ended) (hended' : s.m_tunnelThread ≠ .ended) :
    t.view = s.view := by
  rw [view_of_present rfl hs, view_of_present rfl ht, hstop, hphase]
  simp [hended, hended']

/-- **What a step of the full machine is to the system**: one of its events, or nothing. -/
theorem Step.view {sources : BypassSources} {s t : TunnelManager} {e : Event}
    (h : Step sources s e t) {sys : System} (hview : sys.current = some s.view) :
    t.view = s.view ∨
      ∃ e' sys', lifecycleStep sys e' = some sys' ∧ sys'.current = some t.view := by
  have fails : ∀ {u : TunnelManager}, s.m_tunnelThread.inTry = true →
      u.m_tunnelThread = .finishing → u.stopSignalled = s.stopSignalled →
      ∃ e' sys', lifecycleStep sys e' = some sys' ∧ sys'.current = some u.view := by
    intro u htry hfinishing hstop
    obtain ⟨hphase, hpresent⟩ := TunnelThread.phase_of_inTry htry
    refine ⟨.throws, _, by simp only [lifecycleStep, hview]; exact if_pos hphase, ?_⟩
    rw [view_of_present hfinishing nofun, hstop, view_of_present rfl hpresent]
    have hended : s.m_tunnelThread ≠ .ended := by
      intro hended
      rw [hended] at htry
      cases htry
    simp [hended, TunnelThread.phase]
  cases h with
  | threadStep env h =>
    cases h with
    | throws htry => exact Or.inr (fails htry rfl rfl)
    | establishFails hth _ => exact Or.inr (fails (by rw [hth]; rfl) rfl rfl)
    | wake hth hstop =>
      refine Or.inr ⟨.wake,
        { sys with current := some { s.view with m_tunnelThread := .finishing } }, ?_, ?_⟩
      · rw [view_of_present hth (by decide)] at hview ⊢
        simp [lifecycleStep, hview, hstop, TunnelThread.phase]
      · rw [view_of_present hth (by decide), view_of_present rfl (by simp)]
        simp [TunnelThread.phase]
    | stopSelf hth =>
      refine Or.inr ⟨.finish, { sys with
        current := some { s.view with m_tunnelThread := .ended, stopSelf := true } }, ?_, ?_⟩
      · rw [view_of_present hth (by decide)] at hview ⊢
        simp [lifecycleStep, hview, TunnelThread.phase]
      · rw [view_of_present hth (by decide), view_of_present rfl (by simp)]
        simp [TunnelThread.phase]
    | begin hth | setMode hth | readShare hth _ | setShare hth | skipBypass hth _
    | takeBypass hth _ | readConfig hth _ | setRoutes hth | setDns hth | establish hth _
    | startTunneling hth | cancelTimer hth | announce hth | tearDown hth =>
      exact Or.inl (view_eq_of_phase (by rw [hth]; nofun) nofun rfl (by rw [hth]; rfl) nofun
        (by rw [hth]; nofun))
  | start p habsent =>
    refine Or.inr ⟨.start, ⟨some (s.view.onStartCommand false), some .start, false⟩, ?_, ?_⟩
    · simp [lifecycleStep, receive, hview, TunnelManager.view]
    · simp [TunnelManager.view, habsent, Instance.onStartCommand, TunnelThread.phase]
  | stop =>
    by_cases habsent : s.m_tunnelThread = .absent
    · exact Or.inl (by simp [TunnelManager.view, habsent])
    · refine Or.inr ⟨.stopMessage, ⟨some s.view.signalStopService, some .stop, false⟩, ?_, ?_⟩
      · simp [lifecycleStep, hview, TunnelManager.view]
      · have hstopped : ({ s with stopSignalled := true } : TunnelManager).view
            = ⟨false, some 0, s.m_tunnelThread.phase, s.m_tunnelThread = .ended, false⟩ :=
          view_of_present rfl habsent
        rw [hstopped, view_of_present rfl habsent]
        cases hstop : s.stopSignalled <;>
          simp [Instance.signalStopService, Instance.countDown]
  | _ => exact Or.inl rfl

/-- The instance of this state has got where it is by events of the system. -/
def IsLifecycleRun (s : TunnelManager) : Prop :=
  ∃ es sys, exec lifecycleStep ⟨some Instance.new, none, false⟩ es = some sys ∧
    sys.current = some s.view

/-- **Every run of the full machine** is a run of its instance. -/
theorem lifecycle_of_run {sources : BypassSources} {m : Vpn.VpnManager} {es : List Event}
    {s : TunnelManager} (h : exec (step sources) (TunnelManager.new m) es = some s) :
    IsLifecycleRun s := by
  have hnew : IsLifecycleRun (TunnelManager.new m) := ⟨[], _, rfl, rfl⟩
  refine (run_of_exec h).invariant hnew ?_
  rintro s e t ⟨es', sys, hexec, hview⟩ - hst
  rcases (Step.of_step sources hst).view hview with hsame | ⟨e', sys', hstep, hview'⟩
  · exact ⟨es', sys, hexec, hsame ▸ hview⟩
  · exact ⟨es' ++ [e'], sys', exec_append_singleton_iff.mpr ⟨sys, hexec, hstep⟩, hview'⟩

end ShiroKhorshid.Service
