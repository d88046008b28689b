/-
# A verified connect, step by step (`connectWithInternetVerification`)

`Trials` cuts a connect at the points where other writers can get in between, which is all that
lost updates depend on.  Here the same function is followed statement by statement, with the
tunnel it starts and stops and with EVERY suspension point, the log entries included: at each of
them the coroutine may be cancelled, or what it waits for may throw.

The function means to be all-or-nothing: a call that does not return true should leave the stored
settings as they were and no tunnel of its own running.  What the surroundings do is data
(`Attempt`, `Surroundings`), and `connect_allOrNothing_iff` says for which of them it holds.

* One attempt saves its trial and makes its calls, whichever way it ends (`attempt_eq`); where it
  ends is its `outcome`, which is computed from the data alone.
* The loop is the row of attempts that were made (`tryAll_eq`), so that what is left is read off the
  row: the tunnel of an attempt that no later one stopped (`tunnelLeft_after_iff`), and the settings
  of the last trial saved, or of the restore (`prefs_after`).
* An exception is thrown PAST the restore, and that is where it fails: the trial of the second
  transport stays in the store (`Spared`).

"As they were" is said of the stored settings, before any migration (`Unchanged`, by
`loadInternal`).  The load at the beginning migrates what it finds, so the condition also says that
it finds nothing to migrate.

Other writers are not part of this module; a call has the store to itself.
-/
import ShiroKhorshid.Lib.Script
import ShiroKhorshid.Settings.Codec
import ShiroKhorshid.Settings.Trials

namespace ShiroKhorshid.Settings

open Jvm Service Record Script

/-! ## 1. What a script works on -/

/-- What is thrown at a suspension point. -/
inductive Thrown
  /-- `CancellationException` -/
  | cancellation
  | exception
deriving DecidableEq

/-- A `startTunnel` that returned true, or a `stopTunnel`. -/
inductive TunnelCall
  | started
  | stopped
deriving DecidableEq

/-- The preference store, the tunnel calls made so far, and two flags of
`FindBestConnectionController`. -/
structure World where
  prefs : Preferences
  calls : List TunnelCall
  cancelled : Bool
  /-- `_state.value.running` -/
  running : Bool

/-- A suspending function. -/
abbrev Job.Script (α : Type) := EStateM Thrown World α

def World.commit (w : World) (write : Write) : World := { w with prefs := write.commit w.prefs }

def World.call (w : World) (calls : List TunnelCall) : World := { w with calls := w.calls ++ calls }

/-- After `settingsStore.load()`. -/
def World.loaded (w : World) : World := { w with prefs := migrated w.prefs }

/-- `settingsStore.load()` -/
def loadSettings : Job.Script AzadiSettings := fun w => .ok (load w.prefs) w.loaded

/-- `settingsStore.save(…)`, and the puts after it. -/
def commit (write : Write) : Job.Script Unit := modify fun w => w.commit write

/-- The tunnel call has been made. -/
def call (tunnelCall : TunnelCall) : Job.Script Unit := modify fun w => w.call [tunnelCall]

/-- The last successful `startTunnel` is not followed by a `stopTunnel`. -/
def World.TunnelLeft (w : World) : Prop := w.calls.getLast? = some .started

instance (w : World) : Decidable w.TunnelLeft := inferInstanceAs (Decidable (_ = _))

/-- The stored settings, the protocol and the beast mode among them, are what they were: every one
reads as it did, and the next load, with its migrations, returns what it would have returned. -/
def Unchanged (p q : Preferences) : Prop :=
  (∀ x, loadInternal q x = loadInternal p x) ∧ ∀ x, load q x = load p x

/-! ## 2. The function -/

/-- The suspension points of an attempt, in order. -/
inductive Point
  /-- The entry that announces the attempt. -/
  | announcing
  /-- `awaitTunnelState()`, before the start. -/
  | before
  /-- `delay(1000)` after a running tunnel is stopped. -/
  | stopping
  /-- `startTunnel()` -/
  | starting
  | denied
  /-- The two entries after the start. -/
  | started
  | timedOut
  /-- `delay(2500)` -/
  | settling
  /-- `awaitTunnelState()`, for the region. -/
  | locating
  /-- `PostConnectDiagnostics.run` -/
  | diagnosing
  /-- The two entries after a successful check. -/
  | passed
  /-- The two entries after a failed check. -/
  | failed
  /-- `delay(1000)` after the tunnel is stopped. -/
  | resting
deriving DecidableEq

/-- One turn of a wait loop. -/
inductive Poll
  /-- The tunnel is running and connected, or not yet. -/
  | read (up : Bool)
  | threw (thrown : Thrown)

/-- What one attempt meets. -/
structure Attempt where
  /-- What is thrown at each point, if the attempt gets there. -/
  thrown : Point → Option Thrown
  /-- `before.isRunning` -/
  isRunning : Bool
  /-- `startTunnel()` -/
  startOk : Bool
  /-- The turns of `waitForConnected` before its deadline. -/
  polls : List Poll
  /-- `diag.internetOk` -/
  internetOk : Bool

/-- `waitForConnected` -/
def waitForConnected : List Poll → Except Thrown Bool
  | [] => .ok false
  | .threw thrown :: _ => .error thrown
  | .read up :: rest => if up then .ok true else waitForConnected rest

/-- The turn of the loop after `startTunnel()` has returned true. -/
def verify (a : Attempt) : Job.Script Bool := do
  suspend (a.thrown .started)
  let tunnelUp ← MonadExcept.ofExcept (waitForConnected a.polls)
  if !tunnelUp then
    suspend (a.thrown .timedOut)
    return false
  suspend (a.thrown .settling)
  suspend (a.thrown .locating)
  suspend (a.thrown .diagnosing)
  if a.internetOk then
    suspend (a.thrown .passed)
    return true
  suspend (a.thrown .failed)
  call .stopped
  suspend (a.thrown .resting)
  return false

/-- One turn of the loop: true if the function returns there. -/
def attempt (original : AzadiSettings) (step : FallbackStep) (a : Attempt) : Job.Script Bool := do
  suspend (a.thrown .announcing)
  commit (connectTrial original step.protocolSelection step.beastMode)
  suspend (a.thrown .before)
  if a.isRunning then
    call .stopped
    suspend (a.thrown .stopping)
  suspend (a.thrown .starting)
  if !a.startOk then
    suspend (a.thrown .denied)
    return false
  call .started
  verify a

/-- The loop over the attempts. -/
def tryAll (original : AzadiSettings) : List FallbackStep → (ℕ → Attempt) → Job.Script Bool
  | [], _ => return false
  | step :: rest, met => do
    if ← attempt original step (met 0) then return true
    tryAll original rest fun i => met (i + 1)

/-- What the whole call meets. -/
structure Surroundings where
  /-- At the entry that announces the chain. -/
  announcing : Option Thrown
  attempt : ℕ → Attempt
  /-- At the two entries after the settings are restored. -/
  exhausted : Option Thrown

/-- `attempts` -/
def attemptsOf (skipRecursiveFallback : Bool) (original : AzadiSettings) : List FallbackStep :=
  if skipRecursiveFallback then
    [⟨original .protocolSelection, original .beastModeEnabled, 120⟩]
  else internetAwareAttemptsFor original

/-- `connectWithInternetVerification` -/
def connectWithInternetVerification (skipRecursiveFallback : Bool) (met : Surroundings) :
    Job.Script Bool := do
  let original ← loadSettings
  let attempts := attemptsOf skipRecursiveFallback original
  if attempts.length > 1 then
    suspend met.announcing
  if ← tryAll original attempts met.attempt then return true
  commit (restore original connectFields)
  suspend met.exhausted
  return false

/-! ## 3. What an attempt comes to -/

/-- The ways an attempt runs to its end. -/
inductive Ending
  /-- Connected, with internet. -/
  | verified
  /-- No VPN permission. -/
  | denied
  /-- The tunnel did not come up in time. -/
  | timedOut
  /-- Connected, without internet. -/
  | offline
deriving DecidableEq

/-- How far an attempt had got when it was cut short. -/
inductive Stage
  /-- Its trial is not saved yet. -/
  | unsaved
  /-- The trial is saved, the tunnel state not read. -/
  | saved
  /-- A tunnel that was running is stopped, its own is not started. -/
  | cleared
  /-- Its own tunnel is started. -/
  | up
  /-- Its own tunnel is stopped again. -/
  | down
deriving DecidableEq

/-- What comes of an attempt that has reached a point, when `rest` comes of it beyond. -/
def Attempt.past (a : Attempt) (stage : Stage) (point : Point)
    (rest : Except (Stage × Thrown) Ending) : Except (Stage × Thrown) Ending :=
  match a.thrown point with
  | some thrown => .error (stage, thrown)
  | none => rest

/-- What comes of the tunnel that the attempt has started. -/
def Attempt.tunnelOutcome (a : Attempt) : Except (Stage × Thrown) Ending :=
  a.past .up .started <| match waitForConnected a.polls with
    | .error thrown => .error (.up, thrown)
    | .ok false => a.past .up .timedOut (.ok .timedOut)
    | .ok true =>
      a.past .up .settling <| a.past .up .locating <| a.past .up .diagnosing <|
        if a.internetOk then a.past .up .passed (.ok .verified)
        else a.past .up .failed <| a.past .down .resting (.ok .offline)

/-- What comes of the attempt once nothing is running. -/
def Attempt.startOutcome (a : Attempt) : Except (Stage × Thrown) Ending :=
  a.past .cleared .starting <|
    if a.startOk then a.tunnelOutcome else a.past .cleared .denied (.ok .denied)

/-- What comes of the attempt: it ends in some way, or it is cut short at some stage. -/
def Attempt.outcome (a : Attempt) : Except (Stage × Thrown) Ending :=
  a.past .unsaved .announcing <| a.past .saved .before <|
    if a.isRunning then a.past .cleared .stopping a.startOutcome else a.startOutcome

/-- The attempt gets as far as saving its trial. -/
def Attempt.Saves (a : Attempt) : Prop := a.thrown .announcing = none

instance (a : Attempt) : Decidable a.Saves := inferInstanceAs (Decidable (_ = _))

/-- What the attempt stops before it starts its own tunnel. -/
def Attempt.found (a : Attempt) : List TunnelCall := if a.isRunning then [.stopped] else []

/-- The tunnel calls of an attempt that comes to `outcome`. -/
def Attempt.callsOf (a : Attempt) : Except (Stage × Thrown) Ending → List TunnelCall
  | .error (.unsaved, _) | .error (.saved, _) => []
  | .error (.cleared, _) | .ok .denied => a.found
  | .error (.up, _) | .ok .timedOut | .ok .verified => a.found ++ [.started]
  | .error (.down, _) | .ok .offline => a.found ++ [.started, .stopped]

/-- The tunnel calls an attempt makes. -/
def Attempt.calls (a : Attempt) : List TunnelCall := a.callsOf a.outcome

/-- What the attempt returns from `w`, its trial saved, when it comes to `outcome`. -/
def Attempt.finish (a : Attempt) (w : World) (outcome : Except (Stage × Thrown) Ending) :
    EStateM.Result Thrown World Bool :=
  match outcome with
  | .ok ending => .ok (ending == .verified) (w.call (a.callsOf outcome))
  | .error (_, thrown) => .error thrown (w.call (a.callsOf outcome))

theorem World.call_nil (w : World) : w.call [] = w := by
  rw [call, List.append_nil]

theorem World.call_call (w : World) (xs ys : List TunnelCall) :
    (w.call xs).call ys = w.call (xs ++ ys) := by
  rw [call, call, List.append_assoc]
  rfl

/-- A suspension point of the script is one of the outcome. -/
theorem suspend_past {a : Attempt} {stage : Stage} {point : Point}
    {rest : Except (Stage × Thrown) Ending} {k : Unit → Job.Script Bool} {w v : World}
    (hv : ∀ thrown, v = w.call (a.callsOf (.error (stage, thrown))))
    (hk : k () v = a.finish w rest) :
    (suspend (a.thrown point) >>= k) v = a.finish w (a.past stage point rest) := by
  unfold Attempt.past
  cases a.thrown point with
  | some thrown =>
    rw [suspend_some_bind, hv thrown]
    rfl
  | none => rwa [suspend_none_bind]

/-- The attempt has stopped what it found, started its own tunnel, and verifies it. -/
theorem verify_eq (a : Attempt) (w : World) :
    verify a (w.call (a.found ++ [.started])) = a.finish w a.tunnelOutcome := by
  refine suspend_past (fun _ => rfl) ?_
  cases hpolls : waitForConnected a.polls with
  | error thrown => rfl
  | ok up =>
    cases up with
    | false => exact suspend_past (fun _ => rfl) rfl
    | true =>
      refine suspend_past (fun _ => rfl) ?_
      refine suspend_past (fun _ => rfl) ?_
      refine suspend_past (fun _ => rfl) ?_
      cases hinternet : a.internetOk with
      | true => exact suspend_past (fun _ => rfl) rfl
      | false =>
        refine suspend_past (fun _ => rfl) ?_
        have hdown : ((w.call (a.found ++ [.started])).call [.stopped])
            = w.call (a.found ++ [.started, .stopped]) := by
          rw [World.call_call, List.append_assoc]
          rfl
        refine suspend_past (fun _ => hdown) ?_
        exact congrArg (EStateM.Result.ok false) hdown

/-- The attempt starts its tunnel, if it may. -/
theorem start_eq (a : Attempt) (w : World) :
    (do
      suspend (a.thrown .starting)
      if !a.startOk then
        suspend (a.thrown .denied)
        return false
      call .started
      verify a : Job.Script Bool) (w.call a.found) = a.finish w a.startOutcome := by
  refine suspend_past (fun _ => rfl) ?_
  cases hstart : a.startOk with
  | false => exact suspend_past (fun _ => rfl) rfl
  | true =>
    have hup : (w.call a.found).call [.started] = w.call (a.found ++ [.started]) :=
      World.call_call _ _ _
    exact (congrArg (verify a) hup).trans (verify_eq a w)

/-- **One attempt**: its trial is saved and its calls are made, whichever way it ends. -/
theorem attempt_eq (original : AzadiSettings) (step : FallbackStep) (a : Attempt) (w : World) :
    attempt original step a w = a.finish
      (if a.Saves then w.commit (connectTrial original step.protocolSelection step.beastMode)
        else w) a.outcome := by
  unfold attempt Attempt.outcome
  cases hannounce : a.thrown .announcing with
  | some thrown =>
    have hsaves : ¬ a.Saves := by simp [Attempt.Saves, hannounce]
    rw [suspend_some_bind, if_neg hsaves, Attempt.past, hannounce]
    exact congrArg (EStateM.Result.error thrown) w.call_nil.symm
  | none =>
    have hsaves : a.Saves := hannounce
    rw [suspend_none_bind, if_pos hsaves, Attempt.past, hannounce]
    generalize connectTrial original step.protocolSelection step.beastMode = trial
    refine suspend_past (fun _ => (World.call_nil _).symm) ?_
    have hstart := start_eq a (w.commit trial)
    cases hrunning : a.isRunning with
    | true =>
      have hfound : a.found = [.stopped] := by simp [Attempt.found, hrunning]
      rw [hfound] at hstart
      exact suspend_past (fun _ => by rw [Attempt.callsOf, hfound]) hstart
    | false =>
      have hfound : a.found = [] := by simp [Attempt.found, hrunning]
      rw [hfound, World.call_nil] at hstart
      exact hstart

/-! ## 4. The loop -/

/-- The loop takes another turn after the attempt. -/
def Attempt.goesOn (a : Attempt) : Bool :=
  match a.outcome with
  | .ok ending => ending != .verified
  | .error _ => false

/-- The attempts that are made: the first that does not go on is the last. -/
def attemptsMade : ℕ → (ℕ → Attempt) → List Attempt
  | 0, _ => []
  | n + 1, met => met 0 :: if (met 0).goesOn then attemptsMade n fun i => met (i + 1) else []

/-- What the attempts leave behind. -/
def World.after (original : AzadiSettings) : World → List FallbackStep → List Attempt → World
  | w, step :: steps, a :: made =>
    World.after original
      ((if a.Saves then w.commit (connectTrial original step.protocolSelection step.beastMode)
        else w).call (a.callsOf a.outcome)) steps made
  | w, _, _ => w

/-- What the loop returns after the attempts. -/
def resultOf (w : World) : List Attempt → EStateM.Result Thrown World Bool
  | [] => .ok false w
  | a :: made => match a.outcome with
    | .ok ending => if ending = .verified then .ok true w else resultOf w made
    | .error (_, thrown) => .error thrown w

theorem World.after_nil (original : AzadiSettings) (w : World) (steps : List FallbackStep) :
    w.after original steps [] = w := by
  cases steps <;> rfl

theorem tryAll_eq (original : AzadiSettings) (steps : List FallbackStep) (met : ℕ → Attempt)
    (w : World) :
    tryAll original steps met w
      = resultOf (w.after original steps (attemptsMade steps.length met))
          (attemptsMade steps.length met) := by
  induction steps generalizing met w with
  | nil => rfl
  | cons step steps ih =>
    rw [tryAll, List.length_cons, attemptsMade, Attempt.goesOn, resultOf, World.after]
    have hattempt := attempt_eq original step (met 0) w
    generalize (if (met 0).Saves then
      w.commit (connectTrial original step.protocolSelection step.beastMode) else w) = v at *
    cases hout : (met 0).outcome with
    | error cut =>
      rw [hout] at hattempt
      rw [bind_apply_error hattempt]
      simp [World.after_nil]
    | ok ending =>
      rw [hout] at hattempt
      rw [bind_apply_ok hattempt]
      by_cases hverified : ending = .verified
      · subst hverified
        simp [World.after_nil]
      · simp [hverified, ih]

/-! ## 5. The tunnel that is left -/

/-- The attempt ends with its own tunnel started and not stopped. -/
def Attempt.Leaves (a : Attempt) : Prop :=
  match a.outcome with
  | .error (.up, _) | .ok .timedOut | .ok .verified => True
  | _ => False

/-- The attempt stops a tunnel: one that it found running, or its own. -/
def Attempt.Stops (a : Attempt) : Prop :=
  match a.outcome with
  | .error (.unsaved, _) | .error (.saved, _) => False
  | .error (.down, _) | .ok .offline => True
  | _ => a.isRunning = true

instance : DecidablePred Attempt.Leaves := fun a => by
  unfold Attempt.Leaves
  split <;> infer_instance

instance : DecidablePred Attempt.Stops := fun a => by
  unfold Attempt.Stops
  split <;> infer_instance

theorem World.calls_after (original : AzadiSettings) (w : World) (steps : List FallbackStep)
    (made : List Attempt) (h : made.length ≤ steps.length) :
    (w.after original steps made).calls = w.calls ++ made.flatMap Attempt.calls := by
  induction made generalizing w steps with
  | nil => simp [World.after_nil]
  | cons a made ih =>
    cases steps with
    | nil => simp at h
    | cons step steps =>
      rw [World.after, ih _ _ (Nat.le_of_succ_le_succ h)]
      by_cases hsaves : a.Saves <;> simp [hsaves, World.call, World.commit, Attempt.calls]

theorem Attempt.leaves_iff (a : Attempt) : a.Leaves ↔ a.calls.getLast? = some .started := by
  unfold Attempt.Leaves Attempt.calls
  generalize a.outcome = outcome
  rcases outcome with ⟨stage, thrown⟩ | ending
  · cases hrunning : a.isRunning <;> cases stage <;>
      simp [Attempt.callsOf, Attempt.found, hrunning]
  · cases hrunning : a.isRunning <;> cases ending <;>
      simp [Attempt.callsOf, Attempt.found, hrunning]

theorem Attempt.stops_iff {a : Attempt} (h : ¬ a.Leaves) : a.Stops ↔ a.calls ≠ [] := by
  unfold Attempt.Leaves at h
  unfold Attempt.Stops Attempt.calls
  generalize a.outcome = outcome at *
  rcases outcome with ⟨stage, thrown⟩ | ending
  · cases stage <;> simp [Attempt.callsOf, Attempt.found] at *
  · cases ending <;> simp [Attempt.callsOf, Attempt.found] at *

/-- **Which tunnel is left**: some attempt ended with its tunnel up, and no later one stopped it. -/
theorem tunnelLeft_after_iff {original : AzadiSettings} {w : World} {steps : List FallbackStep}
    {made : List Attempt} (h : made.length ≤ steps.length) (hw : w.calls = []) :
    (w.after original steps made).TunnelLeft ↔ LeftOn Attempt.Leaves Attempt.Stops made := by
  rw [World.TunnelLeft, World.calls_after original w steps made h, hw, List.nil_append]
  exact leftOn_flatMap_iff Attempt.leaves_iff (fun _ => Attempt.stops_iff) made

/-! ## 6. The settings that are left -/

theorem attemptsMade_length (n : ℕ) (met : ℕ → Attempt) : (attemptsMade n met).length ≤ n := by
  induction n generalizing met with
  | zero => exact Nat.le_refl 0
  | succ n ih =>
    rw [attemptsMade, List.length_cons]
    split
    · exact Nat.succ_le_succ (ih _)
    · exact Nat.succ_le_succ (Nat.zero_le n)

/-- An attempt that goes on has saved its trial. -/
theorem Attempt.saves_of_goesOn {a : Attempt} (h : a.goesOn = true) : a.Saves := by
  unfold Attempt.goesOn Attempt.outcome Attempt.past at h
  unfold Attempt.Saves
  cases hannounce : a.thrown .announcing with
  | none => rfl
  | some thrown => simp [hannounce] at h

/-- How many trials the attempts save. -/
def trialsSaved (made : List Attempt) : ℕ := made.countP (·.Saves)

/-- The store holds the last trial that was saved. -/
theorem prefs_after (original : AzadiSettings) (steps : List FallbackStep) (met : ℕ → Attempt)
    (w : World) :
    match trialsSaved (attemptsMade steps.length met) with
    | 0 => (w.after original steps (attemptsMade steps.length met)).prefs = w.prefs
    | k + 1 => ∃ step q, steps[k]? = some step ∧
        (w.after original steps (attemptsMade steps.length met)).prefs
          = (connectTrial original step.protocolSelection step.beastMode).commit q := by
  induction steps generalizing met w with
  | nil => rfl
  | cons step steps ih =>
    rw [List.length_cons, attemptsMade, World.after]
    by_cases hgoes : (met 0).goesOn = true
    · have hsaves := Attempt.saves_of_goesOn hgoes
      simp only [if_pos hgoes, if_pos hsaves]
      generalize hv : (w.commit _).call _ = v
      have hprefs : v.prefs
          = (connectTrial original step.protocolSelection step.beastMode).commit w.prefs := by
        rw [← hv]
        rfl
      have hcount : trialsSaved (met 0 :: attemptsMade steps.length fun i => met (i + 1))
          = trialsSaved (attemptsMade steps.length fun i => met (i + 1)) + 1 :=
        List.countP_cons_of_pos (by simpa using hsaves)
      have hrest := ih (fun i => met (i + 1)) v
      rw [hcount]
      generalize trialsSaved (attemptsMade steps.length fun i => met (i + 1)) = k at *
      cases k with
      | zero => exact ⟨step, w.prefs, rfl, by rw [hrest, hprefs]⟩
      | succ k => exact hrest
    · simp only [if_neg hgoes, World.after_nil]
      by_cases hsaves : (met 0).Saves
      · have hcount : trialsSaved [met 0] = 1 := List.countP_cons_of_pos (by simpa using hsaves)
        rw [hcount, if_pos hsaves]
        exact ⟨step, w.prefs, rfl, rfl⟩
      · have hcount : trialsSaved [met 0] = 0 := List.countP_cons_of_neg (by simpa using hsaves)
        rw [hcount, if_neg hsaves]
        rfl

/-! ## 7. Transports -/

def FallbackStep.SameTransport (s t : FallbackStep) : Prop :=
  s.protocolSelection = t.protocolSelection ∧ s.beastMode = t.beastMode

/-- The attempt with the user's own selection. -/
def ownStep (original : AzadiSettings) : FallbackStep :=
  ⟨original .protocolSelection, original .beastModeEnabled, 120⟩

/-- A step that has been added keeps its place, and its transport is not added again. -/
theorem foldl_addStep_cons (first : FallbackStep) (steps tail : List FallbackStep)
    (htail : ∀ step ∈ tail, ¬ first.SameTransport step) :
    ∃ tail', steps.foldl addStep (first :: tail) = first :: tail' ∧
      (∀ step ∈ tail', ¬ first.SameTransport step) ∧
      ∀ step ∈ tail', step ∈ tail ∨ step ∈ steps := by
  induction steps generalizing tail with
  | nil => exact ⟨tail, rfl, htail, fun _ hstep => Or.inl hstep⟩
  | cons step steps ih =>
    by_cases hseen : (first :: tail).any fun seen =>
        seen.protocolSelection = step.protocolSelection && seen.beastMode = step.beastMode
    · have hadd : addStep (first :: tail) step = first :: tail := if_pos hseen
      obtain ⟨tail', htail', hother, hmem⟩ := ih tail htail
      refine ⟨tail', by rw [List.foldl_cons, hadd, htail'], hother, ?_⟩
      intro s hs
      exact (hmem s hs).imp_right (List.mem_cons_of_mem step)
    · have hadd : addStep (first :: tail) step = first :: (tail ++ [step]) := if_neg hseen
      have hnew : ¬ first.SameTransport step := by
        intro hsame
        refine hseen ?_
        simp [hsame.1, hsame.2]
      obtain ⟨tail', htail', hother, hmem⟩ := ih (tail ++ [step]) (by
        intro s hs
        rcases List.mem_append.mp hs with hs | hs
        · exact htail s hs
        · rwa [List.mem_singleton.mp hs])
      refine ⟨tail', by rw [List.foldl_cons, hadd, htail'], hother, ?_⟩
      intro s hs
      rcases hmem s hs with hs | hs
      · rcases List.mem_append.mp hs with hs | hs
        · exact Or.inl hs
        · exact Or.inr (by simp [List.mem_singleton.mp hs])
      · exact Or.inr (List.mem_cons_of_mem step hs)

theorem stepsFor_ne_empty {protocolSelection : String} {step : FallbackStep}
    (h : step ∈ stepsFor protocolSelection) : step.protocolSelection ≠ "" := by
  unfold stepsFor at h
  dsimp only at h
  split at h
  · simp only [List.mem_cons, List.not_mem_nil, or_false] at h
    rcases h with rfl | rfl | rfl <;> decide
  · split at h
    · simp only [List.mem_cons, List.not_mem_nil, or_false] at h
      rcases h with rfl | rfl <;> decide
    · split at h
      · rw [List.mem_singleton.mp h]
        decide
      · simp at h

/-- The user's own selection is tried first, and its transport is not tried again. -/
theorem attemptsOf_eq (skipRecursiveFallback : Bool) (original : AzadiSettings) :
    ∃ tail, attemptsOf skipRecursiveFallback original = ownStep original :: tail ∧
      (∀ step ∈ tail, ¬ (ownStep original).SameTransport step) ∧
      ∀ step ∈ tail, step.protocolSelection ≠ "" := by
  unfold attemptsOf
  split
  · exact ⟨[], rfl, by simp, by simp⟩
  · unfold internetAwareAttemptsFor
    extract_lets protocolSelection smartFallbackChainEnabled chain
    have hmem : ∀ step ∈ chain ++ escapeHatches, step.protocolSelection ≠ "" := by
      intro step hstep
      rcases List.mem_append.mp hstep with hstep | hstep
      · unfold chain at hstep
        split at hstep
        · exact stepsFor_ne_empty hstep
        · simp at hstep
      · simp only [escapeHatches, List.mem_cons, List.not_mem_nil, or_false] at hstep
        rcases hstep with rfl | rfl | rfl <;> decide
    obtain ⟨tail, htail, hother, hfrom⟩ :=
      foldl_addStep_cons (ownStep original) (chain ++ escapeHatches) [] (by simp)
    refine ⟨tail, htail, hother, ?_⟩
    intro step hstep
    exact hmem step ((hfrom step hstep).resolve_left List.not_mem_nil)

/-! ## 8. All or nothing -/

theorem commit_connect_eq_save {w : Write} (h : w.changed = connectFields) (p : Preferences) :
    w.commit p = save p w.settings := by
  refine Write.commit_eq_save ?_ p
  intro x hx
  rw [h] at hx
  simp only [connectFields, List.mem_cons, List.not_mem_nil, or_false] at hx
  rcases hx with rfl | rfl <;> rfl

/-- The load at the beginning alone leaves the settings as they were if it migrates nothing. -/
theorem unchanged_migrated_iff (p : Preferences) : Unchanged p (migrated p) ↔ ¬ NeedsMigration p :=
  (and_iff_left (load_migrated p)).trans (load_eq_loadInternal_iff p)

/-- Saving the loaded record again restores it exactly when the load has migrated nothing and its
consents agree. -/
theorem unchanged_save_load_iff (p q : Preferences) :
    Unchanged p (save q (load p)) ↔ ¬ NeedsMigration p ∧ (load p).ConsentsAgree := by
  have hstored : (∀ x, loadInternal (save q (load p)) x = loadInternal p x) ↔
      ¬ NeedsMigration p := by
    simp only [loadInternal_save (storable_load p)]
    exact load_eq_loadInternal_iff p
  rw [Unchanged, hstored, load_save_iff_not_needsMigration (storable_load p),
    needsMigration_save_iff, not_or, not_not, and_iff_right (not_legacySecureDns_load p)]

/-- A trial with another transport is not what was loaded. -/
theorem not_unchanged_trial {p : Preferences} {step : FallbackStep}
    (hstep : ¬ (ownStep (load p)).SameTransport step) (hempty : step.protocolSelection ≠ "")
    (q : Preferences) :
    ¬ Unchanged p
      ((connectTrial (load p) step.protocolSelection step.beastMode).commit q) := by
  rw [commit_connect_eq_save rfl]
  intro h
  have hstorable :
      (connectTrial (load p) step.protocolSelection step.beastMode).settings.Storable := by
    have hprotocol : ((load p).copy .protocolSelection step.protocolSelection).Storable :=
      AzadiSettings.Storable.copy (x := .protocolSelection) (storable_load p) hempty
    exact hprotocol.copy trivial
  refine hstep ⟨?_, ?_⟩
  · have hread := h.2 .protocolSelection
    rw [load_eq_loadInternal (by decide), loadInternal_save hstorable] at hread
    exact hread.symm
  · have hread := h.2 .beastModeEnabled
    rw [load_eq_loadInternal (by decide), loadInternal_save hstorable] at hread
    exact hread.symm

/-- Before the call: no tunnel call has been made. -/
def World.initial (p : Preferences) : World := ⟨p, [], false, false⟩

/-- A call that does not return true leaves the settings as they were and no tunnel of its own. -/
def AllOrNothing (p : Preferences) : EStateM.Result Thrown World Bool → Prop
  | .ok true _ => True
  | .ok false w | .error _ w => Unchanged p w.prefs ∧ ¬ w.TunnelLeft

/-- The attempts the call makes: none, if it is thrown out before the first. -/
def Surroundings.made (met : Surroundings) (attempts : List FallbackStep) : List Attempt :=
  if attempts.length > 1 ∧ met.announcing ≠ none then []
  else attemptsMade attempts.length met.attempt

/-- The attempt is cut short. -/
def Attempt.CutShort (a : Attempt) : Prop := ∃ stage thrown, a.outcome = .error (stage, thrown)

/-- The attempts spare the settings and leave no tunnel. -/
structure Spared (original : AzadiSettings) (made : List Attempt) : Prop where
  /-- Nothing is thrown once a second transport has been saved. -/
  transport : (∃ a ∈ made, a.CutShort) → trialsSaved made ≤ 1
  /-- The consents agree, if anything has been saved. -/
  consents : (∃ a ∈ made, a.Saves) → original.ConsentsAgree
  /-- After an attempt that ends with its tunnel up, a later one stops it. -/
  tunnel : ¬ LeftOn Attempt.Leaves Attempt.Stops made

theorem resultOf_attemptsMade (n : ℕ) (met : ℕ → Attempt) (w : World) :
    ((∃ a ∈ attemptsMade n met, a.outcome = .ok .verified) ∧
        resultOf w (attemptsMade n met) = .ok true w) ∨
      ((¬ ∃ a ∈ attemptsMade n met, a.outcome = .ok .verified) ∧
        (∃ a ∈ attemptsMade n met, a.CutShort) ∧
        ∃ thrown, resultOf w (attemptsMade n met) = .error thrown w) ∨
      ((¬ ∃ a ∈ attemptsMade n met, a.outcome = .ok .verified) ∧
        (¬ ∃ a ∈ attemptsMade n met, a.CutShort) ∧
        resultOf w (attemptsMade n met) = .ok false w) := by
  induction n generalizing met with
  | zero => exact Or.inr (Or.inr ⟨by simp [attemptsMade], by simp [attemptsMade], rfl⟩)
  | succ n ih =>
    rw [attemptsMade, resultOf, Attempt.goesOn]
    have hcut : (met 0).CutShort ↔ ∃ stage thrown, (met 0).outcome = .error (stage, thrown) :=
      Iff.rfl
    rcases hout : (met 0).outcome with ⟨stage, thrown⟩ | ending
    · refine Or.inr (Or.inl ⟨by simp [hout], ?_, thrown, rfl⟩)
      exact ⟨met 0, by simp, stage, thrown, hout⟩
    · have hnot : ¬ (met 0).CutShort := by simp [hcut, hout]
      by_cases hverified : ending = .verified
      · subst hverified
        exact Or.inl ⟨⟨met 0, by simp, hout⟩, if_pos rfl⟩
      · have hgoes : (ending != .verified) = true := by simpa using hverified
        simpa [hgoes, hverified, hout, hnot] using ih fun i => met (i + 1)

/-- When all attempts go on, the first trial has been saved. -/
theorem exists_saves_of_exhausted {n : ℕ} {met : ℕ → Attempt} (hn : n ≠ 0)
    (hverified : ¬ ∃ a ∈ attemptsMade n met, a.outcome = .ok .verified)
    (hcut : ¬ ∃ a ∈ attemptsMade n met, a.CutShort) : ∃ a ∈ attemptsMade n met, a.Saves := by
  obtain ⟨n, rfl⟩ := Nat.exists_eq_succ_of_ne_zero hn
  have hmem : met 0 ∈ attemptsMade (n + 1) met := List.mem_cons_self
  have hgoes : (met 0).goesOn = true := by
    unfold Attempt.goesOn
    rcases hout : (met 0).outcome with ⟨stage, thrown⟩ | ending
    · exact absurd ⟨met 0, hmem, stage, thrown, hout⟩ hcut
    · have hne : ending ≠ .verified := by
        rintro rfl
        exact hverified ⟨met 0, hmem, hout⟩
      simpa using hne
  exact ⟨met 0, hmem, Attempt.saves_of_goesOn hgoes⟩

theorem ownTrial_settings (original : AzadiSettings) :
    (connectTrial original (ownStep original).protocolSelection
      (ownStep original).beastMode).settings = original := by
  change (original.copy .protocolSelection (original .protocolSelection)).copy .beastModeEnabled
    (original .beastModeEnabled) = original
  rw [AzadiSettings.copy, AzadiSettings.copy, Function.update_eq_self, Function.update_eq_self]

/-- The attempts alone leave the settings as they were: the load has migrated nothing, no second
transport has been saved, and saving the first was harmless. -/
theorem unchanged_after_iff (p : Preferences) (skipRecursiveFallback : Bool) (met : ℕ → Attempt)
    {w : World} (hw : w.prefs = migrated p) :
    Unchanged p (w.after (load p) (attemptsOf skipRecursiveFallback (load p))
        (attemptsMade (attemptsOf skipRecursiveFallback (load p)).length met)).prefs ↔
      ¬ NeedsMigration p ∧
        trialsSaved (attemptsMade (attemptsOf skipRecursiveFallback (load p)).length met) ≤ 1 ∧
        ((∃ a ∈ attemptsMade (attemptsOf skipRecursiveFallback (load p)).length met, a.Saves) →
          (load p).ConsentsAgree) := by
  obtain ⟨tail, hsteps, hother, hempty⟩ := attemptsOf_eq skipRecursiveFallback (load p)
  have hprefs := prefs_after (load p) (attemptsOf skipRecursiveFallback (load p)) met w
  have hsaves : (∃ a ∈ attemptsMade (attemptsOf skipRecursiveFallback (load p)).length met,
      a.Saves) ↔ 0 < trialsSaved
        (attemptsMade (attemptsOf skipRecursiveFallback (load p)).length met) := by
    rw [trialsSaved, List.countP_pos_iff]
    simp
  rw [hsaves]
  generalize trialsSaved
    (attemptsMade (attemptsOf skipRecursiveFallback (load p)).length met) = saved at *
  match saved, hprefs with
  | 0, hprefs =>
    rw [hprefs, hw, unchanged_migrated_iff]
    simp
  | 1, ⟨step, q, hstep, hprefs⟩ =>
    rw [hsteps] at hstep
    obtain rfl := Option.some.inj hstep
    rw [hprefs, commit_connect_eq_save rfl, ownTrial_settings, unchanged_save_load_iff]
    simp
  | k + 2, ⟨step, q, hstep, hprefs⟩ =>
    rw [hsteps, List.getElem?_cons_succ] at hstep
    have hmem : step ∈ tail := List.mem_of_getElem? hstep
    rw [hprefs]
    refine iff_of_false (not_unchanged_trial (hother step hmem) (hempty step hmem) q) ?_
    rintro ⟨-, hle, -⟩
    omega

/-- The call after the entry that announces the chain. -/
def attemptAll (original : AzadiSettings) (attempts : List FallbackStep) (met : Surroundings) :
    Job.Script Bool := do
  if ← tryAll original attempts met.attempt then return true
  commit (restore original connectFields)
  suspend met.exhausted
  return false

/-- The end of a call whose attempts are exhausted: the settings are restored. -/
def exhaustedIn (original : AzadiSettings) (exhausted : Option Thrown) (w : World) :
    EStateM.Result Thrown World Bool :=
  match exhausted with
  | none => .ok false (w.commit (restore original connectFields))
  | some thrown => .error thrown (w.commit (restore original connectFields))

theorem attemptAll_eq (original : AzadiSettings) (attempts : List FallbackStep)
    (met : Surroundings) (w : World) :
    attemptAll original attempts met w
      = match resultOf (w.after original attempts (attemptsMade attempts.length met.attempt))
          (attemptsMade attempts.length met.attempt) with
        | .ok true w => .ok true w
        | .error thrown w => .error thrown w
        | .ok false w => exhaustedIn original met.exhausted w := by
  have hloop := tryAll_eq original attempts met.attempt w
  generalize resultOf (w.after original attempts (attemptsMade attempts.length met.attempt))
    (attemptsMade attempts.length met.attempt) = r at *
  rcases r with ⟨returned, v⟩ | ⟨thrown, v⟩
  · rw [attemptAll, bind_apply_ok hloop]
    cases returned with
    | true => rfl
    | false =>
      unfold exhaustedIn
      cases hexhausted : met.exhausted <;> rfl
  · rw [attemptAll, bind_apply_error hloop]

/-- A call that is thrown out before its first attempt. -/
theorem connect_announcing_eq {p : Preferences} {skipRecursiveFallback : Bool}
    {met : Surroundings} {thrown : Thrown}
    (hlength : (attemptsOf skipRecursiveFallback (load p)).length > 1)
    (hthrown : met.announcing = some thrown) :
    connectWithInternetVerification skipRecursiveFallback met (World.initial p)
      = .error thrown (World.initial p).loaded := by
  unfold connectWithInternetVerification
  have hload : loadSettings (World.initial p) = .ok (load p) (World.initial p).loaded := rfl
  rw [bind_apply_ok hload]
  simp only [if_pos hlength, hthrown, suspend_some_bind]

/-- A call that gets to its first attempt. -/
theorem connect_eq_attemptAll {p : Preferences} {skipRecursiveFallback : Bool}
    {met : Surroundings}
    (h : ¬ ((attemptsOf skipRecursiveFallback (load p)).length > 1 ∧ met.announcing ≠ none)) :
    connectWithInternetVerification skipRecursiveFallback met (World.initial p)
      = attemptAll (load p) (attemptsOf skipRecursiveFallback (load p)) met
          (World.initial p).loaded := by
  unfold connectWithInternetVerification
  have hload : loadSettings (World.initial p) = .ok (load p) (World.initial p).loaded := rfl
  rw [bind_apply_ok hload]
  by_cases hlength : (attemptsOf skipRecursiveFallback (load p)).length > 1
  · have hannouncing : met.announcing = none := by
      by_contra hthrown
      exact h ⟨hlength, hthrown⟩
    simp only [if_pos hlength, hannouncing, suspend_none_bind]
    rfl
  · simp only [if_neg hlength]
    rfl

theorem spared_nil (original : AzadiSettings) : Spared original [] := by
  refine ⟨?_, ?_, not_leftOn_nil⟩
  · rintro ⟨a, ha, -⟩
    exact absurd ha List.not_mem_nil
  · rintro ⟨a, ha, -⟩
    exact absurd ha List.not_mem_nil

/-- Restoring brings the settings back unless the load has migrated some or their consents disagree,
and leaves the tunnel as it is. -/
theorem allOrNothing_exhaustedIn_iff (p : Preferences) (exhausted : Option Thrown) (v : World) :
    AllOrNothing p (exhaustedIn (load p) exhausted v) ↔
      ¬ NeedsMigration p ∧ (load p).ConsentsAgree ∧ ¬ v.TunnelLeft := by
  have hrestored : Unchanged p (v.commit (restore (load p) connectFields)).prefs ↔
      ¬ NeedsMigration p ∧ (load p).ConsentsAgree := by
    rw [World.commit, commit_connect_eq_save rfl]
    exact unchanged_save_load_iff p v.prefs
  rw [← and_assoc, ← hrestored]
  cases exhausted <;> rfl

/-- The attempts of a call that gets to them. -/
theorem attemptAll_allOrNothing_iff (p : Preferences) (skipRecursiveFallback : Bool)
    (met : Surroundings) :
    AllOrNothing p (attemptAll (load p) (attemptsOf skipRecursiveFallback (load p)) met
        (World.initial p).loaded) ↔
      (∃ a ∈ attemptsMade (attemptsOf skipRecursiveFallback (load p)).length met.attempt,
        a.outcome = .ok .verified) ∨
        ¬ NeedsMigration p ∧ Spared (load p)
          (attemptsMade (attemptsOf skipRecursiveFallback (load p)).length met.attempt) := by
  obtain ⟨tail, hsteps, -⟩ := attemptsOf_eq skipRecursiveFallback (load p)
  have hsettings := unchanged_after_iff p skipRecursiveFallback met.attempt
    (w := (World.initial p).loaded) rfl
  have htunnel := @tunnelLeft_after_iff (load p) (World.initial p).loaded _ _
    (attemptsMade_length (attemptsOf skipRecursiveFallback (load p)).length met.attempt) rfl
  rw [attemptAll_eq]
  rcases resultOf_attemptsMade (attemptsOf skipRecursiveFallback (load p)).length met.attempt
      ((World.initial p).loaded.after (load p) (attemptsOf skipRecursiveFallback (load p))
        (attemptsMade (attemptsOf skipRecursiveFallback (load p)).length met.attempt)) with
    ⟨hverified, hresult⟩ | ⟨hverified, hcut, thrown, hresult⟩ | ⟨hverified, hcut, hresult⟩
  · rw [hresult]
    exact iff_of_true trivial (Or.inl hverified)
  · -- cut short: nothing is restored
    rw [hresult, or_iff_right hverified]
    change (Unchanged p _ ∧ ¬ World.TunnelLeft _) ↔ _
    rw [hsettings, htunnel]
    constructor
    · rintro ⟨⟨hmigrated, htransport, hconsents⟩, hleft⟩
      exact ⟨hmigrated, fun _ => htransport, hconsents, hleft⟩
    · rintro ⟨hmigrated, htransport, hconsents, hleft⟩
      exact ⟨⟨hmigrated, htransport hcut, hconsents⟩, hleft⟩
  · -- exhausted: the settings are restored, the tunnel is not looked at
    rw [hresult, or_iff_right hverified]
    have hsaved := exists_saves_of_exhausted (by simp [hsteps]) hverified hcut
    dsimp only
    rw [allOrNothing_exhaustedIn_iff, htunnel]
    constructor
    · rintro ⟨hmigrated, hconsents, hleft⟩
      exact ⟨hmigrated, fun h => absurd h hcut, fun _ => hconsents, hleft⟩
    · rintro ⟨hmigrated, -, hconsents, hleft⟩
      exact ⟨hmigrated, hconsents hsaved, hleft⟩

/-- **All or nothing, exactly.**  A call that does not return true leaves the settings as they were
and no tunnel of its own if and only if the load at its beginning finds nothing to migrate and its
attempts spare both. -/
theorem connect_allOrNothing_iff (p : Preferences) (skipRecursiveFallback : Bool)
    (met : Surroundings) :
    AllOrNothing p
        (connectWithInternetVerification skipRecursiveFallback met (World.initial p)) ↔
      (∃ a ∈ met.made (attemptsOf skipRecursiveFallback (load p)), a.outcome = .ok .verified) ∨
        ¬ NeedsMigration p ∧
          Spared (load p) (met.made (attemptsOf skipRecursiveFallback (load p))) := by
  by_cases hthrown : (attemptsOf skipRecursiveFallback (load p)).length > 1 ∧ met.announcing ≠ none
  · have hmade : met.made (attemptsOf skipRecursiveFallback (load p)) = [] := if_pos hthrown
    obtain ⟨thrown, hannouncing⟩ := Option.ne_none_iff_exists'.mp hthrown.2
    have hnone : ¬ (World.initial p).loaded.TunnelLeft := by
      simp [World.TunnelLeft, World.loaded, World.initial]
    rw [connect_announcing_eq hthrown.1 hannouncing, hmade]
    have hall : AllOrNothing p (.error thrown (World.initial p).loaded) ↔ ¬ NeedsMigration p :=
      (and_iff_left hnone).trans (unchanged_migrated_iff p)
    rw [hall]
    simp [spared_nil]
  · have hmade : met.made (attemptsOf skipRecursiveFallback (load p))
        = attemptsMade (attemptsOf skipRecursiveFallback (load p)).length met.attempt :=
      if_neg hthrown
    rw [connect_eq_attemptAll hthrown, hmade]
    exact attemptAll_allOrNothing_iff p skipRecursiveFallback met

/-- What nothing throws at: an attempt of which only the answers are given. -/
def Attempt.quiet (isRunning startOk : Bool) (polls : List Poll) (internetOk : Bool) : Attempt where
  thrown _ := none
  isRunning := isRunning
  startOk := startOk
  polls := polls
  internetOk := internetOk

/-- The user is asked for the VPN permission and declines; on the next attempt permits it, and
the coroutine is cancelled while the tunnel comes up. -/
def cancelledWhileWaiting : Surroundings where
  announcing := none
  attempt i := if i = 0 then .quiet false false [] false
    else .quiet false true [.threw .cancellation] false
  exhausted := none

theorem cancelled_keeps_trial :
    ¬ AllOrNothing (fun _ => none) (connectWithInternetVerification false cancelledWhileWaiting
        (World.initial fun _ => none)) ∧
    ∃ w, connectWithInternetVerification false cancelledWhileWaiting (World.initial fun _ => none)
        = .error .cancellation w ∧
      w.TunnelLeft ∧ load w.prefs .protocolSelection = ("cdn_fronting" : String) ∧
      load (fun _ => none) .protocolSelection = ("auto" : String) :=
  ⟨fun h => h.2 rfl, _, rfl, rfl, rfl, rfl⟩

end ShiroKhorshid.Settings
