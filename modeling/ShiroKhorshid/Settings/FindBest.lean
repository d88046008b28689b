/-
# The scan, step by step (`FindBestConnectionController.runScan`)

The scan of `Trials`, followed statement by statement as `Attempts` follows a connect: with the
tunnels it starts and stops, the speeds it measures, the controller's two flags, and everything
that may be thrown or set at a suspension point.  `cancel()` only sets the `cancelled` flag,
which the loops read when they come round.

* The trial of a candidate saves its settings and stops whatever is running; what comes after that
  is its `outcome`, computed from the data (`tryCandidate_eq`).
* The two loops of the source are one row of trials, cut short where an exception or the flag ends
  them (`scanAll_eq`).
* Unlike a connect, a scan restores the settings whichever way it ends.  What it forgets on some of
  those ways is the tunnel of its last candidate and its own `running` flag: the flag where it is
  cancelled from outside, the tunnel where the last trial ends with it up (`Tried.Leaves`).

`runScan_leavesNoTrace_iff` is exact: the settings are compared as they are stored, so that a
migration at the beginning counts as a trace, and so does a restore of consents that differ.

Speeds are compared as the source compares them, and the order of the results is only needed up to
their maximum.  Other writers are the subject of `Updates`.
-/
import Mathlib.Data.List.MinMax
import Mathlib.Algebra.Order.Ring.Rat
import ShiroKhorshid.Settings.Attempts

namespace ShiroKhorshid.Settings

open Jvm Service Record Script

/-! ## 1. The function -/

/-- A `Double`, as far as comparisons go.  The bottom stands for what is at least no number at
all, NaN included. -/
abbrev Speed := WithBot (WithTop ℚ)

/-- A whole number of megabits. -/
def Speed.ofInt (n : ℤ) : Speed := WithBot.some (WithTop.some (n : ℚ))

structure BestConnectionCandidate where
  protocol : String
  region : String
  speedMbps : Speed

/-- One turn of `waitConnected`. -/
structure ScanPoll where
  thrown : Option Thrown
  /-- `cancel()` is called during the turn. -/
  cancels : Bool
  /-- The tunnel is running and connected. -/
  up : Bool

/-- What the trial of one candidate meets. -/
structure Trial where
  /-- What is thrown at each suspension point, if the trial gets there. -/
  thrown : ScanPhase → Option Thrown
  /-- `cancel()` is called while the trial is suspended there. -/
  cancels : ScanPhase → Bool
  /-- `startTunnel()` -/
  startOk : Bool
  /-- The turns of `waitConnected` before its deadline. -/
  polls : List ScanPoll
  /-- `measureSpeedMbps()` -/
  speed : Speed

def World.flag (w : World) (cancelled : Bool) : World := { w with cancelled := cancelled }

def World.setRunning (w : World) (running : Bool) : World := { w with running := running }

/-- A suspension point during which `cancel()` may be called. -/
def pause (cancels : Bool) (thrown : Option Thrown) : Job.Script Unit := do
  modify fun w => w.flag (w.cancelled || cancels)
  suspend thrown

/-- `waitConnected` -/
def waitConnected : List ScanPoll → Job.Script Bool
  | [] => return false
  | poll :: rest => do
    if (← get).cancelled then return false
    pause poll.cancels poll.thrown
    if poll.up then return true
    waitConnected rest

/-- The body of the inner loop, over the `working` candidates so far.  The flag says that it
breaks. -/
def tryCandidate (original : AzadiSettings) (minSpeedMbps : ℤ) (candidate : String × String)
    (met : Trial) (working : List BestConnectionCandidate) :
    Job.Script (List BestConnectionCandidate × Bool) := do
  commit (scanTrial original candidate.1 candidate.2 (candidate.1 != "direct"))
  call .stopped
  pause (met.cancels .stopping) (met.thrown .stopping)
  pause (met.cancels .starting) (met.thrown .starting)
  if !met.startOk then return (working, false)
  call .started
  let connected ← waitConnected met.polls
  if !connected then return (working, false)
  pause (met.cancels .measuring) (met.thrown .measuring)
  let enough := met.speed ≥ Speed.ofInt minSpeedMbps
  let working := if enough then working ++ [⟨candidate.1, candidate.2, met.speed⟩] else working
  if enough ∧ working.length ≥ 5 then
    pause (met.cancels .asking) (met.thrown .asking)
    if (← get).cancelled then return (working, true)
  call .stopped
  pause (met.cancels .resting) (met.thrown .resting)
  return (working, false)

/-- The two loops.  Both read the flag before each turn, with nothing in between, and the break
is taken with the flag set, so that it leaves both. -/
def scanAll (original : AzadiSettings) (minSpeedMbps : ℤ) :
    List (String × String) → (ℕ → Trial) → List BestConnectionCandidate →
      Job.Script (List BestConnectionCandidate)
  | [], _, working => return working
  | candidate :: rest, met, working => do
    if (← get).cancelled then return working
    let (working, stop) ← tryCandidate original minSpeedMbps candidate (met 0) working
    if stop then return working
    scanAll original minSpeedMbps rest (fun i => met (i + 1)) working

/-- `saveBest`: JSON has no infinity. -/
def saveBest (best : BestConnectionCandidate) : Job.Script Unit :=
  if best.speedMbps = ((⊤ : WithTop ℚ) : Speed) then throw .exception else return ()

/-- The end of the `try` block. -/
def conclude (original : AzadiSettings) (working : List BestConnectionCandidate) :
    Job.Script (Option BestConnectionCandidate) := do
  commit (restore original scanFields)
  match working.argmax BestConnectionCandidate.speedMbps with
  | none =>
    modify fun w => w.setRunning false
    return none
  | some best =>
    saveBest best
    modify fun w => w.setRunning false
    return some best

/-- The two `catch` blocks. -/
def abandon (original : AzadiSettings) : Thrown → Job.Script (Option BestConnectionCandidate)
  | .cancellation => do
    commit (restore original scanFields)
    throw .cancellation
  | .exception => do
    commit (restore original scanFields)
    modify fun w => w.setRunning false
    return none

/-- `runScan` -/
def runScan (minSpeedMbps : ℤ) (conduitAllowed : Bool) (met : ℕ → Trial) :
    Job.Script (Option BestConnectionCandidate) := do
  modify fun w => w.flag false
  let original ← loadSettings
  modify fun w => w.setRunning true
  tryCatch (scanAll original minSpeedMbps (candidates conduitAllowed) met [] >>= conclude original)
    (abandon original)

/-! ## 2. What a trial comes to -/

/-- The ways a trial runs to its end. -/
inductive TrialEnding
  /-- No VPN permission. -/
  | denied
  /-- The tunnel did not come up in time, or the scan was cancelled meanwhile. -/
  | timedOut
  | tooSlow
  | working
  /-- Fast enough, but the scan was cancelled at the question whether to go on. -/
  | broke
deriving DecidableEq

/-- How a trial ends, and whether the scan has been cancelled by then. -/
structure TrialOutcome where
  ending : Except (Stage × Thrown) TrialEnding
  cancelled : Bool

/-- What comes of a trial that has reached a point, when `rest` comes of it beyond. -/
def Trial.past (t : Trial) (stage : Stage) (point : ScanPhase) (cancelled : Bool)
    (rest : Bool → TrialOutcome) : TrialOutcome :=
  match t.thrown point with
  | some thrown => ⟨.error (stage, thrown), cancelled || t.cancels point⟩
  | none => rest (cancelled || t.cancels point)

/-- What comes of waiting, and the flag afterwards. -/
def waited : Bool → List ScanPoll → Except Thrown Bool × Bool
  | cancelled, [] => (.ok false, cancelled)
  | cancelled, poll :: rest =>
    if cancelled then (.ok false, cancelled)
    else match poll.thrown with
      | some thrown => (.error thrown, cancelled || poll.cancels)
      | none => if poll.up then (.ok true, cancelled || poll.cancels)
        else waited (cancelled || poll.cancels) rest

/-- The measured speed will do. -/
def Trial.Enough (t : Trial) (minSpeedMbps : ℤ) : Prop := t.speed ≥ Speed.ofInt minSpeedMbps

instance (t : Trial) (minSpeedMbps : ℤ) : Decidable (t.Enough minSpeedMbps) :=
  inferInstanceAs (Decidable (_ ≤ _))

/-- What comes of the trial once the tunnel is stopped again. -/
def Trial.stopOutcome (t : Trial) (ending : TrialEnding) (cancelled : Bool) : TrialOutcome :=
  t.past .down .resting cancelled fun cancelled => ⟨.ok ending, cancelled⟩

/-- What comes of the measurement.  `asks`: a fast enough candidate would be the fifth. -/
def Trial.speedOutcome (t : Trial) (minSpeedMbps : ℤ) (asks : Bool) (cancelled : Bool) :
    TrialOutcome :=
  if t.Enough minSpeedMbps then
    if asks then t.past .up .asking cancelled fun cancelled =>
      if cancelled then ⟨.ok .broke, cancelled⟩ else t.stopOutcome .working cancelled
    else t.stopOutcome .working cancelled
  else t.stopOutcome .tooSlow cancelled

/-- What comes of the tunnel that the trial has started. -/
def Trial.tunnelOutcome (t : Trial) (minSpeedMbps : ℤ) (asks : Bool) (cancelled : Bool) :
    TrialOutcome :=
  match waited cancelled t.polls with
  | (.error thrown, cancelled) => ⟨.error (.up, thrown), cancelled⟩
  | (.ok false, cancelled) => ⟨.ok .timedOut, cancelled⟩
  | (.ok true, cancelled) =>
    t.past .up .measuring cancelled (t.speedOutcome minSpeedMbps asks)

/-- What comes of the trial: it ends in some way, or it is cut short at some stage. -/
def Trial.outcome (t : Trial) (minSpeedMbps : ℤ) (asks : Bool) (cancelled : Bool) : TrialOutcome :=
  t.past .cleared .stopping cancelled fun cancelled =>
    t.past .cleared .starting cancelled fun cancelled =>
      if t.startOk then t.tunnelOutcome minSpeedMbps asks cancelled
      else ⟨.ok .denied, cancelled⟩

/-- The tunnel calls of a trial after its first, which stops whatever is running. -/
def TrialOutcome.calls (o : TrialOutcome) : List TunnelCall :=
  match o.ending with
  | .error (.up, _) | .ok .timedOut | .ok .broke => [.started]
  | .error (.down, _) | .ok .tooSlow | .ok .working => [.started, .stopped]
  | _ => []

/-- The candidate has been measured and is fast enough. -/
def TrialEnding.works : TrialEnding → Bool
  | .working | .broke => true
  | _ => false

/-- What the trial returns from `w`, its trial saved and whatever was running stopped. -/
def TrialOutcome.finish (o : TrialOutcome) (found : BestConnectionCandidate)
    (working : List BestConnectionCandidate) (w : World) :
    EStateM.Result Thrown World (List BestConnectionCandidate × Bool) :=
  match o.ending with
  | .ok ending =>
    .ok (if ending.works then working ++ [found] else working, ending == .broke)
      ((w.call o.calls).flag o.cancelled)
  | .error (_, thrown) => .error thrown ((w.call o.calls).flag o.cancelled)

section Turn

variable {α : Type} {t : Trial} {found : BestConnectionCandidate}
  {working : List BestConnectionCandidate} {w : World}

/-- A suspension point of the script is one of the outcome. -/
theorem pause_past {stage : Stage} {point : ScanPhase} {cancelled : Bool}
    {rest : Bool → TrialOutcome} {done : List TunnelCall}
    {k : Unit → Job.Script (List BestConnectionCandidate × Bool)}
    (hdone : ∀ thrown c, TrialOutcome.calls ⟨.error (stage, thrown), c⟩ = done)
    (hk : ∀ c, k () ((w.call done).flag c) = (rest c).finish found working w) :
    (pause (t.cancels point) (t.thrown point) >>= k) ((w.call done).flag cancelled)
      = (t.past stage point cancelled rest).finish found working w := by
  unfold Trial.past pause
  cases t.thrown point with
  | some thrown =>
    rw [TrialOutcome.finish]
    dsimp only
    rw [hdone thrown]
    rfl
  | none => exact hk (cancelled || t.cancels point)

theorem waitConnected_eq (polls : List ScanPoll) (w : World) (cancelled : Bool) :
    waitConnected polls (w.flag cancelled)
      = match waited cancelled polls with
        | (.ok up, c) => .ok up (w.flag c)
        | (.error thrown, c) => .error thrown (w.flag c) := by
  induction polls generalizing cancelled with
  | nil => rfl
  | cons poll rest ih =>
    rw [waited]
    cases cancelled with
    | true => rfl
    | false =>
      cases hthrown : poll.thrown with
      | some thrown =>
        rw [waitConnected, hthrown]
        rfl
      | none =>
        cases hup : poll.up with
        | true =>
          rw [waitConnected, hthrown, hup]
          rfl
        | false =>
          have hrest := ih (false || poll.cancels)
          rw [waitConnected, hthrown, hup]
          exact hrest

theorem World.call_flag (w : World) (xs ys : List TunnelCall) (c : Bool) :
    ((w.call xs).flag c).call ys = (w.call (xs ++ ys)).flag c := by
  rw [← World.call_call]
  rfl

/-- The trial stops its tunnel and rests. -/
theorem stop_eq {ending : TrialEnding} (hending : ending = .tooSlow ∨ ending = .working)
    (t : Trial) (found : BestConnectionCandidate) (working : List BestConnectionCandidate)
    (w : World) (c : Bool) :
    (do
      call .stopped
      pause (t.cancels .resting) (t.thrown .resting)
      return (if ending.works then working ++ [found] else working, false) :
        Job.Script (List BestConnectionCandidate × Bool)) ((w.call [.started]).flag c)
      = (t.stopOutcome ending c).finish found working w := by
  have hcall : ((w.call [.started]).flag c).call [.stopped]
      = (w.call [.started, .stopped]).flag c := World.call_flag w _ _ c
  change (pause (t.cancels .resting) (t.thrown .resting) >>= _)
    (((w.call [.started]).flag c).call [.stopped]) = _
  rw [hcall]
  refine pause_past (fun _ _ => rfl) ?_
  intro c
  rcases hending with rfl | rfl <;> rfl

end Turn

/-- The candidate is found fast enough, or not. -/
def Trial.found (t : Trial) (candidate : String × String) : BestConnectionCandidate :=
  ⟨candidate.1, candidate.2, t.speed⟩

/-- The rest of the turn, once the speed is measured. -/
theorem speed_eq (t : Trial) (minSpeedMbps : ℤ) (candidate : String × String)
    (working : List BestConnectionCandidate) (w : World) (c : Bool) :
    (do
      let enough := t.speed ≥ Speed.ofInt minSpeedMbps
      let working := if enough then working ++ [⟨candidate.1, candidate.2, t.speed⟩] else working
      if enough ∧ working.length ≥ 5 then
        pause (t.cancels .asking) (t.thrown .asking)
        if (← get).cancelled then return (working, true)
      call .stopped
      pause (t.cancels .resting) (t.thrown .resting)
      return (working, false) :
        Job.Script (List BestConnectionCandidate × Bool)) ((w.call [.started]).flag c)
      = (t.speedOutcome minSpeedMbps (working.length ≥ 4) c).finish (t.found candidate)
          working w := by
  unfold Trial.speedOutcome
  by_cases henough : t.Enough minSpeedMbps
  · have hspeed : t.speed ≥ Speed.ofInt minSpeedMbps := henough
    simp only [if_pos hspeed, if_pos henough, List.length_append, List.length_singleton]
    have hwork := stop_eq (Or.inr rfl) t (t.found candidate) working w
    by_cases hasks : working.length ≥ 4
    · have hfive : t.speed ≥ Speed.ofInt minSpeedMbps ∧ working.length + 1 ≥ 5 :=
        ⟨hspeed, Nat.succ_le_succ hasks⟩
      simp only [if_pos hfive, decide_eq_true hasks, if_true]
      refine pause_past (fun _ _ => rfl) ?_
      intro c
      cases c with
      | true => rfl
      | false => exact hwork false
    · have hfour : ¬ (t.speed ≥ Speed.ofInt minSpeedMbps ∧ working.length + 1 ≥ 5) := by
        intro h
        omega
      simp only [if_neg hfour, decide_eq_false hasks]
      exact hwork c
  · have hspeed : ¬ t.speed ≥ Speed.ofInt minSpeedMbps := henough
    have hfive : ∀ n, ¬ (t.speed ≥ Speed.ofInt minSpeedMbps ∧ n ≥ 5) := fun _ h => hspeed h.1
    simp only [if_neg hspeed, if_neg henough, if_neg (hfive _)]
    exact stop_eq (Or.inl rfl) t (t.found candidate) working w c

/-- **The trial of one candidate**: the settings are saved and whatever is running is stopped, and
the rest follows from the outcome. -/
theorem tryCandidate_eq (original : AzadiSettings) (minSpeedMbps : ℤ)
    (candidate : String × String) (t : Trial) (working : List BestConnectionCandidate) (w : World) :
    tryCandidate original minSpeedMbps candidate t working w
      = (t.outcome minSpeedMbps (working.length ≥ 4) w.cancelled).finish (t.found candidate) working
          ((w.commit (scanTrial original candidate.1 candidate.2 (candidate.1 != "direct"))).call
            [.stopped]) := by
  unfold tryCandidate Trial.outcome
  generalize scanTrial original candidate.1 candidate.2 (candidate.1 != "direct") = trial
  generalize hv : (w.commit trial).call [.stopped] = v
  have hstart : ((w.commit trial).call [.stopped]) = (v.call []).flag w.cancelled := by
    rw [hv, World.call_nil, ← hv]
    rfl
  change (pause (t.cancels .stopping) (t.thrown .stopping) >>= _)
    ((w.commit trial).call [.stopped]) = _
  rw [hstart]
  refine pause_past (fun _ _ => rfl) ?_
  intro c
  refine pause_past (fun _ _ => rfl) ?_
  intro c
  cases hok : t.startOk with
  | false => rfl
  | true =>
    have hup : (((v.call []).flag c).call [.started]) = (v.call [.started]).flag c :=
      World.call_flag v _ _ c
    change (waitConnected t.polls >>= _) (((v.call []).flag c).call [.started]) = _
    rw [hup]
    have hwait := waitConnected_eq t.polls (v.call [.started]) c
    rw [if_pos rfl, Trial.tunnelOutcome]
    rcases hwaited : waited c t.polls with ⟨thrown | up, c'⟩
    · rw [hwaited] at hwait
      rw [bind_apply_error hwait]
      rfl
    · rw [hwaited] at hwait
      rw [bind_apply_ok hwait]
      cases up with
      | false => rfl
      | true =>
        refine pause_past (fun _ _ => rfl) ?_
        exact speed_eq t minSpeedMbps candidate working v

/-! ## 3. The loops -/

/-- A candidate, with the speed its trial would measure, and what its trial came to. -/
structure Tried where
  found : BestConnectionCandidate
  outcome : TrialOutcome

/-- The candidates that are tried, when `working` have been found before. -/
def triedOf (minSpeedMbps : ℤ) :
    List (String × String) → (ℕ → Trial) → ℕ → Bool → List Tried
  | [], _, _, _ => []
  | candidate :: rest, met, working, cancelled =>
    if cancelled then []
    else
      let outcome := (met 0).outcome minSpeedMbps (working ≥ 4) cancelled
      ⟨(met 0).found candidate, outcome⟩ :: match outcome.ending with
        | .error _ => []
        | .ok ending =>
          if ending = .broke then []
          else triedOf minSpeedMbps rest (fun i => met (i + 1))
            (if ending.works then working + 1 else working) outcome.cancelled

/-- The tried candidate's speed met the minimum. -/
def Tried.works (tried : Tried) : Option BestConnectionCandidate :=
  match tried.outcome.ending with
  | .ok ending => if ending.works then some tried.found else none
  | .error _ => none

/-- What has cut the trial short. -/
def Tried.cut (tried : Tried) : Option Thrown :=
  match tried.outcome.ending with
  | .ok _ => none
  | .error (_, thrown) => some thrown

/-- The tunnel calls of a trial. -/
def Tried.calls (tried : Tried) : List TunnelCall := .stopped :: tried.outcome.calls

theorem scanAll_of_cancelled (original : AzadiSettings) (minSpeedMbps : ℤ)
    (rest : List (String × String)) (met : ℕ → Trial) (working : List BestConnectionCandidate)
    {w : World} (h : w.cancelled = true) :
    scanAll original minSpeedMbps rest met working w = .ok working w := by
  cases rest with
  | nil => rfl
  | cons candidate rest =>
    rw [scanAll]
    change (if w.cancelled then _ else _ : Job.Script _) w = _
    rw [if_pos h]
    rfl

theorem scanAll_cons_of_not (original : AzadiSettings) (minSpeedMbps : ℤ)
    (candidate : String × String) (rest : List (String × String)) (met : ℕ → Trial)
    (working : List BestConnectionCandidate) {w : World} (h : w.cancelled = false) :
    scanAll original minSpeedMbps (candidate :: rest) met working w
      = (tryCandidate original minSpeedMbps candidate (met 0) working >>= fun r =>
          if r.2 then return r.1
          else scanAll original minSpeedMbps rest (fun i => met (i + 1)) r.1) w := by
  rw [scanAll]
  change (if w.cancelled then _ else _ : Job.Script _) w = _
  rw [h]
  rfl

/-- **The loops**: the calls of all trials are made, and the scan goes on until it is cut short. -/
theorem scanAll_eq (original : AzadiSettings) (minSpeedMbps : ℤ)
    (rest : List (String × String)) (met : ℕ → Trial) (working : List BestConnectionCandidate)
    (w : World) :
    ∃ v : World,
      v.calls = w.calls ++
        (triedOf minSpeedMbps rest met working.length w.cancelled).flatMap Tried.calls ∧
      v.running = w.running ∧
      scanAll original minSpeedMbps rest met working w
        = match (triedOf minSpeedMbps rest met working.length w.cancelled).findSome? Tried.cut with
          | some thrown => .error thrown v
          | none => .ok (working ++
              (triedOf minSpeedMbps rest met working.length w.cancelled).filterMap
                Tried.works) v := by
  induction rest generalizing met working w with
  | nil => exact ⟨w, by simp [triedOf], rfl, by simp [triedOf, scanAll]⟩
  | cons candidate rest ih =>
    cases hcancelled : w.cancelled with
    | true =>
      refine ⟨w, by simp [triedOf], rfl, ?_⟩
      rw [scanAll_of_cancelled _ _ _ _ _ hcancelled]
      simp [triedOf]
    | false =>
      have htry := tryCandidate_eq original minSpeedMbps candidate (met 0) working w
      rw [scanAll_cons_of_not _ _ _ _ _ _ hcancelled, triedOf, if_neg Bool.false_ne_true]
      rw [hcancelled] at htry
      generalize (met 0).outcome minSpeedMbps (working.length ≥ 4) false = o at *
      generalize hbase : (w.commit (scanTrial original candidate.1 candidate.2
        (candidate.1 != "direct"))).call [.stopped] = base at htry
      have hcalls : ((base.call o.calls).flag o.cancelled).calls
          = w.calls ++ Tried.calls ⟨(met 0).found candidate, o⟩ := by
        rw [← hbase]
        exact List.append_assoc _ _ _
      have hrunning : ((base.call o.calls).flag o.cancelled).running = w.running := by
        rw [← hbase]
        rfl
      have hflag : ((base.call o.calls).flag o.cancelled).cancelled = o.cancelled := rfl
      rw [TrialOutcome.finish] at htry
      generalize (base.call o.calls).flag o.cancelled = u at *
      rcases hending : o.ending with ⟨stage, thrown⟩ | ending
      · rw [hending] at htry
        refine ⟨u, by simpa [hending] using hcalls, hrunning, ?_⟩
        rw [bind_apply_error htry]
        simp [Tried.cut, hending]
      · rw [hending] at htry
        by_cases hbroke : ending = .broke
        · subst hbroke
          refine ⟨u, by simpa [hending] using hcalls, hrunning, ?_⟩
          rw [bind_apply_ok htry]
          simp [Tried.cut, Tried.works, TrialEnding.works, hending]
        · obtain ⟨v, hvcalls, hvrunning, hrest⟩ := ih (fun i => met (i + 1))
            (if ending.works then working ++ [(met 0).found candidate] else working) u
          have hlength : (if ending.works then working ++ [(met 0).found candidate]
              else working).length =
                if ending.works then working.length + 1 else working.length := by
            split <;> simp
          rw [hlength, hflag] at hvcalls hrest
          refine ⟨v, ?_, hvrunning.trans hrunning, ?_⟩
          · rw [hvcalls, hcalls]
            simp [hending, hbroke]
          · rw [bind_apply_ok htry]
            cases hworks : ending.works <;> rw [hworks] at hrest <;>
              simpa [Tried.cut, Tried.works, hending, hbroke, hworks] using hrest

/-! ## 4. No trace -/

/-- The settings are as they were, the scan is not running, and no tunnel of its own is left. -/
def Clean (p : Preferences) (w : World) : Prop :=
  Unchanged p w.prefs ∧ w.running = false ∧ ¬ w.TunnelLeft

/-- `best` is the fastest of the tried candidates whose speed met the minimum. -/
def IsBest (tried : List Tried) (best : BestConnectionCandidate) : Prop :=
  best ∈ tried.filterMap Tried.works ∧
    ∀ candidate ∈ tried.filterMap Tried.works, candidate.speedMbps ≤ best.speedMbps

/-- The scan leaves no trace, and what it returns is the best. -/
def LeavesNoTrace (p : Preferences) (tried : List Tried) :
    EStateM.Result Thrown World (Option BestConnectionCandidate) → Prop
  | .ok best w => Clean p w ∧ ∀ b, best = some b → IsBest tried b
  | .error _ w => Clean p w

/-- The trial ends with its tunnel started and not stopped. -/
def Tried.Leaves (tried : Tried) : Prop :=
  match tried.outcome.ending with
  | .error (.up, _) | .ok .timedOut | .ok .broke => True
  | _ => False

theorem Tried.leaves_iff (tried : Tried) : tried.Leaves ↔ tried.calls.getLast? = some .started := by
  unfold Tried.Leaves Tried.calls TrialOutcome.calls
  generalize tried.outcome.ending = ending
  rcases ending with ⟨stage, thrown⟩ | ending
  · cases stage <;> simp
  · cases ending <;> simp

/-- Every trial stops what the one before it has left. -/
theorem tunnelLeft_iff_last (tried : List Tried) :
    (tried.flatMap Tried.calls).getLast? = some .started ↔
      ∃ last, tried.getLast? = some last ∧ last.Leaves := by
  induction tried using List.reverseRecOn with
  | nil => simp
  | append_singleton before last _ =>
    have hcalls : last.calls ≠ [] := List.cons_ne_nil _ _
    rw [List.flatMap_append, List.flatMap_singleton, List.getLast?_append_of_ne_nil _ hcalls,
      ← Tried.leaves_iff, List.getLast?_concat]
    simp

theorem isBest_argmax {tried : List Tried} {best : BestConnectionCandidate}
    (h : (tried.filterMap Tried.works).argmax BestConnectionCandidate.speedMbps = some best) :
    IsBest tried best :=
  ⟨List.argmax_mem h, fun _ hmem => List.le_of_mem_argmax hmem h⟩

theorem commit_restore_eq_save (original : AzadiSettings) (q : Preferences) :
    (restore original scanFields).commit q = save q original := by
  refine Write.commit_eq_save ?_ q
  intro x hx
  change x ∈ scanFields at hx
  simp only [scanFields, List.mem_cons, List.not_mem_nil, or_false] at hx
  rcases hx with rfl | rfl | rfl <;> rfl

/-- Restored, and no longer running. -/
theorem clean_restored_iff (p : Preferences) (v : World) :
    Clean p ((v.commit (restore (load p) scanFields)).setRunning false) ↔
      ¬ NeedsMigration p ∧ (load p).ConsentsAgree ∧ ¬ v.TunnelLeft := by
  have hprefs : ((v.commit (restore (load p) scanFields)).setRunning false).prefs
      = save v.prefs (load p) := commit_restore_eq_save (load p) v.prefs
  rw [Clean, hprefs, unchanged_save_load_iff, and_assoc]
  exact and_congr_right fun _ => and_congr_right fun _ => and_iff_right rfl

/-- After an exception the scan restores and is no longer running. -/
theorem abandon_exception_iff (p : Preferences) (tried : List Tried) (v : World) :
    LeavesNoTrace p tried (abandon (load p) .exception v) ↔
      ¬ NeedsMigration p ∧ (load p).ConsentsAgree ∧ ¬ v.TunnelLeft := by
  have hend : LeavesNoTrace p tried (abandon (load p) .exception v) ↔
      Clean p ((v.commit (restore (load p) scanFields)).setRunning false) :=
    and_iff_left fun _ h => absurd h.symm (Option.some_ne_none _)
  rw [hend, clean_restored_iff]

/-- After a cancellation the flag is left set. -/
theorem not_leavesNoTrace_abandon_cancellation (p : Preferences) (tried : List Tried) {v : World}
    (hrunning : v.running = true) : ¬ LeavesNoTrace p tried (abandon (load p) .cancellation v) := by
  rintro ⟨-, hfalse, -⟩
  exact Bool.noConfusion (hfalse.symm.trans hrunning)

/-- When the candidates are through the scan restores, and returns a best one if there is any. -/
theorem conclude_iff (p : Preferences) (tried : List Tried)
    {scan : Job.Script (List BestConnectionCandidate)} {w v : World}
    (hscan : scan w = .ok (tried.filterMap Tried.works) v) :
    LeavesNoTrace p tried (tryCatch (scan >>= conclude (load p)) (abandon (load p)) w) ↔
      ¬ NeedsMigration p ∧ (load p).ConsentsAgree ∧ ¬ v.TunnelLeft := by
  have hbody := @bind_apply_ok _ _ _ _ _ (conclude (load p)) _ _ _ hscan
  cases hbest : (tried.filterMap Tried.works).argmax BestConnectionCandidate.speedMbps with
  | none =>
    have hconclude : conclude (load p) (tried.filterMap Tried.works) v
        = .ok none ((v.commit (restore (load p) scanFields)).setRunning false) := by
      unfold conclude
      rw [hbest]
      rfl
    rw [tryCatch_apply_ok (hbody.trans hconclude), ← clean_restored_iff]
    exact and_iff_left fun _ h => absurd h.symm (Option.some_ne_none _)
  | some best =>
    by_cases hinfinite : best.speedMbps = ((⊤ : WithTop ℚ) : Speed)
    · -- saving the best throws, and the settings are restored twice
      have hconclude : conclude (load p) (tried.filterMap Tried.works) v
          = .error .exception (v.commit (restore (load p) scanFields)) := by
        unfold conclude saveBest
        rw [hbest]
        simp only [if_pos hinfinite]
        rfl
      rw [tryCatch_apply_error (hbody.trans hconclude)]
      exact abandon_exception_iff p tried (v.commit (restore (load p) scanFields))
    · have hconclude : conclude (load p) (tried.filterMap Tried.works) v
          = .ok (some best) ((v.commit (restore (load p) scanFields)).setRunning false) := by
        unfold conclude saveBest
        rw [hbest]
        simp only [if_neg hinfinite]
        rfl
      rw [tryCatch_apply_ok (hbody.trans hconclude), ← clean_restored_iff]
      refine and_iff_left ?_
      intro b hb
      rw [← Option.some.inj hb]
      exact isBest_argmax hbest

/-- The candidates a scan tries. -/
def scanned (minSpeedMbps : ℤ) (conduitAllowed : Bool) (met : ℕ → Trial) : List Tried :=
  triedOf minSpeedMbps (candidates conduitAllowed) met 0 false

/-- **No trace, exactly.**  The load at the beginning finds nothing to migrate, the consents agree,
the scan is not cancelled from outside, and its last candidate does not leave its tunnel up. -/
theorem runScan_leavesNoTrace_iff (p : Preferences) (minSpeedMbps : ℤ) (conduitAllowed : Bool)
    (met : ℕ → Trial) :
    LeavesNoTrace p (scanned minSpeedMbps conduitAllowed met)
        (runScan minSpeedMbps conduitAllowed met (World.initial p)) ↔
      ¬ NeedsMigration p ∧ (load p).ConsentsAgree ∧
        (scanned minSpeedMbps conduitAllowed met).findSome? Tried.cut ≠ some .cancellation ∧
        ∀ last, (scanned minSpeedMbps conduitAllowed met).getLast? = some last →
          ¬ last.Leaves := by
  obtain ⟨v, hcalls, hrunning, hscan⟩ := scanAll_eq (load p) minSpeedMbps
    (candidates conduitAllowed) met [] ((((World.initial p).flag false).loaded).setRunning true)
  have hleft : v.TunnelLeft ↔ ∃ last,
      (scanned minSpeedMbps conduitAllowed met).getLast? = some last ∧ last.Leaves := by
    rw [World.TunnelLeft, hcalls]
    exact tunnelLeft_iff_last _
  change scanAll _ _ _ _ _ _ =
    match (scanned minSpeedMbps conduitAllowed met).findSome? Tried.cut with
    | some thrown => _
    | none => .ok ((scanned minSpeedMbps conduitAllowed met).filterMap Tried.works) v at hscan
  generalize scanned minSpeedMbps conduitAllowed met = tried at *
  have hlast : (∀ last, tried.getLast? = some last → ¬ last.Leaves) ↔ ¬ v.TunnelLeft := by
    rw [hleft]
    push Not
    rfl
  rw [hlast]
  have hrun : runScan minSpeedMbps conduitAllowed met (World.initial p)
      = tryCatch (scanAll (load p) minSpeedMbps (candidates conduitAllowed) met [] >>=
          conclude (load p)) (abandon (load p))
          ((((World.initial p).flag false).loaded).setRunning true) := rfl
  rw [hrun]
  cases hcut : tried.findSome? Tried.cut with
  | some thrown =>
    rw [hcut] at hscan
    rw [tryCatch_apply_error (bind_apply_error hscan)]
    cases thrown with
    | cancellation =>
      exact iff_of_false (not_leavesNoTrace_abandon_cancellation p tried hrunning)
        (fun h => h.2.2.1 rfl)
    | exception =>
      rw [abandon_exception_iff]
      simp
  | none =>
    rw [hcut] at hscan
    rw [conclude_iff p tried hscan]
    simp

/-- Nothing is thrown at a suspension point of the trial itself. -/
def quietTrial (startOk : Bool) (polls : List ScanPoll) (speed : Speed) : Trial where
  thrown _ := none
  cancels _ := false
  startOk := startOk
  polls := polls
  speed := speed

/-- The first candidate's tunnel is still coming up when the user cancels the scan. -/
def cancelledScan (_ : ℕ) : Trial := quietTrial true [⟨none, true, false⟩] ⊥

/-- It is still coming up when the coroutine is cancelled. -/
def abandonedScan (_ : ℕ) : Trial := quietTrial true [⟨some .cancellation, false, false⟩] ⊥

/-- The one leaves the tunnel, the other the flag as well. -/
theorem scan_leaves_trace :
    (¬ LeavesNoTrace (fun _ => none) (scanned 2 true cancelledScan)
          (runScan 2 true cancelledScan (World.initial fun _ => none)) ∧
        ∃ w, runScan 2 true cancelledScan (World.initial fun _ => none) = .ok none w ∧
          w.TunnelLeft) ∧
      ¬ LeavesNoTrace (fun _ => none) (scanned 2 true abandonedScan)
          (runScan 2 true abandonedScan (World.initial fun _ => none)) ∧
        ∃ w, runScan 2 true abandonedScan (World.initial fun _ => none) = .error .cancellation w ∧
          w.TunnelLeft ∧ w.running = true :=
  ⟨⟨fun h => h.1.2.2 rfl, _, rfl, rfl⟩, fun h => h.2.2 rfl, _, rfl, rfl, rfl⟩

end ShiroKhorshid.Settings
