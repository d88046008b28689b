/-
# The conduit fallback timer

In `conduit` mode `auto` the service first tries its own conduits and, when that has not led to a
connection in time, falls back to the public ones: a runnable posted with a delay sets
`m_conduitFallbackToPublic` and restarts the core.

The runnable looks at two things when it runs, `m_isStopping` and `m_tunnelState.isConnected()`;
it does not look at the configuration again.  The delay is an `int` product in milliseconds.

The source keeps the runnable in a field, whether or not it is still posted, and the field is what
`startConduitFallbackTimerIfNeeded` asks.  The model has both:

* `timer` is what is posted, with the moment it was armed and the timeout it was armed for;
* `m_conduitFallbackRunnable` says whether the field is set, and it is set whenever something is
  posted (`Known`), so that a cancel takes down whatever is pending.

What each function can do is said once (`startConduitFallbackTimerIfNeeded_cases`,
`cancelConduitFallbackTimer_of_known`, `fire_cases`), and a run is followed in `FallbackSafety` and
`FallbackCoverage`.

Time is a clock in milliseconds that goes on by `tick`s of any length.  A timer does not run before
its delay is over, and nothing is said of how soon after it does.
-/
import ShiroKhorshid.Service.Config

namespace ShiroKhorshid.Service

open Jvm

/-- A runnable on the handler's queue: when it was posted, with which delay in milliseconds, and
for which timeout. -/
structure Timer where
  armedAt : ℕ
  timeoutMs : ℤ
  conduitTimeoutSeconds : ℤ
deriving DecidableEq

/-- The state of the conduit fallback.  `clock` is the uptime in milliseconds. -/
structure Fallback where
  m_conduitFallbackToPublic : Bool
  /-- `m_conduitFallbackRunnable` is not null; it stays so after the runnable has run -/
  m_conduitFallbackRunnable : Bool
  timer : Option Timer
  clock : ℕ
deriving DecidableEq

/-- The configuration asks for conduits, own ones first. -/
def Config.conduitAuto (config : Config) : Bool :=
  config.protocolSelection = "conduit" && config.conduitMode = "auto"

namespace Fallback

/-- A new service instance. -/
def new : Fallback := ⟨false, false, none, 0⟩

/-- `startConduitFallbackTimerIfNeeded` -/
def startConduitFallbackTimerIfNeeded (config : Option Config) (f : Fallback) : Fallback :=
  match config with
  | none => f
  | some config =>
    if !config.conduitAuto then f
    else if f.m_conduitFallbackToPublic then f
    else if f.m_conduitFallbackRunnable then f
    else { f with
      m_conduitFallbackRunnable := true
      timer := some ⟨f.clock, toInt32 (config.conduitTimeoutSeconds * 1000),
        config.conduitTimeoutSeconds⟩ }

/-- `cancelConduitFallbackTimer` -/
def cancelConduitFallbackTimer (f : Fallback) : Fallback :=
  if f.m_conduitFallbackRunnable then { f with m_conduitFallbackRunnable := false, timer := none }
  else f

/-- The runnable runs, once its delay has passed; a delay below zero is none. -/
def fire (isStopping isConnected : Bool) (f : Fallback) : Option Fallback :=
  match f.timer with
  | none => none
  | some t =>
    if t.armedAt + t.timeoutMs.toNat ≤ f.clock then
      some { f with
        timer := none
        m_conduitFallbackToPublic :=
          if isStopping || isConnected then f.m_conduitFallbackToPublic else true }
    else none

end Fallback

/-! ## What each of them can do -/

section Cases

variable {f f' : Fallback}

/-- The timer is armed in one situation only, with the timeout of the configuration. -/
theorem startConduitFallbackTimerIfNeeded_cases (config : Option Config) (f : Fallback) :
    (∃ c, config = some c ∧ c.conduitAuto = true ∧ f.m_conduitFallbackToPublic = false ∧
      f.m_conduitFallbackRunnable = false ∧
      f.startConduitFallbackTimerIfNeeded config = { f with
        m_conduitFallbackRunnable := true
        timer := some ⟨f.clock, toInt32 (c.conduitTimeoutSeconds * 1000),
          c.conduitTimeoutSeconds⟩ }) ∨
    ((∀ c, config = some c → c.conduitAuto = true → f.m_conduitFallbackToPublic = false →
        f.m_conduitFallbackRunnable = true) ∧
      f.startConduitFallbackTimerIfNeeded config = f) := by
  cases config with
  | none => exact Or.inr ⟨fun c hc => absurd hc (by simp), rfl⟩
  | some c =>
    simp only [Fallback.startConduitFallbackTimerIfNeeded]
    cases hauto : c.conduitAuto with
    | false =>
      refine Or.inr ⟨?_, rfl⟩
      intro c' hc h
      obtain rfl := Option.some.inj hc
      exact absurd (h.symm.trans hauto) (by decide)
    | true =>
      cases hpub : f.m_conduitFallbackToPublic with
      | true => exact Or.inr ⟨fun _ _ _ h => absurd h (by decide), rfl⟩
      | false =>
        cases hrun : f.m_conduitFallbackRunnable with
        | true => exact Or.inr ⟨fun _ _ _ _ => rfl, rfl⟩
        | false => exact Or.inl ⟨c, rfl, hauto, rfl, rfl, rfl⟩

/-- A runnable that is pending is known to the field that cancels it. -/
def Fallback.Known (f : Fallback) : Prop := f.timer ≠ none → f.m_conduitFallbackRunnable = true

/-- Cancelling a known timer leaves none pending, and touches nothing else. -/
theorem cancelConduitFallbackTimer_of_known (h : f.Known) :
    f.cancelConduitFallbackTimer
      = { f with m_conduitFallbackRunnable := false, timer := none } := by
  unfold Fallback.cancelConduitFallbackTimer
  split
  · rfl
  · rename_i hrun
    have hnone : f.timer = none := by
      by_contra hne
      exact hrun (h hne)
    obtain ⟨pub, run, timer, clock⟩ := f
    simp only at hnone hrun
    simp [hnone, hrun]

/-- **A timer that fires** has waited its delay, and sets the flag unless the service is stopping
or connected. -/
theorem fire_cases {isStopping isConnected : Bool}
    (h : f.fire isStopping isConnected = some f') :
    ∃ t, f.timer = some t ∧ t.armedAt + t.timeoutMs.toNat ≤ f.clock ∧
      ((isStopping = false ∧ isConnected = false ∧
          f' = { f with timer := none, m_conduitFallbackToPublic := true }) ∨
        ((isStopping = true ∨ isConnected = true) ∧ f' = { f with timer := none })) := by
  unfold Fallback.fire at h
  cases ht : f.timer with
  | none => simp [ht] at h
  | some t =>
    simp only [ht] at h
    split at h
    · rename_i hdue
      obtain rfl := Option.some.inj h
      refine ⟨t, rfl, hdue, ?_⟩
      cases isStopping <;> cases isConnected <;> simp
    · cases h

end Cases

end ShiroKhorshid.Service
