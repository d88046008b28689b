/-
# What goes in comes out in order

A component takes items in and hands items out as it steps.  What went in along a run and what
came out is collected event by event (`collect`).  When the state holds a list of items, and a step
adds what it takes in at the end of that list and hands out what stands at its front, nothing is
lost, repeated or reordered along a run: what came out, and then what is still held, is what
was held first, and then what went in (`conserved`).

* `collect` follows the run by `exec`, and is taken apart at either end (`collect_cons`,
  `collect_append_singleton`).
* The rule for runs asks for one equation about a step, `q ++ ins = outs ++ q'`, between what the
  state before and the state after hold (`Holds`).  The items need not be what the component works
  on: packets and the bytes they are cut into are followed by the same rule.
* A property of every single item that is collected is proved step by step as well
  (`forall_mem_collect`, `collect_invariant`).

A queue that drops items does not conserve them; what is taken in is then what it accepts.
-/
import ShiroKhorshid.Lib.Transition

namespace Fifo

open Transition

variable {S E α : Type*}

/-- What `f` reads off each event of a run, in order. -/
def collect (step : S → E → Option S) (f : S → E → List α) : S → List E → List α
  | _, [] => []
  | s, e :: es => f s e ++ ((step s e).map fun t => collect step f t es).getD []

variable {step : S → E → Option S} {ins outs : S → E → List α} {Holds : S → List α → Prop}

@[simp] theorem collect_nil (f : S → E → List α) (s : S) : collect step f s [] = [] := rfl

theorem collect_cons (f : S → E → List α) {s t : S} {e : E} (es : List E)
    (h : step s e = some t) : collect step f s (e :: es) = f s e ++ collect step f t es := by
  rw [collect, h]
  rfl

/-- Reading off and then expanding each item is reading off the expanded items. -/
theorem collect_flatMap {β : Type*} (f : S → E → List α) (g : α → List β) (s : S) (es : List E) :
    collect step (fun s e => (f s e).flatMap g) s es = (collect step f s es).flatMap g := by
  induction es generalizing s with
  | nil => rfl
  | cons e es ih =>
    rw [collect, collect, List.flatMap_append]
    cases step s e with
    | none => simp
    | some t => simp [ih]

theorem collect_append_singleton (f : S → E → List α) {s t : S} {es : List E} {e : E}
    (h : exec step s es = some t) :
    collect step f s (es ++ [e]) = collect step f s es ++ f t e := by
  induction es generalizing s with
  | nil =>
    obtain rfl := Option.some.inj h
    rw [List.nil_append, collect_nil, List.nil_append, collect]
    cases step s e <;> simp
  | cons d es ih =>
    rw [exec, List.foldlM_cons, Option.bind_eq_bind, Option.bind_eq_some_iff] at h
    obtain ⟨u, hu, hrest⟩ := h
    rw [List.cons_append, collect_cons f _ hu, collect_cons f _ hu, ih hrest, List.append_assoc]

theorem exec_cons {s u : S} {e : E} {es : List E} :
    exec step s (e :: es) = some u ↔ ∃ t, step s e = some t ∧ exec step t es = some u := by
  rw [exec, List.foldlM_cons, Option.bind_eq_bind, Option.bind_eq_some_iff]
  rfl

/-- What holds of every item of a step holds of every item of a run. -/
theorem forall_mem_collect {Inv : S → Prop} {P : α → Prop} {f : S → E → List α}
    (hstep : ∀ s e t, Inv s → step s e = some t → Inv t ∧ ∀ a ∈ f s e, P a) {s t : S} (hs : Inv s)
    {es : List E} (h : exec step s es = some t) : ∀ a ∈ collect step f s es, P a := by
  induction es generalizing s with
  | nil => intro a ha; cases ha
  | cons e es ih =>
    obtain ⟨u, hu, hrest⟩ := exec_cons.mp h
    obtain ⟨hinv, hitems⟩ := hstep s e u hs hu
    rw [collect_cons f es hu]
    intro a ha
    rcases List.mem_append.mp ha with ha | ha
    · exact hitems a ha
    · exact ih hinv hrest a ha

/-- What holds of the start and nothing, and is kept by every step that meets `Ok` together with
what is read off it, holds of the end of a run and all that was read off. -/
theorem collect_invariant {Ok : S → E → Prop} {Inv : S → List α → Prop} {f : S → E → List α}
    {s t : S} {es : List E} (h : Run step Ok s es t) (hinit : Inv s [])
    (hstep : ∀ s l e t, Inv s l → Ok s e → step s e = some t → Inv t (l ++ f s e)) :
    Inv t (collect step f s es) := by
  induction h with
  | nil => exact hinit
  | snoc hrun hok hs ih =>
    rw [collect_append_singleton f hrun.exec_eq]
    exact hstep _ _ _ _ ih hok hs

/-- **Nothing is lost, repeated or reordered.** -/
theorem conserved
    (hstep : ∀ s q e t, Holds s q → step s e = some t →
      ∃ q', Holds t q' ∧ q ++ ins s e = outs s e ++ q')
    {s t : S} {q : List α} (hs : Holds s q) {es : List E} (h : exec step s es = some t) :
    ∃ q', Holds t q' ∧ q ++ collect step ins s es = collect step outs s es ++ q' := by
  induction es generalizing s q with
  | nil =>
    obtain rfl := Option.some.inj h
    exact ⟨q, hs, by simp⟩
  | cons e es ih =>
    obtain ⟨u, hu, hrest⟩ := exec_cons.mp h
    obtain ⟨q₁, hq₁, hfirst⟩ := hstep s q e u hs hu
    obtain ⟨q₂, hq₂, hlater⟩ := ih hq₁ hrest
    refine ⟨q₂, hq₂, ?_⟩
    rw [collect_cons ins es hu, collect_cons outs es hu, ← List.append_assoc, hfirst,
      List.append_assoc, hlater, List.append_assoc]

end Fifo
