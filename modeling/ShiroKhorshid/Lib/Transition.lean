/-
# Runs of a transition system

A component is a state, a set of events and what each event does.  Two shapes come up.  A TOTAL
system answers every event, so a run is a `List.foldl`; a GUARDED one refuses some events in some
states (a thread that is not there takes no step), so its step returns an `Option` and a run is
an inductive predicate.

A safety property often fails in general and holds as long as every step meets a condition on the
state it starts from.

* `foldl_forall_iff` turns an exact step lemma into an exact statement about whole runs of a total
  system: the property holds throughout exactly when all steps meet the condition.
* `Run step Ok` is a run of a guarded system whose steps all meet `Ok`, and `Run.invariant` is its
  induction principle: what holds at first and is kept by every step that meets `Ok` holds at the
  end, and so of every state on the way, whose run is a beginning of this one.
* `forall_prefix_iff_run` is the exact statement for guarded systems.
* `exec` computes a run, so that a particular one can be evaluated (`Run.exec_eq`, `run_of_exec`,
  `run_of_execIf`).

Nothing is said of infinite runs, nor that an event which can happen does.
-/
import Mathlib.Data.List.Induction

namespace Transition

variable {S E : Type*}

/-! ## 1. Total systems -/

section Total

variable (act : S → E → S) {Inv P : S → Prop} {Ok : S → E → Prop}

theorem foldl_invariant {s : S} (hinit : Inv s) (hkeeps : ∀ s e, Inv s → Inv (act s e))
    (es : List E) : Inv (es.foldl act s) := by
  induction es generalizing s with
  | nil => exact hinit
  | cons e es ih => exact ih (hkeeps s e hinit)

/-- **Exact conditions lift to runs.**  Among states with an invariant that every step keeps: if a
step from a state with `P` leads to one with `P` exactly when it meets `Ok`, then `P` holds
throughout a run exactly when all its steps meet `Ok`. -/
theorem foldl_forall_iff {s : S} (hinv : Inv s) (hP : P s)
    (hkeeps : ∀ s e, Inv s → Inv (act s e))
    (hexact : ∀ s e, Inv s → P s → (P (act s e) ↔ Ok s e)) (es : List E) :
    (∀ done, done <+: es → P (done.foldl act s)) ↔
      ∀ done e rest, es = done ++ e :: rest → Ok (done.foldl act s) e := by
  constructor
  · rintro hall done e rest rfl
    have hbefore : P (done.foldl act s) := hall done (List.prefix_append _ _)
    have hafter : P ((done ++ [e]).foldl act s) :=
      hall (done ++ [e]) ⟨rest, by simp⟩
    rw [List.foldl_append] at hafter
    exact (hexact _ e (foldl_invariant act hinv hkeeps done) hbefore).mp hafter
  · intro hok done hdone
    induction done using List.reverseRecOn with
    | nil => exact hP
    | append_singleton done e ih =>
      obtain ⟨rest, hrest⟩ := hdone
      have hes : es = done ++ e :: rest := by rw [← hrest]; simp
      have hbefore : P (done.foldl act s) := ih ⟨e :: rest, hes.symm⟩
      rw [List.foldl_append]
      exact (hexact _ e (foldl_invariant act hinv hkeeps done) hbefore).mpr (hok done e rest hes)

/-- The same for an invariant that is all there is to know of a state. -/
theorem foldl_invariant_iff {s : S} (hinit : Inv s)
    (hstep : ∀ s e, Inv s → (Inv (act s e) ↔ Ok s e)) (es : List E) :
    (∀ done, done <+: es → Inv (done.foldl act s)) ↔
      ∀ done e rest, es = done ++ e :: rest → Ok (done.foldl act s) e :=
  @foldl_forall_iff S E act (fun _ => True) Inv Ok s trivial hinit (fun _ _ _ => trivial)
    (fun s e _ => hstep s e) es

end Total

/-! ## 2. Guarded systems -/

section Guarded

variable (step : S → E → Option S) (Ok : S → E → Prop)

/-- A run from `s` to `t` whose steps all meet `Ok`. -/
inductive Run : S → List E → S → Prop
  | nil (s : S) : Run s [] s
  | snoc {s t u : S} {es : List E} {e : E} :
      Run s es t → Ok t e → step t e = some u → Run s (es ++ [e]) u

/-- The state after a list of events, when each of them can happen. -/
def exec (s : S) (es : List E) : Option S := es.foldlM step s

variable {step Ok}

/-- What holds of the empty history and is kept by every step that meets `Ok` holds of the whole
history and the state it leads to. -/
theorem Run.invariant_trace {Inv : List E → S → Prop} {s t : S} {es : List E}
    (h : Run step Ok s es t) (hinit : Inv [] s)
    (hstep : ∀ es s e t, Inv es s → Ok s e → step s e = some t → Inv (es ++ [e]) t) :
    Inv es t := by
  induction h with
  | nil => exact hinit
  | snoc _ hok hs ih => exact hstep _ _ _ _ ih hok hs

/-- What holds at the start and is kept by every step that meets `Ok` holds at the end. -/
theorem Run.invariant {Inv : S → Prop} {s t : S} {es : List E} (h : Run step Ok s es t)
    (hinit : Inv s) (hstep : ∀ s e t, Inv s → Ok s e → step s e = some t → Inv t) : Inv t :=
  h.invariant_trace hinit (fun _ _ _ _ hs hok hst => hstep _ _ _ hs hok hst)

/-- The state a run ends in can be computed. -/
theorem Run.exec_eq {s t : S} {es : List E} (h : Run step Ok s es t) :
    exec step s es = some t := by
  induction h with
  | nil => rfl
  | snoc _ _ hs ih =>
    rw [exec, List.foldlM_append]
    rw [exec] at ih
    simp [ih, hs]

/-- The last event of a run. -/
theorem run_append_singleton_iff {s t : S} {es : List E} {e : E} :
    Run step Ok s (es ++ [e]) t ↔ ∃ u, Run step Ok s es u ∧ Ok u e ∧ step u e = some t := by
  constructor
  · intro h
    generalize hes : es ++ [e] = all at h
    cases h with
    | nil => simp at hes
    | snoc hrun hok hst =>
      obtain ⟨rfl, hlast⟩ := List.append_inj' hes rfl
      obtain rfl := List.singleton_inj.mp hlast
      exact ⟨_, hrun, hok, hst⟩
  · rintro ⟨u, hrun, hok, hst⟩
    exact Run.snoc hrun hok hst

theorem exec_append_singleton_iff {s t : S} {es : List E} {e : E} :
    exec step s (es ++ [e]) = some t ↔ ∃ u, exec step s es = some u ∧ step u e = some t := by
  rw [exec, List.foldlM_append, Option.bind_eq_bind, Option.bind_eq_some_iff]
  simp [exec]

/-- **Exact conditions lift to runs.**  Among states with an invariant that every step keeps: if a
step from a state with `P` leads to one with `P` exactly when it meets `Ok`, then `P` holds
throughout a run exactly when all its steps meet `Ok`. -/
theorem forall_prefix_iff_run {Inv P : S → Prop} {s : S} (hinv : Inv s) (hP : P s)
    (hkeeps : ∀ s e t, Inv s → step s e = some t → Inv t)
    (hexact : ∀ s e t, Inv s → P s → step s e = some t → (P t ↔ Ok s e))
    {es : List E} {t : S} (h : exec step s es = some t) :
    (∀ done u, done <+: es → exec step s done = some u → P u) ↔ Run step Ok s es t := by
  have hall : ∀ es t, exec step s es = some t → Inv t ∧
      ((∀ done u, done <+: es → exec step s done = some u → P u) ↔ Run step Ok s es t) := by
    intro es
    induction es using List.reverseRecOn with
    | nil =>
      intro t h
      obtain rfl := Option.some.inj h
      refine ⟨hinv, fun _ => Run.nil s, ?_⟩
      intro _ done u hdone hu
      obtain rfl := List.prefix_nil.mp hdone
      obtain rfl := Option.some.inj hu
      exact hP
    | append_singleton es e ih =>
      intro t h
      obtain ⟨v, hv, hvt⟩ := exec_append_singleton_iff.mp h
      obtain ⟨hv_inv, hv_iff⟩ := ih v hv
      refine ⟨hkeeps v e t hv_inv hvt, ?_⟩
      rw [run_append_singleton_iff]
      constructor
      · intro hpre
        have hprev : ∀ done u, done <+: es → exec step s done = some u → P u :=
          fun done u hdone => hpre done u (hdone.trans (List.prefix_append _ _))
        have hPv : P v := hprev es v List.prefix_rfl hv
        have hPt : P t := hpre _ t List.prefix_rfl h
        exact ⟨v, hv_iff.mp hprev, (hexact v e t hv_inv hPv hvt).mp hPt, hvt⟩
      · rintro ⟨v', hrun, hok, hst⟩
        obtain rfl := Option.some.inj (hv.symm.trans hrun.exec_eq)
        have hprev := hv_iff.mpr hrun
        intro done u hdone hu
        rcases List.prefix_concat_iff.mp hdone with rfl | hdone
        · obtain rfl := Option.some.inj (h.symm.trans hu)
          exact (hexact v e t hv_inv (hprev es v List.prefix_rfl hv) hvt).mpr hok
        · exact hprev done u hdone hu
  exact (hall es t h).2

/-- Along events that keep an invariant and, under it, meet `Ok`, execution is a run that meets
`Ok` and ends with the invariant. -/
theorem run_of_exec_invariant {Inv : S → Prop} {Allowed : E → Prop} {s t : S} {es : List E}
    (hinit : Inv s) (hstep : ∀ s e t, Inv s → Allowed e → step s e = some t → Ok s e ∧ Inv t)
    (hall : ∀ e ∈ es, Allowed e) (h : exec step s es = some t) : Run step Ok s es t ∧ Inv t := by
  induction es using List.reverseRecOn generalizing t with
  | nil =>
    obtain rfl := Option.some.inj h
    exact ⟨Run.nil s, hinit⟩
  | append_singleton es e ih =>
    obtain ⟨u, hu, hut⟩ := exec_append_singleton_iff.mp h
    obtain ⟨hrun, hinv⟩ := ih (fun e he => hall e (List.mem_append_left _ he)) hu
    obtain ⟨hok, hinv'⟩ := hstep u e t hinv (hall e (by simp)) hut
    exact ⟨Run.snoc hrun hok hut, hinv'⟩

/-- Events that can be executed are a run. -/
theorem run_of_exec {s t : S} {es : List E} (h : exec step s es = some t) :
    Run step (fun _ _ => True) s es t :=
  (@run_of_exec_invariant _ _ step (fun _ _ => True) (fun _ => True) (fun _ => True) s t es trivial
    (fun _ _ _ _ _ _ => ⟨trivial, trivial⟩) (fun _ _ => trivial) h).1

/-- Execution that also checks a decidable condition before every step. -/
def execIf (step : S → E → Option S) (Ok : S → E → Prop) [∀ s e, Decidable (Ok s e)] (s : S)
    (es : List E) : Option S :=
  es.foldlM (fun s e => if Ok s e then step s e else none) s

/-- Events that pass the check are a run whose steps meet the condition. -/
theorem run_of_execIf [∀ s e, Decidable (Ok s e)] {s t : S} {es : List E}
    (h : execIf step Ok s es = some t) : Run step Ok s es t := by
  induction es using List.reverseRecOn generalizing t with
  | nil =>
    obtain rfl := Option.some.inj h
    exact Run.nil s
  | append_singleton es e ih =>
    rw [execIf, List.foldlM_append, Option.bind_eq_bind, Option.bind_eq_some_iff] at h
    obtain ⟨u, hu, he⟩ := h
    rw [List.foldlM_cons, Option.bind_eq_bind, Option.bind_eq_some_iff] at he
    obtain ⟨v, hv, hvt⟩ := he
    obtain rfl := Option.some.inj hvt
    split at hv
    · rename_i hok
      exact Run.snoc (ih hu) hok hv
    · cases hv

/-- A state that has been computed and one more step from it, both found by computing. -/
theorem exists_step_of_any {P : S → S → Prop} [∀ s t, Decidable (P s t)] {o : Option S} {e : E}
    (h : o.any (fun s => (step s e).any (fun t => decide (P s t))) = true) :
    ∃ s t, o = some s ∧ step s e = some t ∧ P s t := by
  obtain ⟨s, hs, hany⟩ := (Option.any_eq_true _ _).mp h
  obtain ⟨t, ht, hP⟩ := (Option.any_eq_true _ _).mp hany
  exact ⟨s, t, hs, ht, of_decide_eq_true hP⟩

end Guarded

end Transition
