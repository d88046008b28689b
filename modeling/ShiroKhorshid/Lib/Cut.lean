/-
# Cutting a list at a separator

A text is often cut in two at a character, at the first place where it stands or at the last.  Both
cuts are characterised by the same equation, `as ++ x :: bs`, and differ in the side that is free of
the separator; so a text that was put together from parts is cut into these parts again.

* `first_eq_some_iff` and `last_eq_some_iff` are these characterisations, both ways.
* There is no cut exactly where the separator does not occur (`first_eq_none_iff`,
  `last_eq_none_iff`).
* Two ways of putting the same text together around a separator, with fronts that are free of it,
  are one (`append_cons_inj`).

It is about any list: a character is a value with decidable equality.
-/
import Mathlib.Data.List.Basic

namespace Cut

variable {α : Type*} [DecidableEq α] {x : α}

/-- What is before the first `x` and what is after it. -/
def first (x : α) : List α → Option (List α × List α)
  | [] => none
  | c :: cs => if c = x then some ([], cs) else (first x cs).map fun p => (c :: p.1, p.2)

/-- What is before the last `x` and what is after it. -/
def last (x : α) (cs : List α) : Option (List α × List α) :=
  (first x cs.reverse).map fun p => (p.2.reverse, p.1.reverse)

theorem first_eq_some_iff {cs as bs : List α} :
    first x cs = some (as, bs) ↔ cs = as ++ x :: bs ∧ x ∉ as := by
  induction cs generalizing as with
  | nil => simp [first]
  | cons c cs ih =>
    rw [first]
    split
    · rename_i hc
      subst hc
      constructor
      · intro h
        obtain ⟨rfl, rfl⟩ := Prod.mk.inj (Option.some.inj h)
        exact ⟨rfl, List.not_mem_nil⟩
      · rintro ⟨h, hnot⟩
        cases as with
        | nil =>
          obtain ⟨-, rfl⟩ := List.cons.inj h
          rfl
        | cons a as =>
          obtain ⟨rfl, -⟩ := List.cons.inj h
          exact absurd List.mem_cons_self hnot
    · rename_i hc
      constructor
      · intro h
        obtain ⟨⟨as', bs'⟩, hfirst, hpair⟩ := Option.map_eq_some_iff.mp h
        obtain ⟨rfl, rfl⟩ := Prod.mk.inj hpair
        obtain ⟨rfl, hnot⟩ := ih.mp hfirst
        exact ⟨rfl, List.not_mem_cons_of_ne_of_not_mem (Ne.symm hc) hnot⟩
      · rintro ⟨h, hnot⟩
        cases as with
        | nil =>
          obtain ⟨rfl, -⟩ := List.cons.inj h
          exact absurd rfl hc
        | cons a as =>
          obtain ⟨rfl, rfl⟩ := List.cons.inj h
          rw [ih.mpr ⟨rfl, fun hx => hnot (List.mem_cons_of_mem _ hx)⟩]
          rfl

theorem first_eq_none_iff {cs : List α} : first x cs = none ↔ x ∉ cs := by
  constructor
  · intro h hx
    obtain ⟨as, bs, hcs, hnot⟩ := List.eq_append_cons_of_mem hx
    have hsome := first_eq_some_iff.mpr ⟨hcs, hnot⟩
    rw [h] at hsome
    cases hsome
  · intro hx
    cases h : first x cs with
    | none => rfl
    | some p =>
      obtain ⟨rfl, -⟩ := first_eq_some_iff.mp h
      exact absurd (List.mem_append_right _ List.mem_cons_self) hx

theorem last_eq_some_iff {cs as bs : List α} :
    last x cs = some (as, bs) ↔ cs = as ++ x :: bs ∧ x ∉ bs := by
  rw [last, Option.map_eq_some_iff]
  constructor
  · rintro ⟨⟨bs', as'⟩, hfirst, hpair⟩
    obtain ⟨rfl, rfl⟩ := Prod.mk.inj hpair
    obtain ⟨hcs, hnot⟩ := first_eq_some_iff.mp hfirst
    refine ⟨?_, fun hx => hnot (List.mem_reverse.mp hx)⟩
    rw [← List.reverse_reverse cs, hcs]
    simp
  · rintro ⟨rfl, hnot⟩
    refine ⟨(bs.reverse, as.reverse), ?_, by simp⟩
    exact first_eq_some_iff.mpr ⟨by simp, fun hx => hnot (List.mem_reverse.mp hx)⟩

theorem last_eq_none_iff {cs : List α} : last x cs = none ↔ x ∉ cs := by
  rw [last, Option.map_eq_none_iff, first_eq_none_iff, List.mem_reverse]

/-- Cut at the first separator, a text has its parts in one way. -/
theorem append_cons_inj {as as' bs bs' : List α} (h : as ++ x :: bs = as' ++ x :: bs')
    (has : x ∉ as) (has' : x ∉ as') : as = as' ∧ bs = bs' := by
  have hfirst : first x (as ++ x :: bs) = some (as, bs) := first_eq_some_iff.mpr ⟨rfl, has⟩
  rw [first_eq_some_iff.mpr ⟨h, has'⟩] at hfirst
  obtain ⟨rfl, rfl⟩ := Prod.mk.inj (Option.some.inj hfirst)
  exact ⟨rfl, rfl⟩

end Cut
