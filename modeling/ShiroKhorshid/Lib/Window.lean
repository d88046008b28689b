/-
# Sliding windows

A window of the last few periods is a list of cells, the current period last.  `slide` drops the
oldest cell and opens an empty one, `deposit` adds to the last cell, and `ago cells j` is the cell
`j` places before the last.

Whether a window shows the right series is a question about what was deposited: a `Mark` is a
deposit with the age it really has and the age of the cell it has been carried to.  A window is
`Exact` when the two ages tell the same series.

* A cell holds the sum of the marks that have been carried to it (`Shows`), which sliding and
  depositing keep (`Shows.slide`, `Shows.deposit`); so exactness is about marks alone.
* A mark is `Late` when it has been carried too far whenever it has been carried at all.  Then
  nothing that is too old can be made up for by something that is too young, and the window is exact
  only when nothing is left in it that ever moved (`Shows.exact_iff`).

Deposits are elements of a commutative monoid; for the last result it is one where a sum is zero
only if all its parts are.
-/
import Mathlib.Algebra.BigOperators.Group.List.Basic
import Mathlib.Algebra.Group.Units.Basic
import Mathlib.Data.List.GetD
import Mathlib.Data.List.Induction

namespace Window

variable {M : Type*}

/-! ## 1. Marks -/

/-- A deposit: how many periods ago it was made, how many places before the last the cell is that
holds it, and how much it is. -/
structure Mark (M : Type*) where
  due : ℕ
  shown : ℕ
  amount : M

/-- Time passes: `periods` of it, in which the cells are moved `places` back. -/
def Mark.older (periods places : ℕ) (m : Mark M) : Mark M :=
  { m with due := m.due + periods, shown := m.shown + places }

/-- A mark of the current period is in the last cell; an older one has been moved too far. -/
def Mark.Late (m : Mark M) : Prop := (m.due = 0 → m.shown = 0) ∧ (0 < m.due → m.due < m.shown)

theorem Mark.Late.older {m : Mark M} (h : m.Late) {periods places : ℕ} (hpos : 0 < periods)
    (hlt : periods < places) : (m.older periods places).Late := by
  refine ⟨fun h0 => ?_, fun _ => ?_⟩
  · have : m.due + periods = 0 := h0
    omega
  · change m.due + periods < m.shown + places
    rcases Nat.eq_zero_or_pos m.due with h0 | h0
    · omega
    · have := h.2 h0
      omega

variable [AddCommMonoid M]

/-! ## 2. Cells by age -/

/-- The cell `j` places before the last. -/
def ago (cells : List M) (j : ℕ) : M := cells.reverse.getD j 0

/-- A new empty cell at the end, and the oldest cell dropped. -/
def slide (cells : List M) : List M := (cells ++ [0]).tail

/-- More in the last cell. -/
def deposit (m : M) (cells : List M) : List M := cells.modify (cells.length - 1) (· + m)

@[simp] theorem ago_concat_zero (cells : List M) (m : M) : ago (cells ++ [m]) 0 = m := by
  simp [ago]

@[simp] theorem ago_concat_succ (cells : List M) (m : M) (j : ℕ) :
    ago (cells ++ [m]) (j + 1) = ago cells j := by
  simp [ago]

@[simp] theorem ago_replicate_zero (n j : ℕ) : ago (List.replicate n (0 : M)) j = 0 := by
  rw [ago, List.reverse_replicate, List.getD_eq_getElem?_getD, List.getElem?_replicate]
  split <;> rfl

/-- What is still there after the oldest cell has been dropped. -/
theorem ago_tail {cells : List M} {j : ℕ} (hj : j + 1 < cells.length) :
    ago cells.tail j = ago cells j := by
  cases cells with
  | nil => rfl
  | cons m rest =>
    have hj' : j < rest.reverse.length := by simpa using hj
    rw [List.tail_cons, ago, ago, List.reverse_cons, List.getD_append _ _ _ _ hj']

@[simp] theorem length_slide (cells : List M) : (slide cells).length = cells.length := by
  simp [slide]

@[simp] theorem length_deposit (m : M) (cells : List M) :
    (deposit m cells).length = cells.length := by
  simp [deposit]

theorem ago_slide_zero {cells : List M} (h : 0 < cells.length) : ago (slide cells) 0 = 0 := by
  rw [slide, ago_tail (by simpa using h), ago_concat_zero]

theorem ago_slide_succ {cells : List M} {j : ℕ} (hj : j + 1 < cells.length) :
    ago (slide cells) (j + 1) = ago cells j := by
  rw [slide, ago_tail (by simpa using hj), ago_concat_succ]

@[simp] theorem length_iterate_slide (cells : List M) (k : ℕ) :
    (slide^[k] cells).length = cells.length := by
  induction k with
  | zero => rfl
  | succ k ih => rw [Function.iterate_succ_apply', length_slide, ih]

/-- **Sliding** moves every cell back and leaves empty cells behind. -/
theorem ago_iterate_slide (cells : List M) (k : ℕ) {j : ℕ} (hj : j < cells.length) :
    ago (slide^[k] cells) j = if j < k then 0 else ago cells (j - k) := by
  induction k generalizing j with
  | zero => rfl
  | succ k ih =>
    rw [Function.iterate_succ_apply']
    cases j with
    | zero =>
      rw [ago_slide_zero (by simpa using hj)]
      rfl
    | succ j =>
      rw [ago_slide_succ (by simpa using hj), ih (Nat.lt_of_succ_lt hj), Nat.succ_sub_succ]
      simp only [Nat.succ_lt_succ_iff]

/-- **Depositing** changes the last cell and no other. -/
theorem ago_deposit (m : M) {cells : List M} (h : 0 < cells.length) (j : ℕ) :
    ago (deposit m cells) j = if j = 0 then ago cells 0 + m else ago cells j := by
  rcases List.eq_nil_or_concat cells with rfl | ⟨init, last, rfl⟩
  · cases h
  · have hlast : deposit m (init ++ [last]) = init ++ [last + m] := by
      rw [deposit, List.length_append, List.length_singleton, Nat.add_sub_cancel]
      exact List.modifyTailIdx_add _ 0 init [last]
    rw [List.concat_eq_append, hlast]
    cases j with
    | zero => simp
    | succ j => simp

/-! ## 3. What has been deposited -/

/-- What the marks of one age come to. -/
def sumAt (age : Mark M → ℕ) (marks : List (Mark M)) (j : ℕ) : M :=
  ((marks.filter (fun m => age m = j)).map Mark.amount).sum

/-- The cells hold the marks. -/
def Shows (cells : List M) (marks : List (Mark M)) : Prop :=
  ∀ j < cells.length, ago cells j = sumAt Mark.shown marks j

/-- The cells hold what was deposited in the period each of them stands for. -/
def Exact (cells : List M) (marks : List (Mark M)) : Prop :=
  ∀ j < cells.length, ago cells j = sumAt Mark.due marks j

@[simp] theorem sumAt_nil (age : Mark M → ℕ) (j : ℕ) : sumAt age [] j = 0 := rfl

theorem sumAt_concat (age : Mark M → ℕ) (marks : List (Mark M)) (m : Mark M) (j : ℕ) :
    sumAt age (marks ++ [m]) j = sumAt age marks j + if age m = j then m.amount else 0 := by
  rw [sumAt, List.filter_append, List.map_append, List.sum_append, ← sumAt]
  congr 1
  split <;> simp [*]

/-- Sums by an age that has grown by `k`. -/
theorem sumAt_map_older (age : Mark M → ℕ) (periods places k : ℕ)
    (hage : ∀ m, age (Mark.older periods places m) = age m + k) (marks : List (Mark M)) (j : ℕ) :
    sumAt age (marks.map (Mark.older periods places)) j =
      if j < k then 0 else sumAt age marks (j - k) := by
  induction marks using List.reverseRecOn with
  | nil => simp
  | append_singleton marks m ih =>
    rw [List.map_append, List.map_singleton, sumAt_concat, sumAt_concat, ih, hage]
    by_cases hj : j < k
    · have hne : age m + k ≠ j := by omega
      simp [hj, hne]
    · have hiff : age m + k = j ↔ age m = j - k := by omega
      simp only [hj, if_false, hiff]
      rfl

theorem shows_replicate_zero (n : ℕ) : Shows (List.replicate n (0 : M)) [] :=
  fun _ _ => ago_replicate_zero _ _

/-- Sliding makes the marks older. -/
theorem Shows.slide {cells : List M} {marks : List (Mark M)} (h : Shows cells marks)
    (periods places : ℕ) :
    Shows (slide^[places] cells) (marks.map (Mark.older periods places)) := by
  intro j hj
  rw [length_iterate_slide] at hj
  rw [ago_iterate_slide _ _ hj, sumAt_map_older Mark.shown _ _ places (fun _ => rfl)]
  by_cases hlt : j < places
  · rw [if_pos hlt, if_pos hlt]
  · rw [if_neg hlt, if_neg hlt, h _ (by omega)]

/-- A deposit is a new mark. -/
theorem Shows.deposit {cells : List M} {marks : List (Mark M)} (h : Shows cells marks)
    (hcells : 0 < cells.length) (m : M) : Shows (deposit m cells) (marks ++ [⟨0, 0, m⟩]) := by
  intro j hj
  rw [length_deposit] at hj
  rw [ago_deposit m hcells, sumAt_concat, h j hj, h 0 hcells]
  by_cases hj0 : j = 0
  · subst hj0
    simp
  · have hne : ¬ 0 = j := fun h0 => hj0 h0.symm
    simp [hj0, hne]

/-! ## 4. When a window that moves its marks too far is exact -/

/-- The marks of one age come to nothing exactly when none of them is anything. -/
theorem sumAt_eq_zero_iff [Subsingleton (AddUnits M)] (age : Mark M → ℕ) (marks : List (Mark M))
    (j : ℕ) : sumAt age marks j = 0 ↔ ∀ m ∈ marks, age m = j → m.amount = 0 := by
  induction marks using List.reverseRecOn with
  | nil => simp
  | append_singleton marks m ih =>
    rw [sumAt_concat, add_eq_zero, ih]
    by_cases hm : age m = j <;> simp [hm, or_imp, forall_and]

/-- **Exactness of late marks.**  A window whose older marks have all been moved too far shows the
right series exactly when every mark that counts is one of the current period or has left the
window. -/
theorem Shows.exact_iff [Subsingleton (AddUnits M)] {cells : List M} {marks : List (Mark M)}
    (h : Shows cells marks) (hlate : ∀ m ∈ marks, m.Late) :
    Exact cells marks ↔
      ∀ m ∈ marks, m.amount ≠ 0 → m.due = 0 ∨ cells.length ≤ m.due := by
  constructor
  · intro hexact
    -- by strong induction on the age: the youngest mark in the window is missed where it is due
    have hnone : ∀ d, 0 < d → d < cells.length → ∀ m ∈ marks, m.due = d → m.amount = 0 := by
      intro d
      induction d using Nat.strongRecOn with
      | ind d ih =>
        intro hpos hd
        have hshown : sumAt Mark.shown marks d = 0 := by
          rw [sumAt_eq_zero_iff]
          intro m hm hmd
          have hlt : 0 < m.due ∧ m.due < d := by
            obtain ⟨hzero, hmoved⟩ := hlate m hm
            rcases Nat.eq_zero_or_pos m.due with h0 | h0
            · have := hzero h0
              omega
            · have := hmoved h0
              omega
          exact ih m.due hlt.2 hlt.1 (Nat.lt_trans hlt.2 hd) m hm rfl
        have hdue : sumAt Mark.due marks d = 0 := by
          rw [← hexact d hd, h d hd, hshown]
        exact (sumAt_eq_zero_iff _ _ _).mp hdue
    intro m hm hamount
    by_contra hin
    rw [not_or, Nat.not_le] at hin
    exact hamount (hnone m.due (Nat.pos_of_ne_zero hin.1) hin.2 m hm rfl)
  · intro hout j hj
    rw [h j hj]
    -- a mark that counts has the same age both ways, or is in no cell either way
    have hagree : ∀ m ∈ marks, m.amount ≠ 0 → (m.shown = j ↔ m.due = j) := by
      intro m hm hamount
      obtain ⟨hzero, hmoved⟩ := hlate m hm
      rcases hout m hm hamount with h0 | hfar
      · rw [hzero h0, h0]
      · have := hmoved (by omega)
        omega
    clear h hlate hout hj
    induction marks using List.reverseRecOn with
    | nil => rfl
    | append_singleton marks m ih =>
      rw [sumAt_concat, sumAt_concat,
        ih (fun m' hm' => hagree m' (List.mem_append_left _ hm'))]
      congr 1
      by_cases hamount : m.amount = 0
      · simp [hamount]
      · simp only [hagree m (by simp) hamount]

end Window
