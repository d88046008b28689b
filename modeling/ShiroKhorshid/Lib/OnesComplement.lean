/-
# One's complement sums

A sum of words is folded by adding what has carried out of the word to what is in it, until nothing
carries.  With words below `b` this keeps the sum modulo `b - 1` and tells zero from the other
multiples of it, so that the folded sum is the representative from `1` to `b - 1`, or zero.

* A fold makes the sum smaller while it is too large (`fold_step_lt`) and keeps it modulo `b - 1`
  (`fold_step_modEq`); so the loop ends, and ends with a word (`foldLoop_spec`).
* A sum folds to zero only if it is zero (`fold_eq_zero_iff`), and to all ones exactly if it is
  another multiple of `b - 1` (`fold_eq_iff`).

A checksum is the complement of the folded sum, and a receiver can check it in two ways: by
computing it again, or by folding the sum with the checksum in it, which leaves all ones.  The two
agree but for a checksum of all ones (`eq_complement_iff`).

Sums are natural numbers.  A program that adds in words of its own has to see to it that they do not
overflow before the fold.
-/
import Mathlib.Data.Nat.ModEq
import Mathlib.Tactic.Ring

namespace OnesComplement

/-! ## 1. Folding -/

/-- At most `n` rounds of adding what carries. -/
def foldLoop (b : ℕ) : ℕ → ℕ → ℕ
  | 0, t => t
  | n + 1, t => if t / b = 0 then t else foldLoop b n (t % b + t / b)

/-- Adding what carries until nothing does; a sum has never to be folded as often as it is large. -/
def fold (b t : ℕ) : ℕ := foldLoop b t t

variable {b : ℕ}

theorem fold_step_lt (hb : 1 < b) {t : ℕ} (h : t / b ≠ 0) : t % b + t / b < t := by
  have hsplit := Nat.div_add_mod t b
  have hpos : 0 < t / b := Nat.pos_of_ne_zero h
  have hmul : 2 * (t / b) ≤ b * (t / b) := Nat.mul_le_mul_right _ hb
  omega

/-- What carries counts once more, that is `b - 1` too little. -/
theorem fold_step_modEq (hb : 1 < b) (t : ℕ) : t % b + t / b ≡ t [MOD b - 1] := by
  have hone : b ≡ 1 [MOD b - 1] := by
    have hsub : b = 1 + (b - 1) := by omega
    calc b = 1 + (b - 1) := hsub
      _ ≡ 1 [MOD b - 1] := by simp [Nat.ModEq]
  have hsplit := Nat.div_add_mod t b
  calc t % b + t / b = t % b + 1 * (t / b) := by rw [Nat.one_mul]
    _ ≡ t % b + b * (t / b) [MOD b - 1] := ((hone.symm.mul_right (t / b)).add_left (t % b))
    _ = t := by omega

theorem foldLoop_spec (hb : 1 < b) {n t : ℕ} (h : t ≤ n) :
    foldLoop b n t < b ∧ foldLoop b n t ≡ t [MOD b - 1] ∧ (foldLoop b n t = 0 ↔ t = 0) := by
  induction n generalizing t with
  | zero =>
    obtain rfl : t = 0 := by omega
    exact ⟨by rw [foldLoop]; omega, Nat.ModEq.refl _, Iff.rfl⟩
  | succ n ih =>
    rw [foldLoop]
    split
    · rename_i hlast
      have hlt : t < b := (Nat.div_eq_zero_iff_lt (by omega)).mp hlast
      exact ⟨hlt, Nat.ModEq.refl _, Iff.rfl⟩
    · rename_i hcarry
      have hless := fold_step_lt hb hcarry
      obtain ⟨hlt, hmod, hzero⟩ := ih (show t % b + t / b ≤ n by omega)
      refine ⟨hlt, hmod.trans (fold_step_modEq hb t), hzero.trans ?_⟩
      constructor
      · intro hsum
        exact absurd (Nat.add_eq_zero_iff.mp hsum).2 hcarry
      · rintro rfl
        simp at hcarry

theorem fold_lt (hb : 1 < b) (t : ℕ) : fold b t < b := (foldLoop_spec hb (le_refl t)).1

theorem fold_modEq (hb : 1 < b) (t : ℕ) : fold b t ≡ t [MOD b - 1] :=
  (foldLoop_spec hb (le_refl t)).2.1

theorem fold_eq_zero_iff (hb : 1 < b) (t : ℕ) : fold b t = 0 ↔ t = 0 :=
  (foldLoop_spec hb (le_refl t)).2.2

/-- A sum folds to all ones when it is a multiple of that, and not zero. -/
theorem fold_eq_iff (hb : 2 < b) (t : ℕ) : fold b t = b - 1 ↔ b - 1 ∣ t ∧ t ≠ 0 := by
  have hlt := fold_lt (by omega : 1 < b) t
  have hmod := fold_modEq (by omega : 1 < b) t
  have hzero := fold_eq_zero_iff (by omega : 1 < b) t
  constructor
  · intro h
    refine ⟨?_, fun ht => ?_⟩
    · rw [h] at hmod
      exact (Nat.modEq_zero_iff_dvd.mp (hmod.symm.trans (by simp [Nat.ModEq])))
    · have hnil := hzero.mpr ht
      omega
  · rintro ⟨hdvd, hne⟩
    have hfold : fold b t ≠ 0 := fun h => hne (hzero.mp h)
    have hdvd' : b - 1 ∣ fold b t :=
      Nat.modEq_zero_iff_dvd.mp (hmod.trans (Nat.modEq_zero_iff_dvd.mpr hdvd))
    have hle := Nat.le_of_dvd (Nat.pos_of_ne_zero hfold) hdvd'
    omega

/-! ## 2. Checksums -/

/-- **The two ways to check** a sum that is not zero: the checksum is the complement of the folded
sum exactly when the sum with it folds to all ones, and it is not all ones itself. -/
theorem eq_complement_iff (hb : 2 < b) {t c : ℕ} (ht : 0 < t) (hc : c ≤ b - 1) :
    c = b - 1 - fold b t ↔ fold b (t + c) = b - 1 ∧ c ≠ b - 1 := by
  have hlt := fold_lt (by omega : 1 < b) t
  have hmod := fold_modEq (by omega : 1 < b) t
  have hpos : fold b t ≠ 0 := fun h => by
    have hnil := (fold_eq_zero_iff (by omega : 1 < b) t).mp h
    omega
  rw [fold_eq_iff hb]
  have hsum : b - 1 ∣ t + c ↔ b - 1 ∣ fold b t + c :=
    ((hmod.add_right c).dvd_iff (dvd_refl _)).symm
  rw [hsum]
  constructor
  · rintro rfl
    have hall : fold b t + (b - 1 - fold b t) = b - 1 := by omega
    rw [hall]
    exact ⟨⟨dvd_refl _, by omega⟩, by omega⟩
  · rintro ⟨⟨⟨k, hk⟩, -⟩, hne⟩
    -- the sum of the two is between one and twice all ones
    have hk' : k = 1 := by
      have hlow : k ≠ 0 := by
        rintro rfl
        omega
      have hhigh : k < 2 := by
        by_contra hge
        have hmul : (b - 1) * 2 ≤ (b - 1) * k := Nat.mul_le_mul_left _ (by omega)
        omega
      omega
    rw [hk', Nat.mul_one] at hk
    omega

end OnesComplement
