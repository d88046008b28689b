/-
# Dyadic blocks, and cutting an interval out of them

A dyadic block is a run of `2 ^ log` consecutive numbers that starts at a multiple of its own
length: the shape of a CIDR block, of a buddy-allocator chunk, of a node of a binary trie.
This module is about such blocks alone and knows no program.

The one operation is `carve`: what is left of a block when an interval is cut out of it, as a
list of blocks, found by halving until every half is either clear of the interval or inside
it.  Three facts are proved, each by the recursion of `carve`:

* it is EXACT (`cover_carve`): the list covers the block minus the interval and nothing else;
* it is ORDERED (`carve_ascending`): its blocks come in ascending order and do not overlap;
* it stays INSIDE (`carve_within`): every piece lies in the block that was cut.

`carveAll` cuts the same interval out of every block of a list, and the same three facts hold
of it, so they hold of any number of cuts one after another.
-/
import Mathlib.Data.Set.Basic
import Mathlib.Data.Nat.Init
import Mathlib.Algebra.Order.Ring.Nat
import Mathlib.Tactic.Ring

namespace Dyadic

/-! ## 1. Blocks -/

/-- A dyadic block: `2 ^ log` numbers from a multiple of `2 ^ log`. -/
structure Block where
  base : ℕ
  log : ℕ
  aligned : 2 ^ log ∣ base

/-- The length of a block. -/
def Block.size (B : Block) : ℕ := 2 ^ B.log

/-- The first number after a block. -/
def Block.stop (B : Block) : ℕ := B.base + B.size

instance : Membership ℕ Block := ⟨fun B x => B.base ≤ x ∧ x < B.stop⟩

theorem mem_block_iff {B : Block} {x : ℕ} : x ∈ B ↔ B.base ≤ x ∧ x < B.stop := Iff.rfl

theorem Block.size_pos (B : Block) : 0 < B.size := Nat.two_pow_pos _

/-- The lower half of a block of positive log starts where the block does. -/
theorem left_aligned {k b : ℕ} (h : 2 ^ (k + 1) ∣ b) : 2 ^ k ∣ b :=
  (pow_dvd_pow 2 (Nat.le_succ k)).trans h

/-- The upper half starts one half-length later, at a multiple of that length. -/
theorem right_aligned {k b : ℕ} (h : 2 ^ (k + 1) ∣ b) : 2 ^ k ∣ b + 2 ^ k :=
  Nat.dvd_add (left_aligned h) (Nat.dvd_refl _)

/-- The set a list of blocks covers. -/
def cover (Bs : List Block) : Set ℕ := {x | ∃ B ∈ Bs, x ∈ B}

@[simp] theorem mem_cover {Bs : List Block} {x : ℕ} : x ∈ cover Bs ↔ ∃ B ∈ Bs, x ∈ B := Iff.rfl

@[simp] theorem cover_nil : cover [] = ∅ := by
  ext x; simp

@[simp] theorem cover_append (Bs Cs : List Block) :
    cover (Bs ++ Cs) = cover Bs ∪ cover Cs := by
  ext x
  simp only [mem_cover, List.mem_append, Set.mem_union]
  constructor
  · rintro ⟨B, hB | hB, hx⟩
    · exact Or.inl ⟨B, hB, hx⟩
    · exact Or.inr ⟨B, hB, hx⟩
  · rintro (⟨B, hB, hx⟩ | ⟨B, hB, hx⟩)
    · exact ⟨B, Or.inl hB, hx⟩
    · exact ⟨B, Or.inr hB, hx⟩

@[simp] theorem cover_singleton (B : Block) : cover [B] = {x | x ∈ B} := by
  ext x; simp

theorem cover_cons (B : Block) (Bs : List Block) :
    cover (B :: Bs) = {x | x ∈ B} ∪ cover Bs := by
  rw [← List.singleton_append, cover_append, cover_singleton]

/-- Ascending order: each block ends before the next ones start.  It is what makes a list of
blocks both sorted and free of overlap. -/
def Ascending (Bs : List Block) : Prop := Bs.Pairwise (fun B C => B.stop ≤ C.base)

/-- Blocks in ascending order share no number. -/
theorem Ascending.disjoint {Bs : List Block} (h : Ascending Bs) :
    Bs.Pairwise (fun B C => ∀ x, x ∈ B → x ∉ C) := by
  refine h.imp ?_
  intro B C hBC x hB hC
  have h1 := (mem_block_iff.mp hB).2
  have h2 := (mem_block_iff.mp hC).1
  omega

/-! ## 2. Cutting an interval out of one block -/

/-- What is left of the block of log `k` at `b` when the numbers `s, …, e` are cut out of it:
the block itself when they miss it, nothing when they contain it, and otherwise what is left
of its two halves.  A block of one number never reaches the third case. -/
def carve (s e : ℕ) : (k b : ℕ) → 2 ^ k ∣ b → List Block
  | 0, b, h =>
    if b + 2 ^ 0 - 1 < s ∨ e < b then [⟨b, 0, h⟩] else []
  | k + 1, b, h =>
    if b + 2 ^ (k + 1) - 1 < s ∨ e < b then [⟨b, k + 1, h⟩]
    else if s ≤ b ∧ b + 2 ^ (k + 1) - 1 ≤ e then []
    else carve s e k b (left_aligned h) ++ carve s e k (b + 2 ^ k) (right_aligned h)

/-- An interval that misses the block leaves it whole. -/
theorem carve_of_disjoint {s e k b : ℕ} (h : 2 ^ k ∣ b) (hd : b + 2 ^ k - 1 < s ∨ e < b) :
    carve s e k b h = [⟨b, k, h⟩] := by
  cases k with
  | zero => rw [carve, if_pos hd]
  | succ k => rw [carve, if_pos hd]

/-- An interval that contains the block leaves nothing of it. -/
theorem carve_of_covered {s e k b : ℕ} (h : 2 ^ k ∣ b) (hc : s ≤ b ∧ b + 2 ^ k - 1 ≤ e) :
    carve s e k b h = [] := by
  have hpos : 0 < 2 ^ k := Nat.two_pow_pos k
  have hnd : ¬ (b + 2 ^ k - 1 < s ∨ e < b) := by omega
  cases k with
  | zero => rw [carve, if_neg hnd]
  | succ k => rw [carve, if_neg hnd, if_pos hc]

/-- An interval that overlaps a block of log `k + 1` in part leaves what it leaves of the two
halves. -/
theorem carve_of_meets {s e k b : ℕ} (h : 2 ^ (k + 1) ∣ b)
    (hd : ¬ (b + 2 ^ (k + 1) - 1 < s ∨ e < b)) (hc : ¬ (s ≤ b ∧ b + 2 ^ (k + 1) - 1 ≤ e)) :
    carve s e (k + 1) b h
      = carve s e k b (left_aligned h) ++ carve s e k (b + 2 ^ k) (right_aligned h) := by
  rw [carve, if_neg hd, if_neg hc]

/-- **A one-number block is never cut in part.**  An interval that meets it contains it. -/
theorem covered_of_meets_zero {s e b : ℕ} (hd : ¬ (b + 2 ^ 0 - 1 < s ∨ e < b)) :
    s ≤ b ∧ b + 2 ^ 0 - 1 ≤ e := by
  simp only [pow_zero] at hd ⊢
  omega

/-- **Induction on a cut.**  A block that is missed stays, one that is contained goes, and any other
is cut in its halves. -/
@[elab_as_elim]
theorem carve_induction {s e : ℕ} {motive : (k b : ℕ) → 2 ^ k ∣ b → List Block → Prop}
    (disjoint : ∀ k b h, b + 2 ^ k - 1 < s ∨ e < b → motive k b h [⟨b, k, h⟩])
    (covered : ∀ k b h, s ≤ b ∧ b + 2 ^ k - 1 ≤ e → motive k b h [])
    (halves : ∀ k b h, ¬ (b + 2 ^ (k + 1) - 1 < s ∨ e < b) →
      ¬ (s ≤ b ∧ b + 2 ^ (k + 1) - 1 ≤ e) →
      motive k b (left_aligned h) (carve s e k b (left_aligned h)) →
      motive k (b + 2 ^ k) (right_aligned h) (carve s e k (b + 2 ^ k) (right_aligned h)) →
      motive (k + 1) b h
        (carve s e k b (left_aligned h) ++ carve s e k (b + 2 ^ k) (right_aligned h)))
    (k b : ℕ) (h : 2 ^ k ∣ b) : motive k b h (carve s e k b h) := by
  induction k generalizing b with
  | zero =>
    by_cases hd : b + 2 ^ 0 - 1 < s ∨ e < b
    · rw [carve_of_disjoint h hd]
      exact disjoint 0 b h hd
    · have hc := covered_of_meets_zero hd
      rw [carve_of_covered h hc]
      exact covered 0 b h hc
  | succ k ih =>
    by_cases hd : b + 2 ^ (k + 1) - 1 < s ∨ e < b
    · rw [carve_of_disjoint h hd]
      exact disjoint (k + 1) b h hd
    · by_cases hc : s ≤ b ∧ b + 2 ^ (k + 1) - 1 ≤ e
      · rw [carve_of_covered h hc]
        exact covered (k + 1) b h hc
      · rw [carve_of_meets h hd hc]
        exact halves k b h hd hc (ih b _) (ih (b + 2 ^ k) _)

/-- **Carving is exact.**  What is left covers the block minus the interval. -/
theorem cover_carve (s e k b : ℕ) (h : 2 ^ k ∣ b) :
    cover (carve s e k b h) = {x | x ∈ (⟨b, k, h⟩ : Block) ∧ ¬ (s ≤ x ∧ x ≤ e)} := by
  refine carve_induction ?disjoint ?covered ?halves k b h
  case disjoint =>
    intro k b h hd
    have hpos : 0 < 2 ^ k := Nat.two_pow_pos k
    rw [cover_singleton]
    ext x
    simp only [Set.mem_ofPred_eq, mem_block_iff, Block.stop, Block.size]
    omega
  case covered =>
    intro k b h hc
    have hpos : 0 < 2 ^ k := Nat.two_pow_pos k
    rw [cover_nil]
    ext x
    simp only [Set.mem_ofPred_eq, Set.mem_empty_iff_false, false_iff, mem_block_iff, Block.stop,
      Block.size]
    omega
  case halves =>
    -- the two halves tile the block, and each is exact by induction
    intro k b h _ _ hleft hright
    have hsum : 2 ^ (k + 1) = 2 ^ k + 2 ^ k := by ring
    rw [cover_append, hleft, hright]
    ext x
    simp only [Set.mem_union, Set.mem_ofPred_eq, mem_block_iff, Block.stop, Block.size]
    omega

/-- **Carving stays inside.**  Every piece lies in the block that was cut, and is no longer
than it. -/
theorem carve_within (s e k b : ℕ) (h : 2 ^ k ∣ b) :
    ∀ C ∈ carve s e k b h, b ≤ C.base ∧ C.stop ≤ b + 2 ^ k ∧ C.log ≤ k := by
  refine carve_induction ?disjoint ?covered ?halves k b h
  case disjoint =>
    intro k b h _ C hC
    obtain rfl := List.mem_singleton.mp hC
    exact ⟨Nat.le_refl _, Nat.le_refl _, Nat.le_refl _⟩
  case covered =>
    intro k b h _ C hC
    exact absurd hC List.not_mem_nil
  case halves =>
    intro k b h _ _ hleft hright C hC
    have hsum : 2 ^ (k + 1) = 2 ^ k + 2 ^ k := by ring
    rcases List.mem_append.mp hC with hC | hC
    · obtain ⟨h1, h2, h3⟩ := hleft C hC
      exact ⟨h1, by omega, by omega⟩
    · obtain ⟨h1, h2, h3⟩ := hright C hC
      exact ⟨by omega, by omega, by omega⟩

/-- **Carving is ordered.**  The pieces come in ascending order and do not overlap. -/
theorem carve_ascending (s e k b : ℕ) (h : 2 ^ k ∣ b) : Ascending (carve s e k b h) := by
  refine carve_induction ?disjoint ?covered ?halves k b h
  case disjoint => exact fun k b h _ => List.pairwise_singleton _ _
  case covered => exact fun k b h _ => List.Pairwise.nil
  case halves =>
    intro k b h _ _ hleft hright
    refine List.pairwise_append.mpr ⟨hleft, hright, ?_⟩
    intro C hC D hD
    have h1 := (carve_within s e k b (left_aligned h) C hC).2.1
    have h2 := (carve_within s e k (b + 2 ^ k) (right_aligned h) D hD).1
    omega

/-! ## 3. Cutting the same interval out of a list of blocks -/

/-- `carve` with the block packed up. -/
def Block.carve (B : Block) (s e : ℕ) : List Block := Dyadic.carve s e B.log B.base B.aligned

/-- What is left of a list of blocks when `s, …, e` is cut out of each of them. -/
def carveAll (Bs : List Block) (s e : ℕ) : List Block := Bs.flatMap (fun B => B.carve s e)

theorem Block.carve_within {B C : Block} {s e : ℕ} (h : C ∈ B.carve s e) :
    B.base ≤ C.base ∧ C.stop ≤ B.stop ∧ C.log ≤ B.log :=
  Dyadic.carve_within s e B.log B.base B.aligned C h

/-- **Cutting a list is exact.** -/
theorem cover_carveAll (Bs : List Block) (s e : ℕ) :
    cover (carveAll Bs s e) = {x | x ∈ cover Bs ∧ ¬ (s ≤ x ∧ x ≤ e)} := by
  induction Bs with
  | nil => ext x; simp [carveAll]
  | cons B Bs ih =>
    have hB : cover (B.carve s e) = {x | x ∈ B ∧ ¬ (s ≤ x ∧ x ≤ e)} :=
      cover_carve s e B.log B.base B.aligned
    rw [carveAll, List.flatMap_cons, cover_append, hB]
    rw [carveAll] at ih
    rw [ih, cover_cons]
    ext x
    simp only [Set.mem_union, Set.mem_ofPred_eq]
    tauto

/-- **Cutting a list keeps its order.** -/
theorem carveAll_ascending {Bs : List Block} (h : Ascending Bs) (s e : ℕ) :
    Ascending (carveAll Bs s e) := by
  induction Bs with
  | nil => exact List.Pairwise.nil
  | cons B Bs ih =>
    obtain ⟨hB, hBs⟩ := List.pairwise_cons.mp h
    rw [carveAll, List.flatMap_cons]
    refine List.pairwise_append.mpr ⟨carve_ascending s e _ _ _, ih hBs, ?_⟩
    intro C hC D hD
    obtain ⟨B', hB', hD'⟩ := List.mem_flatMap.mp hD
    have h1 := (Block.carve_within hC).2.1
    have h2 := (Block.carve_within hD').1
    have h3 := hB B' hB'
    omega

/-- Whatever bounds the blocks of a list from above bounds what is left of them. -/
theorem carveAll_stop_le {Bs : List Block} {n s e : ℕ} (h : ∀ B ∈ Bs, B.stop ≤ n) :
    ∀ C ∈ carveAll Bs s e, C.stop ≤ n := by
  intro C hC
  obtain ⟨B, hB, hC'⟩ := List.mem_flatMap.mp hC
  exact (Block.carve_within hC').2.1.trans (h B hB)

end Dyadic
