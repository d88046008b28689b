/-
# The maximal blocks of a set

A set of numbers may be covered by dyadic blocks in many ways.  One of them is canonical: the
blocks that lie in the set and in no larger block that does.  Two blocks with a common number are
nested, so the maximal blocks are disjoint, and in ascending order there is one list of them.

* **Nesting** (`Block.nested`): of two blocks that share a number the longer holds the shorter,
  since its length is a multiple of the other's.  Of one length there is one block with a number in
  it (`Block.eq_of_log`).
* **One list** (`Canonical.unique`): a canonical list has exactly the maximal blocks of its set, and
  two ascending lists with the same members are the same.
* **Cuts** (`Canonical.carveAll`): cutting an interval out of the maximal blocks of a set leaves the
  maximal blocks of what is left.  By the induction principle of `carve`: a block that is halved is
  no longer in what is left, so a maximal block of the rest lies in one of the halves.

Cuts can then be made in any order: the result depends on the set alone.
-/
import ShiroKhorshid.Lib.Dyadic

namespace Dyadic

/-! ## 1. Blocks are nested or disjoint -/

theorem Block.eq_of_base_of_log {B C : Block} (hbase : B.base = C.base) (hlog : B.log = C.log) :
    B = C := by
  cases B
  cases C
  cases hbase
  cases hlog
  rfl

/-- A block begins and ends at multiples of the length of any shorter block. -/
theorem Block.dvd_of_log_le {B C : Block} (h : B.log ≤ C.log) :
    B.size ∣ C.base ∧ B.size ∣ C.stop := by
  have hsize : B.size ∣ C.size := Nat.pow_dvd_pow 2 h
  have hbase : B.size ∣ C.base := Nat.dvd_trans hsize C.aligned
  exact ⟨hbase, Nat.dvd_add hbase hsize⟩

/-- **Nesting.**  Of two blocks with a common number, the longer contains the shorter. -/
theorem Block.nested {B C : Block} {x : ℕ} (hlog : B.log ≤ C.log) (hB : x ∈ B) (hC : x ∈ C) :
    C.base ≤ B.base ∧ B.stop ≤ C.stop := by
  obtain ⟨hB, hB'⟩ := mem_block_iff.mp hB
  obtain ⟨hC, hC'⟩ := mem_block_iff.mp hC
  have hpos := B.size_pos
  obtain ⟨⟨c, hc⟩, c', hc'⟩ := Block.dvd_of_log_le hlog
  obtain ⟨b, hb⟩ := B.aligned
  have hb : B.base = B.size * b := hb
  have hstop : B.stop = B.size * (b + 1) := by rw [Block.stop, hb, Nat.mul_succ]
  -- in units of the shorter block
  have hlower : c < b + 1 := by
    refine Nat.lt_of_mul_lt_mul_left (a := B.size) ?_
    rw [← hc, ← hstop]
    exact Nat.lt_of_le_of_lt hC hB'
  have hupper : b < c' := by
    refine Nat.lt_of_mul_lt_mul_left (a := B.size) ?_
    rw [← hc', ← hb]
    exact Nat.lt_of_le_of_lt hB hC'
  constructor
  · rw [hc, hb]
    exact Nat.mul_le_mul_left _ (Nat.le_of_lt_succ hlower)
  · rw [hc', hstop]
    exact Nat.mul_le_mul_left _ hupper

theorem Block.base_mem (B : Block) : B.base ∈ B :=
  mem_block_iff.mpr ⟨Nat.le_refl _, Nat.lt_add_of_pos_right B.size_pos⟩

/-- A block that contains another is no shorter. -/
theorem Block.log_le_of_subset {B C : Block} (h : ∀ x ∈ B, x ∈ C) : B.log ≤ C.log := by
  rcases Nat.le_total B.log C.log with hle | hle
  · exact hle
  · obtain ⟨hbase, hstop⟩ := Block.nested hle (h _ B.base_mem) B.base_mem
    have hsize : B.size ≤ C.size := by
      have hlast := (mem_block_iff.mp (h (B.stop - 1) (mem_block_iff.mpr (by
        have := B.size_pos
        unfold Block.stop
        omega)))).2
      have hfirst := (mem_block_iff.mp (h _ B.base_mem)).1
      have hpos := B.size_pos
      unfold Block.stop at hlast
      omega
    exact (Nat.pow_le_pow_iff_right (by decide)).mp hsize

/-- Two blocks of one length with a common number are the same. -/
theorem Block.eq_of_log {B C : Block} {x : ℕ} (hlog : B.log = C.log) (hB : x ∈ B) (hC : x ∈ C) :
    B = C := by
  have hle := (Block.nested (Nat.le_of_eq hlog) hB hC).1
  have hge := (Block.nested (Nat.le_of_eq hlog.symm) hC hB).1
  exact Block.eq_of_base_of_log (Nat.le_antisymm hge hle) hlog

theorem Block.subset_of_nested {B C : Block} {x : ℕ} (hlog : B.log ≤ C.log) (hB : x ∈ B)
    (hC : x ∈ C) : ∀ y ∈ B, y ∈ C := by
  intro y hy
  obtain ⟨hbase, hstop⟩ := Block.nested hlog hB hC
  obtain ⟨hy, hy'⟩ := mem_block_iff.mp hy
  exact mem_block_iff.mpr ⟨Nat.le_trans hbase hy, Nat.lt_of_lt_of_le hy' hstop⟩

/-! ## 2. Maximal blocks -/

def Block.Within (B : Block) (U : Set ℕ) : Prop := ∀ x ∈ B, x ∈ U

/-- A block in the set that lies in no other block in the set. -/
structure IsMaximal (U : Set ℕ) (B : Block) : Prop where
  within : B.Within U
  maximal : ∀ C : Block, (∀ x ∈ B, x ∈ C) → C.Within U → C = B

/-- The maximal blocks of a set, in ascending order. -/
structure Canonical (U : Set ℕ) (Bs : List Block) : Prop where
  ascending : Ascending Bs
  cover_eq : cover Bs = U
  isMaximal : ∀ B ∈ Bs, IsMaximal U B

/-- They are all there. -/
theorem Canonical.mem_iff {U : Set ℕ} {Bs : List Block} (h : Canonical U Bs) (B : Block) :
    B ∈ Bs ↔ IsMaximal U B := by
  constructor
  · exact h.isMaximal B
  · intro hB
    -- the block of the list with the first number of `B`
    have hbase : B.base ∈ cover Bs := h.cover_eq ▸ hB.within _ B.base_mem
    obtain ⟨C, hC, hmem⟩ := mem_cover.mp hbase
    have hmaximal := h.isMaximal C hC
    rcases Nat.le_total B.log C.log with hle | hle
    · have heq := hB.maximal C (Block.subset_of_nested hle B.base_mem hmem) hmaximal.within
      exact heq ▸ hC
    · have heq := hmaximal.maximal B (Block.subset_of_nested hle hmem B.base_mem) hB.within
      exact heq ▸ hC

theorem Ascending.nodup {Bs : List Block} (h : Ascending Bs) : Bs.Nodup := by
  refine h.imp ?_
  rintro B C hBC rfl
  have hpos := B.size_pos
  unfold Block.stop at hBC
  omega

/-- **One list.**  The set determines the list. -/
theorem Canonical.unique {U : Set ℕ} {Bs Cs : List Block} (hB : Canonical U Bs)
    (hC : Canonical U Cs) : Bs = Cs := by
  have hperm : Bs.Perm Cs :=
    (List.perm_ext_iff_of_nodup hB.ascending.nodup hC.ascending.nodup).mpr
      fun B => (hB.mem_iff B).trans (hC.mem_iff B).symm
  refine hperm.eq_of_pairwise ?_ hB.ascending hC.ascending
  intro B C _ _ hBC hCB
  have hpos := B.size_pos
  have hpos' := C.size_pos
  unfold Block.stop at hBC hCB
  omega

/-! ## 3. Cuts -/

/-- A piece is the block that was cut, or it is half of a block that meets the interval, as long
as the interval is not empty. -/
theorem carve_half {s e : ℕ} (hse : s ≤ e) (k b : ℕ) (h : 2 ^ k ∣ b) :
    ∀ C ∈ carve s e k b h, C = ⟨b, k, h⟩ ∨ ∃ D : Block, D.log = C.log + 1 ∧ (∀ x ∈ C, x ∈ D) ∧
      ∃ x ∈ D, s ≤ x ∧ x ≤ e := by
  refine carve_induction ?disjoint ?covered ?halves k b h
  case disjoint => exact fun k b h _ C hC => Or.inl (List.mem_singleton.mp hC)
  case covered => exact fun k b h _ C hC => absurd hC List.not_mem_nil
  case halves =>
    intro k b h hd hc hleft hright C hC
    right
    have hsum : 2 ^ (k + 1) = 2 ^ k + 2 ^ k := by ring
    have hpos : 0 < 2 ^ k := Nat.two_pow_pos k
    -- the block that is halved meets the interval, at `s` or at its own beginning
    have hmeets : ∃ x ∈ (⟨b, k + 1, h⟩ : Block), s ≤ x ∧ x ≤ e := by
      refine ⟨max s b, mem_block_iff.mpr ?_, ?_⟩
      · simp only [Block.stop, Block.size]
        omega
      · omega
    rcases List.mem_append.mp hC with hC | hC
    · rcases hleft C hC with rfl | hhalf
      · refine ⟨⟨b, k + 1, h⟩, rfl, ?_, hmeets⟩
        intro x hx
        rw [mem_block_iff] at hx ⊢
        simp only [Block.stop, Block.size] at hx ⊢
        omega
      · exact hhalf
    · rcases hright C hC with rfl | hhalf
      · refine ⟨⟨b, k + 1, h⟩, rfl, ?_, hmeets⟩
        intro x hx
        rw [mem_block_iff] at hx ⊢
        simp only [Block.stop, Block.size] at hx ⊢
        omega
      · exact hhalf

/-- **Cutting keeps the list canonical.** -/
theorem Canonical.carveAll {U : Set ℕ} {Bs : List Block} {s e : ℕ} (h : Canonical U Bs)
    (hse : s ≤ e) :
    Canonical {x | x ∈ U ∧ ¬ (s ≤ x ∧ x ≤ e)} (carveAll Bs s e) := by
  have hcover : cover (Dyadic.carveAll Bs s e) = {x | x ∈ U ∧ ¬ (s ≤ x ∧ x ≤ e)} := by
    rw [cover_carveAll, h.cover_eq]
  refine ⟨carveAll_ascending h.ascending s e, hcover, ?_⟩
  intro C hC
  refine ⟨?_, ?_⟩
  · intro x hx
    rw [← hcover]
    exact mem_cover.mpr ⟨C, hC, hx⟩
  · intro E hE hwithin
    obtain ⟨B, hB, hC⟩ := List.mem_flatMap.mp hC
    rcases carve_half hse B.log B.base B.aligned C hC with rfl | ⟨D, hlog, hD, x, hx, hcut⟩
    · -- an untouched block was maximal before
      exact (h.isMaximal B hB).maximal E hE fun x hx => (hwithin x hx).1
    · rcases Nat.eq_or_lt_of_le (Block.log_le_of_subset hE) with heq | hlt
      · exact (Block.eq_of_log heq C.base_mem (hE _ C.base_mem)).symm
      · -- a larger block contains the one that was halved
        have hle : D.log ≤ E.log := by omega
        have hsub := Block.subset_of_nested hle (hD _ C.base_mem) (hE _ C.base_mem)
        exact absurd hcut (hwithin x (hsub x hx)).2

end Dyadic
