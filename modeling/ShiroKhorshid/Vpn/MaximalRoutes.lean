/-
# The order of the subtractions does not matter

`applyVpnRoutes` subtracts the LAN ranges and then the bypassed routes, in the order in which the
sources list them.  Lists of routes on the way depend on this order, the last one does not: it
holds the maximal blocks of the complement of what was subtracted, in ascending order, and no set
has two such lists (`Dyadic.Canonical`).

* A route is `Aligned` where its base is masked, and `Maximal` for a list of blocks where it is
  aligned, free of all of them, and no larger aligned route that holds it is.
* Aligned routes are the blocks of the address space and nothing else (`Aligned.exists_block`,
  `ofBlock_injective`), so that maximality can be said of routes and proved of blocks.
* What remains after one more subtraction is the list of the maximal blocks of the smaller
  complement (`remaining_canonical`, by induction on the subtractions), whatever came before.

`subtractAll_canonical` says it in terms of routes: the list is the same for every order; it
ascends; it has exactly the maximal routes; and so no two of them make up a larger one.

Repetitions and overlaps among the blocks are allowed.  It is about the routes below API 33 only:
from API 33 on the exclusions are the system's to apply.
-/
import ShiroKhorshid.Lib.Maximal
import ShiroKhorshid.Vpn.Cidr

namespace ShiroKhorshid.Vpn

open Dyadic

/-! ## 1. Maximal routes -/

/-- The route is written with the first address of its block. -/
structure Route.Aligned (r : Route) : Prop where
  prefixOk : r.PrefixOk
  masked : blockStartOf r.ip r.prefixLength = r.ip

/-- No address of the route is excluded. -/
def Route.Free (blocks : List Route) (r : Route) : Prop :=
  ∀ a : BitVec 32, r.Covers a → ∀ b ∈ blocks, ¬ b.Covers a

/-- An aligned block free of what is excluded, and in no other such block. -/
structure Route.Maximal (blocks : List Route) (r : Route) : Prop where
  aligned : r.Aligned
  free : r.Free blocks
  maximal : ∀ r' : Route, r'.Aligned → (∀ a, r.Covers a → r'.Covers a) → r'.Free blocks → r' = r

/-! ## 2. They are blocks -/

theorem aligned_ofBlock {B : Block} (h : InSpace B) : (Route.ofBlock B).Aligned := by
  have hlog := h.log_le
  refine ⟨⟨?_, ?_⟩, blockStartOf_ofBlock h⟩
  · simp only [Route.ofBlock]
    omega
  · simp only [Route.ofBlock]
    omega

theorem ofBlock_injective {B C : Block} (hB : InSpace B) (hC : InSpace C)
    (h : Route.ofBlock B = Route.ofBlock C) : B = C := by
  have hbase := hB.base_lt
  have hbase' := hC.base_lt
  obtain ⟨hip, hprefix⟩ := Route.mk.inj h
  have hip : (BitVec.ofNat 64 B.base).toNat = (BitVec.ofNat 64 C.base).toNat :=
    congrArg BitVec.toNat hip
  rw [BitVec.toNat_ofNat, BitVec.toNat_ofNat, Nat.mod_eq_of_lt (by omega),
    Nat.mod_eq_of_lt (by omega)] at hip
  exact Block.eq_of_base_of_log hip (by omega)

/-- Every aligned route is the route of a block. -/
theorem Route.Aligned.exists_block {r : Route} (h : r.Aligned) :
    ∃ B, InSpace B ∧ Route.ofBlock B = r := by
  obtain ⟨n, hn, hle⟩ := h.prefixOk.exists_nat
  have hstart : (blockStartOf r.ip n).toNat = r.ip.toNat := by rw [← hn, h.masked]
  have hend := blockEndOf_lt hle r.ip
  have hpos := Nat.two_pow_pos (32 - n)
  rw [blockEndOf_toNat hle, hstart] at hend
  have haligned : 2 ^ (32 - n) ∣ r.ip.toNat := by
    rw [← hstart, blockStartOf_toNat hle]
    exact Nat.dvd_mul_left _ _
  refine ⟨⟨r.ip.toNat, 32 - n, haligned⟩, ?_, ?_⟩
  · simp only [InSpace, Block.stop, Block.size]
    omega
  · obtain ⟨ip, prefixLength⟩ := r
    simp only [Route.ofBlock, BitVec.ofNat_toNat, BitVec.setWidth_eq, Route.mk.injEq, true_and]
    simp only at hn
    omega

/-- One route covers another as one block contains the other. -/
theorem covers_ofBlock_iff {B C : Block} (hB : InSpace B) (hC : InSpace C) :
    (∀ a, (Route.ofBlock B).Covers a → (Route.ofBlock C).Covers a) ↔ ∀ x ∈ B, x ∈ C := by
  constructor
  · intro h x hx
    have hlt : x < 2 ^ 32 := Nat.lt_of_lt_of_le (mem_block_iff.mp hx).2 hB
    have hnat : (BitVec.ofNat 32 x).toNat = x := by
      rw [BitVec.toNat_ofNat, Nat.mod_eq_of_lt hlt]
    have hcovers := h (BitVec.ofNat 32 x)
    rw [covers_ofBlock hB, covers_ofBlock hC, hnat] at hcovers
    exact hcovers hx
  · intro h a
    rw [covers_ofBlock hB, covers_ofBlock hC]
    exact h _

/-! ## 3. The complement -/

/-- The addresses that are not excluded. -/
def complement (blocks : List Route) : Set ℕ :=
  {x | x < 2 ^ 32 ∧ ∀ b ∈ blocks, ¬ ((blockStartOf b.ip b.prefixLength).toNat ≤ x ∧
    x ≤ (blockEndOf b.ip b.prefixLength).toNat)}

/-- A block of addresses is a block of the address space. -/
theorem inSpace_of_within {B : Block} {blocks : List Route} (h : B.Within (complement blocks)) :
    InSpace B := by
  have hpos := B.size_pos
  have hlast := (h (B.stop - 1) (mem_block_iff.mpr (by unfold Block.stop; omega))).1
  unfold InSpace
  omega

theorem within_complement_iff {B : Block} {blocks : List Route} (hB : InSpace B)
    (h : ∀ b ∈ blocks, b.PrefixOk) :
    B.Within (complement blocks) ↔ (Route.ofBlock B).Free blocks := by
  constructor
  · intro hwithin a ha b hb hcovers
    exact (hwithin _ ((covers_ofBlock hB a).mp ha)).2 b hb ((covers_iff (h b hb) a).mp hcovers)
  · intro hfree x hx
    have hlt : x < 2 ^ 32 := Nat.lt_of_lt_of_le (mem_block_iff.mp hx).2 hB
    have hnat : (BitVec.ofNat 32 x).toNat = x := by
      rw [BitVec.toNat_ofNat, Nat.mod_eq_of_lt hlt]
    refine ⟨hlt, fun b hb hin => ?_⟩
    have hcovers : (Route.ofBlock B).Covers (BitVec.ofNat 32 x) := by
      rw [covers_ofBlock hB, hnat]
      exact hx
    refine hfree _ hcovers b hb ?_
    rw [covers_iff (h b hb), hnat]
    exact hin

theorem blockStartOf_le_blockEndOf (ip : BitVec 64) (n : ℤ) :
    (blockStartOf ip n).toNat ≤ (blockEndOf ip n).toNat := by
  rw [blockEndOf, BitVec.toNat_or]
  exact Nat.left_le_or

theorem canonical_space : Canonical (complement []) [space] := by
  have hspace : ∀ x, x ∈ space ↔ x < 2 ^ 32 := by
    intro x
    rw [mem_block_iff]
    simp only [space, Block.stop, Block.size]
    omega
  refine ⟨List.pairwise_singleton _ _, ?_, ?_⟩
  · ext x
    rw [cover_singleton]
    simp only [complement, Set.mem_ofPred_eq, hspace]
    exact ⟨fun hx => ⟨hx, fun b hb => absurd hb List.not_mem_nil⟩, And.left⟩
  · intro B hB
    obtain rfl := List.mem_singleton.mp hB
    refine ⟨fun x hx => ⟨(hspace x).mp hx, fun b hb => absurd hb List.not_mem_nil⟩, ?_⟩
    intro C hC hwithin
    have hlog : space.log ≤ C.log := Block.log_le_of_subset hC
    have hlog' := (inSpace_of_within hwithin).log_le
    refine (Block.eq_of_log ?_ space.base_mem (hC _ space.base_mem)).symm
    exact Nat.le_antisymm hlog hlog'

/-- **The remaining blocks are the maximal blocks of the complement**, by induction on the
subtractions. -/
theorem remaining_canonical (blocks : List Route) :
    Canonical (complement blocks) (remaining blocks) := by
  induction blocks using List.reverseRecOn with
  | nil => exact canonical_space
  | append_singleton blocks b ih =>
    rw [remaining_append_singleton]
    have hcut := ih.carveAll (blockStartOf_le_blockEndOf b.ip b.prefixLength)
    refine (?_ : complement (blocks ++ [b]) = _) ▸ hcut
    ext x
    simp only [complement, Set.mem_ofPred_eq, List.mem_append, List.mem_singleton]
    constructor
    · rintro ⟨hlt, hall⟩
      exact ⟨⟨hlt, fun c hc => hall c (Or.inl hc)⟩, hall b (Or.inr rfl)⟩
    · rintro ⟨⟨hlt, hall⟩, hlast⟩
      refine ⟨hlt, ?_⟩
      rintro c (hc | rfl)
      · exact hall c hc
      · exact hlast

theorem remaining_perm {blocks blocks' : List Route} (h : blocks'.Perm blocks) :
    remaining blocks' = remaining blocks := by
  refine (remaining_canonical blocks').unique ?_
  have hsame : complement blocks' = complement blocks := by
    ext x
    simp only [complement, Set.mem_ofPred_eq, h.mem_iff]
  rw [hsame]
  exact remaining_canonical blocks

/-! ## 4. The routes -/

theorem mem_subtractAll_iff {blocks : List Route} (h : ∀ b ∈ blocks, b.PrefixOk) (r : Route) :
    r ∈ subtractAll blocks ↔ r.Maximal blocks := by
  have hcanonical := remaining_canonical blocks
  rw [subtractAll_eq h, List.mem_map]
  constructor
  · rintro ⟨B, hB, rfl⟩
    have hin := remaining_inSpace blocks B hB
    have hmaximal := hcanonical.isMaximal B hB
    refine ⟨aligned_ofBlock hin, (within_complement_iff hin h).mp hmaximal.within, ?_⟩
    intro r' haligned hcovers hfree
    obtain ⟨C, hC, rfl⟩ := haligned.exists_block
    rw [hmaximal.maximal C ((covers_ofBlock_iff hin hC).mp hcovers)
      ((within_complement_iff hC h).mpr hfree)]
  · intro hr
    obtain ⟨B, hB, rfl⟩ := hr.aligned.exists_block
    refine ⟨B, (hcanonical.mem_iff B).mpr ⟨(within_complement_iff hB h).mpr hr.free, ?_⟩, rfl⟩
    intro C hC hwithin
    have hin := inSpace_of_within hwithin
    exact ofBlock_injective hin hB (hr.maximal _ (aligned_ofBlock hin)
      ((covers_ofBlock_iff hB hin).mpr hC) ((within_complement_iff hin h).mp hwithin))

theorem subtractAll_ascending {blocks : List Route} (h : ∀ b ∈ blocks, b.PrefixOk) :
    (subtractAll blocks).Pairwise
      (fun r r' => (blockEndOf r.ip r.prefixLength).toNat < r'.ip.toNat) := by
  rw [subtractAll_eq h, List.pairwise_map]
  refine (remaining_ascending blocks).imp_of_mem ?_
  intro B C hB hC hBC
  have hbase := (remaining_inSpace blocks C hC).base_lt
  have hpos := B.size_pos
  rw [blockEndOf_ofBlock (remaining_inSpace blocks B hB)]
  simp only [Route.ofBlock, BitVec.toNat_ofNat]
  rw [Nat.mod_eq_of_lt (show C.base < 2 ^ 64 by omega)]
  unfold Block.stop at hBC
  omega

/-- **Route subtraction is canonical.**  The routes left do not depend on the order of the
subtractions; each ends before the next begins; they are exactly the maximal aligned blocks free
of what was subtracted; and no two of them make up a larger one. -/
theorem subtractAll_canonical (blocks blocks' : List Route) (h : ∀ b ∈ blocks, b.PrefixOk)
    (hperm : blocks'.Perm blocks) :
    subtractAll blocks' = subtractAll blocks ∧
    (subtractAll blocks).Pairwise
      (fun r r' => (blockEndOf r.ip r.prefixLength).toNat < r'.ip.toNat) ∧
    (∀ r, r ∈ subtractAll blocks ↔ r.Maximal blocks) ∧
    ∀ r ∈ subtractAll blocks, ∀ r' ∈ subtractAll blocks, r ≠ r' →
      ¬ ∃ m : Route, m.Aligned ∧ ∀ a, m.Covers a ↔ r.Covers a ∨ r'.Covers a := by
  refine ⟨?_, subtractAll_ascending h, mem_subtractAll_iff h, ?_⟩
  · rw [subtractAll_eq h, subtractAll_eq fun b hb => h b (hperm.mem_iff.mp hb),
      remaining_perm hperm]
  · rintro r hr r' hr' hne ⟨m, hm, hunion⟩
    have hmaximal := (mem_subtractAll_iff h r).mp hr
    have hmaximal' := (mem_subtractAll_iff h r').mp hr'
    have hfree : m.Free blocks := by
      intro a ha
      rcases (hunion a).mp ha with ha | ha
      · exact hmaximal.free a ha
      · exact hmaximal'.free a ha
    have heq := hmaximal.maximal m hm (fun a ha => (hunion a).mpr (Or.inl ha)) hfree
    have heq' := hmaximal'.maximal m hm (fun a ha => (hunion a).mpr (Or.inr ha)) hfree
    exact hne (heq.symm.trans heq')

/-- Two blocks, subtracted in either order. -/
theorem subtractAll_canonical_swapped :
    subtractAll [⟨0x80000000#64, 2⟩, ⟨0x00000000#64, 1⟩] =
      subtractAll [⟨0x00000000#64, 1⟩, ⟨0x80000000#64, 2⟩] :=
  (subtractAll_canonical [⟨0x00000000#64, 1⟩, ⟨0x80000000#64, 2⟩]
    [⟨0x80000000#64, 2⟩, ⟨0x00000000#64, 1⟩] (by unfold Route.PrefixOk; decide)
    (List.Perm.swap _ _ _)).1

end ShiroKhorshid.Vpn
