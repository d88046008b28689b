/-
# CIDR subtraction (`VpnManager.subtractCidr`)

Below API 33 there is no `excludeRoute`, so `VpnManager` starts from the single route
`0.0.0.0/0` and subtracts every excluded block from the list of routes it has.  This module is
that arithmetic as the source writes it, on 64-bit `long`s: `prefixToMask`, `subtractCidr` and
`splitExcluding`.

The second half connects it to `Dyadic`.  A route with a masked base IS a dyadic block
(`Route.ofBlock`), and one call of `subtractCidr` on such routes IS `carveAll` of the interval
the excluded block denotes (`subtractCidr_map_ofBlock`).  The square commutes exactly, list for
list, so whatever is known of `carveAll` is known of the source.

* **Mask arithmetic.**  The masks and bounds that the source computes with shifts and complements
  are those of the block, for lengths from 0 to 32; signed comparison agrees with the unsigned one
  there, because the top bits are clear.
* **Three questions.**  Both loops ask whether a block is free of the excluded one, lies inside it,
  or has to be split (`cut_eq`); the induction is on the size of the block.
* **The early return** of `splitExcluding` at a prefix beyond 32 would lose addresses.  It is never
  taken: a block that splits is larger than the block that splits it (`SplitCall.splits`).

`subtractAll_split_routing` collects it for any list of blocks whose lengths are between 0 and 32.

Their bases need not be masked, and blocks may overlap.  Order and minimality of the result are in
`MaximalRoutes`.
-/
import Mathlib.Data.List.Induction
import ShiroKhorshid.Jvm
import ShiroKhorshid.Lib.Dyadic

namespace ShiroKhorshid.Vpn

open Jvm Dyadic

/-! ## 1. The source -/

/-- A route as the code passes it: `long[]{ipAsLong, prefixLength}`. -/
structure Route where
  ip : BitVec 64
  prefixLength : ℤ
deriving DecidableEq

/-- `prefixToMask`: a prefix length (0-32) to a 32-bit mask as an unsigned long. -/
def prefixToMask (n : ℤ) : BitVec 64 :=
  if n = 0 then 0#64 else shl (~~~ 0#64) (32 - n) &&& 0xFFFFFFFF#64

/-- The first address of a block, as both functions compute it. -/
def blockStartOf (ip : BitVec 64) (n : ℤ) : BitVec 64 := ip &&& prefixToMask n

/-- The last address of a block, as both functions compute it. -/
def blockEndOf (ip : BitVec 64) (n : ℤ) : BitVec 64 :=
  blockStartOf ip n ||| (~~~ prefixToMask n &&& 0xFFFFFFFF#64)

/-- The test `exclStart > blockEnd || exclEnd < blockStart`: no overlap. -/
def noOverlap (exclStart exclEnd blockStart blockEnd : BitVec 64) : Bool :=
  blockEnd.slt exclStart || exclEnd.slt blockStart

/-- The test `exclStart <= blockStart && exclEnd >= blockEnd`: fully covered. -/
def fullyCovered (exclStart exclEnd blockStart blockEnd : BitVec 64) : Bool :=
  exclStart.sle blockStart && blockEnd.sle exclEnd

/-- The two halves `{{leftStart, leftEnd}, {rightStart, rightEnd}}` of a block. -/
def childrenOf (blockStart : BitVec 64) (childPrefix : ℤ) : List (BitVec 64 × BitVec 64) :=
  let childSize := shl 1#64 (32 - childPrefix)
  let leftStart := blockStart
  let leftEnd := leftStart + childSize - 1#64
  let rightStart := blockStart + childSize
  let rightEnd := rightStart + childSize - 1#64
  [(leftStart, leftEnd), (rightStart, rightEnd)]

/-- `splitExcluding`: split a block into the largest sub-blocks that do not overlap the excluded
range. -/
def splitExcluding (result : List Route) (blockStart : BitVec 64) (blockPrefix : ℤ)
    (exclStart exclEnd : BitVec 64) : List Route :=
  let childPrefix := blockPrefix + 1
  if _ : childPrefix > 32 then result
  else
    (childrenOf blockStart childPrefix).foldl (fun result child =>
      if noOverlap exclStart exclEnd child.1 child.2 then result ++ [⟨child.1, childPrefix⟩]
      else if fullyCovered exclStart exclEnd child.1 child.2 then result
      else splitExcluding result child.1 childPrefix exclStart exclEnd) result
termination_by (32 - blockPrefix).toNat

/-- `subtractCidr`: subtract a block from a list of blocks, returning the remaining blocks. -/
def subtractCidr (routes : List Route) (subtractIp : BitVec 64) (subtractPrefix : ℤ) :
    List Route :=
  let subtractStart := blockStartOf subtractIp subtractPrefix
  let subtractEnd := blockEndOf subtractIp subtractPrefix
  routes.foldl (fun result route =>
    let routeStart := blockStartOf route.ip route.prefixLength
    let routeEnd := blockEndOf route.ip route.prefixLength
    if noOverlap subtractStart subtractEnd routeStart routeEnd then result ++ [route]
    else if fullyCovered subtractStart subtractEnd routeStart routeEnd then result
    else splitExcluding result routeStart route.prefixLength subtractStart subtractEnd) []

/-- The route list `applyVpnRoutes` starts from: `0.0.0.0/0`. -/
def defaultRoutes : List Route := [⟨0#64, 0⟩]

/-- The legacy branch's loop: subtract one block after another. -/
def subtractAll (blocks : List Route) : List Route :=
  blocks.foldl (fun routes block => subtractCidr routes block.ip block.prefixLength)
    defaultRoutes

/-! ## 2. The mask arithmetic -/

section Mask

variable {n : ℕ} (hn : n ≤ 32)

include hn

theorem prefixToMask_eq :
    prefixToMask n = ((BitVec.allOnes 32 >>> (32 - n)) <<< (32 - n)).setWidth 64 := by
  interval_cases n <;> decide

theorem hostMask_toNat :
    (~~~ prefixToMask n &&& 0xFFFFFFFF#64).toNat = 2 ^ (32 - n) - 1 := by
  interval_cases n <;> decide

theorem childSize_toNat : (shl 1#64 (32 - n)).toNat = 2 ^ (32 - n) := by
  interval_cases n <;> decide

/-- Masking an address clears its host bits and everything above bit 31. -/
theorem blockStartOf_eq (ip : BitVec 64) :
    blockStartOf ip n = ((ip.setWidth 32 >>> (32 - n)) <<< (32 - n)).setWidth 64 := by
  rw [blockStartOf, prefixToMask_eq hn]
  ext i hi
  simp only [BitVec.getElem_and, BitVec.getElem_setWidth, BitVec.getLsbD_shiftLeft,
    BitVec.getLsbD_ushiftRight, BitVec.getLsbD_setWidth, BitVec.getLsbD_allOnes]
  by_cases h32 : i < 32
  · by_cases hhost : i < 32 - n
    · simp [h32, hhost]
    · have hcancel : 32 - n + (i - (32 - n)) = i := by omega
      simp [h32, hhost, hcancel, BitVec.getLsbD_eq_getElem hi]
  · simp [h32]

/-- The first address, as a number: the address without its host bits. -/
theorem blockStartOf_toNat (ip : BitVec 64) :
    (blockStartOf ip n).toNat = ip.toNat % 2 ^ 32 / 2 ^ (32 - n) * 2 ^ (32 - n) := by
  have hlt : ip.toNat % 2 ^ 32 / 2 ^ (32 - n) * 2 ^ (32 - n) < 2 ^ 32 :=
    lt_of_le_of_lt (Nat.div_mul_le_self _ _) (Nat.mod_lt _ (by decide))
  rw [blockStartOf_eq hn, BitVec.toNat_setWidth, BitVec.toNat_shiftLeft,
    BitVec.toNat_ushiftRight, BitVec.toNat_setWidth, Nat.shiftLeft_eq, Nat.shiftRight_eq_div_pow,
    Nat.mod_eq_of_lt hlt, Nat.mod_eq_of_lt (by omega)]

/-- A first address is an address. -/
theorem blockStartOf_lt (ip : BitVec 64) : (blockStartOf ip n).toNat < 2 ^ 32 := by
  rw [blockStartOf_toNat hn]
  exact lt_of_le_of_lt (Nat.div_mul_le_self _ _) (Nat.mod_lt _ (by decide))

/-- The last address, as a number. -/
theorem blockEndOf_toNat (ip : BitVec 64) :
    (blockEndOf ip n).toNat = (blockStartOf ip n).toNat + (2 ^ (32 - n) - 1) := by
  have hdisj : blockStartOf ip n &&& (~~~ prefixToMask n &&& 0xFFFFFFFF#64) = 0#64 := by
    rw [blockStartOf]
    ext i hi
    simp only [BitVec.getElem_and, BitVec.getElem_not, BitVec.getElem_zero]
    cases (prefixToMask n)[i] <;> simp
  have hmask := hostMask_toNat hn
  have hle := blockStartOf_lt hn ip
  have hpow : 2 ^ (32 - n) ≤ 2 ^ 32 := Nat.pow_le_pow_right (by decide) (Nat.sub_le _ _)
  rw [blockEndOf, ← BitVec.add_eq_or_of_and_eq_zero _ _ hdisj, BitVec.toNat_add, hmask,
    Nat.mod_eq_of_lt (by omega)]

/-- A last address is an address: the block ends at the next multiple of its length, and the
address space does so too. -/
theorem blockEndOf_lt (ip : BitVec 64) : (blockEndOf ip n).toNat < 2 ^ 32 := by
  have hs := blockStartOf_lt hn ip
  rw [blockEndOf_toNat hn]
  rw [blockStartOf_toNat hn] at hs ⊢
  have hpos := Nat.two_pow_pos (32 - n)
  obtain ⟨c, hc⟩ : 2 ^ (32 - n) ∣ 2 ^ 32 := pow_dvd_pow 2 (Nat.sub_le _ _)
  rw [hc, Nat.mul_comm (2 ^ (32 - n)) c] at hs ⊢
  have hq := lt_of_mul_lt_mul_right hs (Nat.zero_le _)
  have hle := Nat.mul_le_mul_right (2 ^ (32 - n)) (Nat.succ_le_of_lt hq)
  rw [Nat.succ_mul] at hle
  omega

end Mask

/-! ## 3. Routes are dyadic blocks -/

/-- The route of a dyadic block: its base, and `32 - log` for a prefix. -/
def Route.ofBlock (B : Block) : Route := ⟨BitVec.ofNat 64 B.base, 32 - B.log⟩

/-- The blocks of the IPv4 address space. -/
def InSpace (B : Block) : Prop := B.stop ≤ 2 ^ 32

theorem InSpace.log_le {B : Block} (h : InSpace B) : B.log ≤ 32 := by
  have h1 : 2 ^ B.log ≤ 2 ^ 32 := (Nat.le_add_left _ _).trans h
  exact (Nat.pow_le_pow_iff_right (by decide)).mp h1

theorem InSpace.base_lt {B : Block} (h : InSpace B) : B.base < 2 ^ 32 := by
  have h1 := B.size_pos
  have h2 : B.base + B.size ≤ 2 ^ 32 := h
  omega

/-- The whole address space, which is `0.0.0.0/0`. -/
def space : Block := ⟨0, 32, Nat.dvd_zero _⟩

theorem ofBlock_space : [space].map Route.ofBlock = defaultRoutes := by decide

/-- Masking the base of an aligned block changes nothing. -/
theorem blockStartOf_ofBlock {B : Block} (h : InSpace B) :
    blockStartOf (Route.ofBlock B).ip (Route.ofBlock B).prefixLength = BitVec.ofNat 64 B.base := by
  have hlog := h.log_le
  have hbase := h.base_lt
  obtain ⟨c, hc⟩ := B.aligned
  have hcast : (32 : ℤ) - B.log = ((32 - B.log : ℕ) : ℤ) := by omega
  refine BitVec.eq_of_toNat_eq ?_
  simp only [Route.ofBlock]
  rw [hcast, blockStartOf_toNat (Nat.sub_le _ _), BitVec.toNat_ofNat,
    Nat.mod_eq_of_lt (show B.base < 2 ^ 64 by omega), Nat.mod_eq_of_lt hbase,
    Nat.sub_sub_self hlog, hc, Nat.mul_div_cancel_left c (Nat.two_pow_pos _), Nat.mul_comm]

theorem blockEndOf_ofBlock {B : Block} (h : InSpace B) :
    (blockEndOf (Route.ofBlock B).ip (Route.ofBlock B).prefixLength).toNat
      = B.base + B.size - 1 := by
  have hlog := h.log_le
  have hbase := h.base_lt
  have hpos := B.size_pos
  have hcast : (Route.ofBlock B).prefixLength = ((32 - B.log : ℕ) : ℤ) := by
    simp only [Route.ofBlock]; omega
  have hstart := blockStartOf_ofBlock h
  rw [hcast] at hstart ⊢
  rw [blockEndOf_toNat (Nat.sub_le _ _), hstart, BitVec.toNat_ofNat,
    Nat.mod_eq_of_lt (show B.base < 2 ^ 64 by omega), Nat.sub_sub_self hlog]
  unfold Block.size at hpos ⊢
  omega

/-- Signed comparison of `long`s below `2 ^ 63` is comparison of numbers. -/
theorem slt_iff {x y : BitVec 64} (hx : x.toNat < 2 ^ 63) (hy : y.toNat < 2 ^ 63) :
    x.slt y = decide (x.toNat < y.toNat) := by
  rw [BitVec.slt_eq_decide, BitVec.toInt_eq_toNat_of_lt (by omega),
    BitVec.toInt_eq_toNat_of_lt (by omega)]
  exact decide_eq_decide.mpr Int.ofNat_lt

theorem sle_iff {x y : BitVec 64} (hx : x.toNat < 2 ^ 63) (hy : y.toNat < 2 ^ 63) :
    x.sle y = decide (x.toNat ≤ y.toNat) := by
  rw [BitVec.sle_eq_decide, BitVec.toInt_eq_toNat_of_lt (by omega),
    BitVec.toInt_eq_toNat_of_lt (by omega)]
  exact decide_eq_decide.mpr Int.ofNat_le

/-! ## 4. One call of `subtractCidr` is one `carveAll`

Both loops of the source ask the same three questions of a block.  `cut_eq` answers them for
both: the induction is on the log of the block, and the third answer, which calls
`splitExcluding`, is the only one that descends. -/

section Refinement

variable {s e : BitVec 64}

theorem noOverlap_eq {start stop : BitVec 64} (hs : s.toNat < 2 ^ 32) (he : e.toNat < 2 ^ 32)
    (hstart : start.toNat < 2 ^ 32) (hstop : stop.toNat < 2 ^ 32) :
    noOverlap s e start stop = decide (stop.toNat < s.toNat ∨ e.toNat < start.toNat) := by
  rw [noOverlap, slt_iff (by omega) (by omega), slt_iff (by omega) (by omega),
    Bool.decide_or]

theorem fullyCovered_eq {start stop : BitVec 64} (hs : s.toNat < 2 ^ 32)
    (he : e.toNat < 2 ^ 32) (hstart : start.toNat < 2 ^ 32) (hstop : stop.toNat < 2 ^ 32) :
    fullyCovered s e start stop = decide (s.toNat ≤ start.toNat ∧ stop.toNat ≤ e.toNat) := by
  rw [fullyCovered, sle_iff (by omega) (by omega), sle_iff (by omega) (by omega),
    Bool.decide_and]

/-- Asked of a block, both questions are about numbers. -/
theorem tests_eq (hs : s.toNat < 2 ^ 32) (he : e.toNat < 2 ^ 32) {k b : ℕ} {stop : BitVec 64}
    (hin : b + 2 ^ k ≤ 2 ^ 32) (hstop : stop.toNat = b + 2 ^ k - 1) :
    noOverlap s e (BitVec.ofNat 64 b) stop
        = decide (b + 2 ^ k - 1 < s.toNat ∨ e.toNat < b) ∧
      fullyCovered s e (BitVec.ofNat 64 b) stop
        = decide (s.toNat ≤ b ∧ b + 2 ^ k - 1 ≤ e.toNat) := by
  have hpos : 0 < 2 ^ k := Nat.two_pow_pos k
  have hb : (BitVec.ofNat 64 b).toNat = b := by
    rw [BitVec.toNat_ofNat]; omega
  rw [noOverlap_eq hs he (by omega) (by omega), fullyCovered_eq hs he (by omega) (by omega), hb,
    hstop]
  exact ⟨rfl, rfl⟩

/-- The two children of a block of log `k + 1` are its lower and upper half. -/
theorem childrenOf_eq {k b : ℕ} (hin : b + 2 ^ (k + 1) ≤ 2 ^ 32) :
    ∃ leftEnd rightEnd : BitVec 64,
      childrenOf (BitVec.ofNat 64 b) (32 - k)
        = [(BitVec.ofNat 64 b, leftEnd), (BitVec.ofNat 64 (b + 2 ^ k), rightEnd)] ∧
      leftEnd.toNat = b + 2 ^ k - 1 ∧ rightEnd.toNat = b + 2 ^ k + 2 ^ k - 1 := by
  have hpow : 2 ^ (k + 1) = 2 ^ k + 2 ^ k := by ring
  have hpos : 0 < 2 ^ k := Nat.two_pow_pos k
  have hk : k ≤ 32 := by
    have h1 : 2 ^ (k + 1) ≤ 2 ^ 32 := by omega
    have h2 := (Nat.pow_le_pow_iff_right (by decide)).mp h1
    omega
  have hsize : (shl 1#64 (32 - (32 - (k : ℤ)))).toNat = 2 ^ k := by
    have h := childSize_toNat (Nat.sub_le 32 k)
    rwa [Nat.sub_sub_self hk, Nat.cast_sub hk] at h
  have hright : BitVec.ofNat 64 b + shl 1#64 (32 - (32 - (k : ℤ)))
      = BitVec.ofNat 64 (b + 2 ^ k) := by
    refine BitVec.eq_of_toNat_eq ?_
    rw [BitVec.toNat_add, hsize, BitVec.toNat_ofNat, BitVec.toNat_ofNat, Nat.mod_add_mod]
  refine ⟨BitVec.ofNat 64 b + shl 1#64 (32 - (32 - (k : ℤ))) - 1#64,
    BitVec.ofNat 64 (b + 2 ^ k) + shl 1#64 (32 - (32 - (k : ℤ))) - 1#64, ?_, ?_, ?_⟩
  · simp only [childrenOf, hright]
  · rw [BitVec.toNat_sub, BitVec.toNat_add, hsize, BitVec.toNat_ofNat]
    simp only [BitVec.toNat_ofNat]
    omega
  · rw [BitVec.toNat_sub, BitVec.toNat_add, hsize, BitVec.toNat_ofNat]
    simp only [BitVec.toNat_ofNat]
    omega

/-- **The three questions.**  Asked of a block of the address space, they add to the result
exactly what `carve` leaves of it. -/
theorem cut_eq (hs : s.toNat < 2 ^ 32) (he : e.toNat < 2 ^ 32) (k b : ℕ) (h : 2 ^ k ∣ b) :
    b + 2 ^ k ≤ 2 ^ 32 → ∀ (result : List Route) (stop : BitVec 64), stop.toNat = b + 2 ^ k - 1 →
      (if noOverlap s e (BitVec.ofNat 64 b) stop then
        result ++ [⟨BitVec.ofNat 64 b, 32 - (k : ℤ)⟩]
      else if fullyCovered s e (BitVec.ofNat 64 b) stop then result
      else splitExcluding result (BitVec.ofNat 64 b) (32 - (k : ℤ)) s e)
        = result ++ (carve s.toNat e.toNat k b h).map Route.ofBlock := by
  refine carve_induction ?disjoint ?covered ?halves k b h
  case disjoint =>
    intro k b h hd hin result stop hstop
    rw [(tests_eq hs he hin hstop).1, if_pos (decide_eq_true hd)]
    rfl
  case covered =>
    intro k b h hc hin result stop hstop
    have hpos : 0 < 2 ^ k := Nat.two_pow_pos k
    have hd : ¬ (b + 2 ^ k - 1 < s.toNat ∨ e.toNat < b) := by omega
    obtain ⟨hno, hcovered⟩ := tests_eq hs he hin hstop
    rw [hno, hcovered, if_neg (by simpa using hd), if_pos (decide_eq_true hc), List.map_nil,
      List.append_nil]
  case halves =>
    intro k b h hd hc ihleft ihright hin result stop hstop
    obtain ⟨hno, hcovered⟩ := tests_eq hs he hin hstop
    rw [hno, hcovered, if_neg (by simpa using hd), if_neg (by simpa using hc), splitExcluding]
    have hchild : (32 : ℤ) - ((k + 1 : ℕ) : ℤ) + 1 = 32 - (k : ℤ) := by omega
    rw [hchild, dif_neg (by omega)]
    obtain ⟨leftEnd, rightEnd, hch, hleft, hright⟩ := childrenOf_eq hin
    have hpow : 2 ^ (k + 1) = 2 ^ k + 2 ^ k := by ring
    rw [hch, List.foldl_cons, List.foldl_cons, List.foldl_nil,
      ihleft (by omega) result leftEnd hleft, ihright (by omega) _ rightEnd hright,
      List.map_append, List.append_assoc]

end Refinement

/-- **One subtraction.**  On the routes of a list of blocks, `subtractCidr` returns the routes of
what `carveAll` leaves of them. -/
theorem subtractCidr_map_ofBlock {Bs : List Block} (hBs : ∀ B ∈ Bs, InSpace B) (ip : BitVec 64)
    {n : ℕ} (hn : n ≤ 32) :
    subtractCidr (Bs.map Route.ofBlock) ip n
      = (carveAll Bs (blockStartOf ip n).toNat (blockEndOf ip n).toNat).map Route.ofBlock := by
  have hs := blockStartOf_lt hn ip
  have he := blockEndOf_lt hn ip
  have hfold : ∀ (Cs : List Block) (result : List Route), (∀ C ∈ Cs, InSpace C) →
      (Cs.map Route.ofBlock).foldl (fun result route =>
        if noOverlap (blockStartOf ip n) (blockEndOf ip n)
            (blockStartOf route.ip route.prefixLength) (blockEndOf route.ip route.prefixLength)
        then result ++ [route]
        else if fullyCovered (blockStartOf ip n) (blockEndOf ip n)
            (blockStartOf route.ip route.prefixLength) (blockEndOf route.ip route.prefixLength)
        then result
        else splitExcluding result (blockStartOf route.ip route.prefixLength)
          route.prefixLength (blockStartOf ip n) (blockEndOf ip n)) result
        = result ++ (carveAll Cs (blockStartOf ip n).toNat (blockEndOf ip n).toNat).map
            Route.ofBlock := by
    intro Cs
    induction Cs with
    | nil => intro result _; simp [carveAll]
    | cons C Cs ih =>
      intro result hC
      have hin := hC C List.mem_cons_self
      have hcut := cut_eq hs he C.log C.base C.aligned hin result _ (blockEndOf_ofBlock hin)
      rw [List.map_cons, List.foldl_cons, blockStartOf_ofBlock hin]
      refine (congrArg (fun r => (Cs.map Route.ofBlock).foldl _ r) hcut).trans ?_
      rw [ih _ (fun D hD => hC D (List.mem_cons_of_mem _ hD)), carveAll, carveAll,
        List.flatMap_cons, List.map_append, List.append_assoc]
      rfl
  rw [subtractCidr]
  exact hfold Bs [] hBs

/-! ## 5. Any number of subtractions -/

/-- A block the code is given: a prefix length between 0 and 32, any base. -/
def Route.PrefixOk (r : Route) : Prop := 0 ≤ r.prefixLength ∧ r.prefixLength ≤ 32

/-- The prefix length of such a block is a natural number up to 32. -/
theorem Route.PrefixOk.exists_nat {r : Route} (h : r.PrefixOk) :
    ∃ n : ℕ, r.prefixLength = n ∧ n ≤ 32 := by
  obtain ⟨n, hn⟩ := Int.eq_ofNat_of_zero_le h.1
  have hle := h.2
  exact ⟨n, hn, by omega⟩

/-- An IPv4 address lies in a block when it has the block's first `prefixLength` bits. -/
def Route.Covers (r : Route) (a : BitVec 32) : Prop :=
  a >>> (32 - r.prefixLength).toNat = r.ip.setWidth 32 >>> (32 - r.prefixLength).toNat

instance (r : Route) (a : BitVec 32) : Decidable (r.Covers a) :=
  inferInstanceAs (Decidable (_ = _))

/-- The addresses of a block are the interval from its first address to its last. -/
theorem covers_iff {r : Route} (h : r.PrefixOk) (a : BitVec 32) :
    r.Covers a ↔ (blockStartOf r.ip r.prefixLength).toNat ≤ a.toNat ∧
      a.toNat ≤ (blockEndOf r.ip r.prefixLength).toNat := by
  obtain ⟨ip, p⟩ := r
  obtain ⟨n, rfl⟩ := Int.eq_ofNat_of_zero_le h.1
  have hn : n ≤ 32 := Int.ofNat_le.mp h.2
  have hshift : (32 - (n : ℤ)).toNat = 32 - n := by omega
  have hpos : 0 < 2 ^ (32 - n) := Nat.two_pow_pos _
  simp only [Route.Covers]
  rw [hshift, blockEndOf_toNat hn, blockStartOf_toNat hn, ← BitVec.toNat_inj,
    BitVec.toNat_ushiftRight, BitVec.toNat_ushiftRight, BitVec.toNat_setWidth,
    Nat.shiftRight_eq_div_pow, Nat.shiftRight_eq_div_pow, Nat.div_eq_iff hpos,
    Nat.add_sub_assoc hpos]

/-- The route of a block covers the numbers of the block. -/
theorem covers_ofBlock {B : Block} (h : InSpace B) (a : BitVec 32) :
    (Route.ofBlock B).Covers a ↔ a.toNat ∈ B := by
  have hlog := h.log_le
  have hbase := h.base_lt
  have hpos := B.size_pos
  rw [covers_iff ⟨by simp only [Route.ofBlock]; omega, by simp only [Route.ofBlock]; omega⟩,
    blockStartOf_ofBlock h, blockEndOf_ofBlock h, BitVec.toNat_ofNat,
    Nat.mod_eq_of_lt (by omega), mem_block_iff, Block.stop]
  omega

/-- What is left of the address space once every block has been cut out of it. -/
def remaining (blocks : List Route) : List Block :=
  blocks.foldl (fun Bs block => carveAll Bs (blockStartOf block.ip block.prefixLength).toNat
    (blockEndOf block.ip block.prefixLength).toNat) [space]

theorem remaining_append_singleton (blocks : List Route) (b : Route) :
    remaining (blocks ++ [b]) = carveAll (remaining blocks)
      (blockStartOf b.ip b.prefixLength).toNat (blockEndOf b.ip b.prefixLength).toNat := by
  rw [remaining, List.foldl_append]
  rfl

theorem subtractAll_append_singleton (blocks : List Route) (b : Route) :
    subtractAll (blocks ++ [b]) = subtractCidr (subtractAll blocks) b.ip b.prefixLength := by
  rw [subtractAll, List.foldl_append]
  rfl

/-- Every remaining block is a block of the address space. -/
theorem remaining_inSpace (blocks : List Route) : ∀ B ∈ remaining blocks, InSpace B := by
  induction blocks using List.reverseRecOn with
  | nil =>
    intro B hB
    rw [List.mem_singleton.mp hB]
    exact Nat.le_refl _
  | append_singleton blocks b ih =>
    rw [remaining_append_singleton]
    exact carveAll_stop_le ih

/-- The remaining blocks come in ascending order. -/
theorem remaining_ascending (blocks : List Route) : Ascending (remaining blocks) := by
  induction blocks using List.reverseRecOn with
  | nil => exact List.pairwise_singleton _ _
  | append_singleton blocks b ih =>
    rw [remaining_append_singleton]
    exact carveAll_ascending ih _ _

/-- The remaining blocks cover the addresses that lie in none of the cut blocks. -/
theorem mem_cover_remaining {blocks : List Route} (h : ∀ b ∈ blocks, b.PrefixOk)
    (a : BitVec 32) :
    a.toNat ∈ cover (remaining blocks) ↔ ∀ b ∈ blocks, ¬ b.Covers a := by
  induction blocks using List.reverseRecOn with
  | nil =>
    have ha := a.isLt
    refine iff_of_true ⟨space, List.mem_singleton.mpr rfl, ?_⟩ (fun b hb => absurd hb (by simp))
    exact mem_block_iff.mpr ⟨Nat.zero_le _, by simpa [space, Block.stop, Block.size] using ha⟩
  | append_singleton blocks b ih =>
    have hb : b.PrefixOk := h b (by simp)
    rw [remaining_append_singleton, cover_carveAll, Set.mem_ofPred_eq,
      ih (fun c hc => h c (by simp [hc])), ← covers_iff hb]
    simp only [List.mem_append, List.mem_singleton]
    constructor
    · rintro ⟨h1, h2⟩ c (hc | rfl)
      · exact h1 c hc
      · exact h2
    · intro h1
      exact ⟨fun c hc => h1 c (Or.inl hc), h1 b (Or.inr rfl)⟩

/-- **The whole loop.**  The routes left after any number of subtractions are the routes of the
blocks that remain. -/
theorem subtractAll_eq {blocks : List Route} (h : ∀ b ∈ blocks, b.PrefixOk) :
    subtractAll blocks = (remaining blocks).map Route.ofBlock := by
  induction blocks using List.reverseRecOn with
  | nil => exact ofBlock_space.symm
  | append_singleton blocks b ih =>
    obtain ⟨n, hn, hle⟩ := (h b (by simp)).exists_nat
    rw [subtractAll_append_singleton, ih (fun c hc => h c (by simp [hc])), hn,
      subtractCidr_map_ofBlock (remaining_inSpace blocks) b.ip hle,
      remaining_append_singleton, hn]

/-- What the routes cover is what none of the blocks covers. -/
theorem covers_subtractAll_iff {blocks : List Route} (h : ∀ b ∈ blocks, b.PrefixOk)
    (a : BitVec 32) :
    (∃ r ∈ subtractAll blocks, r.Covers a) ↔ ∀ b ∈ blocks, ¬ b.Covers a := by
  have hspace := remaining_inSpace blocks
  rw [subtractAll_eq h, ← mem_cover_remaining h a, mem_cover]
  constructor
  · rintro ⟨r, hr, ha⟩
    obtain ⟨B, hB, rfl⟩ := List.mem_map.mp hr
    exact ⟨B, hB, (covers_ofBlock (hspace B hB) a).mp ha⟩
  · rintro ⟨B, hB, ha⟩
    exact ⟨_, List.mem_map_of_mem hB, (covers_ofBlock (hspace B hB) a).mpr ha⟩

/-! ## 6. The early return of `splitExcluding` is never taken -/

/-- `SplitCall s e b p b' p'`: a call of `splitExcluding` on the block `b / p` makes, itself or
through the calls it makes in turn, a call on the block `b' / p'`. -/
inductive SplitCall (exclStart exclEnd : BitVec 64) :
    BitVec 64 → ℤ → BitVec 64 → ℤ → Prop
  | refl (b : BitVec 64) (p : ℤ) : SplitCall exclStart exclEnd b p b p
  | child {b b' : BitVec 64} {p p' : ℤ} {c : BitVec 64 × BitVec 64} :
      ¬ p + 1 > 32 → c ∈ childrenOf b (p + 1) →
      noOverlap exclStart exclEnd c.1 c.2 = false →
      fullyCovered exclStart exclEnd c.1 c.2 = false →
      SplitCall exclStart exclEnd c.1 (p + 1) b' p' → SplitCall exclStart exclEnd b p b' p'

/-- What holds of every block `splitExcluding` is called on: it is a block of the address space
with more than one address, and the excluded range overlaps it in part. -/
def Splits (s e : BitVec 64) (b : BitVec 64) (p : ℤ) : Prop :=
  ∃ k n : ℕ, b = BitVec.ofNat 64 n ∧ p = 32 - ((k + 1 : ℕ) : ℤ) ∧ n + 2 ^ (k + 1) ≤ 2 ^ 32 ∧
    ¬ (n + 2 ^ (k + 1) - 1 < s.toNat ∨ e.toNat < n) ∧
    ¬ (s.toNat ≤ n ∧ n + 2 ^ (k + 1) - 1 ≤ e.toNat)

/-- A block that is neither missed nor covered has more than one address, so it splits. -/
theorem splits_of_meets {s e stop : BitVec 64} {k n : ℕ} (hs : s.toNat < 2 ^ 32)
    (he : e.toNat < 2 ^ 32) (hin : n + 2 ^ k ≤ 2 ^ 32) (hstop : stop.toNat = n + 2 ^ k - 1)
    (hno : noOverlap s e (BitVec.ofNat 64 n) stop = false)
    (hcov : fullyCovered s e (BitVec.ofNat 64 n) stop = false) :
    Splits s e (BitVec.ofNat 64 n) (32 - (k : ℤ)) := by
  obtain ⟨hnoEq, hcovEq⟩ := tests_eq hs he hin hstop
  rw [hnoEq] at hno
  rw [hcovEq] at hcov
  cases k with
  | zero => exact absurd (covered_of_meets_zero (of_decide_eq_false hno)) (of_decide_eq_false hcov)
  | succ k => exact ⟨k, n, rfl, rfl, hin, of_decide_eq_false hno, of_decide_eq_false hcov⟩

/-- **No call takes the early return.**  Every call made on behalf of a block that splits is on
a block that splits, so its `childPrefix` is at most 32. -/
theorem SplitCall.splits {s e b b' : BitVec 64} {p p' : ℤ} (hs : s.toNat < 2 ^ 32)
    (he : e.toNat < 2 ^ 32) (h : SplitCall s e b p b' p') (hb : Splits s e b p) :
    Splits s e b' p' := by
  induction h with
  | refl => exact hb
  | @child b b' p p' c _ hc hno hcov _ ih =>
    refine ih ?_
    obtain ⟨k, n, rfl, rfl, hin, -, -⟩ := hb
    have hpow : 2 ^ (k + 1) = 2 ^ k + 2 ^ k := by ring
    have hp : (32 : ℤ) - ((k + 1 : ℕ) : ℤ) + 1 = 32 - (k : ℤ) := by omega
    have hpos : 0 < 2 ^ k := Nat.two_pow_pos k
    have hinr : n + 2 ^ k + 2 ^ k ≤ 2 ^ 32 := by omega
    have hinl : n + 2 ^ k ≤ 2 ^ 32 := by omega
    obtain ⟨leftEnd, rightEnd, hch, hleft, hright⟩ := childrenOf_eq hin
    rw [hp] at hc ⊢
    rw [hch, List.mem_cons, List.mem_singleton] at hc
    rcases hc with rfl | rfl
    · exact splits_of_meets hs he hinl hleft hno hcov
    · exact splits_of_meets hs he hinr hright hno hcov

theorem Splits.childPrefix_le {s e b : BitVec 64} {p : ℤ} (h : Splits s e b p) : p + 1 ≤ 32 := by
  obtain ⟨k, _, _, rfl, _⟩ := h
  omega

/-! ## 7. Split routing is correct -/

/-- **Split routing.**  After any list of blocks has been subtracted from `0.0.0.0/0`: an address
is covered by a route exactly when it lies in none of the blocks; every route has a prefix
length up to 32 and a masked base; no two routes share an address; and no call of
`splitExcluding` made on the way returned early, so no address was lost there. -/
theorem subtractAll_split_routing (blocks : List Route) (h : ∀ b ∈ blocks, b.PrefixOk) :
    (∀ a : BitVec 32, (∃ r ∈ subtractAll blocks, r.Covers a) ↔ ∀ b ∈ blocks, ¬ b.Covers a) ∧
    (∀ r ∈ subtractAll blocks,
      r.PrefixOk ∧ r.ip &&& prefixToMask r.prefixLength = r.ip) ∧
    (subtractAll blocks).Pairwise (fun r r' => ∀ a, ¬ (r.Covers a ∧ r'.Covers a)) ∧
    (∀ done b rest, blocks = done ++ b :: rest → ∀ r ∈ subtractAll done,
      let s := blockStartOf b.ip b.prefixLength
      let e := blockEndOf b.ip b.prefixLength
      let routeStart := blockStartOf r.ip r.prefixLength
      noOverlap s e routeStart (blockEndOf r.ip r.prefixLength) = false →
      fullyCovered s e routeStart (blockEndOf r.ip r.prefixLength) = false →
      ∀ b' p', SplitCall s e routeStart r.prefixLength b' p' → p' + 1 ≤ 32) := by
  have hspace := remaining_inSpace blocks
  refine ⟨covers_subtractAll_iff h, ?_⟩
  rw [subtractAll_eq h]
  refine ⟨?_, ?_, ?_⟩
  · intro r hr
    obtain ⟨B, hB, rfl⟩ := List.mem_map.mp hr
    have hlog := (hspace B hB).log_le
    have hmask := blockStartOf_ofBlock (hspace B hB)
    exact ⟨⟨by simp only [Route.ofBlock]; omega, by simp only [Route.ofBlock]; omega⟩, hmask⟩
  · rw [List.pairwise_map]
    refine (remaining_ascending blocks).disjoint.imp_of_mem ?_
    rintro B C hB hC hdisj a ⟨h1, h2⟩
    exact hdisj _ ((covers_ofBlock (hspace B hB) a).mp h1)
      ((covers_ofBlock (hspace C hC) a).mp h2)
  · intro done b rest hblocks r hr s e routeStart hno hcov b' p' hcall
    have hdone : ∀ c ∈ done, c.PrefixOk := fun c hc => h c (by simp [hblocks, hc])
    have hb : b.PrefixOk := h b (by simp [hblocks])
    rw [subtractAll_eq hdone] at hr
    obtain ⟨B, hB, rfl⟩ := List.mem_map.mp hr
    have hin := remaining_inSpace done B hB
    obtain ⟨n, hn, hle⟩ := hb.exists_nat
    have hs : s.toNat < 2 ^ 32 := by simp only [s, hn]; exact blockStartOf_lt hle b.ip
    have he : e.toNat < 2 ^ 32 := by simp only [e, hn]; exact blockEndOf_lt hle b.ip
    have hstart : routeStart = BitVec.ofNat 64 B.base := blockStartOf_ofBlock hin
    rw [hstart] at hno hcov hcall
    have hsplits : Splits s e (BitVec.ofNat 64 B.base) (32 - (B.log : ℤ)) :=
      splits_of_meets hs he hin (blockEndOf_ofBlock hin) hno hcov
    exact (hcall.splits hs he hsplits).childPrefix_le

/-- The theorem at three blocks that nest, overlap and have an unmasked base: `8.8.8.8` is
covered by a route, `10.1.2.3` is not. -/
theorem subtractAll_split_routing_nested :
    (∃ r ∈ subtractAll [⟨0x0A000005#64, 8⟩, ⟨0x0A010000#64, 16⟩, ⟨0xC0A80001#64, 32⟩],
      r.Covers 0x08080808#32) ∧
    ¬ ∃ r ∈ subtractAll [⟨0x0A000005#64, 8⟩, ⟨0x0A010000#64, 16⟩, ⟨0xC0A80001#64, 32⟩],
      r.Covers 0x0A010203#32 := by
  have hsplit := (subtractAll_split_routing
    [⟨0x0A000005#64, 8⟩, ⟨0x0A010000#64, 16⟩, ⟨0xC0A80001#64, 32⟩]
    (by unfold Route.PrefixOk; decide)).1
  rw [hsplit, hsplit]
  decide

end ShiroKhorshid.Vpn
