/-
# Dotted quads and IPv4 prefixes

`VpnManager` moves addresses between two forms: `long`s, on which it computes, and dotted quads,
which is what a `VpnService.Builder` and the list of bypassed routes hold.  `ipToLong` and
`longToIp` go between them; the platform's `InetAddress` reads a dotted quad back on its own
terms.

* **The three agree on every IPv4 address** (`ipToLong_longToIp`, `getByName_longToIp`).  A printed
  address splits at its dots into the four octets again, since no octet has a dot in it, and the
  octets are put together by shifts that do not overlap.
* `getByName` is the platform's reading of four decimal numbers up to 255, and of nothing else; the
  texts that are read here are printed by the program or come from its own list.
* An `IpPrefix` is the platform's class of that name: a masked address and a length, so that two
  prefixes are equal exactly when they denote the same block (`IpPrefix.eq_of_covers`).  Its
  `route` is the one that `Cidr` computes with, and covers the same addresses (`covers_route`).

Names of hosts are not resolved: what is not a numeric address is `none`, which stands for the
exception.
-/
import ShiroKhorshid.Jvm
import ShiroKhorshid.Vpn.Cidr

namespace ShiroKhorshid.Vpn

open Jvm

/-! ## 1. The source -/

/-- `ipToLong`: a dotted-quad IPv4 string to an unsigned long. -/
def ipToLong (ip : String) : Option (BitVec 64) :=
  match split ip '.' with
  | p0 :: p1 :: p2 :: p3 :: _ => do
    let a ← parseLong p0
    let b ← parseLong p1
    let c ← parseLong p2
    let d ← parseLong p3
    some (shl (BitVec.ofInt 64 a) 24 ||| shl (BitVec.ofInt 64 b) 16 |||
      shl (BitVec.ofInt 64 c) 8 ||| BitVec.ofInt 64 d)
  | _ => none

/-- `(ip >> n) & 0xFF`, printed. -/
def octetString (ip : BitVec 64) (n : ℕ) : String :=
  toString (ip.sshiftRight n &&& 0xFF#64).toNat

/-- `longToIp`: an unsigned long to a dotted-quad IPv4 string. -/
def longToIp (ip : BitVec 64) : String :=
  octetString ip 24 ++ "." ++ octetString ip 16 ++ "." ++ octetString ip 8 ++ "." ++
    octetString ip 0

/-- One part of a numeric address: ASCII digits, at most 255. -/
def numericOctet (s : String) : Option ℕ :=
  if s.toList.all Char.isDigit then
    (unsignedDecimal s.toList).filter fun n => decide (n ≤ 255)
  else none

/-- `InetAddress.getByName`, and `parseNumericAddress`, on a dotted quad.  A name that is not
one would be looked up; here it is the `UnknownHostException`. -/
def getByName (host : String) : Option (BitVec 32) :=
  match split host '.' with
  | [p0, p1, p2, p3] => do
    let a ← numericOctet p0
    let b ← numericOctet p1
    let c ← numericOctet p2
    let d ← numericOctet p3
    some (BitVec.ofNat 32 (a * 2 ^ 24 + b * 2 ^ 16 + c * 2 ^ 8 + d))
  | _ => none

/-- `android.net.IpPrefix`: a length from 0 to 32 and an address whose host bits are zero. -/
structure IpPrefix where
  address : BitVec 32
  length : ℕ
  length_le : length ≤ 32
  masked : address >>> (32 - length) <<< (32 - length) = address
deriving DecidableEq

/-- Masking twice is masking once. -/
theorem mask_mask (a : BitVec 32) (k : ℕ) : a >>> k <<< k >>> k <<< k = a >>> k <<< k := by
  ext i hi
  by_cases hlt : i < k
  · simp [hlt]
  · have hcancel : k + (i - k) = i := by omega
    simp [hlt, hcancel, hi]

/-- `new IpPrefix(address, n)`, which masks the address and throws on a length it does not
know. -/
def IpPrefix.ofAddress (address : BitVec 32) (n : ℤ) : Option IpPrefix :=
  if h : 0 ≤ n ∧ n ≤ 32 then
    some ⟨address >>> (32 - n.toNat) <<< (32 - n.toNat), n.toNat, by omega, mask_mask _ _⟩
  else none

/-- A destination has the first `length` bits of the prefix. -/
def IpPrefix.Covers (p : IpPrefix) (a : BitVec 32) : Prop :=
  a >>> (32 - p.length) = p.address >>> (32 - p.length)

instance (p : IpPrefix) (a : BitVec 32) : Decidable (p.Covers a) :=
  inferInstanceAs (Decidable (_ = _))

/-! ## 2. An address, printed and read back -/

theorem octet_lt (ip : BitVec 64) (n : ℕ) : (ip.sshiftRight n &&& 0xFF#64).toNat < 256 := by
  rw [BitVec.toNat_and]
  exact lt_of_le_of_lt Nat.and_le_right (by decide)

/-- A printed octet holds no dot. -/
theorem dot_not_mem_octetString (ip : BitVec 64) (n : ℕ) :
    '.' ∉ (octetString ip n).toList := by
  intro h
  rw [octetString, Nat.toString_eq_repr, Nat.toList_repr] at h
  exact absurd (isDigit_of_mem_toDigits h) (by decide)

/-- Splitting a printed address at the dots gives its four octets. -/
theorem split_longToIp (ip : BitVec 64) :
    split (longToIp ip) '.'
      = [octetString ip 24, octetString ip 16, octetString ip 8, octetString ip 0] := by
  have hjoin : longToIp ip = String.ofList (['.'].intercalate
      ([octetString ip 24, octetString ip 16, octetString ip 8, octetString ip 0].map
        String.toList)) := by
    refine String.toList_inj.mp ?_
    simp [longToIp, List.intercalate, List.intersperse]
  rw [hjoin]
  refine split_intercalate _ _ (by simp) ?_
  intro p hp
  simp only [List.mem_cons, List.not_mem_nil, or_false] at hp
  rcases hp with rfl | rfl | rfl | rfl <;> exact dot_not_mem_octetString ip _

theorem parseLong_octetString (ip : BitVec 64) (n : ℕ) :
    parseLong (octetString ip n) = some ((ip.sshiftRight n &&& 0xFF#64).toNat : ℤ) := by
  have h := octet_lt ip n
  exact parseLong_toString (by omega)

theorem numericOctet_octetString (ip : BitVec 64) (n : ℕ) :
    numericOctet (octetString ip n) = some (ip.sshiftRight n &&& 0xFF#64).toNat := by
  have h := octet_lt ip n
  have hdigits : (octetString ip n).toList.all Char.isDigit = true := by
    rw [List.all_eq_true, octetString, Nat.toString_eq_repr, Nat.toList_repr]
    exact fun c hc => isDigit_of_mem_toDigits hc
  rw [numericOctet, if_pos hdigits, octetString, Nat.toString_eq_repr, Nat.toList_repr,
    unsignedDecimal_toDigits, Option.filter_some, if_pos (decide_eq_true (by omega))]

theorem getLsbD_octetMask (k : ℕ) : (0xFF#64).getLsbD k = decide (k < 8) := by
  rw [BitVec.getLsbD_ofNat, show (0xFF : ℕ) = 2 ^ 8 - 1 by decide, Nat.testBit_two_pow_sub_one]
  by_cases hk : k < 8
  · have h64 : k < 64 := by omega
    simp [hk, h64]
  · simp [hk]

/-- The bits of an octet, moved back to their place. -/
theorem getLsbD_octet (a : BitVec 32) {n : ℕ} (hn : n ≤ 24) (i : ℕ) :
    (((a.setWidth 64).sshiftRight n &&& 0xFF#64) <<< n).getLsbD i =
      (decide (n ≤ i ∧ i < n + 8) && a.getLsbD i) := by
  have ha := a.isLt
  have hmsb : (a.setWidth 64).msb = false := by
    rw [BitVec.msb_eq_false_iff_two_mul_lt, BitVec.toNat_setWidth]
    omega
  rw [BitVec.getLsbD_shiftLeft, BitVec.getLsbD_and, getLsbD_octetMask,
    BitVec.sshiftRight_eq_of_msb_false hmsb, BitVec.getLsbD_ushiftRight, BitVec.getLsbD_setWidth]
  by_cases hlow : n ≤ i
  · have hback : n + (i - n) = i := by omega
    rw [hback]
    by_cases hhigh : i < n + 8
    · have h64 : i < 64 := by omega
      have hbit : i - n < 8 := by omega
      simp [hlow, hhigh, h64, hbit, Nat.not_lt.mpr hlow]
    · have hbit : ¬ i - n < 8 := by omega
      simp [hhigh, hbit]
  · simp [hlow, Nat.not_le.mp hlow]

/-- The four octets of an address, put back together. -/
theorem octets_or (a : BitVec 32) :
    ((a.setWidth 64).sshiftRight 24 &&& 0xFF#64) <<< 24 |||
      ((a.setWidth 64).sshiftRight 16 &&& 0xFF#64) <<< 16 |||
      ((a.setWidth 64).sshiftRight 8 &&& 0xFF#64) <<< 8 |||
      ((a.setWidth 64).sshiftRight 0 &&& 0xFF#64) = a.setWidth 64 := by
  refine BitVec.eq_of_getLsbD_eq ?_
  intro i hi
  have hlast := getLsbD_octet a (Nat.zero_le 24) i
  rw [BitVec.shiftLeft_zero] at hlast
  rw [BitVec.getLsbD_or, BitVec.getLsbD_or, BitVec.getLsbD_or, getLsbD_octet a (by decide),
    getLsbD_octet a (by decide), getLsbD_octet a (by decide), hlast, BitVec.getLsbD_setWidth]
  by_cases h32 : i < 32
  · cases a.getLsbD i with
    | false => simp
    | true =>
      -- one of the octets holds the bit
      simp only [Bool.and_true, hi, decide_true, ← Bool.decide_or, decide_eq_true_eq]
      omega
  · rw [BitVec.getLsbD_of_ge a i (by omega)]
    simp

/-- The octets, as numbers. -/
theorem octet_toNat (a : BitVec 32) (n : ℕ) :
    ((a.setWidth 64).sshiftRight n &&& 0xFF#64).toNat = a.toNat / 2 ^ n % 256 := by
  have ha := a.isLt
  have hmsb : (a.setWidth 64).msb = false := by
    rw [BitVec.msb_eq_false_iff_two_mul_lt, BitVec.toNat_setWidth]
    omega
  rw [BitVec.toNat_and, BitVec.toNat_sshiftRight_of_msb_false hmsb]
  rw [BitVec.toNat_setWidth, Nat.mod_eq_of_lt (by omega), Nat.shiftRight_eq_div_pow]
  exact Nat.and_two_pow_sub_one_eq_mod _ 8

/-- **`ipToLong` undoes `longToIp`** on every IPv4 address. -/
theorem ipToLong_longToIp (a : BitVec 32) :
    ipToLong (longToIp (a.setWidth 64)) = some (a.setWidth 64) := by
  have hcast : ∀ n, BitVec.ofInt 64 (((a.setWidth 64).sshiftRight n &&& 0xFF#64).toNat : ℤ)
      = (a.setWidth 64).sshiftRight n &&& 0xFF#64 := by
    intro n
    rw [BitVec.ofInt_natCast, BitVec.ofNat_toNat, BitVec.setWidth_eq]
  simp only [ipToLong, split_longToIp, parseLong_octetString, Option.bind_eq_bind,
    Option.bind_some, hcast, Option.some.injEq]
  exact octets_or a

/-- **The platform reads a printed address back.** -/
theorem getByName_longToIp (a : BitVec 32) : getByName (longToIp (a.setWidth 64)) = some a := by
  have ha := a.isLt
  simp only [getByName, split_longToIp, numericOctet_octetString, Option.bind_eq_bind,
    Option.bind_some, octet_toNat, Option.some.injEq]
  refine BitVec.eq_of_toNat_eq ?_
  rw [BitVec.toNat_ofNat]
  omega

/-! ## 3. Prefixes -/

namespace IpPrefix

/-- A prefix of a known length that is masked already is kept as it is. -/
theorem ofAddress_self (p : IpPrefix) : ofAddress p.address p.length = some p := by
  have hlen := p.length_le
  have hcond : 0 ≤ (p.length : ℤ) ∧ (p.length : ℤ) ≤ 32 := by omega
  rw [ofAddress, dif_pos hcond]
  obtain ⟨a, n, hn, hmask⟩ := p
  simp only [Int.toNat_natCast, Option.some.injEq, IpPrefix.mk.injEq, and_true]
  exact hmask

/-- Two prefixes of one length that cover the same destination are the same prefix. -/
theorem eq_of_covers {p q : IpPrefix} {a : BitVec 32} (hp : p.Covers a) (hq : q.Covers a)
    (hlen : p.length = q.length) : p = q := by
  obtain ⟨pa, n, hn, hpm⟩ := p
  obtain ⟨qa, m, hm, hqm⟩ := q
  simp only at hlen
  subst hlen
  have hshift : pa >>> (32 - n) = qa >>> (32 - n) := hp.symm.trans hq
  have haddr : pa = qa := by rw [← hpm, ← hqm, hshift]
  subst haddr
  rfl

/-- A prefix covers its own address. -/
theorem covers_address (p : IpPrefix) : p.Covers p.address := rfl

/-- Of two prefixes that share a destination, the shorter covers the longer one's address. -/
theorem covers_of_length_le {p q : IpPrefix} {a : BitVec 32} (hp : p.Covers a) (hq : q.Covers a)
    (hlen : p.length ≤ q.length) : p.Covers q.address := by
  have hq32 := q.length_le
  have hsplit : 32 - p.length = 32 - q.length + (q.length - p.length) := by omega
  unfold Covers at hp hq ⊢
  rw [← hp, hsplit, BitVec.shiftRight_add, BitVec.shiftRight_add, hq]

/-- The prefix as the program passes it around: `{address, String.valueOf(length)}`. -/
def strings (p : IpPrefix) : String × String :=
  (longToIp (p.address.setWidth 64), toString p.length)

/-- The prefix as a block of `subtractCidr`. -/
def route (p : IpPrefix) : Route := ⟨p.address.setWidth 64, p.length⟩

theorem route_prefixOk (p : IpPrefix) : p.route.PrefixOk := by
  have h := p.length_le
  exact ⟨by simp only [route]; omega, by simp only [route]; omega⟩

/-- A prefix and its block cover the same destinations. -/
theorem covers_route (p : IpPrefix) (a : BitVec 32) : p.route.Covers a ↔ p.Covers a := by
  have h := p.length_le
  have hshift : (32 - (p.length : ℤ)).toNat = 32 - p.length := by omega
  simp only [Route.Covers, Covers, route, hshift]
  rw [BitVec.setWidth_setWidth_of_le _ (by decide), BitVec.setWidth_eq]

end IpPrefix

end ShiroKhorshid.Vpn
