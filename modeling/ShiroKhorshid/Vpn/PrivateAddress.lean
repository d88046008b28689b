/-
# The private address (`VpnManager.selectPrivateAddress`)

`vpnEstablish` gives the interface an address in a private range that no other interface uses, and
sends everything for its router, which is tun2socks's gateway and the DNS resolver, into the VPN.

* `gateway_routed_iff`: from API 33 on a bypassed route takes the router out of the VPN if it is
  longer than the route of the own subnet.  Below API 33 nothing does.
* `selectPrivateAddress_iff`: what is in use is read off the PRINTED address, and 172.16.0.0/12 by
  comparing its first six characters.  They are between `172.16` and `172.31` for 172.160.0.1 and
  172.2.0.1 too.  169.254.1.0/24 is taken to be free without a look.

The second is put together in two steps.  First the test on characters is turned into one on
numbers (`keyInUse_getHostAddress`): a printed number begins with given digits if and only if it is
one of a few, and the comparison of `compareTo` looks at the first character that differs, so that
only the second octet matters.  Then the loop of the source is a filter on the candidates
(`kept_iff`): each address removes at most one of them, and the one selected is the first left.

The two halves of the theorem are `no_collision_iff` and `removed_iff`, each with a condition of its
own: that the subnet selected holds no address, and that only candidates whose subnet holds one are
removed.

The addresses of the interfaces are a list, in any order, and so are the entries of the map that
the source iterates over.
-/
import ShiroKhorshid.Vpn.Routes

namespace ShiroKhorshid.Vpn

open Jvm

/-! ## 1. The router -/

/-- **The router.**  Packets for the router go into the VPN below API 33; from API 33 on they do
exactly if no bypassed route that holds the router is longer than the route of the own subnet. -/
theorem gateway_routed_iff {pa : PrivateAddress} (hpa : pa ∈ candidates.map Prod.snd)
    (share : Bool) (bypass : List IpPrefix) (dns : Option String) (sdkInt : ℤ) :
    ∃ router calls, getByName pa.mRouter = some router ∧
      builderCalls sdkInt pa share (bypass.map IpPrefix.strings) dns = some calls ∧
      (RoutedIntoVpn calls router ↔
        sdkInt < 33 ∨ ∀ p ∈ bypass, p.Covers router →
          (p.length : ℤ) ≤ if share then 24 else pa.mPrefixLength) := by
  obtain ⟨own, router, hown, hlan, hlength, hrouter, hcovers⟩ := addOwnRoute_candidate hpa share
  rw [← hlength]
  by_cases hlegacy : sdkInt < 33
  · obtain ⟨-, calls, -, hcalls, -, hrouted⟩ := exists_builderCalls hown bypass dns
      (Int.le_refl 33) hlegacy
    refine ⟨router, calls, hrouter, hcalls, ?_⟩
    exact iff_of_true ((hrouted router).mpr (Or.inl hcovers)) (Or.inl hlegacy)
  · obtain ⟨calls, -, hcalls, -, hrouted, -⟩ := exists_builderCalls hown bypass dns
      (show 33 ≤ sdkInt by omega) (show (32 : ℤ) < 33 by decide)
    refine ⟨router, calls, hrouter, hcalls, ?_⟩
    rw [hrouted router]
    constructor
    · rintro (⟨-, hshort⟩ | ⟨hnot, -⟩)
      · right
        intro p hp hpc
        exact Int.ofNat_le.mpr (hshort p (List.mem_append_right _ hp) hpc)
      · exact absurd hcovers hnot
    · rintro (hless | hshort)
      · exact absurd hless hlegacy
      · refine Or.inl ⟨hcovers, ?_⟩
        intro p hp hpc
        rcases List.mem_append.mp hp with hp | hp
        · exact hlan p (List.mem_append_left _ hp)
        · exact Int.ofNat_le.mp (hshort p hp hpc)

/-- A bypassed route that is longer, and one that is not. -/
theorem gateway_routed_iff_longer :
    ∃ router calls, getByName "192.168.0.2" = some router ∧
      builderCalls 34 ⟨"192.168.0.1", "192.168.0.0", 16, "192.168.0.2"⟩ true
        ([rootPrefix, gatewayPrefix].map IpPrefix.strings) none = some calls ∧
      (RoutedIntoVpn calls router ↔
        (34 : ℤ) < 33 ∨ ∀ p ∈ [rootPrefix, gatewayPrefix], p.Covers router →
          (p.length : ℤ) ≤ if true then 24 else 16) :=
  @gateway_routed_iff ⟨"192.168.0.1", "192.168.0.0", 16, "192.168.0.2"⟩ (by decide) true
    [rootPrefix, gatewayPrefix] none 34

/-- The router itself, bypassed. -/
theorem gateway_not_routed :
    ¬ ∀ pa ∈ candidates.map Prod.snd, ∀ (share : Bool) (bypass : List IpPrefix)
      (dns : Option String) (sdkInt : ℤ), ∃ router calls, getByName pa.mRouter = some router ∧
        builderCalls sdkInt pa share (bypass.map IpPrefix.strings) dns = some calls ∧
        RoutedIntoVpn calls router := by
  intro h
  obtain ⟨router, calls, hrouter, hcalls, hrouted⟩ :=
    h ⟨"10.0.0.1", "10.0.0.0", 8, "10.0.0.2"⟩ (by decide) false [gatewayPrefix] none 33
  have hown : addOwnRoute false ⟨"10.0.0.1", "10.0.0.0", 8, "10.0.0.2"⟩
      = some (.addRoute ⟨0x0A000000#32, 8, by decide, by decide⟩) := by decide
  obtain ⟨calls', -, hcalls', -, hiff, -⟩ := exists_builderCalls hown [gatewayPrefix] none
    (Int.le_refl 33) (show (32 : ℤ) < 33 by decide)
  cases hcalls.symm.trans hcalls'
  have hname : getByName "10.0.0.2" = some gatewayPrefix.address := by decide
  cases hrouter.symm.trans hname
  rw [hiff] at hrouted
  exact absurd hrouted (by decide)

/-! ## 2. The first characters of a printed address -/

/-- `Inet4Address.getHostAddress` -/
def getHostAddress (a : BitVec 32) : String := longToIp (a.setWidth 64)

/-- The octet that begins at bit `n`. -/
def octet (a : BitVec 32) (n : ℕ) : ℕ := a.toNat / 2 ^ n % 256

theorem octet_lt_256 (a : BitVec 32) (n : ℕ) : octet a n < 256 := Nat.mod_lt _ (by decide)

theorem toList_octetString (a : BitVec 32) (n : ℕ) :
    (octetString (a.setWidth 64) n).toList = Nat.toDigits 10 (octet a n) := by
  rw [octetString, Nat.toString_eq_repr, Nat.toList_repr, octet_toNat, octet]

/-- The first two octets, and the rest. -/
theorem toList_getHostAddress (a : BitVec 32) :
    ∃ rest, (getHostAddress a).toList = Nat.toDigits 10 (octet a 24) ++ '.' ::
      (Nat.toDigits 10 (octet a 16) ++ '.' :: rest) := by
  refine ⟨Nat.toDigits 10 (octet a 8) ++ '.' :: Nat.toDigits 10 (octet a 0), ?_⟩
  simp [getHostAddress, longToIp, toList_octetString]

theorem dot_not_mem_toDigits (n : ℕ) : '.' ∉ Nat.toDigits 10 n := by
  intro h
  exact absurd (isDigit_of_mem_toDigits h) (by decide)

/-- Up to a dot, a prefix is a whole field. -/
theorem field_prefix_iff {fs ds gs rest : List Char} (hfs : '.' ∉ fs) (hds : '.' ∉ ds) :
    fs ++ '.' :: gs <+: ds ++ '.' :: rest ↔ fs = ds ∧ gs <+: rest := by
  induction fs generalizing ds with
  | nil =>
    cases ds with
    | nil => simp
    | cons d ds =>
      refine iff_of_false ?_ (fun h => List.cons_ne_nil _ _ h.1.symm)
      intro h
      obtain ⟨rfl, -⟩ := List.cons_prefix_cons.mp h
      exact hds List.mem_cons_self
  | cons f fs ih =>
    cases ds with
    | nil =>
      refine iff_of_false ?_ (fun h => List.cons_ne_nil _ _ h.1)
      intro h
      obtain ⟨rfl, -⟩ := List.cons_prefix_cons.mp h
      exact hfs List.mem_cons_self
    | cons d ds =>
      rw [List.cons_append, List.cons_append, List.cons_prefix_cons,
        ih (fun h => hfs (List.mem_cons_of_mem _ h)) (fun h => hds (List.mem_cons_of_mem _ h)),
        List.cons.injEq, and_assoc]

/-- Short of a dot, a prefix is a prefix of the field. -/
theorem prefix_field_iff {gs ds rest : List Char} (hgs : '.' ∉ gs) :
    gs <+: ds ++ '.' :: rest ↔ gs <+: ds := by
  induction gs generalizing ds with
  | nil => simp
  | cons g gs ih =>
    cases ds with
    | nil =>
      refine iff_of_false ?_ (by simp)
      intro h
      obtain ⟨rfl, -⟩ := List.cons_prefix_cons.mp h
      exact hgs List.mem_cons_self
    | cons d ds =>
      rw [List.cons_append, List.cons_prefix_cons, List.cons_prefix_cons,
        ih fun h => hgs (List.mem_cons_of_mem _ h)]

theorem toDigits_eq_iff {m n : ℕ} : Nat.toDigits 10 m = Nat.toDigits 10 n ↔ m = n := by
  constructor
  · intro h
    have hm := digitsFrom_toDigits m
    rw [h, digitsFrom_toDigits n] at hm
    exact (Option.some.inj hm).symm
  · rintro rfl
    rfl

/-! ### The comparison -/

theorem compareToLe_append (p x y : List Char) :
    compareToLe (p ++ x) (p ++ y) = compareToLe x y := by
  induction p with
  | nil => rfl
  | cons c p ih => simp [compareToLe, ih]

/-- What lies between two texts with a common prefix has this prefix. -/
theorem prefix_of_between {p x y s : List Char} (h : compareToLe (p ++ x) s = true)
    (h' : compareToLe s (p ++ y) = true) : p <+: s := by
  induction p generalizing s with
  | nil => exact List.nil_prefix
  | cons c p ih =>
    cases s with
    | nil => cases h
    | cons d s =>
      simp only [List.cons_append, compareToLe, Bool.or_eq_true, decide_eq_true_eq,
        Bool.and_eq_true, beq_iff_eq] at h h'
      rcases h with hlt | ⟨rfl, hle⟩
      · rcases h' with hlt' | ⟨rfl, -⟩
        · omega
        · exact absurd hlt (Nat.lt_irrefl _)
      · rcases h' with hlt' | ⟨-, hle'⟩
        · exact absurd hlt' (Nat.lt_irrefl _)
        · exact List.cons_prefix_cons.mpr ⟨rfl, ih hle hle'⟩

/-- The second octets whose first two characters lie between `16` and `31`. -/
def LooksPrivate (o : ℕ) : Prop := 16 ≤ o ∧ o ≤ 31 ∨ o = 2 ∨ o = 3 ∨ 160 ≤ o

instance (o : ℕ) : Decidable (LooksPrivate o) := inferInstanceAs (Decidable (_ ∨ _))

/-- The two characters are digits, or a digit and the dot after it. -/
theorem between_iff {o : ℕ} (h : o < 256) (rest : List Char) :
    (compareToLe ['1', '6'] ((Nat.toDigits 10 o ++ '.' :: rest).take 2) = true ∧
      compareToLe ((Nat.toDigits 10 o ++ '.' :: rest).take 2) ['3', '1'] = true) ↔
      LooksPrivate o := by
  have htake : (Nat.toDigits 10 o ++ '.' :: rest).take 2 = (Nat.toDigits 10 o ++ ['.']).take 2 := by
    have hlength : 1 ≤ (Nat.toDigits 10 o).length := List.length_pos_of_ne_nil Nat.toDigits_ne_nil
    rw [← List.singleton_append, ← List.append_assoc, List.take_append_of_le_length]
    rw [List.length_append, List.length_singleton]
    omega
  have hall : ∀ o < 256, (compareToLe ['1', '6'] ((Nat.toDigits 10 o ++ ['.']).take 2) = true ∧
      compareToLe ((Nat.toDigits 10 o ++ ['.']).take 2) ['3', '1'] = true) ↔ LooksPrivate o := by
    decide +kernel
  rw [htake]
  exact hall o h

/-- The comparison of the first six characters. -/
theorem between_172_iff (a : BitVec 32) :
    (6 ≤ (getHostAddress a).length ∧
      compareToLe "172.16".toList ((getHostAddress a).toList.take 6) = true ∧
      compareToLe ((getHostAddress a).toList.take 6) "172.31".toList = true) ↔
      octet a 24 = 172 ∧ LooksPrivate (octet a 16) := by
  obtain ⟨rest, hlist⟩ := toList_getHostAddress a
  have hlower : "172.16".toList = ['1', '7', '2', '.'] ++ ['1', '6'] := by decide
  have hupper : "172.31".toList = ['1', '7', '2', '.'] ++ ['3', '1'] := by decide
  have hfirst : ['1', '7', '2', '.'] = Nat.toDigits 10 172 ++ '.' :: [] := by decide
  rw [hlower, hupper, ← String.length_toList]
  by_cases h172 : octet a 24 = 172
  · have hlist' : (getHostAddress a).toList =
        ['1', '7', '2', '.'] ++ (Nat.toDigits 10 (octet a 16) ++ '.' :: rest) := by
      rw [hlist, h172, hfirst, List.append_assoc, List.cons_append, List.nil_append]
    have htake : (getHostAddress a).toList.take 6 =
        ['1', '7', '2', '.'] ++ (Nat.toDigits 10 (octet a 16) ++ '.' :: rest).take 2 := by
      rw [hlist']
      rfl
    have hsix : 6 ≤ (getHostAddress a).toList.length := by
      have hlength : 1 ≤ (Nat.toDigits 10 (octet a 16)).length :=
        List.length_pos_of_ne_nil Nat.toDigits_ne_nil
      rw [hlist']
      simp only [List.length_append, List.length_cons, List.length_nil]
      omega
    rw [htake, compareToLe_append, compareToLe_append, between_iff (octet_lt_256 a 16)]
    exact ⟨fun h => ⟨h172, h.2⟩, fun h => ⟨hsix, h.2⟩⟩
  · refine iff_of_false ?_ (fun h => h172 h.1)
    rintro ⟨-, hle, hle'⟩
    have hprefix := (prefix_of_between hle hle').trans (List.take_prefix _ _)
    rw [hlist, hfirst, field_prefix_iff (dot_not_mem_toDigits _) (dot_not_mem_toDigits _),
      toDigits_eq_iff] at hprefix
    exact h172 hprefix.1.symm

/-! ## 3. What is in use -/

/-- **The test in numbers.** -/
theorem keyInUse_getHostAddress (a : BitVec 32) :
    keyInUse (getHostAddress a) =
      if octet a 24 = 10 then some "10"
      else if octet a 24 = 172 ∧ LooksPrivate (octet a 16) then some "172"
      else if octet a 24 = 192 ∧ octet a 16 = 168 then some "192"
      else none := by
  obtain ⟨rest, hlist⟩ := toList_getHostAddress a
  have hfield := dot_not_mem_toDigits
  have h10 : "10.".toList.isPrefixOf (getHostAddress a).toList = true ↔ octet a 24 = 10 := by
    rw [List.isPrefixOf_iff_prefix, hlist,
      show "10.".toList = Nat.toDigits 10 10 ++ '.' :: [] by decide,
      field_prefix_iff (hfield _) (hfield _), toDigits_eq_iff]
    exact ⟨fun h => h.1.symm, fun h => ⟨h.symm, List.nil_prefix⟩⟩
  have h192 : "192.168".toList.isPrefixOf (getHostAddress a).toList = true ↔
      octet a 24 = 192 ∧ octet a 16 = 168 := by
    have hsecond : ∀ o < 256, Nat.toDigits 10 168 <+: Nat.toDigits 10 o ↔ o = 168 := by
      decide +kernel
    rw [List.isPrefixOf_iff_prefix, hlist,
      show "192.168".toList = Nat.toDigits 10 192 ++ '.' :: Nat.toDigits 10 168 by decide,
      field_prefix_iff (hfield _) (hfield _), prefix_field_iff (hfield _), toDigits_eq_iff,
      hsecond _ (octet_lt_256 a 16), eq_comm]
  unfold keyInUse
  simp only [h10, h192, between_172_iff]

/-- The candidates that are left after the loop. -/
def candidatesLeft (order : List (String × PrivateAddress)) (addresses : List String) :
    List (String × PrivateAddress) :=
  addresses.foldl (fun left ipAddress =>
    left.filter fun c => decide (keyInUse ipAddress ≠ some c.1)) order

theorem selectPrivateAddress_eq (order : List (String × PrivateAddress))
    (addresses : List String) :
    selectPrivateAddress order addresses = (candidatesLeft order addresses).head?.map Prod.snd :=
  rfl

/-- No address removes the candidate. -/
def kept (addresses : List String) (c : String × PrivateAddress) : Bool :=
  decide (∀ s ∈ addresses, keyInUse s ≠ some c.1)

theorem kept_iff {addresses : List String} {c : String × PrivateAddress} :
    kept addresses c = true ↔ ∀ s ∈ addresses, keyInUse s ≠ some c.1 := decide_eq_true_iff

theorem candidatesLeft_eq (order : List (String × PrivateAddress)) (addresses : List String) :
    candidatesLeft order addresses = order.filter (kept addresses) := by
  unfold kept
  induction addresses generalizing order with
  | nil => simp [candidatesLeft]
  | cons s addresses ih =>
    have hrest := ih (order.filter fun c => decide (keyInUse s ≠ some c.1))
    rw [candidatesLeft, List.foldl_cons]
    rw [candidatesLeft] at hrest
    rw [hrest, List.filter_filter]
    refine List.filter_congr ?_
    intro c _
    simp only [List.forall_mem_cons, Bool.decide_and, Bool.and_comm]

/-- The address lies in the subnet of the candidate. -/
def PrivateAddress.Contains (pa : PrivateAddress) (a : BitVec 32) : Prop :=
  ∃ own, addRoute pa.mSubnet pa.mPrefixLength = some (.addRoute own) ∧ own.Covers a

theorem contains_iff_covers {pa : PrivateAddress} (own : IpPrefix)
    (h : addRoute pa.mSubnet pa.mPrefixLength = some (.addRoute own)) (a : BitVec 32) :
    pa.Contains a ↔ own.Covers a := by
  constructor
  · rintro ⟨own', hown, hcovers⟩
    cases hown.symm.trans h
    exact hcovers
  · exact fun hcovers => ⟨own, h, hcovers⟩

theorem covers_iff_div (p : IpPrefix) (a : BitVec 32) :
    p.Covers a ↔ a.toNat / 2 ^ (32 - p.length) = p.address.toNat / 2 ^ (32 - p.length) := by
  rw [IpPrefix.Covers, ← BitVec.toNat_inj, BitVec.toNat_ushiftRight, BitVec.toNat_ushiftRight,
    Nat.shiftRight_eq_div_pow, Nat.shiftRight_eq_div_pow]

/-- The subnets in octets. -/
theorem contains_iff {c : String × PrivateAddress} (hc : c ∈ candidates) (a : BitVec 32) :
    c.2.Contains a ↔
      c.1 = "10" ∧ octet a 24 = 10 ∨
      c.1 = "172" ∧ octet a 24 = 172 ∧ 16 ≤ octet a 16 ∧ octet a 16 ≤ 31 ∨
      c.1 = "192" ∧ octet a 24 = 192 ∧ octet a 16 = 168 ∨
      c.1 = "169" ∧ octet a 24 = 169 ∧ octet a 16 = 254 ∧ octet a 8 = 1 := by
  have ha := a.isLt
  simp only [candidates, List.mem_cons, List.not_mem_nil, or_false] at hc
  unfold octet
  rcases hc with rfl | rfl | rfl | rfl
  · rw [contains_iff_covers ⟨0x0A000000#32, 8, by decide, by decide⟩ (by decide),
      covers_iff_div]
    simp
    omega
  · rw [contains_iff_covers ⟨0xAC100000#32, 12, by decide, by decide⟩ (by decide),
      covers_iff_div]
    simp
    omega
  · rw [contains_iff_covers ⟨0xC0A80000#32, 16, by decide, by decide⟩ (by decide),
      covers_iff_div]
    simp
    omega
  · rw [contains_iff_covers ⟨0xA9FE0100#32, 24, by decide, by decide⟩ (by decide),
      covers_iff_div]
    simp
    omega

/-- Taken for an address of 172.16.0.0/12: 172.2.0.0/16, 172.3.0.0/16 and everything from
172.160.0.0 on. -/
def TakenForPrivate (a : BitVec 32) : Prop :=
  octet a 24 = 172 ∧ (octet a 16 = 2 ∨ octet a 16 = 3 ∨ 160 ≤ octet a 16)

theorem keyInUse_eq_some_iff (a : BitVec 32) (key : String) :
    keyInUse (getHostAddress a) = some key ↔
      octet a 24 = 10 ∧ "10" = key ∨
      octet a 24 = 172 ∧ LooksPrivate (octet a 16) ∧ "172" = key ∨
      octet a 24 = 192 ∧ octet a 16 = 168 ∧ "192" = key := by
  rw [keyInUse_getHostAddress]
  split
  · rename_i h10
    simp [h10]
  · rename_i h10
    split
    · rename_i h172
      simp [h172.1, h172.2]
    · rename_i h172
      split
      · rename_i h192
        simp [h192.1, h192.2]
      · rename_i h192
        refine iff_of_false (fun h => Option.some_ne_none _ h.symm) ?_
        rintro (⟨h, -⟩ | ⟨h, hlooks, -⟩ | ⟨h, h', -⟩)
        · exact h10 h
        · exact h172 ⟨h, hlooks⟩
        · exact h192 ⟨h, h'⟩

/-- What removes a candidate: an address of its subnet, or one that is taken for such; but nothing
removes the last one. -/
theorem keyInUse_iff {c : String × PrivateAddress} (hc : c ∈ candidates) (a : BitVec 32) :
    keyInUse (getHostAddress a) = some c.1 ↔
      c.1 ≠ "169" ∧ c.2.Contains a ∨ c.1 = "172" ∧ TakenForPrivate a := by
  rw [keyInUse_eq_some_iff, contains_iff hc]
  simp only [candidates, List.mem_cons, List.not_mem_nil, or_false] at hc
  unfold TakenForPrivate LooksPrivate
  rcases hc with rfl | rfl | rfl | rfl
  · simp
  · simp
    omega
  · simp
  · simp

/-- A candidate is left if no address removes it. -/
theorem mem_candidatesLeft_iff {order : List (String × PrivateAddress)}
    {addresses : List (BitVec 32)} {c : String × PrivateAddress} :
    c ∈ candidatesLeft order (addresses.map getHostAddress) ↔
      c ∈ order ∧ ∀ a ∈ addresses, keyInUse (getHostAddress a) ≠ some c.1 := by
  rw [candidatesLeft_eq, List.mem_filter, kept_iff, List.forall_mem_map]

/-- No address lies in the subnet of the candidate or is taken for one that does. -/
def Unused (addresses : List (BitVec 32)) (c : String × PrivateAddress) : Prop :=
  ∀ a ∈ addresses, ¬ c.2.Contains a ∧ ¬ (c.1 = "172" ∧ TakenForPrivate a)

/-- Such a candidate is left. -/
theorem unused_iff {c : String × PrivateAddress} (hc : c ∈ candidates) (hkey : c.1 ≠ "169")
    (addresses : List (BitVec 32)) :
    Unused addresses c ↔ kept (addresses.map getHostAddress) c = true := by
  rw [kept_iff, List.forall_mem_map]
  refine forall_congr' fun a => imp_congr_right fun _ => ?_
  rw [ne_eq, keyInUse_iff hc, not_or]
  exact and_congr_left' ⟨fun h hin => h hin.2, fun h hin => h ⟨hkey, hin⟩⟩

/-! ## 4. The selection -/

/-- The candidates that come before 169.254.1.1. -/
def candidatesBefore (order : List (String × PrivateAddress)) : List (String × PrivateAddress) :=
  order.takeWhile fun c => c.1 ≠ "169"

theorem key_of_mem_candidatesBefore {order : List (String × PrivateAddress)}
    {c : String × PrivateAddress} (h : c ∈ candidatesBefore order) : c ∈ order ∧ c.1 ≠ "169" :=
  ⟨(List.takeWhile_prefix _).subset h, by simpa using List.mem_takeWhile_imp h⟩

theorem exists_candidatesBefore {order : List (String × PrivateAddress)}
    (horder : order.Perm candidates) :
    ∃ pa after, ("169", pa) ∈ candidates ∧
      order = candidatesBefore order ++ ("169", pa) :: after := by
  have hmem : ("169", ⟨"169.254.1.1", "169.254.1.0", 24, "169.254.1.2"⟩) ∈ order :=
    horder.mem_iff.mpr (by decide)
  have hsplit := List.takeWhile_append_dropWhile (p := fun c => decide (c.1 ≠ "169")) (l := order)
  cases hdrop : order.dropWhile (fun c => decide (c.1 ≠ "169")) with
  | nil =>
    rw [hdrop, List.append_nil] at hsplit
    rw [← hsplit] at hmem
    exact absurd rfl (key_of_mem_candidatesBefore hmem).2
  | cons c after =>
    have hkey : c.1 = "169" := by
      have hhead := List.head?_dropWhile_not (fun c => decide (c.1 ≠ "169")) order
      rw [hdrop] at hhead
      simpa using hhead
    obtain ⟨key, pa⟩ := c
    obtain rfl : key = "169" := hkey
    rw [hdrop] at hsplit
    refine ⟨pa, after, horder.mem_iff.mp ?_, hsplit.symm⟩
    rw [← hsplit]
    exact List.mem_append_right _ List.mem_cons_self

/-- **No collision**, unless an address lies in 169.254.1.0/24 and every candidate that comes before
it is removed. -/
theorem no_collision_iff {order : List (String × PrivateAddress)} (horder : order.Perm candidates)
    (addresses : List (BitVec 32)) :
    (∀ pa, selectPrivateAddress order (addresses.map getHostAddress) = some pa →
      ∀ a ∈ addresses, ¬ pa.Contains a) ↔
    ((∃ a ∈ addresses, octet a 24 = 169 ∧ octet a 16 = 254 ∧ octet a 8 = 1) →
      ∃ c ∈ candidatesBefore order, Unused addresses c) := by
  obtain ⟨pa169, after, hpa, hsplit⟩ := exists_candidatesBefore horder
  have hcontains : ∀ a, pa169.Contains a ↔
      octet a 24 = 169 ∧ octet a 16 = 254 ∧ octet a 8 = 1 := by
    intro a
    rw [contains_iff hpa]
    simp
  have hkept : kept (addresses.map getHostAddress) ("169", pa169) = true := by
    rw [kept_iff, List.forall_mem_map]
    intro a _
    rw [ne_eq, keyInUse_iff hpa]
    simp
  have hbefore : ∀ c ∈ candidatesBefore order, c ∈ candidates ∧ c.1 ≠ "169" := fun c hc =>
    ⟨horder.mem_iff.mp (key_of_mem_candidatesBefore hc).1, (key_of_mem_candidatesBefore hc).2⟩
  have hselect : selectPrivateAddress order (addresses.map getHostAddress) =
      ((candidatesBefore order).filter (kept (addresses.map getHostAddress)) ++
        [("169", pa169)]).head?.map Prod.snd := by
    rw [selectPrivateAddress_eq, candidatesLeft_eq]
    conv_lhs => rw [hsplit]
    rw [List.filter_append, List.filter_cons_of_pos hkept]
    cases (candidatesBefore order).filter (kept (addresses.map getHostAddress)) <;> rfl
  rw [hselect]
  cases hfirst : (candidatesBefore order).filter (kept (addresses.map getHostAddress)) with
  | nil =>
    -- all of them are removed
    have hnone : ¬ ∃ c ∈ candidatesBefore order, Unused addresses c := by
      rintro ⟨c, hc, hunused⟩
      have hmem := List.mem_filter.mpr
        ⟨hc, (unused_iff (hbefore c hc).1 (hbefore c hc).2 addresses).mp hunused⟩
      rw [hfirst] at hmem
      exact List.not_mem_nil hmem
    constructor
    · rintro h ⟨a, ha, hlocal⟩
      exact absurd ((hcontains a).mpr hlocal) (h pa169 rfl a ha)
    · intro h pa hpa a ha hin
      cases hpa
      exact hnone (h ⟨a, ha, (hcontains a).mp hin⟩)
  | cons c rest =>
    have hmem : c ∈ (candidatesBefore order).filter (kept (addresses.map getHostAddress)) := by
      rw [hfirst]
      exact List.mem_cons_self
    obtain ⟨hc, hfree⟩ := List.mem_filter.mp hmem
    have hunused := (unused_iff (hbefore c hc).1 (hbefore c hc).2 addresses).mpr hfree
    refine iff_of_true ?_ (fun _ => ⟨c, hc, hunused⟩)
    intro pa hpa a ha
    cases hpa
    exact (hunused a ha).1

/-- A candidate is removed for a reason, unless an address is taken for one of 172.16.0.0/12 and
none is. -/
theorem removed_iff {order : List (String × PrivateAddress)} (horder : order.Perm candidates)
    (addresses : List (BitVec 32)) :
    (∀ c ∈ candidates, c ∉ candidatesLeft order (addresses.map getHostAddress) →
      ∃ a ∈ addresses, c.2.Contains a) ↔
    ((∃ a ∈ addresses, TakenForPrivate a) →
      ∃ a ∈ addresses, octet a 24 = 172 ∧ 16 ≤ octet a 16 ∧ octet a 16 ≤ 31) := by
  have h172 : ("172", ⟨"172.16.0.1", "172.16.0.0", 12, "172.16.0.2"⟩) ∈ candidates := by decide
  have hcontains : ∀ pa, ("172", pa) ∈ candidates → ∀ a, pa.Contains a ↔
      octet a 24 = 172 ∧ 16 ≤ octet a 16 ∧ octet a 16 ≤ 31 := by
    intro pa hpa a
    rw [contains_iff hpa]
    simp
  have hremoved : ∀ c ∈ candidates, c ∉ candidatesLeft order (addresses.map getHostAddress) ↔
      ∃ a ∈ addresses, keyInUse (getHostAddress a) = some c.1 := by
    intro c hc
    rw [mem_candidatesLeft_iff]
    simp [horder.mem_iff.mpr hc]
  constructor
  · rintro h ⟨a, ha, htaken⟩
    obtain ⟨a', ha', hin⟩ := h _ h172 ((hremoved _ h172).mpr
      ⟨a, ha, (keyInUse_iff h172 a).mpr (Or.inr ⟨rfl, htaken⟩)⟩)
    exact ⟨a', ha', (hcontains _ h172 a').mp hin⟩
  · intro h c hc hnot
    obtain ⟨a, ha, hkey⟩ := (hremoved c hc).mp hnot
    rcases (keyInUse_iff hc a).mp hkey with ⟨-, hin⟩ | ⟨hkey, htaken⟩
    · exact ⟨a, ha, hin⟩
    · obtain ⟨a', ha', hoctets⟩ := h ⟨a, ha, htaken⟩
      obtain ⟨key, pa⟩ := c
      obtain rfl : key = "172" := hkey
      exact ⟨a', ha', (hcontains pa hc a').mpr hoctets⟩

/-- **When the selection is right.**  Whatever the addresses and the order in which the candidates
come: the subnet selected holds no address, and only candidates whose subnet does are removed,
exactly if the two conditions hold. -/
theorem selectPrivateAddress_iff (order : List (String × PrivateAddress))
    (horder : order.Perm candidates) (addresses : List (BitVec 32)) :
    ((∀ pa, selectPrivateAddress order (addresses.map getHostAddress) = some pa →
        ∀ a ∈ addresses, ¬ pa.Contains a) ∧
      ∀ c ∈ candidates, c ∉ candidatesLeft order (addresses.map getHostAddress) →
        ∃ a ∈ addresses, c.2.Contains a) ↔
    ((∃ a ∈ addresses, octet a 24 = 169 ∧ octet a 16 = 254 ∧ octet a 8 = 1) →
        ∃ c ∈ candidatesBefore order, Unused addresses c) ∧
      ((∃ a ∈ addresses, TakenForPrivate a) →
        ∃ a ∈ addresses, octet a 24 = 172 ∧ 16 ≤ octet a 16 ∧ octet a 16 ≤ 31) :=
  and_congr (no_collision_iff horder addresses) (removed_iff horder addresses)

/-- A home network and a hotspot, in the order of the source. -/
theorem selectPrivateAddress_iff_home :
    ((∀ pa, selectPrivateAddress candidates
        ([0xC0A80105#32, 0xAC140A02#32].map getHostAddress) = some pa →
        ∀ a ∈ [0xC0A80105#32, 0xAC140A02#32], ¬ pa.Contains a) ∧
      ∀ c ∈ candidates,
        c ∉ candidatesLeft candidates ([0xC0A80105#32, 0xAC140A02#32].map getHostAddress) →
        ∃ a ∈ [0xC0A80105#32, 0xAC140A02#32], c.2.Contains a) ↔
    ((∃ a ∈ [0xC0A80105#32, 0xAC140A02#32],
        octet a 24 = 169 ∧ octet a 16 = 254 ∧ octet a 8 = 1) →
        ∃ c ∈ candidatesBefore candidates, Unused [0xC0A80105#32, 0xAC140A02#32] c) ∧
      ((∃ a ∈ [0xC0A80105#32, 0xAC140A02#32], TakenForPrivate a) →
        ∃ a ∈ [0xC0A80105#32, 0xAC140A02#32],
          octet a 24 = 172 ∧ 16 ≤ octet a 16 ∧ octet a 16 ≤ 31) :=
  selectPrivateAddress_iff candidates (List.Perm.refl _) [0xC0A80105#32, 0xAC140A02#32]

/-- With 169.254.1.1 first, it is selected beside 169.254.1.5; and 172.160.0.1, which is a public
address, removes 172.16.0.1. -/
theorem selection_errs :
    (∃ pa, selectPrivateAddress candidates.reverse ([0xA9FE0105#32].map getHostAddress) = some pa ∧
      pa.Contains 0xA9FE0105#32) ∧
    ("172", ⟨"172.16.0.1", "172.16.0.0", 12, "172.16.0.2"⟩) ∈ candidates ∧
    ("172", ⟨"172.16.0.1", "172.16.0.0", 12, "172.16.0.2"⟩) ∉
      candidatesLeft candidates ([0xACA00001#32].map getHostAddress) ∧
    ¬ PrivateAddress.Contains ⟨"172.16.0.1", "172.16.0.0", 12, "172.16.0.2"⟩ 0xACA00001#32 := by
  refine ⟨⟨⟨"169.254.1.1", "169.254.1.0", 24, "169.254.1.2"⟩, by decide +kernel,
    ⟨0xA9FE0100#32, 24, by decide, by decide⟩, by decide, by decide⟩, by decide,
    by decide +kernel, ?_⟩
  rw [contains_iff_covers ⟨0xAC100000#32, 12, by decide, by decide⟩ (by decide)]
  decide

end ShiroKhorshid.Vpn
