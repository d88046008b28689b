/-
# Which routes are accepted (`BypassRoutes.parse`)

A route is an address, or an address and a prefix length: four numbers up to 255 with dots between
them, a slash, a number up to 32.  `BypassRoutes.parse` accepts each of these and makes the route
to the network of it (`RouteTo`).  But it leaves the numbers to `toIntOrNull`, so it accepts
`+10.0.0.0/8` as well, and digits that are not ASCII.

* `Denotes` is the format, on texts that have been trimmed; `Taken` is what the parser takes, with
  the numbers read as `toIntOrNull` reads them (`taken_iff`, `parseRoute_eq_some_iff`).
* What it makes of either is the network: the host bits are cleared, the mask is the one of the
  length, and the two are printed (`routeTo_routeOf`).
* Where a text has ASCII digits, dots and a slash only, the two readings of its numbers are the
  same, and so are the two formats.

`parse_exact_iff` says that signs and other digits are all the parser gets wrong, and when they
matter: in a text that would be a route if they were plain digits.

White space at the ends is trimmed as Kotlin does it.  Entries in a list are the subject of
`Comments`.
-/
import ShiroKhorshid.Bypass.Union
import ShiroKhorshid.Dotted
import ShiroKhorshid.Lib.Cut

namespace ShiroKhorshid.Bypass

open Jvm Vpn Service Dotted

/-! ## 1. What a text denotes -/

/-- The address of four octets. -/
def addressOf (octets : List ℕ) : BitVec 32 :=
  BitVec.ofNat 32 (octets.foldl (fun address octet => address * 256 + octet) 0)

/-- The mask of a prefix length. -/
def maskOf (n : ℕ) : BitVec 32 := BitVec.allOnes 32 <<< (32 - n)

/-- The dotted quad of an address. -/
def dotted (a : BitVec 32) : String := longToIp (a.setWidth 64)

/-- The text of a route without its white space. -/
def trimmed (entry : String) : List Char := (kotlinTrim entry).toList

/-- What the entry is, in the notation that is meant. -/
abbrev Denotes : List Char → List ℕ → ℕ → Prop := Entry Numeral Numeral

/-- What the entry is, in the notation that is taken. -/
abbrev Taken : List Char → List ℕ → ℕ → Prop := Entry Lenient Lenient

/-- A route covers the addresses that its mask turns into its address. -/
def Covers (r : BypassRoute) (x : BitVec 32) : Prop :=
  ∃ network mask, getByName r.address = some network ∧ getByName r.mask = some mask ∧
    x &&& mask = network

/-- The canonical route to the network of `a` with prefix length `n`. -/
structure RouteTo (r : BypassRoute) (a : BitVec 32) (n : ℕ) : Prop where
  address : r.address = dotted (a &&& maskOf n)
  mask : r.mask = dotted (maskOf n)
  length : r.prefixLength = n
  covers : ∀ x, Covers r x ↔ x >>> (32 - n) = a >>> (32 - n)

/-- An entry is accepted if it denotes something, and is the route to that. -/
structure ParsedExactly (entry : String) : Prop where
  accepts : (parseRoute entry).isSome = true ↔ ∃ octets n, Denotes (trimmed entry) octets n
  route : ∀ octets n r, Denotes (trimmed entry) octets n → parseRoute entry = some r →
    RouteTo r (addressOf octets) n

/-! ## 2. What the parser takes -/

/-- `toIntOrNull` and the check of its range, on every part. -/
theorem forall₂_octets_iff {parts : List (List Char)} {octets : List ℤ} :
    List.Forall₂ (fun part v => (parseInt (String.ofList part)).filter
      (fun v => 0 ≤ v && v ≤ 255) = some v) parts octets ↔
    ∃ ns : List ℕ, octets = ns.map Nat.cast ∧
      List.Forall₂ (fun part n => n ≤ 255 ∧ Lenient part n) parts ns := by
  have hfilter : ∀ (part : List Char) (v : ℤ),
      (parseInt (String.ofList part)).filter (fun v => 0 ≤ v && v ≤ 255) = some v ↔
        ∃ n : ℕ, v = n ∧ n ≤ 255 ∧ Lenient part n := fun part v =>
    parseInt_filter_eq_some_iff (by decide)
  induction parts generalizing octets with
  | nil => simp
  | cons part parts ih =>
    rw [List.forall₂_cons_left_iff]
    constructor
    · rintro ⟨v, vs, hv, hvs, rfl⟩
      obtain ⟨n, rfl, hn⟩ := (hfilter part v).mp hv
      obtain ⟨ns, rfl, hns⟩ := ih.mp hvs
      exact ⟨n :: ns, rfl, List.Forall₂.cons hn hns⟩
    · rintro ⟨ns, rfl, hall⟩
      obtain ⟨n, ns, hn, hns, rfl⟩ := List.forall₂_cons_left_iff.mp hall
      exact ⟨n, ns.map Nat.cast, (hfilter part n).mpr ⟨n, rfl, hn⟩, ih.mpr ⟨ns, rfl, hns⟩, rfl⟩

theorem ipv4Octets_eq_some_iff {ip : String} {octets : List ℤ} :
    ipv4Octets ip = some octets ↔
      ∃ ns : List ℕ, octets = ns.map Nat.cast ∧ Quad Lenient ip.toList ns := by
  have hdot : ∀ cs n, Lenient cs n → '.' ∉ cs := fun _ _ h => h.dot_not_mem
  have hlength : (split ip '.').length = (ip.toList.splitOn '.').length := List.length_map _
  have hmapM : (split ip '.').mapM (fun c => (parseInt c).filter fun v => 0 ≤ v && v ≤ 255) =
      (ip.toList.splitOn '.').mapM fun part =>
        (parseInt (String.ofList part)).filter fun v => 0 ≤ v && v ≤ 255 := List.mapM_map
  rw [ipv4Octets, hlength]
  simp only [quad_iff_splitOn hdot]
  split
  · rename_i hne
    constructor
    · intro h
      cases h
    · rintro ⟨ns, -, hfour, hns⟩
      exact absurd (hns.length_eq.trans hfour) hne
  · rename_i heq
    rw [hmapM, mapM_eq_some_iff, forall₂_octets_iff]
    refine exists_congr fun ns => and_congr_right fun _ => ?_
    constructor
    · intro hns
      exact ⟨hns.length_eq.symm.trans (not_not.mp heq), hns⟩
    · exact fun h => h.2

/-- The address of the octets, put together by the parser. -/
theorem rawOf_map_cast {ns : List ℕ} (hfour : ns.length = 4) (hns : ∀ n ∈ ns, n ≤ 255) :
    rawOf (ns.map Nat.cast) = (addressOf ns).setWidth 64 := by
  obtain ⟨a, b, c, d, rfl⟩ := List.length_eq_four.mp hfour
  have ha := hns a (by simp)
  have hb := hns b (by simp)
  have hc := hns c (by simp)
  have hd := hns d (by simp)
  have haddress : (addressOf [a, b, c, d]).toNat = ((a * 256 + b) * 256 + c) * 256 + d := by
    simp only [addressOf, List.foldl_cons, List.foldl_nil, BitVec.toNat_ofNat]
    omega
  have hoctets : octetsOf ((addressOf [a, b, c, d]).setWidth 64) = [a, b, c, d].map Nat.cast := by
    simp only [octetsOf, List.map_cons, List.map_nil, octet_toNat, haddress]
    congr 1
    · omega
    congr 1
    · omega
    congr 1
    · omega
    congr 1
    omega
  rw [← hoctets]
  exact rawOf_octetsOf _

/-- Where an entry is cut. -/
theorem splitSlash_cases (s : String) :
    ('/' ∉ s.toList ∧ splitSlash s = [s]) ∨
      ∃ pre post : List Char, s.toList = pre ++ '/' :: post ∧ '/' ∉ pre ∧
        splitSlash s = [String.ofList pre, String.ofList post] := by
  by_cases hslash : '/' ∈ s.toList
  · right
    obtain ⟨pre, post, hcut, hpre⟩ := List.eq_append_cons_of_mem hslash
    have hjoin : s = String.ofList pre ++ "/" ++ String.ofList post := by
      refine String.toList_inj.mp ?_
      simp [hcut]
    refine ⟨pre, post, hcut, hpre, ?_⟩
    rw [hjoin]
    exact splitSlash_join (by rwa [String.toList_ofList])
  · exact Or.inl ⟨hslash, splitSlash_of_not_mem hslash⟩

/-- The address and the prefix length of an entry, as the parser finds them. -/
theorem taken_iff {s : String} {octets : List ℕ} {n : ℕ} :
    Taken s.toList octets n ↔
      Quad Lenient ((splitSlash s).headD "").toList octets ∧
        entryPrefix (splitSlash s) = some (n : ℤ) := by
  rcases splitSlash_cases s with ⟨hslash, hsplit⟩ | ⟨pre, post, hcut, hpre, hsplit⟩
  · rw [hsplit, List.headD_cons]
    constructor
    · intro h
      generalize hcs : s.toList = cs at h
      cases h with
      | address hquad => exact ⟨hcs ▸ hquad, rfl⟩
      | network => exact absurd (by rw [hcs]; simp) hslash
    · rintro ⟨hquad, hlength⟩
      obtain rfl : 32 = n := by
        have := Option.some.inj hlength
        omega
      exact Entry.address hquad
  · rw [hsplit, List.headD_cons, String.toList_ofList, hcut, entryPrefix]
    have hlength := fun v => @parseInt_filter_eq_some_iff post 32 (by decide) v
    constructor
    · intro h
      generalize hcs : pre ++ '/' :: post = cs at h
      cases h with
      | address hquad => exact absurd (by rw [← hcs]; simp) (hquad.slash_not_mem)
      | @network ds ls _ _ hquad hn hls =>
        obtain ⟨rfl, rfl⟩ := Cut.append_cons_inj hcs hpre (hquad.slash_not_mem)
        exact ⟨hquad, (hlength _).mpr ⟨n, rfl, hn, hls⟩⟩
    · rintro ⟨hquad, h⟩
      obtain ⟨m, hm, hle, hls⟩ := (hlength _).mp h
      obtain rfl : n = m := by omega
      exact Entry.network hquad hle hls

/-- **What the parser accepts, and what it makes of it.** -/
theorem parseRoute_eq_some_iff {entry : String} {r : BypassRoute} :
    parseRoute entry = some r ↔
      ∃ octets n, Taken (trimmed entry) octets n ∧ r = routeOf (addressOf octets) n := by
  have hroute : ∀ {octets : List ℕ} {n : ℕ}, Taken (trimmed entry) octets n →
      (⟨longToIp (rawOf (octets.map Nat.cast) &&& bypassMask n), longToIp (bypassMask n), n⟩ :
        BypassRoute) = routeOf (addressOf octets) n := by
    intro octets n h
    obtain ⟨hfour, hle⟩ := h.octets
    rw [rawOf_map_cast hfour hle]
    rfl
  have hempty : ∀ {octets : List ℕ} {n : ℕ}, kotlinTrim entry = "" →
      ¬ Taken (trimmed entry) octets n := by
    intro octets n hblank h
    rw [trimmed, hblank, taken_iff] at h
    have hfour := h.1.1
    obtain ⟨-, hparts⟩ :=
      (quad_iff_splitOn fun cs n (hn : Lenient cs n) => hn.dot_not_mem).mp h.1
    have hone := hparts.length_eq
    rw [hfour] at hone
    exact absurd hone (by decide)
  rw [parseRoute]
  split
  · rename_i hblank
    constructor
    · intro h
      cases h
    · rintro ⟨octets, n, h, -⟩
      exact absurd h (hempty hblank)
  · constructor
    · intro h
      obtain ⟨m, hm, h⟩ := Option.bind_eq_some_iff.mp h
      obtain ⟨vs, hvs, h⟩ := Option.bind_eq_some_iff.mp h
      obtain ⟨octets, rfl, hquad⟩ := ipv4Octets_eq_some_iff.mp hvs
      obtain ⟨n, rfl⟩ := Int.eq_ofNat_of_zero_le (range_of_entryPrefix hm).1
      have htaken : Taken (trimmed entry) octets n := taken_iff.mpr ⟨hquad, hm⟩
      exact ⟨octets, n, htaken, (Option.some.inj h).symm.trans (hroute htaken)⟩
    · rintro ⟨octets, n, htaken, rfl⟩
      obtain ⟨hquad, hm⟩ := taken_iff.mp htaken
      simp only [hm, ipv4Octets_eq_some_iff.mpr ⟨octets, rfl, hquad⟩, Option.bind_eq_bind,
        Option.bind_some]
      exact congrArg some (hroute htaken)

/-! ## 3. The route -/

theorem and_maskOf (a : BitVec 32) (n : ℕ) : a &&& maskOf n = a >>> (32 - n) <<< (32 - n) := by
  ext i hi
  by_cases hlow : i < 32 - n
  · simp [maskOf, hlow, -BitVec.reduceAllOnes]
  · have hcancel : 32 - n + (i - (32 - n)) = i := by omega
    simp [maskOf, hlow, hi, hcancel, -BitVec.reduceAllOnes]

/-- Only the low half of the mask is printed. -/
theorem longToIp_bypassMask {n : ℕ} (hn : n ≤ 32) :
    longToIp (bypassMask n) = dotted (maskOf n) := by
  have hoctet : ∀ k ∈ [24, 16, 8, 0], (bypassMask n).sshiftRight k &&& 0xFF#64 =
      ((maskOf n).setWidth 64).sshiftRight k &&& 0xFF#64 := by
    interval_cases n <;> decide
  simp only [List.forall_mem_cons] at hoctet
  obtain ⟨h24, h16, h8, h0, -⟩ := hoctet
  simp only [dotted, longToIp, octetString, h24, h16, h8, h0]

theorem shift_inj {a x : BitVec 32} {k : ℕ} :
    x >>> k <<< k = a >>> k <<< k ↔ x >>> k = a >>> k := by
  constructor
  · intro h
    have hback : ∀ b : BitVec 32, b >>> k <<< k >>> k = b >>> k := by
      intro b
      ext i hi
      by_cases hbit : k + i < 32
      · simp [hbit]
      · simp [Nat.not_lt.mp hbit]
    rw [← hback x, h, hback]
  · intro h
    rw [h]

theorem routeTo_routeOf (a : BitVec 32) {n : ℕ} (hn : n ≤ 32) : RouteTo (routeOf a n) a n := by
  have haddress : (routeOf a n).address = dotted (a &&& maskOf n) := by
    rw [and_maskOf, dotted, ← and_bypassMask a hn]
    rfl
  refine ⟨haddress, longToIp_bypassMask hn, rfl, fun x => ?_⟩
  rw [Covers, haddress, show (routeOf a n).mask = dotted (maskOf n) from longToIp_bypassMask hn,
    dotted, dotted, getByName_longToIp, getByName_longToIp, ← shift_inj, ← and_maskOf, ← and_maskOf]
  constructor
  · rintro ⟨network, mask, hnetwork, hmask, h⟩
    rw [Option.some.inj hnetwork, Option.some.inj hmask]
    exact h
  · exact fun h => ⟨_, _, rfl, rfl, h⟩

/-! ## 4. Exactness -/

theorem isSome_parseRoute_iff {entry : String} :
    (parseRoute entry).isSome = true ↔ ∃ octets n, Taken (trimmed entry) octets n := by
  rw [Option.isSome_iff_exists]
  constructor
  · rintro ⟨r, hr⟩
    obtain ⟨octets, n, h, -⟩ := parseRoute_eq_some_iff.mp hr
    exact ⟨octets, n, h⟩
  · rintro ⟨octets, n, h⟩
    exact ⟨_, parseRoute_eq_some_iff.mpr ⟨octets, n, h, rfl⟩⟩

/-- **Which entries are parsed exactly.**  Those written with ASCII digits, dots and a slash only,
and those that are refused even if a sign or a digit of another script is taken for one. -/
theorem parse_exact_iff (entry : String) :
    ParsedExactly entry ↔
      (∀ c ∈ trimmed entry, Plain c) ∨ ¬ ∃ octets n, Taken (trimmed entry) octets n := by
  have htaken : ∀ {octets n}, Denotes (trimmed entry) octets n → Taken (trimmed entry) octets n :=
    fun h => h.mono (fun _ _ => Numeral.lenient) fun _ _ => Numeral.lenient
  have hroute : ∀ octets n r, Denotes (trimmed entry) octets n → parseRoute entry = some r →
      RouteTo r (addressOf octets) n := by
    intro octets n r h hr
    rw [parseRoute_eq_some_iff.mpr ⟨octets, n, htaken h, rfl⟩] at hr
    obtain rfl := Option.some.inj hr
    exact routeTo_routeOf _ h.length_le
  constructor
  · intro h
    by_cases hsome : ∃ octets n, Taken (trimmed entry) octets n
    · obtain ⟨octets, n, hdenotes⟩ := h.accepts.mp (isSome_parseRoute_iff.mpr hsome)
      exact Or.inl hdenotes.ascii
    · exact Or.inr hsome
  · intro h
    refine ⟨?_, hroute⟩
    rw [isSome_parseRoute_iff]
    constructor
    · rintro ⟨octets, n, hsome⟩
      exact ⟨octets, n, hsome.numeral (h.resolve_right fun hnone => hnone ⟨octets, n, hsome⟩)⟩
    · rintro ⟨octets, n, hdenotes⟩
      exact ⟨octets, n, htaken hdenotes⟩

/-- **A sign is accepted.** -/
theorem signed_route_accepted :
    parseRoute "+10.0.0.0/8" = some ⟨"10.0.0.0", "255.0.0.0", 8⟩ ∧
      ¬ ParsedExactly "+10.0.0.0/8" := by
  have hparsed : parseRoute "+10.0.0.0/8" = some ⟨"10.0.0.0", "255.0.0.0", 8⟩ := by decide +kernel
  refine ⟨hparsed, fun h => ?_⟩
  obtain ⟨octets, n, hdenotes⟩ := h.accepts.mp (by rw [hparsed]; rfl)
  have hplain := hdenotes.ascii '+' (by decide +kernel)
  exact absurd hplain (by decide)

end ShiroKhorshid.Bypass
