/-
# Routes written down and read back

Both lists of bypassed routes that the app keeps between runs, the Iranian networks and the
addresses that domains resolved to, are kept as text and parsed again by `BypassRoutes` when they
are used.  A route that the parser produced is `Canonical`: its address is a dotted quad without
host bits, its mask the mask of its length.  What is written of a canonical route is parsed back
to that route, and a list of them to that list.

* **What is parsed is canonical** (`canonical_of_parseRoute`): the octets and the length are in
  their ranges, and the shifts put them together without overlap.
* **The text of a route** has none of the characters a list is cut at (`Plain`), so that trimming
  and cutting leave it alone.
* **One route** is parsed back by the two parts of its text (`parseRoute_cidr`), or of its address
  alone where that is what is kept (`parseRoute_longToIp`).
* **A list** is parsed back in its order, since it names no route twice
  (`parseBlob_joinToString`).

Nothing is said of texts that were not written by the program: those are for `Grammar`.
-/
import ShiroKhorshid.Lib.Linked
import ShiroKhorshid.Service.Bypass

namespace ShiroKhorshid.Bypass

open Jvm Vpn Service

/-! ## 1. Canonical routes -/

/-- `BypassRoute.cidr`. -/
def cidr (r : BypassRoute) : String := r.address ++ "/" ++ toString r.prefixLength

/-- The route to a network, given by an address of it and its length. -/
def routeOf (a : BitVec 32) (n : ℕ) : BypassRoute :=
  ⟨longToIp (a.setWidth 64 &&& bypassMask n), longToIp (bypassMask n), n⟩

/-- A route as the parser produces them. -/
def Canonical (r : BypassRoute) : Prop := ∃ a n, n ≤ 32 ∧ r = routeOf a n

/-- The four numbers of a dotted quad. -/
def octetsOf (ip : BitVec 64) : List ℤ :=
  [24, 16, 8, 0].map fun n => ((ip.sshiftRight n &&& 0xFF#64).toNat : ℤ)

theorem ipv4Octets_longToIp (ip : BitVec 64) : ipv4Octets (longToIp ip) = some (octetsOf ip) := by
  have hoctet : ∀ n, (parseInt (octetString ip n)).filter (fun v => 0 ≤ v && v ≤ 255) =
      some ((ip.sshiftRight n &&& 0xFF#64).toNat : ℤ) := by
    intro n
    have hlt := octet_lt ip n
    rw [octetString, parseInt_toString (by omega)]
    refine Option.filter_eq_some_iff.mpr ⟨rfl, ?_⟩
    simp only [Bool.and_eq_true, decide_eq_true_eq]
    omega
  rw [ipv4Octets, split_longToIp]
  simp [hoctet, octetsOf]

/-- The number of a dotted quad, put together by the parser. -/
def rawOf (octets : List ℤ) : BitVec 64 :=
  let octet := fun i => BitVec.ofInt 64 (octets.getD i 0)
  shl (octet 0) 24 ||| shl (octet 1) 16 ||| shl (octet 2) 8 ||| octet 3

theorem rawOf_octetsOf (a : BitVec 32) : rawOf (octetsOf (a.setWidth 64)) = a.setWidth 64 := by
  have hcast : ∀ n, BitVec.ofInt 64 (((a.setWidth 64).sshiftRight n &&& 0xFF#64).toNat : ℤ)
      = (a.setWidth 64).sshiftRight n &&& 0xFF#64 := by
    intro n
    rw [BitVec.ofInt_natCast, BitVec.ofNat_toNat, BitVec.setWidth_eq]
  simp only [rawOf, octetsOf, List.map_cons, List.map_nil, List.getD_cons_zero,
    List.getD_cons_succ, hcast]
  exact octets_or a

theorem shl_lt {x : BitVec 64} (hx : x.toNat < 2 ^ 8) {n : ℕ} (hn : n ≤ 24) :
    (x <<< n).toNat < 2 ^ 32 := by
  rw [BitVec.toNat_shiftLeft, Nat.shiftLeft_eq]
  have hmul : x.toNat * 2 ^ n < 2 ^ 8 * 2 ^ 24 :=
    Nat.mul_lt_mul_of_lt_of_le hx (Nat.pow_le_pow_right (by decide) hn) (by decide)
  exact (Nat.mod_le _ _).trans_lt hmul

/-- Four octets make an address of 32 bits. -/
theorem exists_rawOf {octets : List ℤ} (h : ∀ v ∈ octets, 0 ≤ v ∧ v ≤ 255) :
    ∃ a : BitVec 32, rawOf octets = a.setWidth 64 := by
  have hoctet : ∀ i, (BitVec.ofInt 64 (octets.getD i 0)).toNat < 2 ^ 8 := by
    intro i
    have hrange : 0 ≤ octets.getD i 0 ∧ octets.getD i 0 ≤ 255 := by
      rw [List.getD_eq_getElem?_getD]
      cases hv : octets[i]? with
      | none => decide
      | some v => exact h v (List.mem_of_getElem? hv)
    rw [BitVec.toNat_ofInt]
    omega
  have hraw : (rawOf octets).toNat < 2 ^ 32 := by
    have h0 : ∀ i, (BitVec.ofInt 64 (octets.getD i 0)).toNat < 2 ^ 32 := fun i =>
      (hoctet i).trans (by decide)
    rw [rawOf]
    simp only [BitVec.toNat_or]
    exact Nat.or_lt_two_pow (Nat.or_lt_two_pow (Nat.or_lt_two_pow
      (shl_lt (hoctet 0) (by decide)) (shl_lt (hoctet 1) (by decide)))
      (shl_lt (hoctet 2) (by decide))) (h0 3)
  refine ⟨(rawOf octets).setWidth 32, BitVec.eq_of_toNat_eq ?_⟩
  rw [BitVec.toNat_setWidth, BitVec.toNat_setWidth, Nat.mod_eq_of_lt hraw,
    Nat.mod_eq_of_lt (hraw.trans (by decide))]

/-- What the octets of a parsed quad are. -/
theorem range_of_ipv4Octets {ip : String} {octets : List ℤ} (h : ipv4Octets ip = some octets) :
    ∀ v ∈ octets, 0 ≤ v ∧ v ≤ 255 := by
  have hmapM : ∀ (parts : List String) (octets : List ℤ),
      (parts.mapM fun c => (parseInt c).filter fun v => 0 ≤ v && v ≤ 255) = some octets →
        ∀ v ∈ octets, 0 ≤ v ∧ v ≤ 255 := by
    intro parts
    induction parts with
    | nil =>
      rintro octets h v hv
      obtain rfl := Option.some.inj h
      cases hv
    | cons part parts ih =>
      intro octets h v hv
      rw [List.mapM_cons] at h
      obtain ⟨first, hfirst, h⟩ := Option.bind_eq_some_iff.mp h
      obtain ⟨rest, hrest, h⟩ := Option.bind_eq_some_iff.mp h
      obtain rfl := Option.some.inj h
      rcases List.mem_cons.mp hv with rfl | hv
      · obtain ⟨-, hrange⟩ := Option.filter_eq_some_iff.mp hfirst
        simpa only [Bool.and_eq_true, decide_eq_true_eq] using hrange
      · exact ih rest hrest v hv
  rw [ipv4Octets] at h
  split at h
  · cases h
  · exact hmapM _ octets h

theorem range_of_entryPrefix {parts : List String} {n : ℤ} (h : entryPrefix parts = some n) :
    0 ≤ n ∧ n ≤ 32 := by
  unfold entryPrefix at h
  split at h
  · obtain ⟨-, hrange⟩ := Option.filter_eq_some_iff.mp h
    simpa only [Bool.and_eq_true, decide_eq_true_eq] using hrange
  · obtain rfl := Option.some.inj h
    decide

/-- **What is parsed is canonical.** -/
theorem canonical_of_parseRoute {entry : String} {r : BypassRoute}
    (h : parseRoute entry = some r) : Canonical r := by
  rw [parseRoute] at h
  split at h
  · cases h
  · obtain ⟨n, hn, h⟩ := Option.bind_eq_some_iff.mp h
    obtain ⟨octets, hoctets, h⟩ := Option.bind_eq_some_iff.mp h
    obtain ⟨a, ha⟩ := exists_rawOf (range_of_ipv4Octets hoctets)
    obtain ⟨hlow, hhigh⟩ := range_of_entryPrefix hn
    obtain ⟨n, rfl⟩ := Int.eq_ofNat_of_zero_le hlow
    refine ⟨a, n, by omega, ?_⟩
    rw [← Option.some.inj h]
    change (⟨longToIp (rawOf octets &&& _), _, _⟩ : BypassRoute) = _
    rw [ha]
    rfl

/-! ## 2. The text of a route -/

/-- A character of a written route. -/
def Plain (c : Char) : Prop := c.isDigit = true ∨ c = '.' ∨ c = '/'

theorem plain_longToIp (ip : BitVec 64) :
    ∀ c ∈ (longToIp ip).toList, c.isDigit = true ∨ c = '.' := by
  have hoctet : ∀ n, ∀ c ∈ (octetString ip n).toList, c.isDigit = true := by
    intro n c hc
    rw [octetString, Nat.toString_eq_repr, Nat.toList_repr] at hc
    exact isDigit_of_mem_toDigits hc
  intro c hc
  simp only [longToIp, String.toList_append, List.mem_append] at hc
  rcases hc with (((((hc | hc) | hc) | hc) | hc) | hc) | hc
  · exact Or.inl (hoctet _ c hc)
  · exact Or.inr (List.mem_singleton.mp hc)
  · exact Or.inl (hoctet _ c hc)
  · exact Or.inr (List.mem_singleton.mp hc)
  · exact Or.inl (hoctet _ c hc)
  · exact Or.inr (List.mem_singleton.mp hc)
  · exact Or.inl (hoctet _ c hc)

theorem plain_cidr {r : BypassRoute} (h : Canonical r) : ∀ c ∈ (cidr r).toList, Plain c := by
  obtain ⟨a, n, -, rfl⟩ := h
  intro c hc
  simp only [cidr, routeOf, String.toList_append, List.mem_append] at hc
  rcases hc with (hc | hc) | hc
  · exact (plain_longToIp _ c hc).imp_right Or.inl
  · exact Or.inr (Or.inr (List.mem_singleton.mp hc))
  · change c ∈ (toString n).toList at hc
    rw [Nat.toString_eq_repr, Nat.toList_repr] at hc
    exact Or.inl (isDigit_of_mem_toDigits hc)

/-- Plain characters are printable ASCII. -/
theorem Plain.range {c : Char} (h : Plain c) : 0x2E ≤ c.toNat ∧ c.toNat ≤ 0x39 := by
  rcases h with h | rfl | rfl
  · simp only [Char.isDigit, Bool.and_eq_true, decide_eq_true_eq, ge_iff_le,
      UInt32.le_iff_toNat_le] at h
    change 48 ≤ c.toNat ∧ c.toNat ≤ 57 at h
    omega
  · decide
  · decide

theorem Plain.not_whitespace {c : Char} (h : Plain c) : isWhitespace c = false := by
  have hrange := h.range
  simp only [isWhitespace, Bool.or_eq_false_iff, Bool.and_eq_false_iff, decide_eq_false_iff_not,
    beq_eq_false_iff_ne]
  omega

theorem kotlinTrim_of_plain {s : String} (h : ∀ c ∈ s.toList, Plain c) : kotlinTrim s = s :=
  trimChars_eq_self fun c hc => (h c hc).not_whitespace

theorem slash_not_mem_longToIp (ip : BitVec 64) : '/' ∉ (longToIp ip).toList := by
  intro h
  rcases plain_longToIp ip _ h with h | h <;> exact absurd h (by decide)

theorem longToIp_ne_empty (ip : BitVec 64) : longToIp ip ≠ "" := by
  intro h
  have hdot : '.' ∈ (longToIp ip).toList := by simp [longToIp]
  rw [h] at hdot
  exact (List.not_mem_nil hdot).elim

theorem cidr_ne_empty (r : BypassRoute) : cidr r ≠ "" := by
  intro h
  have hslash : '/' ∈ (cidr r).toList := by simp [cidr]
  rw [h] at hslash
  exact (List.not_mem_nil hslash).elim

theorem splitSlash_of_not_mem {s : String} (h : '/' ∉ s.toList) : splitSlash s = [s] := by
  rw [splitSlash, if_neg (by simpa using h)]

theorem splitSlash_join {s t : String} (h : '/' ∉ s.toList) :
    splitSlash (s ++ "/" ++ t) = [s, t] := by
  have hjoin : (s ++ "/" ++ t).toList = s.toList ++ '/' :: t.toList := by simp
  have hwhole : ∀ c ∈ s.toList, decide (c ≠ '/') = true :=
    fun c hc => decide_eq_true (fun heq => h (heq ▸ hc))
  rw [splitSlash, hjoin, if_pos (by simp), List.takeWhile_append_of_pos hwhole,
    List.dropWhile_append_of_pos hwhole]
  simp [String.ofList_toList]

/-! ## 3. Written and read back -/

/-- The parser on a text that is an address, alone or with a length. -/
theorem parseRoute_of_parts {s : String} {a : BitVec 32} {n : ℕ} {rest : List String}
    (hplain : ∀ c ∈ s.toList, Plain c) (hne : s ≠ "")
    (hparts : splitSlash s = longToIp (a.setWidth 64) :: rest)
    (hlength : entryPrefix (splitSlash s) = some n) : parseRoute s = some (routeOf a n) := by
  rw [parseRoute, kotlinTrim_of_plain hplain, if_neg hne]
  simp only [hlength, Option.bind_eq_bind, Option.bind_some]
  rw [hparts, List.headD_cons, ipv4Octets_longToIp]
  change some (⟨longToIp (rawOf (octetsOf (a.setWidth 64)) &&& _), _, _⟩ : BypassRoute) = _
  rw [rawOf_octetsOf]
  rfl

/-- A network address has no host bits left to mask off. -/
theorem exists_network (a : BitVec 32) (n : ℕ) :
    ∃ b : BitVec 32,
      b.setWidth 64 = a.setWidth 64 &&& bypassMask n ∧ routeOf b n = routeOf a n := by
  have hnetwork : (a.setWidth 64 &&& bypassMask n).toNat < 2 ^ 32 := by
    have ha := a.isLt
    rw [BitVec.toNat_and]
    refine Nat.and_le_left.trans_lt ?_
    rw [BitVec.toNat_setWidth]
    omega
  have hback : ((a.setWidth 64 &&& bypassMask n).setWidth 32).setWidth 64 =
      a.setWidth 64 &&& bypassMask n := by
    refine BitVec.eq_of_toNat_eq ?_
    rw [BitVec.toNat_setWidth, BitVec.toNat_setWidth, Nat.mod_eq_of_lt hnetwork,
      Nat.mod_eq_of_lt (hnetwork.trans (by decide))]
  refine ⟨_, hback, ?_⟩
  rw [routeOf, hback, BitVec.and_assoc, BitVec.and_self]
  rfl

/-- **What is written is parsed back.** -/
theorem parseRoute_cidr {r : BypassRoute} (h : Canonical r) : parseRoute (cidr r) = some r := by
  have hplain := plain_cidr h
  obtain ⟨a, n, hn, rfl⟩ := h
  obtain ⟨b, hb, hsame⟩ := exists_network a n
  have hparts : splitSlash (cidr (routeOf a n)) =
      [longToIp (b.setWidth 64), toString (n : ℤ)] := by
    rw [hb]
    exact splitSlash_join (slash_not_mem_longToIp _)
  rw [← hsame]
  refine @parseRoute_of_parts _ b n [toString (n : ℤ)] ?_ ?_ ?_ ?_
  all_goals rw [hsame]
  · exact hplain
  · exact cidr_ne_empty _
  · exact hparts
  · rw [hparts, entryPrefix, parseInt_toString_int (by omega) (by omega)]
    refine Option.filter_eq_some_iff.mpr ⟨rfl, ?_⟩
    simp only [Bool.and_eq_true, decide_eq_true_eq]
    omega

/-- A lone address is a route of length 32. -/
theorem parseRoute_longToIp (a : BitVec 32) :
    parseRoute (longToIp (a.setWidth 64)) = some (routeOf a 32) := by
  have hparts := splitSlash_of_not_mem (slash_not_mem_longToIp (a.setWidth 64))
  refine parseRoute_of_parts (fun c hc => (plain_longToIp _ c hc).imp_right Or.inl)
    (longToIp_ne_empty _) hparts ?_
  rw [hparts]
  rfl

/-! ## 4. Lists of routes -/

/-- The routes of a parsed list are those of its entries, each where it is first met. -/
theorem parseList_eq (entries : List String) :
    parseList entries = Linked.insertAll [] (entries.filterMap parseRoute) := by
  rw [parseList, Linked.insertAll, List.foldl_filterMap]
  congr 1
  funext result entry
  cases parseRoute entry with
  | none => rfl
  | some r => rfl

theorem nodup_parseList (entries : List String) : (parseList entries).Nodup := by
  rw [parseList_eq]
  exact Linked.nodup_insertAll List.nodup_nil _

theorem canonical_of_mem_parseList {entries : List String} {r : BypassRoute}
    (h : r ∈ parseList entries) : Canonical r := by
  rw [parseList_eq, Linked.mem_insertAll] at h
  obtain ⟨entry, -, hentry⟩ := List.mem_filterMap.mp (h.resolve_left List.not_mem_nil)
  exact canonical_of_parseRoute hentry

theorem Plain.ne {c d : Char} (h : Plain c) (hd : d.toNat < 0x2E) : c ≠ d := by
  rintro rfl
  exact absurd h.range.1 (Nat.not_le.mpr hd)

/-- Lines are tokenized one by one. -/
theorem tokenize_joinToString (ls : List String) :
    tokenize (joinToString '\n' ls) = ls.flatMap tokenize := by
  cases ls with
  | nil => decide
  | cons l ls =>
    have hsplit : splitAny (fun c => ['\n', '\r', ',', ' ', '\t'].contains c)
        (joinToString '\n' (l :: ls)) = (l :: ls).flatMap (splitAny _) :=
      splitAny_joinToString (by decide) (List.cons_ne_nil _ _)
    change ((splitAny _ _).map kotlinTrim).filter _ = _
    rw [hsplit, List.map_flatMap, List.filter_flatMap]
    rfl

/-- A text of plain characters is one token. -/
theorem tokenize_of_plain {s : String} (hne : s ≠ "") (hplain : ∀ c ∈ s.toList, Plain c) :
    tokenize s = [s] := by
  have hsplit : splitAny (fun c => ['\n', '\r', ',', ' ', '\t'].contains c) s = [s] := by
    refine splitAny_eq_singleton ?_
    intro c hc
    have hc := hplain c hc
    simp [hc.ne (show '\n'.toNat < 0x2E by decide), hc.ne (show '\r'.toNat < 0x2E by decide),
      hc.ne (show ','.toNat < 0x2E by decide), hc.ne (show ' '.toNat < 0x2E by decide),
      hc.ne (show '\t'.toNat < 0x2E by decide)]
  have hhash : s.toList.head? ≠ some '#' := fun hhead =>
    (hplain '#' (List.mem_of_head? hhead)).ne (d := '#') (by decide) rfl
  change ((splitAny _ _).map kotlinTrim).filter _ = _
  rw [hsplit, List.map_singleton, kotlinTrim_of_plain hplain]
  simp [hne, hhash]

theorem filterMap_parseRoute_cidr {routes : List BypassRoute} (h : ∀ r ∈ routes, Canonical r) :
    (routes.map cidr).filterMap parseRoute = routes := by
  induction routes with
  | nil => rfl
  | cons r routes ih =>
    rw [List.map_cons, List.filterMap_cons_some (parseRoute_cidr (h r List.mem_cons_self)),
      ih (fun r hr => h r (List.mem_cons_of_mem _ hr))]

/-- The entries of a list of routes are parsed back to it. -/
theorem parseList_cidr {routes : List BypassRoute} (hnodup : routes.Nodup)
    (hcanonical : ∀ r ∈ routes, Canonical r) : parseList (routes.map cidr) = routes := by
  rw [parseList_eq, filterMap_parseRoute_cidr hcanonical,
    Linked.insertAll_of_nodup (by simpa using hnodup), List.nil_append]

/-- **A list that is written is read back.** -/
theorem parseBlob_joinToString {routes : List BypassRoute} (hnodup : routes.Nodup)
    (hcanonical : ∀ r ∈ routes, Canonical r) :
    parseBlob (joinToString '\n' (routes.map cidr)) = routes := by
  have htokens : tokenize (joinToString '\n' (routes.map cidr)) = routes.map cidr := by
    rw [tokenize_joinToString, List.flatMap_map, List.flatMap_congr
      (fun r hr => tokenize_of_plain (cidr_ne_empty r) (plain_cidr (hcanonical r hr)))]
    exact List.flatMap_pure_eq_map cidr routes
  rw [parseBlob, htokens, parseList_cidr hnodup hcanonical]

end ShiroKhorshid.Bypass
