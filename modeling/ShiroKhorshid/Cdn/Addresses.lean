/-
# The addresses to scan (`TunnelManager.parseCdnFrontingCustomIpCandidates`)

The user gives a list of addresses and networks, with white space, commas or semicolons between
them.  The address is checked digit by digit before it is given to `Integer.parseInt`; the prefix
length is not, so `1.2.3.4/+8` is taken.  `Character.isDigit` and `Integer.parseInt` know the digits
of every script.  And what stays of a token when control characters are trimmed off it is taken for
the token.

* `IsCandidate` is the format of an address or a network, `Accepted` what the checks accept: the
  difference is how a prefix length is read, ASCII digits against a numeral of `parseInt`, and in
  which script the digits are (`accepted_iff`).
* The list takes each text once, in the order of the first place it is found at; so what stays of a
  token does no harm where it is found again as a token of its own in time
  (`Lib.FirstOccurrence`, `candidates_eq_notedKept`).

`candidates_exact_iff` says on which lists none of this shows, in terms of the entered text alone.

White space is what ICU's expressions take for it on Android.  What is done with the addresses is
the tunnel library's affair.
-/
import ShiroKhorshid.Dotted
import ShiroKhorshid.Lib.Cut
import ShiroKhorshid.Lib.FirstOccurrence

namespace ShiroKhorshid.Cdn

open Jvm Dotted Linked

/-! ## 1. Tokens -/

/-- `\s` in a regular expression on Android: white space of Unicode. -/
def isSpace (c : Char) : Bool :=
  let n := c.toNat
  (0x09 ≤ n && n ≤ 0x0D) || n == 0x20 || n == 0x85 || n == 0xA0 || n == 0x1680 ||
    (0x2000 ≤ n && n ≤ 0x200A) || n == 0x2028 || n == 0x2029 || n == 0x202F || n == 0x205F ||
    n == 0x3000

/-- `[\s,;]`. -/
def isDelimiter (c : Char) : Bool := isSpace c || c == ',' || c == ';'

/-- `s.split("[\\s,;]+")`.  A run of delimiters is one cut: only the first part and the last can be
empty.  Empty parts at the end are left out, unless there was nothing to cut. -/
def splitRuns (s : String) : List String :=
  match splitAny isDelimiter s with
  | [] => []
  | [part] => [part]
  | part :: parts => (part :: parts.filter (· ≠ "")).rdropWhile (· = "")

example : splitRuns ", 1.1.1.1;;2.2.2.2\n" = ["", "1.1.1.1", "2.2.2.2"] ∧ splitRuns ";" = [] := by
  decide +kernel

/-- But for the empty ones, the parts are what the delimiters leave. -/
theorem splitRuns_filter (s : String) :
    (splitRuns s).filter (· ≠ "") = (splitAny isDelimiter s).filter (· ≠ "") := by
  have hdrop : ∀ parts : List String,
      (parts.rdropWhile (· = "")).filter (· ≠ "") = parts.filter (· ≠ "") := by
    intro parts
    induction parts using List.reverseRecOn with
    | nil => rfl
    | append_singleton parts part ih =>
      by_cases hpart : part = ""
      · rw [List.rdropWhile_concat_pos _ _ _ (by simpa using hpart), ih, List.filter_append]
        simp [hpart]
      · rw [List.rdropWhile_concat_neg _ _ _ (by simpa using hpart)]
  rw [splitRuns]
  split
  · rename_i h
    rw [h]
  · rename_i h
    rw [h]
  · rename_i part parts _ h
    rw [h, hdrop, List.filter_cons, List.filter_cons, List.filter_filter]
    simp

/-! ## 2. The checks -/

/-- A part of an address: one to three digits, at most 255. -/
def isOctet (part : String) : Bool :=
  part ≠ "" && part.length ≤ 3 && part.toList.all (fun c => (digit c).isSome) &&
    match parseInt part with
    | some value => !(value < 0 || value > 255)
    | none => false

/-- `isValidIPv4Address`. -/
def isValidIPv4Address (ipAddress : String) : Bool :=
  let parts := split ipAddress '.'
  parts.length == 4 && parts.all isOctet

/-- `isValidIPv4Cidr`, for one of the two copies of `isValidIPv4Address`. -/
def isCidr (isAddress : String → Bool) (cidr : String) : Bool :=
  cidr ≠ "" && match split cidr '/' with
    | [address, length] => isAddress address && match parseInt length with
      | some value => 0 ≤ value && value ≤ 32
      | none => false
    | _ => false

/-- `isValidIPv4Cidr`. -/
def isValidIPv4Cidr (cidr : String) : Bool := isCidr isValidIPv4Address cidr

/-- `parseCdnFrontingCustomIpCandidates`. -/
def parseCdnFrontingCustomIpCandidates (customIpList : String) : List String :=
  if customIpList = "" then []
  else (splitRuns customIpList).foldl (fun ipCandidates entry =>
    let ipCandidate := javaTrim entry
    if ipCandidate = "" ∨ (!isValidIPv4Address ipCandidate && !isValidIPv4Cidr ipCandidate) then
      ipCandidates
    else insert ipCandidates ipCandidate) []

/-- The addresses and networks that are entered, one for each entry. -/
def enteredAddresses (text : String) : List String :=
  ((splitRuns text).map javaTrim).filter fun t => isValidIPv4Address t || isValidIPv4Cidr t

theorem parseIpCandidates_eq_insertAll (text : String) :
    parseCdnFrontingCustomIpCandidates text = insertAll [] (enteredAddresses text) := by
  rw [parseCdnFrontingCustomIpCandidates]
  split
  · rename_i hempty
    subst hempty
    decide
  · refine (foldl_insert_eq javaTrim (fun t => t = "" ∨
      (!isValidIPv4Address t && !isValidIPv4Cidr t) = true) [] _).trans ?_
    refine congrArg (insertAll []) (List.filter_congr fun t _ => ?_)
    by_cases ht : t = ""
    · subst ht
      decide
    · simp [ht]

/-! ## 3. What the checks accept -/

/-- One to three digits of any script. -/
def ShortDigits : NumberFormat := fun cs n => cs.length ≤ 3 ∧ unsignedDecimal cs = some n

/-- One to three ASCII digits. -/
def ShortNumeral : NumberFormat := fun cs n => cs.length ≤ 3 ∧ Numeral cs n

/-- An address or a network as it should be written. -/
def IsCandidate (t : String) : Prop := ∃ octets n, Entry ShortNumeral Numeral t.toList octets n

/-- An address or a network as it may be written. -/
def Accepted (t : String) : Prop := ∃ octets n, Entry ShortDigits Lenient t.toList octets n

theorem ShortDigits.lenient {cs : List Char} {n : ℕ} (h : ShortDigits cs n) : Lenient cs n :=
  Lenient.digits h.2

theorem ShortDigits.dot_not_mem (cs : List Char) (n : ℕ) (h : ShortDigits cs n) : '.' ∉ cs :=
  h.lenient.dot_not_mem

theorem IsCandidate.accepted {t : String} (h : IsCandidate t) : Accepted t := by
  obtain ⟨octets, n, h⟩ := h
  exact ⟨octets, n, h.mono (fun _ _ hn => ⟨hn.1, hn.2.2⟩) fun _ _ => Numeral.lenient⟩

theorem all_isSome_iff {part : String} :
    part.toList.all (fun c => (digit c).isSome) = true ↔ ∀ c ∈ part.toList, IsDigit c := by
  rw [List.all_eq_true]
  exact forall₂_congr fun c _ => Option.isSome_iff_ne_none

theorem isOctet_iff {part : String} :
    isOctet part = true ↔ ∃ n ≤ 255, ShortDigits part.toList n := by
  have hrange : (match parseInt part with
      | some value => !(decide (value < 0) || decide (value > 255))
      | none => false) = true ↔ ∃ n ≤ 255, Lenient part.toList n := by
    refine match_parseInt_iff (by decide) fun v => ?_
    simp only [Bool.not_eq_true', Bool.or_eq_false_iff, decide_eq_false_iff_not]
    omega
  simp only [isOctet, Bool.and_eq_true, decide_eq_true_eq, all_isSome_iff, ← String.length_toList]
  rw [hrange]
  constructor
  · rintro ⟨⟨⟨hne, hlength⟩, hdigits⟩, n, hn, hlenient⟩
    refine ⟨n, hn, hlength, ?_⟩
    generalize part.toList = cs at hlenient hdigits
    cases hlenient with
    | digits h => exact h
    | plus h => exact absurd (hdigits '+' List.mem_cons_self) (not_isDigit_of_lt (by decide))
    | minus h => exact absurd (hdigits '-' List.mem_cons_self) (not_isDigit_of_lt (by decide))
  · rintro ⟨n, hn, hlength, hvalue⟩
    refine ⟨⟨⟨?_, hlength⟩, isDigit_of_unsignedDecimal hvalue⟩, n, hn, Lenient.digits hvalue⟩
    rintro rfl
    cases hvalue

theorem isValidIPv4Address_iff {s : String} :
    isValidIPv4Address s = true ↔ ∃ octets, Quad ShortDigits s.toList octets := by
  simp only [isValidIPv4Address, split, List.length_map, Bool.and_eq_true, beq_iff_eq,
    List.all_map, List.all_eq_true, Function.comp_apply, isOctet_iff, String.toList_ofList,
    quad_iff_splitOn ShortDigits.dot_not_mem]
  constructor
  · rintro ⟨hfour, hparts⟩
    obtain ⟨octets, hoctets⟩ := exists_forall₂ hparts
    exact ⟨octets, hoctets.length_eq.symm.trans hfour, hoctets⟩
  · rintro ⟨octets, hfour, hoctets⟩
    refine ⟨hoctets.length_eq.trans hfour, fun part hpart => ?_⟩
    obtain ⟨n, -, hn⟩ := exists_of_mem_left hoctets hpart
    exact ⟨n, hn⟩

/-- A text that is cut in two by its slash. -/
theorem split_eq_pair_iff {s address length : String} :
    split s '/' = [address, length] ↔
      s.toList = address.toList ++ '/' :: length.toList ∧ '/' ∉ address.toList ∧
        '/' ∉ length.toList := by
  have hpair : (joinToString '/' [address, length]).toList =
      address.toList ++ '/' :: length.toList := by
    rw [joinToString, String.toList_ofList, List.map_cons, List.map_singleton,
      List.intercalate_cons_cons, List.intercalate_singleton, List.append_assoc]
    rfl
  constructor
  · intro h
    have hmem : ∀ part ∈ split s '/', '/' ∉ part.toList := by
      intro part hpart hslash
      obtain ⟨cs, hcs, rfl⟩ := List.mem_map.mp hpart
      rw [String.toList_ofList] at hslash
      exact absurd (mem_of_mem_splitOnP hcs '/' hslash).2 (by decide)
    have hjoin := joinToString_split s '/'
    rw [h] at hmem hjoin
    rw [← hpair, hjoin]
    exact ⟨rfl, hmem _ (by simp), hmem _ (by simp)⟩
  · rintro ⟨hs, haddress, hlength⟩
    obtain rfl : joinToString '/' [address, length] = s :=
      String.toList_inj.mp (hpair.trans hs.symm)
    exact split_intercalate '/' _ (List.cons_ne_nil _ _) (by simpa using ⟨haddress, hlength⟩)

theorem isValidIPv4Cidr_iff {s : String} :
    isValidIPv4Cidr s = true ↔ ∃ octets n cs ls, s.toList = cs ++ '/' :: ls ∧
      Quad ShortDigits cs octets ∧ n ≤ 32 ∧ Lenient ls n := by
  have hslash : ∀ {cs octets}, Quad ShortDigits cs octets → '/' ∉ cs := fun h =>
    (h.mono fun _ _ hn => hn.lenient).slash_not_mem
  have hrange : ∀ length : String, (match parseInt length with
      | some value => decide (0 ≤ value) && decide (value ≤ 32)
      | none => false) = true ↔ ∃ n ≤ 32, Lenient length.toList n := by
    intro length
    refine match_parseInt_iff (by decide) fun v => ?_
    simp only [Bool.and_eq_true, decide_eq_true_eq]
    omega
  rw [isValidIPv4Cidr, isCidr, Bool.and_eq_true, decide_eq_true_eq]
  constructor
  · rintro ⟨-, h⟩
    split at h
    · rename_i address length hsplit
      rw [Bool.and_eq_true, hrange, isValidIPv4Address_iff] at h
      obtain ⟨⟨octets, hquad⟩, n, hn, hlenient⟩ := h
      exact ⟨octets, n, _, _, (split_eq_pair_iff.mp hsplit).1, hquad, hn, hlenient⟩
    · cases h
  · rintro ⟨octets, n, cs, ls, hs, hquad, hn, hlenient⟩
    have hsplit : split s '/' = [String.ofList cs, String.ofList ls] := by
      rw [split_eq_pair_iff, String.toList_ofList, String.toList_ofList]
      exact ⟨hs, hslash hquad, hlenient.slash_not_mem⟩
    refine ⟨?_, ?_⟩
    · rintro rfl
      simp at hs
    · rw [hsplit]
      simp only [Bool.and_eq_true, isValidIPv4Address_iff, hrange, String.toList_ofList]
      exact ⟨⟨octets, hquad⟩, n, hn, hlenient⟩

/-- **What is taken.** -/
theorem accepted_iff {s : String} :
    (isValidIPv4Address s || isValidIPv4Cidr s) = true ↔ Accepted s := by
  rw [Bool.or_eq_true, isValidIPv4Address_iff, isValidIPv4Cidr_iff]
  constructor
  · rintro (⟨octets, hquad⟩ | ⟨octets, n, cs, ls, hs, hquad, hn, hlenient⟩)
    · exact ⟨octets, 32, Entry.address hquad⟩
    · exact ⟨octets, n, hs ▸ Entry.network hquad hn hlenient⟩
  · rintro ⟨octets, n, h⟩
    generalize hcs : s.toList = cs at h
    cases h with
    | address hquad => exact Or.inl ⟨octets, hquad⟩
    | network hquad hn hlenient => exact Or.inr ⟨octets, n, _, _, rfl, hquad, hn, hlenient⟩

/-! ## 4. The list -/

/-- What should be made of a list: its addresses and networks, each where it first occurs. -/
noncomputable def candidates (text : String) : List String :=
  letI := Classical.decPred IsCandidate
  ((splitAny isDelimiter text).filter fun t => IsCandidate t).eraseDups

/-- What is taken from a list, and whether it was a token as it stands. -/
noncomputable def listEntries (text : String) : List (String × Bool) :=
  letI := Classical.decPred IsCandidate
  letI := Classical.decPred Accepted
  ((splitAny isDelimiter text).filter fun t => Accepted (javaTrim t)).map fun t =>
    (javaTrim t, decide (IsCandidate t))

theorem not_accepted_empty : ¬ Accepted "" := by
  rw [← accepted_iff]
  decide

/-- A token of the format has nothing to trim off. -/
theorem IsCandidate.javaTrim {t : String} (h : IsCandidate t) : javaTrim t = t := by
  obtain ⟨octets, n, h⟩ := h
  refine trimChars_eq_self fun c hc => ?_
  have hascii := (h.mono (fun _ _ hn => hn.2) fun _ _ hn => hn).ascii c hc
  rcases hascii with hdigit | rfl | rfl
  · simp only [Char.isDigit, Bool.and_eq_true, decide_eq_true_eq, UInt32.le_iff_toNat_le] at hdigit
    simp only [decide_eq_false_iff_not, Nat.not_le]
    exact lt_of_lt_of_le (by decide) hdigit.1
  · decide
  · decide

theorem parse_eq_noted (text : String) :
    parseCdnFrontingCustomIpCandidates text = noted (listEntries text) := by
  classical
  have hblank : ∀ tokens : List String, (tokens.filter (· ≠ "")).filter (fun t =>
      decide (Accepted (Jvm.javaTrim t))) = tokens.filter fun t =>
        decide (Accepted (Jvm.javaTrim t)) := by
    intro tokens
    rw [List.filter_filter]
    refine List.filter_congr fun t _ => ?_
    by_cases ht : t = ""
    · subst ht
      have hempty : ¬ Accepted (Jvm.javaTrim "") := not_accepted_empty
      simp [hempty]
    · simp [ht]
  have haccepted : enteredAddresses text =
      ((splitRuns text).map Jvm.javaTrim).filter fun t => decide (Accepted t) := by
    rw [enteredAddresses]
    refine List.filter_congr fun t _ => ?_
    rw [Bool.eq_iff_iff, decide_eq_true_eq]
    exact accepted_iff
  rw [parseIpCandidates_eq_insertAll, haccepted, noted, listEntries, List.map_map, List.filter_map]
  refine congrArg (insertAll []) (congrArg (List.map Jvm.javaTrim) ?_)
  exact (hblank _).symm.trans ((congrArg _ (splitRuns_filter text)).trans (hblank _))

theorem candidates_eq_notedKept (text : String) :
    candidates text = notedKept (listEntries text) := by
  classical
  rw [candidates, ← insertAll_eq_eraseDups, notedKept, listEntries, List.filter_map, List.map_map,
    List.filter_filter]
  refine congrArg (insertAll []) ?_
  have hmap : ∀ tokens : List String, (tokens.filter fun t => IsCandidate t).map Jvm.javaTrim =
      tokens.filter fun t => IsCandidate t := by
    intro tokens
    refine (List.map_congr_left fun t ht => ?_).trans (List.map_id _)
    exact IsCandidate.javaTrim (of_decide_eq_true (List.mem_filter.mp ht).2)
  rw [← hmap]
  refine congrArg (List.map Jvm.javaTrim) (List.filter_congr fun t _ => ?_)
  by_cases ht : IsCandidate t
  · have haccepted : Accepted (Jvm.javaTrim t) := ht.javaTrim.symm ▸ ht.accepted
    simp [ht, haccepted]
  · simp [ht]

/-- **Which lists are read exactly.**  What is taken from a token is the token, in the format, or is
found again as a token before another one is that is new by then. -/
theorem candidates_exact_iff (text : String) :
    parseCdnFrontingCustomIpCandidates text = candidates text ↔ Backed (listEntries text) := by
  rw [parse_eq_noted, candidates_eq_notedKept]
  exact insertAll_kept_iff _

/-- **A sign before the prefix length.** -/
theorem signed_prefix_taken :
    parseCdnFrontingCustomIpCandidates "1.2.3.4/+8" = ["1.2.3.4/+8"] ∧
      candidates "1.2.3.4/+8" = [] := by
  refine ⟨by decide +kernel, ?_⟩
  have hbare : splitAny isDelimiter "1.2.3.4/+8" = ["1.2.3.4/+8"] := by decide +kernel
  have hnot : ¬ IsCandidate "1.2.3.4/+8" := by
    rintro ⟨octets, n, h⟩
    have hascii := (h.mono (fun _ _ hn => hn.2) fun _ _ hn => hn).ascii '+' (by decide +kernel)
    exact absurd hascii (by decide)
  simp [candidates, hbare, hnot]

end ShiroKhorshid.Cdn
