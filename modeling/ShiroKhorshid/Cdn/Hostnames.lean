/-
# Names of servers (`TunnelManager.normalizeHostname`)

The user gives names of servers, too.  A name is trimmed, put in lower case and freed of its dot at
the end, and then it must be valid.  But `isValidHostname` looks past a dot at the end as well: so a
name with two of them is accepted and keeps one.  Normalized again, it loses that one, and it is in
the list beside the same name without it.

* **Names.**  A `Name` is a row of labels, and a `HostName` what the check is meant to accept: a
  name that is not too long, has no dot at its end and is no address.  What is accepted is a name,
  or a name with a dot behind it (`isHostname_iff`).
* **Normalizing.**  A name in lower case is left alone (`Normal.normalizeHostname`); what comes out
  is nothing, a normal name, or with two dots a name that keeps one (`normalizeHostname_cases`).
* **The list** is right if no name in it had two dots (`emitsHosts_iff`).

`normalize_iff` says that this is all that goes wrong: where normalizing is no projection onto names
of servers, the text has two dots at its end.

The tables of Unicode are a parameter, `CharTables`, with what the code relies on: among it, that
what is in lower case stays as it is.  Lengths are counted in code points.
-/
import ShiroKhorshid.Cdn.Addresses

namespace ShiroKhorshid.Cdn

open Jvm Dotted Linked

/-! ## 1. Letters -/

/-- `Character.isLetter` and `Character.toLowerCase`, and where a sigma is the last letter of a
word, given what is before it, backwards, and what is after it. -/
structure CharTables where
  isLetter : Char → Bool
  toLowerCase : Char → Char
  isFinalSigma : List Char → List Char → Bool
  isLetter_ascii : ∀ c : Char, c.toNat < 0x80 → isLetter c = c.isAlpha
  toLowerCase_idem : ∀ c, toLowerCase (toLowerCase c) = toLowerCase c
  toLowerCase_dotted : toLowerCase 'İ' = 'i'
  toLowerCase_sigma : toLowerCase 'Σ' = 'σ'
  toLowerCase_final : toLowerCase 'ς' = 'ς'
  toLowerCase_dot : toLowerCase '\u0307' = '\u0307'

/-- `String.toLowerCase(Locale.US)`, with what is before. -/
def lowerFrom (T : CharTables) (before : List Char) : List Char → List Char
  | [] => []
  | c :: cs =>
    (if c = 'İ' then ['i', '\u0307']
      else if c = 'Σ' && T.isFinalSigma before cs then ['ς']
      else [T.toLowerCase c]) ++ lowerFrom T (c :: before) cs

/-- `s.toLowerCase(Locale.US)`. -/
def toLowerCase (T : CharTables) (s : String) : String := String.ofList (lowerFrom T [] s.toList)

/-- `Character.isLetterOrDigit` of a `char`: neither half of a surrogate pair is one. -/
def isLetterOrDigit (T : CharTables) (c : Char) : Bool :=
  c.toNat < 0x10000 && (T.isLetter c || (digit c).isSome)

/-- What lower case leaves alone. -/
structure IsLower (T : CharTables) (c : Char) : Prop where
  dotted : c ≠ 'İ'
  sigma : c ≠ 'Σ'
  fixed : T.toLowerCase c = c

theorem isLower_of_fixed {T : CharTables} {c : Char} (h : T.toLowerCase c = c) : IsLower T c := by
  refine ⟨?_, ?_, h⟩
  · rintro rfl
    rw [T.toLowerCase_dotted] at h
    exact absurd h (by decide)
  · rintro rfl
    rw [T.toLowerCase_sigma] at h
    exact absurd h (by decide)

/-- Lower case is lower case. -/
theorem isLower_of_mem_lowerFrom {T : CharTables} {before cs : List Char} {d : Char}
    (h : d ∈ lowerFrom T before cs) : IsLower T d := by
  induction cs generalizing before with
  | nil => exact absurd h List.not_mem_nil
  | cons c cs ih =>
    have hi : T.toLowerCase 'i' = 'i' := by
      rw [← T.toLowerCase_dotted]
      exact T.toLowerCase_idem _
    rw [lowerFrom, List.mem_append] at h
    rcases h with h | h
    · split at h
      · simp only [List.mem_cons, List.not_mem_nil, or_false] at h
        rcases h with rfl | rfl
        · exact isLower_of_fixed hi
        · exact isLower_of_fixed T.toLowerCase_dot
      · split at h
        · obtain rfl := List.mem_singleton.mp h
          exact isLower_of_fixed T.toLowerCase_final
        · obtain rfl := List.mem_singleton.mp h
          exact isLower_of_fixed (T.toLowerCase_idem c)
    · exact ih h

theorem lowerFrom_eq_self {T : CharTables} {before cs : List Char} (h : ∀ c ∈ cs, IsLower T c) :
    lowerFrom T before cs = cs := by
  induction cs generalizing before with
  | nil => rfl
  | cons c cs ih =>
    have hc := h c List.mem_cons_self
    rw [lowerFrom, ih fun d hd => h d (List.mem_cons_of_mem _ hd), if_neg hc.dotted,
      if_neg (by simp [hc.sigma]), hc.fixed]
    rfl

theorem toLowerCase_eq_self {T : CharTables} {s : String} (h : ∀ c ∈ s.toList, IsLower T c) :
    toLowerCase T s = s := by
  rw [toLowerCase, lowerFrom_eq_self h, String.ofList_toList]

/-! ## 2. The code -/

/-- A text without one dot at its end. -/
def withoutDot (s : String) : String :=
  if s.toList.getLast? = some '.' then String.ofList s.toList.dropLast else s

/-- A label as `isValidHostname` wants it. -/
def isLabel (T : CharTables) (label : String) : Bool :=
  !(label = "" || label.length > 63 || label.toList.head? = some '-' ||
    label.toList.getLast? = some '-') &&
    label.toList.all fun character => isLetterOrDigit T character || character = '-'

/-- `isValidHostname`, for one of the two copies of `isValidIPv4Address`.  A text with a character
beyond the Basic Multilingual Plane is refused, however its length is counted. -/
def isHostname (T : CharTables) (isAddress : String → Bool) (hostname : String) : Bool :=
  if hostname = "" || hostname.length > 253 || isAddress hostname then false
  else
    let normalizedHostname := withoutDot hostname
    normalizedHostname ≠ "" && (split normalizedHostname '.').all (isLabel T)

/-- `normalizeHostname`, for one of the two copies of `isValidHostname`. -/
def normalized (T : CharTables) (isValid : String → Bool) (hostname : String) : String :=
  if hostname = "" then ""
  else
    let normalizedHostname := withoutDot (toLowerCase T (javaTrim hostname))
    if !isValid normalizedHostname then "" else normalizedHostname

/-- `isValidHostname`. -/
def isValidHostname (T : CharTables) (hostname : String) : Bool :=
  isHostname T isValidIPv4Address hostname

/-- `normalizeHostname`. -/
def normalizeHostname (T : CharTables) (hostname : String) : String :=
  normalized T (isValidHostname T) hostname

/-- `parseCdnFrontingCustomSniList`. -/
def parseCdnFrontingCustomSniList (T : CharTables) (customSni : String) : List String :=
  if customSni = "" then []
  else (splitRuns customSni).foldl (fun sniServerNames entry =>
    let sni := normalizeHostname T entry
    if sni = "" then sniServerNames else insert sniServerNames sni) []

/-- `normalizeCdnFrontingCustomSni`. -/
def normalizeCdnFrontingCustomSni (T : CharTables) (customSni : String) : String :=
  match parseCdnFrontingCustomSniList T customSni with
  | [] => ""
  | sni :: _ => sni

/-! ## 3. Names -/

/-- A label: letters and digits, with hyphens inside. -/
structure Label (T : CharTables) (label : String) : Prop where
  nonempty : label ≠ ""
  short : label.length ≤ 63
  first : label.toList.head? ≠ some '-'
  last : label.toList.getLast? ≠ some '-'
  chars : ∀ c ∈ label.toList, isLetterOrDigit T c = true ∨ c = '-'

/-- Labels with dots between them. -/
def Name (T : CharTables) (name : String) : Prop :=
  ∃ labels, name = joinToString '.' labels ∧ labels ≠ [] ∧ ∀ label ∈ labels, Label T label

/-- A valid name of a server. -/
structure HostName (T : CharTables) (host : String) : Prop where
  short : host.length ≤ 253
  name : Name T host
  noDot : host.toList.getLast? ≠ some '.'
  notAddress : ¬ ∃ octets, Quad ShortDigits host.toList octets

theorem isLabel_iff {T : CharTables} {label : String} : isLabel T label = true ↔ Label T label := by
  rw [isLabel, Bool.and_eq_true, Bool.not_eq_true', List.all_eq_true]
  simp only [Bool.or_eq_false_iff, decide_eq_false_iff_not, Bool.or_eq_true, decide_eq_true_eq,
    Nat.not_lt, and_assoc]
  constructor
  · rintro ⟨hne, hshort, hfirst, hlast, hchars⟩
    exact ⟨hne, hshort, hfirst, hlast, hchars⟩
  · rintro ⟨hne, hshort, hfirst, hlast, hchars⟩
    exact ⟨hne, hshort, hfirst, hlast, hchars⟩

theorem toNat_of_isLetterOrDigit {T : CharTables} {c : Char} (h : isLetterOrDigit T c = true) :
    0x30 ≤ c.toNat := by
  obtain ⟨-, h⟩ := Bool.and_eq_true_iff.mp h
  rcases Bool.or_eq_true_iff.mp h with h | h
  · by_contra hlow
    rw [T.isLetter_ascii c (by omega)] at h
    rcases Bool.or_eq_true_iff.mp h with h | h
    · have hupper : 65 ≤ c.toNat := UInt32.le_iff_toNat_le.mp (of_decide_eq_true h).1
      omega
    · have hlower : 97 ≤ c.toNat :=
        UInt32.le_iff_toNat_le.mp (of_decide_eq_true (Bool.and_eq_true_iff.mp h).1)
      omega
  · obtain ⟨d, hd⟩ := Option.isSome_iff_exists.mp h
    exact digit_toNat hd

theorem Label.toNat {T : CharTables} {label : String} (h : Label T label) {c : Char}
    (hc : c ∈ label.toList) : 0x20 < c.toNat ∧ c ≠ '.' := by
  rcases h.chars c hc with hletter | rfl
  · have hle := toNat_of_isLetterOrDigit hletter
    refine ⟨by omega, ?_⟩
    rintro rfl
    exact absurd hle (by decide)
  · decide

/-- **The labels of a name** are what its dots leave. -/
theorem all_isLabel_iff {T : CharTables} {s : String} :
    (split s '.').all (isLabel T) = true ↔ Name T s := by
  simp only [List.all_eq_true, isLabel_iff]
  constructor
  · intro h
    refine ⟨split s '.', (joinToString_split s '.').symm, ?_, h⟩
    simp [split]
  · rintro ⟨labels, rfl, hne, hlabels⟩
    rwa [joinToString, split_intercalate '.' labels hne]
    exact fun label hlabel hdot => ((hlabels label hlabel).toNat hdot).2 rfl

theorem Name.toNat {T : CharTables} {s : String} (h : Name T s) :
    ∀ c ∈ s.toList, 0x20 < c.toNat := by
  obtain ⟨labels, rfl, -, hlabels⟩ := h
  intro c hc
  rw [joinToString, String.toList_ofList] at hc
  rcases mem_intercalate_dot hc with rfl | ⟨part, hpart, hc⟩
  · decide
  · obtain ⟨label, hlabel, rfl⟩ := List.mem_map.mp hpart
    exact ((hlabels label hlabel).toNat hc).1

/-- A name ends in a letter or a digit. -/
theorem Name.exists_getLast {T : CharTables} {s : String} (h : Name T s) :
    ∃ c, s.toList.getLast? = some c ∧ c ≠ '.' := by
  obtain ⟨labels, rfl, hne, hlabels⟩ := h
  rw [joinToString, String.toList_ofList]
  induction labels with
  | nil => exact absurd rfl hne
  | cons label labels ih =>
    cases labels with
    | nil =>
      have hlabel := hlabels label List.mem_cons_self
      have hnil : label.toList ≠ [] := fun hnil => hlabel.nonempty (String.toList_inj.mp hnil)
      rw [List.map_singleton, List.intercalate_singleton]
      exact ⟨_, List.getLast?_eq_some_getLast hnil, (hlabel.toNat (List.getLast_mem hnil)).2⟩
    | cons label' labels =>
      obtain ⟨c, hc, hdot⟩ := ih (List.cons_ne_nil _ _)
        fun label hlabel => hlabels label (List.mem_cons_of_mem _ hlabel)
      refine ⟨c, ?_, hdot⟩
      rw [List.map_cons, List.map_cons, List.intercalate_cons_cons, List.getLast?_append]
      rw [List.map_cons] at hc
      rw [hc]
      rfl

theorem Name.noDot {T : CharTables} {s : String} (h : Name T s) :
    s.toList.getLast? ≠ some '.' := by
  obtain ⟨c, hc, hdot⟩ := h.exists_getLast
  rw [hc]
  exact fun hsome => hdot (Option.some.inj hsome)

theorem Name.ne_empty {T : CharTables} {s : String} (h : Name T s) : s ≠ "" := by
  rintro rfl
  obtain ⟨c, hc, -⟩ := h.exists_getLast
  cases hc

theorem withoutDot_of_noDot {s : String} (h : s.toList.getLast? ≠ some '.') : withoutDot s = s :=
  if_neg h

theorem withoutDot_append_dot (s : String) : withoutDot (s ++ ".") = s := by
  have hlist : (s ++ ".").toList = s.toList ++ ['.'] := String.toList_append
  rw [withoutDot, hlist, List.getLast?_concat, if_pos rfl, List.dropLast_concat,
    String.ofList_toList]

/-- What was taken off. -/
theorem eq_append_dot {s : String} (h : s.toList.getLast? = some '.') :
    s = withoutDot s ++ "." := by
  obtain ⟨cs, hcs⟩ := List.getLast?_eq_some_iff.mp h
  have hs : s = String.ofList cs ++ "." := by
    refine String.toList_inj.mp ?_
    rw [hcs, String.toList_append, String.toList_ofList]
    rfl
  rw [hs, withoutDot_append_dot]

/-- **What is accepted**: names, and names with a dot behind them. -/
theorem isHostname_iff {T : CharTables} {isAddress : String → Bool} {s : String} :
    isHostname T isAddress s = true ↔
      s.length ≤ 253 ∧ isAddress s = false ∧ Name T (withoutDot s) := by
  rw [isHostname]
  split
  · rename_i h
    simp only [Bool.or_eq_true, decide_eq_true_eq] at h
    constructor
    · intro hfalse
      cases hfalse
    · rintro ⟨hshort, haddress, hname⟩
      rcases h with (rfl | hlong) | htrue
      · exact absurd rfl hname.ne_empty
      · exact absurd hshort (Nat.not_le.mpr hlong)
      · rw [haddress] at htrue
        cases htrue
  · rename_i h
    simp only [Bool.or_eq_true, decide_eq_true_eq, not_or, Nat.not_lt, Bool.not_eq_true] at h
    simp only [Bool.and_eq_true, decide_eq_true_eq, all_isLabel_iff]
    constructor
    · exact fun hname => ⟨h.1.2, h.2, hname.2⟩
    · exact fun hname => ⟨hname.2.2.ne_empty, hname.2.2⟩

theorem mem_of_mem_withoutDot {s : String} {c : Char} (h : c ∈ (withoutDot s).toList) :
    c ∈ s.toList := by
  rw [withoutDot] at h
  split at h
  · rw [String.toList_ofList] at h
    exact List.dropLast_subset _ h
  · exact h

/-! ## 4. Normalizing -/

/-- The text before its dot is taken off. -/
def lowered (T : CharTables) (s : String) : String := toLowerCase T (javaTrim s)

theorem normalized_eq (T : CharTables) (isAddress : String → Bool) (s : String) :
    normalized T (isHostname T isAddress) s =
      if isHostname T isAddress (withoutDot (lowered T s)) then withoutDot (lowered T s)
      else "" := by
  rw [normalized]
  split
  · rename_i hempty
    subst hempty
    rfl
  · cases h : isHostname T isAddress (withoutDot (lowered T s)) with
    | true => simp [lowered] at h ⊢; simp [h]
    | false => simp [lowered] at h ⊢; simp [h]

/-- Two dots behind a name that is not too long. -/
def DoubleDot (T : CharTables) (s : String) : Prop :=
  ∃ name, lowered T s = name ++ ".." ∧ Name T name ∧ name.length ≤ 252

/-- A name of a server that is in lower case. -/
structure Normal (T : CharTables) (host : String) : Prop extends HostName T host where
  lower : ∀ c ∈ host.toList, IsLower T c

theorem not_isValidIPv4Address_iff {s : String} :
    isValidIPv4Address s = false ↔ ¬ ∃ octets, Quad ShortDigits s.toList octets := by
  rw [← isValidIPv4Address_iff, Bool.not_eq_true]

/-- **Normal names** are left alone. -/
theorem Normal.normalizeHostname {T : CharTables} {host : String} (h : Normal T host) :
    normalizeHostname T host = host := by
  have htrim : javaTrim host = host :=
    trimChars_eq_self fun c hc => decide_eq_false (Nat.not_le.mpr (h.name.toNat c hc))
  have hlowered : withoutDot (lowered T host) = host := by
    rw [lowered, htrim, toLowerCase_eq_self h.lower, withoutDot_of_noDot h.noDot]
  have hvalid : isHostname T isValidIPv4Address host = true := by
    refine isHostname_iff.mpr ⟨h.short, not_isValidIPv4Address_iff.mpr h.notAddress, ?_⟩
    rw [withoutDot_of_noDot h.noDot]
    exact h.name
  exact (normalized_eq T isValidIPv4Address host).trans (by rw [hlowered, if_pos hvalid])

/-- A name with a dot behind it has five parts. -/
theorem isValidIPv4Address_append_dot (s : String) : isValidIPv4Address (s ++ ".") = false := by
  rw [not_isValidIPv4Address_iff]
  rintro ⟨octets, hquad⟩
  obtain ⟨-, hparts⟩ := (quad_iff_splitOn ShortDigits.dot_not_mem).mp hquad
  have hempty : [] ∈ (s ++ ".").toList.splitOn '.' := by
    have hlist : (s ++ ".").toList = s.toList ++ '.' :: [] := String.toList_append
    rw [hlist, List.splitOn, List.splitOnP_append_cons _ _ (by decide)]
    simp
  obtain ⟨n, -, -, hn⟩ := exists_of_mem_left hparts hempty
  cases hn.2

theorem append_dots (s : String) : s ++ ".." = s ++ "." ++ "." := by
  refine String.toList_inj.mp ?_
  simp

/-- **What comes out**: nothing, a normal name, or with two dots a name that keeps one. -/
theorem normalizeHostname_cases (T : CharTables) (s : String) :
    (normalizeHostname T s = "" ∧ ¬ DoubleDot T s) ∨
      (Normal T (normalizeHostname T s) ∧ ¬ DoubleDot T s) ∨
      (∃ name, Name T name ∧ normalizeHostname T s = name ++ "." ∧ DoubleDot T s) := by
  have hresult := normalized_eq T isValidIPv4Address s
  change normalizeHostname T s = _ at hresult
  have hdots : ∀ name, lowered T s = name ++ ".." → withoutDot (lowered T s) = name ++ "." := by
    intro name h
    rw [h, append_dots, withoutDot_append_dot]
  generalize hm : withoutDot (lowered T s) = m at hresult hdots
  cases hvalid : isHostname T isValidIPv4Address m with
  | false =>
    refine Or.inl ⟨by rw [hresult, hvalid]; rfl, ?_⟩
    rintro ⟨name, hname, hlabels, hlength⟩
    rw [hdots name hname] at hvalid
    refine absurd (isHostname_iff.mpr ⟨?_, isValidIPv4Address_append_dot name, ?_⟩)
      (Bool.eq_false_iff.mp hvalid)
    · rw [String.length_append]
      exact Nat.succ_le_succ hlength
    · rwa [withoutDot_append_dot]
  | true =>
    rw [hvalid, if_pos rfl] at hresult
    rw [hresult]
    obtain ⟨hshort, haddress, hname⟩ := isHostname_iff.mp hvalid
    by_cases hdot : m.toList.getLast? = some '.'
    · refine Or.inr (Or.inr ⟨_, hname, eq_append_dot hdot, ?_⟩)
      have hlast : (lowered T s).toList.getLast? = some '.' := by
        by_contra hnot
        rw [withoutDot_of_noDot hnot] at hm
        exact hnot (hm ▸ hdot)
      refine ⟨_, ?_, hname, ?_⟩
      · rw [eq_append_dot hlast, hm, append_dots, ← eq_append_dot hdot]
      · rw [eq_append_dot hdot, String.length_append] at hshort
        exact Nat.le_of_succ_le_succ hshort
    · rw [withoutDot_of_noDot hdot] at hname
      refine Or.inr (Or.inl
        ⟨⟨⟨hshort, hname, hdot, not_isValidIPv4Address_iff.mp haddress⟩, ?_⟩, ?_⟩)
      · intro c hc
        have hmem : c ∈ (lowered T s).toList := mem_of_mem_withoutDot (hm.symm ▸ hc)
        rw [lowered, toLowerCase, String.toList_ofList] at hmem
        exact isLower_of_mem_lowerFrom hmem
      · rintro ⟨name, hname', -, -⟩
        rw [hdots name hname'] at hdot
        exact hdot (by simp)

/-- The normal form of a text is a name of a server, if it is anything, and its own normal form. -/
structure Normalizes (T : CharTables) (s : String) : Prop where
  stable : normalizeHostname T (normalizeHostname T s) = normalizeHostname T s
  valid : normalizeHostname T s ≠ "" → HostName T (normalizeHostname T s)

theorem normalizes_iff {T : CharTables} {s : String} : Normalizes T s ↔ ¬ DoubleDot T s := by
  rcases normalizeHostname_cases T s with ⟨hempty, hnot⟩ | ⟨hnormal, hnot⟩ | ⟨name, -, hname, hdots⟩
  · exact iff_of_true ⟨by rw [hempty]; rfl, fun hne => absurd hempty hne⟩ hnot
  · exact iff_of_true ⟨hnormal.normalizeHostname, fun _ => hnormal.toHostName⟩ hnot
  · refine iff_of_false (fun h => ?_) (not_not_intro hdots)
    have hne : normalizeHostname T s ≠ "" := by
      rw [hname]
      intro hempty
      have hlength := congrArg String.length hempty
      rw [String.length_append] at hlength
      exact absurd hlength (Nat.succ_ne_zero _)
    refine (h.valid hne).noDot ?_
    rw [hname]
    simp

/-! ## 5. The list -/

/-- The names that are given on are names of servers, and of different ones. -/
structure EmitsHosts (T : CharTables) (text : String) : Prop where
  hosts : ∀ host ∈ parseCdnFrontingCustomSniList T text,
    HostName T host ∧ normalizeHostname T host = host
  distinct : ((parseCdnFrontingCustomSniList T text).map withoutDot).Nodup

theorem parseSniList_eq_insertAll (T : CharTables) (text : String) :
    parseCdnFrontingCustomSniList T text =
      insertAll [] (((splitRuns text).map (normalizeHostname T)).filter (· ≠ "")) := by
  rw [parseCdnFrontingCustomSniList]
  split
  · rename_i hempty
    subst hempty
    rfl
  · refine (foldl_insert_eq (normalizeHostname T) (· = "") [] _).trans ?_
    rfl

theorem mem_parseSniList {T : CharTables} {text host : String} :
    host ∈ parseCdnFrontingCustomSniList T text ↔
      host ≠ "" ∧ ∃ t ∈ splitRuns text, normalizeHostname T t = host := by
  rw [parseSniList_eq_insertAll, mem_insertAll, or_iff_right List.not_mem_nil, List.mem_filter,
    List.mem_map, decide_eq_true_eq, and_comm]

/-- **The list is right if no name in it had two dots.** -/
theorem emitsHosts_iff {T : CharTables} {text : String} :
    EmitsHosts T text ↔ ∀ t ∈ splitRuns text, ¬ DoubleDot T t := by
  constructor
  · intro h t ht hdots
    refine normalizes_iff.mp ⟨?_, fun hne => ?_⟩ hdots
    · by_cases hne : normalizeHostname T t = ""
      · rw [hne]
        rfl
      · exact (h.hosts _ (mem_parseSniList.mpr ⟨hne, t, ht, rfl⟩)).2
    · exact (h.hosts _ (mem_parseSniList.mpr ⟨hne, t, ht, rfl⟩)).1
  · intro h
    have hhosts : ∀ host ∈ parseCdnFrontingCustomSniList T text,
        HostName T host ∧ normalizeHostname T host = host := by
      intro host hhost
      obtain ⟨hne, t, ht, rfl⟩ := mem_parseSniList.mp hhost
      have hnormal := normalizes_iff.mpr (h t ht)
      exact ⟨hnormal.valid hne, hnormal.stable⟩
    refine ⟨hhosts, ?_⟩
    have hsame : (parseCdnFrontingCustomSniList T text).map withoutDot =
        parseCdnFrontingCustomSniList T text :=
      (List.map_congr_left fun host hhost => withoutDot_of_noDot (hhosts host hhost).1.noDot).trans
        (List.map_id _)
    rw [hsame, parseSniList_eq_insertAll]
    exact nodup_insertAll List.nodup_nil _

/-- **When normalizing is a projection onto names of servers**: for texts that are not, trimmed and
in lower case, a name with two dots behind it. -/
theorem normalize_iff (T : CharTables) :
    (∀ s, Normalizes T s ↔ ¬ DoubleDot T s) ∧
      ∀ text, EmitsHosts T text ↔ ∀ t ∈ splitRuns text, ¬ DoubleDot T t :=
  ⟨fun _ => normalizes_iff, fun _ => emitsHosts_iff⟩

/-- Capital letters are moved, everything else stays. -/
theorem toLower_cases (c : Char) :
    (¬ (65 ≤ c.toNat ∧ c.toNat ≤ 90) ∧ c.toLower = c) ∨
      (65 ≤ c.toNat ∧ c.toNat ≤ 90) ∧ c.toLower.toNat = c.toNat + 32 := by
  by_cases h : c.val ≥ 'A'.val ∧ c.val ≤ 'Z'.val
  · have hlow : 65 ≤ c.toNat := UInt32.le_iff_toNat_le.mp h.1
    have hhigh : c.toNat ≤ 90 := UInt32.le_iff_toNat_le.mp h.2
    have hlower : c.toLower.val = c.val + 32 := congrArg Char.val (dif_pos h)
    refine Or.inr ⟨⟨hlow, hhigh⟩, ?_⟩
    change c.toLower.val.toNat = c.val.toNat + 32
    change c.val.toNat ≤ 90 at hhigh
    have h32 : (32 : UInt32).toNat = 32 := rfl
    rw [hlower, UInt32.toNat_add, h32]
    omega
  · refine Or.inl ⟨fun hrange => h ⟨?_, ?_⟩, dif_neg h⟩
    · exact UInt32.le_iff_toNat_le.mpr hrange.1
    · exact UInt32.le_iff_toNat_le.mpr hrange.2

/-- What is not ASCII stays so, and comes from nothing else. -/
theorem toLower_ne_of_le {c d : Char} (hd : 0x80 ≤ d.toNat) (hc : c ≠ d) : c.toLower ≠ d := by
  rcases toLower_cases c with ⟨-, hsame⟩ | ⟨hupper, hlower⟩
  · rwa [hsame]
  · rintro rfl
    omega

theorem toLower_idem (c : Char) : c.toLower.toLower = c.toLower := by
  rcases toLower_cases c with ⟨-, hsame⟩ | ⟨hupper, hlower⟩
  · rw [hsame, hsame]
  · rcases toLower_cases c.toLower with ⟨-, hsame⟩ | ⟨hupper', -⟩
    · exact hsame
    · omega

/-- `Character.toLowerCase`, on the basic Latin letters. -/
def basicLower (c : Char) : Char := if c = 'İ' then 'i' else if c = 'Σ' then 'σ' else c.toLower

theorem basicLower_idem (c : Char) : basicLower (basicLower c) = basicLower c := by
  by_cases hi : c = 'İ'
  · subst hi
    decide
  by_cases hs : c = 'Σ'
  · subst hs
    decide
  have hlower : basicLower c = c.toLower := by rw [basicLower, if_neg hi, if_neg hs]
  rw [hlower, basicLower, if_neg (toLower_ne_of_le (by decide) hi),
    if_neg (toLower_ne_of_le (by decide) hs), toLower_idem]

/-- The tables of the basic Latin letters. -/
def basicLatin : CharTables where
  isLetter c := c.isAlpha
  toLowerCase := basicLower
  isFinalSigma _ _ := false
  isLetter_ascii _ _ := rfl
  toLowerCase_idem := basicLower_idem
  toLowerCase_dotted := rfl
  toLowerCase_sigma := by decide
  toLowerCase_final := by decide
  toLowerCase_dot := by decide

/-- **Two dots.** -/
theorem double_dot_kept :
    normalizeHostname basicLatin "a.." = "a." ∧ normalizeHostname basicLatin "a." = "a" ∧
      ¬ Normalizes basicLatin "a.." ∧
      parseCdnFrontingCustomSniList basicLatin "a.., a" = ["a.", "a"] ∧
      ¬ EmitsHosts basicLatin "a.., a" := by
  have htwo : normalizeHostname basicLatin "a.." = "a." := by decide +kernel
  have hone : normalizeHostname basicLatin "a." = "a" := by decide +kernel
  have hlist : parseCdnFrontingCustomSniList basicLatin "a.., a" = ["a.", "a"] := by decide +kernel
  refine ⟨htwo, hone, fun h => ?_, hlist, fun h => ?_⟩
  · have hstable := h.stable
    rw [htwo, hone] at hstable
    exact absurd hstable (by decide)
  · have hdot := (h.hosts "a." (by rw [hlist]; simp)).1.noDot
    exact hdot (by decide)

end ShiroKhorshid.Cdn
