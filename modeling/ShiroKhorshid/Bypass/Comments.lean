/-
# Comments in lists of routes (`BypassRoutes.tokenize`, `parseRemoteBody`)

A list of routes has one entry on a line, and comments after `#`.  Two parsers read such lists.
`parseRemoteBody` goes by lines, and drops one that starts with `#`.  `BypassRoutes.parseBlob` goes
by tokens, and drops one that starts with `#`: the token, not the line.  So it goes on to read the
words of a comment, and takes those that look like an address for entries; and of a line that has a
comment after its entry it takes the entry, which `parseRemoteBody` does not.

* The tokens of a text are those of its lines, one after the other (`tokenize_lines`), and a line
  without separators is one token (`tokenize_of_trimmed`); so both parsers go through the same row
  of entries, and one of them keeps only those that have their line for themselves.
* What they make of an entry they both take is the same route (`remoteRoute_eq`).
* Each collects its routes without repetition, so the question is when leaving out some of a row
  does not change what is noted first: `Lib.FirstOccurrence` has that (`Backed`).

`comments_agree_iff` says on which texts the two read the same list, in the same order.

It is about comments and nothing else: a text without a `#` may still be read differently, where a
line has two entries, and the theorem says so too.
-/
import ShiroKhorshid.Bypass.Grammar
import ShiroKhorshid.Lib.FirstOccurrence

namespace ShiroKhorshid.Bypass

open Jvm Vpn Service Dotted Linked

/-! ## 1. Tokens and lines -/

/-- The characters that `tokenize` splits at. -/
def isSeparator (c : Char) : Bool := ['\n', '\r', ',', ' ', '\t'].contains c

/-- The tokens that `tokenize` keeps. -/
def isEntry (t : String) : Bool := t ≠ "" && t.toList.head? ≠ some '#'

/-- `tokenize`, on characters. -/
def tokensOf (cs : List Char) : List String :=
  ((cs.splitOnP isSeparator).map fun part => kotlinTrim (String.ofList part)).filter isEntry

theorem tokenize_eq (s : String) : tokenize s = tokensOf s.toList := by
  change (((s.toList.splitOnP isSeparator).map String.ofList).map kotlinTrim).filter isEntry = _
  rw [List.map_map]
  rfl

/-- A text is tokenized line by line. -/
theorem tokenize_lines (body : String) : tokenize body = (lines body).flatMap tokenize := by
  have hsplit : splitAny isSeparator body = (lines body).flatMap (splitAny isSeparator) := by
    refine splitAny_eq_flatMap (fun c hc => ?_) body
    rcases Bool.or_eq_true_iff.mp hc with h | h
    · rw [of_decide_eq_true h]
      rfl
    · rw [of_decide_eq_true h]
      rfl
  change ((splitAny isSeparator body).map kotlinTrim).filter isEntry = _
  rw [hsplit, List.map_flatMap, List.filter_flatMap]
  rfl

/-- White space in front of a text makes no token. -/
theorem tokensOf_cons {c : Char} (hc : isWhitespace c = true) (cs : List Char) :
    tokensOf (c :: cs) = tokensOf cs := by
  rw [tokensOf, tokensOf, List.splitOnP_cons_eq_if_modifyHead]
  split
  · rfl
  · obtain ⟨part, parts, hparts⟩ :=
      List.exists_cons_of_ne_nil (List.splitOnP_ne_nil isSeparator cs)
    have hhead : kotlinTrim (String.ofList (c :: part)) = kotlinTrim (String.ofList part) :=
      trimChars_of_append [c] part [] (by simp) (by simpa using hc) (by simp)
    rw [hparts, List.modifyHead_cons, List.map_cons, List.map_cons, hhead]

/-- Nor does white space after it. -/
theorem tokensOf_append {core : List Char} (hcore : ∀ c ∈ core, isSeparator c = false)
    {back : List Char} (hback : ∀ c ∈ back, isWhitespace c = true) :
    tokensOf (core ++ back) = [kotlinTrim (String.ofList core)].filter isEntry := by
  induction back generalizing core with
  | nil => rw [List.append_nil, tokensOf, List.splitOnP_eq_singleton hcore, List.map_singleton]
  | cons c back ih =>
    have hrest : ∀ d ∈ back, isWhitespace d = true := fun d hd =>
      hback d (List.mem_cons_of_mem _ hd)
    cases hc : isSeparator c with
    | true =>
      have hblank : tokensOf back = [] := by
        refine List.filter_eq_nil_iff.mpr fun t ht => ?_
        obtain ⟨part, hpart, rfl⟩ := List.mem_map.mp ht
        have hpart' : ∀ d ∈ part, isWhitespace d = true := fun d hd =>
          hrest d (mem_of_mem_splitOnP hpart d hd).1
        have hempty : kotlinTrim (String.ofList part) = "" :=
          trimChars_of_append part [] [] (by simp) hpart' (by simp)
        rw [hempty]
        decide
      rw [tokensOf, List.splitOnP_append_cons_of_forall_mem hcore c hc, List.map_cons,
        ← List.singleton_append, List.filter_append]
      exact (congrArg _ hblank).trans (List.append_nil _)
    | false =>
      have hcore' : ∀ d ∈ core ++ [c], isSeparator d = false := by
        intro d hd
        rcases List.mem_append.mp hd with hd | hd
        · exact hcore d hd
        · rwa [List.mem_singleton.mp hd]
      have hsame : kotlinTrim (String.ofList (core ++ [c])) = kotlinTrim (String.ofList core) :=
        trimChars_of_append [] core [c] (by simp) (by simp)
          (by simpa using hback c List.mem_cons_self)
      rw [List.append_cons, ih hcore' hrest, hsame]

/-- **A line without separators** has one token. -/
theorem tokenize_of_trimmed {l : String}
    (h : ∀ c ∈ (kotlinTrim l).toList, isSeparator c = false) :
    tokenize l = [kotlinTrim l].filter isEntry := by
  obtain ⟨front, back, hl, hfront, hback⟩ := exists_trimChars isWhitespace l
  have hdrop : ∀ {front : List Char} (cs : List Char), (∀ c ∈ front, isWhitespace c = true) →
      tokensOf (front ++ cs) = tokensOf cs := by
    intro front cs hfront
    induction front with
    | nil => rfl
    | cons c front ih =>
      rw [List.cons_append, tokensOf_cons (hfront c List.mem_cons_self),
        ih fun d hd => hfront d (List.mem_cons_of_mem _ hd)]
  change l.toList = front ++ (kotlinTrim l).toList ++ back at hl
  have hidem : kotlinTrim (kotlinTrim l) = kotlinTrim l := trimChars_idem _ _
  rw [tokenize_eq, hl, List.append_assoc, hdrop _ hfront, tokensOf_append h hback,
    String.ofList_toList, hidem]

/-- Tokens on both sides of a separator. -/
theorem tokensOf_append_cons (cs ds : List Char) {c : Char} (hc : isSeparator c = true) :
    tokensOf (cs ++ c :: ds) = tokensOf cs ++ tokensOf ds := by
  rw [tokensOf, List.splitOnP_append_cons _ _ hc, List.map_append, List.filter_append]
  rfl

/-! ## 2. What the parsers make of a line -/

theorem taken_chars {cs : List Char} {octets : List ℕ} {n : ℕ} (h : Taken cs octets n) :
    ∀ c ∈ cs, isSeparator c = false ∧ c ≠ '#' := by
  have hnumber : ∀ cs n, Lenient cs n → ∀ c ∈ cs, isSeparator c = false ∧ c ≠ '#' := by
    intro cs n hn c hc
    have hnot : ∀ d : Char, d.toNat < 0x30 → d ≠ '+' → d ≠ '-' → c ≠ d := by
      rintro d hlow hplus hminus rfl
      exact hn.not_mem hlow hplus hminus hc
    refine ⟨?_, hnot '#' (by decide) (by decide) (by decide)⟩
    simp [isSeparator, hnot '\n' (by decide) (by decide) (by decide),
      hnot '\r' (by decide) (by decide) (by decide), hnot ',' (by decide) (by decide) (by decide),
      hnot ' ' (by decide) (by decide) (by decide), hnot '\t' (by decide) (by decide) (by decide)]
  exact h.chars (by decide) (by decide) hnumber hnumber

theorem trimmed_kotlinTrim (l : String) : trimmed (kotlinTrim l) = trimmed l :=
  congrArg String.toList (trimChars_idem _ _)

theorem parseRoute_kotlinTrim (l : String) : parseRoute (kotlinTrim l) = parseRoute l :=
  Option.ext fun r => by rw [parseRoute_eq_some_iff, parseRoute_eq_some_iff, trimmed_kotlinTrim]

/-- An entry is kept by both parsers. -/
theorem isEntry_of_parseRoute {l : String} {r : BypassRoute} (h : parseRoute l = some r) :
    isEntry (kotlinTrim l) = true ∧ ∀ c ∈ (kotlinTrim l).toList, isSeparator c = false := by
  obtain ⟨octets, n, htaken, -⟩ := parseRoute_eq_some_iff.mp h
  refine ⟨?_, fun c hc => (taken_chars htaken c hc).1⟩
  have hne : kotlinTrim l ≠ "" := by
    intro hempty
    have hnone : parseRoute "" = none := by decide
    rw [← parseRoute_kotlinTrim, hempty, hnone] at h
    cases h
  have hhash : (kotlinTrim l).toList.head? ≠ some '#' := fun hhead =>
    (taken_chars htaken '#' (List.mem_of_head? hhead)).2 rfl
  simp [isEntry, hne, hhash]

/-- What `parseRemoteBody` makes of a line. -/
def remoteRoute (l : String) : Option BypassRoute :=
  let line := kotlinTrim l
  if isEntry line then parseRoute (if '/' ∈ line.toList then line else line ++ "/32") else none

theorem parseRemoteBody_eq_insertAll (body : String) :
    parseRemoteBody body = insertAll [] ((lines body).filterMap remoteRoute) := by
  have hbody : parseRemoteBody body =
      parseList ((((lines body).map kotlinTrim).filter isEntry).map fun line =>
        if '/' ∈ line.toList then line else line ++ "/32") := by
    unfold parseRemoteBody isEntry
    rfl
  rw [hbody, parseList_eq, List.filterMap_map, List.filterMap_filter, List.filterMap_map]
  refine congrArg (insertAll []) ?_
  refine List.filterMap_congr fun l _ => ?_
  simp only [Function.comp_apply, remoteRoute]

/-- A trimmed text is trimmed with a prefix length behind it. -/
theorem kotlinTrim_append_32 {t : String} (hne : t ≠ "") (ht : kotlinTrim t = t) :
    kotlinTrim (t ++ "/32") = t ++ "/32" := by
  have hdrop : t.toList.dropWhile isWhitespace = t.toList := by
    refine (List.dropWhile_suffix _).eq_of_length_le ?_
    have hlength := congrArg (fun s => s.toList.length) ht
    rw [kotlinTrim, trimChars] at hlength
    simp only [String.toList_ofList, List.length_reverse] at hlength
    rw [← hlength]
    exact (List.dropWhile_suffix _).length_le.trans (List.length_reverse ..).le
  have hcons : t.toList.isEmpty = false := by
    rw [List.isEmpty_eq_false_iff]
    exact fun hnil => hne (String.toList_inj.mp hnil)
  have hback : (t ++ "/32").toList.reverse = '2' :: '3' :: '/' :: t.toList.reverse := by simp
  rw [kotlinTrim, trimChars, String.toList_append, List.dropWhile_append, hdrop, hcons,
    if_neg (by simp), ← String.toList_append, hback, List.dropWhile_cons_of_neg (by decide),
    ← hback, List.reverse_reverse, String.ofList_toList]

/-- A prefix length of 32 changes nothing. -/
theorem parseRoute_append_32 {t : String} (htrim : kotlinTrim t = t) (hne : t ≠ "")
    (hslash : '/' ∉ t.toList) : parseRoute (t ++ "/32") = parseRoute t := by
  have hwhole : trimmed (t ++ "/32") = trimmed t ++ '/' :: ['3', '2'] := by
    rw [trimmed, trimmed, htrim, kotlinTrim_append_32 hne htrim, String.toList_append]
    rfl
  have h32 : ∀ n, Lenient ['3', '2'] n ↔ n = 32 := by
    intro n
    have hvalue : unsignedDecimal ['3', '2'] = some 32 := by decide
    constructor
    · intro h
      cases h with
      | digits h => exact Option.some.inj (h.symm.trans hvalue)
    · rintro rfl
      exact Lenient.digits hvalue
  have hslash' : '/' ∉ trimmed t := by rwa [trimmed, htrim]
  refine Option.ext fun r => ?_
  rw [parseRoute_eq_some_iff, parseRoute_eq_some_iff, hwhole]
  refine exists₂_congr fun octets n => and_congr_left fun _ => ?_
  constructor
  · intro h
    generalize hcs : trimmed t ++ '/' :: ['3', '2'] = cs at h
    cases h with
    | address hquad => exact absurd (by rw [← hcs]; simp) hquad.slash_not_mem
    | network hquad hn hls =>
      obtain ⟨rfl, rfl⟩ := Cut.append_cons_inj hcs hslash' hquad.slash_not_mem
      obtain rfl := (h32 n).mp hls
      exact Entry.address hquad
  · intro h
    generalize hcs : trimmed t = cs at h hslash'
    cases h with
    | address hquad => exact Entry.network hquad (by decide) ((h32 32).mpr rfl)
    | network hquad => exact absurd (by simp) hslash'

/-- **Both read an entry that has its line for itself.** -/
theorem remoteRoute_eq (l : String) : remoteRoute l = parseRoute l := by
  rw [remoteRoute]
  split
  · rename_i hentry
    rw [← parseRoute_kotlinTrim l]
    split
    · rfl
    · rename_i hslash
      refine parseRoute_append_32 (trimChars_idem _ _) ?_ hslash
      rintro hempty
      rw [hempty] at hentry
      exact absurd hentry (by decide)
  · rename_i hentry
    cases h : parseRoute l with
    | none => rfl
    | some r => exact absurd (isEntry_of_parseRoute h).1 hentry

/-- The routes of a line, and whether each has the line for itself. -/
def lineEntries (l : String) : List (BypassRoute × Bool) :=
  (tokenize l).filterMap fun t => (parseRoute t).map fun r => (r, decide (kotlinTrim l = t))

/-- The routes of a text. -/
def textEntries (body : String) : List (BypassRoute × Bool) := (lines body).flatMap lineEntries

theorem parseBlob_eq_noted (body : String) : parseBlob body = noted (textEntries body) := by
  rw [parseBlob, parseList_eq, tokenize_lines, noted, textEntries, List.filterMap_flatMap,
    List.map_flatMap]
  congr 2
  funext l
  rw [lineEntries, List.map_filterMap]
  congr 1
  funext t
  cases parseRoute t with
  | none => rfl
  | some r => rfl

theorem lineEntries_kept (l : String) :
    ((lineEntries l).filter Prod.snd).map Prod.fst = (parseRoute l).toList := by
  cases h : parseRoute l with
  | some r =>
    obtain ⟨hentry, hseparators⟩ := isEntry_of_parseRoute h
    rw [lineEntries, tokenize_of_trimmed hseparators, List.filter_cons_of_pos hentry]
    simp [parseRoute_kotlinTrim, h]
  | none =>
    have hnone : (lineEntries l).filter Prod.snd = [] := by
      refine List.filter_eq_nil_iff.mpr fun e he => ?_
      obtain ⟨t, -, ht⟩ := List.mem_filterMap.mp he
      obtain ⟨r, hr, rfl⟩ := Option.map_eq_some_iff.mp ht
      intro halone
      rw [← of_decide_eq_true halone, parseRoute_kotlinTrim, h] at hr
      cases hr
    rw [hnone]
    rfl

theorem parseRemoteBody_eq_notedKept (body : String) :
    parseRemoteBody body = notedKept (textEntries body) := by
  have hroutes : (lines body).filterMap remoteRoute =
      (lines body).flatMap fun l => (parseRoute l).toList := by
    rw [List.filterMap_eq_flatMap_toList]
    exact List.flatMap_congr fun l _ => by rw [remoteRoute_eq]
  rw [parseRemoteBody_eq_insertAll, hroutes, notedKept, textEntries, List.filter_flatMap,
    List.map_flatMap]
  congr 2
  funext l
  exact (lineEntries_kept l).symm

/-! ## 3. Texts with comments -/

/-- The tokens of a line that stand after its first `#`, without the one that the `#` is in. -/
def commentTokens (l : String) : List String :=
  tokensOf ((l.toList.dropWhile (· ≠ '#')).dropWhile fun c => !isSeparator c)

/-- A word that the parsers would take for an address or a network. -/
def ReadsAsRoute (t : String) : Prop := ∃ octets n, Taken (trimmed t) octets n

/-- Comments mean the same to both parsers: nothing. -/
structure CommentsAgree (body : String) : Prop where
  routes : parseBlob body = parseRemoteBody body
  blob : ∀ l ∈ lines body, ∀ t ∈ commentTokens l, parseRoute t = none
  remote : ∀ l ∈ lines body, '#' ∈ l.toList → remoteRoute l = none

/-- **On which texts the parsers agree.**  No word of a comment looks like an entry; and a network
that is first named in a line with something else, such as a comment, is named again in a line of
its own, before another line of its own names one that is new by then. -/
theorem comments_agree_iff (body : String) :
    CommentsAgree body ↔
      Backed (textEntries body) ∧ ∀ l ∈ lines body, ∀ t ∈ commentTokens l, ¬ ReadsAsRoute t := by
  have hroutes : parseBlob body = parseRemoteBody body ↔ Backed (textEntries body) := by
    rw [parseBlob_eq_noted, parseRemoteBody_eq_notedKept]
    exact insertAll_kept_iff _
  have htoken : ∀ t, parseRoute t = none ↔ ¬ ReadsAsRoute t := by
    intro t
    rw [ReadsAsRoute, ← isSome_parseRoute_iff, Bool.not_eq_true, Option.isSome_eq_false_iff,
      Option.isNone_iff_eq_none]
  have hremote : ∀ l ∈ lines body, '#' ∈ l.toList → remoteRoute l = none := by
    intro l _ hhash
    rw [remoteRoute_eq, htoken]
    rintro ⟨octets, n, htaken⟩
    obtain ⟨front, back, hl, hfront, hback⟩ := exists_trimChars isWhitespace l
    rw [hl, List.mem_append, List.mem_append] at hhash
    rcases hhash with (hmem | hmem) | hmem
    · exact absurd (hfront _ hmem) (by decide)
    · exact (taken_chars htaken _ hmem).2 rfl
    · exact absurd (hback _ hmem) (by decide)
  constructor
  · intro h
    exact ⟨hroutes.mp h.routes, fun l hl t ht => (htoken t).mp (h.blob l hl t ht)⟩
  · rintro ⟨hbacked, hcomments⟩
    exact ⟨hroutes.mpr hbacked, fun l hl t ht => (htoken t).mpr (hcomments l hl t ht), hremote⟩

/-- **A comment with a network in it.** -/
theorem comment_is_read :
    parseBlob "# office: 10.0.0.0/8" = [⟨"10.0.0.0", "255.0.0.0", 8⟩] ∧
      parseRemoteBody "# office: 10.0.0.0/8" = [] ∧ ¬ CommentsAgree "# office: 10.0.0.0/8" := by
  have hblob : parseBlob "# office: 10.0.0.0/8" = [⟨"10.0.0.0", "255.0.0.0", 8⟩] := by
    decide +kernel
  have hremote : parseRemoteBody "# office: 10.0.0.0/8" = [] := by decide +kernel
  refine ⟨hblob, hremote, fun h => ?_⟩
  have hsame := h.routes
  rw [hblob, hremote] at hsame
  cases hsame

end ShiroKhorshid.Bypass
