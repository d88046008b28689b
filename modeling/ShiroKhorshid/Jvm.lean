/-
# What the Java and Kotlin standard libraries do

The program is Java and Kotlin, and several of its decisions hang on library behaviour that is
easy to misremember: `Integer.parseInt` accepts a leading `+` and the decimal digits of every
script, `String.trim` and Kotlin's `trim` disagree on what white space is, an `int` product
wraps at 32 bits.  This module states those behaviours once, under the library's own names, so
that the modules that follow can be read against the source line by line.

* **Numbers**: machine integers are `Int`s with `toInt32`, or `BitVec`s where the code shifts; what
  `toString` prints, `parseInt` and `parseLong` read back (`parseInt_toString`).
* **Texts**: splitting keeps empty parts as the library does, and joining is undone by splitting
  where no part has the separator in it (`splitAny_joinToString`).
* **Exceptions**: a computation that may throw is a value of `Except Thrown`.  `Completes` and
  `ThrowsOnly` are taken through binds and `catch` blocks by rules of their own, so that a proof
  follows the shape of the function.
* **Searching**: what is found lies within the text (`indexOf_add_length_le`), which is what the
  bounds of `substring` ask for.

A string is a Lean `String`.  Java counts UTF-16 units and Lean counts code points; nothing
below looks inside a surrogate pair, and no character outside the Basic Multilingual Plane is a
digit or white space for the functions modelled here.
-/
import Mathlib.Data.Nat.Init
import Mathlib.Data.Int.Notation
import Mathlib.Data.List.Basic
import Mathlib.Data.List.DropRight
import Mathlib.Tactic.IntervalCases

namespace ShiroKhorshid.Jvm

/-! ## 1. Machine integers -/

/-- `int` arithmetic: the two's complement value of `n` in 32 bits. -/
def toInt32 (n : ℤ) : ℤ := n.bmod (2 ^ 32)

/-- A value that fits an `int` is its own two's complement value. -/
theorem toInt32_of_fits {n : ℤ} (h : -2 ^ 31 ≤ n) (h' : n < 2 ^ 31) : toInt32 n = n := by
  unfold toInt32
  rw [Int.bmod_def]
  omega

/-- `x << n` on `long`: only the low six bits of the distance count. -/
def shl (x : BitVec 64) (n : ℤ) : BitVec 64 := x <<< (n % 64).toNat

/-! ## 2. Decimal digits -/

/-- The zeros of the runs of ten decimal digits (category Nd) of the Basic Multilingual Plane:
ASCII, Arabic-Indic, Extended Arabic-Indic (Persian), Nko, Devanagari and so on, up to the
full-width digits. -/
def decimalZeros : List ℕ :=
  [0x0030, 0x0660, 0x06F0, 0x07C0, 0x0966, 0x09E6, 0x0A66, 0x0AE6, 0x0B66, 0x0BE6, 0x0C66,
   0x0CE6, 0x0D66, 0x0DE6, 0x0E50, 0x0ED0, 0x0F20, 0x1040, 0x1090, 0x17E0, 0x1810, 0x1946,
   0x19D0, 0x1A80, 0x1A90, 0x1B50, 0x1BB0, 0x1C40, 0x1C50, 0xA620, 0xA8D0, 0xA900, 0xA9D0,
   0xA9F0, 0xAA50, 0xABF0, 0xFF10]

/-- `Character.digit(c, 10)`, with `none` for its `-1`. -/
def digit (c : Char) : Option ℕ :=
  (decimalZeros.find? fun z => z ≤ c.toNat && c.toNat ≤ z + 9).map (c.toNat - ·)

/-- The value of a run of digits, most significant first, continuing from `n`. -/
def digitsFrom (n : ℕ) : List Char → Option ℕ
  | [] => some n
  | c :: cs => match digit c with
    | some d => digitsFrom (10 * n + d) cs
    | none => none

/-- A non-empty run of digits. -/
def unsignedDecimal : List Char → Option ℕ
  | [] => none
  | c :: cs => digitsFrom 0 (c :: cs)

/-- The grammar shared by `Integer.parseInt`, `Long.parseLong` and Kotlin's `toIntOrNull`: an
optional sign, then a non-empty run of digits, with the value between `lo` and `hi`. -/
def parseDecimal (lo hi : ℤ) (cs : List Char) : Option ℤ :=
  let signed : Option ℤ := match cs with
    | '-' :: ds => (unsignedDecimal ds).map fun n => -(n : ℤ)
    | '+' :: ds => (unsignedDecimal ds).map fun n => (n : ℤ)
    | ds => (unsignedDecimal ds).map fun n => (n : ℤ)
  signed.filter fun v => lo ≤ v && v ≤ hi

/-- `Integer.parseInt(s)` and `s.toIntOrNull()`; `none` is the `NumberFormatException`, or the
`null`. -/
def parseInt (s : String) : Option ℤ := parseDecimal (-2 ^ 31) (2 ^ 31 - 1) s.toList

/-- `Long.parseLong(s)`. -/
def parseLong (s : String) : Option ℤ := parseDecimal (-2 ^ 63) (2 ^ 63 - 1) s.toList

/-! ### What is printed is what is parsed -/

theorem digit_digitChar {d : ℕ} (h : d < 10) : digit d.digitChar = some d := by
  interval_cases d <;> decide

theorem digitsFrom_append (cs ds : List Char) (n : ℕ) :
    digitsFrom n (cs ++ ds) = (digitsFrom n cs).bind fun m => digitsFrom m ds := by
  induction cs generalizing n with
  | nil => rfl
  | cons c cs ih =>
    simp only [List.cons_append, digitsFrom]
    cases digit c with
    | none => rfl
    | some d => exact ih _

theorem digitsFrom_toDigits (n : ℕ) : digitsFrom 0 (Nat.toDigits 10 n) = some n := by
  induction n using Nat.base_induction 10 (by decide) with
  | single m hm =>
    rw [Nat.toDigits_of_lt_base hm]
    simp only [digitsFrom, digit_digitChar hm, Nat.mul_zero, Nat.zero_add]
  | digit m k hk hm ih =>
    rw [← Nat.toDigits_append_toDigits (by decide) hm hk, digitsFrom_append, ih,
      Nat.toDigits_of_lt_base hk]
    simp only [Option.bind_some, digitsFrom, digit_digitChar hk]

theorem unsignedDecimal_toDigits (n : ℕ) : unsignedDecimal (Nat.toDigits 10 n) = some n := by
  have h := digitsFrom_toDigits n
  cases hd : Nat.toDigits 10 n with
  | nil => exact absurd hd Nat.toDigits_ne_nil
  | cons c cs => rw [hd] at h; exact h

/-- No digit is a sign or a dot: the characters of a printed number are ASCII digits. -/
theorem isDigit_of_mem_toDigits {c : Char} {n : ℕ} (h : c ∈ Nat.toDigits 10 n) :
    c.isDigit = true :=
  Nat.isDigit_of_mem_toDigits (by decide) (by decide) h

/-- A printed natural number is parsed back, whenever it is in range. -/
theorem parseDecimal_toDigits {lo hi : ℤ} {n : ℕ} (hlo : lo ≤ n) (hhi : (n : ℤ) ≤ hi) :
    parseDecimal lo hi (Nat.toDigits 10 n) = some (n : ℤ) := by
  have hu := unsignedDecimal_toDigits n
  have hsigned : parseDecimal lo hi (Nat.toDigits 10 n)
      = ((unsignedDecimal (Nat.toDigits 10 n)).map fun m => (m : ℤ)).filter
          fun v => lo ≤ v && v ≤ hi := by
    unfold parseDecimal
    split
    · rename_i ds h
      exact absurd (isDigit_of_mem_toDigits (n := n) (by rw [h]; exact List.mem_cons_self))
        (by decide)
    · rename_i ds h
      exact absurd (isDigit_of_mem_toDigits (n := n) (by rw [h]; exact List.mem_cons_self))
        (by decide)
    · rfl
  rw [hsigned, hu]
  simp [hlo, hhi]

theorem parseLong_toString {n : ℕ} (h : n < 2 ^ 63) : parseLong (toString n) = some (n : ℤ) := by
  unfold parseLong
  rw [Nat.toString_eq_repr, Nat.toList_repr]
  exact parseDecimal_toDigits (by omega) (by omega)

theorem parseInt_toString {n : ℕ} (h : n < 2 ^ 31) : parseInt (toString n) = some (n : ℤ) := by
  unfold parseInt
  rw [Nat.toString_eq_repr, Nat.toList_repr]
  exact parseDecimal_toDigits (by omega) (by omega)

theorem parseInt_range {s : String} {n : ℤ} (h : parseInt s = some n) :
    -2 ^ 31 ≤ n ∧ n < 2 ^ 31 := by
  obtain ⟨-, hrange⟩ := Option.filter_eq_some_iff.mp h
  simp only [Bool.and_eq_true, decide_eq_true_eq] at hrange
  omega

/-- A printed `Int` is parsed back. -/
theorem parseInt_toString_int {n : ℤ} (h : -2 ^ 31 ≤ n) (h' : n < 2 ^ 31) :
    parseInt (toString n) = some n := by
  cases n with
  | ofNat n => exact parseInt_toString (by simp only [Int.ofNat_eq_natCast] at h'; omega)
  | negSucc n =>
    have hprint : (toString (Int.negSucc n)).toList = '-' :: Nat.toDigits 10 (n + 1) := by
      rw [Int.toString_eq_repr, Int.repr]
      simp
    have hvalue : Int.negSucc n = -((n + 1 : ℕ) : ℤ) := Int.negSucc_eq n
    rw [parseInt, hprint, parseDecimal]
    simp only [unsignedDecimal_toDigits]
    rw [hvalue]
    refine Option.filter_eq_some_iff.mpr ⟨rfl, ?_⟩
    simp only [Bool.and_eq_true, decide_eq_true_eq]
    omega

/-! ## 3. Splitting and trimming -/

/-- `s.split(c)` for a one-character separator, every empty part kept. -/
def split (s : String) (c : Char) : List String := (s.toList.splitOn c).map String.ofList

/-- Joining parts that do not hold the separator and splitting again gives the parts back. -/
theorem split_intercalate (c : Char) (ps : List String) (hne : ps ≠ [])
    (h : ∀ p ∈ ps, c ∉ p.toList) :
    split (String.ofList ([c].intercalate (ps.map String.toList))) c = ps := by
  unfold split
  rw [String.toList_ofList, List.splitOn_intercalate c _ (by simpa using hne)]
  · rw [List.map_map]
    exact List.map_id'' (fun p => String.ofList_toList) ps
  · intro l hl
    obtain ⟨p, hp, rfl⟩ := List.mem_map.mp hl
    exact h p hp

/-- `parts.joinToString(c)`. -/
def joinToString (c : Char) (parts : List String) : String :=
  String.ofList ([c].intercalate (parts.map String.toList))

/-- Splitting and joining again gives the whole back. -/
theorem joinToString_split (s : String) (c : Char) : joinToString c (split s c) = s := by
  have hid : String.toList ∘ String.ofList = id := funext fun cs => String.toList_ofList
  rw [joinToString, split, List.map_map, hid, List.map_id, List.intercalate_splitOn,
    String.ofList_toList]

/-- What is in a part is in the whole. -/
theorem mem_joinToString {c d : Char} {s : String} {parts : List String} (hs : s ∈ parts)
    (hd : d ∈ s.toList) : d ∈ (joinToString c parts).toList := by
  have hmem : ∀ ls : List (List Char), s.toList ∈ ls → d ∈ [c].intercalate ls := by
    intro ls hls
    induction ls with
    | nil => cases hls
    | cons l ls ih =>
      cases ls with
      | nil =>
        obtain rfl := List.mem_singleton.mp hls
        rwa [List.intercalate_singleton]
      | cons l' ls =>
        rw [List.intercalate_cons_cons, List.mem_append, List.mem_append]
        rcases List.mem_cons.mp hls with rfl | hls
        · exact Or.inl (Or.inl hd)
        · exact Or.inr (ih hls)
  rw [joinToString, String.toList_ofList]
  exact hmem _ (List.mem_map.mpr ⟨s, hs, rfl⟩)

/-- `s.split(c₁, .., cₙ)`, the separators given by a predicate. -/
def splitAny (p : Char → Bool) (s : String) : List String :=
  (s.toList.splitOnP p).map String.ofList

/-- Parts joined by a separator are split one by one. -/
theorem splitAny_joinToString {p : Char → Bool} {c : Char} (hc : p c = true) {parts : List String}
    (hne : parts ≠ []) : splitAny p (joinToString c parts) = parts.flatMap (splitAny p) := by
  have hsplit : ∀ ls : List (List Char), ls ≠ [] →
      ([c].intercalate ls).splitOnP p = ls.flatMap (List.splitOnP p) := by
    intro ls hls
    induction ls with
    | nil => exact absurd rfl hls
    | cons l ls ih =>
      cases ls with
      | nil => simp
      | cons l' ls =>
        rw [List.intercalate_cons_cons, List.append_assoc, List.singleton_append,
          List.splitOnP_append_cons _ _ hc, ih (List.cons_ne_nil _ _)]
        exact List.flatMap_cons.symm
  rw [splitAny, joinToString, String.toList_ofList, hsplit _ (by simpa using hne),
    List.flatMap_map, List.map_flatMap]
  rfl

/-- There is nothing to split in a string without separators. -/
theorem splitAny_eq_singleton {p : Char → Bool} {s : String} (h : ∀ d ∈ s.toList, p d = false) :
    splitAny p s = [s] := by
  rw [splitAny, List.splitOnP_eq_singleton h, List.map_singleton, String.ofList_toList]

theorem splitOnP_eq_flatMap {p q : Char → Bool} (h : ∀ c, p c = true → q c = true)
    (cs : List Char) : cs.splitOnP q = (cs.splitOnP p).flatMap (List.splitOnP q) := by
  induction cs with
  | nil => simp
  | cons c cs ih =>
    rw [List.splitOnP_cons_eq_if_modifyHead, List.splitOnP_cons_eq_if_modifyHead, ih]
    obtain ⟨part, parts, hparts⟩ := List.exists_cons_of_ne_nil (List.splitOnP_ne_nil p cs)
    cases hp : p c with
    | true => simp [h c hp, hparts]
    | false =>
      rw [hparts]
      obtain ⟨piece, pieces, hpieces⟩ := List.exists_cons_of_ne_nil (List.splitOnP_ne_nil q part)
      have hq := List.splitOnP_cons_eq_if_modifyHead (p := q) c part
      cases hqc : q c with
      | true => simp [hqc] at hq; simp [hq]
      | false => simp [hqc] at hq; simp [hq, hpieces]

/-- Cut at some separators first, at all of them then. -/
theorem splitAny_eq_flatMap {p q : Char → Bool} (h : ∀ c, p c = true → q c = true) (s : String) :
    splitAny q s = (splitAny p s).flatMap (splitAny q) := by
  rw [splitAny, splitOnP_eq_flatMap h, splitAny, List.flatMap_map, List.map_flatMap]
  refine List.flatMap_congr fun part _ => ?_
  rw [splitAny, String.toList_ofList]

theorem mem_of_mem_splitOnP {p : Char → Bool} {cs part : List Char} (h : part ∈ cs.splitOnP p) :
    ∀ c ∈ part, c ∈ cs ∧ p c = false := by
  induction cs generalizing part with
  | nil => simp_all
  | cons c cs ih =>
    rw [List.splitOnP_cons_eq_if_modifyHead] at h
    intro d hd
    split at h
    · rcases List.mem_cons.mp h with rfl | h
      · exact absurd hd List.not_mem_nil
      · exact (ih h d hd).imp_left (List.mem_cons_of_mem _)
    · rename_i hc
      obtain ⟨piece, pieces, hpieces⟩ := List.exists_cons_of_ne_nil (List.splitOnP_ne_nil p cs)
      rw [hpieces, List.modifyHead_cons] at h
      rcases List.mem_cons.mp h with rfl | h
      · rcases List.mem_cons.mp hd with rfl | hd
        · exact ⟨List.mem_cons_self, Bool.eq_false_iff.mpr hc⟩
        · exact (ih (by rw [hpieces]; simp) d hd).imp_left (List.mem_cons_of_mem _)
      · exact (ih (by rw [hpieces]; simp [h]) d hd).imp_left (List.mem_cons_of_mem _)

/-- `s.compareTo(t) <= 0`: the lexicographic order of the characters. -/
def compareToLe : List Char → List Char → Bool
  | [], _ => true
  | _ :: _, [] => false
  | c :: cs, d :: ds => c.toNat < d.toNat || (c == d && compareToLe cs ds)

/-- Characters dropped from both ends. -/
def trimChars (p : Char → Bool) (s : String) : String :=
  String.ofList (((s.toList.dropWhile p).reverse.dropWhile p).reverse)

/-- Trimming twice is trimming once. -/
theorem trimChars_idem (q : Char → Bool) (s : String) :
    trimChars q (trimChars q s) = trimChars q s := by
  unfold trimChars
  rw [String.toList_ofList]
  have hhead := List.dropWhile_eq_self_iff.mp (List.dropWhile_idempotent (p := q) s.toList)
  have hpre : (s.toList.dropWhile q).rdropWhile q <+: s.toList.dropWhile q :=
    List.rdropWhile_prefix q _
  have hfront : ((s.toList.dropWhile q).rdropWhile q).dropWhile q
      = (s.toList.dropWhile q).rdropWhile q := by
    refine List.dropWhile_eq_self_iff.mpr ?_
    intro hl
    rw [hpre.getElem hl]
    exact hhead (hl.trans_le hpre.length_le)
  have hback : ((s.toList.dropWhile q).rdropWhile q).rdropWhile q
      = (s.toList.dropWhile q).rdropWhile q := List.rdropWhile_idempotent _ _
  change String.ofList ((((s.toList.dropWhile q).rdropWhile q).dropWhile q).rdropWhile q) = _
  rw [hfront, hback]
  rfl

/-- There is nothing to trim off a string without such characters. -/
theorem trimChars_eq_self {q : Char → Bool} {s : String} (h : ∀ c ∈ s.toList, q c = false) :
    trimChars q s = s := by
  have hdrop : ∀ cs : List Char, (∀ c ∈ cs, q c = false) → cs.dropWhile q = cs := by
    intro cs hcs
    cases cs with
    | nil => rfl
    | cons c cs => simp [hcs c (by simp)]
  rw [trimChars, hdrop _ h, hdrop _ (by simpa using h), List.reverse_reverse, String.ofList_toList]

/-- What is trimmed off. -/
theorem exists_trimChars (q : Char → Bool) (s : String) :
    ∃ front back, s.toList = front ++ (trimChars q s).toList ++ back ∧
      (∀ c ∈ front, q c = true) ∧ ∀ c ∈ back, q c = true := by
  refine ⟨s.toList.takeWhile q, (s.toList.dropWhile q).rtakeWhile q, ?_, ?_, ?_⟩
  · rw [trimChars, String.toList_ofList, List.append_assoc]
    change _ = _ ++ ((s.toList.dropWhile q).rdropWhile q ++ _)
    rw [List.rdropWhile_append_rtakeWhile, List.takeWhile_append_dropWhile]
  · exact fun c hc => List.mem_takeWhile_imp hc
  · exact fun c hc => List.mem_rtakeWhile_imp hc

/-- What is put around a text comes off again. -/
theorem trimChars_of_append {q : Char → Bool} {s : String} (front core back : List Char)
    (hs : s.toList = front ++ core ++ back) (hfront : ∀ c ∈ front, q c = true)
    (hback : ∀ c ∈ back, q c = true) :
    trimChars q s = trimChars q (String.ofList core) := by
  rw [trimChars, hs, trimChars, String.toList_ofList, List.append_assoc,
    List.dropWhile_append_of_pos hfront, List.dropWhile_append]
  split
  · rename_i hcore
    rw [List.isEmpty_iff.mp hcore, List.dropWhile_eq_nil_iff.mpr hback]
  · rw [List.reverse_append, List.dropWhile_append_of_pos (by simpa using hback)]

/-- `String.trim()`: everything up to U+0020 goes. -/
def javaTrim (s : String) : String := trimChars (fun c => c.toNat ≤ 0x20) s

theorem digit_toNat {c : Char} {d : ℕ} (h : digit c = some d) : 0x30 ≤ c.toNat := by
  obtain ⟨z, hz, -⟩ := Option.map_eq_some_iff.mp h
  have hle := List.find?_some hz
  rw [Bool.and_eq_true, decide_eq_true_eq, decide_eq_true_eq] at hle
  have hzero : ∀ z ∈ decimalZeros, 0x30 ≤ z := by decide
  exact (hzero z (List.mem_of_find?_eq_some hz)).trans hle.1

theorem toNat_of_digitsFrom {cs : List Char} {n m : ℕ} (h : digitsFrom n cs = some m) :
    ∀ c ∈ cs, 0x30 ≤ c.toNat := by
  induction cs generalizing n with
  | nil => simp
  | cons c cs ih =>
    rw [digitsFrom] at h
    cases hd : digit c with
    | none => simp [hd] at h
    | some d =>
      rw [hd] at h
      intro c' hc'
      rcases List.mem_cons.mp hc' with rfl | hc'
      · exact digit_toNat hd
      · exact ih h c' hc'

theorem toNat_of_unsignedDecimal {cs : List Char} {n : ℕ} (h : unsignedDecimal cs = some n) :
    ∀ c ∈ cs, 0x30 ≤ c.toNat := by
  cases cs with
  | nil => simp
  | cons c cs => exact toNat_of_digitsFrom h

/-- A number has no space around it. -/
theorem javaTrim_of_parseInt {s : String} {n : ℤ} (h : parseInt s = some n) : javaTrim s = s := by
  obtain ⟨hsigned, -⟩ := Option.filter_eq_some_iff.mp h
  have hdigits : ∀ {ds : List Char}, unsignedDecimal ds ≠ none → ∀ c ∈ ds, 0x20 < c.toNat := by
    intro ds hds c hc
    obtain ⟨m, hm⟩ := Option.ne_none_iff_exists'.mp hds
    have := toNat_of_unsignedDecimal hm c hc
    omega
  have hsign : ∀ {ds : List Char} {sign : Char}, 0x20 < sign.toNat → unsignedDecimal ds ≠ none →
      ∀ c ∈ sign :: ds, 0x20 < c.toNat := by
    intro ds sign hsign hds c hc
    rcases List.mem_cons.mp hc with rfl | hc
    · exact hsign
    · exact hdigits hds c hc
  have hall : ∀ c ∈ s.toList, 0x20 < c.toNat := by
    split at hsigned
    · rename_i ds hs
      rw [hs]
      exact hsign (by decide) (by rintro hnone; simp [hnone] at hsigned)
    · rename_i ds hs
      rw [hs]
      exact hsign (by decide) (by rintro hnone; simp [hnone] at hsigned)
    · exact hdigits (by rintro hnone; simp [hnone] at hsigned)
  refine trimChars_eq_self ?_
  intro c hc
  have := hall c hc
  simp only [decide_eq_false_iff_not]
  omega

/-- Kotlin's `Char.isWhitespace()`: `Character.isWhitespace` or `Character.isSpaceChar`. -/
def isWhitespace (c : Char) : Bool :=
  let n := c.toNat
  (0x09 ≤ n && n ≤ 0x0D) || (0x1C ≤ n && n ≤ 0x20) || n == 0xA0 || n == 0x1680 ||
    (0x2000 ≤ n && n ≤ 0x200A) || n == 0x2028 || n == 0x2029 || n == 0x202F || n == 0x205F ||
    n == 0x3000

/-- Kotlin's `trim()`. -/
def kotlinTrim (s : String) : String := trimChars isWhitespace s

/-- Kotlin's `isBlank()`. -/
def isBlank (s : String) : Bool := s.toList.all isWhitespace

/-- `s.takeIf { it.isNotBlank() }` -/
def takeNotBlank (s : String) : Option String := if isBlank s then none else some s

/-! ## 4. Exceptions

A computation that may throw one is a value of `Except Thrown`. -/

inductive Thrown
  | arrayIndexOutOfBounds
  | stringIndexOutOfBounds
  | nullPointer
  | classCast
  | numberFormat
  /-- `JSONException`, the only one that is checked -/
  | json
deriving DecidableEq

/-- No exception leaves the computation. -/
def Completes {α : Type*} (x : Except Thrown α) : Prop := ∃ a, x = .ok a

section Completes

variable {α β : Type}

@[simp] theorem completes_ok (a : α) : Completes (.ok a) := ⟨a, rfl⟩

@[simp] theorem completes_pure (a : α) : Completes (pure a) := ⟨a, rfl⟩

@[simp] theorem not_completes_error (e : Thrown) : ¬ Completes (.error e : Except Thrown α) := by
  rintro ⟨_, ⟨⟩⟩

/-- One computation after the other: the second is only reached when the first completes. -/
theorem completes_bind {x : Except Thrown α} {f : α → Except Thrown β} :
    Completes (x >>= f) ↔ ∃ a, x = .ok a ∧ Completes (f a) := by
  cases x with
  | error e =>
    refine iff_of_false (not_completes_error e) ?_
    rintro ⟨_, ⟨⟩, -⟩
  | ok a =>
    constructor
    · exact fun h => ⟨a, rfl, h⟩
    · rintro ⟨_, ⟨⟩, h⟩
      exact h

theorem Completes.bind {x : Except Thrown α} {f : α → Except Thrown β} (hx : Completes x)
    (hf : ∀ a, x = .ok a → Completes (f a)) : Completes (x >>= f) := by
  obtain ⟨a, ha⟩ := hx
  exact completes_bind.mpr ⟨a, ha, hf a ha⟩

/-- No other exception than `e` leaves the computation. -/
def ThrowsOnly (e : Thrown) {α : Type*} (x : Except Thrown α) : Prop := ∀ e', x = .error e' → e' = e

theorem Completes.throwsOnly {e : Thrown} {x : Except Thrown α} (h : Completes x) :
    ThrowsOnly e x := by
  obtain ⟨a, rfl⟩ := h
  rintro _ ⟨⟩

theorem throwsOnly_error (e : Thrown) : ThrowsOnly e (.error e : Except Thrown α) := by
  rintro _ ⟨⟩
  rfl

theorem ThrowsOnly.bind {e : Thrown} {x : Except Thrown α} {f : α → Except Thrown β}
    (hx : ThrowsOnly e x) (hf : ∀ a, x = .ok a → ThrowsOnly e (f a)) : ThrowsOnly e (x >>= f) := by
  cases x with
  | error e' => exact fun e'' he'' => hx e'' (congrArg Except.error (Except.error.inj he''))
  | ok a => exact hf a rfl

/-- `try { x } catch (e) { handler }` -/
def catching (e : Thrown) (x handler : Except Thrown α) : Except Thrown α :=
  match x with
  | .ok a => .ok a
  | .error e' => if e' = e then handler else .error e'

/-- `try { x } catch (_: Exception) { handler }` -/
def catchingAll (x handler : Except Thrown α) : Except Thrown α :=
  match x with
  | .ok a => .ok a
  | .error _ => handler

theorem completes_catching_iff {e : Thrown} {x handler : Except Thrown α}
    (h : Completes handler) : Completes (catching e x handler) ↔ Completes x ∨ x = .error e := by
  cases x with
  | ok a => exact iff_of_true (completes_ok a) (Or.inl (completes_ok a))
  | error e' =>
    rw [or_iff_right (not_completes_error e'), catching]
    split
    · rename_i he
      exact iff_of_true h (congrArg _ he)
    · rename_i he
      exact iff_of_false (not_completes_error e') fun heq => he (Except.error.inj heq)

theorem ThrowsOnly.catching {e : Thrown} {x handler : Except Thrown α} (hx : ThrowsOnly e x)
    (h : Completes handler) : Completes (catching e x handler) := by
  rw [completes_catching_iff h]
  cases x with
  | ok a => exact Or.inl (completes_ok a)
  | error e' => exact Or.inr (congrArg _ (hx e' rfl))

theorem Completes.catchingAll {x handler : Except Thrown α} (h : Completes handler) :
    Completes (catchingAll x handler) := by
  cases x with
  | ok a => exact completes_ok a
  | error e => exact h

@[simp] theorem completes_map {f : α → β} {x : Except Thrown α} :
    Completes (f <$> x) ↔ Completes x := by
  cases x with
  | error e => exact iff_of_false (not_completes_error e) (not_completes_error e)
  | ok a => exact iff_of_true (completes_ok _) (completes_ok _)

end Completes

/-- `array[index]` -/
def elementAt {α : Type*} (array : List α) (index : ℤ) : Except Thrown α :=
  if index < 0 then .error .arrayIndexOutOfBounds
  else match array[index.toNat]? with
    | some a => .ok a
    | none => .error .arrayIndexOutOfBounds

/-- `ordinal()` of a constant of an enumeration, given `values()`. -/
def ordinal {α : Type*} [DecidableEq α] (values : List α) (a : α) : ℤ := values.idxOf a

/-- The constant at an index has that index for its ordinal. -/
theorem elementAt_eq_ok_iff {α : Type*} [DecidableEq α] {values : List α} (hnodup : values.Nodup)
    {index : ℤ} {a : α} :
    elementAt values index = .ok a ↔ a ∈ values ∧ index = ordinal values a := by
  unfold elementAt ordinal
  by_cases hneg : index < 0
  · rw [if_pos hneg]
    refine iff_of_false (by rintro ⟨⟩) fun h => ?_
    have := h.2
    omega
  · rw [if_neg hneg]
    obtain ⟨n, rfl⟩ := Int.eq_ofNat_of_zero_le (Int.not_lt.mp hneg)
    rw [Int.toNat_natCast, Int.ofNat_inj]
    cases hget : values[n]? with
    | none =>
      refine iff_of_false (by rintro ⟨⟩) fun h => ?_
      have hlt := List.idxOf_lt_length_of_mem h.1
      have hle := List.getElem?_eq_none_iff.mp hget
      omega
    | some b =>
      obtain ⟨hlt, rfl⟩ := List.getElem?_eq_some_iff.mp hget
      constructor
      · intro h
        cases h
        exact ⟨List.getElem_mem hlt, (hnodup.idxOf_getElem n hlt).symm⟩
      · rintro ⟨hmem, rfl⟩
        exact congrArg Except.ok (List.getElem_idxOf hlt)

/-- An index that belongs to no constant throws. -/
theorem elementAt_cases {α : Type*} [DecidableEq α] {values : List α} (hnodup : values.Nodup)
    (hall : ∀ a, a ∈ values) (index : ℤ) :
    (∃ a, index = ordinal values a ∧ elementAt values index = .ok a) ∨
      (∀ a, index ≠ ordinal values a) ∧
        elementAt values index = .error .arrayIndexOutOfBounds := by
  cases helement : elementAt values index with
  | ok a => exact Or.inl ⟨a, ((elementAt_eq_ok_iff hnodup).mp helement).2, rfl⟩
  | error e =>
    refine Or.inr ⟨fun a ha => ?_, ?_⟩
    · rw [(elementAt_eq_ok_iff hnodup).mpr ⟨hall a, ha⟩] at helement
      cases helement
    · unfold elementAt at helement
      split at helement
      · cases helement
        rfl
      · split at helement
        · cases helement
        · cases helement
          rfl

/-- `s.substring(beginIndex)` -/
def substringFrom (s : String) (beginIndex : ℤ) : Except Thrown String :=
  if 0 ≤ beginIndex ∧ beginIndex ≤ s.length then
    .ok (String.ofList (s.toList.drop beginIndex.toNat))
  else .error .stringIndexOutOfBounds

/-- `s.substring(beginIndex, endIndex)` -/
def substring (s : String) (beginIndex endIndex : ℤ) : Except Thrown String :=
  if 0 ≤ beginIndex ∧ beginIndex ≤ endIndex ∧ endIndex ≤ s.length then
    .ok (String.ofList ((s.toList.take endIndex.toNat).drop beginIndex.toNat))
  else .error .stringIndexOutOfBounds

@[simp] theorem completes_substringFrom {s : String} {beginIndex : ℤ} :
    Completes (substringFrom s beginIndex) ↔ 0 ≤ beginIndex ∧ beginIndex ≤ s.length := by
  unfold substringFrom
  split
  · exact iff_of_true (completes_ok _) ‹_›
  · exact iff_of_false (not_completes_error _) ‹_›

@[simp] theorem completes_substring {s : String} {beginIndex endIndex : ℤ} :
    Completes (substring s beginIndex endIndex) ↔
      0 ≤ beginIndex ∧ beginIndex ≤ endIndex ∧ endIndex ≤ s.length := by
  unfold substring
  split
  · exact iff_of_true (completes_ok _) ‹_›
  · exact iff_of_false (not_completes_error _) ‹_›

/-- What is left out is missing. -/
theorem length_of_substringFrom {s t : String} {beginIndex : ℤ}
    (h : substringFrom s beginIndex = .ok t) : (t.length : ℤ) = s.length - beginIndex := by
  unfold substringFrom at h
  split at h
  · obtain rfl := Except.ok.inj h
    rw [String.length_ofList, List.length_drop, String.length_toList]
    omega
  · cases h

/-! ## 5. Searching

Characters are compared by `same`: `==`, or what the library does when it ignores the case. -/

section Searching

variable (same : Char → Char → Bool)

/-- Whether a text begins with a pattern, letter by letter. -/
def beginsWith : List Char → List Char → Bool
  | [], _ => true
  | _ :: _, [] => false
  | p :: ps, c :: cs => same p c && beginsWith ps cs

/-- Where a text has a pattern first. -/
def firstIndex (pattern : List Char) : List Char → Option ℕ
  | [] => if beginsWith same pattern [] then some 0 else none
  | c :: cs =>
    if beginsWith same pattern (c :: cs) then some 0 else (firstIndex pattern cs).map (· + 1)

/-- `s.indexOf(t)`, and `s.indexOf(t, ignoreCase = true)`. -/
def indexOf (s t : String) : ℤ :=
  match firstIndex same t.toList s.toList with
  | some n => n
  | none => -1

/-- `s.contains(t)`, which is `indexOf(t) >= 0`. -/
def contains (s t : String) : Bool := 0 ≤ indexOf same s t

/-- `s.startsWith(t)` -/
def startsWith (s t : String) : Bool := beginsWith same t.toList s.toList

/-- `s.endsWith(t)` -/
def endsWith (s t : String) : Bool := t.toList.isSuffixOf s.toList

/-- `s.lastIndexOf(c)` -/
def lastIndexOf (s : String) (c : Char) : ℤ :=
  match firstIndex (· == ·) [c] s.toList.reverse with
  | some n => s.length - 1 - n
  | none => -1

/-- `s.substringAfter(t)`: the whole without `t`. -/
def substringAfter (s t : String) : String :=
  match firstIndex (· == ·) t.toList s.toList with
  | some n => String.ofList (s.toList.drop (n + t.length))
  | none => s

/-- `s.removeSuffix(t)` -/
def removeSuffix (s t : String) : String :=
  if endsWith s t then String.ofList (s.toList.take (s.length - t.length)) else s

variable {same}

theorem length_le_of_beginsWith {pattern cs : List Char} (h : beginsWith same pattern cs = true) :
    pattern.length ≤ cs.length := by
  induction pattern generalizing cs with
  | nil => exact Nat.zero_le _
  | cons p ps ih =>
    cases cs with
    | nil => cases h
    | cons c cs => exact Nat.succ_le_succ (ih (Bool.and_eq_true_iff.mp h).2)

/-- Letter by letter with `==`, it is the beginning itself. -/
theorem beginsWith_iff_prefix {pattern cs : List Char} :
    beginsWith (· == ·) pattern cs = true ↔ pattern <+: cs := by
  induction pattern generalizing cs with
  | nil => exact iff_of_true rfl List.nil_prefix
  | cons p ps ih =>
    cases cs with
    | nil => exact iff_of_false Bool.false_ne_true fun h => by cases List.prefix_nil.mp h
    | cons c cs =>
      rw [beginsWith, Bool.and_eq_true, beq_iff_eq, ih, List.cons_prefix_cons]

theorem firstIndex_add_length_le {pattern cs : List Char} {n : ℕ}
    (h : firstIndex same pattern cs = some n) : n + pattern.length ≤ cs.length := by
  induction cs generalizing n with
  | nil =>
    rw [firstIndex] at h
    split at h
    · rename_i hbegins
      cases h
      rw [Nat.zero_add]
      exact length_le_of_beginsWith hbegins
    · cases h
  | cons c cs ih =>
    rw [firstIndex] at h
    split at h
    · rename_i hbegins
      cases h
      rw [Nat.zero_add]
      exact length_le_of_beginsWith hbegins
    · obtain ⟨m, hm, rfl⟩ := Option.map_eq_some_iff.mp h
      have := ih hm
      rw [List.length_cons]
      omega

/-- What is found lies within the text. -/
theorem indexOf_add_length_le {s t : String} (h : 0 ≤ indexOf same s t) :
    indexOf same s t + t.length ≤ s.length := by
  unfold indexOf at *
  split at h
  · rename_i n hn
    have := firstIndex_add_length_le hn
    rw [String.length_toList, String.length_toList] at this
    omega
  · omega

/-- The last letter of a text is where it is found last. -/
theorem lastIndexOf_of_endsWith {s : String} {c : Char} (h : [c] <:+ s.toList) :
    lastIndexOf s c = s.length - 1 := by
  obtain ⟨front, hfront⟩ := h
  have hfirst : firstIndex (· == ·) [c] s.toList.reverse = some 0 := by
    rw [← hfront, List.reverse_append]
    simp [firstIndex, beginsWith]
  rw [lastIndexOf, hfirst]
  exact Int.sub_zero _

end Searching

end ShiroKhorshid.Jvm
