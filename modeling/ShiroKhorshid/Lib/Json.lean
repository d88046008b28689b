/-
# JSON

Values, and what a program relies on when it writes an object to a text and reads it back
(`Codec`): strings, whole numbers, arrays and objects survive; of any other number nothing is
said.  `strict` is the text itself, in its shortest form, with a parser that accepts no more than
that; `parse_text` is its round trip.

* **Values.**  An object is a list of members, and a `Proper` value has no member twice in any
  object; that is what a map of a program is when it is written.
* **Strings** are escaped character by character, and each escape is read back by what it begins
  with (`stringBody_escape`).
* **The round trip** is proved for a value and for the lists inside values together
  (`parseValue_text` and the theorems after it): what is parsed is the value, and what is left of
  the text is what came after it.  A number is the one kind whose end is only seen by what follows.
* **One line.**  The text has no line ends, as they are escaped in strings and nothing else has any.

The parser counts its steps down; every character of a text pays for one, so that there are always
enough.
-/
import Mathlib.Data.List.Induction
import Mathlib.Data.Int.Notation

namespace Json

/-! ## 1. Values -/

inductive Value
  | null
  | bool (b : Bool)
  | int (n : ℤ)
  /-- a number that is not whole, as it is written -/
  | real (literal : String)
  | str (s : String)
  | arr (vs : List Value)
  | obj (fields : List (String × Value))

abbrev Object : Type := List (String × Value)

/-- In every object the names are different. -/
inductive Proper : Value → Prop
  | null : Proper .null
  | bool (b : Bool) : Proper (.bool b)
  | int (n : ℤ) : Proper (.int n)
  | real (l : String) : Proper (.real l)
  | str (s : String) : Proper (.str s)
  | arr {vs : List Value} (h : ∀ v ∈ vs, Proper v) : Proper (.arr vs)
  | obj {fields : Object} (hnames : (fields.map Prod.fst).Nodup)
      (h : ∀ f ∈ fields, Proper f.2) : Proper (.obj fields)

/-- Writing an object and reading it back.  `back` is what becomes of a value in between. -/
structure Codec where
  toString : Object → String
  parse : String → Option Object
  back : Value → Value
  parse_toString : ∀ o, Proper (.obj o) →
    parse (toString o) = some (o.map fun f => (f.1, back f.2))
  back_null : back .null = .null
  back_bool : ∀ b, back (.bool b) = .bool b
  back_int : ∀ n, back (.int n) = .int n
  back_str : ∀ s, back (.str s) = .str s
  back_arr : ∀ vs, back (.arr vs) = .arr (vs.map back)
  back_obj : ∀ o, back (.obj o) = .obj (o.map fun f => (f.1, back f.2))
  /-- line ends are escaped -/
  oneLine : ∀ o, ∀ c ∈ (toString o).toList, c ≠ '\n' ∧ c ≠ '\r'

attribute [simp] Codec.back_null Codec.back_bool Codec.back_int Codec.back_str

/-! ## 2. Strings as text -/

/-- The letter that stands for a character after a backslash. -/
def letter (c : Char) : Option Char :=
  [('"', '"'), ('\\', '\\'), ('/', '/'), ('\x08', 'b'), ('\t', 't'), ('\n', 'n'), ('\x0c', 'f'),
    ('\r', 'r')].lookup c

/-- The character a letter after a backslash stands for. -/
def unletter (c : Char) : Option Char :=
  [('"', '"'), ('\\', '\\'), ('/', '/'), ('b', '\x08'), ('t', '\t'), ('n', '\n'), ('f', '\x0c'),
    ('r', '\r')].lookup c

/-- A character within quotes. -/
def escape (c : Char) : List Char :=
  match letter c with
  | some l => ['\\', l]
  | none =>
    if c.toNat < 0x20 then
      ['\\', 'u', '0', '0', (c.toNat / 16).digitChar, (c.toNat % 16).digitChar]
    else [c]

def quote (s : String) : List Char := '"' :: (s.toList.flatMap escape ++ ['"'])

def hexValue (c : Char) : Option ℕ := (List.range 16).find? fun d => d.digitChar = c

/-- The characters up to the closing quote, and what follows it. -/
def stringBody : List Char → Option (List Char × List Char)
  | [] => none
  | '"' :: cs => some ([], cs)
  | '\\' :: 'u' :: '0' :: '0' :: a :: b :: cs => do
    let x ← hexValue a
    let y ← hexValue b
    let (s, rest) ← stringBody cs
    some (Char.ofNat (16 * x + y) :: s, rest)
  | '\\' :: l :: cs => do
    let c ← unletter l
    let (s, rest) ← stringBody cs
    some (c :: s, rest)
  | c :: cs => do
    let (s, rest) ← stringBody cs
    some (c :: s, rest)

theorem letter_cases (c : Char) :
    letter c = none ∧ c ≠ '"' ∧ c ≠ '\\' ∧ c ≠ '\n' ∧ c ≠ '\r' ∨
      ∃ l, letter c = some l ∧ unletter l = some c ∧ l ≠ 'u' ∧ l ≠ '\n' ∧ l ≠ '\r' := by
  by_cases hc : c ∈ ['"', '\\', '/', '\x08', '\t', '\n', '\x0c', '\r']
  · right
    have hall : ∀ c ∈ ['"', '\\', '/', '\x08', '\t', '\n', '\x0c', '\r'],
        (letter c).any (fun l => unletter l == some c && l != 'u' && l != '\n' && l != '\r') := by
      simp only [List.forall_mem_cons, List.not_mem_nil, false_implies, implies_true, and_true]
      refine ⟨?_, ?_, ?_, ?_, ?_, ?_, ?_, ?_⟩ <;> rfl
    obtain ⟨l, hl, h⟩ := (Option.any_eq_true _ _).mp (hall c hc)
    simp only [Bool.and_eq_true, beq_iff_eq, bne_iff_ne] at h
    exact ⟨l, hl, h.1.1.1, h.1.1.2, h.1.2, h.2⟩
  · left
    simp only [List.mem_cons, List.not_mem_nil, or_false, not_or] at hc
    obtain ⟨h1, h2, h3, h4, h5, h6, h7, h8⟩ := hc
    refine ⟨?_, h1, h2, h6, h8⟩
    simp [letter, List.lookup_eq_none_iff, h1, h2, h3, h4, h5, h6, h7, h8]

theorem hexValue_digitChar {d : ℕ} (h : d < 16) : hexValue d.digitChar = some d := by
  have hall : ∀ d < 16, hexValue d.digitChar = some d := by decide
  exact hall d h

/-- An escaped character is read back. -/
theorem stringBody_escape (c : Char) (cs : List Char) :
    stringBody (escape c ++ cs) = (stringBody cs).map fun p => (c :: p.1, p.2) := by
  unfold escape
  rcases letter_cases c with ⟨hnone, hquote, hback, -⟩ | ⟨l, hl, hun, hu, -⟩
  · rw [hnone]
    by_cases hctl : c.toNat < 0x20
    · have hvalue : Char.ofNat (16 * (c.toNat / 16) + c.toNat % 16) = c := by
        rw [Nat.div_add_mod, Char.ofNat_toNat]
      simp only [hctl, if_true, List.cons_append, List.nil_append, stringBody]
      rw [hexValue_digitChar (by omega), hexValue_digitChar (by omega)]
      simp only [Option.bind_eq_bind, Option.bind_some, hvalue]
      cases stringBody cs <;> rfl
    · simp only [hctl, if_false, List.cons_append, List.nil_append]
      rw [stringBody.eq_def]
      split
      · simp_all
      · simp_all
      · simp_all
      · simp_all
      · rename_i c' cs' _ _ _ heq
        obtain ⟨rfl, rfl⟩ := List.cons.inj heq
        cases stringBody cs <;> rfl
  · rw [hl]
    simp only [List.cons_append, List.nil_append]
    rw [stringBody.eq_def]
    split
    · simp_all
    · simp_all
    · simp_all
    · rename_i l' cs' _ heq
      obtain ⟨-, heq⟩ := List.cons.inj heq
      obtain ⟨rfl, rfl⟩ := List.cons.inj heq
      rw [hun]
      cases stringBody cs <;> rfl
    · rename_i hno heq
      obtain ⟨rfl, rfl⟩ := List.cons.inj heq
      exact absurd rfl (hno l cs rfl)

theorem stringBody_quote (s : String) (cs : List Char) :
    stringBody (s.toList.flatMap escape ++ '"' :: cs) = some (s.toList, cs) := by
  induction s.toList with
  | nil => simp [stringBody]
  | cons c s ih => rw [List.flatMap_cons, List.append_assoc, stringBody_escape, ih]; rfl

/-! ## 3. Values as text -/

/-- A whole number. -/
def intText (n : ℤ) : List Char :=
  if n < 0 then '-' :: Nat.toDigits 10 n.natAbs else Nat.toDigits 10 n.natAbs

mutual

/-- A value as text.  A number that is not whole is written as a string. -/
def text : Value → List Char
  | .null => ['n', 'u', 'l', 'l']
  | .bool true => ['t', 'r', 'u', 'e']
  | .bool false => ['f', 'a', 'l', 's', 'e']
  | .int n => intText n
  | .real l => quote l
  | .str s => quote s
  | .arr [] => ['[', ']']
  | .arr (v :: vs) => '[' :: (text v ++ elements vs)
  | .obj [] => ['{', '}']
  | .obj (f :: fs) => '{' :: (quote f.1 ++ ':' :: (text f.2 ++ members fs))

/-- What follows a value in an array. -/
def elements : List Value → List Char
  | [] => [']']
  | v :: vs => ',' :: (text v ++ elements vs)

/-- What follows a value in an object. -/
def members : List (String × Value) → List Char
  | [] => ['}']
  | f :: fs => ',' :: (quote f.1 ++ ':' :: (text f.2 ++ members fs))

end

/-- The digits at the beginning of a text. -/
def number (cs : List Char) : Option (ℕ × List Char) :=
  if cs.takeWhile Char.isDigit = [] then none
  else some (Nat.ofDigitChars 10 (cs.takeWhile Char.isDigit) 0, cs.dropWhile Char.isDigit)

mutual

def parseValue : ℕ → List Char → Option (Value × List Char)
  | 0, _ => none
  | k + 1, cs => match cs with
    | 'n' :: 'u' :: 'l' :: 'l' :: rest => some (.null, rest)
    | 't' :: 'r' :: 'u' :: 'e' :: rest => some (.bool true, rest)
    | 'f' :: 'a' :: 'l' :: 's' :: 'e' :: rest => some (.bool false, rest)
    | '"' :: rest => (stringBody rest).map fun p => (.str (String.ofList p.1), p.2)
    | '[' :: ']' :: rest => some (.arr [], rest)
    | '[' :: rest => do
      let (v, rest) ← parseValue k rest
      let (vs, rest) ← parseElements k rest
      some (.arr (v :: vs), rest)
    | '{' :: '}' :: rest => some (.obj [], rest)
    | '{' :: rest => do
      let (f, rest) ← parseMember k rest
      let (fs, rest) ← parseMembers k rest
      some (.obj (f :: fs), rest)
    | '-' :: rest => (number rest).map fun p => (.int (-p.1), p.2)
    | rest => (number rest).map fun p => (.int p.1, p.2)

def parseElements : ℕ → List Char → Option (List Value × List Char)
  | 0, _ => none
  | _ + 1, ']' :: rest => some ([], rest)
  | k + 1, ',' :: rest => do
    let (v, rest) ← parseValue k rest
    let (vs, rest) ← parseElements k rest
    some (v :: vs, rest)
  | _ + 1, _ => none

def parseMember : ℕ → List Char → Option ((String × Value) × List Char)
  | 0, _ => none
  | k + 1, '"' :: rest => do
    let (name, rest) ← stringBody rest
    match rest with
    | ':' :: rest => do
      let (v, rest) ← parseValue k rest
      some ((String.ofList name, v), rest)
    | _ => none
  | _ + 1, _ => none

def parseMembers : ℕ → List Char → Option (List (String × Value) × List Char)
  | 0, _ => none
  | _ + 1, '}' :: rest => some ([], rest)
  | k + 1, ',' :: rest => do
    let (f, rest) ← parseMember k rest
    let (fs, rest) ← parseMembers k rest
    some (f :: fs, rest)
  | _ + 1, _ => none

end

/-! ## 4. The round trip -/

/-- No more of a number is to come. -/
def NoDigit (cs : List Char) : Prop := ∀ c ∈ cs.head?, c.isDigit = false

theorem number_toDigits (n : ℕ) {cs : List Char} (h : NoDigit cs) :
    number (Nat.toDigits 10 n ++ cs) = some (n, cs) := by
  have hdigits : ∀ c ∈ Nat.toDigits 10 n, c.isDigit = true :=
    fun c hc => Nat.isDigit_of_mem_toDigits (by decide) (by decide) hc
  have htake : cs.takeWhile Char.isDigit = [] := by
    cases cs with
    | nil => rfl
    | cons c cs => simp [h c rfl]
  have hdrop : cs.dropWhile Char.isDigit = cs := by
    cases cs with
    | nil => rfl
    | cons c cs => simp [h c rfl]
  unfold number
  rw [List.takeWhile_append_of_pos hdigits, List.dropWhile_append_of_pos hdigits, htake, hdrop,
    List.append_nil, if_neg Nat.toDigits_ne_nil, Nat.ofDigitChars_ten_toDigits]

/-- A number begins with a digit, and nothing else does. -/
theorem parseValue_digits (k n : ℕ) {cs : List Char} (h : NoDigit cs) :
    parseValue (k + 1) (Nat.toDigits 10 n ++ cs) = some (.int n, cs) := by
  have hnumber := number_toDigits n h
  cases hd : Nat.toDigits 10 n with
  | nil => exact absurd hd Nat.toDigits_ne_nil
  | cons d ds =>
    have hdigit : d.isDigit = true :=
      Nat.isDigit_of_mem_toDigits (by decide) (by decide) (hd ▸ List.mem_cons_self)
    rw [hd, List.cons_append] at hnumber
    have hne : ∀ c, c.isDigit = false → d ≠ c := by
      rintro c hc rfl
      rw [hdigit] at hc
      cases hc
    rw [List.cons_append, parseValue, hnumber]
    · rfl
    all_goals
      rintro _ heq
      exact absurd (List.cons.inj heq).1 (hne _ (by decide))

mutual

/-- What a value is after writing and reading: a number that is not whole is a string. -/
def back : Value → Value
  | .null => .null
  | .bool b => .bool b
  | .int n => .int n
  | .real l => .str l
  | .str s => .str s
  | .arr vs => .arr (backElements vs)
  | .obj fs => .obj (backMembers fs)

def backElements : List Value → List Value
  | [] => []
  | v :: vs => back v :: backElements vs

def backMembers : List (String × Value) → List (String × Value)
  | [] => []
  | f :: fs => (f.1, back f.2) :: backMembers fs

end

theorem backElements_eq (vs : List Value) : backElements vs = vs.map back := by
  induction vs with
  | nil => rfl
  | cons v vs ih => rw [backElements, ih, List.map_cons]

theorem backMembers_eq (fs : Object) : backMembers fs = fs.map fun f => (f.1, back f.2) := by
  induction fs with
  | nil => rfl
  | cons f fs ih => rw [backMembers, ih, List.map_cons]

theorem noDigit_elements (vs : List Value) (cs : List Char) : NoDigit (elements vs ++ cs) := by
  cases vs <;> simp [elements, NoDigit]

theorem noDigit_members (fs : Object) (cs : List Char) : NoDigit (members fs ++ cs) := by
  cases fs <;> simp [members, NoDigit]

/-- No value begins with a bracket that closes an array. -/
theorem text_ne_bracket (v : Value) : (text v).head? ≠ some ']' ∧ text v ≠ [] := by
  have hdigits : ∀ n, (Nat.toDigits 10 n).head? ≠ some ']' := by
    intro n hn
    have hmem := List.mem_of_mem_head? hn
    exact absurd (Nat.isDigit_of_mem_toDigits (by decide) (by decide) hmem) (by decide)
  cases v with
  | null | real | str => simp [text, quote]
  | bool b => cases b <;> simp [text]
  | int n =>
    rw [text, intText]
    split
    · simp
    · exact ⟨hdigits _, Nat.toDigits_ne_nil⟩
  | arr vs => cases vs <;> simp [text]
  | obj fs => cases fs <;> simp [text]

theorem exists_succ {n k : ℕ} (h : n + 1 ≤ k) : ∃ j, k = j + 1 ∧ n ≤ j := ⟨k - 1, by omega⟩

mutual

/-- **Reading what was written**, with enough steps. -/
theorem parseValue_text : ∀ (v : Value) (k : ℕ) (cs : List Char), (text v).length ≤ k →
    NoDigit cs → parseValue k (text v ++ cs) = some (back v, cs)
  | .null, k, cs, hk, _ => by
    obtain ⟨k, rfl, -⟩ := exists_succ hk
    simp [text, parseValue, back]
  | .bool true, k, cs, hk, _ => by
    obtain ⟨k, rfl, -⟩ := exists_succ hk
    simp [text, parseValue, back]
  | .bool false, k, cs, hk, _ => by
    obtain ⟨k, rfl, -⟩ := exists_succ hk
    simp [text, parseValue, back]
  | .int n, k, cs, hk, hcs => by
    rw [text, intText] at hk ⊢
    split at hk
    · rename_i hn
      obtain ⟨k, rfl, -⟩ := exists_succ hk
      have hvalue : -(n.natAbs : ℤ) = n := by omega
      rw [if_pos hn, List.cons_append, parseValue, number_toDigits _ hcs]
      simp only [Option.map_some, back, hvalue]
    · rename_i hn
      have hvalue : (n.natAbs : ℤ) = n := by omega
      have hlen : 0 + 1 ≤ (Nat.toDigits 10 n.natAbs).length :=
        List.length_pos_iff.mpr Nat.toDigits_ne_nil
      obtain ⟨k, rfl, -⟩ := exists_succ (Nat.le_trans hlen hk)
      rw [if_neg hn, parseValue_digits k _ hcs, hvalue, back]
  | .real l, k, cs, hk, _ => by
    obtain ⟨k, rfl, -⟩ := exists_succ hk
    simp [text, quote, parseValue, back, stringBody_quote]
  | .str s, k, cs, hk, _ => by
    obtain ⟨k, rfl, -⟩ := exists_succ hk
    simp [text, quote, parseValue, back, stringBody_quote]
  | .arr [], k, cs, hk, _ => by
    obtain ⟨k, rfl, -⟩ := exists_succ hk
    simp [text, parseValue, back, backElements]
  | .arr (v :: vs), k, cs, hk, _ => by
    rw [text, List.length_cons, List.length_append] at hk
    obtain ⟨k, rfl, hk⟩ := exists_succ hk
    have hv := parseValue_text v k (elements vs ++ cs) (by omega) (noDigit_elements vs cs)
    have hvs := parseElements_text vs k cs (by omega)
    obtain ⟨hhead, hne⟩ := text_ne_bracket v
    obtain ⟨c, rest, htext⟩ := List.exists_cons_of_ne_nil hne
    rw [htext] at hhead hv
    simp only [text, htext, List.cons_append, List.append_assoc] at hv ⊢
    rw [parseValue]
    · simp [hv, hvs, back, backElements]
    · rintro r heq
      exact hhead (by rw [(List.cons.inj heq).1]; rfl)
  | .obj [], k, cs, hk, _ => by
    obtain ⟨k, rfl, -⟩ := exists_succ hk
    simp [text, parseValue, back, backMembers]
  | .obj (f :: fs), k, cs, hk, _ => by
    rw [text, List.length_cons, List.length_append, List.length_cons, List.length_append] at hk
    obtain ⟨k, rfl, hk⟩ := exists_succ hk
    have hf := parseMember_text f k (members fs ++ cs) (by simp; omega) (noDigit_members fs cs)
    have hfs := parseMembers_text fs k cs (by omega)
    simp [quote] at hf
    simp [text, quote, parseValue, hf, hfs, back, backMembers]

theorem parseElements_text : ∀ (vs : List Value) (k : ℕ) (cs : List Char),
    (elements vs).length ≤ k → parseElements k (elements vs ++ cs) = some (backElements vs, cs)
  | [], k, cs, hk => by
    obtain ⟨k, rfl, -⟩ := exists_succ hk
    simp [elements, parseElements, backElements]
  | v :: vs, k, cs, hk => by
    rw [elements, List.length_cons, List.length_append] at hk
    obtain ⟨k, rfl, hk⟩ := exists_succ hk
    have hv := parseValue_text v k (elements vs ++ cs) (by omega) (noDigit_elements vs cs)
    have hvs := parseElements_text vs k cs (by omega)
    simp [elements, parseElements, backElements, hv, hvs]

theorem parseMember_text : ∀ (f : String × Value) (k : ℕ) (cs : List Char),
    (quote f.1 ++ ':' :: text f.2).length ≤ k → NoDigit cs →
      parseMember k (quote f.1 ++ ':' :: (text f.2 ++ cs)) = some ((f.1, back f.2), cs)
  | (name, v), k, cs, hk, hcs => by
    rw [List.length_append, List.length_cons] at hk
    obtain ⟨k, rfl, hk⟩ := exists_succ hk
    have hv := parseValue_text v k cs (by simp at hk; omega) hcs
    simp [quote, parseMember, stringBody_quote, hv]

theorem parseMembers_text : ∀ (fs : Object) (k : ℕ) (cs : List Char),
    (members fs).length ≤ k → parseMembers k (members fs ++ cs) = some (backMembers fs, cs)
  | [], k, cs, hk => by
    obtain ⟨k, rfl, -⟩ := exists_succ hk
    simp [members, parseMembers, backMembers]
  | f :: fs, k, cs, hk => by
    rw [members, List.length_cons, List.length_append, List.length_cons, List.length_append] at hk
    obtain ⟨k, rfl, hk⟩ := exists_succ hk
    have hf := parseMember_text f k (members fs ++ cs) (by simp; omega) (noDigit_members fs cs)
    have hfs := parseMembers_text fs k cs (by omega)
    simp [members, parseMembers, backMembers, hf, hfs]

end

/-! ## 5. The codec -/

/-- No line ends. -/
def OneLine (cs : List Char) : Prop := ∀ c ∈ cs, c ≠ '\n' ∧ c ≠ '\r'

theorem OneLine.append {cs ds : List Char} (h : OneLine cs) (h' : OneLine ds) :
    OneLine (cs ++ ds) := by
  intro c hc
  rcases List.mem_append.mp hc with hc | hc
  · exact h c hc
  · exact h' c hc

theorem OneLine.cons {c : Char} {cs : List Char} (h : c ≠ '\n' ∧ c ≠ '\r') (h' : OneLine cs) :
    OneLine (c :: cs) := by
  intro d hd
  rcases List.mem_cons.mp hd with rfl | hd
  · exact h
  · exact h' d hd

theorem oneLine_toDigits (n : ℕ) : OneLine (Nat.toDigits 10 n) := by
  intro c hc
  have hdigit := Nat.isDigit_of_mem_toDigits (by decide) (by decide) hc
  constructor <;> rintro rfl <;> exact absurd hdigit (by decide)

theorem oneLine_escape (c : Char) : OneLine (escape c) := by
  unfold escape
  rcases letter_cases c with ⟨hnone, -, -, hnl, hcr⟩ | ⟨l, hl, -, -, hnl, hcr⟩
  · rw [hnone]
    by_cases hctl : c.toNat < 0x20
    · have hdigit : ∀ d < 16, d.digitChar ≠ '\n' ∧ d.digitChar ≠ '\r' := by decide
      simp [OneLine, hctl, hdigit (c.toNat / 16) (by omega), hdigit (c.toNat % 16) (by omega)]
    · simp [OneLine, hctl, hnl, hcr]
  · simp [OneLine, hl, hnl, hcr]

theorem oneLine_quote (s : String) : OneLine (quote s) := by
  refine OneLine.cons (by decide) (OneLine.append ?_ (by simp [OneLine]))
  intro c hc
  obtain ⟨d, -, hd⟩ := List.mem_flatMap.mp hc
  exact oneLine_escape d c hd

mutual

theorem oneLine_text : ∀ v : Value, OneLine (text v)
  | .null => by simp [text, OneLine]
  | .bool true => by simp [text, OneLine]
  | .bool false => by simp [text, OneLine]
  | .int n => by
    rw [text, intText]
    split
    · exact (oneLine_toDigits _).cons (by decide)
    · exact oneLine_toDigits _
  | .real l => oneLine_quote l
  | .str s => oneLine_quote s
  | .arr [] => by simp [text, OneLine]
  | .arr (v :: vs) => ((oneLine_text v).append (oneLine_elements vs)).cons (by decide)
  | .obj [] => by simp [text, OneLine]
  | .obj (f :: fs) =>
    ((oneLine_quote f.1).append
      (((oneLine_text f.2).append (oneLine_members fs)).cons (by decide))).cons (by decide)

theorem oneLine_elements : ∀ vs : List Value, OneLine (elements vs)
  | [] => by simp [elements, OneLine]
  | v :: vs => ((oneLine_text v).append (oneLine_elements vs)).cons (by decide)

theorem oneLine_members : ∀ fs : Object, OneLine (members fs)
  | [] => by simp [members, OneLine]
  | f :: fs =>
    ((oneLine_quote f.1).append
      (((oneLine_text f.2).append (oneLine_members fs)).cons (by decide))).cons (by decide)

end

/-- A text that is one object and nothing else. -/
def parseObject (s : String) : Option Object :=
  match parseValue s.toList.length s.toList with
  | some (.obj o, []) => some o
  | _ => none

/-- The shortest text. -/
def strict : Codec where
  toString o := String.ofList (text (.obj o))
  parse := parseObject
  back := back
  parse_toString o _ := by
    have h := parseValue_text (.obj o) _ [] (Nat.le_refl _) (by simp [NoDigit])
    rw [List.append_nil] at h
    simp [parseObject, h, back, backMembers_eq]
  back_null := rfl
  back_bool _ := rfl
  back_int _ := rfl
  back_str _ := rfl
  back_arr vs := by rw [back, backElements_eq]
  back_obj o := by rw [back, backMembers_eq]
  oneLine o := by
    rw [String.toList_ofList]
    exact oneLine_text (.obj o)

end Json
