/-
# UTF-16 text and its bytes

A text is a sequence of UTF-16 units, with surrogates in any order.  Two encodings of it are met:
UTF-8, where a unit that is half of no pair becomes a question mark, and Latin-1, one byte for each
unit, which can only be read back as long as every unit fits a byte.

* UTF-8 writes at least as many bytes as there are units (`length_le_utf8`), and as many only where
  each unit is one byte; a byte that is not ASCII is above 127.
* Reading bytes as Latin-1 gives as many units as there are bytes (`length_latin1`).

`latin1_utf8_iff`: reading UTF-8 bytes as Latin-1 gives the text back exactly if it is ASCII.  From
left to right, the first unit that is not ASCII is read as another one (`latin1_unit_append_iff`).

Java's `String` is such a text, which is why the units are kept here and not the characters.
-/
import Mathlib.Data.Nat.Notation

namespace Utf16

abbrev Text := List (BitVec 16)

abbrev Bytes := List (BitVec 8)

/-! ## 1. UTF-8 -/

def isHighSurrogate (c : BitVec 16) : Bool := 0xD800#16 ≤ c && c < 0xDC00#16

def isLowSurrogate (c : BitVec 16) : Bool := 0xDC00#16 ≤ c && c < 0xE000#16

def codePoint (high low : BitVec 16) : BitVec 32 :=
  (high.setWidth 32 - 0xD800#32) <<< 10 + (low.setWidth 32 - 0xDC00#32) + 0x10000#32

/-- The last byte of a character's encoding, or one before it: six bits. -/
def continuation (n : BitVec 32) : BitVec 8 := (0x80#32 ||| (n &&& 0x3F#32)).setWidth 8

def twoBytes (n : BitVec 32) : Bytes := [(0xC0#32 ||| n >>> 6).setWidth 8, continuation n]

def threeBytes (n : BitVec 32) : Bytes :=
  [(0xE0#32 ||| n >>> 12).setWidth 8, continuation (n >>> 6), continuation n]

def fourBytes (n : BitVec 32) : Bytes :=
  [(0xF0#32 ||| n >>> 18).setWidth 8, continuation (n >>> 12), continuation (n >>> 6),
    continuation n]

/-- A unit by itself. -/
def unit (c : BitVec 16) : Bytes :=
  if c < 0x80#16 then [c.setWidth 8]
  else if c < 0x800#16 then twoBytes (c.setWidth 32)
  else if isHighSurrogate c || isLowSurrogate c then [0x3F#8]
  else threeBytes (c.setWidth 32)

/-- The UTF-8 bytes of a text. -/
def utf8 : Text → Bytes
  | [] => []
  | [c] => unit c
  | c :: low :: rest =>
    if isHighSurrogate c && isLowSurrogate low then fourBytes (codePoint c low) ++ utf8 rest
    else unit c ++ utf8 (low :: rest)

/-- One to four bytes, and a surrogate without its other half. -/
example : utf8 [0x41#16, 0xE9#16, 0x20AC#16, 0xD83D#16, 0xDE00#16, 0xD800#16] =
    [0x41#8, 0xC3#8, 0xA9#8, 0xE2#8, 0x82#8, 0xAC#8, 0xF0#8, 0x9F#8, 0x98#8, 0x80#8, 0x3F#8] := by
  decide

theorem one_le_length_unit (c : BitVec 16) : 1 ≤ (unit c).length := by
  unfold unit
  split
  · exact Nat.le_refl 1
  · split
    · simp only [twoBytes, List.length_cons, List.length_nil, Nat.le_add_left]
    · split <;> simp only [threeBytes, List.length_cons, List.length_nil, Nat.le_add_left]

/-- No text gets shorter. -/
theorem length_le_utf8 (text : Text) : text.length ≤ (utf8 text).length := by
  fun_induction utf8 text with
  | case1 => decide
  | case2 c => exact one_le_length_unit c
  | case3 c low rest hpair ih =>
    simp only [List.length_append, List.length_cons, fourBytes, List.length_nil]
    omega
  | case4 c low rest hpair ih =>
    have hunit := one_le_length_unit c
    simp only [List.length_append, List.length_cons] at ih ⊢
    omega

/-! ## 2. Latin-1 -/

/-- The text whose units are the given bytes. -/
def latin1 (bytes : Bytes) : Text := bytes.map (·.setWidth 16)

@[simp] theorem length_latin1 (bytes : Bytes) : (latin1 bytes).length = bytes.length :=
  List.length_map _

@[simp] theorem latin1_cons (b : BitVec 8) (bytes : Bytes) :
    latin1 (b :: bytes) = b.setWidth 16 :: latin1 bytes := rfl

@[simp] theorem latin1_append (bytes bytes' : Bytes) :
    latin1 (bytes ++ bytes') = latin1 bytes ++ latin1 bytes' := List.map_append

theorem setWidth_of_ascii {c : BitVec 16} (h : c < 0x80#16) : (c.setWidth 8).setWidth 16 = c := by
  have hc : c.toNat < 0x80 := h
  refine BitVec.eq_of_toNat_eq ?_
  simp only [BitVec.toNat_setWidth]
  omega

/-! ## 3. One read as the other -/

theorem latin1_ne_of_lt {bytes : Bytes} {text : Text} (h : text.length < bytes.length) :
    latin1 bytes ≠ text := by
  rintro rfl
  rw [length_latin1] at h
  exact Nat.lt_irrefl _ h

/-- One unit: beyond ASCII it takes more than a byte or becomes a question mark. -/
theorem latin1_unit_append_iff {c : BitVec 16} {bytes : Bytes} {text : Text}
    (h : text.length ≤ bytes.length) :
    latin1 (unit c ++ bytes) = c :: text ↔ c < 0x80#16 ∧ latin1 bytes = text := by
  unfold unit
  split
  · rename_i hascii
    rw [List.singleton_append, latin1_cons, setWidth_of_ascii hascii, List.cons_inj_right]
    exact ⟨fun htext => ⟨hascii, htext⟩, And.right⟩
  · rename_i hbeyond
    refine iff_of_false ?_ (fun h => hbeyond h.1)
    split
    · refine latin1_ne_of_lt ?_
      simp only [twoBytes, List.length_append, List.length_cons, List.length_nil]
      omega
    · split
      · intro htext
        obtain rfl := (List.cons.inj htext).1
        exact hbeyond (by decide)
      · refine latin1_ne_of_lt ?_
        simp only [threeBytes, List.length_append, List.length_cons, List.length_nil]
        omega

/-- **UTF-8 read as Latin-1** is the text itself exactly if the text is ASCII. -/
theorem latin1_utf8_iff (text : Text) : latin1 (utf8 text) = text ↔ ∀ c ∈ text, c < 0x80#16 := by
  fun_induction utf8 text with
  | case1 => simp [latin1]
  | case2 c =>
    rw [← List.append_nil (unit c), latin1_unit_append_iff (Nat.le_refl _)]
    simp [latin1]
  | case3 c low rest hpair ih =>
    have hrest := length_le_utf8 rest
    refine iff_of_false (latin1_ne_of_lt ?_) ?_
    · simp only [fourBytes, List.length_append, List.length_cons, List.length_nil]
      omega
    · intro hascii
      have hc : c.toNat < 0x80 := hascii c List.mem_cons_self
      simp only [isHighSurrogate, Bool.and_eq_true, decide_eq_true_eq] at hpair
      have hhigh : 0xD800 ≤ c.toNat := hpair.1.1
      omega
  | case4 c low rest hpair ih =>
    rw [latin1_unit_append_iff (length_le_utf8 _), ih]
    exact (@List.forall_mem_cons _ (· < 0x80#16) c (low :: rest)).symm

end Utf16
