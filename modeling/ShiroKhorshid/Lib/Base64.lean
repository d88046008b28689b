/-
# Base64

Three bytes become four letters; the last one or two bytes of a text are padded.  `encode` takes
all bytes at once, an `Encoder` takes them as they come and keeps what is not a full group yet.

* **A text can be read back** (`decode_encode`), group by group: each letter has one value, and none
  of them is the padding.  So no two byte strings have one text (`encode_injective`).
* **The pieces do not matter** (`Took.text_close`).  An encoder has put out the text of the full
  groups and keeps the rest (`Took`), and a text that ends with a full group can be continued
  (`encode_append`).

The alphabet is the usual one, with `+` and `/`, and there are no line ends.  `decode` is there to
say that a text can be read back, and is no model of a platform's decoder.
-/
import Mathlib.Data.List.Basic

namespace Base64

/-! ## 1. All at once -/

/-- The letters, as their codes. -/
def alphabet : List UInt8 :=
  "ABCDEFGHIJKLMNOPQRSTUVWXYZabcdefghijklmnopqrstuvwxyz0123456789+/".toList.map
    fun c => UInt8.ofNat c.toNat

/-- `=` -/
def padding : UInt8 := 61

/-- The letter of the last six bits. -/
def letter (v : ℕ) : UInt8 := alphabet.getD (v % 64) 0

def encode : List UInt8 → List UInt8
  | [] => []
  | [a] =>
    let v := a.toNat * 16
    [letter (v / 64), letter v, padding, padding]
  | [a, b] =>
    let v := a.toNat * 1024 + b.toNat * 4
    [letter (v / 4096), letter (v / 64), letter v, padding]
  | a :: b :: c :: rest =>
    let v := a.toNat * 65536 + b.toNat * 256 + c.toNat
    letter (v / 262144) :: letter (v / 4096) :: letter (v / 64) :: letter v :: encode rest

/-- The six bits of a letter. -/
def value (l : UInt8) : ℕ := alphabet.idxOf l

def decode : List UInt8 → List UInt8
  | w :: x :: y :: z :: rest =>
    let first := UInt8.ofNat (value w * 4 + value x / 16)
    let second := UInt8.ofNat (value x * 16 + value y / 4)
    let third := UInt8.ofNat (value y * 64 + value z)
    if y = padding then [first]
    else if z = padding then [first, second]
    else first :: second :: third :: decode rest
  | _ => []

theorem value_letter (v : ℕ) : value (letter v) = v % 64 := by
  have hall : ∀ v < 64, value (alphabet.getD v 0) = v := by decide +kernel
  exact hall (v % 64) (Nat.mod_lt _ (by decide))

theorem letter_ne_padding (v : ℕ) : letter v ≠ padding := by
  have hall : ∀ v < 64, alphabet.getD v 0 ≠ padding := by decide +kernel
  exact hall (v % 64) (Nat.mod_lt _ (by decide))

theorem ofNat_eq (a : UInt8) {n : ℕ} (h : n % 256 = a.toNat) : UInt8.ofNat n = a := by
  refine UInt8.toNat_inj.mp ?_
  rw [UInt8.toNat_ofNat']
  exact h

/-- **A text can be read back.** -/
theorem decode_encode (bs : List UInt8) : decode (encode bs) = bs := by
  fun_induction encode bs with
  | case1 => rfl
  | case2 a =>
    have ha := a.toNat_lt
    simp only [decode, value_letter, if_true]
    rw [ofNat_eq a (by omega)]
  | case3 a b =>
    have ha := a.toNat_lt
    have hb := b.toNat_lt
    simp only [decode, value_letter, letter_ne_padding, if_true, if_false]
    rw [ofNat_eq a (by omega), ofNat_eq b (by omega)]
  | case4 a b c rest _ ih =>
    have ha := a.toNat_lt
    have hb := b.toNat_lt
    have hc := c.toNat_lt
    simp only [decode, value_letter, letter_ne_padding, if_false, ih]
    rw [ofNat_eq a (by omega), ofNat_eq b (by omega), ofNat_eq c (by omega)]

theorem encode_injective {bs bs' : List UInt8} (h : encode bs = encode bs') : bs = bs' := by
  rw [← decode_encode bs, h, decode_encode]

/-- Full groups are encoded one by one. -/
theorem encode_append : ∀ (bs : List UInt8) {n : ℕ}, bs.length = 3 * n → ∀ cs : List UInt8,
    encode (bs ++ cs) = encode bs ++ encode cs
  | [], _, _, _ => rfl
  | [_], n, h, _ => absurd h (by simp only [List.length_singleton]; omega)
  | [_, _], n, h, _ => absurd h (by simp only [List.length_cons, List.length_nil]; omega)
  | a :: b :: c :: rest, n, h, cs => by
    have hrest : rest.length = 3 * (n - 1) := by
      simp only [List.length_cons] at h
      omega
    simp only [List.cons_append, encode, encode_append rest hrest]

/-! ## 2. As the bytes come -/

/-- The bytes that are not encoded yet, and the text so far. -/
structure Encoder where
  tail : List UInt8
  text : List UInt8
deriving DecidableEq

namespace Encoder

def new : Encoder := ⟨[], []⟩

/-- The full groups are encoded and the rest is kept. -/
def write (e : Encoder) (bs : List UInt8) : Encoder :=
  let all := e.tail ++ bs
  let n := 3 * (all.length / 3)
  ⟨all.drop n, e.text ++ encode (all.take n)⟩

/-- The rest is padded. -/
def close (e : Encoder) : Encoder := ⟨[], e.text ++ encode e.tail⟩

/-- The encoder has taken these bytes. -/
def Took (e : Encoder) (bs : List UInt8) : Prop :=
  ∃ done n, done.length = 3 * n ∧ bs = done ++ e.tail ∧ e.text = encode done

theorem took_new : new.Took [] := ⟨[], 0, rfl, rfl, rfl⟩

theorem Took.write {e : Encoder} {bs : List UInt8} (h : e.Took bs) (cs : List UInt8) :
    (e.write cs).Took (bs ++ cs) := by
  obtain ⟨done, n, hlen, rfl, htext⟩ := h
  have hsplit : 3 * ((e.tail ++ cs).length / 3) ≤ (e.tail ++ cs).length := Nat.mul_div_le _ 3
  refine ⟨done ++ (e.tail ++ cs).take (3 * ((e.tail ++ cs).length / 3)),
    n + (e.tail ++ cs).length / 3, ?_, ?_, ?_⟩
  · rw [List.length_append, hlen, List.length_take_of_le hsplit]
    omega
  · rw [List.append_assoc, List.append_assoc]
    exact congrArg _ (List.take_append_drop _ _).symm
  · rw [Encoder.write, encode_append done hlen, htext]

/-- **Encoding piece by piece** gives the text of the whole. -/
theorem Took.text_close {e : Encoder} {bs : List UInt8} (h : e.Took bs) :
    e.close.text = encode bs := by
  obtain ⟨done, n, hlen, rfl, htext⟩ := h
  rw [close, encode_append done hlen, htext]

end Encoder

end Base64
