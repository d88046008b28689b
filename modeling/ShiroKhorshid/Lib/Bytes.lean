/-
# Numbers as bytes, and memory

A number of `k` bytes, least significant byte first (`leBytes`) or last (`beBytes`), and the number
that bytes spell (`ofLe`, `ofBe`).  The two directions are inverse to each other: what is
cut off is what does not fit in `k` bytes.

A memory is a function from addresses to bytes.  `write` puts a list of bytes at an address and
`read` takes one from there.

* What has been written is read back (`read_write`), and what is read elsewhere stays
  (`read_write_of_disjoint`).  Two ranges are disjoint where one ends before the other begins, which
  is a question for `omega`.
* A range may be read in parts (`read_add`, `take_read`), and reading only depends on the bytes in
  the range (`read_congr`).
* A signed word of 32 bits is written and read as four bytes (`readInt_writeInt`).

Addresses are integers, so that the arithmetic of a C program stands as it is written.  Memory has
no bounds here: that an address is one of the program's own has to be said where it matters.
-/
import Mathlib.Data.List.Basic
import Mathlib.Data.UInt
import Mathlib.Tactic.Ring

namespace Bytes

/-! ## 1. Numbers -/

/-- The `k` lowest bytes of `n`, least significant first. -/
def leBytes : ℕ → ℕ → List UInt8
  | 0, _ => []
  | k + 1, n => UInt8.ofNat n :: leBytes k (n / 256)

/-- The number that bytes spell, least significant first. -/
def ofLe : List UInt8 → ℕ
  | [] => 0
  | b :: bs => b.toNat + 256 * ofLe bs

/-- The `k` lowest bytes of `n`, most significant first. -/
def beBytes (k n : ℕ) : List UInt8 := (leBytes k n).reverse

/-- The number that bytes spell, most significant first. -/
def ofBe (bs : List UInt8) : ℕ := ofLe bs.reverse

@[simp] theorem length_leBytes (k n : ℕ) : (leBytes k n).length = k := by
  induction k generalizing n with
  | zero => rfl
  | succ k ih => simp [leBytes, ih]

@[simp] theorem length_beBytes (k n : ℕ) : (beBytes k n).length = k := by simp [beBytes]

theorem ofLe_lt (bs : List UInt8) : ofLe bs < 256 ^ bs.length := by
  induction bs with
  | nil => simp [ofLe]
  | cons b bs ih =>
    have hb : b.toNat < 256 := b.toNat_lt
    rw [ofLe, List.length_cons, Nat.pow_succ]
    omega

theorem ofBe_lt (bs : List UInt8) : ofBe bs < 256 ^ bs.length := by
  simpa [ofBe] using ofLe_lt bs.reverse

/-- What fits in `k` bytes is kept. -/
theorem ofLe_leBytes_mod (k n : ℕ) : ofLe (leBytes k n) = n % 256 ^ k := by
  induction k generalizing n with
  | zero => simp [leBytes, ofLe, Nat.mod_one]
  | succ k ih =>
    rw [leBytes, ofLe, ih, Nat.pow_succ, Nat.mul_comm (256 ^ k) 256, Nat.mod_mul]
    simp [UInt8.toNat_ofNat']

theorem ofLe_leBytes {k n : ℕ} (h : n < 256 ^ k) : ofLe (leBytes k n) = n := by
  rw [ofLe_leBytes_mod, Nat.mod_eq_of_lt h]

theorem ofBe_beBytes_mod (k n : ℕ) : ofBe (beBytes k n) = n % 256 ^ k := by
  simp [ofBe, beBytes, ofLe_leBytes_mod]

theorem ofBe_beBytes {k n : ℕ} (h : n < 256 ^ k) : ofBe (beBytes k n) = n := by
  rw [ofBe_beBytes_mod, Nat.mod_eq_of_lt h]

/-- Bytes are those of the number they spell. -/
theorem leBytes_ofLe (bs : List UInt8) : leBytes bs.length (ofLe bs) = bs := by
  induction bs with
  | nil => rfl
  | cons b bs ih =>
    have hb : b.toNat < 256 := b.toNat_lt
    have hdiv : (b.toNat + 256 * ofLe bs) / 256 = ofLe bs := by omega
    have hhead : UInt8.ofNat (b.toNat + 256 * ofLe bs) = b := by
      apply UInt8.toNat_inj.mp
      rw [UInt8.toNat_ofNat']
      omega
    rw [ofLe, List.length_cons, leBytes, hdiv, ih, hhead]

theorem beBytes_ofBe (bs : List UInt8) : beBytes bs.length (ofBe bs) = bs := by
  have h := leBytes_ofLe bs.reverse
  rw [List.length_reverse] at h
  rw [beBytes, ofBe, h, List.reverse_reverse]

/-! ## 2. Memory -/

section Memory

variable {β : Type*}

/-- The `n` bytes from an address on. -/
def read (m : ℤ → β) : ℤ → ℕ → List β
  | _, 0 => []
  | a, n + 1 => m a :: read m (a + 1) n

/-- The memory with a list of bytes at an address. -/
def write (m : ℤ → β) (a : ℤ) (bs : List β) : ℤ → β := fun x =>
  if a ≤ x then (bs[(x - a).toNat]?).getD (m x) else m x

/-- `memmove` -/
def move (m : ℤ → β) (dest src : ℤ) (n : ℕ) : ℤ → β := write m dest (read m src n)

@[simp] theorem length_read (m : ℤ → β) (a : ℤ) (n : ℕ) : (read m a n).length = n := by
  induction n generalizing a with
  | zero => rfl
  | succ n ih => simp [read, ih]

theorem read_congr {m m' : ℤ → β} {a : ℤ} {n : ℕ} (h : ∀ x, a ≤ x → x < a + n → m x = m' x) :
    read m a n = read m' a n := by
  induction n generalizing a with
  | zero => rfl
  | succ n ih =>
    rw [read, read, h a (by omega) (by omega), ih (fun x hx hlt => h x (by omega) (by omega))]

theorem read_add (m : ℤ → β) (a : ℤ) (n k : ℕ) :
    read m a (n + k) = read m a n ++ read m (a + n) k := by
  induction n generalizing a with
  | zero => simp [read]
  | succ n ih =>
    have hsucc : n + 1 + k = n + k + 1 := by omega
    have haddr : a + 1 + (n : ℤ) = a + ((n + 1 : ℕ) : ℤ) := by push_cast; ring
    rw [hsucc, read, read, ih, haddr, List.cons_append]

theorem take_read (m : ℤ → β) (a : ℤ) {k n : ℕ} (h : k ≤ n) :
    (read m a n).take k = read m a k := by
  obtain ⟨d, rfl⟩ := Nat.exists_eq_add_of_le h
  rw [read_add, List.take_left' (length_read m a k)]

/-- A write is felt where it puts its bytes and nowhere else. -/
theorem write_of_disjoint (m : ℤ → β) {a x : ℤ} {bs : List β}
    (h : x < a ∨ a + bs.length ≤ x) : write m a bs x = m x := by
  unfold write
  split
  · rw [List.getElem?_eq_none (by omega)]
    rfl
  · rfl

theorem write_cons (m : ℤ → β) (a : ℤ) (b : β) (bs : List β) :
    write m a (b :: bs) = write (write m a [b]) (a + 1) bs := by
  funext x
  unfold write
  rcases lt_trichotomy x a with h | rfl | h
  · simp [not_le.mpr h, show ¬ a + 1 ≤ x by omega]
  · simp
  · have hsucc : (x - a).toNat = (x - (a + 1)).toNat + 1 := by omega
    simp [le_of_lt h, show a + 1 ≤ x by omega, hsucc]

/-- **What has been written is read back.** -/
@[simp] theorem read_write (m : ℤ → β) (a : ℤ) (bs : List β) :
    read (write m a bs) a bs.length = bs := by
  induction bs generalizing m a with
  | nil => rfl
  | cons b bs ih =>
    rw [write_cons, List.length_cons, read, ih,
      write_of_disjoint _ (Or.inl (by omega : a < a + 1))]
    simp [write]

/-- **What lies elsewhere stays.** -/
theorem read_write_of_disjoint (m : ℤ → β) {a c : ℤ} {n : ℕ} {bs : List β}
    (h : c + n ≤ a ∨ a + bs.length ≤ c) : read (write m a bs) c n = read m c n :=
  read_congr (fun x hle hlt => write_of_disjoint m (by omega))

end Memory

/-! ## 3. A signed word of 32 bits in memory -/

/-- What an `int` holds of an integer. -/
def toInt32 (z : ℤ) : ℤ := z.bmod (2 ^ 32)

theorem toInt32_of_bounds {z : ℤ} (hlo : -2 ^ 31 ≤ z) (hhi : z < 2 ^ 31) : toInt32 z = z :=
  Int.bmod_eq_of_le (by omega) (by omega)

/-- An `int` written to memory. -/
def writeInt (m : ℤ → UInt8) (a z : ℤ) : ℤ → UInt8 :=
  write m a (leBytes 4 (z % 2 ^ 32).toNat)

/-- An `int` read from memory. -/
def readInt (m : ℤ → UInt8) (a : ℤ) : ℤ := toInt32 (ofLe (read m a 4))

theorem readInt_writeInt (m : ℤ → UInt8) (a : ℤ) {z : ℤ} (hlo : -2 ^ 31 ≤ z) (hhi : z < 2 ^ 31) :
    readInt (writeInt m a z) a = z := by
  have hread : read (writeInt m a z) a 4 = leBytes 4 (z % 2 ^ 32).toNat := by
    have h := read_write m a (leBytes 4 (z % 2 ^ 32).toNat)
    rwa [length_leBytes] at h
  have hmod : (z % 2 ^ 32).bmod (2 ^ 32) = z.bmod (2 ^ 32) := Int.emod_bmod z (2 ^ 32)
  rw [readInt, hread, ofLe_leBytes (by omega), Int.toNat_of_nonneg (by omega), toInt32, hmod]
  exact toInt32_of_bounds hlo hhi

theorem readInt_congr {m m' : ℤ → UInt8} {a : ℤ} (h : ∀ x, a ≤ x → x < a + 4 → m x = m' x) :
    readInt m a = readInt m' a := by
  rw [readInt, readInt, read_congr (fun x hle hlt => h x hle (by omega))]

end Bytes
