/-
# The circular packet buffer

`ChunkBuffer2` keeps packets in an array of four-byte blocks: a header block with the length, then
as many blocks as the bytes need.  A packet is never cut in two.  Where the rest of the array has
become too short for a packet of the largest size, `wrap` marks the end of this lap and the next
packet goes to the front.

The memory is modelled byte by byte, so that a header, the data of a packet and the free space
are told apart by their addresses alone.  Three levels speak of it:

* `Packed` says that packets lie one after the other in blocks, from one place to another;
* `Contents` says which packets those in use are: one row of them, or the end of one lap and the
  beginning of the next, with less than a packet of the largest size needs lost between them;
* `Holds` adds the assertion functions of the source, on the fields and on what is offered at
  `input_dest` and `output_dest`.

The sizes are counted in the source with `int`s.  `Holds` has the bound under which none of these
sums overflows, and everything a caller is told follows from `Holds` and the list of packets.

This module has the code and what the buffer holds; `ChunkQueue` has what the calls do to it.  The
buffer does not allocate its array: that it is as large as it says is the caller's promise.
-/
import ShiroKhorshid.Lib.Bytes
import Mathlib.Tactic.Linarith

namespace ShiroKhorshid.Tun

open Bytes

/-! ## 1. The code -/

/-- `sizeof(struct ChunkBuffer2_block)`: an `int` -/
def blockSize : ℤ := 4

def intMax : ℤ := 2147483647

/-- `bdivide_up`, of sizes -/
def bdivideUp (a b : ℤ) : ℤ := if a % b > 0 then a / b + 1 else a / b

/-- Pointers are offsets from `buffer`, in bytes. -/
structure ChunkBuffer2 where
  buffer : ℤ → UInt8
  size : ℤ
  wrap : ℤ
  start : ℤ
  used : ℤ
  mtu : ℤ
  input_dest : Option ℤ
  input_avail : ℤ
  output_dest : Option ℤ
  output_avail : ℤ

namespace ChunkBuffer2

/-- `buf->buffer[i].len` -/
def len (b : ChunkBuffer2) (i : ℤ) : ℤ := readInt b.buffer (blockSize * i)

/-- `_ChunkBuffer2_end` -/
def bufferEnd (b : ChunkBuffer2) : ℤ :=
  if b.used ≥ b.wrap - b.start then b.used - (b.wrap - b.start) else b.start + b.used

/-- The number of free blocks. -/
def free (b : ChunkBuffer2) : ℤ :=
  if b.used ≥ b.wrap - b.start then b.start - b.bufferEnd else b.size - b.bufferEnd

/-- Where the next packet can be written and how long it can be, as `_ChunkBuffer2_update_input`
finds it. -/
def nextInput (b : ChunkBuffer2) : Option ℤ × ℤ :=
  -- it will never be possible to write a packet of the largest size here
  if b.size - b.bufferEnd - 1 < b.mtu then (none, -1)
  else if b.free > 0 then
    (some (blockSize * (b.bufferEnd + 1)), toInt32 ((b.free - 1) * blockSize))
  else (none, -1)

/-- `_ChunkBuffer2_update_input` -/
def updateInput (b : ChunkBuffer2) : ChunkBuffer2 :=
  { b with input_dest := b.nextInput.1, input_avail := b.nextInput.2 }

/-- Where the first packet is and how long it is, as `_ChunkBuffer2_update_output` finds it. -/
def nextOutput (b : ChunkBuffer2) : Option ℤ × ℤ :=
  if b.used > 0 then (some (blockSize * (b.start + 1)), b.len b.start) else (none, -1)

/-- `_ChunkBuffer2_update_output` -/
def updateOutput (b : ChunkBuffer2) : ChunkBuffer2 :=
  { b with output_dest := b.nextOutput.1, output_avail := b.nextOutput.2 }

/-- `ChunkBuffer2_calc_blocks`; −1 where the number does not fit an `int` -/
def calcBlocks (chunk_len num : ℤ) : ℤ :=
  let chunk_data_blocks := bdivideUp chunk_len blockSize
  if chunk_data_blocks > intMax - 1 then -1
  else
    let chunk_blocks := 1 + chunk_data_blocks
    if num > intMax - 1 then -1
    else
      let num_chunks := num + 1
      if chunk_blocks > intMax / num_chunks then -1
      else chunk_blocks * num_chunks

/-- The first half of `ChunkBuffer2_Init`: nothing is in use. -/
def clear (buffer : ℤ → UInt8) (blocks mtu : ℤ) : ChunkBuffer2 where
  buffer := buffer
  size := blocks
  wrap := blocks
  start := 0
  used := 0
  mtu := bdivideUp mtu blockSize
  input_dest := none
  input_avail := -1
  output_dest := none
  output_avail := -1

/-- `ChunkBuffer2_Init` -/
def init (buffer : ℤ → UInt8) (blocks mtu : ℤ) : ChunkBuffer2 :=
  (clear buffer blocks mtu).updateInput.updateOutput

/-- The first half of `ChunkBuffer2_SubmitPacket`: the header, and where this lap ends. -/
def append (b : ChunkBuffer2) (len : ℤ) : ChunkBuffer2 :=
  let blocklen := bdivideUp len blockSize
  { b with
    buffer := writeInt b.buffer (blockSize * b.bufferEnd) len
    used := b.used + (1 + blocklen)
    wrap :=
      if b.used + (1 + blocklen) ≤ b.wrap - b.start ∧
          b.mtu > b.size - (b.bufferEnd + 1 + blocklen) - 1 then b.bufferEnd + 1 + blocklen
      else b.wrap }

/-- `ChunkBuffer2_SubmitPacket` -/
def submitPacket (b : ChunkBuffer2) (len : ℤ) : ChunkBuffer2 :=
  let b' := (b.append len).updateInput
  if b'.used = 1 + bdivideUp len blockSize then b'.updateOutput else b'

/-- The first half of `ChunkBuffer2_ConsumePacket`: the first packet goes, and a lap that is
over with it. -/
def dropFirst (b : ChunkBuffer2) : ChunkBuffer2 :=
  let blocklen := bdivideUp (b.len b.start) blockSize
  { b with
    start := if b.start + (1 + blocklen) = b.wrap then 0 else b.start + (1 + blocklen)
    used := b.used - (1 + blocklen)
    wrap := if b.start + (1 + blocklen) = b.wrap then b.size else b.wrap }

/-- `ChunkBuffer2_ConsumePacket` -/
def consumePacket (b : ChunkBuffer2) : ChunkBuffer2 :=
  let data_wrapped := b.used ≥ b.wrap - b.start
  let b' := b.dropFirst
  (if data_wrapped then b'.updateInput else b').updateOutput

/-- `_ChunkBuffer2_assert_buffer` -/
structure AssertBuffer (b : ChunkBuffer2) : Prop where
  size_pos : b.size > 0
  wrap_pos : b.wrap > 0
  wrap_le : b.wrap ≤ b.size
  start_nonneg : b.start ≥ 0
  start_lt : b.start < b.wrap
  used_nonneg : b.used ≥ 0
  used_le : b.used ≤ b.wrap
  wrap_eq : b.wrap = b.size ∨ b.used ≥ b.wrap - b.start
  mtu_nonneg : b.mtu ≥ 0

/-- The input half of `_ChunkBuffer2_assert_io`. -/
def AssertInput (b : ChunkBuffer2) : Prop :=
  if b.size - b.bufferEnd - 1 < b.mtu then b.input_dest = none ∧ b.input_avail = -1
  else if b.free > 0 then
    b.input_dest = some (blockSize * (b.bufferEnd + 1)) ∧
      b.input_avail = (b.free - 1) * blockSize
  else b.input_dest = none ∧ b.input_avail = -1

/-- The output half of `_ChunkBuffer2_assert_io`. -/
def AssertOutput (b : ChunkBuffer2) : Prop :=
  if b.used > 0 then
    b.len b.start ≥ 0 ∧
      bdivideUp (b.len b.start) blockSize ≤ b.used - 1 ∧
      bdivideUp (b.len b.start) blockSize ≤ b.wrap - b.start - 1 ∧
      b.output_dest = some (blockSize * (b.start + 1)) ∧ b.output_avail = b.len b.start
  else b.output_dest = none ∧ b.output_avail = -1

end ChunkBuffer2

/-! ## 2. Packets in blocks -/

/-- The blocks the bytes of a packet take. -/
def blocksOf (p : List UInt8) : ℤ := bdivideUp p.length blockSize

theorem bdivideUp_blockSize (n : ℤ) : bdivideUp n blockSize = (n + 3) / 4 := by
  unfold bdivideUp blockSize
  split <;> omega

theorem blocksOf_nonneg (p : List UInt8) : 0 ≤ blocksOf p := by
  rw [blocksOf, bdivideUp_blockSize]
  omega

/-- The bytes fit into their blocks. -/
theorem length_le_blocksOf (p : List UInt8) : (p.length : ℤ) ≤ 4 * blocksOf p := by
  rw [blocksOf, bdivideUp_blockSize]
  omega

theorem blocksOf_le {p : List UInt8} {n : ℤ} (h : (p.length : ℤ) ≤ 4 * n) : blocksOf p ≤ n := by
  rw [blocksOf, bdivideUp_blockSize]
  omega

/-- The blocks of a list of packets, headers and data. -/
def total : List (List UInt8) → ℤ
  | [] => 0
  | p :: q => 1 + blocksOf p + total q

@[simp] theorem total_nil : total [] = 0 := rfl

@[simp] theorem total_cons (p : List UInt8) (q : List (List UInt8)) :
    total (p :: q) = 1 + blocksOf p + total q := rfl

@[simp] theorem total_append (q r : List (List UInt8)) : total (q ++ r) = total q + total r := by
  induction q with
  | nil => simp
  | cons p q ih => simp [ih]; ring

theorem total_nonneg (q : List (List UInt8)) : 0 ≤ total q := by
  induction q with
  | nil => simp
  | cons p q ih =>
    have hp := blocksOf_nonneg p
    rw [total_cons]
    omega

/-- Packets of at most `m` blocks of data. -/
theorem total_le {q : List (List UInt8)} {m : ℤ} (h : ∀ p ∈ q, blocksOf p ≤ m) :
    total q ≤ q.length * (1 + m) := by
  induction q with
  | nil => simp
  | cons p q ih =>
    have hp := h p (by simp)
    have hq := ih (fun r hr => h r (by simp [hr]))
    rw [total_cons, List.length_cons]
    push_cast
    linarith

/-- The packets lie one after the other in the blocks from `s` to `e`, each header at `lim` or
before. -/
def Packed (m : ℤ → UInt8) (lim : ℤ) : ℤ → List (List UInt8) → ℤ → Prop
  | s, [], e => s = e
  | s, p :: q, e =>
    s ≤ lim ∧ readInt m (blockSize * s) = p.length ∧ read m (blockSize * (s + 1)) p.length = p ∧
      Packed m lim (s + 1 + blocksOf p) q e

namespace Packed

variable {m m' : ℤ → UInt8} {lim s e : ℤ} {p : List UInt8} {q : List (List UInt8)}

theorem eq_add_total (h : Packed m lim s q e) : e = s + total q := by
  induction q generalizing s with
  | nil => simpa using h.symm
  | cons p q ih =>
    rw [ih h.2.2.2, total_cons]
    ring

theorem le (h : Packed m lim s q e) : s ≤ e := by
  have hnonneg := total_nonneg q
  rw [h.eq_add_total]
  omega

/-- Only the blocks from `s` to `e` matter. -/
theorem congr (hm : ∀ x, blockSize * s ≤ x → x < blockSize * e → m x = m' x)
    (h : Packed m lim s q e) : Packed m' lim s q e := by
  induction q generalizing s with
  | nil => exact h
  | cons p q ih =>
    obtain ⟨hlim, hlen, hdata, hrest⟩ := h
    have hfit := length_le_blocksOf p
    have hle := hrest.le
    unfold blockSize at *
    have hheader := @readInt_congr m m' (4 * s) (fun x hlo hhi => hm x hlo (by omega))
    have hbytes := @read_congr _ m m' (4 * (s + 1)) p.length
      (fun x hlo hhi => hm x (by omega) (by omega))
    exact ⟨hlim, hheader.symm.trans hlen, hbytes.symm.trans hdata,
      ih (fun x hlo hhi => hm x (by omega) hhi) hrest⟩

/-- A packet written at the end. -/
theorem snoc (h : Packed m lim s q e) (hlim : e ≤ lim)
    (hlen : readInt m (blockSize * e) = p.length)
    (hdata : read m (blockSize * (e + 1)) p.length = p) :
    Packed m lim s (q ++ [p]) (e + 1 + blocksOf p) := by
  induction q generalizing s with
  | nil =>
    obtain rfl : s = e := h
    exact ⟨hlim, hlen, hdata, rfl⟩
  | cons r q ih => exact ⟨h.1, h.2.1, h.2.2.1, ih h.2.2.2⟩

/-- What starts before it ends holds a packet. -/
theorem exists_cons (h : Packed m lim s q e) (hlt : s < e) :
    ∃ p q', q = p :: q' ∧ s ≤ lim := by
  cases q with
  | nil =>
    obtain rfl : s = e := h
    omega
  | cons p q' => exact ⟨p, q', rfl, h.1⟩

end Packed

/-! ## 3. What the buffer holds -/

/-- The packets in the blocks in use: up to the end of this lap, and from the front on. -/
def Contents (b : ChunkBuffer2) (q : List (List UInt8)) : Prop :=
  if b.used ≥ b.wrap - b.start then
    b.size ≤ b.wrap + b.mtu ∧ ∃ q₁ q₂, q = q₁ ++ q₂ ∧
      Packed b.buffer (b.size - 1 - b.mtu) b.start q₁ b.wrap ∧
      Packed b.buffer (b.size - 1 - b.mtu) 0 q₂ b.bufferEnd
  else
    b.bufferEnd ≤ b.size - 1 - b.mtu ∧
      Packed b.buffer (b.size - 1 - b.mtu) b.start q b.bufferEnd

/-- **The buffer holds the packets `q`.**  The bytes of its blocks are few enough for an `int`. -/
structure Holds (b : ChunkBuffer2) (q : List (List UInt8)) : Prop where
  size_le : blockSize * b.size ≤ intMax
  assertBuffer : b.AssertBuffer
  contents : Contents b q
  assertInput : b.AssertInput
  assertOutput : b.AssertOutput

variable {b : ChunkBuffer2} {p : List UInt8} {q : List (List UInt8)}

/-- The blocks in use are those of the packets. -/
theorem Contents.used_eq (hb : b.AssertBuffer) (h : Contents b q) : b.used = total q := by
  have hlt := hb.start_lt
  unfold Contents at h
  split at h
  · rename_i hwrapped
    obtain ⟨-, q₁, q₂, rfl, h₁, h₂⟩ := h
    have he₁ := h₁.eq_add_total
    have he₂ := h₂.eq_add_total
    rw [ChunkBuffer2.bufferEnd, if_pos hwrapped] at he₂
    rw [total_append]
    omega
  · rename_i hplain
    have he := h.2.eq_add_total
    rw [ChunkBuffer2.bufferEnd, if_neg hplain] at he
    omega

/-- The first packet is the one at `start`. -/
theorem Contents.head (hb : b.AssertBuffer) (h : Contents b (p :: q)) :
    b.start ≤ b.size - 1 - b.mtu ∧ b.len b.start = p.length ∧
      read b.buffer (blockSize * (b.start + 1)) p.length = p ∧
      blocksOf p ≤ b.wrap - b.start - 1 := by
  have hlt := hb.start_lt
  unfold Contents at h
  split at h
  · obtain ⟨-, q₁, q₂, hq, h₁, -⟩ := h
    obtain ⟨p', q', rfl, -⟩ := h₁.exists_cons hlt
    obtain ⟨rfl, -⟩ := List.cons.inj hq
    have hle := h₁.2.2.2.le
    exact ⟨h₁.1, h₁.2.1, h₁.2.2.1, by omega⟩
  · rename_i hplain
    have hle := h.2.2.2.2.le
    rw [ChunkBuffer2.bufferEnd, if_neg hplain] at hle
    exact ⟨h.2.1, h.2.2.1, h.2.2.2.1, by omega⟩

/-- What a caller is offered: where the first packet is, and how long. -/
def offered (start : ℤ) : List (List UInt8) → Option ℤ × ℤ
  | [] => (none, -1)
  | p :: _ => (some (blockSize * (start + 1)), p.length)

/-- `updateOutput` finds the first packet. -/
theorem Contents.nextOutput_eq (hb : b.AssertBuffer) (h : Contents b q) :
    b.nextOutput = offered b.start q := by
  have hused := h.used_eq hb
  cases q with
  | nil =>
    rw [total_nil] at hused
    rw [ChunkBuffer2.nextOutput, if_neg (by omega), offered]
  | cons p q =>
    have hp := blocksOf_nonneg p
    have hrest := total_nonneg q
    rw [total_cons] at hused
    rw [ChunkBuffer2.nextOutput, if_pos (by omega), (h.head hb).2.1, offered]

/-- What `updateOutput` finds is what the assertions ask for. -/
theorem assertOutput_of_nextOutput (hb : b.AssertBuffer) (h : Contents b q)
    (hdest : b.output_dest = b.nextOutput.1) (havail : b.output_avail = b.nextOutput.2) :
    b.AssertOutput := by
  unfold ChunkBuffer2.AssertOutput
  rw [hdest, havail]
  unfold ChunkBuffer2.nextOutput
  split
  · rename_i hused
    have htotal := h.used_eq hb
    cases q with
    | nil => simp at htotal; omega
    | cons p q =>
      obtain ⟨-, hlen, -, hfit⟩ := h.head hb
      have hrest := total_nonneg q
      rw [total_cons] at htotal
      rw [hlen]
      exact ⟨by omega, by rw [← blocksOf]; omega, hfit, rfl, rfl⟩
  · exact ⟨rfl, rfl⟩

/-- What `updateInput` finds is what the assertions ask for, where the free bytes fit an `int`. -/
theorem assertInput_of_nextInput (hfree : blockSize * b.free ≤ intMax)
    (hdest : b.input_dest = b.nextInput.1) (havail : b.input_avail = b.nextInput.2) :
    b.AssertInput := by
  unfold ChunkBuffer2.AssertInput
  rw [hdest, havail]
  unfold ChunkBuffer2.nextInput
  unfold blockSize intMax at *
  split
  · exact ⟨rfl, rfl⟩
  · split
    · exact ⟨rfl, toInt32_of_bounds (by omega) (by omega)⟩
    · exact ⟨rfl, rfl⟩

theorem ChunkBuffer2.AssertBuffer.free_le (hb : b.AssertBuffer) : b.free ≤ b.size := by
  obtain ⟨hsize, hwrap, hwrap_le, hstart, hlt, hused, hused_le, -, -⟩ := hb
  unfold ChunkBuffer2.free ChunkBuffer2.bufferEnd
  split_ifs <;> omega

end ShiroKhorshid.Tun
