/-
# The circular packet buffer is a queue

Submitting a packet puts it at the end of what a `ChunkBuffer2` holds (`holds_submitPacket`) and
consuming one takes the first (`holds_consumePacket`); writing to `input_dest` touches nothing that
is held (`holds_fill`), also while packets go (`input_consumePacket`).  So along any run of
calls the packets come out as they went in (`packets_in_order`).

Where the wrapped and the unwrapped buffer differ, the two cases are split first, and each of them
is about one row of blocks:

* a packet goes in behind the last one, and the buffer wraps after it where what is left of the lap
  is too short for another (`contents_append`);
* the first packet goes, and where it was the last one before the end of the lap the buffer is no
  longer wrapped (`contents_dropFirst`);
* in either case `nextInput` and `nextOutput` recompute what the two ends are offered from the new
  row alone.

`Holds.room` counts.  Every header is followed by room for a packet of the largest size in its lap;
that is why a buffer that has run empty can always take one in, wherever it stands, and why only
one packet's worth of blocks is lost at the end of a lap.

A run consists of calls within the assertions of the source: who submits has been offered a place,
and who consumes a packet.  Nothing is claimed of calls outside of them.
-/
import ShiroKhorshid.Tun.ChunkBuffer2
import ShiroKhorshid.Lib.Fifo

namespace ShiroKhorshid.Tun

open Bytes Transition

variable {b : ChunkBuffer2} {p : List UInt8} {q : List (List UInt8)}

/-! ## 1. A packet goes in -/

/-- Neither half of the invariant looks at where the next packet goes or the first one is. -/
theorem ChunkBuffer2.AssertBuffer.io (hb : b.AssertBuffer) (m : ℤ → UInt8) (i o : Option ℤ)
    (ia oa : ℤ) : ChunkBuffer2.AssertBuffer { b with
      buffer := m, input_dest := i, input_avail := ia, output_dest := o, output_avail := oa } :=
  ⟨hb.size_pos, hb.wrap_pos, hb.wrap_le, hb.start_nonneg, hb.start_lt, hb.used_nonneg, hb.used_le,
    hb.wrap_eq, hb.mtu_nonneg⟩

theorem Contents.io (h : Contents b q) (i o : Option ℤ) (ia oa : ℤ) : Contents { b with
    input_dest := i, input_avail := ia, output_dest := o, output_avail := oa } q := h

/-- What the one who was given `input_dest` has written there. -/
def ChunkBuffer2.fill (b : ChunkBuffer2) (dest : ℤ) (w : List UInt8) : ChunkBuffer2 :=
  { b with buffer := write b.buffer dest w }

/-- Where there is an `input_dest`, it is the block after the next header, and there is room for a
packet of the largest size in this lap. -/
theorem ChunkBuffer2.AssertInput.of_some {dest : ℤ} (h : b.AssertInput)
    (hdest : b.input_dest = some dest) :
    b.mtu ≤ b.size - b.bufferEnd - 1 ∧ 0 < b.free ∧ dest = blockSize * (b.bufferEnd + 1) ∧
      b.input_avail = (b.free - 1) * blockSize := by
  unfold ChunkBuffer2.AssertInput at h
  split at h
  · rw [hdest] at h
    cases h.1
  · split at h
    · rw [hdest] at h
      obtain ⟨hd, havail⟩ := h
      exact ⟨by omega, by assumption, Option.some.inj hd, havail⟩
    · rw [hdest] at h
      cases h.1

/-- As long as the memory is the same outside of what is free, the contents are. -/
theorem Contents.congr {m : ℤ → UInt8} (hb : b.AssertBuffer) (h : Contents b q)
    (hsame : ∀ x, x < blockSize * b.bufferEnd ∨ blockSize * (b.bufferEnd + b.free) ≤ x →
      b.buffer x = m x) : Contents { b with buffer := m } q := by
  have hlt := hb.start_lt
  unfold Contents at h ⊢
  by_cases hwrapped : b.used ≥ b.wrap - b.start
  · rw [if_pos hwrapped] at h
    rw [if_pos (by exact hwrapped)]
    obtain ⟨hnear, q₁, q₂, rfl, h₁, h₂⟩ := h
    have hfree : b.bufferEnd + b.free = b.start := by
      rw [ChunkBuffer2.free, if_pos hwrapped]
      omega
    refine ⟨hnear, q₁, q₂, rfl, h₁.congr (fun x hlo _ => hsame x (Or.inr ?_)),
      h₂.congr (fun x _ hhi => hsame x (Or.inl hhi))⟩
    rw [hfree]
    exact hlo
  · rw [if_neg hwrapped] at h
    rw [if_neg (by exact hwrapped)]
    exact ⟨h.1, h.2.congr (fun x _ hhi => hsame x (Or.inl hhi))⟩

section Append

/-- What `SubmitPacket` writes is the header. -/
theorem append_buffer (hint : (p.length : ℤ) ≤ intMax) :
    (∀ x, x < blockSize * b.bufferEnd ∨ blockSize * (b.bufferEnd + 1) ≤ x →
        b.buffer x = (b.append p.length).buffer x) ∧
      readInt (b.append p.length).buffer (blockSize * b.bufferEnd) = p.length := by
  simp only [ChunkBuffer2.append]
  unfold blockSize intMax at *
  refine ⟨fun x hx => ?_, readInt_writeInt _ _ (by omega) (by omega)⟩
  rw [writeInt, write_of_disjoint _ (by rw [length_leBytes]; omega)]

/-- **A packet goes to the end of what the buffer holds.** -/
theorem contents_append (hb : b.AssertBuffer) (h : Contents b q)
    (hroom : b.mtu ≤ b.size - b.bufferEnd - 1) (hfit : blocksOf p ≤ b.free - 1)
    (hint : (p.length : ℤ) ≤ intMax)
    (hread : read b.buffer (blockSize * (b.bufferEnd + 1)) p.length = p) :
    Contents (b.append p.length) (q ++ [p]) := by
  have hnonneg := blocksOf_nonneg p
  obtain ⟨hsame, hlen⟩ := @append_buffer b p hint
  obtain ⟨c, hc⟩ : ∃ c, c = b.append p.length := ⟨_, rfl⟩
  have hcused : c.used = b.used + (1 + blocksOf p) := by rw [hc]; rfl
  have hcstart : c.start = b.start := by rw [hc]; rfl
  have hcsize : c.size = b.size := by rw [hc]; rfl
  have hcmtu : c.mtu = b.mtu := by rw [hc]; rfl
  have hcwrap : c.wrap = if b.used + (1 + blocksOf p) ≤ b.wrap - b.start ∧
      b.mtu > b.size - (b.bufferEnd + 1 + blocksOf p) - 1 then
      b.bufferEnd + 1 + blocksOf p else b.wrap := by rw [hc]; rfl
  rw [← hc] at hsame hlen ⊢
  have hdata : read c.buffer (blockSize * (b.bufferEnd + 1)) p.length = p := by
    refine (read_congr (fun x hlo _ => ?_)).trans hread
    exact (hsame x (Or.inr hlo)).symm
  replace h := h.congr hb (m := c.buffer) (fun x hx => hsame x (by unfold blockSize at *; omega))
  obtain ⟨-, -, -, -, hlt, -, -, hlap, hmtu0⟩ := hb
  unfold Contents at h
  by_cases hwrapped : b.used ≥ b.wrap - b.start
  · -- the packet goes to the front part, before `start`
    have hend : b.bufferEnd = b.used - (b.wrap - b.start) := if_pos hwrapped
    have hfree : b.free = b.start - b.bufferEnd := if_pos hwrapped
    rw [if_pos (by exact hwrapped)] at h
    obtain ⟨hnear, q₁, q₂, rfl, h₁, h₂⟩ := h
    have hnear' : b.size ≤ b.wrap + b.mtu := hnear
    have hcwrap' : c.wrap = b.wrap := by rw [hcwrap, if_neg (by omega)]
    have hcwrapped : c.used ≥ c.wrap - c.start := by omega
    have hcend : c.bufferEnd = b.bufferEnd + 1 + blocksOf p := by
      rw [ChunkBuffer2.bufferEnd, if_pos hcwrapped]
      omega
    rw [Contents, if_pos hcwrapped, hcend, hcwrap', hcsize, hcmtu, hcstart]
    refine ⟨hnear', q₁, q₂ ++ [p], by rw [List.append_assoc], h₁, h₂.snoc ?_ hlen hdata⟩
    show b.bufferEnd ≤ b.size - 1 - b.mtu
    omega
  · have hend : b.bufferEnd = b.start + b.used := if_neg hwrapped
    have hfree : b.free = b.size - b.bufferEnd := if_neg hwrapped
    have hwrap_eq : b.wrap = b.size := hlap.resolve_right hwrapped
    rw [if_neg (by exact hwrapped)] at h
    have hpacked : Packed c.buffer (b.size - 1 - b.mtu) b.start (q ++ [p])
        (b.bufferEnd + 1 + blocksOf p) := h.2.snoc h.1 hlen hdata
    by_cases hshort : b.mtu > b.size - (b.bufferEnd + 1 + blocksOf p) - 1
    · -- this lap ends with the packet
      have hcwrap' : c.wrap = b.bufferEnd + 1 + blocksOf p := by
        rw [hcwrap, if_pos ⟨by omega, hshort⟩]
      have hcwrapped : c.used ≥ c.wrap - c.start := by omega
      have hcend : c.bufferEnd = 0 := by
        rw [ChunkBuffer2.bufferEnd, if_pos hcwrapped]
        omega
      rw [Contents, if_pos hcwrapped, hcend, hcwrap', hcsize, hcmtu, hcstart]
      exact ⟨by omega, _, [], (List.append_nil _).symm, hpacked, rfl⟩
    · have hcwrap' : c.wrap = b.wrap := by rw [hcwrap, if_neg (fun hboth => hshort hboth.2)]
      have hcwrapped : ¬ c.used ≥ c.wrap - c.start := by omega
      have hcend : c.bufferEnd = b.bufferEnd + 1 + blocksOf p := by
        rw [ChunkBuffer2.bufferEnd, if_neg hcwrapped]
        omega
      rw [Contents, if_neg hcwrapped, hcend, hcsize, hcmtu, hcstart]
      exact ⟨by omega, hpacked⟩

theorem assertBuffer_append (hb : b.AssertBuffer) (hroom : b.mtu ≤ b.size - b.bufferEnd - 1)
    (hfit : blocksOf p ≤ b.free - 1) : (b.append p.length).AssertBuffer := by
  obtain ⟨hsize, hwrap, hwrap_le, hstart, hlt, hused, hused_le, hlap, hmtu⟩ := hb
  have hnonneg := blocksOf_nonneg p
  have hcwrap : (b.append p.length).wrap = if b.used + (1 + blocksOf p) ≤ b.wrap - b.start ∧
      b.mtu > b.size - (b.bufferEnd + 1 + blocksOf p) - 1 then b.bufferEnd + 1 + blocksOf p
      else b.wrap := rfl
  have hcused : (b.append p.length).used = b.used + (1 + blocksOf p) := rfl
  have hcsize : (b.append p.length).size = b.size := rfl
  have hcstart : (b.append p.length).start = b.start := rfl
  have hcmtu : (b.append p.length).mtu = b.mtu := rfl
  unfold ChunkBuffer2.free ChunkBuffer2.bufferEnd at *
  by_cases hwrapped : b.used ≥ b.wrap - b.start
  · rw [if_pos hwrapped] at *
    rw [if_neg (by omega)] at hcwrap
    constructor <;> omega
  · rw [if_neg hwrapped] at *
    by_cases hshort : b.mtu > b.size - (b.start + b.used + 1 + blocksOf p) - 1
    · rw [if_pos ⟨by omega, hshort⟩] at hcwrap
      constructor <;> omega
    · rw [if_neg (fun hboth => hshort hboth.2)] at hcwrap
      constructor <;> omega

end Append

/-- The output half of the assertions speaks of what `nextOutput` finds. -/
theorem ChunkBuffer2.AssertOutput.eq_nextOutput (h : b.AssertOutput) :
    b.output_dest = b.nextOutput.1 ∧ b.output_avail = b.nextOutput.2 := by
  unfold ChunkBuffer2.AssertOutput at h
  unfold ChunkBuffer2.nextOutput
  split at h
  · rename_i hused
    obtain ⟨-, -, -, hdest, havail⟩ := h
    simp only [if_pos hused, hdest, havail, and_self]
  · rename_i hused
    simp only [if_neg hused, h.1, h.2, and_self]

/-- The input half speaks of what `nextInput` finds. -/
theorem ChunkBuffer2.AssertInput.eq_nextInput (h : b.AssertInput)
    (hfree : blockSize * b.free ≤ intMax) :
    b.input_dest = b.nextInput.1 ∧ b.input_avail = b.nextInput.2 := by
  unfold ChunkBuffer2.AssertInput at h
  unfold ChunkBuffer2.nextInput
  split at h
  · rename_i hshort
    simp only [if_pos hshort, h.1, h.2, and_self]
  · rename_i hlong
    split at h
    · rename_i hpos
      have hint : toInt32 ((b.free - 1) * blockSize) = (b.free - 1) * blockSize := by
        unfold blockSize intMax at *
        exact toInt32_of_bounds (by omega) (by omega)
      simp only [if_neg hlong, if_pos hpos, hint, h.1, h.2, and_self]
    · rename_i hfull
      simp only [if_neg hlong, if_neg hfull, h.1, h.2, and_self]

/-- What is written to `input_dest` goes to free blocks. -/
theorem holds_fill (h : Holds b q) {dest : ℤ} (hdest : b.input_dest = some dest) {w : List UInt8}
    (hw : (w.length : ℤ) ≤ b.input_avail) : Holds (b.fill dest w) q := by
  obtain ⟨hsize, hb, hq, hin, hout⟩ := h
  obtain ⟨-, -, rfl, havail⟩ := hin.of_some hdest
  rw [havail] at hw
  have hcq : Contents (b.fill (blockSize * (b.bufferEnd + 1)) w) q :=
    hq.congr hb (fun x hx => (write_of_disjoint _ (by unfold blockSize at *; omega)).symm)
  refine ⟨hsize, hb.io _ _ _ _ _, hcq, hin, ?_⟩
  obtain ⟨hod, hoa⟩ := hout.eq_nextOutput
  have hnext : b.nextOutput = (b.fill (blockSize * (b.bufferEnd + 1)) w).nextOutput :=
    (hq.nextOutput_eq hb).trans (hcq.nextOutput_eq (hb.io _ _ _ _ _)).symm
  exact assertOutput_of_nextOutput (hb.io _ _ _ _ _) hcq
    (hod.trans (congrArg Prod.fst hnext)) (hoa.trans (congrArg Prod.snd hnext))

/-- **`ChunkBuffer2_SubmitPacket` puts a packet at the end**: the bytes at `input_dest`. -/
theorem holds_submitPacket (h : Holds b q) {dest : ℤ} (hdest : b.input_dest = some dest) {n : ℕ}
    (hn : (n : ℤ) ≤ b.input_avail) :
    Holds (b.submitPacket n) (q ++ [read b.buffer dest n]) := by
  obtain ⟨hsize, hb, hq, hin, hout⟩ := h
  obtain ⟨hroom, hfree, rfl, havail⟩ := hin.of_some hdest
  rw [havail] at hn
  obtain ⟨p, hp⟩ : ∃ p, p = read b.buffer (blockSize * (b.bufferEnd + 1)) n := ⟨_, rfl⟩
  have hlen : p.length = n := by rw [hp, length_read]
  have hfree_le := hb.free_le
  have hint : (p.length : ℤ) ≤ intMax := by
    rw [hlen]
    unfold blockSize at hn hsize
    omega
  have hfit : blocksOf p ≤ b.free - 1 := by
    apply blocksOf_le
    rw [hlen]
    unfold blockSize at hn
    omega
  rw [← hp, ← hlen]
  rw [← hlen] at hp
  have hcq := contents_append hb hq hroom hfit hint hp.symm
  have hcb := assertBuffer_append hb hroom hfit
  obtain ⟨c, hc⟩ : ∃ c, c = b.append p.length := ⟨_, rfl⟩
  rw [← hc] at hcq hcb
  have hcsize : c.size = b.size := by rw [hc]; rfl
  have hcfree : blockSize * c.free ≤ intMax := by
    have hcfree_le := hcb.free_le
    unfold blockSize at *
    omega
  have hcused : c.used = total (q ++ [p]) := hcq.used_eq hcb
  rw [ChunkBuffer2.submitPacket, ← hc]
  by_cases hfirst : c.updateInput.used = 1 + bdivideUp p.length blockSize
  · rw [if_pos hfirst]
    refine ⟨hcsize.symm ▸ hsize, hcb.io _ _ _ _ _, hcq, ?_, ?_⟩
    · exact @assertInput_of_nextInput c.updateInput.updateOutput hcfree rfl rfl
    · exact @assertOutput_of_nextOutput c.updateInput.updateOutput _ (hcb.io _ _ _ _ _) hcq rfl rfl
  · rw [if_neg hfirst]
    refine ⟨hcsize.symm ▸ hsize, hcb.io _ _ _ _ _, hcq, ?_, ?_⟩
    · exact @assertInput_of_nextInput c.updateInput hcfree rfl rfl
    · -- the first packet is the one that was first before
      obtain ⟨hod, hoa⟩ := hout.eq_nextOutput
      have hstart : c.start = b.start := by rw [hc]; rfl
      have hdest : c.output_dest = b.output_dest := by rw [hc]; rfl
      have havail : c.output_avail = b.output_avail := by rw [hc]; rfl
      have hnext : c.nextOutput = b.nextOutput := by
        cases q with
        | nil =>
          refine absurd ?_ hfirst
          rw [← blocksOf, show c.updateInput.used = c.used from rfl]
          simpa using hcused
        | cons r q => rw [hcq.nextOutput_eq hcb, hq.nextOutput_eq hb, hstart]; rfl
      refine @assertOutput_of_nextOutput c.updateInput _ (hcb.io _ _ _ _ _) hcq ?_ ?_
      · exact hdest.trans (hod.trans (congrArg Prod.fst hnext.symm))
      · exact havail.trans (hoa.trans (congrArg Prod.snd hnext.symm))

/-! ## 2. The first packet goes -/

/-- What `ConsumePacket` makes of the indices, by the length of the first packet. -/
theorem dropFirst_fields (hb : b.AssertBuffer) (h : Contents b (p :: q)) :
    (b.dropFirst.start =
        if b.start + (1 + blocksOf p) = b.wrap then 0 else b.start + (1 + blocksOf p)) ∧
      b.dropFirst.used = b.used - (1 + blocksOf p) ∧
      b.dropFirst.wrap = if b.start + (1 + blocksOf p) = b.wrap then b.size else b.wrap := by
  have hblocks : bdivideUp (b.len b.start) blockSize = blocksOf p := by
    rw [(h.head hb).2.1, blocksOf]
  rw [← hblocks]
  exact ⟨rfl, rfl, rfl⟩

/-- A packet that goes leaves the end where it is and frees blocks; where the blocks in use do not
reach `wrap`, the ones it frees are not counted yet. -/
theorem dropFirst_space (hb : b.AssertBuffer) (h : Contents b (p :: q)) :
    b.dropFirst.AssertBuffer ∧ b.dropFirst.bufferEnd = b.bufferEnd ∧
      b.free ≤ b.dropFirst.free ∧
      (¬ b.used ≥ b.wrap - b.start → b.dropFirst.free = b.free) := by
  obtain ⟨hstart', hused', hwrap'⟩ := dropFirst_fields hb h
  have hfit := (h.head hb).2.2.2
  have hused_eq := h.used_eq hb
  have hnonneg := blocksOf_nonneg p
  have hrest := total_nonneg q
  rw [total_cons] at hused_eq
  obtain ⟨hsize, hwrap, hwrap_le, hstart, hlt, hused, hused_le, hlap, hmtu0⟩ := hb
  have hsize' : b.dropFirst.size = b.size := rfl
  have hmtu' : b.dropFirst.mtu = b.mtu := rfl
  generalize b.dropFirst = c at *
  unfold ChunkBuffer2.free ChunkBuffer2.bufferEnd
  by_cases hwrapped : b.used ≥ b.wrap - b.start
  · by_cases hlast : b.start + (1 + blocksOf p) = b.wrap
    · rw [if_pos hlast] at hstart' hwrap'
      have hplain : ¬ c.used ≥ c.wrap - c.start := by omega
      simp only [if_pos hwrapped, if_neg hplain]
      exact ⟨by constructor <;> omega, by omega, by omega, fun h => absurd hwrapped h⟩
    · rw [if_neg hlast] at hstart' hwrap'
      have hwrapped' : c.used ≥ c.wrap - c.start := by omega
      simp only [if_pos hwrapped, if_pos hwrapped']
      exact ⟨by constructor <;> omega, by omega, by omega, fun h => absurd hwrapped h⟩
  · have hlast : b.start + (1 + blocksOf p) ≠ b.wrap := by omega
    rw [if_neg hlast] at hstart' hwrap'
    have hplain : ¬ c.used ≥ c.wrap - c.start := by omega
    simp only [if_neg hwrapped, if_neg hplain]
    exact ⟨by constructor <;> omega, by omega, by omega, fun _ => by omega⟩

/-- What is held without its first packet. -/
theorem contents_dropFirst (hb : b.AssertBuffer) (h : Contents b (p :: q)) :
    Contents b.dropFirst q := by
  obtain ⟨hstart', hused', hwrap'⟩ := dropFirst_fields hb h
  obtain ⟨-, hend, -, -⟩ := dropFirst_space hb h
  have hused_eq := h.used_eq hb
  have hfit := (h.head hb).2.2.2
  have hnonneg := blocksOf_nonneg p
  have hrest := total_nonneg q
  rw [total_cons] at hused_eq
  have hlt := hb.start_lt
  have hused_le := hb.used_le
  have hsize' : b.dropFirst.size = b.size := rfl
  have hmtu' : b.dropFirst.mtu = b.mtu := rfl
  have hbuffer' : b.dropFirst.buffer = b.buffer := rfl
  generalize b.dropFirst = c at *
  by_cases hwrapped : b.used ≥ b.wrap - b.start
  · rw [Contents, if_pos hwrapped] at h
    obtain ⟨hnear, q₁, q₂, hq, h₁, h₂⟩ := h
    have hbend : b.bufferEnd = b.used - (b.wrap - b.start) := if_pos hwrapped
    obtain ⟨p', q', rfl, hlim⟩ := h₁.exists_cons hlt
    obtain ⟨rfl, rfl⟩ := List.cons.inj hq
    have htail := h₁.2.2.2
    by_cases hlast : b.start + (1 + blocksOf p) = b.wrap
    · -- the lap is over: what is left lies at the front
      rw [if_pos hlast] at hstart' hwrap'
      have hempty : q' = [] := by
        have he := htail.eq_add_total
        cases q' with
        | nil => rfl
        | cons r q' =>
          have hr := blocksOf_nonneg r
          have hq' := total_nonneg q'
          rw [total_cons] at he
          omega
      subst hempty
      have hle := hb.wrap_le
      rw [Contents, if_neg (by omega), hend, hsize', hmtu', hstart', hbuffer']
      exact ⟨by omega, h₂⟩
    · rw [if_neg hlast] at hstart' hwrap'
      rw [Contents, if_pos (by omega), hend, hsize', hmtu', hstart', hwrap', hbuffer']
      exact ⟨hnear, q', q₂, rfl, add_assoc b.start 1 _ ▸ htail, h₂⟩
  · rw [Contents, if_neg hwrapped] at h
    rw [if_neg (by omega)] at hstart' hwrap'
    rw [Contents, if_neg (by omega), hend, hsize', hmtu', hstart', hbuffer']
    exact ⟨h.1, add_assoc b.start 1 _ ▸ h.2.2.2.2⟩

/-- The input does not have to be looked at again where the blocks in use do not reach `wrap`. -/
theorem nextInput_dropFirst (hb : b.AssertBuffer) (h : Contents b (p :: q))
    (hplain : ¬ b.used ≥ b.wrap - b.start) : b.dropFirst.nextInput = b.nextInput := by
  obtain ⟨-, hend, -, hfree⟩ := dropFirst_space hb h
  rw [ChunkBuffer2.nextInput, ChunkBuffer2.nextInput, hend, hfree hplain]
  rfl

/-- **`ChunkBuffer2_ConsumePacket` takes the first packet out.** -/
theorem holds_consumePacket (h : Holds b (p :: q)) : Holds b.consumePacket q := by
  obtain ⟨hsize, hb, hq, hin, hout⟩ := h
  have hcq := contents_dropFirst hb hq
  obtain ⟨hcb, -, -, -⟩ := dropFirst_space hb hq
  have hcsize : b.dropFirst.size = b.size := rfl
  have hcfree : blockSize * b.dropFirst.free ≤ intMax := by
    have hcfree_le := hcb.free_le
    unfold blockSize at *
    omega
  rw [ChunkBuffer2.consumePacket]
  by_cases hwrapped : b.used ≥ b.wrap - b.start
  · simp only [if_pos hwrapped]
    refine ⟨hsize, hcb.io _ _ _ _ _, hcq, ?_, ?_⟩
    · exact @assertInput_of_nextInput b.dropFirst.updateInput.updateOutput hcfree rfl rfl
    · exact @assertOutput_of_nextOutput b.dropFirst.updateInput.updateOutput _ (hcb.io _ _ _ _ _)
        hcq rfl rfl
  · simp only [if_neg hwrapped]
    have hnext := nextInput_dropFirst hb hq hwrapped
    obtain ⟨hid, hia⟩ := hin.eq_nextInput (by have := hb.free_le; unfold blockSize at *; omega)
    refine ⟨hsize, hcb.io _ _ _ _ _, hcq, ?_, ?_⟩
    · refine @assertInput_of_nextInput b.dropFirst.updateOutput hcfree ?_ ?_
      · exact hid.trans (congrArg Prod.fst hnext.symm)
      · exact hia.trans (congrArg Prod.snd hnext.symm)
    · exact @assertOutput_of_nextOutput b.dropFirst.updateOutput _ (hcb.io _ _ _ _ _) hcq rfl rfl

/-- **A packet that goes leaves `input_dest` where it is, with no less room.**  Who is writing there
is not disturbed. -/
theorem input_consumePacket (h : Holds b (p :: q)) {dest : ℤ} (hdest : b.input_dest = some dest) :
    b.consumePacket.input_dest = some dest ∧ b.input_avail ≤ b.consumePacket.input_avail := by
  have hafter := (holds_consumePacket h).assertInput
  obtain ⟨hroom, hfree, rfl, havail⟩ := h.assertInput.of_some hdest
  obtain ⟨-, hend, hmore, -⟩ := dropFirst_space h.assertBuffer h.contents
  obtain ⟨hsize', hmtu', hend', hfree'⟩ : b.consumePacket.size = b.size ∧
      b.consumePacket.mtu = b.mtu ∧ b.consumePacket.bufferEnd = b.dropFirst.bufferEnd ∧
      b.consumePacket.free = b.dropFirst.free := by
    unfold ChunkBuffer2.consumePacket
    simp only
    split <;> exact ⟨rfl, rfl, rfl, rfl⟩
  unfold ChunkBuffer2.AssertInput at hafter
  rw [hsize', hmtu', hend', hfree', hend, if_neg (by omega), if_pos (by omega)] at hafter
  rw [hafter.1, hafter.2, havail]
  unfold blockSize
  exact ⟨rfl, by omega⟩

/-! ## 3. What a caller sees -/

/-- The packet at `output_dest`. -/
def ChunkBuffer2.output (b : ChunkBuffer2) : Option (List UInt8) :=
  b.output_dest.map fun src => read b.buffer src b.output_avail.toNat

/-- `output_dest` and `output_avail` are about the first packet. -/
theorem Holds.offered_eq (h : Holds b q) :
    b.output_dest = (offered b.start q).1 ∧ b.output_avail = (offered b.start q).2 := by
  obtain ⟨-, hb, hq, -, hout⟩ := h
  rw [← hq.nextOutput_eq hb]
  exact hout.eq_nextOutput

/-- The packet a buffer offers is the first of those it holds. -/
theorem Holds.output_eq (h : Holds b q) : b.output = q.head? := by
  obtain ⟨hdest, havail⟩ := h.offered_eq
  rw [ChunkBuffer2.output, hdest, havail]
  cases q with
  | nil => rfl
  | cons p q =>
    obtain ⟨-, -, hdata, -⟩ := h.contents.head h.assertBuffer
    rw [offered, Option.map_some, Int.toNat_natCast, hdata, List.head?_cons]

/-- Nothing is offered where nothing is held, and only there. -/
theorem Holds.output_dest_eq_none_iff (h : Holds b q) : b.output_dest = none ↔ q = [] := by
  have houtput := h.output_eq
  rw [← List.head?_eq_none_iff, ← houtput, ChunkBuffer2.output, Option.map_eq_none_iff]

/-- `output_avail` is negative where nothing is held, and only there. -/
theorem Holds.output_avail_neg_iff (h : Holds b q) : b.output_avail < 0 ↔ q = [] := by
  rw [h.offered_eq.2]
  cases q with
  | nil => simp [offered]
  | cons p q => simp [offered]

/-- Room that is not negative is somewhere. -/
theorem Holds.exists_input_dest (h : Holds b q) (havail : 0 ≤ b.input_avail) :
    ∃ dest, b.input_dest = some dest := by
  have hin := h.assertInput
  unfold ChunkBuffer2.AssertInput at hin
  split_ifs at hin
  · omega
  · exact ⟨_, hin.1⟩
  · omega

/-- **Where the packets leave enough blocks free, a packet of the largest size can go in.**  One
packet's worth of blocks can be lost at the end of the lap. -/
theorem Holds.room (h : Holds b q) (htotal : q = [] ∨ total q + 2 * b.mtu + 1 ≤ b.size) :
    (∃ dest, b.input_dest = some dest) ∧ blockSize * b.mtu ≤ b.input_avail := by
  obtain ⟨-, hb, hq, hin, -⟩ := h
  have hused := hq.used_eq hb
  have hmtu := hb.mtu_nonneg
  have hlt := hb.start_lt
  have hfits : b.bufferEnd ≤ b.size - 1 - b.mtu ∧ 1 + b.mtu ≤ b.free := by
    unfold Contents at hq
    split at hq
    · rename_i hwrapped
      obtain ⟨hnear, q₁, q₂, rfl, h₁, -⟩ := hq
      obtain ⟨p, q', rfl, hlim⟩ := h₁.exists_cons hlt
      have hend : b.bufferEnd = b.used - (b.wrap - b.start) := if_pos hwrapped
      have hfree : b.free = b.start - b.bufferEnd := if_pos hwrapped
      have hle := hb.used_le
      rcases htotal with hnil | htotal
      · cases hnil
      · omega
    · rename_i hplain
      have hfree : b.free = b.size - b.bufferEnd := if_neg hplain
      omega
  unfold ChunkBuffer2.AssertInput at hin
  rw [if_neg (by omega), if_pos (by omega)] at hin
  rw [hin.2]
  unfold blockSize
  exact ⟨⟨_, hin.1⟩, by omega⟩

/-- `ChunkBuffer2_Init`, with blocks for a packet of the largest size. -/
theorem holds_init (buffer : ℤ → UInt8) {blocks mtu : ℤ} (hmtu : 0 ≤ mtu)
    (hblocks : bdivideUp mtu blockSize < blocks) (hint : blockSize * blocks ≤ intMax) :
    Holds (ChunkBuffer2.init buffer blocks mtu) [] := by
  have hnonneg : 0 ≤ bdivideUp mtu blockSize := by rw [bdivideUp_blockSize]; omega
  obtain ⟨b, hb⟩ : ∃ b, b = ChunkBuffer2.clear buffer blocks mtu := ⟨_, rfl⟩
  have hsize : b.size = blocks := by rw [hb]; rfl
  have hwrap : b.wrap = blocks := by rw [hb]; rfl
  have hstart : b.start = 0 := by rw [hb]; rfl
  have hused : b.used = 0 := by rw [hb]; rfl
  have hbmtu : b.mtu = bdivideUp mtu blockSize := by rw [hb]; rfl
  have hassert : b.AssertBuffer := by constructor <;> omega
  have hplain : ¬ b.used ≥ b.wrap - b.start := by omega
  have hend : b.bufferEnd = 0 := by
    rw [ChunkBuffer2.bufferEnd, if_neg hplain]
    omega
  have hcontents : Contents b [] := by
    rw [Contents, if_neg hplain, hend]
    exact ⟨by omega, hstart⟩
  have hfree : blockSize * b.free ≤ intMax := by
    rwa [ChunkBuffer2.free, if_neg hplain, hend, hsize, sub_zero]
  rw [ChunkBuffer2.init, ← hb]
  refine ⟨?_, hassert.io _ _ _ _ _, hcontents, ?_, ?_⟩
  · exact hsize.symm ▸ hint
  · exact @assertInput_of_nextInput b.updateInput.updateOutput hfree rfl rfl
  · exact @assertOutput_of_nextOutput b.updateInput.updateOutput _ (hassert.io _ _ _ _ _)
      hcontents rfl rfl

/-- `ChunkBuffer2_calc_blocks` gives blocks for one packet more than was asked for, or fails. -/
theorem calcBlocks_eq {chunk_len num : ℤ} (h : ChunkBuffer2.calcBlocks chunk_len num ≠ -1) :
    ChunkBuffer2.calcBlocks chunk_len num = (1 + bdivideUp chunk_len blockSize) * (num + 1) := by
  unfold ChunkBuffer2.calcBlocks at h ⊢
  simp only at h ⊢
  split_ifs at h ⊢ <;> first | rfl | exact absurd rfl h

/-! ## 4. Runs -/

/-- What a caller does: write bytes to `input_dest`, submit the first of what is there, or consume
the packet at `output_dest`. -/
inductive ChunkBuffer2.Op
  | write (w : List UInt8)
  | submit (len : ℕ)
  | consume

/-- One call, within what its assertions allow. -/
def ChunkBuffer2.step (b : ChunkBuffer2) : ChunkBuffer2.Op → Option ChunkBuffer2
  | .write w =>
    b.input_dest.bind fun dest =>
      if (w.length : ℤ) ≤ b.input_avail then some (b.fill dest w) else none
  | .submit len =>
    b.input_dest.bind fun _ =>
      if (len : ℤ) ≤ b.input_avail then some (b.submitPacket len) else none
  | .consume => b.output_dest.map fun _ => b.consumePacket

/-- The packet an operation submits. -/
def ChunkBuffer2.submitted (b : ChunkBuffer2) : ChunkBuffer2.Op → List (List UInt8)
  | .submit len => (b.input_dest.map fun dest => read b.buffer dest len).toList
  | _ => []

/-- The packet an operation consumes. -/
def ChunkBuffer2.consumed (b : ChunkBuffer2) : ChunkBuffer2.Op → List (List UInt8)
  | .consume => b.output.toList
  | _ => []

theorem holds_step (h : Holds b q) {op : ChunkBuffer2.Op} {c : ChunkBuffer2}
    (hstep : b.step op = some c) :
    ∃ q', Holds c q' ∧ q ++ b.submitted op = b.consumed op ++ q' := by
  cases op with
  | write w =>
    obtain ⟨dest, hdest, hstep⟩ := Option.bind_eq_some_iff.mp hstep
    split at hstep
    · rename_i hfits
      obtain rfl := Option.some.inj hstep
      exact ⟨q, holds_fill h hdest hfits, by simp [ChunkBuffer2.submitted, ChunkBuffer2.consumed]⟩
    · cases hstep
  | submit len =>
    obtain ⟨dest, hdest, hstep⟩ := Option.bind_eq_some_iff.mp hstep
    split at hstep
    · rename_i hfits
      obtain rfl := Option.some.inj hstep
      refine ⟨_, holds_submitPacket h hdest hfits, ?_⟩
      rw [ChunkBuffer2.submitted, hdest]
      rfl
    · cases hstep
  | consume =>
    obtain ⟨src, hsrc, rfl⟩ := Option.map_eq_some_iff.mp hstep
    cases q with
    | nil =>
      rw [h.output_dest_eq_none_iff.mpr rfl] at hsrc
      cases hsrc
    | cons p q =>
      refine ⟨q, holds_consumePacket h, ?_⟩
      simp [ChunkBuffer2.submitted, ChunkBuffer2.consumed, h.output_eq]

/-- **Packets come out whole and in order.**  Along any run of calls within their assertions the
assertions of the buffer hold; what was consumed and then what is still in it is what was submitted,
byte for byte, and the buffer offers the first of the packets still in it. -/
theorem packets_in_order (buffer : ℤ → UInt8) {blocks mtu : ℤ} (hmtu : 0 ≤ mtu)
    (hblocks : bdivideUp mtu blockSize < blocks) (hint : blockSize * blocks ≤ intMax)
    {ops : List ChunkBuffer2.Op} {b : ChunkBuffer2}
    (hrun : exec ChunkBuffer2.step (ChunkBuffer2.init buffer blocks mtu) ops = some b) :
    b.AssertBuffer ∧ b.AssertInput ∧ b.AssertOutput ∧ ∃ q,
      Fifo.collect ChunkBuffer2.step ChunkBuffer2.submitted
          (ChunkBuffer2.init buffer blocks mtu) ops =
        Fifo.collect ChunkBuffer2.step ChunkBuffer2.consumed
          (ChunkBuffer2.init buffer blocks mtu) ops ++ q ∧
      b.output = q.head? := by
  have hstep : ∀ c q op c', Holds c q → c.step op = some c' →
      ∃ q', Holds c' q' ∧ q ++ c.submitted op = c.consumed op ++ q' :=
    fun _ _ _ _ h hs => holds_step h hs
  obtain ⟨q, hq, hconserved⟩ :=
    Fifo.conserved hstep (holds_init buffer hmtu hblocks hint) hrun
  exact ⟨hq.assertBuffer, hq.assertInput, hq.assertOutput, q, hconserved, hq.output_eq⟩

/-- Two packets through a buffer of three blocks, the second one around its end. -/
theorem packets_in_order_three_blocks :
    ∃ b, exec ChunkBuffer2.step (ChunkBuffer2.init (fun _ => 0) 3 4)
        [.write [1, 2, 3], .submit 3, .consume, .write [4], .submit 1] = some b ∧
      b.AssertInput ∧ b.AssertOutput := by
  obtain ⟨b, hb⟩ := Option.isSome_iff_exists.mp (by decide +kernel :
    (exec ChunkBuffer2.step (ChunkBuffer2.init (fun _ => 0) 3 4)
      [.write [1, 2, 3], .submit 3, .consume, .write [4], .submit 1]).isSome)
  obtain ⟨-, hinput, houtput, -⟩ :=
    packets_in_order (fun _ => 0) (by decide) (by decide) (by decide) hb
  exact ⟨b, hb, hinput, houtput⟩

end ShiroKhorshid.Tun
