/-
# The packet buffer

`PacketBuffer` stands between a source that is asked for packets and a sink that is given them.  It
keeps one receive operation open as long as a packet of the largest size fits in its circular
buffer, and one send operation as long as there is a packet in it.  The source writes straight into
the circular buffer and the sink reads straight from it.

An operation may only be started when the one before it is done, and the buffer's own calls have
assertions; a handler that breaks one of these gives `none` here.  `Ready` is what holds between
handlers: the buffer holds some packets, the source writes at the place it was offered where there
is one, and the sink reads the first packet where there is one.

* The source finishes (`ready_inputDone`): its packet goes to the end, and the next place is
  offered.  The sink may be reading all the while, and its packet stays where it is.
* The sink finishes (`ready_outputDone`): the first packet goes.  A source that is writing is not
  disturbed by that; one that was waiting is asked again where there is room now.
* Fewer packets than `num_packets` leave room for another, so that the source is not kept waiting
  (`Ready.receiving_isSome`).

`packetBuffer_run` puts them together: no assertion ever fails, whatever the source writes and in
whatever order the two ends finish; the two handlers never leave both ends idle; and what the sink
reads is what the source wrote, in order.

The source and the sink are any that keep to their interfaces.  That they finish at all is theirs.
-/
import ShiroKhorshid.Tun.ChunkQueue

namespace ShiroKhorshid.Tun

open Bytes Transition

/-! ## 1. The code -/

structure PacketBuffer where
  buf : ChunkBuffer2
  input_mtu : ℤ
  /-- `PacketPassInterface_GetMTU(output)` -/
  output_mtu : ℤ
  /-- where the receive operation under way writes -/
  receiving : Option ℤ
  /-- where the send operation under way reads, and how much -/
  sending : Option (ℤ × ℤ)

namespace PacketBuffer

/-- `PacketRecvInterface_Receiver_Recv` on the input -/
def receiverRecv (s : PacketBuffer) (dest : Option ℤ) : Option PacketBuffer :=
  if s.receiving = none then dest.map fun d => { s with receiving := some d } else none

/-- `PacketPassInterface_Sender_Send` on the output -/
def senderSend (s : PacketBuffer) (src : Option ℤ) (len : ℤ) : Option PacketBuffer :=
  if s.sending = none ∧ 0 ≤ len ∧ len ≤ s.output_mtu then
    src.map fun a => { s with sending := some (a, len) }
  else none

/-- The call of `ChunkBuffer2_SubmitPacket`, with its assertions. -/
def submit (s : PacketBuffer) (len : ℕ) : Option PacketBuffer :=
  if s.buf.input_dest.isSome ∧ (len : ℤ) ≤ s.buf.input_avail then
    some { s with buf := s.buf.submitPacket len }
  else none

/-- The call of `ChunkBuffer2_ConsumePacket`, with its assertion. -/
def consume (s : PacketBuffer) : Option PacketBuffer :=
  if s.buf.output_dest.isSome then some { s with buf := s.buf.consumePacket } else none

/-- `input_handler_done` -/
def inputHandlerDone (s : PacketBuffer) (in_len : ℕ) : Option PacketBuffer := do
  -- remember if the buffer is empty
  let was_empty := s.buf.output_avail < 0
  let s ← s.submit in_len
  -- if there is space, schedule receive
  let s ← (if s.buf.input_avail ≥ s.input_mtu then s.receiverRecv s.buf.input_dest else some s)
  -- if the buffer was empty, schedule send
  if was_empty then s.senderSend s.buf.output_dest s.buf.output_avail else some s

/-- `output_handler_done` -/
def outputHandlerDone (s : PacketBuffer) : Option PacketBuffer := do
  -- remember if the buffer is full
  let was_full := s.buf.input_avail < s.input_mtu
  let s ← s.consume
  -- if the buffer was full and there is space, schedule receive
  let s ← (if was_full ∧ s.buf.input_avail ≥ s.input_mtu then s.receiverRecv s.buf.input_dest
    else some s)
  -- if there is more data, schedule send
  if s.buf.output_avail ≥ 0 then s.senderSend s.buf.output_dest s.buf.output_avail else some s

/-- `PacketBuffer_Init`, from the memory that it is given -/
def init (memory : ℤ → UInt8) (input_mtu output_mtu num_packets : ℤ) : Option PacketBuffer :=
  let num_blocks := ChunkBuffer2.calcBlocks input_mtu num_packets
  if num_blocks < 0 then none
  else
    let s : PacketBuffer :=
      { buf := ChunkBuffer2.init memory num_blocks input_mtu, input_mtu, output_mtu
        receiving := none, sending := none }
    s.receiverRecv s.buf.input_dest

/-- What happens around the buffer: the source writes to where it was told to, finishes with a
packet, or the sink finishes. -/
inductive Event
  | write (w : List UInt8)
  | inputDone (in_len : ℕ)
  | outputDone

/-- The source writes and finishes only while it has been asked to, within `input_mtu`; the sink
finishes only what it was given. -/
def Enabled (s : PacketBuffer) : Event → Prop
  | .write w => s.receiving.isSome ∧ (w.length : ℤ) ≤ s.input_mtu
  | .inputDone in_len => s.receiving.isSome ∧ (in_len : ℤ) ≤ s.input_mtu
  | .outputDone => s.sending.isSome

instance (s : PacketBuffer) (e : Event) : Decidable (s.Enabled e) := by
  cases e <;> unfold Enabled <;> infer_instance

/-- What the buffer does; `none` where an assertion fails.  An interface is idle again when it
calls its handler. -/
def handle (s : PacketBuffer) : Event → Option PacketBuffer
  | .write w => s.receiving.map fun dest => { s with buf := s.buf.fill dest w }
  | .inputDone in_len => { s with receiving := none }.inputHandlerDone in_len
  | .outputDone => { s with sending := none }.outputHandlerDone

def step (s : PacketBuffer) (e : Event) : Option PacketBuffer :=
  if s.Enabled e then s.handle e else none

/-- The bytes the sink has been given. -/
def given (s : PacketBuffer) : Option (List UInt8) :=
  s.sending.map fun a => read s.buf.buffer a.1 a.2.toNat

/-- The packet the source finishes with. -/
def received (s : PacketBuffer) : Event → List (List UInt8)
  | .inputDone in_len => (s.receiving.map fun dest => read s.buf.buffer dest in_len).toList
  | _ => []

/-- The packet the sink finishes with. -/
def sent (s : PacketBuffer) : Event → List (List UInt8)
  | .outputDone => s.given.toList
  | _ => []

end PacketBuffer

/-! ## 2. What a handler keeps -/

/-- Between handlers: the circular buffer holds the packets `q`; a receive operation is under way
exactly where a packet of the largest size fits, a send operation exactly where there is a packet,
and both work where the circular buffer says. -/
structure PacketBuffer.Ready (s : PacketBuffer) (num : ℤ) (q : List (List UInt8)) : Prop where
  holds : Holds s.buf q
  mtu_nonneg : 0 ≤ s.input_mtu
  mtu_le : s.input_mtu ≤ s.output_mtu
  mtu_blocks : s.buf.mtu = bdivideUp s.input_mtu blockSize
  sized : s.buf.size = (1 + s.buf.mtu) * (num + 1)
  short : ∀ p ∈ q, (p.length : ℤ) ≤ s.input_mtu
  receiving : s.receiving = if s.input_mtu ≤ s.buf.input_avail then s.buf.input_dest else none
  sending : s.sending = s.buf.output_dest.map fun a => (a, s.buf.output_avail)

section Steps

variable {s : PacketBuffer} {num : ℤ} {q : List (List UInt8)}

theorem receiverRecv_eq {dest : ℤ} (h : s.receiving = none) :
    s.receiverRecv (some dest) = some { s with receiving := some dest } := if_pos h

theorem senderSend_eq {src len : ℤ} (h : s.sending = none) (hlo : 0 ≤ len)
    (hhi : len ≤ s.output_mtu) :
    s.senderSend (some src) len = some { s with sending := some (src, len) } :=
  if_pos ⟨h, hlo, hhi⟩

/-- Where the source has been asked for a packet, one of the largest size fits there. -/
theorem PacketBuffer.Ready.of_receiving (h : s.Ready num q) (hrecv : s.receiving.isSome) :
    ∃ dest, s.receiving = some dest ∧ s.buf.input_dest = some dest ∧
      s.input_mtu ≤ s.buf.input_avail := by
  have hr := h.receiving
  split at hr
  · obtain ⟨dest, hdest⟩ := Option.isSome_iff_exists.mp hrecv
    exact ⟨dest, hdest, hr.symm.trans hdest, by assumption⟩
  · rw [hr] at hrecv
    cases hrecv

/-- What the sink is given is the first packet that waits. -/
theorem PacketBuffer.Ready.given_eq (h : s.Ready num q) : s.given = q.head? := by
  have hout := h.holds.output_eq
  rw [ChunkBuffer2.output] at hout
  rw [PacketBuffer.given, h.sending, Option.map_map]
  exact hout

/-- The source writes. -/
theorem ready_write (h : s.Ready num q) {w : List UInt8} (he : s.Enabled (.write w)) :
    ∃ t, s.handle (.write w) = some t ∧ t.Ready num q := by
  obtain ⟨dest, hdest, hinput, hfits⟩ := h.of_receiving he.1
  refine ⟨{ s with buf := s.buf.fill dest w }, ?_, ?_⟩
  · rw [PacketBuffer.handle, hdest, Option.map_some]
  · have hw : (w.length : ℤ) ≤ s.buf.input_avail := le_trans he.2 hfits
    exact ⟨holds_fill h.holds hinput hw, h.mtu_nonneg, h.mtu_le, h.mtu_blocks, h.sized, h.short,
      h.receiving, h.sending⟩

/-- **The source finishes with a packet.**  It is taken in, and both interfaces get their next
operation. -/
theorem ready_inputDone (h : s.Ready num q) {n : ℕ} (he : s.Enabled (.inputDone n)) :
    ∃ t p, s.handle (.inputDone n) = some t ∧ s.received (.inputDone n) = [p] ∧
      t.Ready num (q ++ [p]) := by
  obtain ⟨dest, hdest, hinput, hfits⟩ := h.of_receiving he.1
  have hn : (n : ℤ) ≤ s.input_mtu := he.2
  have hmtu := h.mtu_nonneg
  have hle := h.mtu_le
  have hholds := holds_submitPacket h.holds hinput (le_trans hn hfits)
  obtain ⟨p, hp⟩ : ∃ p, p = read s.buf.buffer dest n := ⟨_, rfl⟩
  have hlen : p.length = n := by rw [hp, length_read]
  rw [← hp] at hholds
  obtain ⟨c, hc⟩ : ∃ c, c = s.buf.submitPacket n := ⟨_, rfl⟩
  rw [← hc] at hholds
  have hstart : c.start = s.buf.start := by
    rw [hc, ChunkBuffer2.submitPacket]
    split <;> rfl
  have hcmtu : c.mtu = s.buf.mtu := by
    rw [hc, ChunkBuffer2.submitPacket]
    split <;> rfl
  have hsized : c.size = (1 + c.mtu) * (num + 1) := by
    rw [hcmtu, ← h.sized, hc, ChunkBuffer2.submitPacket]
    split <;> rfl
  have hshort : ∀ r ∈ q ++ [p], (r.length : ℤ) ≤ s.input_mtu := by
    intro r hr
    rcases List.mem_append.mp hr with hr | hr
    · exact h.short r hr
    · rw [List.mem_singleton.mp hr, hlen]
      exact hn
  have hsubmit : ({ s with receiving := none } : PacketBuffer).submit n =
      some { s with receiving := none, buf := c } := by
    rw [hc, PacketBuffer.submit, if_pos ⟨by rw [hinput]; rfl, le_trans hn hfits⟩]
  -- the next receive operation
  obtain ⟨r, hr, hrecv⟩ : ∃ r, r = (if s.input_mtu ≤ c.input_avail then c.input_dest else none) ∧
      (if c.input_avail ≥ s.input_mtu then
        ({ s with receiving := none, buf := c } : PacketBuffer).receiverRecv c.input_dest
      else some { s with receiving := none, buf := c }) =
        some { s with receiving := r, buf := c } := by
    by_cases hroom : s.input_mtu ≤ c.input_avail
    · obtain ⟨d, hd⟩ := hholds.exists_input_dest (le_trans hmtu hroom)
      refine ⟨some d, by rw [if_pos hroom, hd], ?_⟩
      rw [if_pos hroom, hd]
      exact receiverRecv_eq rfl
    · exact ⟨none, by rw [if_neg hroom], by rw [if_neg hroom]⟩
  have hreceived : s.received (.inputDone n) = [p] := by
    rw [PacketBuffer.received, hdest, hp]
    rfl
  obtain ⟨hdest', havail'⟩ := hholds.offered_eq
  cases q with
  | nil =>
    -- the sink is idle and gets the packet
    simp only [List.nil_append, offered] at hdest' havail'
    have hempty : s.buf.output_avail < 0 := h.holds.output_avail_neg_iff.mpr rfl
    have hidle : s.sending = none := by
      rw [h.sending, h.holds.output_dest_eq_none_iff.mpr rfl, Option.map_none]
    refine ⟨{ s with
        receiving := r, buf := c, sending := some (blockSize * (c.start + 1), p.length) },
      p, ?_, hreceived, ?_⟩
    · rw [PacketBuffer.handle, PacketBuffer.inputHandlerDone]
      simp only [Option.bind_eq_bind, hsubmit, Option.bind_some, hrecv, if_pos hempty]
      rw [hdest', havail']
      have hout : (p.length : ℤ) ≤ s.output_mtu := by omega
      exact senderSend_eq hidle (Int.natCast_nonneg _) hout
    · exact ⟨hholds, hmtu, hle, hcmtu.trans h.mtu_blocks, hsized, hshort, hr,
        by rw [hdest', havail']; rfl⟩
  | cons p₀ q =>
    have hnonempty : ¬ s.buf.output_avail < 0 := fun hneg => by
      cases h.holds.output_avail_neg_iff.mp hneg
    refine ⟨{ s with receiving := r, buf := c }, p, ?_, hreceived, ?_⟩
    · rw [PacketBuffer.handle, PacketBuffer.inputHandlerDone]
      simp only [Option.bind_eq_bind, hsubmit, Option.bind_some, hrecv, if_neg hnonempty]
    · refine ⟨hholds, hmtu, hle, hcmtu.trans h.mtu_blocks, hsized, hshort, hr, ?_⟩
      obtain ⟨hd, ha⟩ := h.holds.offered_eq
      have hs := h.sending
      rw [hd, ha, ← hstart] at hs
      rw [hdest', havail']
      exact hs

/-- **The sink finishes.**  Its packet goes, a source that was waiting for room is asked again where
there is some, and the sink gets the next packet. -/
theorem ready_outputDone (h : s.Ready num q) (he : s.Enabled .outputDone) :
    ∃ t p q', q = p :: q' ∧ s.handle .outputDone = some t ∧ s.sent .outputDone = [p] ∧
      t.Ready num q' := by
  have hmtu := h.mtu_nonneg
  have hle := h.mtu_le
  obtain ⟨hd, ha⟩ := h.holds.offered_eq
  cases q with
  | nil =>
    have hnone : s.sending = none := by rw [h.sending, hd]; rfl
    rw [PacketBuffer.Enabled, hnone] at he
    cases he
  | cons p q =>
    have hgiven : s.given = some p := h.given_eq
    have hholds := holds_consumePacket h.holds
    have hcmtu : s.buf.consumePacket.mtu = s.buf.mtu := by
      rw [ChunkBuffer2.consumePacket]
      split <;> rfl
    have hcsize : s.buf.consumePacket.size = s.buf.size := by
      rw [ChunkBuffer2.consumePacket]
      split <;> rfl
    have hconsume : ({ s with sending := none } : PacketBuffer).consume =
        some { s with sending := none, buf := s.buf.consumePacket } := by
      rw [PacketBuffer.consume, if_pos (by rw [hd]; rfl)]
    have hinput : ∀ dest, s.buf.input_dest = some dest →
        s.buf.consumePacket.input_dest = some dest ∧
          s.buf.input_avail ≤ s.buf.consumePacket.input_avail :=
      fun dest hdest => input_consumePacket h.holds hdest
    obtain ⟨c, hc⟩ : ∃ c, c = s.buf.consumePacket := ⟨_, rfl⟩
    rw [← hc] at hholds hcmtu hcsize hconsume hinput
    have hsized : c.size = (1 + c.mtu) * (num + 1) := by rw [hcmtu, hcsize, h.sized]
    -- the receive operation goes on, or the next one starts
    obtain ⟨r, hr, hrecv⟩ : ∃ r, r = (if s.input_mtu ≤ c.input_avail then c.input_dest else none) ∧
        (if s.buf.input_avail < s.input_mtu ∧ c.input_avail ≥ s.input_mtu then
          ({ s with sending := none, buf := c } : PacketBuffer).receiverRecv c.input_dest
        else some { s with sending := none, buf := c }) =
          some { s with sending := none, buf := c, receiving := r } := by
      by_cases hfull : s.buf.input_avail < s.input_mtu
      · have hidle : s.receiving = none := by rw [h.receiving, if_neg (by omega)]
        by_cases hroom : s.input_mtu ≤ c.input_avail
        · obtain ⟨d, hd⟩ := hholds.exists_input_dest (le_trans hmtu hroom)
          refine ⟨some d, by rw [if_pos hroom, hd], ?_⟩
          rw [if_pos ⟨hfull, hroom⟩, hd]
          exact receiverRecv_eq hidle
        · refine ⟨none, by rw [if_neg hroom], ?_⟩
          rw [if_neg (fun hboth => hroom hboth.2), ← hidle]
      · have hfits : s.input_mtu ≤ s.buf.input_avail := by omega
        obtain ⟨d, hd⟩ := h.holds.exists_input_dest (le_trans hmtu hfits)
        obtain ⟨hd', hmore⟩ := hinput d hd
        refine ⟨some d, by rw [if_pos (le_trans hfits hmore), hd'], ?_⟩
        have hgoing : s.receiving = some d := by rw [h.receiving, if_pos hfits, hd]
        rw [if_neg (fun hboth => hfull hboth.1), ← hgoing]
    obtain ⟨hdest', havail'⟩ := hholds.offered_eq
    have hshort : ∀ r ∈ q, (r.length : ℤ) ≤ s.input_mtu := fun r hr => h.short r (by simp [hr])
    have hsent : s.sent .outputDone = [p] := by rw [PacketBuffer.sent, hgiven]; rfl
    cases q with
    | nil =>
      simp only [offered] at hdest' havail'
      refine ⟨{ s with sending := none, buf := c, receiving := r }, p, [], rfl, ?_, hsent, ?_⟩
      · rw [PacketBuffer.handle, PacketBuffer.outputHandlerDone]
        simp only [Option.bind_eq_bind, hconsume, Option.bind_some, hrecv]
        rw [if_neg (by rw [havail']; decide)]
      · exact ⟨hholds, hmtu, hle, hcmtu.trans h.mtu_blocks, hsized, hshort, hr, by rw [hdest']; rfl⟩
    | cons p' q =>
      simp only [offered] at hdest' havail'
      have hp' := hshort p' (by simp)
      refine ⟨{ s with
        sending := some (blockSize * (c.start + 1), p'.length), buf := c, receiving := r },
        p, p' :: q, rfl, ?_, hsent, ?_⟩
      · rw [PacketBuffer.handle, PacketBuffer.outputHandlerDone]
        simp only [Option.bind_eq_bind, hconsume, Option.bind_some, hrecv]
        rw [if_pos (by rw [havail']; omega), hdest', havail']
        have hout : (p'.length : ℤ) ≤ s.output_mtu := by omega
        exact senderSend_eq rfl (Int.natCast_nonneg _) hout
      · exact ⟨hholds, hmtu, hle, hcmtu.trans h.mtu_blocks, hsized, hshort, hr,
        by rw [hdest', havail']; rfl⟩

/-- **Every event that can happen is handled**, and what is held changes by what comes in and
what goes. -/
theorem ready_step (h : s.Ready num q) {e : PacketBuffer.Event} (he : s.Enabled e) :
    ∃ t q', s.handle e = some t ∧ t.Ready num q' ∧ q ++ s.received e = s.sent e ++ q' := by
  cases e with
  | write w =>
    obtain ⟨t, ht, hready⟩ := ready_write h he
    exact ⟨t, q, ht, hready, by simp [PacketBuffer.received, PacketBuffer.sent]⟩
  | inputDone n =>
    obtain ⟨t, p, ht, hp, hready⟩ := ready_inputDone h he
    exact ⟨t, q ++ [p], ht, hready, by rw [hp]; simp [PacketBuffer.sent]⟩
  | outputDone =>
    obtain ⟨t, p, q', rfl, ht, hp, hready⟩ := ready_outputDone h he
    exact ⟨t, q', ht, hready, by rw [hp]; simp [PacketBuffer.received]⟩

/-- **Fewer than `num` packets do not fill the buffer**, and an empty buffer is never full. -/
theorem PacketBuffer.Ready.receiving_isSome (h : s.Ready num q)
    (hfew : q = [] ∨ (q.length : ℤ) < num) : s.receiving.isSome := by
  have hm := h.holds.assertBuffer.mtu_nonneg
  have hblocks := h.mtu_blocks
  rw [bdivideUp_blockSize] at hblocks
  have htotal : q = [] ∨ total q + 2 * s.buf.mtu + 1 ≤ s.buf.size := by
    refine hfew.imp_right (fun hlt => ?_)
    have hle : total q ≤ q.length * (1 + s.buf.mtu) :=
      total_le (fun p hp => blocksOf_le (by have := h.short p hp; omega))
    have hsized := h.sized
    nlinarith
  obtain ⟨⟨dest, hdest⟩, hroom⟩ := h.holds.room htotal
  unfold blockSize at hroom
  rw [h.receiving, if_pos (by omega), hdest]
  rfl

end Steps

/-! ## 3. Runs -/

/-- `PacketBuffer_Init` asks for the first packet. -/
theorem ready_init {memory : ℤ → UInt8} {input_mtu output_mtu num_packets : ℤ} {s : PacketBuffer}
    (hinit : PacketBuffer.init memory input_mtu output_mtu num_packets = some s)
    (hmtu : 0 ≤ input_mtu) (hle : input_mtu ≤ output_mtu) (hnum : 0 < num_packets)
    (hint : blockSize * ChunkBuffer2.calcBlocks input_mtu num_packets ≤ intMax) :
    s.Ready num_packets [] := by
  unfold PacketBuffer.init at hinit
  simp only at hinit
  split at hinit
  · cases hinit
  · rename_i hblocks
    have heq := @calcBlocks_eq input_mtu num_packets (by omega)
    have hm : 0 ≤ bdivideUp input_mtu blockSize := by rw [bdivideUp_blockSize]; omega
    have hlt : bdivideUp input_mtu blockSize <
        ChunkBuffer2.calcBlocks input_mtu num_packets := by
      rw [heq]
      nlinarith
    have hholds := holds_init memory hmtu hlt hint
    obtain ⟨c, hc⟩ : ∃ c, c = ChunkBuffer2.init memory
      (ChunkBuffer2.calcBlocks input_mtu num_packets) input_mtu := ⟨_, rfl⟩
    have hcmtu : c.mtu = bdivideUp input_mtu blockSize := by rw [hc]; rfl
    have hcsize : c.size = ChunkBuffer2.calcBlocks input_mtu num_packets := by rw [hc]; rfl
    rw [← hc] at hholds hinit
    obtain ⟨⟨dest, hdest⟩, hroom⟩ := hholds.room (Or.inl rfl)
    rw [hdest] at hinit
    obtain rfl := Option.some.inj ((receiverRecv_eq rfl).symm.trans hinit)
    have hfits : input_mtu ≤ c.input_avail := by
      rw [bdivideUp_blockSize] at hcmtu
      unfold blockSize at hroom
      omega
    refine ⟨hholds, hmtu, hle, hcmtu, ?_, by simp, ?_, ?_⟩
    · rw [hcsize, hcmtu, heq]
    · rw [if_pos hfits, hdest]
    · rw [hholds.output_dest_eq_none_iff.mpr rfl]
      rfl

/-- **The packet buffer neither loses packets nor stops.**  However the source writes and the two
ends finish, no assertion fails; one of the ends has an operation under way; what the sink was given
is what the source finished with, in order, and what is under way to the sink is the next packet of
it; and as long as fewer than `num_packets` packets wait, the source is being asked for one. -/
theorem packetBuffer_run {memory : ℤ → UInt8} {input_mtu output_mtu num_packets : ℤ}
    {s₀ : PacketBuffer}
    (hinit : PacketBuffer.init memory input_mtu output_mtu num_packets = some s₀)
    (hmtu : 0 ≤ input_mtu) (hle : input_mtu ≤ output_mtu) (hnum : 0 < num_packets)
    (hint : blockSize * ChunkBuffer2.calcBlocks input_mtu num_packets ≤ intMax)
    {es : List PacketBuffer.Event} {s : PacketBuffer}
    (hrun : exec PacketBuffer.step s₀ es = some s) :
    (∀ e, s.Enabled e → (s.handle e).isSome) ∧
      (s.receiving.isSome ∨ s.sending.isSome) ∧
      ∃ q, Fifo.collect PacketBuffer.step PacketBuffer.received s₀ es =
          Fifo.collect PacketBuffer.step PacketBuffer.sent s₀ es ++ q ∧
        s.given = q.head? ∧
        ((q.length : ℤ) < num_packets → s.receiving.isSome) := by
  have hready := ready_init hinit hmtu hle hnum hint
  have hstep : ∀ (c : PacketBuffer) q e c', c.Ready num_packets q → c.step e = some c' →
      ∃ q', c'.Ready num_packets q' ∧ q ++ c.received e = c.sent e ++ q' := by
    intro c q e c' hc hstep
    rw [PacketBuffer.step] at hstep
    split at hstep
    · obtain ⟨t, q', ht, hready, hq⟩ := ready_step hc (by assumption)
      obtain rfl := Option.some.inj (ht.symm.trans hstep)
      exact ⟨q', hready, hq⟩
    · cases hstep
  obtain ⟨q, hq, hconserved⟩ := Fifo.conserved hstep hready hrun
  refine ⟨fun e he => ?_, ?_, q, hconserved, hq.given_eq, fun hfew =>
    hq.receiving_isSome (Or.inr hfew)⟩
  · obtain ⟨t, -, ht, -, -⟩ := ready_step hq he
    rw [ht]
    rfl
  · cases q with
    | nil => exact Or.inl (hq.receiving_isSome (Or.inl rfl))
    | cons p q =>
      right
      rw [← Option.isSome_map (f := fun a => read s.buf.buffer a.1 a.2.toNat)]
      rw [← PacketBuffer.given, hq.given_eq]
      rfl

/-- Two packets, of which the first is sent while the second is received. -/
theorem packetBuffer_run_two_packets :
    ∃ s₀ s, PacketBuffer.init (fun _ => 0) 4 4 2 = some s₀ ∧
      exec PacketBuffer.step s₀
          [.write [1, 2], .inputDone 2, .outputDone, .write [3], .inputDone 1] = some s ∧
      (s.receiving.isSome ∨ s.sending.isSome) := by
  obtain ⟨s₀, hinit⟩ := Option.isSome_iff_exists.mp
    (by decide +kernel : (PacketBuffer.init (fun _ => 0) 4 4 2).isSome)
  obtain ⟨s, hrun⟩ := Option.isSome_iff_exists.mp (by
    have hall : ((PacketBuffer.init (fun _ => 0) 4 4 2).bind fun s₀ => exec PacketBuffer.step s₀
      [.write [1, 2], .inputDone 2, .outputDone, .write [3], .inputDone 1]).isSome := by
        decide +kernel
    rwa [hinit, Option.bind_some] at hall)
  exact ⟨s₀, s, hinit, hrun,
    (packetBuffer_run hinit (by decide) (by decide) (by decide) (by decide) hrun).2.1⟩

end ShiroKhorshid.Tun
