/-
# Packets through a stream

`PacketStreamSender` writes packets to a stream in as many pieces as the stream takes, and the
decoder reads them in whatever pieces it gives.  `decoder_run` is about any bytes at all: there is
always room to read into, one operation is under way at any time, what was read is the frames that
were handed out and then what is still in the buffer, and it is known exactly when the decoder
reports an error.  `decoder_round_trip` is about a stream of frames, and `sender_to_decoder` about
both ends together.

* Between handlers the decoder is `Ready`: it waits for more of a frame it does not have whole, or
  it has handed out a packet.  An event keeps that, or finds a header that is too large
  (`ready_handle`).
* A run adds up what its steps read and hand out (`ready_run`, by the rule of conservation for
  queues).
* Frames are prefix free, so that a stream of them is cut in one way only; that the stream is one of
  frames is used in `decoder_round_trip` alone.

After an error the decoder is freed, and no run goes on from there.
-/
import ShiroKhorshid.Tun.PacketProto
import ShiroKhorshid.Lib.Fifo

namespace ShiroKhorshid.Tun

open Bytes Transition

namespace PacketProtoDecoder

/-! ## 1. Runs of the decoder -/

/-- Between handlers the decoder waits for the rest of a frame, or has handed out a packet. -/
def Ready (mtu : ℤ) (d : PacketProtoDecoder) (q : List UInt8) : Prop :=
  (Waiting mtu d q ∧ Incomplete mtu q) ∨ ∃ p, Handing mtu d p q

section Runs

variable {mtu : ℤ} {d : PacketProtoDecoder} {q : List UInt8}

/-- Of the two operations one is under way. -/
theorem Waiting.given_eq (h : Waiting mtu d q) : d.given = none := by
  rw [PacketProtoDecoder.given, h.sending]
  rfl

/-- The bytes in the buffer. -/
theorem Ready.buffered (h : Ready mtu d q) : Buffered mtu d q := by
  rcases h with ⟨hwait, -⟩ | ⟨p, hhand⟩
  · exact hwait.buffered
  · exact hhand.buffered

theorem Handing.sending_isSome {p : List UInt8} (h : Handing mtu d p q) : d.sending.isSome := by
  have hgiven := h.given
  rw [PacketProtoDecoder.given] at hgiven
  obtain ⟨a, ha, -⟩ := Option.map_eq_some_iff.mp hgiven
  rw [ha]
  rfl

/-- What `process_data` makes of a buffer with the bytes `q`: an error where the first packet is too
large, and otherwise a packet is handed out exactly where a frame is there. -/
theorem ready_processData (h : Buffered mtu d q) (hrecv : d.receiving = none)
    (hsend : d.sending = none) :
    (TooLarge mtu q → ∃ d', d.processData = .handlerError d') ∧
      (¬ TooLarge mtu q → ∃ d' q', d.processData = .goesOn d' ∧ Ready mtu d' q' ∧
        q = Framing.stream encode d'.given.toList ++ q') := by
  refine ⟨fun hlarge => ?_, fun hlarge => ?_⟩
  · obtain ⟨d', hd', -⟩ := processData_of_tooLarge h hrecv hsend hlarge
    exact ⟨d', hd'⟩
  · by_cases hmore : Incomplete mtu q
    · obtain ⟨d', hd', hwait⟩ := processData_of_incomplete h hrecv hsend hmore
      exact ⟨d', q, hd', Or.inl ⟨hwait, hmore⟩, by rw [hwait.given_eq]; rfl⟩
    · obtain ⟨p, rest, rfl, -, hp⟩ := exists_frame hmore hlarge
      obtain ⟨d', hd', hhand⟩ := processData_of_frame h hrecv hsend hp
      exact ⟨d', rest, hd', Or.inr ⟨p, hhand⟩, by rw [hhand.given]; simp⟩

/-- **Every event that can happen is handled.**  It ends in an error exactly where the first packet
in the buffer is too large then. -/
theorem ready_handle (h : Ready mtu d q) {e : PacketProtoDecoder.Event} (he : d.Enabled e) :
    (TooLarge mtu (q ++ d.bytesIn e) → ∃ d', d.handle e = .handlerError d') ∧
      (¬ TooLarge mtu (q ++ d.bytesIn e) → ∃ d' q', d.handle e = .goesOn d' ∧ Ready mtu d' q' ∧
        q ++ d.bytesIn e = Framing.stream encode d'.given.toList ++ q') := by
  cases e with
  | inputDone data =>
    rcases h with ⟨hwait, -⟩ | ⟨p, hhand⟩
    · have hb := hwait.buffered
      have hused := hb.used_eq
      rw [PacketProtoDecoder.Enabled, hwait.receiving, Option.any_some, decide_eq_true_iff] at he
      have hbuffered : Buffered mtu ({ d with
          receiving := none
          buf := write d.buf (d.buf_start + d.buf_used) data
          buf_used := d.buf_used + data.length } : PacketProtoDecoder) (q ++ data) := by
        refine ⟨hb.mtu_nonneg, hb.mtu_le, hb.mtu_eq, hb.size_eq, hb.start_nonneg, ?_, ?_, ?_⟩
        · show d.buf_used + data.length = ((q ++ data).length : ℤ)
          rw [List.length_append]
          push_cast
          omega
        · show d.buf_start + (d.buf_used + data.length) ≤ d.buf_size
          have hroom := he.2
          omega
        · show read (write d.buf (d.buf_start + d.buf_used) data) d.buf_start
              (q ++ data).length = q ++ data
          rw [List.length_append, read_add, read_write_of_disjoint _ (by omega), hb.bytes, hused,
            read_write]
      have hprocess := ready_processData hbuffered rfl hwait.sending
      rw [PacketProtoDecoder.handle, hwait.receiving, Option.map_some, Option.getD_some,
        PacketProtoDecoder.inputHandlerDone, if_pos he]
      exact hprocess
    · rw [PacketProtoDecoder.Enabled, hhand.receiving] at he
      cases he
  | outputDone =>
    rcases h with ⟨hwait, -⟩ | ⟨p, hhand⟩
    · rw [PacketProtoDecoder.Enabled, hwait.sending] at he
      cases he
    · have hb := hhand.buffered
      have hprocess := @ready_processData mtu { d with sending := none } q
        ⟨hb.mtu_nonneg, hb.mtu_le, hb.mtu_eq, hb.size_eq, hb.start_nonneg, hb.used_eq, hb.fits,
          hb.bytes⟩ hhand.receiving rfl
      rw [PacketProtoDecoder.bytesIn, List.append_nil]
      exact hprocess

/-- One step of a run. -/
theorem ready_step (h : Ready mtu d q) {e : PacketProtoDecoder.Event} {d' : PacketProtoDecoder}
    (hstep : d.step e = some d') :
    ∃ q', Ready mtu d' q' ∧ q ++ d.bytesIn e = Framing.stream encode (d.handedOut e) ++ q' := by
  have hout : d.handedOut e = d'.given.toList := by
    rw [PacketProtoDecoder.handedOut, hstep]
    rfl
  rw [PacketProtoDecoder.step] at hstep
  split at hstep
  · rename_i he
    obtain ⟨herror, hgoes⟩ := ready_handle h he
    by_cases hlarge : TooLarge mtu (q ++ d.bytesIn e)
    · obtain ⟨c, hc⟩ := herror hlarge
      rw [hc] at hstep
      cases hstep
    · obtain ⟨c, q', hc, hready, hq⟩ := hgoes hlarge
      rw [hc] at hstep
      obtain rfl := Option.some.inj hstep
      exact ⟨q', hready, hout.symm ▸ hq⟩
  · cases hstep

end Runs

/-! ## 2. What the decoder makes of a stream -/

theorem ready_init (memory : ℤ → UInt8) {mtu : ℤ} (hmtu : 0 ≤ mtu) :
    Ready (min mtu maxPayload) (init memory mtu) [] := by
  have hmin : 0 ≤ min mtu maxPayload := le_min hmtu (by decide)
  refine Or.inl ⟨⟨⟨hmin, min_le_right _ _, rfl, rfl, le_refl _, rfl, ?_, rfl⟩, rfl, ?_, ?_⟩,
    Or.inl (by decide)⟩
  · show (0 : ℤ) + 0 ≤ headerSize + min mtu maxPayload
    unfold headerSize
    omega
  · show some (0, encLen (min mtu maxPayload)) = some (0 + 0, encLen (min mtu maxPayload) - (0 + 0))
    simp
  · show (0 : ℤ) + 0 < headerSize + min mtu maxPayload
    unfold headerSize
    omega

section Streams

variable {memory : ℤ → UInt8} {mtu : ℤ} {es : List Event} {d : PacketProtoDecoder}

/-- What a run leaves in the buffer, and what it has handed out. -/
theorem ready_run (hmtu : 0 ≤ mtu) (hrun : exec step (init memory mtu) es = some d) :
    ∃ q, Ready (min mtu maxPayload) d q ∧
      Fifo.collect step bytesIn (init memory mtu) es =
        Framing.stream encode (Fifo.collect step handedOut (init memory mtu) es) ++ q := by
  have hstep : ∀ d q e d', Ready (min mtu maxPayload) d q → step d e = some d' →
      ∃ q', Ready (min mtu maxPayload) d' q' ∧
        q ++ d.bytesIn e = (d.handedOut e).flatMap encode ++ q' :=
    fun d q e d' h hd => ready_step h hd
  obtain ⟨q, hq, hconserved⟩ := Fifo.conserved hstep (ready_init memory hmtu) hrun
  rw [Fifo.collect_flatMap] at hconserved
  exact ⟨q, hq, hconserved⟩

/-- Packets are handed out within the size that the output asks for. -/
theorem handedOut_short (hmtu : 0 ≤ mtu) (hrun : exec step (init memory mtu) es = some d) :
    ∀ p ∈ Fifo.collect step handedOut (init memory mtu) es,
      (p.length : ℤ) ≤ min mtu maxPayload := by
  refine @Fifo.forall_mem_collect _ _ _ _ (fun d => ∃ q, Ready (min mtu maxPayload) d q) _ _ ?_ _ _
    ⟨[], ready_init memory hmtu⟩ _ hrun
  rintro d e d' ⟨q, hq⟩ hstep
  obtain ⟨q', hq', -⟩ := ready_step hq hstep
  refine ⟨⟨q', hq'⟩, fun p hp => ?_⟩
  rw [handedOut, hstep, Option.bind_some, Option.mem_toList] at hp
  rcases hq' with ⟨hwait, -⟩ | ⟨p', hhand⟩
  · rw [hwait.given_eq] at hp
    cases hp
  · rw [hhand.given] at hp
    obtain rfl := Option.some.inj hp
    exact hhand.short

/-- **Any bytes are safe to decode.**  Along any run, in whatever pieces the bytes come, the decoder
either reads, behind what it has and within its buffer, or has handed out a packet no larger than
the output takes.  What was read is the frames of the packets that were handed out and then what is
in the buffer, which is no whole frame where the decoder reads.  No event that can happen fails an
assertion, and it makes the decoder report an error exactly where the buffer then starts with
the header of a packet that is too large. -/
theorem decoder_run (hmtu : 0 ≤ mtu) (hrun : exec step (init memory mtu) es = some d) :
    (d.receiving = none ↔ d.sending.isSome) ∧
      (∀ dest len, d.receiving = some (dest, len) →
        0 ≤ dest ∧ 0 < len ∧ dest + len = encLen (min mtu maxPayload)) ∧
      ∃ q, d.buf_used = q.length ∧ read d.buf d.buf_start q.length = q ∧
        Fifo.collect step bytesIn (init memory mtu) es =
          Framing.stream encode (Fifo.collect step handedOut (init memory mtu) es) ++ q ∧
        (d.receiving.isSome → Incomplete (min mtu maxPayload) q) ∧
        ∀ e, d.Enabled e →
          if TooLarge (min mtu maxPayload) (q ++ d.bytesIn e) then
            ∃ d', d.handle e = .handlerError d'
          else ∃ d', d.handle e = .goesOn d' := by
  obtain ⟨q, hq, hbytes⟩ := ready_run hmtu hrun
  refine ⟨?_, ?_, q, hq.buffered.used_eq, hq.buffered.bytes, hbytes, ?_, fun e he => ?_⟩
  · rcases hq with ⟨hwait, -⟩ | ⟨p, hhand⟩
    · rw [hwait.receiving, hwait.sending]
      exact iff_of_false (by simp) (by simp)
    · exact iff_of_true hhand.receiving hhand.sending_isSome
  · rintro dest len hrecv
    rcases hq with ⟨hwait, -⟩ | ⟨p, hhand⟩
    · obtain ⟨rfl, rfl⟩ := Prod.mk.inj (Option.some.inj (hwait.receiving.symm.trans hrecv))
      have hb := hwait.buffered
      have hroom := hwait.room
      have hstart := hb.start_nonneg
      have hused := hb.used_eq
      have hsize := hb.size_eq
      unfold encLen
      omega
    · rw [hhand.receiving] at hrecv
      cases hrecv
  · rcases hq with ⟨-, hmore⟩ | ⟨p, hhand⟩
    · exact fun _ => hmore
    · rw [hhand.receiving]
      intro h
      cases h
  · obtain ⟨herror, hgoes⟩ := ready_handle hq he
    split
    · exact herror (by assumption)
    · obtain ⟨d', -, hd', -⟩ := hgoes (by assumption)
      exact ⟨d', hd'⟩

/-- A packet of two bytes in two pieces, and then the header of one of five bytes, which is too
large: the second byte of it makes the decoder report an error. -/
theorem decoder_run_too_large :
    ∃ d' d'', exec step (init (fun _ => 0) 4) [.inputDone [2, 0, 65], .inputDone [66], .outputDone,
        .inputDone [5]] = some d' ∧
      d'.handle (.inputDone [0]) = .handlerError d'' := by
  let es : List Event := [.inputDone [2, 0, 65], .inputDone [66], .outputDone, .inputDone [5]]
  obtain ⟨d', hrun⟩ := Option.isSome_iff_exists.mp (by decide +kernel :
    (exec step (init (fun _ => 0) 4) es).isSome)
  have hall : ((exec step (init (fun _ => 0) 4) es).all fun d =>
      decide (d.Enabled (.inputDone [0]))) = true := by decide +kernel
  rw [hrun, Option.all_some, decide_eq_true_eq] at hall
  obtain ⟨-, -, q, -, -, hbytes, -, hevents⟩ := decoder_run (by decide) hrun
  have hin : Fifo.collect step bytesIn (init (fun _ => 0) 4) es = [2, 0, 65, 66] ++ [5] := by
    decide +kernel
  have hout : Framing.stream encode (Fifo.collect step handedOut (init (fun _ => 0) 4) es)
      = [2, 0, 65, 66] := by decide +kernel
  rw [hin, hout] at hbytes
  obtain rfl := List.append_cancel_left hbytes
  have herror := hevents (.inputDone [0]) hall
  have hlarge : TooLarge (min 4 maxPayload) [5, 0] := by decide
  obtain ⟨d'', hd''⟩ := (if_pos hlarge).mp herror
  exact ⟨d', d'', hrun, hd''⟩

/-- **A stream of frames comes out as the packets it was made of.**  However the stream is cut into
pieces, what was handed out is the first packets, in order; the next piece never makes the
decoder report an error; and a decoder that has read the whole stream and waits for more has
handed out all of them. -/
theorem decoder_round_trip (hmtu : 0 ≤ mtu) (hrun : exec step (init memory mtu) es = some d)
    {ps : List (List UInt8)} (hps : ∀ p ∈ ps, (p.length : ℤ) ≤ min mtu maxPayload)
    {rest : List UInt8}
    (hstream : Fifo.collect step bytesIn (init memory mtu) es ++ rest = Framing.stream encode ps) :
    Fifo.collect step handedOut (init memory mtu) es <+: ps ∧
      (∀ e, d.Enabled e → d.bytesIn e <+: rest → ∃ d', d.handle e = .goesOn d') ∧
      (rest = [] → d.receiving.isSome →
        Fifo.collect step handedOut (init memory mtu) es = ps) := by
  obtain ⟨q, hq, hbytes⟩ := ready_run hmtu hrun
  have hmin : min mtu maxPayload ≤ maxPayload := min_le_right _ _
  have hpayload : ∀ p ∈ ps, IsPayload p := fun p hp => le_trans (hps p hp) hmin
  have hout : ∀ p ∈ Fifo.collect step handedOut (init memory mtu) es, IsPayload p :=
    fun p hp => le_trans (handedOut_short hmtu hrun p hp) hmin
  rw [hbytes] at hstream
  obtain ⟨cs, hcs, hleft⟩ :=
    Framing.items_in_order encode_prefixFree encode_ne_nil hout hpayload hstream
  refine ⟨⟨cs, hcs.symm⟩, ?_, ?_⟩
  · rintro e he ⟨later, hlater⟩
    obtain ⟨-, hgoes⟩ := ready_handle hq he
    -- the buffer starts with what is left of the stream: the frame of a packet that fits
    have hfits : ¬ TooLarge (min mtu maxPayload) (q ++ d.bytesIn e) := by
      rintro ⟨hlen, hlarge⟩
      rw [← hlater, ← List.append_assoc] at hleft
      have htake : (q ++ d.bytesIn e).take 2 = (Framing.stream encode cs).take 2 := by
        have htwo : 2 ≤ (q ++ d.bytesIn e).length := by
          unfold headerSize at hlen
          omega
        rw [← hleft]
        exact (List.take_append_of_le_length htwo).symm
      rw [htake] at hlarge
      cases cs with
      | nil =>
        have hnil := (List.append_eq_nil_iff.mp hleft).1
        rw [hnil] at hlen
        exact absurd hlen (by decide)
      | cons c cs =>
        have hc : c ∈ ps := by rw [hcs]; simp
        have hle := hps c hc
        rw [Framing.stream_cons, ofLe_take_encode (hpayload c hc)] at hlarge
        omega
    obtain ⟨d', -, hd', -⟩ := hgoes hfits
    exact ⟨d', hd'⟩
  · rintro rfl hrecv
    rcases hq with ⟨-, hmore⟩ | ⟨p, hhand⟩
    · refine Framing.items_eq encode_prefixFree encode_ne_nil hout hpayload ?_
        (by simpa using hstream)
      rintro a y ha rfl
      exact not_incomplete_encode ha hmore
    · rw [hhand.receiving] at hrecv
      cases hrecv

end Streams

end PacketProtoDecoder

/-! ## 3. The sender -/

structure PacketStreamSender where
  /-- the bytes at `in` -/
  input : List UInt8
  /-- −1 when there is no input packet -/
  in_len : ℤ
  in_used : ℤ
  /-- how much of the stream operation under way is left to send -/
  sending : Option ℤ

namespace PacketStreamSender

/-- `StreamPassInterface_Sender_Send` on the output -/
def senderSend (s : PacketStreamSender) (len : ℤ) : Option PacketStreamSender :=
  if s.sending = none ∧ 0 < len then some { s with sending := some len } else none

/-- `send_data` -/
def sendData (s : PacketStreamSender) : Option PacketStreamSender :=
  if s.in_used < s.in_len then s.senderSend (s.in_len - s.in_used)
  -- the input packet is finished
  else some { s with in_len := -1 }

/-- `PacketStreamSender_Init` -/
def init : PacketStreamSender := ⟨[], -1, 0, none⟩

/-- A packet is given to the sender, or the stream has taken some bytes. -/
inductive Event
  | inputSend (data : List UInt8)
  | outputDone (data_len : ℕ)

/-- The next packet comes when the one before it is done; the stream takes at least one byte and at
most what it was given. -/
def Enabled (s : PacketStreamSender) : Event → Prop
  | .inputSend _ => s.in_len = -1
  | .outputDone data_len => s.sending.any fun len => decide (0 < data_len ∧ (data_len : ℤ) ≤ len)

instance (s : PacketStreamSender) (e : Event) : Decidable (s.Enabled e) := by
  cases e <;> unfold Enabled <;> infer_instance

/-- `input_handler_send` and `output_handler_done` -/
def handle (s : PacketStreamSender) : Event → Option PacketStreamSender
  | .inputSend data => { s with in_len := data.length, input := data, in_used := 0 }.sendData
  | .outputDone data_len => { s with sending := none, in_used := s.in_used + data_len }.sendData

def step (s : PacketStreamSender) (e : Event) : Option PacketStreamSender :=
  if s.Enabled e then s.handle e else none

/-- The packet that an event gives to the sender. -/
def packetIn (_ : PacketStreamSender) : Event → List (List UInt8)
  | .inputSend data => [data]
  | .outputDone _ => []

/-- The bytes that the stream takes in an event. -/
def bytesOut (s : PacketStreamSender) : Event → List UInt8
  | .inputSend _ => []
  | .outputDone data_len => (s.input.drop s.in_used.toNat).take data_len

/-- Between handlers: the bytes `q` of the input packet are left to be sent, and are under way. -/
structure Left (s : PacketStreamSender) (q : List UInt8) : Prop where
  idle : s.in_len = -1 ↔ s.sending = none
  empty : s.in_len = -1 → q = []
  busy : s.in_len ≠ -1 → 0 ≤ s.in_used ∧ s.in_len = s.input.length ∧
    q = s.input.drop s.in_used.toNat ∧ q ≠ [] ∧ s.sending = some (q.length : ℤ)

/-- `send_data` sends what is left, or finishes. -/
theorem left_sendData {s : PacketStreamSender} (hlen : s.in_len = s.input.length)
    (hused : 0 ≤ s.in_used) (hsend : s.sending = none) :
    ∃ s', s.sendData = some s' ∧ Left s' (s.input.drop s.in_used.toNat) := by
  by_cases hmore : s.in_used < s.in_len
  · have hdrop : ((s.input.drop s.in_used.toNat).length : ℤ) = s.in_len - s.in_used := by
      rw [List.length_drop]
      omega
    refine ⟨{ s with sending := some (s.in_len - s.in_used) }, ?_, ⟨?_, ?_, ?_⟩⟩
    · rw [sendData, if_pos hmore]
      exact if_pos ⟨hsend, by omega⟩
    · exact iff_of_false (by show ¬ s.in_len = -1; omega) (by simp)
    · intro h
      have hneg : s.in_len = -1 := h
      omega
    · intro _
      refine ⟨hused, hlen, rfl, ?_, ?_⟩
      · rw [← List.length_pos_iff_ne_nil]
        omega
      · rw [hdrop]
  · refine ⟨{ s with in_len := -1 }, by rw [sendData, if_neg hmore], ⟨?_, ?_, ?_⟩⟩
    · exact iff_of_true rfl hsend
    · intro _
      exact List.drop_eq_nil_iff.mpr (by omega)
    · intro h
      exact absurd rfl h

/-- **The sender goes on whatever the stream takes**, and nothing is sent twice or left out. -/
theorem left_step {s : PacketStreamSender} {q : List UInt8} (h : Left s q) {e : Event}
    (he : s.Enabled e) :
    ∃ s' q', s.handle e = some s' ∧ Left s' q' ∧
      q ++ (s.packetIn e).flatten = s.bytesOut e ++ q' := by
  cases e with
  | inputSend data =>
    have hidle : s.in_len = -1 := he
    obtain ⟨s', hs', hleft⟩ := @left_sendData
      { s with in_len := data.length, input := data, in_used := 0 } rfl (le_refl _)
      (h.idle.mp hidle)
    exact ⟨s', data, hs', hleft, by rw [h.empty hidle]; simp [packetIn, bytesOut]⟩
  | outputDone n =>
    have hbusy : s.in_len ≠ -1 := fun hidle => by
      rw [Enabled, h.idle.mp hidle] at he
      cases he
    obtain ⟨hused, hlen, rfl, -, hsend⟩ := h.busy hbusy
    rw [Enabled, hsend, Option.any_some, decide_eq_true_iff] at he
    obtain ⟨s', hs', hleft⟩ := @left_sendData
      { s with sending := none, in_used := s.in_used + n } hlen (by show 0 ≤ s.in_used + n; omega)
      rfl
    refine ⟨s', _, hs', hleft, ?_⟩
    have hto : (s.in_used + n).toNat = s.in_used.toNat + n := by omega
    show s.input.drop s.in_used.toNat ++ [] =
      (s.input.drop s.in_used.toNat).take n ++ s.input.drop (s.in_used + n).toNat
    rw [hto, ← List.drop_drop, List.take_append_drop, List.append_nil]

/-- What the stream has taken is what the sender was given, but for the rest of the packet it is
at; an idle sender has sent everything. -/
theorem sender_run {es : List Event} {s : PacketStreamSender} (hrun : exec step init es = some s) :
    (∀ e, s.Enabled e → (s.handle e).isSome) ∧
      ∃ q, (Fifo.collect step packetIn init es).flatten = Fifo.collect step bytesOut init es ++ q ∧
        (s.in_len = -1 → q = []) := by
  have hinit : Left init [] := ⟨by simp [init], fun _ => rfl, fun h => absurd rfl h⟩
  have hstep : ∀ s q e s', Left s q → step s e = some s' →
      ∃ q', Left s' q' ∧ q ++ (s.packetIn e).flatMap id = s.bytesOut e ++ q' := by
    intro s q e s' h hs
    rw [step] at hs
    split at hs
    · obtain ⟨t, q', ht, hleft, hq⟩ := left_step h (by assumption)
      obtain rfl := Option.some.inj (ht.symm.trans hs)
      exact ⟨q', hleft, by rw [List.flatMap_id]; exact hq⟩
    · cases hs
  obtain ⟨q, hq, hconserved⟩ := Fifo.conserved hstep hinit hrun
  rw [Fifo.collect_flatMap, List.flatMap_id, List.nil_append] at hconserved
  refine ⟨fun e he => ?_, q, hconserved, hq.empty⟩
  obtain ⟨t, -, ht, -, -⟩ := left_step hq he
  rw [ht]
  rfl

end PacketStreamSender

/-! ## 4. From the sender to the decoder -/

/-- **What goes into one end comes out of the other.**  The sender is given the frames of `ps` and
the stream brings the decoder a beginning of what it has taken from the sender, each in pieces of
its own.  Then the decoder has handed out the first of `ps`, in order.  Once the sender is idle, the
stream has brought everything and the decoder waits for more, it has handed out all of them. -/
theorem sender_to_decoder {ps : List (List UInt8)} {memory : ℤ → UInt8} {mtu : ℤ} (hmtu : 0 ≤ mtu)
    (hps : ∀ p ∈ ps, (p.length : ℤ) ≤ min mtu maxPayload)
    {es : List PacketStreamSender.Event} {s : PacketStreamSender}
    (hsender : exec PacketStreamSender.step PacketStreamSender.init es = some s)
    (hgiven : Fifo.collect PacketStreamSender.step PacketStreamSender.packetIn
      PacketStreamSender.init es = ps.map encode)
    {fs : List PacketProtoDecoder.Event} {d : PacketProtoDecoder}
    (hdecoder : exec PacketProtoDecoder.step (PacketProtoDecoder.init memory mtu) fs = some d)
    {late : List UInt8}
    (hstream : Fifo.collect PacketStreamSender.step PacketStreamSender.bytesOut
        PacketStreamSender.init es =
      Fifo.collect PacketProtoDecoder.step PacketProtoDecoder.bytesIn
        (PacketProtoDecoder.init memory mtu) fs ++ late) :
    Fifo.collect PacketProtoDecoder.step PacketProtoDecoder.handedOut
        (PacketProtoDecoder.init memory mtu) fs <+: ps ∧
      (s.in_len = -1 → late = [] → d.receiving.isSome →
        Fifo.collect PacketProtoDecoder.step PacketProtoDecoder.handedOut
          (PacketProtoDecoder.init memory mtu) fs = ps) := by
  obtain ⟨-, q, hsent, hidle⟩ := PacketStreamSender.sender_run hsender
  rw [hgiven, hstream, List.append_assoc, ← List.flatMap_def] at hsent
  obtain ⟨hfirst, -, hall⟩ :=
    PacketProtoDecoder.decoder_round_trip hmtu hdecoder hps hsent.symm
  refine ⟨hfirst, fun hdone hlate hwaits => hall ?_ hwaits⟩
  rw [hlate, hidle hdone]
  rfl

/-- A packet of two bytes, which the sender gives in two pieces and the decoder reads in two
others. -/
theorem sender_to_decoder_one_packet :
    ∃ s d, exec PacketStreamSender.step PacketStreamSender.init
        [.inputSend (encode [65, 66]), .outputDone 1, .outputDone 3] = some s ∧
      exec PacketProtoDecoder.step (PacketProtoDecoder.init (fun _ => 0) 4)
        [.inputDone [2, 0, 65], .inputDone [66]] = some d ∧
      Fifo.collect PacketProtoDecoder.step PacketProtoDecoder.handedOut
        (PacketProtoDecoder.init (fun _ => 0) 4) [.inputDone [2, 0, 65], .inputDone [66]] <+:
          [[65, 66]] := by
  obtain ⟨s, hs⟩ := Option.isSome_iff_exists.mp (by decide +kernel :
    (exec PacketStreamSender.step PacketStreamSender.init
      [.inputSend (encode [65, 66]), .outputDone 1, .outputDone 3]).isSome)
  obtain ⟨d, hd⟩ := Option.isSome_iff_exists.mp (by decide +kernel :
    (exec PacketProtoDecoder.step (PacketProtoDecoder.init (fun _ => 0) 4)
      [.inputDone [2, 0, 65], .inputDone [66]]).isSome)
  exact ⟨s, d, hs, hd, (@sender_to_decoder [[65, 66]] (fun _ => 0) 4 (by decide) (by decide) _ s hs
    (by decide +kernel) _ d hd [] (by decide +kernel)).1⟩

end ShiroKhorshid.Tun
