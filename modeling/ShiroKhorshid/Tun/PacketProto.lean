/-
# PacketProto

Packets travel over a stream as frames: sixteen bits of length, least significant byte first, and
that many bytes.  `PacketProtoEncoder` makes the frames and `PacketProtoDecoder` finds them again in
whatever pieces the stream gives it.

The decoder's buffer holds one frame of the largest size.  It hands out packets from where they lie,
goes on reading behind them, and moves what it has to the front only when it has reached the end.
An interface may only be given an operation when the one before it is done, and reading nothing is
not an operation; an assertion of this kind that fails is an outcome of its own (`Outcome`).

`process_data` has three cases, by the bytes in the buffer, and a lemma for each:

* the frame at the front is not complete yet: it is waited for, and there is room for more of it, at
  the end or after moving it to the front (`processData_of_incomplete`);
* its header says more than the output takes: the decoder reports an error and forgets what it has
  (`processData_of_tooLarge`);
* it is there: the packet is handed out (`processData_of_frame`).

`Buffered` says which bytes the buffer holds; `Waiting` and `Handing` are the two states the decoder
is left in.  The frames are prefix free (`encode_prefixFree`), which is all that `PacketStream` uses
of their form.

Lengths are natural numbers: the source's checks against `PACKETPROTO_MAXPAYLOAD` keep them below
what an `int` and the sixteen bits of the header can hold.
-/
import ShiroKhorshid.Lib.Bytes
import ShiroKhorshid.Lib.Framing
import Mathlib.Tactic.Linarith

namespace ShiroKhorshid.Tun

open Bytes

/-! ## 1. Frames -/

/-- `sizeof(struct packetproto_header)` -/
def headerSize : ℤ := 2

/-- `PACKETPROTO_MAXPAYLOAD` -/
def maxPayload : ℤ := 65535

/-- `PACKETPROTO_ENCLEN` -/
def encLen (len : ℤ) : ℤ := headerSize + len

/-- What `input_handler_done` of `PacketProtoEncoder` leaves in the output packet: the source has
written the payload behind the place of the header. -/
def encode (p : List UInt8) : List UInt8 := leBytes 2 p.length ++ p

theorem length_encode (p : List UInt8) : (encode p).length = 2 + p.length := by
  simp [encode]

theorem encode_ne_nil (p : List UInt8) : encode p ≠ [] := by
  rw [← List.length_pos_iff_ne_nil, length_encode]
  omega

/-- A packet whose length sixteen bits can say. -/
def IsPayload (p : List UInt8) : Prop := (p.length : ℤ) ≤ maxPayload

theorem ofLe_take_encode {p x : List UInt8} (h : IsPayload p) :
    ofLe ((encode p ++ x).take 2) = p.length := by
  have htake : (encode p ++ x).take 2 = leBytes 2 p.length := by
    rw [encode, List.append_assoc, List.take_left' (length_leBytes 2 _)]
  unfold IsPayload maxPayload at h
  rw [htake, ofLe_leBytes (by omega)]

/-- The length in front tells frames apart. -/
theorem encode_prefixFree : Framing.PrefixFree encode IsPayload := by
  intro p q x y hp hq h
  have hlen : p.length = q.length := by
    rw [← ofLe_take_encode (x := x) hp, ← ofLe_take_encode (x := y) hq, h]
  have happ : p ++ x = q ++ y := by
    have hdrop := congrArg (List.drop 2) h
    simpa [encode, List.append_assoc, List.drop_left' (length_leBytes 2 _)] using hdrop
  exact (List.append_inj happ hlen).1

/-! ## 2. The decoder -/

structure PacketProtoDecoder where
  buf : ℤ → UInt8
  output_mtu : ℤ
  buf_size : ℤ
  buf_start : ℤ
  buf_used : ℤ
  /-- where the receive operation under way writes, and how much at most -/
  receiving : Option (ℤ × ℤ)
  /-- where the send operation under way reads, and how much -/
  sending : Option (ℤ × ℤ)

/-- What comes of a handler: the decoder goes on, it has reported an error, or an assertion of
the decoder or of an interface it uses has failed. -/
inductive Outcome
  | goesOn (d : PacketProtoDecoder)
  | handlerError (d : PacketProtoDecoder)
  | assertion

namespace PacketProtoDecoder

/-- `StreamRecvInterface_Receiver_Recv` on the input -/
def receiverRecv (d : PacketProtoDecoder) (dest len : ℤ) : Option PacketProtoDecoder :=
  if d.receiving = none ∧ 0 < len then some { d with receiving := some (dest, len) } else none

/-- `PacketPassInterface_Sender_Send` on the output -/
def senderSend (d : PacketProtoDecoder) (data len : ℤ) : Option PacketProtoDecoder :=
  if d.sending = none ∧ 0 ≤ len ∧ len ≤ d.output_mtu then
    some { d with sending := some (data, len) }
  else none

/-- The end of `process_data`: receive behind what is in the buffer. -/
def receiveMore (d : PacketProtoDecoder) : Option PacketProtoDecoder :=
  d.receiverRecv (d.buf_start + d.buf_used) (d.buf_size - (d.buf_start + d.buf_used))

/-- At the end of the buffer, what is in it moves to the front. -/
def wrapAround (d : PacketProtoDecoder) : PacketProtoDecoder :=
  if d.buf_start + d.buf_used = d.buf_size then
    { d with buf := move d.buf 0 d.buf_start d.buf_used.toNat, buf_start := 0 }
  else d

/-- `data_len` of the header at `buf_start` -/
def headerLen (d : PacketProtoDecoder) : ℤ := ofLe (read d.buf d.buf_start 2)

/-- `process_data` -/
def processData (d : PacketProtoDecoder) : Outcome :=
  let waitForMore := (d.wrapAround.receiveMore.map Outcome.goesOn).getD .assertion
  -- check if the header was received
  if d.buf_used < headerSize then waitForMore
  -- check data length
  else if d.headerLen > d.output_mtu then
    (({ d with buf_start := 0, buf_used := 0 } : PacketProtoDecoder).receiveMore.map
      Outcome.handlerError).getD .assertion
  -- check if the whole packet was received
  else if d.buf_used - headerSize < d.headerLen then waitForMore
  else
    (({ d with
        buf_start := d.buf_start + (headerSize + d.headerLen)
        buf_used := d.buf_used - (headerSize + d.headerLen) } : PacketProtoDecoder).senderSend
      (d.buf_start + headerSize) d.headerLen |>.map Outcome.goesOn).getD .assertion

/-- `PacketProtoDecoder_Init`, in memory that it is given; `mtu` is that of the output. -/
def init (memory : ℤ → UInt8) (mtu : ℤ) : PacketProtoDecoder where
  buf := memory
  output_mtu := min mtu maxPayload
  buf_size := encLen (min mtu maxPayload)
  buf_start := 0
  buf_used := 0
  receiving := some (0, encLen (min mtu maxPayload))
  sending := none

/-- The stream has written some bytes, or the output is done with a packet. -/
inductive Event
  | inputDone (data : List UInt8)
  | outputDone

/-- The stream gives between one byte and as many as were asked for. -/
def Enabled (d : PacketProtoDecoder) : Event → Prop
  | .inputDone data =>
    d.receiving.any fun a => decide (0 < data.length ∧ (data.length : ℤ) ≤ a.2)
  | .outputDone => d.sending.isSome

instance (d : PacketProtoDecoder) (e : Event) : Decidable (d.Enabled e) := by
  cases e <;> unfold Enabled <;> infer_instance

/-- The assertions of `input_handler_done`, and the bytes that the stream has written. -/
def inputHandlerDone (d : PacketProtoDecoder) (dest : ℤ) (data : List UInt8) : Outcome :=
  if 0 < data.length ∧ (data.length : ℤ) ≤ d.buf_size - (d.buf_start + d.buf_used) then
    ({ d with
      buf := write d.buf dest data, buf_used := d.buf_used + data.length } :
      PacketProtoDecoder).processData
  else .assertion

/-- An interface is idle again when it calls its handler. -/
def handle (d : PacketProtoDecoder) : Event → Outcome
  | .inputDone data =>
    (d.receiving.map fun a =>
      ({ d with receiving := none } : PacketProtoDecoder).inputHandlerDone a.1 data).getD .assertion
  | .outputDone => ({ d with sending := none } : PacketProtoDecoder).processData

/-- A decoder that has reported an error is freed. -/
def step (d : PacketProtoDecoder) (e : Event) : Option PacketProtoDecoder :=
  if d.Enabled e then
    match d.handle e with
    | .goesOn d' => some d'
    | _ => none
  else none

/-- The packet under way to the output. -/
def given (d : PacketProtoDecoder) : Option (List UInt8) :=
  d.sending.map fun a => read d.buf a.1 a.2.toNat

/-- The bytes of the stream that an event brings. -/
def bytesIn (_ : PacketProtoDecoder) : Event → List UInt8
  | .inputDone data => data
  | .outputDone => []

/-- The packet that is handed to the output in an event. -/
def handedOut (d : PacketProtoDecoder) (e : Event) : List (List UInt8) :=
  ((d.step e).bind given).toList

/-! ## 3. What is in the buffer -/

/-- The bytes do not make a whole frame yet. -/
def Incomplete (mtu : ℤ) (q : List UInt8) : Prop :=
  (q.length : ℤ) < headerSize ∨
    ((ofLe (q.take 2) : ℤ) ≤ mtu ∧ (q.length : ℤ) < headerSize + ofLe (q.take 2))

/-- The bytes start with the header of a packet that is too large. -/
def TooLarge (mtu : ℤ) (q : List UInt8) : Prop :=
  headerSize ≤ (q.length : ℤ) ∧ mtu < ofLe (q.take 2)

instance (mtu : ℤ) (q : List UInt8) : Decidable (TooLarge mtu q) := by
  unfold TooLarge
  infer_instance

/-- The third case: a frame is there. -/
theorem exists_frame {mtu : ℤ} {q : List UInt8} (hmore : ¬ Incomplete mtu q)
    (hlarge : ¬ TooLarge mtu q) :
    ∃ p rest, q = encode p ++ rest ∧ (p.length : ℤ) = ofLe (q.take 2) ∧ (p.length : ℤ) ≤ mtu := by
  unfold Incomplete TooLarge headerSize at *
  obtain ⟨n, hn⟩ : ∃ n, n = ofLe (q.take 2) := ⟨_, rfl⟩
  rw [← hn] at hmore hlarge ⊢
  have hlen : ((q.drop 2).take n).length = n := by
    rw [List.length_take, List.length_drop]
    omega
  have hheader : leBytes 2 n = q.take 2 := by
    have h := leBytes_ofLe (q.take 2)
    rwa [List.length_take_of_le (by omega), ← hn] at h
  refine ⟨(q.drop 2).take n, (q.drop 2).drop n, ?_, by rw [hlen], by rw [hlen]; omega⟩
  rw [encode, hlen, hheader, List.append_assoc, List.take_append_drop, List.take_append_drop]

/-- A frame at the front is not incomplete, and too large exactly by its length. -/
theorem not_incomplete_encode {mtu : ℤ} {p x : List UInt8} (hp : IsPayload p) :
    ¬ Incomplete mtu (encode p ++ x) := by
  unfold Incomplete headerSize
  rw [ofLe_take_encode hp, List.length_append, length_encode]
  omega

/-- The buffer holds the bytes `q`. -/
structure Buffered (mtu : ℤ) (d : PacketProtoDecoder) (q : List UInt8) : Prop where
  mtu_nonneg : 0 ≤ mtu
  mtu_le : mtu ≤ maxPayload
  mtu_eq : d.output_mtu = mtu
  size_eq : d.buf_size = headerSize + mtu
  start_nonneg : 0 ≤ d.buf_start
  used_eq : d.buf_used = q.length
  fits : d.buf_start + d.buf_used ≤ d.buf_size
  bytes : read d.buf d.buf_start q.length = q

/-- The decoder waits for more than it has, with room behind what it has. -/
structure Waiting (mtu : ℤ) (d : PacketProtoDecoder) (q : List UInt8) : Prop where
  buffered : Buffered mtu d q
  sending : d.sending = none
  receiving : d.receiving =
    some (d.buf_start + d.buf_used, d.buf_size - (d.buf_start + d.buf_used))
  room : d.buf_start + d.buf_used < d.buf_size

/-- The decoder has handed out a packet, which lies in front of what else it has. -/
structure Handing (mtu : ℤ) (d : PacketProtoDecoder) (p q : List UInt8) : Prop where
  buffered : Buffered mtu d q
  receiving : d.receiving = none
  given : d.given = some p
  short : (p.length : ℤ) ≤ mtu

section Process

variable {mtu : ℤ} {d : PacketProtoDecoder} {q : List UInt8}

theorem Buffered.headerLen_eq (h : Buffered mtu d q) (hlen : headerSize ≤ (q.length : ℤ)) :
    d.headerLen = ofLe (q.take 2) := by
  unfold headerSize at hlen
  rw [PacketProtoDecoder.headerLen, ← take_read d.buf d.buf_start (by omega : 2 ≤ q.length),
    h.bytes]

/-- Moving to the front keeps the bytes. -/
theorem buffered_wrapAround (h : Buffered mtu d q) : Buffered mtu d.wrapAround q := by
  unfold PacketProtoDecoder.wrapAround
  split
  · have hused := h.used_eq
    refine ⟨h.mtu_nonneg, h.mtu_le, h.mtu_eq, h.size_eq, le_refl _, hused, ?_, ?_⟩
    · have hstart := h.start_nonneg
      have hfits := h.fits
      show 0 + d.buf_used ≤ d.buf_size
      omega
    · show read (move d.buf 0 d.buf_start d.buf_used.toNat) 0 q.length = q
      have hread := read_write d.buf 0 q
      rw [move, hused, Int.toNat_natCast, h.bytes]
      exact hread
  · exact h

/-- Receiving behind what is in the buffer, where there is room. -/
theorem receiveMore_eq (h : Buffered mtu d q) (hrecv : d.receiving = none)
    (hsend : d.sending = none) (hroom : d.buf_start + d.buf_used < d.buf_size) :
    ∃ d', d.receiveMore = some d' ∧ Waiting mtu d' q := by
  refine ⟨{ d with
    receiving := some (d.buf_start + d.buf_used, d.buf_size - (d.buf_start + d.buf_used)) }, ?_,
    ⟨h.mtu_nonneg, h.mtu_le, h.mtu_eq, h.size_eq, h.start_nonneg, h.used_eq, h.fits, h.bytes⟩,
    hsend, rfl, hroom⟩
  exact if_pos ⟨hrecv, by omega⟩

/-- **An incomplete frame is waited for**, and there is room for more of it. -/
theorem processData_of_incomplete (h : Buffered mtu d q) (hrecv : d.receiving = none)
    (hsend : d.sending = none) (hq : Incomplete mtu q) :
    ∃ d', d.processData = .goesOn d' ∧ Waiting mtu d' q := by
  have hroom : d.wrapAround.buf_start + d.wrapAround.buf_used < d.wrapAround.buf_size := by
    have hused := h.used_eq
    have hsize := h.size_eq
    have hfits := h.fits
    have hlen : (q.length : ℤ) < headerSize + mtu := by
      have hmtu := h.mtu_nonneg
      rcases hq with hshort | ⟨hle, hshort⟩ <;> omega
    unfold PacketProtoDecoder.wrapAround
    split
    · show 0 + d.buf_used < d.buf_size
      omega
    · omega
  have hidle : d.wrapAround.receiving = none ∧ d.wrapAround.sending = none := by
    unfold PacketProtoDecoder.wrapAround
    split <;> exact ⟨hrecv, hsend⟩
  obtain ⟨d', hd', hwait⟩ := receiveMore_eq (buffered_wrapAround h) hidle.1 hidle.2 hroom
  refine ⟨d', ?_, hwait⟩
  have hused := h.used_eq
  have hmtu := h.mtu_eq
  rw [PacketProtoDecoder.processData]
  simp only [hd', Option.map_some, Option.getD_some]
  rcases hq with hshort | ⟨hle, hshort⟩
  · rw [if_pos (by omega)]
  · by_cases hheader : (q.length : ℤ) < headerSize
    · rw [if_pos (by omega)]
    · rw [if_neg (by omega), h.headerLen_eq (by omega), if_neg (by omega), if_pos (by omega)]

/-- **A header that says too much is an error**, and what is in the buffer is forgotten. -/
theorem processData_of_tooLarge (h : Buffered mtu d q) (hrecv : d.receiving = none)
    (hsend : d.sending = none) (hq : TooLarge mtu q) :
    ∃ d', d.processData = .handlerError d' ∧ Waiting mtu d' [] := by
  have hmtu := h.mtu_nonneg
  have hsize := h.size_eq
  have hused := h.used_eq
  have hreset : Buffered mtu ({ d with buf_start := 0, buf_used := 0 } : PacketProtoDecoder) [] :=
    ⟨hmtu, h.mtu_le, h.mtu_eq, hsize, le_refl _, rfl,
      by show (0 : ℤ) + 0 ≤ d.buf_size; unfold headerSize at hsize; omega, rfl⟩
  obtain ⟨d', hd', hwait⟩ := receiveMore_eq hreset hrecv hsend
    (by show (0 : ℤ) + 0 < d.buf_size; unfold headerSize at hsize; omega)
  refine ⟨d', ?_, hwait⟩
  have hlarge := hq.2
  have hmtu_eq := h.mtu_eq
  rw [PacketProtoDecoder.processData]
  simp only [hd', Option.map_some, Option.getD_some]
  rw [if_neg (by have := hq.1; omega), h.headerLen_eq hq.1, if_pos (by omega)]

/-- **A whole frame is handed out** from where it lies. -/
theorem processData_of_frame {p : List UInt8} (h : Buffered mtu d (encode p ++ q))
    (hrecv : d.receiving = none) (hsend : d.sending = none)
    (hp : (p.length : ℤ) ≤ mtu) :
    ∃ d', d.processData = .goesOn d' ∧ Handing mtu d' p q := by
  have hpayload : IsPayload p := le_trans hp h.mtu_le
  have hlength : (encode p ++ q).length = 2 + p.length + q.length := by
    rw [List.length_append, length_encode]
  have hused := h.used_eq
  have hfits := h.fits
  have hstart := h.start_nonneg
  rw [hlength] at hused
  have hheader : d.headerLen = p.length := by
    rw [h.headerLen_eq (by rw [hlength]; unfold headerSize; omega), ofLe_take_encode hpayload]
  have hbytes := h.bytes
  rw [hlength, read_add, read_add] at hbytes
  have hlen₂ : (read d.buf d.buf_start 2 ++ read d.buf (d.buf_start + (2 : ℕ)) p.length).length =
      (encode p).length := by simp [length_encode]
  obtain ⟨hfront, hrest⟩ := List.append_inj hbytes hlen₂
  obtain ⟨-, hdata⟩ := List.append_inj hfront (by simp)
  refine ⟨{ d with
    buf_start := d.buf_start + (headerSize + d.headerLen)
    buf_used := d.buf_used - (headerSize + d.headerLen)
    sending := some (d.buf_start + headerSize, d.headerLen) }, ?_, ?_⟩
  · have hmtu_eq := h.mtu_eq
    have hfit : d.headerLen ≤ d.output_mtu := by omega
    rw [PacketProtoDecoder.processData]
    unfold headerSize at *
    rw [if_neg (by omega), if_neg (by omega), if_neg (by omega),
      PacketProtoDecoder.senderSend, if_pos ⟨hsend, by omega, hfit⟩]
    rfl
  · unfold headerSize at *
    refine ⟨⟨h.mtu_nonneg, h.mtu_le, h.mtu_eq, h.size_eq, ?_, ?_, ?_, ?_⟩, hrecv, ?_, hp⟩
    · show 0 ≤ d.buf_start + (2 + d.headerLen)
      omega
    · show d.buf_used - (2 + d.headerLen) = q.length
      push_cast at hused
      omega
    · show d.buf_start + (2 + d.headerLen) + (d.buf_used - (2 + d.headerLen)) ≤ d.buf_size
      omega
    · show read d.buf (d.buf_start + (2 + d.headerLen)) q.length = q
      rw [hheader]
      push_cast at hrest
      exact hrest
    · show some (read d.buf (d.buf_start + 2) d.headerLen.toNat) = some p
      rw [hheader, Int.toNat_natCast]
      exact congrArg some hdata

end Process

end PacketProtoDecoder
end ShiroKhorshid.Tun
