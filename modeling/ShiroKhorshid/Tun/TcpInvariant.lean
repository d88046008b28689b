/-
# What holds of a TCP client between handlers

`Inv` says which sides of a `tcp_client` are there and what is set to call it (`Sides`), where the
bytes on the way to SOCKS are (`ToSocks`), and those on the way back (`ToClient`).

* `Sides`.  The client's side is up exactly while the `tcp_pcb` is active, and SOCKS's exactly while
  the SOCKS client lives; one of them is, or the client is freed.  The callbacks of lwIP are set
  where the function they call has something to do.
* `ToSocks`.  What the client has sent is what SOCKS has taken and then what is in the buffer; the
  operation under way is on the buffer's beginning, and while both sides are up the buffer and the
  window of lwIP make up `TCP_WND`.
* `ToClient`.  What SOCKS has given is what was written and then what the other buffer still holds;
  what was written and not confirmed is counted.  `FromSocks` is what is left of it when the client
  has gone down.

`client_free_client` and `client_free_socks` call each other; what they leave is `withoutClient` and
`withoutSocks`, and both keep the invariant (`inv_withoutClient`, `inv_withoutSocks`): what is no
longer claimed of the side that is gone is not needed for the other.

`client_socks_recv_send_out` writes what it can, in a loop that lwIP ends by saying that its memory
is used up, and comes to one of three ends (`clientSocksRecvSendOut_spec`): it waits for a
confirmation, is done with the buffer, or has aborted the client.
-/
import ShiroKhorshid.Tun.TcpClient

namespace ShiroKhorshid.Tun

namespace Conn

@[simp] theorem assert_true (s : Conn) : s.assert true = some s := rfl

/-! ## 1. Freeing -/

/-- A `tcp_pcb` that its user has let go. -/
def dropped (p : Pcb) (state : PcbState) : Pcb :=
  { p with state, errf := false, recv := false, sent := false }

/-- A SOCKS client that is freed. -/
def freedSocks (k : SocksConn) : SocksConn :=
  { k with live := false, sending := none, receiving := false }

/-- What becomes of a `tcp_pcb` that is closed. -/
def closedBy (a : Answers) : PcbState := if a.close = .ok then .closed else .aborted

/-- What is left when the client has gone down: the other side, as long as it has bytes to send. -/
def withoutClient (c : TcpClient) (p : Pcb) (k : SocksConn) : Conn :=
  if c.socks_closed then ⟨none, p, k⟩
  else if c.buf = [] then ⟨none, p, freedSocks k⟩
  else ⟨some { c with client_closed := true }, p, k⟩

/-- What is left when SOCKS has gone down. -/
def withoutSocks (a : Answers) (c : TcpClient) (p : Pcb) (k : SocksConn) : Conn :=
  if c.client_closed then ⟨none, p, freedSocks k⟩
  else if c.socks_up ∧ (c.socks_recv_buf.isSome ∨ c.socks_recv_tcp_pending > 0) then
    ⟨some { c with socks_closed := true }, { p with recv := false }, freedSocks k⟩
  else ⟨none, dropped p (closedBy a), freedSocks k⟩

theorem bSocksClientFree_eq {s : Conn} (h : s.socks.live = true) :
    s.bSocksClientFree = some { s with socks := freedSocks s.socks } := by
  simp [bSocksClientFree, h, freedSocks]

/-- With the client down, freeing SOCKS frees everything. -/
theorem freeSocks_of_closed (a : Answers) (depth : ℕ) {c : TcpClient} {p : Pcb} {k : SocksConn}
    (hclient : c.client_closed = true) (hsocks : c.socks_closed = false) (hlive : k.live = true) :
    freeSocks a (depth + 1) ⟨some c, p, k⟩ = some ⟨none, p, freedSocks k⟩ := by
  have hfree : bSocksClientFree ⟨some c, p, k⟩ = some ⟨some c, p, freedSocks k⟩ :=
    bSocksClientFree_eq hlive
  simp [freeSocks, hclient, hsocks, hfree, clientDealloc]

theorem handleFreedClient_eq (a : Answers) (depth : ℕ) {c : TcpClient} {p : Pcb} {k : SocksConn}
    (hclient : c.client_closed = false) (hlive : k.live = !c.socks_closed) :
    handleFreedClient (freeSocks a (depth + 1)) ⟨some c, p, k⟩ = some (withoutClient c p k) := by
  obtain ⟨closed, buf, up, socks_closed, recv_buf, recv_sent, waiting, pending⟩ := c
  obtain rfl : closed = false := hclient
  cases socks_closed
  · by_cases hbuf : buf = []
    · have hgone : freeSocks a (depth + 1)
          ⟨some ⟨true, buf, up, false, recv_buf, recv_sent, waiting, pending⟩, p, k⟩ =
            some ⟨none, p, freedSocks k⟩ := freeSocks_of_closed a depth rfl rfl hlive
      rw [hbuf] at hgone
      simp [handleFreedClient, withoutClient, hbuf, hgone]
    · simp [handleFreedClient, withoutClient, hbuf]
  · simp [handleFreedClient, withoutClient, clientDealloc]

theorem clientHandleFreedClient_eq (a : Answers) {c : TcpClient} {p : Pcb} {k : SocksConn}
    (hclient : c.client_closed = false) (hlive : k.live = !c.socks_closed) :
    clientHandleFreedClient a ⟨some c, p, k⟩ = some (withoutClient c p k) :=
  handleFreedClient_eq a 1 hclient hlive

theorem freeClient_eq (a : Answers) (depth : ℕ) {c : TcpClient} {p : Pcb} {k : SocksConn}
    (hclient : c.client_closed = false) (hactive : p.state = .active)
    (hlive : k.live = !c.socks_closed) :
    freeClient (freeSocks a (depth + 1)) a ⟨some c, p, k⟩ =
      some (withoutClient c (dropped p (closedBy a)) k) := by
  have hgone := fun p => handleFreedClient_eq a depth (p := p) hclient hlive
  by_cases hclose : a.close = .ok
  · simp [freeClient, hclient, removeCallbacks, tcpClose, hactive, hclose, hgone, dropped, closedBy]
  · simp [freeClient, hclient, removeCallbacks, tcpClose, tcpAbort, hactive, hclose, hgone, dropped,
      closedBy]

theorem clientAbortClient_eq (a : Answers) {c : TcpClient} {p : Pcb} {k : SocksConn}
    (hclient : c.client_closed = false) (hactive : p.state = .active)
    (hlive : k.live = !c.socks_closed) :
    clientAbortClient a ⟨some c, p, k⟩ = some (withoutClient c (dropped p .aborted) k) := by
  have hgone := fun p => clientHandleFreedClient_eq a (p := p) hclient hlive
  simp [clientAbortClient, hclient, removeCallbacks, tcpAbort, hactive, hgone, dropped]

theorem clientFreeSocks_eq (a : Answers) {c : TcpClient} {p : Pcb} {k : SocksConn}
    (hsocks : c.socks_closed = false) (hlive : k.live = true)
    (hactive : c.client_closed = false → p.state = .active) :
    clientFreeSocks a ⟨some c, p, k⟩ = some (withoutSocks a c p k) := by
  obtain ⟨closed, buf, up, socks_closed, recv_buf, recv_sent, waiting, pending⟩ := c
  obtain rfl : socks_closed = false := hsocks
  cases closed
  · have hp : p.state = .active := hactive rfl
    have hgone : ∀ p' : Pcb, p'.state = .active → freeClient (freeSocks a 1) a
        ⟨some ⟨false, buf, up, true, recv_buf, recv_sent, waiting, pending⟩, p', freedSocks k⟩ =
          some ⟨none, dropped p' (closedBy a), freedSocks k⟩ :=
      fun p' hp' => freeClient_eq a 0 rfl hp' rfl
    rw [clientFreeSocks, freeSocks, withoutSocks, if_neg (by simp)]
    cases up
    · simp [bSocksClientFree_eq, hlive, hgone, hp]
    · by_cases hmore : recv_buf.isSome ∨ 0 < pending
      · simp [bSocksClientFree_eq, hlive, tcpRecvNull, hp, hmore]
      · simp [bSocksClientFree_eq, hlive, tcpRecvNull, hp, hmore, hgone, dropped]
  · exact freeSocks_of_closed a 1 rfl rfl hlive

/-! ## 2. Between handlers -/

/-- The bytes from SOCKS that are not written yet. -/
def unwritten (c : TcpClient) : List UInt8 :=
  (c.socks_recv_buf.getD []).drop c.socks_recv_buf_sent

/-- Which sides are there, and what is set to call the client. -/
structure Sides (c : TcpClient) (p : Pcb) (k : SocksConn) : Prop where
  active : p.state = .active ↔ c.client_closed = false
  live : k.live = !c.socks_closed
  up : k.up = c.socks_up
  one_left : c.client_closed = false ∨ c.socks_closed = false
  callbacks : c.client_closed = false →
    p.errf = true ∧ p.recv = !c.socks_closed ∧ p.sent = c.socks_up

/-- The way from the client to SOCKS: the buffer and the window make up `TCP_WND`, and a send
operation is under way while there is something in the buffer. -/
structure ToSocks (c : TcpClient) (p : Pcb) (k : SocksConn) : Prop where
  bytes : p.delivered = k.taken ++ c.buf
  window : c.client_closed = false → c.socks_closed = false → p.rcv_wnd + c.buf.length = tcpWnd
  left : c.client_closed = true → c.buf ≠ []
  sending : ∀ bs, k.sending = some bs → c.socks_up = true ∧ bs ≠ [] ∧ bs <+: c.buf
  busy : c.socks_closed = false → c.socks_up = true → c.buf ≠ [] → k.sending.isSome

/-- What there is of the way back, also when the client has gone down. -/
structure FromSocks (c : TcpClient) (p : Pcb) (k : SocksConn) : Prop where
  down : c.socks_up = false → k.given = [] ∧ p.written = [] ∧ p.acked = 0 ∧ k.receiving = false
  receiving : k.receiving = true → c.socks_recv_buf = none
  in_order : p.written <+: k.given

/-- The way from SOCKS to the client: what is left in the buffer waits for a confirmation, and a
receive operation is under way while there is nothing in it. -/
structure ToClient (c : TcpClient) (p : Pcb) (k : SocksConn) : Prop extends FromSocks c p k where
  bytes : c.client_closed = false → c.socks_up = true → k.given = p.written ++ unwritten c
  pending : c.client_closed = false → c.socks_up = true →
    p.acked + c.socks_recv_tcp_pending = p.written.length
  waiting : c.client_closed = false → c.socks_up = true → ∀ b, c.socks_recv_buf = some b →
    c.socks_recv_waiting = true ∧ c.socks_recv_buf_sent < b.length ∧ 0 < c.socks_recv_tcp_pending
  asked : c.client_closed = false → c.socks_closed = false → c.socks_up = true →
    c.socks_recv_buf = none → k.receiving = true
  left : c.socks_closed = true →
    c.socks_up = true ∧ (c.socks_recv_buf.isSome ∨ 0 < c.socks_recv_tcp_pending)

/-- A client, or what is left of the sides of one that is freed. -/
def Inv (s : Conn) : Prop :=
  match s.client with
  | some c => Sides c s.pcb s.socks ∧ ToSocks c s.pcb s.socks ∧ ToClient c s.pcb s.socks
  | none => s.pcb.state ≠ .active ∧ s.socks.live = false ∧ s.socks.taken <+: s.pcb.delivered ∧
      s.pcb.written <+: s.socks.given

theorem ToSocks.taken_in_order {c : TcpClient} {p : Pcb} {k : SocksConn} (h : ToSocks c p k) :
    k.taken <+: p.delivered := ⟨c.buf, h.bytes.symm⟩

/-- The client can go down at any point, also in the middle of a handler. -/
theorem inv_withoutClient {c : TcpClient} {p p' : Pcb} {k : SocksConn}
    (hlive : k.live = !c.socks_closed) (hup : k.up = c.socks_up)
    (hto : ToSocks c p k) (hfrom : FromSocks c p k)
    (hstate : p'.state ≠ .active) (hdelivered : p'.delivered = p.delivered)
    (hwritten : p'.written = p.written) (hacked : p'.acked = p.acked) :
    Inv (withoutClient c p' k) := by
  rw [withoutClient]
  split
  · rename_i hclosed
    rw [hclosed] at hlive
    refine ⟨hstate, hlive, ?_, ?_⟩
    · rw [hdelivered]
      exact hto.taken_in_order
    · rw [hwritten]
      exact hfrom.in_order
  · rename_i hopen
    rw [Bool.not_eq_true] at hopen
    split
    · refine ⟨hstate, rfl, ?_, ?_⟩
      · rw [hdelivered]
        exact hto.taken_in_order
      · rw [hwritten]
        exact hfrom.in_order
    · rename_i hbuf
      refine ⟨⟨by simp [hstate], hlive, hup, .inr hopen, by simp⟩,
        ⟨by rw [hdelivered]; exact hto.bytes, by simp, fun _ => hbuf, hto.sending, hto.busy⟩,
        ⟨⟨?_, hfrom.receiving, by rw [hwritten]; exact hfrom.in_order⟩, by simp, by simp, by simp,
          by simp, fun hclosed => absurd (hopen.symm.trans hclosed) (by simp)⟩⟩
      rw [hwritten, hacked]
      exact hfrom.down

/-- SOCKS can go down between handlers. -/
theorem inv_withoutSocks (a : Answers) {c : TcpClient} {p : Pcb} {k : SocksConn}
    (hsides : Sides c p k) (hto : ToSocks c p k) (hback : ToClient c p k) :
    Inv (withoutSocks a c p k) := by
  rw [withoutSocks]
  split
  · rename_i hclosed
    have hstate : p.state ≠ .active := fun h =>
      absurd ((hsides.active.mp h).symm.trans hclosed) (by simp)
    exact ⟨hstate, rfl, hto.taken_in_order, hback.in_order⟩
  · rename_i hclient
    rw [Bool.not_eq_true] at hclient
    split
    · rename_i hmore
      obtain ⟨herrf, -, hsent⟩ := hsides.callbacks hclient
      exact ⟨⟨hsides.active, rfl, hsides.up, .inl hclient, fun _ => ⟨herrf, rfl, hsent⟩⟩,
        ⟨hto.bytes, by simp, hto.left, by simp [freedSocks], by simp⟩,
        ⟨⟨fun h => absurd (hmore.1.symm.trans h) (by simp), by simp [freedSocks], hback.in_order⟩,
          hback.bytes, hback.pending, hback.waiting, by simp, fun _ => hmore⟩⟩
    · have hstate : (dropped p (closedBy a)).state ≠ .active := by
        rw [dropped, closedBy]
        split <;> simp
      exact ⟨hstate, rfl, hto.taken_in_order, hback.in_order⟩

/-! ## 3. Writing to the client -/

/-- The client when `n` more bytes of its buffer are written. -/
def wrote (c : TcpClient) (n : ℕ) : TcpClient :=
  { c with
    socks_recv_buf_sent := c.socks_recv_buf_sent + n
    socks_recv_tcp_pending := c.socks_recv_tcp_pending + n }

/-- The `tcp_pcb` then. -/
def wrotePcb (c : TcpClient) (p : Pcb) (n : ℕ) : Pcb :=
  { p with written := p.written ++ (unwritten c).take n }

theorem length_unwritten {c : TcpClient} {b : List UInt8} (hbuf : c.socks_recv_buf = some b) :
    (unwritten c).length = b.length - c.socks_recv_buf_sent := by
  rw [unwritten, hbuf, List.length_drop]
  rfl

theorem unwritten_wrote (c : TcpClient) (n : ℕ) :
    unwritten (wrote c n) = (unwritten c).drop n := by
  rw [unwritten, unwritten, List.drop_drop]
  rfl

theorem wrotePcb_wrotePcb (c : TcpClient) (p : Pcb) (n m : ℕ) :
    wrotePcb (wrote c n) (wrotePcb c p n) m = wrotePcb c p (n + m) := by
  simp only [wrotePcb, unwritten_wrote, List.append_assoc, List.take_add]

theorem wrotePcb_zero (c : TcpClient) (p : Pcb) : wrotePcb c p 0 = p := by
  simp [wrotePcb]

/-- One round, where `tcp_write` may take `n` bytes. -/
theorem sendOutLoop_cons {sndbuf n : ℕ} {err : ErrT} (rest : List (ℕ × ErrT)) {c : TcpClient}
    {p : Pcb} {k : SocksConn} {b : List UInt8} (hbuf : c.socks_recv_buf = some b)
    (hactive : p.state = .active) (hn : n = min (b.length - c.socks_recv_buf_sent) sndbuf) :
    sendOutLoop ((sndbuf, err) :: rest) ⟨some c, p, k⟩ =
      if n = 0 then some (⟨some c, p, k⟩, true)
      else
        match err with
        | .ok =>
          if c.socks_recv_buf_sent + n < b.length then
            sendOutLoop rest ⟨some (wrote c n), wrotePcb c p n, k⟩
          else some (⟨some (wrote c n), wrotePcb c p n, k⟩, true)
        | .mem => some (⟨some c, p, k⟩, true)
        | _ => some (⟨some c, p, k⟩, false) := by
  obtain ⟨closed, buf, up, socks_closed, recv_buf, recv_sent, waiting, pending⟩ := c
  obtain rfl : recv_buf = some b := hbuf
  have hwrite : ∀ bs, tcpWrite bs ⟨some ⟨closed, buf, up, socks_closed, some b, recv_sent, waiting,
      pending⟩, p, k⟩ = some ⟨some ⟨closed, buf, up, socks_closed, some b, recv_sent, waiting,
        pending⟩, { p with written := p.written ++ bs }, k⟩ := fun bs => by
    simp [tcpWrite, hactive]
  subst hn
  cases err <;> simp only [sendOutLoop, Option.bind_eq_bind, Option.bind_some, hwrite] <;> rfl

/-- The rounds write what is next in the buffer, some of it or all. -/
theorem sendOutLoop_spec (ws : List (ℕ × ErrT)) {c : TcpClient} {p : Pcb} {k : SocksConn}
    {b : List UInt8} (hbuf : c.socks_recv_buf = some b) (hactive : p.state = .active) :
    ∃ n writing, n ≤ b.length - c.socks_recv_buf_sent ∧
      sendOutLoop ws ⟨some c, p, k⟩ = some (⟨some (wrote c n), wrotePcb c p n, k⟩, writing) := by
  induction ws generalizing c p with
  | nil =>
    refine ⟨0, true, Nat.zero_le _, ?_⟩
    rw [wrotePcb_zero]
    rfl
  | cons w rest ih =>
    obtain ⟨sndbuf, err⟩ := w
    obtain ⟨n, hn⟩ : ∃ n, n = min (b.length - c.socks_recv_buf_sent) sndbuf := ⟨_, rfl⟩
    have hle : n ≤ b.length - c.socks_recv_buf_sent := by omega
    have hround := fun err => @sendOutLoop_cons sndbuf n err rest c p k b hbuf hactive hn
    -- a round that writes nothing
    have hstay : ∀ writing : Bool, some ((⟨some c, p, k⟩ : Conn), writing) =
        some (⟨some (wrote c 0), wrotePcb c p 0, k⟩, writing) := fun writing => by
      rw [wrotePcb_zero]
      rfl
    by_cases hzero : n = 0
    · refine ⟨0, true, Nat.zero_le _, ?_⟩
      rw [← hstay, hround, if_pos hzero]
    · cases err with
      | ok =>
        rw [hround, if_neg hzero]
        by_cases hmore : c.socks_recv_buf_sent + n < b.length
        · obtain ⟨m, writing, hm, hloop⟩ :=
            ih (c := wrote c n) (p := wrotePcb c p n) hbuf hactive
          have hsent : (wrote c n).socks_recv_buf_sent = c.socks_recv_buf_sent + n := rfl
          have hwrote : wrote (wrote c n) m = wrote c (n + m) := by
            simp only [wrote, Nat.add_assoc]
          rw [wrotePcb_wrotePcb, hwrote] at hloop
          exact ⟨n + m, writing, by omega, by rw [← hloop]; exact if_pos hmore⟩
        · exact ⟨n, true, hle, if_neg hmore⟩
      | mem =>
        refine ⟨0, true, Nat.zero_le _, ?_⟩
        rw [← hstay, hround, if_neg hzero]
      | abrt =>
        refine ⟨0, false, Nat.zero_le _, ?_⟩
        rw [← hstay, hround, if_neg hzero]
      | other =>
        refine ⟨0, false, Nat.zero_le _, ?_⟩
        rw [← hstay, hround, if_neg hzero]

/-- **What `client_socks_recv_send_out` does**: it writes what it can, and then waits for a
confirmation, is done with the buffer, or has aborted the client. -/
theorem clientSocksRecvSendOut_spec (a : Answers) {c : TcpClient} {p : Pcb} {k : SocksConn}
    {b : List UInt8} (hclient : c.client_closed = false) (hup : c.socks_up = true)
    (hbuf : c.socks_recv_buf = some b) (hsent : c.socks_recv_buf_sent < b.length)
    (hwaiting : c.socks_recv_waiting = false) (hactive : p.state = .active)
    (hlive : k.live = !c.socks_closed) :
    ∃ n, n ≤ b.length - c.socks_recv_buf_sent ∧
      (clientSocksRecvSendOut a ⟨some c, p, k⟩ =
          some (withoutClient (wrote c n) (dropped (wrotePcb c p n) .aborted) k, false) ∨
        (c.socks_recv_buf_sent + n < b.length ∧ 0 < c.socks_recv_tcp_pending + n ∧
          clientSocksRecvSendOut a ⟨some c, p, k⟩ =
            some (⟨some { wrote c n with socks_recv_waiting := true }, wrotePcb c p n, k⟩, true)) ∨
        (c.socks_recv_buf_sent + n = b.length ∧ 0 < n ∧
          clientSocksRecvSendOut a ⟨some c, p, k⟩ =
            some (⟨some { wrote c n with socks_recv_buf := none }, wrotePcb c p n, k⟩, true))) := by
  obtain ⟨n, writing, hn, hloop⟩ := sendOutLoop_spec a.writes (k := k) hbuf hactive
  have habort : clientAbortClient a ⟨some (wrote c n), wrotePcb c p n, k⟩ =
      some (withoutClient (wrote c n) (dropped (wrotePcb c p n) .aborted) k) :=
    clientAbortClient_eq a hclient hactive hlive
  refine ⟨n, hn, ?_⟩
  cases writing
  · exact .inl (by
      simp [clientSocksRecvSendOut, hclient, hup, hbuf, hsent, hwaiting, hloop, habort])
  · by_cases houtput : a.output = .ok
    · by_cases hmore : c.socks_recv_buf_sent + n < b.length
      · by_cases hpending : c.socks_recv_tcp_pending + n = 0
        · exact .inl (by
            have hnone : (wrote c n).socks_recv_tcp_pending = 0 := hpending
            have hleft : (wrote c n).socks_recv_buf_sent < b.length := hmore
            simp [clientSocksRecvSendOut, hclient, hup, hbuf, hsent, hwaiting, hloop, houtput,
              hleft, hnone, habort])
        · refine .inr (.inl ⟨hmore, by omega, ?_⟩)
          have hsome : (wrote c n).socks_recv_tcp_pending ≠ 0 := hpending
          have hleft : (wrote c n).socks_recv_buf_sent < b.length := hmore
          simp [clientSocksRecvSendOut, hclient, hup, hbuf, hsent, hwaiting, hloop, houtput, hleft,
            hsome]
      · refine .inr (.inr ⟨by omega, by omega, ?_⟩)
        have hleft : ¬ (wrote c n).socks_recv_buf_sent < b.length := hmore
        simp [clientSocksRecvSendOut, hclient, hup, hbuf, hsent, hwaiting, hloop, houtput, hleft]
    · exact .inl (by
        simp [clientSocksRecvSendOut, hclient, hup, hbuf, hsent, hwaiting, hloop, houtput, habort])

end Conn

end ShiroKhorshid.Tun
