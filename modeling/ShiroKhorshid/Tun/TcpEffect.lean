/-
# What an event does to a TCP client

Two things are known of an event that can happen.  `Effect` says that the invariant is kept and that
a side that is let go without an error is done; `Returned` says what lwIP is told.  Here are the
events that come from SOCKS, by themselves or as jobs; `TcpHandlers` has the others.

* A job or a handler leaves both sides there (`effect_of_stays`), or the client goes down
  (`effect_withoutClient`), or SOCKS does (`effect_withoutSocks`).  The two that send out to the
  client keep the invariant for one reason (`sendOut_keeps`) and go on receiving in one way
  (`receives_on`).
* A row of jobs has the effect of its jobs together (`effect_runJobs`, by induction on the row):
  once SOCKS is freed no job is enabled, so that what is known where it is freed, or where lwIP is
  told to close, is known at the end of the row.
* A handler that lwIP calls does its own part, which leaves both sides there, and then runs its jobs
  (`effect_syncCommit`).

Nothing is said about how long a side can stay without an event; that is up to lwIP and SOCKS.
-/
import ShiroKhorshid.Tun.TcpInvariant

namespace ShiroKhorshid.Tun

namespace Conn

/-! ## 1. What is known of a step -/

/-- SOCKS reports its end. -/
def Job.endsSocks : Job → Bool
  | .socks .error _ => true
  | .socks .errorClosed _ => true
  | _ => false

/-- SOCKS reports its end, by itself or in a job, or everything is ended. -/
def Event.endsSocks : Event → Bool
  | .recv _ _ jobs => jobs.any (·.endsSocks)
  | .sent _ _ jobs => jobs.any (·.endsSocks)
  | .job j => j.endsSocks
  | .murder => true
  | .err _ => false

/-- The client has closed its side. -/
def Event.endsClient : Event → Bool
  | .recv none _ _ => true
  | _ => false

/-- A call of lwIP that asks what has become of the `tcp_pcb`. -/
def Event.Tells (e : Event) : Prop :=
  (∃ p a jobs, e = .recv p a jobs) ∨ ∃ len a jobs, e = .sent len a jobs

/-- What is kept, and what is known where a side is let go.  SOCKS is gone when lwIP is told to
close, unless the client was the one to close. -/
structure Effect (s : Conn) (endsSocks endsClient : Bool) (t : Conn) : Prop where
  inv : Inv t
  freed : s.socks.live = true → t.socks.live = false →
    endsSocks = true ∨ t.socks.taken = t.pcb.delivered
  closed : t.pcb.state = .closed → s.pcb.state = .closed ∨ endsClient = true ∨
    (t.socks.live = false ∧ t.socks.given = t.pcb.written ∧ t.pcb.acked = t.pcb.written.length)

/-- lwIP wants to be told by `ERR_ABRT`, and only then, that the `tcp_pcb` is gone. -/
structure Returned (e : Event) (t : Conn) (r : ErrT) : Prop where
  room : r ≠ .mem
  gone : r = .abrt → t.pcb.state ≠ .active
  told : e.Tells → t.pcb.state ≠ .active → r = .abrt

/-- Nothing is returned where lwIP did not ask. -/
theorem returned_ok {e : Event} (t : Conn) (h : ¬ e.Tells) : Returned e t .ok :=
  ⟨by simp, by simp, fun h' => absurd h' h⟩

theorem returned_of_active (e : Event) {t : Conn} (h : t.pcb.state = .active) : Returned e t .ok :=
  ⟨by simp, by simp, fun _ h' => absurd h h'⟩

theorem returned_abrt (e : Event) {t : Conn} (h : t.pcb.state ≠ .active) : Returned e t .abrt :=
  ⟨by simp, fun _ => h, fun _ _ => rfl⟩

theorem exists_of_active {s : Conn} (h : Inv s) (hactive : s.pcb.state = .active) :
    ∃ c p k, s = ⟨some c, p, k⟩ ∧ c.client_closed = false ∧
      Sides c p k ∧ ToSocks c p k ∧ ToClient c p k := by
  obtain ⟨client, p, k⟩ := s
  cases client with
  | none => exact absurd hactive h.1
  | some c => exact ⟨c, p, k, rfl, h.1.active.mp hactive, h⟩

theorem exists_of_live {s : Conn} (h : Inv s) (hlive : s.socks.live = true) :
    ∃ c p k, s = ⟨some c, p, k⟩ ∧ c.socks_closed = false ∧
      Sides c p k ∧ ToSocks c p k ∧ ToClient c p k := by
  obtain ⟨client, p, k⟩ := s
  cases client with
  | none => exact absurd (hlive.symm.trans h.2.1) (by simp)
  | some c =>
    refine ⟨c, p, k, rfl, ?_, h⟩
    have hopen : k.live = !c.socks_closed := h.1.live
    rw [show k.live = true from hlive] at hopen
    simpa using hopen.symm

section

variable {c : TcpClient} {p : Pcb} {k : SocksConn}

@[simp] theorem withoutClient_pcb : (withoutClient c p k).pcb = p := by
  rw [withoutClient]
  split
  · rfl
  · split <;> rfl

theorem withoutClient_socks : (withoutClient c p k).socks.taken = k.taken ∧
    (withoutClient c p k).socks.given = k.given ∧
    ((withoutClient c p k).socks.live = false → k.live = true → c.buf = []) := by
  rw [withoutClient]
  split
  · exact ⟨rfl, rfl, fun h h' => absurd (h.symm.trans h') (by simp)⟩
  · split
    · rename_i hbuf
      exact ⟨rfl, rfl, fun _ _ => hbuf⟩
    · exact ⟨rfl, rfl, fun h h' => absurd (h.symm.trans h') (by simp)⟩

/-- Where the client goes down, the SOCKS client is freed only with an empty buffer. -/
theorem taken_withoutClient {p' : Pcb} (hto : ToSocks c p k)
    (hdelivered : p'.delivered = p.delivered) (hlive : k.live = true)
    (h : (withoutClient c p' k).socks.live = false) :
    (withoutClient c p' k).socks.taken = (withoutClient c p' k).pcb.delivered := by
  obtain ⟨htaken, -, hbuf⟩ := @withoutClient_socks c p' k
  rw [htaken, withoutClient_pcb, hdelivered, hto.bytes, hbuf h hlive, List.append_nil]

theorem dropped_closedBy_ne_active (a : Answers) : (dropped p (closedBy a)).state ≠ .active := by
  rw [dropped, closedBy]
  split <;> simp

/-- The client goes down in a handler, and SOCKS with it if nothing is left to send. -/
theorem effect_withoutClient {s : Conn} {ends endsClient : Bool} {p' : Pcb}
    (hlive : k.live = !c.socks_closed) (hup : k.up = c.socks_up) (hto : ToSocks c p k)
    (hfrom : FromSocks c p k) (hsame : k.live = s.socks.live) (hstate : p'.state ≠ .active)
    (hdelivered : p'.delivered = p.delivered) (hwritten : p'.written = p.written)
    (hacked : p'.acked = p.acked)
    (hclosed : p'.state = .closed → endsClient = true ∨
      (c.socks_closed = true ∧ k.given = p.written ∧ p.acked = p.written.length)) :
    Effect s ends endsClient (withoutClient c p' k) := by
  obtain ⟨-, hgiven, -⟩ := @withoutClient_socks c p' k
  refine ⟨inv_withoutClient hlive hup hto hfrom hstate hdelivered hwritten hacked,
    fun h h' => .inr (taken_withoutClient hto hdelivered (hsame.trans h) h'), fun h => ?_⟩
  rw [withoutClient_pcb] at h
  rcases hclosed h with hends | ⟨hsocks, hall, hconfirmed⟩
  · exact .inr (.inl hends)
  · refine .inr (.inr ⟨?_, ?_, ?_⟩)
    · rw [withoutClient, if_pos hsocks]
      exact hlive.trans (by rw [hsocks]; rfl)
    · rw [withoutClient_pcb, hgiven, hwritten]
      exact hall
    · rw [withoutClient_pcb, hwritten, hacked]
      exact hconfirmed

/-- A step after which both sides are there as before has nothing to tell. -/
theorem effect_of_stays {s t : Conn} {ends endsClient : Bool} (hinv : Inv t)
    (hlive : t.socks.live = s.socks.live) (hstate : t.pcb.state = s.pcb.state) :
    Effect s ends endsClient t := by
  refine ⟨hinv, fun h h' => ?_, fun h => .inl (hstate.symm.trans h)⟩
  exact absurd ((hlive.trans h).symm.trans h') (by simp)

/-- What comes after such a step is as good as from the beginning. -/
theorem Effect.after_stays {s m t : Conn} {ends endsClient : Bool} (h : Effect m ends false t)
    (hlive : m.socks.live = s.socks.live) (hstate : m.pcb.state = s.pcb.state) :
    Effect s ends endsClient t := by
  refine ⟨h.inv, fun hs => h.freed (hlive.trans hs), fun ht => ?_⟩
  rcases h.closed ht with hm | hends | hdone
  · exact .inl (hstate.symm.trans hm)
  · cases hends
  · exact .inr (.inr hdone)

/-! ## 2. What is sent out to the client -/

/-- What is written and what is left is what was left. -/
theorem toClient_wrote {b : List UInt8} {n : ℕ} (hbuf : c.socks_recv_buf = some b)
    (hn : n ≤ b.length - c.socks_recv_buf_sent) (hbytes : k.given = p.written ++ unwritten c)
    (hpending : p.acked + c.socks_recv_tcp_pending = p.written.length) :
    k.given = (wrotePcb c p n).written ++ unwritten (wrote c n) ∧
      (wrotePcb c p n).acked + (wrote c n).socks_recv_tcp_pending =
        (wrotePcb c p n).written.length := by
  constructor
  · rw [unwritten_wrote, hbytes]
    show _ = p.written ++ (unwritten c).take n ++ (unwritten c).drop n
    rw [List.append_assoc, List.take_append_drop]
  · show p.acked + (c.socks_recv_tcp_pending + n) = (p.written ++ (unwritten c).take n).length
    rw [List.length_append, List.length_take, length_unwritten hbuf]
    omega

/-- `client_socks_recv_send_out` either aborts the client, or leaves it with bytes to confirm. -/
theorem sendOut_keeps (a : Answers) {b : List UInt8} (hclient : c.client_closed = false)
    (hup : c.socks_up = true) (hbuf : c.socks_recv_buf = some b)
    (hsent : c.socks_recv_buf_sent < b.length) (hwaiting : c.socks_recv_waiting = false)
    (hsides : Sides c p k) (hto : ToSocks c p k) (hreceiving : k.receiving = false)
    (hbytes : k.given = p.written ++ unwritten c)
    (hpending : p.acked + c.socks_recv_tcp_pending = p.written.length) :
    (∃ c' p', clientSocksRecvSendOut a ⟨some c, p, k⟩ =
        some (withoutClient c' (dropped p' .aborted) k, false) ∧
      k.live = !c'.socks_closed ∧ k.up = c'.socks_up ∧ ToSocks c' p' k ∧ FromSocks c' p' k) ∨
    ∃ c' p', clientSocksRecvSendOut a ⟨some c, p, k⟩ = some (⟨some c', p', k⟩, true) ∧
      c'.client_closed = false ∧ c'.socks_up = true ∧ c'.socks_closed = c.socks_closed ∧
      0 < c'.socks_recv_tcp_pending ∧ Sides c' p' k ∧ ToSocks c' p' k ∧
      ∀ k' : SocksConn, k'.given = k.given → (k'.receiving = true → c'.socks_recv_buf = none) →
        (c'.socks_closed = false → c'.socks_recv_buf = none → k'.receiving = true) →
        ToClient c' p' k' := by
  have hactive := hsides.active.mpr hclient
  obtain ⟨n, hn, hcases⟩ := clientSocksRecvSendOut_spec a hclient hup hbuf hsent hwaiting hactive
    hsides.live
  obtain ⟨hgiven, hconfirm⟩ := toClient_wrote hbuf hn hbytes hpending
  have hdown : ∀ P : Prop, c.socks_up = false → P := fun P h =>
    absurd (hup.symm.trans h) (by simp)
  have horder : (wrotePcb c p n).written <+: k.given := ⟨_, hgiven.symm⟩
  rcases hcases with habort | ⟨hmore, hleft, hwait⟩ | ⟨hall, hpos, hdone⟩
  · exact .inl ⟨_, _, habort, hsides.live, hsides.up,
      ⟨hto.bytes, hto.window, hto.left, hto.sending, hto.busy⟩,
      ⟨hdown _, fun h => absurd (hreceiving.symm.trans h) (by simp), horder⟩⟩
  · refine .inr ⟨_, _, hwait, hclient, hup, rfl, hleft,
      ⟨hsides.active, hsides.live, hsides.up, hsides.one_left, hsides.callbacks⟩,
      ⟨hto.bytes, hto.window, hto.left, hto.sending, hto.busy⟩, fun k' hk' hrecv hasked =>
      ⟨⟨hdown _, hrecv, hk' ▸ horder⟩, fun _ _ => hk'.trans hgiven, fun _ _ => hconfirm,
        fun _ _ x hx => ?_, fun _ hopen _ hnone => hasked hopen hnone, fun _ => ⟨hup, .inr hleft⟩⟩⟩
    obtain rfl := Option.some.inj (hbuf.symm.trans hx)
    exact ⟨rfl, hmore, hleft⟩
  · have hnothing : unwritten (wrote c n) = [] := by
      rw [unwritten_wrote, List.drop_eq_nil_iff, length_unwritten hbuf]
      omega
    have hpend : 0 < (wrote c n).socks_recv_tcp_pending := by
      show 0 < c.socks_recv_tcp_pending + n
      omega
    refine .inr ⟨_, _, hdone, hclient, hup, rfl, hpend,
      ⟨hsides.active, hsides.live, hsides.up, hsides.one_left, hsides.callbacks⟩,
      ⟨hto.bytes, hto.window, hto.left, hto.sending, hto.busy⟩, fun k' hk' hrecv hasked =>
      ⟨⟨hdown _, hrecv, hk' ▸ horder⟩, fun _ _ => ?_, fun _ _ => hconfirm,
        fun _ _ x hx => absurd hx (by simp), fun _ hopen _ hnone => hasked hopen hnone,
        fun _ => ⟨hup, .inr hpend⟩⟩⟩
    rw [hk', hgiven, hnothing, unwritten]
    simp

theorem clientSocksRecvInitiate_eq (hclient : c.client_closed = false)
    (hopen : c.socks_closed = false) (hup : c.socks_up = true) (hbuf : c.socks_recv_buf = none)
    (hlive : k.live = true) (hkup : k.up = true) (hreceiving : k.receiving = false) :
    clientSocksRecvInitiate ⟨some c, p, k⟩ = some ⟨some c, p, { k with receiving := true }⟩ := by
  simp [clientSocksRecvInitiate, hclient, hopen, hup, hbuf, receiverRecv, hlive, hkup, hreceiving]

theorem Sides.asking (h : Sides c p k) (r : Bool) : Sides c p { k with receiving := r } :=
  ⟨h.active, h.live, h.up, h.one_left, h.callbacks⟩

theorem ToSocks.asking (h : ToSocks c p k) (r : Bool) : ToSocks c p { k with receiving := r } :=
  ⟨h.bytes, h.window, h.left, h.sending, h.busy⟩

theorem not_receiving {b : List UInt8} (hback : ToClient c p k) (hbuf : c.socks_recv_buf = some b) :
    k.receiving = false := by
  cases hk : k.receiving with
  | false => rfl
  | true => exact absurd (hbuf.symm.trans (hback.receiving hk)) (by simp)

/-- A handler that has sent out goes on receiving if the buffer is free and SOCKS is there. -/
theorem receives_on (hclient : c.client_closed = false) (hup : c.socks_up = true)
    (hreceiving : k.receiving = false) (hsides : Sides c p k) (hto : ToSocks c p k)
    (hback : ∀ k' : SocksConn, k'.given = k.given →
      (k'.receiving = true → c.socks_recv_buf = none) →
      (c.socks_closed = false → c.socks_recv_buf = none → k'.receiving = true) → ToClient c p k') :
    ∃ k', k'.live = k.live ∧ Inv ⟨some c, p, k'⟩ ∧
      (c.socks_recv_buf = none ∧ c.socks_closed = false →
        clientSocksRecvInitiate ⟨some c, p, k⟩ = some ⟨some c, p, k'⟩) ∧
      (¬ (c.socks_recv_buf = none ∧ c.socks_closed = false) → k' = k) := by
  by_cases hask : c.socks_recv_buf = none ∧ c.socks_closed = false
  · obtain ⟨hnone, hopen⟩ := hask
    refine ⟨{ k with receiving := true }, rfl, ⟨hsides.asking true, hto.asking true,
      hback _ rfl (fun _ => hnone) fun _ _ => rfl⟩, fun _ => ?_,
      fun hnot => absurd ⟨hnone, hopen⟩ hnot⟩
    exact clientSocksRecvInitiate_eq hclient hopen hup hnone
      (hsides.live.trans (by rw [hopen]; rfl)) (hsides.up.trans hup) hreceiving
  · refine ⟨k, rfl, ⟨hsides, hto, hback k rfl (fun h => ?_) fun hopen hnone => ?_⟩,
      fun h => absurd h hask, fun _ => rfl⟩
    · exact absurd (hreceiving.symm.trans h) (by simp)
    · exact absurd ⟨hnone, hopen⟩ hask

/-! ## 3. What SOCKS calls -/

theorem clientSocksRecvHandlerDone_open {data : List UInt8} {a : Answers}
    (hclient : c.client_closed = false) (hopen : c.socks_closed = false) (hup : c.socks_up = true)
    (hbuf : c.socks_recv_buf = none) (hne : data ≠ [])
    (hlen : data.length ≤ clientSocksRecvBufSize) :
    clientSocksRecvHandlerDone data a ⟨some c, p, k⟩ =
      (clientSocksRecvSendOut a ⟨some { c with
        socks_recv_buf := some data
        socks_recv_buf_sent := 0
        socks_recv_waiting := false }, p, k⟩).bind fun x =>
          if x.2 = false then some x.1
          else
            x.1.client.bind fun c =>
              if c.socks_recv_buf.isNone then x.1.clientSocksRecvInitiate else some x.1 := by
  obtain ⟨closed, buf, up, socks_closed, recv_buf, recv_sent, waiting, pending⟩ := c
  obtain rfl : closed = false := hclient
  obtain rfl : socks_closed = false := hopen
  obtain rfl : up = true := hup
  obtain rfl : recv_buf = none := hbuf
  simp only [clientSocksRecvHandlerDone, Option.bind_eq_bind, Option.bind_some, Bool.not_false,
    assert_true, hne, hlen, ne_eq, not_false_eq_true, and_self, decide_true, Option.isNone_none]
  rfl

/-- `client_socks_recv_handler_done` -/
theorem effect_recvDone {data : List UInt8} {a : Answers} (hopen : c.socks_closed = false)
    (hsides : Sides c p k) (hto : ToSocks c p k) (hback : ToClient c p k)
    (he : JobEnabled ⟨some c, p, k⟩ (.recvDone data a)) :
    ∃ t, runJob ⟨some c, p, k⟩ (.recvDone data a) = some t ∧
      Effect ⟨some c, p, k⟩ false false t := by
  obtain ⟨hlive, hreceiving, hne, hlen⟩ := he
  have hlive : k.live = true := hlive
  have hreceiving : k.receiving = true := hreceiving
  have hbuf := hback.receiving hreceiving
  have hup : c.socks_up = true := by
    cases hup : c.socks_up with
    | true => rfl
    | false => exact absurd ((hback.down hup).2.2.2.symm.trans hreceiving) (by simp)
  have hdown : ∀ P : Prop, c.socks_up = false → P := fun P h =>
    absurd (hup.symm.trans h) (by simp)
  obtain ⟨k', hk'⟩ : ∃ k', k' = { k with receiving := false, given := k.given ++ data } := ⟨_, rfl⟩
  have hsides' : Sides c p k' := by
    rw [hk']
    exact ⟨hsides.active, hsides.live, hsides.up, hsides.one_left, hsides.callbacks⟩
  have hto' : ToSocks c p k' := by
    rw [hk']
    exact ⟨hto.bytes, hto.window, hto.left, hto.sending, hto.busy⟩
  have horder : p.written <+: k'.given := by
    rw [hk']
    exact hback.in_order.trans (List.prefix_append _ _)
  cases hclient : c.client_closed with
  | true =>
    refine ⟨⟨some c, p, k'⟩, ?_, effect_of_stays ⟨hsides', hto',
      ⟨hdown _, fun _ => hbuf, horder⟩, ?_, ?_, ?_, ?_, hback.left⟩ (by rw [hk']) rfl⟩
    · rw [hk']
      simp [runJob, clientSocksRecvHandlerDone, hne, hlen, hopen, hup, hbuf, hclient]
    all_goals
      intro h
      exact absurd (hclient.symm.trans h) (by simp)
  | false =>
    have hactive := hsides.active.mpr hclient
    obtain ⟨c', hc'⟩ : ∃ c', c' = { c with
      socks_recv_buf := some data
      socks_recv_buf_sent := 0
      socks_recv_waiting := false } := ⟨_, rfl⟩
    have hsides'' : Sides c' p k' := by
      rw [hc']
      exact ⟨hsides'.active, hsides'.live, hsides'.up, hsides'.one_left, hsides'.callbacks⟩
    have hto'' : ToSocks c' p k' := by
      rw [hc']
      exact ⟨hto'.bytes, hto'.window, hto'.left, hto'.sending, hto'.busy⟩
    have hbytes : k'.given = p.written ++ unwritten c' := by
      have hall := hback.bytes hclient hup
      rw [unwritten, hbuf] at hall
      rw [hk', hc']
      show k.given ++ data = p.written ++ data
      rw [hall]
      simp
    have hkeeps := sendOut_keeps a (c := c') (p := p) (k := k') (b := data)
      (by rw [hc']; exact hclient) (by rw [hc']; exact hup) (by rw [hc'])
      (by rw [hc']; exact List.length_pos_iff.mpr hne) (by rw [hc']) hsides'' hto'' (by rw [hk'])
      hbytes (by rw [hc']; exact hback.pending hclient hup)
    have hdone := clientSocksRecvHandlerDone_open (a := a) (p := p) (k := k') hclient hopen hup hbuf
      hne hlen
    have hrun : runJob ⟨some c, p, k⟩ (.recvDone data a) =
        clientSocksRecvHandlerDone data a ⟨some c, p, k'⟩ := by
      rw [hk']
      rfl
    rw [← hc'] at hdone
    rcases hkeeps with ⟨d, q, hout, hlive', hkup, hto₁, hfrom₁⟩ |
        ⟨d, q, hout, hdclient, hdup, hdclosed, -, hsides₁, hto₁, hback₁⟩
    · rw [hout] at hdone
      exact ⟨withoutClient d (dropped q .aborted) k', by rw [hrun, hdone]; rfl,
        effect_withoutClient hlive' hkup hto₁ hfrom₁ (by rw [hk']) (by simp [dropped]) rfl rfl rfl
          (by simp [dropped])⟩
    · have hqactive : q.state = .active := hsides₁.active.mpr hdclient
      have hdopen : d.socks_closed = false := by rw [hdclosed, hc']; exact hopen
      obtain ⟨k₁, hlive₁, hinv, hask, hnot⟩ :=
        receives_on hdclient hdup (by rw [hk']) hsides₁ hto₁ hback₁
      rw [hout] at hdone
      refine ⟨⟨some d, q, k₁⟩, ?_, effect_of_stays hinv (hlive₁.trans (by rw [hk']))
        (hqactive.trans hactive.symm)⟩
      rw [hrun, hdone]
      by_cases hnone : d.socks_recv_buf = none
      · simp [hnone, hask ⟨hnone, hdopen⟩]
      · simp [hnone, hnot fun h => hnone h.1]

theorem withoutSocks_closed (a : Answers) (hback : ToClient c p k)
    (hclient : c.client_closed = false) (hactive : p.state = .active)
    (h : (withoutSocks a c p k).pcb.state = .closed) :
    (withoutSocks a c p k).socks.given = (withoutSocks a c p k).pcb.written ∧
      (withoutSocks a c p k).pcb.acked = (withoutSocks a c p k).pcb.written.length := by
  rw [withoutSocks, if_neg (by simp [hclient])] at h ⊢
  by_cases hmore :
      c.socks_up = true ∧ (c.socks_recv_buf.isSome = true ∨ c.socks_recv_tcp_pending > 0)
  · rw [if_pos hmore] at h
    exact absurd (hactive.symm.trans h) (by simp)
  · rw [if_neg hmore]
    show k.given = p.written ∧ p.acked = p.written.length
    cases hup : c.socks_up with
    | false =>
      obtain ⟨hgiven, hwritten, hacked, -⟩ := hback.down hup
      rw [hgiven, hwritten, hacked]
      exact ⟨rfl, rfl⟩
    | true =>
      have hnone : c.socks_recv_buf = none := by
        cases hbuf : c.socks_recv_buf with
        | none => rfl
        | some b => exact absurd ⟨hup, .inl (by rw [hbuf]; rfl)⟩ hmore
      have hzero : ¬ 0 < c.socks_recv_tcp_pending := fun h => hmore ⟨hup, .inr h⟩
      have hbytes := hback.bytes hclient hup
      have hpending := hback.pending hclient hup
      rw [unwritten, hnone] at hbytes
      exact ⟨by simpa using hbytes, by omega⟩

theorem withoutSocks_dead (a : Answers) : (withoutSocks a c p k).socks.live = false := by
  rw [withoutSocks]
  split
  · rfl
  · split <;> rfl

/-- `client_free_socks`, where SOCKS has reported its end. -/
theorem effect_withoutSocks (a : Answers) (hsides : Sides c p k) (hto : ToSocks c p k)
    (hback : ToClient c p k) : Effect ⟨some c, p, k⟩ true false (withoutSocks a c p k) := by
  refine ⟨inv_withoutSocks a hsides hto hback, fun _ _ => .inl rfl, fun h => ?_⟩
  cases hclient : c.client_closed with
  | true =>
    rw [withoutSocks, if_pos hclient] at h
    exact .inl h
  | false =>
    have hdone := withoutSocks_closed a hback hclient (hsides.active.mpr hclient) h
    exact .inr (.inr ⟨withoutSocks_dead a, hdone⟩)

/-- The `tcp_pcb` when `n` bytes of the client were sent on. -/
def confirmed (c : TcpClient) (p : Pcb) (n : ℕ) : Pcb :=
  if c.client_closed = false then { p with rcv_wnd := min (p.rcv_wnd + n) tcpWnd } else p

/-- The SOCKS client that has sent `bs`. -/
def sentOn (k : SocksConn) (bs : List UInt8) : SocksConn :=
  { k with sending := none, taken := k.taken ++ bs }

/-- Only the window changes. -/
theorem confirmed_same (c : TcpClient) (p : Pcb) (n : ℕ) :
    ∃ rcv_wnd, confirmed c p n = { p with rcv_wnd } := by
  rw [confirmed]
  split
  · exact ⟨_, rfl⟩
  · exact ⟨_, rfl⟩

theorem Sides.sentOn (h : Sides c p k) (n : ℕ) (bs : List UInt8) (sending : Option (List UInt8)) :
    Sides { c with buf := c.buf.drop n } (confirmed c p n) { sentOn k bs with sending } := by
  obtain ⟨w, hw⟩ := confirmed_same c p n
  rw [hw]
  exact ⟨h.active, h.live, h.up, h.one_left, h.callbacks⟩

theorem ToClient.sentOn (h : ToClient c p k) (n : ℕ) (bs : List UInt8)
    (sending : Option (List UInt8)) :
    ToClient { c with buf := c.buf.drop n } (confirmed c p n) { sentOn k bs with sending } := by
  obtain ⟨w, hw⟩ := confirmed_same c p n
  rw [hw]
  exact ⟨⟨h.down, h.receiving, h.in_order⟩, h.bytes, h.pending, h.waiting, h.asked, h.left⟩

theorem ToSocks.bytes_sentOn (h : ToSocks c p k) (n : ℕ) :
    (confirmed c p n).delivered = (Conn.sentOn k (c.buf.take n)).taken ++ c.buf.drop n := by
  obtain ⟨w, hw⟩ := confirmed_same c p n
  rw [hw]
  show p.delivered = k.taken ++ c.buf.take n ++ c.buf.drop n
  rw [h.bytes, List.append_assoc, List.take_append_drop]

/-- What was sent has left the buffer, and its room is in the window again. -/
theorem ToSocks.sentOn {n : ℕ} {sending : Option (List UInt8)} (h : ToSocks c p k)
    (hup : c.socks_up = true) (hlen : n ≤ c.buf.length)
    (hsending : sending = if c.buf.drop n = [] then none else some (c.buf.drop n))
    (hleft : c.client_closed = true → c.buf.drop n ≠ []) :
    ToSocks { c with buf := c.buf.drop n } (confirmed c p n)
      { sentOn k (c.buf.take n) with sending } := by
  refine ⟨h.bytes_sentOn n, fun hclient hopen => ?_, hleft, fun bs hbs => ?_, fun _ _ hne => ?_⟩
  · have hclient : c.client_closed = false := hclient
    have hwindow := h.window hclient hopen
    rw [confirmed, if_pos hclient]
    show min (p.rcv_wnd + n) tcpWnd + (c.buf.drop n).length = tcpWnd
    rw [List.length_drop]
    omega
  · have hbs : sending = some bs := hbs
    by_cases hne : c.buf.drop n = []
    · rw [hsending, if_pos hne] at hbs
      cases hbs
    · rw [hsending, if_neg hne] at hbs
      obtain rfl := Option.some.inj hbs
      exact ⟨hup, hne, List.prefix_refl _⟩
  · show sending.isSome = true
    rw [hsending, if_neg hne]
    rfl

theorem clientSocksSendHandlerDone_eq {data_len : ℕ} {a : Answers} (hopen : c.socks_closed = false)
    (hup : c.socks_up = true) (hpos : 0 < data_len) (hlen : data_len ≤ c.buf.length)
    (hlive : k.live = true) (hkup : k.up = true) (hidle : k.sending = none)
    (hactive : c.client_closed = false → p.state = .active)
    (hroom : c.client_closed = false → data_len ≤ 65535 - p.rcv_wnd) :
    clientSocksSendHandlerDone data_len a ⟨some c, p, k⟩ =
      if c.buf.drop data_len ≠ [] then
        some ⟨some { c with buf := c.buf.drop data_len }, confirmed c p data_len,
          { k with sending := some (c.buf.drop data_len) }⟩
      else if c.client_closed then
        clientFreeSocks a ⟨some { c with buf := c.buf.drop data_len }, confirmed c p data_len, k⟩
      else some ⟨some { c with buf := c.buf.drop data_len }, confirmed c p data_len, k⟩ := by
  have hne : c.buf ≠ [] := by
    rintro hempty
    rw [hempty] at hlen
    simp at hlen
    omega
  obtain ⟨closed, buf, up, socks_closed, recv_buf, recv_sent, waiting, pending⟩ := c
  obtain rfl : socks_closed = false := hopen
  obtain rfl : up = true := hup
  have hlen : data_len ≤ buf.length := hlen
  have hne : buf ≠ [] := hne
  have hsend : ∀ (c : TcpClient) (p : Pcb) (bs : List UInt8), bs ≠ [] →
      senderSend bs ⟨some c, p, k⟩ = some ⟨some c, p, { k with sending := some bs }⟩ :=
    fun c p bs hbs => by simp [senderSend, hlive, hkup, hidle, hbs]
  have hfacts : (decide (buf ≠ []) = true) ∧ decide (0 < data_len ∧ data_len ≤ buf.length) = true :=
    ⟨decide_eq_true hne, decide_eq_true ⟨hpos, hlen⟩⟩
  obtain ⟨rest, hrest⟩ : ∃ rest, rest = buf.drop data_len := ⟨_, rfl⟩
  simp only [clientSocksSendHandlerDone, Option.bind_eq_bind, Option.bind_some, Bool.not_false,
    assert_true, hfacts.1, hfacts.2, ← hrest]
  cases closed
  · have hrecved : ∀ c, tcpRecved data_len ⟨c, p, k⟩ = some
        ⟨c, { p with rcv_wnd := min (p.rcv_wnd + data_len) tcpWnd }, k⟩ := fun c => by
      simp [tcpRecved, hactive rfl, hroom rfl]
    rw [if_pos rfl, hrecved, Option.bind_some]
    by_cases hmore : rest ≠ []
    · rw [if_pos hmore, if_pos hmore]
      exact hsend _ _ _ hmore
    · rw [if_neg hmore, if_neg hmore]
      rfl
  · rw [if_neg (by simp), Option.bind_some]
    by_cases hmore : rest ≠ []
    · rw [if_pos hmore, if_pos hmore]
      exact hsend _ _ _ hmore
    · rw [if_neg hmore, if_neg hmore]
      rfl

/-- `client_socks_send_handler_done` -/
theorem effect_sendDone {data_len : ℕ} {a : Answers} (hopen : c.socks_closed = false)
    (hsides : Sides c p k) (hto : ToSocks c p k) (hback : ToClient c p k)
    (he : JobEnabled ⟨some c, p, k⟩ (.sendDone data_len a)) :
    ∃ t, runJob ⟨some c, p, k⟩ (.sendDone data_len a) = some t ∧
      Effect ⟨some c, p, k⟩ false false t := by
  obtain ⟨hlive, hpos, hany⟩ := he
  have hlive : k.live = true := hlive
  obtain ⟨bs, hbs, hshort⟩ := (Option.any_eq_true _ _).mp hany
  have hbs : k.sending = some bs := hbs
  have hshort : data_len ≤ bs.length := of_decide_eq_true hshort
  obtain ⟨hup, -, hle⟩ := hto.sending bs hbs
  have hlen : data_len ≤ c.buf.length := Nat.le_trans hshort hle.length_le
  have htake : bs.take data_len = c.buf.take data_len := by
    obtain ⟨rest, hrest⟩ := hle
    rw [← hrest, List.take_append_of_le_length hshort]
  have hroom : c.client_closed = false → data_len ≤ 65535 - p.rcv_wnd := fun hclient => by
    have hwindow := hto.window hclient hopen
    unfold tcpWnd at hwindow
    omega
  obtain ⟨k', hk'⟩ : ∃ k', k' = Conn.sentOn k (c.buf.take data_len) := ⟨_, rfl⟩
  obtain ⟨p', hp'⟩ : ∃ p', p' = confirmed c p data_len := ⟨_, rfl⟩
  have hstate : p'.state = p.state := by
    obtain ⟨w, hw⟩ := confirmed_same c p data_len
    rw [hp', hw]
  have hlive' : k'.live = true := by rw [hk']; exact hlive
  have hsides' := fun sending => hsides.sentOn data_len (c.buf.take data_len) sending
  have hback' := fun sending => hback.sentOn data_len (c.buf.take data_len) sending
  have hbytes := hto.bytes_sentOn data_len
  have hrun : runJob ⟨some c, p, k⟩ (.sendDone data_len a) =
      clientSocksSendHandlerDone data_len a ⟨some c, p, k'⟩ := by
    rw [hk', ← htake]
    simp only [runJob, hbs]
    rfl
  have hdone := clientSocksSendHandlerDone_eq (a := a) (p := p) (k := k') hopen hup hpos hlen hlive'
    (by rw [hk']; exact hsides.up.trans hup) (by rw [hk']; rfl) hsides.active.mpr hroom
  by_cases hmore : c.buf.drop data_len ≠ []
  · have hto' := hto.sentOn hup hlen rfl fun _ => hmore
    rw [← hk', ← hp', if_neg hmore] at hto'
    rw [← hk', ← hp'] at hsides' hback'
    rw [if_pos hmore, ← hp'] at hdone
    exact ⟨⟨some _, p', { k' with sending := some (c.buf.drop data_len) }⟩, hrun.trans hdone,
      effect_of_stays ⟨hsides' _, hto', hback' _⟩ (hlive'.trans hlive.symm) hstate⟩
  · rw [if_neg hmore, ← hp'] at hdone
    rw [not_not] at hmore
    have hidle : ({ k' with sending := none } : SocksConn) = k' := by rw [hk']; rfl
    have hsides'' := hsides' none
    have hback'' := hback' none
    rw [← hk', ← hp', hidle] at hsides'' hback''
    rw [← hk', ← hp', hmore, List.append_nil] at hbytes
    cases hclient : c.client_closed with
    | true =>
      have hfree :=
        clientFreeSocks_eq (c := { c with buf := c.buf.drop data_len }) (p := p') (k := k')
          a hopen hlive' hsides''.active.mpr
      have hactive : p'.state ≠ .active := fun h =>
        absurd ((hsides''.active.mp h).symm.trans hclient) (by simp)
      rw [if_pos hclient, hfree, withoutSocks, if_pos hclient] at hdone
      refine ⟨⟨none, p', freedSocks k'⟩, hrun.trans hdone,
        ⟨hactive, rfl, ⟨[], ?_⟩, hback''.in_order⟩, fun _ _ => .inr hbytes.symm,
        fun h => .inl (hstate.symm.trans h)⟩
      rw [List.append_nil]
      exact hbytes.symm
    | false =>
      have hto' := hto.sentOn hup hlen rfl fun h => absurd (hclient.symm.trans h) (by simp)
      rw [← hk', ← hp', if_pos hmore, hidle] at hto'
      rw [if_neg (by simp [hclient])] at hdone
      exact ⟨⟨some _, p', k'⟩, hrun.trans hdone,
        effect_of_stays ⟨hsides'', hto', hback''⟩ (hlive'.trans hlive.symm) hstate⟩

theorem clientSocksHandler_up {a : Answers} (hopen : c.socks_closed = false)
    (hup : c.socks_up = false) (hlive : k.live = true) (hkup : k.up = true)
    (hidle : k.sending = none) (hreceiving : k.receiving = false)
    (hactive : c.client_closed = false → p.state = .active) :
    clientSocksHandler .up a ⟨some c, p, k⟩ = some
      ⟨some { c with socks_recv_buf := none, socks_recv_tcp_pending := 0, socks_up := true },
        if c.client_closed = false then { p with sent := true } else p,
        { k with
          sending := if c.buf = [] then none else some c.buf
          receiving := !c.client_closed }⟩ := by
  obtain ⟨closed, buf, up, socks_closed, recv_buf, recv_sent, waiting, pending⟩ := c
  obtain ⟨live, kup, sending, receiving, taken, given⟩ := k
  obtain rfl : socks_closed = false := hopen
  obtain rfl : up = false := hup
  obtain rfl : live = true := hlive
  obtain rfl : kup = true := hkup
  obtain rfl : sending = none := hidle
  obtain rfl : receiving = false := hreceiving
  cases closed
  · have hp : p.state = .active := hactive rfl
    by_cases hbuf : buf = []
    · simp [clientSocksHandler, tcpSent, hp, hbuf, clientSocksRecvInitiate, receiverRecv]
    · simp [clientSocksHandler, tcpSent, hp, hbuf, clientSendToSocks, senderSend,
        clientSocksRecvInitiate, receiverRecv]
  · by_cases hbuf : buf = []
    · simp [clientSocksHandler, hbuf]
    · simp [clientSocksHandler, hbuf, clientSendToSocks, senderSend]

/-- `client_socks_handler` where SOCKS comes up. -/
theorem effect_socks_up {a : Answers} (hopen : c.socks_closed = false) (hsides : Sides c p k)
    (hto : ToSocks c p k) (hback : ToClient c p k)
    (he : JobEnabled ⟨some c, p, k⟩ (.socks .up a)) :
    ∃ t, runJob ⟨some c, p, k⟩ (.socks .up a) = some t ∧
      Effect ⟨some c, p, k⟩ false false t := by
  have hlive : k.live = true := he.1
  have hup : c.socks_up = false := hsides.up.symm.trans he.2
  obtain ⟨hgiven, hwritten, hacked, hreceiving⟩ := hback.down hup
  have hidle : k.sending = none := by
    cases hk : k.sending with
    | none => rfl
    | some bs => exact absurd (hup.symm.trans (hto.sending bs hk).1) (by simp)
  have hrun := clientSocksHandler_up (a := a) (p := p) (k := { k with up := true }) hopen hup hlive
    rfl hidle hreceiving hsides.active.mpr
  refine ⟨_, hrun, ?_⟩
  refine effect_of_stays ⟨⟨?_, hsides.live, rfl, hsides.one_left, fun hclient => ?_⟩,
    ⟨?_, ?_, hto.left, ?_, ?_⟩, ⟨⟨by simp, fun _ => rfl, ?_⟩, ?_, ?_, by simp, ?_, ?_⟩⟩ rfl ?_
  · split
    · exact hsides.active
    · exact hsides.active
  · obtain ⟨herrf, hrecv, -⟩ := hsides.callbacks hclient
    have hclient : c.client_closed = false := hclient
    rw [if_pos hclient]
    exact ⟨herrf, hrecv, rfl⟩
  · split
    · exact hto.bytes
    · exact hto.bytes
  · intro hclient
    have hclient : c.client_closed = false := hclient
    rw [if_pos hclient]
    exact hto.window hclient
  · intro bs hbs
    by_cases hbuf : c.buf = []
    · simp [hbuf] at hbs
    · obtain rfl : c.buf = bs := by simpa [hbuf] using hbs
      exact ⟨rfl, hbuf, List.prefix_refl _⟩
  · intro _ _ hbuf
    have hbuf : c.buf ≠ [] := hbuf
    simp [hbuf]
  · split
    · exact hback.in_order
    · exact hback.in_order
  · intro hclient _
    have hclient : c.client_closed = false := hclient
    rw [if_pos hclient]
    show k.given = p.written ++ _
    rw [hgiven, hwritten, unwritten]
    simp
  · intro hclient _
    have hclient : c.client_closed = false := hclient
    rw [if_pos hclient]
    show p.acked + 0 = p.written.length
    rw [hacked, hwritten]
    rfl
  · intro hclient _ _ _
    have hclient : c.client_closed = false := hclient
    simp [hclient]
  · intro hclosed
    exact absurd (hopen.symm.trans hclosed) (by simp)
  · show (if c.client_closed = false then { p with sent := true } else p).state = p.state
    split <;> rfl

end

/-! ## 4. Jobs -/

/-- **Every job that can happen is done.** -/
theorem effect_runJob {s : Conn} {j : Job} (h : Inv s) (he : s.JobEnabled j) :
    ∃ t, s.runJob j = some t ∧ Effect s j.endsSocks false t := by
  cases j with
  | socks event a =>
    cases event with
    | error =>
      obtain ⟨c, p, k, rfl, hopen, hsides, hto, hback⟩ := exists_of_live h he
      refine ⟨withoutSocks a c p k, ?_, effect_withoutSocks a hsides hto hback⟩
      rw [← clientFreeSocks_eq a hopen he hsides.active.mpr]
      simp [runJob, clientSocksHandler, hopen]
    | up =>
      obtain ⟨c, p, k, rfl, hopen, hsides, hto, hback⟩ := exists_of_live h he.1
      exact effect_socks_up hopen hsides hto hback he
    | errorClosed =>
      obtain ⟨c, p, k, rfl, hopen, hsides, hto, hback⟩ := exists_of_live h he.1
      have hup : c.socks_up = true := hsides.up.symm.trans he.2
      refine ⟨withoutSocks a c p k, ?_, effect_withoutSocks a hsides hto hback⟩
      rw [← clientFreeSocks_eq a hopen he.1 hsides.active.mpr]
      simp [runJob, clientSocksHandler, hopen, hup]
  | sendDone data_len a =>
    obtain ⟨c, p, k, rfl, hopen, hsides, hto, hback⟩ := exists_of_live h he.1
    exact effect_sendDone hopen hsides hto hback he
  | recvDone data a =>
    obtain ⟨c, p, k, rfl, hopen, hsides, hto, hback⟩ := exists_of_live h he.1
    exact effect_recvDone hopen hsides hto hback he

/-- A SOCKS client that is freed calls nothing. -/
theorem not_jobEnabled {s : Conn} (h : s.socks.live = false) (j : Job) : ¬ s.JobEnabled j := by
  have hdead : ¬ s.socks.live = true := by
    rw [h]
    exact Bool.false_ne_true
  cases j with
  | socks event a =>
    cases event with
    | error => exact hdead
    | up => exact fun he => hdead he.1
    | errorClosed => exact fun he => hdead he.1
  | sendDone data_len a => exact fun he => hdead he.1
  | recvDone data a => exact fun he => hdead he.1

theorem runJobs_of_dead {s : Conn} (h : s.socks.live = false) (jobs : List Job) :
    runJobs jobs s = some s := by
  induction jobs with
  | nil => rfl
  | cons j jobs ih => rw [runJobs, if_neg (not_jobEnabled h j), ih]

/-- **A row of jobs**, by induction on the row. -/
theorem effect_runJobs (jobs : List Job) {s : Conn} (h : Inv s) :
    ∃ t, runJobs jobs s = some t ∧ Effect s (jobs.any (·.endsSocks)) false t := by
  induction jobs generalizing s with
  | nil => exact ⟨s, rfl, effect_of_stays h rfl rfl⟩
  | cons j jobs ih =>
    by_cases he : s.JobEnabled j
    · obtain ⟨m, hm, hfirst⟩ := effect_runJob h he
      cases hlive : m.socks.live with
      | false =>
        -- no job comes after the one that frees SOCKS
        refine ⟨m, ?_, hfirst.inv, fun hs hs' => ?_, hfirst.closed⟩
        · rw [runJobs, if_pos he, hm]
          exact runJobs_of_dead hlive jobs
        · rcases hfirst.freed hs hs' with hends | hall
          · exact .inl (by rw [List.any_cons, hends, Bool.true_or])
          · exact .inr hall
      | true =>
        obtain ⟨t, ht, hrest⟩ := ih hfirst.inv
        refine ⟨t, ?_, hrest.inv, fun _ ht' => ?_, fun ht' => ?_⟩
        · rw [runJobs, if_pos he, hm]
          exact ht
        · rcases hrest.freed hlive ht' with hends | hall
          · exact .inl (by rw [List.any_cons, hends, Bool.or_true])
          · exact .inr hall
        · rcases hrest.closed ht' with hm' | hdone
          · rcases hfirst.closed hm' with hs | hends | ⟨hdead, -⟩
            · exact .inl hs
            · cases hends
            · exact absurd (hlive.symm.trans hdead) (by simp)
          · exact .inr hdone
    · obtain ⟨t, ht, hrest⟩ := ih h
      refine ⟨t, ?_, hrest.inv, fun hs ht' => ?_, hrest.closed⟩
      · rw [runJobs, if_neg he, ht]
      · rcases hrest.freed hs ht' with hends | hall
        · exact .inl (by rw [List.any_cons, hends, Bool.or_true])
        · exact .inr hall

/-- A client is dead when lwIP has lost it. -/
theorem clientDead_iff {s : Conn} (h : Inv s) : s.clientDead = true ↔ s.pcb.state ≠ .active := by
  obtain ⟨client, p, k⟩ := s
  cases client with
  | none => exact iff_of_true rfl h.1
  | some c =>
    have hsides : Sides c p k := h.1
    rw [clientDead, Option.all_some, Ne, hsides.active, Bool.not_eq_false]

/-- **`SYNC_COMMIT`**: the jobs are done, and `ERR_ABRT` says exactly that the `tcp_pcb` is gone. -/
theorem effect_syncCommit (jobs : List Job) {s : Conn} (h : Inv s) :
    ∃ t r, s.syncCommit jobs = some (t, r) ∧ Effect s (jobs.any (·.endsSocks)) false t ∧
      r ≠ .mem ∧ (r = .abrt ↔ t.pcb.state ≠ .active) := by
  obtain ⟨t, ht, heffect⟩ := effect_runJobs jobs h
  refine ⟨t, _, by rw [syncCommit, ht]; rfl, heffect, ?_, ?_⟩
  · split <;> simp
  · rw [← clientDead_iff heffect.inv]
    cases t.clientDead <;> simp

end Conn

end ShiroKhorshid.Tun
