/-
# What the functions that lwIP calls do to a TCP client

`client_recv_func`, `client_err_func` and `client_sent_func`, and `client_murder`.  Each of them is
`Handled` where it can be called: nothing is broken, it has its `Effect`, and what it returns tells
lwIP what has become of the `tcp_pcb` (`effect_handle`).

* **What is returned** is right in one of three ways.  A function that returns `ERR_OK` without
  running jobs leaves the `tcp_pcb` active; one that has freed or aborted the client itself returns
  `ERR_ABRT`; and one that runs jobs returns what `dead_client` tells it, which is right because the
  invariant ties the client's side to the `tcp_pcb` (`effect_syncCommit`).
* **The room for the data that comes** is in the window: what is in the buffer and what lwIP may
  still send make up `TCP_WND`, so that `client_recv_func` never answers `ERR_MEM`.
* **The jobs of a function** are run on what it has left.  So each function is taken up to its
  `SYNC_COMMIT` first, where both sides are there and the invariant holds again, and its effect is
  put together from that part and the row of jobs.

`client_murder` is for the end of the program and runs no jobs.  Which jobs there are, and what lwIP
answers on the way, comes with the event: nothing here depends on it.
-/
import ShiroKhorshid.Tun.TcpEffect

namespace ShiroKhorshid.Tun

namespace Conn

/-- The event is handled, with its effect. -/
def Handled (s : Conn) (e : Event) : Prop :=
  ∃ t r, s.handle e = some (t, r) ∧ Effect s e.endsSocks e.endsClient t ∧ Returned e t r

section

variable {c : TcpClient} {p : Pcb} {k : SocksConn}

/-! ## 1. What lwIP calls -/

/-- Data that fits is put in the buffer, and sent at once where SOCKS is up and idle; then the jobs
are run. -/
theorem clientRecvFunc_some {bs : List UInt8} {a : Answers} {jobs : List Job}
    (hclient : c.client_closed = false) (hopen : c.socks_closed = false) (hne : bs ≠ [])
    (hfits : bs.length ≤ tcpWnd - c.buf.length) (hlive : k.live = true) (hkup : k.up = c.socks_up)
    (hidle : c.buf = [] → k.sending = none) :
    clientRecvFunc (some bs) a jobs ⟨some c, p, k⟩ =
      if c.buf = [] ∧ c.socks_up = true then
        syncCommit jobs ⟨some { c with buf := c.buf ++ bs }, p, { k with sending := some bs }⟩
      else some (⟨some { c with buf := c.buf ++ bs }, p, k⟩, .ok) := by
  have hroom : ¬ tcpWnd - c.buf.length < bs.length := by omega
  by_cases hfirst : c.buf = [] ∧ c.socks_up = true
  · rw [if_pos hfirst]
    obtain ⟨hempty, hup⟩ := hfirst
    have hsmall : ¬ tcpWnd < bs.length := by
      rw [hempty, List.length_nil, Nat.sub_zero] at hroom
      exact hroom
    have hkup : k.up = true := hkup.trans hup
    simp [clientRecvFunc, hclient, hne, hsmall, hempty, hup, hopen, clientSendToSocks, senderSend,
      hlive, hkup, hidle hempty]
  · have hnot : ¬ ((c.buf ++ bs).length = bs.length ∧ c.socks_up = true) := by
      rintro ⟨hlen, hup⟩
      rw [List.length_append] at hlen
      exact hfirst ⟨List.length_eq_zero_iff.mp (by omega), hup⟩
    simp only [clientRecvFunc, Option.bind_eq_bind, Option.bind_some, hclient, Bool.not_false,
      assert_true, hne, ne_eq, not_false_eq_true, decide_true, gt_iff_lt, hroom, if_false, hnot,
      hfirst, Option.pure_def]

theorem ToSocks.idle (h : ToSocks c p k) (hempty : c.buf = []) : k.sending = none := by
  cases hk : k.sending with
  | none => rfl
  | some x =>
    obtain ⟨-, hx, hle⟩ := h.sending x hk
    rw [hempty] at hle
    exact absurd (List.prefix_nil.mp hle) hx

/-- What has come is in the buffer, and its room is taken from the window. -/
theorem ToSocks.received {bs : List UInt8} {sending : Option (List UInt8)} (h : ToSocks c p k)
    (hclient : c.client_closed = false) (hopen : c.socks_closed = false) (hne : bs ≠ [])
    (hfits : bs.length ≤ p.rcv_wnd)
    (hsending : sending = if c.buf = [] ∧ c.socks_up = true then some bs else k.sending) :
    ToSocks { c with buf := c.buf ++ bs }
      { p with rcv_wnd := p.rcv_wnd - bs.length, delivered := p.delivered ++ bs }
      { k with sending } := by
  have hwindow := h.window hclient hopen
  refine ⟨?_, fun _ _ => ?_, fun hclosed => absurd (hclient.symm.trans hclosed) (by simp),
    fun x hx => ?_, fun _ hup _ => ?_⟩
  · show p.delivered ++ bs = k.taken ++ (c.buf ++ bs)
    rw [h.bytes, List.append_assoc]
  · show p.rcv_wnd - bs.length + (c.buf ++ bs).length = tcpWnd
    rw [List.length_append]
    omega
  · have hx : sending = some x := hx
    by_cases hfirst : c.buf = [] ∧ c.socks_up = true
    · rw [hsending, if_pos hfirst] at hx
      obtain rfl := Option.some.inj hx
      refine ⟨hfirst.2, hne, ?_⟩
      show bs <+: c.buf ++ bs
      rw [hfirst.1]
      exact List.prefix_refl _
    · rw [hsending, if_neg hfirst] at hx
      obtain ⟨hup, hx', hle⟩ := h.sending x hx
      exact ⟨hup, hx', hle.trans (List.prefix_append _ _)⟩
  · show sending.isSome = true
    by_cases hfirst : c.buf = [] ∧ c.socks_up = true
    · rw [hsending, if_pos hfirst]
      rfl
    · rw [hsending, if_neg hfirst]
      exact h.busy hopen hup fun hempty => hfirst ⟨hempty, hup⟩

/-- `client_recv_func` with data finds room for it. -/
theorem effect_recv_some {bs : List UInt8} {a : Answers} {jobs : List Job}
    (hclient : c.client_closed = false) (hsides : Sides c p k) (hto : ToSocks c p k)
    (hback : ToClient c p k) (he : Enabled ⟨some c, p, k⟩ (.recv (some bs) a jobs)) :
    Handled ⟨some c, p, k⟩ (.recv (some bs) a jobs) := by
  obtain ⟨hactive, hrecv, hne, hfits⟩ := he
  have hfits : bs.length ≤ p.rcv_wnd := hfits
  have hopen : c.socks_closed = false := by
    obtain ⟨-, hset, -⟩ := hsides.callbacks hclient
    have hrecv : p.recv = true := hrecv
    rw [hrecv] at hset
    simpa using hset.symm
  have hwindow := hto.window hclient hopen
  have hhandle : clientRecvFunc (some bs) a jobs ⟨some c, { p with
      rcv_wnd := p.rcv_wnd - bs.length, delivered := p.delivered ++ bs }, k⟩ = _ :=
    clientRecvFunc_some hclient hopen hne (by omega) (hsides.live.trans (by rw [hopen]; rfl))
      hsides.up hto.idle
  have hinv : ∀ sending,
      sending = (if c.buf = [] ∧ c.socks_up = true then some bs else k.sending) →
      Inv ⟨some { c with buf := c.buf ++ bs },
        { p with rcv_wnd := p.rcv_wnd - bs.length, delivered := p.delivered ++ bs },
        { k with sending }⟩ := fun sending hsending =>
    ⟨⟨hsides.active, hsides.live, hsides.up, hsides.one_left, hsides.callbacks⟩,
      hto.received hclient hopen hne hfits hsending,
      ⟨⟨hback.down, hback.receiving, hback.in_order⟩, hback.bytes, hback.pending, hback.waiting,
        hback.asked, hback.left⟩⟩
  by_cases hfirst : c.buf = [] ∧ c.socks_up = true
  · rw [if_pos hfirst] at hhandle
    obtain ⟨t, r, hsync, heffect, hmem, habrt⟩ :=
      effect_syncCommit jobs (hinv (some bs) (if_pos hfirst).symm)
    exact ⟨t, r, hhandle.trans hsync, heffect.after_stays rfl rfl, hmem, habrt.mp,
      fun _ => habrt.mpr⟩
  · rw [if_neg hfirst] at hhandle
    refine ⟨_, .ok, hhandle, effect_of_stays (hinv k.sending (if_neg hfirst).symm) rfl rfl, ?_⟩
    exact returned_of_active _ hactive

/-- `client_recv_func` where the client has closed its side. -/
theorem effect_recv_none {a : Answers} {jobs : List Job} (hclient : c.client_closed = false)
    (hsides : Sides c p k) (hto : ToSocks c p k) (hback : ToClient c p k)
    (hactive : p.state = .active) : Handled ⟨some c, p, k⟩ (.recv none a jobs) := by
  have hgone : clientFreeClient a ⟨some c, p, k⟩ =
      some (withoutClient c (dropped p (closedBy a)) k) :=
    freeClient_eq a 1 hclient hactive hsides.live
  refine ⟨withoutClient c (dropped p (closedBy a)) k, .abrt, ?_,
    effect_withoutClient hsides.live hsides.up hto hback.toFromSocks rfl
      (dropped_closedBy_ne_active a) rfl rfl rfl fun _ => .inl rfl, ?_⟩
  · simp [handle, clientRecvFunc, hclient, hgone]
  · exact returned_abrt _ (by rw [withoutClient_pcb]; exact dropped_closedBy_ne_active a)

/-- `client_err_func` -/
theorem effect_err {a : Answers} (hclient : c.client_closed = false) (hsides : Sides c p k)
    (hto : ToSocks c p k) (hback : ToClient c p k) : Handled ⟨some c, p, k⟩ (.err a) := by
  have hgone : clientHandleFreedClient a ⟨some c, { p with state := .lost }, k⟩ =
      some (withoutClient c { p with state := .lost } k) :=
    clientHandleFreedClient_eq a hclient hsides.live
  refine ⟨withoutClient c { p with state := .lost } k, .ok, ?_,
    effect_withoutClient hsides.live hsides.up hto hback.toFromSocks rfl (by simp) rfl rfl rfl
      (by simp), returned_ok _ (by simp [Event.Tells])⟩
  simp [handle, clientErrFunc, hclient, hgone]

theorem clientSentFunc_none {len : ℕ} {a : Answers} {jobs : List Job}
    (hclient : c.client_closed = false) (hup : c.socks_up = true) (hbuf : c.socks_recv_buf = none)
    (hpos : 0 < len) (hlen : len ≤ c.socks_recv_tcp_pending) :
    clientSentFunc len a jobs ⟨some c, p, k⟩ =
      if c.socks_closed = true ∧ c.socks_recv_tcp_pending - len = 0 then
        (clientFreeClient a ⟨some { c with
          socks_recv_tcp_pending := c.socks_recv_tcp_pending - len }, p, k⟩).map (·, .abrt)
      else
        some (⟨some { c with
          socks_recv_tcp_pending := c.socks_recv_tcp_pending - len }, p, k⟩, .ok) := by
  obtain ⟨closed, buf, up, socks_closed, recv_buf, recv_sent, waiting, pending⟩ := c
  obtain rfl : closed = false := hclient
  obtain rfl : up = true := hup
  obtain rfl : recv_buf = none := hbuf
  have hlen : len ≤ pending := hlen
  simp only [clientSentFunc, Option.bind_eq_bind, Option.bind_some, Bool.not_false, assert_true,
    hpos, hlen, and_self, decide_true]
  split
  · rw [Option.map_eq_bind]
    rfl
  · rfl

theorem clientSentFunc_some {len : ℕ} {a : Answers} {jobs : List Job} {b : List UInt8}
    (hclient : c.client_closed = false) (hup : c.socks_up = true)
    (hbuf : c.socks_recv_buf = some b) (hwaiting : c.socks_recv_waiting = true)
    (hsent : c.socks_recv_buf_sent < b.length) (hpos : 0 < len)
    (hlen : len ≤ c.socks_recv_tcp_pending) :
    clientSentFunc len a jobs ⟨some c, p, k⟩ =
      (clientSocksRecvSendOut a ⟨some { c with
        socks_recv_tcp_pending := c.socks_recv_tcp_pending - len
        socks_recv_waiting := false }, p, k⟩).bind fun x =>
          if x.2 = false then some (x.1, .abrt)
          else
            x.1.client.bind fun c => (x.1.assert (c.socks_recv_tcp_pending > 0)).bind fun s =>
              if c.socks_recv_buf.isNone ∧ c.socks_closed = false then
                s.clientSocksRecvInitiate.bind fun s => s.syncCommit jobs
              else some (s, .ok) := by
  obtain ⟨closed, buf, up, socks_closed, recv_buf, recv_sent, waiting, pending⟩ := c
  obtain rfl : closed = false := hclient
  obtain rfl : up = true := hup
  obtain rfl : recv_buf = some b := hbuf
  obtain rfl : waiting = true := hwaiting
  have hlen : len ≤ pending := hlen
  have hsent : recv_sent < b.length := hsent
  simp only [clientSentFunc, Option.bind_eq_bind, Option.bind_some, Bool.not_false, assert_true,
    hpos, hlen, and_self, decide_true, hsent]
  rfl

/-- `client_sent_func` with nothing left to write -/
theorem effect_sent_none {len : ℕ} {a : Answers} {jobs : List Job}
    (hclient : c.client_closed = false) (hup : c.socks_up = true)
    (hbuf : c.socks_recv_buf = none) (hpos : 0 < len)
    (hlen : len ≤ c.socks_recv_tcp_pending) (hsides : Sides c p k) (hto : ToSocks c p k)
    (hback : ToClient c p k) :
    Handled ⟨some c, p, k⟩ (.sent len a jobs) := by
  have hactive := hsides.active.mpr hclient
  have hpending := hback.pending hclient hup
  obtain ⟨c', hc'⟩ : ∃ c', c' = { c with
    socks_recv_tcp_pending := c.socks_recv_tcp_pending - len } := ⟨_, rfl⟩
  obtain ⟨p', hp'⟩ : ∃ p', p' = { p with acked := p.acked + len } := ⟨_, rfl⟩
  have hactive' : p'.state = .active := by rw [hp']; exact hactive
  have hsides' : Sides c' p' k := by
    rw [hc', hp']
    exact ⟨hsides.active, hsides.live, hsides.up, hsides.one_left, hsides.callbacks⟩
  have hto' : ToSocks c' p' k := by
    rw [hc', hp']
    exact ⟨hto.bytes, hto.window, hto.left, hto.sending, hto.busy⟩
  have hfrom' : FromSocks c' p' k := by
    rw [hc', hp']
    exact ⟨fun h => absurd (hup.symm.trans h) (by simp), hback.receiving, hback.in_order⟩
  have hpending' : p'.acked + c'.socks_recv_tcp_pending = p'.written.length := by
    rw [hc', hp']
    show p.acked + len + (c.socks_recv_tcp_pending - len) = p.written.length
    omega
  have hbytes' : k.given = p'.written := by
    rw [hp', hback.bytes hclient hup, unwritten, hbuf]
    simp
  have hclient' : c'.client_closed = false := by rw [hc']; exact hclient
  have hnone : clientSentFunc len a jobs ⟨some c, p', k⟩ = _ :=
    clientSentFunc_none hclient hup hbuf hpos hlen
  by_cases hend : c'.socks_closed = true ∧ c'.socks_recv_tcp_pending = 0
  · have hgone : clientFreeClient a ⟨some c', p', k⟩ =
        some (withoutClient c' (dropped p' (closedBy a)) k) :=
      freeClient_eq a 1 hclient' hactive' hsides'.live
    refine ⟨withoutClient c' (dropped p' (closedBy a)) k, .abrt, ?_,
      effect_withoutClient hsides'.live hsides'.up hto' hfrom' rfl (dropped_closedBy_ne_active a)
        rfl rfl rfl fun _ => .inr ⟨hend.1, hbytes', ?_⟩,
      returned_abrt _ (by rw [withoutClient_pcb]; exact dropped_closedBy_ne_active a)⟩
    · rw [← hc', hgone, if_pos (by rw [hc'] at hend; exact hend), hp'] at hnone
      rw [hp']
      exact hnone
    · rw [hend.2] at hpending'
      exact hpending'
  · refine ⟨⟨some c', p', k⟩, .ok, ?_, effect_of_stays ⟨hsides', hto', hfrom', fun _ _ => ?_,
      fun _ _ => hpending', fun _ _ b hb => ?_, ?_, fun hclosed => ?_⟩ rfl ?_,
      returned_of_active _ hactive'⟩
    · rw [← hc', if_neg (by rw [hc'] at hend; exact hend), hp'] at hnone
      rw [hp']
      exact hnone
    · rw [hbytes', hc', unwritten, hbuf]
      simp
    · rw [hc', hbuf] at hb
      cases hb
    · rw [hc']
      exact hback.asked
    · refine ⟨by rw [hc']; exact hup, .inr ?_⟩
      by_contra hzero
      exact hend ⟨hclosed, by omega⟩
    · rw [hp']

/-- `client_sent_func` where more was waiting to be written -/
theorem effect_sent_some {len : ℕ} {a : Answers} {jobs : List Job} {b : List UInt8}
    (hclient : c.client_closed = false) (hup : c.socks_up = true)
    (hbuf : c.socks_recv_buf = some b) (hpos : 0 < len)
    (hlen : len ≤ c.socks_recv_tcp_pending) (hsides : Sides c p k) (hto : ToSocks c p k)
    (hback : ToClient c p k) :
    Handled ⟨some c, p, k⟩ (.sent len a jobs) := by
  have hactive := hsides.active.mpr hclient
  have hpending := hback.pending hclient hup
  obtain ⟨hwaiting, hsent, -⟩ := hback.waiting hclient hup b hbuf
  have hreceiving := not_receiving hback hbuf
  obtain ⟨c', hc'⟩ : ∃ c', c' = { c with
    socks_recv_tcp_pending := c.socks_recv_tcp_pending - len
    socks_recv_waiting := false } := ⟨_, rfl⟩
  obtain ⟨p', hp'⟩ : ∃ p', p' = { p with acked := p.acked + len } := ⟨_, rfl⟩
  have hsides' : Sides c' p' k := by
    rw [hc', hp']
    exact ⟨hsides.active, hsides.live, hsides.up, hsides.one_left, hsides.callbacks⟩
  have hto' : ToSocks c' p' k := by
    rw [hc', hp']
    exact ⟨hto.bytes, hto.window, hto.left, hto.sending, hto.busy⟩
  have hkeeps := sendOut_keeps a (c := c') (p := p') (k := k) (b := b) (by rw [hc']; exact hclient)
    (by rw [hc']; exact hup) (by rw [hc']; exact hbuf) (by rw [hc']; exact hsent) (by rw [hc'])
    hsides' hto' hreceiving (by rw [hc', hp']; exact hback.bytes hclient hup) (by
      rw [hc', hp']
      show p.acked + len + (c.socks_recv_tcp_pending - len) = p.written.length
      omega)
  have hhandle : handle ⟨some c, p, k⟩ (.sent len a jobs) =
      (clientSocksRecvSendOut a ⟨some c', p', k⟩).bind fun x =>
        if x.2 = false then some (x.1, .abrt)
        else
          x.1.client.bind fun c => (x.1.assert (c.socks_recv_tcp_pending > 0)).bind fun s =>
            if c.socks_recv_buf.isNone ∧ c.socks_closed = false then
              s.clientSocksRecvInitiate.bind fun s => s.syncCommit jobs
            else some (s, .ok) := by
    rw [hc', hp']
    exact clientSentFunc_some hclient hup hbuf hwaiting hsent hpos hlen
  rcases hkeeps with ⟨d, q, hout, hlive, hkup, hto'', hfrom''⟩ |
      ⟨d, q, hout, hdclient, hdup, -, hdpos, hsides'', hto'', hback''⟩
  · exact ⟨withoutClient d (dropped q .aborted) k, .abrt, by rw [hhandle, hout]; rfl,
      effect_withoutClient hlive hkup hto'' hfrom'' rfl (by simp [dropped]) rfl rfl rfl
        (by simp [dropped]), returned_abrt _ (by simp [dropped])⟩
  · have hqactive : q.state = .active := hsides''.active.mpr hdclient
    obtain ⟨k', hlive, hinv, hask, hnot⟩ :=
      receives_on hdclient hdup hreceiving hsides'' hto'' hback''
    have hstate : q.state = p.state := hqactive.trans hactive.symm
    by_cases hmore : d.socks_recv_buf = none ∧ d.socks_closed = false
    · obtain ⟨t, r, hsync, heffect, hmem, habrt⟩ := effect_syncCommit jobs hinv
      refine ⟨t, r, ?_, heffect.after_stays hlive hstate, hmem, habrt.mp, fun _ => habrt.mpr⟩
      rw [hhandle, hout]
      simp [hdpos, hmore.1, hmore.2, hask hmore, hsync]
    · have hmore' : ¬ (d.socks_recv_buf.isNone = true ∧ d.socks_closed = false) := by
        rw [Option.isNone_iff_eq_none]
        exact hmore
      refine ⟨⟨some d, q, k'⟩, .ok, ?_, effect_of_stays hinv hlive hstate,
        returned_of_active _ hqactive⟩
      rw [hhandle, hout]
      simp only [Option.bind_some, hdpos, decide_true, assert_true, gt_iff_lt, hnot hmore]
      rw [if_neg (by simp), if_neg hmore']

/-- `client_sent_func` -/
theorem effect_sent {len : ℕ} {a : Answers} {jobs : List Job} (hclient : c.client_closed = false)
    (hsides : Sides c p k) (hto : ToSocks c p k) (hback : ToClient c p k)
    (he : Enabled ⟨some c, p, k⟩ (.sent len a jobs)) :
    Handled ⟨some c, p, k⟩ (.sent len a jobs) := by
  obtain ⟨-, hset, hpos, hfits⟩ := he
  have hfits : p.acked + len ≤ p.written.length := hfits
  have hup : c.socks_up = true := (hsides.callbacks hclient).2.2.symm.trans hset
  have hpending := hback.pending hclient hup
  have hlen : len ≤ c.socks_recv_tcp_pending := by omega
  cases hbuf : c.socks_recv_buf with
  | none => exact effect_sent_none hclient hup hbuf hpos hlen hsides hto hback
  | some b => exact effect_sent_some hclient hup hbuf hpos hlen hsides hto hback

/-! ## 2. Every event -/

theorem clientMurder_eq (hsides : Sides c p k) :
    clientMurder ⟨some c, p, k⟩ = some ⟨none,
      if c.client_closed = false then dropped p .aborted else p,
      if c.socks_closed = false then freedSocks k else k⟩ := by
  have hactive := hsides.active
  have hlive := hsides.live
  obtain ⟨closed, buf, up, socks_closed, recv_buf, recv_sent, waiting, pending⟩ := c
  have hsocks : socks_closed = false → k.live = true := fun h => by
    rw [hlive, h]
    rfl
  cases closed
  · have hp : p.state = .active := hactive.mpr rfl
    cases socks_closed
    · simp [clientMurder, removeCallbacks, tcpAbort, hp, bSocksClientFree_eq, hsocks rfl, dropped,
        clientDealloc]
    · simp [clientMurder, removeCallbacks, tcpAbort, hp, dropped, clientDealloc]
  · cases socks_closed
    · simp [clientMurder, bSocksClientFree_eq, hsocks rfl, clientDealloc]
    · simp [clientMurder, clientDealloc]

/-- `client_murder` -/
theorem effect_murder (hsides : Sides c p k) (hto : ToSocks c p k) (hback : ToClient c p k) :
    Handled ⟨some c, p, k⟩ .murder := by
  refine ⟨_, .ok, congrArg (Option.map (·, ErrT.ok)) (clientMurder_eq hsides), ?_,
    returned_ok _ (by simp [Event.Tells])⟩
  refine ⟨⟨?_, ?_, ?_, ?_⟩, fun _ _ => .inl rfl, fun h => ?_⟩
  · by_cases hclient : c.client_closed = false
    · simp [hclient, dropped]
    · simpa [hclient] using fun h => hclient (hsides.active.mp h)
  · by_cases hopen : c.socks_closed = false
    · simp [hopen, freedSocks]
    · have hlive := hsides.live
      rw [Bool.not_eq_false] at hopen
      simpa [hopen] using hlive
  · have htaken := hto.taken_in_order
    by_cases hclient : c.client_closed = false <;> by_cases hopen : c.socks_closed = false <;>
      simpa [hclient, hopen, dropped, freedSocks] using htaken
  · have horder := hback.in_order
    by_cases hclient : c.client_closed = false <;> by_cases hopen : c.socks_closed = false <;>
      simpa [hclient, hopen, dropped, freedSocks] using horder
  · by_cases hclient : c.client_closed = false
    · simp [hclient, dropped] at h
    · rw [if_neg hclient] at h
      exact .inl h

end

/-- **Every event that can happen is handled.** -/
theorem effect_handle {s : Conn} {e : Event} (h : Inv s) (he : s.Enabled e) : Handled s e := by
  cases e with
  | recv bs a jobs =>
    cases bs with
    | none =>
      obtain ⟨c, p, k, rfl, hclient, hsides, hto, hback⟩ := exists_of_active h he.1
      exact effect_recv_none hclient hsides hto hback he.1
    | some bs =>
      obtain ⟨c, p, k, rfl, hclient, hsides, hto, hback⟩ := exists_of_active h he.1
      exact effect_recv_some hclient hsides hto hback he
  | err a =>
    obtain ⟨c, p, k, rfl, hclient, hsides, hto, hback⟩ := exists_of_active h he.1
    exact effect_err hclient hsides hto hback
  | sent len a jobs =>
    obtain ⟨c, p, k, rfl, hclient, hsides, hto, hback⟩ := exists_of_active h he.1
    exact effect_sent hclient hsides hto hback he
  | job j =>
    obtain ⟨t, ht, heffect⟩ := effect_runJob h he
    exact ⟨t, .ok, congrArg (Option.map (·, ErrT.ok)) ht, heffect,
      returned_ok t (by simp [Event.Tells])⟩
  | murder =>
    obtain ⟨client, p, k⟩ := s
    cases client with
    | none => exact absurd he (by simp [Enabled])
    | some c => exact effect_murder h.1 h.2.1 h.2.2

end Conn

end ShiroKhorshid.Tun
