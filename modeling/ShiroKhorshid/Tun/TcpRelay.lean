/-
# Both sides of a TCP connection go down in order

Whatever lwIP and the SOCKS client do, and in whatever order, the functions of a `tcp_client` never
break one of their assertions, never use what is freed or closed, and never start an operation
twice (`relay_safe`): a client is freed once both of its sides are, and from then on nothing is set
that would call it.  What is sent to SOCKS is what the client has sent, in order, and the other way
round; and while the client is there nothing of it is lost (`relay_run`).

A side that is closed without an error has passed everything on: the SOCKS client is only freed when
all bytes of the client are sent, and lwIP is only told to close when the client has confirmed
everything that came from SOCKS, unless the client was the one to close (`relay_close`).  lwIP is
told by `ERR_ABRT` that the `tcp_pcb` is gone, also where that happened in a job the function has
run.

All three are read off one invariant, `Inv`, which holds along every run (`inv_run`) because every
event that can happen keeps it (`effect_handle`).  The answers of lwIP and the jobs come with the
events, so that the runs are those of every lwIP and every SOCKS client; that these behave as
`Enabled` says is assumed of them.
-/
import ShiroKhorshid.Tun.TcpHandlers

namespace ShiroKhorshid.Tun

open Transition

namespace Conn

theorem inv_listenerAcceptFunc (memory : TcpClient) : Inv (listenerAcceptFunc memory) :=
  ⟨⟨by simp [listenerAcceptFunc], rfl, rfl, .inl rfl, fun _ => ⟨rfl, rfl, rfl⟩⟩,
    ⟨rfl, fun _ _ => rfl, by simp, by simp [listenerAcceptFunc], by simp⟩,
    ⟨⟨fun _ => ⟨rfl, rfl, rfl, rfl⟩, by simp [listenerAcceptFunc], List.prefix_refl _⟩, by simp,
      by simp, by simp, by simp, by simp⟩⟩

theorem inv_run {memory : TcpClient} {es : List Event} {s : Conn}
    (hrun : Run step Enabled (listenerAcceptFunc memory) es s) : Inv s := by
  refine hrun.invariant (inv_listenerAcceptFunc memory) fun s e t hinv he hstep => ?_
  obtain ⟨t', r, hhandle, heffect, -⟩ := effect_handle hinv he
  rw [step, hhandle] at hstep
  obtain rfl := Option.some.inj hstep
  exact heffect.inv

end Conn

/-- SOCKS closes while the client still has to confirm two bytes, and one is not written. -/
def Conn.halfClosedRun : List Conn.Event :=
  [.recv (some [1, 2]) ⟨[], .ok, .ok⟩ [], .job (.socks .up ⟨[], .ok, .ok⟩),
    .job (.sendDone 2 ⟨[], .ok, .ok⟩), .job (.recvDone [7, 8, 9] ⟨[(2, .ok)], .ok, .ok⟩),
    .job (.socks .errorClosed ⟨[], .ok, .ok⟩), .sent 2 ⟨[(5, .ok)], .ok, .ok⟩ []]

/-- What is in the memory of the client before. -/
def Conn.halfClosedMemory : TcpClient := ⟨true, [3], true, true, some [4], 5, true, 6⟩

/-- **The client is safe.**  Along any run, whatever happens and whatever lwIP answers: every event
that can happen is handled without a broken assertion; nothing can call a client that is freed; and
a client that has lost one side has an operation under way on the other, or waits for SOCKS to come
up, so that it is not kept for nothing. -/
theorem relay_safe {memory : TcpClient} {es : List Conn.Event} {s : Conn}
    (hrun : Run Conn.step Conn.Enabled (Conn.listenerAcceptFunc memory) es s) :
    (∀ e, s.Enabled e → (s.handle e).isSome) ∧
      (s.client = none → ∀ e, ¬ s.Enabled e) ∧
      ∀ c, s.client = some c →
        (c.client_closed = true → s.socks.live = true ∧ c.buf ≠ [] ∧
          (s.socks.up = true → s.socks.sending.isSome)) ∧
        (c.socks_closed = true → s.pcb.state = .active ∧ s.pcb.acked < s.pcb.written.length) := by
  have hinv := Conn.inv_run hrun
  refine ⟨fun e he => ?_, fun hnone e he => ?_, fun c hc => ?_⟩
  · obtain ⟨t, r, hhandle, -⟩ := Conn.effect_handle hinv he
    rw [hhandle]
    rfl
  · obtain ⟨client, p, k⟩ := s
    obtain rfl : client = none := hnone
    obtain ⟨hstate, hlive, -⟩ := hinv
    cases e with
    | recv bs a jobs => cases bs <;> exact hstate he.1
    | err a => exact hstate he.1
    | sent len a jobs => exact hstate he.1
    | job j => exact Conn.not_jobEnabled hlive j he
    | murder => exact absurd he (by simp [Conn.Enabled])
  · obtain ⟨client, p, k⟩ := s
    obtain rfl : client = some c := hc
    obtain ⟨hsides, hto, hback⟩ := hinv
    constructor
    · intro hclosed
      have hopen : c.socks_closed = false := by
        rcases hsides.one_left with h | h
        · exact absurd (hclosed.symm.trans h) (by simp)
        · exact h
      have hbuf := hto.left hclosed
      refine ⟨?_, hbuf, fun hup => hto.busy hopen (hsides.up.symm.trans hup) hbuf⟩
      show k.live = true
      rw [hsides.live, hopen]
      rfl
    · intro hclosed
      have hclient : c.client_closed = false := by
        rcases hsides.one_left with h | h
        · exact h
        · exact absurd (hclosed.symm.trans h) (by simp)
      obtain ⟨hup, hmore⟩ := hback.left hclosed
      have hpending : p.acked + c.socks_recv_tcp_pending = p.written.length :=
        hback.pending hclient hup
      have hpos : 0 < c.socks_recv_tcp_pending := by
        rcases hmore with hsome | hpos
        · obtain ⟨b, hb⟩ := Option.isSome_iff_exists.mp hsome
          exact (hback.waiting hclient hup b hb).2.2
        · exact hpos
      refine ⟨hsides.active.mpr hclient, ?_⟩
      show p.acked < p.written.length
      omega

theorem relay_safe_half_closed :
    ∃ s, Run Conn.step Conn.Enabled (Conn.listenerAcceptFunc Conn.halfClosedMemory)
        Conn.halfClosedRun s ∧
      ∀ e, s.Enabled e → (s.handle e).isSome := by
  obtain ⟨s, hs⟩ := Option.isSome_iff_exists.mp (by decide +kernel : (execIf Conn.step Conn.Enabled
    (Conn.listenerAcceptFunc Conn.halfClosedMemory) Conn.halfClosedRun).isSome)
  have hrun := run_of_execIf hs
  exact ⟨s, hrun, (relay_safe hrun).1⟩

/-- **Nothing is lost or reordered.**  Along any run SOCKS has sent the first bytes of the client,
and lwIP was given the first bytes of SOCKS.  While the client is there its buffer holds what SOCKS
has not sent yet, and with the window of lwIP makes up `TCP_WND`, so that there is room for all that
can come; and while its side is open, its other buffer ends with what lwIP was not given yet. -/
theorem relay_run {memory : TcpClient} {es : List Conn.Event} {s : Conn}
    (hrun : Run Conn.step Conn.Enabled (Conn.listenerAcceptFunc memory) es s) :
    s.socks.taken <+: s.pcb.delivered ∧ s.pcb.written <+: s.socks.given ∧
      ∀ c, s.client = some c →
        s.pcb.delivered = s.socks.taken ++ c.buf ∧
        (c.client_closed = false → c.socks_closed = false →
          s.pcb.rcv_wnd + c.buf.length = tcpWnd) ∧
        (c.client_closed = false → c.socks_up = true →
          s.socks.given = s.pcb.written ++ Conn.unwritten c ∧
          s.pcb.acked + c.socks_recv_tcp_pending = s.pcb.written.length) := by
  have hinv := Conn.inv_run hrun
  obtain ⟨client, p, k⟩ := s
  cases client with
  | none =>
    obtain ⟨-, -, htaken, hwritten⟩ := hinv
    exact ⟨htaken, hwritten, fun c hc => by cases hc⟩
  | some c =>
    obtain ⟨-, hto, hback⟩ := hinv
    refine ⟨hto.taken_in_order, hback.in_order, fun d hd => ?_⟩
    obtain rfl := Option.some.inj hd
    exact ⟨hto.bytes, hto.window, fun hclient hup =>
      ⟨hback.bytes hclient hup, hback.pending hclient hup⟩⟩

theorem relay_run_half_closed :
    ∃ s, Run Conn.step Conn.Enabled (Conn.listenerAcceptFunc Conn.halfClosedMemory)
        Conn.halfClosedRun s ∧
      s.socks.taken <+: s.pcb.delivered ∧ s.pcb.written <+: s.socks.given := by
  obtain ⟨s, hs⟩ := Option.isSome_iff_exists.mp (by decide +kernel : (execIf Conn.step Conn.Enabled
    (Conn.listenerAcceptFunc Conn.halfClosedMemory) Conn.halfClosedRun).isSome)
  have hrun := run_of_execIf hs
  obtain ⟨htaken, hwritten, -⟩ := relay_run hrun
  exact ⟨s, hrun, htaken, hwritten⟩

/-- **A side is only closed when it is done.**  The SOCKS client is freed when it reports its end,
or else when it has sent all that the client has given it.  lwIP is told to close when the client
has closed its side, or else when the client has confirmed all that SOCKS has given.  And lwIP is
told that the `tcp_pcb` is gone exactly when it is, also where a job has brought the client down,
and never that there is no room. -/
theorem relay_close {memory : TcpClient} {es : List Conn.Event} {s : Conn}
    (hrun : Run Conn.step Conn.Enabled (Conn.listenerAcceptFunc memory) es s) {e : Conn.Event}
    (he : s.Enabled e) {t : Conn} {r : ErrT} (hhandle : s.handle e = some (t, r)) :
    (s.socks.live = true → t.socks.live = false →
        e.endsSocks = true ∨ t.socks.taken = t.pcb.delivered) ∧
      (s.pcb.state = .active → t.pcb.state = .closed →
        e.endsClient = true ∨
          (t.socks.given = t.pcb.written ∧ t.pcb.acked = t.pcb.written.length)) ∧
      r ≠ .mem ∧ (r = .abrt → t.pcb.state ≠ .active) ∧
      (e.Tells → t.pcb.state ≠ .active → r = .abrt) ∧
      ∀ jobs, ∃ t r, Conn.listenerAccepted memory jobs = some (t, r) ∧
        (r = .abrt ↔ t.pcb.state ≠ .active) := by
  obtain ⟨t', r', hhandle', heffect, hreturned⟩ := Conn.effect_handle (Conn.inv_run hrun) he
  obtain ⟨rfl, rfl⟩ := Prod.mk.inj (Option.some.inj (hhandle'.symm.trans hhandle))
  refine ⟨heffect.freed, fun hactive hclosed => ?_, hreturned.room, hreturned.gone, hreturned.told,
    fun jobs => ?_⟩
  · rcases heffect.closed hclosed with hbefore | hends | ⟨-, hdone⟩
    · exact absurd (hactive.symm.trans hbefore) (by simp)
    · exact .inl hends
    · exact .inr hdone
  · obtain ⟨t, r, hsync, -, -, habrt⟩ :=
      Conn.effect_syncCommit jobs (Conn.inv_listenerAcceptFunc memory)
    exact ⟨t, r, hsync, habrt⟩

/-- SOCKS closes in a job of `client_recv_func`, which has just put a byte in the buffer. -/
theorem relay_close_dead :
    let a : Answers := ⟨[], .ok, .ok⟩
    let e : Conn.Event := .recv (some [1]) a [.socks .errorClosed a]
    ∃ s t r, Run Conn.step Conn.Enabled (Conn.listenerAcceptFunc Conn.halfClosedMemory)
        [.job (.socks .up a)] s ∧
      s.handle e = some (t, r) ∧ (r = .abrt → t.pcb.state ≠ .active) ∧ r = .abrt := by
  intro a e
  obtain ⟨s, hs⟩ := Option.isSome_iff_exists.mp (by decide +kernel : (execIf Conn.step Conn.Enabled
    (Conn.listenerAcceptFunc Conn.halfClosedMemory) [.job (.socks .up a)]).isSome)
  have hall : ((execIf Conn.step Conn.Enabled (Conn.listenerAcceptFunc Conn.halfClosedMemory)
      [.job (.socks .up a)]).all fun s => decide (s.Enabled e) &&
        decide ((s.handle e).map Prod.snd = some .abrt)) = true := by decide +kernel
  rw [hs, Option.all_some, Bool.and_eq_true, decide_eq_true_eq, decide_eq_true_eq] at hall
  obtain ⟨⟨t, r⟩, hhandle, rfl⟩ := Option.map_eq_some_iff.mp hall.2
  have hrun := run_of_execIf hs
  obtain ⟨-, -, -, hgone, -⟩ := relay_close hrun hall.1 hhandle
  exact ⟨s, t, _, hrun, hhandle, hgone, rfl⟩

end ShiroKhorshid.Tun
