/-
# Runs of the udpgw system

What holds along any run of the client and the gateway, from no connections on: every event that can
happen has its `Effect`, so each result here is an induction on the run that keeps one level of the
invariant, and an evaluation of what a state at that level says.

* `udpgw_run` is what holds whatever happens, also where packets are lost, sockets fail and the
  server goes away in the middle of a packet.
* `udpgw_isolation` is about what leaves the gateway.  Its condition is on the client's side: a
  packet that binds a connection to another pair must find room in its buffer, since it is the only
  one to say so.  Where it is dropped, the gateway still has the old pair, and the next packet, if
  it is for the same remote address, goes out on the socket of that pair.
* `udpgw_replies` is about what comes back to the user.  A reply carries the number of a connection
  and a remote address, but no local one; so it needs more: that there are never more pairs than
  connections.  With more, a reply on its way may find its connection bound to another pair of the
  same remote address.

The condition of each is a condition on the events of the run, read off the state before each.  It
is not claimed that the conditions are necessary, nor that a datagram which is sent arrives.
-/
import ShiroKhorshid.Lib.Fifo
import ShiroKhorshid.Tun.UdpGwEffect

namespace ShiroKhorshid.Tun

open Transition Udpgw

namespace UdpGwSystem

variable {s : UdpGwSystem}

/-! ## 1. From the start -/

theorem effect_step (h : Inv s) {e : Event} {t : UdpGwSystem} (hstep : s.step e = some t) :
    Effect s e t (s.datagrams e) (s.deliveries e) := by
  rw [step] at hstep
  split at hstep
  · obtain ⟨t', out, dels, hsome, heffect⟩ := effect_handle h (by assumption)
    rw [hsome] at hstep
    obtain rfl := Option.some.inj hstep
    have hout : s.datagrams e = out ∧ s.deliveries e = dels := by
      rw [datagrams, deliveries, hsome]
      exact ⟨rfl, rfl⟩
    rw [hout.1, hout.2]
    exact heffect
  · cases hstep

theorem inv_init {udp_mtu max_connections gw_mtu gw_max : ℕ} (hmax : 0 < max_connections)
    (hgw : 0 < gw_max) : Inv (init udp_mtu max_connections gw_mtu gw_max) :=
  ⟨UdpGwClient.table_init hmax, Client.sound_init hgw, fun p hp => (by cases hp),
    fun r hr => (by cases hr), fun k hk => (by cases hk), fun _ => ⟨rfl, rfl⟩⟩

theorem bound_init {udp_mtu max_connections gw_mtu gw_max : ℕ} (hmtu : udp_mtu ≤ gw_mtu) :
    Bound (init udp_mtu max_connections gw_mtu gw_max) :=
  ⟨hmtu, fun c hc => (by cases hc), fun c hc => (by cases hc), fun c hc => (by cases hc)⟩

theorem exact_init {udp_mtu max_connections gw_mtu gw_max : ℕ} :
    Exact (init udp_mtu max_connections gw_mtu gw_max) :=
  ⟨fun c hc => (by cases hc), fun p hp => (by cases hp), fun k hk => (by cases hk),
    fun r hr => (by cases hr)⟩

/-- What has been given to the sockets stays true of them. -/
theorem fixed_datagram {e : Event} {t : UdpGwSystem} {out : List Datagram} {dels : List Delivery}
    (heffect : Effect s e t out dels) {g : Datagram} (hg : g.socket < s.server.next) :
    g.socket < t.server.next ∧
      (t.server.connection g.socket).addr = (s.server.connection g.socket).addr ∧
      (t.server.connection g.socket).orig_addr = (s.server.connection g.socket).orig_addr ∧
      (t.server.connection g.socket).owner = (s.server.connection g.socket).owner :=
  ⟨hg.trans_le heffect.next_le, heffect.fixed _ hg⟩

/-- A run in which the only connection is bound to another local address, and a datagram comes back.
-/
def rebindRun : List Event :=
  let first : Conaddr := ⟨.ipv4 1 1, .ipv4 9 53⟩
  let second : Conaddr := ⟨.ipv4 2 1, .ipv4 9 53⟩
  [.connect, .submit first false [1] true .done, .firstJob true, .clientTake 0, .clientDone,
    .serverRecv none true true, .serverFirstJob true, .submit second false [2] true .done,
    .clientTake 0, .clientDone, .serverRecv none true true, .serverFirstJob true,
    .udpRecv 1 [3] true, .serverTake 1, .clientRecv, .serverDone]

/-- A run in which two pairs have a connection each, and the gateway keeps one at a time. -/
def twoPairsRun : List Event :=
  let first : Conaddr := ⟨.ipv4 1 1, .ipv4 9 53⟩
  let second : Conaddr := ⟨.ipv4 2 1, .ipv4 9 53⟩
  [.connect, .submit first false [1] true .done, .firstJob true, .clientTake 0, .clientDone,
    .serverRecv none true true, .serverFirstJob true, .udpRecv 0 [3] true, .serverTake 0,
    .submit second false [2] true .done, .firstJob true, .clientTake 1, .clientDone,
    .serverRecv none true true, .serverFirstJob true, .serverDone, .clientRecv]

end UdpGwSystem

/-! ## 2. Any run -/

/-- **The two ends work together.**  Along any run, whatever is lost, refused or disconnected: no
assertion of either end fails; the client's connections have different numbers and different pairs
and the gateway's have different numbers; only the connection whose packet is being sent waits to be
freed; a socket sends to one address only, on behalf of one remote address; and what the client
passes to the user as coming from a remote address was received for that address. -/
theorem udpgw_run {udp_mtu max_connections gw_mtu gw_max : ℕ} (hmax : 0 < max_connections)
    (hgw : 0 < gw_max) {es : List UdpGwSystem.Event} {s : UdpGwSystem}
    (hrun : exec UdpGwSystem.step (.init udp_mtu max_connections gw_mtu gw_max) es = some s) :
    (∀ e, s.Enabled e → (s.handle e).isSome) ∧
      (s.client.connections_list.map fun c => (s.client.connection c).conaddr).Nodup ∧
      (s.server.connections_list.map fun k => (s.server.connection k).conid).Nodup ∧
      (∀ k ∈ s.server.closing_connections_list, s.server.sending = some k) ∧
      (∀ g ∈ Fifo.collect UdpGwSystem.step UdpGwSystem.datagrams
          (.init udp_mtu max_connections gw_mtu gw_max) es,
        g.addr = (s.server.connection g.socket).addr ∧
        g.conaddr.remote_addr = (s.server.connection g.socket).orig_addr) ∧
      ∀ d ∈ Fifo.collect UdpGwSystem.step UdpGwSystem.deliveries
          (.init udp_mtu max_connections gw_mtu gw_max) es,
        d.conaddr.remote_addr = d.owner.remote_addr := by
  have hinit := @UdpGwSystem.inv_init udp_mtu max_connections gw_mtu gw_max hmax hgw
  have hout : s.Inv ∧ ∀ g ∈ Fifo.collect UdpGwSystem.step UdpGwSystem.datagrams
      (.init udp_mtu max_connections gw_mtu gw_max) es, g.socket < s.server.next ∧
        g.addr = (s.server.connection g.socket).addr ∧
        g.conaddr.remote_addr = (s.server.connection g.socket).orig_addr := by
    refine @Fifo.collect_invariant _ _ _ UdpGwSystem.step _
      (fun (s : UdpGwSystem) (l : List Datagram) =>
      s.Inv ∧ ∀ g ∈ l,
      g.socket < s.server.next ∧ g.addr = (s.server.connection g.socket).addr ∧
        g.conaddr.remote_addr = (s.server.connection g.socket).orig_addr) _ _ _ _ (run_of_exec hrun)
      ⟨hinit, by simp⟩ ?_
    rintro s l e t ⟨hinv, hold⟩ - hstep
    have heffect := UdpGwSystem.effect_step hinv hstep
    refine ⟨heffect.inv, fun g hg => ?_⟩
    rcases List.mem_append.mp hg with hg | hg
    · obtain ⟨hlt, haddr, horig⟩ := hold g hg
      obtain ⟨hlt', haddr', horig', -⟩ := UdpGwSystem.fixed_datagram heffect hlt
      exact ⟨hlt', haddr'.symm ▸ haddr, horig'.symm ▸ horig⟩
    · exact heffect.out_fixed g hg
  have hdels := @Fifo.forall_mem_collect _ _ _ UdpGwSystem.step UdpGwSystem.Inv
    (fun d => d.conaddr.remote_addr = d.owner.remote_addr) UdpGwSystem.deliveries
    (fun s e t hinv hstep => ⟨(UdpGwSystem.effect_step hinv hstep).inv,
      (UdpGwSystem.effect_step hinv hstep).dels_remote⟩) _ _ hinit es hrun
  obtain ⟨hinv, hout⟩ := hout
  refine ⟨fun e he => ?_, ?_, ?_, fun k hk => (hinv.sound.closing k hk).1,
    fun g hg => (hout g hg).2, hdels⟩
  · obtain ⟨t, out, dels, hsome, -⟩ := UdpGwSystem.effect_handle hinv he
    rw [hsome]
    rfl
  · exact List.Nodup.map_on (fun c hc d hd => hinv.table.conaddr_inj c hc d hd) hinv.table.nodup
  · exact List.Nodup.map_on (fun k hk l hl => hinv.sound.conid_inj k hk l hl) hinv.sound.nodup

theorem udpgw_run_rebind : ∃ s, exec UdpGwSystem.step (.init 100 1 100 1) UdpGwSystem.rebindRun =
    some s ∧ ∀ e, s.Enabled e → (s.handle e).isSome := by
  obtain ⟨s, hs⟩ := Option.isSome_iff_exists.mp
    (show (exec UdpGwSystem.step (.init 100 1 100 1) UdpGwSystem.rebindRun).isSome = true by
      decide +kernel)
  exact ⟨s, hs, (udpgw_run (by decide) (by decide) hs).1⟩

/-- **A socket of the gateway is never shared.**  Where the gateway takes packets as large as the
client does, and every packet that binds a connection to another pair finds room in its buffer, what
a socket sends was all submitted for one pair of addresses, and goes to one address. -/
theorem udpgw_isolation {udp_mtu max_connections gw_mtu gw_max : ℕ} (hmax : 0 < max_connections)
    (hgw : 0 < gw_max) (hmtu : udp_mtu ≤ gw_mtu) {es : List UdpGwSystem.Event} {s : UdpGwSystem}
    (hrun : Run UdpGwSystem.step UdpGwSystem.Tells (.init udp_mtu max_connections gw_mtu gw_max)
      es s) :
    ∀ g ∈ Fifo.collect UdpGwSystem.step UdpGwSystem.datagrams
        (.init udp_mtu max_connections gw_mtu gw_max) es,
      ∀ g' ∈ Fifo.collect UdpGwSystem.step UdpGwSystem.datagrams
        (.init udp_mtu max_connections gw_mtu gw_max) es,
      g.socket = g'.socket → g.conaddr = g'.conaddr ∧ g.addr = g'.addr := by
  have hout : s.Inv ∧ s.Bound ∧ ∀ g ∈ Fifo.collect UdpGwSystem.step UdpGwSystem.datagrams
      (.init udp_mtu max_connections gw_mtu gw_max) es, g.socket < s.server.next ∧
        g.addr = (s.server.connection g.socket).addr ∧
        g.conaddr = (s.server.connection g.socket).owner := by
    refine @Fifo.collect_invariant _ _ _ UdpGwSystem.step _
      (fun (s : UdpGwSystem) (l : List Datagram) =>
      s.Inv ∧ s.Bound ∧ ∀ g ∈ l,
      g.socket < s.server.next ∧ g.addr = (s.server.connection g.socket).addr ∧
        g.conaddr = (s.server.connection g.socket).owner) _ _ _ _ hrun
      ⟨UdpGwSystem.inv_init hmax hgw, UdpGwSystem.bound_init hmtu, by simp⟩ ?_
    rintro s l e t ⟨hinv, hbound, hold⟩ htells hstep
    have heffect := UdpGwSystem.effect_step hinv hstep
    obtain ⟨hbound', hnew⟩ := heffect.bound hbound htells
    refine ⟨heffect.inv, hbound', fun g hg => ?_⟩
    rcases List.mem_append.mp hg with hg | hg
    · obtain ⟨hlt, haddr, howner⟩ := hold g hg
      obtain ⟨hlt', haddr', -, howner'⟩ := UdpGwSystem.fixed_datagram heffect hlt
      exact ⟨hlt', haddr'.symm ▸ haddr, howner'.symm ▸ howner⟩
    · obtain ⟨hlt, haddr, -⟩ := heffect.out_fixed g hg
      exact ⟨hlt, haddr, hnew g hg⟩
  intro g hg g' hg' heq
  obtain ⟨-, haddr, howner⟩ := hout.2.2 g hg
  obtain ⟨-, haddr', howner'⟩ := hout.2.2 g' hg'
  rw [howner, howner', haddr, haddr', heq]
  exact ⟨rfl, rfl⟩

theorem udpgw_isolation_rebind :
    ∃ s, Run UdpGwSystem.step UdpGwSystem.Tells (.init 100 1 100 1) UdpGwSystem.rebindRun s ∧
      ∀ g ∈ Fifo.collect UdpGwSystem.step UdpGwSystem.datagrams (.init 100 1 100 1)
          UdpGwSystem.rebindRun,
        ∀ g' ∈ Fifo.collect UdpGwSystem.step UdpGwSystem.datagrams (.init 100 1 100 1)
            UdpGwSystem.rebindRun,
          g.socket = g'.socket → g.conaddr = g'.conaddr ∧ g.addr = g'.addr := by
  obtain ⟨s, hs⟩ := Option.isSome_iff_exists.mp (show (execIf UdpGwSystem.step UdpGwSystem.Tells
    (.init 100 1 100 1) UdpGwSystem.rebindRun).isSome = true by decide +kernel)
  have hrun := run_of_execIf hs
  exact ⟨s, hrun, udpgw_isolation (by decide) (by decide) (by decide) hrun⟩

/-- **Each reply reaches the pair it is for**, where no more pairs are used than the client may have
connections: what the client passes to the user comes from a connection of the gateway that was
opened for the same pair. -/
theorem udpgw_replies {udp_mtu max_connections gw_mtu gw_max : ℕ} (hmax : 0 < max_connections)
    (hgw : 0 < gw_max) {pairs : List Conaddr} (hfew : pairs.length ≤ min max_connections 65536)
    {es : List UdpGwSystem.Event} (hpairs : ∀ e ∈ es, ∀ a ∈ e.pair, a ∈ pairs)
    {s : UdpGwSystem}
    (hrun : exec UdpGwSystem.step (.init udp_mtu max_connections gw_mtu gw_max) es = some s) :
    ∀ d ∈ Fifo.collect UdpGwSystem.step UdpGwSystem.deliveries
        (.init udp_mtu max_connections gw_mtu gw_max) es, d.conaddr = d.owner := by
  obtain ⟨hrun', -⟩ := @run_of_exec_invariant _ _ UdpGwSystem.step
    (fun _ e => ∀ a ∈ e.pair, a ∈ pairs) (fun _ => True)
    (fun e => ∀ a ∈ e.pair, a ∈ pairs) _ _ _ trivial
    (fun _ _ _ _ hok _ => ⟨hok, trivial⟩) hpairs hrun
  have hlimit : pairs.length ≤
      (UdpGwSystem.init udp_mtu max_connections gw_mtu gw_max).client.max_connections := by
    show pairs.length ≤ if max_connections > 65535 + 1 then 65535 + 1 else max_connections
    split <;> omega
  suffices hall : s.Inv ∧ s.Exact ∧ pairs.length ≤ s.client.max_connections ∧
      (∀ c ∈ s.client.connections_list, (s.client.connection c).conaddr ∈ pairs) ∧
      ∀ d ∈ Fifo.collect UdpGwSystem.step UdpGwSystem.deliveries
        (.init udp_mtu max_connections gw_mtu gw_max) es, d.conaddr = d.owner from hall.2.2.2.2
  refine @Fifo.collect_invariant _ _ _ UdpGwSystem.step _
    (fun (s : UdpGwSystem) (l : List Delivery) => s.Inv ∧ s.Exact ∧
      pairs.length ≤ s.client.max_connections ∧
      (∀ c ∈ s.client.connections_list, (s.client.connection c).conaddr ∈ pairs) ∧
      ∀ d ∈ l, d.conaddr = d.owner) _ _ _ _ hrun'
    ⟨UdpGwSystem.inv_init hmax hgw, UdpGwSystem.exact_init, hlimit, fun c hc => (by cases hc),
      by simp⟩ ?_
  rintro s l e t ⟨hinv, hexact, hlimit, htable, hold⟩ huses hstep
  have heffect := UdpGwSystem.effect_step hinv hstep
  -- a new pair is one more than there are connections
  have hkeeps : s.Keeps e := by
    cases e with
    | submit conaddr is_dns data room result =>
      intro hfind hfull
      rw [UdpGwClient.findConnectionByConaddr_eq_none_iff] at hfind
      have hnodup : (conaddr :: s.client.connections_list.map fun c =>
          (s.client.connection c).conaddr).Nodup := by
        refine List.nodup_cons.mpr ⟨fun hmem => ?_, List.Nodup.map_on
          (fun c hc d hd => hinv.table.conaddr_inj c hc d hd) hinv.table.nodup⟩
        obtain ⟨c, hc, heq⟩ := List.mem_map.mp hmem
        exact hfind c hc heq
      have hsub : (conaddr :: s.client.connections_list.map fun c =>
          (s.client.connection c).conaddr) ⊆ pairs := by
        intro a ha
        rcases List.mem_cons.mp ha with rfl | ha
        · exact huses _ rfl
        · obtain ⟨c, hc, rfl⟩ := List.mem_map.mp ha
          exact htable c hc
      have hle := (List.subperm_of_subset hnodup hsub).length_le
      rw [List.length_cons, List.length_map, ← hinv.table.num_eq, hfull] at hle
      omega
    | _ => trivial
  obtain ⟨hexact', hnew⟩ := heffect.kept hexact hkeeps
  refine ⟨heffect.inv, hexact', heffect.max_eq ▸ hlimit, fun c hc => ?_, fun d hd => ?_⟩
  · rcases heffect.pairs c hc with ⟨hc', heq⟩ | hpair
    · rw [heq]
      exact htable c hc'
    · exact huses _ hpair
  · exact (List.mem_append.mp hd).elim (hold d) (hnew d)

theorem udpgw_replies_two_pairs :
    ∃ s, exec UdpGwSystem.step (.init 100 2 100 1) UdpGwSystem.twoPairsRun = some s ∧
      ∀ d ∈ Fifo.collect UdpGwSystem.step UdpGwSystem.deliveries (.init 100 2 100 1)
        UdpGwSystem.twoPairsRun, d.conaddr = d.owner := by
  obtain ⟨s, hs⟩ := Option.isSome_iff_exists.mp
    (show (exec UdpGwSystem.step (.init 100 2 100 1) UdpGwSystem.twoPairsRun).isSome = true by
      decide +kernel)
  exact ⟨s, hs, @udpgw_replies 100 2 100 1 (by decide) (by decide)
    [⟨.ipv4 1 1, .ipv4 9 53⟩, ⟨.ipv4 2 1, .ipv4 9 53⟩] (by decide) _ (by decide +kernel) s hs⟩

end ShiroKhorshid.Tun
