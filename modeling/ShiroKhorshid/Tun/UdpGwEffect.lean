/-
# What an event of the udpgw system does

Every event that can happen is handled and has its `Effect` (`effect_handle`), which is proved event
by event: each has a lemma of its own, and the last section only puts them together.

* **Most events are `Quiet`** (`effect_of_quiet`): they close connections of the gateway, move
  something in a list or carry packets back to the client, and change nothing that the packets on
  their way to the gateway speak about.
* **The client's events** change the client alone (`effect_of_client`).  A packet goes into a queue
  and is for the pair of its connection (`effect_of_enqueue`), or says that the connection has been
  bound to another (`effect_of_rebind`); a new connection has no packets at first
  (`effect_withConnection`).
* **A packet goes from a queue to the connector** (`effect_clientTake`).  What is on the way and
  what waits is then the same row of packets, cut in another place (`Taken`, `consistent_handed`).
* **The gateway reads a packet** (`effect_serverRecv`), the event the rest is for.  What is left to
  be read says what it said, and the packet that was read either names the pair of the connection it
  finds or replaces that connection (`consistent_of_reading`); the three ends are `effect_tooLarge`,
  `effect_known` and `effect_opened`.

In each of them the three levels of the invariant are kept one by one.  The two conditions, that an
event `Tells` and that it `Keeps`, are only used where a connection is bound to another pair.
-/
import ShiroKhorshid.Tun.UdpGwSystem

namespace ShiroKhorshid.Tun

open Udpgw
open UdpGwClient (plainFlags)

namespace UdpGwSystem

variable {s : UdpGwSystem} {a : Conaddr} {last : Option Conaddr} {l : List Sent} {p : Sent}

/-! ## 1. Quiet events and events of the client -/

/-- Nothing changes but that some of the gateway's connections are closed, packets come or go on the
way to the client, and things move in their lists. -/
structure Quiet (s t : UdpGwSystem) : Prop where
  table : t.client.Table
  sound : t.server.Sound
  mtu_eq : t.client.udp_mtu = s.client.udp_mtu
  max_eq : t.client.max_connections = s.client.max_connections
  gw_mtu_eq : t.server.udp_mtu = s.server.udp_mtu
  have_server_eq : t.have_server = s.have_server
  up_eq : t.up = s.up
  under_way_eq : t.under_way = s.under_way
  mem_iff : ∀ c, c ∈ t.client.connections_list ↔ c ∈ s.client.connections_list
  same : ∀ c, (t.client.connection c).conaddr = (s.client.connection c).conaddr ∧
    (t.client.connection c).queue = (s.client.connection c).queue
  next_eq : t.server.next = s.server.next
  fixed : ∀ k, (t.server.connection k).conid = (s.server.connection k).conid ∧
    (t.server.connection k).addr = (s.server.connection k).addr ∧
    (t.server.connection k).orig_addr = (s.server.connection k).orig_addr ∧
    (t.server.connection k).owner = (s.server.connection k).owner
  sub : ∀ k ∈ t.server.connections_list, k ∈ s.server.connections_list
  reply : ∀ r ∈ t.down, r ∈ s.down ∨ ∃ k ∈ s.server.connections_list,
    r.conid = (s.server.connection k).conid ∧ r.owner = (s.server.connection k).owner ∧
    ∃ data, r.bytes = packet 0 r.conid r.owner.remote_addr data

theorem effect_of_quiet {e : Event} {t : UdpGwSystem} {out : List Datagram} {dels : List Delivery}
    (h : Inv s) (q : Quiet s t)
    (hout : ∀ g ∈ out, g.socket ∈ s.server.connections_list ∧
      g.addr = (s.server.connection g.socket).addr ∧
      g.conaddr = (s.server.connection g.socket).owner)
    (hdels : ∀ d ∈ dels, d.conaddr.remote_addr = d.owner.remote_addr ∧
      (Exact s → d.conaddr = d.owner)) : Effect s e t out dels := by
  have hopen : ∀ k ∈ t.server.connections_list,
      (s.server.connection k).conid ∈ s.client.connections_list :=
    fun k hk => h.known k (q.sub k hk)
  refine ⟨⟨q.table, q.sound, ?_, ?_, ?_, ?_⟩, q.next_eq.ge, fun k _ => (q.fixed k).2, q.max_eq,
    fun c hc => Or.inl ⟨(q.mem_iff c).mp hc, (q.same c).1⟩, ?_, fun d hd => (hdels d hd).1,
    fun hb _ => ⟨⟨?_, ?_, ?_, ?_⟩, ?_⟩,
    fun he _ => ⟨⟨?_, ?_, ?_, ?_⟩, fun d hd => (hdels d hd).2 he⟩⟩
  · rw [q.up_eq, q.under_way_eq, q.mtu_eq]
    exact fun p hp => ⟨(h.sent p hp).1, (q.mem_iff _).mpr (h.sent p hp).2⟩
  · intro r hr
    rw [q.mem_iff]
    rcases q.reply r hr with hr | ⟨k, hk, hconid, -, hbytes⟩
    · exact h.reply r hr
    · rw [hconid]
      exact ⟨h.known k hk, hconid ▸ hbytes⟩
  · intro k hk
    rw [q.mem_iff, (q.fixed k).1]
    exact hopen k hk
  · intro hnone
    rw [q.have_server_eq] at hnone
    obtain ⟨hup, hlist⟩ := h.idle hnone
    refine ⟨q.up_eq.trans hup, List.eq_nil_iff_forall_not_mem.mpr (fun k hk => ?_)⟩
    have hk' := q.sub k hk
    rw [hlist] at hk'
    cases hk'
  · intro g hg
    obtain ⟨hk, haddr, hconaddr⟩ := hout g hg
    have hlt := h.sound.lt_next _ hk
    obtain ⟨-, haddr', horig', -⟩ := q.fixed g.socket
    rw [haddr', horig', hconaddr, h.sound.orig_addr _ hlt, q.next_eq]
    exact ⟨hlt, haddr, rfl⟩
  · rw [q.mtu_eq, q.gw_mtu_eq]
    exact hb.mtu_le
  · intro c hc k hk hconid
    rw [(q.same c).1, (q.same c).2, q.up_eq, (q.fixed k).2.2.2]
    exact hb.opened c ((q.mem_iff c).mp hc) k (q.sub k hk) ((q.fixed k).1 ▸ hconid)
  · intro c hc
    rw [(q.same c).1, (q.same c).2, q.up_eq]
    exact hb.up c ((q.mem_iff c).mp hc)
  · intro c hc
    rw [(q.same c).1, (q.same c).2, q.under_way_eq]
    exact hb.again c ((q.mem_iff c).mp hc)
  · intro g hg
    rw [(q.fixed g.socket).2.2.2]
    exact (hout g hg).2.2
  · intro c hc
    rw [(q.same c).1, (q.same c).2]
    exact he.queue c ((q.mem_iff c).mp hc)
  · rw [q.up_eq, q.under_way_eq]
    intro p hp
    rw [(q.same p.conid).1]
    exact he.sent p hp
  · intro k hk
    rw [(q.fixed k).1, (q.fixed k).2.2.2, (q.same _).1]
    exact he.opened k (q.sub k hk)
  · intro r hr
    rw [(q.same r.conid).1]
    rcases q.reply r hr with hr | ⟨k, hk, hconid, howner, -⟩
    · exact he.reply r hr
    · rw [hconid, howner]
      exact he.opened k hk

/-- Only the client changes: what it knew already keeps what its packets say, and what is new has no
packets. -/
theorem effect_of_client {e : Event} {o : UdpGwClient} (h : Inv s) (htable : o.Table)
    (hmtu : o.udp_mtu = s.client.udp_mtu) (hmax : o.max_connections = s.client.max_connections)
    (hlist : ∀ c ∈ s.client.connections_list, c ∈ o.connections_list)
    (hbound : s.Tells e → ∀ c ∈ o.connections_list,
      (c ∈ s.client.connections_list ∧ ∀ last l,
        Consistent (s.client.connection c).conaddr last (l ++ (s.client.connection c).queue) →
          Consistent (o.connection c).conaddr last (l ++ (o.connection c).queue)) ∨
      (c ∉ s.client.connections_list ∧ (o.connection c).queue = []))
    (hpairs : ∀ c ∈ o.connections_list, (c ∈ s.client.connections_list ∧
      (o.connection c).conaddr = (s.client.connection c).conaddr) ∨
        e.pair = some (o.connection c).conaddr)
    (hexact : s.Keeps e →
      (∀ c ∈ s.client.connections_list,
        (o.connection c).conaddr = (s.client.connection c).conaddr) ∧
      ∀ c ∈ o.connections_list, ∀ p ∈ (o.connection c).queue,
        (c ∈ s.client.connections_list ∧ p ∈ (s.client.connection c).queue) ∨
          p.conaddr = (o.connection c).conaddr) :
    Effect s e { s with client := o } [] [] := by
  have hnone : ∀ c, c ∉ s.client.connections_list →
      ofConid c s.up = [] ∧ ofConid c s.under_way.toList = [] := by
    intro c hc
    constructor
    · refine ofConid_eq_nil (fun p hp heq => hc ?_)
      rw [← heq]
      exact (h.sent p (List.mem_append_left _ hp)).2
    · refine ofConid_eq_nil (fun p hp heq => hc ?_)
      rw [← heq]
      exact (h.sent p (List.mem_append_right _ hp)).2
  refine ⟨⟨htable, h.sound, fun p hp => ?_, fun r hr => ?_, fun k hk => hlist _ (h.known k hk),
      h.idle⟩, le_refl _, fun k _ => ⟨rfl, rfl, rfl⟩, hmax, hpairs, by simp, by simp,
    fun hb htells => ⟨⟨?_, ?_, ?_, ?_⟩, by simp⟩,
    fun he hkeeps => ⟨⟨?_, ?_, ?_, ?_⟩, by simp⟩⟩
  · show UdpGwClient.Written o.udp_mtu p.conid p ∧ _
    rw [hmtu]
    exact ⟨(h.sent p hp).1, hlist _ (h.sent p hp).2⟩
  · exact ⟨hlist _ (h.reply r hr).1, (h.reply r hr).2⟩
  · show o.udp_mtu ≤ _
    rw [hmtu]
    exact hb.mtu_le
  · intro c hc k hk hconid
    rcases hbound htells c hc with ⟨hc, hword⟩ | ⟨hc, -⟩
    · exact hword _ _ (hb.opened c hc k hk hconid)
    · exact absurd (hconid ▸ h.known k hk) hc
  · intro c hc
    rcases hbound htells c hc with ⟨hc, hword⟩ | ⟨hc, hqueue⟩
    · exact hword _ _ (hb.up c hc)
    · show Consistent _ none (ofConid c s.up ++ (o.connection c).queue)
      rw [(hnone c hc).1, hqueue]
      exact fun b hb => by cases hb
  · intro c hc
    rcases hbound htells c hc with ⟨hc, hword⟩ | ⟨hc, hqueue⟩
    · exact hword _ _ (hb.again c hc)
    · show Consistent _ none (ofConid c s.under_way.toList ++ (o.connection c).queue)
      rw [(hnone c hc).2, hqueue]
      exact fun b hb => by cases hb
  · intro c hc p hp
    rcases (hexact hkeeps).2 c hc p hp with ⟨hc', hp'⟩ | hp'
    · rw [he.queue c hc' p hp']
      exact ((hexact hkeeps).1 c hc').symm
    · exact hp'
  · intro p hp
    rw [he.sent p hp]
    exact ((hexact hkeeps).1 _ (h.sent p hp).2).symm
  · intro k hk
    rw [he.opened k hk]
    exact ((hexact hkeeps).1 _ (h.known k hk)).symm
  · intro r hr
    rw [he.reply r hr]
    exact ((hexact hkeeps).1 _ (h.reply r hr).1).symm

/-! ## 2. The client -/

/-- A packet for the pair that its connection is bound to is put in the connection's queue. -/
theorem effect_of_enqueue {e : Event} {n : UdpGwClient} {c : ℕ} {room : Bool} (h : Inv s)
    (htable : (n.enqueue c p room).Table) (hmtu_n : n.udp_mtu = s.client.udp_mtu)
    (hmax_n : n.max_connections = s.client.max_connections)
    (hmem_n : ∀ d, d ∈ n.connections_list ↔ d ∈ s.client.connections_list)
    (hcon : n.connection = s.client.connection)
    (hpair : p.conaddr = (s.client.connection c).conaddr) :
    Effect s e { s with client := n.enqueue c p room } [] [] := by
  obtain ⟨hmtu, hmax, hlist, -⟩ := @UdpGwClient.fields_enqueue n c p room
  have hmem : ∀ d, d ∈ (n.enqueue c p room).connections_list ↔ d ∈ s.client.connections_list :=
    fun d => by rw [hlist, hmem_n]
  have hconaddr : ∀ d, ((n.enqueue c p room).connection d).conaddr =
      (s.client.connection d).conaddr := fun d => by rw [UdpGwClient.conaddr_enqueue, hcon]
  have hqueue : ∀ d, ((n.enqueue c p room).connection d).queue =
      (s.client.connection d).queue ++ if room ∧ d = c then [p] else [] := fun d => by
    rw [UdpGwClient.queue_enqueue, hcon]
  refine effect_of_client h htable (hmtu.trans hmtu_n) (hmax.trans hmax_n)
    (fun d => (hmem d).mpr) (fun _ d hd => Or.inl ⟨(hmem d).mp hd, fun last l hl => ?_⟩)
    (fun d hd => Or.inl ⟨(hmem d).mp hd, hconaddr d⟩)
    (fun _ => ⟨fun d _ => hconaddr d, fun d hd q hq => ?_⟩)
  · rw [hconaddr, hqueue, ← List.append_assoc]
    split
    · rename_i hand
      exact consistent_append hl (hand.2 ▸ hpair)
    · rwa [List.append_nil]
  · rw [hqueue] at hq
    rw [hconaddr]
    rcases List.mem_append.mp hq with hq | hq
    · exact Or.inl ⟨(hmem d).mp hd, hq⟩
    · split at hq
      · rename_i hand
        right
        rw [List.mem_singleton.mp hq, hand.2]
        exact hpair
      · cases hq

/-- The packet that says that its connection has been bound to another pair is put in the queue. -/
theorem effect_of_rebind {e : Event} {n : UdpGwClient} {c : ℕ} {room : Bool} (h : Inv s)
    (htable : (n.enqueue c p room).Table) (hmtu_n : n.udp_mtu = s.client.udp_mtu)
    (hmax_n : n.max_connections = s.client.max_connections)
    (hmem_n : ∀ d, d ∈ n.connections_list ↔ d ∈ s.client.connections_list)
    (hself : (n.connection c).conaddr = p.conaddr ∧
      (n.connection c).queue = (s.client.connection c).queue)
    (hother : ∀ d, d ≠ c → n.connection d = s.client.connection d)
    (hflag : hasFlag p.flags flagRebind = true) (hpair : e.pair = some p.conaddr)
    (hroom : s.Tells e → room = true) (hkeeps : ¬ s.Keeps e) :
    Effect s e { s with client := n.enqueue c p room } [] [] := by
  obtain ⟨hmtu, hmax, hlist, -⟩ := @UdpGwClient.fields_enqueue n c p room
  have hmem : ∀ d, d ∈ (n.enqueue c p room).connections_list ↔ d ∈ s.client.connections_list :=
    fun d => by rw [hlist, hmem_n]
  refine effect_of_client h htable (hmtu.trans hmtu_n) (hmax.trans hmax_n)
    (fun d => (hmem d).mpr) (fun htells d hd => Or.inl ⟨(hmem d).mp hd, fun last l hl => ?_⟩)
    (fun d hd => ?_) (fun hkeep => absurd hkeep hkeeps)
  · rw [UdpGwClient.conaddr_enqueue, UdpGwClient.queue_enqueue, ← List.append_assoc]
    by_cases hdc : d = c
    · rw [hdc] at hl
      rw [if_pos ⟨hroom htells, hdc⟩, hdc, hself.1, hself.2]
      exact consistent_rebind hl rfl hflag
    · rw [if_neg (fun hand => hdc hand.2), List.append_nil, hother d hdc]
      exact hl
  · rw [UdpGwClient.conaddr_enqueue]
    by_cases hdc : d = c
    · rw [hdc, hself.1]
      exact Or.inr hpair
    · rw [hother d hdc]
      exact Or.inl ⟨(hmem d).mp hd, rfl⟩

/-- A new connection has no packets: its first one is sent by a job. -/
theorem effect_withConnection {e : Event} {conaddr : Conaddr} {flags : UInt8} {c : ℕ}
    {data : List UInt8} (h : Inv s)
    (htable : (s.client.withConnection c conaddr flags data).Table)
    (hc : c ∉ s.client.connections_list) (hpair : e.pair = some conaddr) :
    Effect s e { s with client := s.client.withConnection c conaddr flags data } [] [] := by
  obtain ⟨n, hn⟩ : ∃ n, n = s.client.withConnection c conaddr flags data := ⟨_, rfl⟩
  have hmem : ∀ d, d ∈ n.connections_list ↔ d ∈ s.client.connections_list ∨ d = c := fun d => by
    rw [hn, UdpGwClient.withConnection, List.mem_append, List.mem_singleton]
  have hother : ∀ d ∈ s.client.connections_list, n.connection d = s.client.connection d :=
    fun d hd => by
      rw [hn]
      exact if_neg (fun heq : d = c => hc (heq ▸ hd))
  have hself : (n.connection c).conaddr = conaddr ∧ (n.connection c).queue = [] := by
    have hnew : n.connection c =
        { conaddr, first_flags := flags, first_data := data, queue := [] } := by
      rw [hn]
      exact if_pos rfl
    rw [hnew]
    exact ⟨rfl, rfl⟩
  rw [← hn] at htable ⊢
  refine effect_of_client h htable (by rw [hn]; rfl) (by rw [hn]; rfl)
    (fun d hd => (hmem d).mpr (Or.inl hd)) (fun _ d hd => ?_) (fun d hd => ?_)
    (fun _ => ⟨fun d hd => by rw [hother d hd], fun d hd p hp => ?_⟩)
  · rcases (hmem d).mp hd with hd | rfl
    · refine Or.inl ⟨hd, fun last l hl => ?_⟩
      rwa [hother d hd]
    · exact Or.inr ⟨hc, hself.2⟩
  · rcases (hmem d).mp hd with hd | rfl
    · exact Or.inl ⟨hd, by rw [hother d hd]⟩
    · rw [hself.1]
      exact Or.inr hpair
  · rcases (hmem d).mp hd with hd | rfl
    · rw [hother d hd] at hp
      exact Or.inl ⟨hd, hp⟩
    · rw [hself.2] at hp
      cases hp

/-- **A packet is submitted.** -/
theorem effect_submit (h : Inv s) {conaddr : Conaddr} {is_dns room : Bool} {data : List UInt8}
    {result : InitResult} (he : s.Enabled (.submit conaddr is_dns data room result)) :
    ∃ t, s.handle (.submit conaddr is_dns data room result) = some (t, [], []) ∧
      Effect s (.submit conaddr is_dns data room result) t [] [] := by
  obtain ⟨o, hsome, htable, hcases⟩ :=
    @UdpGwClient.submitPacket_cases s.client h.table conaddr is_dns room data result he.2
  refine ⟨{ s with client := o }, by rw [handle, hsome]; rfl, ?_⟩
  rcases hcases with ⟨c, hc, hca, rfl⟩ | ⟨hnew, hfull, c, hc, rfl⟩ | ⟨hnew, c, hc, rfl⟩ |
    ⟨next_conid, rfl⟩
  · exact effect_of_enqueue h htable rfl rfl (UdpGwClient.mem_moveToBack hc) rfl hca.symm
  · obtain ⟨n, hn⟩ : ∃ n, n = s.client.setConnection c { s.client.connection c with conaddr } :=
      ⟨_, rfl⟩
    have hcn : c ∈ n.connections_list := by rw [hn]; exact hc
    have hself : n.connection c = { s.client.connection c with conaddr } := by
      rw [hn, UdpGwClient.connection_setConnection_self]
    have hother : ∀ d, d ≠ c → n.connection d = s.client.connection d := fun d hd => by
      rw [hn, UdpGwClient.connection_setConnection_of_ne _ hd]
    have hnone := UdpGwClient.findConnectionByConaddr_eq_none_iff.mpr hnew
    rw [← hn] at htable ⊢
    refine effect_of_rebind h htable (by rw [hn]; rfl) (by rw [hn]; rfl) (fun d => ?_) ?_ hother
      (UdpGwClient.flags_written is_dns).2.1.2.2 rfl (fun htells => htells hnone hfull)
      (fun hkeeps => hkeeps hnone hfull)
    · rw [UdpGwClient.mem_moveToBack hcn d, hn]
      rfl
    · have hsame : (n.moveToBack c).connection c = n.connection c := rfl
      rw [hsame, hself]
      exact ⟨rfl, rfl⟩
  · exact effect_withConnection h htable hc rfl
  · exact effect_of_client h htable rfl rfl (fun d hd => hd)
      (fun _ d hd => Or.inl ⟨hd, fun last l hl => hl⟩) (fun d hd => Or.inl ⟨hd, rfl⟩)
      (fun _ => ⟨fun d hd => rfl, fun d hd p hp => Or.inl ⟨hd, hp⟩⟩)

/-- The first packet of a connection is sent. -/
theorem effect_firstJob (h : Inv s) {room : Bool} (he : s.Enabled (.firstJob room)) :
    ∃ t, s.handle (.firstJob room) = some (t, [], []) ∧ Effect s (.firstJob room) t [] [] := by
  obtain ⟨c, hjob⟩ := Option.isSome_iff_exists.mp he
  obtain ⟨hc, is_dns, htable, hwritten, hsome⟩ :=
    @UdpGwClient.connectionFirstJobHandler_eq s.client c h.table room hjob
  exact ⟨_, by rw [handle, hsome]; rfl,
    effect_of_enqueue h (UdpGwClient.table_enqueue htable hc room hwritten) rfl rfl
      (fun _ => Iff.rfl) rfl rfl⟩

/-- What is left when the send queue has taken `p` from the queue of `c`. -/
structure Taken (s : UdpGwSystem) (c : ℕ) (p : Sent) (n : UdpGwClient) : Prop where
  table : n.Table
  mtu_eq : n.udp_mtu = s.client.udp_mtu
  max_eq : n.max_connections = s.client.max_connections
  list_eq : n.connections_list = s.client.connections_list
  conaddr_eq : ∀ d, (n.connection d).conaddr = (s.client.connection d).conaddr
  queue_eq : ∀ d, ofConid d [p] ++ (n.connection d).queue = (s.client.connection d).queue
  written : UdpGwClient.Written s.client.udp_mtu c p
  mem : c ∈ s.client.connections_list

theorem exists_taken (h : Inv s) {c : ℕ} (hne : (s.client.connection c).queue ≠ []) :
    ∃ p n, s.client.take c = some (p, n) ∧ Taken s c p n := by
  obtain ⟨p, queue, hqueue⟩ := List.exists_cons_of_ne_nil hne
  have htake : s.client.take c =
      some (p, s.client.setConnection c { s.client.connection c with queue }) := by
    rw [UdpGwClient.take, hqueue]
  have hp : UdpGwClient.Written s.client.udp_mtu c p :=
    h.table.written c p (by rw [hqueue]; exact List.mem_cons_self)
  have hc : c ∈ s.client.connections_list := by
    by_contra hnot
    rw [h.table.queue_nil c hnot] at hqueue
    cases hqueue
  refine ⟨p, _, htake, UdpGwClient.table_take h.table hqueue, rfl, rfl, rfl, fun d => ?_,
    fun d => ?_, hp, hc⟩
  · by_cases hdc : d = c
    · rw [hdc, UdpGwClient.connection_setConnection_self]
    · rw [UdpGwClient.connection_setConnection_of_ne _ hdc]
  · rw [ofConid_singleton, hp.conid_eq]
    by_cases hdc : d = c
    · rw [hdc, if_pos rfl, UdpGwClient.connection_setConnection_self, hqueue]
      rfl
    · rw [if_neg (Ne.symm hdc), UdpGwClient.connection_setConnection_of_ne _ hdc]
      rfl

/-- The connector has the packet, and with a server it goes to the server. -/
def handed (s : UdpGwSystem) (p : Sent) (n : UdpGwClient) : UdpGwSystem :=
  { s with
    client := n
    under_way := some p
    up := if s.have_server then s.up ++ [p] else s.up }

theorem mem_handed {n : UdpGwClient} {q : Sent}
    (hq : q ∈ (s.handed p n).up ++ (s.handed p n).under_way.toList) : q ∈ s.up ∨ q = p := by
  rcases List.mem_append.mp hq with hq | hq
  · rw [handed] at hq
    simp only at hq
    split at hq
    · exact (List.mem_append.mp hq).imp_right List.mem_singleton.mp
    · exact Or.inl hq
  · exact Or.inr (List.mem_singleton.mp hq)

theorem inv_handed {c : ℕ} {n : UdpGwClient} (h : Inv s) (hn : Taken s c p n) :
    Inv (s.handed p n) := by
  have hlist : ∀ d, d ∈ (s.handed p n).client.connections_list ↔
      d ∈ s.client.connections_list := fun d => by rw [handed, hn.list_eq]
  refine ⟨hn.table, h.sound, fun q hq => ?_, fun r hr => ?_, fun k hk => ?_, fun hnone => ?_⟩
  · have hmtu : (s.handed p n).client.udp_mtu = s.client.udp_mtu := hn.mtu_eq
    rw [hlist, hmtu]
    rcases mem_handed hq with hq | rfl
    · exact h.sent q (List.mem_append_left _ hq)
    · rw [hn.written.conid_eq]
      exact ⟨hn.written, hn.mem⟩
  · rw [hlist]
    exact h.reply r hr
  · rw [hlist]
    exact h.known k hk
  · have hnone' : s.have_server = false := hnone
    obtain ⟨hup, hconnections⟩ := h.idle hnone'
    refine ⟨?_, hconnections⟩
    rw [handed, hnone', hup]
    rfl

/-- What the packets on the way and those that wait tell stays what it was, where there is a
server; and where there is none, the packet taken is not on the way. -/
theorem consistent_handed {c d : ℕ} {n : UdpGwClient} (h : Inv s) (hn : Taken s c p n)
    (hcons : Consistent (s.client.connection d).conaddr last
      (ofConid d s.up ++ (s.client.connection d).queue))
    (hlast : s.have_server = false → last = none) :
    Consistent (n.connection d).conaddr last
      (ofConid d (s.handed p n).up ++ (n.connection d).queue) := by
  rw [hn.conaddr_eq d]
  cases hserver : s.have_server with
  | true =>
    have hup : (s.handed p n).up = s.up ++ [p] := by
      rw [handed]
      exact if_pos hserver
    rw [hup, ofConid_append, List.append_assoc, hn.queue_eq d]
    exact hcons
  | false =>
    have hup : (s.handed p n).up = s.up := by
      rw [handed]
      exact if_neg (by rw [hserver]; simp)
    rw [hup, (h.idle hserver).1]
    rw [(h.idle hserver).1, ← hn.queue_eq d, hlast hserver] at hcons
    rw [hlast hserver]
    exact consistent_drop _ hcons

theorem bound_handed {c : ℕ} {n : UdpGwClient} (h : Inv s) (hn : Taken s c p n)
    (hidle : s.under_way = none) (hb : Bound s) : Bound (s.handed p n) := by
  have hlist : ∀ d ∈ (s.handed p n).client.connections_list, d ∈ s.client.connections_list :=
    fun d hd => hn.list_eq ▸ hd
  refine ⟨hn.mtu_eq.trans_le hb.mtu_le, fun d hd k hk hconid => ?_, fun d hd => ?_,
    fun d hd => ?_⟩
  · refine consistent_handed h hn (hb.opened d (hlist d hd) k hk hconid) (fun hnone => ?_)
    have hk' : k ∈ s.server.connections_list := hk
    rw [(h.idle hnone).2] at hk'
    cases hk'
  · exact consistent_handed h hn (hb.up d (hlist d hd)) (fun _ => rfl)
  · have hold := hb.again d (hlist d hd)
    rw [hidle, ← hn.queue_eq d, ← hn.conaddr_eq d] at hold
    exact hold

theorem exact_handed {c : ℕ} {n : UdpGwClient} (hn : Taken s c p n) (he : Exact s) :
    Exact (s.handed p n) := by
  have hconaddr : ∀ d, ((s.handed p n).client.connection d).conaddr =
      (s.client.connection d).conaddr := hn.conaddr_eq
  have hof : ∀ d, (s.client.connection d).queue =
      ofConid d [p] ++ ((s.handed p n).client.connection d).queue := fun d => (hn.queue_eq d).symm
  have hp : p ∈ (s.client.connection c).queue := by
    rw [hof c, ofConid_singleton, if_pos hn.written.conid_eq]
    exact List.mem_cons_self
  refine ⟨fun d hd q hq => ?_, fun q hq => ?_, fun k hk => ?_, fun r hr => ?_⟩
  · rw [hconaddr]
    refine he.queue d (hn.list_eq ▸ hd) q ?_
    rw [hof d]
    exact List.mem_append_right _ hq
  · rw [hconaddr]
    rcases mem_handed hq with hq | rfl
    · exact he.sent q (List.mem_append_left _ hq)
    · rw [hn.written.conid_eq]
      exact he.queue c hn.mem q hp
  · rw [hconaddr]
    exact he.opened k hk
  · rw [hconaddr]
    exact he.reply r hr

/-- **The send queue hands a packet to the connector.** -/
theorem effect_clientTake (h : Inv s) {c : ℕ} (he : s.Enabled (.clientTake c)) :
    ∃ t, s.handle (.clientTake c) = some (t, [], []) ∧ Effect s (.clientTake c) t [] [] := by
  obtain ⟨hidle, hne⟩ := he
  obtain ⟨p, n, htake, hn⟩ := exists_taken h hne
  exact ⟨s.handed p n, by rw [handle, htake]; rfl, inv_handed h hn, le_refl _,
    fun k _ => ⟨rfl, rfl, rfl⟩, hn.max_eq, fun d hd => Or.inl ⟨hn.list_eq ▸ hd, hn.conaddr_eq d⟩,
    by simp, by simp, fun hb _ => ⟨bound_handed h hn hidle hb, by simp⟩,
    fun he _ => ⟨exact_handed hn he, by simp⟩⟩

/-! ## 3. The connector -/

theorem effect_clientDone (h : Inv s) :
    ∃ t, s.handle .clientDone = some (t, [], []) ∧ Effect s .clientDone t [] [] :=
  ⟨{ s with under_way := none }, rfl,
    ⟨h.table, h.sound, fun p hp => h.sent p (List.mem_append_left _ (by simpa using hp)), h.reply,
      h.known, h.idle⟩, le_refl _, fun k _ => ⟨rfl, rfl, rfl⟩, rfl, fun c hc => Or.inl ⟨hc, rfl⟩,
    by simp, by simp,
    fun hb _ => ⟨⟨hb.mtu_le, hb.opened, hb.up, fun c hc => consistent_drop _ (hb.again c hc)⟩,
      by simp⟩,
    fun he _ => ⟨⟨he.queue, fun p hp => he.sent p (List.mem_append_left _ (by simpa using hp)),
      he.opened, he.reply⟩, by simp⟩⟩

/-- A new server gets the packet that the connector has kept. -/
theorem effect_connect (h : Inv s) (he : s.Enabled .connect) :
    ∃ t, s.handle .connect = some (t, [], []) ∧ Effect s .connect t [] [] := by
  obtain ⟨-, hlist⟩ := h.idle he
  have hmem : ∀ p ∈ s.under_way.toList ++ s.under_way.toList, p ∈ s.up ++ s.under_way.toList :=
    fun p hp => List.mem_append_right _ ((List.mem_append.mp hp).elim id id)
  exact ⟨{ s with have_server := true, up := s.under_way.toList }, rfl,
    ⟨h.table, h.sound, fun p hp => h.sent p (hmem p hp), h.reply, h.known,
      fun hnone => (by cases hnone)⟩, le_refl _, fun k _ => ⟨rfl, rfl, rfl⟩, rfl,
    fun c hc => Or.inl ⟨hc, rfl⟩, by simp, by simp,
    fun hb _ => ⟨⟨hb.mtu_le, fun c _ k hk => (by
      have hk' : k ∈ s.server.connections_list := hk
      rw [hlist] at hk'
      cases hk'), hb.again, hb.again⟩, by simp⟩,
    fun he _ => ⟨⟨he.queue, fun p hp => he.sent p (hmem p hp), he.opened, he.reply⟩, by simp⟩⟩

theorem effect_disconnect (h : Inv s) :
    ∃ t, s.handle .disconnect = some (t, [], []) ∧ Effect s .disconnect t [] [] := by
  have hmem : ∀ p ∈ [] ++ s.under_way.toList, p ∈ s.up ++ s.under_way.toList :=
    fun p hp => List.mem_append_right _ hp
  exact ⟨{ s with have_server := false, server := s.server.renew, up := [], down := [] }, rfl,
    ⟨h.table, Client.sound_renew h.sound, fun p hp => h.sent p (hmem p hp),
      fun r hr => (by cases hr), fun k hk => (by cases hk), fun _ => ⟨rfl, rfl⟩⟩,
    le_refl _, fun k _ => ⟨rfl, rfl, rfl⟩, rfl, fun c hc => Or.inl ⟨hc, rfl⟩, by simp, by simp,
    fun hb _ => ⟨⟨hb.mtu_le, fun c _ k hk => (by cases hk),
      fun c hc => consistent_drop _ (hb.again c hc), hb.again⟩, by simp⟩,
    fun he _ => ⟨⟨he.queue, fun p hp => he.sent p (hmem p hp), fun k hk => (by cases hk),
      fun r hr => (by cases hr)⟩, by simp⟩⟩

/-! ## 4. The gateway reads a packet -/

section Reading

variable {up : List Sent} {e : Event} {o : Client} {out : List Datagram}

/-- What is left to be read was to be read before. -/
theorem mem_of_reading (hup : s.up = p :: up) :
    ∀ q ∈ up ++ s.under_way.toList, q ∈ s.up ++ s.under_way.toList := fun q hq => by
  rw [hup]
  exact List.mem_cons_of_mem _ hq

theorem server_of_reading (h : Inv s) (hup : s.up = p :: up) : s.have_server = true := by
  by_contra hnone
  rw [(h.idle (Bool.eq_false_iff.mpr hnone)).1] at hup
  cases hup

/-- What is left says what it said; and the packet read, where it is one of the connection. -/
theorem consistent_of_reading {c : ℕ} (hup : s.up = p :: up)
    (h : Consistent (s.client.connection c).conaddr last
      (ofConid c s.up ++ (s.client.connection c).queue)) :
    Consistent (s.client.connection c).conaddr none
        (ofConid c up ++ (s.client.connection c).queue) ∧
      (p.conid ≠ c → Consistent (s.client.connection c).conaddr last
        (ofConid c up ++ (s.client.connection c).queue)) ∧
      (p.conid = c → (hasFlag p.flags flagRebind = true ∨ ∀ b, last = some b → b = p.conaddr) ∧
        Consistent (s.client.connection c).conaddr (some p.conaddr)
          (ofConid c up ++ (s.client.connection c).queue)) := by
  rw [hup, ← List.singleton_append, ofConid_append, ofConid_singleton] at h
  by_cases hpc : p.conid = c
  · rw [if_pos hpc] at h
    exact ⟨consistent_tail h, fun hne => absurd hpc hne, fun _ => h⟩
  · rw [if_neg hpc] at h
    exact ⟨consistent_none h, fun _ => h, fun heq => absurd heq hpc⟩

/-- Too much data, which cannot be where the gateway takes as much as the client. -/
theorem effect_tooLarge (h : Inv s) (hup : s.up = p :: up)
    (hp : UdpGwClient.Written s.client.udp_mtu p.conid p)
    (hlarge : s.server.udp_mtu < p.data.length) : Effect s e { s with up } [] [] := by
  have hserver := server_of_reading h hup
  have hsub := mem_of_reading hup
  exact ⟨⟨h.table, h.sound, fun q hq => h.sent q (hsub q hq), h.reply, h.known,
      fun hnone => absurd (hserver.symm.trans hnone) (by simp)⟩,
    le_refl _, fun k _ => ⟨rfl, rfl, rfl⟩, rfl, fun c hc => Or.inl ⟨hc, rfl⟩, by simp, by simp,
    fun hb _ => absurd hlarge (not_lt.mpr (hp.data_le.trans hb.mtu_le)),
    fun he _ => ⟨⟨he.queue, fun q hq => he.sent q (hsub q hq), he.opened, he.reply⟩, by simp⟩⟩

/-- The packet is for an open connection of its pair, and says nothing of a new one. -/
theorem effect_known (h : Inv s) (hup : s.up = p :: up) (hc : p.conid ∈ s.client.connections_list)
    {k : ℕ} (hk : k ∈ s.server.connections_list) (hconid : (s.server.connection k).conid = p.conid)
    (hplain : hasFlag p.flags flagRebind = false)
    (horig : (s.server.connection k).orig_addr = p.conaddr.remote_addr)
    (hout : ∀ g ∈ out, g = s.server.datagram k p.data p.conaddr) :
    Effect s e { s with server := s.server.moveToBack k, up } out [] := by
  have hserver := server_of_reading h hup
  have hsub := mem_of_reading hup
  obtain ⟨hsound, hmem⟩ := Client.moveToBack_spec h.sound hk
  -- the packet says that it is for the pair that the connection was opened for
  have howner : Bound s → p.conaddr = (s.server.connection k).owner := fun hb => by
    obtain ⟨-, -, heq⟩ := consistent_of_reading hup (hb.opened p.conid hc k hk hconid)
    rcases (heq rfl).1 with hflag | hsame
    · rw [hplain] at hflag
      cases hflag
    · exact (hsame _ rfl).symm
  refine ⟨⟨h.table, hsound, fun q hq => h.sent q (hsub q hq), h.reply,
      fun l hl => h.known l ((hmem l).mp hl),
      fun hnone => absurd (hserver.symm.trans hnone) (by simp)⟩, le_refl _,
    fun k _ => ⟨rfl, rfl, rfl⟩, rfl, fun c hc => Or.inl ⟨hc, rfl⟩, fun g hg => ?_, by simp,
    fun hb _ => ⟨⟨hb.mtu_le, fun c hc' l hl hlc => ?_,
      fun c hc' => (consistent_of_reading hup (hb.up c hc')).1, hb.again⟩, fun g hg => ?_⟩,
    fun he _ => ⟨⟨he.queue, fun q hq => he.sent q (hsub q hq),
      fun l hl => he.opened l ((hmem l).mp hl), he.reply⟩, by simp⟩⟩
  · rw [hout g hg]
    exact ⟨h.sound.lt_next k hk, rfl, horig.symm⟩
  · have hl' := (hmem l).mp hl
    obtain ⟨-, hne, heq⟩ := consistent_of_reading hup (hb.opened c hc' l hl' hlc)
    by_cases hpc : p.conid = c
    · -- the connection is the one that the packet goes to
      obtain rfl : l = k := h.sound.conid_inj l hl' k hk (hlc.trans (hpc ▸ hconid.symm))
      have htail := (heq hpc).2
      rw [howner hb] at htail
      exact htail
    · exact hne hpc
  · rw [hout g hg]
    exact howner hb

/-- The connection the packet is for is closed where it is one of another pair, and a new one opened
where that can be done. -/
theorem effect_opened (h : Inv s) (hup : s.up = p :: up) (hc : p.conid ∈ s.client.connections_list)
    (hsound : o.Sound) (hmtu : o.udp_mtu = s.server.udp_mtu) (hnext : s.server.next ≤ o.next)
    (hfixed : ∀ k < s.server.next, o.connection k = s.server.connection k)
    (hopen : ∀ k ∈ o.connections_list, (k ∈ s.server.connections_list ∧
      (s.server.connection k).conid ≠ p.conid ∧ o.connection k = s.server.connection k) ∨
        ((o.connection k).conid = p.conid ∧ (o.connection k).owner = p.conaddr)) :
    Effect s e { s with server := o, up } [] [] := by
  have hserver := server_of_reading h hup
  have hsub := mem_of_reading hup
  have hp : p ∈ s.up ++ s.under_way.toList := by
    rw [hup]
    exact List.mem_cons_self
  have hknown : ∀ k ∈ o.connections_list,
      (o.connection k).conid ∈ s.client.connections_list := fun k hk => by
    rcases hopen k hk with ⟨hk', -, heq⟩ | ⟨hconid, -⟩
    · rw [heq]
      exact h.known k hk'
    · rwa [hconid]
  have hsays : Bound s → ∀ c ∈ s.client.connections_list, ∀ k ∈ o.connections_list,
      (o.connection k).conid = c →
      Consistent (s.client.connection c).conaddr (some (o.connection k).owner)
        (ofConid c up ++ (s.client.connection c).queue) := by
    intro hb c hc' k hk hkc
    rcases hopen k hk with ⟨hk', hne, heq⟩ | ⟨hconid, howner⟩
    · rw [heq] at hkc ⊢
      have hpc : p.conid ≠ c := fun heq' => hne (hkc.trans heq'.symm)
      exact (consistent_of_reading hup (hb.opened c hc' k hk' hkc)).2.1 hpc
    · rw [howner]
      exact ((consistent_of_reading hup (hb.up c hc')).2.2 (hconid.symm.trans hkc)).2
  have hexact : Exact s → ∀ k ∈ o.connections_list, (o.connection k).owner =
      (s.client.connection (o.connection k).conid).conaddr := by
    intro he k hk
    rcases hopen k hk with ⟨hk', -, heq⟩ | ⟨hconid, howner⟩
    · rw [heq]
      exact he.opened k hk'
    · rw [hconid, howner]
      exact he.sent p hp
  exact ⟨⟨h.table, hsound, fun q hq => h.sent q (hsub q hq), h.reply, hknown,
      fun hnone => absurd (hserver.symm.trans hnone) (by simp)⟩, hnext,
    fun k hk => by rw [hfixed k hk]; exact ⟨rfl, rfl, rfl⟩, rfl, fun c hc => Or.inl ⟨hc, rfl⟩,
    by simp, by simp,
    fun hb _ => ⟨⟨hmtu ▸ hb.mtu_le, hsays hb,
      fun c hc' => (consistent_of_reading hup (hb.up c hc')).1, hb.again⟩, by simp⟩,
    fun he _ => ⟨⟨he.queue, fun q hq => he.sent q (hsub q hq), hexact he, he.reply⟩, by simp⟩⟩

end Reading

/-- **The gateway reads a packet.** -/
theorem effect_serverRecv (h : Inv s) {dns_addr : Option BAddr} {ok room : Bool}
    (he : s.Enabled (.serverRecv dns_addr ok room)) :
    ∃ t out, s.handle (.serverRecv dns_addr ok room) = some (t, out, []) ∧
      Effect s (.serverRecv dns_addr ok room) t out [] := by
  obtain ⟨-, hhead⟩ := he
  cases hup : s.up with
  | nil =>
    rw [hup] at hhead
    cases hhead
  | cons p up =>
    have hlen : p.bytes.length ≤ s.server.udpgw_mtu := by
      rw [hup] at hhead
      simpa using hhead
    obtain ⟨hp, hc⟩ := h.sent p (by rw [hup]; exact List.mem_cons_self)
    have hlt : p.conid < 65536 := (h.table.conid_lt _ hc).trans_le h.table.max_le
    obtain ⟨o, out, hsome, hsound, hcases⟩ :=
      Client.recvIfHandlerSend_cases h.sound hp hlt hlen dns_addr ok room
    have hhandle : s.handle (.serverRecv dns_addr ok room) =
        some ({ s with server := o, up }, out, []) := by
      rw [handle, hup]
      simp only
      rw [hsome]
      rfl
    refine ⟨_, out, hhandle, ?_⟩
    rcases hcases with ⟨rfl, rfl, hlarge⟩ | ⟨k, hk, hconid, hplain, horig, rfl, rfl⟩ |
      ⟨rfl, hmtu, -, addr, -, hcon, hlist, hok⟩
    · exact effect_tooLarge h hup hp hlarge
    · refine effect_known h hup hc hk hconid hplain horig (fun g hg => ?_)
      split at hg
      · exact List.mem_singleton.mp hg
      · cases hg
    · have hnext : s.server.next ≤ o.next := by
        split at hok
        · rw [hok.1]
          exact Nat.le_succ _
        · rw [hok.1]
      have hfixed : ∀ k < s.server.next, o.connection k = s.server.connection k := fun k hk =>
        hcon k hk.ne
      refine effect_opened h hup hc hsound hmtu hnext hfixed (fun k hk => ?_)
      rcases hlist k hk with ⟨hk', hne⟩ | ⟨rfl, rfl⟩
      · exact Or.inl ⟨hk', hne, hfixed k (h.sound.lt_next k hk')⟩
      · rw [if_pos rfl] at hok
        rw [hok.2.2]
        exact Or.inr ⟨rfl, rfl⟩

/-! ## 5. The other events of the gateway -/

/-- The gateway's connections are at most closed. -/
theorem quiet_of_server {o : Client} (h : Inv s) (hsound : o.Sound)
    (hmtu : o.udp_mtu = s.server.udp_mtu) (hnext : o.next = s.server.next)
    (hfixed : ∀ k, (o.connection k).conid = (s.server.connection k).conid ∧
      (o.connection k).addr = (s.server.connection k).addr ∧
      (o.connection k).orig_addr = (s.server.connection k).orig_addr ∧
      (o.connection k).owner = (s.server.connection k).owner)
    (hsub : ∀ k ∈ o.connections_list, k ∈ s.server.connections_list) :
    Quiet s { s with server := o } :=
  ⟨h.table, hsound, rfl, rfl, hmtu, rfl, rfl, rfl, fun _ => Iff.rfl, fun _ => ⟨rfl, rfl⟩, hnext,
    hfixed, hsub, fun _ hr => Or.inl hr⟩

/-- The first packet of a connection is sent on. -/
theorem effect_serverFirstJob (h : Inv s) {room : Bool} (he : s.Enabled (.serverFirstJob room)) :
    ∃ t out, s.handle (.serverFirstJob room) = some (t, out, []) ∧
      Effect s (.serverFirstJob room) t out [] := by
  obtain ⟨k, hjob⟩ := Option.isSome_iff_exists.mp he
  obtain ⟨hk, hsome, hsound⟩ := Client.firstJobHandler_spec h.sound hjob room
  have hmem : ∀ l, l ∈ s.server.connections_list.erase k ++ [k] → l ∈ s.server.connections_list :=
    fun l hl => (Client.moveToBack_spec h.sound hk).2 l |>.mp hl
  refine ⟨{ s with server := ({ s.server with first_job := none } : Client).moveToBack k }, _,
    by rw [handle, hsome]; rfl, effect_of_quiet h (quiet_of_server h hsound rfl rfl
      (fun _ => ⟨rfl, rfl, rfl, rfl⟩) hmem) (fun g hg => ?_) (by simp)⟩
  split at hg
  · rw [List.mem_singleton.mp hg]
    exact ⟨hk, rfl, rfl⟩
  · cases hg

/-- A datagram comes in on the socket of a connection. -/
theorem effect_udpRecv (h : Inv s) {k : ℕ} {data : List UInt8} {room : Bool}
    (he : s.Enabled (.udpRecv k data room)) :
    ∃ t, s.handle (.udpRecv k data room) = some (t, [], []) ∧
      Effect s (.udpRecv k data room) t [] [] := by
  obtain ⟨hk, hdata⟩ := he
  obtain ⟨queue, -, hsome, hsound⟩ := Client.udpRecvIfHandlerSend_spec h.sound hk hdata room
  obtain ⟨o, ho⟩ : ∃ o, o =
      (s.server.moveToBack k).setConnection k { s.server.connection k with queue } := ⟨_, rfl⟩
  have hmem : ∀ l ∈ o.connections_list, l ∈ s.server.connections_list := fun l hl => by
    rw [ho] at hl
    exact ((Client.moveToBack_spec h.sound hk).2 l).mp hl
  rw [← ho] at hsome hsound
  refine ⟨{ s with server := o }, by rw [handle, hsome]; rfl, effect_of_quiet h
    (quiet_of_server h hsound (by rw [ho]; rfl) (by rw [ho]; rfl) (fun l => ?_) hmem) (by simp)
    (by simp)⟩
  rw [ho]
  by_cases hlk : l = k
  · rw [hlk, Client.connection_setConnection_self]
    exact ⟨rfl, rfl, rfl, rfl⟩
  · rw [Client.connection_setConnection_of_ne _ hlk]
    exact ⟨rfl, rfl, rfl, rfl⟩

/-- The socket of a connection fails. -/
theorem effect_udpError (h : Inv s) {k : ℕ} (he : s.Enabled (.udpError k)) :
    ∃ t, s.handle (.udpError k) = some (t, [], []) ∧ Effect s (.udpError k) t [] [] := by
  obtain ⟨o, hsome, hsound, hcon, hnext, hmtu, -, -, -, hmem⟩ :=
    Client.connectionClose_spec h.sound he
  exact ⟨{ s with server := o }, by rw [handle, hsome]; rfl, effect_of_quiet h
    (quiet_of_server h hsound hmtu hnext (fun l => by rw [hcon]; exact ⟨rfl, rfl, rfl, rfl⟩)
      (fun l hl => ((hmem l).mp hl).1)) (by simp) (by simp)⟩

/-- The send queue of the gateway takes a packet. -/
theorem effect_serverTake (h : Inv s) {k : ℕ} (he : s.Enabled (.serverTake k)) :
    ∃ t, s.handle (.serverTake k) = some (t, [], []) ∧ Effect s (.serverTake k) t [] [] := by
  obtain ⟨hidle, hk, hne⟩ := he
  obtain ⟨bytes, queue, hqueue⟩ := List.exists_cons_of_ne_nil hne
  obtain ⟨o, ho⟩ : ∃ o : Client, o = { s.server.setConnection k
      { s.server.connection k with queue } with sending := some k } := ⟨_, rfl⟩
  have htake : s.server.take k = some (bytes, o) := by
    rw [Client.take, if_pos ⟨hidle, hk⟩, hqueue, ho]
  have hcon : o.connection =
      (s.server.setConnection k { s.server.connection k with queue }).connection := by rw [ho]
  obtain ⟨-, hsound, ⟨data, hbytes⟩, hlist, hnext, hmtu, -⟩ := Client.take_spec h.sound htake
  refine ⟨{ s with
      server := o
      down := s.down ++ [{ bytes, conid := (s.server.connection k).conid,
                           owner := (s.server.connection k).owner }] },
    by rw [handle, htake]; rfl, effect_of_quiet h ⟨h.table, hsound, rfl, rfl, hmtu, rfl, rfl, rfl,
      fun _ => Iff.rfl, fun _ => ⟨rfl, rfl⟩, hnext, fun l => ?_, fun l hl => hlist ▸ hl,
      fun q hq => ?_⟩ (by simp) (by simp)⟩
  · rw [hcon]
    by_cases hlk : l = k
    · rw [hlk, Client.connection_setConnection_self]
      exact ⟨rfl, rfl, rfl, rfl⟩
    · rw [Client.connection_setConnection_of_ne _ hlk]
      exact ⟨rfl, rfl, rfl, rfl⟩
  · rcases List.mem_append.mp hq with hq | hq
    · exact Or.inl hq
    · rw [List.mem_singleton.mp hq]
      rw [h.sound.orig_addr k (h.sound.lt_next k hk)] at hbytes
      exact Or.inr ⟨k, hk, rfl, rfl, data, hbytes⟩

theorem effect_serverDone (h : Inv s) (he : s.Enabled .serverDone) :
    ∃ t, s.handle .serverDone = some (t, [], []) ∧ Effect s .serverDone t [] [] := by
  obtain ⟨k, hsend⟩ := Option.isSome_iff_exists.mp he
  obtain ⟨o, hsome, hsound, -, hlist, hcon, hnext, hmtu, -⟩ := Client.sendDone_spec h.sound hsend
  exact ⟨{ s with server := o }, by rw [handle, hsome]; rfl, effect_of_quiet h
    (quiet_of_server h hsound hmtu hnext (fun l => by rw [hcon]; exact ⟨rfl, rfl, rfl, rfl⟩)
      (fun l hl => hlist ▸ hl)) (by simp) (by simp)⟩

/-! ## 6. The client reads a packet -/

/-- What is read of a reply is what the gateway's connection wrote. -/
theorem parse_reply {r : Reply} {data : List UInt8} (hlt : r.conid < 65536)
    (hbytes : r.bytes = packet 0 r.conid r.owner.remote_addr data) :
    parse r.bytes = some (sentFlags 0 r.owner.remote_addr, r.conid, r.owner.remote_addr, data) := by
  have hflag : hasFlag 0 flagIPv6 = false := by decide
  obtain ⟨hheader, haddr⟩ := parse_packet hflag hlt r.owner.remote_addr data
  rw [parse, hbytes, hheader]
  simp only [Option.bind_eq_bind, Option.bind_some]
  rw [haddr]
  rfl

/-- **The client reads a packet**, and passes its data on or drops it. -/
theorem effect_clientRecv (h : Inv s) (he : s.Enabled .clientRecv) :
    ∃ t dels, s.handle .clientRecv = some (t, [], dels) ∧ Effect s .clientRecv t [] dels := by
  have hhead : s.down.head?.any (fun r => r.bytes.length ≤ computeMtu s.client.udp_mtu) = true := he
  cases hdown : s.down with
  | nil =>
    rw [hdown] at hhead
    cases hhead
  | cons r down =>
    have hmem : r ∈ s.down := by
      rw [hdown]
      exact List.mem_cons_self
    have hsub : ∀ q ∈ down, q ∈ s.down ∨ ∃ k ∈ s.server.connections_list,
        q.conid = (s.server.connection k).conid ∧ q.owner = (s.server.connection k).owner ∧
        ∃ data, q.bytes = packet 0 q.conid q.owner.remote_addr data := fun q hq => by
      rw [hdown]
      exact Or.inl (List.mem_cons_of_mem _ hq)
    obtain ⟨hr, data, hbytes⟩ := h.reply r hmem
    have hlt : r.conid < 65536 := (h.table.conid_lt _ hr).trans_le h.table.max_le
    rcases UdpGwClient.recvInterfaceHandlerSend_cases h.table r.bytes with
      hdrop | ⟨c, flags, data', hc, hparse, -, htable, hpass⟩
    · refine ⟨{ s with down }, [], ?_, effect_of_quiet h ⟨h.table, h.sound, rfl, rfl, rfl, rfl,
        rfl, rfl, fun _ => Iff.rfl, fun _ => ⟨rfl, rfl⟩, rfl, fun _ => ⟨rfl, rfl, rfl, rfl⟩,
        fun _ hk => hk, hsub⟩ (by simp) (by simp)⟩
      rw [handle, hdown]
      simp only
      rw [hdrop]
      rfl
    · rw [parse_reply hlt hbytes] at hparse
      obtain ⟨-, rfl, hremote, rfl⟩ : sentFlags 0 r.owner.remote_addr = flags ∧ r.conid = c ∧
          r.owner.remote_addr = (s.client.connection c).conaddr.remote_addr ∧ data = data' := by
        simpa using hparse
      refine ⟨{ s with
          client := s.client.moveToBack r.conid
          down }, [⟨(s.client.connection r.conid).conaddr, data, r.owner⟩], ?_,
        effect_of_quiet h ⟨htable, h.sound, rfl, rfl, rfl, rfl, rfl, rfl,
          UdpGwClient.mem_moveToBack hc, fun _ => ⟨rfl, rfl⟩, rfl, fun _ => ⟨rfl, rfl, rfl, rfl⟩,
          fun _ hk => hk, hsub⟩ (by simp) (fun d hd => ?_)⟩
      · rw [handle, hdown]
        simp only
        rw [hpass]
        rfl
      · rw [List.mem_singleton.mp hd]
        exact ⟨hremote.symm, fun hexact => (hexact.reply r hmem).symm⟩

/-! ## 7. Any event -/

/-- **Every event that can happen is handled**, and has its effect. -/
theorem effect_handle (h : Inv s) {e : Event} (he : s.Enabled e) :
    ∃ t out dels, s.handle e = some (t, out, dels) ∧ Effect s e t out dels := by
  cases e with
  | submit conaddr is_dns data room result =>
    obtain ⟨t, hsome, heffect⟩ := effect_submit h he
    exact ⟨t, [], [], hsome, heffect⟩
  | firstJob room =>
    obtain ⟨t, hsome, heffect⟩ := effect_firstJob h he
    exact ⟨t, [], [], hsome, heffect⟩
  | clientTake c =>
    obtain ⟨t, hsome, heffect⟩ := effect_clientTake h he
    exact ⟨t, [], [], hsome, heffect⟩
  | clientDone =>
    obtain ⟨t, hsome, heffect⟩ := effect_clientDone h
    exact ⟨t, [], [], hsome, heffect⟩
  | serverRecv dns_addr ok room =>
    obtain ⟨t, out, hsome, heffect⟩ := effect_serverRecv h he
    exact ⟨t, out, [], hsome, heffect⟩
  | serverFirstJob room =>
    obtain ⟨t, out, hsome, heffect⟩ := effect_serverFirstJob h he
    exact ⟨t, out, [], hsome, heffect⟩
  | udpRecv k data room =>
    obtain ⟨t, hsome, heffect⟩ := effect_udpRecv h he
    exact ⟨t, [], [], hsome, heffect⟩
  | udpError k =>
    obtain ⟨t, hsome, heffect⟩ := effect_udpError h he
    exact ⟨t, [], [], hsome, heffect⟩
  | serverTake k =>
    obtain ⟨t, hsome, heffect⟩ := effect_serverTake h he
    exact ⟨t, [], [], hsome, heffect⟩
  | serverDone =>
    obtain ⟨t, hsome, heffect⟩ := effect_serverDone h he
    exact ⟨t, [], [], hsome, heffect⟩
  | clientRecv =>
    obtain ⟨t, dels, hsome, heffect⟩ := effect_clientRecv h he
    exact ⟨t, [], dels, hsome, heffect⟩
  | connect =>
    obtain ⟨t, hsome, heffect⟩ := effect_connect h he
    exact ⟨t, [], [], hsome, heffect⟩
  | disconnect =>
    obtain ⟨t, hsome, heffect⟩ := effect_disconnect h
    exact ⟨t, [], [], hsome, heffect⟩

end UdpGwSystem
end ShiroKhorshid.Tun
