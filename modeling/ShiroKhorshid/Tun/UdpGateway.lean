/-
# The gateway

The other end, `udpgw`, keeps for each client the connections that the client's packets open.  A
packet that binds its connection again, or is for another address than before, closes the connection
of that number first; when there are as many as there may be, the least recently used one is closed
as well.  A connection has a UDP socket of its own, and what arrives there goes back to the
client under the number of the connection and the address that it was opened for.

A connection whose packet is being sent to the client is not freed when it is closed but when the
packet is done.  `Sound` is what holds between handlers: no number is on the list twice, and only
the connection whose packet is being sent waits to be freed.

* **Closing** takes a connection off the list and leaves the others (`connectionClose_spec`); with
  the old connection closed and room made, the assertions of `connection_init` hold
  (`connectionInit_spec`).
* **A packet can do three things** (`recvIfHandlerSend_cases`): nothing, because it is too large; go
  out on the socket of its connection; or close that one and open another, if that does not fail.
* **What arrives on a socket** is put in the queue or dropped (`udpRecvIfHandlerSend_spec`).  A
  packet that is put there is no larger than `udpgw_mtu`, which the source cuts off at the largest
  packet of PacketProto (`length_packet_le_udpgw_mtu`).

`owner` is the pair that the packet which opened the connection was submitted for.  The gateway has
no such field and does not read it: it is there to say whose packets a socket carries.

One client is followed; when it is gone the next one starts with nothing (`renew`).  Local port
ranges and the timer that disconnects a silent client are not modelled.
-/
import ShiroKhorshid.Tun.UdpGwClient

namespace ShiroKhorshid.Tun.Udpgw

/-! ## 1. The code -/

/-- `struct connection`, with the pair that the packet which opened it was submitted for -/
structure Connection where
  conid : ℕ
  addr : BAddr
  orig_addr : BAddr
  first_data : List UInt8
  owner : Conaddr
  /-- the packets in `send_ppflow` that are not being sent yet, oldest first -/
  queue : List (List UInt8)

/-- `struct client`; connections are known by the order in which they were made -/
structure Client where
  /-- `options.udp_mtu` -/
  udp_mtu : ℕ
  /-- `options.max_connections_for_client` -/
  max_connections : ℕ
  connections_list : List ℕ
  closing_connections_list : List ℕ
  num_connections : ℕ
  connection : ℕ → Connection
  next : ℕ
  /-- the connection whose first job is pending -/
  first_job : Option ℕ
  /-- the connection whose packet the send queue is sending -/
  sending : Option ℕ

/-- What is given to the socket of a connection, for an address, with the pair that it was
submitted for. -/
structure Datagram where
  socket : ℕ
  addr : BAddr
  data : List UInt8
  conaddr : Conaddr

namespace Client

def init (udp_mtu max_connections : ℕ) : Client where
  udp_mtu
  max_connections
  connections_list := []
  closing_connections_list := []
  num_connections := 0
  connection := fun _ =>
    { conid := 0
      addr := .ipv4 0 0
      orig_addr := .ipv4 0 0
      first_data := []
      owner := ⟨.ipv4 0 0, .ipv4 0 0⟩
      queue := [] }
  next := 0
  first_job := none
  sending := none

/-- `udpgw_mtu`, as `main` computes it: no more than `PACKETPROTO_MAXPAYLOAD` -/
def udpgw_mtu (o : Client) : ℕ := min (computeMtu o.udp_mtu) 65535

/-- The connection, with something else in it. -/
def setConnection (o : Client) (k : ℕ) (con : Connection) : Client :=
  { o with connection := fun i => if i = k then con else o.connection i }

/-- `find_connection` -/
def findConnection (o : Client) (conid : ℕ) : Option ℕ :=
  o.connections_list.find? fun k => (o.connection k).conid = conid

/-- `connection_close` -/
def connectionClose (o : Client) (k : ℕ) : Option Client :=
  if k ∈ o.connections_list then
    some { o with
      num_connections := o.num_connections - 1
      connections_list := o.connections_list.erase k
      first_job := if o.first_job = some k then none else o.first_job
      closing_connections_list :=
        -- if possible, free connection immediately
        if o.sending = some k then o.closing_connections_list ++ [k]
        else o.closing_connections_list }
  else none

/-- The client with a new connection. -/
def withConnection (o : Client) (con : Connection) : Client :=
  { o.setConnection o.next con with
    connections_list := o.connections_list ++ [o.next]
    num_connections := o.num_connections + 1
    next := o.next + 1
    first_job := some o.next }

/-- `connection_init`, which may fail; `none` where an assertion does -/
def connectionInit (o : Client) (conid : ℕ) (addr orig_addr : BAddr) (data : List UInt8)
    (owner : Conaddr) (ok : Bool) : Option Client :=
  if o.num_connections < o.max_connections ∧ o.findConnection conid = none ∧
      data.length ≤ o.udp_mtu then
    if ok then
      some (o.withConnection { conid, addr, orig_addr, first_data := data, owner, queue := [] })
    else some o
  else none

/-- A connection that is used moves to the back of the list. -/
def moveToBack (o : Client) (k : ℕ) : Client :=
  { o with connections_list := o.connections_list.erase k ++ [k] }

/-- The data, on the socket of the connection. -/
def datagram (o : Client) (k : ℕ) (data : List UInt8) (conaddr : Conaddr) : Datagram where
  socket := k
  addr := (o.connection k).addr
  data
  conaddr

/-- `connection_send_to_udp`; there may be no `room` in the buffer -/
def sendToUdp (o : Client) (k : ℕ) (data : List UInt8) (conaddr : Conaddr) (room : Bool) :
    Option (Client × List Datagram) :=
  if k ∈ o.connections_list ∧ data.length ≤ o.udp_mtu then
    some (o.moveToBack k, if room then [o.datagram k data conaddr] else [])
  else none

/-- `connection_first_job_handler` -/
def firstJobHandler (o : Client) (room : Bool) : Option (Client × List Datagram) :=
  match o.first_job with
  | none => none
  | some k =>
    ({ o with first_job := none } : Client).sendToUdp k (o.connection k).first_data
      (o.connection k).owner room

/-- The connection that a packet is for, which is closed if needed. -/
def closeOld (o : Client) (flags : UInt8) (conid : ℕ) (orig_addr : BAddr) :
    Option (Client × Option ℕ) :=
  match o.findConnection conid with
  | none => some (o, none)
  | some k =>
    if hasFlag flags flagRebind ∨ (o.connection k).orig_addr ≠ orig_addr then
      (o.connectionClose k).map fun o' => (o', none)
    else some (o, some k)

/-- If there are too many connections, the least recently used one is closed. -/
def makeRoom (o : Client) : Option Client :=
  if o.num_connections = o.max_connections then
    match o.connections_list with
    | [] => none
    | k :: _ => o.connectionClose k
  else some o

/-- `client_recv_if_handler_send`, for a packet that was submitted for the pair; `dns_addr` is as
`maybe_update_dns` leaves it -/
def recvIfHandlerSend (o : Client) (bs : List UInt8) (conaddr : Conaddr) (dns_addr : Option BAddr)
    (ok room : Bool) : Option (Client × List Datagram) :=
  if bs.length ≤ o.udpgw_mtu then
    match parseHeader bs with
    -- missing header
    | none => some (o, [])
    | some (flags, conid, rest) =>
      if hasFlag flags flagKeepalive then some (o, [])
      else
        match parseAddr flags rest with
        -- missing address
        | none => some (o, [])
        | some (orig_addr, data) =>
          -- too much data
          if data.length > o.udp_mtu then some (o, [])
          else
            (o.closeOld flags conid orig_addr).bind fun (o', con) =>
              match con with
              | some k => o'.sendToUdp k data conaddr room
              | none =>
                o'.makeRoom.bind fun o'' =>
                  -- if this is DNS, replace the address, but still remember the one before
                  let addr := if hasFlag flags flagDns then dns_addr.getD orig_addr else orig_addr
                  (o''.connectionInit conid addr orig_addr data conaddr ok).map fun o' => (o', [])
  else none

/-- `connection_send_to_client` -/
def sendToClient (o : Client) (k : ℕ) (flags : UInt8) (data : List UInt8) (room : Bool) :
    Option Client :=
  let con := o.connection k
  if data.length ≤ o.udp_mtu then
    -- packet is too large
    if data.length > o.udpgw_mtu - (udpgwHeaderSize + addrSize con.orig_addr.isIPv6) then some o
    -- out of client buffer
    else if room = false then some o
    else
      let p := packet flags con.conid con.orig_addr data
      if p.length ≤ o.udpgw_mtu then
        some (o.setConnection k { con with queue := con.queue ++ [p] })
      else none
  else none

/-- `connection_udp_recv_if_handler_send` -/
def udpRecvIfHandlerSend (o : Client) (k : ℕ) (data : List UInt8) (room : Bool) : Option Client :=
  if k ∈ o.connections_list then (o.moveToBack k).sendToClient k 0 data room else none

/-- The send queue begins with the next packet of a connection. -/
def take (o : Client) (k : ℕ) : Option (List UInt8 × Client) :=
  if o.sending = none ∧ k ∈ o.connections_list then
    match (o.connection k).queue with
    | [] => none
    | p :: queue =>
      some (p, { o.setConnection k { o.connection k with queue } with sending := some k })
  else none

/-- The send queue is done with a packet, and `connection_send_qflow_busy_handler` frees the
connection if it has been closed meanwhile. -/
def sendDone (o : Client) : Option Client :=
  match o.sending with
  | none => none
  | some k =>
    some { o with
      sending := none
      closing_connections_list := o.closing_connections_list.erase k }

/-- `client_free`, and a client that connects after that. -/
def renew (o : Client) : Client :=
  { o with
    connections_list := []
    closing_connections_list := []
    num_connections := 0
    first_job := none
    sending := none }

/-! ## 2. What holds between handlers -/

/-- The connections have different numbers and no more of them than there may be; only the
one whose packet is being sent waits to be freed; and what a connection sends to the client
is well formed. -/
structure Sound (o : Client) : Prop where
  max_pos : 0 < o.max_connections
  num_eq : o.num_connections = o.connections_list.length
  num_le : o.num_connections ≤ o.max_connections
  nodup : o.connections_list.Nodup
  lt_next : ∀ k ∈ o.connections_list, k < o.next
  conid_inj : ∀ k ∈ o.connections_list, ∀ l ∈ o.connections_list,
    (o.connection k).conid = (o.connection l).conid → k = l
  closing_nodup : o.closing_connections_list.Nodup
  closing : ∀ k ∈ o.closing_connections_list, o.sending = some k ∧ k ∉ o.connections_list
  closing_lt : ∀ k ∈ o.closing_connections_list, k < o.next
  sending : ∀ k, o.sending = some k →
    k ∈ o.connections_list ∨ k ∈ o.closing_connections_list
  first_job : ∀ k, o.first_job = some k →
    k ∈ o.connections_list ∧ (o.connection k).first_data.length ≤ o.udp_mtu
  conid_lt : ∀ k < o.next, (o.connection k).conid < 65536
  orig_addr : ∀ k < o.next, (o.connection k).orig_addr = (o.connection k).owner.remote_addr
  queue : ∀ k < o.next, ∀ p ∈ (o.connection k).queue, ∃ data,
    p = packet 0 (o.connection k).conid (o.connection k).orig_addr data

variable {o : Client} {k : ℕ}

@[simp] theorem connection_setConnection_self (con : Connection) :
    (o.setConnection k con).connection k = con := if_pos rfl

theorem connection_setConnection_of_ne (con : Connection) {l : ℕ} (h : l ≠ k) :
    (o.setConnection k con).connection l = o.connection l := if_neg h

theorem findConnection_eq_some {conid : ℕ} (h : o.findConnection conid = some k) :
    k ∈ o.connections_list ∧ (o.connection k).conid = conid :=
  ⟨List.mem_of_find?_eq_some h, by simpa using List.find?_some h⟩

theorem findConnection_eq_none_iff {conid : ℕ} :
    o.findConnection conid = none ↔ ∀ k ∈ o.connections_list, (o.connection k).conid ≠ conid := by
  rw [findConnection, List.find?_eq_none]
  simp

/-! ## 3. The handlers keep it -/

/-- **Closing a connection** takes it off the list and leaves the others. -/
theorem connectionClose_spec (h : Sound o) (hk : k ∈ o.connections_list) :
    ∃ o', o.connectionClose k = some o' ∧ Sound o' ∧ o'.connection = o.connection ∧
      o'.next = o.next ∧ o'.udp_mtu = o.udp_mtu ∧ o'.max_connections = o.max_connections ∧
      o'.num_connections < o'.max_connections ∧
      (o.first_job = none → o'.first_job = none) ∧
      ∀ l, l ∈ o'.connections_list ↔ l ∈ o.connections_list ∧ l ≠ k := by
  have hmem : ∀ l, l ∈ o.connections_list.erase k ↔ l ∈ o.connections_list ∧ l ≠ k := fun l => by
    rw [h.nodup.mem_erase_iff, and_comm]
  have hlen := List.length_erase_of_mem hk
  have hpos : 0 < o.connections_list.length := List.length_pos_of_mem hk
  have hnum := h.num_eq
  have hnum_le := h.num_le
  have hfresh : k ∉ o.closing_connections_list := fun hin => (h.closing k hin).2 hk
  refine ⟨_, if_pos hk, ⟨h.max_pos, ?_, ?_, h.nodup.erase k, ?_, ?_, ?_, ?_, ?_, ?_, ?_, h.conid_lt,
    h.orig_addr, h.queue⟩, rfl, rfl, rfl, rfl, ?_, ?_, hmem⟩
  · show o.num_connections - 1 = (o.connections_list.erase k).length
    omega
  · show o.num_connections - 1 ≤ o.max_connections
    omega
  · exact fun l hl => h.lt_next l ((hmem l).mp hl).1
  · exact fun l hl l' hl' => h.conid_inj l ((hmem l).mp hl).1 l' ((hmem l').mp hl').1
  · show (if o.sending = some k then _ else _ : List ℕ).Nodup
    split
    · rw [List.nodup_append_comm]
      exact List.nodup_cons.mpr ⟨hfresh, h.closing_nodup⟩
    · exact h.closing_nodup
  · intro l hl
    have hl' : l ∈ (if o.sending = some k then o.closing_connections_list ++ [k]
        else o.closing_connections_list) := hl
    have hold : l ∈ o.closing_connections_list → o.sending = some l ∧
        l ∉ o.connections_list.erase k := fun hin =>
      ⟨(h.closing l hin).1, fun hmem' => (h.closing l hin).2 ((hmem l).mp hmem').1⟩
    split at hl'
    · rename_i hsend
      rcases List.mem_append.mp hl' with hin | hin
      · exact hold hin
      · obtain rfl := List.mem_singleton.mp hin
        exact ⟨hsend, fun hmem' => ((hmem l).mp hmem').2 rfl⟩
    · exact hold hl'
  · intro l hl
    have hl' : l ∈ (if o.sending = some k then o.closing_connections_list ++ [k]
        else o.closing_connections_list) := hl
    split at hl'
    · rcases List.mem_append.mp hl' with hin | hin
      · exact h.closing_lt l hin
      · rw [List.mem_singleton.mp hin]
        exact h.lt_next k hk
    · exact h.closing_lt l hl'
  · intro l hl
    show l ∈ o.connections_list.erase k ∨ l ∈ (if o.sending = some k then _ else _)
    rcases h.sending l hl with hin | hin
    · by_cases hlk : l = k
      · right
        rw [if_pos (hlk ▸ hl), hlk]
        simp
      · exact Or.inl ((hmem l).mpr ⟨hin, hlk⟩)
    · right
      split
      · exact List.mem_append_left _ hin
      · exact hin
  · intro l hl
    have hl' : (if o.first_job = some k then none else o.first_job) = some l := hl
    split at hl'
    · cases hl'
    · rename_i hne
      obtain ⟨hin, hdata⟩ := h.first_job l hl'
      exact ⟨(hmem l).mpr ⟨hin, fun heq => hne (heq ▸ hl')⟩, hdata⟩
  · show o.num_connections - 1 < o.max_connections
    omega
  · intro hnone
    show (if o.first_job = some k then none else o.first_job) = none
    rw [hnone]
    simp

theorem moveToBack_spec (h : Sound o) (hk : k ∈ o.connections_list) :
    Sound (o.moveToBack k) ∧
      ∀ l, l ∈ (o.moveToBack k).connections_list ↔ l ∈ o.connections_list := by
  have hperm : (o.connections_list.erase k ++ [k]).Perm o.connections_list :=
    (List.perm_append_singleton k _).trans (List.perm_cons_erase hk).symm
  have hmem : ∀ l, l ∈ (o.moveToBack k).connections_list ↔ l ∈ o.connections_list :=
    fun l => hperm.mem_iff
  exact ⟨⟨h.max_pos, h.num_eq.trans hperm.length_eq.symm, h.num_le, hperm.nodup_iff.mpr h.nodup,
    fun l hl => h.lt_next l ((hmem l).mp hl),
    fun l hl l' hl' => h.conid_inj l ((hmem l).mp hl) l' ((hmem l').mp hl'), h.closing_nodup,
    fun l hl => ⟨(h.closing l hl).1, fun hin => (h.closing l hl).2 ((hmem l).mp hin)⟩, h.closing_lt,
    fun l hl => (h.sending l hl).imp_left (hmem l).mpr,
    fun l hl => ⟨(hmem l).mpr (h.first_job l hl).1, (h.first_job l hl).2⟩, h.conid_lt, h.orig_addr,
    h.queue⟩, hmem⟩

/-- A new connection has a number that no other has. -/
theorem sound_withConnection (h : Sound o) {con : Connection}
    (hroom : o.num_connections < o.max_connections)
    (hconid : ∀ l ∈ o.connections_list, (o.connection l).conid ≠ con.conid)
    (hdata : con.first_data.length ≤ o.udp_mtu) (hlt : con.conid < 65536)
    (horig : con.orig_addr = con.owner.remote_addr) (hqueue : con.queue = []) :
    Sound (o.withConnection con) := by
  obtain ⟨n, hn⟩ : ∃ n, n = o.withConnection con := ⟨_, rfl⟩
  have hself : n.connection o.next = con := by
    rw [hn]
    exact if_pos rfl
  have hother : ∀ l, l ≠ o.next → n.connection l = o.connection l := fun l hl => by
    rw [hn]
    exact if_neg hl
  have hlist : n.connections_list = o.connections_list ++ [o.next] := by
    rw [hn]
    rfl
  have hmem : ∀ l, l ∈ n.connections_list ↔ l ∈ o.connections_list ∨ l = o.next := fun l => by
    rw [hlist]
    simp
  have hne : ∀ l ∈ o.connections_list, l ≠ o.next := fun l hl => (h.lt_next l hl).ne
  have hfields : n.udp_mtu = o.udp_mtu ∧ n.max_connections = o.max_connections ∧
      n.num_connections = o.num_connections + 1 ∧ n.next = o.next + 1 ∧
      n.first_job = some o.next ∧ n.sending = o.sending ∧
      n.closing_connections_list = o.closing_connections_list := by
    rw [hn]
    exact ⟨rfl, rfl, rfl, rfl, rfl, rfl, rfl⟩
  obtain ⟨hmtu, hmax, hnum, hnext, hjob, hsending, hclosing⟩ := hfields
  rw [← hn]
  refine ⟨by rw [hmax]; exact h.max_pos, ?_, by rw [hnum, hmax]; exact hroom, ?_, ?_, ?_,
    by rw [hclosing]; exact h.closing_nodup, ?_, ?_, ?_, ?_, ?_, ?_, ?_⟩
  · rw [hnum, hlist, List.length_append, h.num_eq]
    rfl
  · rw [hlist, List.nodup_append_comm]
    exact List.nodup_cons.mpr ⟨fun hin => hne _ hin rfl, h.nodup⟩
  · intro l hl
    rw [hnext]
    rcases (hmem l).mp hl with hl | rfl
    · exact (h.lt_next l hl).trans (Nat.lt_succ_self _)
    · exact Nat.lt_succ_self _
  · intro l hl l' hl' heq
    rcases (hmem l).mp hl with hl | rfl
    · rcases (hmem l').mp hl' with hl' | rfl
      · rw [hother l (hne l hl), hother l' (hne l' hl')] at heq
        exact h.conid_inj l hl l' hl' heq
      · rw [hother l (hne l hl), hself] at heq
        exact absurd heq (hconid l hl)
    · rcases (hmem l').mp hl' with hl' | rfl
      · rw [hother l' (hne l' hl'), hself] at heq
        exact absurd heq.symm (hconid l' hl')
      · rfl
  · intro l hl
    rw [hclosing] at hl
    rw [hsending]
    refine ⟨(h.closing l hl).1, fun hin => ?_⟩
    rcases (hmem l).mp hin with hin | rfl
    · exact (h.closing l hl).2 hin
    · exact absurd (h.closing_lt _ hl) (lt_irrefl _)
  · intro l hl
    rw [hclosing] at hl
    rw [hnext]
    exact (h.closing_lt l hl).trans (Nat.lt_succ_self _)
  · intro l hl
    rw [hsending] at hl
    rw [hclosing]
    exact (h.sending l hl).imp_left (fun hin => (hmem l).mpr (Or.inl hin))
  · intro l hl
    obtain rfl := Option.some.inj (hjob.symm.trans hl)
    rw [hself, hmtu]
    exact ⟨(hmem _).mpr (Or.inr rfl), hdata⟩
  · intro l hl
    by_cases hln : l = o.next
    · rw [hln, hself]
      exact hlt
    · rw [hother l hln]
      exact h.conid_lt l (by omega)
  · intro l hl
    by_cases hln : l = o.next
    · rw [hln, hself]
      exact horig
    · rw [hother l hln]
      exact h.orig_addr l (by omega)
  · intro l hl
    by_cases hln : l = o.next
    · rw [hln, hself, hqueue]
      simp
    · rw [hother l hln]
      exact h.queue l (by omega)

/-- What is given to the socket, and nothing else happens but that the connection has been used. -/
theorem sendToUdp_eq (hk : k ∈ o.connections_list) {data : List UInt8} (a : Conaddr) (room : Bool)
    (hdata : data.length ≤ o.udp_mtu) :
    o.sendToUdp k data a room = some (o.moveToBack k,
      if room then [o.datagram k data a] else []) :=
  if_pos ⟨hk, hdata⟩

theorem closeOld_spec (h : Sound o) (flags : UInt8) (conid : ℕ) (orig_addr : BAddr) :
    (∃ k, k ∈ o.connections_list ∧ (o.connection k).conid = conid ∧
        hasFlag flags flagRebind = false ∧ (o.connection k).orig_addr = orig_addr ∧
        o.closeOld flags conid orig_addr = some (o, some k)) ∨
      ∃ o', o.closeOld flags conid orig_addr = some (o', none) ∧ Sound o' ∧
        o'.connection = o.connection ∧ o'.next = o.next ∧ o'.udp_mtu = o.udp_mtu ∧
        (o.first_job = none → o'.first_job = none) ∧
        (∀ l ∈ o'.connections_list, l ∈ o.connections_list) ∧
        ∀ l ∈ o'.connections_list, (o.connection l).conid ≠ conid := by
  rw [closeOld]
  cases hfind : o.findConnection conid with
  | none =>
    exact Or.inr ⟨o, rfl, h, rfl, rfl, rfl, id, fun _ hl => hl,
      findConnection_eq_none_iff.mp hfind⟩
  | some k =>
    obtain ⟨hk, hconid⟩ := findConnection_eq_some hfind
    by_cases hclose : hasFlag flags flagRebind = true ∨ (o.connection k).orig_addr ≠ orig_addr
    · obtain ⟨o', hsome, hsound, hcon, hnext, hmtu, -, -, hjob, hmem⟩ := connectionClose_spec h hk
      refine Or.inr ⟨o', ?_, hsound, hcon, hnext, hmtu, hjob, fun l hl => ((hmem l).mp hl).1,
        fun l hl heq => ?_⟩
      · simp only
        rw [if_pos hclose, hsome]
        rfl
      · obtain ⟨hl, hlk⟩ := (hmem l).mp hl
        exact hlk (h.conid_inj l hl k hk (heq.trans hconid.symm))
    · rw [not_or, Bool.not_eq_true, ne_eq, not_not] at hclose
      refine Or.inl ⟨k, hk, hconid, hclose.1, hclose.2, ?_⟩
      simp only
      rw [if_neg]
      rw [hclose.1, hclose.2]
      simp

theorem makeRoom_spec (h : Sound o) :
    ∃ o', o.makeRoom = some o' ∧ Sound o' ∧ o'.connection = o.connection ∧ o'.next = o.next ∧
      o'.udp_mtu = o.udp_mtu ∧ o'.num_connections < o'.max_connections ∧
      (o.first_job = none → o'.first_job = none) ∧
      ∀ l ∈ o'.connections_list, l ∈ o.connections_list := by
  rw [makeRoom]
  by_cases hfull : o.num_connections = o.max_connections
  · have hne : o.connections_list ≠ [] := by
      rw [← List.length_pos_iff_ne_nil, ← h.num_eq, hfull]
      exact h.max_pos
    obtain ⟨k, rest, hlist⟩ := List.exists_cons_of_ne_nil hne
    have hk : k ∈ o.connections_list := by rw [hlist]; simp
    obtain ⟨o', hsome, hsound, hcon, hnext, hmtu, -, hlt, hjob, hmem⟩ := connectionClose_spec h hk
    refine ⟨o', ?_, hsound, hcon, hnext, hmtu, hlt, hjob, fun l hl => ((hmem l).mp hl).1⟩
    rw [if_pos hfull, hlist]
    exact hsome
  · have hle := h.num_le
    exact ⟨o, if_neg hfull, h, rfl, rfl, rfl, by omega, id, fun _ hl => hl⟩

/-- The connection that a packet opens. -/
def opened (addr : BAddr) (p : Sent) : Connection where
  conid := p.conid
  addr
  orig_addr := p.conaddr.remote_addr
  first_data := p.data
  owner := p.conaddr
  queue := []

/-- The address a packet is sent to: another only where it is for a name server and there is one. -/
theorem dnsAddr_cases {flags : UInt8} {dns_addr : Option BAddr} {a addr : BAddr}
    (h : addr = if hasFlag flags flagDns then dns_addr.getD a else a) :
    addr = a ∨ hasFlag flags flagDns = true ∧ dns_addr = some addr := by
  split at h
  · rename_i hdns
    cases hsome : dns_addr with
    | none =>
      rw [hsome] at h
      exact Or.inl h
    | some b =>
      rw [hsome] at h
      obtain rfl : addr = b := h
      exact Or.inr ⟨hdns, rfl⟩
  · exact Or.inl h

/-- With room for it and no connection of its number, one is opened if that does not fail. -/
theorem connectionInit_spec (h : Sound o) {p : Sent} {addr : BAddr}
    (hlt : o.num_connections < o.max_connections)
    (hfree : ∀ l ∈ o.connections_list, (o.connection l).conid ≠ p.conid)
    (hdata : p.data.length ≤ o.udp_mtu) (hc : p.conid < 65536) (ok : Bool) :
    ∃ o', o.connectionInit p.conid addr p.conaddr.remote_addr p.data p.conaddr ok = some o' ∧
      Sound o' ∧ o'.udp_mtu = o.udp_mtu ∧
      (o.first_job = none → ok = false → o'.first_job = none) ∧
      (∀ l, l ≠ o.next → o'.connection l = o.connection l) ∧
      (∀ l ∈ o'.connections_list, l ∈ o.connections_list ∨ (ok = true ∧ l = o.next)) ∧
      if ok then
        o'.next = o.next + 1 ∧ o'.first_job = some o.next ∧ o'.connection o.next = opened addr p
      else o'.next = o.next ∧ o'.connection = o.connection := by
  rw [connectionInit, if_pos ⟨hlt, findConnection_eq_none_iff.mpr hfree, hdata⟩]
  cases ok with
  | false =>
    rw [if_neg (by simp)]
    refine ⟨o, rfl, h, rfl, fun hnone _ => hnone, fun _ _ => rfl, fun _ hl => Or.inl hl, ?_⟩
    rw [if_neg (by simp)]
    exact ⟨rfl, rfl⟩
  | true =>
    rw [if_pos rfl]
    refine ⟨_, rfl, @sound_withConnection o h (opened addr p) hlt hfree hdata hc rfl rfl, rfl,
      fun _ hfalse => (by cases hfalse), fun l hl => if_neg hl, fun l hl => ?_, ?_⟩
    · exact (List.mem_append.mp hl).imp_right fun hl => ⟨rfl, List.mem_singleton.mp hl⟩
    · rw [if_pos rfl]
      exact ⟨rfl, rfl, if_pos rfl⟩

/-- **All that a packet can do**: nothing, because it is too large; go out on the socket of the
connection of its number, which was opened for the same address; or close that connection and open
a new one, if that does not fail. -/
theorem recvIfHandlerSend_cases (h : Sound o) {p : Sent} {mtu c : ℕ}
    (hp : UdpGwClient.Written mtu c p) (hc : c < 65536) (hlen : p.bytes.length ≤ o.udpgw_mtu)
    (dns_addr : Option BAddr) (ok room : Bool) :
    ∃ o' out, o.recvIfHandlerSend p.bytes p.conaddr dns_addr ok room = some (o', out) ∧ Sound o' ∧
      ((o' = o ∧ out = [] ∧ o.udp_mtu < p.data.length) ∨
        (∃ k, k ∈ o.connections_list ∧ (o.connection k).conid = c ∧
          hasFlag p.flags flagRebind = false ∧
          (o.connection k).orig_addr = p.conaddr.remote_addr ∧ o' = o.moveToBack k ∧
          out = if room then [o.datagram k p.data p.conaddr] else []) ∨
        (out = [] ∧ o'.udp_mtu = o.udp_mtu ∧
          (o.first_job = none → ok = false → o'.first_job = none) ∧
          ∃ addr, (addr = p.conaddr.remote_addr ∨ hasFlag p.flags flagDns = true ∧
              dns_addr = some addr) ∧
            (∀ l, l ≠ o.next → o'.connection l = o.connection l) ∧
            (∀ l ∈ o'.connections_list,
              (l ∈ o.connections_list ∧ (o.connection l).conid ≠ c) ∨ (ok = true ∧ l = o.next)) ∧
            if ok then
              o'.next = o.next + 1 ∧ o'.first_job = some o.next ∧
                o'.connection o.next = opened addr p
            else o'.next = o.next ∧ o'.connection = o.connection)) := by
  obtain rfl := hp.conid_eq
  obtain ⟨hheader, haddr⟩ := parse_packet hp.ipv6 hc p.conaddr.remote_addr p.data
  have hkeep : ∀ flag : UInt8, flagIPv6 &&& flag = 0 →
      hasFlag (sentFlags p.flags p.conaddr.remote_addr) flag = hasFlag p.flags flag :=
    fun _ hflag => hasFlag_sentFlags_of_and hflag _ _
  rw [recvIfHandlerSend, if_pos hlen, Sent.bytes, hheader]
  simp only
  rw [hkeep flagKeepalive (by decide), hp.keepalive, haddr]
  simp only [Bool.false_eq_true, if_false]
  by_cases hlarge : p.data.length > o.udp_mtu
  · rw [if_pos hlarge]
    exact ⟨o, [], rfl, h, Or.inl ⟨rfl, rfl, hlarge⟩⟩
  · rw [if_neg hlarge]
    rw [not_lt] at hlarge
    rcases closeOld_spec h (sentFlags p.flags p.conaddr.remote_addr) p.conid
      p.conaddr.remote_addr with ⟨k, hk, hconid, hplain, horig, hclose⟩ |
        ⟨o₁, hclose, hsound₁, hcon₁, hnext₁, hmtu₁, hjob₁, hsub₁, hfree₁⟩
    · rw [hclose, Option.bind_some]
      simp only
      rw [sendToUdp_eq hk p.conaddr room hlarge]
      rw [hkeep flagRebind (by decide)] at hplain
      exact ⟨_, _, rfl, (moveToBack_spec h hk).1,
        Or.inr (Or.inl ⟨k, hk, hconid, hplain, horig, rfl, rfl⟩)⟩
    · obtain ⟨o₂, hroom, hsound₂, hcon₂, hnext₂, hmtu₂, hlt, hjob₂, hsub₂⟩ := makeRoom_spec hsound₁
      have hcon : o₂.connection = o.connection := hcon₂.trans hcon₁
      have hnext : o₂.next = o.next := hnext₂.trans hnext₁
      have hmtu : o₂.udp_mtu = o.udp_mtu := hmtu₂.trans hmtu₁
      have hfree : ∀ l ∈ o₂.connections_list,
          l ∈ o.connections_list ∧ (o.connection l).conid ≠ p.conid := fun l hl =>
        ⟨hsub₁ l (hsub₂ l hl), hfree₁ l (hsub₂ l hl)⟩
      obtain ⟨addr, haddr_def⟩ : ∃ addr, addr =
          if hasFlag (sentFlags p.flags p.conaddr.remote_addr) flagDns then
            dns_addr.getD p.conaddr.remote_addr
          else p.conaddr.remote_addr := ⟨_, rfl⟩
      have haddr_cases := dnsAddr_cases haddr_def
      rw [hkeep flagDns (by decide)] at haddr_cases
      obtain ⟨o₃, hinit, hsound₃, hmtu₃, hjob₃, hcon₃, hlist₃, hok⟩ :=
        @connectionInit_spec o₂ hsound₂ p addr hlt (fun l hl => hcon ▸ (hfree l hl).2)
          (hmtu ▸ hlarge) hc ok
      rw [hclose, Option.bind_some]
      simp only
      rw [hroom, Option.bind_some, ← haddr_def, hinit, Option.map_some]
      rw [hcon, hnext] at hok
      exact ⟨o₃, [], rfl, hsound₃, Or.inr (Or.inr ⟨rfl, hmtu₃.trans hmtu,
        fun hnone => hjob₃ (hjob₂ (hjob₁ hnone)), addr, haddr_cases,
        fun l hl => (hcon₃ l (fun heq => hl (heq.trans hnext))).trans (by rw [hcon]),
        fun l hl => (hlist₃ l hl).imp (hfree l) (fun hl => ⟨hl.1, hl.2.trans hnext⟩), hok⟩)⟩

/-- The first job gives the socket what the connection was opened for. -/
theorem firstJobHandler_spec (h : Sound o) (hjob : o.first_job = some k) (room : Bool) :
    k ∈ o.connections_list ∧
      o.firstJobHandler room = some (({ o with first_job := none } : Client).moveToBack k,
        if room then [o.datagram k (o.connection k).first_data (o.connection k).owner] else []) ∧
      Sound (({ o with first_job := none } : Client).moveToBack k) := by
  obtain ⟨hk, hdata⟩ := h.first_job k hjob
  have hsound : Sound ({ o with first_job := none } : Client) :=
    ⟨h.max_pos, h.num_eq, h.num_le, h.nodup, h.lt_next, h.conid_inj, h.closing_nodup, h.closing,
      h.closing_lt, h.sending, fun l hl => (by cases hl), h.conid_lt, h.orig_addr, h.queue⟩
  refine ⟨hk, ?_, (moveToBack_spec hsound hk).1⟩
  rw [firstJobHandler, hjob]
  exact @sendToUdp_eq ({ o with first_job := none } : Client) k hk _ _ room hdata

/-- Only the packets of one connection change. -/
theorem sound_setQueue (h : Sound o) {queue : List (List UInt8)}
    (hqueue : ∀ p ∈ queue, ∃ data,
      p = packet 0 (o.connection k).conid (o.connection k).orig_addr data) :
    Sound (o.setConnection k { o.connection k with queue }) := by
  have hkeep : ∀ l, ((o.setConnection k { o.connection k with queue }).connection l).conid =
        (o.connection l).conid ∧
      ((o.setConnection k { o.connection k with queue }).connection l).orig_addr =
        (o.connection l).orig_addr ∧
      ((o.setConnection k { o.connection k with queue }).connection l).owner =
        (o.connection l).owner ∧
      ((o.setConnection k { o.connection k with queue }).connection l).first_data =
        (o.connection l).first_data := by
    intro l
    by_cases hlk : l = k
    · rw [hlk, connection_setConnection_self]
      exact ⟨rfl, rfl, rfl, rfl⟩
    · rw [connection_setConnection_of_ne _ hlk]
      exact ⟨rfl, rfl, rfl, rfl⟩
  refine ⟨h.max_pos, h.num_eq, h.num_le, h.nodup, h.lt_next, ?_, h.closing_nodup, h.closing,
    h.closing_lt, h.sending, ?_, ?_, ?_, ?_⟩
  · intro l hl l' hl' heq
    rw [(hkeep l).1, (hkeep l').1] at heq
    exact h.conid_inj l hl l' hl' heq
  · intro l hl
    rw [(hkeep l).2.2.2]
    exact h.first_job l hl
  · intro l hl
    rw [(hkeep l).1]
    exact h.conid_lt l hl
  · intro l hl
    rw [(hkeep l).2.1, (hkeep l).2.2.1]
    exact h.orig_addr l hl
  · intro l hl p hp
    rw [(hkeep l).1, (hkeep l).2.1]
    by_cases hlk : l = k
    · rw [hlk, connection_setConnection_self] at hp
      rw [hlk]
      exact hqueue p hp
    · rw [connection_setConnection_of_ne _ hlk] at hp
      exact h.queue l hl p hp

/-- A packet that is not too large passes the assertion. -/
theorem length_packet_le_udpgw_mtu (flags : UInt8) (conid : ℕ) (a : BAddr) {data : List UInt8}
    (h : data.length ≤ o.udpgw_mtu - (udpgwHeaderSize + addrSize a.isIPv6)) :
    (packet flags conid a data).length ≤ o.udpgw_mtu := by
  have hroom : udpgwHeaderSize + addrSize a.isIPv6 ≤ o.udpgw_mtu := by
    rw [udpgw_mtu, computeMtu]
    cases a.isIPv6 <;> simp only [addrSize, udpgwHeaderSize] <;> omega
  rw [length_packet]
  omega

/-- **What arrives on the socket** goes to the client, or is dropped because it is too large or
there is no room. -/
theorem udpRecvIfHandlerSend_spec (h : Sound o) (hk : k ∈ o.connections_list) {data : List UInt8}
    (hdata : data.length ≤ o.udp_mtu) (room : Bool) :
    ∃ queue, (queue = (o.connection k).queue ∨ queue = (o.connection k).queue ++
        [packet 0 (o.connection k).conid (o.connection k).orig_addr data]) ∧
      o.udpRecvIfHandlerSend k data room =
        some ((o.moveToBack k).setConnection k { o.connection k with queue }) ∧
      Sound ((o.moveToBack k).setConnection k { o.connection k with queue }) := by
  obtain ⟨hsound, -⟩ := moveToBack_spec h hk
  have hold := h.queue k (h.lt_next k hk)
  have hsame :
      (o.moveToBack k).setConnection k { o.connection k with queue := (o.connection k).queue }
        = o.moveToBack k := by
    rw [setConnection, moveToBack]
    simp only
    congr 1
    funext l
    by_cases hlk : l = k
    · rw [if_pos hlk, hlk]
    · rw [if_neg hlk]
  rw [udpRecvIfHandlerSend, if_pos hk, sendToClient]
  simp only
  by_cases hlarge : data.length >
      o.udpgw_mtu - (udpgwHeaderSize + addrSize (o.connection k).orig_addr.isIPv6)
  · refine ⟨(o.connection k).queue, Or.inl rfl, ?_, ?_⟩
    · rw [hsame]
      exact (if_pos hdata).trans (if_pos hlarge)
    · rw [hsame]
      exact hsound
  · have hfit := length_packet_le_udpgw_mtu 0 (o.connection k).conid (o.connection k).orig_addr
      (Nat.not_lt.mp hlarge)
    cases room with
    | false =>
      refine ⟨(o.connection k).queue, Or.inl rfl, ?_, ?_⟩
      · rw [hsame]
        exact (if_pos hdata).trans ((if_neg hlarge).trans (if_pos rfl))
      · rw [hsame]
        exact hsound
    | true =>
      refine ⟨_, Or.inr rfl, ?_, sound_setQueue hsound (fun p hp => ?_)⟩
      · exact (if_pos hdata).trans ((if_neg hlarge).trans ((if_neg (by simp)).trans (if_pos hfit)))
      · rcases List.mem_append.mp hp with hp | hp
        · exact hold p hp
        · exact ⟨data, List.mem_singleton.mp hp⟩

theorem take_spec (h : Sound o) {p : List UInt8} {o' : Client} (htake : o.take k = some (p, o')) :
    k ∈ o.connections_list ∧ Sound o' ∧ (∃ data, p =
        packet 0 (o.connection k).conid (o.connection k).orig_addr data) ∧
      o'.connections_list = o.connections_list ∧ o'.next = o.next ∧ o'.udp_mtu = o.udp_mtu ∧
      o'.first_job = o.first_job ∧
      ∀ l, (o'.connection l).conid = (o.connection l).conid ∧
        (o'.connection l).owner = (o.connection l).owner ∧
        (o'.connection l).addr = (o.connection l).addr := by
  rw [take] at htake
  split at htake
  · rename_i hidle
    split at htake
    · cases htake
    · rename_i q queue hq
      obtain ⟨rfl, rfl⟩ := Prod.mk.inj (Option.some.inj htake)
      have hold := h.queue k (h.lt_next k hidle.2)
      rw [hq] at hold
      have hsound := @sound_setQueue o k h queue
        (fun p hp => hold p (List.mem_cons_of_mem _ hp))
      refine ⟨hidle.2, ⟨hsound.max_pos, hsound.num_eq, hsound.num_le, hsound.nodup, hsound.lt_next,
        hsound.conid_inj, hsound.closing_nodup, fun l hl => ?_, hsound.closing_lt, fun l hl => ?_,
        hsound.first_job, hsound.conid_lt, hsound.orig_addr, hsound.queue⟩,
        hold _ List.mem_cons_self, rfl, rfl, rfl, rfl, fun l => ?_⟩
      · have hbusy := (h.closing l hl).1
        rw [hidle.1] at hbusy
        cases hbusy
      · obtain rfl := Option.some.inj hl
        exact Or.inl hidle.2
      · show ((o.setConnection k { o.connection k with queue }).connection l).conid = _ ∧
          ((o.setConnection k { o.connection k with queue }).connection l).owner = _ ∧
          ((o.setConnection k { o.connection k with queue }).connection l).addr = _
        by_cases hlk : l = k
        · rw [hlk, connection_setConnection_self]
          exact ⟨rfl, rfl, rfl⟩
        · rw [connection_setConnection_of_ne _ hlk]
          exact ⟨rfl, rfl, rfl⟩
  · cases htake

/-- When a packet is done, no connection waits to be freed any more. -/
theorem sendDone_spec (h : Sound o) (hsend : o.sending = some k) :
    ∃ o', o.sendDone = some o' ∧ Sound o' ∧ o'.closing_connections_list = [] ∧
      o'.connections_list = o.connections_list ∧ o'.connection = o.connection ∧
      o'.next = o.next ∧ o'.udp_mtu = o.udp_mtu ∧ o'.first_job = o.first_job := by
  have hnil : o.closing_connections_list.erase k = [] := by
    rw [List.eq_nil_iff_forall_not_mem]
    intro l hl
    obtain ⟨hlk, hl⟩ := (h.closing_nodup.mem_erase_iff).mp hl
    exact hlk (Option.some.inj ((h.closing l hl).1.symm.trans hsend))
  refine ⟨{ o with
      sending := none
      closing_connections_list := o.closing_connections_list.erase k },
    by rw [sendDone, hsend], ⟨h.max_pos, h.num_eq, h.num_le, h.nodup, h.lt_next,
    h.conid_inj, ?_, ?_, ?_, fun l hl => (by cases hl), h.first_job, h.conid_lt, h.orig_addr,
    h.queue⟩, hnil, rfl, rfl, rfl, rfl, rfl⟩
  · show (o.closing_connections_list.erase k).Nodup
    rw [hnil]
    exact List.nodup_nil
  · intro l hl
    have hl' : l ∈ o.closing_connections_list.erase k := hl
    rw [hnil] at hl'
    cases hl'
  · intro l hl
    have hl' : l ∈ o.closing_connections_list.erase k := hl
    rw [hnil] at hl'
    cases hl'

theorem sound_renew (h : Sound o) : Sound o.renew :=
  ⟨h.max_pos, rfl, Nat.zero_le _, List.nodup_nil, fun k hk => (by cases hk),
    fun k hk => (by cases hk), List.nodup_nil, fun k hk => (by cases hk), fun k hk => (by cases hk),
    fun k hk => (by cases hk), fun k hk => (by cases hk), h.conid_lt, h.orig_addr, h.queue⟩

theorem sound_init {udp_mtu max_connections : ℕ} (hmax : 0 < max_connections) :
    Sound (init udp_mtu max_connections) :=
  ⟨hmax, rfl, Nat.zero_le _, List.nodup_nil, fun k hk => (by cases hk),
    fun k hk => (by cases hk), List.nodup_nil, fun k hk => (by cases hk), fun k hk => (by cases hk),
    fun k hk => (by cases hk), fun k hk => (by cases hk), fun k hk => absurd hk (Nat.not_lt_zero k),
    fun k hk => absurd hk (Nat.not_lt_zero k), fun k hk => absurd hk (Nat.not_lt_zero k)⟩

end Client
end ShiroKhorshid.Tun.Udpgw
