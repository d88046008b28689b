/-
# The udpgw client

`UdpGwClient` gives every pair of a local and a remote address a connection to the gateway, known
by a number.  Its connections stand in a list, the least recently used first; when there are as
many as there may be, the first one is bound to the next new pair, and the packet that does so
says it.  Connections are never given up otherwise.

`Table` is what holds between handlers: the list has no number and no pair twice, there are no more
connections than there may be, and what waits in a queue was written for its connection.

* **The search for an unused number ends** (`findUnusedConid_spec`).  It goes round the numbers from
  the one used last; all that it has looked at are taken, and fewer than `max_connections` numbers
  are, so one of them is not.
* **Submitting a packet does one of four things** (`submitPacket_cases`): it sends on the pair's
  connection, binds the least recently used one to the pair, makes a new one, or fails to make it.
* What is passed to the user comes from the remote address that the connection is bound to NOW
  (`recvInterfaceHandlerSend_cases`); whether that is the pair it was received for is the subject of
  `UdpGwRuns`.

The two trees of the source are lookups in the one list, by number and by pair.  Keepalive packets
(not used here), the flow objects and failing allocations other than that of a connection are not
modelled.
-/
import ShiroKhorshid.Tun.UdpGw
import Mathlib.Data.Finset.Card

namespace ShiroKhorshid.Tun

/-! ## 1. The code -/

/-- `struct UdpGwClient_conaddr` -/
structure Conaddr where
  local_addr : BAddr
  remote_addr : BAddr
deriving DecidableEq

/-- A packet that has been written for the gateway, with the pair that it was submitted for: the
local address is not on the wire. -/
structure Sent where
  flags : UInt8
  conid : ℕ
  conaddr : Conaddr
  data : List UInt8

def Sent.bytes (p : Sent) : List UInt8 := packet p.flags p.conid p.conaddr.remote_addr p.data

/-- `struct UdpGwClient_connection` -/
structure UdpGwConnection where
  conaddr : Conaddr
  first_flags : UInt8
  first_data : List UInt8
  /-- the packets in `send_ppflow` that have not been handed on, oldest first -/
  queue : List Sent

/-- How `connection_init` ends. -/
inductive InitResult
  | done
  /-- `malloc` failed -/
  | fail0
  /-- `PacketProtoFlow_Init` failed -/
  | fail1

/-- The two trees and the list hold the same connections; they are the list, and connections are
known by their numbers. -/
structure UdpGwClient where
  udp_mtu : ℕ
  max_connections : ℕ
  connections_list : List ℕ
  num_connections : ℕ
  next_conid : ℕ
  connection : ℕ → UdpGwConnection
  /-- the connection whose first job is pending -/
  first_job : Option ℕ

namespace UdpGwClient

/-- `UdpGwClient_Init` -/
def init (udp_mtu max_connections : ℕ) : UdpGwClient where
  udp_mtu
  -- limit max connections to number of conid's
  max_connections := if max_connections > 65535 + 1 then 65535 + 1 else max_connections
  connections_list := []
  num_connections := 0
  next_conid := 0
  connection := fun _ =>
    { conaddr := ⟨.ipv4 0 0, .ipv4 0 0⟩
      first_flags := 0
      first_data := []
      queue := [] }
  first_job := none

/-- The connection, with something else in it. -/
def setConnection (o : UdpGwClient) (c : ℕ) (con : UdpGwConnection) : UdpGwClient :=
  { o with connection := fun i => if i = c then con else o.connection i }

/-- `find_connection_by_conaddr` -/
def findConnectionByConaddr (o : UdpGwClient) (conaddr : Conaddr) : Option ℕ :=
  o.connections_list.find? fun c => (o.connection c).conaddr = conaddr

/-- `find_connection_by_conid` -/
def findConnectionByConid (o : UdpGwClient) (conid : ℕ) : Option ℕ :=
  o.connections_list.find? fun c => c = conid

/-- `n` rounds of the loop of `find_unused_conid`, from `next_conid` on. -/
def findUnusedConid (o : UdpGwClient) : ℕ → ℕ → Option ℕ
  | 0, _ => none
  | n + 1, next_conid =>
    if o.findConnectionByConid next_conid = none then some next_conid
    else
      findUnusedConid o n (if next_conid = o.max_connections - 1 then 0 else next_conid + 1)

/-- The client with a new connection. -/
def withConnection (o : UdpGwClient) (conid : ℕ) (conaddr : Conaddr) (flags : UInt8)
    (data : List UInt8) : UdpGwClient :=
  { o.setConnection conid { conaddr, first_flags := flags, first_data := data, queue := [] } with
    connections_list := o.connections_list ++ [conid]
    num_connections := o.num_connections + 1
    next_conid := conid
    first_job := some conid }

/-- `connection_init`; `none` where an assertion fails or the search does not end -/
def connectionInit (o : UdpGwClient) (conaddr : Conaddr) (flags : UInt8) (data : List UInt8)
    (result : InitResult) : Option UdpGwClient :=
  if o.num_connections < o.max_connections ∧ o.findConnectionByConaddr conaddr = none ∧
      data.length ≤ o.udp_mtu then
    match result with
    | .fail0 => some o
    | .fail1 =>
      (o.findUnusedConid o.max_connections o.next_conid).map fun conid =>
        { o with next_conid := conid }
    | .done =>
      (o.findUnusedConid o.max_connections o.next_conid).map fun conid =>
        o.withConnection conid conaddr flags data
  else none

/-- The packet that `connection_send` writes. -/
def written (o : UdpGwClient) (c : ℕ) (flags : UInt8) (data : List UInt8) : Sent where
  flags
  conid := c
  conaddr := (o.connection c).conaddr
  data

/-- The connection with one more packet, where there is room for it in the buffer. -/
def enqueue (o : UdpGwClient) (c : ℕ) (p : Sent) (room : Bool) : UdpGwClient :=
  if room then
    o.setConnection c { o.connection c with queue := (o.connection c).queue ++ [p] }
  -- out of buffer
  else o

/-- `connection_send` -/
def connectionSend (o : UdpGwClient) (c : ℕ) (flags : UInt8) (data : List UInt8) (room : Bool) :
    Option UdpGwClient :=
  if data.length ≤ o.udp_mtu ∧ (o.written c flags data).bytes.length ≤ computeMtu o.udp_mtu then
    some (o.enqueue c (o.written c flags data) room)
  else none

/-- `connection_first_job_handler` -/
def connectionFirstJobHandler (o : UdpGwClient) (room : Bool) : Option UdpGwClient :=
  match o.first_job with
  | none => none
  | some c =>
    ({ o with first_job := none } : UdpGwClient).connectionSend c
      (flagRebind ||| (o.connection c).first_flags) (o.connection c).first_data room

/-- `reuse_connection` -/
def reuseConnection (o : UdpGwClient) (conaddr : Conaddr) : Option (ℕ × UdpGwClient) :=
  if o.findConnectionByConaddr conaddr = none ∧ o.num_connections > 0 then
    match o.connections_list with
    | [] => none
    -- the least recently used connection
    | c :: _ => some (c, o.setConnection c { o.connection c with conaddr })
  else none

/-- A connection that is used moves to the back of the list. -/
def moveToBack (o : UdpGwClient) (c : ℕ) : UdpGwClient :=
  { o with connections_list := o.connections_list.erase c ++ [c] }

/-- The flags of a packet that changes nothing. -/
def plainFlags (is_dns : Bool) : UInt8 := if is_dns then flagDns else 0

/-- `UdpGwClient_SubmitPacket` -/
def submitPacket (o : UdpGwClient) (conaddr : Conaddr) (is_dns : Bool) (data : List UInt8)
    (room : Bool) (result : InitResult) : Option UdpGwClient :=
  let flags := plainFlags is_dns
  match o.findConnectionByConaddr conaddr with
  | some c => (o.moveToBack c).connectionSend c flags data room
  | none =>
    -- if a connection cannot be created, reuse the least recently used one
    if o.num_connections = o.max_connections then
      (o.reuseConnection conaddr).bind fun (c, o') =>
        (o'.moveToBack c).connectionSend c (flags ||| flagRebind) data room
    else o.connectionInit conaddr flags data result

/-- `recv_interface_handler_send`: what is passed to the user, and for whom -/
def recvInterfaceHandlerSend (o : UdpGwClient) (bs : List UInt8) :
    UdpGwClient × Option (Conaddr × List UInt8) :=
  match parse bs with
  | none => (o, none)
  | some (_, conid, remote_addr, data) =>
    -- too much data
    if data.length > o.udp_mtu then (o, none)
    else
      match o.findConnectionByConid conid with
      -- unknown conid
      | none => (o, none)
      | some c =>
        -- wrong remote address
        if (o.connection c).conaddr.remote_addr ≠ remote_addr then (o, none)
        else (o.moveToBack c, some ((o.connection c).conaddr, data))

/-- The send queue takes the next packet of a connection. -/
def take (o : UdpGwClient) (c : ℕ) : Option (Sent × UdpGwClient) :=
  match (o.connection c).queue with
  | [] => none
  | p :: queue => some (p, o.setConnection c { o.connection c with queue })

/-! ## 2. What holds between handlers -/

/-- A packet as a connection writes it. -/
structure Written (mtu c : ℕ) (p : Sent) : Prop where
  conid_eq : p.conid = c
  ipv6 : hasFlag p.flags flagIPv6 = false
  keepalive : hasFlag p.flags flagKeepalive = false
  data_le : p.data.length ≤ mtu

/-- The connections have different numbers and different pairs, and no more of them than
there may be; and what they send is well formed. -/
structure Table (o : UdpGwClient) : Prop where
  max_pos : 0 < o.max_connections
  max_le : o.max_connections ≤ 65536
  num_eq : o.num_connections = o.connections_list.length
  nodup : o.connections_list.Nodup
  conid_lt : ∀ c ∈ o.connections_list, c < o.max_connections
  next_lt : o.next_conid < o.max_connections
  conaddr_inj : ∀ c ∈ o.connections_list, ∀ d ∈ o.connections_list,
    (o.connection c).conaddr = (o.connection d).conaddr → c = d
  first_job : ∀ c, o.first_job = some c → c ∈ o.connections_list ∧
    (o.connection c).first_data.length ≤ o.udp_mtu ∧
    ∃ is_dns, (o.connection c).first_flags = plainFlags is_dns
  queue_nil : ∀ c, c ∉ o.connections_list → (o.connection c).queue = []
  written : ∀ c, ∀ p ∈ (o.connection c).queue, Written o.udp_mtu c p

variable {o : UdpGwClient} {c : ℕ}

theorem Table.length_le (h : Table o) : o.connections_list.length ≤ o.max_connections := by
  have hsub : o.connections_list.toFinset ⊆ Finset.range o.max_connections := fun c hc =>
    Finset.mem_range.mpr (h.conid_lt c (List.mem_toFinset.mp hc))
  have hcard := Finset.card_le_card hsub
  rwa [List.toFinset_card_of_nodup h.nodup, Finset.card_range] at hcard

@[simp] theorem connection_setConnection_self (con : UdpGwConnection) :
    (o.setConnection c con).connection c = con := if_pos rfl

theorem connection_setConnection_of_ne (con : UdpGwConnection) {d : ℕ} (h : d ≠ c) :
    (o.setConnection c con).connection d = o.connection d := if_neg h

theorem findConnectionByConid_eq_none_iff : o.findConnectionByConid c = none ↔
    c ∉ o.connections_list := by
  rw [findConnectionByConid, List.find?_eq_none]
  constructor
  · intro h hc
    exact h c hc (by simp)
  · intro h d hd hdc
    exact h (of_decide_eq_true hdc ▸ hd)

theorem findConnectionByConid_eq_some {d : ℕ} (h : o.findConnectionByConid c = some d) :
    d = c ∧ c ∈ o.connections_list := by
  have hd : d = c := by simpa using List.find?_some h
  exact ⟨hd, hd ▸ List.mem_of_find?_eq_some h⟩

theorem findConnectionByConaddr_eq_some {a : Conaddr}
    (h : o.findConnectionByConaddr a = some c) :
    c ∈ o.connections_list ∧ (o.connection c).conaddr = a :=
  ⟨List.mem_of_find?_eq_some h, by simpa using List.find?_some h⟩

theorem findConnectionByConaddr_eq_none_iff {a : Conaddr} :
    o.findConnectionByConaddr a = none ↔
      ∀ c ∈ o.connections_list, (o.connection c).conaddr ≠ a := by
  rw [findConnectionByConaddr, List.find?_eq_none]
  simp

/-! ## 3. The search for an unused number -/

/-- The numbers that `n` rounds from `c` on look at. -/
def looked (max : ℕ) : ℕ → ℕ → List ℕ
  | 0, _ => []
  | n + 1, c => c :: looked max n (if c = max - 1 then 0 else c + 1)

theorem mem_looked {max c i : ℕ} (hc : c < max) {n : ℕ} (hn : i < n) :
    (c + i) % max ∈ looked max n c := by
  induction n generalizing c i with
  | zero => omega
  | succ n ih =>
    rw [looked]
    cases i with
    | zero =>
      have hself : (c + 0) % max = c := Nat.mod_eq_of_lt hc
      rw [hself]
      exact List.mem_cons_self
    | succ i =>
      refine List.mem_cons_of_mem _ ?_
      by_cases hlast : c = max - 1
      · have hmem := ih (show 0 < max by omega) (show i < n by omega)
        have hwrap : c + (i + 1) = 0 + i + max := by omega
        rw [if_pos hlast, hwrap, Nat.add_mod_right]
        exact hmem
      · have hmem := ih (show c + 1 < max by omega) (show i < n by omega)
        have hshift : c + (i + 1) = c + 1 + i := by omega
        rw [if_neg hlast, hshift]
        exact hmem

/-- Every number is looked at in one round of all of them. -/
theorem mem_looked_of_lt {max c d : ℕ} (hc : c < max) (hd : d < max) : d ∈ looked max max c := by
  by_cases hle : c ≤ d
  · have hmem := mem_looked hc (show d - c < max by omega)
    have hsum : c + (d - c) = d := by omega
    rwa [hsum, Nat.mod_eq_of_lt hd] at hmem
  · have hmem := mem_looked hc (show d + max - c < max by omega)
    have hsum : c + (d + max - c) = d + max := by omega
    rwa [hsum, Nat.add_mod_right, Nat.mod_eq_of_lt hd] at hmem

theorem findUnusedConid_eq_find? (n : ℕ) (c : ℕ) :
    o.findUnusedConid n c =
      (looked o.max_connections n c).find? fun d => d ∉ o.connections_list := by
  induction n generalizing c with
  | zero => rfl
  | succ n ih =>
    rw [findUnusedConid, looked, List.find?_cons, ih]
    by_cases hc : c ∈ o.connections_list
    · rw [if_neg (fun h => findConnectionByConid_eq_none_iff.mp h hc)]
      simp [hc]
    · rw [if_pos (findConnectionByConid_eq_none_iff.mpr hc)]
      simp [hc]

/-- **The search ends**, after no more rounds than there are numbers, at one that is not taken. -/
theorem findUnusedConid_spec (h : Table o) (hroom : o.num_connections < o.max_connections) :
    ∃ conid, o.findUnusedConid o.max_connections o.next_conid = some conid ∧
      conid ∉ o.connections_list ∧ conid < o.max_connections := by
  -- the numbers that are taken are fewer than all of them
  have hfree : ∃ d ∈ Finset.range o.max_connections, d ∉ o.connections_list.toFinset := by
    apply Finset.exists_mem_notMem_of_card_lt_card
    rw [List.toFinset_card_of_nodup h.nodup, Finset.card_range, ← h.num_eq]
    exact hroom
  obtain ⟨d, hd, hdfree⟩ := hfree
  rw [Finset.mem_range] at hd
  rw [List.mem_toFinset] at hdfree
  have hlooked : ∀ n c, c < o.max_connections →
      ∀ e ∈ looked o.max_connections n c, e < o.max_connections := by
    intro n
    induction n with
    | zero => intro c _ e he; cases he
    | succ n ih =>
      intro c hc e he
      rcases List.mem_cons.mp he with rfl | he
      · exact hc
      · refine ih _ ?_ e he
        split <;> omega
  rw [findUnusedConid_eq_find?]
  have hsome : ((looked o.max_connections o.max_connections o.next_conid).find?
      fun d => d ∉ o.connections_list).isSome := by
    rw [List.find?_isSome]
    exact ⟨d, mem_looked_of_lt h.next_lt hd, decide_eq_true hdfree⟩
  obtain ⟨conid, hfind⟩ := Option.isSome_iff_exists.mp hsome
  refine ⟨conid, hfind, by simpa using List.find?_some hfind, ?_⟩
  exact hlooked _ _ h.next_lt _ (List.mem_of_find?_eq_some hfind)

/-! ## 4. The handlers keep it -/

@[simp] theorem conaddr_enqueue (p : Sent) (room : Bool) (d : ℕ) :
    ((o.enqueue c p room).connection d).conaddr = (o.connection d).conaddr := by
  rw [enqueue]
  split
  · by_cases h : d = c
    · rw [h, connection_setConnection_self]
    · rw [connection_setConnection_of_ne _ h]
  · rfl

theorem queue_enqueue (p : Sent) (room : Bool) (d : ℕ) :
    ((o.enqueue c p room).connection d).queue =
      (o.connection d).queue ++ if room ∧ d = c then [p] else [] := by
  rw [enqueue]
  by_cases hroom : room = true
  · by_cases h : d = c
    · rw [if_pos hroom, h, connection_setConnection_self, if_pos ⟨hroom, rfl⟩]
    · rw [if_pos hroom, connection_setConnection_of_ne _ h, if_neg (fun hand => h hand.2),
        List.append_nil]
  · rw [if_neg hroom, if_neg (fun hand => hroom hand.1), List.append_nil]

theorem first_enqueue (p : Sent) (room : Bool) (d : ℕ) :
    ((o.enqueue c p room).connection d).first_data = (o.connection d).first_data ∧
      ((o.enqueue c p room).connection d).first_flags = (o.connection d).first_flags := by
  rw [enqueue]
  split
  · by_cases h : d = c
    · rw [h, connection_setConnection_self]
      exact ⟨rfl, rfl⟩
    · rw [connection_setConnection_of_ne _ h]
      exact ⟨rfl, rfl⟩
  · exact ⟨rfl, rfl⟩

theorem fields_enqueue (p : Sent) (room : Bool) :
    (o.enqueue c p room).udp_mtu = o.udp_mtu ∧
      (o.enqueue c p room).max_connections = o.max_connections ∧
      (o.enqueue c p room).connections_list = o.connections_list ∧
      (o.enqueue c p room).num_connections = o.num_connections ∧
      (o.enqueue c p room).next_conid = o.next_conid ∧
      (o.enqueue c p room).first_job = o.first_job := by
  rw [enqueue]
  split <;> exact ⟨rfl, rfl, rfl, rfl, rfl, rfl⟩

/-- The data of a packet fits, so the packet does. -/
theorem connectionSend_eq (c : ℕ) (flags : UInt8) {data : List UInt8} (room : Bool)
    (hdata : data.length ≤ o.udp_mtu) :
    o.connectionSend c flags data room = some (o.enqueue c (o.written c flags data) room) :=
  if_pos ⟨hdata, length_packet_le _ _ _ hdata⟩

/-- A packet more leaves the table as it is. -/
theorem table_enqueue (h : Table o) (hc : c ∈ o.connections_list) {p : Sent} (room : Bool)
    (hp : Written o.udp_mtu c p) : Table (o.enqueue c p room) := by
  obtain ⟨hmtu, hmax, hlist, hnum, hnext, hjob⟩ := @fields_enqueue o c p room
  refine ⟨by rw [hmax]; exact h.max_pos, by rw [hmax]; exact h.max_le,
    by rw [hnum, hlist]; exact h.num_eq, by rw [hlist]; exact h.nodup,
    by rw [hlist, hmax]; exact h.conid_lt, by rw [hnext, hmax]; exact h.next_lt, ?_, ?_, ?_, ?_⟩
  · rw [hlist]
    intro d hd e he heq
    rw [conaddr_enqueue, conaddr_enqueue] at heq
    exact h.conaddr_inj d hd e he heq
  · rw [hjob, hlist, hmtu]
    intro d hd
    rw [(first_enqueue p room d).1, (first_enqueue p room d).2]
    exact h.first_job d hd
  · rw [hlist]
    intro d hd
    have hne : ¬ (room = true ∧ d = c) := fun hand => hd (hand.2 ▸ hc)
    rw [queue_enqueue, if_neg hne, List.append_nil]
    exact h.queue_nil d hd
  · rw [hmtu]
    intro d q hq
    rw [queue_enqueue] at hq
    rcases List.mem_append.mp hq with hq | hq
    · exact h.written d q hq
    · split at hq
      · rename_i hand
        rw [List.mem_singleton.mp hq, hand.2]
        exact hp
      · cases hq

theorem mem_moveToBack (hc : c ∈ o.connections_list) (d : ℕ) :
    d ∈ (o.moveToBack c).connections_list ↔ d ∈ o.connections_list := by
  show d ∈ o.connections_list.erase c ++ [c] ↔ _
  have hperm : (o.connections_list.erase c ++ [c]).Perm o.connections_list :=
    (List.perm_append_singleton c _).trans (List.perm_cons_erase hc).symm
  exact hperm.mem_iff

theorem table_moveToBack (h : Table o) (hc : c ∈ o.connections_list) :
    Table (o.moveToBack c) := by
  have hperm : (o.connections_list.erase c ++ [c]).Perm o.connections_list :=
    (List.perm_append_singleton c _).trans (List.perm_cons_erase hc).symm
  have hmem := mem_moveToBack hc
  exact ⟨h.max_pos, h.max_le, h.num_eq.trans hperm.length_eq.symm, hperm.nodup_iff.mpr h.nodup,
    fun d hd => h.conid_lt d ((hmem d).mp hd), h.next_lt,
    fun d hd e he => h.conaddr_inj d ((hmem d).mp hd) e ((hmem e).mp he),
    fun d hd => ⟨(hmem d).mpr (h.first_job d hd).1, (h.first_job d hd).2⟩,
    fun d hd => h.queue_nil d (fun hin => hd ((hmem d).mpr hin)), h.written⟩

/-- The connection is bound to a pair that no connection has. -/
theorem table_rebind (h : Table o) {a : Conaddr}
    (ha : ∀ d ∈ o.connections_list, (o.connection d).conaddr ≠ a) :
    Table (o.setConnection c { o.connection c with conaddr := a }) := by
  have hfirst : ∀ d, ((o.setConnection c { o.connection c with conaddr := a }).connection d).queue =
      (o.connection d).queue ∧
      ((o.setConnection c { o.connection c with conaddr := a }).connection d).first_data =
        (o.connection d).first_data ∧
      ((o.setConnection c { o.connection c with conaddr := a }).connection d).first_flags =
        (o.connection d).first_flags := by
    intro d
    by_cases hdc : d = c
    · rw [hdc, connection_setConnection_self]
      exact ⟨rfl, rfl, rfl⟩
    · rw [connection_setConnection_of_ne _ hdc]
      exact ⟨rfl, rfl, rfl⟩
  refine ⟨h.max_pos, h.max_le, h.num_eq, h.nodup, h.conid_lt, h.next_lt, ?_, ?_, ?_, ?_⟩
  · intro d hd e he heq
    by_cases hdc : d = c
    · by_cases hec : e = c
      · rw [hdc, hec]
      · rw [hdc, connection_setConnection_self, connection_setConnection_of_ne _ hec] at heq
        exact absurd heq.symm (ha e he)
    · by_cases hec : e = c
      · rw [hec, connection_setConnection_self, connection_setConnection_of_ne _ hdc] at heq
        exact absurd heq (ha d hd)
      · rw [connection_setConnection_of_ne _ hdc, connection_setConnection_of_ne _ hec] at heq
        exact h.conaddr_inj d hd e he heq
  · intro d hd
    rw [(hfirst d).2.1, (hfirst d).2.2]
    exact h.first_job d hd
  · intro d hd
    rw [(hfirst d).1]
    exact h.queue_nil d hd
  · intro d p hp
    rw [(hfirst d).1] at hp
    exact h.written d p hp

theorem table_withConnection (h : Table o) {a : Conaddr} {is_dns : Bool} {data : List UInt8}
    (hc : c ∉ o.connections_list) (hlt : c < o.max_connections)
    (ha : ∀ d ∈ o.connections_list, (o.connection d).conaddr ≠ a)
    (hdata : data.length ≤ o.udp_mtu) : Table (o.withConnection c a (plainFlags is_dns) data) := by
  obtain ⟨n, hn⟩ : ∃ n, n = o.withConnection c a (plainFlags is_dns) data := ⟨_, rfl⟩
  have hself : n.connection c =
      { conaddr := a, first_flags := plainFlags is_dns, first_data := data, queue := [] } := by
    rw [hn]
    exact if_pos rfl
  have hother : ∀ d, d ≠ c → n.connection d = o.connection d := fun d hd => by
    rw [hn]
    exact if_neg hd
  have hlist : n.connections_list = o.connections_list ++ [c] := by
    rw [hn]
    rfl
  have hmem : ∀ d, d ∈ n.connections_list ↔ d ∈ o.connections_list ∨ d = c := fun d => by
    rw [hlist]
    simp
  have hne : ∀ d ∈ o.connections_list, d ≠ c := fun d hd heq => hc (heq ▸ hd)
  have hfields : n.udp_mtu = o.udp_mtu ∧ n.max_connections = o.max_connections ∧
      n.num_connections = o.num_connections + 1 ∧ n.next_conid = c ∧ n.first_job = some c := by
    rw [hn]
    exact ⟨rfl, rfl, rfl, rfl, rfl⟩
  obtain ⟨hmtu, hmax, hnum, hnext, hjob⟩ := hfields
  rw [← hn]
  refine ⟨by rw [hmax]; exact h.max_pos, by rw [hmax]; exact h.max_le, ?_, ?_, ?_,
    by rw [hnext, hmax]; exact hlt, ?_, ?_, ?_, ?_⟩
  · rw [hnum, hlist, List.length_append, h.num_eq]
    rfl
  · rw [hlist, List.nodup_append_comm]
    exact List.nodup_cons.mpr ⟨hc, h.nodup⟩
  · intro d hd
    rw [hmax]
    rcases (hmem d).mp hd with hd | rfl
    · exact h.conid_lt d hd
    · exact hlt
  · intro d hd e he heq
    rcases (hmem d).mp hd with hd | rfl
    · rcases (hmem e).mp he with he | rfl
      · rw [hother d (hne d hd), hother e (hne e he)] at heq
        exact h.conaddr_inj d hd e he heq
      · rw [hother d (hne d hd), hself] at heq
        exact absurd heq (ha d hd)
    · rcases (hmem e).mp he with he | rfl
      · rw [hother e (hne e he), hself] at heq
        exact absurd heq.symm (ha e he)
      · rfl
  · intro d hd
    obtain rfl := Option.some.inj (hjob.symm.trans hd)
    rw [hmtu, hself]
    exact ⟨(hmem c).mpr (Or.inr rfl), hdata, is_dns, rfl⟩
  · intro d hd
    have hd' : ¬ (d ∈ o.connections_list ∨ d = c) := fun hor => hd ((hmem d).mpr hor)
    rw [hother d (fun heq => hd' (Or.inr heq))]
    exact h.queue_nil d (fun hin => hd' (Or.inl hin))
  · intro d p hp
    rw [hmtu]
    by_cases hdc : d = c
    · rw [hdc, hself] at hp
      cases hp
    · rw [hother d hdc] at hp
      exact h.written d p hp

/-- The flags that are written: those of a packet that changes nothing, of one that binds the
connection again, and of the first one. -/
theorem flags_written (is_dns : Bool) :
    (hasFlag (plainFlags is_dns) flagIPv6 = false ∧
        hasFlag (plainFlags is_dns) flagKeepalive = false) ∧
      (hasFlag (plainFlags is_dns ||| flagRebind) flagIPv6 = false ∧
        hasFlag (plainFlags is_dns ||| flagRebind) flagKeepalive = false ∧
        hasFlag (plainFlags is_dns ||| flagRebind) flagRebind = true) ∧
      (hasFlag (flagRebind ||| plainFlags is_dns) flagIPv6 = false ∧
        hasFlag (flagRebind ||| plainFlags is_dns) flagKeepalive = false ∧
        hasFlag (flagRebind ||| plainFlags is_dns) flagRebind = true) := by
  revert is_dns
  decide

/-- **What `UdpGwClient_SubmitPacket` can do**: send on the connection of the pair; bind the least
recently used one to it; make a new one; or fail to. -/
theorem submitPacket_cases (h : Table o) {a : Conaddr} {is_dns room : Bool} {data : List UInt8}
    {result : InitResult} (hdata : data.length ≤ o.udp_mtu) :
    ∃ o', o.submitPacket a is_dns data room result = some o' ∧ Table o' ∧
      ((∃ c, c ∈ o.connections_list ∧ (o.connection c).conaddr = a ∧
          o' = (o.moveToBack c).enqueue c
            { flags := plainFlags is_dns, conid := c, conaddr := a, data } room) ∨
        ((∀ c ∈ o.connections_list, (o.connection c).conaddr ≠ a) ∧
          o.num_connections = o.max_connections ∧ ∃ c, c ∈ o.connections_list ∧
          o' = ((o.setConnection c { o.connection c with conaddr := a }).moveToBack c).enqueue c
            { flags := plainFlags is_dns ||| flagRebind, conid := c, conaddr := a, data } room) ∨
        ((∀ c ∈ o.connections_list, (o.connection c).conaddr ≠ a) ∧
          ∃ c, c ∉ o.connections_list ∧ o' = o.withConnection c a (plainFlags is_dns) data) ∨
        ∃ next_conid, o' = { o with next_conid }) := by
  have hflags := flags_written is_dns
  rw [submitPacket]
  simp only
  cases hfind : o.findConnectionByConaddr a with
  | some c =>
    obtain ⟨hc, hca⟩ := findConnectionByConaddr_eq_some hfind
    have hp : Written o.udp_mtu c ((o.moveToBack c).written c (plainFlags is_dns) data) :=
      ⟨rfl, hflags.1.1, hflags.1.2, hdata⟩
    have htable := table_enqueue (table_moveToBack h hc) ((mem_moveToBack hc c).mpr hc) room hp
    have hsend := @connectionSend_eq (o.moveToBack c) c (plainFlags is_dns) data room hdata
    refine ⟨_, hsend, htable, Or.inl ⟨c, hc, hca, ?_⟩⟩
    rw [← hca]
    rfl
  | none =>
    have hnew := findConnectionByConaddr_eq_none_iff.mp hfind
    by_cases hfull : o.num_connections = o.max_connections
    · have hpos : o.num_connections > 0 := hfull ▸ h.max_pos
      have hne : o.connections_list ≠ [] := by
        rw [← List.length_pos_iff_ne_nil, ← h.num_eq]
        exact hpos
      obtain ⟨c, rest, hlist⟩ := List.exists_cons_of_ne_nil hne
      have hc : c ∈ o.connections_list := by rw [hlist]; simp
      obtain ⟨n, hn⟩ : ∃ n, n = o.setConnection c { o.connection c with conaddr := a } := ⟨_, rfl⟩
      have hreuse : o.reuseConnection a = some (c, n) := by
        rw [reuseConnection, if_pos ⟨hfind, hpos⟩, hlist, hn]
      have htable_n : Table n := hn ▸ table_rebind h hnew
      have hc_n : c ∈ n.connections_list := by rw [hn]; exact hc
      have hmtu_n : n.udp_mtu = o.udp_mtu := by rw [hn]; rfl
      have hca : (n.connection c).conaddr = a := by rw [hn, connection_setConnection_self]
      have hp : Written n.udp_mtu c
          ((n.moveToBack c).written c (plainFlags is_dns ||| flagRebind) data) :=
        ⟨rfl, hflags.2.1.1, hflags.2.1.2.1, hmtu_n ▸ hdata⟩
      have htable := table_enqueue (table_moveToBack htable_n hc_n)
        ((mem_moveToBack hc_n c).mpr hc_n) room hp
      have hsend := @connectionSend_eq (n.moveToBack c) c (plainFlags is_dns ||| flagRebind) data
        room (hmtu_n ▸ hdata)
      rw [if_pos hfull, hreuse]
      refine ⟨_, hsend, htable, Or.inr (Or.inl ⟨hnew, hfull, c, hc, ?_⟩)⟩
      rw [← hn]
      rw [← hca]
      rfl
    · have hroom : o.num_connections < o.max_connections := by
        have hle := h.length_le
        rw [← h.num_eq] at hle
        omega
      obtain ⟨c, hsearch, hc, hlt⟩ := findUnusedConid_spec h hroom
      have hassert := (⟨hroom, hfind, hdata⟩ : o.num_connections < o.max_connections ∧
        o.findConnectionByConaddr a = none ∧ data.length ≤ o.udp_mtu)
      rw [if_neg hfull]
      cases result with
      | fail0 =>
        exact ⟨o, if_pos hassert, h, Or.inr (Or.inr (Or.inr ⟨o.next_conid, rfl⟩))⟩
      | fail1 =>
        refine ⟨{ o with next_conid := c }, ?_, ?_, Or.inr (Or.inr (Or.inr ⟨c, rfl⟩))⟩
        · rw [connectionInit, if_pos hassert, hsearch]
          rfl
        · exact ⟨h.max_pos, h.max_le, h.num_eq, h.nodup, h.conid_lt, hlt, h.conaddr_inj,
            h.first_job, h.queue_nil, h.written⟩
      | done =>
        refine ⟨o.withConnection c a (plainFlags is_dns) data, ?_,
          table_withConnection h hc hlt hnew hdata, Or.inr (Or.inr (Or.inl ⟨hnew, c, hc, rfl⟩))⟩
        rw [connectionInit, if_pos hassert, hsearch]
        rfl

/-- **The first job sends the packet that the connection was made for.** -/
theorem connectionFirstJobHandler_eq (h : Table o) {room : Bool} (hjob : o.first_job = some c) :
    c ∈ o.connections_list ∧ ∃ is_dns,
      Table ({ o with first_job := none } : UdpGwClient) ∧
      Written o.udp_mtu c
        { flags := flagRebind ||| plainFlags is_dns, conid := c,
          conaddr := (o.connection c).conaddr, data := (o.connection c).first_data } ∧
      o.connectionFirstJobHandler room = some (({ o with first_job := none } :
          UdpGwClient).enqueue c
        { flags := flagRebind ||| plainFlags is_dns, conid := c,
          conaddr := (o.connection c).conaddr, data := (o.connection c).first_data } room) := by
  obtain ⟨hc, hdata, is_dns, hfirst⟩ := h.first_job c hjob
  have hflags := flags_written is_dns
  refine ⟨hc, is_dns, ⟨h.max_pos, h.max_le, h.num_eq, h.nodup, h.conid_lt, h.next_lt, h.conaddr_inj,
    fun d hd => (by cases hd), h.queue_nil, h.written⟩,
    ⟨rfl, hflags.2.2.1, hflags.2.2.2.1, hdata⟩, ?_⟩
  rw [connectionFirstJobHandler, hjob]
  simp only
  rw [hfirst]
  exact connectionSend_eq c _ room hdata

/-- **What is passed to the user** comes from the remote address that the connection is bound to. -/
theorem recvInterfaceHandlerSend_cases (h : Table o) (bs : List UInt8) :
    o.recvInterfaceHandlerSend bs = (o, none) ∨
      ∃ c flags data, c ∈ o.connections_list ∧
        parse bs = some (flags, c, (o.connection c).conaddr.remote_addr, data) ∧
        data.length ≤ o.udp_mtu ∧ Table (o.moveToBack c) ∧
        o.recvInterfaceHandlerSend bs =
          (o.moveToBack c, some ((o.connection c).conaddr, data)) := by
  rw [recvInterfaceHandlerSend]
  split
  · exact Or.inl rfl
  · rename_i flags conid remote_addr data hparse
    split
    · exact Or.inl rfl
    · rename_i hle
      split
      · exact Or.inl rfl
      · rename_i c hfind
        obtain ⟨rfl, hc⟩ := findConnectionByConid_eq_some hfind
        split
        · exact Or.inl rfl
        · rename_i hremote
          rw [ne_eq, not_not] at hremote
          rw [← hremote] at hparse
          exact Or.inr ⟨c, flags, data, hc, hparse, by omega, table_moveToBack h hc, rfl⟩

theorem table_take (h : Table o) {p : Sent} {queue : List Sent}
    (hq : (o.connection c).queue = p :: queue) :
    Table (o.setConnection c { o.connection c with queue }) := by
  have hkeep : ∀ d, ((o.setConnection c { o.connection c with queue }).connection d).conaddr =
      (o.connection d).conaddr ∧
      ((o.setConnection c { o.connection c with queue }).connection d).first_data =
        (o.connection d).first_data ∧
      ((o.setConnection c { o.connection c with queue }).connection d).first_flags =
        (o.connection d).first_flags ∧
      ((o.setConnection c { o.connection c with queue }).connection d).queue <:+
        (o.connection d).queue := by
    intro d
    by_cases hdc : d = c
    · rw [hdc, connection_setConnection_self]
      refine ⟨rfl, rfl, rfl, ?_⟩
      rw [hq]
      exact List.suffix_cons p queue
    · rw [connection_setConnection_of_ne _ hdc]
      exact ⟨rfl, rfl, rfl, List.suffix_rfl⟩
  refine ⟨h.max_pos, h.max_le, h.num_eq, h.nodup, h.conid_lt, h.next_lt, ?_, ?_, ?_, ?_⟩
  · intro d hd e he heq
    rw [(hkeep d).1, (hkeep e).1] at heq
    exact h.conaddr_inj d hd e he heq
  · intro d hd
    rw [(hkeep d).2.1, (hkeep d).2.2.1]
    exact h.first_job d hd
  · intro d hd
    have hnil := (hkeep d).2.2.2
    rw [h.queue_nil d hd] at hnil
    exact List.suffix_nil.mp hnil
  · exact fun d q hq => h.written d q ((hkeep d).2.2.2.subset hq)

theorem table_init {udp_mtu max_connections : ℕ} (hmax : 0 < max_connections) :
    Table (init udp_mtu max_connections) := by
  have hle : 0 < (init udp_mtu max_connections).max_connections ∧
      (init udp_mtu max_connections).max_connections ≤ 65536 := by
    have hlimit : (init udp_mtu max_connections).max_connections =
        if max_connections > 65535 + 1 then 65535 + 1 else max_connections := rfl
    rw [hlimit]
    split <;> omega
  exact ⟨hle.1, hle.2, rfl, List.nodup_nil, fun c hc => (by cases hc), hle.1,
    fun c hc => (by cases hc), fun c hc => (by cases hc), fun c hc => rfl,
    fun c p hp => (by cases hp)⟩

end UdpGwClient
end ShiroKhorshid.Tun
