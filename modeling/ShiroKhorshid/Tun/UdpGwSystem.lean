/-
# The udpgw client and the gateway together

The client's send queue hands the packets of its connections, each connection's in order, to a
connector, and from there they go to the gateway in a stream; the gateway's packets come back in
another.  A connector keeps a packet until it is done, and sends it again to the next server
when the one it was sent to is gone; the gateway then starts with nothing.

The local address is not on the wire, so the gateway cannot see that two packets of one connection
were submitted for different local addresses: it relies on the client to say so.  Three things are
known of a state, and each is about everything that is on the way:

* `Inv`, whatever happens: packets on the way were written by a connection of the client, and the
  gateway's connections are for such.
* `Bound`, where a packet that binds a connection to another pair finds room: what each packet on
  the way says, by its flag or by its address, is `Consistent` with the one before it, so that the
  gateway is told of every change before it matters.  It carries `udpgw_isolation`.
* `Exact`, where no connection is bound to another pair: everything belongs to the pair that its
  connection is bound to now.  It carries `udpgw_replies`.

`Bound` has to speak of the packet in the connector twice: the present server has been sent it and
the next one will be, with what waits behind it in either case.

`Effect` collects all that has to be known of one event, so that a run needs no other fact about it.

The two streams keep their order and lose nothing while the server is the same; that is TCP's part
and not proved here.  Times are not modelled: any event that can happen may come next.
-/
import ShiroKhorshid.Tun.UdpGateway

namespace ShiroKhorshid.Tun

open Udpgw
open UdpGwClient (plainFlags)

/-! ## 1. The system -/

/-- A packet on its way to the client, with the connection and the pair of the one that sent it. -/
structure Reply where
  bytes : List UInt8
  conid : ℕ
  owner : Conaddr

/-- What the client passes to the user, with the pair of the gateway's connection it came from. -/
structure Delivery where
  conaddr : Conaddr
  data : List UInt8
  owner : Conaddr

structure UdpGwSystem where
  client : UdpGwClient
  server : Client
  have_server : Bool
  /-- the packet in `send_connector` -/
  under_way : Option Sent
  /-- what the gateway has not read yet -/
  up : List Sent
  /-- what the client has not read yet -/
  down : List Reply

namespace UdpGwSystem

inductive Event
  | submit (conaddr : Conaddr) (is_dns : Bool) (data : List UInt8) (room : Bool)
      (result : InitResult)
  | firstJob (room : Bool)
  /-- the client's send queue goes on with a packet of the connection -/
  | clientTake (c : ℕ)
  /-- the connector is done with its packet -/
  | clientDone
  | serverRecv (dns_addr : Option BAddr) (ok room : Bool)
  | serverFirstJob (room : Bool)
  /-- a datagram arrives on the socket of a connection -/
  | udpRecv (k : ℕ) (data : List UInt8) (room : Bool)
  /-- `connection_dgram_handler_event` -/
  | udpError (k : ℕ)
  /-- the gateway's send queue goes on with a packet of the connection -/
  | serverTake (k : ℕ)
  | serverDone
  | clientRecv
  | connect
  | disconnect

def init (udp_mtu max_connections gw_mtu gw_max : ℕ) : UdpGwSystem where
  client := .init udp_mtu max_connections
  server := .init gw_mtu gw_max
  have_server := false
  under_way := none
  up := []
  down := []

/-- When an event can happen.  A connection that has just been made sends its first packet before
anything else; and an end that is sent a packet larger than any it takes gives up the stream. -/
def Enabled (s : UdpGwSystem) : Event → Prop
  | .submit _ _ data _ _ => s.client.first_job = none ∧ data.length ≤ s.client.udp_mtu
  | .firstJob _ => s.client.first_job.isSome
  | .clientTake c => s.under_way = none ∧ (s.client.connection c).queue ≠ []
  | .clientDone => s.have_server = true ∧ s.under_way.isSome
  | .serverRecv _ _ _ => s.server.first_job = none ∧
      s.up.head?.any fun p => p.bytes.length ≤ s.server.udpgw_mtu
  | .serverFirstJob _ => s.server.first_job.isSome
  | .udpRecv k data _ => k ∈ s.server.connections_list ∧ data.length ≤ s.server.udp_mtu
  | .udpError k => k ∈ s.server.connections_list
  | .serverTake k => s.server.sending = none ∧ k ∈ s.server.connections_list ∧
      (s.server.connection k).queue ≠ []
  | .serverDone => s.server.sending.isSome
  | .clientRecv => s.down.head?.any fun r => r.bytes.length ≤ computeMtu s.client.udp_mtu
  | .connect => s.have_server = false
  | .disconnect => s.have_server = true

instance (s : UdpGwSystem) (e : Event) : Decidable (s.Enabled e) := by
  cases e <;> unfold Enabled <;> infer_instance

/-- What an event does, what the gateway gives to its sockets and what the client passes on; `none`
where an assertion fails. -/
def handle (s : UdpGwSystem) : Event → Option (UdpGwSystem × List Datagram × List Delivery)
  | .submit conaddr is_dns data room result =>
    (s.client.submitPacket conaddr is_dns data room result).map fun client =>
      ({ s with client }, [], [])
  | .firstJob room =>
    (s.client.connectionFirstJobHandler room).map fun client => ({ s with client }, [], [])
  | .clientTake c =>
    (s.client.take c).map fun (p, client) =>
      ({ s with
          client
          under_way := some p
          up := if s.have_server then s.up ++ [p] else s.up }, [], [])
  | .clientDone => some ({ s with under_way := none }, [], [])
  | .serverRecv dns_addr ok room =>
    match s.up with
    | [] => none
    | p :: up =>
      (s.server.recvIfHandlerSend p.bytes p.conaddr dns_addr ok room).map fun (server, out) =>
        ({ s with server, up }, out, [])
  | .serverFirstJob room =>
    (s.server.firstJobHandler room).map fun (server, out) => ({ s with server }, out, [])
  | .udpRecv k data room =>
    (s.server.udpRecvIfHandlerSend k data room).map fun server => ({ s with server }, [], [])
  | .udpError k => (s.server.connectionClose k).map fun server => ({ s with server }, [], [])
  | .serverTake k =>
    (s.server.take k).map fun (bytes, server) =>
      let con := s.server.connection k
      ({ s with
          server
          down := s.down ++ [{ bytes, conid := con.conid, owner := con.owner }] }, [], [])
  | .serverDone => s.server.sendDone.map fun server => ({ s with server }, [], [])
  | .clientRecv =>
    match s.down with
    | [] => none
    | r :: down =>
      let (client, received) := s.client.recvInterfaceHandlerSend r.bytes
      some ({ s with client, down }, [],
        received.toList.map fun (conaddr, data) => { conaddr, data, owner := r.owner })
  | .connect => some ({ s with have_server := true, up := s.under_way.toList }, [], [])
  | .disconnect =>
    some ({ s with have_server := false, server := s.server.renew, up := [], down := [] }, [], [])

def step (s : UdpGwSystem) (e : Event) : Option UdpGwSystem :=
  if s.Enabled e then (s.handle e).map Prod.fst else none

/-- What the gateway gives to its sockets with an event. -/
def datagrams (s : UdpGwSystem) (e : Event) : List Datagram :=
  ((s.handle e).map fun r => r.2.1).getD []

/-- What the client passes to the user with an event. -/
def deliveries (s : UdpGwSystem) (e : Event) : List Delivery :=
  ((s.handle e).map fun r => r.2.2).getD []

/-! ## 2. What holds at any time -/

/-- What is on the way was written by a connection of the client, and the gateway's connections are
for such; without a server there are none. -/
structure Inv (s : UdpGwSystem) : Prop where
  table : s.client.Table
  sound : s.server.Sound
  sent : ∀ p ∈ s.up ++ s.under_way.toList, UdpGwClient.Written s.client.udp_mtu p.conid p ∧
    p.conid ∈ s.client.connections_list
  reply : ∀ r ∈ s.down, r.conid ∈ s.client.connections_list ∧
    ∃ data, r.bytes = packet 0 r.conid r.owner.remote_addr data
  known : ∀ k ∈ s.server.connections_list,
    (s.server.connection k).conid ∈ s.client.connections_list
  idle : s.have_server = false → s.up = [] ∧ s.server.connections_list = []

/-- What a packet says about the one before it: that the connection has been bound again, or that
both were submitted for the same pair; and the last one was submitted for `a`. -/
def Consistent (a : Conaddr) : Option Conaddr → List Sent → Prop
  | last, [] => ∀ b, last = some b → b = a
  | last, p :: l =>
    (hasFlag p.flags flagRebind = true ∨ ∀ b, last = some b → b = p.conaddr) ∧
      Consistent a (some p.conaddr) l

/-- The packets of one connection. -/
def ofConid (c : ℕ) (l : List Sent) : List Sent := l.filter fun p => p.conid = c

/-- The packets of a connection that are on the way or wait, after what its connection at the
gateway was opened for, tell the gateway all it needs to know. -/
structure Bound (s : UdpGwSystem) : Prop where
  mtu_le : s.client.udp_mtu ≤ s.server.udp_mtu
  opened : ∀ c ∈ s.client.connections_list, ∀ k ∈ s.server.connections_list,
    (s.server.connection k).conid = c →
    Consistent (s.client.connection c).conaddr (some (s.server.connection k).owner)
      (ofConid c s.up ++ (s.client.connection c).queue)
  up : ∀ c ∈ s.client.connections_list, Consistent (s.client.connection c).conaddr none
    (ofConid c s.up ++ (s.client.connection c).queue)
  /-- and so do those that a new server gets -/
  again : ∀ c ∈ s.client.connections_list, Consistent (s.client.connection c).conaddr none
    (ofConid c s.under_way.toList ++ (s.client.connection c).queue)

/-- Everything belongs to the pair that its connection is bound to now. -/
structure Exact (s : UdpGwSystem) : Prop where
  queue : ∀ c ∈ s.client.connections_list, ∀ p ∈ (s.client.connection c).queue,
    p.conaddr = (s.client.connection c).conaddr
  sent : ∀ p ∈ s.up ++ s.under_way.toList, p.conaddr = (s.client.connection p.conid).conaddr
  opened : ∀ k ∈ s.server.connections_list, (s.server.connection k).owner =
    (s.client.connection (s.server.connection k).conid).conaddr
  reply : ∀ r ∈ s.down, r.owner = (s.client.connection r.conid).conaddr

/-- The event binds no connection to another pair. -/
def Keeps (s : UdpGwSystem) : Event → Prop
  | .submit conaddr _ _ _ _ => s.client.findConnectionByConaddr conaddr = none →
      s.client.num_connections ≠ s.client.max_connections
  | _ => True

/-- Where the event binds a connection to another pair, there is room for the packet that says so.
-/
def Tells (s : UdpGwSystem) : Event → Prop
  | .submit conaddr _ _ room _ => s.client.findConnectionByConaddr conaddr = none →
      s.client.num_connections = s.client.max_connections → room = true
  | _ => True

instance (s : UdpGwSystem) (e : Event) : Decidable (s.Tells e) := by
  cases e <;> unfold Tells <;> infer_instance

/-- The pair that a packet is submitted for. -/
def Event.pair : Event → Option Conaddr
  | .submit conaddr _ _ _ _ => some conaddr
  | _ => none

/-- All there is to know of one event. -/
structure Effect (s : UdpGwSystem) (e : Event) (t : UdpGwSystem) (out : List Datagram)
    (dels : List Delivery) : Prop where
  inv : Inv t
  next_le : s.server.next ≤ t.server.next
  fixed : ∀ k < s.server.next, (t.server.connection k).addr = (s.server.connection k).addr ∧
    (t.server.connection k).orig_addr = (s.server.connection k).orig_addr ∧
    (t.server.connection k).owner = (s.server.connection k).owner
  max_eq : t.client.max_connections = s.client.max_connections
  pairs : ∀ c ∈ t.client.connections_list, (c ∈ s.client.connections_list ∧
    (t.client.connection c).conaddr = (s.client.connection c).conaddr) ∨
      e.pair = some (t.client.connection c).conaddr
  out_fixed : ∀ g ∈ out, g.socket < t.server.next ∧
    g.addr = (t.server.connection g.socket).addr ∧
    g.conaddr.remote_addr = (t.server.connection g.socket).orig_addr
  dels_remote : ∀ d ∈ dels, d.conaddr.remote_addr = d.owner.remote_addr
  bound : Bound s → s.Tells e →
    Bound t ∧ ∀ g ∈ out, g.conaddr = (t.server.connection g.socket).owner
  kept : Exact s → s.Keeps e → Exact t ∧ ∀ d ∈ dels, d.conaddr = d.owner

variable {s : UdpGwSystem} {a : Conaddr} {last : Option Conaddr} {l : List Sent} {p : Sent}

theorem consistent_none (h : Consistent a last l) : Consistent a none l := by
  cases l with
  | nil => exact fun b hb => by cases hb
  | cons p l => exact ⟨Or.inr (fun b hb => by cases hb), h.2⟩

/-- Nothing is lost with the first packet. -/
theorem consistent_tail (h : Consistent a last (p :: l)) : Consistent a none l :=
  consistent_none h.2

theorem consistent_drop (l' : List Sent) (h : Consistent a none (l' ++ l)) :
    Consistent a none l := by
  induction l' with
  | nil => exact h
  | cons q l' ih => exact ih (consistent_tail h)

theorem consistent_append (h : Consistent a last l) (hp : p.conaddr = a) :
    Consistent a last (l ++ [p]) := by
  induction l generalizing last with
  | nil =>
    refine ⟨Or.inr (fun b hb => ?_), fun b hb => ?_⟩
    · rw [h b hb, hp]
    · rw [← Option.some.inj hb, hp]
  | cons q l ih => exact ⟨h.1, ih h.2⟩

/-- A packet that says that the connection has been bound again. -/
theorem consistent_rebind {b : Conaddr} (h : Consistent b last l) (hp : p.conaddr = a)
    (hflag : hasFlag p.flags flagRebind = true) : Consistent a last (l ++ [p]) := by
  induction l generalizing last with
  | nil =>
    refine ⟨Or.inl hflag, fun b hb => ?_⟩
    rw [← Option.some.inj hb, hp]
  | cons q l ih => exact ⟨h.1, ih h.2⟩

theorem ofConid_append (c : ℕ) (l l' : List Sent) :
    ofConid c (l ++ l') = ofConid c l ++ ofConid c l' := List.filter_append ..

theorem ofConid_eq_nil {c : ℕ} (h : ∀ p ∈ l, p.conid ≠ c) : ofConid c l = [] :=
  List.filter_eq_nil_iff.mpr (fun p hp heq => h p hp (of_decide_eq_true heq))

theorem ofConid_singleton (c : ℕ) (p : Sent) : ofConid c [p] = if p.conid = c then [p] else [] := by
  by_cases h : p.conid = c <;> simp [ofConid, h]

end UdpGwSystem
end ShiroKhorshid.Tun
