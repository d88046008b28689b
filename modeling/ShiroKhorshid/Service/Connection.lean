/-
# What clients are told (`connectionStatusUpdaterDisposable`)

Two relays feed the state that is published to clients: the core's connection state and whether
traffic is routed through the tunnel.  `combineLatest` pairs them, `observeOn` queues the pairs
for the main thread, and there the updater starts tun2socks on the first `(CONNECTED, false)` it
sees, tells the routing relay, and publishes what it passes on, once per change.

* Every value a relay accepts posts a pair of it and the other's latest value, if there is one
  (`mem_posted_acceptNetwork`, `mem_posted_acceptRouting`).
* The pair is delivered later, on the main thread, when the relays may have moved on: what it says
  is what was so when it was posted.  `distinctUntilChanged` drops it where it repeats the last one.
* When a landing page is to be shown and no activity is there to show it, the updater publishes
  CONNECTING and waits for a client; a further pair makes `switchMap` drop the wait.

`switchMap_cases` and `deliver_cases` say what one delivery can do, for the modules that follow a
run; what has to be true when CONNECTED is published is the subject of `Published`.

The subscription is made before the first value is accepted; `subscribeOn` only moves the making
of it to another thread.  `m_isSoftRestarting` is never set, so its branch is left out.
-/
import ShiroKhorshid.Service.Config

namespace ShiroKhorshid.Service

open Vpn

/-! ## 1. The relays and the queue -/

/-- `TunnelState.ConnectionData.NetworkConnectionState` -/
inductive NetworkState
  | connecting
  | connected
  | waitingForNetwork
deriving DecidableEq

/-- The stream from the relays to the clients. -/
structure Connection where
  /-- the last value of `m_networkConnectionStatePublishRelay` -/
  network : Option NetworkState
  /-- the last value of `m_isRoutingThroughTunnelPublishRelay` -/
  routing : Option Bool
  /-- pairs queued for the main thread, oldest first -/
  posted : List (NetworkState × Bool)
  /-- the last pair `distinctUntilChanged` let through -/
  lastPair : Option (NetworkState × Bool)
  /-- the updater waits for a client to show the landing page -/
  waiting : Bool
  /-- the last state the second `distinctUntilChanged` let through -/
  lastEmitted : Option NetworkState
  /-- `m_tunnelState.networkConnectionState` -/
  tunnelState : NetworkState
  /-- the states published to clients, oldest first -/
  sent : List NetworkState
deriving DecidableEq

namespace Connection

/-- A fresh subscription. -/
def new : Connection := ⟨none, none, [], none, false, none, .connecting, []⟩

/-- `m_networkConnectionStatePublishRelay.accept(n)` -/
def acceptNetwork (c : Connection) (n : NetworkState) : Connection :=
  { c with
    network := some n
    posted := c.posted ++ (c.routing.map fun r => (n, r)).toList }

/-- `m_isRoutingThroughTunnelPublishRelay.accept(r)` -/
def acceptRouting (c : Connection) (r : Bool) : Connection :=
  { c with
    routing := some r
    posted := c.posted ++ (c.network.map fun n => (n, r)).toList }

/-- `m_tunnelState.isConnected()` -/
def isConnected (c : Connection) : Bool := c.tunnelState = .connected

/-- The end of the stream: a state that differs from the last one is stored and published. -/
def emit (c : Connection) (n : NetworkState) : Connection :=
  if c.lastEmitted = some n then c
  else { c with lastEmitted := some n, tunnelState := n, sent := c.sent ++ [n] }

end Connection

/-! ## 2. The updater -/

/-- What the updater meets when it looks at a pair or at a new client: a landing page is to be
opened, there is a live activity to open it, and duplicating the tun descriptor succeeds. -/
structure Delivery where
  landingPage : Bool
  activity : Bool
  dup : Bool
deriving DecidableEq

/-- The current configuration is proxy-only. -/
def isProxyOnly (config : Option Config) : Bool :=
  match config with
  | some config => config.proxyOnlyMode
  | none => false

/-- The updater's `switchMap`, on a pair that differs from the last one. -/
def switchMap (config : Option Config) (port : ℤ) (d : Delivery) (pair : NetworkState × Bool)
    (c : Connection) (m : VpnManager) : Connection × VpnManager :=
  let c := { c with lastPair := some pair, waiting := false }
  if pair = (.connected, false) then
    if isProxyOnly config then ((c.acceptRouting true).emit .connected, m)
    else if d.landingPage && !d.activity then
      -- emit CONNECTING and start waiting for an activity to bind
      ({ c with waiting := true }.emit .connecting, m)
    else ((c.acceptRouting true).emit .connected, m.routeThroughTunnel port d.dup)
  else (c.emit pair.1, m)

/-- The main thread takes the next pair off its queue. -/
def deliver (config : Option Config) (port : ℤ) (d : Delivery) (c : Connection)
    (m : VpnManager) : Option (Connection × VpnManager) :=
  match c.posted with
  | [] => none
  | pair :: rest =>
    let c := { c with posted := rest }
    if c.lastPair = some pair then some (c, m)
    else some (switchMap config port d pair c m)

/-- A client registers while `waitSendIntentAndRouteThroughTunnelCompletable` may be waiting. -/
def newClient (port : ℤ) (d : Delivery) (c : Connection) (m : VpnManager) :
    Connection × VpnManager :=
  if c.waiting && d.activity then
    ({ c with waiting := false }.acceptRouting true, m.routeThroughTunnel port d.dup)
  else (c, m)

/-! ## 3. What each of them can do -/

section Cases

variable {config : Option Config} {port : ℤ} {d : Delivery} {c c' : Connection}
  {m m' : VpnManager}

@[simp] theorem acceptRouting_network (c : Connection) (r : Bool) :
    (c.acceptRouting r).network = c.network := rfl

@[simp] theorem emit_network (c : Connection) (n : NetworkState) :
    (c.emit n).network = c.network := by
  unfold Connection.emit
  split <;> rfl

@[simp] theorem emit_routing (c : Connection) (n : NetworkState) :
    (c.emit n).routing = c.routing := by
  unfold Connection.emit
  split <;> rfl

@[simp] theorem emit_posted (c : Connection) (n : NetworkState) :
    (c.emit n).posted = c.posted := by
  unfold Connection.emit
  split <;> rfl

@[simp] theorem emit_waiting (c : Connection) (n : NetworkState) :
    (c.emit n).waiting = c.waiting := by
  unfold Connection.emit
  split <;> rfl

/-- A pair is queued by `acceptNetwork` only for the new state and the routing value there is. -/
theorem mem_posted_acceptNetwork {n : NetworkState} {pair : NetworkState × Bool} :
    pair ∈ (c.acceptNetwork n).posted ↔
      pair ∈ c.posted ∨ (pair.1 = n ∧ c.routing = some pair.2) := by
  simp only [Connection.acceptNetwork, List.mem_append, Option.mem_toList,
    Option.map_eq_some_iff]
  constructor
  · rintro (h | ⟨r, hr, rfl⟩)
    · exact Or.inl h
    · exact Or.inr ⟨rfl, hr⟩
  · rintro (h | ⟨rfl, hr⟩)
    · exact Or.inl h
    · exact Or.inr ⟨pair.2, hr, rfl⟩

theorem mem_posted_acceptRouting {r : Bool} {pair : NetworkState × Bool} :
    pair ∈ (c.acceptRouting r).posted ↔
      pair ∈ c.posted ∨ (pair.2 = r ∧ c.network = some pair.1) := by
  simp only [Connection.acceptRouting, List.mem_append, Option.mem_toList,
    Option.map_eq_some_iff]
  constructor
  · rintro (h | ⟨n, hn, rfl⟩)
    · exact Or.inl h
    · exact Or.inr ⟨rfl, hn⟩
  · rintro (h | ⟨rfl, hn⟩)
    · exact Or.inl h
    · exact Or.inr ⟨pair.1, hn, rfl⟩

/-- **What the updater does with a pair.** -/
theorem switchMap_cases (config : Option Config) (port : ℤ) (d : Delivery)
    (pair : NetworkState × Bool) (c : Connection) (m : VpnManager) :
    (pair = (.connected, false) ∧ isProxyOnly config = true ∧
      switchMap config port d pair c m =
        (({ c with lastPair := some pair, waiting := false }.acceptRouting true).emit .connected,
          m)) ∨
    (pair = (.connected, false) ∧ isProxyOnly config = false ∧
      (d.landingPage && !d.activity) = true ∧
      switchMap config port d pair c m =
        ({ c with lastPair := some pair, waiting := true }.emit .connecting, m)) ∨
    (pair = (.connected, false) ∧ isProxyOnly config = false ∧
      (d.landingPage && !d.activity) = false ∧
      switchMap config port d pair c m =
        (({ c with lastPair := some pair, waiting := false }.acceptRouting true).emit .connected,
          m.routeThroughTunnel port d.dup)) ∨
    (pair ≠ (.connected, false) ∧
      switchMap config port d pair c m =
        ({ c with lastPair := some pair, waiting := false }.emit pair.1, m)) := by
  unfold switchMap
  by_cases hpair : pair = (.connected, false)
  · cases hproxy : isProxyOnly config with
    | true => exact Or.inl ⟨hpair, rfl, by simp [hpair]⟩
    | false =>
      cases hwait : d.landingPage && !d.activity with
      | true => exact Or.inr (Or.inl ⟨hpair, rfl, rfl, by simp [hpair]⟩)
      | false => exact Or.inr (Or.inr (Or.inl ⟨hpair, rfl, rfl, by simp [hpair]⟩))
  · exact Or.inr (Or.inr (Or.inr ⟨hpair, by simp [hpair]⟩))

/-- **One delivery.**  A repeated pair is dropped; outside proxy-only mode a `(CONNECTED, false)`
routes the traffic, unless the updater has to wait; anything else is passed on. -/
theorem deliver_cases (h : deliver config port d c m = some (c', m')) :
    ∃ pair rest, c.posted = pair :: rest ∧
      ((c.lastPair = some pair ∧ c' = { c with posted := rest } ∧ m' = m) ∨
       (c.lastPair ≠ some pair ∧
          (c', m') = switchMap config port d pair { c with posted := rest } m)) := by
  unfold deliver at h
  cases hp : c.posted with
  | nil => simp [hp] at h
  | cons pair rest =>
    refine ⟨pair, rest, rfl, ?_⟩
    simp only [hp] at h
    split at h
    · rename_i hlast
      obtain ⟨rfl, rfl⟩ := Prod.mk.inj (Option.some.inj h)
      exact Or.inl ⟨hlast, rfl, rfl⟩
    · rename_i hlast
      exact Or.inr ⟨hlast, (Option.some.inj h).symm⟩

end Cases

end ShiroKhorshid.Service
