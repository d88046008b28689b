/-
# Whether CONNECTED means connected

Clients are told CONNECTED when the updater sees a `(CONNECTED, true)`, or a `(CONNECTED, false)`
on which it has just called `routeThroughTunnel`.  It sets the routing relay to true without
asking whether that call started anything, and a pair may be published long after it was queued.

* `Backed` is the invariant of the connection stream: whatever true it still holds, in the routing
  relay or in a pair that may yet be published, is backed by a running tun2socks.
* `FreshBefore` is what holds until there is an interface: no true has been heard of at all.
* `Carrying` adds what holds of `VpnManager`, and is kept by every step that meets the condition
  (`Carrying.step`).  `VpnManager`'s part is that of `Vpn.Manager`; what is shown here is that
  the calls the service makes keep it.

`RoutingSucceeds` is the condition on a step, and reads the state before it: where
`routeThroughTunnel` is about to be called outside proxy-only mode, the call will start tun2socks
(`RouteReady`); and no true is left in the stream where a RESTART_TUNNEL or the tunnel thread takes
tun2socks down.  `no_false_connected` is what follows for every run.

The condition is not shown to be necessary: where it fails, a later pair may still set things right
before anything is published.  `connected_without_tunnel` is a run where nothing does.
-/
import ShiroKhorshid.Service.Applied

namespace ShiroKhorshid.Service

open Vpn Transition VpnManager

/-! ## 1. The stream -/

/-- The queued pairs that may still be published.  After CONNECTED, a `(CONNECTED, true)` at the
front of the queue is not published again. -/
def Connection.unpublished (c : Connection) : List (NetworkState × Bool) :=
  if c.lastEmitted = some .connected then c.posted.dropWhile (· = (.connected, true))
  else c.posted

/-- Whatever true the stream holds is backed. -/
structure Backed (running : Prop) (c : Connection) : Prop where
  routing : c.routing = some true → running
  queue : (.connected, true) ∈ c.unpublished → running

/-- The relays are reset. -/
def Connection.reset (c : Connection) : Connection :=
  (c.acceptNetwork .connecting).acceptRouting false

theorem unpublished_subset (c : Connection) {pair : NetworkState × Bool}
    (h : pair ∈ c.unpublished) : pair ∈ c.posted := by
  unfold Connection.unpublished at h
  split at h
  · exact (List.dropWhile_sublist _).subset h
  · exact h

/-- What is still to be published after pairs have been added. -/
theorem mem_unpublished_append {c : Connection} {pair : NetworkState × Bool}
    {new : List (NetworkState × Bool)}
    (h : pair ∈ { c with posted := c.posted ++ new }.unpublished) :
    pair ∈ c.unpublished ∨ pair ∈ new := by
  unfold Connection.unpublished at h ⊢
  split at h
  · rename_i hlast
    have hlast' : c.lastEmitted = some .connected := hlast
    rw [if_pos hlast']
    dsimp only at h
    rw [List.dropWhile_append] at h
    split at h
    · exact Or.inr ((List.dropWhile_sublist _).subset h)
    · exact List.mem_append.mp h
  · rename_i hlast
    have hlast' : ¬ c.lastEmitted = some .connected := hlast
    rw [if_neg hlast']
    exact List.mem_append.mp h

section Backed

variable {running : Prop} {c : Connection}

/-- A new connection state is paired with a routing value that is backed. -/
theorem Backed.acceptNetwork (h : Backed running c) (n : NetworkState) :
    Backed running (c.acceptNetwork n) := by
  refine ⟨h.routing, ?_⟩
  intro hmem
  rcases mem_unpublished_append (c := { c with network := some n }) hmem with hold | hnew
  · exact h.queue hold
  · obtain ⟨r, hr, heq⟩ := Option.map_eq_some_iff.mp (Option.mem_toList.mp hnew)
    obtain ⟨-, rfl⟩ := Prod.mk.inj heq
    exact h.routing hr

/-- A new routing value is backed, or false. -/
theorem Backed.acceptRouting (h : Backed running c) {r : Bool} (hr : r = true → running) :
    Backed running (c.acceptRouting r) := by
  refine ⟨fun htrue => hr (Option.some.inj htrue), ?_⟩
  intro hmem
  rcases mem_unpublished_append (c := { c with routing := some r }) hmem with hold | hnew
  · exact h.queue hold
  · obtain ⟨n, -, heq⟩ := Option.map_eq_some_iff.mp (Option.mem_toList.mp hnew)
    exact hr (Prod.mk.inj heq).2

theorem Backed.reset (h : Backed running c) : Backed running c.reset :=
  (h.acceptNetwork .connecting).acceptRouting (fun hr => Bool.noConfusion hr)

/-- After a reset nothing needs backing but what was queued before. -/
theorem backed_reset (h : (.connected, true) ∉ c.unpublished) : Backed running c.reset := by
  refine ⟨fun hr => Bool.noConfusion (Option.some.inj hr), ?_⟩
  intro hmem
  rcases mem_unpublished_append (c := { c.acceptNetwork .connecting with routing := some false })
    hmem with hold | hnew
  · rcases mem_unpublished_append
      (c := { c with network := some .connecting, routing := some false }) hold with hold | hnew
    · exact absurd hold h
    · obtain ⟨r, -, heq⟩ := Option.map_eq_some_iff.mp (Option.mem_toList.mp hnew)
      cases (Prod.mk.inj heq).1
  · obtain ⟨n, -, heq⟩ := Option.map_eq_some_iff.mp (Option.mem_toList.mp hnew)
    cases (Prod.mk.inj heq).2

/-- A backed stream with its first pair taken off: the pair is a repetition of CONNECTED, or it is
backed, and so is the rest of the queue whatever is published. -/
theorem Backed.tail (h : Backed running c) {pair : NetworkState × Bool}
    {rest : List (NetworkState × Bool)} (hposted : c.posted = pair :: rest) :
    (pair = (.connected, true) ∧ c.lastEmitted = some .connected ∧
      Backed running { c with posted := rest }) ∨
    ((pair = (.connected, true) → running) ∧ ((.connected, true) ∈ rest → running)) := by
  by_cases hrep : c.lastEmitted = some .connected ∧ pair = (.connected, true)
  · obtain ⟨hlast, rfl⟩ := hrep
    refine Or.inl ⟨rfl, hlast, h.routing, fun hmem => h.queue ?_⟩
    simpa [Connection.unpublished, hlast, hposted] using hmem
  · have hall : c.unpublished = pair :: rest := by
      unfold Connection.unpublished
      rw [hposted]
      split
      · rename_i hlast
        exact List.dropWhile_cons_of_neg (by simpa using fun heq => hrep ⟨hlast, heq⟩)
      · rfl
    refine Or.inr ⟨fun hpair => h.queue ?_, fun hmem => h.queue ?_⟩
    · rw [hall, hpair]
      exact List.mem_cons_self
    · rw [hall]
      exact List.mem_cons_of_mem _ hmem

/-- A stream is backed when all that is queued is. -/
theorem Backed.of_posted (hrouting : c.routing = some true → running)
    (hposted : (.connected, true) ∈ c.posted → running) : Backed running c :=
  ⟨hrouting, fun hmem => hposted (unpublished_subset c hmem)⟩

theorem emit_of_last {n : NetworkState} (h : c.lastEmitted = some n) : c.emit n = c := if_pos h

/-- CONNECTED is published only if it was not the last state published. -/
theorem emit_sent_connected {c : Connection} {n : NetworkState}
    (h : (c.emit n).sent = c.sent ++ [.connected]) :
    n = .connected ∧ c.lastEmitted ≠ some .connected := by
  unfold Connection.emit at h
  split at h
  · exact absurd h (by simp)
  · rename_i hlast
    have hn : n = .connected := by simpa using h
    exact ⟨hn, hn ▸ hlast⟩

end Backed

/-! ## 2. Before there is an interface -/

/-- Nothing in the stream says CONNECTED, and nothing waits. -/
structure NeverConnected (c : Connection) : Prop where
  network : c.network ≠ some .connected
  routing : c.routing ≠ some true
  posted : ∀ pair ∈ c.posted, pair.1 ≠ .connected
  waiting : c.waiting = false

theorem NeverConnected.acceptNetwork {c : Connection} (h : NeverConnected c) {n : NetworkState}
    (hn : n ≠ .connected) : NeverConnected (c.acceptNetwork n) := by
  refine ⟨fun heq => hn (Option.some.inj heq), h.routing, ?_, h.waiting⟩
  intro pair hmem
  rcases mem_posted_acceptNetwork.mp hmem with hold | ⟨heq, -⟩
  · exact h.posted pair hold
  · exact heq ▸ hn

theorem NeverConnected.acceptRouting {c : Connection} (h : NeverConnected c) :
    NeverConnected (c.acceptRouting false) := by
  refine ⟨h.network, fun heq => Bool.noConfusion (Option.some.inj heq), ?_,
    h.waiting⟩
  intro pair hmem
  rcases mem_posted_acceptRouting.mp hmem with hold | ⟨-, hnet⟩
  · exact h.posted pair hold
  · exact fun heq => h.network (heq ▸ hnet)

theorem NeverConnected.reset {c : Connection} (h : NeverConnected c) : NeverConnected c.reset :=
  (h.acceptNetwork (by decide)).acceptRouting

/-- Such a stream passes its pairs on and does not touch `VpnManager`. -/
theorem NeverConnected.deliver {config : Option Config} {port : ℤ} {d : Delivery}
    {c c' : Connection} {m m' : VpnManager} (h : NeverConnected c)
    (hd : deliver config port d c m = some (c', m')) : NeverConnected c' ∧ m' = m := by
  obtain ⟨pair, rest, hposted, hcases⟩ := deliver_cases hd
  have hrest : ∀ p ∈ rest, p.1 ≠ .connected := by
    intro p hp
    exact h.posted p (by rw [hposted]; exact List.mem_cons_of_mem _ hp)
  rcases hcases with ⟨-, rfl, rfl⟩ | ⟨-, heq⟩
  · exact ⟨⟨h.network, h.routing, hrest, h.waiting⟩, rfl⟩
  · have hpair : pair ≠ (.connected, false) := by
      rintro rfl
      exact h.posted _ (by rw [hposted]; exact List.mem_cons_self) rfl
    rw [switchMap, if_neg hpair] at heq
    obtain ⟨rfl, rfl⟩ := Prod.mk.inj heq
    exact ⟨⟨by simpa using h.network, by simpa using h.routing, by simpa using hrest, by simp⟩,
      rfl⟩

/-- Neither the core nor tun2socks has been started. -/
structure Fresh (s : TunnelManager) : Prop where
  notRouting : s.m_vpnManager.isRoutingThroughTunnel = false
  noThread : s.m_vpnManager.mTun2SocksThread = none
  coreStopped : s.coreStarted = false
  conn : NeverConnected s.conn

/-- Until the interface is established, nothing has been started. -/
def FreshBefore (s : TunnelManager) : Prop := s.m_tunnelThread.beforeTun = true → Fresh s

theorem FreshBefore.threadStep {sources : BypassSources} {env : ThreadEnv} {s t : TunnelManager}
    (hs : FreshBefore s) (h : ThreadStep sources env s t) : FreshBefore t := by
  intro hbefore
  cases h with
  | begin hth =>
    obtain ⟨hflag, hthread, hcore, hconn⟩ := hs (by rw [hth]; rfl)
    exact ⟨hflag, hthread, hcore, hconn.reset⟩
  | setMode hth | readShare hth _ | setShare hth | skipBypass hth _ | takeBypass hth _
  | readConfig hth _ | setRoutes hth | setDns hth =>
    obtain ⟨hflag, hthread, hcore, hconn⟩ := hs (by rw [hth]; rfl)
    exact ⟨hflag, hthread, hcore, hconn⟩
  | _ => exact absurd hbefore Bool.false_ne_true

theorem FreshBefore.step {sources : BypassSources} {s t : TunnelManager} {e : Event}
    (hs : FreshBefore s) (h : Step sources s e t) : FreshBefore t := by
  cases h with
  | threadStep env h => exact hs.threadStep h
  | start p habsent =>
    obtain ⟨hflag, hthread, hcore, hconn⟩ := hs (by rw [habsent]; rfl)
    exact fun _ => ⟨hflag, hthread, hcore, hconn⟩
  | restartChanged p _ _ =>
    intro hbefore
    obtain ⟨hflag, hthread, hcore, hconn⟩ := hs hbefore
    have hstop : s.m_vpnManager.stopRouteThroughTunnel = s.m_vpnManager := by
      simp [stopRouteThroughTunnel, hflag]
    rw [hstop]
    exact ⟨hflag, hthread, hcore, hconn.reset⟩
  | deliver d hd =>
    intro hbefore
    obtain ⟨hflag, hthread, hcore, hconn⟩ := hs hbefore
    obtain ⟨hconn', rfl⟩ := hconn.deliver hd
    exact ⟨hflag, hthread, hcore, hconn'⟩
  | newClient d =>
    intro hbefore
    obtain ⟨hflag, hthread, hcore, hconn⟩ := hs hbefore
    have hsame : newClient s.localSocksProxyPort d s.conn s.m_vpnManager
        = (s.conn, s.m_vpnManager) := by
      simp [newClient, hconn.waiting]
    rw [hsame]
    exact ⟨hflag, hthread, hcore, hconn⟩
  | onConnecting hcore | onConnected hcore | onStartedWaitingForNetworkConnectivity hcore
  | onStoppedWaitingForNetworkConnectivity hcore | onListeningSocksProxyPort port hcore =>
    exact fun hbefore => absurd hcore (Bool.eq_false_iff.mp (hs hbefore).coreStopped)
  | _ =>
    intro hbefore
    obtain ⟨hflag, hthread, hcore, hconn⟩ := hs hbefore
    exact ⟨hflag, hthread, hcore, hconn⟩

theorem freshBefore_new {m : VpnManager} (hm : Idle m) : FreshBefore (TunnelManager.new m) :=
  fun _ => ⟨hm.notRouting, hm.noThread, rfl,
    ⟨nofun, nofun, fun _ hmem => absurd hmem List.not_mem_nil, rfl⟩⟩

/-! ## 3. What backs a CONNECTED -/

theorem NeverConnected.backed {c : Connection} (h : NeverConnected c) (running : Prop) :
    Backed running c :=
  .of_posted (fun hr => absurd hr h.routing) (fun hmem => absurd rfl (h.posted _ hmem))

/-- A call of `routeThroughTunnel` would leave tun2socks running. -/
def RouteReady (m : VpnManager) (port : ℤ) (dup : Bool) : Prop :=
  m.mProxyOnlyMode = false ∧
    (m.isRoutingThroughTunnel = false → m.tunFd ≠ none ∧ 0 < port ∧ dup = true)

/-- The condition on a step.  Outside proxy-only mode, a call of `routeThroughTunnel` leaves
tun2socks running; and when tun2socks is stopped, by a RESTART_TUNNEL or by the teardown, no
`(CONNECTED, true)` is left to be published. -/
def RoutingSucceeds (s : TunnelManager) : Event → Prop
  | .deliver d =>
    isProxyOnly s.m_tunnelConfig = false → s.conn.posted.head? = some (.connected, false) →
      s.conn.lastPair ≠ some (.connected, false) → (d.landingPage && !d.activity) = false →
      RouteReady s.m_vpnManager s.localSocksProxyPort d.dup
  | .newClient d =>
    isProxyOnly s.m_tunnelConfig = false → (s.conn.waiting && d.activity) = true →
      RouteReady s.m_vpnManager s.localSocksProxyPort d.dup
  | .restart p =>
    (getTunnelConfig p).proxyOnlyMode = false →
      portChanged s.m_tunnelConfig (getTunnelConfig p) = true →
      (.connected, true) ∉ s.conn.unpublished
  | .threadStep _ =>
    isProxyOnly s.m_tunnelConfig = false → s.m_tunnelThread = .announced →
      s.conn.routing ≠ some true ∧ (.connected, true) ∉ s.conn.unpublished
  | _ => True

instance (m : VpnManager) (port : ℤ) (dup : Bool) : Decidable (RouteReady m port dup) := by
  unfold RouteReady
  infer_instance

instance (s : TunnelManager) (e : Event) : Decidable (RoutingSucceeds s e) :=
  match e with
  | .deliver _ | .newClient _ | .restart _ | .threadStep _ => by
    dsimp only [RoutingSucceeds]
    infer_instance
  | .start _ | .stop | .startupTask | .onConnecting | .onConnected
  | .onStartedWaitingForNetworkConnectivity | .onStoppedWaitingForNetworkConnectivity
  | .onListeningSocksProxyPort _ | .timerFires | .tick _ => instDecidableTrue

/-- The flag knows of the thread, the thread has a tun descriptor, and the flag means the thread
outside proxy-only mode. -/
structure Carries (proxyOnly : Bool) (m : VpnManager) : Prop where
  known : m.mTun2SocksThread ≠ none → m.isRoutingThroughTunnel = true
  tun : m.mTun2SocksThread ≠ none → m.tunFd ≠ none
  started : proxyOnly = false → m.mProxyOnlyMode = false → m.isRoutingThroughTunnel = true →
    m.mTun2SocksThread ≠ none

/-- With the flag down and no thread there is nothing to know. -/
theorem Carries.of_stopped {m : VpnManager} (hflag : m.isRoutingThroughTunnel = false)
    (hthread : m.mTun2SocksThread = none) (proxyOnly : Bool) : Carries proxyOnly m :=
  ⟨fun hne => absurd hthread hne, fun hne => absurd hthread hne,
    fun _ _ hf => absurd hf (by rw [hflag]; decide)⟩

theorem Carries.stopRouteThroughTunnel {proxyOnly : Bool} {m : VpnManager}
    (h : Carries proxyOnly m) (proxyOnly' : Bool) :
    Carries proxyOnly' m.stopRouteThroughTunnel ∧
      m.stopRouteThroughTunnel.mTun2SocksThread = none := by
  have hnone : m.stopRouteThroughTunnel.mTun2SocksThread = none :=
    (vpnTeardown_thread_eq_none_iff m).mpr h.known
  refine ⟨.of_stopped ?_ hnone proxyOnly', hnone⟩
  unfold VpnManager.stopRouteThroughTunnel
  split
  · rfl
  · rename_i hflag
    exact Bool.eq_false_iff.mpr hflag

/-- In proxy-only mode a call of `routeThroughTunnel` may start nothing. -/
theorem Carries.route_proxyOnly {m : VpnManager} (h : Carries true m) (port : ℤ) (dup : Bool) :
    Carries true (m.routeThroughTunnel port dup) := by
  cases hmode : m.mProxyOnlyMode with
  | true =>
    rw [routeThroughTunnel, if_pos hmode]
    exact ⟨fun _ => rfl, h.tun, fun hfalse => Bool.noConfusion hfalse⟩
  | false =>
    cases hflag : m.isRoutingThroughTunnel with
    | true =>
      rw [routeThroughTunnel, if_neg (by simp [hmode]), if_pos hflag]
      exact h
    | false =>
      refine ⟨?_, ?_, fun hfalse => Bool.noConfusion hfalse⟩
      · intro hne
        rcases routeThroughTunnel_cases hmode hflag port dup with ⟨_, -, -, -, heq⟩ | ⟨-, heq⟩
        · simp [heq]
        · simp [heq]
      · intro hne
        rw [tunFd_routeThroughTunnel]
        rcases routeThroughTunnel_cases hmode hflag port dup with ⟨tun, hfd, -⟩ | ⟨-, heq⟩
        · simp [hfd]
        · rw [heq] at hne
          exact h.tun hne

/-- **A call that is ready** leaves tun2socks running. -/
theorem Carries.route_ready {m : VpnManager} (h : Carries false m) {port : ℤ} {dup : Bool}
    (hready : RouteReady m port dup) :
    Carries false (m.routeThroughTunnel port dup) ∧
      (m.routeThroughTunnel port dup).mTun2SocksThread ≠ none := by
  obtain ⟨hmode, hsteps⟩ := hready
  cases hflag : m.isRoutingThroughTunnel with
  | true =>
    rw [routeThroughTunnel, if_neg (by simp [hmode]), if_pos hflag]
    exact ⟨h, h.started rfl hmode hflag⟩
  | false =>
    obtain ⟨hfd, hport, hdup⟩ := hsteps hflag
    rcases routeThroughTunnel_cases hmode hflag port dup with ⟨tun, -, -, -, heq⟩ | ⟨hnot, -⟩
    · have hne : (m.routeThroughTunnel port dup).mTun2SocksThread ≠ none := by
        rw [heq]
        exact startTun2Socks_thread_ne _ tun port
      refine ⟨⟨?_, ?_, fun _ _ _ => hne⟩, hne⟩
      · intro _
        rw [heq]
        simp
      · intro _
        rw [tunFd_routeThroughTunnel]
        exact hfd
    · exact absurd ⟨hfd, hport, hdup⟩ hnot

/-- The invariant: `VpnManager` is in order, and outside proxy-only mode the stream is backed by
the tun2socks thread. -/
structure Carrying (s : TunnelManager) : Prop where
  fresh : FreshBefore s
  vpn : Carries (isProxyOnly s.m_tunnelConfig) s.m_vpnManager
  backed : isProxyOnly s.m_tunnelConfig = false →
    Backed (s.m_vpnManager.mTun2SocksThread ≠ none) s.conn

theorem Carrying.threadStep {sources : BypassSources} {env : ThreadEnv} {s t : TunnelManager}
    (hs : Carrying s) (hok : RoutingSucceeds s (.threadStep env))
    (h : ThreadStep sources env s t) : Carrying t := by
  refine ⟨hs.fresh.threadStep h, ?_, ?_⟩
  · cases h with
    | setMode hth =>
      obtain ⟨hflag, hthread, -, -⟩ := hs.fresh (by rw [hth]; rfl)
      exact .of_stopped (m := s.m_vpnManager.setProxyOnlyMode (isProxyOnly s.m_tunnelConfig))
        hflag hthread _
    | establish hth _ | establishFails hth _ =>
      obtain ⟨hflag, hthread, -, -⟩ := hs.fresh (by rw [hth]; rfl)
      obtain ⟨heq, -, hcases⟩ := vpnEstablish_cases s.m_vpnManager env.establish
      have hflag' : (s.m_vpnManager.vpnEstablish env.establish).1.isRoutingThroughTunnel
          = false := by
        rcases hcases with ⟨-, hf⟩ | ⟨-, hf⟩
        · exact hf
        · exact hf.trans hflag
      exact .of_stopped hflag' (heq.trans hthread) _
    | setShare _ | setRoutes _ | setDns _ => exact ⟨hs.vpn.known, hs.vpn.tun, hs.vpn.started⟩
    | tearDown _ =>
      exact .of_stopped rfl ((vpnTeardown_thread_eq_none_iff _).mpr hs.vpn.known) _
    | _ => exact hs.vpn
  · intro hproxy
    cases h with
    | begin _ => exact (hs.backed hproxy).reset
    | announce _ => exact (hs.backed hproxy).reset
    | establish hth _ | establishFails hth _ =>
      obtain ⟨heq, -⟩ := vpnEstablish_cases s.m_vpnManager env.establish
      simp only [heq]
      exact hs.backed hproxy
    | tearDown hth =>
      obtain ⟨hrouting, hqueue⟩ := hok hproxy hth
      exact ⟨fun hr => absurd hr hrouting, fun hmem => absurd hmem hqueue⟩
    | _ => exact hs.backed hproxy

/-- The mode is one of the things whose change the handler sees. -/
theorem isProxyOnly_of_portChanged {old : Option Config} {config : Config}
    (h : portChanged old config = false) (hnew : config.proxyOnlyMode = false) :
    isProxyOnly old = false := by
  cases old with
  | none => rfl
  | some old => exact ((portChanged_eq_false_iff old config).mp h).2.2.trans hnew

/-- Publishing a state leaves the stream backed, when the whole queue is. -/
theorem Backed.emit {running : Prop} {c : Connection}
    (hrouting : c.routing = some true → running)
    (hposted : (.connected, true) ∈ c.posted → running) (n : NetworkState) :
    Backed running (c.emit n) :=
  .of_posted (by simpa using hrouting) (by simpa using hposted)

/-- A pair is passed on: the stream stays backed, and so is a `(CONNECTED, true)` that is
published. -/
theorem Backed.pass {running : Prop} {c c' : Connection} {pair : NetworkState × Bool}
    {rest : List (NetworkState × Bool)} (h : Backed running c) (hposted : c.posted = pair :: rest)
    (hc' : c' = { c with posted := rest, lastPair := some pair, waiting := false }) :
    Backed running (c'.emit pair.1) ∧
      (pair ≠ (.connected, false) → (c'.emit pair.1).sent = c'.sent ++ [.connected] →
        running) := by
  have hlast' : c'.lastEmitted = c.lastEmitted := by rw [hc']
  rcases h.tail hposted with ⟨rfl, hlast, hrest⟩ | ⟨hpair, hrest⟩
  · -- a repetition of CONNECTED
    rw [emit_of_last (hlast'.trans hlast), hc']
    exact ⟨⟨hrest.routing, hrest.queue⟩, fun _ hsent => absurd hsent (by simp)⟩
  · constructor
    · refine Backed.emit ?_ ?_ _
      · rw [hc']
        exact h.routing
      · rw [hc']
        exact hrest
    · intro hnot hsent
      obtain ⟨hstate, -⟩ := emit_sent_connected hsent
      obtain ⟨n, r⟩ := pair
      obtain rfl : n = .connected := hstate
      cases r with
      | false => exact absurd rfl hnot
      | true => exact hpair rfl

/-- **A pair is delivered** outside proxy-only mode. -/
theorem Backed.switchMap {config : Option Config} {port : ℤ} {d : Delivery} {c c' : Connection}
    {m m' : VpnManager} {pair : NetworkState × Bool} {rest : List (NetworkState × Bool)}
    (hproxy : isProxyOnly config = false) (hm : Carries false m)
    (hc : Backed (m.mTun2SocksThread ≠ none) c) (hposted : c.posted = pair :: rest)
    (hready : pair = (.connected, false) → (d.landingPage && !d.activity) = false →
      RouteReady m port d.dup)
    (h : (c', m') = switchMap config port d pair { c with posted := rest } m) :
    Carries false m' ∧ Backed (m'.mTun2SocksThread ≠ none) c' ∧
      (c'.sent = c.sent ++ [.connected] → m'.mTun2SocksThread ≠ none) := by
  rcases switchMap_cases config port d pair { c with posted := rest } m with
    ⟨-, htrue, -⟩ | ⟨rfl, -, -, heq⟩ | ⟨hfalse, -, hgo, heq⟩ | ⟨hnot, heq⟩
  · exact absurd (htrue.symm.trans hproxy) (by decide)
  · -- CONNECTING is published, and the updater waits
    obtain ⟨rfl, rfl⟩ := Prod.mk.inj (h.trans heq)
    rcases hc.tail hposted with ⟨hne, -, -⟩ | ⟨-, hrest⟩
    · cases hne
    · refine ⟨hm, ?_, ?_⟩
      · refine Backed.emit ?_ ?_ _
        · exact hc.routing
        · exact hrest
      · intro hsent
        cases (emit_sent_connected hsent).1
  · obtain ⟨hm', hne⟩ := hm.route_ready (hready hfalse hgo)
    obtain ⟨rfl, rfl⟩ := Prod.mk.inj (h.trans heq)
    exact ⟨hm', .emit (fun _ => hne) (fun _ => hne) _, fun _ => hne⟩
  · obtain ⟨rfl, rfl⟩ := Prod.mk.inj (h.trans heq)
    obtain ⟨hbacked, hsent⟩ := hc.pass hposted rfl
    exact ⟨hm, hbacked, hsent hnot⟩

/-! ## 4. Runs -/

/-- **A delivery** that meets the condition; CONNECTED is published over a running thread. -/
theorem Carrying.deliver {s : TunnelManager} {d : Delivery} {c' : Connection} {m' : VpnManager}
    (hs : Carrying s) (hok : RoutingSucceeds s (.deliver d))
    (h : deliver s.m_tunnelConfig s.localSocksProxyPort d s.conn s.m_vpnManager = some (c', m')) :
    Carries (isProxyOnly s.m_tunnelConfig) m' ∧
      (isProxyOnly s.m_tunnelConfig = false → Backed (m'.mTun2SocksThread ≠ none) c' ∧
        (c'.sent = s.conn.sent ++ [.connected] → m'.mTun2SocksThread ≠ none)) := by
  have hvpn := hs.vpn
  obtain ⟨pair, rest, hposted, ⟨hlast, rfl, rfl⟩ | ⟨hlast, heq⟩⟩ := deliver_cases h
  · refine ⟨hvpn, fun hproxy => ⟨?_, fun hsent => absurd hsent (by simp)⟩⟩
    have hbacked := hs.backed hproxy
    rcases hbacked.tail hposted with ⟨-, -, hrest⟩ | ⟨-, hrest⟩
    · exact hrest
    · exact .of_posted hbacked.routing hrest
  · cases hproxy : isProxyOnly s.m_tunnelConfig with
    | true =>
      refine ⟨?_, fun hfalse => Bool.noConfusion hfalse⟩
      rw [hproxy] at hvpn
      rcases switchMap_cases s.m_tunnelConfig s.localSocksProxyPort d pair
        { s.conn with posted := rest } s.m_vpnManager with
        ⟨-, -, heq'⟩ | ⟨-, hfalse, -⟩ | ⟨-, hfalse, -⟩ | ⟨-, heq'⟩
      · exact (Prod.mk.inj (heq.trans heq')).2 ▸ hvpn
      · exact absurd (hproxy.symm.trans hfalse) (by decide)
      · exact absurd (hproxy.symm.trans hfalse) (by decide)
      · exact (Prod.mk.inj (heq.trans heq')).2 ▸ hvpn
    | false =>
      rw [hproxy] at hvpn
      have hready : pair = (.connected, false) → (d.landingPage && !d.activity) = false →
          RouteReady s.m_vpnManager s.localSocksProxyPort d.dup := by
        rintro rfl hgo
        exact hok hproxy (by rw [hposted]; rfl) hlast hgo
      obtain ⟨hcarries, hbacked, hsent⟩ :=
        Backed.switchMap hproxy hvpn (hs.backed hproxy) hposted hready heq
      exact ⟨hcarries, fun _ => ⟨hbacked, hsent⟩⟩

/-- A new client that meets the condition. -/
theorem Carrying.newClient {s : TunnelManager} {d : Delivery} (hs : Carrying s)
    (hok : RoutingSucceeds s (.newClient d)) :
    let r := newClient s.localSocksProxyPort d s.conn s.m_vpnManager
    Carries (isProxyOnly s.m_tunnelConfig) r.2 ∧
      (isProxyOnly s.m_tunnelConfig = false → Backed (r.2.mTun2SocksThread ≠ none) r.1) := by
  have hvpn := hs.vpn
  unfold Service.newClient
  split
  · rename_i hgo
    cases hproxy : isProxyOnly s.m_tunnelConfig with
    | true =>
      rw [hproxy] at hvpn
      exact ⟨hvpn.route_proxyOnly _ _, fun hfalse => Bool.noConfusion hfalse⟩
    | false =>
      rw [hproxy] at hvpn
      obtain ⟨hcarries, hne⟩ := hvpn.route_ready (hok hproxy hgo)
      exact ⟨hcarries, fun _ => Backed.acceptRouting ⟨fun _ => hne, fun _ => hne⟩
        (fun _ => hne)⟩
  · exact ⟨hvpn, hs.backed⟩

/-- **Every step** that meets the condition keeps the invariant. -/
theorem Carrying.step {sources : BypassSources} {s t : TunnelManager} {e : Event}
    (hs : Carrying s) (hok : RoutingSucceeds s e) (h : Step sources s e t) : Carrying t := by
  have hfresh := hs.fresh.step h
  cases h with
  | threadStep env h => exact hs.threadStep hok h
  | start p habsent =>
    obtain ⟨hflag, hthread, -, hconn⟩ := hs.fresh (by rw [habsent]; rfl)
    exact ⟨hfresh, .of_stopped hflag hthread _, fun _ => hconn.backed _⟩
  | restartChanged p _ hchanged =>
    obtain ⟨hcarries, -⟩ := hs.vpn.stopRouteThroughTunnel (getTunnelConfig p).proxyOnlyMode
    exact ⟨hfresh, hcarries, fun hproxy => backed_reset (hok hproxy hchanged)⟩
  | restartSame p _ hsame =>
    refine ⟨hfresh, ⟨hs.vpn.known, hs.vpn.tun, ?_⟩, ?_⟩
    · intro hproxy
      exact hs.vpn.started (isProxyOnly_of_portChanged hsame hproxy)
    · intro hproxy
      exact hs.backed (isProxyOnly_of_portChanged hsame hproxy)
  | deliver d hd =>
    obtain ⟨hcarries, hbacked⟩ := hs.deliver hok hd
    exact ⟨hfresh, hcarries, fun hproxy => (hbacked hproxy).1⟩
  | newClient d =>
    obtain ⟨hcarries, hbacked⟩ := hs.newClient hok
    exact ⟨hfresh, hcarries, hbacked⟩
  | onConnecting _ | onConnected _ | onStartedWaitingForNetworkConnectivity _
  | onStoppedWaitingForNetworkConnectivity _ =>
    exact ⟨hfresh, hs.vpn, fun hproxy => (hs.backed hproxy).acceptNetwork _⟩
  | _ => exact ⟨hfresh, hs.vpn, hs.backed⟩

theorem carrying_new {m : VpnManager} (hm : Idle m) : Carrying (TunnelManager.new m) :=
  ⟨freshBefore_new hm, .of_stopped hm.notRouting hm.noThread _, fun _ =>
    .of_posted nofun (fun hmem => absurd hmem List.not_mem_nil)⟩

/-- Only a delivery publishes anything. -/
theorem Step.sent {sources : BypassSources} {s t : TunnelManager} {e : Event}
    (h : Step sources s e t) (hne : ∀ d, e ≠ .deliver d) : t.conn.sent = s.conn.sent := by
  cases h with
  | deliver d _ => exact absurd rfl (hne d)
  | threadStep env h => cases h <;> rfl
  | newClient d =>
    dsimp only [Service.newClient]
    split <;> rfl
  | _ => rfl

/-- This step publishes CONNECTED outside proxy-only mode. -/
def PublishesConnected (s t : TunnelManager) : Prop :=
  t.conn.sent = s.conn.sent ++ [.connected] ∧ isProxyOnly t.m_tunnelConfig = false

instance (s t : TunnelManager) : Decidable (PublishesConnected s t) := by
  unfold PublishesConnected
  infer_instance

/-- **No false "connected".**  In a run whose steps all meet the condition, whenever CONNECTED is
published and the configuration in force is not proxy-only, there is a tun descriptor and a
running tun2socks thread. -/
theorem no_false_connected (sources : BypassSources) {m : VpnManager} (hm : Idle m)
    {es : List Event} {s t : TunnelManager} {e : Event}
    (hrun : Run (step sources) RoutingSucceeds (TunnelManager.new m) es s)
    (hok : RoutingSucceeds s e) (h : step sources s e = some t)
    (hpublished : PublishesConnected s t) :
    t.m_vpnManager.tunFd ≠ none ∧ t.m_vpnManager.mTun2SocksThread ≠ none := by
  have hs : Carrying s :=
    hrun.invariant (carrying_new hm)
      (fun _ _ _ hs hok hst => hs.step hok (.of_step sources hst))
  have ht : Carrying t := hs.step hok (.of_step sources h)
  have hthread : t.m_vpnManager.mTun2SocksThread ≠ none := by
    by_cases hd : ∃ d, e = .deliver d
    · obtain ⟨d, rfl⟩ := hd
      obtain ⟨⟨c', m'⟩, hd, rfl⟩ := Option.map_eq_some_iff.mp h
      exact ((hs.deliver hok hd).2 hpublished.2).2 hpublished.1
    · have hsent := (Step.of_step sources h).sent (fun d heq => hd ⟨d, heq⟩)
      exact absurd (hsent.symm.trans hpublished.1) (by simp)
  exact ⟨ht.vpn.tun hthread, hthread⟩

/-- A delivery where nothing stands in the way. -/
def goodDelivery : Event := .deliver ⟨false, true, true⟩

/-- The theorem at a start with nothing stored, on a core that listens on 1080. -/
theorem no_false_connected_started :
    ∃ s t, exec (step noSources) (TunnelManager.new VpnManager.new)
        (bringUp (fun _ => none) ++
          [.onListeningSocksProxyPort 1080, .onConnected, goodDelivery]) = some s ∧
      step noSources s goodDelivery = some t ∧ PublishesConnected s t ∧
      t.m_vpnManager.tunFd ≠ none ∧ t.m_vpnManager.mTun2SocksThread ≠ none := by
  obtain ⟨s, t, hs, ht, hok, hpublished⟩ := exists_step_of_any
    (P := fun s t => RoutingSucceeds s goodDelivery ∧ PublishesConnected s t)
    (show (execIf (step noSources) RoutingSucceeds (TunnelManager.new VpnManager.new)
      (bringUp (fun _ => none) ++
        [.onListeningSocksProxyPort 1080, .onConnected, goodDelivery])).any
      (fun s => (step noSources s goodDelivery).any (fun t =>
        decide (RoutingSucceeds s goodDelivery ∧ PublishesConnected s t))) = true by decide)
  have hrun := run_of_execIf hs
  exact ⟨s, t, hrun.exec_eq, ht, hpublished,
    no_false_connected noSources idle_new hrun hok ht hpublished⟩

/-- **Where it is false.**  A proxy-only service is switched to VPN mode by a RESTART_TUNNEL.
`VpnManager` stays in proxy-only mode and has no interface, and CONNECTED is published. -/
theorem connected_without_tunnel :
    ∃ s t, exec (step noSources) (TunnelManager.new VpnManager.new)
        (.start (onlyPreference "proxyOnlyModePreference" "true") ::
          List.replicate 7 goodStep ++
          [.onListeningSocksProxyPort 1080, .onConnected, goodDelivery, goodDelivery,
            .restart (fun _ => none), .onConnected, goodDelivery, goodDelivery, goodDelivery])
          = some s ∧
      step noSources s goodDelivery = some t ∧ PublishesConnected s t ∧
      t.m_vpnManager.tunFd = none ∧ t.m_vpnManager.mTun2SocksThread = none := by
  exact exists_step_of_any (by decide)

end ShiroKhorshid.Service
