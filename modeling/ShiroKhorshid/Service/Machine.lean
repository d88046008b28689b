/-
# The service (`TunnelManager`)

The service's state changes on two threads.  The main thread handles commands and messages, the
core's notices, pairs of the connection stream, new clients and the fallback timer, one at a
time.  The tunnel thread executes `runTunnel`: it configures `VpnManager`, establishes the
interface, starts the core, waits for the stop signal and cleans up.

A run interleaves the two freely, so `runTunnel` is cut at every point where the main thread can
come between: the configuration is read anew by each of its statements, and RESTART_TUNNEL replaces
it.  A statement is a step of the thread (`runStatement`), and inside the `try` block each of them
may throw instead, which leads straight to the cleaning up (`runTunnel`).

`step` is the whole service as a guarded system of `Transition`, and two inversion lemmas say once
what a step can do:

* `ThreadStep` has one constructor for every statement of the tunnel thread, with the state it
  finds, the one it leaves, and what the surroundings answered;
* `Step` has one for every event, the thread's steps among them; a RESTART_TUNNEL does one of two
  things.

Every invariant of `Lifecycle`, `Applied`, `Published`, `FallbackSafety` and `FallbackCoverage` is
derived from them, and none of these modules unfolds `step`.

What the system, the core and the network answer comes with the event, so that a run is one of
every device.  Log lines and notifications are left out, and a statement is atomic: the two
threads share no field that is written in parts.
-/
import ShiroKhorshid.Service.Bypass
import ShiroKhorshid.Service.Connection
import ShiroKhorshid.Service.Fallback

namespace ShiroKhorshid.Service

open Vpn

/-! ## 1. The state -/

/-- Where the tunnel thread stands in `runTunnel`. -/
inductive TunnelThread
  /-- there is none yet -/
  | absent
  /-- before the first statement -/
  | started
  /-- the relays have been reset -/
  | begun
  /-- after `setProxyOnlyMode` -/
  | modeSet
  /-- `m_tunnelConfig.shareProxyOnNetwork` has been read -/
  | shareRead (share : Bool)
  /-- after `setShareProxyOnNetwork` -/
  | shareSet
  /-- in the branch that calls `configureVpnBypassAndDns` -/
  | bypassing
  /-- in `configureVpnBypassAndDns`, called with this configuration -/
  | configuring (config : Config)
  /-- in `configureVpnBypassAndDns`, after `setBypassExcludedRoutes` -/
  | routesSet (config : Config)
  /-- before `vpnEstablish` -/
  | configured
  /-- in `startTunneling` -/
  | established
  /-- waiting for the stop signal -/
  | tunneling
  /-- at the start of the `finally` block -/
  | finishing
  /-- after `cancelConduitFallbackTimer` -/
  | cancelled
  /-- the relays have been reset again -/
  | announced
  /-- after `vpnTeardown` -/
  | tornDown
  /-- `stopSelf` has been called -/
  | ended
deriving DecidableEq

/-- The fields of `TunnelManager` that its control logic reads. -/
structure TunnelManager where
  m_tunnelConfig : Option Config
  m_vpnManager : VpnManager
  m_tunnelThread : TunnelThread
  /-- the latch `m_tunnelThreadStopSignal`, made by the first start, has been counted down -/
  stopSignalled : Bool
  m_isStopping : Bool
  /-- `startTunneling` has been called, so the core may call back -/
  coreStarted : Bool
  /-- `m_tunnel.getLocalSocksProxyPort()` -/
  localSocksProxyPort : ℤ
  /-- the startup task is on the handler's queue -/
  startupPosted : Bool
  /-- the startup task has run -/
  startupRan : Bool
  conn : Connection
  fallback : Fallback
deriving DecidableEq

/-- A new service instance, in a process whose `VpnManager` is `m`. -/
def TunnelManager.new (m : VpnManager) : TunnelManager :=
  ⟨none, m, .absent, false, false, false, 0, false, false, Connection.new, Fallback.new⟩

/-- `VpnManager` as an earlier instance of the service leaves it: no interface and no thread, the
settings whatever they were. -/
structure Idle (m : VpnManager) : Prop where
  noTun : m.tunFd = none
  noThread : m.mTun2SocksThread = none
  notRouting : m.isRoutingThroughTunnel = false

/-! ## 2. The tunnel thread -/

/-- What one step of the tunnel thread meets: the device is on Wi-Fi, the environment of
`vpnEstablish`, and whether something in the `try` block throws. -/
structure ThreadEnv where
  wifi : Bool
  establish : EstablishEnv
  throws : Bool

/-- The statements of the `try` block that may throw. -/
def TunnelThread.inTry : TunnelThread → Bool
  | .begun | .modeSet | .shareRead _ | .shareSet | .bypassing | .configuring _ | .routesSet _
  | .configured | .established => true
  | _ => false

section RunTunnel

variable (sources : BypassSources)

/-- The next statement of `runTunnel`, when it does not throw; `none` when there is none or it
waits. -/
def runStatement (env : ThreadEnv) (s : TunnelManager) : Option TunnelManager :=
  match s.m_tunnelThread with
  | .absent => none
  | .started => some { s with
      m_tunnelThread := .begun
      m_isStopping := false
      fallback := { s.fallback with m_conduitFallbackToPublic := false }
      conn := (s.conn.acceptNetwork .connecting).acceptRouting false }
  | .begun =>
    if isProxyOnly s.m_tunnelConfig && !env.wifi then some { s with m_tunnelThread := .finishing }
    else some { s with
      m_tunnelThread := .modeSet
      m_vpnManager := s.m_vpnManager.setProxyOnlyMode (isProxyOnly s.m_tunnelConfig) }
  | .modeSet => s.m_tunnelConfig.map fun config =>
    { s with m_tunnelThread := .shareRead config.shareProxyOnNetwork }
  | .shareRead share => some { s with
      m_tunnelThread := .shareSet
      m_vpnManager := s.m_vpnManager.setShareProxyOnNetwork
        (share && !isProxyOnly s.m_tunnelConfig) }
  | .shareSet => some { s with
      m_tunnelThread := if isProxyOnly s.m_tunnelConfig then .configured else .bypassing }
  | .bypassing => s.m_tunnelConfig.map fun config =>
    { s with m_tunnelThread := .configuring config }
  | .configuring config => some { s with
      m_tunnelThread := .routesSet config
      m_vpnManager := s.m_vpnManager.setBypassExcludedRoutes (bypassRoutesOf sources config) }
  | .routesSet config => some { s with
      m_tunnelThread := .configured
      m_vpnManager := s.m_vpnManager.setSecureDnsServer (secureDnsServerOf sources config) }
  | .configured =>
    let m := (s.m_vpnManager.vpnEstablish env.establish).1
    if (s.m_vpnManager.vpnEstablish env.establish).2 then
      some { s with m_tunnelThread := .established, m_vpnManager := m, coreStarted := true }
    else some { s with m_tunnelThread := .finishing, m_vpnManager := m }
  | .established => some { s with m_tunnelThread := .tunneling, startupPosted := true }
  | .tunneling =>
    if s.stopSignalled then some { s with m_tunnelThread := .finishing } else none
  | .finishing => some { s with
      m_tunnelThread := .cancelled
      m_isStopping := true
      fallback := s.fallback.cancelConduitFallbackTimer }
  | .cancelled => some { s with
      m_tunnelThread := .announced
      conn := (s.conn.acceptNetwork .connecting).acceptRouting false }
  | .announced => some { s with
      m_tunnelThread := .tornDown
      m_vpnManager := s.m_vpnManager.vpnTeardown }
  | .tornDown => some { s with m_tunnelThread := .ended }
  | .ended => none

/-- One step of the tunnel thread.  An exception leads to the `finally` block. -/
def runTunnel (env : ThreadEnv) (s : TunnelManager) : Option TunnelManager :=
  if env.throws && s.m_tunnelThread.inTry then some { s with m_tunnelThread := .finishing }
  else runStatement sources env s

/-- **What a step of the tunnel thread can do.** -/
inductive ThreadStep (env : ThreadEnv) (s : TunnelManager) : TunnelManager → Prop
  | throws : s.m_tunnelThread.inTry = true →
      ThreadStep env s { s with m_tunnelThread := .finishing }
  | begin : s.m_tunnelThread = .started →
      ThreadStep env s { s with
        m_tunnelThread := .begun
        m_isStopping := false
        fallback := { s.fallback with m_conduitFallbackToPublic := false }
        conn := (s.conn.acceptNetwork .connecting).acceptRouting false }
  | setMode : s.m_tunnelThread = .begun →
      ThreadStep env s { s with
        m_tunnelThread := .modeSet
        m_vpnManager := s.m_vpnManager.setProxyOnlyMode (isProxyOnly s.m_tunnelConfig) }
  | readShare {config : Config} : s.m_tunnelThread = .modeSet → s.m_tunnelConfig = some config →
      ThreadStep env s { s with m_tunnelThread := .shareRead config.shareProxyOnNetwork }
  | setShare {share : Bool} : s.m_tunnelThread = .shareRead share →
      ThreadStep env s { s with
        m_tunnelThread := .shareSet
        m_vpnManager := s.m_vpnManager.setShareProxyOnNetwork
          (share && !isProxyOnly s.m_tunnelConfig) }
  | skipBypass : s.m_tunnelThread = .shareSet → isProxyOnly s.m_tunnelConfig = true →
      ThreadStep env s { s with m_tunnelThread := .configured }
  | takeBypass : s.m_tunnelThread = .shareSet → isProxyOnly s.m_tunnelConfig = false →
      ThreadStep env s { s with m_tunnelThread := .bypassing }
  | readConfig {config : Config} : s.m_tunnelThread = .bypassing →
      s.m_tunnelConfig = some config →
      ThreadStep env s { s with m_tunnelThread := .configuring config }
  | setRoutes {config : Config} : s.m_tunnelThread = .configuring config →
      ThreadStep env s { s with
        m_tunnelThread := .routesSet config
        m_vpnManager := s.m_vpnManager.setBypassExcludedRoutes (bypassRoutesOf sources config) }
  | setDns {config : Config} : s.m_tunnelThread = .routesSet config →
      ThreadStep env s { s with
        m_tunnelThread := .configured
        m_vpnManager := s.m_vpnManager.setSecureDnsServer (secureDnsServerOf sources config) }
  | establish : s.m_tunnelThread = .configured →
      (s.m_vpnManager.vpnEstablish env.establish).2 = true →
      ThreadStep env s { s with
        m_tunnelThread := .established
        m_vpnManager := (s.m_vpnManager.vpnEstablish env.establish).1
        coreStarted := true }
  | establishFails : s.m_tunnelThread = .configured →
      (s.m_vpnManager.vpnEstablish env.establish).2 = false →
      ThreadStep env s { s with
        m_tunnelThread := .finishing
        m_vpnManager := (s.m_vpnManager.vpnEstablish env.establish).1 }
  | startTunneling : s.m_tunnelThread = .established →
      ThreadStep env s { s with m_tunnelThread := .tunneling, startupPosted := true }
  | wake : s.m_tunnelThread = .tunneling → s.stopSignalled = true →
      ThreadStep env s { s with m_tunnelThread := .finishing }
  | cancelTimer : s.m_tunnelThread = .finishing →
      ThreadStep env s { s with
        m_tunnelThread := .cancelled
        m_isStopping := true
        fallback := s.fallback.cancelConduitFallbackTimer }
  | announce : s.m_tunnelThread = .cancelled →
      ThreadStep env s { s with
        m_tunnelThread := .announced
        conn := (s.conn.acceptNetwork .connecting).acceptRouting false }
  | tearDown : s.m_tunnelThread = .announced →
      ThreadStep env s { s with
        m_tunnelThread := .tornDown
        m_vpnManager := s.m_vpnManager.vpnTeardown }
  | stopSelf : s.m_tunnelThread = .tornDown →
      ThreadStep env s { s with m_tunnelThread := .ended }

theorem ThreadStep.of_runStatement {env : ThreadEnv} {s t : TunnelManager}
    (h : runStatement sources env s = some t) : ThreadStep sources env s t := by
  unfold runStatement at h
  cases hthread : s.m_tunnelThread with
  | absent => simp [hthread] at h
  | ended => simp [hthread] at h
  | started =>
    simp only [hthread, Option.some.injEq] at h
    exact h ▸ .begin hthread
  | begun =>
    simp only [hthread] at h
    split at h <;> rw [← Option.some.inj h]
    · exact .throws (by simp [hthread, TunnelThread.inTry])
    · exact .setMode hthread
  | modeSet =>
    simp only [hthread, Option.map_eq_some_iff] at h
    obtain ⟨config, hconfig, rfl⟩ := h
    exact .readShare hthread hconfig
  | shareRead share =>
    simp only [hthread, Option.some.injEq] at h
    exact h ▸ .setShare hthread
  | shareSet =>
    simp only [hthread, Option.some.injEq] at h
    cases hmode : isProxyOnly s.m_tunnelConfig with
    | true => simpa [← h, hmode] using .skipBypass hthread hmode
    | false => simpa [← h, hmode] using .takeBypass hthread hmode
  | bypassing =>
    simp only [hthread, Option.map_eq_some_iff] at h
    obtain ⟨config, hconfig, rfl⟩ := h
    exact .readConfig hthread hconfig
  | configuring config =>
    simp only [hthread, Option.some.injEq] at h
    exact h ▸ .setRoutes hthread
  | routesSet config =>
    simp only [hthread, Option.some.injEq] at h
    exact h ▸ .setDns hthread
  | configured =>
    simp only [hthread] at h
    split at h <;> rw [← Option.some.inj h]
    · rename_i hok
      exact .establish hthread hok
    · rename_i hok
      exact .establishFails hthread (Bool.eq_false_iff.mpr hok)
  | established =>
    simp only [hthread, Option.some.injEq] at h
    exact h ▸ .startTunneling hthread
  | tunneling =>
    simp only [hthread] at h
    split at h
    · rename_i hstop
      exact Option.some.inj h ▸ .wake hthread hstop
    · cases h
  | finishing =>
    simp only [hthread, Option.some.injEq] at h
    exact h ▸ .cancelTimer hthread
  | cancelled =>
    simp only [hthread, Option.some.injEq] at h
    exact h ▸ .announce hthread
  | announced =>
    simp only [hthread, Option.some.injEq] at h
    exact h ▸ .tearDown hthread
  | tornDown =>
    simp only [hthread, Option.some.injEq] at h
    exact h ▸ .stopSelf hthread

theorem ThreadStep.of_runTunnel {env : ThreadEnv} {s t : TunnelManager}
    (h : runTunnel sources env s = some t) : ThreadStep sources env s t := by
  unfold runTunnel at h
  split at h
  · rename_i hthrows
    rw [Bool.and_eq_true] at hthrows
    exact Option.some.inj h ▸ .throws hthrows.2
  · exact .of_runStatement sources h

end RunTunnel

/-! ## 3. The main thread -/

/-- A RESTART_TUNNEL message from a registered client, with the preferences it finds.  Runs begin
with a start: before it there is no tunnel to restart. -/
def restartTunnel (p : Preferences) (s : TunnelManager) : TunnelManager :=
  let config := getTunnelConfig p
  let s := if portChanged s.m_tunnelConfig config then { s with
      conn := (s.conn.acceptNetwork .connecting).acceptRouting false
      m_vpnManager := s.m_vpnManager.stopRouteThroughTunnel }
    else s
  { s with m_tunnelConfig := some config }

/-- What can happen next. -/
inductive Event
  /-- the first start command, with the preferences it finds -/
  | start (p : Preferences)
  | threadStep (env : ThreadEnv)
  /-- `signalStopService` -/
  | stop
  /-- the task `runTunnel` posts after `startTunneling` -/
  | startupTask
  | restart (p : Preferences)
  | onConnecting
  | onConnected
  | onStartedWaitingForNetworkConnectivity
  | onStoppedWaitingForNetworkConnectivity
  | onListeningSocksProxyPort (port : ℤ)
  | deliver (d : Delivery)
  | newClient (d : Delivery)
  /-- the conduit fallback runnable runs -/
  | timerFires
  /-- time passes -/
  | tick (ms : ℕ)

section Step

variable (sources : BypassSources)

/-- A notice of the core, which exists once `startTunneling` has been called. -/
def coreNotice (s : TunnelManager) (t : TunnelManager) : Option TunnelManager :=
  if s.coreStarted then some t else none

/-- One event; `none` when it cannot happen. -/
def step (s : TunnelManager) : Event → Option TunnelManager
  | .start p =>
    if s.m_tunnelThread = .absent then
      some { s with
        m_tunnelConfig := some (getTunnelConfig p)
        m_tunnelThread := .started
        stopSignalled := false }
    else none
  | .threadStep env => runTunnel sources env s
  | .stop => some { s with stopSignalled := true }
  | .startupTask =>
    if s.startupPosted then some { s with
      startupPosted := false
      startupRan := true
      fallback := s.fallback.startConduitFallbackTimerIfNeeded s.m_tunnelConfig }
    else none
  | .restart p => if s.m_tunnelThread = .absent then none else some (restartTunnel p s)
  | .onConnecting => coreNotice s { s with conn := s.conn.acceptNetwork .connecting }
  | .onConnected => coreNotice s { s with
      fallback := s.fallback.cancelConduitFallbackTimer
      conn := s.conn.acceptNetwork .connected }
  | .onStartedWaitingForNetworkConnectivity =>
    coreNotice s { s with conn := s.conn.acceptNetwork .waitingForNetwork }
  | .onStoppedWaitingForNetworkConnectivity =>
    coreNotice s { s with conn := s.conn.acceptNetwork .connecting }
  | .onListeningSocksProxyPort port => coreNotice s { s with localSocksProxyPort := port }
  | .deliver d =>
    (deliver s.m_tunnelConfig s.localSocksProxyPort d s.conn s.m_vpnManager).map fun r =>
      { s with conn := r.1, m_vpnManager := r.2 }
  | .newClient d =>
    let r := newClient s.localSocksProxyPort d s.conn s.m_vpnManager
    some { s with conn := r.1, m_vpnManager := r.2 }
  | .timerFires =>
    (s.fallback.fire s.m_isStopping s.conn.isConnected).map fun f => { s with fallback := f }
  | .tick ms => some { s with fallback := { s.fallback with clock := s.fallback.clock + ms } }

/-- **What an event can do.**  A RESTART_TUNNEL does one of two things. -/
inductive Step (s : TunnelManager) : Event → TunnelManager → Prop
  | start (p : Preferences) : s.m_tunnelThread = .absent →
      Step s (.start p) { s with
        m_tunnelConfig := some (getTunnelConfig p)
        m_tunnelThread := .started
        stopSignalled := false }
  | threadStep (env : ThreadEnv) {t : TunnelManager} : ThreadStep sources env s t →
      Step s (.threadStep env) t
  | stop : Step s .stop { s with stopSignalled := true }
  | startupTask : s.startupPosted = true →
      Step s .startupTask { s with
        startupPosted := false
        startupRan := true
        fallback := s.fallback.startConduitFallbackTimerIfNeeded s.m_tunnelConfig }
  | restartChanged (p : Preferences) : s.m_tunnelThread ≠ .absent →
      portChanged s.m_tunnelConfig (getTunnelConfig p) = true →
      Step s (.restart p) { s with
        conn := (s.conn.acceptNetwork .connecting).acceptRouting false
        m_vpnManager := s.m_vpnManager.stopRouteThroughTunnel
        m_tunnelConfig := some (getTunnelConfig p) }
  | restartSame (p : Preferences) : s.m_tunnelThread ≠ .absent →
      portChanged s.m_tunnelConfig (getTunnelConfig p) = false →
      Step s (.restart p) { s with m_tunnelConfig := some (getTunnelConfig p) }
  | onConnecting : s.coreStarted = true →
      Step s .onConnecting { s with conn := s.conn.acceptNetwork .connecting }
  | onConnected : s.coreStarted = true →
      Step s .onConnected { s with
        fallback := s.fallback.cancelConduitFallbackTimer
        conn := s.conn.acceptNetwork .connected }
  | onStartedWaitingForNetworkConnectivity : s.coreStarted = true →
      Step s .onStartedWaitingForNetworkConnectivity
        { s with conn := s.conn.acceptNetwork .waitingForNetwork }
  | onStoppedWaitingForNetworkConnectivity : s.coreStarted = true →
      Step s .onStoppedWaitingForNetworkConnectivity
        { s with conn := s.conn.acceptNetwork .connecting }
  | onListeningSocksProxyPort (port : ℤ) : s.coreStarted = true →
      Step s (.onListeningSocksProxyPort port) { s with localSocksProxyPort := port }
  | deliver (d : Delivery) {c : Connection} {m : VpnManager} :
      Service.deliver s.m_tunnelConfig s.localSocksProxyPort d s.conn s.m_vpnManager
        = some (c, m) →
      Step s (.deliver d) { s with conn := c, m_vpnManager := m }
  | newClient (d : Delivery) :
      Step s (.newClient d) { s with
        conn := (Service.newClient s.localSocksProxyPort d s.conn s.m_vpnManager).1
        m_vpnManager := (Service.newClient s.localSocksProxyPort d s.conn s.m_vpnManager).2 }
  | timerFires {f : Fallback} : s.fallback.fire s.m_isStopping s.conn.isConnected = some f →
      Step s .timerFires { s with fallback := f }
  | tick (ms : ℕ) :
      Step s (.tick ms) { s with fallback := { s.fallback with clock := s.fallback.clock + ms } }

theorem Step.of_restartTunnel {p : Preferences} {s : TunnelManager}
    (h : s.m_tunnelThread ≠ .absent) : Step sources s (.restart p) (restartTunnel p s) := by
  unfold restartTunnel
  dsimp only
  split
  · rename_i hchanged
    exact .restartChanged p h hchanged
  · rename_i hsame
    exact .restartSame p h (Bool.eq_false_iff.mpr hsame)

/-- A notice comes from a core that has been started. -/
theorem coreNotice_eq_some {s t u : TunnelManager} (h : coreNotice s t = some u) :
    s.coreStarted = true ∧ u = t := by
  unfold coreNotice at h
  split at h
  · rename_i hcore
    exact ⟨hcore, (Option.some.inj h).symm⟩
  · cases h

theorem Step.of_step {s t : TunnelManager} {e : Event} (h : step sources s e = some t) :
    Step sources s e t := by
  cases e with
  | start p =>
    simp only [step] at h
    split at h
    · rename_i habsent
      exact Option.some.inj h ▸ .start p habsent
    · cases h
  | threadStep env => exact .threadStep env (.of_runTunnel sources h)
  | stop => exact Option.some.inj h ▸ .stop
  | startupTask =>
    simp only [step] at h
    split at h
    · rename_i hposted
      exact Option.some.inj h ▸ .startupTask hposted
    · cases h
  | restart p =>
    simp only [step] at h
    split at h
    · cases h
    · rename_i hpresent
      exact Option.some.inj h ▸ .of_restartTunnel sources hpresent
  | onConnecting =>
    obtain ⟨hcore, rfl⟩ := coreNotice_eq_some h
    exact .onConnecting hcore
  | onConnected =>
    obtain ⟨hcore, rfl⟩ := coreNotice_eq_some h
    exact .onConnected hcore
  | onStartedWaitingForNetworkConnectivity =>
    obtain ⟨hcore, rfl⟩ := coreNotice_eq_some h
    exact .onStartedWaitingForNetworkConnectivity hcore
  | onStoppedWaitingForNetworkConnectivity =>
    obtain ⟨hcore, rfl⟩ := coreNotice_eq_some h
    exact .onStoppedWaitingForNetworkConnectivity hcore
  | onListeningSocksProxyPort port =>
    obtain ⟨hcore, rfl⟩ := coreNotice_eq_some h
    exact .onListeningSocksProxyPort port hcore
  | deliver d =>
    obtain ⟨⟨c, m⟩, hd, rfl⟩ := Option.map_eq_some_iff.mp h
    exact .deliver d hd
  | newClient d => exact Option.some.inj h ▸ .newClient d
  | timerFires =>
    obtain ⟨f, hf, rfl⟩ := Option.map_eq_some_iff.mp h
    exact .timerFires hf
  | tick ms => exact Option.some.inj h ▸ .tick ms

end Step

/-! ## 4. The service coming up

One run that goes well, for the instances in the modules that follow. -/

/-- No list of networks and no resolved domains. -/
def noSources : BypassSources := ⟨[], fun _ => []⟩

/-- A step of the tunnel thread on a device where nothing fails. -/
def goodStep : Event := .threadStep ⟨true, VpnManager.goodEnv, false⟩

/-- A start, and the tunnel thread up to the stop signal. -/
def bringUp (p : Preferences) : List Event := .start p :: List.replicate 10 goodStep

/-- Preferences with one key stored. -/
def onlyPreference (key value : String) : Preferences :=
  fun k => if k = key then some value else none

end ShiroKhorshid.Service
