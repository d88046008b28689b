/-
# Whether the requested configuration is applied

The settings of `VpnManager` are set by `runTunnel`, once, from the configuration of the start.
RESTART_TUNNEL replaces the configuration and restarts the core; it calls none of the setters and
does not establish the interface anew.

Three things are followed along a run:

* the settings `VpnManager` holds, which only the tunnel thread changes (`Step.settings`);
* the interface, which was built from the settings held (`Built.step`): the setters are called
  before `vpnEstablish`, and nothing calls them after it;
* the configuration in force, and the one the tunnel thread has read while it is still setting
  (`Follows`).

So after a RESTART_TUNNEL the settings in force are those of the new configuration exactly when the
two configurations derive the same (`applied_after_restart_iff`), and they stay so for the rest of
the run (`requested_configuration_applied`), provided that no RESTART_TUNNEL comes while the tunnel
thread holds the configuration it has read (`KeepsSettings`).

What a configuration derives depends on the list of Iranian networks and the cache of resolved
domains as well.  They are fixed here (`BypassSources`): what follows when they change behind the
service's back is in `Bypass.Union`, `Bypass.Domains` and `Bypass.IranList`.
-/
import ShiroKhorshid.Lib.Transition
import ShiroKhorshid.Service.Machine

namespace ShiroKhorshid.Service

open Vpn Transition

/-! ## 1. Settings and interface -/

/-- The interface was established with these settings, on some device and some private
address. -/
def BuiltFrom (tun : TunInterface) (v : VpnSettings) : Prop :=
  ∃ sdkInt pa, builderCalls sdkInt pa v.shareProxyOnNetwork v.bypassExcludedRoutes
    v.secureDnsServer = some tun.calls

/-- Settings and interface of `VpnManager` are those of the configuration in force. -/
def Applied (sources : BypassSources) (s : TunnelManager) : Prop :=
  ∃ config, s.m_tunnelConfig = some config ∧
    heldSettings s.m_vpnManager = derivedSettings sources config ∧
    ∀ tun, s.m_vpnManager.tunFd = some tun → BuiltFrom tun (derivedSettings sources config)

@[simp] theorem heldSettings_routeThroughTunnel (m : VpnManager) (port : ℤ) (dup : Bool) :
    heldSettings (m.routeThroughTunnel port dup) = heldSettings m := by
  obtain ⟨flag, thread, heq⟩ := m.routeThroughTunnel_frame port dup
  rw [heq]
  rfl

@[simp] theorem tunFd_routeThroughTunnel (m : VpnManager) (port : ℤ) (dup : Bool) :
    (m.routeThroughTunnel port dup).tunFd = m.tunFd := by
  obtain ⟨flag, thread, heq⟩ := m.routeThroughTunnel_frame port dup
  rw [heq]

@[simp] theorem heldSettings_stopRouteThroughTunnel (m : VpnManager) :
    heldSettings m.stopRouteThroughTunnel = heldSettings m := by
  obtain ⟨flag, thread, heq⟩ := m.stopRouteThroughTunnel_frame
  rw [heq]
  rfl

@[simp] theorem tunFd_stopRouteThroughTunnel (m : VpnManager) :
    m.stopRouteThroughTunnel.tunFd = m.tunFd := by
  obtain ⟨flag, thread, heq⟩ := m.stopRouteThroughTunnel_frame
  rw [heq]

@[simp] theorem heldSettings_vpnTeardown (m : VpnManager) :
    heldSettings m.vpnTeardown = heldSettings m :=
  heldSettings_stopRouteThroughTunnel m

@[simp] theorem heldSettings_vpnEstablish (m : VpnManager) (env : EstablishEnv) :
    heldSettings (m.vpnEstablish env).1 = heldSettings m := by
  unfold VpnManager.vpnEstablish
  repeat' split
  all_goals rfl

/-- An established interface is built from the settings held. -/
theorem builtFrom_of_established {m : VpnManager} {env : EstablishEnv} {tun : TunInterface}
    (h : m.established env = some tun) : BuiltFrom tun (heldSettings m) := by
  unfold VpnManager.established at h
  simp only [Option.bind_eq_bind, Option.bind_eq_some_iff] at h
  obtain ⟨pa, -, h⟩ := h
  split at h
  · obtain ⟨calls, hcalls, h⟩ := Option.bind_eq_some_iff.mp h
    split at h
    · obtain rfl := Option.some.inj h
      exact ⟨env.sdkInt, pa, hcalls⟩
    · cases h
  · cases h

/-- The interface after `vpnEstablish` is the one before or a new one. -/
theorem tunFd_vpnEstablish {m : VpnManager} {env : EstablishEnv} {tun : TunInterface}
    (h : (m.vpnEstablish env).1.tunFd = some tun) :
    m.tunFd = some tun ∨ BuiltFrom tun (heldSettings m) := by
  unfold VpnManager.vpnEstablish at h
  split at h
  · exact Or.inl h
  · split at h
    · exact Or.inl h
    · split at h
      · exact Or.inl h
      · rename_i hest
        obtain rfl := Option.some.inj h
        exact Or.inr (builtFrom_of_established hest)

/-- The updater and a new client leave settings and interface alone. -/
theorem switchMap_vpn (config : Option Config) (port : ℤ) (d : Delivery)
    (pair : NetworkState × Bool) (c : Connection) (m : VpnManager) :
    heldSettings (switchMap config port d pair c m).2 = heldSettings m ∧
      (switchMap config port d pair c m).2.tunFd = m.tunFd := by
  unfold switchMap
  repeat' split
  all_goals simp

theorem deliver_vpn {config : Option Config} {port : ℤ} {d : Delivery} {c c' : Connection}
    {m m' : VpnManager} (h : deliver config port d c m = some (c', m')) :
    heldSettings m' = heldSettings m ∧ m'.tunFd = m.tunFd := by
  obtain ⟨pair, rest, -, ⟨-, -, rfl⟩ | ⟨-, heq⟩⟩ := deliver_cases h
  · exact ⟨rfl, rfl⟩
  · have hvpn := switchMap_vpn config port d pair { c with posted := rest } m
    rw [← heq] at hvpn
    exact hvpn

theorem newClient_vpn (port : ℤ) (d : Delivery) (c : Connection) (m : VpnManager) :
    heldSettings (newClient port d c m).2 = heldSettings m ∧
      (newClient port d c m).2.tunFd = m.tunFd := by
  unfold newClient
  split <;> simp

/-! ## 2. What one event does to them -/

/-- The tunnel thread has yet to establish the interface. -/
def TunnelThread.beforeTun : TunnelThread → Bool
  | .absent | .started | .begun | .modeSet | .shareRead _ | .shareSet | .bypassing
  | .configuring _ | .routesSet _ | .configured => true
  | _ => false

/-- **What an event does to the settings.**  Only the tunnel thread changes them; a start and a
RESTART_TUNNEL change the configuration. -/
theorem Step.settings {sources : BypassSources} {s t : TunnelManager} {e : Event}
    (h : Step sources s e t) :
    (∃ env, e = .threadStep env ∧ ThreadStep sources env s t) ∨
    (heldSettings t.m_vpnManager = heldSettings s.m_vpnManager ∧
      t.m_vpnManager.tunFd = s.m_vpnManager.tunFd ∧
      ((∃ p, e = .start p ∧ s.m_tunnelThread = .absent ∧ t.m_tunnelThread = .started ∧
          t.m_tunnelConfig = some (getTunnelConfig p)) ∨
        (∃ p, e = .restart p ∧ s.m_tunnelThread ≠ .absent ∧
          t.m_tunnelThread = s.m_tunnelThread ∧
          t.m_tunnelConfig = some (getTunnelConfig p)) ∨
        ((∀ p, e ≠ .restart p) ∧ t.m_tunnelThread = s.m_tunnelThread ∧
          t.m_tunnelConfig = s.m_tunnelConfig))) := by
  cases h with
  | threadStep env h => exact Or.inl ⟨env, rfl, h⟩
  | start p habsent => exact Or.inr ⟨rfl, rfl, Or.inl ⟨p, rfl, habsent, rfl, rfl⟩⟩
  | restartChanged p hpresent _ =>
    exact Or.inr ⟨heldSettings_stopRouteThroughTunnel _, tunFd_stopRouteThroughTunnel _,
      Or.inr (Or.inl ⟨p, rfl, hpresent, rfl, rfl⟩)⟩
  | restartSame p hpresent _ =>
    exact Or.inr ⟨rfl, rfl, Or.inr (Or.inl ⟨p, rfl, hpresent, rfl, rfl⟩)⟩
  | deliver d hd =>
    obtain ⟨hheld, htun⟩ := deliver_vpn hd
    exact Or.inr ⟨hheld, htun, Or.inr (Or.inr ⟨by simp, rfl, rfl⟩)⟩
  | newClient d =>
    obtain ⟨hheld, htun⟩ := newClient_vpn s.localSocksProxyPort d s.conn s.m_vpnManager
    exact Or.inr ⟨hheld, htun, Or.inr (Or.inr ⟨by simp, rfl, rfl⟩)⟩
  | _ => exact Or.inr ⟨rfl, rfl, Or.inr (Or.inr ⟨by simp, rfl, rfl⟩)⟩

/-! ## 3. The interface is built from the settings held -/

/-- There is no interface before `vpnEstablish`, and the one there is was built from the settings
`VpnManager` still holds. -/
structure Built (s : TunnelManager) : Prop where
  noTun : s.m_tunnelThread.beforeTun = true → s.m_vpnManager.tunFd = none
  built : ∀ tun, s.m_vpnManager.tunFd = some tun → BuiltFrom tun (heldSettings s.m_vpnManager)

/-- A step of the tunnel thread: a setter runs before there is an interface. -/
theorem Built.threadStep {sources : BypassSources} {env : ThreadEnv} {s t : TunnelManager}
    (hs : Built s) (h : ThreadStep sources env s t) : Built t := by
  have setter : ∀ m : VpnManager, s.m_tunnelThread.beforeTun = true →
      m.tunFd = s.m_vpnManager.tunFd →
      m.tunFd = none ∧ ∀ tun, m.tunFd = some tun → BuiltFrom tun (heldSettings m) := by
    intro m hbefore htun
    have hnone : m.tunFd = none := htun.trans (hs.noTun hbefore)
    exact ⟨hnone, fun tun htun' => by rw [hnone] at htun'; cases htun'⟩
  cases h with
  | throws _ => exact ⟨fun hb => absurd hb Bool.false_ne_true, hs.built⟩
  | begin hth => exact ⟨fun _ => hs.noTun (by rw [hth]; rfl), hs.built⟩
  | setMode hth =>
    obtain ⟨hnone, hbuilt⟩ := setter (s.m_vpnManager.setProxyOnlyMode
      (isProxyOnly s.m_tunnelConfig)) (by rw [hth]; rfl) rfl
    exact ⟨fun _ => hnone, hbuilt⟩
  | readShare hth _ => exact ⟨fun _ => hs.noTun (by rw [hth]; rfl), hs.built⟩
  | @setShare share hth =>
    obtain ⟨hnone, hbuilt⟩ := setter (s.m_vpnManager.setShareProxyOnNetwork
      (share && !isProxyOnly s.m_tunnelConfig)) (by rw [hth]; rfl) rfl
    exact ⟨fun _ => hnone, hbuilt⟩
  | skipBypass hth _ => exact ⟨fun _ => hs.noTun (by rw [hth]; rfl), hs.built⟩
  | takeBypass hth _ => exact ⟨fun _ => hs.noTun (by rw [hth]; rfl), hs.built⟩
  | readConfig hth _ => exact ⟨fun _ => hs.noTun (by rw [hth]; rfl), hs.built⟩
  | @setRoutes config hth =>
    obtain ⟨hnone, hbuilt⟩ := setter (s.m_vpnManager.setBypassExcludedRoutes
      (bypassRoutesOf sources config)) (by rw [hth]; rfl) rfl
    exact ⟨fun _ => hnone, hbuilt⟩
  | @setDns config hth =>
    obtain ⟨hnone, hbuilt⟩ := setter (s.m_vpnManager.setSecureDnsServer
      (secureDnsServerOf sources config)) (by rw [hth]; rfl) rfl
    exact ⟨fun _ => hnone, hbuilt⟩
  | establish hth _ | establishFails hth _ =>
    refine ⟨fun hb => absurd hb Bool.false_ne_true, ?_⟩
    intro tun htun
    rw [heldSettings_vpnEstablish]
    rcases tunFd_vpnEstablish htun with hold | hnew
    · exact hs.built tun hold
    · exact hnew
  | startTunneling _ => exact ⟨fun hb => absurd hb Bool.false_ne_true, hs.built⟩
  | wake _ _ => exact ⟨fun hb => absurd hb Bool.false_ne_true, hs.built⟩
  | cancelTimer _ => exact ⟨fun hb => absurd hb Bool.false_ne_true, hs.built⟩
  | announce _ => exact ⟨fun hb => absurd hb Bool.false_ne_true, hs.built⟩
  | tearDown _ => exact ⟨fun _ => rfl, fun tun htun => by cases htun⟩
  | stopSelf _ => exact ⟨fun hb => absurd hb Bool.false_ne_true, hs.built⟩

/-- **Every step** keeps the interface built from the settings. -/
theorem Built.step {sources : BypassSources} {s t : TunnelManager} {e : Event} (hs : Built s)
    (h : Step sources s e t) : Built t := by
  rcases h.settings with ⟨env, -, hthread⟩ | ⟨hheld, htun, hrest⟩
  · exact hs.threadStep hthread
  · have hbefore : t.m_tunnelThread.beforeTun = true →
        s.m_tunnelThread.beforeTun = true := by
      rcases hrest with ⟨_, _, habsent, _, _⟩ | ⟨_, _, _, hth, _⟩ | ⟨_, hth, _⟩
      · intro _
        rw [habsent]
        rfl
      · rw [hth]
        exact id
      · rw [hth]
        exact id
    refine ⟨fun hb => htun.trans (hs.noTun (hbefore hb)), ?_⟩
    intro tun ht
    rw [hheld]
    exact hs.built tun (htun.symm.trans ht)

theorem built_new {m : VpnManager} (hm : Idle m) : Built (TunnelManager.new m) :=
  ⟨fun _ => hm.noTun, fun tun htun => by
    have hnone : (TunnelManager.new m).m_vpnManager.tunFd = none := hm.noTun
    rw [hnone] at htun
    cases htun⟩

theorem built_of_run {sources : BypassSources} {Ok : TunnelManager → Event → Prop}
    {m : VpnManager} (hm : Idle m) {es : List Event} {s : TunnelManager}
    (h : Run (step sources) Ok (TunnelManager.new m) es s) : Built s :=
  h.invariant (built_new hm) (fun _ _ _ hs _ hst => hs.step (.of_step sources hst))

/-- With the interface built from the settings held, `Applied` is about the settings alone. -/
theorem Built.applied_iff {sources : BypassSources} {s : TunnelManager} (hs : Built s) :
    Applied sources s ↔ ∃ config, s.m_tunnelConfig = some config ∧
      heldSettings s.m_vpnManager = derivedSettings sources config := by
  constructor
  · rintro ⟨config, hconfig, hheld, -⟩
    exact ⟨config, hconfig, hheld⟩
  · rintro ⟨config, hconfig, hheld⟩
    exact ⟨config, hconfig, hheld, fun tun htun => hheld ▸ hs.built tun htun⟩

/-! ## 4. After a RESTART_TUNNEL -/

/-- **Right after a RESTART_TUNNEL** the requested configuration is applied exactly when it derives
the settings held before. -/
theorem applied_after_restart_iff {sources : BypassSources} {s t : TunnelManager} (hs : Built s)
    {p : Preferences} (h : Step sources s (.restart p) t) :
    Applied sources t ↔
      heldSettings s.m_vpnManager = derivedSettings sources (getTunnelConfig p) := by
  have ht : Built t := hs.step h
  rcases h.settings with ⟨env, hne, -⟩ | ⟨hheld, -, hrest⟩
  · cases hne
  · rw [ht.applied_iff, hheld]
    rcases hrest with ⟨_, hne, -⟩ | ⟨p', hp, -, -, hconfig⟩ | ⟨hne, -⟩
    · cases hne
    · obtain rfl := Event.restart.inj hp
      rw [hconfig]
      constructor
      · rintro ⟨config, hconfig', heq⟩
        obtain rfl := Option.some.inj hconfig'
        exact heq
      · exact fun heq => ⟨_, rfl, heq⟩
    · exact absurd rfl (hne p)

/-- The tunnel thread has read something of the configuration that it has not yet passed on. -/
def TunnelThread.holdsConfig : TunnelThread → Bool
  | .shareRead _ | .configuring _ | .routesSet _ => true
  | _ => false

/-- The condition on a RESTART_TUNNEL: the new configuration derives the settings held, and the
tunnel thread is not in the middle of passing on the old one. -/
def KeepsSettings (sources : BypassSources) (s : TunnelManager) : Event → Prop
  | .restart p =>
    heldSettings s.m_vpnManager = derivedSettings sources (getTunnelConfig p) ∧
      s.m_tunnelThread.holdsConfig = false
  | _ => True

instance (sources : BypassSources) (s : TunnelManager) (e : Event) :
    Decidable (KeepsSettings sources s e) :=
  match e with
  | .restart _ => by
    dsimp only [KeepsSettings]
    infer_instance
  | .start _ | .threadStep _ | .stop | .startupTask | .onConnecting | .onConnected
  | .onStartedWaitingForNetworkConnectivity | .onStoppedWaitingForNetworkConnectivity
  | .onListeningSocksProxyPort _ | .deliver _ | .newClient _ | .timerFires | .tick _ =>
    instDecidableTrue

/-- A RESTART_TUNNEL has been processed. -/
def Restarted (es : List Event) : Prop := ∃ p, Event.restart p ∈ es

/-- What the tunnel thread has read is what is in force, and once there has been a RESTART_TUNNEL
the settings are those of the configuration in force. -/
structure Follows (sources : BypassSources) (es : List Event) (s : TunnelManager) : Prop where
  share : ∀ share, s.m_tunnelThread = .shareRead share →
    ∃ config, s.m_tunnelConfig = some config ∧ share = config.shareProxyOnNetwork
  config : ∀ config, s.m_tunnelThread = .configuring config ∨
    s.m_tunnelThread = .routesSet config → s.m_tunnelConfig = some config
  started : Restarted es → s.m_tunnelThread ≠ .absent
  settings : Restarted es → ∃ config, s.m_tunnelConfig = some config ∧
    heldSettings s.m_vpnManager = derivedSettings sources config

/-- Of a thread that has read nothing only the settings matter. -/
theorem Follows.of_settings {sources : BypassSources} {es : List Event} {s : TunnelManager}
    (hth : s.m_tunnelThread.holdsConfig = false)
    (hstarted : Restarted es → s.m_tunnelThread ≠ .absent)
    (h : Restarted es → ∃ config, s.m_tunnelConfig = some config ∧
      heldSettings s.m_vpnManager = derivedSettings sources config) : Follows sources es s := by
  refine ⟨?_, ?_, hstarted, h⟩
  · intro share ht
    rw [ht] at hth
    cases hth
  · intro config ht
    rcases ht with ht | ht <;> rw [ht] at hth <;> cases hth

/-- A step of the tunnel thread sets what is set already. -/
theorem Follows.threadStep {sources : BypassSources} {env : ThreadEnv} {es : List Event}
    {s t : TunnelManager} (hs : Follows sources es s) (h : ThreadStep sources env s t) :
    Follows sources es t := by
  cases h with
  | setMode hth =>
    refine .of_settings rfl (fun _ => nofun) ?_
    intro hr
    obtain ⟨config, hconfig, hheld⟩ := hs.settings hr
    have hmode := congrArg VpnSettings.proxyOnlyMode hheld
    simp only [heldSettings, derivedSettings] at hmode
    refine ⟨config, hconfig, ?_⟩
    rw [← hheld]
    simp only [heldSettings, VpnManager.setProxyOnlyMode, hconfig, isProxyOnly, ← hmode]
  | @readShare config hth hconfig =>
    refine ⟨?_, ?_, fun _ => nofun, hs.settings⟩
    · intro share ht
      obtain rfl := TunnelThread.shareRead.inj ht
      exact ⟨config, hconfig, rfl⟩
    · intro _ ht
      rcases ht with ht | ht <;> cases ht
  | @setShare share hth =>
    refine .of_settings rfl (fun _ => nofun) ?_
    intro hr
    obtain ⟨config, hconfig, hheld⟩ := hs.settings hr
    obtain ⟨config', hconfig', rfl⟩ := hs.share share hth
    obtain rfl := Option.some.inj (hconfig.symm.trans hconfig')
    have hshare := congrArg VpnSettings.shareProxyOnNetwork hheld
    simp only [heldSettings, derivedSettings] at hshare
    refine ⟨config, hconfig, ?_⟩
    rw [← hheld]
    simp only [heldSettings, VpnManager.setShareProxyOnNetwork, hconfig, isProxyOnly, ← hshare]
  | @readConfig config hth hconfig =>
    refine ⟨fun _ => nofun, ?_, fun _ => nofun, hs.settings⟩
    intro config' ht
    rcases ht with ht | ht
    · obtain rfl := TunnelThread.configuring.inj ht
      exact hconfig
    · cases ht
  | @setRoutes config hth =>
    have hconfig := hs.config config (Or.inl hth)
    refine ⟨fun _ => nofun, ?_, fun _ => nofun, ?_⟩
    · intro config' ht
      rcases ht with ht | ht
      · cases ht
      · obtain rfl := TunnelThread.routesSet.inj ht
        exact hconfig
    · intro hr
      obtain ⟨config', hconfig', hheld⟩ := hs.settings hr
      obtain rfl := Option.some.inj (hconfig.symm.trans hconfig')
      have hroutes := congrArg VpnSettings.bypassExcludedRoutes hheld
      simp only [heldSettings, derivedSettings] at hroutes
      refine ⟨config, hconfig, ?_⟩
      rw [← hheld]
      simp only [heldSettings, VpnManager.setBypassExcludedRoutes, ← hroutes]
  | @setDns config hth =>
    refine .of_settings rfl (fun _ => nofun) ?_
    intro hr
    obtain ⟨config', hconfig', hheld⟩ := hs.settings hr
    obtain rfl := Option.some.inj ((hs.config config (Or.inr hth)).symm.trans hconfig')
    have hdns := congrArg VpnSettings.secureDnsServer hheld
    simp only [heldSettings, derivedSettings] at hdns
    refine ⟨config, hconfig', ?_⟩
    rw [← hheld]
    simp only [heldSettings, VpnManager.setSecureDnsServer, ← hdns]
  | establish _ _ | establishFails _ _ =>
    refine .of_settings rfl (fun _ => nofun) ?_
    intro hr
    rw [heldSettings_vpnEstablish]
    exact hs.settings hr
  | tearDown _ =>
    refine .of_settings rfl (fun _ => nofun) ?_
    intro hr
    rw [heldSettings_vpnTeardown]
    exact hs.settings hr
  | _ => exact .of_settings rfl (fun _ => nofun) hs.settings

/-- An event other than a RESTART_TUNNEL adds none to the history. -/
theorem restarted_append_singleton (es : List Event) {e : Event} (hne : ∀ p, e ≠ .restart p) :
    Restarted (es ++ [e]) ↔ Restarted es := by
  constructor
  · rintro ⟨p, hp⟩
    rcases List.mem_append.mp hp with hp | hp
    · exact ⟨p, hp⟩
    · exact absurd (List.mem_singleton.mp hp).symm (hne p)
  · rintro ⟨p, hp⟩
    exact ⟨p, List.mem_append_left _ hp⟩

/-- **Every step** that meets the condition keeps it. -/
theorem Follows.step {sources : BypassSources} {es : List Event} {s t : TunnelManager}
    {e : Event} (hs : Follows sources es s) (hok : KeepsSettings sources s e)
    (h : Step sources s e t) : Follows sources (es ++ [e]) t := by
  rcases h.settings with ⟨env, rfl, hthread⟩ | ⟨hheld, -, hrest⟩
  · have hiff := restarted_append_singleton es (e := .threadStep env) (by simp)
    obtain ⟨hshare, hconfig, hstarted, hsettings⟩ := hs.threadStep hthread
    exact ⟨hshare, hconfig, fun hr => hstarted (hiff.mp hr), fun hr => hsettings (hiff.mp hr)⟩
  rcases hrest with ⟨p, rfl, habsent, hth, hconfig⟩ | ⟨p, rfl, hpresent, hth, hconfig⟩ |
    ⟨hne, hth, hconfig⟩
  · -- a start comes before every RESTART_TUNNEL
    have hiff := restarted_append_singleton es (e := .start p) (by simp)
    refine .of_settings (by rw [hth]; rfl) (fun _ => by rw [hth]; nofun) ?_
    intro hr
    exact absurd habsent (hs.started (hiff.mp hr))
  · obtain ⟨hderived, hholds⟩ := hok
    refine .of_settings (by rw [hth]; exact hholds) (fun _ => by rw [hth]; exact hpresent)
      (fun _ => ⟨_, hconfig, ?_⟩)
    rw [hheld]
    exact hderived
  · have hiff := restarted_append_singleton es hne
    refine ⟨?_, ?_, ?_, ?_⟩
    · rw [hth, hconfig]
      exact hs.share
    · rw [hth, hconfig]
      exact hs.config
    · rw [hth, hiff]
      exact hs.started
    · rw [hconfig, hheld, hiff]
      exact hs.settings

theorem follows_new (sources : BypassSources) (m : VpnManager) :
    Follows sources [] (TunnelManager.new m) :=
  .of_settings rfl (fun ⟨_, hp⟩ => absurd hp (by simp)) (fun ⟨_, hp⟩ => absurd hp (by simp))

/-- **The requested configuration and the applied one.**  In any run of the service a
RESTART_TUNNEL leaves the requested configuration applied exactly when it derives the settings
held; and in a run whose every RESTART_TUNNEL meets the condition, it is applied in every state
from the first of them on. -/
theorem requested_configuration_applied (sources : BypassSources) {m : VpnManager}
    (hm : Idle m) :
    (∀ es s, Run (step sources) (fun _ _ => True) (TunnelManager.new m) es s →
      ∀ p t, step sources s (.restart p) = some t → (Applied sources t ↔
        heldSettings s.m_vpnManager = derivedSettings sources (getTunnelConfig p))) ∧
    (∀ es s, Run (step sources) (KeepsSettings sources) (TunnelManager.new m) es s →
      Restarted es → Applied sources s) := by
  refine ⟨fun es s hrun p t h =>
    applied_after_restart_iff (built_of_run hm hrun) (.of_step sources h), ?_⟩
  intro es s hrun hr
  have hfollows : Follows sources es s := hrun.invariant_trace (follows_new sources m)
    (fun es s e t hs hok hst => hs.step hok (.of_step sources hst))
  exact (built_of_run hm hrun).applied_iff.mpr (hfollows.settings hr)

theorem idle_new : Idle VpnManager.new := ⟨rfl, rfl, rfl⟩

/-- The theorem at a start with sharing off and a RESTART_TUNNEL that changes the region only. -/
theorem requested_configuration_applied_region :
    ∃ s, exec (step noSources) (TunnelManager.new VpnManager.new)
        (bringUp (fun _ => none) ++ [.restart (onlyPreference "egressRegionPreference" "DE")])
          = some s ∧
      Applied noSources s := by
  obtain ⟨s, hs⟩ := Option.isSome_iff_exists.mp
    (show (execIf (step noSources) (KeepsSettings noSources) (TunnelManager.new VpnManager.new)
      (bringUp (fun _ => none) ++
        [.restart (onlyPreference "egressRegionPreference" "DE")])).isSome = true by decide)
  have hrun := run_of_execIf hs
  exact ⟨s, hrun.exec_eq,
    (requested_configuration_applied noSources idle_new).2 _ s hrun ⟨_, List.mem_append_right _
      (List.mem_singleton.mpr rfl)⟩⟩

/-- **Where it is not applied.**  Sharing is turned on by a RESTART_TUNNEL: `VpnManager` still has
it off. -/
theorem sharing_not_applied :
    ∃ s, exec (step noSources) (TunnelManager.new VpnManager.new)
        (bringUp (fun _ => none) ++
          [.restart (onlyPreference "shareProxyOnNetworkPreference" "true")]) = some s ∧
      ¬ Applied noSources s := by
  have hany : (exec (step noSources) (TunnelManager.new VpnManager.new)
      (bringUp (fun _ => none) ++
        [.restart (onlyPreference "shareProxyOnNetworkPreference" "true")])).any
      (fun s => s.m_tunnelConfig.any Config.shareProxyOnNetwork &&
        !isProxyOnly s.m_tunnelConfig && !s.m_vpnManager.mShareProxyOnNetwork) = true := by
    decide
  obtain ⟨s, hs, hprop⟩ := (Option.any_eq_true _ _).mp hany
  refine ⟨s, hs, ?_⟩
  rintro ⟨config, hconfig, hheld, -⟩
  have hshare := congrArg VpnSettings.shareProxyOnNetwork hheld
  simp only [heldSettings, derivedSettings] at hshare
  simp only [hconfig, isProxyOnly, hshare, Option.any_some, Bool.and_eq_true, Bool.not_eq_true',
    Bool.and_eq_false_iff, Bool.not_eq_false'] at hprop
  obtain ⟨⟨hon, hmode⟩, hoff | hmode'⟩ := hprop
  · rw [hon] at hoff
    cases hoff
  · rw [hmode] at hmode'
    cases hmode'

end ShiroKhorshid.Service
