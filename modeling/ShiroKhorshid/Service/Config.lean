/-
# The tunnel configuration (`TunnelManager.Config`)

The service reads its configuration from the preference store (`getTunnelConfigSingle`) when it
starts and again for every RESTART_TUNNEL message.  Two places then look at the local proxy
ports: `buildTunnelCoreConfig`, which tells the core where to listen, and the RESTART_TUNNEL
handler, which decides whether the port may have changed and tun2socks must be restarted
(`portChanged`).

The handler compares the raw fields, the builder combines them with the sharing flag.

* A SOCKS port is emitted where the proxy is exposed, by the flag or in proxy-only mode; it is the
  stored one, or 1088 where none is stored (`emittedSocksPort_isSome`, `emittedSocksPort_range`).
  Otherwise the core picks a port of its own.
* The comparison looks at the two ports and the mode, not at the flag (`portChanged_eq_false_iff`).
* So there is one kind of change it misses (`portChanged_iff_not_sharingTurnedOn`): sharing is
  turned on outside proxy-only mode and the stored ports stay as they are.

`port_change_detected_iff` says so of every pair of stored configurations.

A stored text is any text: what does not parse counts as not stored, as in the source.  The members
of the core's configuration other than the two ports are not modelled here.
-/
import ShiroKhorshid.Vpn.Manager

namespace ShiroKhorshid.Service

open Jvm Vpn VpnManager

/-! ## 1. The preference store

`Tray` keeps every value as a string.  No writer of the keys below stores a null. -/

/-- The stored string of each key, if there is one. -/
abbrev Preferences := String → Option String

/-- `getString(key, defaultValue)` -/
def Preferences.getString (p : Preferences) (key defaultValue : String) : String :=
  (p key).getD defaultValue

/-- `Boolean.parseBoolean`: the word `true`, in any case. -/
def parseBoolean (value : String) : Bool := value.toList.map Char.toLower = "true".toList

/-- `getBoolean(key, defaultValue)` -/
def Preferences.getBoolean (p : Preferences) (key : String) (defaultValue : Bool) : Bool :=
  ((p key).map parseBoolean).getD defaultValue

/-! ## 2. The configuration -/

/-- `TunnelManager.Config`, without `sponsorId` (a build-time constant). -/
structure Config where
  egressRegion : String
  disableTimeouts : Bool
  protocolSelection : String
  cdnFrontingCustomIpList : String
  cdnFrontingCustomSni : String
  cdnFrontingUseBuiltInScan : Bool
  beastMode : Bool
  conduitMode : String
  conduitTimeoutSeconds : ℤ
  rejectCensoredCountryProxies : Bool
  shareProxyOnNetwork : Bool
  shareProxyOnNetworkSocksPort : ℤ
  shareProxyOnNetworkHttpPort : ℤ
  shareProxyOnNetworkUsername : String
  shareProxyOnNetworkPassword : String
  shareProxyOnNetworkAuthEnabled : Bool
  proxyOnlyMode : Bool
  bypassIranIPsEnabled : Bool
  bypassCustomRoutes : String
  bypassDomains : String
  bypassStrictModeEnabled : Bool
  secureDNSMode : String
  secureDNSProvider : String
  customDoTHost : String
deriving DecidableEq

/-- `UpstreamProxySettings.isValidProxyPort` -/
def isValidProxyPort (proxyPort : ℤ) : Bool := proxyPort ≥ 1 && proxyPort ≤ 65535

/-- `parseOptionalProxyPort`: 0 for anything that is not a valid port. -/
def parseOptionalProxyPort (value : String) : ℤ :=
  if value = "" then 0
  else match parseInt (javaTrim value) with
    | some port => if isValidProxyPort port then port else 0
    | none => 0

/-- `getTunnelConfigSingle` -/
def getTunnelConfig (p : Preferences) : Config where
  egressRegion := p.getString "egressRegionPreference" ""
  disableTimeouts := p.getBoolean "disableTimeoutsPreference" false
  protocolSelection := p.getString "protocolSelectionPreference" "auto"
  cdnFrontingCustomIpList := p.getString "cdnFrontingCustomIpListPreference" ""
  cdnFrontingCustomSni := p.getString "cdnFrontingCustomSniPreference" ""
  cdnFrontingUseBuiltInScan := p.getBoolean "cdnFrontingUseBuiltInScanPreference" true
  beastMode := p.getBoolean "beastModePreference" true
  conduitMode := p.getString "conduitMode" "auto"
  conduitTimeoutSeconds := (parseInt (p.getString "conduitTimeout" "180")).getD 180
  rejectCensoredCountryProxies := p.getBoolean "rejectCensoredCountryProxiesPreference" true
  shareProxyOnNetwork := p.getBoolean "shareProxyOnNetworkPreference" false
  shareProxyOnNetworkSocksPort :=
    parseOptionalProxyPort (p.getString "shareProxyOnNetworkSocksPortPreference" "")
  shareProxyOnNetworkHttpPort :=
    parseOptionalProxyPort (p.getString "shareProxyOnNetworkHttpPortPreference" "")
  shareProxyOnNetworkUsername :=
    javaTrim (p.getString "shareProxyOnNetworkUsernamePreference" "")
  shareProxyOnNetworkPassword := p.getString "shareProxyOnNetworkPasswordPreference" ""
  shareProxyOnNetworkAuthEnabled :=
    p.getBoolean "shareProxyOnNetworkAuthEnabledPreference" false
  proxyOnlyMode := p.getBoolean "proxyOnlyModePreference" false
  bypassIranIPsEnabled := p.getBoolean "bypassIranIPsPreference" false
  bypassCustomRoutes := p.getString "bypassCustomRoutesPreference" ""
  bypassDomains := p.getString "bypassDomainsPreference" ""
  bypassStrictModeEnabled := p.getBoolean "bypassStrictModePreference" false
  secureDNSMode := p.getString "secureDNSModePreference" "doh"
  secureDNSProvider := p.getString "secureDNSProviderPreference" "google"
  customDoTHost := p.getString "customDoTHostPreference" ""

/-- A parsed port is 0 or a valid port. -/
theorem parseOptionalProxyPort_range (value : String) :
    0 ≤ parseOptionalProxyPort value ∧ parseOptionalProxyPort value ≤ 65535 := by
  unfold parseOptionalProxyPort
  split
  · omega
  · split
    · split
      · rename_i port _ hvalid
        simp only [isValidProxyPort, Bool.and_eq_true, decide_eq_true_eq] at hvalid
        omega
      · omega
    · omega

/-! ## 3. Where the core listens -/

/-- `shouldExposeLanProxy` -/
def shouldExposeLanProxy (config : Config) : Bool :=
  config.shareProxyOnNetwork || config.proxyOnlyMode

/-- The members `buildTunnelCoreConfig` adds to its JSON object for the local proxy. -/
structure LanProxyMembers where
  listenInterface : String
  localSocksProxyPort : ℤ
  localHttpProxyPort : ℤ
  /-- `LocalProxyUsername` and `LocalProxyPassword` -/
  credentials : Option (String × String)
deriving DecidableEq

/-- The local proxy block of `buildTunnelCoreConfig`, when it is emitted. -/
def lanProxyMembers (config : Config) : Option LanProxyMembers :=
  if shouldExposeLanProxy config then
    some {
      listenInterface := "any"
      localSocksProxyPort :=
        if config.shareProxyOnNetworkSocksPort > 0 then config.shareProxyOnNetworkSocksPort
        else 1088
      localHttpProxyPort :=
        if config.shareProxyOnNetworkHttpPort > 0 then config.shareProxyOnNetworkHttpPort
        else 8087
      credentials :=
        if config.shareProxyOnNetworkUsername ≠ "" ∧ config.shareProxyOnNetworkPassword ≠ ""
        then some (config.shareProxyOnNetworkUsername, config.shareProxyOnNetworkPassword)
        else none }
  else none

/-- The `LocalSocksProxyPort` emitted for a configuration, if any. -/
def emittedSocksPort (config : Config) : Option ℤ :=
  (lanProxyMembers config).map LanProxyMembers.localSocksProxyPort

/-- `portChanged`, as the RESTART_TUNNEL handler computes it. -/
def portChanged (old : Option Config) (config : Config) : Bool :=
  match old with
  | none => false
  | some old =>
    old.shareProxyOnNetworkSocksPort != config.shareProxyOnNetworkSocksPort ||
    old.shareProxyOnNetworkHttpPort != config.shareProxyOnNetworkHttpPort ||
    old.proxyOnlyMode != config.proxyOnlyMode

/-- The handler's effect on tun2socks. -/
def stopOnPortChange (old : Option Config) (config : Config) (m : VpnManager) : VpnManager :=
  if portChanged old config then m.stopRouteThroughTunnel else m

/-! ## 4. Which changes the handler sees -/

/-- An emitted port is a valid one. -/
theorem emittedSocksPort_range {p : Preferences} {port : ℤ}
    (h : emittedSocksPort (getTunnelConfig p) = some port) : 0 < port ∧ port ≤ 65535 := by
  have hrange :=
    parseOptionalProxyPort_range (p.getString "shareProxyOnNetworkSocksPortPreference" "")
  have hsocks : (getTunnelConfig p).shareProxyOnNetworkSocksPort
      = parseOptionalProxyPort (p.getString "shareProxyOnNetworkSocksPortPreference" "") := rfl
  rw [← hsocks] at hrange
  unfold emittedSocksPort lanProxyMembers at h
  split at h
  · have hport : (if (getTunnelConfig p).shareProxyOnNetworkSocksPort > 0 then
        (getTunnelConfig p).shareProxyOnNetworkSocksPort else 1088) = port := Option.some.inj h
    by_cases hpos : (getTunnelConfig p).shareProxyOnNetworkSocksPort > 0
    · rw [if_pos hpos] at hport
      omega
    · rw [if_neg hpos] at hport
      omega
  · cases h

/-- Two configurations that both expose the proxy on the same stored port listen on the same
port. -/
theorem emittedSocksPort_congr {old new : Config}
    (hport : old.shareProxyOnNetworkSocksPort = new.shareProxyOnNetworkSocksPort)
    (hold : shouldExposeLanProxy old = true) (hnew : shouldExposeLanProxy new = true) :
    emittedSocksPort old = emittedSocksPort new := by
  simp [emittedSocksPort, lanProxyMembers, hold, hnew, hport]

theorem emittedSocksPort_isSome (config : Config) :
    (emittedSocksPort config).isSome = shouldExposeLanProxy config := by
  unfold emittedSocksPort lanProxyMembers
  cases shouldExposeLanProxy config <;> rfl

/-- Sharing is turned on, outside proxy-only mode, and the stored ports stay as they are. -/
def SharingTurnedOn (old new : Config) : Prop :=
  old.shareProxyOnNetwork = false ∧ new.shareProxyOnNetwork = true ∧
    old.proxyOnlyMode = false ∧ new.proxyOnlyMode = false ∧
    old.shareProxyOnNetworkSocksPort = new.shareProxyOnNetworkSocksPort ∧
    old.shareProxyOnNetworkHttpPort = new.shareProxyOnNetworkHttpPort

theorem portChanged_eq_false_iff (old new : Config) :
    portChanged (some old) new = false ↔
      old.shareProxyOnNetworkSocksPort = new.shareProxyOnNetworkSocksPort ∧
      old.shareProxyOnNetworkHttpPort = new.shareProxyOnNetworkHttpPort ∧
      old.proxyOnlyMode = new.proxyOnlyMode := by
  simp [portChanged, and_assoc]

/-- **The comparison misses exactly one kind of change.** -/
theorem portChanged_iff_not_sharingTurnedOn (old new : Config) :
    (∀ port, emittedSocksPort new = some port → emittedSocksPort old ≠ some port →
      portChanged (some old) new = true) ↔ ¬ SharingTurnedOn old new := by
  constructor
  · rintro h ⟨hshare, hshare', hmode, hmode', hsocks, hhttp⟩
    have hnew : shouldExposeLanProxy new = true := by simp [shouldExposeLanProxy, hshare']
    have hold : shouldExposeLanProxy old = false := by
      simp [shouldExposeLanProxy, hshare, hmode]
    obtain ⟨port, hport⟩ := Option.isSome_iff_exists.mp ((emittedSocksPort_isSome new).trans hnew)
    have hnone : emittedSocksPort old = none := by
      rw [← Option.not_isSome_iff_eq_none, emittedSocksPort_isSome, hold]
      decide
    have hfalse := (portChanged_eq_false_iff old new).mpr ⟨hsocks, hhttp, hmode.trans hmode'.symm⟩
    rw [h port hport (by simp [hnone])] at hfalse
    cases hfalse
  · intro h port hport hne
    by_contra hfalse
    obtain ⟨hsocks, hhttp, hmode⟩ :=
      (portChanged_eq_false_iff old new).mp (Bool.eq_false_iff.mpr hfalse)
    have hnew : shouldExposeLanProxy new = true := by
      rw [← emittedSocksPort_isSome, hport]
      rfl
    cases hold : shouldExposeLanProxy old with
    | true => exact hne ((emittedSocksPort_congr hsocks hold hnew).trans hport)
    | false =>
      obtain ⟨hshare, hmode'⟩ := Bool.or_eq_false_iff.mp hold
      have hnewmode : new.proxyOnlyMode = false := hmode ▸ hmode'
      rw [shouldExposeLanProxy, hnewmode, Bool.or_false] at hnew
      exact h ⟨hshare, hnew, hmode', hnewmode, hsocks, hhttp⟩

/-- When the handler sees a change, tun2socks is stopped, and the next call of
`routeThroughTunnel` starts it on the port it is given. -/
theorem restarted_on_port {old new : Config} (hchanged : portChanged (some old) new = true)
    {m : VpnManager} (hm : RoutingOk m) (hmode : m.mProxyOnlyMode = false)
    (hfd : m.tunFd ≠ none) {port : ℤ} (hport : 0 < port) :
    (stopOnPortChange (some old) new m).mTun2SocksThread = none ∧
      (((stopOnPortChange (some old) new m).routeThroughTunnel port true).mTun2SocksThread.map
        Tun2Socks.socksProxyPort) = some port := by
  rw [stopOnPortChange, if_pos hchanged]
  have hnone : m.stopRouteThroughTunnel.mTun2SocksThread = none := hm.teardown.1
  have hstopped : m.stopRouteThroughTunnel.isRoutingThroughTunnel = false := by
    unfold stopRouteThroughTunnel
    split
    · rfl
    · rename_i hflag
      exact Bool.eq_false_iff.mpr hflag
  have hmode' : m.stopRouteThroughTunnel.mProxyOnlyMode = false := by
    unfold stopRouteThroughTunnel
    split <;> exact hmode
  have hfd' : m.stopRouteThroughTunnel.tunFd ≠ none := by
    unfold stopRouteThroughTunnel
    split <;> exact hfd
  refine ⟨hnone, ?_⟩
  rcases routeThroughTunnel_cases hmode' hstopped port true with
    ⟨tun, -, -, -, heq⟩ | ⟨hnot, -⟩
  · rw [heq, startTun2Socks, hnone]
    rfl
  · exact absurd ⟨hfd', hport, rfl⟩ hnot

/-- **Port-change detection.**  For any two stored configurations, every change of the emitted
SOCKS port is detected, and tun2socks is restarted on the new port, exactly when the change is
not that sharing is turned on with the stored ports unchanged. -/
theorem port_change_detected_iff (p p' : Preferences) :
    (∀ port, emittedSocksPort (getTunnelConfig p') = some port →
      emittedSocksPort (getTunnelConfig p) ≠ some port →
      portChanged (some (getTunnelConfig p)) (getTunnelConfig p') = true ∧
      ∀ m : VpnManager, RoutingOk m → m.mProxyOnlyMode = false → m.tunFd ≠ none →
        let stopped := stopOnPortChange (some (getTunnelConfig p)) (getTunnelConfig p') m
        stopped.mTun2SocksThread = none ∧
          (stopped.routeThroughTunnel port true).mTun2SocksThread.map Tun2Socks.socksProxyPort
            = some port) ↔
    ¬ SharingTurnedOn (getTunnelConfig p) (getTunnelConfig p') := by
  rw [← portChanged_iff_not_sharingTurnedOn]
  constructor
  · exact fun h port hport hne => (h port hport hne).1
  · intro h port hport hne
    have hchanged := h port hport hne
    exact ⟨hchanged, fun m hm hmode hfd =>
      restarted_on_port hchanged hm hmode hfd (emittedSocksPort_range hport).1⟩

/-- **The change it misses.**  With nothing stored the core picks a port of its own; when sharing
is then turned on it listens on 1088, and the handler sees no change. -/
theorem sharing_turned_on_missed :
    let old := getTunnelConfig (fun _ => none)
    let new := getTunnelConfig (fun key =>
      if key = "shareProxyOnNetworkPreference" then some "true" else none)
    emittedSocksPort new = some 1088 ∧ emittedSocksPort old = none ∧
      portChanged (some old) new = false := by
  decide

end ShiroKhorshid.Service
