/-
# Two readers of one store (`AzadiSettingsStore.load`, `getTunnelConfigSingle`)

The interface shows what `load` returns; the tunnel does what `getTunnelConfigSingle` returns.
Both read the same keys, each with its own defaults, trimming and ranges.  A `Config` is what
they have in common: `AzadiSettings.toConfig` is the configuration that the interface shows, and
`defaulted` the one that the tunnel runs with, once `buildTunnelCoreConfig` has put in the
default ports.

The two agree field by field, so the theorem is put together from one lemma for each way of reading:

* a text that falls back to its default where it is missing, and one that does so where it is empty
  (`read_nonEmpty_eq_iff`, `read_nonEmpty_eq_getD_iff`);
* a port, which the interface parses as it stands and the tunnel trims, and whose range the tunnel
  checks (`port_agrees_iff`);
* the mode of conduit, whose two defaults differ, so that it has to be stored.

`readers_agree_iff` says for which contents of the store the two are the same (`Agreeable`), with no
condition on the store: any text may stand under any key.

The interface reads after its migrations, the tunnel without.  Fields only one of the two has are
not compared.
-/
import ShiroKhorshid.Settings.Codec

namespace ShiroKhorshid.Settings

open Jvm Service Record

/-! ## 1. The two readings -/

/-- The configuration that the interface shows. -/
def AzadiSettings.toConfig (settings : AzadiSettings) : Config where
  egressRegion := settings .egressRegion
  disableTimeouts := settings .disableTimeouts
  protocolSelection := settings .protocolSelection
  cdnFrontingCustomIpList := settings .cdnFrontingCustomIpList
  cdnFrontingCustomSni := settings .cdnFrontingCustomSni
  cdnFrontingUseBuiltInScan := settings .cdnFrontingUseBuiltInScan
  beastMode := settings .beastModeEnabled
  conduitMode := settings .conduitMode
  conduitTimeoutSeconds := settings .conduitTimeoutSeconds
  rejectCensoredCountryProxies := settings .rejectCensoredCountryProxies
  shareProxyOnNetwork := settings .shareProxyOnLocalNetworkEnabled
  shareProxyOnNetworkSocksPort := settings .lanSocksProxyPort
  shareProxyOnNetworkHttpPort := settings .lanHttpProxyPort
  shareProxyOnNetworkUsername := settings .lanProxyUsername
  shareProxyOnNetworkPassword := settings .lanProxyPassword
  shareProxyOnNetworkAuthEnabled := settings .lanProxyAuthEnabled
  proxyOnlyMode := settings .proxyOnlyModeEnabled
  bypassIranIPsEnabled := settings .bypassIranIPsEnabled
  bypassCustomRoutes := settings .bypassCustomRoutes
  bypassDomains := settings .bypassDomains
  bypassStrictModeEnabled := settings .bypassStrictModeEnabled
  secureDNSMode := settings .secureDNSMode
  secureDNSProvider := settings .secureDNSProvider
  customDoTHost := settings .customDoTHost

/-- The default port in place of none, as `buildTunnelCoreConfig` has it. -/
def defaultPort (port default : ℤ) : ℤ := if port > 0 then port else default

/-- The configuration with the ports that the tunnel uses. -/
def defaulted (config : Config) : Config :=
  { config with
    shareProxyOnNetworkSocksPort := defaultPort config.shareProxyOnNetworkSocksPort 1088
    shareProxyOnNetworkHttpPort := defaultPort config.shareProxyOnNetworkHttpPort 8087 }

/-! ## 2. Strings -/

/-- `ifEmpty` matters when there is an empty string to replace. -/
theorem read_nonEmpty_eq_iff {default : String} (h : default ≠ "") (stored : Option String) :
    (Kind.nonEmpty default).read stored = stored.getD default ↔ stored ≠ some "" := by
  change (if stored.getD default = "" then default else stored.getD default) = stored.getD default ↔
    stored ≠ some ""
  cases stored with
  | none => simp
  | some s =>
    by_cases hs : s = ""
    · subst hs
      simpa using h
    · simp [hs]

/-- When the defaults differ too, something has to be stored. -/
theorem read_nonEmpty_eq_getD_iff {default other : String} (h : default ≠ "")
    (hne : default ≠ other) (stored : Option String) :
    (Kind.nonEmpty default).read stored = stored.getD other ↔ ∃ s, stored = some s ∧ s ≠ "" := by
  change (if stored.getD default = "" then default else stored.getD default) = stored.getD other ↔
    ∃ s, stored = some s ∧ s ≠ ""
  cases stored with
  | none => simpa [h] using hne
  | some s =>
    by_cases hs : s = ""
    · subst hs
      simpa using h
    · simp [hs]

/-! ## 3. Ports -/

/-- The stored text of a port is a number only if it is a port, and a port within spaces only if
it is the default. -/
def PortReadable (default : ℤ) (s : String) : Prop :=
  (∀ n, parseInt s = some n → isValidProxyPort n = true) ∧
    (parseInt s = none → ∀ n, parseInt (javaTrim s) = some n → isValidProxyPort n = true →
      n = default)

/-- **When a port shows as it is used.** -/
theorem port_agrees_iff {default : ℤ} (h : isValidProxyPort default = true) (s : String) :
    (parseInt s).getD default = defaultPort (parseOptionalProxyPort s) default ↔
      PortReadable default s := by
  have hpos : ∀ n, isValidProxyPort n = true → n > 0 := by
    intro n hn
    simp only [isValidProxyPort, Bool.and_eq_true, decide_eq_true_eq] at hn
    omega
  unfold PortReadable parseOptionalProxyPort defaultPort
  cases hparse : parseInt s with
  | some n =>
    have hne : s ≠ "" := by
      rintro rfl
      have hempty : parseInt "" = none := by decide
      exact absurd (hparse.symm.trans hempty) (Option.some_ne_none n)
    rw [if_neg hne, javaTrim_of_parseInt hparse, hparse]
    by_cases hvalid : isValidProxyPort n = true
    · simp [hvalid, hpos n hvalid]
    · have hdefault : n ≠ default := by
        rintro rfl
        exact hvalid h
      simp [hvalid, hdefault]
  | none =>
    by_cases hne : s = ""
    · subst hne
      have hempty : parseInt (javaTrim "") = none := by decide
      simp [hempty]
    · rw [if_neg hne]
      cases htrim : parseInt (javaTrim s) with
      | none => simp
      | some m =>
        by_cases hvalid : isValidProxyPort m = true
        · have hport : (if (if isValidProxyPort m = true then m else 0) > 0 then
              (if isValidProxyPort m = true then m else 0) else default) = m := by
            rw [if_pos hvalid, if_pos (hpos m hvalid)]
          dsimp only
          rw [hport, Option.getD_none]
          constructor
          · intro heq
            refine ⟨fun n hn => absurd hn.symm (Option.some_ne_none n), ?_⟩
            intro _ n hn _
            rw [← Option.some.inj hn, ← heq]
          · rintro ⟨-, heq⟩
            exact (heq rfl m rfl hvalid).symm
        · have hport : (if (if isValidProxyPort m = true then m else 0) > 0 then
              (if isValidProxyPort m = true then m else 0) else default) = default := by
            rw [if_neg hvalid]
            exact if_neg (lt_irrefl 0)
          dsimp only
          rw [hport, Option.getD_none]
          refine iff_of_true rfl ⟨fun n hn => absurd hn.symm (Option.some_ne_none n), ?_⟩
          intro _ n hn hn'
          rw [Option.some.inj hn] at hvalid
          exact absurd hn' hvalid

/-! ## 4. Agreement -/

/-- Before the load, the store holds nothing that the two readers take differently. -/
structure Agreeable (p : Preferences) : Prop where
  protocolSelection : p "protocolSelectionPreference" ≠ some ""
  /-- The defaults are `public` for the interface and `auto` for the tunnel. -/
  conduitMode : ∃ s, p "conduitMode" = some s ∧ s ≠ ""
  socksPort : PortReadable 1088 (p.getString "shareProxyOnNetworkSocksPortPreference" "")
  httpPort : PortReadable 8087 (p.getString "shareProxyOnNetworkHttpPortPreference" "")
  /-- The tunnel trims the user name. -/
  username :
    javaTrim (p.getString "shareProxyOnNetworkUsernamePreference" "")
      = p.getString "shareProxyOnNetworkUsernamePreference" ""
  secureDNSMode : p "secureDNSModePreference" ≠ some ""
  secureDNSProvider : p "secureDNSProviderPreference" ≠ some ""

/-- The interface shows what the tunnel does. -/
def ReadersAgree (p : Preferences) : Prop :=
  (load p).toConfig = defaulted (getTunnelConfig (migrated p))

theorem conduitTimeout_agrees (stored : Option String) :
    (Kind.int 180).read stored = (parseInt (stored.getD "180")).getD 180 := by
  cases stored with
  | none => rfl
  | some s => rfl

/-- The other settings are read alike, whatever the store holds. -/
theorem readersAgree_iff_read (p : Preferences) :
    ReadersAgree p ↔
      (Kind.nonEmpty "auto").read (migrated p "protocolSelectionPreference")
          = (migrated p "protocolSelectionPreference").getD "auto" ∧
      (Kind.nonEmpty "public").read (migrated p "conduitMode")
          = (migrated p "conduitMode").getD "auto" ∧
      (parseInt ((migrated p).getString "shareProxyOnNetworkSocksPortPreference" "")).getD 1088
          = defaultPort (parseOptionalProxyPort
              ((migrated p).getString "shareProxyOnNetworkSocksPortPreference" "")) 1088 ∧
      (parseInt ((migrated p).getString "shareProxyOnNetworkHttpPortPreference" "")).getD 8087
          = defaultPort (parseOptionalProxyPort
              ((migrated p).getString "shareProxyOnNetworkHttpPortPreference" "")) 8087 ∧
      (migrated p).getString "shareProxyOnNetworkUsernamePreference" ""
          = javaTrim ((migrated p).getString "shareProxyOnNetworkUsernamePreference" "") ∧
      (Kind.nonEmpty "doh").read (migrated p "secureDNSModePreference")
          = (migrated p "secureDNSModePreference").getD "doh" ∧
      (Kind.nonEmpty "google").read (migrated p "secureDNSProviderPreference")
          = (migrated p "secureDNSProviderPreference").getD "google" := by
  constructor
  · intro h
    exact ⟨congrArg Config.protocolSelection h, congrArg Config.conduitMode h,
      congrArg Config.shareProxyOnNetworkSocksPort h,
      congrArg Config.shareProxyOnNetworkHttpPort h,
      congrArg Config.shareProxyOnNetworkUsername h, congrArg Config.secureDNSMode h,
      congrArg Config.secureDNSProvider h⟩
  · rintro ⟨hprotocol, hconduit, hsocks, hhttp, husername, hmode, hprovider⟩
    exact Eq.mpr (Config.mk.injEq ..) ⟨rfl, rfl, hprotocol, rfl, rfl, rfl, rfl, hconduit,
      conduitTimeout_agrees _, rfl, rfl, hsocks, hhttp, husername, rfl, rfl, rfl, rfl, rfl, rfl,
      rfl, hmode, hprovider, rfl⟩

/-- A migration leaves no empty string behind, and removes none. -/
theorem migrated_secureDns_eq_empty_iff {p : Preferences} {key : String}
    (hkey : key = "secureDNSModePreference" ∨ key = "secureDNSProviderPreference") :
    migrated p key = some "" ↔ p key = some "" := by
  have hlegal : migrated p key = migrateSecureDnsDefaults p key := by
    refine migrateLegalFlags_other ?_ ?_ <;> rcases hkey with rfl | rfl <;> decide
  rw [hlegal]
  unfold migrateSecureDnsDefaults
  split
  · rename_i hlegacy
    rcases hkey with rfl | rfl
    · have hstored : p "secureDNSModePreference" ≠ some "" := by
        intro hempty
        have hoff := hlegacy.1
        rw [getString_of_eq_some hempty] at hoff
        exact absurd hoff (by decide)
      exact iff_of_false (by simp [put, Function.update]) hstored
    · have hstored : p "secureDNSProviderPreference" ≠ some "" := by
        intro hempty
        have hcloudflare := hlegacy.2
        rw [getString_of_eq_some hempty] at hcloudflare
        exact absurd hcloudflare (by decide)
      exact iff_of_false (by simp [put, Function.update]) hstored
  · rfl

/-- **The two readers agree, exactly.** -/
theorem readers_agree_iff (p : Preferences) : ReadersAgree p ↔ Agreeable p := by
  have hsame : ∀ {key : String}, key ∉ migratedKeys → migrated p key = p key :=
    fun hkey => migrated_other hkey
  have hget : ∀ {key : String}, key ∉ migratedKeys → ∀ default,
      (migrated p).getString key default = p.getString key default := by
    intro key hkey default
    rw [Preferences.getString, Preferences.getString, hsame hkey]
  rw [readersAgree_iff_read, read_nonEmpty_eq_iff (by decide),
    read_nonEmpty_eq_getD_iff (by decide) (by decide), port_agrees_iff (by decide),
    port_agrees_iff (by decide), read_nonEmpty_eq_iff (by decide),
    read_nonEmpty_eq_iff (by decide), hsame (by decide), hsame (by decide), hget (by decide),
    hget (by decide), hget (by decide), ne_eq (migrated p "secureDNSModePreference"),
    ne_eq (migrated p "secureDNSProviderPreference"),
    migrated_secureDns_eq_empty_iff (Or.inl rfl), migrated_secureDns_eq_empty_iff (Or.inr rfl)]
  constructor
  · rintro ⟨hprotocol, hconduit, hsocks, hhttp, husername, hmode, hprovider⟩
    exact ⟨hprotocol, hconduit, hsocks, hhttp, husername.symm, hmode, hprovider⟩
  · rintro ⟨hprotocol, hconduit, hsocks, hhttp, husername, hmode, hprovider⟩
    exact ⟨hprotocol, hconduit, hsocks, hhttp, husername.symm, hmode, hprovider⟩

/-- On a new installation the interface shows public conduits and the tunnel tries others
first. -/
theorem readers_disagree_when_empty :
    ¬ ReadersAgree (fun _ => none) ∧
      (load (fun _ => none)).toConfig.conduitMode = "public" ∧
      (getTunnelConfig (migrated fun _ => none)).conduitMode = "auto" := by
  have hshown : (load (fun _ => none)).toConfig.conduitMode = "public" := rfl
  have hdone : (getTunnelConfig (migrated fun _ => none)).conduitMode = "auto" := rfl
  refine ⟨?_, hshown, hdone⟩
  intro h
  have hmode : ("public" : String) = "auto" :=
    hshown.symm.trans ((congrArg Config.conduitMode h).trans hdone)
  exact absurd hmode (by decide)

end ShiroKhorshid.Settings
