/-
# The stored settings (`AzadiSettings`, `AzadiSettingsStore`)

The user interface holds its settings in an immutable record, `AzadiSettings`, and
`AzadiSettingsStore` keeps that record in the preference store: `loadInternal` reads every field
from its key, `save` puts every field back.  There is no way to write one field alone:
`saveField` changes a copy of the record and saves the whole of it.

* A record is a function from `Field`s to values, each field with a `Kind` that says how its value
  is printed and read.  A copy with one field changed is then one definition for all fields.
* `Field.entry` has one line for each field, the key and the reading that `loadInternal` has for
  it, and `Field.puts` is what `save` puts for it, in the order of the source (`saveOrder`).
* `layout` ties the two together, in the form that `Lib.Record` asks for: a field has one key or a
  few, a save puts all of them, and no key belongs to two fields.

A load is two migrations and then `loadInternal`.  The migrations write to the store, and a load
changes a setting exactly when one of them finds something to do (`load_eq_loadInternal_iff`).

`Codec` has the round trip, `Updates` the runs of all writers.  A save is atomic here: its puts are
made by one process, and the service's only put, of one key, falls before or after the save's put of
the same key.
-/
import ShiroKhorshid.Lib.Record
import ShiroKhorshid.Service.Config

namespace ShiroKhorshid.Settings

open Jvm Service Record

/-! ## 1. How one setting is stored -/

/-- The ways `loadInternal` reads a key, with the value an absent (or unreadable) one gives. -/
inductive Kind
  /-- `prefs.getBoolean(key, default)` -/
  | boolean (default : Bool)
  /-- `prefs.getString(key, …).toIntOrNull() ?: default` -/
  | int (default : ℤ)
  /-- `prefs.getString(key, default)` -/
  | string (default : String)
  /-- `prefs.getString(key, default).ifEmpty { default }` -/
  | nonEmpty (default : String)
  /-- `prefs.getString(key, "").trim()` -/
  | trimmed
deriving DecidableEq

def Kind.Value : Kind → Type
  | .boolean _ => Bool
  | .int _ => ℤ
  | .string _ => String
  | .nonEmpty _ => String
  | .trimmed => String

instance : (k : Kind) → DecidableEq k.Value
  | .boolean _ => inferInstanceAs (DecidableEq Bool)
  | .int _ => inferInstanceAs (DecidableEq ℤ)
  | .string _ => inferInstanceAs (DecidableEq String)
  | .nonEmpty _ => inferInstanceAs (DecidableEq String)
  | .trimmed => inferInstanceAs (DecidableEq String)

/-- What a stored string reads as. -/
def Kind.read : (k : Kind) → Option String → k.Value
  | .boolean default, stored => (stored.map parseBoolean).getD default
  | .int default, stored => (parseInt (stored.getD "")).getD default
  | .string default, stored => stored.getD default
  | .nonEmpty default, stored =>
      let s := stored.getD default
      if s = "" then default else s
  | .trimmed, stored => javaTrim (stored.getD "")

/-- `prefs.put(key, value)` for a `Boolean`. -/
def ofBoolean (b : Bool) : String := if b then "true" else "false"

/-- The string a value is stored as. -/
def Kind.print : (k : Kind) → k.Value → String
  | .boolean _, b => ofBoolean b
  | .int _, n => @toString ℤ _ n
  | .string _, s => s
  | .nonEmpty _, s => s
  | .trimmed, s => s

/-- The default of an `Int` setting is an `Int`. -/
def Kind.Fits : Kind → Prop
  | .int default => -2 ^ 31 ≤ default ∧ default < 2 ^ 31
  | _ => True

/-- What has been read and is put back reads the same. -/
theorem Kind.read_print_read {k : Kind} (h : k.Fits) (stored : Option String) :
    k.read (some (k.print (k.read stored))) = k.read stored := by
  cases k with
  | boolean default =>
    change parseBoolean (ofBoolean _) = _
    cases (Kind.boolean default).read stored <;> decide
  | int default =>
    have hrange : -2 ^ 31 ≤ (parseInt (stored.getD "")).getD default ∧
        (parseInt (stored.getD "")).getD default < 2 ^ 31 := by
      cases hp : parseInt (stored.getD "") with
      | none => exact h
      | some n => exact parseInt_range hp
    change (parseInt (toString ((parseInt (stored.getD "")).getD default))).getD default = _
    rw [parseInt_toString_int hrange.1 hrange.2]
    rfl
  | string default => rfl
  | nonEmpty default =>
    have hread : (nonEmpty default).read stored
        = if stored.getD default = "" then default else stored.getD default := rfl
    rw [hread]
    by_cases hempty : stored.getD default = ""
    · rw [if_pos hempty]
      exact ite_self default
    · rw [if_neg hempty]
      exact if_neg hempty
  | trimmed => exact trimChars_idem _ _

/-! ## 2. The record -/

/-- The fields of `AzadiSettings`, in the order of the data class. -/
inductive Field
  | egressRegion | upstreamProxyEnabled | upstreamProxyHost | upstreamProxyPort
  | upstreamProxyUseSystem | upstreamProxyUsername | upstreamProxyPassword | protocolSelection
  | conduitMode | conduitTimeoutSeconds | rejectCensoredCountryProxies | cdnFrontingCustomIpList
  | cdnFrontingCustomSni | cdnFrontingUseBuiltInScan | beastModeEnabled
  | smartFallbackChainEnabled | disableTimeouts | autoReconnect | connectOnLaunch
  | vpnOnDemandEnabled | vpnOnDemandMode | preferredLanguage | hasAcceptedConnectionDisclaimer
  | hasAcceptedVPNDisclosure | hasCompletedOnboarding | hasChosenLanguage
  | proxyOnlyModeEnabled | shareProxyOnLocalNetworkEnabled | lanHttpProxyPort
  | lanSocksProxyPort | lanProxyAuthEnabled | lanProxyUsername | lanProxyPassword
  | bypassIranIPsEnabled | bypassCustomRoutes | bypassDomains | bypassStrictModeEnabled
  | secureDNSMode | secureDNSProvider | customDoHURL | customDoTHost | blockCleartextDNS
deriving DecidableEq

/-- `loadInternal`: the key each field is read from, and how. -/
def Field.entry : Field → String × Kind
  | .egressRegion => ("egressRegionPreference", .string "")
  | .upstreamProxyEnabled => ("useProxySettingsPreference", .boolean false)
  | .upstreamProxyHost => ("useCustomProxySettingsHostPreference", .trimmed)
  | .upstreamProxyPort => ("useCustomProxySettingsPortPreference", .int 8080)
  | .upstreamProxyUseSystem => ("useSystemProxySettingsPreference", .boolean false)
  | .upstreamProxyUsername => ("useProxyUsernamePreference", .string "")
  | .upstreamProxyPassword => ("useProxyPasswordPreference", .string "")
  | .protocolSelection => ("protocolSelectionPreference", .nonEmpty "auto")
  | .conduitMode => ("conduitMode", .nonEmpty "public")
  | .conduitTimeoutSeconds => ("conduitTimeout", .int 180)
  | .rejectCensoredCountryProxies => ("rejectCensoredCountryProxiesPreference", .boolean true)
  | .cdnFrontingCustomIpList => ("cdnFrontingCustomIpListPreference", .string "")
  | .cdnFrontingCustomSni => ("cdnFrontingCustomSniPreference", .string "")
  | .cdnFrontingUseBuiltInScan => ("cdnFrontingUseBuiltInScanPreference", .boolean true)
  | .beastModeEnabled => ("beastModePreference", .boolean true)
  | .smartFallbackChainEnabled => ("smartFallbackChainPreference", .boolean true)
  | .disableTimeouts => ("disableTimeoutsPreference", .boolean false)
  | .autoReconnect => ("autoReconnectPreference", .boolean true)
  | .connectOnLaunch => ("connectOnLaunchPreference", .boolean false)
  | .vpnOnDemandEnabled => ("vpnOnDemandEnabledPreference", .boolean false)
  | .vpnOnDemandMode => ("vpnOnDemandModePreference", .nonEmpty "always")
  | .preferredLanguage => ("preferenceLanguageSelection", .nonEmpty "system")
  | .hasAcceptedConnectionDisclaimer =>
      ("hasAcceptedConnectionDisclaimerPreference", .boolean false)
  | .hasAcceptedVPNDisclosure => ("hasAcceptedVPNDisclosurePreference", .boolean false)
  | .hasCompletedOnboarding => ("hasCompletedOnboardingPreference", .boolean false)
  | .hasChosenLanguage => ("hasChosenLanguagePreference", .boolean false)
  | .proxyOnlyModeEnabled => ("proxyOnlyModePreference", .boolean false)
  | .shareProxyOnLocalNetworkEnabled => ("shareProxyOnNetworkPreference", .boolean false)
  | .lanHttpProxyPort => ("shareProxyOnNetworkHttpPortPreference", .int 8087)
  | .lanSocksProxyPort => ("shareProxyOnNetworkSocksPortPreference", .int 1088)
  | .lanProxyAuthEnabled => ("shareProxyOnNetworkAuthEnabledPreference", .boolean false)
  | .lanProxyUsername => ("shareProxyOnNetworkUsernamePreference", .string "")
  | .lanProxyPassword => ("shareProxyOnNetworkPasswordPreference", .string "")
  | .bypassIranIPsEnabled => ("bypassIranIPsPreference", .boolean false)
  | .bypassCustomRoutes => ("bypassCustomRoutesPreference", .string "")
  | .bypassDomains => ("bypassDomainsPreference", .string "")
  | .bypassStrictModeEnabled => ("bypassStrictModePreference", .boolean false)
  | .secureDNSMode => ("secureDNSModePreference", .nonEmpty "doh")
  | .secureDNSProvider => ("secureDNSProviderPreference", .nonEmpty "google")
  | .customDoHURL => ("customDoHURLPreference", .string "")
  | .customDoTHost => ("customDoTHostPreference", .string "")
  | .blockCleartextDNS => ("blockCleartextDNSPreference", .boolean false)

def Field.key (x : Field) : String := x.entry.1

def Field.kind (x : Field) : Kind := x.entry.2

def Field.Value (x : Field) : Type := x.kind.Value

instance (x : Field) : DecidableEq x.Value := inferInstanceAs (DecidableEq x.kind.Value)

/-- `AzadiSettings` -/
abbrev AzadiSettings := (x : Field) → x.Value

/-- `settings.copy(field = value)` -/
def AzadiSettings.copy (settings : AzadiSettings) (x : Field) (value : x.Value) : AzadiSettings :=
  Function.update settings x value

/-- What `save` puts for a field: its own key, and for four fields a second one. -/
def Field.puts : (x : Field) → x.Value → List (String × String)
  | .upstreamProxyUseSystem, useSystem =>
      [("useSystemProxySettingsPreference", ofBoolean useSystem),
        ("useCustomProxySettingsPreference", ofBoolean !useSystem)]
  | .upstreamProxyUsername, username =>
      [("useProxyAuthenticationPreference", ofBoolean !(username.isEmpty)),
        ("useProxyUsernamePreference", username)]
  | .preferredLanguage, language =>
      [("preferenceLanguageSelection", language), ("language_key", language)]
  | .hasAcceptedVPNDisclosure, accepted =>
      [("hasAcceptedVPNDisclosurePreference", ofBoolean accepted),
        ("vpnServiceDataCollectionDisclosureAccepted", ofBoolean accepted)]
  | x, value => [(x.key, x.kind.print value)]

/-- The keys of those puts. -/
def Field.keys : Field → List String
  | .upstreamProxyUseSystem =>
      ["useSystemProxySettingsPreference", "useCustomProxySettingsPreference"]
  | .upstreamProxyUsername => ["useProxyAuthenticationPreference", "useProxyUsernamePreference"]
  | .preferredLanguage => ["preferenceLanguageSelection", "language_key"]
  | .hasAcceptedVPNDisclosure =>
      ["hasAcceptedVPNDisclosurePreference", "vpnServiceDataCollectionDisclosureAccepted"]
  | x => [x.key]

/-- The order of `save`: the upstream proxy first (`saveUpstreamProxy`). -/
def saveOrder : List Field :=
  [.upstreamProxyEnabled, .upstreamProxyUseSystem, .upstreamProxyHost, .upstreamProxyPort,
    .upstreamProxyUsername, .upstreamProxyPassword, .egressRegion, .protocolSelection,
    .conduitMode, .conduitTimeoutSeconds, .rejectCensoredCountryProxies,
    .cdnFrontingCustomIpList, .cdnFrontingCustomSni, .cdnFrontingUseBuiltInScan,
    .beastModeEnabled, .smartFallbackChainEnabled, .disableTimeouts, .autoReconnect,
    .connectOnLaunch, .vpnOnDemandEnabled, .vpnOnDemandMode, .preferredLanguage,
    .hasAcceptedConnectionDisclaimer, .hasAcceptedVPNDisclosure, .hasCompletedOnboarding,
    .hasChosenLanguage, .proxyOnlyModeEnabled, .shareProxyOnLocalNetworkEnabled,
    .lanHttpProxyPort, .lanSocksProxyPort, .lanProxyAuthEnabled, .lanProxyUsername,
    .lanProxyPassword, .bypassIranIPsEnabled, .bypassCustomRoutes, .bypassDomains,
    .bypassStrictModeEnabled, .secureDNSMode, .secureDNSProvider, .customDoHURL,
    .customDoTHost, .blockCleartextDNS]

theorem Field.key_mem_keys (x : Field) : x.key ∈ x.keys := by
  cases x <;> decide

theorem Field.kind_fits (x : Field) : x.kind.Fits := by
  cases x <;> trivial

/-- How the settings lie in the preference store. -/
def layout : Layout Field Field.Value String String where
  order := saveOrder
  keys := Field.keys
  encode := Field.puts
  decode x p := x.kind.read (p x.key)
  mem_order x := by cases x <;> decide
  encode_keys x v := by cases x <;> rfl
  decode_congr x p q h := by rw [h x.key x.key_mem_keys]
  keys_nodup := by decide +kernel

/-! ## 3. Loading and saving -/

def loadInternal (p : Preferences) : AzadiSettings := layout.load p

def save (p : Preferences) (settings : AzadiSettings) : Preferences := layout.save p settings

/-- What a field reads as once it has been written. -/
theorem written_eq (x : Field) (v : x.Value) :
    layout.written x v = x.kind.read (some (x.kind.print v)) := by
  have hkey : putAll (fun _ => none) (x.puts v) x.key = some (x.kind.print v) := by
    cases x <;> rfl
  change x.kind.read (putAll (fun _ => none) (x.puts v) x.key) = _
  rw [hkey]

/-- A record that has just been loaded is current. -/
theorem current_loadInternal (p : Preferences) (changed : Field → Prop) :
    layout.Current p (loadInternal p) changed := by
  intro x _
  rw [written_eq]
  exact Kind.read_print_read x.kind_fits (p x.key)

/-- `migrateSecureDnsDefaults` finds the legacy pair. -/
def HasLegacySecureDns (p : Preferences) : Prop :=
  p.getString "secureDNSModePreference" "doh" = "off" ∧
    p.getString "secureDNSProviderPreference" "google" = "cloudflare"

instance (p : Preferences) : Decidable (HasLegacySecureDns p) := instDecidableAnd

/-- Upgrade legacy off/cloudflare defaults to DoH Google. -/
def migrateSecureDnsDefaults (p : Preferences) : Preferences :=
  if HasLegacySecureDns p then
    put (put p "secureDNSModePreference" "doh") "secureDNSProviderPreference" "google"
  else p

/-- Legacy VPN disclosure acceptance implies connection disclaimer on older installs. -/
def migrateLegalFlags (p : Preferences) : Preferences :=
  let disclaimer := p.getBoolean "hasAcceptedConnectionDisclaimerPreference" false
  let vpnDisclosure := p.getBoolean "hasAcceptedVPNDisclosurePreference" false
  if !disclaimer && p.getBoolean "vpnServiceDataCollectionDisclosureAccepted" false then
    put (put p "hasAcceptedConnectionDisclaimerPreference" (ofBoolean true))
      "hasAcceptedVPNDisclosurePreference" (ofBoolean true)
  else if disclaimer && !vpnDisclosure then
    put p "hasAcceptedVPNDisclosurePreference" (ofBoolean true)
  else p

/-- What `load` leaves in the store before it reads. -/
def migrated (p : Preferences) : Preferences := migrateLegalFlags (migrateSecureDnsDefaults p)

/-- `load` -/
def load (p : Preferences) : AzadiSettings := loadInternal (migrated p)

/-- The legal flags are in one of the two states `migrateLegalFlags` repairs. -/
def HasLegacyLegalFlags (p : Preferences) : Prop :=
  (p.getBoolean "hasAcceptedConnectionDisclaimerPreference" false = false ∧
      p.getBoolean "vpnServiceDataCollectionDisclosureAccepted" false = true) ∨
    (p.getBoolean "hasAcceptedConnectionDisclaimerPreference" false = true ∧
      p.getBoolean "hasAcceptedVPNDisclosurePreference" false = false)

instance (p : Preferences) : Decidable (HasLegacyLegalFlags p) := instDecidableOr

/-- `load` finds something to migrate. -/
def NeedsMigration (p : Preferences) : Prop := HasLegacySecureDns p ∨ HasLegacyLegalFlags p

instance (p : Preferences) : Decidable (NeedsMigration p) := instDecidableOr

theorem migrateLegalFlags_eq_self {p : Preferences} (h : ¬ HasLegacyLegalFlags p) :
    migrateLegalFlags p = p := by
  unfold migrateLegalFlags
  dsimp only
  split
  · rename_i hlegacy
    rw [Bool.and_eq_true, Bool.not_eq_true'] at hlegacy
    exact absurd (Or.inl hlegacy) h
  · split
    · rename_i hlegacy
      rw [Bool.and_eq_true, Bool.not_eq_true'] at hlegacy
      exact absurd (Or.inr hlegacy) h
    · rfl

/-- The legal flags are not the DNS mode. -/
theorem migrateLegalFlags_secureDNSMode (p : Preferences) :
    loadInternal (migrateLegalFlags p) .secureDNSMode = loadInternal p .secureDNSMode := by
  unfold migrateLegalFlags
  dsimp only
  split
  · rfl
  · split <;> rfl

theorem migrateLegalFlags_ne {p : Preferences} (h : HasLegacyLegalFlags p) :
    ∃ x, loadInternal (migrateLegalFlags p) x ≠ loadInternal p x := by
  rcases h with ⟨hdisclaimer, hlegacy⟩ | ⟨hdisclaimer, hvpn⟩
  · refine ⟨.hasAcceptedConnectionDisclaimer, ?_⟩
    have hbefore : loadInternal p .hasAcceptedConnectionDisclaimer = false := hdisclaimer
    have hafter : loadInternal (migrateLegalFlags p) .hasAcceptedConnectionDisclaimer = true := by
      rw [migrateLegalFlags]
      simp only [hdisclaimer, hlegacy]
      rfl
    rw [hbefore, hafter]
    exact Bool.noConfusion
  · refine ⟨.hasAcceptedVPNDisclosure, ?_⟩
    have hbefore : loadInternal p .hasAcceptedVPNDisclosure = false := hvpn
    have hafter : loadInternal (migrateLegalFlags p) .hasAcceptedVPNDisclosure = true := by
      rw [migrateLegalFlags]
      simp only [hdisclaimer, hvpn]
      rfl
    rw [hbefore, hafter]
    exact Bool.noConfusion

/-- **A load changes a setting exactly when it finds something to migrate.** -/
theorem load_eq_loadInternal_iff (p : Preferences) :
    (∀ x, load p x = loadInternal p x) ↔ ¬ NeedsMigration p := by
  rw [NeedsMigration, not_or]
  by_cases hdns : HasLegacySecureDns p
  · have hafter : load p .secureDNSMode = "doh" := by
      rw [load, migrated, migrateLegalFlags_secureDNSMode, migrateSecureDnsDefaults, if_pos hdns]
      rfl
    have hbefore : loadInternal p .secureDNSMode = "off" := by
      change (if p.getString "secureDNSModePreference" "doh" = "" then "doh" else
        p.getString "secureDNSModePreference" "doh") = "off"
      rw [hdns.1]
      rfl
    refine iff_of_false ?_ (fun h => h.1 hdns)
    intro h
    have hmode : ("doh" : String) = "off" :=
      hafter.symm.trans ((h .secureDNSMode).trans hbefore)
    exact absurd hmode (by decide)
  · have hmigrated : migrated p = migrateLegalFlags p := by
      rw [migrated, migrateSecureDnsDefaults, if_neg hdns]
    rw [and_iff_right hdns]
    constructor
    · intro h hlegal
      obtain ⟨x, hx⟩ := migrateLegalFlags_ne hlegal
      rw [← hmigrated] at hx
      exact hx (h x)
    · intro hlegal x
      rw [load, hmigrated, migrateLegalFlags_eq_self hlegal]

end ShiroKhorshid.Settings
