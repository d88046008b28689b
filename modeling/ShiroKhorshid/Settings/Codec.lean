/-
# The settings codec (`AzadiSettingsStore.save`, `load`)

What `save` prints, `loadInternal` reads back, whatever the store held before: that is a fact
about each KIND of setting and about the layout (`loadInternal_save`).  But the settings are
loaded by `load`, which migrates first, and a migration cannot tell an old installation from
what `save` has just written.  `load_save_iff` says which records that hits.

* **Printing and reading.**  A value that its kind can store is read back from what is printed for
  it (`Kind.read_print`): a number has to be an `int`, and some texts must not be empty or have
  blanks at their ends.  A record is `Storable` where each field is; every loaded record is.
* **Migrations after a save.**  The DNS migration asks for a provider and a mode that are the old
  defaults, and the consents' migration for two flags that differ; both are read off the record that
  was saved (`needsMigration_save_iff`).
* **A load is stable.**  What has been migrated needs no migration (`not_needsMigration_migrated`),
  so a second load returns what the first one did (`load_migrated`).

So the round trip is exact for every storable record (`load_save_iff`): it fails for the pair of DNS
settings that passes for an old default, even where the user has just chosen it, and for consents
that differ.

Records that are not storable, with an empty text where the reader puts in a default for instance,
are not claimed to come back.
-/
import ShiroKhorshid.Settings.Store

namespace ShiroKhorshid.Settings

open Jvm Service Record

/-! ## 1. Printing and reading -/

/-- The values of a Kotlin `Int`. -/
def IsInt (n : ℤ) : Prop := -2 ^ 31 ≤ n ∧ n < 2 ^ 31

/-- The values of a kind that are their own stored form: an `Int` is in range, a string that is
read with `ifEmpty` is not empty, and one that is read with `trim` has no space around it. -/
def Kind.Storable : (k : Kind) → k.Value → Prop
  | .boolean _, _ => True
  | .int _, n => IsInt n
  | .string _, _ => True
  | .nonEmpty _, s => s ≠ ""
  | .trimmed, s => javaTrim s = s

theorem parseBoolean_ofBoolean (b : Bool) : parseBoolean (ofBoolean b) = b := by
  cases b <;> decide

theorem parseInt_print {n : ℤ} (h : IsInt n) (default : ℤ) :
    (parseInt (toString n)).getD default = n := by
  rw [parseInt_toString_int h.1 h.2]
  rfl

theorem Kind.read_print {k : Kind} {v : k.Value} (h : k.Storable v) :
    k.read (some (k.print v)) = v := by
  cases k with
  | boolean default => exact parseBoolean_ofBoolean v
  | int default => exact parseInt_print h default
  | string default => rfl
  | nonEmpty default => exact if_neg h
  | trimmed => exact h

theorem isInt_parseInt {default : ℤ} (h : IsInt default) (s : String) :
    IsInt ((parseInt s).getD default) := by
  cases hp : parseInt s with
  | none => exact h
  | some n => exact parseInt_range hp

theorem ifEmpty_ne_empty {default : String} (h : default ≠ "") (s : String) :
    (if s = "" then default else s) ≠ "" := by
  split
  · exact h
  · assumption

/-- What has been read is storable, when the default is. -/
theorem Kind.storable_read {k : Kind} (h : k.Fits) (hdefault : ∀ d, k = .nonEmpty d → d ≠ "")
    (stored : Option String) : k.Storable (k.read stored) := by
  cases k with
  | boolean default => trivial
  | int default => exact isInt_parseInt h _
  | string default => trivial
  | nonEmpty default => exact ifEmpty_ne_empty (hdefault default rfl) _
  | trimmed => exact trimChars_idem _ _

/-! ## 2. Records -/

/-- The record has non-empty enumeration-like strings, no space around the proxy host, and
numbers that are `Int`s. -/
def AzadiSettings.Storable (settings : AzadiSettings) : Prop :=
  ∀ x : Field, x.kind.Storable (settings x)

/-- **`loadInternal` reads back what `save` wrote**, whatever the store held before. -/
theorem loadInternal_save {settings : AzadiSettings} (h : settings.Storable) (p : Preferences) :
    ∀ x, loadInternal (save p settings) x = settings x := by
  intro x
  have hload : loadInternal (save p settings) x = layout.written x (settings x) :=
    layout.load_save p settings x
  rw [hload, written_eq]
  exact Kind.read_print (h x)

theorem storable_loadInternal (p : Preferences) : (loadInternal p).Storable := by
  intro x
  refine Kind.storable_read x.kind_fits ?_ (p x.key)
  cases x <;> simp [Field.kind, Field.entry]

/-! ## 3. Migrations after a save -/

/-- The pair that `migrateSecureDnsDefaults` takes for an old default. -/
def AzadiSettings.LegacySecureDns (settings : AzadiSettings) : Prop :=
  @Eq String (settings .secureDNSMode) "off" ∧
    @Eq String (settings .secureDNSProvider) "cloudflare"

/-- The two consents have been given together, or neither. -/
def AzadiSettings.ConsentsAgree (settings : AzadiSettings) : Prop :=
  @Eq Bool (settings .hasAcceptedConnectionDisclaimer) (settings .hasAcceptedVPNDisclosure)

instance (settings : AzadiSettings) : Decidable settings.LegacySecureDns :=
  @instDecidableAnd _ _ (instDecidableEqString _ _) (instDecidableEqString _ _)

instance (settings : AzadiSettings) : Decidable settings.ConsentsAgree :=
  instDecidableEqBool _ _

theorem getString_of_eq_some {p : Preferences} {key s : String} (h : p key = some s)
    (default : String) : p.getString key default = s := by
  rw [Preferences.getString, h]
  rfl

theorem getBoolean_of_eq_some {p : Preferences} {key : String} {b : Bool}
    (h : p key = some (ofBoolean b)) (default : Bool) : p.getBoolean key default = b := by
  rw [Preferences.getBoolean, h]
  exact parseBoolean_ofBoolean b

theorem hasLegacySecureDns_save_iff (p : Preferences) (settings : AzadiSettings) :
    HasLegacySecureDns (save p settings) ↔ settings.LegacySecureDns := by
  have hmode : save p settings "secureDNSModePreference" = some (settings .secureDNSMode) :=
    @Layout.save_apply _ _ _ _ _ layout .secureDNSMode _ (by decide) p settings
  have hprovider :
      save p settings "secureDNSProviderPreference" = some (settings .secureDNSProvider) :=
    @Layout.save_apply _ _ _ _ _ layout .secureDNSProvider _ (by decide) p settings
  rw [HasLegacySecureDns, getString_of_eq_some hmode, getString_of_eq_some hprovider]
  rfl

/-- `save` puts the VPN disclosure under the legacy key too, so that disagreeing consents look
like an old installation. -/
theorem hasLegacyLegalFlags_save_iff (p : Preferences) (settings : AzadiSettings) :
    HasLegacyLegalFlags (save p settings) ↔ ¬ settings.ConsentsAgree := by
  have hdisclaimer : save p settings "hasAcceptedConnectionDisclaimerPreference"
      = some (ofBoolean (settings .hasAcceptedConnectionDisclaimer)) :=
    @Layout.save_apply _ _ _ _ _ layout .hasAcceptedConnectionDisclaimer _ (by decide) p settings
  have hvpn : save p settings "hasAcceptedVPNDisclosurePreference"
      = some (ofBoolean (settings .hasAcceptedVPNDisclosure)) :=
    @Layout.save_apply _ _ _ _ _ layout .hasAcceptedVPNDisclosure _ (by decide) p settings
  have hlegacy : save p settings "vpnServiceDataCollectionDisclosureAccepted"
      = some (ofBoolean (settings .hasAcceptedVPNDisclosure)) :=
    @Layout.save_apply _ _ _ _ _ layout .hasAcceptedVPNDisclosure _ (by decide) p settings
  rw [HasLegacyLegalFlags, getBoolean_of_eq_some hdisclaimer, getBoolean_of_eq_some hvpn,
    getBoolean_of_eq_some hlegacy, AzadiSettings.ConsentsAgree]
  generalize settings .hasAcceptedConnectionDisclaimer = disclaimer
  generalize settings .hasAcceptedVPNDisclosure = vpn
  change Bool at disclaimer vpn
  cases disclaimer <;> cases vpn <;> simp

theorem needsMigration_save_iff (p : Preferences) (settings : AzadiSettings) :
    NeedsMigration (save p settings) ↔ settings.LegacySecureDns ∨ ¬ settings.ConsentsAgree :=
  or_congr (hasLegacySecureDns_save_iff p settings) (hasLegacyLegalFlags_save_iff p settings)

/-! ## 4. What a load returns -/

theorem migrateSecureDnsDefaults_other {p : Preferences} {key : String}
    (hmode : key ≠ "secureDNSModePreference") (hprovider : key ≠ "secureDNSProviderPreference") :
    migrateSecureDnsDefaults p key = p key := by
  unfold migrateSecureDnsDefaults
  split
  · rw [put_other _ _ hprovider, put_other _ _ hmode]
  · rfl

theorem migrateLegalFlags_other {p : Preferences} {key : String}
    (hdisclaimer : key ≠ "hasAcceptedConnectionDisclaimerPreference")
    (hvpn : key ≠ "hasAcceptedVPNDisclosurePreference") : migrateLegalFlags p key = p key := by
  simp only [migrateLegalFlags]
  split
  · rw [put_other _ _ hvpn, put_other _ _ hdisclaimer]
  · split
    · rw [put_other _ _ hvpn]
    · rfl

/-- The keys a migration rewrites. -/
def migratedKeys : List String :=
  ["secureDNSModePreference", "secureDNSProviderPreference",
    "hasAcceptedConnectionDisclaimerPreference", "hasAcceptedVPNDisclosurePreference"]

theorem migrated_other {p : Preferences} {key : String} (h : key ∉ migratedKeys) :
    migrated p key = p key := by
  simp only [migratedKeys, List.mem_cons, List.not_mem_nil, or_false, not_or] at h
  rw [migrated, migrateLegalFlags_other h.2.2.1 h.2.2.2, migrateSecureDnsDefaults_other h.1 h.2.1]

/-- A field that no migration rewrites is loaded as it is stored. -/
theorem load_eq_loadInternal {x : Field} (h : x.key ∉ migratedKeys) (p : Preferences) :
    load p x = loadInternal p x := by
  change x.kind.read (migrated p x.key) = x.kind.read (p x.key)
  rw [migrated_other h]

theorem not_hasLegacySecureDns_migrateSecureDnsDefaults (p : Preferences) :
    ¬ HasLegacySecureDns (migrateSecureDnsDefaults p) := by
  unfold migrateSecureDnsDefaults
  split
  · rintro ⟨hmode, -⟩
    have hdoh : ("doh" : String) = "off" := hmode
    exact absurd hdoh (by decide)
  · assumption

theorem hasLegacySecureDns_congr {p q : Preferences}
    (hmode : p "secureDNSModePreference" = q "secureDNSModePreference")
    (hprovider : p "secureDNSProviderPreference" = q "secureDNSProviderPreference") :
    HasLegacySecureDns p ↔ HasLegacySecureDns q := by
  simp only [HasLegacySecureDns, Preferences.getString, hmode, hprovider]

theorem not_hasLegacyLegalFlags_migrateLegalFlags (p : Preferences) :
    ¬ HasLegacyLegalFlags (migrateLegalFlags p) := by
  by_cases h : HasLegacyLegalFlags p
  · rcases h with ⟨hdisclaimer, hlegacy⟩ | ⟨hdisclaimer, hvpn⟩
    · have hafter : migrateLegalFlags p
          = put (put p "hasAcceptedConnectionDisclaimerPreference" (ofBoolean true))
              "hasAcceptedVPNDisclosurePreference" (ofBoolean true) := by
        simp [migrateLegalFlags, hdisclaimer, hlegacy]
      rw [hafter]
      rintro (⟨hfalse, -⟩ | ⟨-, hfalse⟩)
      · exact Bool.noConfusion hfalse
      · exact Bool.noConfusion hfalse
    · have hafter : migrateLegalFlags p
          = put p "hasAcceptedVPNDisclosurePreference" (ofBoolean true) := by
        simp [migrateLegalFlags, hdisclaimer, hvpn]
      have hstill : Preferences.getBoolean
          (put p "hasAcceptedVPNDisclosurePreference" (ofBoolean true))
          "hasAcceptedConnectionDisclaimerPreference" false = true := hdisclaimer
      rw [hafter]
      rintro (⟨hfalse, -⟩ | ⟨-, hfalse⟩)
      · exact Bool.noConfusion (hstill.symm.trans hfalse)
      · exact Bool.noConfusion hfalse
  · rwa [migrateLegalFlags_eq_self h]

/-- A load leaves nothing to migrate behind. -/
theorem not_needsMigration_migrated (p : Preferences) : ¬ NeedsMigration (migrated p) := by
  rw [NeedsMigration, not_or]
  refine ⟨?_, not_hasLegacyLegalFlags_migrateLegalFlags _⟩
  have hsame : HasLegacySecureDns (migrated p) ↔ HasLegacySecureDns (migrateSecureDnsDefaults p) :=
    hasLegacySecureDns_congr (migrateLegalFlags_other (by decide) (by decide))
      (migrateLegalFlags_other (by decide) (by decide))
  rw [hsame]
  exact not_hasLegacySecureDns_migrateSecureDnsDefaults p

/-- Loading twice is loading once. -/
theorem load_migrated (p : Preferences) : ∀ x, load (migrated p) x = load p x :=
  (load_eq_loadInternal_iff (migrated p)).mpr (not_needsMigration_migrated p)

theorem legacySecureDns_loadInternal_iff (p : Preferences) :
    (loadInternal p).LegacySecureDns ↔ HasLegacySecureDns p := by
  have hread : ∀ s default word : String, word ≠ default → word ≠ "" →
      ((if s = "" then default else s) = word ↔ s = word) := by
    intro s default word hdefault hempty
    by_cases hs : s = ""
    · rw [if_pos hs, hs]
      exact iff_of_false hdefault.symm hempty.symm
    · rw [if_neg hs]
  exact and_congr (hread _ "doh" "off" (by decide) (by decide))
    (hread _ "google" "cloudflare" (by decide) (by decide))

theorem storable_load (p : Preferences) : (load p).Storable := storable_loadInternal _

/-- What has been loaded is no longer the pair that passes for an old default. -/
theorem not_legacySecureDns_load (p : Preferences) : ¬ (load p).LegacySecureDns := by
  rw [load, legacySecureDns_loadInternal_iff]
  exact fun h => not_needsMigration_migrated p (Or.inl h)

/-! ## 5. The round trip -/

/-- A saved record is loaded back as it was unless the load finds something to migrate. -/
theorem load_save_iff_not_needsMigration {settings : AzadiSettings} (h : settings.Storable)
    (p : Preferences) :
    (∀ x, load (save p settings) x = settings x) ↔ ¬ NeedsMigration (save p settings) := by
  rw [← load_eq_loadInternal_iff]
  refine forall_congr' ?_
  intro x
  rw [loadInternal_save h p x]

/-- **The codec round trip, exactly.**  A record is loaded back as it was saved if and only if it
is not the pair that passes for an old DNS default and its two consents agree. -/
theorem load_save_iff {settings : AzadiSettings} (h : settings.Storable) (p : Preferences) :
    (∀ x, load (save p settings) x = settings x) ↔
      ¬ settings.LegacySecureDns ∧ settings.ConsentsAgree := by
  rw [load_save_iff_not_needsMigration h, needsMigration_save_iff, not_or, not_not]

/-- The settings of a new installation. -/
def defaults : AzadiSettings := loadInternal fun _ => none

theorem load_save_defaults :
    defaults.Storable ∧ ∀ x, load (save (fun _ => none) defaults) x = defaults x :=
  ⟨storable_loadInternal _, (load_save_iff (storable_loadInternal _) _).mpr (by decide)⟩

theorem AzadiSettings.Storable.copy {settings : AzadiSettings} (h : settings.Storable) {x : Field}
    {v : x.Value} (hv : x.kind.Storable v) : (settings.copy x v).Storable := by
  intro y
  by_cases hy : y = x
  · subst hy
    have hcopy : settings.copy y v y = v := Function.update_self y v settings
    rwa [hcopy]
  · have hcopy : settings.copy x v y = settings y := Function.update_of_ne hy v settings
    rw [hcopy]
    exact h y

/-- Secure DNS turned off while its provider is Cloudflare. -/
def dnsOff : AzadiSettings :=
  (defaults.copy .secureDNSProvider "cloudflare").copy .secureDNSMode "off"

/-- The next load has turned it on again, with another provider. -/
theorem dnsOff_not_read_back :
    dnsOff.Storable ∧ ¬ (∀ x, load (save (fun _ => none) dnsOff) x = dnsOff x) ∧
      load (save (fun _ => none) dnsOff) .secureDNSMode = ("doh" : String) := by
  have hprovider : (defaults.copy .secureDNSProvider "cloudflare").Storable :=
    (storable_loadInternal _).copy (show ("cloudflare" : String) ≠ "" by decide)
  have hstorable : dnsOff.Storable :=
    hprovider.copy (show ("off" : String) ≠ "" by decide)
  have hmode : load (save (fun _ => none) dnsOff) .secureDNSMode = ("doh" : String) := rfl
  refine ⟨hstorable, ?_, hmode⟩
  intro h
  have hoff : ("doh" : String) = "off" := hmode.symm.trans (h .secureDNSMode)
  exact absurd hoff (by decide)

end ShiroKhorshid.Settings
