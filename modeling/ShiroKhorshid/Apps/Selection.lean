/-
# Rules and the user's selection

An app that the user has selected is passed to the Builder unless a rule says otherwise.  Whether a
rule says otherwise is asked twice and not in the same way: the selection is filtered by
`matchesAnyVpnRule`, which looks at versions alone, and the managed apps are added by
`shouldAlwaysExcludeFromVpn` and `shouldAlwaysIncludeInVpn`, which look at the signature as well.
An app that a rule matches but that is not trusted is in neither part.

The filtered selection is also what is written back.  The loop removes apps that the Builder does
not find, and when it has removed one the apps that were filtered out are gone from the preferences
too.  `selection_kept_iff` says when none of this happens.

* **The calls**: a selected app that no rule matches is passed in either mode
  (`passed_allowed_iff`, `passed_disallowed_iff`); one that a rule matches is passed or kept out
  only where the rule is acted on (`free_or_matches`, `included_passed_iff`, `excluded_passed_iff`).
* **The preferences**: what is left of a list after a build is computed exactly, so that whether an
  app other than those that are gone was removed is a question about the list
  (`onlyGoneRemoved_left_iff`).
* **Both** are asked of every selected app; the condition is about the device, the rules and the
  stored selection (`RulesVerified`).

It is about one build; the next one starts from the preferences this one leaves.
-/
import ShiroKhorshid.Apps.Builder

namespace ShiroKhorshid.Apps

namespace Device

variable (d : Device)

/-! ## 1. What is asked of the Builder's calls and of the preferences -/

/-- Some rule matches the installed version. -/
def Matches (packageId : String) : Prop := d.Excludes packageId ∨ d.Includes packageId

/-- Android says that there is no such package: the lookup or the Builder throws. -/
def Gone (packageId : String) : Prop :=
  d.getPackageInfo packageId = none ∨ d.builderFinds packageId = false

/-- A package is passed to one of the two routines. -/
def Passed (list : AppList) (calls : List AddCall) (packageId : String) : Prop :=
  ∃ c ∈ calls, c.list = list ∧ c.packageId = packageId

/-- A selection is rewritten by removing packages that are gone, and in no other way. -/
def OnlyGoneRemoved (stored rewritten : List String) : Prop :=
  (∀ packageId ∈ rewritten, packageId ∈ stored) ∧
    ∀ packageId ∈ stored, packageId ∉ rewritten → d.Gone packageId

/-- Only verified rules override the selection. -/
structure SelectionKept (prefs : AppPrefs) (built : Built) : Prop where
  included : d.getVpnAppsExclusionMode prefs = .INCLUDE_APPS →
    ∀ packageId ∈ prefs.includedApps, d.isPackageInstalled packageId = true →
      ¬ (d.Excludes packageId ∧ d.Trusted packageId) → Passed .allowed built.calls packageId
  excluded : d.getVpnAppsExclusionMode prefs = .EXCLUDE_APPS →
    ∀ packageId ∈ prefs.excludedApps, packageId ≠ d.packageName →
      d.isPackageInstalled packageId = true →
        ¬ (d.Includes packageId ∧ d.Trusted packageId) → Passed .disallowed built.calls packageId
  switches : built.prefs.excludeAppsFromVpn = prefs.excludeAppsFromVpn ∧
    built.prefs.includeAppsInVpn = prefs.includeAppsInVpn
  includedStored : d.OnlyGoneRemoved prefs.includedApps built.prefs.includedApps
  excludedStored : d.OnlyGoneRemoved prefs.excludedApps built.prefs.excludedApps

/-! ## 2. When it holds -/

/-- An installed app that no rule matches. -/
def Free (packageId : String) : Prop :=
  d.isPackageInstalled packageId = true ∧ ¬ d.Matches packageId

/-- Each selected app that rules match is one that rules are acted on for. -/
structure RulesVerified (prefs : AppPrefs) : Prop where
  /-- An app to include is excluded for good, or it is included for good (the client always is)
  and some other selected app makes the Builder keep an allow list. -/
  included : d.getVpnAppsExclusionMode prefs = .INCLUDE_APPS →
    ∀ packageId ∈ prefs.includedApps, d.Matches packageId →
      (d.Excludes packageId ∧ d.Trusted packageId) ∨
        ((∃ other ∈ prefs.includedApps, d.Free other ∧ d.builderFinds other = true) ∧
          (packageId = d.packageName ∨ d.Includes packageId ∧ d.Trusted packageId))
  excluded : d.getVpnAppsExclusionMode prefs = .EXCLUDE_APPS →
    ∀ packageId ∈ prefs.excludedApps, packageId ≠ d.packageName → d.Matches packageId →
      d.Trusted packageId
  /-- A selected app that the Builder does not find has the selection written back. -/
  includedStored : d.getVpnAppsExclusionMode prefs = .INCLUDE_APPS →
    (∃ other ∈ prefs.includedApps, d.Free other ∧ d.builderFinds other = false) →
      ∀ packageId ∈ prefs.includedApps, d.builderFinds packageId = true → ¬ d.Matches packageId
  excludedStored : d.getVpnAppsExclusionMode prefs = .EXCLUDE_APPS →
    (∃ other ∈ prefs.excludedApps,
      other ≠ d.packageName ∧ d.Free other ∧ d.builderFinds other = false) →
      ∀ packageId ∈ prefs.excludedApps, d.isPackageInstalled packageId = true →
        d.builderFinds packageId = true → packageId ≠ d.packageName ∧ ¬ d.Matches packageId

/-! ## 3. The calls -/

theorem Matches.installed {d : Device} {packageId : String} (h : d.Matches packageId) :
    d.isPackageInstalled packageId = true := by
  rcases h with ⟨info, hinfo, -⟩ | ⟨info, hinfo, -⟩
  · rw [isPackageInstalled, hinfo]
    rfl
  · rw [isPackageInstalled, hinfo]
    rfl

theorem mem_userControllable {userApps : List String} {packageId : String} :
    packageId ∈ d.userControllable userApps ↔ packageId ∈ userApps ∧ d.Free packageId := by
  rw [userControllable, List.mem_filter, Free, Matches, Excludes, Includes, isPackageInstalled]
  cases d.getPackageInfo packageId with
  | none => simp
  | some info => simp [matchesAnyVpnRule]

theorem mem_left {userApps : List String} {packageId : String} :
    packageId ∈ d.left userApps ↔
      packageId ∈ userApps ∧ d.Free packageId ∧ d.builderFinds packageId = true := by
  rw [left, List.mem_filter, mem_userControllable, and_assoc]

theorem left_ne_nil_iff {userApps : List String} :
    d.left userApps ≠ [] ↔
      ∃ other ∈ userApps, d.Free other ∧ d.builderFinds other = true := by
  simp only [Ne, List.eq_nil_iff_forall_not_mem, not_forall, not_not, mem_left]

theorem left_ne_userControllable_iff {userApps : List String} :
    d.left userApps ≠ d.userControllable userApps ↔
      ∃ other ∈ userApps, d.Free other ∧ d.builderFinds other = false := by
  rw [Ne, left, List.filter_eq_self]
  simp only [mem_userControllable, not_forall, Bool.not_eq_true, exists_prop, and_assoc]

theorem mem_exclusions {packageId : String} :
    packageId ∈ d.exclusions ↔ d.Excludes packageId ∧ d.Trusted packageId := by
  rw [exclusions, List.mem_filter, shouldAlwaysExcludeFromVpn_iff]
  exact and_iff_right_of_imp fun h => h.1.mem_managed

theorem mem_inclusions {packageId : String} :
    packageId ∈ d.inclusions ↔ d.Includes packageId ∧ d.Trusted packageId := by
  rw [inclusions, List.mem_filter, shouldAlwaysIncludeInVpn_iff]
  exact and_iff_right_of_imp fun h => h.1.mem_managed

theorem mem_getUserAppsExcludedFromVpn {prefs : AppPrefs} {packageId : String} :
    packageId ∈ d.getUserAppsExcludedFromVpn prefs ↔
      packageId ∈ prefs.excludedApps ∧ packageId ≠ d.packageName := by
  rw [getUserAppsExcludedFromVpn, List.mem_filter, decide_eq_true_iff]

theorem passed_map_call {list : AppList} {packages : List String} {packageId : String} :
    Passed list (packages.map (d.call list)) packageId ↔ packageId ∈ packages := by
  constructor
  · rintro ⟨c, hc, -, rfl⟩
    obtain ⟨p, hp, rfl⟩ := List.mem_map.mp hc
    exact hp
  · intro hp
    exact ⟨_, List.mem_map_of_mem hp, rfl, rfl⟩

theorem not_passed_map_call {list list' : AppList} (hne : list' ≠ list) {packages : List String}
    {packageId : String} : ¬ Passed list (packages.map (d.call list')) packageId := by
  rintro ⟨c, hc, hlist, -⟩
  obtain ⟨p, -, rfl⟩ := List.mem_map.mp hc
  exact hne hlist

theorem passed_append {list : AppList} {calls calls' : List AddCall} {packageId : String} :
    Passed list (calls ++ calls') packageId ↔
      Passed list calls packageId ∨ Passed list calls' packageId := by
  simp [Passed, or_and_right, exists_or]

theorem supports_of_mode (prefs : AppPrefs) (h : d.getVpnAppsExclusionMode prefs ≠ .ALL_APPS) :
    21 ≤ d.sdkInt := by
  by_contra hold
  have hsupports : supportsVpnExclusions d.sdkInt = false := decide_eq_false hold
  rw [getVpnAppsExclusionMode, hsupports] at h
  exact h rfl

theorem passed_allowed_iff {prefs : AppPrefs} (before : Recorded)
    (hmode : d.getVpnAppsExclusionMode prefs = .INCLUDE_APPS) (packageId : String) :
    Passed .allowed (d.vpnServiceBuilder prefs before).calls packageId ↔
      (packageId ∈ prefs.includedApps ∧ d.Free packageId) ∨
        (d.left prefs.includedApps ≠ [] ∧
          (packageId = d.packageName ∨ d.Includes packageId ∧ d.Trusted packageId)) := by
  have hsdk : 21 ≤ d.sdkInt := d.supports_of_mode prefs (by simp [hmode])
  rw [(d.vpnServiceBuilder_spec prefs before hsdk).1, passed_append, passed_map_call,
    or_iff_left (d.not_passed_map_call (by decide)), allowedPasses, hmode]
  by_cases hleft : d.left prefs.includedApps = []
  · simp [hleft, mem_userControllable]
  · simp [hleft, mem_userControllable, mem_inclusions, or_comm]

theorem passed_disallowed_iff {prefs : AppPrefs} (before : Recorded)
    (hmode : d.getVpnAppsExclusionMode prefs = .EXCLUDE_APPS) (packageId : String) :
    Passed .disallowed (d.vpnServiceBuilder prefs before).calls packageId ↔
      (packageId ∈ prefs.excludedApps ∧ packageId ≠ d.packageName ∧ d.Free packageId) ∨
        (d.Excludes packageId ∧ d.Trusted packageId) := by
  have hsdk : 21 ≤ d.sdkInt := d.supports_of_mode prefs (by simp [hmode])
  rw [(d.vpnServiceBuilder_spec prefs before hsdk).1, passed_append, passed_map_call,
    or_iff_right (d.not_passed_map_call (by decide)), disallowedPasses, hmode]
  simp [getUserControllableAppsExcludedFromVpn, mem_userControllable, mem_exclusions,
    mem_getUserAppsExcludedFromVpn, and_assoc]

/-! ## 4. The preferences -/

theorem OnlyGoneRemoved.refl (stored : List String) : d.OnlyGoneRemoved stored stored :=
  ⟨fun _ hp => hp, fun _ hp hnot => absurd hp hnot⟩

/-- A selection is kept as it is, or the apps that are left of it are stored. -/
theorem onlyGoneRemoved_left_iff {stored userApps : List String}
    (hsub : ∀ packageId ∈ userApps, packageId ∈ stored) :
    d.OnlyGoneRemoved stored (d.left userApps) ↔
      ∀ packageId ∈ stored, d.isPackageInstalled packageId = true →
        d.builderFinds packageId = true → packageId ∈ userApps ∧ ¬ d.Matches packageId := by
  constructor
  · rintro ⟨-, hgone⟩ p hp hinstalled hfinds
    by_cases hleft : p ∈ d.left userApps
    · obtain ⟨huser, hfree, -⟩ := d.mem_left.mp hleft
      exact ⟨huser, hfree.2⟩
    · exfalso
      rcases hgone p hp hleft with hnone | hlost
      · rw [isPackageInstalled, hnone] at hinstalled
        cases hinstalled
      · rw [hlost] at hfinds
        cases hfinds
  · intro h
    refine ⟨fun p hp => hsub p (d.mem_left.mp hp).1, fun p hp hnot => ?_⟩
    by_contra hstays
    simp only [Gone, not_or, Bool.not_eq_false] at hstays
    obtain ⟨hsome, hfinds⟩ := hstays
    have hinstalled : d.isPackageInstalled p = true := Option.isSome_iff_ne_none.mpr hsome
    obtain ⟨huser, hfree⟩ := h p hp hinstalled hfinds
    exact hnot (d.mem_left.mpr ⟨huser, ⟨hinstalled, hfree⟩, hfinds⟩)

theorem onlyGoneRemoved_included_iff {prefs : AppPrefs}
    (hmode : d.getVpnAppsExclusionMode prefs = .INCLUDE_APPS) :
    d.OnlyGoneRemoved prefs.includedApps (d.prefsLeft prefs).includedApps ↔
      ((∃ other ∈ prefs.includedApps, d.Free other ∧ d.builderFinds other = false) →
        ∀ packageId ∈ prefs.includedApps, d.builderFinds packageId = true →
          ¬ d.Matches packageId) := by
  rw [prefsLeft, hmode, ← left_ne_userControllable_iff]
  by_cases hkept : d.left prefs.includedApps = d.userControllable prefs.includedApps
  · simp [hkept, OnlyGoneRemoved.refl]
  · simp only [hkept, if_false, ne_eq, not_false_eq_true, true_imp_iff]
    rw [d.onlyGoneRemoved_left_iff fun _ hp => hp]
    constructor
    · intro h p hp hfinds hmatch
      exact (h p hp hmatch.installed hfinds).2 hmatch
    · intro h p hp _ hfinds
      exact ⟨hp, h p hp hfinds⟩

theorem onlyGoneRemoved_excluded_iff {prefs : AppPrefs}
    (hmode : d.getVpnAppsExclusionMode prefs = .EXCLUDE_APPS) :
    d.OnlyGoneRemoved prefs.excludedApps (d.prefsLeft prefs).excludedApps ↔
      ((∃ other ∈ prefs.excludedApps,
        other ≠ d.packageName ∧ d.Free other ∧ d.builderFinds other = false) →
        ∀ packageId ∈ prefs.excludedApps, d.isPackageInstalled packageId = true →
          d.builderFinds packageId = true →
            packageId ≠ d.packageName ∧ ¬ d.Matches packageId) := by
  have hsub : ∀ p ∈ d.getUserAppsExcludedFromVpn prefs, p ∈ prefs.excludedApps :=
    fun p hp => (d.mem_getUserAppsExcludedFromVpn.mp hp).1
  have hlost := @left_ne_userControllable_iff d (d.getUserAppsExcludedFromVpn prefs)
  simp only [mem_getUserAppsExcludedFromVpn, and_assoc] at hlost
  rw [prefsLeft, hmode, ← hlost, getUserControllableAppsExcludedFromVpn]
  by_cases hkept : d.left (d.getUserAppsExcludedFromVpn prefs) =
      d.userControllable (d.getUserAppsExcludedFromVpn prefs)
  · simp [hkept, OnlyGoneRemoved.refl]
  · simp only [hkept, if_false, ne_eq, not_false_eq_true, true_imp_iff]
    rw [d.onlyGoneRemoved_left_iff hsub]
    simp only [mem_getUserAppsExcludedFromVpn]
    constructor
    · intro h p hp hinstalled hfinds
      have hp' := h p hp hinstalled hfinds
      exact ⟨hp'.1.2, hp'.2⟩
    · intro h p hp hinstalled hfinds
      have hp' := h p hp hinstalled hfinds
      exact ⟨⟨hp, hp'.1⟩, hp'.2⟩

theorem vpnServiceBuilder_prefs (prefs : AppPrefs) (before : Recorded) :
    (d.vpnServiceBuilder prefs before).prefs = d.prefsLeft prefs := by
  by_cases hsdk : 21 ≤ d.sdkInt
  · exact (d.vpnServiceBuilder_spec prefs before hsdk).2.2.2
  · have hall : d.getVpnAppsExclusionMode prefs = .ALL_APPS := by
      by_contra hmode
      exact hsdk (d.supports_of_mode prefs hmode)
    rw [d.vpnServiceBuilder_old prefs before (not_le.mp hsdk), prefsLeft, hall]

theorem prefsLeft_switches (prefs : AppPrefs) :
    (d.prefsLeft prefs).excludeAppsFromVpn = prefs.excludeAppsFromVpn ∧
      (d.prefsLeft prefs).includeAppsInVpn = prefs.includeAppsInVpn := by
  unfold prefsLeft
  split
  · split <;> exact ⟨rfl, rfl⟩
  · split <;> exact ⟨rfl, rfl⟩
  · exact ⟨rfl, rfl⟩

theorem prefsLeft_includedApps {prefs : AppPrefs}
    (hmode : d.getVpnAppsExclusionMode prefs ≠ .INCLUDE_APPS) :
    (d.prefsLeft prefs).includedApps = prefs.includedApps := by
  unfold prefsLeft
  split
  · contradiction
  · split <;> rfl
  · rfl

theorem prefsLeft_excludedApps {prefs : AppPrefs}
    (hmode : d.getVpnAppsExclusionMode prefs ≠ .EXCLUDE_APPS) :
    (d.prefsLeft prefs).excludedApps = prefs.excludedApps := by
  unfold prefsLeft
  split
  · split <;> rfl
  · contradiction
  · rfl

/-! ## 5. Both together -/

theorem free_or_matches {packageId : String} (h : d.isPackageInstalled packageId = true) :
    d.Free packageId ∨ d.Matches packageId := by
  by_cases hmatch : d.Matches packageId
  · exact Or.inr hmatch
  · exact Or.inl ⟨h, hmatch⟩

theorem included_passed_iff {prefs : AppPrefs} (before : Recorded)
    (hmode : d.getVpnAppsExclusionMode prefs = .INCLUDE_APPS) :
    (∀ packageId ∈ prefs.includedApps, d.isPackageInstalled packageId = true →
      ¬ (d.Excludes packageId ∧ d.Trusted packageId) →
        Passed .allowed (d.vpnServiceBuilder prefs before).calls packageId) ↔
      ∀ packageId ∈ prefs.includedApps, d.Matches packageId →
        (d.Excludes packageId ∧ d.Trusted packageId) ∨
          ((∃ other ∈ prefs.includedApps, d.Free other ∧ d.builderFinds other = true) ∧
            (packageId = d.packageName ∨ d.Includes packageId ∧ d.Trusted packageId)) := by
  simp only [d.passed_allowed_iff before hmode, left_ne_nil_iff]
  constructor
  · intro h p hp hmatch
    by_cases hexcluded : d.Excludes p ∧ d.Trusted p
    · exact Or.inl hexcluded
    · rcases h p hp hmatch.installed hexcluded with ⟨-, hfree⟩ | hmanaged
      · exact absurd hmatch hfree.2
      · exact Or.inr hmanaged
  · intro h p hp hinstalled hnot
    rcases d.free_or_matches hinstalled with hfree | hmatch
    · exact Or.inl ⟨hp, hfree⟩
    · exact Or.inr ((h p hp hmatch).resolve_left hnot)

theorem excluded_passed_iff {prefs : AppPrefs} (before : Recorded)
    (hmode : d.getVpnAppsExclusionMode prefs = .EXCLUDE_APPS) :
    (∀ packageId ∈ prefs.excludedApps, packageId ≠ d.packageName →
      d.isPackageInstalled packageId = true →
        ¬ (d.Includes packageId ∧ d.Trusted packageId) →
          Passed .disallowed (d.vpnServiceBuilder prefs before).calls packageId) ↔
      ∀ packageId ∈ prefs.excludedApps, packageId ≠ d.packageName → d.Matches packageId →
        d.Trusted packageId := by
  simp only [d.passed_disallowed_iff before hmode]
  constructor
  · intro h p hp hself hmatch
    by_cases hincluded : d.Includes p ∧ d.Trusted p
    · exact hincluded.2
    · rcases h p hp hself hmatch.installed hincluded with ⟨-, -, hfree⟩ | hmanaged
      · exact absurd hmatch hfree.2
      · exact hmanaged.2
  · intro h p hp hself hinstalled hnot
    rcases d.free_or_matches hinstalled with hfree | hmatch
    · exact Or.inl ⟨hp, hself, hfree⟩
    · have htrusted := h p hp hself hmatch
      have hexcludes : d.Excludes p := hmatch.resolve_right fun hincludes =>
        hnot ⟨hincludes, htrusted⟩
      exact Or.inr ⟨hexcludes, htrusted⟩

/-- **When only verified rules override the selection.** -/
theorem selection_kept_iff (prefs : AppPrefs) (before : Recorded) :
    d.SelectionKept prefs (d.vpnServiceBuilder prefs before) ↔ d.RulesVerified prefs := by
  have hprefs := d.vpnServiceBuilder_prefs prefs before
  constructor
  · rintro ⟨hincluded, hexcluded, -, hincludedStored, hexcludedStored⟩
    rw [hprefs] at hincludedStored hexcludedStored
    refine ⟨fun hmode => ?_, fun hmode => ?_, fun hmode => ?_, fun hmode => ?_⟩
    · exact (d.included_passed_iff before hmode).mp (hincluded hmode)
    · exact (d.excluded_passed_iff before hmode).mp (hexcluded hmode)
    · exact (d.onlyGoneRemoved_included_iff hmode).mp hincludedStored
    · exact (d.onlyGoneRemoved_excluded_iff hmode).mp hexcludedStored
  · rintro ⟨hincluded, hexcluded, hincludedStored, hexcludedStored⟩
    refine ⟨fun hmode => ?_, fun hmode => ?_, ?_, ?_, ?_⟩
    · exact (d.included_passed_iff before hmode).mpr (hincluded hmode)
    · exact (d.excluded_passed_iff before hmode).mpr (hexcluded hmode)
    · rw [hprefs]
      exact d.prefsLeft_switches prefs
    · rw [hprefs]
      by_cases hmode : d.getVpnAppsExclusionMode prefs = .INCLUDE_APPS
      · exact (d.onlyGoneRemoved_included_iff hmode).mpr (hincludedStored hmode)
      · rw [d.prefsLeft_includedApps hmode]
        exact OnlyGoneRemoved.refl d prefs.includedApps
    · rw [hprefs]
      by_cases hmode : d.getVpnAppsExclusionMode prefs = .EXCLUDE_APPS
      · exact (d.onlyGoneRemoved_excluded_iff hmode).mpr (hexcludedStored hmode)
      · rw [d.prefsLeft_excludedApps hmode]
        exact OnlyGoneRemoved.refl d prefs.excludedApps

end Device

/-- A conduit whose signature is not the expected one: the user has selected it to use the VPN, the
rule about it is not acted on, and it is passed over. -/
theorem unverified_app_passed_over :
    let d := { twoApps defaultRules with expectedSignatures := fun _ => ["beef"] }
    let prefs : AppPrefs := ⟨false, true, ["ca.psiphon.conduit"], []⟩
    d.verifyTrustedPackage "ca.psiphon.conduit" = false ∧
      (d.vpnServiceBuilder prefs .initial).calls = [] ∧
      ¬ d.SelectionKept prefs (d.vpnServiceBuilder prefs .initial) := by
  intro d prefs
  have huntrusted : d.verifyTrustedPackage "ca.psiphon.conduit" = false := by decide +kernel
  have hnone : (d.vpnServiceBuilder prefs .initial).calls = [] := by decide +kernel
  refine ⟨huntrusted, hnone, fun hkept => ?_⟩
  have hnot : ¬ (d.Excludes "ca.psiphon.conduit" ∧ d.Trusted "ca.psiphon.conduit") := by
    rintro ⟨-, htrusted⟩
    rw [Device.Trusted, huntrusted] at htrusted
    cases htrusted
  obtain ⟨c, hc, -⟩ := hkept.included (by decide +kernel) "ca.psiphon.conduit"
    (List.mem_singleton_self _) (by decide +kernel) hnot
  rw [hnone] at hc
  exact List.not_mem_nil hc

end ShiroKhorshid.Apps
