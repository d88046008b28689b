/-
# The version that rules are matched with

Since Android 9 the version code of a package is a `long`, whose upper half is `versionCodeMajor`.
The app casts it to `int` before it matches rules with it, wherever it does so.  So the upper half
is dropped, and what is left may be negative: a rule such as `>=100`, which is meant for all later
versions, can miss them.

* All decisions about managed apps hang on two matches, for exclusion and for inclusion
  (`decided_iff_matches`), so they are asked once with the version that was cast and once with the
  real one.
* A real version that is out of the range of an `int` is matched by a rule exactly where the rule
  has no upper bound: rules name `int`s, so those are `*` and the rules for all later versions
  (`denotes_iff_unbounded`).

`decided_iff` puts the two together and says for which versions and rules the cast makes a
difference: none before Android 9, none for versions that fit, and else where the rules say the same
of what the cast leaves.  Its conditions are about the device and the rules alone.

That the versions of the rules themselves fit an `int` is the parser's doing (`RuleText`).
-/
import ShiroKhorshid.Apps.Builder
import ShiroKhorshid.Apps.RuleSemantics

namespace ShiroKhorshid.Apps

open Jvm Linked

/-! ## 1. Managed apps -/

namespace Device

variable (d : Device)

/-- The packages whose installed version a rule matches. -/
def versionAware (matchesRule : String → ℤ → Bool) (managedApps : List String) : List String :=
  managedApps.filter fun packageName =>
    match d.getPackageInfo packageName with
    | none => false
    | some info => matchesRule packageName (d.versionCodeOf info)

def getVersionAwareManagedExclusionApps : List String :=
  d.versionAware d.matchesAlwaysExcludeRule d.getAllManagedExclusionApps

def getVersionAwareManagedInclusionApps : List String :=
  d.versionAware d.matchesAlwaysIncludeRule d.getAllManagedInclusionApps

/-- The version code of a package: a `long` where there is one. -/
def realVersion (info : PackageInfo) : ℤ :=
  if d.sdkInt ≥ 28 then info.longVersionCode else info.versionCode

/-- What is decided by the rules about an installed package is decided on its real version. -/
structure Decided (packageId : String) (info : PackageInfo) : Prop where
  excluded : d.shouldAlwaysExcludeFromVpn packageId =
    (d.matchesAlwaysExcludeRule packageId (d.realVersion info) && d.verifyTrustedPackage packageId)
  included : d.shouldAlwaysIncludeInVpn packageId =
    (d.matchesAlwaysIncludeRule packageId (d.realVersion info) && d.verifyTrustedPackage packageId)
  managedExclusion : packageId ∈ d.getVersionAwareManagedExclusionApps ↔
    d.matchesAlwaysExcludeRule packageId (d.realVersion info) = true
  managedInclusion : packageId ∈ d.getVersionAwareManagedInclusionApps ↔
    d.matchesAlwaysIncludeRule packageId (d.realVersion info) = true
  controllable : ∀ userApps, packageId ∈ d.userControllable userApps ↔
    packageId ∈ userApps ∧ d.matchesAnyVpnRule packageId (d.realVersion info) = false

variable {d} {packageId : String} {info : PackageInfo}

theorem mem_versionAware_iff (hinstalled : d.getPackageInfo packageId = some info)
    {matchesRule : String → ℤ → Bool} {managedApps : List String} :
    packageId ∈ d.versionAware matchesRule managedApps ↔
      packageId ∈ managedApps ∧ matchesRule packageId (d.versionCodeOf info) = true := by
  rw [versionAware, List.mem_filter, hinstalled]

/-- **All decisions hang on the two matches.** -/
theorem decided_iff_matches (hinstalled : d.getPackageInfo packageId = some info) :
    d.Decided packageId info ↔
      d.matchesAlwaysExcludeRule packageId (d.versionCodeOf info) =
          d.matchesAlwaysExcludeRule packageId (d.realVersion info) ∧
        d.matchesAlwaysIncludeRule packageId (d.versionCodeOf info) =
          d.matchesAlwaysIncludeRule packageId (d.realVersion info) := by
  have hexclusion : packageId ∈ d.getVersionAwareManagedExclusionApps ↔
      d.matchesAlwaysExcludeRule packageId (d.versionCodeOf info) = true := by
    refine (mem_versionAware_iff hinstalled).trans (and_iff_right_of_imp fun h => ?_)
    exact Excludes.mem_managed ⟨info, hinstalled, h⟩
  have hinclusion : packageId ∈ d.getVersionAwareManagedInclusionApps ↔
      d.matchesAlwaysIncludeRule packageId (d.versionCodeOf info) = true := by
    refine (mem_versionAware_iff hinstalled).trans (and_iff_right_of_imp fun h => ?_)
    exact Includes.mem_managed ⟨info, hinstalled, h⟩
  constructor
  · intro h
    exact ⟨Bool.eq_iff_iff.mpr (hexclusion.symm.trans h.managedExclusion),
      Bool.eq_iff_iff.mpr (hinclusion.symm.trans h.managedInclusion)⟩
  · rintro ⟨hexclude, hinclude⟩
    refine ⟨?_, ?_, ?_, ?_, fun userApps => ?_⟩
    · rw [← hexclude, shouldAlwaysExcludeFromVpn, hinstalled]
      simp only [Bool.if_false_right, Bool.decide_eq_true]
    · rw [← hinclude, shouldAlwaysIncludeInVpn, hinstalled]
      simp only [Bool.if_false_right, Bool.decide_eq_true]
    · rw [← hexclude]
      exact hexclusion
    · rw [← hinclude]
      exact hinclusion
    · have hany : d.matchesAnyVpnRule packageId (d.versionCodeOf info) =
          d.matchesAnyVpnRule packageId (d.realVersion info) := by
        rw [matchesAnyVpnRule, hexclude, hinclude]
        rfl
      rw [userControllable, List.mem_filter, hinstalled]
      simp only [hany, Bool.not_eq_true']

end Device

/-! ## 2. Late versions -/

/-- The text stands for all versions from some one on. -/
inductive Unbounded : List Char → Prop
  | any : Unbounded ['*']
  | atLeast {cs : List Char} {n : ℕ} : Number cs n → Unbounded ('>' :: '=' :: cs)
  | above {cs : List Char} {n : ℕ} : Number cs n → Unbounded ('>' :: cs)

/-- A version that is no `int` is past every number in a rule. -/
theorem denotes_iff_unbounded {cs : List Char} {v : ℤ} (hv : 2 ^ 31 ≤ v) :
    Denotes cs v ↔ Unbounded cs := by
  constructor
  · intro h
    cases h with
    | any => exact Unbounded.any
    | atLeast hn => exact Unbounded.atLeast hn
    | above hn => exact Unbounded.above hn
    | @atMost cs n _ hn hle =>
      have := hn.2
      omega
    | @below cs n _ hn hlt =>
      have := hn.2
      omega
    | @range min max a b _ ha hb hav hvb =>
      have := hb.2
      omega
    | @exact cs n _ hn heq =>
      have := hn.2
      omega
  · intro h
    cases h with
    | any => exact Denotes.any
    | @atLeast cs n hn =>
      have := hn.2
      exact Denotes.atLeast hn (by omega)
    | @above cs n hn =>
      have := hn.2
      exact Denotes.above hn (by omega)

/-- Of the texts that are listed, one stands for the version that the cast leaves exactly if one
stands for all later versions. -/
def SameAfterCast (Listed : String → Prop) (v : ℤ) : Prop :=
  (∃ t, Listed t ∧ Unbounded (javaTrim t).toList) ↔
    ∃ t, Listed t ∧ Denotes (javaTrim t).toList (toInt32 v)

namespace RuleSources

variable {order : HashOrder} {s : RuleSources} {d : Device} {packageId : String}
  {info : PackageInfo}

/-- **Where the cast makes no difference**: before Android 9, for versions that fit an `int`, and
where the rules say the same about what the cast leaves as about all late versions. -/
theorem decided_iff (order : HashOrder) (s : RuleSources) (d : Device) (packageId : String)
    (info : PackageInfo) (hinstalled : d.getPackageInfo packageId = some info)
    (hversion : 0 ≤ info.longVersionCode ∧ info.longVersionCode < 2 ^ 63) :
    (s.configured order d).Decided packageId info ↔
      d.sdkInt < 28 ∨ info.longVersionCode < 2 ^ 31 ∨
        SameAfterCast (s.ListedExcluded packageId) info.longVersionCode ∧
          SameAfterCast (s.ListedIncluded packageId) info.longVersionCode := by
  rw [Device.decided_iff_matches (d := s.configured order d) hinstalled]
  by_cases hsdk : d.sdkInt ≥ 28
  · have hcode : (s.configured order d).versionCodeOf info = toInt32 info.longVersionCode :=
      if_pos hsdk
    have hreal : (s.configured order d).realVersion info = info.longVersionCode := if_pos hsdk
    rw [hcode, hreal, or_iff_right (not_lt.mpr hsdk)]
    by_cases hfits : info.longVersionCode < 2 ^ 31
    · rw [toInt32_of_fits (by omega) hfits]
      exact iff_of_true ⟨rfl, rfl⟩ (Or.inl hfits)
    · have hlate := fun cs => @denotes_iff_unbounded cs _ (not_lt.mp hfits)
      rw [or_iff_right hfits]
      refine and_congr ?_ ?_
      · rw [eq_comm, Bool.eq_iff_iff, matchesAlwaysExcludeRule_iff, matchesAlwaysExcludeRule_iff]
        simp only [hlate]
        rfl
      · rw [eq_comm, Bool.eq_iff_iff, matchesAlwaysIncludeRule_iff, matchesAlwaysIncludeRule_iff]
        simp only [hlate]
        rfl
  · have hsame : (s.configured order d).versionCodeOf info =
        (s.configured order d).realVersion info :=
      (if_neg hsdk).trans (if_neg hsdk).symm
    rw [hsame]
    exact iff_of_true ⟨rfl, rfl⟩ (Or.inl (not_le.mp hsdk))

end RuleSources

/-! ## 3. A late version -/

namespace Late

/-- Maps as lists, in their own order. -/
def listOrder : HashOrder := ⟨fun m => m, fun m => List.Perm.refl m⟩

/-- One rule, for all versions from 100 on. -/
def sources : RuleSources where
  defaultExcluded := []
  defaultIncluded := []
  vpnRules := [("exclude", [("org.example", [">=100"])])]
  keyedExcluded := keyed_nil
  keyedIncluded := keyed_nil
  keyedRules := List.nodup_singleton _
  keyedCategories _ he := List.mem_singleton.mp he ▸ List.nodup_singleton _

/-- A device with one package, of a trusted signature. -/
def device (info : PackageInfo) : Device where
  sdkInt := 30
  packageName := "client"
  getPackageInfo packageId := if packageId = "org.example" then some info else none
  expectedSignatures _ := ["aa"]
  defaults := defaultRules
  runtime := ⟨[], []⟩
  builderFinds _ := true

/-- A version code with a `versionCodeMajor` of 1. -/
def late : PackageInfo := ⟨2 ^ 32 + 5, 5, some "aa"⟩

def early : PackageInfo := ⟨150, 150, some "aa"⟩

end Late

open Late in
/-- The rules of a version that fits. -/
theorem decided_early :
    (device early).getPackageInfo "org.example" = some early ∧
      (0 ≤ early.longVersionCode ∧ early.longVersionCode < 2 ^ 63) ∧
      (sources.configured listOrder (device early)).Decided "org.example" early := by
  have hinstalled : (device early).getPackageInfo "org.example" = some early := by
    simp [device]
  have hversion : 0 ≤ early.longVersionCode ∧ early.longVersionCode < 2 ^ 63 := by decide
  refine ⟨hinstalled, hversion, ?_⟩
  refine (RuleSources.decided_iff listOrder sources (device early) "org.example" early hinstalled
    hversion).mpr ?_
  exact Or.inr (Or.inl (by decide))

open Late in
/-- **A late version is not excluded**, though it is past 100. -/
theorem late_version_missed :
    (sources.configured listOrder (device late)).shouldAlwaysExcludeFromVpn "org.example" = false ∧
      (sources.configured listOrder (device late)).matchesAlwaysExcludeRule "org.example"
        late.longVersionCode = true ∧
      (sources.configured listOrder (device late)).verifyTrustedPackage "org.example" = true ∧
      ¬ (sources.configured listOrder (device late)).Decided "org.example" late := by
  have hdecision : (sources.configured listOrder (device late)).shouldAlwaysExcludeFromVpn
      "org.example" = false := by decide +kernel
  have hmatch : (sources.configured listOrder (device late)).matchesAlwaysExcludeRule "org.example"
      late.longVersionCode = true := by decide +kernel
  have htrusted : (sources.configured listOrder (device late)).verifyTrustedPackage
      "org.example" = true := by decide +kernel
  refine ⟨hdecision, hmatch, htrusted, fun h => ?_⟩
  have hreal : (sources.configured listOrder (device late)).realVersion late =
      late.longVersionCode := by decide
  have hexcluded := h.excluded
  rw [hdecision, hreal, hmatch, htrusted] at hexcluded
  cases hexcluded

end ShiroKhorshid.Apps
