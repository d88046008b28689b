/-
# Rules about apps (`VpnRulesHelper`, `PackageHelper`)

Some apps are always kept out of the VPN and some always in it, whatever the user selected.  A
rule names a package and the versions it is about; rules are built in or come from the network at
run time.  A rule is acted on (`shouldAlwaysExcludeFromVpn`, `shouldAlwaysIncludeInVpn`) only for a
package whose signature is trusted.

`Device` is what the app can ask about packages: which are installed, with which version and which
signatures, and which rules there are.  The two questions of the source are then

* does any rule for the package match its version (`matchesAlwaysExcludeRule` and its sibling),
  whoever has signed it; and
* is it trusted as well (`shouldAlwaysExcludeFromVpn_iff` and its sibling).

`Excludes` and `Includes` are these two, said of the rules; an app they hold of is among the managed
apps that `vpnServiceBuilder` goes through (`Includes.mem_managed`, `Excludes.mem_managed`), which
are collected from the rules alone.

The signatures themselves are not computed: whether a package has a trusted one is a fact about the
device.
-/
import Mathlib.Data.List.Basic
import ShiroKhorshid.Jvm

namespace ShiroKhorshid.Apps

open Jvm

/-! ## 1. Version rules -/

inductive Operator where
  | GT | GTE | LT | LTE
deriving DecidableEq

/-- `VersionRule`, with its four classes. -/
inductive VersionRule where
  | any
  | comparison (operator : Operator) (value : ℤ)
  | range (minVersion maxVersion : ℤ)
  | exact (version : ℤ)
deriving DecidableEq

def VersionRule.matchesVersion (versionCode : ℤ) : VersionRule → Bool
  | .any => true
  | .comparison .GT value => versionCode > value
  | .comparison .GTE value => versionCode ≥ value
  | .comparison .LT value => versionCode < value
  | .comparison .LTE value => versionCode ≤ value
  | .range minVersion maxVersion => versionCode ≥ minVersion && versionCode ≤ maxVersion
  | .exact version => versionCode == version

/-- A map from package names to the rules about them. -/
abbrev RuleMap : Type := List (String × List VersionRule)

/-- The rules of one origin. -/
structure Rules where
  excluded : RuleMap
  included : RuleMap

/-- `DEFAULT_EXCLUDED_VPN_RULES`, parsed, and `DEFAULT_INCLUDED_VPN_RULES`. -/
def defaultRules : Rules where
  excluded := [("ca.psiphon.conduit", [.any]), ("network.ryve.app", [.any])]
  included := []

/-- `rules.get(packageName)`, empty if it is null. -/
def rulesFor (rules : RuleMap) (packageName : String) : List VersionRule :=
  (rules.lookup packageName).getD []

/-! ## 2. What the app asks about packages -/

structure PackageInfo where
  longVersionCode : ℤ
  versionCode : ℤ
  /-- the SHA-256 hash of the first signing certificate -/
  signature : Option String

/-- The device and the app as they are during one call: the packages that are installed, the
signatures that are expected of them, the rules, and for which packages a call of the Builder does
not throw a `NameNotFoundException`. -/
structure Device where
  sdkInt : ℤ
  packageName : String
  getPackageInfo : String → Option PackageInfo
  expectedSignatures : String → List String
  defaults : Rules
  runtime : Rules
  builderFinds : String → Bool

namespace Device

variable (d : Device)

def isPackageInstalled (packageId : String) : Bool := (d.getPackageInfo packageId).isSome

/-- The version code that rules are matched with. -/
def versionCodeOf (info : PackageInfo) : ℤ :=
  if d.sdkInt ≥ 28 then toInt32 info.longVersionCode else info.versionCode

def getVpnExclusionRulesForPackage (packageName : String) : List VersionRule :=
  rulesFor d.defaults.excluded packageName ++ rulesFor d.runtime.excluded packageName

def getVpnInclusionRulesForPackage (packageName : String) : List VersionRule :=
  rulesFor d.defaults.included packageName ++ rulesFor d.runtime.included packageName

def matchesAlwaysExcludeRule (packageName : String) (versionCode : ℤ) : Bool :=
  (d.getVpnExclusionRulesForPackage packageName).any (VersionRule.matchesVersion versionCode)

def matchesAlwaysIncludeRule (packageName : String) (versionCode : ℤ) : Bool :=
  (d.getVpnInclusionRulesForPackage packageName).any (VersionRule.matchesVersion versionCode)

def matchesAnyVpnRule (packageName : String) (versionCode : ℤ) : Bool :=
  d.matchesAlwaysExcludeRule packageName versionCode ||
    d.matchesAlwaysIncludeRule packageName versionCode

/-- The packages with rules, in some order. -/
def getAllManagedExclusionApps : List String :=
  (d.defaults.excluded.map Prod.fst ++ d.runtime.excluded.map Prod.fst).eraseDups

def getAllManagedInclusionApps : List String :=
  (d.defaults.included.map Prod.fst ++ d.runtime.included.map Prod.fst).eraseDups

def verifyTrustedPackage (packageName : String) : Bool :=
  let expected := d.expectedSignatures packageName
  if expected.isEmpty then false
  else
    match d.getPackageInfo packageName with
    | none => false
    | some info =>
      match info.signature with
      | none => false
      | some signature => expected.contains signature

def shouldAlwaysExcludeFromVpn (packageId : String) : Bool :=
  match d.getPackageInfo packageId with
  | none => false
  | some info =>
    if d.matchesAlwaysExcludeRule packageId (d.versionCodeOf info) then
      d.verifyTrustedPackage packageId
    else false

def shouldAlwaysIncludeInVpn (packageId : String) : Bool :=
  match d.getPackageInfo packageId with
  | none => false
  | some info =>
    if d.matchesAlwaysIncludeRule packageId (d.versionCodeOf info) then
      d.verifyTrustedPackage packageId
    else false

end Device

/-! ## 3. Rules of an installed package -/

namespace Device

variable (d : Device)

/-- An always-exclude rule matches the installed version. -/
def Excludes (packageId : String) : Prop :=
  ∃ info, d.getPackageInfo packageId = some info ∧
    d.matchesAlwaysExcludeRule packageId (d.versionCodeOf info) = true

/-- An always-include rule matches the installed version. -/
def Includes (packageId : String) : Prop :=
  ∃ info, d.getPackageInfo packageId = some info ∧
    d.matchesAlwaysIncludeRule packageId (d.versionCodeOf info) = true

/-- What a trusted package is taken for. -/
def Trusted (packageId : String) : Prop := d.verifyTrustedPackage packageId = true

theorem shouldAlwaysExcludeFromVpn_iff (packageId : String) :
    d.shouldAlwaysExcludeFromVpn packageId = true ↔ d.Excludes packageId ∧ d.Trusted packageId := by
  unfold shouldAlwaysExcludeFromVpn Excludes Trusted
  cases d.getPackageInfo packageId with
  | none => simp
  | some info => simp

theorem shouldAlwaysIncludeInVpn_iff (packageId : String) :
    d.shouldAlwaysIncludeInVpn packageId = true ↔ d.Includes packageId ∧ d.Trusted packageId := by
  unfold shouldAlwaysIncludeInVpn Includes Trusted
  cases d.getPackageInfo packageId with
  | none => simp
  | some info => simp

theorem mem_of_rulesFor {rules : RuleMap} {packageName : String}
    (h : rulesFor rules packageName ≠ []) : packageName ∈ rules.map Prod.fst := by
  rw [rulesFor] at h
  cases hl : rules.lookup packageName with
  | none =>
    rw [hl] at h
    exact absurd rfl h
  | some versions =>
    obtain ⟨before, after, rfl, -⟩ := List.lookup_eq_some_iff.mp hl
    simp

/-- A package with a rule that applies is among the managed ones. -/
theorem mem_managed_of_any {defaults runtime : RuleMap} {packageName : String}
    {applies : VersionRule → Bool}
    (h : (rulesFor defaults packageName ++ rulesFor runtime packageName).any applies = true) :
    packageName ∈ (defaults.map Prod.fst ++ runtime.map Prod.fst).eraseDups := by
  obtain ⟨rule, hrule, -⟩ := List.any_eq_true.mp h
  rw [List.mem_eraseDups, List.mem_append]
  rcases List.mem_append.mp hrule with hrule | hrule
  · exact Or.inl (mem_of_rulesFor (List.ne_nil_of_mem hrule))
  · exact Or.inr (mem_of_rulesFor (List.ne_nil_of_mem hrule))

theorem Includes.mem_managed {d : Device} {packageId : String} (h : d.Includes packageId) :
    packageId ∈ d.getAllManagedInclusionApps := by
  obtain ⟨info, -, hmatch⟩ := h
  exact mem_managed_of_any hmatch

theorem Excludes.mem_managed {d : Device} {packageId : String} (h : d.Excludes packageId) :
    packageId ∈ d.getAllManagedExclusionApps := by
  obtain ⟨info, -, hmatch⟩ := h
  exact mem_managed_of_any hmatch

end Device

end ShiroKhorshid.Apps
