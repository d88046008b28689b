/-
# Which apps use the VPN (`vpnServiceBuilder`)

Android lets a VPN be built with a list of allowed applications, or with a list of disallowed ones,
but not with both.  `vpnServiceBuilder` fills one of the lists from what the user selected and from
the rules, and records what it did in `m_tunnelState`: a mode and the packages.  The client asks
that record (`createAppTunneledChecker`) whether an app is tunneled.

A selected app that the Builder cannot find is passed over.  When none is left the routine falls
back on all apps but those excluded by rules, and that is where the two lists meet: the calls that
failed were calls for the other list.  A failed call leaves the Builder as it was, so the record
still says what Android does.

* **What is passed**: the loops of the source are one `pass` over a list of packages, which asks for
  each and notes those that were found (`vpnServiceBuilder_spec`).
* **What Android does** with a row of calls: the list is that of the calls that returned, and an app
  is in the VPN by the list there is (`RoutedByOs`).  At most one of the two lists gets a member
  (`oneList`).
* **The two compared**: they agree unless the device is `Stranded`, which is to say that only
  selected apps are to use the VPN, none of them is left, and no rule excludes any
  (`recorded_mirrors_os`).

Which packages are installed does not change during one build; a call of the Builder may fail for
an installed one all the same.
-/
import ShiroKhorshid.Apps.Rules

namespace ShiroKhorshid.Apps

/-! ## 1. The source -/

inductive VpnAppsExclusionSetting where
  | ALL_APPS | INCLUDE_APPS | EXCLUDE_APPS
deriving DecidableEq

/-- The preferences: the two switches and the two selections, sets of package names. -/
@[ext] structure AppPrefs where
  excludeAppsFromVpn : Bool
  includeAppsInVpn : Bool
  includedApps : List String
  excludedApps : List String
deriving DecidableEq

/-- What the routine records: mode and packages of `m_tunnelState`, and the two fields that
notifications are written from. -/
structure Recorded where
  vpnMode : VpnAppsExclusionSetting
  vpnApps : List String
  vpnAppsExclusionSetting : VpnAppsExclusionSetting
  vpnAppsExclusionCount : ℕ

/-- The record of a `TunnelManager` that has built nothing. -/
def Recorded.initial : Recorded := ⟨.ALL_APPS, [], .ALL_APPS, 0⟩

/-- The two lists of the Builder. -/
inductive AppList where
  | allowed | disallowed
deriving DecidableEq

/-- A call of `addAllowedApplication` or `addDisallowedApplication`, and whether it returned. -/
structure AddCall where
  list : AppList
  packageId : String
  returned : Bool
deriving DecidableEq

/-- The calls made so far, and `m_tunnelState.vpnApps`. -/
structure Progress where
  calls : List AddCall
  vpnApps : List String

def supportsVpnExclusions (sdkInt : ℤ) : Bool := sdkInt ≥ 21

namespace Device

variable (d : Device)

def getVpnAppsExclusionMode (prefs : AppPrefs) : VpnAppsExclusionSetting :=
  if supportsVpnExclusions d.sdkInt then
    if prefs.excludeAppsFromVpn then .EXCLUDE_APPS
    else if prefs.includeAppsInVpn then .INCLUDE_APPS
    else .ALL_APPS
  else .ALL_APPS

/-- The loop of both `getUserControllableApps..`: packages that are not installed or match a rule
are removed. -/
def userControllable (userApps : List String) : List String :=
  userApps.filter fun packageId =>
    match d.getPackageInfo packageId with
    | none => false
    | some info => !d.matchesAnyVpnRule packageId (d.versionCodeOf info)

def getUserControllableAppsIncludedInVpn (prefs : AppPrefs) : List String :=
  d.userControllable prefs.includedApps

def getUserAppsExcludedFromVpn (prefs : AppPrefs) : List String :=
  prefs.excludedApps.filter (· ≠ d.packageName)

def getUserControllableAppsExcludedFromVpn (prefs : AppPrefs) : List String :=
  d.userControllable (d.getUserAppsExcludedFromVpn prefs)

/-- One call of the Builder; a package it finds is recorded. -/
def add (list : AppList) (s : Progress) (packageId : String) : Progress where
  calls := s.calls ++ [⟨list, packageId, d.builderFinds packageId⟩]
  vpnApps := if d.builderFinds packageId then s.vpnApps ++ [packageId] else s.vpnApps

/-- The loop over the selected apps: those that are left of them, and the progress. -/
def addSelected (list : AppList) (apps : List String) (s : Progress) : List String × Progress :=
  apps.foldl (fun acc packageId =>
    if d.isPackageInstalled packageId then
      (if d.builderFinds packageId then acc.1 ++ [packageId] else acc.1,
        d.add list acc.2 packageId)
    else acc) ([], s)

/-- A loop over managed apps. -/
def addManaged (list : AppList) (shouldAlways : String → Bool) (apps : List String)
    (s : Progress) : Progress :=
  apps.foldl (fun s packageId => if shouldAlways packageId then d.add list s packageId else s) s

/-- The apps that rules keep out of the VPN. -/
def addManagedExclusions (s : Progress) : Progress :=
  d.addManaged .disallowed d.shouldAlwaysExcludeFromVpn d.getAllManagedExclusionApps s

/-- The last part: without a list of the user's own, only rules keep apps out. -/
def addDefaultExclusions (r : Recorded) (s : Progress) : Recorded × Progress :=
  if r.vpnAppsExclusionSetting = .ALL_APPS then
    if supportsVpnExclusions d.sdkInt then
      if d.getAllManagedExclusionApps.isEmpty then (r, s)
      else ({ r with vpnMode := .EXCLUDE_APPS }, d.addManagedExclusions s)
    else (r, s)
  else (r, s)

/-- What `vpnServiceBuilder` leaves: the calls on the Builder, the record and the preferences. -/
structure Built where
  calls : List AddCall
  recorded : Recorded
  prefs : AppPrefs

/-- Mode `INCLUDE_APPS`. -/
def includeApps (prefs : AppPrefs) : AppPrefs × Recorded × Progress :=
  let apps := d.getUserControllableAppsIncludedInVpn prefs
  let (left, s) := d.addSelected .allowed apps ⟨[], []⟩
  let prefs := if apps.length ≠ left.length then { prefs with includedApps := left } else prefs
  if left.length > 0 then
    let s := d.addManaged .allowed d.shouldAlwaysIncludeInVpn d.getAllManagedInclusionApps s
    let s := d.add .allowed s d.packageName
    (prefs, ⟨.INCLUDE_APPS, [], .INCLUDE_APPS, left.length⟩, s)
  else (prefs, ⟨.INCLUDE_APPS, [], .ALL_APPS, left.length⟩, s)

/-- Mode `EXCLUDE_APPS`. -/
def excludeApps (prefs : AppPrefs) : AppPrefs × Recorded × Progress :=
  let apps := d.getUserControllableAppsExcludedFromVpn prefs
  let (left, s) := d.addSelected .disallowed apps ⟨[], []⟩
  let prefs := if apps.length ≠ left.length then { prefs with excludedApps := left } else prefs
  if left.length > 0 then
    (prefs, ⟨.EXCLUDE_APPS, [], .EXCLUDE_APPS, left.length⟩, d.addManagedExclusions s)
  else (prefs, ⟨.EXCLUDE_APPS, [], .ALL_APPS, left.length⟩, s)

/-- `vpnServiceBuilder`. -/
def vpnServiceBuilder (prefs : AppPrefs) (before : Recorded) : Built :=
  if d.sdkInt < 21 then ⟨[], before, prefs⟩
  else
    let (prefs, r, s) :=
      match d.getVpnAppsExclusionMode prefs with
      | .ALL_APPS => (prefs, ⟨.ALL_APPS, [], .ALL_APPS, 0⟩, ⟨[], []⟩)
      | .INCLUDE_APPS => d.includeApps prefs
      | .EXCLUDE_APPS => d.excludeApps prefs
    let (r, s) := d.addDefaultExclusions r s
    ⟨s.calls, { r with vpnApps := s.vpnApps }, prefs⟩

end Device

/-- `createAppTunneledChecker` -/
def isAppTunneled (mode : VpnAppsExclusionSetting) (vpnApps : List String) (packageId : String) :
    Bool :=
  match mode with
  | .ALL_APPS => true
  | .EXCLUDE_APPS => !vpnApps.contains packageId
  | .INCLUDE_APPS => vpnApps.contains packageId

@[simp] theorem isAppTunneled_exclude (vpnApps : List String) (packageId : String) :
    isAppTunneled .EXCLUDE_APPS vpnApps packageId = true ↔ packageId ∉ vpnApps := by
  simp [isAppTunneled]

@[simp] theorem isAppTunneled_include (vpnApps : List String) (packageId : String) :
    isAppTunneled .INCLUDE_APPS vpnApps packageId = true ↔ packageId ∈ vpnApps := by
  simp [isAppTunneled]

/-! ## 2. What is passed to the Builder -/

namespace Device

variable (d : Device)

/-- The call for a package. -/
def call (list : AppList) (packageId : String) : AddCall :=
  ⟨list, packageId, d.builderFinds packageId⟩

/-- Calls for some packages, one after the other. -/
def pass (list : AppList) (s : Progress) (packages : List String) : Progress :=
  ⟨s.calls ++ packages.map (d.call list), s.vpnApps ++ packages.filter d.builderFinds⟩

@[simp] theorem pass_nil (list : AppList) (s : Progress) : d.pass list s [] = s := by
  simp [pass]

theorem pass_append (list : AppList) (s : Progress) (packages packages' : List String) :
    d.pass list s (packages ++ packages') = d.pass list (d.pass list s packages) packages' := by
  simp [pass]

theorem add_eq (list : AppList) (s : Progress) (packageId : String) :
    d.add list s packageId = d.pass list s [packageId] := by
  cases hfinds : d.builderFinds packageId with
  | true => simp [add, pass, call, hfinds]
  | false => simp [add, pass, call, hfinds]

theorem addManaged_eq (list : AppList) (shouldAlways : String → Bool) (apps : List String)
    (s : Progress) :
    d.addManaged list shouldAlways apps s = d.pass list s (apps.filter shouldAlways) := by
  induction apps generalizing s with
  | nil => simp [addManaged]
  | cons packageId apps ih =>
    rw [addManaged, List.foldl_cons, ← addManaged, ih]
    cases h : shouldAlways packageId with
    | true =>
      rw [List.filter_cons_of_pos h, ← List.singleton_append, pass_append, if_pos rfl, add_eq]
    | false => simp [h]

theorem addSelected_eq (list : AppList) {apps : List String}
    (h : ∀ packageId ∈ apps, d.isPackageInstalled packageId = true) (s : Progress) :
    d.addSelected list apps s = (apps.filter d.builderFinds, d.pass list s apps) := by
  induction apps using List.reverseRecOn with
  | nil => simp [addSelected]
  | append_singleton apps packageId ih =>
    have hlast := h packageId (by simp)
    rw [addSelected, List.foldl_append, ← addSelected, ih (fun p hp => h p (by simp [hp])),
      List.foldl_cons, List.foldl_nil, if_pos hlast, List.filter_append, pass_append, add_eq]
    cases hfinds : d.builderFinds packageId with
    | true => simp [hfinds]
    | false => simp [hfinds]

theorem installed_of_mem_userControllable {userApps : List String} {packageId : String}
    (h : packageId ∈ d.userControllable userApps) : d.isPackageInstalled packageId = true := by
  have hkept := (List.mem_filter.mp h).2
  rw [isPackageInstalled]
  cases hinfo : d.getPackageInfo packageId with
  | none => simp [hinfo] at hkept
  | some info => rfl

/-- The selected apps that the Builder finds. -/
def left (userApps : List String) : List String :=
  (d.userControllable userApps).filter d.builderFinds

/-- The packages that rules exclude. -/
def exclusions : List String := d.getAllManagedExclusionApps.filter d.shouldAlwaysExcludeFromVpn

/-- The packages that rules include. -/
def inclusions : List String := d.getAllManagedInclusionApps.filter d.shouldAlwaysIncludeInVpn

/-- What is passed to `addAllowedApplication`. -/
def allowedPasses (prefs : AppPrefs) : List String :=
  match d.getVpnAppsExclusionMode prefs with
  | .INCLUDE_APPS =>
    if d.left prefs.includedApps ≠ [] then
      d.userControllable prefs.includedApps ++ d.inclusions ++ [d.packageName]
    else d.userControllable prefs.includedApps
  | _ => []

/-- What is passed to `addDisallowedApplication`. -/
def disallowedPasses (prefs : AppPrefs) : List String :=
  match d.getVpnAppsExclusionMode prefs with
  | .INCLUDE_APPS => if d.left prefs.includedApps ≠ [] then [] else d.exclusions
  | .EXCLUDE_APPS => d.getUserControllableAppsExcludedFromVpn prefs ++ d.exclusions
  | .ALL_APPS => d.exclusions

/-- A selected app is allowed, so Android has an allow list. -/
def HasAllowList (prefs : AppPrefs) : Prop :=
  d.getVpnAppsExclusionMode prefs = .INCLUDE_APPS ∧ d.left prefs.includedApps ≠ []

instance (prefs : AppPrefs) : Decidable (d.HasAllowList prefs) :=
  inferInstanceAs (Decidable (d.getVpnAppsExclusionMode prefs = .INCLUDE_APPS ∧
    d.left prefs.includedApps ≠ []))

/-- The mode that is recorded. -/
def recordedMode (prefs : AppPrefs) : VpnAppsExclusionSetting :=
  if d.HasAllowList prefs then .INCLUDE_APPS
  else if d.getAllManagedExclusionApps = [] then d.getVpnAppsExclusionMode prefs
  else .EXCLUDE_APPS

/-- The preferences that are left. -/
def prefsLeft (prefs : AppPrefs) : AppPrefs :=
  match d.getVpnAppsExclusionMode prefs with
  | .INCLUDE_APPS =>
    if d.left prefs.includedApps = d.userControllable prefs.includedApps then prefs
    else { prefs with includedApps := d.left prefs.includedApps }
  | .EXCLUDE_APPS =>
    if d.left (d.getUserAppsExcludedFromVpn prefs) =
        d.getUserControllableAppsExcludedFromVpn prefs then prefs
    else { prefs with excludedApps := d.left (d.getUserAppsExcludedFromVpn prefs) }
  | .ALL_APPS => prefs

theorem recordedMode_of_hasAllowList {prefs : AppPrefs} (h : d.HasAllowList prefs) :
    d.recordedMode prefs = .INCLUDE_APPS := if_pos h

theorem recordedMode_of_not {prefs : AppPrefs} (h : ¬ d.HasAllowList prefs) :
    d.recordedMode prefs =
      if d.getAllManagedExclusionApps = [] then d.getVpnAppsExclusionMode prefs
      else .EXCLUDE_APPS := if_neg h

theorem addDefaultExclusions_all {r : Recorded} (s : Progress) (hsdk : 21 ≤ d.sdkInt)
    (hall : r.vpnAppsExclusionSetting = .ALL_APPS) :
    d.addDefaultExclusions r s =
      ({ r with
        vpnMode := if d.getAllManagedExclusionApps = [] then r.vpnMode else .EXCLUDE_APPS },
        d.pass .disallowed s d.exclusions) := by
  have hsupports : supportsVpnExclusions d.sdkInt = true := decide_eq_true hsdk
  rw [addDefaultExclusions, if_pos hall, if_pos hsupports]
  by_cases hnone : d.getAllManagedExclusionApps = []
  · simp [hnone, exclusions]
  · rw [if_neg (by simpa using hnone), if_neg hnone, addManagedExclusions, addManaged_eq]
    rfl

theorem addSelected_userControllable (list : AppList) (userApps : List String) (s : Progress) :
    d.addSelected list (d.userControllable userApps) s =
      (d.left userApps, d.pass list s (d.userControllable userApps)) :=
  d.addSelected_eq list (fun _ hp => d.installed_of_mem_userControllable hp) s

/-- The selection is written back when the loop has removed something. -/
theorem length_left_eq_iff (userApps : List String) :
    (d.userControllable userApps).length = (d.left userApps).length ↔
      d.left userApps = d.userControllable userApps := by
  rw [left, eq_comm, List.length_filter_eq_length_iff, List.filter_eq_self]

theorem includeApps_eq (prefs : AppPrefs)
    (hmode : d.getVpnAppsExclusionMode prefs = .INCLUDE_APPS) :
    d.includeApps prefs =
      (d.prefsLeft prefs,
        if d.left prefs.includedApps ≠ [] then
          (⟨.INCLUDE_APPS, [], .INCLUDE_APPS, (d.left prefs.includedApps).length⟩,
            d.pass .allowed ⟨[], []⟩ (d.allowedPasses prefs))
        else
          (⟨.INCLUDE_APPS, [], .ALL_APPS, (d.left prefs.includedApps).length⟩,
            d.pass .allowed ⟨[], []⟩ (d.allowedPasses prefs))) := by
  rw [includeApps, getUserControllableAppsIncludedInVpn, addSelected_userControllable, prefsLeft,
    allowedPasses, hmode]
  simp only [ne_eq, length_left_eq_iff, addManaged_eq, add_eq, List.length_pos_iff]
  by_cases hleft : d.left prefs.includedApps = []
  · simp [hleft]
  · simp [hleft, pass_append, inclusions]

theorem excludeApps_eq (prefs : AppPrefs)
    (hmode : d.getVpnAppsExclusionMode prefs = .EXCLUDE_APPS) :
    d.excludeApps prefs =
      (d.prefsLeft prefs,
        if d.left (d.getUserAppsExcludedFromVpn prefs) ≠ [] then
          (⟨.EXCLUDE_APPS, [], .EXCLUDE_APPS,
              (d.left (d.getUserAppsExcludedFromVpn prefs)).length⟩,
            d.pass .disallowed ⟨[], []⟩ (d.disallowedPasses prefs))
        else
          (⟨.EXCLUDE_APPS, [], .ALL_APPS,
              (d.left (d.getUserAppsExcludedFromVpn prefs)).length⟩,
            d.pass .disallowed ⟨[], []⟩ (d.getUserControllableAppsExcludedFromVpn prefs))) := by
  rw [excludeApps, getUserControllableAppsExcludedFromVpn, addSelected_userControllable,
    prefsLeft, disallowedPasses, hmode]
  simp only [ne_eq, length_left_eq_iff, addManagedExclusions, addManaged_eq, List.length_pos_iff]
  by_cases hleft : d.left (d.getUserAppsExcludedFromVpn prefs) = []
  · simp [hleft, getUserControllableAppsExcludedFromVpn]
  · simp [hleft, pass_append, exclusions, getUserControllableAppsExcludedFromVpn]
    rfl

theorem vpnServiceBuilder_old (prefs : AppPrefs) (before : Recorded) (hold : d.sdkInt < 21) :
    d.vpnServiceBuilder prefs before = ⟨[], before, prefs⟩ := if_pos hold

/-- **What `vpnServiceBuilder` does.** -/
theorem vpnServiceBuilder_spec (prefs : AppPrefs) (before : Recorded) (hsdk : 21 ≤ d.sdkInt) :
    (d.vpnServiceBuilder prefs before).calls =
        (d.allowedPasses prefs).map (d.call .allowed) ++
          (d.disallowedPasses prefs).map (d.call .disallowed) ∧
      (d.vpnServiceBuilder prefs before).recorded.vpnApps =
        (d.allowedPasses prefs ++ d.disallowedPasses prefs).filter d.builderFinds ∧
      (d.vpnServiceBuilder prefs before).recorded.vpnMode = d.recordedMode prefs ∧
      (d.vpnServiceBuilder prefs before).prefs = d.prefsLeft prefs := by
  have hsdk' : ¬ d.sdkInt < 21 := not_lt.mpr hsdk
  rw [vpnServiceBuilder, if_neg hsdk']
  cases hmode : d.getVpnAppsExclusionMode prefs with
  | ALL_APPS =>
    have hadd := @addDefaultExclusions_all d ⟨.ALL_APPS, [], .ALL_APPS, 0⟩ ⟨[], []⟩ hsdk rfl
    have hnot : ¬ d.HasAllowList prefs := by simp [HasAllowList, hmode]
    simp [hadd, pass, allowedPasses, disallowedPasses, prefsLeft, hmode, recordedMode_of_not d hnot]
  | INCLUDE_APPS =>
    rw [includeApps_eq d prefs hmode]
    by_cases hleft : d.left prefs.includedApps = []
    · have hadd := @addDefaultExclusions_all d
        ⟨.INCLUDE_APPS, [], .ALL_APPS, (d.left prefs.includedApps).length⟩
        (d.pass .allowed ⟨[], []⟩ (d.allowedPasses prefs)) hsdk rfl
      have hnot : ¬ d.HasAllowList prefs := fun h => h.2 hleft
      rw [if_neg (not_not.mpr hleft), recordedMode_of_not d hnot]
      simp only [hadd]
      simp [pass, disallowedPasses, hmode, hleft]
    · have hlist : d.HasAllowList prefs := ⟨hmode, hleft⟩
      rw [recordedMode_of_hasAllowList d hlist]
      simp [hleft, addDefaultExclusions, pass, disallowedPasses, hmode]
  | EXCLUDE_APPS =>
    rw [excludeApps_eq d prefs hmode]
    have hallowed : d.allowedPasses prefs = [] := by rw [allowedPasses, hmode]
    have hnot : ¬ d.HasAllowList prefs := by simp [HasAllowList, hmode]
    rw [recordedMode_of_not d hnot]
    by_cases hleft : d.left (d.getUserAppsExcludedFromVpn prefs) = []
    · have hadd := @addDefaultExclusions_all d
        ⟨.EXCLUDE_APPS, [], .ALL_APPS, (d.left (d.getUserAppsExcludedFromVpn prefs)).length⟩
        (d.pass .disallowed ⟨[], []⟩ (d.getUserControllableAppsExcludedFromVpn prefs)) hsdk rfl
      rw [if_neg (not_not.mpr hleft)]
      simp only [hadd]
      simp [pass, disallowedPasses, hmode, hallowed]
    · simp [hleft, addDefaultExclusions, pass, hallowed, hmode]

theorem disallowedPasses_of_hasAllowList {prefs : AppPrefs} (h : d.HasAllowList prefs) :
    d.disallowedPasses prefs = [] := by
  rw [disallowedPasses, h.1]
  exact if_pos h.2

/-- Calls for the other list that come before the rules' have all failed. -/
theorem filter_allowedPasses_eq_nil_iff (prefs : AppPrefs) :
    (d.allowedPasses prefs).filter d.builderFinds = [] ↔ ¬ d.HasAllowList prefs := by
  rw [allowedPasses, HasAllowList]
  cases hmode : d.getVpnAppsExclusionMode prefs with
  | ALL_APPS => simp
  | EXCLUDE_APPS => simp
  | INCLUDE_APPS =>
    by_cases hleft : d.left prefs.includedApps = []
    · have hselected : (d.userControllable prefs.includedApps).filter d.builderFinds = [] := hleft
      rw [if_neg (not_not.mpr hleft), hselected]
      simp [hleft]
    · have hselected : (d.userControllable prefs.includedApps).filter d.builderFinds ≠ [] := hleft
      simp only [ne_eq, hleft, not_false_eq_true, if_true, List.filter_append,
        List.append_eq_nil_iff, hselected, false_and, and_self, not_true_eq_false]

theorem exclusions_eq_nil (h : d.getAllManagedExclusionApps = []) : d.exclusions = [] := by
  rw [exclusions, h, List.filter_nil]

end Device

/-! ## 3. What Android does with the calls -/

/-- The packages that the Builder holds in a list: a call that throws adds none. -/
def listed (list : AppList) (calls : List AddCall) : List String :=
  (calls.filter fun c => c.list = list && c.returned).map AddCall.packageId

/-- An allow list admits only its members, a deny list all but its members, and without a list all
apps are admitted. -/
def RoutedByOs (calls : List AddCall) (packageId : String) : Prop :=
  if listed .allowed calls ≠ [] then packageId ∈ listed .allowed calls
  else packageId ∉ listed .disallowed calls

instance (calls : List AddCall) (packageId : String) : Decidable (RoutedByOs calls packageId) :=
  inferInstanceAs (Decidable (if listed .allowed calls ≠ [] then packageId ∈ listed .allowed calls
    else packageId ∉ listed .disallowed calls))

theorem listed_append (list : AppList) (calls calls' : List AddCall) :
    listed list (calls ++ calls') = listed list calls ++ listed list calls' := by
  simp [listed]

theorem listed_map_call (d : Device) (list : AppList) (packages : List String) :
    listed list (packages.map (d.call list)) = packages.filter d.builderFinds := by
  induction packages with
  | nil => rfl
  | cons packageId packages ih =>
    rw [List.map_cons, ← List.singleton_append, listed_append, ih]
    cases hfinds : d.builderFinds packageId with
    | true => simp [listed, Device.call, hfinds]
    | false => simp [listed, Device.call, hfinds]

theorem listed_map_call_of_ne (d : Device) {list list' : AppList} (hne : list' ≠ list)
    (packages : List String) : listed list (packages.map (d.call list')) = [] := by
  rw [listed, List.map_eq_nil_iff, List.filter_eq_nil_iff]
  intro c hc
  obtain ⟨packageId, -, rfl⟩ := List.mem_map.mp hc
  simp [Device.call, hne]

theorem returned_map_call (d : Device) (list : AppList) (packages : List String) :
    ((packages.map (d.call list)).filter AddCall.returned).map AddCall.packageId =
      packages.filter d.builderFinds := by
  rw [List.filter_map, List.map_map]
  exact List.map_id _

namespace Device

variable (d : Device)

/-- No app is left to include and no rule excludes an app: the record then says that no app is
tunneled (mode `INCLUDE_APPS` and no packages), while Android was given no list. -/
def Stranded (prefs : AppPrefs) : Prop :=
  d.getVpnAppsExclusionMode prefs = .INCLUDE_APPS ∧ d.left prefs.includedApps = [] ∧
    d.getAllManagedExclusionApps = []

theorem listed_allowed (prefs : AppPrefs) (before : Recorded) (hsdk : 21 ≤ d.sdkInt) :
    listed .allowed (d.vpnServiceBuilder prefs before).calls =
      (d.allowedPasses prefs).filter d.builderFinds := by
  rw [(d.vpnServiceBuilder_spec prefs before hsdk).1, listed_append, listed_map_call,
    listed_map_call_of_ne d (by decide), List.append_nil]

theorem listed_disallowed (prefs : AppPrefs) (before : Recorded) (hsdk : 21 ≤ d.sdkInt) :
    listed .disallowed (d.vpnServiceBuilder prefs before).calls =
      (d.disallowedPasses prefs).filter d.builderFinds := by
  rw [(d.vpnServiceBuilder_spec prefs before hsdk).1, listed_append, listed_map_call,
    listed_map_call_of_ne d (by decide), List.nil_append]

/-- The two lists are never both used. -/
theorem oneList (prefs : AppPrefs) (before : Recorded) (hsdk : 21 ≤ d.sdkInt)
    (hallowed : listed .allowed (d.vpnServiceBuilder prefs before).calls ≠ []) :
    ∀ c ∈ (d.vpnServiceBuilder prefs before).calls, c.list = .allowed := by
  rw [listed_allowed d prefs before hsdk, Ne, filter_allowedPasses_eq_nil_iff, not_not] at hallowed
  intro c hc
  rw [(d.vpnServiceBuilder_spec prefs before hsdk).1,
    d.disallowedPasses_of_hasAllowList hallowed, List.map_nil, List.append_nil] at hc
  obtain ⟨packageId, -, rfl⟩ := List.mem_map.mp hc
  rfl

theorem vpnApps_eq (prefs : AppPrefs) (before : Recorded) (hsdk : 21 ≤ d.sdkInt) :
    (d.vpnServiceBuilder prefs before).recorded.vpnApps =
      ((d.vpnServiceBuilder prefs before).calls.filter AddCall.returned).map
        AddCall.packageId := by
  obtain ⟨hcalls, happs, -, -⟩ := d.vpnServiceBuilder_spec prefs before hsdk
  rw [hcalls, happs, List.filter_append, List.filter_append, List.map_append, returned_map_call,
    returned_map_call]

/-- The checker and Android, on a device that has the lists. -/
theorem recorded_mirrors_iff (prefs : AppPrefs) (before : Recorded) (hsdk : 21 ≤ d.sdkInt) :
    (∀ packageId,
        isAppTunneled (d.vpnServiceBuilder prefs before).recorded.vpnMode
            (d.vpnServiceBuilder prefs before).recorded.vpnApps packageId = true ↔
          RoutedByOs (d.vpnServiceBuilder prefs before).calls packageId) ↔
      ¬ d.Stranded prefs := by
  obtain ⟨-, happs, hmode, -⟩ := d.vpnServiceBuilder_spec prefs before hsdk
  simp only [RoutedByOs, listed_allowed d prefs before hsdk,
    listed_disallowed d prefs before hsdk, happs, hmode, List.filter_append]
  by_cases hlist : d.HasAllowList prefs
  · -- an allow list: all that is recorded is on it
    have hallowed : (d.allowedPasses prefs).filter d.builderFinds ≠ [] := by
      rwa [Ne, filter_allowedPasses_eq_nil_iff, not_not]
    have hrecorded := d.recordedMode_of_hasAllowList hlist
    have hnot : ¬ d.Stranded prefs := fun h => hlist.2 h.2.1
    simp [hallowed, hrecorded, hnot, d.disallowedPasses_of_hasAllowList hlist]
  · have hallowed : (d.allowedPasses prefs).filter d.builderFinds = [] := by
      rwa [filter_allowedPasses_eq_nil_iff]
    rw [hallowed]
    by_cases hnone : d.getAllManagedExclusionApps = []
    · have hrecorded : d.recordedMode prefs = d.getVpnAppsExclusionMode prefs := by
        rw [recordedMode_of_not d hlist, if_pos hnone]
      rw [hrecorded, disallowedPasses, exclusions_eq_nil d hnone, Stranded]
      cases hm : d.getVpnAppsExclusionMode prefs with
      | ALL_APPS => simp [isAppTunneled]
      | EXCLUDE_APPS => simp
      | INCLUDE_APPS =>
        have hleft : d.left prefs.includedApps = [] := by
          by_contra hleft
          exact hlist ⟨hm, hleft⟩
        simp [hleft, hnone]
    · have hrecorded : d.recordedMode prefs = .EXCLUDE_APPS := by
        rw [recordedMode_of_not d hlist, if_neg hnone]
      have hnot : ¬ d.Stranded prefs := fun h => hnone h.2.2
      simp [hrecorded, hnot]

/-- The built-in rules leave no device stranded. -/
theorem not_stranded_of_defaults (h : d.defaults = defaultRules) (prefs : AppPrefs) :
    ¬ d.Stranded prefs := by
  rintro ⟨-, -, hnone⟩
  have hmem : "ca.psiphon.conduit" ∈ d.getAllManagedExclusionApps := by
    rw [getAllManagedExclusionApps, h, List.mem_eraseDups]
    simp [defaultRules]
  rw [hnone] at hmem
  exact List.not_mem_nil hmem

/-- The device on a version of Android. -/
def on (sdkInt : ℤ) : Device := { d with sdkInt := sdkInt }

end Device

/-- The record after some builds of one `TunnelManager`, each with what it finds on the device and
in the preferences. -/
def recordAfter (sdkInt : ℤ) (builds : List (Device × AppPrefs)) : Recorded :=
  builds.foldl (fun before b => ((b.1.on sdkInt).vpnServiceBuilder b.2 before).recorded) .initial

/-- Below version 21 nothing is ever recorded. -/
theorem recordAfter_old {sdkInt : ℤ} (hold : sdkInt < 21) (builds : List (Device × AppPrefs)) :
    recordAfter sdkInt builds = .initial := by
  induction builds using List.reverseRecOn with
  | nil => rfl
  | append_singleton builds b ih =>
    have hbuilt := (b.1.on sdkInt).vpnServiceBuilder_old b.2 (recordAfter sdkInt builds) hold
    rw [recordAfter, List.foldl_append, ← recordAfter, List.foldl_cons, List.foldl_nil, hbuilt]
    exact ih

/-- **The record mirrors Android.**  After any builds, the next one makes no call for the deny list
once the allow list has a member, records just the packages of the calls that returned, and its
record answers as Android does, unless the device is stranded. -/
theorem recorded_mirrors_os (sdkInt : ℤ) (earlier : List (Device × AppPrefs)) (device : Device)
    (prefs : AppPrefs) :
    let d := device.on sdkInt
    let built := d.vpnServiceBuilder prefs (recordAfter sdkInt earlier)
    (listed .allowed built.calls ≠ [] → ∀ c ∈ built.calls, c.list = .allowed) ∧
      built.recorded.vpnApps =
        (built.calls.filter AddCall.returned).map AddCall.packageId ∧
      ((∀ packageId,
          isAppTunneled built.recorded.vpnMode built.recorded.vpnApps packageId = true ↔
            RoutedByOs built.calls packageId) ↔
        ¬ d.Stranded prefs) := by
  intro d built
  by_cases hsdk : 21 ≤ sdkInt
  · exact ⟨d.oneList prefs _ hsdk, d.vpnApps_eq prefs _ hsdk, d.recorded_mirrors_iff prefs _ hsdk⟩
  · have hold : sdkInt < 21 := not_le.mp hsdk
    have hbuilt : built = ⟨[], .initial, prefs⟩ := by
      rw [← recordAfter_old hold earlier]
      exact d.vpnServiceBuilder_old prefs _ hold
    have hall : d.getVpnAppsExclusionMode prefs = .ALL_APPS := by
      have hsupports : supportsVpnExclusions d.sdkInt = false := decide_eq_false hsdk
      rw [Device.getVpnAppsExclusionMode, hsupports]
      rfl
    rw [hbuilt]
    simp [listed, RoutedByOs, isAppTunneled, Recorded.initial, Device.Stranded, hall]

/-- A device with two apps: `org.app`, which the Builder does not find, and the conduit. -/
def twoApps (rules : Rules) : Device where
  sdkInt := 33
  packageName := "com.psiphon3"
  getPackageInfo packageId :=
    if packageId = "org.app" then some ⟨1, 1, none⟩
    else if packageId = "ca.psiphon.conduit" then some ⟨1, 1, some "00ff"⟩
    else none
  expectedSignatures packageId := if packageId = "ca.psiphon.conduit" then ["00ff"] else []
  defaults := rules
  runtime := ⟨[], []⟩
  builderFinds packageId := packageId = "ca.psiphon.conduit"

/-- Both routines of the Builder are called, first for `org.app`, which is not found, and then for
the conduit.  With no rule at all the record says that no app is tunneled, and Android tunnels
each. -/
theorem failed_call_then_other_list :
    ((twoApps defaultRules).vpnServiceBuilder ⟨false, true, ["org.app"], []⟩ .initial).calls =
        [⟨.allowed, "org.app", false⟩, ⟨.disallowed, "ca.psiphon.conduit", true⟩] ∧
      (let built := (twoApps ⟨[], []⟩).vpnServiceBuilder ⟨false, true, ["org.app"], []⟩ .initial
       isAppTunneled built.recorded.vpnMode built.recorded.vpnApps "org.app" = false ∧
        RoutedByOs built.calls "org.app") := by
  decide +kernel

end ShiroKhorshid.Apps
