/-
# Rules from the network (`VpnRulesHelper`, `processVpnRules`)

The parameters that come over the tunnel can hold rules.  They are parsed, kept in a file for the
next start and made the runtime rules at once; the next start reads the file.  `VpnRules` is what
is passed around in between, a map of maps of rule texts.

Its maps are hash maps: `HashOrder` is the order in which they are gone through, and nothing may
depend on it.

* A category is written as an object of lists, package by package, and parsed back in the order it
  was written in (`parseRulesCategory_categoryObject`).
* The file holds one line: `readDataFromStream` puts the lines it reads together without their ends,
  which is right because the text of an object has none (`readLines_eq_self`).
* What is read is what was written, up to the order of the packages (`read_write`), and the runtime
  rules of a package are looked up by name, so that they are the same up to order
  (`rulesFor_configureCategory_perm`).

`rules_survive_storage`: the next start decides for every package and version as this one does; and
an object that cannot be parsed changes neither the rules nor the file.

JSON is a parameter with the laws of `OrgJson`; that the file is written whole is `SafeFile`'s part.
-/
import ShiroKhorshid.Apps.RuleText
import ShiroKhorshid.Lib.Linked
import ShiroKhorshid.OrgJson

namespace ShiroKhorshid.Apps

open Linked

/-! ## 1. Maps of rule texts -/

/-- `Map<String, List<String>>`: the texts of a package's rules. -/
abbrev RuleTexts : Type := List (String × List String)

/-- `Map<String, Map<String, List<String>>>`, by category. -/
abbrev VpnRules : Type := List (String × RuleTexts)

/-- The order in which a `HashMap` is gone through. -/
structure HashOrder where
  entrySet : ∀ {α : Type}, List (String × α) → List (String × α)
  perm : ∀ {α : Type} (m : List (String × α)), (entrySet m).Perm m

namespace VpnRules

/-- `getDefaultValue` -/
def getDefaultValue : VpnRules := [("exclude", []), ("include", [])]

variable (J : OrgJson) (order : HashOrder)

/-! ## 2. From and to JSON -/

/-- `getJSONArray(name)` and `getString(i)` for every element; `none` is the `JSONException`. -/
def versionRules : Json.Value → Option (List String)
  | .arr vs => vs.mapM J.asString
  | _ => none

def parseRulesCategory (categoryObject : Json.Object) : Option RuleTexts :=
  categoryObject.foldlM
    (fun categoryRules f => (versionRules J f.2).map fun texts => put f.1 texts categoryRules) []

/-- The category under that name, empty if there is no object. -/
def optRulesCategory (o : Json.Object) (name : String) : Option RuleTexts :=
  match OrgJson.optJSONObject o name with
  | some categoryObject => parseRulesCategory J categoryObject
  | none => some []

/-- The `try` block of `processVpnRules`, up to the map. -/
def parse (params : Json.Object) : Option VpnRules := do
  let excludeRules ← optRulesCategory J params "VpnExcludeRules"
  let includeRules ← optRulesCategory J params "VpnIncludeRules"
  some [("exclude", excludeRules), ("include", includeRules)]

def categoryObject (rules : RuleTexts) : Json.Object :=
  (order.entrySet rules).foldl (fun o e => put e.1 (.arr (e.2.map Json.Value.str)) o) []

def jsonObject (data : VpnRules) : Json.Object :=
  (order.entrySet data).foldl (fun o e => put e.1 (.obj (categoryObject order e.2)) o) []

def writeDataToStream (data : VpnRules) : String := J.toString (jsonObject order data)

/-- A line and what follows its end (`BufferedReader.readLine`). -/
def readLine : List Char → List Char × List Char
  | [] => ([], [])
  | '\n' :: cs => ([], cs)
  | '\r' :: '\n' :: cs => ([], cs)
  | '\r' :: cs => ([], cs)
  | c :: cs => (c :: (readLine cs).1, (readLine cs).2)

theorem readLine_length (cs : List Char) : (readLine cs).2.length ≤ cs.length - 1 := by
  fun_induction readLine cs with
  | case1 => exact Nat.le_refl _
  | case2 cs => exact Nat.le_refl _
  | case3 cs => exact Nat.le_succ _
  | case4 cs => exact Nat.le_refl _
  | case5 c cs _ _ _ ih => exact Nat.le_trans ih (Nat.sub_le _ _)

/-- The lines, appended. -/
def readLines : List Char → List Char
  | [] => []
  | c :: cs => (readLine (c :: cs)).1 ++ readLines (readLine (c :: cs)).2
termination_by cs => cs.length
decreasing_by exact Nat.lt_succ_of_le (readLine_length (c :: cs))

/-- `none` is the `IOException`. -/
def readDataFromStream (text : String) : Option VpnRules := do
  let o ← J.parse (String.ofList (readLines text.toList))
  let excludeRules ← optRulesCategory J o "exclude"
  let includeRules ← optRulesCategory J o "include"
  some [("exclude", excludeRules), ("include", includeRules)]

/-! ## 3. The runtime rules and the file -/

/-- The rules of the packages that have one. -/
def configureCategory (rules : Option RuleTexts) : RuleMap :=
  (order.entrySet (rules.getD [])).foldl
    (fun m e =>
      let versionRules := VersionRule.parseVersionRules e.2
      if versionRules = [] then m else put e.1 versionRules m) []

def configureRuntimeVpnRules (vpnRules : VpnRules) : Rules where
  excluded := configureCategory order (vpnRules.lookup "exclude")
  included := configureCategory order (vpnRules.lookup "include")

end VpnRules

/-- The rules of the process and what `vpn_rules.json` holds. -/
structure RuleStore where
  runtime : Rules
  file : Option String

namespace RuleStore

variable (J : OrgJson) (order : HashOrder)

/-- `saveVpnRulesToFile`; a save that fails leaves the file as it is. -/
def saveVpnRulesToFile (saved : Bool) (vpnRules : VpnRules) (s : RuleStore) : RuleStore :=
  if saved then { s with file := some (VpnRules.writeDataToStream J order vpnRules) } else s

def readVpnRulesFromFile (s : RuleStore) : VpnRules :=
  (s.file.bind (VpnRules.readDataFromStream J)).getD VpnRules.getDefaultValue

def configureRuntimeVpnRules (vpnRules : VpnRules) (s : RuleStore) : RuleStore :=
  { s with runtime := VpnRules.configureRuntimeVpnRules order vpnRules }

def processVpnRules (params : Json.Object) (saved : Bool) (s : RuleStore) : RuleStore :=
  match VpnRules.parse J params with
  | some vpnRules =>
    (s.saveVpnRulesToFile J order saved vpnRules).configureRuntimeVpnRules order vpnRules
  | none => s

end RuleStore

/-! ## 4. Storage -/

namespace VpnRules

variable {J : OrgJson} {order : HashOrder}

theorem keyed_entrySet {α : Type} {m : List (String × α)} (h : Keyed m) :
    Keyed (order.entrySet m) := ((order.perm m).map Prod.fst).nodup_iff.mpr h

/-- A map that was parsed is one. -/
theorem keyed_of_parseRulesCategory {o : Json.Object} {rules : RuleTexts}
    (h : parseRulesCategory J o = some rules) : Keyed rules := by
  have hkeeps : ∀ (o : Json.Object) (m rules : RuleTexts), Keyed m →
      o.foldlM (fun m f => (versionRules J f.2).map fun texts => put f.1 texts m) m = some rules →
        Keyed rules := by
    intro o
    induction o with
    | nil =>
      intro m rules hm hrules
      obtain rfl := Option.some.inj hrules
      exact hm
    | cons f o ih =>
      intro m rules hm hrules
      rw [List.foldlM_cons, Option.bind_eq_bind, Option.bind_eq_some_iff] at hrules
      obtain ⟨m', hm', hrest⟩ := hrules
      obtain ⟨texts, -, rfl⟩ := Option.map_eq_some_iff.mp hm'
      exact ih _ rules (keyed_put hm _ _) hrest
  exact hkeeps o [] rules keyed_nil h

theorem keyed_of_optRulesCategory {o : Json.Object} {name : String} {rules : RuleTexts}
    (h : optRulesCategory J o name = some rules) : Keyed rules := by
  unfold optRulesCategory at h
  split at h
  · exact keyed_of_parseRulesCategory h
  · obtain rfl := Option.some.inj h
    exact keyed_nil

/-- A category as it is written. -/
theorem categoryObject_eq {rules : RuleTexts} (h : Keyed rules) :
    categoryObject order rules =
      (order.entrySet rules).map fun e => (e.1, .arr (e.2.map Json.Value.str)) :=
  foldl_put_of_keyed (keyed_entrySet h) fun texts => Json.Value.arr (texts.map Json.Value.str)

theorem versionRules_strs (texts : List String) :
    versionRules J (.arr (texts.map Json.Value.str)) = some texts := by
  rw [versionRules]
  induction texts with
  | nil => rfl
  | cons t texts ih => rw [List.map_cons, List.mapM_cons, ih, J.asString_str]; rfl

/-- **A category that was written is parsed back**, in the order it was written in. -/
theorem parseRulesCategory_categoryObject {rules : RuleTexts} (h : Keyed rules) :
    parseRulesCategory J (categoryObject order rules) = some (order.entrySet rules) := by
  have hfold : ∀ l m : RuleTexts,
      (l.map fun e => (e.1, Json.Value.arr (e.2.map Json.Value.str))).foldlM
        (fun m f => (versionRules J f.2).map fun texts => put f.1 texts m) m =
          some (putAll m l) := by
    intro l
    induction l with
    | nil => intro m; rfl
    | cons e l ih =>
      intro m
      rw [List.map_cons, List.foldlM_cons, versionRules_strs, Option.map_some,
        Option.bind_eq_bind, Option.bind_some, ih]
      rfl
  rw [categoryObject_eq h, parseRulesCategory, hfold, putAll_of_keyed]
  · rfl
  · exact keyed_entrySet h

theorem proper_categoryObject {rules : RuleTexts} (h : Keyed rules) :
    Json.Proper (.obj (categoryObject order rules)) := by
  rw [categoryObject_eq h]
  refine Json.Proper.obj ?_ ?_
  · rw [List.map_map]
    exact keyed_entrySet h
  · intro f hf
    obtain ⟨e, -, rfl⟩ := List.mem_map.mp hf
    refine Json.Proper.arr (fun v hv => ?_)
    obtain ⟨t, -, rfl⟩ := List.mem_map.mp hv
    exact Json.Proper.str t

/-- A category holds strings only, which nothing happens to. -/
theorem back_categoryObject {rules : RuleTexts} (h : Keyed rules) :
    J.back (.obj (categoryObject order rules)) = .obj (categoryObject order rules) := by
  rw [J.back_obj, categoryObject_eq h]
  simp [J.back_arr, Function.comp_def]

/-- What is written is on one line. -/
theorem readLines_eq_self {cs : List Char} (h : ∀ c ∈ cs, c ≠ '\n' ∧ c ≠ '\r') :
    readLines cs = cs := by
  have hline : ∀ cs : List Char, (∀ c ∈ cs, c ≠ '\n' ∧ c ≠ '\r') → readLine cs = (cs, []) := by
    intro cs
    induction cs with
    | nil => intro _; rfl
    | cons c cs ih =>
      intro h
      obtain ⟨hn, hr⟩ := h c List.mem_cons_self
      have hrest := ih (fun d hd => h d (List.mem_cons_of_mem _ hd))
      rw [readLine, hrest]
      · exact fun heq => hn heq
      · exact fun cs' heq _ => hr heq
      · exact fun heq => hr heq
  cases cs with
  | nil => rw [readLines]
  | cons c cs => rw [readLines, hline _ h, readLines, List.append_nil]

/-- What is parsed is two maps. -/
theorem exists_of_parse {params : Json.Object} {vpnRules : VpnRules}
    (h : parse J params = some vpnRules) :
    ∃ excludeRules includeRules, Keyed excludeRules ∧ Keyed includeRules ∧
      vpnRules = [("exclude", excludeRules), ("include", includeRules)] := by
  obtain ⟨excludeRules, hexclude, h⟩ := Option.bind_eq_some_iff.mp h
  obtain ⟨includeRules, hinclude, h⟩ := Option.bind_eq_some_iff.mp h
  exact ⟨excludeRules, includeRules, keyed_of_optRulesCategory hexclude,
    keyed_of_optRulesCategory hinclude, (Option.some.inj h).symm⟩

variable {excludeRules includeRules : RuleTexts}

theorem keyed_categories : Keyed [("exclude", excludeRules), ("include", includeRules)] := by
  simp [Keyed]

/-- The object that is written. -/
theorem jsonObject_eq : jsonObject order [("exclude", excludeRules), ("include", includeRules)] =
    (order.entrySet [("exclude", excludeRules), ("include", includeRules)]).map
      fun e => (e.1, .obj (categoryObject order e.2)) :=
  foldl_put_of_keyed (keyed_entrySet keyed_categories) fun rules =>
    Json.Value.obj (categoryObject order rules)

/-- A property of both categories, in whichever order they come. -/
theorem forall_mem_entrySet {P : RuleTexts → Prop} (hexclude : P excludeRules)
    (hinclude : P includeRules) :
    ∀ e ∈ order.entrySet [("exclude", excludeRules), ("include", includeRules)], P e.2 := by
  intro e he
  rcases List.mem_pair.mp ((order.perm _).mem_iff.mp he) with rfl | rfl
  · exact hexclude
  · exact hinclude

/-- **The object that is written is parsed back.** -/
theorem parse_jsonObject (hexclude : Keyed excludeRules) (hinclude : Keyed includeRules) :
    J.parse (writeDataToStream J order [("exclude", excludeRules), ("include", includeRules)]) =
      some (jsonObject order [("exclude", excludeRules), ("include", includeRules)]) := by
  have hproper : Json.Proper
      (.obj (jsonObject order [("exclude", excludeRules), ("include", includeRules)])) := by
    rw [jsonObject_eq]
    refine Json.Proper.obj ?_ ?_
    · rw [List.map_map]
      exact keyed_entrySet keyed_categories
    · intro f hf
      obtain ⟨e, he, rfl⟩ := List.mem_map.mp hf
      exact proper_categoryObject (forall_mem_entrySet hexclude hinclude e he)
  rw [writeDataToStream, J.parse_toString _ hproper, jsonObject_eq, List.map_map]
  congr 1
  refine List.map_congr_left (fun e he => ?_)
  simp [back_categoryObject (forall_mem_entrySet (P := Keyed) hexclude hinclude e he)]

/-- The categories of the object that is written. -/
theorem lookup_jsonObject {name : String} {rules : RuleTexts}
    (h : [("exclude", excludeRules), ("include", includeRules)].lookup name = some rules) :
    (jsonObject order [("exclude", excludeRules), ("include", includeRules)]).lookup name =
      some (.obj (categoryObject order rules)) := by
  have hmem := (lookup_eq_some_iff keyed_categories).mp h
  have hkeyed :
      Keyed (jsonObject order [("exclude", excludeRules), ("include", includeRules)]) := by
    rw [jsonObject_eq, Keyed, List.map_map]
    exact keyed_entrySet keyed_categories
  rw [lookup_eq_some_iff hkeyed, jsonObject_eq, List.mem_map]
  exact ⟨(name, rules), (order.perm _).mem_iff.mpr hmem, rfl⟩

/-- **What is read is what was written**, up to the order of the packages. -/
theorem read_write (hexclude : Keyed excludeRules) (hinclude : Keyed includeRules) :
    readDataFromStream J
        (writeDataToStream J order [("exclude", excludeRules), ("include", includeRules)]) =
      some [("exclude", order.entrySet excludeRules),
        ("include", order.entrySet includeRules)] := by
  have hline : readLines (writeDataToStream J order
      [("exclude", excludeRules), ("include", includeRules)]).toList = _ :=
    readLines_eq_self (J.oneLine _)
  rw [readDataFromStream, hline, String.ofList_toList, parse_jsonObject hexclude hinclude]
  have hread : ∀ name rules, Keyed rules →
      [("exclude", excludeRules), ("include", includeRules)].lookup name = some rules →
      optRulesCategory J
        (jsonObject order [("exclude", excludeRules), ("include", includeRules)]) name =
          some (order.entrySet rules) := by
    intro name rules hkeyed hrules
    rw [optRulesCategory, OrgJson.optJSONObject, lookup_jsonObject hrules]
    exact parseRulesCategory_categoryObject hkeyed
  rw [Option.bind_eq_bind, Option.bind_some, hread "exclude" _ hexclude rfl,
    hread "include" _ hinclude rfl]
  rfl

/-! ## 5. Decisions -/

/-- The rules a package gets, if it gets any. -/
def parsedRules (texts : List String) : Option (List VersionRule) :=
  if VersionRule.parseVersionRules texts = [] then none
  else some (VersionRule.parseVersionRules texts)

theorem configureCategory_eq {rules : RuleTexts} (h : Keyed rules) :
    configureCategory order (some rules) =
      (order.entrySet rules).filterMap fun e => (parsedRules e.2).map (e.1, ·) := by
  have hentries : Keyed (order.entrySet rules) := keyed_entrySet h
  have hput := @putAll_of_keyed _ _ _ [] _ (keyed_filterMap hentries parsedRules)
  rw [List.nil_append, putAll, List.foldl_filterMap] at hput
  rw [← hput, configureCategory]
  congr 1
  funext m e
  by_cases hnone : VersionRule.parseVersionRules e.2 = [] <;> simp [parsedRules, hnone]

/-- The rules of a package do not depend on the order of the map. -/
theorem rulesFor_configureCategory_perm {rules rules' : RuleTexts} (h : Keyed rules)
    (hperm : rules'.Perm rules) (packageName : String) :
    rulesFor (configureCategory order (some rules')) packageName =
      rulesFor (configureCategory order (some rules)) packageName := by
  have h' : Keyed rules' := (hperm.map Prod.fst).nodup_iff.mpr h
  have hentries : (order.entrySet rules').Perm (order.entrySet rules) :=
    (order.perm rules').trans (hperm.trans (order.perm rules).symm)
  rw [rulesFor, rulesFor, configureCategory_eq h, configureCategory_eq h',
    lookup_perm (keyed_filterMap (keyed_entrySet h') parsedRules) (hentries.filterMap _)]

end VpnRules

open VpnRules in
/-- **Rules survive storage.**  Whatever rules a parameters object holds: when they have been saved,
the next start reads rules from the file that decide the same for every package and version as the
rules that were put in place at once.  An object that cannot be parsed changes nothing. -/
theorem rules_survive_storage (J : OrgJson) (order : HashOrder) (params : Json.Object) :
    (∀ vpnRules, parse J params = some vpnRules → ∀ (s : RuleStore) (d : Device)
        (packageName : String) (versionCode : ℤ),
      let direct := s.configureRuntimeVpnRules order vpnRules
      let saved := s.saveVpnRulesToFile J order true vpnRules
      let loaded := saved.configureRuntimeVpnRules order (saved.readVpnRulesFromFile J)
      { d with runtime := loaded.runtime }.matchesAlwaysExcludeRule packageName versionCode =
          { d with runtime := direct.runtime }.matchesAlwaysExcludeRule packageName versionCode ∧
        { d with runtime := loaded.runtime }.matchesAlwaysIncludeRule packageName versionCode =
          { d with runtime := direct.runtime }.matchesAlwaysIncludeRule packageName versionCode) ∧
      (parse J params = none → ∀ (saved : Bool) (s : RuleStore),
        s.processVpnRules J order params saved = s) := by
  constructor
  · intro vpnRules hparse s d packageName versionCode direct saved loaded
    obtain ⟨excludeRules, includeRules, hexclude, hinclude, rfl⟩ := exists_of_parse hparse
    have hread : saved.readVpnRulesFromFile J =
        [("exclude", order.entrySet excludeRules), ("include", order.entrySet includeRules)] := by
      simp [saved, RuleStore.saveVpnRulesToFile, RuleStore.readVpnRulesFromFile,
        read_write hexclude hinclude]
    have hsame : ∀ rules : RuleTexts, Keyed rules →
        rulesFor (configureCategory order (some (order.entrySet rules))) packageName =
          rulesFor (configureCategory order (some rules)) packageName :=
      fun rules h => rulesFor_configureCategory_perm h (order.perm rules) packageName
    constructor
    · have h := hsame excludeRules hexclude
      simp only [loaded, hread, direct, RuleStore.configureRuntimeVpnRules,
        VpnRules.configureRuntimeVpnRules, Device.matchesAlwaysExcludeRule,
        Device.getVpnExclusionRulesForPackage, List.lookup_cons_self, h]
    · have h := hsame includeRules hinclude
      have hlookup : ∀ a b : RuleTexts,
          [("exclude", a), ("include", b)].lookup "include" = some b :=
        fun _ _ => rfl
      simp only [loaded, hread, direct, RuleStore.configureRuntimeVpnRules,
        VpnRules.configureRuntimeVpnRules, Device.matchesAlwaysIncludeRule,
        Device.getVpnInclusionRulesForPackage, hlookup, h]
  · intro hnone saved s
    rw [RuleStore.processVpnRules, hnone]

end ShiroKhorshid.Apps
