/-
# What rules mean (`VpnRulesHelper.matchesAlwaysExcludeRule`)

The comment in `processVpnRules` explains the rules: `*` is every version, `>=100` is the versions
from 100 on, `[100-200]` those from 100 to 200, and so on.  `Denotes` is that explanation.  The code
parses the texts, keeps what it could parse in maps and tries one rule after the other.

* **The parser.**  The two expressions of the source are searched by hand, `rangeGroups` and
  `comparisonGroups`, and each finds the digits and nothing else (`rangeGroups_eq_some_iff`,
  `comparisonGroups_eq_some_iff`).  An operator that begins with another one is tried first.
* **One rule.**  Where a text parses, the rule matches the versions it stands for, and a text that
  does not parse stands for none (`matches_iff_denotes`).
* **The rules of a package.**  Built-in and runtime rules are looked up by package, and a match is
  one of any of them; so the order, repetitions and the way the maps are filled do not matter
  (`rules_denote`).

Numbers that do not fit an `int` are no numbers: such a text is skipped, and `Denotes` says so of it
as well.
-/
import Mathlib.Data.List.TakeDrop
import ShiroKhorshid.Apps.RuleStorage
import ShiroKhorshid.Dotted

namespace ShiroKhorshid.Apps

open Jvm Linked Dotted

/-! ## 1. The versions of a rule -/

/-- A number that fits an `int`. -/
def Number : NumberFormat := fun cs n => unsignedDecimal cs = some n ∧ n < 2 ^ 31

/-- The version is one of those that the text stands for. -/
inductive Denotes : List Char → ℤ → Prop
  | any {v : ℤ} : Denotes ['*'] v
  | atLeast {cs : List Char} {n : ℕ} {v : ℤ} : Number cs n → n ≤ v → Denotes ('>' :: '=' :: cs) v
  | above {cs : List Char} {n : ℕ} {v : ℤ} : Number cs n → n < v → Denotes ('>' :: cs) v
  | atMost {cs : List Char} {n : ℕ} {v : ℤ} : Number cs n → v ≤ n → Denotes ('<' :: '=' :: cs) v
  | below {cs : List Char} {n : ℕ} {v : ℤ} : Number cs n → v < n → Denotes ('<' :: cs) v
  | range {min max : List Char} {a b : ℕ} {v : ℤ} : Number min a → Number max b → a ≤ v → v ≤ b →
    Denotes ('[' :: (min ++ '-' :: (max ++ [']']))) v
  | exact {cs : List Char} {n : ℕ} {v : ℤ} : Number cs n → v = n → Denotes cs v

namespace VersionRule

/-! ## 2. The parser -/

theorem isNumber_iff {cs : List Char} : isNumber cs = true ↔ ∃ n, unsignedDecimal cs = some n := by
  have hfrom : ∀ (cs : List Char) (m : ℕ), cs.all isDigit = true →
      ∃ n, digitsFrom m cs = some n := by
    intro cs
    induction cs with
    | nil => exact fun m _ => ⟨m, rfl⟩
    | cons c cs ih =>
      intro m h
      rw [List.all_cons, Bool.and_eq_true] at h
      obtain ⟨d, hd⟩ := Option.isSome_iff_exists.mp h.1
      rw [digitsFrom, hd]
      exact ih _ h.2
  rw [isNumber, Bool.and_eq_true, decide_eq_true_eq]
  constructor
  · rintro ⟨hne, hall⟩
    cases cs with
    | nil => exact absurd rfl hne
    | cons c cs => exact hfrom (c :: cs) 0 hall
  · rintro ⟨n, hn⟩
    refine ⟨?_, List.all_eq_true.mpr fun c hc => ?_⟩
    · rintro rfl
      cases hn
    · exact Option.isSome_iff_ne_none.mpr (isDigit_of_unsignedDecimal hn c hc)

theorem isDigit_of_isNumber {cs : List Char} (h : isNumber cs = true) :
    ∀ c ∈ cs, isDigit c = true :=
  List.all_eq_true.mp (Bool.and_eq_true_iff.mp h).2

theorem isNumber_of_number {cs : List Char} {n : ℕ} (h : Number cs n) : isNumber cs = true :=
  isNumber_iff.mpr ⟨n, h.1⟩

/-- The number of a group, if it fits. -/
theorem parseGroup_eq_some_iff {cs : List Char} (h : isNumber cs = true) {v : ℤ} :
    parseGroup cs = some v ↔ ∃ n : ℕ, v = n ∧ Number cs n := by
  obtain ⟨m, hm⟩ := isNumber_iff.mp h
  have hdigits := isDigit_of_unsignedDecimal hm
  have hvalue : ∀ n : ℕ, Lenient cs n → unsignedDecimal cs = some n := by
    intro n hn
    cases hn with
    | digits hn => exact hn
    | plus => exact absurd (hdigits '+' List.mem_cons_self) (not_isDigit_of_lt (by decide))
    | minus => exact absurd (hdigits '-' List.mem_cons_self) (not_isDigit_of_lt (by decide))
  constructor
  · intro hv
    have hsigned : parseDecimal (-2 ^ 31) (2 ^ 31 - 1) cs = some v := by
      rwa [parseGroup, parseInt, String.toList_ofList] at hv
    have hnonneg : 0 ≤ v := by
      obtain ⟨hsome, -⟩ := Option.filter_eq_some_iff.mp hsigned
      split at hsome
      · exact absurd (hdigits '-' List.mem_cons_self) (not_isDigit_of_lt (by decide))
      · exact absurd (hdigits '+' List.mem_cons_self) (not_isDigit_of_lt (by decide))
      · obtain ⟨w, hw, rfl⟩ := Option.map_eq_some_iff.mp hsome
        obtain ⟨n, -, hn⟩ := Option.bind_eq_some_iff.mp hw
        obtain rfl : (n : ℤ) = w := Option.some.inj hn
        exact Int.natCast_nonneg n
    obtain ⟨n, rfl⟩ := Int.eq_ofNat_of_zero_le hnonneg
    have hlt : n < 2 ^ 31 := by
      have := (parseInt_range hv).2
      omega
    exact ⟨n, rfl, hvalue n ((parseInt_eq_some_iff hlt).mp hv), hlt⟩
  · rintro ⟨n, rfl, hn, hlt⟩
    exact (parseInt_eq_some_iff hlt).mpr (Lenient.digits hn)

theorem span_digits {cs rest : List Char} (hcs : ∀ c ∈ cs, isDigit c = true)
    (hrest : ∀ c ∈ rest.head?, isDigit c = false) : (cs ++ rest).span isDigit = (cs, rest) := by
  rw [List.span_eq_takeWhile_dropWhile]
  cases rest with
  | nil =>
    rw [List.append_nil, List.takeWhile_eq_self_iff.mpr hcs, List.dropWhile_eq_nil_iff.mpr hcs]
  | cons c rest =>
    have hc := hrest c rfl
    rw [List.takeWhile_append_of_pos hcs, List.dropWhile_append_of_pos hcs,
      List.takeWhile_cons_of_neg (Bool.eq_false_iff.mp hc),
      List.dropWhile_cons_of_neg (Bool.eq_false_iff.mp hc), List.append_nil]

theorem span_eq_iff {cs ds rest : List Char} :
    cs.span isDigit = (ds, rest) ↔
      cs = ds ++ rest ∧ (∀ c ∈ ds, isDigit c = true) ∧ ∀ c ∈ rest.head?, isDigit c = false := by
  constructor
  · intro h
    rw [List.span_eq_takeWhile_dropWhile] at h
    obtain ⟨rfl, rfl⟩ := Prod.mk.inj h
    refine ⟨List.takeWhile_append_dropWhile.symm, fun c hc => List.mem_takeWhile_imp hc, ?_⟩
    intro c hc
    have hhead := List.head?_dropWhile_not isDigit cs
    rw [hc] at hhead
    simpa using hhead
  · rintro ⟨rfl, hds, hrest⟩
    exact span_digits hds hrest

theorem isNumber_of_all {cs : List Char} (hne : cs ≠ []) (h : ∀ c ∈ cs, isDigit c = true) :
    isNumber cs = true := by
  rw [isNumber, Bool.and_eq_true, decide_eq_true_eq, List.all_eq_true]
  exact ⟨hne, h⟩

theorem ne_nil_of_isNumber {cs : List Char} (h : isNumber cs = true) : cs ≠ [] := by
  rintro rfl
  cases h

theorem rangeGroups_eq_some_iff {cs min max : List Char} :
    rangeGroups cs = some (min, max) ↔
      cs = '[' :: (min ++ '-' :: (max ++ [']'])) ∧ isNumber min = true ∧ isNumber max = true := by
  constructor
  · intro h
    unfold rangeGroups at h
    split at h
    · split at h
      · rename_i hmin
        split at h
        · rename_i hmax
          split at h
          · cases h
          · rename_i hne
            obtain ⟨rfl, rfl⟩ := Prod.mk.inj (Option.some.inj h)
            obtain ⟨rfl, hdigits, -⟩ := span_eq_iff.mp hmin
            obtain ⟨rfl, hdigits', -⟩ := span_eq_iff.mp hmax
            rw [not_or] at hne
            exact ⟨rfl, isNumber_of_all hne.1 hdigits, isNumber_of_all hne.2 hdigits'⟩
        · cases h
      · cases h
    · cases h
  · rintro ⟨rfl, hmin, hmax⟩
    have hfirst : (min ++ '-' :: (max ++ [']'])).span isDigit = (min, '-' :: (max ++ [']'])) :=
      span_digits (isDigit_of_isNumber hmin) fun c hc => by
        obtain rfl := Option.some.inj hc
        decide
    have hsecond : (max ++ [']']).span isDigit = (max, [']']) :=
      span_digits (isDigit_of_isNumber hmax) fun c hc => by
        obtain rfl := Option.some.inj hc
        decide
    simp only [rangeGroups, hfirst, hsecond]
    rw [if_neg (not_or.mpr ⟨ne_nil_of_isNumber hmin, ne_nil_of_isNumber hmax⟩)]

/-- How an operator is written. -/
def symbol : Operator → List Char
  | .GTE => ['>', '=']
  | .GT => ['>']
  | .LTE => ['<', '=']
  | .LT => ['<']

theorem comparisonGroups_eq_some_iff {cs value : List Char} {operator : Operator} :
    comparisonGroups cs = some (operator, value) ↔
      cs = symbol operator ++ value ∧ isNumber value = true := by
  constructor
  · intro h
    unfold comparisonGroups at h
    split at h
    all_goals first
      | cases h
      | (split at h
         · rename_i hnumber
           obtain ⟨rfl, rfl⟩ := Prod.mk.inj (Option.some.inj h)
           exact ⟨rfl, hnumber⟩
         · cases h)
  · rintro ⟨rfl, hnumber⟩
    have hequals : ∀ cs, value ≠ '=' :: cs := by
      rintro cs rfl
      exact absurd (isDigit_of_isNumber hnumber '=' List.mem_cons_self) (by decide)
    cases operator with
    | GTE => simp [comparisonGroups, symbol, hnumber]
    | LTE => simp [comparisonGroups, symbol, hnumber]
    | GT =>
      rw [symbol, List.singleton_append, comparisonGroups, if_pos hnumber]
      exact hequals
    | LT =>
      rw [symbol, List.singleton_append, comparisonGroups, if_pos hnumber]
      exact hequals

/-! ## 3. One rule -/

/-- A comparison, with the number that was written. -/
theorem denotes_of_comparison {operator : Operator} {value : List Char} {n : ℕ} {v : ℤ}
    (h : Number value n) :
    (comparison operator n).matchesVersion v = true → Denotes (symbol operator ++ value) v := by
  intro hmatch
  cases operator with
  | GT => exact Denotes.above h (of_decide_eq_true hmatch)
  | GTE => exact Denotes.atLeast h (of_decide_eq_true hmatch)
  | LT => exact Denotes.below h (of_decide_eq_true hmatch)
  | LTE => exact Denotes.atMost h (of_decide_eq_true hmatch)

/-- Groups of other forms. -/
theorem rangeGroups_comparison (operator : Operator) (value : List Char) :
    rangeGroups (symbol operator ++ value) = none := by
  cases operator <;> rfl

theorem groups_number {cs : List Char} (h : isNumber cs = true) :
    rangeGroups cs = none ∧ comparisonGroups cs = none ∧ cs ≠ ['*'] := by
  have hdigits := isDigit_of_isNumber h
  refine ⟨?_, ?_, ?_⟩
  · refine Option.eq_none_iff_forall_ne_some.mpr fun groups hsome => ?_
    obtain ⟨rfl, -, -⟩ := rangeGroups_eq_some_iff.mp hsome
    exact absurd (hdigits '[' List.mem_cons_self) (by decide)
  · refine Option.eq_none_iff_forall_ne_some.mpr fun groups hsome => ?_
    obtain ⟨rfl, -⟩ := comparisonGroups_eq_some_iff.mp hsome
    cases hoperator : groups.1 with
    | GT => exact absurd (hdigits '>' (by simp [hoperator, symbol])) (by decide)
    | GTE => exact absurd (hdigits '>' (by simp [hoperator, symbol])) (by decide)
    | LT => exact absurd (hdigits '<' (by simp [hoperator, symbol])) (by decide)
    | LTE => exact absurd (hdigits '<' (by simp [hoperator, symbol])) (by decide)
  · rintro rfl
    cases h

/-- `parseVersionRule`, of a text that is trimmed. -/
theorem parseVersionRule_eq (text : String) (rule : List Char)
    (h : (javaTrim text).toList = rule) :
    parseVersionRule text =
      if rule = [] then none
      else if rule = ['*'] then some .any
      else
        match rangeGroups rule with
        | some (min, max) => rangeRule min max
        | none =>
          match comparisonGroups rule with
          | some (operator, value) => (parseGroup value).map (.comparison operator)
          | none => if isNumber rule then (parseGroup rule).map .exact else none := by
  unfold parseVersionRule
  generalize (javaTrim text).toList = trimmed at h ⊢
  subst h
  rfl

theorem denotes_of_matches {text : String} {r : VersionRule} {v : ℤ}
    (hr : parseVersionRule text = some r) (hmatch : r.matchesVersion v = true) :
    Denotes (javaTrim text).toList v := by
  generalize hrule : (javaTrim text).toList = rule
  rw [parseVersionRule_eq text rule hrule] at hr
  split at hr
  · cases hr
  split at hr
  · rename_i hany
    rw [hany]
    exact Denotes.any
  split at hr
  · rename_i min max hgroups
    obtain ⟨rfl, hmin, hmax⟩ := rangeGroups_eq_some_iff.mp hgroups
    obtain ⟨a, hparsea, hr⟩ := Option.bind_eq_some_iff.mp hr
    obtain ⟨b, hparseb, hr⟩ := Option.bind_eq_some_iff.mp hr
    obtain ⟨a, rfl, ha⟩ := (parseGroup_eq_some_iff hmin).mp hparsea
    obtain ⟨b, rfl, hb⟩ := (parseGroup_eq_some_iff hmax).mp hparseb
    split at hr
    · obtain rfl := Option.some.inj hr
      rw [matchesVersion, Bool.and_eq_true, decide_eq_true_eq, decide_eq_true_eq] at hmatch
      exact Denotes.range ha hb hmatch.1 hmatch.2
    · cases hr
  split at hr
  · rename_i operator value hgroups
    obtain ⟨rfl, hvalue⟩ := comparisonGroups_eq_some_iff.mp hgroups
    obtain ⟨n, hparse, rfl⟩ := Option.map_eq_some_iff.mp hr
    obtain ⟨n, rfl, hn⟩ := (parseGroup_eq_some_iff hvalue).mp hparse
    exact denotes_of_comparison hn hmatch
  split at hr
  · rename_i hnumber
    obtain ⟨n, hparse, rfl⟩ := Option.map_eq_some_iff.mp hr
    obtain ⟨n, rfl, hn⟩ := (parseGroup_eq_some_iff hnumber).mp hparse
    exact Denotes.exact hn (eq_of_beq hmatch)
  · cases hr

/-- The rule of a comparison. -/
theorem parseVersionRule_comparison {text : String} {operator : Operator} {value : List Char}
    {n : ℕ} (htext : (javaTrim text).toList = symbol operator ++ value) (h : Number value n) :
    parseVersionRule text = some (.comparison operator n) := by
  have hnumber := isNumber_of_number h
  have hne : symbol operator ++ value ≠ [] := by
    cases operator <;> exact List.cons_ne_nil _ _
  have hany : symbol operator ++ value ≠ ['*'] := by
    cases operator <;> simp [symbol]
  have hgroups : comparisonGroups (symbol operator ++ value) = some (operator, value) :=
    comparisonGroups_eq_some_iff.mpr ⟨rfl, hnumber⟩
  have hvalue : parseGroup value = some (n : ℤ) :=
    (parseGroup_eq_some_iff hnumber).mpr ⟨n, rfl, h⟩
  rw [parseVersionRule_eq text _ htext, if_neg hne, if_neg hany, rangeGroups_comparison]
  simp only [hgroups, hvalue, Option.map_some]

theorem matches_of_denotes {text : String} {v : ℤ} (h : Denotes (javaTrim text).toList v) :
    ∃ r, parseVersionRule text = some r ∧ r.matchesVersion v = true := by
  generalize hrule : (javaTrim text).toList = rule at h
  cases h with
  | any =>
    refine ⟨.any, ?_, rfl⟩
    rw [parseVersionRule_eq text _ hrule]
    rfl
  | atLeast hn hle =>
    exact ⟨_, @parseVersionRule_comparison _ .GTE _ _ hrule hn, decide_eq_true hle⟩
  | above hn hlt =>
    exact ⟨_, @parseVersionRule_comparison _ .GT _ _ hrule hn, decide_eq_true hlt⟩
  | atMost hn hle =>
    exact ⟨_, @parseVersionRule_comparison _ .LTE _ _ hrule hn, decide_eq_true hle⟩
  | below hn hlt =>
    exact ⟨_, @parseVersionRule_comparison _ .LT _ _ hrule hn, decide_eq_true hlt⟩
  | @range min max a b _ ha hb hav hvb =>
    have hmin := isNumber_of_number ha
    have hmax := isNumber_of_number hb
    have hgroups := rangeGroups_eq_some_iff.mpr ⟨rfl, hmin, hmax⟩
    have ha' := (parseGroup_eq_some_iff hmin).mpr ⟨a, rfl, ha⟩
    have hb' := (parseGroup_eq_some_iff hmax).mpr ⟨b, rfl, hb⟩
    have hle : (a : ℤ) ≤ b := hav.trans hvb
    refine ⟨.range a b, ?_, ?_⟩
    · rw [parseVersionRule_eq text _ hrule, if_neg (List.cons_ne_nil _ _), if_neg (by simp),
        hgroups]
      simp only [rangeRule, ha', hb', Option.bind_eq_bind, Option.bind_some, if_pos hle]
    · rw [matchesVersion, decide_eq_true hav, decide_eq_true hvb]
      rfl
  | @exact _ n _ hn heq =>
    have hnumber := isNumber_of_number hn
    obtain ⟨hrange, hcomparison, hany⟩ := groups_number hnumber
    refine ⟨.exact n, ?_, beq_iff_eq.mpr heq⟩
    rw [parseVersionRule_eq text _ hrule, if_neg (ne_nil_of_isNumber hnumber), if_neg hany, hrange]
    simp only [hcomparison, hnumber, (parseGroup_eq_some_iff hnumber).mpr ⟨n, rfl, hn⟩, if_true,
      Option.map_some]

/-- **What a rule matches** is what its text stands for. -/
theorem matches_iff_denotes {text : String} {v : ℤ} :
    (∃ r, parseVersionRule text = some r ∧ r.matchesVersion v = true) ↔
      Denotes (javaTrim text).toList v := by
  constructor
  · rintro ⟨r, hr, hmatch⟩
    exact denotes_of_matches hr hmatch
  · exact matches_of_denotes

end VersionRule

/-! ## 4. The rules of a package -/

/-- The maps of rules: those that are built in, and those that are configured. -/
structure RuleSources where
  defaultExcluded : RuleTexts
  defaultIncluded : RuleTexts
  vpnRules : VpnRules
  keyedExcluded : Keyed defaultExcluded
  keyedIncluded : Keyed defaultIncluded
  keyedRules : Keyed vpnRules
  keyedCategories : ∀ e ∈ vpnRules, Keyed e.2

namespace RuleSources

variable (order : HashOrder) (s : RuleSources)

/-- The texts of a map, parsed. -/
def parsedTexts (texts : RuleTexts) : RuleMap :=
  texts.map fun e => (e.1, VersionRule.parseVersionRules e.2)

/-- The device with these rules, the ones at run time set by `configureRuntimeVpnRules`. -/
def configured (d : Device) : Device :=
  { d with
    defaults := ⟨parsedTexts s.defaultExcluded, parsedTexts s.defaultIncluded⟩
    runtime := VpnRules.configureRuntimeVpnRules order s.vpnRules }

/-- The built-in rules, as they are written. -/
example : defaultRules =
    ⟨parsedTexts [("ca.psiphon.conduit", ["*"]), ("network.ryve.app", ["*"])], parsedTexts []⟩ :=
  congrArg₂ Rules.mk (by decide) rfl

/-- The text is listed for the package, in the built-in map or under the category. -/
def Listed (defaults : RuleTexts) (category packageName text : String) : Prop :=
  (∃ texts, (packageName, texts) ∈ defaults ∧ text ∈ texts) ∨
    ∃ rules texts, (category, rules) ∈ s.vpnRules ∧ (packageName, texts) ∈ rules ∧ text ∈ texts

def ListedExcluded (packageName text : String) : Prop :=
  s.Listed s.defaultExcluded "exclude" packageName text

def ListedIncluded (packageName text : String) : Prop :=
  s.Listed s.defaultIncluded "include" packageName text

theorem mem_rulesFor_iff {m : RuleMap} (h : Keyed m) {packageName : String} {r : VersionRule} :
    r ∈ rulesFor m packageName ↔ ∃ rules, (packageName, rules) ∈ m ∧ r ∈ rules := by
  simp only [← lookup_eq_some_iff h]
  rw [rulesFor]
  cases m.lookup packageName with
  | none => simp
  | some rules => simp

theorem mem_parseVersionRules_iff {texts : List String} {r : VersionRule} :
    r ∈ VersionRule.parseVersionRules texts ↔
      ∃ t ∈ texts, VersionRule.parseVersionRule t = some r := List.mem_filterMap

theorem mem_rulesFor_parsedTexts_iff {texts : RuleTexts} (h : Keyed texts) {packageName : String}
    {r : VersionRule} :
    r ∈ rulesFor (parsedTexts texts) packageName ↔
      ∃ ts t, (packageName, ts) ∈ texts ∧ t ∈ ts ∧ VersionRule.parseVersionRule t = some r := by
  have hkeyed : Keyed (parsedTexts texts) := by
    rw [Keyed, parsedTexts, List.map_map]
    exact h
  rw [mem_rulesFor_iff hkeyed]
  constructor
  · rintro ⟨rules, hrules, hr⟩
    obtain ⟨⟨name, ts⟩, hts, hpair⟩ := List.mem_map.mp hrules
    obtain ⟨rfl, rfl⟩ := Prod.mk.inj hpair
    obtain ⟨t, ht, hparse⟩ := mem_parseVersionRules_iff.mp hr
    exact ⟨ts, t, hts, ht, hparse⟩
  · rintro ⟨ts, t, hts, ht, hparse⟩
    exact ⟨_, List.mem_map.mpr ⟨_, hts, rfl⟩, mem_parseVersionRules_iff.mpr ⟨t, ht, hparse⟩⟩

theorem mem_rulesFor_configureCategory_iff {texts : RuleTexts} (h : Keyed texts)
    {packageName : String} {r : VersionRule} :
    r ∈ rulesFor (VpnRules.configureCategory order (some texts)) packageName ↔
      ∃ ts t, (packageName, ts) ∈ texts ∧ t ∈ ts ∧ VersionRule.parseVersionRule t = some r := by
  have hentries : Keyed (order.entrySet texts) := VpnRules.keyed_entrySet h
  rw [VpnRules.configureCategory_eq h,
    mem_rulesFor_iff (keyed_filterMap hentries VpnRules.parsedRules)]
  constructor
  · rintro ⟨rules, hrules, hr⟩
    obtain ⟨⟨name, ts⟩, hts, hpair⟩ := List.mem_filterMap.mp hrules
    obtain ⟨rules', hrules', hpair⟩ := Option.map_eq_some_iff.mp hpair
    obtain ⟨rfl, rfl⟩ := Prod.mk.inj hpair
    rw [VpnRules.parsedRules] at hrules'
    split at hrules'
    · cases hrules'
    · obtain rfl := Option.some.inj hrules'
      obtain ⟨t, ht, hparse⟩ := mem_parseVersionRules_iff.mp hr
      exact ⟨ts, t, (order.perm texts).mem_iff.mp hts, ht, hparse⟩
  · rintro ⟨ts, t, hts, ht, hparse⟩
    have hr := mem_parseVersionRules_iff.mpr ⟨t, ht, hparse⟩
    refine ⟨_, List.mem_filterMap.mpr ⟨_, (order.perm texts).mem_iff.mpr hts, ?_⟩, hr⟩
    rw [VpnRules.parsedRules, if_neg (List.ne_nil_of_mem hr)]
    rfl

/-- **The rules of a category** decide by what is listed. -/
theorem any_iff_denotes {defaults : RuleTexts} (hdefaults : Keyed defaults)
    (category packageName : String) (v : ℤ) :
    (rulesFor (parsedTexts defaults) packageName ++
        rulesFor (VpnRules.configureCategory order (s.vpnRules.lookup category)) packageName).any
          (VersionRule.matchesVersion v) = true ↔
      ∃ t, s.Listed defaults category packageName t ∧ Denotes (javaTrim t).toList v := by
  have hruntime : ∀ r, r ∈ rulesFor (VpnRules.configureCategory order
      (s.vpnRules.lookup category)) packageName ↔ ∃ rules ts t, (category, rules) ∈ s.vpnRules ∧
        (packageName, ts) ∈ rules ∧ t ∈ ts ∧ VersionRule.parseVersionRule t = some r := by
    intro r
    simp only [← lookup_eq_some_iff s.keyedRules]
    cases hlookup : s.vpnRules.lookup category with
    | none =>
      have hnone : VpnRules.configureCategory order none =
          VpnRules.configureCategory order (some []) := rfl
      rw [hnone, mem_rulesFor_configureCategory_iff order keyed_nil]
      simp
    | some rules =>
      have hmem := (lookup_eq_some_iff s.keyedRules).mp hlookup
      rw [mem_rulesFor_configureCategory_iff order (s.keyedCategories _ hmem)]
      simp
  simp only [List.any_eq_true, List.mem_append, mem_rulesFor_parsedTexts_iff hdefaults, hruntime,
    ← VersionRule.matches_iff_denotes, Listed]
  constructor
  · rintro ⟨r, ⟨ts, t, hts, ht, hparse⟩ | ⟨rules, ts, t, hrules, hts, ht, hparse⟩, hmatch⟩
    · exact ⟨t, Or.inl ⟨ts, hts, ht⟩, r, hparse, hmatch⟩
    · exact ⟨t, Or.inr ⟨rules, ts, hrules, hts, ht⟩, r, hparse, hmatch⟩
  · rintro ⟨t, ⟨ts, hts, ht⟩ | ⟨rules, ts, hrules, hts, ht⟩, r, hparse, hmatch⟩
    · exact ⟨r, Or.inl ⟨ts, t, hts, ht, hparse⟩, hmatch⟩
    · exact ⟨r, Or.inr ⟨rules, ts, t, hrules, hts, ht, hparse⟩, hmatch⟩

theorem matchesAlwaysExcludeRule_iff (d : Device) (packageName : String) (v : ℤ) :
    (s.configured order d).matchesAlwaysExcludeRule packageName v = true ↔
      ∃ t, s.ListedExcluded packageName t ∧ Denotes (javaTrim t).toList v :=
  s.any_iff_denotes order s.keyedExcluded "exclude" packageName v

theorem matchesAlwaysIncludeRule_iff (d : Device) (packageName : String) (v : ℤ) :
    (s.configured order d).matchesAlwaysIncludeRule packageName v = true ↔
      ∃ t, s.ListedIncluded packageName t ∧ Denotes (javaTrim t).toList v :=
  s.any_iff_denotes order s.keyedIncluded "include" packageName v

/-- The same texts are listed for the package, but for those that stand for no version. -/
def SameRules (s s' : RuleSources) (packageName : String) : Prop :=
  ∀ t v, Denotes (javaTrim t).toList v →
    (s.ListedExcluded packageName t ↔ s'.ListedExcluded packageName t) ∧
      (s.ListedIncluded packageName t ↔ s'.ListedIncluded packageName t)

/-- **Rules mean what they say.**  A rule matches a version exactly if a text that is listed for the
package stands for it; nothing else about the texts and the maps matters, and no order. -/
theorem rules_denote (order : HashOrder) (s : RuleSources) (d : Device) (packageName : String)
    (v : ℤ) :
    ((s.configured order d).matchesAlwaysExcludeRule packageName v = true ↔
        ∃ t, s.ListedExcluded packageName t ∧ Denotes (javaTrim t).toList v) ∧
      ((s.configured order d).matchesAlwaysIncludeRule packageName v = true ↔
        ∃ t, s.ListedIncluded packageName t ∧ Denotes (javaTrim t).toList v) ∧
      ∀ (order' : HashOrder) (s' : RuleSources), SameRules s s' packageName →
        (s'.configured order' d).matchesAlwaysExcludeRule packageName v =
            (s.configured order d).matchesAlwaysExcludeRule packageName v ∧
          (s'.configured order' d).matchesAlwaysIncludeRule packageName v =
            (s.configured order d).matchesAlwaysIncludeRule packageName v := by
  refine ⟨s.matchesAlwaysExcludeRule_iff order d packageName v,
    s.matchesAlwaysIncludeRule_iff order d packageName v, fun order' s' hsame => ⟨?_, ?_⟩⟩
  · rw [Bool.eq_iff_iff, matchesAlwaysExcludeRule_iff, matchesAlwaysExcludeRule_iff]
    exact exists_congr fun t => and_congr_left fun h => (hsame t v h).1.symm
  · rw [Bool.eq_iff_iff, matchesAlwaysIncludeRule_iff, matchesAlwaysIncludeRule_iff]
    exact exists_congr fun t => and_congr_left fun h => (hsame t v h).2.symm

end RuleSources

end ShiroKhorshid.Apps
