/-
# Rules as they are written (`VersionRule.parseVersionRules`)

A rule comes as a text: `*`, a comparison such as `>=100`, a range such as `[100-200]`, or one
version.  A text that is none of these, or whose numbers do not fit an `int`, is skipped.

* **The shapes** are tried in the order of the source: everything, a range, a comparison, one
  version.  A text has one of these shapes at most, so that a comparison whose number does not fit,
  with which the source goes on, finds nothing after it.
* **The expressions** that the source asks are read off here: a range is a bracket, digits, a minus,
  digits and a bracket; a comparison is one of the operators and digits, with nothing before or
  after (`rangeGroups`, `comparisonGroups`).  A digit is one of any script, as it is for `\d` on
  Android and for `parseInt`.
* **A range** whose ends are the wrong way round is skipped as well.

The module has the code.  That a text stands for the versions one reads into it, and for none if it
is skipped, is in `RuleSemantics`.
-/
import ShiroKhorshid.Apps.Rules

namespace ShiroKhorshid.Apps

open Jvm

namespace VersionRule

/-- `\d`: a decimal digit of any script. -/
def isDigit (c : Char) : Bool := (digit c).isSome

/-- The groups of `\[(\d+)-(\d+)\]`. -/
def rangeGroups : List Char → Option (List Char × List Char)
  | '[' :: cs =>
    match cs.span isDigit with
    | (min, '-' :: cs) =>
      match cs.span isDigit with
      | (max, [']']) => if min = [] ∨ max = [] then none else some (min, max)
      | _ => none
    | _ => none
  | _ => none

/-- A number and nothing else. -/
def isNumber (cs : List Char) : Bool := cs ≠ [] && cs.all isDigit

/-- The groups of `(>=|>|<=|<)(\d+)`. -/
def comparisonGroups : List Char → Option (Operator × List Char)
  | '>' :: '=' :: cs => if isNumber cs then some (.GTE, cs) else none
  | '>' :: cs => if isNumber cs then some (.GT, cs) else none
  | '<' :: '=' :: cs => if isNumber cs then some (.LTE, cs) else none
  | '<' :: cs => if isNumber cs then some (.LT, cs) else none
  | _ => none

/-- `Integer.parseInt` of a group. -/
def parseGroup (cs : List Char) : Option ℤ := parseInt (String.ofList cs)

/-- `new RangeRule(min, max)`, if both are numbers in their order. -/
def rangeRule (min max : List Char) : Option VersionRule := do
  let min ← parseGroup min
  let max ← parseGroup max
  if min ≤ max then some (.range min max) else none

def parseVersionRule (ruleString : String) : Option VersionRule :=
  let rule := (javaTrim ruleString).toList
  if rule = [] then none
  else if rule = ['*'] then some .any
  else
    match rangeGroups rule with
    | some (min, max) => rangeRule min max
    | none =>
      -- a comparison whose number does not fit does not pass for one version either
      match comparisonGroups rule with
      | some (operator, value) => (parseGroup value).map (.comparison operator)
      | none => if isNumber rule then (parseGroup rule).map .exact else none

/-- The rules of the texts that are one, in order. -/
def parseVersionRules (ruleStrings : List String) : List VersionRule :=
  ruleStrings.filterMap parseVersionRule

end VersionRule

end ShiroKhorshid.Apps
