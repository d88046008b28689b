/-
# Log entries (`MyLog`, `LogEntry`)

A status log names a string resource and its format arguments, and says how sensitive they are; a
diagnostic log is a message with some data.  Either is stored as one JSON text with a priority and
a time.

* **What is logged** (`Logged`) is turned into the text by `storeLog`, as an object with the members
  of its kind.
* **What is read** is the entries before a time, the newest first, and of one time the last
  inserted first.  Two tables that are related row by row are read in the same order where related
  rows are of the same time (`getLogsBeforeDate_forall₂`), which is what a comparison of two runs
  needs.

The JSON library is a parameter (`OrgJson`).  Deleting old entries and the cursors that pages are
read through are not modelled.
-/
import Mathlib.Data.List.Forall2
import ShiroKhorshid.OrgJson
import ShiroKhorshid.Lib.Linked

namespace ShiroKhorshid.Log

/-! ## 1. What is logged -/

namespace Sensitivity

def NOT_SENSITIVE : ℤ := 1

/-- The message itself is sensitive. -/
def SENSITIVE_LOG : ℤ := 2

/-- The format arguments are sensitive, the message is not. -/
def SENSITIVE_FORMAT_ARGS : ℤ := 4

end Sensitivity

/-- A row of the log table. -/
structure LogEntry where
  logJson : String
  isDiagnostic : Bool
  priority : ℤ
  timestamp : ℤ
deriving DecidableEq

/-- A call of the logger.  The name of a status log is that of its string resource; the format
arguments and the data are what `org.json` writes for the objects that were given. -/
inductive Logged
  | status (stringResourceName : String) (formatArgs : List Json.Value) (sensitivity priority : ℤ)
      (timestamp : ℤ)
  | diagnostic (msg : String) (nameValuePairs : List (String × Json.Value)) (priority timestamp : ℤ)

variable (J : OrgJson)

/-- The object of `storeStatusLog`. -/
def statusObject (stringResourceName : String) (formatArgs : List Json.Value) (sensitivity : ℤ) :
    Json.Object :=
  [("stringResourceName", .str stringResourceName), ("sensitivity", .int sensitivity),
    ("formatArgs", if formatArgs = [] then .null else .arr formatArgs)]

/-- The object of `storeDiagnosticLog`. -/
def diagnosticObject (msg : String) (nameValuePairs : List (String × Json.Value)) : Json.Object :=
  [("msg", .str msg), ("data", .obj (Linked.putAll [] nameValuePairs))]

/-- What is stored. -/
def storeLog : Logged → LogEntry
  | .status stringResourceName formatArgs sensitivity priority timestamp =>
      ⟨J.toString (statusObject stringResourceName formatArgs sensitivity), false, priority,
        timestamp⟩
  | .diagnostic msg nameValuePairs priority timestamp =>
      ⟨J.toString (diagnosticObject msg nameValuePairs), true, priority, timestamp⟩

/-! ## 2. What is read -/

/-- `getLogsBeforeDate`, for a path that matches `all/#`; entries of one time come last first, as
the index on the time is gone through backwards. -/
def getLogsBeforeDate (rows : List LogEntry) (beforeDateMillis : ℤ) : List LogEntry :=
  (rows.filter (·.timestamp < beforeDateMillis)).reverse.mergeSort
    fun a b => b.timestamp ≤ a.timestamp

/-- `s.length()`: the number of UTF-16 units. -/
def length (s : String) : ℕ := (s.toList.map fun c => if c.toNat < 0x10000 then 1 else 2).sum

/-- **Two tables that are related row by row are read in the same order**, if related rows are of
the same time. -/
theorem getLogsBeforeDate_forall₂ {R : LogEntry → LogEntry → Prop}
    (htime : ∀ a b, R a b → a.timestamp = b.timestamp) {rows rows' : List LogEntry}
    (h : List.Forall₂ R rows rows') (before : ℤ) :
    List.Forall₂ R (getLogsBeforeDate rows before) (getLogsBeforeDate rows' before) := by
  -- both are read off the list of pairs
  obtain ⟨pairs, hpairs, rfl, rfl⟩ : ∃ pairs : List (LogEntry × LogEntry),
      (∀ p ∈ pairs, R p.1 p.2) ∧ pairs.map Prod.fst = rows ∧ pairs.map Prod.snd = rows' := by
    induction h with
    | nil => exact ⟨[], by simp⟩
    | cons hab _ ih =>
      obtain ⟨pairs, hpairs, rfl, rfl⟩ := ih
      refine ⟨(_, _) :: pairs, ?_, rfl, rfl⟩
      rintro p hp
      rcases List.mem_cons.mp hp with rfl | hp
      · exact hab
      · exact hpairs p hp
  have hfilter : ∀ l : List (LogEntry × LogEntry), (∀ p ∈ l, R p.1 p.2) →
      (l.map Prod.snd).filter (·.timestamp < before) =
        (l.filter (·.1.timestamp < before)).map Prod.snd := by
    intro l hl
    rw [List.filter_map]
    congr 1
    refine List.filter_congr (fun p hp => ?_)
    simp [htime p.1 p.2 (hl p hp)]
  let cursor := (pairs.filter (·.1.timestamp < before)).reverse
  have hcursor : ∀ p ∈ cursor, R p.1 p.2 := fun p hp =>
    hpairs p (List.mem_of_mem_filter (List.mem_reverse.mp hp))
  have hfst : getLogsBeforeDate (pairs.map Prod.fst) before =
      (cursor.mergeSort fun p q => q.1.timestamp ≤ p.1.timestamp).map Prod.fst := by
    rw [getLogsBeforeDate, List.filter_map, ← List.map_reverse]
    refine (List.map_mergeSort (fun p hp q hq => ?_)).symm
    rfl
  have hsnd : getLogsBeforeDate (pairs.map Prod.snd) before =
      (cursor.mergeSort fun p q => q.1.timestamp ≤ p.1.timestamp).map Prod.snd := by
    rw [getLogsBeforeDate, hfilter pairs hpairs, ← List.map_reverse]
    refine (List.map_mergeSort (fun p hp q hq => ?_)).symm
    rw [htime p.1 p.2 (hcursor p hp), htime q.1 q.2 (hcursor q hq)]
  rw [hfst, hsnd, List.forall₂_map_left_iff, List.forall₂_map_right_iff, List.forall₂_same]
  intro p hp
  exact hcursor p (List.mem_mergeSort.mp hp)

end ShiroKhorshid.Log
