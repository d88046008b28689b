/-
# Tunnel statistics (`TunnelStatistics`, `TunnelStatisticsStore`)

The service tells the dashboard what Conduit is doing in one line.  The line and those before it
are kept in a preference, as JSON: every update reads the record, puts the line it has in front of
the history, keeps eight entries and writes the record back.  Reading drops blank entries.

* **A record is read back** from the object it is written to, and from the text that is stored
  (`fromJson_toJson`, `load_save`), as long as it holds no blank entry; and no record that comes
  about does (`Shows`).
* **One update** puts the line in front unless it is the one that is there
  (`Shows.setConduitStatusLineParsed`); a blank line changes nothing.
* **Any number of updates** leave the first nine of what was said, without the repetitions
  (`shows_foldl`, by induction from the last one, which is the one that is shown first).

`shown` is what the dashboard has to show, the newest line first.  `status_line_history`: after any
updates it is what was last said, nine lines at most, a line said again at once counting once; and
no record that comes about is changed by being read back.

JSON is a parameter with the laws of `OrgJson`.  The updates come one after the other, as on the
main thread; the other fields of the record are kept as they are.
-/
import Mathlib.Data.List.Destutter
import ShiroKhorshid.OrgJson
import ShiroKhorshid.Service.Config

namespace ShiroKhorshid.Conduit

open Jvm Service

/-! ## 1. The record -/

/-- `TunnelStatistics` -/
structure TunnelStatistics where
  connectedTunnelProtocol : String
  conduitStatusLine : String
  conduitStatusHistory : List String
  conduitStatusUpdatedAt : Int64
deriving DecidableEq

namespace TunnelStatistics

/-- `MAX_HISTORY_STORED` -/
def maxHistoryStored : ℕ := 8

/-- `TunnelStatistics.empty` -/
def empty : TunnelStatistics := ⟨"", "", [], 0⟩

/-- `toJson` -/
def toJson (v : TunnelStatistics) : Json.Object :=
  [("connectedTunnelProtocol", .str v.connectedTunnelProtocol),
    ("conduitStatusLine", .str v.conduitStatusLine),
    ("conduitStatusHistory", .arr (v.conduitStatusHistory.map .str)),
    ("conduitStatusUpdatedAt", .int v.conduitStatusUpdatedAt.toInt)]

/-- `fromJson`, which reads whatever the object holds. -/
def fromJson (J : OrgJson.WithLong) (obj : Json.Object) : TunnelStatistics where
  connectedTunnelProtocol := J.optString obj "connectedTunnelProtocol" ""
  conduitStatusLine := J.optString obj "conduitStatusLine" ""
  conduitStatusHistory :=
    match OrgJson.optJSONArray obj "conduitStatusHistory" with
    | some arr => (arr.map fun x => (J.asString x).getD "").filter fun entry => !isBlank entry
    | none => []
  conduitStatusUpdatedAt := J.optLong obj "conduitStatusUpdatedAt" 0

/-- What there is to show: the current line, if it says anything, and the history.  An update puts
this in the history (`buildList`). -/
def shown (v : TunnelStatistics) : List String :=
  if isBlank v.conduitStatusLine then v.conduitStatusHistory
  else v.conduitStatusLine :: v.conduitStatusHistory

end TunnelStatistics

open TunnelStatistics

/-! ## 2. The store -/

/-- `TunnelStatisticsStore`: the preferences behind it, whether it has its context, and the flow
the screens watch. -/
structure TunnelStatisticsStore where
  prefs : Preferences
  initialized : Bool
  flow : TunnelStatistics

namespace TunnelStatisticsStore

variable (J : OrgJson.WithLong)

/-- `PREFS_KEY` -/
def prefsKey : String := "tunnel_statistics_json"

/-- `load`: a text that is no object reads as the empty statistics. -/
def load (s : TunnelStatisticsStore) : TunnelStatistics :=
  match s.prefs prefsKey with
  | none => empty
  | some raw =>
    match J.parse raw with
    | some obj => fromJson J obj
    | none => empty

/-- `init` -/
def init (s : TunnelStatisticsStore) : TunnelStatisticsStore :=
  if s.initialized then s else { s with initialized := true, flow := s.load J }

/-- `save` -/
def save (s : TunnelStatisticsStore) (stats : TunnelStatistics) : TunnelStatisticsStore :=
  { s with
    prefs := Function.update s.prefs prefsKey (some (J.toString stats.toJson))
    flow := stats }

/-- `markDisconnected` -/
def markDisconnected (s : TunnelStatisticsStore) : TunnelStatisticsStore :=
  (s.init J).save J empty

/-- `setConduitStatusLineParsed`; `now` is what the clock says. -/
def setConduitStatusLineParsed (s : TunnelStatisticsStore) (line : String) (now : Int64) :
    TunnelStatisticsStore :=
  if isBlank line then s
  else
    let s := s.init J
    let current := s.load J
    if line = current.conduitStatusLine then s
    else s.save J { current with
      conduitStatusLine := line
      conduitStatusHistory := current.shown.take maxHistoryStored
      conduitStatusUpdatedAt := now }

end TunnelStatisticsStore

open TunnelStatisticsStore

/-! ## 3. A record is read back -/

section ReadBack

variable (J : OrgJson.WithLong)

/-- Reading leaves the history alone when nothing in it is blank. -/
theorem fromJson_toJson {v : TunnelStatistics}
    (h : ∀ entry ∈ v.conduitStatusHistory, isBlank entry = false) : fromJson J v.toJson = v := by
  have hhistory : ((v.conduitStatusHistory.map Json.Value.str).map
      fun x => (J.asString x).getD "").filter (fun entry => !isBlank entry)
        = v.conduitStatusHistory := by
    have hread : (fun x => (J.asString x).getD "") ∘ Json.Value.str = id := by
      funext s
      exact congrArg (Option.getD · "") (J.asString_str s)
    rw [List.map_map, hread, List.map_id, List.filter_eq_self]
    exact fun entry hentry => Bool.not_eq_true' _ ▸ h entry hentry
  have hline : v.toJson.lookup "conduitStatusLine" = some (.str v.conduitStatusLine) := by
    simp [toJson, List.lookup_cons]
  have harray : v.toJson.lookup "conduitStatusHistory"
      = some (.arr (v.conduitStatusHistory.map .str)) := by
    simp [toJson, List.lookup_cons]
  have htime : v.toJson.lookup "conduitStatusUpdatedAt"
      = some (.int v.conduitStatusUpdatedAt.toInt) := by
    simp [toJson, List.lookup_cons]
  unfold fromJson OrgJson.optJSONArray
  rw [harray]
  dsimp only
  rw [hhistory, OrgJson.optString, OrgJson.optString, OrgJson.getString, OrgJson.getString,
    OrgJson.WithLong.optLong, hline, htime, toJson, List.lookup_cons_self]
  simp

/-- Writing keeps every member as it is. -/
theorem parse_toJson (v : TunnelStatistics) : J.parse (J.toString v.toJson) = some v.toJson := by
  have hproper : Json.Proper (.obj v.toJson) := by
    refine Json.Proper.obj (by simp [toJson]) fun f hf => ?_
    simp only [toJson, List.mem_cons, List.not_mem_nil, or_false] at hf
    rcases hf with rfl | rfl | rfl | rfl
    · exact Json.Proper.str _
    · exact Json.Proper.str _
    · refine Json.Proper.arr fun x hx => ?_
      obtain ⟨s, -, rfl⟩ := List.mem_map.mp hx
      exact Json.Proper.str s
    · exact Json.Proper.int _
  have hback : (v.conduitStatusHistory.map Json.Value.str).map J.back
      = v.conduitStatusHistory.map Json.Value.str := by
    rw [List.map_map]
    exact List.map_congr_left fun s _ => J.back_str s
  rw [J.parse_toString _ hproper]
  simp [toJson, J.back_arr, hback]

@[simp] theorem load_init (s : TunnelStatisticsStore) : (s.init J).load J = s.load J := by
  unfold TunnelStatisticsStore.init
  split <;> rfl

/-- What is saved is what is read next. -/
theorem load_save (s : TunnelStatisticsStore) {v : TunnelStatistics}
    (h : ∀ entry ∈ v.conduitStatusHistory, isBlank entry = false) : (s.save J v).load J = v := by
  have hraw : (s.save J v).prefs prefsKey = some (J.toString v.toJson) := by simp [save]
  rw [load, hraw]
  dsimp only
  rw [parse_toJson J v]
  exact fromJson_toJson J h

end ReadBack

/-! ## 4. What the updates leave -/

/-- A sequence with its repetitions collapsed, from the front. -/
theorem destutter_cons_ne {α : Type*} [DecidableEq α] (x : α) (ys : List α) :
    (x :: ys).destutter (· ≠ ·) =
      if ys.head? = some x then ys.destutter (· ≠ ·) else x :: ys.destutter (· ≠ ·) := by
  cases ys with
  | nil => rfl
  | cons y ys =>
    rw [List.destutter_cons_cons, List.destutter_cons']
    by_cases h : x = y
    · subst h
      simp
    · have h' : ¬ y = x := fun e => h e.symm
      simp [h, h']

theorem head?_destutter_ne {α : Type*} [DecidableEq α] (xs : List α) :
    (xs.destutter (· ≠ ·)).head? = xs.head? := by
  induction xs with
  | nil => rfl
  | cons x xs ih =>
    rw [destutter_cons_ne]
    split
    · rename_i h
      rw [ih, h, List.head?_cons]
    · rfl

/-- What the calls said, the newest first: blank lines say nothing, and a line said again at once
is said once. -/
def said (calls : List (String × Int64)) : List String :=
  ((calls.map Prod.fst).filter fun line => !isBlank line).reverse.destutter (· ≠ ·)

@[simp] theorem said_nil : said [] = [] := rfl

theorem said_concat (calls : List (String × Int64)) (line : String) (now : Int64) :
    said (calls ++ [(line, now)]) =
      if isBlank line then said calls
      else if (said calls).head? = some line then said calls else line :: said calls := by
  unfold said
  rw [List.map_append, List.filter_append]
  by_cases hblank : isBlank line = true
  · simp [hblank]
  · rw [Bool.not_eq_true] at hblank
    rw [show ([(line, now)].map Prod.fst).filter (fun line => !isBlank line) = [line] by
      simp [hblank], List.reverse_append, List.reverse_singleton, List.singleton_append,
      destutter_cons_ne, head?_destutter_ne, hblank, if_neg Bool.false_ne_true]

/-- **What holds of the record** after updates that said `lines`: it shows nine of them, and it
holds no blank entry. -/
structure Shows (lines : List String) (v : TunnelStatistics) : Prop where
  shown_eq : v.shown = lines.take (maxHistoryStored + 1)
  history_length : v.conduitStatusHistory.length ≤ maxHistoryStored
  not_blank : ∀ entry ∈ v.conduitStatusHistory, isBlank entry = false
  /-- without a line there is no history either -/
  nothing : isBlank v.conduitStatusLine = true →
    v.conduitStatusLine = "" ∧ v.conduitStatusHistory = []

theorem shows_empty : Shows [] empty where
  shown_eq := rfl
  history_length := Nat.zero_le _
  not_blank := fun _ h => absurd h List.not_mem_nil
  nothing := fun _ => ⟨rfl, rfl⟩

/-- The newest line is the current one. -/
theorem Shows.head?_eq_iff {lines : List String} {v : TunnelStatistics} (h : Shows lines v)
    {line : String} (hline : isBlank line = false) :
    lines.head? = some line ↔ line = v.conduitStatusLine := by
  have hhead : lines.head? = v.shown.head? := by
    rw [h.shown_eq]
    cases lines <;> rfl
  rw [hhead, shown]
  cases hblank : isBlank v.conduitStatusLine with
  | true =>
    rw [if_pos rfl, (h.nothing hblank).2]
    refine iff_of_false (Option.some_ne_none line).symm ?_
    rintro rfl
    rw [hblank] at hline
    cases hline
  | false =>
    rw [if_neg Bool.false_ne_true, List.head?_cons, Option.some_inj]
    exact eq_comm

/-- The record, field by field. -/
theorem Shows.fields {lines : List String} {v : TunnelStatistics} (h : Shows lines v) :
    if lines = [] then v.conduitStatusLine = "" ∧ v.conduitStatusHistory = []
    else v.conduitStatusLine :: v.conduitStatusHistory = lines.take (maxHistoryStored + 1) := by
  have hshown := h.shown_eq
  rw [shown] at hshown
  cases hblank : isBlank v.conduitStatusLine with
  | true =>
    rw [hblank, if_pos rfl, (h.nothing hblank).2] at hshown
    have hlines : lines = [] := (List.take_eq_nil_iff.mp hshown.symm).resolve_left (by decide)
    rw [if_pos hlines]
    exact h.nothing hblank
  | false =>
    rw [hblank, if_neg Bool.false_ne_true] at hshown
    rw [if_neg, hshown]
    rintro rfl
    cases hshown

theorem Shows.shown_not_blank {lines : List String} {v : TunnelStatistics} (h : Shows lines v) :
    ∀ entry ∈ v.shown, isBlank entry = false := by
  unfold shown
  intro entry hentry
  split at hentry
  · exact h.not_blank entry hentry
  · rename_i hblank
    rcases List.mem_cons.mp hentry with rfl | hentry
    · exact Bool.eq_false_iff.mpr hblank
    · exact h.not_blank entry hentry

/-- **One update.** -/
theorem Shows.setConduitStatusLineParsed {J : OrgJson.WithLong}
    {calls : List (String × Int64)} {s : TunnelStatisticsStore}
    (h : Shows (said calls) (s.load J)) (line : String) (now : Int64) :
    Shows (said (calls ++ [(line, now)])) ((s.setConduitStatusLineParsed J line now).load J) := by
  rw [said_concat]
  unfold TunnelStatisticsStore.setConduitStatusLineParsed
  cases hblank : isBlank line with
  | true => exact h
  | false =>
    rw [if_neg Bool.false_ne_true, if_neg Bool.false_ne_true]
    dsimp only
    rw [load_init]
    by_cases hcurrent : line = (s.load J).conduitStatusLine
    · rw [if_pos hcurrent, if_pos ((h.head?_eq_iff hblank).mpr hcurrent), load_init]
      exact h
    · rw [if_neg hcurrent, if_neg (mt (h.head?_eq_iff hblank).mp hcurrent)]
      have hkept : ∀ entry ∈ (s.load J).shown.take maxHistoryStored, isBlank entry = false :=
        fun entry hentry => h.shown_not_blank entry (List.mem_of_mem_take hentry)
      rw [load_save J _ hkept]
      refine ⟨?_, List.length_take_le _ _, hkept, fun hline => ?_⟩
      · rw [shown, if_neg (by rw [hblank]; exact Bool.false_ne_true), h.shown_eq, List.take_take,
          List.take_succ_cons]
        rfl
      · rw [hblank] at hline
        cases hline

/-- **Any number of updates**, by induction from the last one. -/
theorem shows_foldl {J : OrgJson.WithLong} {s : TunnelStatisticsStore} (h : s.load J = empty)
    (calls : List (String × Int64)) :
    Shows (said calls)
      ((calls.foldl (fun s c => s.setConduitStatusLineParsed J c.1 c.2) s).load J) := by
  induction calls using List.reverseRecOn with
  | nil => exact h ▸ shows_empty
  | append_singleton calls c ih =>
    rw [List.foldl_append]
    exact ih.setConduitStatusLineParsed c.1 c.2

/-- **The history of status lines.**  After a reset and any calls of `setConduitStatusLineParsed`,
the current line and the history are the first nine of what was said, the newest first, and both
are empty if nothing was; the history has eight entries at most, and the record is what it is read
back as, from its object and from the text that is stored. -/
theorem status_line_history (J : OrgJson.WithLong) (s : TunnelStatisticsStore)
    (calls : List (String × Int64)) :
    let v := (calls.foldl (fun s c => s.setConduitStatusLineParsed J c.1 c.2)
      (s.markDisconnected J)).load J
    (if said calls = [] then v.conduitStatusLine = "" ∧ v.conduitStatusHistory = []
      else v.conduitStatusLine :: v.conduitStatusHistory = (said calls).take 9) ∧
      v.conduitStatusHistory.length ≤ 8 ∧ fromJson J v.toJson = v ∧
      (J.parse (J.toString v.toJson)).map (fromJson J) = some v := by
  intro v
  have hreset : (s.markDisconnected J).load J = empty :=
    load_save J _ fun _ h => absurd h List.not_mem_nil
  have hshows : Shows (said calls) v := shows_foldl hreset calls
  have hback := fromJson_toJson J hshows.not_blank
  refine ⟨hshows.fields, hshows.history_length, hback, ?_⟩
  rw [parse_toJson, Option.map_some, hback]

example : said [("a", 1), ("b", 2), (" ", 3), ("b", 4), ("a", 5)] = ["a", "b", "a"] := by decide

end ShiroKhorshid.Conduit
