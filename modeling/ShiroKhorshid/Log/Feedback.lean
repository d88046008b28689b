/-
# What a feedback upload holds (`createFeedbackData`)

With a feedback the user can send the log.  The worker reads entries until it has read a megabyte,
and copies what it may: a diagnostic entry whole, a status entry without its arguments if these are
sensitive, and nothing of a status entry that is sensitive itself.

That nothing sensitive leaves the device is a statement about two runs:

* `Related` entries differ in what is sensitive only (`SameButSecrets`), and the texts that are
  stored for them have the same length;
* so they are of the same time and add the same to the upload, whatever it holds already
  (`addEntry_congr`, `Alike`), and the loop stops at the same one (`collect_congr`, by induction on
  the entries).

`createFeedbackData_congr`: such logs give the same upload.  The lengths matter because of the
limit, which counts the texts as they are stored: without that condition the NUMBER of entries that
are sent would tell something of what is not sent.

What a diagnostic entry holds is sent as it is: what must not be in one is for whoever writes it
(`Redaction`).  The platform's facts about the device are a parameter and the same in both runs.
-/
import ShiroKhorshid.Log.Entries

namespace ShiroKhorshid.Log

open Jvm

/-! ## 1. The upload -/

/-- `MAX_LOG_SOURCE_JSON_SIZE_BYTES` -/
def MAX_LOG_SOURCE_JSON_SIZE_BYTES : ℤ := 2 ^ 20

/-- The arguments of `createFeedbackData`. -/
structure Feedback where
  shouldIncludeDiagnostics : Bool
  email : String
  feedbackText : String
  surveyResponsesJson : String
  feedbackId : String
  beforeTimeMillis : ℤ

/-- The device and the build: the system information, names of resources and the printing of a
time. -/
structure Platform where
  isRooted : Bool
  isPlayStoreBuild : Bool
  language : String
  networkTypeName : String
  BRAND : String
  CPU_ABI : String
  MANUFACTURER : String
  MODEL : String
  DISPLAY : String
  TAGS : String
  CODENAME : String
  RELEASE : String
  SDK_INT : ℤ
  PROPAGATION_CHANNEL_ID : String
  SPONSOR_ID : String
  CLIENT_VERSION : String
  getIdentifier : String → ℤ
  getResourceEntryName : ℤ → String
  getISO8601String : ℤ → String

def metadata (f : Feedback) : Json.Value :=
  .obj [("platform", .str "android"), ("version", .int 4), ("id", .str f.feedbackId)]

def feedbackInfo (f : Feedback) : Json.Value :=
  .obj [("email", .str f.email), ("Message", .obj [("text", .str f.feedbackText)]),
    ("Survey", .obj [("json", .str f.surveyResponsesJson)])]

def sysInfo (p : Platform) : Json.Value :=
  .obj [("isRooted", .bool p.isRooted), ("isPlayStoreBuild", .bool p.isPlayStoreBuild),
    ("language", .str p.language), ("networkTypeName", .str p.networkTypeName),
    ("Build", .obj [("BRAND", .str p.BRAND), ("CPU_ABI", .str p.CPU_ABI),
      ("MANUFACTURER", .str p.MANUFACTURER), ("MODEL", .str p.MODEL), ("DISPLAY", .str p.DISPLAY),
      ("TAGS", .str p.TAGS), ("VERSION__CODENAME", .str p.CODENAME),
      ("VERSION__RELEASE", .str p.RELEASE), ("VERSION__SDK_INT", .int p.SDK_INT)]),
    ("PsiphonInfo", .obj [("PROPAGATION_CHANNEL_ID", .str p.PROPAGATION_CHANNEL_ID),
      ("SPONSOR_ID", .str p.SPONSOR_ID), ("CLIENT_VERSION", .str p.CLIENT_VERSION)])]

/-- The two lists an upload collects. -/
structure History where
  diagnosticHistory : List Json.Value
  statusHistory : List Json.Value

variable (J : OrgJson) (p : Platform)

/-- `entry`, with the time it always has. -/
def timed (logEntry : LogEntry) (fields : Json.Object) : Json.Value :=
  .obj (("timestamp!!timestamp", .str (p.getISO8601String logEntry.timestamp)) :: fields)

/-- What is copied of a diagnostic entry. -/
def diagnosticEntry (logEntry : LogEntry) (logJsonObject : Json.Object) : Json.Value :=
  timed p logEntry [("msg", (logJsonObject.lookup "msg").getD .null),
    ("data", (logJsonObject.lookup "data").getD .null)]

/-- The arguments of a status entry that may be copied. -/
def copiedFormatArgs (sensitivity : ℤ) (logJsonObject : Json.Object) : Json.Value :=
  if sensitivity ≠ Sensitivity.SENSITIVE_FORMAT_ARGS then
    match OrgJson.optJSONArray logJsonObject "formatArgs" with
    | some formatArgs => if formatArgs = [] then .null else .arr formatArgs
    | none => .null
  else .null

/-- What is copied of a status entry; `none` is the `JSONException` of `getString`. -/
def statusEntry (logEntry : LogEntry) (logJsonObject : Json.Object) (sensitivity : ℤ) :
    Option Json.Value :=
  (J.getString logJsonObject "stringResourceName").map fun stringResourceName =>
    let resourceID := p.getIdentifier stringResourceName
    timed p logEntry [
      ("id", .str (if resourceID = 0 then "" else p.getResourceEntryName resourceID)),
      ("priority", .int logEntry.priority),
      ("formatArgs", copiedFormatArgs sensitivity logJsonObject),
      ("throwable", .null)]

/-- One entry; `none` is a `JSONException`. -/
def addEntry (h : History) (logEntry : LogEntry) : Option History := do
  let logJsonObject ← J.parse logEntry.logJson
  if logEntry.isDiagnostic then
    some { h with
      diagnosticHistory := h.diagnosticHistory ++ [diagnosticEntry p logEntry logJsonObject] }
  else
    let sensitivity := J.optInt logJsonObject "sensitivity" 0
    if sensitivity = Sensitivity.SENSITIVE_LOG then some h
    else
      let entry ← statusEntry J p logEntry logJsonObject sensitivity
      some { h with statusHistory := h.statusHistory ++ [entry] }

/-- The loop over the cursor, until it is through or enough has been read. -/
def collect : List LogEntry → ℤ → History → Option History
  | [], _, h => some h
  | logEntry :: rest, totalBytesRead, h =>
    if totalBytesRead < MAX_LOG_SOURCE_JSON_SIZE_BYTES then
      (addEntry J p h logEntry).bind
        (collect rest (toInt32 (totalBytesRead + length logEntry.logJson)))
    else some h

/-- The diagnostic information.  There is no cursor for a time before 1970, and a
`NullPointerException` then; either exception is `none`. -/
def diagnosticInfo (rows : List LogEntry) (beforeTimeMillis : ℤ) : Option Json.Value :=
  if beforeTimeMillis < 0 then none
  else
    (collect J p (getLogsBeforeDate rows beforeTimeMillis) 0 ⟨[], []⟩).map fun h =>
      .obj [("SystemInformation", sysInfo p), ("DiagnosticHistory", .arr h.diagnosticHistory),
        ("StatusHistory", .arr h.statusHistory)]

def createFeedbackData (rows : List LogEntry) (f : Feedback) : Option String := do
  let feedback :=
    if 0 < length f.feedbackText ∨ 0 < length f.surveyResponsesJson then
      [("Feedback", feedbackInfo f)]
    else []
  let diagnostics ←
    if f.shouldIncludeDiagnostics then
      (diagnosticInfo J p rows f.beforeTimeMillis).map fun info => [("DiagnosticInfo", info)]
    else some []
  some (J.toString (("Metadata", metadata f) :: (feedback ++ diagnostics)))

/-! ## 2. Two runs -/

/-- Two calls of the logger that differ in what is sensitive at most. -/
inductive SameButSecrets : Logged → Logged → Prop
  | same (l : Logged) : SameButSecrets l l
  /-- sensitive as a whole -/
  | log (name name' : String) (args args' : List Json.Value) (priority timestamp : ℤ) :
      SameButSecrets (.status name args Sensitivity.SENSITIVE_LOG priority timestamp)
        (.status name' args' Sensitivity.SENSITIVE_LOG priority timestamp)
  /-- sensitive arguments -/
  | formatArgs (name : String) (args args' : List Json.Value) (priority timestamp : ℤ) :
      SameButSecrets (.status name args Sensitivity.SENSITIVE_FORMAT_ARGS priority timestamp)
        (.status name args' Sensitivity.SENSITIVE_FORMAT_ARGS priority timestamp)

/-- The arguments are JSON. -/
def WellFormed : Logged → Prop
  | .status _ formatArgs _ _ _ => ∀ v ∈ formatArgs, Json.Proper v
  | .diagnostic _ nameValuePairs _ _ => ∀ f ∈ nameValuePairs, Json.Proper f.2

/-- The two entries of one place in the two logs. -/
structure Related (l l' : Logged) : Prop where
  secrets : SameButSecrets l l'
  wellFormed : WellFormed l
  wellFormed' : WellFormed l'
  length_eq : length (storeLog J l).logJson = length (storeLog J l').logJson

variable {J} {p}

/-- A status log is read back with its name and sensitivity. -/
theorem parse_statusObject {name : String} {args : List Json.Value} {sensitivity : ℤ}
    (h : ∀ v ∈ args, Json.Proper v) :
    ∃ o, J.parse (J.toString (statusObject name args sensitivity)) = some o ∧
      J.getString o "stringResourceName" = some name ∧
      J.optInt o "sensitivity" 0 = toInt32 sensitivity := by
  have hproper : Json.Proper (.obj (statusObject name args sensitivity)) := by
    refine Json.Proper.obj (by simp [statusObject]) (fun f hf => ?_)
    simp only [statusObject, List.mem_cons, List.not_mem_nil, or_false] at hf
    rcases hf with rfl | rfl | rfl
    · exact Json.Proper.str name
    · exact Json.Proper.int sensitivity
    · split
      · exact Json.Proper.null
      · exact Json.Proper.arr h
  refine ⟨_, J.parse_toString _ hproper, ?_, ?_⟩
  · simp [statusObject, OrgJson.getString]
  · simp [statusObject, OrgJson.optInt, List.lookup_cons]

/-- **One entry.**  Related entries add the same. -/
theorem addEntry_congr {l l' : Logged} (h : Related J l l') (history : History) :
    addEntry J p history (storeLog J l) = addEntry J p history (storeLog J l') := by
  obtain ⟨hsecrets, hwf, hwf', -⟩ := h
  cases hsecrets with
  | same => rfl
  | log name name' args args' priority timestamp =>
    obtain ⟨o, hparse, -, hopt⟩ :=
      @parse_statusObject J name args Sensitivity.SENSITIVE_LOG hwf
    obtain ⟨o', hparse', -, hopt'⟩ :=
      @parse_statusObject J name' args' Sensitivity.SENSITIVE_LOG hwf'
    have hsensitive : toInt32 Sensitivity.SENSITIVE_LOG = Sensitivity.SENSITIVE_LOG := by decide
    -- both are skipped
    simp [addEntry, storeLog, hparse, hparse', hopt, hopt', hsensitive]
  | formatArgs name args args' priority timestamp =>
    obtain ⟨o, hparse, hname, hopt⟩ :=
      @parse_statusObject J name args Sensitivity.SENSITIVE_FORMAT_ARGS hwf
    obtain ⟨o', hparse', hname', hopt'⟩ :=
      @parse_statusObject J name args' Sensitivity.SENSITIVE_FORMAT_ARGS hwf'
    have hargs : toInt32 Sensitivity.SENSITIVE_FORMAT_ARGS = Sensitivity.SENSITIVE_FORMAT_ARGS := by
      decide
    -- both are copied without arguments
    simp [addEntry, storeLog, hparse, hparse', hopt, hopt', hname, hname', hargs, statusEntry,
      copiedFormatArgs, timed]

/-- Related entries are of one time and one length. -/
theorem Related.timestamp_eq {l l' : Logged} (h : Related J l l') :
    (storeLog J l).timestamp = (storeLog J l').timestamp := by
  cases h.secrets <;> rfl

/-- What the loop sees of two entries. -/
def Alike (J : OrgJson) (p : Platform) (a b : LogEntry) : Prop :=
  a.timestamp = b.timestamp ∧ length a.logJson = length b.logJson ∧
    ∀ history, addEntry J p history a = addEntry J p history b

/-- **The loop**, by induction on the entries: it adds the same and stops at the same one. -/
theorem collect_congr {rows rows' : List LogEntry} (h : List.Forall₂ (Alike J p) rows rows')
    (total : ℤ) (history : History) :
    collect J p rows total history = collect J p rows' total history := by
  induction h generalizing total history with
  | nil => rfl
  | cons hab _ ih =>
    obtain ⟨-, hlength, hadd⟩ := hab
    rw [collect, collect, hlength, hadd history]
    congr 2
    funext added
    exact ih _ added

/-- **The upload tells nothing that is sensitive.**  Two logs that differ in the messages of
`SENSITIVE_LOG` entries and the arguments of `SENSITIVE_FORMAT_ARGS` entries only, with stored
texts of the same lengths, give the same upload. -/
theorem createFeedbackData_congr (p : Platform) (f : Feedback) {logged logged' : List Logged}
    (h : List.Forall₂ (Related J) logged logged') :
    createFeedbackData J p (logged.map (storeLog J)) f =
      createFeedbackData J p (logged'.map (storeLog J)) f := by
  have halike : List.Forall₂ (Alike J p) (logged.map (storeLog J)) (logged'.map (storeLog J)) := by
    rw [List.forall₂_map_left_iff, List.forall₂_map_right_iff]
    exact h.imp (fun l l' hl => ⟨hl.timestamp_eq, hl.length_eq, addEntry_congr hl⟩)
  have hread := getLogsBeforeDate_forall₂ (fun a b hab => hab.1) halike f.beforeTimeMillis
  have hinfo : diagnosticInfo J p (logged.map (storeLog J)) f.beforeTimeMillis =
      diagnosticInfo J p (logged'.map (storeLog J)) f.beforeTimeMillis := by
    rw [diagnosticInfo, diagnosticInfo, collect_congr hread]
  rw [createFeedbackData, createFeedbackData, hinfo]

/-- Some device. -/
def device : Platform where
  isRooted := false
  isPlayStoreBuild := true
  language := "fa"
  networkTypeName := "WIFI"
  BRAND := "b"
  CPU_ABI := "arm64-v8a"
  MANUFACTURER := "m"
  MODEL := "x"
  DISPLAY := "d"
  TAGS := "release-keys"
  CODENAME := "REL"
  RELEASE := "14"
  SDK_INT := 34
  PROPAGATION_CHANNEL_ID := "P"
  SPONSOR_ID := "S"
  CLIENT_VERSION := "1"
  getIdentifier _ := 1
  getResourceEntryName _ := "individual_app_included"
  getISO8601String _ := "2024-01-01T00:00:00.000Z"

/-- Two logs with different secrets. -/
theorem createFeedbackData_congr_device :
    createFeedbackData OrgJson.strict device
        ([.status "app:string/a" [.str "x"] 2 4 100,
          .status "app:string/c" [.str "com.a"] 4 4 90].map (storeLog OrgJson.strict))
        ⟨true, "", "text", "", "id", 200⟩ =
      createFeedbackData OrgJson.strict device
        ([.status "app:string/b" [.str "y"] 2 4 100,
          .status "app:string/c" [.str "com.b"] 4 4 90].map (storeLog OrgJson.strict))
        ⟨true, "", "text", "", "id", 200⟩ := by
  have hproper : ∀ s : String, ∀ v ∈ [Json.Value.str s], Json.Proper v := by
    intro s v hv
    rw [List.mem_singleton.mp hv]
    exact Json.Proper.str s
  refine createFeedbackData_congr device _ (.cons ?_ (.cons ?_ .nil))
  · exact ⟨.log _ _ _ _ _ _, hproper _, hproper _, by decide +kernel⟩
  · exact ⟨.formatArgs _ _ _ _ _, hproper _, hproper _, by decide +kernel⟩

end ShiroKhorshid.Log
