/-
# What the service does with a notice (`TunnelManager.onDiagnosticMessage`)

Every notice of the tunnel library is handled on the main thread, where an exception ends the
service.  The statistics see it first; then notices about scans are logged in words, those about
dials of Conduit are put together from their fields, and the rest is logged as it is.

`parseInproxyDiagnostic` takes a message that starts with `inproxy-dial:` to go on with a blank and
cuts off one character more than it has checked.  It catches `JSONException` only, so the message
that is just `inproxy-dial:` ends the service; `diagnostics_complete_iff` says that no other does.

* Everything that may throw is a computation in `Throws` (see `Jvm`), with the bounds of `substring`
  checked, so that a theorem about completing says something.
* **Durations**: each place that is cut out is found in the text first, so it is within it
  (`throwsOnly_roundedDuration`), and what `Double.parseDouble` throws is caught.
* **Dials**: the only cut that is not covered by a check is the one above (`BareDial`,
  `parseInproxyDiagnostic_completes_iff`).
* **Scans** return before the notice is looked at as one of a dial (`isScan`), so a notice that is
  both is not fatal (`Fatal`, `completes_iff`).
* A handler leaves a state of its own behind; the next notice may find any (`run_completes_iff`).

The expressions are searched by `Lib.Regex`, with the letters the platform knows as a parameter.
Not modelled: the depth of the stack, and what the log does before it is set up.
-/
import ShiroKhorshid.Conduit.Notices
import ShiroKhorshid.Log.Entries

namespace ShiroKhorshid.Service

open Jvm Regex Log.Sensitivity
open Log (Logged)
open Conduit (Platform Engine Decimals TunnelStatisticsStore groups text)

/-! ## 1. The expressions -/

namespace Diagnostics

variable (E : Engine)

/-- `\(workers: (\d+)\)` -/
def beastActive : Pattern := .seqs [text "(workers: ", .group 1 E.digits, text ")"]

/-- `\(attempts: (\d+), servers: (\d+)\)` -/
def beastConnected : Pattern :=
  .seqs [text "(attempts: ", .group 1 E.digits, text ", servers: ", .group 2 E.digits, text ")"]

/-- `\(mode: ([^,]+), workers: (\d+)(?:, candidates: \d+, sni: \d+)?\)` -/
def scanActive : Pattern :=
  .seqs [text "(mode: ", .group 1 (.many true 1 (· != ',')), text ", workers: ",
    .group 2 E.digits,
    .optional (.seqs [text ", candidates: ", E.digits, text ", sni: ", E.digits]), text ")"]

/-- `(?:, candidates: \d+)?, working: (\d+)\)` -/
def working : Pattern :=
  .seqs [.optional (.seq (text ", candidates: ") E.digits), text ", working: ", .group 2 E.digits,
    text ")"]

/-- `\((?:attempts|tried): (\d+)(?:, candidates: \d+)?, working: (\d+)\)` -/
def scanProgress : Pattern :=
  .seqs [text "(", .alt (text "attempts") (text "tried"), text ": ", .group 1 E.digits, working E]

/-- `\(attempts: (\d+)(?:, candidates: \d+)?, working: (\d+)\)` -/
def scanExhausted : Pattern := .seqs [text "(attempts: ", .group 1 E.digits, working E]

/-- `\(ip: ([^,]+), sni: ([^)]+)\)` -/
def scanFound : Pattern :=
  .seqs [text "(ip: ", .group 1 (.many true 1 (· != ',')), text ", sni: ",
    .group 2 (.many true 1 (· != ')')), text ")"]

/-- `\\+([.:])` -/
def escaped : Pattern :=
  .seq (.many true 1 (· == '\\')) (.group 1 (.char fun c => c == '.' || c == ':'))

end Diagnostics

/-! ## 2. Notices of a dial -/

namespace Diagnostics

/-- `Double.parseDouble` -/
def parseDouble (D : Decimals) (s : String) : Except Thrown D.Double :=
  match D.parseDouble s with
  | some x => .ok x
  | none => .error .numberFormat

/-- The `try` of `formatDuration`. -/
def roundedDuration (D : Decimals) (goDuration : String) : Except Thrown String :=
  if endsWith goDuration "s" && !endsWith goDuration "ms" then do
    let sIdx := lastIndexOf goDuration 's'
    let mIdx := indexOf (· == ·) goDuration "m"
    -- what is before the seconds is kept, as in `3m2.5s`
    let (minutes, secPart) ← (if 0 ≤ mIdx ∧ mIdx < sIdx then do
        let minutes ← substring goDuration 0 (mIdx + 1)
        let secPart ← substring goDuration (mIdx + 1) sIdx
        pure (minutes, secPart)
      else do
        let secPart ← substring goDuration 0 sIdx
        pure ("", secPart))
    let secs ← parseDouble D secPart
    pure (minutes ++ D.format (if D.lessThan secs 10 then 1 else 0) secs ++ "s")
  else if endsWith goDuration "ms" then do
    let numPart ← substring goDuration 0 (goDuration.length - 2)
    let ms ← parseDouble D numPart
    pure (D.format 0 ms ++ "ms")
  else if contains (· == ·) goDuration "µs" || contains (· == ·) goDuration "us" then .ok "<1ms"
  else .ok goDuration

/-- `formatDuration`: what is no number stays as it is. -/
def formatDuration (D : Decimals) : Option String → Except Thrown (Option String)
  | none => .ok none
  | some goDuration =>
    some <$> catching .numberFormat (roundedDuration D goDuration) (.ok goDuration)

variable (P : Platform)

/-- A long error, for readability. -/
def truncated (error : String) : Except Thrown String :=
  if 120 < error.length then (· ++ "...") <$> substring error 0 120 else .ok error

/-- A field in its brackets, if there is one. -/
def field (before : String) (what : Option String) (after : String) : String :=
  what.elim "" fun s => before ++ s ++ after

/-- What `parseInproxyDiagnostic` makes of the object of a notice. -/
def describe (data : Json.Object) : Except Thrown (Option String) :=
  let msg := P.json.optString data "message" ""
  if !startsWith (· == ·) msg "inproxy-dial:" then .ok none
  else do
    let phase ← substringFrom msg "inproxy-dial: ".length
    let duration ← formatDuration P.decimals (P.json.getString data "duration")
    let timeout ← formatDuration P.decimals (P.json.getString data "timeout")
    let natType := P.json.getString data "natType"
    let attempt := P.json.getString data "attempt"
    let error ← (match P.json.getString data "error" with
      | some error => some <$> truncated error
      | none => .ok none)
    pure (some (field "#" attempt " " ++ phase ++ field " (" duration ")" ++
      field " [timeout=" timeout "]" ++ field " [NAT=" natType "]" ++ field " | " error ""))

/-- The text of a notice that is no object, up to the first sign of one. -/
def phaseText (diagnosticMessage : String) : Except Thrown (Option String) :=
  let idx := indexOf (· == ·) diagnosticMessage "inproxy-dial: "
  if contains (· == ·) diagnosticMessage "inproxy-dial:" ∧ 0 ≤ idx then do
    let remainder ← substringFrom diagnosticMessage (idx + "inproxy-dial: ".length)
    let comma := indexOf (· == ·) remainder "\","
    let e := if comma < 0 then indexOf (· == ·) remainder "\"\x7d" else comma
    if 0 < e then some <$> substring remainder 0 e else .ok (some remainder)
  else .ok none

/-- `parseInproxyDiagnostic` -/
def parseInproxyDiagnostic (diagnosticMessage : String) : Except Thrown (Option String) :=
  catching .json
    (do
      let data ← P.json.readObject (← Conduit.objectText diagnosticMessage)
      describe P data)
    (phaseText diagnosticMessage)

end Diagnostics

/-! ## 3. The handler -/

/-- What the handler of a notice reads and changes: the statistics, `m_lastInproxyDiagMsg` and the
log. -/
structure Diagnostics where
  statistics : TunnelStatisticsStore
  lastInproxyDiagMsg : Option String
  logged : List Logged

namespace Diagnostics

variable (P : Platform)

/-- `Log.INFO` -/
def INFO : ℤ := 4

/-- `MyLog.i` of a string resource. -/
def status (name : String) (formatArgs : List (Option String)) (sensitivity : ℤ) (time : Int64) :
    Logged :=
  .status (P.context.packageName ++ ":string/" ++ name)
    (formatArgs.map fun arg => arg.elim .null .str) sensitivity INFO time.toInt

/-- Beast mode notices. -/
def beastMode (message : String) (time : Int64) : List Logged :=
  if contains (· == ·) message "beast mode active (workers:" then
    ((groups (beastActive P.engine) message).map fun found =>
      status P "beast_mode_active" [found 1] NOT_SENSITIVE time).toList
  else if contains (· == ·) message "beast mode connected (attempts:" then
    ((groups (beastConnected P.engine) message).map fun found =>
      status P "beast_mode_connected" [found 1, found 2] NOT_SENSITIVE time).toList
  else []

/-- `unescapeRedactionSafeIPAddress` -/
def unescapeRedactionSafeIPAddress : Option String → Except Thrown String
  | none => .error .nullPointer
  | some escapedAddress =>
    .ok (String.ofList (escaped.replaceAll (fun caps => (caps 1).getD []) escapedAddress.toList))

/-- CDN fronting scan notices: what is logged if the handler returns there. -/
def cdnFronting (message : String) (time : Int64) : Except Thrown (Option Logged) :=
  if contains (· == ·) message "cdn fronting scan active (mode:" then
    .ok ((groups (scanActive P.engine) message).map fun found =>
      status P "cdn_fronting_scan_active" [found 1, found 2] NOT_SENSITIVE time)
  else if contains (· == ·) message "cdn fronting scan progress (attempts:" ||
      contains (· == ·) message "cdn fronting scan progress (tried:" then
    .ok ((groups (scanProgress P.engine) message).map fun found =>
      status P "cdn_fronting_scan_progress" [found 1, found 2] NOT_SENSITIVE time)
  else if contains (· == ·) message "cdn fronting scan exhausted (attempts:" then
    .ok ((groups (scanExhausted P.engine) message).map fun found =>
      status P "cdn_fronting_scan_exhausted" [found 1, found 2] NOT_SENSITIVE time)
  else if contains (· == ·) message "cdn fronting scan found" then
    match groups scanFound message with
    | some found => do
      let ipAddress ← unescapeRedactionSafeIPAddress (found 1)
      let sniServerName := if found 2 = some "none" then
          some (P.context.getString "cdn_fronting_scan_no_sni" [])
        else found 2
      pure (some (status P "cdn_fronting_scan_found_with_route" [some ipAddress, sniServerName]
        SENSITIVE_FORMAT_ARGS time))
    | none =>
      .ok (some (status P "cdn_fronting_scan_found" [] NOT_SENSITIVE time))
  else .ok none

/-- The handler that `onDiagnosticMessage` posts: `now` is when the notice came, `time` what the
clock says while it is handled. -/
def onDiagnosticMessage (m : Diagnostics) (message : String) (now time : Int64) :
    Except Thrown Diagnostics := do
  let statistics ← m.statistics.onDiagnosticMessage P message time
  let m := { m with statistics := statistics, logged := m.logged ++ beastMode P message time }
  match ← cdnFronting P message time with
  | some entry => pure { m with logged := m.logged ++ [entry] }
  | none =>
    if contains (· == ·) message "inproxy-dial:" then
      match ← parseInproxyDiagnostic P message with
      | some diagMsg =>
        pure (if m.lastInproxyDiagMsg = some diagMsg then m
          else { m with
            lastInproxyDiagMsg := some diagMsg
            logged := m.logged ++
              [status P "conduit_diag" [some diagMsg] NOT_SENSITIVE time] })
      | none => pure m
    else pure { m with logged := m.logged ++ [.diagnostic message [] INFO now.toInt] }

/-! ## 4. What completes -/

section Completes

/-- A notice `inproxy-dial:` with nothing behind the colon. -/
def BareDial (message : String) : Prop :=
  ∃ text data, Conduit.objectText message = .ok text ∧ P.json.parse text = some data ∧
    P.json.optString data "message" "" = "inproxy-dial:"

/-- The handler returns at a notice about a scan. -/
def isScan (E : Engine) (message : String) : Bool :=
  if contains (· == ·) message "cdn fronting scan active (mode:" then
    (groups (scanActive E) message).isSome
  else if contains (· == ·) message "cdn fronting scan progress (attempts:" ||
      contains (· == ·) message "cdn fronting scan progress (tried:" then
    (groups (scanProgress E) message).isSome
  else if contains (· == ·) message "cdn fronting scan exhausted (attempts:" then
    (groups (scanExhausted E) message).isSome
  else contains (· == ·) message "cdn fronting scan found"

/-- A bare notice that nothing has returned at. -/
def Fatal (message : String) : Prop :=
  contains (· == ·) message "inproxy-dial:" = true ∧ isScan P.engine message = false ∧
    BareDial P message

theorem throwsOnly_parseDouble (D : Decimals) (s : String) :
    ThrowsOnly .numberFormat (parseDouble D s) := by
  unfold parseDouble
  split
  · exact (completes_ok _).throwsOnly
  · exact throwsOnly_error _

theorem suffix_of_endsWith {s t : String} (h : endsWith s t = true) : t.toList <:+ s.toList :=
  List.isSuffixOf_iff_suffix.mp h

theorem length_le_of_endsWith {s t : String} (h : endsWith s t = true) : t.length ≤ s.length := by
  have hle := (suffix_of_endsWith h).length_le
  rwa [String.length_toList, String.length_toList] at hle

/-- **The places of a duration** are within it. -/
theorem throwsOnly_roundedDuration (D : Decimals) (goDuration : String) :
    ThrowsOnly .numberFormat (roundedDuration D goDuration) := by
  unfold roundedDuration
  split
  · rename_i hseconds
    rw [Bool.and_eq_true] at hseconds
    have hlast : lastIndexOf goDuration 's' = goDuration.length - 1 :=
      lastIndexOf_of_endsWith (suffix_of_endsWith hseconds.1)
    have hlength : "s".length ≤ goDuration.length := length_le_of_endsWith hseconds.1
    have hs : "s".length = 1 := rfl
    refine ThrowsOnly.bind (Completes.throwsOnly ?_) fun parts _ =>
      (throwsOnly_parseDouble D _).bind fun _ _ => (completes_pure _).throwsOnly
    split
    · refine Completes.bind ?_ fun _ _ => Completes.bind ?_ fun _ _ => completes_pure _
      · rw [completes_substring]
        omega
      · rw [completes_substring]
        omega
    · refine Completes.bind ?_ fun _ _ => completes_pure _
      rw [completes_substring]
      omega
  · split
    · rename_i hms
      have hlength : "ms".length ≤ goDuration.length := length_le_of_endsWith hms
      have hm : "ms".length = 2 := rfl
      refine ThrowsOnly.bind (Completes.throwsOnly ?_) fun _ _ =>
        (throwsOnly_parseDouble D _).bind fun _ _ => (completes_pure _).throwsOnly
      rw [completes_substring]
      omega
    · split <;> exact (completes_ok _).throwsOnly

/-- **Every duration is formatted.** -/
theorem formatDuration_completes (D : Decimals) (goDuration : Option String) :
    Completes (formatDuration D goDuration) := by
  cases goDuration with
  | none => exact completes_ok _
  | some goDuration =>
    rw [formatDuration, completes_map]
    exact (throwsOnly_roundedDuration D goDuration).catching (completes_ok _)

theorem truncated_completes (error : String) : Completes (truncated error) := by
  unfold truncated
  split
  · rw [completes_map, completes_substring]
    omega
  · exact completes_ok _

/-- What begins with `inproxy-dial:` has a fourteenth character, or there is no more to it. -/
theorem completes_phase_iff {msg : String} (h : startsWith (· == ·) msg "inproxy-dial:" = true) :
    Completes (substringFrom msg "inproxy-dial: ".length) ↔ msg ≠ "inproxy-dial:" := by
  obtain ⟨rest, hrest⟩ := beginsWith_iff_prefix.mp h
  have hlength : (msg.length : ℤ) = 13 + rest.length := by
    rw [← String.length_toList, ← hrest, List.length_append]
    rfl
  have hphase : "inproxy-dial: ".length = 14 := rfl
  rw [completes_substringFrom, hlength, hphase]
  constructor
  · rintro ⟨-, hle⟩ rfl
    have hmsg : "inproxy-dial:".length = 13 := rfl
    omega
  · intro hne
    refine ⟨by omega, ?_⟩
    cases rest with
    | nil =>
      rw [List.append_nil] at hrest
      exact absurd (String.toList_inj.mp hrest).symm hne
    | cons c cs =>
      rw [List.length_cons]
      omega

variable {P}

theorem describe_completes_iff (data : Json.Object) :
    Completes (describe P data) ↔ P.json.optString data "message" "" ≠ "inproxy-dial:" := by
  unfold describe
  dsimp only
  split
  · rename_i hstarts
    refine iff_of_true (completes_ok _) fun hmsg => ?_
    rw [hmsg] at hstarts
    revert hstarts
    decide
  · rename_i hstarts
    rw [Bool.not_eq_true, Bool.not_eq_false'] at hstarts
    rw [← completes_phase_iff hstarts, completes_bind]
    constructor
    · rintro ⟨phase, hphase, -⟩
      exact ⟨phase, hphase⟩
    · rintro ⟨phase, hphase⟩
      refine ⟨phase, hphase, ?_⟩
      refine (formatDuration_completes _ _).bind fun _ _ =>
        (formatDuration_completes _ _).bind fun _ _ => Completes.bind ?_ fun _ _ => completes_pure _
      split
      · rw [completes_map]
        exact truncated_completes _
      · exact completes_ok _

/-- The exception is not the one that is caught. -/
theorem describe_of_bare {data : Json.Object}
    (h : P.json.optString data "message" "" = "inproxy-dial:") :
    describe P data = .error .stringIndexOutOfBounds := by
  unfold describe
  rw [h]
  rfl

theorem phaseText_completes (diagnosticMessage : String) :
    Completes (phaseText diagnosticMessage) := by
  unfold phaseText
  dsimp only
  split
  · rename_i hfound
    have hbound := indexOf_add_length_le hfound.2
    refine Completes.bind ?_ fun remainder _ => ?_
    · rw [completes_substringFrom]
      omega
    · have hcut : ∀ t, Completes (if 0 < indexOf (· == ·) remainder t then
          some <$> substring remainder 0 (indexOf (· == ·) remainder t)
        else .ok (some remainder)) := by
        intro t
        split
        · rename_i hpos
          have hbound := indexOf_add_length_le hpos.le
          rw [completes_map, completes_substring]
          omega
        · exact completes_ok _
      split
      · exact hcut _
      · exact hcut _
  · exact completes_ok _

theorem objectText_completes (message : String) : Completes (Conduit.objectText message) := by
  unfold Conduit.objectText
  dsimp only
  split
  · rename_i hfound
    have hbound := indexOf_add_length_le hfound
    have hcolon : ": \x7b".length = 3 := rfl
    rw [completes_substringFrom]
    omega
  · exact completes_ok _

theorem bareDial_iff {message text : String} (htext : Conduit.objectText message = .ok text) :
    BareDial P message ↔ ∃ data, P.json.parse text = some data ∧
      P.json.optString data "message" "" = "inproxy-dial:" := by
  constructor
  · rintro ⟨text', data, htext', h⟩
    obtain rfl := Except.ok.inj (htext.symm.trans htext')
    exact ⟨data, h⟩
  · rintro ⟨data, h⟩
    exact ⟨text, data, htext, h⟩

/-- **A notice of a dial** is put into words, unless it is bare. -/
theorem parseInproxyDiagnostic_completes_iff (message : String) :
    Completes (parseInproxyDiagnostic P message) ↔ ¬ BareDial P message := by
  obtain ⟨text, htext⟩ := objectText_completes message
  rw [bareDial_iff htext, parseInproxyDiagnostic,
    completes_catching_iff (phaseText_completes message), htext]
  change Completes (P.json.readObject text >>= describe P) ∨
    P.json.readObject text >>= describe P = .error .json ↔ _
  rw [OrgJson.readObject]
  cases P.json.parse text with
  | none =>
    refine iff_of_true (Or.inr rfl) ?_
    rintro ⟨_, ⟨⟩, -⟩
  | some data =>
    change Completes (describe P data) ∨ describe P data = .error .json ↔ _
    rw [describe_completes_iff]
    constructor
    · rintro (hne | hjson) ⟨_, ⟨⟩, hmsg⟩
      · exact hne hmsg
      · -- the exception of a bare notice is not the one that is caught
        rw [describe_of_bare hmsg] at hjson
        cases hjson
    · exact fun h => Or.inl fun hmsg => h ⟨data, rfl, hmsg⟩

/-- An address that is found is there. -/
theorem groups_scanFound {message : String} {found : ℕ → Option String}
    (h : groups scanFound message = some found) : found 1 ≠ none := by
  obtain ⟨caps, hcaps, rfl⟩ := Option.map_eq_some_iff.mp h
  rw [Ne, Option.map_eq_none_iff]
  exact Pattern.captured_of_find hcaps rfl

/-- **The notices about a scan** complete, and `isScan` says when the handler returns. -/
theorem cdnFronting_cases (P : Platform) (message : String) (time : Int64) :
    ∃ entry, cdnFronting P message time = .ok entry ∧
      entry.isSome = isScan P.engine message := by
  unfold cdnFronting isScan
  split
  · exact ⟨_, rfl, Option.isSome_map⟩
  · split
    · exact ⟨_, rfl, Option.isSome_map⟩
    · split
      · exact ⟨_, rfl, Option.isSome_map⟩
      · split
        · rename_i hfound
          rw [hfound]
          split
          · rename_i found hgroups
            obtain ⟨address, haddress⟩ := Option.ne_none_iff_exists'.mp (groups_scanFound hgroups)
            rw [haddress]
            exact ⟨_, rfl, rfl⟩
          · exact ⟨_, rfl, rfl⟩
        · rename_i hfound
          exact ⟨none, rfl, (Bool.eq_false_iff.mpr hfound).symm⟩

/-- **One notice** ends the service if it is bare and nothing has returned at it. -/
theorem completes_iff (m : Diagnostics) (message : String) (now time : Int64) :
    Completes (m.onDiagnosticMessage P message now time) ↔ ¬ Fatal P message := by
  obtain ⟨statistics, hstatistics⟩ := m.statistics.onDiagnosticMessage_completes P message time
  obtain ⟨entry, hentry, hscan⟩ := cdnFronting_cases P message time
  unfold onDiagnosticMessage Fatal
  simp only [completes_bind, hstatistics, hentry, Except.ok.injEq, exists_eq_left']
  rw [← hscan]
  cases entry with
  | some entry =>
    refine iff_of_true (completes_pure _) ?_
    rintro ⟨-, ⟨⟩, -⟩
  | none =>
    dsimp only
    split
    · rename_i hdial
      have hbare : ¬ (contains (· == ·) message "inproxy-dial:" = true ∧
          (none : Option Logged).isSome = false ∧ BareDial P message) ↔ ¬ BareDial P message :=
        not_congr ⟨fun h => h.2.2, fun h => ⟨hdial, rfl, h⟩⟩
      rw [hbare, ← parseInproxyDiagnostic_completes_iff]
      constructor
      · intro h
        obtain ⟨diagMsg, hdiagMsg, -⟩ := completes_bind.mp h
        exact ⟨diagMsg, hdiagMsg⟩
      · intro h
        refine h.bind fun diagMsg _ => ?_
        split <;> exact completes_pure _
    · rename_i hdial
      exact iff_of_true (completes_pure _) fun h => hdial h.1

/-- **Any number of notices**: the service goes on as long as none of them is fatal. -/
theorem run_completes_iff (m : Diagnostics) (notices : List (String × Int64 × Int64)) :
    Completes (notices.foldlM (fun m n => m.onDiagnosticMessage P n.1 n.2.1 n.2.2) m) ↔
      ∀ n ∈ notices, ¬ Fatal P n.1 := by
  induction notices generalizing m with
  | nil => exact iff_of_true (completes_pure _) fun _ h => absurd h List.not_mem_nil
  | cons n notices ih =>
    rw [List.foldlM_cons, completes_bind, List.forall_mem_cons,
      ← completes_iff m n.1 n.2.1 n.2.2]
    constructor
    · rintro ⟨m', hm', h⟩
      exact ⟨⟨m', hm'⟩, (ih m').mp h⟩
    · rintro ⟨⟨m', hm'⟩, h⟩
      exact ⟨m', hm', (ih m').mpr h⟩

/-- **Diagnostics do not throw**, but for the notice of a dial that says nothing.  Every duration
is formatted and every notice goes into the statistics; and the handler of a notice completes,
whatever state it finds, unless the notice is fatal. -/
theorem diagnostics_complete_iff (P : Platform) (message : String) :
    (∀ goDuration, Completes (formatDuration P.decimals goDuration)) ∧
    (∀ (s : TunnelStatisticsStore) now, Completes (s.onDiagnosticMessage P message now)) ∧
    ∀ (m : Diagnostics) now time,
      Completes (m.onDiagnosticMessage P message now time) ↔ ¬ Fatal P message :=
  ⟨formatDuration_completes P.decimals, fun s => s.onDiagnosticMessage_completes P message,
    fun m => completes_iff m message⟩

end Completes

/-! ## 5. A notice that ends the service -/

/-- A `message` that is just `inproxy-dial:`. -/
def bareDial : Json.Object := [("message", .str "inproxy-dial:")]

theorem parse_bareDial :
    Platform.ofSample.json.parse "\x7b\"message\":\"inproxy-dial:\"\x7d" = some bareDial := by
  have htext : "\x7b\"message\":\"inproxy-dial:\"\x7d"
      = Platform.ofSample.json.toString bareDial := by
    decide +kernel
  have hproper : Json.Proper (.obj bareDial) := by
    refine Json.Proper.obj (by simp [bareDial]) fun f hf => ?_
    obtain rfl := List.mem_singleton.mp hf
    exact Json.Proper.str _
  rw [htext, Platform.ofSample.json.parse_toString _ hproper]
  simp [bareDial]

/-- **The notice is fatal** on a device that knows the letters of ASCII. -/
theorem bare_dial_throws :
    ¬ Completes (onDiagnosticMessage .ofSample
      ⟨⟨fun _ => none, true, Conduit.TunnelStatistics.empty⟩, none, []⟩
      "Info: \x7b\"message\":\"inproxy-dial:\"\x7d" 0 0) := by
  rw [completes_iff, not_not]
  refine ⟨by decide +kernel, by decide +kernel, _, _, ?_, parse_bareDial, ?_⟩
  · decide +kernel
  · simp [bareDial, OrgJson.optString, OrgJson.getString]

end Diagnostics

end ShiroKhorshid.Service
