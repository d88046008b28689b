/-
# What the notices of the tunnel say (`ConnectedTunnelProtocolParser`, `ConduitStatusParser`)

The tunnel library reports in texts: a kind, a colon and a JSON object, or plain prose.  Two parsers
look into every one of them, one for the protocol of a connection and one for what Conduit is doing,
and `TunnelStatisticsStore.onDiagnosticMessage` keeps what they find.

They cut texts at places they have looked up before, and the store catches nothing.
`onDiagnosticMessage_completes`: whatever a notice says, every place is within its text.

* A cut is checked in the model as the platform checks it (`Jvm`), so completing is a statement
  about each of them.
* **Prefixes.**  A protocol's name is taken apart from the front, prefix by prefix, and the rest is
  shorter each time (`displayName_completes`, by induction on the length).  The prefix is compared
  in upper case and cut off the text as it was, which is safe because no character's upper case has
  two letters of it (`substringFrom_inproxyPrefix`).
* **Objects.**  What cannot be read as JSON is cut at a quote that has been found
  (`cutDialLine_completes`).
* **Prose.**  The groups of an expression are parts of the text that was searched.

The tables of Unicode, the expression engine, decimal fractions and the texts of the app are
parameters (`Platform`).  What the lines say to a reader is not specified here.
-/
import ShiroKhorshid.Cdn.Hostnames
import ShiroKhorshid.Conduit.Statistics
import ShiroKhorshid.Lib.Regex

namespace ShiroKhorshid.Conduit

open Jvm Cdn Regex

/-! ## 1. The platform -/

/-- How the protocols begin that run over Conduit. -/
def inproxyPrefix : String := "INPROXY-WEBRTC-"

/-- The tables of letters, with upper case and what counts as the same letter when the case is
ignored. -/
structure CaseTables extends CharTables where
  toUpperCase : Char → List Char
  equalsIgnoringCase : Char → Char → Bool
  /-- the ligatures and the like, whose upper case is more than one letter, are of no use to write
  `INPROXY-WEBRTC-` -/
  toUpperCase_inproxy : ∀ c a b rest, toUpperCase c = a :: b :: rest →
    a ∈ inproxyPrefix.toList → b ∉ inproxyPrefix.toList

/-- `s.uppercase()` -/
def uppercase (T : CaseTables) (s : String) : String :=
  String.ofList (s.toList.flatMap T.toUpperCase)

/-- The expression engine: `\d`, `\s`, what `.` does not match, and which characters stand for a
letter if the case is ignored. -/
structure Engine where
  digit : Char → Bool
  space : Char → Bool
  lineEnd : Char → Bool
  fold : Char → Char → Bool

/-- `Double`: reading it, comparing it with a whole number, cutting it off, and `String.format` with
so many places, in the locale of the device and in `Locale.US`. -/
structure Decimals where
  Double : Type
  parseDouble : String → Option Double
  lessThan : Double → ℤ → Bool
  toInt : Double → ℤ
  format : ℕ → Double → String
  formatUS : ℕ → Double → String

/-- The texts of the app, by the names of their resources, and the names of countries. -/
structure Context where
  packageName : String
  getString : String → List String → String
  /-- `getIdentifier(name, "string", packageName) != 0` -/
  hasString : String → Bool
  getDisplayCountry : String → String

structure Platform where
  json : OrgJson.WithLong
  tables : CaseTables
  engine : Engine
  decimals : Decimals
  context : Context

/-- The tables of the basic Latin letters. -/
def CaseTables.ofSample : CaseTables where
  toCharTables := basicLatin
  toUpperCase c := [c.toUpper]
  equalsIgnoringCase c d := c.toUpper == d.toUpper
  toUpperCase_inproxy _ _ _ _ h := absurd (List.cons.inj h).2.symm (List.cons_ne_nil _ _)

/-- A device with these tables, on which the only decimal fraction is zero. -/
def Platform.ofSample : Platform where
  json := OrgJson.strictLong
  tables := .ofSample
  engine :=
    { digit := Char.isDigit
      space := (· == ' ')
      lineEnd := (· == '\n')
      fold := CaseTables.ofSample.equalsIgnoringCase }
  decimals :=
    { Double := Unit
      parseDouble := fun s => if s = "0" then some () else none
      lessThan := fun _ n => 0 < n
      toInt := fun _ => 0
      format := fun _ _ => "0"
      formatUS := fun _ _ => "0" }
  context :=
    { packageName := "app"
      getString := fun name _ => name
      hasString := fun _ => false
      getDisplayCountry := id }

/-! ## 2. The expressions -/

/-- The groups of the first match. -/
def groups (r : Pattern) (s : String) : Option (ℕ → Option String) :=
  (r.find s.toList).map fun caps i => (caps i).map String.ofList

/-- A text as it is. -/
def text (s : String) : Pattern := .word (· == ·) s.toList

namespace Engine

variable (E : Engine)

/-- A text, the case ignored. -/
def textIgnoringCase (s : String) : Pattern := .word E.fold s.toList

/-- `\d+` -/
def digits : Pattern := .many true 1 E.digit

/-- `\s*` -/
def spaces : Pattern := .many true 0 E.space

/-- `[A-Z]{2}`, the case ignored. -/
def countryCode : Pattern :=
  let letter := Pattern.char fun c => "ABCDEFGHIJKLMNOPQRSTUVWXYZ".toList.any (E.fold · c)
  .seq letter letter

/-- `CandidateServers.*?(\d+)\s+candidates?` -/
def candidateCountPattern : Pattern :=
  .seqs [E.textIgnoringCase "CandidateServers", .many false 0 (!E.lineEnd ·), .group 1 E.digits,
    .many true 1 E.space, E.textIgnoringCase "candidate", .optional (E.textIgnoringCase "s")]

/-- `\((\d+(?:\.\d+)?)(ms|s)\)` -/
def candidateDurationPattern : Pattern :=
  .seqs [text "(", .group 1 (.seq E.digits (.optional (.seq (text ".") E.digits))),
    .group 2 (.alt (E.textIgnoringCase "ms") (E.textIgnoringCase "s")), text ")"]

/-- `trying Conduit relay \(country:\s*([A-Z]{2})\)` -/
def tryingRelayPattern : Pattern :=
  .seqs [E.textIgnoringCase "trying Conduit relay (country:", E.spaces, .group 1 E.countryCode,
    text ")"]

/-- `tunnel connected via Conduit relay \(protocol:\s*([^,]+),\s*country:\s*([A-Z]{2})\)` -/
def connectedRelayCountryPattern : Pattern :=
  .seqs [E.textIgnoringCase "tunnel connected via Conduit relay (protocol:", E.spaces,
    .group 1 (.many true 1 (· != ',')), text ",", E.spaces, E.textIgnoringCase "country:", E.spaces,
    .group 2 E.countryCode, text ")"]

/-- `tunnel connected via Conduit relay \(protocol:\s*([^)]+)\)` -/
def connectedRelayProtocolPattern : Pattern :=
  .seqs [E.textIgnoringCase "tunnel connected via Conduit relay (protocol:", E.spaces,
    .group 1 (.many true 1 (· != ')')), text ")"]

end Engine

/-- `\(protocol: ([^)]+)\)` -/
def protocolPattern : Pattern :=
  .seqs [text "(protocol: ", .group 1 (.many true 1 (· != ')')), text ")"]

/-! ## 3. The protocol -/

section Protocol

variable (P : Platform)

/-- `extractProtocol`: if anything goes wrong there is no protocol. -/
def extractProtocol (message : String) : Option String :=
  if !contains P.tables.equalsIgnoringCase message "ConnectedServer" then none
  else
    let jsonStart := indexOf (· == ·) message "\x7b"
    if jsonStart < 0 then none
    else
      let attempt : Except Thrown (Option String) := do
        let root ← P.json.readObject (← substringFrom message jsonStart)
        let data ← (if OrgJson.has root "data" then OrgJson.getJSONObject root "data"
          else pure root)
        pure ((takeNotBlank (P.json.optString data "protocol" "")).or
          (takeNotBlank (P.json.optString root "protocol" "")))
      match attempt with
      | .ok protocol => protocol
      | .error _ => none

variable (T : CaseTables)

/-- `word.replaceFirstChar { c -> c.uppercase() }` -/
def capitalize (word : String) : String :=
  match word.toList with
  | [] => word
  | c :: cs => String.ofList (T.toUpperCase c ++ cs)

/-- The names of the protocols that do not run over Conduit: the `when` of `displayName`. -/
def plainName (upper raw : String) : String :=
  if upper == "SSH" || upper == "OSSH" then "SSH"
  else if upper == "TLS-OSSH" then "TLS"
  else if upper == "QUIC-OSSH" then "QUIC"
  else if upper == "SHADOWSOCKS-OSSH" then "Shadowsocks"
  else if ["FRONTED-MEEK-OSSH", "FRONTED-MEEK-HTTP-OSSH", "FRONTED-MEEK-QUIC-OSSH"].contains upper
    then "Meek"
  else if ["FRONTED-MEEK-CDN-OSSH", "FRONTED-MEEK-CDN-HTTP-OSSH",
    "FRONTED-MEEK-CDN-QUIC-OSSH"].contains upper then "CDN Meek"
  else if startsWith (· == ·) upper "UNFRONTED-MEEK-" then "Meek"
  else if endsWith upper "-OSSH" then
    let spaced := String.ofList ((removeSuffix upper "-OSSH").toList.map fun c =>
      if c = '_' then ' ' else c)
    joinToString ' ' ((split (toLowerCase T.toCharTables spaced) ' ').map (capitalize T))
  else raw

theorem length_trimChars_le (q : Char → Bool) (s : String) : (trimChars q s).length ≤ s.length := by
  obtain ⟨front, back, hs, -⟩ := exists_trimChars q s
  rw [← String.length_toList, ← String.length_toList, hs, List.length_append, List.length_append]
  omega

/-- `displayName`.  What is nested in a protocol that runs over Conduit is a protocol again. -/
def displayName (raw : String) : Except Thrown String :=
  if isBlank raw then .ok ""
  else
    let upper := uppercase T raw
    if startsWith (· == ·) upper inproxyPrefix then
      match _ : substringFrom raw inproxyPrefix.length with
      | .error e => .error e
      | .ok rest => do
        let inner := kotlinTrim rest
        let innerLabel ← (if isBlank inner then pure "" else displayName inner)
        pure (if isBlank innerLabel then "Conduit" else "Conduit · " ++ innerLabel)
    else .ok (plainName T upper raw)
termination_by raw.length
decreasing_by
  rename_i hrest _
  have hlength := length_of_substringFrom hrest
  have hfifteen : inproxyPrefix.length = 15 := rfl
  have htrim : (kotlinTrim rest).length ≤ rest.length := length_trimChars_le _ _
  omega

end Protocol

/-! ## 4. What Conduit is doing -/

section Conduit

variable (P : Platform)

/-- Whether a text has one of several, the case as it is. -/
def hasAny (s : String) (ts : List String) : Bool := ts.any fun t => contains (· == ·) s t

/-- `shouldParse` -/
def shouldParse (message : String) : Bool :=
  hasAny (toLowerCase P.tables.toCharTables message)
    ["inproxy", "in-proxy", "conduit relay", "candidateservers", "failed to make dial parameters",
      "verifysignature", "inproxy-dial:", "requestingtactics", "requestedtactics"]

/-- `extractDuration` -/
def extractDuration (message : String) : Option String := do
  let found ← groups P.engine.candidateDurationPattern message
  let value ← found 1
  let unit := (found 2).getD "s"
  let ms : Bool := unit.length == 2 && startsWith P.tables.equalsIgnoringCase unit "ms"
  pure (if ms then value ++ "ms" else value ++ "s")

/-- `formatDuration` of `ConduitStatusParser`: what is no number stays as it is. -/
def formatDuration (D : Decimals) (goDuration : String) : Option String :=
  if isBlank goDuration then none
  else if endsWith goDuration "ms" then
    match D.parseDouble (removeSuffix goDuration "ms") with
    | some ms => some (if D.lessThan ms 1 then "<1ms" else toString (D.toInt ms) ++ "ms")
    | none => some goDuration
  else if endsWith goDuration "s" then
    match D.parseDouble (removeSuffix goDuration "s") with
    | some sec =>
      some (if D.lessThan sec 10 then D.formatUS 1 sec ++ "s" else toString (D.toInt sec) ++ "s")
    | none => some goDuration
  else some goDuration

/-- `countryName` -/
def countryName (code : String) : String :=
  if isBlank code then code
  else
    let name := "region_name_" ++ toLowerCase P.tables.toCharTables code
    if P.context.hasString name then P.context.getString name []
    else P.context.getDisplayCountry code

/-- A part of a line, if there is anything to put into it. -/
def part (before : String) (what : Option String) (after : String) : String :=
  match what.bind takeNotBlank with
  | some s => before ++ s ++ after
  | none => ""

/-- The line of an `inproxy-dial:` message. -/
def dialLine (data : Json.Object) (msg : String) : String :=
  let phase := kotlinTrim (substringAfter msg "inproxy-dial:")
  let optString (name : String) := P.json.optString data name ""
  let trimmed := (takeNotBlank (optString "error")).map fun error =>
    if 120 < error.length then String.ofList (error.toList.take 120) ++ "…" else error
  kotlinTrim (part "#" (optString "attempt") " " ++ phase ++
    part " (" (formatDuration P.decimals (optString "duration")) ")" ++
    part " [timeout=" (formatDuration P.decimals (optString "timeout")) "]" ++
    part " [NAT=" (optString "natType") "]" ++ part " | " trimmed "")

/-- The text of the object in a notice `Kind: {..}`. -/
def objectText (message : String) : Except Thrown String :=
  let colonSpace := indexOf (· == ·) message ": \x7b"
  if 0 ≤ colonSpace then substringFrom message (colonSpace + 2) else .ok message

/-- What `parseInproxyDialLine` does with a message that is no object: it is cut at the first sign
of one. -/
def cutDialLine (message : String) : Except Thrown (Option String) :=
  let idx := indexOf P.tables.equalsIgnoringCase message "inproxy-dial:"
  if idx < 0 then .ok none
  else do
    let remainder := kotlinTrim (← substringFrom message (idx + "inproxy-dial:".length))
    match (["\",", "\"\x7d"].map (indexOf (· == ·) remainder)).filter (0 < ·) |>.min? with
    | some e => some <$> substring remainder 0 e
    | none => pure (some remainder)

/-- `parseInproxyDialLine` -/
def parseInproxyDialLine (message : String) : Except Thrown (Option String) :=
  catchingAll
    (do
      let data ← P.json.readObject (← objectText message)
      let msg := P.json.optString data "message" ""
      pure (if startsWith P.tables.equalsIgnoringCase msg "inproxy-dial:" then
        some (dialLine P data msg) else none))
    (cutDialLine P message)

/-- The first lines of `parseDashboardLine`: keys that are missing, and candidates. -/
def candidateLine (lower message : String) : Option String :=
  let has := contains (· == ·) lower
  let getString := P.context.getString
  if has "verifysignature" && (has "missing public key" || has "missing distributor") then
    some (getString "azadi_conduit_blocked" [])
  else if has "failed to make dial parameters" && has "missing" then
    some (getString "azadi_conduit_blocked" [])
  else if has "candidateservers" then
    if has "loading" then some (getString "azadi_conduit_loading_candidates" [])
    else (groups P.engine.candidateCountPattern message).map fun found =>
      let count := (found 1).getD "0"
      let duration := (extractDuration P message).getD ""
      if !isBlank duration then getString "azadi_conduit_loaded_candidates" [count, duration]
      else getString "azadi_conduit_loaded_candidates_no_duration" [count]
  else none

/-- A relay that is tried. -/
def tryingLine (message : String) : Option String :=
  (groups P.engine.tryingRelayPattern message).map fun found =>
    P.context.getString "azadi_conduit_trying_relay" [countryName P ((found 1).getD "")]

/-- A relay that is connected, with its country or without.  A group that is not there has no
name. -/
def connectedLine (message : String) : Except Thrown (Option String) :=
  let name (found : ℕ → Option String) := (found 1).elim (pure "") (displayName P.tables)
  match groups P.engine.connectedRelayCountryPattern message with
  | some found => do
    let country := countryName P ((found 2).getD "")
    pure (some (P.context.getString "azadi_conduit_connected_relay" [← name found, country]))
  | none =>
    match groups P.engine.connectedRelayProtocolPattern message with
    | some found => do
      pure (some (P.context.getString "azadi_conduit_connected_relay_no_country" [← name found]))
    | none => pure none

/-- The broker, and the tactics that are waited for. -/
def brokerLine (lower : String) : Option String :=
  let getString (name : String) := some (P.context.getString name [])
  if hasAny lower ["inproxy: selected broker", "selected broker"] then
    getString "azadi_conduit_broker_selected"
  else if hasAny lower ["in-proxy protocol selection", "selecting in-proxy protocol"] then
    getString "azadi_conduit_selecting_protocol"
  else if hasAny lower ["broker 404"] then getString "azadi_conduit_broker_404"
  else if hasAny lower ["broker roundtripper", "contacting in-proxy broker"] then
    getString "azadi_conduit_contacting_broker"
  else if hasAny lower ["requestingtactics", "requestedtactics"] then
    getString "azadi_conduit_waiting_tactics"
  else none

/-- `parseDashboardLine` -/
def parseDashboardLine (message : String) : Except Thrown (Option String) :=
  let lower := toLowerCase P.tables.toCharTables message
  match (candidateLine P lower message).or (tryingLine P message) with
  | some line => .ok line
  | none => do
    match ← connectedLine P message with
    | some line => pure (some line)
    | none =>
      match brokerLine P lower with
      | some line => pure (some line)
      | none =>
        if contains P.tables.equalsIgnoringCase message "inproxy-dial:" then
          parseInproxyDialLine P message
        else if contains (· == ·) lower "trying conduit relay" &&
            contains (· == ·) message "country:" then
          pure (tryingLine P message)
        else pure none

end Conduit

/-! ## 5. The store -/

namespace TunnelStatisticsStore

variable (P : Platform)

/-- `setConnectedTunnelProtocol`; the name is for the event log. -/
def setConnectedTunnelProtocol (s : TunnelStatisticsStore) (raw : String) :
    Except Thrown TunnelStatisticsStore :=
  if isBlank raw then .ok s
  else do
    let s := s.init P.json
    let _display ← displayName P.tables raw
    pure (s.save P.json { s.load P.json with connectedTunnelProtocol := raw })

/-- `setConduitStatusLine` -/
def setConduitStatusLine (s : TunnelStatisticsStore) (rawDiagnosticMessage : String) (now : Int64) :
    Except Thrown TunnelStatisticsStore := do
  match ← parseDashboardLine P rawDiagnosticMessage with
  | some line => pure (s.setConduitStatusLineParsed P.json line now)
  | none => pure s

/-- `routeLegacyConduitPatterns` -/
def routeLegacyConduitPatterns (s : TunnelStatisticsStore) (message : String) (now : Int64) :
    Except Thrown TunnelStatisticsStore :=
  if contains (· == ·) message "trying Conduit relay (country:" then
    s.setConduitStatusLine P message now
  else if contains (· == ·) message "tunnel connected via Conduit relay" then
    s.setConduitStatusLine P message now
  else if contains (· == ·) message "inproxy-dial:" then s.setConduitStatusLine P message now
  else if contains (· == ·) message "tunnel connected (protocol:" then
    match (groups protocolPattern message).bind (· 1) with
    | some raw => s.setConnectedTunnelProtocol P raw
    | none => .ok s
  else .ok s

/-- `onDiagnosticMessage` of the store; `now` is what the clock says while it runs. -/
def onDiagnosticMessage (s : TunnelStatisticsStore) (message : String) (now : Int64) :
    Except Thrown TunnelStatisticsStore := do
  let s := s.init P.json
  let s ← (extractProtocol P message).elim (pure s) (s.setConnectedTunnelProtocol P)
  let s ← (if shouldParse P message then s.setConduitStatusLine P message now else pure s)
  s.routeLegacyConduitPatterns P message now

end TunnelStatisticsStore

/-! ## 6. Every place is within its text -/

section Places

/-- Only a text that is long enough begins with `INPROXY-WEBRTC-` in upper case. -/
theorem length_le_of_uppercase {T : CaseTables} {pattern cs : List Char}
    (hpattern : ∀ p ∈ pattern, p ∈ inproxyPrefix.toList)
    (h : beginsWith (· == ·) pattern (cs.flatMap T.toUpperCase) = true) :
    pattern.length ≤ cs.length := by
  induction cs generalizing pattern with
  | nil => exact length_le_of_beginsWith h
  | cons c cs ih =>
    rw [List.flatMap_cons] at h
    rw [List.length_cons]
    match pattern with
    | [] => exact Nat.zero_le _
    | [p] => exact Nat.succ_le_succ (Nat.zero_le _)
    | p :: q :: ps =>
      have hrest := (List.forall_mem_cons.mp hpattern).2
      match hupper : T.toUpperCase c with
      | [] =>
        rw [hupper] at h
        exact Nat.le_succ_of_le (ih hpattern h)
      | [a] =>
        rw [hupper] at h
        exact Nat.succ_le_succ (ih hrest (Bool.and_eq_true_iff.mp h).2)
      | a :: b :: more =>
        -- two letters of the pattern would be one letter in upper case
        rw [hupper] at h
        obtain ⟨hpa, h⟩ := Bool.and_eq_true_iff.mp h
        obtain ⟨hqb, -⟩ := Bool.and_eq_true_iff.mp h
        obtain rfl := beq_iff_eq.mp hpa
        obtain rfl := beq_iff_eq.mp hqb
        exact absurd (hrest _ List.mem_cons_self)
          (T.toUpperCase_inproxy c _ _ _ hupper (hpattern _ List.mem_cons_self))

theorem substringFrom_inproxyPrefix {T : CaseTables} {raw : String}
    (h : startsWith (· == ·) (uppercase T raw) inproxyPrefix = true) :
    Completes (substringFrom raw inproxyPrefix.length) := by
  rw [startsWith, uppercase, String.toList_ofList] at h
  have hlength := length_le_of_uppercase (fun p hp => hp) h
  rw [String.length_toList, String.length_toList] at hlength
  rw [completes_substringFrom]
  omega

/-- **A name for every protocol**, by induction on its length. -/
theorem displayName_completes (T : CaseTables) (raw : String) : Completes (displayName T raw) := by
  induction hlength : raw.length using Nat.strong_induction_on generalizing raw with
  | h n ih =>
    subst hlength
    rw [displayName]
    split
    · exact completes_ok _
    · dsimp only
      split
      · rename_i hbegins
        obtain ⟨rest, hrest⟩ := substringFrom_inproxyPrefix hbegins
        have hshort := length_of_substringFrom hrest
        have htrim : (kotlinTrim rest).length ≤ rest.length := length_trimChars_le _ _
        have hfifteen : inproxyPrefix.length = 15 := rfl
        split
        · rename_i e he
          rw [hrest] at he
          cases he
        · rename_i rest' hrest'
          obtain rfl := Except.ok.inj (hrest.symm.trans hrest')
          refine Completes.bind ?_ fun _ _ => completes_pure _
          split
          · exact completes_pure _
          · exact ih _ (by omega) _ rfl
      · exact completes_ok _

variable (P : Platform)

/-- **What cannot be read** is cut where something has been found. -/
theorem cutDialLine_completes (message : String) : Completes (cutDialLine P message) := by
  unfold cutDialLine
  dsimp only
  split
  · exact completes_ok _
  · rename_i hidx
    have hbound := indexOf_add_length_le (Int.not_lt.mp hidx)
    refine Completes.bind ?_ fun rest _ => ?_
    · rw [completes_substringFrom]
      omega
    · split
      · rename_i e he
        have hmem := List.min?_mem he
        obtain ⟨hmem, hpos⟩ := List.mem_filter.mp hmem
        obtain ⟨t, -, rfl⟩ := List.mem_map.mp hmem
        have hpos := of_decide_eq_true hpos
        have hbound := indexOf_add_length_le (Int.le_of_lt hpos)
        rw [completes_map, completes_substring]
        omega
      · exact completes_pure _

theorem parseInproxyDialLine_completes (message : String) :
    Completes (parseInproxyDialLine P message) :=
  (cutDialLine_completes P message).catchingAll

theorem connectedLine_completes (message : String) : Completes (connectedLine P message) := by
  have hname : ∀ found : ℕ → Option String,
      Completes ((found 1).elim (pure "") (displayName P.tables)) := by
    intro found
    cases found 1 with
    | none => exact completes_pure _
    | some raw => exact displayName_completes P.tables raw
  unfold connectedLine
  dsimp only
  split
  · exact (hname _).bind fun _ _ => completes_pure _
  · split
    · exact (hname _).bind fun _ _ => completes_pure _
    · exact completes_pure _

theorem parseDashboardLine_completes (message : String) :
    Completes (parseDashboardLine P message) := by
  unfold parseDashboardLine
  dsimp only
  split
  · exact completes_ok _
  · refine (connectedLine_completes P message).bind fun connected _ => ?_
    split
    · exact completes_pure _
    · split
      · exact completes_pure _
      · split
        · exact parseInproxyDialLine_completes P message
        · split <;> exact completes_pure _

namespace TunnelStatisticsStore

theorem setConnectedTunnelProtocol_completes (s : TunnelStatisticsStore) (raw : String) :
    Completes (s.setConnectedTunnelProtocol P raw) := by
  unfold setConnectedTunnelProtocol
  split
  · exact completes_ok _
  · exact (displayName_completes P.tables raw).bind fun _ _ => completes_pure _

theorem setConduitStatusLine_completes (s : TunnelStatisticsStore) (message : String)
    (now : Int64) : Completes (s.setConduitStatusLine P message now) := by
  unfold setConduitStatusLine
  refine (parseDashboardLine_completes P message).bind fun line _ => ?_
  split <;> exact completes_pure _

theorem routeLegacyConduitPatterns_completes (s : TunnelStatisticsStore) (message : String)
    (now : Int64) : Completes (s.routeLegacyConduitPatterns P message now) := by
  have hline := s.setConduitStatusLine_completes P message now
  unfold routeLegacyConduitPatterns
  split
  · exact hline
  · split
    · exact hline
    · split
      · exact hline
      · split
        · split
          · exact s.setConnectedTunnelProtocol_completes P _
          · exact completes_ok _
        · exact completes_ok _

/-- **The store takes every notice.** -/
theorem onDiagnosticMessage_completes (s : TunnelStatisticsStore) (message : String)
    (now : Int64) : Completes (s.onDiagnosticMessage P message now) := by
  unfold onDiagnosticMessage
  dsimp only
  refine Completes.bind ?_ fun s _ => Completes.bind ?_ fun s _ => ?_
  · cases extractProtocol P message with
    | none => exact completes_pure _
    | some raw => exact setConnectedTunnelProtocol_completes P _ raw
  · split
    · exact s.setConduitStatusLine_completes P message now
    · exact completes_pure _
  · exact s.routeLegacyConduitPatterns_completes P message now

end TunnelStatisticsStore

end Places

end ShiroKhorshid.Conduit
