/-
# What the settings say is used (`MoreOptionsPreferenceActivity`)

The settings screen says how many addresses and names are used.  It has its own copies of the
checks, which accept the same texts.  But it counts entries, and `TunnelManager` leaves out the
ones that are there already.

* The copies are kept apart from the originals, under their own names, and shown to accept the same
  (`isValidIPv4Cidr_eq`, `normalizeHostname_eq`); they are written differently, so this is not by
  definition.
* The number of distinct entries is that of all entries if and only if none is entered twice, for
  addresses and for names (`nodup_enteredAddresses_iff`, `nodup_enteredNames_iff`); two names are
  the same if they are normalized to the same.
* The first name is the same however often it is entered (`firstSniEntry_eq`).

`countsAgree_iff`: the counts are right exactly if nothing is entered twice.

It is about what is shown for a stored text; the screen may show another text while it is edited.
-/
import ShiroKhorshid.Cdn.Hostnames

namespace ShiroKhorshid.Cdn

open Jvm Linked

/-! ## 1. The scan -/

/-- What `makeCdnFrontingScanSpec` puts in its object. -/
structure ScanSpec where
  ipCandidates : List String
  sniServerNames : Option (List String)

/-- `makeCdnFrontingScanSpec`, with `none` for `null`. -/
def makeCdnFrontingScanSpec (T : CharTables) (customIpList customSni : String) : Option ScanSpec :=
  let ipCandidates := parseCdnFrontingCustomIpCandidates customIpList
  if ipCandidates = [] then none
  else
    let sniServerNames := parseCdnFrontingCustomSniList T customSni
    some ⟨ipCandidates, if sniServerNames = [] then none else some sniServerNames⟩

/-! ## 2. The settings -/

namespace MoreOptions

/-- `MoreOptionsPreferenceActivity.isValidIPv4Address`. -/
def isValidIPv4Address (ipAddress : String) : Bool :=
  ipAddress ≠ "" && Cdn.isValidIPv4Address ipAddress

/-- `MoreOptionsPreferenceActivity.isValidIPv4Cidr`. -/
def isValidIPv4Cidr (cidr : String) : Bool := isCidr isValidIPv4Address cidr

/-- `MoreOptionsPreferenceActivity.isValidHostname`. -/
def isValidHostname (T : CharTables) (hostname : String) : Bool :=
  isHostname T isValidIPv4Address hostname

/-- `MoreOptionsPreferenceActivity.normalizeHostname`. -/
def normalizeHostname (T : CharTables) (hostname : String) : String :=
  normalized T (isValidHostname T) hostname

/-- `countCdnFrontingIpEntries`. -/
def countCdnFrontingIpEntries (value : String) : ℕ :=
  if value = "" then 0
  else (splitRuns value).countP fun entry =>
    let candidate := javaTrim entry
    isValidIPv4Address candidate || isValidIPv4Cidr candidate

/-- `countCdnFrontingSniEntries`. -/
def countCdnFrontingSniEntries (T : CharTables) (value : String) : ℕ :=
  if value = "" then 0
  else (splitRuns value).countP fun entry => normalizeHostname T entry ≠ ""

/-- `firstCdnFrontingSniEntry`. -/
def firstCdnFrontingSniEntry (T : CharTables) (value : String) : String :=
  if value = "" then ""
  else (((splitRuns value).map (normalizeHostname T)).find? (· ≠ "")).getD ""

/-! ### The copies accept the same -/

theorem isValidIPv4Address_eq : isValidIPv4Address = Cdn.isValidIPv4Address := by
  funext ip
  rw [isValidIPv4Address]
  by_cases hip : ip = ""
  · subst hip
    decide
  · simp [hip]

theorem isValidIPv4Cidr_eq : isValidIPv4Cidr = Cdn.isValidIPv4Cidr := by
  funext cidr
  rw [isValidIPv4Cidr, isValidIPv4Address_eq]
  rfl

theorem normalizeHostname_eq (T : CharTables) : normalizeHostname T = Cdn.normalizeHostname T := by
  have hvalid : isValidHostname T = Cdn.isValidHostname T := by
    funext hostname
    rw [isValidHostname, isValidIPv4Address_eq]
    rfl
  funext hostname
  rw [normalizeHostname, hvalid]
  rfl

end MoreOptions

/-! ## 3. Counting -/

/-- The names that are entered, one for each entry. -/
def enteredNames (T : CharTables) (text : String) : List String :=
  ((splitRuns text).map (normalizeHostname T)).filter (· ≠ "")

theorem countIpEntries_eq_length (text : String) :
    MoreOptions.countCdnFrontingIpEntries text = (enteredAddresses text).length := by
  rw [MoreOptions.countCdnFrontingIpEntries, MoreOptions.isValidIPv4Address_eq,
    MoreOptions.isValidIPv4Cidr_eq]
  split
  · rename_i hempty
    subst hempty
    decide
  · rw [enteredAddresses, ← List.countP_eq_length_filter, List.countP_map]
    simp only [Function.comp_def]

theorem enteredNames_empty (T : CharTables) : enteredNames T "" = [] := by
  have hparts : splitRuns "" = [""] := by decide
  rw [enteredNames, hparts]
  rfl

theorem countSniEntries_eq_length (T : CharTables) (text : String) :
    MoreOptions.countCdnFrontingSniEntries T text = (enteredNames T text).length := by
  rw [MoreOptions.countCdnFrontingSniEntries, MoreOptions.normalizeHostname_eq]
  split
  · rename_i hempty
    rw [hempty, enteredNames_empty]
    rfl
  · rw [enteredNames, ← List.countP_eq_length_filter, List.countP_map]
    simp only [Function.comp_def]

/-- The number of addresses to scan. -/
def scanned (spec : Option ScanSpec) : ℕ := (spec.map fun s => s.ipCandidates.length).getD 0

theorem scanned_eq (T : CharTables) (text customSni : String) :
    scanned (makeCdnFrontingScanSpec T text customSni) =
      (parseCdnFrontingCustomIpCandidates text).length := by
  rw [makeCdnFrontingScanSpec]
  split
  · rename_i hnil
    rw [hnil]
    rfl
  · rfl

/-- **The first name is the same**, however often it is entered. -/
theorem firstSniEntry_eq (T : CharTables) (text : String) :
    MoreOptions.firstCdnFrontingSniEntry T text = normalizeCdnFrontingCustomSni T text := by
  have hhead : normalizeCdnFrontingCustomSni T text =
      (parseCdnFrontingCustomSniList T text).head?.getD "" := by
    rw [normalizeCdnFrontingCustomSni]
    cases parseCdnFrontingCustomSniList T text with
    | nil => rfl
    | cons sni sniServerNames => rfl
  rw [hhead, parseSniList_eq_insertAll, head?_insertAll, MoreOptions.firstCdnFrontingSniEntry,
    MoreOptions.normalizeHostname_eq]
  split
  · rename_i hempty
    change _ = (enteredNames T text).head?.getD ""
    rw [hempty, enteredNames_empty]
    rfl
  · rw [List.head?_filter]

/-- The settings say what is used. -/
structure CountsAgree (T : CharTables) (text : String) : Prop where
  addresses : ∀ customSni, MoreOptions.countCdnFrontingIpEntries text =
    scanned (makeCdnFrontingScanSpec T text customSni)
  names : MoreOptions.countCdnFrontingSniEntries T text =
    (parseCdnFrontingCustomSniList T text).length
  first : MoreOptions.firstCdnFrontingSniEntry T text = normalizeCdnFrontingCustomSni T text

/-- Nothing is entered twice. -/
structure NothingTwice (T : CharTables) (text : String) : Prop where
  addresses : (splitRuns text).Pairwise fun t u =>
    Accepted (javaTrim t) → javaTrim t ≠ javaTrim u
  names : (splitRuns text).Pairwise fun t u =>
    normalizeHostname T t ≠ "" → normalizeHostname T t ≠ normalizeHostname T u

theorem nodup_enteredAddresses_iff {text : String} :
    (enteredAddresses text).Nodup ↔ (splitRuns text).Pairwise fun t u =>
      Accepted (javaTrim t) → javaTrim t ≠ javaTrim u := by
  rw [enteredAddresses, nodup_filter_map_iff]
  simp only [accepted_iff]

theorem nodup_enteredNames_iff {T : CharTables} {text : String} :
    (enteredNames T text).Nodup ↔ (splitRuns text).Pairwise fun t u =>
      normalizeHostname T t ≠ "" → normalizeHostname T t ≠ normalizeHostname T u := by
  rw [enteredNames, nodup_filter_map_iff]
  simp only [decide_eq_true_eq]

/-- **When the counts are right**: if nothing is entered twice. -/
theorem countsAgree_iff (T : CharTables) (text : String) :
    CountsAgree T text ↔ NothingTwice T text := by
  have haddresses : (∀ customSni, MoreOptions.countCdnFrontingIpEntries text =
      scanned (makeCdnFrontingScanSpec T text customSni)) ↔ (enteredAddresses text).Nodup := by
    simp only [scanned_eq, forall_const]
    rw [countIpEntries_eq_length, parseIpCandidates_eq_insertAll, eq_comm]
    exact length_insertAll_eq_iff
  have hnames : MoreOptions.countCdnFrontingSniEntries T text =
      (parseCdnFrontingCustomSniList T text).length ↔ (enteredNames T text).Nodup := by
    rw [countSniEntries_eq_length, parseSniList_eq_insertAll, eq_comm]
    exact length_insertAll_eq_iff
  rw [nodup_enteredAddresses_iff] at haddresses
  rw [nodup_enteredNames_iff] at hnames
  constructor
  · exact fun h => ⟨haddresses.mp h.addresses, hnames.mp h.names⟩
  · exact fun h => ⟨haddresses.mpr h.addresses, hnames.mpr h.names, firstSniEntry_eq T text⟩

/-- **An address twice.** -/
theorem repeated_address_counted :
    MoreOptions.countCdnFrontingIpEntries "1.1.1.1 1.1.1.1" = 2 ∧
      parseCdnFrontingCustomIpCandidates "1.1.1.1 1.1.1.1" = ["1.1.1.1"] ∧
      ¬ CountsAgree basicLatin "1.1.1.1 1.1.1.1" := by
  have htwo : MoreOptions.countCdnFrontingIpEntries "1.1.1.1 1.1.1.1" = 2 := by decide +kernel
  have hone : parseCdnFrontingCustomIpCandidates "1.1.1.1 1.1.1.1" = ["1.1.1.1"] := by
    decide +kernel
  refine ⟨htwo, hone, fun h => ?_⟩
  have hcount := h.addresses ""
  rw [htwo, scanned_eq, hone] at hcount
  exact absurd hcount (by decide)

end ShiroKhorshid.Cdn
