/-
# The list of Iranian networks (`IranBypassListService`)

The list is fetched from three sources, the first that has routes wins, and kept as text in a
cache file; a list bundled with the app stands in while the file is empty.  `refresh` reports how
many routes there are, `effectiveRoutes` hands them to the service.

* **The cache**: a parsed list has no route twice, and is parsed back from its entries, in a list
  and in a text (`cache_round_trip`).
* **One refresh** leaves a fresh list alone, or caches what has been fetched, or the bundled list
  where every source has failed (`refresh_spec`).
* **The count** is always right (`Refreshed.count`, `length_effectiveRoutes_refresh`), because what
  is written is read back.
* **That an outage loses nothing** is not: `refresh` then writes the bundled list over whatever was
  cached before.  `refresh_history_iff` says which outages a fetched list survives, over any history
  of refreshes.

What the sources answer, with which body and whether they throw, comes with the history, and so does
the time of each refresh.  A write of the file that fails is not modelled.
-/
import ShiroKhorshid.Bypass.Written

namespace ShiroKhorshid.Bypass

open Jvm Service

/-! ## 1. The source -/

def TTL_MS : ℤ := 24 * 60 * 60 * 1000

def remoteSources : List String :=
  ["https://cdn.jsdelivr.net/gh/ipverse/rir-ip@master/country/ir/ipv4-aggregated.txt",
   "https://www.iwik.org/ipcountry/IR.cidr",
   "https://raw.githubusercontent.com/ipverse/rir-ip/master/country/ir/ipv4-aggregated.txt"]

/-- What becomes of a request: it throws, or there is a status code, with the two streams of the
connection (the error stream may be missing). -/
inductive Outcome where
  | exception
  | response (code : ℤ) (inputStream : String) (errorStream : Option String)

/-- `httpGet`; `none` is the exception. -/
def httpGet : Outcome → Option String
  | .exception => none
  | .response code inputStream errorStream =>
    some (if 200 ≤ code ∧ code ≤ 299 then inputStream else errorStream.getD "")

/-- `body.lines()`, up to empty lines. -/
def lines (body : String) : List String := splitAny (fun c => c = '\n' || c = '\r') body

def parseRemoteBody (body : String) : List BypassRoute :=
  let kept := ((lines body).map kotlinTrim).filter fun l => l ≠ "" && l.toList.head? ≠ some '#'
  parseList (kept.map fun line => if '/' ∈ line.toList then line else line ++ "/32")

/-- The networks that come with the app. -/
def bundledLines : List String :=
  ["2.144.0.0/14", "5.52.0.0/16", "31.24.0.0/13", "37.98.0.0/16", "46.32.0.0/19",
   "78.39.0.0/16", "79.175.128.0/18", "85.185.0.0/16", "91.106.0.0/16", "94.182.0.0/16",
   "109.122.192.0/18", "178.22.72.0/21", "185.4.16.0/22", "188.121.0.0/16", "193.189.122.0/23"]

def bundledHeader : String :=
  "# Bundled Iran IPv4 CIDR snapshot (fallback when remote fetch unavailable)"

/-- The asset `bypass-iran-cidr-bundled.txt`, with the newline at its end. -/
def bundledAsset : String := joinToString '\n' (bundledHeader :: bundledLines ++ [""])

/-- The text of `BundledIranCIDR`. -/
def bundledIranCIDR : String := joinToString '\n' bundledLines

/-- `bundledRoutes`: the asset, or what is compiled in if the asset cannot be opened. -/
def bundledRoutes (assetOpens : Bool) : List BypassRoute :=
  if assetOpens then parseBlob bundledAsset else parseBlob bundledIranCIDR

/-- The cache file, if there is one, and the two preferences. -/
structure ListCache where
  cacheFile : Option String
  count : ℕ
  updatedAt : ℤ
deriving DecidableEq

namespace ListCache

def readCacheFile (s : ListCache) : List BypassRoute :=
  match s.cacheFile with
  | none => []
  | some text => parseBlob text

def writeCacheFile (s : ListCache) (routes : List BypassRoute) : ListCache :=
  { s with cacheFile := some (joinToString '\n' (routes.map cidr)) }

def effectiveRoutes (s : ListCache) (assetOpens : Bool) : List BypassRoute :=
  let cached := s.readCacheFile
  if cached ≠ [] then cached else bundledRoutes assetOpens

def listCount (s : ListCache) (assetOpens : Bool) : ℕ := (s.effectiveRoutes assetOpens).length

end ListCache

/-- What a call of `refresh` is given and meets: the clock when it looks at the age of the list and
when it notes the time, what becomes of each request, and whether the asset can be opened. -/
structure Refresh where
  force : Bool
  now : ℤ
  notedAt : ℤ
  outcome : String → Outcome
  assetOpens : Bool

/-- The loop over the sources: the first that yields routes ends it. -/
def fetch (outcome : String → Outcome) (sources : List String) : Option (List BypassRoute) :=
  sources.findSome? fun source =>
    match httpGet (outcome source) with
    | none => none
    | some body =>
      let routes := parseRemoteBody body
      if routes ≠ [] then some routes else none

namespace ListCache

/-- The cached list is fresh enough. -/
def Fresh (s : ListCache) (e : Refresh) : Prop :=
  e.force = false ∧ s.updatedAt > 0 ∧ e.now - s.updatedAt < TTL_MS

instance (s : ListCache) (e : Refresh) : Decidable (s.Fresh e) :=
  inferInstanceAs (Decidable (_ ∧ _ ∧ _))

/-- `refresh`: the number it returns, and what it leaves behind. -/
def refresh (s : ListCache) (e : Refresh) : ℕ × ListCache :=
  if s.Fresh e then (s.listCount e.assetOpens, s)
  else
    match fetch e.outcome remoteSources with
    | some routes =>
      (routes.length,
        { s.writeCacheFile routes with count := routes.length, updatedAt := e.notedAt })
    | none =>
      let fallback := bundledRoutes e.assetOpens
      if fallback ≠ [] then
        (fallback.length,
          { s.writeCacheFile fallback with
            count := fallback.length
            updatedAt := if s.updatedAt = 0 then e.notedAt else s.updatedAt })
      else (0, s)

end ListCache

/-! ## 2. What one refresh does -/

/-- The routes of a text are those of its lines. -/
theorem parseBlob_joinToString_lines (ls : List String) :
    parseBlob (joinToString '\n' ls) =
      Linked.insertAll [] (ls.flatMap fun l => (tokenize l).filterMap parseRoute) := by
  rw [parseBlob, tokenize_joinToString, parseList_eq, List.filterMap_flatMap]

theorem parse_header : (tokenize bundledHeader).filterMap parseRoute = [] := by
  decide +kernel

theorem parse_first : (tokenize "2.144.0.0/14").filterMap parseRoute =
    [⟨"2.144.0.0", "255.252.0.0", 14⟩] := by
  decide +kernel

/-- **The two bundles are one list.** -/
theorem bundledRoutes_eq (assetOpens : Bool) :
    bundledRoutes assetOpens = parseBlob bundledIranCIDR := by
  cases assetOpens with
  | false => rfl
  | true =>
    have hempty : (tokenize "").filterMap parseRoute = [] := by decide
    change parseBlob bundledAsset = _
    rw [bundledAsset, bundledIranCIDR, parseBlob_joinToString_lines, parseBlob_joinToString_lines,
      List.flatMap_append, List.flatMap_cons, parse_header, List.nil_append, List.flatMap_singleton,
      hempty, List.append_nil]

/-- Its first route. -/
theorem mem_bundledIranCIDR :
    (⟨"2.144.0.0", "255.252.0.0", 14⟩ : BypassRoute) ∈ parseBlob bundledIranCIDR := by
  rw [bundledIranCIDR, parseBlob_joinToString_lines, Linked.mem_insertAll]
  refine Or.inr (List.mem_flatMap.mpr ⟨"2.144.0.0/14", List.mem_cons_self, ?_⟩)
  rw [parse_first]
  exact List.mem_singleton.mpr rfl

theorem bundledRoutes_ne_nil (assetOpens : Bool) : bundledRoutes assetOpens ≠ [] := by
  rw [bundledRoutes_eq]
  exact List.ne_nil_of_mem mem_bundledIranCIDR

theorem parseBlob_write {routes : List BypassRoute} {entries : List String}
    (h : routes = parseList entries) :
    parseBlob (joinToString '\n' (routes.map cidr)) = routes := by
  subst h
  exact parseBlob_joinToString (nodup_parseList _) (fun _ hr => canonical_of_mem_parseList hr)

/-- **The cache.**  A parsed list has no route twice, is parsed back from its entries, in a list
and in a text, and is read from the file it is written to. -/
theorem cache_round_trip (entries : List String) (s : ListCache) :
    let routes := parseList entries
    routes.Nodup ∧ parseBlob (joinToString '\n' (routes.map cidr)) = routes ∧
      parseList (routes.map cidr) = routes ∧
      (s.writeCacheFile routes).readCacheFile = routes := by
  intro routes
  have hcanonical : ∀ r ∈ routes, Canonical r := fun _ hr => canonical_of_mem_parseList hr
  have hblob : parseBlob (joinToString '\n' (routes.map cidr)) = routes :=
    parseBlob_joinToString (nodup_parseList _) hcanonical
  exact ⟨nodup_parseList _, hblob, parseList_cidr (nodup_parseList _) hcanonical, hblob⟩

/-- What the sources yield is a parsed list with something in it. -/
theorem fetch_eq_some {outcome : String → Outcome} {sources : List String}
    {routes : List BypassRoute} (h : fetch outcome sources = some routes) :
    routes ≠ [] ∧ ∃ entries, routes = parseList entries := by
  obtain ⟨source, -, hsource⟩ := List.exists_of_findSome?_eq_some h
  split at hsource
  · cases hsource
  · dsimp only at hsource
    split at hsource
    · rename_i hne
      obtain rfl := Option.some.inj hsource
      exact ⟨hne, _, rfl⟩
    · cases hsource

/-- The first source is asked first. -/
theorem fetch_of_first {outcome : String → Outcome} {source body : String} {rest : List String}
    (hbody : httpGet (outcome source) = some body) (hne : parseRemoteBody body ≠ []) :
    fetch outcome (source :: rest) = some (parseRemoteBody body) := by
  rw [fetch, List.findSome?_cons]
  simp only [hbody, if_pos hne]

namespace ListCache

/-- The list that replaces the cached one when a refresh is not put off. -/
def replacement (e : Refresh) : List BypassRoute :=
  (fetch e.outcome remoteSources).getD (bundledRoutes e.assetOpens)

theorem replacement_ne_nil (e : Refresh) : replacement e ≠ [] := by
  rw [replacement]
  cases h : fetch e.outcome remoteSources with
  | none => exact bundledRoutes_ne_nil _
  | some routes => exact (fetch_eq_some h).1

/-- **What a refresh does.**  It leaves a fresh list alone and counts it; else it caches the
replacement and counts that. -/
theorem refresh_spec (s : ListCache) (e : Refresh) :
    if s.Fresh e then s.refresh e = (s.listCount e.assetOpens, s)
    else (s.refresh e).1 = (replacement e).length ∧
      (s.refresh e).2.readCacheFile = replacement e := by
  by_cases hfresh : s.Fresh e
  · rw [if_pos hfresh, refresh, if_pos hfresh]
  · rw [if_neg hfresh, refresh, if_neg hfresh, replacement]
    cases h : fetch e.outcome remoteSources with
    | none =>
      simp only [if_pos (bundledRoutes_ne_nil e.assetOpens)]
      exact ⟨rfl, parseBlob_write (bundledRoutes_eq e.assetOpens)⟩
    | some routes =>
      obtain ⟨-, entries, hentries⟩ := fetch_eq_some h
      exact ⟨rfl, parseBlob_write hentries⟩

/-- The list in use does not depend on how the bundle is read. -/
theorem effectiveRoutes_eq (s : ListCache) (assetOpens assetOpens' : Bool) :
    s.effectiveRoutes assetOpens = s.effectiveRoutes assetOpens' := by
  rw [effectiveRoutes, effectiveRoutes, bundledRoutes_eq, bundledRoutes_eq]

/-- **The count is right.** -/
theorem length_effectiveRoutes_refresh (s : ListCache) (e : Refresh) (assetOpens : Bool) :
    ((s.refresh e).2.effectiveRoutes assetOpens).length = (s.refresh e).1 := by
  have hspec := s.refresh_spec e
  by_cases hfresh : s.Fresh e
  · rw [if_pos hfresh] at hspec
    rw [hspec, effectiveRoutes_eq _ _ e.assetOpens]
    rfl
  · rw [if_neg hfresh] at hspec
    rw [hspec.1, effectiveRoutes, hspec.2, if_pos (replacement_ne_nil e)]

end ListCache

/-! ## 3. Histories -/

/-- The cache, and whether what is in it was fetched from a source. -/
structure History where
  cache : ListCache
  fetched : Bool

/-- A refresh that is carried out notes where its list came from. -/
def History.refresh (w : History) (e : Refresh) : History :=
  ⟨(w.cache.refresh e).2,
    if w.cache.Fresh e then w.fetched else (fetch e.outcome remoteSources).isSome⟩

@[simp] theorem History.cache_refresh (w : History) (e : Refresh) :
    (w.refresh e).cache = (w.cache.refresh e).2 := rfl

/-- A source fails: it throws, has a status other than 2xx, or a body without routes. -/
def Outcome.Fails : Outcome → Prop
  | .exception => True
  | .response code inputStream _ =>
    200 ≤ code ∧ code ≤ 299 → parseRemoteBody inputStream = []

/-- What a refresh owes: when all sources fail, a list fetched before stays, in the cache and in
use; and the number returned is that of the routes in use. -/
structure Refreshed (w : History) (e : Refresh) : Prop where
  kept : w.fetched = true → w.cache.readCacheFile ≠ [] →
    (∀ source ∈ remoteSources, (e.outcome source).Fails) →
      (w.refresh e).cache.readCacheFile = w.cache.readCacheFile ∧
        ∀ assetOpens, (w.refresh e).cache.effectiveRoutes assetOpens =
          w.cache.effectiveRoutes assetOpens
  count : ∀ assetOpens,
    ((w.refresh e).cache.effectiveRoutes assetOpens).length = (w.cache.refresh e).1

/-- A fetched list survives: the refresh is put off, some source works, or the list that takes its
place, that of an error page that has routes or else the bundled one, happens to be the same. -/
def Survives (w : History) (e : Refresh) : Prop :=
  w.fetched = true → w.cache.readCacheFile ≠ [] →
    (∀ source ∈ remoteSources, (e.outcome source).Fails) →
      w.cache.Fresh e ∨ ListCache.replacement e = w.cache.readCacheFile

/-- **One refresh.** -/
theorem refreshed_iff (w : History) (e : Refresh) : Refreshed w e ↔ Survives w e := by
  have hspec := w.cache.refresh_spec e
  have hcount : ∀ assetOpens, ((w.refresh e).cache.effectiveRoutes assetOpens).length =
      (w.cache.refresh e).1 := w.cache.length_effectiveRoutes_refresh e
  constructor
  · intro h hfetched hne hfails
    by_cases hfresh : w.cache.Fresh e
    · exact Or.inl hfresh
    · rw [if_neg hfresh] at hspec
      exact Or.inr (hspec.2.symm.trans (h.kept hfetched hne hfails).1)
  · intro h
    refine ⟨fun hfetched hne hfails => ?_, hcount⟩
    by_cases hfresh : w.cache.Fresh e
    · rw [if_pos hfresh] at hspec
      have hsame : (w.refresh e).cache = w.cache := congrArg Prod.snd hspec
      rw [hsame]
      exact ⟨rfl, fun _ => rfl⟩
    · have hlist : (w.refresh e).cache.readCacheFile = w.cache.readCacheFile := by
        rw [if_neg hfresh] at hspec
        exact hspec.2.trans ((h hfetched hne hfails).resolve_left hfresh)
      refine ⟨hlist, fun assetOpens => ?_⟩
      rw [ListCache.effectiveRoutes, hlist]
      rfl

/-- **Refreshing the list.**  In any history of refreshes each of them owes what it should exactly
when a fetched list survives each of them. -/
theorem refresh_history_iff (w : History) (history : List Refresh) :
    (∀ done e rest, history = done ++ e :: rest → Refreshed (done.foldl History.refresh w) e) ↔
      ∀ done e rest, history = done ++ e :: rest → Survives (done.foldl History.refresh w) e :=
  forall₃_congr fun _ e _ => imp_congr_right fun _ => refreshed_iff _ e

/-- A refresh in which one network is fetched. -/
def fetching : Refresh :=
  ⟨true, 1000, 1000, fun _ => .response 200 "5.22.192.0/21" none, true⟩

/-- A refresh in which no source can be reached. -/
def offline : Refresh := ⟨true, 2000, 2000, fun _ => .exception, true⟩

theorem readCacheFile_fetching (w : History) :
    (w.refresh fetching).cache.readCacheFile = [⟨"5.22.192.0", "255.255.248.0", 21⟩] ∧
      (w.refresh fetching).fetched = true := by
  have hbody : parseRemoteBody "5.22.192.0/21" = [⟨"5.22.192.0", "255.255.248.0", 21⟩] := by
    decide +kernel
  have hfetch : fetch fetching.outcome remoteSources =
      some [⟨"5.22.192.0", "255.255.248.0", 21⟩] := by
    rw [← hbody]
    refine fetch_of_first rfl ?_
    rw [hbody]
    exact List.cons_ne_nil _ _
  have hforced : ¬ w.cache.Fresh fetching := fun hfresh => Bool.noConfusion hfresh.1
  have hspec := w.cache.refresh_spec fetching
  rw [if_neg hforced, ListCache.replacement, hfetch, Option.getD_some] at hspec
  rw [History.cache_refresh]
  refine ⟨hspec.2, ?_⟩
  rw [History.refresh, if_neg hforced, hfetch]
  rfl

theorem readCacheFile_offline (w : History) :
    (w.refresh offline).cache.readCacheFile = parseBlob bundledIranCIDR := by
  have hforced : ¬ w.cache.Fresh offline := fun hfresh => Bool.noConfusion hfresh.1
  have hnone : fetch offline.outcome remoteSources = none := rfl
  have hspec := w.cache.refresh_spec offline
  rw [if_neg hforced, ListCache.replacement, hnone, Option.getD_none, bundledRoutes_eq] at hspec
  rw [History.cache_refresh]
  exact hspec.2

/-- **Where it fails.**  A fetched list does not outlive the next outage. -/
theorem outage_overwrites_list :
    let w := (History.mk ⟨none, 0, 0⟩ false).refresh fetching
    w.fetched = true ∧ w.cache.readCacheFile = [⟨"5.22.192.0", "255.255.248.0", 21⟩] ∧
      (∀ source ∈ remoteSources, (offline.outcome source).Fails) ∧
      (w.refresh offline).cache.readCacheFile = parseBlob bundledIranCIDR ∧
      ¬ Refreshed w offline := by
  obtain ⟨hcached, hfetched⟩ := readCacheFile_fetching (History.mk ⟨none, 0, 0⟩ false)
  have hfails : ∀ source ∈ remoteSources, (offline.outcome source).Fails := fun _ _ => trivial
  refine ⟨hfetched, hcached, hfails, readCacheFile_offline _, fun h => ?_⟩
  have hkept := (h.kept hfetched (by rw [hcached]; exact List.cons_ne_nil _ _) hfails).1
  rw [readCacheFile_offline, hcached] at hkept
  have hfirst := mem_bundledIranCIDR
  rw [hkept] at hfirst
  exact absurd hfirst (by decide)

end ShiroKhorshid.Bypass
