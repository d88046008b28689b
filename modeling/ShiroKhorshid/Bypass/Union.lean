/-
# What the VPN manager is handed (`TunnelManager.configureVpnBypassAndDns`)

Three producers feed the list of bypassed routes: the Iranian networks come from a file, the custom
routes from a preference, the addresses of domains from a cache.  Whatever these hold, it goes
through `BypassRoutes.parse`, and what comes out is a network written without host bits,
`Canonical`.  So the parsers of `VpnManager`, which check nothing, take every entry.

`bypass_routes_clean`: outside proxy-only mode the list is the union of the enabled sources, each
route where it is first met; in proxy-only mode it is empty.

* The routes of each source are canonical (`canonical_of_mem_enabledRoutes`).
* The keys of `routeKeys` tell entries apart, because an address holds no slash (`keyOf_inj`), so
  adding a route is inserting its entry (`addRoutes_eq`, by induction on the routes).
* A canonical entry is the text of a prefix, and each parser reads that prefix off it
  (`accepted_strings`).

It is not claimed that `VpnService.Builder` takes the routes: that is Android's class, it refuses
loopback destinations, and `127.0.0.1` is a custom route like any other.
-/
import ShiroKhorshid.Bypass.Domains
import ShiroKhorshid.Bypass.IranList

namespace ShiroKhorshid.Bypass

open Jvm Vpn Service

/-! ## 1. The sources -/

/-- What the service finds: the list of Iranian networks, and the cache of resolved domains, which
the lookups are added to first. -/
def sourcesFound (list : ListCache) (assetOpens : Bool) (prefs : Prefs) (answers : ℕ → Lookup) :
    BypassSources where
  effectiveRoutes := list.effectiveRoutes assetOpens
  resolvedRoutes := fun bypassDomains =>
    resolvedRoutes (resolveAndCache prefs bypassDomains answers).2

/-- The routes of the enabled sources, one source after the other. -/
def enabledRoutes (sources : BypassSources) (c : Config) : List BypassRoute :=
  (if c.bypassIranIPsEnabled then sources.effectiveRoutes else []) ++
  (if c.bypassCustomRoutes ≠ "" then parseBlob c.bypassCustomRoutes else []) ++
  (if c.bypassDomains ≠ "" then sources.resolvedRoutes c.bypassDomains else [])

theorem canonical_of_mem_resolvedRoutes {prefs : Prefs} {r : BypassRoute}
    (h : r ∈ resolvedRoutes prefs) : Canonical r := by
  rw [resolvedRoutes, Linked.mem_insertAll] at h
  obtain ⟨p, -, hp⟩ := List.mem_flatMap.mp (h.resolve_left List.not_mem_nil)
  obtain ⟨entry, -, hentry⟩ := List.mem_filterMap.mp hp
  exact canonical_of_parseRoute hentry

theorem canonical_of_mem_effectiveRoutes {list : ListCache} {assetOpens : Bool} {r : BypassRoute}
    (h : r ∈ list.effectiveRoutes assetOpens) : Canonical r := by
  unfold ListCache.effectiveRoutes at h
  dsimp only at h
  split at h
  · unfold ListCache.readCacheFile at h
    split at h
    · exact absurd h List.not_mem_nil
    · exact canonical_of_mem_parseList h
  · rw [bundledRoutes_eq] at h
    exact canonical_of_mem_parseList h

/-- **Whatever the sources hold**, their routes are canonical. -/
theorem canonical_of_mem_enabledRoutes {list : ListCache} {assetOpens : Bool} {prefs : Prefs}
    {answers : ℕ → Lookup} {c : Config} {r : BypassRoute}
    (h : r ∈ enabledRoutes (sourcesFound list assetOpens prefs answers) c) : Canonical r := by
  unfold enabledRoutes at h
  rcases List.mem_append.mp h with h | h
  · rcases List.mem_append.mp h with h | h
    · split at h
      · exact canonical_of_mem_effectiveRoutes h
      · exact absurd h List.not_mem_nil
    · split at h
      · exact canonical_of_mem_parseList h
      · exact absurd h List.not_mem_nil
  · split at h
    · exact canonical_of_mem_resolvedRoutes h
    · exact absurd h List.not_mem_nil

/-! ## 2. The union -/

/-- An entry of `excludeRoutes`. -/
def entryOf (r : BypassRoute) : String × String := (r.address, toString r.prefixLength)

/-- The key of an entry in `routeKeys`. -/
def keyOf (e : String × String) : String := e.1 ++ "/" ++ e.2

/-- No two entries have the same key: an address holds no slash. -/
theorem keyOf_inj {e e' : String × String} (he : '/' ∉ e.1.toList) (he' : '/' ∉ e'.1.toList)
    (h : keyOf e = keyOf e') : e = e' := by
  have hsplit := congrArg splitSlash h
  rw [keyOf, keyOf, splitSlash_join he, splitSlash_join he'] at hsplit
  obtain ⟨haddress, hrest⟩ := List.cons.inj hsplit
  exact Prod.ext haddress (List.cons.inj hrest).1

theorem slash_not_mem_of_canonical {r : BypassRoute} (h : Canonical r) :
    '/' ∉ (entryOf r).1.toList := by
  obtain ⟨a, n, -, rfl⟩ := h
  exact slash_not_mem_longToIp _

/-- **One source**: the keys are those of the entries, so a route is added if its entry is new. -/
theorem addRoutes_eq {entries : List (String × String)} {routes : List BypassRoute}
    (hentries : ∀ e ∈ entries, '/' ∉ e.1.toList) (hroutes : ∀ r ∈ routes, Canonical r) :
    addRoutes (entries.map keyOf, entries) routes =
      ((Linked.insertAll entries (routes.map entryOf)).map keyOf,
        Linked.insertAll entries (routes.map entryOf)) := by
  induction routes generalizing entries with
  | nil => rfl
  | cons r routes ih =>
    have hslash := slash_not_mem_of_canonical (hroutes r List.mem_cons_self)
    have hmem : keyOf (entryOf r) ∈ entries.map keyOf ↔ entryOf r ∈ entries := by
      constructor
      · intro h
        obtain ⟨e, he, hkey⟩ := List.mem_map.mp h
        exact keyOf_inj (hentries e he) hslash hkey ▸ he
      · exact fun h => List.mem_map_of_mem h
    have hnext : ∀ e ∈ Linked.insert entries (entryOf r), '/' ∉ e.1.toList := by
      intro e he
      rcases Linked.mem_insert.mp he with he | rfl
      · exact hentries e he
      · exact hslash
    have hrest := ih hnext fun r hr => hroutes r (List.mem_cons_of_mem _ hr)
    have hfirst : (if keyOf (entryOf r) ∈ entries.map keyOf then (entries.map keyOf, entries)
        else (entries.map keyOf ++ [keyOf (entryOf r)], entries ++ [entryOf r])) =
        ((Linked.insert entries (entryOf r)).map keyOf, Linked.insert entries (entryOf r)) := by
      unfold Linked.insert
      by_cases hin : entryOf r ∈ entries
      · rw [if_pos (hmem.mpr hin), if_pos hin]
      · rw [if_neg (mt hmem.mp hin), if_neg hin, List.map_append]
        rfl
    exact (congrArg (fun acc => addRoutes acc routes) hfirst).trans hrest

/-- A source that is not enabled adds nothing. -/
theorem addRoutes_ite (acc : List String × List (String × String)) (p : Prop) [Decidable p]
    (routes : List BypassRoute) :
    (if p then addRoutes acc routes else acc) = addRoutes acc (if p then routes else []) := by
  split <;> rfl

theorem addRoutes_append (acc : List String × List (String × String))
    (routes routes' : List BypassRoute) :
    addRoutes acc (routes ++ routes') = addRoutes (addRoutes acc routes) routes' :=
  List.foldl_append

theorem excludeRoutes_eq_addRoutes (sources : BypassSources) (c : Config) :
    excludeRoutes sources c = (addRoutes ([], []) (enabledRoutes sources c)).2 := by
  unfold excludeRoutes enabledRoutes
  simp only [addRoutes_ite, addRoutes_append]

/-- **All sources.** -/
theorem excludeRoutes_eq (sources : BypassSources) (c : Config)
    (h : ∀ r ∈ enabledRoutes sources c, Canonical r) :
    excludeRoutes sources c = ((enabledRoutes sources c).map entryOf).eraseDups := by
  have hadd := addRoutes_eq (fun e he => absurd he List.not_mem_nil) h
  rw [excludeRoutes_eq_addRoutes, ← Linked.insertAll_eq_eraseDups]
  exact congrArg Prod.snd hadd

/-! ## 3. The entries -/

/-- Masking an address, here and in the VPN manager. -/
theorem and_bypassMask (a : BitVec 32) {n : ℕ} (hn : n ≤ 32) :
    a.setWidth 64 &&& bypassMask n = (a >>> (32 - n) <<< (32 - n)).setWidth 64 := by
  have hmask : 0xFFFFFFFF#64 &&& bypassMask n = prefixToMask n := by
    interval_cases n <;> decide
  have haddress : a.setWidth 64 &&& 0xFFFFFFFF#64 = a.setWidth 64 := by
    refine BitVec.eq_of_toNat_eq ?_
    have ha := a.isLt
    rw [BitVec.toNat_and, BitVec.toNat_setWidth]
    change _ &&& (2 ^ 32 - 1) = _
    rw [Nat.and_two_pow_sub_one_eq_mod]
    omega
  have hstart := blockStartOf_eq hn (a.setWidth 64)
  rw [blockStartOf, ← hmask, ← BitVec.and_assoc, haddress] at hstart
  rw [hstart]
  congr 3
  refine BitVec.eq_of_toNat_eq ?_
  have ha := a.isLt
  rw [BitVec.toNat_setWidth, BitVec.toNat_setWidth]
  omega

/-- A canonical route is the text of a prefix. -/
theorem exists_prefix_of_canonical {r : BypassRoute} (h : Canonical r) :
    ∃ p : IpPrefix, entryOf r = p.strings := by
  obtain ⟨a, n, hn, rfl⟩ := h
  refine ⟨⟨a >>> (32 - n) <<< (32 - n), n, hn, mask_mask a _⟩, ?_⟩
  rw [entryOf, routeOf, IpPrefix.strings, and_bypassMask a hn]
  rfl

/-- What the parsers of `VpnManager` make of an entry: all of them take it. -/
structure Accepted (entry : String × String) (p : IpPrefix) : Prop where
  strings : entry = p.strings
  ipToLong : ipToLong entry.1 = some (p.address.setWidth 64)
  parseInt : parseInt entry.2 = some (p.length : ℤ)
  getByName : getByName entry.1 = some p.address
  ofAddress : IpPrefix.ofAddress p.address p.length = some p

theorem accepted_strings (p : IpPrefix) : Accepted p.strings p := by
  have hlength := p.length_le
  exact ⟨rfl, ipToLong_longToIp _, parseInt_toString (by omega), getByName_longToIp _,
    p.ofAddress_self⟩

/-- **The list of bypassed routes.**  Whatever the cache file, the preferences, the cache of
resolved domains and the lookups hold: outside proxy-only mode the list is that of the enabled
sources, each entry where it first occurs, and in proxy-only mode it is empty; and every entry is a
network that all parsers of the VPN manager take. -/
theorem bypass_routes_clean (list : ListCache) (assetOpens : Bool) (prefs : Prefs)
    (answers : ℕ → Lookup) (c : Config) :
    let sources := sourcesFound list assetOpens prefs answers
    (bypassRoutesOf sources c =
      if c.proxyOnlyMode then [] else ((enabledRoutes sources c).map entryOf).eraseDups) ∧
    (bypassRoutesOf sources c).Nodup ∧
    ∀ e ∈ bypassRoutesOf sources c, ∃ p, Accepted e p := by
  intro sources
  have hcanonical : ∀ r ∈ enabledRoutes sources c, Canonical r :=
    fun r hr => canonical_of_mem_enabledRoutes hr
  have hlist : bypassRoutesOf sources c =
      if c.proxyOnlyMode then [] else ((enabledRoutes sources c).map entryOf).eraseDups := by
    rw [bypassRoutesOf, excludeRoutes_eq sources c hcanonical]
  have hentries : ∀ e ∈ bypassRoutesOf sources c, ∃ p : IpPrefix, e = p.strings := by
    intro e he
    rw [hlist] at he
    split at he
    · exact absurd he List.not_mem_nil
    · rw [← Linked.insertAll_eq_eraseDups, Linked.mem_insertAll] at he
      obtain ⟨r, hr, rfl⟩ := List.mem_map.mp (he.resolve_left List.not_mem_nil)
      exact exists_prefix_of_canonical (hcanonical r hr)
  refine ⟨hlist, ?_, ?_⟩
  · rw [hlist]
    split
    · exact List.nodup_nil
    · rw [← Linked.insertAll_eq_eraseDups]
      exact Linked.nodup_insertAll List.nodup_nil _
  · intro e he
    obtain ⟨p, rfl⟩ := hentries e he
    exact ⟨p, accepted_strings p⟩

/-- In proxy-only mode a custom route is left out. -/
theorem proxy_only_bypasses_nothing :
    ∃ c : Config, c.bypassCustomRoutes = "10.0.0.0/8" ∧
      bypassRoutesOf (sourcesFound ⟨none, 0, 0⟩ false none fun _ => none) c ≠
        ((enabledRoutes (sourcesFound ⟨none, 0, 0⟩ false none fun _ => none) c).map
          entryOf).eraseDups := by
  refine ⟨{ getTunnelConfig (fun _ => none) with
    proxyOnlyMode := true, bypassCustomRoutes := "10.0.0.0/8" }, rfl, ?_⟩
  decide +kernel

end ShiroKhorshid.Bypass
