/-
# Bypassed domains (`BypassDomainResolver`)

A domain is bypassed by its addresses.  Each time the service is configured it looks its domains
up and notes the addresses of those that have any in a cache, which outlives the configuration;
then it bypasses all addresses in the cache.  A lookup that fails leaves the last good answer in
use, which is what the cache is for; one that finds IPv6 addresses only counts as one that fails.

But the cache forgets no domain either.  `domainRoutes_exact_iff` says what that does to the law
that the bypassed addresses are those of the domains in the configuration: after any history of
configurations it holds exactly when every domain that was dropped has left no address behind that
is not, by then, the address of a domain that was not dropped.

* The cache is an object from domains to texts of addresses; a configuration assigns its resolutions
  one by one (`loadCache_configure`), and what it writes is read back (`loadCache_saveCache`).
* So after a history it holds the LATEST resolution of every domain there has been
  (`loadCache_prefsAfter`, by induction on the history), and what is bypassed is read off that
  (`mem_resolvedRoutes_iff`).
* The law compares this with the latest resolutions of the domains in the last configuration.

What a lookup answers comes with the history; the JSON text of the cache is not modelled.
-/
import ShiroKhorshid.Bypass.Written

namespace ShiroKhorshid.Bypass

open Jvm Vpn Service

/-! ## 1. The source -/

/-- `InetAddress`: four bytes, or an IPv6 address, which is printed with colons. -/
inductive InetAddress where
  | inet4 (address : BitVec 32)
  | inet6 (text : { s : String // ':' ∈ s.toList })

/-- `hostAddress`. -/
def InetAddress.hostAddress : InetAddress → String
  | .inet4 address => longToIp (address.setWidth 64)
  | .inet6 text => text

/-- What `InetAddress.getAllByName` gives; `none` is the exception. -/
abbrev Lookup : Type := Option (List InetAddress)

/-- The domains of a list. -/
def domainsOf (domainsBlob : String) : List String :=
  (tokenize domainsBlob).filter fun d => !d.toList.contains '/' && d.toList.contains '.'

/-- The texts of the IPv4 addresses of an answer, each once. -/
def ipsOf (answer : List InetAddress) : List String :=
  Linked.insertAll [] ((answer.map InetAddress.hostAddress).filter fun ip =>
    ip.toList.contains '.' && !ip.toList.contains ':')

/-- The preference `bypass_domain_resolved_ips`: the members of a JSON object, if it is there.  The
text of the object is read back as the object that was written. -/
abbrev Prefs : Type := Option (List (String × String))

/-- `loadCache`: the members that are not blank. -/
def loadCache (prefs : Prefs) : List (String × String) :=
  Linked.putAll [] ((prefs.getD []).filter fun p => !p.2.toList.all isWhitespace)

/-- `saveCache`. -/
def saveCache (cache : List (String × String)) : Prefs := some (Linked.putAll [] cache)

/-- One turn of the loop of `resolveAndCache`: the cache, and how many addresses were added. -/
def resolve (acc : List (String × String) × ℕ) (domain : String) (answer : Lookup) :
    List (String × String) × ℕ :=
  match answer with
  | none => acc
  | some answer =>
    let ips := ipsOf answer
    if ips ≠ [] then (Linked.put domain (joinToString ',' ips) acc.1, acc.2 + ips.length) else acc

/-- `resolveAndCache`, when the `i`th lookup gives `answers i`. -/
def resolveAndCache (prefs : Prefs) (domainsBlob : String) (answers : ℕ → Lookup) : ℕ × Prefs :=
  let domains := domainsOf domainsBlob
  if domains = [] then (0, prefs)
  else
    let (cache, added) := domains.zipIdx.foldl (fun acc d => resolve acc d.1 (answers d.2))
      (loadCache prefs, 0)
    (added, saveCache cache)

/-- The routes of one value of the cache. -/
def cachedRoutes (ips : String) : List BypassRoute :=
  (((splitAny (fun c => c = ',' || c = ' ' || c = '\n') ips).map kotlinTrim).filter
    (· ≠ "")).filterMap parseRoute

/-- `resolvedRoutes`. -/
def resolvedRoutes (prefs : Prefs) : List BypassRoute :=
  Linked.insertAll [] ((loadCache prefs).flatMap fun p => cachedRoutes p.2)

/-- A configuration, with what the lookups it causes give. -/
structure Configuration where
  bypassDomains : String
  answers : ℕ → Lookup

/-- What `configureVpnBypassAndDns` does about domains: the routes it adds, and the preference
after it. -/
def configure (prefs : Prefs) (c : Configuration) : List BypassRoute × Prefs :=
  if c.bypassDomains ≠ "" then
    let (_, prefs) := resolveAndCache prefs c.bypassDomains c.answers
    (resolvedRoutes prefs, prefs)
  else ([], prefs)

/-! ## 2. What has been resolved -/

def InetAddress.ipv4 : InetAddress → Option (BitVec 32)
  | .inet4 address => some address
  | .inet6 _ => none

/-- The IPv4 addresses of an answer. -/
def addressesOf (answer : List InetAddress) : List (BitVec 32) :=
  answer.filterMap InetAddress.ipv4

/-- The lookups of a configuration that found an IPv4 address, in order. -/
def Configuration.resolutions (c : Configuration) : List (String × List (BitVec 32)) :=
  (domainsOf c.bypassDomains).zipIdx.filterMap fun d =>
    ((c.answers d.2).map addressesOf).bind fun addresses =>
      if addresses ≠ [] then some (d.1, addresses) else none

/-- The addresses that the most recent successful lookup found for a domain.  A lookup is counted if
it finds an IPv4 address, the only kind that is bypassed; one that fails, or finds IPv6 addresses
only, is not, and the addresses of the one before it stay in use. -/
def latest (history : List Configuration) (domain : String) : List (BitVec 32) :=
  (Linked.lastValue (history.flatMap Configuration.resolutions) domain).getD []

/-- The text of a resolution in the cache. -/
def textOf (addresses : List (BitVec 32)) : String :=
  joinToString ',' (Linked.insertAll [] (addresses.map fun a => longToIp (a.setWidth 64)))

/-- The preference after a history of configurations. -/
def prefsAfter (history : List Configuration) : Prefs :=
  history.foldl (fun prefs c => (configure prefs c).2) none

theorem dot_mem_longToIp (ip : BitVec 64) : '.' ∈ (longToIp ip).toList := by simp [longToIp]

theorem colon_not_mem_longToIp (ip : BitVec 64) : ':' ∉ (longToIp ip).toList := by
  intro h
  rcases plain_longToIp ip _ h with h | h <;> exact absurd h (by decide)

/-- The texts that are kept of an answer are those of its IPv4 addresses. -/
theorem ipsOf_eq (answer : List InetAddress) :
    ipsOf answer = Linked.insertAll [] ((addressesOf answer).map fun a =>
      longToIp (a.setWidth 64)) := by
  rw [ipsOf, addressesOf]
  congr 1
  induction answer with
  | nil => rfl
  | cons a answer ih =>
    rw [List.map_cons]
    cases a with
    | inet4 address =>
      rw [List.filter_cons_of_pos, ih]
      · rfl
      · simp [InetAddress.hostAddress, dot_mem_longToIp, colon_not_mem_longToIp]
    | inet6 text =>
      rw [List.filter_cons_of_neg, ih]
      · rfl
      · simp [InetAddress.hostAddress, text.2]

/-- Something was resolved exactly when something is kept. -/
theorem ipsOf_eq_nil_iff (answer : List InetAddress) :
    ipsOf answer = [] ↔ addressesOf answer = [] := by
  rw [ipsOf_eq]
  constructor
  · intro h
    by_contra hne
    obtain ⟨a, ha⟩ := List.exists_mem_of_ne_nil _ hne
    have hmem : longToIp (a.setWidth 64) ∈ Linked.insertAll [] ((addressesOf answer).map
        fun a => longToIp (a.setWidth 64)) :=
      Linked.mem_insertAll.mpr (Or.inr (List.mem_map.mpr ⟨a, ha, rfl⟩))
    rw [h] at hmem
    exact List.not_mem_nil hmem
  · intro h
    rw [h]
    rfl

/-! ## 3. The cache after a history -/

/-- What the cache is given for the resolutions. -/
def entriesOf (resolutions : List (String × List (BitVec 32))) : List (String × String) :=
  resolutions.map fun p => (p.1, textOf p.2)

/-- **The loop** assigns the resolutions. -/
theorem foldl_resolve (answers : ℕ → Lookup) (domains : List (String × ℕ))
    (acc : List (String × String) × ℕ) :
    (domains.foldl (fun acc d => resolve acc d.1 (answers d.2)) acc).1 =
      Linked.putAll acc.1 (entriesOf (domains.filterMap fun d =>
        ((answers d.2).map addressesOf).bind fun addresses =>
          if addresses ≠ [] then some (d.1, addresses) else none)) := by
  induction domains generalizing acc with
  | nil => rfl
  | cons d domains ih =>
    rw [List.foldl_cons, ih, List.filterMap_cons]
    cases hanswer : answers d.2 with
    | none => rfl
    | some answer =>
      by_cases hnone : addressesOf answer = []
      · simp [resolve, hnone, (ipsOf_eq_nil_iff answer).mpr hnone]
      · have hips : ipsOf answer ≠ [] := fun h => hnone ((ipsOf_eq_nil_iff answer).mp h)
        simp only [resolve, if_pos hips, Option.map_some, Option.bind_some, if_pos hnone]
        rw [ipsOf_eq]
        rfl

theorem not_blank_of_dot {s : String} (h : '.' ∈ s.toList) : s.toList.all isWhitespace = false := by
  rw [List.all_eq_false]
  exact ⟨'.', h, by decide⟩

theorem textOf_not_blank {addresses : List (BitVec 32)} (h : addresses ≠ []) :
    (textOf addresses).toList.all isWhitespace = false := by
  obtain ⟨a, ha⟩ := List.exists_mem_of_ne_nil _ h
  refine not_blank_of_dot (mem_joinToString (s := longToIp (a.setWidth 64)) ?_ ?_)
  · exact Linked.mem_insertAll.mpr (Or.inr (List.mem_map.mpr ⟨a, ha, rfl⟩))
  · exact dot_mem_longToIp _

theorem ne_nil_of_mem_resolutions {c : Configuration} {p : String × List (BitVec 32)}
    (h : p ∈ c.resolutions) : p.2 ≠ [] := by
  obtain ⟨d, -, hd⟩ := List.mem_filterMap.mp h
  obtain ⟨addresses, -, hp⟩ := Option.bind_eq_some_iff.mp hd
  split at hp
  · rename_i hne
    obtain rfl := Option.some.inj hp
    exact hne
  · cases hp

theorem not_blank_of_mem_entriesOf {c : Configuration} {p : String × String}
    (h : p ∈ entriesOf c.resolutions) : p.2.toList.all isWhitespace = false := by
  obtain ⟨q, hq, rfl⟩ := List.mem_map.mp h
  exact textOf_not_blank (ne_nil_of_mem_resolutions hq)

theorem keyed_loadCache (prefs : Prefs) : Linked.Keyed (loadCache prefs) :=
  Linked.keyed_putAll Linked.keyed_nil _

theorem not_blank_of_mem_loadCache {prefs : Prefs} {p : String × String} (h : p ∈ loadCache prefs) :
    p.2.toList.all isWhitespace = false := by
  have hkept := (Linked.mem_or_mem_of_mem_putAll Linked.keyed_nil h).resolve_left List.not_mem_nil
  simpa using (List.mem_filter.mp hkept).2

/-- A cache that is saved is loaded again. -/
theorem loadCache_saveCache {cache : List (String × String)} (hkeyed : Linked.Keyed cache)
    (h : ∀ p ∈ cache, p.2.toList.all isWhitespace = false) :
    loadCache (saveCache cache) = cache := by
  have hsave : Linked.putAll [] cache = cache := Linked.putAll_of_keyed hkeyed
  rw [loadCache, saveCache, Option.getD_some, hsave, List.filter_eq_self.mpr, hsave]
  intro p hp
  rw [h p hp]
  rfl

/-- **A configuration** assigns its resolutions. -/
theorem loadCache_configure (prefs : Prefs) (c : Configuration) :
    loadCache (configure prefs c).2 =
      Linked.putAll (loadCache prefs) (entriesOf c.resolutions) := by
  by_cases hdomains : domainsOf c.bypassDomains = []
  · have hresolutions : c.resolutions = [] := by
      rw [Configuration.resolutions, hdomains]
      rfl
    have hprefs : (configure prefs c).2 = prefs := by
      rw [configure]
      split
      · simp [resolveAndCache, hdomains]
      · rfl
    rw [hprefs, hresolutions]
    rfl
  · have hne : c.bypassDomains ≠ "" := by
      intro hempty
      rw [hempty] at hdomains
      exact hdomains (by decide)
    rw [configure, if_pos hne]
    simp only [resolveAndCache, if_neg hdomains]
    rw [foldl_resolve, ← Configuration.resolutions]
    refine loadCache_saveCache (Linked.keyed_putAll (keyed_loadCache prefs) _) ?_
    intro p hp
    rcases Linked.mem_or_mem_of_mem_putAll (keyed_loadCache prefs) hp with hp | hp
    · exact not_blank_of_mem_loadCache hp
    · exact not_blank_of_mem_entriesOf hp

/-- **The cache after a history** holds the latest resolution of every domain there has been. -/
theorem loadCache_prefsAfter (history : List Configuration) :
    loadCache (prefsAfter history) =
      Linked.putAll [] (entriesOf (history.flatMap Configuration.resolutions)) := by
  induction history using List.reverseRecOn with
  | nil => rfl
  | append_singleton history c ih =>
    rw [prefsAfter, List.foldl_append, ← prefsAfter, List.flatMap_append, List.flatMap_singleton,
      entriesOf, List.map_append, Linked.putAll_append, ← entriesOf, ← ih]
    exact loadCache_configure _ c

/-! ## 4. What is bypassed -/

/-- The routes of the text of a resolution. -/
theorem mem_cachedRoutes_textOf {addresses : List (BitVec 32)} (h : addresses ≠ [])
    {r : BypassRoute} :
    r ∈ cachedRoutes (textOf addresses) ↔ ∃ a ∈ addresses, r = routeOf a 32 := by
  have hparts : ∀ s, s ∈ Linked.insertAll [] (addresses.map fun a => longToIp (a.setWidth 64)) ↔
      ∃ a ∈ addresses, longToIp (a.setWidth 64) = s := by
    intro s
    rw [Linked.mem_insertAll, List.mem_map]
    simp
  have hplain : ∀ s ∈ Linked.insertAll [] (addresses.map fun a => longToIp (a.setWidth 64)),
      s ≠ "" ∧ ∀ c ∈ s.toList, Plain c := by
    intro s hs
    obtain ⟨a, -, rfl⟩ := (hparts s).mp hs
    exact ⟨longToIp_ne_empty _, fun c hc => (plain_longToIp _ c hc).imp_right Or.inl⟩
  generalize hlist : Linked.insertAll [] (addresses.map fun a => longToIp (a.setWidth 64)) = parts
    at hparts hplain
  have hne : parts ≠ [] := by
    obtain ⟨a, ha⟩ := List.exists_mem_of_ne_nil _ h
    exact List.ne_nil_of_mem ((hparts _).mpr ⟨a, ha, rfl⟩)
  have hsplit : splitAny (fun c => c = ',' || c = ' ' || c = '\n') (joinToString ',' parts) =
      parts := by
    rw [splitAny_joinToString (by decide) hne, List.flatMap_congr, List.flatMap_singleton']
    intro s hs
    refine splitAny_eq_singleton ?_
    intro c hc
    have hc := (hplain s hs).2 c hc
    simp [hc.ne (show ','.toNat < 0x2E by decide), hc.ne (show ' '.toNat < 0x2E by decide),
      hc.ne (show '\n'.toNat < 0x2E by decide)]
  have htrim : parts.map kotlinTrim = parts := by
    rw [List.map_congr_left (fun s hs => kotlinTrim_of_plain (hplain s hs).2), List.map_id']
  have hfilter : parts.filter (· ≠ "") = parts := by
    rw [List.filter_eq_self]
    exact fun s hs => decide_eq_true (hplain s hs).1
  rw [cachedRoutes, textOf, hlist, hsplit, htrim, hfilter, List.mem_filterMap]
  constructor
  · rintro ⟨s, hs, hr⟩
    obtain ⟨a, ha, rfl⟩ := (hparts s).mp hs
    rw [parseRoute_longToIp] at hr
    exact ⟨a, ha, (Option.some.inj hr).symm⟩
  · rintro ⟨a, ha, rfl⟩
    exact ⟨_, (hparts _).mpr ⟨a, ha, rfl⟩, parseRoute_longToIp a⟩

/-- **What the cache bypasses**: the latest addresses of every domain there has been. -/
theorem mem_resolvedRoutes_iff {history : List Configuration} {r : BypassRoute} :
    r ∈ resolvedRoutes (prefsAfter history) ↔
      ∃ d, ∃ a ∈ latest history d, r = routeOf a 32 := by
  rw [resolvedRoutes, Linked.mem_insertAll, List.mem_flatMap, loadCache_prefsAfter]
  have hheld : ∀ d text, (d, text) ∈ Linked.putAll []
      (entriesOf (history.flatMap Configuration.resolutions)) ↔
        ∃ addresses, Linked.lastValue (history.flatMap Configuration.resolutions) d =
          some addresses ∧ textOf addresses = text := by
    intro d text
    rw [Linked.mem_putAll_nil, entriesOf, Linked.lastValue_map, Option.map_eq_some_iff]
  have hne : ∀ d addresses, Linked.lastValue (history.flatMap Configuration.resolutions) d =
      some addresses → addresses ≠ [] := by
    intro d addresses hlast
    obtain ⟨c, -, hc⟩ := List.mem_flatMap.mp (Linked.mem_of_lastValue hlast)
    exact ne_nil_of_mem_resolutions hc
  constructor
  · rintro (hnil | ⟨⟨d, text⟩, hmem, hr⟩)
    · exact (List.not_mem_nil hnil).elim
    · obtain ⟨addresses, hlast, rfl⟩ := (hheld d text).mp hmem
      obtain ⟨a, ha, hra⟩ := (mem_cachedRoutes_textOf (hne d addresses hlast)).mp hr
      refine ⟨d, a, ?_, hra⟩
      rw [latest, hlast]
      exact ha
  · rintro ⟨d, a, ha, rfl⟩
    rw [latest] at ha
    cases hlast : Linked.lastValue (history.flatMap Configuration.resolutions) d with
    | none =>
      rw [hlast] at ha
      exact (List.not_mem_nil ha).elim
    | some addresses =>
      rw [hlast] at ha
      exact Or.inr ⟨(d, textOf addresses), (hheld d _).mpr ⟨addresses, hlast, rfl⟩,
        (mem_cachedRoutes_textOf (hne d addresses hlast)).mpr ⟨a, ha, rfl⟩⟩

theorem nodup_resolvedRoutes (prefs : Prefs) : (resolvedRoutes prefs).Nodup :=
  Linked.nodup_insertAll List.nodup_nil _

/-- Different addresses have different routes. -/
theorem routeOf_inj {a b : BitVec 32} (h : routeOf a 32 = routeOf b 32) : a = b := by
  have hmask : ∀ x : BitVec 32, x.setWidth 64 &&& bypassMask 32 = x.setWidth 64 := by
    intro x
    have hx := x.isLt
    refine BitVec.eq_of_toNat_eq ?_
    rw [BitVec.toNat_and, BitVec.toNat_setWidth]
    change _ &&& (2 ^ 32 - 1) = _
    rw [Nat.and_two_pow_sub_one_eq_mod]
    omega
  have haddress : longToIp (a.setWidth 64) = longToIp (b.setWidth 64) := by
    have hfield := congrArg BypassRoute.address h
    rw [routeOf, routeOf] at hfield
    simpa only [Nat.cast_ofNat, hmask] using hfield
  have hname := congrArg getByName haddress
  rw [getByName_longToIp, getByName_longToIp] at hname
  exact Option.some.inj hname

/-- The routes that domains add under the last of a list of configurations. -/
def domainRoutes (history : List Configuration) (c : Configuration) : List BypassRoute :=
  (configure (prefsAfter history) c).1

/-- **The law**: without repetitions, the routes of the latest resolution of each domain in the
list, and no others. -/
def DomainsExact (history : List Configuration) (c : Configuration) : Prop :=
  (domainRoutes history c).Nodup ∧ ∀ r, r ∈ domainRoutes history c ↔
    ∃ d ∈ domainsOf c.bypassDomains, ∃ a ∈ latest (history ++ [c]) d, r = routeOf a 32

theorem domainRoutes_eq (history : List Configuration) (c : Configuration) :
    domainRoutes history c =
      if c.bypassDomains ≠ "" then resolvedRoutes (prefsAfter (history ++ [c])) else [] := by
  rw [domainRoutes, prefsAfter, prefsAfter, List.foldl_append, configure]
  split
  · rename_i hne
    simp [configure, hne]
  · rfl

/-- **Bypassed domains.**  After any history of configurations the law holds of the last one exactly
when it has no text of domains at all, or no domain that is not in its list has an address in the
cache that is not also one of a domain in its list. -/
theorem domainRoutes_exact_iff (history : List Configuration) (c : Configuration) :
    DomainsExact history c ↔ c.bypassDomains = "" ∨
      ∀ d, d ∉ domainsOf c.bypassDomains → ∀ a ∈ latest (history ++ [c]) d,
        ∃ d' ∈ domainsOf c.bypassDomains, a ∈ latest (history ++ [c]) d' := by
  rw [DomainsExact, domainRoutes_eq]
  by_cases hempty : c.bypassDomains = ""
  · have hdomains : domainsOf "" = [] := by decide
    simp [hempty, hdomains]
  · rw [if_pos hempty]
    simp only [nodup_resolvedRoutes, mem_resolvedRoutes_iff, hempty, true_and, false_or]
    constructor
    · intro h d _ a ha
      obtain ⟨d', hd', a', ha', hsame⟩ := (h (routeOf a 32)).mp ⟨d, a, ha, rfl⟩
      obtain rfl := routeOf_inj hsame
      exact ⟨d', hd', ha'⟩
    · intro h r
      constructor
      · rintro ⟨d, a, ha, rfl⟩
        by_cases hd : d ∈ domainsOf c.bypassDomains
        · exact ⟨d, hd, a, ha, rfl⟩
        · obtain ⟨d', hd', ha'⟩ := h d hd a ha
          exact ⟨d', hd', a, ha', rfl⟩
      · rintro ⟨d, -, a, ha, rfl⟩
        exact ⟨d, a, ha, rfl⟩

/-- **Where it fails.**  A domain is resolved under one configuration; the next one bypasses another
domain, which cannot be resolved, and the address of the first is still bypassed. -/
theorem removed_domain_still_bypassed :
    let history : List Configuration := [⟨"bank.ir", fun _ => some [.inet4 0x05160102#32]⟩]
    let c : Configuration := ⟨"news.ir", fun _ => none⟩
    domainRoutes history c = [⟨"5.22.1.2", "255.255.255.255", 32⟩] ∧
      latest (history ++ [c]) "news.ir" = [] ∧ ¬ DomainsExact history c := by
  intro history c
  have hroutes : domainRoutes history c = [⟨"5.22.1.2", "255.255.255.255", 32⟩] := by
    decide +kernel
  have hdomains : domainsOf "news.ir" = ["news.ir"] := by decide +kernel
  have hlatest : latest (history ++ [c]) "news.ir" = [] := by decide +kernel
  refine ⟨hroutes, hlatest, fun h => ?_⟩
  obtain ⟨d, hd, a, ha, -⟩ := (h.2 ⟨"5.22.1.2", "255.255.255.255", 32⟩).mp
    (hroutes ▸ List.mem_singleton.mpr rfl)
  rw [hdomains] at hd
  obtain rfl := List.mem_singleton.mp hd
  rw [hlatest] at ha
  exact List.not_mem_nil ha

end ShiroKhorshid.Bypass
