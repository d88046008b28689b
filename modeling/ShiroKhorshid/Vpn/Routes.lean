/-
# The routes of the VPN interface (`VpnManager.applyVpnRoutes`, `vpnEstablish`)

The interface is described to the system by a sequence of calls on a `VpnService.Builder`.  From
API 33 on the program adds `0.0.0.0/0` and excludes the LAN ranges and the bypassed routes; below
it adds what `subtractCidr` leaves of `0.0.0.0/0`.  Either way `vpnEstablish` then adds a route
for the interface's own subnet.

* Section 2 has the calls as the source makes them, with the texts it makes them with; a text that
  cannot be read ends the sequence.
* Section 3 gives the two sequences their meaning, which is the system's: the longest prefix that
  covers a destination decides, and of several calls for one prefix the last (`PrefixTable`).
* Section 4 reads both tables off as sets, `routed_modern_iff` and `routed_legacy_iff`.
* Section 5 compares them (`routes_agree_iff`).  They differ on the destinations of a bypassed route
  that is longer than the route of the own subnet and lies inside it, because the last `addRoute`
  outweighs a shorter exclusion and a subtracted block alike, but not a longer exclusion.

The meaning in section 3 is a statement about Android, not about the program: it is what the
documentation of the two calls says, and everything after it rests on it.  What else the builder
checks, and refuses, is not modelled; nothing here says that a call of it succeeds.
-/
import ShiroKhorshid.Lib.PrefixTable
import ShiroKhorshid.Vpn.Ipv4

namespace ShiroKhorshid.Vpn

open Jvm PrefixTable

/-! ## 1. The private address -/

/-- `PrivateAddress`: the address and the subnet of the VPN interface. -/
structure PrivateAddress where
  mIpAddress : String
  mSubnet : String
  mPrefixLength : ℤ
  mRouter : String
deriving DecidableEq

/-- The candidates of `selectPrivateAddress`, under their keys. -/
def candidates : List (String × PrivateAddress) :=
  [("10", ⟨"10.0.0.1", "10.0.0.0", 8, "10.0.0.2"⟩),
   ("172", ⟨"172.16.0.1", "172.16.0.0", 12, "172.16.0.2"⟩),
   ("192", ⟨"192.168.0.1", "192.168.0.0", 16, "192.168.0.2"⟩),
   ("169", ⟨"169.254.1.1", "169.254.1.0", 24, "169.254.1.2"⟩)]

/-- The key one interface address removes, if any. -/
def keyInUse (ipAddress : String) : Option String :=
  if "10.".toList.isPrefixOf ipAddress.toList then some "10"
  else if 6 ≤ ipAddress.length ∧ compareToLe "172.16".toList (ipAddress.toList.take 6) ∧
      compareToLe (ipAddress.toList.take 6) "172.31".toList then some "172"
  else if "192.168".toList.isPrefixOf ipAddress.toList then some "192"
  else none

/-- `selectPrivateAddress`: the first candidate, in the order in which the `HashMap` happens to
iterate, whose key no interface address removes.  `none` is the `IllegalStateException`. -/
def selectPrivateAddress (order : List (String × PrivateAddress)) (addresses : List String) :
    Option PrivateAddress :=
  let left := addresses.foldl (fun left ipAddress =>
    left.filter fun c => decide (keyInUse ipAddress ≠ some c.1)) order
  left.head?.map Prod.snd

/-- What is selected is one of the candidates. -/
theorem selectPrivateAddress_mem {order : List (String × PrivateAddress)}
    (horder : order.Perm candidates) {addresses : List String} {pa : PrivateAddress}
    (h : selectPrivateAddress order addresses = some pa) : pa ∈ candidates.map Prod.snd := by
  have hsub : ∀ (addresses : List String) (left : List (String × PrivateAddress)),
      ∀ c ∈ addresses.foldl (fun left ipAddress =>
        left.filter fun c => decide (keyInUse ipAddress ≠ some c.1)) left, c ∈ left := by
    intro addresses
    induction addresses with
    | nil => exact fun left c hc => hc
    | cons ip ips ih => exact fun left c hc => List.mem_of_mem_filter (ih _ c hc)
  obtain ⟨c, hc, rfl⟩ := Option.map_eq_some_iff.mp h
  exact List.mem_map_of_mem (horder.mem_iff.mp (hsub addresses order c (List.mem_of_head? hc)))

/-! ## 2. The calls on the builder -/

/-- A call on `VpnService.Builder`. -/
inductive BuilderCall
  | setMtu (mtu : ℤ)
  | addAddress (address : String) (prefixLength : ℤ)
  | addDnsServer (address : String)
  | addRoute (dest : IpPrefix)
  | excludeRoute (dest : IpPrefix)
deriving DecidableEq

/-- `builder.addRoute(address, n)`, which reads the address as a number; `none` if it cannot.  What
else the builder refuses (a loopback destination, say) is up to Android and not modelled. -/
def addRoute (address : String) (n : ℤ) : Option BuilderCall := do
  let addr ← getByName address
  let dest ← IpPrefix.ofAddress addr n
  some (.addRoute dest)

/-- One round of the exclusion loops: `excludeRoute(new IpPrefix(getByName(..), parseInt(..)))`,
with `none` for an exception before `excludeRoute`. -/
def excludeRoute (route : String × String) : Option BuilderCall := do
  let addr ← getByName route.1
  let n ← parseInt route.2
  let dest ← IpPrefix.ofAddress addr n
  some (.excludeRoute dest)

/-- One round of the subtraction loops. -/
def subtractRoute (routes : List Route) (route : String × String) : Option (List Route) := do
  let ip ← ipToLong route.1
  let n ← parseInt route.2
  some (subtractCidr routes ip n)

/-- `LAN_SUBNETS`: the RFC 1918 ranges excluded when LAN sharing is enabled. -/
def lanSubnets : List (String × String) :=
  [("10.0.0.0", "8"), ("172.16.0.0", "12"), ("192.168.0.0", "16")]

/-- `applyVpnRoutes`: the default route minus the LAN ranges (when sharing) and the bypassed
routes. -/
def applyVpnRoutes (sdkInt : ℤ) (share : Bool) (bypass : List (String × String)) :
    Option (List BuilderCall) :=
  if sdkInt ≥ 33 then do
    let root ← addRoute "0.0.0.0" 0
    let lan ← if share then lanSubnets.mapM excludeRoute else some []
    let rest ← bypass.mapM excludeRoute
    some (root :: (lan ++ rest))
  else do
    let routes ← if share then lanSubnets.foldlM subtractRoute defaultRoutes
      else some defaultRoutes
    let routes ← bypass.foldlM subtractRoute routes
    routes.mapM fun route => addRoute (longToIp route.ip) route.prefixLength

/-- `VPN_INTERFACE_MTU`. -/
def vpnInterfaceMtu : ℤ := 1500

/-- The route for the interface's own subnet. -/
def addOwnRoute (share : Bool) (pa : PrivateAddress) : Option BuilderCall :=
  if share then addRoute pa.mSubnet 24 else addRoute pa.mSubnet pa.mPrefixLength

/-- `dnsResolver`: the secure DNS server, or the router when there is none. -/
def dnsResolver (pa : PrivateAddress) : Option String → String
  | some dns => if dns ≠ "" then dns else pa.mRouter
  | none => pa.mRouter

/-- The calls `vpnEstablish` makes on the builder before `establish()`, as far as the builder takes
them; `none` when an address or a prefix length cannot be read. -/
def builderCalls (sdkInt : ℤ) (pa : PrivateAddress) (share : Bool)
    (bypass : List (String × String)) (secureDnsServer : Option String) :
    Option (List BuilderCall) := do
  let routes ← applyVpnRoutes sdkInt share bypass
  let own ← addOwnRoute share pa
  some ([.setMtu vpnInterfaceMtu, .addAddress pa.mIpAddress pa.mPrefixLength,
    .addDnsServer (dnsResolver pa secureDnsServer)] ++ routes ++ [own])

/-! ## 3. What the system makes of them -/

/-- The entry a call makes in the routing table. -/
def BuilderCall.entry : BuilderCall → Option (Entry IpPrefix)
  | .addRoute dest => some ⟨dest, true⟩
  | .excludeRoute dest => some ⟨dest, false⟩
  | .setMtu _ => none
  | .addAddress _ _ => none
  | .addDnsServer _ => none

/-- The destinations that go into the VPN after a sequence of calls: the longest prefix decides,
and of several calls for one prefix the last. -/
def RoutedIntoVpn (calls : List BuilderCall) (a : BitVec 32) : Prop :=
  Routed IpPrefix.Covers IpPrefix.length (calls.filterMap BuilderCall.entry) a

theorem canonicalAt (a : BitVec 32) : CanonicalAt IpPrefix.Covers IpPrefix.length a :=
  fun _ _ hp hq hlen => IpPrefix.eq_of_covers hp hq hlen

/-- `0.0.0.0/0` -/
def rootPrefix : IpPrefix := ⟨0#32, 0, by decide, by decide⟩

theorem covers_root (a : BitVec 32) : rootPrefix.Covers a := by
  refine BitVec.eq_of_toNat_eq ?_
  have ha := a.isLt
  simp only [rootPrefix, BitVec.toNat_ushiftRight, Nat.shiftRight_eq_div_pow, BitVec.toNat_ofNat]
  omega

/-! ## 4. The two tables -/

theorem addRoute_longToIp (p : IpPrefix) :
    addRoute (longToIp (p.address.setWidth 64)) p.length = some (.addRoute p) := by
  simp [addRoute, getByName_longToIp, p.ofAddress_self]

theorem excludeRoute_strings (p : IpPrefix) :
    excludeRoute p.strings = some (.excludeRoute p) := by
  have hlen := p.length_le
  have hparse : parseInt (toString p.length) = some (p.length : ℤ) :=
    parseInt_toString (by omega)
  simp only [excludeRoute, IpPrefix.strings, getByName_longToIp, hparse, p.ofAddress_self,
    Option.bind_eq_bind, Option.bind_some]

theorem subtractRoute_strings (routes : List Route) (p : IpPrefix) :
    subtractRoute routes p.strings
      = some (subtractCidr routes p.route.ip p.route.prefixLength) := by
  have hlen := p.length_le
  have hparse : parseInt (toString p.length) = some (p.length : ℤ) :=
    parseInt_toString (by omega)
  simp only [subtractRoute, IpPrefix.strings, IpPrefix.route, ipToLong_longToIp, hparse,
    Option.bind_eq_bind, Option.bind_some]

/-- The exclusion loop over printed prefixes excludes the prefixes. -/
theorem mapM_excludeRoute (ps : List IpPrefix) :
    (ps.map IpPrefix.strings).mapM excludeRoute = some (ps.map .excludeRoute) := by
  induction ps with
  | nil => rfl
  | cons p ps ih => simp [excludeRoute_strings, ih]

/-- The subtraction loop over printed prefixes subtracts their blocks. -/
theorem foldlM_subtractRoute (ps : List IpPrefix) (routes : List Route) :
    (ps.map IpPrefix.strings).foldlM subtractRoute routes
      = some ((ps.map IpPrefix.route).foldl
          (fun routes block => subtractCidr routes block.ip block.prefixLength) routes) := by
  induction ps generalizing routes with
  | nil => rfl
  | cons p ps ih =>
    rw [List.map_cons, List.foldlM_cons, subtractRoute_strings, Option.bind_eq_bind,
      Option.bind_some, ih, List.map_cons, List.foldl_cons]

/-- The LAN ranges, as prefixes. -/
def lanPrefixes : List IpPrefix :=
  [⟨0x0A000000#32, 8, by decide, by decide⟩, ⟨0xAC100000#32, 12, by decide, by decide⟩,
   ⟨0xC0A80000#32, 16, by decide, by decide⟩]

theorem lanSubnets_eq : lanSubnets = lanPrefixes.map IpPrefix.strings := by decide

/-- Everything the program excludes: the LAN ranges when sharing, then the bypassed routes. -/
def exclusions (share : Bool) (bypass : List IpPrefix) : List IpPrefix :=
  (if share then lanPrefixes else []) ++ bypass

/-- From API 33 on: the default route, then the exclusions. -/
theorem applyVpnRoutes_modern {sdkInt : ℤ} (h : 33 ≤ sdkInt) (share : Bool)
    (bypass : List IpPrefix) :
    applyVpnRoutes sdkInt share (bypass.map IpPrefix.strings)
      = some (.addRoute rootPrefix :: (exclusions share bypass).map .excludeRoute) := by
  have hroot : addRoute "0.0.0.0" 0 = some (.addRoute rootPrefix) := by decide
  rw [applyVpnRoutes, if_pos h, lanSubnets_eq, mapM_excludeRoute, mapM_excludeRoute, hroot]
  cases share <;> simp [exclusions]

/-- A route left by the subtractions is the block of a prefix. -/
theorem exists_prefix_of_mem_subtractAll {blocks : List Route} (h : ∀ b ∈ blocks, b.PrefixOk)
    {r : Route} (hr : r ∈ subtractAll blocks) : ∃ p : IpPrefix, p.route = r := by
  rw [subtractAll_eq h] at hr
  obtain ⟨B, hB, rfl⟩ := List.mem_map.mp hr
  have hin := remaining_inSpace blocks B hB
  have hlog := hin.log_le
  have hbase := hin.base_lt
  have hmod : B.base % 2 ^ 32 = B.base := Nat.mod_eq_of_lt hbase
  refine ⟨⟨BitVec.ofNat 32 B.base, 32 - B.log, Nat.sub_le _ _, ?_⟩, ?_⟩
  · -- the base is a multiple of the size, so masking it changes nothing
    obtain ⟨c, hc⟩ := B.aligned
    refine BitVec.eq_of_toNat_eq ?_
    rw [Nat.sub_sub_self hlog, BitVec.toNat_shiftLeft, BitVec.toNat_ushiftRight,
      BitVec.toNat_ofNat, hmod, Nat.shiftLeft_eq, Nat.shiftRight_eq_div_pow, hc,
      Nat.mul_div_cancel_left c (Nat.two_pow_pos _), Nat.mul_comm, ← hc, hmod]
  · have hbase64 : (BitVec.ofNat 32 B.base).setWidth 64 = BitVec.ofNat 64 B.base := by
      refine BitVec.eq_of_toNat_eq ?_
      rw [BitVec.toNat_setWidth, BitVec.toNat_ofNat, BitVec.toNat_ofNat, hmod]
    simp only [IpPrefix.route, Route.ofBlock, hbase64, Route.mk.injEq, true_and]
    omega

/-- Below API 33: routes to what is left of the address space. -/
theorem applyVpnRoutes_legacy {sdkInt : ℤ} (h : sdkInt < 33) (share : Bool)
    (bypass : List IpPrefix) :
    ∃ left : List IpPrefix,
      left.map IpPrefix.route = subtractAll ((exclusions share bypass).map IpPrefix.route) ∧
      applyVpnRoutes sdkInt share (bypass.map IpPrefix.strings)
        = some (left.map .addRoute) := by
  have hok : ∀ b ∈ (exclusions share bypass).map IpPrefix.route, b.PrefixOk := by
    intro b hb
    obtain ⟨p, -, rfl⟩ := List.mem_map.mp hb
    exact p.route_prefixOk
  have hlift : ∀ routes : List Route, (∀ r ∈ routes, ∃ p : IpPrefix, p.route = r) →
      ∃ left : List IpPrefix, left.map IpPrefix.route = routes := by
    intro routes hroutes
    induction routes with
    | nil => exact ⟨[], rfl⟩
    | cons r rs ih =>
      obtain ⟨p, rfl⟩ := hroutes r List.mem_cons_self
      obtain ⟨ps, rfl⟩ := ih (fun q hq => hroutes q (List.mem_cons_of_mem _ hq))
      exact ⟨p :: ps, rfl⟩
  have hadd : ∀ left : List IpPrefix,
      (left.map IpPrefix.route).mapM (fun r => addRoute (longToIp r.ip) r.prefixLength)
        = some (left.map .addRoute) := by
    intro left
    induction left with
    | nil => rfl
    | cons p ps ih =>
      rw [List.map_cons, List.mapM_cons, ih, IpPrefix.route, addRoute_longToIp]
      rfl
  obtain ⟨left, hleft⟩ := hlift _ (fun r hr => exists_prefix_of_mem_subtractAll hok hr)
  refine ⟨left, hleft, ?_⟩
  have hsdk : ¬ sdkInt ≥ 33 := by omega
  rw [← hadd left, hleft, applyVpnRoutes, if_neg hsdk, lanSubnets_eq, foldlM_subtractRoute,
    subtractAll]
  cases share <;>
    simp only [exclusions, if_true, Bool.false_eq_true, if_false, Option.bind_eq_bind,
      Option.bind_some, foldlM_subtractRoute, List.nil_append, List.map_append,
      List.foldl_append]

/-- The calls that touch the routing table are the routes and the own subnet. -/
theorem builderCalls_eq {sdkInt : ℤ} {pa : PrivateAddress} {share : Bool}
    {bypass : List (String × String)} {routes : List BuilderCall} {own : IpPrefix}
    (hroutes : applyVpnRoutes sdkInt share bypass = some routes)
    (hown : addOwnRoute share pa = some (.addRoute own)) (secureDnsServer : Option String) :
    ∃ calls, builderCalls sdkInt pa share bypass secureDnsServer = some calls ∧
      calls.filterMap BuilderCall.entry
        = routes.filterMap BuilderCall.entry ++ [⟨own, true⟩] := by
  refine ⟨_, by rw [builderCalls, hroutes, hown]; rfl, ?_⟩
  rw [List.filterMap_append, List.filterMap_append]
  rfl

/-- **The table from API 33 on.**  In the own subnet a destination is routed unless a longer
exclusion covers it; elsewhere it is routed when no exclusion does. -/
theorem routed_modern_iff {excluded : List IpPrefix} {own : IpPrefix} (a : BitVec 32) :
    Routed IpPrefix.Covers IpPrefix.length
        ((BuilderCall.addRoute rootPrefix :: excluded.map .excludeRoute).filterMap
          BuilderCall.entry ++ [⟨own, true⟩]) a ↔
      (own.Covers a ∧ ∀ p ∈ excluded, p.Covers a → p.length ≤ own.length) ∨
      (¬ own.Covers a ∧ ∀ p ∈ excluded, ¬ p.Covers a) := by
  have htable : (BuilderCall.addRoute rootPrefix :: excluded.map .excludeRoute).filterMap
      BuilderCall.entry = ⟨rootPrefix, true⟩ :: excluded.map (fun p => ⟨p, false⟩) := by
    simp only [List.filterMap_cons, BuilderCall.entry, List.filterMap_map]
    rw [← List.filterMap_eq_map']
    rfl
  rw [htable]
  exact routed_default_excludes_last (canonicalAt a) (covers_root a) rfl

/-- **The table below API 33.**  A destination is routed when it lies in the own subnet or in
none of the exclusions. -/
theorem routed_legacy_iff {left excluded : List IpPrefix} {own : IpPrefix}
    (hleft : left.map IpPrefix.route = subtractAll (excluded.map IpPrefix.route))
    (a : BitVec 32) :
    Routed IpPrefix.Covers IpPrefix.length
        ((left.map BuilderCall.addRoute).filterMap BuilderCall.entry ++ [⟨own, true⟩]) a ↔
      own.Covers a ∨ ∀ p ∈ excluded, ¬ p.Covers a := by
  have hok : ∀ b ∈ excluded.map IpPrefix.route, b.PrefixOk := by
    intro b hb
    obtain ⟨p, -, rfl⟩ := List.mem_map.mp hb
    exact p.route_prefixOk
  have htable : (left.map BuilderCall.addRoute).filterMap BuilderCall.entry
      = left.map (fun p => ⟨p, true⟩) := by
    rw [List.filterMap_map, ← List.filterMap_eq_map']
    rfl
  have hleft_iff : (∃ p ∈ left, p.Covers a) ↔ ∀ p ∈ excluded, ¬ p.Covers a := by
    have hsplit := covers_subtractAll_iff hok a
    rw [← hleft] at hsplit
    simpa only [List.mem_map, exists_exists_and_eq_and, forall_exists_index, and_imp,
      forall_apply_eq_imp_iff₂, IpPrefix.covers_route] using hsplit
  have hadd : ∀ e ∈ left.map (fun p => (⟨p, true⟩ : Entry IpPrefix)) ++ [⟨own, true⟩],
      e.added = true := by
    intro e he
    rcases List.mem_append.mp he with he | he
    · obtain ⟨p, -, rfl⟩ := List.mem_map.mp he
      rfl
    · rw [List.mem_singleton.mp he]
  rw [htable, routed_adds (canonicalAt a) hadd, ← hleft_iff]
  constructor
  · rintro ⟨e, he, hcov⟩
    rcases List.mem_append.mp he with he | he
    · obtain ⟨p, hp, rfl⟩ := List.mem_map.mp he
      exact Or.inr ⟨p, hp, hcov⟩
    · rw [List.mem_singleton.mp he] at hcov
      exact Or.inl hcov
  · rintro (hcov | ⟨p, hp, hcov⟩)
    · exact ⟨⟨own, true⟩, by simp, hcov⟩
    · exact ⟨⟨p, true⟩, by simp [hp], hcov⟩

/-! ## 5. The two compared -/

/-- The own subnet of a candidate is a prefix that holds the router, no shorter than any LAN range
when sharing. -/
theorem addOwnRoute_candidate {pa : PrivateAddress} (hpa : pa ∈ candidates.map Prod.snd)
    (share : Bool) :
    ∃ own router, addOwnRoute share pa = some (.addRoute own) ∧
      (∀ p ∈ exclusions share [], p.length ≤ own.length) ∧
      (own.length : ℤ) = (if share then 24 else pa.mPrefixLength) ∧
      getByName pa.mRouter = some router ∧ own.Covers router := by
  simp only [candidates, List.map_cons, List.map_nil, List.mem_cons, List.not_mem_nil,
    or_false] at hpa
  rcases hpa with rfl | rfl | rfl | rfl <;> cases share
  · exact ⟨⟨0x0A000000#32, 8, by decide, by decide⟩, 0x0A000002#32, by decide⟩
  · exact ⟨⟨0x0A000000#32, 24, by decide, by decide⟩, 0x0A000002#32, by decide⟩
  · exact ⟨⟨0xAC100000#32, 12, by decide, by decide⟩, 0xAC100002#32, by decide⟩
  · exact ⟨⟨0xAC100000#32, 24, by decide, by decide⟩, 0xAC100002#32, by decide⟩
  · exact ⟨⟨0xC0A80000#32, 16, by decide, by decide⟩, 0xC0A80002#32, by decide⟩
  · exact ⟨⟨0xC0A80000#32, 24, by decide, by decide⟩, 0xC0A80002#32, by decide⟩
  · exact ⟨⟨0xA9FE0100#32, 24, by decide, by decide⟩, 0xA9FE0102#32, by decide⟩
  · exact ⟨⟨0xA9FE0100#32, 24, by decide, by decide⟩, 0xA9FE0102#32, by decide⟩

/-- Both sequences of calls go through, and each routes what its table says. -/
theorem exists_builderCalls {pa : PrivateAddress} {share : Bool} {own : IpPrefix}
    (hown : addOwnRoute share pa = some (.addRoute own)) (bypass : List IpPrefix)
    (dns : Option String) {sdkInt sdkInt' : ℤ} (hmodern : 33 ≤ sdkInt) (hlegacy : sdkInt' < 33) :
    ∃ modern legacy,
      builderCalls sdkInt pa share (bypass.map IpPrefix.strings) dns = some modern ∧
      builderCalls sdkInt' pa share (bypass.map IpPrefix.strings) dns = some legacy ∧
      (∀ a, RoutedIntoVpn modern a ↔
        (own.Covers a ∧ ∀ p ∈ exclusions share bypass, p.Covers a → p.length ≤ own.length) ∨
        (¬ own.Covers a ∧ ∀ p ∈ exclusions share bypass, ¬ p.Covers a)) ∧
      (∀ a, RoutedIntoVpn legacy a ↔
        own.Covers a ∨ ∀ p ∈ exclusions share bypass, ¬ p.Covers a) := by
  obtain ⟨left, hleft, hroutes'⟩ := applyVpnRoutes_legacy hlegacy share bypass
  obtain ⟨modern, hm, hmt⟩ :=
    builderCalls_eq (applyVpnRoutes_modern hmodern share bypass) hown dns
  obtain ⟨legacy, hl, hlt⟩ := builderCalls_eq hroutes' hown dns
  refine ⟨modern, legacy, hm, hl, ?_, ?_⟩
  · intro a
    rw [RoutedIntoVpn, hmt]
    exact routed_modern_iff a
  · intro a
    rw [RoutedIntoVpn, hlt]
    exact routed_legacy_iff hleft a

/-- **Where the two implementations agree.**  They route the same destinations exactly when no
bypassed route that lies in the own subnet is longer than the route of that subnet. -/
theorem routes_agree_iff (order : List (String × PrivateAddress))
    (horder : order.Perm candidates) (addresses : List String) {pa : PrivateAddress}
    (hpa : selectPrivateAddress order addresses = some pa) (share : Bool)
    (bypass : List IpPrefix) (dns : Option String) {sdkInt sdkInt' : ℤ} (hmodern : 33 ≤ sdkInt)
    (hlegacy : sdkInt' < 33) :
    ∃ own modern legacy, addOwnRoute share pa = some (.addRoute own) ∧
      builderCalls sdkInt pa share (bypass.map IpPrefix.strings) dns = some modern ∧
      builderCalls sdkInt' pa share (bypass.map IpPrefix.strings) dns = some legacy ∧
      ((∀ a, RoutedIntoVpn modern a ↔ RoutedIntoVpn legacy a) ↔
        ∀ p ∈ bypass, own.Covers p.address → p.length ≤ own.length) := by
  obtain ⟨own, -, hown, hlan, -⟩ :=
    addOwnRoute_candidate (selectPrivateAddress_mem horder hpa) share
  obtain ⟨modern, legacy, hm, hl, hmi, hli⟩ :=
    exists_builderCalls hown bypass dns hmodern hlegacy
  refine ⟨own, modern, legacy, hown, hm, hl, ?_⟩
  have hexcl : ∀ p ∈ exclusions share bypass, p.length ≤ own.length ∨ p ∈ bypass := by
    intro p hp
    rcases List.mem_append.mp hp with hp | hp
    · exact Or.inl (hlan p (List.mem_append_left _ hp))
    · exact Or.inr hp
  constructor
  · -- a longer bypassed route inside the own subnet separates the two at its own address
    intro hagree p hp hcov
    have hrouted : RoutedIntoVpn modern p.address :=
      (hagree p.address).mpr ((hli p.address).mpr (Or.inl hcov))
    rcases (hmi p.address).mp hrouted with ⟨-, hlen⟩ | ⟨hnot, -⟩
    · exact hlen p (List.mem_append_right _ hp) p.covers_address
    · exact absurd hcov hnot
  · intro hshort a
    rw [hmi, hli]
    by_cases hcov : own.Covers a
    · refine iff_of_true (Or.inl ⟨hcov, ?_⟩) (Or.inl hcov)
      intro p hp hpa
      rcases hexcl p hp with hlen | hbypass
      · exact hlen
      · by_contra hlong
        have hle : own.length ≤ p.length := by omega
        exact hlong (hshort p hbypass (IpPrefix.covers_of_length_le hcov hpa hle))
    · simp only [hcov, false_and, false_or, not_false_eq_true, true_and]

/-- The theorem at a bypassed route that holds the own subnet. -/
theorem routes_agree_iff_enclosing :
    ∃ own modern legacy,
      addOwnRoute false ⟨"10.0.0.1", "10.0.0.0", 8, "10.0.0.2"⟩ = some (.addRoute own) ∧
      builderCalls 34 ⟨"10.0.0.1", "10.0.0.0", 8, "10.0.0.2"⟩ false
        ([rootPrefix].map IpPrefix.strings) none = some modern ∧
      builderCalls 28 ⟨"10.0.0.1", "10.0.0.0", 8, "10.0.0.2"⟩ false
        ([rootPrefix].map IpPrefix.strings) none = some legacy ∧
      ((∀ a, RoutedIntoVpn modern a ↔ RoutedIntoVpn legacy a) ↔
        ∀ p ∈ [rootPrefix], own.Covers p.address → p.length ≤ own.length) :=
  routes_agree_iff candidates (List.Perm.refl _) [] (by decide) false [rootPrefix] none
    (by decide) (by decide)

/-- The tunnel's own gateway, bypassed: `10.0.0.2/32`. -/
def gatewayPrefix : IpPrefix := ⟨0x0A000002#32, 32, by decide, by decide⟩

/-- **Where they do not.**  With the gateway among the bypassed routes, packets for it leave the
VPN from API 33 on and enter it below. -/
theorem routes_differ_at_gateway :
    ∃ modern legacy,
      selectPrivateAddress candidates [] = some ⟨"10.0.0.1", "10.0.0.0", 8, "10.0.0.2"⟩ ∧
      builderCalls 33 ⟨"10.0.0.1", "10.0.0.0", 8, "10.0.0.2"⟩ false
        ([gatewayPrefix].map IpPrefix.strings) none = some modern ∧
      builderCalls 32 ⟨"10.0.0.1", "10.0.0.0", 8, "10.0.0.2"⟩ false
        ([gatewayPrefix].map IpPrefix.strings) none = some legacy ∧
      ¬ RoutedIntoVpn modern gatewayPrefix.address ∧
      RoutedIntoVpn legacy gatewayPrefix.address := by
  have hown : addOwnRoute false ⟨"10.0.0.1", "10.0.0.0", 8, "10.0.0.2"⟩
      = some (.addRoute ⟨0x0A000000#32, 8, by decide, by decide⟩) := by decide
  obtain ⟨modern, legacy, hm, hl, hmi, hli⟩ :=
    exists_builderCalls hown [gatewayPrefix] none (show (33 : ℤ) ≤ 33 by decide)
      (show (32 : ℤ) < 33 by decide)
  refine ⟨modern, legacy, by decide, hm, hl, ?_, (hli _).mpr (Or.inl (by decide))⟩
  rw [hmi]
  decide

end ShiroKhorshid.Vpn
