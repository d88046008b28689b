/-
# The secure DNS server (`SecureDNSConfiguration`)

The settings name a mode, a provider and, for a provider of one's own, a URL or a host.  Two
functions make a DNS server of them: `dnsServerAddress` for the screens, from the whole record, and
`dnsServerFor` for the service, from three of the fields.  `vpnEstablish` hands what the second one
gives to `Builder.addDnsServer`, which reads numeric addresses only and throws on anything else.

Two things go wrong.

* `dnsServerFor` hands the custom DoT host on as it was typed, and a host is a name more often than
  an address (`usable_dnsServerFor_iff`).
* For a custom DoH URL `dnsServerAddress` answers with Cloudflare's address and `dnsServerFor` with
  nothing (`dnsServerAddress_eq_iff`).

`secure_dns_iff` says that these two are all, for every mode, every provider and every text.  A
server that is not named leaves the router, which is an address; so what reaches `addDnsServer` is
usable exactly where the server is (`accepts_dnsResolver_iff`).

Which texts are numeric addresses is a parameter (`NumericAddresses`): a printed IPv4 address is
one, and one without a colon is a dotted quad.  IPv6 addresses are what the platform takes for such.
-/
import ShiroKhorshid.Bypass.Union
import ShiroKhorshid.Settings.Store

namespace ShiroKhorshid.Bypass

open Jvm Vpn Service Settings

/-! ## 1. The source -/

/-- `SecureDNSConfiguration.dnsServerAddress` -/
def dnsServerAddress (settings : AzadiSettings) : Option String :=
  let mode : String := settings .secureDNSMode
  let provider : String := settings .secureDNSProvider
  let customDoHURL : String := settings .customDoHURL
  let customDoTHost : String := settings .customDoTHost
  if mode = "doh" then
    if provider = "custom" then
      if kotlinTrim customDoHURL ≠ "" then some "1.1.1.1" else none
    else providerServer provider
  else if mode = "dot" then
    match providerServer provider with
    | some server => some server
    | none => if kotlinTrim customDoTHost ≠ "" then some (kotlinTrim customDoTHost) else none
  else none

/-- What `InetAddress.parseNumericAddress` takes.  Which IPv6 addresses it takes is the platform's
affair; without a colon it takes dotted quads, among them every address as it is printed. -/
structure NumericAddresses where
  accepts : String → Prop
  printed (a : BitVec 32) : accepts (longToIp (a.setWidth 64))
  quad {s : String} : accepts s → ':' ∉ s.toList → (getByName s).isSome = true

/-- A platform that takes no address with a colon. -/
instance : Inhabited NumericAddresses where
  default :=
    { accepts := fun s => (getByName s).isSome = true
      printed := fun a => by rw [getByName_longToIp]; rfl
      quad := fun h _ => h }

/-- A server `vpnEstablish` can do with: `null`, empty, or a numeric address. -/
def NumericAddresses.Usable (N : NumericAddresses) : Option String → Prop
  | none => True
  | some server => server = "" ∨ N.accepts server

/-! ## 2. The servers -/

/-- Without a provider that is known, the text the user typed decides. -/
def CustomProvider (provider : String) : Prop :=
  provider ∉ ["google", "cloudflare", "quad9", "adguard"]

theorem providerServer_eq_none_iff (provider : String) :
    providerServer provider = none ↔ CustomProvider provider := by
  unfold providerServer CustomProvider
  split <;> simp_all

/-- The providers' servers are numeric addresses. -/
theorem NumericAddresses.accepts_providerServer (N : NumericAddresses) {provider server : String}
    (h : providerServer provider = some server) : N.accepts server := by
  unfold providerServer at h
  split at h
  · obtain rfl := Option.some.inj h
    exact N.printed 0x08080808#32
  · obtain rfl := Option.some.inj h
    exact N.printed 0x01010101#32
  · obtain rfl := Option.some.inj h
    exact N.printed 0x09090909#32
  · obtain rfl := Option.some.inj h
    exact N.printed 0x5E8C0E0E#32
  · cases h

/-- A host of the user's own is asked for, and `addDnsServer` does not take it. -/
def RefusedHost (N : NumericAddresses) (mode provider customDoTHost : String) : Prop :=
  mode = "dot" ∧ CustomProvider provider ∧ kotlinTrim customDoTHost ≠ "" ∧
    ¬ N.accepts (kotlinTrim customDoTHost)

theorem usable_dnsServerFor_iff (N : NumericAddresses) (mode provider customDoTHost : String) :
    N.Usable (dnsServerFor mode provider customDoTHost) ↔
      ¬ RefusedHost N mode provider customDoTHost := by
  unfold dnsServerFor RefusedHost
  by_cases hdoh : mode = "doh"
  · subst hdoh
    rw [if_pos rfl]
    refine iff_of_true ?_ fun h => absurd h.1 (by decide)
    cases hserver : providerServer provider with
    | none => trivial
    | some server => exact Or.inr (N.accepts_providerServer hserver)
  rw [if_neg hdoh]
  by_cases hdot : mode = "dot"
  · rw [if_pos hdot]
    cases hserver : providerServer provider with
    | some server =>
      refine iff_of_true (Or.inr (N.accepts_providerServer hserver)) fun h => ?_
      rw [(providerServer_eq_none_iff provider).mpr h.2.1] at hserver
      cases hserver
    | none =>
      have hcustom := (providerServer_eq_none_iff provider).mp hserver
      by_cases hhost : kotlinTrim customDoTHost = ""
      · simp [hhost, NumericAddresses.Usable]
      · simp [hhost, hcustom, hdot, NumericAddresses.Usable]
  · rw [if_neg hdot]
    exact iff_of_true trivial fun h => hdot h.1

/-- A URL of the user's own is asked for. -/
def CustomUrl (settings : AzadiSettings) : Prop :=
  @Eq String (settings .secureDNSMode) "doh" ∧ @Eq String (settings .secureDNSProvider) "custom" ∧
    kotlinTrim (settings .customDoHURL) ≠ ""

/-- **The two mappings** differ on a custom URL only. -/
theorem dnsServerAddress_eq_iff (settings : AzadiSettings) :
    dnsServerAddress settings = dnsServerFor (settings .secureDNSMode)
      (settings .secureDNSProvider) (settings .customDoTHost) ↔ ¬ CustomUrl settings := by
  unfold dnsServerAddress dnsServerFor CustomUrl
  dsimp only
  by_cases hdoh : @Eq String (settings .secureDNSMode) "doh"
  · rw [if_pos hdoh, if_pos hdoh]
    by_cases hcustom : @Eq String (settings .secureDNSProvider) "custom"
    · rw [if_pos hcustom, hcustom]
      by_cases hurl : kotlinTrim (settings .customDoHURL) = ""
      · exact iff_of_true (if_neg (not_not.mpr hurl)) fun h => h.2.2 hurl
      · rw [if_pos hurl]
        exact iff_of_false (fun h => Option.some_ne_none _ h) (not_not.mpr ⟨hdoh, rfl, hurl⟩)
    · rw [if_neg hcustom]
      exact iff_of_true rfl fun h => hcustom h.2.1
  · rw [if_neg hdoh, if_neg hdoh]
    exact iff_of_true rfl fun h => hdoh h.1

/-! ## 3. What the VPN manager is handed -/

/-- In strict mode a route that is bypassed turns secure DNS off. -/
theorem excludeRoutes_isEmpty (sources : BypassSources) (c : Config) :
    (excludeRoutes sources c).isEmpty = (enabledRoutes sources c).isEmpty := by
  have hgrows : ∀ (routes : List BypassRoute) (acc : List String × List (String × String)),
      acc.2 ≠ [] → (addRoutes acc routes).2 ≠ [] := by
    intro routes
    induction routes with
    | nil => exact fun acc h => h
    | cons r routes ih =>
      intro acc h
      rw [show r :: routes = [r] ++ routes from rfl, addRoutes_append]
      refine ih _ ?_
      unfold addRoutes
      rw [List.foldl_cons, List.foldl_nil]
      dsimp only
      split
      · exact h
      · exact List.append_ne_nil_of_right_ne_nil _ (List.cons_ne_nil _ _)
  rw [excludeRoutes_eq_addRoutes]
  cases hroutes : enabledRoutes sources c with
  | nil => rfl
  | cons r routes =>
    have hne : (addRoutes ([], []) (r :: routes)).2 ≠ [] := by
      rw [show r :: routes = [r] ++ routes from rfl, addRoutes_append]
      exact hgrows routes _ (List.cons_ne_nil _ _)
    rw [List.isEmpty_cons, List.isEmpty_eq_false_iff]
    exact hne

/-- Secure DNS is in force: the VPN is used, and strict mode does not turn secure DNS off. -/
def SecureDnsInForce (sources : BypassSources) (c : Config) : Prop :=
  c.proxyOnlyMode = false ∧ (c.bypassStrictModeEnabled = true → enabledRoutes sources c = [])

theorem usable_secureDnsServerOf_iff (N : NumericAddresses) (sources : BypassSources)
    (c : Config) :
    N.Usable (secureDnsServerOf sources c) ↔
      ¬ (SecureDnsInForce sources c ∧
        RefusedHost N c.secureDNSMode c.secureDNSProvider c.customDoTHost) := by
  unfold secureDnsServerOf SecureDnsInForce
  rw [excludeRoutes_isEmpty]
  cases c.proxyOnlyMode with
  | true => simp [NumericAddresses.Usable]
  | false =>
    rw [if_neg Bool.false_ne_true]
    by_cases hstrict : (c.bypassStrictModeEnabled && !(enabledRoutes sources c).isEmpty) = true
    · rw [if_pos hstrict]
      obtain ⟨henabled, hroutes⟩ := Bool.and_eq_true_iff.mp hstrict
      refine iff_of_true trivial fun h => ?_
      rw [h.1.2 henabled] at hroutes
      cases hroutes
    · rw [if_neg hstrict, usable_dnsServerFor_iff]
      refine not_congr (iff_and_self.mpr fun _ => ⟨rfl, fun henabled => ?_⟩)
      rw [henabled, Bool.true_and, Bool.not_eq_true', Bool.not_eq_false] at hstrict
      exact List.isEmpty_iff.mp hstrict

/-- The address `addDnsServer` is called with is a numeric one whenever the server is usable: the
router of a candidate address is. -/
theorem accepts_dnsResolver_iff (N : NumericAddresses) {pa : PrivateAddress}
    (hpa : pa ∈ candidates.map Prod.snd) (server : Option String) :
    N.accepts (dnsResolver pa server) ↔ N.Usable server := by
  have hrouter : N.accepts pa.mRouter := by
    simp only [candidates, List.map_cons, List.map_nil, List.mem_cons, List.not_mem_nil,
      or_false] at hpa
    rcases hpa with rfl | rfl | rfl | rfl
    · exact N.printed 0x0A000002#32
    · exact N.printed 0xAC100002#32
    · exact N.printed 0xC0A80002#32
    · exact N.printed 0xA9FE0102#32
  cases server with
  | none => exact iff_of_true hrouter trivial
  | some dns =>
    change N.accepts (if dns ≠ "" then dns else pa.mRouter) ↔ dns = "" ∨ N.accepts dns
    by_cases hempty : dns = ""
    · rw [if_neg (not_not.mpr hempty)]
      exact iff_of_true hrouter (Or.inl hempty)
    · rw [if_pos hempty, or_iff_right hempty]

/-- **Secure DNS.**  Whatever the mode, the provider and the custom texts, the server handed to the
VPN manager is one that `addDnsServer` takes, exactly if it is not a DoT host of the user's own that
is no numeric address; and the two mappings name the same server exactly if the settings do not ask
for a DoH URL of the user's own. -/
theorem secure_dns_iff (N : NumericAddresses) (sources : BypassSources) (c : Config)
    (settings : AzadiSettings) :
    ((N.Usable (secureDnsServerOf sources c) ∧
        ∀ pa ∈ candidates.map Prod.snd,
          N.accepts (dnsResolver pa (secureDnsServerOf sources c))) ↔
      ¬ (SecureDnsInForce sources c ∧
        RefusedHost N c.secureDNSMode c.secureDNSProvider c.customDoTHost)) ∧
    (dnsServerAddress settings = dnsServerFor (settings .secureDNSMode)
        (settings .secureDNSProvider) (settings .customDoTHost) ↔ ¬ CustomUrl settings) := by
  refine ⟨?_, dnsServerAddress_eq_iff settings⟩
  rw [← usable_secureDnsServerOf_iff]
  constructor
  · exact And.left
  · exact fun h => ⟨h, fun pa hpa => (accepts_dnsResolver_iff N hpa _).mpr h⟩

/-- A DoT host that is a name. -/
def namedHost : Preferences
  | "secureDNSModePreference" => some "dot"
  | "secureDNSProviderPreference" => some "custom"
  | "customDoTHostPreference" => some "dns.example.com"
  | _ => none

/-- A DoH URL. -/
def ownUrl : Preferences
  | "secureDNSProviderPreference" => some "custom"
  | "customDoHURLPreference" => some "https://dns.example.com/dns-query"
  | _ => none

/-- **The host's name goes to `addDnsServer`**, which takes it on no platform, and the two mappings
disagree on the URL. -/
theorem host_name_handed_over :
    secureDnsServerOf ⟨[], fun _ => []⟩ (getTunnelConfig namedHost) = some "dns.example.com" ∧
    (¬ ∃ N : NumericAddresses, N.Usable (some "dns.example.com")) ∧
    dnsServerAddress (loadInternal ownUrl) = some "1.1.1.1" ∧
    dnsServerFor (loadInternal ownUrl .secureDNSMode) (loadInternal ownUrl .secureDNSProvider)
      (loadInternal ownUrl .customDoTHost) = none := by
  refine ⟨by decide, ?_, by decide, by decide⟩
  rintro ⟨N, h | h⟩
  · exact absurd h (by decide)
  · exact absurd (N.quad h (by decide)) (by decide)

end ShiroKhorshid.Bypass
