/-
# Bypassed routes and secure DNS (`BypassRoutes`, `configureVpnBypassAndDns`)

Traffic to some destinations is kept out of the VPN: the bundled list of Iranian networks, routes
the user wrote down, and the addresses that bypassed domains resolved to.  `BypassRoutes` parses
the written ones; `configureVpnBypassAndDns` collects all of them, each once, and picks the DNS
server of the interface.

1. A written entry is a token of the text, an address with or without a mask.  A token that is
   neither, or that starts with `#`, is passed over, and no entry is added twice.
2. The secure DNS server is that of the named provider, or in the `dot` mode the host the user has
   written down where no provider is named.
3. `derivedSettings` is what a configuration sets `VpnManager` to, and `heldSettings` what it holds:
   `Applied` compares the two along a run.

This module has the code only.  What the grammar accepts is in `Bypass.Grammar` and
`Bypass.Comments`, what the collected routes are in `Bypass.Union`, and which server is chosen in
`Bypass.SecureDns`.

The list of Iranian networks and the cache of resolved domains come from files that change
behind the service's back.  They are parameters here (`BypassSources`).
-/
import ShiroKhorshid.Service.Config

namespace ShiroKhorshid.Service

open Jvm Vpn

/-! ## 1. `BypassRoutes` -/

/-- `BypassRoute`: a network, its mask and its prefix length. -/
structure BypassRoute where
  address : String
  mask : String
  prefixLength : ℤ
deriving DecidableEq

/-- `BypassRoutes.tokenize` -/
def tokenize (blob : String) : List String :=
  let separators := ['\n', '\r', ',', ' ', '\t']
  let parts := (blob.toList.splitOnP fun c => separators.contains c).map String.ofList
  (parts.map kotlinTrim).filter fun t => t ≠ "" && t.toList.head? ≠ some '#'

/-- `ipv4Octets` -/
def ipv4Octets (ip : String) : Option (List ℤ) :=
  let comps := split ip '.'
  if comps.length ≠ 4 then none
  else comps.mapM fun c => (parseInt c).filter fun v => 0 ≤ v && v ≤ 255

/-- `BypassRoutes.prefixToMask` -/
def bypassMask (n : ℤ) : BitVec 64 :=
  if n = 0 then 0#64 else if n = 32 then 0xFFFFFFFF#64 else shl 0xFFFFFFFF#64 (32 - n)

/-- The prefix length of an entry split at its first slash; a lone address has 32. -/
def entryPrefix : List String → Option ℤ
  | [_, n] => (parseInt n).filter fun v => 0 ≤ v && v ≤ 32
  | _ => some 32

/-- `trimmed.split('/', limit = 2)` -/
def splitSlash (s : String) : List String :=
  if s.toList.contains '/' then
    [String.ofList (s.toList.takeWhile (· ≠ '/')),
     String.ofList ((s.toList.dropWhile (· ≠ '/')).drop 1)]
  else [s]

/-- `BypassRoutes.parse`: one address or network, the host bits masked off. -/
def parseRoute (entry : String) : Option BypassRoute :=
  let trimmed := kotlinTrim entry
  if trimmed = "" then none
  else do
    let parts := splitSlash trimmed
    let n ← entryPrefix parts
    let octets ← ipv4Octets (parts.headD "")
    let octet := fun i => BitVec.ofInt 64 (octets.getD i 0)
    let raw := shl (octet 0) 24 ||| shl (octet 1) 16 ||| shl (octet 2) 8 ||| octet 3
    let maskValue := bypassMask n
    some ⟨longToIp (raw &&& maskValue), longToIp maskValue, n⟩

/-- `BypassRoutes.parseList`: what parses, each route once, in order of first occurrence. -/
def parseList (entries : List String) : List BypassRoute :=
  entries.foldl (fun result entry =>
    match parseRoute entry with
    | none => result
    | some route => if route ∈ result then result else result ++ [route]) []

/-- `BypassRoutes.parseBlob` -/
def parseBlob (blob : String) : List BypassRoute := parseList (tokenize blob)

/-! ## 2. Secure DNS -/

/-- The DNS server of a named provider, the same for DoH and DoT. -/
def providerServer : String → Option String
  | "google" => some "8.8.8.8"
  | "cloudflare" => some "1.1.1.1"
  | "quad9" => some "9.9.9.9"
  | "adguard" => some "94.140.14.14"
  | _ => none

/-- `SecureDNSConfiguration.dnsServerFor` -/
def dnsServerFor (mode provider customDoTHost : String) : Option String :=
  if mode = "doh" then providerServer provider
  else if mode = "dot" then
    match providerServer provider with
    | some server => some server
    | none => if kotlinTrim customDoTHost ≠ "" then some (kotlinTrim customDoTHost) else none
  else none

/-! ## 3. `configureVpnBypassAndDns` -/

/-- The lists that live in files: `IranBypassListService.effectiveRoutes`, and
`BypassDomainResolver.resolvedRoutes` once the given domains have been resolved. -/
structure BypassSources where
  effectiveRoutes : List BypassRoute
  resolvedRoutes : String → List BypassRoute

/-- Routes added to `excludeRoutes`, with the keys already seen. -/
def addRoutes (acc : List String × List (String × String)) (routes : List BypassRoute) :
    List String × List (String × String) :=
  routes.foldl (fun acc route =>
    let key := route.address ++ "/" ++ toString route.prefixLength
    if key ∈ acc.1 then acc
    else (acc.1 ++ [key], acc.2 ++ [(route.address, toString route.prefixLength)])) acc

variable (sources : BypassSources)

/-- `excludeRoutes`, outside proxy-only mode. -/
def excludeRoutes (c : Config) : List (String × String) :=
  let acc := if c.bypassIranIPsEnabled then addRoutes ([], []) sources.effectiveRoutes
    else ([], [])
  let acc := if c.bypassCustomRoutes ≠ "" then addRoutes acc (parseBlob c.bypassCustomRoutes)
    else acc
  let acc := if c.bypassDomains ≠ "" then addRoutes acc (sources.resolvedRoutes c.bypassDomains)
    else acc
  acc.2

/-- The routes handed to `setBypassExcludedRoutes`. -/
def bypassRoutesOf (c : Config) : List (String × String) :=
  if c.proxyOnlyMode then [] else excludeRoutes sources c

/-- The server handed to `setSecureDnsServer`. -/
def secureDnsServerOf (c : Config) : Option String :=
  if c.proxyOnlyMode then none
  else if c.bypassStrictModeEnabled && !(excludeRoutes sources c).isEmpty then none
  else dnsServerFor c.secureDNSMode c.secureDNSProvider c.customDoTHost

/-- The four settings of `VpnManager` that come from the configuration. -/
structure VpnSettings where
  proxyOnlyMode : Bool
  shareProxyOnNetwork : Bool
  bypassExcludedRoutes : List (String × String)
  secureDnsServer : Option String
deriving DecidableEq

/-- What `runTunnel` and `configureVpnBypassAndDns` derive from a configuration. -/
def derivedSettings (c : Config) : VpnSettings where
  proxyOnlyMode := c.proxyOnlyMode
  shareProxyOnNetwork := c.shareProxyOnNetwork && !c.proxyOnlyMode
  bypassExcludedRoutes := bypassRoutesOf sources c
  secureDnsServer := secureDnsServerOf sources c

/-- The settings `VpnManager` holds. -/
def heldSettings (m : VpnManager) : VpnSettings where
  proxyOnlyMode := m.mProxyOnlyMode
  shareProxyOnNetwork := m.mShareProxyOnNetwork
  bypassExcludedRoutes := m.mBypassExcludedRoutes
  secureDnsServer := m.mSecureDnsServer

/-- A route parsed from text is printed back to the network it denotes. -/
example : parseBlob "10.1.2.3/8, 10.9.9.9/8\n# office\n192.168.1.7" =
    [⟨"10.0.0.0", "255.0.0.0", 8⟩, ⟨"192.168.1.7", "255.255.255.255", 32⟩] := by decide

end ShiroKhorshid.Service
