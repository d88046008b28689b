/-
# The URL of the upstream proxy (`UpstreamProxySettings.getUpstreamProxyUrl`)

The tunnel may have to go through a proxy, which is given to the core as one URL: a user and a
password, if there are any, the host and the port.  The user and the password are encoded.  The host
is not, and all that is asked of it is that it is not empty and has no spaces.

* **What the URL says** is read by the rules of `Lib.Url`: authority up to the first `/`, `?` or
  `#`, user information up to the last `@`, the port after the last colon, `%` as an escape.
* **The user and the password come out again** whatever they are: what `encode` writes has none of
  these characters (`plain_encode`) and decodes to what it was (`decoded_encode`); a domain and the
  backslash after it are encoded as a part of the user.
* **The host comes out again** if and only if it has none of the characters that end it or are
  decoded (`endpointOf_iff`): then the cuts fall where the URL was put together (`exists_front`).

`upstream_url_iff` is the two together.

Whether the proxy is used, and whose settings are taken, the user's or the system's, is read as in
the source; the system's settings are a parameter.  Which schemes the core knows is its own affair.
-/
import ShiroKhorshid.Lib.Url
import ShiroKhorshid.Service.Config

namespace ShiroKhorshid.Service

open Jvm

/-! ## 1. The settings -/

structure ProxySettings where
  proxyHost : String
  proxyPort : ℤ
deriving DecidableEq

namespace UpstreamProxySettings

variable (p : Preferences)

def getUseHTTPProxy : Bool := p.getBoolean "useProxySettingsPreference" false

def getUseSystemProxySettings : Bool := p.getBoolean "useSystemProxySettingsPreference" false

def getUseCustomProxySettings : Bool := p.getBoolean "useCustomProxySettingsPreference" false

def getCustomProxyHost : String := javaTrim (p.getString "useCustomProxySettingsHostPreference" "")

def getCustomProxyPort : String := p.getString "useCustomProxySettingsPortPreference" ""

def getUseProxyAuthentication : Bool := p.getBoolean "useProxyAuthenticationPreference" false

def getProxyUsername : String := p.getString "useProxyUsernamePreference" ""

def getProxyPassword : String := p.getString "useProxyPasswordPreference" ""

def getProxyDomain : String := p.getString "useProxyDomainPreference" ""

def isValidProxyHostName (proxyHost : String) : Bool :=
  if proxyHost = "" then false else !proxyHost.toList.contains ' '

/-- The host and the port that are stored. -/
def custom : ProxySettings := ⟨getCustomProxyHost p, (parseInt (getCustomProxyPort p)).getD 0⟩

variable (system : Option ProxySettings)

/-- `getProxySettings`, with `none` for `null`, for the settings of the system, as they were saved
or as they are. -/
def getProxySettings : Option ProxySettings :=
  if !getUseHTTPProxy p then none
  else
    let settings := if getUseCustomProxySettings p then some (custom p) else none
    if getUseSystemProxySettings p then system else settings

/-- What `Uri.encode` leaves as it is. -/
def isUnreserved (c : Char) : Bool := c.isAlphanum || "_-!.~'()*".toList.contains c

/-- `Uri.encode(s)`. -/
def encode (s : String) : String := String.ofList (Url.encode isUnreserved s.toList)

example : encode "NT\\user name" = "NT%5Cuser%20name" := by decide +kernel

/-- `getUpstreamProxyUrl`. -/
def getUpstreamProxyUrl : String :=
  match getProxySettings p system with
  | none => ""
  | some proxySettings =>
    let credentials :=
      if getUseProxyAuthentication p then
        let domain := getProxyDomain p
        (if domain ≠ "" then encode domain ++ encode "\\" else "") ++
          encode (getProxyUsername p) ++ ":" ++ encode (getProxyPassword p) ++ "@"
      else ""
    "http://" ++ credentials ++ proxySettings.proxyHost ++ ":" ++ toString proxySettings.proxyPort

/-- `MainActivityViewModel.validateCustomProxySettings`. -/
def validateCustomProxySettings : Bool :=
  if !getUseHTTPProxy p || !getUseCustomProxySettings p then true
  else
    match getProxySettings p system with
    | none => false
    | some proxySettings =>
      isValidProxyHostName proxySettings.proxyHost && isValidProxyPort proxySettings.proxyPort

/-! ## 2. What the URL says -/

/-- A proxy, and the user and the password for it. -/
structure Endpoint where
  userinfo : Option (String × Option String)
  host : String
  port : ℤ
deriving DecidableEq

/-- The text of a part of a URL. -/
def decoded (cs : List Char) : Option String := (Url.decode cs).map String.ofList

/-- The text of a user, and of a password if there is one. -/
def decodedUserinfo : Option (List Char × Option (List Char)) →
    Option (Option (String × Option String))
  | none => some none
  | some (user, none) => (decoded user).map fun user => some (user, none)
  | some (user, some password) => do
    let user ← decoded user
    let password ← decoded password
    some (some (user, some password))

/-- The endpoint of a URL, by the grammar of URLs. -/
def endpointOf (url : String) : Option Endpoint :=
  match url.toList with
  | 'h' :: 't' :: 't' :: 'p' :: ':' :: '/' :: '/' :: rest => do
    let parts ← Url.splitUrl rest
    let userinfo ← decodedUserinfo parts.userinfo
    let host ← decoded parts.host
    let port ← parseInt (String.ofList parts.port)
    some ⟨userinfo, host, port⟩
  | _ => none

/-- The user, with the domain if there is one. -/
def domainUser : String :=
  if getProxyDomain p ≠ "" then getProxyDomain p ++ "\\" ++ getProxyUsername p
  else getProxyUsername p

/-- What the URL should say. -/
def endpoint (settings : ProxySettings) : Endpoint :=
  ⟨if getUseProxyAuthentication p then some (domainUser p, some (getProxyPassword p)) else none,
    settings.proxyHost, settings.proxyPort⟩

/-- A host that has none of the characters that mean something in a URL. -/
def PlainHost (host : String) : Prop :=
  ∀ c ∈ host.toList, c ≠ '/' ∧ c ≠ '?' ∧ c ≠ '#' ∧ c ≠ '@' ∧ c ≠ '%'

/-! ## 3. Taking it apart -/

theorem plain_encode (cs : List Char) : Url.Plain (Url.encode isUnreserved cs) := by
  intro c hc
  have hnot : isUnreserved ':' = false ∧ isUnreserved '@' = false ∧ isUnreserved '/' = false ∧
      isUnreserved '?' = false ∧ isUnreserved '#' = false := by decide
  rcases Url.mem_encode hc with hkeep | rfl | ⟨n, hn, rfl⟩
  · have hne : ∀ d, isUnreserved d = false → c ≠ d := by
      rintro d hd rfl
      rw [hkeep] at hd
      cases hd
    obtain ⟨hcolon, hat, hslash, hquestion, hnumber⟩ := hnot
    refine ⟨hne _ hcolon, hne _ hat, ?_⟩
    simp [Url.isTerminator, hne _ hslash, hne _ hquestion, hne _ hnumber]
  · decide
  · have hdigits : ∀ n < 16, Url.hexDigit n ≠ ':' ∧ Url.hexDigit n ≠ '@' ∧
        Url.isTerminator (Url.hexDigit n) = false := by decide
    exact hdigits n hn

theorem decoded_encode (cs : List Char) :
    decoded (Url.encode isUnreserved cs) = some (String.ofList cs) := by
  have hkeep : ∀ c, isUnreserved c = true → c ≠ '%' := by
    rintro c hc rfl
    exact absurd hc (by decide)
  rw [decoded, Url.decode_encode hkeep]
  rfl

/-- The characters of a port. -/
theorem plain_port (port : ℤ) : Url.Plain (toString port).toList := by
  have hdigit : ∀ n : ℕ, Url.Plain (Nat.toDigits 10 n) := by
    intro n c hc
    have hc' := isDigit_of_mem_toDigits hc
    refine ⟨?_, ?_, ?_⟩
    · rintro rfl
      cases hc'
    · rintro rfl
      cases hc'
    · by_contra hterminator
      simp only [Url.isTerminator, Bool.not_eq_false, Bool.or_eq_true, decide_eq_true_eq]
        at hterminator
      rcases hterminator with (rfl | rfl) | rfl <;> cases hc'
  cases port with
  | ofNat n =>
    have hprint : (toString (Int.ofNat n)).toList = Nat.toDigits 10 n := by
      rw [Int.toString_eq_repr, Int.repr]
      simp
    rw [hprint]
    exact hdigit n
  | negSucc n =>
    have hprint : (toString (Int.negSucc n)).toList = '-' :: Nat.toDigits 10 (n + 1) := by
      rw [Int.toString_eq_repr, Int.repr]
      simp
    rw [hprint]
    intro c hc
    rcases List.mem_cons.mp hc with rfl | hc
    · decide
    · exact hdigit _ c hc

/-- What is written of the user and the password. -/
def rawUserinfo : Option (List Char × Option (List Char)) :=
  if getUseProxyAuthentication p then
    some (Url.encode isUnreserved (domainUser p).toList,
      some (Url.encode isUnreserved (getProxyPassword p).toList))
  else none

theorem decodedUserinfo_rawUserinfo (settings : ProxySettings) :
    decodedUserinfo (rawUserinfo p) = some (endpoint p settings).userinfo := by
  rw [rawUserinfo, endpoint]
  split
  · simp only [decodedUserinfo, decoded_encode, String.ofList_toList, Option.bind_eq_bind,
      Option.bind_some]
  · rfl

theorem toList_encode (s : String) : (encode s).toList = Url.encode isUnreserved s.toList :=
  String.toList_ofList

theorem encode_append (s t : String) : encode (s ++ t) = encode s ++ encode t := by
  refine String.toList_inj.mp ?_
  rw [String.toList_append, toList_encode, toList_encode, toList_encode, String.toList_append,
    Url.encode_append]

/-- The domain, the backslash and the user are encoded one by one. -/
theorem encode_domainUser : encode (domainUser p) =
    (if getProxyDomain p ≠ "" then encode (getProxyDomain p) ++ encode "\\" else "") ++
      encode (getProxyUsername p) := by
  rw [domainUser]
  split
  · rw [encode_append, encode_append]
  · exact String.empty_append.symm

variable {p system}

/-- **The URL**: what stands before the host, the host, and the port. -/
theorem exists_front {settings : ProxySettings}
    (h : getProxySettings p system = some settings) :
    ∃ front, Url.Front front (rawUserinfo p) ∧ (getUpstreamProxyUrl p system).toList =
      "http://".toList ++
        (front ++ (settings.proxyHost.toList ++ ':' :: (toString settings.proxyPort).toList)) := by
  rw [getUpstreamProxyUrl, h]
  by_cases hauth : getUseProxyAuthentication p = true
  · refine ⟨Url.encode isUnreserved (domainUser p).toList ++
      ':' :: (Url.encode isUnreserved (getProxyPassword p).toList ++ ['@']), ?_, ?_⟩
    · rw [rawUserinfo, if_pos hauth]
      exact Url.Front.userinfo (plain_encode _) (plain_encode _)
    · have huser := congrArg String.toList (encode_domainUser p)
      rw [toList_encode, String.toList_append] at huser
      rw [huser, if_pos hauth]
      simp [toList_encode]
  · refine ⟨[], ?_, ?_⟩
    · rw [rawUserinfo, if_neg hauth]
      exact Url.Front.none
    · simp [hauth]

theorem endpointOf_http (rest : List Char) {url : String}
    (h : url.toList = "http://".toList ++ rest) :
    endpointOf url = (Url.splitUrl rest).bind fun parts =>
      (decodedUserinfo parts.userinfo).bind fun userinfo =>
        (decoded parts.host).bind fun host =>
          (parseInt (String.ofList parts.port)).bind fun port => some ⟨userinfo, host, port⟩ := by
  rw [endpointOf, h]
  rfl

/-- **When the endpoint comes back.** -/
theorem endpointOf_iff {settings : ProxySettings}
    (h : getProxySettings p system = some settings)
    (hport : -2 ^ 31 ≤ settings.proxyPort ∧ settings.proxyPort < 2 ^ 31) :
    endpointOf (getUpstreamProxyUrl p system) = some (endpoint p settings) ↔
      PlainHost settings.proxyHost := by
  obtain ⟨front, hfront, hurl⟩ := exists_front h
  have hplain : PlainHost settings.proxyHost ↔
      (∀ c ∈ settings.proxyHost.toList, c ≠ '@' ∧ Url.isTerminator c = false) ∧
        '%' ∉ settings.proxyHost.toList := by
    constructor
    · intro hhost
      refine ⟨fun c hc => ?_, fun hmem => (hhost _ hmem).2.2.2.2 rfl⟩
      obtain ⟨hslash, hquestion, hnumber, hat, -⟩ := hhost c hc
      exact ⟨hat, by simp [Url.isTerminator, hslash, hquestion, hnumber]⟩
    · rintro ⟨hhost, hpercent⟩ c hc
      obtain ⟨hat, hterminator⟩ := hhost c hc
      simp only [Url.isTerminator, Bool.or_eq_false_iff, decide_eq_false_iff_not] at hterminator
      refine ⟨hterminator.1.1, hterminator.1.2, hterminator.2, hat, ?_⟩
      rintro rfl
      exact hpercent hc
  rw [endpointOf_http _ hurl, hplain]
  have hdecoded : ∀ cs, decoded cs = some settings.proxyHost ↔
      Url.decode cs = some settings.proxyHost.toList := by
    intro cs
    rw [decoded, Option.map_eq_some_iff]
    constructor
    · rintro ⟨ds, hds, hhost⟩
      rw [hds, ← hhost, String.toList_ofList]
    · exact fun hds => ⟨_, hds, String.ofList_toList⟩
  constructor
  · intro hsome
    obtain ⟨parts, hparts, hsome⟩ := Option.bind_eq_some_iff.mp hsome
    obtain ⟨userinfo, -, hsome⟩ := Option.bind_eq_some_iff.mp hsome
    obtain ⟨host, hhost, hsome⟩ := Option.bind_eq_some_iff.mp hsome
    obtain ⟨port, -, hsome⟩ := Option.bind_eq_some_iff.mp hsome
    obtain rfl : host = settings.proxyHost :=
      congrArg Endpoint.host (Option.some.inj hsome)
    have hdecode := (hdecoded _).mp hhost
    have hhostChars : ∀ c ∈ settings.proxyHost.toList, c ≠ '@' ∧ Url.isTerminator c = false := by
      by_contra hnot
      obtain ⟨hsublist, hshort⟩ := Url.host_of_splitUrl hfront (plain_port _) hparts hnot
      rw [Url.eq_of_decode_sublist hsublist hdecode] at hshort
      exact absurd hshort (Nat.lt_irrefl _)
    rw [Url.splitUrl_eq hfront hhostChars (plain_port _)] at hparts
    obtain rfl := Option.some.inj hparts
    exact ⟨hhostChars, Url.decode_eq_self_iff.mp hdecode⟩
  · rintro ⟨hhost, hpercent⟩
    have hparts := Url.splitUrl_eq hfront hhost (plain_port settings.proxyPort)
    have hdecode := (hdecoded _).mpr (Url.decode_eq_self_iff.mpr hpercent)
    simp only [hparts, decodedUserinfo_rawUserinfo p settings, hdecode, String.ofList_toList,
      parseInt_toString_int hport.1 hport.2, Option.bind_some]
    rfl

/-- **Which hosts come out of the URL again**: those without `/`, `?`, `#`, `@` and `%`.  The user,
with the domain, and the password always do, if the host does. -/
theorem upstream_url_iff (p : Preferences) (system : Option ProxySettings)
    (hhttp : getUseHTTPProxy p = true) (hcustom : getUseCustomProxySettings p = true)
    (hvalid : validateCustomProxySettings p system = true) :
    ∃ settings, getProxySettings p system = some settings ∧
      (getUseSystemProxySettings p = false → settings = custom p) ∧
      (endpointOf (getUpstreamProxyUrl p system) = some (endpoint p settings) ↔
        PlainHost settings.proxyHost) := by
  rw [validateCustomProxySettings, hhttp, hcustom] at hvalid
  cases hsettings : getProxySettings p system with
  | none =>
    rw [hsettings] at hvalid
    cases hvalid
  | some settings =>
    rw [hsettings] at hvalid
    obtain ⟨-, hport⟩ := Bool.and_eq_true_iff.mp hvalid
    simp only [isValidProxyPort, Bool.and_eq_true, decide_eq_true_eq] at hport
    refine ⟨settings, rfl, fun hsystem => ?_, ?_⟩
    · rw [getProxySettings, hhttp, hcustom, hsystem] at hsettings
      exact (Option.some.inj hsettings).symm
    · exact endpointOf_iff hsettings (by omega)

/-- The settings of a proxy on port 8080. -/
def proxyAt (host : String) (settings : List (String × String)) : Preferences := fun key =>
  ([("useProxySettingsPreference", "true"), ("useCustomProxySettingsPreference", "true"),
    ("useCustomProxySettingsHostPreference", host),
    ("useCustomProxySettingsPortPreference", "8080")] ++ settings).lookup key

/-- A user of a domain. -/
def ntUser : List (String × String) :=
  [("useProxyAuthenticationPreference", "true"), ("useProxyDomainPreference", "NT"),
    ("useProxyUsernamePreference", "user@x"), ("useProxyPasswordPreference", "a:b/c")]

theorem nt_user_recovered :
    getUseHTTPProxy (proxyAt "proxy.example" ntUser) = true ∧
      getUseCustomProxySettings (proxyAt "proxy.example" ntUser) = true ∧
      validateCustomProxySettings (proxyAt "proxy.example" ntUser) none = true ∧
      ∃ settings, getProxySettings (proxyAt "proxy.example" ntUser) none = some settings ∧
        endpointOf (getUpstreamProxyUrl (proxyAt "proxy.example" ntUser) none) =
          some (endpoint (proxyAt "proxy.example" ntUser) settings) := by
  have hhttp : getUseHTTPProxy (proxyAt "proxy.example" ntUser) = true := by decide +kernel
  have hcustom : getUseCustomProxySettings (proxyAt "proxy.example" ntUser) = true := by
    decide +kernel
  have hvalid : validateCustomProxySettings (proxyAt "proxy.example" ntUser) none = true := by
    decide +kernel
  obtain ⟨settings, hsettings, hstored, hiff⟩ :=
    upstream_url_iff (proxyAt "proxy.example" ntUser) none hhttp hcustom hvalid
  refine ⟨hhttp, hcustom, hvalid, settings, hsettings, hiff.mpr ?_⟩
  obtain rfl := hstored (by decide +kernel)
  have hhost : (custom (proxyAt "proxy.example" ntUser)).proxyHost = "proxy.example" := by
    decide +kernel
  rw [PlainHost, hhost]
  simp

/-- **A host with a slash in it** is cut off there, port and all. -/
theorem host_with_slash_lost :
    validateCustomProxySettings (proxyAt "proxy/x" []) none = true ∧
      getUpstreamProxyUrl (proxyAt "proxy/x" []) none = "http://proxy/x:8080" ∧
      endpointOf "http://proxy/x:8080" = none ∧
      endpointOf (getUpstreamProxyUrl (proxyAt "proxy/x" []) none) ≠
        some (endpoint (proxyAt "proxy/x" []) (custom (proxyAt "proxy/x" []))) := by
  have hvalid : validateCustomProxySettings (proxyAt "proxy/x" []) none = true := by decide +kernel
  have hurl : getUpstreamProxyUrl (proxyAt "proxy/x" []) none = "http://proxy/x:8080" := by
    decide +kernel
  have hnone : endpointOf "http://proxy/x:8080" = none := by decide +kernel
  refine ⟨hvalid, hurl, hnone, ?_⟩
  rw [hurl, hnone]
  exact (Option.some_ne_none _).symm

end UpstreamProxySettings

end ShiroKhorshid.Service
