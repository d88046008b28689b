/-
# The proxy on the local network (`buildTunnelCoreConfig`)

The proxy can be opened to the local network, on two ports, with or without a user name and a
password.  The settings screen refuses equal ports, and it has a switch for authentication.  The
service has neither: it reads the ports one by one and puts in its own for those that are missing,
and whether it asks for credentials depends on whether there are any, not on the switch.

* A stored text names a port (`Names`) or does not, and then the service's own number is taken
  (`listenPort_of_names`, `listenPort_of_not_names`); either way it is a port a socket can have.
* So two ports are equal in three ways: both texts name the same one, or one of them names the
  number that is put in for the other (`Collide`, `ports_differ_iff`).
* Credentials are asked for when a user name and a password are stored (`HasCredentials`), and the
  switch is not read (`credentialsOf_eq_none_iff`).

`lanProxyOk_iff` puts them together: it says for which stored texts the proxy is opened as the
settings say, and `lan_proxy_misconfigured` shows the two failures at once.

The switch that opens the proxy is read, and where it is off nothing is listened on.  What the core
does with the members it is given is not modelled.
-/
import ShiroKhorshid.Dotted
import ShiroKhorshid.Service.Config

namespace ShiroKhorshid.Service

open Jvm Dotted

/-! ## 1. Ports -/

/-- A stored text names a port. -/
def Names (text : String) (port : ℕ) : Prop :=
  1 ≤ port ∧ port ≤ 65535 ∧ Lenient (javaTrim text).toList port

/-- Both proxies listen on the same port: the texts name it both, or one of them names the port that
is put in for the other. -/
inductive Collide (socks http : String) : Prop
  | both {port : ℕ} : Names socks port → Names http port → Collide socks http
  | socks : Names socks 8087 → (∀ port, ¬ Names http port) → Collide socks http
  | http : (∀ port, ¬ Names socks port) → Names http 1088 → Collide socks http

theorem not_names_empty (port : ℕ) : ¬ Names "" port := by
  rintro ⟨-, -, h⟩
  have hempty : (javaTrim "").toList = [] := by decide
  rw [hempty] at h
  generalize hcs : ([] : List Char) = cs at h
  cases h with
  | digits h =>
    rw [← hcs] at h
    cases h
  | plus => cases hcs
  | minus => cases hcs

theorem parseOptionalProxyPort_eq_iff {text : String} {port : ℕ} (hport : 1 ≤ port) :
    parseOptionalProxyPort text = port ↔ Names text port := by
  rw [parseOptionalProxyPort]
  split
  · rename_i hempty
    subst hempty
    exact iff_of_false (by omega) (not_names_empty port)
  have hparse : port ≤ 65535 → (parseInt (javaTrim text) = some (port : ℤ) ↔
      Lenient (javaTrim text).toList port) := by
    intro hle
    rw [← parseInt_eq_some_iff (by omega), String.ofList_toList]
  split
  · rename_i v hv
    rw [hv] at hparse
    split
    · rename_i hvalid
      simp only [isValidProxyPort, Bool.and_eq_true, decide_eq_true_eq] at hvalid
      constructor
      · rintro rfl
        have hle : port ≤ 65535 := by omega
        exact ⟨hport, hle, (hparse hle).mp rfl⟩
      · rintro ⟨-, hle, h⟩
        exact Option.some.inj ((hparse hle).mpr h)
    · rename_i hvalid
      refine iff_of_false (by omega) ?_
      rintro ⟨hlow, hle, h⟩
      obtain rfl := Option.some.inj ((hparse hle).mpr h)
      simp only [isValidProxyPort, Bool.and_eq_true, decide_eq_true_eq] at hvalid
      omega
  · rename_i hnone
    rw [hnone] at hparse
    refine iff_of_false (by omega) ?_
    rintro ⟨-, hle, h⟩
    cases (hparse hle).mpr h

/-- The port that is named, or the one that is put in. -/
theorem parseOptionalProxyPort_cases (text : String) :
    (∃ port : ℕ, Names text port ∧ parseOptionalProxyPort text = port) ∨
      (∀ port, ¬ Names text port) ∧ parseOptionalProxyPort text = 0 := by
  obtain ⟨port, hport⟩ := Int.eq_ofNat_of_zero_le (parseOptionalProxyPort_range text).1
  rcases Nat.eq_zero_or_pos port with rfl | hpos
  · refine Or.inr ⟨fun port h => ?_, hport⟩
    rw [(parseOptionalProxyPort_eq_iff h.1).mpr h] at hport
    have := h.1
    omega
  · exact Or.inl ⟨port, (parseOptionalProxyPort_eq_iff hpos).mp hport, hport⟩

/-! ## 2. What is opened -/

/-- The stored text of a port. -/
def socksText (p : Preferences) : String := p.getString "shareProxyOnNetworkSocksPortPreference" ""

def httpText (p : Preferences) : String := p.getString "shareProxyOnNetworkHttpPortPreference" ""

/-- There is a user name and a password. -/
def HasCredentials (p : Preferences) : Prop :=
  javaTrim (p.getString "shareProxyOnNetworkUsernamePreference" "") ≠ "" ∧
    p.getString "shareProxyOnNetworkPasswordPreference" "" ≠ ""

/-- The switches, as they are stored. -/
def Opened (p : Preferences) : Prop :=
  p.getBoolean "shareProxyOnNetworkPreference" false = true ∨
    p.getBoolean "proxyOnlyModePreference" false = true

def AuthEnabled (p : Preferences) : Prop :=
  p.getBoolean "shareProxyOnNetworkAuthEnabledPreference" false = true

/-- The proxy is opened on two different ports, with credentials exactly if the switch is on. -/
structure LanProxyOk (auth : Prop) (m : LanProxyMembers) : Prop where
  socks : 1 ≤ m.localSocksProxyPort ∧ m.localSocksProxyPort ≤ 65535
  http : 1 ≤ m.localHttpProxyPort ∧ m.localHttpProxyPort ≤ 65535
  differ : m.localSocksProxyPort ≠ m.localHttpProxyPort
  closed : auth → ∃ username password, m.credentials = some (username, password)
  opened : ¬ auth → m.credentials = none

/-- The port a proxy listens on: the one that is stored, or its own. -/
def listenPort (text : String) (own : ℤ) : ℤ :=
  if parseOptionalProxyPort text > 0 then parseOptionalProxyPort text else own

/-- The credentials that are asked for. -/
def credentialsOf (p : Preferences) : Option (String × String) :=
  if javaTrim (p.getString "shareProxyOnNetworkUsernamePreference" "") ≠ "" ∧
      p.getString "shareProxyOnNetworkPasswordPreference" "" ≠ "" then
    some (javaTrim (p.getString "shareProxyOnNetworkUsernamePreference" ""),
      p.getString "shareProxyOnNetworkPasswordPreference" "")
  else none

/-- The members, from the stored texts. -/
def listening (p : Preferences) : LanProxyMembers :=
  ⟨"any", listenPort (socksText p) 1088, listenPort (httpText p) 8087, credentialsOf p⟩

theorem lanProxyMembers_eq_some_iff {p : Preferences} {m : LanProxyMembers} :
    lanProxyMembers (getTunnelConfig p) = some m ↔ Opened p ∧ listening p = m := by
  have hopened : shouldExposeLanProxy (getTunnelConfig p) = true ↔ Opened p :=
    Bool.or_eq_true_iff
  have hsocks : (getTunnelConfig p).shareProxyOnNetworkSocksPort =
      parseOptionalProxyPort (p.getString "shareProxyOnNetworkSocksPortPreference" "") := rfl
  have hhttp : (getTunnelConfig p).shareProxyOnNetworkHttpPort =
      parseOptionalProxyPort (p.getString "shareProxyOnNetworkHttpPortPreference" "") := rfl
  have husername : (getTunnelConfig p).shareProxyOnNetworkUsername =
      javaTrim (p.getString "shareProxyOnNetworkUsernamePreference" "") := rfl
  have hpassword : (getTunnelConfig p).shareProxyOnNetworkPassword =
      p.getString "shareProxyOnNetworkPasswordPreference" "" := rfl
  rw [← hopened, lanProxyMembers, hsocks, hhttp, husername, hpassword, listening, socksText,
    httpText, listenPort, listenPort, credentialsOf]
  split
  · rename_i h
    rw [and_iff_right h, Option.some_inj]
  · rename_i h
    constructor
    · intro hsome
      cases hsome
    · exact fun hsome => absurd hsome.1 h

/-- The port a proxy listens on is valid. -/
theorem listenPort_range (text : String) {own : ℤ} (hlow : 1 ≤ own) (hhigh : own ≤ 65535) :
    1 ≤ listenPort text own ∧ listenPort text own ≤ 65535 := by
  have hrange := parseOptionalProxyPort_range text
  rw [listenPort]
  split <;> omega

theorem credentialsOf_eq_none_iff {p : Preferences} :
    credentialsOf p = none ↔ ¬ HasCredentials p := by
  rw [credentialsOf, HasCredentials, ite_eq_right_iff]
  simp only [reduceCtorEq, imp_false]

theorem listenPort_of_names {text : String} {port : ℕ} (h : Names text port) (own : ℤ) :
    listenPort text own = port := by
  have hport := (parseOptionalProxyPort_eq_iff h.1).mpr h
  have hpos := h.1
  rw [listenPort, hport, if_pos (by omega)]

theorem listenPort_of_not_names {text : String} (h : ∀ port, ¬ Names text port) (own : ℤ) :
    listenPort text own = own := by
  rcases parseOptionalProxyPort_cases text with ⟨port, hport, -⟩ | ⟨-, hzero⟩
  · exact absurd hport (h port)
  · rw [listenPort, hzero, if_neg (by omega)]

/-- **When the ports differ.** -/
theorem ports_differ_iff {socks http : String} :
    listenPort socks 1088 ≠ listenPort http 8087 ↔ ¬ Collide socks http := by
  refine not_congr ⟨fun heq => ?_, fun h => ?_⟩
  · by_cases hs : ∃ port, Names socks port
    · obtain ⟨s, hs⟩ := hs
      rw [listenPort_of_names hs] at heq
      by_cases ht : ∃ port, Names http port
      · obtain ⟨t, ht⟩ := ht
        rw [listenPort_of_names ht] at heq
        obtain rfl : s = t := by omega
        exact Collide.both hs ht
      · rw [not_exists] at ht
        rw [listenPort_of_not_names ht] at heq
        obtain rfl : s = 8087 := by omega
        exact Collide.socks hs ht
    · rw [not_exists] at hs
      rw [listenPort_of_not_names hs] at heq
      by_cases ht : ∃ port, Names http port
      · obtain ⟨t, ht⟩ := ht
        rw [listenPort_of_names ht] at heq
        obtain rfl : t = 1088 := by omega
        exact Collide.http hs ht
      · rw [not_exists] at ht
        rw [listenPort_of_not_names ht] at heq
        exact absurd heq (by decide)
  · cases h with
    | both hs ht => rw [listenPort_of_names hs, listenPort_of_names ht]
    | socks hs ht =>
      rw [listenPort_of_names hs, listenPort_of_not_names ht]
      rfl
    | http hs ht =>
      rw [listenPort_of_not_names hs, listenPort_of_names ht]
      rfl

/-- **When the proxy is opened as the settings say**: if the stored ports do not collide, and there
are credentials exactly if authentication is switched on. -/
theorem lanProxyOk_iff (p : Preferences) :
    (∀ m, lanProxyMembers (getTunnelConfig p) = some m → LanProxyOk (AuthEnabled p) m) ↔
      (Opened p → ¬ Collide (socksText p) (httpText p) ∧ (AuthEnabled p ↔ HasCredentials p)) := by
  have hok : LanProxyOk (AuthEnabled p) (listening p) ↔
      ¬ Collide (socksText p) (httpText p) ∧ (AuthEnabled p ↔ HasCredentials p) := by
    have hsocks : (listening p).localSocksProxyPort = listenPort (socksText p) 1088 := by
      rw [listening]
    have hhttp : (listening p).localHttpProxyPort = listenPort (httpText p) 8087 := by
      rw [listening]
    have hnone : (listening p).credentials = none ↔ ¬ HasCredentials p := by
      rw [← credentialsOf_eq_none_iff, listening]
    rw [← ports_differ_iff, ← hsocks, ← hhttp]
    constructor
    · intro h
      refine ⟨h.differ, fun hauth => ?_, fun hcredentials => ?_⟩
      · by_contra hmissing
        obtain ⟨username, password, hsome⟩ := h.closed hauth
        rw [hnone.mpr hmissing] at hsome
        cases hsome
      · by_contra hauth
        exact hnone.mp (h.opened hauth) hcredentials
    · rintro ⟨hdiffer, hcredentials⟩
      have hsocksRange := @listenPort_range (socksText p) 1088 (by decide) (by decide)
      have hhttpRange := @listenPort_range (httpText p) 8087 (by decide) (by decide)
      rw [← hsocks] at hsocksRange
      rw [← hhttp] at hhttpRange
      refine ⟨hsocksRange, hhttpRange, hdiffer, fun hauth => ?_,
        fun hauth => hnone.mpr (mt hcredentials.mpr hauth)⟩
      obtain ⟨credentials, hsome⟩ := Option.ne_none_iff_exists'.mp
        (mt hnone.mp (not_not_intro (hcredentials.mp hauth)))
      exact ⟨credentials.1, credentials.2, hsome⟩
  simp only [lanProxyMembers_eq_some_iff, ← hok]
  constructor
  · exact fun h hopened => h _ ⟨hopened, rfl⟩
  · rintro h m ⟨hopened, rfl⟩
    exact h hopened

/-- The settings of an open proxy. -/
def openWith (settings : List (String × String)) : Preferences :=
  fun key => (("shareProxyOnNetworkPreference", "true") :: settings).lookup key

/-- **Open, on one port, and without the credentials that are switched on.** -/
theorem lan_proxy_misconfigured :
    (lanProxyMembers (getTunnelConfig
        (openWith [("shareProxyOnNetworkSocksPortPreference", "8087")])) =
      some ⟨"any", 8087, 8087, none⟩) ∧
    (lanProxyMembers (getTunnelConfig
        (openWith [("shareProxyOnNetworkAuthEnabledPreference", "true")])) =
      some ⟨"any", 1088, 8087, none⟩) ∧
    (∃ p m, lanProxyMembers (getTunnelConfig p) = some m ∧ ¬ LanProxyOk (AuthEnabled p) m) := by
  have hsame : lanProxyMembers (getTunnelConfig
      (openWith [("shareProxyOnNetworkSocksPortPreference", "8087")])) =
        some ⟨"any", 8087, 8087, none⟩ := by decide +kernel
  have hauth : lanProxyMembers (getTunnelConfig
      (openWith [("shareProxyOnNetworkAuthEnabledPreference", "true")])) =
        some ⟨"any", 1088, 8087, none⟩ := by decide +kernel
  exact ⟨hsame, hauth, _, _, hsame, fun h => h.differ rfl⟩

end ShiroKhorshid.Service
