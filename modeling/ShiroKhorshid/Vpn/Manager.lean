/-
# The VPN manager (`VpnManager`)

One object holds what the service knows of the VPN: the settings the next interface is built
from, the tun file descriptor, the tun2socks thread, and a flag that says whether traffic is
being routed.  The flag is flipped before the steps that may fail (`routeThroughTunnel`) and
cleared without stopping the thread (`vpnEstablish`), so flag and thread can come apart.

Sections 1 and 2 are the source.  Section 3 says what the class is for.  In a state that is
`RoutingOk` the flag is up exactly while tun2socks runs, outside proxy-only mode; a call that has
all it needs leaves tun2socks running; and a teardown leaves neither thread nor interface.

* All of this comes down to the flag and the thread (`routingOk_iff`).
* `routingOk_apply_iff` says of every single call when it leads from such a state to another one.
  The conditions (`Meets`) are on the state and the arguments: a call that routes has an interface,
  a port and a descriptor it can duplicate; none establishes an interface over a running thread;
  and proxy-only mode is not left while the flag is up for nothing.
* Section 4 lifts the answer to whole sequences of calls (`routing_state_machine_iff`), for both
  things that are asked: that the states are consistent, and that a call which fails to start
  tun2socks changes nothing.

What the system answers, the interfaces of the device among it, comes with the call
(`EstablishEnv`).  tun2socks ends only when it is stopped; that it may end on its own is not
modelled, and the source does not look.
-/
import ShiroKhorshid.Lib.Transition
import ShiroKhorshid.Vpn.Routes

namespace ShiroKhorshid.Vpn

open Transition

/-! ## 1. The state -/

/-- A tun interface, known by the calls its builder was given. -/
structure TunInterface where
  calls : List BuilderCall
deriving DecidableEq

/-- What the tun2socks thread runs with: a dup of the tun descriptor, the router's address and
the port of the SOCKS server on `127.0.0.1`. -/
structure Tun2Socks where
  tun : TunInterface
  router : Option String
  socksProxyPort : ℤ
deriving DecidableEq

/-- The fields of `VpnManager`.  The host service's reference is part of `EstablishEnv`. -/
structure VpnManager where
  mPrivateAddress : Option PrivateAddress
  tunFd : Option TunInterface
  isRoutingThroughTunnel : Bool
  mShareProxyOnNetwork : Bool
  mProxyOnlyMode : Bool
  mSecureDnsServer : Option String
  mBypassExcludedRoutes : List (String × String)
  mTun2SocksThread : Option Tun2Socks
deriving DecidableEq

/-- `new VpnManager()` -/
def VpnManager.new : VpnManager :=
  ⟨none, none, false, false, false, none, [], none⟩

/-- How `builder.establish()` ends: an exception, `null`, or a file descriptor. -/
inductive Establish
  | throws
  | null
  | fd
deriving DecidableEq

/-- What one call of `vpnEstablish` meets in its environment. -/
structure EstablishEnv where
  sdkInt : ℤ
  /-- the order in which the map of candidate addresses iterates -/
  order : List (String × PrivateAddress)
  /-- the IPv4 addresses in use; `none` when the interfaces cannot be listed -/
  addresses : Option (List String)
  /-- the reference to the host service still holds -/
  hostService : Bool
  establish : Establish

/-! ## 2. The methods -/

namespace VpnManager

/-- `setShareProxyOnNetwork` -/
def setShareProxyOnNetwork (m : VpnManager) (share : Bool) : VpnManager :=
  { m with mShareProxyOnNetwork := share }

/-- `setProxyOnlyMode` -/
def setProxyOnlyMode (m : VpnManager) (proxyOnly : Bool) : VpnManager :=
  { m with mProxyOnlyMode := proxyOnly }

/-- `setSecureDnsServer` -/
def setSecureDnsServer (m : VpnManager) (dnsServer : Option String) : VpnManager :=
  { m with mSecureDnsServer := dnsServer }

/-- `setBypassExcludedRoutes` -/
def setBypassExcludedRoutes (m : VpnManager) (routes : List (String × String)) : VpnManager :=
  { m with mBypassExcludedRoutes := routes }

/-- The private address `vpnEstablish` picks, when it picks one. -/
def selectedAddress (env : EstablishEnv) : Option PrivateAddress :=
  env.addresses.bind (selectPrivateAddress env.order)

/-- The interface `vpnEstablish` establishes, when nothing on the way fails. -/
def established (m : VpnManager) (env : EstablishEnv) : Option TunInterface := do
  let pa ← selectedAddress env
  if env.hostService then
    let calls ← builderCalls env.sdkInt pa m.mShareProxyOnNetwork m.mBypassExcludedRoutes
      m.mSecureDnsServer
    if env.establish = .fd then some ⟨calls⟩ else none
  else none

/-- `vpnEstablish`: pick a private address and create the VPN interface.  The second component
says whether it returned; otherwise it threw, after picking an address or before. -/
def vpnEstablish (m : VpnManager) (env : EstablishEnv) : VpnManager × Bool :=
  if m.mProxyOnlyMode then ({ m with isRoutingThroughTunnel := false }, true)
  else match selectedAddress env with
    | none => (m, false)
    | some pa => match m.established env with
      | none => ({ m with mPrivateAddress := some pa }, false)
      | some tun => ({ m with
          mPrivateAddress := some pa, tunFd := some tun, isRoutingThroughTunnel := false }, true)

/-- `startTun2Socks` -/
def startTun2Socks (m : VpnManager) (tun : TunInterface) (socksProxyPort : ℤ) : VpnManager :=
  match m.mTun2SocksThread with
  | some _ => m
  | none => { m with
      mTun2SocksThread := some ⟨tun, m.mPrivateAddress.map PrivateAddress.mRouter,
        socksProxyPort⟩ }

/-- `stopTun2Socks` -/
def stopTun2Socks (m : VpnManager) : VpnManager := { m with mTun2SocksThread := none }

/-- `routeThroughTunnel`: start tun2socks if it is not running already; `dup` says whether
duplicating the descriptor succeeds. -/
def routeThroughTunnel (m : VpnManager) (socksProxyPort : ℤ) (dup : Bool) : VpnManager :=
  if m.mProxyOnlyMode then { m with isRoutingThroughTunnel := true }
  else if m.isRoutingThroughTunnel then m
  else
    -- the flag is set here, before any of the steps that may fail
    let m := { m with isRoutingThroughTunnel := true }
    match m.tunFd with
    | none => m
    | some tun =>
      if socksProxyPort ≤ 0 then m
      else if dup then m.startTun2Socks tun socksProxyPort
      else m

/-- `stopRouteThroughTunnel`: stop tun2socks if currently routing through the tunnel. -/
def stopRouteThroughTunnel (m : VpnManager) : VpnManager :=
  if m.isRoutingThroughTunnel then { m with isRoutingThroughTunnel := false }.stopTun2Socks
  else m

/-- `vpnTeardown`: stop tun2socks if running and close the tun descriptor. -/
def vpnTeardown (m : VpnManager) : VpnManager :=
  { m.stopRouteThroughTunnel with tunFd := none, isRoutingThroughTunnel := false }

end VpnManager

/-- A call of one of the public methods, with what it meets in its environment. -/
inductive VpnCall
  | setShareProxyOnNetwork (share : Bool)
  | setProxyOnlyMode (proxyOnly : Bool)
  | setSecureDnsServer (dnsServer : Option String)
  | setBypassExcludedRoutes (routes : List (String × String))
  | vpnEstablish (env : EstablishEnv)
  | routeThroughTunnel (socksProxyPort : ℤ) (dup : Bool)
  | stopRouteThroughTunnel
  | vpnTeardown

/-- The state after a call. -/
def VpnManager.apply (m : VpnManager) : VpnCall → VpnManager
  | .setShareProxyOnNetwork share => m.setShareProxyOnNetwork share
  | .setProxyOnlyMode proxyOnly => m.setProxyOnlyMode proxyOnly
  | .setSecureDnsServer dnsServer => m.setSecureDnsServer dnsServer
  | .setBypassExcludedRoutes routes => m.setBypassExcludedRoutes routes
  | .vpnEstablish env => (m.vpnEstablish env).1
  | .routeThroughTunnel socksProxyPort dup => m.routeThroughTunnel socksProxyPort dup
  | .stopRouteThroughTunnel => m.stopRouteThroughTunnel
  | .vpnTeardown => m.vpnTeardown

/-! ## 3. What the class is for, one call at a time -/

namespace VpnManager

/-- The state is consistent: outside proxy-only mode the flag says whether the thread is there
and a call with a descriptor and a port starts it if it is not, and a teardown leaves neither
thread nor descriptor. -/
structure RoutingOk (m : VpnManager) : Prop where
  flag : m.mProxyOnlyMode = false →
    (m.isRoutingThroughTunnel = true ↔ m.mTun2SocksThread ≠ none)
  starts : m.mProxyOnlyMode = false → m.tunFd ≠ none → ∀ socksProxyPort, 0 < socksProxyPort →
    (m.routeThroughTunnel socksProxyPort true).mTun2SocksThread ≠ none
  teardown : m.vpnTeardown.mTun2SocksThread = none ∧ m.vpnTeardown.tunFd = none

@[simp] theorem stopTun2Socks_thread (m : VpnManager) :
    m.stopTun2Socks.mTun2SocksThread = none := rfl

theorem startTun2Socks_thread_ne (m : VpnManager) (tun : TunInterface) (socksProxyPort : ℤ) :
    (m.startTun2Socks tun socksProxyPort).mTun2SocksThread ≠ none := by
  unfold startTun2Socks
  split
  · rename_i t ht
    simp [ht]
  · simp

@[simp] theorem startTun2Socks_flag (m : VpnManager) (tun : TunInterface)
    (socksProxyPort : ℤ) :
    (m.startTun2Socks tun socksProxyPort).isRoutingThroughTunnel
      = m.isRoutingThroughTunnel := by
  unfold startTun2Socks
  split <;> rfl

/-- A teardown leaves a thread behind exactly when the flag does not know of it. -/
theorem vpnTeardown_thread_eq_none_iff (m : VpnManager) :
    m.vpnTeardown.mTun2SocksThread = none ↔
      (m.mTun2SocksThread ≠ none → m.isRoutingThroughTunnel = true) := by
  simp only [vpnTeardown, stopRouteThroughTunnel]
  split
  · rename_i hflag
    simp [hflag]
  · rename_i hflag
    simp [hflag]

/-- What a call of `routeThroughTunnel` does outside proxy-only mode when it is not routing: the
thread is started when there is a descriptor, the port is positive and the dup succeeds; in any
case the flag is set. -/
theorem routeThroughTunnel_cases {m : VpnManager} (hmode : m.mProxyOnlyMode = false)
    (hflag : m.isRoutingThroughTunnel = false) (socksProxyPort : ℤ) (dup : Bool) :
    (∃ tun, m.tunFd = some tun ∧ 0 < socksProxyPort ∧ dup = true ∧
      m.routeThroughTunnel socksProxyPort dup
        = { m with isRoutingThroughTunnel := true }.startTun2Socks tun socksProxyPort) ∨
    (¬ (m.tunFd ≠ none ∧ 0 < socksProxyPort ∧ dup = true) ∧
      m.routeThroughTunnel socksProxyPort dup = { m with isRoutingThroughTunnel := true }) := by
  simp only [routeThroughTunnel, hmode, hflag, Bool.false_eq_true, if_false]
  cases hfd : m.tunFd with
  | none => exact Or.inr ⟨fun h => h.1 rfl, rfl⟩
  | some tun =>
    by_cases hport : socksProxyPort ≤ 0
    · exact Or.inr ⟨fun h => by omega, if_pos hport⟩
    · cases dup with
      | false => exact Or.inr ⟨fun h => by simp at h, if_neg hport⟩
      | true => exact Or.inl ⟨tun, rfl, by omega, rfl, if_neg hport⟩

/-- A call of `routeThroughTunnel` changes the flag and the thread, and nothing else. -/
theorem routeThroughTunnel_frame (m : VpnManager) (socksProxyPort : ℤ) (dup : Bool) :
    ∃ flag thread, m.routeThroughTunnel socksProxyPort dup
      = { m with isRoutingThroughTunnel := flag, mTun2SocksThread := thread } := by
  cases hmode : m.mProxyOnlyMode with
  | true => exact ⟨true, m.mTun2SocksThread, by simp [routeThroughTunnel, hmode]⟩
  | false =>
    cases hflag : m.isRoutingThroughTunnel with
    | true =>
      refine ⟨true, m.mTun2SocksThread, ?_⟩
      rw [routeThroughTunnel, if_neg (by simp [hmode]), if_pos hflag, ← hflag, ← hmode]
    | false =>
      rcases routeThroughTunnel_cases hmode hflag socksProxyPort dup with
        ⟨tun, -, -, -, heq⟩ | ⟨-, heq⟩
      · rw [heq, ← hmode]
        unfold startTun2Socks
        split
        · exact ⟨true, m.mTun2SocksThread, rfl⟩
        · exact ⟨true, _, rfl⟩
      · exact ⟨true, m.mTun2SocksThread, by rw [heq, ← hmode]⟩

/-- So does a call of `stopRouteThroughTunnel`. -/
theorem stopRouteThroughTunnel_frame (m : VpnManager) :
    ∃ flag thread, m.stopRouteThroughTunnel
      = { m with isRoutingThroughTunnel := flag, mTun2SocksThread := thread } := by
  unfold stopRouteThroughTunnel
  split
  · exact ⟨false, none, rfl⟩
  · exact ⟨m.isRoutingThroughTunnel, m.mTun2SocksThread, rfl⟩

/-- The invariant behind `RoutingOk`, in terms of the flag and the thread alone. -/
theorem routingOk_iff (m : VpnManager) :
    RoutingOk m ↔
      (m.mProxyOnlyMode = false → m.isRoutingThroughTunnel = true →
        m.mTun2SocksThread ≠ none) ∧
      (m.mTun2SocksThread ≠ none → m.isRoutingThroughTunnel = true) := by
  constructor
  · intro h
    exact ⟨fun hmode => (h.flag hmode).mp, (vpnTeardown_thread_eq_none_iff m).mp h.teardown.1⟩
  · rintro ⟨hthread, hflag⟩
    refine ⟨fun hmode => ⟨hthread hmode, hflag⟩, ?_,
      (vpnTeardown_thread_eq_none_iff m).mpr hflag, rfl⟩
    intro hmode hfd socksProxyPort hport
    cases hf : m.isRoutingThroughTunnel with
    | true =>
      have hsame : m.routeThroughTunnel socksProxyPort true = m := by
        simp [routeThroughTunnel, hmode, hf]
      rw [hsame]
      exact hthread hmode hf
    | false =>
      rcases routeThroughTunnel_cases hmode hf socksProxyPort true with
        ⟨tun, -, -, -, heq⟩ | ⟨hnot, -⟩
      · rw [heq]
        exact startTun2Socks_thread_ne _ tun socksProxyPort
      · exact absurd ⟨hfd, hport, rfl⟩ hnot

/-- The condition on one call: proxy-only mode is not left with the flag set and no thread; the
flag is not cleared over a running thread; a call that is to start tun2socks can do so. -/
def Meets (m : VpnManager) : VpnCall → Prop
  | .setProxyOnlyMode proxyOnly =>
    proxyOnly = false → m.isRoutingThroughTunnel = true → m.mTun2SocksThread ≠ none
  | .vpnEstablish env =>
    (m.mProxyOnlyMode = true ∨ m.established env ≠ none) → m.mTun2SocksThread = none
  | .routeThroughTunnel socksProxyPort dup =>
    m.mProxyOnlyMode = false → m.isRoutingThroughTunnel = false →
      m.tunFd ≠ none ∧ 0 < socksProxyPort ∧ dup = true
  | .setShareProxyOnNetwork _ => True
  | .setSecureDnsServer _ => True
  | .setBypassExcludedRoutes _ => True
  | .stopRouteThroughTunnel => True
  | .vpnTeardown => True

/-- What `vpnEstablish` does to the flag, the thread and the mode: the flag is cleared when the
call returns, and nothing else of the three changes. -/
theorem vpnEstablish_cases (m : VpnManager) (env : EstablishEnv) :
    (m.vpnEstablish env).1.mTun2SocksThread = m.mTun2SocksThread ∧
    (m.vpnEstablish env).1.mProxyOnlyMode = m.mProxyOnlyMode ∧
    (((m.mProxyOnlyMode = true ∨ m.established env ≠ none) ∧
        (m.vpnEstablish env).1.isRoutingThroughTunnel = false) ∨
      (¬ (m.mProxyOnlyMode = true ∨ m.established env ≠ none) ∧
        (m.vpnEstablish env).1.isRoutingThroughTunnel = m.isRoutingThroughTunnel)) := by
  unfold vpnEstablish
  by_cases hmode : m.mProxyOnlyMode = true
  · rw [if_pos hmode]
    exact ⟨rfl, rfl, Or.inl ⟨Or.inl hmode, rfl⟩⟩
  · rw [if_neg hmode]
    cases hpa : selectedAddress env with
    | none =>
      have hest : m.established env = none := by simp [established, hpa]
      exact ⟨rfl, rfl, Or.inr ⟨fun h => h.elim hmode (fun hne => hne hest), rfl⟩⟩
    | some pa =>
      cases hest : m.established env with
      | none => exact ⟨rfl, rfl, Or.inr ⟨fun h => h.elim hmode (fun hne => hne rfl), rfl⟩⟩
      | some tun => exact ⟨rfl, rfl, Or.inl ⟨Or.inr (by simp), rfl⟩⟩

/-- **One call.**  From a consistent state a call leads to a consistent state exactly when it
meets the condition. -/
theorem routingOk_apply_iff {m : VpnManager} (h : RoutingOk m) (c : VpnCall) :
    RoutingOk (m.apply c) ↔ m.Meets c := by
  obtain ⟨hthread, hflag⟩ := (routingOk_iff m).mp h
  rw [routingOk_iff]
  cases c with
  | setShareProxyOnNetwork share => exact iff_of_true ⟨hthread, hflag⟩ trivial
  | setSecureDnsServer dnsServer => exact iff_of_true ⟨hthread, hflag⟩ trivial
  | setBypassExcludedRoutes routes => exact iff_of_true ⟨hthread, hflag⟩ trivial
  | setProxyOnlyMode proxyOnly =>
    exact ⟨fun h' => h'.1, fun h' => ⟨h', hflag⟩⟩
  | vpnEstablish env =>
    obtain ⟨ht, hm, ⟨hcond, hf⟩ | ⟨hcond, hf⟩⟩ := vpnEstablish_cases m env
    · simp only [apply, Meets, ht, hm, hf, hcond, Bool.false_eq_true, false_implies,
        implies_true, true_and, true_implies]
      exact ⟨fun h' => by_contra h', fun h' hne => hne h'⟩
    · simp only [apply, Meets, ht, hm, hf, hcond, false_implies, iff_true]
      exact ⟨hthread, hflag⟩
  | routeThroughTunnel socksProxyPort dup =>
    cases hmode : m.mProxyOnlyMode with
    | true => simp [apply, Meets, routeThroughTunnel, hmode]
    | false =>
      cases hf : m.isRoutingThroughTunnel with
      | true =>
        have hsame : m.apply (.routeThroughTunnel socksProxyPort dup) = m := by
          simp [apply, routeThroughTunnel, hmode, hf]
        rw [hsame]
        refine iff_of_true ⟨hthread, hflag⟩ ?_
        simp [Meets, hf]
      | false =>
        rcases routeThroughTunnel_cases hmode hf socksProxyPort dup with
          ⟨tun, hfd, hport, hdup, heq⟩ | ⟨hnot, heq⟩
        · have hne := startTun2Socks_thread_ne { m with isRoutingThroughTunnel := true } tun
            socksProxyPort
          simp only [apply, Meets, heq]
          refine iff_of_true ⟨fun _ _ => hne, by simp⟩ (fun _ _ => ⟨by simp [hfd], hport, hdup⟩)
        · have hnone : m.mTun2SocksThread = none := by
            by_contra hne
            rw [hflag hne] at hf
            cases hf
          simp only [apply, Meets, heq]
          refine iff_of_false ?_ (fun h' => hnot (h' hmode hf))
          intro h'
          exact h'.1 hmode trivial hnone
  | stopRouteThroughTunnel =>
    cases hf : m.isRoutingThroughTunnel with
    | true => simp [apply, Meets, stopRouteThroughTunnel, stopTun2Socks, hf]
    | false =>
      have hnone : m.mTun2SocksThread = none := by
        by_contra hne
        rw [hflag hne] at hf
        cases hf
      simp [apply, Meets, stopRouteThroughTunnel, hf, hnone]
  | vpnTeardown =>
    have hnone : m.vpnTeardown.mTun2SocksThread = none :=
      (vpnTeardown_thread_eq_none_iff m).mpr hflag
    have hoff : m.vpnTeardown.isRoutingThroughTunnel = false := rfl
    refine iff_of_true ⟨?_, fun hne => absurd hnone hne⟩ trivial
    intro _ hf
    rw [apply, hoff] at hf
    cases hf

/-! ## 4. Sequences of calls -/

theorem routingOk_new : RoutingOk VpnManager.new :=
  (routingOk_iff _).mpr ⟨fun _ hf => Bool.noConfusion hf, fun hne => absurd rfl hne⟩

/-- A call of `routeThroughTunnel` that starts nothing changed nothing. -/
def LeavesAsItWas (m : VpnManager) : VpnCall → Prop
  | .routeThroughTunnel socksProxyPort dup =>
    m.mProxyOnlyMode = false →
      (m.routeThroughTunnel socksProxyPort dup).mTun2SocksThread = none →
      m.routeThroughTunnel socksProxyPort dup = m
  | _ => True

/-- In a consistent state a call that meets the condition does not fail to start tun2socks. -/
theorem leavesAsItWas_of_meets {m : VpnManager} (h : RoutingOk m) {c : VpnCall}
    (hc : m.Meets c) : m.LeavesAsItWas c := by
  have hafter := (routingOk_apply_iff h c).mpr hc
  cases c with
  | routeThroughTunnel socksProxyPort dup =>
    intro hmode hnone
    cases hf : m.isRoutingThroughTunnel with
    | true => simp [routeThroughTunnel, hmode, hf]
    | false =>
      obtain ⟨hfd, hport, rfl⟩ := hc hmode hf
      exact absurd hnone (h.starts hmode hfd socksProxyPort hport)
  | _ => trivial

/-- **The routing state machine.**  A sequence of calls on a new `VpnManager` stays consistent,
and none of its calls fails to start tun2socks and yet changes the state, exactly when every
call meets the condition in the state it is made in. -/
theorem routing_state_machine_iff (calls : List VpnCall) :
    ((∀ done, done <+: calls → RoutingOk (done.foldl apply new)) ∧
      ∀ done c rest, calls = done ++ c :: rest → LeavesAsItWas (done.foldl apply new) c) ↔
    ∀ done c rest, calls = done ++ c :: rest → Meets (done.foldl apply new) c := by
  have hruns := foldl_invariant_iff apply routingOk_new
    (fun _ c hm => routingOk_apply_iff hm c) calls
  rw [hruns]
  constructor
  · exact fun h => h.1
  · intro h
    refine ⟨h, ?_⟩
    rintro done c rest rfl
    exact leavesAsItWas_of_meets (hruns.mpr h done (List.prefix_append _ _))
      (h done c rest rfl)

/-- An environment in which `vpnEstablish` succeeds. -/
def goodEnv : EstablishEnv := ⟨33, candidates, some [], true, .fd⟩

/-- **Where it fails.**  The interface is established, then routing is asked for before the SOCKS
port is known: no thread is started, but the flag is set, so the next call, which has
everything it needs, starts nothing either. -/
theorem route_without_port_blocks_routing :
    let calls : List VpnCall :=
      [.vpnEstablish goodEnv, .routeThroughTunnel 0 true, .routeThroughTunnel 1080 true]
    (calls.foldl apply new).mProxyOnlyMode = false ∧
      (calls.foldl apply new).tunFd ≠ none ∧
      (calls.foldl apply new).isRoutingThroughTunnel = true ∧
      (calls.foldl apply new).mTun2SocksThread = none := by
  decide

end VpnManager

end ShiroKhorshid.Vpn
