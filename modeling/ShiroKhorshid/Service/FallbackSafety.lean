/-
# When the conduit fallback happens

The fallback is meant for a `conduit`/`auto` configuration that has not led to a connection within
its timeout.  Two things stand in the way.

* RESTART_TUNNEL replaces the configuration and leaves timer and flag as they are, so a timer armed
  under one configuration fires under another, and the flag of one session is found by the next.
* The delay is an `int` product: from 2147484 seconds on it comes out shorter than the timeout
  (`timeout_le_delay_iff`).

`FallbackUndisturbed` is the condition on a step.  A RESTART_TUNNEL keeps to `conduit`/`auto` while
a timer is pending or the flag is up, with a timeout no longer than the one the timer was armed for;
and the task that arms the timer finds a timeout that fits an `int` and no connection yet.

`Safe` is the invariant it keeps: the timer that is pending fits the configuration in force, and the
flag is only up in `conduit`/`auto` mode (`Safe.step`).  `conduit_fallback_safe` is what follows for
every run: where the fallback happens it is due (`FallbackDue`), and a RESTART_TUNNEL that goes over
to `conduit`/`auto` finds the flag down.

Nothing is said here of whether a fallback that is due ever happens; that is `FallbackCoverage`.
The condition is not shown to be necessary.
-/
import ShiroKhorshid.Service.Published

namespace ShiroKhorshid.Service

open Jvm Vpn Transition

/-! ## 1. The delay -/

/-- The largest timeout, in seconds, whose product with 1000 is an `int`. -/
def maxTimeoutSeconds : ℤ := 2147483

/-- **The delay covers the timeout** exactly when the product does not overflow upwards. -/
theorem timeout_le_delay_iff (seconds : ℤ) :
    seconds * 1000 ≤ ((toInt32 (seconds * 1000)).toNat : ℤ) ↔ seconds ≤ maxTimeoutSeconds := by
  have hrange : toInt32 (seconds * 1000) < 2 ^ 31 := by
    unfold toInt32
    rw [Int.bmod_def]
    omega
  unfold maxTimeoutSeconds
  constructor
  · intro h
    omega
  · intro h
    by_cases hneg : seconds * 1000 < -2 ^ 31
    · omega
    · rw [toInt32_of_fits (by omega) (by omega)]
      omega

/-! ## 2. The invariant -/

/-- The configuration in force, if any, asks for conduits, own ones first. -/
def inConduitAuto (config : Option Config) : Bool := config.any Config.conduitAuto

/-- What is to hold of a pending timer: it was armed in the session there still is, for a timeout
that is not shorter than the one in force, and there has been no connection. -/
structure Fits (s : TunnelManager) (timer : Timer) : Prop where
  config : ∃ c, s.m_tunnelConfig = some c ∧ c.conduitAuto = true ∧
    c.conduitTimeoutSeconds ≤ timer.conduitTimeoutSeconds
  delay : timer.conduitTimeoutSeconds * 1000 ≤ (timer.timeoutMs.toNat : ℤ)
  network : s.conn.network ≠ some .connected

/-- The invariant. -/
structure Safe (s : TunnelManager) : Prop where
  known : s.fallback.Known
  pending : ∀ timer, s.fallback.timer = some timer → Fits s timer
  fellBack : s.fallback.m_conduitFallbackToPublic = true → inConduitAuto s.m_tunnelConfig = true
  absent : s.m_tunnelThread = .absent → s.fallback.timer = none ∧
    s.fallback.m_conduitFallbackToPublic = false ∧ s.startupPosted = false

/-- The condition on a step.  The timer is armed for a timeout that fits and before there is a
connection; and a RESTART_TUNNEL neither leaves `conduit`/`auto` with a timer pending or the flag
set, nor raises the timeout while a timer is pending. -/
def FallbackUndisturbed (s : TunnelManager) : Event → Prop
  | .startupTask => ∀ c ∈ s.m_tunnelConfig, c.conduitAuto = true →
      c.conduitTimeoutSeconds ≤ maxTimeoutSeconds ∧ s.conn.network ≠ some .connected
  | .restart p =>
    (∀ timer ∈ s.fallback.timer, (getTunnelConfig p).conduitAuto = true ∧
      (getTunnelConfig p).conduitTimeoutSeconds ≤ timer.conduitTimeoutSeconds) ∧
    (s.fallback.m_conduitFallbackToPublic = true → (getTunnelConfig p).conduitAuto = true)
  | _ => True

instance (s : TunnelManager) (e : Event) : Decidable (FallbackUndisturbed s e) :=
  match e with
  | .startupTask | .restart _ => by
    dsimp only [FallbackUndisturbed]
    infer_instance
  | .start _ | .threadStep _ | .stop | .onConnecting | .onConnected
  | .onStartedWaitingForNetworkConnectivity | .onStoppedWaitingForNetworkConnectivity
  | .onListeningSocksProxyPort _ | .deliver _ | .newClient _ | .timerFires | .tick _ =>
    instDecidableTrue

/-! ## 3. One step -/

theorem deliver_network {config : Option Config} {port : ℤ} {d : Delivery} {c c' : Connection}
    {m m' : VpnManager} (h : deliver config port d c m = some (c', m')) :
    c'.network = c.network := by
  obtain ⟨pair, rest, -, ⟨-, rfl, -⟩ | ⟨-, heq⟩⟩ := deliver_cases h
  · rfl
  · rcases switchMap_cases config port d pair { c with posted := rest } m with
      ⟨-, -, heq'⟩ | ⟨-, -, -, heq'⟩ | ⟨-, -, -, heq'⟩ | ⟨-, heq'⟩
    all_goals
      rw [(Prod.mk.inj (heq.trans heq')).1]
      simp

theorem newClient_network (port : ℤ) (d : Delivery) (c : Connection) (m : VpnManager) :
    (newClient port d c m).1.network = c.network := by
  unfold newClient
  split <;> rfl

/-- What the invariant looks at is the fallback, the configuration and whether the core is
connected. -/
theorem Safe.frame {s t : TunnelManager} (hs : Safe s) (hfallback : t.fallback = s.fallback)
    (hconfig : t.m_tunnelConfig = s.m_tunnelConfig)
    (hnetwork : t.conn.network = some .connected → s.conn.network = some .connected)
    (habsent : t.m_tunnelThread = .absent →
      s.m_tunnelThread = .absent ∧ t.startupPosted = s.startupPosted) : Safe t := by
  refine ⟨?_, ?_, ?_, ?_⟩
  · rw [hfallback]
    exact hs.known
  · intro timer htimer
    rw [hfallback] at htimer
    have hfits := hs.pending timer htimer
    refine ⟨?_, hfits.delay, fun hnet => hfits.network (hnetwork hnet)⟩
    rw [hconfig]
    exact hfits.config
  · rw [hfallback, hconfig]
    exact hs.fellBack
  · intro hth
    obtain ⟨hth', hposted⟩ := habsent hth
    rw [hfallback, hposted]
    exact hs.absent hth'

/-- With no timer pending only the flag matters. -/
theorem Safe.of_no_timer {s : TunnelManager} (htimer : s.fallback.timer = none)
    (hfellBack : s.fallback.m_conduitFallbackToPublic = true →
      inConduitAuto s.m_tunnelConfig = true)
    (hth : s.m_tunnelThread = .absent →
      s.fallback.m_conduitFallbackToPublic = false ∧ s.startupPosted = false) : Safe s := by
  refine ⟨fun hne => absurd htimer hne, ?_, hfellBack,
    fun habsent => ⟨htimer, hth habsent⟩⟩
  intro timer hsome
  rw [htimer] at hsome
  cases hsome

theorem Safe.threadStep {sources : BypassSources} {env : ThreadEnv} {s t : TunnelManager}
    (hs : Safe s) (h : ThreadStep sources env s t) : Safe t := by
  cases h with
  | begin hth =>
    refine ⟨hs.known, ?_, fun hflag => Bool.noConfusion hflag, nofun⟩
    intro timer htimer
    have hfits := hs.pending timer htimer
    exact ⟨hfits.config, hfits.delay, nofun⟩
  | cancelTimer _ =>
    refine .of_no_timer ?_ ?_ nofun
    · rw [cancelConduitFallbackTimer_of_known hs.known]
    · rw [cancelConduitFallbackTimer_of_known hs.known]
      exact hs.fellBack
  | announce _ => exact hs.frame rfl rfl nofun nofun
  | _ => exact hs.frame rfl rfl id nofun

/-- **Every step** that meets the condition keeps the invariant. -/
theorem Safe.step {sources : BypassSources} {s t : TunnelManager} {e : Event} (hs : Safe s)
    (hok : FallbackUndisturbed s e) (h : Step sources s e t) : Safe t := by
  cases h with
  | threadStep env h => exact hs.threadStep h
  | start p habsent =>
    obtain ⟨htimer, hflag, hposted⟩ := hs.absent habsent
    refine .of_no_timer htimer ?_ nofun
    intro hset
    rw [hflag] at hset
    cases hset
  | startupTask hposted =>
    have habsent : s.m_tunnelThread ≠ .absent := by
      intro hth
      rw [(hs.absent hth).2.2] at hposted
      cases hposted
    rcases startConduitFallbackTimerIfNeeded_cases s.m_tunnelConfig s.fallback with
      ⟨c, hconfig, hauto, hflag, -, heq⟩ | ⟨-, heq⟩
    · obtain ⟨hfit, hnetwork⟩ := hok c hconfig hauto
      simp only [heq]
      refine ⟨fun _ => rfl, ?_, ?_, ?_⟩
      · intro timer htimer
        obtain rfl := Option.some.inj htimer
        exact ⟨⟨c, hconfig, hauto, le_refl _⟩, (timeout_le_delay_iff _).mpr hfit, hnetwork⟩
      · intro hset
        exact absurd (hset.symm.trans hflag) (by decide)
      · intro hth
        exact absurd hth habsent
    · simp only [heq]
      exact hs.frame rfl rfl id (fun hth => absurd hth habsent)
  | restartChanged p hpresent _ | restartSame p hpresent _ =>
    obtain ⟨hpending, hfellBack⟩ := hok
    refine ⟨hs.known, ?_, hfellBack, fun hth => absurd hth hpresent⟩
    intro timer htimer
    have hfits := hs.pending timer htimer
    refine ⟨⟨_, rfl, hpending timer htimer⟩, hfits.delay, ?_⟩
    first
    | exact hfits.network
    | exact nofun
  | onConnecting _ | onStartedWaitingForNetworkConnectivity _
  | onStoppedWaitingForNetworkConnectivity _ =>
    exact hs.frame rfl rfl nofun (fun hth => ⟨hth, rfl⟩)
  | onConnected _ =>
    rw [cancelConduitFallbackTimer_of_known hs.known]
    exact .of_no_timer rfl hs.fellBack (fun hth => (hs.absent hth).2)
  | deliver d hd => exact hs.frame rfl rfl (deliver_network hd ▸ id) (fun hth => ⟨hth, rfl⟩)
  | newClient d =>
    exact hs.frame rfl rfl (newClient_network s.localSocksProxyPort d s.conn s.m_vpnManager ▸ id)
      (fun hth => ⟨hth, rfl⟩)
  | timerFires hfire =>
    obtain ⟨timer, htimer, -, ⟨-, -, rfl⟩ | ⟨-, rfl⟩⟩ := fire_cases hfire
    · obtain ⟨c, hconfig, hauto, -⟩ := (hs.pending timer htimer).config
      refine .of_no_timer rfl ?_ ?_
      · intro _
        simp [inConduitAuto, hconfig, hauto]
      · intro hth
        rw [(hs.absent hth).1] at htimer
        cases htimer
    · exact .of_no_timer rfl hs.fellBack (fun hth => (hs.absent hth).2)
  | tick ms =>
    refine ⟨hs.known, ?_, hs.fellBack, hs.absent⟩
    intro timer htimer
    have hfits := hs.pending timer htimer
    exact ⟨hfits.config, hfits.delay, hfits.network⟩
  | _ => exact hs.frame rfl rfl id (fun hth => ⟨hth, rfl⟩)

/-! ## 4. Runs -/

/-- The fallback happens rightly: the configuration in force is `conduit`/`auto`, neither the core
nor the published state is connected, and the timeout, of the configuration in force and of the
one the timer was armed for, has passed since the timer was armed. -/
def FallbackDue (s : TunnelManager) : Prop :=
  ∃ c timer, s.m_tunnelConfig = some c ∧ c.conduitAuto = true ∧
    s.fallback.timer = some timer ∧
    s.conn.isConnected = false ∧ s.conn.network ≠ some .connected ∧
    (timer.armedAt : ℤ) + c.conduitTimeoutSeconds * 1000 ≤ s.fallback.clock ∧
    (timer.armedAt : ℤ) + timer.conduitTimeoutSeconds * 1000 ≤ s.fallback.clock

/-- The step makes the fallback happen. -/
def FallsBack (s t : TunnelManager) : Prop :=
  s.fallback.m_conduitFallbackToPublic = false ∧ t.fallback.m_conduitFallbackToPublic = true

instance (s t : TunnelManager) : Decidable (FallsBack s t) := by
  unfold FallsBack
  infer_instance

theorem startConduitFallbackTimerIfNeeded_flag (config : Option Config) (f : Fallback) :
    (f.startConduitFallbackTimerIfNeeded config).m_conduitFallbackToPublic
      = f.m_conduitFallbackToPublic := by
  rcases startConduitFallbackTimerIfNeeded_cases config f with ⟨_, -, -, -, -, heq⟩ | ⟨-, heq⟩
  · rw [heq]
  · rw [heq]

theorem cancelConduitFallbackTimer_flag (f : Fallback) :
    f.cancelConduitFallbackTimer.m_conduitFallbackToPublic = f.m_conduitFallbackToPublic := by
  unfold Fallback.cancelConduitFallbackTimer
  split <;> rfl

/-- Only the runnable makes the fallback happen, and it has checked what it checks. -/
theorem Step.fallsBack {sources : BypassSources} {s t : TunnelManager} {e : Event}
    (h : Step sources s e t) (hback : FallsBack s t) :
    e = .timerFires ∧ s.conn.isConnected = false ∧
      ∃ timer, s.fallback.timer = some timer ∧
        timer.armedAt + timer.timeoutMs.toNat ≤ s.fallback.clock := by
  obtain ⟨hdown, hup⟩ := hback
  have unchanged : t.fallback.m_conduitFallbackToPublic = s.fallback.m_conduitFallbackToPublic →
      False := by
    intro heq
    rw [heq, hdown] at hup
    cases hup
  cases h with
  | threadStep env h =>
    cases h with
    | begin _ => cases hup
    | cancelTimer _ => exact (unchanged (cancelConduitFallbackTimer_flag s.fallback)).elim
    | _ => exact (unchanged rfl).elim
  | startupTask _ =>
    exact (unchanged (startConduitFallbackTimerIfNeeded_flag s.m_tunnelConfig s.fallback)).elim
  | onConnected _ => exact (unchanged (cancelConduitFallbackTimer_flag s.fallback)).elim
  | timerFires hfire =>
    obtain ⟨timer, htimer, hdue, ⟨-, hconnected, -⟩ | ⟨-, rfl⟩⟩ := fire_cases hfire
    · exact ⟨rfl, hconnected, timer, htimer, hdue⟩
    · exact (unchanged rfl).elim
  | _ => exact (unchanged rfl).elim

/-- **Conduit fallback safety.**  In a run whose steps all meet the condition, the fallback
happens only when it is due, and a RESTART_TUNNEL that goes over to `conduit`/`auto` finds the
flag down. -/
theorem conduit_fallback_safe (sources : BypassSources) {m : VpnManager} {es : List Event}
    {s t : TunnelManager} {e : Event}
    (hrun : Run (step sources) FallbackUndisturbed (TunnelManager.new m) es s)
    (hok : FallbackUndisturbed s e) (h : step sources s e = some t) :
    (FallsBack s t → FallbackDue s ∧ t.m_tunnelConfig = s.m_tunnelConfig) ∧
    (∀ p, e = .restart p → inConduitAuto s.m_tunnelConfig = false →
      inConduitAuto t.m_tunnelConfig = true →
      t.fallback.m_conduitFallbackToPublic = false) := by
  have hnew : Safe (TunnelManager.new m) :=
    .of_no_timer rfl (fun hset => Bool.noConfusion hset) (fun _ => ⟨rfl, rfl⟩)
  have hs : Safe s := hrun.invariant hnew
    (fun _ _ _ hs hok hst => hs.step hok (.of_step sources hst))
  have hstep := Step.of_step sources h
  constructor
  · intro hback
    obtain ⟨rfl, hconnected, timer, htimer, hdue⟩ := hstep.fallsBack hback
    obtain ⟨⟨c, hconfig, hauto, hle⟩, hdelay, hnetwork⟩ := hs.pending timer htimer
    refine ⟨⟨c, timer, hconfig, hauto, htimer, hconnected, hnetwork, by omega, by omega⟩, ?_⟩
    cases hstep with
    | timerFires _ => rfl
  · rintro p rfl hbefore -
    by_contra hset
    have hflag : s.fallback.m_conduitFallbackToPublic = true := by
      cases hstep with
      | restartChanged _ _ _ | restartSame _ _ _ => exact Bool.eq_true_of_not_eq_false hset
    exact absurd ((hs.fellBack hflag).symm.trans hbefore) (by decide)

/-- A start in `conduit`/`auto`, the timer armed. -/
def conduitUp : List Event :=
  bringUp (onlyPreference "protocolSelectionPreference" "conduit") ++ [.startupTask]

/-- The theorem at a timer that fires after the default timeout. -/
theorem conduit_fallback_safe_default :
    ∃ s t, exec (step noSources) (TunnelManager.new VpnManager.new)
        (conduitUp ++ [.onConnecting, .tick 180000]) = some s ∧
      step noSources s .timerFires = some t ∧ FallsBack s t ∧ FallbackDue s := by
  obtain ⟨s, t, hs, ht, hback⟩ := exists_step_of_any (P := FallsBack)
    (show (execIf (step noSources) FallbackUndisturbed (TunnelManager.new VpnManager.new)
      (conduitUp ++ [.onConnecting, .tick 180000])).any
      (fun s => (step noSources s .timerFires).any (fun t => decide (FallsBack s t))) = true by
      decide)
  have hrun := run_of_execIf hs
  have hok : FallbackUndisturbed s .timerFires := trivial
  exact ⟨s, t, hrun.exec_eq, ht, hback,
    ((conduit_fallback_safe noSources hrun hok ht).1 hback).1⟩

/-- **Where it is unsafe.**  The protocol is changed by a RESTART_TUNNEL while the timer is
pending: the fallback happens in a session that is not about conduits, and a further
RESTART_TUNNEL, back to `conduit`/`auto`, finds the flag set. -/
theorem fallback_outside_conduit :
    (∃ s t, exec (step noSources) (TunnelManager.new VpnManager.new)
        (conduitUp ++ [.restart (fun _ => none), .tick 180000]) = some s ∧
      step noSources s .timerFires = some t ∧ FallsBack s t ∧
        inConduitAuto s.m_tunnelConfig = false) ∧
    (∃ s t, exec (step noSources) (TunnelManager.new VpnManager.new)
        (conduitUp ++ [.restart (fun _ => none), .tick 180000, .timerFires]) = some s ∧
      step noSources s (.restart (onlyPreference "protocolSelectionPreference" "conduit"))
        = some t ∧
      inConduitAuto s.m_tunnelConfig = false ∧ inConduitAuto t.m_tunnelConfig = true ∧
      t.fallback.m_conduitFallbackToPublic = true) := by
  constructor
  · exact exists_step_of_any (by decide)
  · exact exists_step_of_any (by decide)

end ShiroKhorshid.Service
