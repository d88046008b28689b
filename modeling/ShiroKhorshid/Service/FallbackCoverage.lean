/-
# Whether there is a conduit fallback

The timer is armed once, by the task `runTunnel` posts, and cancelled by every connection.  A
RESTART_TUNNEL that goes over to `conduit`/`auto` arms none, and neither does a connection that is
lost again, although `startConduitFallbackTimerIfNeeded` is written to be called from
`onConnecting`.

* `Orderly` holds of every run, whatever happens: the task is posted once and runs once, and until
  then the field is clear.
* `Covered` says of a state that a fallback which is asked for and has not happened has its timer
  pending, unless the core is connected.  It is asked for by a `conduit`/`auto` configuration.
* `KeepsCoverage` is the condition on a step, read off the state before it.  From a covered state a
  step leads to a covered one exactly when it meets the condition, one case for every event.

So `conduit_fallback_covered_iff` is exact for whole runs: a run is covered throughout if and only
if all its steps meet the condition.

A service that is stopping, or whose thread has not got as far as posting the task, counts as
covered: nothing is due there yet.  That a pending timer fires in the end is left to the system.
-/
import ShiroKhorshid.Service.FallbackSafety

namespace ShiroKhorshid.Service

open Vpn Transition

/-! ## 1. What holds of every run -/

/-- `runTunnel` is past the point where it sets `m_isStopping`. -/
def TunnelThread.cleaningUp : TunnelThread → Bool
  | .cancelled | .announced | .tornDown | .ended => true
  | _ => false

/-- `runTunnel` has not posted the startup task yet. -/
def TunnelThread.beforeTask (th : TunnelThread) : Bool := th.beforeTun || th = .established

/-- The startup task is posted once and is the first to arm the timer; the service is stopping
only from the `finally` block on. -/
structure Orderly (s : TunnelManager) : Prop where
  known : s.fallback.Known
  before : s.m_tunnelThread.beforeTask = true → s.startupPosted = false ∧ s.startupRan = false
  posted : s.startupPosted = true → s.startupRan = false
  unarmed : s.startupRan = false → s.fallback.m_conduitFallbackRunnable = false
  running : s.m_tunnelThread.cleaningUp = false → s.m_isStopping = false

theorem Orderly.threadStep {sources : BypassSources} {env : ThreadEnv} {s t : TunnelManager}
    (hs : Orderly s) (h : ThreadStep sources env s t) : Orderly t := by
  cases h with
  | begin hth => exact ⟨hs.known, fun _ => hs.before (by rw [hth]; rfl), hs.posted, hs.unarmed,
      fun _ => rfl⟩
  | startTunneling hth =>
    have hran := (hs.before (by rw [hth]; rfl)).2
    exact ⟨hs.known, nofun, fun _ => hran, hs.unarmed, fun _ => hs.running (by rw [hth]; rfl)⟩
  | cancelTimer _ =>
    rw [cancelConduitFallbackTimer_of_known hs.known]
    exact ⟨fun hne => absurd rfl hne, nofun, hs.posted, fun _ => rfl, nofun⟩
  | announce _ | tearDown _ | stopSelf _ =>
    exact ⟨hs.known, nofun, hs.posted, hs.unarmed, nofun⟩
  | throws hth =>
    refine ⟨hs.known, nofun, hs.posted, hs.unarmed, fun _ => hs.running ?_⟩
    cases hphase : s.m_tunnelThread with
    | cancelled | announced | tornDown | ended =>
      rw [hphase] at hth
      cases hth
    | _ => rfl
  | wake hth _ =>
    exact ⟨hs.known, nofun, hs.posted, hs.unarmed, fun _ => hs.running (by rw [hth]; rfl)⟩
  | setMode hth | readShare hth _ | setShare hth | skipBypass hth _ | takeBypass hth _
  | readConfig hth _ | setRoutes hth | setDns hth | establish hth _ | establishFails hth _ =>
    exact ⟨hs.known, fun _ => hs.before (by rw [hth]; rfl), hs.posted, hs.unarmed,
      fun _ => hs.running (by rw [hth]; rfl)⟩

theorem Orderly.step {sources : BypassSources} {s t : TunnelManager} {e : Event}
    (hs : Orderly s) (h : Step sources s e t) : Orderly t := by
  cases h with
  | threadStep env h => exact hs.threadStep h
  | start p habsent =>
    exact ⟨hs.known, fun _ => hs.before (by rw [habsent]; rfl), hs.posted, hs.unarmed,
      fun _ => hs.running (by rw [habsent]; rfl)⟩
  | startupTask hposted =>
    refine ⟨?_, ?_, nofun, nofun, hs.running⟩
    · rcases startConduitFallbackTimerIfNeeded_cases s.m_tunnelConfig s.fallback with
        ⟨_, -, -, -, -, heq⟩ | ⟨-, heq⟩
      · simp only [heq]
        exact fun _ => rfl
      · simp only [heq]
        exact hs.known
    · intro hb
      rw [(hs.before hb).1] at hposted
      cases hposted
  | onConnected _ =>
    rw [cancelConduitFallbackTimer_of_known hs.known]
    exact ⟨fun hne => absurd rfl hne, hs.before, hs.posted, fun _ => rfl, hs.running⟩
  | timerFires hfire =>
    obtain ⟨timer, -, -, ⟨-, -, rfl⟩ | ⟨-, rfl⟩⟩ := fire_cases hfire
    all_goals
      exact ⟨fun hne => absurd rfl hne, hs.before, hs.posted, hs.unarmed, hs.running⟩
  | _ => exact ⟨hs.known, hs.before, hs.posted, hs.unarmed, hs.running⟩

theorem orderly_new (m : VpnManager) : Orderly (TunnelManager.new m) :=
  ⟨fun hne => absurd rfl hne, fun _ => ⟨rfl, rfl⟩, nofun, fun _ => rfl, fun _ => rfl⟩

/-! ## 2. Coverage -/

/-- The tunnel is running and the startup task has run. -/
def Running (s : TunnelManager) : Prop := s.m_tunnelThread = .tunneling ∧ s.startupRan = true

/-- A fallback is asked for and has not happened, and none is on its way. -/
def Waits (config : Option Config) (f : Fallback) : Prop :=
  inConduitAuto config = true ∧ f.m_conduitFallbackToPublic = false ∧ f.timer = none

/-- **Coverage.**  In a running service, a fallback that is asked for and has not happened has its
timer pending, unless the core is connected. -/
def Covered (s : TunnelManager) : Prop :=
  Running s → Waits s.m_tunnelConfig s.fallback → s.conn.network = some .connected

/-- The condition on a step.  A RESTART_TUNNEL that leads to a configuration whose fallback is not
on its way leaves the core connected; no notice ends the connection while the fallback is not on
its way; and a timer does not go off unheeded, which it does over a published CONNECTED, unless
the core is connected or no fallback is asked for. -/
def KeepsCoverage (s : TunnelManager) : Event → Prop
  | .restart p => Running s → Waits (some (getTunnelConfig p)) s.fallback →
      s.conn.network = some .connected ∧ portChanged s.m_tunnelConfig (getTunnelConfig p) = false
  | .onConnecting | .onStartedWaitingForNetworkConnectivity
  | .onStoppedWaitingForNetworkConnectivity =>
    Running s → ¬ Waits s.m_tunnelConfig s.fallback
  | .timerFires => Running s → s.conn.isConnected = true →
      Waits s.m_tunnelConfig { s.fallback with timer := none } →
      s.conn.network = some .connected
  | _ => True

instance (s : TunnelManager) : Decidable (Running s) := by
  unfold Running
  infer_instance

instance (config : Option Config) (f : Fallback) : Decidable (Waits config f) := by
  unfold Waits
  infer_instance

instance (s : TunnelManager) : Decidable (Covered s) := by
  unfold Covered
  infer_instance

instance (s : TunnelManager) (e : Event) : Decidable (KeepsCoverage s e) :=
  match e with
  | .restart _ | .onConnecting | .onStartedWaitingForNetworkConnectivity
  | .onStoppedWaitingForNetworkConnectivity | .timerFires => by
    dsimp only [KeepsCoverage]
    infer_instance
  | .start _ | .threadStep _ | .stop | .startupTask | .onConnected
  | .onListeningSocksProxyPort _ | .deliver _ | .newClient _ | .tick _ => instDecidableTrue

theorem covered_of_threadStep {sources : BypassSources} {env : ThreadEnv}
    {s t : TunnelManager} (hs : Orderly s) (h : ThreadStep sources env s t) : Covered t := by
  rintro ⟨hth, hran⟩
  cases h with
  | startTunneling hestablished =>
    rw [(hs.before (by rw [hestablished]; rfl)).2] at hran
    cases hran
  | _ => cases hth

/-- **Every step**: from a covered state it leads to a covered one exactly when it meets the
condition. -/
theorem covered_step_iff {sources : BypassSources} {s t : TunnelManager} {e : Event}
    (hs : Orderly s) (hcov : Covered s) (h : Step sources s e t) :
    Covered t ↔ KeepsCoverage s e := by
  cases h with
  | threadStep env h => exact iff_of_true (covered_of_threadStep hs h) trivial
  | start p _ => exact iff_of_true (fun hrun => nomatch hrun.1) trivial
  | startupTask hposted =>
    refine iff_of_true ?_ trivial
    intro _ hwaits
    have hunarmed := hs.unarmed (hs.posted hposted)
    obtain ⟨hauto, hflag, htimer⟩ := hwaits
    rcases startConduitFallbackTimerIfNeeded_cases s.m_tunnelConfig s.fallback with
      ⟨_, -, -, -, -, heq⟩ | ⟨hnot, heq⟩
    · simp only [heq] at htimer
      cases htimer
    · simp only [heq] at hflag
      obtain ⟨c, hc, hcauto⟩ := (Option.any_eq_true _ _).mp hauto
      rw [hnot c hc hcauto hflag] at hunarmed
      cases hunarmed
  | restartChanged p _ hchanged =>
    constructor
    · intro h hrun hwaits
      cases h hrun hwaits
    · intro h hrun hwaits
      exact absurd ((h hrun hwaits).2.symm.trans hchanged) (by decide)
  | restartSame p _ hsame =>
    exact ⟨fun h hrun hwaits => ⟨h hrun hwaits, hsame⟩, fun h hrun hwaits => (h hrun hwaits).1⟩
  | onConnecting _ | onStartedWaitingForNetworkConnectivity _
  | onStoppedWaitingForNetworkConnectivity _ =>
    refine ⟨?_, fun h hrun hwaits => absurd hwaits (h hrun)⟩
    intro h hrun hwaits
    cases h hrun hwaits
  | onConnected _ => exact iff_of_true (fun _ _ => rfl) trivial
  | deliver d hd =>
    refine iff_of_true ?_ trivial
    intro hrun hwaits
    exact (deliver_network hd).trans (hcov hrun hwaits)
  | newClient d =>
    refine iff_of_true ?_ trivial
    intro hrun hwaits
    exact (newClient_network s.localSocksProxyPort d s.conn s.m_vpnManager).trans
      (hcov hrun hwaits)
  | timerFires hfire =>
    obtain ⟨timer, -, -, ⟨-, hconnected, rfl⟩ | ⟨hearly, rfl⟩⟩ := fire_cases hfire
    · refine iff_of_true (fun _ hwaits => nomatch hwaits.2.1) ?_
      intro _ hpub
      exact absurd (hpub.symm.trans hconnected) (by decide)
    · refine ⟨fun h hrun _ hwaits => h hrun hwaits, ?_⟩
      intro h hrun hwaits
      rcases hearly with hstopping | hconnected
      · have hrunning := hs.running (by rw [hrun.1]; rfl)
        exact absurd (hstopping.symm.trans hrunning) (by decide)
      · exact h hrun hconnected hwaits
  | _ => exact iff_of_true hcov trivial

/-! ## 3. Runs -/

/-- **Conduit fallback coverage.**  A run of the service is covered throughout exactly when all
its steps meet the condition. -/
theorem conduit_fallback_covered_iff (sources : BypassSources) (m : VpnManager)
    {es : List Event} {s : TunnelManager}
    (h : exec (step sources) (TunnelManager.new m) es = some s) :
    (∀ done u, done <+: es → exec (step sources) (TunnelManager.new m) done = some u →
      Covered u) ↔
    Run (step sources) KeepsCoverage (TunnelManager.new m) es s :=
  forall_prefix_iff_run (orderly_new m) (fun hrun => nomatch hrun.1)
    (fun _ _ _ hs hst => hs.step (.of_step sources hst))
    (fun _ _ _ hs hcov hst => covered_step_iff hs hcov (.of_step sources hst)) h

/-- The theorem at a start in `conduit`/`auto` that leads to a connection. -/
theorem conduit_fallback_covered_connected :
    ∃ s, exec (step noSources) (TunnelManager.new VpnManager.new)
        (conduitUp ++ [.onConnecting, .onConnected]) = some s ∧
      ∀ done u, done <+: conduitUp ++ [.onConnecting, .onConnected] →
        exec (step noSources) (TunnelManager.new VpnManager.new) done = some u → Covered u := by
  obtain ⟨s, hs⟩ := Option.isSome_iff_exists.mp
    (show (execIf (step noSources) KeepsCoverage (TunnelManager.new VpnManager.new)
      (conduitUp ++ [.onConnecting, .onConnected])).isSome = true by decide)
  have hrun := run_of_execIf hs
  exact ⟨s, hrun.exec_eq,
    (conduit_fallback_covered_iff noSources VpnManager.new hrun.exec_eq).mpr hrun⟩

/-- **Where it is not covered.**  A connection is made and lost: there is no timer any more. -/
theorem not_covered_after_disconnect :
    ∃ s, exec (step noSources) (TunnelManager.new VpnManager.new)
        (conduitUp ++ [.onConnecting, .onConnected, .onConnecting]) = some s ∧ ¬ Covered s := by
  obtain ⟨s, hs, hprop⟩ := (Option.any_eq_true _ _).mp
    (show (exec (step noSources) (TunnelManager.new VpnManager.new)
      (conduitUp ++ [.onConnecting, .onConnected, .onConnecting])).any
      (fun s => decide (¬ Covered s)) = true by decide)
  exact ⟨s, hs, of_decide_eq_true hprop⟩

end ShiroKhorshid.Service
