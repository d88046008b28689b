/-
# The fair queue is fair

A flow is backlogged while it has a packet queued or being sent, or may still send the next one in
time.  `fairQueue_fair` says that along any stretch of a run in which one flow stays backlogged, no
other is served more than it, but for the time the other was behind at the start and one packet.

The argument is about the lead of a flow `i` over the backlogged flow `j`, that is, about the
difference of their times.

* The time of a backlogged flow only moves by what it is served and by what is taken off all times;
  it is never raised, since it neither pauses nor leaves (`time_raiseTime`).
* The time of `i` may be raised as well, and where it is less than what is taken off all times it
  becomes zero; either way `i` loses time against `j`, which only shortens what it can be served.
* `i` is served only while its time is the least, so that it does not lead before (`fair_step`).

The run lemma is then an induction along the stretch.  The bound is in time units, bytes and the
weight of a packet, and not in seconds.  Nothing is said of a flow that pauses: how much it may
be served depends on when it comes back.
-/
import ShiroKhorshid.Tun.FairQueue

namespace ShiroKhorshid.Tun

open Transition

namespace FairQueue

variable {m : FairQueue} {f : ℕ}

/-! ## 1. What a flow is served -/

/-- Whose packet is done with an event, and what is added to the time of that flow. -/
def served (m : FairQueue) : Event → List (ℕ × ℕ)
  | .outputDone => m.sending_flow.toList.map fun f => (f, m.packet_weight + m.sending_len)
  | _ => []

/-- How much of it was for one flow. -/
def service (f : ℕ) (l : List (ℕ × ℕ)) : ℕ :=
  ((l.filter fun a => a.1 = f).map Prod.snd).sum

/-- The flow has a packet queued, has one being sent, or may still send the next one in time. -/
def Backlogged (m : FairQueue) (f : ℕ) : Prop :=
  f ∈ m.queued_tree ∨ m.sending_flow = some f ∨ m.previous_flow = some f

instance (m : FairQueue) (f : ℕ) : Decidable (m.Backlogged f) := by
  unfold Backlogged
  infer_instance

@[simp] theorem service_append (l l' : List (ℕ × ℕ)) :
    service f (l ++ l') = service f l + service f l' := by
  simp [service]

@[simp] theorem service_nil : service f [] = 0 := rfl

theorem service_singleton (g a : ℕ) : service f [(g, a)] = if g = f then a else 0 := by
  by_cases h : g = f <;> simp [service, h]

theorem Core.mem_of_backlogged (h : Core m) (hf : m.Backlogged f) : f ∈ m.flows_list := by
  rcases hf with hf | hf | hf
  · exact h.tree_subset f hf
  · exact (h.sending f hf).1
  · exact (h.previous f hf).1

/-! ## 2. One step -/

theorem handle_const {m' : FairQueue} {e : Event} (h : m.handle e = some m') :
    m'.mtu = m.mtu ∧ m'.packet_weight = m.packet_weight := by
  have hschedule : ∀ {n n' : FairQueue}, n.schedule = some n' →
      n'.mtu = n.mtu ∧ n'.packet_weight = n.packet_weight := by
    intro n n' hn
    rw [schedule] at hn
    split at hn
    · split at hn
      · cases hn
      · split at hn
        · obtain rfl := Option.some.inj hn
          exact ⟨rfl, rfl⟩
        · cases hn
    · cases hn
  cases e with
  | flowInit f =>
    obtain rfl := Option.some.inj h
    exact ⟨rfl, rfl⟩
  | flowFree f =>
    obtain rfl := Option.some.inj h
    exact ⟨rfl, rfl⟩
  | inputSend f data_len =>
    have hraise : (m.raiseTime f).mtu = m.mtu ∧
        (m.raiseTime f).packet_weight = m.packet_weight := by
      rw [raiseTime]
      split <;> exact ⟨rfl, rfl⟩
    rw [handle, inputHandlerSend] at h
    split at h
    · simp only at h
      split at h
      · exact ⟨(hschedule h).1.trans hraise.1, (hschedule h).2.trans hraise.2⟩
      · obtain rfl := Option.some.inj h
        exact hraise
    · cases h
  | outputDone =>
    rw [handle, outputHandlerDone] at h
    split at h
    · cases h
    · split at h
      · obtain ⟨n, hn, rfl⟩ := Option.map_eq_some_iff.mp h
        rw [incrementSentFlow] at hn
        split at hn
        · simp only at hn
          split at hn
          · split at hn
            · obtain rfl := Option.some.inj hn
              exact ⟨rfl, rfl⟩
            · cases hn
          · obtain rfl := Option.some.inj hn
            exact ⟨rfl, rfl⟩
        · cases hn
      · cases h
  | scheduleJob =>
    rw [handle, scheduleJobHandler] at h
    split at h
    · simp only at h
      split at h
      · have hfields := hschedule h
        exact hfields
      · obtain rfl := Option.some.inj h
        exact ⟨rfl, rfl⟩
    · cases h

/-- What a flow sends only moves its time up, and leaves that of a backlogged one alone. -/
theorem time_raiseTime (hidle : f ∉ m.queued_tree) (hsend : m.sending_flow ≠ some f) :
    (∀ g, m.time g ≤ (m.raiseTime f).time g) ∧
      ∀ g, m.Backlogged g → (m.raiseTime f).time g = m.time g := by
  rw [raiseTime]
  split
  · exact ⟨fun _ => le_refl _, fun _ _ => rfl⟩
  · rename_i hprev
    constructor
    · intro g
      by_cases hgf : g = f
      · rw [hgf, time_setFlow_self]
        exact le_max_left _ _
      · rw [time_setFlow_of_ne _ hgf]
    · rintro g hg
      refine time_setFlow_of_ne _ ?_
      rintro rfl
      exact hg.elim hidle (fun hor => hor.elim hsend hprev)

/-- **One step**: the lead of `i` over a backlogged `j` shrinks by no more than what `j` is served
and grows by what `i` is, and `i` is served only while it does not lead. -/
theorem fair_step {m' : FairQueue} {e : Event} {i j : ℕ} (h : Sound m) (hj : m.Backlogged j)
    (hi : i ∈ m.flows_list) (hstep : m.step e = some m') :
    m'.time j + m.time i + service i (m.served e) ≤
        m'.time i + m.time j + service j (m.served e) ∧
      (service i (m.served e) ≠ 0 → m.time i ≤ m.time j) ∧
      service i (m.served e) ≤ m.packet_weight + m.mtu := by
  have hjlist := h.mem_of_backlogged hj
  rw [step] at hstep
  split at hstep
  case isFalse => cases hstep
  case isTrue he =>
  have hnone : ∀ (n : FairQueue), n.time i ≥ m.time i → n.time j = m.time j →
      n.time j + m.time i + 0 ≤ n.time i + m.time j + 0 := by
    intro n hge heq
    omega
  cases e with
  | flowInit f =>
    obtain rfl := Option.some.inj hstep
    have hother : ∀ g ∈ m.flows_list, (m.flowInit f).time g = m.time g := fun g hg =>
      time_setFlow_of_ne _ (fun heq => he (heq ▸ hg))
    exact ⟨hnone _ (hother i hi).ge (hother j hjlist), fun hne => absurd rfl hne, Nat.zero_le _⟩
  | flowFree f =>
    obtain rfl := Option.some.inj hstep
    exact ⟨hnone _ (le_refl _) rfl, fun hne => absurd rfl hne, Nat.zero_le _⟩
  | inputSend f data_len =>
    obtain ⟨t, ht, -, htime⟩ := sound_inputSend h he
    obtain rfl := Option.some.inj (ht.symm.trans hstep)
    obtain ⟨hlist, hsend, hidle, -⟩ := he
    have htree : f ∉ m.queued_tree := fun hf => by
      rw [(h.is_queued_iff f hlist).mpr hf] at hidle
      cases hidle
    obtain ⟨hup, hsame⟩ := time_raiseTime htree hsend
    exact ⟨hnone _ ((hup i).trans_eq (htime i).symm) ((htime j).trans (hsame j hj)),
      fun hne => absurd rfl hne, Nat.zero_le _⟩
  | scheduleJob =>
    obtain ⟨t, ht, -, htime⟩ := sound_scheduleJob h he
    obtain rfl := Option.some.inj (ht.symm.trans hstep)
    exact ⟨hnone _ (htime i).ge (htime j), fun hne => absurd rfl hne, Nat.zero_le _⟩
  | outputDone =>
    obtain ⟨f, hf⟩ := Option.isSome_iff_exists.mp he
    obtain ⟨flow, c, ht, -, hqueue, hself, hothers⟩ := sound_outputDone h hf
    obtain rfl := Option.some.inj (ht.symm.trans hstep)
    obtain ⟨hlist, htree, hprev, -, hlen, hfirst⟩ := h.sending f hf
    have hserved : m.served .outputDone = [(f, m.packet_weight + m.sending_len)] := by
      rw [served, hf]
      rfl
    -- nothing waits for its next packet now, so `j` is queued or has just been served
    have hj' : j ∈ m.queued_tree ∨ f = j := by
      rcases hj with hj | hj | hj
      · exact Or.inl hj
      · exact Or.inr (Option.some.inj (hf.symm.trans hj))
      · rw [hprev] at hj
        cases hj
    rw [hserved, service_singleton, service_singleton]
    show (flow j).time + m.time i + _ ≤ (flow i).time + m.time j + _ ∧ _
    by_cases hfj : f = j
    · subst hfj
      rw [if_pos rfl]
      by_cases hfi : f = i
      · subst hfi
        rw [if_pos rfl]
        exact ⟨le_refl _, fun _ => le_refl _, by omega⟩
      · have htime_i := hothers i hi (Ne.symm hfi)
        rw [if_neg hfi]
        exact ⟨by omega, fun hne => absurd rfl hne, Nat.zero_le _⟩
    · have hjq := hj'.resolve_right hfj
      have htime_j := hqueue j hjq
      rw [if_neg hfj]
      by_cases hfi : f = i
      · subst hfi
        rw [if_pos rfl]
        exact ⟨by omega, fun _ => hfirst j hjq, by omega⟩
      · have htime_i := hothers i hi (Ne.symm hfi)
        rw [if_neg hfi]
        exact ⟨by omega, fun hne => absurd rfl hne, Nat.zero_le _⟩

end FairQueue

/-! ## 3. Any run -/

/-- **The queue is fair.**  While a flow `j` has packets to send, no flow `i` is served more than
`j` is, but for the time it was behind at the start and one packet. -/
theorem fairQueue_fair {mtu packet_weight : ℕ} {m₀ m₁ m₂ : FairQueue}
    (hinit : FairQueue.init mtu packet_weight = some m₀) {es₀ es : List FairQueue.Event}
    (hreach : exec FairQueue.step m₀ es₀ = some m₁) {i j : ℕ}
    (hrun : Run FairQueue.step (fun m _ => m.Backlogged j ∧ i ∈ m.flows_list) m₁ es m₂) :
    FairQueue.service i (Fifo.collect FairQueue.step FairQueue.served m₁ es) ≤
      FairQueue.service j (Fifo.collect FairQueue.step FairQueue.served m₁ es) +
        (m₁.time j + (m₁.packet_weight + m₁.mtu) - m₁.time i) := by
  have hstart : m₁.Sound := (run_of_exec hreach).invariant (FairQueue.sound_init hinit)
    (fun _ _ _ h _ hstep => FairQueue.sound_step h hstep)
  suffices hall : m₂.Sound ∧ (m₂.mtu = m₁.mtu ∧ m₂.packet_weight = m₁.packet_weight) ∧
      -- the lead of `i` over `j` is at least what `i` was served beyond what `j` was
      m₂.time j + m₁.time i +
          FairQueue.service i (Fifo.collect FairQueue.step FairQueue.served m₁ es) ≤
        m₂.time i + m₁.time j +
          FairQueue.service j (Fifo.collect FairQueue.step FairQueue.served m₁ es) ∧
      FairQueue.service i (Fifo.collect FairQueue.step FairQueue.served m₁ es) ≤
        FairQueue.service j (Fifo.collect FairQueue.step FairQueue.served m₁ es) +
          (m₁.time j + (m₁.packet_weight + m₁.mtu) - m₁.time i) from hall.2.2.2
  refine @Fifo.collect_invariant _ _ _ FairQueue.step _ (fun m l =>
      m.Sound ∧ (m.mtu = m₁.mtu ∧ m.packet_weight = m₁.packet_weight) ∧
      m.time j + m₁.time i + FairQueue.service i l ≤
        m.time i + m₁.time j + FairQueue.service j l ∧
      FairQueue.service i l ≤ FairQueue.service j l +
        (m₁.time j + (m₁.packet_weight + m₁.mtu) - m₁.time i)) FairQueue.served _ _ _ hrun
    ⟨hstart, ⟨rfl, rfl⟩, by simp; omega, by simp⟩ ?_
  rintro m l e m' ⟨hsound, ⟨hmtu, hweight⟩, hlead, hle⟩ ⟨hj, hi⟩ hstep
  obtain ⟨hshift, honly, hcost⟩ := FairQueue.fair_step hsound hj hi hstep
  have hconst : m'.mtu = m.mtu ∧ m'.packet_weight = m.packet_weight := by
    rw [FairQueue.step] at hstep
    split at hstep
    · exact FairQueue.handle_const hstep
    · cases hstep
  rw [FairQueue.service_append, FairQueue.service_append]
  refine ⟨FairQueue.sound_step hsound hstep, ⟨hconst.1.trans hmtu, hconst.2.trans hweight⟩,
    by omega, ?_⟩
  rw [hmtu, hweight] at hcost
  by_cases hzero : FairQueue.service i (m.served e) = 0
  · omega
  · have hbehind := honly hzero
    omega

/-- Two flows with a packet each; the one that is served second has waited for one packet. -/
theorem fairQueue_fair_two_flows :
    ∃ m₀ m₁ m₂, FairQueue.init 1500 1 = some m₀ ∧
      exec FairQueue.step m₀ [.flowInit 0, .flowInit 1, .inputSend 0 9, .inputSend 1 5] = some m₁ ∧
      exec FairQueue.step m₁ [.outputDone, .scheduleJob] = some m₂ ∧
      FairQueue.service 0
          (Fifo.collect FairQueue.step FairQueue.served m₁ [.outputDone, .scheduleJob]) ≤
        FairQueue.service 1
            (Fifo.collect FairQueue.step FairQueue.served m₁ [.outputDone, .scheduleJob]) +
          (m₁.time 1 + (m₁.packet_weight + m₁.mtu) - m₁.time 0) := by
  obtain ⟨m₀, hinit⟩ := Option.isSome_iff_exists.mp
    (by decide +kernel : (FairQueue.init 1500 1).isSome)
  obtain ⟨m₁, hreach⟩ := Option.isSome_iff_exists.mp (by
    have hall : ((FairQueue.init 1500 1).bind fun m₀ => exec FairQueue.step m₀ [.flowInit 0,
      .flowInit 1, .inputSend 0 9, .inputSend 1 5]).isSome := by decide +kernel
    rwa [hinit, Option.bind_some] at hall)
  obtain ⟨m₂, hlast⟩ := Option.isSome_iff_exists.mp (by
    have hall : ((FairQueue.init 1500 1).bind fun m₀ => (exec FairQueue.step m₀ [.flowInit 0,
      .flowInit 1, .inputSend 0 9, .inputSend 1 5]).bind fun m₁ =>
        execIf FairQueue.step (fun m _ => m.Backlogged 1 ∧ 0 ∈ m.flows_list) m₁
          [.outputDone, .scheduleJob]).isSome := by decide +kernel
    rwa [hinit, Option.bind_some, hreach, Option.bind_some] at hall)
  have hrun := run_of_execIf hlast
  exact ⟨m₀, m₁, m₂, hinit, hreach, hrun.exec_eq, fairQueue_fair hinit hreach hrun⟩

end ShiroKhorshid.Tun
