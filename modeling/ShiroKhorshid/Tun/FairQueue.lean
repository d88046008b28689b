/-
# The fair queue

`PacketPassFairQueue` sends the packets of many flows through one output.  Each flow has a time,
which grows by the size of what it has sent, and the flow with the least time among those that have
a packet queued goes next.  A flow that comes back after a pause starts at the current time, so that
it cannot save up; one that sends its next packet at once keeps its own.  Times are unsigned words
of 64 bits: where a sum would not fit, the time of the first queued flow is taken off all of them,
and only the flow that has just been served may go below zero on the way.

The tree of queued flows is the list of them in its order.  `Sound` says what holds between
handlers, and `Core` what holds inside them as well:

* the tree is in order by the times the flows have NOW, which taking the same amount off all of them
  must not disturb (`sorted_of_shift`);
* the flow that is being sent has no more time than any that is queued, which is what makes the
  subtraction exact: the amount taken off is at least its time, and what it is served brings it
  above zero again (`wrap_sub_add`, `Served`, `incrementSentFlow_eq`);
* a flow that sends is raised to the time of the one being sent before it is queued
  (`core_raiseTime`).

`fairQueue_run` says that no assertion fails along any run, and that a queued packet never waits for
nothing.  That the queue is fair is in `Fairness`.

`PacketPassFairQueue_Free` and the cancelling of a packet under way are not modelled: no flow is
freed while it is being sent.
-/
import ShiroKhorshid.Lib.Fifo
import Mathlib.Data.List.Sort
import Mathlib.Tactic.Linarith

namespace ShiroKhorshid.Tun

open Transition

/-! ## 1. The code -/

/-- `FAIRQUEUE_MAX_TIME`, that is `UINT64_MAX` -/
def maxTime : ℕ := 18446744073709551615

/-- A flow, without its interface. -/
structure Flow where
  time : ℕ
  is_queued : Bool
  /-- `queued.data_len` -/
  data_len : ℕ
deriving Inhabited

/-- Flows are known by their addresses. -/
structure FairQueue where
  /-- `PacketPassInterface_GetMTU(output)` -/
  mtu : ℕ
  packet_weight : ℕ
  sending_flow : Option ℕ
  sending_len : ℕ
  previous_flow : Option ℕ
  queued_tree : List ℕ
  flows_list : List ℕ
  flow : ℕ → Flow
  /-- whether the job is pending -/
  schedule_job : Bool

namespace FairQueue

def time (m : FairQueue) (f : ℕ) : ℕ := (m.flow f).time

/-- The flow, with something else in it. -/
def setFlow (m : FairQueue) (f : ℕ) (v : Flow) : FairQueue :=
  { m with flow := fun g => if g = f then v else m.flow g }

/-- `compare_flows`: by time, and by address where the times are the same -/
def Before (m : FairQueue) (f g : ℕ) : Prop :=
  m.time f < m.time g ∨ m.time f = m.time g ∧ f ≤ g

instance (m : FairQueue) : DecidableRel m.Before := fun f g => by
  unfold Before
  infer_instance

/-- `PacketPassFairQueue__Tree_Insert` -/
def treeInsert (m : FairQueue) (f : ℕ) : FairQueue :=
  { m with queued_tree := m.queued_tree.orderedInsert m.Before f }

/-- `get_current_time` -/
def getCurrentTime (m : FairQueue) : ℕ :=
  match m.sending_flow with
  | some f => m.time f
  | none =>
    match m.queued_tree.head?, m.previous_flow with
    | none, none => 0
    | some first, none => m.time first
    | none, some previous => m.time previous
    | some first, some previous =>
      if m.time previous < m.time first then m.time previous else m.time first

/-- `someflow->time -= subtract`, in 64 bits -/
def subtractTime (v : Flow) (subtract : ℕ) : Flow :=
  { v with time := (v.time + (maxTime + 1) - subtract) % (maxTime + 1) }

/-- The loop of `increment_sent_flow`: the time that is taken off all flows. -/
def subtractAll (m : FairQueue) (flow subtract : ℕ) : FairQueue :=
  { m with flow := fun g =>
      if g ∈ m.flows_list then
        -- no more than there is, but for the flow that has just been served
        if subtract > m.time g ∧ g ≠ flow then { m.flow g with time := 0 }
        else subtractTime (m.flow g) subtract
      else m.flow g }

/-- What is asserted of the first flow where it is looked at. -/
def firstIsQueued (m : FairQueue) : Bool :=
  m.queued_tree.head?.all fun f => (m.flow f).is_queued

/-- `increment_sent_flow`; `none` where an assertion fails -/
def incrementSentFlow (m : FairQueue) (flow amount : ℕ) : Option FairQueue :=
  let addTime (m : FairQueue) : FairQueue :=
    m.setFlow flow { m.flow flow with time := (m.time flow + amount) % (maxTime + 1) }
  if amount ≤ maxTime ∧ (m.flow flow).is_queued = false ∧ m.sending_flow = none then
    -- does time overflow?
    if amount > maxTime - m.time flow then
      let subtract := (m.queued_tree.head?.map m.time).getD (m.time flow)
      if m.firstIsQueued ∧ ∀ g ∈ m.flows_list, subtract > m.time g → g ≠ flow →
          (m.flow g).is_queued = false then
        some (addTime (m.subtractAll flow subtract))
      else none
    else some (addTime m)
  else none

/-- `schedule`; `none` where an assertion fails -/
def schedule (m : FairQueue) : Option FairQueue :=
  if m.sending_flow = none ∧ m.previous_flow = none then
    match m.queued_tree with
    | [] => none
    | qflow :: rest =>
      if (m.flow qflow).is_queued then
        some { m.setFlow qflow { m.flow qflow with is_queued := false } with
          queued_tree := rest
          sending_flow := some qflow
          sending_len := (m.flow qflow).data_len }
      else none
  else none

/-- `schedule_job_handler` -/
def scheduleJobHandler (m : FairQueue) : Option FairQueue :=
  if m.sending_flow = none then
    let m' := { m with previous_flow := none }
    if m'.queued_tree ≠ [] then m'.schedule else some m'
  else none

/-- What `input_handler_send` makes of the time of the flow. -/
def raiseTime (m : FairQueue) (flow : ℕ) : FairQueue :=
  if m.previous_flow = some flow then { m with previous_flow := none }
  else m.setFlow flow { m.flow flow with time := max (m.time flow) m.getCurrentTime }

/-- `input_handler_send` -/
def inputHandlerSend (m : FairQueue) (flow data_len : ℕ) : Option FairQueue :=
  if m.sending_flow ≠ some flow ∧ (m.flow flow).is_queued = false ∧ m.firstIsQueued = true ∧
      flow ∉ m.queued_tree then
    let m' := m.raiseTime flow
    let m'' := (m'.setFlow flow { m'.flow flow with is_queued := true, data_len }).treeInsert flow
    if m.sending_flow = none ∧ m.schedule_job = false then m''.schedule else some m''
  else none

/-- `output_handler_done` -/
def outputHandlerDone (m : FairQueue) : Option FairQueue :=
  match m.sending_flow with
  | none => none
  | some flow =>
    if m.previous_flow = none ∧ m.schedule_job = false ∧ (m.flow flow).is_queued = false then
      (({ m with
          sending_flow := none
          previous_flow := some flow } :
        FairQueue).incrementSentFlow flow (m.packet_weight + m.sending_len)).map
        fun m' => { m' with schedule_job := true }
    else none

/-- `PacketPassFairQueueFlow_Init` -/
def flowInit (m : FairQueue) (flow : ℕ) : FairQueue :=
  { m.setFlow flow { time := 0, is_queued := false, data_len := 0 } with
    flows_list := m.flows_list ++ [flow] }

/-- `PacketPassFairQueueFlow_Free` -/
def flowFree (m : FairQueue) (flow : ℕ) : FairQueue :=
  { m with
    sending_flow := if m.sending_flow = some flow then none else m.sending_flow
    previous_flow := if m.previous_flow = some flow then none else m.previous_flow
    queued_tree :=
      if (m.flow flow).is_queued then m.queued_tree.erase flow else m.queued_tree
    flows_list := m.flows_list.erase flow }

/-- `PacketPassFairQueue_Init`; it fails where a packet could not be counted. -/
def init (mtu packet_weight : ℕ) : Option FairQueue :=
  if mtu ≤ maxTime ∧ packet_weight ≤ maxTime - mtu then
    some
      { mtu, packet_weight, sending_flow := none, sending_len := 0, previous_flow := none
        queued_tree := [], flows_list := [], flow := default, schedule_job := false }
  else none

/-- A flow comes or goes, a flow sends a packet, the output is done with one, or the job runs. -/
inductive Event
  | flowInit (flow : ℕ)
  | flowFree (flow : ℕ)
  | inputSend (flow data_len : ℕ)
  | outputDone
  | scheduleJob

/-- A flow sends its next packet when the one before it is done, and is freed only when it is not
being sent. -/
def Enabled (m : FairQueue) : Event → Prop
  | .flowInit flow => flow ∉ m.flows_list
  | .flowFree flow => flow ∈ m.flows_list ∧ m.sending_flow ≠ some flow
  | .inputSend flow data_len =>
    flow ∈ m.flows_list ∧ m.sending_flow ≠ some flow ∧ (m.flow flow).is_queued = false ∧
      data_len ≤ m.mtu
  | .outputDone => m.sending_flow.isSome
  | .scheduleJob => m.schedule_job = true

instance (m : FairQueue) (e : Event) : Decidable (m.Enabled e) := by
  cases e <;> unfold Enabled <;> infer_instance

def handle (m : FairQueue) : Event → Option FairQueue
  | .flowInit flow => some (m.flowInit flow)
  | .flowFree flow => some (m.flowFree flow)
  | .inputSend flow data_len => m.inputHandlerSend flow data_len
  | .outputDone => m.outputHandlerDone
  -- the job is no longer pending when its handler is called
  | .scheduleJob => ({ m with schedule_job := false } : FairQueue).scheduleJobHandler

def step (m : FairQueue) (e : Event) : Option FairQueue :=
  if m.Enabled e then m.handle e else none

/-! ## 2. What holds between handlers -/

/-- What holds at any point of a handler: the tree is the queued flows in order, no flow is in
two places, and the flow that is being sent came first. -/
structure Core (m : FairQueue) : Prop where
  cost_le : m.packet_weight + m.mtu ≤ maxTime
  nodup : m.flows_list.Nodup
  tree_nodup : m.queued_tree.Nodup
  /-- the tree is in order by the times of now -/
  sorted : m.queued_tree.Pairwise m.Before
  tree_subset : ∀ f ∈ m.queued_tree, f ∈ m.flows_list
  is_queued_iff : ∀ f ∈ m.flows_list, (m.flow f).is_queued = true ↔ f ∈ m.queued_tree
  data_len_le : ∀ f ∈ m.queued_tree, (m.flow f).data_len ≤ m.mtu
  time_le : ∀ f ∈ m.flows_list, m.time f ≤ maxTime
  sending : ∀ f, m.sending_flow = some f → f ∈ m.flows_list ∧ f ∉ m.queued_tree ∧
    m.previous_flow = none ∧ m.schedule_job = false ∧ m.sending_len ≤ m.mtu ∧
    ∀ g ∈ m.queued_tree, m.time f ≤ m.time g
  previous : ∀ f, m.previous_flow = some f → f ∈ m.flows_list ∧ f ∉ m.queued_tree ∧
    m.schedule_job = true

/-- Between handlers, a queued packet does not wait for nothing either. -/
structure Sound (m : FairQueue) : Prop extends Core m where
  working : m.queued_tree ≠ [] → m.sending_flow.isSome ∨ m.schedule_job = true

variable {m : FairQueue} {f : ℕ}

@[simp] theorem flow_setFlow_self (v : Flow) : (m.setFlow f v).flow f = v := if_pos rfl

theorem flow_setFlow_of_ne (v : Flow) {g : ℕ} (h : g ≠ f) : (m.setFlow f v).flow g = m.flow g :=
  if_neg h

@[simp] theorem time_setFlow_self (v : Flow) : (m.setFlow f v).time f = v.time := by simp [time]

theorem time_setFlow_of_ne (v : Flow) {g : ℕ} (h : g ≠ f) : (m.setFlow f v).time g = m.time g := by
  rw [time, time, flow_setFlow_of_ne v h]

instance : IsTrans ℕ m.Before where
  trans f g h hfg hgh := by
    unfold Before at *
    omega

instance : Std.Total m.Before where
  total f g := by
    unfold Before
    omega

/-- Taking the same off all times keeps the order. -/
theorem sorted_of_shift {m m' : FairQueue} {l : List ℕ} (c : ℕ)
    (hshift : ∀ f ∈ l, m'.time f + c = m.time f) (h : l.Pairwise m.Before) :
    l.Pairwise m'.Before := by
  refine h.imp_of_mem (fun {f g} hf hg hbefore => ?_)
  have hf' := hshift f hf
  have hg' := hshift g hg
  unfold Before at *
  omega

theorem sorted_congr {m m' : FairQueue} {l : List ℕ} (hsame : ∀ f ∈ l, m'.time f = m.time f)
    (h : l.Pairwise m.Before) : l.Pairwise m'.Before :=
  sorted_of_shift 0 hsame h

/-- The first queued flow has the least time. -/
theorem Core.head_le (h : Core m) {rest : List ℕ} (htree : m.queued_tree = f :: rest) :
    ∀ g ∈ m.queued_tree, m.time f ≤ m.time g := by
  intro g hg
  have hsorted := h.sorted
  rw [htree] at hg hsorted
  rcases List.mem_cons.mp hg with rfl | hg
  · exact le_refl _
  · have hbefore := (List.pairwise_cons.mp hsorted).1 g hg
    unfold Before at hbefore
    omega

theorem Core.firstIsQueued (h : Core m) : m.firstIsQueued = true := by
  rw [FairQueue.firstIsQueued, Option.all_eq_true]
  intro f hf
  have hmem : f ∈ m.queued_tree := List.mem_of_mem_head? hf
  exact (h.is_queued_iff f (h.tree_subset f hmem)).mpr hmem

/-! ## 3. The handlers keep it -/

/-- **`schedule` sends the first queued flow.** -/
theorem sound_schedule (h : Core m) (hsend : m.sending_flow = none)
    (hprev : m.previous_flow = none) (hjob : m.schedule_job = false)
    (hne : m.queued_tree ≠ []) :
    ∃ m' f rest, m.queued_tree = f :: rest ∧ m.schedule = some m' ∧ Sound m' ∧
      m'.sending_flow = some f ∧ m'.sending_len = (m.flow f).data_len ∧ m'.queued_tree = rest ∧
      (∀ g, m'.time g = m.time g) := by
  obtain ⟨f, rest, htree⟩ := List.exists_cons_of_ne_nil hne
  have hf : f ∈ m.queued_tree := by rw [htree]; simp
  have hlist := h.tree_subset f hf
  have hqueued := (h.is_queued_iff f hlist).mpr hf
  have hhead := h.head_le htree
  have hnodup := h.tree_nodup
  have hsorted := h.sorted
  rw [htree] at hnodup hsorted
  obtain ⟨hnot, hnodup'⟩ := List.nodup_cons.mp hnodup
  have hsub : ∀ g ∈ rest, g ∈ m.queued_tree := fun g hg => by rw [htree]; simp [hg]
  have htime : ∀ g, (m.setFlow f { m.flow f with is_queued := false }).time g = m.time g := by
    intro g
    by_cases hg : g = f
    · rw [hg, time_setFlow_self]
      rfl
    · rw [time_setFlow_of_ne _ hg]
  refine ⟨{ m.setFlow f { m.flow f with is_queued := false } with
    queued_tree := rest
    sending_flow := some f
    sending_len := (m.flow f).data_len }, f, rest, htree, ?_,
    ⟨⟨h.cost_le, h.nodup, hnodup', ?_, ?_, ?_, ?_, ?_, ?_, ?_⟩, ?_⟩, rfl, rfl, rfl, htime⟩
  · rw [schedule, if_pos ⟨hsend, hprev⟩, htree]
    exact if_pos hqueued
  · exact sorted_congr (fun g _ => htime g) (List.pairwise_cons.mp hsorted).2
  · exact fun g hg => h.tree_subset g (hsub g hg)
  · intro g hg
    by_cases hgf : g = f
    · subst hgf
      refine iff_of_false ?_ hnot
      show ¬ ((m.setFlow g _).flow g).is_queued = true
      rw [flow_setFlow_self]
      simp
    · show ((m.setFlow f _).flow g).is_queued = true ↔ g ∈ rest
      rw [flow_setFlow_of_ne _ hgf, h.is_queued_iff g hg, htree]
      simp [hgf]
  · intro g hg
    have hgf : g ≠ f := fun heq => hnot (heq ▸ hg)
    show ((m.setFlow f _).flow g).data_len ≤ m.mtu
    rw [flow_setFlow_of_ne _ hgf]
    exact h.data_len_le g (hsub g hg)
  · intro g hg
    exact (htime g).trans_le (h.time_le g hg)
  · rintro g hg
    obtain rfl := Option.some.inj hg
    refine ⟨hlist, hnot, hprev, hjob, h.data_len_le f hf, fun g hg => ?_⟩
    exact (htime f).trans_le ((hhead g (hsub g hg)).trans_eq (htime g).symm)
  · intro g hg
    have hg' : m.previous_flow = some g := hg
    rw [hprev] at hg'
    cases hg'
  · exact fun _ => Or.inl rfl

/-- A flow that is in no place can be queued, if none is being sent that it is before. -/
theorem core_enqueue (h : Core m) (hlist : f ∈ m.flows_list) (htree : f ∉ m.queued_tree)
    (hprev : m.previous_flow ≠ some f) {data_len : ℕ} (hlen : data_len ≤ m.mtu)
    (hafter : ∀ g, m.sending_flow = some g → g ≠ f ∧ m.time g ≤ m.time f) :
    Core ((m.setFlow f { m.flow f with is_queued := true, data_len }).treeInsert f) := by
  obtain ⟨n, hn⟩ : ∃ n, n = m.setFlow f { m.flow f with is_queued := true, data_len } := ⟨_, rfl⟩
  have htime : ∀ g, n.time g = m.time g := by
    intro g
    by_cases hg : g = f
    · rw [hn, hg, time_setFlow_self]
      rfl
    · rw [hn, time_setFlow_of_ne _ hg]
  have hmem : ∀ g, g ∈ (n.treeInsert f).queued_tree ↔ g = f ∨ g ∈ m.queued_tree := by
    intro g
    rw [treeInsert, List.mem_orderedInsert, hn]
    rfl
  have hother : ∀ g, g ≠ f → n.flow g = m.flow g := fun g hg => by rw [hn, flow_setFlow_of_ne _ hg]
  have hself : n.flow f = { m.flow f with is_queued := true, data_len } := by
    rw [hn, flow_setFlow_self]
  have hfields : n.flows_list = m.flows_list ∧ n.mtu = m.mtu ∧ n.sending_flow = m.sending_flow ∧
      n.previous_flow = m.previous_flow ∧ n.schedule_job = m.schedule_job ∧
      n.sending_len = m.sending_len ∧ n.packet_weight = m.packet_weight ∧
      n.queued_tree = m.queued_tree := by
    rw [hn]
    exact ⟨rfl, rfl, rfl, rfl, rfl, rfl, rfl, rfl⟩
  obtain ⟨hflows, hmtu, hsending, hprevious, hjob, hslen, hweight, hqueued⟩ := hfields
  rw [← hn]
  refine ⟨?_, ?_, ?_, ?_, ?_, ?_, ?_, ?_, ?_, ?_⟩
  · show n.packet_weight + n.mtu ≤ maxTime
    rw [hweight, hmtu]
    exact h.cost_le
  · show n.flows_list.Nodup
    rw [hflows]
    exact h.nodup
  · show (n.queued_tree.orderedInsert n.Before f).Nodup
    rw [(List.perm_orderedInsert n.Before f n.queued_tree).nodup_iff, hqueued]
    exact List.nodup_cons.mpr ⟨htree, h.tree_nodup⟩
  · show (n.queued_tree.orderedInsert n.Before f).Pairwise n.Before
    rw [hqueued]
    exact (sorted_congr (fun g _ => htime g) h.sorted).orderedInsert f _
  · intro g hg
    show g ∈ n.flows_list
    rw [hflows]
    rcases (hmem g).mp hg with rfl | hg
    · exact hlist
    · exact h.tree_subset g hg
  · intro g hg
    rw [hmem g]
    show (n.flow g).is_queued = true ↔ _
    by_cases hgf : g = f
    · subst hgf
      rw [hself]
      simp
    · rw [hother g hgf, h.is_queued_iff g (hflows ▸ hg)]
      simp [hgf]
  · intro g hg
    show (n.flow g).data_len ≤ n.mtu
    rw [hmtu]
    by_cases hgf : g = f
    · subst hgf
      rw [hself]
      exact hlen
    · rw [hother g hgf]
      exact h.data_len_le g (((hmem g).mp hg).resolve_left hgf)
  · intro g hg
    exact (htime g).trans_le (h.time_le g (hflows ▸ hg))
  · intro g hg
    obtain ⟨hglist, hgtree, hgprev, hgjob, hglen, hgle⟩ := h.sending g (hsending ▸ hg)
    obtain ⟨hgf, hgtime⟩ := hafter g (hsending ▸ hg)
    refine ⟨hflows.symm ▸ hglist, ?_, hprevious.trans hgprev, hjob.trans hgjob, ?_, ?_⟩
    · rw [hmem g]
      exact fun hor => hor.elim hgf hgtree
    · show n.sending_len ≤ n.mtu
      rw [hslen, hmtu]
      exact hglen
    · intro k hk
      show n.time g ≤ n.time k
      rw [htime g, htime k]
      rcases (hmem k).mp hk with rfl | hk
      · exact hgtime
      · exact hgle k hk
  · intro g hg
    obtain ⟨hglist, hgtree, hgjob⟩ := h.previous g (hprevious ▸ hg)
    refine ⟨hflows.symm ▸ hglist, ?_, hjob.trans hgjob⟩
    rw [hmem g]
    rintro (rfl | hmem')
    · exact hprev (hprevious ▸ hg)
    · exact hgtree hmem'

theorem Core.getCurrentTime_le (h : Core m) : m.getCurrentTime ≤ maxTime := by
  have hhead : ∀ g, m.queued_tree.head? = some g → m.time g ≤ maxTime := fun g hg =>
    h.time_le g (h.tree_subset g (List.mem_of_head? hg))
  have hprev : ∀ g, m.previous_flow = some g → m.time g ≤ maxTime := fun g hg =>
    h.time_le g (h.previous g hg).1
  unfold getCurrentTime
  split
  · rename_i g hg
    exact h.time_le g (h.sending g hg).1
  · split
    · exact Nat.zero_le _
    · exact hhead _ (by assumption)
    · exact hprev _ (by assumption)
    · split
      · exact hprev _ (by assumption)
      · exact hhead _ (by assumption)

/-- The flow's time is raised to that of the flow that is being sent. -/
theorem core_raiseTime (h : Core m) (hlist : f ∈ m.flows_list) (htree : f ∉ m.queued_tree)
    (hsend : m.sending_flow ≠ some f) :
    Core (m.raiseTime f) ∧ (m.raiseTime f).previous_flow ≠ some f ∧
      ∀ g, m.sending_flow = some g → (m.raiseTime f).time g ≤ (m.raiseTime f).time f := by
  by_cases hprev : m.previous_flow = some f
  · rw [raiseTime, if_pos hprev]
    have hjob := (h.previous f hprev).2.2
    have hidle : ∀ g, m.sending_flow ≠ some g := fun g hg => by
      rw [(h.sending g hg).2.2.2.1] at hjob
      cases hjob
    refine ⟨⟨h.cost_le, h.nodup, h.tree_nodup, h.sorted, h.tree_subset, h.is_queued_iff,
      h.data_len_le, h.time_le, fun g hg => absurd hg (hidle g), fun g hg => by cases hg⟩,
      by simp, fun g hg => absurd hg (hidle g)⟩
  · rw [raiseTime, if_neg hprev]
    have hother : ∀ g, g ≠ f → ∀ v, (m.setFlow f v).flow g = m.flow g :=
      fun g hg v => flow_setFlow_of_ne v hg
    have hqueued : ∀ g ∈ m.queued_tree, g ≠ f := fun g hg heq => htree (heq ▸ hg)
    refine ⟨⟨h.cost_le, h.nodup, h.tree_nodup, ?_, h.tree_subset, ?_, ?_, ?_, ?_, h.previous⟩,
      hprev, ?_⟩
    · exact sorted_congr (fun g hg => time_setFlow_of_ne _ (hqueued g hg)) h.sorted
    · intro g hg
      by_cases hgf : g = f
      · subst hgf
        rw [flow_setFlow_self]
        exact h.is_queued_iff g hg
      · rw [hother g hgf]
        exact h.is_queued_iff g hg
    · intro g hg
      rw [hother g (hqueued g hg)]
      exact h.data_len_le g hg
    · intro g hg
      by_cases hgf : g = f
      · subst hgf
        rw [time_setFlow_self]
        exact max_le (h.time_le g hg) h.getCurrentTime_le
      · rw [time_setFlow_of_ne _ hgf]
        exact h.time_le g hg
    · intro g hg
      obtain ⟨hglist, hgtree, hgprev, hgjob, hglen, hgle⟩ := h.sending g hg
      have hgf : g ≠ f := fun heq => hsend (heq ▸ hg)
      refine ⟨hglist, hgtree, hgprev, hgjob, hglen, fun k hk => ?_⟩
      rw [time_setFlow_of_ne _ hgf, time_setFlow_of_ne _ (hqueued k hk)]
      exact hgle k hk
    · intro g hg
      have hgf : g ≠ f := fun heq => hsend (heq ▸ hg)
      have hcurrent : m.getCurrentTime = m.time g := by
        rw [getCurrentTime, hg]
      rw [time_setFlow_of_ne _ hgf, time_setFlow_self, hcurrent]
      exact le_max_right _ _

/-- **A flow sends a packet**: it is queued, and sent at once where nothing else is going on. -/
theorem sound_inputSend (h : Sound m) {data_len : ℕ} (he : m.Enabled (.inputSend f data_len)) :
    ∃ m', m.handle (.inputSend f data_len) = some m' ∧ Sound m' ∧
      ∀ g, m'.time g = (m.raiseTime f).time g := by
  obtain ⟨hlist, hsend, hidle, hlen⟩ := he
  have htree : f ∉ m.queued_tree := fun hf => by
    rw [(h.is_queued_iff f hlist).mpr hf] at hidle
    cases hidle
  obtain ⟨hcore, hprev, hafter⟩ := core_raiseTime h.toCore hlist htree hsend
  obtain ⟨n, hn⟩ : ∃ n, n = m.raiseTime f := ⟨_, rfl⟩
  have hfields : n.flows_list = m.flows_list ∧ n.queued_tree = m.queued_tree ∧ n.mtu = m.mtu ∧
      n.sending_flow = m.sending_flow ∧ n.schedule_job = m.schedule_job := by
    rw [hn, raiseTime]
    split <;> exact ⟨rfl, rfl, rfl, rfl, rfl⟩
  rw [← hn] at hcore hprev hafter
  obtain ⟨hflows, hqueued, hmtu, hsending, hjob⟩ := hfields
  have hqueue := core_enqueue hcore (hflows.symm ▸ hlist) (hqueued.symm ▸ htree) hprev
    (hmtu.symm ▸ hlen) (fun g hg => ⟨fun heq => hsend (heq ▸ hsending ▸ hg),
      hafter g (hsending ▸ hg)⟩)
  obtain ⟨k, hk⟩ : ∃ k, k = (n.setFlow f { n.flow f with is_queued := true, data_len }).treeInsert f
    := ⟨_, rfl⟩
  have hktime : ∀ g, k.time g = n.time g := by
    intro g
    show k.time g = n.time g
    by_cases hg : g = f
    · rw [hk, hg]
      show (n.setFlow f _).time f = n.time f
      rw [time_setFlow_self]
      rfl
    · rw [hk]
      exact time_setFlow_of_ne _ hg
  have hksend : k.sending_flow = m.sending_flow := by rw [hk, ← hsending]; rfl
  have hkjob : k.schedule_job = m.schedule_job := by rw [hk, ← hjob]; rfl
  have hkne : k.queued_tree ≠ [] := by
    have hmem : f ∈ k.queued_tree := by
      rw [hk, treeInsert, List.mem_orderedInsert]
      exact Or.inl rfl
    exact List.ne_nil_of_mem hmem
  rw [handle, inputHandlerSend, if_pos ⟨hsend, hidle, h.firstIsQueued, htree⟩]
  simp only
  rw [← hn, ← hk]
  rw [← hk] at hqueue
  by_cases hfree : m.sending_flow = none ∧ m.schedule_job = false
  · rw [if_pos hfree]
    have hkprev : k.previous_flow = none := by
      by_contra hsome
      obtain ⟨g, hg⟩ := Option.ne_none_iff_exists'.mp hsome
      have hset := (hqueue.previous g hg).2.2
      rw [hkjob, hfree.2] at hset
      cases hset
    obtain ⟨m', -, -, -, hm', hsound, -, -, -, htime⟩ :=
      sound_schedule hqueue (hksend.trans hfree.1) hkprev (hkjob.trans hfree.2) hkne
    exact ⟨m', hm', hsound, fun g => (htime g).trans (hktime g)⟩
  · rw [if_neg hfree]
    refine ⟨k, rfl, ⟨hqueue, fun _ => ?_⟩, hktime⟩
    rw [hksend, hkjob]
    rcases hs : m.sending_flow with _ | g
    · right
      rcases hj : m.schedule_job
      · exact absurd ⟨hs, hj⟩ hfree
      · rfl
    · exact Or.inl rfl

/-- **The job runs**: it forgets the previous flow and sends the first queued one. -/
theorem sound_scheduleJob (h : Sound m) (he : m.Enabled .scheduleJob) :
    ∃ m', m.handle .scheduleJob = some m' ∧ Sound m' ∧ ∀ g, m'.time g = m.time g := by
  have hjob : m.schedule_job = true := he
  have hsend : m.sending_flow = none := by
    by_contra hsome
    obtain ⟨g, hg⟩ := Option.ne_none_iff_exists'.mp hsome
    rw [(h.sending g hg).2.2.2.1] at hjob
    cases hjob
  obtain ⟨n, hn⟩ : ∃ n : FairQueue, n = { m with schedule_job := false, previous_flow := none } :=
    ⟨_, rfl⟩
  have hcore : Core n := by
    rw [hn]
    refine ⟨h.cost_le, h.nodup, h.tree_nodup, h.sorted, h.tree_subset, h.is_queued_iff,
      h.data_len_le, h.time_le, fun g hg => ?_, fun g hg => by cases hg⟩
    have hg' : m.sending_flow = some g := hg
    rw [hsend] at hg'
    cases hg'
  rw [handle, scheduleJobHandler, if_pos hsend]
  simp only
  by_cases hne : m.queued_tree ≠ []
  · rw [if_pos hne]
    obtain ⟨m', -, -, -, hm', hsound, -, -, -, htime⟩ :=
      sound_schedule hcore (by rw [hn]; exact hsend) (by rw [hn]) (by rw [hn])
        (by rw [hn]; exact hne)
    rw [hn] at hm' htime
    exact ⟨m', hm', hsound, htime⟩
  · rw [if_neg hne]
    rw [hn] at hcore
    exact ⟨_, rfl, ⟨hcore, fun h => absurd h hne⟩, fun _ => rfl⟩

theorem subtractTime_time (v : Flow) (c : ℕ) :
    (subtractTime v c).time = (v.time + (maxTime + 1) - c) % (maxTime + 1) := rfl

theorem subtractTime_is_queued (v : Flow) (c : ℕ) :
    (subtractTime v c).is_queued = v.is_queued := by
  cases v
  rfl

theorem subtractTime_data_len (v : Flow) (c : ℕ) : (subtractTime v c).data_len = v.data_len := by
  cases v
  rfl

theorem setFlow_subtractAll (v : Flow) (c : ℕ) : (m.subtractAll f c).setFlow f v =
    { m with flow := fun g => if g = f then v else (m.subtractAll f c).flow g } := rfl

theorem flow_subtractAll {g c : ℕ} (hg : g ∈ m.flows_list) : (m.subtractAll f c).flow g =
    if c > m.time g ∧ g ≠ f then { m.flow g with time := 0 } else subtractTime (m.flow g) c :=
  if_pos hg

/-- Only times change. -/
theorem keep_subtractAll (c g : ℕ) :
    ((m.subtractAll f c).flow g).is_queued = (m.flow g).is_queued ∧
      ((m.subtractAll f c).flow g).data_len = (m.flow g).data_len := by
  by_cases hg : g ∈ m.flows_list
  · rw [flow_subtractAll hg]
    split
    · exact ⟨rfl, rfl⟩
    · exact ⟨subtractTime_is_queued _ c, subtractTime_data_len _ c⟩
  · have hsame : (m.subtractAll f c).flow g = m.flow g := if_neg hg
    rw [hsame]
    exact ⟨rfl, rfl⟩

theorem wrap_sub {M t c : ℕ} (hc : c ≤ t) (ht : t ≤ M) : (t + (M + 1) - c) % (M + 1) = t - c := by
  have hsplit : t + (M + 1) - c = (t - c) + (M + 1) := by omega
  rw [hsplit, Nat.add_mod_right, Nat.mod_eq_of_lt (by omega)]

/-- Below zero and back again: together the two leave the exact value. -/
theorem wrap_sub_add {M t c a : ℕ} (ht : t ≤ c) (hc : c ≤ M) (ha : a ≤ M) (hover : a > M - t) :
    ((t + (M + 1) - c) % (M + 1) + a) % (M + 1) = t + a - c := by
  have hsum : t + (M + 1) - c + a = (t + a - c) + (M + 1) := by omega
  rw [Nat.mod_add_mod, hsum, Nat.add_mod_right, Nat.mod_eq_of_lt (by omega)]

theorem time_subtractAll_self {c : ℕ} (hf : f ∈ m.flows_list) :
    (m.subtractAll f c).time f = (m.time f + (maxTime + 1) - c) % (maxTime + 1) := by
  rw [time, flow_subtractAll hf, if_neg (fun hor => hor.2 rfl), subtractTime_time, time]

theorem time_subtractAll_of_ne {c g : ℕ} (hg : g ∈ m.flows_list) (hgf : g ≠ f)
    (hle : m.time g ≤ maxTime) : (m.subtractAll f c).time g = m.time g - c := by
  rw [time, flow_subtractAll hg]
  by_cases hless : c > m.time g
  · rw [if_pos ⟨hless, hgf⟩, Nat.sub_eq_zero_of_le hless.le]
  · rw [if_neg (fun hor => hless hor.1), subtractTime_time]
    exact wrap_sub (not_lt.mp hless) hle

/-- The time of the flow that has been served grows by the amount, and some `c` is taken off all
times: exactly `c` off the queued flows and the one that has been served, and as much of it as there
is off the others. -/
structure Served (m : FairQueue) (f amount : ℕ) (flow : ℕ → Flow) (c : ℕ) : Prop where
  keep : ∀ g, (flow g).is_queued = (m.flow g).is_queued ∧ (flow g).data_len = (m.flow g).data_len
  queued : ∀ g ∈ m.queued_tree, (flow g).time + c = m.time g
  served : (flow f).time + c = m.time f + amount
  served_le : (flow f).time ≤ maxTime
  others : ∀ g ∈ m.flows_list, g ≠ f → (flow g).time = m.time g - c

/-- What is taken off the others, together with the new time of the flow that has been served. -/
theorem served_of_others {amount c t : ℕ} {flow : ℕ → Flow}
    (hkeep : ∀ g, (flow g).is_queued = (m.flow g).is_queued ∧
      (flow g).data_len = (m.flow g).data_len)
    (hsubset : ∀ g ∈ m.queued_tree, g ∈ m.flows_list) (hidle : f ∉ m.queued_tree)
    (hqueue : ∀ g ∈ m.queued_tree, c ≤ m.time g)
    (hothers : ∀ g ∈ m.flows_list, g ≠ f → (flow g).time = m.time g - c)
    (hserved : t + c = m.time f + amount) (hle : t ≤ maxTime) :
    Served m f amount (fun g => if g = f then { flow f with time := t } else flow g) c := by
  refine ⟨fun g => ?_, fun g hg => ?_, ?_, ?_, fun g hg hgf => ?_⟩
  · by_cases hgf : g = f
    · rw [if_pos hgf, hgf]
      exact hkeep f
    · rw [if_neg hgf]
      exact hkeep g
  · have hgf : g ≠ f := fun heq => hidle (heq ▸ hg)
    rw [if_neg hgf, hothers g (hsubset g hg) hgf]
    exact Nat.sub_add_cancel (hqueue g hg)
  · rw [if_pos rfl]
    exact hserved
  · rw [if_pos rfl]
    exact hle
  · rw [if_neg hgf]
    exact hothers g hg hgf

/-- What is taken off where a time overflows: no queued flow has less, and the flow that has been
served has no more. -/
theorem subtract_spec (h : Core m) (hlist : f ∈ m.flows_list)
    (hfirst : ∀ g ∈ m.queued_tree, m.time f ≤ m.time g) {c : ℕ}
    (hc : c = (m.queued_tree.head?.map m.time).getD (m.time f)) :
    (∀ g ∈ m.queued_tree, c ≤ m.time g) ∧ m.time f ≤ c ∧ c ≤ maxTime := by
  rcases htree : m.queued_tree with _ | ⟨first, rest⟩
  · rw [htree] at hc
    obtain rfl : c = m.time f := hc
    exact ⟨by simp, le_refl _, h.time_le f hlist⟩
  · have hmem : first ∈ m.queued_tree := by
      rw [htree]
      exact List.mem_cons_self
    rw [htree] at hc
    obtain rfl : c = m.time first := hc
    rw [← htree]
    exact ⟨h.head_le htree, hfirst first hmem, h.time_le first (h.tree_subset first hmem)⟩

/-- **The time of the flow that has been served grows by the amount**, and it may be that some `c`
is taken off all times first. -/
theorem incrementSentFlow_eq {n : FairQueue} (h : Core { n with schedule_job := true })
    (hsend : n.sending_flow = none) (hlist : f ∈ n.flows_list) (hidle : f ∉ n.queued_tree)
    (hfirst : ∀ g ∈ n.queued_tree, n.time f ≤ n.time g) {amount : ℕ} (hamount : amount ≤ maxTime) :
    ∃ flow c, n.incrementSentFlow f amount = some { n with flow } ∧ Served n f amount flow c := by
  have htime_le : ∀ g ∈ n.flows_list, n.time g ≤ maxTime := h.time_le
  have hsubset : ∀ g ∈ n.queued_tree, g ∈ n.flows_list := h.tree_subset
  have hqueued : ∀ g ∈ n.flows_list, (n.flow g).is_queued = true ↔ g ∈ n.queued_tree :=
    h.is_queued_iff
  have hnot : (n.flow f).is_queued = false := by
    rw [Bool.eq_false_iff, ne_eq, hqueued f hlist]
    exact hidle
  have hf_le := htime_le f hlist
  rw [incrementSentFlow, if_pos ⟨hamount, hnot, hsend⟩]
  simp only
  by_cases hover : amount > maxTime - n.time f
  · obtain ⟨c, hc⟩ : ∃ c, c = (n.queued_tree.head?.map n.time).getD (n.time f) := ⟨_, rfl⟩
    have hspec : (∀ g ∈ n.queued_tree, c ≤ n.time g) ∧ n.time f ≤ c ∧ c ≤ maxTime :=
      subtract_spec h hlist hfirst hc
    obtain ⟨hqueue_ge, hserved_le, hc_le⟩ := hspec
    have hassert : n.firstIsQueued = true ∧ ∀ g ∈ n.flows_list, c > n.time g → g ≠ f →
        (n.flow g).is_queued = false := by
      refine ⟨h.firstIsQueued, fun g hg hless _ => ?_⟩
      rw [Bool.eq_false_iff, ne_eq, hqueued g hg]
      exact fun hmem => absurd (hqueue_ge g hmem) (not_le.mpr hless)
    have hserved : ((n.subtractAll f c).time f + amount) % (maxTime + 1) =
        n.time f + amount - c := by
      rw [time_subtractAll_self hlist]
      exact wrap_sub_add hserved_le hc_le hamount hover
    rw [if_pos hover, ← hc, if_pos hassert]
    exact ⟨_, c, by rw [setFlow_subtractAll], served_of_others (keep_subtractAll c) hsubset hidle
      hqueue_ge (fun g hg hgf => time_subtractAll_of_ne hg hgf (htime_le g hg))
      (by rw [hserved]; omega) (by rw [hserved]; omega)⟩
  · have hserved : (n.time f + amount) % (maxTime + 1) = n.time f + amount :=
      Nat.mod_eq_of_lt (by omega)
    rw [if_neg hover]
    exact ⟨_, 0, rfl, served_of_others (fun _ => ⟨rfl, rfl⟩) hsubset hidle
      (fun _ _ => Nat.zero_le _) (fun _ _ _ => rfl) hserved (by rw [hserved]; omega)⟩

/-- **The output is done with a packet.** -/
theorem sound_outputDone (h : Sound m) (hsend : m.sending_flow = some f) :
    ∃ flow c, m.handle .outputDone = some
        { m with
          sending_flow := none
          previous_flow := some f
          schedule_job := true
          flow } ∧
      Sound
        { m with
          sending_flow := none
          previous_flow := some f
          schedule_job := true
          flow } ∧
      (∀ g ∈ m.queued_tree, (flow g).time + c = m.time g) ∧
      (flow f).time + c = m.time f + (m.packet_weight + m.sending_len) ∧
      ∀ g ∈ m.flows_list, g ≠ f → (flow g).time = m.time g - c := by
  obtain ⟨hlist, htree, hprev, hjob, hlen, hfirst⟩ := h.sending f hsend
  have hidle : (m.flow f).is_queued = false := by
    rw [Bool.eq_false_iff, ne_eq, h.is_queued_iff f hlist]
    exact htree
  have hcost := h.cost_le
  obtain ⟨n, hn⟩ : ∃ n : FairQueue, n =
      { m with
        sending_flow := none
        previous_flow := some f } := ⟨_, rfl⟩
  have hcore : Core { n with schedule_job := true } := by
    rw [hn]
    refine ⟨h.cost_le, h.nodup, h.tree_nodup, h.sorted, h.tree_subset, h.is_queued_iff,
      h.data_len_le, h.time_le, fun g hg => (by cases hg), fun g hg => ?_⟩
    obtain rfl := Option.some.inj hg
    exact ⟨hlist, htree, rfl⟩
  obtain ⟨flow, c, hsome, hkeep, hqueue, hserved, hserved_le, hothers⟩ :=
    incrementSentFlow_eq hcore (by rw [hn]) (by rw [hn]; exact hlist) (by rw [hn]; exact htree)
      (by rw [hn]; exact hfirst) (show m.packet_weight + m.sending_len ≤ maxTime by omega)
  rw [hn] at hsome hkeep hqueue hserved hothers
  refine ⟨flow, c, ?_, ⟨⟨h.cost_le, h.nodup, h.tree_nodup, ?_, h.tree_subset, ?_, ?_, ?_, ?_, ?_⟩,
    fun _ => Or.inr rfl⟩, hqueue, hserved, hothers⟩
  · rw [handle, outputHandlerDone, hsend]
    simp only
    rw [if_pos ⟨hprev, hjob, hidle⟩, hsome]
    rfl
  · exact sorted_of_shift c hqueue h.sorted
  · intro g hg
    show (flow g).is_queued = true ↔ _
    rw [(hkeep g).1]
    exact h.is_queued_iff g hg
  · intro g hg
    show (flow g).data_len ≤ m.mtu
    rw [(hkeep g).2]
    exact h.data_len_le g hg
  · intro g hg
    show (flow g).time ≤ maxTime
    by_cases hgf : g = f
    · rw [hgf]
      exact hserved_le
    · rw [hothers g hg hgf]
      exact (Nat.sub_le _ _).trans (h.time_le g hg)
  · intro g hg
    cases hg
  · intro g hg
    obtain rfl := Option.some.inj hg
    exact ⟨hlist, htree, rfl⟩

/-- A new flow is in no place. -/
theorem sound_flowInit (h : Sound m) (he : f ∉ m.flows_list) : Sound (m.flowInit f) := by
  have hother : ∀ g ∈ m.flows_list, g ≠ f := fun g hg heq => he (heq ▸ hg)
  have htree : ∀ g ∈ m.queued_tree, g ≠ f := fun g hg => hother g (h.tree_subset g hg)
  have hmem : ∀ g, g ∈ m.flows_list ++ [f] ↔ g ∈ m.flows_list ∨ g = f := fun g => by simp
  refine ⟨⟨h.cost_le, ?_, h.tree_nodup, ?_, ?_, ?_, ?_, ?_, ?_, ?_⟩, h.working⟩
  · show (m.flows_list ++ [f]).Nodup
    rw [List.nodup_append_comm]
    exact List.nodup_cons.mpr ⟨he, h.nodup⟩
  · exact sorted_congr (fun g hg => time_setFlow_of_ne _ (htree g hg)) h.sorted
  · exact fun g hg => (hmem g).mpr (Or.inl (h.tree_subset g hg))
  · intro g hg
    show ((m.setFlow f _).flow g).is_queued = true ↔ g ∈ m.queued_tree
    rcases (hmem g).mp hg with hg | rfl
    · rw [flow_setFlow_of_ne _ (hother g hg)]
      exact h.is_queued_iff g hg
    · rw [flow_setFlow_self]
      exact iff_of_false (by simp) (fun hg => htree g hg rfl)
  · intro g hg
    show ((m.setFlow f _).flow g).data_len ≤ m.mtu
    rw [flow_setFlow_of_ne _ (htree g hg)]
    exact h.data_len_le g hg
  · intro g hg
    show (m.setFlow f _).time g ≤ maxTime
    rcases (hmem g).mp hg with hg | rfl
    · rw [time_setFlow_of_ne _ (hother g hg)]
      exact h.time_le g hg
    · rw [time_setFlow_self]
      exact Nat.zero_le _
  · intro g hg
    obtain ⟨hglist, hgtree, hgprev, hgjob, hglen, hgle⟩ := h.sending g hg
    refine ⟨(hmem g).mpr (Or.inl hglist), hgtree, hgprev, hgjob, hglen, fun k hk => ?_⟩
    show (m.setFlow f _).time g ≤ (m.setFlow f _).time k
    rw [time_setFlow_of_ne _ (hother g hglist), time_setFlow_of_ne _ (htree k hk)]
    exact hgle k hk
  · intro g hg
    obtain ⟨hglist, hgtree, hgjob⟩ := h.previous g hg
    exact ⟨(hmem g).mpr (Or.inl hglist), hgtree, hgjob⟩

/-- A flow that is freed is in no place any more, and the others are where they were. -/
theorem sound_flowFree (h : Sound m) (he : m.Enabled (.flowFree f)) :
    Sound (m.flowFree f) ∧ (m.flowFree f).sending_flow = m.sending_flow ∧
      (∀ g, g ∈ (m.flowFree f).queued_tree ↔ g ∈ m.queued_tree ∧ g ≠ f) := by
  obtain ⟨hlist, hsend⟩ := he
  have hsending : (m.flowFree f).sending_flow = m.sending_flow := if_neg hsend
  have htree : (m.flowFree f).queued_tree = m.queued_tree.erase f := by
    show (if (m.flow f).is_queued then m.queued_tree.erase f else m.queued_tree) = _
    split
    · rfl
    · rename_i hidle
      refine (List.erase_of_not_mem (fun hf => hidle ?_)).symm
      exact (h.is_queued_iff f hlist).mpr hf
  have hmem : ∀ g, g ∈ (m.flowFree f).queued_tree ↔ g ∈ m.queued_tree ∧ g ≠ f := by
    intro g
    rw [htree, h.tree_nodup.mem_erase_iff, and_comm]
  have hflows : ∀ g, g ∈ (m.flowFree f).flows_list ↔ g ∈ m.flows_list ∧ g ≠ f := by
    intro g
    show g ∈ m.flows_list.erase f ↔ _
    rw [h.nodup.mem_erase_iff, and_comm]
  refine ⟨⟨⟨h.cost_le, h.nodup.erase f, ?_, ?_, ?_, ?_, ?_, ?_, ?_, ?_⟩, ?_⟩, hsending, hmem⟩
  · rw [htree]
    exact h.tree_nodup.erase f
  · rw [htree]
    exact h.sorted.sublist List.erase_sublist
  · exact fun g hg => (hflows g).mpr ⟨h.tree_subset g ((hmem g).mp hg).1, ((hmem g).mp hg).2⟩
  · intro g hg
    obtain ⟨hg, hgf⟩ := (hflows g).mp hg
    rw [hmem g, ← h.is_queued_iff g hg]
    exact (and_iff_left hgf).symm
  · exact fun g hg => h.data_len_le g ((hmem g).mp hg).1
  · exact fun g hg => h.time_le g ((hflows g).mp hg).1
  · intro g hg
    rw [hsending] at hg
    obtain ⟨hglist, hgtree, hgprev, hgjob, hglen, hgle⟩ := h.sending g hg
    refine ⟨(hflows g).mpr ⟨hglist, fun heq => hsend (heq ▸ hg)⟩,
      fun hin => hgtree ((hmem g).mp hin).1, ?_, hgjob, hglen,
      fun k hk => hgle k ((hmem k).mp hk).1⟩
    show (if m.previous_flow = some f then none else m.previous_flow) = none
    rw [hgprev]
    simp
  · intro g hg
    have hprev : m.previous_flow = some g ∧ g ≠ f := by
      have hg' : (if m.previous_flow = some f then none else m.previous_flow) = some g := hg
      split at hg'
      · cases hg'
      · rename_i hne
        exact ⟨hg', fun heq => hne (heq ▸ hg')⟩
    obtain ⟨hglist, hgtree, hgjob⟩ := h.previous g hprev.1
    exact ⟨(hflows g).mpr ⟨hglist, hprev.2⟩, fun hin => hgtree ((hmem g).mp hin).1, hgjob⟩
  · intro hne
    rw [hsending]
    obtain ⟨g, hg⟩ := List.exists_mem_of_ne_nil _ hne
    exact h.working (List.ne_nil_of_mem ((hmem g).mp hg).1)

/-! ## 4. Any run -/

theorem sound_handle (h : Sound m) {e : Event} (he : m.Enabled e) :
    ∃ m', m.handle e = some m' ∧ Sound m' := by
  cases e with
  | flowInit f => exact ⟨_, rfl, sound_flowInit h he⟩
  | flowFree f => exact ⟨_, rfl, (sound_flowFree h he).1⟩
  | inputSend f data_len =>
    obtain ⟨m', hm', hsound, -⟩ := sound_inputSend h he
    exact ⟨m', hm', hsound⟩
  | outputDone =>
    obtain ⟨f, hf⟩ := Option.isSome_iff_exists.mp he
    obtain ⟨flow, c, hm', hsound, -⟩ := sound_outputDone h hf
    exact ⟨_, hm', hsound⟩
  | scheduleJob =>
    obtain ⟨m', hm', hsound, -⟩ := sound_scheduleJob h he
    exact ⟨m', hm', hsound⟩

theorem sound_step {m' : FairQueue} {e : Event} (h : Sound m) (hstep : m.step e = some m') :
    Sound m' := by
  rw [step] at hstep
  split at hstep
  · obtain ⟨t, ht, hsound⟩ := sound_handle h (by assumption)
    obtain rfl := Option.some.inj (ht.symm.trans hstep)
    exact hsound
  · cases hstep

theorem sound_init {mtu packet_weight : ℕ} (hinit : init mtu packet_weight = some m) :
    Sound m := by
  rw [init] at hinit
  split at hinit
  · obtain rfl := Option.some.inj hinit
    refine ⟨⟨?_, List.nodup_nil, List.nodup_nil, List.Pairwise.nil, by simp, by simp, by simp,
      by simp, by simp, by simp⟩, by simp⟩
    show packet_weight + mtu ≤ maxTime
    omega
  · cases hinit

end FairQueue

/-- **No assertion fails, and no packet waits for nothing.**  However flows come, send and go, the
tree holds exactly the queued flows in the order of the times they have now, all times fit in 64
bits, the flow that is being sent is none of the queued ones and has no more time than any of them,
and while a packet is queued either one is being sent or the job is about to choose one. -/
theorem fairQueue_run {mtu packet_weight : ℕ} {m₀ m : FairQueue}
    (hinit : FairQueue.init mtu packet_weight = some m₀) {es : List FairQueue.Event}
    (hrun : exec FairQueue.step m₀ es = some m) :
    (∀ e, m.Enabled e → (m.handle e).isSome) ∧
      m.queued_tree.Pairwise m.Before ∧
      (∀ f ∈ m.flows_list, m.time f ≤ maxTime ∧
        ((m.flow f).is_queued = true ↔ f ∈ m.queued_tree)) ∧
      (∀ f, m.sending_flow = some f → f ∈ m.flows_list ∧ f ∉ m.queued_tree ∧
        ∀ g ∈ m.queued_tree, m.time f ≤ m.time g) ∧
      (m.queued_tree ≠ [] → m.sending_flow.isSome ∨ m.schedule_job = true) := by
  have hsound : m.Sound := (run_of_exec hrun).invariant (FairQueue.sound_init hinit)
    (fun _ _ _ h _ hstep => FairQueue.sound_step h hstep)
  refine ⟨fun e he => ?_, hsound.sorted,
    fun f hf => ⟨hsound.time_le f hf, hsound.is_queued_iff f hf⟩, fun f hf => ?_, hsound.working⟩
  · obtain ⟨m', hm', -⟩ := FairQueue.sound_handle hsound he
    rw [hm']
    rfl
  · obtain ⟨hlist, htree, -, -, -, hfirst⟩ := hsound.sending f hf
    exact ⟨hlist, htree, hfirst⟩

/-- Two flows, of which the second sends while the first is being sent. -/
theorem fairQueue_run_two_flows :
    ∃ m₀ m, FairQueue.init 1500 1 = some m₀ ∧
      exec FairQueue.step m₀ [.flowInit 0, .flowInit 1, .inputSend 0 9, .inputSend 1 5, .outputDone,
        .scheduleJob] = some m ∧
      (m.queued_tree ≠ [] → m.sending_flow.isSome ∨ m.schedule_job = true) := by
  obtain ⟨m₀, hinit⟩ := Option.isSome_iff_exists.mp
    (by decide +kernel : (FairQueue.init 1500 1).isSome)
  obtain ⟨m, hrun⟩ := Option.isSome_iff_exists.mp (by
    have hall : ((FairQueue.init 1500 1).bind fun m₀ => exec FairQueue.step m₀ [.flowInit 0,
      .flowInit 1, .inputSend 0 9, .inputSend 1 5, .outputDone, .scheduleJob]).isSome := by
        decide +kernel
    rwa [hinit, Option.bind_some] at hall)
  exact ⟨m₀, m, hinit, hrun, (fairQueue_run hinit hrun).2.2.2.2⟩

end ShiroKhorshid.Tun
