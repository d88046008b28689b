/-
# The traffic time series (`DataTransferStats`)

The service counts the bytes of the tunnel twice over: in running totals, and in two windows of
288 buckets, of five minutes and of one second each, which the statistics tab draws.  A window is
brought up to date (`manageBuckets`) before every count is added to its last bucket.

`shiftBuckets` opens `diff / period + 1` buckets, although a clock that is `diff / period` periods
past the last start time has entered only `diff / period` new ones.  So whenever the buckets move
they move one place too far, and `timeSeries_exact_iff` says what is left of "the series shows
what was recorded": no byte of an earlier period may still be in the window.

The two windows are one notion with two periods, `Series`.

* A call does to each window what `Series.record` does (`slow_apply`, `fast_apply`), and a shift
  slides it (`iterate_shiftBucket_eq_slide`).
* What a window holds is told by marks: an amount, the periods that have passed since it was
  recorded and the places it has been moved (`Series.Holds`).  A count adds a mark and the clock
  ages them all (`Holds.record`, `Holds.manage`), and so does a run (`Holds.foldl`).
* Marks move too far whenever they move, so that a held window is exact when none that has moved is
  left in it (`Holds.trueTo_iff`).

Counters and clock readings are natural numbers.  The source has `long` counters, so that what is
shown holds below `2 ^ 63` bytes, and an `int` for the loop of `shiftBuckets`, which is enough for a
device that is up for less than `2 ^ 31` seconds, 68 years.
-/
import Mathlib.Order.Nat
import ShiroKhorshid.Lib.Window

namespace ShiroKhorshid.Traffic

open Window

/-! ## 1. The source -/

/-- `Bucket`. -/
@[ext] structure Bucket where
  m_bytesSent : ℕ
  m_bytesReceived : ℕ
deriving DecidableEq, Repr

namespace Bucket

instance : Zero Bucket := ⟨⟨0, 0⟩⟩
instance : Add Bucket := ⟨fun a b =>
  ⟨a.m_bytesSent + b.m_bytesSent, a.m_bytesReceived + b.m_bytesReceived⟩⟩

@[simp] theorem zero_sent : (0 : Bucket).m_bytesSent = 0 := rfl
@[simp] theorem zero_received : (0 : Bucket).m_bytesReceived = 0 := rfl
@[simp] theorem add_sent (a b : Bucket) :
    (a + b).m_bytesSent = a.m_bytesSent + b.m_bytesSent := rfl
@[simp] theorem add_received (a b : Bucket) :
    (a + b).m_bytesReceived = a.m_bytesReceived + b.m_bytesReceived := rfl

instance : AddCommMonoid Bucket where
  add_assoc a b c := by ext <;> simp [Nat.add_assoc]
  zero_add a := by ext <;> simp
  add_zero a := by ext <;> simp
  add_comm a b := by ext <;> simp [Nat.add_comm]
  nsmul := nsmulRec

/-- Counts do not cancel. -/
instance : Subsingleton (AddUnits Bucket) := by
  refine ⟨fun u v => AddUnits.ext ?_⟩
  have hzero : ∀ w : AddUnits Bucket, (w : Bucket) = 0 := by
    intro w
    have hsent := congrArg m_bytesSent w.val_neg
    have hreceived := congrArg m_bytesReceived w.val_neg
    rw [add_sent, zero_sent] at hsent
    rw [add_received, zero_received] at hreceived
    ext
    · exact Nat.eq_zero_of_add_eq_zero_right hsent
    · exact Nat.eq_zero_of_add_eq_zero_right hreceived
  rw [hzero u, hzero v]

protected theorem add_eq_left {a b : Bucket} : a + b = a ↔ b = 0 := by
  rw [Bucket.ext_iff, Bucket.ext_iff, add_sent, add_received, Nat.add_eq_left, Nat.add_eq_left,
    zero_sent, zero_received]

/-- `m_bytesSent += bytes`. -/
def addSent (bytes : ℕ) (b : Bucket) : Bucket :=
  { b with m_bytesSent := b.m_bytesSent + bytes }

/-- `m_bytesReceived += bytes`. -/
def addReceived (bytes : ℕ) (b : Bucket) : Bucket :=
  { b with m_bytesReceived := b.m_bytesReceived + bytes }

theorem addSent_eq (bytes : ℕ) (b : Bucket) : b.addSent bytes = b + ⟨bytes, 0⟩ := rfl
theorem addReceived_eq (bytes : ℕ) (b : Bucket) : b.addReceived bytes = b + ⟨0, bytes⟩ := rfl

end Bucket

def SLOW_BUCKET_PERIOD_MILLISECONDS : ℕ := 5 * 60 * 1000
def FAST_BUCKET_PERIOD_MILLISECONDS : ℕ := 1000
def MAX_BUCKETS : ℕ := 24 * 60 / 5

/-- `DataTransferStatsBase`. -/
structure DataTransferStats where
  m_connectedTime : ℕ
  m_totalBytesSent : ℕ
  m_totalBytesReceived : ℕ
  m_slowBuckets : List Bucket
  m_slowBucketsLastStartTime : ℕ
  m_fastBuckets : List Bucket
  m_fastBucketsLastStartTime : ℕ

def bucketStartTime (now period : ℕ) : ℕ := period * (now / period)

def newBuckets : List Bucket := List.replicate MAX_BUCKETS 0

/-- One turn of the loop of `shiftBuckets`. -/
def shiftBucket (buckets : List Bucket) : List Bucket :=
  let grown := buckets ++ [0]
  if grown.length ≥ MAX_BUCKETS then grown.tail else grown

def shiftBuckets (diff period : ℕ) (buckets : List Bucket) : List Bucket :=
  shiftBucket^[diff / period + 1] buckets

namespace DataTransferStats

def resetBytesTransferred (s : DataTransferStats) (now : ℕ) : DataTransferStats :=
  { s with
    m_slowBucketsLastStartTime := bucketStartTime now SLOW_BUCKET_PERIOD_MILLISECONDS
    m_slowBuckets := newBuckets
    m_fastBucketsLastStartTime := bucketStartTime now FAST_BUCKET_PERIOD_MILLISECONDS
    m_fastBuckets := newBuckets }

/-- The totals are left as they are. -/
def stop (s : DataTransferStats) (now : ℕ) : DataTransferStats :=
  { s with m_connectedTime := 0 }.resetBytesTransferred now

/-- The constructor. -/
def new (now : ℕ) : DataTransferStats :=
  stop ⟨0, 0, 0, [], 0, [], 0⟩ now

/-- The first half of `manageBuckets`. -/
def manageSlowBuckets (s : DataTransferStats) (now : ℕ) : DataTransferStats :=
  let diff := now - s.m_slowBucketsLastStartTime
  if diff ≥ SLOW_BUCKET_PERIOD_MILLISECONDS then
    { s with
      m_slowBuckets := shiftBuckets diff SLOW_BUCKET_PERIOD_MILLISECONDS s.m_slowBuckets
      m_slowBucketsLastStartTime := bucketStartTime now SLOW_BUCKET_PERIOD_MILLISECONDS }
  else s

/-- The second half of `manageBuckets`. -/
def manageFastBuckets (s : DataTransferStats) (now : ℕ) : DataTransferStats :=
  let diff := now - s.m_fastBucketsLastStartTime
  if diff ≥ FAST_BUCKET_PERIOD_MILLISECONDS then
    { s with
      m_fastBuckets := shiftBuckets diff FAST_BUCKET_PERIOD_MILLISECONDS s.m_fastBuckets
      m_fastBucketsLastStartTime := bucketStartTime now FAST_BUCKET_PERIOD_MILLISECONDS }
  else s

def manageBuckets (s : DataTransferStats) (now : ℕ) : DataTransferStats :=
  (s.manageSlowBuckets now).manageFastBuckets now

/-! `DataTransferStatsForService` -/

def startSession (s : DataTransferStats) (now : ℕ) : DataTransferStats :=
  s.resetBytesTransferred now

def startConnected (s : DataTransferStats) (now : ℕ) : DataTransferStats :=
  { s with m_connectedTime := now }

/-- `buckets.get(buckets.size() - 1)` is changed. -/
def changeLast (f : Bucket → Bucket) (buckets : List Bucket) : List Bucket :=
  buckets.modify (buckets.length - 1) f

def addSentToBuckets (s : DataTransferStats) (bytes : ℕ) : DataTransferStats :=
  { s with
    m_slowBuckets := changeLast (Bucket.addSent bytes) s.m_slowBuckets
    m_fastBuckets := changeLast (Bucket.addSent bytes) s.m_fastBuckets }

def addReceivedToBuckets (s : DataTransferStats) (bytes : ℕ) : DataTransferStats :=
  { s with
    m_slowBuckets := changeLast (Bucket.addReceived bytes) s.m_slowBuckets
    m_fastBuckets := changeLast (Bucket.addReceived bytes) s.m_fastBuckets }

def addBytesSent (s : DataTransferStats) (now bytes : ℕ) : DataTransferStats :=
  ({ s with m_totalBytesSent := s.m_totalBytesSent + bytes }.manageBuckets now).addSentToBuckets
    bytes

def addBytesReceived (s : DataTransferStats) (now bytes : ℕ) : DataTransferStats :=
  ({ s with
    m_totalBytesReceived := s.m_totalBytesReceived + bytes }.manageBuckets now).addReceivedToBuckets
    bytes

end DataTransferStats

/-- A count that is recorded, with the reading of the clock. -/
inductive Call where
  | addBytesSent (now bytes : ℕ)
  | addBytesReceived (now bytes : ℕ)

namespace Call

def now : Call → ℕ
  | addBytesSent now _ => now
  | addBytesReceived now _ => now

/-- What is recorded. -/
def amount : Call → Bucket
  | addBytesSent _ bytes => ⟨bytes, 0⟩
  | addBytesReceived _ bytes => ⟨0, bytes⟩

def apply (s : DataTransferStats) : Call → DataTransferStats
  | addBytesSent now bytes => s.addBytesSent now bytes
  | addBytesReceived now bytes => s.addBytesReceived now bytes

end Call

/-! ## 2. One series -/

/-- A window of buckets and when its last bucket began. -/
@[ext] structure Series where
  buckets : List Bucket
  lastStartTime : ℕ

namespace Series

/-- What `manageBuckets` does to one of its two windows. -/
def manage (r : Series) (period now : ℕ) : Series :=
  if now - r.lastStartTime ≥ period then
    ⟨shiftBuckets (now - r.lastStartTime) period r.buckets, bucketStartTime now period⟩
  else r

/-- What a count does to each of them. -/
def record (r : Series) (period : ℕ) (c : Call) : Series :=
  let r := r.manage period c.now
  { r with buckets := deposit c.amount r.buckets }

end Series

namespace DataTransferStats

def slow (s : DataTransferStats) : Series := ⟨s.m_slowBuckets, s.m_slowBucketsLastStartTime⟩
def fast (s : DataTransferStats) : Series := ⟨s.m_fastBuckets, s.m_fastBucketsLastStartTime⟩

@[simp] theorem slow_manageFastBuckets (s : DataTransferStats) (now : ℕ) :
    (s.manageFastBuckets now).slow = s.slow := by
  unfold manageFastBuckets
  dsimp only
  split <;> rfl

@[simp] theorem fast_manageSlowBuckets (s : DataTransferStats) (now : ℕ) :
    (s.manageSlowBuckets now).fast = s.fast := by
  unfold manageSlowBuckets
  dsimp only
  split <;> rfl

theorem slow_manageBuckets (s : DataTransferStats) (now : ℕ) :
    (s.manageBuckets now).slow = s.slow.manage SLOW_BUCKET_PERIOD_MILLISECONDS now := by
  rw [manageBuckets, slow_manageFastBuckets]
  unfold manageSlowBuckets Series.manage slow
  dsimp only
  split <;> rfl

theorem fast_manageBuckets (s : DataTransferStats) (now : ℕ) :
    (s.manageBuckets now).fast = s.fast.manage FAST_BUCKET_PERIOD_MILLISECONDS now := by
  have h : (s.manageBuckets now).fast =
      (s.manageSlowBuckets now).fast.manage FAST_BUCKET_PERIOD_MILLISECONDS now := by
    unfold manageBuckets manageFastBuckets Series.manage fast
    dsimp only
    split <;> rfl
  rw [h, fast_manageSlowBuckets]

/-- A count in one direction is a deposit. -/
theorem changeLast_eq_deposit {f : Bucket → Bucket} {m : Bucket} (h : ∀ b, f b = b + m)
    (buckets : List Bucket) : changeLast f buckets = deposit m buckets := by
  rw [changeLast, deposit, funext h]

theorem slow_addSentToBuckets (s : DataTransferStats) (bytes : ℕ) :
    (s.addSentToBuckets bytes).slow =
      { s.slow with buckets := deposit ⟨bytes, 0⟩ s.slow.buckets } :=
  Series.ext (changeLast_eq_deposit (Bucket.addSent_eq bytes) _) rfl

theorem slow_addReceivedToBuckets (s : DataTransferStats) (bytes : ℕ) :
    (s.addReceivedToBuckets bytes).slow =
      { s.slow with buckets := deposit ⟨0, bytes⟩ s.slow.buckets } :=
  Series.ext (changeLast_eq_deposit (Bucket.addReceived_eq bytes) _) rfl

theorem fast_addSentToBuckets (s : DataTransferStats) (bytes : ℕ) :
    (s.addSentToBuckets bytes).fast =
      { s.fast with buckets := deposit ⟨bytes, 0⟩ s.fast.buckets } :=
  Series.ext (changeLast_eq_deposit (Bucket.addSent_eq bytes) _) rfl

theorem fast_addReceivedToBuckets (s : DataTransferStats) (bytes : ℕ) :
    (s.addReceivedToBuckets bytes).fast =
      { s.fast with buckets := deposit ⟨0, bytes⟩ s.fast.buckets } :=
  Series.ext (changeLast_eq_deposit (Bucket.addReceived_eq bytes) _) rfl

theorem slow_apply (s : DataTransferStats) (c : Call) :
    (c.apply s).slow = s.slow.record SLOW_BUCKET_PERIOD_MILLISECONDS c := by
  cases c with
  | addBytesSent now bytes =>
    rw [Call.apply, addBytesSent, slow_addSentToBuckets, slow_manageBuckets]
    rfl
  | addBytesReceived now bytes =>
    rw [Call.apply, addBytesReceived, slow_addReceivedToBuckets, slow_manageBuckets]
    rfl

theorem fast_apply (s : DataTransferStats) (c : Call) :
    (c.apply s).fast = s.fast.record FAST_BUCKET_PERIOD_MILLISECONDS c := by
  cases c with
  | addBytesSent now bytes =>
    rw [Call.apply, addBytesSent, fast_addSentToBuckets, fast_manageBuckets]
    rfl
  | addBytesReceived now bytes =>
    rw [Call.apply, addBytesReceived, fast_addReceivedToBuckets, fast_manageBuckets]
    rfl

/-- The series of five minutes after a list of calls. -/
theorem slow_foldl (calls : List Call) (s : DataTransferStats) :
    (calls.foldl Call.apply s).slow =
      calls.foldl (fun r c => r.record SLOW_BUCKET_PERIOD_MILLISECONDS c) s.slow := by
  induction calls generalizing s with
  | nil => rfl
  | cons c calls ih => rw [List.foldl_cons, ih, slow_apply, List.foldl_cons]

/-- The series of one second after a list of calls. -/
theorem fast_foldl (calls : List Call) (s : DataTransferStats) :
    (calls.foldl Call.apply s).fast =
      calls.foldl (fun r c => r.record FAST_BUCKET_PERIOD_MILLISECONDS c) s.fast := by
  induction calls generalizing s with
  | nil => rfl
  | cons c calls ih => rw [List.foldl_cons, ih, fast_apply, List.foldl_cons]

/-- The running totals. -/
def totals (s : DataTransferStats) : Bucket := ⟨s.m_totalBytesSent, s.m_totalBytesReceived⟩

end DataTransferStats

/-! ## 3. What a series holds -/

theorem length_newBuckets : newBuckets.length = MAX_BUCKETS := List.length_replicate

/-- **A shift slides**: a list of 288 buckets grows to 289 and is cut back. -/
theorem shiftBucket_eq_slide {buckets : List Bucket} (h : buckets.length = MAX_BUCKETS) :
    shiftBucket buckets = slide buckets := by
  have hgrown : (buckets ++ [0]).length ≥ MAX_BUCKETS := by simp [h]
  rw [shiftBucket, if_pos hgrown, slide]

theorem iterate_shiftBucket_eq_slide {buckets : List Bucket} (h : buckets.length = MAX_BUCKETS)
    (k : ℕ) : shiftBucket^[k] buckets = slide^[k] buckets := by
  induction k with
  | zero => rfl
  | succ k ih =>
    rw [Function.iterate_succ_apply', Function.iterate_succ_apply', ih,
      shiftBucket_eq_slide (by rw [length_iterate_slide, h])]

/-- How many periods lie between two readings of the clock. -/
def periodsBetween (period before after : ℕ) : ℕ := after / period - before / period

/-- The marks are the calls, with the age each of them has at `now`. -/
def Marks (period now : ℕ) (calls : List Call) (marks : List (Mark Bucket)) : Prop :=
  marks.map (fun m => (m.due, m.amount)) =
    calls.map (fun c => (periodsBetween period c.now now, c.amount))

/-- What is kept of a series: 288 buckets, the start of the current period, and the calls, none of
them carried to the bucket it belongs in unless that is the last one. -/
structure Series.Holds (r : Series) (period now : ℕ) (calls : List Call) : Prop where
  length : r.buckets.length = MAX_BUCKETS
  start : r.lastStartTime = bucketStartTime now period
  past : ∀ c ∈ calls, c.now ≤ now
  shows : ∃ marks, Shows r.buckets marks ∧ (∀ m ∈ marks, m.Late) ∧ Marks period now calls marks

/-- A window is due for a shift when the clock has entered another period. -/
theorem period_le_sub_start_iff {period last now : ℕ} (hperiod : 0 < period) :
    now - bucketStartTime last period ≥ period ↔ last / period < now / period := by
  rw [bucketStartTime, ge_iff_le, ← Nat.succ_le_iff, Nat.le_div_iff_mul_le hperiod,
    Nat.succ_mul, Nat.mul_comm (last / period)]
  omega

/-- By how much it is due. -/
theorem sub_start_div (period last now : ℕ) :
    (now - bucketStartTime last period) / period = periodsBetween period last now := by
  rw [bucketStartTime, periodsBetween, Nat.sub_mul_div]

theorem periodsBetween_trans {period before now after : ℕ} (h : before ≤ now) (h' : now ≤ after) :
    periodsBetween period before now + periodsBetween period now after =
      periodsBetween period before after := by
  have h₁ : before / period ≤ now / period := Nat.div_le_div_right h
  have h₂ : now / period ≤ after / period := Nat.div_le_div_right h'
  unfold periodsBetween
  omega

/-- Marks age with the clock. -/
theorem Marks.older {period now after places : ℕ} {calls : List Call} {marks : List (Mark Bucket)}
    (h : Marks period now calls marks) (hcalls : ∀ c ∈ calls, c.now ≤ now) (hle : now ≤ after) :
    Marks period after calls
      (marks.map (Mark.older (periodsBetween period now after) places)) := by
  have hmap := congrArg
    (List.map (Prod.map (fun due => due + periodsBetween period now after) id)) h
  rw [List.map_map, List.map_map] at hmap
  rw [Marks, List.map_map]
  refine hmap.trans (List.map_congr_left ?_)
  intro c hc
  simp only [Function.comp_apply, Prod.map_apply, id_eq]
  rw [periodsBetween_trans (hcalls c hc) hle]

namespace Series

/-- **The clock goes on.** -/
theorem Holds.manage {r : Series} {period now after : ℕ} {calls : List Call}
    (h : r.Holds period now calls) (hperiod : 0 < period) (hle : now ≤ after) :
    (r.manage period after).Holds period after calls := by
  obtain ⟨marks, hshows, hlate, hmarks⟩ := h.shows
  have hpast : ∀ c ∈ calls, c.now ≤ after := fun c hc => (h.past c hc).trans hle
  rw [Series.manage, h.start]
  by_cases hnew : now / period < after / period
  · rw [if_pos ((period_le_sub_start_iff hperiod).mpr hnew), shiftBuckets, sub_start_div,
      iterate_shiftBucket_eq_slide h.length]
    refine ⟨by rw [length_iterate_slide, h.length], rfl, hpast, _, hshows.slide _ _, ?_,
      hmarks.older h.past hle⟩
    intro m hm
    obtain ⟨before, hbefore, rfl⟩ := List.mem_map.mp hm
    exact (hlate before hbefore).older (Nat.sub_pos_of_lt hnew) (Nat.lt_succ_self _)
  · have hsame : now / period = after / period :=
      le_antisymm (Nat.div_le_div_right hle) (Nat.not_lt.mp hnew)
    rw [if_neg (fun hdue => hnew ((period_le_sub_start_iff hperiod).mp hdue))]
    refine ⟨h.length, ?_, hpast, marks, hshows, hlate, ?_⟩
    · rw [h.start, bucketStartTime, bucketStartTime, hsame]
    · rw [Marks, hmarks]
      simp only [periodsBetween, hsame]

/-- **A count** goes to the bucket of the current period. -/
theorem Holds.record {r : Series} {period now : ℕ} {calls : List Call}
    (h : r.Holds period now calls) (hperiod : 0 < period) {c : Call} (hle : now ≤ c.now) :
    (r.record period c).Holds period c.now (calls ++ [c]) := by
  have hmanaged := h.manage hperiod hle
  obtain ⟨marks, hshows, hlate, hmarks⟩ := hmanaged.shows
  have hcells : 0 < (r.manage period c.now).buckets.length := by
    rw [hmanaged.length]
    decide
  refine ⟨by rw [Series.record, length_deposit, hmanaged.length], hmanaged.start, ?_, _,
    hshows.deposit hcells c.amount, ?_, ?_⟩
  · intro c' hc'
    rcases List.mem_append.mp hc' with hc' | hc'
    · exact hmanaged.past c' hc'
    · obtain rfl := List.mem_singleton.mp hc'
      exact le_rfl
  · intro m hm
    rcases List.mem_append.mp hm with hm | hm
    · exact hlate m hm
    · obtain rfl := List.mem_singleton.mp hm
      exact ⟨fun _ => rfl, fun hpos => absurd hpos (Nat.lt_irrefl 0)⟩
  · rw [Marks, List.map_append, List.map_append, hmarks]
    simp [periodsBetween]

/-- The windows of a reset. -/
theorem holds_reset (period now : ℕ) :
    Series.Holds ⟨newBuckets, bucketStartTime now period⟩ period now [] :=
  ⟨length_newBuckets, rfl, fun _ hc => (List.not_mem_nil hc).elim, [], shows_replicate_zero _,
    fun _ hm => (List.not_mem_nil hm).elim, rfl⟩

/-- **Every run** of counts keeps what is kept of a series. -/
theorem Holds.foldl {r : Series} {period now after : ℕ} {done calls : List Call}
    (h : r.Holds period now done) (hperiod : 0 < period)
    (hclock : (now :: (calls.map Call.now ++ [after])).Pairwise (· ≤ ·)) :
    ((calls.foldl (fun r c => Series.record r period c) r).manage period after).Holds period after
      (done ++ calls) := by
  induction calls generalizing r now done with
  | nil =>
    rw [List.append_nil]
    exact h.manage hperiod (by simpa using hclock)
  | cons c calls ih =>
    rw [List.map_cons, List.cons_append, List.pairwise_cons] at hclock
    rw [List.foldl_cons, List.append_cons]
    exact ih (h.record hperiod (hclock.1 c.now List.mem_cons_self)) hclock.2

/-! ## 4. When the series shows what was recorded -/

/-- What was recorded in the period that began `j` periods before that of `t`. -/
def recorded (period t : ℕ) (calls : List Call) (j : ℕ) : Bucket :=
  ((calls.filter (fun c => bucketStartTime c.now period + j * period =
    bucketStartTime t period)).map Call.amount).sum

/-- **The series is exact**: 288 buckets, each of which holds what was recorded in its period. -/
def TrueTo (buckets : List Bucket) (period t : ℕ) (calls : List Call) : Prop :=
  buckets.length = 288 ∧ ∀ j < 288, ago buckets j = recorded period t calls j

/-- Whatever was recorded was recorded in the period of `t` or has left the window. -/
def Settled (period t : ℕ) (calls : List Call) : Prop :=
  ∀ c ∈ calls, c.amount ≠ 0 → bucketStartTime c.now period = bucketStartTime t period ∨
    bucketStartTime c.now period + 288 * period ≤ bucketStartTime t period

/-- The age of a call, told by the start times. -/
theorem start_add_eq_start_iff {period before after : ℕ} (hperiod : 0 < period)
    (hle : before ≤ after) (j : ℕ) :
    bucketStartTime before period + j * period = bucketStartTime after period ↔
      periodsBetween period before after = j := by
  have hdiv : before / period ≤ after / period := Nat.div_le_div_right hle
  rw [bucketStartTime, bucketStartTime, periodsBetween, Nat.mul_comm j, ← Nat.mul_add,
    Nat.mul_right_inj hperiod.ne']
  omega

theorem start_add_le_start_iff {period before after : ℕ} (hperiod : 0 < period)
    (hle : before ≤ after) (j : ℕ) :
    bucketStartTime before period + j * period ≤ bucketStartTime after period ↔
      j ≤ periodsBetween period before after := by
  have hdiv : before / period ≤ after / period := Nat.div_le_div_right hle
  rw [bucketStartTime, bucketStartTime, periodsBetween, Nat.mul_comm j, ← Nat.mul_add,
    Nat.mul_le_mul_left_iff hperiod]
  omega

/-- What the marks of one age come to is what was recorded then. -/
theorem sumAt_due_eq_recorded {period t : ℕ} (hperiod : 0 < period) {calls : List Call}
    (hpast : ∀ c ∈ calls, c.now ≤ t) {marks : List (Mark Bucket)}
    (h : Marks period t calls marks) (j : ℕ) :
    sumAt Mark.due marks j = recorded period t calls j := by
  have hpairs : ∀ pairs : List (ℕ × Bucket), pairs = marks.map (fun m => (m.due, m.amount)) →
      ((pairs.filter (fun q => q.1 = j)).map Prod.snd).sum = sumAt Mark.due marks j := by
    rintro _ rfl
    rw [List.filter_map, List.map_map]
    rfl
  rw [← hpairs _ h.symm, List.filter_map, List.map_map, recorded]
  congr 1
  refine congrArg (List.map Call.amount) (List.filter_congr ?_)
  intro c hc
  exact decide_eq_decide.mpr (start_add_eq_start_iff hperiod (hpast c hc) j).symm

/-- **A held series is exact** exactly when it has settled. -/
theorem Holds.trueTo_iff {r : Series} {period t : ℕ} {calls : List Call}
    (h : r.Holds period t calls) (hperiod : 0 < period) :
    TrueTo r.buckets period t calls ↔ Settled period t calls := by
  obtain ⟨marks, hshows, hlate, hmarks⟩ := h.shows
  have hlength : r.buckets.length = 288 := h.length
  have hexact : TrueTo r.buckets period t calls ↔ Exact r.buckets marks := by
    rw [TrueTo, Exact, hlength]
    simp only [sumAt_due_eq_recorded hperiod h.past hmarks, true_and]
  rw [hexact, hshows.exact_iff hlate, hlength]
  -- the condition on the marks is the condition on the calls they stand for
  have hall : (∀ q ∈ marks.map (fun m => (m.due, m.amount)), q.2 ≠ 0 → q.1 = 0 ∨ 288 ≤ q.1) ↔
      ∀ m ∈ marks, m.amount ≠ 0 → m.due = 0 ∨ 288 ≤ m.due := List.forall_mem_map
  rw [← hall, hmarks, List.forall_mem_map, Settled]
  refine forall₂_congr fun c hc => ?_
  have hage := start_add_eq_start_iff hperiod (h.past c hc) 0
  rw [Nat.zero_mul, Nat.add_zero] at hage
  rw [hage, start_add_le_start_iff hperiod (h.past c hc)]

end Series

/-- **The traffic time series.**  After any calls at a clock that does not run back, both windows
show what was recorded, period by period, exactly when neither of them still reaches back to a
byte of an earlier period. -/
theorem timeSeries_exact_iff (s : DataTransferStats) (start t : ℕ) (calls : List Call)
    (hclock : (start :: (calls.map Call.now ++ [t])).Pairwise (· ≤ ·)) :
    let s' := (calls.foldl Call.apply (s.resetBytesTransferred start)).manageBuckets t
    (Series.TrueTo s'.m_slowBuckets (5 * 60 * 1000) t calls ∧
        Series.TrueTo s'.m_fastBuckets 1000 t calls) ↔
      Series.Settled (5 * 60 * 1000) t calls ∧ Series.Settled 1000 t calls := by
  intro s'
  have hslow : s'.slow.Holds SLOW_BUCKET_PERIOD_MILLISECONDS t calls := by
    rw [DataTransferStats.slow_manageBuckets, DataTransferStats.slow_foldl]
    exact (Series.holds_reset _ start).foldl (by decide) hclock
  have hfast : s'.fast.Holds FAST_BUCKET_PERIOD_MILLISECONDS t calls := by
    rw [DataTransferStats.fast_manageBuckets, DataTransferStats.fast_foldl]
    exact (Series.holds_reset _ start).foldl (by decide) hclock
  exact and_congr (hslow.trueTo_iff (by decide)) (hfast.trueTo_iff (by decide))

/-- In one session of a second nothing has been displaced yet. -/
theorem timeSeries_exact_within_second :
    let calls := [Call.addBytesReceived 100 5, Call.addBytesSent 200 7]
    let s' := (calls.foldl Call.apply
      ((DataTransferStats.new 0).resetBytesTransferred 0)).manageBuckets 900
    Series.TrueTo s'.m_slowBuckets (5 * 60 * 1000) 900 calls ∧
      Series.TrueTo s'.m_fastBuckets 1000 900 calls :=
  (timeSeries_exact_iff (DataTransferStats.new 0) 0 900
    [Call.addBytesReceived 100 5, Call.addBytesSent 200 7] (by decide)).mpr
    ⟨by unfold Series.Settled; decide, by unfold Series.Settled; decide⟩

/-- **Where it fails.**  Ten bytes of the first second are shown two seconds back as soon as the
next second begins. -/
theorem previous_second_shown_too_early :
    let calls := [Call.addBytesReceived 0 10]
    let s' := (calls.foldl Call.apply
      ((DataTransferStats.new 0).resetBytesTransferred 0)).manageBuckets 1000
    Series.recorded 1000 1000 calls 1 = ⟨0, 10⟩ ∧ ago s'.m_fastBuckets 1 = ⟨0, 0⟩ ∧
      ago s'.m_fastBuckets 2 = ⟨0, 10⟩ ∧ ¬ Series.TrueTo s'.m_fastBuckets 1000 1000 calls := by
  refine ⟨by decide, by decide +kernel, by decide +kernel, fun h => ?_⟩
  exact absurd (h.2 1 (by decide)) (by decide +kernel)

end ShiroKhorshid.Traffic
