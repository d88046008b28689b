/-
# Storing log entries (`MyLog.insertWithRetry`)

Entries are inserted on a single thread.  An insert that fails is retried up to three times, each
retry a new task at the end of the queue; after ten failures in a row the circuit opens, entries
are dropped, and a reset task is queued that closes it again.  What is dropped goes to the logcat
if it is an error.

The counters are read and written on that one thread only, so a task has its effect in one step,
when it ends; in between, other threads may queue new entries.

* A row that has been logged has one task at most, and is settled when it has none: it is stored, or
  it was dropped and is in the logcat if it is an error (`RowInv`).
* An attempt does one of five things to its row (`insertWithRetry_cases`), and leaves every other
  row as it was (`sameFor_insertWithRetry`).
* The circuit is open exactly while a reset is to come, and the failure count of a closed one is
  below the threshold (`Inv`, `circuit_insertWithRetry`).

`log_persistence` follows for any run: nothing is stored twice, tried too often or lost in silence.

Which inserts fail is up to the database and comes with the events.  The log is not shut down, and
the delay of a retry is not modelled: a delayed task runs when it does.
-/
import ShiroKhorshid.Log.Entries
import ShiroKhorshid.Lib.Transition

namespace ShiroKhorshid.Log

open Transition

/-! ## 1. The executor -/

def MAX_RETRIES : ℕ := 3

/-- Backoff delays in ms. -/
def RETRY_DELAYS_MS : List ℕ := [100, 200, 500]

def FAILURE_THRESHOLD : ℕ := 10

/-- `Log.ERROR` -/
def ERROR : ℤ := 6

/-- The values of an insert.  `id` tells two logs of the same values apart. -/
structure Row where
  id : ℕ
  values : LogEntry
deriving DecidableEq

inductive Task
  /-- `storeLog` -/
  | insert (row : Row)
  /-- `scheduleRetry`: a sleep and then an attempt -/
  | retry (delay : ℕ) (row : Row) (nextAttempt : ℕ)
  /-- `scheduleCircuitReset` -/
  | circuitReset
deriving DecidableEq

/-- The executor and the counters.  The last four fields are what has happened: the rows that were
logged, each attempt to insert one, those that were stored and those written to the logcat. -/
structure MyLog where
  running : Option Task
  queue : List Task
  failureCount : ℕ
  circuitOpen : Bool
  logged : List Row
  attempted : List Row
  stored : List Row
  logcat : List Row

inductive Event
  /-- a thread logs something -/
  | storeLog (values : LogEntry)
  /-- the executor takes a task -/
  | start
  /-- the task ends; if it came to an insert, the insert succeeded or failed -/
  | finish (inserted : Bool)

namespace MyLog

def initial : MyLog := ⟨none, [], 0, false, [], [], [], []⟩

/-- `executorService.execute` -/
def execute (task : Task) (s : MyLog) : MyLog := { s with queue := s.queue ++ [task] }

def storeLog (values : LogEntry) (s : MyLog) : MyLog :=
  let row : Row := ⟨s.logged.length, values⟩
  execute (.insert row) { s with logged := s.logged ++ [row] }

/-- `if (priority >= Log.ERROR) Log.e(TAG, logjson)` -/
def logIfError (row : Row) (s : MyLog) : MyLog :=
  if row.values.priority ≥ ERROR then { s with logcat := s.logcat ++ [row] } else s

def scheduleCircuitReset (s : MyLog) : MyLog := execute .circuitReset s

/-- There is a delay for every attempt; without one the task would end in an exception. -/
def scheduleRetry (row : Row) (nextAttempt : ℕ) (s : MyLog) : MyLog :=
  match RETRY_DELAYS_MS[nextAttempt - 1]? with
  | some delay => execute (.retry delay row nextAttempt) s
  | none => s

/-- The row is stored and the failure count reset. -/
def insertSucceeded (row : Row) (s : MyLog) : MyLog :=
  { s with attempted := s.attempted ++ [row], stored := s.stored ++ [row], failureCount := 0 }

/-- The insert throws, and the failure is counted. -/
def insertFailed (row : Row) (s : MyLog) : MyLog :=
  { s with attempted := s.attempted ++ [row], failureCount := s.failureCount + 1 }

def openCircuit (s : MyLog) : MyLog := { s with circuitOpen := true }

/-- `inserted` tells whether the insert, if it is tried, succeeds. -/
def insertWithRetry (row : Row) (attempt : ℕ) (inserted : Bool) (s : MyLog) : MyLog :=
  if s.circuitOpen then logIfError row s
  else if inserted then insertSucceeded row s
  else if (insertFailed row s).failureCount ≥ FAILURE_THRESHOLD then
    logIfError row (scheduleCircuitReset (openCircuit (insertFailed row s)))
  else if attempt < MAX_RETRIES then scheduleRetry row (attempt + 1) (insertFailed row s)
  else logIfError row (insertFailed row s)

/-- What a task does. -/
def run (inserted : Bool) : Task → MyLog → MyLog
  | .insert row => insertWithRetry row 0 inserted
  | .retry _ row attempt => insertWithRetry row attempt inserted
  | .circuitReset => fun s => { s with circuitOpen := false, failureCount := 0 }

/-- One event; one that cannot happen changes nothing. -/
def act (s : MyLog) : Event → MyLog
  | .storeLog values => s.storeLog values
  | .start =>
    match s.running, s.queue with
    | none, task :: queue => { s with running := some task, queue := queue }
    | _, _ => s
  | .finish inserted =>
    match s.running with
    | some task => run inserted task { s with running := none }
    | none => s

/-! ## 2. What is pending -/

/-- The tasks still to end, the running one first. -/
def tasks (s : MyLog) : List Task := s.running.toList ++ s.queue

end MyLog

/-- The attempt a task is, if it is about the row. -/
def Task.attemptOf (row : Row) : Task → Option ℕ
  | .insert r => if r = row then some 0 else none
  | .retry _ r attempt => if r = row then some attempt else none
  | .circuitReset => none

namespace MyLog

/-- The attempts still to come for a row. -/
def pending (s : MyLog) (row : Row) : List ℕ := s.tasks.filterMap (Task.attemptOf row)

/-- Nothing is to come for the row: it has been stored, or written to the logcat if it is an
error. -/
structure Settled (s : MyLog) (row : Row) : Prop where
  attempts : s.attempted.count row ≤ 1 + MAX_RETRIES
  stored : s.stored.count row ≤ 1
  kept : row ∈ s.logged → ERROR ≤ row.values.priority → row ∈ s.stored ∨ row ∈ s.logcat

/-- One task is to come for the row, with as many attempts before it as it says. -/
structure Waiting (s : MyLog) (row : Row) (attempt : ℕ) : Prop where
  attempts : s.attempted.count row = attempt
  le : attempt ≤ MAX_RETRIES
  stored : s.stored.count row = 0

/-- **The invariant of a row**: it has a task at most, and is settled when it has none. -/
def RowInv (s : MyLog) (row : Row) : Prop :=
  s.pending row = [] ∧ s.Settled row ∨ ∃ attempt, s.pending row = [attempt] ∧ s.Waiting row attempt

/-- A row that has not been logged yet. -/
structure Fresh (s : MyLog) (row : Row) : Prop where
  pending : s.pending row = []
  attempted : s.attempted.count row = 0
  stored : s.stored.count row = 0
  logged : row ∉ s.logged

structure Inv (s : MyLog) : Prop where
  closed : s.circuitOpen = false → s.failureCount < FAILURE_THRESHOLD
  reset : s.tasks.count .circuitReset = if s.circuitOpen then 1 else 0
  rows : ∀ row, s.RowInv row
  fresh : ∀ row, s.logged.length ≤ row.id → s.Fresh row

theorem inv_initial : initial.Inv where
  closed _ := by decide
  reset := rfl
  rows row := Or.inl ⟨rfl, ⟨by simp [initial], by simp [initial], by simp [initial]⟩⟩
  fresh row _ := ⟨rfl, rfl, rfl, by simp [initial]⟩

/-! ## 3. Queueing and writing to the logcat -/

section Fields

variable (task : Task) (row : Row) (s : MyLog)

@[simp] theorem tasks_execute : (execute task s).tasks = s.tasks ++ [task] := by
  simp [execute, tasks]

@[simp] theorem pending_execute (r : Row) :
    (execute task s).pending r = s.pending r ++ (task.attemptOf r).toList := by
  cases h : task.attemptOf r <;> simp [pending, h]

@[simp] theorem circuitOpen_execute : (execute task s).circuitOpen = s.circuitOpen := rfl

@[simp] theorem circuitOpen_insertSucceeded :
    (insertSucceeded row s).circuitOpen = s.circuitOpen := rfl

@[simp] theorem circuitOpen_insertFailed : (insertFailed row s).circuitOpen = s.circuitOpen := rfl

@[simp] theorem failureCount_insertFailed :
    (insertFailed row s).failureCount = s.failureCount + 1 := rfl

@[simp] theorem tasks_logIfError : (logIfError row s).tasks = s.tasks := by
  unfold logIfError
  split <;> rfl

@[simp] theorem pending_logIfError (r : Row) : (logIfError row s).pending r = s.pending r := by
  simp [pending]

@[simp] theorem attempted_logIfError : (logIfError row s).attempted = s.attempted := by
  unfold logIfError
  split <;> rfl

@[simp] theorem stored_logIfError : (logIfError row s).stored = s.stored := by
  unfold logIfError
  split <;> rfl

@[simp] theorem logged_logIfError : (logIfError row s).logged = s.logged := by
  unfold logIfError
  split <;> rfl

@[simp] theorem circuitOpen_logIfError : (logIfError row s).circuitOpen = s.circuitOpen := by
  unfold logIfError
  split <;> rfl

@[simp] theorem failureCount_logIfError : (logIfError row s).failureCount = s.failureCount := by
  unfold logIfError
  split <;> rfl

variable {row s}

theorem mem_logcat_logIfError {r : Row} (h : r ∈ s.logcat) : r ∈ (logIfError row s).logcat := by
  unfold logIfError
  split
  · exact List.mem_append_left _ h
  · exact h

/-- An error is written. -/
theorem mem_logcat_of_error (h : ERROR ≤ row.values.priority) :
    row ∈ (logIfError row s).logcat := by simp [logIfError, h]

end Fields

/-! ## 4. One attempt -/

variable {s s' : MyLog} {row r : Row} {attempt : ℕ} {inserted : Bool}

/-- Nothing has happened to the row from one state to the other. -/
structure SameFor (s s' : MyLog) (row : Row) : Prop where
  pending : s'.pending row = s.pending row
  attempted : s'.attempted.count row = s.attempted.count row
  stored : s'.stored.count row = s.stored.count row
  logged : row ∈ s'.logged ↔ row ∈ s.logged
  logcat : row ∈ s.logcat → row ∈ s'.logcat

theorem RowInv.congr (h : s.RowInv row) (hsame : SameFor s s' row) : s'.RowInv row := by
  rcases h with ⟨hnone, hsettled⟩ | ⟨attempt, hone, hwaiting⟩
  · refine Or.inl ⟨hsame.pending.trans hnone, ?_, ?_, ?_⟩
    · rw [hsame.attempted]
      exact hsettled.attempts
    · rw [hsame.stored]
      exact hsettled.stored
    · intro hlogged herror
      refine (hsettled.kept (hsame.logged.mp hlogged) herror).imp ?_ hsame.logcat
      intro hstored
      have hcount := List.count_pos_iff.mpr hstored
      rw [← hsame.stored] at hcount
      exact List.count_pos_iff.mp hcount
  · exact Or.inr ⟨attempt, hsame.pending.trans hone, hsame.attempted.trans hwaiting.attempts,
      hwaiting.le, hsame.stored.trans hwaiting.stored⟩

theorem Fresh.congr (h : s.Fresh row) (hsame : SameFor s s' row) : s'.Fresh row :=
  ⟨hsame.pending.trans h.pending, hsame.attempted.trans h.attempted, hsame.stored.trans h.stored,
    fun hlogged => h.logged (hsame.logged.mp hlogged)⟩

/-- **What an attempt comes to**: the row is dropped because the circuit is open, stored, dropped
with the circuit opening, queued once more, or dropped after the last attempt. -/
theorem insertWithRetry_cases (row : Row) (attempt : ℕ) (inserted : Bool) (s : MyLog) :
    s.circuitOpen = true ∧ insertWithRetry row attempt inserted s = logIfError row s ∨
    s.circuitOpen = false ∧
      (insertWithRetry row attempt inserted s = insertSucceeded row s ∨
      insertWithRetry row attempt inserted s =
        logIfError row (scheduleCircuitReset (openCircuit (insertFailed row s))) ∨
      s.failureCount + 1 < FAILURE_THRESHOLD ∧
        ((attempt < MAX_RETRIES ∧ ∃ delay, insertWithRetry row attempt inserted s =
          execute (.retry delay row (attempt + 1)) (insertFailed row s)) ∨
        insertWithRetry row attempt inserted s = logIfError row (insertFailed row s))) := by
  unfold insertWithRetry
  by_cases hopen : s.circuitOpen = true
  · exact Or.inl ⟨hopen, if_pos hopen⟩
  · refine Or.inr ⟨by simpa using hopen, ?_⟩
    rw [if_neg hopen]
    by_cases hins : inserted = true
    · exact Or.inl (if_pos hins)
    · rw [if_neg hins]
      by_cases hthreshold : (insertFailed row s).failureCount ≥ FAILURE_THRESHOLD
      · exact Or.inr (Or.inl (if_pos hthreshold))
      · refine Or.inr (Or.inr ⟨Nat.lt_of_not_le hthreshold, ?_⟩)
        rw [if_neg hthreshold]
        by_cases hattempt : attempt < MAX_RETRIES
        · have hdelays : attempt < RETRY_DELAYS_MS.length := hattempt
          refine Or.inl ⟨hattempt, RETRY_DELAYS_MS[attempt], ?_⟩
          rw [if_pos hattempt, scheduleRetry, Nat.add_sub_cancel, List.getElem?_eq_getElem hdelays]
        · exact Or.inr (if_neg hattempt)

/-- An attempt for one row is nothing to the others. -/
theorem sameFor_insertWithRetry (hne : row ≠ r) :
    SameFor s (insertWithRetry row attempt inserted s) r := by
  have hfailed : SameFor s (insertFailed row s) r :=
    ⟨rfl, by simp [insertFailed, hne], rfl, Iff.rfl, id⟩
  have hlog : ∀ t, SameFor s t r → SameFor s (logIfError row t) r := by
    intro t ht
    exact ⟨by simpa using ht.pending, by simpa using ht.attempted, by simpa using ht.stored,
      by simpa using ht.logged, fun h => mem_logcat_logIfError (ht.logcat h)⟩
  have hqueue : ∀ t task, Task.attemptOf r task = none → SameFor s t r →
      SameFor s (execute task t) r := by
    intro t task htask ht
    exact ⟨by simpa [htask] using ht.pending, ht.attempted, ht.stored, ht.logged, ht.logcat⟩
  rcases insertWithRetry_cases row attempt inserted s with
    ⟨-, h⟩ | ⟨-, h | h | ⟨-, ⟨-, delay, h⟩ | h⟩⟩ <;> rw [h]
  · exact hlog s ⟨rfl, rfl, rfl, Iff.rfl, id⟩
  · exact ⟨rfl, by simp [insertSucceeded, hne], by simp [insertSucceeded, hne], Iff.rfl, id⟩
  · exact hlog _ (hqueue _ _ rfl
      ⟨hfailed.pending, hfailed.attempted, hfailed.stored, hfailed.logged, hfailed.logcat⟩)
  · exact hqueue _ _ (if_neg hne) hfailed
  · exact hlog _ hfailed

@[simp] theorem logged_insertWithRetry :
    (insertWithRetry row attempt inserted s).logged = s.logged := by
  rcases insertWithRetry_cases row attempt inserted s with
    ⟨-, h⟩ | ⟨-, h | h | ⟨-, ⟨-, delay, h⟩ | h⟩⟩ <;> rw [h]
  · simp
  · rfl
  · simp [scheduleCircuitReset, execute, openCircuit, insertFailed]
  · rfl
  · simp [insertFailed]

/-- **An attempt for a row**: it is settled after it, or waits for the next one. -/
theorem rowInv_insertWithRetry (hpending : s.pending row = []) (hwaiting : s.Waiting row attempt) :
    (insertWithRetry row attempt inserted s).RowInv row := by
  obtain ⟨hattempts, hle, hstored⟩ := hwaiting
  have hMAX : MAX_RETRIES = 3 := rfl
  have hfailed : (insertFailed row s).attempted.count row = attempt + 1 := by
    simp [insertFailed, hattempts]
  -- a row that is dropped is written if it is an error
  have hdrop : ∀ t, t.pending row = [] → t.attempted.count row ≤ attempt + 1 →
      t.stored.count row = 0 → (logIfError row t).RowInv row := by
    intro t hpend hatt hsto
    refine Or.inl ⟨by simpa using hpend, ?_, ?_, ?_⟩
    · rw [attempted_logIfError]
      omega
    · rw [stored_logIfError, hsto]
      omega
    · exact fun _ herror => Or.inr (mem_logcat_of_error herror)
  rcases insertWithRetry_cases row attempt inserted s with
    ⟨-, h⟩ | ⟨-, h | h | ⟨-, ⟨hlt, delay, h⟩ | h⟩⟩ <;> rw [h]
  · exact hdrop s hpending (by omega) hstored
  · refine Or.inl ⟨hpending, ?_, ?_, ?_⟩
    · simp only [insertSucceeded, List.count_append, List.count_singleton_self, hattempts]
      omega
    · simp [insertSucceeded, hstored]
    · exact fun _ _ => Or.inl (by simp [insertSucceeded])
  · refine hdrop _ ?_ (Nat.le_of_eq hfailed) hstored
    rw [scheduleCircuitReset, pending_execute]
    exact (List.append_nil _).trans hpending
  · refine Or.inr ⟨attempt + 1, ?_, hfailed, hlt, hstored⟩
    have hnil : (insertFailed row s).pending row = [] := hpending
    simp [hnil, Task.attemptOf]
  · exact hdrop _ hpending (Nat.le_of_eq hfailed) hstored

/-- **The circuit after an attempt.** -/
theorem circuit_insertWithRetry
    (hreset : s.tasks.count .circuitReset = if s.circuitOpen then 1 else 0) :
    ((insertWithRetry row attempt inserted s).circuitOpen = false →
      (insertWithRetry row attempt inserted s).failureCount < FAILURE_THRESHOLD) ∧
    (insertWithRetry row attempt inserted s).tasks.count .circuitReset =
      if (insertWithRetry row attempt inserted s).circuitOpen then 1 else 0 := by
  rcases insertWithRetry_cases row attempt inserted s with
    ⟨hopen, h⟩ | ⟨hopen, h | h | ⟨hlt, ⟨-, delay, h⟩ | h⟩⟩ <;> rw [h] <;> rw [hopen] at hreset
  · simp [hopen, hreset]
  · have hnone : (insertSucceeded row s).tasks.count .circuitReset = 0 := hreset
    have hzero : (insertSucceeded row s).failureCount < FAILURE_THRESHOLD := Nat.zero_lt_succ _
    exact ⟨fun _ => hzero, by simp [hnone, hopen]⟩
  · have hnone : (openCircuit (insertFailed row s)).tasks.count .circuitReset = 0 := hreset
    have hopened : (scheduleCircuitReset (openCircuit (insertFailed row s))).circuitOpen = true :=
      rfl
    rw [circuitOpen_logIfError, hopened, tasks_logIfError, scheduleCircuitReset, tasks_execute,
      List.count_append, hnone]
    exact ⟨fun h => absurd h (by decide), rfl⟩
  · have hnone : (insertFailed row s).tasks.count .circuitReset = 0 := hreset
    exact ⟨fun _ => hlt, by simp [hnone, hopen]⟩
  · have hnone : (insertFailed row s).tasks.count .circuitReset = 0 := hreset
    refine ⟨fun _ => ?_, by simp [hnone, hopen]⟩
    rw [failureCount_logIfError]
    exact hlt

/-! ## 5. One event -/

/-- Logging a new row. -/
theorem Inv.storeLog (h : s.Inv) (values : LogEntry) : (s.storeLog values).Inv where
  closed := h.closed
  reset := by
    have htasks : (s.storeLog values).tasks = s.tasks ++ [.insert ⟨s.logged.length, values⟩] :=
      tasks_execute _ _
    rw [htasks, List.count_append, h.reset]
    rfl
  rows := by
    intro row
    have hpending : (s.storeLog values).pending row =
        s.pending row ++ (Task.attemptOf row (.insert ⟨s.logged.length, values⟩)).toList :=
      pending_execute _ _ _
    by_cases hrow : (⟨s.logged.length, values⟩ : Row) = row
    · subst hrow
      have hfresh := h.fresh ⟨s.logged.length, values⟩ (Nat.le_refl _)
      rw [hfresh.pending] at hpending
      refine Or.inr ⟨0, ?_, hfresh.attempted, Nat.zero_le _, hfresh.stored⟩
      rw [hpending]
      simp [Task.attemptOf]
    · refine (h.rows row).congr ⟨?_, rfl, rfl, ?_, id⟩
      · rw [hpending]
        simp [Task.attemptOf, hrow]
      · simp [MyLog.storeLog, execute, Ne.symm hrow]
  fresh := by
    intro row hid
    have hlength : (s.storeLog values).logged.length = s.logged.length + 1 := by
      simp [MyLog.storeLog, execute]
    rw [hlength] at hid
    have hrow : (⟨s.logged.length, values⟩ : Row) ≠ row := by
      rintro rfl
      simp at hid
    refine (h.fresh row (by omega)).congr ⟨?_, rfl, rfl, ?_, id⟩
    · have hpending := pending_execute (.insert ⟨s.logged.length, values⟩)
        { s with logged := s.logged ++ [⟨s.logged.length, values⟩] } row
      exact hpending.trans (by simp [Task.attemptOf, hrow, pending, tasks])
    · simp [MyLog.storeLog, execute, Ne.symm hrow]

/-- The executor takes its next task: what is to come is the same. -/
theorem Inv.start {task : Task} {queue : List Task} (h : s.Inv) (hrunning : s.running = none)
    (hqueue : s.queue = task :: queue) :
    ({ s with running := some task, queue := queue } : MyLog).Inv := by
  have htasks : ({ s with running := some task, queue := queue } : MyLog).tasks = s.tasks := by
    simp [tasks, hrunning, hqueue]
  have hpending : ∀ row, ({ s with running := some task, queue := queue } : MyLog).pending row =
      s.pending row := by
    intro row
    rw [pending, htasks, pending]
  exact ⟨h.closed, htasks ▸ h.reset,
    fun row => (h.rows row).congr ⟨hpending row, rfl, rfl, Iff.rfl, id⟩,
    fun row hid => (h.fresh row hid).congr ⟨hpending row, rfl, rfl, Iff.rfl, id⟩⟩

/-- A task about a row ends. -/
theorem Inv.ofAttempt {task : Task} (h : s.Inv) (hrunning : s.running = some task)
    (htask : task.attemptOf row = some attempt) (hothers : ∀ r, row ≠ r → task.attemptOf r = none)
    (hreset : task ≠ .circuitReset) :
    (insertWithRetry row attempt inserted { s with running := none }).Inv := by
  have htasks : s.tasks = task :: ({ s with running := none } : MyLog).tasks := by
    simp [tasks, hrunning]
  have hcircuit := @circuit_insertWithRetry { s with running := none } row attempt inserted
    (by rw [← h.reset, htasks, List.count_cons_of_ne hreset])
  have hpending : s.pending row = attempt :: ({ s with running := none } : MyLog).pending row := by
    simp [pending, htasks, htask]
  have hsame : ∀ r, row ≠ r → SameFor s { s with running := none } r := by
    intro r hne
    refine ⟨?_, rfl, rfl, Iff.rfl, id⟩
    simp [pending, htasks, hothers r hne]
  refine ⟨hcircuit.1, hcircuit.2, ?_, ?_⟩
  · intro r
    by_cases hne : row = r
    · subst hne
      -- the task that ends is the only one about the row
      rcases h.rows row with ⟨hnone, -⟩ | ⟨k, hone, hwaiting⟩
      · rw [hpending] at hnone
        cases hnone
      · rw [hpending] at hone
        obtain ⟨rfl, hnil⟩ := List.cons.inj hone
        exact rowInv_insertWithRetry hnil ⟨hwaiting.attempts, hwaiting.le, hwaiting.stored⟩
    · exact ((h.rows r).congr (hsame r hne)).congr (sameFor_insertWithRetry hne)
  · intro r hid
    rw [logged_insertWithRetry] at hid
    have hfresh := h.fresh r hid
    have hne : row ≠ r := by
      rintro rfl
      have hnil := hfresh.pending
      rw [hpending] at hnil
      cases hnil
    exact (hfresh.congr (hsame r hne)).congr (sameFor_insertWithRetry hne)

/-- The reset ends. -/
theorem Inv.circuitReset (h : s.Inv) (hrunning : s.running = some .circuitReset) :
    ({ s with running := none, circuitOpen := false, failureCount := 0 } : MyLog).Inv := by
  have htasks : s.tasks = .circuitReset ::
      ({ s with running := none, circuitOpen := false, failureCount := 0 } : MyLog).tasks := by
    simp [tasks, hrunning]
  have hpending : ∀ row, ({ s with
      running := none
      circuitOpen := false
      failureCount := 0 } : MyLog).pending row = s.pending row := by
    intro row
    rw [pending, pending, htasks, List.filterMap_cons_none rfl]
  refine ⟨fun _ => Nat.zero_lt_succ _, ?_,
    fun row => (h.rows row).congr ⟨hpending row, rfl, rfl, Iff.rfl, id⟩,
    fun row hid => (h.fresh row hid).congr ⟨hpending row, rfl, rfl, Iff.rfl, id⟩⟩
  -- there was one reset only, and it was this one
  have hreset := h.reset
  rw [htasks, List.count_cons_self] at hreset
  split at hreset
  · simpa using hreset
  · omega

/-- **One event keeps the invariant.** -/
theorem inv_act (s : MyLog) (e : Event) (h : s.Inv) : (s.act e).Inv := by
  cases e with
  | storeLog values => exact h.storeLog values
  | start =>
    rw [act]
    split
    · rename_i hrunning hqueue
      exact h.start hrunning hqueue
    · exact h
  | finish inserted =>
    rw [act]
    split
    · rename_i task hrunning
      cases task with
      | insert row =>
        exact h.ofAttempt hrunning (if_pos rfl) (fun r hne => if_neg hne) (by simp)
      | retry delay row attempt =>
        exact h.ofAttempt hrunning (if_pos rfl) (fun r hne => if_neg hne) (by simp)
      | circuitReset => exact h.circuitReset hrunning
    · exact h

/-! ## 6. Whole runs -/

/-- **Nothing is stored twice, tried too often or lost in silence.**  Through any run: a row is
stored once at most and tried `1 + MAX_RETRIES` times at most; the failure count of a closed
circuit is below the threshold, and an open one has one reset to come; and an error for which no
task is to come is stored or in the logcat. -/
theorem log_persistence (es : List Event) :
    let s := es.foldl act initial
    (∀ row, s.stored.count row ≤ 1 ∧ s.attempted.count row ≤ 1 + MAX_RETRIES) ∧
      (s.circuitOpen = false → s.failureCount < FAILURE_THRESHOLD) ∧
      (s.circuitOpen = true → s.tasks.count .circuitReset = 1) ∧
      ∀ row ∈ s.logged, ERROR ≤ row.values.priority → s.pending row = [] → row ∉ s.stored →
        row ∈ s.logcat := by
  intro s
  have h : s.Inv := foldl_invariant act inv_initial (fun s e hs => inv_act s e hs) es
  refine ⟨?_, h.closed, ?_, ?_⟩
  · intro row
    rcases h.rows row with ⟨-, hsettled⟩ | ⟨attempt, -, hwaiting⟩
    · exact ⟨hsettled.stored, hsettled.attempts⟩
    · have hle := hwaiting.le
      rw [hwaiting.stored, hwaiting.attempts]
      omega
  · intro hopen
    rw [h.reset, if_pos hopen]
  · intro row hlogged herror hpending hstored
    rcases h.rows row with ⟨-, hsettled⟩ | ⟨attempt, hone, -⟩
    · exact (hsettled.kept hlogged herror).resolve_left hstored
    · rw [hpending] at hone
      cases hone

end MyLog

end ShiroKhorshid.Log
