/-
# Who writes the settings, and whose update is lost

The preference store is shared.  The user interface edits the record it holds in memory and
saves it, a connect and a scan save their trials and their restore, and the service resets the
region when the core does not offer it.  The first three save the WHOLE record, each from a
snapshot of its own: the interface from the record it has in memory, a job from the record it
loaded when it began, minutes ago.

`AppState.intended` follows, field by field, what the last writer that meant to change a setting
wrote.  An edit means the fields its block changes, a trial and a restore mean the transport (and
the region, in a scan), the reset means the region; a load means nothing.  No update is lost as
long as the store agrees with that (`Kept`).

* A save of a whole record keeps `Kept` if and only if every field it does not mean is what the
  store has (`kept_saved_iff`, by the rules of `Lib.Record`): its snapshot is current.
* The other events are special cases of it or touch one key, so one step is decided in each of them
  (`kept_step_iff`).
* `no_lost_update_iff` lifts the equivalence to runs: a run keeps every update if and only if every
  snapshot was current when it was saved and no load found anything to migrate.

It is about any interleaving of any number of jobs and edits.  The condition `SnapshotCurrent` reads
the store and the snapshot before the step, and not what the step makes of them.
-/
import ShiroKhorshid.Lib.Transition
import ShiroKhorshid.Settings.Trials

namespace ShiroKhorshid.Settings

open Jvm Service Record Transition

/-! ## 1. The app -/

/-- The app as it stands when all jobs are suspended.  `intended` is kept for the statements
below; no step reads it. -/
structure AppState where
  store : Preferences
  /-- `azadiSettings`, the record the interface shows and edits. -/
  azadiSettings : AzadiSettings
  /-- The jobs that are suspended, the oldest first. -/
  jobs : List Job
  /-- `FindBestConnectionController.cancelled` -/
  cancelled : Bool
  /-- For each setting, what the last writer that meant to change it wrote. -/
  intended : AzadiSettings

/-- The activity has just been created. -/
def opened (p : Preferences) : AppState where
  store := migrated p
  azadiSettings := load p
  jobs := []
  cancelled := false
  intended := load p

inductive Event
  /-- An edit: `azadiSettings = saveField(azadiSettings, block)`, or `save` of an edited copy. -/
  | saveField (block : AzadiSettings → AzadiSettings)
  /-- The interface loads the settings anew (`applyBest` and `applyLanguage` do, then save). -/
  | reload
  /-- A load whose record is used at once and not kept (`performConnect`, the diagnostics). -/
  | load
  | connectWithInternetVerification (skipRecursiveFallback : Bool)
  | runScan (conduitAllowed : Bool)
  /-- The job goes on to its next suspension point. -/
  | resume (job : ℕ) (answer : Answer)
  /-- `FindBestConnectionController.cancel` -/
  | cancel
  /-- `onAvailableEgressRegions`, without the selected region. -/
  | onAvailableEgressRegions

/-- `load` migrates the store before it reads it. -/
def AppState.migrate (s : AppState) : AppState := { s with store := migrated s.store }

/-- A whole-record save, by a writer that means to change `changed`. -/
def AppState.saved (s : AppState) (settings : AzadiSettings) (changed : Field → Prop)
    [DecidablePred changed] : AppState :=
  { s with
    store := save s.store settings
    intended := layout.intend s.intended settings changed }

/-- What a job has saved in a step. -/
def AppState.commit (s : AppState) : Option Write → AppState
  | none => s
  | some w =>
    { s with
      store := w.commit s.store
      intended := layout.intend s.intended w.settings (· ∈ w.changed) }

/-- What has become of a job. -/
def AppState.suspend (s : AppState) (i : ℕ) : Option Job → AppState
  | none => { s with jobs := s.jobs.eraseIdx i }
  | some job => { s with jobs := s.jobs.set i job }

def step (s : AppState) : Event → Option AppState
  | .saveField block =>
    let updated := block s.azadiSettings
    some { s.saved updated (fun x => updated x ≠ s.azadiSettings x) with azadiSettings := updated }
  | .reload => some { s.migrate with azadiSettings := load s.store }
  | .load => some s.migrate
  | .connectWithInternetVerification skipRecursiveFallback =>
    let job := Connect.begin skipRecursiveFallback (load s.store)
    some { s.migrate with jobs := s.jobs ++ [.connect job] }
  | .runScan conduitAllowed =>
    let job := Scan.begin conduitAllowed (load s.store)
    some { s.migrate with jobs := s.jobs ++ [.scan job], cancelled := false }
  | .resume i answer =>
    s.jobs[i]?.bind fun job => (job.resume s.cancelled answer).map fun outcome =>
      (s.commit outcome.1).suspend i outcome.2
  | .cancel => some { s with cancelled := true }
  | .onAvailableEgressRegions =>
    some { s with
      store := put s.store "egressRegionPreference" ""
      intended := s.intended.copy .egressRegion "" }

/-! ## 2. Which steps lose nothing -/

/-- Every stored setting holds the value written by the last writer that meant to change it. -/
def AppState.Kept (s : AppState) : Prop := ∀ x, loadInternal s.store x = s.intended x

/-- A whole-record save writes a snapshot that is still current on the settings the writer leaves
alone, and a load finds nothing to migrate. -/
def SnapshotCurrent (s : AppState) : Event → Prop
  | .saveField block =>
    layout.Current s.store s.azadiSettings fun x => block s.azadiSettings x ≠ s.azadiSettings x
  | .reload => ¬ NeedsMigration s.store
  | .load => ¬ NeedsMigration s.store
  | .connectWithInternetVerification _ => ¬ NeedsMigration s.store
  | .runScan _ => ¬ NeedsMigration s.store
  | .resume i answer => ∀ job outcome, s.jobs[i]? = some job →
    job.resume s.cancelled answer = some outcome → outcome.1 ≠ none →
    layout.Current s.store job.original (· ∈ job.changed)
  | .cancel => True
  | .onAvailableEgressRegions => True

theorem kept_saved_iff {s : AppState} (h : s.Kept) (settings : AzadiSettings)
    (changed : Field → Prop) [DecidablePred changed] :
    (s.saved settings changed).Kept ↔ layout.Current s.store settings changed :=
  Layout.kept_save_iff h

theorem kept_saveField_iff {s : AppState} (h : s.Kept) (block : AzadiSettings → AzadiSettings) :
    (s.saved (block s.azadiSettings)
      (fun x => block s.azadiSettings x ≠ s.azadiSettings x)).Kept ↔
      SnapshotCurrent s (.saveField block) := by
  refine (kept_saved_iff h _ _).trans (Layout.Current.congr ?_)
  intro x hx
  exact not_not.mp hx

theorem kept_migrate_iff {s : AppState} (h : s.Kept) :
    s.migrate.Kept ↔ ¬ NeedsMigration s.store := by
  rw [← load_eq_loadInternal_iff]
  refine forall_congr' ?_
  intro x
  rw [h x]
  rfl

theorem kept_commit_iff {s : AppState} (h : s.Kept) {job : Job} {w : Write}
    (hw : w.Touches job.original job.changed) :
    (s.commit (some w)).Kept ↔ layout.Current s.store job.original (· ∈ job.changed) := by
  have hsaved : s.commit (some w) = s.saved w.settings (· ∈ w.changed) := by
    rw [AppState.commit, AppState.saved, Job.commit_eq_save hw]
  rw [hsaved, kept_saved_iff h, hw.1]
  exact Layout.Current.congr hw.2

/-- What happens to the job is not seen in the store. -/
theorem kept_suspend_iff (s : AppState) (i : ℕ) (next : Option Job) :
    (s.suspend i next).Kept ↔ s.Kept := by
  cases next <;> rfl

theorem kept_egressRegion {s : AppState} (h : s.Kept) :
    ∀ x, loadInternal (put s.store "egressRegionPreference" "") x
      = s.intended.copy .egressRegion "" x :=
  Layout.kept_put (L := layout) (x := .egressRegion) (List.mem_singleton_self _) "" h

/-- **One step, exactly.**  From a state in which nothing is lost, a step loses nothing if and
only if its snapshot is current. -/
theorem kept_step_iff {s t : AppState} {e : Event} (h : s.Kept) (hst : step s e = some t) :
    t.Kept ↔ SnapshotCurrent s e := by
  cases e with
  | saveField block =>
    obtain rfl := Option.some.inj hst
    exact kept_saveField_iff h block
  | reload =>
    obtain rfl := Option.some.inj hst
    exact kept_migrate_iff h
  | load =>
    obtain rfl := Option.some.inj hst
    exact kept_migrate_iff h
  | connectWithInternetVerification skipRecursiveFallback =>
    obtain rfl := Option.some.inj hst
    exact kept_migrate_iff h
  | runScan conduitAllowed =>
    obtain rfl := Option.some.inj hst
    exact kept_migrate_iff h
  | resume i answer =>
    obtain ⟨job, hjob, hresume⟩ := Option.bind_eq_some_iff.mp hst
    obtain ⟨⟨write, next⟩, houtcome, rfl⟩ := Option.map_eq_some_iff.mp hresume
    rw [kept_suspend_iff]
    cases write with
    | none =>
      -- the step saves nothing, so it asks for nothing
      refine iff_of_true h ?_
      intro job' outcome' hjob' houtcome' hne
      obtain rfl := Option.some.inj (hjob.symm.trans hjob')
      obtain rfl := Option.some.inj (houtcome.symm.trans houtcome')
      exact absurd rfl hne
    | some w =>
      rw [kept_commit_iff h ((Job.resume_respects houtcome).1 w rfl)]
      constructor
      · intro hcur job' outcome' hjob' _ _
        obtain rfl := Option.some.inj (hjob.symm.trans hjob')
        exact hcur
      · intro hcur
        exact hcur job _ hjob houtcome (Option.some_ne_none w)
  | cancel =>
    obtain rfl := Option.some.inj hst
    exact iff_of_true h trivial
  | onAvailableEgressRegions =>
    obtain rfl := Option.some.inj hst
    exact iff_of_true (kept_egressRegion h) trivial

/-! ## 3. Whole runs -/

/-- **No lost update.**  In every run of the app, whatever the interleaving, every stored setting
holds throughout what its last deliberate writer wrote, if and only if every snapshot was current
when it was saved and no load found anything to migrate. -/
theorem no_lost_update_iff (p : Preferences) {es : List Event} {t : AppState}
    (h : exec step (opened p) es = some t) :
    (∀ done s, done <+: es → exec step (opened p) done = some s → s.Kept) ↔
      Run step SnapshotCurrent (opened p) es t :=
  @forall_prefix_iff_run _ _ step SnapshotCurrent (fun _ => True) AppState.Kept (opened p) trivial
    (fun _ => rfl) (fun _ _ _ _ _ => trivial) (fun _ _ _ _ hkept hst => kept_step_iff hkept hst)
    es t h

/-- A setting is edited, and then the service resets the region. -/
theorem no_lost_update_edit_reset :
    ∃ t, exec step (opened fun _ => none)
        [.saveField fun s => s.copy .autoReconnect false, .onAvailableEgressRegions] = some t ∧
      ((∀ done s, done <+: [Event.saveField fun s => s.copy .autoReconnect false,
          .onAvailableEgressRegions] →
          exec step (opened fun _ => none) done = some s → s.Kept) ↔
        Run step SnapshotCurrent (opened fun _ => none)
          [.saveField fun s => s.copy .autoReconnect false, .onAvailableEgressRegions] t) :=
  ⟨_, rfl, no_lost_update_iff _ rfl⟩

/-- **A lost update.**  While a scan waits for its first tunnel the user turns automatic
reconnection off.  The scan is cancelled, its restore saves the record it loaded when it began,
and automatic reconnection is on again. -/
theorem edit_lost_to_restore :
    ∃ t, exec step (opened fun _ => none)
        [.runScan false, .resume 0 .done, .saveField fun s => s.copy .autoReconnect false,
          .cancel, .resume 0 .done, .resume 0 (.started false), .resume 0 .done] = some t ∧
      t.jobs = [] ∧ t.intended .autoReconnect = false ∧
      loadInternal t.store .autoReconnect = true :=
  ⟨_, rfl, rfl, rfl, rfl⟩

/-! ## 4. Where nothing is lost

A snapshot is current when it is taken, and a job's own saves keep it so: it takes another writer
between the load and the save to make it stale. -/

theorem saveField_after_reload {s t : AppState} (h : step s .reload = some t)
    (block : AzadiSettings → AzadiSettings) : SnapshotCurrent t (.saveField block) := by
  obtain rfl := Option.some.inj h
  exact current_loadInternal (migrated s.store) _

/-- The job at `i` is the youngest and has, if it is still there, a current snapshot. -/
def AppState.JobCurrent (i : ℕ) (s : AppState) : Prop :=
  s.jobs.length ≤ i + 1 ∧
    ∀ job, s.jobs[i]? = some job → layout.Current s.store job.original (· ∈ job.changed)

/-- The event begins a job. -/
def Event.Begins : Event → Prop
  | .connectWithInternetVerification _ => True
  | .runScan _ => True
  | _ => False

/-- The event is a step of job `i`, or asks a scan to end. -/
def Event.Concerns (i : ℕ) : Event → Prop
  | .resume j _ => j = i
  | .cancel => True
  | _ => False

theorem current_commit {s : AppState} {job : Job} {w : Write}
    (hw : w.Touches job.original job.changed) :
    layout.Current (s.commit (some w)).store job.original (· ∈ job.changed) := by
  have hcur : layout.Current (w.commit s.store) w.settings (· ∈ job.changed) := by
    rw [Job.commit_eq_save hw]
    exact layout.current_save s.store w.settings _
  exact (Layout.Current.congr hw.2).mp hcur

theorem jobCurrent_begin {s t : AppState} {e : Event} (he : e.Begins)
    (hst : step s e = some t) : t.JobCurrent s.jobs.length := by
  have hbegin : ∀ job : Job, job.original = load s.store → t.store = migrated s.store →
      t.jobs = s.jobs ++ [job] → t.JobCurrent s.jobs.length := by
    intro job horiginal hstore hjobs
    refine ⟨by rw [hjobs, List.length_append]; exact Nat.le_refl _, ?_⟩
    intro job' hjob'
    rw [hjobs, List.getElem?_concat_length] at hjob'
    obtain rfl := Option.some.inj hjob'
    rw [horiginal, hstore]
    exact current_loadInternal (migrated s.store) _
  cases e with
  | connectWithInternetVerification skipRecursiveFallback =>
    obtain rfl := Option.some.inj hst
    exact hbegin (.connect (Connect.begin skipRecursiveFallback (load s.store))) rfl rfl rfl
  | runScan conduitAllowed =>
    obtain rfl := Option.some.inj hst
    exact hbegin (.scan (Scan.begin conduitAllowed (load s.store))) rfl rfl rfl
  | _ => exact he.elim

theorem jobCurrent_step {i : ℕ} {s t : AppState} {e : Event} (h : s.JobCurrent i)
    (he : e.Concerns i) (hst : step s e = some t) : SnapshotCurrent s e ∧ t.JobCurrent i := by
  obtain ⟨hlast, hcur⟩ := h
  cases e with
  | resume j answer =>
    obtain rfl : j = i := he
    refine ⟨fun job outcome hjob _ _ => hcur job hjob, ?_⟩
    obtain ⟨job, hjob, hresume⟩ := Option.bind_eq_some_iff.mp hst
    obtain ⟨⟨write, next⟩, houtcome, rfl⟩ := Option.map_eq_some_iff.mp hresume
    have hrespects := Job.resume_respects houtcome
    have hjobs : (s.commit write).jobs = s.jobs := by cases write <;> rfl
    have hlt : j < s.jobs.length := (List.getElem?_eq_some_iff.mp hjob).1
    cases next with
    | none =>
      -- the job was the last of the list, so nothing takes its place
      constructor
      · change ((s.commit write).jobs.eraseIdx j).length ≤ j + 1
        rw [hjobs]
        exact (List.length_eraseIdx_le _ _).trans hlast
      · intro job' hjob'
        change ((s.commit write).jobs.eraseIdx j)[j]? = some job' at hjob'
        rw [hjobs] at hjob'
        have hlt' := (List.getElem?_eq_some_iff.mp hjob').1
        rw [List.length_eraseIdx_of_lt hlt] at hlt'
        omega
    | some next =>
      constructor
      · change ((s.commit write).jobs.set j next).length ≤ j + 1
        rw [hjobs, List.length_set]
        exact hlast
      · intro job' hjob'
        change ((s.commit write).jobs.set j next)[j]? = some job' at hjob'
        rw [hjobs, List.getElem?_set_self hlt] at hjob'
        obtain rfl := Option.some.inj hjob'
        rw [hrespects.2 _ rfl, Job.resume_changed houtcome]
        change layout.Current (s.commit write).store job.original _
        cases write with
        | none => exact hcur job hjob
        | some w => exact current_commit (hrespects.1 w rfl)
  | cancel =>
    obtain rfl := Option.some.inj hst
    exact ⟨trivial, hlast, hcur⟩
  | _ => exact he.elim

/-- **A job that is left alone loses nothing.**  A connect or a scan begins where nothing is to be
migrated, and until it ends no other writer comes in between. -/
theorem kept_of_undisturbed {s s' t : AppState} {e : Event} {es : List Event} (hkept : s.Kept)
    (hmigrated : ¬ NeedsMigration s.store) (he : e.Begins) (hst : step s e = some s')
    (hes : ∀ e ∈ es, e.Concerns s.jobs.length) (h : exec step s' es = some t) : t.Kept := by
  have hcur : SnapshotCurrent s e := by
    cases e with
    | connectWithInternetVerification _ => exact hmigrated
    | runScan _ => exact hmigrated
    | _ => exact he.elim
  have hkept' : s'.Kept := (kept_step_iff hkept hst).mpr hcur
  have hrun : Run step SnapshotCurrent s' es t :=
    (@run_of_exec_invariant _ _ step SnapshotCurrent _ _ s' t es (jobCurrent_begin he hst)
      (fun _ _ _ hinv hconcerns hstep => jobCurrent_step hinv hconcerns hstep) hes h).1
  exact hrun.invariant hkept' fun _ _ _ hs hok hstep => (kept_step_iff hs hstep).mpr hok

end ShiroKhorshid.Settings
