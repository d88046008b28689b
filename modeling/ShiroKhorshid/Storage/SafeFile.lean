/-
# Saving and loading a file

`SafeFileStorage` keeps one value in one file.  `save` writes a temporary file, syncs it and
renames it over the final one; `load` reads the final one.  Both take a lock on a third file first,
`save` an exclusive one and `load` a shared one.  The lock is the process's: while one call holds
it, the next one of the same process may be refused it with an exception, whichever kind either
asked for.

`SafeFile` runs any number of calls next to each other, one step at a time, with a crash possible
between any two steps.  A save that is refused the lock reports it and changes nothing.  A load
that is refused it returns the default value, and that is where the data can go missing.

The invariant is about files, not names.  A file that has been renamed to the final name never
changes again (`Published`), since whoever writes has opened the temporary name; the one a save is
writing is none of them, as long as no save opens the temporary name while another one is between
opening and renaming it (`Own`).  A step changes one call and at most one file, so its lemma speaks
of that call, and what it leaves to the others is said once (`InvWith.others`).

`load_returns_latest` says that nothing else can go wrong: in a run where every load gets its lock
once there is something to lose, and the temporary file is never opened twice, every load returns
the data of the last save that was renamed.  `refused_load_loses_data` is the shortest run in which
a refused lock loses it.

What a crash leaves of a file that was not synced is anything at all; a file that was renamed had
been synced before.  The format of the value is a parameter with its round trip.
-/
import ShiroKhorshid.Lib.Files
import ShiroKhorshid.Lib.Transition

namespace ShiroKhorshid.Storage

open Files Transition

/-! ## 1. The state -/

/-- What a subclass supplies: its reader gives back what its writer was given. -/
structure Format (T : Type*) where
  writeDataToStream : T → List UInt8
  readDataFromStream : List UInt8 → T
  getDefaultValue : T
  read_write : ∀ d, readDataFromStream (writeDataToStream d) = d

/-- The two files of the data; of the lock file only the lock matters. -/
inductive FileName
  | temp
  | final
deriving DecidableEq

/-- How `channel.lock` ends. -/
inductive LockOutcome
  | granted
  /-- `OverlappingFileLockException`: the process already holds a lock -/
  | overlapping
  | ioException
deriving DecidableEq

/-- What a call of `load` returned, and the last data to have been saved when it was decided. -/
structure Loaded (T : Type*) where
  value : T
  latest : Option T
deriving DecidableEq

/-- Where a thread stands: in which call, and before which step of it. -/
inductive Call (T : Type*)
  | idle
  /-- `save`, before `channel.lock` -/
  | saveLock (data : T)
  /-- before the `FileOutputStream` is made -/
  | saveOpen (data : T)
  /-- with these bytes left to write -/
  | saveWrite (data : T) (fd : ℕ) (rest : List UInt8)
  /-- synced, before the streams are closed -/
  | saveClose (data : T) (fd : ℕ)
  | saveRename (data : T) (fd : ℕ)
  /-- in the `finally` that deletes the temporary file -/
  | saveCleanUp
  | saveRelease
  /-- `load`, before `channel.lock` -/
  | loadLock
  | loadExists
  | loadOpen
  | loadRead (fd : ℕ) (latest : Option T)
  | loadRelease (result : Loaded T)

/-- The call has the temporary file open, or has closed it and not renamed it yet. -/
def Call.OwnsTemp {T : Type*} : Call T → Prop
  | .saveWrite _ _ _ | .saveClose _ _ | .saveRename _ _ => True
  | _ => False

/-- One step of a thread. -/
inductive Action (T : Type*)
  | save (data : T)
  | load
  | lock (outcome : LockOutcome)
  /-- `new FileOutputStream(tempFile)`, which can fail -/
  | openTemp (ok : Bool)
  /-- the next `n` bytes -/
  | write (n : ℕ)
  | sync
  | close
  | renameTo
  /-- an `IOException` while writing, syncing or closing, or a `renameTo` that returns false -/
  | fail
  /-- `tempFile.delete()`, which can return false -/
  | delete (ok : Bool)
  /-- `file.exists()` -/
  | checkExists
  | openFinal
  | read
  | release

inductive Event (T : Type*)
  | thread (t : ℕ) (a : Action T)
  /-- the process ends, and with it every call; what had not been synced may be damaged -/
  | crash (damage : ℕ → List UInt8)

/-- `latest` and `returned` are kept for the statements: the data of the last save whose rename
succeeded, and what every finished load returned. -/
structure SafeFile (T : Type*) where
  fs : FileSystem FileName
  /-- the threads whose call holds a lock on the lock file -/
  holders : List ℕ
  calls : ℕ → Call T
  latest : Option T
  returned : List (Loaded T)

namespace SafeFile

variable {T : Type*}

/-- No files and no calls. -/
def initial : SafeFile T := ⟨.empty, [], fun _ => .idle, none, []⟩

/-- The thread goes on to another step. -/
def goTo (s : SafeFile T) (t : ℕ) (c : Call T) : SafeFile T :=
  { s with calls := Function.update s.calls t c }

def hold (s : SafeFile T) (t : ℕ) : SafeFile T := { s with holders := t :: s.holders }

def unhold (s : SafeFile T) (t : ℕ) : SafeFile T := { s with holders := s.holders.erase t }

/-- A call of `load` returns. -/
def give (s : SafeFile T) (r : Loaded T) : SafeFile T := { s with returned := s.returned ++ [r] }

variable (fmt : Format T)

/-- What `load` returns when it reads nothing. -/
def absent (s : SafeFile T) : Loaded T := ⟨fmt.getDefaultValue, s.latest⟩

/-- A step of `save`. -/
def saveStep (s : SafeFile T) (t : ℕ) : Action T → Call T → Option (SafeFile T)
  | .save data, .idle => some (s.goTo t (.saveLock data))
  | .lock .granted, .saveLock data => some ((s.hold t).goTo t (.saveOpen data))
  | .lock .overlapping, .saveLock _ => if s.holders = [] then none else some (s.goTo t .idle)
  | .lock .ioException, .saveLock _ => some (s.goTo t .idle)
  | .openTemp true, .saveOpen data =>
      some ({ s with fs := (s.fs.openTruncate .temp).2 }.goTo t
        (.saveWrite data (s.fs.openTruncate .temp).1 (fmt.writeDataToStream data)))
  | .openTemp false, .saveOpen _ => some (s.goTo t .saveCleanUp)
  | .write n, .saveWrite data fd rest =>
      some ({ s with fs := s.fs.append fd (rest.take n) }.goTo t
        (.saveWrite data fd (rest.drop n)))
  | .sync, .saveWrite data fd [] =>
      some ({ s with fs := s.fs.sync fd }.goTo t (.saveClose data fd))
  | .close, .saveClose data fd => some (s.goTo t (.saveRename data fd))
  | .renameTo, .saveRename data _ =>
      if s.fs.dir .temp = none then none
      else some ({ s with fs := s.fs.rename .temp .final, latest := some data }.goTo t .saveCleanUp)
  | .fail, .saveWrite _ _ _ | .fail, .saveClose _ _ | .fail, .saveRename _ _ =>
      some (s.goTo t .saveCleanUp)
  | .delete true, .saveCleanUp =>
      some ({ s with fs := s.fs.delete .temp }.goTo t .saveRelease)
  | .delete false, .saveCleanUp => some (s.goTo t .saveRelease)
  | .release, .saveRelease => some ((s.unhold t).goTo t .idle)
  | _, _ => none

/-- A step of `load`. -/
def loadStep (s : SafeFile T) (t : ℕ) : Action T → Call T → Option (SafeFile T)
  | .load, .idle => some (s.goTo t .loadLock)
  | .lock .granted, .loadLock => some ((s.hold t).goTo t .loadExists)
  | .lock .overlapping, .loadLock =>
      if s.holders = [] then none else some ((s.give (s.absent fmt)).goTo t .idle)
  | .lock .ioException, .loadLock => some ((s.give (s.absent fmt)).goTo t .idle)
  | .checkExists, .loadExists =>
      if s.fs.dir .final = none then some (s.goTo t (.loadRelease (s.absent fmt)))
      else some (s.goTo t .loadOpen)
  | .openFinal, .loadOpen =>
      match s.fs.dir .final with
      | some fd => some (s.goTo t (.loadRead fd s.latest))
      | none => some (s.goTo t (.loadRelease (s.absent fmt)))
  | .read, .loadRead fd latest =>
      some (s.goTo t (.loadRelease ⟨fmt.readDataFromStream (s.fs.inode fd).content, latest⟩))
  | .release, .loadRelease result => some (((s.give result).unhold t).goTo t .idle)
  | _, _ => none

def step (s : SafeFile T) : Event T → Option (SafeFile T)
  | .thread t a => (s.saveStep fmt t a (s.calls t)).or (s.loadStep fmt t a (s.calls t))
  | .crash damage =>
      some { s with fs := s.fs.crash damage, holders := [], calls := fun _ => .idle }

theorem calls_goTo_of_ne {s : SafeFile T} {t u : ℕ} {c : Call T} (h : u ≠ t) :
    (s.goTo t c).calls u = s.calls u := by
  simp [goTo, h]

/-! ## 2. What is to be shown -/

/-- A load gives the data of the last save, and the default value when there was none. -/
def Right (r : Loaded T) : Prop := r.value = r.latest.getD fmt.getDefaultValue

/-- The steps that do no harm.  A load gets its lock, or has nothing but the default value to
return; and no save opens the temporary file while another one has it. -/
def Ok (s : SafeFile T) : Event T → Prop
  | .thread t (.lock outcome) =>
      s.calls t = .loadLock → outcome = .granted ∨
        s.latest.getD fmt.getDefaultValue = fmt.getDefaultValue
  | .thread _ (.openTemp true) => ∀ u, ¬ (s.calls u).OwnsTemp
  | _ => True

/-! ## 3. The invariant

`pub` names the files that have ever been renamed to the final name, and the data they were
renamed with.  Such a file never changes again; the one a save is writing is none of them. -/

section Invariant

variable {fmt} {pub pub' : ℕ → Option T} {fs : FileSystem FileName} {s s' : SafeFile T} {t : ℕ}
  {c : Call T}

/-- The file a save is writing: not published, and nothing else has the temporary name. -/
structure Own (pub : ℕ → Option T) (fs : FileSystem FileName) (fd : ℕ) : Prop where
  lt : fd < fs.next
  unpublished : pub fd = none
  temp : ∀ i, fs.dir .temp = some i → i = fd

/-- What holds of a call. -/
def CallInv (fmt : Format T) (pub : ℕ → Option T) (fs : FileSystem FileName) : Call T → Prop
  | .saveWrite data fd rest =>
      Own pub fs fd ∧ (fs.inode fd).content ++ rest = fmt.writeDataToStream data
  | .saveClose data fd | .saveRename data fd =>
      Own pub fs fd ∧ fs.inode fd = ⟨fmt.writeDataToStream data, true⟩
  | .loadRead fd latest => ∃ data, latest = some data ∧ pub fd = some data
  | .loadRelease result => Right fmt result
  | _ => True

/-- The published files are on the disk, and none of them has the temporary name. -/
def Published (fmt : Format T) (pub : ℕ → Option T) (fs : FileSystem FileName) : Prop :=
  ∀ i data, pub i = some data →
    fs.Stored i (fmt.writeDataToStream data) ∧ fs.dir .temp ≠ some i

/-- The final name stands for the last data saved. -/
def FinalInv (pub : ℕ → Option T) (fs : FileSystem FileName) (latest : Option T) : Prop :=
  match fs.dir .final with
  | some i => ∃ data, pub i = some data ∧ latest = some data
  | none => latest = none

structure InvWith (fmt : Format T) (pub : ℕ → Option T) (s : SafeFile T) : Prop where
  published : Published fmt pub s.fs
  final : FinalInv pub s.fs s.latest
  calls : ∀ t, CallInv fmt pub s.fs (s.calls t)
  owner : ∀ t u, (s.calls t).OwnsTemp → (s.calls u).OwnsTemp → t = u
  returned : ∀ r ∈ s.returned, Right fmt r

/-- The invariant of a run. -/
def Inv (fmt : Format T) (s : SafeFile T) : Prop := ∃ pub, InvWith fmt pub s

theorem inv_initial : Inv fmt (initial : SafeFile T) :=
  ⟨fun _ => none, by simp [Published], by simp [FinalInv, initial, FileSystem.empty],
    fun _ => trivial, fun _ _ h => h.elim, by simp [initial]⟩

/-- With no file under the final name nothing has been saved. -/
theorem InvWith.right_absent (h : InvWith fmt pub s) (hnone : s.fs.dir .final = none) :
    Right fmt (s.absent fmt) := by
  have hf := h.final
  simp only [FinalInv, hnone] at hf
  simp [Right, absent, hf]

/-- A call that has no hold on the temporary file does not see the file system. -/
theorem callInv_of_not_ownsTemp (hc : ¬ c.OwnsTemp) (hpub : ∀ i d, pub i = some d → pub' i = some d)
    {fs' : FileSystem FileName} (h : CallInv fmt pub fs c) : CallInv fmt pub' fs' c := by
  cases c with
  | loadRead fd latest =>
    obtain ⟨data, hlatest, hfd⟩ := h
    exact ⟨data, hlatest, hpub fd data hfd⟩
  | saveWrite | saveClose | saveRename => exact absurd trivial hc
  | _ => exact h

/-- A step that leaves the files alone. -/
theorem InvWith.goTo (h : InvWith fmt pub s) (hc : CallInv fmt pub s.fs c)
    (hown : c.OwnsTemp → (s.calls t).OwnsTemp) : InvWith fmt pub (s.goTo t c) where
  published := h.published
  final := h.final
  calls := by
    intro u
    by_cases hu : u = t
    · subst hu
      simpa [SafeFile.goTo] using hc
    · simpa [SafeFile.goTo, hu] using h.calls u
  owner := by
    have hback : ∀ u, ((s.goTo t c).calls u).OwnsTemp → (s.calls u).OwnsTemp := by
      intro u hu
      by_cases hut : u = t
      · subst hut
        exact hown (by simpa [SafeFile.goTo] using hu)
      · simpa [SafeFile.goTo, hut] using hu
    intro u v hu hv
    exact h.owner u v (hback u hu) (hback v hv)
  returned := h.returned

/-- A step of the one call that has the temporary file, or of any call when none has. -/
theorem InvWith.change {fs' : FileSystem FileName} {latest' : Option T} (h : InvWith fmt pub s)
    (hothers : ∀ u, u ≠ t → ¬ (s.calls u).OwnsTemp)
    (hpub : ∀ i d, pub i = some d → pub' i = some d) (hpublished : Published fmt pub' fs')
    (hfinal : FinalInv pub' fs' latest') (hc : CallInv fmt pub' fs' c) :
    InvWith fmt pub' ({ s with fs := fs', latest := latest' }.goTo t c) where
  published := hpublished
  final := hfinal
  calls := by
    intro u
    by_cases hu : u = t
    · subst hu
      simpa [SafeFile.goTo] using hc
    · have hcall : CallInv fmt pub' fs' (s.calls u) :=
        callInv_of_not_ownsTemp (hothers u hu) hpub (h.calls u)
      simpa [SafeFile.goTo, hu] using hcall
  owner := by
    have honly : ∀ u, (({ s with fs := fs', latest := latest' }.goTo t c).calls u).OwnsTemp →
        u = t := by
      intro u hu
      by_contra hut
      exact hothers u hut (by simpa [SafeFile.goTo, hut] using hu)
    intro u v hu hv
    rw [honly u hu, honly v hv]
  returned := h.returned

/-! ## 4. One step -/

/-- The others have no hold on the temporary file while one call has it. -/
theorem InvWith.others (h : InvWith fmt pub s) (ht : (s.calls t).OwnsTemp) :
    ∀ u, u ≠ t → ¬ (s.calls u).OwnsTemp := fun u hne hu => hne (h.owner u t hu ht)

/-- The call writes to its file. -/
theorem InvWith.write {fd : ℕ} (h : InvWith fmt pub s) (ht : (s.calls t).OwnsTemp)
    (hown : Own pub s.fs fd) (f : Inode)
    (hc : CallInv fmt pub (s.fs.put fd f) c) :
    InvWith fmt pub ({ s with fs := s.fs.put fd f }.goTo t c) := by
  have hne : ∀ i data, pub i = some data → i ≠ fd := by
    rintro i data hi rfl
    rw [hown.unpublished] at hi
    cases hi
  refine h.change (h.others ht) (fun _ _ h => h) ?_ h.final hc
  intro i data hi
  obtain ⟨hstored, htemp⟩ := h.published i data hi
  exact ⟨hstored.put (hne i data hi) f, htemp⟩

theorem Own.put {fd i : ℕ} (h : Own pub fs fd) (f : Inode) : Own pub (fs.put i f) fd :=
  ⟨h.lt, h.unpublished, h.temp⟩

/-- Opening the temporary file, with no other call having it. -/
theorem InvWith.openTemp {data : T} (h : InvWith fmt pub s)
    (hnone : ∀ u, ¬ (s.calls u).OwnsTemp) :
    InvWith fmt pub ({ s with fs := (s.fs.openTruncate .temp).2 }.goTo t
      (.saveWrite data (s.fs.openTruncate .temp).1 (fmt.writeDataToStream data))) := by
  have hfinal : (s.fs.openTruncate .temp).2.dir .final = s.fs.dir .final :=
    FileSystem.dir_openTruncate_of_ne (by decide)
  -- the file that is opened had the temporary name or is new, so it is no published one
  have hunpub : pub (s.fs.openTruncate .temp).1 = none := by
    cases hpub : pub (s.fs.openTruncate .temp).1 with
    | none => rfl
    | some data =>
      obtain ⟨hstored, htemp⟩ := h.published _ data hpub
      rcases (FileSystem.openTruncate_eq_or : s.fs.dir .temp = _ ∨ _) with hdir | hnew
      · exact absurd hdir htemp
      · exact absurd hnew (Nat.ne_of_lt hstored.1)
  refine h.change (fun u _ => hnone u) (fun _ _ h => h) ?_ ?_ ?_
  · intro i data hi
    obtain ⟨hstored, htemp⟩ := h.published i data hi
    refine ⟨hstored.openTruncate htemp, ?_⟩
    rw [FileSystem.dir_openTruncate]
    intro heq
    rw [Option.some.injEq] at heq
    rw [heq, hi] at hunpub
    cases hunpub
  · simpa [FinalInv, hfinal] using h.final
  · refine ⟨⟨FileSystem.openTruncate_lt, hunpub, ?_⟩, ?_⟩
    · intro i hi
      rw [FileSystem.dir_openTruncate] at hi
      exact (Option.some.inj hi).symm
    · simp [FileSystem.content_openTruncate]

/-- The rename publishes the file. -/
theorem InvWith.rename {data : T} {fd : ℕ} (h : InvWith fmt pub s)
    (hcall : s.calls t = .saveRename data fd) (htemp : s.fs.dir .temp ≠ none) :
    Inv fmt ({ s with
      fs := s.fs.rename .temp .final
      latest := some data }.goTo t .saveCleanUp) := by
  have hown : (s.calls t).OwnsTemp := by rw [hcall]; trivial
  obtain ⟨hfd, hcontent⟩ : CallInv fmt pub s.fs (.saveRename data fd) := hcall ▸ h.calls t
  -- the temporary name still stands for the file this call wrote
  have hdir : s.fs.dir .temp = some fd := by
    obtain ⟨i, hi⟩ := Option.ne_none_iff_exists'.mp htemp
    rw [hi, hfd.temp i hi]
  have hpub : ∀ i d, pub i = some d → Function.update pub fd (some data) i = some d := by
    intro i d hi
    have hne : i ≠ fd := by
      rintro rfl
      rw [hfd.unpublished] at hi
      cases hi
    rw [Function.update_of_ne hne, hi]
  refine ⟨Function.update pub fd (some data), h.change (h.others hown) hpub ?_ ?_ trivial⟩
  · intro i d hi
    refine ⟨?_, by simp⟩
    by_cases hne : i = fd
    · subst hne
      rw [Function.update_self, Option.some.injEq] at hi
      subst hi
      exact ⟨hfd.lt, hcontent⟩
    · rw [Function.update_of_ne hne] at hi
      exact ⟨(h.published i d hi).1.1, (h.published i d hi).1.2⟩
  · simp [FinalInv, FileSystem.dir_rename, hdir]

/-- Deleting the temporary file takes its name from whoever has it, and nothing else. -/
theorem InvWith.delete (h : InvWith fmt pub s) :
    InvWith fmt pub { s with fs := s.fs.delete .temp } where
  published := fun i data hi =>
    ⟨⟨(h.published i data hi).1.1, (h.published i data hi).1.2⟩, by simp⟩
  final := by
    have hdir : (s.fs.delete .temp).dir .final = s.fs.dir .final :=
      FileSystem.dir_delete_of_ne (by decide)
    simpa [FinalInv, hdir] using h.final
  calls := by
    intro u
    have hown : ∀ fd, Own pub s.fs fd → Own pub (s.fs.delete .temp) fd :=
      fun fd hfd => ⟨hfd.lt, hfd.unpublished, by simp⟩
    have hu := h.calls u
    cases hc : s.calls u with
    | saveWrite | saveClose | saveRename =>
      rw [hc] at hu
      exact ⟨hown _ hu.1, hu.2⟩
    | _ =>
      rw [hc] at hu
      exact hu
  owner := h.owner
  returned := h.returned

/-- The locks are no part of the invariant. -/
theorem InvWith.withHolders (h : InvWith fmt pub s) (l : List ℕ) :
    InvWith fmt pub { s with holders := l } := ⟨h.published, h.final, h.calls, h.owner, h.returned⟩

theorem InvWith.give (h : InvWith fmt pub s) {r : Loaded T} (hr : Right fmt r) :
    InvWith fmt pub (s.give r) where
  published := h.published
  final := h.final
  calls := h.calls
  owner := h.owner
  returned := by
    intro q hq
    rcases List.mem_append.mp hq with hq | hq
    · exact h.returned q hq
    · rw [List.mem_singleton.mp hq]
      exact hr

/-- A crash ends every call and leaves the published files as they are. -/
theorem InvWith.crash (h : InvWith fmt pub s) (damage : ℕ → List UInt8) :
    InvWith fmt pub { s with fs := s.fs.crash damage, holders := [], calls := fun _ => .idle } where
  published := fun i data hi =>
    ⟨(h.published i data hi).1.crash damage, (h.published i data hi).2⟩
  final := h.final
  calls := fun _ => trivial
  owner := fun _ _ h => h.elim
  returned := h.returned

/-- **A step of `save` keeps the invariant**, if it opens the temporary file only when no other
save has it. -/
theorem saveStep_inv {a : Action T} (h : InvWith fmt pub s) (hc : s.calls t = c)
    (hok : a = .openTemp true → ∀ u, ¬ (s.calls u).OwnsTemp)
    (hs : s.saveStep fmt t a c = some s') : Inv fmt s' := by
  have ht : CallInv fmt pub s.fs c := hc ▸ h.calls t
  have hgo : ∀ {s₀ : SafeFile T} {c'}, InvWith fmt pub s₀ → CallInv fmt pub s₀.fs c' →
      ¬ c'.OwnsTemp → InvWith fmt pub (s₀.goTo t c') :=
    fun h₀ hc' hno => h₀.goTo hc' (fun hown => absurd hown hno)
  unfold saveStep at hs
  split at hs
  -- the call begins, takes the lock or is refused it
  · cases hs
    exact ⟨pub, hgo h trivial id⟩
  · cases hs
    exact ⟨pub, hgo (h.withHolders _) trivial id⟩
  · split at hs
    · cases hs
    · cases hs
      exact ⟨pub, hgo h trivial id⟩
  · cases hs
    exact ⟨pub, hgo h trivial id⟩
  -- it opens the file
  · cases hs
    exact ⟨pub, h.openTemp (hok rfl)⟩
  · cases hs
    exact ⟨pub, hgo h trivial id⟩
  -- it writes and syncs
  · rename_i n data fd rest
    cases hs
    have hown : (s.calls t).OwnsTemp := by rw [hc]; trivial
    refine ⟨pub, h.write hown ht.1 _ ⟨ht.1.put _, ?_⟩⟩
    rw [← ht.2]
    simp [FileSystem.put]
  · rename_i data fd
    cases hs
    have hown : (s.calls t).OwnsTemp := by rw [hc]; trivial
    refine ⟨pub, h.write hown ht.1 _ ⟨ht.1.put _, ?_⟩⟩
    rw [← ht.2]
    simp [FileSystem.put]
  -- it closes and renames
  · cases hs
    exact ⟨pub, h.goTo ht (fun _ => by rw [hc]; trivial)⟩
  · split at hs
    · cases hs
    · rename_i htemp
      cases hs
      exact h.rename hc htemp
  -- one of these fails
  · cases hs
    exact ⟨pub, hgo h trivial id⟩
  · cases hs
    exact ⟨pub, hgo h trivial id⟩
  · cases hs
    exact ⟨pub, hgo h trivial id⟩
  -- it cleans up and returns
  · cases hs
    exact ⟨pub, hgo h.delete trivial id⟩
  · cases hs
    exact ⟨pub, hgo h trivial id⟩
  · cases hs
    exact ⟨pub, hgo (h.withHolders _) trivial id⟩
  · cases hs

/-- **A step of `load` keeps the invariant**, if the call gets its lock or has nothing but the
default value to return. -/
theorem loadStep_inv {a : Action T} (h : InvWith fmt pub s) (hc : s.calls t = c)
    (hok : ∀ o, a = .lock o → c = .loadLock → o = .granted ∨
      s.latest.getD fmt.getDefaultValue = fmt.getDefaultValue)
    (hs : s.loadStep fmt t a c = some s') : Inv fmt s' := by
  have ht : CallInv fmt pub s.fs c := hc ▸ h.calls t
  have hgo : ∀ {s₀ : SafeFile T} {c'}, InvWith fmt pub s₀ → CallInv fmt pub s₀.fs c' →
      ¬ c'.OwnsTemp → InvWith fmt pub (s₀.goTo t c') :=
    fun h₀ hc' hno => h₀.goTo hc' (fun hown => absurd hown hno)
  unfold loadStep at hs
  split at hs
  · cases hs
    exact ⟨pub, hgo h trivial id⟩
  · cases hs
    exact ⟨pub, hgo (h.withHolders _) trivial id⟩
  -- the lock is refused
  · split at hs
    · cases hs
    · cases hs
      have hdefault := (hok _ rfl rfl).resolve_left (by decide)
      exact ⟨pub, hgo (h.give hdefault.symm) trivial id⟩
  · cases hs
    have hdefault := (hok _ rfl rfl).resolve_left (by decide)
    exact ⟨pub, hgo (h.give hdefault.symm) trivial id⟩
  -- the file is looked for, opened and read
  · split at hs
    · rename_i hnone
      cases hs
      exact ⟨pub, hgo h (h.right_absent hnone) id⟩
    · cases hs
      exact ⟨pub, hgo h trivial id⟩
  · split at hs
    · rename_i fd hfd
      cases hs
      have hfinal := h.final
      simp only [FinalInv, hfd] at hfinal
      obtain ⟨data, hdata, hlatest⟩ := hfinal
      exact ⟨pub, hgo h ⟨data, hlatest, hdata⟩ id⟩
    · rename_i hnone
      cases hs
      exact ⟨pub, hgo h (h.right_absent hnone) id⟩
  · rename_i fd latest
    cases hs
    obtain ⟨data, rfl, hdata⟩ := ht
    have hcontent := (h.published fd data hdata).1.2
    refine ⟨pub, hgo h ?_ id⟩
    simp [CallInv, Right, hcontent, fmt.read_write]
  · cases hs
    exact ⟨pub, hgo ((h.give ht).withHolders _) trivial id⟩
  · cases hs

/-- **One step keeps the invariant**, unless a load loses data to a refused lock or a save opens
the temporary file another one has. -/
theorem step_inv {e : Event T} (h : Inv fmt s) (hok : Ok fmt s e)
    (hs : s.step fmt e = some s') : Inv fmt s' := by
  obtain ⟨pub, h⟩ := h
  cases e with
  | thread t a =>
    rcases Option.or_eq_some_iff.mp hs with hsave | ⟨-, hload⟩
    · refine saveStep_inv h rfl ?_ hsave
      rintro rfl
      exact hok
    · refine loadStep_inv h rfl ?_ hload
      rintro o rfl hc
      exact hok hc
  | crash damage =>
    cases hs
    exact ⟨pub, h.crash damage⟩

end Invariant

/-! ## 5. Whole runs -/

/-- **What `load` returns.**  Through any number of calls next to each other, with a failure or a
crash at any step: if every load gets its lock once there is something to lose, and no save opens
the temporary file while another one has it, then every load returns the data of the last save
whose rename succeeded, and the default value only when there is none. -/
theorem load_returns_latest {es : List (Event T)} {s : SafeFile T}
    (h : Run (step fmt) (Ok fmt) initial es s) :
    ∀ r ∈ s.returned, r.value = r.latest.getD fmt.getDefaultValue := by
  obtain ⟨pub, hinv⟩ := h.invariant inv_initial (fun s e t hs hok hst => step_inv hs hok hst)
  exact hinv.returned

/-- A file that is its own text. -/
def bytes : Format (List UInt8) := ⟨id, id, [], fun _ => rfl⟩

/-- One save of one byte. -/
def oneSave : List (Event (List UInt8)) :=
  [.save [7], .lock .granted, .openTemp true, .write 1, .sync, .close, .renameTo, .delete true,
    .release].map (Event.thread 0)

/-- A thread moves no other one. -/
theorem calls_step_of_ne {s s' : SafeFile T} {t u : ℕ} {a : Action T}
    (h : s.step fmt (.thread t a) = some s') (hu : u ≠ t) : s'.calls u = s.calls u := by
  rcases Option.or_eq_some_iff.mp h with h | ⟨-, h⟩
  · unfold saveStep at h
    split at h
    all_goals
      first
      | (cases h; exact calls_goTo_of_ne hu)
      | (split at h <;> cases h; exact calls_goTo_of_ne hu)
      | cases h
  · unfold loadStep at h
    split at h
    all_goals
      first
      | (cases h; exact calls_goTo_of_ne hu)
      | (split at h <;> cases h <;> exact calls_goTo_of_ne hu)
      | cases h

/-- A thread on its own that gets its locks does no harm. -/
theorem run_of_one_thread {t : ℕ} {es : List (Event T)} {s : SafeFile T}
    (hall : ∀ e ∈ es, ∃ a, e = .thread t a ∧ ∀ o, a = .lock o → o = .granted)
    (h : exec (step fmt) initial es = some s) : Run (step fmt) (Ok fmt) initial es s := by
  refine (@run_of_exec_invariant _ _ (step fmt) (Ok fmt) (fun s => ∀ u, u ≠ t → s.calls u = .idle)
    (fun e => ∃ a, e = .thread t a ∧ ∀ o, a = .lock o → o = .granted) _ _ es (fun _ _ => rfl)
    ?_ hall h).1
  rintro s _ s' hidle ⟨a, rfl, hlock⟩ hs
  constructor
  · cases a with
    | lock o => exact fun _ => Or.inl (hlock o rfl)
    | openTemp ok =>
      cases ok with
      | false => trivial
      | true =>
        intro u hown
        by_cases hu : u = t
        · subst hu
          -- it opens the file only before it has it
          cases hc : s.calls u <;> simp [step, saveStep, loadStep, hc] at hs
          rw [hc] at hown
          exact hown
        · rw [hidle u hu] at hown
          exact hown
    | _ => trivial
  · intro u hu
    rw [← hidle u hu]
    exact calls_step_of_ne fmt hs hu

/-- A save and then a load. -/
theorem load_returns_latest_after_save :
    ∃ s : SafeFile (List UInt8), s.returned = [⟨[7], some [7]⟩] ∧
      ∀ r ∈ s.returned, r.value = r.latest.getD bytes.getDefaultValue := by
  let es := oneSave ++ [.load, .lock .granted, .checkExists, .openFinal, .read, .release].map
    (Event.thread 0)
  have hreturned : ((exec (step bytes) initial es).map returned) = some [⟨[7], some [7]⟩] := by
    decide
  obtain ⟨s, hs, hr⟩ := Option.map_eq_some_iff.mp hreturned
  refine ⟨s, hr, load_returns_latest bytes (@run_of_one_thread _ bytes 0 es s ?_ hs)⟩
  intro e he
  simp only [es, oneSave, List.map_cons, List.map_nil, List.cons_append, List.nil_append,
    List.mem_cons, List.not_mem_nil, or_false] at he
  rcases he with rfl | rfl | rfl | rfl | rfl | rfl | rfl | rfl | rfl | rfl | rfl | rfl | rfl | rfl
    | rfl <;> exact ⟨_, rfl, by simp⟩

/-- **A load that is refused the lock loses the data.**  One value is saved; two threads load it,
and the second one asks for the lock while the first one has it. -/
theorem refused_load_loses_data :
    ∃ s, exec (step bytes) initial (oneSave ++ [.thread 1 .load, .thread 1 (.lock .granted),
        .thread 2 .load, .thread 2 (.lock .overlapping)]) = some s ∧
      ¬ ∀ r ∈ s.returned, r.value = r.latest.getD bytes.getDefaultValue := by
  have hreturned : ((exec (step bytes) initial (oneSave ++ [.thread 1 .load,
      .thread 1 (.lock .granted), .thread 2 .load, .thread 2 (.lock .overlapping)])).map
        returned) = some [⟨[], some [7]⟩] := by decide
  obtain ⟨s, hs, hr⟩ := Option.map_eq_some_iff.mp hreturned
  refine ⟨s, hs, ?_⟩
  rw [hr]
  decide

end SafeFile

end ShiroKhorshid.Storage
