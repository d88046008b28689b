/-
# Files

A file system as a program sees it: names, and the files they stand for.  A file lives on while it
is open, whatever becomes of its name.  What has been written reaches the disk when it is synced;
`crash` leaves anything in a file that has not been.  Renaming is atomic, and durable once it has
happened.

`Stored` is the property that survives: the file holds these bytes and they are on the disk.

* Every operation says what it does to the names, by a lemma for the name it is about and one for
  the others (`dir_rename`, `dir_delete_of_ne` and their kind), and to the files.
* `Stored` is kept by every operation on another file, and by a crash (`Stored.put`,
  `Stored.openTruncate`, `Stored.crash`).  Opening a name truncates the file it stands for, so there
  it has to be another file.
* New files get new numbers (`openTruncate_lt`), so that a file a program has opened is not mistaken
  for one that was there before.

Directories, permissions and a full disk are not modelled: an operation that fails is one that is
not performed.
-/
import Mathlib.Data.Nat.Notation
import Mathlib.Logic.Function.Basic

namespace Files

/-- A file: its bytes, and whether they are on the disk. -/
structure Inode where
  content : List UInt8
  synced : Bool
deriving DecidableEq

/-- The names and the files they stand for.  `next` is the number of the next new file. -/
structure FileSystem (N : Type*) where
  dir : N → Option ℕ
  inode : ℕ → Inode
  next : ℕ
  dir_lt : ∀ n i, dir n = some i → i < next

namespace FileSystem

variable {N : Type*} {fs : FileSystem N} {a b n : N} {i j : ℕ} {bs : List UInt8}

/-- No files. -/
def empty : FileSystem N :=
  ⟨fun _ => none, fun _ => ⟨[], false⟩, 0, fun _ _ h => absurd h (by simp)⟩

/-! ## 1. Operations -/

/-- Changes the content of a file. -/
def put (fs : FileSystem N) (i : ℕ) (f : Inode) : FileSystem N :=
  { fs with inode := Function.update fs.inode i f }

def append (fs : FileSystem N) (i : ℕ) (bs : List UInt8) : FileSystem N :=
  fs.put i ⟨(fs.inode i).content ++ bs, false⟩

def sync (fs : FileSystem N) (i : ℕ) : FileSystem N :=
  fs.put i { fs.inode i with synced := true }

/-- The power goes: of what has not been synced anything may be left. -/
def crash (fs : FileSystem N) (damage : ℕ → List UInt8) : FileSystem N :=
  { fs with inode := fun i => if (fs.inode i).synced then fs.inode i else ⟨damage i, false⟩ }

section Names

variable [DecidableEq N]

/-- Opens a name for writing: the file that has it is emptied, or a new one made. -/
def openTruncate (fs : FileSystem N) (n : N) : ℕ × FileSystem N :=
  match fs.dir n with
  | some i => (i, fs.put i ⟨[], false⟩)
  | none => (fs.next,
      { dir := Function.update fs.dir n (some fs.next)
        inode := Function.update fs.inode fs.next ⟨[], false⟩
        next := fs.next + 1
        dir_lt := by
          intro m i h
          by_cases hm : m = n
          · subst hm
            rw [Function.update_self] at h
            exact Option.some.inj h ▸ Nat.lt_succ_self fs.next
          · rw [Function.update_of_ne hm] at h
            exact Nat.lt_succ_of_lt (fs.dir_lt m i h) })

/-- Unlinks a name, if it is there. -/
def delete (fs : FileSystem N) (n : N) : FileSystem N :=
  { fs with
    dir := Function.update fs.dir n none
    dir_lt := by
      intro m i h
      by_cases hm : m = n
      · subst hm
        rw [Function.update_self] at h
        cases h
      · rw [Function.update_of_ne hm] at h
        exact fs.dir_lt m i h }

/-- Gives the name `b` to the file that has the name `a`. -/
def rename (fs : FileSystem N) (a b : N) : FileSystem N :=
  { fs with
    dir := Function.update (Function.update fs.dir b (fs.dir a)) a none
    dir_lt := by
      intro m i h
      by_cases hm : m = a
      · subst hm
        rw [Function.update_self] at h
        cases h
      · rw [Function.update_of_ne hm] at h
        by_cases hb : m = b
        · subst hb
          rw [Function.update_self] at h
          exact fs.dir_lt a i h
        · rw [Function.update_of_ne hb] at h
          exact fs.dir_lt m i h }

end Names

/-! ## 2. What an operation leaves alone -/

@[simp] theorem dir_put (f : Inode) : (fs.put i f).dir = fs.dir := rfl

@[simp] theorem dir_append : (fs.append i bs).dir = fs.dir := rfl

@[simp] theorem dir_sync : (fs.sync i).dir = fs.dir := rfl

@[simp] theorem dir_crash (damage : ℕ → List UInt8) : (fs.crash damage).dir = fs.dir := rfl

@[simp] theorem next_put (f : Inode) : (fs.put i f).next = fs.next := rfl

@[simp] theorem next_append : (fs.append i bs).next = fs.next := rfl

@[simp] theorem next_sync : (fs.sync i).next = fs.next := rfl

@[simp] theorem inode_append_self :
    (fs.append i bs).inode i = ⟨(fs.inode i).content ++ bs, false⟩ := by
  simp [append, put]

@[simp] theorem inode_sync_self :
    (fs.sync i).inode i = { fs.inode i with synced := true } := by
  simp [sync, put]

section Names

variable [DecidableEq N]

@[simp] theorem dir_delete_self : (fs.delete n).dir n = none := by simp [delete]

theorem dir_delete_of_ne (h : a ≠ n) : (fs.delete n).dir a = fs.dir a := by simp [delete, h]

@[simp] theorem dir_rename_self : (fs.rename a b).dir a = none := by simp [rename]

theorem dir_rename (h : b ≠ a) : (fs.rename a b).dir b = fs.dir a := by simp [rename, h]

/-- Opening a name touches no other name. -/
theorem dir_openTruncate_of_ne (h : a ≠ n) : (fs.openTruncate n).2.dir a = fs.dir a := by
  unfold openTruncate
  split
  · rfl
  · simp [h]

/-- After opening it, the name stands for the file that was opened. -/
theorem dir_openTruncate : (fs.openTruncate n).2.dir n = some (fs.openTruncate n).1 := by
  unfold openTruncate
  split
  · assumption
  · simp

theorem openTruncate_lt : (fs.openTruncate n).1 < (fs.openTruncate n).2.next := by
  unfold openTruncate
  split
  · rename_i i hi
    exact fs.dir_lt n i hi
  · exact Nat.lt_succ_self _

theorem content_openTruncate :
    ((fs.openTruncate n).2.inode (fs.openTruncate n).1).content = [] := by
  unfold openTruncate
  split <;> simp [put]

/-- A file that is opened for writing had the name or is new. -/
theorem openTruncate_eq_or :
    fs.dir n = some (fs.openTruncate n).1 ∨ (fs.openTruncate n).1 = fs.next := by
  unfold openTruncate
  split
  · rename_i i hi
    exact Or.inl hi
  · exact Or.inr rfl

end Names

/-! ## 3. What is on the disk -/

/-- The file holds these bytes, and they are on the disk. -/
def Stored (fs : FileSystem N) (i : ℕ) (bs : List UInt8) : Prop :=
  i < fs.next ∧ fs.inode i = ⟨bs, true⟩

theorem Stored.put (h : fs.Stored i bs) (hne : i ≠ j) (f : Inode) : (fs.put j f).Stored i bs :=
  ⟨h.1, by simp [FileSystem.put, hne, h.2]⟩

theorem Stored.openTruncate [DecidableEq N] (h : fs.Stored i bs)
    (hne : fs.dir n ≠ some i) :
    (fs.openTruncate n).2.Stored i bs := by
  unfold FileSystem.openTruncate
  split
  · rename_i j hj
    exact h.put (fun heq => hne (heq ▸ hj)) _
  · have hfresh : i ≠ fs.next := Nat.ne_of_lt h.1
    exact ⟨Nat.lt_succ_of_lt h.1, by simp [hfresh, h.2]⟩

theorem Stored.crash (h : fs.Stored i bs) (damage : ℕ → List UInt8) :
    (fs.crash damage).Stored i bs := by
  refine ⟨h.1, ?_⟩
  have hsynced : (fs.inode i).synced = true := by rw [h.2]
  simp only [FileSystem.crash]
  rw [if_pos hsynced, h.2]

end FileSystem

end Files
