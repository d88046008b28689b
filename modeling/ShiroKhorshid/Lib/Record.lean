/-
# Records kept field by field in a key-value store

A program holds a record in memory and keeps it in a store with one key, or a few, for every
field.  The store knows nothing of records: a SAVE is one put after another, a LOAD is one get
after another.  `Layout` says how the fields lie in the store, and under it a saved record is
read back field by field (`load_save`).

Several writers then share the store.  Each of them means to change a few fields, but saves the
WHOLE record, from a copy it took earlier.

* What a key holds after a save is what its own field's puts leave in it, whatever was stored
  (`save_apply`), since no key belongs to two fields.
* `Kept` says that every field still reads as the last writer that meant to change it left it.
* `Current` says of a copy that on the fields the writer leaves alone it is what the store reads;
  `kept_save_iff` is that this is the exact condition on one save.
* A put of a single key is the special case of a writer that touches nothing else (`kept_put`).

A save is atomic here.  Where puts of two writers may alternate, each put is a save of its own.
-/
import Mathlib.Data.List.Nodup
import Mathlib.Data.List.Pairwise

namespace Record

/-! ## 1. Stores -/

/-- The cell of each key, if there is one. -/
abbrev Store (Key Cell : Type*) := Key → Option Cell

section Store

variable {Key Cell : Type*} [DecidableEq Key]

/-- One key gets a new cell. -/
def put (p : Store Key Cell) (k : Key) (c : Cell) : Store Key Cell :=
  Function.update p k (some c)

/-- Puts one after another. -/
def putAll (p : Store Key Cell) (puts : List (Key × Cell)) : Store Key Cell :=
  puts.foldl (fun p kc => put p kc.1 kc.2) p

theorem putAll_cons (p : Store Key Cell) (kc : Key × Cell) (puts : List (Key × Cell)) :
    putAll p (kc :: puts) = putAll (put p kc.1 kc.2) puts := rfl

theorem putAll_append (p : Store Key Cell) (puts puts' : List (Key × Cell)) :
    putAll p (puts ++ puts') = putAll (putAll p puts) puts' := List.foldl_append

@[simp] theorem put_same (p : Store Key Cell) (k : Key) (c : Cell) : put p k c k = some c :=
  Function.update_self k _ p

theorem put_other (p : Store Key Cell) {k k' : Key} (c : Cell) (h : k' ≠ k) :
    put p k c k' = p k' :=
  Function.update_of_ne h _ p

/-- A put of what is there already changes nothing. -/
theorem put_eq_self {p : Store Key Cell} {k : Key} {c : Cell} (h : p k = some c) :
    put p k c = p := by
  rw [put, ← h, Function.update_eq_self]

theorem putAll_of_notMem {p : Store Key Cell} {puts : List (Key × Cell)} {k : Key}
    (h : k ∉ puts.map Prod.fst) : putAll p puts k = p k := by
  induction puts generalizing p with
  | nil => rfl
  | cons kc puts ih =>
    rw [List.map_cons, List.mem_cons, not_or] at h
    exact (ih h.2).trans (put_other p kc.2 h.1)

/-- What a key reads after puts that reach it does not depend on the store before them. -/
theorem putAll_congr {p q : Store Key Cell} {puts : List (Key × Cell)} {k : Key}
    (h : k ∈ puts.map Prod.fst ∨ p k = q k) : putAll p puts k = putAll q puts k := by
  induction puts generalizing p q with
  | nil => exact h.resolve_left List.not_mem_nil
  | cons kc puts ih =>
    rw [putAll_cons, putAll_cons]
    refine ih ?_
    by_cases hk : k = kc.1
    · exact Or.inr (by rw [hk, put_same, put_same])
    · rw [List.map_cons, List.mem_cons, or_iff_right hk] at h
      rw [put_other p kc.2 hk, put_other q kc.2 hk]
      exact h

end Store

/-! ## 2. Layouts -/

/-- How the fields of a record lie in a store.  No key belongs to two fields, and a field reads
its own keys only. -/
structure Layout (Field : Type*) (Value : Field → Type*) (Key Cell : Type*) where
  /-- The order in which a save writes the fields. -/
  order : List Field
  keys : Field → List Key
  encode : (x : Field) → Value x → List (Key × Cell)
  decode : (x : Field) → Store Key Cell → Value x
  mem_order : ∀ x, x ∈ order
  encode_keys : ∀ x v, (encode x v).map Prod.fst = keys x
  decode_congr : ∀ x p q, (∀ k ∈ keys x, p k = q k) → decode x p = decode x q
  keys_nodup : (order.flatMap keys).Nodup

namespace Layout

variable {Field : Type*} {Value : Field → Type*} {Key Cell : Type*} [DecidableEq Key]
variable (L : Layout Field Value Key Cell)

/-- The record the store holds. -/
def load (p : Store Key Cell) (x : Field) : Value x := L.decode x p

/-- The puts of a whole-record save. -/
def puts (v : (x : Field) → Value x) : List (Key × Cell) :=
  L.order.flatMap fun x => L.encode x (v x)

/-- Every field is written, in the layout's order. -/
def save (p : Store Key Cell) (v : (x : Field) → Value x) : Store Key Cell := putAll p (L.puts v)

/-- What field `x` reads as once `v` has been written to it. -/
def written (x : Field) (v : Value x) : Value x :=
  L.decode x (putAll (fun _ => none) (L.encode x v))

omit [DecidableEq Key] in
theorem keys_disjoint {x y : Field} (h : x ≠ y) {k : Key} (hx : k ∈ L.keys x) : k ∉ L.keys y := by
  intro hy
  have hpair := (List.nodup_flatMap.mp L.keys_nodup).2
  have : Std.Symm (Function.onFun List.Disjoint L.keys) := ⟨fun _ _ => List.disjoint_symm⟩
  have hdisj : List.Disjoint (L.keys x) (L.keys y) :=
    hpair.forall (L.mem_order x) (L.mem_order y) h
  exact hdisj hx hy

/-- A put to a key of another field is not seen. -/
theorem decode_put_other {x y : Field} (h : x ≠ y) {k : Key} (hk : k ∈ L.keys y)
    (p : Store Key Cell) (c : Cell) : L.decode x (put p k c) = L.decode x p := by
  refine L.decode_congr x _ _ fun k' hk' => put_other p c ?_
  rintro rfl
  exact L.keys_disjoint h hk' hk

/-- **What a key holds after a save.**  Whatever was stored, each key of a field holds what that
field's own puts leave in it. -/
theorem save_apply {x : Field} {k : Key} (hk : k ∈ L.keys x) (p : Store Key Cell)
    (v : (x : Field) → Value x) :
    L.save p v k = putAll (fun _ => none) (L.encode x (v x)) k := by
  have hput : k ∈ (L.encode x (v x)).map Prod.fst := by rwa [L.encode_keys]
  -- the fields saved before `x` are overwritten, the fields saved after it have other keys
  have hall : ∀ (xs : List Field) (q : Store Key Cell),
      x ∈ xs ∨ q k = putAll (fun _ => none) (L.encode x (v x)) k →
      putAll q (xs.flatMap fun y => L.encode y (v y)) k
        = putAll (fun _ => none) (L.encode x (v x)) k := by
    intro xs
    induction xs with
    | nil => exact fun q hq => hq.resolve_left List.not_mem_nil
    | cons y ys ih =>
      intro q hq
      rw [List.flatMap_cons, putAll_append]
      refine ih _ ?_
      by_cases hy : x = y
      · subst hy
        exact Or.inr (putAll_congr (Or.inl hput))
      · rw [putAll_of_notMem (by rw [L.encode_keys]; exact L.keys_disjoint hy hk)]
        exact hq.imp_left fun hmem => (List.mem_cons.mp hmem).resolve_left hy
  exact hall L.order p (Or.inl (L.mem_order x))

/-- **A saved record is read back.** -/
theorem load_save (p : Store Key Cell) (v : (x : Field) → Value x) (x : Field) :
    L.load (L.save p v) x = L.written x (v x) :=
  L.decode_congr x _ _ fun _ hk => L.save_apply hk p v

/-- A put that a save has just made changes nothing. -/
theorem put_save {x : Field} {v : (x : Field) → Value x} {k : Key} {c : Cell}
    (h : L.encode x (v x) = [(k, c)]) (p : Store Key Cell) : put (L.save p v) k c = L.save p v := by
  have hk : k ∈ L.keys x := by
    rw [← L.encode_keys x (v x), h]
    exact List.mem_singleton_self k
  refine put_eq_self ?_
  rw [L.save_apply hk, h]
  exact put_same (fun _ => none) k c

/-! ## 3. Writers that share a store -/

/-- Every field reads as the last writer that meant to change it left it. -/
def Kept (p : Store Key Cell) (intended : (x : Field) → Value x) : Prop :=
  ∀ x, L.load p x = intended x

/-- A copy of the record agrees with the store on the fields that are not in `changed`. -/
def Current (p : Store Key Cell) (copy : (x : Field) → Value x) (changed : Field → Prop) : Prop :=
  ∀ x, ¬ changed x → L.written x (copy x) = L.load p x

/-- What is intended after a save that means to change the fields in `changed`. -/
def intend (intended v : (x : Field) → Value x) (changed : Field → Prop) [DecidablePred changed]
    (x : Field) : Value x :=
  if changed x then L.written x (v x) else intended x

variable {L}

/-- The copy matters only where the writer leaves it alone. -/
theorem Current.congr {p : Store Key Cell} {copy copy' : (x : Field) → Value x}
    {changed : Field → Prop} (h : ∀ x, ¬ changed x → copy x = copy' x) :
    L.Current p copy changed ↔ L.Current p copy' changed :=
  forall_congr' fun x => imp_congr_right fun hx => by rw [h x hx]

/-- What has just been saved is current. -/
theorem current_save (p : Store Key Cell) (v : (x : Field) → Value x) (changed : Field → Prop) :
    L.Current (L.save p v) v changed := fun x _ => (L.load_save p v x).symm

/-- **One save, exactly.**  Nothing is lost by a save if and only if what it writes is current on
every field that the writer does not mean to change. -/
theorem kept_save_iff {p : Store Key Cell} {intended v : (x : Field) → Value x}
    {changed : Field → Prop} [DecidablePred changed] (h : L.Kept p intended) :
    L.Kept (L.save p v) (L.intend intended v changed) ↔ L.Current p v changed := by
  constructor
  · intro hkept x hx
    have hafter := hkept x
    rw [load_save, intend, if_neg hx] at hafter
    rw [hafter, h x]
  · intro hcur x
    rw [load_save, intend]
    by_cases hx : changed x
    · rw [if_pos hx]
    · rw [if_neg hx, hcur x hx, h x]

/-- A put to one field by a writer that means it loses nothing. -/
theorem kept_put {p : Store Key Cell} {intended : (x : Field) → Value x} [DecidableEq Field]
    {x : Field} {k : Key} (hk : k ∈ L.keys x) (c : Cell) (h : L.Kept p intended) :
    L.Kept (put p k c) (Function.update intended x (L.load (put p k c) x)) := by
  intro y
  by_cases hy : y = x
  · subst hy
    rw [Function.update_self]
  · rw [Function.update_of_ne hy, ← h y]
    exact L.decode_put_other hy hk p c

end Layout

end Record
