/-
# Sets and maps that keep the order of insertion

A `LinkedHashSet` is a list without repetitions to whose end new elements go; a `LinkedHashMap` is
a list of pairs in which a key keeps its place when it gets another value.

* **Sets.**  Inserting a list of elements keeps the first occurrence of each (`insertAll_append`,
  `insertAll_eq_eraseDups`); nothing is left out exactly where the list has no repetitions
  (`length_insertAll_eq_iff`).
* **Maps.**  `Keyed` says that no key occurs twice, which every operation keeps.  What a map holds
  after a list of assignments is the last value of each key (`mem_putAll_nil`), and it is looked up
  by the key alone, whatever the order (`lookup_perm`).

The order is part of the value here, since a program that iterates over such a set sees it.  There
is no removal: the programs at hand only add and assign.
-/
import Mathlib.Data.List.Induction
import Mathlib.Data.List.Dedup
import Mathlib.Data.List.Nodup

namespace Linked

/-! ## 1. Sets -/

section Set

variable {α : Type*} [DecidableEq α]

/-- `set.add(a)`. -/
def insert (s : List α) (a : α) : List α := if a ∈ s then s else s ++ [a]

/-- All of them, in order. -/
def insertAll (s : List α) (as : List α) : List α := as.foldl insert s

theorem mem_insert {s : List α} {a b : α} : b ∈ insert s a ↔ b ∈ s ∨ b = a := by
  unfold insert
  split
  · rename_i ha
    exact ⟨Or.inl, fun h => h.elim id (fun heq => heq ▸ ha)⟩
  · simp

theorem mem_insertAll {s as : List α} {b : α} : b ∈ insertAll s as ↔ b ∈ s ∨ b ∈ as := by
  induction as generalizing s with
  | nil => simp [insertAll]
  | cons a as ih =>
    rw [insertAll, List.foldl_cons, ← insertAll, ih, mem_insert, List.mem_cons, or_assoc]

theorem nodup_insert {s : List α} (h : s.Nodup) (a : α) : (insert s a).Nodup := by
  unfold insert
  split
  · exact h
  · rename_i ha
    rw [List.nodup_append]
    refine ⟨h, List.nodup_singleton a, ?_⟩
    rintro b hb _ hc rfl
    obtain rfl := List.mem_singleton.mp hc
    exact ha hb

theorem nodup_insertAll {s : List α} (h : s.Nodup) (as : List α) : (insertAll s as).Nodup := by
  induction as generalizing s with
  | nil => exact h
  | cons a as ih => exact ih (nodup_insert h a)

/-- Nothing is left out of a list without repetitions. -/
theorem insertAll_of_nodup {s as : List α} (h : (s ++ as).Nodup) : insertAll s as = s ++ as := by
  induction as generalizing s with
  | nil => simp [insertAll]
  | cons a as ih =>
    have ha : a ∉ s := fun hmem => (List.nodup_append.mp h).2.2 a hmem a List.mem_cons_self rfl
    rw [List.append_cons] at h ⊢
    rw [← ih h, insertAll, List.foldl_cons, insert, if_neg ha]
    rfl

/-- One list after the other. -/
theorem insertAll_append (s as bs : List α) :
    insertAll s (as ++ bs) = insertAll (insertAll s as) bs := List.foldl_append

/-- Something is left out of a list with repetitions. -/
theorem length_insertAll_eq_iff {as : List α} :
    (insertAll [] as).length = as.length ↔ as.Nodup := by
  have hperm : (insertAll [] as).Perm as.dedup := by
    refine (List.perm_ext_iff_of_nodup (nodup_insertAll List.nodup_nil _) as.nodup_dedup).mpr ?_
    intro a
    rw [mem_insertAll, or_iff_right List.not_mem_nil, List.mem_dedup]
  rw [hperm.length_eq, ← List.dedup_eq_self]
  exact ⟨fun h => as.dedup_sublist.eq_of_length h, fun h => congrArg List.length h⟩

theorem head?_insertAll (as : List α) : (insertAll [] as).head? = as.head? := by
  cases as with
  | nil => rfl
  | cons a as =>
    have hfirst : ∀ (as s : List α), (insertAll (a :: s) as).head? = some a := by
      intro as
      induction as with
      | nil => exact fun s => rfl
      | cons b as ih =>
        intro s
        rw [insertAll, List.foldl_cons, insert]
        split
        · exact ih s
        · exact ih (s ++ [b])
    exact hfirst as []

/-- Values that are computed and added one by one, but for some of them. -/
theorem foldl_insert_eq {β : Type*} (f : β → α) (skip : α → Prop) [DecidablePred skip]
    (s : List α) (bs : List β) :
    bs.foldl (fun s b => if skip (f b) then s else insert s (f b)) s =
      insertAll s ((bs.map f).filter fun a => ¬ skip a) := by
  induction bs generalizing s with
  | nil => rfl
  | cons b bs ih =>
    rw [List.foldl_cons, ih, List.map_cons]
    by_cases hb : skip (f b)
    · rw [if_pos hb, List.filter_cons_of_neg (by simpa using hb)]
    · rw [if_neg hb, List.filter_cons_of_pos (by simpa using hb)]
      rfl

omit [DecidableEq α] in
/-- Values that are computed do not occur twice. -/
theorem nodup_filter_map_iff {β : Type*} {f : β → α} {keep : α → Bool} {bs : List β} :
    ((bs.map f).filter keep).Nodup ↔
      bs.Pairwise fun b c => keep (f b) = true → f b ≠ f c := by
  rw [List.Nodup, List.pairwise_filter, List.pairwise_map]
  refine List.Pairwise.iff fun {b c} => ?_
  exact ⟨fun h hb heq => h hb (heq ▸ hb) heq, fun h hb _ => h hb⟩

/-- What is left is the first occurrences. -/
theorem insertAll_eq_eraseDups [BEq α] [LawfulBEq α] (as : List α) :
    insertAll [] as = as.eraseDups := by
  induction as using List.reverseRecOn with
  | nil => rfl
  | append_singleton as a ih =>
    have hmem : a ∈ as.eraseDups ↔ a ∈ as := by
      rw [← ih, mem_insertAll]
      simp
    rw [insertAll_append, ih, List.eraseDups_append]
    change insert _ a = _
    unfold insert
    by_cases ha : a ∈ as
    · rw [if_pos (hmem.mpr ha)]
      simp [List.removeAll, ha]
    · rw [if_neg (mt hmem.mp ha)]
      simp [List.removeAll, ha, List.eraseDups_cons]

end Set

/-! ## 2. Maps -/

section Map

variable {κ ν : Type*} [DecidableEq κ]

/-- `map.put(k, v)`. -/
def put (k : κ) (v : ν) : List (κ × ν) → List (κ × ν)
  | [] => [(k, v)]
  | (k', v') :: rest => if k' = k then (k, v) :: rest else (k', v') :: put k v rest

/-- The keys of a map are different. -/
def Keyed (m : List (κ × ν)) : Prop := (m.map Prod.fst).Nodup

omit [DecidableEq κ] in
theorem keyed_nil : Keyed ([] : List (κ × ν)) := List.nodup_nil

theorem mem_put {k : κ} {v : ν} {m : List (κ × ν)} (h : Keyed m) {q : κ × ν} :
    q ∈ put k v m ↔ q = (k, v) ∨ q.1 ≠ k ∧ q ∈ m := by
  induction m with
  | nil => simp [put]
  | cons p rest ih =>
    obtain ⟨k', v'⟩ := p
    rw [Keyed, List.map_cons, List.nodup_cons] at h
    rw [put]
    split
    · rename_i hk
      subst hk
      have hother : q ∈ rest → q.1 ≠ k' := by
        rintro hq rfl
        exact h.1 (List.mem_map.mpr ⟨q, hq, rfl⟩)
      rw [List.mem_cons, List.mem_cons]
      constructor
      · rintro (rfl | hq)
        · exact Or.inl rfl
        · exact Or.inr ⟨hother hq, Or.inr hq⟩
      · rintro (rfl | ⟨hne, rfl | hq⟩)
        · exact Or.inl rfl
        · exact absurd rfl hne
        · exact Or.inr hq
    · rename_i hk
      rw [List.mem_cons, List.mem_cons, ih h.2]
      constructor
      · rintro (rfl | rfl | ⟨hne, hq⟩)
        · exact Or.inr ⟨hk, Or.inl rfl⟩
        · exact Or.inl rfl
        · exact Or.inr ⟨hne, Or.inr hq⟩
      · rintro (rfl | ⟨hne, rfl | hq⟩)
        · exact Or.inr (Or.inl rfl)
        · exact Or.inl rfl
        · exact Or.inr (Or.inr ⟨hne, hq⟩)

theorem keyed_put {m : List (κ × ν)} (h : Keyed m) (k : κ) (v : ν) : Keyed (put k v m) := by
  induction m with
  | nil => simp [put, Keyed]
  | cons p rest ih =>
    obtain ⟨k', v'⟩ := p
    have hsplit := List.nodup_cons.mp h
    rw [put]
    split
    · rename_i hk
      subst hk
      exact h
    · rename_i hk
      refine List.nodup_cons.mpr ⟨?_, ih hsplit.2⟩
      intro hmem
      obtain ⟨q, hq, hqk⟩ := List.mem_map.mp hmem
      rcases (mem_put hsplit.2).mp hq with rfl | ⟨-, hq⟩
      · exact hk hqk.symm
      · exact hsplit.1 (List.mem_map.mpr ⟨q, hq, hqk⟩)

/-- All of them, in order. -/
def putAll (m : List (κ × ν)) (ps : List (κ × ν)) : List (κ × ν) :=
  ps.foldl (fun m p => put p.1 p.2 m) m

/-- The value a key was given last. -/
def lastValue (ps : List (κ × ν)) (k : κ) : Option ν :=
  (ps.reverse.find? (fun p => p.1 = k)).map Prod.snd

theorem putAll_concat (m ps : List (κ × ν)) (p : κ × ν) :
    putAll m (ps ++ [p]) = put p.1 p.2 (putAll m ps) := by
  rw [putAll, List.foldl_append]
  rfl

theorem putAll_append (m ps qs : List (κ × ν)) : putAll m (ps ++ qs) = putAll (putAll m ps) qs :=
  List.foldl_append

theorem keyed_putAll {m : List (κ × ν)} (h : Keyed m) (ps : List (κ × ν)) :
    Keyed (putAll m ps) := by
  induction ps generalizing m with
  | nil => exact h
  | cons p ps ih => exact ih (keyed_put h p.1 p.2)

/-- **What a map holds** after a list of assignments. -/
theorem mem_putAll_nil {ps : List (κ × ν)} {k : κ} {v : ν} :
    (k, v) ∈ putAll [] ps ↔ lastValue ps k = some v := by
  induction ps using List.reverseRecOn with
  | nil => simp [putAll, lastValue]
  | append_singleton ps p ih =>
    have hkeyed : Keyed (putAll [] ps) := keyed_putAll keyed_nil ps
    rw [putAll_concat, mem_put hkeyed, ih, lastValue, lastValue, List.reverse_append,
      List.reverse_singleton, List.singleton_append, List.find?_cons]
    by_cases hk : p.1 = k
    · subst hk
      simp [Prod.ext_iff, eq_comm]
    · have hne : ¬ k = p.1 := fun heq => hk heq.symm
      simp [hk, hne, Prod.ext_iff]

theorem mem_or_mem_of_mem_putAll {m ps : List (κ × ν)} (h : Keyed m) {q : κ × ν}
    (hq : q ∈ putAll m ps) : q ∈ m ∨ q ∈ ps := by
  induction ps using List.reverseRecOn with
  | nil => exact Or.inl hq
  | append_singleton ps p ih =>
    rw [putAll_concat, mem_put (keyed_putAll h ps)] at hq
    rcases hq with rfl | ⟨-, hq⟩
    · exact Or.inr (by simp)
    · exact (ih hq).imp_right (List.mem_append_left _)

theorem mem_of_lastValue {ps : List (κ × ν)} {k : κ} {v : ν} (h : lastValue ps k = some v) :
    (k, v) ∈ ps := by
  obtain ⟨p, hp, rfl⟩ := Option.map_eq_some_iff.mp h
  have hk : p.1 = k := by simpa using List.find?_some hp
  have hmem := List.mem_of_find?_eq_some hp
  rw [List.mem_reverse] at hmem
  rw [← hk]
  exact hmem

theorem lastValue_map {μ : Type*} (f : ν → μ) (ps : List (κ × ν)) (k : κ) :
    lastValue (ps.map fun p => (p.1, f p.2)) k = (lastValue ps k).map f := by
  rw [lastValue, lastValue, ← List.map_reverse, List.find?_map, Option.map_map, Option.map_map]
  rfl

theorem lookup_eq_some_iff {m : List (κ × ν)} (h : Keyed m) {k : κ} {v : ν} :
    m.lookup k = some v ↔ (k, v) ∈ m := by
  induction m with
  | nil => simp
  | cons p rest ih =>
    obtain ⟨k', v'⟩ := p
    have hsplit := List.nodup_cons.mp h
    rw [List.lookup_cons, List.mem_cons, Prod.mk.injEq]
    by_cases hk : k = k'
    · subst hk
      have hrest : (k, v) ∉ rest := fun hmem => hsplit.1 (List.mem_map.mpr ⟨_, hmem, rfl⟩)
      simp [hrest, eq_comm]
    · rw [(beq_eq_false_iff_ne.mpr hk), ih hsplit.2]
      simp [hk]

/-- What a map holds does not depend on the order. -/
theorem lookup_perm {m m' : List (κ × ν)} (h : Keyed m) (hperm : m.Perm m') (k : κ) :
    m.lookup k = m'.lookup k := by
  have h' : Keyed m' := (hperm.map Prod.fst).nodup_iff.mp h
  refine Option.ext (fun v => ?_)
  rw [lookup_eq_some_iff h, lookup_eq_some_iff h', hperm.mem_iff]

omit [DecidableEq κ] in
/-- Leaving entries out and changing values keeps the keys different. -/
theorem keyed_filterMap {μ : Type*} {m : List (κ × ν)} (h : Keyed m) (f : ν → Option μ) :
    Keyed (m.filterMap fun p => (f p.2).map (p.1, ·)) := by
  refine h.sublist ?_
  induction m with
  | nil => exact List.Sublist.slnil
  | cons p rest ih =>
    rw [List.map_cons, List.filterMap_cons]
    cases f p.2 with
    | none => exact (ih (List.nodup_cons.mp h).2).cons _
    | some v => exact (ih (List.nodup_cons.mp h).2).cons_cons _

/-- Assigning the pairs of a map again makes the same map. -/
theorem putAll_of_keyed {m ps : List (κ × ν)} (h : Keyed (m ++ ps)) : putAll m ps = m ++ ps := by
  have hput : ∀ (m : List (κ × ν)) (p : κ × ν), p.1 ∉ m.map Prod.fst →
      put p.1 p.2 m = m ++ [p] := by
    intro m p hp
    induction m with
    | nil => rfl
    | cons q rest ih =>
      rw [List.map_cons, List.mem_cons, not_or] at hp
      rw [put, if_neg (fun heq => hp.1 heq.symm), ih hp.2, List.cons_append]
  induction ps generalizing m with
  | nil => simp [putAll]
  | cons p ps ih =>
    have hp : p.1 ∉ m.map Prod.fst := by
      intro hmem
      rw [Keyed, List.map_append, List.nodup_append] at h
      exact h.2.2 p.1 hmem p.1 (by simp) rfl
    rw [List.append_cons] at h ⊢
    rw [← ih h, putAll, List.foldl_cons, hput m p hp]
    rfl

/-- Filling a new map with the entries of another one, with other values. -/
theorem foldl_put_of_keyed {μ : Type*} {m : List (κ × ν)} (h : Keyed m) (f : ν → μ) :
    m.foldl (fun o e => put e.1 (f e.2) o) [] = m.map fun e => (e.1, f e.2) := by
  have hkeyed : Keyed ([] ++ m.map fun e => (e.1, f e.2)) := by
    simpa [Keyed, Function.comp_def] using h
  have hput := putAll_of_keyed hkeyed
  rwa [putAll, List.foldl_map] at hput

end Map

end Linked
