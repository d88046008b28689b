/-
# Longest-prefix match

A routing table in the abstract: a list of entries, each of which ADDS or EXCLUDES the
destinations its prefix covers, in the order they were made.  A destination is decided by the
entry with the longest prefix that covers it; an entry counts only if it is the last one for its
prefix (`Decides`).  Prefixes, destinations and coverage are parameters; nothing here knows an
IP address.

* One entry at most decides a destination, where prefixes of one length that cover it are equal
  (`CanonicalAt`, `Decides.unique`).
* `lookup` computes it in one pass, which keeps the best entry so far: a later one replaces it
  unless its prefix is shorter (`lookup_spec`, `lookup_eq_some_iff`).
* The two shapes of table that come up are solved outright: a table of additions only
  (`routed_adds`), and a default route, then exclusions, then one last addition
  (`routed_default_excludes_last`).

A destination that no entry covers is not routed.  What an entry is routed TO is left out: there is
one interface, and the question is whether a destination goes there.
-/
import Mathlib.Data.List.Induction
import Mathlib.Order.Basic

namespace PrefixTable

/-- One call that shaped the table. -/
structure Entry (P : Type*) where
  dest : P
  added : Bool

section Lookup

variable {P α : Type*} (covers : P → α → Prop) (len : P → ℕ)

/-- `Decides table x e`: among the entries that cover `x`, none is longer than `e`, and `e` is
the last entry made for its prefix. -/
structure Decides (table : List (Entry P)) (x : α) (e : Entry P) : Prop where
  covered : covers e.dest x
  longest : ∀ d ∈ table, covers d.dest x → len d.dest ≤ len e.dest
  last : ∃ before later, table = before ++ e :: later ∧ ∀ d ∈ later, d.dest ≠ e.dest

/-- A destination is routed when the entry that decides it adds it. -/
def Routed (table : List (Entry P)) (x : α) : Prop :=
  ∃ e, Decides covers len table x e ∧ e.added = true

/-- Prefixes are canonical at `x`: those of one length that cover `x` are the same prefix. -/
def CanonicalAt (covers : P → α → Prop) (len : P → ℕ) (x : α) : Prop :=
  ∀ p q, covers p x → covers q x → len p = len q → p = q

variable {covers len} in
/-- Two entries that decide the same destination are made for the same prefix, and each is the
last one for it, so they are one entry. -/
theorem Decides.unique {table : List (Entry P)} {x : α} {e e' : Entry P}
    (hx : CanonicalAt covers len x) (h : Decides covers len table x e)
    (h' : Decides covers len table x e') : e = e' := by
  obtain ⟨before, later, htab, hlast⟩ := h.last
  obtain ⟨before', later', htab', hlast'⟩ := h'.last
  have hmem : e ∈ table := by simp [htab]
  have hmem' : e' ∈ table := by simp [htab']
  have hlen : len e.dest = len e'.dest :=
    Nat.le_antisymm (h'.longest e hmem h.covered) (h.longest e' hmem' h'.covered)
  have hdest : e.dest = e'.dest := hx _ _ h.covered h'.covered hlen
  -- whichever of the two came first, the other is a later entry for the same prefix
  rcases List.append_eq_append_iff.mp (htab.symm.trans htab') with
    ⟨mid, h1, h2⟩ | ⟨mid, h1, h2⟩
  · cases mid with
    | nil => exact (List.cons.inj h2).1
    | cons c mid =>
      obtain ⟨rfl, rfl⟩ := List.cons.inj h2
      exact absurd hdest.symm (hlast e' (by simp))
  · cases mid with
    | nil => exact (List.cons.inj h2).1.symm
    | cons c mid =>
      obtain ⟨rfl, rfl⟩ := List.cons.inj h2
      exact absurd hdest (hlast' e (by simp))

variable [∀ p x, Decidable (covers p x)]

/-- The better of the best entry so far and the next one. -/
def better (x : α) (best : Option (Entry P)) (e : Entry P) : Option (Entry P) :=
  if covers e.dest x ∧ best.all (fun b => decide (len b.dest ≤ len e.dest)) then some e else best

/-- The deciding entry, in one pass over the table. -/
def lookup (table : List (Entry P)) (x : α) : Option (Entry P) :=
  table.foldl (better covers len x) none

variable {covers len}

theorem lookup_append_singleton (table : List (Entry P)) (e : Entry P) (x : α) :
    lookup covers len (table ++ [e]) x = better covers len x (lookup covers len table x) e := by
  rw [lookup, List.foldl_append]
  rfl

/-- A destination no entry covers is not decided. -/
theorem lookup_eq_none_iff {table : List (Entry P)} {x : α} :
    lookup covers len table x = none ↔ ∀ e ∈ table, ¬ covers e.dest x := by
  induction table using List.reverseRecOn with
  | nil => simp [lookup]
  | append_singleton table d ih =>
    rw [lookup_append_singleton, better]
    split
    · rename_i hd
      refine iff_of_false (by simp) (fun h => h d (by simp) hd.1)
    · rename_i hnd
      rw [ih]
      constructor
      · intro h e he hcov
        rcases List.mem_append.mp he with he | he
        · exact h e he hcov
        · rw [List.mem_singleton.mp he] at hcov
          exact hnd ⟨hcov, by simp [ih.mpr h]⟩
      · exact fun h e he => h e (by simp [he])

/-- **What the pass returns.**  The entry covers the destination, no covering entry before it is
longer, and every covering entry after it is shorter. -/
theorem lookup_spec {table : List (Entry P)} {x : α} {e : Entry P}
    (h : lookup covers len table x = some e) :
    covers e.dest x ∧ ∃ before later, table = before ++ e :: later ∧
      (∀ d ∈ before, covers d.dest x → len d.dest ≤ len e.dest) ∧
      (∀ d ∈ later, covers d.dest x → len d.dest < len e.dest) := by
  induction table using List.reverseRecOn generalizing e with
  | nil => exact absurd h (by simp [lookup])
  | append_singleton table d ih =>
    rw [lookup_append_singleton, better] at h
    split at h
    · -- the new entry covers, and is at least as long as the best so far
      rename_i hd
      cases h
      refine ⟨hd.1, table, [], rfl, ?_, by simp⟩
      intro c hc hcov
      cases hb : lookup covers len table x with
      | none => exact absurd hcov (lookup_eq_none_iff.mp hb c hc)
      | some b =>
        obtain ⟨-, before, later, rfl, hbefore, hlater⟩ := ih hb
        have hbd : len b.dest ≤ len d.dest := by
          have hall := hd.2
          rw [hb] at hall
          simpa using hall
        rcases List.mem_append.mp hc with hc | hc
        · exact Nat.le_trans (hbefore c hc hcov) hbd
        · rcases List.mem_cons.mp hc with rfl | hc
          · exact hbd
          · exact Nat.le_trans (Nat.le_of_lt (hlater c hc hcov)) hbd
    · -- the new entry does not cover, or is shorter
      rename_i hnd
      obtain ⟨hcov, before, later, rfl, hbefore, hlater⟩ := ih h
      refine ⟨hcov, before, later ++ [d], by simp, hbefore, ?_⟩
      intro c hc hcc
      rcases List.mem_append.mp hc with hc | hc
      · exact hlater c hc hcc
      · rw [List.mem_singleton.mp hc] at hcc ⊢
        rw [h] at hnd
        by_contra hle
        exact hnd ⟨hcc, by simp; omega⟩

/-- **The pass computes the deciding entry.** -/
theorem lookup_eq_some_iff {table : List (Entry P)} {x : α} {e : Entry P}
    (hx : CanonicalAt covers len x) :
    lookup covers len table x = some e ↔ Decides covers len table x e := by
  have hdecides : ∀ d, lookup covers len table x = some d → Decides covers len table x d := by
    intro d hd
    obtain ⟨hcov, before, later, rfl, hbefore, hlater⟩ := lookup_spec hd
    refine ⟨hcov, ?_, before, later, rfl, ?_⟩
    · intro c hc hcc
      rcases List.mem_append.mp hc with hc | hc
      · exact hbefore c hc hcc
      · rcases List.mem_cons.mp hc with rfl | hc
        · exact Nat.le_refl _
        · exact Nat.le_of_lt (hlater c hc hcc)
    · intro c hc heq
      have hlt := hlater c hc (heq ▸ hcov)
      rw [heq] at hlt
      exact absurd hlt (Nat.lt_irrefl _)
  constructor
  · exact hdecides e
  · intro h
    cases hl : lookup covers len table x with
    | none =>
      obtain ⟨before, later, rfl, -⟩ := h.last
      exact absurd h.covered (lookup_eq_none_iff.mp hl e (by simp))
    | some d => rw [(hdecides d hl).unique hx h]

theorem routed_iff_lookup {table : List (Entry P)} {x : α} (hx : CanonicalAt covers len x) :
    Routed covers len table x ↔ (lookup covers len table x).any Entry.added = true := by
  simp only [Routed, ← lookup_eq_some_iff hx, Option.any_eq_true]

/-- **A table of additions only** routes what one of its prefixes covers. -/
theorem routed_adds {table : List (Entry P)} {x : α} (hx : CanonicalAt covers len x)
    (hadd : ∀ e ∈ table, e.added = true) :
    Routed covers len table x ↔ ∃ e ∈ table, covers e.dest x := by
  rw [routed_iff_lookup hx]
  cases hl : lookup covers len table x with
  | none =>
    have hnone := lookup_eq_none_iff.mp hl
    refine iff_of_false (by simp) ?_
    rintro ⟨e, he, hcov⟩
    exact hnone e he hcov
  | some e =>
    obtain ⟨hcov, before, later, rfl, -⟩ := lookup_spec hl
    exact iff_of_true (by simpa using hadd e (by simp)) ⟨e, by simp, hcov⟩

/-- **A default route, then exclusions, then one last addition.**  The last addition wins over
every exclusion that is not longer; elsewhere a destination is routed when nothing excludes
it. -/
theorem routed_default_excludes_last {root own : P} {excluded : List P} {x : α}
    (hx : CanonicalAt covers len x) (hroot : covers root x) (hroot0 : len root = 0) :
    Routed covers len
        (⟨root, true⟩ :: excluded.map (fun p => ⟨p, false⟩) ++ [⟨own, true⟩]) x ↔
      (covers own x ∧ ∀ p ∈ excluded, covers p x → len p ≤ len own) ∨
      (¬ covers own x ∧ ∀ p ∈ excluded, ¬ covers p x) := by
  rw [routed_iff_lookup hx, lookup_append_singleton]
  cases hl : lookup covers len (⟨root, true⟩ :: excluded.map (fun p => ⟨p, false⟩)) x with
  | none => exact absurd hroot (lookup_eq_none_iff.mp hl ⟨root, true⟩ (by simp))
  | some e =>
    obtain ⟨hcov, before, later, htab, hbefore, hlater⟩ := lookup_spec hl
    have hlongest : ∀ p ∈ excluded, covers p x → len p ≤ len e.dest := by
      intro p hp hpx
      have hmem : (⟨p, false⟩ : Entry P) ∈ before ++ e :: later := by
        rw [← htab]
        exact List.mem_cons_of_mem _ (List.mem_map.mpr ⟨p, hp, rfl⟩)
      rcases List.mem_append.mp hmem with hm | hm
      · exact hbefore _ hm hpx
      · rcases List.mem_cons.mp hm with hm | hm
        · exact hm ▸ Nat.le_refl _
        · exact Nat.le_of_lt (hlater _ hm hpx)
    -- the best of the first part is the default route exactly when nothing excludes `x`
    have hroot_or : (e = ⟨root, true⟩ ∧ ∀ p ∈ excluded, ¬ covers p x) ∨
        (e.added = false ∧ e.dest ∈ excluded) := by
      cases before with
      | nil =>
        obtain ⟨rfl, rfl⟩ := List.cons.inj htab
        refine Or.inl ⟨rfl, ?_⟩
        intro p hp hpx
        have hlt := hlater ⟨p, false⟩ (List.mem_map.mpr ⟨p, hp, rfl⟩) hpx
        simp only [hroot0] at hlt
        exact absurd hlt (Nat.not_lt_zero _)
      | cons b before =>
        obtain ⟨-, htab'⟩ := List.cons.inj htab
        have hmem : e ∈ excluded.map (fun p => (⟨p, false⟩ : Entry P)) := by
          rw [htab']; simp
        obtain ⟨p, hp, rfl⟩ := List.mem_map.mp hmem
        exact Or.inr ⟨rfl, hp⟩
    by_cases hown : covers own x
    · rw [better]
      rcases hroot_or with ⟨rfl, hnone⟩ | ⟨hadd, hexcl⟩
      · rw [if_pos ⟨hown, by simp [hroot0]⟩]
        exact iff_of_true rfl (Or.inl ⟨hown, fun p hp hpx => absurd hpx (hnone p hp)⟩)
      · by_cases hle : len e.dest ≤ len own
        · rw [if_pos ⟨hown, by simpa using hle⟩]
          exact iff_of_true rfl
            (Or.inl ⟨hown, fun p hp hpx => Nat.le_trans (hlongest p hp hpx) hle⟩)
        · rw [if_neg (fun h => hle (by simpa using h.2))]
          refine iff_of_false (by simp [hadd]) ?_
          rintro (⟨-, h⟩ | ⟨h, -⟩)
          · exact hle (h _ hexcl hcov)
          · exact h hown
    · rw [better, if_neg (fun h => hown h.1)]
      rcases hroot_or with ⟨rfl, hnone⟩ | ⟨hadd, hexcl⟩
      · exact iff_of_true rfl (Or.inr ⟨hown, hnone⟩)
      · refine iff_of_false (by simp [hadd]) ?_
        rintro (⟨h, -⟩ | ⟨-, h⟩)
        · exact hown h
        · exact h _ hexcl hcov

end Lookup

end PrefixTable
