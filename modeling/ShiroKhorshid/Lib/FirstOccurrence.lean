/-
# Leaving out occurrences

Two readers go through the same entries and note each value where it first occurs.  One of them
skips some of the entries.  When do both note the same list?  A value that is only met in skipped
entries is missing from one list; a value that is met in a skipped entry first may be in both, but
in different places.

* An entry is a value and whether it is kept.  `noted` is the list of the reader that skips nothing,
  `notedKept` that of the other.
* Where every skipped value is made up for in time (`Backed`), the list of the reader that skips is
  in front of the other one at any time: the next value that it notes is the first one it has missed
  (`notedKept_prefix_noted`, by induction from the end of the entries).
* Where it is in front and the other list goes on, the next value of that was first met in a skipped
  entry (`exists_first_missed`), which is how a failure shows.

`insertAll_kept_iff`: the lists are the same exactly when every value that is first met in a skipped
entry is met again in one that is not, before such an entry brings a value that is new by then.
-/
import Mathlib.Data.List.Induction
import Mathlib.Data.List.Infix
import ShiroKhorshid.Lib.Linked

namespace Linked

variable {α : Type*} [DecidableEq α]

/-- What the reader that skips nothing notes. -/
def noted (entries : List (α × Bool)) : List α := insertAll [] (entries.map Prod.fst)

/-- What the reader notes that skips the entries marked with `false`. -/
def notedKept (entries : List (α × Bool)) : List α :=
  insertAll [] ((entries.filter Prod.snd).map Prod.fst)

/-- A value that is first met in a skipped entry is met again in a kept one, and no kept entry in
between has a value that was not met before it. -/
def Backed (entries : List (α × Bool)) : Prop :=
  ∀ before a after, entries = before ++ (a, false) :: after → a ∉ before.map Prod.fst →
    ∃ between rest, after = between ++ (a, true) :: rest ∧
      ∀ b, (b, true) ∈ between → b ∈ before.map Prod.fst

theorem mem_noted {entries : List (α × Bool)} {a : α} :
    a ∈ noted entries ↔ a ∈ entries.map Prod.fst := by
  rw [noted, mem_insertAll]
  exact or_iff_right List.not_mem_nil

theorem mem_notedKept {entries : List (α × Bool)} {a : α} :
    a ∈ notedKept entries ↔ (a, true) ∈ entries := by
  rw [notedKept, mem_insertAll, or_iff_right List.not_mem_nil]
  simp

theorem nodup_noted (entries : List (α × Bool)) : (noted entries).Nodup :=
  nodup_insertAll List.nodup_nil _

theorem noted_concat (entries : List (α × Bool)) (e : α × Bool) :
    noted (entries ++ [e]) = insert (noted entries) e.1 := by
  rw [noted, List.map_append, insertAll_append]
  rfl

theorem notedKept_concat_true (entries : List (α × Bool)) (a : α) :
    notedKept (entries ++ [(a, true)]) = insert (notedKept entries) a := by
  rw [notedKept, List.filter_append, List.map_append, insertAll_append]
  rfl

theorem notedKept_concat_false (entries : List (α × Bool)) (a : α) :
    notedKept (entries ++ [(a, false)]) = notedKept entries := by
  rw [notedKept, List.filter_append, List.map_append, insertAll_append]
  rfl

theorem prefix_insert (s : List α) (a : α) : s <+: insert s a := by
  unfold insert
  split
  · exact List.prefix_rfl
  · exact List.prefix_append s [a]

theorem prefix_insertAll (s as : List α) : s <+: insertAll s as := by
  induction as generalizing s with
  | nil => exact List.prefix_rfl
  | cons a as ih => exact (prefix_insert s a).trans (ih _)

/-- What has been noted stays in front. -/
theorem noted_prefix (entries rest : List (α × Bool)) :
    noted entries <+: noted (entries ++ rest) := by
  rw [noted, noted, List.map_append, insertAll_append]
  exact prefix_insertAll _ _

theorem notedKept_prefix (entries rest : List (α × Bool)) :
    notedKept entries <+: notedKept (entries ++ rest) := by
  rw [notedKept, notedKept, List.filter_append, List.map_append, insertAll_append]
  exact prefix_insertAll _ _

/-- The entry in which a value is first met. -/
theorem exists_first {entries : List (α × Bool)} {a : α} (h : a ∈ entries.map Prod.fst) :
    ∃ before kept after, entries = before ++ (a, kept) :: after ∧ a ∉ before.map Prod.fst := by
  induction entries with
  | nil => exact absurd h List.not_mem_nil
  | cons e entries ih =>
    by_cases he : e.1 = a
    · subst he
      exact ⟨[], e.2, entries, rfl, List.not_mem_nil⟩
    · obtain ⟨before, kept, after, rfl, hnot⟩ :=
        ih ((List.mem_cons.mp h).resolve_left (Ne.symm he))
      exact ⟨e :: before, kept, after, rfl,
        List.not_mem_cons_of_ne_of_not_mem (Ne.symm he) hnot⟩

/-- A value that is missed was first met in a skipped entry. -/
theorem exists_first_missed {entries : List (α × Bool)} {b : α} {missed : List α}
    (h : notedKept entries ++ b :: missed = noted entries) :
    b ∉ notedKept entries ∧
      ∃ before after, entries = before ++ (b, false) :: after ∧ b ∉ before.map Prod.fst := by
  have hnodup := nodup_noted entries
  rw [← h] at hnodup
  have hb : b ∉ notedKept entries := fun hb =>
    (List.nodup_append.mp hnodup).2.2 b hb b List.mem_cons_self rfl
  obtain ⟨before, kept, after, hbefore, hfirst⟩ : ∃ before kept after,
      entries = before ++ (b, kept) :: after ∧ b ∉ before.map Prod.fst :=
    exists_first (mem_noted.mp (by rw [← h]; simp))
  refine ⟨hb, before, after, ?_, hfirst⟩
  cases kept with
  | false => exact hbefore
  | true => exact absurd (mem_notedKept.mpr (by rw [hbefore]; simp)) hb

/-- **The list of the reader that skips is always in front.**  The next value that it notes is the
first one that it has missed so far. -/
theorem notedKept_prefix_noted {entries : List (α × Bool)} (h : Backed entries)
    {done rest : List (α × Bool)} (hsplit : entries = done ++ rest) :
    notedKept done <+: noted done := by
  induction done using List.reverseRecOn generalizing rest with
  | nil => exact List.prefix_rfl
  | append_singleton done e ih =>
    obtain ⟨a, kept⟩ := e
    rw [List.append_assoc, List.singleton_append] at hsplit
    have hdone := ih hsplit
    rw [noted_concat]
    cases kept with
    | false =>
      rw [notedKept_concat_false]
      exact hdone.trans (prefix_insert _ _)
    | true =>
      rw [notedKept_concat_true]
      obtain ⟨missed, hmissed⟩ := hdone
      rw [← hmissed]
      by_cases hkept : a ∈ notedKept done
      · rw [insert, if_pos hkept]
        exact (List.prefix_append _ _).trans (prefix_insert _ _)
      rw [insert, if_neg hkept]
      cases missed with
      | nil =>
        rw [List.append_nil, insert, if_neg hkept]
      | cons b missed =>
        -- `b` was first met in a skipped entry, and is the next to come
        obtain ⟨hb, before, after, hbefore, hfirst⟩ := exists_first_missed hmissed
        obtain ⟨between, last, hlast, hnew⟩ := h before b (after ++ (a, true) :: rest)
          (by rw [hsplit, hbefore]; simp) hfirst
        have hnext : a = b →
            notedKept done ++ [a] <+: insert (notedKept done ++ b :: missed) a := by
          rintro rfl
          have hin : a ∈ notedKept done ++ a :: missed := by simp
          rw [insert, if_pos hin]
          exact ⟨missed, by simp⟩
        rcases List.append_eq_append_iff.mp hlast with ⟨more, hmore, htail⟩ | ⟨more, hmore, htail⟩
        · cases more with
          | nil => exact hnext (congrArg Prod.fst (List.cons.inj htail).1)
          | cons e more =>
            -- it is not: then `a` was met before `b`, and noted by both
            obtain ⟨rfl, -⟩ := List.cons.inj htail
            have ha : a ∈ noted before := mem_noted.mpr (hnew a (by rw [hmore]; simp))
            have hpre : noted before <+: notedKept done ++ b :: missed := by
              rw [hmissed, hbefore]
              exact noted_prefix _ _
            have hpre' : notedKept done ++ [b] <+: notedKept done ++ b :: missed :=
              ⟨missed, by simp⟩
            exfalso
            rcases List.prefix_or_prefix_of_prefix hpre hpre' with hle | hle
            · rcases List.mem_append.mp (hle.subset ha) with hmem | hmem
              · exact hkept hmem
              · obtain rfl := List.mem_singleton.mp hmem
                exact hfirst (mem_noted.mp ha)
            · exact hfirst (mem_noted.mp (hle.subset (by simp)))
        · cases more with
          | nil => exact hnext (congrArg Prod.fst (List.cons.inj htail).1).symm
          | cons e more =>
            -- `b` was met in a kept entry already
            obtain ⟨rfl, -⟩ := List.cons.inj htail
            exact absurd (mem_notedKept.mpr (by rw [hbefore, hmore]; simp)) hb

/-- **When skipping makes no difference.** -/
theorem insertAll_kept_iff (entries : List (α × Bool)) :
    noted entries = notedKept entries ↔ Backed entries := by
  constructor
  · rintro h before a after rfl hfirst
    have ha : a ∈ notedKept (before ++ (a, false) :: after) := by
      rw [← h, mem_noted]
      simp
    have hafter : (a, true) ∈ after := by
      have hmem := mem_notedKept.mp ha
      rcases List.mem_append.mp hmem with hmem | hmem
      · exact absurd (List.mem_map.mpr ⟨_, hmem, rfl⟩) hfirst
      · exact (List.mem_cons.mp hmem).resolve_left (by simp)
    obtain ⟨between, rest, rfl, hbetween⟩ := List.eq_append_cons_of_mem hafter
    refine ⟨between, rest, rfl, fun b hb => ?_⟩
    by_contra hnew
    -- `b` is after `a` in one list and before it in the other
    have hpre : noted before ++ [a] <+:
        noted (before ++ (a, false) :: (between ++ (a, true) :: rest)) := by
      have hconcat : noted (before ++ [(a, false)]) = noted before ++ [a] := by
        rw [noted_concat, insert, if_neg (mt mem_noted.mp hfirst)]
      rw [← hconcat, List.append_cons before _ (between ++ _)]
      exact noted_prefix _ _
    have hpre' : notedKept (before ++ (a, false) :: between) <+:
        noted (before ++ (a, false) :: (between ++ (a, true) :: rest)) := by
      rw [h, ← List.cons_append, ← List.append_assoc]
      exact notedKept_prefix _ _
    have hb' : b ∈ notedKept (before ++ (a, false) :: between) :=
      mem_notedKept.mpr (by simp [hb])
    rcases List.prefix_or_prefix_of_prefix hpre hpre' with hle | hle
    · have ha' : a ∈ notedKept (before ++ (a, false) :: between) := hle.subset (by simp)
      rcases List.mem_append.mp (mem_notedKept.mp ha') with hmem | hmem
      · exact hfirst (List.mem_map.mpr ⟨_, hmem, rfl⟩)
      · exact hbetween ((List.mem_cons.mp hmem).resolve_left (by simp))
    · have hbin : b ∈ noted before ++ [a] := hle.subset hb'
      rcases List.mem_append.mp hbin with hmem | hmem
      · exact hnew (mem_noted.mp hmem)
      · obtain rfl := List.mem_singleton.mp hmem
        exact hbetween hb
  · intro h
    obtain ⟨missed, hmissed⟩ := notedKept_prefix_noted h (List.append_nil entries).symm
    cases missed with
    | nil => rw [← hmissed, List.append_nil]
    | cons b missed =>
      exfalso
      obtain ⟨hb, before, after, hbefore, hfirst⟩ := exists_first_missed hmissed
      obtain ⟨between, rest, hafter, -⟩ := h before b after hbefore hfirst
      exact hb (mem_notedKept.mpr (by rw [hbefore, hafter]; simp))

end Linked
