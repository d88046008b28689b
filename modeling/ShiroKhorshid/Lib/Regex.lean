/-
# Regular expressions that backtrack

The engines of the platforms at hand try the alternatives of an expression in order and take the
first way through.  `run` gives all ways through, in that order: what each of them leaves of the
text and the groups it has captured.  `firstMatch` is the first of them, `find` the first match at
any place, and `replaceAll` puts something in the place of every match.

* **What a match is** is described by `mem_run_*`, one for each kind of expression, and what it
  leaves is an end of the text.
* **Which match is the first** is only asked where it does not depend on the order: words that are
  `Apart` leave one way through at most, and a group that no way through can miss (`always`) is
  captured by the first as by any other (`captured_of_find`).
* **Replacing** goes from match to match.  `replaceAll_of_none` and `replaceAll_of_some` are one
  step of it, and `replaceFrom_keeps` says that a stretch no match touches is found in what comes
  out.

Stars are over single characters, so that a star has one way through for each length and the
matching ends.  Anchors, back references and looking around are left out, and nothing is said about
the time an engine takes.
-/
import Mathlib.Data.List.Basic
import Mathlib.Data.Nat.Notation
import Mathlib.Logic.Function.Basic

namespace Regex

/-! ## 1. Expressions -/

inductive Pattern
  /-- one character -/
  | char (p : Char → Bool)
  | empty
  | seq (r s : Pattern)
  /-- `r|s` -/
  | alt (r s : Pattern)
  /-- `p{min,}`, or `p{min,}?` if it is not greedy -/
  | many (greedy : Bool) (min : ℕ) (p : Char → Bool)
  /-- `(r)` -/
  | group (i : ℕ) (r : Pattern)

/-- The captured groups. -/
abbrev Captures : Type := ℕ → Option (List Char)

namespace Pattern

/-- How many characters a star may take, what it prefers first. -/
def lengths (greedy : Bool) (min longest : ℕ) : List ℕ :=
  (if greedy then (List.range (longest + 1)).reverse else List.range (longest + 1)).filter
    (min ≤ ·)

/-- All ways through, the preferred ones first. -/
def run : Pattern → List Char × Captures → List (List Char × Captures)
  | char p, (c :: cs, caps) => if p c then [(cs, caps)] else []
  | char _, ([], _) => []
  | empty, s => [s]
  | seq r t, s => (run r s).flatMap (run t)
  | alt r t, s => run r s ++ run t s
  | many greedy min p, (cs, caps) =>
    (lengths greedy min (cs.takeWhile p).length).map fun n => (cs.drop n, caps)
  | group i r, (cs, caps) =>
    (run r (cs, caps)).map fun s =>
      (s.1, Function.update s.2 i (some (cs.take (cs.length - s.1.length))))

/-- A word, each of its letters matched by `same`. -/
def word (same : Char → Char → Bool) : List Char → Pattern
  | [] => empty
  | l :: ls => seq (char (same l)) (word same ls)

/-- `w|…|w'`, for one word or more. -/
def words (same : Char → Char → Bool) : List Char → List (List Char) → Pattern
  | w, [] => word same w
  | w, w' :: ws => alt (word same w) (words same w' ws)

/-- One expression after the other. -/
def seqs (rs : List Pattern) : Pattern := rs.foldr seq empty

/-- `(?:r)?` -/
def optional (r : Pattern) : Pattern := alt r empty

/-- The match at the beginning of a text. -/
def firstMatch (r : Pattern) (cs : List Char) : Option (List Char × Captures) :=
  (run r (cs, fun _ => none)).head?

/-- `find()`: the groups of the first match. -/
def find (r : Pattern) : List Char → Option Captures
  | [] => (firstMatch r []).map Prod.snd
  | c :: cs => ((firstMatch r (c :: cs)).map Prod.snd).or (find r cs)

/-- Whether every way through captures the group. -/
def always (i : ℕ) : Pattern → Bool
  | char _ => false
  | empty => false
  | seq r s => always i r || always i s
  | alt r s => always i r && always i s
  | many _ _ _ => false
  | group j r => i == j || always i r

/-- `replaceAll`, with the number of characters that still belong to a match.  After an empty match
the next character is passed over. -/
def replaceFrom (r : Pattern) (f : Captures → List Char) : ℕ → List Char → List Char
  | _, [] =>
    match firstMatch r [] with
    | some (_, caps) => f caps
    | none => []
  | k + 1, _ :: cs => replaceFrom r f k cs
  | 0, c :: cs =>
    match firstMatch r (c :: cs) with
    | none => c :: replaceFrom r f 0 cs
    | some (rest, caps) =>
      if rest.length = cs.length + 1 then f caps ++ c :: replaceFrom r f 0 cs
      else f caps ++ replaceFrom r f (cs.length - rest.length) cs

def replaceAll (r : Pattern) (f : Captures → List Char) (cs : List Char) : List Char :=
  replaceFrom r f 0 cs

/-! ## 2. What a match is -/

section Match

variable {cs : List Char} {caps : Captures} {s' : List Char × Captures}

@[simp] theorem mem_run_char {p : Char → Bool} :
    s' ∈ run (char p) (cs, caps) ↔ ∃ c, cs = c :: s'.1 ∧ p c = true ∧ s'.2 = caps := by
  obtain ⟨rest, caps'⟩ := s'
  cases cs with
  | nil => simp [run]
  | cons c cs =>
    unfold run
    cases hp : p c with
    | false => simp [hp]
    | true =>
      simp only [if_true, List.mem_singleton, Prod.mk.injEq, List.cons.injEq]
      constructor
      · rintro ⟨rfl, rfl⟩
        exact ⟨c, ⟨rfl, rfl⟩, hp, rfl⟩
      · rintro ⟨c', ⟨rfl, rfl⟩, -, rfl⟩
        exact ⟨rfl, rfl⟩

@[simp] theorem mem_run_empty {s : List Char × Captures} : s' ∈ run empty s ↔ s' = s := by
  simp [run]

@[simp] theorem mem_run_seq {r t : Pattern} {s : List Char × Captures} :
    s' ∈ run (seq r t) s ↔ ∃ m ∈ run r s, s' ∈ run t m := by
  simp [run]

@[simp] theorem mem_run_alt {r t : Pattern} {s : List Char × Captures} :
    s' ∈ run (alt r t) s ↔ s' ∈ run r s ∨ s' ∈ run t s := by
  simp [run]

theorem mem_run_many {greedy : Bool} {min : ℕ} {p : Char → Bool}
    (h : s' ∈ run (many greedy min p) (cs, caps)) :
    ∃ taken, cs = taken ++ s'.1 ∧ min ≤ taken.length ∧ (∀ c ∈ taken, p c = true) ∧
      s'.2 = caps := by
  obtain ⟨n, hn, rfl⟩ := List.mem_map.mp h
  obtain ⟨hrange, hmin⟩ := List.mem_filter.mp hn
  have hle : n ≤ (cs.takeWhile p).length := by
    cases greedy with
    | true => simpa [Nat.lt_succ_iff] using hrange
    | false => simpa [Nat.lt_succ_iff] using hrange
  have hlength : (cs.takeWhile p).length ≤ cs.length := (List.takeWhile_prefix p).length_le
  refine ⟨cs.take n, (List.take_append_drop n cs).symm, ?_, fun c hc => ?_, rfl⟩
  · rw [List.length_take, Nat.min_eq_left (Nat.le_trans hle hlength)]
    exact of_decide_eq_true hmin
  · have hinitial : cs.take n <+: cs.takeWhile p :=
      List.prefix_of_prefix_length_le (List.take_prefix n cs) (List.takeWhile_prefix p)
        (Nat.le_trans (List.length_take_le n cs) hle)
    exact List.all_eq_true.mp List.all_takeWhile c (hinitial.subset hc)

/-- A star can take any row of its characters that is long enough. -/
theorem mem_run_many_append {greedy : Bool} {min : ℕ} {p : Char → Bool} {taken rest : List Char}
    (hmin : min ≤ taken.length) (htaken : ∀ c ∈ taken, p c = true) :
    (rest, caps) ∈ run (many greedy min p) (taken ++ rest, caps) := by
  have hle : taken.length ≤ ((taken ++ rest).takeWhile p).length := by
    rw [List.takeWhile_append_of_pos htaken, List.length_append]
    exact Nat.le_add_right _ _
  refine List.mem_map.mpr ⟨taken.length, List.mem_filter.mpr ⟨?_, decide_eq_true hmin⟩, ?_⟩
  · cases greedy with
    | true => simpa [Nat.lt_succ_iff] using hle
    | false => simpa [Nat.lt_succ_iff] using hle
  · rw [List.drop_left]

theorem mem_run_group {i : ℕ} {r : Pattern} (h : s' ∈ run (group i r) (cs, caps)) :
    ∃ caps', (s'.1, caps') ∈ run r (cs, caps) := by
  obtain ⟨s, hs, rfl⟩ := List.mem_map.mp h
  exact ⟨s.2, hs⟩

/-- What is left is the end of the text. -/
theorem run_suffix {r : Pattern} {s s' : List Char × Captures} (h : s' ∈ run r s) :
    s'.1 <:+ s.1 := by
  induction r generalizing s s' with
  | char p =>
    obtain ⟨c, hc, -, -⟩ := mem_run_char.mp h
    exact hc ▸ List.suffix_cons c _
  | empty => exact (mem_run_empty.mp h) ▸ List.suffix_refl _
  | seq r t ihr iht =>
    obtain ⟨m, hm, hs'⟩ := mem_run_seq.mp h
    exact (iht hs').trans (ihr hm)
  | alt r t ihr iht =>
    rcases mem_run_alt.mp h with h | h
    · exact ihr h
    · exact iht h
  | many greedy min p =>
    obtain ⟨taken, htaken, -⟩ := mem_run_many h
    exact ⟨taken, htaken.symm⟩
  | group i r ih =>
    obtain ⟨cs, caps⟩ := s
    obtain ⟨caps', hcaps'⟩ := mem_run_group h
    exact @ih _ (s'.1, caps') hcaps'

/-- A greedy star takes all it can. -/
theorem head?_run_many (min : ℕ) (p : Char → Bool) (cs : List Char) (caps : Captures) :
    (run (many true min p) (cs, caps)).head? =
      if min ≤ (cs.takeWhile p).length then some (cs.dropWhile p, caps) else none := by
  have hdrop : cs.drop (cs.takeWhile p).length = cs.dropWhile p := by
    have hsplit := @List.takeWhile_append_dropWhile _ p cs
    calc cs.drop (cs.takeWhile p).length
        = (cs.takeWhile p ++ cs.dropWhile p).drop (cs.takeWhile p).length := by rw [hsplit]
      _ = cs.dropWhile p := List.drop_left
  unfold run lengths
  rw [if_pos rfl, List.range_succ, List.reverse_append, List.reverse_singleton,
    List.singleton_append]
  by_cases hmin : min ≤ (cs.takeWhile p).length
  · simp [hmin, hdrop]
  · rw [if_neg hmin, List.head?_eq_none_iff, List.map_eq_nil_iff, List.filter_eq_nil_iff]
    intro n hn
    rw [decide_eq_true_eq]
    rcases List.mem_cons.mp hn with rfl | hn
    · exact hmin
    · have hlt := List.mem_range.mp (List.mem_reverse.mp hn)
      omega

/-- **A word** is at the beginning of the text, or there is no way through. -/
theorem run_word (same : Char → Char → Bool) (ls cs : List Char) (caps : Captures) :
    (∃ taken rest, cs = taken ++ rest ∧ List.Forall₂ (fun l c => same l c = true) ls taken ∧
      run (word same ls) (cs, caps) = [(rest, caps)]) ∨
    (∀ taken rest, cs = taken ++ rest → ¬ List.Forall₂ (fun l c => same l c = true) ls taken) ∧
      run (word same ls) (cs, caps) = [] := by
  induction ls generalizing cs with
  | nil => exact Or.inl ⟨[], cs, rfl, .nil, rfl⟩
  | cons l ls ih =>
    cases cs with
    | nil =>
      refine Or.inr ⟨fun taken rest h hforall => ?_, rfl⟩
      obtain ⟨rfl, -⟩ := List.append_eq_nil_iff.mp h.symm
      cases hforall
    | cons c cs =>
      cases hsame : same l c with
      | false =>
        refine Or.inr ⟨fun taken rest h hforall => ?_, by simp [word, run, hsame]⟩
        cases hforall with
        | cons hc _ =>
          obtain ⟨rfl, -⟩ := List.cons.inj h
          rw [hsame] at hc
          cases hc
      | true =>
        have hrun : run (word same (l :: ls)) (c :: cs, caps) = run (word same ls) (cs, caps) := by
          simp [word, run, hsame]
        rw [hrun]
        rcases ih cs with ⟨taken, rest, rfl, hforall, heq⟩ | ⟨hno, heq⟩
        · exact Or.inl ⟨c :: taken, rest, rfl, .cons hsame hforall, heq⟩
        · refine Or.inr ⟨fun taken rest h hforall => ?_, heq⟩
          cases hforall with
          | cons _ hrest =>
            obtain ⟨-, hcs⟩ := List.cons.inj h
            exact hno _ _ hcs hrest

/-- No text begins with both words. -/
def Apart (same : Char → Char → Bool) (u v : List Char) : Prop :=
  ∀ taken rest taken' rest', taken ++ rest = taken' ++ rest' →
    List.Forall₂ (fun l c => same l c = true) u taken →
      ¬ List.Forall₂ (fun l c => same l c = true) v taken'

instance (same : Char → Char → Bool) : Std.Symm (Apart same) where
  symm _ _ h taken rest taken' rest' heq hv hu := h taken' rest' taken rest heq.symm hu hv

/-- Words whose first letters differ are apart. -/
theorem apart_of_head {same : Char → Char → Bool} {l l' : Char} {u v : List Char}
    (h : ∀ c, same l c = true → ¬ same l' c = true) : Apart same (l :: u) (l' :: v) := by
  intro taken rest taken' rest' heq hu hv
  cases hu with
  | cons hc _ =>
    cases hv with
    | cons hc' _ =>
      obtain ⟨rfl, -⟩ := List.cons.inj heq
      exact h _ hc hc'

/-- **One of several words** is at the beginning of the text, or there is no way through. -/
theorem run_words {same : Char → Char → Bool} {w : List Char} {ws : List (List Char)}
    (hapart : (w :: ws).Pairwise (Apart same)) (cs : List Char) (caps : Captures) :
    (∃ u ∈ w :: ws, ∃ taken rest, cs = taken ++ rest ∧
      List.Forall₂ (fun l c => same l c = true) u taken ∧
      run (words same w ws) (cs, caps) = [(rest, caps)]) ∨
    (∀ u ∈ w :: ws, ∀ taken rest, cs = taken ++ rest →
      ¬ List.Forall₂ (fun l c => same l c = true) u taken) ∧
      run (words same w ws) (cs, caps) = [] := by
  induction ws generalizing w with
  | nil =>
    rcases run_word same w cs caps with ⟨taken, rest, hcs, hw, hrun⟩ | ⟨hno, hrun⟩
    · exact Or.inl ⟨w, List.mem_cons_self, taken, rest, hcs, hw, hrun⟩
    · refine Or.inr ⟨fun u hu => ?_, hrun⟩
      obtain rfl := List.mem_singleton.mp hu
      exact hno
  | cons w' ws ih =>
    obtain ⟨hfirst, hrest⟩ := List.pairwise_cons.mp hapart
    have hrun : run (words same w (w' :: ws)) (cs, caps)
        = run (word same w) (cs, caps) ++ run (words same w' ws) (cs, caps) := rfl
    rw [hrun]
    rcases run_word same w cs caps with ⟨taken, rest, hcs, hw, hrun⟩ | ⟨hno, hrun⟩
    · rcases ih hrest with ⟨u, hu, taken', rest', hcs', hu', -⟩ | ⟨-, hnone⟩
      · exact absurd hu' (hfirst u hu _ _ _ _ (hcs.symm.trans hcs') hw)
      · exact Or.inl ⟨w, List.mem_cons_self, taken, rest, hcs, hw, by rw [hrun, hnone]; rfl⟩
    · rw [hrun, List.nil_append]
      rcases ih hrest with ⟨u, hu, taken, rest, hcs, hu', hrun'⟩ | ⟨hno', hnone⟩
      · exact Or.inl ⟨u, List.mem_cons_of_mem _ hu, taken, rest, hcs, hu', hrun'⟩
      · exact Or.inr ⟨List.forall_mem_cons.mpr ⟨hno, hno'⟩, hnone⟩

theorem update_ne_none {caps : Captures} {i j : ℕ} {w : List Char} (h : i ≠ j → caps i ≠ none) :
    Function.update caps j (some w) i ≠ none := by
  by_cases hij : i = j
  · subst hij
    rw [Function.update_self]
    exact Option.some_ne_none _
  · rw [Function.update_of_ne hij]
    exact h hij

/-- A captured group stays captured. -/
theorem captured_of_run {r : Pattern} {s s' : List Char × Captures} {i : ℕ} (h : s' ∈ run r s)
    (hi : s.2 i ≠ none) : s'.2 i ≠ none := by
  induction r generalizing s s' with
  | char p =>
    obtain ⟨cs, caps⟩ := s
    obtain ⟨-, -, -, hcaps⟩ := mem_run_char.mp h
    rwa [hcaps]
  | empty => rwa [mem_run_empty.mp h]
  | seq r t ihr iht =>
    obtain ⟨m, hm, hs'⟩ := mem_run_seq.mp h
    exact iht hs' (ihr hm hi)
  | alt r t ihr iht =>
    rcases mem_run_alt.mp h with h | h
    · exact ihr h hi
    · exact iht h hi
  | many greedy min p =>
    obtain ⟨cs, caps⟩ := s
    obtain ⟨-, -, -, -, hcaps⟩ := mem_run_many h
    rwa [hcaps]
  | group j r ih =>
    obtain ⟨m, hm, rfl⟩ := List.mem_map.mp h
    exact update_ne_none fun _ => ih hm hi

/-- **A group no way through can miss** is captured by every match. -/
theorem captured_of_always {r : Pattern} {s s' : List Char × Captures} {i : ℕ} (h : s' ∈ run r s)
    (hi : always i r = true) : s'.2 i ≠ none := by
  induction r generalizing s s' with
  | char p => cases hi
  | empty => cases hi
  | seq r t ihr iht =>
    obtain ⟨m, hm, hs'⟩ := mem_run_seq.mp h
    rcases Bool.or_eq_true_iff.mp hi with hr | ht
    · exact captured_of_run hs' (ihr hm hr)
    · exact iht hs' ht
  | alt r t ihr iht =>
    obtain ⟨hr, ht⟩ := Bool.and_eq_true_iff.mp hi
    rcases mem_run_alt.mp h with h | h
    · exact ihr h hr
    · exact iht h ht
  | many greedy min p => cases hi
  | group j r ih =>
    obtain ⟨m, hm, rfl⟩ := List.mem_map.mp h
    refine update_ne_none fun hij => ih hm ?_
    exact (Bool.or_eq_true_iff.mp hi).resolve_left fun h => hij (beq_iff_eq.mp h)

theorem mem_of_firstMatch {r : Pattern} {cs : List Char} {s : List Char × Captures}
    (h : firstMatch r cs = some s) : s ∈ run r (cs, fun _ => none) :=
  List.mem_of_head? h

theorem captured_of_find {r : Pattern} {cs : List Char} {caps : Captures} {i : ℕ}
    (h : find r cs = some caps) (hi : always i r = true) : caps i ≠ none := by
  have hfirst : ∀ {cs : List Char}, (firstMatch r cs).map Prod.snd = some caps → caps i ≠ none := by
    intro cs hcs
    obtain ⟨s, hs, rfl⟩ := Option.map_eq_some_iff.mp hcs
    exact captured_of_always (mem_of_firstMatch hs) hi
  induction cs with
  | nil => exact hfirst h
  | cons c cs ih =>
    rcases Option.or_eq_some_iff.mp h with h | ⟨-, h⟩
    · exact hfirst h
    · exact ih h

end Match

/-! ## 3. Replacing -/

section Replace

variable {r : Pattern} {f : Captures → List Char}

/-- Characters that belong to a match are passed over. -/
theorem replaceFrom_eq (k : ℕ) (cs : List Char) :
    replaceFrom r f k cs = replaceAll r f (cs.drop k) := by
  induction k generalizing cs with
  | zero => rfl
  | succ k ih =>
    cases cs with
    | nil => rfl
    | cons c cs =>
      rw [List.drop_succ_cons, ← ih]
      rfl

theorem replaceAll_nil (h : firstMatch r [] = none) : replaceAll r f [] = [] := by
  unfold replaceAll
  rw [replaceFrom, h]

theorem replaceAll_of_none {c : Char} {cs : List Char} (h : firstMatch r (c :: cs) = none) :
    replaceAll r f (c :: cs) = c :: replaceAll r f cs := by
  unfold replaceAll
  rw [replaceFrom, h]

theorem replaceAll_of_some {cs rest : List Char} {caps : Captures}
    (h : firstMatch r cs = some (rest, caps)) (hlength : rest.length < cs.length) :
    replaceAll r f cs = f caps ++ replaceAll r f rest := by
  cases cs with
  | nil => exact absurd hlength (Nat.not_lt_zero _)
  | cons c cs =>
    have hsuffix : rest <:+ c :: cs := run_suffix (mem_of_firstMatch h)
    have hrest : rest <:+ cs := by
      rcases List.suffix_cons_iff.mp hsuffix with rfl | h
      · exact absurd hlength (Nat.lt_irrefl _)
      · exact h
    unfold replaceAll
    rw [replaceFrom, h]
    dsimp only
    have hne : rest.length ≠ cs.length + 1 := Nat.ne_of_lt hlength
    rw [if_neg hne, replaceFrom_eq, ← List.suffix_iff_eq_drop.mp hrest]
    rfl

/-- **A stretch that no match touches** stays: no match that begins before it reaches into it, and
none begins inside. -/
theorem replaceFrom_keeps {before stretch after : List Char}
    (hbefore : ∀ start ≠ [], start <:+ before → ∀ rest caps,
      firstMatch r (start ++ (stretch ++ after)) = some (rest, caps) →
        (stretch ++ after).length ≤ rest.length)
    (hinside : ∀ start ≠ [], start <:+ stretch → firstMatch r (start ++ after) = none)
    {k : ℕ} (hk : k ≤ before.length) :
    ∃ front back, replaceFrom r f k (before ++ (stretch ++ after)) = front ++ stretch ++ back := by
  induction before generalizing k with
  | nil =>
    obtain rfl : k = 0 := Nat.le_zero.mp hk
    refine ⟨[], replaceAll r f after, ?_⟩
    clear hbefore hk
    rw [List.nil_append, List.nil_append]
    induction stretch with
    | nil => rfl
    | cons c cs ih =>
      have hnone := hinside (c :: cs) (List.cons_ne_nil _ _) (List.suffix_refl _)
      rw [List.cons_append] at hnone
      have hstep := @replaceAll_of_none r f _ _ hnone
      unfold replaceAll at hstep
      rw [List.cons_append, hstep, List.cons_append, ih]
      exact fun start hne hsuffix => hinside start hne (hsuffix.trans (List.suffix_cons _ _))
  | cons b before ih =>
    have ih' := @ih fun start hne hsuffix =>
      hbefore start hne (hsuffix.trans (List.suffix_cons _ _))
    cases k with
    | succ k => exact ih' (Nat.le_of_succ_le_succ hk)
    | zero =>
      obtain ⟨front, back, hkeeps⟩ := ih' (Nat.zero_le _)
      have hreach := hbefore (b :: before) (List.cons_ne_nil _ _) (List.suffix_refl _)
      rw [List.cons_append] at hreach ⊢
      rw [replaceFrom]
      rcases hmatch : firstMatch r (b :: (before ++ (stretch ++ after))) with _ | ⟨rest, caps⟩
      · exact ⟨b :: front, back, by rw [hkeeps]; rfl⟩
      · dsimp only
        split
        · exact ⟨f caps ++ b :: front, back, by rw [hkeeps]; simp⟩
        · have hrest := hreach rest caps hmatch
          obtain ⟨front', back', hkeeps'⟩ := @ih'
            ((before ++ (stretch ++ after)).length - rest.length) (by
              rw [List.length_append]
              omega)
          exact ⟨f caps ++ front', back', by rw [hkeeps']; simp⟩

end Replace

end Pattern

end Regex
