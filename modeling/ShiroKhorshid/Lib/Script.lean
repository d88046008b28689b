/-
# Scripts that can be cut short

A coroutine runs from one suspension point to the next, and at each of them it may be thrown out:
by a cancellation or by an exception of what it waits for.  What it has done so far stays done,
so a script is an `EStateM` program: the state survives a throw.

* `suspend` is a suspension point, with what happens there as its argument; the rules for it and for
  binds and handlers compute a script from left to right once that is known.
* A script that owns a switch (a tunnel, a lock, a lamp) turns it on and off as it goes.
  `LeftOn on off steps` says that the last step that turned it on is not followed by one that turns
  it off, and `leftOn_flatMap_iff` reads that off the record of what was done: the switch is on
  exactly where the last thing done was to turn it on.

The steps are whatever the record has, so that a theorem can be about the attempts of a loop and the
record about the calls they make.  Nothing here is about time: a suspension lasts as long as it
does.
-/
import Mathlib.Data.List.Induction

namespace Script

/-! ## 1. Suspension points -/

section Suspend

variable {ε σ α β : Type}

/-- The script waits, and goes on unless something is thrown. -/
def suspend (thrown : Option ε) : EStateM ε σ Unit :=
  match thrown with
  | some e => throw e
  | none => pure ()

@[simp] theorem suspend_none_bind (k : Unit → EStateM ε σ β) (s : σ) :
    (suspend none >>= k) s = k () s := rfl

@[simp] theorem suspend_some_bind (e : ε) (k : Unit → EStateM ε σ β) (s : σ) :
    (suspend (some e) >>= k) s = .error e s := rfl

@[simp] theorem pure_apply (a : α) (s : σ) : (pure a : EStateM ε σ α) s = .ok a s := rfl

/-- What follows a script that has returned. -/
theorem bind_apply_ok {x : EStateM ε σ α} {k : α → EStateM ε σ β} {s s' : σ} {a : α}
    (h : x s = .ok a s') : (x >>= k) s = k a s' := by
  change EStateM.bind x k s = k a s'
  rw [EStateM.bind, h]

/-- Nothing follows a script that has been thrown out. -/
theorem bind_apply_error {x : EStateM ε σ α} {k : α → EStateM ε σ β} {s s' : σ} {e : ε}
    (h : x s = .error e s') : (x >>= k) s = .error e s' := by
  change EStateM.bind x k s = .error e s'
  rw [EStateM.bind, h]

/-- Nothing to catch. -/
theorem tryCatch_apply_ok {x : EStateM ε σ α} {handler : ε → EStateM ε σ α} {s s' : σ} {a : α}
    (h : x s = .ok a s') : (tryCatch x handler) s = .ok a s' := by
  change EStateM.tryCatch x handler s = .ok a s'
  simp only [EStateM.tryCatch, h]

/-- What is thrown is handled in the state it was thrown in. -/
theorem tryCatch_apply_error {x : EStateM ε σ α} {handler : ε → EStateM ε σ α} {s s' : σ} {e : ε}
    (h : x s = .error e s') : (tryCatch x handler) s = handler e s' := by
  change EStateM.tryCatch x handler s = handler e s'
  simp only [EStateM.tryCatch, h]
  rfl

end Suspend

/-! ## 2. What is left on -/

section LeftOn

variable {α E : Type} (on off : α → Prop)

/-- Some step turned the switch on, and no later step turned it off. -/
def LeftOn (steps : List α) : Prop :=
  ∃ before a after, steps = before ++ a :: after ∧ on a ∧ ∀ b ∈ after, ¬ off b

variable {on off}

theorem not_leftOn_nil : ¬ LeftOn on off [] := by
  rintro ⟨before, a, after, h, -⟩
  simp at h

theorem leftOn_append_singleton_iff {steps : List α} {a : α} :
    LeftOn on off (steps ++ [a]) ↔ on a ∨ (¬ off a ∧ LeftOn on off steps) := by
  constructor
  · rintro ⟨before, b, after, h, hon, hoff⟩
    induction after using List.reverseRecOn with
    | nil =>
      obtain ⟨-, hb⟩ := List.append_inj' h rfl
      obtain rfl := List.singleton_inj.mp hb
      exact Or.inl hon
    | append_singleton after c _ =>
      have hsplit : steps ++ [a] = (before ++ b :: after) ++ [c] := by rw [h]; simp
      obtain ⟨rfl, hc⟩ := List.append_inj' hsplit rfl
      obtain rfl := List.singleton_inj.mp hc
      refine Or.inr ⟨hoff a (by simp), before, b, after, rfl, hon, ?_⟩
      intro d hd
      exact hoff d (by simp [hd])
  · rintro (hon | ⟨hoff, before, b, after, rfl, hon, hafter⟩)
    · exact ⟨steps, a, [], rfl, hon, by simp⟩
    · refine ⟨before, b, after ++ [a], by simp, hon, ?_⟩
      intro d hd
      rcases List.mem_append.mp hd with hd | hd
      · exact hafter d hd
      · rwa [List.mem_singleton.mp hd]

/-- **The switch is on exactly when the last thing done was to turn it on.**  Each step does the
things in `done`, and turns the switch on when `turnOn` is the last of them; a step that does not
turn it on turns it off when it does anything at all. -/
theorem leftOn_flatMap_iff {done : α → List E} {turnOn : E}
    (hon : ∀ a, on a ↔ (done a).getLast? = some turnOn)
    (hoff : ∀ a, ¬ on a → (off a ↔ done a ≠ [])) (steps : List α) :
    (steps.flatMap done).getLast? = some turnOn ↔ LeftOn on off steps := by
  induction steps using List.reverseRecOn with
  | nil => exact iff_of_false (by simp) not_leftOn_nil
  | append_singleton steps a ih =>
    rw [leftOn_append_singleton_iff, List.flatMap_append, List.flatMap_singleton]
    by_cases ha : on a
    · have hlast := (hon a).mp ha
      rw [List.getLast?_append, hlast]
      exact iff_of_true rfl (Or.inl ha)
    · rw [or_iff_right ha, hoff a ha, not_not, List.getLast?_append]
      by_cases hnil : done a = []
      · simpa [hnil] using ih
      · obtain ⟨e, he⟩ := Option.ne_none_iff_exists'.mp
          (fun h => hnil (List.getLast?_eq_none_iff.mp h))
        rw [he]
        refine iff_of_false ?_ (fun h => hnil h.1)
        intro hsome
        exact ha ((hon a).mpr (he.trans hsome))

end LeftOn

end Script
