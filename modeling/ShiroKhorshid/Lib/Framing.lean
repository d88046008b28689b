/-
# Frames in a stream

A code turns each item into a frame, and a stream is frames one after the other.  When no frame
starts another one with the same beginning (`PrefixFree`) and no frame is empty, a stream can be cut
in one way only.

* The frames at the front of a piece of a stream are the first items that were sent, in order, and
  what follows them in the stream is what follows them in the piece, and then the rest of it
  (`items_in_order`, by induction on the frames).
* A piece that ends in no complete frame and is the whole stream holds all the items (`items_eq`).

Where the pieces come from and how long they are does not matter: a decoder is right if the frames
it has handed out, and then what it keeps, are what it has read.

Nothing is asked of the code beyond the two conditions.  That a decoder finds the frame at the front
of what it has is its own affair.
-/
import Mathlib.Data.List.Basic

namespace Framing

variable {α β : Type*}

/-- Two streams that start with the frame of a proper item each and are the same start with the
same item. -/
def PrefixFree (enc : α → List β) (Ok : α → Prop) : Prop :=
  ∀ a b x y, Ok a → Ok b → enc a ++ x = enc b ++ y → a = b

/-- The stream of a list of items. -/
def stream (enc : α → List β) (as : List α) : List β := as.flatMap enc

variable {enc : α → List β} {Ok : α → Prop}

@[simp] theorem stream_nil : stream enc [] = [] := rfl

@[simp] theorem stream_cons (a : α) (as : List α) :
    stream enc (a :: as) = enc a ++ stream enc as := rfl

@[simp] theorem stream_append (as bs : List α) :
    stream enc (as ++ bs) = stream enc as ++ stream enc bs := by
  simp [stream]

/-- **The frames at the front of a piece of a stream are its first items.**  What follows them in
the stream is what follows in the piece, and the rest. -/
theorem items_in_order (hfree : PrefixFree enc Ok) (hne : ∀ a, enc a ≠ []) {as bs : List α}
    {x rest : List β} (has : ∀ a ∈ as, Ok a) (hbs : ∀ b ∈ bs, Ok b)
    (h : stream enc as ++ x ++ rest = stream enc bs) :
    ∃ cs, bs = as ++ cs ∧ x ++ rest = stream enc cs := by
  induction as generalizing bs with
  | nil => exact ⟨bs, rfl, by simpa using h⟩
  | cons a as ih =>
    cases bs with
    | nil =>
      simp only [stream_cons, stream_nil, List.append_assoc, List.append_eq_nil_iff] at h
      exact absurd h.1 (hne a)
    | cons b bs =>
      simp only [stream_cons, List.append_assoc] at h
      obtain rfl := hfree a b _ _ (has a (by simp)) (hbs b (by simp)) h
      obtain ⟨cs, rfl, hcs⟩ := ih (fun c hc => has c (List.mem_cons_of_mem a hc))
        (fun c hc => hbs c (List.mem_cons_of_mem a hc)) (by simpa using h)
      exact ⟨cs, rfl, hcs⟩

/-- **A piece that ends in no complete frame and is the whole stream holds every item.** -/
theorem items_eq (hfree : PrefixFree enc Ok) (hne : ∀ a, enc a ≠ []) {as bs : List α} {x : List β}
    (has : ∀ a ∈ as, Ok a) (hbs : ∀ b ∈ bs, Ok b) (hx : ∀ a y, Ok a → x ≠ enc a ++ y)
    (h : stream enc as ++ x = stream enc bs) : as = bs := by
  obtain ⟨cs, rfl, hcs⟩ :=
    @items_in_order _ _ enc Ok hfree hne as bs x [] has hbs (by simpa using h)
  cases cs with
  | nil => simp
  | cons c cs =>
    rw [List.append_nil, stream_cons] at hcs
    exact absurd hcs (hx c _ (hbs c (by simp)))

end Framing
