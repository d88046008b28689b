/-
# Secrets in the event log (`AzadiEventLogger`)

A detail that goes into the event log is redacted first, by two replacements one after the other:
what follows `name=` up to the next white space, and the value of a JSON member `"name":"value"`.
A name is `password`, `secret`, `token` or `key` in any case.

Two details are `Alike` if they differ in secret values only.  The first expression finds every
such value in plain text, and takes all up to the next white space, what is no secret too.  The
second works on what the first has left, and takes a JSON value to end at the first quote, escaped
or not, so that the rest of a value with a quote in it is logged.

* A match of the first expression is described exactly (`plainSecret_cases`), one of the second by
  its shape (`jsonSecret_shape`).
* Texts that differ in plain secrets only come out of the first replacement the same
  (`PlainAlike.replaceAll_eq`, by induction on the length).
* A text with a JSON member has one that is alike and is logged with as many characters of the
  secret as one likes (`length_le_redactChars`, `exists_alike_of_hasJsonSecret`).

Which pairs of details are logged alike is the subject of `RedactedAlike`.

What `\s` is and how `(?i)` compares is the engine's affair (`Engine`); the platform's differs from
the one of the Java library outside ASCII.
-/
import Mathlib.Data.List.Forall2
import Mathlib.Data.List.Pairwise
import ShiroKhorshid.Dotted
import ShiroKhorshid.Lib.Cut
import ShiroKhorshid.Lib.Regex

namespace ShiroKhorshid.Log.Redaction

open Jvm Regex

/-! ## 1. The source -/

/-- The upper-case letters of ASCII become lower-case ones. -/
def asciiLower (c : Char) : Char :=
  if 0x41 ≤ c.toNat ∧ c.toNat ≤ 0x5A then Char.ofNat (c.toNat + 0x20) else c

/-- The letters of the four names. -/
def nameLetters : List Char := "passwordecrttokenkey".toList

/-- The expression engine: `\s`, and whether a character stands for a letter under `(?i)`. -/
structure Engine where
  space : Char → Bool
  fold : Char → Char → Bool
  space_blank : space ' ' = true
  not_space : ∀ c, 0x21 ≤ c.toNat → c.toNat ≤ 0x7E → space c = false
  fold_case : ∀ l ∈ nameLetters, ∀ c, asciiLower c = l → fold l c = true
  fold_ascii : ∀ l ∈ nameLetters, ∀ c, fold l c = true → c.toNat < 0x80 → asciiLower c = l
  /-- a character outside ASCII that stands for a letter is a letter -/
  fold_other : ∀ l ∈ nameLetters, ∀ c, fold l c = true → 0x80 ≤ c.toNat →
    space c = false ∧ isWhitespace c = false
  fold_unique : ∀ l l' c, fold l c = true → fold l' c = true → l = l'

section Source

variable (E : Engine)

def password : List Char := "password".toList
def secret : List Char := "secret".toList
def token : List Char := "token".toList
def key : List Char := "key".toList

/-- `(password|secret|token|key)` -/
def names : Pattern := .group 1 (.words E.fold password [secret, token, key])

/-- `\S` -/
def notSpace (c : Char) : Bool := !E.space c

/-- `(?i)(password|secret|token|key)=\S+` -/
def plainSecret : Pattern :=
  .seq (names E) (.seq (.char (· == '=')) (.many true 1 (notSpace E)))

/-- `(?i)"(password|secret|token|key)"\s*:\s*"[^"]*"` -/
def jsonSecret : Pattern :=
  .seq (.char (· == '"')) (.seq (names E) (.seq (.char (· == '"'))
    (.seq (.many true 0 E.space) (.seq (.char (· == ':')) (.seq (.many true 0 E.space)
      (.seq (.char (· == '"')) (.seq (.many true 0 (· != '"')) (.char (· == '"')))))))))

/-- `$1=[REDACTED]` -/
def plainRedacted (caps : Captures) : List Char := (caps 1).getD [] ++ "=[REDACTED]".toList

/-- `"$1":"[REDACTED]"` -/
def jsonRedacted (caps : Captures) : List Char :=
  '"' :: ((caps 1).getD [] ++ "\":\"[REDACTED]\"".toList)

/-- `redact`, on characters. -/
def redactChars (text : List Char) : List Char :=
  (jsonSecret E).replaceAll jsonRedacted ((plainSecret E).replaceAll plainRedacted text)

end Source

/-! ## 2. Details that differ in secrets -/

/-- `password`, `secret`, `token` or `key`, in any letter case. -/
def IsName (n : List Char) : Prop := n.map asciiLower ∈ [password, secret, token, key]

instance (n : List Char) : Decidable (IsName n) := inferInstanceAs (Decidable (_ ∈ _))

/-- The white space of JSON. -/
def jsonSpace : List Char := [' ', '\t', '\n', '\r']

/-- What stands between the quotes of a JSON string. -/
inductive JsonBody : List Char → Prop
  | nil : JsonBody []
  | plain {c : Char} {cs : List Char} : c ≠ '"' → c ≠ '\\' → 0x20 ≤ c.toNat → JsonBody cs →
      JsonBody (c :: cs)
  | escape {c : Char} {cs : List Char} : c ∈ ['"', '\\', '/', 'b', 'f', 'n', 'r', 't'] →
      JsonBody cs → JsonBody ('\\' :: c :: cs)
  | unicode {hex cs : List Char} : hex.length = 4 →
      (∀ c ∈ hex, c ∈ "0123456789abcdefABCDEF".toList) → JsonBody cs →
      JsonBody ('\\' :: 'u' :: (hex ++ cs))

/-- A member with a string value, and the text after it. -/
def member (name ws ws' value after : List Char) : List Char :=
  '"' :: (name ++ '"' :: (ws ++ ':' :: (ws' ++ '"' :: (value ++ '"' :: after))))

/-- A text that is over, or goes on with white space. -/
def Ended (E : Engine) (text : List Char) : Prop := ∀ c ∈ text.head?, E.space c = true

/-- **The texts differ in secret values only.** -/
inductive Alike (E : Engine) : List Char → List Char → Prop
  | nil : Alike E [] []
  | same (c : Char) {a b : List Char} : Alike E a b → Alike E (c :: a) (c :: b)
  /-- what follows `name=` -/
  | plain {name v w a b : List Char} : IsName name → v ≠ [] → w ≠ [] →
      (∀ c ∈ v, notSpace E c = true) → (∀ c ∈ w, notSpace E c = true) → Ended E a → Ended E b →
      Alike E a b → Alike E (name ++ '=' :: (v ++ a)) (name ++ '=' :: (w ++ b))
  /-- the value of a JSON member -/
  | json {name ws ws' v w a b : List Char} : IsName name → (∀ c ∈ ws, c ∈ jsonSpace) →
      (∀ c ∈ ws', c ∈ jsonSpace) → JsonBody v → JsonBody w → Alike E a b →
      Alike E (member name ws ws' v a) (member name ws ws' w b)

/-- There is a JSON member with a secret in the text. -/
def HasJsonSecret (text : List Char) : Prop :=
  ∃ front name ws ws' value after, text = front ++ member name ws ws' value after ∧
    IsName name ∧ (∀ c ∈ ws, c ∈ jsonSpace) ∧ (∀ c ∈ ws', c ∈ jsonSpace) ∧ JsonBody value

theorem Alike.refl (E : Engine) (text : List Char) : Alike E text text := by
  induction text with
  | nil => exact .nil
  | cons c text ih => exact .same c ih

theorem Alike.append_left {E : Engine} (front : List Char) {a b : List Char} (h : Alike E a b) :
    Alike E (front ++ a) (front ++ b) := by
  induction front with
  | nil => exact h
  | cons c front ih => exact .same c ih

/-! ## 3. The names -/

section Names

variable (E : Engine)

/-- A name, for the engine. -/
def Named (n : List Char) : Prop :=
  ∃ u ∈ [password, secret, token, key], List.Forall₂ (fun l c => E.fold l c = true) u n

theorem letters_mem {u : List Char} (hu : u ∈ [password, secret, token, key]) {l : Char}
    (hl : l ∈ u) : l ∈ nameLetters := by
  have hall : [password, secret, token, key].all
      (fun u => u.all (nameLetters.contains ·)) = true := by
    decide
  have hword := List.all_eq_true.mp (List.all_eq_true.mp hall u hu) l hl
  exact List.contains_iff_mem.mp hword

theorem IsName.named {n : List Char} (h : IsName n) : Named E n := by
  refine ⟨_, h, ?_⟩
  rw [List.forall₂_map_left_iff, List.forall₂_same]
  intro c hc
  exact E.fold_case _ (letters_mem h (List.mem_map_of_mem hc)) c rfl

theorem names_apart :
    [password, secret, token, key].Pairwise (Pattern.Apart E.fold) := by
  have hapart : ∀ l l' u v, l ≠ l' → Pattern.Apart E.fold (l :: u) (l' :: v) := by
    intro l l' u v hne
    exact Pattern.apart_of_head fun c hc hc' => hne (E.fold_unique l l' c hc hc')
  refine .cons (fun u hu => ?_) (.cons (fun u hu => ?_) (.cons (fun u hu => ?_)
    (.cons (fun u hu => absurd hu List.not_mem_nil) .nil)))
  all_goals
    simp only [List.mem_cons, List.not_mem_nil, or_false] at hu
  · rcases hu with rfl | rfl | rfl <;> exact hapart _ _ _ _ (by decide)
  · rcases hu with rfl | rfl <;> exact hapart _ _ _ _ (by decide)
  · subst hu
    exact hapart _ _ _ _ (by decide)

/-- A letter is visible ASCII, in either case. -/
theorem asciiLower_visible {c : Char} (h : asciiLower c ∈ nameLetters) :
    0x21 ≤ c.toNat ∧ c.toNat ≤ 0x7E := by
  unfold asciiLower at h
  split at h
  · omega
  · have hall : nameLetters.all (fun l => 0x21 ≤ l.toNat && l.toNat ≤ 0x7E) = true := by decide
    have hc := List.all_eq_true.mp hall c h
    rw [Bool.and_eq_true, decide_eq_true_eq, decide_eq_true_eq] at hc
    exact hc

theorem isWhitespace_of_visible {c : Char} (h : 0x21 ≤ c.toNat ∧ c.toNat ≤ 0x7E) :
    isWhitespace c = false := by
  simp only [isWhitespace, Bool.or_eq_false_iff, Bool.and_eq_false_iff, decide_eq_false_iff_not,
    beq_eq_false_iff_ne, ne_eq]
  omega

/-- What delimits a secret, and what is no letter of a name. -/
def delimiters : List Char := ['=', '"', '\\', ':', '[', '\x7b', ' ', 'x']

/-- The characters of a name are visible, and none of those that delimit. -/
theorem Named.mem {n : List Char} (h : Named E n) {c : Char} (hc : c ∈ n) :
    E.space c = false ∧ isWhitespace c = false ∧ c ∉ delimiters := by
  obtain ⟨u, hu, hforall⟩ := h
  obtain ⟨l, hl, hfold⟩ := Dotted.exists_of_mem_left hforall.flip hc
  have hletter := letters_mem hu hl
  by_cases hascii : c.toNat < 0x80
  · have hlower : asciiLower c ∈ nameLetters := by
      rwa [E.fold_ascii l hletter c hfold hascii]
    have hvisible := asciiLower_visible hlower
    refine ⟨E.not_space c hvisible.1 hvisible.2, isWhitespace_of_visible hvisible, fun hmem => ?_⟩
    have hall : delimiters.all (fun d => !nameLetters.contains (asciiLower d)) = true := by decide
    have hno := List.all_eq_true.mp hall c hmem
    rw [Bool.not_eq_true', ← Bool.not_eq_true, List.contains_iff_mem] at hno
    exact hno hlower
  · obtain ⟨hspace, hwhite⟩ := E.fold_other l hletter c hfold (Nat.not_lt.mp hascii)
    refine ⟨hspace, hwhite, fun hmem => hascii ?_⟩
    have hall : delimiters.all (fun d => d.toNat < 0x80) = true := by decide
    exact of_decide_eq_true (List.all_eq_true.mp hall c hmem)

theorem Named.ne_nil {n : List Char} (h : Named E n) : n ≠ [] := by
  obtain ⟨u, hu, hforall⟩ := h
  rintro rfl
  rw [List.forall₂_nil_right_iff] at hforall
  subst hforall
  revert hu
  decide

/-- A text begins with one name at most. -/
theorem Named.unique {n n' r r' : List Char} (h : Named E n) (h' : Named E n')
    (heq : n ++ r = n' ++ r') : n = n' ∧ r = r' := by
  obtain ⟨u, hu, hforall⟩ := h
  obtain ⟨u', hu', hforall'⟩ := h'
  have hsame : u = u' := by
    by_contra hne
    exact (names_apart E).forall hu hu' hne _ _ _ _ heq hforall hforall'
  subst hsame
  exact List.append_inj heq (hforall.length_eq.symm.trans hforall'.length_eq)

end Names

/-! ## 4. The expressions -/

section Expressions

variable (E : Engine)

/-- **A name** at the beginning of the text is captured, or there is no way through. -/
theorem run_names (cs : List Char) (caps : Captures) :
    (∃ n rest, cs = n ++ rest ∧ Named E n ∧
      (names E).run (cs, caps) = [(rest, Function.update caps 1 (some n))]) ∨
    (∀ n rest, cs = n ++ rest → ¬ Named E n) ∧ (names E).run (cs, caps) = [] := by
  unfold names Pattern.run
  rcases Pattern.run_words (names_apart E) cs caps with
    ⟨u, hu, n, rest, rfl, hforall, hrun⟩ | ⟨hno, hrun⟩
  · refine Or.inl ⟨n, rest, rfl, ⟨u, hu, hforall⟩, ?_⟩
    rw [hrun, List.map_singleton, List.length_append, Nat.add_sub_cancel_right, List.take_left]
  · refine Or.inr ⟨fun n rest hcs => ?_, ?_⟩
    · rintro ⟨u, hu, hforall⟩
      exact hno u hu n rest hcs hforall
    · rw [hrun, List.map_nil]

/-- `name=` and what is not white space begins the text. -/
def PlainAt (cs n tail : List Char) : Prop :=
  cs = n ++ '=' :: tail ∧ Named E n ∧ ∃ c ∈ tail.head?, E.space c = false

/-- **The first expression** matches exactly there, and takes all up to the next white space. -/
theorem plainSecret_cases (cs : List Char) :
    (∃ n tail, PlainAt E cs n tail ∧ (plainSecret E).firstMatch cs
      = some (tail.dropWhile (notSpace E), Function.update (fun _ => none) 1 (some n))) ∨
    (∀ n tail, ¬ PlainAt E cs n tail) ∧ (plainSecret E).firstMatch cs = none := by
  unfold Pattern.firstMatch plainSecret
  rw [Pattern.run]
  rcases run_names E cs (fun _ => none) with ⟨n, rest, rfl, hn, hrun⟩ | ⟨hno, hrun⟩
  · rw [hrun, List.flatMap_singleton, Pattern.run]
    have honly : ∀ n' tail, PlainAt E (n ++ rest) n' tail →
        rest = '=' :: tail ∧ ∃ c ∈ tail.head?, E.space c = false := by
      rintro n' tail ⟨heq, hn', hc⟩
      exact ⟨(hn.unique E hn' heq).2, hc⟩
    cases rest with
    | nil => exact Or.inr ⟨fun n' tail h => List.cons_ne_nil _ _ (honly n' tail h).1.symm, rfl⟩
    | cons d tail =>
      by_cases hd : d = '='
      · subst hd
        have hchar : ∀ caps, (Pattern.char (· == '=')).run ('=' :: tail, caps) = [(tail, caps)] :=
          fun caps => rfl
        rw [hchar, List.flatMap_singleton, Pattern.head?_run_many]
        cases tail with
        | nil =>
          refine Or.inr ⟨fun n' tail h => ?_, rfl⟩
          obtain ⟨heq, c, hc, -⟩ := honly n' tail h
          obtain rfl := (List.cons.inj heq).2
          cases hc
        | cons c tail =>
          cases hc : E.space c with
          | false =>
            refine Or.inl ⟨n, c :: tail, ⟨rfl, hn, c, rfl, hc⟩, if_pos ?_⟩
            rw [List.takeWhile_cons_of_pos (by simp [notSpace, hc]), List.length_cons]
            exact Nat.succ_le_succ (Nat.zero_le _)
          | true =>
            refine Or.inr ⟨fun n' tail' h => ?_, if_neg ?_⟩
            · obtain ⟨heq, c', hc', hspace⟩ := honly n' tail' h
              obtain rfl := (List.cons.inj heq).2
              obtain rfl := Option.some.inj hc'
              rw [hc] at hspace
              cases hspace
            · rw [List.takeWhile_cons_of_neg (by simp [notSpace, hc]), List.length_nil]
              exact Nat.not_succ_le_zero 0
      · refine Or.inr ⟨fun n' tail' h => hd (List.cons.inj (honly n' tail' h).1).1, ?_⟩
        simp [Pattern.run, hd]
  · rw [hrun, List.flatMap_nil]
    exact Or.inr ⟨fun n tail h => hno n _ h.1 h.2.1, rfl⟩

/-- **The second expression** matches nothing but a member whose value has no quote. -/
theorem jsonSecret_shape {cs rest : List Char} {caps : Captures}
    (h : (jsonSecret E).firstMatch cs = some (rest, caps)) :
    ∃ n ws ws' value, cs = member n ws ws' value rest ∧ Named E n ∧
      (∀ c ∈ ws, E.space c = true) ∧ (∀ c ∈ ws', E.space c = true) ∧ '"' ∉ value ∧
      caps 1 = some n := by
  have hmem := Pattern.mem_of_firstMatch h
  unfold jsonSecret at hmem
  simp only [Pattern.mem_run_seq, Prod.exists] at hmem
  obtain ⟨r₁, k₁, h₁, r₂, k₂, h₂, r₃, k₃, h₃, r₄, k₄, h₄, r₅, k₅, h₅, r₆, k₆, h₆, r₇, k₇, h₇, r₈,
    k₈, h₈, h₉⟩ := hmem
  obtain ⟨_, rfl, hq₁, -⟩ := Pattern.mem_run_char.mp h₁
  obtain ⟨_, rfl, hq₃, hk₃⟩ := Pattern.mem_run_char.mp h₃
  obtain ⟨ws, rfl, -, hws, hk₄⟩ := Pattern.mem_run_many h₄
  obtain ⟨_, rfl, hq₅, hk₅⟩ := Pattern.mem_run_char.mp h₅
  obtain ⟨ws', rfl, -, hws', hk₆⟩ := Pattern.mem_run_many h₆
  obtain ⟨_, rfl, hq₇, hk₇⟩ := Pattern.mem_run_char.mp h₇
  obtain ⟨value, rfl, -, hvalue, hk₈⟩ := Pattern.mem_run_many h₈
  obtain ⟨_, rfl, hq₉, hk₉⟩ := Pattern.mem_run_char.mp h₉
  obtain rfl := beq_iff_eq.mp hq₁
  obtain rfl := beq_iff_eq.mp hq₃
  obtain rfl := beq_iff_eq.mp hq₅
  obtain rfl := beq_iff_eq.mp hq₇
  obtain rfl := beq_iff_eq.mp hq₉
  rcases run_names E r₁ k₁ with ⟨n, rest', rfl, hn, hrun⟩ | ⟨-, hrun⟩
  · rw [hrun] at h₂
    obtain ⟨rfl, hk₂⟩ := Prod.mk.inj (List.mem_singleton.mp h₂)
    refine ⟨n, ws, ws', value, rfl, hn, hws, hws', fun hquote => ?_, ?_⟩
    · have hne := hvalue '"' hquote
      cases hne
    · -- the group is captured once and nothing after it captures
      have hcaps : caps = k₂ :=
        hk₉.trans (hk₈.trans (hk₇.trans (hk₆.trans (hk₅.trans (hk₄.trans hk₃)))))
      rw [hcaps, hk₂, Function.update_self]
  · rw [hrun] at h₂
    exact absurd h₂ List.not_mem_nil

end Expressions

/-! ## 5. Plain secrets -/

/-- `Alike`, without members. -/
inductive PlainAlike (E : Engine) : List Char → List Char → Prop
  | nil : PlainAlike E [] []
  | same (c : Char) {a b : List Char} : PlainAlike E a b → PlainAlike E (c :: a) (c :: b)
  | plain {name v w a b : List Char} : IsName name → v ≠ [] → w ≠ [] →
      (∀ c ∈ v, notSpace E c = true) → (∀ c ∈ w, notSpace E c = true) → Ended E a → Ended E b →
      PlainAlike E a b → PlainAlike E (name ++ '=' :: (v ++ a)) (name ++ '=' :: (w ++ b))

section Plain

variable {E : Engine} {a b : List Char}

theorem HasJsonSecret.append_left {text : List Char} (front : List Char)
    (h : HasJsonSecret text) : HasJsonSecret (front ++ text) := by
  obtain ⟨front', name, ws, ws', value, after, rfl, hrest⟩ := h
  exact ⟨front ++ front', name, ws, ws', value, after, (List.append_assoc _ _ _).symm, hrest⟩

/-- Without a member there is nothing else to differ in. -/
theorem Alike.plainAlike (h : Alike E a b) (hno : ¬ HasJsonSecret a) : PlainAlike E a b := by
  induction h with
  | nil => exact .nil
  | same c h ih => exact .same c (ih fun hsecret => hno (hsecret.append_left [c]))
  | @plain name v w a b hname hv hw hvs hws ha hb h ih =>
    refine .plain hname hv hw hvs hws ha hb (ih fun hsecret => hno ?_)
    have hwhole := hsecret.append_left (name ++ '=' :: v)
    rwa [List.append_assoc, List.cons_append] at hwhole
  | @json name ws ws' v w a b hname hws hws' hv hw h ih =>
    exact absurd ⟨[], name, ws, ws', v, a, rfl, hname, hws, hws', hv⟩ hno

theorem PlainAlike.symm (h : PlainAlike E a b) : PlainAlike E b a := by
  induction h with
  | nil => exact .nil
  | same c _ ih => exact .same c ih
  | plain hname hv hw hvs hws ha hb _ ih => exact .plain hname hw hv hws hvs hb ha ih

theorem PlainAlike.head?_eq (h : PlainAlike E a b) : a.head? = b.head? := by
  cases h with
  | nil => rfl
  | same c _ => rfl
  | @plain name v w a b hname =>
    cases name with
    | nil => exact absurd rfl ((hname.named E).ne_nil E)
    | cons c name => rfl

/-- A name, the sign and what follows are no white space. -/
theorem dropWhile_secret {n v after : List Char} (hn : Named E n)
    (hv : ∀ c ∈ v, notSpace E c = true) :
    (n ++ '=' :: (v ++ after)).dropWhile (notSpace E) = after.dropWhile (notSpace E) := by
  have hsign : notSpace E '=' = true := by
    rw [notSpace, E.not_space '=' (by decide) (by decide)]
    rfl
  have hall : ∀ c ∈ n ++ '=' :: v, notSpace E c = true := by
    intro c hc
    rcases List.mem_append.mp hc with hc | hc
    · rw [notSpace, (hn.mem E hc).1]
      rfl
    · rcases List.mem_cons.mp hc with rfl | hc
      · exact hsign
      · exact hv c hc
  rw [show n ++ '=' :: (v ++ after) = (n ++ '=' :: v) ++ after by simp,
    List.dropWhile_append_of_pos hall]

/-- What is left after the next white space is alike too. -/
theorem PlainAlike.dropWhile (h : PlainAlike E a b) :
    PlainAlike E (a.dropWhile (notSpace E)) (b.dropWhile (notSpace E)) := by
  induction h with
  | nil => exact .nil
  | @same c a b h ih =>
    cases hc : notSpace E c with
    | true => rwa [List.dropWhile_cons_of_pos hc, List.dropWhile_cons_of_pos hc]
    | false =>
      rw [List.dropWhile_cons_of_neg (by rw [hc]; exact Bool.false_ne_true),
        List.dropWhile_cons_of_neg (by rw [hc]; exact Bool.false_ne_true)]
      exact .same c h
  | @plain name v w a b hname hv hw hvs hws ha hb h ih =>
    rwa [dropWhile_secret (hname.named E) hvs, dropWhile_secret (hname.named E) hws]

/-- The rest of a name stands at the beginning of both, with what makes it a secret. -/
theorem PlainAlike.rest_of_name (h : PlainAlike E a b) {n tail : List Char}
    (hn : ∀ c ∈ n, c ∉ delimiters) (ha : a = n ++ '=' :: tail)
    (htail : ∃ c ∈ tail.head?, E.space c = false) :
    ∃ tail', b = n ++ '=' :: tail' ∧ ∃ c ∈ tail'.head?, E.space c = false := by
  induction h generalizing n with
  | nil => exact absurd ha.symm (List.append_ne_nil_of_right_ne_nil _ (List.cons_ne_nil _ _))
  | @same c a b h ih =>
    cases n with
    | nil =>
      obtain ⟨rfl, rfl⟩ := List.cons.inj ha
      rw [h.head?_eq] at htail
      exact ⟨b, rfl, htail⟩
    | cons d n =>
      obtain ⟨rfl, ha'⟩ := List.cons.inj ha
      obtain ⟨tail', rfl, htail'⟩ := ih (fun c hc => hn c (List.mem_cons_of_mem _ hc)) ha'
      exact ⟨tail', rfl, htail'⟩
  | @plain name v w a b hname hv hw hvs hws hEnded hEnded' h ih =>
    have hsign : '=' ∉ name := fun hmem =>
      ((hname.named E).mem E hmem).2.2 (by decide)
    have hsign' : '=' ∉ n := fun hmem => hn _ hmem (by decide)
    obtain ⟨rfl, -⟩ := Cut.append_cons_inj ha hsign hsign'
    refine ⟨w ++ b, rfl, ?_⟩
    cases w with
    | nil => exact absurd rfl hw
    | cons c w =>
      have hc := hws c List.mem_cons_self
      rw [notSpace, Bool.not_eq_true'] at hc
      exact ⟨c, rfl, hc⟩

/-- **A secret of one text** is a secret of the other, under the same name. -/
theorem PlainAlike.plainAt (h : PlainAlike E a b) {n tail : List Char}
    (ha : PlainAt E a n tail) : ∃ tail', PlainAt E b n tail' := by
  obtain ⟨heq, hn, htail⟩ := ha
  obtain ⟨tail', hb, htail'⟩ := h.rest_of_name (fun c hc => (hn.mem E hc).2.2) heq htail
  exact ⟨tail', hb, hn, htail'⟩

/-- A match ends at the next white space of the whole text. -/
theorem PlainAt.dropWhile_eq {text n tail : List Char} (h : PlainAt E text n tail) :
    text.dropWhile (notSpace E) = tail.dropWhile (notSpace E) := by
  obtain ⟨rfl, hn, -⟩ := h
  exact @dropWhile_secret E n [] tail hn fun c hc => absurd hc List.not_mem_nil

theorem PlainAt.length_lt {text n tail : List Char} (h : PlainAt E text n tail) :
    (tail.dropWhile (notSpace E)).length < text.length := by
  obtain ⟨rfl, -, -⟩ := h
  have hle := (List.dropWhile_suffix (notSpace E) : tail.dropWhile _ <:+ tail).length_le
  rw [List.length_append, List.length_cons]
  omega

/-- Without a match in the one there is none in the other. -/
theorem PlainAlike.firstMatch_eq_none (h : PlainAlike E a b)
    (hno : ∀ n tail, ¬ PlainAt E a n tail) : (plainSecret E).firstMatch b = none := by
  rcases plainSecret_cases E b with ⟨n, tail, hb, -⟩ | ⟨-, hnone⟩
  · obtain ⟨tail', ha⟩ := h.symm.plainAt hb
    exact absurd ha (hno n tail')
  · exact hnone

/-- **The first replacement** makes texts the same that differ in plain secrets.  Induction on the
length: a match takes both texts to what is left after the next white space. -/
theorem PlainAlike.replaceAll_eq (h : PlainAlike E a b) :
    (plainSecret E).replaceAll plainRedacted a = (plainSecret E).replaceAll plainRedacted b := by
  induction hlength : a.length using Nat.strong_induction_on generalizing a b with
  | h k ih =>
    subst hlength
    rcases plainSecret_cases E a with ⟨n, tail, ha, hmatch⟩ | ⟨hno, hnone⟩
    · obtain ⟨tail', hb⟩ := h.plainAt ha
      rcases plainSecret_cases E b with ⟨n', tail'', hb', hmatch'⟩ | ⟨hno', -⟩
      · obtain ⟨rfl, htails⟩ := hb.2.1.unique E hb'.2.1 (hb.1.symm.trans hb'.1)
        rw [Pattern.replaceAll_of_some hmatch ha.length_lt,
          Pattern.replaceAll_of_some hmatch' hb'.length_lt, ← ha.dropWhile_eq, ← hb'.dropWhile_eq]
        refine congrArg _ (ih _ ?_ h.dropWhile rfl)
        rw [ha.dropWhile_eq]
        exact ha.length_lt
      · exact absurd hb (hno' n tail')
    · have hnone' := h.firstMatch_eq_none hno
      cases h with
      | nil => rfl
      | @same c a b h =>
        rw [Pattern.replaceAll_of_none hnone, Pattern.replaceAll_of_none hnone',
          ih a.length (Nat.lt_succ_self _) h rfl]
      | @plain name v w a b hname hv hw hvs =>
        refine absurd ⟨rfl, hname.named E, ?_⟩ (hno name (v ++ a))
        cases v with
        | nil => exact absurd rfl hv
        | cons c v =>
          have hc := hvs c List.mem_cons_self
          rw [notSpace, Bool.not_eq_true'] at hc
          exact ⟨c, rfl, hc⟩

end Plain

/-! ## 6. Values with a quote in them -/

section Leak

variable {E : Engine}

/-- Two escaped quotes with a blank after each, and a row of `x`. -/
def leaking (k : ℕ) : List Char := ['\\', '"'] ++ ([' ', '\\', '"', ' '] ++ List.replicate k 'x')

theorem jsonBody_leaking (k : ℕ) : JsonBody (leaking k) := by
  have hrow : JsonBody (List.replicate k 'x') := by
    induction k with
    | zero => exact .nil
    | succ k ih => exact .plain (by decide) (by decide) (by decide) ih
  have hblank : ∀ cs, JsonBody cs → JsonBody (' ' :: cs) := fun cs h =>
    .plain (by decide) (by decide) (by decide) h
  have hquote : ∀ cs, JsonBody cs → JsonBody ('\\' :: '"' :: cs) := fun cs h =>
    .escape (by decide) h
  exact hquote _ (hblank _ (hquote _ (hblank _ hrow)))

/-- What is dropped ends before the first white space. -/
theorem length_le_dropWhile (front after : List Char) :
    (' ' :: after).length ≤ ((front ++ ' ' :: after).dropWhile (notSpace E)).length := by
  induction front with
  | nil =>
    have hblank : ¬ notSpace E ' ' = true := by simp [notSpace, E.space_blank]
    rw [List.nil_append, List.dropWhile_cons_of_neg hblank]
  | cons c front ih =>
    rw [List.cons_append]
    cases hc : notSpace E c with
    | true =>
      rw [List.dropWhile_cons_of_pos hc]
      exact ih
    | false =>
      rw [List.dropWhile_cons_of_neg (by rw [hc]; exact Bool.false_ne_true)]
      simp only [List.length_cons, List.length_append]
      omega

/-- No match of the first expression reaches over a blank. -/
theorem plainSecret_reach {start after rest : List Char} {caps : Captures}
    (h : (plainSecret E).firstMatch (start ++ ' ' :: after) = some (rest, caps)) :
    (' ' :: after).length ≤ rest.length := by
  rcases plainSecret_cases E (start ++ ' ' :: after) with ⟨n, tail, ha, hmatch⟩ | ⟨-, hnone⟩
  · obtain ⟨rfl, -⟩ := Prod.mk.inj (Option.some.inj (h.symm.trans hmatch))
    obtain ⟨heq, hn, -⟩ := ha
    have hblank : ' ' ∉ n := fun hmem => (hn.mem E hmem).2.2 (by decide)
    rcases List.append_eq_append_iff.mp heq with ⟨mid, hname, hrest⟩ | ⟨mid, rfl, hrest⟩
    · -- the blank would be in the name, or be the sign
      cases mid with
      | nil => cases hrest
      | cons c mid =>
        obtain ⟨rfl, -⟩ := List.cons.inj hrest
        exact absurd (hname ▸ List.mem_append_right _ List.mem_cons_self) hblank
    · cases mid with
      | nil => cases hrest
      | cons c mid =>
        obtain ⟨-, rfl⟩ := List.cons.inj hrest
        exact length_le_dropWhile mid after
  · rw [hnone] at h
    cases h

/-- No match of the first expression begins with a character that delimits. -/
theorem plainSecret_begin {c : Char} {cs : List Char} (hc : c ∈ delimiters) :
    (plainSecret E).firstMatch (c :: cs) = none := by
  rcases plainSecret_cases E (c :: cs) with ⟨n, tail, ⟨heq, hn, -⟩, -⟩ | ⟨-, hnone⟩
  · cases n with
    | nil => exact absurd rfl (hn.ne_nil E)
    | cons d n =>
      obtain ⟨rfl, -⟩ := List.cons.inj heq
      exact absurd hc (hn.mem E List.mem_cons_self).2.2
  · exact hnone

/-- **After an escaped quote** a member is over. -/
theorem member_escaped_quote {n ws ws' value front after : List Char} (hn : Named E n)
    (hws : ∀ c ∈ ws, E.space c = true) (hws' : ∀ c ∈ ws', E.space c = true) (hvalue : '"' ∉ value)
    (h : member n ws ws' value [] = front ++ '\\' :: '"' :: after) : after = [] := by
  have hback : '\\' ∉ '"' :: (n ++ '"' :: (ws ++ ':' :: (ws' ++ ['"']))) := by
    have hspaces : ∀ {l : List Char}, (∀ c ∈ l, E.space c = true) → '\\' ∉ l := by
      intro l hl hmem
      have hspace := hl _ hmem
      rw [E.not_space '\\' (by decide) (by decide)] at hspace
      cases hspace
    have hname : '\\' ∉ n := fun hmem => (hn.mem E hmem).2.2 (by decide)
    simp [hname, hspaces hws, hspaces hws']
  have hsplit : front ++ '\\' :: '"' :: after
      = ('"' :: (n ++ '"' :: (ws ++ ':' :: (ws' ++ ['"'])))) ++ (value ++ ['"']) := by
    rw [← h, member]
    simp
  have hquote : ∀ mid, value ++ ['"'] = mid ++ '\\' :: '"' :: after → after = [] := by
    intro mid hmid
    rcases List.eq_nil_or_concat after with hnil | ⟨init, last, rfl⟩
    · exact hnil
    · have hlast : value ++ ['"'] = (mid ++ '\\' :: '"' :: init) ++ [last] := by
        rw [hmid, List.concat_eq_append]
        simp
      have hinit := (List.append_inj' hlast rfl).1
      refine absurd ?_ hvalue
      rw [hinit]
      simp
  rcases List.append_eq_append_iff.mp hsplit with ⟨mid, hhead, htail⟩ | ⟨mid, hfront, htail⟩
  · cases mid with
    | nil => exact hquote [] htail.symm
    | cons c mid =>
      obtain ⟨rfl, -⟩ := List.cons.inj htail
      exact absurd (hhead ▸ List.mem_append_right _ List.mem_cons_self) hback
  · exact hquote mid htail

/-- No match of the second expression reaches over an escaped quote with a blank after it. -/
theorem jsonSecret_reach {start front after rest : List Char} {caps : Captures}
    (hne : start ≠ []) (hstart : start <:+ front ++ [' ', '\\', '"', ' '])
    (h : (jsonSecret E).firstMatch (start ++ after) = some (rest, caps)) :
    after.length ≤ rest.length := by
  obtain ⟨n, ws, ws', value, heq, hn, hws, hws', hvalue, -⟩ := jsonSecret_shape E h
  have hmember : member n ws ws' value rest = member n ws ws' value [] ++ rest := by
    simp [member]
  rw [hmember] at heq
  rcases List.append_eq_append_iff.mp heq with ⟨beyond, hbeyond, rfl⟩ | ⟨mid, -, rfl⟩
  · -- the match is `start` and `beyond`
    cases beyond with
    | nil => exact Nat.le_of_eq (congrArg List.length (List.nil_append rest))
    | cons o beyond =>
      exfalso
      have hhead : ∀ c cs, start = c :: cs → c = '"' := by
        rintro c cs rfl
        exact (List.cons.inj hbeyond).1.symm
      rcases List.suffix_or_suffix_of_suffix hstart (List.suffix_append front _) with hshort | hlong
      · -- too short for a quote, a name and what follows
        simp only [List.suffix_cons_iff, List.suffix_nil] at hshort
        rcases hshort with rfl | rfl | rfl | rfl | rfl
        · exact absurd (hhead _ _ rfl) (by decide)
        · exact absurd (hhead _ _ rfl) (by decide)
        · cases n with
          | nil => exact hn.ne_nil E rfl
          | cons c n =>
            obtain ⟨-, hrest⟩ := List.cons.inj hbeyond
            obtain ⟨rfl, -⟩ := List.cons.inj hrest
            exact (hn.mem E List.mem_cons_self).2.2 (by decide)
        · exact absurd (hhead _ _ rfl) (by decide)
        · exact hne rfl
      · obtain ⟨before, rfl⟩ := hlong
        have hsplit : member n ws ws' value []
            = (before ++ [' ']) ++ '\\' :: '"' :: (' ' :: o :: beyond) := by
          rw [hbeyond]
          simp
        exact List.cons_ne_nil _ _ (member_escaped_quote hn hws hws' hvalue hsplit)
  · rw [List.length_append]
    exact Nat.le_add_left _ _

theorem jsonSecret_begin {c : Char} {cs : List Char} (hc : c ≠ '"') :
    (jsonSecret E).firstMatch (c :: cs) = none := by
  cases hmatch : (jsonSecret E).firstMatch (c :: cs) with
  | none => rfl
  | some s =>
    obtain ⟨n, ws, ws', value, heq, -⟩ := jsonSecret_shape E hmatch
    exact absurd (List.cons.inj heq).1 hc

/-- The first expression touches neither the row of `x` nor the escaped quote and the blank in front
of it. -/
theorem plainSecret_keeps (front after : List Char) (k : ℕ) :
    ∃ before behind, (plainSecret E).replaceAll plainRedacted (front ++ (leaking k ++ after))
      = before ++ ([' ', '\\', '"', ' '] ++ List.replicate k 'x') ++ behind := by
  have hkeeps := @Pattern.replaceFrom_keeps (plainSecret E) plainRedacted (front ++ ['\\', '"'])
    ([' ', '\\', '"', ' '] ++ List.replicate k 'x') after ?_ ?_ 0 (Nat.zero_le _)
  · rwa [List.append_assoc, ← List.append_assoc ['\\', '"']] at hkeeps
  · intro start _ _ rest caps hmatch
    exact plainSecret_reach hmatch
  · intro start hne hsuffix
    have hhead : ∃ c cs, start = c :: cs ∧ c ∈ delimiters := by
      cases start with
      | nil => exact absurd rfl hne
      | cons c cs =>
        refine ⟨c, cs, rfl, ?_⟩
        rcases List.mem_append.mp (hsuffix.subset List.mem_cons_self) with hc | hc
        · simp only [List.mem_cons, List.not_mem_nil, or_false] at hc
          rcases hc with rfl | rfl | rfl | rfl <;> decide
        · obtain rfl := List.eq_of_mem_replicate hc
          decide
    obtain ⟨c, cs, rfl, hc⟩ := hhead
    exact plainSecret_begin hc

/-- **The row of `x` is logged**, wherever it stands: neither expression touches it. -/
theorem length_le_redactChars (front after : List Char) (k : ℕ) :
    k ≤ (redactChars E (front ++ (leaking k ++ after))).length := by
  have hx : ∀ start ≠ [], start <:+ List.replicate k 'x' → ∃ cs, start = 'x' :: cs := by
    intro start hne hsuffix
    cases start with
    | nil => exact absurd rfl hne
    | cons c cs =>
      obtain rfl := List.eq_of_mem_replicate (hsuffix.subset List.mem_cons_self)
      exact ⟨cs, rfl⟩
  obtain ⟨before, behind, hplain⟩ := @plainSecret_keeps E front after k
  obtain ⟨first, last, hjson⟩ := @Pattern.replaceFrom_keeps (jsonSecret E) jsonRedacted
    (before ++ [' ', '\\', '"', ' ']) (List.replicate k 'x') behind
    (fun start hne hsuffix rest caps hmatch => jsonSecret_reach hne hsuffix hmatch)
    (fun start hne hsuffix => by
      obtain ⟨cs, rfl⟩ := hx start hne hsuffix
      exact jsonSecret_begin (by decide)) 0 (Nat.zero_le _)
  have hredacted : redactChars E (front ++ (leaking k ++ after))
      = first ++ List.replicate k 'x' ++ last := by
    rw [redactChars, hplain, ← hjson, Pattern.replaceAll]
    simp only [List.append_assoc]
  rw [hredacted]
  simp only [List.length_append, List.length_replicate]
  omega

/-- **A text with a member** has one that is alike and is not redacted alike. -/
theorem exists_alike_of_hasJsonSecret {a : List Char} (h : HasJsonSecret a) :
    ∃ b, Alike E a b ∧ redactChars E a ≠ redactChars E b := by
  obtain ⟨front, name, ws, ws', value, after, rfl, hname, hws, hws', hvalue⟩ := h
  let k := (redactChars E (front ++ member name ws ws' value after)).length + 1
  refine ⟨front ++ member name ws ws' (leaking k) after, ?_, fun hsame => ?_⟩
  · exact (Alike.json hname hws hws' hvalue (jsonBody_leaking k) (.refl E after)).append_left front
  · have hlong := @length_le_redactChars E
      (front ++ '"' :: (name ++ '"' :: (ws ++ ':' :: (ws' ++ ['"'])))) ('"' :: after) k
    have htext : front ++ '"' :: (name ++ '"' :: (ws ++ ':' :: (ws' ++ ['"']))) ++
        (leaking k ++ '"' :: after) = front ++ member name ws ws' (leaking k) after := by
      simp [member]
    rw [htext, ← hsame] at hlong
    exact absurd hlong (Nat.not_succ_le_self _)

end Leak

/-! ## 7. An engine -/

/-- The engine of the Java library: ASCII only. -/
def Engine.ascii : Engine where
  space c := [' ', '\t', '\n', '\x0b', '\x0c', '\r'].contains c
  fold l c := asciiLower c == l
  space_blank := by decide
  not_space c h h' := by
    rw [← Bool.not_eq_true, List.contains_iff_mem]
    intro hc
    simp only [List.mem_cons, List.not_mem_nil, or_false] at hc
    rcases hc with rfl | rfl | rfl | rfl | rfl | rfl <;> exact absurd h (by decide)
  fold_case l _ c h := beq_iff_eq.mpr h
  fold_ascii l _ c h _ := beq_iff_eq.mp h
  fold_other l hl c h hc := by
    have hvisible := @asciiLower_visible c (by rwa [beq_iff_eq.mp h])
    omega
  fold_unique l l' c h h' := (beq_iff_eq.mp h).symm.trans (beq_iff_eq.mp h')

end ShiroKhorshid.Log.Redaction
