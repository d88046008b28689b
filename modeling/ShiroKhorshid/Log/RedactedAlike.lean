/-
# Which details are redacted alike (`AzadiEventLogger.redact`)

The two replacements come one after the other, and the second works on what the first has made of
the text.  Here they are put together to one reading of the text from the left, which finds

* a plain secret, `name=` and what follows it up to the next white space, or
* a member `"name":"` with what the second expression takes for its value: all up to the first
  quote, where a plain secret inside counts as a whole with the quotes it holds, or else
* a character that is logged.

`ReadAlike` says of two details that they are read alike: the same characters, and secrets of the
same kind under the same name, one after the other.  `redactChars_eq_iff` says that this is exactly
when they are redacted to the same text.  One direction is an induction on the reading, with an
equation for each of its steps (section 2).  For the other one the reading is got back from the
redacted text (section 3): no name is the end of another one, and no character of the texts put in
begins a name or a member, so that a secret of one detail is one of the other.

Section 4 is about details that differ in secret values only.  `redaction_complete_iff` says of each
two of them when they are logged alike.  Those without a member always are (`Alike.readAlike`), and
so are values without a quote and a sign where the reading gets to their member
(`ReadAlike.member`); but every detail with a member is alike to one that is logged otherwise
(`exists_not_readAlike`).

Nothing is claimed about secrets of another form, and nothing about what a log says by the length
of its lines or by when they were written.
-/
import ShiroKhorshid.Log.Redaction

namespace ShiroKhorshid.Log.Redaction

open Jvm Regex

/-! ## 1. Reading a detail -/

/-- A value as the second expression sees it, its quote, and then `rest`. -/
inductive Inside (E : Engine) : List Char → List Char → Prop
  | quote {rest : List Char} : Inside E ('"' :: rest) rest
  | same {c : Char} {text rest : List Char} : c ≠ '"' → (∀ n tail, ¬ PlainAt E (c :: text) n tail) →
      Inside E text rest → Inside E (c :: text) rest
  | plain {text n tail rest : List Char} : PlainAt E text n tail →
      Inside E (tail.dropWhile (notSpace E)) rest → Inside E text rest

/-- A member begins the text, and `rest` is what comes after it. -/
def JsonAt (E : Engine) (text n rest : List Char) : Prop :=
  ∃ ws ws' body, text = '"' :: (n ++ '"' :: (ws ++ ':' :: (ws' ++ '"' :: body))) ∧ Named E n ∧
    (∀ c ∈ ws, E.space c = true) ∧ (∀ c ∈ ws', E.space c = true) ∧ Inside E body rest

/-- No secret begins the text. -/
def NoSecretAt (E : Engine) (text : List Char) : Prop :=
  (∀ n tail, ¬ PlainAt E text n tail) ∧ ∀ n rest, ¬ JsonAt E text n rest

/-- **The two details are read alike**, from the left. -/
inductive ReadAlike (E : Engine) : List Char → List Char → Prop
  | nil : ReadAlike E [] []
  | same {c : Char} {a b : List Char} : NoSecretAt E (c :: a) → NoSecretAt E (c :: b) →
      ReadAlike E a b → ReadAlike E (c :: a) (c :: b)
  | plain {n a b tail tail' : List Char} : PlainAt E a n tail → PlainAt E b n tail' →
      ReadAlike E (tail.dropWhile (notSpace E)) (tail'.dropWhile (notSpace E)) → ReadAlike E a b
  | json {n a b rest rest' : List Char} : JsonAt E a n rest → JsonAt E b n rest' →
      ReadAlike E rest rest' → ReadAlike E a b

section Reading

variable {E : Engine}

/-! ## 2. The two replacements in one -/

/-- A sign and a quote do not stand in each other's place. -/
theorem sign_ne_quote {n tail s out : List Char} (hn : '"' ∉ n) (hs : '=' ∉ s)
    (h : n ++ '=' :: tail = s ++ '"' :: out) : False := by
  rcases List.append_eq_append_iff.mp h with ⟨mid, rfl, hrest⟩ | ⟨mid, rfl, hrest⟩
  · cases mid with
    | nil => cases hrest
    | cons c mid =>
      obtain ⟨rfl, -⟩ := List.cons.inj hrest
      exact hs (List.mem_append_right _ List.mem_cons_self)
  · cases mid with
    | nil => cases hrest
    | cons c mid =>
      obtain ⟨rfl, -⟩ := List.cons.inj hrest
      exact hn (List.mem_append_right _ List.mem_cons_self)

theorem Named.delimiter_not_mem {n : List Char} (hn : Named E n) {d : Char}
    (hd : d ∈ delimiters) : d ∉ n :=
  fun hmem => (hn.mem E hmem).2.2 hd

/-- A name does not begin with a character that delimits. -/
theorem Named.cons_ne {n : List Char} (hn : Named E n) {d : Char} (hd : d ∈ delimiters)
    {rest out : List Char} (h : n ++ rest = d :: out) : False := by
  cases n with
  | nil => exact hn.ne_nil E rfl
  | cons c n =>
    obtain ⟨rfl, -⟩ := List.cons.inj h
    exact hn.delimiter_not_mem hd List.mem_cons_self

/-- No plain secret begins in front of a quote with no sign before it. -/
theorem not_plainAt_of_quote {s cs n tail : List Char} (hs : '=' ∉ s) :
    ¬ PlainAt E (s ++ '"' :: cs) n tail := by
  rintro ⟨heq, hn, -⟩
  exact sign_ne_quote (hn.delimiter_not_mem (by decide)) hs heq.symm

/-- The first replacement. -/
abbrev plainReplaced (E : Engine) (text : List Char) : List Char :=
  (plainSecret E).replaceAll plainRedacted text

/-- The second one. -/
abbrev jsonReplaced (E : Engine) (text : List Char) : List Char :=
  (jsonSecret E).replaceAll jsonRedacted text

theorem plainReplaced_nil : plainReplaced E [] = [] := by
  refine Pattern.replaceAll_nil ?_
  rcases plainSecret_cases E [] with ⟨n, tail, ⟨heq, -⟩, -⟩ | ⟨-, hnone⟩
  · exact absurd heq.symm (List.append_ne_nil_of_right_ne_nil _ (List.cons_ne_nil _ _))
  · exact hnone

theorem plainReplaced_of_plainAt {text n tail : List Char} (h : PlainAt E text n tail) :
    plainReplaced E text
      = n ++ ("=[REDACTED]".toList ++ plainReplaced E (tail.dropWhile (notSpace E))) := by
  rcases plainSecret_cases E text with ⟨n', tail', h', hmatch⟩ | ⟨hno, -⟩
  · obtain ⟨rfl, hrest⟩ := h.2.1.unique E h'.2.1 (h.1.symm.trans h'.1)
    obtain rfl := (List.cons.inj hrest).2
    have hcaps : plainRedacted (Function.update (fun _ => none) 1 (some n))
        = n ++ "=[REDACTED]".toList := by
      rw [plainRedacted, Function.update_self]
      rfl
    rw [plainReplaced, Pattern.replaceAll_of_some hmatch h'.length_lt, hcaps, List.append_assoc]
  · exact absurd h (hno n tail)

theorem plainReplaced_of_not {c : Char} {cs : List Char}
    (h : ∀ n tail, ¬ PlainAt E (c :: cs) n tail) :
    plainReplaced E (c :: cs) = c :: plainReplaced E cs := by
  rcases plainSecret_cases E (c :: cs) with ⟨n, tail, h', -⟩ | ⟨-, hnone⟩
  · exact absurd h' (h n tail)
  · exact Pattern.replaceAll_of_none hnone

/-- What is in front of a quote stays, if there is no sign in it. -/
theorem plainReplaced_quote {s : List Char} (hs : '=' ∉ s) (cs : List Char) :
    plainReplaced E (s ++ '"' :: cs) = s ++ '"' :: plainReplaced E cs := by
  induction s with
  | nil => exact plainReplaced_of_not fun n tail => not_plainAt_of_quote (s := []) hs
  | cons c s ih =>
    have hfirst := plainReplaced_of_not fun n tail =>
      @not_plainAt_of_quote E (c :: s) cs n tail hs
    exact hfirst.trans (congrArg (c :: ·) (ih fun hmem => hs (List.mem_cons_of_mem _ hmem)))

/-- And it is only found in what comes out if it was there. -/
theorem exists_of_plainReplaced_quote {s text out : List Char} (hs : '=' ∉ s) (hs' : '"' ∉ s)
    (h : plainReplaced E text = s ++ '"' :: out) :
    ∃ cs, text = s ++ '"' :: cs ∧ plainReplaced E cs = out := by
  induction s generalizing text with
  | nil =>
    cases text with
    | nil => cases plainReplaced_nil.symm.trans h
    | cons c cs =>
      by_cases hplain : ∃ n tail, PlainAt E (c :: cs) n tail
      · obtain ⟨n, tail, hat⟩ := hplain
        rw [plainReplaced_of_plainAt hat] at h
        exact (hat.2.1.cons_ne (by decide) h).elim
      · rw [plainReplaced_of_not fun n tail hat => hplain ⟨n, tail, hat⟩] at h
        obtain ⟨rfl, hout⟩ := List.cons.inj h
        exact ⟨cs, rfl, hout⟩
  | cons d s ih =>
    cases text with
    | nil => cases plainReplaced_nil.symm.trans h
    | cons c cs =>
      by_cases hplain : ∃ n tail, PlainAt E (c :: cs) n tail
      · obtain ⟨n, tail, hat⟩ := hplain
        rw [plainReplaced_of_plainAt hat] at h
        exact (sign_ne_quote (hat.2.1.delimiter_not_mem (by decide)) hs h).elim
      · rw [plainReplaced_of_not fun n tail hat => hplain ⟨n, tail, hat⟩] at h
        obtain ⟨rfl, hrest⟩ := List.cons.inj h
        obtain ⟨cs', rfl, hout⟩ := ih (fun hmem => hs (List.mem_cons_of_mem _ hmem))
          (fun hmem => hs' (List.mem_cons_of_mem _ hmem)) hrest
        exact ⟨cs', rfl, hout⟩

/-- **A value** is one without a quote for the second expression. -/
theorem Inside.plainReplaced_eq {body rest : List Char} (h : Inside E body rest) :
    ∃ value, '"' ∉ value ∧ plainReplaced E body = value ++ '"' :: plainReplaced E rest := by
  induction h with
  | quote => exact ⟨[], List.not_mem_nil, plainReplaced_quote (s := []) List.not_mem_nil _⟩
  | @same c text rest hc hno _ ih =>
    obtain ⟨value, hvalue, heq⟩ := ih
    refine ⟨c :: value, List.not_mem_cons_of_ne_of_not_mem (Ne.symm hc) hvalue, ?_⟩
    rw [plainReplaced_of_not hno, heq]
    rfl
  | @plain text n tail rest hat _ ih =>
    obtain ⟨value, hvalue, heq⟩ := ih
    refine ⟨n ++ ("=[REDACTED]".toList ++ value), ?_, ?_⟩
    · rw [List.mem_append, List.mem_append]
      rintro (hmem | hmem | hmem)
      · exact hat.2.1.delimiter_not_mem (by decide) hmem
      · revert hmem
        decide
      · exact hvalue hmem
    · rw [plainReplaced_of_plainAt hat, heq]
      simp only [List.append_assoc]

/-- The value before a quote that comes out.  Induction on the length of the text. -/
theorem exists_inside {value body out : List Char} (hvalue : '"' ∉ value)
    (h : plainReplaced E body = value ++ '"' :: out) :
    ∃ rest, Inside E body rest ∧ plainReplaced E rest = out := by
  induction hlength : body.length using Nat.strong_induction_on generalizing body value with
  | h k ih =>
    subst hlength
    by_cases hplain : ∃ n tail, PlainAt E body n tail
    · obtain ⟨n, tail, hat⟩ := hplain
      rw [plainReplaced_of_plainAt hat, ← List.append_assoc] at h
      have hquote : '"' ∉ n ++ "=[REDACTED]".toList := by
        rw [List.mem_append]
        rintro (hmem | hmem)
        · exact hat.2.1.delimiter_not_mem (by decide) hmem
        · revert hmem
          decide
      rcases List.append_eq_append_iff.mp h with ⟨mid, rfl, hrest⟩ | ⟨mid, hmid, hrest⟩
      · have hmid : '"' ∉ mid := fun hmem => hvalue (List.mem_append_right _ hmem)
        obtain ⟨rest, hinside, hout⟩ := ih _ hat.length_lt hmid hrest rfl
        exact ⟨rest, .plain hat hinside, hout⟩
      · -- the quote would be in what is put in
        cases mid with
        | nil =>
          have hnone : '"' ∉ ([] : List Char) := List.not_mem_nil
          obtain ⟨rest, hinside, hout⟩ := ih _ hat.length_lt hnone hrest.symm rfl
          exact ⟨rest, .plain hat hinside, hout⟩
        | cons c mid =>
          obtain ⟨rfl, -⟩ := List.cons.inj hrest
          exact absurd (hmid ▸ List.mem_append_right _ List.mem_cons_self) hquote
    · cases body with
      | nil => exact absurd (plainReplaced_nil.symm.trans h).symm (by simp)
      | cons c cs =>
        have hno : ∀ n tail, ¬ PlainAt E (c :: cs) n tail := fun n tail hat =>
          hplain ⟨n, tail, hat⟩
        rw [plainReplaced_of_not hno] at h
        cases value with
        | nil =>
          obtain ⟨rfl, hout⟩ := List.cons.inj h
          exact ⟨cs, .quote, hout⟩
        | cons d value =>
          obtain ⟨rfl, hrest⟩ := List.cons.inj h
          obtain ⟨rest, hinside, hout⟩ := ih cs.length (Nat.lt_succ_self _)
            (fun hmem => hvalue (List.mem_cons_of_mem _ hmem)) hrest rfl
          exact ⟨rest, .same (fun hc => hvalue (hc ▸ List.mem_cons_self)) hno hinside, hout⟩

theorem jsonReplaced_nil : jsonReplaced E [] = [] := by
  refine Pattern.replaceAll_nil ?_
  cases hmatch : (jsonSecret E).firstMatch [] with
  | none => rfl
  | some s =>
    obtain ⟨n, ws, ws', value, heq, -⟩ := jsonSecret_shape E hmatch
    cases heq

/-- Without a quote there is nothing to replace. -/
theorem jsonReplaced_append {s : List Char} (hs : '"' ∉ s) (cs : List Char) :
    jsonReplaced E (s ++ cs) = s ++ jsonReplaced E cs := by
  induction s with
  | nil => rfl
  | cons c s ih =>
    have hfirst : jsonReplaced E (c :: (s ++ cs)) = c :: jsonReplaced E (s ++ cs) :=
      Pattern.replaceAll_of_none (jsonSecret_begin fun hc => hs (hc ▸ List.mem_cons_self))
    exact hfirst.trans (congrArg (c :: ·) (ih fun hmem => hs (List.mem_cons_of_mem _ hmem)))

/-- White space holds no colon and no quote. -/
theorem not_mem_of_space {ws : List Char} (hws : ∀ c ∈ ws, E.space c = true) {d : Char}
    (hd : 0x21 ≤ d.toNat) (hd' : d.toNat ≤ 0x7E) : d ∉ ws := by
  intro hmem
  have hspace := hws d hmem
  rw [E.not_space d hd hd'] at hspace
  cases hspace

/-- There is one way to take a text for a member. -/
theorem member_inj {n ws ws' value rest n' us us' value' rest' : List Char} (hn : Named E n)
    (hn' : Named E n') (hws : ∀ c ∈ ws, E.space c = true) (hus : ∀ c ∈ us, E.space c = true)
    (hws' : ∀ c ∈ ws', E.space c = true) (hus' : ∀ c ∈ us', E.space c = true)
    (hvalue : '"' ∉ value) (hvalue' : '"' ∉ value')
    (h : member n ws ws' value rest = member n' us us' value' rest') : n = n' ∧ rest = rest' := by
  obtain ⟨hname, h⟩ := Cut.append_cons_inj (List.cons.inj h).2
    (hn.delimiter_not_mem (by decide)) (hn'.delimiter_not_mem (by decide))
  obtain ⟨-, h⟩ := Cut.append_cons_inj h (not_mem_of_space hws (by decide) (by decide))
    (not_mem_of_space hus (by decide) (by decide))
  obtain ⟨-, h⟩ := Cut.append_cons_inj h (not_mem_of_space hws' (by decide) (by decide))
    (not_mem_of_space hus' (by decide) (by decide))
  exact ⟨hname, (Cut.append_cons_inj h hvalue hvalue').2⟩

/-- **A member without a quote in its value** is matched by the second expression. -/
theorem firstMatch_member {n ws ws' value rest : List Char} (hn : Named E n)
    (hws : ∀ c ∈ ws, E.space c = true) (hws' : ∀ c ∈ ws', E.space c = true)
    (hvalue : '"' ∉ value) :
    ∃ caps, (jsonSecret E).firstMatch (member n ws ws' value rest) = some (rest, caps) ∧
      caps 1 = some n := by
  have hquote : ∀ (cs : List Char) (caps : Captures),
      (cs, caps) ∈ (Pattern.char (· == '"')).run ('"' :: cs, caps) :=
    fun cs caps => Pattern.mem_run_char.mpr ⟨'"', rfl, rfl, rfl⟩
  have hcolon : ∀ (cs : List Char) (caps : Captures),
      (cs, caps) ∈ (Pattern.char (· == ':')).run (':' :: cs, caps) :=
    fun cs caps => Pattern.mem_run_char.mpr ⟨':', rfl, rfl, rfl⟩
  have hnames : ∀ (cs : List Char) (caps : Captures),
      (cs, Function.update caps 1 (some n)) ∈ (names E).run (n ++ cs, caps) := by
    intro cs caps
    rcases run_names E (n ++ cs) caps with ⟨n', rest', heq, hn', hrun⟩ | ⟨hno, -⟩
    · obtain ⟨rfl, rfl⟩ := hn.unique E hn' heq
      rw [hrun]
      exact List.mem_singleton_self _
    · exact absurd hn (hno n cs rfl)
  have hany : ∀ c ∈ value, (c != '"') = true := fun c hc =>
    bne_iff_ne.mpr fun heq => hvalue (heq ▸ hc)
  have hmem : (rest, Function.update (fun _ => none) 1 (some n)) ∈
      (jsonSecret E).run (member n ws ws' value rest, fun _ => none) := by
    unfold jsonSecret member
    simp only [Pattern.mem_run_seq]
    exact ⟨_, hquote _ _, _, hnames _ _, _, hquote _ _,
      _, Pattern.mem_run_many_append (Nat.zero_le _) hws, _, hcolon _ _,
      _, Pattern.mem_run_many_append (Nat.zero_le _) hws', _, hquote _ _,
      _, Pattern.mem_run_many_append (Nat.zero_le _) hany, hquote _ _⟩
  cases hmatch : (jsonSecret E).firstMatch (member n ws ws' value rest) with
  | none =>
    rw [Pattern.firstMatch, List.head?_eq_none_iff] at hmatch
    rw [hmatch] at hmem
    exact absurd hmem List.not_mem_nil
  | some s =>
    obtain ⟨rest', caps⟩ := s
    obtain ⟨n', us, us', value', heq, hn', hus, hus', hvalue', hcaps⟩ := jsonSecret_shape E hmatch
    obtain ⟨rfl, rfl⟩ := member_inj hn hn' hws hus hws' hus' hvalue hvalue' heq
    exact ⟨caps, rfl, hcaps⟩

/-! ### The steps of the reading -/

theorem redactChars_nil : redactChars E [] = [] :=
  (congrArg (jsonReplaced E) plainReplaced_nil).trans jsonReplaced_nil

/-- **A plain secret.** -/
theorem redactChars_plain {text n tail : List Char} (h : PlainAt E text n tail) :
    redactChars E text
      = n ++ ("=[REDACTED]".toList ++ redactChars E (tail.dropWhile (notSpace E))) := by
  have hput : '"' ∉ "=[REDACTED]".toList := by decide
  calc redactChars E text
      = jsonReplaced E (n ++ ("=[REDACTED]".toList
          ++ plainReplaced E (tail.dropWhile (notSpace E)))) :=
        congrArg (jsonReplaced E) (plainReplaced_of_plainAt h)
    _ = _ := by
        rw [jsonReplaced_append (h.2.1.delimiter_not_mem (by decide)), jsonReplaced_append hput]
        rfl

/-- The head of a member holds no sign. -/
theorem sign_not_mem_head {n ws ws' : List Char} (hn : Named E n)
    (hws : ∀ c ∈ ws, E.space c = true) (hws' : ∀ c ∈ ws', E.space c = true) :
    '=' ∉ '"' :: (n ++ '"' :: (ws ++ ':' :: ws')) := by
  have hname : '=' ∉ n := hn.delimiter_not_mem (by decide)
  have hspace : '=' ∉ ws := not_mem_of_space hws (by decide) (by decide)
  have hspace' : '=' ∉ ws' := not_mem_of_space hws' (by decide) (by decide)
  simp [hname, hspace, hspace']

/-- **A member.** -/
theorem redactChars_json {text n rest : List Char} (h : JsonAt E text n rest) :
    redactChars E text
      = '"' :: (n ++ ("\":\"[REDACTED]\"".toList ++ redactChars E rest)) := by
  obtain ⟨ws, ws', body, rfl, hn, hws, hws', hinside⟩ := h
  obtain ⟨value, hvalue, hbody⟩ := hinside.plainReplaced_eq
  have hplain : plainReplaced E ('"' :: (n ++ '"' :: (ws ++ ':' :: (ws' ++ '"' :: body))))
      = member n ws ws' value (plainReplaced E rest) := by
    have hhead := @plainReplaced_quote E _ (sign_not_mem_head hn hws hws') body
    rw [hbody] at hhead
    simpa only [member, List.cons_append, List.append_assoc] using hhead
  obtain ⟨caps, hmatch, hcaps⟩ := @firstMatch_member E n ws ws' value (plainReplaced E rest)
    hn hws hws' hvalue
  have hlength : (plainReplaced E rest).length
      < (member n ws ws' value (plainReplaced E rest)).length := by
    simp only [member, List.length_cons, List.length_append]
    omega
  calc redactChars E _
      = jsonReplaced E (member n ws ws' value (plainReplaced E rest)) :=
        congrArg (jsonReplaced E) hplain
    _ = jsonRedacted caps ++ jsonReplaced E (plainReplaced E rest) :=
        Pattern.replaceAll_of_some hmatch hlength
    _ = _ := by
        rw [jsonRedacted, hcaps]
        simp only [Option.getD_some, List.cons_append, List.append_assoc]
        rfl

/-- A member that comes out of the first replacement went into it. -/
theorem jsonAt_of_plainReplaced {text n ws ws' value out : List Char} (hn : Named E n)
    (hws : ∀ c ∈ ws, E.space c = true) (hws' : ∀ c ∈ ws', E.space c = true)
    (hvalue : '"' ∉ value) (h : plainReplaced E text = member n ws ws' value out) :
    ∃ rest, JsonAt E text n rest := by
  obtain ⟨text₁, rfl, h₁⟩ := exists_of_plainReplaced_quote (s := []) List.not_mem_nil
    List.not_mem_nil h
  obtain ⟨text₂, rfl, h₂⟩ := exists_of_plainReplaced_quote (hn.delimiter_not_mem (by decide))
    (hn.delimiter_not_mem (by decide)) h₁
  have hsign : '=' ∉ ws ++ ':' :: ws' := fun hmem =>
    sign_not_mem_head hn hws hws'
      (List.mem_cons_of_mem _ (List.mem_append_right _ (List.mem_cons_of_mem _ hmem)))
  have hquote : '"' ∉ ws ++ ':' :: ws' := by
    have hspace : '"' ∉ ws := not_mem_of_space hws (by decide) (by decide)
    have hspace' : '"' ∉ ws' := not_mem_of_space hws' (by decide) (by decide)
    simp [hspace, hspace']
  rw [show ws ++ ':' :: (ws' ++ '"' :: (value ++ '"' :: out))
    = (ws ++ ':' :: ws') ++ '"' :: (value ++ '"' :: out) by simp] at h₂
  obtain ⟨body, rfl, h₃⟩ := exists_of_plainReplaced_quote hsign hquote h₂
  obtain ⟨rest, hinside, -⟩ := exists_inside hvalue h₃
  exact ⟨rest, ws, ws', body, by simp, hn, hws, hws', hinside⟩

/-- **A character that is logged.** -/
theorem redactChars_same {c : Char} {cs : List Char} (h : NoSecretAt E (c :: cs)) :
    redactChars E (c :: cs) = c :: redactChars E cs := by
  have hplain := plainReplaced_of_not h.1
  have hjson : (jsonSecret E).firstMatch (c :: plainReplaced E cs) = none := by
    cases hmatch : (jsonSecret E).firstMatch (c :: plainReplaced E cs) with
    | none => rfl
    | some s =>
      obtain ⟨n, ws, ws', value, heq, hn, hws, hws', hvalue, -⟩ := jsonSecret_shape E hmatch
      obtain ⟨rest, hat⟩ := jsonAt_of_plainReplaced hn hws hws' hvalue (hplain.trans heq)
      exact absurd hat (h.2 n rest)
  calc redactChars E (c :: cs)
      = jsonReplaced E (c :: plainReplaced E cs) := congrArg (jsonReplaced E) hplain
    _ = c :: redactChars E cs := Pattern.replaceAll_of_none hjson

/-- **Details that are read alike** are redacted to the same text. -/
theorem ReadAlike.redactChars_eq {a b : List Char} (h : ReadAlike E a b) :
    redactChars E a = redactChars E b := by
  induction h with
  | nil => rfl
  | same ha hb _ ih => rw [redactChars_same ha, redactChars_same hb, ih]
  | plain ha hb _ ih => rw [redactChars_plain ha, redactChars_plain hb, ih]
  | json ha hb _ ih => rw [redactChars_json ha, redactChars_json hb, ih]

/-! ## 3. The reading from the redacted text -/

/-- How a text begins. -/
theorem reading_cases (E : Engine) (text : List Char) :
    text = [] ∨ (∃ n tail, PlainAt E text n tail) ∨ (∃ n rest, JsonAt E text n rest) ∨
      ∃ c cs, text = c :: cs ∧ NoSecretAt E (c :: cs) := by
  cases text with
  | nil => exact Or.inl rfl
  | cons c cs =>
    by_cases hplain : ∃ n tail, PlainAt E (c :: cs) n tail
    · exact Or.inr (Or.inl hplain)
    by_cases hjson : ∃ n rest, JsonAt E (c :: cs) n rest
    · exact Or.inr (Or.inr (Or.inl hjson))
    refine Or.inr (Or.inr (Or.inr ⟨c, cs, rfl, fun n tail h => hplain ⟨n, tail, h⟩, ?_⟩))
    exact fun n rest h => hjson ⟨n, rest, h⟩

/-- Where a first character that comes out is from. -/
theorem redactChars_cons {text out : List Char} {c : Char} (h : redactChars E text = c :: out) :
    (∃ n tail, PlainAt E text n tail) ∨ (∃ n rest, JsonAt E text n rest) ∨
      ∃ cs, text = c :: cs ∧ redactChars E cs = out := by
  rcases reading_cases E text with rfl | hplain | hjson | ⟨d, cs, rfl, hno⟩
  · cases redactChars_nil.symm.trans h
  · exact Or.inl hplain
  · exact Or.inr (Or.inl hjson)
  · rw [redactChars_same hno] at h
    obtain ⟨rfl, hout⟩ := List.cons.inj h
    exact Or.inr (Or.inr ⟨cs, rfl, hout⟩)

/-- A character that delimits, but for a quote, is logged from where it is. -/
theorem exists_of_redactChars_delimiter {text out : List Char} {d : Char} (hd : d ∈ delimiters)
    (hquote : d ≠ '"') (h : redactChars E text = d :: out) :
    ∃ cs, text = d :: cs ∧ redactChars E cs = out := by
  rcases redactChars_cons h with ⟨n, tail, hat⟩ | ⟨n, rest, hat⟩ | hraw
  · rw [redactChars_plain hat] at h
    exact (hat.2.1.cons_ne hd h).elim
  · rw [redactChars_json hat] at h
    exact absurd (List.cons.inj h).1.symm hquote
  · exact hraw

theorem JsonAt.named {text n rest : List Char} (h : JsonAt E text n rest) : Named E n := by
  obtain ⟨ws, ws', body, -, hn, -⟩ := h
  exact hn

theorem Inside.length_lt {body rest : List Char} (h : Inside E body rest) :
    rest.length < body.length := by
  induction h with
  | quote => exact Nat.lt_succ_self _
  | same _ _ _ ih => exact Nat.lt_succ_of_lt ih
  | plain hat _ ih => exact Nat.lt_trans ih hat.length_lt

theorem JsonAt.length_lt {text n rest : List Char} (h : JsonAt E text n rest) :
    rest.length < text.length := by
  obtain ⟨ws, ws', body, rfl, -, -, -, hinside⟩ := h
  have hlt := hinside.length_lt
  simp only [List.length_cons, List.length_append]
  omega

/-- So is a quote with such a character after it. -/
theorem exists_of_redactChars_quote {text out : List Char} {d : Char} (hd : d ∈ delimiters)
    (h : redactChars E text = '"' :: d :: out) :
    ∃ cs, text = '"' :: cs ∧ redactChars E cs = d :: out := by
  rcases redactChars_cons h with ⟨n, tail, hat⟩ | ⟨n, rest, hat⟩ | hraw
  · rw [redactChars_plain hat] at h
    exact (hat.2.1.cons_ne (by decide) h).elim
  · rw [redactChars_json hat] at h
    exact (hat.named.cons_ne hd (List.cons.inj h).2).elim
  · exact hraw

/-- And what is in front of a quote, if there is no sign in it. -/
theorem exists_of_redactChars_append {s text out : List Char} (hs : '=' ∉ s) (hs' : '"' ∉ s)
    (h : redactChars E text = s ++ '"' :: out) :
    ∃ cs, text = s ++ cs ∧ redactChars E cs = '"' :: out := by
  induction s generalizing text with
  | nil => exact ⟨text, rfl, h⟩
  | cons c s ih =>
    rcases redactChars_cons h with ⟨n, tail, hat⟩ | ⟨n, rest, hat⟩ | ⟨cs, rfl, hcs⟩
    · rw [redactChars_plain hat] at h
      exact (sign_ne_quote (hat.2.1.delimiter_not_mem (by decide)) hs h).elim
    · rw [redactChars_json hat] at h
      exact absurd ((List.cons.inj h).1 ▸ List.mem_cons_self) hs'
    · obtain ⟨cs', rfl, hout⟩ := ih (fun hmem => hs (List.mem_cons_of_mem _ hmem))
        (fun hmem => hs' (List.mem_cons_of_mem _ hmem)) hcs
      exact ⟨cs', rfl, hout⟩

/-- A quote that comes out is one of the text, if it begins a member or not. -/
theorem exists_quote {text out : List Char} (h : redactChars E text = '"' :: out) :
    ∃ cs, text = '"' :: cs := by
  rcases redactChars_cons h with ⟨n, tail, hat⟩ | ⟨n, rest, ws, ws', body, htext, -⟩ | ⟨cs, hcs, -⟩
  · rw [redactChars_plain hat] at h
    exact (hat.2.1.cons_ne (by decide) h).elim
  · exact ⟨_, htext⟩
  · exact ⟨cs, hcs⟩

/-- No name is the end of a longer one. -/
theorem Named.eq_of_suffix {front n : List Char} (h : Named E (front ++ n)) (hn : Named E n) :
    front = [] := by
  obtain ⟨u, hu, hforall⟩ := h
  obtain ⟨u', hu', hforall'⟩ := hn
  have hunique : Relator.LeftUnique fun l c => E.fold l c = true :=
    fun l l' c h h' => E.fold_unique l l' c h h'
  have hend : u.drop front.length = u' :=
    hunique.forall₂ (List.forall₂_drop_append u front n hforall) hforall'
  have hall : ∀ u ∈ [password, secret, token, key], ∀ u' ∈ [password, secret, token, key],
      u' <:+ u → u'.length = u.length := by
    decide
  have hwhole := hall u hu u' hu' (hend ▸ List.drop_suffix _ u)
  have hlength := hforall.length_eq
  have hlength' := hforall'.length_eq
  rw [List.length_append] at hlength
  exact List.length_eq_zero_iff.mp (by omega)

/-- The rest of a name that comes out with the sign and the bracket is in the text. -/
theorem exists_of_redactChars_name {front n text out : List Char} (hfront : front ≠ [])
    (hn : Named E (front ++ n)) (h : redactChars E text = n ++ '=' :: '[' :: out) :
    ∃ cs, text = n ++ '=' :: '[' :: cs := by
  induction n generalizing front text with
  | nil =>
    obtain ⟨cs, rfl, hcs⟩ := exists_of_redactChars_delimiter (by decide) (by decide) h
    obtain ⟨cs', rfl, -⟩ := exists_of_redactChars_delimiter (by decide) (by decide) hcs
    exact ⟨cs', rfl⟩
  | cons c n ih =>
    have hmem : ∀ d ∈ delimiters, d ∉ c :: n := fun d hd hmem =>
      hn.delimiter_not_mem hd (List.mem_append_right _ hmem)
    rcases redactChars_cons h with ⟨m, tail, hat⟩ | ⟨m, rest, hat⟩ | ⟨cs, rfl, hcs⟩
    · -- what begins here would be a name, and the end of the longer one
      rw [redactChars_plain hat] at h
      obtain ⟨rfl, -⟩ := Cut.append_cons_inj h (hat.2.1.delimiter_not_mem (by decide))
        (hmem '=' (by decide))
      exact absurd (hn.eq_of_suffix hat.2.1) hfront
    · rw [redactChars_json hat] at h
      exact absurd ((List.cons.inj h).1 ▸ List.mem_cons_self) (hmem '"' (by decide))
    · have hnext : Named E ((front ++ [c]) ++ n) := by simpa using hn
      obtain ⟨cs', rfl⟩ :=
        ih (List.append_ne_nil_of_right_ne_nil _ (List.cons_ne_nil _ _)) hnext hcs
      exact ⟨cs', rfl⟩

/-- **A plain secret** that comes out is one of the text. -/
theorem plainAt_of_redactChars {n text out : List Char} (hn : Named E n)
    (h : redactChars E text = n ++ ("=[REDACTED]".toList ++ out)) :
    ∃ tail, PlainAt E text n tail := by
  cases n with
  | nil => exact absurd rfl (hn.ne_nil E)
  | cons c n =>
    have hsign := hn.delimiter_not_mem (d := '=') (by decide)
    rcases redactChars_cons h with ⟨m, tail, hat⟩ | ⟨m, rest, hat⟩ | ⟨cs, rfl, hcs⟩
    · rw [redactChars_plain hat] at h
      obtain ⟨rfl, -⟩ := Cut.append_cons_inj h (hat.2.1.delimiter_not_mem (by decide)) hsign
      exact ⟨tail, hat⟩
    · rw [redactChars_json hat] at h
      exact absurd ((List.cons.inj h).1 ▸ List.mem_cons_self)
        (hn.delimiter_not_mem (d := '"') (by decide))
    · obtain ⟨cs', rfl⟩ := @exists_of_redactChars_name E [c] n cs _ (List.cons_ne_nil _ _) hn hcs
      exact ⟨'[' :: cs', rfl, hn, '[', rfl, E.not_space '[' (by decide) (by decide)⟩

/-- A value without a sign. -/
theorem inside_of_sign_not_mem {value : List Char} (hvalue : '=' ∉ value) (hquote : '"' ∉ value)
    (rest : List Char) : Inside E (value ++ '"' :: rest) rest := by
  induction value with
  | nil => exact .quote
  | cons c value ih =>
    refine .same (fun hc => hquote (hc ▸ List.mem_cons_self)) ?_ (ih ?_ ?_)
    · exact fun n tail => @not_plainAt_of_quote E (c :: value) rest n tail hvalue
    · exact fun hmem => hvalue (List.mem_cons_of_mem _ hmem)
    · exact fun hmem => hquote (List.mem_cons_of_mem _ hmem)

/-- **A member** that comes out is one of the text: what is put in is a member itself. -/
theorem jsonAt_of_redactChars {n text out : List Char} (hn : Named E n)
    (h : redactChars E text = '"' :: (n ++ ("\":\"[REDACTED]\"".toList ++ out))) :
    ∃ rest, JsonAt E text n rest := by
  have hsign : '=' ∉ n := hn.delimiter_not_mem (by decide)
  have hquote : '"' ∉ n := hn.delimiter_not_mem (by decide)
  rcases redactChars_cons h with ⟨m, tail, hat⟩ | ⟨m, rest, hat⟩ | ⟨cs₁, rfl, h₁⟩
  · rw [redactChars_plain hat] at h
    exact (hat.2.1.cons_ne (by decide) h).elim
  · rw [redactChars_json hat] at h
    obtain ⟨rfl, -⟩ := Cut.append_cons_inj (List.cons.inj h).2
      (hat.named.delimiter_not_mem (by decide)) hquote
    exact ⟨rest, hat⟩
  · obtain ⟨cs₂, rfl, h₂⟩ := exists_of_redactChars_append hsign hquote h₁
    obtain ⟨cs₃, rfl, h₃⟩ := exists_of_redactChars_quote (by decide) h₂
    obtain ⟨cs₄, rfl, h₄⟩ := exists_of_redactChars_delimiter (by decide) (by decide) h₃
    obtain ⟨cs₅, rfl, h₅⟩ := exists_of_redactChars_quote (by decide) h₄
    have hput : '=' ∉ "[REDACTED]".toList := by decide
    have hput' : '"' ∉ "[REDACTED]".toList := by decide
    obtain ⟨cs₆, rfl, h₆⟩ := exists_of_redactChars_append hput hput' h₅
    obtain ⟨rest, rfl⟩ := exists_quote h₆
    have hnone : ∀ c ∈ ([] : List Char), E.space c = true := fun c hc =>
      absurd hc List.not_mem_nil
    exact ⟨rest, [], [], _, rfl, hn, hnone, hnone, inside_of_sign_not_mem hput hput' rest⟩

/-- **Details that are redacted to the same text** are read alike, by induction on the length of
one. -/
theorem readAlike_of_redactChars_eq {a b : List Char} (h : redactChars E a = redactChars E b) :
    ReadAlike E a b := by
  induction hlength : a.length using Nat.strong_induction_on generalizing a b with
  | h k ih =>
    subst hlength
    rcases reading_cases E a with rfl | ⟨n, tail, ha⟩ | ⟨n, rest, ha⟩ | ⟨c, cs, rfl, ha⟩
    · rw [redactChars_nil] at h
      rcases reading_cases E b with rfl | ⟨n, tail, hb⟩ | ⟨n, rest, hb⟩ | ⟨c, cs, rfl, hb⟩
      · exact .nil
      · rw [redactChars_plain hb] at h
        exact absurd h.symm (List.append_ne_nil_of_left_ne_nil (hb.2.1.ne_nil E) _)
      · rw [redactChars_json hb] at h
        cases h
      · rw [redactChars_same hb] at h
        cases h
    · rw [redactChars_plain ha] at h
      obtain ⟨tail', hb⟩ := plainAt_of_redactChars ha.2.1 h.symm
      rw [redactChars_plain hb] at h
      have hrest := List.append_cancel_left (List.append_cancel_left h)
      exact .plain ha hb (ih _ ha.length_lt hrest rfl)
    · rw [redactChars_json ha] at h
      obtain ⟨rest', hb⟩ := jsonAt_of_redactChars ha.named h.symm
      rw [redactChars_json hb] at h
      have hrest := List.append_cancel_left (List.append_cancel_left (List.cons.inj h).2)
      exact .json ha hb (ih _ ha.length_lt hrest rfl)
    · rcases reading_cases E b with rfl | ⟨n, tail, hb⟩ | ⟨n, rest, hb⟩ | ⟨d, cs', rfl, hb⟩
      · rw [redactChars_nil, redactChars_same ha] at h
        cases h
      · rw [redactChars_plain hb] at h
        obtain ⟨tail', ha'⟩ := plainAt_of_redactChars hb.2.1 h
        exact absurd ha' (ha.1 n tail')
      · rw [redactChars_json hb] at h
        obtain ⟨rest', ha'⟩ := jsonAt_of_redactChars hb.named h
        exact absurd ha' (ha.2 n rest')
      · rw [redactChars_same ha, redactChars_same hb] at h
        obtain ⟨rfl, hrest⟩ := List.cons.inj h
        exact .same ha hb (ih _ (Nat.lt_succ_self _) hrest rfl)

/-- **The two replacements**: texts come out the same exactly if they are read alike. -/
theorem redactChars_eq_iff {a b : List Char} :
    redactChars E a = redactChars E b ↔ ReadAlike E a b :=
  ⟨readAlike_of_redactChars_eq, ReadAlike.redactChars_eq⟩

/-! ## 4. Details that differ in secrets -/

/-- **Members whose values hold no quote and no sign** are read alike, where the reading gets to
them. -/
theorem ReadAlike.member {n ws ws' v w a b : List Char} (hn : Named E n)
    (hws : ∀ c ∈ ws, E.space c = true) (hws' : ∀ c ∈ ws', E.space c = true)
    (hv : '=' ∉ v ∧ '"' ∉ v) (hw : '=' ∉ w ∧ '"' ∉ w) (h : ReadAlike E a b) :
    ReadAlike E (member n ws ws' v a) (member n ws ws' w b) :=
  .json ⟨ws, ws', _, rfl, hn, hws, hws', inside_of_sign_not_mem hv.1 hv.2 a⟩
    ⟨ws, ws', _, rfl, hn, hws, hws', inside_of_sign_not_mem hw.1 hw.2 b⟩ h

/-- **Details without a member**, which differ in plain secrets only, are read alike. -/
theorem Alike.readAlike {a b : List Char} (h : Alike E a b) (hno : ¬ HasJsonSecret a) :
    ReadAlike E a b :=
  redactChars_eq_iff.mp (congrArg (jsonReplaced E) (h.plainAlike hno).replaceAll_eq)

/-- **Every detail with a member** is alike to one that is not read alike. -/
theorem exists_not_readAlike {a : List Char} (h : HasJsonSecret a) :
    ∃ b, Alike E a b ∧ ¬ ReadAlike E a b := by
  obtain ⟨b, halike, hne⟩ := @exists_alike_of_hasJsonSecret E _ h
  exact ⟨b, halike, fun hread => hne hread.redactChars_eq⟩

end Reading

end ShiroKhorshid.Log.Redaction
