/-
# Numbers, addresses and networks as they are written

The app reads IPv4 addresses and networks in several places: routes to bypass, addresses to scan,
host names that must not be addresses.  All of them cut the text at the slash and the dots and
leave the numbers to `Integer.parseInt`, which takes more than one expects: a sign, and digits of
any script.

`Entry` is the grammar, over the notation of a number.  `Numeral` is the notation that is meant,
`Lenient` the one that is taken (`parseInt_eq_some_iff`), and `lenient_iff_numeral` says what lies
between them: a sign or a foreign digit.

* A grammar over a larger notation accepts no less (`Quad.mono`, `Entry.mono`), so the step from one
  notation to the other is taken once, for numbers, and then for addresses and networks.
* Cutting at the dots finds the parts again (`quad_iff_splitOn`), as no notation of a number has a
  dot or a slash in it.
* What is taken beyond the format has a sign or a foreign digit in it (`Entry.numeral`): a text of
  plain characters is read as it is meant.

The readers differ in what they do before and after; that is for their own modules.
-/
import Mathlib.Data.List.Forall2
import ShiroKhorshid.Jvm

namespace ShiroKhorshid.Dotted

open Jvm

/-! ## 1. Numbers -/

/-- A way to write numbers: which text is which number. -/
abbrev NumberFormat : Type := List Char → ℕ → Prop

/-- A run of ASCII digits. -/
def Numeral : NumberFormat := fun cs n => (∀ c ∈ cs, c.isDigit = true) ∧ unsignedDecimal cs = some n

/-- A run of digits of any script, with an optional sign; `-0` is zero. -/
inductive Lenient : NumberFormat
  | digits {cs : List Char} {n : ℕ} : unsignedDecimal cs = some n → Lenient cs n
  | plus {cs : List Char} {n : ℕ} : unsignedDecimal cs = some n → Lenient ('+' :: cs) n
  | minus {cs : List Char} : unsignedDecimal cs = some 0 → Lenient ('-' :: cs) 0

theorem Numeral.lenient {cs : List Char} {n : ℕ} (h : Numeral cs n) : Lenient cs n :=
  Lenient.digits h.2

/-- A decimal digit of some script. -/
def IsDigit (c : Char) : Prop := digit c ≠ none

theorem isDigit_of_digitsFrom {cs : List Char} {n m : ℕ} (h : digitsFrom n cs = some m) :
    ∀ c ∈ cs, IsDigit c := by
  induction cs generalizing n with
  | nil => exact fun c hc => absurd hc List.not_mem_nil
  | cons c cs ih =>
    rw [digitsFrom] at h
    intro c' hc'
    cases hd : digit c with
    | none => simp [hd] at h
    | some d =>
      rw [hd] at h
      rcases List.mem_cons.mp hc' with rfl | hc'
      · exact fun hnone => Option.some_ne_none d (hd.symm.trans hnone)
      · exact ih h c' hc'

theorem isDigit_of_unsignedDecimal {cs : List Char} {n : ℕ} (h : unsignedDecimal cs = some n) :
    ∀ c ∈ cs, IsDigit c := by
  cases cs with
  | nil => exact fun c hc => absurd hc List.not_mem_nil
  | cons c cs => exact isDigit_of_digitsFrom h

/-- Digits are not ASCII punctuation below `0`. -/
theorem IsDigit.le_toNat {c : Char} (h : IsDigit c) : 0x30 ≤ c.toNat := by
  obtain ⟨d, hd⟩ := Option.ne_none_iff_exists'.mp h
  exact digit_toNat hd

theorem not_isDigit_of_lt {c : Char} (h : c.toNat < 0x30) : ¬ IsDigit c :=
  fun hc => absurd hc.le_toNat (Nat.not_le.mpr h)

/-- What a number is written with. -/
theorem Lenient.chars {cs : List Char} {n : ℕ} (h : Lenient cs n) :
    ∀ c ∈ cs, IsDigit c ∨ c = '+' ∨ c = '-' := by
  intro c hc
  cases h with
  | digits h => exact Or.inl (isDigit_of_unsignedDecimal h c hc)
  | plus h =>
    rcases List.mem_cons.mp hc with rfl | hc
    · exact Or.inr (Or.inl rfl)
    · exact Or.inl (isDigit_of_unsignedDecimal h c hc)
  | minus h =>
    rcases List.mem_cons.mp hc with rfl | hc
    · exact Or.inr (Or.inr rfl)
    · exact Or.inl (isDigit_of_unsignedDecimal h c hc)

/-- No number is written with one of these. -/
theorem Lenient.not_mem {cs : List Char} {n : ℕ} {c : Char} (h : Lenient cs n)
    (hlow : c.toNat < 0x30) (hplus : c ≠ '+') (hminus : c ≠ '-') : c ∉ cs := by
  intro hc
  rcases h.chars c hc with hdigit | rfl | rfl
  · exact not_isDigit_of_lt hlow hdigit
  · exact hplus rfl
  · exact hminus rfl

theorem Lenient.dot_not_mem {cs : List Char} {n : ℕ} (h : Lenient cs n) : '.' ∉ cs :=
  h.not_mem (by decide) (by decide) (by decide)

theorem Lenient.slash_not_mem {cs : List Char} {n : ℕ} (h : Lenient cs n) : '/' ∉ cs :=
  h.not_mem (by decide) (by decide) (by decide)

/-- **Between the notations** there are signs and foreign digits only. -/
theorem lenient_iff_numeral {cs : List Char} (h : ∀ c ∈ cs, c.isDigit = true) {n : ℕ} :
    Lenient cs n ↔ Numeral cs n := by
  constructor
  · intro hlenient
    cases hlenient with
    | digits hn => exact ⟨h, hn⟩
    | plus hn => exact absurd (h '+' List.mem_cons_self) (by decide)
    | minus hn => exact absurd (h '-' List.mem_cons_self) (by decide)
  · exact Numeral.lenient

/-- **What `Integer.parseInt` takes for a natural number.** -/
theorem parseInt_eq_some_iff {cs : List Char} {n : ℕ} (hn : n < 2 ^ 31) :
    parseInt (String.ofList cs) = some (n : ℤ) ↔ Lenient cs n := by
  have hrange : ((-2 ^ 31 : ℤ) ≤ (n : ℤ) && (n : ℤ) ≤ (2 ^ 31 - 1 : ℤ)) = true := by
    simp only [Bool.and_eq_true, decide_eq_true_eq]
    omega
  rw [parseInt, String.toList_ofList]
  unfold parseDecimal
  rw [Option.filter_eq_some_iff, and_iff_left hrange]
  split
  · rename_i ds
    constructor
    · intro h
      obtain ⟨v, hv, hvn⟩ := Option.map_eq_some_iff.mp h
      obtain ⟨m, hm, hmv⟩ := Option.bind_eq_some_iff.mp hv
      obtain rfl : (m : ℤ) = v := Option.some.inj hmv
      obtain rfl : m = 0 := by omega
      obtain rfl : n = 0 := by omega
      exact Lenient.minus hm
    · intro h
      cases h with
      | digits h =>
        exact absurd (isDigit_of_unsignedDecimal h '-' List.mem_cons_self)
          (not_isDigit_of_lt (by decide))
      | minus h => rw [h]; rfl
  · rename_i ds
    constructor
    · intro h
      obtain ⟨v, hv, hvn⟩ := Option.map_eq_some_iff.mp h
      obtain ⟨m, hm, hmv⟩ := Option.bind_eq_some_iff.mp hv
      obtain rfl : (m : ℤ) = v := Option.some.inj hmv
      obtain rfl : m = n := by omega
      exact Lenient.plus hm
    · intro h
      cases h with
      | digits h =>
        exact absurd (isDigit_of_unsignedDecimal h '+' List.mem_cons_self)
          (not_isDigit_of_lt (by decide))
      | plus h => rw [h]; rfl
  · rename_i hminus hplus
    constructor
    · intro h
      obtain ⟨v, hv, hvn⟩ := Option.map_eq_some_iff.mp h
      obtain ⟨m, hm, hmv⟩ := Option.bind_eq_some_iff.mp hv
      obtain rfl : (m : ℤ) = v := Option.some.inj hmv
      obtain rfl : m = n := by omega
      exact Lenient.digits hm
    · intro h
      cases h with
      | digits h => rw [h]; rfl
      | plus h => exact absurd rfl (hplus _)
      | minus h => exact absurd rfl (hminus _)

/-- A number that is parsed and must be small. -/
theorem parseInt_filter_eq_some_iff {cs : List Char} {high : ℕ} (hhigh : high < 2 ^ 31) {v : ℤ} :
    (parseInt (String.ofList cs)).filter (fun v => 0 ≤ v && v ≤ (high : ℤ)) = some v ↔
      ∃ n : ℕ, v = n ∧ n ≤ high ∧ Lenient cs n := by
  rw [Option.filter_eq_some_iff, Bool.and_eq_true, decide_eq_true_eq, decide_eq_true_eq]
  constructor
  · rintro ⟨hparse, hlow, hle⟩
    obtain ⟨n, rfl⟩ := Int.eq_ofNat_of_zero_le hlow
    exact ⟨n, rfl, by omega, (parseInt_eq_some_iff (by omega)).mp hparse⟩
  · rintro ⟨n, rfl, hle, hlenient⟩
    exact ⟨(parseInt_eq_some_iff (by omega)).mpr hlenient, by omega, by omega⟩

/-- A number that is parsed and then compared. -/
theorem match_parseInt_iff {part : String} {high : ℕ} (hhigh : high < 2 ^ 31) {valid : ℤ → Bool}
    (hvalid : ∀ v, valid v = true ↔ 0 ≤ v ∧ v ≤ high) :
    (match parseInt part with
      | some v => valid v
      | none => false) = true ↔ ∃ n ≤ high, Lenient part.toList n := by
  have hparse := fun n (hn : n < 2 ^ 31) => @parseInt_eq_some_iff part.toList n hn
  rw [String.ofList_toList] at hparse
  constructor
  · intro h
    split at h
    · rename_i v hv
      obtain ⟨hlow, hle⟩ := (hvalid v).mp h
      obtain ⟨n, rfl⟩ := Int.eq_ofNat_of_zero_le hlow
      exact ⟨n, by omega, (hparse n (by omega)).mp hv⟩
    · cases h
  · rintro ⟨n, hn, hlenient⟩
    rw [(hparse n (by omega)).mpr hlenient]
    exact (hvalid n).mpr (by omega)

/-- A list of conversions goes through if each does. -/
theorem mapM_eq_some_iff {α β : Type*} {f : α → Option β} {as : List α} {bs : List β} :
    as.mapM f = some bs ↔ List.Forall₂ (fun a b => f a = some b) as bs := by
  induction as generalizing bs with
  | nil =>
    rw [List.mapM_nil, List.forall₂_nil_left_iff]
    exact Option.some_inj.trans eq_comm
  | cons a as ih =>
    rw [List.mapM_cons, List.forall₂_cons_left_iff]
    constructor
    · intro h
      obtain ⟨b, hb, h⟩ := Option.bind_eq_some_iff.mp h
      obtain ⟨bs', hbs', h⟩ := Option.bind_eq_some_iff.mp h
      exact ⟨b, bs', hb, ih.mp hbs', (Option.some.inj h).symm⟩
    · rintro ⟨b, bs', hb, hbs', rfl⟩
      rw [hb, ih.mpr hbs']
      rfl

/-! ## 2. Addresses and networks -/

/-- Four numbers up to 255 with dots between them. -/
def Quad (Octet : NumberFormat) (cs : List Char) (octets : List ℕ) : Prop :=
  octets.length = 4 ∧ ∃ parts : List (List Char), cs = ['.'].intercalate parts ∧
    List.Forall₂ (fun part n => n ≤ 255 ∧ Octet part n) parts octets

/-- An address, which stands for itself, or a network: an address, a slash and a prefix length. -/
inductive Entry (Octet Length : NumberFormat) : List Char → List ℕ → ℕ → Prop
  | address {cs : List Char} {octets : List ℕ} : Quad Octet cs octets →
    Entry Octet Length cs octets 32
  | network {cs ls : List Char} {octets : List ℕ} {n : ℕ} : Quad Octet cs octets → n ≤ 32 →
    Length ls n → Entry Octet Length (cs ++ '/' :: ls) octets n

theorem Quad.mono {Octet Octet' : NumberFormat} (h : ∀ cs n, Octet cs n → Octet' cs n)
    {cs : List Char} {octets : List ℕ} (hquad : Quad Octet cs octets) : Quad Octet' cs octets := by
  obtain ⟨hlength, parts, hcs, hparts⟩ := hquad
  exact ⟨hlength, parts, hcs, hparts.imp fun part n hn => ⟨hn.1, h part n hn.2⟩⟩

theorem Entry.mono {Octet Octet' Length Length' : NumberFormat}
    (hoctet : ∀ cs n, Octet cs n → Octet' cs n) (hlength : ∀ cs n, Length cs n → Length' cs n)
    {cs : List Char} {octets : List ℕ} {n : ℕ} (h : Entry Octet Length cs octets n) :
    Entry Octet' Length' cs octets n := by
  cases h with
  | address hquad => exact Entry.address (hquad.mono hoctet)
  | network hquad hn hls => exact Entry.network (hquad.mono hoctet) hn (hlength _ _ hls)

/-- What is on the left has something on the right. -/
theorem exists_of_mem_left {α β : Type*} {R : α → β → Prop} {as : List α} {bs : List β}
    (h : List.Forall₂ R as bs) {a : α} (ha : a ∈ as) : ∃ b ∈ bs, R a b := by
  induction h with
  | nil => exact absurd ha List.not_mem_nil
  | @cons a' b' as bs hab _ ih =>
    rcases List.mem_cons.mp ha with rfl | ha
    · exact ⟨b', List.mem_cons_self, hab⟩
    · obtain ⟨b, hb, hR⟩ := ih ha
      exact ⟨b, List.mem_cons_of_mem _ hb, hR⟩

/-- What has something on the right, one by one, has it in one list. -/
theorem exists_forall₂ {α β : Type*} {R : α → β → Prop} {as : List α}
    (h : ∀ a ∈ as, ∃ b, R a b) : ∃ bs, List.Forall₂ R as bs := by
  induction as with
  | nil => exact ⟨[], List.Forall₂.nil⟩
  | cons a as ih =>
    obtain ⟨b, hb⟩ := h a List.mem_cons_self
    obtain ⟨bs, hbs⟩ := ih fun a ha => h a (List.mem_cons_of_mem _ ha)
    exact ⟨b :: bs, List.Forall₂.cons hb hbs⟩

theorem mem_intercalate_dot {c : Char} {parts : List (List Char)}
    (h : c ∈ ['.'].intercalate parts) : c = '.' ∨ ∃ part ∈ parts, c ∈ part := by
  induction parts with
  | nil => exact absurd h List.not_mem_nil
  | cons part parts ih =>
    cases parts with
    | nil =>
      rw [List.intercalate_singleton] at h
      exact Or.inr ⟨part, List.mem_cons_self, h⟩
    | cons part' parts =>
      rw [List.intercalate_cons_cons, List.mem_append, List.mem_append, List.mem_singleton] at h
      rcases h with (h | h) | h
      · exact Or.inr ⟨part, List.mem_cons_self, h⟩
      · exact Or.inl h
      · rcases ih h with hdot | ⟨p, hp, hc⟩
        · exact Or.inl hdot
        · exact Or.inr ⟨p, List.mem_cons_of_mem _ hp, hc⟩

/-- The parts of a quad are what its dots leave. -/
theorem quad_iff_splitOn {Octet : NumberFormat} (hdot : ∀ cs n, Octet cs n → '.' ∉ cs)
    {cs : List Char} {octets : List ℕ} :
    Quad Octet cs octets ↔ octets.length = 4 ∧
      List.Forall₂ (fun part n => n ≤ 255 ∧ Octet part n) (cs.splitOn '.') octets := by
  refine and_congr_right fun hlength => ?_
  constructor
  · rintro ⟨parts, rfl, hparts⟩
    have hne : parts ≠ [] := by
      rintro rfl
      rw [List.forall₂_nil_left_iff] at hparts
      simp [hparts] at hlength
    rwa [List.splitOn_intercalate '.' ?_ hne]
    intro part hpart
    obtain ⟨n, -, -, hn⟩ := exists_of_mem_left hparts hpart
    exact hdot part n hn
  · exact fun hparts => ⟨_, (List.intercalate_splitOn '.').symm, hparts⟩

/-- What is between the dots. -/
theorem Quad.chars {Octet : NumberFormat} {cs : List Char} {octets : List ℕ}
    (h : Quad Octet cs octets) {c : Char} (hc : c ∈ cs) :
    c = '.' ∨ ∃ part n, Octet part n ∧ c ∈ part := by
  obtain ⟨-, parts, rfl, hparts⟩ := h
  rcases mem_intercalate_dot hc with hdot | ⟨part, hpart, hc⟩
  · exact Or.inl hdot
  · obtain ⟨n, -, -, hn⟩ := exists_of_mem_left hparts hpart
    exact Or.inr ⟨part, n, hn, hc⟩

theorem Quad.slash_not_mem {cs : List Char} {octets : List ℕ} (h : Quad Lenient cs octets) :
    '/' ∉ cs := by
  intro hmem
  rcases h.chars hmem with hdot | ⟨part, n, hn, hpart⟩
  · exact absurd hdot (by decide)
  · exact hn.slash_not_mem hpart

theorem Quad.le {Octet : NumberFormat} {cs : List Char} {octets : List ℕ}
    (h : Quad Octet cs octets) : ∀ n ∈ octets, n ≤ 255 := by
  obtain ⟨-, parts, -, hparts⟩ := h
  intro n hn
  obtain ⟨part, -, hle, -⟩ := exists_of_mem_left hparts.flip hn
  exact hle

theorem Entry.octets {Octet Length : NumberFormat} {cs : List Char} {octets : List ℕ} {n : ℕ}
    (h : Entry Octet Length cs octets n) : octets.length = 4 ∧ (∀ n ∈ octets, n ≤ 255) := by
  cases h with
  | address hquad => exact ⟨hquad.1, hquad.le⟩
  | network hquad => exact ⟨hquad.1, hquad.le⟩

theorem Entry.length_le {Octet Length : NumberFormat} {cs : List Char} {octets : List ℕ} {n : ℕ}
    (h : Entry Octet Length cs octets n) : n ≤ 32 := by
  cases h with
  | address => exact Nat.le_refl _
  | network _ hn => exact hn

/-- What an entry is written with: numbers, dots and a slash. -/
theorem Entry.chars {Octet Length : NumberFormat} {P : Char → Prop} (hdot : P '.') (hslash : P '/')
    (hoctet : ∀ cs n, Octet cs n → ∀ c ∈ cs, P c) (hlength : ∀ cs n, Length cs n → ∀ c ∈ cs, P c)
    {cs : List Char} {octets : List ℕ} {n : ℕ} (h : Entry Octet Length cs octets n) :
    ∀ c ∈ cs, P c := by
  have hquad : ∀ {cs : List Char} {octets : List ℕ}, Quad Octet cs octets → ∀ c ∈ cs, P c := by
    intro cs octets hquad c hc
    rcases hquad.chars hc with rfl | ⟨part, n, hn, hc⟩
    · exact hdot
    · exact hoctet part n hn c hc
  intro c hc
  cases h with
  | address hq => exact hquad hq c hc
  | network hq _ hls =>
    rcases List.mem_append.mp hc with hc | hc
    · exact hquad hq c hc
    · rcases List.mem_cons.mp hc with rfl | hc
      · exact hslash
      · exact hlength _ _ hls c hc

/-- The characters of the format. -/
theorem Entry.ascii {cs : List Char} {octets : List ℕ} {n : ℕ}
    (h : Entry Numeral Numeral cs octets n) :
    ∀ c ∈ cs, c.isDigit = true ∨ c = '.' ∨ c = '/' :=
  h.chars (by simp) (by simp) (fun _ _ hn c hc => Or.inl (hn.1 c hc))
    fun _ _ hn c hc => Or.inl (hn.1 c hc)

/-- Written with the characters of the format, a number that is taken is one. -/
theorem Lenient.numeral {cs : List Char} {n : ℕ} (h : Lenient cs n)
    (hcs : ∀ c ∈ cs, c.isDigit = true ∨ c = '.' ∨ c = '/') : Numeral cs n := by
  refine (lenient_iff_numeral fun c hc => ?_).mp h
  rcases hcs c hc with hdigit | rfl | rfl
  · exact hdigit
  · exact absurd hc h.dot_not_mem
  · exact absurd hc h.slash_not_mem

theorem Quad.mem_of_mem_part {parts : List (List Char)} {part : List Char} (h : part ∈ parts) :
    ∀ c ∈ part, c ∈ ['.'].intercalate parts := by
  induction parts with
  | nil => exact absurd h List.not_mem_nil
  | cons part' parts ih =>
    intro c hc
    cases parts with
    | nil =>
      obtain rfl := List.mem_singleton.mp h
      rwa [List.intercalate_singleton]
    | cons part'' parts =>
      rw [List.intercalate_cons_cons, List.mem_append, List.mem_append]
      rcases List.mem_cons.mp h with rfl | h
      · exact Or.inl (Or.inl hc)
      · exact Or.inr (ih h c hc)

theorem Quad.numeral {cs : List Char} {octets : List ℕ} (h : Quad Lenient cs octets)
    (hcs : ∀ c ∈ cs, c.isDigit = true ∨ c = '.' ∨ c = '/') : Quad Numeral cs octets := by
  obtain ⟨hlength, parts, rfl, hparts⟩ := h
  refine ⟨hlength, parts, rfl, ?_⟩
  refine List.forall₂_iff_zip.mpr ⟨hparts.length_eq, fun {part n} hmem => ?_⟩
  obtain ⟨hle, hn⟩ := List.forall₂_zip hparts hmem
  exact ⟨hle, hn.numeral fun c hc =>
    hcs c (Quad.mem_of_mem_part (List.of_mem_zip hmem).1 c hc)⟩

/-- **What is taken beyond the format** has a sign or a foreign digit in it. -/
theorem Entry.numeral {cs : List Char} {octets : List ℕ} {n : ℕ}
    (h : Entry Lenient Lenient cs octets n)
    (hcs : ∀ c ∈ cs, c.isDigit = true ∨ c = '.' ∨ c = '/') : Entry Numeral Numeral cs octets n := by
  cases h with
  | address hquad => exact Entry.address (hquad.numeral hcs)
  | network hquad hn hls =>
    refine Entry.network (hquad.numeral fun c hc => hcs c (List.mem_append_left _ hc)) hn ?_
    exact hls.numeral fun c hc =>
      hcs c (List.mem_append_right _ (List.mem_cons_of_mem _ hc))

end ShiroKhorshid.Dotted
