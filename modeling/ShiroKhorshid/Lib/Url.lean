/-
# The parts of a URL

A URL names a server in its authority: after the scheme, up to the first slash, question mark or
number sign.  In the authority, a user and a password may stand before the last `@`, and a port
after the last colon.  Characters that would be taken for one of these separators are written as
their bytes in UTF-8, each with a percent sign before it.

`splitUrl` takes a URL apart and `decode` undoes the percent signs; the results are about when this
gives back what a URL was put together from.

* **Percent-encoding.**  The bytes come back (`decodeBytes_encode`), and so the text does
  (`decode_encode`), since two hexadecimal digits have one value.  A text that is not encoded comes
  back exactly where it has no percent sign (`decode_eq_self_iff`).
* **The authority.**  Where the host has no separators but colons, a URL is taken apart as it was
  put together (`splitUrl_eq`); otherwise what is taken for the host is a part of it and not all of
  it (`host_of_splitUrl`).

Paths and queries are not looked at.  Percent signs that are followed by something else than two
hexadecimal digits make `decode` fail.
-/
import Mathlib.Data.List.Infix
import Mathlib.Data.List.TakeWhile
import ShiroKhorshid.Lib.Cut

namespace Url

/-! ## 1. Percent-encoding -/

def hexDigit (n : ℕ) : Char := "0123456789ABCDEF".toList.getD n '0'

def hexValue (c : Char) : Option ℕ := "0123456789ABCDEF".toList.idxOf? c.toUpper

/-- A byte, with a percent sign before it. -/
def escape (b : UInt8) : List Char := ['%', hexDigit (b.toNat / 16), hexDigit (b.toNat % 16)]

/-- The bytes of a text. -/
def bytesOf (cs : List Char) : List UInt8 := cs.flatMap String.utf8EncodeChar

variable {keep : Char → Bool}

/-- The text with all characters escaped but those that are kept. -/
def encode (keep : Char → Bool) (cs : List Char) : List Char :=
  cs.flatMap fun c => if keep c then [c] else (String.utf8EncodeChar c).flatMap escape

/-- The bytes that a text stands for; every percent sign needs two digits after it. -/
def decodeBytes : List Char → Option (List UInt8)
  | [] => some []
  | '%' :: high :: low :: cs => do
    let high ← hexValue high
    let low ← hexValue low
    let bytes ← decodeBytes cs
    some (UInt8.ofNat (16 * high + low) :: bytes)
  | c :: cs => if c = '%' then none else (decodeBytes cs).map (String.utf8EncodeChar c ++ ·)

/-- The text that a text stands for. -/
def decode (cs : List Char) : Option (List Char) :=
  (decodeBytes cs).bind fun bytes => bytes.toByteArray.utf8Decode?.map Array.toList

theorem bytesOf_append (cs ds : List Char) : bytesOf (cs ++ ds) = bytesOf cs ++ bytesOf ds :=
  List.flatMap_append

theorem encode_append (cs ds : List Char) :
    encode keep (cs ++ ds) = encode keep cs ++ encode keep ds := List.flatMap_append

theorem hexValue_hexDigit {n : ℕ} (h : n < 16) : hexValue (hexDigit n) = some n := by
  revert n
  decide

theorem decodeBytes_cons {c : Char} (h : c ≠ '%') (cs : List Char) :
    decodeBytes (c :: cs) = (decodeBytes cs).map (String.utf8EncodeChar c ++ ·) := by
  rw [decodeBytes, if_neg h]
  rintro high low cs' rfl
  exact absurd rfl h

theorem decodeBytes_escape (b : UInt8) (cs : List Char) :
    decodeBytes (escape b ++ cs) = (decodeBytes cs).map (b :: ·) := by
  have hlt : b.toNat < 256 := b.toNat_lt
  have hvalue : UInt8.ofNat (16 * (b.toNat / 16) + b.toNat % 16) = b := by
    rw [Nat.div_add_mod, UInt8.ofNat_toNat]
  rw [escape, List.cons_append, List.cons_append, List.cons_append, List.nil_append, decodeBytes,
    hexValue_hexDigit (by omega), hexValue_hexDigit (by omega)]
  cases decodeBytes cs with
  | none => rfl
  | some bytes => exact congrArg (fun b => some (b :: bytes)) hvalue

/-- **The bytes come back.** -/
theorem decodeBytes_encode (hkeep : ∀ c, keep c = true → c ≠ '%') (cs : List Char) :
    decodeBytes (encode keep cs) = some (bytesOf cs) := by
  have hescaped : ∀ (bytes : List UInt8) (cs : List Char),
      decodeBytes (bytes.flatMap escape ++ cs) = (decodeBytes cs).map (bytes ++ ·) := by
    intro bytes cs
    induction bytes with
    | nil => simp
    | cons b bytes ih =>
      rw [List.flatMap_cons, List.append_assoc, decodeBytes_escape, ih, Option.map_map]
      rfl
  induction cs with
  | nil => rfl
  | cons c cs ih =>
    have hstep : encode keep (c :: cs) =
        (if keep c then [c] else (String.utf8EncodeChar c).flatMap escape) ++ encode keep cs :=
      List.flatMap_cons
    have hbytes : bytesOf (c :: cs) = String.utf8EncodeChar c ++ bytesOf cs := List.flatMap_cons
    rw [hstep, hbytes]
    split
    · rename_i hc
      rw [List.singleton_append, decodeBytes_cons (hkeep c hc), ih]
      rfl
    · rw [hescaped, ih]
      rfl

theorem decode_eq_some_iff {cs ds : List Char} :
    decode cs = some ds ↔ decodeBytes cs = some (bytesOf ds) := by
  rw [decode, Option.bind_eq_some_iff]
  constructor
  · rintro ⟨bytes, hbytes, hds⟩
    obtain ⟨chars, hchars, rfl⟩ := Option.map_eq_some_iff.mp hds
    have hsome : bytes.toByteArray.utf8Decode?.isSome = true := by rw [hchars]; rfl
    have hback := @ByteArray.utf8Encode_get_utf8Decode? bytes.toByteArray hsome
    simp only [hchars, Option.get_some] at hback
    rw [hbytes, ← List.toByteArray_inj.mp hback]
    rfl
  · intro h
    refine ⟨_, h, ?_⟩
    have hdecode : (bytesOf ds).toByteArray.utf8Decode? = some ds.toArray :=
      List.utf8Decode?_utf8Encode
    rw [hdecode]
    rfl

/-- **What was encoded comes back.** -/
theorem decode_encode (hkeep : ∀ c, keep c = true → c ≠ '%') (cs : List Char) :
    decode (encode keep cs) = some cs :=
  decode_eq_some_iff.mpr (decodeBytes_encode hkeep cs)

theorem mem_encode {cs : List Char} {c : Char} (h : c ∈ encode keep cs) :
    keep c = true ∨ c = '%' ∨ ∃ n < 16, c = hexDigit n := by
  obtain ⟨d, -, hc⟩ := List.mem_flatMap.mp h
  split at hc
  · rename_i hd
    rw [List.mem_singleton.mp hc]
    exact Or.inl hd
  · obtain ⟨b, -, hb⟩ := List.mem_flatMap.mp hc
    have hlt : b.toNat < 256 := b.toNat_lt
    simp only [escape, List.mem_cons, List.not_mem_nil, or_false] at hb
    rcases hb with rfl | rfl | rfl
    · exact Or.inr (Or.inl rfl)
    · exact Or.inr (Or.inr ⟨_, by omega, rfl⟩)
    · exact Or.inr (Or.inr ⟨_, by omega, rfl⟩)

theorem length_utf8EncodeChar_pos (c : Char) : 0 < (String.utf8EncodeChar c).length := by
  rw [String.length_utf8EncodeChar]
  exact c.utf8Size_pos

theorem length_le_bytesOf (cs : List Char) : cs.length ≤ (bytesOf cs).length := by
  induction cs with
  | nil => exact Nat.le_refl 0
  | cons c cs ih =>
    have hpos := length_utf8EncodeChar_pos c
    rw [bytesOf, List.flatMap_cons, List.length_append, List.length_cons, ← bytesOf]
    omega

/-- Decoding makes nothing longer, and what has a percent sign in it shorter. -/
theorem length_decodeBytes {cs : List Char} {bytes : List UInt8} (h : decodeBytes cs = some bytes) :
    bytes.length ≤ (bytesOf cs).length ∧ ('%' ∈ cs → bytes.length < (bytesOf cs).length) := by
  fun_induction decodeBytes cs generalizing bytes with
  | case1 =>
    obtain rfl := Option.some.inj h
    exact ⟨Nat.le_refl _, fun hmem => absurd hmem List.not_mem_nil⟩
  | case2 high low cs ih =>
    obtain ⟨a, -, h⟩ := Option.bind_eq_some_iff.mp h
    obtain ⟨b, -, h⟩ := Option.bind_eq_some_iff.mp h
    obtain ⟨bytes', hbytes', h⟩ := Option.bind_eq_some_iff.mp h
    obtain rfl := Option.some.inj h
    have hle := (ih hbytes').1
    have hthree := length_le_bytesOf ['%', high, low]
    have happend : bytesOf ('%' :: high :: low :: cs) = bytesOf ['%', high, low] ++ bytesOf cs :=
      bytesOf_append ['%', high, low] cs
    rw [happend, List.length_append, List.length_cons]
    simp only [List.length_cons, List.length_nil] at hthree
    exact ⟨by omega, fun _ => by omega⟩
  | case3 cs hnot => cases h
  | case4 c cs hnot hc ih =>
    obtain ⟨bytes', hbytes', rfl⟩ := Option.map_eq_some_iff.mp h
    obtain ⟨hle, hlt⟩ := ih hbytes'
    have happend : bytesOf (c :: cs) = String.utf8EncodeChar c ++ bytesOf cs := List.flatMap_cons
    rw [happend, List.length_append, List.length_append]
    refine ⟨by omega, fun hmem => ?_⟩
    have := hlt ((List.mem_cons.mp hmem).resolve_left (Ne.symm hc))
    omega

/-- Nothing is decoded in a text without percent signs. -/
theorem decode_eq_self_iff {cs : List Char} : decode cs = some cs ↔ '%' ∉ cs := by
  rw [decode_eq_some_iff]
  constructor
  · intro h hmem
    exact absurd ((length_decodeBytes h).2 hmem) (Nat.lt_irrefl _)
  · intro h
    induction cs with
    | nil => rfl
    | cons c cs ih =>
      rw [List.mem_cons, not_or] at h
      rw [decodeBytes_cons (Ne.symm h.1), ih h.2]
      exact congrArg some List.flatMap_cons.symm

theorem length_bytesOf_le {cs ds : List Char} (h : cs.Sublist ds) :
    (bytesOf cs).length ≤ (bytesOf ds).length := by
  induction h with
  | slnil => exact Nat.le_refl _
  | cons c _ ih =>
    rw [bytesOf, bytesOf, List.flatMap_cons, List.length_append]
    exact ih.trans (Nat.le_add_left _ _)
  | cons_cons c _ ih =>
    rw [bytesOf, bytesOf, List.flatMap_cons, List.flatMap_cons, List.length_append,
      List.length_append]
    exact Nat.add_le_add_left ih _

/-- A text is not decoded from a part of it. -/
theorem length_bytesOf_lt {cs ds : List Char} (h : cs.Sublist ds) (hlt : cs.length < ds.length) :
    (bytesOf cs).length < (bytesOf ds).length := by
  induction h with
  | slnil => exact absurd hlt (Nat.lt_irrefl _)
  | @cons cs ds c h ih =>
    have hpos := length_utf8EncodeChar_pos c
    have hle := length_bytesOf_le h
    have happend : bytesOf (c :: ds) = String.utf8EncodeChar c ++ bytesOf ds := List.flatMap_cons
    rw [happend, List.length_append]
    omega
  | @cons_cons cs ds c h ih =>
    have hlt' := ih (by simpa using hlt)
    rw [bytesOf, bytesOf, List.flatMap_cons, List.flatMap_cons, List.length_append,
      List.length_append]
    exact Nat.add_lt_add_left hlt' _

theorem eq_of_decode_sublist {cs ds : List Char} (h : cs.Sublist ds)
    (hdecode : decode cs = some ds) :
    cs = ds := by
  by_contra hne
  have hlt : cs.length < ds.length :=
    lt_of_le_of_ne h.length_le fun hlength => hne (h.eq_of_length hlength)
  have hle := (length_decodeBytes (decode_eq_some_iff.mp hdecode)).1
  exact absurd (length_bytesOf_lt h hlt) (Nat.not_lt.mpr hle)

/-! ## 2. The authority -/

/-- What ends the authority. -/
def isTerminator (c : Char) : Bool := c = '/' || c = '?' || c = '#'

/-- The parts of an authority, as they are written. -/
structure Parts where
  /-- the user, and the password if there is one -/
  userinfo : Option (List Char × Option (List Char))
  host : List Char
  port : List Char
deriving DecidableEq

/-- A user and a password, cut at the first colon. -/
def splitUserinfo (cs : List Char) : List Char × Option (List Char) :=
  match Cut.first ':' cs with
  | some (user, password) => (user, some password)
  | none => (cs, none)

/-- What is before the last `@`, and what is after it. -/
def splitUser (authority : List Char) : Option (List Char) × List Char :=
  match Cut.last '@' authority with
  | some (userinfo, hostport) => (some userinfo, hostport)
  | none => (none, authority)

/-- The parts of a URL after the slashes of its scheme; it must have a port. -/
def splitUrl (cs : List Char) : Option Parts :=
  let split := splitUser (cs.takeWhile fun c => !isTerminator c)
  (Cut.last ':' split.2).map fun hostport => ⟨split.1.map splitUserinfo, hostport.1, hostport.2⟩

/-- Characters of which none is a separator. -/
def Plain (cs : List Char) : Prop := ∀ c ∈ cs, c ≠ ':' ∧ c ≠ '@' ∧ isTerminator c = false

/-- What may stand before a host: nothing, or a user and a password with an `@`. -/
inductive Front : List Char → Option (List Char × Option (List Char)) → Prop
  | none : Front [] none
  | userinfo {user password : List Char} : Plain user → Plain password →
    Front (user ++ ':' :: (password ++ ['@'])) (some (user, some password))

theorem Front.noTerminator {front : List Char} {userinfo : Option (List Char × Option (List Char))}
    (h : Front front userinfo) : ∀ c ∈ front, isTerminator c = false := by
  cases h with
  | none => exact fun c hc => absurd hc List.not_mem_nil
  | userinfo huser hpassword =>
    intro c hc
    simp only [List.mem_append, List.mem_cons, List.not_mem_nil, or_false] at hc
    rcases hc with hc | rfl | hc | rfl
    · exact (huser c hc).2.2
    · rfl
    · exact (hpassword c hc).2.2
    · rfl

theorem splitUserinfo_eq {user password : List Char} (huser : Plain user) :
    splitUserinfo (user ++ ':' :: password) = (user, some password) := by
  have hcut : Cut.first ':' (user ++ ':' :: password) = some (user, password) :=
    Cut.first_eq_some_iff.mpr ⟨rfl, fun hmem => (huser _ hmem).1 rfl⟩
  rw [splitUserinfo, hcut]

/-- The last `@` is the one of the front, or stands behind the front. -/
theorem splitUser_front {front : List Char} {userinfo : Option (List Char × Option (List Char))}
    (h : Front front userinfo) {rest : List Char} :
    ('@' ∉ rest → (splitUser (front ++ rest)).1.map splitUserinfo = userinfo ∧
        (splitUser (front ++ rest)).2 = rest) ∧
      ('@' ∈ rest → ∃ before, rest = before ++ '@' :: (splitUser (front ++ rest)).2) := by
  constructor
  · intro hrest
    cases h with
    | none =>
      have hcut : Cut.last '@' ([] ++ rest) = none := Cut.last_eq_none_iff.mpr hrest
      rw [splitUser, hcut]
      exact ⟨rfl, rfl⟩
    | @userinfo user password huser hpassword =>
      have hcut : Cut.last '@' (user ++ ':' :: (password ++ ['@']) ++ rest) =
          some (user ++ ':' :: password, rest) :=
        Cut.last_eq_some_iff.mpr ⟨by simp, hrest⟩
      rw [splitUser, hcut]
      exact ⟨congrArg some (splitUserinfo_eq huser), rfl⟩
  · intro hrest
    obtain ⟨before, after, hsplit, hafter⟩ : ∃ before after, rest = before ++ '@' :: after ∧
        '@' ∉ after := by
      cases hcut : Cut.last '@' rest with
      | none => exact absurd hrest (Cut.last_eq_none_iff.mp hcut)
      | some p => exact ⟨p.1, p.2, Cut.last_eq_some_iff.mp hcut⟩
    have hcut : Cut.last '@' (front ++ rest) = some (front ++ before, after) :=
      Cut.last_eq_some_iff.mpr ⟨by rw [hsplit, List.append_assoc], hafter⟩
    refine ⟨before, ?_⟩
    rw [splitUser, hcut]
    exact hsplit

theorem takeWhile_authority {cs : List Char} (h : ∀ c ∈ cs, isTerminator c = false) :
    cs.takeWhile (fun c => !isTerminator c) = cs := by
  refine List.takeWhile_eq_self_iff.mpr fun c hc => ?_
  rw [h c hc]
  rfl

/-- The host and the port are what is around the last colon. -/
theorem last_colon (host : List Char) {port : List Char} (hport : Plain port) :
    Cut.last ':' (host ++ ':' :: port) = some (host, port) :=
  Cut.last_eq_some_iff.mpr ⟨rfl, fun hmem => (hport _ hmem).1 rfl⟩

theorem takeWhile_front {front : List Char} {userinfo : Option (List Char × Option (List Char))}
    (h : Front front userinfo) (rest : List Char) :
    (front ++ rest).takeWhile (fun c => !isTerminator c) =
      front ++ rest.takeWhile fun c => !isTerminator c := by
  refine List.takeWhile_append_of_pos fun c hc => ?_
  rw [h.noTerminator c hc]
  rfl

/-- **A URL is taken apart as it was put together**, if its host has no separators but colons. -/
theorem splitUrl_eq {front : List Char} {userinfo : Option (List Char × Option (List Char))}
    (h : Front front userinfo) {host port : List Char}
    (hhost : ∀ c ∈ host, c ≠ '@' ∧ isTerminator c = false) (hport : Plain port) :
    splitUrl (front ++ (host ++ ':' :: port)) = some ⟨userinfo, host, port⟩ := by
  have hrest : ∀ c ∈ host ++ ':' :: port, c ≠ '@' ∧ isTerminator c = false := by
    intro c hc
    rcases List.mem_append.mp hc with hc | hc
    · exact hhost c hc
    · rcases List.mem_cons.mp hc with rfl | hc
      · decide
      · exact (hport c hc).2
  have htake := takeWhile_authority fun c hc => (hrest c hc).2
  obtain ⟨huserinfo, hhostport⟩ :=
    (@splitUser_front _ _ h (host ++ ':' :: port)).1 fun hmem => (hrest _ hmem).1 rfl
  simp only [splitUrl, takeWhile_front h, htake, huserinfo, hhostport, last_colon host hport,
    Option.map_some]

/-- What is behind the last `@`. -/
theorem splitUser_suffix {front : List Char} {userinfo : Option (List Char × Option (List Char))}
    (h : Front front userinfo) (rest : List Char) : (splitUser (front ++ rest)).2 <:+ rest := by
  by_cases hrest : '@' ∈ rest
  · obtain ⟨before, hbefore⟩ := (splitUser_front h).2 hrest
    refine ⟨before ++ ['@'], ?_⟩
    rw [List.append_assoc]
    exact hbefore.symm
  · rw [((splitUser_front h).1 hrest).2]

/-- **Otherwise** what is taken for the host is a part of it, and not all of it. -/
theorem host_of_splitUrl {front : List Char} {userinfo : Option (List Char × Option (List Char))}
    (h : Front front userinfo) {host port : List Char} (hport : Plain port) {parts : Parts}
    (hparts : splitUrl (front ++ (host ++ ':' :: port)) = some parts)
    (hhost : ¬ ∀ c ∈ host, c ≠ '@' ∧ isTerminator c = false) :
    parts.host.Sublist host ∧ parts.host.length < host.length := by
  have hports : ∀ c ∈ ':' :: port, isTerminator c = false := by
    intro c hc
    rcases List.mem_cons.mp hc with rfl | hc
    · rfl
    · exact (hport c hc).2.2
  rw [splitUrl, takeWhile_front h] at hparts
  obtain ⟨⟨host', port'⟩, hcut, rfl⟩ := Option.map_eq_some_iff.mp hparts
  obtain ⟨hhostport, hlast⟩ := Cut.last_eq_some_iff.mp hcut
  by_cases hterminator : ∀ c ∈ host, isTerminator c = false
  · -- the authority is whole, and there is an `@` in the host
    have hall : ∀ c ∈ host ++ ':' :: port, isTerminator c = false := by
      intro c hc
      rcases List.mem_append.mp hc with hc | hc
      · exact hterminator c hc
      · exact hports c hc
    have hmem : '@' ∈ host ++ ':' :: port := by
      by_contra hnot
      refine hhost fun c hc => ⟨?_, hterminator c hc⟩
      rintro rfl
      exact hnot (List.mem_append_left _ hc)
    rw [takeWhile_authority hall] at hhostport
    obtain ⟨before, hbefore⟩ := (splitUser_front h).2 hmem
    have hwhole : Cut.last ':' (host ++ ':' :: port) = some (before ++ '@' :: host', port') :=
      Cut.last_eq_some_iff.mpr ⟨by rw [hbefore, hhostport]; simp, hlast⟩
    rw [last_colon host hport] at hwhole
    obtain ⟨rfl, -⟩ := Prod.mk.inj (Option.some.inj hwhole)
    refine ⟨(List.sublist_cons_self _ _).trans (List.sublist_append_right _ _), ?_⟩
    change host'.length < (before ++ '@' :: host').length
    rw [List.length_append, List.length_cons]
    omega
  · -- the authority ends in the host
    have hshort : (host.takeWhile fun c => !isTerminator c).length ≠ host.length := by
      intro hlength
      have heq := (List.takeWhile_prefix fun c => !isTerminator c).eq_of_length hlength
      refine hterminator fun c hc => ?_
      simpa using List.takeWhile_eq_self_iff.mp heq c hc
    rw [List.takeWhile_append, if_neg hshort] at hhostport
    have hsuffix := splitUser_suffix h (host.takeWhile fun c => !isTerminator c)
    rw [hhostport] at hsuffix
    have hbefore' : host' <+: host' ++ ':' :: port' := List.prefix_append _ _
    have htake := List.takeWhile_prefix (l := host) fun c => !isTerminator c
    refine ⟨(hbefore'.sublist.trans hsuffix.sublist).trans htake.sublist, ?_⟩
    refine (hbefore'.length_le.trans hsuffix.length_le).trans_lt ?_
    exact lt_of_le_of_ne htake.length_le hshort

end Url
