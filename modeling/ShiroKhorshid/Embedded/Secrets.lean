/-
# Embedded values (`encodeBytes` in the build script, `Sd` in the app)

The build script writes its secrets into a Java file as XORed bytes, and the app undoes this when
it starts.  The two are written in different languages and agree on the key of every byte.  They
do not agree on what a byte is: `encodeBytes` takes the UTF-8 bytes of the text and `Sd.d` makes a
character of each.

* **One byte.**  The key is computed from the seed and the place, in the same way on both sides, and
  only its low byte is used; so it cancels (`unmask`), and the sign of a byte does not matter.
* **A text** comes back as the characters of its UTF-8 bytes (`d_encodeBytes`), which is the text if
  and only if every character is one byte.
* **A list of texts** comes back text by text (`da_serverListByteArrays`).

`secrets_round_trip`: a text comes back exactly if it is ASCII, whatever the seed.

The Java file in between is taken to hold the numbers that were written; its syntax is not modelled.
-/
import ShiroKhorshid.Lib.Utf16

namespace ShiroKhorshid.Embedded

open Utf16

/-! ## 1. The build script -/

/-- `encodeBytes`: the numbers in the generated `new byte[]{((byte)v), …}`. -/
def encodeBytes (text : Option Text) (seed : BitVec 32) : List (BitVec 32) :=
  match text with
  | none => []
  | some text =>
    if text.isEmpty then []
    else
      (utf8 text).mapIdx fun i b =>
        let i := BitVec.ofNat 32 i
        let k := (seed ^^^ (i * 31#32) ^^^ (i >>> 3)) &&& 0xFF#32
        (b.signExtend 32 &&& 0xFF#32) ^^^ k

/-- The array the compiler makes of them: `(byte)` keeps the low byte. -/
def byteArray (vs : List (BitVec 32)) : Bytes := vs.map (·.setWidth 8)

/-- `serverListParts` -/
def serverListByteArrays (entries : List Text) (seedServerList : BitVec 32) : List Bytes :=
  entries.mapIdx fun idx entry =>
    byteArray (encodeBytes (some entry) (seedServerList ^^^ (BitVec.ofNat 32 idx * 17#32)))

/-! ## 2. The app -/

def Sd.d (seed : BitVec 32) (enc : Option Bytes) : Text :=
  match enc with
  | none => []
  | some enc =>
    if enc.length = 0 then []
    else
      enc.mapIdx fun i b =>
        let i := BitVec.ofNat 32 i
        let k := (seed ^^^ (i * 31#32) ^^^ (i >>> 3)) &&& 0xFF#32
        ((b.signExtend 32 &&& 0xFF#32) ^^^ k).setWidth 16

def Sd.da (baseSeed : BitVec 32) (parts : Option (List (Option Bytes))) : List Text :=
  match parts with
  | none => []
  | some parts =>
    if parts.length = 0 then []
    else parts.mapIdx fun i part => Sd.d (baseSeed ^^^ (BitVec.ofNat 32 i * 17#32)) part

/-! ## 3. One after the other -/

/-- `b & 0xFF` has no sign. -/
theorem signExtend_and (b : BitVec 8) : b.signExtend 32 &&& 0xFF#32 = b.setWidth 32 := by
  revert b
  decide +kernel

theorem setWidth_key (k : BitVec 32) :
    ((k &&& 0xFF#32).setWidth 8).setWidth 32 = k &&& 0xFF#32 := by
  have hk : (k &&& 0xFF#32).toNat < 256 := by
    rw [BitVec.toNat_and]
    exact Nat.lt_of_le_of_lt Nat.and_le_right (by decide)
  refine BitVec.eq_of_toNat_eq ?_
  simp only [BitVec.toNat_setWidth]
  omega

theorem setWidth_byte {n : ℕ} (b : BitVec 8) :
    (b.setWidth 32).setWidth n = b.setWidth n := by
  refine BitVec.eq_of_toNat_eq ?_
  simp only [BitVec.toNat_setWidth]
  have hb : b.toNat % 2 ^ 32 = b.toNat := Nat.mod_eq_of_lt (by omega)
  rw [hb]

/-- **One byte**: the key is the same on both sides and cancels. -/
theorem unmask (b : BitVec 8) (k : BitVec 32) :
    (((((b.signExtend 32 &&& 0xFF#32) ^^^ (k &&& 0xFF#32)).setWidth 8).signExtend 32
      &&& 0xFF#32) ^^^ (k &&& 0xFF#32)).setWidth 16 = b.setWidth 16 := by
  have hcancel : (((b.setWidth 32 ^^^ (k &&& 0xFF#32)).setWidth 8).setWidth 32
      ^^^ (k &&& 0xFF#32)) = b.setWidth 32 := by
    rw [BitVec.setWidth_xor, BitVec.setWidth_xor, setWidth_key,
      setWidth_byte b, BitVec.setWidth_eq, BitVec.xor_assoc, BitVec.xor_self,
      BitVec.xor_zero]
  rw [signExtend_and, signExtend_and, hcancel, setWidth_byte b]

/-- What comes back is the UTF-8 bytes, one character each. -/
theorem d_encodeBytes (text : Text) (seed : BitVec 32) :
    Sd.d seed (some (byteArray (encodeBytes (some text) seed))) = latin1 (utf8 text) := by
  cases text with
  | nil => rfl
  | cons c rest =>
    have hne : ¬ (utf8 (c :: rest)).length = 0 := by
      have hlength := length_le_utf8 (c :: rest)
      rw [List.length_cons] at hlength
      omega
    unfold Sd.d encodeBytes byteArray latin1
    dsimp only [List.isEmpty_cons]
    rw [if_neg Bool.false_ne_true, if_neg (by rwa [List.length_map, List.length_mapIdx])]
    refine List.ext_getElem (by simp) ?_
    intro i hi hi'
    simp only [List.getElem_mapIdx, List.getElem_map]
    exact unmask _ _

theorem da_serverListByteArrays (entries : List Text) (seed : BitVec 32) :
    Sd.da seed (some ((serverListByteArrays entries seed).map some)) =
      entries.map fun entry => latin1 (utf8 entry) := by
  unfold Sd.da serverListByteArrays
  dsimp only
  split
  · rename_i hnil
    have hentries : entries = [] := by simpa using hnil
    rw [hentries]
    rfl
  · refine List.ext_getElem (by simp) ?_
    intro i hi hi'
    simp only [List.getElem_mapIdx, List.getElem_map]
    exact d_encodeBytes _ _

/-- **The round trip.**  Whatever the seed, a text comes back exactly if its characters are ASCII,
and a list of texts exactly if all of theirs are. -/
theorem secrets_round_trip (seed : BitVec 32) (text : Text) (entries : List Text) :
    (Sd.d seed (some (byteArray (encodeBytes (some text) seed))) = text ↔
      ∀ c ∈ text, c < 0x80#16) ∧
    (Sd.da seed (some ((serverListByteArrays entries seed).map some)) = entries ↔
      ∀ entry ∈ entries, ∀ c ∈ entry, c < 0x80#16) := by
  constructor
  · rw [d_encodeBytes]
    exact latin1_utf8_iff text
  · rw [da_serverListByteArrays]
    calc entries.map (fun entry => latin1 (utf8 entry)) = entries
        ↔ entries.map (fun entry => latin1 (utf8 entry)) = entries.map id := by rw [List.map_id]
      _ ↔ ∀ entry ∈ entries, latin1 (utf8 entry) = id entry := List.map_inj_left
      _ ↔ ∀ entry ∈ entries, ∀ c ∈ entry, c < 0x80#16 :=
        forall_congr' fun entry => imp_congr_right fun _ => latin1_utf8_iff entry

/-- `é` comes back as the two characters of its UTF-8 bytes. -/
theorem not_round_trip :
    ¬ ((∀ (text : Text) (seed : BitVec 32),
        Sd.d seed (some (byteArray (encodeBytes (some text) seed))) = text) ∧
      ∀ (entries : List Text) (seed : BitVec 32),
        Sd.da seed (some ((serverListByteArrays entries seed).map some)) = entries) := by
  intro h
  exact absurd (h.1 [0xE9#16] 0x5A#32) (by decide)

end ShiroKhorshid.Embedded
