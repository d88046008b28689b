/-
# Signed packages (`AuthenticatedDataPackage`)

A package is a JSON object with the data, a signature and a digest of the key.  The data can be
too large for memory, so they go to their destination while they are read, before anything is
known about the signature; on the way they are encoded again, because the signature is one of the
base64 text.  Fields come in any order and any number of times.

What the parser finds is given as a list of its answers, one for each turn of the loop, whatever
bytes it has read them from.  A call of the parser ends in one of three ways: it returns, it throws
what `extractAndVerifyData` translates (an `IOException`, or the `IllegalArgumentException` of
`readBinaryValue`), or it throws another unchecked exception, which nothing there catches.  Jackson
does so for a field name of more than 262145 characters and for names made to collide.  The
destination can fail at any write.

The argument for `verified_of_success` is one invariant, `Reading.Ok`, kept by every field: what the
signature has been fed with is the base64 text of what has been written, up to the bytes the encoder
holds back, and once `data` has been read the file is closed, so that nothing is held back and
nothing can be added.

Nothing is said about what is in the file after a failure; the two-phase process of the caller is
for that.  An `Error` of the machine (no memory left) is not modelled.
-/
import ShiroKhorshid.Lib.Base64

namespace ShiroKhorshid.Upgrade

/-! ## 1. The streams -/

/-- A file being written.  `faults` is what becomes of the next operations: one fails after so many
bytes, or it does not. -/
structure Destination where
  written : List UInt8
  closed : Bool
  faults : List (Option ℕ)
deriving DecidableEq

namespace Destination

def new (faults : List (Option ℕ)) : Destination := ⟨[], false, faults⟩

/-- `write(b)`, with `false` for an `IOException`.  A closed stream takes no more bytes. -/
def write (d : Destination) (bs : List UInt8) : Bool × Destination :=
  if d.closed ∧ bs ≠ [] then (false, d)
  else
    match d.faults with
    | some n :: faults => (false, { d with written := d.written ++ bs.take n, faults := faults })
    | none :: faults => (true, { d with written := d.written ++ bs, faults := faults })
    | [] => (true, { d with written := d.written ++ bs })

/-- `close()`; closing again does nothing. -/
def close (d : Destination) : Bool × Destination :=
  if d.closed then (true, d)
  else
    match d.faults with
    | some _ :: faults => (false, { d with closed := true, faults := faults })
    | none :: faults => (true, { d with closed := true, faults := faults })
    | [] => (true, { d with closed := true })

@[simp] theorem written_close (d : Destination) : d.close.2.written = d.written := by
  unfold close
  split
  · rfl
  · split <;> rfl

theorem closed_of_close {d d' : Destination} (h : d.close = (true, d')) : d'.closed = true := by
  unfold close at h
  split at h
  · cases h
    assumption
  · split at h <;> cases h <;> rfl

/-- A write that succeeds writes all, and there is nothing to write if the stream is closed. -/
theorem of_write {d d' : Destination} {bs : List UInt8} (h : d.write bs = (true, d')) :
    d'.written = d.written ++ bs ∧ d'.closed = d.closed ∧ (d.closed = true → bs = []) := by
  unfold write at h
  split at h
  · cases h
  · rename_i hopen
    have hempty : d.closed = true → bs = [] := by
      intro hclosed
      by_contra hne
      exact hopen ⟨hclosed, hne⟩
    split at h <;> cases h
    · exact ⟨rfl, rfl, hempty⟩
    · exact ⟨rfl, rfl, hempty⟩

end Destination

/-- The destination, and what the signature is fed with. -/
structure VerifyingOutputStream where
  dataIsBase64 : Bool
  out : Destination
  verify : Base64.Encoder
deriving DecidableEq

namespace VerifyingOutputStream

def write (v : VerifyingOutputStream) (bs : List UInt8) : Bool × VerifyingOutputStream :=
  match v.out.write bs with
  | (false, out) => (false, { v with out := out })
  | (true, out) =>
    (true, { v with
      out := out
      verify :=
        if v.dataIsBase64 then v.verify.write bs
        else { v.verify with text := v.verify.text ++ bs } })

def close (v : VerifyingOutputStream) : Bool × VerifyingOutputStream :=
  match v.out.close with
  | (false, out) => (false, { v with out := out })
  | (true, out) =>
    (true, { v with out := out, verify := if v.dataIsBase64 then v.verify.close else v.verify })

/-- Writes one after the other, up to the first that fails. -/
def writeAll (v : VerifyingOutputStream) : List (List UInt8) → Bool × VerifyingOutputStream
  | [] => (true, v)
  | bs :: rest =>
    match v.write bs with
    | (false, v) => (false, v)
    | (true, v) => v.writeAll rest

end VerifyingOutputStream

/-! ## 2. The parser's answers -/

/-- What `readBinaryValue` writes, and whether it gets to the end of the value: it throws an
`IOException` for a text that is cut off and an `IllegalArgumentException` for one that is not
base64. -/
structure Binary where
  chunks : List (List UInt8)
  complete : Bool
deriving DecidableEq

/-- How a call ends. -/
inductive Ending
  | returned
  /-- with an exception that becomes an `AuthenticatedDataPackageException` -/
  | failed
  /-- with an unchecked exception that is not caught -/
  | threw
deriving DecidableEq

def Ending.ofBool : Bool → Ending
  | true => .returned
  | false => .failed

inductive FieldValue
  /-- not a string; how `nextToken` and `skipChildren` end -/
  | other (skipped : Ending)
  /-- a string; `getValueAsString` throws if there is no text -/
  | string (text : Option String) (binary : Binary)
deriving DecidableEq

/-- One turn of the loop. -/
inductive Item
  | endObject
  | field (name : String) (value : FieldValue)
  /-- another token, no token or an `IOException` -/
  | unexpected
  /-- `nextToken` throws an unchecked exception -/
  | threw
deriving DecidableEq

structure Document where
  /-- the first token is `START_OBJECT` -/
  startObject : Bool
  items : List Item
deriving DecidableEq

/-! ## 3. The loop -/

/-- The local variables of the loop. -/
structure Reading where
  stream : VerifyingOutputStream
  dataValueRead : Bool
  signature : Option String
  signingPublicKeyDigest : Option String
deriving DecidableEq

/-- `String.getBytes()` -/
def getBytes (s : String) : List UInt8 := s.toUTF8.data.toList

/-- The value of `data`, with `false` for an exception. -/
def readData (text : Option String) (binary : Binary) (v : VerifyingOutputStream) :
    Bool × VerifyingOutputStream :=
  if v.dataIsBase64 then
    match v.writeAll binary.chunks with
    | (false, v) => (false, v)
    | (true, v) => if binary.complete then v.close else (false, v)
  else
    match text with
    | none => (false, v)
    | some text =>
      match v.write (getBytes text) with
      | (false, v) => (false, v)
      | (true, v) => v.close

def readField (name : String) (value : FieldValue) (r : Reading) : Ending × Reading :=
  match value with
  | .other skipped => (skipped, r)
  | .string text binary =>
    if name = "data" then
      match readData text binary r.stream with
      | (false, stream) => (.failed, { r with stream := stream })
      | (true, stream) => (.returned, { r with stream := stream, dataValueRead := true })
    else if name = "signature" then
      (.ofBool text.isSome, { r with signature := text })
    else if name = "signingPublicKeyDigest" then
      (.ofBool text.isSome, { r with signingPublicKeyDigest := text })
    else (.returned, r)

/-- The loop, up to the end of the object. -/
def readItems : List Item → Reading → Ending × Reading
  | [], r => (.failed, r)
  | .endObject :: _, r => (.returned, r)
  | .unexpected :: _, r => (.failed, r)
  | .threw :: _, r => (.threw, r)
  | .field name value :: rest, r =>
    match readField name value r with
    | (.returned, r) => readItems rest r
    | (.failed, r) => (.failed, r)
    | (.threw, r) => (.threw, r)

/-! ## 4. The verification -/

/-- What becomes of the text of the key. -/
inductive KeyText
  | usable
  /-- `Base64.decode` throws an `IllegalArgumentException` -/
  | notBase64
  /-- the key factory or the verifier does not take the key -/
  | rejected
deriving DecidableEq

/-- The key: its digest, the texts signed with it and what `Signature.verify` says, with `none`
for a `SignatureException`; and `Base64.decode`, with `none` for an `IllegalArgumentException`. -/
structure PublicKey where
  text : KeyText
  digest : String
  decode : String → Option (List UInt8)
  verify : List UInt8 → List UInt8 → Option Bool
  signed : List UInt8 → Prop
  signed_of_verify : ∀ text signature, verify text signature = some true → signed text

inductive Outcome
  | success
  | authenticatedDataPackageException
  /-- an exception that is not caught -/
  | uncaught
deriving DecidableEq

/-- The checks after the loop. -/
def verifyPackage (K : PublicKey) (r : Reading) : Outcome :=
  match r.dataValueRead, r.signature, r.signingPublicKeyDigest with
  | true, some signature, some digest =>
    if K.digest = digest then
      match K.decode signature with
      | none => .uncaught
      | some signature =>
        if K.verify r.stream.verify.text signature = some true then .success
        else .authenticatedDataPackageException
    else .authenticatedDataPackageException
  | _, _, _ => .authenticatedDataPackageException

/-- How it ends, and the destination then. -/
def extractAndVerifyData (K : PublicKey) (dataIsBase64 : Bool) (document : Document)
    (dataDestination : Destination) : Outcome × Destination :=
  match K.text with
  | .notBase64 => (.uncaught, dataDestination)
  | .rejected => (.authenticatedDataPackageException, dataDestination)
  | .usable =>
    let stream : VerifyingOutputStream := ⟨dataIsBase64, dataDestination, .new⟩
    if document.startObject then
      match readItems document.items ⟨stream, false, none, none⟩ with
      | (.returned, r) => (verifyPackage K r, r.stream.close.2.out)
      | (.failed, r) => (.authenticatedDataPackageException, r.stream.close.2.out)
      | (.threw, r) => (.uncaught, r.stream.close.2.out)
    else (.authenticatedDataPackageException, stream.close.2.out)

/-! ## 5. What was written is what was verified -/

/-- The signature has been fed with the text of what was written, but for what the encoder keeps;
once the file is closed, with all of it. -/
def Fed (v : VerifyingOutputStream) : Prop :=
  v.dataIsBase64 = true ∧
    (v.out.closed = false ∧ v.verify.Took v.out.written ∨
      v.out.closed = true ∧ v.verify.tail = [] ∧ v.verify.text = Base64.encode v.out.written)

theorem Fed.write {v v' : VerifyingOutputStream} {bs : List UInt8} (h : Fed v)
    (hw : v.write bs = (true, v')) : Fed v' := by
  obtain ⟨hbase64, h⟩ := h
  unfold VerifyingOutputStream.write at hw
  split at hw
  · cases hw
  · rename_i out hout
    cases hw
    obtain ⟨hwritten, hclosed, hempty⟩ := Destination.of_write hout
    refine ⟨hbase64, ?_⟩
    rw [if_pos hbase64, hwritten, hclosed]
    rcases h with ⟨hopen, htook⟩ | ⟨hclosed, htail, htext⟩
    · exact Or.inl ⟨hopen, htook.write bs⟩
    · -- nothing can have been written to a closed file
      obtain rfl := hempty hclosed
      refine Or.inr ⟨hclosed, ?_, ?_⟩
      · simp [Base64.Encoder.write, htail]
      · simp [Base64.Encoder.write, htail, htext, Base64.encode]

theorem Fed.writeAll {v v' : VerifyingOutputStream} {chunks : List (List UInt8)} (h : Fed v)
    (hw : v.writeAll chunks = (true, v')) : Fed v' := by
  induction chunks generalizing v with
  | nil =>
    cases hw
    exact h
  | cons bs rest ih =>
    unfold VerifyingOutputStream.writeAll at hw
    split at hw
    · cases hw
    · rename_i w hbs
      exact ih (h.write hbs) hw

/-- Closing feeds the signature with the rest. -/
theorem Fed.close {v v' : VerifyingOutputStream} (h : Fed v) (hc : v.close = (true, v')) :
    Fed v' ∧ v'.out.closed = true := by
  obtain ⟨hbase64, h⟩ := h
  unfold VerifyingOutputStream.close at hc
  split at hc
  · cases hc
  · rename_i out hout
    cases hc
    have hclosed := Destination.closed_of_close hout
    have hwritten : out.written = v.out.written := by
      rw [← Destination.written_close v.out, hout]
    refine ⟨⟨hbase64, Or.inr ⟨hclosed, ?_⟩⟩, hclosed⟩
    rw [if_pos hbase64, hwritten]
    refine ⟨rfl, ?_⟩
    rcases h with ⟨-, htook⟩ | ⟨-, htail, htext⟩
    · exact htook.text_close
    · simp [Base64.Encoder.close, htail, htext, Base64.encode]

/-- What holds at every turn: once `data` has been read, the file is closed. -/
structure Reading.Ok (r : Reading) : Prop where
  fed : Fed r.stream
  closed : r.dataValueRead = true → r.stream.out.closed = true

/-- **One field**, whichever it is. -/
theorem Reading.Ok.readField {r r' : Reading} {name : String} {value : FieldValue} (h : r.Ok)
    (hr : readField name value r = (.returned, r')) : r'.Ok := by
  unfold Upgrade.readField at hr
  split at hr
  · cases hr
    exact h
  · rename_i text binary
    split at hr
    · split at hr
      · cases hr
      · rename_i stream hdata
        cases hr
        unfold readData at hdata
        rw [if_pos h.fed.1] at hdata
        split at hdata
        · cases hdata
        · rename_i w hw
          split at hdata
          · obtain ⟨hfed, hclosed⟩ := (h.fed.writeAll hw).close hdata
            exact ⟨hfed, fun _ => hclosed⟩
          · cases hdata
    · split at hr
      · obtain ⟨-, rfl⟩ := Prod.mk.inj hr
        exact ⟨h.fed, h.closed⟩
      · split at hr
        · obtain ⟨-, rfl⟩ := Prod.mk.inj hr
          exact ⟨h.fed, h.closed⟩
        · cases hr
          exact h

/-- **The loop**, by induction on what the parser finds. -/
theorem Reading.Ok.readItems {items : List Item} {r r' : Reading} (h : r.Ok)
    (hr : readItems items r = (.returned, r')) : r'.Ok := by
  induction items generalizing r with
  | nil => cases hr
  | cons item rest ih =>
    cases item with
    | endObject =>
      cases hr
      exact h
    | unexpected => cases hr
    | threw => cases hr
    | field name value =>
      unfold Upgrade.readItems at hr
      split at hr
      · rename_i s hs
        exact ih (h.readField hs) hr
      · cases hr
      · cases hr

/-- The checks pass only with the data read and their signature verified. -/
theorem of_verifyPackage {K : PublicKey} {r : Reading} (h : verifyPackage K r = .success) :
    r.dataValueRead = true ∧ ∃ signature, K.verify r.stream.verify.text signature = some true := by
  unfold verifyPackage at h
  split at h
  · rename_i hread _ _
    split at h
    · split at h
      · cases h
      · rename_i signature _
        split at h
        · rename_i hverify
          exact ⟨hread, signature, hverify⟩
        · cases h
    · cases h
  · cases h

/-- A success: the signature of the base64 text of what was written has been verified. -/
theorem verified_of_success {K : PublicKey} {document : Document} {faults : List (Option ℕ)}
    {d : Destination}
    (h : extractAndVerifyData K true document (.new faults) = (.success, d)) :
    ∃ signature, K.verify (Base64.encode d.written) signature = some true := by
  unfold extractAndVerifyData at h
  split at h
  · cases h
  · cases h
  · dsimp only at h
    split at h
    · split at h
      · rename_i r hr
        obtain ⟨hsuccess, rfl⟩ := Prod.mk.inj h
        have hok : Reading.Ok r := Reading.Ok.readItems
          ⟨⟨rfl, Or.inl ⟨rfl, Base64.Encoder.took_new⟩⟩, fun h => absurd h Bool.false_ne_true⟩ hr
        obtain ⟨hread, signature, hverify⟩ := of_verifyPackage hsuccess
        have hclosed := hok.closed hread
        -- closing once more writes nothing
        have hsame : r.stream.close.2.out = r.stream.out := by
          have hout : r.stream.out.close = (true, r.stream.out) := if_pos hclosed
          rw [VerifyingOutputStream.close, hout]
        refine ⟨signature, ?_⟩
        rcases hok.fed.2 with ⟨hopen, -⟩ | ⟨-, -, htext⟩
        · rw [hclosed] at hopen
          cases hopen
        · rw [hsame, ← htext]
          exact hverify
      · cases h
      · cases h
    · cases h

end ShiroKhorshid.Upgrade
