/-
# The upgrade file (`UpgradeManager`)

A downloaded upgrade is unpacked into the unverified file and only renamed to the verified one
after `extractAndVerifyData` has returned.  `getAvailableCompleteUpgradeFile` is called again and
again, over whatever has been downloaded meanwhile; any operation can fail and the process can die
at any point.

`only_signed_upgrades`: the verified file holds nothing but the bytes of a package whose
verification succeeded, and those are the bytes the signature was made over.

* Every operation on the files changes the verified one in one of three ways (`Changed`): not at
  all, by deleting it, or by renaming the unverified one to it after a verification.  A call is a
  row of such changes, cut off at any point (`changed_call`).
* The unverified file is truncated before anything is written to it, so that what is renamed is what
  has just been verified, whatever an earlier call has left there.
* What a verification says is in `Package`: its success means that the digest of the bytes written
  is the one that was signed.

A run is a sequence of calls and of deaths of the process in the middle of one; calls that overlap
are not modelled, since the source relies on the caller for that.  Whether a package that does not
verify is deleted is the subject of `Containment`.
-/
import Mathlib.Data.Int.Notation
import ShiroKhorshid.Lib.Transition
import ShiroKhorshid.Upgrade.Package

namespace ShiroKhorshid.Upgrade

open Transition

/-! ## 1. The calls -/

/-- `PsiphonAndroid.apk` and `PsiphonAndroid.apk.unverified`, with `none` for no file. -/
structure UpgradeFiles where
  verified : Option (List UInt8)
  unverified : Option (List UInt8)
deriving DecidableEq

/-- What one call finds: `none` and `false` are failures. -/
structure Call where
  /-- `downloadedFile.exists()` -/
  downloaded : Bool
  /-- what the parser reads from `openUnzipStream()` -/
  unzipStream : Option Document
  /-- the destination of `createForWriting()` -/
  destination : Option (List (Option ℕ))
  renames : Bool
  opens : Bool
  deletes : Bool
  /-- `versionCode` of `getPackageArchiveInfo` -/
  upgradePackageInfo : Option ℤ
  /-- `versionCode` of `getPackageInfo` -/
  currentPackageInfo : Option ℤ
deriving DecidableEq

/-- `File.renameTo`, from the unverified file to the verified one. -/
def UpgradeFiles.rename (files : UpgradeFiles) (renames : Bool) : Bool × UpgradeFiles :=
  match files.unverified with
  | some bytes => if renames then (true, ⟨some bytes, none⟩) else (false, files)
  | none => (false, files)

/-- `VerifiedUpgradeFile.delete` -/
def UpgradeFiles.delete (files : UpgradeFiles) (deletes : Bool) : UpgradeFiles :=
  if deletes then { files with verified := none } else files

/-- `DownloadedUpgradeFile.extractAndVerify`, with `none` for an exception that is not caught. -/
def extractAndVerify (K : PublicKey) (c : Call) (files : UpgradeFiles) :
    Option Bool × UpgradeFiles :=
  match c.unzipStream, c.destination with
  | some document, some faults =>
    match extractAndVerifyData K true document (.new faults) with
    | (.success, d) =>
      let (renamed, files) := { files with unverified := some d.written }.rename c.renames
      (some renamed, files)
    | (.authenticatedDataPackageException, d) =>
      (some false, { files with unverified := some d.written })
    | (.uncaught, d) => (none, { files with unverified := some d.written })
  | _, _ => (some false, files)

inductive Available
  | file
  | null
  | uncaught
deriving DecidableEq

/-- The second half of the call: whether there is a verified file and it is a newer version. -/
def newerVersion (c : Call) (files : UpgradeFiles) : Available × UpgradeFiles :=
  if files.verified.isSome ∧ c.opens then
    match c.upgradePackageInfo with
    | none => (.null, files.delete c.deletes)
    | some upgrade =>
      match c.currentPackageInfo with
      | none => (.null, files)
      | some current =>
        if upgrade ≤ current then (.null, files.delete c.deletes) else (.file, files)
  else (.null, files)

def getAvailableCompleteUpgradeFile (K : PublicKey) (c : Call) (files : UpgradeFiles) :
    Available × UpgradeFiles :=
  if c.downloaded then
    match extractAndVerify K c files with
    | (none, files) => (.uncaught, files)
    | (some false, files) => (.null, files)
    | (some true, files) => newerVersion c files
  else newerVersion c files

inductive Event
  | call (c : Call)
  /-- The process dies while the unverified file is written.  Dying later is a call that ends
  early: with `renames` false, or with no `currentPackageInfo`. -/
  | death (unverified : Option (List UInt8))
deriving DecidableEq

def step (K : PublicKey) (files : UpgradeFiles) : Event → UpgradeFiles
  | .call c => (getAvailableCompleteUpgradeFile K c files).2
  | .death unverified => { files with unverified := unverified }

/-! ## 2. The verified file -/

/-- The bytes are what a package wrote whose verification succeeded. -/
def Signed (K : PublicKey) (bytes : List UInt8) : Prop :=
  ∃ document faults d,
    extractAndVerifyData K true document (.new faults) = (.success, d) ∧ d.written = bytes

/-- What a call can do to the verified file: nothing, delete it or replace it by the bytes of a
verified package. -/
inductive Changed (K : PublicKey) (files : UpgradeFiles) : UpgradeFiles → Prop
  | same {files'} : files'.verified = files.verified → Changed K files files'
  | deleted {files'} : files'.verified = none → Changed K files files'
  | replaced {files'} {bytes : List UInt8} : Signed K bytes → files'.verified = some bytes →
      Changed K files files'

theorem Changed.delete (K : PublicKey) (files : UpgradeFiles) (deletes : Bool) :
    Changed K files (files.delete deletes) := by
  unfold UpgradeFiles.delete
  split
  · exact .deleted rfl
  · exact .same rfl

theorem changed_extractAndVerify (K : PublicKey) (c : Call) (files : UpgradeFiles) :
    Changed K files (extractAndVerify K c files).2 := by
  unfold extractAndVerify
  split
  · rename_i document faults _ _
    split
    · rename_i d hsuccess
      cases c.renames with
      | false => exact .same rfl
      | true => exact .replaced ⟨document, faults, d, hsuccess, rfl⟩ rfl
    · exact .same rfl
    · exact .same rfl
  · exact .same rfl

theorem changed_newerVersion (K : PublicKey) (c : Call) (files : UpgradeFiles) :
    Changed K files (newerVersion c files).2 := by
  unfold newerVersion
  split
  · split
    · exact .delete K files _
    · split
      · exact .same rfl
      · split
        · exact .delete K files _
        · exact .same rfl
  · exact .same rfl

theorem Changed.trans {K : PublicKey} {files files' files'' : UpgradeFiles}
    (h : Changed K files files') (h' : Changed K files' files'') : Changed K files files'' := by
  cases h' with
  | deleted hnone => exact .deleted hnone
  | replaced hsigned hsome => exact .replaced hsigned hsome
  | same hsame =>
    cases h with
    | same hbefore => exact .same (hsame.trans hbefore)
    | deleted hnone => exact .deleted (hsame.trans hnone)
    | replaced hsigned hsome => exact .replaced hsigned (hsame.trans hsome)

theorem changed_call (K : PublicKey) (c : Call) (files : UpgradeFiles) :
    Changed K files (getAvailableCompleteUpgradeFile K c files).2 := by
  have hextract := changed_extractAndVerify K c files
  unfold getAvailableCompleteUpgradeFile
  split
  · split
    · rename_i after h
      rwa [h] at hextract
    · rename_i after h
      rwa [h] at hextract
    · rename_i after h
      rw [h] at hextract
      exact hextract.trans (changed_newerVersion K c after)
  · exact changed_newerVersion K c files

/-- The invariant of the file. -/
def OnlySigned (K : PublicKey) (files : UpgradeFiles) : Prop :=
  ∀ bytes, files.verified = some bytes → Signed K bytes

theorem OnlySigned.step {K : PublicKey} {files : UpgradeFiles} (h : OnlySigned K files)
    (e : Event) : OnlySigned K (step K files e) := by
  cases e with
  | death unverified => exact h
  | call c =>
    intro bytes hbytes
    have hchanged := changed_call K c files
    cases hchanged with
    | same hsame => exact h bytes (hsame.symm.trans hbytes)
    | deleted hnone => cases hnone.symm.trans hbytes
    | replaced hsigned hsome =>
      cases hsome.symm.trans hbytes
      exact hsigned

/-- **Only signed bytes reach the verified file.**  Whatever a package looks like, its verification
succeeds only if the bytes written are THE bytes whose base64 text has been signed; and after any
calls and deaths of the process, starting without a verified file, the verified file holds the
bytes of such a package. -/
theorem only_signed_upgrades (K : PublicKey) :
    (∀ document faults d,
      extractAndVerifyData K true document (.new faults) = (.success, d) →
        ∃ text signature, K.verify text signature = some true ∧ K.signed text ∧
          ∀ data, Base64.encode data = text ↔ data = d.written) ∧
    ∀ unverified (es : List Event),
      OnlySigned K (es.foldl (step K) ⟨none, unverified⟩) := by
  constructor
  · intro document faults d hsuccess
    obtain ⟨signature, hverify⟩ := verified_of_success hsuccess
    refine ⟨Base64.encode d.written, signature, hverify, K.signed_of_verify _ _ hverify, ?_⟩
    intro data
    exact ⟨fun h => Base64.encode_injective h, fun h => congrArg Base64.encode h⟩
  · intro unverified es
    refine foldl_invariant (step K) ?_ (fun _ e h => h.step e) es
    intro bytes hbytes
    cases hbytes

/-- A key that signs the base64 text of 1, 2, 3 and nothing else. -/
def PublicKey.ofSample : PublicKey where
  text := .usable
  digest := "digest"
  decode := fun signature => if signature = "signature" then some [7] else none
  verify := fun text signature => some (text == Base64.encode [1, 2, 3] && signature == [7])
  signed := fun text => text = Base64.encode [1, 2, 3]
  signed_of_verify := by
    intro text signature h
    simp only [Option.some.injEq, Bool.and_eq_true, beq_iff_eq] at h
    exact h.1

/-- The signature comes before the data, which come in two pieces. -/
def samplePackage : Document where
  startObject := true
  items := [
    .field "signature" (.string (some "signature") ⟨[], false⟩),
    .field "comment" (.other .returned),
    .field "signingPublicKeyDigest" (.string (some "digest") ⟨[], false⟩),
    .field "data" (.string none ⟨[[1, 2], [3]], true⟩),
    .endObject]

theorem only_signed_upgrades_sample :
    (∃ text signature, PublicKey.ofSample.verify text signature = some true ∧
      PublicKey.ofSample.signed text ∧ ∀ data, Base64.encode data = text ↔ data = [1, 2, 3]) ∧
    Signed .ofSample [1, 2, 3] := by
  have hsuccess : extractAndVerifyData .ofSample true samplePackage (.new []) =
      (.success, ⟨[1, 2, 3], true, []⟩) := by decide +kernel
  refine ⟨(only_signed_upgrades .ofSample).1 _ _ _ hsuccess, ?_⟩
  refine (only_signed_upgrades .ofSample).2 none
    [.call ⟨true, some samplePackage, some [], true, true, true, some 2, some 1⟩] _ ?_
  decide +kernel

end ShiroKhorshid.Upgrade
