import Splitbind.Jobs.State

/-!
# Object keys — where the store keeps uploads, promoted inputs and issued outputs

The code writes keys of three shapes only, and its key validators accept exactly those; a key is
the data its text spells.
-/

namespace Splitbind

inductive OutputExtension
  | pdf
  | png
deriving DecidableEq, Repr

def OutputExtension.text : OutputExtension → String
  | .pdf => "pdf"
  | .png => "png"

/-- `issuance_output_extension`: images are issued as PNG, anything else as PDF. -/
def issuanceOutputExtension (sourceContentType : String) : OutputExtension :=
  if sourceContentType = "application/pdf" then .pdf
  else if sourceContentType = "image/png" then .png
  else if sourceContentType = "image/jpeg" then .png
  else .pdf

inductive UploadPurpose
  | issuance
  | verification
deriving DecidableEq, Repr

/-- The first part of an upload's orphan key. -/
def UploadPurpose.orphanText : UploadPurpose → String
  | .issuance => "issuance_input"
  | .verification => "verification_input"

inductive ObjectKey
  | orphan (purpose : UploadPurpose) (organization object : UUID)
  | promotedInput (kind : JobKind) (organization upload : UUID)
  | issuanceOutput (organization issuance : UUID) (extension : OutputExtension)
deriving DecidableEq, Repr

/-- `uuid.hex`, the digits without the dashes. -/
def UUID.hex (u : UUID) : String := String.ofList (hexDigits 32 u.value.toNat)

def ObjectKey.text : ObjectKey → String
  | .orphan purpose organization object =>
      "uploads/orphan/" ++ purpose.orphanText ++ "/" ++ organization.text ++ "/" ++ object.hex ++ ".bin"
  | .promotedInput kind organization upload =>
      "inputs/" ++ kind.text ++ "/" ++ organization.text ++ "/" ++ upload.text ++ ".bin"
  | .issuanceOutput organization issuance extension =>
      "outputs/issuance/" ++ organization.text ++ "/" ++ issuance.text ++ "." ++ extension.text

/-- What the object store holds under each key: the digest of the stored bytes. -/
abbrev ObjectStore := ObjectKey → Option Sha256

namespace ObjectStore

def put (store : ObjectStore) (key : ObjectKey) (sha256 : Sha256) : ObjectStore :=
  Function.update store key (some sha256)

/-- `storage.delete`: exactly that key, whether or not it is present. -/
def delete (store : ObjectStore) (key : ObjectKey) : ObjectStore :=
  Function.update store key none

@[simp] theorem put_same (store : ObjectStore) (key : ObjectKey) (sha256 : Sha256) :
    store.put key sha256 key = some sha256 := by
  simp [put]

theorem put_of_ne (store : ObjectStore) {key key' : ObjectKey} (sha256 : Sha256)
    (h : key' ≠ key) : store.put key sha256 key' = store key' := by
  simp [put, h]

@[simp] theorem delete_same (store : ObjectStore) (key : ObjectKey) :
    store.delete key key = none := by
  simp [delete]

theorem delete_of_ne (store : ObjectStore) {key key' : ObjectKey} (h : key' ≠ key) :
    store.delete key key' = store key' := by
  simp [delete, h]

/-- A delete never makes an object appear. -/
theorem delete_eq_some {store : ObjectStore} {key key' : ObjectKey} {sha256 : Sha256}
    (h : store.delete key key' = some sha256) : store key' = some sha256 := by
  by_cases hkey : key' = key
  · subst hkey
    simp at h
  · rwa [delete_of_ne store hkey] at h

end ObjectStore

/-- What `storage.delete` does to the store, and whether it returns. -/
inductive DeleteOutcome
  | deleted
  | deletedThenFailed
  | failed
deriving DecidableEq, Repr

def DeleteOutcome.apply (outcome : DeleteOutcome) (objects : ObjectStore) (key : ObjectKey) :
    ObjectStore :=
  match outcome with
  | .failed => objects
  | _ => objects.delete key

end Splitbind
