import Mathlib.Algebra.Group.Nat.Defs
import Mathlib.Data.Rat.Defs
import Mathlib.Data.List.Nodup

/-!
# Identifiers, instants and stable error codes

The scalar values the database rows are made of.  A UUID and a SHA-256 digest are fixed-width
words, so a row cannot hold a malformed one; `text` is the spelling the code stores and compares.
-/

namespace Splitbind

/-! ## 1. Words and their spelling -/

structure UUID where
  value : BitVec 128
deriving DecidableEq, Repr

structure Sha256 where
  value : BitVec 256
deriving DecidableEq, Repr

/-- Microseconds since the epoch, the resolution of a stored timestamp. -/
abbrev Instant := Int

/-- `timedelta(seconds=...)`. -/
def seconds (n : Int) : Int := n * 1000000

def minutes (n : Int) : Int := seconds (n * 60)

def hours (n : Int) : Int := minutes (n * 60)

def days (n : Int) : Int := hours (n * 24)

def hexDigit (n : Nat) : Char :=
  if n < 10 then Char.ofNat (48 + n) else Char.ofNat (87 + n)

/-- The `width` lower-case hexadecimal digits of `n`, most significant first. -/
def hexDigits (width n : Nat) : List Char :=
  (List.range width).map fun i ↦ hexDigit (n / 16 ^ (width - 1 - i) % 16)

/-- `str(uuid)`: the digits in groups of 8, 4, 4, 4 and 12. -/
def UUID.text (u : UUID) : String :=
  let digits := hexDigits 32 u.value.toNat
  String.ofList (digits.take 8 ++ '-' :: (digits.drop 8).take 4 ++ '-' :: (digits.drop 12).take 4 ++
    '-' :: (digits.drop 16).take 4 ++ '-' :: digits.drop 20)

def Sha256.text (s : Sha256) : String :=
  String.ofList (hexDigits 64 s.value.toNat)

/-! ## 2. JSON values stored in evidence columns -/

/-- A member of a stored evidence object.  A number is an `int` or a `float` as Python read it;
a `float` is taken at its exact rational value. -/
inductive JsonValue
  | null
  | bool (b : Bool)
  | int (i : Int)
  | float (q : ℚ)
  | text (s : String)
  | texts (items : List String)
deriving DecidableEq

/-- A JSON object with its members in insertion order. -/
abbrev JsonObject := List (String × JsonValue)

/-- `value.get(name)`. -/
def JsonObject.get (object : JsonObject) (name : String) : Option JsonValue :=
  (object.find? fun member ↦ member.1 = name).map Prod.snd

def JsonObject.keys (object : JsonObject) : List String := object.map Prod.fst

/-! ## 3. Stable error codes -/

/-- The `safe_error_code` values, and the codes of `DemoIssuanceError` and
`DemoVerificationError`. -/
inductive SafeErrorCode
  | demoModeDisabled
  | demoJobCancelled
  | demoJobCancelledOutputCleanupFailed
  | demoJobResultOwned
  | demoIssuanceJobInvalid
  | demoIssuanceProcessingFailed
  | demoIssuanceResultInvalid
  | demoVerificationJobInvalid
  | demoVerificationProcessingFailed
  | demoVerificationResultInvalid
  | demoVerificationOwnershipInvalid
  | demoOutputOwnershipInvalid
  | demoInputChecksumMismatch
  | demoInputStorageRejected
  | demoInputStorageFailed
  | demoInputFileLimit
  | demoInputFormatInvalid
  | demoInputRasterLimit
  | demoPdfFileLimit
  | demoPdfInvalid
  | demoPdfEncrypted
  | demoPdfPageLimit
  | demoPdfRasterLimit
  | demoPdfRenderFailed
  | demoPdfOutputFailed
  | demoImageInvalid
  | demoImagePixelLimit
  | demoFingerprintKeyInvalid
  | demoFingerprintCandidateInvalid
  | demoFingerprintDecodeFailed
  | manifestSigningKeyUnavailable
  | manifestSigningKeyInvalid
  | manifestSigningKeyUnregistered
  | demoOutputStorageFailed
  | demoOutputStorageCleanupFailed
  | demoWorkspaceCleanupFailed
  | demoWorkspaceAndOutputCleanupFailed
  | demoResultCommitFailed
  | demoResultCommitOutputCleanupFailed
  | demoStaleRecoveryFenced
  | demoStaleJobFailed
  | demoStaleResultInvalid
  | demoStaleOutputCleanupFailed
  | demoJobDeadlineExceeded
  | integrityJobDeadlineExceeded
  | integrityJobTimeoutExceeded
  | integrityJobAttemptsExhausted
  | integrityJobResultAlreadyOwned
deriving DecidableEq, Repr

def SafeErrorCode.text : SafeErrorCode → String
  | .demoModeDisabled => "DEMO_MODE_DISABLED"
  | .demoJobCancelled => "DEMO_JOB_CANCELLED"
  | .demoJobCancelledOutputCleanupFailed => "DEMO_JOB_CANCELLED_OUTPUT_CLEANUP_FAILED"
  | .demoJobResultOwned => "DEMO_JOB_RESULT_OWNED"
  | .demoIssuanceJobInvalid => "DEMO_ISSUANCE_JOB_INVALID"
  | .demoIssuanceProcessingFailed => "DEMO_ISSUANCE_PROCESSING_FAILED"
  | .demoIssuanceResultInvalid => "DEMO_ISSUANCE_RESULT_INVALID"
  | .demoVerificationJobInvalid => "DEMO_VERIFICATION_JOB_INVALID"
  | .demoVerificationProcessingFailed => "DEMO_VERIFICATION_PROCESSING_FAILED"
  | .demoVerificationResultInvalid => "DEMO_VERIFICATION_RESULT_INVALID"
  | .demoVerificationOwnershipInvalid => "DEMO_VERIFICATION_OWNERSHIP_INVALID"
  | .demoOutputOwnershipInvalid => "DEMO_OUTPUT_OWNERSHIP_INVALID"
  | .demoInputChecksumMismatch => "DEMO_INPUT_CHECKSUM_MISMATCH"
  | .demoInputStorageRejected => "DEMO_INPUT_STORAGE_REJECTED"
  | .demoInputStorageFailed => "DEMO_INPUT_STORAGE_FAILED"
  | .demoInputFileLimit => "DEMO_INPUT_FILE_LIMIT"
  | .demoInputFormatInvalid => "DEMO_INPUT_FORMAT_INVALID"
  | .demoInputRasterLimit => "DEMO_INPUT_RASTER_LIMIT"
  | .demoPdfFileLimit => "DEMO_PDF_FILE_LIMIT"
  | .demoPdfInvalid => "DEMO_PDF_INVALID"
  | .demoPdfEncrypted => "DEMO_PDF_ENCRYPTED"
  | .demoPdfPageLimit => "DEMO_PDF_PAGE_LIMIT"
  | .demoPdfRasterLimit => "DEMO_PDF_RASTER_LIMIT"
  | .demoPdfRenderFailed => "DEMO_PDF_RENDER_FAILED"
  | .demoPdfOutputFailed => "DEMO_PDF_OUTPUT_FAILED"
  | .demoImageInvalid => "DEMO_IMAGE_INVALID"
  | .demoImagePixelLimit => "DEMO_IMAGE_PIXEL_LIMIT"
  | .demoFingerprintKeyInvalid => "DEMO_FINGERPRINT_KEY_INVALID"
  | .demoFingerprintCandidateInvalid => "DEMO_FINGERPRINT_CANDIDATE_INVALID"
  | .demoFingerprintDecodeFailed => "DEMO_FINGERPRINT_DECODE_FAILED"
  | .manifestSigningKeyUnavailable => "MANIFEST_SIGNING_KEY_UNAVAILABLE"
  | .manifestSigningKeyInvalid => "MANIFEST_SIGNING_KEY_INVALID"
  | .manifestSigningKeyUnregistered => "MANIFEST_SIGNING_KEY_UNREGISTERED"
  | .demoOutputStorageFailed => "DEMO_OUTPUT_STORAGE_FAILED"
  | .demoOutputStorageCleanupFailed => "DEMO_OUTPUT_STORAGE_CLEANUP_FAILED"
  | .demoWorkspaceCleanupFailed => "DEMO_WORKSPACE_CLEANUP_FAILED"
  | .demoWorkspaceAndOutputCleanupFailed => "DEMO_WORKSPACE_AND_OUTPUT_CLEANUP_FAILED"
  | .demoResultCommitFailed => "DEMO_RESULT_COMMIT_FAILED"
  | .demoResultCommitOutputCleanupFailed => "DEMO_RESULT_COMMIT_OUTPUT_CLEANUP_FAILED"
  | .demoStaleRecoveryFenced => "DEMO_STALE_RECOVERY_FENCED"
  | .demoStaleJobFailed => "DEMO_STALE_JOB_FAILED"
  | .demoStaleResultInvalid => "DEMO_STALE_RESULT_INVALID"
  | .demoStaleOutputCleanupFailed => "DEMO_STALE_OUTPUT_CLEANUP_FAILED"
  | .demoJobDeadlineExceeded => "DEMO_JOB_DEADLINE_EXCEEDED"
  | .integrityJobDeadlineExceeded => "INTEGRITY_JOB_DEADLINE_EXCEEDED"
  | .integrityJobTimeoutExceeded => "INTEGRITY_JOB_TIMEOUT_EXCEEDED"
  | .integrityJobAttemptsExhausted => "INTEGRITY_JOB_ATTEMPTS_EXHAUSTED"
  | .integrityJobResultAlreadyOwned => "INTEGRITY_JOB_RESULT_ALREADY_OWNED"

/-- The exceptions the modelled transactions raise. -/
inductive Raised
  | demoIssuance (code : SafeErrorCode) (cleanupFailures : Nat)
  | demoVerification (code : SafeErrorCode) (cleanupFailures : Nat)
  | invalidJobTransition (code : String)
  | validation (message : String)
  | value (message : String)
  | integrity (constraint : String)
  | doesNotExist (model : String)
  | permissionDenied (code : String)
  | workflowNotFound (code : String)
  | jobConflict (code : String)
  | uploadRejected (code : String)
  | databaseUnavailable
  | other
deriving DecidableEq, Repr

end Splitbind
