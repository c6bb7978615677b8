import Splitbind.Demo.IssuanceEvidence

/-!
# Verification evidence — the `DemoVerificationResult` row and what its writes check

The evidence and the metrics of a verification are JSON objects; `clean` checks their members one
by one, and a row leaves the reserved state exactly once.
-/

namespace Splitbind

open Transaction

/-! ## 1. Rows -/

inductive VerificationStatus
  | verifiedIntact
  | sourceIdentifiedModified
  | partialEvidence
  | noWatermark
  | invalidManifest
  | processingFailed
deriving DecidableEq, Repr

inductive DecodeStatus
  | decoded
  | partialPayloadEvidence
  | payloadNotDetected
  | insufficientSyncEvidence
  | geometryRejected
deriving DecidableEq, Repr

def DecodeStatus.text : DecodeStatus → String
  | .decoded => "decoded"
  | .partialPayloadEvidence => "partial_payload_evidence"
  | .payloadNotDetected => "payload_not_detected"
  | .insufficientSyncEvidence => "insufficient_sync_evidence"
  | .geometryRejected => "geometry_rejected"

structure Verification where
  id : UUID
  organizationId : UUID
  uploadRequestId : UUID
  requestedById : UUID
  recoveredIssuanceId : Option UUID
  status : Option VerificationStatus
  evidence : JsonObject
  metrics : JsonObject
  completedAt : Option Instant
deriving DecidableEq

inductive DemoVerificationState
  | reserved
  | committed
  | failed
  | cancelled
deriving DecidableEq, Repr

structure DemoVerificationResult where
  organizationId : UUID
  jobId : UUID
  verificationId : UUID
  attempt : Nat
  ownerToken : UUID
  resultState : DemoVerificationState
  inputSha256 : Option Sha256
  resultStatus : Option VerificationStatus
  recoveredIssuanceId : Option UUID
  evidence : JsonObject
  metrics : JsonObject
  safeErrorCode : Option SafeErrorCode
  completedAt : Option Instant
  createdAt : Instant
  updatedAt : Instant
deriving DecidableEq

def demoVerificationLimitations : List String := demoLimitations ++ ["integrity.not_evaluated"]

def demoVerificationEvidenceKeys : List String :=
  ["algorithm_label", "decode_status", "fingerprint_confidence", "valid_vote_count",
    "analyzed_page_count", "manifest_signature_valid", "exact_file_hash_match", "limitations"]

def demoVerificationMetricKeys : List String :=
  ["processing_ms", "pages_processed", "cleanup_failures"]

def demoVerificationDecodeStatuses : List String :=
  ["decoded", "partial_payload_evidence", "payload_not_detected", "insufficient_sync_evidence",
    "geometry_rejected"]

def demoVerificationAllowedLimitations : List String :=
  demoVerificationLimitations ++
    ["evidence.exact_hash_ambiguous", "evidence.retained_issuance_invalid",
      "fingerprint.decoded_source_not_available", "fingerprint.no_watermark_not_exclusion",
      "fingerprint.partial_payload_evidence", "manifest.signed_evidence_unavailable"]

namespace DemoVerificationResult

/-- The row `DemoVerificationResult(...)` builds: reserved, every other column at its default. -/
def reserve (organizationId jobId verificationId : UUID) (attempt : Nat) (ownerToken : UUID)
    (now : Instant) : DemoVerificationResult where
  organizationId := organizationId
  jobId := jobId
  verificationId := verificationId
  attempt := attempt
  ownerToken := ownerToken
  resultState := .reserved
  inputSha256 := none
  resultStatus := none
  recoveredIssuanceId := none
  evidence := []
  metrics := []
  safeErrorCode := none
  completedAt := none
  createdAt := now
  updatedAt := now

/-! ## 2. The shape of committed evidence -/

/-- `isinstance(value, (int, float))` and not `bool`. -/
def numeric : JsonValue → Option ℚ
  | .int n => some n
  | .float x => some x
  | _ => none

/-- `value in (True, False, None)`: the two numbers equal to a boolean count as well. -/
def triState : JsonValue → Bool
  | .null => true
  | .bool _ => true
  | .int n => n = 0 ∨ n = 1
  | .float x => x = 0 ∨ x = 1
  | _ => false

/-- A whole number that is no `bool` and not negative. -/
def countValue : JsonValue → Option Nat
  | .int n => if 0 ≤ n then some n.toNat else none
  | _ => none

/-- The list of a `limitations` member. -/
def textItems : JsonValue → Option (List String)
  | .texts items => some items
  | _ => none

/-- Two objects with the same set of member names. -/
def sameKeys (object : JsonObject) (keys : List String) : Bool :=
  object.keys.all (keys.contains ·) && keys.all (object.keys.contains ·)

def evidenceShapeAccepted (evidence metrics : JsonObject) : Prop :=
  (∃ decodeStatus ∈ evidence.get "decode_status",
    ∃ text ∈ demoVerificationDecodeStatuses, decodeStatus = .text text) ∧
  (∃ confidence ∈ evidence.get "fingerprint_confidence",
    ∃ x ∈ numeric confidence, 0 ≤ x ∧ x ≤ 1) ∧
  (∃ votes ∈ evidence.get "valid_vote_count", (countValue votes).isSome) ∧
  (∃ pages ∈ evidence.get "analyzed_page_count",
    ∃ n ∈ countValue pages, 1 ≤ n ∧ n ≤ 5) ∧
  (∃ exact ∈ evidence.get "exact_file_hash_match", exact = .bool true ∨ exact = .bool false) ∧
  (∃ signature ∈ evidence.get "manifest_signature_valid", triState signature) ∧
  (∃ limitations ∈ evidence.get "limitations", ∃ items ∈ textItems limitations,
    items.take demoVerificationLimitations.length = demoVerificationLimitations ∧ items.Nodup ∧
    ∀ item ∈ items, item ∈ demoVerificationAllowedLimitations) ∧
  (∀ member ∈ metrics, (countValue member.2).isSome) ∧
  metrics.get "pages_processed" = evidence.get "analyzed_page_count" ∧
  metrics.get "cleanup_failures" = some (.int 0)

instance (evidence metrics : JsonObject) : Decidable (evidenceShapeAccepted evidence metrics) := by
  unfold evidenceShapeAccepted
  infer_instance

/-! ## 3. `clean` -/

/-- `clean`; `recoveredOrganization` is the organization of the recovered issuance, if any. -/
def clean (row : DemoVerificationResult) (job : Job) (verification : Verification)
    (recoveredOrganization : Option UUID) : Except Raised Unit := do
  raiseIf (job.organizationId ≠ row.organizationId ∨
      verification.organizationId ≠ row.organizationId ∨
      ∃ organization ∈ recoveredOrganization, organization ≠ row.organizationId)
    (.validation "Related records must belong to the same organization.")
  raiseIf (job.kind ≠ .verification ∨ job.verificationId ≠ some row.verificationId ∨
      job.attempt ≠ row.attempt)
    (.validation "demo result must bind its verification job")
  match row.resultState with
  | .reserved =>
    raiseIf (row.inputSha256 ≠ none ∨ row.resultStatus ≠ none ∨ row.recoveredIssuanceId ≠ none ∨
        row.completedAt ≠ none ∨ row.evidence ≠ [] ∨ row.metrics ≠ [] ∨ row.safeErrorCode ≠ none)
      (.validation "reserved demo verification cannot claim result evidence")
  | .committed =>
    raiseIf (row.inputSha256 = none ∨ row.resultStatus = none ∨
        row.resultStatus = some .processingFailed ∨ row.completedAt = none ∨
        row.safeErrorCode ≠ none ∨
        row.evidence.get "algorithm_label" ≠ some (.text demoAlgorithmLabel))
      (.validation "committed demo verification evidence is incomplete")
    raiseIf (¬ sameKeys row.evidence demoVerificationEvidenceKeys ∨
        ¬ sameKeys row.metrics demoVerificationMetricKeys)
      (.validation "committed demo verification evidence shape is invalid")
    raiseIf (¬ evidenceShapeAccepted row.evidence row.metrics)
      (.validation "committed demo verification evidence shape is invalid")
  | .failed =>
    raiseIf (row.resultStatus ≠ some .processingFailed ∨ row.recoveredIssuanceId ≠ none ∨
        row.completedAt = none ∨ row.safeErrorCode = none)
      (.validation "failed demo verification evidence is incomplete")
  | .cancelled =>
    raiseIf (row.resultStatus ≠ none ∨ row.recoveredIssuanceId ≠ none ∨ row.completedAt = none ∨
        row.safeErrorCode ≠ some .demoJobCancelled)
      (.validation "cancelled demo verification evidence is incomplete")

/-! ## 4. Row constraints and `full_clean` -/

/-- The check constraint the types do not already give. -/
def rowConstraints (row : DemoVerificationResult) : Except Raised Unit :=
  raiseIf (¬ row.attempt ≤ 2) (.integrity "demo_verify_attempt_0_2")

/-- `full_clean`: field validators, `clean` and the constraints of the table. -/
def fullClean (row : DemoVerificationResult) (job : Job) (verification : Verification)
    (recoveredOrganization : Option UUID) : Except Raised Unit := do
  raiseIf (¬ row.attempt ≤ 2) (.validation "attempt")
  raiseIf (∃ code ∈ row.safeErrorCode, code.text.length > 80) (.validation "safe_error_code")
  row.clean job verification recoveredOrganization
  row.rowConstraints

/-! ## 5. `save` -/

/-- The identity columns that differ from the stored row. -/
def identityChanged (row persisted : DemoVerificationResult) : Prop :=
  row.organizationId ≠ persisted.organizationId ∨ row.jobId ≠ persisted.jobId ∨
    row.verificationId ≠ persisted.verificationId ∨ row.attempt ≠ persisted.attempt ∨
    row.ownerToken ≠ persisted.ownerToken ∨ row.createdAt ≠ persisted.createdAt

instance (row persisted : DemoVerificationResult) : Decidable (identityChanged row persisted) :=
  inferInstanceAs (Decidable (_ ∨ _))

/-- `save` of a loaded row under `_allow_demo_result_write`. -/
def save (row persisted : DemoVerificationResult) (job : Job) (verification : Verification)
    (recoveredOrganization : Option UUID) (now : Instant) :
    Except Raised DemoVerificationResult := do
  raiseIf (identityChanged row persisted)
    (.validation "demo verification result ownership is immutable")
  raiseIf (persisted.resultState ≠ .reserved)
    (.validation "terminal demo verification result evidence is immutable")
  raiseIf (row.resultState = .reserved)
    (.validation "demo verification result must make terminal progress")
  row.clean job verification recoveredOrganization
  row.rowConstraints
  return { row with updatedAt := now }

/-- `save` of a new row under `_allow_demo_result_write`. -/
def create (row : DemoVerificationResult) (existing : Option DemoVerificationResult) (job : Job)
    (verification : Verification) (now : Instant) : Except Raised DemoVerificationResult := do
  row.clean job verification none
  row.rowConstraints
  raiseIf existing.isSome (.integrity "demo_demoverificationresult_pkey")
  return { row with createdAt := now, updatedAt := now }

/-- What a row's identity says about its job. -/
structure Binds (row : DemoVerificationResult) (job : Job) (verification : Verification) :
    Prop where
  jobOrganization : job.organizationId = row.organizationId
  verificationOrganization : verification.organizationId = row.organizationId
  kind : job.kind = .verification
  verificationId : job.verificationId = some row.verificationId
  attempt : job.attempt = row.attempt

theorem Binds.of_clean {row : DemoVerificationResult} {job : Job} {verification : Verification}
    {recoveredOrganization : Option UUID}
    (h : row.clean job verification recoveredOrganization = .ok ()) :
    row.Binds job verification := by
  simp only [clean, bind_eq_ok, exists_unit, raiseIf_eq_ok, not_or, not_not, ne_eq] at h
  obtain ⟨⟨hjob, hverification, -⟩, ⟨hkind, hid, hattempt⟩, -⟩ := h
  exact ⟨hjob, hverification, hkind, hid, hattempt⟩

/-- Everything `save` checks, and the row it stores. -/
theorem save_eq_ok {row persisted row' : DemoVerificationResult} {job : Job}
    {verification : Verification} {recoveredOrganization : Option UUID} {now : Instant} :
    row.save persisted job verification recoveredOrganization now = .ok row' ↔
      ¬ identityChanged row persisted ∧ persisted.resultState = .reserved ∧
      row.resultState ≠ .reserved ∧ row.clean job verification recoveredOrganization = .ok () ∧
      row.rowConstraints = .ok () ∧ { row with updatedAt := now } = row' := by
  simp only [save, bind_eq_ok, exists_unit, raiseIf_eq_ok, pure_eq_ok, not_not, ne_eq]

theorem create_eq_ok {row row' : DemoVerificationResult}
    {existing : Option DemoVerificationResult} {job : Job} {verification : Verification}
    {now : Instant} :
    row.create existing job verification now = .ok row' ↔
      row.clean job verification none = .ok () ∧ row.rowConstraints = .ok () ∧
      existing = none ∧ { row with createdAt := now, updatedAt := now } = row' := by
  simp only [create, bind_eq_ok, exists_unit, raiseIf_eq_ok, pure_eq_ok,
    Option.not_isSome_iff_eq_none]

end DemoVerificationResult

end Splitbind
