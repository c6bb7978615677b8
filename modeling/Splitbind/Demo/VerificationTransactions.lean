import Splitbind.Demo.IssuanceTransactions
import Splitbind.Demo.VerificationEvidence
import Splitbind.Demo.VerificationSource
import Splitbind.Uploads.Promotion

/-!
# Verification transactions — every atomic block the verification worker runs on one job

They follow the issuance worker's: a body raises and the rows stay as they were, or it returns
with the rows it commits.
-/

namespace Splitbind

open Transaction

/-- The rows that belong to one verification job. -/
structure VerificationRows where
  job : Job
  verification : Verification
  upload : UploadRequest
  /-- The organization of `verification.requested_by`. -/
  requesterOrganizationId : UUID
  result : Option DemoVerificationResult
  receipts : List JobResultReceipt
  audit : List AuditEvent
deriving DecidableEq

structure VerificationClaim where
  jobId : UUID
  organizationId : UUID
  verificationId : UUID
  uploadId : UUID
  attempt : Nat
  inputObjectKey : Option ObjectKey
  expectedInputSha256 : Option Sha256
  ownerToken : UUID
deriving DecidableEq, Repr

structure VerificationProcessingResult where
  organizationId : UUID
  jobId : UUID
  verificationId : UUID
  status : Option VerificationStatus
  recoveredIssuanceId : Option UUID
  inputSha256 : Option Sha256
  algorithmLabel : JsonValue
  decodeStatus : JsonValue
  fingerprintConfidence : JsonValue
  validVoteCount : JsonValue
  exactFileHashMatch : JsonValue
  manifestSignatureValid : JsonValue
  pagesAnalyzed : JsonValue
  processingMs : JsonValue
  limitations : List String
  cleanupFailures : JsonValue
deriving DecidableEq

def fingerprintBelowReleaseGate : String := "fingerprint.recall_below_release_gate"

/-- `integrity_mode and not fingerprint_enabled`. -/
def Settings.exactOnly (settings : Settings) : Bool :=
  settings.integrityMode && !settings.fingerprintEnabled

/-- The organization of an issuance, by its id. -/
def SourceDatabase.organizationOf (db : SourceDatabase) (issuanceId : UUID) : Option UUID :=
  (db.issuances.find? (·.id = issuanceId)).map (·.organizationId)

/-! ## 1. Evidence and metrics -/

/-- A flag that may be absent. -/
def optionalFlag : Option Bool → JsonValue
  | none => .null
  | some flag => .bool flag

/-- The limitations of a commit; an exact-only commit keeps the shape the table was created for. -/
def commitLimitations (exactOnly : Bool) (source : SourceResolution) : List String :=
  if exactOnly then demoVerificationLimitations
  else (demoVerificationLimitations ++ source.limitations).eraseDups

def commitEvidence (decode : DecodeSummary) (pagesAnalyzed : Nat) (exactOnly : Bool)
    (source : SourceResolution) : JsonObject :=
  [("algorithm_label", .text demoAlgorithmLabel),
    ("decode_status", .text decode.status.text),
    ("fingerprint_confidence", .float decode.confidence),
    ("valid_vote_count", .int decode.validVotes),
    ("analyzed_page_count", .int pagesAnalyzed),
    ("manifest_signature_valid", optionalFlag source.manifestSignatureValid),
    ("exact_file_hash_match", .bool source.exactFileHashMatch),
    ("limitations", .texts (commitLimitations exactOnly source))]

/-- The metrics of a commit and of a failure. -/
def processingMetrics (processingMs pagesProcessed cleanupFailures : Nat) : JsonObject :=
  [("processing_ms", .int processingMs), ("pages_processed", .int pagesProcessed),
    ("cleanup_failures", .int cleanupFailures)]

def failureEvidence : JsonObject :=
  [("algorithm_label", .text demoAlgorithmLabel), ("decode_status", .text "execution_error"),
    ("fingerprint_confidence", .float 0), ("valid_vote_count", .int 0),
    ("analyzed_page_count", .int 0), ("manifest_signature_valid", .null),
    ("exact_file_hash_match", .null), ("limitations", .texts demoVerificationLimitations)]

def cancellationEvidence : JsonObject :=
  [("algorithm_label", .text demoAlgorithmLabel), ("decode_status", .text "cancelled"),
    ("limitations", .texts demoVerificationLimitations)]

namespace DemoVerificationResult

variable (record : DemoVerificationResult)

/-- The row of a commit, before it is saved. -/
def committedWith (inputSha256 : Sha256) (decode : DecodeSummary) (pagesAnalyzed : Nat)
    (processingMs : Nat) (exactOnly : Bool) (source : SourceResolution) (now : Instant) :
    DemoVerificationResult :=
  { record with
    resultState := .committed
    inputSha256 := some inputSha256
    resultStatus := some source.status
    recoveredIssuanceId := source.recoveredIssuanceId
    evidence := commitEvidence decode pagesAnalyzed exactOnly source
    metrics := processingMetrics processingMs pagesAnalyzed 0
    completedAt := some now }

/-- The row of a failure, before it is saved. -/
def failedWith (code : SafeErrorCode) (cleanupFailures processingMs : Nat) (now : Instant) :
    DemoVerificationResult :=
  { record with
    resultState := .failed
    resultStatus := some .processingFailed
    evidence := failureEvidence
    metrics := processingMetrics processingMs 0 cleanupFailures
    safeErrorCode := some code
    completedAt := some now }

/-- The row of a cancellation, before it is saved. -/
def cancelledAt (now : Instant) : DemoVerificationResult :=
  { record with
    resultState := .cancelled
    evidence := cancellationEvidence
    metrics := [("cleanup_failures", .int 0)]
    safeErrorCode := some .demoJobCancelled
    completedAt := some now }

/-- `evidence[name]`, of the evidence or the metrics. -/
def member (object : JsonObject) (name : String) : Except Raised JsonValue :=
  found (object.get name) .other

/-- The limitations a result is published with. -/
def publishedLimitations (settings : Settings) (limitations exactFileHashMatch : JsonValue) :
    List String :=
  if settings.integrityMode then
    "evidence.not_proof_of_leak_edit_or_distribution" ::
      (if settings.fingerprintEnabled then [fingerprintBelowReleaseGate]
      else if exactFileHashMatch ≠ .bool true then [transformedAttributionUnavailable]
      else [])
  else (textItems limitations).getD []

/-- `_result_from_record`. -/
def toResult (settings : Settings) : Except Raised VerificationProcessingResult := do
  let limitations ← member record.evidence "limitations"
  let exactFileHashMatch ← member record.evidence "exact_file_hash_match"
  let algorithmLabel ← if settings.integrityMode then pure (.text integrityAlgorithmLabel)
    else member record.evidence "algorithm_label"
  return {
    organizationId := record.organizationId
    jobId := record.jobId
    verificationId := record.verificationId
    status := record.resultStatus
    recoveredIssuanceId := record.recoveredIssuanceId
    inputSha256 := record.inputSha256
    algorithmLabel := algorithmLabel
    decodeStatus := ← member record.evidence "decode_status"
    fingerprintConfidence := ← member record.evidence "fingerprint_confidence"
    validVoteCount := ← member record.evidence "valid_vote_count"
    exactFileHashMatch := exactFileHashMatch
    manifestSignatureValid := ← member record.evidence "manifest_signature_valid"
    pagesAnalyzed := ← member record.evidence "analyzed_page_count"
    processingMs := ← member record.metrics "processing_ms"
    limitations := publishedLimitations settings limitations exactFileHashMatch
    cleanupFailures := ← member record.metrics "cleanup_failures" }

end DemoVerificationResult

namespace VerificationRows

variable (rows : VerificationRows)

/-! ## 2. Locking and binding -/

def lockedJob (jobId : UUID) : Except Raised Job := do
  raiseIf (rows.job.id ≠ jobId ∨ rows.job.verificationId = none) (.doesNotExist "Job")
  return rows.job

/-- `_locked_verification_upload` and `_validate_locked_binding`; a target that is missing or of
another shape is refused like one of another upload. -/
def validateLockedBinding : Except Raised Unit := do
  raiseIf (rows.job.verificationId ≠ some rows.verification.id) (.doesNotExist "Verification")
  raiseIf (rows.verification.uploadRequestId ≠ rows.upload.id) (.doesNotExist "UploadRequest")
  raiseIf (rows.job.kind ≠ .verification ∨
      rows.verification.organizationId ≠ rows.job.organizationId ∨
      rows.upload.organizationId ≠ rows.job.organizationId ∨
      rows.upload.purpose ≠ .verification ∨
      rows.upload.promotionStatus ≠ .attached ∨
      rows.upload.promotionTargetKey ≠
        some (.promotedInput .verification rows.job.organizationId rows.upload.id))
    (demoVerificationError .demoVerificationJobInvalid)

def validateClaimBinding (claim : VerificationClaim) : Except Raised Unit := do
  rows.validateLockedBinding
  raiseIf (rows.job.id ≠ claim.jobId ∨
      rows.job.organizationId ≠ claim.organizationId ∨
      rows.verification.id ≠ claim.verificationId ∨
      rows.upload.id ≠ claim.uploadId ∨
      rows.job.attempt ≠ claim.attempt ∨
      rows.upload.promotionTargetKey ≠ claim.inputObjectKey ∨
      rows.upload.expectedSha256 ≠ claim.expectedInputSha256)
    (demoVerificationError .demoVerificationOwnershipInvalid)

def lockedResult (claim : VerificationClaim) : Except Raised DemoVerificationResult := do
  let record ← found rows.result (.doesNotExist "DemoVerificationResult")
  raiseIf (record.organizationId ≠ claim.organizationId ∨
      record.verificationId ≠ claim.verificationId ∨
      record.attempt ≠ claim.attempt ∨
      record.ownerToken ≠ claim.ownerToken)
    (demoVerificationError .demoVerificationOwnershipInvalid)
  return record

/-- The locks and checks every worker transaction after the acquisition opens with. -/
def lockOwned (claim : VerificationClaim) : Except Raised DemoVerificationResult := do
  let _ ← rows.lockedJob claim.jobId
  rows.validateClaimBinding claim
  rows.lockedResult claim

/-- The claim a worker holds on a result row. -/
def claimOf (ownerToken : UUID) : VerificationClaim where
  jobId := rows.job.id
  organizationId := rows.job.organizationId
  verificationId := rows.verification.id
  uploadId := rows.upload.id
  attempt := rows.job.attempt
  inputObjectKey := rows.upload.promotionTargetKey
  expectedInputSha256 := rows.upload.expectedSha256
  ownerToken := ownerToken

/-- `verification.save(update_fields=...)`: its relations stay within the organization. -/
def saveVerification (verification : Verification) (recoveredOrganization : Option UUID) :
    Except Raised Verification := do
  raiseIf (rows.upload.organizationId ≠ verification.organizationId ∨
      rows.requesterOrganizationId ≠ verification.organizationId ∨
      ∃ organization ∈ recoveredOrganization, organization ≠ verification.organizationId)
    (.validation "Related records must belong to the same organization.")
  return verification

/-- `_cancel_locked`. -/
def cancelLocked (record : DemoVerificationResult) (now : Instant) :
    Except Raised VerificationRows := do
  let job ← terminalizeLockedJob rows.job .cancelled none now
  let record ← (record.cancelledAt now).save record job rows.verification none now
  return { rows with job := job, result := some record }

/-! ## 3. Claiming and acquiring -/

/-- The row `claim_next_job` and `_acquire_processing_claim` create. -/
def reservedResult (job : Job) (ownerToken : UUID) (now : Instant) : DemoVerificationResult :=
  .reserve job.organizationId job.id rows.verification.id job.attempt ownerToken now

/-- `claim_next_job` when the job is the one it picks; the token is that of the new result. -/
def claimNextJob (policy : ClaimPolicy) (ownerToken : UUID) (now : Instant) :
    Except Raised (Option UUID × VerificationRows) := do
  let (claimed, job) ← claimJob policy now rows.job
  if claimed then
    let record ← (rows.reservedResult job ownerToken now).create rows.result job
      rows.verification now
    return (some ownerToken, { rows with job := job, result := some record })
  else
    return (none, { rows with job := job })

/-- `_load_replay_result`; in integrity mode the stored row is not validated again. -/
def loadReplayResult (settings : Settings) (db : SourceDatabase) :
    Except Raised VerificationProcessingResult := do
  let record ← found rows.result (.doesNotExist "DemoVerificationResult")
  raiseIf (record.resultState ≠ .committed ∨
      record.organizationId ≠ rows.job.organizationId ∨
      record.verificationId ≠ rows.verification.id ∨
      record.attempt ≠ rows.job.attempt ∨
      rows.verification.status ≠ record.resultStatus ∨
      rows.verification.recoveredIssuanceId ≠ record.recoveredIssuanceId ∨
      rows.verification.evidence ≠ record.evidence ∨
      rows.verification.metrics ≠ record.metrics ∨
      rows.verification.completedAt ≠ record.completedAt ∨
      rows.upload.expectedSha256 ≠ record.inputSha256 ∨
      ¬ receiptExists rows.receipts rows.job.organizationId rows.job)
    (demoVerificationError .demoVerificationResultInvalid)
  if ¬ settings.integrityMode then
    record.fullClean rows.job rows.verification
      (record.recoveredIssuanceId.bind db.organizationOf)
  record.toResult settings

/-- What `_acquire_processing_claim` returns. -/
inductive Acquired
  | replay (result : VerificationProcessingResult)
  | cancelled
  | claimed (claim : VerificationClaim)
deriving DecidableEq

/-- `_acquire_processing_claim`: a cancelled job is noticed here only when the row is new. -/
def acquireProcessingClaim (settings : Settings) (db : SourceDatabase) (ownerToken : UUID)
    (now : Instant) : Except Raised (Acquired × VerificationRows) := do
  rows.validateLockedBinding
  if rows.job.status = .succeeded then
    let result ← rows.loadReplayResult settings db
    return (.replay result, rows)
  else
    raiseIf (rows.job.status ≠ .processing) (demoVerificationError .demoVerificationJobInvalid)
    match rows.result with
    | some existing =>
      raiseIf (existing.ownerToken ≠ ownerToken ∨
          existing.resultState ≠ .reserved ∨
          existing.organizationId ≠ rows.job.organizationId ∨
          existing.verificationId ≠ rows.verification.id ∨
          existing.attempt ≠ rows.job.attempt)
        (demoVerificationError .demoJobResultOwned)
      return (.claimed (rows.claimOf ownerToken), rows)
    | none =>
      let record ← (rows.reservedResult rows.job ownerToken now).create none rows.job
        rows.verification now
      if rows.job.cancelRequestedAt ≠ none then
        let rows ← { rows with result := some record }.cancelLocked record now
        return (.cancelled, rows)
      else
        return (.claimed (rows.claimOf ownerToken), { rows with result := some record })

/-! ## 4. Cancellation, commit and failure -/

/-- `_cancel_before_work`: whether the job was cancelled. -/
def cancelBeforeWork (claim : VerificationClaim) (now : Instant) :
    Except Raised (Bool × VerificationRows) := do
  let record ← rows.lockOwned claim
  raiseIf (rows.job.status ≠ .processing) (demoVerificationError .demoVerificationResultInvalid)
  if rows.job.cancelRequestedAt = none then
    return (false, rows)
  else
    let rows ← rows.cancelLocked record now
    return (true, rows)

/-- The verification of a commit, before it is saved. -/
def commitVerification (record : DemoVerificationResult) : Verification :=
  { rows.verification with
    recoveredIssuanceId := record.recoveredIssuanceId
    status := record.resultStatus
    evidence := record.evidence
    metrics := record.metrics
    completedAt := record.completedAt }

/-- `_commit_verification_result`; `none` tells that the job was cancelled. -/
def commitVerificationResult (settings : Settings) (db : SourceDatabase)
    (library : ManifestLibrary) (claim : VerificationClaim) (inputSha256 : Sha256)
    (decode : DecodeSummary) (pagesAnalyzed processingMs : Nat) (now : Instant) :
    Except Raised (Option VerificationProcessingResult × VerificationRows) := do
  let record ← rows.lockOwned claim
  raiseIf (rows.job.status ≠ .processing) (demoVerificationError .demoVerificationResultInvalid)
  if rows.job.cancelRequestedAt ≠ none then
    let rows ← rows.cancelLocked record now
    return (none, rows)
  else
    let source := db.resolveSourceLocked library now claim.organizationId inputSha256 decode
      settings.exactOnly
    let committed := record.committedWith inputSha256 decode pagesAnalyzed processingMs
      settings.exactOnly source now
    let recoveredOrganization := source.recoveredIssuanceId.bind db.organizationOf
    let verification ← rows.saveVerification (rows.commitVerification committed)
      recoveredOrganization
    let receipts ← createReceipt rows.receipts claim.organizationId rows.job
    let committed ← committed.save record rows.job verification recoveredOrganization now
    let job ← terminalizeLockedJob rows.job .succeeded none now
    let result ← committed.toResult settings
    return (some result,
      { rows with
        job := job, verification := verification, result := some committed, receipts := receipts })

def recordFailedJob (claim : VerificationClaim) (code : SafeErrorCode)
    (cleanupFailures processingMs : Nat) (now : Instant) :
    Except Raised (Unit × VerificationRows) := do
  let record ← rows.lockOwned claim
  if rows.job.status ≠ .processing then
    return ((), rows)
  else
    let failed := record.failedWith code cleanupFailures processingMs now
    let verification ← rows.saveVerification
      { rows.commitVerification failed with recoveredIssuanceId := none } none
    let failed ← failed.save record rows.job verification none now
    let job ← terminalizeLockedJob rows.job .failed (some code) now
    return ((),
      { rows with job := job, verification := verification, result := some failed })

/-! ## 5. Stale recovery -/

/-- `_verification_claim_for_recovery`: `none` when the result cannot be trusted. -/
def verificationClaimForRecovery (db : SourceDatabase) (record : DemoVerificationResult) :
    Option VerificationClaim :=
  if record.organizationId ≠ rows.job.organizationId ∨ record.jobId ≠ rows.job.id ∨
      rows.job.verificationId ≠ some record.verificationId ∨
      record.attempt ≠ rows.job.attempt then
    none
  else
    let claim := rows.claimOf record.ownerToken
    let checks : Except Raised Unit := do
      rows.validateClaimBinding claim
      record.fullClean rows.job rows.verification
        (record.recoveredIssuanceId.bind db.organizationOf)
    match checks with
    | .ok _ => some claim
    | .error _ => none

/-- What `_prepare_stale_recovery` answers for a verification. -/
inductive StaleRecovery
  | skipped
  | finished (safeCode : Option SafeErrorCode)
deriving DecidableEq, Repr

/-- The part of `_prepare_stale_recovery` for a stale job in processing. -/
def recoverStaleProcessing (settings : Settings) (db : SourceDatabase) (processingMs : Nat)
    (now : Instant) (record : DemoVerificationResult) (claim : VerificationClaim) :
    Except Raised (StaleRecovery × VerificationRows) := do
  match record.resultState with
  | .committed =>
    match rows.loadReplayResult settings db with
    | .ok _ =>
      let job ← terminalizeLockedJob rows.job .succeeded none now
      return (.finished none, { rows with job := job })
    | .error error =>
      -- the `KeyError` of a missing member is not caught
      raiseIf (error = .other) error
      let job ← terminalizeLockedJob rows.job .failed (some .demoStaleResultInvalid) now
      return (.finished (some .demoStaleResultInvalid), { rows with job := job })
  | .reserved =>
    let (_, rows) ← rows.recordFailedJob claim .demoStaleJobFailed 0 processingMs now
    return (.finished (some .demoStaleJobFailed), rows)
  | _ => return (.skipped, rows)

def prepareStaleRecovery (settings : Settings) (db : SourceDatabase) (staleBefore : Instant)
    (processingMs : Nat) (now : Instant) : Except Raised (StaleRecovery × VerificationRows) := do
  match rows.result with
  | none => return (.skipped, rows)
  | some record =>
    if rows.job.status ≠ .processing ∨ rows.job.updatedAt ≥ staleBefore then
      return (.skipped, rows)
    else
      match rows.verificationClaimForRecovery db record with
      | none => return (.skipped, rows)
      | some claim =>
        rows.recoverStaleProcessing settings db processingMs now record claim

end VerificationRows

end Splitbind
