import Splitbind.Documents.Manifests
import Splitbind.Jobs.Lifecycle

/-!
# Issuance transactions — every atomic block the issuance worker runs on one job

Each transaction is a function of the job's rows: it raises, and the rows stay as they were, or
it returns with the rows it commits.
-/

namespace Splitbind

open Transaction

/-- The deployment settings the workers read. -/
structure Settings where
  demoMode : Bool
  integrityMode : Bool
  fingerprintEnabled : Bool
  maxPdfPages : Nat
  jobTimeoutSeconds : Int
deriving DecidableEq, Repr

/-- The rows that belong to one issuance job. -/
structure IssuanceRows where
  job : Job
  issuance : Issuance
  document : Document
  /-- `document.upload_request.source_content_type`. -/
  sourceContentType : String
  evidence : Option DemoIssuanceResult
  receipts : List JobResultReceipt
  manifests : List Manifest
  audit : List AuditEvent
deriving DecidableEq

structure ProcessingClaim where
  jobId : UUID
  organizationId : UUID
  issuanceId : UUID
  documentId : UUID
  attempt : Nat
  sourceObjectKey : ObjectKey
  expectedSourceSha256 : Sha256
  outputObjectKey : ObjectKey
  ownerToken : UUID
deriving DecidableEq, Repr

structure IssuanceProcessingResult where
  organizationId : UUID
  jobId : UUID
  issuanceId : UUID
  inputSha256 : Option Sha256
  outputSha256 : Option Sha256
  outputObjectKey : ObjectKey
  algorithmLabel : Option String
  candidateIdentifier : Option String
  canonicalCanvas : Option Nat × Option Nat
  pagesProcessed : Option Nat
  processingMs : Option Nat
  limitations : List String
  cleanupFailures : Nat
deriving DecidableEq, Repr

def integrityAlgorithmLabel : String := "integrity_release_v1"

def integrityRetentionPolicyId : String := "retention-v1"

/-- `DemoIssuanceError(code)`. -/
def demoIssuanceError (code : SafeErrorCode) : Raised := .demoIssuance code 0

namespace IssuanceRows

variable (rows : IssuanceRows)

/-! ## 1. Locking and binding -/

def lockedJob (jobId : UUID) : Except Raised Job := do
  raiseIf (rows.job.id ≠ jobId ∨ rows.job.issuanceId = none) (.doesNotExist "Job")
  return rows.job

/-- `_locked_issuance_document` and `_validate_locked_binding`. -/
def validateLockedBinding : Except Raised Unit := do
  raiseIf (rows.job.issuanceId ≠ some rows.issuance.id) (.doesNotExist "Issuance")
  raiseIf (rows.issuance.documentId ≠ rows.document.id) (.doesNotExist "Document")
  raiseIf (rows.job.kind ≠ .issuance ∨
      rows.job.issuanceId ≠ some rows.issuance.id ∨
      rows.issuance.organizationId ≠ rows.job.organizationId ∨
      rows.document.id ≠ rows.issuance.documentId ∨
      rows.document.organizationId ≠ rows.job.organizationId)
    (demoIssuanceError .demoIssuanceJobInvalid)

def validateClaimBinding (claim : ProcessingClaim) : Except Raised Unit := do
  rows.validateLockedBinding
  raiseIf (rows.job.id ≠ claim.jobId ∨
      rows.job.organizationId ≠ claim.organizationId ∨
      rows.issuance.id ≠ claim.issuanceId ∨
      rows.document.id ≠ claim.documentId ∨
      rows.job.attempt ≠ claim.attempt)
    (demoIssuanceError .demoOutputOwnershipInvalid)

def lockedEvidence (claim : ProcessingClaim) : Except Raised DemoIssuanceResult := do
  let evidence ← found rows.evidence (.doesNotExist "DemoIssuanceResult")
  raiseIf (evidence.organizationId ≠ claim.organizationId ∨
      evidence.issuanceId ≠ claim.issuanceId ∨
      evidence.attempt ≠ claim.attempt ∨
      evidence.ownerToken ≠ claim.ownerToken ∨
      evidence.outputObjectKey ≠ claim.outputObjectKey)
    (demoIssuanceError .demoOutputOwnershipInvalid)
  return evidence

/-- The locks and checks nearly every worker transaction opens with: the job, its issuance and
document, the binding of the claim and the evidence row it owns. -/
def lockOwned (claim : ProcessingClaim) : Except Raised DemoIssuanceResult := do
  let _ ← rows.lockedJob claim.jobId
  rows.validateClaimBinding claim
  rows.lockedEvidence claim

/-- `evidence.save(...)` under `_allow_demo_result_write`. -/
def saveEvidence (evidence persisted : DemoIssuanceResult) (now : Instant) :
    Except Raised DemoIssuanceResult :=
  evidence.save .allowWrite persisted rows.job rows.issuance now

/-- The output key of the job: its issuance's id with the extension of the source's type. -/
def outputKey : ObjectKey :=
  .issuanceOutput rows.job.organizationId rows.issuance.id
    (issuanceOutputExtension rows.sourceContentType)

/-- The claim a worker holds on an evidence row. -/
def claimOf (evidence : DemoIssuanceResult) (ownerToken : UUID) : ProcessingClaim where
  jobId := rows.job.id
  organizationId := rows.job.organizationId
  issuanceId := rows.issuance.id
  documentId := rows.document.id
  attempt := rows.job.attempt
  sourceObjectKey := rows.document.sourceObjectKey
  expectedSourceSha256 := rows.document.expectedSourceSha256
  outputObjectKey := evidence.outputObjectKey
  ownerToken := ownerToken

/-! ## 2. Claiming and acquiring -/

/-- `claim_next_job` when the job is the one it picks; the token is that of the new evidence. -/
def claimNextJob (policy : ClaimPolicy) (ownerToken : UUID) (now : Instant) :
    Except Raised (Option UUID × IssuanceRows) := do
  let (claimed, job) ← claimJob policy now rows.job
  if claimed then
    let evidence ← (DemoIssuanceResult.reserve job.organizationId job.id rows.issuance.id
      job.attempt ownerToken rows.outputKey now).create .allowWrite rows.evidence job
      rows.issuance now
    return (some ownerToken, { rows with job := job, evidence := some evidence })
  else
    return (none, { rows with job := job })

def resultFromEvidence (settings : Settings) (evidence : DemoIssuanceResult) :
    IssuanceProcessingResult where
  organizationId := evidence.organizationId
  jobId := evidence.jobId
  issuanceId := evidence.issuanceId
  inputSha256 := evidence.inputSha256
  outputSha256 := evidence.outputSha256
  outputObjectKey := evidence.outputObjectKey
  algorithmLabel :=
    if settings.integrityMode then some integrityAlgorithmLabel else evidence.algorithmLabel
  candidateIdentifier := evidence.candidateIdentifier
  canonicalCanvas := (evidence.canvasHeight, evidence.canvasWidth)
  pagesProcessed := evidence.pageCount
  processingMs := evidence.processingMs
  limitations := evidence.limitations
  cleanupFailures := evidence.cleanupFailures

def loadReplayResult (settings : Settings) : Except Raised IssuanceProcessingResult := do
  let evidence ← found rows.evidence (.doesNotExist "DemoIssuanceResult")
  raiseIf (evidence.outputState ≠ .committed ∨
      evidence.organizationId ≠ rows.job.organizationId ∨
      evidence.issuanceId ≠ rows.issuance.id ∨
      evidence.attempt ≠ rows.job.attempt ∨
      rows.issuance.outputObjectKey ≠ some evidence.outputObjectKey ∨
      rows.issuance.outputSha256 ≠ evidence.outputSha256 ∨
      evidence.inputSha256 ≠ some rows.document.expectedSourceSha256 ∨
      rows.document.pageCount ≠ evidence.pageCount ∨
      ¬ receiptExists rows.receipts rows.job.organizationId rows.job)
    (demoIssuanceError .demoIssuanceResultInvalid)
  evidence.fullClean rows.job rows.issuance
  return resultFromEvidence settings evidence

/-- What `_acquire_processing_claim` returns. -/
inductive Acquired
  | replay (result : IssuanceProcessingResult)
  | cancelled
  | claimed (claim : ProcessingClaim)
deriving DecidableEq, Repr

def acquireProcessingClaim (settings : Settings) (ownerToken : UUID) (now : Instant) :
    Except Raised (Acquired × IssuanceRows) := do
  rows.validateLockedBinding
  if rows.job.status = .succeeded then
    let result ← rows.loadReplayResult settings
    return (.replay result, rows)
  else
    raiseIf (rows.job.status ≠ .processing) (demoIssuanceError .demoIssuanceJobInvalid)
    if rows.job.cancelRequestedAt ≠ none then
      let job ← saveTransition rows.job .cancelled now
      return (.cancelled, { rows with job := job })
    else
      match rows.evidence with
      | some existing =>
        raiseIf (existing.ownerToken ≠ ownerToken ∨
            existing.outputState ≠ .reserved ∨
            existing.organizationId ≠ rows.job.organizationId ∨
            existing.issuanceId ≠ rows.issuance.id ∨
            existing.attempt ≠ rows.job.attempt)
          (demoIssuanceError .demoJobResultOwned)
        return (.claimed (rows.claimOf existing ownerToken), rows)
      | none =>
        let evidence ← (DemoIssuanceResult.reserve rows.job.organizationId rows.job.id
          rows.issuance.id rows.job.attempt ownerToken rows.outputKey now).create .allowWrite none
          rows.job rows.issuance now
        return (.claimed (rows.claimOf evidence ownerToken),
          { rows with evidence := some evidence })

/-! ## 3. Upload and commit -/

/-- `_begin_output_upload`: whether the upload may start. -/
def beginOutputUpload (claim : ProcessingClaim) (now : Instant) :
    Except Raised (Bool × IssuanceRows) := do
  let evidence ← rows.lockOwned claim
  raiseIf (rows.job.status ≠ .processing ∨ evidence.outputState ≠ .reserved)
    (demoIssuanceError .demoOutputOwnershipInvalid)
  if rows.job.cancelRequestedAt ≠ none then
    let job ← saveTransition rows.job .cancelled now
    let evidence ← { rows with job := job }.saveEvidence { evidence with outputState := .cleaned }
      evidence now
    return (false, { rows with job := job, evidence := some evidence })
  else
    let evidence ← rows.saveEvidence { evidence with outputState := .uploading } evidence now
    return (true, { rows with evidence := some evidence })

/-- What the worker has built: the digest of the output's bytes and the page count. -/
structure Artifact where
  outputSha256 : Sha256
  pageCount : Nat
deriving DecidableEq, Repr

/-- The libraries, the private key and the registry a commit in integrity mode signs with. -/
structure Signing where
  library : ManifestLibrary
  privateKey : PrivateKey
  registry : List SigningKey

/-- `document.save(update_fields=["page_count"])` under the table's page constraint. -/
def savePageCount (document : Document) (pageCount : Nat) : Except Raised Document := do
  raiseIf (¬ (1 ≤ pageCount ∧ pageCount ≤ 50))
    (.integrity "document_page_count_pending_or_1_50")
  return { document with pageCount := some pageCount }

/-- The manifest a commit in integrity mode inserts; `issuance` has one manifest at most. -/
def createManifest (signing : Signing) (claim : ProcessingClaim) (artifact : Artifact)
    (now : Instant) : Except Raised (List Manifest) := do
  let signingKey ← integritySigningKeyLocked signing.registry claim.organizationId
    signing.privateKey now
  let pair := buildSignedIssuanceManifest signing.library rows.issuance claim.expectedSourceSha256
    artifact.outputSha256 signingKey.keyId signing.privateKey integrityRetentionPolicyId
  raiseIf (∃ manifest ∈ rows.manifests, manifest.issuanceId = rows.issuance.id)
    (.integrity "documents_manifest_issuance_id_key")
  return rows.manifests ++ [{
    organizationId := claim.organizationId
    issuanceId := rows.issuance.id
    signingKeyId := signingKey.id
    internalPayload := pair.internalPayload
    internalSignatureEnvelope := pair.internalSignatureEnvelope
    publicPayload := pair.publicPayload
    publicSignatureEnvelope := pair.publicSignatureEnvelope }]

/-- The manifests after a commit: one more when the worker holds a signing key. -/
def commitManifests (signing : Option Signing) (claim : ProcessingClaim) (artifact : Artifact)
    (now : Instant) : Except Raised (List Manifest) :=
  match signing with
  | some signing => rows.createManifest signing claim artifact now
  | none => .ok rows.manifests

/-- The evidence row of a commit, before it is saved. -/
def committedEvidence (evidence : DemoIssuanceResult) (claim : ProcessingClaim)
    (artifact : Artifact) (processingMs : Nat) : DemoIssuanceResult :=
  { evidence with
    outputState := .committed
    algorithmLabel := some demoAlgorithmLabel
    candidateIdentifier := some demoFrozenCandidateIdentifier
    canvasHeight := some demoCanonicalCanvas.1
    canvasWidth := some demoCanonicalCanvas.2
    inputSha256 := some claim.expectedSourceSha256
    outputSha256 := some artifact.outputSha256
    pageCount := some artifact.pageCount
    processingMs := some processingMs
    limitations := demoLimitations
    cleanupFailures := 0
    safeErrorCode := none }

/-- `_commit_issuance_result`; `none` tells that the job was cancelled.  The downloaded input has
the digest the claim expects, or the download would have raised. -/
def commitIssuanceResult (settings : Settings) (claim : ProcessingClaim) (artifact : Artifact)
    (processingMs : Nat) (signing : Option Signing) (now : Instant) :
    Except Raised (Option IssuanceProcessingResult × IssuanceRows) := do
  let evidence ← rows.lockOwned claim
  raiseIf (rows.job.status ≠ .processing) (demoIssuanceError .demoIssuanceResultInvalid)
  if rows.job.cancelRequestedAt ≠ none then
    let job ← saveTransition rows.job .cancelled now
    return (none, { rows with job := job })
  else
    raiseIf (evidence.outputState ≠ .uploading ∨ rows.issuance.outputObjectKey ≠ none ∨
        rows.issuance.outputSha256 ≠ none)
      (demoIssuanceError .demoIssuanceResultInvalid)
    let issuance := { rows.issuance with
      outputObjectKey := some claim.outputObjectKey
      outputSha256 := some artifact.outputSha256 }
    let document ← savePageCount rows.document artifact.pageCount
    let manifests ← rows.commitManifests signing claim artifact now
    let receipts ← createReceipt rows.receipts claim.organizationId rows.job
    let evidence ← (committedEvidence evidence claim artifact processingMs).save .allowWrite
      evidence rows.job issuance now
    let job ← terminalizeLockedJob rows.job .succeeded none now
    return (some (resultFromEvidence settings evidence),
      { rows with
        job := job, issuance := issuance, document := document, evidence := some evidence
        receipts := receipts, manifests := manifests })

/-! ## 4. Failure recording and compensation -/

/-- The evidence row after a failure: a reserved row is closed, an upload is to be cleaned. -/
def failedEvidence (evidence : DemoIssuanceResult) (code : SafeErrorCode)
    (cleanupFailures : Nat) : DemoIssuanceResult :=
  { evidence with
    outputState :=
      match evidence.outputState with
      | .reserved => .cleaned
      | .uploading => .cleanupRequired
      | state => state
    safeErrorCode := some code
    cleanupFailures := cleanupFailures }

def recordFailedJob (claim : ProcessingClaim) (code : SafeErrorCode) (cleanupFailures : Nat)
    (now : Instant) : Except Raised (Unit × IssuanceRows) := do
  let _ ← rows.lockedJob claim.jobId
  if ∃ evidence ∈ rows.evidence, evidence.ownerToken ≠ claim.ownerToken ∧
      evidence.outputState = .cleanupRequired then
    return ((), rows)
  else
    let evidence ← rows.lockedEvidence claim
    if rows.job.status ≠ .processing then
      return ((), rows)
    else
      let job ← terminalizeLockedJob rows.job .failed (some code) now
      let evidence ← { rows with job := job }.saveEvidence
        (failedEvidence evidence code cleanupFailures) evidence now
      return ((), { rows with job := job, evidence := some evidence })

def authorizeOutputCleanup (claim : ProcessingClaim) : Except Raised (Unit × IssuanceRows) := do
  let evidence ← rows.lockOwned claim
  raiseIf (evidence.outputState ∉ [DemoOutputState.uploading, .cleanupRequired] ∨
      rows.issuance.outputObjectKey ≠ none ∨ rows.job.status = .succeeded)
    (demoIssuanceError .demoOutputOwnershipInvalid)
  return ((), rows)

def persistOutputCleanup (claim : ProcessingClaim) (outputState : DemoOutputState)
    (safeErrorCode : SafeErrorCode) (cleanupFailures : Nat) (now : Instant) :
    Except Raised (Unit × IssuanceRows) := do
  let evidence ← rows.lockOwned claim
  raiseIf (evidence.outputState ∉ [DemoOutputState.uploading, .cleanupRequired])
    (demoIssuanceError .demoOutputOwnershipInvalid)
  let evidence ← rows.saveEvidence
    { evidence with
      outputState := outputState
      safeErrorCode := some safeErrorCode
      cleanupFailures := cleanupFailures }
    evidence now
  let job := if rows.job.status = .cancelled then
      { rows.job with
        safeErrorCode := if cleanupFailures ≠ 0 then some safeErrorCode else none
        updatedAt := now }
    else rows.job
  return ((), { rows with job := job, evidence := some evidence })

/-! ## 5. Stale recovery -/

def claimStaleOutputRecovery (claim : ProcessingClaim) (recoveryToken : UUID) (now : Instant) :
    Except Raised ((ProcessingClaim × Nat) × IssuanceRows) := do
  raiseIf (recoveryToken = claim.ownerToken) (demoIssuanceError .demoOutputOwnershipInvalid)
  let evidence ← rows.lockOwned claim
  raiseIf (rows.job.status ≠ .processing ∨
      evidence.outputState ∉ [DemoOutputState.uploading, .cleanupRequired] ∨
      rows.issuance.outputObjectKey ≠ none ∨ rows.issuance.outputSha256 ≠ none)
    (demoIssuanceError .demoOutputOwnershipInvalid)
  let transferred ← DemoIssuanceResult.save
    { evidence with
      ownerToken := recoveryToken
      outputState := .cleanupRequired
      safeErrorCode := some demoStaleRecoveryFenceCode }
    .allowRecoveryTransfer evidence rows.job rows.issuance now
  return (({ claim with ownerToken := recoveryToken }, evidence.cleanupFailures),
    { rows with evidence := some transferred })

def authorizeStaleOutputDelete (claim : ProcessingClaim) (cleanupFailures : Nat) :
    Except Raised (DemoIssuanceResult × IssuanceRows) := do
  let evidence ← rows.lockOwned claim
  raiseIf (rows.job.status ≠ .processing ∨
      evidence.outputState ≠ .cleanupRequired ∨
      evidence.safeErrorCode ≠ some demoStaleRecoveryFenceCode ∨
      evidence.cleanupFailures ≠ cleanupFailures ∨
      rows.issuance.outputObjectKey ≠ none ∨ rows.issuance.outputSha256 ≠ none)
    (demoIssuanceError .demoOutputOwnershipInvalid)
  return (evidence, rows)

def recordStaleOutputDeleteFailure (claim : ProcessingClaim) (priorCleanupFailures : Nat)
    (now : Instant) : Except Raised (Nat × IssuanceRows) := do
  let (evidence, _) ← rows.authorizeStaleOutputDelete claim priorCleanupFailures
  let evidence ← rows.saveEvidence
    { evidence with
      cleanupFailures := priorCleanupFailures + 1
      safeErrorCode := some .demoStaleOutputCleanupFailed }
    evidence now
  return (evidence.cleanupFailures, { rows with evidence := some evidence })

def acknowledgeStaleOutputDelete (claim : ProcessingClaim) (cleanupFailures : Nat)
    (now : Instant) : Except Raised (Unit × IssuanceRows) := do
  let (evidence, _) ← rows.authorizeStaleOutputDelete claim cleanupFailures
  let evidence ← rows.saveEvidence
    { evidence with
      outputState := .cleanupRequired
      safeErrorCode := some demoStaleRecoveryFenceCode }
    evidence now
  let job ← terminalizeLockedJob rows.job .failed (some .demoStaleJobFailed) now
  return ((), { rows with job := job, evidence := some evidence })

/-- `_issuance_claim_for_recovery`: `none` when the evidence cannot be trusted. -/
def issuanceClaimForRecovery (evidence : DemoIssuanceResult) : Option ProcessingClaim :=
  if evidence.organizationId ≠ rows.job.organizationId ∨ evidence.jobId ≠ rows.job.id ∨
      rows.job.issuanceId ≠ some evidence.issuanceId ∨ evidence.attempt ≠ rows.job.attempt then
    none
  else
    let claim := rows.claimOf evidence evidence.ownerToken
    let checks : Except Raised Unit := do
      rows.validateClaimBinding claim
      evidence.fullClean rows.job rows.issuance
    match checks with
    | .ok _ => some claim
    | .error _ => none

/-- What `_prepare_stale_recovery` answers: nothing to do, a finished outcome, or the object
deletion the caller goes on with. -/
inductive StaleRecovery
  | skipped
  | finished (safeCode : Option SafeErrorCode)
  | cleanup (claim : ProcessingClaim) (priorCleanupFailures : Nat)
  | tombstone (claim : ProcessingClaim)
deriving DecidableEq, Repr

/-- Whether the evidence keeps the fence of a finished stale recovery. -/
def fenced (evidence : DemoIssuanceResult) : Prop :=
  evidence.outputState = .cleanupRequired ∧
    evidence.safeErrorCode = some demoStaleRecoveryFenceCode

instance (evidence : DemoIssuanceResult) : Decidable (fenced evidence) :=
  inferInstanceAs (Decidable (_ ∧ _))

/-- The part of `_prepare_stale_recovery` for a stale job in processing. -/
def recoverStaleProcessing (settings : Settings) (recoveryToken : UUID) (now : Instant)
    (evidence : DemoIssuanceResult) (claim : ProcessingClaim) :
    Except Raised (StaleRecovery × IssuanceRows) := do
  match evidence.outputState with
  | .committed =>
    match rows.loadReplayResult settings with
    | .ok _ =>
      let job ← terminalizeLockedJob rows.job .succeeded none now
      return (.finished none, { rows with job := job })
    | .error _ =>
      let job ← terminalizeLockedJob rows.job .failed (some .demoStaleResultInvalid) now
      return (.finished (some .demoStaleResultInvalid), { rows with job := job })
  | .uploading | .cleanupRequired =>
    let ((recoveryClaim, priorCleanupFailures), rows') ←
      rows.claimStaleOutputRecovery claim recoveryToken now
    return (.cleanup recoveryClaim priorCleanupFailures, rows')
  | .reserved | .cleaned =>
    let (_, rows') ← rows.recordFailedJob claim .demoStaleJobFailed 0 now
    return (.finished (some .demoStaleJobFailed), rows')

def prepareStaleRecovery (settings : Settings) (staleBefore : Instant) (recoveryToken : UUID)
    (now : Instant) : Except Raised (StaleRecovery × IssuanceRows) := do
  match rows.evidence with
  | none => return (.skipped, rows)
  | some evidence =>
    let prepared := rows.issuanceClaimForRecovery evidence
    if rows.job.kind = .issuance ∧ rows.job.status = .failed ∧ fenced evidence ∧
        prepared.isSome then
      return (prepared.elim .skipped .tombstone, rows)
    else if rows.job.status ≠ .processing ∨ rows.job.updatedAt ≥ staleBefore then
      return (.skipped, rows)
    else
      match prepared with
      | none => return (.skipped, rows)
      | some claim => rows.recoverStaleProcessing settings recoveryToken now evidence claim

end IssuanceRows

end Splitbind
