import Splitbind.Demo.IssuanceTransactions
import Splitbind.Jobs.Machine

/-!
# Issuance effects — what each transaction requires and commits

One inversion lemma per transaction of `IssuanceTransactions`.  The invariants are derived from
these and never unfold a transaction again.
-/

namespace Splitbind

open Transaction

namespace IssuanceRows

/-! ## 1. Binding and ownership -/

/-- What `_validate_locked_binding` checks. -/
structure Bound (rows : IssuanceRows) : Prop where
  kind : rows.job.kind = .issuance
  issuanceId : rows.job.issuanceId = some rows.issuance.id
  documentId : rows.issuance.documentId = rows.document.id
  issuanceOrganization : rows.issuance.organizationId = rows.job.organizationId
  documentOrganization : rows.document.organizationId = rows.job.organizationId

/-- What `_validate_claim_binding` adds: the claim names these rows. -/
structure Names (rows : IssuanceRows) (claim : ProcessingClaim) : Prop where
  jobId : rows.job.id = claim.jobId
  organizationId : rows.job.organizationId = claim.organizationId
  issuanceId : rows.issuance.id = claim.issuanceId
  documentId : rows.document.id = claim.documentId
  attempt : rows.job.attempt = claim.attempt

/-- What `_locked_evidence` checks: the claim owns the evidence row. -/
structure Owns (claim : ProcessingClaim) (evidence : DemoIssuanceResult) : Prop where
  organizationId : evidence.organizationId = claim.organizationId
  issuanceId : evidence.issuanceId = claim.issuanceId
  attempt : evidence.attempt = claim.attempt
  ownerToken : evidence.ownerToken = claim.ownerToken
  outputObjectKey : evidence.outputObjectKey = claim.outputObjectKey

variable {rows rows' : IssuanceRows} {claim : ProcessingClaim} {now : Instant}

theorem validateLockedBinding_eq_ok : rows.validateLockedBinding = .ok () ↔ rows.Bound := by
  simp only [validateLockedBinding, bind_eq_ok, exists_unit, raiseIf_eq_ok, not_or, not_not, ne_eq]
  constructor
  · rintro ⟨hissuance, hdocument, hkind, -, hissuanceOrg, -, hdocumentOrg⟩
    exact ⟨hkind, hissuance, hdocument, hissuanceOrg, hdocumentOrg⟩
  · rintro ⟨hkind, hissuance, hdocument, hissuanceOrg, hdocumentOrg⟩
    exact ⟨hissuance, hdocument, hkind, hissuance, hissuanceOrg, hdocument.symm, hdocumentOrg⟩

theorem Bound.withJob {rows : IssuanceRows} {job' : Job} (h : rows.Bound)
    (hsame : SameJob rows.job job') : { rows with job := job' }.Bound where
  kind := hsame.kind.trans h.kind
  issuanceId := hsame.issuanceId.trans h.issuanceId
  documentId := h.documentId
  issuanceOrganization := h.issuanceOrganization.trans hsame.organizationId.symm
  documentOrganization := h.documentOrganization.trans hsame.organizationId.symm

theorem validateClaimBinding_eq_ok :
    rows.validateClaimBinding claim = .ok () ↔ rows.Bound ∧ rows.Names claim := by
  simp only [validateClaimBinding, bind_eq_ok, exists_unit, validateLockedBinding_eq_ok, raiseIf_eq_ok,
    not_or, not_not, ne_eq]
  refine and_congr_right fun _ ↦ ?_
  constructor
  · rintro ⟨hjob, horg, hissuance, hdocument, hattempt⟩
    exact ⟨hjob, horg, hissuance, hdocument, hattempt⟩
  · rintro ⟨hjob, horg, hissuance, hdocument, hattempt⟩
    exact ⟨hjob, horg, hissuance, hdocument, hattempt⟩

theorem lockedEvidence_eq_ok {evidence : DemoIssuanceResult} :
    rows.lockedEvidence claim = .ok evidence ↔
      rows.evidence = some evidence ∧ Owns claim evidence := by
  simp only [lockedEvidence, bind_eq_ok, found_eq_ok, exists_unit, raiseIf_eq_ok, pure_eq_ok,
    not_or, not_not, ne_eq]
  constructor
  · rintro ⟨_, hevidence, ⟨horg, hissuance, hattempt, howner, hkey⟩, rfl⟩
    exact ⟨hevidence, horg, hissuance, hattempt, howner, hkey⟩
  · rintro ⟨hevidence, horg, hissuance, hattempt, howner, hkey⟩
    exact ⟨_, hevidence, ⟨horg, hissuance, hattempt, howner, hkey⟩, rfl⟩

theorem lockOwned_eq_ok {evidence : DemoIssuanceResult} :
    rows.lockOwned claim = .ok evidence ↔
      rows.Bound ∧ rows.Names claim ∧ rows.evidence = some evidence ∧ Owns claim evidence := by
  simp only [lockOwned, lockedJob, bind_eq_ok, exists_unit, raiseIf_eq_ok, pure_eq_ok,
    validateClaimBinding_eq_ok, lockedEvidence_eq_ok, not_or, not_not, ne_eq]
  constructor
  · rintro ⟨_, ⟨-, rfl⟩, ⟨hbound, hnames⟩, hevidence, howns⟩
    exact ⟨hbound, hnames, hevidence, howns⟩
  · rintro ⟨hbound, hnames, hevidence, howns⟩
    exact ⟨_, ⟨⟨hnames.jobId, by simp [hbound.issuanceId]⟩, rfl⟩, ⟨hbound, hnames⟩, hevidence, howns⟩

/-! ## 2. Saving an evidence row -/

/-- A save under the write capability keeps the identity and follows the state table. -/
theorem saveEvidence_eq_ok {evidence persisted evidence' : DemoIssuanceResult} :
    rows.saveEvidence evidence persisted now = .ok evidence' ↔
      ¬ evidence.identityChanged persisted ∧ evidence.ownerToken = persisted.ownerToken ∧
      persisted.outputState ≠ .committed ∧
      evidence.outputState ∈ DemoIssuanceResult.allowedTransitions persisted.outputState ∧
      evidence.clean rows.job rows.issuance = .ok () ∧ evidence.rowConstraints = .ok () ∧
      { evidence with updatedAt := now } = evidence' := by
  rw [saveEvidence, DemoIssuanceResult.save_eq_ok]
  simp only [DemoIssuanceResult.WriteCapability.allowWrite, DemoIssuanceResult.recoveryTransfer,
    Bool.false_eq_true, false_and, and_false, or_false, true_and]
  exact and_assoc

/-! ## 3. Claiming and acquiring -/

/-- The row `claim_next_job` and `_acquire_processing_claim` create for a job. -/
def reservedEvidence (rows : IssuanceRows) (ownerToken : UUID) (now : Instant) :
    DemoIssuanceResult :=
  .reserve rows.job.organizationId rows.job.id rows.issuance.id rows.job.attempt ownerToken
    rows.outputKey now

/-- A job is claimed at most once: it was queued without evidence and is now in processing with
the reserved row of the claiming token. -/
theorem claimNextJob_cases {policy : ClaimPolicy} {ownerToken : UUID} {result : Option UUID}
    (h : rows.claimNextJob policy ownerToken now = .ok (result, rows')) :
    (∃ job', result = none ∧ rows' = { rows with job := job' } ∧
      claimJob policy now rows.job = .ok (false, job')) ∨
    (result = some ownerToken ∧ rows.job.status = .queued ∧ rows.job.cancelRequestedAt = none ∧
      rows.job.attempt ≤ 2 ∧ rows.evidence = none ∧
      (rows.reservedEvidence ownerToken now).Binds
        { rows.job with status := .processing, updatedAt := now } rows.issuance ∧
      rows' = { rows with
        job := { rows.job with status := .processing, updatedAt := now }
        evidence := some (rows.reservedEvidence ownerToken now) }) := by
  simp only [claimNextJob, bind_eq_ok] at h
  obtain ⟨⟨claimed, job'⟩, hclaim, h⟩ := h
  cases claimed with
  | false =>
    simp only [Bool.false_eq_true, if_false, pure_eq_ok, Prod.mk.injEq] at h
    exact .inl ⟨job', h.1.symm, h.2.symm, hclaim⟩
  | true =>
    simp only [if_true, bind_eq_ok, pure_eq_ok, Prod.mk.injEq] at h
    obtain ⟨evidence, hcreate, rfl, rfl⟩ := h
    rcases claimJob_cases hclaim with h | h | h | ⟨-, hqueued, hcancel, hattempt, rfl⟩
    · simp at h
    · simp at h
    · simp at h
    rw [DemoIssuanceResult.create_eq_ok] at hcreate
    obtain ⟨-, hclean, -, hnone, rfl⟩ := hcreate
    rw [DemoIssuanceResult.clean_eq_ok_of_uncommitted (by simp [DemoIssuanceResult.reserve])]
      at hclean
    exact .inr ⟨rfl, hqueued, hcancel, hattempt, hnone, hclean.1, rfl⟩

theorem acquireProcessingClaim_cases {settings : Settings} {ownerToken : UUID}
    {result : Acquired}
    (h : rows.acquireProcessingClaim settings ownerToken now = .ok (result, rows')) :
    (∃ value, result = .replay value ∧ rows.job.status = .succeeded ∧
      rows.loadReplayResult settings = .ok value ∧ rows' = rows) ∨
    (result = .cancelled ∧ rows.job.status = .processing ∧ rows.job.cancelRequestedAt ≠ none ∧
      rows' = { rows with job := { rows.job with status := .cancelled, updatedAt := now } }) ∨
    (∃ evidence, result = .claimed (rows.claimOf evidence ownerToken) ∧
      rows.job.status = .processing ∧ rows.job.cancelRequestedAt = none ∧
      evidence.ownerToken = ownerToken ∧ evidence.outputState = .reserved ∧
      (rows.evidence = some evidence ∧ rows' = rows ∨
        rows.evidence = none ∧ evidence = rows.reservedEvidence ownerToken now ∧
          evidence.Binds rows.job rows.issuance ∧ rows.job.attempt ≤ 2 ∧
          rows' = { rows with evidence := some evidence })) := by
  simp only [acquireProcessingClaim, bind_eq_ok, exists_unit] at h
  obtain ⟨-, h⟩ := h
  -- a finished job replays its result; anything but a processing one is refused
  by_cases hsucceeded : rows.job.status = .succeeded
  · rw [if_pos hsucceeded] at h
    simp only [bind_eq_ok, pure_eq_ok, Prod.mk.injEq] at h
    obtain ⟨value, hreplay, rfl, rfl⟩ := h
    exact .inl ⟨value, rfl, hsucceeded, hreplay, rfl⟩
  rw [if_neg hsucceeded] at h
  simp only [bind_eq_ok, exists_unit, raiseIf_eq_ok, not_not, ne_eq] at h
  obtain ⟨hprocessing, h⟩ := h
  right
  by_cases hcancel : rows.job.cancelRequestedAt = none
  · rw [if_neg (not_not.mpr hcancel)] at h
    right
    -- without a row one is reserved; an existing one must be this owner's own
    rcases hevidence : rows.evidence with _ | existing
    · simp only [hevidence, bind_eq_ok, pure_eq_ok, Prod.mk.injEq,
        DemoIssuanceResult.create_eq_ok] at h
      obtain ⟨evidence, ⟨-, hclean, hrow, -, rfl⟩, rfl, rfl⟩ := h
      have hstate : (DemoIssuanceResult.reserve rows.job.organizationId rows.job.id
          rows.issuance.id rows.job.attempt ownerToken rows.outputKey now).outputState ≠
            .committed := by
        simp [DemoIssuanceResult.reserve]
      rw [DemoIssuanceResult.clean_eq_ok_of_uncommitted hstate] at hclean
      rw [DemoIssuanceResult.rowConstraints_eq_ok_of_unclaimed hstate hclean.2.1] at hrow
      exact ⟨_, rfl, hprocessing, hcancel, rfl, rfl, .inr ⟨rfl, rfl, hclean.1, hrow.1, rfl⟩⟩
    · simp only [hevidence, bind_eq_ok, exists_unit, raiseIf_eq_ok, pure_eq_ok, Prod.mk.injEq, not_or,
        not_not] at h
      obtain ⟨⟨howner, hstate, -⟩, rfl, rfl⟩ := h
      exact ⟨existing, rfl, hprocessing, hcancel, howner, hstate, .inl ⟨rfl, rfl⟩⟩
  · rw [if_pos hcancel] at h
    simp only [bind_eq_ok, saveTransition_eq_ok, pure_eq_ok, Prod.mk.injEq] at h
    obtain ⟨_, ⟨-, -, -, rfl⟩, rfl, rfl⟩ := h
    exact .inl ⟨rfl, hprocessing, hcancel, rfl⟩

/-! ## 4. Upload and commit -/

theorem beginOutputUpload_cases {started : Bool}
    (h : rows.beginOutputUpload claim now = .ok (started, rows')) :
    ∃ evidence, rows.evidence = some evidence ∧ Owns claim evidence ∧
      rows.job.status = .processing ∧ evidence.outputState = .reserved ∧
      ((started = false ∧ rows.job.cancelRequestedAt ≠ none ∧
          rows' = { rows with
            job := { rows.job with status := .cancelled, updatedAt := now }
            evidence := some { evidence with outputState := .cleaned, updatedAt := now } }) ∨
        (started = true ∧ rows.job.cancelRequestedAt = none ∧
          rows' = { rows with
            evidence := some { evidence with outputState := .uploading, updatedAt := now } })) := by
  simp only [beginOutputUpload, bind_eq_ok, lockOwned_eq_ok, bind_eq_ok, exists_unit, raiseIf_eq_ok,
    not_or, not_not, ne_eq] at h
  obtain ⟨evidence, ⟨-, -, hevidence, howns⟩, ⟨hprocessing, hstate⟩, h⟩ := h
  refine ⟨evidence, hevidence, howns, hprocessing, hstate, ?_⟩
  by_cases hcancel : rows.job.cancelRequestedAt = none
  · simp only [hcancel, not_true_eq_false, if_false, bind_eq_ok, saveEvidence_eq_ok, pure_eq_ok,
      Prod.mk.injEq] at h
    obtain ⟨_, ⟨-, -, -, -, -, -, rfl⟩, rfl, rfl⟩ := h
    exact .inr ⟨rfl, hcancel, rfl⟩
  · simp only [hcancel, not_false_eq_true, if_true, bind_eq_ok, saveTransition_eq_ok,
      saveEvidence_eq_ok, pure_eq_ok, Prod.mk.injEq] at h
    obtain ⟨_, ⟨-, -, -, rfl⟩, _, ⟨-, -, -, -, -, -, rfl⟩, rfl, rfl⟩ := h
    exact .inl ⟨rfl, hcancel, rfl⟩

/-- The manifest a commit inserts is the issuance's first. -/
theorem createManifest_eq_ok {signing : Signing} {artifact : Artifact}
    {manifests : List Manifest}
    (h : rows.createManifest signing claim artifact now = .ok manifests) :
    ∃ signingKey, integritySigningKeyLocked signing.registry claim.organizationId
        signing.privateKey now = .ok signingKey ∧
      ∃ manifest, manifests = rows.manifests ++ [manifest] ∧
        manifest.organizationId = claim.organizationId ∧
        manifest.issuanceId = rows.issuance.id ∧ manifest.signingKeyId = signingKey.id ∧
        ⟨manifest.internalPayload, manifest.internalSignatureEnvelope, manifest.publicPayload,
          manifest.publicSignatureEnvelope⟩ =
          buildSignedIssuanceManifest signing.library rows.issuance claim.expectedSourceSha256
            artifact.outputSha256 signingKey.keyId signing.privateKey
            integrityRetentionPolicyId := by
  simp only [createManifest, bind_eq_ok, exists_unit, raiseIf_eq_ok, pure_eq_ok] at h
  obtain ⟨signingKey, hkey, -, rfl⟩ := h
  exact ⟨signingKey, hkey, _, rfl, rfl, rfl, rfl, rfl⟩

/-- The rows of a commit. -/
def committedRows (rows : IssuanceRows) (claim : ProcessingClaim) (artifact : Artifact)
    (processingMs : Nat) (evidence : DemoIssuanceResult) (manifests : List Manifest)
    (now : Instant) : IssuanceRows :=
  { rows with
    job := { rows.job with status := .succeeded, safeErrorCode := none, updatedAt := now }
    issuance := { rows.issuance with
      outputObjectKey := some claim.outputObjectKey
      outputSha256 := some artifact.outputSha256 }
    document := { rows.document with pageCount := some artifact.pageCount }
    evidence := some
      { committedEvidence evidence claim artifact processingMs with updatedAt := now }
    receipts := rows.receipts ++ [⟨receiptId rows.job, claim.organizationId, rows.job.id⟩]
    manifests := manifests }

theorem commitIssuanceResult_cases {settings : Settings} {artifact : Artifact}
    {processingMs : Nat} {signing : Option Signing} {result : Option IssuanceProcessingResult}
    (h : rows.commitIssuanceResult settings claim artifact processingMs signing now =
      .ok (result, rows')) :
    ∃ evidence, rows.evidence = some evidence ∧ Owns claim evidence ∧ rows.Names claim ∧
      rows.job.status = .processing ∧
      ((result = none ∧ rows.job.cancelRequestedAt ≠ none ∧
          rows' = { rows with job := { rows.job with status := .cancelled, updatedAt := now } }) ∨
        (result.isSome = true ∧ rows.job.cancelRequestedAt = none ∧
          evidence.outputState = .uploading ∧ rows.issuance.outputObjectKey = none ∧
          rows.issuance.outputSha256 = none ∧ 1 ≤ artifact.pageCount ∧ artifact.pageCount ≤ 50 ∧
          processingMs ≤ DemoIssuanceResult.positiveIntegerMax ∧
          ∃ manifests, rows.commitManifests signing claim artifact now = .ok manifests ∧
            rows' = rows.committedRows claim artifact processingMs evidence manifests now)) := by
  simp only [commitIssuanceResult, bind_eq_ok, exists_unit, lockOwned_eq_ok, raiseIf_eq_ok,
    not_not, ne_eq] at h
  obtain ⟨evidence, ⟨-, hnames, hevidence, howns⟩, hprocessing, h⟩ := h
  refine ⟨evidence, hevidence, howns, hnames, hprocessing, ?_⟩
  by_cases hcancel : rows.job.cancelRequestedAt = none
  · rw [if_neg (not_not.mpr hcancel)] at h
    simp only [bind_eq_ok, exists_unit, raiseIf_eq_ok, not_or, not_not, savePageCount,
      createReceipt, DemoIssuanceResult.save_eq_ok, terminalizeLockedJob_eq_ok, pure_eq_ok,
      Prod.mk.injEq] at h
    obtain ⟨⟨hstate, hkey, hsha⟩, document, ⟨⟨hpos, hmax⟩, rfl⟩, manifests, hmanifests, receipts,
      ⟨-, -, rfl⟩, evidence', ⟨-, -, -, -, -, hrow, rfl⟩, job, ⟨-, -, -, rfl⟩, rfl, rfl⟩ := h
    simp only [DemoIssuanceResult.rowConstraints, bind_eq_ok, exists_unit, raiseIf_eq_ok] at hrow
    obtain ⟨-, hranges, -⟩ := hrow
    have hms : processingMs ≤ DemoIssuanceResult.positiveIntegerMax := by
      simp only [committedEvidence, Option.mem_def, Option.some.injEq, exists_eq_left', not_or,
        not_lt] at hranges
      exact hranges.2.2.1
    exact .inr ⟨rfl, hcancel, hstate, hkey, hsha, hpos, hmax, hms, manifests, hmanifests, rfl⟩
  · simp only [hcancel, not_false_eq_true, if_true, bind_eq_ok, saveTransition_eq_ok, pure_eq_ok,
      Prod.mk.injEq] at h
    obtain ⟨_, ⟨-, -, -, rfl⟩, rfl, rfl⟩ := h
    exact .inl ⟨rfl, hcancel, rfl⟩

/-! ## 5. Failure recording and compensation -/

/-- Recording a failure either finds that the worker has lost the job, or that the job is no
longer in processing, or fails the job and closes its evidence as far as it can. -/
theorem recordFailedJob_cases {code : SafeErrorCode} {cleanupFailures : Nat}
    (h : rows.recordFailedJob claim code cleanupFailures now = .ok ((), rows')) :
    rows' = rows ∨
    ∃ evidence, rows.evidence = some evidence ∧ Owns claim evidence ∧
      rows.job.status = .processing ∧ evidence.outputState ≠ .committed ∧
      (failedEvidence evidence code cleanupFailures).Durable ∧
      rows' = { rows with
        job := { rows.job with status := .failed, safeErrorCode := some code, updatedAt := now }
        evidence := some { failedEvidence evidence code cleanupFailures with updatedAt := now } } := by
  simp only [recordFailedJob, bind_eq_ok] at h
  obtain ⟨_, -, h⟩ := h
  split at h
  · simp only [pure_eq_ok, Prod.mk.injEq] at h
    exact .inl h.2.symm
  simp only [bind_eq_ok, lockedEvidence_eq_ok] at h
  obtain ⟨evidence, ⟨hevidence, howns⟩, h⟩ := h
  by_cases hprocessing : rows.job.status = .processing
  · simp only [hprocessing, ne_eq, not_true_eq_false, if_false, bind_eq_ok,
      terminalizeLockedJob_eq_ok, saveEvidence_eq_ok, pure_eq_ok, Prod.mk.injEq] at h
    obtain ⟨_, ⟨-, -, -, rfl⟩, _, ⟨-, -, hcommitted, hstate, hclean, -, rfl⟩, -, rfl⟩ := h
    have hnot : (failedEvidence evidence code cleanupFailures).outputState ≠ .committed := by
      unfold failedEvidence
      cases hs : evidence.outputState <;> simp_all
    rw [DemoIssuanceResult.clean_eq_ok_of_uncommitted hnot] at hclean
    exact .inr ⟨evidence, hevidence, howns, hprocessing, hcommitted, hclean.2.2, rfl⟩
  · simp only [hprocessing, ne_eq, not_false_eq_true, if_true, pure_eq_ok, Prod.mk.injEq] at h
    exact .inl h.2.symm

theorem authorizeOutputCleanup_cases (h : rows.authorizeOutputCleanup claim = .ok ((), rows')) :
    rows' = rows ∧ ∃ evidence, rows.evidence = some evidence ∧ Owns claim evidence ∧
      (evidence.outputState = .uploading ∨ evidence.outputState = .cleanupRequired) ∧
      rows.issuance.outputObjectKey = none ∧ rows.job.status ≠ .succeeded := by
  simp only [authorizeOutputCleanup, bind_eq_ok, exists_unit, lockOwned_eq_ok, raiseIf_eq_ok,
    pure_eq_ok, Prod.mk.injEq, not_or, not_not, ne_eq] at h
  obtain ⟨evidence, ⟨-, -, hevidence, howns⟩, ⟨hstate, hkey, hstatus⟩, -, rfl⟩ := h
  exact ⟨rfl, evidence, hevidence, howns, by simpa using hstate, hkey, hstatus⟩

/-- What a compensation writes on the job: the error code of a job that was cancelled. -/
def compensatedJob (job : Job) (code : SafeErrorCode) (cleanupFailures : Nat) (now : Instant) :
    Job :=
  if job.status = .cancelled then
    { job with
      safeErrorCode := if cleanupFailures ≠ 0 then some code else none
      updatedAt := now }
  else job

theorem persistOutputCleanup_cases {outputState : DemoOutputState} {code : SafeErrorCode}
    {cleanupFailures : Nat}
    (h : rows.persistOutputCleanup claim outputState code cleanupFailures now =
      .ok ((), rows')) :
    ∃ evidence, rows.evidence = some evidence ∧ Owns claim evidence ∧
      (evidence.outputState = .uploading ∨ evidence.outputState = .cleanupRequired) ∧
      rows' = { rows with
        job := compensatedJob rows.job code cleanupFailures now
        evidence := some { evidence with
          outputState := outputState, safeErrorCode := some code
          cleanupFailures := cleanupFailures, updatedAt := now } } := by
  simp only [persistOutputCleanup, bind_eq_ok, exists_unit, lockOwned_eq_ok, raiseIf_eq_ok,
    saveEvidence_eq_ok, pure_eq_ok, Prod.mk.injEq, not_not] at h
  obtain ⟨evidence, ⟨-, -, hevidence, howns⟩, hstate, _, ⟨-, -, -, -, -, -, rfl⟩, -, rfl⟩ := h
  exact ⟨evidence, hevidence, howns, by simpa using hstate, rfl⟩

/-! ## 6. Stale recovery -/

theorem claimStaleOutputRecovery_cases {recoveryToken : UUID}
    {result : ProcessingClaim × Nat}
    (h : rows.claimStaleOutputRecovery claim recoveryToken now = .ok (result, rows')) :
    ∃ evidence, rows.evidence = some evidence ∧ Owns claim evidence ∧
      rows.job.status = .processing ∧
      (evidence.outputState = .uploading ∨ evidence.outputState = .cleanupRequired) ∧
      result = ({ claim with ownerToken := recoveryToken }, evidence.cleanupFailures) ∧
      rows' = { rows with
        evidence := some { evidence with
          ownerToken := recoveryToken, outputState := .cleanupRequired
          safeErrorCode := some demoStaleRecoveryFenceCode, updatedAt := now } } := by
  simp only [claimStaleOutputRecovery, bind_eq_ok, exists_unit, lockOwned_eq_ok, raiseIf_eq_ok,
    DemoIssuanceResult.save_eq_ok, pure_eq_ok, Prod.mk.injEq, not_or, not_not, ne_eq] at h
  obtain ⟨-, evidence, ⟨-, -, hevidence, howns⟩, ⟨hprocessing, hstate, -, -⟩, _,
    ⟨-, -, -, -, -, -, rfl⟩, rfl, rfl⟩ := h
  exact ⟨evidence, hevidence, howns, hprocessing, by simpa using hstate, rfl, rfl⟩

theorem authorizeStaleOutputDelete_eq_ok {prior : Nat} {evidence : DemoIssuanceResult}
    (h : rows.authorizeStaleOutputDelete claim prior = .ok (evidence, rows')) :
    rows' = rows ∧ rows.evidence = some evidence ∧ Owns claim evidence ∧
      rows.job.status = .processing ∧ fenced evidence ∧ evidence.cleanupFailures = prior := by
  simp only [authorizeStaleOutputDelete, bind_eq_ok, exists_unit, lockOwned_eq_ok, raiseIf_eq_ok,
    pure_eq_ok, Prod.mk.injEq, not_or, not_not, ne_eq] at h
  obtain ⟨_, ⟨-, -, hevidence, howns⟩, ⟨hprocessing, hstate, hcode, hprior, -, -⟩, rfl, rfl⟩ := h
  exact ⟨rfl, hevidence, howns, hprocessing, ⟨hstate, hcode⟩, hprior⟩

theorem recordStaleOutputDeleteFailure_cases {prior : Nat} {result : Nat}
    (h : rows.recordStaleOutputDeleteFailure claim prior now = .ok (result, rows')) :
    ∃ evidence, rows.evidence = some evidence ∧ Owns claim evidence ∧
      rows.job.status = .processing ∧ fenced evidence ∧
      rows' = { rows with
        evidence := some { evidence with
          cleanupFailures := prior + 1, safeErrorCode := some .demoStaleOutputCleanupFailed
          updatedAt := now } } := by
  simp only [recordStaleOutputDeleteFailure, bind_eq_ok, saveEvidence_eq_ok, pure_eq_ok,
    Prod.mk.injEq] at h
  obtain ⟨⟨evidence, _⟩, hauthorized, _, ⟨-, -, -, -, -, -, rfl⟩, -, rfl⟩ := h
  obtain ⟨-, hevidence, howns, hprocessing, hfenced, -⟩ :=
    authorizeStaleOutputDelete_eq_ok hauthorized
  exact ⟨evidence, hevidence, howns, hprocessing, hfenced, rfl⟩

/-- A finished stale recovery fails the job and keeps the fence. -/
theorem acknowledgeStaleOutputDelete_cases {prior : Nat}
    (h : rows.acknowledgeStaleOutputDelete claim prior now = .ok ((), rows')) :
    ∃ evidence, rows.evidence = some evidence ∧ Owns claim evidence ∧
      rows.job.status = .processing ∧ fenced evidence ∧
      rows' = { rows with
        job := { rows.job with
          status := .failed, safeErrorCode := some .demoStaleJobFailed, updatedAt := now }
        evidence := some { evidence with
          outputState := .cleanupRequired, safeErrorCode := some demoStaleRecoveryFenceCode
          updatedAt := now } } := by
  simp only [acknowledgeStaleOutputDelete, bind_eq_ok, saveEvidence_eq_ok,
    terminalizeLockedJob_eq_ok, pure_eq_ok, Prod.mk.injEq] at h
  obtain ⟨⟨evidence, _⟩, hauthorized, _, ⟨-, -, -, -, -, -, rfl⟩, _, ⟨-, -, -, rfl⟩, -, rfl⟩ := h
  obtain ⟨-, hevidence, howns, hprocessing, hfenced, -⟩ :=
    authorizeStaleOutputDelete_eq_ok hauthorized
  exact ⟨evidence, hevidence, howns, hprocessing, hfenced, rfl⟩

theorem issuanceClaimForRecovery_eq_some {evidence : DemoIssuanceResult}
    {recovered : ProcessingClaim} (h : rows.issuanceClaimForRecovery evidence = some recovered) :
    recovered = rows.claimOf evidence evidence.ownerToken := by
  simp only [issuanceClaimForRecovery] at h
  split at h
  · simp at h
  split at h
  · simpa using h.symm
  · simp at h

/-- What `_prepare_stale_recovery` can do to a job. -/
inductive Recovered (rows : IssuanceRows) (recoveryToken : UUID) (now : Instant) :
    StaleRecovery → IssuanceRows → Prop
  | skipped : Recovered rows recoveryToken now .skipped rows
  | tombstone (evidence : DemoIssuanceResult) (hevidence : rows.evidence = some evidence)
      (hfailed : rows.job.status = .failed) (hfenced : fenced evidence) :
      Recovered rows recoveryToken now (.tombstone (rows.claimOf evidence evidence.ownerToken)) rows
  | replayed (evidence : DemoIssuanceResult) (code : Option SafeErrorCode) (job' : Job)
      (hevidence : rows.evidence = some evidence) (hprocessing : rows.job.status = .processing)
      (hcommitted : evidence.outputState = .committed) (hworked : Worked rows.job job') :
      Recovered rows recoveryToken now (.finished code) { rows with job := job' }
  | claimed (evidence : DemoIssuanceResult) (hevidence : rows.evidence = some evidence)
      (hprocessing : rows.job.status = .processing)
      (hstate : evidence.outputState = .uploading ∨ evidence.outputState = .cleanupRequired) :
      Recovered rows recoveryToken now
        (.cleanup { rows.claimOf evidence evidence.ownerToken with ownerToken := recoveryToken }
          evidence.cleanupFailures)
        { rows with
          evidence := some { evidence with
            ownerToken := recoveryToken, outputState := .cleanupRequired
            safeErrorCode := some demoStaleRecoveryFenceCode, updatedAt := now } }
  | recorded (evidence : DemoIssuanceResult) (rows' : IssuanceRows)
      (hevidence : rows.evidence = some evidence) (hprocessing : rows.job.status = .processing)
      (hstate : evidence.outputState = .reserved ∨ evidence.outputState = .cleaned)
      (hrecord : rows.recordFailedJob (rows.claimOf evidence evidence.ownerToken)
        .demoStaleJobFailed 0 now = .ok ((), rows')) :
      Recovered rows recoveryToken now (.finished (some .demoStaleJobFailed)) rows'

/-- The claim on an output that is handed over is the one of its evidence. -/
theorem Recovered.of_transfer {recoveryToken : UUID} {evidence : DemoIssuanceResult}
    {result : ProcessingClaim × Nat} (hevidence : rows.evidence = some evidence)
    (hprocessing : rows.job.status = .processing)
    (h : rows.claimStaleOutputRecovery (rows.claimOf evidence evidence.ownerToken) recoveryToken
      now = .ok (result, rows')) :
    Recovered rows recoveryToken now (.cleanup result.1 result.2) rows' := by
  obtain ⟨e, he, -, -, hstate, rfl, rfl⟩ := claimStaleOutputRecovery_cases h
  obtain rfl : evidence = e := Option.some.inj (hevidence.symm.trans he)
  exact .claimed evidence hevidence hprocessing hstate

/-- What is recovered depends on the state of the output. -/
theorem recoverStaleProcessing_cases {settings : Settings} {recoveryToken : UUID}
    {evidence : DemoIssuanceResult} {result : StaleRecovery}
    (hevidence : rows.evidence = some evidence) (hprocessing : rows.job.status = .processing)
    (h : rows.recoverStaleProcessing settings recoveryToken now evidence
      (rows.claimOf evidence evidence.ownerToken) = .ok (result, rows')) :
    Recovered rows recoveryToken now result rows' := by
  unfold recoverStaleProcessing at h
  split at h
  · rename_i hcommitted
    split at h <;> simp only [bind_eq_ok, pure_eq_ok, Prod.mk.injEq] at h <;>
      obtain ⟨job, hjob, rfl, rfl⟩ := h
    all_goals
      exact .replayed evidence _ job hevidence hprocessing hcommitted
        (terminalizeLockedJob_worked hjob (by simp) (by constructor <;> simp))
  · simp only [bind_eq_ok, pure_eq_ok, Prod.mk.injEq] at h
    obtain ⟨⟨transferred, _⟩, htransfer, rfl, rfl⟩ := h
    exact .of_transfer hevidence hprocessing htransfer
  · simp only [bind_eq_ok, pure_eq_ok, Prod.mk.injEq] at h
    obtain ⟨⟨transferred, _⟩, htransfer, rfl, rfl⟩ := h
    exact .of_transfer hevidence hprocessing htransfer
  · rename_i hreserved
    simp only [bind_eq_ok, pure_eq_ok, Prod.mk.injEq] at h
    obtain ⟨⟨_, _⟩, hrecord, rfl, rfl⟩ := h
    exact .recorded evidence _ hevidence hprocessing (.inl hreserved) hrecord
  · rename_i hcleaned
    simp only [bind_eq_ok, pure_eq_ok, Prod.mk.injEq] at h
    obtain ⟨⟨_, _⟩, hrecord, rfl, rfl⟩ := h
    exact .recorded evidence _ hevidence hprocessing (.inr hcleaned) hrecord

theorem prepareStaleRecovery_cases {settings : Settings} {staleBefore : Instant}
    {recoveryToken : UUID} {result : StaleRecovery}
    (h : rows.prepareStaleRecovery settings staleBefore recoveryToken now = .ok (result, rows')) :
    Recovered rows recoveryToken now result rows' := by
  unfold prepareStaleRecovery at h
  -- without evidence, or without a claim to recover, nothing is done
  rcases hevidence : rows.evidence with _ | evidence
  · simp only [hevidence, pure_eq_ok, Prod.mk.injEq] at h
    obtain ⟨rfl, rfl⟩ := h
    exact .skipped
  simp only [hevidence] at h
  rcases hclaim : rows.issuanceClaimForRecovery evidence with _ | recovered
  · have hskipped : result = .skipped ∧ rows' = rows := by
      simp only [hclaim, Option.isSome_none, Bool.false_eq_true, and_false, if_false] at h
      split at h <;> simp only [pure_eq_ok, Prod.mk.injEq] at h <;> exact ⟨h.1.symm, h.2.symm⟩
    obtain ⟨rfl, rfl⟩ := hskipped
    exact .skipped
  obtain rfl := issuanceClaimForRecovery_eq_some hclaim
  simp only [hclaim, Option.isSome_some, and_true] at h
  split at h
  · rename_i htombstone
    simp only [Option.elim_some, pure_eq_ok, Prod.mk.injEq] at h
    obtain ⟨rfl, rfl⟩ := h
    exact .tombstone evidence hevidence htombstone.2.1 htombstone.2.2
  split at h
  · simp only [pure_eq_ok, Prod.mk.injEq] at h
    obtain ⟨rfl, rfl⟩ := h
    exact .skipped
  rename_i hstale
  simp only [ne_eq, not_or, not_not, not_le] at hstale
  exact recoverStaleProcessing_cases hevidence hstale.1 h

end IssuanceRows

end Splitbind
