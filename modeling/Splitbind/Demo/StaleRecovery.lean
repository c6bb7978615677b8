import Splitbind.Demo.IssuanceCleanup
import Splitbind.Demo.VerificationCommit
import Splitbind.Library.RetryQueue
import Splitbind.Library.Table

/-!
# Stale recovery — `reconcile_stale_jobs` over all jobs

A call selects the oldest stale jobs up to its limit, of both kinds, and recovers one after the
other.  A job in processing whose evidence is trusted ends; a failed job that keeps the fence has
its output deleted once more and stays as it is.
-/

namespace Splitbind

open Transaction

/-! ## 1. Selection -/

/-- A job with the rows that belong to it. -/
inductive StaleJob
  | issuance (rows : IssuanceRows)
  | verification (rows : VerificationRows)
deriving DecidableEq

namespace StaleJob

def job : StaleJob → Job
  | .issuance rows => rows.job
  | .verification rows => rows.job

/-- `has_demo_issuance_owner` or `has_demo_verification_owner`. -/
def hasOwner : StaleJob → Bool
  | .issuance rows => rows.evidence.isSome
  | .verification rows => rows.result.isSome

/-- `has_demo_issuance_tombstone`. -/
def hasTombstone : StaleJob → Bool
  | .issuance rows => rows.evidence.any fun evidence ↦ IssuanceRows.fenced evidence
  | .verification _ => false

/-- The filter of the query. -/
def selected (staleBefore : Instant) (stale : StaleJob) : Bool :=
  stale.hasOwner && stale.job.status = .processing && stale.job.updatedAt < staleBefore ||
    stale.hasTombstone && stale.job.status = .failed

/-- `order_by("updated_at", "id")`. -/
def before (a b : StaleJob) : Prop :=
  a.job.updatedAt < b.job.updatedAt ∨
    a.job.updatedAt = b.job.updatedAt ∧ a.job.id.value ≤ b.job.id.value

instance (a b : StaleJob) : Decidable (a.before b) := inferInstanceAs (Decidable (_ ∨ _))

end StaleJob

/-- The jobs the query returns, before its limit. -/
def staleCandidates (staleBefore : Instant) (jobs : List StaleJob) : List StaleJob :=
  (jobs.filter (StaleJob.selected staleBefore)).insertionSort StaleJob.before

/-! ## 2. Recovering one job -/

/-- What a recovery reads: the fresh owner token, the times its two transactions stamp their rows
with, and the elapsed time of a failed verification. -/
structure RecoveryReading where
  token : UUID
  preparedAt : Instant
  acknowledgedAt : Instant
  processingMs : Nat

/-- `StaleRecoveryResult`; the code of a finished job is `none` for "OK". -/
structure StaleRecoveryResult where
  jobId : UUID
  kind : JobKind
  safeCode : Option SafeErrorCode
deriving DecidableEq, Repr

section Recovery

variable (settings : Settings) (deletes : ObjectKey → Bool) (staleBefore : Instant)
  (reading : RecoveryReading)

/-- `_recover_stale_job` on an issuance job, with the rows its transactions leave. -/
def IssuanceRows.recoverStaleJob (rows : IssuanceRows) :
    Except Raised (Option StaleRecoveryResult) × IssuanceRows :=
  let result (code : Option SafeErrorCode) : StaleRecoveryResult := ⟨rows.job.id, .issuance, code⟩
  match rows.prepareStaleRecovery settings staleBefore reading.token reading.preparedAt with
  | .error error => (.error error, rows)
  | .ok (.skipped, rows) => (.ok none, rows)
  | .ok (.finished code, rows) => (.ok (some (result code)), rows)
  | .ok (.tombstone claim, rows) =>
    if deletes claim.outputObjectKey then
      (.ok (some (result (some .demoStaleJobFailed))), rows)
    else
      (.ok (some (result (some .demoStaleOutputCleanupFailed))), rows)
  | .ok (.cleanup claim prior, rows) =>
    match rows.authorizeStaleOutputDelete claim prior with
    | .error error => (.error error, rows)
    | .ok _ =>
      if deletes claim.outputObjectKey then
        match rows.acknowledgeStaleOutputDelete claim prior reading.acknowledgedAt with
        | .error error => (.error error, rows)
        | .ok (_, rows) => (.ok (some (result (some .demoStaleJobFailed))), rows)
      else
        match rows.recordStaleOutputDeleteFailure claim prior reading.acknowledgedAt with
        | .error error => (.error error, rows)
        | .ok (_, rows) => (.ok (some (result (some .demoStaleOutputCleanupFailed))), rows)

/-- `_recover_stale_job` on a verification job. -/
def VerificationRows.recoverStaleJob (db : SourceDatabase) (rows : VerificationRows) :
    Except Raised (Option StaleRecoveryResult) × VerificationRows :=
  match rows.prepareStaleRecovery settings db staleBefore reading.processingMs
      reading.preparedAt with
  | .error error => (.error error, rows)
  | .ok (.skipped, rows) => (.ok none, rows)
  | .ok (.finished code, rows) => (.ok (some ⟨rows.job.id, .verification, code⟩), rows)

/-- `_recover_stale_job`. -/
def StaleJob.recover (db : SourceDatabase) :
    StaleJob → Except Raised (Option StaleRecoveryResult) × StaleJob
  | .issuance rows =>
    let (outcome, rows) := rows.recoverStaleJob settings deletes staleBefore reading
    (outcome, .issuance rows)
  | .verification rows =>
    let (outcome, rows) := rows.recoverStaleJob settings staleBefore reading db
    (outcome, .verification rows)

end Recovery

/-! ## 3. A call -/

/-- `MAX_STALE_RECONCILIATION_LIMIT`. -/
def maxStaleReconciliationLimit : Nat := 100

section Call

variable (settings : Settings) (db : SourceDatabase) (deletes : ObjectKey → Bool)
  (staleBefore : Instant) (readings : UUID → RecoveryReading)

/-- The loop of `reconcile_stale_jobs` over the selected ids; an exception ends it, and what was
committed before stays. -/
def recoverEach : List UUID → List StaleJob →
    Except Raised (List StaleRecoveryResult) × List StaleJob
  | [], jobs => (.ok [], jobs)
  | id :: ids, jobs =>
    match jobs.find? (·.job.id = id) with
    | none => recoverEach ids jobs
    | some stale =>
      let (outcome, stale) := stale.recover settings deletes staleBefore (readings id) db
      let jobs := Table.save (·.job.id) jobs stale
      match outcome with
      | .error error => (.error error, jobs)
      | .ok result =>
        let (results, jobs) := recoverEach ids jobs
        (results.map (result.toList ++ ·), jobs)

/-- `reconcile_stale_jobs`, with the jobs it leaves. -/
def reconcileStaleJobs (enabled : Bool) (limit : Int) (jobs : List StaleJob) :
    Except Raised (List StaleRecoveryResult) × List StaleJob :=
  if enabled = false then
    (.ok [], jobs)
  else if ¬ (1 ≤ limit ∧ limit ≤ maxStaleReconciliationLimit) then
    (.error (.value "stale reconciliation limit is out of bounds"), jobs)
  else
    recoverEach settings db deletes staleBefore readings
      (((staleCandidates staleBefore jobs).take limit.toNat).map (·.job.id)) jobs

end Call

/-! ## 4. Recovering an issuance job -/

namespace IssuanceRows

variable {rows : IssuanceRows} {evidence : DemoIssuanceResult} {settings : Settings}
  {deletes : ObjectKey → Bool} {staleBefore now : Instant} {reading : RecoveryReading}

/-- A job in processing with evidence the recovery trusts; an output that is still to be cleaned
is not the issuance's. -/
structure Recoverable (rows : IssuanceRows) (evidence : DemoIssuanceResult) : Prop where
  loaded : rows.evidence = some evidence
  trusted : rows.issuanceClaimForRecovery evidence ≠ none
  processing : rows.job.status = .processing
  output : evidence.outputState = .uploading ∨ evidence.outputState = .cleanupRequired →
    rows.issuance.outputObjectKey = none ∧ rows.issuance.outputSha256 = none

/-- What trusting the evidence of an issuance job means. -/
structure Trusted (rows : IssuanceRows) (evidence : DemoIssuanceResult) : Prop where
  bound : rows.Bound
  owns : Owns (rows.claimOf evidence evidence.ownerToken) evidence
  attempt : evidence.attempt ≤ 2
  cleanupFailures : evidence.cleanupFailures ≤ DemoIssuanceResult.positiveSmallIntegerMax
  clean : evidence.clean rows.job rows.issuance = .ok ()

theorem trusted_of_claim (h : rows.issuanceClaimForRecovery evidence ≠ none) :
    rows.Trusted evidence := by
  unfold issuanceClaimForRecovery at h
  split at h
  · exact absurd rfl h
  rename_i hidentity
  simp only [ne_eq, not_or, not_not] at hidentity
  obtain ⟨horganization, -, hissuance, hattempt⟩ := hidentity
  dsimp only at h
  split at h
  · rename_i hchecks
    simp only [bind_eq_ok, exists_unit, validateClaimBinding_eq_ok] at hchecks
    obtain ⟨⟨hbound, -⟩, hfull⟩ := hchecks
    simp only [DemoIssuanceResult.fullClean, DemoIssuanceResult.cleanFields, bind_eq_ok,
      exists_unit, raiseIf_eq_ok, not_not, not_lt] at hfull
    obtain ⟨⟨hle, -, -, -, -, -, -, hfailures, -⟩, hclean, -⟩ := hfull
    have hissuanceId : evidence.issuanceId = rows.issuance.id :=
      Option.some.inj (hissuance.symm.trans hbound.issuanceId)
    exact ⟨hbound, ⟨horganization, hissuanceId, hattempt, rfl, rfl⟩, hle, hfailures, hclean⟩
  · exact absurd rfl h

/-- The owner of a trusted row gets past the locks, also after the row was saved again. -/
theorem Trusted.lockOwned (h : rows.Trusted evidence) {saved : DemoIssuanceResult}
    (hsame : DemoIssuanceResult.SameEvidence evidence saved) :
    { rows with evidence := some saved }.lockOwned (rows.claimOf evidence saved.ownerToken) =
      .ok saved := by
  have hbound : { rows with evidence := some saved }.Bound :=
    ⟨h.bound.kind, h.bound.issuanceId, h.bound.documentId, h.bound.issuanceOrganization,
      h.bound.documentOrganization⟩
  rw [lockOwned_eq_ok]
  exact ⟨hbound, ⟨rfl, rfl, rfl, rfl, rfl⟩, rfl,
    hsame.organizationId.trans h.owns.organizationId, hsame.issuanceId.trans h.owns.issuanceId,
    hsame.attempt.trans h.owns.attempt, rfl, hsame.outputObjectKey⟩

/-- A trusted row without a commit passes the checks of a save that keeps its identity. -/
theorem Trusted.savable (h : rows.Trusted evidence) (hstate : evidence.outputState ≠ .committed)
    {saved : DemoIssuanceResult} (hsame : DemoIssuanceResult.SameEvidence evidence saved)
    (huncommitted : saved.outputState ≠ .committed) (hdurable : saved.Durable)
    (hfailures : saved.cleanupFailures ≤ evidence.cleanupFailures) {job' : Job}
    (hjob : SameJob rows.job job') (hattempt : job'.attempt = rows.job.attempt) :
    saved.clean job' rows.issuance = .ok () ∧ saved.rowConstraints = .ok () := by
  have hclean := h.clean
  rw [DemoIssuanceResult.clean_eq_ok_of_uncommitted hstate] at hclean
  obtain ⟨hbinds, hclaims, -⟩ := hclean
  have hclaims' : saved.claimsSuccess = false := hsame.claimsSuccess.trans hclaims
  rw [DemoIssuanceResult.clean_eq_ok_of_uncommitted huncommitted,
    DemoIssuanceResult.rowConstraints_eq_ok_of_unclaimed huncommitted hclaims']
  exact ⟨⟨(hbinds.withEvidence hsame).withJob hjob hattempt, hclaims', hdurable⟩,
    hsame.attempt ▸ h.attempt, hfailures.trans h.cleanupFailures⟩

theorem Trusted.terminalize (h : rows.Trusted evidence) (hprocessing : rows.job.status = .processing)
    {status : JobStatus} (hstatus : status = .succeeded ∨ status = .failed)
    (code : Option SafeErrorCode) :
    terminalizeLockedJob rows.job status code now =
      .ok { rows.job with status := status, safeErrorCode := code, updatedAt := now } := by
  have hattempt : rows.job.attempt ≤ 2 := h.owns.attempt.ge.trans h.attempt
  rw [terminalizeLockedJob_eq_ok, hprocessing]
  rcases hstatus with rfl | rfl <;> exact ⟨hattempt, by decide, by simp, rfl⟩

/-! The five states of the evidence row. -/

theorem Recoverable.prepare (h : rows.Recoverable evidence)
    (hstale : rows.job.updatedAt < staleBefore) (token : UUID) :
    rows.prepareStaleRecovery settings staleBefore token now =
      rows.recoverStaleProcessing settings token now evidence
        (rows.claimOf evidence evidence.ownerToken) := by
  obtain ⟨claim, hclaim⟩ := Option.ne_none_iff_exists'.mp h.trusted
  have hfresh : ¬ rows.job.updatedAt ≥ staleBefore := hstale.not_ge
  simp only [prepareStaleRecovery, h.loaded, hclaim, h.processing, hfresh]
  rw [issuanceClaimForRecovery_eq_some hclaim, if_neg (by simp), if_neg (by simp)]

theorem Recoverable.committed (h : rows.Recoverable evidence)
    (hstate : evidence.outputState = .committed) (token : UUID) :
    ∃ code status, status ≠ JobStatus.processing ∧
      rows.recoverStaleProcessing settings token now evidence
          (rows.claimOf evidence evidence.ownerToken) =
        .ok (.finished code,
          { rows with job := { rows.job with
              status := status, safeErrorCode := code, updatedAt := now } }) := by
  have htrusted := trusted_of_claim h.trusted
  simp only [recoverStaleProcessing, hstate]
  split
  · refine ⟨none, .succeeded, by decide, ?_⟩
    rw [htrusted.terminalize h.processing (.inl rfl)]
    rfl
  · refine ⟨some .demoStaleResultInvalid, .failed, by decide, ?_⟩
    rw [htrusted.terminalize h.processing (.inr rfl)]
    rfl

/-- Recording the failure closes a reserved row, leaves a closed one closed, and fails the job. -/
theorem Recoverable.recordFailedJob (h : rows.Recoverable evidence)
    (hstate : evidence.outputState = .reserved ∨ evidence.outputState = .cleaned)
    {claim : ProcessingClaim} (hclaim : claim = rows.claimOf evidence evidence.ownerToken) :
    ∃ saved : DemoIssuanceResult, saved.outputState = .cleaned ∧
      rows.recordFailedJob claim .demoStaleJobFailed 0 now =
        .ok ((), { rows with
          job := { rows.job with
            status := .failed, safeErrorCode := some .demoStaleJobFailed, updatedAt := now }
          evidence := some saved }) := by
  have htrusted := trusted_of_claim h.trusted
  let failed := failedEvidence evidence .demoStaleJobFailed 0
  let job' : Job := { rows.job with
    status := .failed, safeErrorCode := some .demoStaleJobFailed, updatedAt := now }
  have hcleaned : failed.outputState = .cleaned := by
    rcases hstate with hstate | hstate <;> simp [failed, failedEvidence, hstate]
  have huncommitted : evidence.outputState ≠ .committed := by
    rcases hstate with hstate | hstate <;> rw [hstate] <;> decide
  have hallowed : failed.outputState ∈
      DemoIssuanceResult.allowedTransitions evidence.outputState := by
    rw [hcleaned]
    rcases hstate with hstate | hstate <;> rw [hstate] <;> decide
  have hsame : DemoIssuanceResult.SameEvidence evidence failed := ⟨rfl, rfl, rfl, rfl, rfl, rfl⟩
  have hsameJob : SameJob rows.job job' := ⟨rfl, rfl, rfl⟩
  obtain ⟨hclean, hrow⟩ := htrusted.savable huncommitted hsame (by rw [hcleaned]; decide)
    (fun hrequired ↦ absurd (hcleaned.symm.trans hrequired) (by decide)) (Nat.zero_le _)
    hsameJob rfl
  -- the row may be saved: it keeps its identity and takes an allowed transition
  have hsave : { rows with job := job' }.saveEvidence failed evidence now =
      .ok { failed with updatedAt := now } := by
    rw [saveEvidence_eq_ok]
    exact ⟨by simp [DemoIssuanceResult.identityChanged, failed, failedEvidence], rfl,
      huncommitted, hallowed, hclean, hrow, rfl⟩
  have howner : ¬ ∃ e ∈ rows.evidence, e.ownerToken ≠ claim.ownerToken ∧
      e.outputState = .cleanupRequired := by
    rw [h.loaded, hclaim]
    rintro ⟨_, he, hne, -⟩
    exact hne (Option.some.inj he ▸ rfl)
  have hjob : rows.lockedJob claim.jobId = .ok rows.job := by
    simp [lockedJob, htrusted.bound.issuanceId, raiseIf, hclaim, claimOf]
  refine ⟨{ failed with updatedAt := now }, hcleaned, ?_⟩
  rw [IssuanceRows.recordFailedJob, hjob, ok_bind, if_neg howner,
    lockedEvidence_eq_ok.mpr ⟨h.loaded, hclaim ▸ htrusted.owns⟩, ok_bind,
    if_neg (not_not.mpr h.processing), htrusted.terminalize h.processing (.inr rfl), ok_bind]
  exact congrArg (· >>= _) hsave

/-- The row a recovery has taken over. -/
def takenOver (evidence : DemoIssuanceResult) (token : UUID) (now : Instant) :
    DemoIssuanceResult :=
  { evidence with
    ownerToken := token, outputState := .cleanupRequired
    safeErrorCode := some demoStaleRecoveryFenceCode, updatedAt := now }

theorem takenOver_same (evidence : DemoIssuanceResult) (token : UUID) (now : Instant) :
    DemoIssuanceResult.SameEvidence evidence (takenOver evidence token now) :=
  ⟨rfl, rfl, rfl, rfl, rfl, rfl⟩

theorem takenOver_durable (evidence : DemoIssuanceResult) (token : UUID) (now : Instant) :
    (takenOver evidence token now).Durable :=
  fun _ ↦ ⟨_, rfl, .inl rfl⟩

section TakeOver

variable (h : rows.Recoverable evidence)
  (hstate : evidence.outputState = .uploading ∨ evidence.outputState = .cleanupRequired)
  {token : UUID}

include h hstate

theorem Recoverable.takesOver (hfresh : token ≠ evidence.ownerToken) :
    rows.recoverStaleProcessing settings token now evidence
        (rows.claimOf evidence evidence.ownerToken) =
      .ok (.cleanup (rows.claimOf evidence token) evidence.cleanupFailures,
        { rows with evidence := some (takenOver evidence token now) }) := by
  have htrusted := trusted_of_claim h.trusted
  have huncommitted : evidence.outputState ≠ .committed := by
    rcases hstate with hstate | hstate <;> rw [hstate] <;> decide
  have hallowed : DemoOutputState.cleanupRequired ∈
      DemoIssuanceResult.allowedTransitions evidence.outputState := by
    rcases hstate with hstate | hstate <;> rw [hstate] <;> decide
  have hlocked : rows.lockOwned (rows.claimOf evidence evidence.ownerToken) = .ok evidence := by
    rw [lockOwned_eq_ok]
    exact ⟨htrusted.bound, ⟨rfl, rfl, rfl, rfl, rfl⟩, h.loaded, htrusted.owns⟩
  obtain ⟨hclean, hrow⟩ := htrusted.savable huncommitted (takenOver_same evidence token now)
    (by simp [takenOver]) (takenOver_durable evidence token now) le_rfl ⟨rfl, rfl, rfl⟩ rfl
  have hclaimed : rows.claimStaleOutputRecovery (rows.claimOf evidence evidence.ownerToken) token
      now = .ok ((rows.claimOf evidence token, evidence.cleanupFailures),
        { rows with evidence := some (takenOver evidence token now) }) := by
    simp only [claimStaleOutputRecovery, bind_eq_ok, exists_unit, raiseIf_eq_ok, pure_eq_ok]
    refine ⟨hfresh, evidence, hlocked, by simp [h.processing, hstate, h.output hstate],
      takenOver evidence token now, ?_, rfl⟩
    rw [DemoIssuanceResult.save_eq_ok]
    exact ⟨rfl, .inr ⟨hfresh, rfl, by simp [DemoIssuanceResult.identityChanged], by simpa using hstate,
      rfl⟩, huncommitted, hallowed, hclean, hrow, rfl⟩
  rcases hstate with hstate | hstate <;>
  · simp only [recoverStaleProcessing, hstate]
    rw [hclaimed]
    rfl

theorem Recoverable.authorizeStaleOutputDelete :
    { rows with evidence := some (takenOver evidence token now) }.authorizeStaleOutputDelete
        (rows.claimOf evidence token) evidence.cleanupFailures =
      .ok (takenOver evidence token now,
        { rows with evidence := some (takenOver evidence token now) }) := by
  have hlocked : { rows with evidence := some (takenOver evidence token now) }.lockOwned
      (rows.claimOf evidence token) = .ok (takenOver evidence token now) :=
    (trusted_of_claim h.trusted).lockOwned (takenOver_same evidence token now)
  rw [IssuanceRows.authorizeStaleOutputDelete, hlocked, ok_bind, raiseIf_neg]
  · rfl
  · simp [h.processing, takenOver, h.output hstate]

/-- The acknowledged delete fails the job and keeps the fence. -/
theorem Recoverable.acknowledgeStaleOutputDelete {acknowledgedAt : Instant} :
    { rows with evidence := some (takenOver evidence token now) }.acknowledgeStaleOutputDelete
        (rows.claimOf evidence token) evidence.cleanupFailures acknowledgedAt =
      .ok ((), { rows with
        job := { rows.job with
          status := .failed, safeErrorCode := some .demoStaleJobFailed
          updatedAt := acknowledgedAt }
        evidence := some (takenOver evidence token acknowledgedAt) }) := by
  have htrusted := trusted_of_claim h.trusted
  have huncommitted : evidence.outputState ≠ .committed := by
    rcases hstate with hstate | hstate <;> rw [hstate] <;> decide
  obtain ⟨hclean, hrow⟩ := htrusted.savable huncommitted (takenOver_same evidence token now)
    (by simp [takenOver]) (takenOver_durable evidence token now) le_rfl ⟨rfl, rfl, rfl⟩ rfl
  have hsave : { rows with evidence := some (takenOver evidence token now) }.saveEvidence
      (takenOver evidence token now) (takenOver evidence token now) acknowledgedAt =
        .ok (takenOver evidence token acknowledgedAt) := by
    rw [saveEvidence_eq_ok]
    exact ⟨by simp [DemoIssuanceResult.identityChanged], rfl, by simp [takenOver],
      by simp [takenOver, DemoIssuanceResult.allowedTransitions], hclean, hrow, rfl⟩
  rw [IssuanceRows.acknowledgeStaleOutputDelete,
    Recoverable.authorizeStaleOutputDelete h hstate, ok_bind]
  simp only [bind_eq_ok, pure_eq_ok]
  exact ⟨_, hsave, _, htrusted.terminalize h.processing (.inr rfl) _, rfl⟩

end TakeOver

/-- A job in processing with a stored output ends with the fence, at the acknowledgement. -/
theorem Recoverable.recovers_stored (h : rows.Recoverable evidence)
    (hstate : evidence.outputState = .uploading ∨ evidence.outputState = .cleanupRequired)
    (hstale : rows.job.updatedAt < staleBefore) (hfresh : reading.token ≠ evidence.ownerToken)
    (hdeletes : ∀ key, deletes key = true) :
    rows.recoverStaleJob settings deletes staleBefore reading =
      (.ok (some ⟨rows.job.id, .issuance, some .demoStaleJobFailed⟩), { rows with
        job := { rows.job with
          status := .failed, safeErrorCode := some .demoStaleJobFailed
          updatedAt := reading.acknowledgedAt }
        evidence := some (takenOver evidence reading.token reading.acknowledgedAt) }) := by
  rw [recoverStaleJob, h.prepare hstale, h.takesOver hstate hfresh]
  simp only [h.authorizeStaleOutputDelete hstate, hdeletes, if_true,
    h.acknowledgeStaleOutputDelete hstate]

theorem Recoverable.recovers_unstored (h : rows.Recoverable evidence)
    (hstate : evidence.outputState = .reserved ∨ evidence.outputState = .cleaned)
    (hstale : rows.job.updatedAt < staleBefore) :
    ∃ saved : DemoIssuanceResult, saved.outputState = .cleaned ∧
      rows.recoverStaleJob settings deletes staleBefore reading =
        (.ok (some ⟨rows.job.id, .issuance, some .demoStaleJobFailed⟩), { rows with
          job := { rows.job with
            status := .failed, safeErrorCode := some .demoStaleJobFailed
            updatedAt := reading.preparedAt }
          evidence := some saved }) := by
  obtain ⟨saved, hcleaned, hrecord⟩ := h.recordFailedJob hstate rfl
  refine ⟨saved, hcleaned, ?_⟩
  rw [recoverStaleJob, h.prepare hstale]
  rcases hstate with hstate | hstate <;>
  · simp only [recoverStaleProcessing, hstate]
    rw [hrecord]
    rfl

/-- **A recoverable job ends** once its recovery is let through; what keeps the fence was
acknowledged. -/
theorem Recoverable.recovers (h : rows.Recoverable evidence) (settings : Settings)
    (hstale : rows.job.updatedAt < staleBefore) (hfresh : reading.token ≠ evidence.ownerToken)
    (hdeletes : ∀ key, deletes key = true) :
    ∃ result rows', rows.recoverStaleJob settings deletes staleBefore reading =
        (.ok (some result), rows') ∧ rows'.job.id = rows.job.id ∧
      rows'.job.status ≠ .processing ∧
      ((∀ saved ∈ rows'.evidence, ¬ fenced saved) ∨
        rows'.job.updatedAt = reading.acknowledgedAt) := by
  cases hstate : evidence.outputState with
  | committed =>
    obtain ⟨code, status, hstatus, hrecover⟩ := h.committed hstate reading.token
    rw [recoverStaleJob, h.prepare hstale, hrecover]
    refine ⟨_, _, rfl, rfl, hstatus, .inl fun saved hsaved hfenced ↦ ?_⟩
    obtain rfl : evidence = saved := Option.some.inj (h.loaded.symm.trans hsaved)
    exact absurd (hstate.symm.trans hfenced.1) (by decide)
  | uploading =>
    rw [h.recovers_stored (.inl hstate) hstale hfresh hdeletes]
    exact ⟨_, _, rfl, rfl, by simp, .inr rfl⟩
  | cleanupRequired =>
    rw [h.recovers_stored (.inr hstate) hstale hfresh hdeletes]
    exact ⟨_, _, rfl, rfl, by simp, .inr rfl⟩
  | reserved =>
    obtain ⟨saved, hcleaned, hrecover⟩ := h.recovers_unstored (.inl hstate) hstale
    rw [hrecover]
    refine ⟨_, _, rfl, rfl, by simp, .inl fun _ hsaved hfenced ↦ ?_⟩
    obtain rfl := Option.some.inj hsaved
    exact absurd (hcleaned.symm.trans hfenced.1) (by decide)
  | cleaned =>
    obtain ⟨saved, hcleaned, hrecover⟩ := h.recovers_unstored (.inr hstate) hstale
    rw [hrecover]
    refine ⟨_, _, rfl, rfl, by simp, .inl fun _ hsaved hfenced ↦ ?_⟩
    obtain rfl := Option.some.inj hsaved
    exact absurd (hcleaned.symm.trans hfenced.1) (by decide)

/-- A failed job with the fence has its output deleted once more, and nothing else happens. -/
theorem recoverStaleJob_fenced (settings : Settings) (hloaded : rows.evidence = some evidence)
    (hfailed : rows.job.status = .failed) (hdeletes : ∀ key, deletes key = true) :
    ∃ result, rows.recoverStaleJob settings deletes staleBefore reading = (.ok result, rows) := by
  have hprepare : ∃ recovery, rows.prepareStaleRecovery settings staleBefore reading.token
      reading.preparedAt = .ok (recovery, rows) ∧
      (recovery = .skipped ∨ ∃ claim, recovery = .tombstone claim) := by
    simp only [prepareStaleRecovery, hloaded]
    split
    · rename_i htombstone
      obtain ⟨claim, hclaim⟩ := Option.isSome_iff_exists.mp htombstone.2.2.2
      rw [hclaim]
      exact ⟨_, rfl, .inr ⟨claim, rfl⟩⟩
    · rw [if_pos (.inl (by rw [hfailed]; decide))]
      exact ⟨_, rfl, .inl rfl⟩
  obtain ⟨recovery, hprepare, rfl | ⟨claim, rfl⟩⟩ := hprepare
  · rw [recoverStaleJob, hprepare]
    exact ⟨_, rfl⟩
  · rw [recoverStaleJob, hprepare]
    simp only [hdeletes, if_true]
    exact ⟨_, rfl⟩

end IssuanceRows

/-! ## 5. Recovering a verification job -/

namespace DemoVerificationResult

variable {record : DemoVerificationResult}

/-- A member of an object that has all of them is there. -/
theorem member_eq_ok {object : JsonObject} {keys : List String} (h : sameKeys object keys = true)
    {name : String} (hname : name ∈ keys) : ∃ value, member object name = .ok value := by
  rw [sameKeys, Bool.and_eq_true] at h
  have hmem : name ∈ object.keys := List.contains_iff_mem.mp (List.all_eq_true.mp h.2 name hname)
  obtain ⟨entry, hentry, rfl⟩ := List.mem_map.mp hmem
  have hfound : (object.find? fun member ↦ member.1 = entry.1).isSome = true :=
    List.find?_isSome.mpr ⟨entry, hentry, by simp⟩
  obtain ⟨found, hfound⟩ := Option.isSome_iff_exists.mp hfound
  exact ⟨found.2, by rw [member, JsonObject.get, hfound]; rfl⟩

/-- A committed row that `clean` accepts has every member a result is published with. -/
theorem toResult_eq_ok {job : Job} {verification : Verification}
    {recoveredOrganization : Option UUID}
    (hclean : record.clean job verification recoveredOrganization = .ok ())
    (hcommitted : record.resultState = .committed) (settings : Settings) :
    ∃ result, record.toResult settings = .ok result := by
  simp only [clean, hcommitted, bind_eq_ok, exists_unit, raiseIf_eq_ok, not_or, not_not] at hclean
  obtain ⟨-, -, -, ⟨hevidence, hmetrics⟩, -⟩ := hclean
  have hmember : ∀ name ∈ demoVerificationEvidenceKeys,
      ∃ value, member record.evidence name = .ok value := fun name ↦ member_eq_ok hevidence
  have hmetric : ∀ name ∈ demoVerificationMetricKeys,
      ∃ value, member record.metrics name = .ok value := fun name ↦ member_eq_ok hmetrics
  simp only [demoVerificationEvidenceKeys, List.forall_mem_cons] at hmember
  simp only [demoVerificationMetricKeys, List.forall_mem_cons] at hmetric
  obtain ⟨⟨_, hlabel⟩, ⟨_, hdecode⟩, ⟨_, hconfidence⟩, ⟨_, hvotes⟩, ⟨_, hpages⟩, ⟨_, hsignature⟩,
    ⟨_, hexact⟩, ⟨_, hlimitations⟩, -⟩ := hmember
  obtain ⟨⟨_, hms⟩, -, ⟨_, hfailures⟩, -⟩ := hmetric
  rw [toResult, hlimitations, hexact]
  cases settings.integrityMode <;>
  · simp only [if_true, Bool.false_eq_true, if_false, ok_bind, hlabel, hdecode, hconfidence, hvotes,
      hpages, hsignature, hms, hfailures, pure_bind]
    exact ⟨_, rfl⟩

end DemoVerificationResult

namespace VerificationRows

variable {rows : VerificationRows} {record : DemoVerificationResult} {settings : Settings}
  {db : SourceDatabase} {staleBefore now : Instant} {reading : RecoveryReading}

/-- A job in processing with a result the recovery trusts and a requester of its organization. -/
structure Recoverable (rows : VerificationRows) (db : SourceDatabase)
    (record : DemoVerificationResult) : Prop where
  loaded : rows.result = some record
  trusted : rows.verificationClaimForRecovery db record ≠ none
  processing : rows.job.status = .processing
  state : record.resultState = .reserved ∨ record.resultState = .committed
  requester : rows.requesterOrganizationId = rows.verification.organizationId

/-- What trusting the result of a verification job means. -/
structure Trusted (rows : VerificationRows) (db : SourceDatabase)
    (record : DemoVerificationResult) : Prop where
  claim : rows.verificationClaimForRecovery db record = some (rows.claimOf record.ownerToken)
  organizationId : record.organizationId = rows.job.organizationId
  verificationId : record.verificationId = rows.verification.id
  attempt : record.attempt = rows.job.attempt
  binding : rows.validateClaimBinding (rows.claimOf record.ownerToken) = .ok ()
  fullClean : record.fullClean rows.job rows.verification
    (record.recoveredIssuanceId.bind db.organizationOf) = .ok ()

theorem trusted_of_claim (h : rows.verificationClaimForRecovery db record ≠ none) :
    rows.Trusted db record := by
  obtain ⟨claim, hclaim⟩ := Option.ne_none_iff_exists'.mp h
  have hfound := hclaim
  unfold verificationClaimForRecovery at hclaim
  split at hclaim
  · cases hclaim
  rename_i hidentity
  simp only [ne_eq, not_or, not_not] at hidentity
  obtain ⟨horganization, -, hverification, hattempt⟩ := hidentity
  dsimp only at hclaim
  split at hclaim
  · rename_i hchecks
    simp only [bind_eq_ok, exists_unit] at hchecks
    obtain ⟨hbinding, hfull⟩ := hchecks
    have hid : rows.job.verificationId = some rows.verification.id := by
      simp only [validateClaimBinding, validateLockedBinding, bind_eq_ok, exists_unit,
        raiseIf_eq_ok, not_not] at hbinding
      exact hbinding.1.1
    rw [← hclaim] at hfound
    exact ⟨hfound, horganization, Option.some.inj (hverification.symm.trans hid), hattempt,
      hbinding, hfull⟩
  · cases hclaim

theorem Trusted.attempt_le (h : rows.Trusted db record) : rows.job.attempt ≤ 2 := by
  have hfull := h.fullClean
  simp only [DemoVerificationResult.fullClean, bind_eq_ok, exists_unit, raiseIf_eq_ok,
    not_not] at hfull
  exact h.attempt.ge.trans hfull.1

theorem Trusted.clean (h : rows.Trusted db record) :
    record.clean rows.job rows.verification (record.recoveredIssuanceId.bind db.organizationOf) =
      .ok () := by
  have hfull := h.fullClean
  simp only [DemoVerificationResult.fullClean, bind_eq_ok, exists_unit] at hfull
  exact hfull.2.2.1

theorem Trusted.terminalize (h : rows.Trusted db record)
    (hprocessing : rows.job.status = .processing) {status : JobStatus}
    (hstatus : status = .succeeded ∨ status = .failed) (code : Option SafeErrorCode) :
    terminalizeLockedJob rows.job status code now =
      .ok { rows.job with status := status, safeErrorCode := code, updatedAt := now } := by
  rw [terminalizeLockedJob_eq_ok, hprocessing]
  rcases hstatus with rfl | rfl <;> exact ⟨h.attempt_le, by decide, by simp, rfl⟩

theorem Trusted.lockOwned (h : rows.Trusted db record) (hloaded : rows.result = some record) :
    rows.lockOwned (rows.claimOf record.ownerToken) = .ok record := by
  have hid : rows.job.verificationId ≠ none := by
    have hbinding := h.binding
    simp only [validateClaimBinding, validateLockedBinding, bind_eq_ok, exists_unit, raiseIf_eq_ok,
      not_not] at hbinding
    simp [hbinding.1.1]
  have hjob : rows.lockedJob rows.job.id = .ok rows.job := by
    simp [lockedJob, raiseIf, hid]
  have hresult : rows.lockedResult (rows.claimOf record.ownerToken) = .ok record := by
    simp [lockedResult, hloaded, raiseIf, claimOf, h.organizationId, h.verificationId, h.attempt]
  rw [VerificationRows.lockOwned, show (rows.claimOf record.ownerToken).jobId = rows.job.id from rfl,
    hjob, ok_bind, h.binding, ok_bind, hresult]

/-- A committed result can be replayed, or is refused as invalid. -/
theorem Trusted.loadReplayResult (h : rows.Trusted db record) (hloaded : rows.result = some record)
    (hcommitted : record.resultState = .committed) (settings : Settings) :
    (∃ result, rows.loadReplayResult settings db = .ok result) ∨
      rows.loadReplayResult settings db =
        .error (demoVerificationError .demoVerificationResultInvalid) := by
  rw [VerificationRows.loadReplayResult, hloaded, found_some, ok_bind]
  obtain ⟨result, hresult⟩ :=
    DemoVerificationResult.toResult_eq_ok h.clean hcommitted settings
  rw [raiseIf]
  split
  · exact .inr rfl
  · left
    rw [h.fullClean, hresult]
    split <;> exact ⟨result, rfl⟩

/-- Recording the failure closes a reserved row and fails the job. -/
theorem Recoverable.recordFailedJob (h : rows.Recoverable db record)
    (hreserved : record.resultState = .reserved) (processingMs : Nat) :
    ∃ verification failed, rows.recordFailedJob (rows.claimOf record.ownerToken) .demoStaleJobFailed
        0 processingMs now =
      .ok ((), { rows with
        job := { rows.job with
          status := .failed, safeErrorCode := some .demoStaleJobFailed, updatedAt := now }
        verification := verification
        result := some failed }) := by
  have htrusted := trusted_of_claim h.trusted
  let failed := record.failedWith .demoStaleJobFailed 0 processingMs now
  let verification : Verification :=
    { rows.commitVerification failed with recoveredIssuanceId := none }
  have hclean := htrusted.clean
  simp only [DemoVerificationResult.clean, hreserved, bind_eq_ok, exists_unit, raiseIf_eq_ok,
    not_or, not_not, ne_eq] at hclean
  obtain ⟨⟨hjob, hverification, -⟩, ⟨hkind, hid, hattempt⟩, hempty⟩ := hclean
  have hfailed : failed.clean rows.job verification none = .ok () := by
    simp [DemoVerificationResult.clean, failed, DemoVerificationResult.failedWith, verification,
      commitVerification, hjob, hverification, hkind, hid, hattempt, hempty.2.2.1]
  have hupload : rows.upload.organizationId = rows.verification.organizationId := by
    obtain ⟨-, -, -, hverification, hupload⟩ :=
      Splitbind.lockOwned_eq_ok (htrusted.lockOwned h.loaded)
    exact hupload.trans hverification.symm
  have hsaved : rows.saveVerification verification none = .ok verification := by
    simp [saveVerification, verification, commitVerification, raiseIf, hupload, h.requester]
  have hrow : failed.save record rows.job verification none now =
      .ok { failed with updatedAt := now } := by
    rw [DemoVerificationResult.save_eq_ok]
    refine ⟨by simp [DemoVerificationResult.identityChanged, failed,
      DemoVerificationResult.failedWith], hreserved, by simp [failed,
      DemoVerificationResult.failedWith], hfailed, ?_, rfl⟩
    have hle : record.attempt ≤ 2 := htrusted.attempt.le.trans htrusted.attempt_le
    simpa [DemoVerificationResult.rowConstraints, failed, DemoVerificationResult.failedWith] using hle
  refine ⟨verification, { failed with updatedAt := now }, ?_⟩
  rw [VerificationRows.recordFailedJob, htrusted.lockOwned h.loaded, ok_bind,
    if_neg (not_not.mpr h.processing)]
  simp only [bind_eq_ok, pure_eq_ok]
  exact ⟨verification, hsaved, _, hrow, _, htrusted.terminalize h.processing (.inr rfl) _, rfl⟩

/-- **A recoverable verification ends** once it is recovered. -/
theorem Recoverable.recovers (h : rows.Recoverable db record) (settings : Settings)
    (reading : RecoveryReading) (hstale : rows.job.updatedAt < staleBefore) :
    ∃ result rows', rows.recoverStaleJob settings staleBefore reading db =
        (.ok (some result), rows') ∧ rows'.job.id = rows.job.id ∧
      rows'.job.status ≠ .processing := by
  have htrusted := trusted_of_claim h.trusted
  have hprepare : rows.prepareStaleRecovery settings db staleBefore reading.processingMs
      reading.preparedAt = rows.recoverStaleProcessing settings db reading.processingMs
        reading.preparedAt record (rows.claimOf record.ownerToken) := by
    have hfresh : ¬ (rows.job.status ≠ .processing ∨ rows.job.updatedAt ≥ staleBefore) := by
      simp [h.processing, hstale]
    simp only [prepareStaleRecovery, h.loaded, if_neg hfresh, htrusted.claim]
  rw [recoverStaleJob, hprepare]
  rcases h.state with hstate | hstate
  · obtain ⟨verification, failed, hrecord⟩ := h.recordFailedJob hstate reading.processingMs
    simp only [recoverStaleProcessing, hstate]
    rw [hrecord]
    exact ⟨_, _, rfl, rfl, by simp⟩
  · rcases htrusted.loadReplayResult h.loaded hstate settings with ⟨result, hreplay⟩ | hreplay
    · simp only [recoverStaleProcessing, hstate, hreplay]
      rw [htrusted.terminalize h.processing (.inl rfl)]
      exact ⟨_, _, rfl, rfl, by simp⟩
    · simp only [recoverStaleProcessing, hstate, hreplay]
      rw [raiseIf_neg (by simp [demoVerificationError]), ok_bind,
        htrusted.terminalize h.processing (.inr rfl)]
      exact ⟨_, _, rfl, rfl, by simp⟩

end VerificationRows

end Splitbind
