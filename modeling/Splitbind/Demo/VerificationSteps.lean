import Splitbind.Demo.IssuanceSteps
import Splitbind.Demo.VerificationWorker

/-!
# Verification steps — what one step of a worker does to the rows

`Moves` lists the effects of the transactions on the job and its result row; `call_moves` derives
it from the program once, and every invariant of the pool is a case analysis on it.
-/

namespace Splitbind

open Transaction

namespace VerificationRows

variable {rows rows' : VerificationRows} {claim : VerificationClaim} {now : Instant}

/-! ## 1. The effects -/

/-- The rows after a commit or a failure that stores `record` and leaves the job in `status`. -/
def finished (rows : VerificationRows) (status : JobStatus) (code : Option SafeErrorCode)
    (record : DemoVerificationResult) (verification : Verification)
    (receipts : List JobResultReceipt) (now : Instant) : VerificationRows :=
  { rows with
    job := { rows.job with status := status, safeErrorCode := code, updatedAt := now }
    verification := verification
    result := some record
    receipts := receipts }

/-- The verification repeats what the result row says. -/
structure Mirrors (verification : Verification) (record : DemoVerificationResult) : Prop where
  status : verification.status = record.resultStatus
  recoveredIssuanceId : verification.recoveredIssuanceId = record.recoveredIssuanceId
  evidence : verification.evidence = record.evidence
  metrics : verification.metrics = record.metrics
  completedAt : verification.completedAt = record.completedAt

/-- What one transaction can do to the rows. -/
inductive Moves (rows : VerificationRows) : VerificationRows → Prop
  | kept : Moves rows rows
  | unclaimed (policy : ClaimPolicy) (now : Instant) (job' : Job)
      (hclaim : claimJob policy now rows.job = .ok (false, job')) (hcoded : policy.Coded) :
      Moves rows { rows with job := job' }
  | claimed (record : DemoVerificationResult) (now : Instant)
      (hqueued : rows.job.status = .queued) (hcancel : rows.job.cancelRequestedAt = none)
      (hnone : rows.result = none) (hreserved : record.resultState = .reserved) :
      Moves rows { rows with
        job := { rows.job with status := .processing, updatedAt := now }, result := some record }
  | created (record : DemoVerificationResult) (hprocessing : rows.job.status = .processing)
      (hnone : rows.result = none) (hreserved : record.resultState = .reserved) :
      Moves rows { rows with result := some record }
  /-- The row of a cancelled job is closed with it, even when it has just been created. -/
  | cancelled (old record : DemoVerificationResult) (now : Instant)
      (hresult : rows.result = some old ∨ rows.result = none)
      (hprocessing : rows.job.status = .processing) (hcancel : rows.job.cancelRequestedAt ≠ none)
      (hstate : record.resultState = .cancelled) (hsame : ¬ record.identityChanged old) :
      Moves rows (rows.finished .cancelled none record rows.verification rows.receipts now)
  | committed (old record : DemoVerificationResult) (verification : Verification)
      (organizationId : UUID) (now : Instant) (hresult : rows.result = some old)
      (hprocessing : rows.job.status = .processing) (hcancel : rows.job.cancelRequestedAt = none)
      (hstate : record.resultState = .committed) (hsame : ¬ record.identityChanged old)
      (hmirrors : Mirrors verification record)
      (hrequester : verification.requestedById = rows.verification.requestedById) :
      Moves rows (rows.finished .succeeded none record verification
        (rows.receipts ++ [⟨receiptId rows.job, organizationId, rows.job.id⟩]) now)
  | failed (code : SafeErrorCode) (old record : DemoVerificationResult)
      (verification : Verification) (now : Instant) (hresult : rows.result = some old)
      (hprocessing : rows.job.status = .processing) (hstate : record.resultState = .failed)
      (hsame : ¬ record.identityChanged old) (hcode : record.safeErrorCode = some code)
      (hstatus : verification.status = some .processingFailed)
      (hrequester : verification.requestedById = rows.verification.requestedById) :
      Moves rows (rows.finished .failed (some code) record verification rows.receipts now)
  | replayed (record : DemoVerificationResult) (job' : Job) (hresult : rows.result = some record)
      (hcommitted : record.resultState = .committed)
      (hprocessing : rows.job.status = .processing) (hworked : Worked rows.job job') :
      Moves rows { rows with job := job' }

/-! ## 2. The transactions have these effects -/

theorem claimNextJob_moves {policy : ClaimPolicy} {ownerToken : UUID} {result : Option UUID}
    (hcoded : policy.Coded)
    (h : rows.claimNextJob policy ownerToken now = .ok (result, rows')) : rows.Moves rows' := by
  simp only [claimNextJob, bind_eq_ok] at h
  obtain ⟨⟨claimed, job⟩, hclaim, h⟩ := h
  cases claimed with
  | false =>
    simp only [Bool.false_eq_true, if_false, pure_eq_ok, Prod.mk.injEq] at h
    obtain ⟨-, rfl⟩ := h
    exact .unclaimed policy now job hclaim hcoded
  | true =>
    simp only [if_true, bind_eq_ok, DemoVerificationResult.create_eq_ok, pure_eq_ok,
      Prod.mk.injEq] at h
    obtain ⟨record, ⟨-, -, hnone, rfl⟩, -, rfl⟩ := h
    rcases claimJob_cases hclaim with ⟨hfalse, -⟩ | ⟨hfalse, -⟩ | ⟨hfalse, -⟩ |
      ⟨-, hqueued, hcancel, -, rfl⟩
    · simp at hfalse
    · simp at hfalse
    · simp at hfalse
    · exact .claimed _ now hqueued hcancel hnone rfl

/-- Cancelling closes a reserved row together with its job. -/
theorem cancelLocked_eq_ok {record : DemoVerificationResult}
    (h : rows.cancelLocked record now = .ok rows') :
    ¬ (record.cancelledAt now).identityChanged record ∧
      rows' = rows.finished .cancelled none
        { record.cancelledAt now with updatedAt := now } rows.verification rows.receipts now := by
  simp only [cancelLocked, bind_eq_ok, terminalizeLockedJob_eq_ok,
    DemoVerificationResult.save_eq_ok, pure_eq_ok] at h
  obtain ⟨job, ⟨-, -, -, rfl⟩, _, ⟨hsame, -, -, -, -, rfl⟩, rfl⟩ := h
  exact ⟨hsame, rfl⟩

/-- A worker that owns the row holds the lock on it. -/
theorem result_of_lockOwned {record : DemoVerificationResult}
    (h : rows.lockOwned claim = .ok record) : rows.result = some record := by
  simp only [lockOwned, lockedResult, bind_eq_ok, exists_unit, found_eq_ok, pure_eq_ok] at h
  obtain ⟨-, -, -, record', hresult, -, rfl⟩ := h
  exact hresult

theorem acquireProcessingClaim_moves {settings : Settings} {db : SourceDatabase}
    {ownerToken : UUID} {result : Acquired}
    (h : rows.acquireProcessingClaim settings db ownerToken now = .ok (result, rows')) :
    rows.Moves rows' := by
  simp only [acquireProcessingClaim, bind_eq_ok, exists_unit] at h
  obtain ⟨-, h⟩ := h
  split at h
  · simp only [bind_eq_ok, pure_eq_ok, Prod.mk.injEq] at h
    obtain ⟨_, -, -, rfl⟩ := h
    exact .kept
  · simp only [bind_eq_ok, exists_unit, raiseIf_eq_ok, not_not] at h
    obtain ⟨hprocessing, h⟩ := h
    split at h
    · simp only [bind_eq_ok, exists_unit, pure_eq_ok, Prod.mk.injEq] at h
      obtain ⟨-, -, rfl⟩ := h
      exact .kept
    · rename_i hnone
      simp only [bind_eq_ok, DemoVerificationResult.create_eq_ok] at h
      obtain ⟨record, ⟨-, -, -, rfl⟩, h⟩ := h
      split at h
      · rename_i hcancel
        simp only [bind_eq_ok, pure_eq_ok, Prod.mk.injEq] at h
        obtain ⟨cancelled, hcancelled, -, rfl⟩ := h
        obtain ⟨hsame, rfl⟩ := cancelLocked_eq_ok hcancelled
        exact .cancelled _ _ now (.inr hnone) hprocessing hcancel rfl hsame
      · simp only [pure_eq_ok, Prod.mk.injEq] at h
        obtain ⟨-, rfl⟩ := h
        exact .created _ hprocessing hnone rfl

theorem cancelBeforeWork_moves {cancelled : Bool}
    (h : rows.cancelBeforeWork claim now = .ok (cancelled, rows')) : rows.Moves rows' := by
  simp only [cancelBeforeWork, bind_eq_ok, exists_unit, raiseIf_eq_ok, not_not] at h
  obtain ⟨record, hlock, hprocessing, h⟩ := h
  split at h
  · simp only [pure_eq_ok, Prod.mk.injEq] at h
    obtain ⟨-, rfl⟩ := h
    exact .kept
  · rename_i hcancel
    simp only [bind_eq_ok, pure_eq_ok, Prod.mk.injEq] at h
    obtain ⟨_, hcancelled, -, rfl⟩ := h
    obtain ⟨hsame, rfl⟩ := cancelLocked_eq_ok hcancelled
    exact .cancelled record _ now (.inl (result_of_lockOwned hlock)) hprocessing hcancel rfl hsame

theorem saveVerification_eq_ok {verification verification' : Verification}
    {recoveredOrganization : Option UUID}
    (h : rows.saveVerification verification recoveredOrganization = .ok verification') :
    verification' = verification := by
  simp only [saveVerification, bind_eq_ok, exists_unit, pure_eq_ok] at h
  exact h.2.symm

theorem commitVerificationResult_moves {settings : Settings} {db : SourceDatabase}
    {library : ManifestLibrary} {inputSha256 : Sha256} {decode : DecodeSummary}
    {pagesAnalyzed processingMs : Nat} {result : Option VerificationProcessingResult}
    (h : rows.commitVerificationResult settings db library claim inputSha256 decode pagesAnalyzed
      processingMs now = .ok (result, rows')) : rows.Moves rows' := by
  simp only [commitVerificationResult, bind_eq_ok, exists_unit, raiseIf_eq_ok, not_not] at h
  obtain ⟨record, hlock, hprocessing, h⟩ := h
  have hresult := result_of_lockOwned hlock
  split at h
  · rename_i hcancel
    simp only [bind_eq_ok, pure_eq_ok, Prod.mk.injEq] at h
    obtain ⟨_, hcancelled, -, rfl⟩ := h
    obtain ⟨hsame, rfl⟩ := cancelLocked_eq_ok hcancelled
    exact .cancelled record _ now (.inl hresult) hprocessing hcancel rfl hsame
  · rename_i hcancel
    simp only [bind_eq_ok, exists_unit, createReceipt, DemoVerificationResult.save_eq_ok,
      terminalizeLockedJob_eq_ok, pure_eq_ok, Prod.mk.injEq] at h
    obtain ⟨verification, hsaved, receipts, ⟨-, -, rfl⟩, _, ⟨hsame, -, -, -, -, rfl⟩, job,
      ⟨-, -, -, rfl⟩, _, -, -, rfl⟩ := h
    obtain rfl := saveVerification_eq_ok hsaved
    exact .committed record _ _ claim.organizationId now hresult hprocessing (not_not.mp hcancel)
      rfl hsame ⟨rfl, rfl, rfl, rfl, rfl⟩ rfl

theorem recordFailedJob_moves {code : SafeErrorCode} {cleanupFailures processingMs : Nat}
    (h : rows.recordFailedJob claim code cleanupFailures processingMs now = .ok ((), rows')) :
    rows.Moves rows' := by
  simp only [recordFailedJob, bind_eq_ok] at h
  obtain ⟨record, hlock, h⟩ := h
  split at h
  · simp only [pure_eq_ok, Prod.mk.injEq, true_and] at h
    exact h ▸ .kept
  · rename_i hprocessing
    simp only [bind_eq_ok, DemoVerificationResult.save_eq_ok, terminalizeLockedJob_eq_ok,
      pure_eq_ok, Prod.mk.injEq, true_and] at h
    obtain ⟨verification, hsaved, _, ⟨hsame, -, -, -, -, rfl⟩, job, ⟨-, -, -, rfl⟩, rfl⟩ := h
    obtain rfl := saveVerification_eq_ok hsaved
    exact .failed code record _ _ now (result_of_lockOwned hlock) (not_not.mp hprocessing) rfl
      hsame rfl rfl rfl

theorem prepareStaleRecovery_moves {settings : Settings} {db : SourceDatabase}
    {staleBefore : Instant} {processingMs : Nat} {result : StaleRecovery}
    (h : rows.prepareStaleRecovery settings db staleBefore processingMs now =
      .ok (result, rows')) : rows.Moves rows' := by
  unfold prepareStaleRecovery at h
  split at h
  · simp only [pure_eq_ok, Prod.mk.injEq] at h
    exact h.2 ▸ .kept
  rename_i record hresult
  split at h
  · simp only [pure_eq_ok, Prod.mk.injEq] at h
    exact h.2 ▸ .kept
  rename_i hstale
  simp only [ne_eq, not_or, not_not] at hstale
  split at h
  · simp only [pure_eq_ok, Prod.mk.injEq] at h
    exact h.2 ▸ .kept
  unfold recoverStaleProcessing at h
  split at h
  · rename_i hcommitted
    split at h
    · simp only [bind_eq_ok, pure_eq_ok, Prod.mk.injEq] at h
      obtain ⟨job, hjob, -, rfl⟩ := h
      exact .replayed record job hresult hcommitted hstale.1
        (terminalizeLockedJob_worked hjob (by simp) (by constructor <;> simp))
    · simp only [bind_eq_ok, pure_eq_ok, Prod.mk.injEq] at h
      obtain ⟨_, -, job, hjob, -, rfl⟩ := h
      exact .replayed record job hresult hcommitted hstale.1
        (terminalizeLockedJob_worked hjob (by simp) (by constructor <;> simp))
  · simp only [bind_eq_ok, pure_eq_ok, Prod.mk.injEq] at h
    obtain ⟨⟨_, _⟩, hrecord, -, rfl⟩ := h
    exact recordFailedJob_moves hrecord
  · simp only [pure_eq_ok, Prod.mk.injEq] at h
    exact h.2 ▸ .kept

end VerificationRows

/-! ## 3. The program takes only these steps -/

namespace VerificationWorker

variable {settings : Settings} {rows rows' : VerificationRows} {p p' : VerificationPhase}

theorem transact_moves {α : Type} {fault : Fault} {body : Except Raised (α × VerificationRows)}
    {next : Except Raised α → VerificationPhase}
    (hbody : ∀ a rows'', body = .ok (a, rows'') → rows.Moves rows'')
    (h : transact rows fault body next = some (rows', p')) : rows.Moves rows' := by
  simp only [transact, Option.some.injEq, Prod.mk.injEq] at h
  obtain ⟨rfl, rfl⟩ := h
  rcases attempt_cases fault .databaseUnavailable body rows with
    ⟨a, rows'', hok, hrows, -⟩ | ⟨hrows, -⟩
  · rw [hrows]
    exact hbody a rows'' hok
  · rw [hrows]
    exact .kept

theorem idleStep_moves {input : VerificationInput}
    (h : idleStep settings rows input = some (rows', p')) : rows.Moves rows' := by
  cases input with
  | claimNextJob cycle ownerToken now fault =>
    simp only [idleStep] at h
    split at h
    · exact transact_moves
        (fun _ _ ↦ VerificationRows.claimNextJob_moves (cycle.claimPolicy_coded settings)) h
    · simp at h
  | processVerificationJob ownerToken =>
    simp only [idleStep, Option.ite_none_right_eq_some, Option.some.injEq, Prod.mk.injEq] at h
    exact h.2.1 ▸ .kept
  | prepareStaleRecovery db staleBefore processingMs now fault =>
    simp only [idleStep] at h
    split at h
    · exact transact_moves (fun _ _ ↦ VerificationRows.prepareStaleRecovery_moves) h
    · simp at h
  | _ => simp [idleStep] at h

theorem busyStep_moves {input : VerificationInput}
    (h : busyStep settings rows p input = some (rows', p')) : rows.Moves rows' := by
  have hkept : ∀ {q : VerificationPhase}, some (rows, q) = some (rows', p') →
      rows.Moves rows' := by
    intro q hq
    obtain ⟨rfl, -⟩ := Prod.mk.inj (Option.some.inj hq)
    exact .kept
  unfold busyStep at h
  split at h
  · exact transact_moves (fun _ _ ↦ VerificationRows.acquireProcessingClaim_moves) h
  · exact hkept h
  · split at h
    · exact hkept h
    · simp at h
  · exact transact_moves (fun _ _ ↦ VerificationRows.cancelBeforeWork_moves) h
  · split at h
    · exact hkept h
    · simp at h
  · split at h
    · exact hkept h
    · simp at h
  · exact transact_moves (fun _ _ ↦ VerificationRows.cancelBeforeWork_moves) h
  · exact hkept h
  · exact transact_moves (fun _ _ ↦ VerificationRows.commitVerificationResult_moves) h
  · exact transact_moves (fun _ _ ↦ VerificationRows.recordFailedJob_moves) h
  · simp at h
  · simp at h
  · exact hkept h
  · simp at h

theorem call_moves {input : VerificationInput}
    (h : call settings rows p input = some (rows', p')) : rows.Moves rows' := by
  unfold call at h
  split at h
  · exact idleStep_moves h
  · exact busyStep_moves h

theorem environment_moved {event : JobEvent} (h : environment rows event = some rows') :
    ∃ job' audit', Moved rows.result.isSome rows.job rows.audit job' audit' ∧
      rows' = { rows with job := job', audit := audit' } := by
  simp only [environment, Option.some.injEq] at h
  exact ⟨_, _, event.apply_moved _ _ _ _, h.symm⟩

/-! ## 4. The invariant -/

/-- How the job's status, its cancel flag and its result row belong together. -/
structure ResultFits (job : Job) (result : Option DemoVerificationResult) : Prop where
  waiting : job.status = .created ∨ job.status = .queued ∨ job.status = .retryableFailed →
    result = none ∧ job.cancelRequestedAt = none
  processing : job.status = .processing →
    ∃ record, result = some record ∧ record.resultState = .reserved
  succeeded : job.status = .succeeded ↔
    ∃ record, result = some record ∧ record.resultState = .committed
  closed : job.status.terminal → ∀ record, result = some record → record.resultState ≠ .reserved
  flagged : job.cancelRequestedAt ≠ none → job.status ≠ .succeeded
  cancelled : job.status = .cancelled → job.cancelRequestedAt ≠ none

theorem ResultFits.of_attached (h : Attached rows) : ResultFits rows.job rows.result := by
  constructor <;> simp [h.status, h.result, h.unflagged]

/-- A job that has ended without a result. -/
theorem ResultFits.of_ended {job : Job} {status : JobStatus} (hjob : job.status = status)
    (hstatus : status = .failed ∨ status = .deadLettered ∨
      status = .cancelled ∧ job.cancelRequestedAt ≠ none) : ResultFits job none := by
  rcases hstatus with rfl | rfl | ⟨rfl, hcancel⟩ <;> constructor <;> simp_all

theorem ResultFits.moves (h : ResultFits rows.job rows.result) (hmoves : rows.Moves rows') :
    ResultFits rows'.job rows'.result := by
  cases hmoves with
  | kept => exact h
  | unclaimed policy now job' hclaim =>
    rcases claimJob_cases hclaim with ⟨-, rfl⟩ | ⟨-, hqueued, hcancel, rfl⟩ |
      ⟨-, hqueued, hcancel, code, rfl⟩ | ⟨htrue, -⟩
    · exact h
    · exact absurd (h.waiting (.inr (.inl hqueued))).2 hcancel
    · rw [(h.waiting (.inr (.inl hqueued))).1]
      exact .of_ended rfl (.inl rfl)
    · simp at htrue
  | claimed record now hqueued hcancel hnone hreserved =>
    constructor <;> simp [hreserved, JobStatus.terminal, transitions]
  | created record hprocessing hnone hreserved =>
    obtain ⟨record', hresult, -⟩ := h.processing hprocessing
    simp [hnone] at hresult
  | cancelled old record now hresult hprocessing hcancel hstate =>
    constructor <;> simp [VerificationRows.finished, hstate, hcancel]
  | committed old record verification organizationId now hresult hprocessing hcancel hstate =>
    constructor <;> simp [VerificationRows.finished, hstate, hcancel]
  | failed code old record verification now hresult hprocessing hstate =>
    constructor <;> simp [VerificationRows.finished, hstate]
  | replayed record job' hresult hcommitted hprocessing =>
    obtain ⟨record', hresult', hreserved⟩ := h.processing hprocessing
    obtain rfl := Option.some.inj (hresult.symm.trans hresult')
    simp [hcommitted] at hreserved

theorem ResultFits.moved {job job' : Job} {audit audit' : List AuditEvent}
    {result : Option DemoVerificationResult} (h : ResultFits job result)
    (hmoved : Moved result.isSome job audit job' audit') : ResultFits job' result := by
  cases hmoved with
  | kept | denied => exact h
  | staged now hcreated =>
    obtain ⟨rfl, hflag⟩ := h.waiting (.inl hcreated)
    constructor <;> simp [hflag, JobStatus.terminal, transitions]
  | requeued now hretry =>
    obtain ⟨rfl, hflag⟩ := h.waiting (.inr (.inr hretry))
    constructor <;> simp [hflag, JobStatus.terminal, transitions]
  | abandoned now status code hretry hstatus =>
    obtain ⟨rfl, -⟩ := h.waiting (.inr (.inr hretry))
    exact .of_ended rfl hstatus
  | cancelled actor correlationId now hcancel hwaiting =>
    obtain ⟨rfl, -⟩ := h.waiting (by simpa using hwaiting)
    exact .of_ended rfl (.inr (.inr ⟨rfl, by simp⟩))
  | flagged actor correlationId now hcancel hprocessing =>
    obtain ⟨record, rfl, hreserved⟩ := h.processing hprocessing
    constructor <;> simp [hprocessing, hreserved, JobStatus.terminal, transitions]

/-- The invariant as an assertion of the pool. -/
def resultAssertions : WorkerPool.Assertions VerificationRows VerificationPhase where
  shared := fun rows ↦ ResultFits rows.job rows.result
  own := fun _ _ ↦ True
  apart := fun _ _ ↦ True

theorem resultAssertions_sound :
    WorkerPool.Sound (program settings) .all .trivial resultAssertions where
  symm := fun _ _ _ ↦ trivial
  keeps := fun _ _ h _ _ hcall ↦ ⟨ResultFits.moves h (call_moves hcall), trivial⟩
  others := fun _ _ _ _ _ _ _ _ _ _ ↦ ⟨trivial, trivial⟩
  environment := by
    intro rows event rows' _ h _ henvironment
    obtain ⟨job', audit', hmoved, rfl⟩ := environment_moved henvironment
    exact ⟨ResultFits.moved h hmoved, fun _ _ _ ↦ trivial⟩

theorem resultFits_of_reachable {W : Type*} [DecidableEq W] {pool : Pool W}
    (h : Reachable settings pool) : ResultFits pool.store.job pool.store.result := by
  obtain ⟨start, hstart, hleads⟩ := h
  have hholds : resultAssertions.Holds start :=
    ⟨.of_attached hstart.attached, fun _ ↦ trivial, fun _ _ _ ↦ trivial⟩
  exact (resultAssertions_sound.leads (fun u _ ↦ WorkerPool.Assertions.trivial_holds u) hholds
    hleads).shared

end VerificationWorker

end Splitbind
