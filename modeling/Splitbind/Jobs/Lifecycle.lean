import Splitbind.Jobs.State

/-!
# Job lifecycle — staging, claiming, retrying and cancelling one job

The parts of the worker cycle and of the cancel service that only concern the job row and the
audit log; issuance and verification share them.
-/

namespace Splitbind

open Transaction

/-! ## 1. Staging, claiming and retrying -/

/-- `stage_next_created_job` on the job it picked; `matchesOutbox` is the answer of
`_outbox_matches_job` for its single outbox event. -/
def stageJob (matchesOutbox : Bool) (now : Instant) (job : Job) : Except Raised Job :=
  if job.status = .created ∧ matchesOutbox then saveTransition job .queued now else return job

/-- The codes and the timeout a deployment passes to `claim_next_job`. -/
structure ClaimPolicy where
  deadlineErrorCode : SafeErrorCode
  timeoutSeconds : Option Int
  timeoutErrorCode : Option SafeErrorCode
deriving DecidableEq, Repr

/-- The defaults of `claim_next_job`. -/
def demoClaimPolicy : ClaimPolicy := ⟨.demoJobDeadlineExceeded, none, none⟩

/-- The arguments of `claim_next_integrity_job`. -/
def integrityClaimPolicy (jobTimeoutSeconds : Int) : ClaimPolicy :=
  ⟨.integrityJobDeadlineExceeded, some jobTimeoutSeconds, some .integrityJobTimeoutExceeded⟩

/-- The job part of `claim_next_job` on the queued job it picked; the flag tells whether the
job is claimed, so that its evidence row is to be created. -/
def claimJob (policy : ClaimPolicy) (now : Instant) (job : Job) : Except Raised (Bool × Job) := do
  if job.status ≠ .queued then
    return (false, job)
  else if job.cancelRequestedAt ≠ none then
    return (false, ← saveTransition job .cancelled now)
  else if now ≥ job.deadlineAt then
    return (false, ← terminalizeLockedJob job .failed (some policy.deadlineErrorCode) now)
  else if ∃ timeout ∈ policy.timeoutSeconds, now ≥ job.createdAt + seconds timeout then
    return (false, ← terminalizeLockedJob job .failed policy.timeoutErrorCode now)
  else
    return (true, ← saveTransition job .processing now)

def maxJobAttempt : Nat := 2

/-- `_prepare_one_retry` on the retryable job it picked. -/
def prepareOneRetry (resultExists : Bool) (now : Instant) (job : Job) : Except Raised Job := do
  if job.status ≠ .retryableFailed then
    return job
  else if job.cancelRequestedAt ≠ none then
    saveTransition job .cancelled now
  else if now ≥ job.deadlineAt then
    terminalizeLockedJob job .failed (some .integrityJobDeadlineExceeded) now
  else if resultExists then
    terminalizeLockedJob job .deadLettered (some .integrityJobResultAlreadyOwned) now
  else if job.attempt ≥ maxJobAttempt then
    terminalizeLockedJob job .deadLettered (some .integrityJobAttemptsExhausted) now
  else
    let job ← terminalizeLockedJob job .queued none now
    return { job with attempt := job.attempt + 1 }

theorem stageJob_cases {matchesOutbox : Bool} {now : Instant} {job job' : Job}
    (h : stageJob matchesOutbox now job = .ok job') :
    job' = job ∨ job.status = .created ∧ job' = { job with status := .queued, updatedAt := now } := by
  unfold stageJob at h
  split at h
  · rename_i hstage
    simp only [saveTransition_eq_ok] at h
    exact .inr ⟨hstage.1, h.2.2.2.symm⟩
  · simp only [pure_eq_ok] at h
    exact .inl h.symm

/-- Only an unflagged queued job is claimed, and only its status changes. -/
theorem claimJob_cases {policy : ClaimPolicy} {now : Instant} {job job' : Job} {claimed : Bool}
    (h : claimJob policy now job = .ok (claimed, job')) :
    (claimed = false ∧ job' = job) ∨
    (claimed = false ∧ job.status = .queued ∧ job.cancelRequestedAt ≠ none ∧
      job' = { job with status := .cancelled, updatedAt := now }) ∨
    (claimed = false ∧ job.status = .queued ∧ job.cancelRequestedAt = none ∧
      ∃ code, job' = { job with status := .failed, safeErrorCode := code, updatedAt := now }) ∨
    (claimed = true ∧ job.status = .queued ∧ job.cancelRequestedAt = none ∧ job.attempt ≤ 2 ∧
      job' = { job with status := .processing, updatedAt := now }) := by
  unfold claimJob at h
  by_cases hqueued : job.status = .queued
  · rw [if_neg (not_not.mpr hqueued)] at h
    by_cases hcancel : job.cancelRequestedAt = none
    · rw [if_neg (not_not.mpr hcancel)] at h
      split at h
      · simp only [bind_eq_ok, terminalizeLockedJob_eq_ok, pure_eq_ok, Prod.mk.injEq] at h
        obtain ⟨_, ⟨_, _, _, rfl⟩, rfl, rfl⟩ := h
        exact .inr (.inr (.inl ⟨rfl, hqueued, hcancel, _, rfl⟩))
      split at h
      · simp only [bind_eq_ok, terminalizeLockedJob_eq_ok, pure_eq_ok, Prod.mk.injEq] at h
        obtain ⟨_, ⟨_, _, _, rfl⟩, rfl, rfl⟩ := h
        exact .inr (.inr (.inl ⟨rfl, hqueued, hcancel, _, rfl⟩))
      · simp only [bind_eq_ok, saveTransition_eq_ok, pure_eq_ok, Prod.mk.injEq] at h
        obtain ⟨_, ⟨hattempt, _, _, rfl⟩, rfl, rfl⟩ := h
        exact .inr (.inr (.inr ⟨rfl, hqueued, hcancel, hattempt, rfl⟩))
    · rw [if_pos hcancel] at h
      simp only [bind_eq_ok, saveTransition_eq_ok, pure_eq_ok, Prod.mk.injEq] at h
      obtain ⟨_, ⟨_, _, _, rfl⟩, rfl, rfl⟩ := h
      exact .inr (.inl ⟨rfl, hqueued, hcancel, rfl⟩)
  · rw [if_pos hqueued] at h
    simp only [pure_eq_ok, Prod.mk.injEq] at h
    exact .inl ⟨h.1.symm, h.2.symm⟩

/-- A retry requeues only an unflagged job without a result row, with the next attempt. -/
theorem prepareOneRetry_cases {resultExists : Bool} {now : Instant} {job job' : Job}
    (h : prepareOneRetry resultExists now job = .ok job') :
    job' = job ∨
    job.status = .retryableFailed ∧
      ((job.cancelRequestedAt ≠ none ∧
          job' = { job with status := .cancelled, updatedAt := now }) ∨
        (∃ code, job' =
          { job with status := .failed, safeErrorCode := some code, updatedAt := now }) ∨
        (∃ code, job' =
          { job with status := .deadLettered, safeErrorCode := some code, updatedAt := now }) ∨
        (job.cancelRequestedAt = none ∧ resultExists = false ∧ job.attempt < maxJobAttempt ∧
          job' = { job with
            status := .queued, safeErrorCode := none, updatedAt := now,
            attempt := job.attempt + 1 })) := by
  unfold prepareOneRetry at h
  by_cases hretry : job.status = .retryableFailed
  · rw [if_neg (not_not.mpr hretry)] at h
    refine .inr ⟨hretry, ?_⟩
    by_cases hcancel : job.cancelRequestedAt = none
    · rw [if_neg (not_not.mpr hcancel)] at h
      split at h
      · rw [terminalizeLockedJob_eq_ok] at h
        exact .inr (.inl ⟨_, h.2.2.2.symm⟩)
      split at h
      · rw [terminalizeLockedJob_eq_ok] at h
        exact .inr (.inr (.inl ⟨_, h.2.2.2.symm⟩))
      rename_i hresult
      split at h
      · rw [terminalizeLockedJob_eq_ok] at h
        exact .inr (.inr (.inl ⟨_, h.2.2.2.symm⟩))
      · rename_i hattempt
        simp only [bind_eq_ok, terminalizeLockedJob_eq_ok, pure_eq_ok] at h
        obtain ⟨_, ⟨_, _, _, rfl⟩, rfl⟩ := h
        exact .inr (.inr (.inr ⟨hcancel, by simpa using hresult, by omega, rfl⟩))
    · rw [if_pos hcancel, saveTransition_eq_ok] at h
      exact .inl ⟨hcancel, h.2.2.2.symm⟩
  · rw [if_pos hretry, pure_eq_ok] at h
    exact .inl h.symm

/-! ## 2. Cancelling -/

inductive Role
  | administrator
  | issuer
  | verifier
  | auditor
deriving DecidableEq, Repr

structure User where
  id : UUID
  organizationId : UUID
  role : Role
deriving DecidableEq, Repr

inductive AuditOutcome
  | succeeded
  | denied
  | failed
deriving DecidableEq, Repr

structure AuditEvent where
  organizationId : UUID
  actorId : UUID
  action : String
  targetType : String
  targetId : UUID
  correlationId : UUID
  outcome : AuditOutcome
deriving DecidableEq, Repr

/-- `scope_jobs`: whether the actor can see the job; `requesterId` is the user who created the
job's issuance or requested its verification. -/
def scopeJobs (actor : User) (job : Job) (requesterId : UUID) : Prop :=
  job.organizationId = actor.organizationId ∧
    match actor.role with
    | .administrator => True
    | .auditor => True
    | .issuer => job.kind = .issuance ∧ requesterId = actor.id
    | .verifier => job.kind = .verification ∧ requesterId = actor.id

instance (actor : User) (job : Job) (requesterId : UUID) :
    Decidable (scopeJobs actor job requesterId) := by
  unfold scopeJobs
  cases actor.role <;> infer_instance

/-- The event `record_event` writes for an accepted cancel request. -/
def cancelRequestedEvent (actor : User) (job : Job) (correlationId : UUID) : AuditEvent where
  organizationId := actor.organizationId
  actorId := actor.id
  action := "job.cancel_requested"
  targetType := "jobs.job"
  targetId := job.id
  correlationId := correlationId
  outcome := .succeeded

/-- `_record_denial`, with the actor itself as the target. -/
def denialEvent (actor : User) (action : String) (correlationId : UUID) : AuditEvent where
  organizationId := actor.organizationId
  actorId := actor.id
  action := action
  targetType := "access.user"
  targetId := actor.id
  correlationId := correlationId
  outcome := .denied

/-- `_is_exact_cancel_replay`. -/
def isExactCancelReplay (audit : List AuditEvent) (job : Job) (actor : User)
    (correlationId : UUID) : Bool :=
  audit.contains (cancelRequestedEvent actor job correlationId)

/-- `_request_cancel`, the transaction. -/
def requestCancelLocked (actor : User) (correlationId : UUID) (now : Instant) (requesterId : UUID)
    (job : Job) (audit : List AuditEvent) : Except Raised (Job × List AuditEvent) := do
  raiseIf (actor.role = .auditor) (.permissionDenied "WORKFLOW_FORBIDDEN")
  raiseIf (¬ scopeJobs actor job requesterId) (.workflowNotFound "WORKFLOW_NOT_FOUND")
  if job.cancelRequestedAt ≠ none ∨ job.status = .cancelled then
    raiseIf (¬ isExactCancelReplay audit job actor correlationId)
      (.jobConflict "JOB_CANCEL_ALREADY_REQUESTED")
    return (job, audit)
  else
    raiseIf (job.status ∈ [JobStatus.succeeded, .failed, .deadLettered])
      (.jobConflict "JOB_TERMINAL")
    let flagged := { job with cancelRequestedAt := some now, updatedAt := now }
    let job' ← if job.status ∈ [JobStatus.created, .queued, .retryableFailed]
      then transitionJob flagged .cancelled else pure flagged
    return (job', audit ++ [cancelRequestedEvent actor job correlationId])

/-- A cancel request that returns either replays an earlier one, or is the first: it flags the
job, cancels it when it is waiting, and writes one event. -/
theorem requestCancelLocked_cases {actor : User} {correlationId requesterId : UUID} {now : Instant}
    {job job' : Job} {audit audit' : List AuditEvent}
    (h : requestCancelLocked actor correlationId now requesterId job audit = .ok (job', audit')) :
    actor.role ≠ .auditor ∧ scopeJobs actor job requesterId ∧
      (((job.cancelRequestedAt ≠ none ∨ job.status = .cancelled) ∧
          isExactCancelReplay audit job actor correlationId = true ∧ job' = job ∧ audit' = audit) ∨
        (job.cancelRequestedAt = none ∧
          audit' = audit ++ [cancelRequestedEvent actor job correlationId] ∧
          (job.status ∈ [JobStatus.created, .queued, .retryableFailed] ∧
              job' = { job with
                cancelRequestedAt := some now, updatedAt := now, status := .cancelled } ∨
            job.status = .processing ∧
              job' = { job with cancelRequestedAt := some now, updatedAt := now }))) := by
  simp only [requestCancelLocked, bind_eq_ok, raiseIf_eq_ok] at h
  obtain ⟨_, hrole, _, hscope, h⟩ := h
  refine ⟨hrole, not_not.mp hscope, ?_⟩
  split at h
  · rename_i hflagged
    simp only [bind_eq_ok, raiseIf_eq_ok, pure_eq_ok, Prod.mk.injEq] at h
    obtain ⟨_, hreplay, rfl, rfl⟩ := h
    exact .inl ⟨hflagged, by simpa using hreplay, rfl, rfl⟩
  rename_i hflagged
  simp only [ne_eq, not_or, not_not] at hflagged
  simp only [bind_eq_ok, raiseIf_eq_ok] at h
  obtain ⟨_, hterminal, h⟩ := h
  split at h
  · rename_i hwaiting
    simp only [bind_eq_ok, transitionJob_eq_ok, pure_eq_ok, Prod.mk.injEq] at h
    obtain ⟨_, ⟨_, _, _, rfl⟩, rfl, rfl⟩ := h
    exact .inr ⟨hflagged.1, rfl, .inl ⟨hwaiting, rfl⟩⟩
  · rename_i hwaiting
    simp only [bind_eq_ok, pure_eq_ok, Prod.mk.injEq] at h
    obtain ⟨_, rfl, rfl, rfl⟩ := h
    refine .inr ⟨hflagged.1, rfl, .inr ⟨?_, rfl⟩⟩
    have hnot := hflagged.2
    revert hterminal hwaiting hnot
    cases job.status <;> simp

/-- The errors of the cancel service that leave a denial in the audit log. -/
def Raised.recordsDenial : Raised → Bool
  | .permissionDenied _ => true
  | .workflowNotFound _ => true
  | .jobConflict _ => true
  | .uploadRejected _ => true
  | _ => false

/-- `request_cancel`: the transaction, and the denial it records when it is refused. -/
def requestCancel (actor : User) (correlationId : UUID) (now : Instant) (requesterId : UUID)
    (job : Job) (audit : List AuditEvent) : Except Raised Job × Job × List AuditEvent :=
  match requestCancelLocked actor correlationId now requesterId job audit with
  | .ok (job', audit') => (.ok job', job', audit')
  | .error e =>
    if e.recordsDenial then
      (.error e, job, audit ++ [denialEvent actor "job.cancel_denied" correlationId])
    else
      (.error e, job, audit)

/-! ## 3. What happens to a job outside its workers -/

inductive JobEvent
  | stage (matchesOutbox : Bool) (now : Instant)
  | retry (now : Instant)
  | cancel (actor : User) (correlationId : UUID) (now : Instant)
deriving DecidableEq, Repr

/-- The transaction of an event on the job and the audit log; one that raises changes nothing,
but a refused cancel request is logged.  `resultExists` tells whether the job has an evidence
row. -/
def JobEvent.apply (event : JobEvent) (requesterId : UUID) (resultExists : Bool) (job : Job)
    (audit : List AuditEvent) : Job × List AuditEvent :=
  match event with
  | .stage matchesOutbox now =>
    match stageJob matchesOutbox now job with
    | .ok job' => (job', audit)
    | .error _ => (job, audit)
  | .retry now =>
    match prepareOneRetry resultExists now job with
    | .ok job' => (job', audit)
    | .error _ => (job, audit)
  | .cancel actor correlationId now => (requestCancel actor correlationId now requesterId job audit).2

/-- What an event can do to the job and the audit log. -/
inductive Moved (resultExists : Bool) (job : Job) (audit : List AuditEvent) :
    Job → List AuditEvent → Prop
  | kept : Moved resultExists job audit job audit
  | denied (actor : User) (correlationId : UUID) : Moved resultExists job audit job
      (audit ++ [denialEvent actor "job.cancel_denied" correlationId])
  | staged (now : Instant) (hcreated : job.status = .created) :
      Moved resultExists job audit { job with status := .queued, updatedAt := now } audit
  | requeued (now : Instant) (hretry : job.status = .retryableFailed)
      (hcancel : job.cancelRequestedAt = none) (hresult : resultExists = false)
      (hattempt : job.attempt < maxJobAttempt) :
      Moved resultExists job audit
        { job with
          status := .queued, safeErrorCode := none, updatedAt := now, attempt := job.attempt + 1 }
        audit
  | abandoned (now : Instant) (status : JobStatus) (code : Option SafeErrorCode)
      (hretry : job.status = .retryableFailed)
      (hstatus : status = .failed ∨ status = .deadLettered ∨
        status = .cancelled ∧ job.cancelRequestedAt ≠ none)
      (hcode : status ≠ .cancelled → code.isSome) :
      Moved resultExists job audit
        { job with status := status, safeErrorCode := code, updatedAt := now } audit
  | cancelled (actor : User) (correlationId : UUID) (now : Instant)
      (hcancel : job.cancelRequestedAt = none)
      (hwaiting : job.status ∈ [JobStatus.created, .queued, .retryableFailed]) :
      Moved resultExists job audit
        { job with cancelRequestedAt := some now, updatedAt := now, status := .cancelled }
        (audit ++ [cancelRequestedEvent actor job correlationId])
  | flagged (actor : User) (correlationId : UUID) (now : Instant)
      (hcancel : job.cancelRequestedAt = none) (hprocessing : job.status = .processing) :
      Moved resultExists job audit { job with cancelRequestedAt := some now, updatedAt := now }
        (audit ++ [cancelRequestedEvent actor job correlationId])

theorem JobEvent.apply_moved (event : JobEvent) (requesterId : UUID) (resultExists : Bool)
    (job : Job) (audit : List AuditEvent) :
    Moved resultExists job audit (event.apply requesterId resultExists job audit).1
      (event.apply requesterId resultExists job audit).2 := by
  cases event with
  | stage matchesOutbox now =>
    simp only [JobEvent.apply]
    rcases hstage : stageJob matchesOutbox now job with e | job'
    · exact .kept
    · rcases stageJob_cases hstage with rfl | ⟨hcreated, rfl⟩
      · exact .kept
      · exact .staged now hcreated
  | retry now =>
    simp only [JobEvent.apply]
    rcases hretry : prepareOneRetry resultExists now job with e | job'
    · exact .kept
    · rcases prepareOneRetry_cases hretry with rfl | ⟨hstatus, ⟨hcancel, rfl⟩ | ⟨code, rfl⟩ |
        ⟨code, rfl⟩ | ⟨hcancel, hresult, hattempt, rfl⟩⟩
      · exact .kept
      · exact .abandoned now .cancelled job.safeErrorCode hstatus (.inr (.inr ⟨rfl, hcancel⟩))
          (by simp)
      · exact .abandoned now .failed (some code) hstatus (.inl rfl) (by simp)
      · exact .abandoned now .deadLettered (some code) hstatus (.inr (.inl rfl)) (by simp)
      · exact .requeued now hstatus hcancel hresult hattempt
  | cancel actor correlationId now =>
    simp only [JobEvent.apply, requestCancel]
    rcases hcancel : requestCancelLocked actor correlationId now requesterId job audit with
      e | ⟨job', audit'⟩
    · simp only
      split
      · exact .denied actor correlationId
      · exact .kept
    · obtain ⟨-, -, ⟨-, -, rfl, rfl⟩ | ⟨hflag, rfl, ⟨hwaiting, rfl⟩ | ⟨hprocessing, rfl⟩⟩⟩ :=
        requestCancelLocked_cases hcancel
      · exact .kept
      · exact .cancelled actor correlationId now hflag hwaiting
      · exact .flagged actor correlationId now hflag hprocessing

theorem Moved.sameJob {resultExists : Bool} {job job' : Job} {audit audit' : List AuditEvent}
    (h : Moved resultExists job audit job' audit') : SameJob job job' := by
  cases h <;> exact ⟨rfl, rfl, rfl⟩

/-- What runs outside the workers leaves a finished job alone. -/
theorem Moved.eq_of_terminal {resultExists : Bool} {job job' : Job}
    {audit audit' : List AuditEvent} (h : Moved resultExists job audit job' audit')
    (hterminal : job.status.terminal) : job' = job := by
  cases h with
  | kept | denied => rfl
  | staged now hs | requeued now hs | abandoned now status code hs | flagged actor id now _ hs =>
    simp [hs, JobStatus.terminal, transitions] at hterminal
  | cancelled actor correlationId now hcancel hwaiting =>
    simp only [List.mem_cons, List.not_mem_nil, or_false] at hwaiting
    rcases hwaiting with hs | hs | hs <;> simp [hs, JobStatus.terminal, transitions] at hterminal

end Splitbind
