import Splitbind.Identifiers
import Splitbind.Library.Transaction

/-!
# Jobs — rows, statuses and the transition table

A job row points at exactly one target, the issuance or the verification it was created for;
the row constraint `job_kind_target_match` is the type of `Job.target`.
-/

namespace Splitbind

open Transaction

inductive JobKind
  | issuance
  | verification
deriving DecidableEq, Repr

def JobKind.text : JobKind → String
  | .issuance => "issuance"
  | .verification => "verification"

inductive JobStatus
  | created
  | queued
  | processing
  | retryableFailed
  | succeeded
  | failed
  | deadLettered
  | cancelled
deriving DecidableEq, Repr

/-- `TRANSITIONS`: the statuses a status may change to. -/
def transitions : JobStatus → List JobStatus
  | .created => [.queued, .cancelled, .failed]
  | .queued => [.processing, .cancelled, .failed, .deadLettered]
  | .processing => [.succeeded, .failed, .retryableFailed, .cancelled]
  | .retryableFailed => [.queued, .failed, .deadLettered, .cancelled]
  | .succeeded => []
  | .failed => []
  | .deadLettered => []
  | .cancelled => []

def JobStatus.terminal (status : JobStatus) : Prop := transitions status = []

instance (status : JobStatus) : Decidable status.terminal :=
  inferInstanceAs (Decidable (_ = _))

inductive JobTarget
  | issuance (id : UUID)
  | verification (id : UUID)
deriving DecidableEq, Repr

structure Job where
  id : UUID
  organizationId : UUID
  target : JobTarget
  status : JobStatus
  attempt : Nat
  deadlineAt : Instant
  correlationId : UUID
  cancelRequestedAt : Option Instant
  safeErrorCode : Option SafeErrorCode
  createdAt : Instant
  updatedAt : Instant
deriving DecidableEq, Repr

namespace Job

def kind (job : Job) : JobKind :=
  match job.target with
  | .issuance _ => .issuance
  | .verification _ => .verification

def issuanceId (job : Job) : Option UUID :=
  match job.target with
  | .issuance id => some id
  | .verification _ => none

def verificationId (job : Job) : Option UUID :=
  match job.target with
  | .issuance _ => none
  | .verification id => some id

end Job

/-- `transition_job`: change the status along the table, or raise. -/
def transitionJob (job : Job) (target : JobStatus) : Except Raised Job := do
  raiseIf (¬ job.attempt ≤ 2) (.invalidJobTransition "JOB_ATTEMPT")
  raiseIf (target ∉ transitions job.status) (.invalidJobTransition "JOB_TRANSITION")
  raiseIf (job.status = .retryableFailed ∧ target = .queued ∧ job.attempt ≥ 2)
    (.invalidJobTransition "JOB_ATTEMPT")
  return { job with status := target }

/-- A transition changes the status and nothing else, along an edge of the table. -/
theorem transitionJob_eq_ok {job job' : Job} {target : JobStatus} :
    transitionJob job target = .ok job' ↔
      job.attempt ≤ 2 ∧ target ∈ transitions job.status ∧
        ¬ (job.status = .retryableFailed ∧ target = .queued ∧ job.attempt ≥ 2) ∧
        { job with status := target } = job' := by
  simp [transitionJob]

/-- `_terminalize_locked_job`: the transition, and the save of the status and the error code. -/
def terminalizeLockedJob (job : Job) (status : JobStatus) (safeCode : Option SafeErrorCode)
    (now : Instant) : Except Raised Job := do
  let job ← transitionJob job status
  return { job with safeErrorCode := safeCode, updatedAt := now }

/-- `transition_job` followed by the save of the status alone. -/
def saveTransition (job : Job) (status : JobStatus) (now : Instant) : Except Raised Job := do
  let job ← transitionJob job status
  return { job with updatedAt := now }

theorem terminalizeLockedJob_eq_ok {job job' : Job} {status : JobStatus}
    {safeCode : Option SafeErrorCode} {now : Instant} :
    terminalizeLockedJob job status safeCode now = .ok job' ↔
      job.attempt ≤ 2 ∧ status ∈ transitions job.status ∧
        ¬ (job.status = .retryableFailed ∧ status = .queued ∧ job.attempt ≥ 2) ∧
        { job with status := status, safeErrorCode := safeCode, updatedAt := now } = job' := by
  simp only [terminalizeLockedJob, bind_eq_ok, transitionJob_eq_ok, pure_eq_ok]
  constructor
  · rintro ⟨_, ⟨hattempt, hmem, hretry, rfl⟩, rfl⟩
    exact ⟨hattempt, hmem, hretry, rfl⟩
  · rintro ⟨hattempt, hmem, hretry, rfl⟩
    exact ⟨_, ⟨hattempt, hmem, hretry, rfl⟩, rfl⟩

theorem saveTransition_eq_ok {job job' : Job} {status : JobStatus} {now : Instant} :
    saveTransition job status now = .ok job' ↔
      job.attempt ≤ 2 ∧ status ∈ transitions job.status ∧
        ¬ (job.status = .retryableFailed ∧ status = .queued ∧ job.attempt ≥ 2) ∧
        { job with status := status, updatedAt := now } = job' := by
  simp only [saveTransition, bind_eq_ok, transitionJob_eq_ok, pure_eq_ok]
  constructor
  · rintro ⟨_, ⟨hattempt, hmem, hretry, rfl⟩, rfl⟩
    exact ⟨hattempt, hmem, hretry, rfl⟩
  · rintro ⟨hattempt, hmem, hretry, rfl⟩
    exact ⟨_, ⟨hattempt, hmem, hretry, rfl⟩, rfl⟩

/-- The parts of a job row no worker ever changes. -/
structure SameJob (job job' : Job) : Prop where
  id : job'.id = job.id
  organizationId : job'.organizationId = job.organizationId
  target : job'.target = job.target

theorem SameJob.kind {job job' : Job} (h : SameJob job job') : job'.kind = job.kind := by
  simp only [Job.kind, h.target]

theorem SameJob.issuanceId {job job' : Job} (h : SameJob job job') :
    job'.issuanceId = job.issuanceId := by
  simp only [Job.issuanceId, h.target]

/-- A receipt's message id is `uuid5` of a name that spells the job's kind, id and attempt; the
name stands for it. -/
structure ReceiptId where
  kind : JobKind
  jobId : UUID
  attempt : Nat
deriving DecidableEq, Repr

structure JobResultReceipt where
  messageId : ReceiptId
  organizationId : UUID
  jobId : UUID
deriving DecidableEq, Repr

/-- `_receipt_id` of the issuance and of the verification worker. -/
def receiptId (job : Job) : ReceiptId := ⟨job.kind, job.id, job.attempt⟩

/-- `JobResultReceipt.objects.create`: the message id is the primary key. -/
def createReceipt (receipts : List JobResultReceipt) (organizationId : UUID) (job : Job) :
    Except Raised (List JobResultReceipt) := do
  raiseIf (∃ receipt ∈ receipts, receipt.messageId = receiptId job)
    (.integrity "jobs_jobresultreceipt_pkey")
  raiseIf (organizationId ≠ job.organizationId)
    (.validation "Related records must belong to the same organization.")
  return receipts ++ [⟨receiptId job, organizationId, job.id⟩]

/-- Whether the receipt query of the replay and retention paths finds a row. -/
def receiptExists (receipts : List JobResultReceipt) (organizationId : UUID) (job : Job) : Bool :=
  receipts.any fun receipt ↦
    receipt.messageId = receiptId job ∧ receipt.organizationId = organizationId ∧
      receipt.jobId = job.id

end Splitbind
