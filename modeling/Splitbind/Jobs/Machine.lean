import Splitbind.Jobs.Lifecycle

/-!
# Job machine — what every operation may do to a job row

`Worked` lists what the transactions of the workers do to the job row, as `Moved` does for the
events around them.  Both follow the transition table, and both keep a job sound.
-/

namespace Splitbind

open Transaction

/-! ## 1. Sound jobs -/

/-- What the status of a job says about its error code and its cancel flag. -/
structure Explained (status : JobStatus) (code : Option SafeErrorCode)
    (cancelRequestedAt : Option Instant) : Prop where
  succeeded : status = .succeeded → code = none
  failed : status = .failed → code ≠ none
  deadLettered : status = .deadLettered → code ≠ none
  cancelled : status = .cancelled → cancelRequestedAt ≠ none

structure JobSound (job : Job) : Prop where
  attempt : job.attempt ≤ maxJobAttempt
  explained : Explained job.status job.safeErrorCode job.cancelRequestedAt

/-- Nothing is asked of a job that is not finished. -/
theorem Explained.of_unfinished {status : JobStatus} (h : ¬ status.terminal)
    (code : Option SafeErrorCode) (cancelRequestedAt : Option Instant) :
    Explained status code cancelRequestedAt := by
  constructor <;> rintro rfl <;> exact absurd rfl h

/-! ## 2. What the workers do to a job -/

/-- What a transaction of a worker can do to the job: nothing, a transition that does not put it
back in the queue, or the error code of a cancelled job. -/
inductive Worked (job : Job) : Job → Prop
  | kept : Worked job job
  | transitioned (status : JobStatus) (code : Option SafeErrorCode) (now : Instant)
      (hedge : status ∈ transitions job.status) (hqueued : status ≠ .queued)
      (hexplained : Explained status code job.cancelRequestedAt) :
      Worked job { job with status := status, safeErrorCode := code, updatedAt := now }
  | compensated (code : Option SafeErrorCode) (now : Instant)
      (hcancelled : job.status = .cancelled) :
      Worked job { job with safeErrorCode := code, updatedAt := now }

theorem Worked.sameJob {job job' : Job} (h : Worked job job') : SameJob job job' := by
  cases h <;> exact ⟨rfl, rfl, rfl⟩

theorem Worked.cancelRequestedAt {job job' : Job} (h : Worked job job') :
    job'.cancelRequestedAt = job.cancelRequestedAt := by
  cases h <;> rfl

theorem Worked.attempt {job job' : Job} (h : Worked job job') : job'.attempt = job.attempt := by
  cases h <;> rfl

/-- A deployment that fails jobs for their age has a code for it. -/
def ClaimPolicy.Coded (policy : ClaimPolicy) : Prop :=
  policy.timeoutSeconds ≠ none → policy.timeoutErrorCode ≠ none

theorem claimJob_worked {policy : ClaimPolicy} {now : Instant} {job job' : Job} {claimed : Bool}
    (hcoded : policy.Coded) (h : claimJob policy now job = .ok (claimed, job')) :
    Worked job job' := by
  unfold claimJob at h
  by_cases hqueued : job.status = .queued
  · rw [if_neg (not_not.mpr hqueued)] at h
    by_cases hcancel : job.cancelRequestedAt = none
    · rw [if_neg (not_not.mpr hcancel)] at h
      split at h
      · simp only [bind_eq_ok, terminalizeLockedJob_eq_ok, pure_eq_ok, Prod.mk.injEq] at h
        obtain ⟨_, ⟨-, hedge, -, rfl⟩, -, rfl⟩ := h
        exact .transitioned .failed _ now hedge (by simp) (by constructor <;> simp)
      split at h
      · rename_i hold
        simp only [bind_eq_ok, terminalizeLockedJob_eq_ok, pure_eq_ok, Prod.mk.injEq] at h
        obtain ⟨_, ⟨-, hedge, -, rfl⟩, -, rfl⟩ := h
        obtain ⟨timeout, htimeout, -⟩ := hold
        have hcode := hcoded (by simp [Option.mem_def.mp htimeout])
        exact .transitioned .failed _ now hedge (by simp) (by constructor <;> simp [hcode])
      · simp only [bind_eq_ok, saveTransition_eq_ok, pure_eq_ok, Prod.mk.injEq] at h
        obtain ⟨_, ⟨-, hedge, -, rfl⟩, -, rfl⟩ := h
        exact .transitioned .processing job.safeErrorCode now hedge (by simp)
          (.of_unfinished (by simp [JobStatus.terminal, transitions]) _ _)
    · rw [if_pos hcancel] at h
      simp only [bind_eq_ok, saveTransition_eq_ok, pure_eq_ok, Prod.mk.injEq] at h
      obtain ⟨_, ⟨-, hedge, -, rfl⟩, -, rfl⟩ := h
      exact .transitioned .cancelled job.safeErrorCode now hedge (by simp)
        (by constructor <;> simp [hcancel])
  · rw [if_pos hqueued] at h
    simp only [pure_eq_ok, Prod.mk.injEq] at h
    exact h.2 ▸ .kept

/-- A job in processing is cancelled on request, with its error code as it was. -/
theorem Worked.cancelled {job : Job} (hprocessing : job.status = .processing)
    (hcancel : job.cancelRequestedAt ≠ none) (code : Option SafeErrorCode) (now : Instant) :
    Worked job { job with status := .cancelled, safeErrorCode := code, updatedAt := now } :=
  .transitioned .cancelled code now (by simp [hprocessing, transitions]) (by simp)
    (by constructor <;> simp [hcancel])

theorem Worked.failed {job : Job} (hprocessing : job.status = .processing)
    (code : SafeErrorCode) (now : Instant) :
    Worked job { job with status := .failed, safeErrorCode := some code, updatedAt := now } :=
  .transitioned .failed (some code) now (by simp [hprocessing, transitions]) (by simp)
    (by constructor <;> simp)

theorem Worked.succeeded {job : Job} (hprocessing : job.status = .processing) (now : Instant) :
    Worked job { job with status := .succeeded, safeErrorCode := none, updatedAt := now } :=
  .transitioned .succeeded none now (by simp [hprocessing, transitions]) (by simp)
    (by constructor <;> simp)

/-- A job is ended with a code that explains its status. -/
theorem terminalizeLockedJob_worked {job job' : Job} {status : JobStatus}
    {code : Option SafeErrorCode} {now : Instant}
    (h : terminalizeLockedJob job status code now = .ok job') (hqueued : status ≠ .queued)
    (hexplained : Explained status code job.cancelRequestedAt) : Worked job job' := by
  rw [terminalizeLockedJob_eq_ok] at h
  obtain ⟨-, hedge, -, rfl⟩ := h
  exact .transitioned status code now hedge hqueued hexplained

/-! ## 3. One step of a job -/

/-- How a job row may change in one step; `resultExists` tells whether it has an evidence row. -/
structure Advances (resultExists : Bool) (job job' : Job) : Prop where
  edge : job'.status = job.status ∨ job'.status ∈ transitions job.status
  attempt : job'.attempt = job.attempt ∨
    job.status = .retryableFailed ∧ job'.status = .queued ∧ job'.attempt = job.attempt + 1
  queued : job'.status = .queued → job.status = .queued ∨ job.status = .created ∨
    job.status = .retryableFailed ∧ resultExists = false

/-- No step changes the status of a finished job. -/
theorem Advances.terminal {resultExists : Bool} {job job' : Job}
    (h : Advances resultExists job job') (hterminal : job.status.terminal) :
    job'.status = job.status := by
  rcases h.edge with hsame | hedge
  · exact hsame
  · rw [show transitions job.status = [] from hterminal] at hedge
    simp at hedge

theorem Worked.advances {resultExists : Bool} {job job' : Job} (h : Worked job job') :
    Advances resultExists job job' := by
  cases h with
  | kept => exact ⟨.inl rfl, .inl rfl, fun hqueued ↦ .inl hqueued⟩
  | transitioned status code now hedge hqueued =>
    exact ⟨.inr hedge, .inl rfl, fun hq ↦ absurd hq hqueued⟩
  | compensated => exact ⟨.inl rfl, .inl rfl, fun hqueued ↦ .inl hqueued⟩

theorem Moved.advances {resultExists : Bool} {job job' : Job} {audit audit' : List AuditEvent}
    (h : Moved resultExists job audit job' audit') : Advances resultExists job job' := by
  cases h with
  | kept | denied => exact ⟨.inl rfl, .inl rfl, fun hqueued ↦ .inl hqueued⟩
  | staged now hcreated =>
    exact ⟨.inr (by simp [hcreated, transitions]), .inl rfl, fun _ ↦ .inr (.inl hcreated)⟩
  | requeued now hretry hcancel hresult =>
    exact ⟨.inr (by simp [hretry, transitions]), .inr ⟨hretry, rfl, rfl⟩,
      fun _ ↦ .inr (.inr ⟨hretry, hresult⟩)⟩
  | abandoned now status code hretry hstatus =>
    rcases hstatus with rfl | rfl | ⟨rfl, -⟩
    all_goals exact ⟨.inr (by simp [hretry, transitions]), .inl rfl, fun hq ↦ by simp at hq⟩
  | cancelled actor correlationId now hcancel hwaiting =>
    refine ⟨.inr ?_, .inl rfl, fun hq ↦ by simp at hq⟩
    simp only [List.mem_cons, List.not_mem_nil, or_false] at hwaiting
    rcases hwaiting with hs | hs | hs <;> simp [hs, transitions]
  | flagged => exact ⟨.inl rfl, .inl rfl, fun hqueued ↦ .inl hqueued⟩

theorem Worked.sound {job job' : Job} (h : Worked job job') (hsound : JobSound job) :
    JobSound job' := by
  cases h with
  | kept => exact hsound
  | transitioned status code now hedge hqueued hexplained => exact ⟨hsound.attempt, hexplained⟩
  | compensated code now hcancelled =>
    have hflag := hsound.explained.cancelled hcancelled
    exact ⟨hsound.attempt, by constructor <;> simp [hcancelled, hflag]⟩

theorem Moved.sound {resultExists : Bool} {job job' : Job} {audit audit' : List AuditEvent}
    (h : Moved resultExists job audit job' audit') (hsound : JobSound job) : JobSound job' := by
  cases h with
  | kept | denied => exact hsound
  | staged now hcreated => exact ⟨hsound.attempt, by constructor <;> simp⟩
  | requeued now hretry hcancel hresult hattempt =>
    exact ⟨Nat.succ_le_of_lt hattempt, by constructor <;> simp⟩
  | abandoned now status code hretry hstatus hcode =>
    refine ⟨hsound.attempt, ?_⟩
    rcases hstatus with rfl | rfl | ⟨rfl, hflag⟩
    · have hsome : code ≠ none := Option.isSome_iff_ne_none.mp (hcode (by simp))
      constructor <;> simp [hsome]
    · have hsome : code ≠ none := Option.isSome_iff_ne_none.mp (hcode (by simp))
      constructor <;> simp [hsome]
    · constructor <;> simp [hflag]
  | cancelled => exact ⟨hsound.attempt, by constructor <;> simp⟩
  | flagged actor correlationId now hcancel hprocessing =>
    exact ⟨hsound.attempt, by constructor <;> simp [hprocessing]⟩

/-- What one step around a job, of a worker or of anything else, does to the job and the log. -/
inductive JobStep (resultExists : Bool) (job : Job) (audit : List AuditEvent) :
    Job → List AuditEvent → Prop
  | worked {job' : Job} (h : Worked job job') : JobStep resultExists job audit job' audit
  | moved {job' : Job} {audit' : List AuditEvent} (h : Moved resultExists job audit job' audit') :
      JobStep resultExists job audit job' audit'

namespace JobStep

variable {resultExists : Bool} {job job' : Job} {audit audit' : List AuditEvent}

theorem advances (h : JobStep resultExists job audit job' audit') :
    Advances resultExists job job' := by
  cases h with
  | worked h => exact h.advances
  | moved h => exact h.advances

theorem sound (h : JobStep resultExists job audit job' audit') (hsound : JobSound job) :
    JobSound job' := by
  cases h with
  | worked h => exact h.sound hsound
  | moved h => exact h.sound hsound

end JobStep

end Splitbind
