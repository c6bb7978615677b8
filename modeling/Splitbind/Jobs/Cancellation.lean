import Splitbind.Jobs.Machine

/-!
# Job cancellation — what the audit log says about the one accepted cancel request

A job is flagged by one request, which leaves one event in the audit log.  Replays are recognised
by that event, and nothing that runs later removes the flag or writes another.
-/

namespace Splitbind

open Transaction

/-! ## 1. The events of accepted cancel requests -/

/-- The event is that of an accepted cancel request for the job. -/
def IsCancelOf (jobId : UUID) (event : AuditEvent) : Prop :=
  event.action = "job.cancel_requested" ∧ event.targetId = jobId

instance (jobId : UUID) (event : AuditEvent) : Decidable (IsCancelOf jobId event) :=
  inferInstanceAs (Decidable (_ ∧ _))

/-- The cancel events of the job in the log. -/
def cancelEvents (jobId : UUID) (audit : List AuditEvent) : List AuditEvent :=
  audit.filter fun event ↦ IsCancelOf jobId event

theorem cancelEvents_eq_nil {jobId : UUID} {audit : List AuditEvent} :
    cancelEvents jobId audit = [] ↔ ∀ event ∈ audit, ¬ IsCancelOf jobId event := by
  simp [cancelEvents, List.filter_eq_nil_iff]

@[simp] theorem isCancelOf_cancelRequestedEvent (actor : User) (job : Job) (correlationId : UUID) :
    IsCancelOf job.id (cancelRequestedEvent actor job correlationId) := ⟨rfl, rfl⟩

@[simp] theorem not_isCancelOf_denialEvent (jobId : UUID) (actor : User) (correlationId : UUID) :
    ¬ IsCancelOf jobId (denialEvent actor "job.cancel_denied" correlationId) := by
  simp [IsCancelOf, denialEvent]

@[simp] theorem cancelEvents_append_denial (jobId : UUID) (audit : List AuditEvent) (actor : User)
    (correlationId : UUID) :
    cancelEvents jobId (audit ++ [denialEvent actor "job.cancel_denied" correlationId]) =
      cancelEvents jobId audit := by
  simp [cancelEvents]

theorem cancelEvents_append_cancel (job : Job) (audit : List AuditEvent) (actor : User)
    (correlationId : UUID) :
    cancelEvents job.id (audit ++ [cancelRequestedEvent actor job correlationId]) =
      cancelEvents job.id audit ++ [cancelRequestedEvent actor job correlationId] := by
  simp [cancelEvents]

/-- The replay check looks for the request's own event among the cancel events. -/
theorem isExactCancelReplay_iff {audit : List AuditEvent} {job : Job} {actor : User}
    {correlationId : UUID} :
    isExactCancelReplay audit job actor correlationId = true ↔
      cancelRequestedEvent actor job correlationId ∈ cancelEvents job.id audit := by
  rw [isExactCancelReplay, List.contains_iff_mem, cancelEvents, List.mem_filter]
  simp

/-! ## 2. The log of a job -/

/-- A job without the flag has no cancel event, a flagged one has exactly one, and only flagged
jobs are cancelled. -/
structure CancelLog (job : Job) (audit : List AuditEvent) : Prop where
  unflagged : job.cancelRequestedAt = none → cancelEvents job.id audit = []
  flagged : job.cancelRequestedAt ≠ none → ∃ event, cancelEvents job.id audit = [event]
  cancelled : job.status = .cancelled → job.cancelRequestedAt ≠ none

/-- The log depends on the id and the flag of the job, and on its cancel events. -/
theorem CancelLog.congr {job job' : Job} {audit audit' : List AuditEvent}
    (h : CancelLog job audit) (hid : job'.id = job.id)
    (hflag : job'.cancelRequestedAt = job.cancelRequestedAt)
    (hevents : cancelEvents job.id audit' = cancelEvents job.id audit)
    (hcancelled : job'.status = .cancelled → job'.cancelRequestedAt ≠ none) :
    CancelLog job' audit' where
  unflagged := by
    rw [hflag, hid, hevents]
    exact h.unflagged
  flagged := by
    rw [hflag, hid, hevents]
    exact h.flagged
  cancelled := hcancelled

/-- The first accepted request flags the job and writes its event. -/
theorem CancelLog.request {job job' : Job} {audit : List AuditEvent} (h : CancelLog job audit)
    (hunflagged : job.cancelRequestedAt = none) (hid : job'.id = job.id)
    (hflagged : job'.cancelRequestedAt ≠ none) (actor : User) (correlationId : UUID) :
    CancelLog job' (audit ++ [cancelRequestedEvent actor job correlationId]) where
  unflagged := fun hnone ↦ absurd hnone hflagged
  flagged := fun _ ↦ by
    rw [hid, cancelEvents_append_cancel, h.unflagged hunflagged]
    exact ⟨_, rfl⟩
  cancelled := fun _ ↦ hflagged

theorem CancelLog.moved {resultExists : Bool} {job job' : Job} {audit audit' : List AuditEvent}
    (h : CancelLog job audit) (hmoved : Moved resultExists job audit job' audit') :
    CancelLog job' audit' := by
  cases hmoved with
  | kept => exact h
  | denied => exact h.congr rfl rfl (by simp) h.cancelled
  | staged | requeued => exact h.congr rfl rfl rfl (by simp)
  | abandoned now status code hretry hstatus =>
    refine h.congr rfl rfl rfl fun hcancelled ↦ ?_
    rcases hstatus with rfl | rfl | ⟨-, hflag⟩
    · simp at hcancelled
    · simp at hcancelled
    · exact hflag
  | cancelled actor correlationId now hcancel | flagged actor correlationId now hcancel =>
    refine h.request hcancel ?_ ?_ actor correlationId
    · rfl
    · simp

/-- Nor does a worker remove the flag, or cancel a job without it. -/
theorem CancelLog.worked {job job' : Job} {audit : List AuditEvent} (h : CancelLog job audit)
    (hworked : Worked job job') : CancelLog job' audit := by
  refine h.congr hworked.sameJob.id hworked.cancelRequestedAt rfl ?_
  rw [hworked.cancelRequestedAt]
  cases hworked with
  | kept => exact h.cancelled
  | transitioned status code now hedge hqueued hexplained => exact hexplained.cancelled
  | compensated code now hcancelled => exact h.cancelled

theorem CancelLog.step {resultExists : Bool} {job job' : Job} {audit audit' : List AuditEvent}
    (h : CancelLog job audit) (hstep : JobStep resultExists job audit job' audit') :
    CancelLog job' audit' := by
  cases hstep with
  | worked hworked => exact h.worked hworked
  | moved hmoved => exact h.moved hmoved

/-! ## 3. The request that was accepted -/

/-- The request of the actor with this correlation id is the one that flagged the job. -/
structure CancelledBy (actor : User) (correlationId requesterId : UUID) (job : Job)
    (audit : List AuditEvent) : Prop where
  flagged : job.cancelRequestedAt ≠ none
  events : cancelEvents job.id audit = [cancelRequestedEvent actor job correlationId]
  role : actor.role ≠ .auditor
  scope : scopeJobs actor job requesterId

variable {actor : User} {correlationId requesterId : UUID} {job job' : Job}
  {audit audit' : List AuditEvent}

/-- A request that returns has flagged the job, now or before. -/
theorem CancelledBy.of_request {now : Instant} (hlog : CancelLog job audit)
    (h : requestCancelLocked actor correlationId now requesterId job audit = .ok (job', audit')) :
    CancelledBy actor correlationId requesterId job' audit' := by
  obtain ⟨hrole, hscope, ⟨hflagged, hreplay, rfl, rfl⟩ | ⟨hunflagged, rfl, hfirst⟩⟩ :=
    requestCancelLocked_cases h
  · have hflag : job'.cancelRequestedAt ≠ none := hflagged.elim id hlog.cancelled
    obtain ⟨event, hevents⟩ := hlog.flagged hflag
    rw [isExactCancelReplay_iff, hevents, List.mem_singleton] at hreplay
    exact ⟨hflag, hreplay ▸ hevents, hrole, hscope⟩
  · have hevents := cancelEvents_append_cancel job audit actor correlationId
    rw [hlog.unflagged hunflagged] at hevents
    rcases hfirst with ⟨-, rfl⟩ | ⟨-, rfl⟩
    · exact ⟨by simp, hevents, hrole, hscope⟩
    · exact ⟨by simp, hevents, hrole, hscope⟩

/-- It stays the one as long as the flag and the cancel events stay. -/
theorem CancelledBy.congr (h : CancelledBy actor correlationId requesterId job audit)
    (hsame : SameJob job job') (hflag : job'.cancelRequestedAt = job.cancelRequestedAt)
    (hevents : cancelEvents job.id audit' = cancelEvents job.id audit) :
    CancelledBy actor correlationId requesterId job' audit' where
  flagged := hflag ▸ h.flagged
  events := by
    rw [hsame.id, hevents, h.events]
    simp only [cancelRequestedEvent, hsame.id]
  role := h.role
  scope := by
    have hscope := h.scope
    simp only [scopeJobs, hsame.organizationId, hsame.kind] at hscope ⊢
    exact hscope

/-- No event outside the workers replaces it. -/
theorem CancelledBy.moved {resultExists : Bool}
    (h : CancelledBy actor correlationId requesterId job audit)
    (hmoved : Moved resultExists job audit job' audit') :
    CancelledBy actor correlationId requesterId job' audit' := by
  have hsame := hmoved.sameJob
  cases hmoved with
  | kept => exact h
  | denied | staged | requeued | abandoned => exact h.congr hsame rfl (by simp)
  | cancelled actor' correlationId' now hcancel => exact absurd hcancel h.flagged
  | flagged actor' correlationId' now hcancel => exact absurd hcancel h.flagged

theorem CancelledBy.step {resultExists : Bool}
    (h : CancelledBy actor correlationId requesterId job audit)
    (hstep : JobStep resultExists job audit job' audit') :
    CancelledBy actor correlationId requesterId job' audit' := by
  cases hstep with
  | worked hworked => exact h.congr hworked.sameJob hworked.cancelRequestedAt rfl
  | moved hmoved => exact h.moved hmoved

/-- The same request returns again and changes nothing. -/
theorem CancelledBy.replay (h : CancelledBy actor correlationId requesterId job audit)
    (now : Instant) :
    requestCancel actor correlationId now requesterId job audit = (.ok job, job, audit) := by
  have hreplay : isExactCancelReplay audit job actor correlationId = true := by
    rw [isExactCancelReplay_iff, h.events]
    exact List.mem_singleton_self _
  have hlocked : requestCancelLocked actor correlationId now requesterId job audit =
      .ok (job, audit) := by
    rw [requestCancelLocked, raiseIf_neg h.role, ok_bind, raiseIf_neg (not_not.mpr h.scope),
      ok_bind, if_pos (.inl h.flagged), raiseIf_neg (by simp [hreplay]), ok_bind]
    rfl
  rw [requestCancel, hlocked]

/-- Any other request is refused, and leaves nothing but its denial. -/
theorem CancelledBy.refused (h : CancelledBy actor correlationId requesterId job audit)
    {actor' : User} {correlationId' : UUID}
    (hother : actor'.id ≠ actor.id ∨ correlationId' ≠ correlationId) (now : Instant) :
    ∃ e, requestCancel actor' correlationId' now requesterId job audit =
      (.error e, job, audit ++ [denialEvent actor' "job.cancel_denied" correlationId']) := by
  have hreplay : ¬ isExactCancelReplay audit job actor' correlationId' = true := by
    rw [isExactCancelReplay_iff, h.events, List.mem_singleton]
    intro hsame
    simp only [cancelRequestedEvent, AuditEvent.mk.injEq] at hsame
    rcases hother with hactor | hcorrelation
    · exact hactor hsame.2.1
    · exact hcorrelation hsame.2.2.2.2.2.1
  have hlocked : ∃ e, requestCancelLocked actor' correlationId' now requesterId job audit =
      .error e ∧ e.recordsDenial = true := by
    unfold requestCancelLocked
    by_cases hrole : actor'.role = .auditor
    · rw [raiseIf_pos hrole]
      exact ⟨_, rfl, rfl⟩
    rw [raiseIf_neg hrole, ok_bind]
    by_cases hscope : scopeJobs actor' job requesterId
    · rw [raiseIf_neg (not_not.mpr hscope), ok_bind, if_pos (.inl h.flagged), raiseIf_pos hreplay]
      exact ⟨_, rfl, rfl⟩
    · rw [raiseIf_pos hscope]
      exact ⟨_, rfl, rfl⟩
  obtain ⟨e, hlocked, hdenial⟩ := hlocked
  rw [requestCancel, hlocked]
  exact ⟨e, by simp [hdenial]⟩

end Splitbind
