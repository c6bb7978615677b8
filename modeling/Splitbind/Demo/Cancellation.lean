import Splitbind.Demo.JobClosure
import Splitbind.Demo.JobSteps
import Splitbind.Jobs.Cancellation

/-!
# Cancellation — the first accepted request is final

The request that flags a job is the only one its log names.  Whatever runs afterwards, the job
never succeeds, its evidence is never committed, the request can be replayed, and any other is
refused.
-/

namespace Splitbind

open WorkerPool

/-! ## 1. Jobs that wait -/

/-- What holds of a job that waits for a worker, for the first time or again: no cancel request
has been accepted. -/
structure Waits (job : Job) (audit : List AuditEvent) : Prop where
  status : job.status = .created ∨ job.status = .queued ∨ job.status = .retryableFailed
  attempt : job.attempt ≤ maxJobAttempt
  unflagged : job.cancelRequestedAt = none
  unaudited : cancelEvents job.id audit = []

theorem Waits.cancelLog {job : Job} {audit : List AuditEvent} (h : Waits job audit) :
    CancelLog job audit where
  unflagged := fun _ ↦ h.unaudited
  flagged := fun hflag ↦ absurd h.unflagged hflag
  cancelled := fun hcancelled ↦ by
    have hstatus := h.status
    simp [hcancelled] at hstatus

/-- What a successful request leaves behind, now and for ever: the job cannot succeed, the
request can be replayed, and any other is refused. -/
structure Cancelled (actor : User) (correlationId requesterId : UUID) (job : Job)
    (audit : List AuditEvent) : Prop where
  unsuccessful : job.status ≠ .succeeded
  events : cancelEvents job.id audit = [cancelRequestedEvent actor job correlationId]
  replay : ∀ now, requestCancel actor correlationId now requesterId job audit =
    (.ok job, job, audit)
  refused : ∀ actor' correlationId' now, actor'.id ≠ actor.id ∨ correlationId' ≠ correlationId →
    ∃ e, requestCancel actor' correlationId' now requesterId job audit =
      (.error e, job, audit ++ [denialEvent actor' "job.cancel_denied" correlationId'])

theorem CancelledBy.cancelled {actor : User} {correlationId requesterId : UUID} {job : Job}
    {audit : List AuditEvent} (h : CancelledBy actor correlationId requesterId job audit)
    (hflagged : job.cancelRequestedAt ≠ none → job.status ≠ .succeeded) :
    Cancelled actor correlationId requesterId job audit where
  unsuccessful := hflagged h.flagged
  events := h.events
  replay := h.replay
  refused := fun _ _ now hother ↦ h.refused hother now

/-- A request that returns is the one its log names from then on. -/
theorem CancelledBy.of_requestCancel {actor : User} {correlationId requesterId : UUID}
    {now : Instant} {job : Job} {audit : List AuditEvent} (hlog : CancelLog job audit)
    (h : (requestCancel actor correlationId now requesterId job audit).1.isOk) :
    CancelledBy actor correlationId requesterId
      (requestCancel actor correlationId now requesterId job audit).2.1
      (requestCancel actor correlationId now requesterId job audit).2.2 := by
  unfold requestCancel at h ⊢
  rcases hlocked : requestCancelLocked actor correlationId now requesterId job audit with
    e | ⟨job', audit'⟩
  · rw [hlocked] at h
    simp only at h
    split at h <;> simp [Except.isOk, Except.toBool] at h
  · exact .of_request hlog hlocked

variable {W : Type*} {settings : Settings}

/-! ## 2. Issuance jobs -/

namespace IssuanceWorker

/-- The pools a run starts from: an issuance that waits, without evidence or output, and every
worker idle. -/
structure Waiting (pool : Pool W) : Prop where
  bound : pool.store.rows.Bound
  waits : Waits pool.store.rows.job pool.store.rows.audit
  evidence : pool.store.rows.evidence = none
  unpublished : Unpublished pool.store.rows
  idle : ∀ w, pool.phase w = .idle

theorem assertions_of_waiting {pool : Pool W} (h : Waiting pool) :
    (assertions settings).Holds pool where
  shared := {
    bound := h.bound
    attempt := h.waits.attempt
    status := by
      rcases h.waits.status with hs | hs | hs <;>
        constructor <;> simp [hs, h.evidence, h.waits.unflagged]
    evidence := by simp [h.evidence]
    published := by simp [h.evidence]
    unpublished := fun _ ↦ h.unpublished }
  own := fun w ↦ by
    rw [h.idle w]
    exact ⟨fun t ht ↦ by simp [token] at ht, trivial⟩
  apart := fun w v _ ↦ by
    rw [h.idle w]
    exact fun t ht ↦ by simp [token] at ht

theorem Start.waiting {pool : Pool W} (h : Start pool) : Waiting pool where
  bound := IssuanceRows.validateLockedBinding_eq_ok.mp h.attached.bound
  waits := {
    status := .inl h.attached.status
    attempt := by simp [h.attached.attempt]
    unflagged := h.attached.unflagged
    unaudited := cancelEvents_eq_nil.mpr h.attached.unaudited }
  evidence := h.attached.evidence
  unpublished := ⟨h.attached.outputObjectKey, h.attached.outputSha256, h.attached.receipts,
    h.attached.manifests⟩
  idle := h.idle

variable [DecidableEq W] {start pool pool' : Pool W}

theorem consistent_of_waiting (h : Waiting start)
    (hleads : (program settings).Leads .all start pool) : Consistent settings pool.store :=
  (assertions_sound.leads (fun u _ ↦ Assertions.trivial_holds u) (assertions_of_waiting h)
    hleads).shared

theorem cancelLog_of_waiting (h : Waiting start)
    (hleads : (program settings).Leads .all start pool) :
    CancelLog pool.store.rows.job pool.store.rows.audit :=
  hleads.keeps (fun pool ↦ CancelLog pool.store.rows.job pool.store.rows.audit)
    (fun _ _ _ _ hstep hlog ↦ hlog.step (step_job hstep).1) h.waits.cancelLog

theorem cancelledBy_of_leads {actor : User} {correlationId requesterId : UUID}
    (h : CancelledBy actor correlationId requesterId pool.store.rows.job pool.store.rows.audit)
    (hleads : (program settings).Leads .all pool pool') :
    CancelledBy actor correlationId requesterId pool'.store.rows.job pool'.store.rows.audit :=
  hleads.keeps
    (fun pool ↦ CancelledBy actor correlationId requesterId pool.store.rows.job
      pool.store.rows.audit)
    (fun _ _ _ _ hstep hby ↦ hby.step (step_job hstep).1) h

/-- The requester of an issuance never changes. -/
theorem requester_of_leads (hleads : (program settings).Leads .all pool pool') :
    pool'.store.rows.issuance.createdById = pool.store.rows.issuance.createdById :=
  hleads.keeps
    (fun u ↦ u.store.rows.issuance.createdById = pool.store.rows.issuance.createdById)
    (fun _ _ _ _ hstep hsame ↦ (step_job hstep).2.trans hsame) rfl

end IssuanceWorker

/-! ## 3. Verification jobs -/

namespace VerificationWorker

/-- The pools a run starts from: a verification that waits, without a result, and every worker
idle. -/
structure Waiting (pool : Pool W) : Prop where
  bound : pool.store.validateLockedBinding = .ok ()
  waits : Waits pool.store.job pool.store.audit
  unverified : pool.store.verification.status = none
  result : pool.store.result = none
  receipts : pool.store.receipts = []
  idle : ∀ w, pool.phase w = .idle

theorem Start.waiting {pool : Pool W} (h : Start pool) : Waiting pool where
  bound := h.attached.bound
  waits := {
    status := .inl h.attached.status
    attempt := by simp [h.attached.attempt]
    unflagged := h.attached.unflagged
    unaudited := cancelEvents_eq_nil.mpr h.attached.unaudited }
  unverified := h.attached.unverified
  result := h.attached.result
  receipts := h.attached.receipts
  idle := h.idle

variable [DecidableEq W] {start pool pool' : Pool W}

theorem resultFits_of_waiting (h : Waiting start)
    (hleads : (program settings).Leads .all start pool) :
    ResultFits pool.store.job pool.store.result := by
  have hfits : ResultFits start.store.job start.store.result := by
    rw [h.result]
    rcases h.waits.status with hs | hs | hs <;>
      constructor <;> simp [hs, h.waits.unflagged, JobStatus.terminal, transitions]
  exact (resultAssertions_sound.leads (fun u _ ↦ Assertions.trivial_holds u)
    ⟨hfits, fun _ ↦ trivial, fun _ _ _ ↦ trivial⟩ hleads).shared

theorem cancelLog_of_waiting (h : Waiting start)
    (hleads : (program settings).Leads .all start pool) :
    CancelLog pool.store.job pool.store.audit :=
  hleads.keeps (fun pool ↦ CancelLog pool.store.job pool.store.audit)
    (fun _ _ _ _ hstep hlog ↦ hlog.step (step_job hstep).1) h.waits.cancelLog

theorem cancelledBy_of_leads {actor : User} {correlationId requesterId : UUID}
    (h : CancelledBy actor correlationId requesterId pool.store.job pool.store.audit)
    (hleads : (program settings).Leads .all pool pool') :
    CancelledBy actor correlationId requesterId pool'.store.job pool'.store.audit :=
  hleads.keeps
    (fun pool ↦ CancelledBy actor correlationId requesterId pool.store.job pool.store.audit)
    (fun _ _ _ _ hstep hby ↦ hby.step (step_job hstep).1) h

/-- The requester of a verification never changes. -/
theorem requester_of_leads (hleads : (program settings).Leads .all pool pool') :
    pool'.store.verification.requestedById = pool.store.verification.requestedById :=
  hleads.keeps
    (fun u ↦ u.store.verification.requestedById = pool.store.verification.requestedById)
    (fun _ _ _ _ hstep hsame ↦ (step_job hstep).2.trans hsame) rfl

end VerificationWorker

/-! ## 4. Cancellation is final -/

/-- Once a cancel request has returned, no run makes the job succeed or commits its evidence, the
request can be replayed without effect, and any other leaves nothing but its denial. -/
theorem cancellation_final [DecidableEq W] (settings : Settings) (actor : User)
    (correlationId : UUID) (now : Instant) :
    (∀ start pool pool' pool'' : IssuanceWorker.Pool W, IssuanceWorker.Waiting start →
      (IssuanceWorker.program settings).Leads .all start pool →
      (requestCancel actor correlationId now pool.store.rows.issuance.createdById
        pool.store.rows.job pool.store.rows.audit).1.isOk →
      (IssuanceWorker.program settings).step pool
        (.environment (.cancel actor correlationId now)) = some pool' →
      (IssuanceWorker.program settings).Leads .all pool' pool'' →
      Cancelled actor correlationId pool''.store.rows.issuance.createdById
        pool''.store.rows.job pool''.store.rows.audit ∧
      ∀ e, pool''.store.rows.evidence = some e → e.outputState ≠ .committed) ∧
    ∀ start pool pool' pool'' : VerificationWorker.Pool W, VerificationWorker.Waiting start →
      (VerificationWorker.program settings).Leads .all start pool →
      (requestCancel actor correlationId now pool.store.verification.requestedById
        pool.store.job pool.store.audit).1.isOk →
      (VerificationWorker.program settings).step pool
        (.environment (.cancel actor correlationId now)) = some pool' →
      (VerificationWorker.program settings).Leads .all pool' pool'' →
      Cancelled actor correlationId pool''.store.verification.requestedById
        pool''.store.job pool''.store.audit ∧
      ∀ record, pool''.store.result = some record → record.resultState ≠ .committed := by
  constructor
  · -- the log says who cancelled, and a flagged job never succeeds
    intro start pool pool' pool'' hstart hleads hreturned hstep hleads'
    have hby := CancelledBy.of_requestCancel
      (IssuanceWorker.cancelLog_of_waiting hstart hleads) hreturned
    obtain ⟨store, henvironment, rfl⟩ := Program.step_environment hstep
    obtain rfl := Option.some.inj henvironment
    have hafter := IssuanceWorker.cancelledBy_of_leads hby hleads'
    have hconsistent := IssuanceWorker.consistent_of_waiting hstart
      (.trans (.tail hleads ⟨_, Program.Allowed.all_permits _ _, hstep⟩) hleads')
    rw [IssuanceWorker.requester_of_leads hleads']
    have hunsuccessful := hconsistent.status.flagged hafter.flagged
    exact ⟨hafter.cancelled hconsistent.status.flagged,
      fun e he ↦ hconsistent.uncommitted hunsuccessful he⟩
  · intro start pool pool' pool'' hstart hleads hreturned hstep hleads'
    have hby := CancelledBy.of_requestCancel
      (VerificationWorker.cancelLog_of_waiting hstart hleads) hreturned
    obtain ⟨store, henvironment, rfl⟩ := Program.step_environment hstep
    obtain rfl := Option.some.inj henvironment
    have hafter := VerificationWorker.cancelledBy_of_leads hby hleads'
    have hfits := VerificationWorker.resultFits_of_waiting hstart
      (.trans (.tail hleads ⟨_, Program.Allowed.all_permits _ _, hstep⟩) hleads')
    rw [VerificationWorker.requester_of_leads hleads']
    have hunsuccessful := hfits.flagged hafter.flagged
    refine ⟨hafter.cancelled hfits.flagged, fun record hresult hcommitted ↦ ?_⟩
    exact hunsuccessful (hfits.succeeded.mpr ⟨record, hresult, hcommitted⟩)

open IssuanceWorker in
/-- What the worker of a cancelled issuance does after its upload. -/
def compensatingRun : List (Event (Fin 2) Input JobEvent) :=
  [.worker 0 (.commit 7 sampleSigning 8 .none),
    .worker 0 (.authorize .none false),
    .worker 0 (.delete .deleted),
    .worker 0 (.persist 9 .none false)]

/-- A verification that has been claimed. -/
def claimedVerificationRun : List (Event (Fin 2) VerificationInput JobEvent) :=
  [.environment (.stage true 1), .worker 0 (.claimNextJob .demo ⟨31⟩ 2 .none)]

/-- What its worker does when it has been cancelled. -/
def stoppingRun : List (Event (Fin 2) VerificationInput JobEvent) :=
  [.worker 0 (.acquire emptySources 4 .none),
    .worker 0 .loaded,
    .worker 0 (.cancelBeforeWork 5 .none)]

open IssuanceWorker in
theorem cancellation_final_sample :
    (∃ pool : Pool (Fin 2), pool.store.rows.job.status = .cancelled ∧
      ∃ e, pool.store.rows.evidence = some e ∧ e.outputState ≠ .committed) ∧
    ∃ pool : VerificationWorker.Pool (Fin 2), pool.store.job.status = .cancelled ∧
      ∃ record, pool.store.result = some record ∧ record.resultState ≠ .committed := by
  constructor
  · have hrun : ∃ pool, (program sampleSettings).Leads .all samplePool pool ∧
        ((requestCancel sampleAdministrator ⟨12⟩ 5 pool.store.rows.issuance.createdById
          pool.store.rows.job pool.store.rows.audit).1.isOk,
          (((program sampleSettings).step pool
            (.environment (.cancel sampleAdministrator ⟨12⟩ 5))).bind fun pool' ↦
              (program sampleSettings).exec Program.Allowed.all.permits pool'
                compensatingRun).map
            fun pool'' ↦ (pool''.store.rows.job.status, pool''.store.rows.evidence.isSome)) =
          (true, some (.cancelled, true)) :=
      Program.leads_of_exec_map (uploadRun ⟨⟨11⟩, 2⟩) (by decide +kernel)
    obtain ⟨pool, hleads, hread⟩ := hrun
    simp only [Prod.mk.injEq, Option.map_eq_some_iff, Option.bind_eq_some_iff] at hread
    obtain ⟨hreturned, pool'', ⟨pool', hstep, hexec⟩, hstatus, hsome⟩ := hread
    obtain ⟨-, huncommitted⟩ := (cancellation_final sampleSettings sampleAdministrator ⟨12⟩ 5).1
      samplePool pool pool' pool'' samplePool_start.waiting hleads hreturned hstep
        (Program.leads_of_exec hexec)
    obtain ⟨e, he⟩ := Option.isSome_iff_exists.mp hsome
    exact ⟨pool'', hstatus, e, he, huncommitted e he⟩
  · have hrun : ∃ pool, (VerificationWorker.program demoSettings).Leads .all
        sampleVerificationPool pool ∧
        ((requestCancel sampleAdministrator ⟨12⟩ 3 pool.store.verification.requestedById
          pool.store.job pool.store.audit).1.isOk,
          (((VerificationWorker.program demoSettings).step pool
            (.environment (.cancel sampleAdministrator ⟨12⟩ 3))).bind fun pool' ↦
              (VerificationWorker.program demoSettings).exec Program.Allowed.all.permits pool'
                stoppingRun).map
            fun pool'' ↦ (pool''.store.job.status, pool''.store.result.isSome)) =
          (true, some (.cancelled, true)) :=
      Program.leads_of_exec_map claimedVerificationRun (by decide +kernel)
    obtain ⟨pool, hleads, hread⟩ := hrun
    simp only [Prod.mk.injEq, Option.map_eq_some_iff, Option.bind_eq_some_iff] at hread
    obtain ⟨hreturned, pool'', ⟨pool', hstep, hexec⟩, hstatus, hsome⟩ := hread
    obtain ⟨-, huncommitted⟩ := (cancellation_final demoSettings sampleAdministrator ⟨12⟩ 3).2
      sampleVerificationPool pool pool' pool'' sampleVerificationPool_start.waiting hleads
        hreturned hstep (Program.leads_of_exec hexec)
    obtain ⟨record, hrecord⟩ := Option.isSome_iff_exists.mp hsome
    exact ⟨pool'', hstatus, record, hrecord, huncommitted record hrecord⟩

end Splitbind
