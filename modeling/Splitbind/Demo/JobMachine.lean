import Splitbind.Demo.JobClosure
import Splitbind.Demo.JobSteps

/-!
# Job machine — the transition table over whole runs

`Orderly` is what every operation on a job row preserves, whatever the pool it starts from: the
attempt, the error code and the cancel flag fit the status, and there is no evidence row before a
worker has taken the job from the queue.
-/

namespace Splitbind

open WorkerPool

/-! ## 1. Orderly jobs -/

/-- A sound job, without an evidence row as long as no worker has taken it from the queue. -/
structure Orderly (job : Job) (resultExists : Bool) : Prop where
  sound : JobSound job
  untaken : job.status = .created ∨ job.status = .queued → resultExists = false

/-- A job never returns to its first status. -/
theorem Advances.of_created {resultExists : Bool} {job job' : Job}
    (h : Advances resultExists job job') (hcreated : job'.status = .created) :
    job.status = .created := by
  rcases h.edge with hsame | hedge
  · exact hsame ▸ hcreated
  · rw [hcreated] at hedge
    cases hs : job.status <;> simp [hs, transitions] at hedge

/-- A step keeps a job orderly if it creates an evidence row only for a job it has in processing
or cancels at once. -/
theorem Orderly.step {resultExists resultExists' : Bool} {job job' : Job}
    {audit audit' : List AuditEvent} (h : Orderly job resultExists)
    (hstep : JobStep resultExists job audit job' audit')
    (hcreates : resultExists = false → resultExists' = true →
      job'.status = .processing ∨ job'.status = .cancelled) : Orderly job' resultExists' where
  sound := hstep.sound h.sound
  untaken := by
    intro hstatus
    have hbefore : resultExists = false := by
      rcases hstatus with hcreated | hqueued
      · exact h.untaken (.inl (hstep.advances.of_created hcreated))
      · rcases hstep.advances.queued hqueued with hs | hs | ⟨-, hnone⟩
        · exact h.untaken (.inr hs)
        · exact h.untaken (.inl hs)
        · exact hnone
    by_contra hafter
    rw [Bool.not_eq_false] at hafter
    have htaken := hcreates hbefore hafter
    rcases hstatus with hs | hs <;> simp [hs] at htaken

/-- A job is orderly when it is created. -/
theorem Orderly.of_created {job : Job} (hstatus : job.status = .created)
    (hattempt : job.attempt = 0) : Orderly job false where
  sound := by
    refine ⟨by simp [hattempt], .of_unfinished ?_ _ _⟩
    simp [hstatus, JobStatus.terminal, transitions]
  untaken := fun _ ↦ rfl

/-- A job with an evidence row is not in the queue. -/
theorem Orderly.not_queued {job : Job} {resultExists : Bool} (h : Orderly job resultExists)
    (hresult : resultExists = true) : job.status ≠ .queued := by
  intro hqueued
  simp [h.untaken (.inr hqueued)] at hresult

/-! ## 2. Runs -/

variable {W : Type*} [DecidableEq W] {settings : Settings}

theorem IssuanceWorker.orderly_of_leads {start pool : IssuanceWorker.Pool W}
    (h : Orderly start.store.rows.job start.store.rows.evidence.isSome)
    (hleads : (IssuanceWorker.program settings).Leads .all start pool) :
    Orderly pool.store.rows.job pool.store.rows.evidence.isSome := by
  refine hleads.keeps
    (fun pool ↦ Orderly pool.store.rows.job pool.store.rows.evidence.isSome)
    (fun u event v _ hstep horderly ↦ ?_) h
  refine horderly.step (step_job hstep).1 fun hnone hsome ↦ .inl ?_
  exact (step_evidence hstep).2 (by simpa using hnone) (Option.isSome_iff_ne_none.mp hsome)

theorem VerificationWorker.orderly_of_leads {start pool : VerificationWorker.Pool W}
    (h : Orderly start.store.job start.store.result.isSome)
    (hleads : (VerificationWorker.program settings).Leads .all start pool) :
    Orderly pool.store.job pool.store.result.isSome := by
  refine hleads.keeps (fun pool ↦ Orderly pool.store.job pool.store.result.isSome)
    (fun u event v _ hstep horderly ↦ ?_) h
  refine horderly.step (step_job hstep).1 fun hnone hsome ↦ ?_
  exact (step_result hstep).2 (by simpa using hnone) (Option.isSome_iff_ne_none.mp hsome)

/-! ## 3. The table is followed -/

/-- What the table says of one step from a job to the next row of it. -/
structure Follows (job job' : Job) : Prop where
  edge : job'.status ≠ job.status → job'.status ∈ transitions job.status
  terminal : job.status.terminal → job'.status = job.status
  attempt : job'.attempt = job.attempt ∨
    job.status = .retryableFailed ∧ job'.status = .queued ∧ job'.attempt = job.attempt + 1

theorem Advances.follows {resultExists : Bool} {job job' : Job}
    (h : Advances resultExists job job') : Follows job job' where
  edge := fun hchanged ↦ h.edge.resolve_left hchanged
  terminal := h.terminal
  attempt := h.attempt

/-- From any pool with an orderly job, such as one just attached, every run keeps the job orderly
and every step of it follows the table and leaves the evidence row in its place. -/
theorem job_follows_table {W : Type*} [DecidableEq W] (settings : Settings) :
    (∀ start pool : IssuanceWorker.Pool W,
      Orderly start.store.rows.job start.store.rows.evidence.isSome →
      (IssuanceWorker.program settings).Leads .all start pool →
      JobSound pool.store.rows.job ∧
      (pool.store.rows.evidence ≠ none → pool.store.rows.job.status ≠ .queued) ∧
      ∀ event pool', (IssuanceWorker.program settings).step pool event = some pool' →
        Follows pool.store.rows.job pool'.store.rows.job ∧
        ∀ e, pool.store.rows.evidence = some e →
          ∃ e', pool'.store.rows.evidence = some e' ∧ ¬ e'.identityChanged e) ∧
    (∀ start pool : VerificationWorker.Pool W,
      Orderly start.store.job start.store.result.isSome →
      (VerificationWorker.program settings).Leads .all start pool →
      JobSound pool.store.job ∧
      (pool.store.result ≠ none → pool.store.job.status ≠ .queued) ∧
      ∀ event pool', (VerificationWorker.program settings).step pool event = some pool' →
        Follows pool.store.job pool'.store.job ∧
        ∀ record, pool.store.result = some record →
          ∃ record', pool'.store.result = some record' ∧ ¬ record'.identityChanged record) ∧
    (∀ start : IssuanceWorker.Pool W, IssuanceWorker.Start start →
      Orderly start.store.rows.job start.store.rows.evidence.isSome) ∧
    (∀ start : VerificationWorker.Pool W, VerificationWorker.Start start →
      Orderly start.store.job start.store.result.isSome) := by
  refine ⟨fun start pool hstart hleads ↦ ?_, fun start pool hstart hleads ↦ ?_,
    fun start hstart ↦ ?_, fun start hstart ↦ ?_⟩
  · have horderly := IssuanceWorker.orderly_of_leads hstart hleads
    refine ⟨horderly.sound, fun hsome ↦ ?_, fun event pool' hstep ↦ ⟨?_, ?_⟩⟩
    · exact horderly.not_queued (Option.isSome_iff_ne_none.mpr hsome)
    · exact (IssuanceWorker.step_job hstep).1.advances.follows
    · exact (IssuanceWorker.step_evidence hstep).1
  · have horderly := VerificationWorker.orderly_of_leads hstart hleads
    refine ⟨horderly.sound, fun hsome ↦ ?_, fun event pool' hstep ↦ ⟨?_, ?_⟩⟩
    · exact horderly.not_queued (Option.isSome_iff_ne_none.mpr hsome)
    · exact (VerificationWorker.step_job hstep).1.advances.follows
    · exact (VerificationWorker.step_result hstep).1
  · rw [hstart.attached.evidence]
    exact .of_created hstart.attached.status hstart.attached.attempt
  · rw [hstart.attached.result]
    exact .of_created hstart.attached.status hstart.attached.attempt

open IssuanceWorker in
/-- A job that may be tried a second time, with two idle workers. -/
def retryablePool : Pool (Fin 2) where
  store := { samplePool.store with rows := { sampleRows with
    job := { sampleJob with status := .retryableFailed, attempt := 1 } } }
  phase := fun _ ↦ .idle

open IssuanceWorker in
/-- It is queued again and claimed. -/
def retriedRun : List (Event (Fin 2) Input JobEvent) :=
  [.environment (.retry 1), .worker 0 (.claimNextJob .demo ⟨10⟩ 2 .none)]

open IssuanceWorker in
theorem job_follows_table_sample :
    (∃ pool, (program sampleSettings).Leads .all retryablePool pool ∧
      pool.store.rows.job.attempt = 2 ∧ pool.store.rows.evidence ≠ none ∧
      pool.store.rows.job.status ≠ .queued ∧ JobSound pool.store.rows.job) ∧
    ∃ pool, (VerificationWorker.program demoSettings).Leads .all sampleVerificationPool pool ∧
      pool.store.job.status = .cancelled ∧ JobSound pool.store.job := by
  constructor
  · have hrun : ∃ pool, (program sampleSettings).Leads .all retryablePool pool ∧
        (pool.store.rows.job.attempt, pool.store.rows.evidence.isSome) = (2, true) :=
      Program.leads_of_exec_map retriedRun (by decide +kernel)
    obtain ⟨pool, hleads, hread⟩ := hrun
    simp only [Prod.mk.injEq] at hread
    have horderly : Orderly retryablePool.store.rows.job
        retryablePool.store.rows.evidence.isSome :=
      ⟨⟨by decide, .of_unfinished (by decide) _ _⟩, fun _ ↦ rfl⟩
    have hsome := Option.isSome_iff_ne_none.mp hread.2
    obtain ⟨hsound, hqueued, -⟩ :=
      (job_follows_table sampleSettings).1 retryablePool pool horderly hleads
    exact ⟨pool, hleads, hread.1, hsome, hqueued hsome, hsound⟩
  · have hrun : ∃ pool, (VerificationWorker.program demoSettings).Leads .all
        sampleVerificationPool pool ∧ pool.store.job.status = .cancelled :=
      Program.leads_of_exec_map cancelledVerificationRun (by decide +kernel)
    obtain ⟨pool, hleads, hstatus⟩ := hrun
    have horderly := (job_follows_table demoSettings).2.2.2 sampleVerificationPool
      sampleVerificationPool_start
    obtain ⟨hsound, -⟩ :=
      (job_follows_table demoSettings).2.1 sampleVerificationPool pool horderly hleads
    exact ⟨pool, hleads, hstatus, hsound⟩

end Splitbind
