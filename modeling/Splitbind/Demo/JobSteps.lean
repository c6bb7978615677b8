import Splitbind.Demo.IssuanceInvariant
import Splitbind.Demo.VerificationSteps

/-!
# Job steps — what a step of either worker does to its job

Whatever a worker does, its job row changes as `Worked` says, the audit log and the requester
stay, and the evidence row is never replaced by another.
-/

namespace Splitbind

open Transaction

/-! ## 1. Issuance workers -/

namespace IssuanceWorker

open IssuanceRows

variable {settings : Settings} {store store' : IssuanceStore} {p p' : Phase}

theorem recordFailedJob_worked {rows rows' : IssuanceRows} {claim : ProcessingClaim}
    {code : SafeErrorCode} {failures : Nat} {now : Instant}
    (h : rows.recordFailedJob claim code failures now = .ok ((), rows')) :
    Worked rows.job rows'.job := by
  rcases recordFailedJob_cases h with rfl | ⟨e, -, -, hprocessing, -, -, rfl⟩
  · exact .kept
  · exact .failed hprocessing code now

theorem compensatedJob_worked (job : Job) (code : SafeErrorCode) (failures : Nat)
    (now : Instant) : Worked job (compensatedJob job code failures now) := by
  unfold compensatedJob
  split
  · rename_i hcancelled
    exact .compensated _ now hcancelled
  · exact .kept

theorem Stepped.worked (h : Stepped settings store p store' p') :
    Worked store.rows.job store'.rows.job := by
  cases h with
  | crashed | ended | left | called | missed | acquired | created | built | begun | put
  | commitFailed | authorized | deleted | staleAuthorized | staleDeleted | staleFailed
  | tombstoneDeleted => exact .kept
  | unclaimed ownerToken policy now job' hfresh hclaim hcoded =>
    exact claimJob_worked hcoded hclaim
  | claimed ownerToken now p' hfresh hqueued =>
    exact .transitioned .processing store.rows.job.safeErrorCode now
      (by simp [hqueued, transitions]) (by simp)
      (.of_unfinished (by simp [JobStatus.terminal, transitions]) _ _)
  | recovered recoveryToken now result rows' p' hfresh hrecovered =>
    cases hrecovered with
    | skipped | tombstone | claimed => exact .kept
    | replayed e code job' he hprocessing hcommitted hworked => exact hworked
    | recorded e rows' he hprocessing hstate hrecord => exact recordFailedJob_worked hrecord
  | acquireCancelled ownerToken now hprocessing hcancel =>
    exact .cancelled hprocessing hcancel store.rows.job.safeErrorCode now
  | beginCancelled claim artifact now e p' he howns hprocessing hstate hcancel =>
    exact .cancelled hprocessing hcancel store.rows.job.safeErrorCode now
  | commitCancelled claim artifact now e compensation he howns hprocessing hcancel =>
    exact .cancelled hprocessing hcancel store.rows.job.safeErrorCode now
  | committed claim artifact ms signing now e manifests p' he howns hnames hprocessing =>
    exact .succeeded hprocessing now
  | persisted claim compensation isDeleted now => exact compensatedJob_worked _ _ _ now
  | recorded claim code failures now rows' hrecord => exact recordFailedJob_worked hrecord
  | staleAcknowledged claim prior now e he howns hprocessing => exact .failed hprocessing _ now

/-- The columns around the job that no worker touches. -/
structure Around (rows rows' : IssuanceRows) : Prop where
  audit : rows'.audit = rows.audit
  createdById : rows'.issuance.createdById = rows.issuance.createdById

theorem recordFailedJob_around {rows rows' : IssuanceRows} {claim : ProcessingClaim}
    {code : SafeErrorCode} {failures : Nat} {now : Instant}
    (h : rows.recordFailedJob claim code failures now = .ok ((), rows')) : Around rows rows' := by
  rcases recordFailedJob_cases h with rfl | ⟨e, -, -, -, -, -, rfl⟩ <;> exact ⟨rfl, rfl⟩

theorem Stepped.around (h : Stepped settings store p store' p') :
    Around store.rows store'.rows := by
  cases h with
  | recovered recoveryToken now result rows' p' hfresh hrecovered =>
    cases hrecovered with
    | recorded e rows' he hprocessing hstate hrecord => exact recordFailedJob_around hrecord
    | _ => exact ⟨rfl, rfl⟩
  | recorded claim code failures now rows' hrecord => exact recordFailedJob_around hrecord
  | _ => exact ⟨rfl, rfl⟩

/-- The evidence row of a job is never replaced by another. -/
theorem Stepped.sameEvidence (h : Stepped settings store p store' p')
    {e : DemoIssuanceResult} (he : store.rows.evidence = some e) :
    ∃ e', store'.rows.evidence = some e' ∧ ¬ e'.identityChanged e := by
  have hkept : ∃ e', store.rows.evidence = some e' ∧ ¬ e'.identityChanged e :=
    ⟨e, he, by simp [DemoIssuanceResult.identityChanged]⟩
  have hrecorded : ∀ {claim code failures now rows'},
      store.rows.recordFailedJob claim code failures now = .ok ((), rows') →
      ∃ e', rows'.evidence = some e' ∧ ¬ e'.identityChanged e := by
    intro claim code failures now rows' hrecord
    rcases recordFailedJob_cases hrecord with rfl | ⟨e₁, he₁, -, -, -, -, rfl⟩
    · exact hkept
    · obtain rfl := Option.some.inj (he.symm.trans he₁)
      exact ⟨_, rfl, by simp [DemoIssuanceResult.identityChanged, failedEvidence]⟩
  cases h with
  | claimed _ _ _ _ _ _ _ hnone | created _ _ _ _ hnone => simp [hnone] at he
  | recovered recoveryToken now result rows' p' hfresh hrecovered =>
    cases hrecovered with
    | skipped | tombstone | replayed => exact hkept
    | claimed e₁ he₁ =>
      obtain rfl := Option.some.inj (he.symm.trans he₁)
      exact ⟨_, rfl, by simp [DemoIssuanceResult.identityChanged]⟩
    | recorded e₁ rows' he₁ hprocessing hstate hrecord => exact hrecorded hrecord
  | recorded claim code failures now rows' hrecord => exact hrecorded hrecord
  | beginCancelled claim artifact now e₁ p' he₁ | begun claim artifact now e₁ p' he₁
  | persisted claim compensation isDeleted now e₁ p' he₁ | staleFailed claim prior now e₁ he₁
  | staleAcknowledged claim prior now e₁ he₁ =>
    obtain rfl := Option.some.inj (he.symm.trans he₁)
    exact ⟨_, rfl, by simp [DemoIssuanceResult.identityChanged]⟩
  | committed claim artifact ms signing now e₁ manifests p' he₁ =>
    obtain rfl := Option.some.inj (he.symm.trans he₁)
    exact ⟨_, rfl, by simp [DemoIssuanceResult.identityChanged, committedEvidence]⟩
  | _ => exact hkept

/-- A worker creates the evidence row of a job it has taken from the queue, or has in
processing. -/
theorem Stepped.evidence_created (h : Stepped settings store p store' p')
    (hnone : store.rows.evidence = none) (hsome : store'.rows.evidence ≠ none) :
    store'.rows.job.status = .processing := by
  cases h with
  | claimed => rfl
  | created ownerToken now p' hprocessing => exact hprocessing
  | recovered recoveryToken now result rows' p' hfresh hrecovered =>
    cases hrecovered with
    | recorded e rows' he => simp [hnone] at he
    | claimed e he => simp [hnone] at he
    | _ => exact absurd hnone hsome
  | recorded claim code failures now rows' hrecord =>
    rcases recordFailedJob_cases hrecord with rfl | ⟨e, he, -⟩
    · exact absurd hnone hsome
    · simp [hnone] at he
  | beginCancelled claim artifact now e p' he | begun claim artifact now e p' he
  | persisted claim compensation isDeleted now e p' he | staleFailed claim prior now e he
  | staleAcknowledged claim prior now e he
  | committed claim artifact ms signing now e manifests p' he => simp [hnone] at he
  | _ => exact absurd hnone hsome

variable {W : Type*} [DecidableEq W] {pool pool' : Pool W}

/-- What one event of a pool does to the job, its log and its requester. -/
theorem step_job {event : WorkerPool.Event W Input JobEvent}
    (h : (program settings).step pool event = some pool') :
    JobStep pool.store.rows.evidence.isSome pool.store.rows.job pool.store.rows.audit
        pool'.store.rows.job pool'.store.rows.audit ∧
      pool'.store.rows.issuance.createdById = pool.store.rows.issuance.createdById := by
  cases event with
  | worker w input =>
    obtain ⟨store, p, hcall, rfl⟩ := WorkerPool.Program.step_worker h
    have hstepped := call_stepped hcall
    have haround := hstepped.around
    exact ⟨haround.audit ▸ .worked hstepped.worked, haround.createdById⟩
  | environment event =>
    obtain ⟨store, henvironment, rfl⟩ := WorkerPool.Program.step_environment h
    obtain ⟨job', audit', hmoved, rfl⟩ := environment_moved henvironment
    exact ⟨.moved hmoved, rfl⟩

theorem step_evidence {event : WorkerPool.Event W Input JobEvent}
    (h : (program settings).step pool event = some pool') :
    (∀ e, pool.store.rows.evidence = some e →
      ∃ e', pool'.store.rows.evidence = some e' ∧ ¬ e'.identityChanged e) ∧
    (pool.store.rows.evidence = none → pool'.store.rows.evidence ≠ none →
      pool'.store.rows.job.status = .processing) := by
  cases event with
  | worker w input =>
    obtain ⟨store, p, hcall, rfl⟩ := WorkerPool.Program.step_worker h
    have hstepped := call_stepped hcall
    exact ⟨fun e he ↦ hstepped.sameEvidence he, hstepped.evidence_created⟩
  | environment event =>
    obtain ⟨store, henvironment, rfl⟩ := WorkerPool.Program.step_environment h
    obtain ⟨job', audit', -, rfl⟩ := environment_moved henvironment
    refine ⟨fun e he ↦ ⟨e, he, by simp [DemoIssuanceResult.identityChanged]⟩, fun hnone hsome ↦ ?_⟩
    exact absurd hnone hsome

end IssuanceWorker

/-! ## 2. Verification workers -/

namespace VerificationRows

variable {rows rows' : VerificationRows}

theorem Moves.worked (h : rows.Moves rows') : Worked rows.job rows'.job := by
  cases h with
  | kept | created => exact .kept
  | unclaimed policy now job' hclaim hcoded => exact claimJob_worked hcoded hclaim
  | claimed record now hqueued =>
    exact .transitioned .processing rows.job.safeErrorCode now
      (by simp [hqueued, transitions]) (by simp)
      (.of_unfinished (by simp [JobStatus.terminal, transitions]) _ _)
  | cancelled old record now hresult hprocessing hcancel =>
    exact .cancelled hprocessing hcancel none now
  | committed old record verification organizationId now hresult hprocessing =>
    exact .succeeded hprocessing now
  | failed code old record verification now hresult hprocessing =>
    exact .failed hprocessing code now
  | replayed record job' hresult hcommitted hprocessing hworked => exact hworked

/-- The columns around the job that no worker touches. -/
structure Around (rows rows' : VerificationRows) : Prop where
  audit : rows'.audit = rows.audit
  requestedById : rows'.verification.requestedById = rows.verification.requestedById

theorem Moves.around (h : rows.Moves rows') : Around rows rows' := by
  cases h with
  | committed _ _ _ _ _ _ _ _ _ _ _ hrequester => exact ⟨rfl, hrequester⟩
  | failed _ _ _ _ _ _ _ _ _ _ _ hrequester => exact ⟨rfl, hrequester⟩
  | _ => exact ⟨rfl, rfl⟩

/-- The result row of a job is never replaced by another. -/
theorem Moves.sameResult (h : rows.Moves rows') {record : DemoVerificationResult}
    (hresult : rows.result = some record) :
    ∃ record', rows'.result = some record' ∧ ¬ record'.identityChanged record := by
  have hkept : ∃ record', rows.result = some record' ∧ ¬ record'.identityChanged record :=
    ⟨record, hresult, by simp [DemoVerificationResult.identityChanged]⟩
  cases h with
  | claimed _ _ _ _ hnone | created _ _ hnone => simp [hnone] at hresult
  | cancelled old record' now hold hprocessing hcancel hstate hsame =>
    rcases hold with hold | hnone
    · obtain rfl := Option.some.inj (hresult.symm.trans hold)
      exact ⟨record', rfl, hsame⟩
    · simp [hnone] at hresult
  | committed old record' verification organizationId now hold hprocessing hcancel hstate hsame =>
    obtain rfl := Option.some.inj (hresult.symm.trans hold)
    exact ⟨record', rfl, hsame⟩
  | failed code old record' verification now hold hprocessing hstate hsame =>
    obtain rfl := Option.some.inj (hresult.symm.trans hold)
    exact ⟨record', rfl, hsame⟩
  | _ => exact hkept

/-- A worker creates the result row of a job it has in processing, and may cancel it at once. -/
theorem Moves.result_created (h : rows.Moves rows') (hnone : rows.result = none)
    (hsome : rows'.result ≠ none) :
    rows'.job.status = .processing ∨ rows'.job.status = .cancelled := by
  cases h with
  | claimed => exact .inl rfl
  | created record hprocessing => exact .inl hprocessing
  | cancelled => exact .inr rfl
  | committed old record verification organizationId now hresult => simp [hnone] at hresult
  | failed code old record verification now hresult => simp [hnone] at hresult
  | _ => exact absurd hnone hsome

end VerificationRows

namespace VerificationWorker

variable {settings : Settings} {W : Type*} [DecidableEq W] {pool pool' : Pool W}

/-- What one event of a pool does to the job, its log and its requester. -/
theorem step_job {event : WorkerPool.Event W VerificationInput JobEvent}
    (h : (program settings).step pool event = some pool') :
    JobStep pool.store.result.isSome pool.store.job pool.store.audit pool'.store.job
        pool'.store.audit ∧
      pool'.store.verification.requestedById = pool.store.verification.requestedById := by
  cases event with
  | worker w input =>
    obtain ⟨rows, p, hcall, rfl⟩ := WorkerPool.Program.step_worker h
    have hmoves := call_moves hcall
    have haround := hmoves.around
    exact ⟨haround.audit ▸ .worked hmoves.worked, haround.requestedById⟩
  | environment event =>
    obtain ⟨rows, henvironment, rfl⟩ := WorkerPool.Program.step_environment h
    obtain ⟨job', audit', hmoved, rfl⟩ := environment_moved henvironment
    exact ⟨.moved hmoved, rfl⟩

theorem step_result {event : WorkerPool.Event W VerificationInput JobEvent}
    (h : (program settings).step pool event = some pool') :
    (∀ record, pool.store.result = some record →
      ∃ record', pool'.store.result = some record' ∧ ¬ record'.identityChanged record) ∧
    (pool.store.result = none → pool'.store.result ≠ none →
      pool'.store.job.status = .processing ∨ pool'.store.job.status = .cancelled) := by
  cases event with
  | worker w input =>
    obtain ⟨rows, p, hcall, rfl⟩ := WorkerPool.Program.step_worker h
    have hmoves := call_moves hcall
    exact ⟨fun record hresult ↦ hmoves.sameResult hresult, hmoves.result_created⟩
  | environment event =>
    obtain ⟨rows, henvironment, rfl⟩ := WorkerPool.Program.step_environment h
    obtain ⟨job', audit', -, rfl⟩ := environment_moved henvironment
    refine ⟨fun record hresult ↦ ⟨record, hresult, ?_⟩, fun hnone hsome ↦ absurd hnone hsome⟩
    simp [DemoVerificationResult.identityChanged]

end VerificationWorker

end Splitbind
