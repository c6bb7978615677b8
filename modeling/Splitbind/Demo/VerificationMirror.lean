import Splitbind.Demo.Cancellation

/-!
# Verification mirror — one result in four rows

A verification's result stands in its result row, in the verification itself, in the job and in a
receipt.  The four are written by different transactions; in every reachable state they agree.
-/

namespace Splitbind

open WorkerPool

namespace VerificationWorker

variable {settings : Settings} {rows rows' : VerificationRows}

/-! ## 1. The mirror -/

/-- What the other rows say when the result row is in the given state. -/
structure Mirrored (rows : VerificationRows) : Prop where
  unfinished : (∀ record, rows.result = some record → record.resultState = .reserved) →
    rows.verification.status = none ∧ rows.receipts = []
  committed : ∀ record, rows.result = some record → record.resultState = .committed →
    (∃ receipt, rows.receipts = [receipt]) ∧
      VerificationRows.Mirrors rows.verification record
  failed : ∀ record, rows.result = some record → record.resultState = .failed →
    rows.job.status = .failed ∧ rows.job.safeErrorCode = record.safeErrorCode ∧
      rows.verification.status = some .processingFailed
  cancelled : ∀ record, rows.result = some record → record.resultState = .cancelled →
    rows.job.status = .cancelled ∧ rows.verification.status = none

theorem Mirrored.of_waiting {W : Type*} {pool : Pool W} (h : Waiting pool) :
    Mirrored pool.store where
  unfinished := fun _ ↦ ⟨h.unverified, h.receipts⟩
  committed := by simp [h.result]
  failed := by simp [h.result]
  cancelled := by simp [h.result]

/-- As long as there is no result, nothing is said of the job. -/
theorem Mirrored.of_none (h : Mirrored rows) (hnone : rows.result = none) (job : Job)
    (audit : List AuditEvent) : Mirrored { rows with job := job, audit := audit } where
  unfinished := fun _ ↦ h.unfinished (by simp [hnone])
  committed := by simp [hnone]
  failed := by simp [hnone]
  cancelled := by simp [hnone]

/-- A reserved row leaves the other rows as they are. -/
theorem Mirrored.of_reserved (h : Mirrored rows)
    (hbefore : ∀ record, rows.result = some record → record.resultState = .reserved)
    {record : DemoVerificationResult} (hreserved : record.resultState = .reserved) (job : Job)
    (audit : List AuditEvent) :
    Mirrored { rows with job := job, result := some record, audit := audit } where
  unfinished := fun _ ↦ h.unfinished hbefore
  committed := by simp [hreserved]
  failed := by simp [hreserved]
  cancelled := by simp [hreserved]

/-! ## 2. One step -/

theorem Mirrored.moves (h : Mirrored rows) (hfits : ResultFits rows.job rows.result)
    (hmoves : rows.Moves rows') : Mirrored rows' := by
  have hreserved : rows.job.status = .processing → ∀ record, rows.result = some record →
      record.resultState = .reserved := by
    intro hprocessing record hresult
    obtain ⟨record', hresult', hstate⟩ := hfits.processing hprocessing
    obtain rfl := Option.some.inj (hresult.symm.trans hresult')
    exact hstate
  cases hmoves with
  | kept => exact h
  | unclaimed policy now job' hclaim =>
    rcases claimJob_cases hclaim with ⟨-, rfl⟩ | ⟨-, hqueued, -⟩ | ⟨-, hqueued, -⟩ | ⟨htrue, -⟩
    · exact h
    · exact h.of_none (hfits.waiting (.inr (.inl hqueued))).1 _ _
    · exact h.of_none (hfits.waiting (.inr (.inl hqueued))).1 _ _
    · simp at htrue
  | claimed record now hqueued hcancel hnone hstate =>
    exact h.of_reserved (by simp [hnone]) hstate _ _
  | created record hprocessing hnone hstate =>
    exact h.of_reserved (by simp [hnone]) hstate _ _
  | cancelled old record now hresult hprocessing hcancel hstate =>
    obtain ⟨hstatus, hreceipts⟩ := h.unfinished (hreserved hprocessing)
    constructor <;> simp [VerificationRows.finished, hstate, hstatus]
  | committed old record verification organizationId now hresult hprocessing hcancel hstate _
      hmirrors =>
    obtain ⟨-, hreceipts⟩ := h.unfinished (hreserved hprocessing)
    constructor <;> simp [VerificationRows.finished, hstate, hreceipts, hmirrors]
  | failed code old record verification now hresult hprocessing hstate _ hcode hstatus =>
    constructor <;> simp [VerificationRows.finished, hstate, hcode, hstatus]
  | replayed record job' hresult hcommitted hprocessing =>
    have hstate := hreserved hprocessing record hresult
    simp [hcommitted] at hstate

theorem Mirrored.moved (h : Mirrored rows) {job' : Job} {audit' : List AuditEvent}
    (hmoved : Moved rows.result.isSome rows.job rows.audit job' audit') :
    Mirrored { rows with job := job', audit := audit' } where
  unfinished := h.unfinished
  committed := h.committed
  failed := fun record hresult hfailed ↦ by
    obtain ⟨hstatus, hcode, hverification⟩ := h.failed record hresult hfailed
    obtain rfl := hmoved.eq_of_terminal (by rw [hstatus]; rfl)
    exact ⟨hstatus, hcode, hverification⟩
  cancelled := fun record hresult hcancelled ↦ by
    obtain ⟨hstatus, hverification⟩ := h.cancelled record hresult hcancelled
    obtain rfl := hmoved.eq_of_terminal (by rw [hstatus]; rfl)
    exact ⟨hstatus, hverification⟩

/-- A step after the result row has been closed changes neither it nor the verification. -/
theorem closed_of_moves (hfits : ResultFits rows.job rows.result) (hmoves : rows.Moves rows')
    {record : DemoVerificationResult} (hresult : rows.result = some record)
    (hclosed : record.resultState ≠ .reserved) :
    rows'.result = rows.result ∧ rows'.verification = rows.verification := by
  have hprocessing : rows.job.status ≠ .processing := by
    intro hprocessing
    obtain ⟨record', hresult', hstate⟩ := hfits.processing hprocessing
    obtain rfl := Option.some.inj (hresult.symm.trans hresult')
    exact hclosed hstate
  cases hmoves with
  | kept | unclaimed | replayed => exact ⟨rfl, rfl⟩
  | claimed _ _ _ _ hnone | created _ _ hnone => simp [hnone] at hresult
  | cancelled _ _ _ _ hs | committed _ _ _ _ _ _ hs | failed _ _ _ _ _ _ hs =>
    exact absurd hs hprocessing

/-! ## 3. Runs -/

variable {W : Type*} [DecidableEq W] {start pool pool' : Pool W}

theorem mirrored_of_waiting (h : Waiting start)
    (hleads : (program settings).Leads .all start pool) : Mirrored pool.store := by
  have hboth := hleads.keeps
    (fun pool ↦ ResultFits pool.store.job pool.store.result ∧ Mirrored pool.store)
    (fun u event v _ hstep hu ↦ ?_)
    ⟨resultFits_of_waiting h (.refl : (program settings).Leads .all start start), .of_waiting h⟩
  · exact hboth.2
  obtain ⟨hfits, hmirrored⟩ := hu
  cases event with
  | worker w input =>
    obtain ⟨rows, p, hcall, rfl⟩ := Program.step_worker hstep
    have hmoves := call_moves hcall
    exact ⟨hfits.moves hmoves, hmirrored.moves hfits hmoves⟩
  | environment event =>
    obtain ⟨rows, henvironment, rfl⟩ := Program.step_environment hstep
    obtain ⟨job', audit', hmoved, rfl⟩ := environment_moved henvironment
    exact ⟨hfits.moved hmoved, hmirrored.moved hmoved⟩

/-- Once the result row has been closed it stays, and so does the verification. -/
theorem closed_of_leads (h : Waiting start) (hleads : (program settings).Leads .all start pool)
    (hleads' : (program settings).Leads .all pool pool')
    {record : DemoVerificationResult} (hresult : pool.store.result = some record)
    (hclosed : record.resultState ≠ .reserved) :
    pool'.store.result = pool.store.result ∧
      pool'.store.verification = pool.store.verification := by
  induction hleads' with
  | refl => exact ⟨rfl, rfl⟩
  | @tail u v hreaches hstep ih =>
    have hfits := resultFits_of_waiting h (hleads.trans hreaches)
    obtain ⟨event, -, hstep⟩ := hstep
    cases event with
    | worker w input =>
      obtain ⟨rows, p, hcall, rfl⟩ := Program.step_worker hstep
      obtain ⟨hsame, hverification⟩ := closed_of_moves hfits (call_moves hcall)
        (ih.1.trans hresult) hclosed
      exact ⟨hsame.trans ih.1, hverification.trans ih.2⟩
    | environment event =>
      obtain ⟨rows, henvironment, rfl⟩ := Program.step_environment hstep
      obtain ⟨job', audit', -, rfl⟩ := environment_moved henvironment
      exact ih

/-- The four rows of a verification's result agree, and a closed result is final. -/
theorem verification_mirrored (h : Waiting start)
    (hleads : (program settings).Leads .all start pool) :
    (pool.store.job.status = .succeeded ↔
      ∃ record, pool.store.result = some record ∧ record.resultState = .committed) ∧
    (∀ record, pool.store.result = some record → record.resultState = .committed →
      pool.store.receipts.length = 1 ∧
      pool.store.verification.status = record.resultStatus ∧
      pool.store.verification.recoveredIssuanceId = record.recoveredIssuanceId ∧
      pool.store.verification.evidence = record.evidence ∧
      pool.store.verification.metrics = record.metrics ∧
      pool.store.verification.completedAt = record.completedAt) ∧
    (∀ record, pool.store.result = some record → record.resultState = .failed →
      pool.store.job.status = .failed ∧
      pool.store.job.safeErrorCode = record.safeErrorCode ∧
      pool.store.verification.status = some .processingFailed) ∧
    (∀ record, pool.store.result = some record → record.resultState = .cancelled →
      pool.store.job.status = .cancelled ∧ pool.store.verification.status = none) ∧
    ∀ record pool', pool.store.result = some record → record.resultState ≠ .reserved →
      (program settings).Leads .all pool pool' →
      pool'.store.result = pool.store.result ∧
        pool'.store.verification = pool.store.verification := by
  have hmirrored := mirrored_of_waiting h hleads
  refine ⟨(resultFits_of_waiting h hleads).succeeded, fun record hresult hcommitted ↦ ?_,
    hmirrored.failed, hmirrored.cancelled,
    fun record pool' hresult hclosed hleads' ↦ closed_of_leads h hleads hleads' hresult hclosed⟩
  obtain ⟨⟨receipt, hreceipts⟩, hmirrors⟩ := hmirrored.committed record hresult hcommitted
  exact ⟨by rw [hreceipts]; rfl, hmirrors.status, hmirrors.recoveredIssuanceId,
    hmirrors.evidence, hmirrors.metrics, hmirrors.completedAt⟩

/-- The run of a cancelled verification. -/
theorem verification_mirrored_sample : ∃ pool : Pool (Fin 2),
    (program demoSettings).Leads .all sampleVerificationPool pool ∧
    (∃ record, pool.store.result = some record ∧ record.resultState = .cancelled) ∧
    pool.store.job.status = .cancelled ∧ pool.store.verification.status = none := by
  have hrun : ∃ pool, (program demoSettings).Leads .all sampleVerificationPool pool ∧
      pool.store.result.map (·.resultState) = some .cancelled :=
    Program.leads_of_exec_map (claimedVerificationRun ++
      [.environment (.cancel IssuanceWorker.sampleAdministrator ⟨12⟩ 3)] ++ stoppingRun)
      (by decide +kernel)
  obtain ⟨pool, hleads, hread⟩ := hrun
  obtain ⟨record, hrecord, hstate⟩ := Option.map_eq_some_iff.mp hread
  obtain ⟨-, -, -, hcancelled, -⟩ :=
    verification_mirrored sampleVerificationPool_start.waiting hleads
  exact ⟨pool, hleads, ⟨record, hrecord, hstate⟩, hcancelled record hrecord hstate⟩

end VerificationWorker

end Splitbind
