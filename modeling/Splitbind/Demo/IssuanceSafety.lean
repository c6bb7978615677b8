import Splitbind.Demo.IssuanceInvariant

/-!
# Issuance safety — success is atomic, exclusive and final

A job succeeds exactly when its evidence row is committed, only the worker whose token the row
carries commits it, and nothing that runs later touches the row or the object it names.
-/

namespace Splitbind

open Transaction IssuanceRows WorkerPool

namespace IssuanceWorker

variable {settings : Settings} {store store' : IssuanceStore} {p p' : Phase}

/-! ## 1. A committed row is final -/

/-- No step of a worker changes a committed row or, once it is there, any object. -/
theorem Stepped.committed_kept (h : Stepped settings store p store' p')
    (hconsistent : Consistent settings store) (hasserts : Asserts store p)
    {e : DemoIssuanceResult} (he : store.rows.evidence = some e)
    (hcommitted : e.outputState = .committed) :
    store'.rows.evidence = some e ∧ store'.objects = store.objects := by
  have hsucceeded : store.rows.job.status = .succeeded :=
    hconsistent.status.succeeded.mpr ⟨e, he, hcommitted⟩
  have hsame : ∀ {e'}, store.rows.evidence = some e' → e' = e :=
    fun he' ↦ Option.some.inj (he'.symm.trans he)
  cases h with
  | crashed | ended | left | called | missed | unclaimed | acquired | built | commitFailed
  | authorized | staleAuthorized => exact ⟨he, rfl⟩
  | claimed _ _ _ _ _ _ _ hnone => simp [hnone] at he
  | recovered recoveryToken now result rows' p' hfresh hrecovered =>
    cases hrecovered with
    | skipped => exact ⟨he, rfl⟩
    | tombstone => exact ⟨he, rfl⟩
    | replayed => exact ⟨he, rfl⟩
    | claimed _ _ hprocessing => simp [hsucceeded] at hprocessing
    | recorded _ _ _ hprocessing => simp [hsucceeded] at hprocessing
  | acquireCancelled _ _ hprocessing => simp [hsucceeded] at hprocessing
  | created _ _ _ _ hnone => simp [hnone] at he
  | beginCancelled _ _ _ _ _ _ _ hprocessing => simp [hsucceeded] at hprocessing
  | begun _ _ _ _ _ _ _ hprocessing => simp [hsucceeded] at hprocessing
  | put | deleted => exact absurd hcommitted (Holding.uncommitted hasserts he)
  | staleDeleted | tombstoneDeleted => exact absurd hcommitted (Fenced.uncommitted hasserts he)
  | commitCancelled _ _ _ _ _ _ _ hprocessing => simp [hsucceeded] at hprocessing
  | committed _ _ _ _ _ _ _ _ _ _ _ hprocessing => simp [hsucceeded] at hprocessing
  | persisted _ _ _ _ _ _ he' _ hstate =>
    obtain rfl := hsame he'
    simp [hcommitted] at hstate
  | recorded claim code failures now rows' hrecord =>
    rcases recordFailedJob_cases hrecord with rfl | ⟨_, _, _, hprocessing, _⟩
    · exact ⟨he, rfl⟩
    · simp [hsucceeded] at hprocessing
  | staleFailed _ _ _ _ _ _ hprocessing => simp [hsucceeded] at hprocessing
  | staleAcknowledged _ _ _ _ _ _ hprocessing => simp [hsucceeded] at hprocessing

variable {W : Type*} [DecidableEq W] {pool pool' : Pool W}

theorem Reachable.leads (h : Reachable settings pool)
    (hleads : (program settings).Leads .all pool pool') : Reachable settings pool' := by
  obtain ⟨start, hstart, hreaches⟩ := h
  exact ⟨start, hstart, hreaches.trans hleads⟩

/-- One event, whoever it comes from, keeps a committed row and the objects. -/
theorem committed_kept_step (h : Reachable settings pool)
    {event : Event W Input JobEvent} (hstep : (program settings).step pool event = some pool')
    {e : DemoIssuanceResult} (he : pool.store.rows.evidence = some e)
    (hcommitted : e.outputState = .committed) :
    pool'.store.rows.evidence = some e ∧ pool'.store.objects = pool.store.objects := by
  have hholds := assertions_of_reachable h
  cases event with
  | worker w input =>
    obtain ⟨store, p, hcall, rfl⟩ := Program.step_worker hstep
    exact (call_stepped hcall).committed_kept hholds.shared (hholds.own w).2 he hcommitted
  | environment event =>
    obtain ⟨store, henvironment, rfl⟩ := Program.step_environment hstep
    obtain ⟨job', audit', -, rfl⟩ := environment_moved henvironment
    exact ⟨he, rfl⟩

/-- A committed row and the objects stay for good. -/
theorem committed_kept (h : Reachable settings pool)
    (hleads : (program settings).Leads .all pool pool')
    {e : DemoIssuanceResult} (he : pool.store.rows.evidence = some e)
    (hcommitted : e.outputState = .committed) :
    pool'.store.rows.evidence = some e ∧ pool'.store.objects = pool.store.objects := by
  induction hleads with
  | refl => exact ⟨he, rfl⟩
  | tail hreaches hstep ih =>
    obtain ⟨event, -, hstep⟩ := hstep
    obtain ⟨hrow, hobjects⟩ := committed_kept_step (h.leads hreaches) hstep ih.1 hcommitted
    exact ⟨hrow, hobjects.trans ih.2⟩

/-! ## 2. Only the owner commits -/

def Committed (store : IssuanceStore) : Prop :=
  ∃ e, store.rows.evidence = some e ∧ e.outputState = .committed

/-- Recording a failure commits nothing. -/
theorem eq_of_recordFailedJob {rows rows' : IssuanceRows} {claim : ProcessingClaim}
    {code : SafeErrorCode} {failures : Nat} {now : Instant} {e' : DemoIssuanceResult}
    (h : rows.recordFailedJob claim code failures now = .ok ((), rows'))
    (he' : rows'.evidence = some e') (hcommitted : e'.outputState = .committed) : rows' = rows := by
  rcases recordFailedJob_cases h with rfl | ⟨e, he, -, -, hnot, -, rfl⟩
  · rfl
  · obtain rfl := Option.some.inj he'
    exfalso
    cases hs : e.outputState <;> simp_all [failedEvidence]

/-- The one step that commits is that of a worker whose claim carries the token of the row. -/
theorem Stepped.committed_by (h : Stepped settings store p store' p')
    (hbefore : ¬ Committed store) (hafter : Committed store') :
    ∃ claim artifact, p = .commit claim artifact ∧
      (∃ e, store.rows.evidence = some e ∧ Owns claim e) ∧
      ∃ e', store'.rows.evidence = some e' ∧ Owns claim e' := by
  obtain ⟨e', he', hcommitted⟩ := hafter
  have hnew : ∀ {e₁ : DemoIssuanceResult}, some e₁ = some e' → e₁.outputState = .committed := by
    intro e₁ h₁
    rw [Option.some.inj h₁]
    exact hcommitted
  -- a step that leaves the row commits nothing, and of the others only one writes the state
  cases h with
  | crashed | ended | left | called | missed | unclaimed | acquired | built | commitFailed
  | authorized | staleAuthorized | acquireCancelled | commitCancelled | put | deleted
  | staleDeleted | tombstoneDeleted => exact absurd ⟨e', he', hcommitted⟩ hbefore
  | claimed | created | beginCancelled | begun | staleAcknowledged =>
    have := hnew he'
    simp [reservedEvidence, DemoIssuanceResult.reserve] at this
  | recovered recoveryToken now result rows' p' hfresh hrecovered =>
    cases hrecovered with
    | skipped => exact absurd ⟨e', he', hcommitted⟩ hbefore
    | tombstone => exact absurd ⟨e', he', hcommitted⟩ hbefore
    | replayed => exact absurd ⟨e', he', hcommitted⟩ hbefore
    | claimed =>
      have := hnew he'
      simp at this
    | recorded e rows' he hprocessing hstate hrecord =>
      obtain rfl := eq_of_recordFailedJob hrecord he' hcommitted
      exact absurd ⟨e', he', hcommitted⟩ hbefore
  | committed claim artifact _ _ _ e _ _ he howns =>
    refine ⟨claim, artifact, rfl, ⟨e, he, howns⟩, _, rfl, ?_⟩
    exact ⟨howns.organizationId, howns.issuanceId, howns.attempt, howns.ownerToken,
      howns.outputObjectKey⟩
  | persisted claim compensation isDeleted =>
    have := hnew he'
    cases isDeleted <;> simp at this
  | recorded claim code failures now rows' hrecord =>
    obtain rfl := eq_of_recordFailedJob hrecord he' hcommitted
    exact absurd ⟨e', he', hcommitted⟩ hbefore
  | staleFailed _ _ _ e he _ _ hfenced =>
    have := hnew he'
    simp [hfenced.1] at this

/-- So does the one event that commits. -/
theorem committed_by {event : Event W Input JobEvent}
    (hstep : (program settings).step pool event = some pool')
    (hbefore : ¬ Committed pool.store) (hafter : Committed pool'.store) :
    ∃ w input claim artifact, event = .worker w input ∧ pool.phase w = .commit claim artifact ∧
      (∃ e, pool.store.rows.evidence = some e ∧ Owns claim e) ∧
      ∃ e', pool'.store.rows.evidence = some e' ∧ Owns claim e' := by
  cases event with
  | worker w input =>
    obtain ⟨store, p, hcall, rfl⟩ := Program.step_worker hstep
    obtain ⟨claim, artifact, hphase, howned, howns⟩ :=
      (call_stepped hcall).committed_by hbefore hafter
    exact ⟨w, input, claim, artifact, rfl, hphase, howned, howns⟩
  | environment event =>
    obtain ⟨store, henvironment, rfl⟩ := Program.step_environment hstep
    obtain ⟨job', audit', -, rfl⟩ := environment_moved henvironment
    exact absurd hafter hbefore

/-! ## 3. Issuance success -/

/-- Success is atomic, exclusive and final, in every pool any interleaving reaches. -/
theorem success_atomic_exclusive (h : Reachable settings pool) :
    (pool.store.rows.job.status = .succeeded ↔ Committed pool.store) ∧
    (∀ e, pool.store.rows.evidence = some e → e.outputState = .committed →
      Published settings pool.store e ∧
      ∀ pool', (program settings).Leads .all pool pool' →
        pool'.store.rows.evidence = some e ∧
        pool'.store.objects e.outputObjectKey = pool.store.objects e.outputObjectKey) ∧
    ∀ event pool', (program settings).step pool event = some pool' →
      ¬ Committed pool.store → Committed pool'.store →
      ∃ w input claim artifact, event = .worker w input ∧ pool.phase w = .commit claim artifact ∧
        (∃ e, pool.store.rows.evidence = some e ∧ e.ownerToken = claim.ownerToken) ∧
        ∃ e', pool'.store.rows.evidence = some e' ∧ e'.ownerToken = claim.ownerToken := by
  have hconsistent := (assertions_of_reachable h).shared
  refine ⟨hconsistent.status.succeeded, fun e he hcommitted ↦ ⟨?_, fun pool' hleads ↦ ?_⟩, ?_⟩
  · exact hconsistent.published e he hcommitted
  · obtain ⟨hrow, hobjects⟩ := committed_kept h hleads he hcommitted
    exact ⟨hrow, congrFun hobjects _⟩
  · intro event pool' hstep hbefore hafter
    obtain ⟨w, input, claim, artifact, hevent, hphase, ⟨e, he, howned⟩, e', he', howns⟩ :=
      committed_by hstep hbefore hafter
    exact ⟨w, input, claim, artifact, hevent, hphase, ⟨e, he, howned.ownerToken⟩, e', he',
      howns.ownerToken⟩

/-! ## 4. A run that succeeds -/

def sampleJob : Job where
  id := ⟨1⟩
  organizationId := ⟨2⟩
  target := .issuance ⟨3⟩
  status := .created
  attempt := 0
  deadlineAt := 1000
  correlationId := ⟨4⟩
  cancelRequestedAt := none
  safeErrorCode := none
  createdAt := 0
  updatedAt := 0

def sampleIssuance : Issuance where
  id := ⟨3⟩
  organizationId := ⟨2⟩
  documentId := ⟨5⟩
  recipientId := ⟨6⟩
  createdById := ⟨7⟩
  outputObjectKey := none
  outputSha256 := none
  outputDeletedAt := none
  issuedAt := 0

def sampleDocument : Document where
  id := ⟨5⟩
  organizationId := ⟨2⟩
  createdById := ⟨7⟩
  uploadRequestId := ⟨8⟩
  sourceObjectKey := .promotedInput .issuance ⟨2⟩ ⟨8⟩
  expectedSourceSha256 := ⟨9⟩
  pageCount := none

def sampleRows : IssuanceRows where
  job := sampleJob
  issuance := sampleIssuance
  document := sampleDocument
  sourceContentType := "application/pdf"
  evidence := none
  receipts := []
  manifests := []
  audit := []

/-- Two idle workers on a job just attached. -/
def samplePool : Pool (Fin 2) where
  store := ⟨sampleRows, fun _ ↦ none, []⟩
  phase := fun _ ↦ .idle

/-- A deployment in demo mode. -/
def sampleSettings : Settings := ⟨true, false, true, 50, 3600⟩

theorem samplePool_start : Start samplePool where
  attached := by
    constructor <;> first | rfl | simp [samplePool, sampleRows]
  objects := fun _ ↦ rfl
  idle := fun _ ↦ rfl

/-- Nothing is signed in demo mode. -/
def sampleSigning : Signing where
  library := .rejecting
  privateKey := ⟨"", fun _ ↦ ""⟩
  registry := []

/-- The steps up to the commit of the first worker, with the given artifact. -/
def uploadRun (artifact : Artifact) : List (Event (Fin 2) Input JobEvent) :=
  [.environment (.stage true 1),
    .worker 0 (.claimNextJob .demo ⟨10⟩ 2 .none),
    .worker 0 (.acquire 3 .none),
    .worker 0 (.build (.ready artifact)),
    .worker 0 (.beginUpload 4 .none false),
    .worker 0 (.put .stored false)]

theorem sample_committed : ∃ pool, (program sampleSettings).Leads .all samplePool pool ∧
    pool.store.rows.job.status = .succeeded :=
  Program.leads_of_exec_map
    (uploadRun ⟨⟨11⟩, 2⟩ ++ [.worker 0 (.commit 7 sampleSigning 8 .none)])
    (by decide +kernel)

/-- A worker claims, uploads and commits: the issuance is published. -/
theorem success_atomic_exclusive_sample : ∃ pool : Pool (Fin 2), Reachable sampleSettings pool ∧
    pool.store.rows.job.status = .succeeded ∧
    ∃ e, pool.store.rows.evidence = some e ∧ Published sampleSettings pool.store e := by
  obtain ⟨pool, hleads, hstatus⟩ := sample_committed
  have hreachable : Reachable sampleSettings pool := ⟨samplePool, samplePool_start, hleads⟩
  obtain ⟨hsucceeded, hpublished, -⟩ := success_atomic_exclusive hreachable
  obtain ⟨e, he, hcommitted⟩ := hsucceeded.mp hstatus
  exact ⟨pool, hreachable, hstatus, e, he, (hpublished e he hcommitted).1⟩

end IssuanceWorker

end Splitbind
