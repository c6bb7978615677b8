import Mathlib.Data.Fintype.Basic
import Splitbind.Demo.IssuanceClaims
import Splitbind.Demo.IssuanceCleanup
import Splitbind.Demo.VerificationCommit
import Splitbind.Demo.VerificationSteps

/-!
# Job closure — a finished job and the evidence row of its work

A verification worker closes the result row in the transaction that ends the job.  An issuance
worker may end the job first and close the evidence row in a later transaction: the open row is a
debt, paid by the owner of the row as long as it is on its way through the upload, the commit and
the compensation.
-/

namespace Splitbind

open Transaction IssuanceRows WorkerPool

namespace IssuanceWorker

/-! ## 1. Open rows and who closes them -/

/-- The evidence row says that work is in progress. -/
def InProgress (e : DemoIssuanceResult) : Prop :=
  e.outputState = .reserved ∨ e.outputState = .uploading

instance (e : DemoIssuanceResult) : Decidable (InProgress e) :=
  inferInstanceAs (Decidable (_ ∨ _))

/-- The job is finished and its evidence row is still in progress. -/
def Unclosed (store : IssuanceStore) : Prop :=
  store.rows.job.status.terminal ∧ ∃ e ∈ store.rows.evidence, InProgress e

instance (store : IssuanceStore) : Decidable (Unclosed store) :=
  inferInstanceAs (Decidable (_ ∧ _))

/-- The claim whose row a worker in this phase goes on to close; at most one delete has failed
before a compensation starts. -/
def closingClaim : Phase → Option ProcessingClaim
  | .put claim _ => some claim
  | .commit claim _ => some claim
  | .authorize claim compensation | .delete claim compensation | .persist claim compensation _ =>
    if compensation.priorCleanupFailures ≤ 1 then some claim else none
  | _ => none

/-- A worker that goes on to close the uploading row it owns, or one that has crashed: as long as
there is a crashed worker, its call has neither returned nor raised. -/
def Closing (store : IssuanceStore) (p : Phase) : Prop :=
  p = .crashed ∨ ∃ claim ∈ closingClaim p, ∃ e ∈ store.rows.evidence,
    e.ownerToken = claim.ownerToken ∧ e.outputState = .uploading

instance (store : IssuanceStore) (p : Phase) : Decidable (Closing store p) :=
  inferInstanceAs (Decidable (_ ∨ _))

/-- The job is finished, and the uploading row is that of the claim. -/
def UnclosedBy (store : IssuanceStore) (claim : ProcessingClaim) : Prop :=
  store.rows.job.status.terminal ∧ ∃ e ∈ store.rows.evidence,
    e.ownerToken = claim.ownerToken ∧ e.outputState = .uploading

instance (store : IssuanceStore) (claim : ProcessingClaim) : Decidable (UnclosedBy store claim) :=
  inferInstanceAs (Decidable (_ ∧ _))

variable {W : Type*}

/-- The steps after which nobody closes the row of a finished job. -/
def LeavesOpen (pool : Pool W) (w : W) (input : Input) : Prop :=
  match pool.phase w, input with
  -- acquiring a job whose cancellation is requested cancels it and does not touch the row
  | .acquire _, .acquire _ fault => fault ≠ .rolledBack ∧
      pool.store.rows.job.status = .processing ∧
      pool.store.rows.job.cancelRequestedAt ≠ none ∧ ∃ e ∈ pool.store.rows.evidence,
        e.outputState = .reserved ∨
          e.outputState = .uploading ∧ ∀ v, ¬ Closing pool.store (pool.phase v)
  -- the database fails a compensation of a finished job
  | .authorize claim _, .authorize fault _ => fault ≠ .none ∧ UnclosedBy pool.store claim
  | .persist claim _ _, .persist _ fault _ => fault = .rolledBack ∧ UnclosedBy pool.store claim
  | _, _ => False

instance [Fintype W] (pool : Pool W) (w : W) (input : Input) :
    Decidable (LeavesOpen pool w input) := by
  unfold LeavesOpen
  split <;> infer_instance

/-- The events that leave no row open. -/
def leavesNoneOpen (pool : Pool W) : Event W Input JobEvent → Prop
  | .worker w input => ¬ LeavesOpen pool w input
  | .environment _ => True

instance [Fintype W] (pool : Pool W) (event : Event W Input JobEvent) :
    Decidable (leavesNoneOpen pool event) :=
  match event with
  | .worker _ _ => inferInstanceAs (Decidable (¬ _))
  | .environment _ => .isTrue trivial

variable {settings : Settings} {store store' : IssuanceStore} {p p' q : Phase}

theorem heldClaim_of_closingClaim {claim : ProcessingClaim} (h : closingClaim p = some claim) :
    p.heldClaim = some claim := by
  cases p with
  | put | commit => exact h
  | authorize | delete | persist =>
    simp only [closingClaim, Option.ite_none_right_eq_some] at h
    exact h.2
  | _ => simp [closingClaim] at h

/-! ## 2. The transactions of a compensation go through -/

/-- The owner of an uploading row is allowed to clean it up. -/
theorem Claimed.authorizeOutputCleanup (h : Claimed store p)
    (hconsistent : Consistent settings store) {claim : ProcessingClaim}
    (hheld : p.heldClaim = some claim) {e : DemoIssuanceResult}
    (he : store.rows.evidence = some e) (howner : e.ownerToken = claim.ownerToken)
    (hstate : e.outputState = .uploading) :
    store.rows.authorizeOutputCleanup claim = .ok ((), store.rows) := by
  have huncommitted : ∀ e', store.rows.evidence = some e' → e'.outputState ≠ .committed := by
    intro e' he'
    obtain rfl := Option.some.inj (he.symm.trans he')
    simp [hstate]
  have hstatus : store.rows.job.status ≠ .succeeded := by
    intro hsucceeded
    obtain ⟨e', he', hcommitted⟩ := hconsistent.status.succeeded.mp hsucceeded
    exact huncommitted e' he' hcommitted
  have hkey := (hconsistent.unpublished huncommitted).outputObjectKey
  have hlock := h.lockOwned hconsistent hheld he howner
  simp [IssuanceRows.authorizeOutputCleanup, hlock, raiseIf, hstate, hkey, hstatus]

/-- It can then save the outcome of the delete, whatever that was. -/
theorem Claimed.persistOutputCleanup (h : Claimed store p)
    (hconsistent : Consistent settings store) {claim : ProcessingClaim}
    (hheld : p.heldClaim = some claim) {e : DemoIssuanceResult}
    (he : store.rows.evidence = some e) (howner : e.ownerToken = claim.ownerToken)
    (hstate : e.outputState = .uploading) (compensation : Compensation)
    (hprior : compensation.priorCleanupFailures ≤ 1) (isDeleted : Bool) (now : Instant) :
    ∃ rows', store.rows.persistOutputCleanup claim
      (if isDeleted then .cleaned else .cleanupRequired) (compensation.code isDeleted)
      (compensation.cleanupFailures isDeleted) now = .ok ((), rows') := by
  have hlock := h.lockOwned hconsistent hheld he howner
  have hfits := hconsistent.evidence e he
  obtain ⟨hclaims, -⟩ := hfits.unclaimed (by simp [hstate])
  let saved : DemoIssuanceResult := { e with
    outputState := if isDeleted then .cleaned else .cleanupRequired
    safeErrorCode := some (compensation.code isDeleted)
    cleanupFailures := compensation.cleanupFailures isDeleted }
  have hnot : saved.outputState ≠ .committed := by cases isDeleted <;> simp [saved]
  have hsmall : saved.cleanupFailures ≤ DemoIssuanceResult.positiveSmallIntegerMax := by
    simp only [saved, Compensation.cleanupFailures, DemoIssuanceResult.positiveSmallIntegerMax]
    split <;> omega
  have hdurable : saved.Durable := by
    cases isDeleted with
    | false => exact fun _ ↦ ⟨_, rfl, .inr (Nat.le_add_left _ _)⟩
    | true => exact fun hs ↦ by simp [saved] at hs
  have hclean : saved.clean store.rows.job store.rows.issuance = .ok () :=
    (DemoIssuanceResult.clean_eq_ok_of_uncommitted hnot).mpr
      ⟨hfits.binds.withEvidence ⟨rfl, rfl, rfl, rfl, rfl, rfl⟩, hclaims, hdurable⟩
  have hrow : saved.rowConstraints = .ok () :=
    (DemoIssuanceResult.rowConstraints_eq_ok_of_unclaimed hnot hclaims).mpr
      ⟨hfits.binds.attempt ▸ hconsistent.attempt, hsmall⟩
  have hsave : store.rows.saveEvidence saved e now = .ok { saved with updatedAt := now } := by
    refine saveEvidence_eq_ok.mpr ⟨?_, rfl, by simp [hstate], ?_, hclean, hrow, rfl⟩
    · simp [DemoIssuanceResult.identityChanged, saved]
    · cases isDeleted <;> simp [saved, hstate, DemoIssuanceResult.allowedTransitions]
  rw [IssuanceRows.persistOutputCleanup, hlock, ok_bind, raiseIf_neg (by simp [hstate]), ok_bind]
  rw [show store.rows.saveEvidence { e with
      outputState := if isDeleted then .cleaned else .cleanupRequired
      safeErrorCode := some (compensation.code isDeleted)
      cleanupFailures := compensation.cleanupFailures isDeleted } e now = _ from hsave, ok_bind]
  exact ⟨_, rfl⟩

/-! ## 3. A worker that closes its row goes on -/

/-- A row kept for cleanup, or closed, is not in progress. -/
theorem not_unclosed_of_evidence {e : DemoIssuanceResult} (he : store.rows.evidence = some e)
    (hstate : ¬ InProgress e) : ¬ Unclosed store := by
  rintro ⟨-, e', he', hopen⟩
  obtain rfl := Option.some.inj (he.symm.trans he')
  exact hstate hopen

theorem not_unclosed_of_processing (h : store.rows.job.status = .processing) :
    ¬ Unclosed store := by
  rintro ⟨hterminal, -⟩
  simp [h, JobStatus.terminal, transitions] at hterminal

theorem Closing.of_claim {claim : ProcessingClaim} {e : DemoIssuanceResult}
    (hclosing : closingClaim p = some claim) (he : store.rows.evidence = some e)
    (howner : e.ownerToken = claim.ownerToken) (hstate : e.outputState = .uploading) :
    Closing store p :=
  .inr ⟨claim, hclosing, e, he, howner, hstate⟩

/-- The commit ends with a committed row, or goes on with a compensation. -/
theorem commit_closing {claim : ProcessingClaim} {artifact : Artifact} {processingMs : Nat}
    {signing : Signing} {now : Instant} {fault : Fault}
    (hcall : busyStep settings store (.commit claim artifact)
      (.commit processingMs signing now fault) = some (store', p'))
    {e : DemoIssuanceResult} (he : store.rows.evidence = some e)
    (howner : e.ownerToken = claim.ownerToken) (hstate : e.outputState = .uploading)
    (hunclosed : Unclosed store') : Closing store' p' := by
  rcases transact_cases hcall with ⟨result, rows', hbody, rfl, hp'⟩ | ⟨rfl, error, rfl⟩
  · obtain ⟨e₁, he₁, -, -, -, ⟨rfl, -, rfl⟩ | ⟨-, -, -, -, -, -, -, -, manifests, -, rfl⟩⟩ :=
      commitIssuanceResult_cases hbody
    · rcases hp' with rfl | rfl <;> exact .of_claim rfl he howner hstate
    · exact absurd hunclosed (not_unclosed_of_evidence rfl
        (by simp [InProgress, committedEvidence]))
  · exact .of_claim rfl he howner hstate

/-- A compensation goes on to its delete unless the database fails. -/
theorem authorize_closing {claim : ProcessingClaim} {compensation : Compensation} {fails : Bool}
    (hconsistent : Consistent settings store)
    (hclaimed : Claimed store (.authorize claim compensation))
    (hcall : busyStep settings store (.authorize claim compensation) (.authorize .none fails) =
      some (store', p'))
    (hprior : compensation.priorCleanupFailures ≤ 1)
    {e : DemoIssuanceResult} (he : store.rows.evidence = some e)
    (howner : e.ownerToken = claim.ownerToken) (hstate : e.outputState = .uploading) :
    Closing store' p' := by
  have hbody := hclaimed.authorizeOutputCleanup hconsistent rfl he howner hstate
  simp only [busyStep, transact, hbody, attempt, authorizeNext, Option.some.injEq,
    Prod.mk.injEq] at hcall
  obtain ⟨rfl, rfl⟩ := hcall
  exact .of_claim (by simp [closingClaim, hprior]) he howner hstate

/-- Its last transaction closes the row unless the database rolls it back. -/
theorem persist_closed {claim : ProcessingClaim} {compensation : Compensation} {isDeleted : Bool}
    {now : Instant} {fault : Fault} {fails : Bool} (hconsistent : Consistent settings store)
    (hclaimed : Claimed store (.persist claim compensation isDeleted))
    (hcall : busyStep settings store (.persist claim compensation isDeleted)
      (.persist now fault fails) = some (store', p'))
    (hfault : fault ≠ .rolledBack) (hprior : compensation.priorCleanupFailures ≤ 1)
    {e : DemoIssuanceResult} (he : store.rows.evidence = some e)
    (howner : e.ownerToken = claim.ownerToken) (hstate : e.outputState = .uploading) :
    ¬ Unclosed store' := by
  obtain ⟨rows', hbody⟩ := hclaimed.persistOutputCleanup hconsistent rfl he howner hstate
    compensation hprior isDeleted now
  obtain ⟨e₁, he₁, -, -, hrows⟩ := persistOutputCleanup_cases hbody
  have hafter : store'.rows = rows' := by
    simp only [busyStep, transact, hbody, Option.some.injEq, Prod.mk.injEq] at hcall
    rw [← hcall.1]
    cases fault with
    | rolledBack => exact absurd rfl hfault
    | none | acknowledgementLost => rfl
  refine not_unclosed_of_evidence (by rw [hafter, hrows]) ?_
  cases isDeleted <;> simp [InProgress]

/-- A worker that is on its way to close its row stays on it, whatever happens in its step. -/
theorem Closing.call {pool : Pool W} {w : W} {input : Input}
    (h : Closing pool.store (pool.phase w)) (hconsistent : Consistent settings pool.store)
    (hclaimed : Claimed pool.store (pool.phase w)) (hok : ¬ LeavesOpen pool w input)
    (hcall : call settings pool.store (pool.phase w) input = some (store', p'))
    (hunclosed : Unclosed store') : Closing store' p' := by
  generalize hp : pool.phase w = p at *
  generalize hs : pool.store = store at *
  rcases h with rfl | ⟨claim, hclaim, e, he, howner, hstate⟩
  · simp [IssuanceWorker.call, busyStep] at hcall
  have hbusy : busyStep settings store p input = some (store', p') := by
    have hidle : p ≠ .idle := by
      rintro rfl
      simp [closingClaim] at hclaim
    rwa [IssuanceWorker.call, if_neg hidle] at hcall
  cases p with
  | put claim' artifact =>
    obtain rfl := Option.some.inj hclaim
    cases input with
    | put outcome fails =>
      obtain ⟨rfl, rfl⟩ := Prod.mk.inj (Option.some.inj hbusy)
      refine .of_claim ?_ he howner hstate
      unfold putNext
      split
      · split <;> rfl
      · rfl
    | crash => exact .inl (Prod.mk.inj (Option.some.inj hbusy)).2.symm
    | _ => simp [busyStep] at hbusy
  | commit claim' artifact =>
    obtain rfl := Option.some.inj hclaim
    cases input with
    | commit processingMs signing now fault =>
      exact commit_closing hbusy he howner hstate hunclosed
    | crash => exact .inl (Prod.mk.inj (Option.some.inj hbusy)).2.symm
    | _ => simp [busyStep] at hbusy
  | authorize claim' compensation =>
    obtain ⟨hprior, rfl⟩ := by simpa [closingClaim] using hclaim
    cases input with
    | authorize fault fails =>
      by_cases hfault : fault = .none
      · subst hfault
        exact authorize_closing hconsistent hclaimed hbusy hprior he howner hstate
      · -- the database fails, and the row is left as it was
        have hsame : store' = store := by
          rcases transact_cases hbusy with ⟨_, rows', hbody, rfl, -⟩ | ⟨rfl, -⟩
          · rw [(authorizeOutputCleanup_cases hbody).1]
          · rfl
        rw [hsame] at hunclosed
        exact absurd (by simpa [LeavesOpen, hp, hs] using
          ⟨hfault, hunclosed.1, e, he, howner, hstate⟩) hok
    | crash => exact .inl (Prod.mk.inj (Option.some.inj hbusy)).2.symm
    | _ => simp [busyStep] at hbusy
  | delete claim' compensation =>
    obtain ⟨hprior, rfl⟩ := by simpa [closingClaim] using hclaim
    cases input with
    | delete outcome =>
      obtain ⟨rfl, rfl⟩ := Prod.mk.inj (Option.some.inj hbusy)
      exact .of_claim (by simp [closingClaim, hprior]) he howner hstate
    | crash => exact .inl (Prod.mk.inj (Option.some.inj hbusy)).2.symm
    | _ => simp [busyStep] at hbusy
  | persist claim' compensation isDeleted =>
    obtain ⟨hprior, rfl⟩ := by simpa [closingClaim] using hclaim
    cases input with
    | persist now fault fails =>
      by_cases hfault : fault = .rolledBack
      · subst hfault
        rw [transact_rolledBack hbusy] at hunclosed
        exact absurd (by simpa [LeavesOpen, hp, hs] using
          ⟨hunclosed.1, e, he, howner, hstate⟩) hok
      · exact absurd hunclosed
          (persist_closed hconsistent hclaimed hbusy hfault hprior he howner hstate)
    | crash => exact .inl (Prod.mk.inj (Option.some.inj hbusy)).2.symm
    | _ => simp [busyStep] at hbusy
  | _ => simp [closingClaim] at hclaim

/-! ## 4. The other workers -/

/-- Recording a failure ends the job and closes its row at once. -/
theorem recordFailedJob_closed {rows rows' : IssuanceRows} {claim : ProcessingClaim}
    {code : SafeErrorCode} {failures : Nat} {now : Instant}
    (h : rows.recordFailedJob claim code failures now = .ok ((), rows')) :
    rows' = rows ∨ ∃ e', rows'.evidence = some e' ∧ ¬ InProgress e' := by
  rcases recordFailedJob_cases h with rfl | ⟨e, -, -, -, hcommitted, -, rfl⟩
  · exact .inl rfl
  · refine .inr ⟨_, rfl, ?_⟩
    cases hs : e.outputState <;> simp [InProgress, failedEvidence, hs]

/-- The step of another worker leaves an open row to its owner. -/
theorem Closing.stable {t : Option UUID} (h : Closing store q)
    (hguarantee : Guarantee store store' t) (hapart : ∀ u, token q = some u → t ≠ some u)
    (hopen : ∀ e', store'.rows.evidence = some e' → InProgress e') : Closing store' q := by
  rcases h with rfl | ⟨claim, hclaim, e, he, howner, hstate⟩
  · exact .inl rfl
  obtain ⟨e', he', hkept⟩ := hguarantee.kept e he
  rcases hkept with ⟨heq, hsame⟩ | ⟨ht, -⟩ | ⟨-, hcleanup, -⟩ | ⟨-, hreserved, -⟩
  · exact .of_claim hclaim he' (heq.trans howner) (hsame.trans hstate)
  · have htoken := token_of_heldClaim (heldClaim_of_closingClaim hclaim)
    exact absurd (ht.trans (congrArg some howner)) (hapart _ htoken)
  · simpa [InProgress, hcleanup] using hopen e' he'
  · simp [hstate] at hreserved

/-- A step after which the row of a finished job is open either found it open, or acquired a job
whose cancellation is requested. -/
theorem Stepped.unclosed (h : Stepped settings store p store' p')
    (hconsistent : Consistent settings store) (hasserts : Asserts store p)
    (hnot : ¬ Closing store p) (hunclosed : Unclosed store') :
    Unclosed store ∨ ∃ ownerToken, p = .acquire ownerToken ∧
      store.rows.job.status = .processing ∧ store.rows.job.cancelRequestedAt ≠ none ∧
      store'.rows.job.status = .cancelled ∧ ∃ e ∈ store.rows.evidence, InProgress e := by
  cases h with
  | crashed | ended | left | called | missed | acquired | built | put | commitFailed | authorized
  | deleted | staleAuthorized | staleDeleted | tombstoneDeleted => exact .inl hunclosed
  -- a job with evidence is no longer waiting, so nothing there can be claimed
  | unclaimed ownerToken policy now job' hfresh hclaim =>
    rcases claimJob_cases hclaim with ⟨-, rfl⟩ | ⟨-, hqueued, -⟩ | ⟨-, hqueued, -⟩ | ⟨htrue, -⟩
    · exact .inl hunclosed
    all_goals exfalso
    · obtain ⟨-, e, he, -⟩ := hunclosed
      simp [issue, commitRows, (hconsistent.status.waiting (.inr (.inl hqueued))).1] at he
    · obtain ⟨-, e, he, -⟩ := hunclosed
      simp [issue, commitRows, (hconsistent.status.waiting (.inr (.inl hqueued))).1] at he
    · simp at htrue
  | claimed => exact absurd hunclosed (not_unclosed_of_processing rfl)
  | recovered recoveryToken now result rows' p' hfresh hrecovered =>
    cases hrecovered with
    | skipped | tombstone => exact .inl hunclosed
    | replayed e code job' he hprocessing hcommitted =>
      exact absurd hcommitted (hconsistent.uncommitted (by simp [hprocessing]) he)
    | claimed => exact absurd hunclosed (not_unclosed_of_evidence rfl (by simp [InProgress]))
    | recorded e rows' he hprocessing hstate hrecord =>
      rcases recordFailedJob_closed hrecord with rfl | ⟨e', he', hclosed⟩
      · exact .inl hunclosed
      · exact absurd hunclosed (not_unclosed_of_evidence he' hclosed)
  -- the one step that cancels a job whose artifact is still in progress
  | acquireCancelled ownerToken now hprocessing hcancel =>
    exact .inr ⟨ownerToken, rfl, hprocessing, hcancel, rfl, hunclosed.2⟩
  | created ownerToken now p' hprocessing hnone =>
    exact absurd hnone (hconsistent.status.processing hprocessing)
  | beginCancelled => exact absurd hunclosed (not_unclosed_of_evidence rfl (by simp [InProgress]))
  | begun claim artifact now e p' he howns hprocessing =>
    exact absurd hunclosed (not_unclosed_of_processing hprocessing)
  -- a worker that commits holds the upload, so it is one that closes the evidence
  | commitCancelled claim artifact now e compensation he howns =>
    have hstate : e.outputState = .uploading := by
      simpa using Holding.state_of_owns hasserts.1 he howns
    exact absurd (.of_claim rfl he howns.ownerToken hstate) hnot
  | committed =>
    exact absurd hunclosed
      (not_unclosed_of_evidence rfl (by simp [InProgress, committedEvidence]))
  | persisted claim compensation isDeleted =>
    exact absurd hunclosed
      (not_unclosed_of_evidence rfl (by cases isDeleted <;> simp [InProgress]))
  | recorded claim code failures now rows' hrecord =>
    rcases recordFailedJob_closed hrecord with rfl | ⟨e', he', hclosed⟩
    · exact .inl hunclosed
    · exact absurd hunclosed (not_unclosed_of_evidence he' hclosed)
  | staleFailed claim prior now e he howns hprocessing =>
    exact absurd hunclosed (not_unclosed_of_processing hprocessing)
  | staleAcknowledged =>
    exact absurd hunclosed (not_unclosed_of_evidence rfl (by simp [InProgress]))

/-- An acquisition that changed the status was not rolled back. -/
theorem acquire_committed {ownerToken : UUID} {input : Input}
    (hcall : call settings store (.acquire ownerToken) input = some (store', p'))
    (hchanged : store' ≠ store) : ∃ now fault, input = .acquire now fault ∧ fault ≠ .rolledBack := by
  cases input with
  | acquire now fault =>
    refine ⟨now, fault, rfl, fun hfault ↦ hchanged ?_⟩
    subst hfault
    exact transact_rolledBack hcall
  | crash => exact absurd (Prod.mk.inj (Option.some.inj hcall)).1.symm hchanged
  | _ => simp [call, busyStep] at hcall

/-! ## 5. The debt -/

/-- The open row of a finished job, and the workers on their way to close it. -/
def closure : Debt IssuanceStore Phase := ⟨Unclosed, Closing⟩

/-- An event outside the workers opens no row. -/
theorem unclosed_of_moved (hconsistent : Consistent settings store) {job' : Job}
    {audit' : List AuditEvent}
    (hmoved : Moved store.rows.evidence.isSome store.rows.job store.rows.audit job' audit')
    (hunclosed : Unclosed (commitRows store { store.rows with job := job', audit := audit' })) :
    Unclosed store := by
  obtain ⟨hterminal, e, he, hopen⟩ := hunclosed
  have hsome : store.rows.evidence ≠ none := by
    intro hnone
    simp [commitRows, hnone] at he
  cases hmoved with
  | kept | denied => exact ⟨hterminal, e, he, hopen⟩
  | staged | requeued => simp [commitRows, JobStatus.terminal, transitions] at hterminal
  | abandoned now status code hretry =>
    exact absurd (hconsistent.status.waiting (.inr (.inr hretry))).1 hsome
  | cancelled actor correlationId now hcancel hwaiting =>
    exact absurd (hconsistent.status.waiting (by simpa using hwaiting)).1 hsome
  | flagged actor correlationId now hcancel hprocessing =>
    simp [commitRows, hprocessing, JobStatus.terminal, transitions] at hterminal

theorem closure_sound : closure.Sound (program settings)
    (leavesNoneOpen : Pool W → Event W Input JobEvent → Prop)
    ((assertions settings).and claimAssertions) where
  call := by
    intro s w input store' p' hbase hok hcall hunclosed
    have hconsistent := hbase.shared.1
    have hown := hbase.own w
    by_cases hcloses : Closing s.store (s.phase w)
    · exact .inl (hcloses.call hconsistent hown.2 hok hcall hunclosed)
    have hstepped := call_stepped hcall
    refine .inr ⟨?_, hcloses, fun q _ hapart hq ↦ ?_⟩
    · rcases hstepped.unclosed hconsistent hown.1.2 hcloses hunclosed with
        hbefore | ⟨ownerToken, hp, hprocessing, hcancel, hcancelled, e, he, hopen⟩
      · exact .inl hbefore
      · -- the acquisition is permitted because somebody closes the uploading row
        rw [hp] at hcall
        obtain ⟨now, fault, rfl, hfault⟩ := acquire_committed hcall (by
          rintro rfl
          simp [hprocessing] at hcancelled)
        have hpermitted : ¬ LeavesOpen s w (.acquire now fault) := hok
        simp only [LeavesOpen, hp] at hpermitted
        by_contra hnobody
        rw [not_or, not_exists] at hnobody
        refine hpermitted ⟨hfault, hprocessing, hcancel, e, he, ?_⟩
        exact hopen.imp_right fun hstate ↦ ⟨hstate, hnobody.2⟩
    · refine hq.stable (hstepped.guarantee hown.1.2) (fun u hqu hp ↦ hapart.1 u hp hqu) ?_
      obtain ⟨-, e, he, hopen⟩ := hunclosed
      intro e' he'
      obtain rfl := Option.some.inj (he.symm.trans he')
      exact hopen
  environment := by
    intro s event store' hbase _ henvironment hunclosed
    obtain ⟨job', audit', hmoved, rfl⟩ := environment_moved henvironment
    exact ⟨unclosed_of_moved hbase.shared.1 hmoved hunclosed, fun q _ hq ↦ hq⟩

variable [DecidableEq W] {start pool : Pool W}

/-- Whenever the row of a finished job is open, some worker is on its way to close it. -/
theorem unclosed_closing (hstart : Start start)
    (hleads : (program settings).LeadsWhen leavesNoneOpen start pool)
    (hunclosed : Unclosed pool.store) : ∃ w, Closing pool.store (pool.phase w) := by
  have hreaches : ∀ u, (program settings).LeadsWhen leavesNoneOpen start u →
      Reachable settings u := fun u hu ↦ ⟨start, hstart, hu.weaken⟩
  refine closure_sound.leads (fun u hu ↦ ?_) ?_ hleads hunclosed
  · exact (assertions_of_reachable (hreaches u hu)).and
      (claimAssertions_of_reachable (hreaches u hu))
  · rintro ⟨-, e, he, -⟩
    simp [hstart.attached.evidence] at he

end IssuanceWorker

/-! ## 6. Finished jobs -/

/-- In a run none of whose steps leaves a row open, a finished issuance job has no evidence in
progress once every call is over; a finished verification job never has. -/
theorem finished_job_closed {W : Type*} [DecidableEq W] (settings : Settings) :
    (∀ start pool : IssuanceWorker.Pool W, IssuanceWorker.Start start →
      (IssuanceWorker.program settings).LeadsWhen IssuanceWorker.leavesNoneOpen start pool →
      (∀ w, pool.phase w = .idle) → pool.store.rows.job.status.terminal →
      ∀ e, pool.store.rows.evidence = some e →
        e.outputState ≠ .reserved ∧ e.outputState ≠ .uploading) ∧
    ∀ pool : VerificationWorker.Pool W, VerificationWorker.Reachable settings pool →
      pool.store.job.status.terminal →
      ∀ record, pool.store.result = some record → record.resultState ≠ .reserved := by
  constructor
  · intro start pool hstart hleads hidle hterminal e he
    rw [← not_or]
    intro hopen
    obtain ⟨w, hclosing⟩ :=
      IssuanceWorker.unclosed_closing hstart hleads ⟨hterminal, e, he, hopen⟩
    -- but an idle worker closes nothing
    rw [hidle w] at hclosing
    simp [IssuanceWorker.Closing, IssuanceWorker.closingClaim] at hclosing
  · intro pool hreachable hterminal
    exact (VerificationWorker.resultFits_of_reachable hreachable).closed hterminal

/-- A verification job just attached, with two idle workers. -/
def sampleVerificationPool : VerificationWorker.Pool (Fin 2) where
  store := { sampleVerificationRows with
    job := { sampleVerificationJob with status := .created }
    result := none }
  phase := fun _ ↦ .idle

theorem sampleVerificationPool_start : VerificationWorker.Start sampleVerificationPool where
  attached := by
    constructor <;> first | rfl | simp [sampleVerificationPool, sampleVerificationRows]
  idle := fun _ ↦ rfl

open IssuanceWorker in
/-- The issuance is cancelled after its upload, and the compensation cleans it up. -/
def compensatedRun : List (Event (Fin 2) Input JobEvent) :=
  uploadRun ⟨⟨11⟩, 2⟩ ++
    [.environment (.cancel sampleAdministrator ⟨12⟩ 5),
      .worker 0 (.commit 7 sampleSigning 8 .none),
      .worker 0 (.authorize .none false),
      .worker 0 (.delete .deleted),
      .worker 0 (.persist 9 .none false)]

/-- The verification is cancelled before its download. -/
def cancelledVerificationRun : List (Event (Fin 2) VerificationInput JobEvent) :=
  [.environment (.stage true 1),
    .worker 0 (.claimNextJob .demo ⟨31⟩ 2 .none),
    .environment (.cancel IssuanceWorker.sampleAdministrator ⟨12⟩ 3),
    .worker 0 (.acquire emptySources 4 .none),
    .worker 0 .loaded,
    .worker 0 (.cancelBeforeWork 5 .none)]

open IssuanceWorker in
theorem finished_job_closed_sample :
    (∃ pool : Pool (Fin 2), pool.store.rows.job.status = .cancelled ∧
      ∃ e, pool.store.rows.evidence = some e ∧
        e.outputState ≠ .reserved ∧ e.outputState ≠ .uploading) ∧
    ∃ pool : VerificationWorker.Pool (Fin 2), pool.store.job.status = .cancelled ∧
      ∃ record, pool.store.result = some record ∧ record.resultState ≠ .reserved := by
  constructor
  · have hrun : ∃ pool, (program sampleSettings).LeadsWhen leavesNoneOpen samplePool pool ∧
        (decide (∀ w, pool.phase w = .idle), pool.store.rows.job.status,
          pool.store.rows.evidence.isSome) = (true, .cancelled, true) :=
      Program.leads_of_exec_map compensatedRun (by decide +kernel)
    obtain ⟨pool, hleads, hread⟩ := hrun
    simp only [Prod.mk.injEq, decide_eq_true_eq] at hread
    obtain ⟨hidle, hstatus, hsome⟩ := hread
    obtain ⟨e, he⟩ := Option.isSome_iff_exists.mp hsome
    have hclosed := (finished_job_closed sampleSettings).1 samplePool pool samplePool_start hleads
      hidle (by rw [hstatus]; rfl) e he
    exact ⟨pool, hstatus, e, he, hclosed⟩
  · have hrun : ∃ pool, (VerificationWorker.program demoSettings).Leads .all
        sampleVerificationPool pool ∧
        (pool.store.job.status, pool.store.result.isSome) = (.cancelled, true) :=
      Program.leads_of_exec_map cancelledVerificationRun (by decide +kernel)
    obtain ⟨pool, hleads, hread⟩ := hrun
    simp only [Prod.mk.injEq] at hread
    obtain ⟨hstatus, hsome⟩ := hread
    obtain ⟨record, hrecord⟩ := Option.isSome_iff_exists.mp hsome
    have hclosed := (finished_job_closed demoSettings).2 pool
      ⟨sampleVerificationPool, sampleVerificationPool_start, hleads⟩ (by rw [hstatus]; rfl)
      record hrecord
    exact ⟨pool, hstatus, record, hrecord, hclosed⟩

open IssuanceWorker in
/-- The cancellation falls between the claim and the acquisition. -/
def abandonedRun : List (Event (Fin 2) Input JobEvent) :=
  [.environment (.stage true 1),
    .worker 0 (.claimNextJob .demo ⟨10⟩ 2 .none),
    .environment (.cancel sampleAdministrator ⟨12⟩ 3),
    .worker 0 (.acquire 4 .none)]

open IssuanceWorker in
/-- It leaves a cancelled job with a reserved row, and nobody at work. -/
theorem cancelled_job_reserved : ∃ pool : Pool (Fin 2), Reachable sampleSettings pool ∧
    (∀ w, pool.phase w = .idle) ∧ pool.store.rows.job.status.terminal ∧
    ∃ e, pool.store.rows.evidence = some e ∧ e.outputState = .reserved := by
  have hrun : ∃ pool, (program sampleSettings).Leads .all samplePool pool ∧
      (decide (∀ w, pool.phase w = .idle), decide pool.store.rows.job.status.terminal,
        pool.store.rows.evidence.map (·.outputState)) = (true, true, some .reserved) :=
    Program.leads_of_exec_map abandonedRun (by decide +kernel)
  obtain ⟨pool, hleads, hread⟩ := hrun
  simp only [Prod.mk.injEq, decide_eq_true_eq, Option.map_eq_some_iff] at hread
  obtain ⟨hidle, hterminal, e, he, hstate⟩ := hread
  exact ⟨pool, ⟨samplePool, samplePool_start, hleads⟩, hidle, hterminal, e, he, hstate⟩

end Splitbind
