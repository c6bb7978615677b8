import Splitbind.Demo.IssuanceEffects
import Splitbind.Demo.IssuanceWorker
import Splitbind.Jobs.Machine

/-!
# Issuance steps — what one step of a worker does to the store

`Stepped` lists the steps of a worker by their effect, with the database's faults already
resolved; `call_stepped` derives it from the program once.  Every invariant of the pool is a case
analysis on `Stepped`.
-/

namespace Splitbind

open Transaction IssuanceRows

theorem Cycle.claimPolicy_coded (cycle : Cycle) (settings : Settings) :
    (cycle.claimPolicy settings).Coded := by
  cases cycle <;> simp [Cycle.claimPolicy, ClaimPolicy.Coded, demoClaimPolicy,
    integrityClaimPolicy]

namespace IssuanceWorker

/-! ## 1. Where an error leads -/

/-- A call that raises is over, or records its failure first. -/
def Ends (claim : ProcessingClaim) (p : Phase) : Prop :=
  p = .idle ∨ ∃ code failures, p = .record claim code failures

theorem handleError_ends (claim : ProcessingClaim) (e : Raised) :
    Ends claim (handleError claim e) := by
  unfold handleError
  split
  · split
    · exact .inl rfl
    · exact .inr ⟨_, _, rfl⟩
  · exact .inr ⟨_, _, rfl⟩

theorem compensationError_ends (claim : ProcessingClaim) (compensation : Compensation)
    (fails : Bool) (e : Raised) : Ends claim (compensationError claim compensation fails e) :=
  handleError_ends claim _

/-! ## 2. Inversion of the step combinators -/

variable {settings : Settings} {store store' : IssuanceStore} {p p' : Phase}

theorem transact_cases {α : Type} {fault : Fault} {body : Except Raised (α × IssuanceRows)}
    {next : Except Raised α → Phase} (h : transact store fault body next = some (store', p')) :
    (∃ a rows', body = .ok (a, rows') ∧ store' = { store with rows := rows' } ∧
      (p' = next (.ok a) ∨ p' = next (.error .databaseUnavailable))) ∨
    (store' = store ∧ ∃ e, p' = next (.error e)) := by
  simp only [transact, Option.some.injEq, Prod.mk.injEq] at h
  obtain ⟨rfl, rfl⟩ := h
  rcases attempt_cases fault .databaseUnavailable body store.rows with
    ⟨a, rows', hbody, hrows, hresult⟩ | ⟨hrows, e, hresult⟩
  · refine .inl ⟨a, rows', hbody, by rw [hrows], ?_⟩
    exact hresult.imp (congrArg next) (congrArg next)
  · exact .inr ⟨by rw [hrows], e, congrArg next hresult⟩

theorem withFreshToken_eq_some {token : UUID}
    {step : IssuanceStore → Option (IssuanceStore × Phase)} {r : IssuanceStore × Phase}
    (h : withFreshToken store token step = some r) :
    token ∉ store.issuedTokens ∧
      step { store with issuedTokens := token :: store.issuedTokens } = some r := by
  unfold withFreshToken at h
  split at h
  · simp at h
  · rename_i hfresh
    exact ⟨hfresh, h⟩

/-! ## 3. The steps by their effect -/

/-- The store once `uuid4` has returned `token`. -/
def issue (store : IssuanceStore) (token : UUID) : IssuanceStore :=
  { store with issuedTokens := token :: store.issuedTokens }

/-- The store after a transaction. -/
def commitRows (store : IssuanceStore) (rows : IssuanceRows) : IssuanceStore :=
  { store with rows := rows }

/-- The store after a write to the object store. -/
def storeObjects (store : IssuanceStore) (objects : ObjectStore) : IssuanceStore :=
  { store with objects := objects }

/-- What one step of a worker can do, by the phase it leaves and the phase it reaches. -/
inductive Stepped (settings : Settings) (store : IssuanceStore) :
    Phase → IssuanceStore → Phase → Prop
  | crashed (p : Phase) (hbusy : p ≠ .idle) : Stepped settings store p store .crashed
  /-- A call ends, or goes on to an error path, without having changed anything. -/
  | ended (claim : ProcessingClaim) (p p' : Phase) (htoken : p.heldClaim = some claim)
      (hends : Ends claim p') : Stepped settings store p store p'
  | left (p : Phase) : Stepped settings store p store .idle
  | called (ownerToken : UUID) (hfresh : ownerToken ∉ store.issuedTokens) :
      Stepped settings store .idle (issue store ownerToken) (.acquire ownerToken)
  | missed (token : UUID) (hfresh : token ∉ store.issuedTokens) :
      Stepped settings store .idle (issue store token) .idle
  | unclaimed (ownerToken : UUID) (policy : ClaimPolicy) (now : Instant) (job' : Job)
      (hfresh : ownerToken ∉ store.issuedTokens)
      (hclaim : claimJob policy now store.rows.job = .ok (false, job'))
      (hcoded : policy.Coded) :
      Stepped settings store .idle
        (commitRows (issue store ownerToken) { store.rows with job := job' }) .idle
  | claimed (ownerToken : UUID) (now : Instant) (p' : Phase)
      (hfresh : ownerToken ∉ store.issuedTokens) (hqueued : store.rows.job.status = .queued)
      (hcancel : store.rows.job.cancelRequestedAt = none) (hattempt : store.rows.job.attempt ≤ 2)
      (hnone : store.rows.evidence = none)
      (hbinds : (store.rows.reservedEvidence ownerToken now).Binds
        { store.rows.job with status := .processing, updatedAt := now } store.rows.issuance)
      (hp' : p' = .acquire ownerToken ∨ p' = .idle) :
      Stepped settings store .idle
        (commitRows (issue store ownerToken) { store.rows with
          job := { store.rows.job with status := .processing, updatedAt := now }
          evidence := some (store.rows.reservedEvidence ownerToken now) }) p'
  | recovered (recoveryToken : UUID) (now : Instant) (result : StaleRecovery)
      (rows' : IssuanceRows) (p' : Phase) (hfresh : recoveryToken ∉ store.issuedTokens)
      (hrecovered : store.rows.Recovered recoveryToken now result rows')
      (hp' : p' = recoveryNext (.ok result) ∨ p' = .idle) :
      Stepped settings store .idle (commitRows (issue store recoveryToken) rows') p'
  | acquireCancelled (ownerToken : UUID) (now : Instant)
      (hprocessing : store.rows.job.status = .processing)
      (hcancel : store.rows.job.cancelRequestedAt ≠ none) :
      Stepped settings store (.acquire ownerToken)
        (commitRows store { store.rows with
          job := { store.rows.job with status := .cancelled, updatedAt := now } }) .idle
  | acquired (ownerToken : UUID) (evidence : DemoIssuanceResult) (p' : Phase)
      (hprocessing : store.rows.job.status = .processing)
      (hevidence : store.rows.evidence = some evidence)
      (howner : evidence.ownerToken = ownerToken) (hstate : evidence.outputState = .reserved)
      (hp' : p' = .build (store.rows.claimOf evidence ownerToken) ∨ p' = .idle) :
      Stepped settings store (.acquire ownerToken) store p'
  | created (ownerToken : UUID) (now : Instant) (p' : Phase)
      (hprocessing : store.rows.job.status = .processing)
      (hnone : store.rows.evidence = none)
      (hp' : p' = .build (store.rows.claimOf (store.rows.reservedEvidence ownerToken now)
        ownerToken) ∨ p' = .idle) :
      Stepped settings store (.acquire ownerToken)
        (commitRows store { store.rows with
          evidence := some (store.rows.reservedEvidence ownerToken now) }) p'
  | built (claim : ProcessingClaim) (artifact : Artifact) (hpos : 1 ≤ artifact.pageCount)
      (hmax : artifact.pageCount ≤ settings.maxPdfPages) :
      Stepped settings store (.build claim) store (.beginUpload claim artifact)
  | beginCancelled (claim : ProcessingClaim) (artifact : Artifact) (now : Instant)
      (evidence : DemoIssuanceResult) (p' : Phase)
      (hevidence : store.rows.evidence = some evidence) (howns : Owns claim evidence)
      (hprocessing : store.rows.job.status = .processing)
      (hstate : evidence.outputState = .reserved)
      (hcancel : store.rows.job.cancelRequestedAt ≠ none) (hends : Ends claim p') :
      Stepped settings store (.beginUpload claim artifact)
        (commitRows store { store.rows with
          job := { store.rows.job with status := .cancelled, updatedAt := now }
          evidence := some { evidence with outputState := .cleaned, updatedAt := now } }) p'
  | begun (claim : ProcessingClaim) (artifact : Artifact) (now : Instant)
      (evidence : DemoIssuanceResult) (p' : Phase)
      (hevidence : store.rows.evidence = some evidence) (howns : Owns claim evidence)
      (hprocessing : store.rows.job.status = .processing)
      (hstate : evidence.outputState = .reserved)
      (hcancel : store.rows.job.cancelRequestedAt = none)
      (hp' : p' = .put claim artifact ∨ Ends claim p') :
      Stepped settings store (.beginUpload claim artifact)
        (commitRows store { store.rows with
          evidence := some { evidence with outputState := .uploading, updatedAt := now } }) p'
  | put (claim : ProcessingClaim) (artifact : Artifact) (outcome : PutOutcome) (fails : Bool) :
      Stepped settings store (.put claim artifact)
        (storeObjects store
          (outcome.apply store.objects claim.outputObjectKey artifact.outputSha256))
        (putNext claim artifact outcome fails)
  | commitFailed (claim : ProcessingClaim) (artifact : Artifact) :
      Stepped settings store (.commit claim artifact) store (.authorize claim .resultCommit)
  | commitCancelled (claim : ProcessingClaim) (artifact : Artifact) (now : Instant)
      (evidence : DemoIssuanceResult) (compensation : Compensation)
      (hevidence : store.rows.evidence = some evidence) (howns : Owns claim evidence)
      (hprocessing : store.rows.job.status = .processing)
      (hcancel : store.rows.job.cancelRequestedAt ≠ none)
      (hcompensation : compensation = .jobCancelled ∨ compensation = .resultCommit) :
      Stepped settings store (.commit claim artifact)
        (commitRows store { store.rows with
          job := { store.rows.job with status := .cancelled, updatedAt := now } })
        (.authorize claim compensation)
  | committed (claim : ProcessingClaim) (artifact : Artifact) (processingMs : Nat)
      (signing : Signing) (now : Instant) (evidence : DemoIssuanceResult)
      (manifests : List Manifest) (p' : Phase)
      (hevidence : store.rows.evidence = some evidence) (howns : Owns claim evidence)
      (hnames : store.rows.Names claim) (hprocessing : store.rows.job.status = .processing)
      (hcancel : store.rows.job.cancelRequestedAt = none)
      (hstate : evidence.outputState = .uploading)
      (hpos : 1 ≤ artifact.pageCount) (hmax : artifact.pageCount ≤ 50)
      (hms : processingMs ≤ DemoIssuanceResult.positiveIntegerMax)
      (hmanifests : store.rows.commitManifests
        (if settings.integrityMode then some signing else none) claim artifact now =
          .ok manifests)
      (hp' : p' = .idle ∨ p' = .authorize claim .resultCommit) :
      Stepped settings store (.commit claim artifact)
        (commitRows store
          (store.rows.committedRows claim artifact processingMs evidence manifests now)) p'
  | authorized (claim : ProcessingClaim) (compensation : Compensation)
      (evidence : DemoIssuanceResult)
      (hevidence : store.rows.evidence = some evidence) (howns : Owns claim evidence)
      (hstate : evidence.outputState = .uploading ∨ evidence.outputState = .cleanupRequired)
      (hstatus : store.rows.job.status ≠ .succeeded) :
      Stepped settings store (.authorize claim compensation) store (.delete claim compensation)
  | deleted (claim : ProcessingClaim) (compensation : Compensation) (outcome : DeleteOutcome) :
      Stepped settings store (.delete claim compensation)
        (storeObjects store (outcome.apply store.objects claim.outputObjectKey))
        (.persist claim compensation (decide (outcome = .deleted)))
  | persisted (claim : ProcessingClaim) (compensation : Compensation) (isDeleted : Bool)
      (now : Instant) (evidence : DemoIssuanceResult) (p' : Phase)
      (hevidence : store.rows.evidence = some evidence) (howns : Owns claim evidence)
      (hstate : evidence.outputState = .uploading ∨ evidence.outputState = .cleanupRequired)
      (hends : Ends claim p') :
      Stepped settings store (.persist claim compensation isDeleted)
        (commitRows store { store.rows with
          job := compensatedJob store.rows.job (compensation.code isDeleted)
            (compensation.cleanupFailures isDeleted) now
          evidence := some { evidence with
            outputState := if isDeleted then .cleaned else .cleanupRequired
            safeErrorCode := some (compensation.code isDeleted)
            cleanupFailures := compensation.cleanupFailures isDeleted
            updatedAt := now } }) p'
  | recorded (claim : ProcessingClaim) (code : SafeErrorCode) (failures : Nat) (now : Instant)
      (rows' : IssuanceRows)
      (hrecord : store.rows.recordFailedJob claim code failures now = .ok ((), rows')) :
      Stepped settings store (.record claim code failures) (commitRows store rows') .idle
  | staleAuthorized (claim : ProcessingClaim) (prior : Nat) (evidence : DemoIssuanceResult)
      (hevidence : store.rows.evidence = some evidence) (howns : Owns claim evidence)
      (hprocessing : store.rows.job.status = .processing) (hfenced : fenced evidence) :
      Stepped settings store (.staleAuthorize claim prior) store (.staleDelete claim prior)
  | staleDeleted (claim : ProcessingClaim) (prior : Nat) (outcome : DeleteOutcome) :
      Stepped settings store (.staleDelete claim prior)
        (storeObjects store (outcome.apply store.objects claim.outputObjectKey))
        (if outcome = .deleted then .staleAcknowledge claim prior else .staleFailed claim prior)
  | staleFailed (claim : ProcessingClaim) (prior : Nat) (now : Instant)
      (evidence : DemoIssuanceResult)
      (hevidence : store.rows.evidence = some evidence) (howns : Owns claim evidence)
      (hprocessing : store.rows.job.status = .processing) (hfenced : fenced evidence) :
      Stepped settings store (.staleFailed claim prior)
        (commitRows store { store.rows with
          evidence := some { evidence with
            cleanupFailures := prior + 1
            safeErrorCode := some .demoStaleOutputCleanupFailed
            updatedAt := now } }) .idle
  | staleAcknowledged (claim : ProcessingClaim) (prior : Nat) (now : Instant)
      (evidence : DemoIssuanceResult)
      (hevidence : store.rows.evidence = some evidence) (howns : Owns claim evidence)
      (hprocessing : store.rows.job.status = .processing) (hfenced : fenced evidence) :
      Stepped settings store (.staleAcknowledge claim prior)
        (commitRows store { store.rows with
          job := { store.rows.job with
            status := .failed, safeErrorCode := some .demoStaleJobFailed, updatedAt := now }
          evidence := some { evidence with
            outputState := .cleanupRequired
            safeErrorCode := some demoStaleRecoveryFenceCode
            updatedAt := now } }) .idle
  | tombstoneDeleted (claim : ProcessingClaim) (outcome : DeleteOutcome) :
      Stepped settings store (.tombstoneDelete claim)
        (storeObjects store (outcome.apply store.objects claim.outputObjectKey)) .idle

/-! ## 4. The program takes only these steps -/

theorem idleStep_stepped {input : Input}
    (h : idleStep settings store input = some (store', p')) :
    Stepped settings store .idle store' p' := by
  cases input with
  | claimNextJob cycle ownerToken now fault =>
    simp only [idleStep] at h
    split at h
    · obtain ⟨hfresh, h⟩ := withFreshToken_eq_some h
      rcases transact_cases h with ⟨result, rows', hbody, rfl, hp'⟩ | ⟨rfl, e, rfl⟩
      · rcases claimNextJob_cases hbody with ⟨job', rfl, rfl, hclaim⟩ |
          ⟨rfl, hqueued, hcancel, hattempt, hnone, hbinds, rfl⟩
        · have hidle : p' = .idle := by simpa [claimNext] using hp'
          subst hidle
          exact .unclaimed ownerToken _ now job' hfresh hclaim (cycle.claimPolicy_coded settings)
        · exact .claimed ownerToken now p' hfresh hqueued hcancel hattempt hnone hbinds hp'
      · exact .missed ownerToken hfresh
    · simp at h
  | processIssuanceJob ownerToken =>
    simp only [idleStep] at h
    split at h
    · obtain ⟨hfresh, h⟩ := withFreshToken_eq_some h
      simp only [Option.some.injEq, Prod.mk.injEq] at h
      obtain ⟨rfl, rfl⟩ := h
      exact .called ownerToken hfresh
    · simp at h
  | prepareStaleRecovery staleBefore recoveryToken now fault =>
    simp only [idleStep] at h
    split at h
    · obtain ⟨hfresh, h⟩ := withFreshToken_eq_some h
      rcases transact_cases h with ⟨result, rows', hbody, rfl, hp'⟩ | ⟨rfl, e, rfl⟩
      · exact .recovered recoveryToken now result rows' p' hfresh
          (prepareStaleRecovery_cases hbody) hp'
      · exact .missed recoveryToken hfresh
    · simp at h
  | _ => simp [idleStep] at h

private theorem buildNext_stepped {claim : ProcessingClaim} {outcome : BuildOutcome}
    (h : buildNext settings claim outcome = some p') :
    Stepped settings store (.build claim) store p' := by
  cases outcome with
  | ready artifact =>
    simp only [buildNext] at h
    split at h
    · rename_i hpages
      obtain rfl := Option.some.inj h
      exact .built claim artifact hpages.1 hpages.2
    · simp at h
  | keyFailed code =>
    simp only [buildNext] at h
    split at h
    · obtain rfl := Option.some.inj h
      exact .ended claim _ _ rfl (handleError_ends claim _)
    · simp at h
  | contentFailed code fails =>
    cases code with
    | none =>
      obtain rfl := Option.some.inj h
      exact .ended claim _ _ rfl (handleError_ends claim _)
    | some code =>
      simp only [buildNext] at h
      split at h
      · obtain rfl := Option.some.inj h
        exact .ended claim _ _ rfl (handleError_ends claim _)
      · simp at h

private theorem acquire_stepped {ownerToken : UUID} {now : Instant} {fault : Fault}
    (h : transact store fault (store.rows.acquireProcessingClaim settings ownerToken now)
      acquireNext = some (store', p')) :
    Stepped settings store (.acquire ownerToken) store' p' := by
  rcases transact_cases h with ⟨result, rows', hbody, rfl, hp'⟩ | ⟨rfl, e, rfl⟩
  · rcases acquireProcessingClaim_cases hbody with ⟨value, rfl, -, -, rfl⟩ |
      ⟨rfl, hprocessing, hcancel, rfl⟩ |
      ⟨evidence, rfl, hprocessing, hcancel, howner, hstate, hwhere⟩
    · have hidle : p' = .idle := by simpa [acquireNext] using hp'
      subst hidle
      exact .left _
    · have hidle : p' = .idle := by simpa [acquireNext] using hp'
      subst hidle
      exact .acquireCancelled ownerToken now hprocessing hcancel
    · rcases hwhere with ⟨hevidence, rfl⟩ | ⟨hnone, rfl, -, -, rfl⟩
      · exact .acquired ownerToken evidence p' hprocessing hevidence howner hstate hp'
      · exact .created ownerToken now p' hprocessing hnone hp'
  · exact .left _

private theorem beginUpload_stepped {claim : ProcessingClaim} {artifact : Artifact}
    {now : Instant} {fault : Fault} {fails : Bool}
    (h : transact store fault (store.rows.beginOutputUpload claim now)
      (beginUploadNext claim artifact fails) = some (store', p')) :
    Stepped settings store (.beginUpload claim artifact) store' p' := by
  rcases transact_cases h with ⟨started, rows', hbody, rfl, hp'⟩ | ⟨rfl, e, rfl⟩
  · obtain ⟨evidence, hevidence, howns, hprocessing, hstate, hcase⟩ := beginOutputUpload_cases hbody
    rcases hcase with ⟨rfl, hcancel, rfl⟩ | ⟨rfl, hcancel, rfl⟩
    · refine .beginCancelled claim artifact now evidence p' hevidence howns hprocessing hstate
        hcancel ?_
      rcases hp' with rfl | rfl <;> exact handleError_ends claim _
    · refine .begun claim artifact now evidence p' hevidence howns hprocessing hstate hcancel ?_
      rcases hp' with rfl | rfl
      · exact .inl rfl
      · exact .inr (handleError_ends claim _)
  · exact .ended claim _ _ rfl (handleError_ends claim _)

private theorem commit_stepped {claim : ProcessingClaim} {artifact : Artifact}
    {processingMs : Nat} {signing : Signing} {now : Instant} {fault : Fault}
    (h : transact store fault (store.rows.commitIssuanceResult settings claim artifact processingMs
      (if settings.integrityMode then some signing else none) now) (commitNext claim) =
        some (store', p')) :
    Stepped settings store (.commit claim artifact) store' p' := by
  rcases transact_cases h with ⟨result, rows', hbody, rfl, hp'⟩ | ⟨rfl, e, rfl⟩
  · obtain ⟨evidence, hevidence, howns, hnames, hprocessing, hcase⟩ :=
      commitIssuanceResult_cases hbody
    rcases hcase with ⟨rfl, hcancel, rfl⟩ |
      ⟨hsome, hcancel, hstate, -, -, hpos, hmax, hms, manifests, hmanifests, rfl⟩
    · rcases hp' with rfl | rfl
      · exact .commitCancelled claim artifact now evidence _ hevidence howns hprocessing hcancel
          (.inl rfl)
      · exact .commitCancelled claim artifact now evidence _ hevidence howns hprocessing hcancel
          (.inr rfl)
    · obtain ⟨value, rfl⟩ := Option.isSome_iff_exists.mp hsome
      exact .committed claim artifact processingMs signing now evidence manifests p' hevidence howns
        hnames hprocessing hcancel hstate hpos hmax hms hmanifests hp'
  · exact .commitFailed claim artifact

private theorem authorize_stepped {claim : ProcessingClaim} {compensation : Compensation}
    {fault : Fault} {fails : Bool}
    (h : transact store fault (store.rows.authorizeOutputCleanup claim)
      (authorizeNext claim compensation fails) = some (store', p')) :
    Stepped settings store (.authorize claim compensation) store' p' := by
  rcases transact_cases h with ⟨_, rows', hbody, rfl, hp'⟩ | ⟨rfl, e, rfl⟩
  · obtain ⟨rfl, evidence, hevidence, howns, hstate, -, hstatus⟩ :=
      authorizeOutputCleanup_cases hbody
    rcases hp' with rfl | rfl
    · exact .authorized claim compensation evidence hevidence howns hstate hstatus
    · exact .ended claim _ _ rfl (compensationError_ends claim _ _ _)
  · exact .ended claim _ _ rfl (compensationError_ends claim _ _ _)

private theorem persist_stepped {claim : ProcessingClaim} {compensation : Compensation}
    {isDeleted : Bool} {now : Instant} {fault : Fault} {fails : Bool}
    (h : transact store fault (store.rows.persistOutputCleanup claim
      (if isDeleted then .cleaned else .cleanupRequired) (compensation.code isDeleted)
      (compensation.cleanupFailures isDeleted) now)
      (persistNext claim compensation isDeleted fails) = some (store', p')) :
    Stepped settings store (.persist claim compensation isDeleted) store' p' := by
  rcases transact_cases h with ⟨_, rows', hbody, rfl, hp'⟩ | ⟨rfl, e, rfl⟩
  · obtain ⟨evidence, hevidence, howns, hstate, rfl⟩ := persistOutputCleanup_cases hbody
    refine .persisted claim compensation isDeleted now evidence p' hevidence howns hstate ?_
    rcases hp' with rfl | rfl <;> exact compensationError_ends claim _ _ _
  · exact .ended claim _ _ rfl (compensationError_ends claim _ _ _)

theorem busyStep_stepped {input : Input}
    (h : busyStep settings store p input = some (store', p')) (hbusy : p ≠ .idle) :
    Stepped settings store p store' p' := by
  unfold busyStep at h
  -- one case per branch of the phase's step; a transaction either commits or raises
  split at h
  · exact acquire_stepped h
  · simp only [Option.map_eq_some_iff, Prod.mk.injEq] at h
    obtain ⟨_, hnext, rfl, rfl⟩ := h
    exact buildNext_stepped hnext
  · exact beginUpload_stepped h
  · simp only [Option.some.injEq, Prod.mk.injEq] at h
    obtain ⟨rfl, rfl⟩ := h
    exact .put _ _ _ _
  · exact commit_stepped h
  · exact authorize_stepped h
  · simp only [Option.some.injEq, Prod.mk.injEq] at h
    obtain ⟨rfl, rfl⟩ := h
    exact .deleted _ _ _
  · exact persist_stepped h
  · rcases transact_cases h with ⟨_, rows', hbody, rfl, hp'⟩ | ⟨rfl, e, rfl⟩
    · obtain rfl : p' = .idle := by simpa using hp'
      exact .recorded _ _ _ _ rows' hbody
    · exact .left _
  · rcases transact_cases h with ⟨_, rows', hbody, rfl, hp'⟩ | ⟨rfl, e, rfl⟩
    · obtain ⟨rfl, hevidence, howns, hprocessing, hfenced, -⟩ :=
        authorizeStaleOutputDelete_eq_ok hbody
      rcases hp' with rfl | rfl
      · exact .staleAuthorized _ _ _ hevidence howns hprocessing hfenced
      · exact .left _
    · exact .left _
  · simp only [Option.some.injEq, Prod.mk.injEq] at h
    obtain ⟨rfl, rfl⟩ := h
    exact .staleDeleted _ _ _
  · rcases transact_cases h with ⟨_, rows', hbody, rfl, hp'⟩ | ⟨rfl, e, rfl⟩
    · obtain rfl : p' = .idle := by simpa using hp'
      obtain ⟨evidence, hevidence, howns, hprocessing, hfenced, rfl⟩ :=
        recordStaleOutputDeleteFailure_cases hbody
      exact .staleFailed _ _ _ evidence hevidence howns hprocessing hfenced
    · exact .left _
  · rcases transact_cases h with ⟨_, rows', hbody, rfl, hp'⟩ | ⟨rfl, e, rfl⟩
    · obtain rfl : p' = .idle := by simpa using hp'
      obtain ⟨evidence, hevidence, howns, hprocessing, hfenced, rfl⟩ :=
        acknowledgeStaleOutputDelete_cases hbody
      exact .staleAcknowledged _ _ _ evidence hevidence howns hprocessing hfenced
    · exact .left _
  · simp only [Option.some.injEq, Prod.mk.injEq] at h
    obtain ⟨rfl, rfl⟩ := h
    exact .tombstoneDeleted _ _
  · simp at h
  · simp at h
  · simp only [Option.some.injEq, Prod.mk.injEq] at h
    obtain ⟨rfl, rfl⟩ := h
    exact .crashed _ hbusy
  · simp at h

theorem call_stepped {input : Input} (h : call settings store p input = some (store', p')) :
    Stepped settings store p store' p' := by
  unfold call at h
  split at h
  · rename_i hidle
    exact hidle ▸ idleStep_stepped h
  · rename_i hbusy
    exact busyStep_stepped h hbusy

end IssuanceWorker

end Splitbind
