import Splitbind.Demo.IssuanceSteps

/-!
# Issuance invariant — job, evidence and outputs stay consistent under every interleaving

`Consistent` is the shared invariant of one issuance job, `Asserts` what a worker knows in each
phase, and distinct owner tokens are what two workers keep apart.  `Guarantee` summarises what any
step leaves alone; the assertions of the other workers are stable under it.
-/

namespace Splitbind

open Transaction IssuanceRows

namespace IssuanceWorker

/-! ## 1. The shared invariant -/

/-- How the job's status, its cancel flag and its evidence row belong together. -/
structure StatusFits (job : Job) (evidence : Option DemoIssuanceResult) : Prop where
  succeeded : job.status = .succeeded ↔ ∃ e, evidence = some e ∧ e.outputState = .committed
  waiting : job.status = .created ∨ job.status = .queued ∨ job.status = .retryableFailed →
    evidence = none ∧ job.cancelRequestedAt = none
  processing : job.status = .processing → evidence ≠ none
  flagged : job.cancelRequestedAt ≠ none → job.status ≠ .succeeded
  cancelled : job.status = .cancelled → job.cancelRequestedAt ≠ none

/-- An evidence row belongs to its job and claims a success only once committed. -/
structure EvidenceFits (store : IssuanceStore) (e : DemoIssuanceResult) : Prop where
  binds : e.Binds store.rows.job store.rows.issuance
  jobId : e.jobId = store.rows.job.id
  issued : e.ownerToken ∈ store.issuedTokens
  unclaimed : e.outputState ≠ .committed → e.claimsSuccess = false ∧ e.Durable

/-- What a commit leaves: the outputs, one receipt, the manifest of integrity mode, and the
object under the committed key. -/
structure Published (settings : Settings) (store : IssuanceStore) (e : DemoIssuanceResult) :
    Prop where
  outputObjectKey : store.rows.issuance.outputObjectKey = some e.outputObjectKey
  outputSha256 : store.rows.issuance.outputSha256 = e.outputSha256
  object : store.objects e.outputObjectKey = e.outputSha256
  stored : e.outputSha256 ≠ none
  receipts : store.rows.receipts =
    [⟨receiptId store.rows.job, store.rows.job.organizationId, store.rows.job.id⟩]
  manifests :
    if settings.integrityMode then
      ∃ manifest, store.rows.manifests = [manifest] ∧
        manifest.issuanceId = store.rows.issuance.id
    else store.rows.manifests = []

/-- Before a commit nothing of a success exists. -/
structure Unpublished (rows : IssuanceRows) : Prop where
  outputObjectKey : rows.issuance.outputObjectKey = none
  outputSha256 : rows.issuance.outputSha256 = none
  receipts : rows.receipts = []
  manifests : rows.manifests = []

structure Consistent (settings : Settings) (store : IssuanceStore) : Prop where
  bound : store.rows.Bound
  attempt : store.rows.job.attempt ≤ 2
  status : StatusFits store.rows.job store.rows.evidence
  evidence : ∀ e, store.rows.evidence = some e → EvidenceFits store e
  published : ∀ e, store.rows.evidence = some e → e.outputState = .committed →
    Published settings store e
  unpublished : (∀ e, store.rows.evidence = some e → e.outputState ≠ .committed) →
    Unpublished store.rows

variable {settings : Settings} {store store' : IssuanceStore} {p p' : Phase}

/-! ## 2. Changes that keep it -/

theorem Consistent.of_attached (h : Attached store.rows) : Consistent settings store where
  bound := validateLockedBinding_eq_ok.mp h.bound
  attempt := by simp [h.attempt]
  status := by
    constructor <;> simp [h.status, h.evidence, h.unflagged]
  evidence := by simp [h.evidence]
  published := by simp [h.evidence]
  unpublished := fun _ ↦ ⟨h.outputObjectKey, h.outputSha256, h.receipts, h.manifests⟩

/-- A job is not committed while it is in processing. -/
theorem Consistent.uncommitted {e : DemoIssuanceResult} (h : Consistent settings store)
    (hprocessing : store.rows.job.status ≠ .succeeded) (he : store.rows.evidence = some e) :
    e.outputState ≠ .committed := by
  intro hcommitted
  exact hprocessing (h.status.succeeded.mpr ⟨e, he, hcommitted⟩)

/-- The evidence row is that of the job's issuance. -/
theorem Consistent.issuanceId {e : DemoIssuanceResult} (h : Consistent settings store)
    (he : store.rows.evidence = some e) : e.issuanceId = store.rows.issuance.id := by
  have hid := (h.evidence e he).binds.issuanceId
  rw [h.bound.issuanceId, Option.some.injEq] at hid
  exact hid.symm

/-- Issuing a token disturbs nothing. -/
theorem Consistent.issue (h : Consistent settings store) (token : UUID) :
    Consistent settings (issue store token) where
  bound := h.bound
  attempt := h.attempt
  status := h.status
  evidence := fun e he ↦
    { h.evidence e he with issued := List.mem_cons_of_mem _ (h.evidence e he).issued }
  published := fun e he hcommitted ↦ { h.published e he hcommitted with }
  unpublished := h.unpublished

/-- A write to the object store disturbs nothing as long as nothing is committed. -/
theorem Consistent.storeObjects (h : Consistent settings store) (objects : ObjectStore)
    (hstatus : ∀ e, store.rows.evidence = some e → e.outputState ≠ .committed) :
    Consistent settings (storeObjects store objects) where
  bound := h.bound
  attempt := h.attempt
  status := h.status
  evidence := fun e he ↦ { h.evidence e he with }
  published := fun e he hcommitted ↦ absurd hcommitted (hstatus e he)
  unpublished := h.unpublished

/-- The job changes while nothing is committed, before or after. -/
theorem Consistent.withJob (h : Consistent settings store) {job' : Job}
    (audit' : List AuditEvent) (hsame : SameJob store.rows.job job') (hattempt : job'.attempt ≤ 2)
    (hkept : store.rows.evidence = none ∨ job'.attempt = store.rows.job.attempt)
    (huncommitted : ∀ e, store.rows.evidence = some e → e.outputState ≠ .committed)
    (hstatus : StatusFits job' store.rows.evidence) :
    Consistent settings
      (commitRows store { store.rows with job := job', audit := audit' }) where
  bound := { h.bound.withJob hsame with }
  attempt := hattempt
  status := hstatus
  evidence := by
    intro e he
    have hfits := h.evidence e he
    have hattempt' : job'.attempt = store.rows.job.attempt :=
      hkept.resolve_left (by rw [show store.rows.evidence = some e from he]; simp)
    exact ⟨hfits.binds.withJob hsame hattempt', hfits.jobId.trans hsame.id.symm, hfits.issued,
      hfits.unclaimed⟩
  published := fun e he hcommitted ↦ absurd hcommitted (huncommitted e he)
  unpublished := fun _ ↦ { h.unpublished huncommitted with }

/-- The job and an uncommitted evidence row change together, short of a commit. -/
theorem Consistent.withEvidence (h : Consistent settings store) {job' : Job}
    {e e' : DemoIssuanceResult} (he : store.rows.evidence = some e)
    (huncommitted : e.outputState ≠ .committed) (hsame : SameJob store.rows.job job')
    (hattempt : job'.attempt = store.rows.job.attempt) (hevidence : DemoIssuanceResult.SameEvidence e e')
    (huncommitted' : e'.outputState ≠ .committed) (hdurable : e'.Durable)
    (hissued : e'.ownerToken ∈ store.issuedTokens) (hstatus : StatusFits job' (some e')) :
    Consistent settings
      (commitRows store { store.rows with job := job', evidence := some e' }) where
  bound := { h.bound.withJob hsame with }
  attempt := hattempt ▸ h.attempt
  status := hstatus
  evidence := by
    rintro e'' he''
    obtain rfl := Option.some.inj he''
    have hfits := h.evidence e he
    exact ⟨(hfits.binds.withJob hsame hattempt).withEvidence hevidence,
      hevidence.jobId.trans (hfits.jobId.trans hsame.id.symm), hissued,
      fun _ ↦ ⟨hevidence.claimsSuccess.trans (hfits.unclaimed huncommitted).1, hdurable⟩⟩
  published := by
    rintro e'' he'' hcommitted
    obtain rfl := Option.some.inj he''
    exact absurd hcommitted huncommitted'
  unpublished := by
    intro _
    have hbefore : ∀ e'', store.rows.evidence = some e'' → e''.outputState ≠ .committed := by
      intro e'' he''
      obtain rfl := Option.some.inj (he.symm.trans he'')
      exact huncommitted
    exact { h.unpublished hbefore with }

theorem StatusFits.of_failed {job : Job} {evidence : Option DemoIssuanceResult}
    (hstatus : job.status = .failed)
    (huncommitted : ∀ e, evidence = some e → e.outputState ≠ .committed) :
    StatusFits job evidence := by
  constructor <;> simp_all

theorem StatusFits.of_cancelled {job : Job} {evidence : Option DemoIssuanceResult}
    (hstatus : job.status = .cancelled) (hflag : job.cancelRequestedAt ≠ none)
    (huncommitted : ∀ e, evidence = some e → e.outputState ≠ .committed) :
    StatusFits job evidence := by
  constructor <;> simp_all

/-- A job keeps fitting when one uncommitted row replaces another. -/
theorem StatusFits.replace {job : Job} {e e' : DemoIssuanceResult}
    (h : StatusFits job (some e)) (hstate : e.outputState ≠ .committed)
    (hstate' : e'.outputState ≠ .committed) : StatusFits job (some e') where
  succeeded := by
    rw [h.succeeded]
    simp [hstate, hstate']
  waiting := fun hwaiting ↦ absurd (h.waiting hwaiting).1 (by simp)
  processing := by simp
  flagged := h.flagged
  cancelled := h.cancelled

/-! ## 3. What a worker knows -/

/-- The worker has lost its evidence row to a stale recovery, which keeps it for cleanup. -/
def Lost (claim : ProcessingClaim) (e : DemoIssuanceResult) : Prop :=
  e.ownerToken ≠ claim.ownerToken ∧ e.outputState = .cleanupRequired

/-- The worker owns its evidence row in one of the given states, or has lost it. -/
def Holding (store : IssuanceStore) (claim : ProcessingClaim) (states : List DemoOutputState) :
    Prop :=
  ∃ e, store.rows.evidence = some e ∧
    (e.ownerToken = claim.ownerToken ∧ e.outputState ∈ states ∨ Lost claim e)

/-- The evidence row is kept for cleanup. -/
def Fenced (store : IssuanceStore) : Prop :=
  ∃ e, store.rows.evidence = some e ∧ e.outputState = .cleanupRequired

def Asserts (store : IssuanceStore) : Phase → Prop
  | .idle => True
  | .crashed => True
  | .acquire ownerToken => ∀ e, store.rows.evidence = some e → e.ownerToken = ownerToken →
      e.outputState = .reserved ∨ e.outputState = .cleaned
  | .build claim => Holding store claim [.reserved, .cleaned]
  | .beginUpload claim _ => Holding store claim [.reserved, .cleaned]
  | .put claim _ => Holding store claim [.uploading]
  | .commit claim artifact => Holding store claim [.uploading] ∧
      ∀ e, store.rows.evidence = some e → e.outputState = .uploading →
        store.objects claim.outputObjectKey = some artifact.outputSha256
  | .authorize claim _ => Holding store claim [.uploading, .committed]
  | .delete claim _ => Holding store claim [.uploading]
  | .persist claim _ _ => Holding store claim [.uploading]
  | .record _ _ _ => True
  | .staleAuthorize _ _ => Fenced store
  | .staleDelete _ _ => Fenced store
  | .staleFailed _ _ => Fenced store
  | .staleAcknowledge _ _ => Fenced store
  | .tombstoneDelete _ => Fenced store

/-- The owner token a worker works under. -/
def token : Phase → Option UUID
  | .idle => none
  | .crashed => none
  | .acquire ownerToken => some ownerToken
  | .build claim => some claim.ownerToken
  | .beginUpload claim _ => some claim.ownerToken
  | .put claim _ => some claim.ownerToken
  | .commit claim _ => some claim.ownerToken
  | .authorize claim _ => some claim.ownerToken
  | .delete claim _ => some claim.ownerToken
  | .persist claim _ _ => some claim.ownerToken
  | .record claim _ _ => some claim.ownerToken
  | .staleAuthorize claim _ => some claim.ownerToken
  | .staleDelete claim _ => some claim.ownerToken
  | .staleFailed claim _ => some claim.ownerToken
  | .staleAcknowledge claim _ => some claim.ownerToken
  | .tombstoneDelete _ => none

theorem token_of_heldClaim {claim : ProcessingClaim} (h : p.heldClaim = some claim) :
    token p = some claim.ownerToken := by
  cases p <;> simp_all [Phase.heldClaim, token]

theorem token_of_ends {claim : ProcessingClaim} (h : Ends claim p) {t : UUID}
    (ht : token p = some t) : t = claim.ownerToken := by
  rcases h with rfl | ⟨code, failures, rfl⟩
  · simp [token] at ht
  · simpa [token, eq_comm] using ht

theorem asserts_of_ends {claim : ProcessingClaim} (h : Ends claim p) : Asserts store p := by
  rcases h with rfl | ⟨code, failures, rfl⟩ <;> trivial

/-- The shared invariant, the assertion of each phase, and distinct owner tokens. -/
def assertions (settings : Settings) : WorkerPool.Assertions IssuanceStore Phase where
  shared := Consistent settings
  own := fun store p ↦ (∀ t, token p = some t → t ∈ store.issuedTokens) ∧ Asserts store p
  apart := fun p q ↦ ∀ t, token p = some t → token q ≠ some t

/-- A worker that still owns its row has it in one of the states it asserts. -/
theorem Holding.state_of_owns {claim : ProcessingClaim} {states : List DemoOutputState}
    {e : DemoIssuanceResult} (h : Holding store claim states) (he : store.rows.evidence = some e)
    (howns : Owns claim e) : e.outputState ∈ states := by
  obtain ⟨e', he', hcase⟩ := h
  obtain rfl := Option.some.inj (he.symm.trans he')
  rcases hcase with ⟨-, hstate⟩ | hlost
  · exact hstate
  · exact absurd howns.ownerToken hlost.1

theorem Holding.mono {claim : ProcessingClaim} {states states' : List DemoOutputState}
    (h : Holding store claim states) (hsub : states ⊆ states') : Holding store claim states' := by
  obtain ⟨e, he, hcase⟩ := h
  exact ⟨e, he, hcase.imp_left fun hown ↦ ⟨hown.1, hsub hown.2⟩⟩

/-! ## 4. What a step guarantees to the other workers -/

/-- How one step of the worker holding `token` may change the evidence row: not its owner and
state, or it owns a row that is neither kept for cleanup nor committed, or it takes over an
unfinished upload with a new token, or it closes a reserved row. -/
def Kept (store : IssuanceStore) (token : Option UUID) (e e' : DemoIssuanceResult) : Prop :=
  (e'.ownerToken = e.ownerToken ∧ e'.outputState = e.outputState) ∨
  (token = some e.ownerToken ∧ e'.ownerToken = e.ownerToken ∧
    e.outputState ≠ .cleanupRequired ∧ e.outputState ≠ .committed) ∨
  (e'.ownerToken ∉ store.issuedTokens ∧ e'.outputState = .cleanupRequired ∧
    (e.outputState = .uploading ∨ e.outputState = .cleanupRequired)) ∨
  (e'.ownerToken = e.ownerToken ∧ e.outputState = .reserved ∧ e'.outputState = .cleaned)

structure Guarantee (store store' : IssuanceStore) (token : Option UUID) : Prop where
  issued : ∀ t ∈ store.issuedTokens, t ∈ store'.issuedTokens
  kept : ∀ e, store.rows.evidence = some e →
    ∃ e', store'.rows.evidence = some e' ∧ Kept store token e e'
  created : store.rows.evidence = none → ∀ e', store'.rows.evidence = some e' →
    token = some e'.ownerToken ∨ e'.ownerToken ∉ store.issuedTokens
  objects : store'.objects = store.objects ∨
    ∃ e, store.rows.evidence = some e ∧
      (e.outputState = .cleanupRequired ∨
        token = some e.ownerToken ∧ e.outputState = .uploading)

variable {t : Option UUID}

/-- Nothing but the job and the issued tokens changed. -/
theorem Guarantee.of_evidence_eq (hissued : ∀ t ∈ store.issuedTokens, t ∈ store'.issuedTokens)
    (hevidence : store'.rows.evidence = store.rows.evidence)
    (hobjects : store'.objects = store.objects) : Guarantee store store' t where
  issued := hissued
  kept := fun e he ↦ ⟨e, hevidence.trans he, .inl ⟨rfl, rfl⟩⟩
  created := fun hnone e' he' ↦ by simp [hevidence, hnone] at he'
  objects := .inl hobjects

/-- One evidence row replaced another. -/
theorem Guarantee.of_kept {e e' : DemoIssuanceResult}
    (hissued : ∀ t ∈ store.issuedTokens, t ∈ store'.issuedTokens)
    (he : store.rows.evidence = some e) (he' : store'.rows.evidence = some e')
    (hkept : Kept store t e e') (hobjects : store'.objects = store.objects) :
    Guarantee store store' t where
  issued := hissued
  kept := fun e₁ he₁ ↦ by
    obtain rfl := Option.some.inj (he.symm.trans he₁)
    exact ⟨e', he', hkept⟩
  created := fun hnone ↦ by simp [he] at hnone
  objects := .inl hobjects

/-- The object store changed under a row that permits it. -/
theorem Guarantee.of_objects {objects : ObjectStore} {e : DemoIssuanceResult}
    (he : store.rows.evidence = some e)
    (hstate : e.outputState = .cleanupRequired ∨
      t = some e.ownerToken ∧ e.outputState = .uploading) :
    Guarantee store (storeObjects store objects) t where
  issued := fun _ h ↦ h
  kept := fun e₁ he₁ ↦ ⟨e₁, he₁, .inl ⟨rfl, rfl⟩⟩
  created := fun hnone ↦ by simp [he] at hnone
  objects := .inr ⟨e, he, hstate⟩

theorem Holding.guarantee_objects {objects : ObjectStore} {claim : ProcessingClaim}
    (h : Holding store claim [.uploading]) (ht : t = some claim.ownerToken) :
    Guarantee store (IssuanceWorker.storeObjects store objects) t := by
  obtain ⟨e, he, ⟨howner, hstate⟩ | hlost⟩ := h
  · exact .of_objects he (.inr ⟨by rw [ht, howner], by simpa using hstate⟩)
  · exact .of_objects he (.inl hlost.2)

theorem Fenced.guarantee_objects {objects : ObjectStore} (h : Fenced store) :
    Guarantee store (IssuanceWorker.storeObjects store objects) t := by
  obtain ⟨e, he, hstate⟩ := h
  exact .of_objects he (.inl hstate)

/-- Recording a failure closes a row its worker owns, or changes neither owner nor state. -/
theorem guarantee_of_recordFailedJob {claim : ProcessingClaim} {code : SafeErrorCode}
    {failures : Nat} {now : Instant} {rows' : IssuanceRows}
    (h : store.rows.recordFailedJob claim code failures now = .ok ((), rows'))
    (ht : t = some claim.ownerToken ∨
      ∀ e, store.rows.evidence = some e → e.outputState = .reserved ∨ e.outputState = .cleaned) :
    Guarantee store (commitRows store rows') t := by
  rcases recordFailedJob_cases h with rfl | ⟨e, he, howns, -, hcommitted, -, rfl⟩
  · exact .of_evidence_eq (fun _ h ↦ h) rfl rfl
  · refine .of_kept (fun _ h ↦ h) he rfl ?_ rfl
    rcases ht with ht | hclosed
    · cases hs : e.outputState with
      | reserved => exact .inr (.inl ⟨by rw [ht, howns.ownerToken], rfl, by simp [hs], hcommitted⟩)
      | uploading => exact .inr (.inl ⟨by rw [ht, howns.ownerToken], rfl, by simp [hs], hcommitted⟩)
      | committed => exact absurd hs hcommitted
      | cleanupRequired => exact .inl ⟨rfl, by simp [failedEvidence, hs]⟩
      | cleaned => exact .inl ⟨rfl, by simp [failedEvidence, hs]⟩
    · rcases hclosed e he with hs | hs
      · exact .inr (.inr (.inr ⟨rfl, hs, by simp [failedEvidence, hs]⟩))
      · exact .inl ⟨rfl, by simp [failedEvidence, hs]⟩

/-- Every step guarantees the other workers that much. -/
theorem Stepped.guarantee (h : Stepped settings store p store' p') (hasserts : Asserts store p) :
    Guarantee store store' (token p) := by
  have hissue : ∀ {u : UUID}, ∀ t ∈ store.issuedTokens, t ∈ u :: store.issuedTokens :=
    fun t ht ↦ List.mem_cons_of_mem _ ht
  -- steps that leave the evidence row as it is, then those that only issue a token
  cases h with
  | crashed | ended | left | acquired | built | commitFailed | authorized | staleAuthorized =>
    exact .of_evidence_eq (fun _ h ↦ h) rfl rfl
  | called | missed | unclaimed => exact .of_evidence_eq hissue rfl rfl
  | acquireCancelled | commitCancelled => exact .of_evidence_eq (fun _ h ↦ h) rfl rfl
  -- a claim and a reservation write a row where there was none
  | claimed ownerToken now p' hfresh hqueued hcancel hattempt hnone =>
    refine ⟨hissue, fun e he ↦ by simp [hnone] at he, fun _ e he ↦ .inr ?_, .inl rfl⟩
    obtain rfl := Option.some.inj he
    exact hfresh
  | recovered recoveryToken now result rows' p' hfresh hrecovered =>
    cases hrecovered with
    | skipped | tombstone | replayed => exact .of_evidence_eq hissue rfl rfl
    | claimed e he hprocessing hstate =>
      exact .of_kept hissue he rfl (.inr (.inr (.inl ⟨hfresh, rfl, hstate⟩))) rfl
    | recorded e rows' he hprocessing hstate hrecord =>
      have hclosed : ∀ e', store.rows.evidence = some e' →
          e'.outputState = .reserved ∨ e'.outputState = .cleaned := by
        intro e' he'
        obtain rfl := Option.some.inj (he.symm.trans he')
        exact hstate
      exact { guarantee_of_recordFailedJob hrecord (.inr hclosed) with issued := hissue }
  | created ownerToken now p' hprocessing hnone =>
    refine ⟨fun _ h ↦ h, fun e he ↦ by simp [hnone] at he, fun _ e he ↦ .inl ?_, .inl rfl⟩
    obtain rfl := Option.some.inj he
    rfl
  -- the owner's own moves of its row: the token stays, the state advances
  | beginCancelled claim artifact now e p' he howns hprocessing hstate =>
    refine .of_kept (fun _ h ↦ h) he rfl (.inr (.inl ⟨?_, rfl, ?_, ?_⟩)) rfl
    · exact congrArg some howns.ownerToken.symm
    all_goals simp [hstate]
  | begun claim artifact now e p' he howns hprocessing hstate =>
    refine .of_kept (fun _ h ↦ h) he rfl (.inr (.inl ⟨?_, rfl, ?_, ?_⟩)) rfl
    · exact congrArg some howns.ownerToken.symm
    all_goals simp [hstate]
  | committed claim artifact ms signing now e manifests p' he howns hnames hprocessing hcancel
      hstate =>
    refine .of_kept (fun _ h ↦ h) he rfl (.inr (.inl ⟨?_, rfl, ?_, ?_⟩)) rfl
    · exact congrArg some howns.ownerToken.symm
    all_goals simp [hstate]
  | persisted claim compensation isDeleted now e p' he howns =>
    have hstate : e.outputState = .uploading := by
      simpa using Holding.state_of_owns hasserts he howns
    refine .of_kept (fun _ h ↦ h) he rfl (.inr (.inl ⟨?_, rfl, ?_, ?_⟩)) rfl
    · exact congrArg some howns.ownerToken.symm
    all_goals simp [hstate]
  | recorded claim code failures now rows' hrecord =>
    exact guarantee_of_recordFailedJob hrecord (.inl rfl)
  -- object operations leave the rows; their fences are in the obligations
  | put | deleted => exact Holding.guarantee_objects hasserts rfl
  | staleDeleted | tombstoneDeleted => exact Fenced.guarantee_objects hasserts
  | staleFailed claim prior now e he howns hprocessing hfenced =>
    exact .of_kept (fun _ h ↦ h) he rfl (.inl ⟨rfl, rfl⟩) rfl
  | staleAcknowledged claim prior now e he howns hprocessing hfenced =>
    exact .of_kept (fun _ h ↦ h) he rfl (.inl ⟨rfl, hfenced.1.symm⟩) rfl

/-- A worker keeps its token, or takes one `uuid4` has just returned. -/
theorem Stepped.token (h : Stepped settings store p store' p') {t : UUID}
    (ht : IssuanceWorker.token p' = some t) :
    IssuanceWorker.token p = some t ∨ t ∉ store.issuedTokens ∧ t ∈ store'.issuedTokens := by
  -- a worker's token is the one it had, or the one this step has just issued
  cases h with
  | crashed | left | missed | unclaimed | acquireCancelled | recorded | staleFailed
  | staleAcknowledged | tombstoneDeleted => simp [IssuanceWorker.token] at ht
  | ended claim p p' htoken hends =>
    rw [token_of_ends hends ht]
    exact .inl (token_of_heldClaim htoken)
  | called ownerToken hfresh =>
    obtain rfl : ownerToken = t := by simpa [IssuanceWorker.token] using ht
    exact .inr ⟨hfresh, List.mem_cons_self⟩
  | claimed ownerToken now p' hfresh _ _ _ _ _ hp' =>
    rcases hp' with rfl | rfl
    · obtain rfl : ownerToken = t := by simpa [IssuanceWorker.token] using ht
      exact .inr ⟨hfresh, List.mem_cons_self⟩
    · simp [IssuanceWorker.token] at ht
  | recovered recoveryToken now result rows' p' hfresh hrecovered hp' =>
    rcases hp' with rfl | rfl
    · cases hrecovered with
      | claimed =>
        obtain rfl : recoveryToken = t := by
          simpa [recoveryNext, IssuanceWorker.token] using ht
        exact .inr ⟨hfresh, List.mem_cons_self⟩
      | _ => simp [recoveryNext, IssuanceWorker.token] at ht
    · simp [IssuanceWorker.token] at ht
  | acquired ownerToken e p' _ _ _ _ hp' | created ownerToken now p' _ _ hp' =>
    rcases hp' with rfl | rfl
    · exact .inl (by simpa [IssuanceWorker.token, claimOf] using ht)
    · simp [IssuanceWorker.token] at ht
  | built | commitFailed | commitCancelled | authorized | deleted | staleAuthorized =>
    exact .inl ht
  | beginCancelled claim artifact now e p' _ _ _ _ _ hends
  | persisted claim compensation isDeleted now e p' _ _ _ hends =>
    exact .inl (by rw [token_of_ends hends ht]; rfl)
  | begun claim artifact now e p' _ _ _ _ _ hp' =>
    rcases hp' with rfl | hends
    · exact .inl ht
    · exact .inl (by rw [token_of_ends hends ht]; rfl)
  | put claim artifact outcome fails =>
    refine .inl ?_
    unfold putNext at ht
    split at ht
    · split at ht <;> exact ht
    · exact ht
  | committed claim artifact ms signing now e manifests p' _ _ _ _ _ _ _ _ _ _ hp' =>
    rcases hp' with rfl | rfl
    · simp [IssuanceWorker.token] at ht
    · exact .inl ht
  | staleDeleted claim prior outcome =>
    refine .inl ?_
    split at ht <;> exact ht

/-! ## 5. The others' assertions are stable -/

variable {q : Phase}

theorem Holding.stable {claim : ProcessingClaim} {states : List DemoOutputState}
    (h : Holding store claim states) (hguarantee : Guarantee store store' t)
    (hissued : claim.ownerToken ∈ store.issuedTokens) (hapart : t ≠ some claim.ownerToken)
    (hclosed : .reserved ∈ states → .cleaned ∈ states) : Holding store' claim states := by
  obtain ⟨e, he, hcase⟩ := h
  obtain ⟨e', he', hkept⟩ := hguarantee.kept e he
  refine ⟨e', he', ?_⟩
  rcases hkept with ⟨howner, hstate⟩ | ⟨ht, howner, hcleanup, -⟩ | ⟨hfresh, hstate, -⟩ |
    ⟨howner, hreserved, hcleaned⟩
  · simpa [Lost, howner, hstate] using hcase
  · rcases hcase with ⟨hown, -⟩ | hlost
    · exact absurd (hown ▸ ht) hapart
    · exact absurd hlost.2 hcleanup
  · exact .inr ⟨fun heq ↦ hfresh (heq ▸ hissued), hstate⟩
  · rcases hcase with ⟨hown, hmem⟩ | hlost
    · exact .inl ⟨howner.trans hown, hcleaned ▸ hclosed (hreserved ▸ hmem)⟩
    · exact absurd (hreserved.symm.trans hlost.2) (by simp)

theorem Fenced.stable (h : Fenced store) (hguarantee : Guarantee store store' t) :
    Fenced store' := by
  obtain ⟨e, he, hstate⟩ := h
  obtain ⟨e', he', hkept⟩ := hguarantee.kept e he
  refine ⟨e', he', ?_⟩
  rcases hkept with ⟨-, heq⟩ | ⟨-, -, hcleanup, -⟩ | ⟨-, hcleanup, -⟩ | ⟨-, hreserved, -⟩
  · exact heq.trans hstate
  · exact absurd hstate hcleanup
  · exact hcleanup
  · exact absurd (hreserved.symm.trans hstate) (by simp)

/-- A row its worker has not yet acquired was reserved for it, and at most closed since. -/
theorem acquire_stable {ownerToken : UUID} (h : Asserts store (.acquire ownerToken))
    (hguarantee : Guarantee store store' t) (hissued : ownerToken ∈ store.issuedTokens)
    (hapart : t ≠ some ownerToken) : Asserts store' (.acquire ownerToken) := by
  intro e' he' howner
  rcases he : store.rows.evidence with _ | e
  · rcases hguarantee.created he e' he' with ht | hfresh
    · exact absurd (howner ▸ ht) hapart
    · exact absurd (howner ▸ hissued) hfresh
  · obtain ⟨e'', he'', hkept⟩ := hguarantee.kept e he
    obtain rfl := Option.some.inj (he'.symm.trans he'')
    rcases hkept with ⟨heq, hstate⟩ | ⟨ht, heq, -⟩ | ⟨hfresh, -⟩ | ⟨-, -, hcleaned⟩
    · rw [hstate]
      exact h e he (heq.symm.trans howner)
    · exact absurd (ht.trans (congrArg some (heq.symm.trans howner))) hapart
    · exact absurd (howner ▸ hissued) hfresh
    · exact .inr hcleaned

/-- While its owner works on an uploading row, nobody else writes to the object store. -/
theorem Holding.uploading_kept {claim : ProcessingClaim} {e' : DemoIssuanceResult}
    (h : Holding store claim [.uploading]) (hguarantee : Guarantee store store' t)
    (hapart : t ≠ some claim.ownerToken)
    (he' : store'.rows.evidence = some e') (huploading : e'.outputState = .uploading) :
    ∃ e, store.rows.evidence = some e ∧ e.outputState = .uploading ∧
      store'.objects = store.objects := by
  obtain ⟨e, he, hcase⟩ := h
  obtain ⟨e'', he'', hkept⟩ := hguarantee.kept e he
  obtain rfl := Option.some.inj (he'.symm.trans he'')
  have hown : e.ownerToken = claim.ownerToken ∧ e.outputState = .uploading := by
    rcases hcase with ⟨howner, hstate⟩ | hlost
    · exact ⟨howner, by simpa using hstate⟩
    · -- a row kept for cleanup does not become an upload again
      rcases hkept with ⟨-, hstate⟩ | ⟨-, -, hcleanup, -⟩ | ⟨-, hcleanup, -⟩ | ⟨-, -, hcleaned⟩
      · exact absurd (huploading.symm.trans (hstate.trans hlost.2)) (by simp)
      · exact absurd hlost.2 hcleanup
      · exact absurd (huploading.symm.trans hcleanup) (by simp)
      · exact absurd (huploading.symm.trans hcleaned) (by simp)
  refine ⟨e, he, hown.2, ?_⟩
  rcases hguarantee.objects with hobjects | ⟨e₁, he₁, hpermitted⟩
  · exact hobjects
  · obtain rfl := Option.some.inj (he.symm.trans he₁)
    rcases hpermitted with hcleanup | ⟨ht, -⟩
    · exact absurd (hown.2.symm.trans hcleanup) (by simp)
    · exact absurd (ht.trans (congrArg some hown.1)) hapart

theorem commit_stable {claim : ProcessingClaim} {artifact : Artifact}
    (h : Asserts store (.commit claim artifact)) (hguarantee : Guarantee store store' t)
    (hissued : claim.ownerToken ∈ store.issuedTokens) (hapart : t ≠ some claim.ownerToken) :
    Asserts store' (.commit claim artifact) := by
  refine ⟨h.1.stable hguarantee hissued hapart (by simp), fun e' he' huploading ↦ ?_⟩
  obtain ⟨e, he, hstate, hobjects⟩ := h.1.uploading_kept hguarantee hapart he' huploading
  rw [hobjects]
  exact h.2 e he hstate

/-- What a worker asserts survives the step of any other worker. -/
theorem Asserts.stable (h : Asserts store q) (hguarantee : Guarantee store store' t)
    (hissued : ∀ u, token q = some u → u ∈ store.issuedTokens)
    (hapart : ∀ u, token q = some u → t ≠ some u) : Asserts store' q := by
  cases q with
  | idle | crashed | record => trivial
  | acquire ownerToken => exact acquire_stable h hguarantee (hissued _ rfl) (hapart _ rfl)
  | commit claim artifact => exact commit_stable h hguarantee (hissued _ rfl) (hapart _ rfl)
  | build | beginUpload | put | authorize | delete | persist =>
    exact Holding.stable h hguarantee (hissued _ rfl) (hapart _ rfl) (by simp)
  | staleAuthorize | staleDelete | staleFailed | staleAcknowledge | tombstoneDelete =>
    exact Fenced.stable h hguarantee

/-! ## 6. A step reaches its next assertion -/

theorem Stepped.asserts (h : Stepped settings store p store' p')
    (hconsistent : Consistent settings store) (hasserts : Asserts store p) :
    Asserts store' p' := by
  cases h with
  | crashed | left | missed | unclaimed | acquireCancelled | recorded | staleFailed
  | staleAcknowledged | tombstoneDeleted => trivial
  | ended claim p p' htoken hends => exact asserts_of_ends hends
  | called ownerToken hfresh =>
    -- a token that was just drawn owns nothing yet
    intro e he howner
    exact absurd (howner ▸ (hconsistent.evidence e he).issued) hfresh
  | claimed ownerToken now p' hfresh _ _ _ _ _ hp' =>
    rcases hp' with rfl | rfl
    · intro e he _
      obtain rfl := Option.some.inj he
      exact .inl rfl
    · trivial
  | recovered recoveryToken now result rows' p' hfresh hrecovered hp' =>
    rcases hp' with rfl | rfl
    · cases hrecovered with
      | skipped | replayed | recorded => trivial
      | tombstone e he hfailed hfenced => exact ⟨e, he, hfenced.1⟩
      | claimed e he => exact ⟨_, rfl, rfl⟩
    · trivial
  | acquired ownerToken e p' hprocessing he howner hstate hp' =>
    rcases hp' with rfl | rfl
    · exact ⟨e, he, .inl ⟨howner, by simp [hstate]⟩⟩
    · trivial
  | created ownerToken now p' hprocessing hnone hp' =>
    exact absurd hnone (hconsistent.status.processing hprocessing)
  | built => exact hasserts
  | beginCancelled claim artifact now e p' he howns hprocessing hstate hcancel hends =>
    exact asserts_of_ends hends
  | begun claim artifact now e p' he howns hprocessing hstate hcancel hp' =>
    rcases hp' with rfl | hends
    · -- the evidence that was written is owned by the claim
      exact ⟨_, rfl, .inl ⟨howns.ownerToken, by simp⟩⟩
    · exact asserts_of_ends hends
  | put claim artifact outcome fails =>
    -- an output may be put while it is being uploaded
    have hholding : Holding store claim [.uploading] := hasserts
    unfold putNext
    split
    · split
      · exact hholding.mono (by simp)
      · exact ⟨hholding, fun _ _ _ ↦ by simp [storeObjects, PutOutcome.apply]⟩
    · exact hholding.mono (by simp)
  | commitFailed claim artifact | commitCancelled claim artifact =>
    exact hasserts.1.mono (by simp)
  | committed claim artifact ms signing now e manifests p' he howns _ _ _ _ _ _ _ _ hp' =>
    rcases hp' with rfl | rfl
    · trivial
    · exact ⟨_, rfl, .inl ⟨howns.ownerToken, by simp [committedEvidence]⟩⟩
  | authorized claim compensation e he howns hstate =>
    have hmem := Holding.state_of_owns hasserts he howns
    refine ⟨e, he, .inl ⟨howns.ownerToken, ?_⟩⟩
    rcases hstate with hstate | hstate <;> simp_all
  | deleted => exact hasserts
  | persisted claim compensation isDeleted now e p' he howns hstate hends =>
    exact asserts_of_ends hends
  | staleAuthorized => exact hasserts
  | staleDeleted claim prior outcome => split <;> exact hasserts

/-! ## 7. A step keeps the invariant -/

/-- Nothing is committed while a worker may write to the object store. -/
theorem Holding.uncommitted {claim : ProcessingClaim} (h : Holding store claim [.uploading])
    {e : DemoIssuanceResult} (he : store.rows.evidence = some e) : e.outputState ≠ .committed := by
  obtain ⟨e', he', hcase⟩ := h
  obtain rfl := Option.some.inj (he.symm.trans he')
  rcases hcase with ⟨-, hstate⟩ | hlost
  · simp_all
  · simp [hlost.2]

theorem Fenced.uncommitted (h : Fenced store) {e : DemoIssuanceResult}
    (he : store.rows.evidence = some e) : e.outputState ≠ .committed := by
  obtain ⟨e', he', hstate⟩ := h
  obtain rfl := Option.some.inj (he.symm.trans he')
  simp [hstate]

theorem sameJob_compensated (job : Job) (code : SafeErrorCode) (failures : Nat) (now : Instant) :
    SameJob job (compensatedJob job code failures now) := by
  unfold compensatedJob
  split <;> exact ⟨rfl, rfl, rfl⟩

@[simp] theorem compensatedJob_attempt (job : Job) (code : SafeErrorCode) (failures : Nat)
    (now : Instant) : (compensatedJob job code failures now).attempt = job.attempt := by
  unfold compensatedJob
  split <;> rfl

@[simp] theorem compensatedJob_status (job : Job) (code : SafeErrorCode) (failures : Nat)
    (now : Instant) : (compensatedJob job code failures now).status = job.status := by
  unfold compensatedJob
  split <;> rfl

@[simp] theorem compensatedJob_cancelRequestedAt (job : Job) (code : SafeErrorCode)
    (failures : Nat) (now : Instant) :
    (compensatedJob job code failures now).cancelRequestedAt = job.cancelRequestedAt := by
  unfold compensatedJob
  split <;> rfl

/-- Whether a job fits its evidence depends on its status and flag alone. -/
theorem StatusFits.congr {job job' : Job} {evidence : Option DemoIssuanceResult}
    (h : StatusFits job evidence) (hstatus : job'.status = job.status)
    (hflag : job'.cancelRequestedAt = job.cancelRequestedAt) : StatusFits job' evidence := by
  obtain ⟨hsucceeded, hwaiting, hprocessing, hflagged, hcancelled⟩ := h
  constructor
  · rwa [hstatus]
  · rwa [hstatus, hflag]
  · rwa [hstatus]
  · rwa [hstatus, hflag]
  · rwa [hstatus, hflag]

/-- Failing the job closes an uncommitted row as uncommitted. -/
theorem Consistent.recordFailedJob (h : Consistent settings store) {claim : ProcessingClaim}
    {code : SafeErrorCode} {failures : Nat} {now : Instant} {rows' : IssuanceRows}
    (hrecord : store.rows.recordFailedJob claim code failures now = .ok ((), rows')) :
    Consistent settings (commitRows store rows') := by
  rcases recordFailedJob_cases hrecord with
    rfl | ⟨e, he, howns, hprocessing, hcommitted, hdurable, rfl⟩
  · exact h
  have hnot : (failedEvidence e code failures).outputState ≠ .committed := by
    unfold failedEvidence
    cases hs : e.outputState <;> simp_all
  exact h.withEvidence he hcommitted ⟨rfl, rfl, rfl⟩ rfl ⟨rfl, rfl, rfl, rfl, rfl, rfl⟩ hnot
    hdurable (h.evidence e he).issued (.of_failed rfl (by simpa using hnot))

/-- The manifests a commit leaves, when there were none before. -/
theorem commitManifests_published {rows : IssuanceRows} {signing : Signing}
    {claim : ProcessingClaim} {artifact : Artifact} {now : Instant} {manifests : List Manifest}
    (hnone : rows.manifests = [])
    (h : rows.commitManifests (if settings.integrityMode then some signing else none) claim
      artifact now = .ok manifests) :
    if settings.integrityMode then
      ∃ manifest, manifests = [manifest] ∧ manifest.issuanceId = rows.issuance.id
    else manifests = [] := by
  by_cases hmode : settings.integrityMode
  · simp only [hmode, if_true, commitManifests] at h ⊢
    obtain ⟨-, -, manifest, rfl, -, hid, -⟩ := createManifest_eq_ok h
    exact ⟨manifest, by simp [hnone], hid⟩
  · simp only [hmode, Bool.false_eq_true, if_false, commitManifests, Except.ok.injEq] at h ⊢
    exact h.symm.trans hnone

/-- The commit of the worker that uploaded publishes its result. -/
theorem Consistent.committed (h : Consistent settings store) {claim : ProcessingClaim}
    {artifact : Artifact} {processingMs : Nat} {signing : Signing} {now : Instant}
    {e : DemoIssuanceResult} {manifests : List Manifest}
    (hasserts : Asserts store (.commit claim artifact)) (he : store.rows.evidence = some e)
    (howns : Owns claim e) (hnames : store.rows.Names claim)
    (hprocessing : store.rows.job.status = .processing)
    (hcancel : store.rows.job.cancelRequestedAt = none) (hstate : e.outputState = .uploading)
    (hmanifests : store.rows.commitManifests
      (if settings.integrityMode then some signing else none) claim artifact now = .ok manifests) :
    Consistent settings (commitRows store
      (store.rows.committedRows claim artifact processingMs e manifests now)) := by
  have huncommitted : ∀ e', store.rows.evidence = some e' → e'.outputState ≠ .committed :=
    fun e' he' ↦ h.uncommitted (by simp [hprocessing]) he'
  have hbefore := h.unpublished huncommitted
  have hfits := h.evidence e he
  have hpublished := commitManifests_published hbefore.manifests hmanifests
  refine ⟨⟨?_, ?_, ?_, ?_, ?_⟩, h.attempt, ?_, ?_, ?_, ?_⟩
  · exact h.bound.kind
  · exact h.bound.issuanceId
  · exact h.bound.documentId
  · exact h.bound.issuanceOrganization
  · exact h.bound.documentOrganization
  · constructor <;> simp [commitRows, committedRows, committedEvidence, hcancel]
  · rintro e' he'
    obtain rfl := Option.some.inj he'
    have hbinds := hfits.binds
    refine ⟨⟨hbinds.jobOrganization, hbinds.issuanceOrganization, hbinds.kind, hbinds.issuanceId,
      hbinds.attempt, hbinds.key⟩, hfits.jobId, hfits.issued, ?_⟩
    simp [committedEvidence]
  · rintro e' he' -
    obtain rfl := Option.some.inj he'
    refine ⟨?_, rfl, ?_, by simp [committedEvidence], ?_, hpublished⟩
    · exact congrArg some howns.outputObjectKey.symm
    · exact (congrArg store.objects howns.outputObjectKey).trans (hasserts.2 e he hstate)
    · simp [commitRows, committedRows, hbefore.receipts, hnames.organizationId, receiptId,
        Job.kind]
  · intro hnot
    exact absurd rfl (hnot _ rfl)

/-- Stale recovery only ever touches an uncommitted row. -/
theorem Consistent.recovered (h : Consistent settings store) {recoveryToken : UUID}
    {now : Instant} {result : StaleRecovery} {rows' : IssuanceRows}
    (hrecovered : store.rows.Recovered recoveryToken now result rows') :
    Consistent settings (commitRows (IssuanceWorker.issue store recoveryToken) rows') := by
  have hissued := h.issue recoveryToken
  cases hrecovered with
  | skipped => exact hissued
  | tombstone => exact hissued
  | replayed e code job' he hprocessing hcommitted =>
    exact absurd hcommitted (h.uncommitted (by simp [hprocessing]) he)
  | claimed e he hprocessing hstate =>
    have hnot : e.outputState ≠ .committed := h.uncommitted (by simp [hprocessing]) he
    have hfits : StatusFits store.rows.job (some e) := he ▸ h.status
    refine hissued.withEvidence he hnot ⟨rfl, rfl, rfl⟩ rfl ⟨rfl, rfl, rfl, rfl, rfl, rfl⟩
      ?_ ?_ List.mem_cons_self ?_
    · simp
    · exact fun _ ↦ ⟨_, rfl, .inl rfl⟩
    · exact hfits.replace hnot (by simp)
  | recorded e rows' he hprocessing hstate hrecord => exact hissued.recordFailedJob hrecord

theorem Stepped.consistent (h : Stepped settings store p store' p')
    (hconsistent : Consistent settings store) (hasserts : Asserts store p) :
    Consistent settings store' := by
  -- what a job that has not succeeded leaves unsaid
  have huncommitted : store.rows.job.status ≠ .succeeded →
      ∀ e, store.rows.evidence = some e → e.outputState ≠ .committed :=
    fun hstatus e he ↦ hconsistent.uncommitted hstatus he
  have hfits : ∀ {e}, store.rows.evidence = some e → StatusFits store.rows.job (some e) :=
    fun he ↦ he ▸ hconsistent.status
  cases h with
  | crashed | ended | left | acquired | built | commitFailed | authorized | staleAuthorized =>
    exact hconsistent
  | called | missed => exact hconsistent.issue _
  | unclaimed ownerToken policy now job' hfresh hclaim =>
    have hissued := hconsistent.issue ownerToken
    rcases claimJob_cases hclaim with ⟨-, rfl⟩ | ⟨-, hqueued, hflag, rfl⟩ |
      ⟨-, hqueued, -, code, rfl⟩ | ⟨hclaimed, -⟩
    · exact hissued
    · exact hissued.withJob _ ⟨rfl, rfl, rfl⟩ hconsistent.attempt (.inr rfl)
        (huncommitted (by simp [hqueued])) (.of_cancelled rfl hflag
          (huncommitted (by simp [hqueued])))
    · exact hissued.withJob _ ⟨rfl, rfl, rfl⟩ hconsistent.attempt (.inr rfl)
        (huncommitted (by simp [hqueued])) (.of_failed rfl (huncommitted (by simp [hqueued])))
    · simp at hclaimed
  | claimed ownerToken now p' hfresh hqueued hcancel hattempt hnone hbinds =>
    have hunpublished := hconsistent.unpublished (by simp [hnone])
    -- a reservation begins without an output
    refine ⟨{ hconsistent.bound with }, hattempt, ?_, ?_, ?_, ?_⟩
    · constructor <;> simp [commitRows, reservedEvidence, DemoIssuanceResult.reserve, hcancel]
    · intro e he
      obtain rfl := Option.some.inj he
      exact ⟨hbinds, rfl, List.mem_cons_self, fun _ ↦ ⟨rfl, fun hstate ↦ by cases hstate⟩⟩
    · intro e he hcommitted
      obtain rfl := Option.some.inj he
      cases hcommitted
    · exact fun _ ↦ { hunpublished with }
  | recovered recoveryToken now result rows' p' hfresh hrecovered =>
    exact hconsistent.recovered hrecovered
  | acquireCancelled ownerToken now hprocessing hcancel =>
    exact hconsistent.withJob _ ⟨rfl, rfl, rfl⟩ hconsistent.attempt (.inr rfl)
      (huncommitted (by simp [hprocessing])) (.of_cancelled rfl hcancel
        (huncommitted (by simp [hprocessing])))
  | created ownerToken now p' hprocessing hnone =>
    exact absurd hnone (hconsistent.status.processing hprocessing)
  | beginCancelled claim artifact now e p' he howns hprocessing hstate hcancel =>
    exact hconsistent.withEvidence he (by simp [hstate]) ⟨rfl, rfl, rfl⟩ rfl
      ⟨rfl, rfl, rfl, rfl, rfl, rfl⟩ (by simp) (fun h ↦ by simp at h)
      (hconsistent.evidence e he).issued (.of_cancelled rfl hcancel (by simp))
  | begun claim artifact now e p' he howns hprocessing hstate =>
    exact hconsistent.withEvidence he (by simp [hstate]) ⟨rfl, rfl, rfl⟩ rfl
      ⟨rfl, rfl, rfl, rfl, rfl, rfl⟩ (by simp) (fun h ↦ by simp at h)
      (hconsistent.evidence e he).issued ((hfits he).replace (by simp [hstate]) (by simp))
  | put | deleted =>
    -- objects may only change where nothing is committed
    exact hconsistent.storeObjects _ fun e he ↦ Holding.uncommitted hasserts he
  | staleDeleted | tombstoneDeleted =>
    exact hconsistent.storeObjects _ fun e he ↦ Fenced.uncommitted hasserts he
  | commitCancelled claim artifact now e compensation he howns hprocessing hcancel =>
    exact hconsistent.withJob _ ⟨rfl, rfl, rfl⟩ hconsistent.attempt (.inr rfl)
      (huncommitted (by simp [hprocessing])) (.of_cancelled rfl hcancel
        (huncommitted (by simp [hprocessing])))
  | committed claim artifact ms signing now e manifests p' he howns hnames hprocessing hcancel
      hstate _ _ _ hmanifests =>
    exact hconsistent.committed hasserts he howns hnames hprocessing hcancel hstate hmanifests
  | persisted claim compensation isDeleted now e p' he howns hstate =>
    -- the compensation of an output that was never committed
    have hnot : e.outputState ≠ .committed := by rcases hstate with hs | hs <;> simp [hs]
    refine hconsistent.withEvidence he hnot (sameJob_compensated _ _ _ _)
      (compensatedJob_attempt _ _ _ _) ⟨rfl, rfl, rfl, rfl, rfl, rfl⟩ ?_ ?_
      (hconsistent.evidence e he).issued
      (((hfits he).replace hnot ?_).congr (compensatedJob_status _ _ _ _)
        (compensatedJob_cancelRequestedAt _ _ _ _))
    · cases isDeleted <;> simp
    · cases isDeleted with
      | false => exact fun _ ↦ ⟨_, rfl, .inr (Nat.le_add_left _ _)⟩
      | true => exact fun hs ↦ by simp at hs
    · cases isDeleted <;> simp
  | recorded claim code failures now rows' hrecord => exact hconsistent.recordFailedJob hrecord
  | staleFailed claim prior now e he howns hprocessing hfenced =>
    exact hconsistent.withEvidence he (by simp [hfenced.1]) ⟨rfl, rfl, rfl⟩ rfl
      ⟨rfl, rfl, rfl, rfl, rfl, rfl⟩ (by simp [hfenced.1])
      (fun _ ↦ ⟨_, rfl, .inr (Nat.le_add_left _ _)⟩) (hconsistent.evidence e he).issued
      ((hfits he).replace (by simp [hfenced.1]) (by simp [hfenced.1]))
  | staleAcknowledged claim prior now e he howns hprocessing hfenced =>
    exact hconsistent.withEvidence he (by simp [hfenced.1]) ⟨rfl, rfl, rfl⟩ rfl
      ⟨rfl, rfl, rfl, rfl, rfl, rfl⟩ (by simp) (fun _ ↦ ⟨_, rfl, .inl rfl⟩)
      (hconsistent.evidence e he).issued (.of_failed rfl (by simp))

/-! ## 8. Events outside the workers -/

theorem environment_moved {event : JobEvent} (h : environment store event = some store') :
    ∃ job' audit', Moved store.rows.evidence.isSome store.rows.job store.rows.audit job' audit' ∧
      store' = commitRows store { store.rows with job := job', audit := audit' } := by
  simp only [environment, Option.some.injEq] at h
  exact ⟨_, _, event.apply_moved _ _ _ _, h.symm⟩

theorem StatusFits.moved {job job' : Job} {audit audit' : List AuditEvent}
    {evidence : Option DemoIssuanceResult} (h : StatusFits job evidence)
    (hmoved : Moved evidence.isSome job audit job' audit') : StatusFits job' evidence := by
  have hwaiting := h.waiting
  have hsucceeded := h.succeeded
  cases hmoved with
  | kept => exact h
  | denied => exact h
  | staged now hcreated =>
    obtain ⟨rfl, hflag⟩ := hwaiting (.inl hcreated)
    constructor <;> simp [hflag]
  | requeued now hretry =>
    obtain ⟨rfl, hflag⟩ := hwaiting (.inr (.inr hretry))
    constructor <;> simp [hflag]
  | abandoned now status code hretry hstatus =>
    obtain ⟨rfl, hflag⟩ := hwaiting (.inr (.inr hretry))
    rcases hstatus with rfl | rfl | ⟨-, hcancel⟩
    · constructor <;> simp
    · constructor <;> simp
    · exact absurd hflag hcancel
  | cancelled actor correlationId now hcancel hmem =>
    obtain ⟨rfl, -⟩ := hwaiting (by simpa using hmem)
    constructor <;> simp
  | flagged actor correlationId now hcancel hprocessing =>
    have hnone := h.processing hprocessing
    constructor <;> simp_all

theorem Consistent.moved (h : Consistent settings store) {job' : Job} {audit' : List AuditEvent}
    (hmoved : Moved store.rows.evidence.isSome store.rows.job store.rows.audit job' audit') :
    Consistent settings (commitRows store { store.rows with job := job', audit := audit' }) := by
  have hstatus := h.status.moved hmoved
  by_cases huncommitted : ∀ e, store.rows.evidence = some e → e.outputState ≠ .committed
  · refine h.withJob audit' hmoved.sameJob ?_ ?_ huncommitted hstatus
    · have hattempt := h.attempt
      cases hmoved with
      | requeued now hretry hcancel hresult hless => exact hless
      | _ => exact hattempt
    · cases hmoved with
      | requeued now hretry hcancel hresult => exact .inl (by simpa using hresult)
      | _ => exact .inr rfl
  · push Not at huncommitted
    obtain ⟨e, he, hcommitted⟩ := huncommitted
    obtain rfl := hmoved.eq_of_terminal
      (by rw [h.status.succeeded.mpr ⟨e, he, hcommitted⟩]; rfl)
    exact ⟨{ h.bound with }, h.attempt, h.status, fun e he ↦ { h.evidence e he with },
      fun e he hcommitted ↦ { h.published e he hcommitted with },
      fun huncommitted ↦ { h.unpublished huncommitted with }⟩

/-! ## 9. The assertions are sound -/

theorem assertions_sound :
    WorkerPool.Sound (program settings) .all .trivial (assertions settings) where
  symm := fun p q hapart t hq hp ↦ hapart t hp hq
  keeps := by
    intro store p input store' p' _ _ hshared hown _ hcall
    have hstepped := call_stepped hcall
    refine ⟨hstepped.consistent hshared hown.2, fun t ht ↦ ?_, hstepped.asserts hshared hown.2⟩
    rcases hstepped.token ht with hbefore | ⟨-, hissued⟩
    · exact (hstepped.guarantee hown.2).issued t (hown.1 t hbefore)
    · exact hissued
  others := by
    intro store p q input store' p' _ _ _ _ hshared hown hother hapart _ hcall
    have hstepped := call_stepped hcall
    have hguarantee := hstepped.guarantee hown.2
    refine ⟨⟨fun t ht ↦ hguarantee.issued t (hother.1 t ht), ?_⟩, fun t hp' hq ↦ ?_⟩
    · exact hother.2.stable hguarantee hother.1 fun t hq hp ↦ hapart t hp hq
    · rcases hstepped.token hp' with hp | ⟨hfresh, -⟩
      · exact hapart t hp hq
      · exact hfresh (hother.1 t hq)
  environment := by
    intro store event store' _ hshared _ henvironment
    obtain ⟨job', audit', hmoved, rfl⟩ := environment_moved henvironment
    have hguarantee : Guarantee store
        (commitRows store { store.rows with job := job', audit := audit' }) none :=
      .of_evidence_eq (fun _ h ↦ h) rfl rfl
    refine ⟨hshared.moved hmoved, fun q _ hown ↦ ⟨hown.1, ?_⟩⟩
    exact hown.2.stable hguarantee hown.1 fun _ _ ↦ by simp

theorem assertions_of_start {W : Type*} {pool : Pool W} (h : Start pool) :
    (assertions settings).Holds pool where
  shared := .of_attached h.attached
  own := fun w ↦ by
    rw [h.idle w]
    exact ⟨fun t ht ↦ by simp [token] at ht, trivial⟩
  apart := fun w v _ ↦ by
    rw [h.idle w]
    exact fun t ht ↦ by simp [token] at ht

/-- The invariant holds in every pool that any interleaving reaches. -/
theorem assertions_of_reachable {W : Type*} [DecidableEq W] {pool : Pool W}
    (h : Reachable settings pool) : (assertions settings).Holds pool := by
  obtain ⟨start, hstart, hleads⟩ := h
  exact assertions_sound.leads (fun u _ ↦ WorkerPool.Assertions.trivial_holds u)
    (assertions_of_start hstart) hleads

end IssuanceWorker

end Splitbind
