import Splitbind.Demo.IssuanceSafety

/-!
# Issuance cleanup — which uncommitted outputs a later reconciliation still finds

`reconcile_stale_jobs` looks at jobs in processing and at failed jobs whose evidence keeps the
stale-recovery fence.  An uncommitted output stays within its reach as long as no step takes the
job out of these two sets while the object exists.
-/

namespace Splitbind

open Transaction IssuanceRows WorkerPool

/-! ## 1. What the reconciliation selects -/

/-- The query of `reconcile_stale_jobs`, on one issuance job. -/
def IssuanceRows.staleCandidate (rows : IssuanceRows) (staleBefore : Instant) : Prop :=
  rows.evidence.isSome ∧ rows.job.status = .processing ∧ rows.job.updatedAt < staleBefore ∨
    (∃ e ∈ rows.evidence, fenced e) ∧ rows.job.status = .failed

/-- The jobs the query returns once they are old enough. -/
def IssuanceRows.recoverable (rows : IssuanceRows) : Prop :=
  rows.job.status = .processing ∨ rows.job.status = .failed ∧ ∃ e ∈ rows.evidence, fenced e

instance (rows : IssuanceRows) : Decidable rows.recoverable :=
  inferInstanceAs (Decidable (_ ∨ _))

theorem IssuanceRows.recoverable.staleCandidate {rows : IssuanceRows} (h : rows.recoverable)
    (hevidence : rows.job.status = .processing → rows.evidence ≠ none) :
    ∃ age, ∀ staleBefore, age < staleBefore → rows.staleCandidate staleBefore := by
  refine ⟨rows.job.updatedAt, fun staleBefore hold ↦ ?_⟩
  rcases h with hprocessing | ⟨hfailed, hfenced⟩
  · exact .inl ⟨Option.isSome_iff_ne_none.mpr (hevidence hprocessing), hprocessing, hold⟩
  · exact .inr ⟨hfenced, hfailed⟩

theorem IssuanceRows.staleCandidate.recoverable {rows : IssuanceRows} {staleBefore : Instant}
    (h : rows.staleCandidate staleBefore) : rows.recoverable := by
  rcases h with ⟨-, hprocessing, -⟩ | ⟨hfenced, hfailed⟩
  · exact .inl hprocessing
  · exact .inr ⟨hfailed, hfenced⟩

/-- Whether an input lets the transaction commit or the upload reach the store. -/
def Input.takesEffect : Input → Bool
  | .acquire _ fault => fault ≠ .rolledBack
  | .commit _ _ _ fault => fault ≠ .rolledBack
  | .record _ fault => fault ≠ .rolledBack
  | .put outcome _ => outcome ≠ .failed
  | .crash => false
  | _ => true

namespace IssuanceWorker

/-! ## 2. The steps that lose an output -/

/-- An object exists under the output key of the job. -/
def Stored (store : IssuanceStore) : Prop := store.objects store.rows.outputKey ≠ none

instance (store : IssuanceStore) : Decidable (Stored store) :=
  inferInstanceAs (Decidable (_ ≠ _))

/-- The phases in which the next transaction or upload leaves an output untracked. -/
def Loses (store : IssuanceStore) : Phase → Prop
  -- acquiring a job whose cancellation is requested cancels it, whoever owns the evidence
  | .acquire _ => store.rows.job.status = .processing ∧
      store.rows.job.cancelRequestedAt ≠ none ∧ Stored store
  -- so does committing it, before its compensation has begun
  | .commit claim _ => store.rows.job.status = .processing ∧
      store.rows.job.cancelRequestedAt ≠ none ∧
      ∃ e ∈ store.rows.evidence, e.ownerToken = claim.ownerToken
  -- an upload that is late for a job that was cancelled meanwhile
  | .put _ _ => ¬ store.rows.recoverable
  -- recording a failure after a compensation whose delete failed
  | .record claim _ failures => store.rows.job.status = .processing ∧ Stored store ∧
      1 ≤ failures ∧ ∃ e ∈ store.rows.evidence, e.ownerToken = claim.ownerToken ∧
        (e.outputState = .uploading ∨ e.outputState = .cleanupRequired)
  | _ => False

instance (store : IssuanceStore) (p : Phase) : Decidable (Loses store p) := by
  cases p <;> unfold Loses <;> infer_instance

/-- The runs in which no step loses an output. -/
def tracked : Program.Allowed IssuanceStore Phase Input JobEvent where
  call := fun store p input ↦ ¬ (Loses store p ∧ input.takesEffect)
  environment := fun _ _ ↦ True

instance (store : IssuanceStore) (p : Phase) (input : Input) :
    Decidable (tracked.call store p input) :=
  inferInstanceAs (Decidable (¬ _))

instance (store : IssuanceStore) (event : JobEvent) : Decidable (tracked.environment store event) :=
  .isTrue trivial

variable {settings : Settings} {store store' : IssuanceStore} {p p' q : Phase}

theorem transact_rolledBack {α : Type} {body : Except Raised (α × IssuanceRows)}
    {next : Except Raised α → Phase}
    (h : transact store .rolledBack body next = some (store', p')) : store' = store := by
  simp only [transact, attempt, Option.some.injEq, Prod.mk.injEq] at h
  exact h.1.symm

/-- A step that may lose an output and takes no effect changes nothing. -/
theorem eq_of_loses {input : Input} (hcall : call settings store p input = some (store', p'))
    (hok : tracked.call store p input) (hloses : Loses store p) : store' = store := by
  have hnone : input.takesEffect = false := by
    simpa [hloses] using show ¬ (Loses store p ∧ input.takesEffect) from hok
  cases p with
  | acquire ownerToken | commit claim artifact | record claim code failures =>
    cases input <;> simp_all [call, busyStep, Input.takesEffect]
    exact transact_rolledBack hcall
  | put claim artifact =>
    cases input <;> simp_all [call, busyStep, Input.takesEffect]
    exact hcall.1.symm
  | _ => exact absurd hloses id

/-! ## 3. The invariant -/

/-- The evidence names the job's output key, nothing is stored for a row that is closed or has not
started its upload, and an uncommitted object leaves the job recoverable. -/
structure TracksOutput (store : IssuanceStore) : Prop where
  key : ∀ e, store.rows.evidence = some e → e.outputObjectKey = store.rows.outputKey
  absent : (∀ e, store.rows.evidence = some e →
    e.outputState = .reserved ∨ e.outputState = .cleaned) → ¬ Stored store
  tracked : Stored store → ¬ Committed store → store.rows.recoverable

theorem not_stored {store : IssuanceStore} :
    ¬ Stored store ↔ store.objects store.rows.outputKey = none := not_not

/-- The job changes, and stays recoverable if it was. -/
theorem TracksOutput.withJob (h : TracksOutput store) {job' : Job} (audit' : List AuditEvent)
    (hsame : SameJob store.rows.job job')
    (htracked : Stored store → ¬ Committed store →
      { store.rows with job := job', audit := audit' }.recoverable) :
    TracksOutput (commitRows store { store.rows with job := job', audit := audit' }) := by
  have hkey : (commitRows store { store.rows with job := job', audit := audit' }).rows.outputKey =
      store.rows.outputKey := by
    simp [commitRows, outputKey, hsame.organizationId]
  have hstored : Stored (commitRows store { store.rows with job := job', audit := audit' }) ↔
      Stored store := by
    unfold Stored
    rw [hkey]
    exact Iff.rfl
  refine ⟨fun e he ↦ (h.key e he).trans hkey.symm, fun hclosed ↦ ?_, fun hafter huncommitted ↦ ?_⟩
  · rw [hstored]
    exact h.absent hclosed
  · exact htracked (hstored.mp hafter) huncommitted

/-- The job and its uncommitted evidence row change together. -/
theorem TracksOutput.withEvidence (h : TracksOutput store) {job' : Job}
    {e e' : DemoIssuanceResult} (he : store.rows.evidence = some e)
    (huncommitted : e.outputState ≠ .committed) (hsame : SameJob store.rows.job job')
    (hkey' : e'.outputObjectKey = e.outputObjectKey)
    (habsent : e'.outputState = .reserved ∨ e'.outputState = .cleaned → ¬ Stored store)
    (htracked : Stored store → store.rows.recoverable →
      { store.rows with job := job', evidence := some e' }.recoverable) :
    TracksOutput (commitRows store { store.rows with job := job', evidence := some e' }) := by
  have hkey : (commitRows store { store.rows with
      job := job', evidence := some e' }).rows.outputKey = store.rows.outputKey := by
    simp [commitRows, outputKey, hsame.organizationId]
  have hstored : Stored (commitRows store { store.rows with
      job := job', evidence := some e' }) ↔ Stored store := by
    unfold Stored
    rw [hkey]
    exact Iff.rfl
  refine ⟨fun e₁ he₁ ↦ ?_, fun hclosed ↦ ?_, fun hafter _ ↦ ?_⟩
  · obtain rfl := Option.some.inj he₁
    exact hkey'.trans ((h.key e he).trans hkey.symm)
  · rw [hstored]
    exact habsent (hclosed e' rfl)
  · refine htracked (hstored.mp hafter) (h.tracked (hstored.mp hafter) ?_)
    rintro ⟨e₁, he₁, hcommitted⟩
    obtain rfl := Option.some.inj (he.symm.trans he₁)
    exact huncommitted hcommitted

/-- A delete under any key keeps the output tracked. -/
theorem TracksOutput.delete (h : TracksOutput store) (outcome : DeleteOutcome) (key : ObjectKey) :
    TracksOutput (storeObjects store (outcome.apply store.objects key)) := by
  have hstored : Stored (storeObjects store (outcome.apply store.objects key)) → Stored store := by
    intro hafter
    obtain ⟨sha256, hsha⟩ := Option.ne_none_iff_exists'.mp hafter
    refine Option.ne_none_iff_exists'.mpr ⟨sha256, ?_⟩
    cases outcome with
    | failed => exact hsha
    | deleted | deletedThenFailed => exact ObjectStore.delete_eq_some hsha
  exact ⟨h.key, fun hclosed hafter ↦ h.absent hclosed (hstored hafter),
    fun hafter huncommitted ↦ h.tracked (hstored hafter) huncommitted⟩

/-- A compensation that has deleted the object leaves none behind. -/
def CleanedUp (store : IssuanceStore) : Phase → Prop
  | .persist claim _ true => ∀ e, store.rows.evidence = some e → e.outputState = .uploading →
      store.objects claim.outputObjectKey = none
  | _ => True

/-- Failing the job keeps its output tracked, unless it is the loss of section 2. -/
theorem TracksOutput.recordFailedJob (h : TracksOutput store) {claim : ProcessingClaim}
    {code : SafeErrorCode} {failures : Nat} {now : Instant} {rows' : IssuanceRows}
    (hrecord : store.rows.recordFailedJob claim code failures now = .ok ((), rows'))
    (hkeeps : commitRows store rows' = store ∨
      ¬ (Stored store ∧ 1 ≤ failures ∧ ∃ e ∈ store.rows.evidence,
        e.outputState = .uploading ∨ e.outputState = .cleanupRequired)) :
    TracksOutput (commitRows store rows') := by
  rcases hkeeps with hsame | hkeeps
  · rwa [hsame]
  rcases recordFailedJob_cases hrecord with
    rfl | ⟨e, he, howns, hprocessing, hcommitted, hdurable, rfl⟩
  · exact h
  have hclosed : e.outputState = .reserved ∨ e.outputState = .cleaned → ¬ Stored store := by
    intro hstate
    refine h.absent fun e₁ he₁ ↦ ?_
    obtain rfl := Option.some.inj (he.symm.trans he₁)
    exact hstate
  refine h.withEvidence he hcommitted ⟨rfl, rfl, rfl⟩ rfl (fun hstate ↦ hclosed ?_)
    fun hstored _ ↦ ?_
  · cases hs : e.outputState <;> simp_all [failedEvidence]
  · -- an object exists, so the row was uploading or kept for cleanup, and is fenced now
    have hopen : e.outputState = .uploading ∨ e.outputState = .cleanupRequired := by
      cases hs : e.outputState <;> simp_all
    have hfailures : ¬ 1 ≤ failures := fun hpos ↦ hkeeps ⟨hstored, hpos, e, he, hopen⟩
    have hstate : (failedEvidence e code failures).outputState = .cleanupRequired := by
      rcases hopen with hs | hs <;> simp [failedEvidence, hs]
    obtain ⟨code', hcode, hfence | hpos⟩ := hdurable hstate
    · exact .inr ⟨rfl, _, rfl, hstate, hfence ▸ hcode⟩
    · exact absurd hpos hfailures

theorem Stepped.tracks (h : Stepped settings store p store' p')
    (hconsistent : Consistent settings store) (hasserts : Asserts store p)
    (htracks : TracksOutput store) (hcleaned : CleanedUp store p)
    (hkept : Loses store p → store' = store) : TracksOutput store' := by
  have hunstarted : store.rows.evidence = none → ¬ Stored store :=
    fun hnone ↦ htracks.absent (by simp [hnone])
  have hissued : ∀ u, TracksOutput (issue store u) :=
    fun u ↦ ⟨htracks.key, htracks.absent, htracks.tracked⟩
  cases h with
  | crashed | ended | left | acquired | built | commitFailed | authorized | staleAuthorized =>
    exact htracks
  | called | missed => exact hissued _
  | unclaimed ownerToken policy now job' hfresh hclaim =>
    rcases claimJob_cases hclaim with ⟨-, rfl⟩ | ⟨-, hqueued, -, rfl⟩ | ⟨-, hqueued, -, code, rfl⟩ |
      ⟨hclaimed, -⟩
    · exact hissued _
    · have hnone := (hconsistent.status.waiting (.inr (.inl hqueued))).1
      exact (hissued _).withJob _ ⟨rfl, rfl, rfl⟩ fun hstored ↦ absurd hstored (hunstarted hnone)
    · have hnone := (hconsistent.status.waiting (.inr (.inl hqueued))).1
      exact (hissued _).withJob _ ⟨rfl, rfl, rfl⟩ fun hstored ↦ absurd hstored (hunstarted hnone)
    · simp at hclaimed
  | claimed ownerToken now p' hfresh hqueued hcancel hattempt hnone =>
    refine ⟨fun e he ↦ ?_, fun _ ↦ hunstarted hnone, fun _ _ ↦ .inl rfl⟩
    obtain rfl := Option.some.inj he
    rfl
  | recovered recoveryToken now result rows' p' hfresh hrecovered =>
    cases hrecovered with
    | skipped => exact hissued _
    | tombstone => exact hissued _
    | replayed e code job' he hprocessing hcommitted =>
      exact absurd hcommitted (hconsistent.uncommitted (by simp [hprocessing]) he)
    | claimed e he hprocessing hstate =>
      have hnot : e.outputState ≠ .committed := hconsistent.uncommitted (by simp [hprocessing]) he
      refine (hissued _).withEvidence he hnot ⟨rfl, rfl, rfl⟩ rfl ?_ fun _ _ ↦ .inl hprocessing
      simp
    | recorded e rows' he hprocessing hstate hrecord =>
      exact (hissued _).recordFailedJob hrecord (.inr fun hopen ↦ by simp at hopen)
  | acquireCancelled ownerToken now hprocessing hcancel =>
    by_cases hstored : Stored store
    · exact (hkept ⟨hprocessing, hcancel, hstored⟩).symm ▸ htracks
    · exact htracks.withJob _ ⟨rfl, rfl, rfl⟩ fun h ↦ absurd h hstored
  | created ownerToken now p' hprocessing hnone =>
    exact absurd hnone (hconsistent.status.processing hprocessing)
  | beginCancelled claim artifact now e p' he howns hprocessing hstate =>
    have habsent : ¬ Stored store := by
      refine htracks.absent fun e₁ he₁ ↦ ?_
      obtain rfl := Option.some.inj (he.symm.trans he₁)
      exact .inl hstate
    exact htracks.withEvidence he (by simp [hstate]) ⟨rfl, rfl, rfl⟩ rfl (fun _ ↦ habsent)
      fun hstored ↦ absurd hstored habsent
  | begun claim artifact now e p' he howns hprocessing hstate =>
    refine htracks.withEvidence he (by simp [hstate]) ⟨rfl, rfl, rfl⟩ rfl ?_
      fun _ _ ↦ .inl hprocessing
    simp
  | put claim artifact outcome fails =>
    obtain ⟨e, he, hcase⟩ := id hasserts
    by_cases hrecoverable : store.rows.recoverable
    · refine ⟨htracks.key, fun hclosed ↦ ?_, fun _ _ ↦ hrecoverable⟩
      -- the row is uploading, or lost and kept for cleanup
      have hstate := hclosed e he
      rcases hcase with ⟨-, hmem⟩ | hlost
      · simp_all
      · simp [hlost.2] at hstate
    · exact (hkept hrecoverable).symm ▸ htracks
  | commitCancelled claim artifact now e compensation he howns hprocessing hcancel =>
    exact (hkept ⟨hprocessing, hcancel, e, he, howns.ownerToken⟩).symm ▸ htracks
  | committed claim artifact ms signing now e manifests p' he howns =>
    refine ⟨fun e₁ he₁ ↦ ?_, fun hclosed ↦ ?_, fun _ huncommitted ↦ ?_⟩
    · obtain rfl := Option.some.inj he₁
      exact htracks.key e he
    · have := hclosed _ rfl
      simp [committedEvidence] at this
    · exact absurd ⟨_, rfl, rfl⟩ huncommitted
  | deleted | staleDeleted | tombstoneDeleted => exact htracks.delete _ _
  | persisted claim compensation isDeleted now e p' he howns hstate =>
    have huploading : e.outputState = .uploading := by
      simpa using Holding.state_of_owns hasserts he howns
    refine htracks.withEvidence he (by simp [huploading]) (sameJob_compensated _ _ _ _) rfl ?_ ?_
    · cases isDeleted with
      | false => simp
      | true =>
        intro _
        rw [not_stored, ← htracks.key e he, howns.outputObjectKey]
        exact hcleaned e he huploading
    · rintro - (hprocessing | ⟨hfailed, e₁, he₁, hfenced⟩)
      · exact .inl (by simpa using hprocessing)
      · obtain rfl := Option.some.inj (he.symm.trans he₁)
        exact absurd (huploading.symm.trans hfenced.1) (by simp)
  | recorded claim code failures now rows' hrecord =>
    refine htracks.recordFailedJob hrecord ?_
    by_cases hloses : Loses store (.record claim code failures)
    · exact .inl (hkept hloses)
    rcases recordFailedJob_cases hrecord with rfl | ⟨e, he, howns, hprocessing, -⟩
    · exact .inl rfl
    · right
      intro hstill
      obtain ⟨hstored, hpos, e₁, he₁, hopen⟩ := hstill
      obtain rfl := Option.some.inj (he.symm.trans he₁)
      exact hloses ⟨hprocessing, hstored, hpos, e, he, howns.ownerToken, hopen⟩
  | staleFailed claim prior now e he howns hprocessing hfenced =>
    refine htracks.withEvidence he (by simp [hfenced.1]) ⟨rfl, rfl, rfl⟩ rfl ?_
      fun _ _ ↦ .inl hprocessing
    simp [hfenced.1]
  | staleAcknowledged claim prior now e he howns hprocessing hfenced =>
    refine htracks.withEvidence he (by simp [hfenced.1]) ⟨rfl, rfl, rfl⟩ rfl ?_
      fun _ _ ↦ .inr ⟨rfl, _, rfl, rfl, rfl⟩
    simp

/-- The step of another worker leaves a deleted output deleted. -/
theorem CleanedUp.stable {t : Option UUID} (h : CleanedUp store q) (hasserts : Asserts store q)
    (hguarantee : Guarantee store store' t) (hapart : ∀ u, token q = some u → t ≠ some u) :
    CleanedUp store' q := by
  cases q with
  | persist claim compensation isDeleted =>
    cases isDeleted with
    | false => trivial
    | true =>
      intro e' he' huploading
      obtain ⟨e, he, hstate, hobjects⟩ :=
        Holding.uploading_kept hasserts hguarantee (hapart _ rfl) he' huploading
      rw [hobjects]
      exact h e he hstate
  | _ => trivial

/-- Only a delete that returned is reported as one. -/
theorem Stepped.cleanedUp (h : Stepped settings store p store' p') : CleanedUp store' p' := by
  cases h with
  | deleted claim compensation outcome =>
    cases outcome with
    | deleted => exact fun _ _ _ ↦ by simp [storeObjects, DeleteOutcome.apply]
    | deletedThenFailed | failed => trivial
  | ended claim p p' htoken hends | beginCancelled claim artifact now e p' _ _ _ _ _ hends
  | persisted claim compensation isDeleted now e p' _ _ _ hends =>
    rcases hends with rfl | ⟨code, failures, rfl⟩ <;> trivial
  | claimed _ _ p' _ _ _ _ _ _ hp' | acquired _ _ p' _ _ _ _ hp' | created _ _ p' _ _ hp' =>
    rcases hp' with rfl | rfl <;> trivial
  | recovered recoveryToken now result rows' p' hfresh hrecovered hp' =>
    rcases hp' with rfl | rfl
    · cases result <;> trivial
    · trivial
  | begun claim artifact now e p' _ _ _ _ _ hp' =>
    rcases hp' with rfl | rfl | ⟨code, failures, rfl⟩ <;> trivial
  | put claim artifact outcome fails =>
    unfold putNext
    split
    · split <;> trivial
    · trivial
  | committed claim artifact ms signing now e manifests p' _ _ _ _ _ _ _ _ _ _ hp' =>
    rcases hp' with rfl | rfl <;> trivial
  | staleDeleted => split <;> trivial
  | _ => trivial

/-! ## 4. Tracked runs -/

def cleanupAssertions : Assertions IssuanceStore Phase where
  shared := TracksOutput
  own := CleanedUp
  apart := fun _ _ ↦ True

theorem cleanupAssertions_sound :
    Sound (program settings) tracked (assertions settings) cleanupAssertions where
  symm := fun _ _ _ ↦ trivial
  keeps := by
    intro store p input store' p' hshared hown htracks hcleaned hok hcall
    have hstepped := call_stepped hcall
    exact ⟨hstepped.tracks hshared hown.2 htracks hcleaned (eq_of_loses hcall hok),
      hstepped.cleanedUp⟩
  others := by
    intro store p q input store' p' hshared hown hother hapart _ _ hcleaned _ _ hcall
    have hguarantee := (call_stepped hcall).guarantee hown.2
    exact ⟨hcleaned.stable hother.2 hguarantee fun u hq hp ↦ hapart u hp hq, trivial⟩
  environment := by
    intro store event store' hshared htracks _ henvironment
    obtain ⟨job', audit', hmoved, rfl⟩ := environment_moved henvironment
    have hguarantee : Guarantee store
        (commitRows store { store.rows with job := job', audit := audit' }) none :=
      .of_evidence_eq (fun _ h ↦ h) rfl rfl
    refine ⟨htracks.withJob audit' hmoved.sameJob fun hstored huncommitted ↦ ?_,
      fun q hown hcleaned ↦ hcleaned.stable hown.2 hguarantee fun _ _ ↦ by simp⟩
    have hbefore := htracks.tracked hstored huncommitted
    cases hmoved with
    | kept | denied => exact hbefore
    | flagged actor correlationId now hcancel hprocessing => exact .inl hprocessing
    | staged now hcreated =>
      rcases hbefore with hprocessing | ⟨hfailed, -⟩ <;> simp_all
    | requeued now hretry | abandoned now status code hretry =>
      rcases hbefore with hprocessing | ⟨hfailed, -⟩ <;> simp_all
    | cancelled actor correlationId now hcancel hwaiting =>
      rcases hbefore with hprocessing | ⟨hfailed, -⟩ <;> simp_all

theorem cleanupAssertions_of_start {W : Type*} {pool : Pool W} (h : Start pool) :
    cleanupAssertions.Holds pool where
  shared := by
    have hnone := h.attached.evidence
    have habsent : ¬ Stored pool.store := not_stored.mpr (h.objects _)
    exact ⟨by simp [hnone], fun _ ↦ habsent, fun hstored ↦ absurd hstored habsent⟩
  own := fun w ↦ by
    rw [h.idle w]
    trivial
  apart := fun _ _ _ ↦ trivial

variable {W : Type*} [DecidableEq W] {start pool : Pool W}

/-- In a run none of whose steps loses an output, an uncommitted output is always one that
`reconcile_stale_jobs` selects once the job is old enough. -/
theorem uncommitted_output_tracked (hstart : Start start)
    (hleads : (program settings).Leads tracked start pool) (hstored : Stored pool.store)
    (huncommitted : ¬ Committed pool.store) :
    ∃ age, ∀ staleBefore, age < staleBefore → pool.store.rows.staleCandidate staleBefore := by
  have hbase : ∀ u, (program settings).Leads tracked start u → (assertions settings).Holds u :=
    fun u hu ↦ assertions_of_reachable ⟨start, hstart, hu.weaken⟩
  have htracks := cleanupAssertions_sound.leads hbase (cleanupAssertions_of_start hstart) hleads
  exact (htracks.shared.tracked hstored huncommitted).staleCandidate
    (hbase pool hleads).shared.status.processing

theorem not_committed_of_state {state : DemoOutputState}
    (h : store.rows.evidence.map (·.outputState) = some state) (hstate : state ≠ .committed) :
    ¬ Committed store := by
  rintro ⟨e, he, hcommitted⟩
  rw [he, Option.map_some, Option.some.injEq] at h
  exact hstate (h.symm.trans hcommitted)

/-- An output in the middle of its upload is tracked. -/
theorem uncommitted_output_tracked_sample : ∃ pool : Pool (Fin 2),
    (program sampleSettings).Leads tracked samplePool pool ∧ Stored pool.store ∧
    ¬ Committed pool.store ∧
    ∃ age, ∀ staleBefore, age < staleBefore → pool.store.rows.staleCandidate staleBefore := by
  have hrun : ∃ pool, (program sampleSettings).Leads tracked samplePool pool ∧
      (decide (Stored pool.store), pool.store.rows.evidence.map (·.outputState)) =
        (true, some .uploading) :=
    Program.leads_of_exec_map (uploadRun ⟨⟨11⟩, 2⟩) (by decide +kernel)
  obtain ⟨pool, hleads, hread⟩ := hrun
  simp only [Prod.mk.injEq, decide_eq_true_eq] at hread
  obtain ⟨hstored, hstate⟩ := hread
  have huncommitted := not_committed_of_state hstate (by simp)
  exact ⟨pool, hleads, hstored, huncommitted,
    uncommitted_output_tracked samplePool_start hleads hstored huncommitted⟩

def sampleAdministrator : User := ⟨⟨7⟩, ⟨2⟩, .administrator⟩

/-- The job is cancelled after the upload, and the compensation fails to delete the output. -/
def lostRun : List (Event (Fin 2) Input JobEvent) :=
  uploadRun ⟨⟨11⟩, 2⟩ ++
    [.environment (.cancel sampleAdministrator ⟨12⟩ 5),
      .worker 0 (.commit 7 sampleSigning 8 .none),
      .worker 0 (.authorize .none false),
      .worker 0 (.delete .failed),
      .worker 0 (.persist 9 .none false)]

/-- It leaves the output of a cancelled job that no reconciliation selects, with every worker
done. -/
theorem uncommitted_output_lost : ∃ pool : Pool (Fin 2), Reachable sampleSettings pool ∧
    (∀ w, pool.phase w = .idle) ∧ Stored pool.store ∧ ¬ Committed pool.store ∧
    ∀ staleBefore, ¬ pool.store.rows.staleCandidate staleBefore := by
  have hrun : ∃ pool, (program sampleSettings).Leads .all samplePool pool ∧
      (decide (∀ w, pool.phase w = .idle), decide (Stored pool.store),
        pool.store.rows.evidence.map (·.outputState), decide pool.store.rows.recoverable) =
          (true, true, some .cleanupRequired, false) :=
    Program.leads_of_exec_map lostRun (by decide +kernel)
  obtain ⟨pool, hleads, hread⟩ := hrun
  simp only [Prod.mk.injEq, decide_eq_true_eq, decide_eq_false_iff_not] at hread
  obtain ⟨hidle, hstored, hstate, hlost⟩ := hread
  exact ⟨pool, ⟨samplePool, samplePool_start, hleads⟩, hidle, hstored,
    not_committed_of_state hstate (by simp), fun _ hcandidate ↦ hlost hcandidate.recoverable⟩

end IssuanceWorker

end Splitbind
