import Splitbind.Demo.IssuanceInvariant

/-!
# Issuance claims — a worker's claim stays true of the rows

A worker takes its claim from the rows when it acquires the job.  Nothing that runs later changes
the columns the claim repeats, so the locks and checks of its own transactions succeed as long as
the evidence row carries its token.
-/

namespace Splitbind

open Transaction IssuanceRows WorkerPool

namespace IssuanceWorker

variable {settings : Settings} {store store' : IssuanceStore} {p p' q : Phase}

/-! ## 1. Columns that stay -/

/-- The claims the rows give stay the same, for as long as there is an evidence row. -/
def KeepsClaims (rows rows' : IssuanceRows) : Prop :=
  ∀ e, rows.evidence = some e → ∃ e', rows'.evidence = some e' ∧
    ∀ token, rows'.claimOf e' token = rows.claimOf e token

theorem KeepsClaims.refl (rows : IssuanceRows) : KeepsClaims rows rows :=
  fun e he ↦ ⟨e, he, fun _ ↦ rfl⟩

theorem KeepsClaims.of_none {rows rows' : IssuanceRows} (h : rows.evidence = none) :
    KeepsClaims rows rows' := by
  intro e he
  simp [h] at he

/-- The job changes its status, and the evidence its state. -/
theorem KeepsClaims.of_same {rows : IssuanceRows} {job' : Job} {audit' : List AuditEvent}
    {e e' : DemoIssuanceResult} (he : rows.evidence = some e) (hsame : SameJob rows.job job')
    (hattempt : job'.attempt = rows.job.attempt) (hkey : e'.outputObjectKey = e.outputObjectKey) :
    KeepsClaims rows { rows with job := job', evidence := some e', audit := audit' } := by
  intro e₁ he₁
  obtain rfl := Option.some.inj (he.symm.trans he₁)
  refine ⟨e', rfl, fun token ↦ ?_⟩
  simp only [claimOf, hsame.id, hsame.organizationId, hattempt, hkey]

theorem KeepsClaims.withJob {rows : IssuanceRows} {job' : Job} {audit' : List AuditEvent}
    (hsame : SameJob rows.job job') (hattempt : job'.attempt = rows.job.attempt) :
    KeepsClaims rows { rows with job := job', audit := audit' } := by
  intro e he
  refine ⟨e, he, fun token ↦ ?_⟩
  simp only [claimOf, hsame.id, hsame.organizationId, hattempt]

theorem keepsClaims_of_recordFailedJob {rows rows' : IssuanceRows} {claim : ProcessingClaim}
    {code : SafeErrorCode} {failures : Nat} {now : Instant}
    (h : rows.recordFailedJob claim code failures now = .ok ((), rows')) :
    KeepsClaims rows rows' := by
  rcases recordFailedJob_cases h with rfl | ⟨e, he, -, -, -, -, rfl⟩
  · exact .refl _
  · exact .of_same he ⟨rfl, rfl, rfl⟩ rfl rfl

theorem Stepped.keepsClaims (h : Stepped settings store p store' p')
    (hconsistent : Consistent settings store) : KeepsClaims store.rows store'.rows := by
  cases h with
  | crashed | ended | left | called | missed | acquired | built | commitFailed | authorized
  | staleAuthorized | put | deleted | staleDeleted | tombstoneDeleted => exact .refl _
  | unclaimed ownerToken policy now job' hfresh hclaim =>
    rcases claimJob_cases hclaim with ⟨-, rfl⟩ | ⟨-, hqueued, -⟩ | ⟨-, hqueued, -⟩ | ⟨htrue, -⟩
    · exact .refl _
    · exact .of_none (hconsistent.status.waiting (.inr (.inl hqueued))).1
    · exact .of_none (hconsistent.status.waiting (.inr (.inl hqueued))).1
    · simp at htrue
  | claimed _ _ _ _ _ _ _ hnone | created _ _ _ _ hnone => exact .of_none hnone
  | recovered recoveryToken now result rows' p' hfresh hrecovered =>
    cases hrecovered with
    | skipped | tombstone => exact .refl _
    | replayed e code job' he hprocessing hcommitted =>
      exact absurd hcommitted (hconsistent.uncommitted (by simp [hprocessing]) he)
    | claimed e he => exact .of_same he ⟨rfl, rfl, rfl⟩ rfl rfl
    | recorded e rows' he hprocessing hstate hrecord =>
      exact keepsClaims_of_recordFailedJob hrecord
  | acquireCancelled | commitCancelled => exact .withJob ⟨rfl, rfl, rfl⟩ rfl
  | beginCancelled _ _ _ e _ he | begun _ _ _ e _ he | staleFailed _ _ _ e he
  | staleAcknowledged _ _ _ e he => exact .of_same he ⟨rfl, rfl, rfl⟩ rfl rfl
  | committed claim artifact ms signing now e manifests p' he =>
    intro e₁ he₁
    obtain rfl := Option.some.inj (he.symm.trans he₁)
    exact ⟨_, rfl, fun _ ↦ rfl⟩
  | persisted claim compensation isDeleted now e p' he =>
    exact .of_same he (sameJob_compensated _ _ _ _) (by unfold compensatedJob; split <;> rfl) rfl
  | recorded claim code failures now rows' hrecord =>
    exact keepsClaims_of_recordFailedJob hrecord

theorem KeepsClaims.moved {job' : Job} {audit' : List AuditEvent}
    (hmoved : Moved store.rows.evidence.isSome store.rows.job store.rows.audit job' audit') :
    KeepsClaims store.rows { store.rows with job := job', audit := audit' } := by
  cases hmoved with
  | requeued now hretry hcancel hresult => exact .of_none (by simpa using hresult)
  | _ => exact .withJob ⟨rfl, rfl, rfl⟩ rfl

/-! ## 2. Claims that stay true -/

/-- The claim a worker holds is the one the rows give. -/
def Claimed (store : IssuanceStore) (p : Phase) : Prop :=
  ∀ claim, p.heldClaim = some claim → ∃ e, store.rows.evidence = some e ∧
    store.rows.claimOf e claim.ownerToken = claim

theorem Claimed.stable (h : Claimed store q) (hkeeps : KeepsClaims store.rows store'.rows) :
    Claimed store' q := by
  intro claim hheld
  obtain ⟨e, he, hclaim⟩ := h claim hheld
  obtain ⟨e', he', hsame⟩ := hkeeps e he
  exact ⟨e', he', (hsame claim.ownerToken).trans hclaim⟩

theorem heldClaim_of_ends {claim claim' : ProcessingClaim} (hends : Ends claim p')
    (h : p'.heldClaim = some claim') : claim' = claim := by
  rcases hends with rfl | ⟨code, failures, rfl⟩
  · simp [Phase.heldClaim] at h
  · exact (Option.some.inj h).symm

/-- A worker keeps its claim, or takes one from the rows. -/
theorem Stepped.heldClaim (h : Stepped settings store p store' p') {claim : ProcessingClaim}
    (hheld : p'.heldClaim = some claim) :
    p.heldClaim = some claim ∨ ∃ e, store'.rows.evidence = some e ∧
      store'.rows.claimOf e claim.ownerToken = claim := by
  -- a claim is held from before, or read off the row that this step has found or written
  cases h with
  | crashed | left | missed | unclaimed | called | acquireCancelled | recorded | staleFailed
  | staleAcknowledged | tombstoneDeleted | staleAuthorized => simp [Phase.heldClaim] at hheld
  | ended claim' p p' htoken hends => exact .inl (heldClaim_of_ends hends hheld ▸ htoken)
  | claimed _ _ _ _ _ _ _ _ _ hp' => rcases hp' with rfl | rfl <;> simp [Phase.heldClaim] at hheld
  | recovered recoveryToken now result rows' p' hfresh hrecovered hp' =>
    rcases hp' with rfl | rfl
    · cases result <;> simp [recoveryNext, Phase.heldClaim] at hheld
    · simp [Phase.heldClaim] at hheld
  | acquired ownerToken e p' hprocessing he _ _ hp' =>
    rcases hp' with rfl | rfl
    · obtain rfl := Option.some.inj hheld
      exact .inr ⟨e, he, rfl⟩
    · simp [Phase.heldClaim] at hheld
  | created ownerToken now p' _ _ hp' =>
    rcases hp' with rfl | rfl
    · obtain rfl := Option.some.inj hheld
      exact .inr ⟨_, rfl, rfl⟩
    · simp [Phase.heldClaim] at hheld
  | built | commitFailed | commitCancelled | authorized | deleted => exact .inl hheld
  | beginCancelled claim' artifact now e p' _ _ _ _ _ hends
  | persisted claim' compensation isDeleted now e p' _ _ _ hends =>
    exact .inl (heldClaim_of_ends hends hheld ▸ rfl)
  | begun claim' artifact now e p' _ _ _ _ _ hp' =>
    rcases hp' with rfl | hends
    · exact .inl hheld
    · exact .inl (heldClaim_of_ends hends hheld ▸ rfl)
  | put claim' artifact outcome fails =>
    refine .inl ?_
    unfold putNext at hheld
    split at hheld
    · split at hheld <;> exact hheld
    · exact hheld
  | committed claim' artifact ms signing now e manifests p' _ _ _ _ _ _ _ _ _ _ hp' =>
    rcases hp' with rfl | rfl
    · simp [Phase.heldClaim] at hheld
    · exact .inl hheld
  | staleDeleted claim' prior outcome => split at hheld <;> simp [Phase.heldClaim] at hheld

def claimAssertions : Assertions IssuanceStore Phase where
  shared := fun _ ↦ True
  own := Claimed
  apart := fun _ _ ↦ True

theorem claimAssertions_sound :
    Sound (program settings) .all (assertions settings) claimAssertions where
  symm := fun _ _ _ ↦ trivial
  keeps := by
    intro store p input store' p' hbase _ _ hclaimed _ hcall
    have hstepped := call_stepped hcall
    refine ⟨trivial, fun claim hheld ↦ ?_⟩
    rcases hstepped.heldClaim hheld with hbefore | hnew
    · exact hclaimed.stable (hstepped.keepsClaims hbase) claim hbefore
    · exact hnew
  others := fun hbase _ _ _ _ _ hother _ _ hcall ↦
    ⟨hother.stable ((call_stepped hcall).keepsClaims hbase), trivial⟩
  environment := by
    intro store event store' _ _ _ henvironment
    obtain ⟨job', audit', hmoved, rfl⟩ := environment_moved henvironment
    exact ⟨trivial, fun q _ hother ↦ hother.stable (.moved hmoved)⟩

/-- In every pool that any interleaving reaches, the claims are true of the rows. -/
theorem claimAssertions_of_reachable {W : Type*} [DecidableEq W] {pool : Pool W}
    (h : Reachable settings pool) : claimAssertions.Holds pool := by
  obtain ⟨start, hstart, hleads⟩ := h
  refine claimAssertions_sound.leads (fun u hu ↦ assertions_of_reachable ⟨start, hstart, hu⟩) ?_
    hleads
  refine ⟨trivial, fun w ↦ ?_, fun _ _ _ ↦ trivial⟩
  rw [hstart.idle w]
  simp [claimAssertions, Claimed, Phase.heldClaim]

/-! ## 3. The locks of an owner succeed -/

/-- The worker whose token the evidence row carries passes the locks and checks. -/
theorem Claimed.lockOwned (h : Claimed store p) (hconsistent : Consistent settings store)
    {claim : ProcessingClaim} (hheld : p.heldClaim = some claim) {e : DemoIssuanceResult}
    (he : store.rows.evidence = some e) (howner : e.ownerToken = claim.ownerToken) :
    store.rows.lockOwned claim = .ok e := by
  obtain ⟨e', he', hclaim⟩ := h claim hheld
  obtain rfl := Option.some.inj (he.symm.trans he')
  have hbinds := (hconsistent.evidence e he).binds
  refine lockOwned_eq_ok.mpr ⟨hconsistent.bound, ?_, he, ?_⟩
  · rw [← hclaim]
    exact ⟨rfl, rfl, rfl, rfl, rfl⟩
  · have hrow : Owns (store.rows.claimOf e claim.ownerToken) e :=
      ⟨hbinds.jobOrganization.symm, hconsistent.issuanceId he, hbinds.attempt.symm, howner, rfl⟩
    rwa [hclaim] at hrow

end IssuanceWorker

end Splitbind
