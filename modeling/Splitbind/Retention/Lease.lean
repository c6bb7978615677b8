import Splitbind.Retention.Safety

/-!
# The reconciliation lease — one recorded claim, and who may act on it

The schedule row records the claim of one runner.  A runner whose lease has expired may be taken
over at any time and does not notice; its token is never recorded again, so what it does later
changes no row.
-/

namespace Splitbind

open Transaction WorkerPool

namespace Platform

/-! ## 1. Claims -/

/-- The claim a runner acts on. -/
def Phase.claim : Phase → Option ReconciliationClaim
  | .claimed _ claim => some claim
  | .attempted _ claim _ => some claim
  | _ => none

def Tombstoned (db : Database) (id : UUID) : Prop :=
  ∃ upload ∈ db.uploads, upload.id = id ∧ upload.promotionTargetDeletedAt ≠ none

theorem claimMatches_iff {schedule : CleanupScheduleState} {claim : ReconciliationClaim} :
    claimMatches schedule claim = true ↔ ∃ lease, schedule.reconciliationClaim = some lease ∧
      lease.uploadId = claim.uploadId ∧ lease.token = claim.token := by
  simp [claimMatches, Option.any_eq_true]

section Steps

variable {formats : FormatChecker} {settings : ServiceSettings} {store store' : Store}
  {p p' : Phase}

theorem Advance.tombstoned (h : Advance formats settings store store') (hkeyed : store.db.Keyed)
    {id : UUID} (htombstoned : Tombstoned store.db id) : Tombstoned store'.db id := by
  obtain ⟨upload, hmem, hid, hdeleted⟩ := htombstoned
  obtain ⟨upload', hmem', hkept⟩ := h.change.uploads_kept hkeyed hmem
  exact ⟨upload', hmem', hkept.id.trans hid, (hkept.fenced hdeleted).1 ▸ hdeleted⟩

theorem Stepped.tokens (h : Stepped formats settings store p store' p') {token : UUID}
    (hmem : token ∈ store.tokens) : token ∈ store'.tokens := by
  cases h with
  | unclaimed | claimCleared | claimed => exact List.mem_cons_of_mem _ hmem
  | _ => exact hmem

/-- A runner gets its claim with a new token, on a tombstone. -/
theorem Stepped.claim_cases (h : Stepped formats settings store p store' p')
    {claim : ReconciliationClaim} (hclaim : p'.claim = some claim) :
    (p.claim = some claim ∧ store'.db.schedule = store.db.schedule) ∨
      claim.token ∉ store.tokens ∧ claim.token ∈ store'.tokens ∧
        Tombstoned store.db claim.uploadId ∧
        ∀ lease ∈ store'.db.schedule.reconciliationClaim, lease.uploadId = claim.uploadId := by
  cases h with
  | began upload promotion audit p' hmem hfree hstatus hkey hdeleted hupload hp' =>
    rcases hp' with rfl | rfl <;> simp [Phase.claim] at hclaim
  | attached promotion ids locked sha256 job p' hfree hattaches hjob hp' =>
    rcases hp' with ⟨domainId, rfl⟩ | ⟨code, error, rfl⟩ <;> simp [Phase.claim] at hclaim
  | turned run run' p p' hnow hp hp' =>
    rcases hp' with ⟨fallback, rfl⟩ | ⟨fallback, rfl⟩ | ⟨candidate, rfl⟩ | rfl <;>
      simp [Phase.claim] at hclaim
  | claimed run fallback token upload p' hfresh hmem hdeleted hexpired hp' =>
    rcases hp' with rfl | rfl
    · simp only [Phase.claim, Option.some.injEq] at hclaim
      subst hclaim
      refine .inr ⟨hfresh, List.mem_cons_self, ⟨upload, hmem, rfl, hdeleted⟩, ?_⟩
      simp [Database.saveSchedule]
    · simp [Phase.claim] at hclaim
  | recorded run candidate record p' hp' => rcases hp' with rfl | rfl <;> simp [Phase.claim] at hclaim
  | unclaimed run fallback token p' hp' => rcases hp' with rfl | rfl <;> simp [Phase.claim] at hclaim
  | claimCleared run fallback token p' hexpired hp' =>
    rcases hp' with rfl | rfl <;> simp [Phase.claim] at hclaim
  | dropped run claim attempt p' hmatches hgone hp' =>
    rcases hp' with rfl | rfl <;> simp [Phase.claim] at hclaim
  | reconciled run claim attempt upload deletedAt p' hmatches hmem hfree hid hdeleted hp' =>
    rcases hp' with rfl | rfl <;> simp [Phase.claim] at hclaim
  | unattempted | attempted => exact .inl ⟨hclaim, rfl⟩
  | _ => simp [Phase.claim] at hclaim

/-- An attempt reports what the storage has answered, unless there is no key to delete. -/
theorem Stepped.attempt_cases (h : Stepped formats settings store p store' p') {run : CleanupRun}
    {claim : ReconciliationClaim} {attempt : ReconciliationAttempt}
    (hp' : p' = .attempted run claim attempt) :
    (∃ deleted, attempt = deletionAttempt deleted) ∨
      p = .claimed run claim ∧ reconciliationTarget claim store.db = .inl attempt := by
  cases h with
  | unattempted run' claim' attempt' htarget =>
    simp only [Phase.attempted.injEq] at hp'
    obtain ⟨rfl, rfl, rfl⟩ := hp'
    exact .inr ⟨rfl, htarget⟩
  | attempted run' claim' upload key outcome =>
    simp only [Phase.attempted.injEq] at hp'
    exact .inl ⟨_, hp'.2.2.symm⟩
  | attached promotion ids locked sha256 job p' hfree hattaches hjob hp =>
    rcases hp with ⟨domainId, rfl⟩ | ⟨code, error, rfl⟩ <;> simp at hp'
  | turned _ _ _ _ _ _ hp =>
    rcases hp with ⟨fallback, rfl⟩ | ⟨fallback, rfl⟩ | ⟨candidate, rfl⟩ | rfl <;> simp at hp'
  | began _ _ _ _ _ _ _ _ _ _ hp | recorded _ _ _ _ hp | unclaimed _ _ _ _ hp
  | claimCleared _ _ _ _ _ hp | claimed _ _ _ _ _ _ _ _ _ hp | dropped _ _ _ _ _ _ hp
  | reconciled _ _ _ _ _ _ _ _ _ _ _ hp =>
    rcases hp with rfl | rfl <;> simp at hp'
  | _ => simp at hp'

/-! ## 2. The schedule row -/

/-- What a step does to the recorded claim and the cursor: nothing, a new lease, or the
acknowledgement of the runner whose claim is recorded. -/
theorem Stepped.schedule_cases (h : Stepped formats settings store p store' p')
    (hkeyed : store.db.Keyed)
    (hlease : ∀ lease ∈ store.db.schedule.reconciliationClaim, Tombstoned store.db lease.uploadId)
    (hclaim : ∀ claim, p.claim = some claim → Tombstoned store.db claim.uploadId) :
    (store'.db.schedule.reconciliationClaim = store.db.schedule.reconciliationClaim ∧
      store'.db.schedule.reconciliationCursor = store.db.schedule.reconciliationCursor) ∨
    (∃ run fallback upload token, p = .reconciling run fallback ∧ token ∉ store.tokens ∧
      token ∈ store'.tokens ∧ upload ∈ store.db.uploads ∧ upload.promotionTargetDeletedAt ≠ none ∧
      (∀ lease ∈ store.db.schedule.reconciliationClaim,
        lease.expiresAt ≤ store.clock ∧ lease.uploadId = upload.id) ∧
      store'.db.schedule.reconciliationClaim = some ⟨upload.id, token,
        store.clock + seconds settings.reconciliationLeaseSeconds⟩ ∧
      store'.db.schedule.reconciliationCursor = store.db.schedule.reconciliationCursor) ∨
    ∃ run claim attempt upload deletedAt, p = .attempted run claim attempt ∧
      claimMatches store.db.schedule claim = true ∧ attempt.acknowledge = true ∧
      upload ∈ store.db.uploads ∧ upload.id = claim.uploadId ∧
      upload.promotionTargetDeletedAt = some deletedAt ∧
      store'.db.schedule.reconciliationClaim = none ∧
      store'.db.schedule.reconciliationCursor = some ⟨deletedAt, upload.id⟩ := by
  cases h with
  | recorded run candidate record => cases record <;> exact .inl ⟨rfl, rfl⟩
  | claimCleared run fallback token p' hexpired =>
    refine .inl ⟨?_, rfl⟩
    rcases hrecorded : store.db.schedule.reconciliationClaim with _ | lease
    · rfl
    · obtain ⟨upload, hmem, hid, hdeleted⟩ := hlease lease hrecorded
      exact ((hexpired lease hrecorded).2 upload hmem hid hdeleted hkeyed.uploads).elim
  | claimed run fallback token upload p' hfresh hmem hdeleted hexpired =>
    exact .inr (.inl ⟨run, fallback, upload, token, rfl, hfresh, List.mem_cons_self, hmem, hdeleted,
      hexpired, rfl, rfl⟩)
  | dropped run claim attempt p' hmatches hgone =>
    obtain ⟨upload, hmem, hid, hdeleted⟩ := hclaim claim rfl
    exact (hgone upload hmem hid hdeleted hkeyed.uploads).elim
  | reconciled run claim attempt upload deletedAt p' hmatches hmem hfree hid hdeleted =>
    by_cases hack : attempt.acknowledge = true
    · refine .inr (.inr ⟨run, claim, attempt, upload, deletedAt, rfl, hmatches, hack, hmem, hid,
        hdeleted, ?_, ?_⟩) <;> simp [commit, Database.saveSchedule, hack]
    · refine .inl ⟨?_, ?_⟩ <;> simp [commit, Database.saveSchedule, hack]
  | _ => exact .inl ⟨rfl, rfl⟩

/-- A reconciled time is set by the runner whose claim on the row is recorded. -/
theorem Stepped.reconciledAt_cases (h : Stepped formats settings store p store' p')
    (hkeyed : store.db.Keyed)
    (hopened : ∀ run candidate record, p.opened = some (run, candidate, record) →
      Holding store run candidate record) {row row' : UploadRequest}
    (hmem : row ∈ store.db.uploads) (hmem' : row' ∈ store'.db.uploads) (hid : row'.id = row.id) :
    row'.promotionTargetReconciledAt = row.promotionTargetReconciledAt ∨
      ∃ run claim attempt, p = .attempted run claim attempt ∧
        claimMatches store.db.schedule claim = true ∧ claim.uploadId = row.id := by
  have hsaved : ∀ before saved, before ∈ store.db.uploads →
      row' ∈ Table.save (·.id) store.db.uploads saved → saved.id = before.id →
      saved.promotionTargetReconciledAt = before.promotionTargetReconciledAt →
      row'.promotionTargetReconciledAt = row.promotionTargetReconciledAt := by
    intro before saved hbefore hrow hsame hkept
    rcases saved_row hkeyed.uploads hbefore hsame hmem hrow hid with ⟨rfl, rfl⟩ | rfl
    · exact hkept
    · rfl
  have hunchanged : row' ∈ store.db.uploads →
      row'.promotionTargetReconciledAt = row.promotionTargetReconciledAt := by
    intro hrow
    rw [List.inj_on_of_nodup_map hkeyed.uploads hrow hmem hid]
  -- every step but an acknowledgement saves a row with the stamp it had
  cases h with
  | began upload promotion audit p' hupload hfree hstatus hkey hfenced hpromoted =>
    have hsame : promotion.upload.id = upload.id := by rw [hpromoted]; rfl
    exact .inl (hsaved upload _ hupload hmem' hsame (by rw [hpromoted]; rfl))
  | attached promotion ids locked sha256 job p' hfree hattaches =>
    exact .inl (hsaved locked _ hattaches.mem hmem' rfl rfl)
  | markedFailed promotion code error upload audit hupload =>
    exact .inl (hsaved upload _ hupload hmem' rfl rfl)
  | orphanRecorded promotion domainId upload audit objects hupload =>
    exact .inl (hsaved upload _ hupload hmem' rfl rfl)
  | recorded run candidate record p' hp' =>
    obtain ⟨-, hrecord, -⟩ := hopened run candidate record rfl
    cases record with
    | issuance issuance => exact .inl (hunchanged hmem')
    | upload upload =>
      have hsame : (upload.deleted candidate.category.field run.now).id = upload.id := by
        cases candidate.category.field <;> rfl
      refine .inl (hsaved upload _ (record_upload hrecord).1 hmem' hsame ?_)
      cases candidate.category.field <;> rfl
  | reconciled run claim attempt upload deletedAt p' hmatches hupload hfree hclaimId hdeleted =>
    by_cases hrow : upload.id = row.id
    · exact .inr ⟨run, claim, attempt, rfl, hmatches, hclaimId.symm.trans hrow⟩
    · rcases Table.mem_save hmem' with rfl | ⟨hold, -⟩
      · exact absurd hid hrow
      · exact .inl (hunchanged hold)
  | _ => exact .inl (hunchanged hmem')

end Steps

/-! ## 3. The audit of reconciliations -/

/-- Whether an event reports a reconciliation. -/
def reportsReconciliation (event : SystemAuditEvent) : Bool :=
  [AuditOutcome.succeeded, .denied, .failed].any fun outcome ↦
    event.action = "object.promotion.reconciliation." ++ outcome.text

/-- The reconciliation events of the log are about uploads, and none is there twice. -/
structure ReportedOnce (db : Database) : Prop where
  rows : ∀ event ∈ db.systemAudit, ∀ outcome : AuditOutcome,
    event.action = "object.promotion.reconciliation." ++ outcome.text →
      ∃ upload ∈ db.uploads, event = reconciliationEvent upload outcome
  nodup : (db.systemAudit.filter reportsReconciliation).Nodup

theorem reportsReconciliation_of_action {event : SystemAuditEvent} {outcome : AuditOutcome}
    (h : event.action = "object.promotion.reconciliation." ++ outcome.text) :
    reportsReconciliation event = true := by
  simp only [reportsReconciliation, List.any_eq_true, decide_eq_true_eq]
  exact ⟨outcome, by cases outcome <;> simp, h⟩

theorem outcome_text_injective {a b : AuditOutcome}
    (h : "object.promotion.reconciliation." ++ a.text =
      "object.promotion.reconciliation." ++ b.text) : a = b := by
  revert h
  cases a <;> cases b <;> decide

/-- No deletion is audited as a reconciliation. -/
theorem systemEvent_reports (record : LockedRecord) (pk : UUID) (category : Category)
    (outcome : AuditOutcome) :
    reportsReconciliation (systemEvent record pk category.action outcome) = false ∧
      reportsReconciliation (systemEvent record pk (category.action ++ ".failed") outcome) =
        false := by
  cases category <;> exact ⟨rfl, rfl⟩

theorem ReportedOnce.length_le {db : Database} (h : ReportedOnce db) (hkeyed : db.Keyed) (id : UUID)
    (outcome : AuditOutcome) :
    (db.systemAudit.filter fun event ↦ event.targetId = id ∧
      event.action = "object.promotion.reconciliation." ++ outcome.text).length ≤ 1 := by
  set selects : SystemAuditEvent → Bool := fun event ↦ event.targetId = id ∧
    event.action = "object.promotion.reconciliation." ++ outcome.text with hselects
  have hsame : ∀ a ∈ db.systemAudit.filter selects, ∀ b ∈ db.systemAudit.filter selects, a = b := by
    intro a ha b hb
    simp only [hselects, List.mem_filter, decide_eq_true_eq] at ha hb
    obtain ⟨upload, hmem, rfl⟩ := h.rows a ha.1 outcome ha.2.2
    obtain ⟨other, hother, rfl⟩ := h.rows b hb.1 outcome hb.2.2
    have hid : upload.id = other.id := ha.2.1.trans hb.2.1.symm
    rw [List.inj_on_of_nodup_map hkeyed.uploads hmem hother hid]
  have hnodup : (db.systemAudit.filter selects).Nodup := by
    have hscope : (db.systemAudit.filter reportsReconciliation).filter selects =
        db.systemAudit.filter selects := by
      refine Table.filter_filter fun event _ hevent ↦ ?_
      simp only [hselects, decide_eq_true_eq] at hevent
      exact reportsReconciliation_of_action hevent.2
    rw [← hscope]
    exact h.nodup.filter _
  rcases hlist : db.systemAudit.filter selects with _ | ⟨a, _ | ⟨b, rest⟩⟩
  · simp
  · simp
  · rw [hlist] at hsame hnodup
    have heq := hsame a (by simp) b (by simp)
    simp [heq] at hnodup

/-- A log that grows by something else, while the uploads keep their organization. -/
theorem ReportedOnce.kept {db db' : Database} (h : ReportedOnce db)
    (huploads : ∀ upload ∈ db.uploads, ∃ upload' ∈ db'.uploads, Kept upload upload')
    (haudit : db'.systemAudit = db.systemAudit ∨
      ∃ event, db'.systemAudit = db.systemAudit ++ [event] ∧
        (reportsReconciliation event = false ∨
          event ∉ db.systemAudit ∧ ∃ upload ∈ db.uploads, ∃ outcome,
            event = reconciliationEvent upload outcome)) : ReportedOnce db' := by
  -- an event names its row by what a row never changes
  have hrow : ∀ upload ∈ db.uploads, ∀ outcome, ∃ upload' ∈ db'.uploads,
      reconciliationEvent upload outcome = reconciliationEvent upload' outcome := by
    intro upload hmem outcome
    obtain ⟨upload', hmem', hkept⟩ := huploads upload hmem
    exact ⟨upload', hmem', by rw [reconciliationEvent, reconciliationEvent, hkept.id,
      hkept.organization]⟩
  have hold : ∀ event ∈ db.systemAudit, ∀ outcome : AuditOutcome,
      event.action = "object.promotion.reconciliation." ++ outcome.text →
        ∃ upload ∈ db'.uploads, event = reconciliationEvent upload outcome := by
    intro event hmem outcome haction
    obtain ⟨upload, hupload, rfl⟩ := h.rows event hmem outcome haction
    exact hrow upload hupload outcome
  rcases haudit with hsame | ⟨event, hadded, hevent⟩
  · exact ⟨by rw [hsame]; exact hold, by rw [hsame]; exact h.nodup⟩
  constructor
  · rw [hadded]
    intro other hmem outcome haction
    rcases List.mem_append.mp hmem with hbefore | hnew
    · exact hold other hbefore outcome haction
    · rw [List.mem_singleton.mp hnew] at haction ⊢
      rcases hevent with hother | ⟨-, upload, hupload, reported, rfl⟩
      · simp [reportsReconciliation_of_action haction] at hother
      · obtain rfl := outcome_text_injective haction
        exact hrow upload hupload reported
  · rw [hadded, List.filter_append]
    rcases hevent with hother | ⟨hnew, -⟩
    · simpa [hother] using h.nodup
    · by_cases hreports : reportsReconciliation event = true
      · rw [List.filter_cons_of_pos hreports, List.filter_nil, List.nodup_append]
        refine ⟨h.nodup, by simp, ?_⟩
        simp only [List.mem_singleton, forall_eq]
        rintro other hother rfl
        exact hnew (List.mem_filter.mp hother).1
      · rw [List.filter_cons_of_neg hreports, List.filter_nil, List.append_nil]
        exact h.nodup

section Audit

variable {formats : FormatChecker} {settings : ServiceSettings} {store store' : Store}
  {p p' : Phase}

theorem Stepped.audit_cases (h : Stepped formats settings store p store' p') :
    store'.db.systemAudit = store.db.systemAudit ∨
      ∃ event, store'.db.systemAudit = store.db.systemAudit ++ [event] ∧
        (reportsReconciliation event = false ∨
          event ∉ store.db.systemAudit ∧ ∃ upload ∈ store.db.uploads, ∃ outcome,
            event = reconciliationEvent upload outcome) := by
  cases h with
  | deletionFailed run candidate record =>
    exact .inr ⟨_, rfl, .inl (systemEvent_reports record candidate.pk candidate.category _).2⟩
  | recorded run candidate record =>
    cases record <;>
      exact .inr ⟨_, rfl, .inl (systemEvent_reports _ candidate.pk candidate.category _).1⟩
  | reconciled run claim attempt upload deletedAt p' hmatches hmem =>
    by_cases hold : reconciliationEvent upload (if (attempt.acknowledge && attempt.succeeded) = true
        then .succeeded else .failed) ∈ store.db.systemAudit
    · exact .inl (if_pos hold)
    · exact .inr ⟨_, if_neg hold, .inr ⟨hold, upload, hmem, _, rfl⟩⟩
  | _ => exact .inl rfl

theorem Happened.audit (h : Happened formats settings store store') :
    store'.db.systemAudit = store.db.systemAudit := by
  cases h with
  | changed db time hle hchange hjobs hissuances hsystem => exact hsystem
  | worked job change result => cases result <;> rfl
  | _ => rfl

theorem Happened.schedule (h : Happened formats settings store store') :
    store'.db.schedule = store.db.schedule := by
  cases h with
  | changed db time hle hchange hjobs hissuances hsystem hschedule => exact hschedule
  | worked job change result => cases result <;> rfl
  | _ => rfl

theorem Happened.tokens (h : Happened formats settings store store') :
    store'.tokens = store.tokens := by
  cases h <;> rfl

theorem Happened.reconciledAt (h : Happened formats settings store store')
    (hkeyed : store.db.Keyed) {row row' : UploadRequest} (hmem : row ∈ store.db.uploads)
    (hmem' : row' ∈ store'.db.uploads) (hid : row'.id = row.id) :
    row'.promotionTargetReconciledAt = row.promotionTargetReconciledAt := by
  have hsame : row' ∈ store.db.uploads →
      row'.promotionTargetReconciledAt = row.promotionTargetReconciledAt := by
    intro hrow
    rw [List.inj_on_of_nodup_map hkeyed.uploads hrow hmem hid]
  cases h with
  | changed db time hle hchange hjobs hissuances hsystem hschedule hrows =>
    exact (hrows row' hmem' row hmem hid).2
  | worked job change result =>
    simp only [Database.saveJob, WorkResult.apply_uploads] at hmem'
    exact hsame hmem'
  | ticked | landed | stored => exact hsame hmem'

end Audit

/-! ## 4. Reachable pools -/

def leaseAssertions : Assertions Store Phase where
  shared store := (∀ lease ∈ store.db.schedule.reconciliationClaim,
      lease.token ∈ store.tokens ∧ Tombstoned store.db lease.uploadId) ∧ ReportedOnce store.db
  own store p := (∀ claim, p.claim = some claim → claim.token ∈ store.tokens ∧
      Tombstoned store.db claim.uploadId ∧
      ∀ lease ∈ store.db.schedule.reconciliationClaim, lease.token = claim.token →
        lease.uploadId = claim.uploadId) ∧
    ∀ run claim attempt, p = .attempted run claim attempt →
      ∃ deleted, attempt = deletionAttempt deleted
  apart p q := ∀ a b, p.claim = some a → q.claim = some b → a.token ≠ b.token

/-- What is known of uploads and tombstones. -/
def retentionAssertions : Assertions Store Phase :=
  lockAssertions.and (objectAssertions.and dueAssertions)

/-- There is always a key to delete for a claimed tombstone. -/
theorem reconciliationTarget_inr {store : Store} (hkeyed : store.db.Keyed)
    (howned : ∀ upload ∈ store.db.uploads, TargetOwned upload)
    (hdue : ∀ upload ∈ store.db.uploads, upload.promotionTargetDeletedAt ≠ none → Due store upload)
    {claim : ReconciliationClaim} (htombstoned : Tombstoned store.db claim.uploadId) :
    ∃ key, reconciliationTarget claim store.db = .inr key := by
  obtain ⟨uploadId, token⟩ := claim
  obtain ⟨upload, hmem, rfl, hdeleted⟩ := htombstoned
  have hstatus : upload.promotionStatus ≠ .none := by
    rcases hdue upload hmem hdeleted with ⟨hattached, -⟩ | ⟨hnot | hnot, -⟩ <;> simp_all
  have hkey : upload.promotionTargetKey ≠ none := mt (howned upload hmem).1.mpr hstatus
  obtain ⟨key, hkey⟩ := Option.ne_none_iff_exists'.mp hkey
  obtain rfl := (howned upload hmem).2 key hkey
  obtain ⟨deletedAt, hdeletedAt⟩ := Option.ne_none_iff_exists'.mp hdeleted
  obtain ⟨-, -, htarget⟩ := reconciliationSelected hkeyed hmem hkey hdeletedAt
  exact ⟨upload.target, htarget token⟩

section Runs

variable {formats : FormatChecker} {settings : ServiceSettings} {W : Type*} [DecidableEq W]
  {pool pool' : Pool W}

/-- A recorded claim after a step is the one before, or has a new token. -/
theorem Stepped.lease_cases {store store' : Store} {p p' : Phase}
    (h : Stepped formats settings store p store' p') (hkeyed : store.db.Keyed)
    (hlease : ∀ lease ∈ store.db.schedule.reconciliationClaim, Tombstoned store.db lease.uploadId)
    (hclaim : ∀ claim, p.claim = some claim → Tombstoned store.db claim.uploadId)
    {lease : ReconciliationLease}
    (hrecorded : lease ∈ store'.db.schedule.reconciliationClaim) :
    lease ∈ store.db.schedule.reconciliationClaim ∨
      lease.token ∉ store.tokens ∧ lease.token ∈ store'.tokens ∧
        Tombstoned store.db lease.uploadId := by
  rcases h.schedule_cases hkeyed hlease hclaim with ⟨hsame, -⟩ |
    ⟨run, fallback, upload, token, -, hfresh, htokens, hmem, hdeleted, -, hnew, -⟩ |
    ⟨run, claim, attempt, upload, deletedAt, -, -, -, -, -, -, hnone, -⟩
  · exact .inl (hsame ▸ hrecorded)
  · rw [hnew, Option.mem_def, Option.some.injEq] at hrecorded
    subst hrecorded
    exact .inr ⟨hfresh, htokens, upload, hmem, rfl, hdeleted⟩
  · simp [hnone] at hrecorded

theorem leaseAssertions_sound :
    Sound (program formats settings) .all retentionAssertions leaseAssertions where
  symm p q hpq a b ha hb heq := hpq b a hb ha heq.symm
  keeps {store p i store' p'} hbase hbaseOwn hshared hown _ hcall := by
    obtain ⟨hkeyed, ⟨howned, -, -⟩, -, -, hdue⟩ := hbase
    obtain ⟨hlease, hreported⟩ := hshared
    obtain ⟨hclaim, hattempt⟩ := hown
    have hstep : Stepped formats settings store p store' p' := call_stepped hcall
    have hadvance := hstep.advance (hstep.change hkeyed hbaseOwn.1)
    refine ⟨⟨fun lease hrecorded ↦ ?_, ?_⟩, fun claim hp' ↦ ?_, fun run claim attempt hp' ↦ ?_⟩
    · -- a recorded lease is an old one, or the one this call has just claimed
      rcases hstep.lease_cases hkeyed (fun lease hmem ↦ (hlease lease hmem).2)
        (fun claim hp ↦ (hclaim claim hp).2.1) hrecorded with hold | ⟨-, htokens, htombstoned⟩
      · exact ⟨hstep.tokens (hlease lease hold).1,
          hadvance.tombstoned hkeyed (hlease lease hold).2⟩
      · exact ⟨htokens, hadvance.tombstoned hkeyed htombstoned⟩
    · exact hreported.kept (fun upload hmem ↦ hadvance.change.uploads_kept hkeyed hmem)
        hstep.audit_cases
    · -- so is the claim in hand: kept with the schedule, or granted by this call
      rcases hstep.claim_cases hp' with ⟨hp, hschedule⟩ | ⟨-, htokens, htombstoned, hsame⟩
      · obtain ⟨htoken, htombstoned, hsame⟩ := hclaim claim hp
        exact ⟨hstep.tokens htoken, hadvance.tombstoned hkeyed htombstoned,
          by rw [hschedule]; exact hsame⟩
      · exact ⟨htokens, hadvance.tombstoned hkeyed htombstoned, fun lease hmem _ ↦ hsame lease hmem⟩
    · -- a candidate to delete is never a tombstone's row: its target key would be set
      rcases hstep.attempt_cases hp' with hdeleted | ⟨rfl, htarget⟩
      · exact hdeleted
      · obtain ⟨key, hkey⟩ := reconciliationTarget_inr hkeyed howned hdue (hclaim claim rfl).2.1
        simp [htarget] at hkey
  others {store p q i store' p'} hbase hbaseOwn _ _ hshared hown hother hapart _ hcall := by
    obtain ⟨hkeyed, -⟩ := hbase
    obtain ⟨hlease, -⟩ := hshared
    have hstep : Stepped formats settings store p store' p' := call_stepped hcall
    have hadvance := hstep.advance (hstep.change hkeyed hbaseOwn.1)
    refine ⟨⟨fun claim hq ↦ ?_, hother.2⟩, fun a b ha hb ↦ ?_⟩
    · obtain ⟨htoken, htombstoned, hsame⟩ := hother.1 claim hq
      refine ⟨hstep.tokens htoken, hadvance.tombstoned hkeyed htombstoned, fun lease hmem heq ↦ ?_⟩
      -- another worker's lease carries a token issued before, so the fresh one differs from it
      rcases hstep.lease_cases hkeyed (fun lease hmem ↦ (hlease lease hmem).2)
        (fun claim hp ↦ (hown.1 claim hp).2.1) hmem with hold | ⟨hfresh, -, -⟩
      · exact hsame lease hold heq
      · exact absurd (heq ▸ htoken) hfresh
    · rcases hstep.claim_cases ha with ⟨hp, -⟩ | ⟨hfresh, -⟩
      · exact hapart a b hp hb
      · exact fun heq ↦ hfresh (heq ▸ (hother.1 b hb).1)
  environment {store e store'} hbase hshared _ henv := by
    obtain ⟨hkeyed, -⟩ := hbase
    obtain ⟨hlease, hreported⟩ := hshared
    have hhappened : Happened formats settings store store' := environment_happened hkeyed henv
    have hadvance := hhappened.advance hkeyed
    refine ⟨⟨fun lease hrecorded ↦ ?_, ?_⟩, fun q _ hown ↦ ⟨fun claim hq ↦ ?_, hown.2⟩⟩
    · rw [hhappened.schedule] at hrecorded
      exact ⟨hhappened.tokens ▸ (hlease lease hrecorded).1,
        hadvance.tombstoned hkeyed (hlease lease hrecorded).2⟩
    · exact hreported.kept (fun upload hmem ↦ hadvance.change.uploads_kept hkeyed hmem)
        (.inl hhappened.audit)
    · obtain ⟨htoken, htombstoned, hsame⟩ := hown.1 claim hq
      exact ⟨hhappened.tokens ▸ htoken, hadvance.tombstoned hkeyed htombstoned,
        by rw [hhappened.schedule]; exact hsame⟩

omit [DecidableEq W] in
theorem Start.leaseHold {pool : Pool W} (h : Start pool) : leaseAssertions.Holds pool where
  shared := by
    refine ⟨by simp [h.schedule], by simp [h.systemAudit], by simp [h.systemAudit]⟩
  own w := by
    rw [h.idle w]
    exact ⟨by simp [Phase.claim], by simp⟩
  apart w v _ a b ha := by
    rw [h.idle w] at ha
    simp [Phase.claim] at ha

theorem Reachable.retention (h : Reachable formats settings pool) :
    retentionAssertions.Holds pool :=
  h.locks.and (h.objectsHold.and h.dueHold)

theorem Reachable.leaseHold (h : Reachable formats settings pool) :
    leaseAssertions.Holds pool := by
  obtain ⟨start, hstart, hleads⟩ := h
  exact leaseAssertions_sound.leads (fun u hu ↦ Reachable.retention ⟨start, hstart, hu⟩)
    hstart.leaseHold hleads

theorem Reachable.step (h : Reachable formats settings pool)
    {event : WorkerPool.Event W Input Event}
    (hstep : (program formats settings).step pool event = some pool') :
    Reachable formats settings pool' := by
  obtain ⟨start, hstart, hleads⟩ := h
  exact ⟨start, hstart, hleads.tail ⟨event, Program.Allowed.all_permits pool event, hstep⟩⟩

/-! ## 5. The lease protocol -/

/-- The claim that is recorded in the schedule row. -/
def recorded (pool : Pool W) : Option ReconciliationLease :=
  pool.store.db.schedule.reconciliationClaim

/-- A worker with the recorded claim acts on it. -/
def HolderActs (pool : Pool W) (event : WorkerPool.Event W Input Event)
    (claim : ReconciliationClaim) (attempt : ReconciliationAttempt) : Prop :=
  ∃ w input run, event = .worker w input ∧ pool.phase w = .attempted run claim attempt ∧
    claimMatches pool.store.db.schedule claim = true

/-- A worker gets a lease on the record of a lease that has expired. -/
def TakesOver (settings : ServiceSettings) (pool pool' : Pool W)
    (event : WorkerPool.Event W Input Event) (lease : ReconciliationLease) : Prop :=
  lease.expiresAt ≤ pool.store.clock ∧ ∃ w input run fallback token, event = .worker w input ∧
    pool.phase w = .reconciling run fallback ∧ token ∉ pool.store.tokens ∧
    recorded pool' = some ⟨lease.uploadId, token,
      pool.store.clock + seconds settings.reconciliationLeaseSeconds⟩

/-- What one step does to the recorded claim, the cursor and the reconciled times. -/
structure LeaseStep (settings : ServiceSettings) (pool pool' : Pool W)
    (event : WorkerPool.Event W Input Event) : Prop where
  /-- A recorded claim stays until its holder acknowledges the deletion, or, once it has expired,
  until it is taken over for the same record. -/
  pending : ∀ lease, recorded pool = some lease → recorded pool' = some lease ∨
    (HolderActs pool event ⟨lease.uploadId, lease.token⟩ (deletionAttempt true) ∧
      recorded pool' = none) ∨ TakesOver settings pool pool' event lease
  /-- The cursor is set to the record of the claim that its holder acknowledges. -/
  cursor : pool'.store.db.schedule.reconciliationCursor =
      pool.store.db.schedule.reconciliationCursor ∨
    ∃ claim, HolderActs pool event claim (deletionAttempt true) ∧
      ∃ upload ∈ pool.store.db.uploads, ∃ deletedAt, upload.id = claim.uploadId ∧
        upload.promotionTargetDeletedAt = some deletedAt ∧
        pool'.store.db.schedule.reconciliationCursor = some ⟨deletedAt, upload.id⟩
  /-- A reconciled time is set by the holder of a claim on that record, and never goes back. -/
  reconciled : ∀ upload ∈ pool.store.db.uploads, ∃ upload' ∈ pool'.store.db.uploads,
    upload'.id = upload.id ∧
    (upload'.promotionTargetReconciledAt = upload.promotionTargetReconciledAt ∨
      ∃ claim attempt, HolderActs pool event claim attempt ∧ claim.uploadId = upload.id) ∧
    ∀ time ∈ upload.promotionTargetReconciledAt,
      ∃ time' ∈ upload'.promotionTargetReconciledAt, time ≤ time'

/-- The attempt that is acknowledged is a deletion the storage has made. -/
theorem acknowledged_deletion {attempt : ReconciliationAttempt}
    (hattempt : ∃ deleted, attempt = deletionAttempt deleted) (hack : attempt.acknowledge = true) :
    attempt = deletionAttempt true := by
  obtain ⟨deleted, rfl⟩ := hattempt
  cases deleted with
  | true => rfl
  | false => simp [deletionAttempt] at hack

theorem worker_leaseStep {w : W} {input : Input} (hretention : retentionAssertions.Holds pool)
    (hleases : leaseAssertions.Holds pool)
    (hstep : (program formats settings).step pool (.worker w input) = some pool') :
    LeaseStep settings pool pool' (.worker w input) := by
  obtain ⟨store', p', hcall, rfl⟩ := Program.step_worker hstep
  have hstepped : Stepped formats settings pool.store (pool.phase w) store' p' :=
    call_stepped hcall
  obtain ⟨hkeyed, -⟩ := hretention.shared
  obtain ⟨hlease, -⟩ := hleases.shared
  obtain ⟨hclaim, hattempt⟩ := hleases.own w
  have hcases := hstepped.schedule_cases hkeyed (fun lease hmem ↦ (hlease lease hmem).2)
    fun claim hp ↦ (hclaim claim hp).2.1
  refine ⟨fun lease hrecorded ↦ ?_, ?_, fun upload hmem ↦ ?_⟩
  · rcases hcases with ⟨hsame, -⟩ |
      ⟨run, fallback, upload, token, hphase, hfresh, -, -, -, hexpired, hnew, -⟩ |
      ⟨run, claim, attempt, upload, deletedAt, hphase, hmatches, hack, -, -, -, hnone, -⟩
    · exact .inl (hsame.trans hrecorded)
    · obtain ⟨hexpires, hid⟩ := hexpired lease hrecorded
      exact .inr (.inr ⟨hexpires, w, input, run, fallback, token, rfl, hphase, hfresh,
        hid ▸ hnew⟩)
    · obtain rfl := acknowledged_deletion (hattempt run claim attempt hphase) hack
      obtain ⟨other, hother, hid, htoken⟩ := claimMatches_iff.mp hmatches
      obtain rfl : other = lease := Option.some.inj (hother.symm.trans hrecorded)
      rw [hid, htoken]
      exact .inr (.inl ⟨⟨w, input, run, rfl, hphase, hmatches⟩, hnone⟩)
  · rcases hcases with ⟨-, hsame⟩ | ⟨_, _, _, _, -, -, -, -, -, -, -, hsame⟩ |
      ⟨run, claim, attempt, upload, deletedAt, hphase, hmatches, hack, hmem, hid, hdeleted, -, hset⟩
    · exact .inl hsame
    · exact .inl hsame
    · obtain rfl := acknowledged_deletion (hattempt run claim attempt hphase) hack
      exact .inr ⟨claim, ⟨w, input, run, rfl, hphase, hmatches⟩, upload, hmem, deletedAt, hid,
        hdeleted, hset⟩
  · have hopened := (hretention.own w).1
    obtain ⟨upload', hmem', hkept⟩ :=
      (hstepped.change hkeyed hopened).uploads_kept hkeyed hmem
    refine ⟨upload', hmem', hkept.id, ?_, hkept.reconciled⟩
    rcases hstepped.reconciledAt_cases hkeyed hopened hmem hmem' hkept.id with hsame |
      ⟨run, claim, attempt, hphase, hmatches, hid⟩
    · exact .inl hsame
    · exact .inr ⟨claim, attempt, ⟨w, input, run, rfl, hphase, hmatches⟩, hid⟩

theorem environment_leaseStep {e : Event} (hretention : retentionAssertions.Holds pool)
    (hstep : (program formats settings).step pool (.environment e) = some pool') :
    LeaseStep settings pool pool' (.environment e) := by
  obtain ⟨store', henv, rfl⟩ := Program.step_environment hstep
  obtain ⟨hkeyed, -⟩ := hretention.shared
  have hhappened : Happened formats settings pool.store store' := environment_happened hkeyed henv
  refine ⟨fun lease hrecorded ↦ .inl ?_, .inl (by rw [hhappened.schedule]), fun upload hmem ↦ ?_⟩
  · rw [recorded, hhappened.schedule]
    exact hrecorded
  · obtain ⟨upload', hmem', hkept⟩ := (hhappened.change hkeyed).uploads_kept hkeyed hmem
    exact ⟨upload', hmem', hkept.id, .inl (hhappened.reconciledAt hkeyed hmem hmem' hkept.id),
      hkept.reconciled⟩

/-- A runner whose claim is not recorded changes no row. -/
theorem lost_claim_changes_nothing {w : W} {input : Input} {claim : ReconciliationClaim}
    (hclaim : (pool.phase w).claim = some claim)
    (hlost : claimMatches pool.store.db.schedule claim = false)
    (hstep : (program formats settings).step pool (.worker w input) = some pool') :
    pool'.store.db = pool.store.db := by
  obtain ⟨store', p', hcall, rfl⟩ := Program.step_worker hstep
  have hstepped : Stepped formats settings pool.store (pool.phase w) store' p' :=
    call_stepped hcall
  generalize pool.phase w = p at hclaim hstepped
  cases hstepped with
  | unattempted | attempted | ignored | stopped | crashed => rfl
  | dropped run lost attempt p' hmatches =>
    simp only [Phase.claim, Option.some.injEq] at hclaim
    rw [hclaim, hlost] at hmatches
    exact absurd hmatches (by simp)
  | reconciled run lost attempt upload deletedAt p' hmatches =>
    simp only [Phase.claim, Option.some.injEq] at hclaim
    rw [hclaim, hlost] at hmatches
    exact absurd hmatches (by simp)
  | turned run run' p p' hnow hp =>
    rcases hp with rfl | ⟨fallback, rfl⟩ | ⟨candidate, rfl⟩ <;> simp [Phase.claim] at hclaim
  | _ => simp [Phase.claim] at hclaim

/-- A token that has been used and is not recorded is never recorded again. -/
theorem lost_token (h : Reachable formats settings pool) {token : UUID}
    (hused : token ∈ pool.store.tokens)
    (hlost : ∀ lease ∈ pool.store.db.schedule.reconciliationClaim, lease.token ≠ token)
    (hleads : (program formats settings).Leads .all pool pool') :
    ∀ lease ∈ pool'.store.db.schedule.reconciliationClaim, lease.token ≠ token := by
  have hboth : Reachable formats settings pool' ∧ token ∈ pool'.store.tokens ∧
      ∀ lease ∈ pool'.store.db.schedule.reconciliationClaim, lease.token ≠ token := by
    refine hleads.keeps (fun u ↦ Reachable formats settings u ∧ token ∈ u.store.tokens ∧
      ∀ lease ∈ u.store.db.schedule.reconciliationClaim, lease.token ≠ token) ?_ ⟨h, hused, hlost⟩
    rintro u e v - he ⟨hu, hused, hlost⟩
    refine ⟨hu.step he, ?_⟩
    rcases step_cases hu.locks he with ⟨w, input, -, hstepped⟩ | ⟨-, hhappened, -⟩
    · obtain ⟨hlease, -⟩ := hu.leaseHold.shared
      obtain ⟨hclaim, -⟩ := hu.leaseHold.own w
      refine ⟨hstepped.tokens hused, fun lease hrecorded heq ↦ ?_⟩
      rcases hstepped.lease_cases hu.locks.shared (fun lease hmem ↦ (hlease lease hmem).2)
        (fun claim hp ↦ (hclaim claim hp).2.1) hrecorded with hold | ⟨hfresh, -, -⟩
      · exact hlost lease hold heq
      · exact hfresh (heq ▸ hused)
    · exact ⟨hhappened.tokens ▸ hused, by rw [hhappened.schedule]; exact hlost⟩
  exact hboth.2.2

/-- The lease protocol, in every reachable pool: what each step does to the recorded claim, the
cursor and the reconciled times; that a runner whose claim is not recorded changes no row, and
that its claim is not recorded later either; that two runners have different claims; and that a
reconciliation outcome of a record is audited once. -/
theorem reconciliation_lease (h : Reachable formats settings pool) :
    (∀ event pool', (program formats settings).step pool event = some pool' →
      LeaseStep settings pool pool' event) ∧
    (∀ w claim, (pool.phase w).claim = some claim →
      claimMatches pool.store.db.schedule claim = false →
      (∀ input pool', (program formats settings).step pool (.worker w input) = some pool' →
        pool'.store.db = pool.store.db) ∧
      ∀ pool', (program formats settings).Leads .all pool pool' →
        claimMatches pool'.store.db.schedule claim = false) ∧
    (∀ w v claim, (pool.phase w).claim = some claim → (pool.phase v).claim = some claim → w = v) ∧
    ∀ (id : UUID) (outcome : AuditOutcome), (pool.store.db.systemAudit.filter fun event ↦
      event.targetId = id ∧
        event.action = "object.promotion.reconciliation." ++ outcome.text).length ≤ 1 := by
  have hretention := h.retention
  have hleases := h.leaseHold
  refine ⟨fun event pool' hstep ↦ ?_, fun w claim hclaim hlost ↦
    ⟨fun input pool' hstep ↦ lost_claim_changes_nothing hclaim hlost hstep, ?_⟩, ?_, ?_⟩
  · cases event with
    | worker w input => exact worker_leaseStep hretention hleases hstep
    | environment e => exact environment_leaseStep hretention hstep
  · intro pool' hleads
    obtain ⟨hused, -, hsame⟩ := (hleases.own w).1 claim hclaim
    have hnot : ∀ lease ∈ pool.store.db.schedule.reconciliationClaim,
        lease.token ≠ claim.token := by
      intro lease hrecorded heq
      have hmatches : claimMatches pool.store.db.schedule claim = true :=
        claimMatches_iff.mpr ⟨lease, hrecorded, hsame lease hrecorded heq, heq⟩
      simp [hlost] at hmatches
    have hlater := lost_token h hused hnot hleads
    rw [← Bool.not_eq_true, claimMatches_iff]
    rintro ⟨lease, hrecorded, -, heq⟩
    exact hlater lease hrecorded heq
  · intro w v claim hw hv
    by_contra hne
    exact hleases.apart w v hne claim claim hw hv rfl
  · exact hleases.shared.2.length_le hretention.shared.1

end Runs

/-- A runner claims the tombstone of the late copy, stalls past its lease, and is taken over. -/
def takeoverRun : List (WorkerPool.Event (Fin 2) Input Event) :=
  lateCopyRun ++ [.worker 1 .proceed, .worker 1 .proceed,
    .worker 1 (.cleanup (hours 2) 1), .worker 1 .proceed, .worker 1 (.claim ⟨21⟩ .none),
    .environment (.tick (hours 3)),
    .worker 0 (.cleanup (hours 3) 1), .worker 0 .proceed, .worker 0 (.claim ⟨22⟩ .none)]

theorem sample_takeover :
    ∃ pool, (program sampleFormats sampleSettings).Leads .all samplePool pool ∧
      ((pool.phase 1).claim, (pool.phase 0).claim, pool.store.db.schedule.reconciliationClaim) =
        (some ⟨⟨5⟩, ⟨21⟩⟩, some ⟨⟨5⟩, ⟨22⟩⟩, some ⟨⟨5⟩, ⟨22⟩, hours 3 + seconds 60⟩) :=
  Program.leads_of_exec_map takeoverRun (by decide +kernel)

/-- The claim of the stalled runner is never recorded again. -/
theorem reconciliation_lease_sample : ∃ pool : Pool (Fin 2),
    Reachable sampleFormats sampleSettings pool ∧
    (pool.phase 1).claim = some ⟨⟨5⟩, ⟨21⟩⟩ ∧
    ∀ pool', (program sampleFormats sampleSettings).Leads .all pool pool' →
      claimMatches pool'.store.db.schedule ⟨⟨5⟩, ⟨21⟩⟩ = false := by
  obtain ⟨pool, hleads, hread⟩ := sample_takeover
  simp only [Prod.mk.injEq] at hread
  obtain ⟨hstalled, -, hrecorded⟩ := hread
  have hreachable : Reachable sampleFormats sampleSettings pool :=
    ⟨samplePool, samplePool_start, hleads⟩
  have hlost : claimMatches pool.store.db.schedule ⟨⟨5⟩, ⟨21⟩⟩ = false := by
    simp [claimMatches, hrecorded]
  exact ⟨pool, hreachable, hstalled,
    ((reconciliation_lease hreachable).2.1 1 _ hstalled hlost).2⟩

end Platform

end Splitbind
