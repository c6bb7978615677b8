import Splitbind.Retention.Platform

/-!
# Steps — everything one step of a call or a cleanup run can do

`Stepped` lists what a step does to the store, by the phase it starts from; the program takes no
other steps.  Every later invariant is a case analysis on it.
-/

namespace Splitbind

open Transaction WorkerPool

namespace Platform

/-! ## 1. What the transactions do -/

/-- The store after a commit. -/
def commit (store : Store) (db : Database) : Store := { store with db := db }

/-- The database with another user log. -/
def audited (db : Database) (audit : List AuditEvent) : Database := { db with audit := audit }

theorem beginCreate_cases {now : Instant} {actor : User} {request : CreateRequest}
    {uploadId correlationId : UUID} {db db' : Database} {promotion : PromotionCall}
    (h : beginCreate now actor request uploadId correlationId db = .ok (promotion, db')) :
    ∃ upload ∈ db.uploads, upload.id = uploadId ∧ promotion.request.kind = request.kind ∧
      upload.organizationId = actor.organizationId ∧ upload.purpose = request.kind.purpose ∧
      upload.promotionStatus = .none ∧ upload.promotionTargetKey = none ∧
      upload.promotionTargetDeletedAt = none ∧
      promotion.upload = upload.promoted .copying none now ∧
      db' = db.saveUpload promotion.upload := by
  simp only [beginCreate, bind_eq_ok] at h
  obtain ⟨-, -, h⟩ := h
  cases request with
  | issuance recipientId =>
    simp only [bind_eq_ok, pure_eq_ok, Prod.exists, Prod.mk.injEq] at h
    obtain ⟨recipient, -, reserved, db₁, hreserve, rfl, rfl⟩ := h
    obtain ⟨upload, hmem, hid, horganization, -, hpurpose, hstatus, hkey, hdeleted, rfl, rfl⟩ :=
      reservePromotion_cases hreserve
    exact ⟨upload, hmem, hid, rfl, horganization, hpurpose, hstatus, hkey, hdeleted, rfl, rfl⟩
  | verification =>
    simp only [bind_eq_ok, pure_eq_ok, Prod.exists, Prod.mk.injEq] at h
    obtain ⟨reserved, db₁, hreserve, rfl, rfl⟩ := h
    obtain ⟨upload, hmem, hid, horganization, -, hpurpose, hstatus, hkey, hdeleted, rfl, rfl⟩ :=
      reservePromotion_cases hreserve
    exact ⟨upload, hmem, hid, rfl, horganization, hpurpose, hstatus, hkey, hdeleted, rfl, rfl⟩

theorem recordCreateDenial_audited (actor : User) (kind : JobKind) (correlationId : UUID)
    (error : Raised) (db : Database) :
    ∃ audit, recordCreateDenial actor kind correlationId error db = audited db audit := by
  unfold recordCreateDenial
  split
  · exact ⟨_, rfl⟩
  · exact ⟨db.audit, rfl⟩

/-- An orphan is deleted once, after its upload was attached. -/
theorem deleteAttachedOrphanSource_cases {stored : Bool} {actor : User}
    {uploadId correlationId : UUID} {now : Instant} {db db' : Database} {key : Option ObjectKey}
    (h : deleteAttachedOrphanSource stored actor uploadId correlationId now db = .ok (key, db')) :
    (key = none ∧ db' = db) ∨
      ∃ upload ∈ db.uploads, upload.id = uploadId ∧ upload.orphanDeletedAt = none ∧
        key = some upload.objectKey ∧ keyIsOwned upload .orphan upload.objectKey = true ∧
        ∃ audit, db' = audited (db.saveUpload (upload.deleted .orphanDeletedAt now)) audit := by
  simp only [deleteAttachedOrphanSource, bind_eq_ok, found_eq_ok] at h
  obtain ⟨upload, hfind, h⟩ := h
  have hrow := List.find?_some hfind
  simp only [decide_eq_true_eq] at hrow
  split at h
  · simp only [pure_eq_ok, Prod.mk.injEq] at h
    exact .inl ⟨h.1.symm, h.2.symm⟩
  · rename_i hnone
    simp only [bind_eq_ok, exists_unit, raiseIf_eq_ok, pure_eq_ok, Prod.mk.injEq, not_not] at h
    obtain ⟨-, howned, -, rfl, rfl⟩ := h
    exact .inr ⟨upload, List.mem_of_find?_eq_some hfind, hrow.1, not_not.mp hnone, rfl, howned,
      _, rfl⟩

theorem fencedTarget_cases {uploadId : UUID} {db : Database} {key : Option ObjectKey}
    (h : fencedTarget uploadId db = .ok key) :
    key = none ∨ ∃ upload ∈ db.uploads, upload.id = uploadId ∧
      upload.promotionTargetDeletedAt ≠ none ∧ upload.promotionTargetKey = key := by
  simp only [fencedTarget, bind_eq_ok, found_eq_ok] at h
  obtain ⟨upload, hfind, h⟩ := h
  split at h
  · simp only [pure_eq_ok] at h
    exact .inl h.symm
  · rename_i hdeleted
    simp only [pure_eq_ok] at h
    rcases hkey : key with _ | target
    · exact .inl rfl
    · rw [hkey, Option.filter_eq_some_iff] at h
      have hid := List.find?_some hfind
      simp only [decide_eq_true_eq] at hid
      exact .inr ⟨upload, List.mem_of_find?_eq_some hfind, hid, hdeleted, h.1⟩

theorem leaseReconciliation_cases (leaseSeconds : Nat) (now : Instant) (token uploadId : UUID)
    (db : Database) :
    (leaseReconciliation leaseSeconds now token uploadId db = (none, db.clearClaim) ∧
      ∀ upload ∈ db.uploads, upload.id = uploadId → upload.promotionTargetDeletedAt ≠ none →
        (db.uploads.map (·.id)).Nodup → False) ∨
    ∃ upload ∈ db.uploads, upload.id = uploadId ∧ upload.promotionTargetDeletedAt ≠ none ∧
      leaseReconciliation leaseSeconds now token uploadId db =
        (some ⟨upload.id, token⟩, db.saveSchedule { db.schedule with
          reconciliationClaim := some ⟨upload.id, token, now + seconds leaseSeconds⟩
          hasRun := true }) := by
  unfold leaseReconciliation
  rcases hfind : db.uploads.find? (·.id = uploadId) with _ | record
  · refine .inl ⟨by simp only [hfind], fun upload hmem hid _ _ ↦ ?_⟩
    simpa [hid] using List.find?_eq_none.mp hfind upload hmem
  · have hid := List.find?_some hfind
    simp only [decide_eq_true_eq] at hid
    by_cases hdeleted : record.promotionTargetDeletedAt = none
    · refine .inl ⟨by simp only [hfind, if_pos hdeleted], fun upload hmem hupload hne hunique ↦ hne ?_⟩
      have hsame := List.inj_on_of_nodup_map hunique hmem (List.mem_of_find?_eq_some hfind)
        (hupload.trans hid.symm)
      rw [hsame, hdeleted]
    · exact .inr ⟨record, List.mem_of_find?_eq_some hfind, hid, hdeleted,
        by simp only [hfind, if_neg hdeleted]⟩

/-- A claim either leaves the schedule alone, clears a claim on nothing, or leases a tombstone:
the one whose lease has expired, or the next one when there is none. -/
theorem claimReconciliation_cases (leaseSeconds : Nat) (now : Instant) (token : UUID)
    (db : Database) :
    (claimReconciliation leaseSeconds now token db = (none, db)) ∨
    (claimReconciliation leaseSeconds now token db = (none, db.clearClaim) ∧
      ∀ lease ∈ db.schedule.reconciliationClaim, lease.expiresAt ≤ now ∧
        ∀ upload ∈ db.uploads, upload.id = lease.uploadId → upload.promotionTargetDeletedAt ≠ none →
          (db.uploads.map (·.id)).Nodup → False) ∨
    ∃ upload ∈ db.uploads, upload.promotionTargetDeletedAt ≠ none ∧
      (∀ lease ∈ db.schedule.reconciliationClaim, lease.expiresAt ≤ now ∧
        lease.uploadId = upload.id) ∧
      claimReconciliation leaseSeconds now token db =
        (some ⟨upload.id, token⟩, db.saveSchedule { db.schedule with
          reconciliationClaim := some ⟨upload.id, token, now + seconds leaseSeconds⟩
          hasRun := true }) := by
  unfold claimReconciliation
  rcases hclaim : db.schedule.reconciliationClaim with _ | lease
  -- no claim stands, so the cursor says which tombstone is next
  · rcases hnext : nextReconciliationCandidate db.schedule db with _ | uploadId
    · exact .inl rfl
    · rcases leaseReconciliation_cases leaseSeconds now token uploadId db with
        ⟨heq, -⟩ | ⟨upload, hmem, hid, hdeleted, heq⟩
      · exact .inr (.inl ⟨heq, by simp⟩)
      · exact .inr (.inr ⟨upload, hmem, hdeleted, by simp, heq⟩)
  -- a claim stands: it is respected until it expires and then taken over with its row
  · by_cases hlive : lease.expiresAt > now
    · exact .inl (by simp only [if_pos hlive])
    · simp only [if_neg hlive, Option.mem_def, Option.some.injEq, forall_eq']
      rw [not_lt] at hlive
      rcases leaseReconciliation_cases leaseSeconds now token lease.uploadId db with
        ⟨heq, hnone⟩ | ⟨upload, hmem, hid, hdeleted, heq⟩
      · exact .inr (.inl ⟨heq, hlive, hnone⟩)
      · exact .inr (.inr ⟨upload, hmem, hdeleted, ⟨hlive, hid.symm⟩, heq⟩)

/-- What recording an attempt does: nothing without the claim, nothing but dropping a claim on
nothing, an acknowledgement, or a retry. -/
theorem recordAttempt_cases (store : Store) (run : CleanupRun) (claim : ReconciliationClaim)
    (attempt : ReconciliationAttempt) :
    (claimMatches store.db.schedule claim = false ∧
      recordAttempt store run claim attempt = store.db) ∨
    (claimMatches store.db.schedule claim = true ∧
      recordAttempt store run claim attempt = store.db.clearClaim ∧
      ∀ upload ∈ store.db.uploads, upload.id = claim.uploadId →
        upload.promotionTargetDeletedAt ≠ none → (store.db.uploads.map (·.id)).Nodup → False) ∨
    ∃ upload ∈ store.db.uploads, ∃ deletedAt, upload.id = claim.uploadId ∧
      upload.promotionTargetDeletedAt = some deletedAt ∧
      claimMatches store.db.schedule claim = true ∧
      recordAttempt store run claim attempt =
        (recordPromotionReconciliation upload (observedAt run.now store.clock upload)
          (attempt.acknowledge && attempt.succeeded) store.db).saveSchedule
        (if attempt.acknowledge then
          { store.db.schedule with
            reconciliationCursor := some ⟨deletedAt, upload.id⟩
            reconciliationClaim := none
            nextLane := .ordinary
            hasRun := true }
        else { store.db.schedule with nextLane := .ordinary, hasRun := true }) := by
  -- a claim that is no longer the schedule's writes nothing
  by_cases hmatches : claimMatches store.db.schedule claim = true
  · right
    rcases hfind : store.db.uploads.find? (·.id = claim.uploadId) with _ | record
    · left
      refine ⟨hmatches, ?_, fun upload hmem hid _ _ ↦ ?_⟩
      · simp [recordAttempt, ackReconciliation, recordClaimRetry, hmatches, hfind]
      · simpa [hid] using List.find?_eq_none.mp hfind upload hmem
    · have hid := List.find?_some hfind
      have hmem := List.mem_of_find?_eq_some hfind
      simp only [decide_eq_true_eq] at hid
      rcases hdeleted : record.promotionTargetDeletedAt with _ | deletedAt
      · left
        refine ⟨hmatches, ?_, fun upload hupload hsame hne hunique ↦ hne ?_⟩
        · simp [recordAttempt, ackReconciliation, recordClaimRetry, hmatches, hfind, hdeleted]
        · rw [List.inj_on_of_nodup_map hunique hupload hmem (hsame.trans hid.symm), hdeleted]
      · right
        refine ⟨record, hmem, deletedAt, hid, hdeleted, hmatches, ?_⟩
        cases hack : attempt.acknowledge <;>
          simp [recordAttempt, ackReconciliation, recordClaimRetry, hmatches, hfind, hdeleted, hack]
  · left
    rw [Bool.not_eq_true] at hmatches
    refine ⟨hmatches, ?_⟩
    simp [recordAttempt, ackReconciliation, recordClaimRetry, hmatches]

/-! ## 2. What a step does -/

/-- A deletion of an orphan key, which a call may see fail after it has happened. -/
def orphanDeleted (objects objects' : ObjectStore) : Prop :=
  objects' = objects ∨ ∃ purpose organization object,
    objects' = objects.delete (.orphan purpose organization object)

variable (formats : FormatChecker) (settings : ServiceSettings)

inductive Stepped (store : Store) : Phase → Store → Phase → Prop
  | refused (audit : List AuditEvent) :
      Stepped store .idle (commit store (audited store.db audit)) .idle
  | began (upload : UploadRequest) (promotion : PromotionCall) (audit : List AuditEvent)
      (p' : Phase) (hmem : upload ∈ store.db.uploads) (hfree : .upload upload.id ∉ store.locked)
      (hstatus : upload.promotionStatus = .none) (hkey : upload.promotionTargetKey = none)
      (hdeleted : upload.promotionTargetDeletedAt = none)
      (hupload : promotion.upload = upload.promoted .copying none store.clock)
      (hp' : p' = .reserved promotion ∨ p' = .idle) :
      Stepped store .idle
        (commit store (audited (store.db.saveUpload promotion.upload) audit)) p'
  | uncopied (promotion : PromotionCall) (code : String) (error : Raised)
      (hnone : promotion.upload.promotionTargetKey = none) :
      Stepped store (.reserved promotion) store (.failing promotion code error)
  | copied (promotion : PromotionCall) (target : ObjectKey) (content : Sha256)
      (htarget : promotion.upload.promotionTargetKey = some target) :
      Stepped store (.reserved promotion)
        { store with
          copies := target :: store.copies, objects := store.objects.put target content }
        (.copied promotion)
  | copyFailed (promotion : PromotionCall) (target : ObjectKey) (code : String) (error : Raised)
      (htarget : promotion.upload.promotionTargetKey = some target) :
      Stepped store (.reserved promotion) { store with copies := target :: store.copies }
        (.failing promotion code error)
  | attached (promotion : PromotionCall) (ids : FreshIds) (locked : UploadRequest)
      (sha256 : Sha256) (job : Job) (p' : Phase)
      (hfree : .upload promotion.upload.id ∉ store.locked)
      (hattaches : Attaches formats promotion ids store.db locked sha256 job)
      (hjob : job = newJob settings.jobTimeoutSeconds promotion (promotion.request.target ids) ids
        store.clock)
      (hp' : (∃ domainId, p' = .attached promotion domainId) ∨
        ∃ code error, p' = .failing promotion code error) :
      Stepped store (.copied promotion)
        (commit store (attachedDatabase promotion locked ids sha256 job store.clock store.db)) p'
  | unattached (promotion : PromotionCall) (code : String) (error : Raised) :
      Stepped store (.copied promotion) store (.failing promotion code error)
  | refenced (promotion : PromotionCall) (code : String) (error : Raised) (upload : UploadRequest)
      (key : ObjectKey) (outcome : DeleteOutcome) (hmem : upload ∈ store.db.uploads)
      (hdeleted : upload.promotionTargetDeletedAt ≠ none)
      (hkey : upload.promotionTargetKey = some key) :
      Stepped store (.failing promotion code error)
        { store with objects := outcome.apply store.objects key } (.fenced promotion code error)
  | unfenced (promotion : PromotionCall) (code : String) (error : Raised) :
      Stepped store (.failing promotion code error) store (.fenced promotion code error)
  | markedFailed (promotion : PromotionCall) (code : String) (error : Raised)
      (upload : UploadRequest) (audit : List AuditEvent) (hmem : upload ∈ store.db.uploads)
      (hfree : .upload upload.id ∉ store.locked) (hstatus : upload.promotionStatus = .copying)
      (htarget : upload.promotionTargetKey = some upload.target)
      (hdeleted : upload.promotionTargetDeletedAt = none) :
      Stepped store (.fenced promotion code error)
        (commit store (audited
          (store.db.saveUpload (upload.promoted .failed (some code) store.clock)) audit)) .idle
  | unmarked (promotion : PromotionCall) (code : String) (error : Raised)
      (audit : List AuditEvent) :
      Stepped store (.fenced promotion code error) (commit store (audited store.db audit)) .idle
  | orphanRecorded (promotion : PromotionCall) (domainId : UUID) (upload : UploadRequest)
      (audit : List AuditEvent) (objects : ObjectStore) (hmem : upload ∈ store.db.uploads)
      (hfree : .upload upload.id ∉ store.locked) (hnone : upload.orphanDeletedAt = none)
      (hobjects : orphanDeleted store.objects objects) :
      Stepped store (.attached promotion domainId)
        { store with
          db := audited (store.db.saveUpload (upload.deleted .orphanDeletedAt store.clock)) audit
          objects := objects } .idle
  | orphanDeferred (promotion : PromotionCall) (domainId : UUID) (audit : List AuditEvent)
      (objects : ObjectStore) (hobjects : orphanDeleted store.objects objects) :
      Stepped store (.attached promotion domainId)
        { store with db := audited store.db audit, objects := objects } .idle
  | started (run : CleanupRun) (hnow : run.now ≤ store.clock) :
      Stepped store .idle store (.cleaning run)
  | stopped (p : Phase) (hlock : p.lock = none) : Stepped store p store .idle
  | turned (run run' : CleanupRun) (p p' : Phase) (hnow : run'.now = run.now)
      (hp : p = .cleaning run ∨ (∃ fallback, p = .ordinary run fallback) ∨
        ∃ candidate, p = .selected run candidate)
      (hp' : (∃ fallback, p' = .ordinary run' fallback) ∨
        (∃ fallback, p' = .reconciling run' fallback) ∨
        (∃ candidate, p' = .selected run' candidate) ∨ p' = .tried run') :
      Stepped store p store p'
  | locked (run : CleanupRun) (candidate : Candidate) (record : LockedRecord)
      (hfree : lockOf candidate ∉ store.locked)
      (hrecord : candidate.record store.db = some record)
      (heligible : record.eligible candidate.category run.now = true) :
      Stepped store (.selected run candidate)
        { store with locked := lockOf candidate :: store.locked }
        (.checking run candidate record candidate.category.jobQueries)
  | passed (run : CleanupRun) (candidate : Candidate) (record : LockedRecord) (query : JobQuery)
      (queries : List JobQuery) (hpasses : candidate.passes query run.now store.db = true) :
      Stepped store (.checking run candidate record (query :: queries)) store
        (.checking run candidate record queries)
  | owned (run : CleanupRun) (candidate : Candidate) (record : LockedRecord) (key : ObjectKey)
      (hkey : record.ownedKey candidate.category = some key) :
      Stepped store (.checking run candidate record []) store (.deleting run candidate record key)
  | left (run : CleanupRun) (candidate : Candidate) (record : LockedRecord)
      (queries : List JobQuery) :
      Stepped store (.checking run candidate record queries) (release store candidate) (.tried run)
  | deleted (run : CleanupRun) (candidate : Candidate) (record : LockedRecord) (key : ObjectKey) :
      Stepped store (.deleting run candidate record key)
        { store with objects := store.objects.delete key } (.deleted run candidate record)
  | deletionFailed (run : CleanupRun) (candidate : Candidate) (record : LockedRecord)
      (key : ObjectKey) (outcome : DeleteOutcome) (hfailed : outcome ≠ .deleted) :
      Stepped store (.deleting run candidate record key)
        (release { store with
          objects := outcome.apply store.objects key
          db := auditFailure candidate record store.db } candidate) (.tried run)
  | recorded (run : CleanupRun) (candidate : Candidate) (record : LockedRecord) (p' : Phase)
      (hp' : p' = .tried run ∨ p' = .idle) :
      Stepped store (.deleted run candidate record)
        (release (commit store (recordDeletionEvidence candidate record run.now store.db))
          candidate) p'
  | unrecorded (run : CleanupRun) (candidate : Candidate) (record : LockedRecord) :
      Stepped store (.deleted run candidate record) (release store candidate) .idle
  | marked (run : CleanupRun) :
      Stepped store (.tried run) (commit store (markOrdinaryAttempt store.db)) (.cleaning run)
  | unclaimed (run : CleanupRun) (fallback : Bool) (token : UUID) (p' : Phase)
      (hp' : p' = .idle ∨ p' = .ordinary run true) :
      Stepped store (.reconciling run fallback) { store with tokens := token :: store.tokens } p'
  | claimCleared (run : CleanupRun) (fallback : Bool) (token : UUID) (p' : Phase)
      (hexpired : ∀ lease ∈ store.db.schedule.reconciliationClaim,
        lease.expiresAt ≤ store.clock ∧ ∀ upload ∈ store.db.uploads,
          upload.id = lease.uploadId → upload.promotionTargetDeletedAt ≠ none →
            (store.db.uploads.map (·.id)).Nodup → False)
      (hp' : p' = .idle ∨ p' = .ordinary run true) :
      Stepped store (.reconciling run fallback)
        { store with db := store.db.clearClaim, tokens := token :: store.tokens } p'
  | claimed (run : CleanupRun) (fallback : Bool) (token : UUID) (upload : UploadRequest)
      (p' : Phase) (hfresh : token ∉ store.tokens) (hmem : upload ∈ store.db.uploads)
      (hdeleted : upload.promotionTargetDeletedAt ≠ none)
      (hexpired : ∀ lease ∈ store.db.schedule.reconciliationClaim,
        lease.expiresAt ≤ store.clock ∧ lease.uploadId = upload.id)
      (hp' : p' = .claimed run ⟨upload.id, token⟩ ∨ p' = .idle) :
      Stepped store (.reconciling run fallback)
        { store with
          db := store.db.saveSchedule { store.db.schedule with
            reconciliationClaim := some ⟨upload.id, token,
              store.clock + seconds settings.reconciliationLeaseSeconds⟩
            hasRun := true }
          tokens := token :: store.tokens } p'
  | unattempted (run : CleanupRun) (claim : ReconciliationClaim)
      (attempt : ReconciliationAttempt)
      (htarget : reconciliationTarget claim store.db = .inl attempt) :
      Stepped store (.claimed run claim) store (.attempted run claim attempt)
  | attempted (run : CleanupRun) (claim : ReconciliationClaim) (upload : UploadRequest)
      (key : ObjectKey) (outcome : DeleteOutcome) (hmem : upload ∈ store.db.uploads)
      (hid : upload.id = claim.uploadId) (hdeleted : upload.promotionTargetDeletedAt ≠ none)
      (hkey : upload.promotionTargetKey = some key) :
      Stepped store (.claimed run claim)
        { store with objects := outcome.apply store.objects key }
        (.attempted run claim (deletionAttempt (outcome = .deleted)))
  | ignored (run : CleanupRun) (claim : ReconciliationClaim) (attempt : ReconciliationAttempt)
      (hmatches : claimMatches store.db.schedule claim = false) :
      Stepped store (.attempted run claim attempt) store (.cleaning run)
  | dropped (run : CleanupRun) (claim : ReconciliationClaim) (attempt : ReconciliationAttempt)
      (p' : Phase) (hmatches : claimMatches store.db.schedule claim = true)
      (hgone : ∀ upload ∈ store.db.uploads, upload.id = claim.uploadId →
        upload.promotionTargetDeletedAt ≠ none → (store.db.uploads.map (·.id)).Nodup → False)
      (hp' : p' = .cleaning run ∨ p' = .idle) :
      Stepped store (.attempted run claim attempt) (commit store store.db.clearClaim) p'
  | reconciled (run : CleanupRun) (claim : ReconciliationClaim) (attempt : ReconciliationAttempt)
      (upload : UploadRequest) (deletedAt : Instant) (p' : Phase)
      (hmatches : claimMatches store.db.schedule claim = true) (hmem : upload ∈ store.db.uploads)
      (hfree : .upload upload.id ∉ store.locked) (hid : upload.id = claim.uploadId)
      (hdeleted : upload.promotionTargetDeletedAt = some deletedAt)
      (hp' : p' = .cleaning run ∨ p' = .idle) :
      Stepped store (.attempted run claim attempt)
        (commit store ((recordPromotionReconciliation upload
            (observedAt run.now store.clock upload) (attempt.acknowledge && attempt.succeeded)
            store.db).saveSchedule
          (if attempt.acknowledge then
            { store.db.schedule with
              reconciliationCursor := some ⟨deletedAt, upload.id⟩
              reconciliationClaim := none
              nextLane := .ordinary
              hasRun := true }
          else { store.db.schedule with nextLane := .ordinary, hasRun := true }))) p'
  | crashed (p : Phase) : Stepped store p (p.crash store) .idle

/-! ## 3. The program takes only these steps -/

variable {formats settings} {store store' : Store} {p' : Phase}

private theorem create_stepped {actor : User} {request : CreateRequest}
    {uploadId correlationId : UUID} {fault : Fault}
    (h : call formats settings store .idle (.create actor request uploadId correlationId fault) =
      some (store', p')) : Stepped formats settings store .idle store' p' := by
  simp only [call] at h
  split at h
  · simp at h
  rename_i hfree
  split at h
  · rename_i promotion db hattempt
    simp only [Option.some.injEq, Prod.mk.injEq] at h
    obtain ⟨rfl, rfl⟩ := h
    obtain ⟨upload, hmem, rfl, -, -, -, hstatus, hkey, hdeleted, hupload, rfl⟩ :=
      beginCreate_cases (attempt_ok hattempt)
    exact .began upload promotion store.db.audit _ hmem hfree hstatus hkey hdeleted hupload
      (.inl rfl)
  · rename_i error db hattempt
    simp only [Option.some.injEq, Prod.mk.injEq] at h
    obtain ⟨rfl, rfl⟩ := h
    obtain ⟨audit, haudit⟩ :=
      recordCreateDenial_audited actor request.kind correlationId error db
    rw [haudit]
    rcases attempt_error hattempt with rfl | ⟨promotion, hbody⟩
    · exact .refused audit
    · obtain ⟨upload, hmem, rfl, -, -, -, hstatus, hkey, hdeleted, hupload, rfl⟩ :=
        beginCreate_cases hbody
      exact .began upload promotion audit _ hmem hfree hstatus hkey hdeleted hupload (.inr rfl)

private theorem copy_stepped (promotion : PromotionCall) (content : Sha256)
    (outcome : CopyOutcome) :
    Stepped formats settings store (.reserved promotion)
      (copyUpload promotion content outcome store).1
      (copyUpload promotion content outcome store).2 := by
  unfold copyUpload
  split
  · rename_i hnone
    exact .uncopied promotion _ _ hnone
  · rename_i target htarget
    rcases copyVerified outcome promotion.upload with error | _
    · exact .copyFailed promotion target _ error htarget
    · exact .copied promotion target content htarget

private theorem attach_stepped {promotion : PromotionCall} {ids : FreshIds} {fault : Fault}
    (h : call formats settings store (.copied promotion) (.attach ids fault) = some (store', p')) :
    Stepped formats settings store (.copied promotion) store' p' := by
  simp only [call] at h
  split at h
  · simp at h
  rename_i hfree
  simp only [Store.transact, Option.some.injEq, Prod.mk.injEq] at h
  obtain ⟨rfl, rfl⟩ := h
  rcases hattempt : attempt fault Raised.databaseUnavailable (attachPromotion formats
    settings.jobTimeoutSeconds promotion ids store.clock store.db) store.db with ⟨error | job, db⟩
  · rcases attempt_error hattempt with rfl | ⟨job, hbody⟩
    · exact .unattached promotion _ _
    · obtain ⟨locked, sha256, hattaches, hjob, rfl⟩ := attachPromotion_cases hbody
      exact .attached promotion ids locked sha256 job _ hfree hattaches hjob (.inr ⟨_, _, rfl⟩)
  · obtain ⟨locked, sha256, hattaches, hjob, rfl⟩ := attachPromotion_cases (attempt_ok hattempt)
    exact .attached promotion ids locked sha256 job _ hfree hattaches hjob (.inl ⟨_, rfl⟩)

private theorem fence_stepped {promotion : PromotionCall} {code : String} {error : Raised}
    {outcome : DeleteOutcome}
    (h : call formats settings store (.failing promotion code error) (.fence outcome) =
      some (store', p')) :
    Stepped formats settings store (.failing promotion code error) store' p' := by
  simp only [call] at h
  split at h
  · simp at h
  split at h
  · rename_i key hkey
    simp only [Option.some.injEq, Prod.mk.injEq] at h
    obtain ⟨rfl, rfl⟩ := h
    rcases fencedTarget_cases hkey with rfl | ⟨upload, hmem, -, hdeleted, htarget⟩
    · exact .unfenced promotion code error
    · rcases key with _ | key
      · exact .unfenced promotion code error
      · exact .refenced promotion code error upload key outcome hmem hdeleted htarget
  · simp only [Option.some.injEq, Prod.mk.injEq] at h
    obtain ⟨rfl, rfl⟩ := h
    exact .unfenced promotion code error

private theorem markFailed_stepped {promotion : PromotionCall} {code : String} {error : Raised}
    {fault : Fault}
    (h : call formats settings store (.fenced promotion code error) (.markFailed fault) =
      some (store', p')) :
    Stepped formats settings store (.fenced promotion code error) store' p' := by
  simp only [call] at h
  split at h
  · simp at h
  rename_i hfree
  simp only [Option.some.injEq, Prod.mk.injEq] at h
  obtain ⟨rfl, rfl⟩ := h
  set body := markFailed promotion.upload.id promotion.upload.promotionTargetKey code store.clock
    store.db with hbody
  obtain ⟨audit, haudit⟩ := recordCreateDenial_audited promotion.actor promotion.request.kind
    promotion.correlationId error (attempt fault Raised.databaseUnavailable body store.db).2
  rw [haudit]
  have hcommitted : ∀ db, body = .ok (⟨⟩, db) → Stepped formats settings store
      (.fenced promotion code error) (commit store (audited db audit)) .idle := by
    intro db hdb
    rcases markFailed_cases hdb with rfl | ⟨upload, hmem, hid, hstatus, htarget, hdeleted, rfl⟩
    · exact .unmarked promotion code error audit
    · exact .markedFailed promotion code error upload audit hmem (hid ▸ hfree) hstatus htarget
        hdeleted
  rcases attempt_cases fault Raised.databaseUnavailable body store.db with
    ⟨_, db, hdb, heq, -⟩ | ⟨heq, -⟩
  · rw [heq]
    exact hcommitted db hdb
  · rw [heq]
    exact .unmarked promotion code error audit

/-- Whatever the storage does, it does to the orphan key of the upload. -/
private theorem orphanObjects_deleted (promotion : PromotionCall) (outcome : DeleteOutcome)
    (store : Store) : orphanDeleted store.objects (orphanObjects promotion outcome store) := by
  unfold orphanObjects
  split
  · rename_i key db hreached
    rcases deleteAttachedOrphanSource_cases hreached with ⟨rfl, -⟩ |
      ⟨upload, -, -, -, rfl, howned, -⟩
    · exact .inl rfl
    · cases outcome with
      | failed => exact .inl rfl
      | deleted | deletedThenFailed =>
        cases hkey : upload.objectKey with
        | orphan purpose organization object =>
          exact .inr ⟨purpose, organization, object, rfl⟩
        | promotedInput | issuanceOutput => simp [hkey, keyIsOwned] at howned
  · exact .inl rfl

private theorem deleteOrphan_stepped {promotion : PromotionCall} {domainId : UUID}
    {outcome : DeleteOutcome} {fault : Fault}
    (h : call formats settings store (.attached promotion domainId)
      (.deleteOrphan outcome fault) = some (store', p')) :
    Stepped formats settings store (.attached promotion domainId) store' p' := by
  simp only [call] at h
  split at h
  · simp at h
  rename_i hfree
  have hobjects := orphanObjects_deleted promotion outcome store
  split at h
  · rename_i key db hattempt
    simp only [Option.some.injEq, Prod.mk.injEq] at h
    obtain ⟨rfl, rfl⟩ := h
    rcases deleteAttachedOrphanSource_cases (attempt_ok hattempt) with ⟨-, rfl⟩ |
      ⟨upload, hmem, hid, hnone, -, -, audit, rfl⟩
    · exact .orphanDeferred promotion domainId store.db.audit _ hobjects
    · exact .orphanRecorded promotion domainId upload audit _ hmem (hid ▸ hfree) hnone hobjects
  · rename_i error db hattempt
    simp only [Option.some.injEq, Prod.mk.injEq] at h
    obtain ⟨rfl, rfl⟩ := h
    rcases attempt_error hattempt with rfl | ⟨key, hbody⟩
    · exact .orphanDeferred promotion domainId _ _ hobjects
    · rcases deleteAttachedOrphanSource_cases hbody with ⟨-, rfl⟩ |
        ⟨upload, hmem, hid, hnone, -, -, audit, rfl⟩
      · exact .orphanDeferred promotion domainId _ _ hobjects
      · exact .orphanRecorded promotion domainId upload _ _ hmem (hid ▸ hfree) hnone hobjects

private theorem lockCandidate_stepped (run : CleanupRun) (candidate : Candidate) :
    Stepped formats settings store (.selected run candidate)
      (lockCandidate store run candidate).1 (lockCandidate store run candidate).2 := by
  have htried : Stepped formats settings store (.selected run candidate) store (.tried run) :=
    .turned run run _ _ rfl (.inr (.inr ⟨candidate, rfl⟩)) (.inr (.inr (.inr rfl)))
  unfold lockCandidate
  split
  · exact htried
  rename_i hfree
  split
  · exact htried
  · rename_i record hrecord
    split
    · rename_i heligible
      exact .locked run candidate record hfree hrecord heligible
    · exact htried

private theorem checkCandidate_stepped (run : CleanupRun) (candidate : Candidate)
    (record : LockedRecord) (queries : List JobQuery) :
    Stepped formats settings store (.checking run candidate record queries)
      (checkCandidate store run candidate record queries).1
      (checkCandidate store run candidate record queries).2 := by
  unfold checkCandidate
  split
  · rename_i query queries
    split
    · rename_i hpasses
      exact .passed run candidate record query queries hpasses
    · exact .left run candidate record _
  · split
    · rename_i key hkey
      exact .owned run candidate record key hkey
    · exact .left run candidate record []

private theorem deleteCandidate_stepped (run : CleanupRun) (candidate : Candidate)
    (record : LockedRecord) (key : ObjectKey) (outcome : DeleteOutcome) :
    Stepped formats settings store (.deleting run candidate record key)
      (deleteCandidate store run candidate record key outcome).1
      (deleteCandidate store run candidate record key outcome).2 := by
  unfold deleteCandidate
  by_cases houtcome : outcome = .deleted
  · subst houtcome
    exact .deleted run candidate record key
  · simp only [if_neg houtcome]
    exact .deletionFailed run candidate record key outcome houtcome

private theorem commitDeletion_stepped (run : CleanupRun) (candidate : Candidate)
    (record : LockedRecord) (fault : Fault) :
    Stepped formats settings store (.deleted run candidate record)
      (commitDeletion store run candidate record fault).1
      (commitDeletion store run candidate record fault).2 := by
  cases fault with
  | none => exact .recorded run candidate record _ (.inl rfl)
  | acknowledgementLost => exact .recorded run candidate record _ (.inr rfl)
  | rolledBack => exact .unrecorded run candidate record

private theorem claim_stepped {run : CleanupRun} {fallback : Bool} {token : UUID} {fault : Fault}
    (h : call formats settings store (.reconciling run fallback) (.claim token fault) =
      some (store', p')) :
    Stepped formats settings store (.reconciling run fallback) store' p' := by
  simp only [call] at h
  split at h
  · simp at h
  rename_i hfresh
  rcases claimReconciliation_cases settings.reconciliationLeaseSeconds store.clock token store.db
    with hclaim | ⟨hclaim, hgone⟩ | ⟨upload, hmem, hdeleted, hexpired, hclaim⟩
  · rw [hclaim] at h
    cases fault <;> simp only [Option.some.injEq, Prod.mk.injEq] at h <;> obtain ⟨rfl, rfl⟩ := h
    · exact .unclaimed run fallback token _ (by cases fallback <;> simp)
    · exact .unclaimed run fallback token _ (.inl rfl)
    · exact .unclaimed run fallback token _ (.inl rfl)
  · rw [hclaim] at h
    cases fault <;> simp only [Option.some.injEq, Prod.mk.injEq] at h <;> obtain ⟨rfl, rfl⟩ := h
    · exact .claimCleared run fallback token _ hgone (by cases fallback <;> simp)
    · exact .unclaimed run fallback token _ (.inl rfl)
    · exact .claimCleared run fallback token _ hgone (.inl rfl)
  · rw [hclaim] at h
    cases fault <;> simp only [Option.some.injEq, Prod.mk.injEq] at h <;> obtain ⟨rfl, rfl⟩ := h
    · exact .claimed run fallback token upload _ hfresh hmem hdeleted hexpired (.inl rfl)
    · exact .unclaimed run fallback token _ (.inl rfl)
    · exact .claimed run fallback token upload _ hfresh hmem hdeleted hexpired (.inr rfl)

private theorem attemptClaim_stepped (run : CleanupRun) (claim : ReconciliationClaim)
    (outcome : DeleteOutcome) :
    Stepped formats settings store (.claimed run claim) (attemptClaim store run claim outcome).1
      (attemptClaim store run claim outcome).2 := by
  unfold attemptClaim
  split
  · rename_i attempt htarget
    exact .unattempted run claim attempt htarget
  · rename_i key htarget
    unfold reconciliationTarget at htarget
    split at htarget
    · simp at htarget
    rename_i upload hfind
    have hid := List.find?_some hfind
    simp only [decide_eq_true_eq] at hid
    split at htarget
    · simp at htarget
    rename_i hdeleted
    split at htarget
    · simp at htarget
    rename_i key' hkey
    obtain rfl := Sum.inr.inj htarget
    rw [Option.filter_eq_some_iff] at hkey
    exact .attempted run claim upload key' outcome (List.mem_of_find?_eq_some hfind) hid hdeleted
      hkey.1

private theorem record_stepped {run : CleanupRun} {claim : ReconciliationClaim}
    {attempt : ReconciliationAttempt} {fault : Fault}
    (h : call formats settings store (.attempted run claim attempt) (.record fault) =
      some (store', p')) :
    Stepped formats settings store (.attempted run claim attempt) store' p' := by
  simp only [call] at h
  split at h
  · simp at h
  rename_i hfree
  have hrecorded : ∀ p', p' = .cleaning run ∨ p' = .idle → Stepped formats settings store
      (.attempted run claim attempt) (commit store (recordAttempt store run claim attempt)) p' := by
    intro p' hp'
    rcases recordAttempt_cases store run claim attempt with ⟨hmatches, heq⟩ |
      ⟨hmatches, heq, hgone⟩ | ⟨upload, hmem, deletedAt, hid, hdeleted, hmatches, heq⟩
    · rw [heq]
      rcases hp' with rfl | rfl
      · exact .ignored run claim attempt hmatches
      · exact .stopped _ rfl
    · rw [heq]
      exact .dropped run claim attempt p' hmatches hgone hp'
    · rw [heq]
      exact .reconciled run claim attempt upload deletedAt p' hmatches hmem (hid ▸ hfree) hid
        hdeleted hp'
  cases fault <;> simp only [Option.some.injEq, Prod.mk.injEq] at h <;> obtain ⟨rfl, rfl⟩ := h
  · exact hrecorded _ (.inl rfl)
  · exact .stopped _ rfl
  · exact hrecorded _ (.inr rfl)

/-- One step of a call or a cleanup run is one of those listed. -/
theorem call_stepped {p : Phase} {input : Input}
    (h : call formats settings store p input = some (store', p')) :
    Stepped formats settings store p store' p' := by
  -- one case per phase of a call, in the order in which `call` reads them
  unfold call at h
  split at h
  · exact create_stepped h
  · obtain ⟨rfl, rfl⟩ := Prod.mk.inj (Option.some.inj h)
    exact copy_stepped _ _ _
  · exact attach_stepped h
  · exact fence_stepped h
  · exact markFailed_stepped h
  · exact deleteOrphan_stepped h
  · split at h
    · rename_i hnow
      obtain ⟨rfl, rfl⟩ := Prod.mk.inj (Option.some.inj h)
      exact .started _ hnow.1
    · simp at h
  · rename_i run
    split at h
    · obtain ⟨rfl, rfl⟩ := Prod.mk.inj (Option.some.inj h)
      exact .stopped _ rfl
    · split at h <;> obtain ⟨rfl, rfl⟩ := Prod.mk.inj (Option.some.inj h)
      · exact .turned run _ _ _ (by rfl) (.inl rfl) (.inl ⟨false, rfl⟩)
      · exact .turned run _ _ _ (by rfl) (.inl rfl) (.inr (.inl ⟨false, rfl⟩))
  · rename_i run fallback
    split at h <;> obtain ⟨rfl, rfl⟩ := Prod.mk.inj (Option.some.inj h)
    · exact .turned run _ _ _ (by rfl) (.inr (.inl ⟨fallback, rfl⟩)) (.inr (.inr (.inl ⟨_, rfl⟩)))
    · cases fallback with
      | true => exact .stopped _ rfl
      | false => exact .turned run run _ _ rfl (.inr (.inl ⟨false, rfl⟩)) (.inr (.inl ⟨true, rfl⟩))
  · obtain ⟨rfl, rfl⟩ := Prod.mk.inj (Option.some.inj h)
    exact lockCandidate_stepped _ _
  · obtain ⟨rfl, rfl⟩ := Prod.mk.inj (Option.some.inj h)
    exact checkCandidate_stepped _ _ _ _
  · obtain ⟨rfl, rfl⟩ := Prod.mk.inj (Option.some.inj h)
    exact deleteCandidate_stepped _ _ _ _ _
  · obtain ⟨rfl, rfl⟩ := Prod.mk.inj (Option.some.inj h)
    exact commitDeletion_stepped _ _ _ _
  · obtain ⟨rfl, rfl⟩ := Prod.mk.inj (Option.some.inj h)
    exact .marked _
  · exact claim_stepped h
  · obtain ⟨rfl, rfl⟩ := Prod.mk.inj (Option.some.inj h)
    exact attemptClaim_stepped _ _ _
  · exact record_stepped h
  · obtain ⟨rfl, rfl⟩ := Prod.mk.inj (Option.some.inj h)
    exact .crashed _
  · simp at h

end Platform

end Splitbind
