import Splitbind.Retention.Steps

/-!
# Changes — what any step does to the tables, and what the locks keep

`Change` lists the ways in which the upload, document, issuance, verification, job and outbox
tables change; the logs and the schedule may change with each of them.  A row that somebody else
has locked stays as it is.
-/

namespace Splitbind

open Transaction WorkerPool

namespace Platform

/-! ## 1. Changes -/

/-- What is written beside the tables. -/
structure Logs where
  audit : List AuditEvent
  systemAudit : List SystemAuditEvent
  schedule : CleanupScheduleState

def logged (db : Database) (logs : Logs) : Database :=
  { db with audit := logs.audit, systemAudit := logs.systemAudit, schedule := logs.schedule }

/-- The deletion timestamp of an upload row that a field stands for. -/
def deletionOf (upload : UploadRequest) (field : DeletionField) : Option Instant :=
  match field with
  | .orphanDeletedAt => upload.orphanDeletedAt
  | _ => upload.promotionTargetDeletedAt

/-- The writes to an upload row, other than attaching it. -/
inductive UploadChange (clock : Instant) (upload : UploadRequest) : UploadRequest → Prop
  | finalized (time : Instant) : UploadChange clock upload { upload with finalizedAt := some time }
  | reserved (hstatus : upload.promotionStatus = .none) (hkey : upload.promotionTargetKey = none)
      (hdeleted : upload.promotionTargetDeletedAt = none) :
      UploadChange clock upload (upload.promoted .copying none clock)
  | failed (code : String) (hstatus : upload.promotionStatus = .copying)
      (hkey : upload.promotionTargetKey = some upload.target)
      (hdeleted : upload.promotionTargetDeletedAt = none) :
      UploadChange clock upload (upload.promoted .failed (some code) clock)
  | deleted (field : DeletionField) (time : Instant)
      (hnone : deletionOf upload field = none) :
      UploadChange clock upload (upload.deleted field time)
  | reconciled (time : Instant) (hdeleted : upload.promotionTargetDeletedAt ≠ none)
      (hle : ∀ previous ∈ upload.promotionTargetReconciledAt, previous ≤ time) :
      UploadChange clock upload { upload with promotionTargetReconciledAt := some time }

variable (formats : FormatChecker) (settings : ServiceSettings)

/-- The ways the tables change, where `free` are the rows whose locks can be had. -/
inductive Change (free : Lock → Prop) (clock : Instant) (db : Database) : Database → Prop
  | kept (recipients : List Recipient) (logs : Logs)
      (hrecipients : (recipients.map (·.id)).Nodup) :
      Change free clock db (logged { db with recipients := recipients } logs)
  | created (row : UploadRequest) (logs : Logs) (hid : ∀ other ∈ db.uploads, other.id ≠ row.id)
      (hstatus : row.promotionStatus = .none) (hkey : row.promotionTargetKey = none)
      (hdeleted : row.promotionTargetDeletedAt = none)
      (hreconciled : row.promotionTargetReconciledAt = none) :
      Change free clock db (logged { db with uploads := db.uploads ++ [row] } logs)
  | saved (upload upload' : UploadRequest) (logs : Logs) (hmem : upload ∈ db.uploads)
      (hfree : free (.upload upload.id)) (hchange : UploadChange clock upload upload') :
      Change free clock db (logged (db.saveUpload upload') logs)
  | attached (promotion : PromotionCall) (ids : FreshIds) (locked : UploadRequest)
      (sha256 : Sha256) (job : Job) (hfree : free (.upload locked.id))
      (hattaches : Attaches formats promotion ids db locked sha256 job)
      (hjob : job = newJob settings.jobTimeoutSeconds promotion (promotion.request.target ids) ids
        clock) :
      Change free clock db (attachedDatabase promotion locked ids sha256 job clock db)
  | outputDeleted (issuance : Issuance) (time : Instant) (logs : Logs)
      (hmem : issuance ∈ db.issuances) (hfree : free (.issuance issuance.id))
      (hnone : issuance.outputDeletedAt = none) :
      Change free clock db
        (logged (db.saveIssuance { issuance with outputDeletedAt := some time }) logs)
  | worked (job : Job) (change : JobChange) (result : WorkResult) (hmem : job ∈ db.jobs)
      (hadmitted : change.Admitted job)
      (hfree : ∀ issuanceId ∈ job.issuanceId, free (.issuance issuanceId)) :
      Change free clock db ((result.apply job clock db).saveJob (change.apply clock job))

variable {formats settings}

/-- What is allowed to some is allowed to those who have more locks to themselves. -/
theorem Change.mono {free free' : Lock → Prop} {clock : Instant} {db db' : Database}
    (h : Change formats settings free clock db db') (hfree : ∀ lock, free lock → free' lock) :
    Change formats settings free' clock db db' := by
  cases h with
  | kept recipients logs hrecipients => exact .kept recipients logs hrecipients
  | created row logs hid hstatus hkey hdeleted hreconciled =>
    exact .created row logs hid hstatus hkey hdeleted hreconciled
  | saved upload upload' logs hmem hfree' hchange =>
    exact .saved upload upload' logs hmem (hfree _ hfree') hchange
  | attached promotion ids locked sha256 job hfree' hattaches hjob =>
    exact .attached promotion ids locked sha256 job (hfree _ hfree') hattaches hjob
  | outputDeleted issuance time logs hmem hfree' hnone =>
    exact .outputDeleted issuance time logs hmem (hfree _ hfree') hnone
  | worked job change result hmem hadmitted hfree' =>
    exact .worked job change result hmem hadmitted fun id hid ↦ hfree _ (hfree' id hid)

/-! ## 2. Rows -/

theorem UploadChange.id {clock : Instant} {upload upload' : UploadRequest}
    (h : UploadChange clock upload upload') : upload'.id = upload.id := by
  cases h with
  | deleted field => cases field <;> rfl
  | _ => rfl

@[simp] theorem WorkResult.apply_uploads (result : WorkResult) (job : Job) (now : Instant)
    (db : Database) : (result.apply job now db).uploads = db.uploads := by
  cases result <;> rfl

@[simp] theorem WorkResult.apply_recipients (result : WorkResult) (job : Job) (now : Instant)
    (db : Database) : (result.apply job now db).recipients = db.recipients := by
  cases result <;> rfl

@[simp] theorem WorkResult.apply_jobs (result : WorkResult) (job : Job) (now : Instant)
    (db : Database) : (result.apply job now db).jobs = db.jobs := by
  cases result <;> rfl

@[simp] theorem WorkResult.apply_events (result : WorkResult) (job : Job) (now : Instant)
    (db : Database) : (result.apply job now db).events = db.events := by
  cases result <;> rfl

/-- A commit changes issuance rows in their output columns, the rows of its own issuance only. -/
theorem WorkResult.apply_issuances (result : WorkResult) (job : Job) (now : Instant)
    (db : Database) : ∃ f : Issuance → Issuance,
      (result.apply job now db).issuances = db.issuances.map f ∧
        ∀ issuance, (∃ key sha256, f issuance =
            { issuance with outputObjectKey := key, outputSha256 := sha256 }) ∧
          (job.issuanceId ≠ some issuance.id → f issuance = issuance) := by
  cases result with
  | issued key sha256 pageCount =>
    refine ⟨_, rfl, fun issuance ↦ ?_⟩
    by_cases hid : job.issuanceId = some issuance.id
    · exact ⟨⟨some key, some sha256, if_pos hid⟩, fun hne ↦ absurd hid hne⟩
    · exact ⟨⟨issuance.outputObjectKey, issuance.outputSha256, if_neg hid⟩, fun _ ↦ if_neg hid⟩
  | nothing | verified =>
    exact ⟨id, (List.map_id _).symm, fun issuance ↦
      ⟨⟨issuance.outputObjectKey, issuance.outputSha256, rfl⟩, fun _ ↦ rfl⟩⟩

/-- It changes document rows in their page count. -/
theorem WorkResult.apply_documents (result : WorkResult) (job : Job) (now : Instant)
    (db : Database) : ∃ f : Document → Document,
      (result.apply job now db).documents = db.documents.map f ∧
        ∀ document, ∃ pageCount, f document = { document with pageCount := pageCount } := by
  cases result with
  | issued key sha256 pageCount =>
    refine ⟨_, rfl, fun document ↦ ?_⟩
    split
    · exact ⟨some pageCount, rfl⟩
    · exact ⟨document.pageCount, rfl⟩
  | nothing | verified =>
    exact ⟨id, (List.map_id _).symm, fun document ↦ ⟨document.pageCount, rfl⟩⟩

/-- It changes verification rows in their result columns. -/
theorem WorkResult.apply_verifications (result : WorkResult) (job : Job) (now : Instant)
    (db : Database) : ∃ f : Verification → Verification,
      (result.apply job now db).verifications = db.verifications.map f ∧
        ∀ verification, (f verification).id = verification.id ∧
          (f verification).organizationId = verification.organizationId ∧
          (f verification).uploadRequestId = verification.uploadRequestId := by
  cases result with
  | verified recoveredIssuanceId status evidence metrics =>
    refine ⟨_, rfl, fun verification ↦ ?_⟩
    split <;> exact ⟨rfl, rfl, rfl⟩
  | nothing | issued =>
    exact ⟨id, (List.map_id _).symm, fun verification ↦ ⟨rfl, rfl, rfl⟩⟩

/-! ## 3. Locked rows -/

/-- A row that cannot be had stays as it is. -/
theorem Change.record {free : Lock → Prop} {clock : Instant} {db db' : Database}
    (h : Change formats settings free clock db db') {candidate : Candidate} {record : LockedRecord}
    (hlock : ¬ free (lockOf candidate)) (hrecord : candidate.record db = some record) :
    candidate.record db' = some record := by
  by_cases hcategory : candidate.category = .issuanceOutput
  · simp only [Candidate.record, hcategory, Option.map_eq_some_iff] at hrecord ⊢
    simp only [lockOf, hcategory] at hlock
    obtain ⟨issuance, hfind, rfl⟩ := hrecord
    have hid := List.find?_some hfind
    simp only [decide_eq_true_eq] at hid
    refine ⟨issuance, ?_, rfl⟩
    cases h with
    | kept | created | saved => exact hfind
    | attached promotion ids locked sha256 job hfree hattaches hjob =>
      simp [attachedDatabase, List.find?_append, hfind]
    | outputDeleted other time logs hmem hfree hnone =>
      -- the deletion of another output holds that output's lock, so it is not this row
      have hne : ({ other with outputDeletedAt := some time } : Issuance).id ≠ candidate.pk :=
        fun heq ↦ hlock (heq ▸ hfree)
      exact (Table.find?_save_of_ne hne).trans hfind
    | worked job change result hmem hadmitted hfree =>
      obtain ⟨f, hf, hrow⟩ := WorkResult.apply_issuances result job clock db
      have hids : ∀ other : Issuance, (f other).id = other.id := by
        intro other
        obtain ⟨⟨key, sha256, heq⟩, -⟩ := hrow other
        rw [heq]
      -- a job rewrites only the issuance whose lock it holds
      have hsame : f issuance = issuance := by
        refine (hrow issuance).2 fun hjob ↦ hlock ?_
        exact hid ▸ hfree issuance.id hjob
      rw [Database.saveJob, hf, List.find?_map,
        show ((fun other : Issuance ↦ decide (other.id = candidate.pk)) ∘ f) =
          fun other ↦ decide (other.id = candidate.pk) from funext fun other ↦ by simp [hids],
        hfind, Option.map_some, hsame]
  · -- every other category reads its row from the uploads
    have hupload : ∀ db : Database, candidate.record db =
        (db.uploads.find? (·.id = candidate.pk)).map .upload := by
      intro db
      cases hc : candidate.category <;> simp_all [Candidate.record]
    have hlock' : ¬ free (.upload candidate.pk) := by
      cases hc : candidate.category <;> simp_all [lockOf]
    rw [hupload, Option.map_eq_some_iff] at hrecord ⊢
    obtain ⟨upload, hfind, rfl⟩ := hrecord
    refine ⟨upload, ?_, rfl⟩
    cases h with
    | kept | outputDeleted => exact hfind
    | created row logs hid => simp [logged, List.find?_append, hfind]
    | saved other other' logs hmem hfree hchange =>
      have hne : other'.id ≠ candidate.pk :=
        fun heq ↦ hlock' (heq ▸ hchange.id ▸ hfree)
      exact (Table.find?_save_of_ne hne).trans hfind
    | attached promotion ids locked sha256 job hfree hattaches hjob =>
      have hne : (locked.promoted .attached none clock).id ≠ candidate.pk :=
        fun heq ↦ hlock' (heq ▸ hfree)
      exact (Table.find?_save_of_ne hne).trans hfind
    | worked job change result hmem hadmitted hfree => simpa [Database.saveJob] using hfind

/-! ## 4. Primary keys -/

theorem Change.keyed {free : Lock → Prop} {clock : Instant} {db db' : Database}
    (h : Change formats settings free clock db db') (hkeyed : db.Keyed) : db'.Keyed := by
  cases h with
  | kept recipients logs hrecipients => exact { hkeyed with recipients := hrecipients }
  | created row logs hid =>
    refine { hkeyed with uploads := ?_ }
    simpa [logged, List.nodup_append, hkeyed.uploads] using fun other hother ↦ hid other hother
  | saved upload upload' logs =>
    exact { hkeyed with uploads := by simpa [logged, Database.saveUpload] using hkeyed.uploads }
  | attached promotion ids locked sha256 job hfree hattaches => exact hattaches.keyed hkeyed
  | outputDeleted issuance time logs =>
    exact { hkeyed with
      issuances := by simpa [logged, Database.saveIssuance] using hkeyed.issuances }
  | worked job change result =>
    obtain ⟨f, hf, hfrow⟩ := WorkResult.apply_issuances result job clock db
    obtain ⟨g, hg, hgrow⟩ := WorkResult.apply_documents result job clock db
    obtain ⟨k, hk, hkrow⟩ := WorkResult.apply_verifications result job clock db
    have hfid : ∀ issuance : Issuance, (f issuance).id = issuance.id := by
      intro issuance
      obtain ⟨⟨key, sha256, heq⟩, -⟩ := hfrow issuance
      rw [heq]
    have hgid : ∀ document : Document, (g document).id = document.id := by
      intro document
      obtain ⟨pageCount, heq⟩ := hgrow document
      rw [heq]
    constructor
    · simpa [Database.saveJob] using hkeyed.uploads
    · simpa [Database.saveJob] using hkeyed.recipients
    · simpa [Database.saveJob, hg, Function.comp_def, hgid] using hkeyed.documents
    · simpa [Database.saveJob, hf, Function.comp_def, hfid] using hkeyed.issuances
    · simpa [Database.saveJob, hk, Function.comp_def, fun v ↦ (hkrow v).1] using
        hkeyed.verifications
    · simpa [Database.saveJob] using hkeyed.jobs

/-! ## 5. The environment -/

/-- Whether a key is where promoted inputs are kept. -/
def isPromoted : ObjectKey → Bool
  | .promotedInput _ _ _ => true
  | _ => false

variable (formats settings)

/-- What one event of the environment can do. -/
inductive Happened (store : Store) : Store → Prop
  | ticked (time : Instant) (hle : store.clock ≤ time) :
      Happened store { store with clock := time }
  | changed (db : Database) (time : Instant) (hle : store.clock ≤ time)
      (hchange : Change formats settings (· ∉ store.locked) store.clock store.db db)
      (hjobs : db.jobs = store.db.jobs) (hissuances : db.issuances = store.db.issuances)
      (hsystem : db.systemAudit = store.db.systemAudit)
      (hschedule : db.schedule = store.db.schedule)
      (hrows : ∀ row ∈ db.uploads, ∀ before ∈ store.db.uploads, row.id = before.id →
        row.promotionTargetDeletedAt = before.promotionTargetDeletedAt ∧
          row.promotionTargetReconciledAt = before.promotionTargetReconciledAt) :
      Happened store { store with db := db, clock := time }
  | landed (key : ObjectKey) (content : Sha256) (hkey : key ∈ store.copies) :
      Happened store { store with objects := store.objects.put key content }
  | stored (key : ObjectKey) (content : Option Sha256) (hkey : isPromoted key = false) :
      Happened store { store with objects := Function.update store.objects key content }
  | worked (job : Job) (change : JobChange) (result : WorkResult) (hmem : job ∈ store.db.jobs)
      (hadmitted : change.Admitted job)
      (hfree : ∀ issuanceId ∈ job.issuanceId, .issuance issuanceId ∉ store.locked) :
      Happened store { store with
        db := (result.apply job store.clock store.db).saveJob (change.apply store.clock job)
        ended := if change.status.terminal ∧ ¬ job.status.terminal then
            (job.id, store.clock) :: store.ended
          else store.ended }

variable {formats settings}

theorem environment_happened {store store' : Store} {event : Event}
    (hkeyed : store.db.Keyed) (h : environment settings store event = some store') :
    Happened formats settings store store' := by
  -- where the uploads stay, their tombstones do
  have hsame : ∀ row ∈ store.db.uploads, ∀ before ∈ store.db.uploads, row.id = before.id →
      row.promotionTargetDeletedAt = before.promotionTargetDeletedAt ∧
        row.promotionTargetReconciledAt = before.promotionTargetReconciledAt := by
    intro row hrow before hbefore hid
    obtain rfl := List.inj_on_of_nodup_map hkeyed.uploads hrow hbefore hid
    exact ⟨rfl, rfl⟩
  cases event with
  | tick time =>
    simp only [environment] at h
    split at h
    · rename_i hle
      obtain rfl := Option.some.inj h
      exact .ticked time hle
    · simp at h
  | createUpload signed uploadId correlationId actor request =>
    obtain rfl := Option.some.inj h
    rcases recordingRejection_cases actor "upload.intent.denied" correlationId
      (createUploadLocked settings.maxPdfBytes signed store.clock uploadId correlationId actor
        request store.db) store.db with ⟨record, hbody⟩ | ⟨audit, heq⟩
    · -- the upload is created
      obtain ⟨⟨purpose, sha256, hrecord⟩, hfresh, hdb⟩ := createUploadLocked_cases hbody
      refine .changed _ store.clock le_rfl ?_ ?_ ?_ ?_ ?_ ?_ <;> rw [createUpload, hdb]
      · refine .created record ⟨_, store.db.systemAudit, store.db.schedule⟩ hfresh ?_ ?_ ?_ ?_ <;>
          rw [hrecord] <;> rfl
      · intro row hmem before hbefore hid
        rcases List.mem_append.mp hmem with hold | hnew
        · exact hsame row hold before hbefore hid
        · rw [List.mem_singleton.mp hnew] at hid
          exact absurd hid.symm (hfresh before hbefore)
    · -- it is denied, and only the audit grows
      refine .changed _ store.clock le_rfl ?_ ?_ ?_ ?_ ?_ ?_ <;> rw [createUpload, heq]
      · exact .kept store.db.recipients ⟨audit, store.db.systemAudit, store.db.schedule⟩
          hkeyed.recipients
      · exact hsame
  | completeUpload later head correlationId actor uploadId sha256 =>
    simp only [environment] at h
    split at h
    · simp at h
    rename_i hguard
    rw [not_or, not_lt] at hguard
    obtain rfl := Option.some.inj h
    rcases recordingRejection_cases actor "upload.complete.denied" correlationId
      (completeUploadLocked store.clock later head correlationId actor uploadId sha256 store.db)
      store.db with ⟨record, hbody⟩ | ⟨audit, heq⟩
    · rcases completeUploadLocked_cases hbody with hdb | ⟨upload, hmem, hid, audit, hdb⟩
      · -- it was complete before
        refine .changed _ later hguard.2 ?_ ?_ ?_ ?_ ?_ ?_ <;> rw [completeUpload, hdb]
        · exact .kept store.db.recipients
            ⟨store.db.audit, store.db.systemAudit, store.db.schedule⟩ hkeyed.recipients
        · exact hsame
      · refine .changed _ later hguard.2 ?_ ?_ ?_ ?_ ?_ ?_ <;> rw [completeUpload, hdb] <;>
          try rfl
        · exact .saved upload _ ⟨audit, store.db.systemAudit, store.db.schedule⟩ hmem
            (hid ▸ hguard.1) (.finalized later)
        · -- the one row that is saved keeps its tombstones
          intro row hrow before hbefore hrowId
          rcases Table.mem_save hrow with rfl | ⟨hold, -⟩
          · exact hsame upload hmem before hbefore hrowId
          · exact hsame row hold before hbefore hrowId
    · refine .changed _ later hguard.2 ?_ ?_ ?_ ?_ ?_ ?_ <;> rw [completeUpload, heq]
      · exact .kept store.db.recipients ⟨audit, store.db.systemAudit, store.db.schedule⟩
          hkeyed.recipients
      · exact hsame
  | recipients rows =>
    simp only [environment] at h
    split at h
    · rename_i hrows
      obtain rfl := Option.some.inj h
      exact .changed _ store.clock le_rfl
        (.kept rows ⟨store.db.audit, store.db.systemAudit, store.db.schedule⟩ hrows) rfl rfl rfl rfl
        hsame
    · simp at h
  | copyLands key content =>
    simp only [environment] at h
    split at h
    · rename_i hkey
      obtain rfl := Option.some.inj h
      exact .landed key content hkey
    · simp at h
  | putUpload purpose organization object content =>
    obtain rfl := Option.some.inj h
    exact .stored (.orphan purpose organization object) (some content) rfl
  | putOutput organization issuance extension content =>
    obtain rfl := Option.some.inj h
    exact .stored (.issuanceOutput organization issuance extension) content rfl
  | work jobId change result =>
    simp only [environment, work] at h
    split at h
    · simp at h
    rename_i job hfind
    split at h
    · rename_i hguard
      obtain rfl := Option.some.inj h
      exact .worked job change result (List.mem_of_find?_eq_some hfind) hguard.1 hguard.2
    · simp at h

/-! ## 6. Open cleanup transactions -/

/-- The open transaction of a cleanup run: the run, its candidate, and the row it has locked. -/
def Phase.opened : Phase → Option (CleanupRun × Candidate × LockedRecord)
  | .checking run candidate record _ => some (run, candidate, record)
  | .deleting run candidate record _ => some (run, candidate, record)
  | .deleted run candidate record => some (run, candidate, record)
  | _ => none

theorem Phase.lock_eq (p : Phase) : p.lock = p.opened.map fun opened ↦ lockOf opened.2.1 := by
  cases p <;> rfl

/-- The locks a step of a worker may count on. -/
def freeFor (store : Store) (p : Phase) (lock : Lock) : Prop :=
  lock ∉ store.locked ∨ p.lock = some lock

/-- A locked row that is still to be deleted. -/
def Holding (store : Store) (run : CleanupRun) (candidate : Candidate) (record : LockedRecord) :
    Prop :=
  lockOf candidate ∈ store.locked ∧ candidate.record store.db = some record ∧
    record.eligible candidate.category run.now = true

theorem record_upload {candidate : Candidate} {db : Database} {upload : UploadRequest}
    (h : candidate.record db = some (.upload upload)) :
    upload ∈ db.uploads ∧ upload.id = candidate.pk ∧ lockOf candidate = .upload candidate.pk := by
  cases hcategory : candidate.category
  case issuanceOutput => simp [Candidate.record, hcategory] at h
  all_goals
    simp only [Candidate.record, hcategory, Option.map_eq_some_iff, LockedRecord.upload.injEq,
      exists_eq_right] at h
    have hid := List.find?_some h
    simp only [decide_eq_true_eq] at hid
    exact ⟨List.mem_of_find?_eq_some h, hid, by simp [lockOf, hcategory]⟩

theorem record_issuance {candidate : Candidate} {db : Database} {issuance : Issuance}
    (h : candidate.record db = some (.issuance issuance)) :
    issuance ∈ db.issuances ∧ issuance.id = candidate.pk ∧
      lockOf candidate = .issuance candidate.pk ∧ candidate.category = .issuanceOutput := by
  cases hcategory : candidate.category
  case issuanceOutput =>
    simp only [Candidate.record, hcategory, Option.map_eq_some_iff, LockedRecord.issuance.injEq,
      exists_eq_right] at h
    have hid := List.find?_some h
    simp only [decide_eq_true_eq] at hid
    exact ⟨List.mem_of_find?_eq_some h, hid, by simp [lockOf, hcategory], rfl⟩
  all_goals simp [Candidate.record, hcategory] at h

/-- An eligible row has no evidence of the deletion yet. -/
theorem eligible_upload {upload : UploadRequest} {category : Category} {now : Instant}
    (h : (LockedRecord.upload upload).eligible category now = true) :
    deletionOf upload category.field = none := by
  cases category <;> simp_all [LockedRecord.eligible, deletionOf, Category.field]

theorem eligible_issuance {issuance : Issuance} {category : Category} {now : Instant}
    (h : (LockedRecord.issuance issuance).eligible category now = true) :
    issuance.outputDeletedAt = none := by
  cases category <;> simp_all [LockedRecord.eligible]

/-- A worker's step changes the tables in the listed ways, and only rows it may. -/
theorem Stepped.change {store store' : Store} {p p' : Phase}
    (h : Stepped formats settings store p store' p') (hkeyed : store.db.Keyed)
    (hopened : ∀ run candidate record, p.opened = some (run, candidate, record) →
      Holding store run candidate record) :
    Change formats settings (freeFor store p) store.clock store.db store'.db := by
  have hkept : ∀ logs, Change formats settings (freeFor store p) store.clock store.db
      (logged store.db logs) := fun logs ↦ .kept store.db.recipients logs hkeyed.recipients
  have hsame := hkept ⟨store.db.audit, store.db.systemAudit, store.db.schedule⟩
  -- every row a step writes is free or the one the step's own phase has locked
  cases h with
  | refused audit => exact hkept ⟨audit, store.db.systemAudit, store.db.schedule⟩
  | began upload promotion audit p' hmem hfree hstatus hkey hdeleted hupload =>
    exact .saved upload promotion.upload ⟨audit, store.db.systemAudit, store.db.schedule⟩ hmem
      (.inl hfree) (hupload ▸ .reserved hstatus hkey hdeleted)
  | attached promotion ids locked sha256 job p' hfree hattaches hjob =>
    exact .attached promotion ids locked sha256 job (.inl (hattaches.id ▸ hfree)) hattaches hjob
  | markedFailed promotion code error upload audit hmem hfree hstatus htarget hdeleted =>
    exact .saved upload _ ⟨audit, store.db.systemAudit, store.db.schedule⟩ hmem (.inl hfree)
      (.failed code hstatus htarget hdeleted)
  | unmarked promotion code error audit =>
    exact hkept ⟨audit, store.db.systemAudit, store.db.schedule⟩
  | orphanRecorded promotion domainId upload audit objects hmem hfree hnone =>
    exact .saved upload _ ⟨audit, store.db.systemAudit, store.db.schedule⟩ hmem (.inl hfree)
      (.deleted .orphanDeletedAt store.clock hnone)
  | orphanDeferred promotion domainId audit =>
    exact hkept ⟨audit, store.db.systemAudit, store.db.schedule⟩
  | deletionFailed run candidate record => exact hkept ⟨store.db.audit, _, store.db.schedule⟩
  | recorded run candidate record =>
    obtain ⟨-, hrecord, heligible⟩ := hopened run candidate record rfl
    cases record with
    | upload upload =>
      obtain ⟨hmem, hid, hlock⟩ := record_upload hrecord
      exact .saved upload _ ⟨store.db.audit, _, store.db.schedule⟩ hmem
        (.inr (by simp [Phase.lock, hlock, hid]))
        (.deleted candidate.category.field run.now (eligible_upload heligible))
    | issuance issuance =>
      obtain ⟨hmem, hid, hlock, -⟩ := record_issuance hrecord
      exact .outputDeleted issuance run.now ⟨store.db.audit, _, store.db.schedule⟩ hmem
        (.inr (by simp [Phase.lock, hlock, hid])) (eligible_issuance heligible)
  | marked run => exact hkept ⟨store.db.audit, store.db.systemAudit, _⟩
  | claimCleared run fallback token => exact hkept ⟨store.db.audit, store.db.systemAudit, _⟩
  | claimed run fallback token upload => exact hkept ⟨store.db.audit, store.db.systemAudit, _⟩
  | dropped run claim attempt => exact hkept ⟨store.db.audit, store.db.systemAudit, _⟩
  | reconciled run claim attempt upload deletedAt p' hmatches hmem hfree hid hdeleted =>
    refine .saved upload _ ⟨store.db.audit, _, _⟩ hmem (.inl hfree)
      (.reconciled _ (by simp [hdeleted]) fun previous hprevious ↦ ?_)
    rw [Option.mem_def] at hprevious
    simp only [hprevious]
    split
    · exact le_rfl
    · exact not_lt.mp ‹_›
  | _ => exact hsame

theorem Happened.change {store store' : Store} (h : Happened formats settings store store')
    (hkeyed : store.db.Keyed) :
    Change formats settings (· ∉ store.locked) store.clock store.db store'.db := by
  cases h with
  | changed db time hle hchange => exact hchange
  | worked job change result hmem hadmitted hfree =>
    exact .worked job change result hmem hadmitted hfree
  | _ =>
    exact .kept store.db.recipients ⟨store.db.audit, store.db.systemAudit, store.db.schedule⟩
      hkeyed.recipients

end Platform

end Splitbind
