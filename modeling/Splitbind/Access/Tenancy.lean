import Mathlib.Tactic.Simps.Basic
import Splitbind.Access.Operations
import Splitbind.Library.Isolation

/-!
# Tenancy — every service stays within the organisation of its actor

A service reads and writes rows of the actor's organisation, though some of its lookups do not say
so: they go by a key that only such a row has.  That these lookups agree with the restricted tables
is what the relations between the rows are for.
-/

namespace Splitbind

open Transaction Isolation Platform

/-! ## 1. Tenants of the tables -/

/-- The rows of one organisation.  The cleanup schedule belongs to nobody and stays behind. -/
@[simps]
def Database.restrict (organizationId : UUID) (db : Database) : Database where
  uploads := db.uploads.filter (·.organizationId = organizationId)
  recipients := db.recipients.filter (·.organizationId = organizationId)
  documents := db.documents.filter (·.organizationId = organizationId)
  issuances := db.issuances.filter (·.organizationId = organizationId)
  verifications := db.verifications.filter (·.organizationId = organizationId)
  jobs := db.jobs.filter (·.organizationId = organizationId)
  events := db.events.filter (·.organizationId = organizationId)
  audit := db.audit.filter (·.organizationId = organizationId)
  systemAudit := db.systemAudit.filter (·.organizationId = organizationId)
  schedule := ⟨.ordinary, none, none, false⟩

/-- The keys and relations the tables keep: a row refers to rows of its own organisation, and the
key of a promoted object is the one of its upload. -/
structure Tenanted (db : Database) : Prop where
  keyed : db.Keyed
  targets : ∀ upload ∈ db.uploads, ∀ key ∈ upload.promotionTargetKey, key = upload.target
  documents : ∀ document ∈ db.documents, ∃ upload ∈ db.uploads,
    upload.id = document.uploadRequestId ∧ upload.organizationId = document.organizationId ∧
      document.sourceObjectKey = upload.target
  verifications : ∀ verification ∈ db.verifications, ∃ upload ∈ db.uploads,
    upload.id = verification.uploadRequestId ∧
      upload.organizationId = verification.organizationId
  issuanceJobs : ∀ job ∈ db.jobs, ∀ id ∈ job.issuanceId, ∃ issuance ∈ db.issuances,
    issuance.id = id ∧ issuance.organizationId = job.organizationId
  verificationJobs : ∀ job ∈ db.jobs, ∀ id ∈ job.verificationId, ∃ verification ∈ db.verifications,
    verification.id = id ∧ verification.organizationId = job.organizationId
  events : ∀ event ∈ db.events, ∃ job ∈ db.jobs, job.id = event.jobId

/-- `record_event`. -/
def Database.recordEvent (db : Database) (event : AuditEvent) : Database :=
  { db with audit := db.audit ++ [event] }

section Rows

variable {db : Database} {organizationId : UUID}

/-- A check that only the rows of a scope can fail. -/
theorem raiseIf_filter {α : Type} {rows : List α} {p : α → Prop} [DecidablePred p]
    {scope : α → Bool} (h : ∀ row ∈ rows, p row → scope row = true) (error : Raised) :
    raiseIf (∃ row ∈ rows.filter scope, p row) error = raiseIf (∃ row ∈ rows, p row) error :=
  raiseIf_congr (Table.exists_mem_filter h) error

/-- A row of the organisation is found by its key in the restriction as well. -/
theorem find?_restrict_uploads (hkeyed : db.Keyed) {upload : UploadRequest}
    (hmem : upload ∈ db.uploads) (horganization : upload.organizationId = organizationId) :
    (db.restrict organizationId).uploads.find? (·.id = upload.id) =
      db.uploads.find? (·.id = upload.id) := by
  refine Table.find?_filter fun other hother hid ↦ ?_
  obtain rfl := List.inj_on_of_nodup_map hkeyed.uploads hother hmem (of_decide_eq_true hid)
  exact decide_eq_true horganization

theorem local_recordEvent {event : AuditEvent} (h : event.organizationId = organizationId) :
    Local Database.restrict organizationId (·.recordEvent event) db where
  own := by simp [Database.restrict, Database.recordEvent, h]
  others := by
    intro other hother
    simp [Database.restrict, Database.recordEvent, h, hother.symm]

/-- Saving a loaded recipient. -/
theorem local_saveRecipient (hkeyed : (db.recipients.map (·.id)).Nodup) {before recipient : Recipient}
    (hmem : before ∈ db.recipients) (hid : recipient.id = before.id)
    (hsame : recipient.organizationId = before.organizationId)
    (h : before.organizationId = organizationId) :
    Local Database.restrict organizationId
      (fun db ↦ { db with recipients := Table.save (·.id) db.recipients recipient }) db where
  own := by
    have hfilter := Table.filter_save_of_eq (p := (·.organizationId = organizationId))
      hkeyed hmem hid (by rw [hsame])
    simp only [Database.restrict]
    rw [hfilter]
  others := by
    intro other hother
    have hne : before.organizationId ≠ other := h.trans_ne hother.symm
    have hfilter := Table.filter_save_of_false (p := (·.organizationId = other))
      hkeyed hmem hid (by simp [hsame, hne]) (by simp [hne])
    simp only [Database.restrict]
    rw [hfilter]

/-- Inserting a recipient. -/
theorem local_addRecipient {recipient : Recipient}
    (h : recipient.organizationId = organizationId) :
    Local Database.restrict organizationId
      (fun db ↦ { db with recipients := db.recipients ++ [recipient] }) db where
  own := by simp [Database.restrict, h]
  others := by
    intro other hother
    simp [Database.restrict, h, hother.symm]

/-- Inserting an upload. -/
theorem local_addUpload {upload : UploadRequest} (h : upload.organizationId = organizationId) :
    Local Database.restrict organizationId
      (fun db ↦ { db with uploads := db.uploads ++ [upload] }) db where
  own := by simp [Database.restrict, h]
  others := by
    intro other hother
    simp [Database.restrict, h, hother.symm]

/-- Saving a loaded upload. -/
theorem local_saveUpload (hkeyed : (db.uploads.map (·.id)).Nodup) {before upload : UploadRequest}
    (hmem : before ∈ db.uploads) (hid : upload.id = before.id)
    (hsame : upload.organizationId = before.organizationId)
    (h : before.organizationId = organizationId) :
    Local Database.restrict organizationId (·.saveUpload upload) db where
  own := by
    have hfilter := Table.filter_save_of_eq (p := (·.organizationId = organizationId))
      hkeyed hmem hid (by rw [hsame])
    simp only [Database.restrict, Database.saveUpload] at hfilter ⊢
    rw [hfilter]
  others := by
    intro other hother
    have hne : before.organizationId ≠ other := h.trans_ne hother.symm
    have hfilter := Table.filter_save_of_false (p := (·.organizationId = other))
      hkeyed hmem hid (by simp [hsame, hne]) (by simp [hne])
    simp only [Database.restrict, Database.saveUpload] at hfilter ⊢
    rw [hfilter]

/-- Saving a loaded job. -/
theorem local_saveJob (hkeyed : (db.jobs.map (·.id)).Nodup) {before job : Job}
    (hmem : before ∈ db.jobs) (hid : job.id = before.id)
    (hsame : job.organizationId = before.organizationId)
    (h : before.organizationId = organizationId) :
    Local Database.restrict organizationId (·.saveJob job) db where
  own := by
    have hfilter := Table.filter_save_of_eq (p := (·.organizationId = organizationId))
      hkeyed hmem hid (by rw [hsame])
    simp only [Database.restrict, Database.saveJob] at hfilter ⊢
    rw [hfilter]
  others := by
    intro other hother
    have hne : before.organizationId ≠ other := h.trans_ne hother.symm
    have hfilter := Table.filter_save_of_false (p := (·.organizationId = other))
      hkeyed hmem hid (by simp [hsame, hne]) (by simp [hne])
    simp only [Database.restrict, Database.saveJob] at hfilter ⊢
    rw [hfilter]

end Rows

/-! ## 2. Uploads -/

section Uploads

variable {actor : User} {db : Database}

/-- What the audit says of a call that was rejected. -/
def logRejection (actor : User) (action : String) (correlationId : UUID) :
    Raised → Database → Database
  | .uploadRejected _, db => db.recordEvent (denialEvent actor action correlationId)
  | _, db => db

/-- A denial is about the actor, and in its log. -/
theorem recordingRejection_isolated {α : Type} {action : String} {correlationId : UUID}
    {body : Database → Except Raised (α × Database)}
    (h : Confined Database.restrict actor.organizationId body db) :
    Isolated Database.restrict actor.organizationId
      (fun db ↦ recordingRejection actor action correlationId (body db) db) db := by
  have hattempt : Isolated Database.restrict actor.organizationId
      (fun db ↦ attempt .none .other (body db) db) db := h.attempt
  refine hattempt.logging (logRejection actor action correlationId) ?_ ?_ ?_
  · intro db a h
    cases hbody : body db with
    | error error => rw [hbody] at h; cases h
    | ok r => rfl
  · intro db error h
    cases hbody : body db with
    | error error' => rw [hbody] at h; cases h; cases error <;> rfl
    | ok r => rw [hbody] at h; cases h
  · intro error
    cases error with
    | uploadRejected code => exact local_recordEvent rfl
    | _ => exact .id

theorem scopedUpload_eq_ok {uploadId : UUID} {upload : UploadRequest}
    (h : scopedUpload actor uploadId db = .ok upload) :
    upload ∈ db.uploads ∧ upload.organizationId = actor.organizationId := by
  rw [scopedUpload, found_eq_ok] at h
  have hrow := List.find?_some h
  simp only [decide_eq_true_eq] at hrow
  exact ⟨List.mem_of_find?_eq_some h, hrow.1⟩

/-- No row has the UUID of a new upload, as its key or in the key of its object. -/
def FreshUpload (uploadId : UUID) (db : Database) : Prop :=
  ∀ upload ∈ db.uploads, upload.id ≠ uploadId ∧
    ∀ purpose organizationId, upload.objectKey ≠ .orphan purpose organizationId uploadId

theorem createUpload_isolated {maxPdfBytes : Nat} {signed : Bool} {now : Instant}
    {uploadId correlationId : UUID} {request : UploadIntentRequest}
    (hfresh : FreshUpload uploadId db) :
    Isolated Database.restrict actor.organizationId
      (createUpload maxPdfBytes signed now uploadId correlationId actor request) db := by
  apply recordingRejection_isolated
  unfold createUploadLocked
  refine .query rfl fun (purpose, sha256) _ ↦ ?_
  refine .query rfl fun _ _ ↦ ?_
  refine .query rfl fun _ _ ↦ ?_
  refine .query (raiseIf_filter (fun other hother hid ↦ ?_) _) fun _ _ ↦ ?_
  · exact absurd hid (hfresh other hother).1
  refine .query (raiseIf_filter (fun other hother hkey ↦ ?_) _) fun _ _ ↦ ?_
  · exact absurd hkey ((hfresh other hother).2 _ _)
  have hwrite : Local Database.restrict actor.organizationId (fun db ↦ ({ db with
      uploads := db.uploads ++ [uploadIntent actor purpose request.contentType sha256
        request.sizeBytes.toNat uploadId now] } : Database).recordEvent
          (uploadEvent actor "upload.intent.created" uploadId correlationId)) db :=
    .comp (local_recordEvent (by rfl)) (local_addUpload (by rfl))
  exact .commit hwrite _

theorem completeUpload_isolated {now later : Instant} {head : HeadResult}
    {correlationId uploadId : UUID} {sha256 : String} (hkeyed : db.Keyed) :
    Isolated Database.restrict actor.organizationId
      (completeUpload now later head correlationId actor uploadId sha256) db := by
  apply recordingRejection_isolated
  unfold completeUploadLocked
  refine .query ?_ fun upload hupload ↦ ?_
  · unfold scopedUpload
    refine congrArg (found · _) (Table.find?_filter fun row _ hrow ↦ ?_)
    exact decide_eq_true (of_decide_eq_true hrow).1
  obtain ⟨hmem, horganization⟩ := scopedUpload_eq_ok hupload
  refine .query rfl fun _ _ ↦ ?_
  refine .query rfl fun _ _ ↦ ?_
  refine .ite (fun _ ↦ .commit .id _) fun _ ↦ ?_
  refine .query rfl fun _ _ ↦ ?_
  refine .query rfl fun _ _ ↦ ?_
  refine .query rfl fun _ _ ↦ ?_
  refine .query rfl fun _ _ ↦ ?_
  have hwrite : Local Database.restrict actor.organizationId (fun db ↦
      (db.saveUpload { upload with finalizedAt := some later }).recordEvent
        (uploadEvent actor "upload.completed" upload.id correlationId)) db :=
    .comp (local_recordEvent (by rfl)) (local_saveUpload hkeyed.uploads hmem (by rfl) (by rfl) horganization)
  exact .commit hwrite _

end Uploads

/-! ## 3. Evidence and jobs -/

section Evidence

variable {actor : User} {db : Database}

theorem filter_filter_self {α : Type} (rows : List α) (p : α → Bool) :
    (rows.filter p).filter p = rows.filter p :=
  Table.filter_filter fun _ _ hp ↦ hp

theorem scopeIssuances_restrict :
    scopeIssuances actor (db.restrict actor.organizationId).issuances =
      scopeIssuances actor db.issuances := by
  simp only [scopeIssuances, Database.restrict_issuances, filter_filter_self]

theorem scopeVerifications_restrict :
    scopeVerifications actor (db.restrict actor.organizationId).verifications =
      scopeVerifications actor db.verifications := by
  simp only [scopeVerifications, Database.restrict_verifications, filter_filter_self]

/-- The record of a job is in the job's organisation. -/
theorem Tenanted.issuance_organization (hdb : Tenanted db) {job : Job} (hjob : job ∈ db.jobs)
    {issuance : Issuance} (hissuance : issuance ∈ db.issuances)
    (h : job.issuanceId = some issuance.id) : issuance.organizationId = job.organizationId := by
  obtain ⟨row, hrow, hid, hsame⟩ := hdb.issuanceJobs job hjob issuance.id h
  obtain rfl := List.inj_on_of_nodup_map hdb.keyed.issuances hrow hissuance hid
  exact hsame

theorem Tenanted.verificationJob_organization (hdb : Tenanted db) {job : Job}
    (hjob : job ∈ db.jobs) {verification : Verification}
    (hverification : verification ∈ db.verifications)
    (h : job.verificationId = some verification.id) :
    verification.organizationId = job.organizationId := by
  obtain ⟨row, hrow, hid, hsame⟩ := hdb.verificationJobs job hjob verification.id h
  obtain rfl := List.inj_on_of_nodup_map hdb.keyed.verifications hrow hverification hid
  exact hsame

/-- So looking through that relation stays in the organisation. -/
theorem scopedJobs_restrict (hdb : Tenanted db) :
    scopedJobs actor (db.restrict actor.organizationId) = scopedJobs actor db := by
  unfold scopedJobs
  simp only [Database.restrict_jobs, Database.restrict_issuances, Database.restrict_verifications,
    filter_filter_self]
  cases actor.role with
  | administrator | auditor => rfl
  | issuer =>
    refine List.filter_congr fun job hjob ↦ ?_
    obtain ⟨hmem, horganization⟩ := List.mem_filter.mp hjob
    rw [decide_eq_decide, Table.exists_mem_filter]
    intro issuance hissuance hrow
    rw [hdb.issuance_organization hmem hissuance hrow.1]
    exact horganization
  | verifier =>
    refine List.filter_congr fun job hjob ↦ ?_
    obtain ⟨hmem, horganization⟩ := List.mem_filter.mp hjob
    rw [decide_eq_decide, Table.exists_mem_filter]
    intro verification hverification hrow
    rw [hdb.verificationJob_organization hmem hverification hrow.1]
    exact horganization

/-- A replay is recognised by an event of the actor's own organisation. -/
theorem isExactCancelReplay_restrict {job : Job} {correlationId : UUID} :
    isExactCancelReplay (db.restrict actor.organizationId).audit job actor correlationId =
      isExactCancelReplay db.audit job actor correlationId := by
  unfold isExactCancelReplay
  rw [Bool.eq_iff_iff, List.contains_iff_mem, List.contains_iff_mem, Database.restrict_audit,
    List.mem_filter]
  exact ⟨And.left, fun h ↦ ⟨h, decide_eq_true rfl⟩⟩

theorem requestCancelLocked_restrict {job : Job} {correlationId requesterId : UUID}
    {now : Instant} :
    requestCancelLocked actor correlationId now requesterId job
        (db.restrict actor.organizationId).audit =
      (fun r ↦ (r.1, r.2.filter (·.organizationId = actor.organizationId))) <$>
        requestCancelLocked actor correlationId now requesterId job db.audit := by
  have hlogged : (db.restrict actor.organizationId).audit ++
      [cancelRequestedEvent actor job correlationId] =
        (db.audit ++ [cancelRequestedEvent actor job correlationId]).filter
          (·.organizationId = actor.organizationId) := by
    have hlog : Local Database.restrict actor.organizationId
        (·.recordEvent (cancelRequestedEvent actor job correlationId)) db := local_recordEvent rfl
    exact congrArg Database.audit hlog.own
  unfold requestCancelLocked
  rw [isExactCancelReplay_restrict]
  rcases raiseIf (actor.role = .auditor) _ with e | ⟨⟩
  · rfl
  rcases raiseIf (¬ scopeJobs actor job requesterId) _ with e | ⟨⟩
  · rfl
  rw [ok_bind, ok_bind, ok_bind, ok_bind]
  split
  · rcases raiseIf (¬ isExactCancelReplay db.audit job actor correlationId) _ with e | ⟨⟩ <;> rfl
  · rcases raiseIf (job.status ∈ [JobStatus.succeeded, .failed, .deadLettered]) _ with e | ⟨⟩
    · rfl
    rw [hlogged, ok_bind, ok_bind]
    dsimp only
    split
    · rcases transitionJob _ JobStatus.cancelled with e | job' <;> rfl
    · rfl

/-- A cancel request that returns saves its job, and may log one event. -/
theorem requestCancelLocked_writes {job job' : Job} {correlationId requesterId : UUID}
    {now : Instant} {audit audit' : List AuditEvent}
    (h : requestCancelLocked actor correlationId now requesterId job audit = .ok (job', audit')) :
    job'.id = job.id ∧ job'.organizationId = job.organizationId ∧ job'.target = job.target ∧
      (audit' = audit ∨ audit' = audit ++ [cancelRequestedEvent actor job correlationId]) := by
  obtain ⟨-, -, ⟨-, -, rfl, rfl⟩ | ⟨-, rfl, ⟨-, rfl⟩ | ⟨-, rfl⟩⟩⟩ := requestCancelLocked_cases h
  · exact ⟨rfl, rfl, rfl, .inl rfl⟩
  · exact ⟨rfl, rfl, rfl, .inr rfl⟩
  · exact ⟨rfl, rfl, rfl, .inr rfl⟩

theorem cancelScopedJob_confined {jobId correlationId : UUID} {now : Instant}
    (hdb : Tenanted db) :
    Confined Database.restrict actor.organizationId
      (cancelScopedJob actor jobId correlationId now) db := by
  unfold cancelScopedJob
  refine .query rfl fun _ _ ↦ ?_
  refine .query ?_ fun job hjob ↦ ?_
  · rw [scopedJobs_restrict hdb]
  rw [found_eq_ok] at hjob
  obtain ⟨hmem, hscope⟩ := mem_scopedJobs (List.mem_of_find?_eq_some hjob)
  constructor
  · rw [requestCancelLocked_restrict]
    cases hcancel : requestCancelLocked actor correlationId now actor.id job db.audit with
    | error error => rfl
    | ok r =>
      obtain ⟨hid, hsame, -, -⟩ := requestCancelLocked_writes hcancel
      have hsave := (local_saveJob hdb.keyed.jobs hmem hid hsame hscope.1).own
      have haudit := congrArg (fun saved : Database ↦ { saved with
        audit := r.2.filter (·.organizationId = actor.organizationId) }) hsave
      exact congrArg (fun saved ↦ Except.ok (r.1, saved)) haudit
  · intro record db' h other hother
    rw [bind_eq_ok] at h
    obtain ⟨⟨job', audit'⟩, hcancel, h⟩ := h
    cases h
    obtain ⟨hid, hsame, -, hlog⟩ := requestCancelLocked_writes hcancel
    have hsave := (local_saveJob hdb.keyed.jobs hmem hid hsame hscope.1).others other hother
    have haudit : audit'.filter (·.organizationId = other) =
        db.audit.filter (·.organizationId = other) := by
      rcases hlog with rfl | rfl
      · rfl
      · have hevent : Local Database.restrict actor.organizationId
            (·.recordEvent (cancelRequestedEvent actor job correlationId)) db :=
          local_recordEvent rfl
        exact congrArg Database.audit (hevent.others other hother)
    exact congrArg₂ (fun (saved : Database) audit ↦ { saved with audit := audit }) hsave haudit

/-- A refused request is logged for the actor's organisation. -/
theorem cancelJob_isolated {jobId correlationId : UUID} {now : Instant} (hdb : Tenanted db) :
    Isolated Database.restrict actor.organizationId (cancelJob actor jobId correlationId now)
      db := by
  have hbody : Confined Database.restrict actor.organizationId
      (cancelScopedJob actor jobId correlationId now) db := cancelScopedJob_confined hdb
  have hattempt : Isolated Database.restrict actor.organizationId (fun db ↦ attempt .none .other
      (cancelScopedJob actor jobId correlationId now db) db) db := hbody.attempt
  refine hattempt.logging (fun error db ↦ if error.recordsDenial then
    db.recordEvent (denialEvent actor "job.cancel_denied" correlationId) else db) ?_ ?_ ?_
  · intro db job h
    unfold cancelJob
    cases hcancel : cancelScopedJob actor jobId correlationId now db with
    | error error => rw [hcancel] at h; cases h
    | ok r => rfl
  · intro db error h
    unfold cancelJob
    cases hcancel : cancelScopedJob actor jobId correlationId now db with
    | error error' => rw [hcancel] at h; cases h; rfl
    | ok r => rw [hcancel] at h; cases h
  · intro error
    split
    · exact local_recordEvent rfl
    · exact .id

end Evidence

/-! ## 4. Recipients -/

section Recipients

variable {rules : TextRules} {organizationId : UUID} {db : Database}

theorem matchingRecipients_restrict {email : String} :
    matchingRecipients rules organizationId email (db.restrict organizationId).recipients =
      matchingRecipients rules organizationId email db.recipients :=
  Table.filter_filter fun _ _ hrow ↦ decide_eq_true (of_decide_eq_true hrow).1

theorem fillDisplayName_confined (hkeyed : db.Keyed) {name : String} {recipient : Recipient}
    (hmem : recipient ∈ db.recipients) (horganization : recipient.organizationId = organizationId) :
    Confined Database.restrict organizationId (fillDisplayName name recipient) db := by
  unfold fillDisplayName
  refine .ite (fun _ ↦ ?_) fun _ ↦ .commit .id _
  refine .query rfl fun _ _ ↦ ?_
  exact .commit (local_saveRecipient hkeyed.recipients hmem (by rfl) (by rfl) horganization) _

theorem createRecipient_confined {email name : String} {fresh : UUID}
    (hfresh : ∀ other ∈ db.recipients, other.id ≠ fresh) :
    Confined Database.restrict organizationId (createRecipient organizationId email name fresh)
      db := by
  unfold createRecipient
  refine .query rfl fun _ _ ↦ ?_
  refine .query (raiseIf_filter (fun other hother hid ↦ ?_) _) fun _ _ ↦ ?_
  · exact absurd hid (hfresh other hother)
  refine .query (raiseIf_filter (fun other _ hrow ↦ ?_) _) fun _ _ ↦ ?_
  · exact decide_eq_true hrow.1
  exact .commit (local_addRecipient (by rfl)) _

/-- The second query finds nothing that the first one did not. -/
def refetchError : Raised → Raised
  | .integrity _ => .doesNotExist "Recipient"
  | error => error

/-- The name of one recipient may be filled in, or one is created; nobody else's is looked at. -/
theorem resolveRecipientForIssue_confined (hkeyed : db.Keyed) {recipientEmail : String}
    {recipientName : Option String} {fresh : UUID}
    (hfresh : ∀ other ∈ db.recipients, other.id ≠ fresh) :
    Confined Database.restrict organizationId
      (resolveRecipientForIssue rules organizationId recipientEmail recipientName fresh) db := by
  unfold resolveRecipientForIssue
  refine .query rfl fun _ _ ↦ ?_
  cases hfirst : firstRecipient (matchingRecipients rules organizationId
      (canonicalEmail rules recipientEmail) db.recipients) with
  | some recipient =>
    obtain ⟨hmem, hmatches⟩ := List.mem_filter.mp (mem_of_firstRecipient hfirst)
    have horganization := (of_decide_eq_true hmatches).1
    have hfill : Confined Database.restrict organizationId
        (fillDisplayName (strip (recipientName.getD "")) recipient) db :=
      fillDisplayName_confined hkeyed hmem horganization
    refine hfill.congr ?_ ?_
    · rw [hfirst]
    · rw [matchingRecipients_restrict, hfirst]
  | none =>
    -- no row matches, so a row that somebody else created in between is not found either
    have hnil := firstRecipient_eq_none.mp hfirst
    have hcreate : Confined Database.restrict organizationId (createRecipient organizationId
        (canonicalEmail rules recipientEmail) (strip (recipientName.getD "")) fresh) db :=
      createRecipient_confined hfresh
    refine (hcreate.mapError refetchError).congr ?_ ?_
    · rw [hfirst, hnil]
      dsimp only
      cases createRecipient organizationId (canonicalEmail rules recipientEmail)
          (strip (recipientName.getD "")) fresh db with
      | ok created => rfl
      | error error => cases error <;> rfl
    · rw [matchingRecipients_restrict, hfirst, hnil]
      dsimp only
      cases createRecipient organizationId (canonicalEmail rules recipientEmail)
          (strip (recipientName.getD "")) fresh (db.restrict organizationId) with
      | ok created => rfl
      | error error => cases error <;> rfl

end Recipients

end Splitbind
