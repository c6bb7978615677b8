import Splitbind.Access.CreateCalls
import Splitbind.Retention.Objects

/-!
# Tenant isolation — what one organisation does, another cannot see

Every operation of the API answers from the rows of its actor's organisation and changes no others;
what the actor may not discover is answered like what does not exist.  The relations between the
rows that this rests on hold in every reachable state, and the operations keep them.
-/

namespace Splitbind

open Transaction Isolation Platform

/-! ## 1. Operations -/

/-- No row has a key that the operation takes for a new one. -/
def Operation.Fresh (operation : Operation) (db : Database) : Prop :=
  match operation with
  | .createUpload _ _ uploadId _ _ => FreshUpload uploadId db
  | .createIssuance setting _ _ _ => FreshAttach setting.ids db
  | .createVerification setting _ _ => FreshAttach setting.ids db
  | .resolveRecipient _ _ fresh => ∀ recipient ∈ db.recipients, recipient.id ≠ fresh
  | _ => True

section Operations

variable {services : Services} {actor : User} {db : Database}

theorem answer_isolated {α : Type} {f : α → ServiceAnswer} {op : Database → Except Raised α × Database}
    {organizationId : UUID} (h : Isolated Database.restrict organizationId op db) :
    Isolated Database.restrict organizationId (fun db ↦ answer f (op db)) db where
  own := by
    show answer f (op (db.restrict organizationId)) = _
    rw [h.own]
    rfl
  others := h.others

/-- Each service, at every call. -/
theorem Operation.isolated (operation : Operation) (hdb : Tenanted db)
    (hfresh : operation.Fresh db) :
    Isolated Database.restrict actor.organizationId (operation.run services actor) db := by
  cases operation with
  | createUpload signed now uploadId correlationId request =>
    exact answer_isolated (createUpload_isolated hfresh)
  | completeUpload now later head correlationId uploadId sha256 =>
    exact answer_isolated (completeUpload_isolated hdb.keyed)
  | createIssuance setting recipientId uploadId correlationId =>
    exact answer_isolated (createRecord_isolated hdb hfresh)
  | createVerification setting uploadId correlationId =>
    exact answer_isolated (createRecord_isolated hdb hfresh)
  | requestCancel jobId correlationId now => exact answer_isolated (cancelJob_isolated hdb)
  | resolveRecipient email name fresh =>
    exact answer_isolated (resolveRecipientForIssue_confined hdb.keyed hfresh).attempt
  | getIssuance recordId =>
    refine answer_isolated (.query ?_)
    unfold Splitbind.getIssuance
    rw [scopeIssuances_restrict]
  | getVerification recordId =>
    refine answer_isolated (.query ?_)
    unfold Splitbind.getVerification
    rw [scopeVerifications_restrict]
  | getJob jobId =>
    refine answer_isolated (.query ?_)
    unfold Splitbind.getJob
    rw [scopedJobs_restrict hdb]
  | listJobs kind =>
    refine .query ?_
    unfold Splitbind.listJobs
    rw [scopedJobs_restrict hdb]

end Operations

/-! ## 2. What an actor may not discover -/

/-- The second call names a record that does not exist where the first names one that the actor may
not discover. -/
inductive Hides (actor : User) (db : Database) : Operation → Operation → Prop
  | completeUpload {now later : Instant} {head : HeadResult} {correlationId uploadId missing : UUID}
      {sha256 : String}
      (hidden : ¬ ∃ upload ∈ db.uploads, upload.id = uploadId ∧
        upload.organizationId = actor.organizationId ∧
          (actor.role = .administrator ∨ upload.requestedById = actor.id))
      (hmissing : ∀ upload ∈ db.uploads, upload.id ≠ missing) :
      Hides actor db (.completeUpload now later head correlationId uploadId sha256)
        (.completeUpload now later head correlationId missing sha256)
  | issuanceUpload {setting : CreateSetting} {recipientId uploadId missing correlationId : UUID}
      (hidden : ¬ ∃ upload ∈ db.uploads, upload.id = uploadId ∧
        upload.organizationId = actor.organizationId ∧ upload.requestedById = actor.id)
      (hmissing : ∀ upload ∈ db.uploads, upload.id ≠ missing) :
      Hides actor db (.createIssuance setting recipientId uploadId correlationId)
        (.createIssuance setting recipientId missing correlationId)
  | verificationUpload {setting : CreateSetting} {uploadId missing correlationId : UUID}
      (hidden : ¬ ∃ upload ∈ db.uploads, upload.id = uploadId ∧
        upload.organizationId = actor.organizationId ∧ upload.requestedById = actor.id)
      (hmissing : ∀ upload ∈ db.uploads, upload.id ≠ missing) :
      Hides actor db (.createVerification setting uploadId correlationId)
        (.createVerification setting missing correlationId)
  | recipient {setting : CreateSetting} {recipientId missing uploadId correlationId : UUID}
      (hidden : ¬ ∃ recipient ∈ db.recipients, recipient.id = recipientId ∧
        recipient.organizationId = actor.organizationId)
      (hmissing : ∀ recipient ∈ db.recipients, recipient.id ≠ missing) :
      Hides actor db (.createIssuance setting recipientId uploadId correlationId)
        (.createIssuance setting missing uploadId correlationId)
  | cancel {jobId missing correlationId : UUID} {now : Instant}
      (hidden : ∀ job ∈ scopedJobs actor db, job.id ≠ jobId)
      (hmissing : ∀ job ∈ db.jobs, job.id ≠ missing) :
      Hides actor db (.requestCancel jobId correlationId now)
        (.requestCancel missing correlationId now)
  | job {jobId missing : UUID} (hidden : ∀ job ∈ scopedJobs actor db, job.id ≠ jobId)
      (hmissing : ∀ job ∈ db.jobs, job.id ≠ missing) :
      Hides actor db (.getJob jobId) (.getJob missing)
  | issuance {recordId missing : UUID}
      (hidden : ∀ issuance ∈ scopeIssuances actor db.issuances, issuance.id ≠ recordId)
      (hmissing : ∀ issuance ∈ db.issuances, issuance.id ≠ missing) :
      Hides actor db (.getIssuance recordId) (.getIssuance missing)
  | verification {recordId missing : UUID}
      (hidden : ∀ verification ∈ scopeVerifications actor db.verifications,
        verification.id ≠ recordId)
      (hmissing : ∀ verification ∈ db.verifications, verification.id ≠ missing) :
      Hides actor db (.getVerification recordId) (.getVerification missing)

section Hidden

variable {services : Services} {actor : User} {db : Database}

/-- A lookup by a key finds nothing in rows that do not have the key. -/
theorem found_eq_error_of_none {α : Type} {rows : List α} {p : α → Bool} {error : Raised}
    (h : ∀ row ∈ rows, ¬ p row = true) : found (rows.find? p) error = .error error := by
  rw [List.find?_eq_none.mpr h]
  rfl

theorem scopedUpload_hidden {uploadId : UUID}
    (h : ¬ ∃ upload ∈ db.uploads, upload.id = uploadId ∧
      upload.organizationId = actor.organizationId ∧
        (actor.role = .administrator ∨ upload.requestedById = actor.id)) :
    scopedUpload actor uploadId db = .error (.uploadRejected "UPLOAD_NOT_FOUND") := by
  refine found_eq_error_of_none fun upload hmem hp ↦ h ⟨upload, hmem, ?_⟩
  obtain ⟨horganization, hid, hrequested⟩ := of_decide_eq_true hp
  by_cases hrole : actor.role = .administrator
  · exact ⟨hid, horganization, .inl hrole⟩
  · exact ⟨hid, horganization, .inr (hrequested hrole)⟩

theorem reservePromotion_hidden {now : Instant} {uploadId : UUID} {kind : JobKind}
    (h : ¬ ∃ upload ∈ db.uploads, upload.id = uploadId ∧
      upload.organizationId = actor.organizationId ∧ upload.requestedById = actor.id) :
    reservePromotion now actor uploadId kind db =
      authorizeCreate actor kind >>= fun _ ↦ .error (.workflowNotFound "WORKFLOW_NOT_FOUND") := by
  unfold reservePromotion
  rw [found_eq_error_of_none fun upload hmem hp ↦ h ⟨upload, hmem, of_decide_eq_true hp⟩]
  rfl

theorem findRecipient_hidden {recipientId : UUID}
    (h : ¬ ∃ recipient ∈ db.recipients, recipient.id = recipientId ∧
      recipient.organizationId = actor.organizationId) :
    findRecipient actor recipientId db = .error (.workflowNotFound "WORKFLOW_NOT_FOUND") :=
  found_eq_error_of_none fun recipient hmem hp ↦ h ⟨recipient, hmem, of_decide_eq_true hp⟩

theorem found_scopedJobs_hidden {jobId : UUID} {error : Raised}
    (h : ∀ job ∈ scopedJobs actor db, job.id ≠ jobId) :
    found ((scopedJobs actor db).find? (·.id = jobId)) error = .error error :=
  found_eq_error_of_none fun job hmem hid ↦ h job hmem (of_decide_eq_true hid)

/-- What is not there may not be discovered either. -/
theorem hidden_of_missing {α : Type} {rows : List α} {id : α → UUID} {missing : UUID}
    {p : α → Prop} (h : ∀ row ∈ rows, id row ≠ missing) :
    ¬ ∃ row ∈ rows, id row = missing ∧ p row := by
  rintro ⟨row, hmem, hid, -⟩
  exact h row hmem hid

/-- A call starts with its reservation, and ends with it when that fails. -/
theorem createRecord_congr {formats : FormatChecker} {settings : ServiceSettings}
    {setting : CreateSetting} {request request' : CreateRequest} {uploadId uploadId' : UUID}
    {correlationId : UUID} (hkind : request'.kind = request.kind)
    (h : beginCreate setting.reservedAt actor request' uploadId' correlationId db =
      beginCreate setting.reservedAt actor request uploadId correlationId db) :
    createRecord formats settings setting actor request' uploadId' correlationId db =
      createRecord formats settings setting actor request uploadId correlationId db := by
  simp only [createRecord, createRecordUnlogged, reserveTransaction, h, hkind]

/-- The answer, the rows and the log are the same. -/
theorem run_eq_of_hides {operation operation' : Operation}
    (h : Hides actor db operation operation') :
    operation'.run services actor db = operation.run services actor db := by
  -- both runs fail in the lookup, before anything else of the operations differs
  cases h with
  | completeUpload hidden hmissing =>
    refine congrArg (answer _) ?_
    unfold completeUpload completeUploadLocked
    rw [scopedUpload_hidden hidden, scopedUpload_hidden (hidden_of_missing hmissing)]
  | issuanceUpload hidden hmissing =>
    refine congrArg (answer _) (createRecord_congr rfl ?_)
    dsimp only [beginCreate]
    rw [reservePromotion_hidden hidden, reservePromotion_hidden (hidden_of_missing hmissing)]
  | verificationUpload hidden hmissing =>
    refine congrArg (answer _) (createRecord_congr rfl ?_)
    dsimp only [beginCreate]
    rw [reservePromotion_hidden hidden, reservePromotion_hidden (hidden_of_missing hmissing)]
  | recipient hidden hmissing =>
    refine congrArg (answer _) (createRecord_congr rfl ?_)
    dsimp only [beginCreate]
    rw [findRecipient_hidden hidden, findRecipient_hidden (hidden_of_missing hmissing)]
    rfl
  | cancel hidden hmissing =>
    refine congrArg (answer _) ?_
    unfold cancelJob cancelScopedJob
    rw [found_scopedJobs_hidden hidden, found_scopedJobs_hidden fun job hjob ↦
      hmissing job (mem_scopedJobs hjob).1]
  | job hidden hmissing =>
    refine congrArg (fun result ↦ answer _ (result, db)) ?_
    unfold getJob
    rw [found_scopedJobs_hidden hidden, found_scopedJobs_hidden fun job hjob ↦
      hmissing job (mem_scopedJobs hjob).1]
  | issuance hidden hmissing =>
    refine congrArg (fun result ↦ answer _ (result, db)) ?_
    unfold getIssuance
    rw [found_eq_error_of_none, found_eq_error_of_none]
    · exact fun issuance hmem hid ↦ hidden issuance hmem (of_decide_eq_true hid)
    · exact fun issuance hmem hid ↦
        hmissing issuance (scopeIssuances_subset hmem) (of_decide_eq_true hid)
  | verification hidden hmissing =>
    refine congrArg (fun result ↦ answer _ (result, db)) ?_
    unfold getVerification
    rw [found_eq_error_of_none, found_eq_error_of_none]
    · exact fun verification hmem hid ↦ hidden verification hmem (of_decide_eq_true hid)
    · exact fun verification hmem hid ↦
        hmissing verification (scopeVerifications_subset hmem) (of_decide_eq_true hid)

end Hidden

/-! ## 3. Isolation -/

/-- Two databases that agree on the rows of an organisation are the same to its actors: an operation
answers the same and changes the rows in the same way, and it changes no row of anyone else.  A
record the actor may not discover is answered like one that does not exist. -/
theorem tenant_isolation (services : Services) (actor : User) (operation : Operation)
    {db₁ db₂ : Database} (h₁ : Tenanted db₁) (h₂ : Tenanted db₂)
    (hfresh₁ : operation.Fresh db₁) (hfresh₂ : operation.Fresh db₂)
    (hagree : db₁.restrict actor.organizationId = db₂.restrict actor.organizationId) :
    (operation.run services actor db₁).1 = (operation.run services actor db₂).1 ∧
      (operation.run services actor db₁).2.restrict actor.organizationId =
        (operation.run services actor db₂).2.restrict actor.organizationId ∧
      (∀ organizationId ≠ actor.organizationId,
        (operation.run services actor db₁).2.restrict organizationId =
            db₁.restrict organizationId ∧
          (operation.run services actor db₂).2.restrict organizationId =
            db₂.restrict organizationId) ∧
      ∀ operation', Hides actor db₁ operation operation' →
        operation'.run services actor db₁ = operation.run services actor db₁ := by
  have hisolated₁ : Isolated Database.restrict actor.organizationId
      (operation.run services actor) db₁ := operation.isolated h₁ hfresh₁
  have hisolated₂ : Isolated Database.restrict actor.organizationId
      (operation.run services actor) db₂ := operation.isolated h₂ hfresh₂
  obtain ⟨hanswer, hrows⟩ := hisolated₁.agree hisolated₂ hagree
  refine ⟨hanswer, hrows, fun organizationId hother ↦ ?_, fun operation' hhides ↦ ?_⟩
  · exact ⟨hisolated₁.others _ hother, hisolated₂.others _ hother⟩
  · exact run_eq_of_hides hhides

/-- An upload and a recipient of another organisation. -/
def neighbourDatabase : Database :=
  { Platform.sampleStore.db with
    uploads := [{ Platform.sampleUpload with
        id := ⟨15⟩, organizationId := ⟨21⟩, requestedById := ⟨22⟩
        objectKey := .orphan .issuance ⟨21⟩ ⟨15⟩ }, Platform.sampleUpload]
    recipients := ⟨⟨16⟩, ⟨21⟩, "R-1", "Neighbour"⟩ :: Platform.sampleStore.db.recipients }

def sampleServices : Services where
  formats := sampleFormats
  rules := ⟨String.toLower, String.toUpper, fun email ↦ email.contains '@'⟩
  settings := Platform.sampleSettings

/-- A create call of the sample upload that nothing disturbs. -/
def sampleCreation : Operation :=
  .createIssuance
    { reservedAt := 1
      reserveFault := .none
      copy := .observed (some ⟨Platform.sampleUpload.target, 1000, some ⟨7⟩⟩)
      ids := ⟨⟨11⟩, ⟨12⟩, ⟨13⟩, ⟨14⟩⟩
      attachedAt := 2
      attachFault := .none
      failedAt := 3
      failFault := .none
      deletedAt := 3
      deletes := true
      deleteFault := .none }
    ⟨3⟩ ⟨5⟩ ⟨9⟩

/-- A database with uploads alone, none of which has a target. -/
theorem tenanted_of_uploads {db : Database} (huploads : (db.uploads.map (·.id)).Nodup)
    (hrecipients : (db.recipients.map (·.id)).Nodup)
    (htargets : ∀ upload ∈ db.uploads, upload.promotionTargetKey = none)
    (hempty : db.documents = [] ∧ db.issuances = [] ∧ db.verifications = [] ∧ db.jobs = [] ∧
      db.events = []) : Tenanted db := by
  obtain ⟨hdocuments, hissuances, hverifications, hjobs, hevents⟩ := hempty
  constructor
  · constructor <;> simp [huploads, hrecipients, hdocuments, hissuances, hverifications, hjobs]
  · intro upload hmem key hkey
    rw [htargets upload hmem] at hkey
    cases hkey
  · simp [hdocuments]
  · simp [hverifications]
  · simp [hjobs]
  · simp [hjobs]
  · simp [hevents]

/-- The sample call is accepted beside the neighbour's rows as without them. -/
theorem tenant_isolation_sample :
    ((sampleCreation.run sampleServices Platform.sampleActor Platform.sampleStore.db).1.isOk = true ∧
        neighbourDatabase.uploads ≠ Platform.sampleStore.db.uploads) ∧
      (sampleCreation.run sampleServices Platform.sampleActor Platform.sampleStore.db).1 =
          (sampleCreation.run sampleServices Platform.sampleActor neighbourDatabase).1 ∧
        (sampleCreation.run sampleServices Platform.sampleActor Platform.sampleStore.db).2.restrict ⟨1⟩ =
          (sampleCreation.run sampleServices Platform.sampleActor neighbourDatabase).2.restrict ⟨1⟩ ∧
        (∀ organizationId ≠ ⟨1⟩,
          (sampleCreation.run sampleServices Platform.sampleActor Platform.sampleStore.db).2.restrict
                organizationId =
              Platform.sampleStore.db.restrict organizationId ∧
            (sampleCreation.run sampleServices Platform.sampleActor neighbourDatabase).2.restrict
                organizationId =
              neighbourDatabase.restrict organizationId) ∧
        ∀ operation', Hides Platform.sampleActor Platform.sampleStore.db sampleCreation operation' →
          operation'.run sampleServices Platform.sampleActor Platform.sampleStore.db =
            sampleCreation.run sampleServices Platform.sampleActor Platform.sampleStore.db := by
  have hsample : Tenanted Platform.sampleStore.db :=
    tenanted_of_uploads (by decide) (by decide) (by decide) (by decide)
  have hneighbour : Tenanted neighbourDatabase :=
    tenanted_of_uploads (by decide) (by decide) (by decide) (by decide)
  have hfresh : sampleCreation.Fresh Platform.sampleStore.db := by
    constructor <;> decide
  have hfresh' : sampleCreation.Fresh neighbourDatabase := by
    constructor <;> decide
  refine ⟨⟨by decide +kernel, by decide⟩, ?_⟩
  exact tenant_isolation sampleServices Platform.sampleActor sampleCreation hsample hneighbour hfresh hfresh'
    (by rfl)

/-! ## 4. The relations the operations keep -/

section Kept

variable {actor : User} {db : Database}

/-- A new upload has no target yet. -/
theorem Tenanted.addUpload (h : Tenanted db) {upload : UploadRequest}
    (hfresh : ∀ other ∈ db.uploads, other.id ≠ upload.id)
    (hnone : upload.promotionTargetKey = none) :
    Tenanted { db with uploads := db.uploads ++ [upload] } where
  keyed := by
    refine ⟨?_, h.keyed.recipients, h.keyed.documents, h.keyed.issuances, h.keyed.verifications,
      h.keyed.jobs⟩
    simpa [List.nodup_append, h.keyed.uploads] using hfresh
  targets := by
    intro row hrow key hkey
    rcases List.mem_append.mp hrow with hold | hnew
    · exact h.targets row hold key hkey
    · rw [List.mem_singleton.mp hnew, hnone] at hkey
      cases hkey
  documents := by
    intro document hdocument
    obtain ⟨row, hmem, hrow⟩ := h.documents document hdocument
    exact ⟨row, List.mem_append_left _ hmem, hrow⟩
  verifications := by
    intro verification hverification
    obtain ⟨row, hmem, hrow⟩ := h.verifications verification hverification
    exact ⟨row, List.mem_append_left _ hmem, hrow⟩
  issuanceJobs := h.issuanceJobs
  verificationJobs := h.verificationJobs
  events := h.events

/-- Saving a job of the same record. -/
theorem Tenanted.saveJob (h : Tenanted db) {before job : Job} (hmem : before ∈ db.jobs)
    (hid : job.id = before.id) (horganization : job.organizationId = before.organizationId)
    (htarget : job.target = before.target) : Tenanted (db.saveJob job) where
  keyed := by
    refine ⟨h.keyed.uploads, h.keyed.recipients, h.keyed.documents, h.keyed.issuances,
      h.keyed.verifications, ?_⟩
    show ((Table.save (·.id) db.jobs job).map (·.id)).Nodup
    rw [Table.map_save]
    exact h.keyed.jobs
  targets := h.targets
  documents := h.documents
  verifications := h.verifications
  issuanceJobs := by
    intro row hrow id hissuance
    rcases Table.mem_save hrow with rfl | ⟨hold, -⟩
    · have hbefore : before.issuanceId = some id := by
        rw [← hissuance, Job.issuanceId, Job.issuanceId, htarget]
      rw [horganization]
      exact h.issuanceJobs before hmem id hbefore
    · exact h.issuanceJobs row hold id hissuance
  verificationJobs := by
    intro row hrow id hverification
    rcases Table.mem_save hrow with rfl | ⟨hold, -⟩
    · have hbefore : before.verificationId = some id := by
        rw [← hverification, Job.verificationId, Job.verificationId, htarget]
      rw [horganization]
      exact h.verificationJobs before hmem id hbefore
    · exact h.verificationJobs row hold id hverification
  events := by
    intro event hevent
    obtain ⟨row, hrow, hrowId⟩ := h.events event hevent
    by_cases hsame : row.id = job.id
    · exact ⟨job, Table.mem_save_self hrow hsame, hsame.symm.trans hrowId⟩
    · exact ⟨row, Table.mem_save_of_ne hrow hsame, hrowId⟩

/-- No other table refers to the recipients of this model. -/
theorem Tenanted.recipients (h : Tenanted db) {rows : List Recipient}
    (hrows : (rows.map (·.id)).Nodup) : Tenanted { db with recipients := rows } where
  keyed := ⟨h.keyed.uploads, hrows, h.keyed.documents, h.keyed.issuances, h.keyed.verifications,
    h.keyed.jobs⟩
  targets := h.targets
  documents := h.documents
  verifications := h.verifications
  issuanceJobs := h.issuanceJobs
  verificationJobs := h.verificationJobs
  events := h.events

theorem fillDisplayName_tenanted (h : Tenanted db) {name : String}
    {recipient recipient' : Recipient} {db' : Database}
    (hfill : fillDisplayName name recipient db = .ok (recipient', db')) : Tenanted db' := by
  unfold fillDisplayName at hfill
  split at hfill
  · simp only [bind_eq_ok, exists_unit, pure_eq_ok, Prod.mk.injEq] at hfill
    obtain ⟨-, -, rfl⟩ := hfill
    refine h.recipients ?_
    rw [Table.map_save]
    exact h.keyed.recipients
  · simp only [pure_eq_ok, Prod.mk.injEq] at hfill
    obtain ⟨-, rfl⟩ := hfill
    exact h

theorem createRecipient_tenanted (h : Tenanted db) {organizationId fresh : UUID}
    {email name : String} {recipient : Recipient} {db' : Database}
    (hcreate : createRecipient organizationId email name fresh db = .ok (recipient, db')) :
    Tenanted db' := by
  simp only [createRecipient, bind_eq_ok, exists_unit, raiseIf_eq_ok, pure_eq_ok,
    Prod.mk.injEq] at hcreate
  obtain ⟨-, hfresh, -, -, rfl⟩ := hcreate
  refine h.recipients ?_
  simpa [List.nodup_append, h.keyed.recipients] using hfresh

theorem resolveRecipientForIssue_tenanted (h : Tenanted db) {rules : TextRules}
    {organizationId fresh : UUID} {email : String} {name : Option String} {recipient : Recipient}
    {db' : Database} (hresolve : resolveRecipientForIssue rules organizationId email name fresh db =
      .ok (recipient, db')) : Tenanted db' := by
  simp only [resolveRecipientForIssue, bind_eq_ok, exists_unit] at hresolve
  obtain ⟨-, hresolve⟩ := hresolve
  split at hresolve
  · exact fillDisplayName_tenanted h hresolve
  · split at hresolve
    · split at hresolve
      · exact fillDisplayName_tenanted h hresolve
      · cases hresolve
      · cases hresolve
    · exact createRecipient_tenanted h hresolve

theorem cancelScopedJob_tenanted (h : Tenanted db) {jobId correlationId : UUID} {now : Instant}
    {job : Job} {db' : Database}
    (hcancel : cancelScopedJob actor jobId correlationId now db = .ok (job, db')) :
    Tenanted db' := by
  simp only [cancelScopedJob, bind_eq_ok, found_eq_ok, pure_eq_ok, Prod.exists,
    Prod.mk.injEq] at hcancel
  obtain ⟨-, -, row, hfind, job', audit', hlocked, -, rfl⟩ := hcancel
  obtain ⟨hid, hsame, htarget, -⟩ := requestCancelLocked_writes hlocked
  have hmem := (mem_scopedJobs (List.mem_of_find?_eq_some hfind)).1
  exact (h.saveJob hmem hid hsame htarget).audited audit'

/-- A refused upload call changes nothing but the log. -/
theorem recordingRejection_tenanted {α : Type} (h : Tenanted db) {action : String}
    {correlationId : UUID} {body : Except Raised (α × Database)}
    (hbody : ∀ a db', body = .ok (a, db') → Tenanted db') :
    Tenanted (recordingRejection actor action correlationId body db).2 := by
  rcases recordingRejection_cases actor action correlationId body db with ⟨a, hok⟩ | ⟨audit, hlog⟩
  · exact hbody a _ hok
  · rw [hlog]
    exact h.audited audit

/-- Every operation keeps the relations. -/
theorem Operation.keeps {services : Services} (operation : Operation) (h : Tenanted db) :
    Tenanted (operation.run services actor db).2 := by
  cases operation with
  | createUpload signed now uploadId correlationId request =>
    show Tenanted (Splitbind.createUpload services.settings.maxPdfBytes signed now uploadId
      correlationId actor request db).2
    refine recordingRejection_tenanted h fun record db' hok ↦ ?_
    obtain ⟨⟨purpose, sha256, hrecord⟩, hfresh, rfl⟩ := createUploadLocked_cases hok
    have hnone : record.promotionTargetKey = none := by
      rw [hrecord]
      rfl
    exact (h.addUpload hfresh hnone).audited _
  | completeUpload now later head correlationId uploadId sha256 =>
    show Tenanted (Splitbind.completeUpload now later head correlationId actor uploadId sha256
      db).2
    refine recordingRejection_tenanted h fun record db' hok ↦ ?_
    rcases completeUploadLocked_cases hok with rfl | ⟨upload, hmem, -, audit, rfl⟩
    · exact h
    · have hsaved : Tenanted (db.saveUpload { upload with finalizedAt := some later }) :=
        h.saveUpload hmem rfl rfl rfl (h.targets upload hmem)
      exact hsaved.audited audit
  | createIssuance setting recipientId uploadId correlationId => exact createRecord_tenanted h
  | createVerification setting uploadId correlationId => exact createRecord_tenanted h
  | requestCancel jobId correlationId now =>
    show Tenanted (cancelJob actor jobId correlationId now db).2
    unfold cancelJob
    cases hcancel : cancelScopedJob actor jobId correlationId now db with
    | ok r => exact cancelScopedJob_tenanted h hcancel
    | error error =>
      dsimp only
      split
      · exact h.audited _
      · exact h
  | resolveRecipient email name fresh =>
    exact attempt_keeps h fun _ _ hbody ↦ resolveRecipientForIssue_tenanted h hbody
  | getIssuance | getVerification | getJob | listJobs => exact h

end Kept

/-! ## 5. Runs -/

/-- The calls of a run, each with its actor. -/
abbrev Call := User × Operation

def Call.step (services : Services) (call : Call) (db : Database) :
    Except Raised ServiceAnswer × Database :=
  call.2.run services call.1 db

/-- In two runs with the same calls of an organisation, from databases that agree on its rows, its
calls are answered the same and its rows end up the same, whatever the other organisations do. -/
theorem runs_isolated {services : Services} {organizationId : UUID} {calls₁ calls₂ : List Call}
    {db₁ db₂ : Database} (h₁ : Tenanted db₁) (h₂ : Tenanted db₂)
    (hfresh₁ : Admissible (Call.step services) (fun call db ↦ call.2.Fresh db) calls₁ db₁)
    (hfresh₂ : Admissible (Call.step services) (fun call db ↦ call.2.Fresh db) calls₂ db₂)
    (hagree : db₁.restrict organizationId = db₂.restrict organizationId)
    (hcalls : calls₁.filter (·.1.organizationId = organizationId) =
      calls₂.filter (·.1.organizationId = organizationId)) :
    answers (Call.step services) (·.1.organizationId = organizationId) calls₁ db₁ =
        answers (Call.step services) (·.1.organizationId = organizationId) calls₂ db₂ ∧
      (run (Call.step services) calls₁ db₁).restrict organizationId =
        (run (Call.step services) calls₂ db₂).restrict organizationId := by
  have hkeeps : ∀ (call : Call) db, Tenanted db → call.2.Fresh db →
      Tenanted (call.step services db).2 := fun call _ h _ ↦ call.2.keeps h
  have hisolated : ∀ (call : Call) db, Tenanted db ∧ call.2.Fresh db →
      Isolated Database.restrict call.1.organizationId (call.step services) db :=
    fun call db h ↦ call.2.isolated h.1 h.2
  exact runs_agree hisolated (hfresh₁.and_invariant hkeeps h₁) (hfresh₂.and_invariant hkeeps h₂)
    hagree hcalls

/-! ## 6. Reachable states -/

/-- The relations hold in every reachable state: whatever the workers and the cleanup do in
between, an organisation is isolated from the others. -/
theorem reachable_tenanted {formats : FormatChecker} {settings : ServiceSettings} {W : Type*}
    [DecidableEq W] {pool : Pool W} (h : Reachable formats settings pool) :
    Tenanted pool.store.db := by
  have hkeyed := h.locks.shared
  have hledger := h.ledger
  have hrows := h.objectsHold.shared.1
  refine ⟨hkeyed, fun upload hmem ↦ (hrows upload hmem).2, ?_, ?_, ?_, ?_, ?_⟩
  · intro document hdocument
    obtain ⟨upload, hmem, hid, hsame, -, -, htarget, -⟩ := hledger.document document hdocument
    exact ⟨upload, hmem, hid, hsame, (hrows upload hmem).2 _ htarget⟩
  · intro verification hverification
    obtain ⟨upload, hmem, key, sha256, hid, hsame, -⟩ :=
      hledger.verification verification hverification
    exact ⟨upload, hmem, hid, hsame⟩
  · intro job hjob id hid
    have hmem : id ∈ pool.store.db.jobs.filterMap (·.issuanceId) :=
      List.mem_filterMap.mpr ⟨job, hjob, hid⟩
    rw [hledger.issuanceJobs] at hmem
    obtain ⟨issuance, hissuance, rfl⟩ := List.mem_map.mp hmem
    exact ⟨issuance, hissuance, rfl, hledger.issuanceJobOwner job hjob issuance hissuance hid⟩
  · intro job hjob id hid
    have hmem : id ∈ pool.store.db.jobs.filterMap (·.verificationId) :=
      List.mem_filterMap.mpr ⟨job, hjob, hid⟩
    rw [hledger.verificationJobs] at hmem
    obtain ⟨verification, hverification, rfl⟩ := List.mem_map.mp hmem
    exact ⟨verification, hverification, rfl,
      hledger.verificationJobOwner job hjob verification hverification hid⟩
  · intro event hevent
    have hmem : event.jobId ∈ pool.store.db.events.map (·.jobId) := List.mem_map_of_mem hevent
    rw [hledger.events] at hmem
    exact List.mem_map.mp hmem

end Splitbind
