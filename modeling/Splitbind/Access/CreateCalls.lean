import Splitbind.Access.Tenancy
import Splitbind.Retention.Steps

/-!
# Create calls — each transaction, and the call as a whole, within one organisation

Between its transactions a call keeps nothing but the key of its upload, and the later ones look the
row up by that key alone.  The reservation has found it in the actor's organisation, and no
transaction moves a row to another one.
-/

namespace Splitbind

open Transaction Isolation Platform Relation

/-! ## 1. What a transaction keeps -/

section Kept

variable {db : Database}

theorem Database.Keyed.saveUpload (h : db.Keyed) (upload : UploadRequest) :
    (db.saveUpload upload).Keyed where
  uploads := by
    show ((Table.save (·.id) db.uploads upload).map (·.id)).Nodup
    rw [Table.map_save]
    exact h.uploads
  recipients := h.recipients
  documents := h.documents
  issuances := h.issuances
  verifications := h.verifications
  jobs := h.jobs

/-- A saved upload is still what the rows that refer to it were checked against. -/
theorem Tenanted.saveUpload (h : Tenanted db) {before upload : UploadRequest}
    (hmem : before ∈ db.uploads) (hid : upload.id = before.id)
    (horganization : upload.organizationId = before.organizationId)
    (hpurpose : upload.purpose = before.purpose)
    (hkey : ∀ key ∈ upload.promotionTargetKey, key = upload.target) :
    Tenanted (db.saveUpload upload) := by
  have htarget : upload.target = before.target := by
    rw [UploadRequest.target, UploadRequest.target, hid, horganization, hpurpose]
  have hrow : ∀ row ∈ db.uploads, ∃ row' ∈ (db.saveUpload upload).uploads, row'.id = row.id ∧
      row'.organizationId = row.organizationId ∧ row'.target = row.target := by
    intro row hrow
    by_cases hsame : row.id = upload.id
    · obtain rfl := List.inj_on_of_nodup_map h.keyed.uploads hrow hmem (hsame.trans hid)
      exact ⟨upload, Table.mem_save_self hmem hsame, hid, horganization, htarget⟩
    · exact ⟨row, Table.mem_save_of_ne hrow hsame, rfl, rfl, rfl⟩
  refine ⟨h.keyed.saveUpload upload, ?_, ?_, ?_, h.issuanceJobs, h.verificationJobs, h.events⟩
  · intro row hmem key hsome
    rcases Table.mem_save hmem with rfl | ⟨hold, -⟩
    · exact hkey key hsome
    · exact h.targets row hold key hsome
  · intro document hdocument
    obtain ⟨row, hmem, hid, hsame, hsource⟩ := h.documents document hdocument
    obtain ⟨row', hmem', hid', hsame', htarget'⟩ := hrow row hmem
    exact ⟨row', hmem', hid'.trans hid, hsame'.trans hsame, hsource.trans htarget'.symm⟩
  · intro verification hverification
    obtain ⟨row, hmem, hid, hsame⟩ := h.verifications verification hverification
    obtain ⟨row', hmem', hid', hsame', -⟩ := hrow row hmem
    exact ⟨row', hmem', hid'.trans hid, hsame'.trans hsame⟩

/-- The log is not looked at. -/
theorem Tenanted.audited (h : Tenanted db) (audit : List AuditEvent) :
    Tenanted { db with audit := audit } where
  keyed := ⟨h.keyed.uploads, h.keyed.recipients, h.keyed.documents, h.keyed.issuances,
    h.keyed.verifications, h.keyed.jobs⟩
  targets := h.targets
  documents := h.documents
  verifications := h.verifications
  issuanceJobs := h.issuanceJobs
  verificationJobs := h.verificationJobs
  events := h.events

/-- The database has an upload of the organisation under a key. -/
def OwnUpload (organizationId uploadId : UUID) (db : Database) : Prop :=
  ∃ upload ∈ db.uploads, upload.id = uploadId ∧ upload.organizationId = organizationId

theorem OwnUpload.saveUpload {organizationId uploadId : UUID}
    (h : OwnUpload organizationId uploadId db) (hkeyed : db.Keyed) {before upload : UploadRequest}
    (hmem : before ∈ db.uploads) (hid : upload.id = before.id)
    (horganization : upload.organizationId = before.organizationId) :
    OwnUpload organizationId uploadId (db.saveUpload upload) := by
  obtain ⟨row, hrow, hrowId, hrowOrganization⟩ := h
  by_cases hsame : row.id = upload.id
  · obtain rfl := List.inj_on_of_nodup_map hkeyed.uploads hrow hmem (hsame.trans hid)
    exact ⟨upload, Table.mem_save_self hmem hsame, hid.trans hrowId,
      horganization.trans hrowOrganization⟩
  · exact ⟨row, Table.mem_save_of_ne hrow hsame, hrowId, hrowOrganization⟩

end Kept

/-! ## 2. Reserving -/

section Reserving

variable {actor : User} {db : Database}

theorem findRecipient_restrict {recipientId : UUID} :
    findRecipient actor recipientId (db.restrict actor.organizationId) =
      findRecipient actor recipientId db := by
  refine congrArg (found · _) (Table.find?_filter fun row _ hrow ↦ ?_)
  exact decide_eq_true (of_decide_eq_true hrow).2

/-- Saving a promotion moves no row. -/
theorem savePromotion_same {upload upload' : UploadRequest} {status : PromotionStatus}
    {targetKey : Option ObjectKey} {safeErrorCode : Option String} {now : Instant}
    (h : upload.savePromotion status targetKey safeErrorCode now = .ok upload') :
    upload'.id = upload.id ∧ upload'.organizationId = upload.organizationId := by
  obtain ⟨-, ⟨-, -, rfl⟩ | ⟨-, -, -, -, rfl⟩⟩ := UploadRequest.savePromotion_cases h
  · exact ⟨rfl, rfl⟩
  · exact ⟨rfl, rfl⟩

theorem reservePromotion_confined (hkeyed : db.Keyed) {now : Instant} {uploadId : UUID}
    {kind : JobKind} :
    Confined Database.restrict actor.organizationId (reservePromotion now actor uploadId kind)
      db := by
  unfold reservePromotion
  refine .query rfl fun _ _ ↦ ?_
  refine .query ?_ fun upload hupload ↦ ?_
  · refine congrArg (found · _) (Table.find?_filter fun row _ hrow ↦ ?_)
    exact decide_eq_true (of_decide_eq_true hrow).2.1
  rw [found_eq_ok] at hupload
  have hrow := List.find?_some hupload
  simp only [decide_eq_true_eq] at hrow
  refine .query rfl fun _ _ ↦ ?_
  refine .query rfl fun _ _ ↦ ?_
  refine .query rfl fun _ _ ↦ ?_
  refine .query rfl fun _ _ ↦ ?_
  refine .query rfl fun _ _ ↦ ?_
  refine .query rfl fun saved hsaved ↦ ?_
  obtain ⟨hid, hsame⟩ := savePromotion_same hsaved
  exact .commit (local_saveUpload hkeyed.uploads (List.mem_of_find?_eq_some hupload) hid hsame hrow.2.1) _

theorem beginCreate_confined (hkeyed : db.Keyed) {now : Instant} {request : CreateRequest}
    {uploadId correlationId : UUID} :
    Confined Database.restrict actor.organizationId
      (beginCreate now actor request uploadId correlationId) db := by
  unfold beginCreate
  refine .query rfl fun _ _ ↦ ?_
  cases request with
  | issuance recipientId =>
    refine .query findRecipient_restrict fun recipient _ ↦ ?_
    refine .bind (reservePromotion_confined hkeyed) fun upload db' _ ↦ ?_
    exact .commit .id _
  | verification =>
    refine .bind (reservePromotion_confined hkeyed) fun upload db' _ ↦ ?_
    exact .commit .id _

theorem beginCreate_call {now : Instant} {request : CreateRequest} {uploadId correlationId : UUID}
    {db' : Database} {promotion : PromotionCall}
    (h : beginCreate now actor request uploadId correlationId db = .ok (promotion, db')) :
    promotion.actor = actor ∧ promotion.correlationId = correlationId := by
  simp only [beginCreate, bind_eq_ok] at h
  obtain ⟨-, -, h⟩ := h
  cases request with
  | issuance recipientId =>
    simp only [bind_eq_ok, pure_eq_ok, Prod.mk.injEq] at h
    obtain ⟨recipient, -, ⟨upload, db''⟩, -, rfl, -⟩ := h
    exact ⟨rfl, rfl⟩
  | verification =>
    simp only [bind_eq_ok, pure_eq_ok, Prod.mk.injEq] at h
    obtain ⟨⟨upload, db''⟩, -, rfl, -⟩ := h
    exact ⟨rfl, rfl⟩

/-- A call that has begun is the actor's, and so is its upload. -/
theorem beginCreate_own {now : Instant} {request : CreateRequest} {uploadId correlationId : UUID}
    {db' : Database} {promotion : PromotionCall} (hdb : Tenanted db)
    (h : beginCreate now actor request uploadId correlationId db = .ok (promotion, db')) :
    promotion.actor = actor ∧ Tenanted db' ∧
      OwnUpload actor.organizationId promotion.upload.id db' := by
  obtain ⟨upload, hmem, -, -, horganization, -, -, -, -, hupload, rfl⟩ := beginCreate_cases h
  rw [hupload]
  refine ⟨(beginCreate_call h).1, hdb.saveUpload hmem rfl rfl rfl ?_, ?_⟩
  · intro key hkey
    exact (Option.some.inj hkey).symm
  · exact ⟨_, Table.mem_save_self hmem rfl, rfl, horganization⟩

end Reserving

/-! ## 3. Attaching -/

section Writes

variable {db : Database} {organizationId : UUID}

theorem local_addIssuance {document : Document} {issuance : Issuance}
    (hdocument : document.organizationId = organizationId)
    (hissuance : issuance.organizationId = organizationId) :
    Local Database.restrict organizationId (fun db ↦ { db with
      documents := db.documents ++ [document]
      issuances := db.issuances ++ [issuance] }) db where
  own := by simp [Database.restrict, hdocument, hissuance]
  others := by
    intro other hother
    simp [Database.restrict, hdocument, hissuance, hother.symm]

theorem local_addVerification {verification : Verification}
    (h : verification.organizationId = organizationId) :
    Local Database.restrict organizationId (fun db ↦ { db with
      verifications := db.verifications ++ [verification] }) db where
  own := by simp [Database.restrict, h]
  others := by
    intro other hother
    simp [Database.restrict, h, hother.symm]

/-- The rows an attach transaction writes after its domain record. -/
def attachedRows (promotion : PromotionCall) (ids : FreshIds) (job : Job) (payload : JsonObject)
    (attached : UploadRequest) (db : Database) : Database :=
  { db.saveUpload attached with
    jobs := db.jobs ++ [job]
    events := db.events ++
      [{ messageId := ids.message, organizationId := job.organizationId, jobId := job.id,
         attempt := job.attempt, topic := job.kind.text ++ ".requested", payload := payload,
         publishedAt := none }]
    audit := db.audit ++ [createdEvent promotion ids] }

theorem local_attachedRows {promotion : PromotionCall} {ids : FreshIds} {job : Job}
    {payload : JsonObject} {attached : UploadRequest}
    (hactor : promotion.actor.organizationId = organizationId)
    (hjob : job.organizationId = organizationId)
    (hsave : Local Database.restrict organizationId (·.saveUpload attached) db) :
    Local Database.restrict organizationId (attachedRows promotion ids job payload attached)
      db := by
  have hrows : Local Database.restrict organizationId (fun db ↦ { db with
      jobs := db.jobs ++ [job]
      events := db.events ++
        [{ messageId := ids.message, organizationId := job.organizationId, jobId := job.id,
           attempt := job.attempt, topic := job.kind.text ++ ".requested", payload := payload,
           publishedAt := none }]
      audit := db.audit ++ [createdEvent promotion ids] }) (db.saveUpload attached) := by
    have hevent : (createdEvent promotion ids).organizationId = organizationId := hactor
    constructor
    · simp [Database.restrict, hjob, hevent]
    · intro other hother
      simp [Database.restrict, hjob, hevent, hother.symm]
  have hboth := hrows.comp hsave
  exact hboth

end Writes

/-- No row has one of the new keys of an attach transaction. -/
structure FreshAttach (ids : FreshIds) (db : Database) : Prop where
  documents : ∀ document ∈ db.documents, document.id ≠ ids.document
  issuances : ∀ issuance ∈ db.issuances, issuance.id ≠ ids.domain
  verifications : ∀ verification ∈ db.verifications, verification.id ≠ ids.domain
  jobs : ∀ job ∈ db.jobs, job.id ≠ ids.job
  events : ∀ event ∈ db.events, event.messageId ≠ ids.message

section Attaching

variable {actor : User} {db : Database}

/-- The upload of a call is found by its key alone. -/
theorem find?_restrict_own (hkeyed : db.Keyed) {organizationId uploadId : UUID}
    (hown : OwnUpload organizationId uploadId db) :
    (db.restrict organizationId).uploads.find? (·.id = uploadId) =
      db.uploads.find? (·.id = uploadId) := by
  obtain ⟨upload, hmem, rfl, horganization⟩ := hown
  exact find?_restrict_uploads hkeyed hmem horganization

/-- A row found under that key is the organisation's. -/
theorem organization_of_find? (hkeyed : db.Keyed) {organizationId uploadId : UUID}
    (hown : OwnUpload organizationId uploadId db) {upload : UploadRequest}
    (h : db.uploads.find? (·.id = uploadId) = some upload) :
    upload ∈ db.uploads ∧ upload.organizationId = organizationId := by
  obtain ⟨row, hmem, hid, horganization⟩ := hown
  have hfound := List.mem_of_find?_eq_some h
  have hsame := List.find?_some h
  simp only [decide_eq_true_eq] at hsame
  obtain rfl := List.inj_on_of_nodup_map hkeyed.uploads hfound hmem (hsame.trans hid.symm)
  exact ⟨hfound, horganization⟩

theorem markFailed_confined (hkeyed : db.Keyed) {organizationId uploadId : UUID}
    (hown : OwnUpload organizationId uploadId db) {targetKey : Option ObjectKey}
    {safeCode : String} {now : Instant} :
    Confined Database.restrict organizationId (markFailed uploadId targetKey safeCode now) db := by
  unfold markFailed
  refine .query (congrArg (found · _) (find?_restrict_own hkeyed hown)) fun locked hlocked ↦ ?_
  rw [found_eq_ok] at hlocked
  obtain ⟨hmem, horganization⟩ := organization_of_find? hkeyed hown hlocked
  refine .ite (fun _ ↦ ?_) fun _ ↦ .commit .id _
  refine .query rfl fun failed hfailed ↦ ?_
  obtain ⟨hid, hsame⟩ := savePromotion_same hfailed
  exact .commit (local_saveUpload hkeyed.uploads hmem hid hsame horganization) _

/-- Whoever refers to an upload of the organisation is in the organisation. -/
theorem Tenanted.document_organization (hdb : Tenanted db) {upload : UploadRequest}
    (hmem : upload ∈ db.uploads) {document : Document} (hdocument : document ∈ db.documents)
    (h : document.uploadRequestId = upload.id ∨ document.sourceObjectKey = upload.target) :
    document.organizationId = upload.organizationId := by
  obtain ⟨row, hrow, hid, hsame, hsource⟩ := hdb.documents document hdocument
  rcases h with h | h
  · obtain rfl := List.inj_on_of_nodup_map hdb.keyed.uploads hrow hmem (hid.trans h)
    exact hsame.symm
  · have htarget : row.target = upload.target := hsource.symm.trans h
    injection htarget with _ horganization _
    rw [← hsame, horganization]

theorem Tenanted.verification_organization (hdb : Tenanted db) {upload : UploadRequest}
    (hmem : upload ∈ db.uploads) {verification : Verification}
    (hverification : verification ∈ db.verifications)
    (h : verification.uploadRequestId = upload.id) :
    verification.organizationId = upload.organizationId := by
  obtain ⟨row, hrow, hid, hsame⟩ := hdb.verifications verification hverification
  obtain rfl := List.inj_on_of_nodup_map hdb.keyed.uploads hrow hmem (hid.trans h)
  exact hsame.symm

theorem createDomain_confined (hdb : Tenanted db) {promotion : PromotionCall}
    {locked : UploadRequest} {ids : FreshIds} {now : Instant} (hfresh : FreshAttach ids db)
    (hmem : locked ∈ db.uploads) (horganization : locked.organizationId =
      promotion.actor.organizationId) :
    Confined Database.restrict promotion.actor.organizationId
      (createDomain promotion locked ids now) db := by
  unfold createDomain
  cases promotion.request with
  | issuance recipient =>
    unfold createIssuanceDomain
    refine .query rfl fun key hkey ↦ ?_
    rw [found_eq_ok] at hkey
    have htarget := hdb.targets locked hmem key hkey
    refine .query rfl fun sha256 _ ↦ ?_
    refine .query rfl fun _ _ ↦ ?_
    refine .query (raiseIf_filter (fun other hother hid ↦ ?_) _) fun _ _ ↦ ?_
    · exact absurd hid (hfresh.documents other hother)
    refine .query (raiseIf_filter (fun other hother hid ↦ ?_) _) fun _ _ ↦ ?_
    · rw [hdb.document_organization hmem hother (.inl hid)]
      exact decide_eq_true horganization
    refine .query (raiseIf_filter (fun other hother hsource ↦ ?_) _) fun _ _ ↦ ?_
    · rw [hdb.document_organization hmem hother (.inr (hsource.trans htarget))]
      exact decide_eq_true horganization
    refine .query rfl fun _ _ ↦ ?_
    refine .query (raiseIf_filter (fun other hother hid ↦ ?_) _) fun _ _ ↦ ?_
    · exact absurd hid (hfresh.issuances other hother)
    exact .commit (local_addIssuance (by rfl) (by rfl)) _
  | verification =>
    unfold createVerificationDomain
    refine .query rfl fun _ _ ↦ ?_
    refine .query (raiseIf_filter (fun other hother hid ↦ ?_) _) fun _ _ ↦ ?_
    · exact absurd hid (hfresh.verifications other hother)
    refine .query (raiseIf_filter (fun other hother hid ↦ ?_) _) fun _ _ ↦ ?_
    · rw [hdb.verification_organization hmem hother hid]
      exact decide_eq_true horganization
    exact .commit (local_addVerification (by rfl)) _

theorem lockUnchangedReservation_restrict (hkeyed : db.Keyed) {promotion : PromotionCall}
    (hown : OwnUpload promotion.actor.organizationId promotion.upload.id db) :
    lockUnchangedReservation promotion (db.restrict promotion.actor.organizationId) =
      lockUnchangedReservation promotion db := by
  unfold lockUnchangedReservation
  rw [find?_restrict_own hkeyed hown]

theorem createDomain_keeps {promotion : PromotionCall} {locked : UploadRequest} {ids : FreshIds}
    {now : Instant} {target : JobTarget} {db' : Database}
    (h : createDomain promotion locked ids now db = .ok (target, db')) :
    db'.uploads = db.uploads ∧ db'.jobs = db.jobs ∧ db'.events = db.events := by
  unfold createDomain at h
  cases hrequest : promotion.request with
  | issuance recipient =>
    simp only [hrequest, createIssuanceDomain, bind_eq_ok, pure_eq_ok, Prod.mk.injEq] at h
    obtain ⟨key, -, sha256, -, -, -, -, -, -, -, -, -, -, -, -, -, -, rfl⟩ := h
    exact ⟨rfl, rfl, rfl⟩
  | verification =>
    simp only [hrequest, createVerificationDomain, bind_eq_ok, pure_eq_ok, Prod.mk.injEq] at h
    obtain ⟨-, -, -, -, -, -, -, rfl⟩ := h
    exact ⟨rfl, rfl, rfl⟩

/-- With new keys, only the schema can refuse an event. -/
theorem createJobEvent_of_fresh {formats : FormatChecker} {events : List OutboxEvent} {job : Job}
    {messageId : UUID} {key sha256 : String}
    (hmessage : ∀ event ∈ events, event.messageId ≠ messageId)
    (hjob : ∀ event ∈ events, event.jobId ≠ job.id) :
    createJobEvent formats events job messageId key sha256 =
      buildJobRequest formats job messageId key sha256 >>= fun payload ↦
        .ok (events ++
          [{ messageId := messageId, organizationId := job.organizationId, jobId := job.id,
             attempt := job.attempt, topic := job.kind.text ++ ".requested", payload := payload,
             publishedAt := none }]) := by
  unfold createJobEvent
  refine congrArg (buildJobRequest formats job messageId key sha256 >>= ·) (funext fun payload ↦ ?_)
  unfold OutboxEvent.create
  rw [raiseIf_neg, raiseIf_neg]
  · rfl
  · rintro ⟨other, hother, hid, -⟩
    exact hjob other hother hid
  · rintro ⟨other, hother, hid⟩
    exact hmessage other hother hid

theorem attachPromotion_confined {formats : FormatChecker} {jobTimeoutSeconds : Nat}
    (hdb : Tenanted db) {promotion : PromotionCall} {ids : FreshIds} {now : Instant}
    (hfresh : FreshAttach ids db)
    (hown : OwnUpload promotion.actor.organizationId promotion.upload.id db) :
    Confined Database.restrict promotion.actor.organizationId
      (attachPromotion formats jobTimeoutSeconds promotion ids now) db := by
  unfold attachPromotion
  refine .query (lockUnchangedReservation_restrict hdb.keyed hown) fun locked hlocked ↦ ?_
  simp only [lockUnchangedReservation, bind_eq_ok, exists_unit, raiseIf_eq_ok, found_eq_ok,
    pure_eq_ok] at hlocked
  obtain ⟨row, hfind, -, hrow⟩ := hlocked
  rw [hrow] at hfind
  obtain ⟨hmem, horganization⟩ := organization_of_find? hdb.keyed hown hfind
  refine .bind (createDomain_confined hdb hfresh hmem horganization) fun target db' hdomain ↦ ?_
  obtain ⟨huploads, hjobs, hevents⟩ := createDomain_keeps hdomain
  refine .query (raiseIf_filter (fun other hother hid ↦ ?_) _) fun _ _ ↦ ?_
  · rw [hjobs] at hother
    exact absurd hid (hfresh.jobs other hother)
  refine .query rfl fun key _ ↦ ?_
  refine .query rfl fun sha256 _ ↦ ?_
  set job := newJob jobTimeoutSeconds promotion target ids now
  -- the identifiers are fresh, so no event of any organization is in the way
  have hmessage : ∀ events ⊆ db'.events, ∀ event ∈ events, event.messageId ≠ ids.message := by
    rw [hevents]
    exact fun events hsubset event hevent ↦ hfresh.events event (hsubset hevent)
  have hjob : ∀ events ⊆ db'.events, ∀ event ∈ events, event.jobId ≠ job.id := by
    rw [hevents]
    intro events hsubset event hevent heq
    obtain ⟨row, hrow, hid⟩ := hdb.events event (hsubset hevent)
    exact hfresh.jobs row hrow (hid.trans heq)
  have htail : Confined Database.restrict promotion.actor.organizationId (fun db ↦
      buildJobRequest formats job ids.message key.text sha256.text >>= fun payload ↦
        locked.savePromotion .attached promotion.upload.promotionTargetKey none now >>=
          fun attached ↦ Except.ok (job, attachedRows promotion ids job payload attached db)) db' := by
    refine .query rfl fun payload _ ↦ ?_
    refine .query rfl fun attached hattached ↦ ?_
    obtain ⟨hid, hsame⟩ := savePromotion_same hattached
    refine .commit (local_attachedRows rfl rfl ?_) job
    have hkeyed : (db'.uploads.map (·.id)).Nodup := huploads ▸ hdb.keyed.uploads
    exact local_saveUpload hkeyed (huploads ▸ hmem) hid hsame horganization
  refine htail.congr ?_ ?_
  · rw [createJobEvent_of_fresh (hmessage _ (List.Subset.refl _)) (hjob _ (List.Subset.refl _)),
      bind_assoc]
    rfl
  · have hsubset : (db'.restrict promotion.actor.organizationId).events ⊆ db'.events :=
      List.filter_subset_self _
    rw [createJobEvent_of_fresh (hmessage _ hsubset) (hjob _ hsubset), bind_assoc]
    rfl

/-- An attach transaction that commits adds rows that refer to each other. -/
theorem attachPromotion_own {formats : FormatChecker} {jobTimeoutSeconds : Nat}
    (hdb : Tenanted db) {promotion : PromotionCall} {ids : FreshIds} {now : Instant} {job : Job}
    {db' : Database}
    (h : attachPromotion formats jobTimeoutSeconds promotion ids now db = .ok (job, db')) :
    Tenanted db' ∧ ∀ organizationId uploadId, OwnUpload organizationId uploadId db →
      OwnUpload organizationId uploadId db' := by
  obtain ⟨locked, sha256, hattaches, hjob, rfl⟩ := attachPromotion_cases h
  have hmem := hattaches.mem
  -- the promoted upload keeps its organization and its object
  have hsaved : Tenanted (db.saveUpload (locked.promoted .attached none now)) := by
    refine hdb.saveUpload hmem rfl rfl rfl ?_
    intro key hkey
    exact (Option.some.inj hkey).symm
  have hlocked : locked.promoted .attached none now ∈
      (db.saveUpload (locked.promoted .attached none now)).uploads :=
    Table.mem_save_self hmem rfl
  constructor
  · refine ⟨hattaches.keyed hdb.keyed, hsaved.targets, ?_, ?_, ?_, ?_, ?_⟩
    · intro document hdocument
      -- an issuance is the only thing that adds a document
      rcases List.mem_append.mp hdocument with hold | hnew
      · exact hsaved.documents document hold
      · cases hrequest : promotion.request with
        | issuance recipient =>
          rw [hrequest] at hnew
          rw [List.mem_singleton.mp hnew]
          exact ⟨_, hlocked, rfl, hattaches.organization, rfl⟩
        | verification =>
          rw [hrequest] at hnew
          exact absurd hnew List.not_mem_nil
    · intro verification hverification
      rcases List.mem_append.mp hverification with hold | hnew
      · exact hsaved.verifications verification hold
      · cases hrequest : promotion.request with
        | issuance recipient =>
          rw [hrequest] at hnew
          exact absurd hnew List.not_mem_nil
        | verification =>
          rw [hrequest] at hnew
          rw [List.mem_singleton.mp hnew]
          exact ⟨_, hlocked, rfl, hattaches.organization⟩
    · intro row hrow id hid
      -- the new job belongs to the issuance that is added with it
      rcases List.mem_append.mp hrow with hold | hnew
      · obtain ⟨issuance, hissuance, hkey, hsame⟩ := hdb.issuanceJobs row hold id hid
        exact ⟨issuance, List.mem_append_left _ hissuance, hkey, hsame⟩
      · rw [List.mem_singleton.mp hnew, hjob] at hid ⊢
        cases hrequest : promotion.request with
        | issuance recipient =>
          rw [hrequest] at hid
          refine ⟨newIssuance promotion.actor recipient ids now, ?_, Option.some.inj hid, rfl⟩
          show _ ∈ db.issuances ++ promotion.request.issuances promotion.actor ids now
          rw [hrequest]
          exact List.mem_append_right _ (List.mem_singleton_self _)
        | verification =>
          rw [hrequest] at hid
          cases hid
    · intro row hrow id hid
      -- and likewise for a verification
      rcases List.mem_append.mp hrow with hold | hnew
      · obtain ⟨verification, hverification, hkey, hsame⟩ :=
          hdb.verificationJobs row hold id hid
        exact ⟨verification, List.mem_append_left _ hverification, hkey, hsame⟩
      · rw [List.mem_singleton.mp hnew, hjob] at hid ⊢
        cases hrequest : promotion.request with
        | issuance recipient =>
          rw [hrequest] at hid
          cases hid
        | verification =>
          rw [hrequest] at hid
          refine ⟨newVerification promotion.actor locked ids, ?_, Option.some.inj hid, rfl⟩
          show _ ∈ db.verifications ++
            promotion.request.verifications promotion.actor locked ids
          rw [hrequest]
          exact List.mem_append_right _ (List.mem_singleton_self _)
    · intro event hevent
      rcases List.mem_append.mp hevent with hold | hnew
      · obtain ⟨row, hrow, hid⟩ := hdb.events event hold
        exact ⟨row, List.mem_append_left _ hrow, hid⟩
      · rw [List.mem_singleton.mp hnew]
        exact ⟨job, List.mem_append_right _ (List.mem_singleton_self _), rfl⟩
  · intro organizationId uploadId hown
    exact hown.saveUpload hdb.keyed hmem rfl rfl

end Attaching

/-! ## 4. Whole calls -/

section Calls

variable {db : Database} {formats : FormatChecker} {settings : ServiceSettings}
  {setting : CreateSetting} {promotion : PromotionCall}

/-- What a transaction keeps, it keeps whatever the database does to it. -/
theorem attempt_keeps {α : Type} {I : Database → Prop} {fault : Fault} {unavailable : Raised}
    {body : Except Raised (α × Database)} (h : I db)
    (hbody : ∀ a db', body = .ok (a, db') → I db') :
    I (attempt fault unavailable body db).2 := by
  rcases attempt_cases fault unavailable body db with ⟨a, db', hok, hstore, -⟩ | ⟨hstore, -⟩
  · rw [hstore]
    exact hbody a db' hok
  · rw [hstore]
    exact h

theorem failPromotion_local (hkeyed : db.Keyed) {code : String}
    (hown : OwnUpload promotion.actor.organizationId promotion.upload.id db) :
    Local Database.restrict promotion.actor.organizationId
      (failPromotion setting promotion code) db :=
  (markFailed_confined hkeyed hown).attempt.write

theorem deleteAttachedOrphanSource_confined (hkeyed : db.Keyed) {stored : Bool} {actor : User}
    {uploadId correlationId : UUID} {now : Instant} :
    Confined Database.restrict actor.organizationId
      (deleteAttachedOrphanSource stored actor uploadId correlationId now) db := by
  unfold deleteAttachedOrphanSource
  refine .query ?_ fun record hrecord ↦ ?_
  · refine congrArg (found · _) (Table.find?_filter fun row _ hrow ↦ ?_)
    exact decide_eq_true (of_decide_eq_true hrow).2.1
  rw [found_eq_ok] at hrecord
  have hrow := List.find?_some hrecord
  simp only [decide_eq_true_eq] at hrow
  refine .ite (fun _ ↦ .commit .id _) fun _ ↦ ?_
  refine .query rfl fun _ _ ↦ ?_
  refine .query rfl fun _ _ ↦ ?_
  refine .query rfl fun _ _ ↦ ?_
  have hwrite : Local Database.restrict actor.organizationId (fun db ↦
      (db.saveUpload (record.deleted .orphanDeletedAt now)).recordEvent
        (orphanDeletedEvent actor uploadId correlationId)) db :=
    .comp (local_recordEvent (by rfl)) (local_saveUpload hkeyed.uploads
      (List.mem_of_find?_eq_some hrecord) (by rfl) (by rfl) hrow.2.1)
  exact .commit hwrite _

/-- What a deletion of the orphan leaves, from what its transaction answered. -/
def afterOrphan (setting : CreateSetting) (promotion : PromotionCall) {α : Type} :
    Except Raised α → Database → Unit × Database
  | .ok _, db => ((), db)
  | .error _, db => ((), db.recordEvent (cleanupDeferredEvent promotion setting.ids.domain))

theorem deleteOrphan_local (hkeyed : db.Keyed) :
    Local Database.restrict promotion.actor.organizationId (deleteOrphan setting promotion)
      db := by
  have hdelete : Isolated Database.restrict promotion.actor.organizationId
      (orphanTransaction setting promotion) db :=
    (deleteAttachedOrphanSource_confined hkeyed).attempt
  have hwhole : Isolated Database.restrict promotion.actor.organizationId
      (fun db ↦ ((), deleteOrphan setting promotion db)) db := by
    refine hdelete.andThen (afterOrphan setting promotion) ?_ fun db ↦ ?_
    · cases (orphanTransaction setting promotion db).1 with
      | ok key => exact Local.id.answer ()
      | error error => exact (local_recordEvent (by rfl)).answer ()
    · dsimp only [deleteOrphan]
      rcases orphanTransaction setting promotion db with ⟨_ | _, _⟩ <;> rfl
  exact hwhole.write

/-- The attach transaction leaves the call its upload, whether it commits or not. -/
theorem attachTransaction_own (hdb : Tenanted db)
    (hown : OwnUpload promotion.actor.organizationId promotion.upload.id db) :
    Tenanted (attachTransaction formats settings setting promotion db).2 ∧
      OwnUpload promotion.actor.organizationId promotion.upload.id
        (attachTransaction formats settings setting promotion db).2 := by
  refine attempt_keeps (I := fun db ↦ Tenanted db ∧
    OwnUpload promotion.actor.organizationId promotion.upload.id db) ⟨hdb, hown⟩ ?_
  intro job db' hbody
  obtain ⟨hdb', hkeeps⟩ := attachPromotion_own hdb hbody
  exact ⟨hdb', hkeeps _ _ hown⟩

/-- What a call does once its attachment has answered. -/
def afterAttach (setting : CreateSetting) (promotion : PromotionCall) :
    Except Raised Job → Database → Except Raised (DomainRecord × Job) × Database
  | .ok job, db => (.ok (promotion.domain setting.ids setting.attachedAt, job),
      deleteOrphan setting promotion db)
  | .error error, db =>
    (.error error, failPromotion setting promotion "PROMOTION_FINALIZE_FAILED" db)

/-- The copy does not look at the database, and what comes after it keeps to the organisation. -/
theorem copyThenFinalize_isolated (hdb : Tenanted db) (hfresh : FreshAttach setting.ids db)
    (hown : OwnUpload promotion.actor.organizationId promotion.upload.id db) :
    Isolated Database.restrict promotion.actor.organizationId
      (copyThenFinalize formats settings setting promotion) db := by
  unfold copyThenFinalize
  cases copyVerified setting.copy promotion.upload with
  | error error => exact (failPromotion_local hdb.keyed hown).answer _
  | ok _ =>
    have hattach : Isolated Database.restrict promotion.actor.organizationId
        (attachTransaction formats settings setting promotion) db :=
      (attachPromotion_confined hdb hfresh hown).attempt
    have hafter : Tenanted (attachTransaction formats settings setting promotion db).2 ∧ _ :=
      attachTransaction_own hdb hown
    refine hattach.andThen (afterAttach setting promotion) ?_ fun db ↦ ?_
    · cases (attachTransaction formats settings setting promotion db).1 with
      | ok job => exact (deleteOrphan_local hafter.1.keyed).answer _
      | error error => exact (failPromotion_local hafter.1.keyed hafter.2).answer _
    · dsimp only
      rcases attachTransaction formats settings setting promotion db with ⟨_ | _, _⟩ <;> rfl

theorem FreshAttach.saveUpload {ids : FreshIds} (h : FreshAttach ids db)
    (upload : UploadRequest) : FreshAttach ids (db.saveUpload upload) :=
  ⟨h.documents, h.issuances, h.verifications, h.jobs, h.events⟩

variable {actor : User} {request : CreateRequest} {uploadId correlationId : UUID}

theorem createRecordUnlogged_isolated (hdb : Tenanted db) (hfresh : FreshAttach setting.ids db) :
    Isolated Database.restrict actor.organizationId
      (createRecordUnlogged formats settings setting actor request uploadId correlationId) db := by
  have hreserve : Isolated Database.restrict actor.organizationId
      (reserveTransaction setting actor request uploadId correlationId) db :=
    (beginCreate_confined hdb.keyed).attempt
  refine hreserve.andThen (fun result db ↦ match result with
    | .error error => (.error error, db)
    | .ok promotion => copyThenFinalize formats settings setting promotion db) ?_ fun db ↦ ?_
  · cases hresult : reserveTransaction setting actor request uploadId correlationId db with
    | mk result db' =>
      cases result with
      | error error => exact Local.id.answer _
      | ok promotion =>
        have hbegun := attempt_ok hresult
        obtain ⟨rfl, hdb', hown⟩ := beginCreate_own hdb hbegun
        obtain ⟨upload, -, -, -, -, -, -, -, -, -, rfl⟩ := beginCreate_cases hbegun
        exact copyThenFinalize_isolated hdb' (hfresh.saveUpload _) hown
  · dsimp only [createRecordUnlogged]
    rcases reserveTransaction setting actor request uploadId correlationId db with
      ⟨_ | _, _⟩ <;> rfl

/-- A create call, with what its denial logs. -/
theorem createRecord_isolated (hdb : Tenanted db) (hfresh : FreshAttach setting.ids db) :
    Isolated Database.restrict actor.organizationId
      (createRecord formats settings setting actor request uploadId correlationId) db := by
  have hcall : Isolated Database.restrict actor.organizationId
      (createRecordUnlogged formats settings setting actor request uploadId correlationId) db :=
    createRecordUnlogged_isolated hdb hfresh
  refine hcall.logging (recordCreateDenial actor request.kind correlationId) ?_ ?_ ?_
  · intro db created h
    dsimp only [createRecord]
    rcases hresult : createRecordUnlogged formats settings setting actor request uploadId
      correlationId db with ⟨_ | _, _⟩
    · rw [hresult] at h
      cases h
    · rfl
  · intro db error h
    dsimp only [createRecord]
    rcases hresult : createRecordUnlogged formats settings setting actor request uploadId
      correlationId db with ⟨_ | _, _⟩
    · rw [hresult] at h
      cases h
      rfl
    · rw [hresult] at h
      cases h
  · intro error
    unfold recordCreateDenial
    cases error.recordsDenial with
    | true => exact local_recordEvent (by rfl)
    | false => exact .id

/-! ## 5. The relations a call keeps -/

theorem failPromotion_tenanted (hdb : Tenanted db) {code : String} :
    Tenanted (failPromotion setting promotion code db) := by
  refine attempt_keeps hdb fun _ db' hbody ↦ ?_
  rcases markFailed_cases hbody with rfl | ⟨upload, hmem, -, -, -, -, rfl⟩
  · exact hdb
  · refine hdb.saveUpload hmem rfl rfl rfl ?_
    intro key hkey
    exact (Option.some.inj hkey).symm

theorem deleteOrphan_tenanted (hdb : Tenanted db) :
    Tenanted (deleteOrphan setting promotion db) := by
  have horphan : Tenanted (orphanTransaction setting promotion db).2 := by
    refine attempt_keeps hdb fun _ db' hbody ↦ ?_
    rcases deleteAttachedOrphanSource_cases hbody with ⟨-, rfl⟩ |
      ⟨upload, hmem, -, -, -, -, audit, rfl⟩
    · exact hdb
    · have hsaved : Tenanted
          (db.saveUpload (upload.deleted .orphanDeletedAt setting.deletedAt)) :=
        hdb.saveUpload hmem rfl rfl rfl (hdb.targets upload hmem)
      exact hsaved.audited audit
  unfold deleteOrphan
  rcases hresult : orphanTransaction setting promotion db with ⟨_ | _, db'⟩
  · rw [hresult] at horphan
    exact horphan.audited _
  · rw [hresult] at horphan
    exact horphan

theorem copyThenFinalize_tenanted (hdb : Tenanted db) :
    Tenanted (copyThenFinalize formats settings setting promotion db).2 := by
  unfold copyThenFinalize
  cases copyVerified setting.copy promotion.upload with
  | error error => exact failPromotion_tenanted hdb
  | ok _ =>
    have hattached : Tenanted (attachTransaction formats settings setting promotion db).2 :=
      attempt_keeps hdb fun _ _ hbody ↦ (attachPromotion_own hdb hbody).1
    dsimp only
    rcases hresult : attachTransaction formats settings setting promotion db with ⟨_ | _, db'⟩
    · rw [hresult] at hattached
      exact failPromotion_tenanted hattached
    · rw [hresult] at hattached
      exact deleteOrphan_tenanted hattached

theorem createRecord_tenanted (hdb : Tenanted db) :
    Tenanted (createRecord formats settings setting actor request uploadId correlationId db).2 := by
  have hreserved : Tenanted (reserveTransaction setting actor request uploadId correlationId db).2 :=
    attempt_keeps hdb fun _ _ hbody ↦ (beginCreate_own hdb hbody).2.1
  have hcall : Tenanted
      (createRecordUnlogged formats settings setting actor request uploadId correlationId db).2 := by
    unfold createRecordUnlogged
    rcases hresult : reserveTransaction setting actor request uploadId correlationId db with
      ⟨_ | _, db'⟩
    · rw [hresult] at hreserved
      exact hreserved
    · rw [hresult] at hreserved
      exact copyThenFinalize_tenanted hreserved
  unfold createRecord
  rcases hresult : createRecordUnlogged formats settings setting actor request uploadId
    correlationId db with ⟨error | created, db'⟩
  · rw [hresult] at hcall
    dsimp only [recordCreateDenial]
    split
    · exact hcall.audited _
    · exact hcall
  · rw [hresult] at hcall
    exact hcall

end Calls

/-! ## 6. Steps of the platform -/

section Steps

variable (formats : FormatChecker) (settings : ServiceSettings)

/-- One atomic step of a caller. -/
def Proceeds (from' to' : Store × Platform.Phase) : Prop :=
  ∃ input, Platform.call formats settings from'.1 from'.2 input = some to'

variable {setting : CreateSetting} (promotion : PromotionCall) (store : Store)

/-- The delete of a fenced target changes no row, so only the failure and the denial are seen. -/
theorem failing_proceeds (code : String) (error : Raised) (hlocked : store.locked = [])
    (htime : setting.failedAt = store.clock) :
    ∃ store', ReflTransGen (Proceeds formats settings) (store, .failing promotion code error)
        (store', .idle) ∧
      store'.db = recordCreateDenial promotion.actor promotion.request.kind promotion.correlationId
        error (failPromotion setting promotion code store.db) := by
  have hfence : ∃ fenced : Store, fenced.db = store.db ∧ fenced.locked = [] ∧
      fenced.clock = store.clock ∧ Proceeds formats settings (store, .failing promotion code error)
        (fenced, .fenced promotion code error) := by
    cases hkey : fencedTarget promotion.upload.id store.db with
    | ok key =>
      refine ⟨{ store with objects := deleteKey .deleted key store.objects }, rfl, hlocked, rfl,
        .fence .deleted, ?_⟩
      simp [Platform.call, hlocked, hkey]
    | error error' =>
      refine ⟨store, rfl, hlocked, rfl, .fence .deleted, ?_⟩
      simp [Platform.call, hlocked, hkey]
  obtain ⟨fenced, hdb, hunlocked, hclock, hstep⟩ := hfence
  let marked := recordCreateDenial promotion.actor promotion.request.kind promotion.correlationId
    error (failPromotion setting promotion code store.db)
  have hmark : Proceeds formats settings (fenced, .fenced promotion code error)
      ({ fenced with db := marked }, .idle) := by
    refine ⟨.markFailed setting.failFault, ?_⟩
    simp [Platform.call, hunlocked, hdb, failPromotion, htime, hclock, marked]
  exact ⟨_, .tail (.single hstep) hmark, rfl⟩

theorem attached_proceeds (hlocked : store.locked = [])
    (htime : setting.deletedAt = store.clock) :
    ∃ store', ReflTransGen (Proceeds formats settings)
        (store, .attached promotion setting.ids.domain) (store', .idle) ∧
      store'.db = deleteOrphan setting promotion store.db := by
  obtain ⟨outcome, houtcome⟩ : ∃ outcome : DeleteOutcome,
      decide (outcome = .deleted) = setting.deletes := by
    cases setting.deletes with
    | true => exact ⟨.deleted, rfl⟩
    | false => exact ⟨.failed, rfl⟩
  have hdelete : ∃ store', Proceeds formats settings
      (store, .attached promotion setting.ids.domain) (store', .idle) ∧
        store'.db = deleteOrphan setting promotion store.db := by
    rcases hresult : orphanTransaction setting promotion store.db with ⟨_ | _, db⟩
    · refine ⟨{ store with
          db := deleteOrphan setting promotion store.db
          objects := orphanObjects promotion outcome store },
        ⟨.deleteOrphan outcome setting.deleteFault, ?_⟩, rfl⟩
      unfold orphanTransaction at hresult
      rw [htime] at hresult
      simp [Platform.call, hlocked, houtcome, hresult, deleteOrphan, orphanTransaction, htime]
    · refine ⟨{ store with
          db := deleteOrphan setting promotion store.db
          objects := orphanObjects promotion outcome store },
        ⟨.deleteOrphan outcome setting.deleteFault, ?_⟩, rfl⟩
      unfold orphanTransaction at hresult
      rw [htime] at hresult
      simp [Platform.call, hlocked, houtcome, hresult, deleteOrphan, orphanTransaction, htime]
  obtain ⟨store', hstep, hdb⟩ := hdelete
  exact ⟨store', .single hstep, hdb⟩

theorem copied_proceeds (hlocked : store.locked = [])
    (hattached : setting.attachedAt = store.clock) (hfailed : setting.failedAt = store.clock)
    (hdeleted : setting.deletedAt = store.clock) :
    ∃ store', ReflTransGen (Proceeds formats settings) (store, .copied promotion)
        (store', .idle) ∧
      store'.db = match attachTransaction formats settings setting promotion store.db with
        | (.error error, db) => recordCreateDenial promotion.actor promotion.request.kind
            promotion.correlationId error
              (failPromotion setting promotion "PROMOTION_FINALIZE_FAILED" db)
        | (.ok _, db) => deleteOrphan setting promotion db := by
  rcases hresult : attachTransaction formats settings setting promotion store.db with
    ⟨error | job, db⟩
  · have hstep : Proceeds formats settings (store, .copied promotion) ({ store with db := db },
        .failing promotion "PROMOTION_FINALIZE_FAILED" error) := by
      refine ⟨.attach setting.ids setting.attachFault, ?_⟩
      unfold attachTransaction at hresult
      rw [hattached] at hresult
      simp [Platform.call, hlocked, Store.transact, hresult]
    obtain ⟨store', hsteps, hdb⟩ := failing_proceeds formats settings promotion
      { store with db := db } "PROMOTION_FINALIZE_FAILED" error hlocked hfailed
    exact ⟨store', .head hstep hsteps, hdb⟩
  · have hstep : Proceeds formats settings (store, .copied promotion) ({ store with db := db },
        .attached promotion setting.ids.domain) := by
      refine ⟨.attach setting.ids setting.attachFault, ?_⟩
      unfold attachTransaction at hresult
      rw [hattached] at hresult
      simp [Platform.call, hlocked, Store.transact, hresult]
    obtain ⟨store', hsteps, hdb⟩ := attached_proceeds formats settings promotion
      { store with db := db } hlocked hdeleted
    exact ⟨store', .head hstep hsteps, hdb⟩

/-- The database once the denial of a call, if there was one, is recorded. -/
def withDenial {α : Type} (actor : User) (kind : JobKind) (correlationId : UUID) :
    Except Raised α × Database → Database
  | (.ok _, db) => db
  | (.error error, db) => recordCreateDenial actor kind correlationId error db

/-- A create call that nobody interrupts is a run of the platform's steps, and leaves its
database. -/
theorem createRecord_proceeds {actor : User} {request : CreateRequest}
    {uploadId correlationId : UUID} (hlocked : store.locked = [])
    (hreserved : setting.reservedAt = store.clock) (hattached : setting.attachedAt = store.clock)
    (hfailed : setting.failedAt = store.clock) (hdeleted : setting.deletedAt = store.clock) :
    ∃ store', ReflTransGen (Proceeds formats settings) (store, .idle) (store', .idle) ∧
      store'.db = (createRecord formats settings setting actor request uploadId correlationId
        store.db).2 := by
  rcases hresult : reserveTransaction setting actor request uploadId correlationId store.db with
    ⟨error | promotion, db⟩
  · -- the reservation is refused
    have hbegin := hresult
    unfold reserveTransaction at hbegin
    rw [hreserved] at hbegin
    let denied := recordCreateDenial actor request.kind correlationId error db
    have hstep : Proceeds formats settings (store, .idle) ({ store with db := denied }, .idle) := by
      refine ⟨.create actor request uploadId correlationId setting.reserveFault, ?_⟩
      simp [Platform.call, hlocked, hbegin, denied]
    refine ⟨_, .single hstep, ?_⟩
    simp only [createRecord, createRecordUnlogged, hresult, denied]
  · have hbegun := attempt_ok hresult
    obtain ⟨rfl, rfl⟩ := beginCreate_call hbegun
    obtain ⟨upload, -, -, hkind, -, -, -, -, -, hupload, -⟩ := beginCreate_cases hbegun
    have hbegin := hresult
    unfold reserveTransaction at hbegin
    rw [hreserved] at hbegin
    -- the reservation is committed before the object is copied
    have hstep : Proceeds formats settings (store, .idle)
        ({ store with db := db }, .reserved promotion) := by
      refine ⟨.create promotion.actor request uploadId promotion.correlationId
        setting.reserveFault, ?_⟩
      simp [Platform.call, hlocked, hbegin]
    have htarget : promotion.upload.promotionTargetKey = some upload.target := by
      rw [hupload]
      rfl
    have hcall : (createRecord formats settings setting promotion.actor request uploadId
        promotion.correlationId store.db).2 = withDenial promotion.actor request.kind
          promotion.correlationId (copyThenFinalize formats settings setting promotion db) := by
      simp only [createRecord, createRecordUnlogged, hresult]
      rcases copyThenFinalize formats settings setting promotion db with ⟨_ | _, _⟩ <;> rfl
    rw [hcall, ← hkind]
    let copied : Store := { store with db := db, copies := upload.target :: store.copies }
    cases hcopy : copyVerified setting.copy promotion.upload with
    | error error =>
      have hfailing : Proceeds formats settings ({ store with db := db }, .reserved promotion)
          (copied, .failing promotion "PROMOTION_COPY_FAILED" error) := by
        refine ⟨.copy ⟨0⟩ setting.copy, ?_⟩
        simp [Platform.call, copyUpload, htarget, hcopy, copied]
      obtain ⟨store', hsteps, hdb⟩ := failing_proceeds formats settings promotion copied
        "PROMOTION_COPY_FAILED" error hlocked hfailed
      refine ⟨store', .head hstep (.head hfailing hsteps), ?_⟩
      simp only [hdb, copyThenFinalize, hcopy]
      rfl
    | ok _ =>
      let stored := { copied with objects := store.objects.put upload.target ⟨0⟩ }
      have hstored : Proceeds formats settings ({ store with db := db }, .reserved promotion)
          (stored, .copied promotion) := by
        refine ⟨.copy ⟨0⟩ setting.copy, ?_⟩
        simp [Platform.call, copyUpload, htarget, hcopy, copied, stored]
      obtain ⟨store', hsteps, hdb⟩ := copied_proceeds formats settings promotion stored hlocked
        hattached hfailed hdeleted
      refine ⟨store', .head hstep (.head hstored hsteps), ?_⟩
      rw [hdb]
      simp only [copyThenFinalize, hcopy]
      rcases attachTransaction formats settings setting promotion db with ⟨error | job, db⟩ <;> rfl

end Steps
end Splitbind
