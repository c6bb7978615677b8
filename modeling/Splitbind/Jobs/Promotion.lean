import Splitbind.Database

/-!
# Promotion — the transactions of a create call

A create call reserves its upload, lets the storage copy it, and attaches it: one transaction
creates the domain record, the job and its outbox event.  In between nothing is locked.
-/

namespace Splitbind

open Transaction

/-! ## 1. Reserving -/

/-- `_authorize_create`. -/
def authorizeCreate (actor : User) (kind : JobKind) : Except Raised Unit :=
  raiseIf (¬ (actor.role = .administrator ∨ kind = .issuance ∧ actor.role = .issuer ∨
      kind = .verification ∧ actor.role = .verifier))
    (.permissionDenied "WORKFLOW_FORBIDDEN")

/-- The recipient `_create_issuance` looks up. -/
def findRecipient (actor : User) (recipientId : UUID) (db : Database) : Except Raised Recipient :=
  found (db.recipients.find? fun recipient ↦
      recipient.id = recipientId ∧ recipient.organizationId = actor.organizationId)
    (.workflowNotFound "WORKFLOW_NOT_FOUND")

/-- `reserve_promotion`. -/
def reservePromotion (now : Instant) (actor : User) (uploadId : UUID) (kind : JobKind)
    (db : Database) : Except Raised (UploadRequest × Database) := do
  authorizeCreate actor kind
  let upload ← found (db.uploads.find? fun upload ↦
      upload.id = uploadId ∧ upload.organizationId = actor.organizationId ∧
        upload.requestedById = actor.id)
    (.workflowNotFound "WORKFLOW_NOT_FOUND")
  raiseIf (upload.purpose ≠ kind.purpose) (.uploadRejected "UPLOAD_WRONG_PURPOSE")
  raiseIf (upload.finalizedAt = none) (.uploadRejected "UPLOAD_NOT_FINALIZED")
  raiseIf (now ≥ upload.expiresAt) (.uploadRejected "UPLOAD_EXPIRED")
  raiseIf (upload.expectedSha256 = none ∨ upload.sizeBytes = none)
    (.uploadRejected "UPLOAD_LEGACY_METADATA")
  raiseIf (upload.promotionStatus ≠ .none ∨ upload.promotionTargetKey ≠ none)
    (.jobConflict "PROMOTION_ALREADY_RESERVED")
  let target := promotedInputKey kind actor.organizationId upload.id
  let upload ← upload.savePromotion .copying (some target) none now
  return (upload, db.saveUpload upload)

/-! ## 2. Copying -/

/-- What a create call is to create. -/
inductive DomainRequest
  | issuance (recipient : Recipient)
  | verification
deriving DecidableEq, Repr

def DomainRequest.kind : DomainRequest → JobKind
  | .issuance _ => .issuance
  | .verification => .verification

/-- A create call under way, with the upload as `reserve_promotion` returned it. -/
structure PromotionCall where
  actor : User
  request : DomainRequest
  correlationId : UUID
  upload : UploadRequest
deriving DecidableEq, Repr

/-- The metadata of a copied object. -/
structure CopyObservation where
  key : ObjectKey
  sizeBytes : Nat
  clientSha256Metadata : Option Sha256
deriving DecidableEq, Repr

/-- What the storage copy of a call returns or raises. -/
inductive CopyOutcome
  | observed (copied : Option CopyObservation)
  | raised (error : Raised)
deriving DecidableEq, Repr

/-- `_verify_copy_observation`. -/
def verifyCopyObservation (copied : Option CopyObservation) (upload : UploadRequest) :
    Except Raised Unit :=
  raiseIf (¬ ∃ copy ∈ copied, some copy.key = upload.promotionTargetKey ∧
      some copy.sizeBytes = upload.sizeBytes ∧ copy.clientSha256Metadata = upload.expectedSha256)
    (.uploadRejected "STORAGE_COPY_MISMATCH")

/-- The copy and its check, as the `try` block has them. -/
def copyVerified (outcome : CopyOutcome) (upload : UploadRequest) : Except Raised Unit :=
  match outcome with
  | .observed copied => verifyCopyObservation copied upload
  | .raised error => .error error

/-- `_mark_failed`. -/
def markFailed (uploadId : UUID) (targetKey : Option ObjectKey) (safeCode : String)
    (now : Instant) (db : Database) : Except Raised (PUnit × Database) := do
  let locked ← found (db.uploads.find? (·.id = uploadId)) (.doesNotExist "UploadRequest")
  if locked.promotionStatus = .copying ∧ locked.promotionTargetKey = targetKey then
    let failed ← locked.savePromotion .failed targetKey (some safeCode) now
    return (⟨⟩, db.saveUpload failed)
  else
    return (⟨⟩, db)

/-! ## 3. Attaching -/

/-- What `uuid4` returns for the rows of one attach transaction. -/
structure FreshIds where
  document : UUID
  domain : UUID
  job : UUID
  message : UUID
deriving DecidableEq, Repr

/-- `_lock_unchanged_reservation`. -/
def lockUnchangedReservation (call : PromotionCall) (db : Database) :
    Except Raised UploadRequest := do
  let locked ← found (db.uploads.find? (·.id = call.upload.id)) (.doesNotExist "UploadRequest")
  raiseIf (¬ (locked.promotionStatus = .copying ∧
      locked.promotionTargetKey = call.upload.promotionTargetKey ∧
      locked.organizationId = call.actor.organizationId ∧
      locked.requestedById = call.actor.id ∧
      locked.purpose = call.request.kind.purpose ∧
      locked.expectedSha256 = call.upload.expectedSha256 ∧
      locked.sizeBytes = call.upload.sizeBytes ∧
      locked.finalizedAt = call.upload.finalizedAt ∧
      locked.promotionTargetDeletedAt = none))
    (.jobConflict "PROMOTION_STATE")
  return locked

/-- The document and the issuance of an issuance call. -/
def newDocument (actor : User) (locked : UploadRequest) (ids : FreshIds) (key : ObjectKey)
    (sha256 : Sha256) : Document where
  id := ids.document
  organizationId := actor.organizationId
  createdById := actor.id
  uploadRequestId := locked.id
  sourceObjectKey := key
  expectedSourceSha256 := sha256
  pageCount := none

def newIssuance (actor : User) (recipient : Recipient) (ids : FreshIds) (now : Instant) :
    Issuance where
  id := ids.domain
  organizationId := actor.organizationId
  documentId := ids.document
  recipientId := recipient.id
  createdById := actor.id
  outputObjectKey := none
  outputSha256 := none
  outputDeletedAt := none
  issuedAt := now

def newVerification (actor : User) (locked : UploadRequest) (ids : FreshIds) : Verification where
  id := ids.domain
  organizationId := actor.organizationId
  uploadRequestId := locked.id
  requestedById := actor.id
  recoveredIssuanceId := none
  status := none
  evidence := []
  metrics := []
  completedAt := none

def relationsMessage : String := "Related records must belong to the same organization."

/-- `create_domain` of an issuance call. -/
def createIssuanceDomain (actor : User) (recipient : Recipient) (locked : UploadRequest)
    (ids : FreshIds) (now : Instant) (db : Database) : Except Raised (JobTarget × Database) := do
  let key ← found locked.promotionTargetKey (.integrity "documents_document.source_object_key")
  let sha256 ← found locked.expectedSha256
    (.integrity "documents_document.expected_source_sha256")
  let document := newDocument actor locked ids key sha256
  raiseIf (locked.organizationId ≠ actor.organizationId) (.validation relationsMessage)
  raiseIf (∃ other ∈ db.documents, other.id = document.id) (.integrity "documents_document_pkey")
  raiseIf (∃ other ∈ db.documents, other.uploadRequestId = locked.id)
    (.integrity "documents_document_upload_request_id_key")
  raiseIf (∃ other ∈ db.documents, other.sourceObjectKey = key)
    (.integrity "documents_document_source_object_key_key")
  let issuance := newIssuance actor recipient ids now
  raiseIf (recipient.organizationId ≠ actor.organizationId) (.validation relationsMessage)
  raiseIf (∃ other ∈ db.issuances, other.id = issuance.id) (.integrity "documents_issuance_pkey")
  return (.issuance issuance.id, { db with
    documents := db.documents ++ [document]
    issuances := db.issuances ++ [issuance] })

/-- `create_domain` of a verification call. -/
def createVerificationDomain (actor : User) (locked : UploadRequest) (ids : FreshIds)
    (db : Database) : Except Raised (JobTarget × Database) := do
  let verification := newVerification actor locked ids
  raiseIf (locked.organizationId ≠ actor.organizationId) (.validation relationsMessage)
  raiseIf (∃ other ∈ db.verifications, other.id = verification.id)
    (.integrity "documents_verification_pkey")
  raiseIf (∃ other ∈ db.verifications, other.uploadRequestId = locked.id)
    (.integrity "documents_verification_upload_request_id_key")
  return (.verification verification.id, { db with
    verifications := db.verifications ++ [verification] })

def createDomain (call : PromotionCall) (locked : UploadRequest) (ids : FreshIds) (now : Instant)
    (db : Database) : Except Raised (JobTarget × Database) :=
  match call.request with
  | .issuance recipient => createIssuanceDomain call.actor recipient locked ids now db
  | .verification => createVerificationDomain call.actor locked ids db

def newJob (jobTimeoutSeconds : Nat) (call : PromotionCall) (target : JobTarget) (ids : FreshIds)
    (now : Instant) : Job where
  id := ids.job
  organizationId := call.actor.organizationId
  target := target
  status := .created
  attempt := 0
  deadlineAt := now + seconds jobTimeoutSeconds
  correlationId := call.correlationId
  cancelRequestedAt := none
  safeErrorCode := none
  createdAt := now
  updatedAt := now

/-- The event of an attach transaction, on the domain record. -/
def createdEvent (call : PromotionCall) (ids : FreshIds) : AuditEvent where
  organizationId := call.actor.organizationId
  actorId := call.actor.id
  action := call.request.kind.text ++ ".created"
  targetType := "documents." ++ call.request.kind.text
  targetId := ids.domain
  correlationId := call.correlationId
  outcome := .succeeded

/-- The attach transaction of `_copy_then_finalize`. -/
def attachPromotion (formats : FormatChecker) (jobTimeoutSeconds : Nat) (call : PromotionCall)
    (ids : FreshIds) (now : Instant) (db : Database) : Except Raised (Job × Database) := do
  let locked ← lockUnchangedReservation call db
  let (target, db) ← createDomain call locked ids now db
  let job := newJob jobTimeoutSeconds call target ids now
  raiseIf (∃ other ∈ db.jobs, other.id = job.id) (.integrity "jobs_job_pkey")
  let key ← found call.upload.promotionTargetKey
    (.validation "job request does not satisfy the versioned schema")
  let sha256 ← found locked.expectedSha256
    (.validation "job request does not satisfy the versioned schema")
  let events ← createJobEvent formats db.events job ids.message key.text sha256.text
  let attached ← locked.savePromotion .attached call.upload.promotionTargetKey none now
  return (job, { db with
    jobs := db.jobs ++ [job]
    events := events
    audit := db.audit ++ [createdEvent call ids]
    uploads := Table.save (·.id) db.uploads attached })

/-! ## 4. What a transaction that commits has done -/

/-- The upload row under a promotion to its own target. -/
def UploadRequest.promoted (upload : UploadRequest) (status : PromotionStatus)
    (safeErrorCode : Option String) (now : Instant) : UploadRequest :=
  { upload with
    promotionStatus := status
    promotionStatusChangedAt := now
    promotionTargetKey := some upload.target
    safeErrorCode := safeErrorCode }

/-- A status that changes to one with a target leaves the upload promoted. -/
theorem UploadRequest.savePromotion_promoted {upload upload' : UploadRequest}
    {status : PromotionStatus} {targetKey : Option ObjectKey} {safeErrorCode : Option String}
    {now : Instant} (h : upload.savePromotion status targetKey safeErrorCode now = .ok upload')
    (hchanged : status ≠ upload.promotionStatus) (hstatus : status ≠ .none) :
    upload.promotionTargetDeletedAt = none ∧ status ∈ allowedPromotions upload.promotionStatus ∧
      (upload.promotionTargetKey = none ∨ upload.promotionTargetKey = some upload.target) ∧
      upload' = upload.promoted status safeErrorCode now := by
  obtain ⟨hdeleted, hsame | ⟨hallowed, himmutable, hmatch, htarget, rfl⟩⟩ := savePromotion_cases h
  · exact absurd hsame.1 hchanged
  · obtain ⟨key, hkey⟩ := Option.ne_none_iff_exists'.mp (mt hmatch.mpr hstatus)
    obtain rfl := htarget key hkey
    refine ⟨hdeleted, hallowed, ?_, ?_⟩
    · rw [← hkey]
      exact himmutable.imp_right Eq.symm
    · rw [UploadRequest.promoted, hkey]

theorem reservePromotion_cases {now : Instant} {actor : User} {uploadId : UUID} {kind : JobKind}
    {db db' : Database} {reserved : UploadRequest}
    (h : reservePromotion now actor uploadId kind db = .ok (reserved, db')) :
    ∃ upload ∈ db.uploads, upload.id = uploadId ∧ upload.organizationId = actor.organizationId ∧
      upload.requestedById = actor.id ∧ upload.purpose = kind.purpose ∧
      upload.promotionStatus = .none ∧ upload.promotionTargetKey = none ∧
      upload.promotionTargetDeletedAt = none ∧
      reserved = upload.promoted .copying none now ∧ db' = db.saveUpload reserved := by
  simp only [reservePromotion, bind_eq_ok, exists_unit, raiseIf_eq_ok, found_eq_ok, pure_eq_ok,
    Prod.mk.injEq, not_or, not_not] at h
  obtain ⟨-, upload, hfind, hpurpose, -, -, -, ⟨hstatus, hkey⟩, saved, hsave, rfl, rfl⟩ := h
  have hmem := List.mem_of_find?_eq_some hfind
  have hrow := List.find?_some hfind
  simp only [decide_eq_true_eq] at hrow
  obtain ⟨hdeleted, -, -, rfl⟩ :=
    UploadRequest.savePromotion_promoted hsave (by simp [hstatus]) (by simp)
  exact ⟨upload, hmem, hrow.1, hrow.2.1, hrow.2.2, hpurpose, hstatus, hkey, hdeleted, rfl, rfl⟩

/-- A failure is marked on a reservation that is still the same, and nowhere else. -/
theorem markFailed_cases {uploadId : UUID} {targetKey : Option ObjectKey} {safeCode : String}
    {now : Instant} {db db' : Database}
    (h : markFailed uploadId targetKey safeCode now db = .ok (⟨⟩, db')) :
    db' = db ∨ ∃ upload ∈ db.uploads, upload.id = uploadId ∧ upload.promotionStatus = .copying ∧
      upload.promotionTargetKey = some upload.target ∧
      upload.promotionTargetDeletedAt = none ∧
      db' = db.saveUpload (upload.promoted .failed (some safeCode) now) := by
  simp only [markFailed, bind_eq_ok, found_eq_ok] at h
  obtain ⟨locked, hfind, h⟩ := h
  have hmem := List.mem_of_find?_eq_some hfind
  have hid := List.find?_some hfind
  simp only [decide_eq_true_eq] at hid
  split at h
  · rename_i hcopying
    simp only [bind_eq_ok, pure_eq_ok, Prod.mk.injEq, true_and] at h
    obtain ⟨saved, hsave, rfl⟩ := h
    obtain ⟨hdeleted, -, hkey, rfl⟩ :=
      UploadRequest.savePromotion_promoted hsave (by simp [hcopying.1]) (by simp)
    rcases hkey with hkey | hkey
    · -- a failed promotion has a target, and the locked row has that target
      rw [← hcopying.2, hkey] at hsave
      simp [UploadRequest.savePromotion, raiseIf] at hsave
    · exact .inr ⟨locked, hmem, hid, hcopying.1, hkey, hdeleted, rfl⟩
  · simp only [pure_eq_ok, Prod.mk.injEq, true_and] at h
    exact .inl h.symm

namespace DomainRequest

/-- The rows of each table that a request creates, and the target of its job. -/
def documents (request : DomainRequest) (actor : User) (locked : UploadRequest) (ids : FreshIds)
    (key : ObjectKey) (sha256 : Sha256) : List Document :=
  match request with
  | .issuance _ => [newDocument actor locked ids key sha256]
  | .verification => []

def issuances (request : DomainRequest) (actor : User) (ids : FreshIds) (now : Instant) :
    List Issuance :=
  match request with
  | .issuance recipient => [newIssuance actor recipient ids now]
  | .verification => []

def verifications (request : DomainRequest) (actor : User) (locked : UploadRequest)
    (ids : FreshIds) : List Verification :=
  match request with
  | .issuance _ => []
  | .verification => [newVerification actor locked ids]

def target (request : DomainRequest) (ids : FreshIds) : JobTarget :=
  match request with
  | .issuance _ => .issuance ids.domain
  | .verification => .verification ids.domain

end DomainRequest

/-- The event an attach transaction creates for its job. -/
def newEvent (job : Job) (messageId : UUID) (key : ObjectKey) (sha256 : Sha256) : OutboxEvent where
  messageId := messageId
  organizationId := job.organizationId
  jobId := job.id
  attempt := job.attempt
  topic := job.kind.text ++ ".requested"
  payload := jobRequestPayload job messageId key.text sha256.text
  publishedAt := none

/-- The database after an attach transaction. -/
def attachedDatabase (call : PromotionCall) (locked : UploadRequest) (ids : FreshIds)
    (sha256 : Sha256) (job : Job) (now : Instant) (db : Database) : Database :=
  { db with
    uploads := Table.save (·.id) db.uploads (locked.promoted .attached none now)
    documents := db.documents ++ call.request.documents call.actor locked ids locked.target sha256
    issuances := db.issuances ++ call.request.issuances call.actor ids now
    verifications := db.verifications ++ call.request.verifications call.actor locked ids
    jobs := db.jobs ++ [job]
    events := db.events ++ [newEvent job ids.message locked.target sha256]
    audit := db.audit ++ [createdEvent call ids] }

/-- What an attach transaction that commits has checked. -/
structure Attaches (formats : FormatChecker) (call : PromotionCall) (ids : FreshIds) (db : Database)
    (locked : UploadRequest) (sha256 : Sha256) (job : Job) : Prop where
  mem : locked ∈ db.uploads
  id : locked.id = call.upload.id
  copying : locked.promotionStatus = .copying
  organization : locked.organizationId = call.actor.organizationId
  purpose : locked.purpose = call.request.kind.purpose
  target : locked.promotionTargetKey = some locked.target
  digest : locked.expectedSha256 = some sha256
  deleted : locked.promotionTargetDeletedAt = none
  documents : call.request ≠ .verification → ∀ other ∈ db.documents,
    other.id ≠ ids.document ∧ other.uploadRequestId ≠ locked.id
  issuances : call.request ≠ .verification → ∀ other ∈ db.issuances, other.id ≠ ids.domain
  verifications : call.request = .verification → ∀ other ∈ db.verifications,
    other.id ≠ ids.domain ∧ other.uploadRequestId ≠ locked.id
  jobs : ∀ other ∈ db.jobs, other.id ≠ job.id
  events : ∀ other ∈ db.events, other.messageId ≠ ids.message
  accepted : jobRequestAccepts formats
    (jobRequestPayload job ids.message locked.target.text sha256.text) = true

theorem createJobEvent_eq_ok {formats : FormatChecker} {events events' : List OutboxEvent}
    {job : Job} {messageId : UUID} {key sha256 : String}
    (h : createJobEvent formats events job messageId key sha256 = .ok events') :
    jobRequestAccepts formats (jobRequestPayload job messageId key sha256) = true ∧
      (∀ other ∈ events, other.messageId ≠ messageId) ∧
      events' = events ++
        [{ messageId := messageId, organizationId := job.organizationId, jobId := job.id,
           attempt := job.attempt, topic := job.kind.text ++ ".requested",
           payload := jobRequestPayload job messageId key sha256, publishedAt := none }] := by
  simp only [createJobEvent, buildJobRequest, OutboxEvent.create, bind_eq_ok, exists_unit,
    raiseIf_eq_ok, pure_eq_ok] at h
  obtain ⟨_, ⟨haccepts, rfl⟩, hfresh, -, rfl⟩ := h
  exact ⟨by simpa using haccepts, by simpa using hfresh, rfl⟩

theorem createDomain_cases {call : PromotionCall} {locked : UploadRequest} {ids : FreshIds}
    {now : Instant} {db db' : Database} {target : JobTarget} {key : ObjectKey} {sha256 : Sha256}
    (h : createDomain call locked ids now db = .ok (target, db'))
    (hkey : locked.promotionTargetKey = some key) (hsha256 : locked.expectedSha256 = some sha256) :
    (call.request ≠ .verification → ∀ other ∈ db.documents,
        other.id ≠ ids.document ∧ other.uploadRequestId ≠ locked.id) ∧
      (call.request ≠ .verification → ∀ other ∈ db.issuances, other.id ≠ ids.domain) ∧
      (call.request = .verification → ∀ other ∈ db.verifications,
        other.id ≠ ids.domain ∧ other.uploadRequestId ≠ locked.id) ∧
      target = call.request.target ids ∧
      db' = { db with
        documents := db.documents ++ call.request.documents call.actor locked ids key sha256
        issuances := db.issuances ++ call.request.issuances call.actor ids now
        verifications := db.verifications ++
          call.request.verifications call.actor locked ids } := by
  unfold createDomain at h
  cases hrequest : call.request with
  | issuance recipient =>
    simp only [hrequest, createIssuanceDomain, hkey, hsha256, found_some, ok_bind, bind_eq_ok,
      exists_unit, raiseIf_eq_ok, pure_eq_ok, Prod.mk.injEq] at h
    obtain ⟨-, hdocument, hupload, -, -, hissuance, rfl, rfl⟩ := h
    refine ⟨fun _ other hother ↦ ⟨?_, ?_⟩, fun _ other hother ↦ ?_, by simp, rfl, ?_⟩
    · exact fun heq ↦ hdocument ⟨other, hother, heq⟩
    · exact fun heq ↦ hupload ⟨other, hother, heq⟩
    · exact fun heq ↦ hissuance ⟨other, hother, heq⟩
    · simp [DomainRequest.documents, DomainRequest.issuances, DomainRequest.verifications,
        newDocument, newIssuance]
  | verification =>
    simp only [hrequest, createVerificationDomain, bind_eq_ok, exists_unit, raiseIf_eq_ok,
      pure_eq_ok, Prod.mk.injEq] at h
    obtain ⟨-, hid, hupload, rfl, rfl⟩ := h
    refine ⟨by simp, by simp, fun _ other hother ↦ ⟨?_, ?_⟩, rfl, ?_⟩
    · exact fun heq ↦ hid ⟨other, hother, heq⟩
    · exact fun heq ↦ hupload ⟨other, hother, heq⟩
    · simp [DomainRequest.documents, DomainRequest.issuances, DomainRequest.verifications,
        newVerification]

theorem attachPromotion_cases {formats : FormatChecker} {jobTimeoutSeconds : Nat}
    {call : PromotionCall} {ids : FreshIds} {now : Instant} {db db' : Database} {job : Job}
    (h : attachPromotion formats jobTimeoutSeconds call ids now db = .ok (job, db')) :
    ∃ locked sha256, Attaches formats call ids db locked sha256 job ∧
      job = newJob jobTimeoutSeconds call (call.request.target ids) ids now ∧
      db' = attachedDatabase call locked ids sha256 job now db := by
  simp only [attachPromotion, lockUnchangedReservation, bind_eq_ok, exists_unit, raiseIf_eq_ok,
    found_eq_ok, pure_eq_ok, not_not, Prod.exists, Prod.mk.injEq] at h
  obtain ⟨_, ⟨locked, hfind, hlocked, rfl⟩, target, db₁, hdomain, hjobs, key, hkey, sha256, hsha256,
    events, hevents, attached, hsave, rfl, rfl⟩ := h
  obtain ⟨hcopying, hsame, horganization, -, hpurpose, -, -, -, -⟩ := hlocked
  have hlockedKey : locked.promotionTargetKey = some key := hsame.trans hkey
  obtain ⟨hdeleted, -, hnone | htarget, rfl⟩ :=
    UploadRequest.savePromotion_promoted hsave (by simp [hcopying]) (by simp)
  · simp [hlockedKey] at hnone
  obtain rfl : key = locked.target := Option.some.inj (hlockedKey.symm.trans htarget)
  obtain ⟨hdocuments, hissuances, hverifications, rfl, rfl⟩ :=
    createDomain_cases hdomain hlockedKey hsha256
  obtain ⟨haccepts, hfresh, rfl⟩ := createJobEvent_eq_ok hevents
  have hid := List.find?_some hfind
  simp only [decide_eq_true_eq] at hid
  refine ⟨locked, sha256, ?_, rfl, rfl⟩
  exact ⟨List.mem_of_find?_eq_some hfind, hid, hcopying, horganization, hpurpose, htarget, hsha256,
    hdeleted, hdocuments, hissuances, hverifications, by simpa using hjobs, hfresh, haccepts⟩

/-- An attach keeps the primary keys. -/
theorem Attaches.keyed {formats : FormatChecker} {promotion : PromotionCall} {ids : FreshIds} {db : Database}
    {locked : UploadRequest} {sha256 : Sha256} {job : Job} {now : Instant}
    (h : Attaches formats promotion ids db locked sha256 job) (hkeyed : db.Keyed) :
    (attachedDatabase promotion locked ids sha256 job now db).Keyed where
  uploads := by simpa [attachedDatabase] using hkeyed.uploads
  recipients := hkeyed.recipients
  documents := by
    cases hrequest : promotion.request with
    | issuance recipient =>
      simpa [attachedDatabase, hrequest, DomainRequest.documents, newDocument,
        List.nodup_append, hkeyed.documents] using
        fun other hother ↦ (h.documents (by simp [hrequest]) other hother).1
    | verification =>
      simpa [attachedDatabase, hrequest, DomainRequest.documents] using hkeyed.documents
  issuances := by
    cases hrequest : promotion.request with
    | issuance recipient =>
      simpa [attachedDatabase, hrequest, DomainRequest.issuances, newIssuance,
        List.nodup_append, hkeyed.issuances] using
        fun other hother ↦ h.issuances (by simp [hrequest]) other hother
    | verification =>
      simpa [attachedDatabase, hrequest, DomainRequest.issuances] using hkeyed.issuances
  verifications := by
    cases hrequest : promotion.request with
    | issuance recipient =>
      simpa [attachedDatabase, hrequest, DomainRequest.verifications] using hkeyed.verifications
    | verification =>
      simpa [attachedDatabase, hrequest, DomainRequest.verifications, newVerification,
        List.nodup_append, hkeyed.verifications] using
        fun other hother ↦ (h.verifications hrequest other hother).1
  jobs := by
    simpa [attachedDatabase, List.nodup_append, hkeyed.jobs] using
      fun other hother ↦ h.jobs other hother

end Splitbind
