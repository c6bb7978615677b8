import Splitbind.Contracts.Schema
import Splitbind.Database

/-!
# Upload services — creating an upload intent and completing it

A refusal is audited outside the transaction it rolls back, so a refused call adds one audit
event and changes nothing else.
-/

namespace Splitbind

open Transaction

/-! ## 1. Creating an intent -/

structure UploadIntentRequest where
  kind : String
  contentType : String
  sizeBytes : Int
  sha256 : String
deriving DecidableEq, Repr

def uploadTtl : Int := minutes 15

/-- `MAX_UPLOAD_BYTES` of the row. -/
def maxUploadBytes : Nat := 100 * 1024 * 1024

/-- `_KIND_TO_PURPOSE`. -/
def kindToPurpose (kind : String) : Option UploadPurpose :=
  if kind = "issuance_input" then some .issuance
  else if kind = "verification_input" then some .verification
  else none

/-- The content types of either kind. -/
def uploadContentTypes : List String := ["application/pdf", "image/png", "image/jpeg"]

/-- The digest a text of 64 lower-case hexadecimal digits spells. -/
def Sha256.parse (s : String) : Option Sha256 :=
  if s.toList.length = 64 ∧ s.toList.all isLowerHex then
    some ⟨.ofNat 256 (s.toList.foldl (fun n c ↦
      16 * n + if c.toNat < 58 then c.toNat - 48 else c.toNat - 87) 0)⟩
  else
    none

/-- `_authorize`, without the denial it records. -/
def authorizeUpload (actor : User) (kind : String) : Except Raised PUnit :=
  raiseIf (¬ (actor.role = .administrator ∨
      actor.role = .issuer ∧ kind = "issuance_input" ∨
      actor.role = .verifier ∧ kind = "verification_input"))
    (.uploadRejected "UPLOAD_FORBIDDEN")

/-- `_validate_intent`, without the denial it records. -/
def validateIntent (maxPdfBytes : Nat) (actor : User) (request : UploadIntentRequest) :
    Except Raised (UploadPurpose × Sha256) := do
  authorizeUpload actor request.kind
  let purpose ← found (kindToPurpose request.kind) (.uploadRejected "UPLOAD_KIND")
  raiseIf (request.contentType ∉ uploadContentTypes) (.uploadRejected "UPLOAD_CONTENT_TYPE")
  raiseIf (¬ (1 ≤ request.sizeBytes ∧ request.sizeBytes ≤ maxPdfBytes))
    (.uploadRejected "UPLOAD_SIZE")
  let sha256 ← found (Sha256.parse request.sha256) (.uploadRejected "UPLOAD_SHA256")
  return (purpose, sha256)

/-- The row `create_upload` writes. -/
def uploadIntent (actor : User) (purpose : UploadPurpose) (contentType : String) (sha256 : Sha256)
    (sizeBytes : Nat) (uploadId : UUID) (now : Instant) : UploadRequest where
  id := uploadId
  organizationId := actor.organizationId
  requestedById := actor.id
  purpose := purpose
  objectKey := .orphan purpose actor.organizationId uploadId
  sourceContentType := contentType
  expectedSha256 := some sha256
  sizeBytes := some sizeBytes
  expiresAt := now + uploadTtl
  finalizedAt := none
  orphanDeletedAt := none
  promotionTargetKey := none
  promotionStatus := .none
  promotionStatusChangedAt := now
  safeErrorCode := none
  promotionTargetDeletedAt := none
  promotionTargetReconciledAt := none
  createdAt := now

/-- The event of an upload service, on the upload itself. -/
def uploadEvent (actor : User) (action : String) (uploadId correlationId : UUID) : AuditEvent where
  organizationId := actor.organizationId
  actorId := actor.id
  action := action
  targetType := "uploads.uploadrequest"
  targetId := uploadId
  correlationId := correlationId
  outcome := .succeeded

/-- The checks of `create_upload` and its transaction; `signed` tells whether the storage signs
the intent. -/
def createUploadLocked (maxPdfBytes : Nat) (signed : Bool) (now : Instant)
    (uploadId correlationId : UUID) (actor : User) (request : UploadIntentRequest)
    (db : Database) : Except Raised (UploadRequest × Database) := do
  let (purpose, sha256) ← validateIntent maxPdfBytes actor request
  raiseIf (¬ signed) (.uploadRejected "STORAGE_UNAVAILABLE")
  let record := uploadIntent actor purpose request.contentType sha256 request.sizeBytes.toNat
    uploadId now
  raiseIf (¬ (1 ≤ request.sizeBytes.toNat ∧ request.sizeBytes.toNat ≤ maxUploadBytes))
    (.validation "new upload intent size must be between one byte and the configured ceiling")
  raiseIf (∃ other ∈ db.uploads, other.id = record.id) (.integrity "uploads_uploadrequest_pkey")
  raiseIf (∃ other ∈ db.uploads, other.objectKey = record.objectKey)
    (.integrity "uploads_uploadrequest_object_key_key")
  return (record, { db with
    uploads := db.uploads ++ [record]
    audit := db.audit ++ [uploadEvent actor "upload.intent.created" uploadId correlationId] })

/-- A service that audits a rejected upload; other errors pass. -/
def recordingRejection (actor : User) (action : String) (correlationId : UUID) {α : Type}
    (body : Except Raised (α × Database)) (db : Database) : Except Raised α × Database :=
  match body with
  | .ok (a, db') => (.ok a, db')
  | .error (.uploadRejected code) =>
    (.error (.uploadRejected code),
      { db with audit := db.audit ++ [denialEvent actor action correlationId] })
  | .error e => (.error e, db)

/-- `create_upload`. -/
def createUpload (maxPdfBytes : Nat) (signed : Bool) (now : Instant)
    (uploadId correlationId : UUID) (actor : User) (request : UploadIntentRequest)
    (db : Database) : Except Raised UploadRequest × Database :=
  recordingRejection actor "upload.intent.denied" correlationId
    (createUploadLocked maxPdfBytes signed now uploadId correlationId actor request db) db

/-! ## 2. Completing an upload -/

/-- What the storage answers about an uploaded object. -/
inductive HeadResult
  | unavailable
  | missing
  | found (sizeBytes : Nat) (clientSha256Metadata : Option String)
deriving DecidableEq, Repr

/-- `_scoped_upload`, without the denial it records. -/
def scopedUpload (actor : User) (uploadId : UUID) (db : Database) :
    Except Raised UploadRequest :=
  found (db.uploads.find? fun upload ↦
      upload.organizationId = actor.organizationId ∧ upload.id = uploadId ∧
        (actor.role ≠ .administrator → upload.requestedById = actor.id))
    (.uploadRejected "UPLOAD_NOT_FOUND")

/-- The transaction of `complete_upload`; `later` is the time after the storage has answered. -/
def completeUploadLocked (now later : Instant) (head : HeadResult) (correlationId : UUID)
    (actor : User) (uploadId : UUID) (sha256 : String) (db : Database) :
    Except Raised (UploadRequest × Database) := do
  let upload ← scopedUpload actor uploadId db
  authorizeUpload actor upload.purpose.orphanText
  raiseIf (some sha256 ≠ upload.expectedSha256.map (·.text))
    (.uploadRejected "UPLOAD_METADATA_MISMATCH")
  if upload.finalizedAt ≠ none then
    return (upload, db)
  else
    raiseIf (now ≥ upload.expiresAt) (.uploadRejected "UPLOAD_EXPIRED")
    raiseIf (head = .unavailable) (.uploadRejected "STORAGE_UNAVAILABLE")
    raiseIf (later ≥ upload.expiresAt) (.uploadRejected "UPLOAD_EXPIRED")
    raiseIf (¬ ∃ sizeBytes ∈ upload.sizeBytes, head = .found sizeBytes
        (upload.expectedSha256.map (·.text)))
      (.uploadRejected "UPLOAD_METADATA_MISMATCH")
    let finalized := { upload with finalizedAt := some later }
    return (finalized, { db.saveUpload finalized with
      audit := db.audit ++ [uploadEvent actor "upload.completed" upload.id correlationId] })

/-- `complete_upload`. -/
def completeUpload (now later : Instant) (head : HeadResult) (correlationId : UUID)
    (actor : User) (uploadId : UUID) (sha256 : String) (db : Database) :
    Except Raised UploadRequest × Database :=
  recordingRejection actor "upload.complete.denied" correlationId
    (completeUploadLocked now later head correlationId actor uploadId sha256 db) db

/-! ## 3. What a service that returns has written -/

theorem recordingRejection_cases {α : Type} (actor : User) (action : String) (correlationId : UUID)
    (body : Except Raised (α × Database)) (db : Database) :
    (∃ a, body = .ok (a, (recordingRejection actor action correlationId body db).2)) ∨
      ∃ audit, (recordingRejection actor action correlationId body db).2 =
        { db with audit := audit } := by
  rcases body with error | ⟨a, db'⟩
  · right
    cases error with
    | uploadRejected code => exact ⟨_, rfl⟩
    | _ => exact ⟨db.audit, rfl⟩
  · exact .inl ⟨a, rfl⟩

theorem createUploadLocked_cases {maxPdfBytes : Nat} {signed : Bool} {now : Instant}
    {uploadId correlationId : UUID} {actor : User} {request : UploadIntentRequest}
    {db db' : Database} {record : UploadRequest}
    (h : createUploadLocked maxPdfBytes signed now uploadId correlationId actor request db =
      .ok (record, db')) :
    (∃ purpose sha256, record = uploadIntent actor purpose request.contentType sha256
        request.sizeBytes.toNat uploadId now) ∧
      (∀ other ∈ db.uploads, other.id ≠ record.id) ∧
      db' = { db with
        uploads := db.uploads ++ [record]
        audit := db.audit ++ [uploadEvent actor "upload.intent.created" uploadId correlationId] } := by
  simp only [createUploadLocked, bind_eq_ok, exists_unit, raiseIf_eq_ok, pure_eq_ok, Prod.exists,
    Prod.mk.injEq] at h
  obtain ⟨purpose, sha256, -, -, -, hid, -, rfl, rfl⟩ := h
  exact ⟨⟨purpose, sha256, rfl⟩, fun other hother heq ↦ hid ⟨other, hother, heq⟩, rfl⟩

theorem completeUploadLocked_cases {now later : Instant} {head : HeadResult} {correlationId : UUID}
    {actor : User} {uploadId : UUID} {sha256 : String} {db db' : Database} {record : UploadRequest}
    (h : completeUploadLocked now later head correlationId actor uploadId sha256 db =
      .ok (record, db')) :
    db' = db ∨ ∃ upload ∈ db.uploads, upload.id = uploadId ∧ ∃ audit,
      db' = { db.saveUpload { upload with finalizedAt := some later } with audit := audit } := by
  simp only [completeUploadLocked, scopedUpload, bind_eq_ok, exists_unit, raiseIf_eq_ok,
    found_eq_ok] at h
  obtain ⟨upload, hfind, -, -, h⟩ := h
  have hrow := List.find?_some hfind
  simp only [decide_eq_true_eq] at hrow
  split at h
  · simp only [pure_eq_ok, Prod.mk.injEq] at h
    exact .inl h.2.symm
  · simp only [bind_eq_ok, exists_unit, raiseIf_eq_ok, pure_eq_ok, Prod.mk.injEq] at h
    obtain ⟨-, -, -, -, rfl, rfl⟩ := h
    exact .inr ⟨upload, List.mem_of_find?_eq_some hfind, hrow.2.1, _, rfl⟩

end Splitbind
