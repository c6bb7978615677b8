import Mathlib.Data.List.Sort
import Splitbind.Database

/-!
# Retention — what a cleanup run may delete, and the evidence it leaves

A candidate is found by an unlocked query and checked again on its locked row.  The checks of the
locked row read the job rows with queries of their own, which lock nothing.
-/

namespace Splitbind

open Transaction

/-! ## 1. Candidates -/

/-- The cleanup categories; a stale promotion carries the state it was found in. -/
inductive Category
  | stalePromotion (expectedState : PromotionStatus)
  | issuanceInput
  | verificationInput
  | issuanceOutput
  | orphan
deriving DecidableEq, Repr

/-- The deletion timestamps, each with the model it belongs to. -/
inductive DeletionField
  | promotionTargetDeletedAt
  | outputDeletedAt
  | orphanDeletedAt
deriving DecidableEq, Repr

structure Candidate where
  category : Category
  pk : UUID
deriving DecidableEq, Repr

def Category.field : Category → DeletionField
  | .stalePromotion _ | .issuanceInput | .verificationInput => .promotionTargetDeletedAt
  | .issuanceOutput => .outputDeletedAt
  | .orphan => .orphanDeletedAt

/-- The action a deletion is audited under. -/
def Category.action : Category → String
  | .stalePromotion _ => "object.promotion.deleted"
  | .issuanceInput => "object.issuance_input.deleted"
  | .verificationInput => "object.verification_input.deleted"
  | .issuanceOutput => "object.issuance_output.deleted"
  | .orphan => "object.orphan.deleted"

/-- What `_ordinary_candidates` excludes by. -/
def Candidate.attempted (candidate : Candidate) : DeletionField × UUID :=
  (candidate.category.field, candidate.pk)

/-- `STALE_COPYING_AGE` and `RETENTION_WINDOWS`. -/
def Category.window : Category → Int
  | .stalePromotion _ => hours 1
  | .issuanceInput => days 7
  | .verificationInput => hours 24
  | .issuanceOutput => days 30
  | .orphan => hours 24

/-- `TERMINAL_JOB_STATUSES`. -/
def terminalJobStatuses : List JobStatus := [.succeeded, .failed, .cancelled, .deadLettered]

/-- `_related_jobs`. -/
def relatedJobs (db : Database) : Category → UUID → List Job
  | .issuanceInput, pk => db.jobs.filter fun job ↦ db.issuances.any fun issuance ↦
      job.issuanceId = some issuance.id && db.documents.any fun document ↦
        document.id = issuance.documentId && document.uploadRequestId = pk
  | .verificationInput, pk => db.jobs.filter fun job ↦ db.verifications.any fun verification ↦
      job.verificationId = some verification.id && verification.uploadRequestId = pk
  | .issuanceOutput, pk => db.jobs.filter fun job ↦ job.issuanceId = some pk
  | .stalePromotion _, _ | .orphan, _ => []

/-- The order of `order_by(order_field, "pk")`. -/
def rowBefore {α : Type} (time : α → Instant) (id : α → UUID) (a b : α) : Prop :=
  time a < time b ∨ time a = time b ∧ (id a).value ≤ (id b).value

instance {α : Type} (time : α → Instant) (id : α → UUID) (a b : α) :
    Decidable (rowBefore time id a b) := inferInstanceAs (Decidable (_ ∨ _))

/-- The annotations the candidate queries filter by. -/
def finishedBefore (jobs : List Job) (deadline : Instant) : Bool :=
  jobs.any (fun job ↦ job.status ∈ terminalJobStatuses) &&
    !jobs.any (fun job ↦ job.status ∉ terminalJobStatuses) &&
    !jobs.any (fun job ↦ job.status ∈ terminalJobStatuses ∧ job.updatedAt > deadline)

def outputFinishedBefore (jobs : List Job) (deadline : Instant) : Bool :=
  jobs.any (fun job ↦ job.status = .succeeded) &&
    !jobs.any (fun job ↦ job.status ∉ terminalJobStatuses) &&
    !jobs.any (fun job ↦ job.status ∈ terminalJobStatuses ∧ job.updatedAt > deadline)

/-- The rows of the uploads that a query selects, oldest first. -/
def uploadCandidates (db : Database) (category : Category) (selects : UploadRequest → Bool) :
    List Candidate :=
  ((db.uploads.filter selects).insertionSort (rowBefore (·.createdAt) (·.id))).map fun upload ↦
    ⟨category, upload.id⟩

def stalePromotions (db : Database) (state : PromotionStatus) (now : Instant) : List Candidate :=
  uploadCandidates db (.stalePromotion state) fun upload ↦
    upload.promotionStatus = state && upload.promotionTargetDeletedAt = none &&
      upload.promotionTargetKey ≠ none &&
      upload.promotionStatusChangedAt ≤ now - (Category.stalePromotion state).window

def expiredInputs (db : Database) (category : Category) (purpose : UploadPurpose)
    (now : Instant) : List Candidate :=
  uploadCandidates db category fun upload ↦
    upload.promotionStatus = .attached && upload.promotionTargetDeletedAt = none &&
      upload.purpose = purpose &&
      finishedBefore (relatedJobs db category upload.id) (now - category.window)

def expiredOutputs (db : Database) (now : Instant) : List Candidate :=
  ((db.issuances.filter fun issuance ↦
      issuance.outputDeletedAt = none && issuance.outputObjectKey ≠ none &&
        outputFinishedBefore (relatedJobs db .issuanceOutput issuance.id)
          (now - Category.issuanceOutput.window)).insertionSort
    (rowBefore (·.issuedAt) (·.id))).map fun issuance ↦ ⟨.issuanceOutput, issuance.id⟩

def expiredOrphans (db : Database) (now : Instant) : List Candidate :=
  uploadCandidates db .orphan fun upload ↦
    upload.orphanDeletedAt = none && upload.createdAt ≤ now - Category.orphan.window

/-- `_ordinary_candidates`: each query adds what the earlier ones leave room for. -/
def ordinaryCandidates (now : Instant) (limit : Nat) (excluded : List (DeletionField × UUID))
    (db : Database) : List Candidate :=
  ((stalePromotions db .failed now ++ stalePromotions db .copying now ++
      expiredInputs db .issuanceInput .issuance now ++
      expiredInputs db .verificationInput .verification now ++
      expiredOutputs db now ++ expiredOrphans db now).filter
    fun candidate ↦ candidate.attempted ∉ excluded).take limit

/-! ## 2. The checks of a locked row -/

/-- The row a candidate stands for. -/
inductive LockedRecord
  | upload (record : UploadRequest)
  | issuance (record : Issuance)
deriving DecidableEq

/-- `_base_manager.get(pk=pk)`. -/
def Candidate.record (candidate : Candidate) (db : Database) : Option LockedRecord :=
  match candidate.category with
  | .issuanceOutput => (db.issuances.find? (·.id = candidate.pk)).map .issuance
  | _ => (db.uploads.find? (·.id = candidate.pk)).map .upload

/-- What `_delete_one` and `_eligible_locked` ask of the locked row itself. -/
def LockedRecord.eligible (record : LockedRecord) (category : Category) (now : Instant) : Bool :=
  match record, category with
  | .upload row, .stalePromotion state =>
    row.promotionTargetDeletedAt = none && row.promotionStatus = state &&
      (state = .failed || state = .copying) &&
      row.promotionStatusChangedAt ≤ now - category.window
  | .upload row, .issuanceInput =>
    row.promotionTargetDeletedAt = none && row.promotionStatus = .attached &&
      row.purpose = .issuance
  | .upload row, .verificationInput =>
    row.promotionTargetDeletedAt = none && row.promotionStatus = .attached &&
      row.purpose = .verification
  | .issuance row, .issuanceOutput => row.outputDeletedAt = none
  | .upload row, .orphan =>
    row.orphanDeletedAt = none && row.createdAt ≤ now - category.window
  | _, _ => false

/-- The queries of `_all_jobs_terminal_before`, in their order. -/
inductive JobQuery
  | exist
  | allTerminal
  | oneSucceeded
  | latestBefore
deriving DecidableEq, Repr

def Category.jobQueries : Category → List JobQuery
  | .stalePromotion _ | .orphan => []
  | .issuanceInput | .verificationInput => [.exist, .allTerminal, .latestBefore]
  | .issuanceOutput => [.exist, .allTerminal, .oneSucceeded, .latestBefore]

def JobQuery.holds (query : JobQuery) (jobs : List Job) (deadline : Instant) : Bool :=
  match query with
  | .exist => jobs ≠ []
  | .allTerminal => !jobs.any (fun job ↦ job.status ∉ terminalJobStatuses)
  | .oneSucceeded => jobs.any (fun job ↦ job.status = .succeeded)
  | .latestBefore => jobs ≠ [] && jobs.all fun job ↦ job.updatedAt ≤ deadline

/-- One query about the jobs of a candidate. -/
def Candidate.passes (candidate : Candidate) (query : JobQuery) (now : Instant)
    (db : Database) : Bool :=
  query.holds (relatedJobs db candidate.category candidate.pk)
    (now - candidate.category.window)

/-- `_key_is_owned`. -/
def keyIsOwned (upload : UploadRequest) (category : Category) (key : ObjectKey) : Bool :=
  match category, key with
  | .orphan, .orphan purpose organization object =>
    purpose = upload.purpose && organization = upload.organizationId && object = upload.id
  | .stalePromotion _, .promotedInput kind organization owner
  | .issuanceInput, .promotedInput kind organization owner
  | .verificationInput, .promotedInput kind organization owner =>
    organization = upload.organizationId && owner = upload.id && kind = upload.purpose.kind
  | _, _ => false

def outputKeyIsOwned (issuance : Issuance) (key : ObjectKey) : Bool :=
  match key with
  | .issuanceOutput organization owner _ =>
    organization = issuance.organizationId && owner = issuance.id
  | _ => false

/-- The key `_delete_one` deletes, when the row has one that it owns. -/
def LockedRecord.ownedKey (record : LockedRecord) (category : Category) : Option ObjectKey :=
  match record with
  | .upload row =>
    (if category = .orphan then some row.objectKey else row.promotionTargetKey).filter
      (keyIsOwned row category)
  | .issuance row => row.outputObjectKey.filter (outputKeyIsOwned row)

def LockedRecord.organizationId : LockedRecord → UUID
  | .upload row => row.organizationId
  | .issuance row => row.organizationId

/-! ## 3. Deletion evidence -/

def LockedRecord.targetType : LockedRecord → String
  | .upload _ => "uploads.uploadrequest"
  | .issuance _ => "documents.issuance"

/-- `record_system_event` on a record. -/
def systemEvent (record : LockedRecord) (pk : UUID) (action : String) (outcome : AuditOutcome) :
    SystemAuditEvent where
  organizationId := record.organizationId
  action := action
  targetType := record.targetType
  targetId := pk
  outcome := outcome

/-- The upload with one deletion timestamp set. -/
def UploadRequest.deleted (upload : UploadRequest) (field : DeletionField) (time : Instant) :
    UploadRequest :=
  match field with
  | .orphanDeletedAt => { upload with orphanDeletedAt := some time }
  | _ => { upload with promotionTargetDeletedAt := some time }

def Database.saveIssuance (db : Database) (issuance : Issuance) : Database :=
  { db with issuances := Table.save (·.id) db.issuances issuance }

/-- `_record_deletion_evidence` of a cleanup run: the timestamp is still empty on the locked
row. -/
def recordDeletionEvidence (candidate : Candidate) (record : LockedRecord) (time : Instant)
    (db : Database) : Database :=
  let event := systemEvent record candidate.pk candidate.category.action .succeeded
  match record with
  | .upload upload =>
    { db.saveUpload (upload.deleted candidate.category.field time) with
      systemAudit := db.systemAudit ++ [event] }
  | .issuance issuance =>
    { db.saveIssuance { issuance with outputDeletedAt := some time } with
      systemAudit := db.systemAudit ++ [event] }

/-- `_audit_failure`. -/
def auditFailure (candidate : Candidate) (record : LockedRecord) (db : Database) : Database :=
  { db with systemAudit := db.systemAudit ++
      [systemEvent record candidate.pk (candidate.category.action ++ ".failed") .failed] }

/-- `_delete_one` without anything in between; `deletes` tells which keys the storage deletes. -/
def deleteOne (deletes : ObjectKey → Bool) (candidate : Candidate) (now : Instant)
    (db : Database) : Bool × Database :=
  match candidate.record db with
  | none => (false, db)
  | some record =>
    if record.eligible candidate.category now &&
        candidate.category.jobQueries.all fun query ↦ candidate.passes query now db then
      match record.ownedKey candidate.category with
      | none => (false, db)
      | some key =>
        if deletes key then (true, recordDeletionEvidence candidate record now db)
        else (false, auditFailure candidate record db)
    else
      (false, db)

/-! ## 4. Deletions of a create call -/

/-- The key `delete_fenced_promotion_target` deletes, if any. -/
def fencedTarget (uploadId : UUID) (db : Database) : Except Raised (Option ObjectKey) := do
  let record ← found (db.uploads.find? (·.id = uploadId)) (.doesNotExist "UploadRequest")
  if record.promotionTargetDeletedAt = none then
    return none
  else
    return record.promotionTargetKey.filter (keyIsOwned record (.stalePromotion .none))

/-- The event of a deletion a user's call made. -/
def orphanDeletedEvent (actor : User) (uploadId correlationId : UUID) : AuditEvent where
  organizationId := actor.organizationId
  actorId := actor.id
  action := "object.orphan.deleted"
  targetType := "uploads.uploadrequest"
  targetId := uploadId
  correlationId := correlationId
  outcome := .succeeded

/-- `delete_attached_orphan_source`, and the key it deletes; `stored` tells whether the storage
delete succeeds. -/
def deleteAttachedOrphanSource (stored : Bool) (actor : User) (uploadId correlationId : UUID)
    (now : Instant) (db : Database) : Except Raised (Option ObjectKey × Database) := do
  let record ← found (db.uploads.find? fun upload ↦
      upload.id = uploadId ∧ upload.organizationId = actor.organizationId ∧
        upload.requestedById = actor.id)
    (.doesNotExist "UploadRequest")
  if record.orphanDeletedAt ≠ none then
    return (none, db)
  else
    raiseIf (record.promotionStatus ≠ .attached)
      (.value "orphan cleanup ownership state is invalid")
    raiseIf (¬ keyIsOwned record .orphan record.objectKey)
      (.value "orphan cleanup key ownership is invalid")
    raiseIf (¬ stored) .other
    return (some record.objectKey, { db.saveUpload (record.deleted .orphanDeletedAt now) with
      audit := db.audit ++ [orphanDeletedEvent actor uploadId correlationId] })

end Splitbind
