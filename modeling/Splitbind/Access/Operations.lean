import Splitbind.Access.Recipients
import Splitbind.Access.Selectors
import Splitbind.Retention.Platform

/-!
# Operations — the services of the API, each from its arguments to its answer

A create call is put together here from its transactions, as one caller runs them; the other
services are one transaction each, or a query.  What a service takes from outside the database (the
time, new UUIDs, the answers of the storage, a fault of the database) comes with its arguments.
-/

namespace Splitbind

open Transaction Platform

/-! ## 1. Create calls -/

/-- What happens around the transactions of one create call. -/
structure CreateSetting where
  reservedAt : Instant
  reserveFault : Fault
  copy : CopyOutcome
  ids : FreshIds
  attachedAt : Instant
  attachFault : Fault
  failedAt : Instant
  failFault : Fault
  deletedAt : Instant
  /-- Whether the storage deletes the orphan. -/
  deletes : Bool
  deleteFault : Fault
deriving DecidableEq, Repr

/-- The domain record a create call returns. -/
inductive DomainRecord
  | issuance (record : Issuance)
  | verification (record : Verification)
deriving DecidableEq

/-- The row `create_domain` returns. -/
def PromotionCall.domain (promotion : PromotionCall) (ids : FreshIds) (now : Instant) :
    DomainRecord :=
  match promotion.request with
  | .issuance recipient => .issuance (newIssuance promotion.actor recipient ids now)
  | .verification => .verification (newVerification promotion.actor promotion.upload ids)

/-- The end of a create call that could not copy or attach; the delete of a fenced target before
it changes no row. -/
def failPromotion (setting : CreateSetting) (promotion : PromotionCall) (code : String)
    (db : Database) : Database :=
  (attempt setting.failFault .databaseUnavailable (markFailed promotion.upload.id
    promotion.upload.promotionTargetKey code setting.failedAt db) db).2

/-- The transaction that deletes the orphan of an attached upload. -/
def orphanTransaction (setting : CreateSetting) (promotion : PromotionCall) (db : Database) :
    Except Raised (Option ObjectKey) × Database :=
  attempt setting.deleteFault .databaseUnavailable (deleteAttachedOrphanSource setting.deletes
    promotion.actor promotion.upload.id promotion.correlationId setting.deletedAt db) db

/-- The end of a create call that has attached its upload. -/
def deleteOrphan (setting : CreateSetting) (promotion : PromotionCall) (db : Database) :
    Database :=
  match orphanTransaction setting promotion db with
  | (.ok _, db) => db
  | (.error _, db) =>
    { db with audit := db.audit ++ [cleanupDeferredEvent promotion setting.ids.domain] }

section Create

variable (formats : FormatChecker) (settings : ServiceSettings)

/-- The transaction that attaches the upload of a call. -/
def attachTransaction (setting : CreateSetting) (promotion : PromotionCall) (db : Database) :
    Except Raised Job × Database :=
  attempt setting.attachFault .databaseUnavailable (attachPromotion formats
    settings.jobTimeoutSeconds promotion setting.ids setting.attachedAt db) db

/-- `_copy_then_finalize`. -/
def copyThenFinalize (setting : CreateSetting) (promotion : PromotionCall) (db : Database) :
    Except Raised (DomainRecord × Job) × Database :=
  match copyVerified setting.copy promotion.upload with
  | .error error => (.error error, failPromotion setting promotion "PROMOTION_COPY_FAILED" db)
  | .ok _ =>
    match attachTransaction formats settings setting promotion db with
    | (.error error, db) =>
      (.error error, failPromotion setting promotion "PROMOTION_FINALIZE_FAILED" db)
    | (.ok job, db) =>
      (.ok (promotion.domain setting.ids setting.attachedAt, job),
        deleteOrphan setting promotion db)

/-- The transactions before the copy. -/
def reserveTransaction (setting : CreateSetting) (actor : User) (request : CreateRequest)
    (uploadId correlationId : UUID) (db : Database) : Except Raised PromotionCall × Database :=
  attempt setting.reserveFault .databaseUnavailable
    (beginCreate setting.reservedAt actor request uploadId correlationId db) db

/-- `_create_issuance` and `_create_verification`. -/
def createRecordUnlogged (setting : CreateSetting) (actor : User) (request : CreateRequest)
    (uploadId correlationId : UUID) (db : Database) :
    Except Raised (DomainRecord × Job) × Database :=
  match reserveTransaction setting actor request uploadId correlationId db with
  | (.error error, db) => (.error error, db)
  | (.ok promotion, db) => copyThenFinalize formats settings setting promotion db

/-- `create_issuance` and `create_verification`. -/
def createRecord (setting : CreateSetting) (actor : User) (request : CreateRequest)
    (uploadId correlationId : UUID) (db : Database) :
    Except Raised (DomainRecord × Job) × Database :=
  match createRecordUnlogged formats settings setting actor request uploadId correlationId db with
  | (.ok created, db) => (.ok created, db)
  | (.error error, db) =>
    (.error error, recordCreateDenial actor request.kind correlationId error db)

end Create

/-! ## 2. Operations -/

/-- The arguments of one call to a service of the API. -/
inductive Operation
  | createUpload (signed : Bool) (now : Instant) (uploadId correlationId : UUID)
      (request : UploadIntentRequest)
  | completeUpload (now later : Instant) (head : HeadResult) (correlationId uploadId : UUID)
      (sha256 : String)
  | createIssuance (setting : CreateSetting) (recipientId uploadId correlationId : UUID)
  | createVerification (setting : CreateSetting) (uploadId correlationId : UUID)
  | requestCancel (jobId correlationId : UUID) (now : Instant)
  | resolveRecipient (email : String) (name : Option String) (fresh : UUID)
  | getIssuance (recordId : UUID)
  | getVerification (recordId : UUID)
  | getJob (jobId : UUID)
  | listJobs (kind : Option JobKind)
deriving DecidableEq

inductive ServiceAnswer
  | upload (record : UploadRequest)
  | created (domain : DomainRecord) (job : Job)
  | job (job : Job)
  | recipient (recipient : Recipient)
  | issuance (record : Issuance)
  | verification (record : Verification)
  | jobs (jobs : List Job)
deriving DecidableEq

/-- What the services take from the deployment. -/
structure Services where
  formats : FormatChecker
  rules : TextRules
  settings : ServiceSettings

/-- A service's result as an answer. -/
def answer {α : Type} (f : α → ServiceAnswer) (result : Except Raised α × Database) :
    Except Raised ServiceAnswer × Database :=
  (f <$> result.1, result.2)

/-- One call by an actor. -/
def Operation.run (services : Services) (actor : User) (operation : Operation) (db : Database) :
    Except Raised ServiceAnswer × Database :=
  match operation with
  | .createUpload signed now uploadId correlationId request =>
    answer .upload (Splitbind.createUpload services.settings.maxPdfBytes signed now uploadId
      correlationId actor request db)
  | .completeUpload now later head correlationId uploadId sha256 =>
    answer .upload (Splitbind.completeUpload now later head correlationId actor uploadId sha256 db)
  | .createIssuance setting recipientId uploadId correlationId =>
    answer (fun created ↦ .created created.1 created.2)
      (createRecord services.formats services.settings setting actor (.issuance recipientId)
        uploadId correlationId db)
  | .createVerification setting uploadId correlationId =>
    answer (fun created ↦ .created created.1 created.2)
      (createRecord services.formats services.settings setting actor .verification
        uploadId correlationId db)
  | .requestCancel jobId correlationId now =>
    answer .job (cancelJob actor jobId correlationId now db)
  | .resolveRecipient email name fresh =>
    answer .recipient (attempt .none .databaseUnavailable
      (resolveRecipientForIssue services.rules actor.organizationId email name fresh db) db)
  | .getIssuance recordId => answer .issuance (Splitbind.getIssuance actor recordId db, db)
  | .getVerification recordId =>
    answer .verification (Splitbind.getVerification actor recordId db, db)
  | .getJob jobId => answer .job (Splitbind.getJob actor jobId db, db)
  | .listJobs kind => (.ok (.jobs (Splitbind.listJobs actor kind db)), db)

end Splitbind
