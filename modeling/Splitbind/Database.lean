import Splitbind.Demo.VerificationEvidence
import Splitbind.Jobs.Lifecycle
import Splitbind.Library.Table
import Splitbind.Outbox.Messages
import Splitbind.Uploads.Promotion

/-!
# Database — the tables the API services and the workers share

A table is the list of its rows; a row is found by its primary key.
-/

namespace Splitbind

structure Recipient where
  id : UUID
  organizationId : UUID
  externalReference : String
  displayName : String
deriving DecidableEq, Repr

/-- An audit row without an actor. -/
structure SystemAuditEvent where
  organizationId : UUID
  action : String
  targetType : String
  targetId : UUID
  outcome : AuditOutcome
deriving DecidableEq, Repr

structure Database where
  uploads : List UploadRequest
  recipients : List Recipient
  documents : List Document
  issuances : List Issuance
  verifications : List Verification
  jobs : List Job
  events : List OutboxEvent
  audit : List AuditEvent
  systemAudit : List SystemAuditEvent
  schedule : CleanupScheduleState

/-- No rows, and a schedule of which no run has been recorded. -/
def emptyDatabase : Database where
  uploads := []
  recipients := []
  documents := []
  issuances := []
  verifications := []
  jobs := []
  events := []
  audit := []
  systemAudit := []
  schedule := ⟨.ordinary, none, none, false⟩

namespace Database

/-- The primary keys of the tables. -/
structure Keyed (db : Database) : Prop where
  uploads : (db.uploads.map (·.id)).Nodup
  recipients : (db.recipients.map (·.id)).Nodup
  documents : (db.documents.map (·.id)).Nodup
  issuances : (db.issuances.map (·.id)).Nodup
  verifications : (db.verifications.map (·.id)).Nodup
  jobs : (db.jobs.map (·.id)).Nodup

/-- `save` of a loaded job row. -/
def saveJob (db : Database) (job : Job) : Database :=
  { db with jobs := Table.save (·.id) db.jobs job }

/-- `save` of a loaded upload row. -/
def saveUpload (db : Database) (upload : UploadRequest) : Database :=
  { db with uploads := Table.save (·.id) db.uploads upload }

end Database

end Splitbind
