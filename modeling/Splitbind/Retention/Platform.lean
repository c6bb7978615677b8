import Splitbind.Jobs.Promotion
import Splitbind.Library.WorkerPool
import Splitbind.Retention.Reconciliation
import Splitbind.Uploads.Services

/-!
# The platform — create calls and cleanup runs over one database and one object store

A phase says where a create call or a cleanup run stands between two of its atomic steps: its
transactions and its calls to the storage.  A cleanup run holds the lock of the row it is about to
delete over several steps, as it reads job rows that are not locked; every other transaction is one
step.  What happens around them (uploads, recipients, the workers of the jobs, copies that the
storage performs late, time) is the environment.
-/

namespace Splitbind

open Transaction WorkerPool

namespace Platform

/-! ## 1. Store -/

structure ServiceSettings where
  jobTimeoutSeconds : Nat
  maxPdfBytes : Nat
  reconciliationLeaseSeconds : Nat
deriving DecidableEq, Repr

/-- A row that a transaction can lock. -/
inductive Lock
  | upload (id : UUID)
  | issuance (id : UUID)
deriving DecidableEq, Repr

structure Store where
  db : Database
  objects : ObjectStore
  /-- The destinations the storage was asked to copy to; it may do so at any later time. -/
  copies : List ObjectKey
  /-- The rows the open transactions of cleanup runs have locked. -/
  locked : List Lock
  clock : Instant
  /-- When each finished job has reached its final status. -/
  ended : List (UUID × Instant)
  /-- The claim tokens `uuid4` has returned so far; it never returns one twice. -/
  tokens : List UUID

/-! ## 2. Phases -/

/-- A run of `cleanup_expired` between two of its steps. -/
structure CleanupRun where
  now : Instant
  remaining : Nat
  attempted : List (DeletionField × UUID)
deriving DecidableEq, Repr

inductive Phase
  | idle
  | reserved (call : PromotionCall)
  | copied (call : PromotionCall)
  | failing (call : PromotionCall) (code : String) (error : Raised)
  | fenced (call : PromotionCall) (code : String) (error : Raised)
  | attached (call : PromotionCall) (domainId : UUID)
  | cleaning (run : CleanupRun)
  | ordinary (run : CleanupRun) (fallback : Bool)
  | selected (run : CleanupRun) (candidate : Candidate)
  | checking (run : CleanupRun) (candidate : Candidate) (record : LockedRecord)
      (queries : List JobQuery)
  | deleting (run : CleanupRun) (candidate : Candidate) (record : LockedRecord) (key : ObjectKey)
  | deleted (run : CleanupRun) (candidate : Candidate) (record : LockedRecord)
  | tried (run : CleanupRun)
  | reconciling (run : CleanupRun) (fallback : Bool)
  | claimed (run : CleanupRun) (claim : ReconciliationClaim)
  | attempted (run : CleanupRun) (claim : ReconciliationClaim) (attempt : ReconciliationAttempt)
deriving DecidableEq

/-- The row a candidate's transaction locks. -/
def lockOf (candidate : Candidate) : Lock :=
  match candidate.category with
  | .issuanceOutput => .issuance candidate.pk
  | _ => .upload candidate.pk

/-- The lock a phase holds. -/
def Phase.lock : Phase → Option Lock
  | .checking _ candidate _ _ => some (lockOf candidate)
  | .deleting _ candidate _ _ => some (lockOf candidate)
  | .deleted _ candidate _ => some (lockOf candidate)
  | _ => none

/-! ## 3. Inputs and events -/

/-- The domain record a create call asks for, as its arguments name it. -/
inductive CreateRequest
  | issuance (recipientId : UUID)
  | verification
deriving DecidableEq, Repr

def CreateRequest.kind : CreateRequest → JobKind
  | .issuance _ => .issuance
  | .verification => .verification

inductive Input
  | create (actor : User) (request : CreateRequest) (uploadId correlationId : UUID)
      (fault : Fault)
  | copy (content : Sha256) (outcome : CopyOutcome)
  | attach (ids : FreshIds) (fault : Fault)
  | fence (outcome : DeleteOutcome)
  | markFailed (fault : Fault)
  | deleteOrphan (outcome : DeleteOutcome) (fault : Fault)
  | cleanup (now : Instant) (batchSize : Nat)
  | proceed
  | delete (outcome : DeleteOutcome)
  | record (fault : Fault)
  | claim (token : UUID) (fault : Fault)
  | attempt (outcome : DeleteOutcome)
  | crash
deriving DecidableEq, Repr

/-- The columns of a job row that its workers and its owners change. -/
structure JobChange where
  status : JobStatus
  attempt : Nat
  safeErrorCode : Option SafeErrorCode
  cancelRequestedAt : Option Instant
deriving DecidableEq, Repr

/-- What a worker's commit writes besides the job row. -/
inductive WorkResult
  | nothing
  | issued (key : ObjectKey) (sha256 : Sha256) (pageCount : Nat)
  | verified (recoveredIssuanceId : Option UUID) (status : VerificationStatus)
      (evidence metrics : JsonObject)
deriving DecidableEq

inductive Event
  | tick (time : Instant)
  | createUpload (signed : Bool) (uploadId correlationId : UUID) (actor : User)
      (request : UploadIntentRequest)
  | completeUpload (later : Instant) (head : HeadResult) (correlationId : UUID) (actor : User)
      (uploadId : UUID) (sha256 : String)
  | recipients (rows : List Recipient)
  | copyLands (key : ObjectKey) (content : Sha256)
  | putUpload (purpose : UploadPurpose) (organization object : UUID) (content : Sha256)
  | putOutput (organization issuance : UUID) (extension : OutputExtension) (content : Option Sha256)
  | work (jobId : UUID) (change : JobChange) (result : WorkResult)

/-! ## 4. Create calls -/

/-- The authorization, the recipient lookup and the reservation of a create call. -/
def beginCreate (now : Instant) (actor : User) (request : CreateRequest)
    (uploadId correlationId : UUID) (db : Database) : Except Raised (PromotionCall × Database) := do
  authorizeCreate actor request.kind
  match request with
  | .issuance recipientId =>
    let recipient ← findRecipient actor recipientId db
    let (upload, db) ← reservePromotion now actor uploadId .issuance db
    return (⟨actor, .issuance recipient, correlationId, upload⟩, db)
  | .verification =>
    let (upload, db) ← reservePromotion now actor uploadId .verification db
    return (⟨actor, .verification, correlationId, upload⟩, db)

/-- `_record_denial` of `create_issuance` and `create_verification`, for the errors they catch. -/
def recordCreateDenial (actor : User) (kind : JobKind) (correlationId : UUID) (error : Raised)
    (db : Database) : Database :=
  if error.recordsDenial then
    { db with audit := db.audit ++
        [denialEvent actor (kind.text ++ ".create_denied") correlationId] }
  else
    db

/-- The event of a create call whose orphan could not be deleted. -/
def cleanupDeferredEvent (call : PromotionCall) (domainId : UUID) : AuditEvent where
  organizationId := call.actor.organizationId
  actorId := call.actor.id
  action := "object.cleanup_deferred_to_lifecycle"
  targetType := "documents." ++ call.request.kind.text
  targetId := domainId
  correlationId := call.correlationId
  outcome := .failed

def deleteKey (outcome : DeleteOutcome) (key : Option ObjectKey) (objects : ObjectStore) :
    ObjectStore :=
  key.elim objects (outcome.apply objects)

/-- The storage copy of a create call; once it is asked for, it may happen even if the call does
not see it. -/
def copyUpload (promotion : PromotionCall) (content : Sha256) (outcome : CopyOutcome)
    (store : Store) : Store × Phase :=
  match promotion.upload.promotionTargetKey with
  | none => (store, .failing promotion "PROMOTION_COPY_FAILED" .other)
  | some target =>
    let asked := { store with copies := target :: store.copies }
    match copyVerified outcome promotion.upload with
    | .ok _ => ({ asked with objects := store.objects.put target content }, .copied promotion)
    | .error error => (asked, .failing promotion "PROMOTION_COPY_FAILED" error)

/-- What the storage delete of `delete_attached_orphan_source` does, if the call gets to it. -/
def orphanObjects (promotion : PromotionCall) (outcome : DeleteOutcome) (store : Store) :
    ObjectStore :=
  match deleteAttachedOrphanSource true promotion.actor promotion.upload.id
      promotion.correlationId store.clock store.db with
  | .ok (key, _) => deleteKey outcome key store.objects
  | .error _ => store.objects

/-! ## 5. Cleanup runs -/

/-- `selected`: lock the row and check it, or leave it. -/
def lockCandidate (store : Store) (run : CleanupRun) (candidate : Candidate) : Store × Phase :=
  if lockOf candidate ∈ store.locked then
    (store, .tried run)
  else
    match candidate.record store.db with
    | none => (store, .tried run)
    | some record =>
      if record.eligible candidate.category run.now then
        ({ store with locked := lockOf candidate :: store.locked },
          .checking run candidate record candidate.category.jobQueries)
      else
        (store, .tried run)

/-- The end of a transaction that holds a lock. -/
def release (store : Store) (candidate : Candidate) : Store :=
  { store with locked := store.locked.filter (· ≠ lockOf candidate) }

/-- `checking`: the next query about the jobs, then the key. -/
def checkCandidate (store : Store) (run : CleanupRun) (candidate : Candidate)
    (record : LockedRecord) (queries : List JobQuery) : Store × Phase :=
  match queries with
  | query :: queries =>
    if candidate.passes query run.now store.db then
      (store, .checking run candidate record queries)
    else
      (release store candidate, .tried run)
  | [] =>
    match record.ownedKey candidate.category with
    | some key => (store, .deleting run candidate record key)
    | none => (release store candidate, .tried run)

/-- `deleting`: the storage delete inside the transaction. -/
def deleteCandidate (store : Store) (run : CleanupRun) (candidate : Candidate)
    (record : LockedRecord) (key : ObjectKey) (outcome : DeleteOutcome) : Store × Phase :=
  let store := { store with objects := outcome.apply store.objects key }
  if outcome = .deleted then
    (store, .deleted run candidate record)
  else
    (release { store with db := auditFailure candidate record store.db } candidate, .tried run)

/-- `deleted`: the evidence, and the end of the transaction. -/
def commitDeletion (store : Store) (run : CleanupRun) (candidate : Candidate)
    (record : LockedRecord) (fault : Fault) : Store × Phase :=
  let body : Except Raised (PUnit × Database) :=
    .ok (⟨⟩, recordDeletionEvidence candidate record run.now store.db)
  let (result, db) := attempt fault .databaseUnavailable body store.db
  match result with
  | .ok _ => (release { store with db := db } candidate, .tried run)
  | .error _ => (release { store with db := db } candidate, .idle)

/-- `claimed`: the attempt of a reconciliation, without any lock. -/
def attemptClaim (store : Store) (run : CleanupRun) (claim : ReconciliationClaim)
    (outcome : DeleteOutcome) : Store × Phase :=
  match reconciliationTarget claim store.db with
  | .inl attempt => (store, .attempted run claim attempt)
  | .inr key =>
    ({ store with objects := outcome.apply store.objects key },
      .attempted run claim (deletionAttempt (outcome = .deleted)))

/-- `attempted`: the acknowledgement or the retry. -/
def recordAttempt (store : Store) (run : CleanupRun) (claim : ReconciliationClaim)
    (attempt : ReconciliationAttempt) : Database :=
  if attempt.acknowledge then
    (ackReconciliation claim run.now store.clock attempt.succeeded store.db).2
  else
    (recordClaimRetry claim run.now store.clock store.db).2

/-! ## 6. Steps -/

/-- A transaction of a caller that goes on in one phase when it commits and in another when it
raises. -/
def Store.transact {α : Type} (store : Store) (fault : Fault)
    (body : Except Raised (α × Database)) (committed : α → Phase) (raised : Raised → Phase) :
    Store × Phase :=
  let (result, db) := Transaction.attempt fault .databaseUnavailable body store.db
  ({ store with db := db }, match result with
    | .ok a => committed a
    | .error error => raised error)

def Phase.crash (phase : Phase) (store : Store) : Store :=
  { store with locked := store.locked.filter fun lock ↦ some lock ≠ phase.lock }

variable (formats : FormatChecker) (settings : ServiceSettings)

/-- One atomic step of a create call or a cleanup run; `none` while a lock keeps it waiting. -/
def call (store : Store) (phase : Phase) (input : Input) : Option (Store × Phase) :=
  match phase, input with
  | .idle, .create actor request uploadId correlationId fault =>
    if .upload uploadId ∈ store.locked then none
    else
      match attempt fault .databaseUnavailable
          (beginCreate store.clock actor request uploadId correlationId store.db) store.db with
      | (.ok promotion, db) => some ({ store with db := db }, .reserved promotion)
      | (.error error, db) =>
        some ({ store with
          db := recordCreateDenial actor request.kind correlationId error db }, .idle)
  | .reserved promotion, .copy content outcome =>
    some (copyUpload promotion content outcome store)
  | .copied promotion, .attach ids fault =>
    if .upload promotion.upload.id ∈ store.locked then none
    else some (store.transact fault
      (attachPromotion formats settings.jobTimeoutSeconds promotion ids store.clock store.db)
      (fun _ ↦ .attached promotion ids.domain)
      (.failing promotion "PROMOTION_FINALIZE_FAILED"))
  | .failing promotion code error, .fence outcome =>
    if .upload promotion.upload.id ∈ store.locked then none
    else
      match fencedTarget promotion.upload.id store.db with
      | .ok key =>
        some ({ store with objects := deleteKey outcome key store.objects },
          .fenced promotion code error)
      | .error _ => some (store, .fenced promotion code error)
  | .fenced promotion code error, .markFailed fault =>
    if .upload promotion.upload.id ∈ store.locked then none
    else
      let (_, db) := attempt fault .databaseUnavailable (markFailed promotion.upload.id
        promotion.upload.promotionTargetKey code store.clock store.db) store.db
      let db := recordCreateDenial promotion.actor promotion.request.kind
        promotion.correlationId error db
      some ({ store with db := db }, .idle)
  | .attached promotion domainId, .deleteOrphan outcome fault =>
    if .upload promotion.upload.id ∈ store.locked then none
    else
      let body := deleteAttachedOrphanSource (outcome = .deleted) promotion.actor
        promotion.upload.id promotion.correlationId store.clock store.db
      let objects := orphanObjects promotion outcome store
      match attempt fault .databaseUnavailable body store.db with
      | (.ok _, db) => some ({ store with db := db, objects := objects }, .idle)
      | (.error _, db) => some ({ store with
          db := { db with audit := db.audit ++ [cleanupDeferredEvent promotion domainId] }
          objects := objects }, .idle)
  | .idle, .cleanup now batchSize =>
    if now ≤ store.clock ∧ 1 ≤ batchSize ∧ batchSize ≤ 500 then
      some (store, .cleaning ⟨now, batchSize, []⟩)
    else none
  | .cleaning run, .proceed =>
    match run.remaining with
    | 0 => some (store, .idle)
    | remaining + 1 =>
      let run := { run with remaining := remaining }
      match store.db.schedule.nextLane with
      | .ordinary => some (store, .ordinary run false)
      | .reconciliation => some (store, .reconciling run false)
  | .ordinary run fallback, .proceed =>
    match ordinaryCandidates run.now 1 run.attempted store.db with
    | candidate :: _ =>
      some (store, .selected { run with attempted := candidate.attempted :: run.attempted }
        candidate)
    | [] => some (store, if fallback then .idle else .reconciling run true)
  | .selected run candidate, .proceed => some (lockCandidate store run candidate)
  | .checking run candidate record queries, .proceed =>
    some (checkCandidate store run candidate record queries)
  | .deleting run candidate record key, .delete outcome =>
    some (deleteCandidate store run candidate record key outcome)
  | .deleted run candidate record, .record fault =>
    some (commitDeletion store run candidate record fault)
  | .tried run, .proceed =>
    some ({ store with db := markOrdinaryAttempt store.db }, .cleaning run)
  | .reconciling run fallback, .claim token fault =>
    if token ∈ store.tokens then none
    else
      let (claim, db) := claimReconciliation settings.reconciliationLeaseSeconds store.clock token
        store.db
      let tokens := token :: store.tokens
      match fault, claim with
      | .rolledBack, _ => some ({ store with tokens := tokens }, .idle)
      | .acknowledgementLost, _ => some ({ store with db := db, tokens := tokens }, .idle)
      | .none, some claim => some ({ store with db := db, tokens := tokens }, .claimed run claim)
      | .none, none => some ({ store with db := db, tokens := tokens },
          if fallback then .idle else .ordinary run true)
  | .claimed run claim, .attempt outcome => some (attemptClaim store run claim outcome)
  | .attempted run claim attempt, .record fault =>
    if .upload claim.uploadId ∈ store.locked then none
    else
      match fault with
      | .rolledBack => some (store, .idle)
      | .acknowledgementLost =>
        some ({ store with db := recordAttempt store run claim attempt }, .idle)
      | .none => some ({ store with db := recordAttempt store run claim attempt }, .cleaning run)
  | phase, .crash => some (phase.crash store, .idle)
  | _, _ => none

/-! ## 7. The environment -/

def JobChange.apply (change : JobChange) (now : Instant) (job : Job) : Job :=
  { job with
    status := change.status
    attempt := change.attempt
    safeErrorCode := change.safeErrorCode
    cancelRequestedAt := change.cancelRequestedAt
    updatedAt := now }

/-- The changes the transition table admits; only a retry has a new attempt. -/
def JobChange.Admitted (change : JobChange) (job : Job) : Prop :=
  (change.status = job.status ∨ change.status ∈ transitions job.status) ∧
    (change.attempt = job.attempt ∨ job.status = .retryableFailed)

instance (change : JobChange) (job : Job) : Decidable (change.Admitted job) :=
  inferInstanceAs (Decidable (_ ∧ _))

/-- The rows a worker's commit writes besides the job row. -/
def WorkResult.apply (result : WorkResult) (job : Job) (now : Instant) (db : Database) :
    Database :=
  match result with
  | .nothing => db
  | .issued key sha256 pageCount =>
    { db with
      issuances := db.issuances.map fun issuance ↦
        if job.issuanceId = some issuance.id then
          { issuance with outputObjectKey := some key, outputSha256 := some sha256 }
        else issuance
      documents := db.documents.map fun document ↦
        if db.issuances.any (fun issuance ↦
            job.issuanceId = some issuance.id && issuance.documentId = document.id) then
          { document with pageCount := some pageCount }
        else document }
  | .verified recoveredIssuanceId status evidence metrics =>
    { db with verifications := db.verifications.map fun verification ↦
        if job.verificationId = some verification.id then
          { verification with
            recoveredIssuanceId := recoveredIssuanceId
            status := some status
            evidence := evidence
            metrics := metrics
            completedAt := some now }
        else verification }

/-- A transaction around one job; a commit writes its issuance, so it waits for that row. -/
def work (store : Store) (jobId : UUID) (change : JobChange) (result : WorkResult) :
    Option Store :=
  match store.db.jobs.find? (·.id = jobId) with
  | none => none
  | some job =>
    if change.Admitted job ∧ (∀ issuanceId ∈ job.issuanceId, .issuance issuanceId ∉ store.locked)
    then
      some { store with
        db := (result.apply job store.clock store.db).saveJob (change.apply store.clock job)
        ended := if change.status.terminal ∧ ¬ job.status.terminal then
            (job.id, store.clock) :: store.ended
          else store.ended }
    else none

def environment (store : Store) (event : Event) : Option Store :=
  match event with
  | .tick time => if store.clock ≤ time then some { store with clock := time } else none
  | .createUpload signed uploadId correlationId actor request =>
    let db := (createUpload settings.maxPdfBytes signed store.clock uploadId correlationId actor
      request store.db).2
    some { store with db := db }
  | .completeUpload later head correlationId actor uploadId sha256 =>
    if .upload uploadId ∈ store.locked ∨ later < store.clock then none
    else some { store with
      db := (completeUpload store.clock later head correlationId actor uploadId sha256 store.db).2
      clock := later }
  | .recipients rows =>
    if (rows.map (·.id)).Nodup then some { store with db := { store.db with recipients := rows } }
    else none
  | .copyLands key content =>
    if key ∈ store.copies then some { store with objects := store.objects.put key content }
    else none
  | .putUpload purpose organization object content =>
    let objects := store.objects.put (.orphan purpose organization object) content
    some { store with objects := objects }
  | .putOutput organization issuance extension content =>
    let key := ObjectKey.issuanceOutput organization issuance extension
    some { store with objects := Function.update store.objects key content }
  | .work jobId change result => work store jobId change result

def program : Program Store Phase Input Event := ⟨call formats settings, environment settings⟩

/-! ## 8. Runs -/

abbrev Pool (W : Type*) := WorkerPool.Pool W Store Phase

/-- The stores a run starts from: uploads that no call has reserved yet. -/
structure Start {W : Type*} (pool : Pool W) : Prop where
  keyed : pool.store.db.Keyed
  uploads : ∀ upload ∈ pool.store.db.uploads, upload.promotionStatus = .none ∧
    upload.promotionTargetKey = none ∧ upload.promotionTargetDeletedAt = none ∧
    upload.promotionTargetReconciledAt = none
  documents : pool.store.db.documents = []
  issuances : pool.store.db.issuances = []
  verifications : pool.store.db.verifications = []
  jobs : pool.store.db.jobs = []
  events : pool.store.db.events = []
  systemAudit : pool.store.db.systemAudit = []
  schedule : pool.store.db.schedule = ⟨.ordinary, none, none, false⟩
  objects : ∀ kind organization upload,
    pool.store.objects (.promotedInput kind organization upload) = none
  copies : pool.store.copies = []
  locked : pool.store.locked = []
  ended : pool.store.ended = []
  tokens : pool.store.tokens = []
  idle : ∀ w, pool.phase w = .idle

/-- Every interleaving of the calls, the runs and the events around them. -/
def Reachable {W : Type*} [DecidableEq W] (pool : Pool W) : Prop :=
  ∃ start, Start start ∧ (program formats settings).Leads .all start pool

end Platform

end Splitbind
