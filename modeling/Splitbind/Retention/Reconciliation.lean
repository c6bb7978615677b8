import Splitbind.Retention.Services

/-!
# Reconciliation — the leased claim on a tombstone and its acknowledgement

A tombstoned key is deleted again and again, one tombstone at a time in cursor order.  The claim
is a lease in the schedule row; the storage is called without holding that row.
-/

namespace Splitbind

/-! ## 1. Claiming -/

/-- The tombstones a reconciliation can select, in the order of the cursor. -/
def tombstones (db : Database) : List ReconciliationCursor :=
  (db.uploads.filterMap fun upload ↦
    match upload.promotionTargetDeletedAt, upload.promotionTargetKey with
    | some deletedAt, some _ => some ⟨deletedAt, upload.id⟩
    | _, _ => none).insertionSort (rowBefore (·.deletedAt) (·.id))

/-- Whether a tombstone comes after the cursor. -/
def ReconciliationCursor.before (cursor tombstone : ReconciliationCursor) : Bool :=
  cursor.deletedAt < tombstone.deletedAt ||
    cursor.deletedAt = tombstone.deletedAt && cursor.id.value < tombstone.id.value

/-- `_next_reconciliation_candidate`. -/
def nextReconciliationCandidate (schedule : CleanupScheduleState) (db : Database) : Option UUID :=
  let candidate :=
    match schedule.reconciliationCursor with
    | some cursor => (tombstones db).find? cursor.before
    | none => none
  (candidate.or (tombstones db).head?).map (·.id)

structure ReconciliationClaim where
  uploadId : UUID
  token : UUID
deriving DecidableEq, Repr

/-- `_save_schedule`. -/
def Database.saveSchedule (db : Database) (schedule : CleanupScheduleState) : Database :=
  { db with schedule := schedule }

/-- `_clear_claim`, saved. -/
def Database.clearClaim (db : Database) : Database :=
  db.saveSchedule { db.schedule with reconciliationClaim := none }

/-- The end of `_claim_reconciliation`: lease the record unless it is gone. -/
def leaseReconciliation (leaseSeconds : Nat) (leaseNow : Instant) (token uploadId : UUID)
    (db : Database) : Option ReconciliationClaim × Database :=
  match db.uploads.find? (·.id = uploadId) with
  | none => (none, db.clearClaim)
  | some record =>
    if record.promotionTargetDeletedAt = none then
      (none, db.clearClaim)
    else
      (some ⟨record.id, token⟩, db.saveSchedule { db.schedule with
        reconciliationClaim := some ⟨record.id, token, leaseNow + seconds leaseSeconds⟩
        hasRun := true })

/-- `_claim_reconciliation`; the token is the one `uuid4` returns. -/
def claimReconciliation (leaseSeconds : Nat) (leaseNow : Instant) (token : UUID) (db : Database) :
    Option ReconciliationClaim × Database :=
  match db.schedule.reconciliationClaim with
  | some lease =>
    if lease.expiresAt > leaseNow then (none, db)
    else leaseReconciliation leaseSeconds leaseNow token lease.uploadId db
  | none =>
    match nextReconciliationCandidate db.schedule db with
    | none => (none, db)
    | some uploadId => leaseReconciliation leaseSeconds leaseNow token uploadId db

/-! ## 2. Attempting -/

structure ReconciliationAttempt where
  succeeded : Bool
  acknowledge : Bool
  safeErrorCode : Option String
deriving DecidableEq, Repr

/-- The key `_attempt_reconciliation` deletes, or the attempt it reports without deleting. -/
def reconciliationTarget (claim : ReconciliationClaim) (db : Database) :
    ReconciliationAttempt ⊕ ObjectKey :=
  match db.uploads.find? (·.id = claim.uploadId) with
  | none => .inl ⟨false, true, some "MISSING_CLEANUP_OWNER"⟩
  | some record =>
    if record.promotionTargetDeletedAt = none then
      .inl ⟨false, true, some "INELIGIBLE_CLEANUP_OWNER"⟩
    else
      match record.promotionTargetKey.filter (keyIsOwned record (.stalePromotion .none)) with
      | none => .inl ⟨false, true, some "INVALID_CONTROLLED_KEY"⟩
      | some key => .inr key

/-- The attempt `_attempt_reconciliation` reports once the storage has answered. -/
def deletionAttempt (deleted : Bool) : ReconciliationAttempt :=
  if deleted then ⟨true, true, none⟩ else ⟨false, false, some "STORAGE_DELETE_RETRY"⟩

/-! ## 3. Acknowledging and retrying -/

/-- `_claim_matches`. -/
def claimMatches (schedule : CleanupScheduleState) (claim : ReconciliationClaim) : Bool :=
  schedule.reconciliationClaim.any fun lease ↦
    lease.uploadId = claim.uploadId && lease.token = claim.token

def AuditOutcome.text : AuditOutcome → String
  | .succeeded => "succeeded"
  | .denied => "denied"
  | .failed => "failed"

def reconciliationEvent (record : UploadRequest) (outcome : AuditOutcome) : SystemAuditEvent where
  organizationId := record.organizationId
  action := "object.promotion.reconciliation." ++ outcome.text
  targetType := "uploads.uploadrequest"
  targetId := record.id
  outcome := outcome

/-- `_record_promotion_reconciliation`. -/
def recordPromotionReconciliation (record : UploadRequest) (time : Instant) (succeeded : Bool)
    (db : Database) : Database :=
  let time := match record.promotionTargetReconciledAt with
    | some previous => if time < previous then previous else time
    | none => time
  let event := reconciliationEvent record (if succeeded then .succeeded else .failed)
  { db.saveUpload { record with promotionTargetReconciledAt := some time } with
    systemAudit := if event ∈ db.systemAudit then db.systemAudit else db.systemAudit ++ [event] }

/-- `max(at, timezone.now(), record.promotion_target_reconciled_at or at)`. -/
def observedAt (time now : Instant) (record : UploadRequest) : Instant :=
  max (max time now) (record.promotionTargetReconciledAt.getD time)

/-- `_ack_reconciliation`. -/
def ackReconciliation (claim : ReconciliationClaim) (time now : Instant) (succeeded : Bool)
    (db : Database) : Bool × Database :=
  if claimMatches db.schedule claim then
    match db.uploads.find? (·.id = claim.uploadId) with
    | none => (false, db.clearClaim)
    | some record =>
      match record.promotionTargetDeletedAt with
      | none => (false, db.clearClaim)
      | some deletedAt =>
        (true, (recordPromotionReconciliation record (observedAt time now record) succeeded
          db).saveSchedule { db.schedule with
            reconciliationCursor := some ⟨deletedAt, record.id⟩
            reconciliationClaim := none
            nextLane := .ordinary
            hasRun := true })
  else
    (false, db)

/-- `_record_claim_retry`. -/
def recordClaimRetry (claim : ReconciliationClaim) (time now : Instant) (db : Database) :
    Bool × Database :=
  if claimMatches db.schedule claim then
    match db.uploads.find? (·.id = claim.uploadId) with
    | none => (false, db.clearClaim)
    | some record =>
      if record.promotionTargetDeletedAt = none then
        (false, db.clearClaim)
      else
        (true, (recordPromotionReconciliation record (observedAt time now record) false
          db).saveSchedule { db.schedule with nextLane := .ordinary, hasRun := true })
  else
    (false, db)

/-! ## 4. Lanes -/

/-- `_mark_ordinary_attempt`. -/
def markOrdinaryAttempt (db : Database) : Database :=
  db.saveSchedule { db.schedule with nextLane := .reconciliation, hasRun := true }

end Splitbind
