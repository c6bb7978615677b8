import Splitbind.ObjectKeys
import Splitbind.Library.Transaction

/-!
# Upload promotion — the `UploadRequest` row and its only two kinds of write

An upload's promotion target and status change through `save_promotion` alone, and its deletion
timestamps through the retention service alone; both are monotonic.
-/

namespace Splitbind

open Transaction

/-! ## 1. Rows -/

inductive PromotionStatus
  | none
  | copying
  | attached
  | failed
deriving DecidableEq, Repr

structure UploadRequest where
  id : UUID
  organizationId : UUID
  requestedById : UUID
  purpose : UploadPurpose
  objectKey : ObjectKey
  sourceContentType : String
  expectedSha256 : Option Sha256
  sizeBytes : Option Nat
  expiresAt : Instant
  finalizedAt : Option Instant
  orphanDeletedAt : Option Instant
  promotionTargetKey : Option ObjectKey
  promotionStatus : PromotionStatus
  promotionStatusChangedAt : Instant
  safeErrorCode : Option String
  promotionTargetDeletedAt : Option Instant
  promotionTargetReconciledAt : Option Instant
  createdAt : Instant
deriving DecidableEq, Repr

/-- The job kind an upload is promoted for. -/
def UploadPurpose.kind : UploadPurpose → JobKind
  | .issuance => .issuance
  | .verification => .verification

/-- `_purpose`. -/
def JobKind.purpose : JobKind → UploadPurpose
  | .issuance => .issuance
  | .verification => .verification

/-- `promoted_input_key`. -/
def promotedInputKey (kind : JobKind) (organizationId uploadId : UUID) : ObjectKey :=
  .promotedInput kind organizationId uploadId

namespace UploadRequest

/-- The one key an upload can be promoted to. -/
def target (upload : UploadRequest) : ObjectKey :=
  promotedInputKey upload.purpose.kind upload.organizationId upload.id

/-! ## 2. `save_promotion` -/

def allowedPromotions : PromotionStatus → List PromotionStatus
  | .none => [.copying]
  | .copying => [.attached, .failed]
  | .failed => [.copying]
  | .attached => []

/-- `save_promotion` on the locked row; the code is the one a failed promotion keeps. -/
def savePromotion (upload : UploadRequest) (status : PromotionStatus)
    (targetKey : Option ObjectKey) (safeErrorCode : Option String) (now : Instant) :
    Except Raised UploadRequest := do
  raiseIf (decide (status = .none) ≠ decide (targetKey = .none))
    (.value "promotion target and state do not match")
  raiseIf (status = .failed ∧ (safeErrorCode = .none ∨ safeErrorCode = some ""))
    (.value "failed promotion requires a safe error code")
  raiseIf (status ≠ .failed ∧ safeErrorCode ≠ .none)
    (.value "only failed promotion may retain a safe error code")
  raiseIf (upload.promotionTargetDeletedAt ≠ .none)
    (.value "deleted promotion target is permanently fenced; create a new upload reservation")
  if status = upload.promotionStatus ∧ targetKey = upload.promotionTargetKey ∧
      safeErrorCode = upload.safeErrorCode then
    return upload
  else
    raiseIf (status ∉ allowedPromotions upload.promotionStatus)
      (.value "promotion transition is invalid")
    raiseIf (upload.promotionTargetKey ≠ .none ∧ targetKey ≠ upload.promotionTargetKey)
      (.value "promotion target is immutable after reservation")
    raiseIf (∃ key ∈ targetKey, key ≠ upload.target)
      (.value "promotion target must identify this upload, organization, and purpose")
    return { upload with
      promotionStatus := status
      promotionStatusChangedAt := now
      promotionTargetKey := targetKey
      safeErrorCode := safeErrorCode }

/-- A promotion that is saved has no tombstone; the row stays as it is, or moves along the table
under the upload's own target. -/
theorem savePromotion_cases {upload upload' : UploadRequest} {status : PromotionStatus}
    {targetKey : Option ObjectKey} {safeErrorCode : Option String} {now : Instant}
    (h : upload.savePromotion status targetKey safeErrorCode now = .ok upload') :
    upload.promotionTargetDeletedAt = .none ∧
      ((status = upload.promotionStatus ∧ targetKey = upload.promotionTargetKey ∧
          upload' = upload) ∨
        (status ∈ allowedPromotions upload.promotionStatus ∧
          (upload.promotionTargetKey = .none ∨ targetKey = upload.promotionTargetKey) ∧
          (status = .none ↔ targetKey = .none) ∧
          (∀ key ∈ targetKey, key = upload.target) ∧
          upload' = { upload with
            promotionStatus := status
            promotionStatusChangedAt := now
            promotionTargetKey := targetKey
            safeErrorCode := safeErrorCode })) := by
  simp only [savePromotion, bind_eq_ok, exists_unit, raiseIf_eq_ok, not_not, ne_eq] at h
  obtain ⟨hmatch, -, -, hdeleted, h⟩ := h
  refine ⟨hdeleted, ?_⟩
  split at h
  · rename_i hsame
    simp only [pure_eq_ok] at h
    exact .inl ⟨hsame.1, hsame.2.1, h.symm⟩
  · simp only [bind_eq_ok, exists_unit, raiseIf_eq_ok, pure_eq_ok, not_not, not_and] at h
    obtain ⟨hallowed, himmutable, htarget, rfl⟩ := h
    refine .inr ⟨hallowed, ?_, by simpa using hmatch, by simpa using htarget, rfl⟩
    by_cases hkey : upload.promotionTargetKey = .none
    · exact .inl hkey
    · exact .inr (by simpa using himmutable hkey)

/-! ## 3. Row constraints -/

/-- The check constraints of the table that tie the status to the other promotion columns. -/
structure Constrained (upload : UploadRequest) : Prop where
  target : upload.promotionStatus = .none ↔ upload.promotionTargetKey = .none
  failed : upload.promotionStatus = .failed → upload.safeErrorCode ≠ .none

end UploadRequest

/-! ## 4. The cleanup schedule -/

inductive CleanupLane
  | ordinary
  | reconciliation
deriving DecidableEq, Repr

/-- The tombstone a reconciliation was last acknowledged for. -/
structure ReconciliationCursor where
  deletedAt : Instant
  id : UUID
deriving DecidableEq, Repr

/-- The leased claim of a runner on a tombstone. -/
structure ReconciliationLease where
  uploadId : UUID
  token : UUID
  expiresAt : Instant
deriving DecidableEq, Repr

/-- The one row of the schedule; its constraints set or clear the cursor and the claim as a
whole. -/
structure CleanupScheduleState where
  nextLane : CleanupLane
  reconciliationCursor : Option ReconciliationCursor
  reconciliationClaim : Option ReconciliationLease
  hasRun : Bool
deriving DecidableEq, Repr

end Splitbind
