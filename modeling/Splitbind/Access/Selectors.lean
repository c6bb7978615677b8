import Mathlib.Data.List.Sort
import Splitbind.Database

/-!
# Selectors — the records an actor may discover

Every query is filtered by the actor's organisation, and for some roles by the user a record was
created for.  A lookup by a key goes through the same filter, so what it may not find is not there.
-/

namespace Splitbind

open Transaction

/-! ## 1. Scopes -/

/-- `scope_issuances`. -/
def scopeIssuances (actor : User) (rows : List Issuance) : List Issuance :=
  let selected := rows.filter (·.organizationId = actor.organizationId)
  match actor.role with
  | .administrator | .auditor => selected
  | .issuer => selected.filter (·.createdById = actor.id)
  | .verifier => []

/-- `scope_verifications`. -/
def scopeVerifications (actor : User) (rows : List Verification) : List Verification :=
  let selected := rows.filter (·.organizationId = actor.organizationId)
  match actor.role with
  | .administrator | .auditor => selected
  | .verifier => selected.filter (·.requestedById = actor.id)
  | .issuer => []

/-- `scope_jobs`, with the relations it looks through. -/
def scopedJobs (actor : User) (db : Database) : List Job :=
  let selected := db.jobs.filter (·.organizationId = actor.organizationId)
  match actor.role with
  | .administrator | .auditor => selected
  | .issuer => selected.filter fun job ↦ job.kind = .issuance ∧
      ∃ issuance ∈ db.issuances, job.issuanceId = some issuance.id ∧
        issuance.createdById = actor.id
  | .verifier => selected.filter fun job ↦ job.kind = .verification ∧
      ∃ verification ∈ db.verifications, job.verificationId = some verification.id ∧
        verification.requestedById = actor.id

theorem scopeIssuances_subset {actor : User} {rows : List Issuance} :
    scopeIssuances actor rows ⊆ rows := by
  unfold scopeIssuances
  cases actor.role with
  | administrator | auditor => exact List.filter_subset_self _
  | issuer => exact List.Subset.trans (List.filter_subset_self _) (List.filter_subset_self _)
  | verifier => exact List.nil_subset _

theorem scopeVerifications_subset {actor : User} {rows : List Verification} :
    scopeVerifications actor rows ⊆ rows := by
  unfold scopeVerifications
  cases actor.role with
  | administrator | auditor => exact List.filter_subset_self _
  | verifier => exact List.Subset.trans (List.filter_subset_self _) (List.filter_subset_self _)
  | issuer => exact List.nil_subset _

/-- What the query selects, the check of one job lets pass. -/
theorem mem_scopedJobs {actor : User} {db : Database} {job : Job}
    (h : job ∈ scopedJobs actor db) : job ∈ db.jobs ∧ scopeJobs actor job actor.id := by
  unfold scopedJobs at h
  unfold scopeJobs
  revert h
  cases actor.role with
  | administrator | auditor =>
    intro h
    obtain ⟨hmem, horganization⟩ := List.mem_filter.mp h
    exact ⟨hmem, of_decide_eq_true horganization, trivial⟩
  | issuer | verifier =>
    intro h
    obtain ⟨hselected, hrequested⟩ := List.mem_filter.mp h
    obtain ⟨hmem, horganization⟩ := List.mem_filter.mp hselected
    exact ⟨hmem, of_decide_eq_true horganization, (of_decide_eq_true hrequested).1, rfl⟩

/-! ## 2. Lookups -/

/-- `get_issuance`. -/
def getIssuance (actor : User) (recordId : UUID) (db : Database) : Except Raised Issuance :=
  found ((scopeIssuances actor db.issuances).find? (·.id = recordId))
    (.workflowNotFound "WORKFLOW_NOT_FOUND")

/-- `get_verification`. -/
def getVerification (actor : User) (recordId : UUID) (db : Database) :
    Except Raised Verification :=
  found ((scopeVerifications actor db.verifications).find? (·.id = recordId))
    (.workflowNotFound "WORKFLOW_NOT_FOUND")

/-- The lookup of `JobDetailView`. -/
def getJob (actor : User) (jobId : UUID) (db : Database) : Except Raised Job :=
  found ((scopedJobs actor db).find? (·.id = jobId)) (.doesNotExist "Job")

/-- The query of `JobListView`: the last 50 jobs, of one kind if the request names one. -/
def listJobs (actor : User) (kind : Option JobKind) (db : Database) : List Job :=
  (((scopedJobs actor db).filter fun job ↦ ∀ k ∈ kind, job.kind = k).insertionSort
    fun a b ↦ b.createdAt ≤ a.createdAt).take 50

/-! ## 3. Cancelling -/

/-- `_request_cancel` with the query that locks its job. -/
def cancelScopedJob (actor : User) (jobId correlationId : UUID) (now : Instant) (db : Database) :
    Except Raised (Job × Database) := do
  raiseIf (actor.role = .auditor) (.permissionDenied "WORKFLOW_FORBIDDEN")
  let job ← found ((scopedJobs actor db).find? (·.id = jobId))
    (.workflowNotFound "WORKFLOW_NOT_FOUND")
  -- the query has looked at the requester, so the check of the job passes
  let (job', audit) ← requestCancelLocked actor correlationId now actor.id job db.audit
  return (job', { db.saveJob job' with audit := audit })

/-- `request_cancel`. -/
def cancelJob (actor : User) (jobId correlationId : UUID) (now : Instant) (db : Database) :
    Except Raised Job × Database :=
  match cancelScopedJob actor jobId correlationId now db with
  | .ok (job, db') => (.ok job, db')
  | .error error =>
    (.error error, if error.recordsDenial then
        { db with audit := db.audit ++ [denialEvent actor "job.cancel_denied" correlationId] }
      else db)

end Splitbind
