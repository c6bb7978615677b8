import Splitbind.Demo.IssuanceTransactions
import Splitbind.Library.WorkerPool

/-!
# Issuance workers — one job, any number of workers, one atomic step at a time

A phase says where a worker stands between two of its atomic steps: the transactions of
`IssuanceTransactions` and the calls to the object store.  An input resolves what the step cannot
determine itself: the clock, the token `uuid4` returns, what the storage and the workspace do, and
whether the database fails.
-/

namespace Splitbind

open Transaction

/-! ## 1. Store and phases -/

structure IssuanceStore where
  rows : IssuanceRows
  objects : ObjectStore
  /-- The tokens `uuid4` has returned so far; it never returns one twice. -/
  issuedTokens : List UUID

/-- The codes and the failure count `_compensate_owned_output` is called with, and whether the
workspace is still to be cleaned up when it raises. -/
structure Compensation where
  cleanedCode : SafeErrorCode
  cleanupFailedCode : SafeErrorCode
  priorCleanupFailures : Nat
  insideWorkspace : Bool
deriving DecidableEq, Repr

namespace Compensation

def outputStorage : Compensation :=
  ⟨.demoOutputStorageFailed, .demoOutputStorageCleanupFailed, 0, true⟩

def workspaceCleanup : Compensation :=
  ⟨.demoWorkspaceCleanupFailed, .demoWorkspaceAndOutputCleanupFailed, 1, false⟩

def resultCommit : Compensation :=
  ⟨.demoResultCommitFailed, .demoResultCommitOutputCleanupFailed, 0, false⟩

def jobCancelled : Compensation :=
  ⟨.demoJobCancelled, .demoJobCancelledOutputCleanupFailed, 0, false⟩

/-- The failure count the compensation reports after its delete. -/
def cleanupFailures (compensation : Compensation) (deleted : Bool) : Nat :=
  if deleted then compensation.priorCleanupFailures else compensation.priorCleanupFailures + 1

/-- The code it reports. -/
def code (compensation : Compensation) (deleted : Bool) : SafeErrorCode :=
  if deleted then compensation.cleanedCode else compensation.cleanupFailedCode

end Compensation

open IssuanceRows in
inductive Phase
  | idle
  | crashed
  | acquire (ownerToken : UUID)
  | build (claim : ProcessingClaim)
  | beginUpload (claim : ProcessingClaim) (artifact : Artifact)
  | put (claim : ProcessingClaim) (artifact : Artifact)
  | commit (claim : ProcessingClaim) (artifact : Artifact)
  | authorize (claim : ProcessingClaim) (compensation : Compensation)
  | delete (claim : ProcessingClaim) (compensation : Compensation)
  | persist (claim : ProcessingClaim) (compensation : Compensation) (deleted : Bool)
  | record (claim : ProcessingClaim) (code : SafeErrorCode) (cleanupFailures : Nat)
  | staleAuthorize (claim : ProcessingClaim) (priorCleanupFailures : Nat)
  | staleDelete (claim : ProcessingClaim) (priorCleanupFailures : Nat)
  | staleFailed (claim : ProcessingClaim) (priorCleanupFailures : Nat)
  | staleAcknowledge (claim : ProcessingClaim) (priorCleanupFailures : Nat)
  | tombstoneDelete (claim : ProcessingClaim)
deriving DecidableEq, Repr

/-- The claim a worker inside `process_issuance_job` works on. -/
def Phase.heldClaim : Phase → Option ProcessingClaim
  | .build claim => some claim
  | .beginUpload claim _ => some claim
  | .put claim _ => some claim
  | .commit claim _ => some claim
  | .authorize claim _ => some claim
  | .delete claim _ => some claim
  | .persist claim _ _ => some claim
  | .record claim _ _ => some claim
  | _ => none

/-! ## 2. Inputs -/

/-- Which worker cycle claims the job. -/
inductive Cycle
  | demo
  | integrity
deriving DecidableEq, Repr

def Cycle.enabled (settings : Settings) : Cycle → Bool
  | .demo => settings.demoMode
  | .integrity => settings.integrityMode

def Cycle.claimPolicy (settings : Settings) : Cycle → ClaimPolicy
  | .demo => demoClaimPolicy
  | .integrity => integrityClaimPolicy settings.jobTimeoutSeconds

/-- How the download and the rendering end: with an artifact, with a key that cannot be loaded, or
with a content error (`none` is any exception but `DemoIssuanceError`). -/
inductive BuildOutcome
  | ready (artifact : IssuanceRows.Artifact)
  | keyFailed (code : SafeErrorCode)
  | contentFailed (code : Option SafeErrorCode) (workspaceFails : Bool)
deriving DecidableEq, Repr

/-- The codes raised before the workspace exists. -/
def keyFailureCodes : List SafeErrorCode :=
  [.demoFingerprintKeyInvalid, .manifestSigningKeyUnavailable, .manifestSigningKeyInvalid]

/-- The codes raised while downloading and rendering. -/
def contentFailureCodes : List SafeErrorCode :=
  [.demoInputChecksumMismatch, .demoPdfFileLimit, .demoInputStorageRejected,
    .demoInputStorageFailed, .demoImageInvalid, .demoImagePixelLimit, .demoFingerprintKeyInvalid,
    .demoFingerprintCandidateInvalid, .demoPdfOutputFailed, .demoPdfInvalid, .demoPdfEncrypted,
    .demoPdfPageLimit, .demoPdfRasterLimit, .demoPdfRenderFailed]

/-- What `upload_bytes` does to the store, and whether it returns. -/
inductive PutOutcome
  | stored
  | storedThenFailed
  | failed
deriving DecidableEq, Repr

def PutOutcome.apply (outcome : PutOutcome) (objects : ObjectStore) (key : ObjectKey)
    (sha256 : Sha256) : ObjectStore :=
  match outcome with
  | .failed => objects
  | _ => objects.put key sha256

open IssuanceRows in
inductive Input
  | claimNextJob (cycle : Cycle) (ownerToken : UUID) (now : Instant) (fault : Fault)
  | processIssuanceJob (ownerToken : UUID)
  | prepareStaleRecovery (staleBefore : Instant) (recoveryToken : UUID) (now : Instant)
      (fault : Fault)
  | acquire (now : Instant) (fault : Fault)
  | build (outcome : BuildOutcome)
  | beginUpload (now : Instant) (fault : Fault) (workspaceFails : Bool)
  | put (outcome : PutOutcome) (workspaceFails : Bool)
  | commit (processingMs : Nat) (signing : Signing) (now : Instant) (fault : Fault)
  | authorize (fault : Fault) (workspaceFails : Bool)
  | delete (outcome : DeleteOutcome)
  | persist (now : Instant) (fault : Fault) (workspaceFails : Bool)
  | record (now : Instant) (fault : Fault)
  | staleAuthorize (fault : Fault)
  | staleFailed (now : Instant) (fault : Fault)
  | staleAcknowledge (now : Instant) (fault : Fault)
  | crash

/-! ## 3. The error paths -/

/-- The `except` clause of `_process_issuance_job` around the workspace. -/
def leaveWorkspace (workspaceFails : Bool) (error : Raised) : Raised :=
  if workspaceFails then
    match error with
    | .demoIssuance _ 0 => .demoIssuance .demoWorkspaceCleanupFailed 1
    | .demoIssuance _ failures =>
      .demoIssuance .demoWorkspaceAndOutputCleanupFailed (failures + 1)
    | _ => .demoIssuance .demoWorkspaceCleanupFailed 1
  else error

/-- The `except` clauses of `process_issuance_job`: a cancellation is raised on, anything else is
recorded first. -/
def handleError (claim : ProcessingClaim) (error : Raised) : Phase :=
  match error with
  | .demoIssuance code failures =>
    if code = .demoJobCancelled ∨ code = .demoJobCancelledOutputCleanupFailed then .idle
    else .record claim code failures
  | _ => .record claim .demoIssuanceProcessingFailed 0

/-- An error raised by a compensation, on its way out. -/
def compensationError (claim : ProcessingClaim) (compensation : Compensation)
    (workspaceFails : Bool) (error : Raised) : Phase :=
  handleError claim
    (if compensation.insideWorkspace then leaveWorkspace workspaceFails error else error)

/-! ## 4. One step -/

namespace IssuanceWorker

variable (settings : Settings)

/-- Run one transaction on the rows and go on with its result. -/
def transact {α : Type} (store : IssuanceStore) (fault : Fault)
    (body : Except Raised (α × IssuanceRows)) (next : Except Raised α → Phase) :
    Option (IssuanceStore × Phase) :=
  let outcome := attempt fault .databaseUnavailable body store.rows
  some ({ store with rows := outcome.2 }, next outcome.1)

/-- Take a token `uuid4` has not returned before. -/
def withFreshToken (store : IssuanceStore) (token : UUID)
    (step : IssuanceStore → Option (IssuanceStore × Phase)) : Option (IssuanceStore × Phase) :=
  if token ∈ store.issuedTokens then none
  else step { store with issuedTokens := token :: store.issuedTokens }

def claimNext : Except Raised (Option UUID) → Phase
  | .ok (some ownerToken) => .acquire ownerToken
  | _ => .idle

def acquireNext : Except Raised IssuanceRows.Acquired → Phase
  | .ok (.claimed claim) => .build claim
  | _ => .idle

def recoveryNext : Except Raised IssuanceRows.StaleRecovery → Phase
  | .ok (.cleanup claim prior) => .staleAuthorize claim prior
  | .ok (.tombstone claim) => .tombstoneDelete claim
  | _ => .idle

def buildNext (claim : ProcessingClaim) : BuildOutcome → Option Phase
  | .ready artifact =>
    if 1 ≤ artifact.pageCount ∧ artifact.pageCount ≤ settings.maxPdfPages then
      some (.beginUpload claim artifact)
    else none
  | .keyFailed code =>
    if code ∈ keyFailureCodes then some (handleError claim (demoIssuanceError code)) else none
  | .contentFailed (some code) fails =>
    if code ∈ contentFailureCodes then
      some (handleError claim (leaveWorkspace fails (demoIssuanceError code)))
    else none
  | .contentFailed none fails => some (handleError claim (leaveWorkspace fails .other))

def beginUploadNext (claim : ProcessingClaim) (artifact : IssuanceRows.Artifact) (fails : Bool) :
    Except Raised Bool → Phase
  | .ok true => .put claim artifact
  | .ok false => handleError claim (leaveWorkspace fails (demoIssuanceError .demoJobCancelled))
  | .error e => handleError claim (leaveWorkspace fails e)

def putNext (claim : ProcessingClaim) (artifact : IssuanceRows.Artifact) (outcome : PutOutcome)
    (workspaceFails : Bool) : Phase :=
  match outcome with
  | .stored =>
    if workspaceFails then .authorize claim .workspaceCleanup else .commit claim artifact
  | _ => .authorize claim .outputStorage

def commitNext (claim : ProcessingClaim) :
    Except Raised (Option IssuanceProcessingResult) → Phase
  | .ok (some _) => .idle
  | .ok none => .authorize claim .jobCancelled
  | .error _ => .authorize claim .resultCommit

def authorizeNext (claim : ProcessingClaim) (compensation : Compensation) (fails : Bool) :
    Except Raised Unit → Phase
  | .ok _ => .delete claim compensation
  | .error e => compensationError claim compensation fails e

def persistNext (claim : ProcessingClaim) (compensation : Compensation) (deleted fails : Bool) :
    Except Raised Unit → Phase
  | .ok _ => compensationError claim compensation fails
      (.demoIssuance (compensation.code deleted) (compensation.cleanupFailures deleted))
  | .error e => compensationError claim compensation fails e

def staleAuthorizeNext (claim : ProcessingClaim) (prior : Nat) :
    Except Raised DemoIssuanceResult → Phase
  | .ok _ => .staleDelete claim prior
  | .error _ => .idle

/-- The steps of a worker that is idle: it claims the job, is called to process it, or recovers
it as stale. -/
def idleStep (store : IssuanceStore) : Input → Option (IssuanceStore × Phase)
  | .claimNextJob cycle ownerToken now fault =>
    if cycle.enabled settings then
      withFreshToken store ownerToken fun store ↦
        transact store fault
          (store.rows.claimNextJob (cycle.claimPolicy settings) ownerToken now) claimNext
    else none
  | .processIssuanceJob ownerToken =>
    if settings.demoMode ∨ settings.integrityMode then
      withFreshToken store ownerToken fun store ↦ some (store, .acquire ownerToken)
    else none
  | .prepareStaleRecovery staleBefore recoveryToken now fault =>
    if settings.demoMode ∨ settings.integrityMode then
      withFreshToken store recoveryToken fun store ↦
        transact store fault
          (store.rows.prepareStaleRecovery settings staleBefore recoveryToken now) recoveryNext
    else none
  | _ => none

/-- The steps of a worker inside a call. -/
def busyStep (store : IssuanceStore) : Phase → Input → Option (IssuanceStore × Phase)
  | .acquire ownerToken, .acquire now fault =>
    transact store fault (store.rows.acquireProcessingClaim settings ownerToken now) acquireNext
  | .build claim, .build outcome =>
    (buildNext settings claim outcome).map fun phase ↦ (store, phase)
  | .beginUpload claim artifact, .beginUpload now fault fails =>
    transact store fault (store.rows.beginOutputUpload claim now)
      (beginUploadNext claim artifact fails)
  | .put claim artifact, .put outcome fails =>
    some ({ store with
        objects := outcome.apply store.objects claim.outputObjectKey artifact.outputSha256 },
      putNext claim artifact outcome fails)
  | .commit claim artifact, .commit processingMs signing now fault =>
    transact store fault
      (store.rows.commitIssuanceResult settings claim artifact processingMs
        (if settings.integrityMode then some signing else none) now)
      (commitNext claim)
  | .authorize claim compensation, .authorize fault fails =>
    transact store fault (store.rows.authorizeOutputCleanup claim)
      (authorizeNext claim compensation fails)
  | .delete claim compensation, .delete outcome =>
    some ({ store with objects := outcome.apply store.objects claim.outputObjectKey },
      .persist claim compensation (decide (outcome = .deleted)))
  | .persist claim compensation deleted, .persist now fault fails =>
    transact store fault
      (store.rows.persistOutputCleanup claim (if deleted then .cleaned else .cleanupRequired)
        (compensation.code deleted) (compensation.cleanupFailures deleted) now)
      (persistNext claim compensation deleted fails)
  | .record claim code failures, .record now fault =>
    transact store fault (store.rows.recordFailedJob claim code failures now) fun _ ↦ .idle
  | .staleAuthorize claim prior, .staleAuthorize fault =>
    transact store fault (store.rows.authorizeStaleOutputDelete claim prior)
      (staleAuthorizeNext claim prior)
  | .staleDelete claim prior, .delete outcome =>
    some ({ store with objects := outcome.apply store.objects claim.outputObjectKey },
      if outcome = .deleted then .staleAcknowledge claim prior else .staleFailed claim prior)
  | .staleFailed claim prior, .staleFailed now fault =>
    transact store fault (store.rows.recordStaleOutputDeleteFailure claim prior now)
      fun _ ↦ .idle
  | .staleAcknowledge claim prior, .staleAcknowledge now fault =>
    transact store fault (store.rows.acknowledgeStaleOutputDelete claim prior now)
      fun _ ↦ .idle
  | .tombstoneDelete claim, .delete outcome =>
    some ({ store with objects := outcome.apply store.objects claim.outputObjectKey }, .idle)
  | .idle, _ => none
  | .crashed, _ => none
  | _, .crash => some (store, .crashed)
  | _, _ => none

def call (store : IssuanceStore) (phase : Phase) (input : Input) :
    Option (IssuanceStore × Phase) :=
  if phase = .idle then idleStep settings store input else busyStep settings store phase input

/-- What runs on the job outside the workers. -/
def environment (store : IssuanceStore) (event : JobEvent) : Option IssuanceStore :=
  let (job, audit) := event.apply store.rows.issuance.createdById store.rows.evidence.isSome
    store.rows.job store.rows.audit
  some { store with rows := { store.rows with job := job, audit := audit } }

/-- The workers of one issuance job. -/
def program : WorkerPool.Program IssuanceStore Phase Input JobEvent where
  call := call settings
  environment := environment

abbrev Pool (W : Type*) := WorkerPool.Pool W IssuanceStore Phase

/-- The rows of a job the promotion saga has just attached: nothing has run on it yet. -/
structure Attached (rows : IssuanceRows) : Prop where
  bound : rows.validateLockedBinding = .ok ()
  status : rows.job.status = .created
  attempt : rows.job.attempt = 0
  unflagged : rows.job.cancelRequestedAt = none
  evidence : rows.evidence = none
  outputObjectKey : rows.issuance.outputObjectKey = none
  outputSha256 : rows.issuance.outputSha256 = none
  receipts : rows.receipts = []
  manifests : rows.manifests = []
  unaudited : ∀ event ∈ rows.audit,
    ¬ (event.action = "job.cancel_requested" ∧ event.targetId = rows.job.id)

/-- The pools a run starts from: a job just attached, nothing stored under its output keys, and
every worker idle. -/
structure Start {W : Type*} (pool : Pool W) : Prop where
  attached : Attached pool.store.rows
  objects : ∀ extension, pool.store.objects
    (.issuanceOutput pool.store.rows.job.organizationId pool.store.rows.issuance.id extension) =
      none
  idle : ∀ w, pool.phase w = .idle

/-- Every interleaving of the workers and the events around them. -/
def Reachable {W : Type*} [DecidableEq W] (pool : Pool W) : Prop :=
  ∃ start, Start start ∧ (program settings).Leads .all start pool

end IssuanceWorker

end Splitbind
