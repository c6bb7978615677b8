import Splitbind.Demo.IssuanceWorker
import Splitbind.Demo.VerificationTransactions

/-!
# Verification workers — one job, any number of workers, one atomic step at a time

Between its acquisition and its commit a worker asks twice whether the job has been cancelled,
once before the download and once before the analysis.  Nothing here writes to the object store.
-/

namespace Splitbind

open Transaction

/-! ## 1. Phases and inputs -/

inductive VerificationPhase
  | idle
  | crashed
  | acquire (ownerToken : UUID)
  | load (claim : VerificationClaim)
  | cancelBeforeDownload (claim : VerificationClaim)
  | download (claim : VerificationClaim)
  | cancelBeforeAnalysis (claim : VerificationClaim) (inputSha256 : Sha256)
  | analyze (claim : VerificationClaim) (inputSha256 : Sha256)
  | commit (claim : VerificationClaim) (inputSha256 : Sha256) (decode : DecodeSummary)
      (pagesAnalyzed : Nat)
  | record (claim : VerificationClaim) (code : SafeErrorCode) (cleanupFailures : Nat)
deriving DecidableEq

/-- The codes of `_load_fingerprint_key` and `accepted_decode_candidates`. -/
def loadFailureCodes : List SafeErrorCode :=
  [.demoFingerprintKeyInvalid, .demoFingerprintCandidateInvalid]

/-- The codes `storage.download_bytes` is answered with. -/
def downloadFailureCodes : List SafeErrorCode :=
  [.demoInputChecksumMismatch, .demoInputFileLimit, .demoInputStorageRejected,
    .demoInputStorageFailed]

/-- What resolves a step: the clock, the tokens, the database tables outside the job, what the
storage and the workspace do, and whether the database fails.  Where an exception may carry a
code, `none` is any exception but `DemoVerificationError`. -/
inductive VerificationInput
  | claimNextJob (cycle : Cycle) (ownerToken : UUID) (now : Instant) (fault : Fault)
  | processVerificationJob (ownerToken : UUID)
  | prepareStaleRecovery (db : SourceDatabase) (staleBefore : Instant) (processingMs : Nat)
      (now : Instant) (fault : Fault)
  | acquire (db : SourceDatabase) (now : Instant) (fault : Fault)
  | loaded
  | loadFailed (code : Option SafeErrorCode)
  | cancelBeforeWork (now : Instant) (fault : Fault)
  | downloaded (actualSha256 : Sha256)
  | downloadFailed (code : Option SafeErrorCode)
  | analyze (suspect : Option Suspect) (workspaceFails : Bool)
  | commit (db : SourceDatabase) (library : ManifestLibrary) (processingMs : Nat) (now : Instant)
      (fault : Fault)
  | record (processingMs : Nat) (now : Instant) (fault : Fault)
  | crash

/-! ## 2. The error paths -/

/-- The exception with a code, or one without. -/
def raisedWith : Option SafeErrorCode → Raised
  | some code => demoVerificationError code
  | none => .other

/-- The `except` clauses of `process_verification_job`. -/
def handleVerificationError (claim : VerificationClaim) (error : Raised) : VerificationPhase :=
  match error with
  | .demoVerification code failures =>
    if code = .demoJobCancelled then .idle else .record claim code failures
  | _ => .record claim .demoVerificationProcessingFailed 0

/-- The `except` clause around the analysis, and the cleanup after it. -/
def leaveVerificationWorkspace (workspaceFails : Bool) (error : Raised) : Raised :=
  if workspaceFails then .demoVerification .demoWorkspaceCleanupFailed 1 else error

/-! ## 3. One step -/

namespace VerificationWorker

variable (settings : Settings)

/-- Run one transaction on the rows and go on with its result. -/
def transact {α : Type} (rows : VerificationRows) (fault : Fault)
    (body : Except Raised (α × VerificationRows)) (next : Except Raised α → VerificationPhase) :
    Option (VerificationRows × VerificationPhase) :=
  let outcome := attempt fault .databaseUnavailable body rows
  some (outcome.2, next outcome.1)

def claimNext : Except Raised (Option UUID) → VerificationPhase
  | .ok (some ownerToken) => .acquire ownerToken
  | _ => .idle

def acquireNext : Except Raised VerificationRows.Acquired → VerificationPhase
  | .ok (.claimed claim) => .load claim
  | _ => .idle

/-- A job that turns out cancelled is left; otherwise the worker goes on. -/
def cancelNext (claim : VerificationClaim) (next : VerificationPhase) :
    Except Raised Bool → VerificationPhase
  | .ok true => handleVerificationError claim (demoVerificationError .demoJobCancelled)
  | .ok false => next
  | .error e => handleVerificationError claim e

def analyzeNext (claim : VerificationClaim) (inputSha256 : Sha256) (suspect : Option Suspect)
    (workspaceFails : Bool) : VerificationPhase :=
  let outcome := match suspect with
    | some suspect => analyzeContent settings.exactOnly settings.maxPdfPages
        acceptedDecodeCandidates suspect
    | none => .error .other
  match outcome with
  | .ok (decode, pagesAnalyzed) =>
    if workspaceFails then
      handleVerificationError claim (.demoVerification .demoWorkspaceCleanupFailed 1)
    else .commit claim inputSha256 decode pagesAnalyzed
  | .error e => handleVerificationError claim (leaveVerificationWorkspace workspaceFails e)

def commitNext (claim : VerificationClaim) :
    Except Raised (Option VerificationProcessingResult) → VerificationPhase
  | .ok (some _) => .idle
  | .ok none => handleVerificationError claim (demoVerificationError .demoJobCancelled)
  | .error (.demoVerification code failures) =>
    handleVerificationError claim (.demoVerification code failures)
  | .error _ => handleVerificationError claim (demoVerificationError .demoResultCommitFailed)

/-- The steps of a worker that is idle. -/
def idleStep (rows : VerificationRows) :
    VerificationInput → Option (VerificationRows × VerificationPhase)
  | .claimNextJob cycle ownerToken now fault =>
    if cycle.enabled settings then
      transact rows fault (rows.claimNextJob (cycle.claimPolicy settings) ownerToken now) claimNext
    else none
  | .processVerificationJob ownerToken =>
    if settings.demoMode ∨ settings.integrityMode then some (rows, .acquire ownerToken) else none
  | .prepareStaleRecovery db staleBefore processingMs now fault =>
    if settings.demoMode ∨ settings.integrityMode then
      transact rows fault (rows.prepareStaleRecovery settings db staleBefore processingMs now)
        fun _ ↦ .idle
    else none
  | _ => none

/-- The steps of a worker inside a call. -/
def busyStep (rows : VerificationRows) :
    VerificationPhase → VerificationInput → Option (VerificationRows × VerificationPhase)
  | .acquire ownerToken, .acquire db now fault =>
    transact rows fault (rows.acquireProcessingClaim settings db ownerToken now) acquireNext
  | .load claim, .loaded => some (rows, .cancelBeforeDownload claim)
  | .load claim, .loadFailed code =>
    -- an exact-only deployment loads nothing
    if settings.exactOnly = false ∧ ∀ known ∈ code, known ∈ loadFailureCodes then
      some (rows, handleVerificationError claim (raisedWith code))
    else none
  | .cancelBeforeDownload claim, .cancelBeforeWork now fault =>
    transact rows fault (rows.cancelBeforeWork claim now) (cancelNext claim (.download claim))
  | .download claim, .downloaded actualSha256 =>
    -- the storage checks the digest the claim expects
    if ∀ expected ∈ claim.expectedInputSha256, actualSha256 = expected then
      some (rows, .cancelBeforeAnalysis claim actualSha256)
    else none
  | .download claim, .downloadFailed code =>
    if ∀ known ∈ code, known ∈ downloadFailureCodes then
      some (rows, handleVerificationError claim (raisedWith code))
    else none
  | .cancelBeforeAnalysis claim inputSha256, .cancelBeforeWork now fault =>
    transact rows fault (rows.cancelBeforeWork claim now)
      (cancelNext claim (.analyze claim inputSha256))
  | .analyze claim inputSha256, .analyze suspect workspaceFails =>
    some (rows, analyzeNext settings claim inputSha256 suspect workspaceFails)
  | .commit claim inputSha256 decode pagesAnalyzed, .commit db library processingMs now fault =>
    transact rows fault
      (rows.commitVerificationResult settings db library claim inputSha256 decode pagesAnalyzed
        processingMs now)
      (commitNext claim)
  | .record claim code failures, .record processingMs now fault =>
    transact rows fault (rows.recordFailedJob claim code failures processingMs now) fun _ ↦ .idle
  | .idle, _ => none
  | .crashed, _ => none
  | _, .crash => some (rows, .crashed)
  | _, _ => none

def call (rows : VerificationRows) (phase : VerificationPhase) (input : VerificationInput) :
    Option (VerificationRows × VerificationPhase) :=
  if phase = .idle then idleStep settings rows input else busyStep settings rows phase input

/-- What runs on the job outside the workers. -/
def environment (rows : VerificationRows) (event : JobEvent) : Option VerificationRows :=
  let (job, audit) := event.apply rows.verification.requestedById rows.result.isSome rows.job
    rows.audit
  some { rows with job := job, audit := audit }

/-- The workers of one verification job. -/
def program : WorkerPool.Program VerificationRows VerificationPhase VerificationInput JobEvent where
  call := call settings
  environment := environment

abbrev Pool (W : Type*) := WorkerPool.Pool W VerificationRows VerificationPhase

/-- The rows of a job the promotion saga has just attached: nothing has run on it yet. -/
structure Attached (rows : VerificationRows) : Prop where
  bound : rows.validateLockedBinding = .ok ()
  status : rows.job.status = .created
  attempt : rows.job.attempt = 0
  unflagged : rows.job.cancelRequestedAt = none
  unverified : rows.verification.status = none
  result : rows.result = none
  receipts : rows.receipts = []
  unaudited : ∀ event ∈ rows.audit,
    ¬ (event.action = "job.cancel_requested" ∧ event.targetId = rows.job.id)

/-- The pools a run starts from: a job just attached, and every worker idle. -/
structure Start {W : Type*} (pool : Pool W) : Prop where
  attached : Attached pool.store
  idle : ∀ w, pool.phase w = .idle

/-- Every interleaving of the workers and the events around them. -/
def Reachable {W : Type*} [DecidableEq W] (pool : Pool W) : Prop :=
  ∃ start, Start start ∧ (program settings).Leads .all start pool

end VerificationWorker

end Splitbind
