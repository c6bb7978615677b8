import Splitbind.ObjectKeys

/-!
# Issuance evidence — the `DemoIssuanceResult` row and what its writes check

`save` runs `clean` but not the field validators; `fullClean` runs both, and is what the readers
of a committed row call.
-/

namespace Splitbind

open Transaction

/-! ## 1. Rows -/

structure Document where
  id : UUID
  organizationId : UUID
  createdById : UUID
  uploadRequestId : UUID
  sourceObjectKey : ObjectKey
  expectedSourceSha256 : Sha256
  pageCount : Option Nat
deriving DecidableEq, Repr

structure Issuance where
  id : UUID
  organizationId : UUID
  documentId : UUID
  recipientId : UUID
  createdById : UUID
  outputObjectKey : Option ObjectKey
  outputSha256 : Option Sha256
  outputDeletedAt : Option Instant
  issuedAt : Instant
deriving DecidableEq, Repr

inductive DemoOutputState
  | reserved
  | uploading
  | committed
  | cleanupRequired
  | cleaned
deriving DecidableEq, Repr

structure DemoIssuanceResult where
  organizationId : UUID
  jobId : UUID
  issuanceId : UUID
  attempt : Nat
  ownerToken : UUID
  outputObjectKey : ObjectKey
  outputState : DemoOutputState
  algorithmLabel : Option String
  candidateIdentifier : Option String
  canvasHeight : Option Nat
  canvasWidth : Option Nat
  inputSha256 : Option Sha256
  outputSha256 : Option Sha256
  pageCount : Option Nat
  processingMs : Option Nat
  limitations : List String
  cleanupFailures : Nat
  safeErrorCode : Option SafeErrorCode
  createdAt : Instant
  updatedAt : Instant
deriving DecidableEq, Repr

/-! ## 2. Frozen values -/

def demoCanonicalCanvas : Nat × Nat := (2304, 1152)

def demoMaxCommittedPages : Nat := 50

def demoAlgorithmLabel : String := "experimental_unreleased_fingerprint_v2"

def demoLegacyCandidateIdentifiers : List String :=
  ["5342463201e7490f80b69ef1a3289afce40ef02989c9a4d89f00b916055cbf1c4" ++
    "c83a97b880000000240380000000000003ff8000000000000000001800000001200" ++
    "00000300000003"]

def demoFrozenCandidateIdentifier : String :=
  "5342463201e7490f80b69ef1a3289afce40ef02989c9a4d89f00b916055cbf1c4" ++
    "c83a97b88000000024040000000000000400000000000000000000180000000120" ++
    "000000300000003"

def demoAcceptedCandidateIdentifiers : List String :=
  demoFrozenCandidateIdentifier :: demoLegacyCandidateIdentifiers

def demoLimitations : List String :=
  ["fingerprint.experimental_unreleased_v2", "fingerprint.not_gate_g1_evidence",
    "evidence.not_proof_of_leak_edit_or_distribution"]

def demoStaleRecoveryFenceCode : SafeErrorCode := .demoStaleRecoveryFenced

namespace DemoIssuanceResult

/-- The row `DemoIssuanceResult(...)` builds: reserved, every other column at its default. -/
def reserve (organizationId jobId issuanceId : UUID) (attempt : Nat) (ownerToken : UUID)
    (outputObjectKey : ObjectKey) (now : Instant) : DemoIssuanceResult where
  organizationId := organizationId
  jobId := jobId
  issuanceId := issuanceId
  attempt := attempt
  ownerToken := ownerToken
  outputObjectKey := outputObjectKey
  outputState := .reserved
  algorithmLabel := none
  candidateIdentifier := none
  canvasHeight := none
  canvasWidth := none
  inputSha256 := none
  outputSha256 := none
  pageCount := none
  processingMs := none
  limitations := []
  cleanupFailures := 0
  safeErrorCode := none
  createdAt := now
  updatedAt := now

/-! ## 3. `clean` -/

/-- Every column a successful issuance fills in is set. -/
def complete (row : DemoIssuanceResult) : Bool :=
  row.algorithmLabel.isSome && row.candidateIdentifier.isSome && row.canvasHeight.isSome &&
    row.canvasWidth.isSome && row.inputSha256.isSome && row.outputSha256.isSome &&
    row.pageCount.isSome && row.processingMs.isSome

/-- Some column a successful issuance fills in is set. -/
def claimsSuccess (row : DemoIssuanceResult) : Bool :=
  row.algorithmLabel.isSome || row.candidateIdentifier.isSome || row.canvasHeight.isSome ||
    row.canvasWidth.isSome || row.inputSha256.isSome || row.outputSha256.isSome ||
    row.pageCount.isSome || row.processingMs.isSome || !row.limitations.isEmpty

/-- The two keys the row's issuance may be written to. -/
def expectedKeys (row : DemoIssuanceResult) : List ObjectKey :=
  [.issuanceOutput row.organizationId row.issuanceId .pdf,
    .issuanceOutput row.organizationId row.issuanceId .png]

def clean (row : DemoIssuanceResult) (job : Job) (issuance : Issuance) : Except Raised Unit := do
  raiseIf (job.organizationId ≠ row.organizationId ∨ issuance.organizationId ≠ row.organizationId)
    (.validation "Related records must belong to the same organization.")
  raiseIf (job.kind ≠ .issuance ∨ job.issuanceId ≠ some row.issuanceId ∨ job.attempt ≠ row.attempt)
    (.validation "demo result must bind its issuance job")
  raiseIf (row.outputObjectKey ∉ row.expectedKeys)
    (.validation "demo result output key does not match its owner")
  if row.outputState = .committed then
    raiseIf (¬ row.complete) (.validation "committed demo result evidence is incomplete")
    raiseIf (row.algorithmLabel ≠ some demoAlgorithmLabel ∨
        (∀ identifier ∈ row.candidateIdentifier, identifier ∉ demoAcceptedCandidateIdentifiers) ∨
        (row.canvasHeight, row.canvasWidth) ≠
          (some demoCanonicalCanvas.1, some demoCanonicalCanvas.2) ∨
        row.limitations ≠ demoLimitations ∨
        row.cleanupFailures ≠ 0 ∨
        row.safeErrorCode ≠ none)
      (.validation "committed demo result evidence is invalid")
  else
    raiseIf row.claimsSuccess
      (.validation "uncommitted demo result cannot claim success evidence")
  raiseIf (row.outputState = .cleanupRequired ∧
      (row.safeErrorCode = none ∨
        (row.safeErrorCode ≠ some demoStaleRecoveryFenceCode ∧ row.cleanupFailures < 1)))
    (.validation "cleanup-required demo result needs durable failure evidence")

/-- What `clean` asks of a row's identity. -/
structure Binds (row : DemoIssuanceResult) (job : Job) (issuance : Issuance) : Prop where
  jobOrganization : job.organizationId = row.organizationId
  issuanceOrganization : issuance.organizationId = row.organizationId
  kind : job.kind = .issuance
  issuanceId : job.issuanceId = some row.issuanceId
  attempt : job.attempt = row.attempt
  key : row.outputObjectKey ∈ row.expectedKeys

theorem Binds.withJob {e : DemoIssuanceResult} {job job' : Job}
    {issuance : Issuance} (h : e.Binds job issuance) (hsame : SameJob job job')
    (hattempt : job'.attempt = job.attempt) : e.Binds job' issuance where
  jobOrganization := hsame.organizationId.trans h.jobOrganization
  issuanceOrganization := h.issuanceOrganization
  kind := hsame.kind.trans h.kind
  issuanceId := hsame.issuanceId.trans h.issuanceId
  attempt := hattempt.trans h.attempt
  key := h.key

/-- The columns of an evidence row no worker changes after creating it, short of a commit. -/
structure SameEvidence (e e' : DemoIssuanceResult) : Prop where
  organizationId : e'.organizationId = e.organizationId
  jobId : e'.jobId = e.jobId
  issuanceId : e'.issuanceId = e.issuanceId
  attempt : e'.attempt = e.attempt
  outputObjectKey : e'.outputObjectKey = e.outputObjectKey
  claimsSuccess : e'.claimsSuccess = e.claimsSuccess

theorem Binds.withEvidence {e e' : DemoIssuanceResult} {job : Job}
    {issuance : Issuance} (h : e.Binds job issuance) (hsame : SameEvidence e e') :
    e'.Binds job issuance where
  jobOrganization := h.jobOrganization.trans hsame.organizationId.symm
  issuanceOrganization := h.issuanceOrganization.trans hsame.organizationId.symm
  kind := h.kind
  issuanceId := h.issuanceId.trans (congrArg some hsame.issuanceId.symm)
  attempt := h.attempt.trans hsame.attempt.symm
  key := by
    simp only [expectedKeys, hsame.outputObjectKey, hsame.organizationId,
      hsame.issuanceId]
    exact h.key

/-- What `clean` asks of a row that still needs cleanup: a recorded failure. -/
def Durable (row : DemoIssuanceResult) : Prop :=
  row.outputState = .cleanupRequired →
    ∃ code, row.safeErrorCode = some code ∧
      (code = demoStaleRecoveryFenceCode ∨ 1 ≤ row.cleanupFailures)

theorem clean_eq_ok_of_uncommitted {row : DemoIssuanceResult} {job : Job} {issuance : Issuance}
    (h : row.outputState ≠ .committed) :
    row.clean job issuance = .ok () ↔
      row.Binds job issuance ∧ row.claimsSuccess = false ∧ row.Durable := by
  simp only [clean, bind_eq_ok, exists_unit, raiseIf_eq_ok, if_neg h, not_or, not_not, ne_eq, not_and,
    Bool.not_eq_true]
  constructor
  · rintro ⟨⟨hjob, hissuance⟩, ⟨hkind, hid, hattempt⟩, hkey, hclaims, hdurable⟩
    refine ⟨⟨hjob, hissuance, hkind, hid, hattempt, hkey⟩, hclaims, fun hstate ↦ ?_⟩
    obtain ⟨hcode, hfailures⟩ := hdurable hstate
    obtain ⟨code, hcode⟩ := Option.ne_none_iff_exists'.mp hcode
    rw [hcode, Option.some.injEq] at hfailures
    exact ⟨code, hcode, or_iff_not_imp_left.mpr fun hne ↦ Nat.le_of_not_lt (hfailures hne)⟩
  · rintro ⟨hbinds, hclaims, hdurable⟩
    refine ⟨⟨hbinds.jobOrganization, hbinds.issuanceOrganization⟩,
      ⟨hbinds.kind, hbinds.issuanceId, hbinds.attempt⟩, hbinds.key, hclaims, fun hstate ↦ ?_⟩
    obtain ⟨code, hcode, hfailures⟩ := hdurable hstate
    rw [hcode, Option.some.injEq]
    refine ⟨by simp, fun hne ↦ ?_⟩
    exact Nat.not_lt.mpr (hfailures.resolve_left hne)

/-! ## 4. Row constraints, field validators and `full_clean` -/

def positiveIntegerMax : Nat := 2147483647

def positiveSmallIntegerMax : Nat := 32767

/-- The integer column ranges and the check constraints of the table. -/
def rowConstraints (row : DemoIssuanceResult) : Except Raised Unit := do
  raiseIf (¬ row.attempt ≤ 2) (.integrity "demo_result_attempt_0_2")
  raiseIf (row.cleanupFailures > positiveSmallIntegerMax ∨
      (∃ n ∈ row.pageCount, n > positiveSmallIntegerMax) ∨
      (∃ n ∈ row.processingMs, n > positiveIntegerMax) ∨
      (∃ n ∈ row.canvasHeight, n > positiveIntegerMax) ∨
      (∃ n ∈ row.canvasWidth, n > positiveIntegerMax))
    (.integrity "integer out of range")
  raiseIf (row.outputState = .committed ∧
      ¬ (row.algorithmLabel = some demoAlgorithmLabel ∧
        (∃ identifier ∈ row.candidateIdentifier, identifier ∈ demoAcceptedCandidateIdentifiers) ∧
        row.canvasHeight = some demoCanonicalCanvas.1 ∧
        row.canvasWidth = some demoCanonicalCanvas.2 ∧
        row.inputSha256.isSome ∧ row.outputSha256.isSome ∧
        (∃ n ∈ row.pageCount, 1 ≤ n ∧ n ≤ demoMaxCommittedPages) ∧
        row.processingMs.isSome ∧
        row.limitations = demoLimitations ∧
        row.cleanupFailures = 0 ∧
        row.safeErrorCode = none))
    (.integrity "demo_result_committed_complete")

/-- `^[0-9a-f]{146}$`. -/
def candidateIdentifierPattern (identifier : String) : Bool :=
  identifier.length = 146 ∧
    identifier.toList.all fun c ↦ ('0' ≤ c ∧ c ≤ '9') ∨ ('a' ≤ c ∧ c ≤ 'f')

/-- `clean_fields`: the validators of each column, run on the values that are set. -/
def cleanFields (row : DemoIssuanceResult) : Except Raised Unit := do
  raiseIf (¬ row.attempt ≤ 2) (.validation "attempt")
  raiseIf (∃ label ∈ row.algorithmLabel, label.length > 64) (.validation "algorithm_label")
  raiseIf (∃ identifier ∈ row.candidateIdentifier,
      identifier.length > 146 ∨ ¬ candidateIdentifierPattern identifier)
    (.validation "candidate_identifier")
  raiseIf (∃ n ∈ row.canvasHeight, n > positiveIntegerMax) (.validation "canvas_height")
  raiseIf (∃ n ∈ row.canvasWidth, n > positiveIntegerMax) (.validation "canvas_width")
  raiseIf (∃ n ∈ row.pageCount, ¬ (1 ≤ n ∧ n ≤ 5)) (.validation "page_count")
  raiseIf (∃ n ∈ row.processingMs, n > positiveIntegerMax) (.validation "processing_ms")
  raiseIf (row.cleanupFailures > positiveSmallIntegerMax) (.validation "cleanup_failures")
  raiseIf (∃ code ∈ row.safeErrorCode, code.text.length > 80) (.validation "safe_error_code")

/-- `full_clean`: field validators, `clean` and the constraints of the table. -/
def fullClean (row : DemoIssuanceResult) (job : Job) (issuance : Issuance) :
    Except Raised Unit := do
  row.cleanFields
  row.clean job issuance
  row.rowConstraints

/-! ## 5. `save` -/

/-- The context variables a write runs under. -/
structure WriteCapability where
  write : Bool
  recoveryTransfer : Bool
deriving DecidableEq, Repr

/-- `with _allow_demo_result_write()`. -/
def WriteCapability.allowWrite : WriteCapability := ⟨true, false⟩

/-- `with _allow_demo_result_recovery_transfer(), _allow_demo_result_write()`. -/
def WriteCapability.allowRecoveryTransfer : WriteCapability := ⟨true, true⟩

def allowedTransitions : DemoOutputState → List DemoOutputState
  | .reserved => [.uploading, .cleaned]
  | .uploading => [.committed, .cleanupRequired, .cleaned]
  | .committed => []
  | .cleanupRequired => [.cleanupRequired, .cleaned]
  | .cleaned => [.cleaned]

/-- The identity columns that differ from the stored row, apart from the owner token. -/
def identityChanged (row persisted : DemoIssuanceResult) : Prop :=
  row.organizationId ≠ persisted.organizationId ∨ row.jobId ≠ persisted.jobId ∨
    row.issuanceId ≠ persisted.issuanceId ∨ row.attempt ≠ persisted.attempt ∨
    row.outputObjectKey ≠ persisted.outputObjectKey ∨ row.createdAt ≠ persisted.createdAt

instance (row persisted : DemoIssuanceResult) : Decidable (identityChanged row persisted) :=
  inferInstanceAs (Decidable (_ ∨ _))

/-- The one identity change `save` lets through: a stale-recovery transfer of the owner token. -/
def recoveryTransfer (capability : WriteCapability) (row persisted : DemoIssuanceResult) : Prop :=
  capability.recoveryTransfer = true ∧ ¬ identityChanged row persisted ∧
    persisted.outputState ∈ [DemoOutputState.uploading, .cleanupRequired] ∧
    row.outputState = .cleanupRequired

instance (capability : WriteCapability) (row persisted : DemoIssuanceResult) :
    Decidable (recoveryTransfer capability row persisted) :=
  inferInstanceAs (Decidable (_ ∧ _))

/-- `save` of a loaded row: `persisted` is the row as the table holds it. -/
def save (row : DemoIssuanceResult) (capability : WriteCapability)
    (persisted : DemoIssuanceResult) (job : Job) (issuance : Issuance) (now : Instant) :
    Except Raised DemoIssuanceResult := do
  raiseIf (capability.write = false) (.validation "demo issuance result evidence is immutable")
  raiseIf ((identityChanged row persisted ∨ row.ownerToken ≠ persisted.ownerToken) ∧
      ¬ (row.ownerToken ≠ persisted.ownerToken ∧ recoveryTransfer capability row persisted))
    (.validation "demo issuance result ownership is immutable")
  raiseIf (persisted.outputState = .committed)
    (.validation "committed demo issuance result evidence is immutable")
  raiseIf (row.outputState ∉ allowedTransitions persisted.outputState)
    (.validation "demo issuance result state transition is invalid")
  row.clean job issuance
  row.rowConstraints
  return { row with updatedAt := now }

/-- `save` of a new row; `existing` is the row the primary key already has, if any. -/
def create (row : DemoIssuanceResult) (capability : WriteCapability)
    (existing : Option DemoIssuanceResult) (job : Job) (issuance : Issuance) (now : Instant) :
    Except Raised DemoIssuanceResult := do
  raiseIf (capability.write = false) (.validation "demo issuance result evidence is immutable")
  row.clean job issuance
  row.rowConstraints
  raiseIf existing.isSome (.integrity "demo_demoissuanceresult_pkey")
  return { row with createdAt := now, updatedAt := now }

theorem rowConstraints_eq_ok_of_unclaimed {row : DemoIssuanceResult}
    (hstate : row.outputState ≠ .committed) (hclaims : row.claimsSuccess = false) :
    row.rowConstraints = .ok () ↔
      row.attempt ≤ 2 ∧ row.cleanupFailures ≤ positiveSmallIntegerMax := by
  simp only [claimsSuccess, Bool.or_eq_false_iff, Option.isSome_eq_false_iff,
    Option.isNone_iff_eq_none] at hclaims
  obtain ⟨⟨⟨⟨⟨⟨⟨⟨-, -⟩, hheight⟩, hwidth⟩, -⟩, -⟩, hpages⟩, hms⟩, -⟩ := hclaims
  simp [rowConstraints, hstate, hheight, hwidth, hpages, hms]

/-- Everything `save` checks, and the row it stores. -/
theorem save_eq_ok {row persisted row' : DemoIssuanceResult} {capability : WriteCapability}
    {job : Job} {issuance : Issuance} {now : Instant} :
    row.save capability persisted job issuance now = .ok row' ↔
      capability.write = true ∧
      (¬ identityChanged row persisted ∧ row.ownerToken = persisted.ownerToken ∨
        row.ownerToken ≠ persisted.ownerToken ∧ recoveryTransfer capability row persisted) ∧
      persisted.outputState ≠ .committed ∧
      row.outputState ∈ allowedTransitions persisted.outputState ∧
      row.clean job issuance = .ok () ∧ row.rowConstraints = .ok () ∧
      { row with updatedAt := now } = row' := by
  simp only [save, bind_eq_ok, exists_unit, raiseIf_eq_ok, pure_eq_ok, not_not, ne_eq, Bool.not_eq_false]
  constructor
  · rintro ⟨hwrite, hidentity, hcommitted, hstate, hclean, hrow, rfl⟩
    refine ⟨hwrite, ?_, hcommitted, hstate, hclean, hrow, rfl⟩
    by_cases howner : row.ownerToken = persisted.ownerToken
    · simp only [howner, not_true_eq_false, false_and, or_false, not_false_eq_true,
        and_true] at hidentity
      exact .inl ⟨hidentity, howner⟩
    · simp only [howner, not_false_eq_true, or_true, true_and, not_not] at hidentity
      exact .inr ⟨howner, hidentity⟩
  · rintro ⟨hwrite, hidentity, hcommitted, hstate, hclean, hrow, rfl⟩
    refine ⟨hwrite, ?_, hcommitted, hstate, hclean, hrow, rfl⟩
    rcases hidentity with ⟨hsame, howner⟩ | ⟨howner, htransfer⟩
    · exact fun hchanged ↦ hchanged.1.elim hsame (fun h ↦ h howner)
    · exact fun hchanged ↦ hchanged.2 ⟨howner, htransfer⟩

theorem create_eq_ok {row row' : DemoIssuanceResult} {capability : WriteCapability}
    {existing : Option DemoIssuanceResult} {job : Job} {issuance : Issuance} {now : Instant} :
    row.create capability existing job issuance now = .ok row' ↔
      capability.write = true ∧ row.clean job issuance = .ok () ∧ row.rowConstraints = .ok () ∧
      existing = none ∧ { row with createdAt := now, updatedAt := now } = row' := by
  simp only [create, bind_eq_ok, exists_unit, raiseIf_eq_ok, pure_eq_ok, Bool.not_eq_false,
    Option.not_isSome_iff_eq_none]

end DemoIssuanceResult

end Splitbind
