import Splitbind.Demo.VerificationEvidence
import Splitbind.Library.Json

/-!
# Evidence columns — rows as the database holds them, and what a forged save is refused for

A save may be attempted with any texts, numbers and JSON in the columns.  The rows of
`DemoIssuanceResult` and `DemoVerificationResult` are those the services write; here a column
holds whatever its type admits.
-/

namespace Splitbind

open Transaction

/-! ## 1. Issuance rows -/

structure IssuanceColumns where
  organizationId : UUID
  jobId : UUID
  issuanceId : UUID
  attempt : Int
  ownerToken : UUID
  outputObjectKey : String
  outputState : String
  algorithmLabel : Option String
  candidateIdentifier : Option String
  canvasHeight : Option Int
  canvasWidth : Option Int
  inputSha256 : Option String
  outputSha256 : Option String
  pageCount : Option Int
  processingMs : Option Int
  limitations : Json
  cleanupFailures : Int
  safeErrorCode : Option String
  createdAt : Instant
  updatedAt : Instant
deriving DecidableEq

/-- `DemoOutputState.values`. -/
def DemoOutputState.values : List String :=
  ["reserved", "uploading", "committed", "cleanup_required", "cleaned"]

/-- `^[0-9a-f]{64}$`. -/
def sha256Column (s : String) : Bool :=
  s.length = 64 && s.toList.all fun c ↦ ('0' ≤ c ∧ c ≤ '9') ∨ ('a' ≤ c ∧ c ≤ 'f')

/-- A text that fits a `CharField`. -/
def fits (width : Nat) (s : String) : Bool := s.length ≤ width

/-- A number that fits a `PositiveSmallIntegerField`. -/
def positiveSmallInteger (n : Int) : Bool := 0 ≤ n && n ≤ DemoIssuanceResult.positiveSmallIntegerMax

/-- A number that fits a `PositiveIntegerField`. -/
def positiveInteger (n : Int) : Bool := 0 ≤ n && n ≤ DemoIssuanceResult.positiveIntegerMax

namespace IssuanceColumns

/-- `success_values`, by what is set. -/
def successValues (row : IssuanceColumns) : List Bool :=
  [row.algorithmLabel.isSome, row.candidateIdentifier.isSome, row.canvasHeight.isSome,
    row.canvasWidth.isSome, row.inputSha256.isSome, row.outputSha256.isSome, row.pageCount.isSome,
    row.processingMs.isSome]

/-- `expected_keys`; the key validator accepts both. -/
def expectedKeys (row : IssuanceColumns) : List String :=
  [ObjectKey.text (.issuanceOutput row.organizationId row.issuanceId .pdf),
    ObjectKey.text (.issuanceOutput row.organizationId row.issuanceId .png)]

def clean (row : IssuanceColumns) (job : Job) (issuance : Issuance) : Except Raised Unit := do
  raiseIf (job.organizationId ≠ row.organizationId ∨ issuance.organizationId ≠ row.organizationId)
    (.validation "Related records must belong to the same organization.")
  raiseIf (job.kind ≠ .issuance ∨ job.issuanceId ≠ some row.issuanceId ∨
      (job.attempt : Int) ≠ row.attempt)
    (.validation "demo result must bind its issuance job")
  raiseIf (row.outputObjectKey ∉ row.expectedKeys)
    (.validation "demo result output key does not match its owner")
  if row.outputState = "committed" then
    raiseIf (false ∈ row.successValues)
      (.validation "committed demo result evidence is incomplete")
    raiseIf (row.algorithmLabel ≠ some demoAlgorithmLabel ∨
        (∀ identifier ∈ row.candidateIdentifier, identifier ∉ demoAcceptedCandidateIdentifiers) ∨
        (row.canvasHeight, row.canvasWidth) ≠
          (some (demoCanonicalCanvas.1 : Int), some (demoCanonicalCanvas.2 : Int)) ∨
        row.limitations ≠ .array (demoLimitations.map .text) ∨
        row.cleanupFailures ≠ 0 ∨
        row.safeErrorCode ≠ none)
      (.validation "committed demo result evidence is invalid")
  else
    raiseIf (true ∈ row.successValues ∨ row.limitations.truthy)
      (.validation "uncommitted demo result cannot claim success evidence")
  raiseIf (row.outputState = "cleanup_required" ∧
      (row.safeErrorCode = none ∨
        (row.safeErrorCode ≠ some demoStaleRecoveryFenceCode.text ∧ row.cleanupFailures < 1)))
    (.validation "cleanup-required demo result needs durable failure evidence")

/-- The widths and ranges of the columns, the JSON the database stores, and the check constraints
of the table. -/
def rowConstraints (row : IssuanceColumns) : Except Raised Unit := do
  raiseIf (¬ (fits 1024 row.outputObjectKey ∧ fits 24 row.outputState ∧
      (∀ s ∈ row.algorithmLabel, fits 64 s) ∧ (∀ s ∈ row.candidateIdentifier, fits 146 s) ∧
      (∀ s ∈ row.inputSha256, fits 64 s) ∧ (∀ s ∈ row.outputSha256, fits 64 s) ∧
      ∀ s ∈ row.safeErrorCode, fits 80 s))
    (.integrity "value too long")
  raiseIf (¬ (positiveSmallInteger row.attempt ∧ positiveSmallInteger row.cleanupFailures ∧
      (∀ n ∈ row.pageCount, positiveSmallInteger n) ∧ (∀ n ∈ row.processingMs, positiveInteger n) ∧
      (∀ n ∈ row.canvasHeight, positiveInteger n) ∧ ∀ n ∈ row.canvasWidth, positiveInteger n))
    (.integrity "integer out of range")
  raiseIf (row.limitations = .null) (.integrity "limitations")
  raiseIf (¬ row.limitations.finite) .other
  raiseIf (row.outputState ∉ DemoOutputState.values) (.integrity "demo_result_state_stable")
  raiseIf (¬ row.attempt ≤ 2) (.integrity "demo_result_attempt_0_2")
  raiseIf (∃ s ∈ row.inputSha256, ¬ sha256Column s) (.integrity "demo_result_input_sha256")
  raiseIf (∃ s ∈ row.outputSha256, ¬ sha256Column s) (.integrity "demo_result_output_sha256")
  raiseIf (row.outputState = "committed" ∧
      ¬ (row.algorithmLabel = some demoAlgorithmLabel ∧
        (∃ identifier ∈ row.candidateIdentifier, identifier ∈ demoAcceptedCandidateIdentifiers) ∧
        row.canvasHeight = some (demoCanonicalCanvas.1 : Int) ∧
        row.canvasWidth = some (demoCanonicalCanvas.2 : Int) ∧
        row.inputSha256.isSome ∧ row.outputSha256.isSome ∧
        (∃ n ∈ row.pageCount, 1 ≤ n ∧ n ≤ demoMaxCommittedPages) ∧
        row.processingMs.isSome ∧
        row.limitations = .array (demoLimitations.map .text) ∧
        row.cleanupFailures = 0 ∧
        row.safeErrorCode = none))
    (.integrity "demo_result_committed_complete")

/-- `allowed_transitions`; a committed row is refused before they are looked up. -/
def allowedTransitions : List (String × List String) :=
  [("reserved", ["uploading", "cleaned"]),
    ("uploading", ["committed", "cleanup_required", "cleaned"]),
    ("cleanup_required", ["cleanup_required", "cleaned"]),
    ("cleaned", ["cleaned"])]

/-- The identity columns that differ from the stored row, apart from the owner token. -/
def identityChanged (row persisted : IssuanceColumns) : Prop :=
  row.organizationId ≠ persisted.organizationId ∨ row.jobId ≠ persisted.jobId ∨
    row.issuanceId ≠ persisted.issuanceId ∨ row.attempt ≠ persisted.attempt ∨
    row.outputObjectKey ≠ persisted.outputObjectKey ∨ row.createdAt ≠ persisted.createdAt

instance (row persisted : IssuanceColumns) : Decidable (identityChanged row persisted) :=
  inferInstanceAs (Decidable (_ ∨ _))

/-- `recovery_transfer`. -/
def recoveryTransfer (capability : DemoIssuanceResult.WriteCapability)
    (row persisted : IssuanceColumns) : Prop :=
  capability.recoveryTransfer = true ∧
    (¬ identityChanged row persisted ∧ row.ownerToken ≠ persisted.ownerToken) ∧
    persisted.outputState ∈ ["uploading", "cleanup_required"] ∧
    row.outputState = "cleanup_required"

instance (capability : DemoIssuanceResult.WriteCapability) (row persisted : IssuanceColumns) :
    Decidable (recoveryTransfer capability row persisted) :=
  inferInstanceAs (Decidable (_ ∧ _))

/-- `save` of a loaded row, in full: `persisted` is the row the table holds under its key. -/
def save (row : IssuanceColumns) (capability : DemoIssuanceResult.WriteCapability)
    (persisted : Option IssuanceColumns) (job : Job) (issuance : Issuance) (now : Instant) :
    Except Raised IssuanceColumns := do
  raiseIf (capability.write = false) (.validation "demo issuance result evidence is immutable")
  let persisted ← found persisted (.doesNotExist "DemoIssuanceResult")
  raiseIf ((identityChanged row persisted ∨ row.ownerToken ≠ persisted.ownerToken) ∧
      ¬ recoveryTransfer capability row persisted)
    (.validation "demo issuance result ownership is immutable")
  raiseIf (persisted.outputState = "committed")
    (.validation "committed demo issuance result evidence is immutable")
  let allowed ← found (allowedTransitions.lookup persisted.outputState) .other
  raiseIf (row.outputState ∉ allowed)
    (.validation "demo issuance result state transition is invalid")
  row.clean job issuance
  row.rowConstraints
  return { row with updatedAt := now }

/-- What an accepted save has checked, and the row it stores. -/
theorem save_eq_ok {row row' : IssuanceColumns} {persisted : Option IssuanceColumns}
    {capability : DemoIssuanceResult.WriteCapability} {job : Job} {issuance : Issuance}
    {now : Instant} (h : row.save capability persisted job issuance now = .ok row') :
    ∃ stored, persisted = some stored ∧
      (identityChanged row stored ∨ row.ownerToken ≠ stored.ownerToken →
        recoveryTransfer capability row stored) ∧
      stored.outputState ≠ "committed" ∧
      (∃ allowed, allowedTransitions.lookup stored.outputState = some allowed ∧
        row.outputState ∈ allowed) ∧
      row.clean job issuance = .ok () ∧ { row with updatedAt := now } = row' := by
  simp only [save, bind_eq_ok, exists_unit, raiseIf_eq_ok, found_eq_ok, pure_eq_ok, not_not,
    not_and, ne_eq] at h
  obtain ⟨-, stored, hstored, hidentity, hcommitted, allowed, hlookup, hstate, hclean, -, hrow⟩ := h
  exact ⟨stored, hstored, hidentity, hcommitted, ⟨allowed, hlookup, hstate⟩, hclean, hrow⟩

/-! ## 2. What `clean` says about a stored issuance row -/

/-- The success values are set together, in committed rows only, and a row that needs cleanup
says why. -/
structure Coherent (row : IssuanceColumns) : Prop where
  committed : row.outputState = "committed" → ∀ set ∈ row.successValues, set = true
  uncommitted : row.outputState ≠ "committed" → ∀ set ∈ row.successValues, set = false
  cleanupRequired : row.outputState = "cleanup_required" → row.safeErrorCode ≠ none

theorem Coherent.of_clean {row : IssuanceColumns} {job : Job} {issuance : Issuance}
    (h : row.clean job issuance = .ok ()) : row.Coherent := by
  simp only [clean] at h
  by_cases hstate : row.outputState = "committed"
  · simp only [if_pos hstate, bind_eq_ok, exists_unit, raiseIf_eq_ok] at h
    obtain ⟨-, -, -, hcomplete, -, hfailure⟩ := h
    refine ⟨fun _ set hset ↦ ?_, fun hother ↦ absurd hstate hother, fun hcleanup hcode ↦ ?_⟩
    · exact eq_true_of_ne_false fun hfalse ↦ hcomplete (hfalse ▸ hset)
    · exact hfailure ⟨hcleanup, .inl hcode⟩
  · simp only [if_neg hstate, bind_eq_ok, exists_unit, raiseIf_eq_ok, not_or] at h
    obtain ⟨-, -, -, ⟨hclaimless, -⟩, hfailure⟩ := h
    refine ⟨fun hcommitted ↦ absurd hcommitted hstate, fun _ set hset ↦ ?_, fun hcleanup hcode ↦ ?_⟩
    · exact eq_false_of_ne_true fun htrue ↦ hclaimless (htrue ▸ hset)
    · exact hfailure ⟨hcleanup, .inl hcode⟩

/-- Only the time of the last write differs from what the save was offered. -/
theorem Coherent.saved {row : IssuanceColumns} (h : row.Coherent) (now : Instant) :
    Coherent { row with updatedAt := now } where
  committed := h.committed
  uncommitted := h.uncommitted
  cleanupRequired := h.cleanupRequired

/-- What no sequence of saves changes about an issuance row. -/
structure Kept (row row' : IssuanceColumns) : Prop where
  organizationId : row'.organizationId = row.organizationId
  jobId : row'.jobId = row.jobId
  issuanceId : row'.issuanceId = row.issuanceId
  attempt : row'.attempt = row.attempt
  createdAt : row'.createdAt = row.createdAt
  outputObjectKey : row'.outputObjectKey = row.outputObjectKey
  committed : row.outputState = "committed" → row' = row
  cleaned : row.outputState = "cleaned" → row'.outputState = "cleaned"

theorem Kept.refl (row : IssuanceColumns) : row.Kept row :=
  ⟨rfl, rfl, rfl, rfl, rfl, rfl, fun _ ↦ rfl, id⟩

theorem Kept.trans {row row' row'' : IssuanceColumns} (h : row.Kept row') (h' : row'.Kept row'') :
    row.Kept row'' where
  organizationId := h'.organizationId.trans h.organizationId
  jobId := h'.jobId.trans h.jobId
  issuanceId := h'.issuanceId.trans h.issuanceId
  attempt := h'.attempt.trans h.attempt
  createdAt := h'.createdAt.trans h.createdAt
  outputObjectKey := h'.outputObjectKey.trans h.outputObjectKey
  committed hstate := by
    have hsame := h.committed hstate
    rw [hsame] at h'
    exact h'.committed hstate
  cleaned hstate := h'.cleaned (h.cleaned hstate)

/-- When the owner token may differ after a save. -/
def Transferred (capability : DemoIssuanceResult.WriteCapability) (row row' : IssuanceColumns) :
    Prop :=
  capability.recoveryTransfer = true ∧
    (row.outputState = "uploading" ∨ row.outputState = "cleanup_required") ∧
    row'.outputState = "cleanup_required"

/-- A save that is accepted, seen from the row it replaces. -/
theorem save_kept {row stored row' : IssuanceColumns}
    {capability : DemoIssuanceResult.WriteCapability} {job : Job} {issuance : Issuance}
    {now : Instant} (h : row.save capability (some stored) job issuance now = .ok row') :
    stored.Kept row' ∧
      (row'.ownerToken ≠ stored.ownerToken → Transferred capability stored row') := by
  obtain ⟨_, heq, hidentity, hcommitted, ⟨allowed, hlookup, hstate⟩, -, rfl⟩ := save_eq_ok h
  obtain rfl := Option.some.inj heq
  -- a transfer is refused when any column but the owner token differs
  have hunchanged : ¬ identityChanged row stored := fun hchanged ↦
    (hidentity (.inl hchanged)).2.1.1 hchanged
  simp only [identityChanged, not_or, not_not, ne_eq] at hunchanged
  obtain ⟨horganization, hjob, hissuance, hattempt, hkey, hcreated⟩ := hunchanged
  refine ⟨⟨horganization, hjob, hissuance, hattempt, hcreated, hkey,
    fun hstate' ↦ absurd hstate' hcommitted, fun hcleaned ↦ ?_⟩, fun howner ↦ ?_⟩
  · have hallowed : allowed = ["cleaned"] := by
      rw [hcleaned] at hlookup
      exact (Option.some.inj hlookup).symm
    rw [hallowed] at hstate
    exact List.mem_singleton.mp hstate
  · obtain ⟨hcapability, -, hfrom, hto⟩ := hidentity (.inr howner)
    refine ⟨hcapability, ?_, hto⟩
    simpa using hfrom

end IssuanceColumns

/-! ## 3. Verification rows -/

structure VerificationColumns where
  organizationId : UUID
  jobId : UUID
  verificationId : UUID
  attempt : Int
  ownerToken : UUID
  resultState : String
  inputSha256 : Option String
  resultStatus : Option String
  recoveredIssuanceId : Option UUID
  evidence : Json
  metrics : Json
  safeErrorCode : Option String
  completedAt : Option Instant
  createdAt : Instant
  updatedAt : Instant
deriving DecidableEq

/-- `VerificationStatus.values`. -/
def VerificationStatus.values : List String :=
  ["VERIFIED_INTACT", "SOURCE_IDENTIFIED_MODIFIED", "PARTIAL_EVIDENCE", "NO_WATERMARK",
    "INVALID_MANIFEST", "PROCESSING_FAILED"]

/-- `DemoVerificationState.values`. -/
def DemoVerificationState.values : List String := ["reserved", "committed", "failed", "cancelled"]

namespace VerificationColumns

/-- Whether a value can be looked up in a set; a list or an object raises `TypeError`. -/
def hashable : Json → Bool
  | .array _ => false
  | .object _ => false
  | _ => true

/-- `isinstance(value, (int, float))` and not `bool`. -/
def number? : Json → Option ℚ
  | .int n => some n
  | .float x => some x
  | _ => none

/-- `isinstance(value, int)` and not `bool`. -/
def integer? : Json → Option Int
  | .int n => some n
  | _ => none

def isBool : Json → Bool
  | .bool _ => true
  | _ => false

def items? : Json → Option (List Json)
  | .array items => some items
  | _ => none

/-- `value in (True, False, None)`: the numbers equal to a boolean count as well. -/
def triState : Json → Bool
  | .null => true
  | .bool _ => true
  | .int n => n = 0 ∨ n = 1
  | .float x => x = 0 ∨ x = 1
  | _ => false

/-- `set(object) == keys`. -/
def sameKeys (members : List (String × Json)) (keys : List String) : Bool :=
  members.all (fun member ↦ keys.contains member.1) &&
    keys.all fun key ↦ (members.map Prod.fst).contains key

/-- `object[key]`. -/
def member (members : List (String × Json)) (key : String) : Except Raised Json :=
  found (Json.get members key) .other

def shapeInvalid : Raised :=
  .validation "committed demo verification evidence shape is invalid"

/-- The limitations of committed evidence, once they are known to be a list. -/
def cleanLimitations (items : List Json) : Except Raised Unit := do
  raiseIf (items.take demoVerificationLimitations.length ≠
      demoVerificationLimitations.map Json.text)
    shapeInvalid
  -- `set(limitations)`
  raiseIf (∃ item ∈ items, ¬ hashable item) .other
  raiseIf (¬ items.Nodup) shapeInvalid
  raiseIf (∃ item ∈ items, item ∉ demoVerificationAllowedLimitations.map Json.text) shapeInvalid

/-- The members of committed evidence, in the order of the source. -/
def cleanShape (evidence metrics : List (String × Json)) : Except Raised Unit := do
  raiseIf (¬ sameKeys evidence demoVerificationEvidenceKeys ∨
      ¬ sameKeys metrics demoVerificationMetricKeys)
    shapeInvalid
  let confidence ← member evidence "fingerprint_confidence"
  let validVotes ← member evidence "valid_vote_count"
  let analyzedPages ← member evidence "analyzed_page_count"
  let limitations ← member evidence "limitations"
  let decodeStatus ← member evidence "decode_status"
  raiseIf (¬ hashable decodeStatus) .other
  raiseIf (decodeStatus ∉ demoVerificationDecodeStatuses.map Json.text) shapeInvalid
  raiseIf (¬ ∃ x ∈ number? confidence, 0 ≤ x ∧ x ≤ 1) shapeInvalid
  raiseIf (¬ ∃ n ∈ integer? validVotes, 0 ≤ n) shapeInvalid
  raiseIf (¬ ∃ n ∈ integer? analyzedPages, 1 ≤ n ∧ n ≤ 5) shapeInvalid
  let exactFileHashMatch ← member evidence "exact_file_hash_match"
  raiseIf (¬ isBool exactFileHashMatch) shapeInvalid
  let manifestSignatureValid ← member evidence "manifest_signature_valid"
  raiseIf (¬ triState manifestSignatureValid) shapeInvalid
  let items ← found (items? limitations) shapeInvalid
  cleanLimitations items
  raiseIf (∃ value ∈ metrics, ¬ ∃ n ∈ integer? value.2, 0 ≤ n) shapeInvalid
  let pagesProcessed ← member metrics "pages_processed"
  raiseIf (pagesProcessed ≠ analyzedPages) shapeInvalid
  let cleanupFailures ← member metrics "cleanup_failures"
  raiseIf (cleanupFailures ≠ .int 0) shapeInvalid

/-- `clean`; `recoveredOrganization` is the organization of the recovered issuance, if any. -/
def clean (row : VerificationColumns) (job : Job) (verification : Verification)
    (recoveredOrganization : Option UUID) : Except Raised Unit := do
  raiseIf (job.organizationId ≠ row.organizationId ∨
      verification.organizationId ≠ row.organizationId ∨
      ∃ organization ∈ recoveredOrganization, organization ≠ row.organizationId)
    (.validation "Related records must belong to the same organization.")
  raiseIf (job.kind ≠ .verification ∨ job.verificationId ≠ some row.verificationId ∨
      (job.attempt : Int) ≠ row.attempt)
    (.validation "demo result must bind its verification job")
  if row.resultState = "reserved" then
    raiseIf (row.inputSha256 ≠ none ∨ row.resultStatus ≠ none ∨ row.recoveredIssuanceId ≠ none ∨
        row.completedAt ≠ none ∨ row.evidence.truthy ∨ row.metrics.truthy ∨
        row.safeErrorCode ≠ none)
      (.validation "reserved demo verification cannot claim result evidence")
  else if row.resultState = "committed" then
    let incomplete : Raised :=
      .validation "committed demo verification evidence is incomplete"
    raiseIf (row.inputSha256 = none ∨ row.resultStatus = none ∨
        row.resultStatus = some "PROCESSING_FAILED" ∨ row.completedAt = none ∨
        row.safeErrorCode ≠ none)
      incomplete
    let evidence ← found row.evidence.members? incomplete
    let metrics ← found row.metrics.members? incomplete
    raiseIf (Json.get evidence "algorithm_label" ≠ some (.text demoAlgorithmLabel)) incomplete
    cleanShape evidence metrics
  else if row.resultState = "failed" then
    raiseIf (row.resultStatus ≠ some "PROCESSING_FAILED" ∨ row.recoveredIssuanceId ≠ none ∨
        row.completedAt = none ∨ row.safeErrorCode = none)
      (.validation "failed demo verification evidence is incomplete")
  else if row.resultState = "cancelled" then
    raiseIf (row.resultStatus ≠ none ∨ row.recoveredIssuanceId ≠ none ∨ row.completedAt = none ∨
        row.safeErrorCode ≠ some "DEMO_JOB_CANCELLED")
      (.validation "cancelled demo verification evidence is incomplete")

/-- The widths and ranges of the columns, the JSON the database stores, and the check constraints
of the table. -/
def rowConstraints (row : VerificationColumns) : Except Raised Unit := do
  raiseIf (¬ (fits 16 row.resultState ∧ (∀ s ∈ row.inputSha256, fits 64 s) ∧
      (∀ s ∈ row.resultStatus, fits 32 s) ∧ ∀ s ∈ row.safeErrorCode, fits 80 s))
    (.integrity "value too long")
  raiseIf (¬ positiveSmallInteger row.attempt) (.integrity "integer out of range")
  raiseIf (row.evidence = .null) (.integrity "evidence")
  raiseIf (row.metrics = .null) (.integrity "metrics")
  raiseIf (¬ (row.evidence.finite ∧ row.metrics.finite)) .other
  raiseIf (row.resultState ∉ DemoVerificationState.values) (.integrity "demo_verify_state_stable")
  raiseIf (¬ row.attempt ≤ 2) (.integrity "demo_verify_attempt_0_2")
  raiseIf (∃ s ∈ row.inputSha256, ¬ sha256Column s) (.integrity "demo_verify_input_sha256")
  raiseIf (∃ s ∈ row.resultStatus, s ∉ VerificationStatus.values)
    (.integrity "demo_verify_status_stable")

/-- The identity columns that differ from the stored row. -/
def identityChanged (row persisted : VerificationColumns) : Prop :=
  row.organizationId ≠ persisted.organizationId ∨ row.jobId ≠ persisted.jobId ∨
    row.verificationId ≠ persisted.verificationId ∨ row.attempt ≠ persisted.attempt ∨
    row.ownerToken ≠ persisted.ownerToken ∨ row.createdAt ≠ persisted.createdAt

instance (row persisted : VerificationColumns) : Decidable (identityChanged row persisted) :=
  inferInstanceAs (Decidable (_ ∨ _))

/-- `save` of a loaded row, in full: `persisted` is the row the table holds under its key. -/
def save (row : VerificationColumns) (capability : DemoIssuanceResult.WriteCapability)
    (persisted : Option VerificationColumns) (job : Job) (verification : Verification)
    (recoveredOrganization : Option UUID) (now : Instant) :
    Except Raised VerificationColumns := do
  raiseIf (capability.write = false)
    (.validation "demo verification result evidence is immutable")
  let persisted ← found persisted (.doesNotExist "DemoVerificationResult")
  raiseIf (identityChanged row persisted)
    (.validation "demo verification result ownership is immutable")
  raiseIf (persisted.resultState ≠ "reserved")
    (.validation "terminal demo verification result evidence is immutable")
  raiseIf (row.resultState = "reserved")
    (.validation "demo verification result must make terminal progress")
  row.clean job verification recoveredOrganization
  row.rowConstraints
  return { row with updatedAt := now }

/-- What no sequence of saves changes about a verification row. -/
structure Kept (row row' : VerificationColumns) : Prop where
  organizationId : row'.organizationId = row.organizationId
  jobId : row'.jobId = row.jobId
  verificationId : row'.verificationId = row.verificationId
  attempt : row'.attempt = row.attempt
  ownerToken : row'.ownerToken = row.ownerToken
  createdAt : row'.createdAt = row.createdAt
  terminal : row.resultState ≠ "reserved" → row' = row

theorem Kept.refl (row : VerificationColumns) : row.Kept row :=
  ⟨rfl, rfl, rfl, rfl, rfl, rfl, fun _ ↦ rfl⟩

theorem Kept.trans {row row' row'' : VerificationColumns} (h : row.Kept row')
    (h' : row'.Kept row'') : row.Kept row'' where
  organizationId := h'.organizationId.trans h.organizationId
  jobId := h'.jobId.trans h.jobId
  verificationId := h'.verificationId.trans h.verificationId
  attempt := h'.attempt.trans h.attempt
  ownerToken := h'.ownerToken.trans h.ownerToken
  createdAt := h'.createdAt.trans h.createdAt
  terminal hstate := by
    have hsame := h.terminal hstate
    rw [hsame] at h'
    exact h'.terminal hstate

theorem save_kept {row stored row' : VerificationColumns}
    {capability : DemoIssuanceResult.WriteCapability} {job : Job} {verification : Verification}
    {recoveredOrganization : Option UUID} {now : Instant}
    (h : row.save capability (some stored) job verification recoveredOrganization now =
      .ok row') :
    stored.Kept row' := by
  simp only [save, found_some, ok_bind, bind_eq_ok, exists_unit, raiseIf_eq_ok, pure_eq_ok,
    not_not, ne_eq] at h
  obtain ⟨-, hunchanged, hreserved, -, -, -, rfl⟩ := h
  simp only [identityChanged, not_or, not_not, ne_eq] at hunchanged
  obtain ⟨horganization, hjob, hverification, hattempt, howner, hcreated⟩ := hunchanged
  exact ⟨horganization, hjob, hverification, hattempt, howner, hcreated,
    fun hstate ↦ absurd hreserved hstate⟩

end VerificationColumns

end Splitbind
