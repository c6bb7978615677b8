import Splitbind.Library.Transaction
import Mathlib.Data.Nat.Notation

/-!
# Runtime limits — what a deployment may configure

`loadRuntimeLimits` reads every limit from the environment; a limit it returns is positive and no
larger than its safety ceiling.
-/

namespace Splitbind

open Transaction

/-! ## 1. The limits -/

inductive RuntimeLimit
  | maxPdfBytes
  | maxPdfPages
  | maxImagePixels
  | maxDocumentRasterPixels
  | jobTimeoutSeconds
  | workerConcurrency
  | retentionReconciliationLeaseSeconds
deriving DecidableEq, Repr

namespace RuntimeLimit

def text : RuntimeLimit → String
  | maxPdfBytes => "MAX_PDF_BYTES"
  | maxPdfPages => "MAX_PDF_PAGES"
  | maxImagePixels => "MAX_IMAGE_PIXELS"
  | maxDocumentRasterPixels => "MAX_DOCUMENT_RASTER_PIXELS"
  | jobTimeoutSeconds => "JOB_TIMEOUT_SECONDS"
  | workerConcurrency => "WORKER_CONCURRENCY"
  | retentionReconciliationLeaseSeconds => "RETENTION_RECONCILIATION_LEASE_SECONDS"

/-- `SAFETY_CEILINGS`. -/
def safetyCeiling : RuntimeLimit → Nat
  | maxPdfBytes => 100 * 1000 * 1000
  | maxPdfPages => 50
  | maxImagePixels => 40000000
  | maxDocumentRasterPixels => 140000000
  | jobTimeoutSeconds => 600
  | workerConcurrency => 1
  | retentionReconciliationLeaseSeconds => 600

/-- `RUNTIME_DEFAULTS`. -/
def runtimeDefault : RuntimeLimit → Nat
  | retentionReconciliationLeaseSeconds => 300
  | limit => limit.safetyCeiling

/-- The keys of `SAFETY_CEILINGS`, in order. -/
def all : List RuntimeLimit :=
  [maxPdfBytes, maxPdfPages, maxImagePixels, maxDocumentRasterPixels, jobTimeoutSeconds,
    workerConcurrency, retentionReconciliationLeaseSeconds]

end RuntimeLimit

/-! ## 2. Loading -/

/-- A configured value: a string, or anything else. -/
inductive Supplied
  | text (value : String)
  | other
deriving DecidableEq, Repr

def maxParsedInteger : Nat := 2147483647

/-- `int(value, 10)` of a string of ASCII digits. -/
def decimalValue (digits : List Char) : Nat :=
  digits.foldl (fun n digit ↦ 10 * n + (digit.toNat - 48)) 0

/-- The pattern `[1-9][0-9]*`. -/
def positiveDecimal : List Char → Bool
  | [] => false
  | first :: rest =>
    (48 < first.toNat && first.toNat ≤ 57) &&
      rest.all fun digit ↦ 48 ≤ digit.toNat && digit.toNat ≤ 57

def parsePositiveDecimal (limit : RuntimeLimit) : Supplied → Except String Nat
  | .other => .error (limit.text ++ " must be a positive base-10 integer")
  | .text value => do
    raiseIf (¬ positiveDecimal value.toList)
      (limit.text ++ " must be a positive base-10 integer")
    raiseIf (decimalValue value.toList > maxParsedInteger)
      (limit.text ++ " exceeds the supported integer range")
    return decimalValue value.toList

def supportedEnvironments : List String := ["production", "local", "offline", "test"]

/-- One round of the loop of `load_runtime_limits`. -/
def loadRuntimeLimit (environment : String) (values : RuntimeLimit → Option Supplied)
    (limit : RuntimeLimit) : Except String (RuntimeLimit × Nat) :=
  match values limit with
  | none => do
    raiseIf (environment = "production") (limit.text ++ " is required in production")
    return (limit, limit.runtimeDefault)
  | some supplied => do
    let parsed ← parsePositiveDecimal limit supplied
    raiseIf (parsed > limit.safetyCeiling)
      (limit.text ++ " exceeds safety ceiling " ++ toString limit.safetyCeiling)
    return (limit, parsed)

def loadRuntimeLimits (environment : String) (values : RuntimeLimit → Option Supplied) :
    Except String (List (RuntimeLimit × Nat)) := do
  raiseIf (environment ∉ supportedEnvironments)
    "ENVIRONMENT must identify a supported runtime"
  RuntimeLimit.all.mapM (loadRuntimeLimit environment values)

/-! ## 3. What is admitted -/

/-- A value some deployment may run with. -/
def RuntimeLimit.Admits (limit : RuntimeLimit) (value : Nat) : Prop :=
  ∃ environment values limits, loadRuntimeLimits environment values = .ok limits ∧
    (limit, value) ∈ limits

/-- Every default is admitted, outside production. -/
theorem RuntimeLimit.admits_runtimeDefault (limit : RuntimeLimit) :
    limit.Admits limit.runtimeDefault :=
  ⟨"local", fun _ ↦ none, RuntimeLimit.all.map fun limit ↦ (limit, limit.runtimeDefault),
    rfl, by cases limit <;> decide⟩

end Splitbind
