import Mathlib.Data.List.Infix
import Splitbind.Contracts.Schema
import Splitbind.ObjectKeys

/-!
# Outbox messages — the request written for a job in the transaction that creates it

`build_job_request` refuses a payload its schema does not admit; for a job with a promoted input
it never does.
-/

namespace Splitbind

open Transaction

/-! ## 1. The schema of a job request -/

/-- The optional URI scheme at the head of a text: a letter, further scheme characters, `://`. -/
def hasScheme : List Char → Bool
  | c :: rest =>
    c.isAlpha && [':', '/', '/'].isPrefixOf (rest.dropWhile fun d ↦
      d.isAlphanum || d = '+' || d = '.' || d = '-')
  | [] => false

/-- `^(?![a-zA-Z][a-zA-Z0-9+.-]*://)(?!/)(?!.*\.\.)(?!.*[?&]).+$`. -/
def objectKeyPattern (s : String) : Bool :=
  let line := beforeFinalNewline s.toList
  line ≠ [] ∧ '\n' ∉ line ∧ ¬ hasScheme line ∧ line.head? ≠ some '/' ∧
    ¬ ['.', '.'] <:+: line ∧ '?' ∉ line ∧ '&' ∉ line

/-- A UUID, or null. -/
def uuidOrNull (formats : FormatChecker) (v : JsonValue) : Bool :=
  textThat formats.uuid v || v = .null

/-- The properties of `job-request-v1.schema.json`. -/
def jobRequestContract (formats : FormatChecker) : Contract :=
  [("schema_version", fun v ↦ v.isInteger && v.number = some 1),
    ("message_type", fun v ↦ v = .text "issuance.requested" || v = .text "verification.requested"),
    ("message_id", textThat formats.uuid),
    ("job_id", textThat formats.uuid),
    ("attempt", fun v ↦ v.isInteger && v.number.any fun n ↦ 0 ≤ n ∧ n ≤ 2),
    ("issuance_id", uuidOrNull formats),
    ("verification_id", uuidOrNull formats),
    ("input_object_key", textThat fun s ↦
      1 ≤ s.length && s.length ≤ 1024 && objectKeyPattern s),
    ("input_sha256", textThat sha256Pattern),
    ("deadline_at", textThat fun s ↦ formats.dateTime s && endsWithZ s),
    ("correlation_id", textThat formats.uuid)]

/-- Its conditions: the message type tells which of the two targets is set. -/
def jobRequestTarget (formats : FormatChecker) (payload : JsonObject) : Bool :=
  (payload.get "message_type" ≠ some (.text "issuance.requested") ||
      (payload.get "issuance_id").any (textThat formats.uuid) &&
        payload.get "verification_id" = some .null) &&
    (payload.get "message_type" ≠ some (.text "verification.requested") ||
      payload.get "issuance_id" = some .null &&
        (payload.get "verification_id").any (textThat formats.uuid))

def jobRequestAccepts (formats : FormatChecker) (payload : JsonObject) : Bool :=
  (jobRequestContract formats).accepts payload && jobRequestTarget formats payload

/-! ## 2. Building a request -/

/-- `_rfc3339_z`. -/
def rfc3339Z (t : Instant) : String := String.ofList (Calendar.textMicroseconds t)

/-- `str(id)`, or null. -/
def optionalId (id : Option UUID) : JsonValue := id.elim .null fun id ↦ .text id.text

def jobRequestPayload (job : Job) (messageId : UUID) (inputObjectKey inputSha256 : String) :
    JsonObject :=
  [("schema_version", .int 1),
    ("message_type", .text (job.kind.text ++ ".requested")),
    ("message_id", .text messageId.text),
    ("job_id", .text job.id.text),
    ("attempt", .int job.attempt),
    ("issuance_id", optionalId job.issuanceId),
    ("verification_id", optionalId job.verificationId),
    ("input_object_key", .text inputObjectKey),
    ("input_sha256", .text inputSha256),
    ("deadline_at", .text (rfc3339Z job.deadlineAt)),
    ("correlation_id", .text job.correlationId.text)]

/-- `build_job_request`; the message id is the one `uuid4` returns. -/
def buildJobRequest (formats : FormatChecker) (job : Job) (messageId : UUID)
    (inputObjectKey inputSha256 : String) : Except Raised JsonObject := do
  let payload := jobRequestPayload job messageId inputObjectKey inputSha256
  raiseIf (¬ jobRequestAccepts formats payload)
    (.validation "job request does not satisfy the versioned schema")
  return payload

/-! ## 3. Outbox events -/

/-- An outbox row; the table is listed in the order of its ids. -/
structure OutboxEvent where
  messageId : UUID
  organizationId : UUID
  jobId : UUID
  attempt : Nat
  topic : String
  payload : JsonObject
  publishedAt : Option Instant
deriving DecidableEq

/-- `OutboxEvent.objects.create`, with its two unique constraints. -/
def OutboxEvent.create (events : List OutboxEvent) (event : OutboxEvent) :
    Except Raised (List OutboxEvent) := do
  raiseIf (∃ other ∈ events, other.messageId = event.messageId)
    (.integrity "outbox_outboxevent_message_id_key")
  raiseIf (∃ other ∈ events, other.jobId = event.jobId ∧ other.attempt = event.attempt)
    (.integrity "outbox_job_attempt_uniq")
  return events ++ [event]

/-- `create_job_event`. -/
def createJobEvent (formats : FormatChecker) (events : List OutboxEvent) (job : Job)
    (messageId : UUID) (inputObjectKey inputSha256 : String) :
    Except Raised (List OutboxEvent) := do
  let payload ← buildJobRequest formats job messageId inputObjectKey inputSha256
  OutboxEvent.create events
    { messageId := messageId
      organizationId := job.organizationId
      jobId := job.id
      attempt := job.attempt
      topic := job.kind.text ++ ".requested"
      payload := payload
      publishedAt := none }

end Splitbind
