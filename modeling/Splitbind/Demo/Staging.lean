import Mathlib.Data.List.Sort
import Splitbind.Database

/-!
# Staging — the queue of created jobs and its head

`stage_next_created_job` looks at the oldest created job alone.  A job without usable outbox
evidence is neither staged nor passed over, so what is staged is what precedes the first such job.
-/

namespace Splitbind

open Transaction

/-! ## 1. The outbox evidence of a job -/

/-- The key and the hash of a job's input, as the rows have them now. -/
structure InputBinding where
  objectKey : Option ObjectKey
  sha256 : Option Sha256
deriving DecidableEq, Repr

/-- `_locked_job_input`. -/
def lockedJobInput (db : Database) (job : Job) : Option InputBinding :=
  match job.target with
  | .issuance issuanceId => do
    let issuance ← db.issuances.find? (·.id = issuanceId)
    guard (issuance.organizationId = job.organizationId)
    let document ← db.documents.find? (·.id = issuance.documentId)
    guard (document.organizationId = job.organizationId)
    return ⟨some document.sourceObjectKey, some document.expectedSourceSha256⟩
  | .verification verificationId => do
    let verification ← db.verifications.find? (·.id = verificationId)
    guard (verification.organizationId = job.organizationId)
    let upload ← db.uploads.find? (·.id = verification.uploadRequestId)
    guard (upload.organizationId = job.organizationId)
    return ⟨upload.promotionTargetKey, upload.expectedSha256⟩

/-- The payload `_outbox_matches_job` expects. -/
def expectedRequest (event : OutboxEvent) (job : Job) (input : InputBinding) : JsonObject :=
  [("schema_version", .int 1),
    ("message_type", .text (job.kind.text ++ ".requested")),
    ("message_id", .text event.messageId.text),
    ("job_id", .text job.id.text),
    ("attempt", .int job.attempt),
    ("issuance_id", optionalId job.issuanceId),
    ("verification_id", optionalId job.verificationId),
    ("input_object_key", input.objectKey.elim .null fun key ↦ .text key.text),
    ("input_sha256", input.sha256.elim .null fun sha256 ↦ .text sha256.text),
    ("deadline_at", .text (rfc3339Z job.deadlineAt)),
    ("correlation_id", .text job.correlationId.text)]

/-- `_outbox_matches_job`. -/
def outboxMatchesJob (formats : FormatChecker) (event : OutboxEvent) (job : Job)
    (input : Option InputBinding) : Bool :=
  match input with
  | none => false
  | some input =>
    event.organizationId = job.organizationId && event.jobId = job.id &&
      event.attempt = job.attempt && event.publishedAt = none &&
      event.topic = job.kind.text ++ ".requested" &&
      event.payload.equals (expectedRequest event job input) &&
      jobRequestAccepts formats event.payload

/-! ## 2. Staging the oldest created job -/

/-- The order of `order_by("created_at", "id")`. -/
def jobBefore (a b : Job) : Prop :=
  a.createdAt < b.createdAt ∨ a.createdAt = b.createdAt ∧ a.id.value ≤ b.id.value

instance (a b : Job) : Decidable (jobBefore a b) := inferInstanceAs (Decidable (_ ∨ _))

/-- The created jobs, oldest first. -/
def createdJobs (db : Database) : List Job :=
  (db.jobs.insertionSort jobBefore).filter (·.status = .created)

/-- Whether a job has exactly one outbox event, and that event matches it. -/
def hasUsableEvidence (formats : FormatChecker) (db : Database) (job : Job) : Bool :=
  match (db.events.filter (·.jobId = job.id)).take 2 with
  | [event] => outboxMatchesJob formats event job (lockedJobInput db job)
  | _ => false

/-- `stage_next_created_job`, and the job it returns. -/
def stageNextCreatedJob (formats : FormatChecker) (now : Instant) (db : Database) :
    Except Raised (Option Job × Database) := do
  match (createdJobs db).head? with
  | none => return (none, db)
  | some job =>
    if hasUsableEvidence formats db job then
      let job ← saveTransition job .queued now
      return (some job, db.saveJob job)
    else
      return (none, db)

/-- Repeated calls, and the ids of the jobs they stage; a call that raises changes nothing. -/
def stageRepeatedly (formats : FormatChecker) : List Instant → Database → List UUID × Database
  | [], db => ([], db)
  | now :: nows, db =>
    match stageNextCreatedJob formats now db with
    | .ok (some job, db') =>
      let (staged, db'') := stageRepeatedly formats nows db'
      (job.id :: staged, db'')
    | _ => stageRepeatedly formats nows db

/-! ## 3. One call -/

/-- The attempt of a job whose evidence matches is one the schema admits. -/
theorem attempt_le_of_outboxMatchesJob {formats : FormatChecker} {event : OutboxEvent} {job : Job}
    {input : Option InputBinding} (h : outboxMatchesJob formats event job input = true) :
    job.attempt ≤ 2 := by
  cases input with
  | none => simp [outboxMatchesJob] at h
  | some input =>
    simp only [outboxMatchesJob, Bool.and_eq_true] at h
    obtain ⟨⟨-, hequals⟩, haccepts⟩ := h
    simp only [JsonObject.equals, Bool.and_eq_true, List.all_eq_true] at hequals
    simp only [jobRequestAccepts, Contract.accepts, Bool.and_eq_true, List.all_eq_true] at haccepts
    have hequal := hequals.2 ("attempt", .int job.attempt) (by simp [expectedRequest])
    have hbound := haccepts.1.1 ("attempt", fun v ↦ v.isInteger && v.number.any fun n ↦
      0 ≤ n ∧ n ≤ 2) (by simp [jobRequestContract])
    simp only [Option.any_eq_true] at hequal hbound
    obtain ⟨v, hv, hequal⟩ := hequal
    obtain ⟨v', hv', hbound⟩ := hbound
    obtain rfl := Option.some.inj (hv.symm.trans hv')
    rw [JsonValue.number_of_equals_int hequal, Bool.and_eq_true] at hbound
    simpa using hbound.2

/-- Saving a queued job takes it from the queue and leaves the others in their order. -/
theorem createdJobs_saveJob {db : Database} (hkeyed : db.Keyed) {job : Job} {rest : List Job}
    (hqueue : createdJobs db = job :: rest) (now : Instant) :
    createdJobs (db.saveJob { job with status := .queued, updatedAt := now }) = rest := by
  have hmem : job ∈ db.jobs := by
    have hjob : job ∈ createdJobs db := hqueue ▸ List.mem_cons_self
    exact (List.mem_insertionSort jobBefore).mp (List.mem_of_mem_filter hjob)
  have hsame : ∀ other ∈ db.jobs, other.id = job.id → other = job := fun other hother ↦
    List.inj_on_of_nodup_map hkeyed.jobs hother hmem
  rw [createdJobs, Database.saveJob, Table.insertionSort_save]
  · have hunique : ((db.jobs.insertionSort jobBefore).map (·.id)).Nodup :=
      ((List.perm_insertionSort _ _).map _).nodup_iff.mpr hkeyed.jobs
    exact Table.filter_save hunique hqueue rfl (by simp)
  · intro a ha hid b
    rw [hsame a ha hid]
    exact ⟨Iff.rfl, Iff.rfl⟩

theorem Database.Keyed.saveJob {db : Database} (hkeyed : db.Keyed) (job : Job) :
    (db.saveJob job).Keyed :=
  { hkeyed with jobs := by simpa [Database.saveJob] using hkeyed.jobs }

/-- Staging a job reads neither its row nor another's. -/
theorem hasUsableEvidence_saveJob (formats : FormatChecker) (db : Database) (job : Job) :
    hasUsableEvidence formats (db.saveJob job) = hasUsableEvidence formats db := rfl

theorem attempt_le_of_hasUsableEvidence {formats : FormatChecker} {db : Database} {job : Job}
    (h : hasUsableEvidence formats db job = true) : job.attempt ≤ 2 := by
  unfold hasUsableEvidence at h
  split at h
  · exact attempt_le_of_outboxMatchesJob h
  · simp at h

/-- A call with a usable job at the head of the queue stages it. -/
theorem stageNextCreatedJob_usable {formats : FormatChecker} {db : Database} {job : Job}
    {rest : List Job} (hqueue : createdJobs db = job :: rest)
    (husable : hasUsableEvidence formats db job = true) (now : Instant) :
    stageNextCreatedJob formats now db =
      .ok (some { job with status := .queued, updatedAt := now },
        db.saveJob { job with status := .queued, updatedAt := now }) := by
  have hcreated : job.status = .created := by
    have hjob : job ∈ createdJobs db := hqueue ▸ List.mem_cons_self
    simpa using List.of_mem_filter hjob
  have hsave : saveTransition job .queued now =
      .ok { job with status := .queued, updatedAt := now } :=
    saveTransition_eq_ok.mpr
      ⟨attempt_le_of_hasUsableEvidence husable, by simp [hcreated, transitions],
        by simp [hcreated], rfl⟩
  rw [stageNextCreatedJob, hqueue, List.head?_cons]
  simp only [if_pos husable, hsave, ok_bind]
  rfl

/-- A call with any other job there does nothing. -/
theorem stageNextCreatedJob_unusable {formats : FormatChecker} {db : Database} {job : Job}
    {rest : List Job} (hqueue : createdJobs db = job :: rest)
    (husable : hasUsableEvidence formats db job = false) (now : Instant) :
    stageNextCreatedJob formats now db = .ok (none, db) := by
  rw [stageNextCreatedJob, hqueue, List.head?_cons]
  simp only [husable]
  rfl

theorem stageNextCreatedJob_empty {formats : FormatChecker} {db : Database}
    (hqueue : createdJobs db = []) (now : Instant) :
    stageNextCreatedJob formats now db = .ok (none, db) := by
  rw [stageNextCreatedJob, hqueue]
  rfl

/-! ## 4. Repeated calls -/

/-- Where a call does nothing, so do all that follow. -/
theorem stageRepeatedly_stuck {formats : FormatChecker} {db : Database}
    (hstuck : ∀ now, stageNextCreatedJob formats now db = .ok (none, db)) (nows : List Instant) :
    stageRepeatedly formats nows db = ([], db) := by
  induction nows with
  | nil => rfl
  | cons now nows ih => simp only [stageRepeatedly, hstuck now, ih]

/-- Repeated calls stage the usable jobs before the first unusable one, as many as there are
calls. -/
theorem stageRepeatedly_ids (formats : FormatChecker) (nows : List Instant) {db : Database}
    (hkeyed : db.Keyed) :
    (stageRepeatedly formats nows db).1 =
      (((createdJobs db).takeWhile (hasUsableEvidence formats db)).take nows.length).map
        (·.id) := by
  induction nows generalizing db with
  | nil => simp [stageRepeatedly]
  | cons now nows ih =>
    rcases hqueue : createdJobs db with _ | ⟨job, rest⟩
    · rw [stageRepeatedly_stuck (stageNextCreatedJob_empty hqueue)]
      simp
    · by_cases husable : hasUsableEvidence formats db job = true
      · have hrest := ih (hkeyed.saveJob { job with status := .queued, updatedAt := now })
        rw [createdJobs_saveJob hkeyed hqueue, hasUsableEvidence_saveJob] at hrest
        simp only [stageRepeatedly, stageNextCreatedJob_usable hqueue husable now, hrest,
          List.takeWhile_cons_of_pos husable, List.length_cons, List.take_succ_cons,
          List.map_cons]
      · rw [Bool.not_eq_true] at husable
        rw [stageRepeatedly_stuck (stageNextCreatedJob_unusable hqueue husable)]
        simp [husable]

/-- After enough calls, exactly the jobs with usable evidence are staged, in creation order. -/
def StagesUsableJobs (formats : FormatChecker) (db : Database) : Prop :=
  ∃ calls, ∀ nows : List Instant, calls ≤ nows.length →
    (stageRepeatedly formats nows db).1 =
      ((createdJobs db).filter (hasUsableEvidence formats db)).map (·.id)

/-- No job with usable evidence was created after one without. -/
def UsableJobsFirst (formats : FormatChecker) (db : Database) : Prop :=
  (createdJobs db).Pairwise fun a b ↦
    hasUsableEvidence formats db b = true → hasUsableEvidence formats db a = true

/-- A bad row blocks the jobs created after it, and nothing else does. -/
theorem stagesUsableJobs_iff (formats : FormatChecker) (db : Database) (hkeyed : db.Keyed) :
    StagesUsableJobs formats db ↔ UsableJobsFirst formats db := by
  rw [UsableJobsFirst, ← Table.takeWhile_eq_filter_iff]
  set usable := hasUsableEvidence formats db
  have htake : ∀ nows : List Instant, (createdJobs db).length ≤ nows.length →
      (stageRepeatedly formats nows db).1 = ((createdJobs db).takeWhile usable).map (·.id) := by
    intro nows hlength
    rw [stageRepeatedly_ids formats nows hkeyed, List.take_of_length_le]
    exact (List.takeWhile_sublist usable).length_le.trans hlength
  constructor
  · rintro ⟨calls, hcalls⟩
    have h := hcalls (List.replicate (max calls (createdJobs db).length) 0) (by simp)
    rw [htake _ (by simp)] at h
    have hlength := congrArg List.length h
    rw [List.length_map, List.length_map] at hlength
    exact (Table.takeWhile_sublist_filter usable _).eq_of_length hlength
  · intro heq
    exact ⟨(createdJobs db).length, fun nows hlength ↦ by rw [htake nows hlength, heq]⟩

/-! ## 5. A blocked queue -/

/-- Accepts what the samples spell. -/
def sampleFormats : FormatChecker where
  uuid := fun s ↦ s.length = 36
  dateTime := fun s ↦ Calendar.accepts s.toList

def sampleCreatedJob (n : Nat) (createdAt : Instant) : Job where
  id := ⟨.ofNat 128 n⟩
  organizationId := ⟨1⟩
  target := .issuance ⟨.ofNat 128 (n + 1)⟩
  status := .created
  attempt := 0
  deadlineAt := createdAt + hours 24
  correlationId := ⟨9⟩
  cancelRequestedAt := none
  safeErrorCode := none
  createdAt := createdAt
  updatedAt := createdAt

def sampleIssuedDocument (n : Nat) : Document where
  id := ⟨.ofNat 128 n⟩
  organizationId := ⟨1⟩
  createdById := ⟨2⟩
  uploadRequestId := ⟨.ofNat 128 (n + 1)⟩
  sourceObjectKey := promotedInputKey .issuance ⟨1⟩ ⟨.ofNat 128 (n + 1)⟩
  expectedSourceSha256 := ⟨7⟩
  pageCount := none

def sampleIssuanceRow (n : Nat) : Issuance where
  id := ⟨.ofNat 128 n⟩
  organizationId := ⟨1⟩
  documentId := ⟨.ofNat 128 (n + 1)⟩
  recipientId := ⟨3⟩
  createdById := ⟨2⟩
  outputObjectKey := none
  outputSha256 := none
  outputDeletedAt := none
  issuedAt := 0

def sampleRequest (job : Job) (document : Document) : OutboxEvent where
  messageId := ⟨8⟩
  organizationId := job.organizationId
  jobId := job.id
  attempt := job.attempt
  topic := "issuance.requested"
  payload := jobRequestPayload job ⟨8⟩ document.sourceObjectKey.text
    document.expectedSourceSha256.text
  publishedAt := none

/-- Two created jobs; the event of the older one is missing. -/
def sampleQueue : Database :=
  { emptyDatabase with
    documents := [sampleIssuedDocument 12, sampleIssuedDocument 22]
    issuances := [sampleIssuanceRow 11, sampleIssuanceRow 21]
    jobs := [sampleCreatedJob 10 0, sampleCreatedJob 20 5]
    events := [sampleRequest (sampleCreatedJob 20 5) (sampleIssuedDocument 22)] }

theorem sampleQueue_keyed : sampleQueue.Keyed := by
  constructor <;> decide

theorem stagesUsableJobs_sample :
    StagesUsableJobs sampleFormats sampleQueue ↔ UsableJobsFirst sampleFormats sampleQueue :=
  stagesUsableJobs_iff sampleFormats sampleQueue sampleQueue_keyed

theorem createdJobs_sampleQueue :
    createdJobs sampleQueue = [sampleCreatedJob 10 0, sampleCreatedJob 20 5] := by
  decide +kernel

/-- The job without an event keeps the other one from being staged. -/
theorem usable_job_never_staged :
    ¬ ∀ (formats : FormatChecker) (db : Database), db.Keyed → StagesUsableJobs formats db := by
  intro hall
  obtain ⟨calls, hcalls⟩ := hall sampleFormats sampleQueue sampleQueue_keyed
  have holder : hasUsableEvidence sampleFormats sampleQueue (sampleCreatedJob 10 0) = false := by
    decide +kernel
  have hnewer : hasUsableEvidence sampleFormats sampleQueue (sampleCreatedJob 20 5) = true := by
    decide +kernel
  have hnone := hcalls (List.replicate calls 0) (by simp)
  rw [stageRepeatedly_stuck (stageNextCreatedJob_unusable createdJobs_sampleQueue holder),
    createdJobs_sampleQueue, List.filter_cons_of_neg (by simp [holder]),
    List.filter_cons_of_pos hnewer] at hnone
  simp at hnone

end Splitbind
