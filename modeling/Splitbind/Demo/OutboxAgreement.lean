import Splitbind.Retention.Due

/-!
# Outbox agreement — the event of a job matches what the worker derives

The attach transaction writes the event from the call, the worker derives the expected payload
from the rows.  The rows it reads are kept by every change, so the two agree until the job is
retried.
-/

namespace Splitbind

open Transaction WorkerPool

namespace Platform

/-! ## 1. What an accepted event says -/

/-- The event and its payload are about the job and the input, field by field. -/
structure EventAgrees (event : OutboxEvent) (job : Job) (input : InputBinding) : Prop where
  organization : event.organizationId = job.organizationId
  owner : event.jobId = job.id
  attempt : event.attempt = job.attempt
  unpublished : event.publishedAt = none
  topic : event.topic = job.kind.text ++ ".requested"
  schemaVersion : ∃ v, event.payload.get "schema_version" = some v ∧ v.number = some 1
  messageType : event.payload.get "message_type" = some (.text (job.kind.text ++ ".requested"))
  messageId : event.payload.get "message_id" = some (.text event.messageId.text)
  jobId : event.payload.get "job_id" = some (.text job.id.text)
  payloadAttempt : ∃ v, event.payload.get "attempt" = some v ∧ v.number = some (job.attempt : ℚ)
  issuanceId : event.payload.get "issuance_id" = some (optionalId job.issuanceId)
  verificationId : event.payload.get "verification_id" = some (optionalId job.verificationId)
  objectKey : event.payload.get "input_object_key" =
    some (input.objectKey.elim .null fun key ↦ .text key.text)
  sha256 : event.payload.get "input_sha256" =
    some (input.sha256.elim .null fun sha256 ↦ .text sha256.text)
  deadline : event.payload.get "deadline_at" = some (.text (rfc3339Z job.deadlineAt))
  correlation : event.payload.get "correlation_id" = some (.text job.correlationId.text)
  nothingElse : ∀ name ∈ event.payload.keys, name ∈ (expectedRequest event job input).keys

/-- A text or null is equal to itself only. -/
theorem get_of_equals {payload : JsonObject} {name : String} {expected : JsonValue}
    (hexpected : expected.number = none)
    (h : (payload.get name).any (·.equals expected) = true) :
    payload.get name = some expected := by
  obtain ⟨v, hv, hequals⟩ := (Option.any_eq_true _ _).mp h
  cases hnumber : v.number with
  | none => simpa [JsonValue.equals, hexpected, hnumber, hv] using hequals
  | some q => simp [JsonValue.equals, hexpected, hnumber] at hequals

theorem number_of_equals {payload : JsonObject} {name : String} {i : Int}
    (h : (payload.get name).any (·.equals (.int i)) = true) :
    ∃ v, payload.get name = some v ∧ v.number = some (i : ℚ) := by
  obtain ⟨v, hv, hequals⟩ := (Option.any_eq_true _ _).mp h
  exact ⟨v, hv, JsonValue.number_of_equals_int hequals⟩

theorem number_optionalId (id : Option UUID) : (optionalId id).number = none := by
  cases id <;> rfl

theorem eventAgrees_of_matches {formats : FormatChecker} {event : OutboxEvent} {job : Job}
    {input : Option InputBinding} (h : outboxMatchesJob formats event job input = true) :
    ∃ binding, input = some binding ∧ EventAgrees event job binding := by
  cases input with
  | none => simp [outboxMatchesJob] at h
  | some binding =>
    refine ⟨binding, rfl, ?_⟩
    simp only [outboxMatchesJob, Bool.and_eq_true, decide_eq_true_eq] at h
    obtain ⟨⟨⟨⟨⟨⟨horganization, hjob⟩, hattempt⟩, hpublished⟩, htopic⟩, hequals⟩, -⟩ := h
    simp only [JsonObject.equals, Bool.and_eq_true, List.all_eq_true] at hequals
    obtain ⟨hkeys, hmembers⟩ := hequals
    -- the comparison is of the whole payload, so every expected member is in it
    have hmember : ∀ name value, (name, value) ∈ expectedRequest event job binding →
        (event.payload.get name).any (·.equals value) = true :=
      fun name value hmem ↦ hmembers (name, value) hmem
    have hkey : (binding.objectKey.elim JsonValue.null fun key ↦ .text key.text).number = none := by
      cases binding.objectKey <;> rfl
    have hsha256 :
        (binding.sha256.elim JsonValue.null fun sha256 ↦ .text sha256.text).number = none := by
      cases binding.sha256 <;> rfl
    exact {
      organization := horganization
      owner := hjob
      attempt := hattempt
      unpublished := hpublished
      topic := htopic
      schemaVersion := by
        simpa using number_of_equals (hmember "schema_version" (.int 1) (by simp [expectedRequest]))
      messageType := get_of_equals rfl (hmember _ _ (by simp [expectedRequest]))
      messageId := get_of_equals rfl (hmember _ _ (by simp [expectedRequest]))
      jobId := get_of_equals rfl (hmember _ _ (by simp [expectedRequest]))
      payloadAttempt := by
        simpa using
          number_of_equals (hmember "attempt" (.int job.attempt) (by simp [expectedRequest]))
      issuanceId := get_of_equals (number_optionalId _) (hmember _ _ (by simp [expectedRequest]))
      verificationId :=
        get_of_equals (number_optionalId _) (hmember _ _ (by simp [expectedRequest]))
      objectKey := get_of_equals hkey (hmember _ _ (by simp [expectedRequest]))
      sha256 := get_of_equals hsha256 (hmember _ _ (by simp [expectedRequest]))
      deadline := get_of_equals rfl (hmember _ _ (by simp [expectedRequest]))
      correlation := get_of_equals rfl (hmember _ _ (by simp [expectedRequest]))
      nothingElse := fun name hname ↦ of_decide_eq_true (hkeys name hname) }

/-! ## 2. The input of a job over time -/

section Changes

variable {formats : FormatChecker} {settings : ServiceSettings} {free : Lock → Prop}
  {clock : Instant} {db db' : Database}

/-- The job of an attached upload is its job after any change too. -/
theorem Change.job_upload (h : Change formats settings free clock db db') (hkeyed : db.Keyed)
    (hledger : Ledger db) {job : Job} (hmem : job ∈ db.jobs) :
    ∃ job' ∈ db'.jobs, JobKept job job' ∧ lockedJobInput db' job' = lockedJobInput db job := by
  have hkeyed' := h.keyed hkeyed
  have hledger' := h.ledger hkeyed hledger
  obtain ⟨upload, hupload, hattached, hjobs, hinput⟩ := hledger.job_upload hkeyed hmem
  obtain ⟨upload', hupload', hkept⟩ := h.uploads_kept hkeyed hupload
  have hbefore : relatedJobs db (inputCategory upload.purpose) upload.id = [job] :=
    (relatedJobs_input hledger hkeyed hupload).trans hjobs
  obtain ⟨job', hjob', hsame⟩ :=
    (h.rows_kept hkeyed).related (hbefore ▸ List.mem_singleton_self job)
  have hafter := relatedJobs_input hledger' hkeyed' hupload'
  rw [hkept.id, hkept.purpose] at hafter
  obtain ⟨-, only, event, honly, -, hkey, hinput', -⟩ :=
    hledger'.of_attached hkeyed' hupload' (hkept.attached hattached)
  rw [hafter, honly] at hjob'
  obtain rfl := List.mem_singleton.mp hjob'
  have htarget : upload.promotionTargetKey ≠ none := by
    obtain ⟨-, -, -, -, -, hne, -⟩ := hledger.of_attached hkeyed hupload hattached
    exact hne
  refine ⟨job', ?_, hsame, ?_⟩
  · exact mem_jobs_of_related (hafter.trans honly ▸ List.mem_singleton_self job')
  · rw [hinput, hinput', hkept.target htarget, hkept.digest]

/-- The input of the job that an attach adds. -/
theorem input_of_attaches {promotion : PromotionCall} {ids : FreshIds} {locked : UploadRequest}
    {sha256 : Sha256} {job : Job} {now : Instant}
    (h : Attaches formats promotion ids db locked sha256 job) (hkeyed : db.Keyed)
    (hledger : Ledger db)
    (hchange : Change formats settings free clock db
      (attachedDatabase promotion locked ids sha256 job now db)) :
    lockedJobInput (attachedDatabase promotion locked ids sha256 job now db) job =
      some ⟨some locked.target, some sha256⟩ := by
  have hkeyed' := hchange.keyed hkeyed
  have hledger' := hchange.ledger hkeyed hledger
  obtain ⟨upload, hupload, hattached, hjobs, hinput⟩ :=
    hledger'.job_upload hkeyed' (List.mem_append_right _ (List.mem_singleton_self job))
  rw [hinput]
  rcases Attaches.attached_cases hupload with rfl | hold
  · rw [← h.digest]
    rfl
  · -- an upload that was attached before has its job from before
    obtain ⟨-, other, event, hotherJobs, -⟩ := hledger.of_attached hkeyed hold hattached
    have hbefore := (relatedJobs_input hledger hkeyed hold).trans hotherJobs
    obtain ⟨kept, hmem, hkept⟩ :=
      (hchange.rows_kept hkeyed).related (hbefore ▸ List.mem_singleton_self other)
    rw [relatedJobs_input hledger' hkeyed' hupload, hjobs] at hmem
    obtain rfl := List.mem_singleton.mp hmem
    exact absurd hkept.id.symm
      (h.jobs other (mem_jobs_of_related (hbefore ▸ List.mem_singleton_self other)))

/-! ## 3. The event of a job -/

/-- The event is the one of a job before its first retry. -/
def EventOf (formats : FormatChecker) (db : Database) (event : OutboxEvent) (job : Job) : Prop :=
  ∃ key sha256, lockedJobInput db job = some ⟨some key, some sha256⟩ ∧
    event = { newEvent { job with attempt := 0 } event.messageId key sha256 with
      payload := event.payload } ∧
    event.payload = jobRequestPayload { job with attempt := 0 } event.messageId key.text
      sha256.text ∧
    jobRequestAccepts formats event.payload = true

structure EventsAgree (formats : FormatChecker) (db : Database) : Prop where
  created : ∀ job ∈ db.jobs, job.status = .created → job.attempt = 0
  events : ∀ event ∈ db.events, ∀ job ∈ db.jobs, event.jobId = job.id → EventOf formats db event job

theorem EventOf.kept {event : OutboxEvent} {job job' : Job} (h : EventOf formats db event job)
    (hkept : JobKept job job') (hinput : lockedJobInput db' job' = lockedJobInput db job) :
    EventOf formats db' event job' := by
  obtain ⟨key, sha256, hbinding, hevent, hpayload, haccepts⟩ := h
  have hsame : ∀ messageId, newEvent { job' with attempt := 0 } messageId key sha256 =
      newEvent { job with attempt := 0 } messageId key sha256 := by
    intro messageId
    simp only [newEvent, jobRequestPayload, Job.kind, Job.issuanceId, Job.verificationId, hkept.id,
      hkept.organization, hkept.target, hkept.deadline, hkept.correlation]
  refine ⟨key, sha256, hinput.trans hbinding, ?_, ?_, haccepts⟩
  · rw [hsame]
    exact hevent
  · rw [hpayload]
    exact (congrArg OutboxEvent.payload (hsame event.messageId)).symm

theorem Change.eventOf_kept (h : Change formats settings free clock db db') (hkeyed : db.Keyed)
    (hledger : Ledger db) (hagree : EventsAgree formats db) {event : OutboxEvent}
    (hevent : event ∈ db.events) {job' : Job} (hjob' : job' ∈ db'.jobs)
    (hid : event.jobId = job'.id) : EventOf formats db' event job' := by
  have hjobId : event.jobId ∈ db.jobs.map (·.id) := hledger.events ▸ List.mem_map_of_mem hevent
  obtain ⟨job, hjob, hjobEq⟩ := List.mem_map.mp hjobId
  obtain ⟨kept, hkeptMem, hkept, hinput⟩ := h.job_upload hkeyed hledger hjob
  obtain rfl := List.inj_on_of_nodup_map (h.keyed hkeyed).jobs hkeptMem hjob'
    (hkept.id.trans (hjobEq.trans hid))
  exact (hagree.events event hevent job hjob hjobEq.symm).kept hkept hinput

theorem Change.created_kept (h : Change formats settings free clock db db') (hkeyed : db.Keyed)
    (hagree : EventsAgree formats db) {job job' : Job} (hjob : job ∈ db.jobs)
    (hjob' : job' ∈ db'.jobs) (hid : job'.id = job.id) (hcreated : job'.status = .created) :
    job'.attempt = 0 := by
  obtain ⟨kept, hkeptMem, hkept⟩ := h.jobs_kept hkeyed hjob
  obtain rfl := List.inj_on_of_nodup_map (h.keyed hkeyed).jobs hkeptMem hjob'
    (hkept.id.trans hid.symm)
  have hbefore := hkept.created hcreated
  rw [hkept.attempt.resolve_right (by simp [hbefore])]
  exact hagree.created job hjob hbefore

theorem Change.events (h : Change formats settings free clock db db') (hkeyed : db.Keyed)
    (hledger : Ledger db) (hagree : EventsAgree formats db) : EventsAgree formats db' := by
  have hkeyed' := h.keyed hkeyed
  have hchange := h
  cases h with
  | kept | created | saved | outputDeleted =>
    exact ⟨fun job hjob hcreated ↦ hchange.created_kept hkeyed hagree hjob hjob rfl hcreated,
      fun event hevent job hjob hid ↦ hchange.eventOf_kept hkeyed hledger hagree hevent hjob hid⟩
  | worked job change result hmem hadmitted =>
    refine ⟨fun job' hjob' hcreated ↦ ?_, fun event hevent job' hjob' hid ↦ ?_⟩
    swap
    · -- a worker adds no event, and the jobs it rewrites keep what the events say of them
      have hbefore : event ∈ db.events := by simpa [Database.saveJob] using hevent
      exact hchange.eventOf_kept hkeyed hledger hagree hbefore hjob' hid
    have hrow := hjob'
    rw [Database.saveJob, WorkResult.apply_jobs] at hrow
    rcases Table.mem_save hrow with rfl | ⟨hother, -⟩
    · exact hchange.created_kept hkeyed hagree hmem hjob' rfl hcreated
    · exact hchange.created_kept hkeyed hagree hother hjob' rfl hcreated
  | attached promotion ids locked sha256 job hfree hattaches hjob =>
    constructor
    · intro job' hjob' hcreated
      rcases List.mem_append.mp hjob' with hother | hnew
      · exact hchange.created_kept hkeyed hagree hother hjob' rfl hcreated
      · rw [List.mem_singleton.mp hnew, hjob]
        rfl
    · intro event hevent job' hjob' hid
      rcases List.mem_append.mp hevent with hbefore | hnew
      · exact hchange.eventOf_kept hkeyed hledger hagree hbefore hjob' hid
      · -- the new event is of the new job, whose attempt is zero
        obtain rfl := List.mem_singleton.mp hnew
        obtain rfl : job' = job := List.inj_on_of_nodup_map hkeyed'.jobs hjob'
          (List.mem_append_right _ (List.mem_singleton_self job)) hid.symm
        have hattempt : { job' with attempt := 0 } = job' := by rw [hjob]; rfl
        refine ⟨locked.target, sha256, input_of_attaches hattaches hkeyed hledger hchange, ?_, ?_,
          hattaches.accepted⟩
        · rw [hattempt]
          rfl
        · rw [hattempt]
          rfl

end Changes

/-! ## 4. Agreement -/

theorem matches_of_eventOf {formats : FormatChecker} {db : Database} {event : OutboxEvent}
    {job : Job} (h : EventOf formats db event job) (hattempt : job.attempt = 0) :
    outboxMatchesJob formats event job (lockedJobInput db job) = true := by
  obtain ⟨key, sha256, hinput, hevent, hpayload, haccepts⟩ := h
  have hsame : { job with attempt := 0 } = job := by rw [← hattempt]
  rw [hsame] at hevent hpayload
  have hexpected : event.payload = expectedRequest event job ⟨some key, some sha256⟩ := hpayload
  have hequals : event.payload.equals (expectedRequest event job ⟨some key, some sha256⟩) = true := by
    rw [← hexpected, hpayload]
    simp [JsonObject.equals, jobRequestPayload, JsonObject.keys, JsonObject.get,
      JsonValue.equals_refl]
  rw [hinput]
  simp only [outboxMatchesJob, Bool.and_eq_true, decide_eq_true_eq]
  rw [hevent]
  exact ⟨⟨⟨⟨⟨⟨rfl, rfl⟩, rfl⟩, rfl⟩, rfl⟩, hequals⟩, haccepts⟩

section Runs

variable {formats : FormatChecker} {settings : ServiceSettings} {W : Type*} [DecidableEq W]
  {pool : Pool W}

/-- In every reachable pool a created job, and any job before its first retry, has exactly one
event, and it matches the job and its input; and an event that matches a job says nothing that is
not so. -/
theorem outbox_agrees (h : Reachable formats settings pool) :
    (∀ job ∈ pool.store.db.jobs, job.status = .created ∨ job.attempt = 0 →
      ∃ event, pool.store.db.events.filter (·.jobId = job.id) = [event] ∧
        outboxMatchesJob formats event job (lockedJobInput pool.store.db job) = true) ∧
    ∀ event job, outboxMatchesJob formats event job (lockedJobInput pool.store.db job) = true →
      ∃ input, lockedJobInput pool.store.db job = some input ∧ EventAgrees event job input := by
  have hkeyed := h.locks.shared
  obtain ⟨hledger, hagree⟩ : Ledger pool.store.db ∧ EventsAgree formats pool.store.db := by
    refine h.tables (fun db ↦ Ledger db ∧ EventsAgree formats db) (fun start hstart ↦ ?_)
      fun hkeyed ⟨hledger, hagree⟩ hchange ↦
        ⟨hchange.ledger hkeyed hledger, hchange.events hkeyed hledger hagree⟩
    have hreachable : Reachable formats settings start := ⟨start, hstart, .refl⟩
    exact ⟨hreachable.ledger, by simp [hstart.jobs], by simp [hstart.events]⟩
  refine ⟨fun job hmem hearly ↦ ?_, fun event job hmatches ↦ eventAgrees_of_matches hmatches⟩
  have hattempt : job.attempt = 0 := hearly.elim (hagree.created job hmem) id
  have hunique : (pool.store.db.events.map (·.jobId)).Nodup := hledger.events ▸ hkeyed.jobs
  have hid : job.id ∈ pool.store.db.events.map (·.jobId) :=
    hledger.events ▸ List.mem_map_of_mem hmem
  obtain ⟨event, hevent, hjobId⟩ := List.mem_map.mp hid
  exact ⟨event, Table.filter_eq_singleton hunique hevent hjobId,
    matches_of_eventOf (hagree.events event hevent job hmem hjobId) hattempt⟩

end Runs

/-- The job of the sample run, with its event. -/
theorem sample_created :
    ∃ pool, (program sampleFormats sampleSettings).Leads .all samplePool pool ∧
      pool.store.db.jobs.map (·.status) = [.created] :=
  Program.leads_of_exec_map (createRun 0) (by decide +kernel)

theorem outbox_agrees_sample : ∃ pool : Pool (Fin 2),
    Reachable sampleFormats sampleSettings pool ∧ ∃ job ∈ pool.store.db.jobs, ∃ event,
      pool.store.db.events.filter (·.jobId = job.id) = [event] ∧
      outboxMatchesJob sampleFormats event job (lockedJobInput pool.store.db job) = true := by
  obtain ⟨pool, hleads, hread⟩ := sample_created
  have hreachable : Reachable sampleFormats sampleSettings pool :=
    ⟨samplePool, samplePool_start, hleads⟩
  have hmem : JobStatus.created ∈ pool.store.db.jobs.map (·.status) := by simp [hread]
  obtain ⟨job, hjob, hcreated⟩ := List.mem_map.mp hmem
  exact ⟨pool, hreachable, job, hjob,
    (outbox_agrees hreachable).1 job hjob (.inl hcreated)⟩

end Platform

end Splitbind
