import Splitbind.Demo.Staging
import Splitbind.Jobs.Promotion

/-!
# The ledger — one domain record, one job and one event for each attached upload

The tables an attach transaction appends to run in parallel: each row refers to the row next to it
in the table before, and the first of them to an attached upload.  So whatever belongs to an upload
is there once if the upload is attached, and not at all otherwise.
-/

namespace Splitbind

open Transaction

/-! ## 1. What belongs to an upload -/

def documentsOf (db : Database) (upload : UploadRequest) : List Document :=
  db.documents.filter (·.uploadRequestId = upload.id)

def issuancesOf (db : Database) (upload : UploadRequest) : List Issuance :=
  db.issuances.filter fun issuance ↦
    (documentsOf db upload).any fun document ↦ issuance.documentId = document.id

def verificationsOf (db : Database) (upload : UploadRequest) : List Verification :=
  db.verifications.filter (·.uploadRequestId = upload.id)

def jobsOf (db : Database) (upload : UploadRequest) : List Job :=
  db.jobs.filter fun job ↦
    (issuancesOf db upload).any (fun issuance ↦ job.issuanceId = some issuance.id) ||
      (verificationsOf db upload).any fun verification ↦ job.verificationId = some verification.id

def eventsOf (db : Database) (upload : UploadRequest) : List OutboxEvent :=
  db.events.filter fun event ↦ (jobsOf db upload).any fun job ↦ event.jobId = job.id

/-- Exactly one domain record: an issuance with its document, or a verification. -/
def OneDomain (db : Database) (upload : UploadRequest) : Prop :=
  (∃ document issuance, documentsOf db upload = [document] ∧ issuancesOf db upload = [issuance] ∧
      verificationsOf db upload = []) ∨
    ∃ verification, documentsOf db upload = [] ∧ issuancesOf db upload = [] ∧
      verificationsOf db upload = [verification]

/-- The payload of the event names the object and the digest of the input. -/
def OutboxEvent.Carries (event : OutboxEvent) (input : InputBinding) : Prop :=
  ∃ key sha256, input = ⟨some key, some sha256⟩ ∧
    event.payload.get "input_object_key" = some (.text key.text) ∧
    event.payload.get "input_sha256" = some (.text sha256.text)

/-- An upload has at most one domain record, one job and one event.  It is attached exactly when it
has one of each, with the upload's target and digest as the job's input and in the payload of the
event; otherwise it has none. -/
structure PromotedOnce (db : Database) (upload : UploadRequest) : Prop where
  atMostOne : (issuancesOf db upload).length + (verificationsOf db upload).length ≤ 1 ∧
    (documentsOf db upload).length = (issuancesOf db upload).length ∧
    (jobsOf db upload).length ≤ 1 ∧ (eventsOf db upload).length ≤ 1
  attached : upload.promotionStatus = .attached ↔
    OneDomain db upload ∧ ∃ job event, jobsOf db upload = [job] ∧ eventsOf db upload = [event] ∧
      upload.promotionTargetKey ≠ none ∧
      lockedJobInput db job = some ⟨upload.promotionTargetKey, upload.expectedSha256⟩ ∧
      event.Carries ⟨upload.promotionTargetKey, upload.expectedSha256⟩
  unattached : upload.promotionStatus ≠ .attached → documentsOf db upload = [] ∧
    issuancesOf db upload = [] ∧ verificationsOf db upload = [] ∧ jobsOf db upload = [] ∧
    eventsOf db upload = []

/-! ## 2. The ledger -/

/-- An attached upload that a row with these columns can refer to. -/
def AttachedFor (upload : UploadRequest) (uploadId organizationId : UUID)
    (purpose : UploadPurpose) (key : ObjectKey) (sha256 : Sha256) : Prop :=
  upload.id = uploadId ∧ upload.organizationId = organizationId ∧ upload.purpose = purpose ∧
    upload.promotionStatus = .attached ∧ upload.promotionTargetKey = some key ∧
    upload.expectedSha256 = some sha256

/-- The row whose object and digest the event of the job carries. -/
inductive EventSource (db : Database) (event : OutboxEvent) (job : Job) : Prop
  | document (issuance : Issuance) (document : Document) (hissuance : issuance ∈ db.issuances)
      (hdocument : document ∈ db.documents) (hjob : job.issuanceId = some issuance.id)
      (hid : issuance.documentId = document.id)
      (hcarries : event.Carries
        ⟨some document.sourceObjectKey, some document.expectedSourceSha256⟩)
  | upload (verification : Verification) (upload : UploadRequest) (key : ObjectKey)
      (sha256 : Sha256) (hverification : verification ∈ db.verifications)
      (hupload : upload ∈ db.uploads) (hjob : job.verificationId = some verification.id)
      (hfor : AttachedFor upload verification.uploadRequestId verification.organizationId
        .verification key sha256)
      (hcarries : event.Carries ⟨some key, some sha256⟩)

structure Ledger (db : Database) : Prop where
  issuances : db.issuances.map (·.documentId) = db.documents.map (·.id)
  issuanceJobs : db.jobs.filterMap (·.issuanceId) = db.issuances.map (·.id)
  verificationJobs : db.jobs.filterMap (·.verificationId) = db.verifications.map (·.id)
  events : db.events.map (·.jobId) = db.jobs.map (·.id)
  documentUploads : (db.documents.map (·.uploadRequestId)).Nodup
  verificationUploads : (db.verifications.map (·.uploadRequestId)).Nodup
  document : ∀ document ∈ db.documents, ∃ upload ∈ db.uploads,
    AttachedFor upload document.uploadRequestId document.organizationId .issuance
      document.sourceObjectKey document.expectedSourceSha256
  verification : ∀ verification ∈ db.verifications, ∃ upload ∈ db.uploads, ∃ key sha256,
    AttachedFor upload verification.uploadRequestId verification.organizationId .verification
      key sha256
  attachedIssuance : ∀ upload ∈ db.uploads, upload.promotionStatus = .attached →
    upload.purpose = .issuance → ∃ document ∈ db.documents, document.uploadRequestId = upload.id
  attachedVerification : ∀ upload ∈ db.uploads, upload.promotionStatus = .attached →
    upload.purpose = .verification →
      ∃ verification ∈ db.verifications, verification.uploadRequestId = upload.id
  issuanceOwner : ∀ issuance ∈ db.issuances, ∀ document ∈ db.documents,
    issuance.documentId = document.id → document.organizationId = issuance.organizationId
  issuanceJobOwner : ∀ job ∈ db.jobs, ∀ issuance ∈ db.issuances,
    job.issuanceId = some issuance.id → issuance.organizationId = job.organizationId
  verificationJobOwner : ∀ job ∈ db.jobs, ∀ verification ∈ db.verifications,
    job.verificationId = some verification.id → verification.organizationId = job.organizationId
  eventSource : ∀ event ∈ db.events, ∃ job ∈ db.jobs, event.jobId = job.id ∧
    EventSource db event job

/-! ## 3. What it says of one upload -/

section Views

variable {db : Database} (hledger : Ledger db) (hkeyed : db.Keyed) {upload : UploadRequest}

include hledger hkeyed

/-- A document of the upload is the only one, and there is one issuance of it. -/
theorem Ledger.of_document {document : Document} (hmem : document ∈ db.documents)
    (hupload : document.uploadRequestId = upload.id) :
    documentsOf db upload = [document] ∧ ∃ issuance ∈ db.issuances,
      issuance.documentId = document.id ∧ issuancesOf db upload = [issuance] := by
  have hdocuments : documentsOf db upload = [document] :=
    Table.filter_eq_singleton hledger.documentUploads hmem hupload
  refine ⟨hdocuments, ?_⟩
  have hids : document.id ∈ db.issuances.map (·.documentId) :=
    hledger.issuances ▸ List.mem_map_of_mem hmem
  obtain ⟨issuance, hissuance, hid⟩ := List.mem_map.mp hids
  refine ⟨issuance, hissuance, hid, ?_⟩
  have hunique : (db.issuances.map (·.documentId)).Nodup := hledger.issuances ▸ hkeyed.documents
  simpa [issuancesOf, hdocuments] using Table.filter_eq_singleton hunique hissuance hid

omit hkeyed in
/-- A verification of the upload is the only one. -/
theorem Ledger.of_verification {verification : Verification}
    (hmem : verification ∈ db.verifications)
    (hupload : verification.uploadRequestId = upload.id) :
    verificationsOf db upload = [verification] :=
  Table.filter_eq_singleton hledger.verificationUploads hmem hupload

/-- The rows that refer to an upload say what it is. -/
theorem Ledger.document_upload (hmem : upload ∈ db.uploads) {document : Document}
    (hdocument : document ∈ documentsOf db upload) :
    document ∈ db.documents ∧ AttachedFor upload document.uploadRequestId document.organizationId
      .issuance document.sourceObjectKey document.expectedSourceSha256 := by
  obtain ⟨hrow, hid⟩ := List.mem_filter.mp hdocument
  obtain ⟨upload', hupload', hattached⟩ := hledger.document document hrow
  have hsame : upload'.id = upload.id := hattached.1.trans (of_decide_eq_true hid)
  obtain rfl := List.inj_on_of_nodup_map hkeyed.uploads hupload' hmem hsame
  exact ⟨hrow, hattached⟩

theorem Ledger.verification_upload (hmem : upload ∈ db.uploads) {verification : Verification}
    (hverification : verification ∈ verificationsOf db upload) :
    verification ∈ db.verifications ∧ ∃ key sha256, AttachedFor upload
      verification.uploadRequestId verification.organizationId .verification key sha256 := by
  obtain ⟨hrow, hid⟩ := List.mem_filter.mp hverification
  obtain ⟨upload', hupload', key, sha256, hattached⟩ := hledger.verification verification hrow
  have hsame : upload'.id = upload.id := hattached.1.trans (of_decide_eq_true hid)
  obtain rfl := List.inj_on_of_nodup_map hkeyed.uploads hupload' hmem hsame
  exact ⟨hrow, key, sha256, hattached⟩

/-- The event of the one job of an upload. -/
theorem Ledger.of_job {job : Job} (hmem : job ∈ db.jobs) (hjobs : jobsOf db upload = [job]) :
    ∃ event ∈ db.events, eventsOf db upload = [event] ∧ EventSource db event job := by
  have hids : job.id ∈ db.events.map (·.jobId) := hledger.events ▸ List.mem_map_of_mem hmem
  obtain ⟨event, hevent, hid⟩ := List.mem_map.mp hids
  have hunique : (db.events.map (·.jobId)).Nodup := hledger.events ▸ hkeyed.jobs
  obtain ⟨job', hjob', hid', hsource⟩ := hledger.eventSource event hevent
  obtain rfl := List.inj_on_of_nodup_map hkeyed.jobs hjob' hmem (hid'.symm.trans hid)
  refine ⟨event, hevent, ?_, hsource⟩
  simpa [eventsOf, hjobs] using Table.filter_eq_singleton hunique hevent hid

/-- The event of the job of an issuance upload carries the upload's target and digest. -/
theorem Ledger.issuance_carries (hmem : upload ∈ db.uploads) {document : Document}
    {issuance : Issuance} {job : Job} {event : OutboxEvent}
    (hdocument : document ∈ documentsOf db upload) (hissuance : issuance ∈ db.issuances)
    (hdocumentId : issuance.documentId = document.id)
    (hissuanceId : job.issuanceId = some issuance.id) (hsource : EventSource db event job) :
    event.Carries ⟨upload.promotionTargetKey, upload.expectedSha256⟩ := by
  obtain ⟨hrow, -, -, -, -, hkey, hsha256⟩ := hledger.document_upload hkeyed hmem hdocument
  cases hsource with
  | document issuance' document' hissuance' hdocument' hjob' hid' hcarries =>
    have hsame : issuance'.id = issuance.id := Option.some.inj (hjob'.symm.trans hissuanceId)
    obtain rfl := List.inj_on_of_nodup_map hkeyed.issuances hissuance' hissuance hsame
    obtain rfl := List.inj_on_of_nodup_map hkeyed.documents hdocument' hrow
      (hid'.symm.trans hdocumentId)
    rwa [hkey, hsha256]
  | upload verification _ _ _ _ _ hjob' =>
    -- a job has one target
    cases htarget : job.target <;> simp_all [Job.issuanceId, Job.verificationId]

omit hledger in
/-- The event of the job of a verification upload carries them too. -/
theorem EventSource.verification_carries (hmem : upload ∈ db.uploads) {verification : Verification}
    {job : Job} {event : OutboxEvent} (hverification : verification ∈ db.verifications)
    (huploadId : verification.uploadRequestId = upload.id)
    (hverificationId : job.verificationId = some verification.id)
    (hsource : EventSource db event job) :
    event.Carries ⟨upload.promotionTargetKey, upload.expectedSha256⟩ := by
  cases hsource with
  | document issuance _ _ _ hjob' =>
    cases htarget : job.target <;> simp_all [Job.issuanceId, Job.verificationId]
  | upload verification' upload' key sha256 hverification' hupload' hjob' hfor hcarries =>
    have hsame : verification'.id = verification.id :=
      Option.some.inj (hjob'.symm.trans hverificationId)
    obtain rfl := List.inj_on_of_nodup_map hkeyed.verifications hverification' hverification hsame
    obtain ⟨hid, -, -, -, hkey, hsha256⟩ := hfor
    obtain rfl := List.inj_on_of_nodup_map hkeyed.uploads hupload' hmem (hid.trans huploadId)
    rwa [hkey, hsha256]

/-- The input of the job of an issuance upload. -/
theorem Ledger.issuance_input {document : Document} {issuance : Issuance} {job : Job}
    (hdocument : document ∈ db.documents) (hissuance : issuance ∈ db.issuances)
    (hjob : job ∈ db.jobs) (hdocumentId : issuance.documentId = document.id)
    (hissuanceId : job.issuanceId = some issuance.id) :
    lockedJobInput db job = some ⟨some document.sourceObjectKey,
      some document.expectedSourceSha256⟩ := by
  have htarget : job.target = .issuance issuance.id := by
    cases ht : job.target <;> simp_all [Job.issuanceId]
  have howner := hledger.issuanceOwner issuance hissuance document hdocument hdocumentId
  have hjobOwner := hledger.issuanceJobOwner job hjob issuance hissuance hissuanceId
  have hfindIssuance : db.issuances.find? (·.id = issuance.id) = some issuance :=
    Table.find?_eq_some hkeyed.issuances hissuance (by simp) (by simp)
  have hfindDocument : db.documents.find? (·.id = issuance.documentId) = some document :=
    Table.find?_eq_some hkeyed.documents hdocument (by simp [hdocumentId])
      (by simp [hdocumentId])
  simp [lockedJobInput, htarget, hfindIssuance, hfindDocument, hjobOwner, howner]

/-- The input of the job of a verification upload. -/
theorem Ledger.verification_input {verification : Verification} {job : Job}
    (hupload : upload ∈ db.uploads) (hverification : verification ∈ db.verifications)
    (hjob : job ∈ db.jobs) (huploadId : verification.uploadRequestId = upload.id)
    (howner : upload.organizationId = verification.organizationId)
    (hverificationId : job.verificationId = some verification.id) :
    lockedJobInput db job = some ⟨upload.promotionTargetKey, upload.expectedSha256⟩ := by
  have htarget : job.target = .verification verification.id := by
    cases ht : job.target <;> simp_all [Job.verificationId]
  have hjobOwner :=
    hledger.verificationJobOwner job hjob verification hverification hverificationId
  have hfindVerification : db.verifications.find? (·.id = verification.id) =
      some verification :=
    Table.find?_eq_some hkeyed.verifications hverification (by simp) (by simp)
  have hfindUpload : db.uploads.find? (·.id = verification.uploadRequestId) = some upload :=
    Table.find?_eq_some hkeyed.uploads hupload (by simp [huploadId]) (by simp [huploadId])
  simp [lockedJobInput, htarget, hfindVerification, hfindUpload, hjobOwner, howner]

/-- What belongs to an attached issuance upload. -/
theorem Ledger.of_attached_issuance (hmem : upload ∈ db.uploads)
    (hattached : upload.promotionStatus = .attached) (hpurpose : upload.purpose = .issuance) :
    OneDomain db upload ∧ ∃ job ∈ db.jobs, jobsOf db upload = [job] ∧
      upload.promotionTargetKey ≠ none ∧
      lockedJobInput db job = some ⟨upload.promotionTargetKey, upload.expectedSha256⟩ ∧
      ∀ event, EventSource db event job →
        event.Carries ⟨upload.promotionTargetKey, upload.expectedSha256⟩ := by
  obtain ⟨document, hdocument, hid⟩ := hledger.attachedIssuance upload hmem hattached hpurpose
  obtain ⟨hdocuments, issuance, hissuance, hissuanceDocument, hissuances⟩ :=
    hledger.of_document hkeyed hdocument hid
  have hnone : verificationsOf db upload = [] := by
    refine List.eq_nil_iff_forall_not_mem.mpr fun verification hverification ↦ ?_
    obtain ⟨-, key, sha256, hfor⟩ := hledger.verification_upload hkeyed hmem hverification
    simp [hfor.2.2.1] at hpurpose
  have hunique : (db.jobs.filterMap (·.issuanceId)).Nodup :=
    hledger.issuanceJobs ▸ hkeyed.issuances
  have hissuanceJob : issuance.id ∈ db.jobs.filterMap (·.issuanceId) :=
    hledger.issuanceJobs ▸ List.mem_map_of_mem hissuance
  obtain ⟨job, hjob, hissuanceId, hjobs⟩ :=
    Table.filter_eq_singleton_of_filterMap hunique hissuanceJob
  have hinput := hledger.issuance_input hkeyed hdocument hissuance hjob hissuanceDocument
    hissuanceId
  obtain ⟨-, -, -, -, hkey, hsha256⟩ := (hledger.document_upload hkeyed hmem
    (hdocuments ▸ List.mem_singleton_self document)).2
  refine ⟨.inl ⟨document, issuance, hdocuments, hissuances, hnone⟩, job, hjob, ?_, ?_, ?_, ?_⟩
  · simpa [jobsOf, hissuances, hnone] using hjobs
  · simp [hkey]
  · rw [hinput, hkey, hsha256]
  · exact fun event ↦ hledger.issuance_carries hkeyed hmem
      (hdocuments ▸ List.mem_singleton_self document) hissuance hissuanceDocument hissuanceId

/-- What belongs to an attached verification upload. -/
theorem Ledger.of_attached_verification (hmem : upload ∈ db.uploads)
    (hattached : upload.promotionStatus = .attached) (hpurpose : upload.purpose = .verification) :
    OneDomain db upload ∧ ∃ job ∈ db.jobs, jobsOf db upload = [job] ∧
      upload.promotionTargetKey ≠ none ∧
      lockedJobInput db job = some ⟨upload.promotionTargetKey, upload.expectedSha256⟩ ∧
      ∀ event, EventSource db event job →
        event.Carries ⟨upload.promotionTargetKey, upload.expectedSha256⟩ := by
  obtain ⟨verification, hverification, hid⟩ :=
    hledger.attachedVerification upload hmem hattached hpurpose
  have hverifications := hledger.of_verification hverification hid
  have hnone : documentsOf db upload = [] := by
    refine List.eq_nil_iff_forall_not_mem.mpr fun document hdocument ↦ ?_
    have hfor := (hledger.document_upload hkeyed hmem hdocument).2
    simp [hfor.2.2.1] at hpurpose
  have hissuances : issuancesOf db upload = [] := by simp [issuancesOf, hnone]
  have hunique : (db.jobs.filterMap (·.verificationId)).Nodup :=
    hledger.verificationJobs ▸ hkeyed.verifications
  have hverificationJob : verification.id ∈ db.jobs.filterMap (·.verificationId) :=
    hledger.verificationJobs ▸ List.mem_map_of_mem hverification
  obtain ⟨job, hjob, hverificationId, hjobs⟩ :=
    Table.filter_eq_singleton_of_filterMap hunique hverificationJob
  obtain ⟨-, key, sha256, -, howner, -, -, hkey, -⟩ := hledger.verification_upload hkeyed hmem
    (hverifications ▸ List.mem_singleton_self verification)
  refine ⟨.inr ⟨verification, hnone, hissuances, hverifications⟩, job, hjob, ?_, ?_, ?_, ?_⟩
  · simpa [jobsOf, hissuances, hverifications] using hjobs
  · simp [hkey]
  · exact hledger.verification_input hkeyed hmem hverification hjob hid howner hverificationId
  · exact fun event hsource ↦
      EventSource.verification_carries hkeyed hmem hverification hid hverificationId hsource

/-- What belongs to an attached upload: one of each. -/
theorem Ledger.of_attached (hmem : upload ∈ db.uploads)
    (hattached : upload.promotionStatus = .attached) :
    OneDomain db upload ∧ ∃ job event, jobsOf db upload = [job] ∧ eventsOf db upload = [event] ∧
      upload.promotionTargetKey ≠ none ∧
      lockedJobInput db job = some ⟨upload.promotionTargetKey, upload.expectedSha256⟩ ∧
      event.Carries ⟨upload.promotionTargetKey, upload.expectedSha256⟩ := by
  have hdomain : OneDomain db upload ∧ ∃ job ∈ db.jobs, jobsOf db upload = [job] ∧
      upload.promotionTargetKey ≠ none ∧
      lockedJobInput db job = some ⟨upload.promotionTargetKey, upload.expectedSha256⟩ ∧
      ∀ event, EventSource db event job →
        event.Carries ⟨upload.promotionTargetKey, upload.expectedSha256⟩ := by
    cases hpurpose : upload.purpose with
    | issuance => exact hledger.of_attached_issuance hkeyed hmem hattached hpurpose
    | verification => exact hledger.of_attached_verification hkeyed hmem hattached hpurpose
  obtain ⟨hone, job, hjob, hjobs, hkey, hinput, hcarries⟩ := hdomain
  obtain ⟨event, -, hevents, hsource⟩ := hledger.of_job hkeyed hjob hjobs
  exact ⟨hone, job, event, hjobs, hevents, hkey, hinput, hcarries event hsource⟩

/-- Each job belongs to an attached upload. -/
theorem Ledger.job_upload {job : Job} (hjob : job ∈ db.jobs) :
    ∃ upload ∈ db.uploads, upload.promotionStatus = .attached ∧ jobsOf db upload = [job] ∧
      lockedJobInput db job = some ⟨upload.promotionTargetKey, upload.expectedSha256⟩ := by
  have hone : ∀ upload ∈ db.uploads, upload.promotionStatus = .attached →
      job ∈ jobsOf db upload → ∃ upload ∈ db.uploads, upload.promotionStatus = .attached ∧
        jobsOf db upload = [job] ∧
        lockedJobInput db job = some ⟨upload.promotionTargetKey, upload.expectedSha256⟩ := by
    intro upload hmem hattached hof
    obtain ⟨-, only, event, hjobs, -, -, hinput, -⟩ := hledger.of_attached hkeyed hmem hattached
    rw [hjobs] at hof
    obtain rfl := List.mem_singleton.mp hof
    exact ⟨upload, hmem, hattached, hjobs, hinput⟩
  cases htarget : job.target with
  | issuance id =>
    have hissuanceId : job.issuanceId = some id := by rw [Job.issuanceId, htarget]
    have hid : id ∈ db.issuances.map (·.id) :=
      hledger.issuanceJobs ▸ List.mem_filterMap.mpr ⟨job, hjob, hissuanceId⟩
    obtain ⟨issuance, hissuance, rfl⟩ := List.mem_map.mp hid
    have hdocumentId : issuance.documentId ∈ db.documents.map (·.id) :=
      hledger.issuances ▸ List.mem_map_of_mem hissuance
    obtain ⟨document, hdocument, hdocumentEq⟩ := List.mem_map.mp hdocumentId
    obtain ⟨upload, hupload, huploadId, -, -, hattached, -⟩ := hledger.document document hdocument
    refine hone upload hupload hattached (List.mem_filter.mpr ⟨hjob, ?_⟩)
    rw [Bool.or_eq_true, List.any_eq_true]
    refine .inl ⟨issuance, List.mem_filter.mpr ⟨hissuance, ?_⟩, by simp [hissuanceId]⟩
    rw [List.any_eq_true]
    exact ⟨document, List.mem_filter.mpr ⟨hdocument, by simp [huploadId]⟩, by simp [hdocumentEq]⟩
  | verification id =>
    have hverificationId : job.verificationId = some id := by rw [Job.verificationId, htarget]
    have hid : id ∈ db.verifications.map (·.id) :=
      hledger.verificationJobs ▸ List.mem_filterMap.mpr ⟨job, hjob, hverificationId⟩
    obtain ⟨verification, hverification, rfl⟩ := List.mem_map.mp hid
    obtain ⟨upload, hupload, key, sha256, huploadId, -, -, hattached, -⟩ :=
      hledger.verification verification hverification
    refine hone upload hupload hattached (List.mem_filter.mpr ⟨hjob, ?_⟩)
    rw [Bool.or_eq_true, List.any_eq_true, List.any_eq_true]
    exact .inr ⟨verification, List.mem_filter.mpr ⟨hverification, by simp [huploadId]⟩,
      by simp [hverificationId]⟩

/-- What belongs to an upload that is not attached: nothing. -/
theorem Ledger.of_unattached (hmem : upload ∈ db.uploads)
    (hunattached : upload.promotionStatus ≠ .attached) :
    documentsOf db upload = [] ∧ issuancesOf db upload = [] ∧ verificationsOf db upload = [] ∧
      jobsOf db upload = [] ∧ eventsOf db upload = [] := by
  have hdocuments : documentsOf db upload = [] :=
    List.eq_nil_iff_forall_not_mem.mpr fun document hdocument ↦
      hunattached (hledger.document_upload hkeyed hmem hdocument).2.2.2.2.1
  have hverifications : verificationsOf db upload = [] := by
    refine List.eq_nil_iff_forall_not_mem.mpr fun verification hverification ↦ hunattached ?_
    obtain ⟨-, key, sha256, hfor⟩ := hledger.verification_upload hkeyed hmem hverification
    exact hfor.2.2.2.1
  have hissuances : issuancesOf db upload = [] := by simp [issuancesOf, hdocuments]
  have hjobs : jobsOf db upload = [] := by simp [jobsOf, hissuances, hverifications]
  exact ⟨hdocuments, hissuances, hverifications, hjobs, by simp [eventsOf, hjobs]⟩

theorem Ledger.promotedOnce (hmem : upload ∈ db.uploads) : PromotedOnce db upload where
  atMostOne := by
    by_cases hattached : upload.promotionStatus = .attached
    · obtain ⟨hone, job, event, hjobs, hevents, -⟩ := hledger.of_attached hkeyed hmem hattached
      rcases hone with ⟨document, issuance, hdocuments, hissuances, hverifications⟩ |
        ⟨verification, hdocuments, hissuances, hverifications⟩ <;>
        simp [hdocuments, hissuances, hverifications, hjobs, hevents]
    · obtain ⟨hdocuments, hissuances, hverifications, hjobs, hevents⟩ :=
        hledger.of_unattached hkeyed hmem hattached
      simp [hdocuments, hissuances, hverifications, hjobs, hevents]
  attached := by
    refine ⟨hledger.of_attached hkeyed hmem, fun ⟨hone, _⟩ ↦ ?_⟩
    by_contra hunattached
    obtain ⟨-, hissuances, hverifications, -⟩ := hledger.of_unattached hkeyed hmem hunattached
    rcases hone with ⟨document, issuance, -, hone, -⟩ | ⟨verification, -, -, hone⟩
    · simp [hissuances] at hone
    · simp [hverifications] at hone
  unattached := hledger.of_unattached hkeyed hmem

end Views

/-! ## 4. Keeping the references -/

/-- The rows of `db'` are those of `db` in the columns that the ledger reads. -/
structure SameReferences (db db' : Database) : Prop where
  documents : ∃ f : Document → Document, db'.documents = db.documents.map f ∧ ∀ document,
    (f document).id = document.id ∧ (f document).organizationId = document.organizationId ∧
      (f document).uploadRequestId = document.uploadRequestId ∧
      (f document).sourceObjectKey = document.sourceObjectKey ∧
      (f document).expectedSourceSha256 = document.expectedSourceSha256
  issuances : ∃ f : Issuance → Issuance, db'.issuances = db.issuances.map f ∧
    ∀ issuance ∈ db.issuances, (f issuance).id = issuance.id ∧
      (f issuance).organizationId = issuance.organizationId ∧
      (f issuance).documentId = issuance.documentId
  verifications : ∃ f : Verification → Verification,
    db'.verifications = db.verifications.map f ∧ ∀ verification,
      (f verification).id = verification.id ∧
      (f verification).organizationId = verification.organizationId ∧
      (f verification).uploadRequestId = verification.uploadRequestId
  jobs : ∃ f : Job → Job, db'.jobs = db.jobs.map f ∧ ∀ job ∈ db.jobs, (f job).id = job.id ∧
    (f job).organizationId = job.organizationId ∧ (f job).target = job.target
  events : db'.events = db.events
  uploads : ∀ upload ∈ db.uploads, ∃ upload' ∈ db'.uploads, ∀ id organization purpose key sha256,
    AttachedFor upload id organization purpose key sha256 →
      AttachedFor upload' id organization purpose key sha256
  attached : ∀ upload' ∈ db'.uploads, upload'.promotionStatus = .attached →
    ∃ upload ∈ db.uploads, upload.promotionStatus = .attached ∧ upload.id = upload'.id ∧
      upload.purpose = upload'.purpose

theorem SameReferences.refl (db : Database) : SameReferences db db where
  documents := ⟨id, (List.map_id _).symm, fun _ ↦ ⟨rfl, rfl, rfl, rfl, rfl⟩⟩
  issuances := ⟨id, (List.map_id _).symm, fun _ _ ↦ ⟨rfl, rfl, rfl⟩⟩
  verifications := ⟨id, (List.map_id _).symm, fun _ ↦ ⟨rfl, rfl, rfl⟩⟩
  jobs := ⟨id, (List.map_id _).symm, fun _ _ ↦ ⟨rfl, rfl, rfl⟩⟩
  events := rfl
  uploads upload hmem := ⟨upload, hmem, fun _ _ _ _ _ hfor ↦ hfor⟩
  attached upload hmem hattached := ⟨upload, hmem, hattached, rfl, rfl⟩

/-- Equal columns on the rows that count. -/
private theorem map_map_congr {α β : Type} {rows : List α} {f : α → α} {column : α → β}
    (h : ∀ row ∈ rows, column (f row) = column row) :
    (rows.map f).map column = rows.map column := by
  rw [List.map_map]
  exact List.map_congr_left h

private theorem filterMap_map_congr {α β : Type} {rows : List α} {f : α → α}
    {column : α → Option β} (h : ∀ row ∈ rows, column (f row) = column row) :
    (rows.map f).filterMap column = rows.filterMap column := by
  rw [List.filterMap_map]
  exact List.filterMap_congr h

theorem Ledger.references {db db' : Database} (hledger : Ledger db)
    (h : SameReferences db db') : Ledger db' := by
  obtain ⟨d, hd, hdrow⟩ := h.documents
  obtain ⟨i, hi, hirow⟩ := h.issuances
  obtain ⟨v, hv, hvrow⟩ := h.verifications
  obtain ⟨j, hj, hjrow⟩ := h.jobs
  have hissuanceId : ∀ job ∈ db.jobs, (j job).issuanceId = job.issuanceId := by
    intro job hjob
    rw [Job.issuanceId, Job.issuanceId, (hjrow job hjob).2.2]
  have hverificationId : ∀ job ∈ db.jobs, (j job).verificationId = job.verificationId := by
    intro job hjob
    rw [Job.verificationId, Job.verificationId, (hjrow job hjob).2.2]
  constructor
  · -- rows keep their ids and references, so the columns are the same
    rw [hi, hd, map_map_congr fun row hrow ↦ (hirow row hrow).2.2,
      map_map_congr fun row _ ↦ (hdrow row).1]
    exact hledger.issuances
  · rw [hj, hi, filterMap_map_congr hissuanceId, map_map_congr fun row hrow ↦ (hirow row hrow).1]
    exact hledger.issuanceJobs
  · rw [hj, hv, filterMap_map_congr hverificationId, map_map_congr fun row _ ↦ (hvrow row).1]
    exact hledger.verificationJobs
  · rw [h.events, hj, map_map_congr fun row hrow ↦ (hjrow row hrow).1]
    exact hledger.events
  · rw [hd, map_map_congr fun row _ ↦ (hdrow row).2.2.1]
    exact hledger.documentUploads
  · rw [hv, map_map_congr fun row _ ↦ (hvrow row).2.2]
    exact hledger.verificationUploads
  · rw [hd]
    simp only [List.mem_map, forall_exists_index, and_imp, forall_apply_eq_imp_iff₂]
    intro document hdocument
    obtain ⟨upload, hupload, hfor⟩ := hledger.document document hdocument
    obtain ⟨upload', hupload', hsame⟩ := h.uploads upload hupload
    obtain ⟨-, horganization, hid, hkey, hsha256⟩ := hdrow document
    refine ⟨upload', hupload', ?_⟩
    rw [horganization, hid, hkey, hsha256]
    exact hsame _ _ _ _ _ hfor
  · rw [hv]
    simp only [List.mem_map, forall_exists_index, and_imp, forall_apply_eq_imp_iff₂]
    intro verification hverification
    obtain ⟨upload, hupload, key, sha256, hfor⟩ := hledger.verification verification hverification
    obtain ⟨upload', hupload', hsame⟩ := h.uploads upload hupload
    refine ⟨upload', hupload', key, sha256, ?_⟩
    rw [(hvrow verification).2.1, (hvrow verification).2.2]
    exact hsame _ _ _ _ _ hfor
  · intro upload' hupload' hattached hpurpose
    -- an upload that is attached now was attached before
    obtain ⟨upload, hupload, hbefore, hid, hsame⟩ := h.attached upload' hupload' hattached
    obtain ⟨document, hdocument, hrow⟩ :=
      hledger.attachedIssuance upload hupload hbefore (hsame.trans hpurpose)
    refine ⟨d document, hd ▸ List.mem_map_of_mem hdocument, ?_⟩
    rw [(hdrow document).2.2.1, hrow, hid]
  · intro upload' hupload' hattached hpurpose
    obtain ⟨upload, hupload, hbefore, hid, hsame⟩ := h.attached upload' hupload' hattached
    obtain ⟨verification, hverification, hrow⟩ :=
      hledger.attachedVerification upload hupload hbefore (hsame.trans hpurpose)
    refine ⟨v verification, hv ▸ List.mem_map_of_mem hverification, ?_⟩
    rw [(hvrow verification).2.2, hrow, hid]
  · rw [hi, hd]
    simp only [List.mem_map, forall_exists_index, and_imp, forall_apply_eq_imp_iff₂]
    intro issuance hissuance document hdocument
    rw [(hirow issuance hissuance).2.2, (hirow issuance hissuance).2.1, (hdrow document).1,
      (hdrow document).2.1]
    exact hledger.issuanceOwner issuance hissuance document hdocument
  · rw [hj, hi]
    simp only [List.mem_map, forall_exists_index, and_imp, forall_apply_eq_imp_iff₂]
    intro job hjob issuance hissuance
    rw [hissuanceId job hjob, (hirow issuance hissuance).1, (hirow issuance hissuance).2.1,
      (hjrow job hjob).2.1]
    exact hledger.issuanceJobOwner job hjob issuance hissuance
  · rw [hj, hv]
    simp only [List.mem_map, forall_exists_index, and_imp, forall_apply_eq_imp_iff₂]
    intro job hjob verification hverification
    rw [hverificationId job hjob, (hvrow verification).1, (hvrow verification).2.1,
      (hjrow job hjob).2.1]
    exact hledger.verificationJobOwner job hjob verification hverification
  · intro event hevent
    obtain ⟨job, hjob, hid, hsource⟩ := hledger.eventSource event (h.events ▸ hevent)
    refine ⟨j job, hj ▸ List.mem_map_of_mem hjob, hid.trans (hjrow job hjob).1.symm, ?_⟩
    -- the row that the event came from is there with the columns that it was read from
    cases hsource with
    | document issuance document hissuance hdocument hissuanceJob hdocumentId hcarries =>
      refine .document (i issuance) (d document) (hi ▸ List.mem_map_of_mem hissuance)
        (hd ▸ List.mem_map_of_mem hdocument) ?_ ?_ ?_
      · rw [hissuanceId job hjob, (hirow issuance hissuance).1, hissuanceJob]
      · rw [(hirow issuance hissuance).2.2, (hdrow document).1, hdocumentId]
      · rw [(hdrow document).2.2.2.1, (hdrow document).2.2.2.2]
        exact hcarries
    | upload verification upload key sha256 hverification hupload hverificationJob hfor hcarries =>
      obtain ⟨upload', hupload', hsame⟩ := h.uploads upload hupload
      refine .upload (v verification) upload' key sha256 (hv ▸ List.mem_map_of_mem hverification)
        hupload' ?_ ?_ hcarries
      · rw [hverificationId job hjob, (hvrow verification).1, hverificationJob]
      · rw [(hvrow verification).2.1, (hvrow verification).2.2]
        exact hsame _ _ _ _ _ hfor

/-! ## 5. Attaching -/

section Attaching

variable {formats : FormatChecker} {promotion : PromotionCall} {ids : FreshIds} {db : Database}
  {locked : UploadRequest} {sha256 : Sha256} {job : Job} {now : Instant}

/-- The rows that referred to attached uploads still do. -/
theorem Attaches.attachedFor (h : Attaches formats promotion ids db locked sha256 job)
    (hkeyed : db.Keyed) {upload : UploadRequest} (hmem : upload ∈ db.uploads)
    {id organization : UUID} {purpose : UploadPurpose} {key : ObjectKey} {digest : Sha256}
    (hfor : AttachedFor upload id organization purpose key digest) :
    upload ∈ (attachedDatabase promotion locked ids sha256 job now db).uploads := by
  have hne : upload.id ≠ locked.id := by
    intro heq
    obtain rfl := List.inj_on_of_nodup_map hkeyed.uploads hmem h.mem heq
    have hattached := hfor.2.2.2.1
    simp [h.copying] at hattached
  exact Table.mem_save_of_ne hmem hne

/-- The row that is attached, as the new domain record refers to it. -/
theorem Attaches.locked_attachedFor (h : Attaches formats promotion ids db locked sha256 job)
    (now : Instant) :
    locked.promoted .attached none now ∈
        (attachedDatabase promotion locked ids sha256 job now db).uploads ∧
      AttachedFor (locked.promoted .attached none now) locked.id promotion.actor.organizationId
        promotion.request.kind.purpose locked.target sha256 :=
  ⟨Table.mem_save_self h.mem rfl, rfl, h.organization, h.purpose, rfl, rfl, h.digest⟩

/-- The uploads that are attached after an attach: those before, and the one attached. -/
theorem Attaches.attached_cases {upload : UploadRequest}
    (hmem : upload ∈ (attachedDatabase promotion locked ids sha256 job now db).uploads) :
    upload = locked.promoted .attached none now ∨ upload ∈ db.uploads :=
  (Table.mem_save hmem).imp_right And.left

/-- The events that were there before still have their rows. -/
theorem Attaches.eventSource_kept (h : Attaches formats promotion ids db locked sha256 job)
    (hkeyed : db.Keyed) {event : OutboxEvent} {other : Job} (hsource : EventSource db event other) :
    EventSource (attachedDatabase promotion locked ids sha256 job now db) event other := by
  cases hsource with
  | document issuance document hissuance hdocument hjob hid hcarries =>
    exact .document issuance document (List.mem_append_left _ hissuance)
      (List.mem_append_left _ hdocument) hjob hid hcarries
  | upload verification upload key digest hverification hupload hjob hfor hcarries =>
    exact .upload verification upload key digest (List.mem_append_left _ hverification)
      (h.attachedFor hkeyed hupload hfor) hjob hfor hcarries

/-- Each event has its row after an attach, once the new event has one. -/
theorem Attaches.ledger_eventSource (h : Attaches formats promotion ids db locked sha256 job)
    (hkeyed : db.Keyed) (hledger : Ledger db)
    (hnew : EventSource (attachedDatabase promotion locked ids sha256 job now db)
      (newEvent job ids.message locked.target sha256) job) :
    ∀ event ∈ (attachedDatabase promotion locked ids sha256 job now db).events,
      ∃ other ∈ (attachedDatabase promotion locked ids sha256 job now db).jobs,
        event.jobId = other.id ∧
        EventSource (attachedDatabase promotion locked ids sha256 job now db) event other := by
  intro event hevent
  rcases List.mem_append.mp hevent with hold | hadded
  · obtain ⟨other, hother, hid, hsource⟩ := hledger.eventSource event hold
    exact ⟨other, List.mem_append_left _ hother, hid, h.eventSource_kept hkeyed hsource⟩
  · rw [List.mem_singleton.mp hadded]
    exact ⟨job, List.mem_append_right _ (List.mem_singleton_self job), rfl, hnew⟩

theorem newEvent_carries (job : Job) (messageId : UUID) (key : ObjectKey) (sha256 : Sha256) :
    (newEvent job messageId key sha256).Carries ⟨some key, some sha256⟩ :=
  ⟨key, sha256, rfl, by simp [newEvent, jobRequestPayload, JsonObject.get],
    by simp [newEvent, jobRequestPayload, JsonObject.get]⟩

/-- Rows that are added to two tables bring the pairs with the old ones and their own. -/
private theorem forall_mem_pair {α β : Type} {rows : List α} {others : List β} {row : α} {other : β}
    {related : α → β → Prop} (hold : ∀ x ∈ rows, ∀ y ∈ others, related x y)
    (hother : ∀ x ∈ rows, related x other) (hrow : ∀ y ∈ others, related row y)
    (hnew : related row other) : ∀ x ∈ rows ++ [row], ∀ y ∈ others ++ [other], related x y := by
  simp only [List.forall_mem_append, List.forall_mem_singleton]
  exact ⟨fun x hx ↦ ⟨hold x hx, hother x hx⟩, hrow, hnew⟩

theorem Attaches.ledger_issuance (h : Attaches formats promotion ids db locked sha256 job)
    (hkeyed : db.Keyed) (hledger : Ledger db) {recipient : Recipient}
    (hrequest : promotion.request = .issuance recipient)
    (htarget : job.target = .issuance ids.domain)
    (howner : job.organizationId = promotion.actor.organizationId) :
    Ledger (attachedDatabase promotion locked ids sha256 job now db) := by
  have hdocuments := h.documents (by simp [hrequest])
  have hissuances := h.issuances (by simp [hrequest])
  have hpurpose : promotion.request.kind.purpose = .issuance := by rw [hrequest]; rfl
  obtain ⟨hlocked, hfor⟩ := h.locked_attachedFor now
  have hissuanceId : job.issuanceId = some ids.domain := by rw [Job.issuanceId, htarget]
  have hverificationId : job.verificationId = none := by rw [Job.verificationId, htarget]
  have hdb : attachedDatabase promotion locked ids sha256 job now db = { db with
      uploads := (attachedDatabase promotion locked ids sha256 job now db).uploads
      documents := db.documents ++
        [newDocument promotion.actor locked ids locked.target sha256]
      issuances := db.issuances ++ [newIssuance promotion.actor recipient ids now]
      jobs := db.jobs ++ [job]
      events := db.events ++ [newEvent job ids.message locked.target sha256]
      audit := db.audit ++ [createdEvent promotion ids] } := by
    simp [attachedDatabase, hrequest, DomainRequest.documents, DomainRequest.issuances,
      DomainRequest.verifications]
  -- no row refers to an identifier that is new
  have hnoDocument : ∀ issuance ∈ db.issuances, issuance.documentId ≠ ids.document := by
    intro issuance hissuance heq
    have hmem : issuance.documentId ∈ db.documents.map (·.id) :=
      hledger.issuances ▸ List.mem_map_of_mem hissuance
    obtain ⟨document, hdocument, hid⟩ := List.mem_map.mp hmem
    exact (hdocuments document hdocument).1 (hid.trans heq)
  have hnoIssuance : ∀ other ∈ db.jobs, other.issuanceId ≠ some ids.domain := by
    intro other hother heq
    have hmem : ids.domain ∈ db.issuances.map (·.id) :=
      hledger.issuanceJobs ▸ List.mem_filterMap.mpr ⟨other, hother, heq⟩
    obtain ⟨issuance, hissuance, hid⟩ := List.mem_map.mp hmem
    exact hissuances issuance hissuance hid
  constructor
  · rw [hdb, List.map_append, List.map_append, hledger.issuances]
    rfl
  · rw [hdb, List.filterMap_append, List.map_append, hledger.issuanceJobs]
    simp [hissuanceId, newIssuance]
  · rw [hdb, List.filterMap_append, hledger.verificationJobs]
    simp [hverificationId]
  · rw [hdb, List.map_append, List.map_append, hledger.events]
    rfl
  · rw [hdb, List.map_append, List.nodup_append]
    refine ⟨hledger.documentUploads, by simp, ?_⟩
    simpa [newDocument] using fun document hdocument ↦ (hdocuments document hdocument).2
  · rw [hdb]
    exact hledger.verificationUploads
  · intro document hdocument
    rw [hdb] at hdocument
    rcases List.mem_append.mp hdocument with hold | hnew
    · obtain ⟨upload, hupload, hfor⟩ := hledger.document document hold
      exact ⟨upload, h.attachedFor hkeyed hupload hfor, hfor⟩
    · rw [List.mem_singleton.mp hnew]
      exact ⟨_, hlocked, hpurpose ▸ hfor⟩
  · intro verification hverification
    rw [hdb] at hverification
    obtain ⟨upload, hupload, key, digest, hold⟩ :=
      hledger.verification verification hverification
    exact ⟨upload, h.attachedFor hkeyed hupload hold, key, digest, hold⟩
  · intro upload hupload hattached hissuance
    rw [hdb]
    rcases Attaches.attached_cases hupload with rfl | hold
    · exact ⟨_, List.mem_append_right _ (List.mem_singleton_self _), rfl⟩
    · obtain ⟨document, hdocument, hid⟩ :=
        hledger.attachedIssuance upload hold hattached hissuance
      exact ⟨document, List.mem_append_left _ hdocument, hid⟩
  · intro upload hupload hattached hverification
    rcases Attaches.attached_cases hupload with rfl | hold
    · have hlockedPurpose : locked.purpose = .verification := hverification
      simp [h.purpose, hpurpose] at hlockedPurpose
    · rw [hdb]
      exact hledger.attachedVerification upload hold hattached hverification
  · rw [hdb]
    exact forall_mem_pair hledger.issuanceOwner
      (fun issuance hissuance hid ↦ absurd hid (hnoDocument issuance hissuance))
      (fun document hdocument hid ↦ absurd hid.symm (hdocuments document hdocument).1) fun _ ↦ rfl
  · rw [hdb]
    refine forall_mem_pair hledger.issuanceJobOwner
      (fun other hother hid ↦ absurd hid (hnoIssuance other hother))
      (fun issuance hissuance hid ↦ ?_) fun _ ↦ howner.symm
    rw [hissuanceId, Option.some.injEq] at hid
    exact absurd hid.symm (hissuances issuance hissuance)
  · rw [hdb]
    intro other hother verification hverification hid
    rcases List.mem_append.mp hother with hother | hother
    · exact hledger.verificationJobOwner other hother verification hverification hid
    · simp [List.mem_singleton.mp hother, hverificationId] at hid
  · refine h.ledger_eventSource hkeyed hledger ?_
    refine .document (newIssuance promotion.actor recipient ids now)
      (newDocument promotion.actor locked ids locked.target sha256) ?_ ?_ hissuanceId rfl
      (newEvent_carries job ids.message locked.target sha256)
    · rw [hdb]
      exact List.mem_append_right _ (List.mem_singleton_self _)
    · rw [hdb]
      exact List.mem_append_right _ (List.mem_singleton_self _)

theorem Attaches.ledger_verification (h : Attaches formats promotion ids db locked sha256 job)
    (hkeyed : db.Keyed) (hledger : Ledger db) (hrequest : promotion.request = .verification)
    (htarget : job.target = .verification ids.domain)
    (howner : job.organizationId = promotion.actor.organizationId) :
    Ledger (attachedDatabase promotion locked ids sha256 job now db) := by
  have hverifications := h.verifications hrequest
  have hpurpose : promotion.request.kind.purpose = .verification := by rw [hrequest]; rfl
  obtain ⟨hlocked, hfor⟩ := h.locked_attachedFor now
  have hissuanceId : job.issuanceId = none := by rw [Job.issuanceId, htarget]
  have hverificationId : job.verificationId = some ids.domain := by
    rw [Job.verificationId, htarget]
  -- only the uploads change besides the rows that are added
  have hdb : attachedDatabase promotion locked ids sha256 job now db = { db with
      uploads := (attachedDatabase promotion locked ids sha256 job now db).uploads
      verifications := db.verifications ++ [newVerification promotion.actor locked ids]
      jobs := db.jobs ++ [job]
      events := db.events ++ [newEvent job ids.message locked.target sha256]
      audit := db.audit ++ [createdEvent promotion ids] } := by
    simp [attachedDatabase, hrequest, DomainRequest.documents, DomainRequest.issuances,
      DomainRequest.verifications]
  -- the id of the new verification is fresh, so no job points to it yet
  have hnoVerification : ∀ other ∈ db.jobs, other.verificationId ≠ some ids.domain := by
    intro other hother heq
    have hmem : ids.domain ∈ db.verifications.map (·.id) :=
      hledger.verificationJobs ▸ List.mem_filterMap.mpr ⟨other, hother, heq⟩
    obtain ⟨verification, hverification, hid⟩ := List.mem_map.mp hmem
    exact (hverifications verification hverification).1 hid
  constructor
  · rw [hdb]
    exact hledger.issuances
  · rw [hdb, List.filterMap_append, hledger.issuanceJobs]
    simp [hissuanceId]
  · rw [hdb, List.filterMap_append, List.map_append, hledger.verificationJobs]
    simp [hverificationId, newVerification]
  · rw [hdb, List.map_append, List.map_append, hledger.events]
    rfl
  · rw [hdb]
    exact hledger.documentUploads
  · rw [hdb, List.map_append, List.nodup_append]
    refine ⟨hledger.verificationUploads, by simp, ?_⟩
    simpa [newVerification] using
      fun verification hverification ↦ (hverifications verification hverification).2
  · intro document hdocument
    rw [hdb] at hdocument
    obtain ⟨upload, hupload, hold⟩ := hledger.document document hdocument
    exact ⟨upload, h.attachedFor hkeyed hupload hold, hold⟩
  · intro verification hverification
    rw [hdb] at hverification
    rcases List.mem_append.mp hverification with hold | hnew
    · obtain ⟨upload, hupload, key, digest, hold⟩ := hledger.verification verification hold
      exact ⟨upload, h.attachedFor hkeyed hupload hold, key, digest, hold⟩
    · rw [List.mem_singleton.mp hnew]
      exact ⟨_, hlocked, locked.target, sha256, hpurpose ▸ hfor⟩
  · intro upload hupload hattached hissuance
    -- the upload that was locked is not one for issuance
    rcases Attaches.attached_cases hupload with rfl | hold
    · have hlockedPurpose : locked.purpose = .issuance := hissuance
      simp [h.purpose, hpurpose] at hlockedPurpose
    · rw [hdb]
      exact hledger.attachedIssuance upload hold hattached hissuance
  · intro upload hupload hattached hverification
    rw [hdb]
    rcases Attaches.attached_cases hupload with rfl | hold
    · exact ⟨_, List.mem_append_right _ (List.mem_singleton_self _), rfl⟩
    · obtain ⟨verification, hmem, hid⟩ :=
        hledger.attachedVerification upload hold hattached hverification
      exact ⟨verification, List.mem_append_left _ hmem, hid⟩
  · rw [hdb]
    exact hledger.issuanceOwner
  · rw [hdb]
    intro other hother issuance hissuance hid
    rcases List.mem_append.mp hother with hother | hother
    · exact hledger.issuanceJobOwner other hother issuance hissuance hid
    · simp [List.mem_singleton.mp hother, hissuanceId] at hid
  · rw [hdb]
    -- an old job with the new verification, or the other way round, does not exist
    refine forall_mem_pair hledger.verificationJobOwner
      (fun other hother hid ↦ absurd hid (hnoVerification other hother))
      (fun verification hverification hid ↦ ?_) fun _ ↦ howner.symm
    rw [hverificationId, Option.some.injEq] at hid
    exact absurd hid.symm (hverifications verification hverification).1
  · refine h.ledger_eventSource hkeyed hledger ?_
    refine .upload (newVerification promotion.actor locked ids)
      (locked.promoted .attached none now) locked.target sha256 ?_ hlocked hverificationId
      (hpurpose ▸ hfor) (newEvent_carries job ids.message locked.target sha256)
    rw [hdb]
    exact List.mem_append_right _ (List.mem_singleton_self _)

/-- An attach adds one row to each of the parallel tables. -/
theorem Attaches.ledger (h : Attaches formats promotion ids db locked sha256 job)
    (hkeyed : db.Keyed) (hledger : Ledger db)
    (htarget : job.target = promotion.request.target ids)
    (howner : job.organizationId = promotion.actor.organizationId) :
    Ledger (attachedDatabase promotion locked ids sha256 job now db) := by
  cases hrequest : promotion.request with
  | issuance recipient =>
    exact h.ledger_issuance hkeyed hledger hrequest (by rw [htarget, hrequest]; rfl) howner
  | verification =>
    exact h.ledger_verification hkeyed hledger hrequest (by rw [htarget, hrequest]; rfl) howner

end Attaching

end Splitbind
