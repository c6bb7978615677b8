import Splitbind.Retention.Objects

/-!
# Due deletions — what retention has checked still holds when it deletes

The checks of a cleanup run read job rows that it has not locked.  They may be relied on all the
same: the row it has locked fixes which jobs are related, a terminal job stays terminal, and the
time at which a job has become terminal does not change.
-/

namespace Splitbind

open Transaction WorkerPool

namespace Platform

/-! ## 1. Jobs over time -/

/-- What stays of a job row. -/
structure JobKept (job job' : Job) : Prop where
  id : job'.id = job.id
  organization : job'.organizationId = job.organizationId
  target : job'.target = job.target
  deadline : job'.deadlineAt = job.deadlineAt
  correlation : job'.correlationId = job.correlationId
  attempt : job'.attempt = job.attempt ∨ job.status = .retryableFailed
  created : job'.status = .created → job.status = .created
  terminal : job.status.terminal → job'.status = job.status

theorem JobKept.refl (job : Job) : JobKept job job :=
  ⟨rfl, rfl, rfl, rfl, rfl, .inl rfl, fun h ↦ h, fun _ ↦ rfl⟩

theorem JobChange.kept {change : JobChange} {job : Job} (hadmitted : change.Admitted job)
    (now : Instant) : JobKept job (change.apply now job) where
  id := rfl
  organization := rfl
  target := rfl
  deadline := rfl
  correlation := rfl
  attempt := hadmitted.2
  created hcreated := by
    have hstatus : change.status = .created := hcreated
    rcases hadmitted.1 with hsame | hmem
    · exact hsame.symm.trans hstatus
    · rw [hstatus] at hmem
      cases hjob : job.status <;> simp [hjob, transitions] at hmem
  terminal hterminal := by
    refine hadmitted.1.resolve_right ?_
    rw [show transitions job.status = [] from hterminal]
    exact List.not_mem_nil

/-- Each finished job has an entry, made at the latest when its row was last written. -/
structure EndedOk (store : Store) : Prop where
  finished : ∀ job ∈ store.db.jobs, job.status.terminal → ∃ time, (job.id, time) ∈ store.ended
  entries : ∀ id time, (id, time) ∈ store.ended → time ≤ store.clock ∧
    ∃ job ∈ store.db.jobs, job.id = id ∧ job.status.terminal ∧ time ≤ job.updatedAt

/-- The rows that retention relates to an upload or an issuance. -/
structure RowsKept (db db' : Database) : Prop where
  documents : ∀ document ∈ db.documents, ∃ document' ∈ db'.documents,
    document'.id = document.id ∧ document'.uploadRequestId = document.uploadRequestId
  issuances : ∀ issuance ∈ db.issuances, ∃ issuance' ∈ db'.issuances,
    issuance'.id = issuance.id ∧ issuance'.documentId = issuance.documentId
  verifications : ∀ verification ∈ db.verifications, ∃ verification' ∈ db'.verifications,
    verification'.id = verification.id ∧
      verification'.uploadRequestId = verification.uploadRequestId
  jobs : ∀ job ∈ db.jobs, ∃ job' ∈ db'.jobs, JobKept job job'

section Changes

variable {formats : FormatChecker} {settings : ServiceSettings} {free : Lock → Prop}
  {clock : Instant} {db db' : Database}

theorem Change.jobs_kept (h : Change formats settings free clock db db') (hkeyed : db.Keyed)
    {job : Job} (hmem : job ∈ db.jobs) : ∃ job' ∈ db'.jobs, JobKept job job' := by
  cases h with
  | kept | created | saved | outputDeleted => exact ⟨job, hmem, .refl job⟩
  | attached promotion ids locked sha256 added hfree hattaches hjob =>
    exact ⟨job, List.mem_append_left _ hmem, .refl job⟩
  | worked other change result hother hadmitted hfree =>
    rw [Database.saveJob, WorkResult.apply_jobs]
    by_cases heq : job.id = other.id
    · obtain rfl := List.inj_on_of_nodup_map hkeyed.jobs hmem hother heq
      exact ⟨_, Table.mem_save_self hmem rfl, JobChange.kept hadmitted clock⟩
    · exact ⟨job, Table.mem_save_of_ne hmem heq, .refl job⟩

theorem Change.rows_kept (h : Change formats settings free clock db db') (hkeyed : db.Keyed) :
    RowsKept db db' := by
  refine ⟨?_, ?_, ?_, fun job hmem ↦ h.jobs_kept hkeyed hmem⟩ <;>
    rcases h.references hkeyed with hsame | ⟨promotion, ids, locked, sha256, job, -, -, rfl⟩
  · obtain ⟨f, hf, hrow⟩ := hsame.documents
    intro document hmem
    exact ⟨f document, hf ▸ List.mem_map_of_mem hmem, (hrow document).1, (hrow document).2.2.1⟩
  · exact fun document hmem ↦ ⟨document, List.mem_append_left _ hmem, rfl, rfl⟩
  · obtain ⟨f, hf, hrow⟩ := hsame.issuances
    intro issuance hmem
    exact ⟨f issuance, hf ▸ List.mem_map_of_mem hmem, (hrow issuance hmem).1,
      (hrow issuance hmem).2.2⟩
  · exact fun issuance hmem ↦ ⟨issuance, List.mem_append_left _ hmem, rfl, rfl⟩
  · obtain ⟨f, hf, hrow⟩ := hsame.verifications
    intro verification hmem
    exact ⟨f verification, hf ▸ List.mem_map_of_mem hmem, (hrow verification).1,
      (hrow verification).2.2⟩
  · exact fun verification hmem ↦ ⟨verification, List.mem_append_left _ hmem, rfl, rfl⟩

end Changes

/-! ## 2. Related jobs -/

theorem mem_relatedJobs_issuanceInput {db : Database} {pk : UUID} {job : Job} :
    job ∈ relatedJobs db .issuanceInput pk ↔ job ∈ db.jobs ∧ ∃ issuance ∈ db.issuances,
      job.issuanceId = some issuance.id ∧ ∃ document ∈ db.documents,
        document.id = issuance.documentId ∧ document.uploadRequestId = pk := by
  simp [relatedJobs]

theorem mem_relatedJobs_verificationInput {db : Database} {pk : UUID} {job : Job} :
    job ∈ relatedJobs db .verificationInput pk ↔ job ∈ db.jobs ∧
      ∃ verification ∈ db.verifications, job.verificationId = some verification.id ∧
        verification.uploadRequestId = pk := by
  simp [relatedJobs]

theorem mem_relatedJobs_issuanceOutput {db : Database} {pk : UUID} {job : Job} :
    job ∈ relatedJobs db .issuanceOutput pk ↔ job ∈ db.jobs ∧ job.issuanceId = some pk := by
  simp [relatedJobs]

/-- A related job stays related. -/
theorem RowsKept.related {db db' : Database} (h : RowsKept db db') {category : Category} {pk : UUID}
    {job : Job} (hmem : job ∈ relatedJobs db category pk) :
    ∃ job' ∈ relatedJobs db' category pk, JobKept job job' := by
  have hissuanceId : ∀ {job job' : Job}, JobKept job job' → job'.issuanceId = job.issuanceId := by
    intro job job' hkept
    rw [Job.issuanceId, Job.issuanceId, hkept.target]
  have hverificationId : ∀ {job job' : Job}, JobKept job job' →
      job'.verificationId = job.verificationId := by
    intro job job' hkept
    rw [Job.verificationId, Job.verificationId, hkept.target]
  cases category with
  | issuanceInput =>
    rw [mem_relatedJobs_issuanceInput] at hmem
    obtain ⟨hjob, issuance, hissuance, hid, document, hdocument, hdocumentId, hupload⟩ := hmem
    obtain ⟨job', hjob', hkept⟩ := h.jobs job hjob
    obtain ⟨issuance', hissuance', hsame, hreference⟩ := h.issuances issuance hissuance
    obtain ⟨document', hdocument', hsame', hreference'⟩ := h.documents document hdocument
    refine ⟨job', mem_relatedJobs_issuanceInput.mpr ⟨hjob', issuance', hissuance', ?_, document',
      hdocument', ?_, hreference'.trans hupload⟩, hkept⟩
    · rw [hissuanceId hkept, hid, hsame]
    · rw [hsame', hdocumentId, hreference]
  | verificationInput =>
    rw [mem_relatedJobs_verificationInput] at hmem
    obtain ⟨hjob, verification, hverification, hid, hupload⟩ := hmem
    obtain ⟨job', hjob', hkept⟩ := h.jobs job hjob
    obtain ⟨verification', hverification', hsame, hreference⟩ :=
      h.verifications verification hverification
    refine ⟨job', mem_relatedJobs_verificationInput.mpr ⟨hjob', verification', hverification', ?_,
      hreference.trans hupload⟩, hkept⟩
    rw [hverificationId hkept, hid, hsame]
  | issuanceOutput =>
    rw [mem_relatedJobs_issuanceOutput] at hmem
    obtain ⟨job', hjob', hkept⟩ := h.jobs job hmem.1
    exact ⟨job', mem_relatedJobs_issuanceOutput.mpr ⟨hjob', (hissuanceId hkept).trans hmem.2⟩,
      hkept⟩
  | stalePromotion | orphan => simp [relatedJobs] at hmem

/-- The category that retains the input of an upload. -/
def inputCategory : UploadPurpose → Category
  | .issuance => .issuanceInput
  | .verification => .verificationInput

section Related

variable {db : Database} (hledger : Ledger db) (hkeyed : db.Keyed)

include hledger hkeyed

/-- The jobs that retention relates to an upload are its jobs. -/
theorem relatedJobs_input {upload : UploadRequest} (hmem : upload ∈ db.uploads) :
    relatedJobs db (inputCategory upload.purpose) upload.id = jobsOf db upload := by
  cases hpurpose : upload.purpose with
  | issuance =>
    have hnone : verificationsOf db upload = [] := by
      refine List.eq_nil_iff_forall_not_mem.mpr fun verification hverification ↦ ?_
      obtain ⟨-, key, sha256, hfor⟩ := hledger.verification_upload hkeyed hmem hverification
      simp [hfor.2.2.1] at hpurpose
    refine List.filter_congr fun job _ ↦ ?_
    rw [Bool.eq_iff_iff]
    simp only [hnone, issuancesOf, documentsOf, List.any_nil, Bool.or_false, List.any_eq_true,
      Bool.and_eq_true, decide_eq_true_eq, List.mem_filter]
    constructor
    · rintro ⟨issuance, hissuance, hid, document, hdocument, hdocumentId, hupload⟩
      exact ⟨issuance, ⟨hissuance, document, ⟨hdocument, hupload⟩, hdocumentId.symm⟩, hid⟩
    · rintro ⟨issuance, ⟨hissuance, document, ⟨hdocument, hupload⟩, hdocumentId⟩, hid⟩
      exact ⟨issuance, hissuance, hid, document, hdocument, hdocumentId.symm, hupload⟩
  | verification =>
    have hnone : documentsOf db upload = [] := by
      refine List.eq_nil_iff_forall_not_mem.mpr fun document hdocument ↦ ?_
      have hfor := (hledger.document_upload hkeyed hmem hdocument).2
      simp [hfor.2.2.1] at hpurpose
    refine List.filter_congr fun job _ ↦ ?_
    rw [Bool.eq_iff_iff]
    simp only [hnone, issuancesOf, verificationsOf, List.any_nil, List.filter_false,
      Bool.false_or, List.any_eq_true, Bool.and_eq_true, decide_eq_true_eq, List.mem_filter]
    constructor
    · rintro ⟨verification, hverification, hid, hupload⟩
      exact ⟨verification, ⟨hverification, hupload⟩, hid⟩
    · rintro ⟨verification, ⟨hverification, hupload⟩, hid⟩
      exact ⟨verification, hverification, hid, hupload⟩

/-- An issuance has one job. -/
theorem relatedJobs_output {issuance : Issuance} (hmem : issuance ∈ db.issuances) :
    ∃ job, relatedJobs db .issuanceOutput issuance.id = [job] := by
  have hunique : (db.jobs.filterMap (·.issuanceId)).Nodup :=
    hledger.issuanceJobs ▸ hkeyed.issuances
  have hissuance : issuance.id ∈ db.jobs.filterMap (·.issuanceId) :=
    hledger.issuanceJobs ▸ List.mem_map_of_mem hmem
  obtain ⟨job, -, -, hjobs⟩ := Table.filter_eq_singleton_of_filterMap hunique hissuance
  exact ⟨job, hjobs⟩

/-- A row whose jobs are asked about has one job. -/
theorem related_single {candidate : Candidate} {record : LockedRecord} {now : Instant}
    (hrecord : candidate.record db = some record)
    (heligible : record.eligible candidate.category now = true)
    (hqueries : candidate.category.jobQueries ≠ []) :
    ∃ job, relatedJobs db candidate.category candidate.pk = [job] := by
  cases record with
  | upload upload =>
    obtain ⟨hmem, hid, -⟩ := record_upload hrecord
    have hattached : upload.promotionStatus = .attached ∧
        candidate.category = inputCategory upload.purpose := by
      cases hcategory : candidate.category <;>
        simp_all [LockedRecord.eligible, Category.jobQueries, inputCategory]
    obtain ⟨-, job, event, hjobs, -⟩ := hledger.of_attached hkeyed hmem hattached.1
    exact ⟨job, by rw [hattached.2, ← hid, relatedJobs_input hledger hkeyed hmem, hjobs]⟩
  | issuance issuance =>
    obtain ⟨hmem, hid, -, hcategory⟩ := record_issuance hrecord
    rw [hcategory, ← hid]
    exact relatedJobs_output hledger hkeyed hmem

end Related

/-! ## 3. One step -/

variable (formats : FormatChecker) (settings : ServiceSettings)

/-- What any step does to the jobs and to the record of when they have ended. -/
structure Advance (store store' : Store) : Prop where
  change : Change formats settings (fun _ ↦ True) store.clock store.db store'.db
  clock : store.clock ≤ store'.clock
  ended : ∀ id time, (id, time) ∈ store'.ended → (id, time) ∈ store.ended ∨
    ∃ job ∈ store.db.jobs, job.id = id ∧ ¬ job.status.terminal
  kept : ∀ entry ∈ store.ended, entry ∈ store'.ended

variable {formats settings} {store store' : Store} {p p' : Phase}

theorem Stepped.clock (h : Stepped formats settings store p store' p') :
    store'.clock = store.clock := by
  cases h <;> rfl

theorem Stepped.ended (h : Stepped formats settings store p store' p') :
    store'.ended = store.ended := by
  cases h <;> rfl

theorem Stepped.advance (h : Stepped formats settings store p store' p')
    (hchange : Change formats settings (freeFor store p) store.clock store.db store'.db) :
    Advance formats settings store store' where
  change := hchange.mono fun _ _ ↦ trivial
  clock := h.clock.ge
  ended _ _ hentry := .inl (h.ended ▸ hentry)
  kept _ hentry := h.ended ▸ hentry

theorem Happened.advance (h : Happened formats settings store store') (hkeyed : store.db.Keyed) :
    Advance formats settings store store' where
  change := (h.change hkeyed).mono fun _ _ ↦ trivial
  clock := by
    cases h with
    | ticked time hle => exact hle
    | changed db time hle => exact hle
    | _ => exact le_rfl
  ended id time hentry := by
    cases h with
    | worked job change result hmem =>
      simp only at hentry
      split at hentry
      · rename_i hfinished
        rcases List.mem_cons.mp hentry with hnew | hold
        · exact .inr ⟨job, hmem, (Prod.mk.inj hnew).1.symm, hfinished.2⟩
        · exact .inl hold
      · exact .inl hentry
    | _ => exact .inl hentry
  kept entry hentry := by
    cases h with
    | worked job change result =>
      simp only
      split
      · exact List.mem_cons_of_mem _ hentry
      · exact hentry
    | _ => exact hentry

/-- A worker's step leaves the jobs alone or adds one that is just created. -/
theorem Stepped.jobs_cases (h : Stepped formats settings store p store' p') :
    store'.db.jobs = store.db.jobs ∨
      ∃ job, store'.db.jobs = store.db.jobs ++ [job] ∧ job.status = .created := by
  cases h with
  | attached promotion ids locked sha256 job p' hfree hattaches hjob =>
    exact .inr ⟨job, rfl, by rw [hjob]; rfl⟩
  | recorded run candidate record => cases record <;> exact .inl rfl
  | _ => exact .inl rfl

theorem Stepped.endedOk (h : Stepped formats settings store p store' p')
    (hended : EndedOk store) : EndedOk store' := by
  rcases h.jobs_cases with hjobs | ⟨added, hjobs, hcreated⟩
  · constructor
    · rw [hjobs, h.ended]
      exact hended.finished
    · rw [hjobs, h.ended, h.clock]
      exact hended.entries
  · constructor
    · intro job hmem hterminal
      rw [h.ended]
      rw [hjobs] at hmem
      rcases List.mem_append.mp hmem with hold | hnew
      · exact hended.finished job hold hterminal
      · rw [List.mem_singleton.mp hnew, hcreated] at hterminal
        exact absurd hterminal (by decide)
    · intro id time hentry
      rw [h.ended] at hentry
      obtain ⟨hle, job, hmem, hjob⟩ := hended.entries id time hentry
      exact ⟨h.clock ▸ hle, job, hjobs ▸ List.mem_append_left _ hmem, hjob⟩

theorem Happened.endedOk (h : Happened formats settings store store') (hkeyed : store.db.Keyed)
    (hended : EndedOk store) : EndedOk store' := by
  cases h with
  | ticked time hle =>
    exact ⟨hended.finished, fun id entry hentry ↦
      ⟨(hended.entries id entry hentry).1.trans hle, (hended.entries id entry hentry).2⟩⟩
  | changed db time hle hchange hjobs =>
    refine ⟨by simpa only [hjobs] using hended.finished, fun id entry hentry ↦ ?_⟩
    obtain ⟨hbefore, hjob⟩ := hended.entries id entry hentry
    exact ⟨hbefore.trans hle, by simpa only [hjobs] using hjob⟩
  | landed | stored => exact ⟨hended.finished, hended.entries⟩
  | worked job change result hmem hadmitted hfree =>
    have hkept := JobChange.kept hadmitted store.clock
    have hsaved : change.apply store.clock job ∈
        ((result.apply job store.clock store.db).saveJob (change.apply store.clock job)).jobs := by
      rw [Database.saveJob, WorkResult.apply_jobs]
      exact Table.mem_save_self hmem rfl
    constructor
    · intro other hother hterminal
      simp only [Database.saveJob, WorkResult.apply_jobs] at hother ⊢
      rcases Table.mem_save hother with rfl | ⟨hold, -⟩
      · by_cases hbefore : job.status.terminal
        · obtain ⟨time, htime⟩ := hended.finished job hmem hbefore
          exact ⟨time, by rw [if_neg (by simp [hbefore])]; exact htime⟩
        · exact ⟨store.clock, by rw [if_pos ⟨hterminal, hbefore⟩]; exact List.mem_cons_self⟩
      · obtain ⟨time, htime⟩ := hended.finished other hold hterminal
        refine ⟨time, ?_⟩
        split
        · exact List.mem_cons_of_mem _ htime
        · exact htime
    · intro id time hentry
      -- an entry of before, or the one of the job that has just ended
      have hcases : (id, time) ∈ store.ended ∨
          (id = job.id ∧ time = store.clock ∧ change.status.terminal) := by
        simp only at hentry
        split at hentry
        · rename_i hfinished
          rcases List.mem_cons.mp hentry with hnew | hold
          · exact .inr ⟨(Prod.mk.inj hnew).1, (Prod.mk.inj hnew).2, hfinished.1⟩
          · exact .inl hold
        · exact .inl hentry
      rcases hcases with hold | ⟨rfl, rfl, hterminal⟩
      · obtain ⟨hle, other, hother, rfl, hterminal, hupdated⟩ := hended.entries id time hold
        refine ⟨hle, ?_⟩
        by_cases heq : other.id = job.id
        · obtain rfl := List.inj_on_of_nodup_map hkeyed.jobs hother hmem heq
          exact ⟨_, hsaved, rfl, (hkept.terminal hterminal).symm ▸ hterminal, hle⟩
        · refine ⟨other, ?_, rfl, hterminal, hupdated⟩
          rw [Database.saveJob, WorkResult.apply_jobs]
          exact Table.mem_save_of_ne hother heq
      · exact ⟨le_rfl, _, hsaved, rfl, hterminal, le_rfl⟩

/-! ## 4. Checks that stay true -/

/-- What a query that has passed says for good. -/
def Settled (store : Store) (run : CleanupRun) (candidate : Candidate) : JobQuery → Prop
  | .exist => relatedJobs store.db candidate.category candidate.pk ≠ []
  | .allTerminal => ∀ job ∈ relatedJobs store.db candidate.category candidate.pk,
      job.status.terminal
  | .oneSucceeded => ∃ job ∈ relatedJobs store.db candidate.category candidate.pk,
      job.status = .succeeded
  | .latestBefore => ∀ job ∈ relatedJobs store.db candidate.category candidate.pk,
      job.status.terminal ∧
        ∀ time, (job.id, time) ∈ store.ended → time ≤ run.now - candidate.category.window

theorem mem_terminalJobStatuses {status : JobStatus} :
    status ∈ terminalJobStatuses ↔ status.terminal := by
  cases status <;> decide

theorem mem_jobs_of_related {db : Database} {category : Category} {pk : UUID} {job : Job}
    (h : job ∈ relatedJobs db category pk) : job ∈ db.jobs := by
  cases category with
  | issuanceInput => exact (mem_relatedJobs_issuanceInput.mp h).1
  | verificationInput => exact (mem_relatedJobs_verificationInput.mp h).1
  | issuanceOutput => exact (mem_relatedJobs_issuanceOutput.mp h).1
  | stalePromotion | orphan => simp [relatedJobs] at h

theorem settled_of_passes {run : CleanupRun} {candidate : Candidate} {query : JobQuery}
    (hkeyed : store.db.Keyed) (hended : EndedOk store)
    (hpasses : candidate.passes query run.now store.db = true)
    (hterminal : query = .latestBefore → Settled store run candidate .allTerminal) :
    Settled store run candidate query := by
  cases query with
  | exist => simpa [Settled, Candidate.passes, JobQuery.holds] using hpasses
  | allTerminal =>
    simpa [Settled, Candidate.passes, JobQuery.holds, mem_terminalJobStatuses] using hpasses
  | oneSucceeded => simpa [Settled, Candidate.passes, JobQuery.holds] using hpasses
  | latestBefore =>
    intro job hjob
    refine ⟨hterminal rfl job hjob, fun time hentry ↦ ?_⟩
    obtain ⟨-, other, hother, hid, -, hupdated⟩ := hended.entries job.id time hentry
    obtain rfl := List.inj_on_of_nodup_map hkeyed.jobs hother (mem_jobs_of_related hjob) hid
    have hbefore : other.updatedAt ≤ run.now - candidate.category.window := by
      simp only [Candidate.passes, JobQuery.holds, Bool.and_eq_true, List.all_eq_true,
        decide_eq_true_eq] at hpasses
      exact hpasses.2 other hjob
    exact hupdated.trans hbefore

/-- The one related job after a step is the one before. -/
theorem Advance.related (h : Advance formats settings store store') (hkeyed : store.db.Keyed)
    {category : Category} {pk : UUID} {job job' : Job}
    (hbefore : relatedJobs store.db category pk = [job])
    (hafter : relatedJobs store'.db category pk = [job']) : JobKept job job' := by
  obtain ⟨kept, hmem, hkept⟩ := (h.change.rows_kept hkeyed).related
    (hbefore ▸ List.mem_singleton_self job)
  rw [hafter] at hmem
  exact List.mem_singleton.mp hmem ▸ hkept

/-- A job that has ended has no new entry. -/
theorem Advance.entries (h : Advance formats settings store store') (hkeyed : store.db.Keyed)
    {job : Job} (hmem : job ∈ store.db.jobs) (hterminal : job.status.terminal) {time : Instant}
    (hentry : (job.id, time) ∈ store'.ended) : (job.id, time) ∈ store.ended := by
  refine (h.ended job.id time hentry).resolve_right ?_
  rintro ⟨other, hother, hid, hopen⟩
  obtain rfl := List.inj_on_of_nodup_map hkeyed.jobs hother hmem hid
  exact hopen hterminal

theorem Settled.advance {run : CleanupRun} {candidate : Candidate} {query : JobQuery}
    {job job' : Job} (h : Advance formats settings store store') (hkeyed : store.db.Keyed)
    (hbefore : relatedJobs store.db candidate.category candidate.pk = [job])
    (hafter : relatedJobs store'.db candidate.category candidate.pk = [job'])
    (hsettled : Settled store run candidate query) : Settled store' run candidate query := by
  have hkept := h.related hkeyed hbefore hafter
  have hmem : job ∈ store.db.jobs := mem_jobs_of_related (hbefore ▸ List.mem_singleton_self job)
  cases query with
  | exist => simp [Settled, hafter]
  | allTerminal =>
    simp only [Settled, hbefore, hafter, List.mem_singleton, forall_eq] at hsettled ⊢
    rw [hkept.terminal hsettled]
    exact hsettled
  | oneSucceeded =>
    simp only [Settled, hbefore, hafter, List.mem_singleton, exists_eq_left] at hsettled ⊢
    rw [hkept.terminal (hsettled ▸ rfl), hsettled]
  | latestBefore =>
    simp only [Settled, hbefore, hafter, List.mem_singleton, forall_eq] at hsettled ⊢
    refine ⟨hkept.terminal hsettled.1 ▸ hsettled.1, fun time hentry ↦ hsettled.2 time ?_⟩
    exact h.entries hkeyed hmem hsettled.1 (hkept.id ▸ hentry)

/-! ## 5. Due deletions -/

/-- The jobs have all become terminal by a deadline. -/
def FinishedBefore (store : Store) (jobs : List Job) (deadline : Instant) : Prop :=
  ∀ job ∈ jobs, job.status.terminal ∧ (∃ time, (job.id, time) ∈ store.ended) ∧
    ∀ time, (job.id, time) ∈ store.ended → time ≤ deadline

/-- The promoted object of an upload may go: its jobs have ended a retention window ago, or its
promotion is stuck or has failed for an hour. -/
def Due (store : Store) (upload : UploadRequest) : Prop :=
  (upload.promotionStatus = .attached ∧ jobsOf store.db upload ≠ [] ∧
      FinishedBefore store (jobsOf store.db upload)
        (store.clock - (inputCategory upload.purpose).window)) ∨
    (upload.promotionStatus = .copying ∨ upload.promotionStatus = .failed) ∧
      jobsOf store.db upload = [] ∧ upload.promotionStatusChangedAt ≤ store.clock - hours 1

/-- The output of an issuance may go. -/
def OutputDue (store : Store) (issuance : Issuance) : Prop :=
  let jobs := store.db.jobs.filter fun job ↦ job.issuanceId = some issuance.id
  jobs ≠ [] ∧ (∃ job ∈ jobs, job.status = .succeeded) ∧
    FinishedBefore store jobs (store.clock - days 30)

theorem finishedBefore_of_settled {run : CleanupRun} {candidate : Candidate}
    (hended : EndedOk store) (hnow : run.now ≤ store.clock)
    (hsettled : Settled store run candidate .latestBefore) :
    FinishedBefore store (relatedJobs store.db candidate.category candidate.pk)
      (store.clock - candidate.category.window) := by
  intro job hjob
  obtain ⟨hterminal, htimes⟩ := hsettled job hjob
  refine ⟨hterminal, hended.finished job (mem_jobs_of_related hjob) hterminal, ?_⟩
  exact fun time hentry ↦ (htimes time hentry).trans (Int.sub_le_sub_right hnow _)

/-- A deletion whose checks have all passed is due. -/
theorem due_of_settled {run : CleanupRun} {candidate : Candidate} {upload : UploadRequest}
    (hledger : Ledger store.db) (hkeyed : store.db.Keyed) (hended : EndedOk store)
    (hnow : run.now ≤ store.clock) (hrecord : candidate.record store.db = some (.upload upload))
    (heligible : (LockedRecord.upload upload).eligible candidate.category run.now = true)
    (hfield : candidate.category.field = .promotionTargetDeletedAt)
    (hsettled : ∀ query ∈ candidate.category.jobQueries, Settled store run candidate query) :
    Due store upload := by
  obtain ⟨hmem, hid, -⟩ := record_upload hrecord
  have hinput : upload.promotionStatus = .attached →
      candidate.category = inputCategory upload.purpose →
      .exist ∈ candidate.category.jobQueries → .latestBefore ∈ candidate.category.jobQueries →
      Due store upload := by
    intro hattached hcategory hexist hlatest
    have hjobs := relatedJobs_input hledger hkeyed hmem
    rw [← hcategory, hid] at hjobs
    refine .inl ⟨hattached, ?_, ?_⟩
    · rw [← hjobs]
      exact hsettled _ hexist
    · rw [← hjobs, ← hcategory]
      exact finishedBefore_of_settled hended hnow (hsettled _ hlatest)
  -- only the three categories that delete a promotion's target stamp this field
  cases hcategory : candidate.category with
  | stalePromotion state =>
    rw [hcategory] at heligible
    simp only [LockedRecord.eligible, Bool.and_eq_true, Bool.or_eq_true, decide_eq_true_eq]
      at heligible
    obtain ⟨⟨⟨-, hstatus⟩, hstate⟩, hwindow⟩ := heligible
    have hnot : upload.promotionStatus = .copying ∨ upload.promotionStatus = .failed := by
      rw [hstatus]
      exact hstate.symm
    obtain ⟨-, -, -, hjobs, -⟩ := hledger.of_unattached hkeyed hmem
      (by rcases hnot with h | h <;> simp [h])
    exact .inr ⟨hnot, hjobs, hwindow.trans (Int.sub_le_sub_right hnow _)⟩
  | issuanceInput =>
    rw [hcategory] at heligible
    simp only [LockedRecord.eligible, Bool.and_eq_true, decide_eq_true_eq] at heligible
    exact hinput heligible.1.2 (by rw [hcategory, heligible.2]; rfl)
      (by rw [hcategory]; decide) (by rw [hcategory]; decide)
  | verificationInput =>
    rw [hcategory] at heligible
    simp only [LockedRecord.eligible, Bool.and_eq_true, decide_eq_true_eq] at heligible
    exact hinput heligible.1.2 (by rw [hcategory, heligible.2]; rfl)
      (by rw [hcategory]; decide) (by rw [hcategory]; decide)
  | issuanceOutput | orphan => simp [hcategory, Category.field] at hfield

theorem outputDue_of_settled {run : CleanupRun} {candidate : Candidate} {issuance : Issuance}
    (hended : EndedOk store) (hnow : run.now ≤ store.clock)
    (hrecord : candidate.record store.db = some (.issuance issuance))
    (hsettled : ∀ query ∈ candidate.category.jobQueries, Settled store run candidate query) :
    OutputDue store issuance := by
  obtain ⟨-, hid, -, hcategory⟩ := record_issuance hrecord
  have hqueries : candidate.category.jobQueries =
      [.exist, .allTerminal, .oneSucceeded, .latestBefore] := by rw [hcategory]; rfl
  have hexist := hsettled .exist (by simp [hqueries])
  have hsucceeded := hsettled .oneSucceeded (by simp [hqueries])
  have hfinished := finishedBefore_of_settled hended hnow
    (hsettled .latestBefore (by simp [hqueries]))
  simp only [Settled, hcategory, ← hid] at hexist hsucceeded hfinished
  exact ⟨hexist, hsucceeded, hfinished⟩

/-- What is due stays due, as long as the promotion of the row does not change. -/
theorem Due.advance {upload upload' : UploadRequest} (h : Advance formats settings store store')
    (hkeyed : store.db.Keyed) (hkeyed' : store'.db.Keyed) (hledger : Ledger store.db)
    (hledger' : Ledger store'.db) (hmem : upload ∈ store.db.uploads)
    (hmem' : upload' ∈ store'.db.uploads) (hid : upload'.id = upload.id)
    (hpurpose : upload'.purpose = upload.purpose)
    (hstatus : upload'.promotionStatus = upload.promotionStatus)
    (hchanged : upload'.promotionStatusChangedAt = upload.promotionStatusChangedAt)
    (hdue : Due store upload) : Due store' upload' := by
  rcases hdue with ⟨hattached, -, hfinished⟩ | ⟨hnot, -, hold⟩
  · have hattached' := hstatus.trans hattached
    obtain ⟨-, job, event, hjobs, -⟩ := hledger.of_attached hkeyed hmem hattached
    obtain ⟨-, job', event', hjobs', -⟩ := hledger'.of_attached hkeyed' hmem' hattached'
    have hrelated := relatedJobs_input hledger hkeyed hmem
    have hrelated' := relatedJobs_input hledger' hkeyed' hmem'
    rw [hpurpose, hid] at hrelated'
    have hkept := h.related hkeyed (hrelated.trans hjobs) (hrelated'.trans hjobs')
    have hjob : job ∈ store.db.jobs :=
      mem_jobs_of_related ((hrelated.trans hjobs).symm ▸ List.mem_singleton_self job)
    obtain ⟨hterminal, ⟨time, htime⟩, htimes⟩ :=
      hfinished job (hjobs ▸ List.mem_singleton_self job)
    refine .inl ⟨hattached', by simp [hjobs'], ?_⟩
    rw [hjobs', hpurpose]
    intro other hother
    rw [List.mem_singleton.mp hother]
    refine ⟨hkept.terminal hterminal ▸ hterminal, ⟨time, hkept.id ▸ h.kept _ htime⟩, ?_⟩
    intro time' hentry
    exact (htimes time' (h.entries hkeyed hjob hterminal (hkept.id ▸ hentry))).trans
      (Int.sub_le_sub_right h.clock _)
  · have hnot' : upload'.promotionStatus = .copying ∨ upload'.promotionStatus = .failed := by
      rw [hstatus]
      exact hnot
    obtain ⟨-, -, -, hjobs, -⟩ := hledger'.of_unattached hkeyed' hmem'
      (by rcases hnot' with h | h <;> simp [h])
    exact .inr ⟨hnot', hjobs, hchanged.le.trans (hold.trans (Int.sub_le_sub_right h.clock _))⟩

end Platform

end Splitbind
