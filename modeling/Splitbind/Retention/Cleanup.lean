import Splitbind.Retention.Reconciliation
import Splitbind.Library.RetryQueue

/-!
# Cleanup — the run of `cleanup_expired` and what its steps leave of the candidates

A run attempts candidates in the order of `_ordinary_candidates`, each at most once, and takes
turns with the reconciliation of tombstones.  What it attempted is forgotten when it ends.
-/

namespace Splitbind

open Transaction

/-! ## 1. The run -/

/-- `MAX_BATCH_SIZE`. -/
def maxBatchSize : Nat := 500

/-- What an iteration reads if it reconciles: the two clocks, the claim's token, and whether the
storage deletes the tombstoned key. -/
structure CleanupReading where
  claimedAt : Instant
  token : UUID
  reconciled : Bool
  acknowledgedAt : Instant

/-- The local variables of `cleanup_expired`, and the database. -/
structure CleanupState where
  attempted : List (DeletionField × UUID)
  deleted : Nat
  db : Database

/-- `_run_ordinary_once`; `none` when there is no candidate left. -/
def runOrdinaryOnce (deletes : ObjectKey → Bool) (now : Instant) (run : CleanupState) :
    Option CleanupState :=
  match ordinaryCandidates now 1 run.attempted run.db with
  | [] => none
  | candidate :: _ =>
    let (completed, db) := deleteOne deletes candidate now run.db
    some ⟨candidate.attempted :: run.attempted, run.deleted + completed.toNat,
      markOrdinaryAttempt db⟩

/-- `_run_reconciliation_once` once it has its claim. -/
def runClaim (now : Instant) (reading : CleanupReading) (claim : ReconciliationClaim)
    (db : Database) : Database :=
  let attempt := match reconciliationTarget claim db with
    | .inl attempt => attempt
    | .inr _ => deletionAttempt reading.reconciled
  if attempt.acknowledge then
    (ackReconciliation claim now reading.acknowledgedAt attempt.succeeded db).2
  else
    (recordClaimRetry claim now reading.acknowledgedAt db).2

/-- `_run_reconciliation_once`. -/
def runReconciliationOnce (leaseSeconds : Nat) (now : Instant) (reading : CleanupReading)
    (db : Database) : Bool × Database :=
  match claimReconciliation leaseSeconds reading.claimedAt reading.token db with
  | (none, db) => (false, db)
  | (some claim, db) => (true, runClaim now reading claim db)

section Run

variable (leaseSeconds : Nat) (deletes : ObjectKey → Bool) (now : Instant)

/-- One iteration of `cleanup_expired`, and whether the loop goes on. -/
def cleanupStep (reading : CleanupReading) (run : CleanupState) : Bool × CleanupState :=
  match run.db.schedule.nextLane with
  | .ordinary =>
    match runOrdinaryOnce deletes now run with
    | some run => (true, run)
    | none =>
      let (ran, db) := runReconciliationOnce leaseSeconds now reading run.db
      (ran, { run with db := db })
  | .reconciliation =>
    let (ran, db) := runReconciliationOnce leaseSeconds now reading run.db
    if ran then
      (true, { run with db := db })
    else
      match runOrdinaryOnce deletes now { run with db := db } with
      | some run => (true, run)
      | none => (false, { run with db := db })

/-- The loop of `cleanup_expired`. -/
def cleanupLoop : List CleanupReading → CleanupState → CleanupState
  | [], run => run
  | reading :: readings, run =>
    match cleanupStep leaseSeconds deletes now reading run with
    | (true, run) => cleanupLoop readings run
    | (false, run) => run

/-- A run of an accepted batch size. -/
def cleanupRun (readings : Nat → CleanupReading) (batchSize : Nat) (db : Database) : CleanupState :=
  cleanupLoop leaseSeconds deletes now ((List.range batchSize).map readings) ⟨[], 0, db⟩

/-- `cleanup_expired`; the call returns the count of `deleted`. -/
def cleanupExpired (readings : Nat → CleanupReading) (batchSize : Int) (db : Database) :
    Except Raised CleanupState := do
  raiseIf (¬ (1 ≤ batchSize ∧ batchSize ≤ maxBatchSize)) (.value "cleanup batch size is invalid")
  return cleanupRun leaseSeconds deletes now readings batchSize.toNat db

end Run

/-- Runs that follow one another with no other activity. -/
structure CleanupSeries where
  leaseSeconds : Nat
  deletes : ObjectKey → Bool
  /-- The time of each run. -/
  now : Nat → Instant
  batchSize : Nat
  /-- The database before the first run. -/
  db : Database

namespace CleanupSeries

variable (series : CleanupSeries) (readings : Nat → Nat → CleanupReading)

/-- The database before a run; the readings are those of each run and iteration. -/
def before : Nat → Database
  | 0 => series.db
  | r + 1 => (cleanupRun series.leaseSeconds series.deletes (series.now r) (readings r)
      series.batchSize (before r)).db

/-- What a run of the series ends with. -/
def run (r : Nat) : CleanupState :=
  cleanupRun series.leaseSeconds series.deletes (series.now r) (readings r) series.batchSize
    (series.before readings r)

end CleanupSeries

/-! ## 2. The candidates and their verdicts -/

/-- The candidates of a run, in the order it attempts them. -/
def expiredCandidates (now : Instant) (db : Database) : List Candidate :=
  stalePromotions db .failed now ++ stalePromotions db .copying now ++
    expiredInputs db .issuanceInput .issuance now ++
    expiredInputs db .verificationInput .verification now ++
    expiredOutputs db now ++ expiredOrphans db now

theorem ordinaryCandidates_eq (now : Instant) (limit : Nat)
    (excluded : List (DeletionField × UUID)) (db : Database) :
    ordinaryCandidates now limit excluded db =
      ((expiredCandidates now db).filter fun candidate ↦ candidate.attempted ∉ excluded).take
        limit := rfl

/-- Whether a candidate's row owns its key and the storage deletes the key. -/
def Candidate.deletable (deletes : ObjectKey → Bool) (db : Database) (candidate : Candidate) :
    Bool :=
  (candidate.record db).any fun record ↦ (record.ownedKey candidate.category).any deletes

/-! ## 3. What cleanup steps change -/

/-- The upload that cleanup steps made of another, where `done` are the deletions they
evidenced. -/
structure UploadCleaned (done : List (DeletionField × UUID)) (upload upload' : UploadRequest) :
    Prop where
  same : upload' = { upload with
    orphanDeletedAt := upload'.orphanDeletedAt
    promotionTargetDeletedAt := upload'.promotionTargetDeletedAt
    promotionTargetReconciledAt := upload'.promotionTargetReconciledAt }
  target : upload'.promotionTargetDeletedAt = none ↔
    upload.promotionTargetDeletedAt = none ∧ (.promotionTargetDeletedAt, upload.id) ∉ done
  orphan : upload'.orphanDeletedAt = none ↔
    upload.orphanDeletedAt = none ∧ (.orphanDeletedAt, upload.id) ∉ done

structure IssuanceCleaned (done : List (DeletionField × UUID)) (issuance issuance' : Issuance) :
    Prop where
  same : issuance' = { issuance with outputDeletedAt := issuance'.outputDeletedAt }
  output : issuance'.outputDeletedAt = none ↔
    issuance.outputDeletedAt = none ∧ (.outputDeletedAt, issuance.id) ∉ done

/-- Cleanup steps write deletion evidence and nothing else that a candidate depends on. -/
structure Cleaned (done : List (DeletionField × UUID)) (db db' : Database) : Prop where
  uploads : ∃ clean, db'.uploads = db.uploads.map clean ∧
    ∀ upload ∈ db.uploads, UploadCleaned done upload (clean upload)
  issuances : ∃ clean, db'.issuances = db.issuances.map clean ∧
    ∀ issuance ∈ db.issuances, IssuanceCleaned done issuance (clean issuance)
  recipients : db'.recipients = db.recipients
  jobs : db'.jobs = db.jobs
  documents : db'.documents = db.documents
  verifications : db'.verifications = db.verifications

namespace UploadCleaned

theorem refl (upload : UploadRequest) : UploadCleaned [] upload upload :=
  ⟨rfl, by simp, by simp⟩

variable {done done' : List (DeletionField × UUID)} {upload upload' upload'' : UploadRequest}

theorem id_eq (h : UploadCleaned done upload upload') : upload'.id = upload.id := by
  rw [h.same]

theorem trans (h : UploadCleaned done upload upload')
    (h' : UploadCleaned done' upload' upload'') :
    UploadCleaned (done' ++ done) upload upload'' where
  same := by rw [h'.same, h.same]
  target := by
    rw [h'.target, h.target, h.id_eq, List.mem_append, not_or, and_assoc]
    exact and_congr_right fun _ ↦ and_comm
  orphan := by
    rw [h'.orphan, h.orphan, h.id_eq, List.mem_append, not_or, and_assoc]
    exact and_congr_right fun _ ↦ and_comm

end UploadCleaned

namespace IssuanceCleaned

theorem refl (issuance : Issuance) : IssuanceCleaned [] issuance issuance :=
  ⟨rfl, by simp⟩

variable {done done' : List (DeletionField × UUID)} {issuance issuance' issuance'' : Issuance}

theorem id_eq (h : IssuanceCleaned done issuance issuance') : issuance'.id = issuance.id := by
  rw [h.same]

theorem trans (h : IssuanceCleaned done issuance issuance')
    (h' : IssuanceCleaned done' issuance' issuance'') :
    IssuanceCleaned (done' ++ done) issuance issuance'' where
  same := by rw [h'.same, h.same]
  output := by
    rw [h'.output, h.output, h.id_eq, List.mem_append, not_or, and_assoc]
    exact and_congr_right fun _ ↦ and_comm

end IssuanceCleaned

instance {α : Type} (time : α → Instant) (id : α → UUID) : Std.Total (rowBefore time id) where
  total a b := by
    rcases lt_trichotomy (time a) (time b) with h | h | h
    · exact .inl (.inl h)
    · rcases BitVec.le_total (id a).value (id b).value with hle | hle
      · exact .inl (.inr ⟨h, hle⟩)
      · exact .inr (.inr ⟨h.symm, hle⟩)
    · exact .inr (.inl h)

instance {α : Type} (time : α → Instant) (id : α → UUID) : IsTrans α (rowBefore time id) where
  trans a b c hab hbc := by
    rcases hab with hab | ⟨hab, hid⟩ <;> rcases hbc with hbc | ⟨hbc, hid'⟩
    · exact .inl (lt_trans hab hbc)
    · exact .inl (hbc ▸ hab)
    · exact .inl (hab ▸ hbc)
    · exact .inr ⟨hab.trans hbc, BitVec.le_trans hid hid'⟩

/-- The candidates of a query after its rows were cleaned. -/
theorem candidates_map {α : Type} {time : α → Instant} {id : α → UUID} {rows : List α}
    {clean : α → α} {selects selects' : α → Bool} {category : Category}
    {done : List (DeletionField × UUID)}
    (hsame : ∀ row ∈ rows, time (clean row) = time row ∧ id (clean row) = id row)
    (hselects : ∀ row ∈ rows, selects' (clean row) = true ↔
      selects row = true ∧ (category.field, id row) ∉ done) :
    (((rows.map clean).filter selects').insertionSort (rowBefore time id)).map
        (fun row ↦ (⟨category, id row⟩ : Candidate)) =
      ((((rows.filter selects).insertionSort (rowBefore time id)).map
        fun row ↦ (⟨category, id row⟩ : Candidate)).filter
          fun candidate ↦ candidate.attempted ∉ done) := by
  have hfilter : (rows.map clean).filter selects' =
      ((rows.filter selects).filter fun row ↦ (category.field, id row) ∉ done).map clean := by
    rw [List.filter_map, List.filter_filter]
    congr 1
    refine List.filter_congr fun row hrow ↦ ?_
    rw [Function.comp_apply, Bool.eq_iff_iff, hselects row hrow, Bool.and_eq_true,
      decide_eq_true_eq, and_comm]
  have hmem : ∀ row ∈ (rows.filter selects).filter (fun row ↦ (category.field, id row) ∉ done),
      row ∈ rows := fun row hrow ↦ List.mem_of_mem_filter (List.mem_of_mem_filter hrow)
  have hsort : ∀ a ∈ (rows.filter selects).filter (fun row ↦ (category.field, id row) ∉ done),
      ∀ b ∈ (rows.filter selects).filter (fun row ↦ (category.field, id row) ∉ done),
        rowBefore time id a b ↔ rowBefore time id (clean a) (clean b) := by
    intro a ha b hb
    rw [rowBefore, rowBefore, (hsame a (hmem a ha)).1, (hsame a (hmem a ha)).2,
      (hsame b (hmem b hb)).1, (hsame b (hmem b hb)).2]
  rw [hfilter, ← List.map_insertionSort (rowBefore time id) (rowBefore time id) clean _ hsort,
    List.map_map, List.filter_map, Table.filter_insertionSort]
  refine List.map_congr_left fun row hrow ↦ ?_
  rw [Function.comp_apply, (hsame row (hmem row ((List.mem_insertionSort _).mp hrow))).2]

namespace Cleaned

variable {done done' : List (DeletionField × UUID)} {db db' db'' : Database}

theorem refl (db : Database) : Cleaned [] db db where
  uploads := ⟨id, (List.map_id _).symm, fun upload _ ↦ .refl upload⟩
  issuances := ⟨id, (List.map_id _).symm, fun issuance _ ↦ .refl issuance⟩
  recipients := rfl
  jobs := rfl
  documents := rfl
  verifications := rfl

theorem trans (h : Cleaned done db db') (h' : Cleaned done' db' db'') :
    Cleaned (done' ++ done) db db'' where
  uploads := by
    obtain ⟨clean, hmap, hclean⟩ := h.uploads
    obtain ⟨clean', hmap', hclean'⟩ := h'.uploads
    refine ⟨clean' ∘ clean, by rw [hmap', hmap, List.map_map], fun upload hupload ↦ ?_⟩
    exact (hclean upload hupload).trans
      (hclean' _ (hmap ▸ List.mem_map_of_mem hupload))
  issuances := by
    obtain ⟨clean, hmap, hclean⟩ := h.issuances
    obtain ⟨clean', hmap', hclean'⟩ := h'.issuances
    refine ⟨clean' ∘ clean, by rw [hmap', hmap, List.map_map], fun issuance hissuance ↦ ?_⟩
    exact (hclean issuance hissuance).trans
      (hclean' _ (hmap ▸ List.mem_map_of_mem hissuance))
  recipients := h'.recipients.trans h.recipients
  jobs := h'.jobs.trans h.jobs
  documents := h'.documents.trans h.documents
  verifications := h'.verifications.trans h.verifications

theorem saveSchedule (h : Cleaned done db db') (schedule : CleanupScheduleState) :
    Cleaned done db (db'.saveSchedule schedule) :=
  ⟨h.uploads, h.issuances, h.recipients, h.jobs, h.documents, h.verifications⟩

/-- The jobs of a candidate do not depend on deletion evidence. -/
theorem relatedJobs (h : Cleaned done db db') (category : Category) (pk : UUID) :
    relatedJobs db' category pk = relatedJobs db category pk := by
  obtain ⟨clean, hmap, hclean⟩ := h.issuances
  have hany : ∀ p : Issuance → Bool, (∀ issuance ∈ db.issuances, p (clean issuance) = p issuance) →
      db'.issuances.any p = db.issuances.any p := by
    intro p hp
    rw [hmap, List.any_map, Bool.eq_iff_iff, List.any_eq_true, List.any_eq_true]
    exact exists_congr fun issuance ↦ and_congr_right fun hmem ↦ by
      rw [Function.comp_apply, hp issuance hmem]
  cases category with
  | issuanceInput =>
    rw [Splitbind.relatedJobs, Splitbind.relatedJobs, h.jobs, h.documents]
    refine List.filter_congr fun job _ ↦ hany _ fun issuance hissuance ↦ ?_
    rw [(hclean issuance hissuance).same]
  | verificationInput => rw [Splitbind.relatedJobs, Splitbind.relatedJobs, h.jobs, h.verifications]
  | issuanceOutput => rw [Splitbind.relatedJobs, Splitbind.relatedJobs, h.jobs]
  | stalePromotion _ => rfl
  | orphan => rfl

/-- **The candidates afterwards** are those whose deletion was not evidenced, in their order. -/
theorem expired (h : Cleaned done db db') (now : Instant) :
    expiredCandidates now db' =
      (expiredCandidates now db).filter fun candidate ↦ candidate.attempted ∉ done := by
  obtain ⟨clean, hmap, hclean⟩ := h.uploads
  obtain ⟨cleanIssuance, hmapIssuance, hcleanIssuance⟩ := h.issuances
  have hupload : ∀ upload ∈ db.uploads,
      (clean upload).createdAt = upload.createdAt ∧ (clean upload).id = upload.id := by
    intro upload hupload
    rw [(hclean upload hupload).same]
    exact ⟨rfl, rfl⟩
  -- each category keeps its order and loses exactly the rows whose field is now stamped
  have hstale : ∀ state, stalePromotions db' state now =
      (stalePromotions db state now).filter fun candidate ↦ candidate.attempted ∉ done := by
    intro state
    rw [stalePromotions, stalePromotions, uploadCandidates, uploadCandidates, hmap]
    refine candidates_map hupload fun upload hmem ↦ ?_
    have htarget := (hclean upload hmem).target
    rw [(hclean upload hmem).same] at htarget ⊢
    simp only [Bool.and_eq_true, decide_eq_true_eq, htarget, Category.field]
    tauto
  have hinputs : ∀ category purpose, category.field = .promotionTargetDeletedAt →
      expiredInputs db' category purpose now =
        (expiredInputs db category purpose now).filter fun candidate ↦
          candidate.attempted ∉ done := by
    intro category purpose hfield
    rw [expiredInputs, expiredInputs, uploadCandidates, uploadCandidates, hmap]
    refine candidates_map hupload fun upload hmem ↦ ?_
    have htarget := (hclean upload hmem).target
    rw [(hclean upload hmem).same] at htarget ⊢
    simp only [Bool.and_eq_true, decide_eq_true_eq, htarget, hfield,
      h.relatedJobs]
    tauto
  have houtputs : expiredOutputs db' now =
      (expiredOutputs db now).filter fun candidate ↦ candidate.attempted ∉ done := by
    rw [expiredOutputs, expiredOutputs, hmapIssuance]
    refine candidates_map (fun issuance hmem ↦ ?_) fun issuance hmem ↦ ?_
    · rw [(hcleanIssuance issuance hmem).same]
      exact ⟨rfl, rfl⟩
    · have houtput := (hcleanIssuance issuance hmem).output
      rw [(hcleanIssuance issuance hmem).same] at houtput ⊢
      simp only [Bool.and_eq_true, decide_eq_true_eq, houtput, Category.field,
        h.relatedJobs]
      tauto
  have horphans : expiredOrphans db' now =
      (expiredOrphans db now).filter fun candidate ↦ candidate.attempted ∉ done := by
    rw [expiredOrphans, expiredOrphans, uploadCandidates, uploadCandidates, hmap]
    refine candidates_map hupload fun upload hmem ↦ ?_
    have horphan := (hclean upload hmem).orphan
    rw [(hclean upload hmem).same] at horphan ⊢
    simp only [Bool.and_eq_true, decide_eq_true_eq, horphan, Category.field]
    tauto
  rw [expiredCandidates, expiredCandidates, hstale, hstale, hinputs _ _ rfl, hinputs _ _ rfl,
    houtputs, horphans]
  simp only [List.filter_append]

theorem keyed (h : Cleaned done db db') (hkeyed : db.Keyed) : db'.Keyed := by
  obtain ⟨clean, hmap, hclean⟩ := h.uploads
  obtain ⟨cleanIssuance, hmapIssuance, hcleanIssuance⟩ := h.issuances
  have huploads : db'.uploads.map (·.id) = db.uploads.map (·.id) := by
    rw [hmap, List.map_map]
    exact List.map_congr_left fun upload hupload ↦ (hclean upload hupload).id_eq
  have hissuances : db'.issuances.map (·.id) = db.issuances.map (·.id) := by
    rw [hmapIssuance, List.map_map]
    exact List.map_congr_left fun issuance hissuance ↦ (hcleanIssuance issuance hissuance).id_eq
  exact ⟨huploads ▸ hkeyed.uploads, h.recipients ▸ hkeyed.recipients,
    h.documents ▸ hkeyed.documents, hissuances ▸ hkeyed.issuances,
    h.verifications ▸ hkeyed.verifications, h.jobs ▸ hkeyed.jobs⟩

/-- Whether a deletion can succeed does not depend on the evidence of others. -/
theorem deletable (h : Cleaned done db db') (deletes : ObjectKey → Bool) (candidate : Candidate) :
    candidate.deletable deletes db' = candidate.deletable deletes db := by
  obtain ⟨clean, hmap, hclean⟩ := h.uploads
  obtain ⟨cleanIssuance, hmapIssuance, hcleanIssuance⟩ := h.issuances
  have hupload := Table.find?_map_of_column UploadRequest.id
    (fun upload hupload ↦ (hclean upload hupload).id_eq) candidate.pk
  have hissuance := Table.find?_map_of_column Issuance.id
    (fun issuance hissuance ↦ (hcleanIssuance issuance hissuance).id_eq) candidate.pk
  unfold Candidate.deletable Candidate.record
  rw [hmap, hmapIssuance, hupload, hissuance]
  split
  · rcases hfind : db.issuances.find? fun issuance ↦ issuance.id = candidate.pk with _ | issuance
    · rw [hfind]
      rfl
    · have hsame := (hcleanIssuance issuance (List.mem_of_find?_eq_some hfind)).same
      rw [hfind, Option.map_some, Option.map_some, Option.map_some, hsame]
      rfl
  · rcases hfind : db.uploads.find? fun upload ↦ upload.id = candidate.pk with _ | upload
    · rw [hfind]
      rfl
    · have hsame := (hclean upload (List.mem_of_find?_eq_some hfind)).same
      rw [hfind, Option.map_some, Option.map_some, Option.map_some, hsame]
      rfl

end Cleaned

/-! ## 4. Attempting one candidate -/

/-- The jobs of a candidate of a query pass the checks of its locked row. -/
theorem finishedBefore_holds {jobs : List Job} {deadline : Instant}
    (h : finishedBefore jobs deadline = true) :
    ∀ query ∈ [JobQuery.exist, .allTerminal, .latestBefore], query.holds jobs deadline = true := by
  simp only [finishedBefore, Bool.and_eq_true, Bool.not_eq_true', List.any_eq_true,
    List.any_eq_false, decide_eq_true_eq, not_and, not_lt, not_not] at h
  obtain ⟨⟨⟨job, hjob, -⟩, hterminal⟩, hrecent⟩ := h
  have hne : jobs ≠ [] := List.ne_nil_of_mem hjob
  intro query hquery
  simp only [List.mem_cons, List.not_mem_nil, or_false] at hquery
  rcases hquery with rfl | rfl | rfl
  · simpa [JobQuery.holds] using hne
  · simpa [JobQuery.holds] using hterminal
  · simp only [JobQuery.holds, Bool.and_eq_true, decide_eq_true_eq, List.all_eq_true]
    exact ⟨hne, fun job hjob ↦ hrecent job hjob (hterminal job hjob)⟩

theorem outputFinishedBefore_holds {jobs : List Job} {deadline : Instant}
    (h : outputFinishedBefore jobs deadline = true) :
    ∀ query ∈ Category.issuanceOutput.jobQueries, query.holds jobs deadline = true := by
  have hfinished : finishedBefore jobs deadline = true := by
    simp only [outputFinishedBefore, finishedBefore, Bool.and_eq_true, List.any_eq_true,
      decide_eq_true_eq] at h ⊢
    obtain ⟨⟨⟨job, hjob, hstatus⟩, hterminal⟩, hrecent⟩ := h
    exact ⟨⟨⟨job, hjob, by rw [hstatus]; decide⟩, hterminal⟩, hrecent⟩
  simp only [outputFinishedBefore, Bool.and_eq_true] at h
  intro query hquery
  by_cases hsucceeded : query = .oneSucceeded
  · rw [hsucceeded]
    exact h.1.1
  · refine finishedBefore_holds hfinished query ?_
    cases query <;> simp_all [Category.jobQueries]

/-- A candidate passes every check of its locked row. -/
structure Checked (now : Instant) (db : Database) (candidate : Candidate) (record : LockedRecord) :
    Prop where
  found : candidate.record db = some record
  eligible : record.eligible candidate.category now = true
  passes : candidate.category.jobQueries.all (fun query ↦ candidate.passes query now db) = true

theorem mem_uploadCandidates {db : Database} {category : Category} {selects : UploadRequest → Bool}
    {candidate : Candidate} (h : candidate ∈ uploadCandidates db category selects) :
    ∃ upload ∈ db.uploads, selects upload = true ∧ candidate = ⟨category, upload.id⟩ := by
  obtain ⟨upload, hmem, rfl⟩ := List.mem_map.mp h
  obtain ⟨hupload, hselects⟩ := List.mem_filter.mp ((List.mem_insertionSort _).mp hmem)
  exact ⟨upload, hupload, hselects, rfl⟩

theorem find?_upload {db : Database} (hkeyed : db.Keyed) {upload : UploadRequest}
    (hmem : upload ∈ db.uploads) :
    db.uploads.find? (fun other ↦ other.id = upload.id) = some upload :=
  Table.find?_eq_some hkeyed.uploads hmem (by simp) (by simp)

theorem find?_issuance {db : Database} (hkeyed : db.Keyed) {issuance : Issuance}
    (hmem : issuance ∈ db.issuances) :
    db.issuances.find? (fun other ↦ other.id = issuance.id) = some issuance :=
  Table.find?_eq_some hkeyed.issuances hmem (by simp) (by simp)

/-- **Every candidate is eligible**: its locked row passes the checks the queries stand for. -/
theorem checked_of_mem_expiredCandidates {now : Instant} {db : Database} (hkeyed : db.Keyed)
    {candidate : Candidate} (h : candidate ∈ expiredCandidates now db) :
    ∃ record, Checked now db candidate record := by
  have hinput : ∀ category purpose, candidate ∈ expiredInputs db category purpose now →
      category = .issuanceInput ∧ purpose = .issuance ∨
        category = .verificationInput ∧ purpose = .verification →
      ∃ record, Checked now db candidate record := by
    intro category purpose hmem hcategory
    obtain ⟨upload, hupload, hselects, rfl⟩ := mem_uploadCandidates hmem
    simp only [Bool.and_eq_true, decide_eq_true_eq] at hselects
    obtain ⟨⟨⟨hstatus, hdeleted⟩, hpurpose⟩, hfinished⟩ := hselects
    have hqueries := finishedBefore_holds hfinished
    rcases hcategory with ⟨rfl, rfl⟩ | ⟨rfl, rfl⟩
    · refine ⟨.upload upload, congrArg (Option.map _) (find?_upload hkeyed hupload), ?_,
        List.all_eq_true.mpr hqueries⟩
      simp [LockedRecord.eligible, hstatus, hdeleted, hpurpose]
    · refine ⟨.upload upload, congrArg (Option.map _) (find?_upload hkeyed hupload), ?_,
        List.all_eq_true.mpr hqueries⟩
      simp [LockedRecord.eligible, hstatus, hdeleted, hpurpose]
  have hstale : ∀ state, candidate ∈ stalePromotions db state now →
      state = .failed ∨ state = .copying → ∃ record, Checked now db candidate record := by
    intro state hmem hstate
    obtain ⟨upload, hupload, hselects, rfl⟩ := mem_uploadCandidates hmem
    simp only [Bool.and_eq_true, decide_eq_true_eq] at hselects
    obtain ⟨⟨⟨hstatus, hdeleted⟩, -⟩, hchanged⟩ := hselects
    refine ⟨.upload upload, congrArg (Option.map _) (find?_upload hkeyed hupload), ?_, rfl⟩
    simpa [LockedRecord.eligible, hstatus, hdeleted, hchanged] using hstate
  rw [expiredCandidates] at h
  simp only [List.mem_append] at h
  rcases h with ((((h | h) | h) | h) | h) | h
  · exact hstale _ h (.inl rfl)
  · exact hstale _ h (.inr rfl)
  · exact hinput _ _ h (.inl ⟨rfl, rfl⟩)
  · exact hinput _ _ h (.inr ⟨rfl, rfl⟩)
  · obtain ⟨issuance, hmem, rfl⟩ := List.mem_map.mp h
    obtain ⟨hissuance, hselects⟩ := List.mem_filter.mp ((List.mem_insertionSort _).mp hmem)
    simp only [Bool.and_eq_true, decide_eq_true_eq] at hselects
    refine ⟨.issuance issuance, congrArg (Option.map _) (find?_issuance hkeyed hissuance), ?_,
      List.all_eq_true.mpr (outputFinishedBefore_holds hselects.2)⟩
    simp [LockedRecord.eligible, hselects.1.1]
  · obtain ⟨upload, hupload, hselects, rfl⟩ := mem_uploadCandidates h
    simp only [Bool.and_eq_true, decide_eq_true_eq] at hselects
    refine ⟨.upload upload, congrArg (Option.map _) (find?_upload hkeyed hupload), ?_, rfl⟩
    simp [LockedRecord.eligible, hselects.1, hselects.2]

/-- A row the evidence of a deletion is not about. -/
theorem UploadCleaned.other {field : DeletionField} {pk : UUID} {upload : UploadRequest}
    (h : upload.id ≠ pk ∨ field = .outputDeletedAt) : UploadCleaned [(field, pk)] upload upload := by
  refine ⟨rfl, ?_, ?_⟩ <;> rcases h with h | rfl <;> simp [*]

theorem IssuanceCleaned.other {field : DeletionField} {pk : UUID} {issuance : Issuance}
    (h : issuance.id ≠ pk ∨ field ≠ .outputDeletedAt) :
    IssuanceCleaned [(field, pk)] issuance issuance := by
  refine ⟨rfl, ?_⟩
  rcases h with h | h
  · simp [h]
  · simp [Ne.symm h]

/-- The row a deletion is evidenced on. -/
theorem UploadCleaned.deleted {field : DeletionField} (h : field ≠ .outputDeletedAt)
    (upload : UploadRequest) (now : Instant) :
    UploadCleaned [(field, upload.id)] upload (upload.deleted field now) := by
  cases field with
  | promotionTargetDeletedAt => exact ⟨rfl, by simp [UploadRequest.deleted], by
      simp [UploadRequest.deleted]⟩
  | orphanDeletedAt => exact ⟨rfl, by simp [UploadRequest.deleted], by
      simp [UploadRequest.deleted]⟩
  | outputDeletedAt => exact absurd rfl h

/-- The evidence of one deletion. -/
theorem cleaned_recordDeletionEvidence {now : Instant} {db : Database} (hkeyed : db.Keyed)
    {candidate : Candidate} {record : LockedRecord} (h : Checked now db candidate record) :
    Cleaned [candidate.attempted] db (recordDeletionEvidence candidate record now db) := by
  obtain ⟨hfound, heligible, -⟩ := h
  cases record with
  | upload upload =>
    -- an upload's record: its field is one of the uploads', so no issuance is touched
    have hcategory : candidate.category ≠ .issuanceOutput := by
      intro hcategory
      simp [hcategory, LockedRecord.eligible] at heligible
    have hfield : candidate.category.field ≠ .outputDeletedAt := by
      revert hcategory
      cases candidate.category <;> simp [Category.field]
    have hfind : db.uploads.find? (fun other ↦ other.id = candidate.pk) = some upload := by
      unfold Candidate.record at hfound
      split at hfound
      · contradiction
      · simpa using hfound
    have hpk : upload.id = candidate.pk := by simpa using List.find?_some hfind
    have hsaved : (upload.deleted candidate.category.field now).id = upload.id :=
      (UploadCleaned.deleted hfield upload now).id_eq
    refine ⟨⟨_, rfl, fun other hother ↦ ?_⟩,
      ⟨id, (List.map_id _).symm, fun _ _ ↦ .other (.inr hfield)⟩, rfl, rfl, rfl, rfl⟩
    simp only [hsaved]
    by_cases hid : other.id = upload.id
    · have heq : other = upload := Option.some.inj
        ((find?_upload hkeyed hother).symm.trans (by rw [hid, hpk]; exact hfind))
      rw [if_pos hid, heq, Candidate.attempted, ← hpk]
      exact .deleted hfield upload now
    · rw [if_neg hid]
      exact .other (.inl (hpk ▸ hid))
  | issuance issuance =>
    -- an issuance's record: only the output's field can have been asked for
    have hcategory : candidate.category = .issuanceOutput := by
      cases hcategory : candidate.category <;> simp [hcategory, LockedRecord.eligible] at heligible
      rfl
    have hfind : db.issuances.find? (fun other ↦ other.id = candidate.pk) = some issuance := by
      simpa [Candidate.record, hcategory] using hfound
    have hpk : issuance.id = candidate.pk := by simpa using List.find?_some hfind
    have hfield : candidate.category.field = .outputDeletedAt := by rw [hcategory]; rfl
    refine ⟨⟨id, (List.map_id _).symm, fun _ _ ↦ .other (.inr hfield)⟩,
      ⟨_, rfl, fun other hother ↦ ?_⟩, rfl, rfl, rfl, rfl⟩
    by_cases hid : other.id = issuance.id
    · have heq : other = issuance := Option.some.inj
        ((find?_issuance hkeyed hother).symm.trans (by rw [hid, hpk]; exact hfind))
      rw [if_pos hid, heq, Candidate.attempted, ← hpk, hfield]
      exact ⟨rfl, by simp⟩
    · rw [if_neg hid]
      exact .other (.inl (hpk ▸ hid))

/-- **One attempt**: a candidate that can be deleted leaves, and nothing else changes. -/
theorem deleteOne_cleaned (deletes : ObjectKey → Bool) {now : Instant} {db : Database}
    (hkeyed : db.Keyed) {candidate : Candidate} (h : candidate ∈ expiredCandidates now db) :
    Cleaned (if candidate.deletable deletes db then [candidate.attempted] else []) db
        (deleteOne deletes candidate now db).2 ∧
      (deleteOne deletes candidate now db).2.schedule = db.schedule := by
  obtain ⟨record, hrecord⟩ := checked_of_mem_expiredCandidates hkeyed h
  have hpasses : (record.eligible candidate.category now &&
      candidate.category.jobQueries.all fun query ↦ candidate.passes query now db) = true := by
    rw [hrecord.eligible, hrecord.passes, Bool.and_self]
  have hdeletable : candidate.deletable deletes db =
      (record.ownedKey candidate.category).any deletes := by
    rw [Candidate.deletable, hrecord.found, Option.any_some]
  simp only [deleteOne, hrecord.found, hpasses, if_true, hdeletable]
  rcases record.ownedKey candidate.category with _ | key
  · exact ⟨.refl db, rfl⟩
  · by_cases hkey : deletes key = true
    · simp only [Option.any_some, hkey, if_true]
      exact ⟨cleaned_recordDeletionEvidence hkeyed hrecord, by cases record <;> rfl⟩
    · simp only [Option.any_some, hkey]
      exact ⟨⟨⟨id, (List.map_id _).symm, fun upload _ ↦ .refl upload⟩,
        ⟨id, (List.map_id _).symm, fun issuance _ ↦ .refl issuance⟩, rfl, rfl, rfl, rfl⟩, rfl⟩

end Splitbind
