import Mathlib.Data.List.Chain
import Splitbind.Retention.Starvation

/-!
# Batch — what a call of `cleanup_expired` attempts, counts and leaves

A call goes through its candidates from the front, so what it deleted can be counted on the rows;
it ends early only when neither lane has anything left.  The lane that is not served last has the
next turn, in this call or in a later one.
-/

namespace Splitbind

/-! ## 1. Deletion timestamps -/

namespace Database

/-- The rows and the timestamps a deletion is evidenced in. -/
def deletionPairs (db : Database) : List (DeletionField × UUID) :=
  db.uploads.map (fun upload ↦ (.promotionTargetDeletedAt, upload.id)) ++
    db.uploads.map (fun upload ↦ (.orphanDeletedAt, upload.id)) ++
    db.issuances.map fun issuance ↦ (.outputDeletedAt, issuance.id)

def deletedAt (db : Database) (pair : DeletionField × UUID) : Option Instant :=
  match pair.1 with
  | .promotionTargetDeletedAt =>
    (db.uploads.find? (·.id = pair.2)).bind (·.promotionTargetDeletedAt)
  | .orphanDeletedAt => (db.uploads.find? (·.id = pair.2)).bind (·.orphanDeletedAt)
  | .outputDeletedAt => (db.issuances.find? (·.id = pair.2)).bind (·.outputDeletedAt)

/-- The timestamps that went from null to set. -/
def newlyDeleted (db db' : Database) : List (DeletionField × UUID) :=
  db.deletionPairs.filter fun pair ↦ db.deletedAt pair = none ∧ db'.deletedAt pair ≠ none

theorem nodup_deletionPairs {db : Database} (hkeyed : db.Keyed) : db.deletionPairs.Nodup := by
  have hfield : ∀ {field pair} {ids : List UUID},
      pair ∈ ids.map (Prod.mk field : UUID → DeletionField × UUID) → pair.1 = field := by
    intro field pair ids hmem
    obtain ⟨_, -, rfl⟩ := List.mem_map.mp hmem
    rfl
  have hpairs : db.deletionPairs =
      (db.uploads.map (·.id)).map (Prod.mk .promotionTargetDeletedAt) ++
        (db.uploads.map (·.id)).map (Prod.mk .orphanDeletedAt) ++
        (db.issuances.map (·.id)).map (Prod.mk .outputDeletedAt) := by
    simp only [List.map_map]
    rfl
  rw [hpairs]
  refine List.Nodup.append (List.Nodup.append ?_ ?_ fun pair hpair hpair' ↦ ?_) ?_
    fun pair hpair hpair' ↦ ?_
  · exact hkeyed.uploads.map (Prod.mk_right_injective _)
  · exact hkeyed.uploads.map (Prod.mk_right_injective _)
  · exact absurd ((hfield hpair).symm.trans (hfield hpair')) (by decide)
  · exact hkeyed.issuances.map (Prod.mk_right_injective _)
  · rcases List.mem_append.mp hpair with hpair | hpair <;>
    exact absurd ((hfield hpair).symm.trans (hfield hpair')) (by decide)

end Database

/-- The row of a deletion timestamp. -/
theorem mem_deletionPairs {db : Database} {pair : DeletionField × UUID} :
    pair ∈ db.deletionPairs ↔
      (pair.1 ≠ .outputDeletedAt ∧ ∃ upload ∈ db.uploads, upload.id = pair.2) ∨
        pair.1 = .outputDeletedAt ∧ ∃ issuance ∈ db.issuances, issuance.id = pair.2 := by
  obtain ⟨field, id⟩ := pair
  cases field <;> simp [Database.deletionPairs]

/-- What cleanup steps evidenced is what became set. -/
theorem Cleaned.deletedAt {done : List (DeletionField × UUID)} {db db' : Database}
    (h : Cleaned done db db') {pair : DeletionField × UUID} (hpair : pair ∈ db.deletionPairs) :
    db'.deletedAt pair = none ↔ db.deletedAt pair = none ∧ pair ∉ done := by
  obtain ⟨clean, hmap, hclean⟩ := h.uploads
  obtain ⟨cleanIssuance, hmapIssuance, hcleanIssuance⟩ := h.issuances
  obtain ⟨field, id⟩ := pair
  have hupload := Table.find?_map_of_column UploadRequest.id
    (fun upload hupload ↦ (hclean upload hupload).id_eq) id
  have hissuance := Table.find?_map_of_column Issuance.id
    (fun issuance hissuance ↦ (hcleanIssuance issuance hissuance).id_eq) id
  rcases mem_deletionPairs.mp hpair with ⟨hfield, hrow⟩ | ⟨hfield, hrow⟩
  · have hsome := List.find?_isSome (p := fun upload : UploadRequest ↦ decide (upload.id = id)).mpr
      (by simpa using hrow)
    obtain ⟨upload, hfind⟩ := Option.isSome_iff_exists.mp hsome
    have hcleaned := hclean upload (List.mem_of_find?_eq_some hfind)
    have hid : upload.id = id := by simpa using List.find?_some hfind
    cases field with
    | promotionTargetDeletedAt =>
      simp only [Database.deletedAt, hmap, hupload, hfind, Option.map_some, Option.bind_some]
      rw [hcleaned.target, hid]
    | orphanDeletedAt =>
      simp only [Database.deletedAt, hmap, hupload, hfind, Option.map_some, Option.bind_some]
      rw [hcleaned.orphan, hid]
    | outputDeletedAt => exact absurd rfl hfield
  · have hsome := List.find?_isSome (p := fun issuance : Issuance ↦ decide (issuance.id = id)).mpr
      (by simpa using hrow)
    obtain ⟨issuance, hfind⟩ := Option.isSome_iff_exists.mp hsome
    have hcleaned := hcleanIssuance issuance (List.mem_of_find?_eq_some hfind)
    have hid : issuance.id = id := by simpa using List.find?_some hfind
    cases hfield
    simp only [Database.deletedAt, hmapIssuance, hissuance, hfind, Option.map_some,
      Option.bind_some]
    rw [hcleaned.output, hid]

/-- A candidate stands for a timestamp that is null. -/
theorem deletedAt_of_mem_expiredCandidates {now : Instant} {db : Database} (hkeyed : db.Keyed)
    {candidate : Candidate} (h : candidate ∈ expiredCandidates now db) :
    candidate.attempted ∈ db.deletionPairs ∧ db.deletedAt candidate.attempted = none := by
  obtain ⟨record, hrecord⟩ := checked_of_mem_expiredCandidates hkeyed h
  have hfound := hrecord.found
  have heligible := hrecord.eligible
  rw [mem_deletionPairs]
  unfold Candidate.record at hfound
  split at hfound
  · rename_i hcategory
    obtain ⟨issuance, hfind, rfl⟩ := Option.map_eq_some_iff.mp hfound
    have hfield : candidate.category.field = .outputDeletedAt := by rw [hcategory]; rfl
    have hid : issuance.id = candidate.pk := by simpa using List.find?_some hfind
    refine ⟨.inr ⟨hfield, issuance, List.mem_of_find?_eq_some hfind, hid⟩, ?_⟩
    rw [hcategory] at heligible
    simp only [Database.deletedAt, Candidate.attempted, hfield, hfind, Option.bind_some]
    simpa [LockedRecord.eligible] using heligible
  · rename_i hcategory
    obtain ⟨upload, hfind, rfl⟩ := Option.map_eq_some_iff.mp hfound
    have hrow : ∃ upload ∈ db.uploads, upload.id = candidate.pk :=
      ⟨upload, List.mem_of_find?_eq_some hfind, by simpa using List.find?_some hfind⟩
    rcases hkind : candidate.category with state | _ | _ | _ | _ <;>
      rw [hkind] at heligible <;>
      simp only [LockedRecord.eligible, Bool.and_eq_true, decide_eq_true_eq,
        Bool.false_eq_true] at heligible <;>
      simp only [Database.deletedAt, Candidate.attempted, hkind, Category.field, hfind,
        Option.bind_some] <;>
      refine ⟨.inl ⟨by decide, hrow⟩, ?_⟩
    · exact heligible.1.1.1
    · exact heligible.1.1
    · exact heligible.1.1
    · exact heligible.1

/-- **The deletions of a run** are the timestamps that it went through and set. -/
theorem Progress.newlyDeleted {deletes : ObjectKey → Bool} {now : Instant} {start : Database}
    {k : Nat} {run : CleanupState} (hkeyed : start.Keyed) (h : Progress deletes now start k run) :
    (start.newlyDeleted run.db).length =
      ((expiredCandidates now start).take k).countP (Candidate.deletable deletes start) := by
  have hdone : (((expiredCandidates now start).take k).filter
      (Candidate.deletable deletes start)).Sublist (expiredCandidates now start) :=
    List.filter_sublist.trans (List.take_sublist _ _)
  have hperm : (start.newlyDeleted run.db).Perm ((((expiredCandidates now start).take k).filter
      (Candidate.deletable deletes start)).map Candidate.attempted) := by
    refine (List.perm_ext_iff_of_nodup ((Database.nodup_deletionPairs hkeyed).filter _)
      ((nodup_attempted now hkeyed).sublist (hdone.map _))).mpr fun pair ↦ ?_
    rw [List.mem_filter, decide_eq_true_eq]
    constructor
    · rintro ⟨hpair, hnull, hset⟩
      rw [ne_eq, h.cleaned.deletedAt hpair, not_and, not_not, List.mem_reverse] at hset
      exact hset hnull
    · intro hmem
      obtain ⟨candidate, hcandidate, rfl⟩ := List.mem_map.mp hmem
      obtain ⟨hpair, hnull⟩ :=
        deletedAt_of_mem_expiredCandidates hkeyed (hdone.subset hcandidate)
      refine ⟨hpair, hnull, fun hstill ↦ ?_⟩
      rw [h.cleaned.deletedAt hpair, List.mem_reverse] at hstill
      exact hstill.2 hmem
  rw [hperm.length_eq, List.length_map, List.countP_eq_length_filter]

/-! ## 2. Attempts -/

/-- What an iteration attempts. -/
inductive CleanupAttempt
  | ordinary (candidate : Candidate)
  | reconciliation
deriving DecidableEq, Repr

namespace CleanupAttempt

def lane : CleanupAttempt → CleanupLane
  | .ordinary _ => .ordinary
  | .reconciliation => .reconciliation

def candidate? : CleanupAttempt → Option Candidate
  | .ordinary candidate => some candidate
  | .reconciliation => none

end CleanupAttempt

/-- An iteration that attempted something, and the lanes that had work before it. -/
structure CleanupIteration where
  attempt : CleanupAttempt
  ordinaryWork : Bool
  reconciliationWork : Bool
deriving DecidableEq, Repr

/-- The candidates that iterations attempt, in their order. -/
def attemptedCandidates (iterations : List CleanupIteration) : List Candidate :=
  iterations.filterMap fun iteration ↦ iteration.attempt.candidate?

/-- Of two iterations, the second serves the other lane when both lanes have work. -/
def CleanupIteration.Alternates (first second : CleanupIteration) : Prop :=
  second.ordinaryWork = true → second.reconciliationWork = true →
    second.attempt.lane ≠ first.attempt.lane

section Run

variable (leaseSeconds : Nat) (deletes : ObjectKey → Bool) (now : Instant)

/-- What an iteration of `cleanup_expired` attempts: the preferred lane's work, or else the
other's. -/
def attemptOf (reading : CleanupReading) (run : CleanupState) : Option CleanupAttempt :=
  let ordinary := fun db ↦
    (ordinaryCandidates now 1 run.attempted db).head?.map CleanupAttempt.ordinary
  let (ran, db) := runReconciliationOnce leaseSeconds now reading run.db
  match run.db.schedule.nextLane with
  | .ordinary => (ordinary run.db).or (if ran then some .reconciliation else none)
  | .reconciliation => if ran then some .reconciliation else ordinary db

/-- What the iterations record of the lanes before an attempt. -/
def recordedIteration (reading : CleanupReading) (run : CleanupState) (attempt : CleanupAttempt) :
    CleanupIteration where
  attempt := attempt
  ordinaryWork := ordinaryCandidates now 1 run.attempted run.db ≠ []
  reconciliationWork :=
    (claimReconciliation leaseSeconds reading.claimedAt reading.token run.db).1.isSome

/-- The iterations of the loop up to the one that ends it. -/
def cleanupIterations : List CleanupReading → CleanupState → List CleanupIteration
  | [], _ => []
  | reading :: readings, run =>
    match attemptOf leaseSeconds now reading run with
    | none => []
    | some attempt =>
      recordedIteration leaseSeconds now reading run attempt ::
        cleanupIterations readings (cleanupStep leaseSeconds deletes now reading run).2

variable {leaseSeconds} {deletes} {now}

theorem runReconciliationOnce_fst (reading : CleanupReading) (db : Database) :
    (runReconciliationOnce leaseSeconds now reading db).1 =
      (claimReconciliation leaseSeconds reading.claimedAt reading.token db).1.isSome := by
  rw [runReconciliationOnce]
  rcases claimReconciliation leaseSeconds reading.claimedAt reading.token db with ⟨_ | _, _⟩ <;> rfl

/-- The lane that has the next turn after an iteration. -/
def CleanupIteration.nextLane (iteration : CleanupIteration) : CleanupLane :=
  match iteration.attempt.lane with
  | .ordinary => .reconciliation
  | .reconciliation => .ordinary

/-- With work in both lanes, an iteration serves the lane that has the turn. -/
def CleanupIteration.Serves (lane : CleanupLane) (iteration : CleanupIteration) : Prop :=
  iteration.ordinaryWork = true → iteration.reconciliationWork = true →
    iteration.attempt.lane = lane

theorem CleanupIteration.alternates_iff {first second : CleanupIteration} :
    first.Alternates second ↔ second.Serves first.nextLane := by
  unfold Alternates Serves nextLane
  cases first.attempt.lane <;> cases second.attempt.lane <;> simp

/-- With work in both lanes the attempt is the preferred lane's. -/
theorem recordedIteration_serves {reading : CleanupReading} {run : CleanupState}
    {attempt : CleanupAttempt} (hattempt : attemptOf leaseSeconds now reading run = some attempt) :
    (recordedIteration leaseSeconds now reading run attempt).Serves run.db.schedule.nextLane := by
  intro hordinary hreconciliation
  have hordinary := of_decide_eq_true hordinary
  have hreconciliation : (runReconciliationOnce leaseSeconds now reading run.db).1 = true :=
    (runReconciliationOnce_fst reading run.db).trans hreconciliation
  obtain ⟨candidate, rest, hcandidates⟩ := List.exists_cons_of_ne_nil hordinary
  unfold attemptOf at hattempt
  cases hlane : run.db.schedule.nextLane with
  | ordinary =>
    simp only [hlane, hcandidates, List.head?_cons, Option.map_some, Option.some_or,
      Option.some.injEq] at hattempt
    rw [← hattempt]
    rfl
  | reconciliation =>
    simp only [hlane, hreconciliation, if_true, Option.some.injEq] at hattempt
    rw [← hattempt]
    rfl

theorem cleanupIterations_cons {reading : CleanupReading} {run run' : CleanupState}
    {attempt : CleanupAttempt} (hattempt : attemptOf leaseSeconds now reading run = some attempt)
    (hstep : cleanupStep leaseSeconds deletes now reading run = (true, run'))
    (readings : List CleanupReading) :
    cleanupIterations leaseSeconds deletes now (reading :: readings) run =
      recordedIteration leaseSeconds now reading run attempt ::
        cleanupIterations leaseSeconds deletes now readings run' := by
  rw [cleanupIterations, hattempt, hstep]

theorem cleanupIterations_nil {reading : CleanupReading} {run : CleanupState}
    (hattempt : attemptOf leaseSeconds now reading run = none) (readings : List CleanupReading) :
    cleanupIterations leaseSeconds deletes now (reading :: readings) run = [] := by
  rw [cleanupIterations, hattempt]

end Run

/-! ## 3. The leases of a call -/

/-- A lease, if there is one, is on a row that was deleted. -/
def LeasesDeleted (db : Database) : Prop :=
  ∀ lease ∈ db.schedule.reconciliationClaim, ∃ upload ∈ db.uploads,
    upload.id = lease.uploadId ∧ upload.promotionTargetDeletedAt ≠ none

/-- Cleanup steps that keep the lease or give it up. -/
theorem LeasesDeleted.cleaned {done : List (DeletionField × UUID)} {db db' : Database}
    (h : LeasesDeleted db) (hcleaned : Cleaned done db db')
    (hlease : ∀ lease ∈ db'.schedule.reconciliationClaim,
      lease ∈ db.schedule.reconciliationClaim) : LeasesDeleted db' := by
  intro lease hmem
  obtain ⟨upload, hupload, hid, hdeleted⟩ := h lease (hlease lease hmem)
  obtain ⟨clean, hmap, hclean⟩ := hcleaned.uploads
  refine ⟨clean upload, hmap ▸ List.mem_map_of_mem hupload,
    (hclean upload hupload).id_eq.trans hid, fun hnone ↦ hdeleted ?_⟩
  exact ((hclean upload hupload).target.mp hnone).1

/-- A claim is kept or given up by its acknowledgement or its retry. -/
theorem runClaim_claim (now : Instant) (reading : CleanupReading) (claim : ReconciliationClaim)
    (db : Database) :
    ∀ lease ∈ (runClaim now reading claim db).schedule.reconciliationClaim,
      lease ∈ db.schedule.reconciliationClaim := by
  intro lease hlease
  obtain ⟨attempt, hrun⟩ : ∃ attempt : ReconciliationAttempt, runClaim now reading claim db =
      if attempt.acknowledge then
        (ackReconciliation claim now reading.acknowledgedAt attempt.succeeded db).2
      else (recordClaimRetry claim now reading.acknowledgedAt db).2 := ⟨_, rfl⟩
  rw [hrun] at hlease
  split at hlease
  · unfold ackReconciliation at hlease
    split at hlease
    · split at hlease
      · cases hlease
      · split at hlease <;> cases hlease
    · exact hlease
  · unfold recordClaimRetry at hlease
    split at hlease
    · split at hlease
      · cases hlease
      · split at hlease
        · cases hlease
        · exact hlease
    · exact hlease

/-- A reconciliation that finds nothing leaves nothing to find: the lease it looked at was not one
on a row that was never deleted, which it would have given up. -/
theorem LeasesDeleted.runReconciliationOnce {db : Database} (hkeyed : db.Keyed)
    (h : LeasesDeleted db) (leaseSeconds : Nat) (now : Instant) (reading : CleanupReading) :
    LeasesDeleted (runReconciliationOnce leaseSeconds now reading db).2 ∧
      ((runReconciliationOnce leaseSeconds now reading db).1 = false →
        (claimReconciliation leaseSeconds reading.claimedAt reading.token
          (runReconciliationOnce leaseSeconds now reading db).2).1 = none) := by
  rcases Platform.claimReconciliation_cases leaseSeconds reading.claimedAt reading.token db with
    hnone | ⟨hcleared, hgone⟩ | ⟨upload, hmem, hdeleted, -, hclaimed⟩
  · simp only [Splitbind.runReconciliationOnce, hnone]
    exact ⟨h, fun _ ↦ trivial⟩
  · have hsame : db.clearClaim = db := by
      cases hclaim : db.schedule.reconciliationClaim with
      | none =>
        have hschedule : db.schedule = { db.schedule with reconciliationClaim := none } := by
          rw [← hclaim]
        rw [Database.clearClaim, Database.saveSchedule, ← hschedule]
      | some lease =>
        obtain ⟨upload, hupload, hid, hdeleted⟩ := h lease hclaim
        exact ((hgone lease hclaim).2 upload hupload hid hdeleted hkeyed.uploads).elim
    simp only [Splitbind.runReconciliationOnce, hcleared, hsame]
    exact ⟨h, fun _ ↦ trivial⟩
  · have hleased : Cleaned [] db (db.saveSchedule { db.schedule with
        reconciliationClaim := some ⟨upload.id, reading.token,
          reading.claimedAt + seconds leaseSeconds⟩
        hasRun := true }) := (Cleaned.refl db).saveSchedule _
    obtain ⟨hcleaned, -, -⟩ := runClaim_cases now reading (hleased.keyed hkeyed) hmem hdeleted rfl
    simp only [Splitbind.runReconciliationOnce, hclaimed]
    refine ⟨LeasesDeleted.cleaned ?_ hcleaned (runClaim_claim now reading _ _),
      fun hfalse ↦ Bool.noConfusion hfalse⟩
    intro lease hlease
    cases hlease
    exact ⟨upload, hmem, rfl, hdeleted⟩

/-! ## 4. Iterations -/

section Iterations

variable (leaseSeconds : Nat) (deletes : ObjectKey → Bool) (now : Instant) (start : Database)

/-- Where a call stands that began with a database: its progress, its count, and its lease. -/
structure BatchState (k : Nat) (run : CleanupState) : Prop
    extends Progress deletes now start k run where
  count : run.deleted =
    ((expiredCandidates now start).take k).countP (Candidate.deletable deletes start)
  leases : LeasesDeleted start → LeasesDeleted run.db

variable {deletes now start} {k : Nat} {run : CleanupState}

theorem BatchState.zero : BatchState deletes now start 0 ⟨[], 0, start⟩ where
  toProgress := .zero
  count := rfl
  leases := id

/-- A deletion is completed when the row owns its key and the storage deletes it. -/
theorem deleteOne_fst (deletes : ObjectKey → Bool) {db : Database} (hkeyed : db.Keyed)
    {candidate : Candidate}
    (h : candidate ∈ expiredCandidates now db) :
    (deleteOne deletes candidate now db).1 = candidate.deletable deletes db := by
  obtain ⟨record, hrecord⟩ := checked_of_mem_expiredCandidates hkeyed h
  have hpasses : (record.eligible candidate.category now &&
      candidate.category.jobQueries.all fun query ↦ candidate.passes query now db) = true := by
    rw [hrecord.eligible, hrecord.passes, Bool.and_self]
  simp only [deleteOne, hrecord.found, hpasses, if_true, Candidate.deletable, Option.any_some]
  cases record.ownedKey candidate.category with
  | none => rfl
  | some key => cases hkey : deletes key <;> simp [hkey]

/-- **An ordinary attempt** counts what it deletes. -/
theorem BatchState.ordinary (hkeyed : start.Keyed) (h : BatchState deletes now start k run) :
    (ordinaryCandidates now 1 run.attempted run.db = [] ∧
        runOrdinaryOnce deletes now run = none) ∨
      ∃ candidate run', (expiredCandidates now start)[k]? = some candidate ∧
        ordinaryCandidates now 1 run.attempted run.db = [candidate] ∧
        runOrdinaryOnce deletes now run = some run' ∧
        BatchState deletes now start (k + 1) run' ∧
        run'.db.schedule.nextLane = .reconciliation := by
  have hfirst := h.candidates hkeyed 1
  rw [List.take_one, List.head?_drop] at hfirst
  rcases h.toProgress.ordinary hkeyed with
    ⟨hend, hnone⟩ | ⟨candidate, run', hget, hsome, hprogress, hcleaned, hschedule⟩
  · rw [List.getElem?_eq_none (by omega)] at hfirst
    exact .inl ⟨hfirst, hnone⟩
  · rw [hget] at hfirst
    have hmem : candidate ∈ expiredCandidates now run.db := by
      have hone : candidate ∈ ordinaryCandidates now 1 run.attempted run.db := by
        rw [hfirst]
        exact List.mem_cons_self
      exact List.mem_of_mem_filter (List.mem_of_mem_take hone)
    have hcompleted := deleteOne_fst deletes (h.cleaned.keyed hkeyed) hmem
    rw [h.cleaned.deletable] at hcompleted
    have hdeleted : run'.deleted = run.deleted + (candidate.deletable deletes start).toNat := by
      rw [← hcompleted]
      rw [runOrdinaryOnce, hfirst] at hsome
      cases hsome
      rfl
    refine .inr ⟨candidate, run', hget, hfirst, hsome, ⟨hprogress, ?_, fun hleases ↦ ?_⟩, by
      rw [hschedule]⟩
    · rw [hdeleted, h.count, List.take_add_one, hget, List.countP_append, Option.toList_some,
        List.countP_singleton]
      cases candidate.deletable deletes start <;> rfl
    · refine (h.leases hleases).cleaned hcleaned fun lease hlease ↦ ?_
      rw [hschedule] at hlease
      exact hlease

theorem BatchState.reconciled (hkeyed : start.Keyed) (h : BatchState deletes now start k run)
    (reading : CleanupReading) :
    BatchState deletes now start k
      { run with db := (runReconciliationOnce leaseSeconds now reading run.db).2 } := by
  obtain ⟨ran, db, hrun, hcleaned, -⟩ :=
    runReconciliationOnce_cases leaseSeconds now reading (h.cleaned.keyed hkeyed)
  refine ⟨h.toProgress.reconciled (by rw [hrun]; exact hcleaned), h.count, fun hleases ↦ ?_⟩
  exact ((h.leases hleases).runReconciliationOnce (h.cleaned.keyed hkeyed) leaseSeconds now
    reading).1

/-- **One iteration**: it attempts the next candidate, or reconciles, and hands the turn over; or
it finds nothing in either lane and ends the loop. -/
theorem BatchState.iteration (hkeyed : start.Keyed) (h : BatchState deletes now start k run)
    (reading : CleanupReading) :
    (∃ candidate run', (expiredCandidates now start)[k]? = some candidate ∧
        attemptOf leaseSeconds now reading run = some (.ordinary candidate) ∧
        cleanupStep leaseSeconds deletes now reading run = (true, run') ∧
        BatchState deletes now start (k + 1) run' ∧
        run'.db.schedule.nextLane = .reconciliation) ∨
      (∃ run', attemptOf leaseSeconds now reading run = some .reconciliation ∧
        cleanupStep leaseSeconds deletes now reading run = (true, run') ∧
        BatchState deletes now start k run' ∧ run'.db.schedule.nextLane = .ordinary) ∨
      ∃ run', attemptOf leaseSeconds now reading run = none ∧
        cleanupStep leaseSeconds deletes now reading run = (false, run') ∧
        BatchState deletes now start k run' ∧
        run'.db.schedule.nextLane = run.db.schedule.nextLane ∧
        ordinaryCandidates now 1 run'.attempted run'.db = [] ∧
        (LeasesDeleted start →
          (claimReconciliation leaseSeconds reading.claimedAt reading.token run'.db).1 = none) := by
  -- the other lane leaves the candidates as they are
  have hafter := h.reconciled leaseSeconds hkeyed reading
  obtain ⟨ran, db, hrun, -, hlanes⟩ :=
    runReconciliationOnce_cases leaseSeconds now reading (h.cleaned.keyed hkeyed)
  rw [hrun] at hafter
  have hidle : ran = false → LeasesDeleted start →
      (claimReconciliation leaseSeconds reading.claimedAt reading.token db).1 = none := by
    intro hran hleases
    have hnothing := ((h.leases hleases).runReconciliationOnce (h.cleaned.keyed hkeyed)
      leaseSeconds now reading).2
    rw [hrun] at hnothing
    exact hnothing hran
  have hsame : ordinaryCandidates now 1 run.attempted db =
      ordinaryCandidates now 1 run.attempted run.db :=
    (hafter.candidates hkeyed 1).trans (h.candidates hkeyed 1).symm
  cases hlane : run.db.schedule.nextLane with
  | ordinary =>
    rcases h.ordinary hkeyed with
      ⟨hnothing, hnone⟩ | ⟨candidate, run', hget, hfirst, hsome, hnext, hturn⟩
    · -- nothing in the ordinary lane, so the turn goes to the other one
      rcases hlanes with ⟨rfl, hkept⟩ | ⟨rfl, hordinary, -⟩
      · refine .inr (.inr ⟨{ run with db := db }, ?_, ?_, hafter, hkept.trans hlane,
          hsame.trans hnothing, hidle rfl⟩)
        · simp [attemptOf, hrun, hlane, hnothing]
        · simp only [cleanupStep, hlane, hnone, hrun]
      · refine .inr (.inl ⟨{ run with db := db }, ?_, ?_, hafter, hordinary⟩)
        · simp [attemptOf, hrun, hlane, hnothing]
        · simp only [cleanupStep, hlane, hnone, hrun]
    · refine .inl ⟨candidate, run', hget, ?_, ?_, hnext, hturn⟩
      · simp [attemptOf, hrun, hlane, hfirst]
      · simp only [cleanupStep, hlane, hsome]
  | reconciliation =>
    -- its turn, and nothing to reconcile hands it back
    rcases hlanes with ⟨rfl, hkept⟩ | ⟨rfl, hordinary, -⟩
    · rcases hafter.ordinary hkeyed with
        ⟨hnothing, hnone⟩ | ⟨candidate, run', hget, hfirst, hsome, hnext, hturn⟩
      · refine .inr (.inr ⟨{ run with db := db }, ?_, ?_, hafter, hkept.trans hlane, hnothing,
          hidle rfl⟩)
        · simp [attemptOf, hrun, hlane, show ordinaryCandidates now 1 run.attempted db = [] from
            hnothing]
        · simp [cleanupStep, hlane, hrun, hnone]
      · refine .inl ⟨candidate, run', hget, ?_, ?_, hnext, hturn⟩
        · simp [attemptOf, hrun, hlane, show ordinaryCandidates now 1 run.attempted db =
            [candidate] from hfirst]
        · simp [cleanupStep, hlane, hrun, hsome]
    · refine .inr (.inl ⟨{ run with db := db }, ?_, ?_, hafter, hordinary⟩)
      · simp [attemptOf, hrun, hlane]
      · simp [cleanupStep, hlane, hrun]

/-- **The iterations of a loop**: they attempt candidate after candidate, and are fewer than the
readings only if nothing is left. -/
theorem BatchState.loop (hkeyed : start.Keyed) (readings : List CleanupReading) :
    ∀ {k : Nat} {run : CleanupState}, BatchState deletes now start k run →
      ∃ k', k ≤ k' ∧
        BatchState deletes now start k' (cleanupLoop leaseSeconds deletes now readings run) ∧
        attemptedCandidates (cleanupIterations leaseSeconds deletes now readings run) =
          ((expiredCandidates now start).take k').drop k ∧
        (cleanupIterations leaseSeconds deletes now readings run).length ≤ readings.length ∧
        ∀ reading,
          readings[(cleanupIterations leaseSeconds deletes now readings run).length]? =
            some reading →
          ordinaryCandidates now 1 (cleanupLoop leaseSeconds deletes now readings run).attempted
              (cleanupLoop leaseSeconds deletes now readings run).db = [] ∧
            (LeasesDeleted start →
              (claimReconciliation leaseSeconds reading.claimedAt reading.token
                (cleanupLoop leaseSeconds deletes now readings run).db).1 = none) := by
  induction readings with
  | nil =>
    intro k run h
    refine ⟨k, le_rfl, h, ?_, le_rfl, fun reading hreading ↦ ?_⟩
    · rw [List.drop_eq_nil_of_le (List.length_take_le _ _)]
      rfl
    · cases hreading
  | cons reading readings ih =>
    intro k run h
    rcases h.iteration leaseSeconds hkeyed reading with
      ⟨candidate, run', hget, hattempt, hstep, hnext, -⟩ | ⟨run', hattempt, hstep, hnext, -⟩ |
        ⟨run', hattempt, hstep, hnext, -, hnothing, hidle⟩
    · -- the iteration takes the next candidate of the start, visits a tombstone, or finds nothing
      obtain ⟨k', hle, hstate, hcandidates, hlength, hend⟩ := ih hnext
      rw [cleanupLoop_cons hstep, cleanupIterations_cons hattempt hstep, List.length_cons,
        List.length_cons]
      refine ⟨k', by omega, hstate, ?_, by omega, fun reading hreading ↦ hend reading hreading⟩
      obtain ⟨hlt, hcandidate⟩ := List.getElem?_eq_some_iff.mp hget
      have hk : k < ((expiredCandidates now start).take k').length := by
        rw [List.length_take]
        omega
      rw [List.drop_eq_getElem_cons hk, List.getElem_take, hcandidate, ← hcandidates]
      rfl
    · obtain ⟨k', hle, hstate, hcandidates, hlength, hend⟩ := ih hnext
      rw [cleanupLoop_cons hstep, cleanupIterations_cons hattempt hstep, List.length_cons,
        List.length_cons]
      exact ⟨k', hle, hstate, hcandidates, by omega, fun reading hreading ↦ hend reading hreading⟩
    · rw [cleanupLoop, hstep, cleanupIterations_nil hattempt, List.length_nil]
      refine ⟨k, le_rfl, hnext, ?_, Nat.zero_le _, fun first hfirst ↦ ?_⟩
      · exact (List.drop_eq_nil_of_le (List.length_take_le _ _)).symm
      · cases hfirst
        exact ⟨hnothing, hidle⟩

/-- **The turns of a loop**: the first iteration serves the lane that had the turn before, each
further one the lane the one before hands the turn to, and the last leaves the turn to the next. -/
theorem BatchState.turns (hkeyed : start.Keyed) (readings : List CleanupReading) :
    ∀ {k : Nat} {run : CleanupState}, BatchState deletes now start k run →
      (cleanupIterations leaseSeconds deletes now readings run).IsChain
          CleanupIteration.Alternates ∧
        (∀ iteration ∈ (cleanupIterations leaseSeconds deletes now readings run).head?,
          iteration.Serves run.db.schedule.nextLane) ∧
        (cleanupLoop leaseSeconds deletes now readings run).db.schedule.nextLane =
          ((cleanupIterations leaseSeconds deletes now readings run).getLast?.map
            CleanupIteration.nextLane).getD run.db.schedule.nextLane := by
  induction readings with
  | nil =>
    intro k run _
    exact ⟨List.isChain_nil, fun _ hnone ↦ (Option.not_mem_none _ hnone).elim, rfl⟩
  | cons reading readings ih =>
    intro k run h
    -- an iteration that attempts something hands the turn to the other lane
    have hgoes : ∀ {k' : Nat} {run' : CleanupState} {attempt : CleanupAttempt},
        attemptOf leaseSeconds now reading run = some attempt →
        cleanupStep leaseSeconds deletes now reading run = (true, run') →
        BatchState deletes now start k' run' →
        run'.db.schedule.nextLane = (recordedIteration leaseSeconds now reading run attempt).nextLane →
        (cleanupIterations leaseSeconds deletes now (reading :: readings) run).IsChain
            CleanupIteration.Alternates ∧
          (∀ iteration ∈ (cleanupIterations leaseSeconds deletes now (reading :: readings) run).head?,
            iteration.Serves run.db.schedule.nextLane) ∧
          (cleanupLoop leaseSeconds deletes now (reading :: readings) run).db.schedule.nextLane =
            ((cleanupIterations leaseSeconds deletes now (reading :: readings) run).getLast?.map
              CleanupIteration.nextLane).getD run.db.schedule.nextLane := by
      intro k' run' attempt hattempt hstep hnext hlane
      obtain ⟨hchain, hhead, hlast⟩ := ih hnext
      rw [hlane] at hhead hlast
      rw [cleanupLoop_cons hstep, cleanupIterations_cons hattempt hstep]
      refine ⟨List.isChain_cons.mpr ⟨fun iteration hiteration ↦ ?_, hchain⟩, ?_, ?_⟩
      · exact CleanupIteration.alternates_iff.mpr (hhead iteration hiteration)
      · rintro _ ⟨⟩
        exact recordedIteration_serves hattempt
      · rw [hlast, List.getLast?_cons]
        cases (cleanupIterations leaseSeconds deletes now readings run').getLast? <;> rfl
    rcases h.iteration leaseSeconds hkeyed reading with
      ⟨candidate, run', -, hattempt, hstep, hnext, hlane⟩ | ⟨run', hattempt, hstep, hnext, hlane⟩ |
        ⟨run', hattempt, hstep, hnext, hlane, -, -⟩
    · exact hgoes hattempt hstep hnext hlane
    · exact hgoes hattempt hstep hnext hlane
    · rw [cleanupLoop, hstep, cleanupIterations_nil hattempt]
      exact ⟨List.isChain_nil, fun _ hnone ↦ (Option.not_mem_none _ hnone).elim, hlane⟩

end Iterations

/-! ## 5. Calls -/

/-- A call with an accepted batch size. -/
structure CleanupCall where
  leaseSeconds : Nat
  deletes : ObjectKey → Bool
  now : Instant
  readings : Nat → CleanupReading
  batchSize : Nat
  accepted : 1 ≤ batchSize ∧ batchSize ≤ maxBatchSize

namespace CleanupCall

variable (call : CleanupCall) (db : Database)

/-- What the call ends with. -/
def run : CleanupState :=
  cleanupRun call.leaseSeconds call.deletes call.now call.readings call.batchSize db

def iterations : List CleanupIteration :=
  cleanupIterations call.leaseSeconds call.deletes call.now
    ((List.range call.batchSize).map call.readings) ⟨[], 0, db⟩

/-- The law of one batch: its size, each candidate once, the count that is returned, and what is
left when the call ends early. -/
structure BatchLaw : Prop where
  returns : cleanupExpired call.leaseSeconds call.deletes call.now call.readings call.batchSize db =
    .ok (call.run db)
  size : (call.iterations db).length ≤ call.batchSize
  once : ((attemptedCandidates (call.iterations db)).map Candidate.attempted).Nodup
  attempted : (call.run db).attempted =
    ((attemptedCandidates (call.iterations db)).map Candidate.attempted).reverse
  count : (call.run db).deleted = (db.newlyDeleted (call.run db).db).length
  ordinaryIdle : (call.iterations db).length < call.batchSize →
    ordinaryCandidates call.now 1 (call.run db).attempted (call.run db).db = []
  reconciliationIdle : LeasesDeleted db → (call.iterations db).length < call.batchSize →
    (claimReconciliation call.leaseSeconds (call.readings (call.iterations db).length).claimedAt
      (call.readings (call.iterations db).length).token (call.run db).db).1 = none

theorem cleanupExpired_eq : cleanupExpired call.leaseSeconds call.deletes call.now call.readings
    call.batchSize db = .ok (call.run db) := by
  have haccepted := call.accepted
  rw [cleanupExpired, Transaction.raiseIf_neg (by omega)]
  rfl

theorem batchLaw (hkeyed : db.Keyed) : call.BatchLaw db := by
  obtain ⟨k, -, hstate, hcandidates, hlength, hend⟩ :=
    (BatchState.zero : BatchState call.deletes call.now db 0 ⟨[], 0, db⟩).loop
      call.leaseSeconds hkeyed ((List.range call.batchSize).map call.readings)
  rw [List.drop_zero] at hcandidates
  rw [List.length_map, List.length_range] at hlength
  -- the reading of the iteration that ended the loop
  have hreading : (call.iterations db).length < call.batchSize →
      ((List.range call.batchSize).map call.readings)[(call.iterations db).length]? =
        some (call.readings (call.iterations db).length) := by
    intro hlt
    rw [List.getElem?_map, List.getElem?_range hlt, Option.map_some]
  refine ⟨call.cleanupExpired_eq db, hlength, ?_, ?_, ?_, fun hlt ↦ ?_, fun hleases hlt ↦ ?_⟩
  · rw [iterations, hcandidates]
    exact (nodup_attempted call.now hkeyed).sublist ((List.take_sublist _ _).map _)
  · rw [iterations, hcandidates]
    exact hstate.attempted
  · exact hstate.count.trans (hstate.newlyDeleted hkeyed).symm
  · exact (hend _ (hreading hlt)).1
  · exact (hend _ (hreading hlt)).2 hleases

end CleanupCall

/-- Calls of one runner and what happens between them: rows may change, the lane may not. -/
inductive CleanupCalls : Database → List CleanupIteration → Database → Prop
  | none (db : Database) : CleanupCalls db [] db
  | call (call : CleanupCall) {db db' : Database} {rest : List CleanupIteration}
      (hkeyed : db.Keyed) (hrest : CleanupCalls (call.run db).db rest db') :
      CleanupCalls db (call.iterations db ++ rest) db'
  | between {db db' db'' : Database} {rest : List CleanupIteration}
      (hlane : db'.schedule.nextLane = db.schedule.nextLane) (hrest : CleanupCalls db' rest db'') :
      CleanupCalls db rest db''

/-- **Alternation** within calls and across them. -/
theorem CleanupCalls.alternates {db db' : Database} {iterations : List CleanupIteration}
    (h : CleanupCalls db iterations db') :
    iterations.IsChain CleanupIteration.Alternates ∧
      ∀ iteration ∈ iterations.head?, iteration.Serves db.schedule.nextLane := by
  induction h with
  | none db => exact ⟨List.isChain_nil, nofun⟩
  | @call call db db' rest hkeyed hrest ih =>
    obtain ⟨hchain, hhead, hlast⟩ :=
      (BatchState.zero : BatchState call.deletes call.now db 0 ⟨[], 0, db⟩).turns
        call.leaseSeconds hkeyed ((List.range call.batchSize).map call.readings)
    have hlast : (call.run db).db.schedule.nextLane =
        ((call.iterations db).getLast?.map CleanupIteration.nextLane).getD
          db.schedule.nextLane := hlast
    refine ⟨List.isChain_append.mpr ⟨hchain, ih.1, fun last hlastIn first hfirst ↦ ?_⟩, ?_⟩
    · rw [hlastIn] at hlast
      have hturn := ih.2 first hfirst
      rw [hlast] at hturn
      exact CleanupIteration.alternates_iff.mpr hturn
    · intro iteration hiteration
      rw [List.head?_append] at hiteration
      cases hiterations : (call.iterations db).head? with
      | some first =>
        rw [hiterations] at hiteration
        cases hiteration
        exact hhead _ hiterations
      | none =>
        -- a call without an attempt leaves the turn where it was
        rw [hiterations] at hiteration
        rw [List.head?_eq_none_iff.mp hiterations] at hlast
        have hturn := ih.2 iteration hiteration
        rw [hlast] at hturn
        exact hturn
  | between hlane hrest ih =>
    exact ⟨ih.1, hlane ▸ ih.2⟩

/-- **The batch law.**  Every call makes at most its batch size of attempts, each candidate once,
returns how many timestamps it set, and ends early only with nothing left; the attempts of calls
that follow one another alternate between the lanes. -/
theorem cleanup_batch_law :
    (∀ (call : CleanupCall) (db : Database), db.Keyed → call.BatchLaw db) ∧
      ∀ (db db' : Database) (iterations : List CleanupIteration),
        CleanupCalls db iterations db' → iterations.IsChain CleanupIteration.Alternates :=
  ⟨fun call db hkeyed ↦ call.batchLaw db hkeyed, fun _ _ _ hcalls ↦ hcalls.alternates.1⟩

/-- Calls of one iteration two days after the epoch. -/
def singleCall : CleanupCall where
  leaseSeconds := 300
  deletes _ := true
  now := days 2
  readings n := ⟨days 2, ⟨.ofNat 128 n⟩, true, days 2⟩
  batchSize := 1
  accepted := by decide

/-- Calls of three iterations; the storage does not delete the first orphan. -/
def tripleCall : CleanupCall :=
  { singleCall with
    deletes := fun key ↦ key ≠ .orphan .issuance ⟨1⟩ ⟨5⟩
    batchSize := 3
    accepted := by decide }

def tombstoneUpload (n : Nat) : UploadRequest :=
  { orphanUpload n with
    orphanDeletedAt := some 0
    promotionTargetKey := some (.promotedInput .issuance ⟨1⟩ ⟨n⟩)
    promotionStatus := .failed
    safeErrorCode := some "PROMOTION_COPY_FAILED"
    promotionTargetDeletedAt := some 0 }

/-- Two expired orphans and a tombstone. -/
def tombstoneDatabase : Database :=
  { orphanDatabase with uploads := [orphanUpload 5, orphanUpload 6, tombstoneUpload 7] }

/-- The attempts of two calls alternate, the second call beginning where the first ended. -/
theorem cleanup_batch_law_sample :
    tripleCall.BatchLaw tombstoneDatabase ∧
      let iterations := tripleCall.iterations tombstoneDatabase ++
        (tripleCall.iterations (tripleCall.run tombstoneDatabase).db ++ [])
      iterations.IsChain CleanupIteration.Alternates ∧
        iterations.map (fun iteration ↦ iteration.attempt.lane) =
          [.ordinary, .reconciliation, .ordinary, .reconciliation, .ordinary, .reconciliation] := by
  have hkeyed : tombstoneDatabase.Keyed := by constructor <;> decide
  have hkeyed' : (tripleCall.run tombstoneDatabase).db.Keyed := by constructor <;> decide +kernel
  refine ⟨cleanup_batch_law.1 tripleCall tombstoneDatabase hkeyed, ?_, by decide +kernel⟩
  exact cleanup_batch_law.2 _ _ _ (.call tripleCall hkeyed (.call tripleCall hkeyed' (.none _)))

/-- A tombstone, and an expired lease on a row that is gone. -/
def goneLeaseDatabase : Database :=
  { orphanDatabase with
    uploads := [tombstoneUpload 5]
    schedule := ⟨.reconciliation, none, some ⟨⟨9⟩, ⟨7⟩, 0⟩, true⟩ }

/-- Giving up such a lease ends the call, and the tombstone could still be claimed. -/
theorem cleanup_ends_before_tombstone :
    ¬ ∀ (call : CleanupCall) (db : Database), db.Keyed →
      (call.iterations db).length < call.batchSize →
      (claimReconciliation call.leaseSeconds (call.readings (call.iterations db).length).claimedAt
        (call.readings (call.iterations db).length).token (call.run db).db).1 = none := by
  intro h
  have hclaim := h singleCall goneLeaseDatabase (by constructor <;> decide) (by decide +kernel)
  have hsome : (claimReconciliation singleCall.leaseSeconds
      (singleCall.readings (singleCall.iterations goneLeaseDatabase).length).claimedAt
      (singleCall.readings (singleCall.iterations goneLeaseDatabase).length).token
      (singleCall.run goneLeaseDatabase).db).1.isSome = true := by decide +kernel
  rw [hclaim] at hsome
  cases hsome

end Splitbind
