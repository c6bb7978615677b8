import Splitbind.Retention.Cleanup
import Splitbind.Retention.Steps

/-!
# Cleanup steps — what an iteration of `cleanup_expired` attempts and leaves

Within a run every attempt moves on to the next candidate, so a run attempts the front of its
candidates, and the queue it leaves is that of a retry queue.  A reconciliation changes no
candidate.
-/

namespace Splitbind

/-! ## 1. A run is a round over its candidates -/

/-- What identifies an attempt on a candidate of an upload query. -/
theorem mem_map_uploadCandidates {db : Database} {category : Category}
    {selects : UploadRequest → Bool} {key : DeletionField × UUID}
    (h : key ∈ (uploadCandidates db category selects).map Candidate.attempted) :
    ∃ upload ∈ db.uploads, selects upload = true ∧ key = (category.field, upload.id) := by
  obtain ⟨candidate, hmem, rfl⟩ := List.mem_map.mp h
  obtain ⟨upload, hupload, hselects, rfl⟩ := mem_uploadCandidates hmem
  exact ⟨upload, hupload, hselects, rfl⟩

theorem nodup_sorted_candidates {α : Type} {rows : List α} {id : α → UUID} (time : α → Instant)
    (hunique : (rows.map id).Nodup) (selects : α → Bool) (category : Category) :
    ((((rows.filter selects).insertionSort (rowBefore time id)).map
      fun row ↦ (⟨category, id row⟩ : Candidate)).map Candidate.attempted).Nodup := by
  have hids : (((rows.filter selects).insertionSort (rowBefore time id)).map id).Nodup :=
    ((List.perm_insertionSort _ _).map id).nodup_iff.mpr
      (hunique.sublist (List.filter_sublist.map id))
  have hmap := hids.map (Prod.mk_right_injective category.field)
  rwa [List.map_map] at hmap ⊢

section Attempted

variable {now : Instant} {db : Database} {key : DeletionField × UUID}

theorem mem_attempted_stalePromotions {state : PromotionStatus}
    (h : key ∈ (stalePromotions db state now).map Candidate.attempted) :
    ∃ upload ∈ db.uploads, upload.promotionStatus = state ∧
      key = (.promotionTargetDeletedAt, upload.id) := by
  obtain ⟨upload, hmem, hselects, rfl⟩ := mem_map_uploadCandidates h
  simp only [Bool.and_eq_true, decide_eq_true_eq] at hselects
  exact ⟨upload, hmem, hselects.1.1.1, rfl⟩

theorem mem_attempted_expiredInputs {category : Category} {purpose : UploadPurpose}
    (hfield : category.field = .promotionTargetDeletedAt)
    (h : key ∈ (expiredInputs db category purpose now).map Candidate.attempted) :
    ∃ upload ∈ db.uploads, upload.promotionStatus = .attached ∧ upload.purpose = purpose ∧
      key = (.promotionTargetDeletedAt, upload.id) := by
  obtain ⟨upload, hmem, hselects, rfl⟩ := mem_map_uploadCandidates h
  simp only [Bool.and_eq_true, decide_eq_true_eq] at hselects
  exact ⟨upload, hmem, hselects.1.1.1, hselects.1.2, by rw [hfield]⟩

theorem field_of_mem_expiredOutputs (h : key ∈ (expiredOutputs db now).map Candidate.attempted) :
    key.1 = .outputDeletedAt := by
  obtain ⟨candidate, hmem, rfl⟩ := List.mem_map.mp h
  obtain ⟨issuance, -, rfl⟩ := List.mem_map.mp hmem
  rfl

theorem field_of_mem_expiredOrphans (h : key ∈ (expiredOrphans db now).map Candidate.attempted) :
    key.1 = .orphanDeletedAt := by
  obtain ⟨upload, -, -, rfl⟩ := mem_map_uploadCandidates h
  rfl

/-- The queries for promotion targets, one after the other. -/
def targetCandidates (now : Instant) (db : Database) : List Candidate :=
  stalePromotions db .failed now ++ stalePromotions db .copying now ++
    expiredInputs db .issuanceInput .issuance now ++
    expiredInputs db .verificationInput .verification now

theorem field_of_mem_targetCandidates
    (h : key ∈ (targetCandidates now db).map Candidate.attempted) :
    key.1 = .promotionTargetDeletedAt := by
  simp only [targetCandidates, List.map_append, List.mem_append] at h
  rcases h with ((h | h) | h) | h
  · obtain ⟨_, -, -, rfl⟩ := mem_attempted_stalePromotions h
    rfl
  · obtain ⟨_, -, -, rfl⟩ := mem_attempted_stalePromotions h
    rfl
  · obtain ⟨_, -, -, -, rfl⟩ := mem_attempted_expiredInputs rfl h
    rfl
  · obtain ⟨_, -, -, -, rfl⟩ := mem_attempted_expiredInputs rfl h
    rfl

theorem nodup_uploadCandidates (hkeyed : db.Keyed) (category : Category)
    (selects : UploadRequest → Bool) :
    ((uploadCandidates db category selects).map Candidate.attempted).Nodup :=
  nodup_sorted_candidates _ hkeyed.uploads selects category

/-- Two queries of one field select uploads of different states or purposes. -/
theorem nodup_targetCandidates (now : Instant) (hkeyed : db.Keyed) :
    ((targetCandidates now db).map Candidate.attempted).Nodup := by
  have hsame : ∀ {upload upload' : UploadRequest} {field : DeletionField}, upload ∈ db.uploads →
      upload' ∈ db.uploads → (field, upload.id) = (field, upload'.id) → upload = upload' :=
    fun hmem hmem' heq ↦ List.inj_on_of_nodup_map hkeyed.uploads hmem hmem' (congrArg Prod.snd heq)
  simp only [targetCandidates, List.map_append]
  refine .append (.append (.append (nodup_uploadCandidates hkeyed _ _)
    (nodup_uploadCandidates hkeyed _ _) ?_) (nodup_uploadCandidates hkeyed _ _) ?_)
    (nodup_uploadCandidates hkeyed _ _) ?_
  · intro key hfailed hcopying
    obtain ⟨upload, hmem, hstatus, rfl⟩ := mem_attempted_stalePromotions hfailed
    obtain ⟨upload', hmem', hstatus', heq⟩ := mem_attempted_stalePromotions hcopying
    rw [hsame hmem hmem' heq, hstatus'] at hstatus
    cases hstatus
  · intro key hstale hinput
    obtain ⟨upload', hmem', hstatus', -, heq⟩ := mem_attempted_expiredInputs rfl hinput
    rcases List.mem_append.mp hstale with hkey | hkey <;>
    · obtain ⟨upload, hmem, hstatus, rfl⟩ := mem_attempted_stalePromotions hkey
      rw [hsame hmem hmem' heq, hstatus'] at hstatus
      cases hstatus
  · intro key hbefore hinput
    obtain ⟨upload', hmem', hstatus', hpurpose', heq⟩ := mem_attempted_expiredInputs rfl hinput
    simp only [List.mem_append] at hbefore
    rcases hbefore with (hkey | hkey) | hkey
    · obtain ⟨upload, hmem, hstatus, rfl⟩ := mem_attempted_stalePromotions hkey
      rw [hsame hmem hmem' heq, hstatus'] at hstatus
      cases hstatus
    · obtain ⟨upload, hmem, hstatus, rfl⟩ := mem_attempted_stalePromotions hkey
      rw [hsame hmem hmem' heq, hstatus'] at hstatus
      cases hstatus
    · obtain ⟨upload, hmem, -, hpurpose, rfl⟩ := mem_attempted_expiredInputs rfl hkey
      rw [hsame hmem hmem' heq, hpurpose'] at hpurpose
      cases hpurpose

end Attempted

/-- A deletion is evidenced in one field of one row. -/
theorem nodup_attempted (now : Instant) {db : Database} (hkeyed : db.Keyed) :
    ((expiredCandidates now db).map Candidate.attempted).Nodup := by
  have hqueries : expiredCandidates now db =
      targetCandidates now db ++ expiredOutputs db now ++ expiredOrphans db now := rfl
  rw [hqueries, List.map_append, List.map_append]
  refine .append (.append (nodup_targetCandidates now hkeyed) ?_ ?_)
    (nodup_uploadCandidates hkeyed _ _) ?_
  · exact nodup_sorted_candidates _ hkeyed.issuances _ _
  · intro key htarget houtput
    have hfield := field_of_mem_targetCandidates htarget
    rw [field_of_mem_expiredOutputs houtput] at hfield
    cases hfield
  · intro key hbefore horphan
    rcases List.mem_append.mp hbefore with hkey | hkey
    · have hfield := field_of_mem_targetCandidates hkey
      rw [field_of_mem_expiredOrphans horphan] at hfield
      cases hfield
    · have hfield := field_of_mem_expiredOutputs hkey
      rw [field_of_mem_expiredOrphans horphan] at hfield
      cases hfield

section Run

variable (deletes : ObjectKey → Bool) (now : Instant) (start : Database)

/-- Where a run stands that began with a database and made `k` attempts. -/
structure Progress (k : Nat) (run : CleanupState) : Prop where
  le : k ≤ (expiredCandidates now start).length
  attempted : run.attempted =
    (((expiredCandidates now start).take k).map Candidate.attempted).reverse
  cleaned : Cleaned ((((expiredCandidates now start).take k).filter
    (Candidate.deletable deletes start)).map Candidate.attempted).reverse start run.db

variable {deletes now start} {k : Nat} {run : CleanupState}

theorem Progress.zero : Progress deletes now start 0 ⟨[], 0, start⟩ :=
  ⟨Nat.zero_le _, rfl, .refl start⟩

theorem Progress.reconciled {db : Database} (h : Progress deletes now start k run)
    (hcleaned : Cleaned [] run.db db) : Progress deletes now start k { run with db := db } :=
  ⟨h.le, h.attempted, h.cleaned.trans hcleaned⟩

/-- The candidates a run has not attempted are those behind its front. -/
theorem Progress.candidates (hkeyed : start.Keyed) (h : Progress deletes now start k run)
    (limit : Nat) : ordinaryCandidates now limit run.attempted run.db =
      ((expiredCandidates now start).drop k).take limit := by
  rw [ordinaryCandidates_eq, h.cleaned.expired, List.filter_filter, h.attempted]
  congr 1
  rw [← RetryQueue.serve_false]
  have hall : ((expiredCandidates now start).take k).filter (fun _ ↦ !false) =
      (expiredCandidates now start).take k := List.filter_eq_self.mpr fun _ _ ↦ rfl
  refine RetryQueue.filter_eq_serve (nodup_attempted now hkeyed) fun candidate _ ↦ ?_
  rw [hall, Bool.and_eq_true, decide_eq_true_eq, decide_eq_true_eq, List.mem_reverse,
    List.mem_reverse]
  refine ⟨And.left, fun hnot ↦ ⟨hnot, fun hmem ↦ hnot ?_⟩⟩
  obtain ⟨other, hother, heq⟩ := List.mem_map.mp hmem
  exact heq ▸ List.mem_map_of_mem (List.mem_of_mem_filter hother)

/-- What the runs after this one find. -/
theorem Progress.queue (hkeyed : start.Keyed) (h : Progress deletes now start k run) :
    expiredCandidates now run.db =
      RetryQueue.serve (fun candidate ↦ !candidate.deletable deletes start) k
        (expiredCandidates now start) := by
  rw [h.cleaned.expired]
  refine RetryQueue.filter_eq_serve (nodup_attempted now hkeyed) fun candidate _ ↦ ?_
  simp only [decide_eq_true_eq, List.mem_reverse, Bool.not_not]

/-- **An ordinary attempt** moves on to the next candidate. -/
theorem Progress.ordinary (hkeyed : start.Keyed) (h : Progress deletes now start k run) :
    (k = (expiredCandidates now start).length ∧ runOrdinaryOnce deletes now run = none) ∨
      ∃ candidate run', (expiredCandidates now start)[k]? = some candidate ∧
        runOrdinaryOnce deletes now run = some run' ∧
        Progress deletes now start (k + 1) run' ∧
        Cleaned (if candidate.deletable deletes start then [candidate.attempted] else []) run.db
          run'.db ∧
        run'.db.schedule =
          { run.db.schedule with nextLane := .reconciliation, hasRun := true } := by
  have hfirst := h.candidates hkeyed 1
  rcases hdrop : (expiredCandidates now start).drop k with _ | ⟨candidate, rest⟩
  · left
    rw [hdrop] at hfirst
    refine ⟨le_antisymm h.le (List.drop_eq_nil_iff.mp hdrop), ?_⟩
    simp only [runOrdinaryOnce, hfirst, List.take_nil]
  · right
    -- the next candidate of the fixed list is the one the database offers first
    rw [hdrop, List.take_succ_cons, List.take_zero] at hfirst
    have hlt : k < (expiredCandidates now start).length := by
      by_contra hge
      rw [List.drop_eq_nil_of_le (by omega)] at hdrop
      cases hdrop
    have hget : (expiredCandidates now start)[k]? = some candidate := by
      rw [← List.head?_drop, hdrop, List.head?_cons]
    have hmem : candidate ∈ expiredCandidates now run.db := by
      have hone : candidate ∈ ordinaryCandidates now 1 run.attempted run.db := by
        rw [hfirst]
        exact List.mem_cons_self
      exact List.mem_of_mem_filter (List.mem_of_mem_take hone)
    obtain ⟨hcleaned, hschedule⟩ :=
      deleteOne_cleaned deletes (h.cleaned.keyed hkeyed) hmem
    rw [h.cleaned.deletable] at hcleaned
    have hmarked : Cleaned (if candidate.deletable deletes start then [candidate.attempted] else [])
        run.db (markOrdinaryAttempt (deleteOne deletes candidate now run.db).2) :=
      hcleaned.saveSchedule _
    have htake : (expiredCandidates now start).take (k + 1) =
        (expiredCandidates now start).take k ++ [candidate] := by
      rw [List.take_add_one, hget]
      rfl
    refine ⟨candidate, ⟨candidate.attempted :: run.attempted,
      run.deleted + (deleteOne deletes candidate now run.db).1.toNat,
      markOrdinaryAttempt (deleteOne deletes candidate now run.db).2⟩, hget,
      by simp only [runOrdinaryOnce, hfirst], ⟨hlt, ?_, ?_⟩, hmarked, ?_⟩
    · -- the attempted list grows by this candidate whether or not its deletion succeeds
      rw [htake, List.map_append, List.reverse_append, h.attempted]
      rfl
    · -- the cleaned rows grow by it only when it does
      have htrans := h.cleaned.trans hmarked
      rw [htake, List.filter_append, List.map_append, List.reverse_append]
      by_cases hdeletable : candidate.deletable deletes start = true
      · rw [if_pos hdeletable] at htrans
        rw [List.filter_cons_of_pos hdeletable]
        exact htrans
      · rw [if_neg hdeletable] at htrans
        rw [List.filter_cons_of_neg hdeletable]
        exact htrans
    · show { (deleteOne deletes candidate now run.db).2.schedule with
        nextLane := CleanupLane.reconciliation, hasRun := true } = _
      rw [hschedule]

end Run

/-! ## 2. Reconciliations leave the candidates alone -/

theorem cleaned_recordPromotionReconciliation {db : Database} (hkeyed : db.Keyed)
    {upload : UploadRequest} (hmem : upload ∈ db.uploads) (time : Instant) (succeeded : Bool) :
    Cleaned [] db (recordPromotionReconciliation upload time succeeded db) := by
  refine ⟨⟨_, rfl, fun other hother ↦ ?_⟩, (Cleaned.refl db).issuances, rfl, rfl, rfl, rfl⟩
  by_cases hid : other.id = upload.id
  · have hsame : other = upload := List.inj_on_of_nodup_map hkeyed.uploads hother hmem hid
    subst hsame
    rw [if_pos rfl]
    exact ⟨rfl, by simp, by simp⟩
  · rw [if_neg hid]
    exact .refl other

/-- A claim on a tombstone hands the turn to the ordinary lane, and is given up if the storage
deletes the key. -/
theorem runClaim_cases (now : Instant) (reading : CleanupReading) {db : Database}
    (hkeyed : db.Keyed) {upload : UploadRequest} (hmem : upload ∈ db.uploads)
    (hdeleted : upload.promotionTargetDeletedAt ≠ none) {token : UUID} {expiresAt : Instant}
    (hlease : db.schedule.reconciliationClaim = some ⟨upload.id, token, expiresAt⟩) :
    Cleaned [] db (runClaim now reading ⟨upload.id, token⟩ db) ∧
      (runClaim now reading ⟨upload.id, token⟩ db).schedule.nextLane = .ordinary ∧
      (reading.reconciled = true →
        (runClaim now reading ⟨upload.id, token⟩ db).schedule.reconciliationClaim = none) := by
  have hfind := find?_upload hkeyed hmem
  have hmatches : claimMatches db.schedule ⟨upload.id, token⟩ = true := by
    simp [claimMatches, hlease]
  obtain ⟨deletedAt, hdeletedAt⟩ := Option.ne_none_iff_exists'.mp hdeleted
  have hcleaned := cleaned_recordPromotionReconciliation hkeyed hmem
  have hack : ∀ succeeded,
      (ackReconciliation ⟨upload.id, token⟩ now reading.acknowledgedAt succeeded db).2 =
        (recordPromotionReconciliation upload (observedAt now reading.acknowledgedAt upload)
          succeeded db).saveSchedule { db.schedule with
            reconciliationCursor := some ⟨deletedAt, upload.id⟩
            reconciliationClaim := none
            nextLane := .ordinary
            hasRun := true } := by
    intro succeeded
    simp only [ackReconciliation, hmatches, if_true, hfind, hdeletedAt]
  have hretry : (recordClaimRetry ⟨upload.id, token⟩ now reading.acknowledgedAt db).2 =
      (recordPromotionReconciliation upload (observedAt now reading.acknowledgedAt upload)
        false db).saveSchedule { db.schedule with nextLane := .ordinary, hasRun := true } := by
    simp only [recordClaimRetry, hmatches, if_true, hfind, if_neg hdeleted]
  obtain ⟨attempt, hattempt, hrun⟩ : ∃ attempt : ReconciliationAttempt,
      (reading.reconciled = true → attempt.acknowledge = true) ∧
        runClaim now reading ⟨upload.id, token⟩ db =
          if attempt.acknowledge then
            (ackReconciliation ⟨upload.id, token⟩ now reading.acknowledgedAt attempt.succeeded db).2
          else
            (recordClaimRetry ⟨upload.id, token⟩ now reading.acknowledgedAt db).2 := by
    cases htarget : reconciliationTarget ⟨upload.id, token⟩ db with
    | inl attempt =>
      refine ⟨attempt, fun _ ↦ ?_, by rw [runClaim, htarget]⟩
      -- a key that is not the upload's own is acknowledged without a delete
      simp only [reconciliationTarget, hfind, if_neg hdeleted] at htarget
      cases hkey : upload.promotionTargetKey.filter
          (keyIsOwned upload (.stalePromotion .none)) with
      | none =>
        rw [hkey] at htarget
        rw [← Sum.inl.inj htarget]
      | some key =>
        rw [hkey] at htarget
        cases htarget
    | inr key =>
      refine ⟨deletionAttempt reading.reconciled, fun hreconciled ↦ ?_, by rw [runClaim, htarget]⟩
      rw [hreconciled]
      rfl
  by_cases hacknowledge : attempt.acknowledge = true
  · rw [hrun, if_pos hacknowledge, hack]
    exact ⟨(hcleaned _ _).saveSchedule _, rfl, fun _ ↦ rfl⟩
  · rw [hrun, if_neg hacknowledge, hretry]
    exact ⟨(hcleaned _ _).saveSchedule _, rfl, fun h ↦ absurd (hattempt h) hacknowledge⟩

/-- **A reconciliation** changes no candidate; one that ran hands the turn to the ordinary lane,
and gives up its lease if the storage deleted the key. -/
theorem runReconciliationOnce_cases (leaseSeconds : Nat) (now : Instant) (reading : CleanupReading)
    {db : Database} (hkeyed : db.Keyed) :
    ∃ ran db', runReconciliationOnce leaseSeconds now reading db = (ran, db') ∧
      Cleaned [] db db' ∧
      (ran = false ∧ db'.schedule.nextLane = db.schedule.nextLane ∨
        ran = true ∧ db'.schedule.nextLane = .ordinary ∧
          (reading.reconciled = true → db'.schedule.reconciliationClaim = none)) := by
  rcases Platform.claimReconciliation_cases leaseSeconds reading.claimedAt reading.token db with
    hnone | ⟨hcleared, -⟩ | ⟨upload, hmem, hdeleted, -, hclaimed⟩
  · exact ⟨false, db, by simp only [runReconciliationOnce, hnone], .refl db, .inl ⟨rfl, rfl⟩⟩
  · exact ⟨false, db.clearClaim, by simp only [runReconciliationOnce, hcleared],
      (Cleaned.refl db).saveSchedule _, .inl ⟨rfl, rfl⟩⟩
  · have hleased : Cleaned [] db (db.saveSchedule { db.schedule with
        reconciliationClaim := some ⟨upload.id, reading.token,
          reading.claimedAt + seconds leaseSeconds⟩
        hasRun := true }) := (Cleaned.refl db).saveSchedule _
    obtain ⟨hcleaned, hlane, hclaim⟩ := runClaim_cases now reading (hleased.keyed hkeyed) hmem
      hdeleted rfl
    exact ⟨true, _, by simp only [runReconciliationOnce, hclaimed], hleased.trans hcleaned,
      .inr ⟨rfl, hlane, hclaim⟩⟩

/-- The rows a reconciliation can select. -/
theorem mem_map_tombstones {db : Database} {uploadId : UUID} :
    uploadId ∈ (tombstones db).map (·.id) ↔ ∃ upload ∈ db.uploads, upload.id = uploadId ∧
      upload.promotionTargetDeletedAt ≠ none ∧ upload.promotionTargetKey ≠ none := by
  rw [List.mem_map]
  constructor
  · rintro ⟨tombstone, htombstone, rfl⟩
    obtain ⟨upload, hmem, hsome⟩ := List.mem_filterMap.mp ((List.mem_insertionSort _).mp htombstone)
    refine ⟨upload, hmem, ?_⟩
    split at hsome
    · rename_i deletedAt key hdeletedAt hkey
      rw [← Option.some.inj hsome, hdeletedAt, hkey]
      exact ⟨rfl, Option.some_ne_none _, Option.some_ne_none _⟩
    · cases hsome
  · rintro ⟨upload, hmem, rfl, hdeleted, hkey⟩
    obtain ⟨deletedAt, hdeletedAt⟩ := Option.ne_none_iff_exists'.mp hdeleted
    obtain ⟨key, hkey⟩ := Option.ne_none_iff_exists'.mp hkey
    refine ⟨⟨deletedAt, upload.id⟩, (List.mem_insertionSort _).mpr ?_, rfl⟩
    exact List.mem_filterMap.mpr ⟨upload, hmem, by simp only [hdeletedAt, hkey]⟩

theorem tombstones_ne_nil {db : Database} :
    tombstones db ≠ [] ↔ ∃ uploadId, uploadId ∈ (tombstones db).map (·.id) := by
  constructor
  · intro hne
    obtain ⟨tombstone, hmem⟩ := List.exists_mem_of_ne_nil _ hne
    exact ⟨_, List.mem_map_of_mem hmem⟩
  · rintro ⟨uploadId, hmem⟩
    obtain ⟨tombstone, hmem, -⟩ := List.mem_map.mp hmem
    exact List.ne_nil_of_mem hmem

/-- Nothing to reconcile and nothing claimed. -/
def Quiet (db : Database) : Prop := tombstones db = [] ∧ db.schedule.reconciliationClaim = none

/-- There is a tombstone to reconcile, and any lease on it has expired by the given time. -/
def Busy (time : Instant) (db : Database) : Prop :=
  tombstones db ≠ [] ∧ ∀ lease ∈ db.schedule.reconciliationClaim,
    lease.expiresAt ≤ time ∧ lease.uploadId ∈ (tombstones db).map (·.id)

theorem runReconciliationOnce_quiet {db : Database} (h : Quiet db) (leaseSeconds : Nat)
    (now : Instant) (reading : CleanupReading) :
    runReconciliationOnce leaseSeconds now reading db = (false, db) := by
  have hnext : nextReconciliationCandidate db.schedule db = none := by
    rw [nextReconciliationCandidate, h.1]
    cases db.schedule.reconciliationCursor <;> rfl
  simp only [runReconciliationOnce, claimReconciliation, h.2, hnext]

theorem nextReconciliationCandidate_mem {db : Database} {uploadId : UUID}
    (h : nextReconciliationCandidate db.schedule db = some uploadId) :
    uploadId ∈ (tombstones db).map (·.id) := by
  obtain ⟨tombstone, htombstone, rfl⟩ := Option.map_eq_some_iff.mp h
  refine List.mem_map_of_mem ?_
  rcases Option.or_eq_some_iff.mp htombstone with hafter | ⟨-, hfirst⟩
  · cases hcursor : db.schedule.reconciliationCursor with
    | none => simp [hcursor] at hafter
    | some cursor => exact List.mem_of_find?_eq_some (by simpa [hcursor] using hafter)
  · exact List.mem_of_mem_head? hfirst

theorem runReconciliationOnce_busy {db : Database} (hkeyed : db.Keyed) {time : Instant}
    (h : Busy time db) (leaseSeconds : Nat) (now : Instant) {reading : CleanupReading}
    (htime : time ≤ reading.claimedAt) :
    (runReconciliationOnce leaseSeconds now reading db).1 = true := by
  have hlease : ∀ uploadId, uploadId ∈ (tombstones db).map (·.id) →
      ∃ claim db', leaseReconciliation leaseSeconds reading.claimedAt reading.token uploadId db =
        (some claim, db') := by
    intro uploadId hmem
    obtain ⟨upload, hupload, hid, hdeleted, -⟩ := mem_map_tombstones.mp hmem
    rw [leaseReconciliation, ← hid, find?_upload hkeyed hupload]
    simp only [if_neg hdeleted]
    exact ⟨_, _, rfl⟩
  have hclaim : ∃ claim db', claimReconciliation leaseSeconds reading.claimedAt reading.token db =
      (some claim, db') := by
    rw [claimReconciliation]
    rcases hcurrent : db.schedule.reconciliationClaim with _ | lease
    · rcases hnext : nextReconciliationCandidate db.schedule db with _ | uploadId
      · obtain ⟨tombstone, rest, htombstones⟩ := List.exists_cons_of_ne_nil h.1
        rw [nextReconciliationCandidate, htombstones] at hnext
        simp at hnext
      · exact hlease uploadId (nextReconciliationCandidate_mem hnext)
    · obtain ⟨hexpired, htombstone⟩ := h.2 lease hcurrent
      simp only [if_neg (not_lt.mpr (hexpired.trans htime))]
      exact hlease _ htombstone
  obtain ⟨claim, db', hclaim⟩ := hclaim
  simp only [runReconciliationOnce, hclaim]

namespace Cleaned

variable {done : List (DeletionField × UUID)} {db db' : Database}

/-- A tombstone stays one. -/
theorem mem_map_tombstones (h : Cleaned done db db') {uploadId : UUID}
    (hmem : uploadId ∈ (tombstones db).map (·.id)) : uploadId ∈ (tombstones db').map (·.id) := by
  obtain ⟨upload, hupload, hid, hdeleted, hkey⟩ := Splitbind.mem_map_tombstones.mp hmem
  obtain ⟨clean, hmap, hclean⟩ := h.uploads
  have hcleaned := hclean upload hupload
  refine Splitbind.mem_map_tombstones.mpr
    ⟨clean upload, hmap ▸ List.mem_map_of_mem hupload, hcleaned.id_eq.trans hid, ?_, ?_⟩
  · exact fun hnone ↦ hdeleted (hcleaned.target.mp hnone).1
  · rw [hcleaned.same]
    exact hkey

theorem tombstones_ne_nil (h : Cleaned done db db') (hne : tombstones db ≠ []) :
    tombstones db' ≠ [] := by
  obtain ⟨uploadId, hmem⟩ := Splitbind.tombstones_ne_nil.mp hne
  exact Splitbind.tombstones_ne_nil.mpr ⟨uploadId, h.mem_map_tombstones hmem⟩

/-- Only the deletion of a promotion target makes a tombstone. -/
theorem tombstones_eq_nil (h : Cleaned done db db')
    (hdone : ∀ key ∈ done, key.1 ≠ .promotionTargetDeletedAt) (hnil : tombstones db = []) :
    tombstones db' = [] := by
  by_contra hne
  obtain ⟨uploadId, hmem⟩ := Splitbind.tombstones_ne_nil.mp hne
  obtain ⟨upload', hupload', -, hdeleted, hkey⟩ := Splitbind.mem_map_tombstones.mp hmem
  obtain ⟨clean, hmap, hclean⟩ := h.uploads
  rw [hmap] at hupload'
  obtain ⟨upload, hupload, rfl⟩ := List.mem_map.mp hupload'
  have hcleaned := hclean upload hupload
  have hbefore : upload.promotionTargetDeletedAt ≠ none := fun hnone ↦
    hdeleted (hcleaned.target.mpr ⟨hnone, fun hmem ↦ hdone _ hmem rfl⟩)
  rw [hcleaned.same] at hkey
  refine Splitbind.tombstones_ne_nil.mpr ⟨upload.id, ?_⟩ hnil
  exact Splitbind.mem_map_tombstones.mpr ⟨upload, hupload, rfl, hbefore, hkey⟩

/-- The deletion of a promotion target makes one. -/
theorem tombstones_of_target (h : Cleaned done db db') {deletes : ObjectKey → Bool}
    {candidate : Candidate} (hfield : candidate.category.field = .promotionTargetDeletedAt)
    (hdeletable : candidate.deletable deletes db = true) (hdone : candidate.attempted ∈ done) :
    tombstones db' ≠ [] := by
  have hupload : ∃ upload ∈ db.uploads, upload.id = candidate.pk ∧
      upload.promotionTargetKey ≠ none := by
    have hcategory : candidate.category ≠ .issuanceOutput := by
      intro hcategory
      simp [hcategory, Category.field] at hfield
    obtain ⟨record, hrecord, howned⟩ := (Option.any_eq_true _ _).mp hdeletable
    unfold Candidate.record at hrecord
    split at hrecord
    · contradiction
    · obtain ⟨upload, hfind, rfl⟩ := Option.map_eq_some_iff.mp hrecord
      refine ⟨upload, List.mem_of_find?_eq_some hfind, by simpa using List.find?_some hfind, ?_⟩
      intro hnone
      have horphan : candidate.category ≠ .orphan := by
        intro hcategory
        simp [hcategory, Category.field] at hfield
      simp [LockedRecord.ownedKey, horphan, hnone] at howned
  obtain ⟨upload, hmem, hid, hkey⟩ := hupload
  obtain ⟨clean, hmap, hclean⟩ := h.uploads
  have hcleaned := hclean upload hmem
  refine Splitbind.tombstones_ne_nil.mpr ⟨upload.id, Splitbind.mem_map_tombstones.mpr
    ⟨clean upload, hmap ▸ List.mem_map_of_mem hmem, hcleaned.id_eq, fun hnone ↦ ?_, ?_⟩⟩
  · refine (hcleaned.target.mp hnone).2 ?_
    rw [← hfield, hid]
    exact hdone
  · rw [hcleaned.same]
    exact hkey

end Cleaned

end Splitbind
