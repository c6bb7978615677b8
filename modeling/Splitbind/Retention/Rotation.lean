import Splitbind.Library.RoundRobin
import Splitbind.Retention.CleanupSteps
import Splitbind.Retention.Recheck

/-!
# Rotation — every tombstone gets its turn

The cursor only moves when a claim is acknowledged, and then to the claimed tombstone.  However
runners claim, let leases expire, retry and acknowledge, the acknowledged tombstones therefore
follow one another in cyclic order.
-/

namespace Splitbind

/-! ## 1. Steps of reconciling runners -/

/-- A step of any runner while the set of tombstones stays as it is, and the uploads whose claim
it acknowledges. -/
inductive ReconciliationStep : Database → List UUID → Database → Prop
  | claimed (leaseSeconds : Nat) (leaseNow : Instant) (token : UUID) (db : Database) :
      ReconciliationStep db [] (claimReconciliation leaseSeconds leaseNow token db).2
  | acknowledged (claim : ReconciliationClaim) (time now : Instant) (succeeded : Bool)
      {db db' : Database} (h : ackReconciliation claim time now succeeded db = (true, db')) :
      ReconciliationStep db [claim.uploadId] db'
  | refused (claim : ReconciliationClaim) (time now : Instant) (succeeded : Bool)
      {db db' : Database} (h : ackReconciliation claim time now succeeded db = (false, db')) :
      ReconciliationStep db [] db'
  | retried (claim : ReconciliationClaim) (time now : Instant) (db : Database) :
      ReconciliationStep db [] (recordClaimRetry claim time now db).2
  /-- Anything else that keeps the tombstones, the cursor and the claim. -/
  | other {db db' : Database} (hkeyed : db'.Keyed) (htombstones : tombstones db' = tombstones db)
      (hcursor : db'.schedule.reconciliationCursor = db.schedule.reconciliationCursor)
      (hclaim : db'.schedule.reconciliationClaim = db.schedule.reconciliationClaim) :
      ReconciliationStep db [] db'

/-- Steps that follow one another, and the acknowledged uploads in their order. -/
inductive Reconciliations : Database → List UUID → Database → Prop
  | none (db : Database) : Reconciliations db [] db
  | step {db db' db'' : Database} {visited rest : List UUID}
      (hstep : ReconciliationStep db visited db') (hrest : Reconciliations db' rest db'') :
      Reconciliations db (visited ++ rest) db''

/-! ## 2. The tombstones in the order of the cursor -/

theorem mem_tombstones {db : Database} {tombstone : ReconciliationCursor} :
    tombstone ∈ tombstones db ↔ ∃ upload ∈ db.uploads, upload.id = tombstone.id ∧
      upload.promotionTargetDeletedAt = some tombstone.deletedAt ∧
      upload.promotionTargetKey ≠ none := by
  rw [tombstones, List.mem_insertionSort, List.mem_filterMap]
  refine exists_congr fun upload ↦ and_congr_right fun _ ↦ ?_
  cases tombstone
  cases upload.promotionTargetDeletedAt <;> cases upload.promotionTargetKey <;> simp [and_comm]

theorem nodup_map_tombstones {db : Database} (hkeyed : db.Keyed) :
    ((tombstones db).map (·.id)).Nodup := by
  refine ((List.perm_insertionSort _ _).map _).nodup_iff.mpr (hkeyed.uploads.sublist ?_)
  generalize db.uploads = rows
  induction rows with
  | nil => exact List.Sublist.refl _
  | cons upload rows ih =>
    rw [List.filterMap_cons, List.map_cons]
    split
    · exact ih.cons _
    · rename_i tombstone hsome
      have hid : tombstone.id = upload.id := by
        split at hsome <;> cases hsome
        rfl
      rw [List.map_cons, hid]
      exact ih.cons_cons _

/-- The tombstones are strictly ordered by the comparison of the cursor. -/
theorem pairwise_tombstones {db : Database} (hkeyed : db.Keyed) :
    (tombstones db).Pairwise fun a b ↦ a.before b = true := by
  have hsorted : (tombstones db).Pairwise (rowBefore (·.deletedAt) (·.id)) :=
    List.pairwise_insertionSort _ _
  have hdistinct := List.pairwise_map.mp (nodup_map_tombstones hkeyed)
  refine (hsorted.and hdistinct).imp fun {a b} h ↦ ?_
  simp only [ReconciliationCursor.before, Bool.or_eq_true, Bool.and_eq_true, decide_eq_true_eq]
  rcases h.1 with hlt | ⟨heq, hle⟩
  · exact .inl hlt
  · have hne : a.id.value ≠ b.id.value := fun hvalue ↦
      h.2 (by rw [show a.id = ⟨a.id.value⟩ from rfl, hvalue])
    exact .inr ⟨heq, by bv_omega⟩

theorem ReconciliationCursor.before_asymm (a b : ReconciliationCursor)
    (h : a.before b = true) : b.before a = false := by
  simp only [before, Bool.or_eq_true, Bool.and_eq_true, decide_eq_true_eq, Bool.or_eq_false_iff,
    Bool.and_eq_false_iff, decide_eq_false_iff_not] at h ⊢
  rcases h with hlt | ⟨heq, hid⟩
  · exact ⟨not_lt_of_gt hlt, .inl (ne_of_gt hlt)⟩
  · exact ⟨not_lt_of_ge heq.le, .inr (BitVec.not_lt.mpr (BitVec.le_of_lt hid))⟩

/-- The query of the next candidate takes its turn. -/
theorem nextReconciliationCandidate_eq (db : Database) :
    nextReconciliationCandidate db.schedule db =
      (RoundRobin.next ReconciliationCursor.before (tombstones db)
        db.schedule.reconciliationCursor).map (·.id) := by
  rw [nextReconciliationCandidate, RoundRobin.next]
  cases db.schedule.reconciliationCursor <;> rfl

/-- The evidence of a reconciliation is on the row, not in the order. -/
theorem tombstones_recordPromotionReconciliation {db : Database} (hkeyed : db.Keyed)
    {upload : UploadRequest} (hmem : upload ∈ db.uploads) (time : Instant) (succeeded : Bool) :
    tombstones (recordPromotionReconciliation upload time succeeded db) = tombstones db := by
  rw [tombstones, tombstones]
  congr 1
  show List.filterMap _ (Table.save _ _ _) = _
  rw [Table.save, List.filterMap_map]
  refine List.filterMap_congr fun other hother ↦ ?_
  rw [Function.comp_apply]
  by_cases hid : other.id = upload.id
  · rw [List.inj_on_of_nodup_map hkeyed.uploads hother hmem hid, if_pos rfl]
  · rw [if_neg hid]

/-! ## 3. The tombstone whose turn it is -/

/-- The tombstone the next acknowledgement is about: the leased one, or the next after the
cursor. -/
structure Due (db : Database) (tombstone : ReconciliationCursor) : Prop where
  keyed : db.Keyed
  mem : tombstone ∈ tombstones db
  turn : match db.schedule.reconciliationClaim with
    | some lease => lease.uploadId = tombstone.id
    | none => RoundRobin.next ReconciliationCursor.before (tombstones db)
        db.schedule.reconciliationCursor = some tombstone

/-- A lease, if there is one, is on a tombstone. -/
def LeasesTombstone (db : Database) : Prop :=
  ∀ lease ∈ db.schedule.reconciliationClaim, lease.uploadId ∈ (tombstones db).map (·.id)

theorem exists_due {db : Database} (hkeyed : db.Keyed) (hlease : LeasesTombstone db)
    (hne : tombstones db ≠ []) : ∃ tombstone, Due db tombstone := by
  cases hclaim : db.schedule.reconciliationClaim with
  | some lease =>
    obtain ⟨tombstone, hmem, hid⟩ := List.mem_map.mp (hlease lease hclaim)
    exact ⟨tombstone, hkeyed, hmem, by rw [hclaim]; exact hid.symm⟩
  | none =>
    obtain ⟨tombstone, hnext⟩ := RoundRobin.exists_next hne db.schedule.reconciliationCursor
    exact ⟨tombstone, hkeyed, RoundRobin.mem_of_next hnext, by rw [hclaim]; exact hnext⟩

namespace Due

variable {db db' : Database} {tombstone : ReconciliationCursor}

/-- The row of the tombstone is found, and still carries its timestamp. -/
theorem find (h : Due db tombstone) :
    ∃ upload ∈ db.uploads, db.uploads.find? (·.id = tombstone.id) = some upload ∧
      upload.id = tombstone.id ∧ upload.promotionTargetDeletedAt = some tombstone.deletedAt := by
  obtain ⟨upload, hmem, hid, hdeleted, -⟩ := mem_tombstones.mp h.mem
  exact ⟨upload, hmem, hid ▸ find?_upload h.keyed hmem, hid, hdeleted⟩

/-- A step that keeps what the turn depends on. -/
theorem congr (h : Due db tombstone) (hkeyed : db'.Keyed)
    (htombstones : tombstones db' = tombstones db)
    (hcursor : db'.schedule.reconciliationCursor = db.schedule.reconciliationCursor)
    (hclaim : db'.schedule.reconciliationClaim = db.schedule.reconciliationClaim) :
    Due db' tombstone where
  keyed := hkeyed
  mem := htombstones ▸ h.mem
  turn := by
    rw [hclaim, hcursor, htombstones]
    exact h.turn

/-- Claiming leases the tombstone whose turn it is, if anything. -/
theorem claim (h : Due db tombstone) (leaseSeconds : Nat) (leaseNow : Instant) (token : UUID) :
    Due (claimReconciliation leaseSeconds leaseNow token db).2 tombstone := by
  have hlease : Due (leaseReconciliation leaseSeconds leaseNow token tombstone.id db).2
      tombstone := by
    obtain ⟨upload, -, hfind, hid, hdeleted⟩ := h.find
    simp only [leaseReconciliation, hfind, hdeleted, reduceCtorEq, if_false]
    exact ⟨⟨h.keyed.uploads, h.keyed.recipients, h.keyed.documents, h.keyed.issuances,
      h.keyed.verifications, h.keyed.jobs⟩, h.mem, hid⟩
  have hturn := h.turn
  rw [claimReconciliation]
  cases hclaim : db.schedule.reconciliationClaim with
  | some lease =>
    rw [hclaim] at hturn
    dsimp only at hturn ⊢
    split
    · exact h
    · rw [hturn]
      exact hlease
  | none =>
    rw [hclaim] at hturn
    dsimp only at hturn ⊢
    rw [nextReconciliationCandidate_eq, hturn]
    exact hlease

/-- A claim that matches the schedule is on the tombstone whose turn it is. -/
theorem of_claimMatches (h : Due db tombstone) {claim : ReconciliationClaim}
    (hmatches : claimMatches db.schedule claim = true) : claim.uploadId = tombstone.id := by
  obtain ⟨lease, hlease, hboth⟩ := (Option.any_eq_true _ _).mp hmatches
  rw [Bool.and_eq_true, decide_eq_true_eq, decide_eq_true_eq] at hboth
  have hturn := h.turn
  rw [hlease] at hturn
  exact hboth.1.symm.trans hturn

/-- **One step**: the turn stays, or its tombstone is acknowledged and the next one is due. -/
theorem step (h : Due db tombstone) {visited : List UUID}
    (hstep : ReconciliationStep db visited db') :
    (visited = [] ∧ tombstones db' = tombstones db ∧ Due db' tombstone) ∨
      visited = [tombstone.id] ∧ tombstones db' = tombstones db ∧
        ∀ following, RoundRobin.next ReconciliationCursor.before (tombstones db) (some tombstone) =
          some following → Due db' following := by
  obtain ⟨upload, hmem, hfind, hid, hdeleted⟩ := h.find
  have hrecorded : ∀ time succeeded schedule, tombstones ((recordPromotionReconciliation upload time
      succeeded db).saveSchedule schedule) = tombstones db :=
    fun time succeeded _ ↦ tombstones_recordPromotionReconciliation h.keyed hmem time succeeded
  have hkeyed : ∀ time succeeded schedule, ((recordPromotionReconciliation upload time
      succeeded db).saveSchedule schedule).Keyed := fun time succeeded schedule ↦
    ((cleaned_recordPromotionReconciliation h.keyed hmem time succeeded).saveSchedule
      schedule).keyed h.keyed
  cases hstep with
  -- a claim moves neither the cursor nor the tombstones
  | claimed leaseSeconds leaseNow token =>
    refine .inl ⟨rfl, ?_, h.claim leaseSeconds leaseNow token⟩
    rcases Platform.claimReconciliation_cases leaseSeconds leaseNow token db with
      hnone | ⟨hcleared, -⟩ | ⟨_, -, -, -, hclaimed⟩
    · rw [hnone]
    · rw [hcleared]
      rfl
    · rw [hclaimed]
      rfl
  -- an accepted acknowledgement is the only step that visits, and moves the cursor past it
  | acknowledged claim time now succeeded hack =>
    rw [ackReconciliation] at hack
    split at hack
    · rename_i hmatches
      have hclaim := h.of_claimMatches hmatches
      simp only [hclaim, hfind, hdeleted, Prod.mk.injEq, true_and] at hack
      subst hack
      refine .inr ⟨by rw [hclaim], hrecorded _ _ _, fun following hnext ↦ ⟨hkeyed _ _ _, ?_, ?_⟩⟩
      · rw [hrecorded]
        exact RoundRobin.mem_of_next hnext
      · show RoundRobin.next _ (tombstones _) (some ⟨tombstone.deletedAt, upload.id⟩) = some following
        rw [hrecorded, hid]
        exact hnext
    · cases hack
  | refused claim time now succeeded hack =>
    rw [ackReconciliation] at hack
    split at hack
    · rename_i hmatches
      simp only [h.of_claimMatches hmatches, hfind, hdeleted, Prod.mk.injEq, Bool.true_eq_false,
        false_and] at hack
    · cases hack
      exact .inl ⟨rfl, rfl, h⟩
  -- a retry records the failure on the row and keeps its turn
  | retried claim time now =>
    refine .inl ⟨rfl, ?_⟩
    rw [recordClaimRetry]
    split
    · rename_i hmatches
      simp only [h.of_claimMatches hmatches, hfind, hdeleted, reduceCtorEq, if_false]
      exact ⟨hrecorded _ _ _, h.congr (hkeyed _ _ _) (hrecorded _ _ _) rfl rfl⟩
    · exact ⟨rfl, h⟩
  | other hkeyed htombstones hcursor hclaim =>
    exact .inl ⟨rfl, htombstones, h.congr hkeyed htombstones hcursor hclaim⟩

end Due

/-! ## 4. Runs -/

/-- **A run** acknowledges tombstones each of which is the next after the one before. -/
theorem Reconciliations.chain {db db' : Database} {visited : List UUID}
    (hrun : Reconciliations db visited db') {first : ReconciliationCursor} (hdue : Due db first) :
    ∃ served : List ReconciliationCursor, visited = served.map (·.id) ∧
      served.IsChain (fun a b ↦
        RoundRobin.next ReconciliationCursor.before (tombstones db) (some a) = some b) ∧
      ∀ tombstone ∈ served.head?, tombstone = first := by
  induction hrun generalizing first with
  | none db => exact ⟨[], rfl, List.isChain_nil, by simp⟩
  | step hstep hrest ih =>
    rcases hdue.step hstep with ⟨rfl, htombstones, hdue'⟩ | ⟨rfl, htombstones, hdue'⟩
    · obtain ⟨served, hmap, hchain, hhead⟩ := ih hdue'
      rw [htombstones] at hchain
      exact ⟨served, hmap, hchain, hhead⟩
    · obtain ⟨following, hnext⟩ := RoundRobin.exists_next (List.ne_nil_of_mem hdue.mem) (some first)
      obtain ⟨served, hmap, hchain, hhead⟩ := ih (hdue' following hnext)
      rw [htombstones] at hchain
      refine ⟨first :: served, by rw [List.map_cons, ← hmap]; rfl, ?_, by simp⟩
      refine List.isChain_cons.mpr ⟨fun tombstone htombstone ↦ ?_, hchain⟩
      rw [hhead tombstone htombstone]
      exact hnext

theorem Reconciliations.single {db db' : Database} {visited : List UUID}
    (hstep : ReconciliationStep db visited db') : Reconciliations db visited db' := by
  have hrun := Reconciliations.step hstep (.none db')
  rwa [List.append_nil] at hrun

/-- A reconciliation of `cleanup_expired` consists of such steps. -/
theorem runReconciliationOnce_steps (leaseSeconds : Nat) (now : Instant) (reading : CleanupReading)
    (db : Database) :
    ∃ visited, Reconciliations db visited
      (runReconciliationOnce leaseSeconds now reading db).2 := by
  have hclaimed := ReconciliationStep.claimed leaseSeconds reading.claimedAt reading.token db
  rw [runReconciliationOnce]
  rcases hclaim : claimReconciliation leaseSeconds reading.claimedAt reading.token db with
    ⟨_ | claim, db₁⟩
  · rw [hclaim] at hclaimed
    exact ⟨[], .single hclaimed⟩
  · rw [hclaim] at hclaimed
    have hrun : ∃ visited, ReconciliationStep db₁ visited (runClaim now reading claim db₁) := by
      obtain ⟨attempt, hrun⟩ : ∃ attempt : ReconciliationAttempt, runClaim now reading claim db₁ =
          if attempt.acknowledge then
            (ackReconciliation claim now reading.acknowledgedAt attempt.succeeded db₁).2
          else (recordClaimRetry claim now reading.acknowledgedAt db₁).2 := ⟨_, rfl⟩
      rw [hrun]
      split
      · rcases hack : ackReconciliation claim now reading.acknowledgedAt _ db₁ with
          ⟨_ | _, db₂⟩
        · exact ⟨[], .refused claim now reading.acknowledgedAt _ hack⟩
        · exact ⟨[claim.uploadId], .acknowledged claim now reading.acknowledgedAt _ hack⟩
      · exact ⟨[], .retried claim now reading.acknowledgedAt db₁⟩
    obtain ⟨visited, hstep⟩ := hrun
    exact ⟨_, .step hclaimed (.single hstep)⟩

/-- **Every tombstone is visited.**  As many consecutive acknowledgements as there are tombstones
visit each of them once, in cyclic order; without a lease they begin with the first tombstone
after the cursor. -/
theorem reconciliation_visits_all {db db' : Database} {visited : List UUID} (hkeyed : db.Keyed)
    (hlease : LeasesTombstone db) (hsome : tombstones db ≠ [])
    (hrun : Reconciliations db visited db') (hlength : visited.length = (tombstones db).length) :
    (∃ k, visited = ((tombstones db).map (·.id)).rotate k) ∧ visited.Nodup ∧
      (∀ uploadId, uploadId ∈ visited ↔ uploadId ∈ (tombstones db).map (·.id)) ∧
      (db.schedule.reconciliationClaim = none →
        visited.head? = nextReconciliationCandidate db.schedule db) := by
  obtain ⟨first, hdue⟩ := exists_due hkeyed hlease hsome
  obtain ⟨served, rfl, hchain, hhead⟩ := hrun.chain hdue
  rw [List.length_map] at hlength
  have hne : served ≠ [] := by
    rintro rfl
    exact hsome (List.length_eq_zero_iff.mp hlength.symm)
  have hfirst : served.head? = some first := by
    rw [List.head?_eq_some_head hne, Option.some.injEq]
    exact hhead _ (List.head?_eq_some_head hne)
  obtain ⟨k, hk, hget⟩ := List.mem_iff_getElem.mp hdue.mem
  have hrotate : served = (tombstones db).rotate k :=
    RoundRobin.eq_rotate_of_isChain (pairwise_tombstones hkeyed)
      ReconciliationCursor.before_asymm hchain hlength hk (hget ▸ hfirst)
  have hmap : served.map (·.id) = ((tombstones db).map (·.id)).rotate k := by
    rw [hrotate, List.map_rotate]
  refine ⟨⟨k, hmap⟩, ?_, fun uploadId ↦ by rw [hmap, List.mem_rotate], fun hclaim ↦ ?_⟩
  · rw [hmap, List.nodup_rotate]
    exact nodup_map_tombstones hkeyed
  · have hturn := hdue.turn
    rw [hclaim] at hturn
    rw [nextReconciliationCandidate_eq, hturn, List.head?_map, hfirst]

/-- A failed promotion whose target was deleted. -/
def tombstonedUpload (n : Nat) : UploadRequest :=
  { abandonedUpload with
    id := ⟨.ofNat 128 n⟩
    objectKey := .orphan .issuance ⟨1⟩ ⟨.ofNat 128 n⟩
    promotionTargetKey := some (.promotedInput .issuance ⟨1⟩ ⟨.ofNat 128 n⟩)
    promotionStatus := .failed
    safeErrorCode := some "PROMOTION_COPY_FAILED"
    promotionTargetDeletedAt := some 100 }

/-- Two tombstones of one time, and a cursor between them that points at no row. -/
def tombstonedDatabase : Database :=
  { abandonedDatabase with
    uploads := [tombstonedUpload 6, tombstonedUpload 2]
    schedule := ⟨.reconciliation, some ⟨100, ⟨4⟩⟩, none, true⟩ }

/-- The database after a claim with the token and its acknowledgement. -/
def reconciledOnce (uploadId token : UUID) (db : Database) : Database :=
  (ackReconciliation ⟨uploadId, token⟩ 200 200 true (claimReconciliation 300 200 token db).2).2

theorem tombstonedDatabase_run :
    Reconciliations tombstonedDatabase [⟨6⟩, ⟨2⟩]
      (reconciledOnce ⟨2⟩ ⟨8⟩ (reconciledOnce ⟨6⟩ ⟨7⟩ tombstonedDatabase)) := by
  have hpass : ∀ {uploadId token db rest db''}, (ackReconciliation ⟨uploadId, token⟩ 200 200 true
        (claimReconciliation 300 200 token db).2).1 = true →
      Reconciliations (reconciledOnce uploadId token db) rest db'' →
      Reconciliations db (uploadId :: rest) db'' := fun hack hrest ↦
    .step (.claimed 300 200 _ _) (.step (.acknowledged _ 200 200 true (Prod.ext hack rfl)) hrest)
  exact hpass (by decide +kernel) (hpass (by decide +kernel) (.none _))

theorem reconciliation_visits_all_sample :
    (∃ k, [(⟨6⟩ : UUID), ⟨2⟩] = ((tombstones tombstonedDatabase).map (·.id)).rotate k) ∧
      [(⟨6⟩ : UUID), ⟨2⟩].Nodup ∧
      (∀ uploadId, uploadId ∈ [(⟨6⟩ : UUID), ⟨2⟩] ↔
        uploadId ∈ (tombstones tombstonedDatabase).map (·.id)) ∧
      (tombstonedDatabase.schedule.reconciliationClaim = none →
        [(⟨6⟩ : UUID), ⟨2⟩].head? =
          nextReconciliationCandidate tombstonedDatabase.schedule tombstonedDatabase) :=
  reconciliation_visits_all (by constructor <;> decide +kernel) (fun _ hlease ↦ nomatch hlease)
    (by decide +kernel) tombstonedDatabase_run (by decide +kernel)

end Splitbind
