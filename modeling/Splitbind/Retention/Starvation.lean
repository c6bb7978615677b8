import Splitbind.Retention.CleanupSteps
import Splitbind.Retention.Lease

/-!
# Starvation — how far the runs of `cleanup_expired` get

A run attempts as many candidates as the lanes leave it turns.  A reconciliation is always
followed by an ordinary attempt, so every second run has at least half of its batch for the
candidates, and more while there is no tombstone.
-/

namespace Splitbind

/-! ## 1. Turns -/

/-- One if the ordinary lane has the next turn. -/
def CleanupLane.turn : CleanupLane → Nat
  | .ordinary => 1
  | .reconciliation => 0

/-- The place of the first promotion target that can be deleted. -/
def firstTarget (deletes : ObjectKey → Bool) (now : Instant) (db : Database) : Nat :=
  (expiredCandidates now db).findIdx fun candidate ↦
    candidate.category.field = .promotionTargetDeletedAt && candidate.deletable deletes db

section Run

variable {leaseSeconds : Nat} {deletes : ObjectKey → Bool} {now : Instant} {start : Database}
  {k : Nat} {run : CleanupState}

theorem Progress.length_attempted (h : Progress deletes now start k run) :
    run.attempted.length = k := by
  rw [h.attempted, List.length_reverse, List.length_map, List.length_take, min_eq_left h.le]

theorem cleanupLoop_cons {reading : CleanupReading} {run' : CleanupState}
    (hstep : cleanupStep leaseSeconds deletes now reading run = (true, run'))
    (readings : List CleanupReading) :
    cleanupLoop leaseSeconds deletes now (reading :: readings) run =
      cleanupLoop leaseSeconds deletes now readings run' := by
  rw [cleanupLoop, hstep]

variable (leaseSeconds)

/-- **One iteration**: an attempt, which hands the turn over; a reconciliation, out of turn only
when no candidate is left, which hands it back; or the end of the run without a candidate. -/
theorem Progress.step (hkeyed : start.Keyed) (h : Progress deletes now start k run)
    (reading : CleanupReading) :
    ∃ goesOn run', cleanupStep leaseSeconds deletes now reading run = (goesOn, run') ∧
      (goesOn = true ∧ Progress deletes now start (k + 1) run' ∧
          run'.db.schedule.nextLane = .reconciliation ∨
        goesOn = true ∧ Progress deletes now start k run' ∧
          run'.db.schedule.nextLane = .ordinary ∧
          (run.db.schedule.nextLane = .reconciliation ∨
            k = (expiredCandidates now start).length) ∨
        goesOn = false ∧ Progress deletes now start k run' ∧
          k = (expiredCandidates now start).length) := by
  obtain ⟨ran, db, hrun, hcleaned, hlanes⟩ := runReconciliationOnce_cases leaseSeconds now reading
    (h.cleaned.keyed hkeyed)
  have hafter := h.reconciled hcleaned
  rcases hlane : run.db.schedule.nextLane with _ | _
  · rcases h.ordinary hkeyed with ⟨hend, hnone⟩ | ⟨candidate, run', -, hsome, hnext, -, hschedule⟩
    · refine ⟨ran, { run with db := db }, by simp only [cleanupStep, hlane, hnone, hrun], ?_⟩
      rcases hlanes with ⟨rfl, -⟩ | ⟨rfl, hordinary, -⟩
      · exact .inr (.inr ⟨rfl, hafter, hend⟩)
      · exact .inr (.inl ⟨rfl, hafter, hordinary, .inr hend⟩)
    · exact ⟨true, run', by simp only [cleanupStep, hlane, hsome], .inl ⟨rfl, hnext, by
        rw [hschedule]⟩⟩
  · rcases hlanes with ⟨rfl, -⟩ | ⟨rfl, hordinary, -⟩
    · rcases hafter.ordinary hkeyed with ⟨hend, hnone⟩ | ⟨candidate, run', -, hsome, hnext, -, hschedule⟩
      · exact ⟨false, { run with db := db }, by simp [cleanupStep, hlane, hrun, hnone],
          .inr (.inr ⟨rfl, hafter, hend⟩)⟩
      · exact ⟨true, run', by simp [cleanupStep, hlane, hrun, hsome], .inl ⟨rfl, hnext, by
          rw [hschedule]⟩⟩
    · exact ⟨true, { run with db := db }, by simp [cleanupStep, hlane, hrun],
        .inr (.inl ⟨rfl, hafter, hordinary, .inl rfl⟩)⟩

/-- **The turns of a run**: unless it attempts every candidate, an attempt and the turn it hands
over count for two iterations. -/
theorem Progress.loop (hkeyed : start.Keyed) (readings : List CleanupReading) :
    ∀ {k : Nat} {run : CleanupState}, Progress deletes now start k run →
      ∃ k', k ≤ k' ∧
        Progress deletes now start k' (cleanupLoop leaseSeconds deletes now readings run) ∧
        (k' = (expiredCandidates now start).length ∨
          2 * k + readings.length + run.db.schedule.nextLane.turn ≤ 2 * k' +
            (cleanupLoop leaseSeconds deletes now readings run).db.schedule.nextLane.turn) := by
  induction readings with
  | nil => exact fun {k run} h ↦ ⟨k, le_rfl, h, .inr (by simp [cleanupLoop])⟩
  | cons reading readings ih =>
    intro k run h
    obtain ⟨goesOn, run', hstep, hcases⟩ := h.step leaseSeconds hkeyed reading
    rw [List.length_cons]
    rcases hcases with ⟨rfl, hnext, hlane⟩ | ⟨rfl, hnext, hlane, hturn⟩ | ⟨rfl, hnext, hend⟩
    · rw [cleanupLoop_cons hstep]
      obtain ⟨k', hle, hprogress, hcount⟩ := ih hnext
      refine ⟨k', by omega, hprogress, hcount.imp_right fun hcount ↦ ?_⟩
      have hturn : run.db.schedule.nextLane.turn ≤ 1 := by
        cases run.db.schedule.nextLane <;> decide
      rw [hlane, show CleanupLane.reconciliation.turn = 0 from rfl] at hcount
      omega
    · rw [cleanupLoop_cons hstep]
      obtain ⟨k', hle, hprogress, hcount⟩ := ih hnext
      refine ⟨k', hle, hprogress, ?_⟩
      rcases hturn with hturn | hend
      · refine hcount.imp_right fun hcount ↦ ?_
        rw [hlane, show CleanupLane.ordinary.turn = 1 from rfl] at hcount
        rw [hturn, show CleanupLane.reconciliation.turn = 0 from rfl]
        omega
      · exact .inl (le_antisymm hprogress.le (hend ▸ hle))
    · rw [cleanupLoop, hstep]
      exact ⟨k, le_rfl, hnext, .inl hend⟩

/-- An attempt while there is nothing to reconcile makes a tombstone if it deletes a promotion
target, and otherwise leaves nothing to reconcile. -/
theorem Progress.step_quiet (hkeyed : start.Keyed) (h : Progress deletes now start k run)
    (hquiet : Quiet run.db) (hmore : k < (expiredCandidates now start).length)
    (reading : CleanupReading) :
    ∃ run', cleanupStep leaseSeconds deletes now reading run = (true, run') ∧
      Progress deletes now start (k + 1) run' ∧
      run'.db.schedule.nextLane = .reconciliation ∧ run'.db.schedule.reconciliationClaim = none ∧
      (k < firstTarget deletes now start → tombstones run'.db = []) ∧
      (k = firstTarget deletes now start → tombstones run'.db ≠ []) := by
  obtain ⟨candidate, run', hget, hsome, hnext, hcleaned, hschedule⟩ :=
    (h.ordinary hkeyed).resolve_left fun hend ↦ absurd hend.1 (by omega)
  have hstep : cleanupStep leaseSeconds deletes now reading run = (true, run') := by
    rcases hlane : run.db.schedule.nextLane with _ | _
    · simp only [cleanupStep, hlane, hsome]
    · simp [cleanupStep, hlane, runReconciliationOnce_quiet hquiet, hsome]
  refine ⟨run', hstep, hnext, by rw [hschedule], by rw [hschedule]; exact hquiet.2, ?_, ?_⟩
  · intro hbefore
    refine hcleaned.tombstones_eq_nil (fun key hkey hfield ↦ ?_) hquiet.1
    have hnot := List.not_of_lt_findIdx hbefore
    rw [List.getElem?_eq_getElem hmore, Option.some.injEq] at hget
    rw [hget] at hnot
    split at hkey
    · rename_i hdeletable
      rw [List.mem_singleton.mp hkey] at hfield
      simp [hdeletable, show candidate.category.field = _ from hfield] at hnot
    · simp at hkey
  · intro hat
    rw [hat] at hget
    have htarget := List.findIdx_of_getElem?_eq_some hget
    rw [Bool.and_eq_true, decide_eq_true_eq] at htarget
    have hdeletable : candidate.deletable deletes run.db = true := by
      rw [h.cleaned.deletable]
      exact htarget.2
    rw [if_pos htarget.2] at hcleaned
    exact hcleaned.tombstones_of_target htarget.1 hdeletable List.mem_cons_self

/-- **The turns of a run that begins with nothing to reconcile**: it attempts one candidate after
the other up to the first promotion target it can delete. -/
theorem Progress.loop_quiet (hkeyed : start.Keyed) (readings : List CleanupReading) :
    ∀ {k : Nat} {run : CleanupState}, Progress deletes now start k run → Quiet run.db →
      k ≤ firstTarget deletes now start →
      ∃ k', Progress deletes now start k' (cleanupLoop leaseSeconds deletes now readings run) ∧
        (k' = (expiredCandidates now start).length ∨
          k + readings.length ≤ firstTarget deletes now start ∧ k' = k + readings.length ∨
          firstTarget deletes now start < k + readings.length ∧
            firstTarget deletes now start + 1 + k + readings.length ≤ 2 * k' +
              (cleanupLoop leaseSeconds deletes now readings run).db.schedule.nextLane.turn) ∧
        ((expiredCandidates now start).length ≤ firstTarget deletes now start →
          Quiet (cleanupLoop leaseSeconds deletes now readings run).db) := by
  induction readings with
  | nil =>
    exact fun {k run} h hquiet hle ↦ ⟨k, h, .inr (.inl ⟨by simpa using hle, rfl⟩), fun _ ↦ hquiet⟩
  | cons reading readings ih =>
    intro k run h hquiet hle
    rw [List.length_cons]
    by_cases hmore : k < (expiredCandidates now start).length
    · obtain ⟨run', hstep, hnext, hlane, hclaim, hbefore, -⟩ :=
        h.step_quiet leaseSeconds hkeyed hquiet hmore reading
      rw [cleanupLoop_cons hstep]
      by_cases htarget : k = firstTarget deletes now start
      · obtain ⟨k', -, hprogress, hcount⟩ :=
          hnext.loop leaseSeconds hkeyed readings
        refine ⟨k', hprogress, ?_, fun hnone ↦ by omega⟩
        refine hcount.imp_right fun hcount ↦ .inr ⟨by omega, ?_⟩
        omega
      · obtain ⟨k', hprogress, hcount, hstill⟩ := ih hnext ⟨hbefore (by omega), hclaim⟩ (by omega)
        refine ⟨k', hprogress, ?_, hstill⟩
        rcases hcount with hend | ⟨hle', heq⟩ | ⟨hlt, hcount⟩
        · exact .inl hend
        · exact .inr (.inl ⟨by omega, by omega⟩)
        · exact .inr (.inr ⟨by omega, by omega⟩)
    · -- no candidate is left, and nothing is reconciled
      have hend : k = (expiredCandidates now start).length := le_antisymm h.le (by omega)
      have hnone : runOrdinaryOnce deletes now run = none := by
        rcases h.ordinary hkeyed with ⟨-, hnone⟩ | ⟨_, _, hget, -⟩
        · exact hnone
        · rw [List.getElem?_eq_none (by omega)] at hget
          cases hget
      have hstep : cleanupStep leaseSeconds deletes now reading run = (false, run) := by
        rcases hlane : run.db.schedule.nextLane with _ | _
        · simp [cleanupStep, hlane, hnone, runReconciliationOnce_quiet hquiet]
        · simp [cleanupStep, hlane, hnone, runReconciliationOnce_quiet hquiet]
      rw [cleanupLoop, hstep]
      exact ⟨k, h, .inl hend, fun _ ↦ hquiet⟩

/-! ## 2. Runs that always find a tombstone -/

/-- An iteration whose reconciliation, if it has one, comes after every lease and succeeds. -/
def CleanupReading.Prompt (time : Instant) (reading : CleanupReading) : Prop :=
  reading.reconciled = true ∧ time ≤ reading.claimedAt

/-- With a tombstone to reconcile, the ordinary lane gets a candidate only in its own turn. -/
theorem Progress.step_busy (hkeyed : start.Keyed) (h : Progress deletes now start k run)
    {time : Instant} (hbusy : Busy time run.db) {reading : CleanupReading}
    (hprompt : reading.Prompt time) :
    ∃ run', cleanupStep leaseSeconds deletes now reading run = (true, run') ∧
      Busy time run'.db ∧
      (run.db.schedule.nextLane = .ordinary ∧ Progress deletes now start (k + 1) run' ∧
          run'.db.schedule.nextLane = .reconciliation ∨
        Progress deletes now start k run' ∧ run'.db.schedule.nextLane = .ordinary) := by
  have hran := runReconciliationOnce_busy (h.cleaned.keyed hkeyed) hbusy leaseSeconds now hprompt.2
  obtain ⟨ran, db, hrun, hcleaned, hlanes⟩ := runReconciliationOnce_cases leaseSeconds now reading
    (h.cleaned.keyed hkeyed)
  rw [hrun] at hran
  obtain rfl : ran = true := hran
  obtain ⟨-, hordinary, hclaim⟩ := hlanes.resolve_left fun hnot ↦ Bool.noConfusion hnot.1
  have hbusy' : Busy time db :=
    ⟨hcleaned.tombstones_ne_nil hbusy.1, by simp [hclaim hprompt.1]⟩
  rcases hlane : run.db.schedule.nextLane with _ | _
  · rcases h.ordinary hkeyed with ⟨-, hnone⟩ | ⟨_, run', -, hsome, hnext, hdeleted, hschedule⟩
    · exact ⟨{ run with db := db }, by simp [cleanupStep, hlane, hnone, hrun], hbusy',
        .inr ⟨h.reconciled hcleaned, hordinary⟩⟩
    · refine ⟨run', by simp [cleanupStep, hlane, hsome], ⟨?_, fun lease hlease ↦ ?_⟩,
        .inl ⟨rfl, hnext, by rw [hschedule]⟩⟩
      · exact hdeleted.tombstones_ne_nil hbusy.1
      · rw [hschedule] at hlease
        exact ⟨(hbusy.2 lease hlease).1, hdeleted.mem_map_tombstones (hbusy.2 lease hlease).2⟩
  · exact ⟨{ run with db := db }, by simp [cleanupStep, hlane, hrun], hbusy',
      .inr ⟨h.reconciled hcleaned, hordinary⟩⟩

theorem Progress.loop_busy (hkeyed : start.Keyed) {time : Instant}
    {readings : List CleanupReading} (hprompt : ∀ reading ∈ readings, reading.Prompt time) :
    ∀ {k : Nat} {run : CleanupState}, Progress deletes now start k run → Busy time run.db →
      ∃ k', Progress deletes now start k' (cleanupLoop leaseSeconds deletes now readings run) ∧
        Busy time (cleanupLoop leaseSeconds deletes now readings run).db ∧
        2 * k' + (cleanupLoop leaseSeconds deletes now readings run).db.schedule.nextLane.turn ≤
          2 * k + readings.length + run.db.schedule.nextLane.turn := by
  induction readings with
  | nil => exact fun {k run} h hbusy ↦ ⟨k, h, hbusy, by simp [cleanupLoop]⟩
  | cons reading readings ih =>
    intro k run h hbusy
    rw [List.forall_mem_cons] at hprompt
    obtain ⟨run', hstep, hbusy', hcases⟩ :=
      h.step_busy leaseSeconds hkeyed hbusy hprompt.1
    rw [cleanupLoop_cons hstep, List.length_cons]
    rcases hcases with ⟨hturn, hnext, hlane⟩ | ⟨hnext, hlane⟩
    · obtain ⟨k', hprogress, hstill, hcount⟩ := ih hprompt.2 hnext hbusy'
      refine ⟨k', hprogress, hstill, ?_⟩
      rw [hlane, show CleanupLane.reconciliation.turn = 0 from rfl] at hcount
      rw [hturn, show CleanupLane.ordinary.turn = 1 from rfl]
      omega
    · obtain ⟨k', hprogress, hstill, hcount⟩ := ih hprompt.2 hnext hbusy'
      refine ⟨k', hprogress, hstill, ?_⟩
      rw [hlane, show CleanupLane.ordinary.turn = 1 from rfl] at hcount
      omega

/-- A run that begins with nothing to reconcile and deletes a promotion target. -/
theorem Progress.loop_target (hkeyed : start.Keyed) {time : Instant}
    {readings : List CleanupReading} (hprompt : ∀ reading ∈ readings, reading.Prompt time) :
    ∀ {k : Nat} {run : CleanupState}, Progress deletes now start k run → Quiet run.db →
      k ≤ firstTarget deletes now start →
      firstTarget deletes now start < (expiredCandidates now start).length →
      firstTarget deletes now start < k + readings.length →
      ∃ k', Progress deletes now start k' (cleanupLoop leaseSeconds deletes now readings run) ∧
        Busy time (cleanupLoop leaseSeconds deletes now readings run).db ∧
        2 * k' ≤ firstTarget deletes now start + 1 + k + readings.length := by
  induction readings with
  | nil => exact fun {k run} _ _ hle _ hlt ↦ absurd hlt (by simpa using hle)
  | cons reading readings ih =>
    intro k run h hquiet hle htarget hlt
    rw [List.forall_mem_cons] at hprompt
    rw [List.length_cons] at hlt ⊢
    obtain ⟨run', hstep, hnext, hlane, hclaim, hbefore, hat⟩ :=
      h.step_quiet leaseSeconds hkeyed hquiet (by omega) reading
    rw [cleanupLoop_cons hstep]
    by_cases hhere : k = firstTarget deletes now start
    · have hbusy : Busy time run'.db := ⟨hat hhere, by simp [hclaim]⟩
      obtain ⟨k', hprogress, hstill, hcount⟩ :=
        hnext.loop_busy leaseSeconds hkeyed hprompt.2 hbusy
      refine ⟨k', hprogress, hstill, ?_⟩
      rw [hlane, show CleanupLane.reconciliation.turn = 0 from rfl] at hcount
      omega
    · obtain ⟨k', hprogress, hstill, hcount⟩ :=
        ih hprompt.2 hnext ⟨hbefore (by omega), hclaim⟩ (by omega) htarget (by omega)
      exact ⟨k', hprogress, hstill, by omega⟩

/-- A run makes at most one attempt in an iteration. -/
theorem Progress.loop_le (hkeyed : start.Keyed) (readings : List CleanupReading) :
    ∀ {k : Nat} {run : CleanupState}, Progress deletes now start k run →
      (cleanupLoop leaseSeconds deletes now readings run).attempted.length ≤
        k + readings.length := by
  induction readings with
  | nil => exact fun {k run} h ↦ h.length_attempted.le
  | cons reading readings ih =>
    intro k run h
    obtain ⟨goesOn, run', hstep, hcases⟩ := h.step leaseSeconds hkeyed reading
    rw [List.length_cons]
    rcases hcases with ⟨rfl, hnext, -⟩ | ⟨rfl, hnext, -⟩ | ⟨rfl, hnext, -⟩
    · rw [cleanupLoop_cons hstep]
      exact (ih hnext).trans (by omega)
    · rw [cleanupLoop_cons hstep]
      exact (ih hnext).trans (by omega)
    · rw [cleanupLoop, hstep]
      exact hnext.length_attempted.le.trans (by omega)

end Run

/-! ## 3. Run after run -/

namespace CleanupSeries

/-- The candidates of the series. -/
def candidates (series : CleanupSeries) : List Candidate :=
  expiredCandidates (series.now 0) series.db

/-- What the series assumes: primary keys, a lease on a tombstone if there is one, an accepted
batch size, and that no row becomes eligible between the runs. -/
structure Accepted (series : CleanupSeries) : Prop where
  keyed : series.db.Keyed
  lease : ∀ lease ∈ series.db.schedule.reconciliationClaim,
    lease.uploadId ∈ (tombstones series.db).map (·.id)
  batchSize : 1 ≤ series.batchSize ∧ series.batchSize ≤ maxBatchSize
  candidates : ∀ r, expiredCandidates (series.now r) series.db = series.candidates

variable {series : CleanupSeries} {readings : Nat → Nat → CleanupReading}

theorem progress_zero (series : CleanupSeries) (readings : Nat → Nat → CleanupReading) (r : Nat) :
    Progress series.deletes (series.now r) (series.before readings r) 0
      ⟨[], 0, series.before readings r⟩ :=
  .zero

theorem progress_run {r : Nat} (hkeyed : (series.before readings r).Keyed) :
    Progress series.deletes (series.now r) (series.before readings r)
      (series.run readings r).attempted.length (series.run readings r) := by
  obtain ⟨k, -, hprogress, -⟩ := (series.progress_zero readings r).loop series.leaseSeconds hkeyed
    ((List.range series.batchSize).map (readings r))
  rw [run, cleanupRun, hprogress.length_attempted]
  exact hprogress

theorem Accepted.before_cleaned (h : series.Accepted) (readings : Nat → Nat → CleanupReading)
    (r : Nat) :
    ∃ done, Cleaned done series.db (series.before readings r) := by
  induction r with
  | zero => exact ⟨[], .refl series.db⟩
  | succ r ih =>
    obtain ⟨done, hcleaned⟩ := ih
    exact ⟨_, hcleaned.trans (progress_run (hcleaned.keyed h.keyed)).cleaned⟩

theorem Accepted.before_keyed (h : series.Accepted) (readings : Nat → Nat → CleanupReading)
    (r : Nat) : (series.before readings r).Keyed := by
  obtain ⟨done, hcleaned⟩ := h.before_cleaned readings r
  exact hcleaned.keyed h.keyed

/-- The candidates of each run are those of the series that are not deleted yet. -/
theorem Accepted.expired_before (h : series.Accepted) (r s : Nat) :
    expiredCandidates (series.now s) (series.before readings r) =
      expiredCandidates (series.now 0) (series.before readings r) := by
  obtain ⟨done, hcleaned⟩ := h.before_cleaned readings r
  rw [hcleaned.expired, hcleaned.expired, h.candidates, h.candidates]

theorem Accepted.deletable_before (h : series.Accepted) (r : Nat) (candidate : Candidate) :
    candidate.deletable series.deletes (series.before readings r) =
      candidate.deletable series.deletes series.db := by
  obtain ⟨done, hcleaned⟩ := h.before_cleaned readings r
  exact hcleaned.deletable series.deletes candidate

/-- **The series serves its candidates as a retry queue.** -/
theorem Accepted.rounds (h : series.Accepted) (readings : Nat → Nat → CleanupReading) :
    RetryQueue.Rounds (fun candidate ↦ !candidate.deletable series.deletes series.db)
      (fun _ ↦ True) (fun r ↦ (series.run readings r).attempted.length)
      (fun r ↦ expiredCandidates (series.now 0) (series.before readings r)) := by
  refine .of_serve fun r ↦ ?_
  have hqueue := (progress_run (h.before_keyed readings r)).queue (h.before_keyed readings r)
  have hnext : (series.run readings r).db = series.before readings (r + 1) := rfl
  rw [hnext, h.expired_before (r + 1) r, h.expired_before r r] at hqueue
  simp only [h.deletable_before] at hqueue
  exact hqueue

/-- A candidate is attempted in a run that serves it. -/
theorem Accepted.attempted_iff (h : series.Accepted) {candidate : Candidate}
    (hmem : candidate ∈ series.candidates) (r : Nat) :
    candidate.attempted ∈ (series.run readings r).attempted ↔
      candidate ∈ (expiredCandidates (series.now 0) (series.before readings r)).take
        (series.run readings r).attempted.length := by
  have hattempted := (progress_run (h.before_keyed readings r)).attempted
  rw [h.expired_before] at hattempted
  generalize (series.run readings r).attempted.length = k at hattempted ⊢
  rw [hattempted, List.mem_reverse]
  refine ⟨fun hmap ↦ ?_, List.mem_map_of_mem⟩
  obtain ⟨other, hother, heq⟩ := List.mem_map.mp hmap
  obtain ⟨done, hcleaned⟩ := h.before_cleaned readings r
  have hother' : other ∈ series.candidates := by
    have hbefore := List.mem_of_mem_take hother
    rw [hcleaned.expired] at hbefore
    exact List.mem_of_mem_filter hbefore
  rwa [← List.inj_on_of_nodup_map (nodup_attempted _ h.keyed) hother' hmem heq]

/-! ## 4. When nobody starves -/

/-- Whatever the lanes do, every candidate is attempted in one of the first `bound` runs. -/
def StarvesNobody (series : CleanupSeries) (bound : Nat) : Prop :=
  ∀ readings, ∀ candidate ∈ series.candidates,
    ∃ r < bound, candidate.attempted ∈ (series.run readings r).attempted

/-- The attempts the first run is sure to make before it has a tombstone to reconcile. -/
def firstAttempts (series : CleanupSeries) : Nat :=
  if tombstones series.db = [] then
    (min (firstTarget series.deletes (series.now 0) series.db) series.batchSize +
      series.batchSize + 1) / 2
  else 0

/-- The attempts one of any two runs is sure to make: the whole batch if there never is a
tombstone, half of it if the lanes take turns. -/
def lastingAttempts (series : CleanupSeries) : Nat :=
  if tombstones series.db = [] ∧
      series.candidates.length ≤ firstTarget series.deletes (series.now 0) series.db then
    series.batchSize
  else (series.batchSize + 1) / 2

/-- Every candidate has fewer candidates ahead of it whose deletion fails than a run has attempts,
or is among those the first run is sure to reach. -/
def FewFailuresAhead (series : CleanupSeries) : Prop :=
  ∀ ahead candidate behind, series.candidates = ahead ++ candidate :: behind →
    ahead.length < series.firstAttempts ∨
      ahead.countP (fun other ↦ !other.deletable series.deletes series.db) <
        series.lastingAttempts

theorem Accepted.quiet (h : series.Accepted) (hnone : tombstones series.db = []) :
    Quiet series.db := by
  refine ⟨hnone, Option.eq_none_iff_forall_not_mem.mpr fun lease hlease ↦ ?_⟩
  have hmem := h.lease lease hlease
  rw [hnone] at hmem
  cases hmem

theorem turn_le (lane : CleanupLane) : lane.turn ≤ 1 := by
  cases lane <;> decide

/-- The first run reaches the candidates before its first tombstone, and some after it. -/
theorem Accepted.firstAttempts_le (h : series.Accepted) (readings : Nat → Nat → CleanupReading)
    (hnone : tombstones series.db = []) :
    (series.run readings 0).attempted.length = series.candidates.length ∨
      series.firstAttempts ≤ (series.run readings 0).attempted.length := by
  have hzero : Progress series.deletes (series.now 0) series.db 0 ⟨[], 0, series.db⟩ := .zero
  obtain ⟨k, hprogress, hcount, -⟩ := hzero.loop_quiet series.leaseSeconds h.keyed
    ((List.range series.batchSize).map (readings 0)) (h.quiet hnone) (Nat.zero_le _)
  have hlength : (series.run readings 0).attempted.length = k := hprogress.length_attempted
  rw [List.length_map, List.length_range] at hcount
  rw [hlength, firstAttempts, if_pos hnone]
  have hturn := turn_le (cleanupLoop series.leaseSeconds series.deletes (series.now 0)
    ((List.range series.batchSize).map (readings 0)) ⟨[], 0, series.db⟩).db.schedule.nextLane
  rcases hcount with hend | ⟨hle, heq⟩ | ⟨hlt, hcount⟩
  · exact .inl hend
  · exact .inr (by omega)
  · exact .inr (by omega)

/-- Without a promotion target to delete there never is a tombstone. -/
theorem Accepted.quiet_before (h : series.Accepted) (readings : Nat → Nat → CleanupReading)
    (hnone : tombstones series.db = [])
    (hnotarget : series.candidates.length ≤
      firstTarget series.deletes (series.now 0) series.db) (r : Nat) :
    Quiet (series.before readings r) ∧
      (expiredCandidates (series.now r) (series.before readings r)).length ≤
        firstTarget series.deletes (series.now r) (series.before readings r) := by
  have hfalse := List.findIdx_eq_length.mp (le_antisymm List.findIdx_le_length hnotarget)
  have htarget : ∀ r, (expiredCandidates (series.now r) (series.before readings r)).length ≤
      firstTarget series.deletes (series.now r) (series.before readings r) := by
    intro r
    refine (List.findIdx_eq_length_of_false fun candidate hcandidate ↦ ?_).ge
    obtain ⟨done, hcleaned⟩ := h.before_cleaned readings r
    rw [h.expired_before, hcleaned.expired] at hcandidate
    rw [h.deletable_before]
    exact hfalse candidate (List.mem_of_mem_filter hcandidate)
  refine ⟨?_, htarget r⟩
  induction r with
  | zero => exact h.quiet hnone
  | succ r ih =>
    obtain ⟨k, -, -, hquiet⟩ := (series.progress_zero readings r).loop_quiet series.leaseSeconds
      (h.before_keyed readings r)
      ((List.range series.batchSize).map (readings r)) ih (Nat.zero_le _)
    exact hquiet (htarget r)

/-- One of any two runs makes the lasting number of attempts, or attempts every candidate. -/
theorem Accepted.roomy (h : series.Accepted) (r : Nat) :
    RetryQueue.Roomy (fun r ↦ (series.run readings r).attempted.length)
        (fun r ↦ expiredCandidates (series.now 0) (series.before readings r))
        series.lastingAttempts r ∨
      RetryQueue.Roomy (fun r ↦ (series.run readings r).attempted.length)
        (fun r ↦ expiredCandidates (series.now 0) (series.before readings r))
        series.lastingAttempts (r + 1) := by
  simp only [RetryQueue.Roomy]
  by_cases hnever : tombstones series.db = [] ∧
      series.candidates.length ≤ firstTarget series.deletes (series.now 0) series.db
  · left
    obtain ⟨hquiet, htarget⟩ := h.quiet_before readings hnever.1 hnever.2 r
    obtain ⟨k, hprogress, hcount, -⟩ := (series.progress_zero readings r).loop_quiet series.leaseSeconds
      (h.before_keyed readings r)
      ((List.range series.batchSize).map (readings r)) hquiet (Nat.zero_le _)
    have hlength : (series.run readings r).attempted.length = k := hprogress.length_attempted
    have hle := hprogress.le
    rw [List.length_map, List.length_range] at hcount
    rw [hlength, lastingAttempts, if_pos hnever, ← h.expired_before r r]
    have hturn := turn_le (cleanupLoop series.leaseSeconds series.deletes (series.now r)
      ((List.range series.batchSize).map (readings r))
      ⟨[], 0, series.before readings r⟩).db.schedule.nextLane
    omega
  · have hturns : ∀ r, (series.run readings r).attempted.length =
        (expiredCandidates (series.now 0) (series.before readings r)).length ∨
        series.batchSize + (series.before readings r).schedule.nextLane.turn ≤
          2 * (series.run readings r).attempted.length +
            (series.before readings (r + 1)).schedule.nextLane.turn := by
      intro r
      obtain ⟨k, -, hprogress, hcount⟩ := (series.progress_zero readings r).loop
        series.leaseSeconds (h.before_keyed readings r)
        ((List.range series.batchSize).map (readings r))
      have hlength : (series.run readings r).attempted.length = k := hprogress.length_attempted
      rw [List.length_map, List.length_range, h.expired_before] at hcount
      rw [hlength]
      refine hcount.imp_right fun hle ↦ ?_
      rw [Nat.mul_zero, Nat.zero_add] at hle
      exact hle
    rw [lastingAttempts, if_neg hnever]
    have hthis := hturns r
    have hnext := hturns (r + 1)
    have hturn := turn_le (series.before readings (r + 1)).schedule.nextLane
    have hturn' := turn_le (series.before readings (r + 1 + 1)).schedule.nextLane
    omega

/-- **Enough**: with few failures ahead, every candidate is attempted within two runs a
candidate. -/
theorem Accepted.starvesNobody (h : series.Accepted) (hfew : series.FewFailuresAhead) :
    series.StarvesNobody (2 * series.candidates.length) := by
  intro readings candidate hmem
  obtain ⟨ahead, behind, hsplit⟩ := List.append_of_mem hmem
  have hlength : ahead.length < series.candidates.length := by
    rw [hsplit, List.length_append, List.length_cons]
    omega
  rcases hfew ahead candidate behind hsplit with hfirst | hlasting
  · have hnone : tombstones series.db = [] := by
      by_contra hsome
      rw [firstAttempts, if_neg hsome] at hfirst
      exact Nat.not_lt_zero _ hfirst
    refine ⟨0, by omega, (h.attempted_iff hmem 0).mpr ?_⟩
    show candidate ∈ series.candidates.take _
    have hreach := h.firstAttempts_le readings hnone
    rw [hsplit]
    rw [hsplit] at hreach hlength
    exact RetryQueue.mem_take (by omega)
  · have hqueue : expiredCandidates (series.now 0) (series.before readings 0) =
        ahead ++ candidate :: behind := hsplit
    obtain ⟨r, -, hr, hserved⟩ := (h.rounds readings).served h.roomy trivial
      series.candidates.length hlength hqueue hlasting
    exact ⟨r, by omega, (h.attempted_iff hmem r).mpr hserved⟩

/-- Promotion targets come first, so those ahead of the first that can be deleted all fail. -/
theorem deletable_of_lt_firstTarget {deletes : ObjectKey → Bool} {now : Instant} {db : Database}
    (hsome : firstTarget deletes now db < (expiredCandidates now db).length) :
    ∀ candidate ∈ (expiredCandidates now db).take (firstTarget deletes now db),
      candidate.deletable deletes db = false := by
  let targets := stalePromotions db .failed now ++ stalePromotions db .copying now ++
    expiredInputs db .issuanceInput .issuance now ++
    expiredInputs db .verificationInput .verification now
  let others := expiredOutputs db now ++ expiredOrphans db now
  let p := fun candidate : Candidate ↦
    candidate.category.field = .promotionTargetDeletedAt && candidate.deletable deletes db
  have hsplit : expiredCandidates now db = targets ++ others := by
    simp only [expiredCandidates, targets, others, List.append_assoc]
  have hothers : ∀ candidate ∈ others, p candidate = false := by
    intro candidate hmem
    have hfield : candidate.category.field ≠ .promotionTargetDeletedAt := by
      rcases List.mem_append.mp hmem with hmem | hmem
      · obtain ⟨issuance, -, rfl⟩ := List.mem_map.mp hmem
        exact fun h ↦ DeletionField.noConfusion h
      · obtain ⟨upload, -, -, rfl⟩ := mem_uploadCandidates hmem
        exact fun h ↦ DeletionField.noConfusion h
    simp [p, hfield]
  have htargets : ∀ candidate ∈ targets,
      candidate.category.field = .promotionTargetDeletedAt := by
    intro candidate hmem
    simp only [targets, List.mem_append] at hmem
    rcases hmem with ((hmem | hmem) | hmem) | hmem <;>
    · obtain ⟨upload, -, -, rfl⟩ := mem_uploadCandidates hmem
      rfl
  have hindex : firstTarget deletes now db = (targets ++ others).findIdx p := by
    rw [firstTarget, hsplit]
  -- the first target lies among the targets, which all come before the other candidates
  have hlt : targets.findIdx p < targets.length := by
    by_contra hge
    have hall : (targets ++ others).findIdx p = others.length + targets.length := by
      rw [List.findIdx_append, if_neg hge, List.findIdx_eq_length_of_false hothers]
    have hlength : (targets ++ others).length = targets.length + others.length :=
      List.length_append
    rw [hindex, hsplit, hall, hlength] at hsome
    exact absurd hsome (by rw [Nat.add_comm]; exact Nat.lt_irrefl _)
  -- whatever comes before the first target is one of the targets that cannot be deleted
  rw [hindex, hsplit, List.findIdx_append, if_pos hlt,
    List.take_append_of_le_length (by omega)]
  intro candidate hmem
  obtain ⟨i, hi, rfl⟩ := List.getElem_of_mem hmem
  rw [List.length_take] at hi
  rw [List.getElem_take] at hmem ⊢
  have hnot := List.not_of_lt_findIdx (show i < targets.findIdx p by omega)
  have hfield := htargets _ (List.mem_of_mem_take hmem)
  simpa [p, hfield] using hnot

/-- Readings of a storage that deletes every tombstoned key, after any lease of the database. -/
def promptReadings (series : CleanupSeries) : Nat → Nat → CleanupReading :=
  let time := match series.db.schedule.reconciliationClaim with
    | some lease => lease.expiresAt
    | none => 0
  fun _ _ ↦ ⟨time, ⟨0⟩, true, time⟩

theorem prompt_promptReadings (series : CleanupSeries) (r : Nat) :
    ∀ reading ∈ (List.range series.batchSize).map (series.promptReadings r),
      reading.Prompt (series.promptReadings 0 0).claimedAt := by
  intro reading hmem
  obtain ⟨i, -, rfl⟩ := List.mem_map.mp hmem
  exact ⟨rfl, le_rfl⟩

theorem Accepted.busy (h : series.Accepted) (hsome : tombstones series.db ≠ []) :
    Busy (series.promptReadings 0 0).claimedAt series.db := by
  refine ⟨hsome, fun lease hlease ↦ ⟨?_, h.lease lease hlease⟩⟩
  rw [Option.mem_def] at hlease
  simp only [promptReadings, hlease, le_refl]

/-- Once there is a tombstone the lanes take turns for ever. -/
theorem Accepted.busy_before (h : series.Accepted) {r : Nat}
    (hbusy : Busy (series.promptReadings 0 0).claimedAt
      (series.before series.promptReadings r)) :
    Busy (series.promptReadings 0 0).claimedAt (series.before series.promptReadings (r + 1)) ∧
      (series.run series.promptReadings r).attempted.length ≤ (series.batchSize + 1) / 2 := by
  obtain ⟨k, hprogress, hstill, hcount⟩ := (series.progress_zero series.promptReadings r).loop_busy
    series.leaseSeconds (h.before_keyed series.promptReadings r) (series.prompt_promptReadings r) hbusy
  have hlength : (series.run series.promptReadings r).attempted.length = k :=
    hprogress.length_attempted
  have hturn := turn_le (series.before series.promptReadings r).schedule.nextLane
  rw [List.length_map, List.length_range] at hcount
  have hturns : 2 * k ≤ series.batchSize +
      (series.before series.promptReadings r).schedule.nextLane.turn := by
    rw [Nat.mul_zero, Nat.zero_add] at hcount
    exact (Nat.le_add_right _ _).trans hcount
  exact ⟨hstill, by omega⟩

theorem Accepted.attempts_le (h : series.Accepted) (r : Nat) :
    (series.run readings r).attempted.length ≤ series.batchSize := by
  have hle := (series.progress_zero readings r).loop_le series.leaseSeconds (h.before_keyed readings r)
    ((List.range series.batchSize).map (readings r))
  rw [List.length_map, List.length_range, Nat.zero_add] at hle
  exact hle

/-- **Needed**: a candidate with too many failures ahead, behind those the first run reaches, is
never attempted when every reconciliation succeeds. -/
theorem Accepted.starved (h : series.Accepted) {ahead behind : List Candidate}
    {candidate : Candidate} (hsplit : series.candidates = ahead ++ candidate :: behind)
    (hfirst : series.firstAttempts ≤ ahead.length)
    (hlasting : series.lastingAttempts ≤
      ahead.countP fun other ↦ !other.deletable series.deletes series.db) (r : Nat) :
    candidate.attempted ∉ (series.run series.promptReadings r).attempted := by
  have hmem : candidate ∈ series.candidates := by
    rw [hsplit]
    exact List.mem_append_right _ List.mem_cons_self
  have hnew : candidate ∉ ahead := by
    have hnodup := (nodup_attempted (series.now 0) h.keyed).of_map
    rw [show expiredCandidates (series.now 0) series.db = _ from hsplit, List.nodup_append] at hnodup
    exact fun hahead ↦ hnodup.2.2 _ hahead _ List.mem_cons_self rfl
  have hqueue : expiredCandidates (series.now 0) (series.before series.promptReadings 0) =
      ahead ++ candidate :: behind := hsplit
  have hrounds := h.rounds series.promptReadings
  -- if no run has room for more than the failures ahead, none attempts the candidate
  have hnever : (∀ r, (series.run series.promptReadings r).attempted.length ≤
      ahead.countP fun other ↦ !other.deletable series.deletes series.db) →
      candidate.attempted ∉ (series.run series.promptReadings r).attempted := by
    intro hroom hattempted
    have hwaits := hrounds.starved (fun r _ ↦ hroom r) trivial hqueue hnew r
    rw [Nat.zero_add] at hwaits
    exact hwaits ((h.attempted_iff hmem r).mp hattempted)
  rw [lastingAttempts] at hlasting
  by_cases hnone : tombstones series.db = []
  · rw [firstAttempts, if_pos hnone] at hfirst
    by_cases htarget : series.candidates.length ≤
        firstTarget series.deletes (series.now 0) series.db
    · rw [if_pos ⟨hnone, htarget⟩] at hlasting
      exact hnever fun r ↦ (h.attempts_le r).trans hlasting
    rw [if_neg fun hboth ↦ htarget hboth.2] at hlasting
    rw [not_le] at htarget
    by_cases hreach : series.batchSize ≤ firstTarget series.deletes (series.now 0) series.db
    · -- the first run is full of failing targets, and so is every other
      refine hnever fun r ↦ (h.attempts_le r).trans ?_
      have hfails : ∀ other ∈ ahead.take series.batchSize,
          (!other.deletable series.deletes series.db) = true := by
        intro other hother
        have hfront : other ∈ series.candidates.take
            (firstTarget series.deletes (series.now 0) series.db) := by
          rw [hsplit]
          have hinitial : (ahead.take series.batchSize).Sublist ((ahead ++ candidate :: behind).take
              series.batchSize) := by
            rw [List.take_append]
            exact List.sublist_append_left _ _
          exact (List.take_sublist_take_left hreach).subset (hinitial.subset hother)
        rw [deletable_of_lt_firstTarget htarget other hfront]
        rfl
      calc series.batchSize
          = (ahead.take series.batchSize).length := by rw [List.length_take]; omega
        _ = (ahead.take series.batchSize).countP
              fun other ↦ !other.deletable series.deletes series.db :=
            (List.countP_eq_length.mpr hfails).symm
        _ ≤ _ := (List.take_sublist _ _).countP_le
    · -- the first run makes a tombstone before it gets to the candidate
      obtain ⟨k, hprogress, hbusy, hcount⟩ := (series.progress_zero series.promptReadings 0).loop_target
        series.leaseSeconds h.keyed (series.prompt_promptReadings 0) (h.quiet hnone) (Nat.zero_le _) htarget
        (by rw [List.length_map, List.length_range]; omega)
      have hlength : (series.run series.promptReadings 0).attempted.length = k :=
        hprogress.length_attempted
      rw [List.length_map, List.length_range] at hcount
      have hwaits : (series.run series.promptReadings 0).attempted.length ≤ ahead.length := by
        rw [hlength]
        omega
      rcases r with _ | r
      · rw [h.attempted_iff hmem, hqueue, List.take_append_of_le_length hwaits]
        exact fun htake ↦ hnew (List.mem_of_mem_take htake)
      · have hbusy' : ∀ r, Busy (series.promptReadings 0 0).claimedAt
            (series.before series.promptReadings (r + 1)) := by
          intro r
          induction r with
          | zero => exact hbusy
          | succ r ih => exact (h.busy_before ih).1
        obtain ⟨behind', hnext⟩ := hrounds.ahead trivial hqueue hwaits
        have hroom : ∀ s, 1 ≤ s → (series.run series.promptReadings s).attempted.length ≤
            (RetryQueue.serve (fun other ↦ !other.deletable series.deletes series.db)
              (series.run series.promptReadings 0).attempted.length ahead).countP
                fun other ↦ !other.deletable series.deletes series.db := by
          intro s hs
          obtain ⟨s, rfl⟩ := Nat.exists_eq_add_of_le' hs
          rw [RetryQueue.countP_serve]
          exact (h.busy_before (hbusy' s)).2.trans hlasting
        have hstarved := hrounds.starved hroom trivial hnext
          (fun hserve ↦ hnew ((RetryQueue.serve_sublist _ _ _).subset hserve)) r
        rw [Nat.add_comm] at hstarved
        exact fun hattempted ↦ hstarved ((h.attempted_iff hmem _).mp hattempted)
  · rw [if_neg fun hboth ↦ hnone hboth.1] at hlasting
    have hbusy : ∀ r, Busy (series.promptReadings 0 0).claimedAt
        (series.before series.promptReadings r) := by
      intro r
      induction r with
      | zero => exact h.busy hnone
      | succ r ih => exact (h.busy_before ih).1
    exact hnever fun r ↦ (h.busy_before (hbusy r)).2.trans hlasting

theorem Accepted.fewFailuresAhead (h : series.Accepted) {bound : Nat}
    (hnobody : series.StarvesNobody bound) : series.FewFailuresAhead := by
  intro ahead candidate behind hsplit
  by_contra hmany
  rw [not_or, not_lt, not_lt] at hmany
  have hmem : candidate ∈ series.candidates := by
    rw [hsplit]
    exact List.mem_append_right _ List.mem_cons_self
  obtain ⟨r, -, hattempted⟩ := hnobody series.promptReadings candidate hmem
  exact h.starved hsplit hmany.1 hmany.2 r hattempted

/-- The runs of the series are calls of `cleanup_expired`. -/
theorem Accepted.cleanupExpired_eq (h : series.Accepted) (r : Nat) :
    cleanupExpired series.leaseSeconds series.deletes (series.now r) (readings r)
      series.batchSize (series.before readings r) = .ok (series.run readings r) := by
  have hbatch := h.batchSize
  rw [cleanupExpired, Transaction.raiseIf_neg (by omega)]
  rfl

end CleanupSeries

/-- **Ordinary cleanup starves nobody exactly when few failures are ahead of anybody.**  With few
of them every candidate is attempted within two runs a candidate, whatever the lanes do; otherwise
no number of runs is enough. -/
theorem cleanup_starves_nobody_iff {series : CleanupSeries} (h : series.Accepted) :
    (series.StarvesNobody (2 * series.candidates.length) ↔ series.FewFailuresAhead) ∧
      ∀ bound, series.StarvesNobody bound → series.FewFailuresAhead :=
  ⟨⟨h.fewFailuresAhead, h.starvesNobody⟩, fun _ ↦ h.fewFailuresAhead⟩

/-- Of the platform's reachable states, the series assumes of the lease what they all have. -/
theorem Platform.Reachable.lease_tombstone {W : Type*} [DecidableEq W] {formats : FormatChecker}
    {settings : Platform.ServiceSettings} {pool : Platform.Pool W}
    (h : Platform.Reachable formats settings pool) :
    ∀ lease ∈ pool.store.db.schedule.reconciliationClaim,
      lease.uploadId ∈ (tombstones pool.store.db).map (·.id) := by
  intro lease hlease
  obtain ⟨-, upload, hmem, hid, hdeleted⟩ := h.leaseHold.shared.1 lease hlease
  have howned := (h.objectsHold.shared.1 upload hmem).1
  have hstatus : upload.promotionStatus ≠ .none := by
    rcases h.dueHold.shared.2.2 upload hmem hdeleted with ⟨hattached, -⟩ | ⟨hnot | hnot, -⟩ <;>
      simp_all
  exact mem_map_tombstones.mpr ⟨upload, hmem, hid, hdeleted, mt howned.mpr hstatus⟩

/-- An upload that was never promoted. -/
def orphanUpload (n : Nat) : UploadRequest where
  id := ⟨n⟩
  organizationId := ⟨1⟩
  requestedById := ⟨2⟩
  purpose := .issuance
  objectKey := .orphan .issuance ⟨1⟩ ⟨n⟩
  sourceContentType := "application/pdf"
  expectedSha256 := none
  sizeBytes := none
  expiresAt := minutes 15
  finalizedAt := none
  orphanDeletedAt := none
  promotionTargetKey := none
  promotionStatus := .none
  promotionStatusChangedAt := 0
  safeErrorCode := none
  promotionTargetDeletedAt := none
  promotionTargetReconciledAt := none
  createdAt := 0

def orphanDatabase : Database :=
  { emptyDatabase with uploads := [orphanUpload 5, orphanUpload 6] }

/-- Two expired orphans; the storage does not delete the first. -/
def orphanSeries (batchSize : Nat) : CleanupSeries where
  leaseSeconds := 300
  deletes key := key ≠ .orphan .issuance ⟨1⟩ ⟨5⟩
  now _ := days 2
  batchSize := batchSize
  db := orphanDatabase

theorem orphanSeries_accepted {batchSize : Nat} (h : 1 ≤ batchSize ∧ batchSize ≤ maxBatchSize) :
    (orphanSeries batchSize).Accepted where
  keyed := show orphanDatabase.Keyed from
    ⟨by decide, by decide, by decide, by decide, by decide, by decide⟩
  lease lease hlease := by
    simp [orphanSeries, orphanDatabase, emptyDatabase] at hlease
  batchSize := h
  candidates _ := rfl

theorem orphanSeries_candidates (batchSize : Nat) :
    (orphanSeries batchSize).candidates = [⟨.orphan, ⟨5⟩⟩, ⟨.orphan, ⟨6⟩⟩] := by
  show expiredCandidates (days 2) orphanDatabase = _
  decide +kernel

/-- With two attempts a run the second orphan gets its turn. -/
theorem cleanup_starves_nobody_sample : (orphanSeries 2).StarvesNobody 4 := by
  refine (cleanup_starves_nobody_iff (orphanSeries_accepted (by decide))).1.mpr ?_
  intro ahead candidate behind hsplit
  have hlasting : (orphanSeries 2).lastingAttempts = 2 := by decide +kernel
  have hlength := congrArg List.length hsplit
  rw [orphanSeries_candidates, List.length_append, List.length_cons] at hlength
  have hcount : ahead.countP (fun other ↦
      !other.deletable (orphanSeries 2).deletes (orphanSeries 2).db) ≤ ahead.length :=
    List.countP_le_length
  simp only [List.length_cons, List.length_nil] at hlength
  exact .inr (by omega)

/-- With one attempt a run the orphan that cannot be deleted keeps the other from its turn. -/
theorem cleanup_starves_orphan :
    (orphanSeries 1).Accepted ∧ ∀ bound, ¬ (orphanSeries 1).StarvesNobody bound := by
  have haccepted := orphanSeries_accepted (show 1 ≤ 1 ∧ 1 ≤ maxBatchSize by decide)
  refine ⟨haccepted, fun bound hnobody ↦ ?_⟩
  have hfew := haccepted.fewFailuresAhead hnobody [⟨.orphan, ⟨5⟩⟩] ⟨.orphan, ⟨6⟩⟩ []
    (orphanSeries_candidates 1)
  revert hfew
  decide +kernel

end Splitbind
