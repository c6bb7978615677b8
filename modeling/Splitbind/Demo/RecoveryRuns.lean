import Splitbind.Demo.StaleRecovery

/-!
# Recovery runs — `reconcile_stale_jobs` call after call

The jobs that are still stale form a retry queue: one in processing ends when it is served, a
failed one that keeps the fence stays where it is, and one that is fenced anew goes to the end.
-/

namespace Splitbind

open Transaction

/-! ## 1. Recovering one job of either kind -/

namespace StaleJob

variable {settings : Settings} {db : SourceDatabase} {deletes : ObjectKey → Bool}
  {staleBefore : Instant} {reading : RecoveryReading} {stale : StaleJob}

/-- Recoverable evidence. -/
def Recoverable (db : SourceDatabase) : StaleJob → Prop
  | .issuance rows => ∃ evidence, rows.Recoverable evidence
  | .verification rows => ∃ record, rows.Recoverable db record

/-- The owner token a recovery may transfer. -/
def ownerToken : StaleJob → Option UUID
  | .issuance rows => rows.evidence.map (·.ownerToken)
  | .verification _ => none

/-- A recovered job has ended; if it keeps the fence, it was touched at the acknowledgement. -/
structure Ended (acknowledgedAt : Instant) (before after : StaleJob) : Prop where
  id : after.job.id = before.job.id
  status : after.job.status ≠ .processing
  fence : after.hasTombstone = true → after.job.updatedAt = acknowledgedAt

theorem Recoverable.recovers (h : stale.Recoverable db) (settings : Settings)
    (hstale : stale.job.updatedAt < staleBefore)
    (hfresh : ∀ token ∈ stale.ownerToken, reading.token ≠ token)
    (hdeletes : ∀ key, deletes key = true) :
    ∃ result, (stale.recover settings deletes staleBefore reading db).1 = .ok result ∧
      Ended reading.acknowledgedAt stale
        (stale.recover settings deletes staleBefore reading db).2 := by
  cases stale with
  | issuance rows =>
    obtain ⟨evidence, h⟩ := h
    have hfresh : reading.token ≠ evidence.ownerToken :=
      hfresh _ (by rw [ownerToken, h.loaded]; rfl)
    obtain ⟨result, rows', hrecover, hid, hstatus, hfence⟩ :=
      h.recovers settings hstale hfresh hdeletes
    rw [recover, hrecover]
    refine ⟨_, rfl, hid, hstatus, fun htombstone ↦ ?_⟩
    obtain ⟨saved, hsaved, hfenced⟩ := (Option.any_eq_true _ _).mp htombstone
    refine hfence.resolve_left fun hunfenced ↦ hunfenced saved hsaved ?_
    simpa using hfenced
  | verification rows =>
    obtain ⟨record, h⟩ := h
    obtain ⟨result, rows', hrecover, hid, hstatus⟩ :=
      h.recovers settings reading hstale
    rw [recover, hrecover]
    exact ⟨_, rfl, hid, hstatus, fun htombstone ↦ Bool.noConfusion htombstone⟩

/-- A failed job that keeps the fence is left as it is. -/
theorem recover_fenced (settings : Settings) (db : SourceDatabase) (staleBefore : Instant)
    (reading : RecoveryReading) (hfenced : stale.hasTombstone = true)
    (hfailed : stale.job.status = .failed) (hdeletes : ∀ key, deletes key = true) :
    ∃ result, stale.recover settings deletes staleBefore reading db = (.ok result, stale) := by
  cases stale with
  | issuance rows =>
    obtain ⟨evidence, hloaded, -⟩ := (Option.any_eq_true _ _).mp hfenced
    obtain ⟨result, hrecover⟩ :=
      IssuanceRows.recoverStaleJob_fenced settings hloaded hfailed hdeletes
    rw [recover, hrecover]
    exact ⟨result, rfl⟩
  | verification rows => exact Bool.noConfusion hfenced

end StaleJob

/-! ## 2. One call -/

section Call

variable {settings : Settings} {db : SourceDatabase} {deletes : ObjectKey → Bool}
  {staleBefore : Instant} {readings : UUID → RecoveryReading}

/-- The job after its recovery. -/
def StaleJob.recovered (settings : Settings) (db : SourceDatabase) (deletes : ObjectKey → Bool)
    (staleBefore : Instant) (readings : UUID → RecoveryReading) (stale : StaleJob) : StaleJob :=
  (stale.recover settings deletes staleBefore (readings stale.job.id) db).2

/-- A recovery that raises nothing and keeps the job's id. -/
def StaleJob.Recovers (settings : Settings) (db : SourceDatabase) (deletes : ObjectKey → Bool)
    (staleBefore : Instant) (readings : UUID → RecoveryReading) (stale : StaleJob) : Prop :=
  (∃ result, (stale.recover settings deletes staleBefore (readings stale.job.id) db).1 =
      .ok result) ∧
    (stale.recovered settings db deletes staleBefore readings).job.id = stale.job.id

/-- **A call rewrites the jobs it selects**, when each of them recovers. -/
theorem recoverEach_eq (ids : List UUID) :
    ∀ {jobs : List StaleJob}, ids.Nodup → (jobs.map (·.job.id)).Nodup →
      (∀ stale ∈ jobs, stale.job.id ∈ ids →
        stale.Recovers settings db deletes staleBefore readings) →
      ∃ results, recoverEach settings db deletes staleBefore readings ids jobs =
        (.ok results, jobs.map fun stale ↦
          if stale.job.id ∈ ids then stale.recovered settings db deletes staleBefore readings
          else stale) := by
  induction ids with
  | nil =>
    intro jobs _ _ _
    exact ⟨[], by simp [recoverEach]⟩
  | cons id ids ih =>
    intro jobs hids hunique hrecovers
    rw [List.nodup_cons] at hids
    rcases hfind : jobs.find? (fun stale ↦ stale.job.id = id) with _ | stale
    · have habsent : ∀ stale ∈ jobs, stale.job.id ≠ id := by
        simpa [List.find?_eq_none] using hfind
      obtain ⟨results, hrest⟩ := ih hids.2 hunique fun stale hmem hid ↦
        hrecovers stale hmem (List.mem_cons_of_mem _ hid)
      refine ⟨results, ?_⟩
      rw [recoverEach, hfind, hrest]
      refine congrArg (Prod.mk _) (List.map_congr_left fun stale hmem ↦ ?_)
      simp only [List.mem_cons, habsent stale hmem, false_or]
    · have hmem := List.mem_of_find?_eq_some hfind
      obtain rfl : stale.job.id = id := by simpa using List.find?_some hfind
      obtain ⟨⟨result, hresult⟩, hsame⟩ := hrecovers stale hmem List.mem_cons_self
      let after := stale.recovered settings db deletes staleBefore readings
      have hstep : stale.recover settings deletes staleBefore (readings stale.job.id) db =
          (.ok result, after) := Prod.ext hresult rfl
      let jobs' := Table.save (·.job.id) jobs after
      -- saving the recovered job keeps the ids, so the remaining ones find their own rows
      have hunique' : (jobs'.map (·.job.id)).Nodup := by
        rw [Table.map_save]
        exact hunique
      obtain ⟨results, hrest⟩ := ih hids.2 hunique' fun other hother hid ↦ by
        rcases Table.mem_save hother with rfl | ⟨hold, -⟩
        · exact absurd (hsame ▸ hid) hids.1
        · exact hrecovers other hold (List.mem_cons_of_mem _ hid)
      refine ⟨result.toList ++ results, ?_⟩
      rw [recoverEach, hfind]
      simp only [hstep]
      rw [show Table.save (·.job.id) jobs after = jobs' from rfl, hrest]
      refine congrArg (Prod.mk _) ?_
      rw [show jobs' = Table.save (·.job.id) jobs after from rfl, Table.save, List.map_map]
      refine List.map_congr_left fun other hother ↦ ?_
      rw [Function.comp_apply]
      by_cases hid : other.job.id = stale.job.id
      · have heq : other = stale := List.inj_on_of_nodup_map hunique hother hmem hid
        rw [if_pos (hid.trans hsame.symm), if_neg (hsame ▸ hids.1), heq,
          if_pos List.mem_cons_self]
      · have hafter : after.job.id = stale.job.id := hsame
        simp only [hafter, hid, if_false, List.mem_cons, false_or]

end Call

/-! ## 3. The order of the query -/

namespace StaleJob

instance : Std.Total StaleJob.before where
  total a b := by
    rcases lt_trichotomy a.job.updatedAt b.job.updatedAt with hlt | heq | hgt
    · exact .inl (.inl hlt)
    · rcases BitVec.le_total a.job.id.value b.job.id.value with hle | hle
      · exact .inl (.inr ⟨heq, hle⟩)
      · exact .inr (.inr ⟨heq.symm, hle⟩)
    · exact .inr (.inl hgt)

instance : IsTrans StaleJob StaleJob.before where
  trans a b c hab hbc := by
    rcases hab with hab | ⟨hab, hle⟩ <;> rcases hbc with hbc | ⟨hbc, hle'⟩
    · exact .inl (lt_trans hab hbc)
    · exact .inl (hbc ▸ hab)
    · exact .inl (hab ▸ hbc)
    · exact .inr ⟨hab.trans hbc, BitVec.le_trans hle hle'⟩

/-- Two jobs that come before each other are one. -/
theorem id_eq_of_before {a b : StaleJob} (hab : a.before b) (hba : b.before a) :
    a.job.id = b.job.id := by
  have hid : a.job.id.value = b.job.id.value := by
    rcases hab with hab | ⟨hab, hle⟩ <;> rcases hba with hba | ⟨hba, hge⟩
    · exact absurd hba (lt_asymm hab)
    · exact absurd hba hab.ne'
    · exact absurd hab hba.ne'
    · exact BitVec.le_antisymm hle hge
  exact congrArg UUID.mk hid

end StaleJob

/-! ## 4. Call after call -/

/-- Calls with one limit and nothing else going on; every storage delete succeeds. -/
structure RecoverySeries where
  settings : Settings
  db : SourceDatabase
  limit : Int
  staleBefore : Nat → Instant
  readings : Nat → UUID → RecoveryReading
  jobs : List StaleJob

namespace RecoverySeries

variable (series : RecoverySeries)

/-- A call of the series on the jobs it finds. -/
def call (r : Nat) (jobs : List StaleJob) : Except Raised (List StaleRecoveryResult) × List StaleJob :=
  reconcileStaleJobs series.settings series.db (fun _ ↦ true) (series.staleBefore r)
    (series.readings r) true series.limit jobs

/-- The jobs after so many calls. -/
def after (series : RecoverySeries) : Nat → List StaleJob
  | 0 => series.jobs
  | r + 1 => (series.call r (series.after r)).2

/-- The jobs the first call may select. -/
def candidates : List StaleJob := staleCandidates (series.staleBefore 0) series.jobs

/-- What the series assumes: an accepted limit, a primary key, stale jobs in processing with
recoverable evidence, clocks that do not go back behind the first call's threshold, and tokens that
are fresh. -/
structure Accepted : Prop where
  limit : 1 ≤ series.limit ∧ series.limit ≤ maxStaleReconciliationLimit
  ids : (series.jobs.map (·.job.id)).Nodup
  recoverable : ∀ stale ∈ series.jobs, stale.job.status = .processing → stale.hasOwner = true →
    stale.Recoverable series.db ∧ stale.job.updatedAt < series.staleBefore 0
  thresholds : ∀ r, series.staleBefore 0 ≤ series.staleBefore r
  acknowledged : ∀ r id, series.staleBefore 0 ≤ (series.readings r id).acknowledgedAt
  fresh : ∀ stale ∈ series.jobs, ∀ token ∈ stale.ownerToken, ∀ r,
    (series.readings r stale.job.id).token ≠ token

/-- Every stale job in processing has left it after so many calls. -/
def EndedBy (calls : Nat) : Prop :=
  ∀ stale ∈ series.jobs, stale.job.status = .processing → stale.hasOwner = true →
    ∃ later ∈ series.after calls, later.job.id = stale.job.id ∧ later.job.status ≠ .processing

/-- Every stale job in processing has fewer fenced failed jobs ahead of it than a call selects. -/
def FewFencedAhead : Prop :=
  ∀ ahead stale behind, series.candidates = ahead ++ stale :: behind →
    stale.job.status = .processing →
      (ahead.countP fun other ↦ other.job.status = .failed : Nat) < series.limit

/-- How a job can have changed: not at all, or it has ended and comes behind every stale one. -/
def Stands (stale later : StaleJob) : Prop :=
  later = stale ∨
    later.job.id = stale.job.id ∧ later.job.status ≠ .processing ∧
      (later.hasTombstone = true → series.staleBefore 0 ≤ later.job.updatedAt)

variable {series}

/-- The threshold of a later call selects the same jobs as that of the first. -/
theorem Accepted.selected (h : series.Accepted) {stale later : StaleJob}
    (hmem : stale ∈ series.jobs) (hstands : series.Stands stale later) (r : Nat) :
    later.selected (series.staleBefore r) = later.selected (series.staleBefore 0) := by
  have hthreshold : later.hasOwner = true → later.job.status = .processing →
      later.job.updatedAt < series.staleBefore 0 := by
    intro howner hprocessing
    rcases hstands with rfl | ⟨-, hended, -⟩
    · exact (h.recoverable _ hmem hprocessing howner).2
    · exact absurd hprocessing hended
  rw [Bool.eq_iff_iff]
  simp only [StaleJob.selected, Bool.or_eq_true, Bool.and_eq_true, decide_eq_true_eq]
  refine or_congr_left (and_congr_right fun hboth ↦ ?_)
  exact ⟨fun _ ↦ hthreshold hboth.1 hboth.2, fun hlt ↦ hlt.trans_le (h.thresholds r)⟩

/-- The jobs of a series at some call: the ones it began with, each standing as it may. -/
structure Standing (series : RecoverySeries) (jobs : List StaleJob) : Prop where
  ids : jobs.map (·.job.id) = series.jobs.map (·.job.id)
  stands : ∀ later ∈ jobs, ∃ stale ∈ series.jobs, series.Stands stale later

/-- A job the query selects is still to be recovered, or failed with the fence. -/
theorem Accepted.selected_cases (h : series.Accepted) {jobs : List StaleJob}
    (hstanding : Standing series jobs) {later : StaleJob} (hmem : later ∈ jobs)
    (hselected : later.selected (series.staleBefore 0) = true) :
    (later ∈ series.jobs ∧ later.job.status = .processing ∧ later.Recoverable series.db ∧
        later.job.updatedAt < series.staleBefore 0) ∨
      (later.job.status = .failed ∧ later.hasTombstone = true) := by
  simp only [StaleJob.selected, Bool.or_eq_true, Bool.and_eq_true, decide_eq_true_eq] at hselected
  rcases hselected with ⟨⟨howner, hprocessing⟩, -⟩ | ⟨hfenced, hfailed⟩
  · obtain ⟨stale, hstale, rfl | ⟨-, hended, -⟩⟩ := hstanding.stands later hmem
    · exact .inl ⟨hstale, hprocessing, h.recoverable _ hstale hprocessing howner⟩
    · exact absurd hprocessing hended
  · exact .inr ⟨hfailed, hfenced⟩

/-- A selected job after its recovery in the call. -/
def recovered (series : RecoverySeries) (r : Nat) (stale : StaleJob) : StaleJob :=
  stale.recovered series.settings series.db (fun _ ↦ true) (series.staleBefore r)
    (series.readings r)

/-- What the call makes of a selected job. -/
theorem Accepted.recovers (h : series.Accepted) {jobs : List StaleJob}
    (hstanding : Standing series jobs) (r : Nat) {later : StaleJob} (hmem : later ∈ jobs)
    (hselected : later.selected (series.staleBefore 0) = true) :
    later.Recovers series.settings series.db (fun _ ↦ true) (series.staleBefore r)
        (series.readings r) ∧
      (later.job.status = .processing → StaleJob.Ended
        (series.readings r later.job.id).acknowledgedAt later (series.recovered r later)) ∧
      (later.job.status ≠ .processing → series.recovered r later = later) := by
  rcases h.selected_cases hstanding hmem hselected with
    ⟨hstale, hprocessing, hrecoverable, hupdated⟩ | ⟨hfailed, hfenced⟩
  · obtain ⟨result, hresult, hended⟩ := hrecoverable.recovers series.settings
      (hupdated.trans_le (h.thresholds r))
      (fun token htoken ↦ h.fresh later hstale token htoken r) fun _ ↦ rfl
    exact ⟨⟨⟨_, hresult⟩, hended.id⟩, fun _ ↦ hended, fun hnot ↦ absurd hprocessing hnot⟩
  · obtain ⟨result, hrecover⟩ := StaleJob.recover_fenced series.settings series.db
      (series.staleBefore r) (series.readings r later.job.id) hfenced hfailed
      (show ∀ key : ObjectKey, (fun _ ↦ true) key = true from fun _ ↦ rfl)
    have hsame : series.recovered r later = later := congrArg Prod.snd hrecover
    refine ⟨⟨⟨result, congrArg Prod.fst hrecover⟩, congrArg (·.job.id) hsame⟩, fun hprocessing ↦ ?_,
      fun _ ↦ hsame⟩
    rw [hfailed] at hprocessing
    cases hprocessing

/-- The stale jobs in the order of the query. -/
def queue (series : RecoverySeries) (jobs : List StaleJob) : List StaleJob :=
  staleCandidates (series.staleBefore 0) jobs

/-- The ids a call selects. -/
def batch (series : RecoverySeries) (jobs : List StaleJob) : List UUID :=
  ((series.queue jobs).take series.limit.toNat).map (·.job.id)

def rewrite (series : RecoverySeries) (r : Nat) (jobs : List StaleJob) (stale : StaleJob) :
    StaleJob :=
  if stale.job.id ∈ series.batch jobs then series.recovered r stale else stale

theorem mem_queue {jobs : List StaleJob} {stale : StaleJob} :
    stale ∈ series.queue jobs ↔
      stale ∈ jobs ∧ stale.selected (series.staleBefore 0) = true := by
  rw [queue, staleCandidates, List.mem_insertionSort, List.mem_filter]

/-- A job with an id of the batch is one of those the call takes. -/
theorem mem_take_of_mem_batch {jobs : List StaleJob} (hids : (jobs.map (·.job.id)).Nodup)
    {stale : StaleJob} (hmem : stale ∈ jobs) (hbatch : stale.job.id ∈ series.batch jobs) :
    stale ∈ (series.queue jobs).take series.limit.toNat := by
  obtain ⟨other, hother, heq⟩ := List.mem_map.mp hbatch
  have hjobs := (mem_queue.mp (List.mem_of_mem_take hother)).1
  rwa [← List.inj_on_of_nodup_map hids hjobs hmem heq]

/-- **One call** raises nothing and rewrites the jobs of its batch. -/
theorem Accepted.call_eq (h : series.Accepted) {jobs : List StaleJob}
    (hstanding : Standing series jobs) (r : Nat) :
    ∃ results, series.call r jobs = (.ok results, jobs.map (series.rewrite r jobs)) := by
  have hlimit := h.limit
  have hids : (jobs.map (·.job.id)).Nodup := hstanding.ids ▸ h.ids
  have hsame : staleCandidates (series.staleBefore r) jobs = series.queue jobs := by
    rw [queue, staleCandidates, staleCandidates, List.filter_congr fun later hmem ↦ ?_]
    obtain ⟨stale, hstale, hstands⟩ := hstanding.stands later hmem
    exact h.selected hstale hstands r
  have hbatch : (series.batch jobs).Nodup := by
    have hqueue : ((series.queue jobs).map (·.job.id)).Nodup := by
      refine ((List.perm_insertionSort _ _).map _).nodup_iff.mpr ?_
      exact hids.sublist (List.filter_sublist.map _)
    rw [batch, List.map_take]
    exact hqueue.sublist (List.take_sublist _ _)
  rw [call, reconcileStaleJobs, if_neg (by simp), if_neg (not_not.mpr hlimit), hsame]
  refine recoverEach_eq _ hbatch hids fun later hmem hid ↦ ?_
  have htake := mem_take_of_mem_batch hids hmem hid
  exact (h.recovers hstanding r hmem (mem_queue.mp (List.mem_of_mem_take htake)).2).1

/-- What a call makes of any job. -/
theorem Accepted.rewrite_cases (h : series.Accepted) {jobs : List StaleJob}
    (hstanding : Standing series jobs) (r : Nat) {later : StaleJob} (hmem : later ∈ jobs) :
    series.rewrite r jobs later = later ∨
      (later.job.status = .processing ∧ StaleJob.Ended
        (series.readings r later.job.id).acknowledgedAt later (series.rewrite r jobs later)) := by
  have hids : (jobs.map (·.job.id)).Nodup := hstanding.ids ▸ h.ids
  by_cases hbatch : later.job.id ∈ series.batch jobs
  · have htake := mem_take_of_mem_batch hids hmem hbatch
    obtain ⟨-, hended, hsame⟩ :=
      h.recovers hstanding r hmem (mem_queue.mp (List.mem_of_mem_take htake)).2
    rw [rewrite, if_pos hbatch]
    by_cases hprocessing : later.job.status = .processing
    · exact .inr ⟨hprocessing, hended hprocessing⟩
    · exact .inl (hsame hprocessing)
  · exact .inl (if_neg hbatch)

theorem Accepted.standing (h : series.Accepted) (calls : Nat) :
    Standing series (series.after calls) := by
  induction calls with
  | zero => exact ⟨rfl, fun later hmem ↦ ⟨later, hmem, .inl rfl⟩⟩
  | succ r ih =>
    obtain ⟨results, hcall⟩ := h.call_eq ih r
    have hafter : series.after (r + 1) =
        (series.after r).map (series.rewrite r (series.after r)) := congrArg Prod.snd hcall
    rw [hafter]
    refine ⟨?_, fun later hlater ↦ ?_⟩
    · rw [List.map_map, ← ih.ids]
      refine List.map_congr_left fun stale hmem ↦ ?_
      rcases h.rewrite_cases ih r hmem with hsame | ⟨-, hended⟩
      · exact congrArg (·.job.id) hsame
      · exact hended.id
    · obtain ⟨before, hbefore, rfl⟩ := List.mem_map.mp hlater
      obtain ⟨stale, hstale, hstands⟩ := ih.stands before hbefore
      refine ⟨stale, hstale, ?_⟩
      rcases h.rewrite_cases ih r hbefore with hsame | ⟨hprocessing, hended⟩
      · rw [hsame]
        exact hstands
      · rcases hstands with rfl | ⟨-, hnot, -⟩
        · exact .inr ⟨hended.id, hended.status, fun htombstone ↦
            hended.fence htombstone ▸ h.acknowledged r _⟩
        · exact absurd hprocessing hnot

/-- No call raises, and each rewrites the jobs of its batch. -/
theorem Accepted.after_succ (h : series.Accepted) (r : Nat) :
    series.after (r + 1) = (series.after r).map (series.rewrite r (series.after r)) := by
  obtain ⟨results, hcall⟩ := h.call_eq (h.standing r) r
  exact congrArg Prod.snd hcall

/-- A job in processing that the call takes ends. -/
theorem Accepted.served_ended (h : series.Accepted) {r : Nat} {stale : StaleJob}
    (hserved : stale ∈ (series.queue (series.after r)).take series.limit.toNat)
    (hprocessing : stale.job.status = .processing) :
    StaleJob.Ended (series.readings r stale.job.id).acknowledgedAt stale
      (series.rewrite r (series.after r) stale) := by
  obtain ⟨hmem, hselected⟩ := mem_queue.mp (List.mem_of_mem_take hserved)
  have hbatch : stale.job.id ∈ series.batch (series.after r) := List.mem_map_of_mem hserved
  rw [rewrite, if_pos hbatch]
  exact (h.recovers (h.standing r) r hmem hselected).2.1 hprocessing

/-- What has ended does not come ahead of a job in processing that is stale. -/
theorem Accepted.ended_behind (h : series.Accepted) {r : Nat} {stale item : StaleJob}
    {later : StaleJob} (hended : StaleJob.Ended (series.readings r stale.job.id).acknowledgedAt
      stale later) (hselected : later.selected (series.staleBefore 0) = true)
    (hitem : item.job.updatedAt < series.staleBefore 0) : ¬ later.before item := by
  simp only [StaleJob.selected, Bool.or_eq_true, Bool.and_eq_true, decide_eq_true_eq] at hselected
  have htombstone : later.hasTombstone = true :=
    (hselected.resolve_left fun hprocessing ↦ hended.status hprocessing.1.2).1
  have hlate : item.job.updatedAt < later.job.updatedAt := by
    rw [hended.fence htombstone]
    exact hitem.trans_le (h.acknowledged r _)
  intro hbefore
  rcases hbefore with hlt | ⟨heq, -⟩
  · exact absurd hlt (lt_asymm hlate)
  · exact absurd heq hlate.ne'

/-- **The series serves its stale jobs as a retry queue.** -/
theorem Accepted.rounds (h : series.Accepted) :
    RetryQueue.Rounds (fun stale ↦ stale.job.status = .failed)
      (fun stale ↦ stale.job.status = .processing) (fun _ ↦ series.limit.toNat)
      (fun r ↦ series.queue (series.after r)) where
  ahead := by
    intro r ahead behind item hitem hqueue hwaits
    have hstanding := h.standing r
    have hids : ((series.after r).map (·.job.id)).Nodup := hstanding.ids ▸ h.ids
    have htake : (series.queue (series.after r)).take series.limit.toNat =
        ahead.take series.limit.toNat := by
      rw [hqueue, List.take_append_of_le_length hwaits]
    have hitemMem : item ∈ series.after r ∧ item.selected (series.staleBefore 0) = true :=
      mem_queue.mp (hqueue ▸ List.mem_append_right _ List.mem_cons_self)
    have hitemStale : item.job.updatedAt < series.staleBefore 0 := by
      rcases h.selected_cases hstanding hitemMem.1 hitemMem.2 with ⟨-, -, -, hlt⟩ | ⟨hfailed, -⟩
      · exact hlt
      · rw [hitem] at hfailed
        cases hfailed
    rw [h.after_succ r]
    refine RetryQueue.serve_of_rewrite hids (fun stale hstale ↦ ?_)
      (fun _ _ ↦ StaleJob.id_eq_of_before) hqueue (fun stale hstale hstays ↦ ?_)
      (fun stale hstale hnot hselected ↦ ?_)
    · rcases h.rewrite_cases hstanding r hstale with hsame | ⟨-, hended⟩
      · exact congrArg (·.job.id) hsame
      · exact hended.id
    · rcases h.rewrite_cases hstanding r hstale with hsame | ⟨hprocessing, -⟩
      · exact hsame
      · by_cases hbatch : stale.job.id ∈ series.batch (series.after r)
        · have hserved := mem_take_of_mem_batch hids hstale hbatch
          rw [htake] at hserved
          have hfailed := of_decide_eq_true (hstays hserved)
          rw [hprocessing] at hfailed
          cases hfailed
        · exact if_neg hbatch
    · rw [← htake] at hstale
      obtain ⟨hmem, hstaleSelected⟩ := mem_queue.mp (List.mem_of_mem_take hstale)
      rcases h.selected_cases hstanding hmem hstaleSelected with ⟨-, hprocessing, -⟩ | ⟨hfailed, -⟩
      · exact h.ended_behind (h.served_ended hstale hprocessing) hselected hitemStale
      · exact absurd hfailed (of_decide_eq_false hnot)

/-! ## 5. When nobody starves -/

/-- A job that has ended stays so. -/
theorem Accepted.ended_stays (h : series.Accepted) {id : UUID} {r : Nat}
    (hended : ∀ later ∈ series.after r, later.job.id = id → later.job.status ≠ .processing)
    (d : Nat) :
    ∀ later ∈ series.after (r + d), later.job.id = id → later.job.status ≠ .processing := by
  induction d with
  | zero => exact hended
  | succ d ih =>
    intro later hlater hid
    rw [← Nat.add_assoc, h.after_succ] at hlater
    obtain ⟨before, hbefore, rfl⟩ := List.mem_map.mp hlater
    rcases h.rewrite_cases (h.standing (r + d)) (r + d) hbefore with hsame | ⟨-, hended⟩
    · rw [hsame] at hid ⊢
      exact ih before hbefore hid
    · exact hended.status

theorem Accepted.mem_candidates (h : series.Accepted) {stale : StaleJob}
    (hmem : stale ∈ series.jobs) (hprocessing : stale.job.status = .processing)
    (howner : stale.hasOwner = true) : stale ∈ series.candidates := by
  have hselected : stale.selected (series.staleBefore 0) = true := by
    simp [StaleJob.selected, hprocessing, howner, (h.recoverable stale hmem hprocessing howner).2]
  exact mem_queue.mpr ⟨hmem, hselected⟩

/-- **Enough**: with few fenced jobs ahead, every stale job has ended after two calls a stale
job. -/
theorem Accepted.endedBy (h : series.Accepted) (hfew : series.FewFencedAhead) {calls : Nat}
    (hcalls : 2 * series.candidates.length ≤ calls) : series.EndedBy calls := by
  intro stale hmem hprocessing howner
  obtain ⟨ahead, behind, hsplit⟩ := List.append_of_mem (h.mem_candidates hmem hprocessing howner)
  have hlength : ahead.length < series.candidates.length := by
    rw [hsplit, List.length_append, List.length_cons]
    omega
  have hahead := hfew ahead stale behind hsplit hprocessing
  obtain ⟨r, -, hr, hserved⟩ := h.rounds.served (fun _ ↦ .inl (.inr le_rfl)) hprocessing
    series.candidates.length hlength (show series.queue (series.after 0) = _ from hsplit) (by omega)
  have hids : ((series.after r).map (·.job.id)).Nodup := (h.standing r).ids ▸ h.ids
  have hended : ∀ later ∈ series.after (r + 1), later.job.id = stale.job.id →
      later.job.status ≠ .processing := by
    intro later hlater hid
    rw [h.after_succ] at hlater
    obtain ⟨before, hbefore, rfl⟩ := List.mem_map.mp hlater
    have hstale := (mem_queue.mp (List.mem_of_mem_take hserved)).1
    have hsame : before = stale := by
      refine List.inj_on_of_nodup_map hids hbefore hstale ?_
      rcases h.rewrite_cases (h.standing r) r hbefore with hsame | ⟨-, hended⟩
      · rwa [hsame] at hid
      · exact hended.id.symm.trans hid
    rw [hsame]
    exact (h.served_ended hserved hprocessing).status
  have hstays := h.ended_stays hended (calls - (r + 1))
  rw [show r + 1 + (calls - (r + 1)) = calls by omega] at hstays
  have hthere : stale.job.id ∈ (series.after calls).map (·.job.id) :=
    (h.standing calls).ids ▸ List.mem_map_of_mem hmem
  obtain ⟨later, hlater, hid⟩ := List.mem_map.mp hthere
  exact ⟨later, hlater, hid, hstays later hlater hid⟩

/-- **Needed**: a stale job behind as many fenced ones as a call selects is never recovered. -/
theorem Accepted.starved (h : series.Accepted) {ahead behind : List StaleJob} {stale : StaleJob}
    (hsplit : series.candidates = ahead ++ stale :: behind)
    (hprocessing : stale.job.status = .processing)
    (hmany : series.limit.toNat ≤ ahead.countP fun other ↦ other.job.status = .failed)
    (calls : Nat) : stale ∈ series.after calls := by
  have hcandidate : stale ∈ series.candidates := by
    rw [hsplit]
    exact List.mem_append_right _ List.mem_cons_self
  have hnew : stale ∉ ahead := by
    have hnodup : ((series.candidates).map (·.job.id)).Nodup := by
      refine ((List.perm_insertionSort _ _).map _).nodup_iff.mpr ?_
      exact h.ids.sublist (List.filter_sublist.map _)
    have hnodup := hnodup.of_map
    rw [hsplit, List.nodup_append] at hnodup
    exact fun hahead ↦ hnodup.2.2 _ hahead _ List.mem_cons_self rfl
  induction calls with
  | zero => exact (mem_queue.mp hcandidate).1
  | succ r ih =>
    have hids : ((series.after r).map (·.job.id)).Nodup := (h.standing r).ids ▸ h.ids
    have hwaits := h.rounds.starved (fun _ _ ↦ hmany) hprocessing
      (show series.queue (series.after 0) = _ from hsplit) hnew r
    rw [Nat.zero_add] at hwaits
    rw [h.after_succ]
    refine List.mem_map.mpr ⟨stale, ih, if_neg fun hbatch ↦ hwaits ?_⟩
    exact mem_take_of_mem_batch hids ih hbatch

theorem Accepted.fewFencedAhead (h : series.Accepted) {calls : Nat}
    (hended : series.EndedBy calls) : series.FewFencedAhead := by
  intro ahead stale behind hsplit hprocessing
  by_contra hmany
  have hlimit := h.limit
  have hcandidate : stale ∈ series.candidates := by
    rw [hsplit]
    exact List.mem_append_right _ List.mem_cons_self
  obtain ⟨hmem, hselected⟩ := mem_queue.mp hcandidate
  have howner : stale.hasOwner = true := by
    simp only [StaleJob.selected, Bool.or_eq_true, Bool.and_eq_true, decide_eq_true_eq] at hselected
    rcases hselected with hboth | ⟨-, hfailed⟩
    · exact hboth.1.1
    · rw [hprocessing] at hfailed
      cases hfailed
  obtain ⟨later, hlater, hid, hnot⟩ := hended stale hmem hprocessing howner
  have hids : ((series.after calls).map (·.job.id)).Nodup := (h.standing calls).ids ▸ h.ids
  have hsame : later = stale := List.inj_on_of_nodup_map hids hlater
    (h.starved hsplit hprocessing (by omega) calls) hid
  exact hnot (hsame ▸ hprocessing)

end RecoverySeries

/-- **Stale recovery starves nobody exactly when few fenced jobs are ahead of anybody.**  With few
of them every stale job in processing has ended after two calls a stale job; otherwise no number of
calls is enough. -/
theorem recovery_starves_nobody_iff {series : RecoverySeries} (h : series.Accepted) :
    ((∀ calls, 2 * series.candidates.length ≤ calls → series.EndedBy calls) ↔
        series.FewFencedAhead) ∧
      ∀ calls, series.EndedBy calls → series.FewFencedAhead :=
  ⟨⟨fun hended ↦ h.fewFencedAhead (hended _ le_rfl), fun hfew _ ↦ h.endedBy hfew⟩,
    fun _ ↦ h.fewFencedAhead⟩

/-- An issuance job of its own issuance, with a reserved evidence row. -/
def staleRows (job issuance : BitVec 128) (status : JobStatus) (updatedAt : Instant) :
    IssuanceRows :=
  let rows : IssuanceRows := { IssuanceWorker.sampleRows with
    job := { IssuanceWorker.sampleJob with
      id := ⟨job⟩, target := .issuance ⟨issuance⟩, status := status, updatedAt := updatedAt }
    issuance := { IssuanceWorker.sampleIssuance with id := ⟨issuance⟩ } }
  { rows with evidence := some (rows.reservedEvidence ⟨11⟩ 0) }

/-- A job in processing whose worker is gone. -/
def abandonedRows : IssuanceRows := staleRows 42 32 .processing 2

/-- A failed job whose output an earlier recovery has deleted. -/
def fencedRows : IssuanceRows :=
  let rows := staleRows 41 31 .failed 1
  { rows with evidence := rows.evidence.map fun evidence ↦
      IssuanceRows.takenOver evidence ⟨12⟩ 1 }

/-- The fenced job comes before the abandoned one. -/
def fencedSeries (limit : Int) : RecoverySeries where
  settings := IssuanceWorker.sampleSettings
  db := emptySources
  limit := limit
  staleBefore _ := 10
  readings _ _ := ⟨⟨13⟩, 20, 20, 0⟩
  jobs := [.issuance fencedRows, .issuance abandonedRows]

theorem abandonedRows_recoverable :
    abandonedRows.Recoverable (abandonedRows.reservedEvidence ⟨11⟩ 0) where
  loaded := rfl
  trusted := by decide +kernel
  processing := rfl
  output := by decide +kernel

theorem fencedSeries_accepted {limit : Int} (h : 1 ≤ limit ∧ limit ≤ maxStaleReconciliationLimit) :
    (fencedSeries limit).Accepted where
  limit := h
  ids := by
    show ([StaleJob.issuance fencedRows, .issuance abandonedRows].map (·.job.id)).Nodup
    decide +kernel
  recoverable := by
    show ∀ stale ∈ [StaleJob.issuance fencedRows, .issuance abandonedRows], _
    simp only [List.forall_mem_cons]
    refine ⟨fun hprocessing ↦ absurd hprocessing (by decide +kernel), fun _ _ ↦ ?_, by simp⟩
    exact ⟨⟨_, abandonedRows_recoverable⟩, show (2 : Int) < 10 by decide⟩
  thresholds _ := le_rfl
  acknowledged _ _ := show (10 : Int) ≤ 20 by decide
  fresh := by
    show ∀ stale ∈ [StaleJob.issuance fencedRows, .issuance abandonedRows],
      ∀ token ∈ stale.ownerToken, ∀ _ : Nat, (⟨13⟩ : UUID) ≠ token
    intro stale hmem token htoken _
    revert token
    revert stale
    decide +kernel

theorem fencedSeries_candidates (limit : Int) :
    (fencedSeries limit).candidates = [.issuance fencedRows, .issuance abandonedRows] := by
  show staleCandidates 10 [.issuance fencedRows, .issuance abandonedRows] = _
  decide +kernel

/-- With two jobs a call the abandoned job ends. -/
theorem recovery_starves_nobody_sample : (fencedSeries 2).EndedBy 4 := by
  have haccepted := fencedSeries_accepted (show (1 : Int) ≤ 2 ∧ (2 : Int) ≤ 100 by decide)
  refine (recovery_starves_nobody_iff haccepted).1.mpr ?_ 4 (by rw [fencedSeries_candidates]; rfl)
  intro ahead stale behind hsplit _
  have hlength := congrArg List.length hsplit
  rw [fencedSeries_candidates, List.length_append, List.length_cons] at hlength
  have hcount : ahead.countP (fun other ↦ other.job.status = .failed) ≤ ahead.length :=
    List.countP_le_length
  simp only [List.length_cons, List.length_nil] at hlength
  show ((ahead.countP fun other ↦ other.job.status = .failed : Nat) : Int) < 2
  omega

/-- With one job a call the fenced job keeps the abandoned one from its turn. -/
theorem recovery_starves_abandoned :
    (fencedSeries 1).Accepted ∧ ∀ calls, ¬ (fencedSeries 1).EndedBy calls := by
  have haccepted := fencedSeries_accepted (show (1 : Int) ≤ 1 ∧ (1 : Int) ≤ 100 by decide)
  refine ⟨haccepted, fun calls hended ↦ ?_⟩
  have hfew := haccepted.fewFencedAhead hended [.issuance fencedRows] (.issuance abandonedRows) []
    (fencedSeries_candidates 1) rfl
  revert hfew
  show ¬ (([StaleJob.issuance fencedRows].countP fun other ↦ other.job.status = .failed : Nat) :
    Int) < 1
  decide +kernel

end Splitbind
