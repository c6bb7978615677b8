import Splitbind.Benchmark.Checkpoint

/-!
# Resumption — a shard done over many runs against the same shard done in one

The rows of a checkpoint are at all times rows of cases of its shard, none twice, so that a run to
the end has only to do the others.  The order of an export is that of the identifiers, whatever the
order in which the rows were recorded.
-/

namespace Splitbind.Benchmark

open Worklist

/-! ## 1. What a directory keeps -/

section Runs

variable {ω : Type} (x : RowExecution ω) (plan : ExecutionPlan) {n i : Nat}

/-- A directory of a shard: its rows are of cases of the shard, none twice. -/
structure Kept (n i : Nat) (directory : OutputDirectory) : Prop where
  identity : directory.identity = none ∨ directory.identity = some (runIdentity plan i n)
  part : Part ((deal n i 0 plan.cases).map (Case.rowId x)) (directory.rows.map Prod.fst)
  recorded : ∀ row ∈ directory.rows, ∃ case ∈ deal n i 0 plan.cases, Recorded x plan case row

theorem Kept.empty : Kept x plan n i .empty where
  identity := Or.inl rfl
  part := Part.nil _
  recorded := fun _ hrow ↦ absurd hrow List.not_mem_nil

variable {x plan} {attempt : Attempt ω} {directory : OutputDirectory}

/-- A checkpoint of the shard, or none, is taken up. -/
theorem Kept.initialize (hkept : Kept x plan n i directory) :
    initializeCheckpoint (runIdentity plan i n) directory =
      .ok { directory with identity := some (runIdentity plan i n) } := by
  rcases hkept with ⟨hnone | hsome, -, -⟩
  · rw [initializeCheckpoint, hnone]
  · obtain ⟨identity, rows, results, summary⟩ := directory
    cases hsome
    exact if_neg fun h ↦ h rfl

/-- What the loops do to a checkpoint of the shard. -/
theorem Kept.after_loops (attempt : Attempt ω) (hnodup : (plan.cases.map (Case.rowId x)).Nodup)
    (hkept : Kept x plan n i directory) :
    let turn := loops x plan i n attempt directory.rows
    (∀ directory', directory'.identity = some (runIdentity plan i n) →
      directory'.rows = turn.1.rows → Kept x plan n i directory') ∧
    (turn.2 = none → (turn.1.rows.map Prod.fst).Perm
      ((deal n i 0 plan.cases).map (Case.rowId x))) ∧
    ∀ exit, turn.2 = some exit → exit.Called attempt := by
  intro turn
  obtain ⟨⟨new, hrows, hrecorded, hall⟩, -, hcalled⟩ :=
    loops_records (n := n) (i := i) attempt hnodup directory.rows
  have hshard : ((deal n i 0 plan.cases).map (Case.rowId x)).Nodup :=
    hnodup.sublist ((deal_sublist n i 0 plan.cases).map _)
  have hkeys : turn.1.rows.map Prod.fst = sit ((deal n i 0 plan.cases).map (Case.rowId x))
      (directory.rows.map Prod.fst) new.length := by
    rw [show turn.1.rows = _ from hrows, List.map_append, Recorded.keys hrecorded, List.map_take,
      map_remaining, sit]
  refine ⟨fun directory' hidentity hrows' ↦ ⟨Or.inr hidentity, ?_, ?_⟩, fun hnone ↦ ?_, hcalled⟩
  · rw [hrows', hkeys]
    exact Part.sit hshard hkept.part _
  · intro row hrow
    rw [hrows', show turn.1.rows = _ from hrows, List.mem_append] at hrow
    rcases hrow with hold | hnew
    · exact hkept.recorded row hold
    · obtain ⟨k, hk, rfl⟩ := List.mem_iff_getElem.mp hnew
      have hk' := hk
      rw [← hrecorded.length_eq] at hk'
      refine ⟨_, ?_, hrecorded.get hk' hk⟩
      exact List.mem_of_mem_filter (List.mem_of_mem_take (List.getElem_mem hk'))
  · rw [hkeys]
    refine Part.sit_all hshard hkept.part ?_
    rw [← map_remaining, List.length_map, hall hnone]

/-- **A run keeps a directory of its shard.** -/
theorem Kept.after_run (hnodup : (plan.cases.map (Case.rowId x)).Nodup)
    (hkept : Kept x plan n i directory) :
    Kept x plan n i (runExecutionPlan x plan i n attempt directory).1 := by
  obtain ⟨hnext, -, -⟩ := hkept.after_loops attempt hnodup
  rw [runExecutionPlan, hkept.initialize]
  split
  · exact hkept
  split
  · exact hkept
  cases x.dimensions plan.candidates with
  | none => exact hkept
  | some dimensions =>
    dsimp only
    split
    · exact hnext _ rfl rfl
    split
    · exact hnext _ rfl rfl
    · exact hnext _ rfl rfl

theorem Kept.after_runs (hnodup : (plan.cases.map (Case.rowId x)).Nodup) (history : List (Attempt ω))
    (hkept : Kept x plan n i directory) :
    Kept x plan n i (runs x plan i n history directory) := by
  induction history generalizing directory with
  | nil => exact hkept
  | cons attempt history ih => exact ih (hkept.after_run hnodup)

/-- A run that nothing stops. -/
def uninterrupted (observed : Nat → ω) : Attempt ω := ⟨none, none, observed⟩

/-- **A run to the end** does all of the shard and exports it. -/
theorem Kept.run_to_end (hnodup : (plan.cases.map (Case.rowId x)).Nodup)
    (hdimensions : x.dimensions plan.candidates ≠ none) (hi : i < n)
    (hkept : Kept x plan n i directory) (observed : Nat → ω) :
    ∃ checkpoint, Kept x plan n i checkpoint ∧
      (checkpoint.rows.map Prod.fst).Perm ((deal n i 0 plan.cases).map (Case.rowId x)) ∧
      runExecutionPlan x plan i n (uninterrupted observed) directory =
        ((exportArtifacts plan i n checkpoint).1,
          .finished (exportArtifacts plan i n checkpoint).2) := by
  obtain ⟨hnext, hall, hcalled⟩ := hkept.after_loops (uninterrupted observed) hnodup
  obtain ⟨dimensions, hsome⟩ := Option.ne_none_iff_exists'.mp hdimensions
  have hexit : (loops x plan i n (uninterrupted observed) directory.rows).2 = none := by
    cases hleft : (loops x plan i n (uninterrupted observed) directory.rows).2 with
    | none => rfl
    | some exit =>
      rcases hcalled exit hleft with ⟨-, h⟩ | ⟨-, h⟩
      · exact absurd rfl h
      · exact absurd rfl h
  have hshard : ¬ ((n : Int) < 1 ∨ ¬ (0 ≤ (i : Int) ∧ (i : Int) < n)) := by omega
  have hmax : ¬ ((uninterrupted observed).maxRows.any fun maxRows : Int ↦ maxRows < 1) = true :=
    Bool.false_ne_true
  refine ⟨_, hnext ⟨some (runIdentity plan i n), _, directory.results, directory.summary⟩ rfl rfl,
    hall hexit, ?_⟩
  rw [runExecutionPlan, if_neg hshard, if_neg hmax, hsome, hkept.initialize]
  dsimp only
  rw [hexit, if_neg (by simp [uninterrupted]), if_neg (by decide)]

/-! ## 2. What is exported -/

/-- The rows exported last. -/
def OutputDirectory.exported (directory : OutputDirectory) : List ResultRow :=
  directory.results.getD []

/-- The identifiers that rows carry. -/
def rowIds (rows : List ResultRow) : List (Option Json) := rows.map fun row ↦ Json.get row "row_id"

/-- The identifiers of the rows of cases. -/
def scheduledIds (x : RowExecution ω) (cases : List Case) : List (Option Json) :=
  cases.map fun case ↦ some (.text (case.rowId x))

theorem Recorded.get_rowId {case : Case} {row : String × ResultRow} (h : Recorded x plan case row) :
    Json.get row.2 "row_id" = some (.text row.1) := by
  obtain ⟨-, observed, hrow⟩ := h
  rw [hrow]
  rfl

/-- A row carries the identifier that it is kept under. -/
theorem Kept.exported (hkept : Kept x plan n i directory) :
    (rowIds (exportArtifacts plan i n directory).1.exported).Perm
      ((directory.rows.map Prod.fst).map fun rowId ↦ some (.text rowId)) := by
  show (((byKey directory.rows).map Prod.snd).map fun row ↦ Json.get row "row_id").Perm _
  rw [List.map_map, List.map_map]
  refine ((byKey_perm directory.rows).map _).trans (List.Perm.of_eq ?_)
  refine List.map_congr_left fun row hrow ↦ ?_
  obtain ⟨case, -, hrecorded⟩ := hkept.recorded row hrow
  exact hrecorded.get_rowId

theorem normalized_append (row row' : ResultRow) :
    normalized (row ++ row') = normalized row ++ normalized row' := List.filter_append ..

/-- **Rows of one case are one row**, but for the fields that differ from run to run. -/
theorem Recorded.same_row {case : Case} {row row' : String × ResultRow}
    (h : Recorded x plan case row) (h' : Recorded x plan case row') :
    Prod.map id normalized row = Prod.map id normalized row' := by
  obtain ⟨hid, observed, hrow⟩ := h
  obtain ⟨hid', observed', hrow'⟩ := h'
  refine Prod.ext (hid.trans hid'.symm) ?_
  show normalized row.2 = normalized row'.2
  rw [hrow, hrow', hid, hid', executeRow, executeRow, normalized_append, normalized_append,
    x.reproducible plan case.page case.candidate case.attack observed observed']

/-- Two checkpoints that have done the whole shard export the same, but for those fields. -/
theorem Kept.exported_congr (hnodup : (plan.cases.map (Case.rowId x)).Nodup)
    {directory' : OutputDirectory} (hkept : Kept x plan n i directory)
    (hkept' : Kept x plan n i directory')
    (hall : (directory.rows.map Prod.fst).Perm ((deal n i 0 plan.cases).map (Case.rowId x)))
    (hall' : (directory'.rows.map Prod.fst).Perm ((deal n i 0 plan.cases).map (Case.rowId x))) :
    (exportArtifacts plan i n directory).1.exported.map normalized =
      (exportArtifacts plan i n directory').1.exported.map normalized := by
  have hshard : ((deal n i 0 plan.cases).map (Case.rowId x)).Nodup :=
    hnodup.sublist ((deal_sublist n i 0 plan.cases).map _)
  have hfst : ∀ rows : List (String × ResultRow),
      (rows.map (Prod.map id normalized)).map Prod.fst = rows.map Prod.fst := by
    intro rows
    rw [List.map_map]
    rfl
  have hsnd : ∀ rows : List (String × ResultRow), ((byKey rows).map Prod.snd).map normalized =
      (byKey (rows.map (Prod.map id normalized))).map Prod.snd := by
    intro rows
    rw [← map_byKey, List.map_map, List.map_map]
    rfl
  show ((byKey directory.rows).map Prod.snd).map normalized =
    ((byKey directory'.rows).map Prod.snd).map normalized
  rw [hsnd, hsnd]
  congr 1
  refine byKey_congr ?_ (perm_of_keys ?_ ?_ ?_)
  · rw [hfst]
    exact hkept.part.1
  · rw [hfst]
    exact hkept'.part.1
  · rw [hfst, hfst]
    exact hall.trans hall'.symm
  · -- the row that the other checkpoint has of the same case
    intro _ hmapped
    obtain ⟨row, hrow, rfl⟩ := List.mem_map.mp hmapped
    obtain ⟨case, hcase, hrecorded⟩ := hkept.recorded row hrow
    have hmem : case.rowId x ∈ directory'.rows.map Prod.fst :=
      hall'.mem_iff.mpr (List.mem_map_of_mem hcase)
    obtain ⟨row', hrow', hid⟩ := List.mem_map.mp hmem
    obtain ⟨case', hcase', hrecorded'⟩ := hkept'.recorded row' hrow'
    have hsame : case' = case :=
      List.inj_on_of_nodup_map hshard hcase' hcase (hrecorded'.1.symm.trans hid)
    rw [hsame] at hrecorded'
    rw [hrecorded.same_row hrecorded']
    exact List.mem_map_of_mem hrow'

end Runs

/-! ## 3. Plans whose cases are distinct -/

section Distinct

variable {ω : Type} {x : RowExecution ω} {plan : ExecutionPlan}

/-- Fixtures, candidates and attacks that are pairwise distinct make distinct cases. -/
theorem nodup_keys (hfixtures : (plan.sources.map CorpusSource.fixtureId).Nodup)
    (hcandidates : (plan.candidates.map Candidate.profileSha256).Nodup)
    (hattacks : (plan.attacks.map AttackCase.caseId).Nodup) : (plan.cases.map Case.key).Nodup := by
  have hpages : (iterSources plan.sources).Pairwise fun page page' ↦
      (page.source.fixtureId, page.pageIndex) ≠ (page'.source.fixtureId, page'.pageIndex) := by
    refine List.pairwise_flatMap.mpr ⟨fun source _ ↦ ?_, ?_⟩
    · refine List.pairwise_map.mpr (List.nodup_range.imp fun hne heq ↦ hne ?_)
      exact (Prod.ext_iff.mp heq).2
    · refine (List.pairwise_map.mp hfixtures).imp fun hne page hpage page' hpage' heq ↦ hne ?_
      obtain ⟨_, -, rfl⟩ := List.mem_map.mp hpage
      obtain ⟨_, -, rfl⟩ := List.mem_map.mp hpage'
      exact (Prod.ext_iff.mp heq).1
  have hattack : ∀ page candidate, (plan.attacks.map (Case.mk page candidate)).Pairwise
      fun case case' ↦ case.key ≠ case'.key := by
    intro page candidate
    refine List.pairwise_map.mpr ((List.pairwise_map.mp hattacks).imp fun hne heq ↦ hne ?_)
    exact (Prod.ext_iff.mp (Prod.ext_iff.mp (Prod.ext_iff.mp heq).2).2).2
  have hcandidate : ∀ page, (plan.pageCases page).Pairwise fun case case' ↦
      case.key ≠ case'.key := by
    intro page
    refine List.pairwise_flatMap.mpr ⟨fun candidate _ ↦ hattack page candidate, ?_⟩
    refine (List.pairwise_map.mp hcandidates).imp fun hne case hcase case' hcase' heq ↦ hne ?_
    obtain ⟨_, -, rfl⟩ := List.mem_map.mp hcase
    obtain ⟨_, -, rfl⟩ := List.mem_map.mp hcase'
    exact (Prod.ext_iff.mp (Prod.ext_iff.mp (Prod.ext_iff.mp heq).2).2).1
  refine List.pairwise_map.mpr (List.pairwise_flatMap.mpr ⟨fun page _ ↦ hcandidate page, ?_⟩)
  refine hpages.imp fun hne case hcase case' hcase' heq ↦ hne ?_
  have hof : ∀ {page : CorpusPage} {case : Case}, case ∈ plan.pageCases page → case.page = page := by
    intro page case hcase
    obtain ⟨_, -, hcase⟩ := List.mem_flatMap.mp hcase
    obtain ⟨_, -, rfl⟩ := List.mem_map.mp hcase
    rfl
  rw [← hof hcase, ← hof hcase']
  exact Prod.ext (Prod.ext_iff.mp heq).1 (Prod.ext_iff.mp (Prod.ext_iff.mp heq).2).1

/-- Identifiers that do not collide tell the cases apart. -/
theorem nodup_rowIds (hkeys : (plan.cases.map Case.key).Nodup)
    (hids : ∀ case ∈ plan.cases, ∀ case' ∈ plan.cases,
      case.rowId x = case'.rowId x → case.key = case'.key) :
    (plan.cases.map (Case.rowId x)).Nodup := by
  refine List.pairwise_map.mpr ((List.pairwise_map.mp hkeys).imp_of_mem ?_)
  intro case case' hcase hcase' hne heq
  exact hne (hids case hcase case' hcase' heq)

theorem length_cases (hplan : plan.Counts) : plan.cases.length = plan.plannedRows := by
  have hpages : ∀ sources, (iterSources sources).length = (sources.map CorpusSource.pages).sum := by
    intro sources
    rw [iterSources, List.length_flatMap]
    congr 1
    refine List.map_congr_left fun source _ ↦ ?_
    rw [List.length_map, List.length_range]
  have hpage : ∀ page, (plan.pageCases page).length = plan.candidates.length * plan.attacks.length := by
    intro page
    rw [ExecutionPlan.pageCases, List.length_flatMap]
    simp only [List.length_map, List.map_const', List.sum_replicate_nat]
  rw [ExecutionPlan.cases, List.length_flatMap, hplan, ← hpages, Nat.mul_assoc]
  simp only [hpage, List.map_const', List.sum_replicate_nat]

end Distinct

/-! ## 4. Other plans -/

/-- What the identity of a run tells of a plan of a later version. -/
def ExecutionPlan.variant (plan : ExecutionPlan) : Option (Nat × String × Option String) :=
  if plan.algorithmVersion ∈ [2, 3] then
    some (plan.algorithmVersion, plan.runKind, plan.candidateSelectionSha256)
  else none

/-- What the identity of a run tells of its plan. -/
structure ExecutionPlan.SameRun (plan plan' : ExecutionPlan) : Prop where
  seed : plan.seed = plan'.seed
  smoke : plan.smoke = plan'.smoke
  corpus : plan.corpusContractSha256 = plan'.corpusContractSha256
  profile : plan.profileContractSha256 = plan'.profileContractSha256
  matrix : plan.attackMatrixSha256 = plan'.attackMatrixSha256
  digest : plan.planSha256 = plan'.planSha256
  plannedRows : plan.plannedRows = plan'.plannedRows
  variant : plan.variant = plan'.variant

theorem runIdentity_inj {plan plan' : ExecutionPlan} {i n i' n' : Int}
    (h : runIdentity plan i n = runIdentity plan' i' n') :
    plan.SameRun plan' ∧ i = i' ∧ n = n' := by
  obtain ⟨hshared, hlater⟩ := List.append_inj h rfl
  have hselection : ∀ a b : Option String,
      (a.map Json.text).getD .null = (b.map Json.text).getD .null → a = b := by
    rintro (_ | a) (_ | b) heq <;> simp_all
  have hvariant : plan.variant = plan'.variant := by
    rw [ExecutionPlan.variant, ExecutionPlan.variant]
    split_ifs at hlater ⊢
    · simp only [List.cons.injEq, Prod.mk.injEq, Json.int.injEq, Json.text.injEq, Nat.cast_inj,
        true_and, and_true] at hlater
      rw [hlater.1, hlater.2.1, hselection _ _ hlater.2.2]
    · rfl
  simp only [List.cons.injEq, Prod.mk.injEq, Json.int.injEq, Json.bool.injEq, Json.text.injEq,
    Nat.cast_inj, true_and, and_true] at hshared
  obtain ⟨hseed, hsmoke, hcorpus, hprofile, hmatrix, hplan, hrows, hi, hn⟩ := hshared
  exact ⟨⟨hseed, hsmoke, hcorpus, hprofile, hmatrix, hplan, hrows, hvariant⟩, hi, hn⟩

section Claim

variable {ω : Type} {x : RowExecution ω} {plan : ExecutionPlan}

/-- **A directory of another run is refused**, and left as it was. -/
theorem refuses {plan' : ExecutionPlan} {i n i' n' : Int} {directory : OutputDirectory}
    (hidentity : directory.identity = some (runIdentity plan' i' n'))
    (hother : ¬ (plan'.SameRun plan ∧ i' = i ∧ n' = n)) (attempt : Attempt ω) :
    ∃ error, runExecutionPlan x plan i n attempt directory = (directory, .raised error) := by
  have hrefused : initializeCheckpoint (runIdentity plan i n) directory =
      .error (.value "output checkpoint belongs to a different benchmark run") := by
    rw [initializeCheckpoint, hidentity]
    exact if_pos fun h ↦ hother (runIdentity_inj h)
  rw [runExecutionPlan, hrefused]
  split
  · exact ⟨_, rfl⟩
  split
  · exact ⟨_, rfl⟩
  cases x.dimensions plan.candidates with
  | none => exact ⟨_, rfl⟩
  | some dimensions => exact ⟨_, rfl⟩

/-- What a run that finishes has exported. -/
theorem Kept.of_finished {n i : Nat} (hnodup : (plan.cases.map (Case.rowId x)).Nodup)
    {directory : OutputDirectory} (hkept : Kept x plan n i directory) {attempt : Attempt ω}
    {summary : BenchmarkSummary}
    (h : (runExecutionPlan x plan i n attempt directory).2 = .finished summary) :
    ∃ checkpoint, Kept x plan n i checkpoint ∧
      (runExecutionPlan x plan i n attempt directory).1 = (exportArtifacts plan i n checkpoint).1 ∧
      summary = (exportArtifacts plan i n checkpoint).2 := by
  obtain ⟨hnext, -, -⟩ := hkept.after_loops attempt hnodup
  rw [runExecutionPlan, hkept.initialize] at h ⊢
  split at h
  · cases h
  rename_i hshard
  rw [if_neg hshard]
  split at h
  · cases h
  rename_i hmax
  rw [if_neg hmax]
  cases hdimensions : x.dimensions plan.candidates with
  | none =>
    rw [hdimensions] at h
    cases h
  | some dimensions =>
    rw [hdimensions] at h
    dsimp only at h ⊢
    split at h
    · cases h
    rename_i hkilled
    rw [if_neg hkilled]
    split at h
    · cases h
    rename_i hintegrity
    rw [if_neg hintegrity]
    cases h
    exact ⟨_, hnext ⟨some (runIdentity plan i n), _, directory.results, directory.summary⟩ rfl rfl,
      rfl, rfl⟩

/-- A summary that says complete counts the rows of the whole plan. -/
theorem complete_of_summary {n i : Nat} {directory : OutputDirectory} (hi : i < n)
    (h : let summary := (exportArtifacts plan i n directory).2
      summary.complete = true ∨ summary.status = .complete ∨
        summary.status = .completeWithErrors) :
    n = 1 ∧ i = 0 ∧ directory.rows.length = plan.plannedRows := by
  have hcomplete : directory.rows.length = (List.range plan.plannedRows).countP
      (fun ordinal : Nat ↦ (ordinal : Int) % n = i) ∧ (n : Int) = 1 := by
    have hlength : ((byKey directory.rows).map Prod.snd).length = directory.rows.length := by
      rw [List.length_map, (byKey_perm directory.rows).length_eq]
    rw [← hlength]
    dsimp only [exportArtifacts] at h
    rcases h with h | h | h
    · exact of_decide_eq_true h
    · split_ifs at h with _ hcomplete
      exact hcomplete
    · split_ifs at h with hcomplete
      exact hcomplete.1
  obtain ⟨hrows, hn⟩ := hcomplete
  obtain rfl : n = 1 := by omega
  obtain rfl : i = 0 := by omega
  refine ⟨rfl, rfl, hrows.trans ?_⟩
  rw [List.countP_eq_length.mpr fun ordinal _ ↦ ?_, List.length_range]
  exact decide_eq_true (Int.emod_one _)

/-- A run to the end, after other runs of the shard. -/
def endRun (x : RowExecution ω) (plan : ExecutionPlan) (n i : Nat) (history : List (Attempt ω))
    (observed : Nat → ω) : OutputDirectory × Outcome :=
  runExecutionPlan x plan i n (uninterrupted observed) (runs x plan i n history .empty)

theorem endRun_spec (hnodup : (plan.cases.map (Case.rowId x)).Nodup)
    (hdimensions : x.dimensions plan.candidates ≠ none) {n i : Nat} (hi : i < n)
    (history : List (Attempt ω)) (observed : Nat → ω) : ∃ checkpoint, Kept x plan n i checkpoint ∧
      (checkpoint.rows.map Prod.fst).Perm ((deal n i 0 plan.cases).map (Case.rowId x)) ∧
      endRun x plan n i history observed = ((exportArtifacts plan i n checkpoint).1,
        .finished (exportArtifacts plan i n checkpoint).2) :=
  ((Kept.empty x plan).after_runs hnodup history).run_to_end hnodup hdimensions hi observed

theorem scheduledIds_eq (cases : List Case) : scheduledIds x cases =
    (cases.map (Case.rowId x)).map fun rowId ↦ some (.text rowId) := by
  rw [List.map_map]
  rfl

theorem endRun_exported (hnodup : (plan.cases.map (Case.rowId x)).Nodup)
    (hdimensions : x.dimensions plan.candidates ≠ none) {n i : Nat} (hi : i < n)
    (history : List (Attempt ω)) (observed : Nat → ω) :
    (rowIds (endRun x plan n i history observed).1.exported).Perm
      (scheduledIds x (deal n i 0 plan.cases)) := by
  obtain ⟨checkpoint, hkept, hall, hrun⟩ := endRun_spec hnodup hdimensions hi history observed
  rw [hrun, scheduledIds_eq]
  exact hkept.exported.trans (hall.map _)

/-- The shards share the rows of the plan out. -/
theorem shards_perm {n : Nat} (hn : 1 ≤ n) : ((List.range n).flatMap fun i ↦
    scheduledIds x (deal n i 0 plan.cases)).Perm (scheduledIds x plan.cases) := by
  have hdeals := (deals_perm hn 0 plan.cases).map fun case ↦
    (some (.text (case.rowId x)) : Option Json)
  rw [List.map_flatMap] at hdeals
  exact hdeals

/-- Shards run to the end export the identifiers of the plan between them, each once. -/
theorem shards_exported (hnodup : (plan.cases.map (Case.rowId x)).Nodup)
    (hdimensions : x.dimensions plan.candidates ≠ none) {n : Nat} (hn : 1 ≤ n)
    (histories : Nat → List (Attempt ω)) (observed : Nat → Nat → ω) :
    let exported (i : Nat) := rowIds (endRun x plan n i (histories i) (observed i)).1.exported
    ((List.range n).flatMap exported).Perm (scheduledIds x plan.cases) ∧
      ((List.range n).flatMap exported).Nodup := by
  intro exported
  have hperm : ((List.range n).flatMap exported).Perm (scheduledIds x plan.cases) :=
    (List.Perm.flatMap_left _ fun i hi ↦ endRun_exported hnodup hdimensions
      (List.mem_range.mp hi) (histories i) (observed i)).trans (shards_perm hn)
  refine ⟨hperm, hperm.nodup_iff.mpr ?_⟩
  rw [scheduledIds_eq]
  exact hnodup.map fun a b h ↦ by simpa using h

/-- A full plan as it is built counts its rows, and its fixtures are distinct, so that its shards
export each planned row once where candidates and attacks are distinct. -/
theorem built_plan_exported {sha256 : String → String} {canonicalJson : Json → String}
    {contracts : Contracts} {seed : Int} {selection : Option CandidateSelection}
    (h : buildExecutionPlan sha256 canonicalJson contracts seed false selection = .ok plan)
    (hcandidates : (plan.candidates.map Candidate.profileSha256).Nodup)
    (hattacks : (plan.attacks.map AttackCase.caseId).Nodup)
    (hids : ∀ case ∈ plan.cases, ∀ case' ∈ plan.cases,
      case.rowId x = case'.rowId x → case.key = case'.key)
    (hdimensions : x.dimensions plan.candidates ≠ none) {n : Nat} (hn : 1 ≤ n)
    (histories : Nat → List (Attempt ω)) (observed : Nat → Nat → ω) :
    let exported := (List.range n).flatMap fun i ↦
      rowIds (endRun x plan n i (histories i) (observed i)).1.exported
    exported.length = plan.plannedRows ∧ exported.Perm (scheduledIds x plan.cases) ∧
      exported.Nodup := by
  have hkeys := nodup_keys (buildExecutionPlan_fixtures h) hcandidates hattacks
  obtain ⟨hperm, hnodup⟩ :=
    shards_exported (nodup_rowIds hkeys hids) hdimensions hn histories observed
  refine ⟨hperm.length_eq.trans ?_, hperm, hnodup⟩
  rw [scheduledIds, List.length_map, length_cases (buildExecutionPlan_counts h)]

/-- **A benchmark over checkpoints is one without them.**  Whatever runs of a shard came before, a
run to the end exports the shard's rows, each once, and the rows of one uninterrupted run but for
the fields that differ from run to run; the shards share the plan's rows out; a summary says
complete when every row of the plan is there; and the directory of another run is refused. -/
theorem checkpointed_runs (hplan : plan.Counts)
    (hfixtures : (plan.sources.map CorpusSource.fixtureId).Nodup)
    (hcandidates : (plan.candidates.map Candidate.profileSha256).Nodup)
    (hattacks : (plan.attacks.map AttackCase.caseId).Nodup)
    (hids : ∀ case ∈ plan.cases, ∀ case' ∈ plan.cases,
      case.rowId x = case'.rowId x → case.key = case'.key)
    (hdimensions : x.dimensions plan.candidates ≠ none) {n : Nat} (hn : 1 ≤ n) :
    (∀ i < n, ∀ (history : List (Attempt ω)) (observed observed' : Nat → ω),
      (∃ summary, (endRun x plan n i history observed).2 = .finished summary) ∧
      (rowIds (endRun x plan n i history observed).1.exported).Perm
        (scheduledIds x (deal n i 0 plan.cases)) ∧
      (endRun x plan n i history observed).1.exported.map normalized =
        (endRun x plan n i [] observed').1.exported.map normalized) ∧
    (∀ (histories : Nat → List (Attempt ω)) (observed : Nat → Nat → ω),
      let exported (i : Nat) := rowIds (endRun x plan n i (histories i) (observed i)).1.exported
      ((List.range n).flatMap exported).Perm (scheduledIds x plan.cases) ∧
        ((List.range n).flatMap exported).Nodup) ∧
    (∀ i < n, ∀ (history : List (Attempt ω)) (attempt : Attempt ω) (summary : BenchmarkSummary),
      let last := runExecutionPlan x plan i n attempt (runs x plan i n history .empty)
      last.2 = .finished summary →
        (summary.complete = true ∨ summary.status = .complete ∨
          summary.status = .completeWithErrors) →
        (rowIds last.1.exported).Perm (scheduledIds x plan.cases)) ∧
    ∀ (plan' : ExecutionPlan) (i' n' i : Int) (attempt : Attempt ω) (directory : OutputDirectory),
      directory.identity = some (runIdentity plan' i' n') →
        ¬ (plan'.SameRun plan ∧ i' = i ∧ n' = n) →
        ∃ error, runExecutionPlan x plan i n attempt directory = (directory, .raised error) := by
  have hnodup := nodup_rowIds (nodup_keys hfixtures hcandidates hattacks) hids
  refine ⟨fun i hi history observed observed' ↦
      ⟨?_, endRun_exported hnodup hdimensions hi history observed, ?_⟩,
    fun histories observed ↦ ?_, fun i hi history attempt summary ↦ ?_,
    fun plan' i' n' i attempt directory hidentity hother ↦ refuses hidentity hother attempt⟩
  · obtain ⟨checkpoint, -, -, hrun⟩ := endRun_spec hnodup hdimensions hi history observed
    exact ⟨_, congrArg Prod.snd hrun⟩
  · obtain ⟨checkpoint, hkept, hall, hrun⟩ := endRun_spec hnodup hdimensions hi history observed
    obtain ⟨checkpoint', hkept', hall', hrun'⟩ := endRun_spec hnodup hdimensions hi [] observed'
    rw [hrun, hrun']
    exact hkept.exported_congr hnodup hkept' hall hall'
  · -- the shards partition the plan, so the union of their exports is the whole schedule
    exact shards_exported hnodup hdimensions hn histories observed
  · intro last hfinished hcomplete
    obtain ⟨checkpoint, hkept, hrun, rfl⟩ :=
      ((Kept.empty x plan).after_runs hnodup history).of_finished hnodup hfinished
    obtain ⟨rfl, rfl, hrows⟩ := complete_of_summary hi hcomplete
    -- a summary is complete only for a single shard, whose part is every case
    have hpart := hkept.part
    rw [deal_one] at hpart
    have hall : (checkpoint.rows.map Prod.fst).Perm (plan.cases.map (Case.rowId x)) := by
      refine hpart.perm ?_
      rw [List.length_map, List.length_map, length_cases hplan, hrows]
    rw [show last.1 = _ from hrun, scheduledIds_eq]
    exact hkept.exported.trans (hall.map _)

end Claim

/-! ## 5. Samples -/

/-- A candidate with the digest of its document. -/
def sampleCandidate : Candidate where
  values := [("qim_delta", .float 12), ("tile_size_px", .int 256), ("tiles_per_page", .int 12),
    ("payload_repetitions", .int 3)]
  profileSha256 := "22c8d8f602ff99d3627799395fb9c1a785863d6f7464d2c604d6e820095c3207"
  algorithmVersion := 1
  candidateId := none

def sampleSource : CorpusSource where
  fixtureId := "bounded-clean"
  kind := "clean_image"
  sha256 := "5feceb66ffc86f38d952786c6d696c79c2dbc239dd4e91b46729d73a27fb57e9"
  pages := 1
  groundTruth := []

def jpegAttack (caseId : String) (quality : Int) : AttackCase :=
  ⟨caseId, "jpeg", [("quality", .int quality)], []⟩

/-- A full plan of one page. -/
def samplePlan (candidates : List Candidate) (attacks : List AttackCase) : ExecutionPlan where
  sources := [sampleSource]
  candidates := candidates
  attacks := attacks
  corpusPages := 1
  candidateCount := candidates.length
  attackCount := attacks.length
  plannedRows := 1 * candidates.length * attacks.length
  corpusContractSha256 := "6b86b273ff34fce19d6b804eff5a3f5747ada4eaa22f1d49c01e52ddb7875b4b"
  profileContractSha256 := "d4735e3a265e16eee03f59718b9b5d03019c07d8b6c51f90da3a666eec13ab35"
  attackMatrixSha256 := "4e07408562bedb8b60ce05c1decfe3ad16b72230967de01f640b7e4729b49fce"
  planSha256 := "4b227777d4dd1fc61c6f884f48641d02b4d121d3fd328cb08b5531fcacdabf8a"
  seed := 20260827
  smoke := false
  algorithmVersion := 1
  candidateSelectionSha256 := none
  runKind := "full"

/-- The digests of the texts of two rows. -/
def sampleSha256 (text : String) : String :=
  if text = rowMaterial "bounded-clean" 0 sampleCandidate.profileSha256 "jpeg-q95" then
    "251bb0be4c82cf6e57fc6a558d9300b18a357c93b5e01c638369b999d3b8cdab"
  else if text = rowMaterial "bounded-clean" 0 sampleCandidate.profileSha256 "jpeg-q70" then
    "3fd45e030563a3c4a2d06d6ee033d938588ec268e324655ddfc3c62af0c9527f"
  else text

/-- An execution whose rows differ in the time they took only. -/
def sampleExecution : RowExecution Nat where
  sha256 := sampleSha256
  dimensions := fun _ ↦ some (1024, 768)
  measure := fun elapsed _ _ _ _ ↦
    [("outcome", .text "true_attribution"), ("elapsed_ms", .int elapsed)]
  reproducible := fun _ _ _ _ _ _ ↦ rfl

/-- A plan of two rows, stopped after the first and resumed. -/
theorem checkpointed_runs_sample :
    let plan := samplePlan [sampleCandidate] [jpegAttack "jpeg-q95" 95, jpegAttack "jpeg-q70" 70]
    (endRun sampleExecution plan 1 0 [⟨some 1, none, id⟩] id).1.exported.map normalized =
      (endRun sampleExecution plan 1 0 [] fun n ↦ n + 7).1.exported.map normalized := by
  intro plan
  have hcounts : plan.Counts := rfl
  refine ((checkpointed_runs (x := sampleExecution) hcounts ?_ ?_ ?_ ?_ ?_ (Nat.le_refl 1)).1 0
    (Nat.lt_succ_self 0) [⟨some 1, none, id⟩] id fun n ↦ n + 7).2.2
  · decide
  · decide
  · decide
  · intro case hcase case' hcase' heq
    have hcases : plan.cases = [⟨⟨sampleSource, 0⟩, sampleCandidate, jpegAttack "jpeg-q95" 95⟩,
        ⟨⟨sampleSource, 0⟩, sampleCandidate, jpegAttack "jpeg-q70" 70⟩] := rfl
    rw [hcases, List.mem_pair] at hcase hcase'
    rcases hcase with rfl | rfl <;> rcases hcase' with rfl | rfl
    · rfl
    · exact absurd heq (by decide)
    · exact absurd heq (by decide)
    · rfl
  · exact Option.some_ne_none _

/-- A candidate that a sweep gives twice has its row once: two shards export the same row, and the
whole plan is never complete. -/
theorem repeatedCandidate_shared :
    let plan := samplePlan [sampleCandidate, sampleCandidate] [jpegAttack "jpeg-q70" 70]
    let row : Option Json :=
      some (.text "3fd45e030563a3c4a2d06d6ee033d938588ec268e324655ddfc3c62af0c9527f")
    (plan.Counts ∧ (plan.sources.map CorpusSource.fixtureId).Nodup ∧
      (plan.attacks.map AttackCase.caseId).Nodup ∧
      ∀ case ∈ plan.cases, ∀ case' ∈ plan.cases,
        case.rowId sampleExecution = case'.rowId sampleExecution → case.key = case'.key) ∧
    (rowIds (endRun sampleExecution plan 2 0 [] id).1.exported = [row] ∧
      rowIds (endRun sampleExecution plan 2 1 [] id).1.exported = [row]) ∧
    (endRun sampleExecution plan 1 0 [] id).2 =
      .finished ⟨.partialRun, false, 2, 2, 1, 0, 0, 1⟩ := by
  intro plan row
  refine ⟨⟨rfl, by decide, by decide, ?_⟩, ⟨?_, ?_⟩, ?_⟩
  · intro case hcase case' hcase' _
    have hcases : plan.cases = [⟨⟨sampleSource, 0⟩, sampleCandidate, jpegAttack "jpeg-q70" 70⟩,
        ⟨⟨sampleSource, 0⟩, sampleCandidate, jpegAttack "jpeg-q70" 70⟩] := rfl
    rw [hcases, List.mem_pair, or_self] at hcase hcase'
    rw [hcase, hcase']
  · decide +kernel
  · decide +kernel
  · decide +kernel

end Splitbind.Benchmark
