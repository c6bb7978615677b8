import Mathlib.Data.String.Basic
import Splitbind.Benchmark.Plan
import Splitbind.Library.Worklist

/-!
# Checkpoints — the rows of a shard, measured over any number of runs

Each row is committed before the next one is measured, under an identifier of its fixture, page,
candidate and attack.  A run goes through the whole plan with a running ordinal, which decides what
belongs to its shard, and passes over what the checkpoint has.  The canonical text of a row, and that
of the identity of a run, stand for what they are the text of.
-/

namespace Splitbind.Benchmark

open Worklist

/-! ## 1. Rows -/

/-- A row of the results, by the names of its fields. -/
abbrev ResultRow := List (String × Json)

/-- `NONDETERMINISTIC_ROW_FIELDS`. -/
def nondeterministicRowFields : List String := ["elapsed_ms", "peak_rss_bytes"]

/-- A row without the fields that differ from run to run. -/
def normalized (row : ResultRow) : ResultRow :=
  row.filter fun field ↦ field.1 ∉ nondeterministicRowFields

/-- The text whose digest a row is identified by. -/
def rowMaterial (fixtureId : String) (pageIndex : Nat) (profileHash attackId : String) : String :=
  fixtureId ++ "\x00" ++ toString pageIndex ++ "\x00" ++ profileHash ++ "\x00" ++ attackId

/-- `_row_identifier`. -/
def rowIdentifier (sha256 : String → String) (fixtureId : String) (pageIndex : Nat)
    (profileHash attackId : String) : String :=
  sha256 (rowMaterial fixtureId pageIndex profileHash attackId)

/-- What the checkpoint is given: the digest, the canvas of `_benchmark_dimensions` where there is
one, and what the execution of a row measures, at a time and on a machine that `ω` stands for. -/
structure RowExecution (ω : Type) where
  sha256 : String → String
  dimensions : List Candidate → Option (Nat × Nat)
  measure : ω → ExecutionPlan → CorpusPage → Candidate → AttackCase → List (String × Json)
  reproducible : ∀ plan page candidate attack observed observed',
    normalized (measure observed plan page candidate attack) =
      normalized (measure observed' plan page candidate attack)

/-- A case of a plan. -/
structure Case where
  page : CorpusPage
  candidate : Candidate
  attack : AttackCase

/-- What a case is known by. -/
def Case.key (case : Case) : String × Nat × String × String :=
  (case.page.source.fixtureId, case.page.pageIndex, case.candidate.profileSha256,
    case.attack.caseId)

/-- The fields of a row that say where it comes from. -/
def provenance (plan : ExecutionPlan) (page : CorpusPage) (candidate : Candidate)
    (attack : AttackCase) (rowId : String) : ResultRow :=
  [("schema_version", .int 1), ("row_id", .text rowId),
    ("evidence_scope", .text "research_measurement_only"), ("profile_promoted", .bool false),
    ("corpus_contract_sha256", .text plan.corpusContractSha256),
    ("corpus_sha256", .text page.source.sha256),
    ("profile_contract_sha256", .text plan.profileContractSha256),
    ("attack_matrix_sha256", .text plan.attackMatrixSha256),
    ("benchmark_plan_sha256", .text plan.planSha256),
    ("algorithm_profile_sha256", .text candidate.profileSha256),
    ("fixture_id", .text page.source.fixtureId), ("fixture_kind", .text page.source.kind),
    ("page_index", .int page.pageIndex), ("attack_id", .text attack.caseId),
    ("attack_kind", .text attack.kind), ("attack_parameters", .object attack.parameters),
    ("seed", .int plan.seed)]

/-- `_iter_sources`: the pages of the sources, one after the other. -/
def iterSources (sources : List CorpusSource) : List CorpusPage :=
  sources.flatMap fun source ↦ (List.range source.pages).map fun pageIndex ↦ ⟨source, pageIndex⟩

/-- The cases of a page. -/
def ExecutionPlan.pageCases (plan : ExecutionPlan) (page : CorpusPage) : List Case :=
  plan.candidates.flatMap fun candidate ↦ plan.attacks.map (Case.mk page candidate)

/-- The cases of a plan, in the order of the three loops. -/
def ExecutionPlan.cases (plan : ExecutionPlan) : List Case :=
  (iterSources plan.sources).flatMap plan.pageCases

/-! ## 2. The output directory -/

inductive Status
  | complete
  | completeWithErrors
  | completeShard
  | completeShardWithErrors
  | partialRun
deriving DecidableEq, Repr

structure BenchmarkSummary where
  status : Status
  complete : Bool
  plannedRows : Nat
  plannedShardRows : Nat
  completedRows : Nat
  failedRows : Nat
  shardIndex : Int
  shardCount : Int
deriving DecidableEq

/-- An output directory: the identity and the rows of its checkpoint, and the last exports. -/
structure OutputDirectory where
  identity : Option (List (String × Json))
  rows : List (String × ResultRow)
  results : Option (List ResultRow)
  summary : Option BenchmarkSummary

def OutputDirectory.empty : OutputDirectory := ⟨none, [], none, none⟩

/-- What stops a run short of its exports. -/
inductive RunError
  | value (text : String)
  | noDimensions
  | integrity
deriving DecidableEq

inductive Outcome
  | raised (error : RunError)
  | interrupted
  | finished (summary : BenchmarkSummary)
deriving DecidableEq

/-- `_run_identity`. -/
def runIdentity (plan : ExecutionPlan) (shardIndex shardCount : Int) : List (String × Json) :=
  [("schema_version", .int 1), ("seed", .int plan.seed), ("smoke", .bool plan.smoke),
    ("corpus_contract_sha256", .text plan.corpusContractSha256),
    ("profile_contract_sha256", .text plan.profileContractSha256),
    ("attack_matrix_sha256", .text plan.attackMatrixSha256),
    ("plan_sha256", .text plan.planSha256), ("planned_rows", .int plan.plannedRows),
    ("shard_index", .int shardIndex), ("shard_count", .int shardCount)] ++
  if plan.algorithmVersion ∈ [2, 3] then
    [("algorithm_version", .int plan.algorithmVersion), ("run_kind", .text plan.runKind),
      ("candidate_selection_sha256", (plan.candidateSelectionSha256.map Json.text).getD .null)]
  else []

/-- `_initialize_checkpoint`. -/
def initializeCheckpoint (identity : List (String × Json)) (directory : OutputDirectory) :
    Except RunError OutputDirectory :=
  match directory.identity with
  | none => .ok { directory with identity := some identity }
  | some observed =>
    if observed ≠ identity then
      .error (.value "output checkpoint belongs to a different benchmark run")
    else .ok directory

/-- The rows of the checkpoint that failed. -/
def failedRows (payloads : List ResultRow) : Nat :=
  payloads.countP fun row ↦ Json.get row "outcome" = some (.text "execution_error")

/-- `_export_artifacts`: the payloads in the order of their identifiers, and the summary. -/
def exportArtifacts (plan : ExecutionPlan) (shardIndex shardCount : Int)
    (directory : OutputDirectory) : OutputDirectory × BenchmarkSummary :=
  let payloads := (byKey directory.rows).map Prod.snd
  let plannedShardRows := (List.range plan.plannedRows).countP fun ordinal : Nat ↦
    (ordinal : Int) % shardCount = shardIndex
  let completed := payloads.length
  let failed := failedRows payloads
  let completeShard := completed = plannedShardRows
  let complete := completeShard ∧ shardCount = 1
  let status : Status :=
    if complete ∧ failed ≠ 0 then .completeWithErrors
    else if complete then .complete
    else if completeShard ∧ failed ≠ 0 then .completeShardWithErrors
    else if completeShard then .completeShard
    else .partialRun
  let summary : BenchmarkSummary := ⟨status, complete, plan.plannedRows, plannedShardRows, completed,
    failed, shardIndex, shardCount⟩
  ({ directory with results := some payloads, summary := some summary }, summary)

/-! ## 3. A run -/

/-- How a run is called, what it observes row by row, and after how many commits it is killed. -/
structure Attempt (ω : Type) where
  maxRows : Option Int
  killed : Option Nat
  observed : Nat → ω

/-- The variables of the loops, the rows committed among them. -/
structure LoopState where
  rows : List (String × ResultRow)
  existing : List String
  newRows : Nat
  globalOrdinal : Nat

inductive Exit
  | stopped
  | interrupted
  | integrityError
deriving DecidableEq

section Run

variable {ω : Type} (x : RowExecution ω) (plan : ExecutionPlan) (shardIndex shardCount : Int)
  (attempt : Attempt ω)

def Case.rowId (case : Case) : String :=
  rowIdentifier x.sha256 case.page.source.fixtureId case.page.pageIndex
    case.candidate.profileSha256 case.attack.caseId

/-- `_execute_row`. -/
def executeRow (observed : ω) (page : CorpusPage) (candidate : Candidate) (attack : AttackCase)
    (rowId : String) : ResultRow :=
  provenance plan page candidate attack rowId ++ x.measure observed plan page candidate attack

/-- The attacks that are scheduled for a page and a candidate, from a running ordinal on. -/
def schedule (existing : List String) (page : CorpusPage) (candidate : Candidate) :
    Nat → List AttackCase → List (AttackCase × String)
  | _, [] => []
  | globalOrdinal, attack :: attacks =>
    let rowId := rowIdentifier x.sha256 page.source.fixtureId page.pageIndex
      candidate.profileSha256 attack.caseId
    let rest := schedule existing page candidate (globalOrdinal + 1) attacks
    if (globalOrdinal : Int) % shardCount = shardIndex ∧ rowId ∉ existing then
      (attack, rowId) :: rest
    else rest

/-- One turn of the loop over what is scheduled. -/
def rowBody (page : CorpusPage) (candidate : Candidate) (scheduled : AttackCase × String)
    (s : LoopState) : LoopState × Option Exit :=
  if attempt.killed = some s.newRows then (s, some .interrupted)
  else if attempt.maxRows.any fun maxRows : Int ↦ maxRows ≤ s.newRows then (s, some .stopped)
  else if scheduled.2 ∈ s.rows.map Prod.fst then (s, some .integrityError)
  else
    let row := executeRow x plan (attempt.observed s.newRows) page candidate scheduled.1 scheduled.2
    ({ s with
        rows := s.rows ++ [(scheduled.2, row)]
        existing := scheduled.2 :: s.existing
        newRows := s.newRows + 1 }, none)

/-- One turn of the loop over the candidates. -/
def candidateBody (page : CorpusPage) (candidate : Candidate) (s : LoopState) :
    LoopState × Option Exit :=
  let scheduled := schedule x shardIndex shardCount s.existing page candidate s.globalOrdinal
    plan.attacks
  let s := { s with globalOrdinal := s.globalOrdinal + plan.attacks.length }
  if scheduled.length = 0 then (s, none)
  else exitLoop (rowBody x plan attempt page candidate) scheduled s

/-- One turn of the loop over the pages. -/
def pageBody (page : CorpusPage) (s : LoopState) : LoopState × Option Exit :=
  exitLoop (candidateBody x plan shardIndex shardCount attempt page) plan.candidates s

/-- The loops of a run over a checkpoint with the given rows. -/
def loops (rows : List (String × ResultRow)) : LoopState × Option Exit :=
  exitLoop (pageBody x plan shardIndex shardCount attempt) (iterSources plan.sources)
    ⟨rows, rows.map Prod.fst, 0, 0⟩

/-- `_run_execution_plan`. -/
def runExecutionPlan (directory : OutputDirectory) : OutputDirectory × Outcome :=
  if shardCount < 1 ∨ ¬ (0 ≤ shardIndex ∧ shardIndex < shardCount) then
    (directory, .raised (.value "shard_index must be in [0, shard_count)"))
  else if attempt.maxRows.any fun maxRows ↦ maxRows < 1 then
    (directory, .raised (.value "max_rows must be a positive integer"))
  else
    match x.dimensions plan.candidates with
    | none => (directory, .raised .noDimensions)
    | some _ =>
      match initializeCheckpoint (runIdentity plan shardIndex shardCount) directory with
      | .error error => (directory, .raised error)
      | .ok directory =>
        let (s, exit) := loops x plan shardIndex shardCount attempt directory.rows
        let directory := { directory with rows := s.rows }
        -- a run may also be killed between its last commit and the exports
        if exit = some .interrupted ∨ attempt.killed = some s.newRows then (directory, .interrupted)
        else if exit = some .integrityError then (directory, .raised .integrity)
        else
          let (directory, summary) := exportArtifacts plan shardIndex shardCount directory
          (directory, .finished summary)

end Run

/-- The runs of a history, one after the other in one directory. -/
def runs {ω : Type} (x : RowExecution ω) (plan : ExecutionPlan) (shardIndex shardCount : Int)
    (history : List (Attempt ω)) (directory : OutputDirectory) : OutputDirectory :=
  history.foldl (fun directory attempt ↦
    (runExecutionPlan x plan shardIndex shardCount attempt directory).1) directory

/-! ## 4. What the loops bring about -/

section Loops

variable {ω : Type} (x : RowExecution ω) (plan : ExecutionPlan) {n i : Nat} (attempt : Attempt ω)

/-- A row is what the execution of its case gave, at some time. -/
def Recorded (case : Case) (row : String × ResultRow) : Prop :=
  row.1 = case.rowId x ∧ ∃ observed,
    row.2 = executeRow x plan observed case.page case.candidate case.attack row.1

/-- The set of identifiers is that of the rows. -/
def LoopState.Consistent (s : LoopState) : Prop :=
  ∀ rowId, rowId ∈ s.existing ↔ rowId ∈ s.rows.map Prod.fst

/-- An exit that the call of the run accounts for. -/
def Exit.Called (exit : Exit) : Prop :=
  exit = .stopped ∧ attempt.maxRows ≠ none ∨ exit = .interrupted ∧ attempt.killed ≠ none

/-- Rows were recorded for the first of the cases, and for all of them unless the loop was left. -/
structure Records (cases : List Case) (s s' : LoopState) (exit : Option Exit) : Prop where
  rows : ∃ new, s'.rows = s.rows ++ new ∧
    List.Forall₂ (Recorded x plan) (cases.take new.length) new ∧
    (exit = none → new.length = cases.length)
  consistent : s'.Consistent
  called : ∀ e, exit = some e → e.Called attempt

/-- What of some cases is dealt to a shard and is not in the checkpoint. -/
def pending (n i : Nat) (s : LoopState) (cases : List Case) : List Case :=
  remaining (Case.rowId x) (s.rows.map Prod.fst) (deal n i s.globalOrdinal cases)

/-- The loops have gone over some cases. -/
structure Advances (n i : Nat) (cases : List Case) (s s' : LoopState) (exit : Option Exit) :
    Prop where
  records : Records x plan attempt (pending x n i s cases) s s' exit
  ordinal : exit = none → s'.globalOrdinal = s.globalOrdinal + cases.length

variable {x plan attempt}

theorem Recorded.keys {cases : List Case} {rows : List (String × ResultRow)}
    (h : List.Forall₂ (Recorded x plan) cases rows) :
    rows.map Prod.fst = cases.map (Case.rowId x) := by
  induction h with
  | nil => rfl
  | cons hrow _ ih => rw [List.map_cons, List.map_cons, ih, hrow.1]

theorem Records.nil {s : LoopState} (hs : s.Consistent) : Records x plan attempt [] s s none where
  rows := ⟨[], (List.append_nil _).symm, List.Forall₂.nil, fun _ ↦ rfl⟩
  consistent := hs
  called := fun _ he ↦ nomatch he

/-! ### One page and one candidate -/

variable (x) in
/-- The identifier of the row of an attack. -/
def rowIdOf (page : CorpusPage) (candidate : Candidate) (attack : AttackCase) : String :=
  (Case.mk page candidate attack).rowId x

theorem schedule_eq (existing : List String) (page : CorpusPage) (candidate : Candidate)
    (ordinal : Nat) (attacks : List AttackCase) :
    schedule x i n existing page candidate ordinal attacks =
      (remaining (rowIdOf x page candidate) existing
        (deal n i ordinal attacks)).map
          fun attack ↦ (attack, rowIdOf x page candidate attack) := by
  induction attacks generalizing ordinal with
  | nil => rfl
  | cons attack attacks ih =>
    have hmod : (ordinal : Int) % n = i ↔ ordinal % n = i := by
      rw [← Int.natCast_mod, Int.natCast_inj]
    rw [schedule, deal, ih]
    by_cases hbelongs : ordinal % n = i
    · rw [if_pos hbelongs]
      by_cases hdone : rowIdOf x page candidate attack ∈ existing
      · rw [remaining_cons_of_mem hdone, if_neg fun h ↦ h.2 hdone]
      · rw [remaining_cons_of_notMem hdone, if_pos ⟨hmod.mpr hbelongs, hdone⟩]
        rfl
    · rw [if_neg hbelongs, if_neg fun h ↦ hbelongs (hmod.mp h.1)]

/-- A turn of the loop over what is scheduled either leaves it or records a row. -/
theorem rowBody_cases (page : CorpusPage) (candidate : Candidate) (attack : AttackCase)
    {s : LoopState} (hs : s.Consistent)
    (hnew : rowIdOf x page candidate attack ∉ s.rows.map Prod.fst) :
    let turn := rowBody x plan attempt page candidate (attack, rowIdOf x page candidate attack) s
    (∃ exit, exit.Called attempt ∧ turn = (s, some exit)) ∨
      turn.2 = none ∧ turn.1.Consistent ∧ turn.1.globalOrdinal = s.globalOrdinal ∧
        ∃ row, Recorded x plan (Case.mk page candidate attack) row ∧
          turn.1.rows = s.rows ++ [row] := by
  intro turn
  by_cases hkilled : attempt.killed = some s.newRows
  · refine Or.inl ⟨.interrupted, Or.inr ⟨rfl, ?_⟩, if_pos hkilled⟩
    rw [hkilled]
    exact Option.some_ne_none _
  by_cases hmax : (attempt.maxRows.any fun maxRows : Int ↦ maxRows ≤ s.newRows) = true
  · refine Or.inl ⟨.stopped, Or.inl ⟨rfl, fun hnone ↦ ?_⟩, ?_⟩
    · rw [hnone] at hmax
      exact absurd hmax Bool.false_ne_true
    · exact (if_neg hkilled).trans (if_pos hmax)
  · right
    have hturn : turn = _ := (if_neg hkilled).trans ((if_neg hmax).trans (if_neg hnew))
    rw [hturn]
    refine ⟨rfl, fun rowId ↦ ?_, rfl, _, ⟨rfl, attempt.observed s.newRows, rfl⟩, rfl⟩
    show rowId ∈ rowIdOf x page candidate attack :: s.existing ↔ rowId ∈ (s.rows ++ [_]).map Prod.fst
    rw [List.map_append, List.mem_append, List.mem_cons, hs rowId, List.map_singleton,
      List.mem_singleton, or_comm]

/-- **The loop over what is scheduled.** -/
theorem executeScheduled (page : CorpusPage) (candidate : Candidate) {attacks : List AttackCase}
    {s : LoopState} (hs : s.Consistent)
    (hnodup : (attacks.map (rowIdOf x page candidate)).Nodup)
    (hnew : ∀ attack ∈ attacks,
      rowIdOf x page candidate attack ∉ s.rows.map Prod.fst) :
    let turn := exitLoop (rowBody x plan attempt page candidate)
      (attacks.map fun attack ↦ (attack, rowIdOf x page candidate attack)) s
    Records x plan attempt (attacks.map (Case.mk page candidate)) s turn.1 turn.2 ∧
      turn.1.globalOrdinal = s.globalOrdinal := by
  induction attacks generalizing s with
  | nil => exact ⟨Records.nil hs, rfl⟩
  | cons attack attacks ih =>
    obtain ⟨hfirst, hnodup⟩ := List.nodup_cons.mp hnodup
    rw [List.map_cons, List.map_cons]
    rcases rowBody_cases page candidate attack hs (hnew attack List.mem_cons_self) with
      ⟨exit, hcalled, hturn⟩ | ⟨hnone, hs', hordinal, row, hrow, hrows⟩
    · rw [exitLoop_cons_some hturn]
      refine ⟨⟨⟨[], (List.append_nil _).symm, List.Forall₂.nil, fun h ↦ nomatch h⟩, hs, ?_⟩, rfl⟩
      intro e he
      cases he
      exact hcalled
    · -- the row was recorded, and the rest of the attacks are still new after it
      set s' := (rowBody x plan attempt page candidate
        (attack, rowIdOf x page candidate attack) s).1
      have hturn : rowBody x plan attempt page candidate
          (attack, rowIdOf x page candidate attack) s = (s', none) :=
        Prod.ext rfl hnone
      have hnew' : ∀ other ∈ attacks,
          rowIdOf x page candidate other ∉ s'.rows.map Prod.fst := by
        intro other hother hmem
        rw [hrows, List.map_append, List.mem_append, List.map_singleton, List.mem_singleton,
          hrow.1] at hmem
        rcases hmem with hmem | heq
        · exact hnew other (List.mem_cons_of_mem _ hother) hmem
        · exact hfirst (List.mem_map.mpr ⟨other, hother, heq⟩)
      obtain ⟨⟨⟨new, hnewRows, hrecorded, hall⟩, hconsistent, hcalled⟩, hordinal'⟩ :=
        ih hs' hnodup hnew'
      rw [exitLoop_cons_none hturn]
      refine ⟨⟨⟨row :: new, ?_, ?_, ?_⟩, hconsistent, hcalled⟩, hordinal'.trans hordinal⟩
      · rw [hnewRows, hrows, List.append_assoc, List.singleton_append]
      · rw [List.length_cons, List.take_succ_cons]
        exact List.Forall₂.cons hrow hrecorded
      · intro h
        rw [List.length_cons, List.length_cons, hall h]

/-- **A turn of the loop over the candidates.** -/
theorem candidateBody_advances (page : CorpusPage) (candidate : Candidate) {s : LoopState}
    (hs : s.Consistent)
    (hnodup : (plan.attacks.map (rowIdOf x page candidate)).Nodup) :
    let turn := candidateBody x plan i n attempt page candidate s
    Advances x plan attempt n i (plan.attacks.map (Case.mk page candidate)) s turn.1
      turn.2 := by
  -- the attacks that the shard has still to do on this page with this candidate
  set attacks := remaining (rowIdOf x page candidate) s.existing
    (deal n i s.globalOrdinal plan.attacks)
  have hpending : pending x n i s (plan.attacks.map (Case.mk page candidate)) =
      attacks.map (Case.mk page candidate) := by
    rw [pending, deal_map, remaining_map]
    exact congrArg _ (remaining_congr (fun k ↦ (hs k).symm) _)
  have hsublist : attacks.Sublist plan.attacks :=
    List.filter_sublist.trans (deal_sublist n i _ plan.attacks)
  have hnew : ∀ attack ∈ attacks, rowIdOf x page candidate attack ∉ s.rows.map Prod.fst := by
    intro attack hattack hmem
    have hdone := List.of_mem_filter hattack
    rw [decide_eq_true_iff] at hdone
    exact hdone ((hs _).mpr hmem)
  set s' : LoopState := { s with globalOrdinal := s.globalOrdinal + plan.attacks.length }
  have hturn : candidateBody x plan i n attempt page candidate s =
      exitLoop (rowBody x plan attempt page candidate)
        (attacks.map fun attack ↦ (attack, rowIdOf x page candidate attack)) s' := by
    rw [candidateBody, schedule_eq]
    split
    case isTrue hnone =>
      rw [List.eq_nil_of_length_eq_zero hnone]
      rfl
    case isFalse => rfl
  obtain ⟨hrecords, hordinal⟩ := executeScheduled (s := s') page candidate hs
    (hnodup.sublist (hsublist.map _)) hnew
  intro turn
  rw [show turn = _ from hturn]
  constructor
  · rw [hpending]
    exact ⟨hrecords.rows, hrecords.consistent, hrecords.called⟩
  · intro _
    rw [hordinal, List.length_map]

/-! ### All pages and all candidates -/

variable (x) in
/-- No two of the cases have one identifier. -/
def Apart (cases cases' : List Case) : Prop := ((cases ++ cases').map (Case.rowId x)).Nodup

theorem Advances.nil {s : LoopState} (hs : s.Consistent) :
    Advances x plan attempt n i [] s s none where
  records := Records.nil hs
  ordinal := fun _ ↦ rfl

/-- What the first cases have recorded leaves the others pending. -/
theorem pending_append {cases cases' : List Case} {s s' : LoopState}
    (hapart : Apart x cases cases')
    (hadvances : Advances x plan attempt n i cases s s' none) :
    pending x n i s (cases ++ cases') = pending x n i s cases ++ pending x n i s' cases' := by
  obtain ⟨⟨⟨new, hrows, hrecorded, hall⟩, -, -⟩, hordinal⟩ := hadvances
  have hkeys : new.map Prod.fst = (pending x n i s cases).map (Case.rowId x) := by
    rw [Recorded.keys hrecorded, List.take_of_length_le (Nat.le_of_eq (hall rfl).symm)]
  have hothers : ∀ case ∈ deal n i s'.globalOrdinal cases', case.rowId x ∉ new.map Prod.fst := by
    intro case hcase hmem
    rw [hkeys] at hmem
    obtain ⟨first, hfirst, heq⟩ := List.mem_map.mp hmem
    have hfirst' : first ∈ cases := (deal_sublist n i _ cases).subset (List.mem_of_mem_filter hfirst)
    have hcase' : case ∈ cases' := (deal_sublist n i _ cases').subset hcase
    rw [Apart, List.map_append, List.nodup_append] at hapart
    exact hapart.2.2 _ (List.mem_map_of_mem hfirst') _ (List.mem_map_of_mem hcase') heq
  rw [pending, deal_append, remaining_append, ← hordinal rfl, pending, pending, hrows,
    List.map_append, remaining_eq_of_notMem hothers]

theorem Advances.append {cases cases' : List Case} {s s' s'' : LoopState} {exit : Option Exit}
    (hapart : Apart x cases cases')
    (hfirst : Advances x plan attempt n i cases s s' none)
    (hrest : Advances x plan attempt n i cases' s' s'' exit) :
    Advances x plan attempt n i (cases ++ cases') s s'' exit := by
  have hpending := pending_append hapart hfirst
  obtain ⟨⟨⟨new, hrows, hrecorded, hall⟩, -, -⟩, hordinal⟩ := hfirst
  obtain ⟨⟨⟨new', hrows', hrecorded', hall'⟩, hconsistent, hcalled⟩, hordinal'⟩ := hrest
  have hlength := hall rfl
  rw [List.take_of_length_le (Nat.le_of_eq hlength.symm)] at hrecorded
  refine ⟨⟨⟨new ++ new', ?_, ?_, ?_⟩, hconsistent, hcalled⟩, ?_⟩
  · rw [hrows', hrows, List.append_assoc]
  · rw [hpending, List.length_append, hlength, List.take_length_add_append]
    exact List.rel_append hrecorded hrecorded'
  · intro h
    rw [hpending, List.length_append, List.length_append, hlength, hall' h]
  · intro h
    rw [hordinal' h, hordinal rfl, List.length_append, Nat.add_assoc]

theorem Advances.exit {cases cases' : List Case} {s s' : LoopState} {exit : Exit}
    (hadvances : Advances x plan attempt n i cases s s' (some exit)) :
    Advances x plan attempt n i (cases ++ cases') s s' (some exit) := by
  obtain ⟨⟨⟨new, hrows, hrecorded, -⟩, hconsistent, hcalled⟩, -⟩ := hadvances
  have hlength : new.length ≤ (pending x n i s cases).length := by
    rw [← hrecorded.length_eq, List.length_take]
    exact Nat.min_le_right ..
  refine ⟨⟨⟨new, hrows, ?_, fun h ↦ nomatch h⟩, hconsistent, hcalled⟩, fun h ↦ nomatch h⟩
  rw [pending, deal_append, remaining_append]
  exact (List.take_append_of_le_length hlength).symm ▸ hrecorded

/-- A loop whose turns go over their own cases goes over all of them. -/
theorem exitLoop_advances {α : Type} {body : α → LoopState → LoopState × Option Exit}
    {cases : α → List Case} {l : List α}
    (hbody : ∀ a ∈ l, ∀ s : LoopState, s.Consistent →
      Advances x plan attempt n i (cases a) s (body a s).1 (body a s).2)
    (hnodup : ((l.flatMap cases).map (Case.rowId x)).Nodup) {s : LoopState} (hs : s.Consistent) :
    Advances x plan attempt n i (l.flatMap cases) s (exitLoop body l s).1 (exitLoop body l s).2 := by
  refine exitLoop_rule LoopState.Consistent (Apart x) (fun s hs ↦ Advances.nil hs)
    (fun h ↦ h.records.consistent) Advances.append Advances.exit hbody ?_ s hs
  rintro a rest ⟨front, rfl⟩
  rw [List.flatMap_append, List.map_append, List.flatMap_cons] at hnodup
  exact (List.nodup_append.mp hnodup).2.1

/-- **The loops of a run** record the first of what the shard has still to do, and all of it unless
they are left as the run was called for. -/
theorem loops_records (attempt : Attempt ω) (hnodup : (plan.cases.map (Case.rowId x)).Nodup)
    (rows : List (String × ResultRow)) :
    let turn := loops x plan i n attempt rows
    Records x plan attempt
      (remaining (Case.rowId x) (rows.map Prod.fst) (deal n i 0 plan.cases))
      ⟨rows, rows.map Prod.fst, 0, 0⟩ turn.1 turn.2 := by
  have hpage : ∀ page ∈ iterSources plan.sources,
      ((plan.pageCases page).map (Case.rowId x)).Nodup := by
    intro page hmem
    exact hnodup.sublist ((sublist_flatMap_of_mem plan.pageCases hmem).map _)
  have hcandidate : ∀ page ∈ iterSources plan.sources, ∀ candidate ∈ plan.candidates,
      (plan.attacks.map (rowIdOf x page candidate)).Nodup := by
    intro page hmem candidate hmem'
    have hsublist := sublist_flatMap_of_mem
      (fun candidate ↦ plan.attacks.map (Case.mk page candidate)) hmem'
    have h := (hpage page hmem).sublist (hsublist.map (Case.rowId x))
    rw [List.map_map] at h
    exact h
  have hadvances : Advances x plan attempt n i plan.cases ⟨rows, rows.map Prod.fst, 0, 0⟩
      (loops x plan i n attempt rows).1 (loops x plan i n attempt rows).2 := by
    refine exitLoop_advances (fun page hmem s hs ↦ ?_) hnodup fun _ ↦ Iff.rfl
    refine exitLoop_advances (fun candidate hmem' s hs ↦ ?_) (hpage page hmem) hs
    exact candidateBody_advances page candidate hs (hcandidate page hmem candidate hmem')
  exact hadvances.records

end Loops

end Splitbind.Benchmark
