import Splitbind.Fingerprint.CenterCrop
import Splitbind.Library.Json

/-!
# Execution plans — the cross product of corpus pages, candidates and attacks

Documents are read with their types; the files that a corpus names are left out, and so are the
attack cases of a matrix and the grids of candidates, which a plan is given as they are.
-/

namespace Splitbind.Benchmark

open Transaction

/-! ## 1. The corpus -/

structure CorpusSource where
  fixtureId : String
  kind : String
  sha256 : String
  pages : Nat
  groundTruth : List (NormalizedRect ℚ)

structure CorpusPage where
  source : CorpusSource
  pageIndex : Nat

/-- An entry of a corpus manifest; a region is its `x`, `y`, `width` and `height`. -/
structure CorpusEntry where
  fixtureId : String
  kind : String
  sha256 : String
  pages : Int
  groundTruthRegions : List (ℚ × ℚ × ℚ × ℚ)

/-- The `ValueError` of a plan. -/
inductive PlanError
  | value (text : String)
deriving DecidableEq

def corpusKinds : List String :=
  ["clean_pdf", "clean_image", "negative_external", "tamper_ground_truth"]

/-- The regions of an entry. -/
def groundTruthRegions (regions : List (ℚ × ℚ × ℚ × ℚ)) :
    Except PlanError (List (NormalizedRect ℚ)) :=
  regions.mapM fun (x, y, width, height) ↦
    match normalizedRect x y width height with
    | .ok rect => .ok rect
    | .error _ => .error (.value "corpus ground-truth region is invalid")

/-- One turn of the loop of `_corpus_sources`, `seen` being the fixtures before. -/
def corpusSource (seen : List String) (entry : CorpusEntry) : Except PlanError CorpusSource := do
  raiseIf (entry.fixtureId = "" ∨ entry.fixtureId ∈ seen)
    (.value "corpus fixture_id must be unique and non-empty")
  raiseIf (entry.kind ∉ corpusKinds) (.value ("unsupported corpus kind for " ++ entry.fixtureId))
  raiseIf (entry.sha256.length ≠ 64) (.value "corpus sha256 must be a hexadecimal SHA-256")
  raiseIf (entry.pages < 1) (.value "corpus pages must be a positive integer")
  let groundTruth ← groundTruthRegions entry.groundTruthRegions
  raiseIf (entry.kind = "tamper_ground_truth" ∧ groundTruth.length = 0)
    (.value "tamper_ground_truth corpus entries require ground-truth regions")
  return ⟨entry.fixtureId, entry.kind, entry.sha256, entry.pages.toNat, groundTruth⟩

/-- `_corpus_sources`. -/
def corpusSources : List String → List CorpusEntry → Except PlanError (List CorpusSource)
  | _, [] => .ok []
  | seen, entry :: entries => do
    let source ← corpusSource seen entry
    let sources ← corpusSources (entry.fixtureId :: seen) entries
    return source :: sources

theorem corpusSource_eq_ok {seen : List String} {entry : CorpusEntry} {source : CorpusSource}
    (h : corpusSource seen entry = .ok source) :
    source.fixtureId = entry.fixtureId ∧ entry.fixtureId ∉ seen ∧ 0 < source.pages := by
  simp only [corpusSource, bind_eq_ok, exists_unit, raiseIf_eq_ok, pure_eq_ok, not_or] at h
  obtain ⟨⟨-, hseen⟩, -, -, hpages, groundTruth, -, -, rfl⟩ := h
  refine ⟨rfl, hseen, ?_⟩
  show 0 < entry.pages.toNat
  omega

/-- Fixtures are checked to be distinct. -/
theorem nodup_corpusSources {seen : List String} {entries : List CorpusEntry}
    {sources : List CorpusSource} (h : corpusSources seen entries = .ok sources) :
    (sources.map CorpusSource.fixtureId).Nodup ∧ ∀ source ∈ sources, source.fixtureId ∉ seen := by
  induction entries generalizing seen sources with
  | nil =>
    cases h
    exact ⟨List.nodup_nil, fun source hsource ↦ absurd hsource List.not_mem_nil⟩
  | cons entry entries ih =>
    simp only [corpusSources, bind_eq_ok, pure_eq_ok] at h
    obtain ⟨source, hsource, rest, hrest, rfl⟩ := h
    obtain ⟨hid, hseen, -⟩ := corpusSource_eq_ok hsource
    obtain ⟨hnodup, hapart⟩ := ih hrest
    constructor
    · rw [List.map_cons, List.nodup_cons]
      refine ⟨fun hmem ↦ ?_, hnodup⟩
      obtain ⟨other, hother, heq⟩ := List.mem_map.mp hmem
      refine hapart other hother ?_
      rw [heq, hid]
      exact List.mem_cons_self
    · intro other hother
      rcases List.mem_cons.mp hother with rfl | hother
      · rw [hid]
        exact hseen
      · exact fun hmem ↦ hapart other hother (List.mem_cons_of_mem _ hmem)

/-! ## 2. Candidates and attacks -/

structure Candidate where
  values : List (String × Json)
  profileSha256 : String
  algorithmVersion : Nat
  candidateId : Option String

structure AttackCase where
  caseId : String
  kind : String
  parameters : List (String × Json)
  operations : List AttackCase

/-! ## 3. Smoke plans -/

/-- `_smoke_sources`. -/
def smokeSources (sources : List CorpusSource) : Except PlanError (List CorpusSource) := do
  let positive := (sources.find? fun source ↦ source.fixtureId = "image-clean-noise").or
    (sources.find? fun source ↦ source.kind ∈ ["clean_image", "tamper_ground_truth"])
  let negative := sources.find? fun source ↦ source.kind = "negative_external"
  let selected := positive.toList ++ negative.toList
  raiseIf (selected.length = 0) (.value "smoke mode requires at least one image corpus source")
  return selected

/-- The sources of a plan. -/
def planSources (smoke : Bool) (sources : List CorpusSource) :
    Except PlanError (List CorpusSource) :=
  if smoke then smokeSources sources else .ok sources

def preferredAttacks : List String :=
  ["jpeg-q70", "crop-f0p25", "resize-s0p75", "rotation-d3", "brightness-contrast-0",
    "noise-blur-1", "screenshot-2-perspective", "combined-0", "tamper-0-replace_text"]

/-- `_smoke_attacks`. -/
def smokeAttacks (attacks : List AttackCase) : List AttackCase :=
  let selected := attacks.filter fun attack ↦ attack.caseId ∈ preferredAttacks
  if selected.length = 0 then attacks.take 3 else selected

/-! ## 4. Plans -/

mutual

/-- The document of an attack in a plan. -/
def attackDocument : AttackCase → Json
  | ⟨caseId, kind, parameters, operations⟩ =>
    .object [("case_id", .text caseId), ("kind", .text kind), ("parameters", .object parameters),
      ("operations", .array (attackDocuments operations))]

def attackDocuments : List AttackCase → List Json
  | [] => []
  | attack :: attacks => attackDocument attack :: attackDocuments attacks

end

/-- The document that `_plan_digest` takes the digest of. -/
def planDocument (sources : List CorpusSource) (candidates : List Candidate)
    (attacks : List AttackCase) (candidateSelectionSha256 : Option String) : Json :=
  .object ([("sources", .array (sources.map fun source ↦
      .object [("fixture_id", .text source.fixtureId), ("kind", .text source.kind),
        ("sha256", .text source.sha256), ("pages", .int source.pages)])),
    ("candidates", .array (candidates.map fun candidate ↦ .text candidate.profileSha256)),
    ("attacks", .array (attackDocuments attacks))] ++
    candidateSelectionSha256.toList.map fun sha256 ↦ ("candidate_selection_sha256", .text sha256))

structure ExecutionPlan where
  sources : List CorpusSource
  candidates : List Candidate
  attacks : List AttackCase
  corpusPages : Nat
  candidateCount : Nat
  attackCount : Nat
  plannedRows : Nat
  corpusContractSha256 : String
  profileContractSha256 : String
  attackMatrixSha256 : String
  planSha256 : String
  seed : Nat
  smoke : Bool
  algorithmVersion : Nat
  candidateSelectionSha256 : Option String
  runKind : String

/-- The documents of a plan, and the digests of their files. -/
structure Contracts where
  entries : List CorpusEntry
  algorithmVersion : Nat
  candidates : List Candidate
  attacks : List AttackCase
  corpusSha256 : String
  profileSha256 : String
  matrixSha256 : String

/-- A selection of candidates by their identifiers, and the digest of its file. -/
structure CandidateSelection where
  selectedIds : List String
  sha256 : String

/-- The candidates that a selection leaves. -/
def selectCandidates (algorithmVersion : Nat) (candidates : List Candidate) :
    Option CandidateSelection → Except PlanError (List Candidate)
  | none => .ok candidates
  | some selection => do
    raiseIf (algorithmVersion ∉ [2, 3])
      (.value "candidate selection is supported only for fingerprint V2 or V3")
    raiseIf (selection.selectedIds.length = 0)
      (.value ("candidate selection is empty; the full V" ++ toString algorithmVersion ++
        " matrix must be skipped"))
    let selected := candidates.filter fun candidate ↦
      candidate.candidateId.any fun id ↦ id ∈ selection.selectedIds
    raiseIf (selected.length ≠ selection.selectedIds.length)
      (.value ("candidate selection contains an unknown V" ++ toString algorithmVersion ++
        " candidate"))
    return selected

/-- `build_execution_plan`. -/
def buildExecutionPlan (sha256 : String → String) (canonicalJson : Json → String)
    (contracts : Contracts) (seed : Int) (smoke : Bool) (selection : Option CandidateSelection) :
    Except PlanError ExecutionPlan := do
  raiseIf (¬ (0 ≤ seed ∧ seed ≤ 0xFFFFFFFFFFFFFFFF))
    (.value "seed must fit an unsigned 64-bit integer")
  let sources ← corpusSources [] contracts.entries
  let candidates ← selectCandidates contracts.algorithmVersion contracts.candidates selection
  let sources ← planSources smoke sources
  let candidates := if smoke then candidates.take 1 else candidates
  let attacks := if smoke then smokeAttacks contracts.attacks else contracts.attacks
  let selectionSha256 := selection.map CandidateSelection.sha256
  let pageCount := (sources.map CorpusSource.pages).sum
  return {
    sources, candidates, attacks
    corpusPages := pageCount
    candidateCount := candidates.length
    attackCount := attacks.length
    plannedRows := pageCount * candidates.length * attacks.length
    corpusContractSha256 := contracts.corpusSha256
    profileContractSha256 := contracts.profileSha256
    attackMatrixSha256 := contracts.matrixSha256
    planSha256 := sha256 (canonicalJson (planDocument sources candidates attacks selectionSha256))
    seed := seed.toNat
    smoke
    algorithmVersion := contracts.algorithmVersion
    candidateSelectionSha256 := selectionSha256
    runKind := "full" }

/-- A plan counts what it consists of. -/
def ExecutionPlan.Counts (plan : ExecutionPlan) : Prop :=
  plan.plannedRows =
    (plan.sources.map CorpusSource.pages).sum * plan.candidates.length * plan.attacks.length

section Build

variable {sha256 : String → String} {canonicalJson : Json → String} {contracts : Contracts}
  {seed : Int} {smoke : Bool} {selection : Option CandidateSelection} {plan : ExecutionPlan}

theorem buildExecutionPlan_counts
    (h : buildExecutionPlan sha256 canonicalJson contracts seed smoke selection = .ok plan) :
    plan.Counts := by
  simp only [buildExecutionPlan, bind_eq_ok, pure_eq_ok] at h
  obtain ⟨-, -, sources, -, candidates, -, sources', -, rfl⟩ := h
  rfl

theorem buildExecutionPlan_fixtures
    (h : buildExecutionPlan sha256 canonicalJson contracts seed false selection = .ok plan) :
    (plan.sources.map CorpusSource.fixtureId).Nodup := by
  simp only [buildExecutionPlan, bind_eq_ok, pure_eq_ok] at h
  obtain ⟨-, -, sources, hsources, candidates, -, sources', hfull, rfl⟩ := h
  rw [planSources, if_neg Bool.false_ne_true, Except.ok.injEq] at hfull
  subst hfull
  exact (nodup_corpusSources hsources).1

end Build

end Splitbind.Benchmark
