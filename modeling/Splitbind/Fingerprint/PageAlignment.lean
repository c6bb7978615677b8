import Mathlib.Data.Rat.Cast.Order
import Splitbind.Fingerprint.PageEmbedding

/-!
# Page alignment — which hypothesis becomes the canvas

Estimators propose where the pilot says the page lies.  Of the hypotheses with enough evidence, those
whose geometry is safe compete by their score, and the page is warped by the winner.  The estimators,
the gate on geometry and the warp are parameters; scores are exact rationals.
-/

namespace Splitbind

open Transaction

/-! ## 1. Hypotheses -/

abbrev Homography (K : Type) := Fin 3 → Fin 3 → K

inductive HypothesisSource
  | pilot
  | orb
deriving DecidableEq, Repr

/-- `GeometryHypothesisV2`; a score is `none` when it is not finite. -/
structure GeometryHypothesisV2 (K : Type) where
  homography : Homography K
  pilotScore : Option ℚ
  source : HypothesisSource

inductive AlignmentReason
  | aligned
  | insufficientSyncEvidence
  | geometryRejected
deriving DecidableEq, Repr

structure AlignmentV2Result (K : Type) where
  image : Option (Image Bgr)
  homography : Option (Homography K)
  pilotScore : Option ℚ
  hypothesisCount : Nat
  reason : AlignmentReason

/-- What the alignment reads of a `SyncTemplate` itself. -/
structure OrbTemplate where
  pageShape : Int × Int
deriving DecidableEq, Repr

/-- A `cv2.error`, or a `ValueError` that is let through. -/
inductive ToolRaised
  | cv2Error
  | value (text : String)
deriving DecidableEq, Repr

/-- `except cv2.error as error: raise AlignmentV2RuntimeError(...) from error`. -/
def ToolRaised.during (stage : AlignmentStage) (hypothesisCount : Nat) : ToolRaised → PageError
  | .cv2Error => .runtime stage hypothesisCount
  | .value text => .value text

/-- The estimators, `_geometry_is_acceptable_v2` and `cv2.warpPerspective`. -/
structure AlignmentTools (K : Type) where
  pilotHypotheses : Image Bgr → List UInt8 → Int → GridProfileV2 K → Nat × Nat →
    Except ToolRaised (List (GeometryHypothesisV2 K))
  orbHypothesis : Image Bgr → OrbTemplate → Except ToolRaised (Option (GeometryHypothesisV2 K))
  geometryIsAcceptable : Homography K → Nat × Nat → Nat × Nat → Except ToolRaised Bool
  warpPerspective : Image Bgr → Homography K → Nat × Nat → Except ToolRaised (Image Bgr)

def maxPilotHypotheses : Nat := 3

/-! ## 2. Alignment -/

section Align

variable {K : Type} [Field K] [LinearOrder K]

/-- `math.isclose(left, right, rel_tol=1e-12, abs_tol=0.0)`. -/
def isClose (left right : K) : Bool :=
  |left - right| ≤ max |left| |right| / ((1000000000000 : Nat) : K)

/-- The matrix of a resize about the centres of the pixels. -/
def pureResize (scaleX scaleY : K) : Homography K
  | 0, 0 => scaleX
  | 0, 2 => (scaleX - 1) / ((2 : Nat) : K)
  | 1, 1 => scaleY
  | 1, 2 => (scaleY - 1) / ((2 : Nat) : K)
  | 2, 2 => 1
  | _, _ => 0

/-- `_PURE_RESIZE_SCALE_TOLERANCE` on the diagonal, `_PURE_RESIZE_SHEAR_TOLERANCE` off it,
`_PURE_RESIZE_TRANSLATION_TOLERANCE_PX` in the last column and `_PURE_RESIZE_PERSPECTIVE_TOLERANCE` in
the last row. -/
def resizeTolerance : Fin 3 → Fin 3 → K
  | 0, 0 | 1, 1 => ((5 : Nat) : K) / ((10000 : Nat) : K)
  | 0, 1 | 1, 0 => ((1 : Nat) : K) / ((10000 : Nat) : K)
  | 0, 2 | 1, 2 => ((1 : Nat) : K) / ((2 : Nat) : K)
  | 2, _ => ((1 : Nat) : K) / ((1000000000000 : Nat) : K)

/-- The entries that are compared: the last one is one already. -/
def resizeEntries : List (Fin 3 × Fin 3) :=
  (List.finRange 3 ×ˢ List.finRange 3).filter (· ≠ (Fin.last 2, Fin.last 2))

/-- `_snap_pure_resize_homography`. -/
def snapPureResizeHomography (homography : Homography K) (sourceShape canonicalShape : Nat × Nat) :
    Homography K :=
  let scaleX : K := canonicalShape.2 / sourceShape.2
  let scaleY : K := canonicalShape.1 / sourceShape.1
  if sourceShape = canonicalShape ∨ ¬ isClose scaleX scaleY then homography
  else if resizeEntries.any fun (row, column) ↦ resizeTolerance row column <
      |homography row column - pureResize scaleX scaleY row column| then homography
  else pureResize scaleX scaleY

/-- `_validate_page` of the synchronization. -/
def validateSyncPage (page : Image Bgr) : Except PageError Unit := do
  raiseIf (page.height = 0 ∨ page.width = 0) (.value "page must have non-empty dimensions")
  raiseIf (40000000 < page.height * page.width)
    (.value "page must contain at most 40,000,000 pixels")

def validateSyncShape (pageShape : Int × Int) : Except PageError (Nat × Nat) := do
  raiseIf (pageShape.1 ≤ 0 ∨ pageShape.2 ≤ 0)
    (.value "page dimensions must be positive integers")
  raiseIf (40000000 < pageShape.1 * pageShape.2)
    (.value "page exceeds the 40-megapixel processing ceiling")
  return (pageShape.1.toNat, pageShape.2.toNat)

/-- `_validate_profile` of the synchronization. -/
def validateSyncProfile (profile : GridProfileV2 K) : Except PageError Unit := do
  raiseIf (profile.schemaVersion ≠ 2) (.value "profile schema_version must be 2")
  (candidateIdentifierV2 profile.codec).mapError .codec

/-- A hypothesis with enough evidence: of the features, or with a score that reaches the minimum. -/
def eligibleHypothesis (profile : GridProfileV2 K) (hypothesis : GeometryHypothesisV2 K) : Bool :=
  hypothesis.source = .orb ∨
    (hypothesis.pilotScore.any fun score ↦ profile.pilotScoreMin ≤ ((score : ℚ) : K)) = true

/-- `np.clip(score, -1.0, 1.0)` of the best score there is. -/
def bestPilotScore (hypotheses : List (GeometryHypothesisV2 K)) : ℚ :=
  clipScore ((hypotheses.filterMap (·.pilotScore)).max?.getD 0)

/-- The hypotheses whose geometry is safe; the gate is asked in turn. -/
def safeHypotheses (tools : AlignmentTools K) (page : Image Bgr) (canonicalShape : Nat × Nat) :
    List (GeometryHypothesisV2 K) → Except ToolRaised (List (GeometryHypothesisV2 K))
  | [] => .ok []
  | hypothesis :: rest => do
    let acceptable ← tools.geometryIsAcceptable hypothesis.homography (page.height, page.width)
      canonicalShape
    let safe ← safeHypotheses tools page canonicalShape rest
    return if acceptable then hypothesis :: safe else safe

/-- `max(safe, key=...)`, the first of the strongest; a score there is finite. -/
def strongestHypothesis (hypotheses : List (GeometryHypothesisV2 K)) :
    Option (GeometryHypothesisV2 K) :=
  hypotheses.argmax fun hypothesis ↦
    toLex (hypothesis.pilotScore.getD 0, decide (hypothesis.source = .pilot))

/-- The matrix that a winner warps the page by. -/
def alignmentMatrix (page : Image Bgr) (canonicalShape : Nat × Nat)
    (winner : GeometryHypothesisV2 K) : Homography K :=
  let matrix : Homography K := fun row column ↦
    winner.homography row column / winner.homography (Fin.last 2) (Fin.last 2)
  if winner.source = .pilot then
    snapPureResizeHomography matrix (page.height, page.width) canonicalShape
  else matrix

/-- `align_page_v2`. -/
def alignPageV2 (tools : AlignmentTools K) (page : Image Bgr) (key : List UInt8) (pageIndex : Int)
    (profile : GridProfileV2 K) (canonicalShape : Int × Int) (orbTemplate : Option OrbTemplate) :
    Except PageError (AlignmentV2Result K) := do
  validateSyncPage page
  let canonicalShape ← validateSyncShape canonicalShape
  validateFingerprintKey key
  validateFingerprintIndex pageIndex
  validateSyncProfile profile
  raiseIf (∃ template ∈ orbTemplate, template.pageShape ≠ ((canonicalShape.1 : Int), (canonicalShape.2 : Int)))
    (.value "orb_template page_shape must match canonical_shape")
  let estimated ← (tools.pilotHypotheses page key pageIndex profile canonicalShape).mapError
    (ToolRaised.during .pilotEstimation 0)
  let pilotHypotheses := estimated.take maxPilotHypotheses
  let orbHypothesis ← (orbTemplate.elim (.ok none) (tools.orbHypothesis page)).mapError
    (ToolRaised.during .orbEstimation pilotHypotheses.length)
  let hypotheses := pilotHypotheses ++ orbHypothesis.toList
  let eligible := hypotheses.filter (eligibleHypothesis profile)
  if eligible = [] then
    return ⟨none, none, some (bestPilotScore pilotHypotheses), hypotheses.length,
      .insufficientSyncEvidence⟩
  else
    let safe ← (safeHypotheses tools page canonicalShape eligible).mapError
      (ToolRaised.during .geometryValidation hypotheses.length)
    match strongestHypothesis safe with
    | none => return ⟨none, none, some 0, hypotheses.length, .geometryRejected⟩
    | some winner =>
      if |winner.homography (Fin.last 2) (Fin.last 2)| ≤ ((1 : Nat) : K) / ((1000000000000 : Nat) : K) then
        return ⟨none, none, some 0, hypotheses.length, .geometryRejected⟩
      else
        let matrix := alignmentMatrix page canonicalShape winner
        let aligned ← (tools.warpPerspective page matrix canonicalShape).mapError
          (ToolRaised.during .canonicalWarp hypotheses.length)
        return ⟨some aligned, some matrix, winner.pilotScore.map clipScore, hypotheses.length,
          .aligned⟩

end Align

/-! ## 3. What becomes a canvas -/

section Canvas

variable {K : Type} [Field K] [LinearOrder K] {tools : AlignmentTools K} {page canvas : Image Bgr}
  {key : List UInt8} {pageIndex : Int} {profile : GridProfileV2 K} {canonicalShape : Int × Int}

/-- The profile aligns the page to a canvas. -/
def AlignsTo (tools : AlignmentTools K) (page : Image Bgr) (key : List UInt8) (pageIndex : Int)
    (profile : GridProfileV2 K) (canonicalShape : Int × Int) (canvas : Image Bgr) : Prop :=
  ∃ result, alignPageV2 tools page key pageIndex profile canonicalShape none = .ok result ∧
    result.reason = .aligned ∧ result.image = some canvas

theorem AlignsTo.unique {canvas' : Image Bgr}
    (h : AlignsTo tools page key pageIndex profile canonicalShape canvas)
    (h' : AlignsTo tools page key pageIndex profile canonicalShape canvas') : canvas = canvas' := by
  obtain ⟨result, halign, -, himage⟩ := h
  obtain ⟨result', halign', -, himage'⟩ := h'
  rw [halign] at halign'
  cases halign'
  exact Option.some.inj (himage.symm.trans himage')

omit [Field K] [LinearOrder K] in
theorem safeHypotheses_spec {shape : Nat × Nat} {hypotheses safe : List (GeometryHypothesisV2 K)}
    (h : safeHypotheses tools page shape hypotheses = .ok safe) :
    ∀ hypothesis ∈ safe, hypothesis ∈ hypotheses ∧
      tools.geometryIsAcceptable hypothesis.homography (page.height, page.width) shape = .ok true := by
  induction hypotheses generalizing safe with
  | nil =>
    cases h
    exact fun hypothesis hmem ↦ absurd hmem List.not_mem_nil
  | cons first rest ih =>
    simp only [safeHypotheses, bind_eq_ok, pure_eq_ok] at h
    obtain ⟨acceptable, hfirst, later, hlater, rfl⟩ := h
    have hrest : ∀ hypothesis ∈ later, hypothesis ∈ first :: rest ∧
        tools.geometryIsAcceptable hypothesis.homography (page.height, page.width) shape =
          .ok true :=
      fun hypothesis hmem ↦ (ih hlater hypothesis hmem).imp_left (List.mem_cons_of_mem first)
    cases acceptable with
    | false => exact hrest
    | true =>
      show ∀ hypothesis ∈ first :: later, _
      rw [List.forall_mem_cons]
      exact ⟨⟨List.mem_cons_self, hfirst⟩, hrest⟩

/-- A hypothesis of the estimator with enough evidence and a safe geometry, and the canvas it warps
the page to. -/
structure Grounded (tools : AlignmentTools K) (page : Image Bgr) (key : List UInt8)
    (pageIndex : Int) (profile : GridProfileV2 K) (canonicalShape : Int × Int)
    (hypothesis : GeometryHypothesisV2 K) (canvas : Image Bgr) : Prop where
  estimated : ∃ hypotheses, tools.pilotHypotheses page key pageIndex profile
    (canonicalShape.1.toNat, canonicalShape.2.toNat) = .ok hypotheses ∧
      hypothesis ∈ hypotheses.take maxPilotHypotheses
  eligible : eligibleHypothesis profile hypothesis = true
  acceptable : tools.geometryIsAcceptable hypothesis.homography (page.height, page.width)
    (canonicalShape.1.toNat, canonicalShape.2.toNat) = .ok true
  warped : tools.warpPerspective page
    (alignmentMatrix page (canonicalShape.1.toNat, canonicalShape.2.toNat) hypothesis)
    (canonicalShape.1.toNat, canonicalShape.2.toNat) = .ok canvas

/-- A canvas rests on a grounded hypothesis. -/
theorem AlignsTo.grounded (h : AlignsTo tools page key pageIndex profile canonicalShape canvas) :
    ∃ hypothesis, Grounded tools page key pageIndex profile canonicalShape hypothesis canvas := by
  obtain ⟨result, halign, hreason, himage⟩ := h
  simp only [alignPageV2, validateSyncShape, bind_eq_ok, exists_unit, pure_eq_ok, mapError_eq_ok,
    raiseIf_eq_ok] at halign
  obtain ⟨-, shape, ⟨-, -, rfl⟩, -, -, -, -, estimated, hestimated, template, htemplate, halign⟩ :=
    halign
  cases htemplate
  rw [Option.toList_none, List.append_nil] at halign
  split at halign
  · cases halign
    cases himage
  simp only [bind_eq_ok, mapError_eq_ok] at halign
  obtain ⟨safe, hsafe, halign⟩ := halign
  split at halign
  · cases halign
    cases himage
  rename_i winner hwinner
  split at halign
  · cases halign
    cases himage
  simp only [bind_eq_ok, mapError_eq_ok, pure_eq_ok] at halign
  obtain ⟨aligned, haligned, rfl⟩ := halign
  obtain ⟨hmem, hacceptable⟩ := safeHypotheses_spec hsafe winner (List.argmax_mem hwinner)
  obtain ⟨htaken, heligible⟩ := List.mem_filter.mp hmem
  cases himage
  exact ⟨winner, ⟨estimated, hestimated, htaken⟩, heligible, hacceptable, haligned⟩

/-- A page whose geometry is rejected scores zero. -/
theorem alignPageV2_rejected {orbTemplate : Option OrbTemplate} {result : AlignmentV2Result K}
    (h : alignPageV2 tools page key pageIndex profile canonicalShape orbTemplate = .ok result)
    (hrejected : result.reason = .geometryRejected) : result.pilotScore = some 0 := by
  simp only [alignPageV2, bind_eq_ok] at h
  obtain ⟨-, -, shape, -, -, -, -, -, -, -, -, -, estimated, -, template, -, h⟩ := h
  split at h
  · cases h
    cases hrejected
  simp only [bind_eq_ok] at h
  obtain ⟨safe, -, h⟩ := h
  split at h
  · cases h
    rfl
  split at h
  · cases h
    rfl
  simp only [bind_eq_ok, pure_eq_ok] at h
  obtain ⟨aligned, -, rfl⟩ := h
  cases hrejected

end Canvas

end Splitbind
