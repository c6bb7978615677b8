import Mathlib.LinearAlgebra.Matrix.NonsingularInverse
import Splitbind.Fingerprint.PilotPeaks
import Splitbind.Fingerprint.Synchronization

/-!
# Pilot hypotheses — similarities of a page, few and apart

Peaks of a log-polar correlation are similarities: a scale and a rotation.  Those that are admissible
are refined, get their translations from a second correlation, and of the hypotheses that move the
corners of the page alike only the strongest is kept.  What is estimated by transforms and by other
libraries is a parameter; arithmetic is exact.
-/

namespace Splitbind

open Transaction Suppression

/-! ## 1. Similarities -/

/-- A scale, a rotation in degrees and the response of the correlation. -/
structure PilotSimilarity (K : Type) where
  scale : K
  rotation : K
  response : K
deriving DecidableEq

/-- What the estimators see: the page and the template at a common scale, and the shape of the
canvas. -/
structure GeometryViews (K : Type) where
  signal : Image K
  template : Image K
  sampleScale : K
  pageShape : Nat × Nat

/-- The correlation of the page with the template under a linear map, and both of them in the band of
the pilot. -/
structure BandCorrelation (K : Type) where
  correlation : Image K
  signalBand : Image K
  predictedBand : Image K
  denominator : K

/-- Transcendental functions, transforms, `_refine_similarity_from_pilot_peaks` and
`cv2.perspectiveTransform`.  A correlation is `none` where there is no energy to normalize by, and a
double where it is not finite. -/
structure PilotTools (K : Type) where
  exp : K → K
  log : K → K
  cosDegrees : K → K
  sinDegrees : K → K
  double : K → Option ℚ
  logPolarMagnitude : Image K → Except ToolRaised (Image K × K)
  phaseCorrelation : Image K → Image K → Except ToolRaised (Option (Image K))
  refineSimilarity : GeometryViews K → K → K → Except ToolRaised (K × K)
  bandCorrelation : GeometryViews K → K → K → Except ToolRaised (Option (BandCorrelation K))
  perspectiveTransform : List (K × K) → Homography K → List (K × K)

section Similarities

variable {K : Type} [Field K] [LinearOrder K]

/-- `_SCALE_MIN`, `_SCALE_MAX`, `_ROTATION_MIN_DEGREES` and `_ROTATION_MAX_DEGREES`. -/
def AdmissibleSimilarity (scale rotation : K) : Prop :=
  (((45 : Nat) : K) / ((100 : Nat) : K) ≤ scale ∧ scale ≤ ((160 : Nat) : K) / ((100 : Nat) : K)) ∧
    -((8 : Nat) : K) ≤ rotation ∧ rotation ≤ ((8 : Nat) : K)

instance (scale rotation : K) : Decidable (AdmissibleSimilarity scale rotation) :=
  inferInstanceAs (Decidable (_ ∧ _))

/-- `_signed_cyclic_coordinate`. -/
def signedCyclicCoordinate (value : K) (period : Nat) : K :=
  if (period : K) / ((2 : Nat) : K) < value then value - period else value

/-- `_cyclic_quadratic_offset`, of a row or a column of `length` samples. -/
def cyclicQuadraticOffset (values : Nat → K) (length index : Nat) : K :=
  let before := values ((index + length - 1) % length)
  let after := values ((index + 1) % length)
  let divisor := before - ((2 : Nat) : K) * values index + after
  if |divisor| ≤ 1 / ((1000000000000 : Nat) : K) then 0
  else max (-1) (min 1 (1 / ((2 : Nat) : K) * (before - after) / divisor))

/-- Two similarities are alike: their scales up to a factor, and their rotations. -/
def PilotSimilarity.Near (log : K → K) (previous candidate : PilotSimilarity K) : Prop :=
  |log (candidate.scale / previous.scale)| < 1 / ((100 : Nat) : K) ∧
    |candidate.rotation - previous.rotation| < 1 / ((4 : Nat) : K)

instance (log : K → K) : DecidableRel (PilotSimilarity.Near log) :=
  fun _ _ ↦ inferInstanceAs (Decidable (_ ∧ _))

/-- The order of `sorted(candidates, key=…, reverse=True)`. -/
def PilotSimilarity.Before (candidate later : PilotSimilarity K) : Prop :=
  later.response ≤ candidate.response

instance : DecidableRel (PilotSimilarity.Before (K := K)) :=
  fun _ _ ↦ inferInstanceAs (Decidable (_ ≤ _))

/-- `_nms_similarity_candidates`. -/
def nmsSimilarityCandidates (log : K → K) (candidates : List (PilotSimilarity K)) :
    List (PilotSimilarity K) :=
  scan (PilotSimilarity.Near log) maxPilotHypotheses
    ((candidates.insertionSort PilotSimilarity.Before).filter fun candidate ↦
      AdmissibleSimilarity candidate.scale candidate.rotation)

variable [FloorRing K]

/-- `_wrap_degrees`; a remainder has the sign of the modulus. -/
def wrapDegrees (value : K) : K :=
  let turned := value + ((180 : Nat) : K)
  turned - ((360 : Nat) : K) * ⌊turned / ((360 : Nat) : K)⌋ - ((180 : Nat) : K)

/-- `_log_polar_similarity_candidates`. -/
def logPolarSimilarityCandidates (tools : PilotTools K) (logTemplate logSignal : Image K)
    (logRadiusScale : K) : Except ToolRaised (List (PilotSimilarity K)) := do
  match ← tools.phaseCorrelation logTemplate logSignal with
  | none => return []
  | some surface =>
    let peaks ← cyclicNmsPeaks (fun position ↦ some (surface.pixel position.1 position.2)) 32
      ⟨surface.height, surface.width, 2, 2⟩
    return nmsSimilarityCandidates tools.log (peaks.map fun peak ↦
      let shiftX := signedCyclicCoordinate (peak.x + cyclicQuadraticOffset
        (fun x ↦ surface.pixel peak.y x) surface.width peak.x) surface.width
      let shiftY := signedCyclicCoordinate (peak.y + cyclicQuadraticOffset
        (fun y ↦ surface.pixel y peak.x) surface.height peak.y) surface.height
      ⟨tools.exp (-shiftX / logRadiusScale),
        wrapDegrees (-shiftY * ((360 : Nat) : K) / surface.height), peak.response⟩)

end Similarities

/-! ## 2. Translations -/

section Translations

variable {K : Type} [Field K]

/-- `_similarity_linear` with a translation beside it: from the canvas to the page. -/
def similarityForward (tools : PilotTools K) (scale rotation translationX translationY : K) :
    Homography K
  | 0, 0 => scale * tools.cosDegrees rotation
  | 0, 1 => scale * tools.sinDegrees rotation
  | 0, 2 => translationX
  | 1, 0 => scale * -tools.sinDegrees rotation
  | 1, 1 => scale * tools.cosDegrees rotation
  | 1, 2 => translationY
  | 2, 2 => 1
  | 2, _ => 0

/-- `np.linalg.inv`; a singular matrix has no inverse. -/
def inverse [DecidableEq K] (m : Homography K) : Option (Homography K) :=
  let matrix : Matrix (Fin 3) (Fin 3) K := Matrix.of m
  if matrix.det = 0 then none
  else some fun row column ↦ matrix.adjugate row column / matrix.det

/-- The sum of the products of what two windows show. -/
def overlapSum (band : BandCorrelation K) (windows : Slice × Slice × Slice × Slice)
    (width height : Nat) : K :=
  let (signalY, signalX, predictedY, predictedX) := windows
  (((signalY.positions height).zip (predictedY.positions height)).map fun (sy, py) ↦
    (((signalX.positions width).zip (predictedX.positions width)).map fun (sx, px) ↦
      band.signalBand.pixel sy.toNat sx.toNat * band.predictedBand.pixel py.toNat px.toNat).sum).sum

variable [LinearOrder K]

/-- `np.unravel_index(int(np.argmax(surface)), surface.shape)`. -/
def strongestSample (surface : Image K) : Except ToolRaised (Nat × Nat) :=
  match (List.range (surface.height * surface.width)).argmax fun flatIndex ↦
      surface.pixel (unravelIndex surface.width flatIndex).1
        (unravelIndex surface.width flatIndex).2 with
  | none => .error (.value "attempt to get argmax of an empty sequence")
  | some flatIndex => .ok (unravelIndex surface.width flatIndex)

variable [FloorRing K]

/-- The hypothesis of one translation: it needs an overlap, a finite score and an inverse. -/
def translationHypothesis (tools : PilotTools K) (views : GeometryViews K) (band : BandCorrelation K)
    (scale rotation sampledX sampledY : K) : Option (GeometryHypothesisV2 K) := do
  let windows ← noncyclicOverlapSlices sampledX sampledY views.signal.width views.signal.height
  let score ← tools.double
    (overlapSum band windows views.signal.width views.signal.height / band.denominator)
  let homography ← inverse (similarityForward tools scale rotation (sampledX / views.sampleScale)
    (sampledY / views.sampleScale))
  return ⟨homography, some (clipScore score), .pilot⟩

/-- The part of a side of the canvas that a translation may have, `_TRANSLATION_FRACTION_MAX`. -/
def translationBound (side : Nat) : K := ((60 : Nat) : K) / ((100 : Nat) : K) * side

/-- `_translation_and_score_hypotheses`. -/
def translationAndScoreHypotheses (tools : PilotTools K) (views : GeometryViews K)
    (scale rotation : K) : Except ToolRaised (List (GeometryHypothesisV2 K)) := do
  match ← tools.bandCorrelation views scale rotation with
  | none => return []
  | some band =>
    let height := views.signal.height
    let width := views.signal.width
    let peak ← strongestSample band.correlation
    let baseX := signedCyclicCoordinate (peak.2 + cyclicQuadraticOffset
      (fun x ↦ band.correlation.pixel peak.1 x) width peak.2) width
    let baseY := signedCyclicCoordinate (peak.1 + cyclicQuadraticOffset
      (fun y ↦ band.correlation.pixel y peak.2) height peak.1) height
    let aliasesX := boundedTranslationAliases baseX width
      (translationBound views.pageShape.2 * views.sampleScale)
    let aliasesY := boundedTranslationAliases baseY height
      (translationBound views.pageShape.1 * views.sampleScale)
    return aliasesX.flatMap fun sampledX ↦ aliasesY.filterMap fun sampledY ↦
      translationHypothesis tools views band scale rotation sampledX sampledY

end Translations

/-! ## 3. Hypotheses -/

section Hypotheses

variable {K : Type} [Field K]

/-- The corners of a canvas. -/
def canvasCorners (canonicalShape : Nat × Nat) : List (K × K) :=
  [(0, 0), (canonicalShape.2 - 1, 0), (canonicalShape.2 - 1, canonicalShape.1 - 1),
    (0, canonicalShape.1 - 1)]

/-- The mean of the squared distances of two lists of points. -/
def meanSquare (points previous : List (K × K)) : K :=
  ((points.zip previous).map fun (p, q) ↦ (p.1 - q.1) ^ 2 + (p.2 - q.2) ^ 2).sum / points.length

/-- A hypothesis and where it projects the corners of the canvas. -/
structure ProjectedHypothesis (K : Type) where
  hypothesis : GeometryHypothesisV2 K
  projected : List (K × K)

/-- The order of `sorted(hypotheses, key=…, reverse=True)`; a score there is finite. -/
def GeometryHypothesisV2.Before (hypothesis later : GeometryHypothesisV2 K) : Prop :=
  later.pilotScore.getD 0 ≤ hypothesis.pilotScore.getD 0

instance : DecidableRel (GeometryHypothesisV2.Before (K := K)) :=
  fun _ _ ↦ inferInstanceAs (Decidable (_ ≤ _))

variable [LinearOrder K]

/-- `_MAX_SIMILARITY_REPROJECTION_RMSE_PX`, squared. -/
def ProjectedHypothesis.Near (previous candidate : ProjectedHypothesis K) : Prop :=
  meanSquare candidate.projected previous.projected ≤ ((3 : Nat) : K) ^ 2

instance : DecidableRel (ProjectedHypothesis.Near (K := K)) :=
  fun _ _ ↦ inferInstanceAs (Decidable (_ ≤ _))

/-- The corners of the canvas on the page. -/
def projectHypothesis (tools : PilotTools K) (canonicalShape : Nat × Nat)
    (hypothesis : GeometryHypothesisV2 K) : Option (ProjectedHypothesis K) :=
  (inverse hypothesis.homography).map fun forward ↦
    ⟨hypothesis, tools.perspectiveTransform (canvasCorners canonicalShape) forward⟩

/-- `_nms_pilot_hypotheses`. -/
def nmsPilotHypotheses (tools : PilotTools K) (hypotheses : List (GeometryHypothesisV2 K))
    (canonicalShape : Nat × Nat) : List (GeometryHypothesisV2 K) :=
  (scan ProjectedHypothesis.Near maxPilotHypotheses
    ((hypotheses.insertionSort GeometryHypothesisV2.Before).filterMap
      (projectHypothesis tools canonicalShape))).map (·.hypothesis)

variable [FloorRing K]

/-- The similarities that are searched for translations: refined, and apart again. -/
def pilotSimilarities (tools : PilotTools K) (views : GeometryViews K) :
    Except ToolRaised (List (PilotSimilarity K)) := do
  let (logTemplate, logRadiusScale) ← tools.logPolarMagnitude views.template
  let (logSignal, _) ← tools.logPolarMagnitude views.signal
  let candidates ← logPolarSimilarityCandidates tools logTemplate logSignal logRadiusScale
  let refined ← candidates.mapM fun candidate ↦ do
    let (scale, rotation) ← tools.refineSimilarity views candidate.scale candidate.rotation
    return (⟨scale, rotation, candidate.response⟩ : PilotSimilarity K)
  return nmsSimilarityCandidates tools.log (refined.filter fun candidate ↦
    AdmissibleSimilarity candidate.scale candidate.rotation)

/-- `_pilot_hypotheses_v2`. -/
def pilotHypothesesV2 (tools : PilotTools K) (views : GeometryViews K) :
    Except ToolRaised (List (GeometryHypothesisV2 K)) := do
  let similarities ← pilotSimilarities tools views
  let hypotheses ← similarities.mapM fun candidate ↦
    translationAndScoreHypotheses tools views candidate.scale candidate.rotation
  return nmsPilotHypotheses tools hypotheses.flatten views.pageShape

end Hypotheses

/-! ## 4. Inverses -/

section Inverse

variable {K : Type} [Field K] [DecidableEq K]

/-- The inverse of a similarity is normalized. -/
theorem inverse_similarity {tools : PilotTools K} {scale rotation translationX translationY : K}
    {homography : Homography K}
    (h : inverse (similarityForward tools scale rotation translationX translationY) =
      some homography) : homography (Fin.last 2) (Fin.last 2) = 1 := by
  unfold inverse at h
  dsimp only at h
  split_ifs at h with hdet
  rw [← Option.some.inj h, div_eq_one_iff_eq hdet, Matrix.adjugate_fin_three, Matrix.det_fin_three]
  show similarityForward tools scale rotation translationX translationY 0 0 *
      similarityForward tools scale rotation translationX translationY 1 1 -
    similarityForward tools scale rotation translationX translationY 0 1 *
      similarityForward tools scale rotation translationX translationY 1 0 = _
  simp only [Matrix.of_apply, similarityForward]
  ring

end Inverse

/-! ## 5. What is kept -/

section Kept

variable {K : Type} [Field K] [LinearOrder K] {tools : PilotTools K} {views : GeometryViews K}

instance : Std.Total (PilotSimilarity.Before (K := K)) := ⟨fun _ _ ↦ le_total _ _⟩

instance : IsTrans (PilotSimilarity K) PilotSimilarity.Before :=
  ⟨fun _ _ _ hab hbc ↦ le_trans hbc hab⟩

instance : Std.Total (GeometryHypothesisV2.Before (K := K)) := ⟨fun _ _ ↦ le_total _ _⟩

instance : IsTrans (GeometryHypothesisV2 K) GeometryHypothesisV2.Before :=
  ⟨fun _ _ _ hab hbc ↦ le_trans hbc hab⟩

/-- The similarities that are searched are apart; of the others, each is near a stronger one, or came
when there was no room. -/
theorem nmsSimilarityCandidates_kept (log : K → K) (candidates : List (PilotSimilarity K)) :
    Kept (PilotSimilarity.Near log) PilotSimilarity.Before maxPilotHypotheses
      ((candidates.insertionSort PilotSimilarity.Before).filter fun candidate ↦
        AdmissibleSimilarity candidate.scale candidate.rotation)
      (nmsSimilarityCandidates log candidates) := by
  apply scan_kept
  · exact (List.pairwise_insertionSort _ _).filter _
  · decide

theorem mem_nmsSimilarityCandidates {log : K → K} {candidates : List (PilotSimilarity K)}
    {candidate : PilotSimilarity K} (h : candidate ∈ nmsSimilarityCandidates log candidates) :
    AdmissibleSimilarity candidate.scale candidate.rotation := by
  have hmem := (nmsSimilarityCandidates_kept log candidates).sublist.subset h
  exact of_decide_eq_true (List.mem_filter.mp hmem).2

/-- The order of the hypotheses, with their corners. -/
def ProjectedHypothesis.Before (candidate later : ProjectedHypothesis K) : Prop :=
  candidate.hypothesis.Before later.hypothesis

theorem projectHypothesis_eq_some {canonicalShape : Nat × Nat}
    {hypothesis : GeometryHypothesisV2 K} {candidate : ProjectedHypothesis K}
    (h : projectHypothesis tools canonicalShape hypothesis = some candidate) :
    candidate.hypothesis = hypothesis ∧ ∃ forward, inverse hypothesis.homography = some forward ∧
      candidate.projected = tools.perspectiveTransform (canvasCorners canonicalShape) forward := by
  unfold projectHypothesis at h
  rw [Option.map_eq_some_iff] at h
  obtain ⟨forward, hforward, rfl⟩ := h
  exact ⟨rfl, forward, hforward, rfl⟩

/-- The hypotheses that are kept, in their order, move the corners of the canvas apart. -/
theorem nmsPilotHypotheses_kept (tools : PilotTools K) (hypotheses : List (GeometryHypothesisV2 K))
    (canonicalShape : Nat × Nat) :
    ∃ kept : List (ProjectedHypothesis K),
      nmsPilotHypotheses tools hypotheses canonicalShape = kept.map (·.hypothesis) ∧
      kept.Pairwise ProjectedHypothesis.Before ∧
      Kept ProjectedHypothesis.Near ProjectedHypothesis.Before maxPilotHypotheses
        ((hypotheses.insertionSort GeometryHypothesisV2.Before).filterMap
          (projectHypothesis tools canonicalShape)) kept := by
  have hsorted : ((hypotheses.insertionSort GeometryHypothesisV2.Before).filterMap
      (projectHypothesis tools canonicalShape)).Pairwise ProjectedHypothesis.Before := by
    apply (List.pairwise_insertionSort GeometryHypothesisV2.Before hypotheses).filterMap
    intro hypothesis later hbefore candidate hcandidate candidate' hcandidate'
    unfold ProjectedHypothesis.Before
    rw [(projectHypothesis_eq_some hcandidate).1, (projectHypothesis_eq_some hcandidate').1]
    exact hbefore
  have hkept : Kept ProjectedHypothesis.Near ProjectedHypothesis.Before maxPilotHypotheses _ _ :=
    scan_kept hsorted (by decide)
  exact ⟨_, rfl, hkept.sorted hsorted, hkept⟩

/-- A hypothesis that takes the page to the canvas by the inverse of an admissible similarity. -/
structure SimilarHypothesis (tools : PilotTools K) (pageShape : Nat × Nat)
    (hypothesis : GeometryHypothesisV2 K) : Prop where
  similar : ∃ scale rotation translationX translationY, AdmissibleSimilarity scale rotation ∧
    |translationX| ≤ translationBound pageShape.2 ∧
    |translationY| ≤ translationBound pageShape.1 ∧
    inverse (similarityForward tools scale rotation translationX translationY) =
      some hypothesis.homography
  score : ∃ score, hypothesis.pilotScore = some score ∧ -1 ≤ score ∧ score ≤ 1
  source : hypothesis.source = .pilot

theorem SimilarHypothesis.normalized {pageShape : Nat × Nat} {hypothesis : GeometryHypothesisV2 K}
    (h : SimilarHypothesis tools pageShape hypothesis) : hypothesis.homography (Fin.last 2) (Fin.last 2) = 1 := by
  obtain ⟨_, _, _, _, -, -, -, hinverse⟩ := h.similar
  exact inverse_similarity hinverse

variable [FloorRing K] [IsStrictOrderedRing K]

/-- A translation of the canvas is as bounded as its sample. -/
theorem abs_alias_le {base value : K} {period side : Nat} (hscale : 0 < views.sampleScale)
    (h : value ∈ boundedTranslationAliases base period
      (translationBound side * views.sampleScale)) :
    |value / views.sampleScale| ≤ translationBound side := by
  have hperiod : (0 : Int) < period := by
    by_contra hnone
    unfold boundedTranslationAliases at h
    rw [if_pos (not_lt.mp hnone)] at h
    exact List.not_mem_nil h
  obtain ⟨-, hbound⟩ := ((boundedTranslationAliases_spec base hperiod).1 value).mp h
  rw [abs_div, abs_of_pos hscale, div_le_iff₀ hscale]
  exact hbound.trans (min_le_left _ _)

theorem translationAndScoreHypotheses_similar {scale rotation : K}
    {hypotheses : List (GeometryHypothesisV2 K)} (hscale : 0 < views.sampleScale)
    (hadmissible : AdmissibleSimilarity scale rotation)
    (h : translationAndScoreHypotheses tools views scale rotation = .ok hypotheses) :
    ∀ hypothesis ∈ hypotheses, SimilarHypothesis tools views.pageShape hypothesis := by
  unfold translationAndScoreHypotheses at h
  rw [bind_eq_ok] at h
  obtain ⟨found, -, h⟩ := h
  cases found with
  | none =>
    cases h
    exact fun _ hmem ↦ absurd hmem List.not_mem_nil
  | some band =>
    simp only [bind_eq_ok, pure_eq_ok] at h
    obtain ⟨peak, -, rfl⟩ := h
    intro hypothesis hmem
    obtain ⟨sampledX, hx, hmem⟩ := List.mem_flatMap.mp hmem
    obtain ⟨sampledY, hy, hmem⟩ := List.mem_filterMap.mp hmem
    simp only [translationHypothesis, Option.bind_eq_bind, Option.bind_eq_some_iff] at hmem
    obtain ⟨windows, -, score, -, homography, hinverse, hhypothesis⟩ := hmem
    cases hhypothesis
    refine ⟨⟨scale, rotation, _, _, hadmissible, ?_, ?_, hinverse⟩, ⟨_, rfl, ?_, ?_⟩, rfl⟩
    · exact abs_alias_le hscale hx
    · exact abs_alias_le hscale hy
    · exact le_max_left _ _
    · exact clipScore_le_one score

/-- **Hypotheses of the pilot.**  There are three at most, each of them the inverse of an admissible
similarity; they come in the order of their scores, and no two of them move the corners of the canvas
by less than three pixels from each other. -/
theorem pilotHypothesesV2_apart {hypotheses : List (GeometryHypothesisV2 K)}
    (hscale : 0 < views.sampleScale) (h : pilotHypothesesV2 tools views = .ok hypotheses) :
    hypotheses.length ≤ maxPilotHypotheses ∧
      (∀ hypothesis ∈ hypotheses, SimilarHypothesis tools views.pageShape hypothesis) ∧
      hypotheses.Pairwise fun hypothesis later ↦ hypothesis.Before later ∧
        ∀ forward forward', inverse hypothesis.homography = some forward →
          inverse later.homography = some forward' →
          ((3 : Nat) : K) ^ 2 < meanSquare
            (tools.perspectiveTransform (canvasCorners views.pageShape) forward')
            (tools.perspectiveTransform (canvasCorners views.pageShape) forward) := by
  simp only [pilotHypothesesV2, pilotSimilarities, bind_eq_ok, pure_eq_ok] at h
  obtain ⟨similarities, ⟨_, -, _, -, _, -, refined, -, rfl⟩, lists, hlists, rfl⟩ := h
  obtain ⟨kept, hkept, hsorted, hapart⟩ := nmsPilotHypotheses_kept tools lists.flatten views.pageShape
  have hprojected : ∀ candidate ∈ kept, candidate.hypothesis ∈ lists.flatten ∧
      ∃ forward, inverse candidate.hypothesis.homography = some forward ∧ candidate.projected =
        tools.perspectiveTransform (canvasCorners views.pageShape) forward := by
    intro candidate hcandidate
    obtain ⟨hypothesis, hmem, hproject⟩ :=
      List.mem_filterMap.mp (hapart.sublist.subset hcandidate)
    obtain ⟨rfl, hforward⟩ := projectHypothesis_eq_some hproject
    exact ⟨(List.mem_insertionSort _).mp hmem, hforward⟩
  rw [hkept]
  refine ⟨?_, ?_, ?_⟩
  · rw [List.length_map]
    exact hapart.length_le
  · intro hypothesis hmem
    obtain ⟨candidate, hcandidate, rfl⟩ := List.mem_map.mp hmem
    obtain ⟨list, hlist, hin⟩ := List.mem_flatten.mp (hprojected candidate hcandidate).1
    -- the list is what the translations of some similarity gave
    have hsame : ∀ (similarity : PilotSimilarity K) found,
        translationAndScoreHypotheses tools views similarity.scale similarity.rotation = .ok found →
          (found = list ↔ translationAndScoreHypotheses tools views similarity.scale
            similarity.rotation = .ok list) := by
      intro similarity found hfound
      rw [hfound, Except.ok.injEq]
    obtain ⟨similarity, hsimilarity, hfound⟩ := (mapM_exists hlists hsame).mp ⟨list, hlist, rfl⟩
    exact translationAndScoreHypotheses_similar hscale (mem_nmsSimilarityCandidates hsimilarity)
      hfound _ hin
  · rw [List.pairwise_map]
    apply (hsorted.and hapart.apart).imp_of_mem
    intro candidate later hcandidate hlater hboth
    refine ⟨hboth.1, fun forward forward' hforward hforward' ↦ ?_⟩
    obtain ⟨-, found, hfound, hprojection⟩ := hprojected candidate hcandidate
    obtain ⟨-, found', hfound', hprojection'⟩ := hprojected later hlater
    obtain rfl := Option.some.inj (hfound.symm.trans hforward)
    obtain rfl := Option.some.inj (hfound'.symm.trans hforward')
    rw [← hprojection, ← hprojection']
    exact not_le.mp hboth.2

end Kept

/-! ## 6. The canvas -/

/-- What an alignment calls around the estimator: `_to_gray`, `cv2.resize` to a height and a width,
and the pilot at a common scale. -/
structure EstimationTools (K : Type) extends PilotTools K where
  toGray : Image Bgr → Image K
  resizeArea : Image Bgr → Nat × Nat → Except ToolRaised (Image Bgr)
  synthesizeGeometryPilot : Nat × Nat → K → List UInt8 → Int → GridProfileV2 K →
    Except ToolRaised (Image K)

section Estimate

variable {K : Type} [Field K] [LinearOrder K]

/-- `_geometry_sample_scale`. -/
def geometrySampleScale (sourceShape canonicalShape : Nat × Nat) : K :=
  let longEdge := max (max sourceShape.1 sourceShape.2) (max canonicalShape.1 canonicalShape.2)
  min 1 (((2048 : Nat) : K) / longEdge)

variable [FloorRing K]

/-- `_scaled_geometry_shape`. -/
def scaledGeometryShape (shape : Nat × Nat) (sampleScale : K) : Nat × Nat :=
  (max 1 (Rounding.halfEven (shape.1 * sampleScale)).toNat,
    max 1 (Rounding.halfEven (shape.2 * sampleScale)).toNat)

/-- `_bounded_geometry_page`. -/
def boundedGeometryPage (tools : EstimationTools K) (page : Image Bgr) (sampleScale : K) :
    Except ToolRaised (Image Bgr) :=
  if sampleScale = 1 then .ok page
  else tools.resizeArea page (scaledGeometryShape (page.height, page.width) sampleScale)

/-- How `align_page_v2` asks for the hypotheses of the pilot. -/
def estimatePilot (tools : EstimationTools K) (page : Image Bgr) (key : List UInt8)
    (pageIndex : Int) (profile : GridProfileV2 K) (canonicalShape : Nat × Nat) :
    Except ToolRaised (List (GeometryHypothesisV2 K)) := do
  let sampleScale : K := geometrySampleScale (page.height, page.width) canonicalShape
  let pilotPage ← boundedGeometryPage tools page sampleScale
  let template ← tools.synthesizeGeometryPilot canonicalShape sampleScale key pageIndex profile
  pilotHypothesesV2 tools.toPilotTools ⟨tools.toGray pilotPage, template, sampleScale, canonicalShape⟩

/-- An alignment with this estimator. -/
def EstimationTools.alignment (tools : EstimationTools K) (others : AlignmentTools K) :
    AlignmentTools K :=
  { others with pilotHypotheses := estimatePilot tools }

end Estimate

section Aligned

variable {K : Type} [Field K] [LinearOrder K] [IsStrictOrderedRing K]

theorem geometrySampleScale_pos {sourceShape canonicalShape : Nat × Nat} (h : 0 < sourceShape.1) :
    (0 : K) < geometrySampleScale sourceShape canonicalShape := by
  unfold geometrySampleScale
  apply lt_min one_pos
  apply div_pos
  · exact Nat.cast_pos.mpr (by decide)
  · rw [Nat.cast_pos]
    omega

/-- A resize replaces a matrix only where it differs from it by no more than the tolerance. -/
theorem snapPureResizeHomography_cases {homography : Homography K} {sourceShape shape : Nat × Nat}
    (hnormalized : homography (Fin.last 2) (Fin.last 2) = 1) :
    snapPureResizeHomography homography sourceShape shape = homography ∨
      (∀ row column, |homography row column -
          pureResize (shape.2 / sourceShape.2 : K) (shape.1 / sourceShape.1) row column| ≤
            resizeTolerance row column) ∧
        snapPureResizeHomography homography sourceShape shape =
          pureResize (shape.2 / sourceShape.2 : K) (shape.1 / sourceShape.1) := by
  unfold snapPureResizeHomography
  dsimp only
  split_ifs with hsame hfar
  · exact .inl rfl
  · exact .inl rfl
  · refine .inr ⟨fun row column ↦ ?_, rfl⟩
    have hnear : ∀ entry ∈ resizeEntries, |homography entry.1 entry.2 -
        pureResize (shape.2 / sourceShape.2 : K) (shape.1 / sourceShape.1) entry.1 entry.2| ≤
          resizeTolerance entry.1 entry.2 := by
      intro entry hentry
      by_contra hmore
      exact hfar (List.any_eq_true.mpr ⟨entry, hentry, decide_eq_true (not_le.mp hmore)⟩)
    by_cases hlast : (row, column) = (Fin.last 2, Fin.last 2)
    · -- the one entry that is not compared is the same
      obtain ⟨rfl, rfl⟩ := Prod.mk.inj hlast
      rw [hnormalized]
      show |(1 : K) - 1| ≤ ((1 : Nat) : K) / ((1000000000000 : Nat) : K)
      rw [sub_self, abs_zero]
      positivity
    · have hentry : (row, column) ∈ resizeEntries := by
        unfold resizeEntries
        rw [List.mem_filter, List.mem_product]
        exact ⟨⟨List.mem_finRange row, List.mem_finRange column⟩, decide_eq_true hlast⟩
      exact hnear _ hentry

variable [FloorRing K]

/-- **An aligned canvas is a similar page.**  A page becomes a canvas only by a hypothesis of the
pilot that reaches the minimal score: the inverse of an admissible similarity, or the resize that
differs from it by no more than the tolerance. -/
theorem aligned_canvas_similar {tools : EstimationTools K} {others : AlignmentTools K}
    {page canvas : Image Bgr} {key : List UInt8} {pageIndex : Int} {profile : GridProfileV2 K}
    {canonicalShape : Int × Int}
    (h : AlignsTo (tools.alignment others) page key pageIndex profile canonicalShape canvas) :
    ∃ hypothesis score,
      SimilarHypothesis tools.toPilotTools (canonicalShape.1.toNat, canonicalShape.2.toNat)
        hypothesis ∧
      hypothesis.pilotScore = some score ∧ profile.pilotScoreMin ≤ ((score : ℚ) : K) ∧
      ∃ matrix, others.warpPerspective page matrix
          (canonicalShape.1.toNat, canonicalShape.2.toNat) = .ok canvas ∧
        (matrix = hypothesis.homography ∨
          matrix = pureResize ((canonicalShape.2.toNat : K) / page.width)
              ((canonicalShape.1.toNat : K) / page.height) ∧
            ∀ row column, |hypothesis.homography row column - matrix row column| ≤
              resizeTolerance row column) := by
  have hpage : 0 < page.height := by
    obtain ⟨result, halign, -⟩ := h
    simp only [alignPageV2, validateSyncPage, bind_eq_ok, exists_unit, raiseIf_eq_ok] at halign
    have hempty := halign.1.1
    omega
  obtain ⟨hypothesis, hgrounded⟩ := h.grounded
  obtain ⟨hypotheses, hestimated, hmem⟩ := hgrounded.estimated
  have hestimate : estimatePilot tools page key pageIndex profile
      (canonicalShape.1.toNat, canonicalShape.2.toNat) = .ok hypotheses := hestimated
  simp only [estimatePilot, bind_eq_ok] at hestimate
  obtain ⟨_, -, _, -, hestimate⟩ := hestimate
  have hsimilar := (pilotHypothesesV2_apart (geometrySampleScale_pos hpage) hestimate).2.1 hypothesis
    (List.mem_of_mem_take hmem)
  obtain ⟨score, hscore, -⟩ := hsimilar.score
  refine ⟨hypothesis, score, hsimilar, hscore, ?_, _, hgrounded.warped, ?_⟩
  · have heligible := hgrounded.eligible
    simp only [eligibleHypothesis, hsimilar.source, hscore, decide_eq_true_eq, Option.any_some,
      reduceCtorEq, false_or] at heligible
    exact heligible
  · have hmatrix : (fun row column ↦ hypothesis.homography row column /
        hypothesis.homography (Fin.last 2) (Fin.last 2)) = hypothesis.homography := by
      funext row column
      rw [hsimilar.normalized, div_one]
    unfold alignmentMatrix
    rw [if_pos hsimilar.source, hmatrix]
    rcases snapPureResizeHomography_cases hsimilar.normalized with hkept | ⟨hnear, hsnapped⟩
    · exact .inl hkept
    · rw [hsnapped]
      exact .inr ⟨rfl, hnear⟩

/-- A pilot that is a chequerboard of two by two, found where it lies. -/
def chequerTools : EstimationTools ℚ where
  exp := fun _ ↦ 1
  log := fun _ ↦ 0
  cosDegrees := fun degrees ↦ if degrees = 0 then 1 else 0
  sinDegrees := fun _ ↦ 0
  double := some
  logPolarMagnitude := fun image ↦ .ok (image, 1)
  phaseCorrelation := fun _ _ ↦ .ok (some ⟨1, 1, fun _ _ ↦ 1⟩)
  refineSimilarity := fun _ scale rotation ↦ .ok (scale, rotation)
  bandCorrelation := fun views _ _ ↦
    .ok (some ⟨⟨2, 2, fun y x ↦ if y = x then 4 else -4⟩, views.template, views.template, 4⟩)
  perspectiveTransform := fun points _ ↦ points
  toGray := fun page ↦ ⟨page.height, page.width, fun y x ↦ (page.pixel y x (Fin.last 2)).toNat⟩
  resizeArea := fun page _ ↦ .ok page
  synthesizeGeometryPilot := fun shape _ _ _ _ ↦
    .ok ⟨shape.1, shape.2, fun y x ↦ if y = x then 1 else -1⟩

def chequerOthers : AlignmentTools ℚ where
  pilotHypotheses := fun _ _ _ _ _ ↦ .ok []
  orbHypothesis := fun _ _ ↦ .ok none
  geometryIsAcceptable := fun _ _ _ ↦ .ok true
  warpPerspective := fun page _ _ ↦ .ok page

def chequerProfile : GridProfileV2 ℚ where
  schemaVersion := 2
  contractSha256 := List.replicate 32 0
  qimDelta := 24
  pilotStrengthRms := 3 / 2
  tileSizePx := 384
  tilesPerPage := 18
  payloadRepetitions := 3
  bitReplication := 3
  bitConfidenceMin := 3 / 5
  pilotScoreMin := 1 / 5

def chequerPage : Image Bgr := ⟨2, 2, fun y x _ ↦ if y = x then 129 else 127⟩

theorem chequerPage_similar : ∃ canvas hypothesis score,
    AlignsTo (chequerTools.alignment chequerOthers) chequerPage [1] 0 chequerProfile (2, 2) canvas ∧
      SimilarHypothesis chequerTools.toPilotTools (2, 2) hypothesis ∧
      hypothesis.pilotScore = some score ∧ chequerProfile.pilotScoreMin ≤ score := by
  have hreason : (alignPageV2 (chequerTools.alignment chequerOthers) chequerPage [1] 0
      chequerProfile (2, 2) none).map (fun result ↦ (result.reason, result.image.isSome)) =
        .ok (.aligned, true) := by decide +kernel
  cases halign : alignPageV2 (chequerTools.alignment chequerOthers) chequerPage [1] 0
      chequerProfile (2, 2) none with
  | error error =>
    rw [halign] at hreason
    cases hreason
  | ok result =>
    rw [halign] at hreason
    obtain ⟨haligned, hsome⟩ := Prod.mk.inj (Except.ok.inj hreason)
    obtain ⟨canvas, hcanvas⟩ := Option.isSome_iff_exists.mp hsome
    have hcast : AlignsTo (chequerTools.alignment chequerOthers) chequerPage [1] 0 chequerProfile
        (2, 2) canvas := ⟨result, halign, haligned, hcanvas⟩
    obtain ⟨hypothesis, score, hsimilar, hscore, hminimal, -⟩ := aligned_canvas_similar hcast
    exact ⟨canvas, hypothesis, score, hcast, hsimilar, hscore, hminimal⟩

end Aligned

end Splitbind
