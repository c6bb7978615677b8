import Splitbind.Fingerprint.FrameRestore
import Splitbind.Fingerprint.SpreadChips

/-!
# Geometry search — the canvases that V3 reads a page on

The shape of a page suggests where it lies: as it is, resized, in a frame, cropped at the centre; the
pilot is asked last.  A canvas is kept for its matrix once, and no more of them than the profile allows.
-/

namespace Splitbind

open Transaction

/-! ## 1. Hypotheses -/

inductive GeometryKind
  | identity
  | pureResize
  | frameRestore
  | centerCrop
  | sync
deriving DecidableEq, Repr

structure GeometryHypothesisV3 (K : Type) where
  kind : GeometryKind
  image : Image Bgr
  sourceToCanonical : Homography K
  score : ℚ

structure GeometrySearchV3 (K : Type) where
  hypotheses : List (GeometryHypothesisV3 K)
  syncReason : Option AlignmentReason

/-- The alignment, the frame, and the digest of the V2 contract. -/
structure GeometryTools (K : Type) extends AlignmentTools K, FrameTools where
  contractSha256 : List UInt8

/-- What a tool raises where nothing catches it. -/
def ToolRaised.uncaught : ToolRaised → PageError
  | .cv2Error => .other
  | .value text => .value text

/-- The hypotheses so far, and the keys of their matrices. -/
structure SearchState (K : Type) where
  hypotheses : List (GeometryHypothesisV3 K)
  seenMatrices : List (Fin 3 → Fin 3 → Int)

section Search

variable {K : Type} [Field K] [LinearOrder K] [FloorRing K]

/-- `_normalize_matrix`, of a matrix of finite numbers. -/
def normalizeMatrix (matrix : Homography K) : Option (Homography K) :=
  let divisor := matrix (Fin.last 2) (Fin.last 2)
  if |divisor| ≤ ((1 : Nat) : K) / ((1000000000000 : Nat) : K) then none
  else some fun row column ↦ matrix row column / divisor

/-- `_quantized_matrix_key`, in units of the eighth decimal. -/
def quantizedMatrixKey (matrix : Homography K) : Fin 3 → Fin 3 → Int := fun row column ↦
  Rounding.halfEven (matrix row column * ((100000000 : Nat) : K))

/-- `add`. -/
def SearchState.add (limit : Int) (kind : GeometryKind) (image : Image Bgr) (matrix : Homography K)
    (score : ℚ) (state : SearchState K) : SearchState K :=
  if limit ≤ state.hypotheses.length then state
  else
    match normalizeMatrix matrix with
    | none => state
    | some normalized =>
      let matrixKey := quantizedMatrixKey normalized
      if matrixKey ∈ state.seenMatrices then state
      else
        { hypotheses := state.hypotheses ++ [⟨kind, image, normalized, score⟩]
          seenMatrices := matrixKey :: state.seenMatrices }

def SearchState.full (limit : Int) (state : SearchState K) : Prop :=
  limit ≤ state.hypotheses.length

instance (limit : Int) (state : SearchState K) : Decidable (state.full limit) :=
  inferInstanceAs (Decidable (_ ≤ _))

/-! ## 2. The search -/

/-- `_validate_shape` of the search. -/
def validateSearchShape (shape : Int × Int) : Except PageError (Nat × Nat) := do
  raiseIf (shape.1 ≤ 0 ∨ shape.2 ≤ 0)
    (.value "canonical_shape dimensions must be positive integers")
  raiseIf (40000000 < shape.1 * shape.2)
    (.value "canonical_shape exceeds the 40-megapixel processing ceiling")
  return (shape.1.toNat, shape.2.toNat)

/-- The frozen V2 profiles with the step, the strength and the tiles of a V3 profile. -/
def pilotMatches (contractSha256 : List UInt8) (profile : SpreadProfile K) :
    List (GridProfileV2 K) :=
  (loadV2Profiles contractSha256).filter fun candidate ↦
    candidate.qimDelta = profile.qimDelta ∧
      candidate.pilotStrengthRms = profile.pilotStrengthRms ∧
      (candidate.tileSizePx : Int) = profile.tileSizePx ∧
      (candidate.payloadRepetitions : Int) = profile.payloadRepetitions

/-- `v2_pilot_profile`. -/
def v2PilotProfile (contractSha256 : List UInt8) (profile : SpreadProfile K) :
    Except PageError (GridProfileV2 K) := do
  (validateProfileV3 profile).mapError .layout
  match pilotMatches contractSha256 profile with
  | [candidate] => return candidate
  | _ => throw (.value "V3 profile must map to exactly one frozen V2 profile")

/-- `_resize_interpolation`. -/
def resizeInterpolation (name : List Char) : Except PageError Interpolation := do
  raiseIf (name ≠ "INTER_CUBIC".toList)
    (.value "V3 geometry supports only INTER_CUBIC resize interpolation")
  return .cubic

/-- `np.eye(3)`, and the matrix of a shift to the right and down. -/
def shiftMatrix (x0 y0 : Nat) : Homography K := fun row column ↦
  match row, column with
  | 0, 0 | 1, 1 | 2, 2 => 1
  | 0, 2 => x0
  | 1, 2 => y0
  | _, _ => 0

/-- What the search of a page is about. -/
structure Sought (K : Type) where
  page : Image Bgr
  targetShape : Nat × Nat
  limit : Int
  tolerance : K
  interpolation : Interpolation

def Sought.sourceShape (sought : Sought K) : Nat × Nat := (sought.page.height, sought.page.width)

def Sought.ratioY (sought : Sought K) : K := sought.page.height / sought.targetShape.1

def Sought.ratioX (sought : Sought K) : K := sought.page.width / sought.targetShape.2

def Sought.ratiosAgree (sought : Sought K) : Bool :=
  Splitbind.ratiosAgree sought.ratioY sought.ratioX sought.tolerance

/-- The page as it is. -/
def addIdentity (sought : Sought K) (state : SearchState K) : SearchState K :=
  if sought.sourceShape = sought.targetShape then
    state.add sought.limit .identity sought.page (shiftMatrix 0 0) 1
  else state

/-- The page, resized. -/
def addPureResize (tools : GeometryTools K) (sought : Sought K) (state : SearchState K) :
    Except ToolRaised (SearchState K) :=
  if sought.sourceShape ≠ sought.targetShape ∧ sought.ratiosAgree then do
    let resized ← tools.resize sought.interpolation sought.page sought.targetShape
    return state.add sought.limit .pureResize resized
      (pureResize (sought.targetShape.2 / sought.page.width : K)
        (sought.targetShape.1 / sought.page.height)) 1
  else return state

/-- `DEFAULT_BORDER_TOLERANCE`. -/
def borderTolerance : Int := 6

/-- The page without its frame. -/
def addFrameRestore (tools : GeometryTools K) (sought : Sought K) (state : SearchState K) :
    Except ToolRaised (SearchState K) := do
  let restored ← restoreFrame tools.toFrameTools sought.interpolation borderTolerance sought.page
    sought.targetShape
  match restored with
  | some restored =>
    return if restored.trimmed then
        state.add sought.limit .frameRestore restored.image restored.sourceToCanonical 1
      else state
  | none => return state

/-- The scale of a crop that the page may be. -/
def Sought.retains (sought : Sought K) (retainedScale : K) : Bool :=
  Splitbind.ratiosAgree sought.ratioY retainedScale sought.tolerance &&
    Splitbind.ratiosAgree sought.ratioX retainedScale sought.tolerance

def white : Bgr := fun _ ↦ 255

/-- The page in the middle of a white canvas. -/
def addCenterCrop (sought : Sought K) (state : SearchState K) : SearchState K :=
  state.add sought.limit .centerCrop
    (centerCropCanvas white sought.targetShape.1 sought.targetShape.2 sought.page)
    (shiftMatrix ((sought.targetShape.2 - sought.page.width) / 2)
      ((sought.targetShape.1 - sought.page.height) / 2)) 1

/-- The loop over the scales of a crop. -/
def addCenterCrops (sought : Sought K) : List K → SearchState K → SearchState K
  | [], state => state
  | retainedScale :: scales, state =>
    if ¬ sought.retains retainedScale then addCenterCrops sought scales state
    else if (addCenterCrop sought state).full sought.limit then addCenterCrop sought state
    else addCenterCrops sought scales (addCenterCrop sought state)

/-- The scales of a crop that are tried at all. -/
def Sought.scales (sought : Sought K) (cropRetainedScales : List K) : List K :=
  if sought.ratiosAgree ∧ sought.page.height ≤ sought.targetShape.1 ∧
      sought.page.width ≤ sought.targetShape.2 then cropRetainedScales
  else []

/-- The page as the pilot aligns it. -/
def addSync (sought : Sought K) (fallback : AlignmentV2Result K) (state : SearchState K) :
    SearchState K :=
  match fallback.reason, fallback.image, fallback.homography, fallback.pilotScore with
  | .aligned, some image, some homography, some score =>
    if (image.height, image.width) = sought.targetShape then
      state.add sought.limit .sync image homography score
    else state
  | _, _, _, _ => state

/-- The hypotheses of the shape, before any crop. -/
def addShapes (tools : GeometryTools K) (sought : Sought K) :
    Except ToolRaised (SearchState K) := do
  let state ← addPureResize tools sought (addIdentity sought ⟨[], []⟩)
  addFrameRestore tools sought state

/-- The search of a page whose arguments are checked. -/
def searchSought (tools : GeometryTools K) (key : List UInt8) (pageIndex : Int)
    (pilotProfile : GridProfileV2 K) (orbTemplate : Option OrbTemplate)
    (cropRetainedScales : List K) (sought : Sought K) :
    Except PageError (GeometrySearchV3 K) := do
  let state ← (addShapes tools sought).mapError ToolRaised.uncaught
  if state.full sought.limit then return ⟨state.hypotheses, none⟩
  else
    let state := addCenterCrops sought (sought.scales cropRetainedScales) state
    if state.full sought.limit then return ⟨state.hypotheses, none⟩
    else
      let fallback ← alignPageV2 tools.toAlignmentTools sought.page key pageIndex pilotProfile
        ((sought.targetShape.1 : Int), (sought.targetShape.2 : Int)) orbTemplate
      return ⟨(addSync sought fallback state).hypotheses, some fallback.reason⟩

/-- `search_geometry_v3`. -/
def searchGeometryV3 (tools : GeometryTools K) (page : Image Bgr) (key : List UInt8)
    (pageIndex : Int) (canonicalShape : Int × Int) (profile : SpreadProfile K)
    (orbTemplate : Option OrbTemplate) : Except PageError (GeometrySearchV3 K) := do
  validatePage page
  let targetShape ← validateSearchShape canonicalShape
  validateFingerprintKey key
  validateFingerprintIndex pageIndex
  let pilotProfile ← v2PilotProfile tools.contractSha256 profile
  let interpolation ← resizeInterpolation profile.resizeInterpolation
  searchSought tools key pageIndex pilotProfile orbTemplate profile.cropRetainedScales
    { page := page, targetShape := targetShape, limit := profile.maxGeometryHypotheses,
      tolerance := profile.geometryRatioTolerance, interpolation := interpolation }

end Search

/-! ## 3. What a search keeps -/

/-- The stage of the search that proposes a kind. -/
def GeometryKind.stage : GeometryKind → Nat
  | .identity | .pureResize => 0
  | .frameRestore => 1
  | .centerCrop => 2
  | .sync => 3

/-- Numbers that increase below a bound are no more than it. -/
theorem length_le_of_increasing {stages : List Nat} {bound : Nat}
    (hincreasing : stages.Pairwise (· < ·)) (hbelow : ∀ stage ∈ stages, stage < bound) :
    stages.length ≤ bound := by
  have hnodup : stages.Nodup := hincreasing.imp fun hlt ↦ ne_of_lt hlt
  have hsubset : stages ⊆ List.range bound := fun stage hmem ↦
    List.mem_range.mpr (hbelow stage hmem)
  have hlength := (hnodup.subperm hsubset).length_le
  rw [List.length_range] at hlength
  exact hlength

section Kept

variable {K : Type} [Field K] [LinearOrder K] [FloorRing K]

/-- The state of a search that has come to a stage. -/
structure SearchState.Sound (limit : Int) (ground : GeometryHypothesisV3 K → Prop) (stage : Nat)
    (state : SearchState K) : Prop where
  bounded : (state.hypotheses.length : Int) ≤ limit
  seen : state.seenMatrices =
    (state.hypotheses.map fun hypothesis ↦ quantizedMatrixKey hypothesis.sourceToCanonical).reverse
  distinct : state.seenMatrices.Nodup
  increasing : (state.hypotheses.map (·.kind.stage)).Pairwise (· < ·)
  before : ∀ hypothesis ∈ state.hypotheses, hypothesis.kind.stage < stage
  grounded : ∀ hypothesis ∈ state.hypotheses, ground hypothesis

variable {limit : Int} {ground : GeometryHypothesisV3 K → Prop} {stage : Nat}
  {state : SearchState K}

theorem SearchState.Sound.empty (hlimit : 0 ≤ limit) :
    (⟨[], []⟩ : SearchState K).Sound limit ground 0 where
  bounded := hlimit
  seen := rfl
  distinct := List.nodup_nil
  increasing := List.Pairwise.nil
  before := fun _ hmem ↦ absurd hmem List.not_mem_nil
  grounded := fun _ hmem ↦ absurd hmem List.not_mem_nil

theorem SearchState.Sound.later {stage' : Nat} (h : state.Sound limit ground stage)
    (hle : stage ≤ stage') : state.Sound limit ground stage' :=
  { h with before := fun hypothesis hmem ↦ (h.before hypothesis hmem).trans_le hle }

/-- What `add` does: nothing, or it appends a hypothesis with a matrix that is new. -/
theorem SearchState.add_cases (limit : Int) (kind : GeometryKind) (image : Image Bgr)
    (matrix : Homography K) (score : ℚ) (state : SearchState K) :
    state.add limit kind image matrix score = state ∨
      ∃ normalized, normalizeMatrix matrix = some normalized ∧
        (state.hypotheses.length : Int) < limit ∧
        quantizedMatrixKey normalized ∉ state.seenMatrices ∧
        state.add limit kind image matrix score =
          { hypotheses := state.hypotheses ++ [⟨kind, image, normalized, score⟩]
            seenMatrices := quantizedMatrixKey normalized :: state.seenMatrices } := by
  unfold SearchState.add
  by_cases hfull : limit ≤ state.hypotheses.length
  · rw [if_pos hfull]
    exact .inl rfl
  · rw [if_neg hfull]
    cases hnormal : normalizeMatrix matrix with
    | none => exact .inl rfl
    | some normalized =>
      dsimp only
      by_cases hseen : quantizedMatrixKey normalized ∈ state.seenMatrices
      · rw [if_pos hseen]
        exact .inl rfl
      · rw [if_neg hseen]
        exact .inr ⟨normalized, rfl, not_le.mp hfull, hseen, rfl⟩

/-- A stage adds at most one hypothesis, on its own ground. -/
theorem SearchState.Sound.add (kind : GeometryKind) {image : Image Bgr} {matrix : Homography K}
    {score : ℚ} (h : state.Sound limit ground kind.stage)
    (hground : ∀ normalized, normalizeMatrix matrix = some normalized →
      ground ⟨kind, image, normalized, score⟩) :
    (state.add limit kind image matrix score).Sound limit ground (kind.stage + 1) := by
  rcases state.add_cases limit kind image matrix score with hsame | hnew
  · rw [hsame]
    exact h.later (Nat.le_succ _)
  obtain ⟨normalized, hnormal, hroom, hunseen, hstate⟩ := hnew
  rw [hstate]
  constructor
  · show ((state.hypotheses ++ [_]).length : Int) ≤ limit
    rw [List.length_append, List.length_singleton]
    omega
  · show _ :: state.seenMatrices = ((state.hypotheses ++ [_]).map _).reverse
    rw [List.map_append, List.reverse_append, h.seen]
    rfl
  · exact List.nodup_cons.mpr ⟨hunseen, h.distinct⟩
  · show ((state.hypotheses ++ [_]).map _).Pairwise _
    rw [List.map_append, List.pairwise_append]
    -- whatever is there is of an earlier stage
    refine ⟨h.increasing, List.pairwise_singleton _ _, fun earlier hearlier later hlater ↦ ?_⟩
    obtain ⟨hypothesis, hhypothesis, rfl⟩ := List.mem_map.mp hearlier
    rw [List.map_singleton, List.mem_singleton] at hlater
    rw [hlater]
    exact h.before hypothesis hhypothesis
  · intro hypothesis hmem
    rcases List.mem_append.mp hmem with hold | hlast
    · exact (h.before hypothesis hold).trans (Nat.lt_succ_self _)
    · rw [List.mem_singleton.mp hlast]
      exact Nat.lt_succ_self _
  · intro hypothesis hmem
    rcases List.mem_append.mp hmem with hold | hlast
    · exact h.grounded hypothesis hold
    · rw [List.mem_singleton.mp hlast]
      exact hground normalized hnormal

/-- What was added is not added again. -/
theorem SearchState.add_again (limit : Int) (kind : GeometryKind) (image : Image Bgr)
    (matrix : Homography K) (score : ℚ) (state : SearchState K) :
    (state.add limit kind image matrix score).add limit kind image matrix score =
      state.add limit kind image matrix score := by
  rcases state.add_cases limit kind image matrix score with hsame | hnew
  · rw [hsame, hsame]
  obtain ⟨normalized, hnormal, -, -, hstate⟩ := hnew
  rw [hstate]
  unfold SearchState.add
  rw [hnormal]
  dsimp only
  rw [if_pos List.mem_cons_self, ite_self]

/-- All scales of a crop together add no more than one of them. -/
theorem addCenterCrops_eq (sought : Sought K) (scales : List K) (state : SearchState K) :
    addCenterCrops sought scales state = state ∨
      (∃ retainedScale ∈ scales, sought.retains retainedScale = true) ∧
        addCenterCrops sought scales state = addCenterCrop sought state := by
  induction scales generalizing state with
  | nil => exact .inl rfl
  | cons retainedScale scales ih =>
    by_cases hretains : sought.retains retainedScale = true
    · refine .inr ⟨⟨retainedScale, List.mem_cons_self, hretains⟩, ?_⟩
      unfold addCenterCrops
      rw [if_neg (not_not.mpr hretains)]
      by_cases hfull : (addCenterCrop sought state).full sought.limit
      · rw [if_pos hfull]
      · rw [if_neg hfull]
        -- the matrix does not depend on the scale, so the rest of the loop adds nothing
        rcases ih (addCenterCrop sought state) with hsame | ⟨-, hagain⟩
        · exact hsame
        · rw [hagain]
          exact state.add_again _ _ _ _ _
    · have hskip : addCenterCrops sought (retainedScale :: scales) state =
          addCenterCrops sought scales state := if_pos hretains
      rw [hskip]
      rcases ih state with hsame | ⟨⟨other, hmem, hother⟩, hadded⟩
      · exact .inl hsame
      · exact .inr ⟨⟨other, List.mem_cons_of_mem _ hmem, hother⟩, hadded⟩

end Kept

/-! ## 4. What a hypothesis rests on -/

section Ground

variable {K : Type} [Field K] [LinearOrder K] [FloorRing K] (tools : GeometryTools K)
  (key : List UInt8) (pageIndex : Int) (pilotProfile : GridProfileV2 K)
  (orbTemplate : Option OrbTemplate) (cropRetainedScales : List K) (sought : Sought K)

/-- The ground of a hypothesis, by its kind. -/
inductive SearchGround : GeometryHypothesisV3 K → Prop
  | identity (hshape : sought.sourceShape = sought.targetShape) :
      SearchGround ⟨.identity, sought.page, shiftMatrix 0 0, 1⟩
  | pureResize (resized : Image Bgr) (hshape : sought.sourceShape ≠ sought.targetShape)
      (hratios : sought.ratiosAgree = true)
      (hresized : tools.resize sought.interpolation sought.page sought.targetShape = .ok resized) :
      SearchGround ⟨.pureResize, resized,
        pureResize (sought.targetShape.2 / sought.page.width : K)
          (sought.targetShape.1 / sought.page.height), 1⟩
  | frameRestore (bounds : ContentBounds) (image : Image Bgr)
      (hbounds : contentBounds tools.gray sought.page borderTolerance = bounds)
      (htrimmed : bounds ≠ wholePage sought.page)
      (hresized : tools.resize sought.interpolation
        (sought.page.slice bounds.top bounds.left bounds.height bounds.width)
        sought.targetShape = .ok image) :
      SearchGround ⟨.frameRestore, image, restoreMatrix bounds sought.targetShape, 1⟩
  | centerCrop (retainedScale : K) (hratios : sought.ratiosAgree = true)
      (hfits : sought.page.height ≤ sought.targetShape.1 ∧
        sought.page.width ≤ sought.targetShape.2)
      (hscale : retainedScale ∈ cropRetainedScales)
      (hretains : sought.retains retainedScale = true) :
      SearchGround ⟨.centerCrop,
        centerCropCanvas white sought.targetShape.1 sought.targetShape.2 sought.page,
        shiftMatrix ((sought.targetShape.2 - sought.page.width) / 2)
          ((sought.targetShape.1 - sought.page.height) / 2), 1⟩
  | sync (result : AlignmentV2Result K) (image : Image Bgr) (homography normalized : Homography K)
      (score : ℚ)
      (haligns : alignPageV2 tools.toAlignmentTools sought.page key pageIndex pilotProfile
        ((sought.targetShape.1 : Int), (sought.targetShape.2 : Int)) orbTemplate = .ok result)
      (haligned : result.reason = .aligned) (himage : result.image = some image)
      (hhomography : result.homography = some homography) (hscore : result.pilotScore = some score)
      (hshape : (image.height, image.width) = sought.targetShape)
      (hnormal : normalizeMatrix homography = some normalized) :
      SearchGround ⟨.sync, image, normalized, score⟩

end Ground

section Normal

variable {K : Type} [Field K] [LinearOrder K]

theorem normalizeMatrix_eq_some {matrix normalized : Homography K} :
    normalizeMatrix matrix = some normalized ↔
      ((1 : Nat) : K) / ((1000000000000 : Nat) : K) < |matrix (Fin.last 2) (Fin.last 2)| ∧
        normalized = fun row column ↦
          matrix row column / matrix (Fin.last 2) (Fin.last 2) := by
  unfold normalizeMatrix
  dsimp only
  split_ifs with hsmall
  · simp only [false_iff, not_and]
    exact fun hlarge ↦ absurd hlarge (not_lt.mpr hsmall)
  · rw [Option.some.injEq, eq_comm, iff_and_self]
    exact fun _ ↦ not_le.mp hsmall

variable [IsStrictOrderedRing K]

/-- A normalized matrix ends in one. -/
theorem normalizeMatrix_last {matrix normalized : Homography K}
    (h : normalizeMatrix matrix = some normalized) :
    normalized (Fin.last 2) (Fin.last 2) = 1 := by
  obtain ⟨hlarge, rfl⟩ := normalizeMatrix_eq_some.mp h
  have hnonneg : (0 : K) ≤ ((1 : Nat) : K) / ((1000000000000 : Nat) : K) := by positivity
  exact div_self (abs_pos.mp (hnonneg.trans_lt hlarge))

/-- A matrix that ends in one is normalized. -/
theorem normalizeMatrix_unit {matrix : Homography K}
    (h : matrix (Fin.last 2) (Fin.last 2) = 1) : normalizeMatrix matrix = some matrix := by
  rw [normalizeMatrix_eq_some, h]
  constructor
  · rw [abs_one, Nat.cast_one]
    exact (div_lt_one (by positivity)).mpr (by norm_num)
  · funext row column
    rw [div_one]

end Normal

section Search

variable {K : Type} [Field K] [LinearOrder K] [FloorRing K] {tools : GeometryTools K}
  {key : List UInt8} {pageIndex : Int} {pilotProfile : GridProfileV2 K}
  {orbTemplate : Option OrbTemplate} {sought : Sought K} {cropRetainedScales : List K}
  {limit : Int} {state : SearchState K}

omit [LinearOrder K] [FloorRing K] in
/-- What a frame was trimmed to. -/
theorem restoreFrame_eq_some {frameTools : FrameTools} {interpolation : Interpolation}
    {tolerance : Int} {page : Image Bgr} {canonicalShape : Nat × Nat}
    {restored : RestoredFrame K}
    (h : restoreFrame frameTools interpolation tolerance page canonicalShape =
      .ok (some restored)) :
    ∃ bounds, contentBounds frameTools.gray page tolerance = bounds ∧
      frameTools.resize interpolation
        (page.slice bounds.top bounds.left bounds.height bounds.width) canonicalShape =
          .ok restored.image ∧
      restored.sourceToCanonical = restoreMatrix bounds canonicalShape ∧
      restored.trimmed = decide (bounds ≠ wholePage page) := by
  unfold restoreFrame at h
  by_cases hcanvas : canonicalShape.1 = 0 ∨ canonicalShape.2 = 0
  · rw [if_pos hcanvas] at h
    cases h
  rw [if_neg hcanvas] at h
  dsimp only at h
  split_ifs at h with hempty hwhole
  · cases h
  · cases h
  · simp only [bind_eq_ok, pure_eq_ok, Option.some.injEq] at h
    obtain ⟨image, himage, rfl⟩ := h
    exact ⟨_, rfl, himage, rfl, rfl⟩

variable [IsStrictOrderedRing K]

/-- The page as it is, or resized: not both. -/
theorem addPureResize_sound (hlimit : 0 ≤ sought.limit)
    (h : addPureResize tools sought (addIdentity sought ⟨[], []⟩) = .ok state) :
    state.Sound sought.limit
      (SearchGround tools key pageIndex pilotProfile orbTemplate cropRetainedScales sought) 1 := by
  have hempty : (⟨[], []⟩ : SearchState K).Sound sought.limit
      (SearchGround tools key pageIndex pilotProfile orbTemplate cropRetainedScales sought) 0 :=
    .empty hlimit
  unfold addPureResize addIdentity at h
  by_cases hshape : sought.sourceShape = sought.targetShape
  · rw [if_pos hshape, if_neg (fun hboth ↦ hboth.1 hshape)] at h
    rw [← Except.ok.inj h]
    refine hempty.add .identity fun normalized hnormal ↦ ?_
    rw [normalizeMatrix_unit rfl] at hnormal
    cases hnormal
    exact .identity hshape
  · rw [if_neg hshape] at h
    by_cases hratios : sought.ratiosAgree = true
    · rw [if_pos ⟨hshape, hratios⟩] at h
      simp only [bind_eq_ok, pure_eq_ok] at h
      obtain ⟨resized, hresized, rfl⟩ := h
      refine hempty.add .pureResize fun normalized hnormal ↦ ?_
      rw [normalizeMatrix_unit rfl] at hnormal
      cases hnormal
      exact .pureResize resized hshape hratios hresized
    · rw [if_neg (fun hboth ↦ hratios hboth.2)] at h
      rw [← Except.ok.inj h]
      exact hempty.later (Nat.zero_le 1)

theorem addFrameRestore_sound {state' : SearchState K}
    (hsound : state.Sound sought.limit
      (SearchGround tools key pageIndex pilotProfile orbTemplate cropRetainedScales sought) 1)
    (h : addFrameRestore tools sought state = .ok state') :
    state'.Sound sought.limit
      (SearchGround tools key pageIndex pilotProfile orbTemplate cropRetainedScales sought) 2 := by
  have hlater := hsound.later (Nat.le_succ 1)
  simp only [addFrameRestore, bind_eq_ok] at h
  obtain ⟨restored, hrestored, h⟩ := h
  cases restored with
  | none =>
    rw [← Except.ok.inj h]
    exact hlater
  | some restored =>
    obtain ⟨bounds, hbounds, hresized, hmatrix, htrimmed⟩ := restoreFrame_eq_some hrestored
    rw [← Except.ok.inj h]
    by_cases htrim : restored.trimmed = true
    · rw [if_pos htrim]
      refine hsound.add .frameRestore fun normalized hnormal ↦ ?_
      rw [hmatrix, normalizeMatrix_unit rfl] at hnormal
      cases hnormal
      rw [htrimmed] at htrim
      exact .frameRestore bounds restored.image hbounds (of_decide_eq_true htrim) hresized
    · rw [if_neg htrim]
      exact hlater

theorem addCenterCrops_sound
    (hsound : state.Sound sought.limit
      (SearchGround tools key pageIndex pilotProfile orbTemplate cropRetainedScales sought) 2) :
    (addCenterCrops sought (sought.scales cropRetainedScales) state).Sound sought.limit
      (SearchGround tools key pageIndex pilotProfile orbTemplate cropRetainedScales sought) 3 := by
  rcases addCenterCrops_eq sought (sought.scales cropRetainedScales) state with
    hsame | ⟨⟨retainedScale, hmem, hretains⟩, hadded⟩
  · rw [hsame]
    exact hsound.later (Nat.le_succ 2)
  · rw [hadded]
    refine hsound.add .centerCrop fun normalized hnormal ↦ ?_
    rw [normalizeMatrix_unit rfl] at hnormal
    cases hnormal
    unfold Sought.scales at hmem
    split_ifs at hmem with htried
    · exact .centerCrop retainedScale htried.1 htried.2 hmem hretains
    · exact absurd hmem List.not_mem_nil

omit [IsStrictOrderedRing K] in
theorem addSync_sound {fallback : AlignmentV2Result K}
    (hsound : state.Sound sought.limit
      (SearchGround tools key pageIndex pilotProfile orbTemplate cropRetainedScales sought) 3)
    (haligns : alignPageV2 tools.toAlignmentTools sought.page key pageIndex pilotProfile
      ((sought.targetShape.1 : Int), (sought.targetShape.2 : Int)) orbTemplate = .ok fallback) :
    (addSync sought fallback state).Sound sought.limit
      (SearchGround tools key pageIndex pilotProfile orbTemplate cropRetainedScales sought) 4 := by
  have hlater := hsound.later (Nat.le_succ 3)
  unfold addSync
  split
  · rename_i image homography score haligned himage hhomography hscore
    by_cases hshape : (image.height, image.width) = sought.targetShape
    · rw [if_pos hshape]
      exact hsound.add .sync fun normalized hnormal ↦
        .sync fallback image homography normalized score haligns haligned himage hhomography hscore
          hshape hnormal
    · rw [if_neg hshape]
      exact hlater
  · exact hlater

/-- The evidence of a search. -/
structure SearchEvidence (tools : GeometryTools K) (key : List UInt8) (pageIndex : Int)
    (pilotProfile : GridProfileV2 K) (orbTemplate : Option OrbTemplate)
    (cropRetainedScales : List K) (sought : Sought K) (search : GeometrySearchV3 K) : Prop where
  bounded : (search.hypotheses.length : Int) ≤ sought.limit
  distinct : (search.hypotheses.map fun hypothesis ↦
    quantizedMatrixKey hypothesis.sourceToCanonical).Nodup
  increasing : (search.hypotheses.map (·.kind.stage)).Pairwise (· < ·)
  grounded : ∀ hypothesis ∈ search.hypotheses,
    SearchGround tools key pageIndex pilotProfile orbTemplate cropRetainedScales sought hypothesis
  unsynced : search.syncReason = none →
    (search.hypotheses.length : Int) = sought.limit ∧
      ∀ hypothesis ∈ search.hypotheses, hypothesis.kind ≠ .sync

omit [IsStrictOrderedRing K] in
theorem SearchState.Sound.evidence {stage : Nat} {reason : Option AlignmentReason}
    (h : state.Sound sought.limit
      (SearchGround tools key pageIndex pilotProfile orbTemplate cropRetainedScales sought) stage)
    (hreason : reason = none → state.full sought.limit ∧ stage ≤ 3) :
    SearchEvidence tools key pageIndex pilotProfile orbTemplate cropRetainedScales sought
      ⟨state.hypotheses, reason⟩ where
  bounded := h.bounded
  distinct := List.nodup_reverse.mp (h.seen ▸ h.distinct)
  increasing := h.increasing
  grounded := h.grounded
  unsynced := by
    intro hnone
    -- the pilot's stage is the last, and was not come to
    obtain ⟨hfull, hstage⟩ := hreason hnone
    refine ⟨le_antisymm h.bounded hfull, fun hypothesis hmem hsync ↦ ?_⟩
    have hbefore := h.before hypothesis hmem
    rw [hsync] at hbefore
    exact absurd hbefore (not_lt.mpr hstage)

theorem searchSought_evidence {search : GeometrySearchV3 K} (hlimit : 0 ≤ sought.limit)
    (h : searchSought tools key pageIndex pilotProfile orbTemplate cropRetainedScales sought =
      .ok search) :
    SearchEvidence tools key pageIndex pilotProfile orbTemplate cropRetainedScales sought
      search := by
  simp only [searchSought, addShapes, bind_eq_ok, mapError_eq_ok] at h
  obtain ⟨state, ⟨resized, hresized, hrestored⟩, h⟩ := h
  -- the four stages in turn; the first two returns leave the pilot unasked
  have hshapes : state.Sound sought.limit
      (SearchGround tools key pageIndex pilotProfile orbTemplate cropRetainedScales sought) 2 :=
    addFrameRestore_sound (addPureResize_sound hlimit hresized) hrestored
  have hcrops := addCenterCrops_sound hshapes
  by_cases hfull : state.full sought.limit
  · rw [if_pos hfull, pure_eq_ok] at h
    rw [← h]
    exact hshapes.evidence fun _ ↦ ⟨hfull, Nat.le_succ 2⟩
  rw [if_neg hfull] at h
  by_cases hcropped :
      (addCenterCrops sought (sought.scales cropRetainedScales) state).full sought.limit
  · rw [if_pos hcropped, pure_eq_ok] at h
    rw [← h]
    exact hcrops.evidence fun _ ↦ ⟨hcropped, le_rfl⟩
  · rw [if_neg hcropped] at h
    simp only [bind_eq_ok, pure_eq_ok] at h
    obtain ⟨fallback, haligns, rfl⟩ := h
    refine (addSync_sound hcrops haligns).evidence fun hnone ↦ ?_
    cases hnone

omit [FloorRing K] [IsStrictOrderedRing K] in
theorem v2PilotProfile_eq_ok {contractSha256 : List UInt8} {profile : SpreadProfile K}
    (h : v2PilotProfile contractSha256 profile = .ok pilotProfile) :
    0 < profile.maxGeometryHypotheses ∧ pilotMatches contractSha256 profile = [pilotProfile] := by
  simp only [v2PilotProfile, validateProfileV3, bind_eq_ok, exists_unit, mapError_eq_ok,
    requireEach_eq_ok] at h
  obtain ⟨⟨-, -, -, hpositive, -⟩, h⟩ := h
  have hlimit := hpositive (profile.maxGeometryHypotheses, "profile.max_geometry_hypotheses")
    (by simp [SpreadProfile.positiveIntegers])
  refine ⟨not_le.mp hlimit, ?_⟩
  split at h
  · rename_i candidate hcandidate
    rw [pure_eq_ok] at h
    rw [hcandidate, h]
  · cases h

/-- What the search of a page is about. -/
def soughtOf (page : Image Bgr) (canonicalShape : Int × Int) (profile : SpreadProfile K) :
    Sought K where
  page := page
  targetShape := (canonicalShape.1.toNat, canonicalShape.2.toNat)
  limit := profile.maxGeometryHypotheses
  tolerance := profile.geometryRatioTolerance
  interpolation := .cubic

theorem searchGeometryV3_evidence {page : Image Bgr} {canonicalShape : Int × Int}
    {profile : SpreadProfile K} {search : GeometrySearchV3 K}
    (h : searchGeometryV3 tools page key pageIndex canonicalShape profile orbTemplate =
      .ok search) :
    ∃ pilotProfile, pilotMatches tools.contractSha256 profile = [pilotProfile] ∧
      SearchEvidence tools key pageIndex pilotProfile orbTemplate profile.cropRetainedScales
        (soughtOf page canonicalShape profile) search := by
  simp only [searchGeometryV3, validateSearchShape, resizeInterpolation, bind_eq_ok, exists_unit,
    raiseIf_eq_ok, pure_eq_ok] at h
  obtain ⟨-, targetShape, ⟨-, -, rfl⟩, -, -, pilotProfile, hpilot, interpolation, ⟨-, rfl⟩, h⟩ := h
  obtain ⟨hlimit, hmatches⟩ := v2PilotProfile_eq_ok hpilot
  exact ⟨pilotProfile, hmatches, searchSought_evidence hlimit.le h⟩

omit [FloorRing K] in
/-- A hypothesis shows a canvas, and its matrix ends in one. -/
theorem SearchGround.canonical {hypothesis : GeometryHypothesisV3 K}
    (hresize : ∀ interpolation image shape resized,
      tools.resize interpolation image shape = .ok resized →
        (resized.height, resized.width) = shape)
    (h : SearchGround tools key pageIndex pilotProfile orbTemplate cropRetainedScales sought
      hypothesis) :
    (hypothesis.image.height, hypothesis.image.width) = sought.targetShape ∧
      hypothesis.sourceToCanonical (Fin.last 2) (Fin.last 2) = 1 := by
  cases h with
  | identity hshape => exact ⟨hshape, rfl⟩
  | pureResize resized _ _ hresized => exact ⟨hresize _ _ _ _ hresized, rfl⟩
  | frameRestore bounds image _ _ hresized => exact ⟨hresize _ _ _ _ hresized, rfl⟩
  | centerCrop => exact ⟨rfl, rfl⟩
  | sync _ _ _ _ _ _ _ _ _ _ hshape hnormal => exact ⟨hshape, normalizeMatrix_last hnormal⟩

/-- **A geometry search is bounded and grounded.**  It keeps at most one hypothesis of each stage,
no matrix twice and never more than its limit; each is a canvas with a ground of its kind; and only a
limit of three or less keeps it from asking the pilot. -/
theorem geometry_search_grounded {page : Image Bgr} {canonicalShape : Int × Int}
    {profile : SpreadProfile K} {search : GeometrySearchV3 K}
    (hresize : ∀ interpolation image shape resized,
      tools.resize interpolation image shape = .ok resized →
        (resized.height, resized.width) = shape)
    (h : searchGeometryV3 tools page key pageIndex canonicalShape profile orbTemplate =
      .ok search) :
    ∃ pilotProfile, pilotMatches tools.contractSha256 profile = [pilotProfile] ∧
      SearchEvidence tools key pageIndex pilotProfile orbTemplate profile.cropRetainedScales
        (soughtOf page canonicalShape profile) search ∧
      search.hypotheses.length ≤ 4 ∧
      (∀ hypothesis ∈ search.hypotheses,
        (hypothesis.image.height, hypothesis.image.width) =
            (canonicalShape.1.toNat, canonicalShape.2.toNat) ∧
          hypothesis.sourceToCanonical (Fin.last 2) (Fin.last 2) = 1) ∧
      (search.syncReason = none → profile.maxGeometryHypotheses ≤ 3) := by
  obtain ⟨pilotProfile, hmatches, hevidence⟩ := searchGeometryV3_evidence h
  have hplaces : ∀ stage ∈ search.hypotheses.map (·.kind.stage), stage < 4 := by
    intro stage hmem
    obtain ⟨hypothesis, -, rfl⟩ := List.mem_map.mp hmem
    cases hypothesis.kind <;> decide
  have hlength := length_le_of_increasing hevidence.increasing hplaces
  rw [List.length_map] at hlength
  refine ⟨pilotProfile, hmatches, hevidence, hlength, fun hypothesis hmem ↦
    (hevidence.grounded hypothesis hmem).canonical hresize, fun hnone ↦ ?_⟩
  obtain ⟨hfull, hunsynced⟩ := hevidence.unsynced hnone
  have hbefore : ∀ stage ∈ search.hypotheses.map (·.kind.stage), stage < 3 := by
    intro stage hmem
    obtain ⟨hypothesis, hhypothesis, rfl⟩ := List.mem_map.mp hmem
    have hkind := hunsynced hypothesis hhypothesis
    cases hkinds : hypothesis.kind with
    | sync => exact absurd hkinds hkind
    | identity | pureResize | frameRestore | centerCrop => decide
  have hfew := length_le_of_increasing hevidence.increasing hbefore
  rw [List.length_map] at hfew
  have hlimit : (search.hypotheses.length : Int) = profile.maxGeometryHypotheses := hfull
  omega

end Search

/-- No pilot is found, and a resize shows the nearest sample. -/
def shapeTools : GeometryTools ℚ where
  pilotHypotheses := fun _ _ _ _ _ ↦ .ok []
  orbHypothesis := fun _ _ ↦ .ok none
  geometryIsAcceptable := fun _ _ _ ↦ .ok true
  warpPerspective := fun page _ _ ↦ .ok page
  gray := nearestTools.gray
  resize := nearestTools.resize
  contractSha256 := List.replicate 32 0

/-- The frozen profile of 512 pixels. -/
def shapeProfile : SpreadProfile ℚ where
  schemaVersion := 3
  contractSha256 := List.replicate 32 0
  qimDelta := 32
  pilotStrengthRms := 2
  spreadDelta := 4
  spreadChipsPerBit := 64
  saturatedFractionMin := 3 / 4
  saturationLow := 16
  saturationHigh := 239
  tileSizePx := 512
  tilesPerPage := 18
  payloadRepetitions := 3
  bitReplication := 3
  bitConfidenceMin := 3 / 5
  pilotScoreMin := 1 / 5
  maxGeometryHypotheses := 8
  geometryRatioTolerance := 1 / 1000
  cropRetainedScales := [8660254037844386 / 10000000000000000]
  resizeInterpolation := "INTER_CUBIC".toList

theorem framedPage_searched :
    ∃ search, searchGeometryV3 shapeTools framedPage [1] 0 (8, 8) shapeProfile none = .ok search ∧
      search.hypotheses.map (·.kind) = [.pureResize, .frameRestore] ∧
      ∃ pilotProfile, pilotMatches shapeTools.contractSha256 shapeProfile = [pilotProfile] ∧
        SearchEvidence shapeTools [1] 0 pilotProfile none shapeProfile.cropRetainedScales
          (soughtOf framedPage (8, 8) shapeProfile) search := by
  have hkinds : (searchGeometryV3 shapeTools framedPage [1] 0 (8, 8) shapeProfile none).map
      (fun search ↦ search.hypotheses.map (·.kind)) = .ok [.pureResize, .frameRestore] := by
    decide +kernel
  have hresize : ∀ interpolation image shape resized,
      shapeTools.resize interpolation image shape = .ok resized →
        (resized.height, resized.width) = shape := by
    intro interpolation image shape resized hresized
    rw [← Except.ok.inj hresized]
  cases hsearch : searchGeometryV3 shapeTools framedPage [1] 0 (8, 8) shapeProfile none with
  | error error =>
    rw [hsearch] at hkinds
    cases hkinds
  | ok search =>
    rw [hsearch] at hkinds
    obtain ⟨pilotProfile, hmatches, hevidence, -⟩ := geometry_search_grounded hresize hsearch
    exact ⟨search, rfl, Except.ok.inj hkinds, pilotProfile, hmatches, hevidence⟩

end Splitbind
