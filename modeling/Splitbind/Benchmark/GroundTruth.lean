import Mathlib.Algebra.BigOperators.Fin
import Mathlib.Tactic.FieldSimp
import Mathlib.Tactic.FinCases
import Splitbind.Fingerprint.CenterCrop
import Splitbind.Library.Projective

/-!
# Ground truth — the envelopes of tampered regions under the transforms of an attack

A transform is a homography of the plane in which an image is the unit square.  Only the corners of
a region are mapped; that the envelope of their images holds the image of the whole region is the
convexity of projective maps.
-/

namespace Splitbind

open Transaction Projective

/-! ## 1. Regions -/

deriving instance DecidableEq for NormalizedRect

section Regions

variable {K : Type} [Field K] [LinearOrder K]

/-- What `__post_init__` lets pass. -/
structure NormalizedRect.Valid (rect : NormalizedRect K) : Prop where
  x : 0 ≤ rect.x
  y : 0 ≤ rect.y
  width : 0 < rect.width
  height : 0 < rect.height
  right : rect.right ≤ 1
  bottom : rect.bottom ≤ 1

def NormalizedRect.box (rect : NormalizedRect K) : Box K :=
  ⟨rect.x, rect.right, rect.y, rect.bottom⟩

/-- The points of a region, its edges included. -/
def NormalizedRect.toSet (rect : NormalizedRect K) : Set (K × K) := rect.box.toSet

def unitSquare : Set (K × K) := Set.Icc 0 1 ×ˢ Set.Icc 0 1

/-- The constructor accepts exactly what is valid. -/
theorem normalizedRect_eq_ok {x y width height : K} {rect : NormalizedRect K} :
    normalizedRect x y width height = .ok rect ↔ rect = ⟨x, y, width, height⟩ ∧ rect.Valid := by
  simp only [normalizedRect, bind_eq_ok, exists_unit, raiseIf_eq_ok, pure_eq_ok, not_or, not_lt,
    not_le]
  constructor
  · rintro ⟨⟨hx, hy, hwidth, hheight⟩, ⟨hright, hbottom⟩, rfl⟩
    exact ⟨rfl, hx, hy, hwidth, hheight, hright, hbottom⟩
  · rintro ⟨rfl, hvalid⟩
    exact ⟨⟨hvalid.x, hvalid.y, hvalid.width, hvalid.height⟩, ⟨hvalid.right, hvalid.bottom⟩, rfl⟩

end Regions

/-! ## 2. Transforms -/

section Transforms

variable {K : Type} [Field K]

/-- The nine values of a homography, row by row. -/
abbrev Transform (K : Type) := Fin 9 → K

/-- `IDENTITY_TRANSFORM`. -/
def identityTransform : Transform K := ![1, 0, 0, 0, 1, 0, 0, 0, 1]

/-- `compose_transforms`: an entry is a row of the one times a column of the other. -/
def composeTransforms (after before : Transform K) : Transform K := fun entry ↦
  ∑ inner : Fin 3, after ⟨entry.val / 3 * 3 + inner.val, by omega⟩ *
    before ⟨inner.val * 3 + entry.val % 3, by omega⟩

def denominator (matrix : Transform K) (point : K × K) : K :=
  matrix 6 * point.1 + matrix 7 * point.2 + matrix 8

/-- Where a homography takes a point. -/
def project (matrix : Transform K) (point : K × K) : K × K :=
  ((matrix 0 * point.1 + matrix 1 * point.2 + matrix 2) / denominator matrix point,
    (matrix 3 * point.1 + matrix 4 * point.2 + matrix 5) / denominator matrix point)

/-- The denominator below which a corner counts as infinite. -/
def leastDenominator : K := 1 / ((10 ^ 15 : Nat) : K)

variable [LinearOrder K]

/-- `_transform_point`. -/
def transformPoint (point : K × K) (matrix : Transform K) : Except CropError (K × K) := do
  raiseIf (|denominator matrix point| ≤ leastDenominator)
    (.value "ground-truth transform maps a corner to infinity")
  return project matrix point

/-- The least, or the greatest, of four coordinates. -/
def fold4 (choose : K → K → K) (coordinate : K × K → K) (points : Fin 4 → K × K) : K :=
  choose (choose (choose (coordinate (points 0)) (coordinate (points 1))) (coordinate (points 2)))
    (coordinate (points 3))

/-- What `transform_regions` appends for a region. -/
def clippedEnvelope (matrix : Transform K) (region : NormalizedRect K) :
    Except CropError (List (NormalizedRect K)) := do
  let first ← transformPoint (region.x, region.y) matrix
  let second ← transformPoint (region.right, region.y) matrix
  let third ← transformPoint (region.right, region.bottom) matrix
  let fourth ← transformPoint (region.x, region.bottom) matrix
  let points := ![first, second, third, fourth]
  let left := max 0 (fold4 min Prod.fst points)
  let top := max 0 (fold4 min Prod.snd points)
  let right := min 1 (fold4 max Prod.fst points)
  let bottom := min 1 (fold4 max Prod.snd points)
  if left < right ∧ top < bottom then
    let mapped ← normalizedRect left top (right - left) (bottom - top)
    return [mapped]
  else return []

/-- `transform_regions`. -/
def transformRegions (regions : List (NormalizedRect K)) (matrix : Transform K) :
    Except CropError (List (NormalizedRect K)) :=
  if matrix = identityTransform then .ok regions
  else do
    let mapped ← regions.mapM (clippedEnvelope matrix)
    return mapped.flatten

/-- The denominator of each corner is more than the least one. -/
def Mappable (matrix : Transform K) (region : NormalizedRect K) : Prop :=
  ∀ corner ∈ region.box.corners, leastDenominator < denominator matrix corner

instance (matrix : Transform K) (region : NormalizedRect K) : Decidable (Mappable matrix region) :=
  inferInstanceAs (Decidable (∀ corner ∈ region.box.corners, _))

end Transforms

/-! ## 3. The image of a region -/

section Image

variable {K : Type} [Field K] [LinearOrder K] [IsStrictOrderedRing K]
  {matrix : Transform K} {region : NormalizedRect K}

/-- The rows of a homography as affine functions. -/
def rowAffine (matrix : Transform K) (row : Fin 3) : Affine K :=
  ⟨matrix ⟨row.val * 3, by omega⟩, matrix ⟨row.val * 3 + 1, by omega⟩, matrix ⟨row.val * 3 + 2, by omega⟩⟩

omit [LinearOrder K] [IsStrictOrderedRing K] in
theorem project_eq (matrix : Transform K) (point : K × K) :
    project matrix point = ((rowAffine matrix 0).eval point / (rowAffine matrix 2).eval point,
      (rowAffine matrix 1).eval point / (rowAffine matrix 2).eval point) := rfl

theorem leastDenominator_pos : 0 < (leastDenominator : K) := by
  rw [leastDenominator]
  positivity

theorem Mappable.pos (h : Mappable matrix region) :
    ∀ corner ∈ region.box.corners, 0 < (rowAffine matrix 2).eval corner :=
  fun corner hcorner ↦ leastDenominator_pos.trans (h corner hcorner)

theorem Mappable.denominator_pos (h : Mappable matrix region) {point : K × K}
    (hpoint : point ∈ region.toSet) : 0 < denominator matrix point :=
  Affine.eval_pos h.pos hpoint

theorem transformPoint_ok {point : K × K} (h : leastDenominator < denominator matrix point) :
    transformPoint point matrix = .ok (project matrix point) := by
  have hlarge : ¬ |denominator matrix point| ≤ leastDenominator := by
    rw [abs_of_pos (leastDenominator_pos.trans h)]
    exact not_le.mpr h
  rw [transformPoint, raiseIf_neg hlarge]
  rfl

omit [Field K] [IsStrictOrderedRing K] in
theorem fold4_min (coordinate : K × K → K) (points : Fin 4 → K × K) :
    (∃ i, coordinate (points i) = fold4 min coordinate points) ∧
      ∀ i, fold4 min coordinate points ≤ coordinate (points i) := by
  constructor
  · rw [fold4]
    rcases min_choice (min (min (coordinate (points 0)) (coordinate (points 1)))
      (coordinate (points 2))) (coordinate (points 3)) with h | h <;> rw [h]
    · rcases min_choice (min (coordinate (points 0)) (coordinate (points 1)))
        (coordinate (points 2)) with h | h <;> rw [h]
      · rcases min_choice (coordinate (points 0)) (coordinate (points 1)) with h | h <;> rw [h]
        · exact ⟨0, rfl⟩
        · exact ⟨1, rfl⟩
      · exact ⟨2, rfl⟩
    · exact ⟨3, rfl⟩
  · intro i
    fin_cases i
    · exact (min_le_left _ _).trans ((min_le_left _ _).trans (min_le_left _ _))
    · exact (min_le_left _ _).trans ((min_le_left _ _).trans (min_le_right _ _))
    · exact (min_le_left _ _).trans (min_le_right _ _)
    · exact min_le_right _ _

omit [Field K] [IsStrictOrderedRing K] in
theorem fold4_max (coordinate : K × K → K) (points : Fin 4 → K × K) :
    (∃ i, coordinate (points i) = fold4 max coordinate points) ∧
      ∀ i, coordinate (points i) ≤ fold4 max coordinate points :=
  fold4_min (K := Kᵒᵈ) coordinate points

/-- The least and the greatest coordinates of a set. -/
structure IsBoundingBox (image : Set (K × K)) (bounds : Box K) : Prop where
  left : IsLeast (Prod.fst '' image) bounds.left
  right : IsGreatest (Prod.fst '' image) bounds.right
  top : IsLeast (Prod.snd '' image) bounds.top
  bottom : IsGreatest (Prod.snd '' image) bounds.bottom

omit [Field K] [IsStrictOrderedRing K] in
theorem IsBoundingBox.subset {image : Set (K × K)} {bounds : Box K} (h : IsBoundingBox image bounds) :
    image ⊆ bounds.toSet := fun point hpoint ↦
  ⟨⟨h.left.2 ⟨point, hpoint, rfl⟩, h.right.2 ⟨point, hpoint, rfl⟩⟩,
    h.top.2 ⟨point, hpoint, rfl⟩, h.bottom.2 ⟨point, hpoint, rfl⟩⟩

/-- The part of a box in the unit square, as a region if it has an area. -/
def clip (bounds : Box K) : List (NormalizedRect K) :=
  if max 0 bounds.left < min 1 bounds.right ∧ max 0 bounds.top < min 1 bounds.bottom then
    [⟨max 0 bounds.left, max 0 bounds.top, min 1 bounds.right - max 0 bounds.left,
      min 1 bounds.bottom - max 0 bounds.top⟩]
  else []

/-- What is clipped is a region: the part of the box in the unit square. -/
theorem clip_spec {bounds : Box K} {mapped : NormalizedRect K} (h : mapped ∈ clip bounds) :
    mapped.Valid ∧ mapped.toSet = bounds.toSet ∩ unitSquare := by
  rw [clip] at h
  split_ifs at h with harea
  · obtain rfl := List.mem_singleton.mp h
    have hright : max 0 bounds.left + (min 1 bounds.right - max 0 bounds.left) =
        min 1 bounds.right := add_sub_cancel _ _
    have hbottom : max 0 bounds.top + (min 1 bounds.bottom - max 0 bounds.top) =
        min 1 bounds.bottom := add_sub_cancel _ _
    constructor
    · exact
        { x := le_max_left _ _
          y := le_max_left _ _
          width := sub_pos.mpr harea.1
          height := sub_pos.mpr harea.2
          right := hright.trans_le (min_le_left _ _)
          bottom := hbottom.trans_le (min_le_left _ _) }
    · rw [NormalizedRect.toSet, NormalizedRect.box, Box.toSet, Box.toSet, unitSquare,
        Set.prod_inter_prod, Set.Icc_inter_Icc, Set.Icc_inter_Icc, NormalizedRect.right,
        NormalizedRect.bottom, hright, hbottom, max_comm 0, max_comm 0, min_comm 1, min_comm 1]
  · exact absurd h List.not_mem_nil

/-- The images of the corners of a region. -/
def cornerImages (matrix : Transform K) (region : NormalizedRect K) : Fin 4 → K × K :=
  ![project matrix (region.x, region.y), project matrix (region.right, region.y),
    project matrix (region.right, region.bottom), project matrix (region.x, region.bottom)]

omit [LinearOrder K] [IsStrictOrderedRing K] in
theorem cornerImages_spec (matrix : Transform K) (region : NormalizedRect K) :
    (∀ i, ∃ corner ∈ region.box.corners, project matrix corner = cornerImages matrix region i) ∧
      ∀ corner ∈ region.box.corners, ∃ i, cornerImages matrix region i = project matrix corner := by
  constructor
  · intro i
    fin_cases i
    · exact ⟨_, List.mem_cons_self, rfl⟩
    · exact ⟨_, List.mem_cons_of_mem _ List.mem_cons_self, rfl⟩
    · exact ⟨_, List.mem_cons_of_mem _ (List.mem_cons_of_mem _ List.mem_cons_self), rfl⟩
    · exact ⟨_, List.mem_cons_of_mem _ (List.mem_cons_of_mem _
        (List.mem_cons_of_mem _ List.mem_cons_self)), rfl⟩
  · intro corner hmem
    simp only [Box.corners, List.mem_cons, List.not_mem_nil, or_false] at hmem
    rcases hmem with rfl | rfl | rfl | rfl
    · exact ⟨0, rfl⟩
    · exact ⟨1, rfl⟩
    · exact ⟨2, rfl⟩
    · exact ⟨3, rfl⟩

omit [IsStrictOrderedRing K] in
/-- The least coordinate of the images is one of a corner, and the least of the corners. -/
theorem least_cornerImages (matrix : Transform K) (region : NormalizedRect K)
    (coordinate : K × K → K) :
    (∃ corner ∈ region.box.corners, coordinate (project matrix corner) =
        fold4 min coordinate (cornerImages matrix region)) ∧
      ∀ corner ∈ region.box.corners, fold4 min coordinate (cornerImages matrix region) ≤
        coordinate (project matrix corner) := by
  obtain ⟨hcorner, himage⟩ := cornerImages_spec matrix region
  obtain ⟨⟨i, hi⟩, hle⟩ := fold4_min coordinate (cornerImages matrix region)
  constructor
  · obtain ⟨corner, hmem, heq⟩ := hcorner i
    exact ⟨corner, hmem, heq ▸ hi⟩
  · intro corner hmem
    obtain ⟨j, hj⟩ := himage corner hmem
    exact hj ▸ hle j

omit [IsStrictOrderedRing K] in
theorem greatest_cornerImages (matrix : Transform K) (region : NormalizedRect K)
    (coordinate : K × K → K) :
    (∃ corner ∈ region.box.corners, coordinate (project matrix corner) =
        fold4 max coordinate (cornerImages matrix region)) ∧
      ∀ corner ∈ region.box.corners, coordinate (project matrix corner) ≤
        fold4 max coordinate (cornerImages matrix region) := by
  obtain ⟨hcorner, himage⟩ := cornerImages_spec matrix region
  obtain ⟨⟨i, hi⟩, hle⟩ := fold4_max coordinate (cornerImages matrix region)
  constructor
  · obtain ⟨corner, hmem, heq⟩ := hcorner i
    exact ⟨corner, hmem, heq ▸ hi⟩
  · intro corner hmem
    obtain ⟨j, hj⟩ := himage corner hmem
    exact hj ▸ hle j

/-- The extreme coordinates of the corners' images, as a box. -/
def envelope (matrix : Transform K) (region : NormalizedRect K) : Box K :=
  let points := cornerImages matrix region
  ⟨fold4 min Prod.fst points, fold4 max Prod.fst points, fold4 min Prod.snd points,
    fold4 max Prod.snd points⟩

/-- The corners of a region bound the image of the whole region. -/
theorem isBoundingBox_envelope (hvalid : region.Valid) (hmap : Mappable matrix region) :
    IsBoundingBox (project matrix '' region.toSet) (envelope matrix region) := by
  have hwidth : region.box.left ≤ region.box.right := le_add_of_nonneg_right hvalid.width.le
  have hheight : region.box.top ≤ region.box.bottom := le_add_of_nonneg_right hvalid.height.le
  have hfst : Prod.fst '' (project matrix '' region.toSet) =
      (fun point ↦ (rowAffine matrix 0).eval point / (rowAffine matrix 2).eval point) ''
        region.box.toSet := Set.image_image _ _ _
  have hsnd : Prod.snd '' (project matrix '' region.toSet) =
      (fun point ↦ (rowAffine matrix 1).eval point / (rowAffine matrix 2).eval point) ''
        region.box.toSet := Set.image_image _ _ _
  constructor
  · obtain ⟨hcorner, hle⟩ := least_cornerImages matrix region Prod.fst
    rw [hfst]
    exact isLeast_quotient hwidth hheight hmap.pos hcorner hle
  · obtain ⟨hcorner, hle⟩ := greatest_cornerImages matrix region Prod.fst
    rw [hfst]
    exact isGreatest_quotient hwidth hheight hmap.pos hcorner hle
  · obtain ⟨hcorner, hle⟩ := least_cornerImages matrix region Prod.snd
    rw [hsnd]
    exact isLeast_quotient hwidth hheight hmap.pos hcorner hle
  · obtain ⟨hcorner, hle⟩ := greatest_cornerImages matrix region Prod.snd
    rw [hsnd]
    exact isGreatest_quotient hwidth hheight hmap.pos hcorner hle

/-- A region comes out as its clipped envelope. -/
theorem clippedEnvelope_eq (hmap : Mappable matrix region) :
    clippedEnvelope matrix region = .ok (clip (envelope matrix region)) := by
  have hcorners := hmap
  simp only [Mappable, Box.corners, NormalizedRect.box, List.mem_cons, List.not_mem_nil, or_false,
    forall_eq_or_imp, forall_eq] at hcorners
  obtain ⟨h0, h1, h2, h3⟩ := hcorners
  rw [clippedEnvelope, transformPoint_ok h0, ok_bind, transformPoint_ok h1, ok_bind,
    transformPoint_ok h2, ok_bind, transformPoint_ok h3, ok_bind]
  show (if max 0 (envelope matrix region).left < min 1 (envelope matrix region).right ∧
      max 0 (envelope matrix region).top < min 1 (envelope matrix region).bottom then
        normalizedRect (max 0 (envelope matrix region).left) (max 0 (envelope matrix region).top)
          (min 1 (envelope matrix region).right - max 0 (envelope matrix region).left)
          (min 1 (envelope matrix region).bottom - max 0 (envelope matrix region).top) >>=
            fun mapped ↦ pure [mapped]
      else pure []) = Except.ok (clip (envelope matrix region))
  by_cases harea : max 0 (envelope matrix region).left < min 1 (envelope matrix region).right ∧
      max 0 (envelope matrix region).top < min 1 (envelope matrix region).bottom
  · have hclip : clip (envelope matrix region) = [_] := if_pos harea
    have hmapped := clip_spec (hclip ▸ List.mem_singleton_self _)
    rw [if_pos harea, hclip, normalizedRect_eq_ok.mpr ⟨rfl, hmapped.1⟩]
    rfl
  · rw [if_neg harea, clip, if_neg harea]
    rfl

omit [LinearOrder K] [IsStrictOrderedRing K] in
theorem project_identity (point : K × K) : project identityTransform point = point := by
  have hdenominator : denominator identityTransform point = 1 := by
    show (0 : K) * point.1 + 0 * point.2 + 1 = 1
    rw [zero_mul, zero_mul, zero_add, zero_add]
  have hx : (1 : K) * point.1 + 0 * point.2 + 0 = point.1 := by
    rw [one_mul, zero_mul, add_zero, add_zero]
  have hy : (0 : K) * point.1 + 1 * point.2 + 0 = point.2 := by
    rw [one_mul, zero_mul, zero_add, add_zero]
  rw [project, hdenominator, div_one, div_one]
  exact Prod.ext hx hy

/-- The identity leaves the envelope of a region the region. -/
theorem clip_envelope_identity (hvalid : region.Valid) :
    clip (envelope identityTransform region) = [region] := by
  have hright : region.x ≤ region.right := le_add_of_nonneg_right hvalid.width.le
  have hbottom : region.y ≤ region.bottom := le_add_of_nonneg_right hvalid.height.le
  have henvelope : envelope identityTransform region = region.box := by
    simp only [envelope, fold4, cornerImages, project_identity, Matrix.cons_val, NormalizedRect.box,
      min_eq_left hright, max_eq_right hright, min_eq_left hbottom, max_eq_right hbottom, min_self,
      max_self, max_eq_left hright]
  have hwidth : region.right - region.x = region.width := add_sub_cancel_left _ _
  have hheight : region.bottom - region.y = region.height := add_sub_cancel_left _ _
  rw [henvelope, clip, NormalizedRect.box]
  dsimp only
  rw [max_eq_right hvalid.x, max_eq_right hvalid.y, min_eq_right hvalid.right,
    min_eq_right hvalid.bottom, hwidth, hheight, if_pos]
  exact ⟨sub_pos.mp (hwidth ▸ hvalid.width), sub_pos.mp (hheight ▸ hvalid.height)⟩

/-- Regions are mapped one by one. -/
theorem transformRegions_eq {regions : List (NormalizedRect K)}
    (h : ∀ region ∈ regions, region.Valid ∧ Mappable matrix region) :
    transformRegions regions matrix =
      .ok (regions.flatMap fun region ↦ clip (envelope matrix region)) := by
  rw [transformRegions]
  split_ifs with hidentity
  · have hself : ∀ region ∈ regions, clip (envelope matrix region) = [region] := fun region hmem ↦
      hidentity ▸ clip_envelope_identity (h region hmem).1
    rw [List.flatMap_congr hself, List.flatMap_singleton']
  · have hmapped : regions.mapM (clippedEnvelope matrix) =
        .ok (regions.map fun region ↦ clip (envelope matrix region)) :=
      mapM_eq_map fun region hmem ↦ clippedEnvelope_eq (h region hmem).2
    rw [hmapped]
    rfl

end Image

/-! ## 4. Composition -/

section Composition

variable {K : Type} [Field K]

/-- Composing homographies composes the maps, where the first one is defined. -/
theorem project_composeTransforms {after before : Transform K} {point : K × K}
    (hbefore : denominator before point ≠ 0) :
    project (composeTransforms after before) point = project after (project before point) := by
  have hrow : ∀ row : Fin 3, (rowAffine (composeTransforms after before) row).eval point =
      (rowAffine after row).eval (project before point) * denominator before point := by
    intro row
    simp only [rowAffine, Affine.eval, composeTransforms, Fin.sum_univ_three, project]
    field_simp
    fin_cases row <;> simp [denominator] <;> ring
  rw [project_eq, project_eq, hrow, hrow, hrow, mul_div_mul_right _ _ hbefore,
    mul_div_mul_right _ _ hbefore]

variable [LinearOrder K] [IsStrictOrderedRing K] {after before : Transform K}
  {region mapped final : NormalizedRect K}

/-- Mapping an envelope again covers what the composed homography makes of the points of the region
that the first one leaves in the square. -/
theorem composeTransforms_covers (hvalid : region.Valid) (hbefore : Mappable before region)
    (hmapped : mapped ∈ clip (envelope before region)) (hafter : Mappable after mapped)
    (hfinal : final ∈ clip (envelope after mapped)) {point : K × K} (hpoint : point ∈ region.toSet)
    (hinside : project before point ∈ unitSquare)
    (himage : project (composeTransforms after before) point ∈ unitSquare) :
    project (composeTransforms after before) point ∈ final.toSet := by
  obtain ⟨hmappedValid, hmappedSet⟩ := clip_spec hmapped
  have hbox := (isBoundingBox_envelope hvalid hbefore).subset ⟨point, hpoint, rfl⟩
  have hfirst : project before point ∈ mapped.toSet := by
    rw [hmappedSet]
    exact ⟨hbox, hinside⟩
  have hbox' := (isBoundingBox_envelope hmappedValid hafter).subset ⟨_, hfirst, rfl⟩
  rw [project_composeTransforms (hbefore.denominator_pos hpoint).ne'] at himage ⊢
  rw [(clip_spec hfinal).2]
  exact ⟨hbox', himage⟩

omit [IsStrictOrderedRing K] in
theorem clip_eq_nil {bounds : Box K} : clip bounds = [] ↔
    min 1 bounds.right ≤ max 0 bounds.left ∨ min 1 bounds.bottom ≤ max 0 bounds.top := by
  rw [← not_lt, ← not_lt, ← not_and_or, clip]
  by_cases harea : max 0 bounds.left < min 1 bounds.right ∧ max 0 bounds.top < min 1 bounds.bottom
  · rw [if_pos harea]
    exact ⟨fun h ↦ absurd h (List.cons_ne_nil _ _), fun h ↦ absurd harea h⟩
  · rw [if_neg harea]
    exact ⟨fun _ ↦ harea, fun _ ↦ rfl⟩

/-- A region comes out as the bounding box of its image, clipped to the unit square, or not at all
if that has no area; what comes out is a region that covers the image in the square, and mapping it
by a second homography covers what the composed one makes of the points in between. -/
theorem transformRegions_envelope {regions : List (NormalizedRect K)}
    (h : ∀ region ∈ regions, region.Valid ∧ Mappable before region) :
    transformRegions regions before =
        .ok (regions.flatMap fun region ↦ clip (envelope before region)) ∧
      (∀ region ∈ regions,
        IsBoundingBox (project before '' region.toSet) (envelope before region) ∧
        (clip (envelope before region) = [] ↔
          min 1 (envelope before region).right ≤ max 0 (envelope before region).left ∨
            min 1 (envelope before region).bottom ≤ max 0 (envelope before region).top) ∧
        ∀ mapped ∈ clip (envelope before region), mapped.Valid ∧
          mapped.toSet = (envelope before region).toSet ∩ unitSquare ∧
          project before '' region.toSet ∩ unitSquare ⊆ mapped.toSet) ∧
      ∀ after, (∀ region ∈ regions, ∀ mapped ∈ clip (envelope before region),
          Mappable after mapped) →
        (transformRegions regions before >>= fun mapped ↦ transformRegions mapped after) =
            .ok ((regions.flatMap fun region ↦ clip (envelope before region)).flatMap
              fun mapped ↦ clip (envelope after mapped)) ∧
          ∀ region ∈ regions, ∀ mapped ∈ clip (envelope before region),
            ∀ final ∈ clip (envelope after mapped), ∀ point ∈ region.toSet,
              project before point ∈ unitSquare →
              project (composeTransforms after before) point ∈ unitSquare →
              project (composeTransforms after before) point ∈ final.toSet := by
  have hmaps := transformRegions_eq h
  refine ⟨hmaps, fun region hregion ↦ ?_, fun after hafter ↦ ⟨?_, ?_⟩⟩
  · obtain ⟨hvalid, hbefore⟩ := h region hregion
    have hbox := isBoundingBox_envelope hvalid hbefore
    refine ⟨hbox, clip_eq_nil, fun mapped hmapped ↦ ?_⟩
    obtain ⟨hmappedValid, hmappedSet⟩ := clip_spec hmapped
    refine ⟨hmappedValid, hmappedSet, ?_⟩
    rw [hmappedSet]
    exact Set.inter_subset_inter_left _ hbox.subset
  · rw [hmaps, ok_bind]
    refine transformRegions_eq fun mapped hmapped ↦ ?_
    obtain ⟨region, hregion, hclip⟩ := List.mem_flatMap.mp hmapped
    exact ⟨(clip_spec hclip).1, hafter region hregion mapped hclip⟩
  · intro region hregion mapped hmapped final hfinal point hpoint hinside himage
    obtain ⟨hvalid, hbefore⟩ := h region hregion
    exact composeTransforms_covers hvalid hbefore hmapped (hafter region hregion mapped hmapped)
      hfinal hpoint hinside himage

/-- The middle of the image. -/
def middleRegion : NormalizedRect ℚ := ⟨1 / 4, 1 / 4, 1 / 2, 1 / 2⟩

/-- A tilt about the left edge: its denominator grows with `x`. -/
def tilt : Transform ℚ := ![1, 0, 0, 0, 1, 0, 1, 0, 1]

/-- Tilted once, and what is left of it once more. -/
theorem middleRegion_tilted :
    transformRegions [middleRegion] tilt = .ok [⟨1 / 5, 1 / 7, 8 / 35, 16 / 35⟩] ∧
      ∀ point ∈ middleRegion.toSet, project tilt point ∈ unitSquare →
        project (composeTransforms tilt tilt) point ∈ unitSquare →
        ∀ final ∈ clip (envelope tilt ⟨1 / 5, 1 / 7, 8 / 35, 16 / 35⟩),
          project (composeTransforms tilt tilt) point ∈ final.toSet := by
  have hvalid : ∀ region ∈ [middleRegion], region.Valid ∧ Mappable tilt region := by
    intro region hregion
    obtain rfl := List.mem_singleton.mp hregion
    exact ⟨by constructor <;> decide +kernel, by decide +kernel⟩
  have hclip : clip (envelope tilt middleRegion) = [⟨1 / 5, 1 / 7, 8 / 35, 16 / 35⟩] := by
    decide +kernel
  obtain ⟨hmaps, -, hcompose⟩ := transformRegions_envelope hvalid
  have hafter : ∀ region ∈ [middleRegion], ∀ mapped ∈ clip (envelope tilt region),
      Mappable tilt mapped := by
    intro region hregion mapped hmapped
    obtain rfl := List.mem_singleton.mp hregion
    rw [hclip] at hmapped
    obtain rfl := List.mem_singleton.mp hmapped
    decide +kernel
  obtain ⟨-, hcovers⟩ := hcompose tilt hafter
  refine ⟨?_, fun point hpoint hinside himage final hfinal ↦ ?_⟩
  · rw [hmaps, List.flatMap_singleton, hclip]
  · exact hcovers middleRegion List.mem_cons_self _ (hclip ▸ List.mem_cons_self) final hfinal point
      hpoint hinside himage

end Composition

/-- Everything on one vertical line, in the middle of the square. -/
def squash : Transform ℚ := ![0, 0, 1 / 2, 0, 1, 0, 0, 0, 1]

/-- A homography whose denominator is the least one everywhere. -/
def faint : Transform ℚ := ![1, 0, 0, 0, 1, 0, 0, 0, leastDenominator]

/-- An envelope without an area is dropped with the image points it holds; and a denominator that
is the least one is refused. -/
theorem transformRegions_drops :
    (middleRegion.Valid ∧ Mappable squash middleRegion ∧
      transformRegions [middleRegion] squash = .ok [] ∧
      ∃ point ∈ middleRegion.toSet, project squash point = (1 / 2, 1 / 2) ∧
        project squash point ∈ unitSquare) ∧
    (∀ corner ∈ middleRegion.box.corners, denominator faint corner = leastDenominator) ∧
      transformRegions [middleRegion] faint =
        .error (.value "ground-truth transform maps a corner to infinity") := by
  have hproject : project squash (1 / 2, 1 / 2) = (1 / 2, 1 / 2) := by decide +kernel
  have hvalid : middleRegion.Valid := by constructor <;> decide +kernel
  refine ⟨⟨hvalid, by decide +kernel, by decide +kernel, (1 / 2, 1 / 2), ?_, hproject, ?_⟩,
    by decide +kernel, by decide +kernel⟩
  · simp only [NormalizedRect.toSet, NormalizedRect.box, Box.toSet, NormalizedRect.right,
      NormalizedRect.bottom, middleRegion, Set.mem_prod, Set.mem_Icc]
    norm_num
  · rw [hproject, unitSquare, Set.mem_prod, Set.mem_Icc]
    norm_num

end Splitbind
