import Mathlib.Data.List.Sort
import Mathlib.MeasureTheory.Measure.Real
import Splitbind.Benchmark.GroundTruth
import Splitbind.Library.Grid

/-!
# Localization — the overlap of the regions that were tampered with and those that were reported

The plane is cut at every edge of every rectangle, and a cell counts for a set of rectangles if its
middle lies in one of them.  No rectangle has part of a cell only, so what is summed up are areas.
-/

namespace Splitbind

open MeasureTheory Grid

/-! ## 1. The source -/

section Source

variable {K : Type} [Field K] [LinearOrder K]

/-- `sorted({...})`. -/
def sortedSet (values : List K) : List K := values.dedup.insertionSort (· ≤ ·)

/-- `any(rect.x <= midpoint_x <= rect.right and rect.y <= midpoint_y <= rect.bottom ...)`. -/
def holdsPoint (rects : List (NormalizedRect K)) (point : K × K) : Bool :=
  rects.any fun rect ↦ rect.x ≤ point.1 ∧ point.1 ≤ rect.right ∧ rect.y ≤ point.2 ∧
    point.2 ≤ rect.bottom

/-- The sums of the two loops. -/
structure Overlap (K : Type) where
  intersection : K
  union : K

/-- One turn of the inner loop. -/
def addCell (expected predicted : List (NormalizedRect K)) (horizontal : K × K)
    (sums : Overlap K) (vertical : K × K) : Overlap K :=
  let midpoint := ((horizontal.1 + horizontal.2) / ((2 : Nat) : K), (vertical.1 + vertical.2) / ((2 : Nat) : K))
  let inExpected := holdsPoint expected midpoint
  let inPredicted := holdsPoint predicted midpoint
  let area := (horizontal.2 - horizontal.1) * (vertical.2 - vertical.1)
  { union := if inExpected || inPredicted then sums.union + area else sums.union
    intersection := if inExpected && inPredicted then sums.intersection + area
      else sums.intersection }

/-- The cuts at the edges of the rectangles. -/
def verticalCuts (rects : List (NormalizedRect K)) : List K :=
  sortedSet (rects.flatMap fun rect ↦ [rect.x, rect.right])

def horizontalCuts (rects : List (NormalizedRect K)) : List K :=
  sortedSet (rects.flatMap fun rect ↦ [rect.y, rect.bottom])

/-- The two loops of `compute_localization_iou`. -/
def sumCells (expected predicted : List (NormalizedRect K)) : Overlap K :=
  let xs := verticalCuts (expected ++ predicted)
  let ys := horizontalCuts (expected ++ predicted)
  (xs.zip xs.tail).foldl (fun sums horizontal ↦
    (ys.zip ys.tail).foldl (addCell expected predicted horizontal) sums) ⟨0, 0⟩

/-- `compute_localization_iou`. -/
def computeLocalizationIou (expected predicted : List (NormalizedRect K)) : K :=
  if expected = [] ∧ predicted = [] then 1
  else if expected = [] ∨ predicted = [] then 0
  else
    let sums := sumCells expected predicted
    sums.intersection / sums.union

end Source

/-! ## 2. The cuts -/

section Cuts

variable {K : Type} [LinearOrder K]

theorem mem_sortedSet {values : List K} {value : K} : value ∈ sortedSet values ↔ value ∈ values := by
  rw [sortedSet, List.mem_insertionSort, List.mem_dedup]

theorem pairwise_sortedSet (values : List K) : (sortedSet values).Pairwise (· < ·) := by
  have hsorted : (sortedSet values).Pairwise (· ≤ ·) := List.pairwise_insertionSort _ _
  have hnodup : (sortedSet values).Nodup :=
    (List.perm_insertionSort (· ≤ ·) values.dedup).nodup_iff.mpr (List.nodup_dedup values)
  exact hsorted.imp₂ (fun _ _ hle hne ↦ lt_of_le_of_ne hle hne) hnodup

end Cuts

/-! ## 3. The sums are areas -/

/-- The union of a list of rectangles. -/
def unionOf (rects : List (NormalizedRect ℝ)) : Set (ℝ × ℝ) :=
  {point | ∃ rect ∈ rects, point ∈ rect.toSet}

theorem holdsPoint_iff {rects : List (NormalizedRect ℝ)} {point : ℝ × ℝ} :
    holdsPoint rects point = true ↔ point ∈ unionOf rects := by
  rw [holdsPoint, List.any_eq_true]
  constructor
  · rintro ⟨rect, hrect, hinside⟩
    obtain ⟨hleft, hright, htop, hbottom⟩ := of_decide_eq_true hinside
    exact ⟨rect, hrect, ⟨hleft, hright⟩, htop, hbottom⟩
  · rintro ⟨rect, hrect, ⟨hleft, hright⟩, htop, hbottom⟩
    exact ⟨rect, hrect, decide_eq_true ⟨hleft, hright, htop, hbottom⟩⟩

/-- A union of rectangles is aligned with the cuts at the edges of these and of others. -/
theorem aligned_unionOf {rects all : List (NormalizedRect ℝ)} (hsubset : rects ⊆ all) :
    Aligned (verticalCuts all) (horizontalCuts all) (unionOf rects) := by
  induction rects with
  | nil =>
    have hempty : unionOf [] = ∅ := by
      ext point
      exact ⟨fun ⟨_, hrect, _⟩ ↦ absurd hrect List.not_mem_nil, fun hpoint ↦ hpoint.elim⟩
    rw [hempty]
    exact Aligned.empty
  | cons rect rects ih =>
    have hunion : unionOf (rect :: rects) = rect.toSet ∪ unionOf rects := by
      ext point
      exact List.exists_mem_cons_iff (fun other ↦ point ∈ other.toSet) rect rects
    have hmem : rect ∈ all := hsubset List.mem_cons_self
    have hedge : ∀ {edges : NormalizedRect ℝ → List ℝ} {edge : ℝ}, edge ∈ edges rect →
        edge ∈ sortedSet (all.flatMap edges) := fun h ↦
      mem_sortedSet.mpr (List.mem_flatMap.mpr ⟨rect, hmem, h⟩)
    rw [hunion]
    refine Aligned.union ?_ (ih fun other hother ↦ hsubset (List.mem_cons_of_mem _ hother))
    exact Aligned.rectangle (pairwise_sortedSet _) (pairwise_sortedSet _)
      (hedge List.mem_cons_self) (hedge (List.mem_cons_of_mem _ List.mem_cons_self))
      (hedge List.mem_cons_self) (hedge (List.mem_cons_of_mem _ List.mem_cons_self))

variable {expected predicted : List (NormalizedRect ℝ)}

/-- A turn of the inner loop adds what the cell adds to either area. -/
theorem addCell_eq (horizontal vertical : ℝ × ℝ) (sums : Overlap ℝ) :
    addCell expected predicted horizontal sums vertical =
      ⟨sums.intersection +
          cellArea (unionOf expected ∩ unionOf predicted) horizontal vertical,
        sums.union + cellArea (unionOf expected ∪ unionOf predicted) horizontal vertical⟩ := by
  have hmiddle : ((horizontal.1 + horizontal.2) / ((2 : Nat) : ℝ),
      (vertical.1 + vertical.2) / ((2 : Nat) : ℝ)) = middle horizontal vertical := rfl
  have hboth : (holdsPoint expected (middle horizontal vertical) &&
      holdsPoint predicted (middle horizontal vertical)) = true ↔
        middle horizontal vertical ∈ unionOf expected ∩ unionOf predicted := by
    rw [Bool.and_eq_true, holdsPoint_iff, holdsPoint_iff, Set.mem_inter_iff]
  have heither : (holdsPoint expected (middle horizontal vertical) ||
      holdsPoint predicted (middle horizontal vertical)) = true ↔
        middle horizontal vertical ∈ unionOf expected ∪ unionOf predicted := by
    rw [Bool.or_eq_true, holdsPoint_iff, holdsPoint_iff, Set.mem_union]
  rw [addCell, hmiddle, cellArea, cellArea]
  congr 1
  · by_cases hmem : middle horizontal vertical ∈ unionOf expected ∩ unionOf predicted
    · rw [if_pos (hboth.mpr hmem), if_pos hmem]
    · rw [if_neg (mt hboth.mp hmem), if_neg hmem, add_zero]
  · by_cases hmem : middle horizontal vertical ∈ unionOf expected ∪ unionOf predicted
    · rw [if_pos (heither.mpr hmem), if_pos hmem]
    · rw [if_neg (mt heither.mp hmem), if_neg hmem, add_zero]

theorem foldl_addCell (horizontal : ℝ × ℝ) (ys : List (ℝ × ℝ)) (sums : Overlap ℝ) :
    ys.foldl (addCell expected predicted horizontal) sums =
      ⟨sums.intersection + (ys.map fun vertical ↦
          cellArea (unionOf expected ∩ unionOf predicted) horizontal vertical).sum,
        sums.union + (ys.map fun vertical ↦
          cellArea (unionOf expected ∪ unionOf predicted) horizontal vertical).sum⟩ := by
  induction ys generalizing sums with
  | nil => simp
  | cons vertical ys ih =>
    rw [List.foldl_cons, ih, addCell_eq, List.map_cons, List.map_cons, List.sum_cons,
      List.sum_cons]
    simp only [add_assoc]

theorem foldl_columns (xs ys : List (ℝ × ℝ)) (sums : Overlap ℝ) :
    xs.foldl (fun sums horizontal ↦ ys.foldl (addCell expected predicted horizontal) sums) sums =
      ⟨sums.intersection + (xs.map fun horizontal ↦ (ys.map fun vertical ↦
          cellArea (unionOf expected ∩ unionOf predicted) horizontal vertical).sum).sum,
        sums.union + (xs.map fun horizontal ↦ (ys.map fun vertical ↦
          cellArea (unionOf expected ∪ unionOf predicted) horizontal vertical).sum).sum⟩ := by
  induction xs generalizing sums with
  | nil => simp
  | cons horizontal xs ih =>
    rw [List.foldl_cons, ih, foldl_addCell, List.map_cons, List.map_cons, List.sum_cons,
      List.sum_cons]
    simp only [add_assoc]

/-- The loops sum up the areas of the intersection and of the union. -/
theorem sumCells_eq (expected predicted : List (NormalizedRect ℝ)) :
    sumCells expected predicted = ⟨volume.real (unionOf expected ∩ unionOf predicted),
      volume.real (unionOf expected ∪ unionOf predicted)⟩ := by
  have hexpected := aligned_unionOf (List.subset_append_left expected predicted)
  have hpredicted := aligned_unionOf (List.subset_append_right expected predicted)
  have hxs := pairwise_sortedSet ((expected ++ predicted).flatMap fun rect ↦ [rect.x, rect.right])
  have hys := pairwise_sortedSet ((expected ++ predicted).flatMap fun rect ↦ [rect.y, rect.bottom])
  rw [(hexpected.inter hpredicted).volume_real_eq hxs hys,
    (hexpected.union hpredicted).volume_real_eq hxs hys, sumCells, foldl_columns]
  simp only [zero_add]
  rfl

/-! ## 4. The quotient -/

theorem unionOf_nil : unionOf [] = ∅ := by
  ext point
  exact ⟨fun ⟨_, hrect, _⟩ ↦ absurd hrect List.not_mem_nil, fun hpoint ↦ hpoint.elim⟩

/-- Order and repetitions do not matter to a union. -/
theorem unionOf_congr {rects rects' : List (NormalizedRect ℝ)}
    (h : ∀ rect, rect ∈ rects' ↔ rect ∈ rects) : unionOf rects' = unionOf rects := by
  ext point
  exact exists_congr fun rect ↦ and_congr_left fun _ ↦ h rect

theorem unionOf_subset {rects : List (NormalizedRect ℝ)} (hvalid : ∀ rect ∈ rects, rect.Valid) :
    unionOf rects ⊆ unitSquare := by
  rintro point ⟨rect, hrect, ⟨hleft, hright⟩, htop, hbottom⟩
  have hrectangle := hvalid rect hrect
  exact ⟨⟨hrectangle.x.trans hleft, hright.trans hrectangle.right⟩,
    hrectangle.y.trans htop, hbottom.trans hrectangle.bottom⟩

theorem volume_unitSquare : volume (unitSquare : Set (ℝ × ℝ)) = 1 := by
  rw [unitSquare, Measure.volume_eq_prod, Measure.prod_prod, Real.volume_Icc, sub_zero,
    ENNReal.ofReal_one, one_mul]

/-- What lies in the unit square has an area. -/
theorem volume_ne_top {A : Set (ℝ × ℝ)} (h : A ⊆ unitSquare) : volume A ≠ ⊤ :=
  ne_top_of_le_ne_top (volume_unitSquare ▸ ENNReal.one_ne_top) (measure_mono h)

theorem volume_rect_pos {rect : NormalizedRect ℝ} (h : rect.Valid) : 0 < volume rect.toSet := by
  have hwidth : rect.right - rect.x = rect.width := add_sub_cancel_left _ _
  have hheight : rect.bottom - rect.y = rect.height := add_sub_cancel_left _ _
  have hbox : rect.toSet = Set.Icc rect.x rect.right ×ˢ Set.Icc rect.y rect.bottom := rfl
  rw [hbox, Measure.volume_eq_prod, Measure.prod_prod, Real.volume_Icc, Real.volume_Icc, hwidth,
    hheight]
  exact ENNReal.mul_pos (ENNReal.ofReal_pos.mpr h.width).ne' (ENNReal.ofReal_pos.mpr h.height).ne'

/-- Rectangles cover an area, unless there are none. -/
theorem volume_unionOf_pos {rects : List (NormalizedRect ℝ)} (hvalid : ∀ rect ∈ rects, rect.Valid)
    (hne : rects ≠ []) : 0 < volume.real (unionOf rects) := by
  obtain ⟨rect, hrect⟩ := List.exists_mem_of_ne_nil rects hne
  have hsubset : rect.toSet ⊆ unionOf rects := fun point hpoint ↦ ⟨rect, hrect, hpoint⟩
  have hpos := (volume_rect_pos (hvalid rect hrect)).trans_le (measure_mono hsubset)
  exact ENNReal.toReal_pos hpos.ne' (volume_ne_top (unionOf_subset hvalid))

/-- The quotient of areas that the loops compute, as a function of the two unions. -/
noncomputable def areaRatio (A B : Set (ℝ × ℝ)) : ℝ :=
  volume.real (A ∩ B) / volume.real (A ∪ B)

theorem areaRatio_mem {A B : Set (ℝ × ℝ)} (hA : A ⊆ unitSquare) (hB : B ⊆ unitSquare) :
    0 ≤ areaRatio A B ∧ areaRatio A B ≤ 1 := by
  have hle : volume.real (A ∩ B) ≤ volume.real (A ∪ B) :=
    measureReal_mono (Set.inter_subset_left.trans Set.subset_union_left)
      (volume_ne_top (Set.union_subset hA hB))
  exact ⟨div_nonneg measureReal_nonneg measureReal_nonneg, div_le_one_of_le₀ hle measureReal_nonneg⟩

theorem areaRatio_comm (A B : Set (ℝ × ℝ)) : areaRatio A B = areaRatio B A := by
  rw [areaRatio, areaRatio, Set.inter_comm, Set.union_comm]

/-- Two empty lists agree by convention; otherwise the quotient is that of the areas, and where one
list is empty the intersection is too. -/
theorem computeLocalizationIou_cases (expected predicted : List (NormalizedRect ℝ)) :
    computeLocalizationIou expected predicted =
      if expected = [] ∧ predicted = [] then 1
      else areaRatio (unionOf expected) (unionOf predicted) := by
  rw [computeLocalizationIou]
  split_ifs with hboth hone
  · rfl
  · have hinter : unionOf expected ∩ unionOf predicted = ∅ := by
      rcases hone with rfl | rfl
      · rw [unionOf_nil, Set.empty_inter]
      · rw [unionOf_nil, Set.inter_empty]
    rw [areaRatio, hinter, measureReal_empty, zero_div]
  · rw [sumCells_eq]
    rfl

/-- The lists that are empty can be told from the unions. -/
theorem unionOf_eq_empty {rects : List (NormalizedRect ℝ)} (hvalid : ∀ rect ∈ rects, rect.Valid) :
    unionOf rects = ∅ ↔ rects = [] := by
  constructor
  · intro hempty
    by_contra hne
    have hpos := volume_unionOf_pos hvalid hne
    rw [hempty, measureReal_empty] at hpos
    exact lt_irrefl 0 hpos
  · rintro rfl
    exact unionOf_nil

/-- The overlap is the area of the intersection over that of the union: never a quotient by zero,
between zero and one, the same from either side, and the same for lists with the same unions. -/
theorem computeLocalizationIou_spec (hexpected : ∀ rect ∈ expected, rect.Valid)
    (hpredicted : ∀ rect ∈ predicted, rect.Valid) :
    (expected = [] ∧ predicted = [] → computeLocalizationIou expected predicted = 1) ∧
    (expected = [] ∧ predicted ≠ [] ∨ expected ≠ [] ∧ predicted = [] →
      computeLocalizationIou expected predicted = 0) ∧
    (expected ≠ [] ∨ predicted ≠ [] →
      0 < (sumCells expected predicted).union ∧
      computeLocalizationIou expected predicted =
        volume.real (unionOf expected ∩ unionOf predicted) /
          volume.real (unionOf expected ∪ unionOf predicted)) ∧
    (0 ≤ computeLocalizationIou expected predicted ∧
      computeLocalizationIou expected predicted ≤ 1) ∧
    computeLocalizationIou expected predicted = computeLocalizationIou predicted expected ∧
    ∀ expected' predicted' : List (NormalizedRect ℝ),
      (∀ rect, rect ∈ expected' ↔ rect ∈ expected) ∧ (∀ rect, rect ∈ predicted' ↔ rect ∈ predicted) ∨
        ((∀ rect ∈ expected', rect.Valid) ∧ (∀ rect ∈ predicted', rect.Valid) ∧
          unionOf expected' = unionOf expected ∧ unionOf predicted' = unionOf predicted) →
      computeLocalizationIou expected' predicted' = computeLocalizationIou expected predicted := by
  have hratio := areaRatio_mem (unionOf_subset hexpected) (unionOf_subset hpredicted)
  refine ⟨fun hboth ↦ ?_, fun hone ↦ ?_, fun hsome ↦ ⟨?_, ?_⟩, ?_, ?_, ?_⟩
  · rw [computeLocalizationIou, if_pos hboth]
  · rw [computeLocalizationIou, if_neg (by tauto), if_pos (by tauto)]
  · rw [sumCells_eq]
    have hsubset : unionOf expected ∪ unionOf predicted ⊆ unitSquare :=
      Set.union_subset (unionOf_subset hexpected) (unionOf_subset hpredicted)
    rcases hsome with hne | hne
    · exact (volume_unionOf_pos hexpected hne).trans_le
        (measureReal_mono Set.subset_union_left (volume_ne_top hsubset))
    · exact (volume_unionOf_pos hpredicted hne).trans_le
        (measureReal_mono Set.subset_union_right (volume_ne_top hsubset))
  · rw [computeLocalizationIou_cases, if_neg (by tauto)]
    rfl
  · rw [computeLocalizationIou_cases]
    split_ifs
    · exact ⟨zero_le_one, le_rfl⟩
    · exact hratio
  · rw [computeLocalizationIou_cases, computeLocalizationIou_cases, areaRatio_comm]
    simp only [and_comm]
  · intro expected' predicted' hsame
    -- in either case the new lists are valid and have the same unions
    obtain ⟨hexpected', hpredicted', hunion, hunion'⟩ :
        (∀ rect ∈ expected', rect.Valid) ∧ (∀ rect ∈ predicted', rect.Valid) ∧
          unionOf expected' = unionOf expected ∧ unionOf predicted' = unionOf predicted := by
      rcases hsame with ⟨hmem, hmem'⟩ | hsame
      · exact ⟨fun rect h ↦ hexpected rect ((hmem rect).mp h),
          fun rect h ↦ hpredicted rect ((hmem' rect).mp h), unionOf_congr hmem, unionOf_congr hmem'⟩
      · exact hsame
    rw [computeLocalizationIou_cases, computeLocalizationIou_cases, hunion, hunion']
    simp only [← unionOf_eq_empty hexpected', ← unionOf_eq_empty hpredicted',
      ← unionOf_eq_empty hexpected, ← unionOf_eq_empty hpredicted, hunion, hunion']

/-- The left half of the square and the whole of it. -/
theorem leftHalf_overlap :
    0 < (sumCells [⟨0, 0, 1 / 2, 1⟩] [(⟨0, 0, 1, 1⟩ : NormalizedRect ℝ)]).union ∧
      computeLocalizationIou [⟨0, 0, 1 / 2, 1⟩] [⟨0, 0, 1, 1⟩] =
        volume.real (unionOf [⟨0, 0, 1 / 2, 1⟩] ∩ unionOf [⟨0, 0, 1, 1⟩]) /
          volume.real (unionOf [⟨0, 0, 1 / 2, 1⟩] ∪ unionOf [⟨0, 0, 1, 1⟩]) := by
  have hhalf : ∀ rect ∈ [(⟨0, 0, 1 / 2, 1⟩ : NormalizedRect ℝ)], rect.Valid := by
    intro rect hrect
    obtain rfl := List.mem_singleton.mp hrect
    constructor <;> norm_num [NormalizedRect.right, NormalizedRect.bottom]
  have hwhole : ∀ rect ∈ [(⟨0, 0, 1, 1⟩ : NormalizedRect ℝ)], rect.Valid := by
    intro rect hrect
    obtain rfl := List.mem_singleton.mp hrect
    constructor <;> norm_num [NormalizedRect.right, NormalizedRect.bottom]
  obtain ⟨-, -, hsome, -⟩ := computeLocalizationIou_spec hhalf hwhole
  exact hsome (.inl (List.cons_ne_nil _ _))

example : computeLocalizationIou [⟨0, 0, 1 / 2, 1⟩] [⟨1 / 4, 0, 1 / 2, 1 / 2⟩, ⟨0, 0, 1 / 4, 1⟩] =
    (3 / 5 : ℚ) := by decide +kernel

end Splitbind
