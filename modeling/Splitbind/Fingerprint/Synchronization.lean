import Mathlib.Data.Int.Range
import Mathlib.Data.Rat.Floor
import Splitbind.Library.Doubles
import Splitbind.Library.Rounding

/-!
# Synchronization — the translations of a page and what they leave to compare

A cyclic correlation knows a translation only up to a multiple of the period.  Its bounded aliases
are listed, and for each of them the two windows of the page and of the predicted pilot that show
the same samples.  Arithmetic is exact, the conversion of a period to a double too.
-/

namespace Splitbind

/-! ## 1. Aliases of a translation -/

section Aliases

variable {K : Type} [Field K] [LinearOrder K] [FloorRing K]

/-- `_bounded_translation_aliases`; `Doubles.below` is `math.nextafter(·, 0.0)`. -/
def boundedTranslationAliases (base : K) (period : Int) (bound : K) : List K :=
  if period ≤ 0 then []
  else
    let overlapBound := min bound (Doubles.below (period : K))
    let first := ⌈(-overlapBound - base) / period⌉
    let last := ⌊(overlapBound - base) / period⌋
    (Int.range first (last + 1)).map fun (offset : Int) ↦ base + offset * period

variable [IsStrictOrderedRing K]

/-- The end points of the loop are those of the bound. -/
theorem alias_bounds_iff {base overlapBound : K} {period : Int} (hperiod : 0 < period)
    (offset : Int) :
    ⌈(-overlapBound - base) / period⌉ ≤ offset ∧ offset ≤ ⌊(overlapBound - base) / period⌋ ↔
      |base + offset * period| ≤ overlapBound := by
  have hpos : (0 : K) < period := Int.cast_pos.mpr hperiod
  -- the division by a positive period keeps the order, and the rounding goes inwards
  rw [Int.ceil_le, Int.le_floor, div_le_iff₀ hpos, le_div_iff₀ hpos, abs_le]
  constructor
  · rintro ⟨hlow, hhigh⟩
    constructor <;> linarith
  · rintro ⟨hlow, hhigh⟩
    constructor <;> linarith

theorem pairwise_intRange (m n : Int) : (Int.range m n).Pairwise (· < ·) := by
  rw [Int.range, List.pairwise_map]
  exact List.pairwise_lt_range.imp fun h ↦ by omega

/-- The aliases are the values of the translation's class that the bound and the greatest double
below the period admit, in increasing order. -/
theorem boundedTranslationAliases_spec {bound : K} {period : Int} (base : K) (hperiod : 0 < period) :
    (∀ value, value ∈ boundedTranslationAliases base period bound ↔
        (∃ k : Int, value = base + k * period) ∧
          |value| ≤ min bound (Doubles.below (period : K))) ∧
      (boundedTranslationAliases base period bound).Pairwise (· < ·) := by
  have hpos : (0 : K) < period := Int.cast_pos.mpr hperiod
  simp only [boundedTranslationAliases, if_neg (not_le.mpr hperiod)]
  constructor
  · intro value
    simp only [List.mem_map, Int.mem_range_iff, Int.lt_add_one_iff, alias_bounds_iff hperiod]
    constructor
    · rintro ⟨offset, hbound, rfl⟩
      exact ⟨⟨offset, rfl⟩, hbound⟩
    · rintro ⟨⟨offset, rfl⟩, hbound⟩
      exact ⟨offset, hbound, rfl⟩
  · rw [List.pairwise_map]
    refine (pairwise_intRange _ _).imp fun {m n} h ↦ ?_
    have hcast : (m : K) < n := Int.cast_lt.mpr h
    exact add_lt_add_right (mul_lt_mul_of_pos_right hcast hpos) base

end Aliases

/-! ## 2. The overlap of two windows -/

/-- A `slice` with both ends. -/
structure Slice where
  start : Int
  stop : Int
deriving DecidableEq, Repr

/-- An end of a slice of `size` samples: a negative one counts from the end. -/
def Slice.clamp (size position : Int) : Int :=
  if position < 0 then max 0 (position + size) else min position size

/-- The positions a slice selects of `size` samples. -/
def Slice.positions (slice : Slice) (size : Int) : List Int :=
  Int.range (Slice.clamp size slice.start) (Slice.clamp size slice.stop)

/-- The slices of the signal and of the template along one axis. -/
def axisSlices (offset size : Int) : Slice × Slice :=
  if offset ≥ 0 then (⟨offset, size⟩, ⟨0, size - offset⟩) else (⟨0, size + offset⟩, ⟨-offset, size⟩)

section Overlap

variable {K : Type} [Field K] [LinearOrder K] [FloorRing K]

/-- The slices are those of the signal, rows first, and then those of the template. -/
def noncyclicOverlapSlices (translationX translationY : K) (width height : Int) :
    Option (Slice × Slice × Slice × Slice) :=
  let offsetX := Rounding.halfEven translationX
  let offsetY := Rounding.halfEven translationY
  if |offsetX| ≥ width ∨ |offsetY| ≥ height then none
  else
    let (signalX, predictedX) := axisSlices offsetX width
    let (signalY, predictedY) := axisSlices offsetY height
    some (signalY, signalX, predictedY, predictedX)

/-- The template's samples along one axis that the shift keeps inside the signal. -/
def axisOverlap (offset size : Int) : List Int :=
  Int.range (max 0 (-offset)) (min size (size - offset))

theorem mem_axisOverlap {offset size position : Int} :
    position ∈ axisOverlap offset size ↔
      (0 ≤ position ∧ position < size) ∧ 0 ≤ position + offset ∧ position + offset < size := by
  rw [axisOverlap, Int.mem_range_iff]
  omega

theorem map_add_intRange (m n offset : Int) :
    (Int.range m n).map (· + offset) = Int.range (m + offset) (n + offset) := by
  rw [Int.range, Int.range, List.map_map, show n + offset - (m + offset) = n - m by omega]
  exact List.map_congr_left fun r _ ↦ by
    show m + r + offset = m + offset + r
    omega

theorem Slice.positions_eq {slice : Slice} {size : Int}
    (hstart : 0 ≤ slice.start ∧ slice.start ≤ size) (hstop : 0 ≤ slice.stop ∧ slice.stop ≤ size) :
    slice.positions size = Int.range slice.start slice.stop := by
  have hclamp : ∀ position, 0 ≤ position ∧ position ≤ size → clamp size position = position := by
    intro position h
    rw [clamp, if_neg (by omega), min_eq_left h.2]
  rw [positions, hclamp _ hstart, hclamp _ hstop]

/-- What the two slices of one axis have to do with each other. -/
structure AxisPaired (signal predicted : Slice) (offset size : Int) : Prop where
  inside : (∀ position ∈ signal.positions size, 0 ≤ position ∧ position < size) ∧
    ∀ position ∈ predicted.positions size, 0 ≤ position ∧ position < size
  length_eq : (signal.positions size).length = (predicted.positions size).length
  paired : signal.positions size = (predicted.positions size).map (· + offset)
  whole : ∀ position, position ∈ predicted.positions size ↔
    (0 ≤ position ∧ position < size) ∧ 0 ≤ position + offset ∧ position + offset < size

/-- The template's slice is the overlap, and the signal's is the overlap shifted. -/
theorem axisSlices_positions {offset size : Int} (h : |offset| < size) :
    (axisSlices offset size).2.positions size = axisOverlap offset size ∧
      (axisSlices offset size).1.positions size = (axisOverlap offset size).map (· + offset) := by
  obtain ⟨hlow, hhigh⟩ := abs_lt.mp h
  rw [axisOverlap, map_add_intRange, axisSlices]
  -- a shift to the right cuts the front of the signal, one to the left that of the template
  split_ifs with hsign
  · rw [Slice.positions_eq (by dsimp only; omega) (by dsimp only; omega),
      Slice.positions_eq (by dsimp only; omega) (by dsimp only; omega)]
    dsimp only
    constructor <;> congr 1 <;> omega
  · rw [Slice.positions_eq (by dsimp only; omega) (by dsimp only; omega),
      Slice.positions_eq (by dsimp only; omega) (by dsimp only; omega)]
    dsimp only
    constructor <;> congr 1 <;> omega

theorem axisSlices_paired {offset size : Int} (h : |offset| < size) :
    AxisPaired (axisSlices offset size).1 (axisSlices offset size).2 offset size := by
  obtain ⟨hpredicted, hsignal⟩ := axisSlices_positions h
  refine ⟨⟨?_, ?_⟩, ?_, ?_, ?_⟩
  · rw [hsignal, List.forall_mem_map]
    exact fun position hmem ↦ (mem_axisOverlap.mp hmem).2
  · rw [hpredicted]
    exact fun position hmem ↦ (mem_axisOverlap.mp hmem).1
  · rw [hsignal, hpredicted, List.length_map]
  · rw [hsignal, hpredicted]
  · rw [hpredicted]
    exact fun position ↦ mem_axisOverlap

/-- A shift by less than the size leaves a sample, and no other one does. -/
theorem exists_axisOverlap {offset size : Int} :
    |offset| < size ↔ ∃ position : Int,
      (0 ≤ position ∧ position < size) ∧ 0 ≤ position + offset ∧ position + offset < size := by
  rw [abs_lt]
  constructor
  · rintro ⟨hlow, hhigh⟩
    exact ⟨max 0 (-offset), by omega, by omega, by omega⟩
  · rintro ⟨position, hinside, hshifted⟩
    omega

/-- The windows are those of the axes, unless one of the axes has no overlap. -/
theorem noncyclicOverlapSlices_spec (translationX translationY : K) (width height : Int) :
    let dx := Rounding.halfEven translationX
    let dy := Rounding.halfEven translationY
    (noncyclicOverlapSlices translationX translationY width height = none ↔
        ¬ ∃ y x : Int, ((0 ≤ y ∧ y < height) ∧ 0 ≤ y + dy ∧ y + dy < height) ∧
          (0 ≤ x ∧ x < width) ∧ 0 ≤ x + dx ∧ x + dx < width) ∧
      ∀ signalY signalX predictedY predictedX,
        noncyclicOverlapSlices translationX translationY width height =
            some (signalY, signalX, predictedY, predictedX) →
          AxisPaired signalY predictedY dy height ∧ AxisPaired signalX predictedX dx width := by
  intro dx dy
  -- the axes are independent, so a common sample is one along each of them
  have hoverlap : (∃ y x : Int, ((0 ≤ y ∧ y < height) ∧ 0 ≤ y + dy ∧ y + dy < height) ∧
      (0 ≤ x ∧ x < width) ∧ 0 ≤ x + dx ∧ x + dx < width) ↔ |dy| < height ∧ |dx| < width := by
    rw [exists_axisOverlap, exists_axisOverlap]
    exact exists_and_exists_comm.symm
  rw [hoverlap]
  by_cases hnone : |dx| ≥ width ∨ |dy| ≥ height
  · have hslices : noncyclicOverlapSlices translationX translationY width height = none :=
      if_pos hnone
    rw [hslices]
    exact ⟨iff_of_true rfl (by omega), fun _ _ _ _ h ↦ nomatch h⟩
  · have hslices : noncyclicOverlapSlices translationX translationY width height =
        some ((axisSlices dy height).1, (axisSlices dx width).1, (axisSlices dy height).2,
          (axisSlices dx width).2) := if_neg hnone
    rw [hslices]
    refine ⟨iff_of_false (by simp) (by omega), fun signalY signalX predictedY predictedX h ↦ ?_⟩
    cases h
    exact ⟨axisSlices_paired (by omega), axisSlices_paired (by omega)⟩

end Overlap

/-! ## 3. Both together -/

section Complete

variable {K : Type} [Field K] [LinearOrder K] [FloorRing K] [IsStrictOrderedRing K]

/-- **Translation aliases and overlaps are complete.** -/
theorem translations_complete :
    (∀ (base bound : K) (period : Int), 0 < period →
      ∃ limit : K, IsGreatest {x : K | Doubles.IsDouble x ∧ x < period} limit ∧
        (∀ value, value ∈ boundedTranslationAliases base period bound ↔
          (∃ k : Int, value = base + k * period) ∧ |value| ≤ min bound limit) ∧
        (boundedTranslationAliases base period bound).Pairwise (· < ·)) ∧
    ∀ (translationX translationY : K) (width height : Int),
      let dx := Rounding.halfEven translationX
      let dy := Rounding.halfEven translationY
      (noncyclicOverlapSlices translationX translationY width height = none ↔
          ¬ ∃ y x : Int, ((0 ≤ y ∧ y < height) ∧ 0 ≤ y + dy ∧ y + dy < height) ∧
            (0 ≤ x ∧ x < width) ∧ 0 ≤ x + dx ∧ x + dx < width) ∧
        ∀ signalY signalX predictedY predictedX,
          noncyclicOverlapSlices translationX translationY width height =
              some (signalY, signalX, predictedY, predictedX) →
            AxisPaired signalY predictedY dy height ∧ AxisPaired signalX predictedX dx width := by
  constructor
  · intro base bound period hperiod
    obtain ⟨hmem, hincreasing⟩ := boundedTranslationAliases_spec base hperiod
    exact ⟨_, Doubles.isGreatest_below (Int.cast_pos.mpr hperiod), hmem, hincreasing⟩
  · exact noncyclicOverlapSlices_spec

/-- Half a period ahead there are two aliases, both on the bound. -/
theorem translations_complete_half :
    ∃ limit : ℚ, IsGreatest {x : ℚ | Doubles.IsDouble x ∧ x < (4 : Int)} limit ∧
      (∀ value, value ∈ boundedTranslationAliases (2 : ℚ) 4 2 ↔
        (∃ k : Int, value = 2 + k * (4 : Int)) ∧ |value| ≤ min 2 limit) ∧
      (boundedTranslationAliases (2 : ℚ) 4 2).Pairwise (· < ·) :=
  translations_complete.1 2 2 4 (by decide)

end Complete

end Splitbind
