import Mathlib.Algebra.Order.Field.Basic
import Mathlib.Order.Bounds.Basic
import Mathlib.Order.Interval.Set.Basic
import Mathlib.Tactic.Linarith
import Mathlib.Tactic.Ring

/-!
# Projective maps — the image of a box lies between the images of its corners

A quotient of two affine functions whose denominator is positive on the corners of a box is defined
on the whole box, and takes its least and its greatest value there in a corner.
-/

namespace Projective

variable {K : Type*} [Field K] [LinearOrder K] [IsStrictOrderedRing K]

/-- An affine function of the plane. -/
structure Affine (K : Type*) where
  dx : K
  dy : K
  constant : K

def Affine.eval {K : Type*} [Field K] (f : Affine K) (point : K × K) : K :=
  f.dx * point.1 + f.dy * point.2 + f.constant

/-- The bounds of a box. -/
structure Box (K : Type*) where
  left : K
  right : K
  top : K
  bottom : K

namespace Box

def toSet (box : Box K) : Set (K × K) := Set.Icc box.left box.right ×ˢ Set.Icc box.top box.bottom

def corners {K : Type*} (box : Box K) : List (K × K) :=
  [(box.left, box.top), (box.right, box.top), (box.right, box.bottom), (box.left, box.bottom)]

omit [Field K] [IsStrictOrderedRing K] in
theorem corners_subset {box : Box K} (hwidth : box.left ≤ box.right) (hheight : box.top ≤ box.bottom) :
    ∀ corner ∈ box.corners, corner ∈ box.toSet := by
  intro corner hcorner
  simp only [corners, List.mem_cons, List.not_mem_nil, or_false] at hcorner
  rcases hcorner with rfl | rfl | rfl | rfl
  · exact ⟨⟨le_rfl, hwidth⟩, le_rfl, hheight⟩
  · exact ⟨⟨hwidth, le_rfl⟩, le_rfl, hheight⟩
  · exact ⟨⟨hwidth, le_rfl⟩, hheight, le_rfl⟩
  · exact ⟨⟨le_rfl, hwidth⟩, hheight, le_rfl⟩

end Box

/-- What an affine function is at least on the corners, it is on the box. -/
theorem Affine.le_eval {f : Affine K} {box : Box K} {bound : K}
    (hcorners : ∀ corner ∈ box.corners, bound ≤ f.eval corner) {point : K × K}
    (hpoint : point ∈ box.toSet) : bound ≤ f.eval point := by
  obtain ⟨⟨hleft, hright⟩, htop, hbottom⟩ := hpoint
  -- the corner that both slopes point away from
  have hcorner : ∀ corner ∈ box.corners, f.dx * corner.1 ≤ f.dx * point.1 →
      f.dy * corner.2 ≤ f.dy * point.2 → bound ≤ f.eval point := by
    intro corner hmem hx hy
    have hbound := hcorners corner hmem
    simp only [Affine.eval] at hbound ⊢
    linarith
  rcases le_total 0 f.dx with hx | hx <;> rcases le_total 0 f.dy with hy | hy
  · exact hcorner (box.left, box.top) (by simp [Box.corners])
      (mul_le_mul_of_nonneg_left hleft hx) (mul_le_mul_of_nonneg_left htop hy)
  · exact hcorner (box.left, box.bottom) (by simp [Box.corners])
      (mul_le_mul_of_nonneg_left hleft hx) (mul_le_mul_of_nonpos_left hbottom hy)
  · exact hcorner (box.right, box.top) (by simp [Box.corners])
      (mul_le_mul_of_nonpos_left hright hx) (mul_le_mul_of_nonneg_left htop hy)
  · exact hcorner (box.right, box.bottom) (by simp [Box.corners])
      (mul_le_mul_of_nonpos_left hright hx) (mul_le_mul_of_nonpos_left hbottom hy)

/-- A positive denominator at the corners is positive on the box. -/
theorem Affine.eval_pos {f : Affine K} {box : Box K}
    (hcorners : ∀ corner ∈ box.corners, 0 < f.eval corner) {point : K × K}
    (hpoint : point ∈ box.toSet) : 0 < f.eval point := by
  have hmem := hcorners
  simp only [Box.corners, List.mem_cons, List.not_mem_nil, or_false, forall_eq_or_imp,
    forall_eq] at hmem
  obtain ⟨h0, h1, h2, h3⟩ := hmem
  let least := min (min (f.eval (box.left, box.top)) (f.eval (box.right, box.top)))
    (min (f.eval (box.right, box.bottom)) (f.eval (box.left, box.bottom)))
  have hleast : 0 < least := lt_min (lt_min h0 h1) (lt_min h2 h3)
  refine lt_of_lt_of_le hleast (Affine.le_eval (fun corner hcorner ↦ ?_) hpoint)
  simp only [Box.corners, List.mem_cons, List.not_mem_nil, or_false] at hcorner
  rcases hcorner with rfl | rfl | rfl | rfl
  · exact (min_le_left _ _).trans (min_le_left _ _)
  · exact (min_le_left _ _).trans (min_le_right _ _)
  · exact (min_le_right _ _).trans (min_le_left _ _)
  · exact (min_le_right _ _).trans (min_le_right _ _)

variable {numerator denominator : Affine K} {box : Box K} {bound : K} {point : K × K}

/-- A quotient is at least what it is at least on the corners. -/
theorem le_quotient (hpos : ∀ corner ∈ box.corners, 0 < denominator.eval corner)
    (hcorners : ∀ corner ∈ box.corners, bound ≤ numerator.eval corner / denominator.eval corner)
    (hpoint : point ∈ box.toSet) : bound ≤ numerator.eval point / denominator.eval point := by
  -- clear the denominator: the difference is affine
  let difference : Affine K := ⟨numerator.dx - bound * denominator.dx,
    numerator.dy - bound * denominator.dy, numerator.constant - bound * denominator.constant⟩
  have heval : ∀ point, difference.eval point = numerator.eval point - bound * denominator.eval point := by
    intro point
    simp only [difference, Affine.eval]
    ring
  have hdifference : ∀ corner ∈ box.corners, 0 ≤ difference.eval corner := by
    intro corner hcorner
    rw [heval, sub_nonneg]
    exact (le_div_iff₀ (hpos corner hcorner)).mp (hcorners corner hcorner)
  have hnonneg := Affine.le_eval hdifference hpoint
  rw [heval, sub_nonneg] at hnonneg
  exact (le_div_iff₀ (Affine.eval_pos hpos hpoint)).mpr hnonneg

/-- A quotient is at most what it is at most on the corners. -/
theorem quotient_le (hpos : ∀ corner ∈ box.corners, 0 < denominator.eval corner)
    (hcorners : ∀ corner ∈ box.corners, numerator.eval corner / denominator.eval corner ≤ bound)
    (hpoint : point ∈ box.toSet) : numerator.eval point / denominator.eval point ≤ bound := by
  let negated : Affine K := ⟨-numerator.dx, -numerator.dy, -numerator.constant⟩
  have heval : ∀ point, negated.eval point / denominator.eval point =
      -(numerator.eval point / denominator.eval point) := by
    intro point
    rw [← neg_div]
    congr 1
    simp only [negated, Affine.eval]
    ring
  have hnegated : -bound ≤ negated.eval point / denominator.eval point := by
    refine le_quotient hpos (fun corner hcorner ↦ ?_) hpoint
    rw [heval]
    exact neg_le_neg (hcorners corner hcorner)
  rw [heval] at hnegated
  exact neg_le_neg_iff.mp hnegated

/-- The least value on the corners is the least value on the box. -/
theorem isLeast_quotient (hwidth : box.left ≤ box.right) (hheight : box.top ≤ box.bottom)
    (hpos : ∀ corner ∈ box.corners, 0 < denominator.eval corner)
    (hcorner : ∃ corner ∈ box.corners, numerator.eval corner / denominator.eval corner = bound)
    (hcorners : ∀ corner ∈ box.corners, bound ≤ numerator.eval corner / denominator.eval corner) :
    IsLeast ((fun point ↦ numerator.eval point / denominator.eval point) '' box.toSet) bound := by
  obtain ⟨corner, hmem, hvalue⟩ := hcorner
  refine ⟨⟨corner, Box.corners_subset hwidth hheight corner hmem, hvalue⟩, ?_⟩
  rintro - ⟨point, hpoint, rfl⟩
  exact le_quotient hpos hcorners hpoint

/-- The greatest value on the corners is the greatest value on the box. -/
theorem isGreatest_quotient (hwidth : box.left ≤ box.right) (hheight : box.top ≤ box.bottom)
    (hpos : ∀ corner ∈ box.corners, 0 < denominator.eval corner)
    (hcorner : ∃ corner ∈ box.corners, numerator.eval corner / denominator.eval corner = bound)
    (hcorners : ∀ corner ∈ box.corners, numerator.eval corner / denominator.eval corner ≤ bound) :
    IsGreatest ((fun point ↦ numerator.eval point / denominator.eval point) '' box.toSet) bound := by
  obtain ⟨corner, hmem, hvalue⟩ := hcorner
  refine ⟨⟨corner, Box.corners_subset hwidth hheight corner hmem, hvalue⟩, ?_⟩
  rintro - ⟨point, hpoint, rfl⟩
  exact quotient_le hpos hcorners hpoint

end Projective
