import Mathlib.Algebra.Order.Chebyshev
import Mathlib.Analysis.SpecialFunctions.Trigonometric.Basic
import Mathlib.LinearAlgebra.Matrix.NonsingularInverse

/-!
# The cosine transform — an orthonormal change of basis, and what it does to errors

The rows of the transform are scaled cosines at odd multiples of an angle.  They are orthonormal, so
the transform of a square is undone by its transpose.  A coefficient moves by at most as many times
the largest error of a sample as the square has rows, and a sample by a small share of the errors of
all coefficients.
-/

open Real

namespace Cosine

/-! ## 1. Sums of cosines -/

/-- The angle of a frequency; the samples are at its odd multiples. -/
noncomputable def angle (n k : ℕ) : ℝ := π * k / (((2 * n : ℕ) : ℝ))

/-- A whole number of half waves sums to nothing. -/
theorem sum_cos_eq_zero {n k : ℕ} (hpos : 0 < k) (hlt : k < 2 * n) :
    ∑ p ∈ Finset.range n, cos ((2 * p + 1) * angle n k) = 0 := by
  have hn : (0 : ℝ) < ((2 * n : ℕ) : ℝ) := Nat.cast_pos.mpr (by omega)
  have hk : (0 : ℝ) < k := Nat.cast_pos.mpr hpos
  have hsin : 0 < sin (angle n k) := by
    apply sin_pos_of_pos_of_lt_pi
    · exact div_pos (mul_pos pi_pos hk) hn
    · rw [angle, div_lt_iff₀ hn]
      exact mul_lt_mul_of_pos_left (Nat.cast_lt.mpr hlt) pi_pos
  -- times the sine of the angle, a cosine is a difference of sines, and the differences telescope
  have hstep : ∀ p : ℕ, 2 * sin (angle n k) * cos ((2 * p + 1) * angle n k) =
      sin (2 * ((p + 1 : ℕ) : ℝ) * angle n k) - sin (2 * (p : ℝ) * angle n k) := by
    intro p
    have hup : 2 * ((p + 1 : ℕ) : ℝ) * angle n k =
        (2 * p + 1) * angle n k + angle n k := by
      push_cast
      ring
    have hdown : 2 * (p : ℝ) * angle n k = (2 * p + 1) * angle n k - angle n k := by ring
    rw [hup, hdown, sin_add, sin_sub]
    ring
  have hlast : sin (2 * (n : ℝ) * angle n k) = 0 := by
    have hwhole : 2 * (n : ℝ) * angle n k = k * π := by
      have hne : (n : ℝ) ≠ 0 := Nat.cast_ne_zero.mpr (by omega)
      unfold angle
      push_cast
      field_simp
    rw [hwhole, sin_nat_mul_pi]
  have htelescope : 2 * sin (angle n k) * ∑ p ∈ Finset.range n, cos ((2 * p + 1) * angle n k) = 0 := by
    rw [Finset.mul_sum, Finset.sum_congr rfl fun p _ ↦ hstep p,
      Finset.sum_range_sub fun p : ℕ ↦ sin (2 * (p : ℝ) * angle n k), hlast]
    simp
  have hne : 2 * sin (angle n k) ≠ 0 := mul_ne_zero two_ne_zero hsin.ne'
  exact (mul_eq_zero.mp htelescope).resolve_left hne

/-- Two frequencies: the cosines of their difference and of their sum. -/
theorem sum_cos_mul_cos {n f g : ℕ} (hle : g ≤ f) :
    2 * ∑ p ∈ Finset.range n, cos ((2 * p + 1) * angle n f) * cos ((2 * p + 1) * angle n g) =
      ∑ p ∈ Finset.range n, cos ((2 * p + 1) * angle n (f - g)) +
        ∑ p ∈ Finset.range n, cos ((2 * p + 1) * angle n (f + g)) := by
  rw [Finset.mul_sum, ← Finset.sum_add_distrib]
  apply Finset.sum_congr rfl
  intro p _
  have hdifference : (2 * p + 1) * angle n (f - g) =
      (2 * p + 1) * angle n f - (2 * p + 1) * angle n g := by
    unfold angle
    rw [Nat.cast_sub hle]
    ring
  have hsum : (2 * p + 1) * angle n (f + g) =
      (2 * p + 1) * angle n f + (2 * p + 1) * angle n g := by
    unfold angle
    push_cast
    ring
  rw [hdifference, hsum, cos_sub, cos_add]
  ring

/-- At frequency zero every cosine is one. -/
theorem sum_cos_zero (n : ℕ) : ∑ p ∈ Finset.range n, cos ((2 * p + 1) * angle n 0) = n := by
  simp [angle]

/-! ## 2. The matrix -/

/-- The factor of a row. -/
noncomputable def scale (n f : ℕ) : ℝ :=
  if f = 0 then √(((1 : ℕ) : ℝ) / n) else √(((2 : ℕ) : ℝ) / n)

/-- The rows of the transform are its frequencies, the columns are the samples. -/
noncomputable def matrix (n : ℕ) : Matrix (Fin n) (Fin n) ℝ :=
  Matrix.of fun f p ↦
    scale n f * cos (π * ((2 * p.val + 1 : ℕ) : ℝ) * (f.val : ℝ) / (((2 * n : ℕ) : ℝ)))

theorem matrix_apply {n : ℕ} (f p : Fin n) :
    matrix n f p = scale n f * cos ((2 * (p.val : ℝ) + 1) * angle n f) := by
  show scale n f * cos (π * ((2 * p.val + 1 : ℕ) : ℝ) * (f.val : ℝ) / (((2 * n : ℕ) : ℝ))) = _
  unfold angle
  push_cast
  congr 2
  ring

theorem scale_sq {n : ℕ} (f : ℕ) :
    scale n f * scale n f = if f = 0 then 1 / (n : ℝ) else 2 / (n : ℝ) := by
  unfold scale
  split_ifs
  · rw [mul_self_sqrt (by positivity), Nat.cast_one]
  · rw [mul_self_sqrt (by positivity), Nat.cast_ofNat]

/-- The sum of two rows' products is a sum over the samples. -/
theorem row_mul_row {n : ℕ} (f g : Fin n) :
    ∑ p, matrix n f p * matrix n g p = scale n f * scale n g *
      ∑ p ∈ Finset.range n, cos ((2 * p + 1) * angle n f) * cos ((2 * p + 1) * angle n g) := by
  rw [Finset.mul_sum, ← Fin.sum_univ_eq_sum_range
    (fun p : ℕ ↦ scale n f * scale n g *
      (cos ((2 * (p : ℝ) + 1) * angle n f) * cos ((2 * (p : ℝ) + 1) * angle n g))) n]
  apply Finset.sum_congr rfl
  intro p _
  rw [matrix_apply, matrix_apply]
  ring

/-- Different rows are orthogonal. -/
theorem row_mul_row_of_lt {n : ℕ} {f g : Fin n} (hlt : g < f) :
    ∑ p, matrix n f p * matrix n g p = 0 := by
  have hfg : g.val < f.val := hlt
  have hf := f.isLt
  have hg := g.isLt
  have hdouble := sum_cos_mul_cos (n := n) hfg.le
  rw [sum_cos_eq_zero (by omega) (by omega), sum_cos_eq_zero (by omega) (by omega), add_zero]
    at hdouble
  rw [row_mul_row, (mul_eq_zero.mp hdouble).resolve_left two_ne_zero, mul_zero]

/-- Every row has length one. -/
theorem row_mul_self {n : ℕ} (f : Fin n) : ∑ p, matrix n f p * matrix n f p = 1 := by
  have hf := f.isLt
  have hn : (n : ℝ) ≠ 0 := Nat.cast_ne_zero.mpr (by omega)
  have hdouble := sum_cos_mul_cos (n := n) (le_refl f.val)
  rw [Nat.sub_self, sum_cos_zero] at hdouble
  rw [row_mul_row, scale_sq]
  split_ifs with hzero
  · -- the constant row
    rw [hzero, Nat.add_zero, sum_cos_zero] at hdouble
    have hsum : ∑ p ∈ Finset.range n, cos ((2 * p + 1) * angle n 0) *
        cos ((2 * p + 1) * angle n 0) = n := by linarith
    rw [hzero, hsum]
    exact one_div_mul_cancel hn
  · rw [sum_cos_eq_zero (by omega) (by omega), add_zero] at hdouble
    have hsum : ∑ p ∈ Finset.range n, cos ((2 * p + 1) * angle n f) *
        cos ((2 * p + 1) * angle n f) = n / 2 := by linarith
    rw [hsum]
    field_simp

/-- The rows are orthonormal. -/
theorem matrix_mul_transpose (n : ℕ) : matrix n * (matrix n).transpose = 1 := by
  ext f g
  rw [Matrix.mul_apply, Matrix.one_apply]
  simp only [Matrix.transpose_apply]
  rcases lt_trichotomy f g with hlt | rfl | hlt
  · rw [if_neg hlt.ne]
    simp only [mul_comm (matrix n f _)]
    exact row_mul_row_of_lt hlt
  · rw [if_pos rfl]
    exact row_mul_self f
  · rw [if_neg hlt.ne']
    exact row_mul_row_of_lt hlt

theorem transpose_mul_matrix (n : ℕ) : (matrix n).transpose * matrix n = 1 :=
  mul_eq_one_comm.mp (matrix_mul_transpose n)

/-! ## 3. The transform of a square -/

noncomputable def transform {n : ℕ} (block : Matrix (Fin n) (Fin n) ℝ) :
    Matrix (Fin n) (Fin n) ℝ :=
  matrix n * block * (matrix n).transpose

noncomputable def inverse {n : ℕ} (coefficients : Matrix (Fin n) (Fin n) ℝ) :
    Matrix (Fin n) (Fin n) ℝ :=
  (matrix n).transpose * coefficients * matrix n

/-- The transform takes back what its inverse makes of coefficients. -/
theorem transform_inverse {n : ℕ} (coefficients : Matrix (Fin n) (Fin n) ℝ) :
    transform (inverse coefficients) = coefficients := by
  calc transform (inverse coefficients)
      = matrix n * (matrix n).transpose * coefficients * (matrix n * (matrix n).transpose) := by
        unfold transform inverse
        simp only [Matrix.mul_assoc]
    _ = coefficients := by rw [matrix_mul_transpose, Matrix.one_mul, Matrix.mul_one]

theorem inverse_transform {n : ℕ} (block : Matrix (Fin n) (Fin n) ℝ) :
    inverse (transform block) = block := by
  calc inverse (transform block)
      = (matrix n).transpose * matrix n * block * ((matrix n).transpose * matrix n) := by
        unfold transform inverse
        simp only [Matrix.mul_assoc]
    _ = block := by rw [transpose_mul_matrix, Matrix.one_mul, Matrix.mul_one]

theorem transform_sub {n : ℕ} (block other : Matrix (Fin n) (Fin n) ℝ) :
    transform block - transform other = transform (block - other) := by
  unfold transform
  rw [Matrix.mul_sub, Matrix.sub_mul]

theorem inverse_sub {n : ℕ} (coefficients other : Matrix (Fin n) (Fin n) ℝ) :
    inverse coefficients - inverse other = inverse (coefficients - other) := by
  unfold inverse
  rw [Matrix.mul_sub, Matrix.sub_mul]

/-- The samples of a row but the first sum to nothing. -/
theorem sum_row {n : ℕ} (f : Fin n) : ∑ p, matrix n f p = if f.val = 0 then √n else 0 := by
  have hsum : ∑ p, matrix n f p =
      scale n f * ∑ p ∈ Finset.range n, cos ((2 * p + 1) * angle n f) := by
    rw [Finset.mul_sum, Finset.sum_range]
    exact Finset.sum_congr rfl fun p _ ↦ matrix_apply f p
  have hlt := f.isLt
  rw [hsum]
  split_ifs with hzero
  · have hn : (0 : ℝ) < n := Nat.cast_pos.mpr (by omega)
    rw [hzero, sum_cos_zero, scale, if_pos rfl, Nat.cast_one, Real.sqrt_div zero_le_one,
      Real.sqrt_one, one_div_mul_eq_div, Real.div_sqrt]
  · rw [sum_cos_eq_zero (by omega) (by omega), mul_zero]

/-- A constant square has nothing but a mean. -/
theorem transform_const {n : ℕ} (v : ℝ) (f g : Fin n) :
    transform (Matrix.of fun _ _ ↦ v) f g = if f.val = 0 ∧ g.val = 0 then n * v else 0 := by
  have hentry : transform (Matrix.of fun _ _ ↦ v) f g =
      (∑ p, matrix n f p) * v * ∑ q, matrix n g q := by
    simp only [transform, Matrix.mul_apply, Matrix.of_apply, Matrix.transpose_apply,
      ← Finset.sum_mul, ← Finset.mul_sum]
  rw [hentry, sum_row, sum_row]
  by_cases hf : f.val = 0
  · by_cases hg : g.val = 0
    · rw [if_pos hf, if_pos hg, if_pos ⟨hf, hg⟩, mul_right_comm,
        Real.mul_self_sqrt (Nat.cast_nonneg n)]
    · rw [if_neg hg, mul_zero]
      exact (if_neg fun h ↦ hg h.2).symm
  · rw [if_neg hf, zero_mul, zero_mul]
    exact (if_neg fun h ↦ hf h.1).symm

/-! ## 4. Errors -/

/-- The absolute values of a row sum to the root of its length at most. -/
theorem sum_abs_row_le {n : ℕ} (f : Fin n) : ∑ p, |matrix n f p| ≤ √n := by
  have hsquare : (∑ p, |matrix n f p|) ^ 2 ≤ (n : ℝ) := by
    calc (∑ p, |matrix n f p|) ^ 2
        ≤ (Finset.univ : Finset (Fin n)).card * ∑ p, |matrix n f p| ^ 2 :=
          sq_sum_le_card_mul_sum_sq
      _ = n * ∑ p, matrix n f p * matrix n f p := by
          rw [Finset.card_univ, Fintype.card_fin]
          simp only [sq, abs_mul_abs_self]
      _ = n := by rw [row_mul_self, mul_one]
  exact le_sqrt_of_sq_le hsquare

/-- A coefficient of a small square is small. -/
theorem abs_transform_le {n : ℕ} {block : Matrix (Fin n) (Fin n) ℝ} {ε : ℝ} (hε : 0 ≤ ε)
    (hblock : ∀ i j, |block i j| ≤ ε) (f g : Fin n) : |transform block f g| ≤ n * ε := by
  have hentry : transform block f g =
      ∑ j, ∑ i, matrix n f i * block i j * matrix n g j := by
    show ((matrix n * block) * (matrix n).transpose) f g = _
    rw [Matrix.mul_apply]
    apply Finset.sum_congr rfl
    intro j _
    rw [Matrix.mul_apply, Finset.sum_mul]
    rfl
  calc |transform block f g|
      ≤ ∑ j, ∑ i, |matrix n f i| * ε * |matrix n g j| := by
        rw [hentry]
        refine (Finset.abs_sum_le_sum_abs _ _).trans (Finset.sum_le_sum fun j _ ↦ ?_)
        refine (Finset.abs_sum_le_sum_abs _ _).trans (Finset.sum_le_sum fun i _ ↦ ?_)
        rw [abs_mul, abs_mul]
        have hi := hblock i j
        gcongr
    _ = ε * ((∑ i, |matrix n f i|) * ∑ j, |matrix n g j|) := by
        rw [Finset.sum_mul_sum, Finset.sum_comm, Finset.mul_sum]
        apply Finset.sum_congr rfl
        intro i _
        rw [Finset.mul_sum]
        apply Finset.sum_congr rfl
        intro j _
        ring
    _ ≤ ε * (√n * √n) := by
        have hf := sum_abs_row_le f
        have hg := sum_abs_row_le g
        have hsum : 0 ≤ ∑ j, |matrix n g j| := Finset.sum_nonneg fun j _ ↦ abs_nonneg _
        gcongr
    _ = n * ε := by rw [mul_self_sqrt (Nat.cast_nonneg n), mul_comm]

theorem scale_nonneg (n f : ℕ) : 0 ≤ scale n f := by
  unfold scale
  split_ifs
  · exact sqrt_nonneg _
  · exact sqrt_nonneg _

/-- The entries of the matrix are small. -/
theorem abs_matrix_le {n : ℕ} (f p : Fin n) : |matrix n f p| ≤ √(2 / n) := by
  have hscale : scale n f ≤ √(2 / n) := by
    unfold scale
    split_ifs
    · apply sqrt_le_sqrt
      push_cast
      gcongr
      norm_num
    · push_cast
      exact le_rfl
  rw [matrix_apply, abs_mul, abs_of_nonneg (scale_nonneg n f)]
  calc scale n f * |cos ((2 * (p.val : ℝ) + 1) * angle n f)|
      ≤ scale n f * 1 := by
        have hcos := abs_cos_le_one ((2 * (p.val : ℝ) + 1) * angle n f)
        have hnonneg := scale_nonneg n f
        gcongr
    _ ≤ √(2 / n) := by rwa [mul_one]

/-- A sample is a small share of all coefficients. -/
theorem abs_inverse_le {n : ℕ} (coefficients : Matrix (Fin n) (Fin n) ℝ) (i j : Fin n) :
    |inverse coefficients i j| ≤ 2 / n * ∑ g, ∑ f, |coefficients f g| := by
  have hentry : inverse coefficients i j =
      ∑ g, ∑ f, matrix n f i * coefficients f g * matrix n g j := by
    show (((matrix n).transpose * coefficients) * matrix n) i j = _
    rw [Matrix.mul_apply]
    apply Finset.sum_congr rfl
    intro g _
    rw [Matrix.mul_apply, Finset.sum_mul]
    rfl
  have hnonneg : (0 : ℝ) ≤ 2 / n := by positivity
  rw [hentry, Finset.mul_sum]
  refine (Finset.abs_sum_le_sum_abs _ _).trans (Finset.sum_le_sum fun g _ ↦ ?_)
  rw [Finset.mul_sum]
  refine (Finset.abs_sum_le_sum_abs _ _).trans (Finset.sum_le_sum fun f _ ↦ ?_)
  have hf := abs_matrix_le f i
  have hg := abs_matrix_le g j
  calc |matrix n f i * coefficients f g * matrix n g j|
      = |matrix n f i| * |matrix n g j| * |coefficients f g| := by
        rw [abs_mul, abs_mul]
        ring
    _ ≤ √(2 / n) * √(2 / n) * |coefficients f g| := by gcongr
    _ = 2 / n * |coefficients f g| := by rw [mul_self_sqrt hnonneg]

end Cosine
