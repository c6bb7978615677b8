import Mathlib.Algebra.Order.Field.Basic
import Mathlib.Algebra.Order.Floor.Ring
import Mathlib.Tactic.Linarith

/-!
# Rounding — the nearest integer of an element of an ordered field
-/

namespace Rounding

variable {K : Type} [Field K] [LinearOrder K] [IsStrictOrderedRing K] [FloorRing K]

/-- The nearest integer, and of two nearest ones the even one. -/
def halfEven {K : Type} [Field K] [LinearOrder K] [FloorRing K] (q : K) : ℤ :=
  if q - ⌊q⌋ < ⌊q⌋ + 1 - q then ⌊q⌋
  else if ⌊q⌋ + 1 - q < q - ⌊q⌋ then ⌊q⌋ + 1
  else if ⌊q⌋ % 2 = 0 then ⌊q⌋ else ⌊q⌋ + 1

/-- An integer is its own nearest one. -/
@[simp] theorem halfEven_intCast (n : ℤ) : halfEven (n : K) = n := by
  have hnear : ((n : K) - ⌊(n : K)⌋) < ⌊(n : K)⌋ + 1 - n := by
    rw [Int.floor_intCast]
    linarith
  rw [halfEven, if_pos hnear, Int.floor_intCast]

omit [IsStrictOrderedRing K] in
theorem floor_le_halfEven (q : K) : ⌊q⌋ ≤ halfEven q := by
  unfold halfEven
  split_ifs <;> omega

/-- Rounding does not pass an integer from below. -/
theorem halfEven_le {q : K} {n : ℤ} (h : q ≤ n) : halfEven q ≤ n := by
  have hfloor : ⌊q⌋ ≤ n := Int.floor_le_iff.mpr (by linarith)
  -- what is rounded up lies strictly below the integer it is rounded to
  have hup : ¬ q - ⌊q⌋ < ⌊q⌋ + 1 - q → ⌊q⌋ + 1 ≤ n := by
    intro hhalf
    have hlt : (⌊q⌋ : K) < n := by linarith
    exact_mod_cast hlt
  unfold halfEven
  split_ifs with hhalf habove heven
  · exact hfloor
  · exact hup hhalf
  · exact hfloor
  · exact hup hhalf

omit [IsStrictOrderedRing K] in
theorem halfEven_nonneg {q : K} (h : 0 ≤ q) : 0 ≤ halfEven q :=
  le_trans (Int.floor_nonneg.mpr h) (floor_le_halfEven q)

/-- What rounds to a positive integer is more than one half. -/
theorem halfEven_pos {q : K} (h : 0 ≤ q) : 0 < halfEven q ↔ 1 / 2 < q := by
  rcases lt_or_ge 0 ⌊q⌋ with hpos | hle
  · have hone : (1 : K) ≤ ⌊q⌋ := by exact_mod_cast hpos
    have hq := Int.floor_le q
    refine ⟨fun _ ↦ by linarith, fun _ ↦ lt_of_lt_of_le hpos (floor_le_halfEven q)⟩
  · have hzero : ⌊q⌋ = 0 := le_antisymm hle (Int.floor_nonneg.mpr h)
    have hmiddle : 1 - q < q ↔ 1 / 2 < q := by
      constructor <;> intro hlt <;> linarith
    unfold halfEven
    rw [hzero]
    simp only [Int.cast_zero, sub_zero, zero_add, Int.zero_emod, if_true]
    rw [← hmiddle]
    split_ifs with hbelow habove
    · exact ⟨fun hlt ↦ absurd hlt (lt_irrefl 0), fun hlt ↦ absurd hlt hbelow.not_gt⟩
    · exact ⟨fun _ ↦ habove, fun _ ↦ one_pos⟩
    · exact ⟨fun hlt ↦ absurd hlt (lt_irrefl 0), fun hlt ↦ absurd hlt habove⟩

/-- Less than half a step from an integer, the integer is the nearest one. -/
theorem halfEven_near {q : K} {n : ℤ} (h : |q - n| < 1 / 2) : halfEven q = n := by
  obtain ⟨hlow, hhigh⟩ := abs_lt.mp h
  unfold halfEven
  rcases le_or_gt (n : K) q with hle | hlt
  · -- from above it is the floor
    have hfloor : ⌊q⌋ = n := Int.floor_eq_iff.mpr ⟨hle, by linarith⟩
    rw [hfloor, if_pos (by linarith)]
  · -- from below it is the next one
    have hfloor : ⌊q⌋ = n - 1 := by
      apply Int.floor_eq_iff.mpr
      push_cast
      exact ⟨by linarith, by linarith⟩
    have hcast : ((n - 1 : ℤ) : K) = n - 1 := by push_cast; rfl
    rw [hfloor, hcast, if_neg (by linarith), if_pos (by linarith)]
    omega

/-- The nearest integer is half a unit away at most. -/
theorem abs_halfEven_sub_le (q : K) : |(halfEven q : K) - q| ≤ 1 / 2 := by
  have hlow := Int.floor_le q
  have hhigh := Int.lt_floor_add_one q
  unfold halfEven
  rw [abs_le]
  split_ifs with hbelow habove heven
  · constructor <;> linarith
  · push_cast
    constructor <;> linarith
  · constructor <;> linarith
  · push_cast
    constructor <;> linarith

end Rounding
