import Mathlib.Algebra.Order.Floor.Ring
import Mathlib.Data.Int.Log
import Mathlib.Order.Bounds.Basic
import Mathlib.Tactic.Linarith
import Mathlib.Tactic.NormNum
import Mathlib.Tactic.Ring

/-!
# Doubles — the finite values of the binary format of 64 bits, as elements of an ordered field

A value is a whole number of 53 bits times a power of two.  Below a positive number the powers of
two bound its scale, and the greatest double below it is one step of that scale away at most.
-/

namespace Doubles

variable {K : Type} [Field K]

/-- A finite double. -/
def IsDouble (x : K) : Prop :=
  ∃ m e : ℤ, |m| < 2 ^ 53 ∧ -1074 ≤ e ∧ e ≤ 971 ∧ x = m * ((2 : ℕ) : K) ^ e

theorem isDouble_iff {x : K} :
    IsDouble x ↔ ∃ m e : ℤ, |m| < 2 ^ 53 ∧ -1074 ≤ e ∧ e ≤ 971 ∧ x = m * 2 ^ e := by
  rw [IsDouble, Nat.cast_ofNat]

variable [LinearOrder K] [FloorRing K]

/-- The scale of the doubles just below a positive number. -/
def exponent (x : K) : ℤ :=
  max (-1074) (min 971 (Int.clog 2 x - 53))

/-- How many units of the scale stay below the number. -/
def units (x : K) : ℤ :=
  ⌈x / ((2 : ℕ) : K) ^ exponent x⌉ - 1

/-- The greatest double below a positive number. -/
def below (x : K) : K :=
  (min (units x) (2 ^ 53 - 1) : ℤ) * ((2 : ℕ) : K) ^ exponent x

theorem below_eq (x : K) :
    below x = (min (units x) (2 ^ 53 - 1) : ℤ) * 2 ^ exponent x := by
  rw [below, Nat.cast_ofNat]

variable [IsStrictOrderedRing K]

theorem exponent_spec {x : K} (hx : 0 < x) :
    (-1074 ≤ exponent x ∧ exponent x ≤ 971) ∧
      (exponent x = 971 ∨ x ≤ 2 ^ 53 * 2 ^ exponent x) ∧
      (exponent x = -1074 ∨ 2 ^ 52 * 2 ^ exponent x < x) := by
  have hle : x ≤ 2 ^ Int.clog 2 x := Int.self_le_zpow_clog one_lt_two x
  have hlt : (2 : K) ^ (Int.clog 2 x - 1) < x := Int.zpow_pred_clog_lt_self one_lt_two hx
  have hbits : ∀ n : ℕ, (2 : K) ^ n * 2 ^ exponent x = 2 ^ ((n : ℤ) + exponent x) := by
    intro n
    rw [zpow_add₀ two_ne_zero, zpow_natCast]
  rw [hbits, hbits]
  refine ⟨by unfold exponent; omega, ?_, ?_⟩
  · rcases eq_or_ne (exponent x) 971 with htop | htop
    · exact .inl htop
    · refine .inr (hle.trans (zpow_le_zpow_right₀ one_le_two ?_))
      unfold exponent at *
      omega
  · rcases eq_or_ne (exponent x) (-1074) with hbottom | hbottom
    · exact .inl hbottom
    · refine .inr (lt_of_le_of_lt (zpow_le_zpow_right₀ one_le_two ?_) hlt)
      unfold exponent at *
      omega

theorem le_units_iff {x : K} {n : ℤ} : n ≤ units x ↔ (n : K) * 2 ^ exponent x < x := by
  have hscale : (0 : K) < 2 ^ exponent x := zpow_pos two_pos _
  rw [← lt_div_iff₀ hscale, ← Int.lt_ceil, units, Nat.cast_ofNat]
  omega

theorem below_lt (x : K) : below x < x := by
  have hmin : ((min (units x) (2 ^ 53 - 1) : ℤ) : K) ≤ units x := Int.cast_le.mpr (min_le_left _ _)
  rw [below_eq]
  exact (mul_le_mul_of_nonneg_right hmin (zpow_pos two_pos _).le).trans_lt
    (le_units_iff.mp le_rfl)

theorem isDouble_below {x : K} (hx : 0 < x) : IsDouble (below x) := by
  obtain ⟨⟨hlow, hhigh⟩, -⟩ := exponent_spec hx
  have hunits : 0 ≤ units x := le_units_iff.mpr (by rwa [Int.cast_zero, zero_mul])
  refine isDouble_iff.mpr ⟨_, exponent x, ?_, hlow, hhigh, below_eq x⟩
  rw [abs_lt]
  omega

/-- A double on the scale, or above it, is a number of units. -/
theorem le_below_of_le {x : K} (hx : 0 < x) {m f : ℤ} (hm : m < 2 ^ 53) (hf : f ≤ 971)
    (hscale : exponent x ≤ f) (hlt : (m : K) * 2 ^ f < x) : (m : K) * 2 ^ f ≤ below x := by
  obtain ⟨-, hupper, -⟩ := exponent_spec hx
  have hpos : (0 : K) < 2 ^ exponent x := zpow_pos two_pos _
  obtain ⟨k, rfl⟩ := Int.le.dest hscale
  have hmultiple : (m : K) * 2 ^ (exponent x + k) = ((m * 2 ^ k : ℤ) : K) * 2 ^ exponent x := by
    rw [zpow_add₀ two_ne_zero, zpow_natCast]
    push_cast
    ring
  rw [below_eq]
  rw [hmultiple] at hlt ⊢
  have hbits : m * 2 ^ k < 2 ^ 53 := by
    rcases hupper with htop | hupper
    · have hk : k = 0 := by omega
      rwa [hk, pow_zero, mul_one]
    · have hcast := lt_of_mul_lt_mul_right (hlt.trans_le hupper) hpos.le
      exact_mod_cast hcast
  refine mul_le_mul_of_nonneg_right (Int.cast_le.mpr (le_min (le_units_iff.mpr hlt) ?_)) hpos.le
  omega

/-- A double below the scale has at most half of its range. -/
theorem le_below_of_lt {x : K} (hx : 0 < x) {m f : ℤ} (hm : m < 2 ^ 53) (hf : -1074 ≤ f)
    (hscale : f < exponent x) : (m : K) * 2 ^ f ≤ below x := by
  obtain ⟨-, -, hlower⟩ := exponent_spec hx
  have hpos : (0 : K) < 2 ^ exponent x := zpow_pos two_pos _
  have hunits : 2 ^ 52 ≤ units x := by
    rw [le_units_iff, Int.cast_pow, Int.cast_ofNat]
    exact hlower.resolve_left (by omega)
  have hcast : (m : K) ≤ 2 ^ 53 := by exact_mod_cast hm.le
  have hstep : (2 : K) ^ f ≤ 2 ^ (exponent x - 1) := zpow_le_zpow_right₀ one_le_two (by omega)
  have hhalf : (2 : K) ^ exponent x = 2 ^ (exponent x - 1) * 2 := by
    rw [← zpow_add_one₀ two_ne_zero, sub_add_cancel]
  calc (m : K) * 2 ^ f ≤ 2 ^ 53 * 2 ^ f := mul_le_mul_of_nonneg_right hcast (zpow_pos two_pos f).le
    _ ≤ 2 ^ 53 * 2 ^ (exponent x - 1) := mul_le_mul_of_nonneg_left hstep (by positivity)
    _ = ((2 ^ 52 : ℤ) : K) * 2 ^ exponent x := by
        rw [hhalf, Int.cast_pow, Int.cast_ofNat]
        ring
    _ ≤ (min (units x) (2 ^ 53 - 1) : ℤ) * 2 ^ exponent x := mul_le_mul_of_nonneg_right
        (Int.cast_le.mpr (le_min hunits (by decide))) hpos.le
    _ = below x := (below_eq x).symm

/-- **The greatest double below a positive number.** -/
theorem isGreatest_below {x : K} (hx : 0 < x) :
    IsGreatest {y : K | IsDouble y ∧ y < x} (below x) := by
  refine ⟨⟨isDouble_below hx, below_lt x⟩, ?_⟩
  rintro y ⟨hdouble, hlt⟩
  obtain ⟨m, f, hm, hf, hf', rfl⟩ := isDouble_iff.mp hdouble
  have hbits := (abs_lt.mp hm).2
  rcases le_or_gt (exponent x) f with hscale | hscale
  · exact le_below_of_le hx hbits hf' hscale hlt
  · exact le_below_of_lt hx hbits hf hscale

end Doubles
