import Mathlib.Algebra.Order.Field.Rat
import Mathlib.Data.List.DropRight
import Mathlib.Data.Rat.Floor
import Mathlib.Tactic.FieldSimp
import Mathlib.Tactic.Ring
import Splitbind.Library.Rounding

/-!
# Decimals — numbers rounded to a fixed number of places, written and read

A number is rounded to the nearest multiple of a unit, ties to the even multiple, and written with
its trailing zeros removed.  Reading the text gives the rounded number.
-/

namespace Decimal

/-! ## 1. Text -/

/-- `m` units of `10 ^ -places`, with all places. -/
def fixedPoint (places m : Nat) : List Char :=
  Nat.toDigits 10 (m / 10 ^ places) ++
    '.' :: (Nat.toDigits 10 (m % 10 ^ places)).leftpad places '0'

/-- `format(value, ".<places>f")` of a number that is not negative. -/
def format (places : Nat) (value : ℚ) : List Char :=
  fixedPoint places (Rounding.halfEven (value * 10 ^ places)).toNat

/-- `rstrip` of one character. -/
def rstrip (c : Char) (s : List Char) : List Char := s.rdropWhile (· = c)

theorem rstrip_concat_self (c : Char) (s : List Char) : rstrip c (s ++ [c]) = rstrip c s :=
  List.rdropWhile_concat_pos (fun d ↦ d = c) s c (decide_eq_true rfl)

theorem rstrip_concat_ne {c d : Char} (h : d ≠ c) (s : List Char) :
    rstrip c (s ++ [d]) = s ++ [d] :=
  List.rdropWhile_concat_neg (fun d ↦ d = c) s d fun heq ↦ h (of_decide_eq_true heq)

theorem mem_of_mem_rstrip {c d : Char} {s : List Char} (h : d ∈ rstrip c s) : d ∈ s :=
  (List.rdropWhile_prefix (fun d ↦ d = c) s).subset h

theorem rstrip_eq_self {c : Char} {s : List Char} (h : c ∉ s) : rstrip c s = s := by
  rcases List.eq_nil_or_concat s with rfl | ⟨init, d, rfl⟩
  · rfl
  · rw [List.concat_eq_append] at *
    refine rstrip_concat_ne (fun heq ↦ h ?_) init
    rw [heq]
    exact List.mem_append_right init (List.mem_singleton_self c)

/-- The number a text of digits with at most one point stands for. -/
def read (s : List Char) : ℚ :=
  let whole := s.takeWhile (· ≠ '.')
  let fraction := (s.dropWhile (· ≠ '.')).drop 1
  Nat.ofDigitChars 10 whole 0 + Nat.ofDigitChars 10 fraction 0 / 10 ^ fraction.length

/-! ## 2. Reading what was written -/

theorem point_notMem_toDigits (n : Nat) : '.' ∉ Nat.toDigits 10 n := by
  intro hmem
  have hdigit := Nat.isDigit_of_mem_toDigits (by decide) (by decide) hmem
  exact absurd hdigit (by decide)

/-- A text without a point is read as a whole number. -/
theorem read_whole {whole : List Char} (h : '.' ∉ whole) :
    read whole = Nat.ofDigitChars 10 whole 0 := by
  have hall : ∀ c ∈ whole, decide (c ≠ '.') = true := by
    intro c hc
    exact decide_eq_true fun heq ↦ h (heq ▸ hc)
  simp only [read, List.takeWhile_eq_self_iff.mpr hall, List.dropWhile_eq_nil_iff.mpr hall,
    List.drop_nil, Nat.ofDigitChars_nil, Nat.cast_zero, zero_div, add_zero]

theorem read_point {whole fraction : List Char} (h : '.' ∉ whole) :
    read (whole ++ '.' :: fraction) =
      Nat.ofDigitChars 10 whole 0 + Nat.ofDigitChars 10 fraction 0 / 10 ^ fraction.length := by
  have hall : ∀ c ∈ whole, (fun c ↦ decide (c ≠ '.')) c = true := by
    intro c hc
    exact decide_eq_true fun heq ↦ h (heq ▸ hc)
  have htake : (whole ++ '.' :: fraction).takeWhile (· ≠ '.') = whole := by
    rw [List.takeWhile_append_of_pos hall]
    simp
  have hdrop : (whole ++ '.' :: fraction).dropWhile (· ≠ '.') = '.' :: fraction := by
    rw [List.dropWhile_append_of_pos hall]
    simp
  simp only [read, htake, hdrop, List.drop_succ_cons, List.drop_zero]

/-- Stripping zeros stops at the point. -/
theorem rstrip_zero (whole fraction : List Char) :
    rstrip '0' (whole ++ '.' :: fraction) = whole ++ '.' :: rstrip '0' fraction := by
  induction fraction using List.reverseRecOn with
  | nil => exact rstrip_concat_ne (by decide) whole
  | append_singleton fraction c ih =>
    rw [← List.cons_append, ← List.append_assoc]
    by_cases hc : c = '0'
    · rw [hc, rstrip_concat_self, rstrip_concat_self]
      exact ih
    · rw [rstrip_concat_ne hc, rstrip_concat_ne hc, List.append_assoc, List.cons_append]

/-- What is stripped does not count. -/
theorem ofDigitChars_rstrip (fraction : List Char) :
    (Nat.ofDigitChars 10 (rstrip '0' fraction) 0 : ℚ) / 10 ^ (rstrip '0' fraction).length =
      Nat.ofDigitChars 10 fraction 0 / 10 ^ fraction.length := by
  have hsplit : rstrip '0' fraction ++ fraction.rtakeWhile (· = '0') = fraction :=
    List.rdropWhile_append_rtakeWhile
  have hzeros : fraction.rtakeWhile (· = '0') =
      List.replicate (fraction.rtakeWhile (· = '0')).length '0' := by
    refine List.eq_replicate_of_mem fun c hc ↦ ?_
    have hzero : decide (c = '0') = true :=
      List.mem_rtakeWhile_imp (p := fun d ↦ decide (d = '0')) hc
    exact of_decide_eq_true hzero
  set k := (fraction.rtakeWhile (· = '0')).length
  rw [hzeros] at hsplit
  conv_rhs => rw [← hsplit]
  rw [Nat.ofDigitChars_append, Nat.ofDigitChars_replicate_zero, List.length_append,
    List.length_replicate, pow_add]
  push_cast
  field_simp

/-- Stripping the point leaves the number, too. -/
theorem read_rstrip {whole fraction : List Char} (hwhole : '.' ∉ whole)
    (hfraction : '.' ∉ fraction) :
    read (rstrip '.' (whole ++ '.' :: fraction)) =
      Nat.ofDigitChars 10 whole 0 + Nat.ofDigitChars 10 fraction 0 / 10 ^ fraction.length := by
  rcases List.eq_nil_or_concat fraction with rfl | ⟨init, c, rfl⟩
  · rw [rstrip_concat_self, rstrip_eq_self hwhole, read_whole hwhole]
    simp
  · rw [List.concat_eq_append] at *
    have hc : c ≠ '.' :=
      fun heq ↦ hfraction (heq ▸ List.mem_append_right init (List.mem_singleton_self c))
    rw [← List.cons_append, ← List.append_assoc, rstrip_concat_ne hc, List.append_assoc,
      List.cons_append, read_point hwhole]

/-- The digits of the fraction are all places, with their value. -/
theorem leftpad_spec {places n : Nat} (hplaces : 0 < places) (hn : n < 10 ^ places) :
    ((Nat.toDigits 10 n).leftpad places '0').length = places ∧
      Nat.ofDigitChars 10 ((Nat.toDigits 10 n).leftpad places '0') 0 = n ∧
      '.' ∉ (Nat.toDigits 10 n).leftpad places '0' := by
  have hlength : (Nat.toDigits 10 n).length ≤ places :=
    (Nat.length_toDigits_le_iff (by decide) hplaces).mpr hn
  refine ⟨?_, ?_, ?_⟩
  · rw [List.leftpad, List.length_append, List.length_replicate]
    omega
  · rw [List.leftpad, Nat.ofDigitChars_append, Nat.ofDigitChars_replicate_zero, Nat.mul_zero,
      Nat.ofDigitChars_ten_toDigits]
  · rw [List.leftpad, List.mem_append, not_or]
    refine ⟨fun hmem ↦ ?_, point_notMem_toDigits n⟩
    exact absurd (List.eq_of_mem_replicate hmem) (by decide)

/-- **Round trip.**  The stripped text of a number reads as the number. -/
theorem read_fixedPoint {places : Nat} (hplaces : 0 < places) (m : Nat) :
    read (rstrip '.' (rstrip '0' (fixedPoint places m))) = m / 10 ^ places := by
  obtain ⟨hlength, hvalue, hpoint⟩ :=
    leftpad_spec hplaces (Nat.mod_lt m (Nat.pow_pos (n := places) (by decide : 0 < 10)))
  have hstripped : '.' ∉ rstrip '0' ((Nat.toDigits 10 (m % 10 ^ places)).leftpad places '0') :=
    fun hmem ↦ hpoint (mem_of_mem_rstrip hmem)
  have hpow : (10 : ℚ) ^ places ≠ 0 := pow_ne_zero places (by norm_num)
  rw [fixedPoint, rstrip_zero, read_rstrip (point_notMem_toDigits _) hstripped,
    ofDigitChars_rstrip, hvalue, hlength, Nat.ofDigitChars_ten_toDigits, eq_div_iff hpow, add_mul,
    div_mul_cancel₀ _ hpow]
  exact_mod_cast Nat.div_add_mod' m (10 ^ places)

end Decimal
