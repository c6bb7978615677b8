import Mathlib.Algebra.BigOperators.Fin
import Mathlib.Data.List.MinMax
import Mathlib.Data.Rat.Floor
import Mathlib.Tactic.Linarith
import Mathlib.Tactic.NormNum
import Splitbind.Fingerprint.DwtDctQim

/-!
# Luminance replacement — integer channel offsets for a real change of luminance

The embedder works on luminances and writes channels of eight bits.  The change of a pixel is split
into its floor, added to every channel, and a fraction, met by the channels of one of eight patterns.
-/

namespace Splitbind

/-! ## 1. The source -/

/-- The channels of a pixel: blue, green and red. -/
abbrev Bgr := Fin 3 → UInt8

section Source

variable {K : Type} [Field K]

/-- `_BT601_BGR`. -/
def bt601Bgr (channel : Fin 3) : K :=
  ((![114, 587, 299] channel : Nat) : K) / ((1000 : Nat) : K)

/-- A triple of channels `@ _BT601_BGR`. -/
def weighted (channels : Fin 3 → K) : K := ∑ channel, channels channel * bt601Bgr channel

/-- `_luminance`. -/
def luminance (page : Image Bgr) : Image K where
  height := page.height
  width := page.width
  pixel := fun y x ↦ weighted fun channel ↦ ((page.pixel y x channel).toNat : K)

/-- A row of `channel_patterns`. -/
def channelPattern (mask : Nat) (channel : Fin 3) : Nat := (mask >>> channel.val) &&& 1

/-- `luminance_levels`. -/
def luminanceLevel (mask : Nat) : K := weighted fun channel ↦ (channelPattern mask channel : K)

variable [LinearOrder K] [FloorRing K]

/-- An entry of `choices`: the first of the nearest levels. -/
def patternChoice (fractional : K) : Nat :=
  ((List.range 8).argmin fun mask ↦ |fractional - luminanceLevel mask|).getD 0

/-- A row of `offsets`. -/
def channelOffset (luminanceDelta : K) (channel : Fin 3) : K :=
  (⌊luminanceDelta⌋ : K) +
    (channelPattern (patternChoice (luminanceDelta - ⌊luminanceDelta⌋)) channel : K)

/-- `np.clip(shifted, 0, 255).astype(np.uint8)`. -/
def clipToByte (shifted : K) : UInt8 :=
  .ofNat ⌊min (max shifted 0) ((255 : Nat) : K)⌋.toNat

/-- `_replace_luminance_once`; a page without a changed pixel is its own copy. -/
def replaceLuminanceOnce (page : Image Bgr) (original modified : Image K) : Image Bgr where
  height := page.height
  width := page.width
  pixel := fun y x ↦
    if modified.pixel y x ≠ original.pixel y x then
      fun channel ↦ clipToByte (((page.pixel y x channel).toNat : K) +
        channelOffset (modified.pixel y x - original.pixel y x) channel)
    else page.pixel y x

end Source

/-! ## 2. The levels -/

section Levels

variable {K : Type} [Field K] [LinearOrder K] [IsStrictOrderedRing K]

omit [LinearOrder K] [IsStrictOrderedRing K] in
theorem weighted_add (a b : Fin 3 → K) :
    weighted (fun channel ↦ a channel + b channel) = weighted a + weighted b := by
  simp only [weighted, add_mul, Finset.sum_add_distrib]

/-- The weights of the channels sum to one. -/
theorem weighted_const (c : K) : weighted (fun _ ↦ c) = c := by
  simp only [weighted, Fin.sum_univ_three, bt601Bgr, Matrix.cons_val]
  push_cast
  ring

/-- Half of the widest gap between two neighbouring levels. -/
def halfGap : K := ((925 : Nat) : K) / ((10000 : Nat) : K)

omit [LinearOrder K] in
theorem luminanceLevel_eq (mask : Nat) :
    (luminanceLevel mask : K) = (((mask &&& 1) * 114 + ((mask >>> 1) &&& 1) * 587 +
      ((mask >>> 2) &&& 1) * 299 : Nat) : K) / ((1000 : Nat) : K) := by
  simp only [luminanceLevel, weighted, Fin.sum_univ_three, bt601Bgr, channelPattern, Matrix.cons_val,
    Fin.val_zero, Fin.val_one, Fin.val_two, Nat.shiftRight_zero]
  push_cast
  ring

/-- Every fraction lies close to some level. -/
theorem exists_level_near {fractional : K} (hnonneg : 0 ≤ fractional) (hlt : fractional < 1) :
    ∃ mask ∈ List.range 8, |fractional - luminanceLevel mask| ≤ halfGap := by
  have hnear : ∀ (mask level : Nat), (mask &&& 1) * 114 + ((mask >>> 1) &&& 1) * 587 +
      ((mask >>> 2) &&& 1) * 299 = level → mask < 8 →
      (level : K) / 1000 - 925 / 10000 ≤ fractional → fractional ≤ (level : K) / 1000 + 925 / 10000 →
      ∃ mask ∈ List.range 8, |fractional - luminanceLevel mask| ≤ halfGap := by
    rintro mask level hlevel hmask hlow hhigh
    refine ⟨mask, List.mem_range.mpr hmask, ?_⟩
    rw [luminanceLevel_eq, hlevel, halfGap, abs_le]
    push_cast
    constructor <;> linarith
  -- the levels in order, each up to the middle of the gap above it
  rcases le_total fractional (570 / 10000) with h | h0
  · exact hnear 0 0 rfl (by decide) (by push_cast; linarith) (by push_cast; linarith)
  rcases le_total fractional (2065 / 10000) with h | h1
  · exact hnear 1 114 rfl (by decide) (by push_cast; linarith) (by push_cast; linarith)
  rcases le_total fractional (3560 / 10000) with h | h2
  · exact hnear 4 299 rfl (by decide) (by push_cast; linarith) (by push_cast; linarith)
  rcases le_total fractional (5000 / 10000) with h | h3
  · exact hnear 5 413 rfl (by decide) (by push_cast; linarith) (by push_cast; linarith)
  rcases le_total fractional (6440 / 10000) with h | h4
  · exact hnear 2 587 rfl (by decide) (by push_cast; linarith) (by push_cast; linarith)
  rcases le_total fractional (7935 / 10000) with h | h5
  · exact hnear 3 701 rfl (by decide) (by push_cast; linarith) (by push_cast; linarith)
  rcases le_total fractional (9430 / 10000) with h | h6
  · exact hnear 6 886 rfl (by decide) (by push_cast; linarith) (by push_cast; linarith)
  · exact hnear 7 1000 rfl (by decide) (by push_cast; linarith) (by push_cast; linarith)

/-- No level is nearer than the chosen one, so the choice misses by half a gap at most. -/
theorem patternChoice_near {fractional : K} [FloorRing K] (hnonneg : 0 ≤ fractional)
    (hlt : fractional < 1) :
    |fractional - luminanceLevel (patternChoice fractional)| ≤ halfGap := by
  obtain ⟨mask, hmask, hnear⟩ := exists_level_near hnonneg hlt
  rw [patternChoice]
  cases hchoice : (List.range 8).argmin fun mask ↦ |fractional - luminanceLevel mask| with
  | none =>
    rw [List.argmin_eq_none] at hchoice
    rw [hchoice] at hmask
    exact absurd hmask List.not_mem_nil
  | some choice =>
    have hle := List.le_of_mem_argmin hmask (Option.mem_def.mpr hchoice)
    exact hle.trans hnear

theorem channelPattern_le_one (mask : Nat) (channel : Fin 3) : channelPattern mask channel ≤ 1 := by
  rw [channelPattern, Nat.and_one_is_mod]
  omega

end Levels

/-! ## 3. A written pixel -/

section Written

variable {K : Type} [Field K] [LinearOrder K] [FloorRing K]

/-- What a channel of a changed pixel is shifted by, as an integer. -/
def integerOffset (luminanceDelta : K) (channel : Fin 3) : ℤ :=
  ⌊luminanceDelta⌋ + channelPattern (patternChoice (luminanceDelta - ⌊luminanceDelta⌋)) channel

theorem channelOffset_eq (luminanceDelta : K) (channel : Fin 3) :
    channelOffset luminanceDelta channel = (integerOffset luminanceDelta channel : K) := by
  rw [channelOffset, integerOffset]
  push_cast
  rfl

theorem integerOffset_sub_le (luminanceDelta : K) (channel channel' : Fin 3) :
    |integerOffset luminanceDelta channel - integerOffset luminanceDelta channel'| ≤ 1 := by
  have hle := channelPattern_le_one (patternChoice (luminanceDelta - ⌊luminanceDelta⌋)) channel
  have hle' := channelPattern_le_one (patternChoice (luminanceDelta - ⌊luminanceDelta⌋)) channel'
  simp only [integerOffset]
  rw [abs_le]
  omega

variable [IsStrictOrderedRing K]

/-- On integers the cast to a byte is clipping. -/
theorem clipToByte_intCast (n : ℤ) : ((clipToByte (n : K)).toNat : ℤ) = min (max n 0) 255 := by
  have hcast : min (max (n : K) 0) ((255 : Nat) : K) = ((min (max n 0) 255 : ℤ) : K) := by
    push_cast
    rfl
  rw [clipToByte, hcast, Int.floor_intCast, UInt8.toNat_ofNat']
  omega

/-- The luminance that the floor and the nearest pattern add misses the change by half a gap. -/
theorem weighted_channelOffset_near (luminanceDelta : K) :
    |weighted (channelOffset luminanceDelta) - luminanceDelta| ≤ 925 / 10000 := by
  have hnear := patternChoice_near (Int.fract_nonneg luminanceDelta) (Int.fract_lt_one luminanceDelta)
  have hsplit : weighted (channelOffset luminanceDelta) =
      ⌊luminanceDelta⌋ + luminanceLevel (patternChoice (Int.fract luminanceDelta)) := by
    rw [show channelOffset luminanceDelta = fun channel ↦ (⌊luminanceDelta⌋ : K) +
      (channelPattern (patternChoice (luminanceDelta - ⌊luminanceDelta⌋)) channel : K) from rfl,
      weighted_add, weighted_const]
    rfl
  have hdelta : luminanceDelta = ⌊luminanceDelta⌋ + Int.fract luminanceDelta :=
    (Int.floor_add_fract luminanceDelta).symm
  have hgap : (halfGap : K) = 925 / 10000 := by
    rw [halfGap]
    push_cast
    rfl
  rw [hgap, abs_sub_comm] at hnear
  rw [hsplit]
  calc |⌊luminanceDelta⌋ + luminanceLevel (patternChoice (Int.fract luminanceDelta)) - luminanceDelta|
      = |luminanceLevel (patternChoice (Int.fract luminanceDelta)) - Int.fract luminanceDelta| := by
        congr 1
        linarith
    _ ≤ 925 / 10000 := hnear

/-- A pixel is written with what its channels were shifted by, clipped. -/
theorem replaceLuminanceOnce_changed (page : Image Bgr) {original modified : Image K} {y x : Nat}
    (hchanged : modified.pixel y x ≠ original.pixel y x) (channel : Fin 3) :
    (((replaceLuminanceOnce page original modified).pixel y x channel).toNat : ℤ) =
      min (max ((page.pixel y x channel).toNat +
        integerOffset (modified.pixel y x - original.pixel y x) channel) 0) 255 := by
  rw [← clipToByte_intCast (K := K), replaceLuminanceOnce]
  dsimp only
  rw [if_pos hchanged, channelOffset_eq]
  push_cast
  rfl

/-- Unchanged luminances keep their pixels.  The channels of any other are shifted by integers that
differ by one at most, and if none of them clips, then the written luminance misses its target by
no more than half of the widest gap between the levels. -/
theorem replaceLuminanceOnce_bound (page : Image Bgr) (target : Image K) (y x : Nat) :
    let original := luminance page
    let written := replaceLuminanceOnce page original target
    let luminanceDelta := target.pixel y x - original.pixel y x
    (written.height, written.width) = (page.height, page.width) ∧
    (target.pixel y x = original.pixel y x → written.pixel y x = page.pixel y x) ∧
    (target.pixel y x ≠ original.pixel y x →
      ∃ offset : Fin 3 → ℤ,
        (∀ channel, channelOffset luminanceDelta channel = (offset channel : K)) ∧
        (∀ channel channel', |offset channel - offset channel'| ≤ 1) ∧
        (∀ channel, ((written.pixel y x channel).toNat : ℤ) =
          min (max ((page.pixel y x channel).toNat + offset channel) 0) 255) ∧
        ((∀ channel, 0 ≤ (page.pixel y x channel).toNat + offset channel ∧
            (page.pixel y x channel).toNat + offset channel ≤ 255) →
          |(luminance written).pixel y x - target.pixel y x| ≤ 925 / 10000)) ∧
    ∀ channel, 0 ≤ (written.pixel y x channel).toNat ∧ (written.pixel y x channel).toNat ≤ 255 := by
  intro original written luminanceDelta
  refine ⟨rfl, fun hsame ↦ ?_, fun hchanged ↦ ?_, fun channel ↦ ?_⟩
  · show (if target.pixel y x ≠ original.pixel y x then _ else page.pixel y x) = page.pixel y x
    rw [if_neg (not_not.mpr hsame)]
  · have hwritten := replaceLuminanceOnce_changed page hchanged
    refine ⟨integerOffset luminanceDelta, channelOffset_eq luminanceDelta,
      integerOffset_sub_le luminanceDelta, hwritten, fun hinside ↦ ?_⟩
    -- without clipping a written channel is the shifted one
    have hchannel : ∀ channel, ((written.pixel y x channel).toNat : K) =
        ((page.pixel y x channel).toNat : K) + channelOffset luminanceDelta channel := by
      intro channel
      have hinteger : ((written.pixel y x channel).toNat : ℤ) =
          (page.pixel y x channel).toNat + integerOffset luminanceDelta channel := by
        rw [hwritten channel, max_eq_left (hinside channel).1, min_eq_left (hinside channel).2]
      rw [channelOffset_eq]
      exact_mod_cast congrArg (Int.cast : ℤ → K) hinteger
    have hluminance : (luminance written).pixel y x =
        original.pixel y x + weighted (channelOffset luminanceDelta) := by
      show weighted (fun channel ↦ ((written.pixel y x channel).toNat : K)) = _
      rw [funext hchannel, weighted_add]
      rfl
    have hnear := weighted_channelOffset_near luminanceDelta
    rw [hluminance]
    calc |original.pixel y x + weighted (channelOffset luminanceDelta) - target.pixel y x|
        = |weighted (channelOffset luminanceDelta) - luminanceDelta| := by
          congr 1
          ring
      _ ≤ 925 / 10000 := hnear
  · have hlt := (written.pixel y x channel).toNat_lt
    omega

end Written

/-- A page of one grey pixel. -/
def greyPage : Image Bgr := ⟨1, 1, fun _ _ _ ↦ 100⟩

/-- Four tenths brighter: blue and red move up by one, which adds 0.413. -/
theorem greyPage_brighter :
    let written := replaceLuminanceOnce greyPage (luminance greyPage) ⟨1, 1, fun _ _ ↦ (1004 / 10 : ℚ)⟩
    written.pixel 0 0 = ![101, 100, 101] ∧
      |(luminance written).pixel 0 0 - (1004 / 10 : ℚ)| ≤ 925 / 10000 := by
  intro written
  have hwritten : written.pixel 0 0 = ![101, 100, 101] := by decide +kernel
  obtain ⟨-, -, hchanged, -⟩ :=
    replaceLuminanceOnce_bound greyPage ⟨1, 1, fun _ _ ↦ (1004 / 10 : ℚ)⟩ 0 0
  obtain ⟨offset, hoffset, -, -, hbound⟩ := hchanged (by decide +kernel)
  have hinside : ∀ channel, 0 ≤ ((greyPage.pixel 0 0 channel).toNat : ℤ) + ![1, 0, 1] channel ∧
      ((greyPage.pixel 0 0 channel).toNat : ℤ) + ![1, 0, 1] channel ≤ 255 := by decide
  refine ⟨hwritten, hbound fun channel ↦ ?_⟩
  have hshift : channelOffset ((1004 / 10 : ℚ) - (luminance greyPage).pixel 0 0) channel =
      ((![1, 0, 1] channel : ℤ) : ℚ) := by
    revert channel
    decide +kernel
  have hone : offset channel = ![1, 0, 1] channel :=
    Int.cast_injective ((hoffset channel).symm.trans hshift)
  rw [hone]
  exact hinside channel

end Splitbind
