import Mathlib.Algebra.Order.Ring.Rat
import Mathlib.Analysis.Real.Sqrt
import Mathlib.Tactic.FieldSimp
import Mathlib.Tactic.Ring
import Splitbind.Library.Rounding
import Splitbind.Library.Transaction

/-!
# Transforms of the fingerprint — wavelet bands, blocks and the parity of a difference

Arithmetic is exact.  The numeric library is a parameter: a square root of two, and the cosine
transform of a block with its inverse.
-/

namespace Splitbind

open Transaction

/-! ## 1. Images and the numeric library -/

/-- `ValueError`, and `struct.error`. -/
inductive CodecError
  | value (text : String)
  | struct
deriving DecidableEq, Repr

/-- A two-dimensional array; what lies outside its shape is never read. -/
structure Image (K : Type) where
  height : Nat
  width : Nat
  pixel : Nat → Nat → K

/-- The 8×8 arrays the cosine transform takes. -/
abbrev Block (K : Type) := Fin 8 → Fin 8 → K

/-- The operations that are not arithmetic of a field. -/
structure Numerics (K : Type) [Field K] where
  sqrtTwo : K
  dct2 : Block K → Block K
  idct2 : Block K → Block K
  sqrtTwo_mul_self : sqrtTwo * sqrtTwo = 2
  dct2_idct2 : ∀ coefficients, dct2 (idct2 coefficients) = coefficients

/-! ## 2. The wavelet bands -/

section Haar

variable {K : Type} [Field K] (numerics : Numerics K)

structure Bands (K : Type) where
  ll : Image K
  lh : Image K
  hl : Image K
  hh : Image K
  originalShape : Nat × Nat

/-- `np.pad(source, ((0, pad_rows), (0, pad_columns)), mode="edge")`. -/
def padEdge (image : Image K) (padRows padColumns : Nat) : Image K where
  height := image.height + padRows
  width := image.width + padColumns
  pixel := fun y x ↦ image.pixel (min y (image.height - 1)) (min x (image.width - 1))

def haarDwt2 (image : Image K) : Bands K :=
  let padRows := image.height % 2
  let padColumns := image.width % 2
  let source := if padRows ≠ 0 ∨ padColumns ≠ 0 then padEdge image padRows padColumns else image
  let scale := numerics.sqrtTwo
  let horizontalLow y x := (source.pixel y (2 * x) + source.pixel y (2 * x + 1)) / scale
  let horizontalHigh y x := (source.pixel y (2 * x) - source.pixel y (2 * x + 1)) / scale
  let band (pixel : Nat → Nat → K) : Image K := ⟨source.height / 2, source.width / 2, pixel⟩
  { ll := band fun y x ↦ (horizontalLow (2 * y) x + horizontalLow (2 * y + 1) x) / scale
    lh := band fun y x ↦ (horizontalLow (2 * y) x - horizontalLow (2 * y + 1) x) / scale
    hl := band fun y x ↦ (horizontalHigh (2 * y) x + horizontalHigh (2 * y + 1) x) / scale
    hh := band fun y x ↦ (horizontalHigh (2 * y) x - horizontalHigh (2 * y + 1) x) / scale
    originalShape := (image.height, image.width) }

/-- `restored` of `haar_idwt2`: the rows of the horizontal bands, and then its columns. -/
def haarRestored (bands : Bands K) (y x : Nat) : K :=
  let scale := numerics.sqrtTwo
  let horizontal (low high : Image K) (y x : Nat) : K :=
    if y % 2 = 0 then (low.pixel (y / 2) x + high.pixel (y / 2) x) / scale
    else (low.pixel (y / 2) x - high.pixel (y / 2) x) / scale
  let horizontalLow := horizontal bands.ll bands.lh
  let horizontalHigh := horizontal bands.hl bands.hh
  if x % 2 = 0 then (horizontalLow y (x / 2) + horizontalHigh y (x / 2)) / scale
  else (horizontalLow y (x / 2) - horizontalHigh y (x / 2)) / scale

def haarIdwt2 (bands : Bands K) : Except CodecError (Image K) := do
  let shape (band : Image K) := (band.height, band.width)
  raiseIf (¬ ∀ band ∈ [bands.lh, bands.hl, bands.hh], shape band = shape bands.ll)
    (.value "Haar bands must have identical shapes")
  let (height, width) := bands.originalShape
  raiseIf (height ≤ 0 ∨ width ≤ 0) (.value "original_shape must contain two positive integers")
  raiseIf (2 * bands.ll.height < height ∨ 2 * bands.ll.width < width)
    (.value "original_shape exceeds the reconstructed padded image")
  return ⟨height, width, haarRestored numerics bands⟩

/-- The bands of an image whose height and width are twice these. -/
structure Bands.Shaped (bands : Bands K) (height width : Nat) : Prop where
  ll : (bands.ll.height, bands.ll.width) = (height, width)
  lh : (bands.lh.height, bands.lh.width) = (height, width)
  hl : (bands.hl.height, bands.hl.width) = (height, width)
  hh : (bands.hh.height, bands.hh.width) = (height, width)
  originalShape : bands.originalShape = (2 * height, 2 * width)

theorem haarDwt2_shaped {image : Image K} {height width : Nat}
    (hshape : (image.height, image.width) = (2 * height, 2 * width)) :
    (haarDwt2 numerics image).Shaped height width := by
  obtain ⟨hheight, hwidth⟩ := Prod.mk.inj hshape
  have hpad : ¬ (image.height % 2 ≠ 0 ∨ image.width % 2 ≠ 0) := by omega
  have hband : (image.height / 2, image.width / 2) = (height, width) := by
    rw [hheight, hwidth, Nat.mul_div_cancel_left height two_pos,
      Nat.mul_div_cancel_left width two_pos]
  simp only [haarDwt2, if_neg hpad]
  exact ⟨hband, hband, hband, hband, hshape⟩

/-- A sum and a difference give the first of two values back. -/
theorem Numerics.add_sub_div [NeZero (2 : K)] (a b : K) :
    ((a + b) / numerics.sqrtTwo + (a - b) / numerics.sqrtTwo) / numerics.sqrtTwo = a := by
  have htwo := numerics.sqrtTwo_mul_self
  -- the quotients add up to twice the value, and the divisors multiply to two
  rw [← add_div, div_div, htwo, add_add_sub_cancel, ← two_mul, mul_div_cancel_left₀ a two_ne_zero]

/-- And the second one. -/
theorem Numerics.sub_sub_div [NeZero (2 : K)] (a b : K) :
    ((a + b) / numerics.sqrtTwo - (a - b) / numerics.sqrtTwo) / numerics.sqrtTwo = b := by
  have htwo := numerics.sqrtTwo_mul_self
  rw [← sub_div, div_div, htwo, add_sub_sub_cancel, ← two_mul, mul_div_cancel_left₀ b two_ne_zero]

omit [Field K] in
theorem Bands.Shaped.shapes {bands : Bands K} {height width : Nat}
    (hshaped : bands.Shaped height width) :
    ∀ band ∈ [bands.lh, bands.hl, bands.hh],
      (band.height, band.width) = (bands.ll.height, bands.ll.width) := by
  rw [hshaped.ll, List.forall_mem_cons, List.forall_mem_cons, List.forall_mem_singleton]
  exact ⟨hshaped.lh, hshaped.hl, hshaped.hh⟩

/-- Bands of one shape are restored at every shape they have room for. -/
theorem haarIdwt2_eq_ok {bands : Bands K} {height width : Nat}
    (hshapes : ∀ band ∈ [bands.lh, bands.hl, bands.hh],
      (band.height, band.width) = (bands.ll.height, bands.ll.width))
    (horiginal : bands.originalShape = (height, width)) (hpositive : 0 < height ∧ 0 < width)
    (hfits : height ≤ 2 * bands.ll.height ∧ width ≤ 2 * bands.ll.width) :
    haarIdwt2 numerics bands = .ok ⟨height, width, haarRestored numerics bands⟩ := by
  have hpositive' : ¬ (height ≤ 0 ∨ width ≤ 0) := by omega
  have hfits' : ¬ (2 * bands.ll.height < height ∨ 2 * bands.ll.width < width) := by omega
  rw [haarIdwt2, raiseIf_neg (not_not.mpr hshapes), ok_bind, horiginal]
  simp only [raiseIf_neg hpositive', raiseIf_neg hfits', ok_bind]
  rfl

theorem haarIdwt2_eq {bands : Bands K} {height width : Nat} (hshaped : bands.Shaped height width)
    (hheight : 0 < height) (hwidth : 0 < width) :
    haarIdwt2 numerics bands = .ok ⟨2 * height, 2 * width, haarRestored numerics bands⟩ := by
  have hll := Prod.mk.inj hshaped.ll
  exact haarIdwt2_eq_ok numerics hshaped.shapes hshaped.originalShape (by omega) (by omega)

/-- The bands an image is restored from are its bands. -/
theorem haarDwt2_restored [NeZero (2 : K)] {bands : Bands K} {height width : Nat}
    (hshaped : bands.Shaped height width) :
    haarDwt2 numerics ⟨2 * height, 2 * width, haarRestored numerics bands⟩ = bands := by
  obtain ⟨⟨_, _, ll⟩, ⟨_, _, lh⟩, ⟨_, _, hl⟩, ⟨_, _, hh⟩, _⟩ := bands
  obtain ⟨hll, hlh, hhl, hhh, horiginal⟩ := hshaped
  obtain ⟨rfl, rfl⟩ := Prod.mk.inj hll.symm
  obtain ⟨rfl, rfl⟩ := Prod.mk.inj hlh.symm
  obtain ⟨rfl, rfl⟩ := Prod.mk.inj hhl.symm
  obtain ⟨rfl, rfl⟩ := Prod.mk.inj hhh.symm
  dsimp only at horiginal ⊢
  subst horiginal
  -- the shape is even in both directions, so nothing is padded
  have heven : ∀ n : Nat, 2 * n % 2 = 0 := by omega
  have hodd : ∀ n : Nat, (2 * n + 1) % 2 ≠ 0 := by omega
  have hhalf : ∀ n : Nat, 2 * n / 2 = n := by omega
  have hhalf' : ∀ n : Nat, (2 * n + 1) / 2 = n := by omega
  simp only [haarDwt2, haarRestored, heven, hodd, hhalf, hhalf', if_true, if_false, ne_eq,
    not_true_eq_false, or_self, numerics.add_sub_div, numerics.sub_sub_div]

/-- What padding adds lies outside the image. -/
theorem padEdge_pixel {K : Type} {image : Image K} {padRows padColumns y x : Nat}
    (hy : y < image.height) (hx : x < image.width) :
    (padEdge image padRows padColumns).pixel y x = image.pixel y x := by
  show image.pixel (min y (image.height - 1)) (min x (image.width - 1)) = image.pixel y x
  rw [min_eq_left (by omega), min_eq_left (by omega)]

theorem haarIdwt2_haarDwt2 {image : Image K} (hheight : 0 < image.height)
    (hwidth : 0 < image.width) :
    haarIdwt2 numerics (haarDwt2 numerics image) =
      .ok ⟨image.height, image.width, haarRestored numerics (haarDwt2 numerics image)⟩ := by
  refine haarIdwt2_eq_ok numerics ?_ rfl ⟨hheight, hwidth⟩ ?_
  · -- the four bands come from one source, so they have one shape
    simp only [List.forall_mem_cons]
    exact ⟨rfl, rfl, rfl, fun _ h ↦ absurd h List.not_mem_nil⟩
  · -- a padded side is even, and no shorter than the image's
    simp only [haarDwt2]
    split_ifs
    · simp only [padEdge]
      omega
    · omega

/-- Restoring from the bands of an image gives back the samples the bands were computed from. -/
theorem haarRestored_haarDwt2 [NeZero (2 : K)] {image : Image K} {y x : Nat}
    (hy : y < image.height) (hx : x < image.width) :
    haarRestored numerics (haarDwt2 numerics image) y x = image.pixel y x := by
  set source := if image.height % 2 ≠ 0 ∨ image.width % 2 ≠ 0 then
    padEdge image (image.height % 2) (image.width % 2) else image with hsource
  have hpixel : source.pixel y x = image.pixel y x := by
    rw [hsource]
    split_ifs
    · exact padEdge_pixel hy hx
    · rfl
  -- a sample is the first or the second of its pair, along the rows and along the columns
  have hpair : ∀ n : Nat, (n % 2 = 0 ∧ 2 * (n / 2) = n) ∨ (n % 2 ≠ 0 ∧ 2 * (n / 2) + 1 = n) := by
    intro n
    omega
  rw [← hpixel]
  simp only [haarRestored, haarDwt2, ← hsource, numerics.add_sub_div, numerics.sub_sub_div]
  rcases hpair y with ⟨hrow, hy'⟩ | ⟨hrow, hy'⟩ <;>
    rcases hpair x with ⟨hcolumn, hx'⟩ | ⟨hcolumn, hx'⟩ <;>
    simp only [hrow, hcolumn, if_true, if_false, numerics.add_sub_div, numerics.sub_sub_div, hx',
      hy']

/-- **Perfect reconstruction.**  The bands of an image restore it at its own shape, an odd one too,
and the bands an image is restored from at the full shape are its bands.  Bands without samples are
refused. -/
theorem haar_perfectReconstruction [NeZero (2 : K)] :
    (∀ image : Image K, 0 < image.height → 0 < image.width →
      ∃ restored, haarIdwt2 numerics (haarDwt2 numerics image) = .ok restored ∧
        (restored.height, restored.width) = (image.height, image.width) ∧
        ∀ y < image.height, ∀ x < image.width, restored.pixel y x = image.pixel y x) ∧
    ∀ (bands : Bands K) (height width : Nat), bands.Shaped height width →
      (0 < height → 0 < width →
        ∃ image, haarIdwt2 numerics bands = .ok image ∧
          (image.height, image.width) = (2 * height, 2 * width) ∧
          haarDwt2 numerics image = bands) ∧
      (height = 0 ∨ width = 0 → haarIdwt2 numerics bands =
        .error (.value "original_shape must contain two positive integers")) := by
  constructor
  · intro image hheight hwidth
    exact ⟨_, haarIdwt2_haarDwt2 numerics hheight hwidth, rfl,
      fun y hy x hx ↦ haarRestored_haarDwt2 numerics hy hx⟩
  · intro bands height width hshaped
    constructor
    · intro hheight hwidth
      exact ⟨_, haarIdwt2_eq numerics hshaped hheight hwidth, rfl,
        haarDwt2_restored numerics hshaped⟩
    · intro hempty
      have hnone : 2 * height ≤ 0 ∨ 2 * width ≤ 0 := by omega
      rw [haarIdwt2, raiseIf_neg (not_not.mpr hshaped.shapes), ok_bind, hshaped.originalShape]
      simp only [raiseIf_pos hnone]
      rfl

/-- A column of three samples, and four bands of one sample each. -/
theorem haar_perfectReconstruction_column :
    ∃ numerics : Numerics ℝ, numerics.sqrtTwo = √2 ∧
      (∃ restored, haarIdwt2 numerics (haarDwt2 numerics ⟨3, 1, fun y _ ↦ y⟩) = .ok restored ∧
        (restored.height, restored.width) = (3, 1) ∧
        ∀ y < 3, ∀ x < 1, restored.pixel y x = y) ∧
      let bands : Bands ℝ := ⟨⟨1, 1, fun _ _ ↦ 1⟩, ⟨1, 1, fun _ _ ↦ 2⟩, ⟨1, 1, fun _ _ ↦ 3⟩,
        ⟨1, 1, fun _ _ ↦ 4⟩, (2, 2)⟩
      ∃ image, haarIdwt2 numerics bands = .ok image ∧ (image.height, image.width) = (2, 2) ∧
        haarDwt2 numerics image = bands := by
  let numerics : Numerics ℝ := ⟨√2, id, id, Real.mul_self_sqrt zero_le_two, fun _ ↦ rfl⟩
  obtain ⟨himage, hbands⟩ := haar_perfectReconstruction numerics
  exact ⟨numerics, rfl, himage ⟨3, 1, fun y _ ↦ y⟩ (by decide) (by decide),
    (hbands _ 1 1 ⟨rfl, rfl, rfl, rfl, rfl⟩).1 one_pos one_pos⟩

end Haar

/-! ## 3. Blocks of a band -/

section Blocks

variable {K : Type}

/-- The block at a corner. -/
def Image.window (band : Image K) (y x : Nat) : Block K := fun i j ↦ band.pixel (y + i) (x + j)

/-- `band[y : y + 8, x : x + 8]`, as the cosine transform takes it. -/
def Image.block (band : Image K) (y x : Nat) : Except CodecError (Block K) := do
  raiseIf (band.height < y + 8 ∨ band.width < x + 8) (.value "DCT input must be exactly 8x8")
  return band.window y x

/-- `band[y : y + 8, x : x + 8] = block`. -/
def Image.setBlock (band : Image K) (y x : Nat) (block : Block K) : Image K :=
  { band with
    pixel := fun r c ↦
      if h : (y ≤ r ∧ r < y + 8) ∧ x ≤ c ∧ c < x + 8 then
        block ⟨r - y, by omega⟩ ⟨c - x, by omega⟩
      else band.pixel r c }

def Block.get (block : Block K) (coordinate : Fin 8 × Fin 8) : K :=
  block coordinate.1 coordinate.2

def Block.set (block : Block K) (coordinate : Fin 8 × Fin 8) (value : K) : Block K :=
  fun i j ↦ if (i, j) = coordinate then value else block i j

theorem Image.block_eq {band : Image K} {y x : Nat} (hy : y + 8 ≤ band.height)
    (hx : x + 8 ≤ band.width) : band.block y x = .ok (band.window y x) := by
  rw [Image.block, raiseIf_neg (by omega), ok_bind]
  rfl

@[simp] theorem Image.window_setBlock_self (band : Image K) (y x : Nat) (block : Block K) :
    (band.setBlock y x block).window y x = block := by
  funext i j
  have hin : (y ≤ y + i.val ∧ y + i.val < y + 8) ∧ x ≤ x + j.val ∧ x + j.val < x + 8 := by omega
  show (if h : _ then _ else _) = _
  rw [dif_pos hin]
  congr 1
  · simp
  · simp

/-- A block is kept when another one that does not meet it is written. -/
theorem Image.window_setBlock_of_disjoint {y x y' x' : Nat} (band : Image K) (block : Block K)
    (hdisjoint : (y' + 8 ≤ y ∨ y + 8 ≤ y') ∨ x' + 8 ≤ x ∨ x + 8 ≤ x') :
    (band.setBlock y x block).window y' x' = band.window y' x' := by
  funext i j
  have hout : ¬ ((y ≤ y' + i.val ∧ y' + i.val < y + 8) ∧
      x ≤ x' + j.val ∧ x' + j.val < x + 8) := by omega
  show (if h : _ then _ else _) = _
  rw [dif_neg hout]
  rfl

@[simp] theorem Block.get_set_self (block : Block K) (coordinate : Fin 8 × Fin 8) (value : K) :
    (block.set coordinate value).get coordinate = value :=
  if_pos rfl

theorem Block.get_set_of_ne {coordinate coordinate' : Fin 8 × Fin 8} (h : coordinate' ≠ coordinate)
    (block : Block K) (value : K) :
    (block.set coordinate value).get coordinate' = block.get coordinate' :=
  if_neg h

end Blocks

/-! ## 4. The parity of a difference -/

section Qim

variable {K : Type} [Field K] [LinearOrder K] [FloorRing K]

structure QimExtraction (K : Type) where
  bit : Int
  latticeIndex : Int
  confidence : K

/-- `_validate_qim_inputs`. -/
def validateQimInputs (delta : K) : Except CodecError Unit :=
  raiseIf (delta ≤ 0) (.value "delta must be positive")

def qimEmbedPair (a b : K) (bit : Int) (delta : K) : Except CodecError (K × K) := do
  validateQimInputs delta
  raiseIf (¬ (bit = 0 ∨ bit = 1)) (.value "bit must be 0 or 1")
  let difference := a - b
  let lattice := Rounding.halfEven (difference / delta)
  let target := if lattice % 2 = bit then lattice else lattice + 1
  let correction := (target * delta - difference) / 2
  return (a + correction, b - correction)

def qimExtractPair (a b delta : K) : Except CodecError (QimExtraction K) := do
  validateQimInputs delta
  let normalized := (a - b) / delta
  let lattice := Rounding.halfEven normalized
  let distance := |normalized - lattice|
  let confidence := max 0 (min 1 (1 - 2 * distance))
  return ⟨lattice % 2, lattice, confidence⟩

/-- A pair is moved to a multiple of the step whose parity is the bit. -/
theorem qimEmbedPair_spec [NeZero (2 : K)] {a b delta : K} {bit : Int} (hdelta : 0 < delta)
    (hbit : bit = 0 ∨ bit = 1) :
    ∃ pair, qimEmbedPair a b bit delta = .ok pair ∧
      ∃ target : Int, pair.1 - pair.2 = target * delta ∧ target % 2 = bit := by
  have hvalid : validateQimInputs delta = .ok () := raiseIf_neg (not_le.mpr hdelta) _
  set lattice := Rounding.halfEven ((a - b) / delta) with hlattice
  set target := if lattice % 2 = bit then lattice else lattice + 1 with htarget
  refine ⟨(a + (target * delta - (a - b)) / 2, b - (target * delta - (a - b)) / 2), ?_, target,
    ?_, ?_⟩
  · rw [qimEmbedPair, hvalid, ok_bind, raiseIf_neg (not_not.mpr hbit), ok_bind]
    rfl
  · -- the correction is added to one and taken from the other
    have htwo : (2 : K) ≠ 0 := two_ne_zero
    field_simp
    ring
  · rw [htarget]
    split_ifs <;> omega

/-- A pair whose difference is a multiple of the step is read without doubt. -/
theorem qimExtractPair_eq [IsStrictOrderedRing K] {a b delta : K} {target : Int} (hdelta : 0 < delta)
    (hpair : a - b = target * delta) :
    qimExtractPair a b delta = .ok ⟨target % 2, target, 1⟩ := by
  have hvalid : validateQimInputs delta = .ok () := raiseIf_neg (not_le.mpr hdelta) _
  have hnormalized : (a - b) / delta = target := by
    rw [hpair, mul_div_cancel_right₀ _ hdelta.ne']
  have hconfidence : max (0 : K) (min 1 (1 - 2 * |(target : K) - target|)) = 1 := by
    rw [sub_self, abs_zero, mul_zero, sub_zero, min_self, max_eq_right zero_le_one]
  rw [qimExtractPair, hvalid, ok_bind]
  simp only [hnormalized, Rounding.halfEven_intCast, hconfidence]
  rfl

end Qim

end Splitbind
