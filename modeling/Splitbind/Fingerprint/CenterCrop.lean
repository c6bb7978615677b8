import Mathlib.Analysis.Real.Sqrt
import Splitbind.Fingerprint.DwtDctQim
import Splitbind.Fingerprint.TilePlacement

/-!
# Centre crops — the window that the attack keeps, the layout spares and the receiver restores

Three places compute a window in the middle of a page from the scale of its sides: the crop attack,
the layout of V3 and the geometry search of its receiver.  Scales are elements of an ordered field.
-/

namespace Splitbind

open Transaction

/-! ## 1. The attack -/

section Attack

variable {K : Type} [Field K] [LinearOrder K] [FloorRing K]

/-- The `ValueError` of a crop. -/
inductive CropError
  | value (text : String)
deriving DecidableEq, Repr

structure NormalizedRect (K : Type) where
  x : K
  y : K
  width : K
  height : K

def NormalizedRect.right (rect : NormalizedRect K) : K := rect.x + rect.width

def NormalizedRect.bottom (rect : NormalizedRect K) : K := rect.y + rect.height

/-- `NormalizedRect(...)`, with the checks of `__post_init__`. -/
def normalizedRect (x y width height : K) : Except CropError (NormalizedRect K) := do
  raiseIf (x < 0 ∨ y < 0 ∨ width ≤ 0 ∨ height ≤ 0)
    (.value "normalized rectangle must be non-empty and start within [0, 1]")
  raiseIf (1 < x + width ∨ 1 < y + height)
    (.value "normalized rectangle must fit within [0, 1]")
  return ⟨x, y, width, height⟩

structure CropGeometry (K : Type) where
  x0 : Int
  y0 : Int
  retainedWidth : Int
  retainedHeight : Int
  retained : NormalizedRect K
  actualFraction : K

/-- The first row, or column, that the attack keeps of a side, and how many. -/
def cropSide (side : Int) (sideScale : K) : Int × Int :=
  let retained := max 1 (Rounding.halfEven (side * sideScale))
  ((side - retained) / 2, retained)

/-- `_crop_geometry`; `sqrt` is `math.sqrt`. -/
def cropGeometry (sqrt : K → K) (fraction : K) (pageShape : Int × Int) :
    Except CropError (CropGeometry K) := do
  raiseIf (pageShape.1 < 1 ∨ pageShape.2 < 1)
    (.value "crop page shape must be positive integer (height, width)")
  raiseIf (fraction < 0 ∨ 1 ≤ fraction) (.value "fraction must be in [0.0, 1.0)")
  let (height, width) := pageShape
  let sideScale := sqrt (1 - fraction)
  let (x0, retainedWidth) := cropSide width sideScale
  let (y0, retainedHeight) := cropSide height sideScale
  let actualFraction := 1 - (retainedWidth * retainedHeight : K) / (width * height)
  let retained ← normalizedRect (x0 / width : K) (y0 / height) (retainedWidth / width)
    (retainedHeight / height)
  return ⟨x0, y0, retainedWidth, retainedHeight, retained, actualFraction⟩

end Attack

/-- `image[y0 : y0 + height, x0 : x0 + width]`. -/
def Image.slice {α : Type} (image : Image α) (y0 x0 height width : Nat) : Image α where
  height := min height (image.height - y0)
  width := min width (image.width - x0)
  pixel := fun y x ↦ image.pixel (y0 + y) (x0 + x)

/-- The image that `_crop_fraction` leaves. -/
def cropFraction {α K : Type} (image : Image α) (geometry : CropGeometry K) : Image α :=
  image.slice geometry.y0.toNat geometry.x0.toNat geometry.retainedHeight.toNat
    geometry.retainedWidth.toNat

/-! ## 2. The benchmark and the receiver -/

section Receiver

variable {K : Type} [Field K] [LinearOrder K] [FloorRing K]

/-- What the benchmark and the geometry search read of a V3 profile. -/
structure CropProfileV3 (K : Type) extends LayoutProfileV3 K where
  payloadRepetitions : Nat
  geometryRatioTolerance : K

/-- A tile lies inside a retained rectangle. -/
def NormalizedRect.counts (retained : NormalizedRect K) (pageShape : Int × Int) (tile : Tile) :
    Bool :=
  let (height, width) := pageShape
  let left := retained.x * width
  let top := retained.y * height
  let right := retained.right * width
  let bottom := retained.bottom * height
  left ≤ tile.x ∧ top ≤ tile.y ∧ ((tile.x + tile.width : Nat) : K) ≤ right ∧
    ((tile.y + tile.height : Nat) : K) ≤ bottom

/-- `_remaining_embedded_tiles_v3`. -/
def remainingEmbeddedTilesV3 (hmac : HmacSha256) (pageShape : Int × Int) (key : List UInt8)
    (pageIndex : Int) (profile : CropProfileV3 K) (retained : NormalizedRect K) :
    Except LayoutError Nat := do
  let tiles ← deriveTilesV3 hmac pageShape key pageIndex profile.toLayoutProfileV3
  return (tiles.take profile.payloadRepetitions).countP (retained.counts pageShape)

/-- `math.isclose` with one tolerance, relative and absolute. -/
def ratiosAgree (first second tolerance : K) : Bool :=
  |first - second| ≤ max (tolerance * max |first| |second|) tolerance

/-- A canvas of the canonical shape, white around what was received. -/
def centerCropCanvas {α : Type} (white : α) (canonicalHeight canonicalWidth : Nat)
    (attacked : Image α) : Image α :=
  let y0 := (canonicalHeight - attacked.height) / 2
  let x0 := (canonicalWidth - attacked.width) / 2
  { height := canonicalHeight
    width := canonicalWidth
    pixel := fun y x ↦
      if (y0 ≤ y ∧ y < y0 + attacked.height) ∧ x0 ≤ x ∧ x < x0 + attacked.width then
        attacked.pixel (y - y0) (x - x0)
      else white }

/-- The images of the `center_crop` hypotheses, before repeated matrices and those beyond the bound
on hypotheses are dropped. -/
def centerCropHypotheses {α : Type} (white : α) (attacked : Image α)
    (canonicalHeight canonicalWidth : Nat) (profile : CropProfileV3 K) : List (Image α) :=
  let ratioY : K := attacked.height / canonicalHeight
  let ratioX : K := attacked.width / canonicalWidth
  let tolerance := profile.geometryRatioTolerance
  if ratiosAgree ratioY ratioX tolerance ∧ attacked.height ≤ canonicalHeight ∧
      attacked.width ≤ canonicalWidth then
    (profile.cropRetainedScales.filter fun retainedScale ↦
      ratiosAgree ratioY retainedScale tolerance ∧
        ratiosAgree ratioX retainedScale tolerance).map fun _ ↦
          centerCropCanvas white canonicalHeight canonicalWidth attacked
  else []

end Receiver

/-! ## 3. One window -/

section Window

variable {K : Type} [Field K] [LinearOrder K] [IsStrictOrderedRing K] [FloorRing K]

/-- The part of a side that is kept begins and ends on it. -/
structure KeptSide (side : Nat) (window : Int × Int) : Prop where
  first : 0 ≤ window.1
  count : 0 ≤ window.2
  last : window.1 + window.2 ≤ side
  middle : window.1 = (side - window.2) / 2

theorem retainedSide_kept {side : Nat} {retainedScale : K} (hpos : 0 ≤ retainedScale)
    (hle : retainedScale ≤ 1) : KeptSide side (retainedSide side retainedScale) := by
  have hside : (0 : K) ≤ side := Nat.cast_nonneg side
  have hcount : 0 ≤ Rounding.halfEven ((side : K) * retainedScale) :=
    Rounding.halfEven_nonneg (mul_nonneg hside hpos)
  have hfits : Rounding.halfEven ((side : K) * retainedScale) ≤ (side : Int) := by
    apply Rounding.halfEven_le
    rw [Int.cast_natCast]
    exact mul_le_of_le_one_right hside hle
  have hfirst : (retainedSide side retainedScale).1 =
      (side - Rounding.halfEven ((side : K) * retainedScale)) / 2 := rfl
  have hsecond : (retainedSide side retainedScale).2 =
      Rounding.halfEven ((side : K) * retainedScale) := rfl
  constructor
  · rw [hfirst]
    omega
  · rw [hsecond]
    exact hcount
  · rw [hfirst, hsecond]
    omega
  · rfl

/-- The attack keeps what the layout spares, of a side that keeps a row at all. -/
theorem cropSide_eq {side : Nat} {retainedScale : K} (hpos : 0 ≤ retainedScale)
    (hhalf : 1 / 2 < (side : K) * retainedScale) :
    cropSide side retainedScale = retainedSide side retainedScale ∧
      0 < (retainedSide side retainedScale).2 := by
  have hcount : 0 < Rounding.halfEven ((side : K) * retainedScale) :=
    (Rounding.halfEven_pos (mul_nonneg (Nat.cast_nonneg side) hpos)).mpr hhalf
  have hmax : max 1 (Rounding.halfEven ((side : K) * retainedScale)) =
      Rounding.halfEven ((side : K) * retainedScale) := max_eq_right hcount
  refine ⟨?_, hcount⟩
  rw [cropSide, retainedSide, Int.cast_natCast, hmax]

/-- A rectangle of rows and columns of a page, in fractions of its sides. -/
def windowRect (height width : Nat) (rows columns : Int × Int) : NormalizedRect K where
  x := columns.1 / (width : Int)
  y := rows.1 / (height : Int)
  width := columns.2 / (width : Int)
  height := rows.2 / (height : Int)

/-- The rectangle passes its checks. -/
theorem normalizedRect_window {height width : Nat} {rows columns : Int × Int}
    (hheight : 0 < height) (hwidth : 0 < width) (hrows : KeptSide height rows)
    (hcolumns : KeptSide width columns) (hrow : 0 < rows.2) (hcolumn : 0 < columns.2) :
    normalizedRect (columns.1 / (width : Int) : K) (rows.1 / (height : Int))
        (columns.2 / (width : Int)) (rows.2 / (height : Int)) =
      .ok (windowRect height width rows columns) := by
  have hheight' : (0 : K) < ((height : Int) : K) := by exact_mod_cast hheight
  have hwidth' : (0 : K) < ((width : Int) : K) := by exact_mod_cast hwidth
  have hstart : ¬ ((columns.1 / (width : Int) : K) < 0 ∨ (rows.1 / (height : Int) : K) < 0 ∨
      (columns.2 / (width : Int) : K) ≤ 0 ∨ (rows.2 / (height : Int) : K) ≤ 0) := by
    rw [not_or, not_or, not_or, not_lt, not_lt, not_le, not_le]
    exact ⟨div_nonneg (by exact_mod_cast hcolumns.first) hwidth'.le,
      div_nonneg (by exact_mod_cast hrows.first) hheight'.le,
      div_pos (by exact_mod_cast hcolumn) hwidth', div_pos (by exact_mod_cast hrow) hheight'⟩
  have hend : ¬ (1 < (columns.1 / (width : Int) : K) + columns.2 / (width : Int) ∨
      1 < (rows.1 / (height : Int) : K) + rows.2 / (height : Int)) := by
    rw [not_or, not_lt, not_lt, ← add_div, ← add_div, div_le_one hwidth', div_le_one hheight']
    exact ⟨by exact_mod_cast hcolumns.last, by exact_mod_cast hrows.last⟩
  rw [normalizedRect, raiseIf_neg hstart, ok_bind, raiseIf_neg hend]
  rfl

/-- A tile is counted exactly when it lies between the first and the last row and column. -/
theorem counts_window {height width : Nat} {rows columns : Int × Int} (hheight : 0 < height)
    (hwidth : 0 < width) (tile : Tile) :
    (windowRect height width rows columns : NormalizedRect K).counts (height, width) tile =
      decide (columns.1 ≤ tile.x ∧ rows.1 ≤ tile.y ∧
        (tile.x : Int) + tile.width ≤ columns.1 + columns.2 ∧
        (tile.y : Int) + tile.height ≤ rows.1 + rows.2) := by
  have hheight' : ((height : Int) : K) ≠ 0 := by exact_mod_cast hheight.ne'
  have hwidth' : ((width : Int) : K) ≠ 0 := by exact_mod_cast hwidth.ne'
  simp only [NormalizedRect.counts, NormalizedRect.right, NormalizedRect.bottom, windowRect,
    add_mul, div_mul_cancel₀ _ hheight', div_mul_cancel₀ _ hwidth']
  apply decide_eq_decide.mpr
  refine and_congr ?_ (and_congr ?_ (and_congr ?_ ?_))
  · exact_mod_cast Iff.rfl
  · exact_mod_cast Iff.rfl
  · exact_mod_cast Iff.rfl
  · exact_mod_cast Iff.rfl

end Window

/-! ## 4. Survivors -/

section Survivors

variable {K : Type} [Field K] [LinearOrder K] [FloorRing K]

theorem survivesCenterCrops_singleton (tile : Tile) (height width : Nat) (retainedScale : K) :
    survivesCenterCrops tile height width [retainedScale] =
      decide ((retainedSide width retainedScale).1 ≤ tile.x ∧
        (retainedSide height retainedScale).1 ≤ tile.y ∧
        (tile.x : Int) + tile.width ≤
          (retainedSide width retainedScale).1 + (retainedSide width retainedScale).2 ∧
        (tile.y : Int) + tile.height ≤
          (retainedSide height retainedScale).1 + (retainedSide height retainedScale).2) := by
  rw [survivesCenterCrops, List.all_cons, List.all_nil, Bool.and_true]

/-- Among the first of the survivors and the others, the survivors come first. -/
theorem take_survivorsFirst (p : Tile → Bool) (candidates : List Tile) (count : Nat) :
    (candidates.filter p ++ candidates.filter (! p ·)).take count =
      ((candidates.filter p ++ candidates.filter (! p ·)).take count).filter p ++
        ((candidates.filter p ++ candidates.filter (! p ·)).take count).filter (! p ·) := by
  have hkept : ∀ n, ((candidates.filter p).take n).filter p = (candidates.filter p).take n := by
    intro n
    rw [List.filter_eq_self]
    exact fun tile htile ↦ (List.mem_filter.mp (List.mem_of_mem_take htile)).2
  have hdropped : ∀ n, ((candidates.filter (! p ·)).take n).filter p = [] := by
    intro n
    rw [List.filter_eq_nil_iff]
    intro tile htile hp
    have hnot := (List.mem_filter.mp (List.mem_of_mem_take htile)).2
    rw [hp] at hnot
    cases hnot
  have hkept' : ∀ n, ((candidates.filter p).take n).filter (! p ·) = [] := by
    intro n
    rw [List.filter_eq_nil_iff]
    intro tile htile hnot
    rw [(List.mem_filter.mp (List.mem_of_mem_take htile)).2] at hnot
    cases hnot
  have hdropped' : ∀ n, ((candidates.filter (! p ·)).take n).filter (! p ·) =
      (candidates.filter (! p ·)).take n := by
    intro n
    rw [List.filter_eq_self]
    exact fun tile htile ↦ (List.mem_filter.mp (List.mem_of_mem_take htile)).2
  rw [List.take_append, List.filter_append, List.filter_append, hkept, hdropped, hkept', hdropped',
    List.append_nil, List.nil_append]

/-- The tiles of V3: the survivors among them first, and none but survivors where there are enough. -/
theorem deriveTilesV3_survivors {hmac : HmacSha256} {pageShape : Int × Int} {key : List UInt8}
    {pageIndex : Int} {profile : LayoutProfileV3 K} {tiles : List Tile}
    (h : deriveTilesV3 hmac pageShape key pageIndex profile = .ok tiles) :
    (tiles = tiles.filter (survivesCenterCrops · pageShape.1.toNat pageShape.2.toNat
          profile.cropRetainedScales) ++
        tiles.filter (! survivesCenterCrops · pageShape.1.toNat pageShape.2.toNat
          profile.cropRetainedScales)) ∧
      ∀ k, k ≤ ((tileGrid pageShape.1.toNat pageShape.2.toNat profile.tileSizePx.toNat).filter
          (survivesCenterCrops · pageShape.1.toNat pageShape.2.toNat
            profile.cropRetainedScales)).length →
        ∀ tile ∈ tiles.take k, survivesCenterCrops tile pageShape.1.toNat pageShape.2.toNat
          profile.cropRetainedScales = true := by
  obtain ⟨-, shuffled, hperm, -, rfl⟩ :=
    deriveTiles_placed (survivorsFirst_perm profile.cropRetainedScales) h
  refine ⟨take_survivorsFirst _ shuffled _, fun k hk tile htile ↦ ?_⟩
  have hcount := (hperm.filter (survivesCenterCrops · pageShape.1.toNat pageShape.2.toNat
    profile.cropRetainedScales)).length_eq
  rw [← hcount] at hk
  rw [List.take_take, survivorsFirst, List.take_append_of_le_length (by omega)] at htile
  exact (List.mem_filter.mp (List.mem_of_mem_take htile)).2

end Survivors

/-- The receiver puts back what the attack kept, where it was. -/
theorem centerCropCanvas_restores {α : Type} {white : α} {page attacked : Image α}
    {rows columns : Int × Int} (hrows : KeptSide page.height rows)
    (hcolumns : KeptSide page.width columns)
    (hattacked : attacked = page.slice rows.1.toNat columns.1.toNat rows.2.toNat columns.2.toNat)
    {x y : Nat} (hy : rows.1 ≤ y ∧ (y : Int) < rows.1 + rows.2)
    (hx : columns.1 ≤ x ∧ (x : Int) < columns.1 + columns.2) :
    (centerCropCanvas white page.height page.width attacked).pixel y x = page.pixel y x := by
  have hheight : attacked.height = rows.2.toNat := by
    rw [hattacked]
    show min rows.2.toNat (page.height - rows.1.toNat) = _
    have hlast := hrows.last
    have hfirst := hrows.first
    omega
  have hwidth : attacked.width = columns.2.toNat := by
    rw [hattacked]
    show min columns.2.toNat (page.width - columns.1.toNat) = _
    have hlast := hcolumns.last
    have hfirst := hcolumns.first
    omega
  -- both offsets are half of what is missing, rounded down
  have hy0 : (page.height - attacked.height) / 2 = rows.1.toNat := by
    have hmiddle := hrows.middle
    have hcount := hrows.count
    have hlast := hrows.last
    rw [hheight]
    omega
  have hx0 : (page.width - attacked.width) / 2 = columns.1.toNat := by
    have hmiddle := hcolumns.middle
    have hcount := hcolumns.count
    have hlast := hcolumns.last
    rw [hwidth]
    omega
  have hfirst := hrows.first
  have hfirst' := hcolumns.first
  have hinside : (rows.1.toNat ≤ y ∧ y < rows.1.toNat + attacked.height) ∧
      columns.1.toNat ≤ x ∧ x < columns.1.toNat + attacked.width := by
    rw [hheight, hwidth]
    omega
  simp only [centerCropCanvas]
  rw [hy0, hx0, if_pos hinside, hattacked]
  show page.pixel (rows.1.toNat + (y - rows.1.toNat)) (columns.1.toNat + (x - columns.1.toNat)) = _
  rw [Nat.add_sub_cancel' hinside.1.1, Nat.add_sub_cancel' hinside.2.1]

/-- **One window.**  For a page whose scaled sides keep a row and a column, the attack keeps the
window that the layout spares, a tile survives exactly when the benchmark counts it, and the receiver
reads every surviving tile from its original pixels; V3 lists the survivors first. -/
theorem center_crop_agrees :
    (∀ (height width : Nat) (retainedScale : ℝ), 0 < height → 0 < width → 0 < retainedScale →
      retainedScale ≤ 1 → 1 / 2 < height * retainedScale → 1 / 2 < width * retainedScale →
      ∃ geometry, cropGeometry Real.sqrt (1 - retainedScale ^ 2) (height, width) = .ok geometry ∧
        (geometry.y0, geometry.retainedHeight) = retainedSide height retainedScale ∧
        (geometry.x0, geometry.retainedWidth) = retainedSide width retainedScale ∧
        (∀ tile, survivesCenterCrops tile height width [retainedScale] =
          geometry.retained.counts (height, width) tile) ∧
        (∀ (hmac : HmacSha256) (key : List UInt8) (pageIndex : Int) (profile : CropProfileV3 ℝ),
          remainingEmbeddedTilesV3 hmac (height, width) key pageIndex profile geometry.retained =
            (deriveTilesV3 hmac (height, width) key pageIndex profile.toLayoutProfileV3).map
              fun tiles ↦ (tiles.take profile.payloadRepetitions).countP
                (survivesCenterCrops · height width [retainedScale])) ∧
        ∀ (α : Type) (white : α) (page : Image α) (profile : CropProfileV3 ℝ),
          page.height = height → page.width = width →
          ∀ canvas ∈ centerCropHypotheses white (cropFraction page geometry) height width profile,
            canvas.height = height ∧ canvas.width = width ∧
            (∀ x y : Nat, geometry.y0 ≤ y → y < geometry.y0 + geometry.retainedHeight →
              geometry.x0 ≤ x → x < geometry.x0 + geometry.retainedWidth →
              canvas.pixel y x = page.pixel y x) ∧
            ∀ tile, survivesCenterCrops tile height width [retainedScale] = true →
              ∀ x y, tile.Covers x y → canvas.pixel y x = page.pixel y x) ∧
    ∀ (K : Type) [Field K] [LinearOrder K] [FloorRing K] (hmac : HmacSha256)
      (pageShape : Int × Int) (key : List UInt8) (pageIndex : Int) (profile : LayoutProfileV3 K)
      (tiles : List Tile), deriveTilesV3 hmac pageShape key pageIndex profile = .ok tiles →
      (tiles = tiles.filter (survivesCenterCrops · pageShape.1.toNat pageShape.2.toNat
            profile.cropRetainedScales) ++
          tiles.filter (! survivesCenterCrops · pageShape.1.toNat pageShape.2.toNat
            profile.cropRetainedScales)) ∧
        ∀ k, k ≤ ((tileGrid pageShape.1.toNat pageShape.2.toNat profile.tileSizePx.toNat).filter
            (survivesCenterCrops · pageShape.1.toNat pageShape.2.toNat
              profile.cropRetainedScales)).length →
          ∀ tile ∈ tiles.take k, survivesCenterCrops tile pageShape.1.toNat pageShape.2.toNat
            profile.cropRetainedScales = true := by
  constructor
  · intro height width retainedScale hheight hwidth hpos hle hhalfHeight hhalfWidth
    have hrows : KeptSide height (retainedSide height retainedScale) :=
      retainedSide_kept hpos.le hle
    have hcolumns : KeptSide width (retainedSide width retainedScale) :=
      retainedSide_kept hpos.le hle
    obtain ⟨hrowsEq, hrow⟩ := cropSide_eq hpos.le hhalfHeight
    obtain ⟨hcolumnsEq, hcolumn⟩ := cropSide_eq hpos.le hhalfWidth
    -- the retained scale is the root of what the removed share leaves
    have hsqrt : √(1 - (1 - retainedScale ^ 2)) = retainedScale := by
      rw [sub_sub_cancel, Real.sqrt_sq hpos.le]
    have hshape : ¬ ((height : Int) < 1 ∨ (width : Int) < 1) := by omega
    have hfraction : ¬ (1 - retainedScale ^ 2 < 0 ∨ 1 ≤ 1 - retainedScale ^ 2) := by
      have hsquare : 0 < retainedScale ^ 2 := by positivity
      have hsquare' : retainedScale ^ 2 ≤ 1 := pow_le_one₀ hpos.le hle
      rw [not_or, not_lt, not_le]
      constructor <;> linarith
    have hgeometry : cropGeometry Real.sqrt (1 - retainedScale ^ 2) (height, width) =
        .ok ⟨(retainedSide width retainedScale).1, (retainedSide height retainedScale).1,
          (retainedSide width retainedScale).2, (retainedSide height retainedScale).2,
          windowRect height width (retainedSide height retainedScale)
            (retainedSide width retainedScale),
          1 - ((retainedSide width retainedScale).2 * (retainedSide height retainedScale).2 : ℝ) /
            ((width : Int) * (height : Int))⟩ := by
      rw [cropGeometry, raiseIf_neg hshape, ok_bind, raiseIf_neg hfraction, ok_bind]
      dsimp only
      rw [hsqrt, hrowsEq, hcolumnsEq]
      rw [normalizedRect_window hheight hwidth hrows hcolumns hrow hcolumn]
      rfl
    -- a tile survives when it lies within the retained window
    have hcounts : ∀ tile, survivesCenterCrops tile height width [retainedScale] =
        (windowRect height width (retainedSide height retainedScale)
          (retainedSide width retainedScale) : NormalizedRect ℝ).counts (height, width) tile := by
      intro tile
      rw [survivesCenterCrops_singleton, counts_window hheight hwidth]
    refine ⟨_, hgeometry, rfl, rfl, hcounts, fun hmac key pageIndex profile ↦ ?_, ?_⟩
    · rw [remainingEmbeddedTilesV3, funext hcounts]
      cases deriveTilesV3 hmac (height, width) key pageIndex profile.toLayoutProfileV3 <;> rfl
    · rintro α white page profile rfl rfl canvas hcanvas
      have heq : canvas = centerCropCanvas white page.height page.width
          (page.slice (retainedSide page.height retainedScale).1.toNat
            (retainedSide page.width retainedScale).1.toNat
            (retainedSide page.height retainedScale).2.toNat
            (retainedSide page.width retainedScale).2.toNat) := by
        rw [centerCropHypotheses] at hcanvas
        split_ifs at hcanvas
        · obtain ⟨scale, -, rfl⟩ := List.mem_map.mp hcanvas
          rfl
        · exact absurd hcanvas List.not_mem_nil
      subst heq
      -- the canvas shows the page again where it was retained
      have hrestored : ∀ x y : Nat, (retainedSide page.height retainedScale).1 ≤ y →
          y < (retainedSide page.height retainedScale).1 +
            (retainedSide page.height retainedScale).2 →
          (retainedSide page.width retainedScale).1 ≤ x →
          x < (retainedSide page.width retainedScale).1 +
            (retainedSide page.width retainedScale).2 →
          (centerCropCanvas white page.height page.width
            (page.slice (retainedSide page.height retainedScale).1.toNat
              (retainedSide page.width retainedScale).1.toNat
              (retainedSide page.height retainedScale).2.toNat
              (retainedSide page.width retainedScale).2.toNat)).pixel y x = page.pixel y x :=
        fun x y hy hy' hx hx' ↦
          centerCropCanvas_restores hrows hcolumns rfl ⟨hy, hy'⟩ ⟨hx, hx'⟩
      refine ⟨rfl, rfl, hrestored, fun tile hsurvives x y hcovers ↦ ?_⟩
      rw [survivesCenterCrops_singleton, decide_eq_true_eq] at hsurvives
      obtain ⟨hleft, htop, hright, hbottom⟩ := hsurvives
      obtain ⟨hx, hx', hy, hy'⟩ := hcovers
      exact hrestored x y (by omega) (by omega) (by omega) (by omega)
  · intro K _ _ _ hmac pageShape key pageIndex profile tiles h
    exact deriveTilesV3_survivors h

/-- Four fifths of each side, the root of 16 / 25: the attack and the layout have one window, and a
tile in it survives and is counted. -/
example : (cropGeometry (fun _ ↦ 4 / 5) (9 / 25 : ℚ) (100, 50)).map (fun geometry ↦
      ((geometry.y0, geometry.retainedHeight), (geometry.x0, geometry.retainedWidth),
        geometry.retained.counts (100, 50) ⟨8, 16, 16, 16⟩)) = .ok ((10, 80), (5, 40), true) ∧
    retainedSide 100 (4 / 5 : ℚ) = (10, 80) ∧ retainedSide 50 (4 / 5 : ℚ) = (5, 40) ∧
    survivesCenterCrops ⟨8, 16, 16, 16⟩ 100 50 [(4 / 5 : ℚ)] = true := by
  decide +kernel

/-! ### A page of one pixel, of which a quarter of each side is kept -/

theorem center_crop_differs :
    ∃ geometry, cropGeometry Real.sqrt (1 - (1 / 4) ^ 2) (1, 1) = .ok geometry ∧
      (geometry.y0, geometry.retainedHeight) = (0, 1) ∧
      retainedSide 1 (1 / 4 : ℝ) = (0, 0) := by
  have hnone : Rounding.halfEven (1 / 4 : ℝ) = 0 := by
    have hnonneg : 0 ≤ Rounding.halfEven (1 / 4 : ℝ) := Rounding.halfEven_nonneg (by norm_num)
    have hnotpos := (Rounding.halfEven_pos (show (0 : ℝ) ≤ 1 / 4 by norm_num)).not.mpr
      (by norm_num)
    omega
  have hside : cropSide 1 (1 / 4 : ℝ) = (0, 1) := by
    rw [cropSide, Int.cast_one, one_mul, hnone]
    rfl
  have hkept : KeptSide 1 (0, 1) := ⟨le_rfl, zero_le_one, le_rfl, rfl⟩
  have hrect := normalizedRect_window (K := ℝ) Nat.one_pos Nat.one_pos hkept hkept one_pos one_pos
  have hsqrt : √(1 - (1 - (1 / 4 : ℝ) ^ 2)) = 1 / 4 := by
    rw [sub_sub_cancel, Real.sqrt_sq (by norm_num)]
  refine ⟨⟨0, 0, 1, 1, windowRect 1 1 (0, 1) (0, 1), 1 - ((1 : Int) * (1 : Int) : ℝ) /
    ((1 : Int) * (1 : Int))⟩, ?_, rfl, ?_⟩
  · have hfraction : ¬ (1 - (1 / 4 : ℝ) ^ 2 < 0 ∨ 1 ≤ 1 - (1 / 4 : ℝ) ^ 2) := by norm_num
    rw [cropGeometry, raiseIf_neg (by decide), ok_bind, raiseIf_neg hfraction, ok_bind]
    dsimp only
    rw [hsqrt, hside]
    simp only [Nat.cast_one] at hrect
    rw [hrect]
    rfl
  · simp only [retainedSide, Nat.cast_one, one_mul, hnone]
    rfl

end Splitbind
