import Splitbind.Fingerprint.EmbeddingStrength
import Splitbind.Fingerprint.LuminanceReplacement
import Splitbind.Fingerprint.TilePlacement

/-!
# Page embedding — a pilot, some tiles, and one pass over the raster

The pilot is added to the luminance of the page, the codeword of an id is embedded into the first
tiles of its layout, and the channels follow the changed luminance.  On a page with headroom nothing
is clipped, so every tile of the raster is near the tile that was embedded.
-/

namespace Splitbind

open Transaction

/-! ## 1. Profiles -/

/-- `FingerprintV2Profile`, with all its fields. -/
structure GridProfileV2 (K : Type) where
  schemaVersion : Nat
  contractSha256 : List UInt8
  qimDelta : K
  pilotStrengthRms : K
  tileSizePx : Nat
  tilesPerPage : Nat
  payloadRepetitions : Nat
  bitReplication : Nat
  bitConfidenceMin : K
  pilotScoreMin : K
deriving DecidableEq

/-- The stages of `AlignmentV2RuntimeError`. -/
inductive AlignmentStage
  | pilotEstimation
  | orbEstimation
  | geometryValidation
  | canonicalWarp
deriving DecidableEq, Repr

/-- What is raised on a page, by the part that raises it. -/
inductive PageError
  | value (text : String)
  | runtime (stage : AlignmentStage) (hypothesisCount : Nat)
  | codec (error : CodecError)
  | layout (error : LayoutError)
  | payload (error : PayloadError)
  | attempt (error : AttemptRaised)
  | decision (error : Raised)
  | other
deriving DecidableEq, Repr

section Profiles

variable {K : Type} [Field K]

/-- The fields that the codec reads. -/
def GridProfileV2.codec (profile : GridProfileV2 K) : CodecProfile K where
  schemaVersion := profile.schemaVersion
  contractSha256 := profile.contractSha256
  qimDelta := profile.qimDelta
  tileSizePx := profile.tileSizePx
  tilesPerPage := profile.tilesPerPage
  payloadRepetitions := profile.payloadRepetitions
  bitReplication := profile.bitReplication
  bitConfidenceMin := profile.bitConfidenceMin

/-- The bytes of `candidate_identifier_v2`, where it does not raise. -/
def GridProfileV2.identifier (packReal : K → List UInt8) (profile : GridProfileV2 K) : List UInt8 :=
  [0x53, 0x42, 0x46, 0x32, 0x01] ++ profile.contractSha256 ++
    BigEndian.toBytes 4 profile.schemaVersion ++ packReal profile.qimDelta ++
    packReal profile.pilotStrengthRms ++ BigEndian.toBytes 4 profile.tileSizePx ++
    BigEndian.toBytes 4 profile.tilesPerPage ++ BigEndian.toBytes 4 profile.payloadRepetitions ++
    BigEndian.toBytes 4 profile.bitReplication

def GridProfileV2.layout (packReal : K → List UInt8) (profile : GridProfileV2 K) : LayoutProfile where
  schemaVersion := profile.schemaVersion
  tileSizePx := profile.tileSizePx
  tilesPerPage := profile.tilesPerPage
  candidateIdentifier :=
    match candidateIdentifierV2 profile.codec with
    | .ok _ => .ok (profile.identifier packReal)
    | .error _ => .error .identifier

/-- The candidate that votes are cast for; every byte of its identifier is a character. -/
def GridProfileV2.candidate (packReal : K → List UInt8) (profile : GridProfileV2 K) :
    FingerprintV2Profile where
  identifier := String.ofList ((profile.identifier packReal).map fun byte ↦ Char.ofNat byte.toNat)
  payloadRepetitions := profile.payloadRepetitions

/-- `_EXPECTED_COUPLED_LEVELS`: the steps, and the strengths of the pilot. -/
def coupledLevels : List (K × K) :=
  [(((24 : Nat) : K), ((3 : Nat) : K) / ((2 : Nat) : K)), (((32 : Nat) : K), ((2 : Nat) : K)),
    (((48 : Nat) : K), ((3 : Nat) : K)), (((64 : Nat) : K), ((4 : Nat) : K))]

/-- `load_v2_profiles`, for the digest of the frozen contract. -/
def loadV2Profiles (contractSha256 : List UInt8) : List (GridProfileV2 K) :=
  coupledLevels.flatMap fun level ↦ [384, 512].flatMap fun tileSizePx ↦
    [3, 5].map fun payloadRepetitions ↦
      { schemaVersion := 2, contractSha256 := contractSha256, qimDelta := level.1,
        pilotStrengthRms := level.2, tileSizePx := tileSizePx, tilesPerPage := 18,
        payloadRepetitions := payloadRepetitions, bitReplication := 3,
        bitConfidenceMin := ((3 : Nat) : K) / ((5 : Nat) : K),
        pilotScoreMin := ((1 : Nat) : K) / ((5 : Nat) : K) }

variable [LinearOrder K]

/-- `_validate_profile` of the fingerprint. -/
def validateFingerprintProfile (profile : GridProfileV2 K) : Except PageError Unit := do
  raiseIf (profile.schemaVersion ≠ 2) (.value "profile schema_version must be 2")
  raiseIf (profile.qimDelta ≤ 0 ∨ profile.pilotStrengthRms ≤ 0)
    (.value "profile strengths must be finite and positive")
  raiseIf (profile.payloadRepetitions ≤ 0 ∨ profile.tilesPerPage < profile.payloadRepetitions)
    (.value "profile payload_repetitions must fit tiles_per_page")
  (candidateIdentifierV2 profile.codec).mapError .codec

/-- `_validate_canonical_profile`. -/
def validateCanonicalProfile (contractSha256 : List UInt8) (profile : GridProfileV2 K) :
    Except PageError Unit := do
  validateFingerprintProfile profile
  raiseIf (profile ∉ loadV2Profiles contractSha256)
    (.value "profile must be an exact profile from the frozen V2 grid")

end Profiles

def validateFingerprintKey (key : List UInt8) : Except PageError Unit :=
  raiseIf (key = []) (.value "key must be non-empty bytes")

def validateFingerprintIndex (pageIndex : Int) : Except PageError Unit :=
  raiseIf (¬ (0 ≤ pageIndex ∧ pageIndex ≤ 0xFFFFFFFF))
    (.value "page_index must fit an unsigned 32-bit integer")

/-- `_validate_page`, of a page that is an array of BGR pixels. -/
def validatePage (page : Image Bgr) : Except PageError Unit := do
  raiseIf (page.height = 0 ∨ page.width = 0) (.value "page must have non-empty dimensions")
  raiseIf (40000000 < page.height * page.width)
    (.value "page exceeds the 40-megapixel processing ceiling")

/-! ## 2. Regions of an image -/

section Regions

variable {K : Type}

/-- `image[tile.y : tile.y + tile.height, tile.x : tile.x + tile.width]`, inside the image. -/
def Image.crop (image : Image K) (tile : Tile) : Image K where
  height := tile.height
  width := tile.width
  pixel := fun y x ↦ image.pixel (tile.y + y) (tile.x + x)

/-- An assignment to that region. -/
def Image.paste (image : Image K) (tile : Tile) (region : Image K) : Image K :=
  { image with
    pixel := fun y x ↦
      if (tile.y ≤ y ∧ y < tile.y + tile.height) ∧ tile.x ≤ x ∧ x < tile.x + tile.width then
        region.pixel (y - tile.y) (x - tile.x)
      else image.pixel y x }

theorem Image.paste_inside {image region : Image K} {tile : Tile} {y x : Nat}
    (hy : y < tile.height) (hx : x < tile.width) :
    (image.paste tile region).pixel (tile.y + y) (tile.x + x) = region.pixel y x := by
  have hin : (tile.y ≤ tile.y + y ∧ tile.y + y < tile.y + tile.height) ∧
      tile.x ≤ tile.x + x ∧ tile.x + x < tile.x + tile.width := by omega
  show (if _ then _ else _) = _
  rw [if_pos hin, Nat.add_sub_cancel_left, Nat.add_sub_cancel_left]

theorem Image.paste_outside {image region : Image K} {tile : Tile} {y x : Nat}
    (hout : ¬ tile.Covers x y) : (image.paste tile region).pixel y x = image.pixel y x := by
  have hout' : ¬ ((tile.y ≤ y ∧ y < tile.y + tile.height) ∧
      tile.x ≤ x ∧ x < tile.x + tile.width) := by
    intro hin
    apply hout
    unfold Tile.Covers
    omega
  show (if _ then _ else _) = _
  rw [if_neg hout']

end Regions

/-! ## 3. Embedding -/

structure FingerprintV2Context where
  issuanceId : UUID
  fingerprintKey : List UInt8
  pageIndex : Int
deriving DecidableEq, Repr

/-- What the page functions call: the transforms, the keyed shuffle, the digest, the Reed-Solomon
library, how reals are packed, the digest of the contract, and the samples of the pilot. -/
structure PageTools (K : Type) [Field K] where
  numerics : Numerics K
  keyed : KeyedShuffle K
  hmac : HmacSha256
  library : Int → RSLibrary
  packReal : K → List UInt8
  contractSha256 : List UInt8
  /-- `synthesize_pilot_v2(...).spatial`. -/
  pilotSpatial : Nat × Nat → List UInt8 → Int → GridProfileV2 K → Nat → Nat → K

section Embedding

variable {K : Type} [Field K] [LinearOrder K] [FloorRing K] (tools : PageTools K)

/-- `embed_pilot_v2`. -/
def embedPilotV2 (luminance : Image K) (spatial : Nat → Nat → K) (strengthRms : K) : Image K :=
  { luminance with pixel := fun y x ↦ luminance.pixel y x + strengthRms * spatial y x }

/-- One turn of the loop over the tiles. -/
def embedTile (codeword : List UInt8) (context : FingerprintV2Context) (profile : GridProfileV2 K)
    (modifiedLuminance : Image K) (tile : Tile) : Except PageError (Image K) := do
  let region ← (embedCodewordV2 tools.numerics tools.keyed (modifiedLuminance.crop tile) codeword
    context.fingerprintKey context.pageIndex profile.codec).mapError .codec
  return modifiedLuminance.paste tile region

/-- `EmbeddedPageV2`, but for the quality it measures. -/
structure EmbeddedPageV2 where
  image : Image Bgr
  embeddedRepetitions : Nat

/-- The luminance that is written to the raster. -/
def targetLuminance (page : Image Bgr) (context : FingerprintV2Context)
    (profile : GridProfileV2 K) : Except PageError (Image K) := do
  let tiles ← (deriveTilesV2 tools.hmac (page.height, page.width) context.fingerprintKey
    context.pageIndex (profile.layout tools.packReal)).mapError .layout
  raiseIf (tiles.length < profile.payloadRepetitions)
    (.value "payload_repetitions cannot exceed the derived V2 tile count")
  let spatial := tools.pilotSpatial (page.height, page.width) context.fingerprintKey
    context.pageIndex profile
  let modifiedLuminance := embedPilotV2 (luminance page) spatial profile.pilotStrengthRms
  let payload ← (encodePayload context.issuanceId 1).mapError .payload
  let codeword ← (encodeEcc (fun parity ↦ (tools.library parity).codec) payload 16).mapError .payload
  (tiles.take profile.payloadRepetitions).foldlM (embedTile tools codeword context profile)
    modifiedLuminance

def embedFingerprintV2 (page : Image Bgr) (context : FingerprintV2Context)
    (profile : GridProfileV2 K) : Except PageError EmbeddedPageV2 := do
  validateFingerprintKey context.fingerprintKey
  validateFingerprintIndex context.pageIndex
  validateCanonicalProfile tools.contractSha256 profile
  validatePage page
  let modifiedLuminance ← targetLuminance tools page context profile
  return ⟨replaceLuminanceOnce page (luminance page) modifiedLuminance, profile.payloadRepetitions⟩

end Embedding

/-! ## 4. The tiles of the target -/

section Loop

variable {K : Type} [Field K] [LinearOrder K] [IsStrictOrderedRing K] [FloorRing K]
variable {tools : PageTools K}

/-- An image holds an embedded tile: the codeword went into a tile that had the samples of another
image, and what came out is in the image. -/
structure HoldsTile (tools : PageTools K) (codeword : List UInt8) (context : FingerprintV2Context)
    (profile : GridProfileV2 K) (before after : Image K) (tile : Tile) : Prop where
  intro ::
  embedded : ∃ source region,
    embedCodewordV2 tools.numerics tools.keyed source codeword context.fingerprintKey
      context.pageIndex profile.codec = .ok region ∧
    (∀ y < tile.height, ∀ x < tile.width,
      source.pixel y x = before.pixel (tile.y + y) (tile.x + x)) ∧
    ∀ y < tile.height, ∀ x < tile.width,
      after.pixel (tile.y + y) (tile.x + x) = region.pixel y x

omit [IsStrictOrderedRing K] in
/-- Disjoint tiles are embedded independently, and nothing else changes. -/
theorem embedTiles_spec {codeword : List UInt8} {context : FingerprintV2Context}
    {profile : GridProfileV2 K} {tiles : List Tile} {before after : Image K}
    (hdisjoint : tiles.Pairwise Tile.Disjoint)
    (h : tiles.foldlM (embedTile tools codeword context profile) before = .ok after) :
    (after.height, after.width) = (before.height, before.width) ∧
      (∀ y x, (∀ tile ∈ tiles, ¬ tile.Covers x y) → after.pixel y x = before.pixel y x) ∧
      ∀ tile ∈ tiles, HoldsTile tools codeword context profile before after tile := by
  induction tiles generalizing before with
  | nil =>
    cases h
    exact ⟨rfl, fun _ _ _ ↦ rfl, fun tile hmem ↦ absurd hmem List.not_mem_nil⟩
  | cons tile tiles ih =>
    obtain ⟨hapart, hrest⟩ := List.pairwise_cons.mp hdisjoint
    rw [List.foldlM_cons, bind_eq_ok] at h
    obtain ⟨next, hnext, h⟩ := h
    simp only [embedTile, bind_eq_ok, mapError_eq_ok, pure_eq_ok] at hnext
    obtain ⟨region, hregion, rfl⟩ := hnext
    obtain ⟨hshape, houtside, hholds⟩ := ih hrest h
    have hcovers : ∀ y < tile.height, ∀ x < tile.width, tile.Covers (tile.x + x) (tile.y + y) := by
      intro y hy x hx
      unfold Tile.Covers
      omega
    refine ⟨hshape, fun y x hout ↦ ?_, ?_⟩
    · rw [List.forall_mem_cons] at hout
      rw [houtside y x hout.2, Image.paste_outside hout.1]
    · rw [List.forall_mem_cons]
      constructor
      · -- the later tiles do not touch this one
        refine ⟨before.crop tile, region, hregion, fun y _ x _ ↦ rfl, fun y hy x hx ↦ ?_⟩
        have hout : ∀ other ∈ tiles, ¬ other.Covers (tile.x + x) (tile.y + y) :=
          fun other hother hcovered ↦ hapart other hother _ _ ⟨hcovers y hy x hx, hcovered⟩
        rw [houtside _ _ hout, Image.paste_inside hy hx]
      · -- and the earlier one has not touched those
        intro other hother
        obtain ⟨source, written, hwritten, hsource, hafter⟩ := (hholds other hother).embedded
        refine ⟨source, written, hwritten, fun y hy x hx ↦ ?_, hafter⟩
        have hout : ¬ tile.Covers (other.x + x) (other.y + y) := by
          intro hcovered
          refine hapart other hother _ _ ⟨hcovered, ?_⟩
          unfold Tile.Covers
          omega
        rw [hsource y hy x hx, Image.paste_outside hout]

/-- Every sample of the target is near the one before the tiles were embedded. -/
theorem embedTiles_move (hsteady : tools.numerics.Steady) {codeword : List UInt8}
    {context : FingerprintV2Context} {profile : GridProfileV2 K} {tiles : List Tile}
    {before after : Image K} (hdelta : 0 ≤ profile.qimDelta)
    (hdisjoint : tiles.Pairwise Tile.Disjoint)
    (hsize : ∀ tile ∈ tiles, tile.width = profile.tileSizePx ∧ tile.height = profile.tileSizePx)
    (h : tiles.foldlM (embedTile tools codeword context profile) before = .ok after) (y x : Nat) :
    |after.pixel y x - before.pixel y x| ≤ ((3 : Nat) : K) / 8 * profile.qimDelta := by
  obtain ⟨-, houtside, hholds⟩ := embedTiles_spec hdisjoint h
  by_cases hcovered : ∃ tile ∈ tiles, tile.Covers x y
  · obtain ⟨tile, htile, hcovers⟩ := hcovered
    obtain ⟨hwidth, hheight⟩ := hsize tile htile
    obtain ⟨source, region, hregion, hsource, hafter⟩ := (hholds tile htile).embedded
    unfold Tile.Covers at hcovers
    have hy : y - tile.y < tile.height := by omega
    have hx : x - tile.x < tile.width := by omega
    have hy' : y - tile.y < profile.codec.tileSizePx := hy.trans_eq hheight
    have hx' : x - tile.x < profile.codec.tileSizePx := hx.trans_eq hwidth
    have hmove := embedCodewordV2_move hsteady hregion hy' hx'
    rw [hsource _ hy _ hx, ← hafter _ hy _ hx, Nat.add_sub_cancel' (by omega),
      Nat.add_sub_cancel' (by omega)] at hmove
    exact hmove
  · have hout : ∀ tile ∈ tiles, ¬ tile.Covers x y :=
      fun tile htile hcovers ↦ hcovered ⟨tile, htile, hcovers⟩
    rw [houtside y x hout, sub_self, abs_zero]
    linarith

end Loop

/-! ## 5. The raster -/

section Raster

variable {K : Type} [Field K] [LinearOrder K] [IsStrictOrderedRing K] [FloorRing K]

omit [IsStrictOrderedRing K] in
/-- A channel is shifted by less than one more than the luminance. -/
theorem abs_integerOffset_le [IsStrictOrderedRing K] (luminanceDelta : K) (channel : Fin 3) :
    |(integerOffset luminanceDelta channel : K)| ≤ |luminanceDelta| + 1 := by
  have hlow := Int.floor_le luminanceDelta
  have hhigh := Int.lt_floor_add_one luminanceDelta
  have hpattern := channelPattern_le_one (patternChoice (luminanceDelta - ⌊luminanceDelta⌋)) channel
  have hcast : ((channelPattern (patternChoice (luminanceDelta - ⌊luminanceDelta⌋)) channel : Nat) : K)
      ≤ 1 := by exact_mod_cast hpattern
  have hnonneg : (0 : K) ≤ (channelPattern (patternChoice (luminanceDelta - ⌊luminanceDelta⌋))
      channel : Nat) := Nat.cast_nonneg _
  have hle := le_abs_self luminanceDelta
  have hge := neg_abs_le luminanceDelta
  unfold integerOffset
  push_cast
  rw [abs_le]
  constructor <;> linarith

/-- A pixel has room for a change of its luminance. -/
def Headroom (pixel : Bgr) (change : K) : Prop :=
  ∀ channel, change + 1 ≤ ((pixel channel).toNat : K) ∧
    ((pixel channel).toNat : K) + (change + 1) ≤ ((255 : Nat) : K)

/-- With headroom nothing is clipped, and the raster is near its target. -/
theorem replaceLuminanceOnce_near {page : Image Bgr} {target : Image K} {y x : Nat} {change : K}
    (hroom : Headroom (page.pixel y x) change)
    (hchange : |target.pixel y x - (luminance page : Image K).pixel y x| ≤ change) :
    |(luminance (replaceLuminanceOnce page (luminance page) target) : Image K).pixel y x -
      target.pixel y x| ≤ 925 / 10000 := by
  set luminanceDelta := target.pixel y x - (luminance page : Image K).pixel y x with hdelta
  set written := replaceLuminanceOnce page (luminance page) target with hwritten
  by_cases hsame : target.pixel y x = (luminance page : Image K).pixel y x
  · have hpixel : written.pixel y x = page.pixel y x := by
      show (if target.pixel y x ≠ (luminance page : Image K).pixel y x then _ else _) = _
      rw [if_neg (not_not.mpr hsame)]
    have hluminance : (luminance written : Image K).pixel y x =
        (luminance page : Image K).pixel y x := by
      simp only [luminance, hpixel]
    rw [hluminance, hsame, sub_self, abs_zero]
    norm_num
  · -- every channel is shifted, and stays a byte
    have hchannel : ∀ channel, ((written.pixel y x channel).toNat : K) =
        ((page.pixel y x channel).toNat : K) + channelOffset luminanceDelta channel := by
      intro channel
      have hoffset := abs_le.mp ((abs_integerOffset_le luminanceDelta channel).trans
        (add_le_add_left hchange 1))
      obtain ⟨hlow, hhigh⟩ := hroom channel
      have hlow' : (0 : ℤ) ≤ (page.pixel y x channel).toNat + integerOffset luminanceDelta channel := by
        have hcast : (0 : K) ≤ ((page.pixel y x channel).toNat : K) +
            (integerOffset luminanceDelta channel : K) := by linarith [hoffset.1]
        exact_mod_cast hcast
      have hhigh' : (page.pixel y x channel).toNat + integerOffset luminanceDelta channel ≤ 255 := by
        have hcast : ((page.pixel y x channel).toNat : K) +
            (integerOffset luminanceDelta channel : K) ≤ ((255 : Nat) : K) := by
          linarith [hoffset.2]
        exact_mod_cast hcast
      have hinteger : ((written.pixel y x channel).toNat : ℤ) =
          (page.pixel y x channel).toNat + integerOffset luminanceDelta channel := by
        rw [hwritten, replaceLuminanceOnce_changed page hsame channel, max_eq_left hlow',
          min_eq_left hhigh']
      rw [channelOffset_eq]
      exact_mod_cast congrArg (Int.cast : ℤ → K) hinteger
    have hluminance : (luminance written : Image K).pixel y x =
        (luminance page : Image K).pixel y x + weighted (channelOffset luminanceDelta) := by
      show weighted (fun channel ↦ ((written.pixel y x channel).toNat : K)) = _
      rw [funext hchannel, weighted_add]
      rfl
    have hnear := weighted_channelOffset_near luminanceDelta
    rw [hluminance]
    calc |(luminance page : Image K).pixel y x + weighted (channelOffset luminanceDelta) -
          target.pixel y x|
        = |weighted (channelOffset luminanceDelta) - luminanceDelta| := by
          congr 1
          rw [hdelta]
          ring
      _ ≤ 925 / 10000 := hnear

end Raster

/-! ## 6. An embedded page -/

section Page

variable {K : Type} [Field K] [LinearOrder K] [IsStrictOrderedRing K] [FloorRing K]

/-- What the frozen grid promises of a profile. -/
structure OnGrid (profile : GridProfileV2 K) : Prop where
  qimDelta : ((24 : Nat) : K) ≤ profile.qimDelta
  payloadRepetitions : profile.payloadRepetitions = 3 ∨ profile.payloadRepetitions = 5
  tileSizePx : profile.tileSizePx = 384 ∨ profile.tileSizePx = 512
  tilesPerPage : profile.tilesPerPage = 18

omit [FloorRing K] in
theorem onGrid_of_mem {contractSha256 : List UInt8} {profile : GridProfileV2 K}
    (h : profile ∈ loadV2Profiles contractSha256) : OnGrid profile := by
  simp only [loadV2Profiles, coupledLevels, List.mem_flatMap, List.mem_map, List.mem_cons,
    List.not_mem_nil, or_false] at h
  obtain ⟨level, hlevel, tileSizePx, htile, payloadRepetitions, hrepetitions, rfl⟩ := h
  constructor
  · show ((24 : Nat) : K) ≤ level.1
    rcases hlevel with rfl | rfl | rfl | rfl <;> exact Nat.cast_le.mpr (by decide)
  · exact hrepetitions
  · exact htile
  · rfl

theorem tileGrid_size {height width tileSizePx : Nat} {tile : Tile}
    (h : tile ∈ tileGrid height width tileSizePx) :
    tile.width = tileSizePx ∧ tile.height = tileSizePx := by
  unfold tileGrid at h
  obtain ⟨y, -, h⟩ := List.mem_flatMap.mp h
  obtain ⟨x, -, rfl⟩ := List.mem_map.mp h
  exact ⟨rfl, rfl⟩

/-- How far the luminance of a pixel may move when a page is embedded. -/
def embeddingChange (tools : PageTools K) (page : Image Bgr) (context : FingerprintV2Context)
    (profile : GridProfileV2 K) (y x : Nat) : K :=
  |profile.pilotStrengthRms * tools.pilotSpatial (page.height, page.width) context.fingerprintKey
    context.pageIndex profile y x| + ((3 : Nat) : K) / ((8 : Nat) : K) * profile.qimDelta

/-- A raster that carries a codeword in its first tiles: each of them is near a tile into which the
codeword was embedded. -/
structure CarriesPage (tools : PageTools K) (codeword : List UInt8) (context : FingerprintV2Context)
    (profile : GridProfileV2 K) (raster : Image Bgr) (tiles : List Tile) : Prop where
  derived : deriveTilesV2 tools.hmac (raster.height, raster.width) context.fingerprintKey
    context.pageIndex (profile.layout tools.packReal) = .ok tiles
  enough : profile.payloadRepetitions ≤ tiles.length
  size : ∀ tile ∈ tiles, tile.width = profile.tileSizePx ∧ tile.height = profile.tileSizePx
  inside : ∀ tile ∈ tiles, tile.x + tile.width ≤ raster.width ∧
    tile.y + tile.height ≤ raster.height
  embedded : ∀ tile ∈ tiles.take profile.payloadRepetitions, ∃ source region,
    embedCodewordV2 tools.numerics tools.keyed source codeword context.fingerprintKey
      context.pageIndex profile.codec = .ok region ∧
    ∀ y < profile.tileSizePx, ∀ x < profile.tileSizePx,
      |((luminance raster).crop tile).pixel y x - region.pixel y x| ≤ 925 / 10000

omit [IsStrictOrderedRing K] in
/-- What the checks of an embedding have found, and the raster that is returned. -/
theorem embedFingerprintV2_eq_ok {tools : PageTools K} {page : Image Bgr}
    {context : FingerprintV2Context} {profile : GridProfileV2 K} {result : EmbeddedPageV2}
    (h : embedFingerprintV2 tools page context profile = .ok result) :
    profile ∈ loadV2Profiles tools.contractSha256 ∧
      (validateFingerprintKey context.fingerprintKey = .ok () ∧
        validateFingerprintIndex context.pageIndex = .ok () ∧
        validateCanonicalProfile tools.contractSha256 profile = .ok () ∧
        validatePage page = .ok ()) ∧
      ∃ target, targetLuminance tools page context profile = .ok target ∧
        result = ⟨replaceLuminanceOnce page (luminance page) target, profile.payloadRepetitions⟩ := by
  unfold embedFingerprintV2 at h
  simp only [bind_eq_ok, exists_unit, pure_eq_ok] at h
  obtain ⟨hkey, hindex, hprofile, hpage, target, htarget, hresult⟩ := h
  refine ⟨?_, ⟨hkey, hindex, hprofile, hpage⟩, target, htarget, hresult.symm⟩
  unfold validateCanonicalProfile at hprofile
  simp only [bind_eq_ok, exists_unit, raiseIf_eq_ok, not_not] at hprofile
  exact hprofile.2

/-- An embedded page with headroom carries the codeword of its id. -/
theorem embedFingerprintV2_carries {tools : PageTools K} (hsteady : tools.numerics.Steady)
    {page : Image Bgr} {context : FingerprintV2Context} {profile : GridProfileV2 K}
    {result : EmbeddedPageV2}
    (hroom : ∀ y < page.height, ∀ x < page.width,
      Headroom (page.pixel y x) (embeddingChange tools page context profile y x))
    (h : embedFingerprintV2 tools page context profile = .ok result) :
    ∃ tiles, CarriesPage tools
      (Interleave.interleave ((tools.library 16).encode (payloadBytes context.issuanceId)) 8)
      context profile result.image tiles := by
  obtain ⟨hprofile, -, target, htarget, rfl⟩ := embedFingerprintV2_eq_ok h
  have hgrid := onGrid_of_mem hprofile
  have hdelta : (0 : K) ≤ profile.qimDelta := (Nat.cast_nonneg 24).trans hgrid.qimDelta
  unfold targetLuminance at htarget
  simp only [bind_eq_ok, exists_unit, raiseIf_eq_ok, mapError_eq_ok, not_lt] at htarget
  obtain ⟨tiles, htiles, henough, payload, hpayload, codeword, hcodeword, hloop⟩ := htarget
  rw [encodePayload_one] at hpayload
  cases hpayload
  rw [encodeEcc_eq _ (length_payloadBytes context.issuanceId)] at hcodeword
  cases hcodeword
  obtain ⟨hplaced, -⟩ := deriveTiles_placed (fun _ _ candidates ↦ List.Perm.refl candidates) htiles
  have hsize : ∀ tile ∈ tiles,
      tile.width = profile.tileSizePx ∧ tile.height = profile.tileSizePx :=
    fun tile htile ↦ tileGrid_size (hplaced.onGrid tile htile)
  have hinside : ∀ tile ∈ tiles, tile.x + tile.width ≤ page.width ∧
      tile.y + tile.height ≤ page.height := by
    intro tile htile
    obtain ⟨hright, hbottom⟩ := hplaced.inside tile htile
    exact ⟨Int.ofNat_le.mp hright, Int.ofNat_le.mp hbottom⟩
  have hdisjoint := hplaced.disjoint.sublist (List.take_sublist profile.payloadRepetitions tiles)
  have hsizeTaken : ∀ tile ∈ tiles.take profile.payloadRepetitions,
      tile.width = profile.tileSizePx ∧ tile.height = profile.tileSizePx :=
    fun tile htile ↦ hsize tile (List.mem_of_mem_take htile)
  obtain ⟨-, -, hholds⟩ := embedTiles_spec hdisjoint hloop
  refine ⟨tiles, htiles, henough, hsize, hinside, fun tile htile ↦ ?_⟩
  obtain ⟨source, region, hregion, -, hafter⟩ := (hholds tile htile).embedded
  refine ⟨source, region, hregion, fun y hy x hx ↦ ?_⟩
  obtain ⟨hwidth, hheight⟩ := hsizeTaken tile htile
  obtain ⟨hright, hbottom⟩ := hinside tile (List.mem_of_mem_take htile)
  rw [← hafter y (by omega) x (by omega)]
  apply replaceLuminanceOnce_near (hroom (tile.y + y) (by omega) (tile.x + x) (by omega))
  -- the pilot and the tiles are all that moves a sample
  have htilesMove := embedTiles_move hsteady hdelta hdisjoint hsizeTaken hloop (tile.y + y)
    (tile.x + x)
  set spatial := tools.pilotSpatial (page.height, page.width) context.fingerprintKey
    context.pageIndex profile
  have hpilot : (embedPilotV2 (luminance page) spatial profile.pilotStrengthRms).pixel (tile.y + y)
      (tile.x + x) - (luminance page : Image K).pixel (tile.y + y) (tile.x + x) =
        profile.pilotStrengthRms * spatial (tile.y + y) (tile.x + x) := add_sub_cancel_left _ _
  have hcast : ((3 : Nat) : K) / ((8 : Nat) : K) = 3 / 8 := by norm_num
  unfold embeddingChange
  rw [hcast]
  calc |target.pixel (tile.y + y) (tile.x + x) -
        (luminance page : Image K).pixel (tile.y + y) (tile.x + x)|
      ≤ |target.pixel (tile.y + y) (tile.x + x) -
          (embedPilotV2 (luminance page) spatial profile.pilotStrengthRms).pixel (tile.y + y)
            (tile.x + x)| +
        |(embedPilotV2 (luminance page) spatial profile.pilotStrengthRms).pixel (tile.y + y)
            (tile.x + x) - (luminance page : Image K).pixel (tile.y + y) (tile.x + x)| :=
        abs_sub_le _ _ _
    _ ≤ 3 / 8 * profile.qimDelta +
        |profile.pilotStrengthRms * spatial (tile.y + y) (tile.x + x)| := by
        rw [hpilot]
        exact add_le_add_left htilesMove _
    _ = _ := add_comm _ _

/-! ## 7. When a page is embedded -/

omit [FloorRing K] in
theorem validV2Profile_of_mem {contractSha256 : List UInt8} (hlength : contractSha256.length = 32)
    {profile : GridProfileV2 K} (h : profile ∈ loadV2Profiles contractSha256) :
    ValidV2Profile profile.codec ∧ 936 ≤ capacity profile.codec ∧ 0 < profile.pilotStrengthRms := by
  simp only [loadV2Profiles, coupledLevels, List.mem_flatMap, List.mem_map, List.mem_cons,
    List.not_mem_nil, or_false] at h
  obtain ⟨level, hlevel, tileSizePx, htile, payloadRepetitions, hrepetitions, rfl⟩ := h
  have hpositive : (0 : K) < level.1 ∧ (0 : K) < level.2 := by
    rcases hlevel with rfl | rfl | rfl | rfl <;> norm_num
  refine ⟨⟨rfl, ?_, ?_, rfl, ?_, hpositive.1, ?_⟩, ?_, hpositive.2⟩
  · show 0 < tileSizePx
    omega
  · show tileSizePx % 16 = 0
    omega
  · show ((3 : Nat) : K) / ((5 : Nat) : K) = 3 / 5
    norm_num
  · have hfields : ∀ field ∈ [2, tileSizePx, 18, payloadRepetitions, 3], field < 2 ^ 32 := by
      simp only [List.forall_mem_cons, List.not_mem_nil, false_implies, implies_true, and_true]
      omega
    unfold candidateIdentifierV2
    show (raiseIf (contractSha256.length ≠ 32) _ >>= fun _ ↦
      raiseIf (¬ ∀ field ∈ [2, tileSizePx, 18, payloadRepetitions, 3], field < 2 ^ 32) _) = _
    rw [raiseIf_neg (not_not.mpr hlength), ok_bind, raiseIf_neg (not_not.mpr hfields)]
  · unfold capacity
    show 936 ≤ 2 * (tileSizePx / 16) ^ 2
    rcases htile with rfl | rfl <;> norm_num

omit [FloorRing K] in
/-- The profiles of the grid pass every check. -/
theorem validateCanonicalProfile_of_mem {contractSha256 : List UInt8}
    (hlength : contractSha256.length = 32) {profile : GridProfileV2 K}
    (h : profile ∈ loadV2Profiles contractSha256) :
    validateCanonicalProfile contractSha256 profile = .ok () := by
  obtain ⟨hvalid, -, hstrength⟩ := validV2Profile_of_mem hlength h
  have hrepetitions := (onGrid_of_mem h).payloadRepetitions
  have hperPage := (onGrid_of_mem h).tilesPerPage
  have hdelta : 0 < profile.qimDelta := hvalid.qimDelta_pos
  have hschema : profile.schemaVersion = 2 := hvalid.schemaVersion
  simp only [validateCanonicalProfile, validateFingerprintProfile, bind_eq_ok, exists_unit,
    raiseIf_eq_ok, mapError_eq_ok, not_not, not_or, not_le, not_lt]
  exact ⟨⟨hschema, ⟨hdelta, hstrength⟩, ⟨by omega, by omega⟩, hvalid.identifier⟩, h⟩

omit [IsStrictOrderedRing K] in
/-- Tiles of the size of the profile are embedded without an error. -/
theorem embedTiles_ok {tools : PageTools K} {codeword : List UInt8}
    {context : FingerprintV2Context} {profile : GridProfileV2 K} {tiles : List Tile}
    {before : Image K} (hvalid : ValidV2Profile profile.codec)
    (hcapacity : 936 ≤ capacity profile.codec) (hcodeword : codeword.length = 39)
    (hbinding : validateBinding context.fingerprintKey context.pageIndex profile.codec = .ok ())
    (hsize : ∀ tile ∈ tiles,
      tile.width = profile.tileSizePx ∧ tile.height = profile.tileSizePx) :
    ∃ after, tiles.foldlM (embedTile tools codeword context profile) before = .ok after := by
  induction tiles generalizing before with
  | nil => exact ⟨before, rfl⟩
  | cons tile tiles ih =>
    rw [List.forall_mem_cons] at hsize
    obtain ⟨⟨hwidth, hheight⟩, hrest⟩ := hsize
    have hshape : (tile.height, tile.width) = (profile.tileSizePx, profile.tileSizePx) := by
      rw [hwidth, hheight]
    obtain ⟨positions, hpositions, hplacement⟩ :=
      selectedPositions_spec tools.keyed hvalid hbinding hcapacity
    have hinputs : CodecInputs (before.crop tile) codeword context.fingerprintKey context.pageIndex
        profile.codec := ⟨hvalid, hshape, hcodeword, hbinding, hcapacity⟩
    obtain ⟨region, hregion, -⟩ :=
      embedCodewordV2_spec tools.numerics tools.keyed hinputs hpositions hplacement
    obtain ⟨after, hafter⟩ : ∃ after, tiles.foldlM (embedTile tools codeword context profile)
        (before.paste tile region) = .ok after := ih hrest
    refine ⟨after, ?_⟩
    rw [List.foldlM_cons, embedTile, hregion]
    exact hafter

/-- A page that passes the checks and has a layout is embedded. -/
theorem embedFingerprintV2_ok {tools : PageTools K} {page : Image Bgr}
    {context : FingerprintV2Context} {profile : GridProfileV2 K} {tiles : List Tile}
    (hsha : tools.contractSha256.length = 32) (hkey : context.fingerprintKey ≠ [])
    (hindex : 0 ≤ context.pageIndex ∧ context.pageIndex ≤ 0xFFFFFFFF)
    (hprofile : profile ∈ loadV2Profiles tools.contractSha256)
    (hpage : validatePage page = .ok ())
    (hlibrary : ((tools.library 16).encode (payloadBytes context.issuanceId)).length = 39)
    (htiles : deriveTilesV2 tools.hmac (page.height, page.width) context.fingerprintKey
      context.pageIndex (profile.layout tools.packReal) = .ok tiles) :
    ∃ result, embedFingerprintV2 tools page context profile = .ok result := by
  obtain ⟨hvalid, hcapacity, hstrength⟩ := validV2Profile_of_mem hsha hprofile
  have hgrid := onGrid_of_mem hprofile
  have hrepetitions := hgrid.payloadRepetitions
  have hperPage := hgrid.tilesPerPage
  obtain ⟨hplaced, -⟩ := deriveTiles_placed (fun _ _ candidates ↦ List.Perm.refl candidates) htiles
  have hcount : (tiles.length : Int) = profile.tilesPerPage := hplaced.count
  have hcodeword : (Interleave.interleave
      ((tools.library 16).encode (payloadBytes context.issuanceId)) 8).length = 39 := by
    rw [Interleave.length_interleave _ (by decide), hlibrary]
  have hbinding : validateBinding context.fingerprintKey context.pageIndex profile.codec =
      .ok () := by
    unfold validateBinding
    rw [raiseIf_neg hkey, ok_bind, raiseIf_neg (not_not.mpr hindex), ok_bind]
    exact validateProfile_eq_ok.mpr hvalid
  set codeword := Interleave.interleave
    ((tools.library 16).encode (payloadBytes context.issuanceId)) 8
  set pilot := embedPilotV2 (luminance page) (tools.pilotSpatial (page.height, page.width)
    context.fingerprintKey context.pageIndex profile) profile.pilotStrengthRms
  obtain ⟨target, htarget⟩ : ∃ target, (tiles.take profile.payloadRepetitions).foldlM
      (embedTile tools codeword context profile) pilot = .ok target :=
    embedTiles_ok hvalid hcapacity hcodeword hbinding
      fun tile htile ↦ tileGrid_size (hplaced.onGrid tile (List.mem_of_mem_take htile))
  have henough : ¬ tiles.length < profile.payloadRepetitions := by omega
  have hloop : targetLuminance tools page context profile = .ok target := by
    simp only [targetLuminance, bind_eq_ok, exists_unit, mapError_eq_ok, raiseIf_eq_ok]
    exact ⟨tiles, htiles, henough, _, encodePayload_one context.issuanceId, _,
      encodeEcc_eq _ (length_payloadBytes context.issuanceId), htarget⟩
  have hcanonical : validateCanonicalProfile tools.contractSha256 profile = .ok () :=
    validateCanonicalProfile_of_mem hsha hprofile
  refine ⟨⟨replaceLuminanceOnce page (luminance page) target, profile.payloadRepetitions⟩, ?_⟩
  have hkeyOk : validateFingerprintKey context.fingerprintKey = .ok () := raiseIf_neg hkey _
  have hindexOk : validateFingerprintIndex context.pageIndex = .ok () :=
    raiseIf_neg (not_not.mpr hindex) _
  simp only [embedFingerprintV2, bind_eq_ok, exists_unit, pure_eq_ok]
  exact ⟨hkeyOk, hindexOk, hcanonical, hpage, target, hloop, rfl⟩

end Page

end Splitbind
