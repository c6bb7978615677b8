import Mathlib.Data.Nat.Size
import Splitbind.Library.FisherYates
import Splitbind.Library.Rejection
import Splitbind.Library.Rounding

/-!
# Tile layout — where on a page the tiles lie

The tiles of a page are those of its grid, in an order drawn from a byte stream that the key, the
page and the profile determine.  HMAC-SHA-256 is a parameter; retained scales are numbers of an
ordered field.
-/

namespace Splitbind

open Transaction

/-! ## 1. Arguments -/

/-- A `ValueError`, whatever `candidate_identifier` raises, or the `OverflowError` of a block counter
that no longer fits four bytes. -/
inductive LayoutError
  | value (text : String)
  | identifier
  | overflow
deriving DecidableEq, Repr

structure Tile where
  x : Nat
  y : Nat
  width : Nat
  height : Nat
deriving DecidableEq, Repr

/-- `hmac.new(key, message, hashlib.sha256).digest()`. -/
structure HmacSha256 where
  digest : List UInt8 → List UInt8 → List UInt8
  length_digest : ∀ key message, (digest key message).length = 32

/-- What the layout reads of a profile; `candidateIdentifier` is what `candidate_identifier` returns
for it, or raises. -/
structure LayoutProfile where
  schemaVersion : Int
  tileSizePx : Int
  tilesPerPage : Int
  candidateIdentifier : Except LayoutError (List UInt8)

structure LayoutProfileV3 (K : Type) extends LayoutProfile where
  cropRetainedScales : List K

/-- What V2 and V3 differ in before the tiles are chosen. -/
structure LayoutVersion where
  schemaVersion : Int
  seedDomain : List UInt8
  streamDomain : List UInt8

def domainBytes (text : String) : List UInt8 :=
  (text.toList.map fun c ↦ UInt8.ofNat c.toNat) ++ [0]

def layoutV2 : LayoutVersion where
  schemaVersion := 2
  seedDomain := domainBytes "splitbind-v2-tile-layout"
  streamDomain := domainBytes "splitbind-v2-tile-permutation"

def layoutV3 : LayoutVersion where
  schemaVersion := 3
  seedDomain := domainBytes "splitbind-v3-tile-layout"
  streamDomain := domainBytes "splitbind-v3-tile-permutation"

def validatePageShape (pageShape : Int × Int) : Except LayoutError (Nat × Nat) := do
  raiseIf (pageShape.1 ≤ 0 ∨ pageShape.2 ≤ 0)
    (.value "page dimensions must be positive integers")
  return (pageShape.1.toNat, pageShape.2.toNat)

def validateLayoutKey (key : List UInt8) : Except LayoutError Unit :=
  raiseIf (key = []) (.value "key must be non-empty bytes")

def validatePageIndex (pageIndex : Int) : Except LayoutError Unit :=
  raiseIf (¬ (0 ≤ pageIndex ∧ pageIndex ≤ 0xFFFFFFFF))
    (.value "page_index must fit an unsigned 32-bit integer")

/-- `_validate_profile`, with the identifier it computes. -/
def validateLayoutProfile (version : LayoutVersion) (profile : LayoutProfile) :
    Except LayoutError (List UInt8) := do
  raiseIf (profile.schemaVersion ≠ version.schemaVersion)
    (.value ("profile schema_version must be " ++ toString version.schemaVersion))
  raiseIf (profile.tileSizePx ≤ 0 ∨ profile.tilesPerPage ≤ 0)
    (.value "profile tile dimensions and count must be positive")
  match profile.candidateIdentifier with
  | .ok identifier => return identifier
  | .error _ => throw .identifier

/-! ## 2. The byte stream -/

structure HmacByteStream where
  seed : List UInt8
  counter : Nat
  buffer : List UInt8
deriving DecidableEq, Repr

/-- Four bytes count the blocks. -/
def blockCount : Nat := 0x100000000

section Stream

variable (hmac : HmacSha256) (streamDomain : List UInt8)

def HmacByteStream.block (seed : List UInt8) (counter : Nat) : List UInt8 :=
  hmac.digest seed (streamDomain ++ BigEndian.toBytes 4 counter)

/-- The loop of `_read`. -/
def HmacByteStream.fill (count : Nat) (stream : HmacByteStream) :
    Except LayoutError HmacByteStream :=
  if stream.buffer.length < count then
    if stream.counter < blockCount then
      HmacByteStream.fill count
        { stream with
          counter := stream.counter + 1
          buffer := stream.buffer ++ HmacByteStream.block hmac streamDomain stream.seed
            stream.counter }
    else .error .overflow
  else .ok stream
termination_by blockCount - stream.counter

/-- `_read`. -/
def HmacByteStream.read (count : Nat) (stream : HmacByteStream) :
    Except LayoutError (List UInt8 × HmacByteStream) := do
  let filled ← stream.fill hmac streamDomain count
  return (filled.buffer.take count, { filled with buffer := filled.buffer.drop count })

/-- The bytes the stream can still give. -/
def HmacByteStream.remaining (stream : HmacByteStream) : Nat :=
  stream.buffer.length + 32 * (blockCount - stream.counter)

theorem HmacByteStream.fill_remaining {count : Nat} {stream filled : HmacByteStream}
    (h : stream.fill hmac streamDomain count = .ok filled) :
    filled.remaining = stream.remaining ∧ count ≤ filled.buffer.length := by
  induction stream using HmacByteStream.fill.induct hmac streamDomain count with
  | case1 stream hshort hblock ih =>
    rw [fill, if_pos hshort, if_pos hblock] at h
    obtain ⟨hremaining, hcount⟩ := ih h
    refine ⟨hremaining.trans ?_, hcount⟩
    rw [remaining, remaining, List.length_append, block, hmac.length_digest]
    show stream.buffer.length + 32 + 32 * (blockCount - (stream.counter + 1)) = _
    omega
  | case2 stream hshort hblock =>
    rw [fill, if_pos hshort, if_neg hblock] at h
    cases h
  | case3 stream hlong =>
    rw [fill, if_neg hlong] at h
    cases h
    exact ⟨rfl, Nat.le_of_not_lt hlong⟩

theorem HmacByteStream.read_remaining {count : Nat} {stream next : HmacByteStream}
    {bytes : List UInt8} (h : stream.read hmac streamDomain count = .ok (bytes, next)) :
    next.remaining + count = stream.remaining := by
  simp only [read, bind_eq_ok, pure_eq_ok, Prod.mk.injEq] at h
  obtain ⟨filled, hfill, -, rfl⟩ := h
  obtain ⟨hremaining, hcount⟩ := fill_remaining hmac streamDomain hfill
  rw [← hremaining, remaining, remaining, List.length_drop]
  show filled.buffer.length - count + 32 * (blockCount - filled.counter) + count = _
  omega

/-! ## 3. Numbers below a bound -/

def byteCount (upperBound : Nat) : Nat := max 1 ((upperBound.size + 7) / 8)

def sampleSpace (upperBound : Nat) : Nat := 1 <<< (byteCount upperBound * 8)

def acceptanceLimit (upperBound : Nat) : Nat :=
  sampleSpace upperBound - sampleSpace upperBound % upperBound

theorem byteCount_pos (upperBound : Nat) : 0 < byteCount upperBound :=
  lt_of_lt_of_le Nat.one_pos (le_max_left 1 _)

/-- The loop of `randbelow`; it ends because the block counter does. -/
def HmacByteStream.accept (upperBound : Nat) (stream : HmacByteStream) :
    Except LayoutError (Nat × HmacByteStream) :=
  match _hread : stream.read hmac streamDomain (byteCount upperBound) with
  | .error e => .error e
  | .ok (bytes, next) =>
    let candidate := BigEndian.fromBytes bytes
    if candidate < acceptanceLimit upperBound then .ok (candidate % upperBound, next)
    else HmacByteStream.accept upperBound next
termination_by stream.remaining
decreasing_by
  have hremaining := read_remaining hmac streamDomain _hread
  have hpos := byteCount_pos upperBound
  omega

def randbelow (upperBound : Nat) (stream : HmacByteStream) :
    Except LayoutError (Nat × HmacByteStream) := do
  raiseIf (upperBound ≤ 0) (.value "upper_bound must be positive")
  stream.accept hmac streamDomain upperBound

end Stream

/-! ## 4. The layouts -/

/-- `range(0, stop, step)`. -/
def rangeStep (stop step : Nat) : List Nat :=
  List.range' 0 ((stop + step - 1) / step) step

/-- The candidate tiles of a page, row by row. -/
def tileGrid (height width tileSizePx : Nat) : List Tile :=
  (rangeStep (height - tileSizePx + 1) tileSizePx).flatMap fun y ↦
    (rangeStep (width - tileSizePx + 1) tileSizePx).map fun x ↦ ⟨x, y, tileSizePx, tileSizePx⟩

def maxLayoutPixels : Nat := 40000000

/-- The body that `derive_tiles_v2` and `derive_tiles_v3` share; the shuffled tiles of a page of a
height and a width are arranged before the first of them are chosen. -/
def deriveTiles (hmac : HmacSha256) (version : LayoutVersion)
    (arrange : Nat → Nat → List Tile → List Tile) (pageShape : Int × Int) (key : List UInt8)
    (pageIndex : Int) (profile : LayoutProfile) : Except LayoutError (List Tile) := do
  let (height, width) ← validatePageShape pageShape
  validateLayoutKey key
  validatePageIndex pageIndex
  let identifier ← validateLayoutProfile version profile
  let tileSizePx := profile.tileSizePx.toNat
  let tilesPerPage := profile.tilesPerPage.toNat
  raiseIf (maxLayoutPixels < height * width)
    (.value "page exceeds the 40-megapixel processing ceiling")
  raiseIf (height < tileSizePx ∨ width < tileSizePx)
    (.value "page is smaller than the contracted tile size")
  let candidates := tileGrid height width tileSizePx
  raiseIf (candidates.length < tilesPerPage)
    (.value ("page provides " ++ toString candidates.length ++
      " non-overlapping tile slots, but profile requests " ++ toString tilesPerPage))
  let seedMessage := version.seedDomain ++ BigEndian.toBytes 4 pageIndex.toNat ++ identifier
  let seed := hmac.digest key seedMessage
  let (shuffled, _) ← FisherYates.shuffle (randbelow hmac version.streamDomain)
    candidates.toArray ⟨seed, 0, []⟩
  return (arrange height width shuffled.toList).take tilesPerPage

def deriveTilesV2 (hmac : HmacSha256) (pageShape : Int × Int) (key : List UInt8) (pageIndex : Int)
    (profile : LayoutProfile) : Except LayoutError (List Tile) :=
  deriveTiles hmac layoutV2 (fun _ _ candidates ↦ candidates) pageShape key pageIndex profile

section V3

variable {K : Type} [Field K] [LinearOrder K] [FloorRing K]

/-- The rows, or columns, that a centre crop keeps of a side: the first and how many. -/
def retainedSide (side : Nat) (retainedScale : K) : Int × Int :=
  let retained := Rounding.halfEven (side * retainedScale)
  ((side - retained) / 2, retained)

def survivesCenterCrops (tile : Tile) (pageHeight pageWidth : Nat) (retainedScales : List K) :
    Bool :=
  retainedScales.all fun retainedScale ↦
    let (y0, retainedHeight) := retainedSide pageHeight retainedScale
    let (x0, retainedWidth) := retainedSide pageWidth retainedScale
    x0 ≤ tile.x ∧ y0 ≤ tile.y ∧ tile.x + tile.width ≤ x0 + retainedWidth ∧
      tile.y + tile.height ≤ y0 + retainedHeight

/-- `crop_survivors + crop_vulnerable`. -/
def survivorsFirst (retainedScales : List K) (height width : Nat) (candidates : List Tile) :
    List Tile :=
  candidates.filter (survivesCenterCrops · height width retainedScales) ++
    candidates.filter (! survivesCenterCrops · height width retainedScales)

def deriveTilesV3 (hmac : HmacSha256) (pageShape : Int × Int) (key : List UInt8) (pageIndex : Int)
    (profile : LayoutProfileV3 K) : Except LayoutError (List Tile) :=
  deriveTiles hmac layoutV3 (survivorsFirst profile.cropRetainedScales) pageShape key pageIndex
    profile.toLayoutProfile

end V3

end Splitbind
