import Splitbind.Fingerprint.CenterCrop
import Splitbind.Fingerprint.LuminanceReplacement
import Splitbind.Integrity.Partners
import Splitbind.Library.PackedBits
import Splitbind.Library.Replication

/-!
# Integrity verification — region tags, their copies, and what a page is accused of

A tag authenticates the content of a region under its index and the nonce.  Every replica keeps a
copy of it in the coefficients of a partner region.  What the verifier counts for a region is the
verdict of a quorum of those copies.  Arithmetic is exact; the image library is a parameter.
-/

namespace Splitbind

open Transaction

/-! ## 1. Pages and the image library -/

/-- A page of eight-bit samples: of luminance, or channel-last BGR. -/
inductive IntegrityPage
  | gray (image : Image UInt8)
  | bgr (image : Image Bgr)

def IntegrityPage.shape : IntegrityPage → Nat × Nat
  | .gray image => (image.height, image.width)
  | .bgr image => (image.height, image.width)

def IntegrityPage.input : IntegrityPage → PageInput
  | .gray image => .array true [image.height, image.width]
  | .bgr image => .array true [image.height, image.width, 3]

/-- A square of values. -/
abbrev Square (n : Nat) (K : Type) := Fin n → Fin n → K

/-- What the page functions call: the digests, what Python does with the numbers of a profile, the
cosine transform of a square with its inverse, and the conversions of a pixel. -/
structure IntegrityTools (K : Type) where
  hmac : HmacSha256
  sha256 : List UInt8 → List Char
  numbers : PythonNumbers
  dct : ∀ {n : Nat}, Square n K → Square n K
  idct : ∀ {n : Nat}, Square n K → Square n K
  grayOfBgr : Bgr → UInt8
  ycrcbOfBgr : Bgr → Bgr
  bgrOfYcrcb : Bgr → Bgr

section Regions

variable {α : Type}

/-- `image[y : y + n, x : x + n]` at a corner. -/
def regionAt (n : Nat) (image : Image α) (corner : Nat × Nat) : Square n α :=
  fun i j ↦ image.pixel (corner.2 + i) (corner.1 + j)

/-- An assignment to that region. -/
def pasteAt {n : Nat} (image : Image α) (corner : Nat × Nat) (region : Square n α) : Image α :=
  { image with
    pixel := fun y x ↦
      if h : (corner.2 ≤ y ∧ y < corner.2 + n) ∧ corner.1 ≤ x ∧ x < corner.1 + n then
        region ⟨y - corner.2, by omega⟩ ⟨x - corner.1, by omega⟩
      else image.pixel y x }

end Regions

/-! ## 2. Tags and their bits -/

section Tags

variable {K : Type} [Field K] [LinearOrder K] [FloorRing K] (tools : IntegrityTools K) {n : Nat}

/-- `region.astype(np.float32)`. -/
def samples (region : Square n UInt8) : Square n K := fun i j ↦ ((region i j).toNat : K)

/-- `_luminance`. -/
def pageLuminance : IntegrityPage → Image UInt8
  | .gray image => image
  | .bgr image => ⟨image.height, image.width, fun y x ↦ tools.grayOfBgr (image.pixel y x)⟩

/-- `_replace_luminance`. -/
def replacePageLuminance (page : IntegrityPage) (luminance : Image UInt8) : IntegrityPage :=
  match page with
  | .gray _ => .gray luminance
  | .bgr image =>
    .bgr ⟨image.height, image.width, fun y x ↦
      tools.bgrOfYcrcb fun channel ↦
        if channel.val = 0 then luminance.pixel y x else tools.ycrcbOfBgr (image.pixel y x) channel⟩

/-- `coefficients[row, column]`; the positions of an accepted profile are in the square. -/
def coefficientAt (coefficients : Square n K) (position : Int × Int) : K :=
  if h : position.1.toNat < n ∧ position.2.toNat < n then coefficients ⟨_, h.1⟩ ⟨_, h.2⟩ else 0

/-- An assignment to that coefficient. -/
def setCoefficient (coefficients : Square n K) (position : Int × Int) (value : K) : Square n K :=
  fun i j ↦
    if position.1.toNat = i ∧ position.2.toNat = j then value else coefficients i j

/-- `struct.pack(">h", value)` of a coefficient in steps. -/
def featureBytes (step coefficient : K) : Except IntegrityError (List UInt8) := do
  let value := Rounding.halfEven (coefficient / step)
  raiseIf (¬ (-32768 ≤ value ∧ value ≤ 32767))
    (.value "integrity profile feature encoding overflow")
  return BigEndian.toBytes 2 (value % 65536).toNat

/-- `_content_feature`. -/
def contentFeature (profile : IntegrityProfile) (region : Square n UInt8) :
    Except IntegrityError (List UInt8) := do
  let coefficients := tools.dct (samples region)
  let quantized ← profile.featurePositions.mapM fun position ↦
    featureBytes (profile.featureStep : K) (coefficientAt coefficients position)
  return quantized.flatten

omit [LinearOrder K] [FloorRing K] in
/-- `_region_tag`. -/
def regionTag (feature : List UInt8) (regionIndex : Nat) (nonce key : List UInt8) :
    Except IntegrityError (List UInt8) := do
  raiseIf (2 ^ 32 ≤ regionIndex) (.overflow "int too big to convert")
  return (tools.hmac.digest key (feature ++ BigEndian.toBytes 4 regionIndex ++ nonce)).take 4

/-- The tags of all the regions of a page. -/
def regionTags (profile : IntegrityProfile) (luminance : Image UInt8) (regions : List (Nat × Nat))
    (nonce key : List UInt8) : Except IntegrityError (List (List UInt8)) := do
  let features ← regions.mapM fun corner ↦
    contentFeature tools profile (regionAt profile.regionSize luminance corner)
  features.zipIdx.mapM fun (feature, index) ↦ regionTag tools feature index nonce key

/-- The lattice point a coefficient is moved to, for a bit. -/
def latticeFor (bit : Int) (scaled : K) : Int :=
  let lattice := Rounding.halfEven scaled
  if lattice % 2 ≠ bit then
    let lower := lattice - 1
    let upper := lattice + 1
    if |(lower : K) - scaled| ≤ |(upper : K) - scaled| then lower else upper
  else lattice

/-- One turn of the loop of `_embed_bits`. -/
def embedRegionBit (delta : K) (coefficients : Square n K) (placed : Int × (Int × Int)) : Square n K :=
  setCoefficient coefficients placed.2 (latticeFor placed.1 (coefficientAt coefficients placed.2 / delta) * delta)

/-- `np.clip(np.rint(value), 0, 255).astype(np.uint8)`. -/
def toSample (value : K) : UInt8 := UInt8.ofNat (max 0 (min 255 (Rounding.halfEven value))).toNat

/-- `_embed_bits`. -/
def embedRegionBits (region : Square n UInt8) (bits : List Int) (positions : List (Int × Int))
    (delta : K) : Except IntegrityError (Square n UInt8) := do
  raiseIf (positions.length < bits.length) (.value "zip() argument 2 is shorter than argument 1")
  raiseIf (bits.length < positions.length) (.value "zip() argument 2 is longer than argument 1")
  let coefficients := (bits.zip positions).foldl (embedRegionBit delta) (tools.dct (samples region))
  let restored := tools.idct coefficients
  return fun i j ↦ toSample (restored i j)

/-- The bit that a coefficient says, and how clearly. -/
def readBit (delta coefficient : K) : Int × K :=
  let scaled := coefficient / delta
  let lattice := Rounding.halfEven scaled
  (lattice % 2, max 0 (1 - ((2 : Nat) : K) * |scaled - lattice|))

/-- `_extract_bits`. -/
def extractBits (region : Square n UInt8) (positions : List (Int × Int)) (delta : K) :
    List UInt8 × K :=
  let coefficients := tools.dct (samples region)
  let read := positions.map fun position ↦ readBit delta (coefficientAt coefficients position)
  (PackedBits.pack (read.map Prod.fst), (read.map Prod.snd).sum / ((read.length : Nat) : K))

end Tags

/-! ## 3. Embedding -/

/-- `EmbeddedIntegrityPage`. -/
structure EmbeddedIntegrityPage where
  image : IntegrityPage
  embeddedRegions : Nat
  limitations : List String

/-- `limitation_ids[name]`; an accepted profile has the names that are looked up. -/
def limitationId (profile : IntegrityProfile) (name : String) : String :=
  (profile.limitationIds.lookup name).getD ""

/-- Where a replica keeps the tag of a source. -/
def destination (replica : List Nat × Nat) (source : Nat) : Nat := replica.1.getD source 0

/-- The coefficients in which a replica keeps tags. -/
def replicaPositions (profile : IntegrityProfile) (replica : List Nat × Nat) : List (Int × Int) :=
  profile.coefficientSets.getD replica.2 []

section Pages

variable {K : Type} [Field K] [LinearOrder K] [FloorRing K] (tools : IntegrityTools K)

/-- One turn of the inner loop of `embed_integrity`. -/
def embedReplica (profile : IntegrityProfile) (regions : List (Nat × Nat)) (bits : List Int)
    (source : Nat) (modified : Image UInt8) (replica : List Nat × Nat) :
    Except IntegrityError (Image UInt8) := do
  let corner := regions.getD (destination replica source) (0, 0)
  let block := regionAt profile.regionSize modified corner
  let embedded ← embedRegionBits tools block bits (replicaPositions profile replica)
    (profile.qimDelta : K)
  return pasteAt modified corner embedded

/-- The outer loop: the bits of every tag into all of its partner regions. -/
def embedTags (profile : IntegrityProfile) (regions : List (Nat × Nat))
    (partners : List (List Nat)) (tags : List (List UInt8)) (luminance : Image UInt8) :
    Except IntegrityError (Image UInt8) :=
  tags.zipIdx.foldlM (fun modified (tag, source) ↦
    partners.zipIdx.foldlM (embedReplica tools profile regions (PackedBits.unpack tag) source)
      modified) luminance

def embedIntegrity (page : IntegrityPage) (key nonce : List UInt8) (profile : ProfileValue) :
    Except IntegrityError EmbeddedIntegrityPage := do
  let parsed ← validateIntegrityProfile tools.sha256 tools.numbers profile
  let shape ← validateInputs page.input (some key) (some nonce) parsed
  let regions := integrityRegions shape parsed.regionSize
  if regions.length < parsed.minimumRegions then
    return ⟨page, 0, [limitationId parsed "insufficient_complete_regions"]⟩
  else
    let luminance := pageLuminance tools page
    let tags ← regionTags tools parsed luminance regions nonce key
    let partners ← partnerRegions tools.hmac regions.length key nonce parsed
    let modified ← embedTags tools parsed regions partners tags luminance
    return ⟨replacePageLuminance tools page modified, regions.length, []⟩

/-! ## 4. Verification -/

/-- `IntegrityDecision`. -/
structure IntegrityDecision (K : Type) where
  score : K
  suspiciousRegions : List (NormalizedRect K)
  evaluatedRegions : Nat
  limitations : List String

/-- What the inner loop of `verify_integrity` counts for a region; the confidences are of all
regions. -/
structure CopyTally (K : Type) where
  matchVotes : Nat
  mismatchVotes : Nat
  confidences : List K

/-- One turn of the inner loop. -/
def tallyCopy (profile : IntegrityProfile) (regions : List (Nat × Nat)) (luminance : Image UInt8)
    (expectedTag : List UInt8) (source : Nat) (tally : CopyTally K) (replica : List Nat × Nat) :
    CopyTally K :=
  let corner := regions.getD (destination replica source) (0, 0)
  let (actual, confidence) := extractBits tools (regionAt profile.regionSize luminance corner)
    (replicaPositions profile replica) (profile.qimDelta : K)
  let confidences := tally.confidences ++ [confidence]
  if (profile.minimumBitConfidence : K) ≤ confidence then
    if actual = expectedTag then ⟨tally.matchVotes + 1, tally.mismatchVotes, confidences⟩
    else ⟨tally.matchVotes, tally.mismatchVotes + 1, confidences⟩
  else ⟨tally.matchVotes, tally.mismatchVotes, confidences⟩

/-- What the outer loop keeps. -/
structure RegionTally (K : Type) where
  suspiciousIndexes : List Nat
  matched : Nat
  confidences : List K
  mismatchCount : Nat
  indeterminateCount : Nat

/-- One turn of the outer loop. -/
def tallyRegion (profile : IntegrityProfile) (regions : List (Nat × Nat))
    (partners : List (List Nat)) (luminance : Image UInt8) (tally : RegionTally K)
    (expected : List UInt8 × Nat) : RegionTally K :=
  let (expectedTag, source) := expected
  let copies := partners.zipIdx.foldl (tallyCopy tools profile regions luminance expectedTag source)
    ⟨0, 0, tally.confidences⟩
  if profile.minimumReplicaVotes ≤ copies.matchVotes then
    { tally with matched := tally.matched + 1, confidences := copies.confidences }
  else if profile.minimumReplicaVotes ≤ copies.mismatchVotes then
    { tally with
      suspiciousIndexes := tally.suspiciousIndexes ++ [source]
      confidences := copies.confidences
      mismatchCount := tally.mismatchCount + 1 }
  else
    { tally with
      confidences := copies.confidences
      indeterminateCount := tally.indeterminateCount + 1 }

omit [Field K] [LinearOrder K] [FloorRing K] in
def RegionTally.empty : RegionTally K := ⟨[], 0, [], 0, 0⟩

/-- What stands in the way of accusing single regions. -/
def pageLimitations (profile : IntegrityProfile) (count : Nat) (tally : RegionTally K) :
    List String :=
  let meanConfidence : K := tally.confidences.sum / ((tally.confidences.length : Nat) : K)
  let mismatchRatio : K := (tally.mismatchCount : K) / (count : K)
  if count ≤ tally.indeterminateCount * 2 then [limitationId profile "indeterminate"]
  else if (profile.geometryRatio : K) ≤ mismatchRatio ∧
      (profile.highConfidence : K) ≤ meanConfidence then [limitationId profile "geometry_failure"]
  else if (profile.compressionRatio : K) ≤ mismatchRatio ∧
      meanConfidence < (profile.highConfidence : K) then
    [limitationId profile "strong_compression"]
  else []

/-- The rectangle of a region in the coordinates of its page. -/
def regionRect (shape : Nat × Nat) (regionSize : Nat) (corner : Nat × Nat) :
    Except IntegrityError (NormalizedRect K) :=
  (normalizedRect ((corner.1 : K) / (shape.2 : K)) ((corner.2 : K) / (shape.1 : K))
    ((regionSize : K) / (shape.2 : K)) ((regionSize : K) / (shape.1 : K))).mapError
      fun | .value message => .value message

/-- The rectangles of suspicious regions; a limitation holds all of them back. -/
def suspiciousRects (shape : Nat × Nat) (regionSize : Nat) (regions : List (Nat × Nat))
    (limitations : List String) (indexes : List Nat) :
    Except IntegrityError (List (NormalizedRect K)) :=
  if limitations ≠ [] then return []
  else indexes.mapM fun index ↦ regionRect shape regionSize (regions.getD index (0, 0))

def verifyIntegrity (page : IntegrityPage) (key nonce : List UInt8) (profile : ProfileValue) :
    Except IntegrityError (IntegrityDecision K) := do
  let parsed ← validateIntegrityProfile tools.sha256 tools.numbers profile
  let shape ← validateInputs page.input (some key) (some nonce) parsed
  let regions := integrityRegions shape parsed.regionSize
  if regions.length < parsed.minimumRegions then
    return ⟨0, [], 0, [limitationId parsed "insufficient_complete_regions"]⟩
  else
    let luminance := pageLuminance tools page
    let expected ← regionTags tools parsed luminance regions nonce key
    let partners ← partnerRegions tools.hmac regions.length key nonce parsed
    let tally := expected.zipIdx.foldl (tallyRegion tools parsed regions partners luminance)
      RegionTally.empty
    let limitations := pageLimitations parsed regions.length tally
    let suspicious ←
      suspiciousRects shape parsed.regionSize regions limitations tally.suspiciousIndexes
    return ⟨(tally.matched : K) / (regions.length : K), suspicious, regions.length, limitations⟩

end Pages

end Splitbind
