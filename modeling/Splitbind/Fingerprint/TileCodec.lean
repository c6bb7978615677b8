import Mathlib.Data.Finset.Sort
import Mathlib.Data.List.Perm.Subperm
import Splitbind.Fingerprint.DwtDctQim
import Splitbind.Library.PackedBits

/-!
# The tile codec — one codeword in the low band of a tile

Every bit of a codeword is written to three coefficient pairs in different blocks of the band, at
positions a keyed shuffle chooses, and is read back by a weighted vote.  What is embedded is read
back, whatever the tile and the shuffle.
-/

namespace Splitbind

open Transaction

/-! ## 1. Profiles and validation -/

/-- `FingerprintV2Profile`, as far as the codec reads it. -/
structure CodecProfile (K : Type) where
  schemaVersion : Nat
  contractSha256 : List UInt8
  qimDelta : K
  tileSizePx : Nat
  tilesPerPage : Nat
  payloadRepetitions : Nat
  bitReplication : Nat
  bitConfidenceMin : K

def codewordBytes : Nat := 39

def bitsPerByte : Nat := 8

/-- `_COEFFICIENT_PAIRS`. -/
def coefficientPairs : List ((Fin 8 × Fin 8) × (Fin 8 × Fin 8)) :=
  [((1, 2), (2, 1)), ((2, 3), (3, 2))]

/-- What `_shuffle` makes of a list under the stream of a key, a page and a profile: it may be any
permutation. -/
structure KeyedShuffle (K : Type) where
  shuffle : List UInt8 → Int → CodecProfile K → List Nat → List Nat
  perm : ∀ key pageIndex profile values, (shuffle key pageIndex profile values).Perm values

section Codec

variable {K : Type} [Field K] [LinearOrder K] [FloorRing K]

/-- `candidate_identifier_v2`, as far as it raises; the bytes only seed the shuffle. -/
def candidateIdentifierV2 (profile : CodecProfile K) : Except CodecError Unit := do
  raiseIf (profile.contractSha256.length ≠ 32)
    (.value "profile contract_sha256 must contain exactly 32 bytes")
  raiseIf (¬ ∀ field ∈ [profile.schemaVersion, profile.tileSizePx, profile.tilesPerPage,
    profile.payloadRepetitions, profile.bitReplication], field < 2 ^ 32) .struct

/-- `_validate_profile`. -/
def validateProfile (profile : CodecProfile K) : Except CodecError Unit := do
  raiseIf (profile.schemaVersion ≠ 2) (.value "profile schema_version must be 2")
  raiseIf (profile.tileSizePx ≤ 0 ∨ profile.tileSizePx % 16 ≠ 0)
    (.value "profile tile_size_px must be a positive multiple of 16")
  raiseIf (profile.bitReplication ≠ 3)
    (.value "profile bit_replication must be the frozen value 3")
  raiseIf (profile.bitConfidenceMin ≠ 3 / 5)
    (.value "profile bit_confidence_min must be the frozen value 0.60")
  raiseIf (profile.qimDelta ≤ 0) (.value "profile qim_delta must be finite and positive")
  candidateIdentifierV2 profile

/-- `_validate_tile`. -/
def validateTile (tile : Image K) (profile : CodecProfile K) :
    Except CodecError (Image K) := do
  validateProfile profile
  let size := profile.tileSizePx
  raiseIf ((tile.height, tile.width) ≠ (size, size))
    (.value ("tile_luminance must have contracted shape (" ++ toString size ++ ", " ++
      toString size ++ ")"))
  return tile

/-- `_validate_codeword`. -/
def validateCodeword (codeword : List UInt8) : Except CodecError Unit :=
  raiseIf (codeword.length ≠ codewordBytes)
    (.value ("codeword must contain exactly " ++ toString codewordBytes ++ " bytes"))

/-- `_validate_binding`. -/
def validateBinding (key : List UInt8) (pageIndex : Int) (profile : CodecProfile K) :
    Except CodecError Unit := do
  raiseIf (key = []) (.value "key must be non-empty bytes")
  raiseIf (¬ (0 ≤ pageIndex ∧ pageIndex ≤ 0xffffffff))
    (.value "page_index must fit an unsigned 32-bit integer")
  validateProfile profile

/-! ## 2. Positions -/

/-- `_capacity`. -/
def capacity (profile : CodecProfile K) : Nat := 2 * (profile.tileSizePx / 16) ^ 2

/-- The positions of the next bit, and those that are left: the first ones in blocks that are not
taken by another replica of it, up to the replication. -/
def takeReplicas (replication : Nat) : List Nat → List Nat → List Nat × List Nat
  | _, [] => ([], [])
  | replicaBlocks, position :: values =>
    if replicaBlocks.length = replication then ([], position :: values)
    else
      let blockIndex := position / coefficientPairs.length
      if blockIndex ∈ replicaBlocks then
        let (replicas, rest) := takeReplicas replication replicaBlocks values
        (replicas, position :: rest)
      else
        let (replicas, rest) := takeReplicas replication (blockIndex :: replicaBlocks) values
        (position :: replicas, rest)

/-- The positions of a number of bits. -/
def selectPositions (replication : Nat) : Nat → List Nat → Except CodecError (List Nat)
  | 0, _ => .ok []
  | bits + 1, values => do
    let (replicas, rest) := takeReplicas replication [] values
    raiseIf (replicas.length ≠ replication)
      (.value "V2 tile cannot place replicas in distinct DCT blocks")
    let selected ← selectPositions replication bits rest
    return replicas ++ selected

/-- `_selected_positions`. -/
def selectedPositions (keyed : KeyedShuffle K) (key : List UInt8) (pageIndex : Int)
    (profile : CodecProfile K) : Except CodecError (List Nat) := do
  validateBinding key pageIndex profile
  let required := codewordBytes * bitsPerByte * profile.bitReplication
  raiseIf (capacity profile < required)
    (.value ("V2 tile capacity is " ++ toString (capacity profile) ++
      " bits, but embedding needs " ++ toString required))
  let values := keyed.shuffle key pageIndex profile (List.range (capacity profile))
  selectPositions profile.bitReplication (codewordBytes * bitsPerByte) values

structure PositionComponents where
  y : Nat
  x : Nat
  first : Fin 8 × Fin 8
  second : Fin 8 × Fin 8
deriving DecidableEq, Repr

/-- `_position_components`. -/
def positionComponents (position : Nat) (profile : CodecProfile K) :
    PositionComponents :=
  let pairCount := coefficientPairs.length
  let blockIndex := position / pairCount
  let blocksPerEdge := profile.tileSizePx / 16
  let pair := coefficientPairs.get ⟨position % pairCount, Nat.mod_lt position (by decide)⟩
  ⟨blockIndex / blocksPerEdge * 8, blockIndex % blocksPerEdge * 8, pair.1, pair.2⟩

/-! ## 3. Embedding -/

variable (numerics : Numerics K) (keyed : KeyedShuffle K)

/-- One turn of the loop of `embed_codeword_v2`. -/
def embedBit (profile : CodecProfile K) (ll : Image K) (bit : Int) (position : Nat) :
    Except CodecError (Image K) := do
  let c := positionComponents position profile
  let block ← ll.block c.y c.x
  let coefficients := numerics.dct2 block
  let (a, b) ← qimEmbedPair (coefficients.get c.first) (coefficients.get c.second) bit
    profile.qimDelta
  let coefficients := (coefficients.set c.first a).set c.second b
  return ll.setBlock c.y c.x (numerics.idct2 coefficients)

def embedBits (profile : CodecProfile K) :
    Image K → List (Int × Nat) → Except CodecError (Image K)
  | ll, [] => .ok ll
  | ll, (bit, position) :: replicas => do
    let ll ← embedBit numerics profile ll bit position
    embedBits profile ll replicas

def embedCodewordV2 (tileLuminance : Image K) (codeword key : List UInt8) (pageIndex : Int)
    (profile : CodecProfile K) : Except CodecError (Image K) := do
  let tile ← validateTile tileLuminance profile
  validateCodeword codeword
  validateBinding key pageIndex profile
  let bits := PackedBits.unpack codeword
  let replicatedBits := bits.flatMap (List.replicate profile.bitReplication)
  let positions ← selectedPositions keyed key pageIndex profile
  raiseIf (replicatedBits.length ≠ positions.length)
    (.value "V2 profile replication does not match payload capacity")
  let bands := haarDwt2 numerics tile
  let embeddedLl ← embedBits numerics profile bands.ll (replicatedBits.zip positions)
  haarIdwt2 numerics { bands with ll := embeddedLl }

/-! ## 4. Extraction -/

/-- One entry of `replica_bits` and `replica_confidences`. -/
structure Replica (K : Type) where
  bit : Int
  confidence : K

/-- What the loop over the bits of the codeword accumulates. -/
structure Tally (K : Type) where
  recoveredBits : List Int
  erasures : Finset Nat
  byteConfidence : Nat → WithTop K
  confidenceSum : K
  disagreementSum : Nat

structure CodewordEvidence (K : Type) where
  codeword : List UInt8
  erasePositions : List Nat
  meanConfidence : K
  bitErrorHint : Option K
  erasureRanking : List Nat

def extractReplica (profile : CodecProfile K) (ll : Image K) (position : Nat) :
    Except CodecError (Replica K) := do
  let c := positionComponents position profile
  let block ← ll.block c.y c.x
  let coefficients := numerics.dct2 block
  let extraction ← qimExtractPair (coefficients.get c.first) (coefficients.get c.second)
    profile.qimDelta
  return ⟨extraction.bit, extraction.confidence⟩

/-- The sum of the confidences of the replicas with a bit. -/
def weight (replicas : List (Replica K)) (bit : Int) : K :=
  ((replicas.filter fun replica ↦ replica.bit = bit).map Replica.confidence).sum

/-- One turn of the loop over the bits of the codeword. -/
def tallyBit (profile : CodecProfile K) (replicas : List (Replica K)) (tally : Tally K)
    (bitIndex : Nat) : Tally K :=
  let start := bitIndex * profile.bitReplication
  let values := (replicas.drop start).take profile.bitReplication
  let zeroWeight := weight values 0
  let oneWeight := weight values 1
  let winner := if zeroWeight < oneWeight then 1 else 0
  let winningConfidence := max zeroWeight oneWeight / profile.bitReplication
  let byteIndex := bitIndex / bitsPerByte
  { recoveredBits := tally.recoveredBits ++ [winner]
    confidenceSum := tally.confidenceSum + winningConfidence
    disagreementSum := tally.disagreementSum +
      values.countP fun replica ↦ decide (replica.bit ≠ winner)
    byteConfidence := Function.update tally.byteConfidence byteIndex
      (min (tally.byteConfidence byteIndex) winningConfidence)
    erasures := if winningConfidence < profile.bitConfidenceMin then
        insert byteIndex tally.erasures
      else tally.erasures }

/-- The accumulators before the first bit; `byte_confidence` is infinite. -/
def Tally.empty : Tally K := ⟨[], ∅, fun _ ↦ ⊤, 0, 0⟩

/-- `rank_erasure_candidates`: the sort is stable. -/
def rankErasureCandidates (byteConfidence : Nat → WithTop K) (size : Nat) : List Nat :=
  (List.range size).mergeSort fun p q ↦ decide (byteConfidence p ≤ byteConfidence q)

/-- What `extract_codeword_v2` returns once all votes are counted. -/
def Tally.evidence (tally : Tally K) (replicaCount : Nat) : CodewordEvidence K where
  codeword := PackedBits.pack tally.recoveredBits
  erasePositions := tally.erasures.sort (· ≤ ·)
  meanConfidence := tally.confidenceSum / (codewordBytes * bitsPerByte : Nat)
  bitErrorHint := some (tally.disagreementSum / replicaCount)
  erasureRanking := rankErasureCandidates tally.byteConfidence codewordBytes

def extractCodewordV2 (tileLuminance : Image K) (key : List UInt8) (pageIndex : Int)
    (profile : CodecProfile K) : Except CodecError (CodewordEvidence K) := do
  let tile ← validateTile tileLuminance profile
  validateBinding key pageIndex profile
  let ll := (haarDwt2 numerics tile).ll
  let positions ← selectedPositions keyed key pageIndex profile
  let replicas ← positions.mapM (extractReplica numerics profile ll)
  let bitCount := codewordBytes * bitsPerByte
  let tally := (List.range bitCount).foldl (tallyBit profile replicas) Tally.empty
  return tally.evidence replicas.length

end Codec

end Splitbind
