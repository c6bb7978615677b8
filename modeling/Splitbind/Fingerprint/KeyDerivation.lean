import Splitbind.Fingerprint.SpreadCodec
import Splitbind.Library.Fields

/-!
# Key derivation — the messages from which layouts and chips are drawn

The seed of a page's tile layout and the seed of its chips are digests of a domain, the page and the
identity of the profile.  The identity is a concatenation without marks; it is read back field by
field, so that a message names its purpose, its page and every parameter as it was packed.
-/

namespace Splitbind

open Transaction

/-! ## 1. The identity of a profile -/

section Identity

variable {K : Type} (packReal : K → List UInt8)

/-- `struct.pack(">I", n)` for a number in range. -/
def packedUnsigned (n : Int) : List UInt8 := BigEndian.toBytes 4 n.toNat

/-- The fields before the counted list of scales. -/
def SpreadProfile.packedFields (profile : SpreadProfile K) : List (List UInt8) :=
  [[0x53, 0x42, 0x46, 0x33, 0x01], profile.contractSha256, packedUnsigned profile.schemaVersion,
    packReal profile.qimDelta, packReal profile.pilotStrengthRms, packReal profile.spreadDelta,
    packedUnsigned profile.spreadChipsPerBit, packReal profile.saturatedFractionMin,
    packedUnsigned profile.saturationLow, packedUnsigned profile.saturationHigh,
    packedUnsigned profile.tileSizePx, packedUnsigned profile.tilesPerPage,
    packedUnsigned profile.payloadRepetitions, packedUnsigned profile.bitReplication,
    packReal profile.bitConfidenceMin, packReal profile.pilotScoreMin,
    packedUnsigned profile.maxGeometryHypotheses, packReal profile.geometryRatioTolerance]

/-- The integers that are packed. -/
def SpreadProfile.packedIntegers (profile : SpreadProfile K) : List Int :=
  [profile.schemaVersion, profile.spreadChipsPerBit, profile.saturationLow, profile.saturationHigh,
    profile.tileSizePx, profile.tilesPerPage, profile.payloadRepetitions, profile.bitReplication,
    profile.maxGeometryHypotheses]

/-- The reals that are packed, but for the scales. -/
def SpreadProfile.packedReals (profile : SpreadProfile K) : List K :=
  [profile.qimDelta, profile.pilotStrengthRms, profile.spreadDelta, profile.saturatedFractionMin,
    profile.bitConfidenceMin, profile.pilotScoreMin, profile.geometryRatioTolerance]

/-- Two profiles with the same parameters, the reals among them as they are packed. -/
structure SpreadProfile.SamePacked (profile other : SpreadProfile K) : Prop where
  contractSha256 : profile.contractSha256 = other.contractSha256
  integers : profile.packedIntegers = other.packedIntegers
  reals : profile.packedReals.map packReal = other.packedReals.map packReal
  cropRetainedScales :
    profile.cropRetainedScales.map packReal = other.cropRetainedScales.map packReal
  resizeInterpolation : profile.resizeInterpolation = other.resizeInterpolation

/-- The range of `struct.pack(">I", ·)`. -/
def FitsUnsigned (n : Int) : Prop := 0 ≤ n ∧ n < 2 ^ 32

theorem packUnsigned_eq_ok {n : Int} {bytes : List UInt8} :
    packUnsigned n = .ok bytes ↔ FitsUnsigned n ∧ bytes = packedUnsigned n := by
  simp only [packUnsigned, bind_eq_ok, exists_unit, raiseIf_eq_ok, not_not, pure_eq_ok]
  exact and_congr_right fun _ ↦ eq_comm

theorem toBytes_inj {m n : Nat} (hm : m < 2 ^ 32) (hn : n < 2 ^ 32)
    (h : BigEndian.toBytes 4 m = BigEndian.toBytes 4 n) : m = n := by
  have hread := congrArg BigEndian.fromBytes h
  rwa [BigEndian.fromBytes_toBytes (by omega), BigEndian.fromBytes_toBytes (by omega)] at hread

theorem packedUnsigned_inj {m n : Int} (hm : FitsUnsigned m) (hn : FitsUnsigned n)
    (h : packedUnsigned m = packedUnsigned n) : m = n := by
  obtain ⟨hm0, hm⟩ := hm
  obtain ⟨hn0, hn⟩ := hn
  have hnat := toBytes_inj (by omega) (by omega) h
  omega

theorem eq_of_map_packedUnsigned {ms ns : List Int} (hms : ∀ m ∈ ms, FitsUnsigned m)
    (hns : ∀ n ∈ ns, FitsUnsigned n) (h : ms.map packedUnsigned = ns.map packedUnsigned) :
    ms = ns := by
  induction ms generalizing ns with
  | nil =>
    cases ns with
    | nil => rfl
    | cons n ns => cases h
  | cons m ms ih =>
    cases ns with
    | nil => cases h
    | cons n ns =>
      obtain ⟨hm, hms⟩ := List.forall_mem_cons.mp hms
      obtain ⟨hn, hns⟩ := List.forall_mem_cons.mp hns
      obtain ⟨hhead, htail⟩ := List.cons.inj h
      rw [packedUnsigned_inj hm hn hhead, ih hms hns htail]

variable [Field K] [LinearOrder K]

/-- What the checks and the widths leave of a profile that has an identifier. -/
structure SpreadProfile.Packable (profile : SpreadProfile K) : Prop where
  contractSha256 : profile.contractSha256.length = 32
  integers : ∀ n ∈ profile.packedIntegers, FitsUnsigned n
  scaleCount : profile.cropRetainedScales.length < 2 ^ 32
  interpolation : (profile.resizeInterpolation.flatMap String.utf8EncodeChar).length < 2 ^ 32

/-- The counted scales and the name behind the fields. -/
def SpreadProfile.packedRest (profile : SpreadProfile K) : List UInt8 :=
  BigEndian.toBytes 4 (profile.cropRetainedScales.map packReal).length ++
    ((profile.cropRetainedScales.map packReal).flatten ++
      (BigEndian.toBytes 4 (profile.resizeInterpolation.flatMap String.utf8EncodeChar).length ++
        profile.resizeInterpolation.flatMap String.utf8EncodeChar))

/-- An identifier is its fields, and then what is counted. -/
theorem candidateIdentifierV3_eq_ok {profile : SpreadProfile K} {identifier : List UInt8}
    (h : candidateIdentifierV3 packReal profile = .ok identifier) :
    profile.Packable ∧
      identifier = (profile.packedFields packReal).flatten ++ profile.packedRest packReal := by
  simp only [candidateIdentifierV3, bind_eq_ok, exists_unit, packUnsigned_eq_ok, pure_eq_ok,
    and_assoc, exists_and_left, exists_eq_left] at h
  obtain ⟨hvalid, hschema, hchips, hlow, hhigh, htile, htiles, hrepetitions, hreplication,
    hhypotheses, hscales, hname, rfl⟩ := h
  simp only [validateProfileV3, bind_eq_ok, exists_unit, raiseIf_eq_ok, not_not] at hvalid
  constructor
  · refine ⟨hvalid.2.1, ?_, ?_, ?_⟩
    · simp only [SpreadProfile.packedIntegers, List.forall_mem_cons]
      exact ⟨hschema, hchips, hlow, hhigh, htile, htiles, hrepetitions, hreplication, hhypotheses,
        fun _ h ↦ absurd h List.not_mem_nil⟩
    · exact_mod_cast hscales.2
    · exact_mod_cast hname.2
  · simp only [SpreadProfile.packedFields, SpreadProfile.packedRest, packedUnsigned,
      List.flatten_cons, List.flatten_nil, List.append_nil, List.append_assoc, List.length_map,
      List.flatMap_def, Int.toNat_natCast]

omit [Field K] [LinearOrder K] in
/-- The fields, the scales and the name are read back. -/
theorem samePacked_of_append {profile other : SpreadProfile K}
    (hwidth : ∀ q, (packReal q).length = 8) (hprofile : profile.Packable)
    (hother : other.Packable)
    (h : (profile.packedFields packReal).flatten ++ profile.packedRest packReal =
      (other.packedFields packReal).flatten ++ other.packedRest packReal) :
    profile.SamePacked packReal other := by
  -- every field has one width, whatever the profile, so the fields are cut off one by one
  have hwidths : (profile.packedFields packReal).map List.length =
      (other.packedFields packReal).map List.length := by
    simp only [SpreadProfile.packedFields, packedUnsigned, List.map_cons, List.map_nil, hwidth,
      BigEndian.length_toBytes, hprofile.contractSha256, hother.contractSha256]
  obtain ⟨hfields, hrest⟩ := Fields.flatten_inj hwidths h
  have hreal : ∀ scales : List K, ∀ bytes ∈ scales.map packReal, bytes.length = 8 := by
    intro scales bytes hmem
    obtain ⟨scale, -, rfl⟩ := List.mem_map.mp hmem
    exact hwidth scale
  obtain ⟨hscales, hname⟩ := Fields.counted_inj (fun m hm n hn ↦ toBytes_inj hm hn)
    (BigEndian.length_toBytes 4) ⟨by rw [List.length_map]; exact hprofile.scaleCount, hreal _⟩
    ⟨by rw [List.length_map]; exact hother.scaleCount, hreal _⟩ hrest
  -- the name is last: its count has four bytes, and it is all that is left
  have hname' := (List.append_inj hname (by
    rw [BigEndian.length_toBytes, BigEndian.length_toBytes])).2
  simp only [SpreadProfile.packedFields, List.cons.injEq, and_true, true_and] at hfields
  obtain ⟨hsha, hschema, hdelta, hpilot, hspread, hchips, hsaturated, hlow, hhigh, htile, htiles,
    hrepetitions, hreplication, hconfidence, hscore, hhypotheses, htolerance⟩ := hfields
  refine ⟨hsha, eq_of_map_packedUnsigned hprofile.integers hother.integers ?_, ?_, hscales,
    Fields.utf8_inj hname'⟩
  · simp only [SpreadProfile.packedIntegers, List.map_cons, List.map_nil, hschema, hchips, hlow,
      hhigh, htile, htiles, hrepetitions, hreplication, hhypotheses]
  · simp only [SpreadProfile.packedReals, List.map_cons, List.map_nil, hdelta, hpilot, hspread,
      hsaturated, hconfidence, hscore, htolerance]

/-- The identity of a profile names all of its parameters. -/
theorem candidateIdentifierV3_inj (hwidth : ∀ q, (packReal q).length = 8)
    {profile other : SpreadProfile K} {identifier : List UInt8}
    (hprofile : candidateIdentifierV3 packReal profile = .ok identifier)
    (hother : candidateIdentifierV3 packReal other = .ok identifier) :
    profile.SamePacked packReal other := by
  obtain ⟨hpackable, heq⟩ := candidateIdentifierV3_eq_ok packReal hprofile
  obtain ⟨hpackable', heq'⟩ := candidateIdentifierV3_eq_ok packReal hother
  exact samePacked_of_append packReal hwidth hpackable hpackable' (heq.symm.trans heq')

end Identity

/-! ## 2. The messages -/

section Messages

variable {K : Type} [Field K] [LinearOrder K]

/-- What a key is used for. -/
inductive KeyPurpose
  | tileLayout
  | chipPermutation
deriving DecidableEq, Repr

def KeyPurpose.seedDomain : KeyPurpose → List UInt8
  | .tileLayout => layoutV3.seedDomain
  | .chipPermutation => chipSeedDomain

/-- `seed_message` of `derive_tiles_v3` and of `_chip_groups`. -/
def seedMessage (packReal : K → List UInt8) (purpose : KeyPurpose) (pageIndex : Int)
    (profile : SpreadProfile K) : Except LayoutError (List UInt8) := do
  validatePageIndex pageIndex
  let identifier ← candidateIdentifierV3 packReal profile
  return purpose.seedDomain ++ BigEndian.toBytes 4 pageIndex.toNat ++ identifier

theorem seedMessage_eq_ok {packReal : K → List UInt8} {purpose : KeyPurpose} {pageIndex : Int}
    {profile : SpreadProfile K} {message : List UInt8} :
    seedMessage packReal purpose pageIndex profile = .ok message ↔
      (0 ≤ pageIndex ∧ pageIndex ≤ 0xFFFFFFFF) ∧
        ∃ identifier, candidateIdentifierV3 packReal profile = .ok identifier ∧
          message = purpose.seedDomain ++ (BigEndian.toBytes 4 pageIndex.toNat ++ identifier) := by
  simp only [seedMessage, validatePageIndex, bind_eq_ok, exists_unit, raiseIf_eq_ok, not_not,
    pure_eq_ok, List.append_assoc]
  exact and_congr_right fun _ ↦ exists_congr fun _ ↦ and_congr_right fun _ ↦ eq_comm

/-- Neither domain begins with the other. -/
theorem seedDomain_inj {purpose other : KeyPurpose} {s t : List UInt8}
    (h : purpose.seedDomain ++ s = other.seedDomain ++ t) : purpose = other ∧ s = t := by
  cases purpose <;> cases other
  · exact ⟨rfl, List.append_cancel_left h⟩
  · -- the domains differ within their first 14 bytes
    exact absurd (congrArg (List.take 14) h) (by
      rw [List.take_append_of_le_length (by decide), List.take_append_of_le_length (by decide)]
      decide)
  · exact absurd (congrArg (List.take 14) h) (by
      rw [List.take_append_of_le_length (by decide), List.take_append_of_le_length (by decide)]
      decide)
  · exact ⟨rfl, List.append_cancel_left h⟩

end Messages

/-! ## 3. What is drawn from a message -/

section Draws

variable {K : Type} [Field K] [LinearOrder K] {hmac : HmacSha256} {packReal : K → List UInt8}
  {key : List UInt8} {pageIndex : Int} {profile : SpreadProfile K}

/-- What `derive_tiles_v3` reads of a profile. -/
def SpreadProfile.layoutProfile (packReal : K → List UInt8) (profile : SpreadProfile K) :
    LayoutProfileV3 K where
  schemaVersion := profile.schemaVersion
  tileSizePx := profile.tileSizePx
  tilesPerPage := profile.tilesPerPage
  candidateIdentifier := candidateIdentifierV3 packReal profile
  cropRetainedScales := profile.cropRetainedScales

/-- The chips are drawn from the digest of their message. -/
theorem chipGroups_seed {groups : List (List Nat × List Nat)}
    (h : chipGroups hmac packReal key pageIndex profile = .ok groups) :
    ∃ message, seedMessage packReal .chipPermutation pageIndex profile = .ok message ∧
      ∃ blockIndexes stream,
        FisherYates.shuffle (chipBelow hmac)
          (List.range ((profile.tileSizePx.toNat / 8) ^ 2)).toArray
          ⟨hmac.digest key message, 0, []⟩ = .ok (blockIndexes, stream) ∧
        groupsFrom (chipBelow hmac) profile.tileSizePx.toNat
          (profile.spreadChipsPerBit / 16).toNat spreadBitCount
          (blockIndexes.toList.take (spreadBitCount * (profile.spreadChipsPerBit / 16).toNat))
          stream = .ok groups := by
  simp only [chipGroups, validateSpreadBinding, bind_eq_ok, exists_unit, raiseIf_eq_ok] at h
  obtain ⟨identifier, ⟨-, hpage, hidentifier⟩, -, -, ⟨blockIndexes, stream⟩, hshuffle, hgroups⟩ := h
  refine ⟨_, ?_, blockIndexes, stream, hshuffle, hgroups⟩
  rw [seedMessage, hpage, ok_bind, hidentifier]
  rfl

variable [FloorRing K]

/-- The tiles of a page are drawn from the digest of their message. -/
theorem deriveTilesV3_seed {pageShape : Int × Int} {tiles : List Tile}
    (h : deriveTilesV3 hmac pageShape key pageIndex (profile.layoutProfile packReal) = .ok tiles) :
    ∃ message, seedMessage packReal .tileLayout pageIndex profile = .ok message ∧
      ∃ shuffled stream,
        FisherYates.shuffle (randbelow hmac layoutV3.streamDomain)
          (tileGrid pageShape.1.toNat pageShape.2.toNat profile.tileSizePx.toNat).toArray
          ⟨hmac.digest key message, 0, []⟩ = .ok (shuffled, stream) ∧
        tiles = (survivorsFirst profile.cropRetainedScales pageShape.1.toNat pageShape.2.toNat
          shuffled.toList).take profile.tilesPerPage.toNat := by
  obtain ⟨hvalid, -, -, -, identifier, shuffled, stream, hidentifier, hshuffle, htiles⟩ :=
    deriveTiles_eq_ok h
  refine ⟨_, ?_, shuffled, stream, hshuffle, htiles⟩
  rw [seedMessage_eq_ok]
  exact ⟨hvalid.pageIndex, identifier, hidentifier, List.append_assoc _ _ _⟩

end Draws

/-! ## 4. What a message names -/

section Unambiguous

variable {K : Type} [Field K] [LinearOrder K]

/-- **Key-derivation messages are unambiguous.**  A message names its purpose, its page and the
parameters of its profile, and so does the identity alone, but for the purpose and the page. -/
theorem seedMessage_unambiguous (packReal : K → List UInt8)
    (hwidth : ∀ q, (packReal q).length = 8) :
    (∀ (purpose other : KeyPurpose) (pageIndex otherIndex : Int)
        (profile profile' : SpreadProfile K) (message : List UInt8),
      seedMessage packReal purpose pageIndex profile = .ok message →
      seedMessage packReal other otherIndex profile' = .ok message →
        purpose = other ∧ pageIndex = otherIndex ∧ profile.SamePacked packReal profile') ∧
    ∀ (profile profile' : SpreadProfile K) (identifier : List UInt8),
      candidateIdentifierV3 packReal profile = .ok identifier →
      candidateIdentifierV3 packReal profile' = .ok identifier →
        profile.SamePacked packReal profile' := by
  refine ⟨?_, fun profile profile' identifier ↦ candidateIdentifierV3_inj packReal hwidth⟩
  intro purpose other pageIndex otherIndex profile profile' message hmessage hmessage'
  obtain ⟨hpage, identifier, hidentifier, rfl⟩ := seedMessage_eq_ok.mp hmessage
  obtain ⟨hpage', identifier', hidentifier', heq⟩ := seedMessage_eq_ok.mp hmessage'
  obtain ⟨hpurpose, hrest⟩ := seedDomain_inj heq
  obtain ⟨hindex, rfl⟩ := List.append_inj hrest (by
    rw [BigEndian.length_toBytes, BigEndian.length_toBytes])
  have hnat := toBytes_inj (by omega) (by omega) hindex
  exact ⟨hpurpose, by omega, candidateIdentifierV3_inj packReal hwidth hidentifier hidentifier'⟩

end Unambiguous

/-- `struct.pack(">d", ·)` on the reals of the profiles below. -/
def samplePackReal (q : ℚ) : List UInt8 :=
  BigEndian.toBytes 8
    (if q = 32 then 0x4040000000000000
    else if q = 2 then 0x4000000000000000
    else if q = 4 then 0x4010000000000000
    else if q = 300 then 0x4072c00000000000
    else if q = 3 / 4 then 0x3fe8000000000000
    else if q = 3 / 5 ∨ q = 5404319552844595 / 9007199254740992 then 0x3fe3333333333333
    else if q = 1 / 5 then 0x3fc999999999999a
    else if q = 1 / 1000 then 0x3f50624dd2f1a9fc
    else if q = 866 / 1000 then 0x3febb645a1cac083
    else 0)

theorem length_samplePackReal (q : ℚ) : (samplePackReal q).length = 8 :=
  BigEndian.length_toBytes 8 _

/-- A profile that asks for one tile. -/
def oneTileProfile (spreadDelta : ℚ) : SpreadProfile ℚ :=
  { sampleSpreadProfile spreadDelta (3 / 5) with tilesPerPage := 1 }

theorem oneTileProfile_identifier :
    (∃ identifier, candidateIdentifierV3 samplePackReal (oneTileProfile 4) = .ok identifier) ∧
      ∃ identifier, candidateIdentifierV3 samplePackReal (oneTileProfile 300) = .ok identifier := by
  exact ⟨exists_ok (by decide +kernel), exists_ok (by decide +kernel)⟩

/-- A page with room for one tile has one layout. -/
theorem oneTileProfile_layout (hmac : HmacSha256) {spreadDelta : ℚ} {identifier : List UInt8}
    (h : candidateIdentifierV3 samplePackReal (oneTileProfile spreadDelta) = .ok identifier) :
    deriveTilesV3 hmac (512, 512) [1] 0
      ((oneTileProfile spreadDelta).layoutProfile samplePackReal) = .ok [⟨0, 0, 512, 512⟩] := by
  have hgrid : tileGrid 512 512 512 = [⟨0, 0, 512, 512⟩] := by decide
  -- there is nothing to swap, so the stream is not read
  have hshuffle : FisherYates.shuffle (randbelow hmac layoutV3.streamDomain)
      (tileGrid 512 512 512).toArray (layoutStream hmac layoutV3 [1] 0 identifier) =
        .ok ((tileGrid 512 512 512).toArray, layoutStream hmac layoutV3 [1] 0 identifier) := by
    rw [hgrid]
    rfl
  have hvalid : ValidLayout layoutV3 (512, 512) [1] 0
      ((oneTileProfile spreadDelta).layoutProfile samplePackReal).toLayoutProfile :=
    ⟨by decide, by decide, by decide, by decide, rfl, show (0 : Int) < 512 by decide,
      show (0 : Int) < 1 by decide, identifier, h⟩
  have hslots : 1 ≤ gridSlots (512, 512)
      ((oneTileProfile spreadDelta).layoutProfile samplePackReal).toLayoutProfile :=
    show 1 ≤ 512 / 512 * (512 / 512) by decide
  refine (deriveTiles_of_valid hvalid h (by decide) hslots hshuffle).trans ?_
  rw [hgrid, survivorsFirst]
  cases hsurvives : survivesCenterCrops ⟨0, 0, 512, 512⟩ 512 512
      ((oneTileProfile spreadDelta).layoutProfile samplePackReal).cropRetainedScales <;>
    simp [hsurvives] <;> rfl

/-- The fraction and the double nearest to it are packed alike. -/
theorem seedMessage_unambiguous_oneTile :
    let other : SpreadProfile ℚ :=
      { oneTileProfile 4 with bitConfidenceMin := 5404319552844595 / 9007199254740992 }
    ∃ message, seedMessage samplePackReal .tileLayout 7 (oneTileProfile 4) = .ok message ∧
      seedMessage samplePackReal .tileLayout 7 other = .ok message ∧
      (oneTileProfile 4).SamePacked samplePackReal other := by
  intro other
  obtain ⟨identifier, h⟩ := oneTileProfile_identifier.1
  have hsame : candidateIdentifierV3 samplePackReal other = .ok identifier := by
    rw [← h]
    decide +kernel
  have hmessage : seedMessage samplePackReal .tileLayout 7 (oneTileProfile 4) = .ok _ :=
    seedMessage_eq_ok.mpr ⟨by decide, identifier, h, rfl⟩
  have hmessage' : seedMessage samplePackReal .tileLayout 7 other = .ok _ :=
    seedMessage_eq_ok.mpr ⟨by decide, identifier, hsame, rfl⟩
  exact ⟨_, hmessage, hmessage', ((seedMessage_unambiguous samplePackReal length_samplePackReal).1
    _ _ _ _ _ _ _ hmessage hmessage').2.2⟩

/-- The domain keeps the messages of a profile apart, not its layouts apart from another's. -/
theorem oneTileProfile_shared :
    ¬ (oneTileProfile 4).SamePacked samplePackReal (oneTileProfile 300) ∧
      ∀ hmac, ∃ tiles,
        deriveTilesV3 hmac (512, 512) [1] 0 ((oneTileProfile 4).layoutProfile samplePackReal) =
          .ok tiles ∧
        deriveTilesV3 hmac (512, 512) [1] 0 ((oneTileProfile 300).layoutProfile samplePackReal) =
          .ok tiles := by
  obtain ⟨⟨identifier, h⟩, ⟨identifier', h'⟩⟩ := oneTileProfile_identifier
  refine ⟨fun hsame ↦ absurd hsame.reals (by decide +kernel), fun hmac ↦ ?_⟩
  refine ⟨[⟨0, 0, 512, 512⟩], ?_, ?_⟩
  · exact oneTileProfile_layout hmac h
  · exact oneTileProfile_layout hmac h'

end Splitbind
