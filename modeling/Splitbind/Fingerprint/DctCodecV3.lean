import Splitbind.Fingerprint.DecisionV3
import Splitbind.Fingerprint.KeyDerivation
import Splitbind.Fingerprint.TileDamage
import Splitbind.Fingerprint.PageEmbedding

/-!
# The DCT codec of V3 — the codec of V2 under another stream

V3 writes a codeword to the same coefficients as V2 and reads it by the same vote; its profile is
checked for the third version, and its positions come from a stream of its own.  What is known of
the codec of V2 under any shuffle thereby holds of V3.
-/

namespace Splitbind

open Transaction

/-! ## 1. The codec -/

/-- What the arithmetic of V2 reads of the profile. -/
def SpreadProfile.codec {K : Type} (profile : SpreadProfile K) : CodecProfile K where
  schemaVersion := 2
  contractSha256 := profile.contractSha256
  qimDelta := profile.qimDelta
  tileSizePx := profile.tileSizePx.toNat
  tilesPerPage := profile.tilesPerPage.toNat
  payloadRepetitions := profile.payloadRepetitions.toNat
  bitReplication := profile.bitReplication.toNat
  bitConfidenceMin := profile.bitConfidenceMin

def payloadSeedDomain : List UInt8 := domainBytes "splitbind-v3-payload-permutation"

def payloadStreamDomain : List UInt8 := domainBytes "splitbind-v3-payload-stream"

/-- `randbelow` of the payload stream. -/
def payloadBelow (hmac : HmacSha256) (upperBound : Nat) (stream : HmacByteStream) :
    Except LayoutError (Nat × HmacByteStream) :=
  stream.accept hmac payloadStreamDomain upperBound

/-- The stream of a key, a page and the identifier of a profile. -/
def payloadStream (hmac : HmacSha256) (key : List UInt8) (pageIndex : Int)
    (identifier : List UInt8) : HmacByteStream :=
  ⟨hmac.digest key (payloadSeedDomain ++ BigEndian.toBytes 4 pageIndex.toNat ++ identifier), 0, []⟩

/-- `_shuffle`. -/
def shufflePositions (hmac : HmacSha256) (key : List UInt8) (pageIndex : Int)
    (identifier : List UInt8) (values : List Nat) : Except LayoutError (List Nat) := do
  let (shuffled, _) ← FisherYates.shuffle (payloadBelow hmac) values.toArray
    (payloadStream hmac key pageIndex identifier)
  return shuffled.toList

section Codec

variable {K : Type} [Field K] [LinearOrder K] [FloorRing K]

/-- `_validate_profile`, with the identifier it computes. -/
def validateDctProfile (packReal : K → List UInt8) (profile : SpreadProfile K) :
    Except PageError (List UInt8) := do
  raiseIf (profile.schemaVersion ≠ 3) (.value "profile schema_version must be 3")
  raiseIf (profile.tileSizePx ≤ 0 ∨ profile.tileSizePx % 16 ≠ 0)
    (.value "profile tile_size_px must be a positive multiple of 16")
  raiseIf (profile.bitReplication ≠ 3)
    (.value "profile bit_replication must be the frozen value 3")
  raiseIf (profile.bitConfidenceMin ≠ ((3 : Nat) : K) / ((5 : Nat) : K))
    (.value "profile bit_confidence_min must be the frozen value 0.60")
  raiseIf (profile.qimDelta ≤ 0) (.value "profile qim_delta must be finite and positive")
  (candidateIdentifierV3 packReal profile).mapError .layout

/-- `_validate_tile`. -/
def validateDctTile (packReal : K → List UInt8) (tile : Image K) (profile : SpreadProfile K) :
    Except PageError (Image K) := do
  let _ ← validateDctProfile packReal profile
  raiseIf (((tile.height : Int), (tile.width : Int)) ≠ (profile.tileSizePx, profile.tileSizePx))
    (.value ("tile_luminance must have contracted shape (" ++ toString profile.tileSizePx ++ ", " ++
      toString profile.tileSizePx ++ ")"))
  return tile

/-- `_validate_binding`, with the identifier that its profile has. -/
def validateDctBinding (packReal : K → List UInt8) (key : List UInt8) (pageIndex : Int)
    (profile : SpreadProfile K) : Except PageError (List UInt8) := do
  validateFingerprintKey key
  validateFingerprintIndex pageIndex
  validateDctProfile packReal profile

/-- `_selected_positions`. -/
def selectedPositionsV3 (hmac : HmacSha256) (packReal : K → List UInt8) (key : List UInt8)
    (pageIndex : Int) (profile : SpreadProfile K) : Except PageError (List Nat) := do
  let identifier ← validateDctBinding packReal key pageIndex profile
  let required := codewordBytes * bitsPerByte * profile.codec.bitReplication
  raiseIf (capacity profile.codec < required)
    (.value ("V3 tile capacity is " ++ toString (capacity profile.codec) ++
      " bits, but embedding needs " ++ toString required))
  let values ← (shufflePositions hmac key pageIndex identifier
    (List.range (capacity profile.codec))).mapError .layout
  (selectPositions profile.codec.bitReplication (codewordBytes * bitsPerByte) values).mapError
    fun _ ↦ .value "V3 tile cannot place replicas in distinct DCT blocks"

/-- `embed_codeword_v3`. -/
def embedCodewordV3 (numerics : Numerics K) (hmac : HmacSha256) (packReal : K → List UInt8)
    (tileLuminance : Image K) (codeword key : List UInt8) (pageIndex : Int)
    (profile : SpreadProfile K) : Except PageError (Image K) := do
  let tile ← validateDctTile packReal tileLuminance profile
  (validateCodeword codeword).mapError .codec
  let _ ← validateDctBinding packReal key pageIndex profile
  let bits := PackedBits.unpack codeword
  let replicatedBits := bits.flatMap (List.replicate profile.codec.bitReplication)
  let positions ← selectedPositionsV3 hmac packReal key pageIndex profile
  raiseIf (replicatedBits.length ≠ positions.length)
    (.value "V3 profile replication does not match payload capacity")
  let bands := haarDwt2 numerics tile
  let embeddedLl ← (embedBits numerics profile.codec bands.ll
    (replicatedBits.zip positions)).mapError .codec
  (haarIdwt2 numerics { bands with ll := embeddedLl }).mapError .codec

/-- `extract_codeword_v3`. -/
def extractCodewordV3 (numerics : Numerics K) (hmac : HmacSha256) (packReal : K → List UInt8)
    (tileLuminance : Image K) (key : List UInt8) (pageIndex : Int) (profile : SpreadProfile K) :
    Except PageError (CodewordEvidence K) := do
  let tile ← validateDctTile packReal tileLuminance profile
  let _ ← validateDctBinding packReal key pageIndex profile
  let ll := (haarDwt2 numerics tile).ll
  let positions ← selectedPositionsV3 hmac packReal key pageIndex profile
  let replicas ← (positions.mapM (extractReplica numerics profile.codec ll)).mapError .codec
  let bitCount := codewordBytes * bitsPerByte
  let tally := (List.range bitCount).foldl (tallyBit profile.codec replicas) Tally.empty
  return tally.evidence replicas.length

end Codec

/-! ## 2. The codec of V2, under the stream of V3 -/

section Counterpart

variable {K : Type} [Field K] [LinearOrder K]

theorem shufflePositions_perm {hmac : HmacSha256} {key identifier : List UInt8} {pageIndex : Int}
    {values shuffled : List Nat}
    (h : shufflePositions hmac key pageIndex identifier values = .ok shuffled) :
    shuffled.Perm values := by
  simp only [shufflePositions, bind_eq_ok, pure_eq_ok] at h
  obtain ⟨drawn, hdrawn, rfl⟩ := h
  exact FisherYates.shuffle_perm hdrawn

/-- The shuffle of a profile of V3, wherever its stream does not run dry. -/
def payloadShuffle (hmac : HmacSha256) (identifier : List UInt8) : KeyedShuffle K where
  shuffle := fun key pageIndex _ values ↦
    (shufflePositions hmac key pageIndex identifier values).toOption.getD values
  perm := by
    intro key pageIndex profile values
    cases hshuffled : shufflePositions hmac key pageIndex identifier values with
    | error error => exact List.Perm.refl values
    | ok shuffled => exact shufflePositions_perm hshuffled

omit [Field K] [LinearOrder K] in
/-- The values are shuffled unless rejected samples leave too little of the stream. -/
theorem shufflePositions_ok_iff {hmac : HmacSha256} {key identifier : List UInt8} {pageIndex : Int}
    {values : List Nat} :
    (∃ shuffled, shufflePositions hmac key pageIndex identifier values = .ok shuffled) ↔
      FisherYates.drawsFrom drawBelow (values.length - 1)
        ((payloadStream hmac key pageIndex identifier).supply hmac payloadStreamDomain) ≠
          .error .overflow := by
  -- a shuffle draws below positive bounds only, where both ways to draw are one
  have hdraw : ∀ bound, 0 < bound →
      payloadBelow hmac bound = randbelow hmac payloadStreamDomain bound := by
    intro bound hpos
    funext stream
    rw [payloadBelow, randbelow, raiseIf_neg (not_le.mpr hpos), ok_bind]
  rw [← List.size_toArray, ← shuffle_ok_iff, ← FisherYates.shuffle_congr hdraw]
  simp only [shufflePositions, bind_eq_ok, pure_eq_ok]
  constructor
  · rintro ⟨_, ⟨shuffled, next⟩, hshuffle, -⟩
    exact ⟨shuffled, next, hshuffle⟩
  · rintro ⟨shuffled, next, hshuffle⟩
    exact ⟨_, ⟨shuffled, next⟩, hshuffle, rfl⟩

variable {packReal : K → List UInt8} {profile : SpreadProfile K} {identifier : List UInt8}

/-- What the codec has checked of a profile. -/
structure ValidV3Profile (packReal : K → List UInt8) (profile : SpreadProfile K)
    (identifier : List UInt8) : Prop where
  schemaVersion : profile.schemaVersion = 3
  tileSizePx_pos : 0 < profile.tileSizePx
  tileSizePx_dvd : profile.tileSizePx % 16 = 0
  bitReplication : profile.bitReplication = 3
  bitConfidenceMin : profile.bitConfidenceMin = ((3 : Nat) : K) / ((5 : Nat) : K)
  qimDelta_pos : 0 < profile.qimDelta
  identifier : candidateIdentifierV3 packReal profile = .ok identifier

/-- A profile that passes its check has an identifier where its fields fit. -/
theorem candidateIdentifierV3_of_packable (hvalid : validateProfileV3 profile = .ok ())
    (hpackable : profile.Packable) :
    ∃ identifier, candidateIdentifierV3 packReal profile = .ok identifier := by
  have hintegers := hpackable.integers
  simp only [SpreadProfile.packedIntegers, List.forall_mem_cons] at hintegers
  obtain ⟨hschema, hchips, hlow, hhigh, htile, htiles, hrepetitions, hreplication, hhypotheses,
    -⟩ := hintegers
  have hpack : ∀ {n : Int}, FitsUnsigned n → packUnsigned n = .ok (packedUnsigned n) :=
    fun hn ↦ packUnsigned_eq_ok.mpr ⟨hn, rfl⟩
  have hcount : ∀ {count : Nat}, count < 2 ^ 32 → FitsUnsigned count := fun h ↦
    ⟨Int.natCast_nonneg _, by exact_mod_cast h⟩
  unfold candidateIdentifierV3
  rw [hvalid, ok_bind, hpack hschema, ok_bind, hpack hchips, ok_bind, hpack hlow, ok_bind,
    hpack hhigh, ok_bind, hpack htile, ok_bind, hpack htiles, ok_bind, hpack hrepetitions, ok_bind,
    hpack hreplication, ok_bind, hpack hhypotheses, ok_bind, hpack (hcount hpackable.scaleCount),
    ok_bind, hpack (hcount hpackable.interpolation), ok_bind]
  exact ⟨_, rfl⟩

theorem validateDctProfile_eq_ok :
    validateDctProfile packReal profile = .ok identifier ↔
      ValidV3Profile packReal profile identifier := by
  simp only [validateDctProfile, bind_eq_ok, exists_unit, raiseIf_eq_ok, mapError_eq_ok, not_not,
    not_or, not_le, ne_eq]
  constructor
  · rintro ⟨hschema, ⟨hpos, hdvd⟩, hreplication, hconfidence, hdelta, hidentifier⟩
    exact ⟨hschema, hpos, hdvd, hreplication, hconfidence, hdelta, hidentifier⟩
  · intro h
    exact ⟨h.schemaVersion, ⟨h.tileSizePx_pos, h.tileSizePx_dvd⟩, h.bitReplication,
      h.bitConfidenceMin, h.qimDelta_pos, h.identifier⟩

/-- Its counterpart passes the checks of V2. -/
theorem ValidV3Profile.codec [IsStrictOrderedRing K]
    (h : ValidV3Profile packReal profile identifier) : ValidV2Profile profile.codec where
  schemaVersion := rfl
  tileSizePx_pos := by
    have hpos := h.tileSizePx_pos
    show 0 < profile.tileSizePx.toNat
    omega
  tileSizePx_dvd := by
    have hpos := h.tileSizePx_pos
    have hdvd := h.tileSizePx_dvd
    show profile.tileSizePx.toNat % 16 = 0
    omega
  bitReplication := by
    show profile.bitReplication.toNat = 3
    rw [h.bitReplication]
    rfl
  bitConfidenceMin := by
    show profile.bitConfidenceMin = 3 / 5
    rw [h.bitConfidenceMin]
    norm_num
  qimDelta_pos := h.qimDelta_pos
  identifier := by
    -- what the identifier of V2 packs, that of V3 packs too
    obtain ⟨hpackable, -⟩ := candidateIdentifierV3_eq_ok packReal h.identifier
    have hintegers := hpackable.integers
    simp only [SpreadProfile.packedIntegers, List.forall_mem_cons, FitsUnsigned] at hintegers
    simp only [candidateIdentifierV2, bind_eq_ok, exists_unit, raiseIf_eq_ok, not_not]
    refine ⟨hpackable.contractSha256, ?_⟩
    show ∀ field ∈ [2, profile.tileSizePx.toNat, profile.tilesPerPage.toNat,
      profile.payloadRepetitions.toNat, profile.bitReplication.toNat], field < 2 ^ 32
    simp only [List.forall_mem_cons, List.not_mem_nil, false_imp_iff, implies_true, and_true]
    omega

variable {hmac : HmacSha256} {key : List UInt8} {pageIndex : Int} {values : List Nat}

/-- The binding, the profile and the stream are in order. -/
structure DctBinding (hmac : HmacSha256) (packReal : K → List UInt8) (key : List UInt8)
    (pageIndex : Int) (profile : SpreadProfile K) (identifier : List UInt8)
    (values : List Nat) : Prop where
  keyed : key ≠ []
  paged : 0 ≤ pageIndex ∧ pageIndex ≤ 0xFFFFFFFF
  valid : ValidV3Profile packReal profile identifier
  shuffled : shufflePositions hmac key pageIndex identifier
    (List.range (capacity profile.codec)) = .ok values

theorem validateDctBinding_eq_ok :
    validateDctBinding packReal key pageIndex profile = .ok identifier ↔
      key ≠ [] ∧ (0 ≤ pageIndex ∧ pageIndex ≤ 0xFFFFFFFF) ∧
        ValidV3Profile packReal profile identifier := by
  simp only [validateDctBinding, validateFingerprintKey, validateFingerprintIndex, bind_eq_ok,
    exists_unit, raiseIf_eq_ok, not_not, validateDctProfile_eq_ok, ne_eq]

theorem DctBinding.binding (h : DctBinding hmac packReal key pageIndex profile identifier values) :
    validateDctBinding packReal key pageIndex profile = .ok identifier :=
  validateDctBinding_eq_ok.mpr ⟨h.keyed, h.paged, h.valid⟩

variable [IsStrictOrderedRing K]

theorem DctBinding.codec (h : DctBinding hmac packReal key pageIndex profile identifier values) :
    validateBinding key pageIndex profile.codec = .ok () := by
  simp only [validateBinding, bind_eq_ok, exists_unit, raiseIf_eq_ok, not_not,
    validateProfile_eq_ok]
  exact ⟨h.keyed, h.paged, h.valid.codec⟩

/-- The positions of V3 are those of V2 under the shuffle of V3. -/
theorem DctBinding.positions
    (h : DctBinding hmac packReal key pageIndex profile identifier values) (positions : List Nat) :
    selectedPositionsV3 hmac packReal key pageIndex profile = .ok positions ↔
      selectedPositions (payloadShuffle hmac identifier) key pageIndex profile.codec =
        .ok positions := by
  have hvalues : (payloadShuffle hmac identifier : KeyedShuffle K).shuffle key pageIndex
      profile.codec (List.range (capacity profile.codec)) = values := by
    show (shufflePositions hmac key pageIndex identifier _).toOption.getD _ = values
    rw [h.shuffled]
    rfl
  simp only [selectedPositionsV3, selectedPositions, h.binding, h.codec, h.shuffled, hvalues,
    bind_eq_ok, exists_unit, raiseIf_eq_ok, mapError_eq_ok, Except.ok.injEq, exists_eq_left',
    true_and]

omit [IsStrictOrderedRing K] in
theorem ValidV3Profile.tile (h : ValidV3Profile packReal profile identifier)
    {tile tile' : Image K} :
    validateDctTile packReal tile profile = .ok tile' ↔
      (tile.height, tile.width) = (profile.codec.tileSizePx, profile.codec.tileSizePx) ∧
        tile = tile' := by
  have hpos := h.tileSizePx_pos
  have hshape :
      ((tile.height : Int), (tile.width : Int)) = (profile.tileSizePx, profile.tileSizePx) ↔
      (tile.height, tile.width) = (profile.codec.tileSizePx, profile.codec.tileSizePx) := by
    show _ ↔ (tile.height, tile.width) = (profile.tileSizePx.toNat, profile.tileSizePx.toNat)
    rw [Prod.mk.injEq, Prod.mk.injEq]
    omega
  simp only [validateDctTile, validateDctProfile_eq_ok.mpr h, bind_eq_ok, exists_unit,
    raiseIf_eq_ok, pure_eq_ok, not_not, ne_eq, hshape, Except.ok.injEq, exists_eq_left']

variable [FloorRing K] {numerics : Numerics K} {tile : Image K}

/-- V3 reads from a tile what V2 reads under its shuffle. -/
theorem DctBinding.extract (h : DctBinding hmac packReal key pageIndex profile identifier values)
    (evidence : CodewordEvidence K) :
    extractCodewordV3 numerics hmac packReal tile key pageIndex profile = .ok evidence ↔
      extractCodewordV2 numerics (payloadShuffle hmac identifier) tile key pageIndex
        profile.codec = .ok evidence := by
  simp only [extractCodewordV3, extractCodewordV2, bind_eq_ok, h.valid.tile, validateTile_eq_ok,
    h.valid.codec, true_and, h.binding, h.codec, h.positions, mapError_eq_ok, exists_unit,
    pure_eq_ok, Except.ok.injEq, exists_eq_left', and_assoc, exists_and_left]

/-- V3 embeds into a tile what V2 embeds under its shuffle. -/
theorem DctBinding.embed (h : DctBinding hmac packReal key pageIndex profile identifier values)
    (codeword : List UInt8) (embedded : Image K) :
    embedCodewordV3 numerics hmac packReal tile codeword key pageIndex profile = .ok embedded ↔
      embedCodewordV2 numerics (payloadShuffle hmac identifier) tile codeword key pageIndex
        profile.codec = .ok embedded := by
  simp only [embedCodewordV3, embedCodewordV2, bind_eq_ok, h.valid.tile, validateTile_eq_ok,
    h.valid.codec, true_and, h.binding, h.codec, h.positions, mapError_eq_ok, exists_unit,
    raiseIf_eq_ok, Except.ok.injEq, exists_eq_left', and_assoc, exists_and_left]

end Counterpart

/-! ## 3. The vote of a tile -/

/-- What a codec read from a tile. -/
structure ReadCodeword where
  codeword : List UInt8
  erasePositions : List Nat
  erasureRanking : List Nat

def CodewordEvidence.read {K : Type} (evidence : CodewordEvidence K) : ReadCodeword :=
  ⟨evidence.codeword, evidence.erasePositions, evidence.erasureRanking⟩

/-- `_decode_payload_vote` of V3. -/
def decodePayloadVoteV3 (library : Int → RSLibrary) (evidence : ReadCodeword) (candidateId : String)
    (geometryMatrix : List ℚ) (tileOrdinal : Nat) (codec : PayloadCodec) :
    Except AttemptRaised (Option PayloadVoteV3) := do
  match ← firstDecoded library evidence.codeword
      (erasureLadder evidence.erasePositions evidence.erasureRanking) with
  | none => return none
  | some (payload, decoded) =>
    let expected ← (encodeEcc (fun parity ↦ (library parity).codec) payload 16).mapError .payload
    return some ⟨candidateId, geometryMatrix, tileOrdinal, codec, decoded.issuanceId,
      some (observedErrorRate evidence.codeword expected)⟩

/-- A vote of V2 under a matrix and a codec. -/
def PayloadVoteV2.under (geometryMatrix : List ℚ) (codec : PayloadCodec) (vote : PayloadVoteV2) :
    PayloadVoteV3 :=
  ⟨vote.candidateId, geometryMatrix, vote.tileOrdinal, codec, vote.issuanceId, vote.bitErrorRate⟩

/-- V3 votes as V2 does. -/
theorem decodePayloadVoteV3_eq {K : Type} (library : Int → RSLibrary)
    (evidence : CodewordEvidence K) (candidateId : String) (geometryMatrix : List ℚ)
    (tileOrdinal : Nat) (codec : PayloadCodec) :
    decodePayloadVoteV3 library evidence.read candidateId geometryMatrix tileOrdinal codec =
      (decodePayloadVote library evidence candidateId tileOrdinal).map
        (Option.map (PayloadVoteV2.under geometryMatrix codec)) := by
  unfold decodePayloadVoteV3 decodePayloadVote voteUnder CodewordEvidence.read
  dsimp only
  cases firstDecoded library evidence.codeword
      (erasureLadder evidence.erasePositions evidence.erasureRanking) with
  | error error => rfl
  | ok found =>
    cases found with
    | none => rfl
    | some decoded =>
      obtain ⟨payload, decoded⟩ := decoded
      rw [ok_bind, ok_bind]
      dsimp only
      cases (encodeEcc (fun parity ↦ (library parity).codec) payload 16).mapError
          AttemptRaised.payload with
      | error error => rfl
      | ok expected => rfl

section Votes

variable {K : Type} [Field K] [LinearOrder K] [IsStrictOrderedRing K] [FloorRing K]
  {numerics : Numerics K} {hmac : HmacSha256} {packReal : K → List UInt8} {key : List UInt8}
  {pageIndex : Int} {profile : SpreadProfile K}

omit [IsStrictOrderedRing K] in
theorem binding_of_embed {tile embedded : Image K} {codeword : List UInt8}
    (h : embedCodewordV3 numerics hmac packReal tile codeword key pageIndex profile =
      .ok embedded) :
    ∃ identifier values, DctBinding hmac packReal key pageIndex profile identifier values := by
  simp only [embedCodewordV3, selectedPositionsV3, bind_eq_ok, mapError_eq_ok] at h
  obtain ⟨_, -, _, -, _, -, _, ⟨identifier, hbinding, _, -, values, hshuffled, -⟩, -⟩ := h
  obtain ⟨hkey, hindex, hvalid⟩ := validateDctBinding_eq_ok.mp hbinding
  exact ⟨identifier, values, hkey, hindex, hvalid, hshuffled⟩

/-- **Damage to a tile of V3.**  A tile that `embed_codeword_v3` wrote votes for its id, with no bit
in error, when every sample is received within a hundred-and-sixtieth of the step, save those of any
one block, or of up to eight blocks no two of which hold replicas of one bit. -/
theorem damaged_tile_votes_v3 (library : Int → RSLibrary) {issuanceId : UUID}
    {tile embedded : Image K} {codeword : List UInt8} (hsteady : numerics.Steady)
    (hlibrary : ∀ payload, encodePayload issuanceId 1 = .ok payload →
      ((library 16).codec).Corrects 16 payload)
    (hcodeword : (encodePayload issuanceId 1 >>= fun payload ↦
      encodeEcc (fun parity ↦ (library parity).codec) payload 16) = .ok codeword)
    (hembed : embedCodewordV3 numerics hmac packReal tile codeword key pageIndex profile =
      .ok embedded) :
    ∃ positions, selectedPositionsV3 hmac packReal key pageIndex profile = .ok positions ∧
      ∀ (received : Image K) (ε : K) (damaged : Finset Nat), 0 ≤ ε →
        160 * ε ≤ profile.qimDelta → Received profile.codec embedded received ε damaged →
        (damaged.card ≤ 1 ∨ damaged.card ≤ 8 ∧
          ∀ bit < 312, ((positions.drop (bit * 3)).take 3).countP
            (fun position ↦ decide (position / 2 ∈ damaged)) ≤ 1) →
        ∃ evidence, extractCodewordV3 numerics hmac packReal received key pageIndex profile =
            .ok evidence ∧
          ∀ candidateId geometryMatrix tileOrdinal codec,
            decodePayloadVoteV3 library evidence.read candidateId geometryMatrix tileOrdinal codec =
              .ok (some ⟨candidateId, geometryMatrix, tileOrdinal, codec, issuanceId, some 0⟩) := by
  rw [encodePayload_one, ok_bind, encodeEcc_eq _ (length_payloadBytes issuanceId)] at hcodeword
  cases hcodeword
  have hcorrects := hlibrary _ (encodePayload_one issuanceId)
  obtain ⟨identifier, values, hbinding⟩ := binding_of_embed hembed
  have hembed' := (hbinding.embed _ _).mp hembed
  obtain ⟨-, -, positions, hpositions, hplacement, -⟩ := embedCodewordV2_carries hembed'
  refine ⟨positions, (hbinding.positions positions).mpr hpositions,
    fun received ε damaged hε hsmall hreceived hdamage ↦ ?_⟩
  have hfew : damaged.card ≤ 8 := by omega
  have hapart : ∀ bit < 312, ((positions.drop (bit * 3)).take 3).countP
      (fun position ↦ decide (position / 2 ∈ damaged)) ≤ 1 := by
    rcases hdamage with hone | ⟨-, hapart⟩
    · exact fun bit hbit ↦ hplacement.countP_le_one hone hbit
    · exact hapart
  obtain ⟨evidence, hextract, hvote⟩ :=
    embedded_tile_votes hsteady hcorrects hembed' hpositions hε hsmall hreceived hfew hapart
  refine ⟨evidence, (hbinding.extract evidence).mpr hextract,
    fun candidateId geometryMatrix tileOrdinal codec ↦ ?_⟩
  rw [decodePayloadVoteV3_eq, hvote]
  rfl

end Votes

/-! ### A white block in a tile of V3 -/

/-- The frozen profile of 384 pixels, over the reals. -/
noncomputable def realSpreadProfile : SpreadProfile ℝ where
  schemaVersion := 3
  contractSha256 := List.replicate 32 0
  qimDelta := (24 : Nat)
  pilotStrengthRms := (2 : Nat)
  spreadDelta := (4 : Nat)
  spreadChipsPerBit := 64
  saturatedFractionMin := (3 : Nat) / (4 : Nat)
  saturationLow := 16
  saturationHigh := 239
  tileSizePx := 384
  tilesPerPage := 18
  payloadRepetitions := 3
  bitReplication := 3
  bitConfidenceMin := (3 : Nat) / (5 : Nat)
  pilotScoreMin := 1 / (5 : Nat)
  maxGeometryHypotheses := 8
  geometryRatioTolerance := 1 / (1000 : Nat)
  cropRetainedScales := [(866 : Nat) / (1000 : Nat)]
  resizeInterpolation := "INTER_CUBIC".toList

theorem realSpreadProfile_accepted : validateProfileV3 realSpreadProfile = .ok () := by
  have hreals : ∀ field ∈ realSpreadProfile.positiveReals, ¬ field.1 ≤ 0 := by
    simp only [SpreadProfile.positiveReals, realSpreadProfile, List.forall_mem_cons,
      List.not_mem_nil, false_imp_iff, implies_true, and_true]
    norm_num
  have hfractions : ∀ field ∈ realSpreadProfile.fractions, ¬ ¬ (0 ≤ field.1 ∧ field.1 ≤ 1) := by
    simp only [SpreadProfile.fractions, realSpreadProfile, List.forall_mem_cons,
      List.not_mem_nil, false_imp_iff, implies_true, and_true]
    norm_num
  have hscales : ¬ ∃ scale ∈ realSpreadProfile.cropRetainedScales, scale ≤ 0 ∨ 1 < scale := by
    simp only [realSpreadProfile, List.mem_singleton, exists_eq_left]
    norm_num
  simp only [validateProfileV3, bind_eq_ok, exists_unit, raiseIf_eq_ok, requireEach_eq_ok]
  exact ⟨not_not.mpr rfl, not_not.mpr rfl, hreals, by decide, hfractions, by decide, by decide,
    by decide, List.cons_ne_nil _ _, hscales, by decide⟩

theorem realSpreadProfile_packable : realSpreadProfile.Packable where
  contractSha256 := rfl
  integers := by
    show ∀ n ∈ realSpreadProfile.packedIntegers, 0 ≤ n ∧ n < 2 ^ 32
    simp only [SpreadProfile.packedIntegers, realSpreadProfile]
    decide
  scaleCount := Nat.one_lt_two_pow (by decide)
  interpolation := by decide

theorem realSpreadProfile_identifier : ∃ identifier,
    candidateIdentifierV3 (fun _ ↦ List.replicate 8 0) realSpreadProfile = .ok identifier :=
  candidateIdentifierV3_of_packable realSpreadProfile_accepted realSpreadProfile_packable

theorem damaged_tile_votes_v3_whitened : ∃ embedded evidence,
    embedCodewordV3 orthonormalNumerics zeroHmac (fun _ ↦ List.replicate 8 0)
      ⟨384, 384, fun _ _ ↦ 0⟩ (Interleave.interleave sampleCodeword 8) [1] 0 realSpreadProfile =
        .ok embedded ∧
      (∀ y < 16, ∀ x < 16, (whitened embedded).pixel y x = 255) ∧
      extractCodewordV3 orthonormalNumerics zeroHmac (fun _ ↦ List.replicate 8 0)
        (whitened embedded) [1] 0 realSpreadProfile = .ok evidence ∧
      decodePayloadVoteV3 (fun _ ↦ sampleLibrary) evidence.read "candidate" [] 0 .dct =
        .ok (some ⟨"candidate", [], 0, .dct, samplePayloadUuid, some 0⟩) := by
  obtain ⟨identifier, hidentifier⟩ := realSpreadProfile_identifier
  have hvalid : ValidV3Profile (fun _ ↦ List.replicate 8 0) realSpreadProfile identifier :=
    ⟨rfl, by decide, rfl, rfl, rfl, by show (0 : ℝ) < (24 : Nat); norm_num, hidentifier⟩
  obtain ⟨values, hshuffled⟩ : ∃ values, shufflePositions zeroHmac [1] 0 identifier
      (List.range (capacity realSpreadProfile.codec)) = .ok values := by
    have hcapacity : capacity realSpreadProfile.codec = 1152 := rfl
    rw [shufflePositions_ok_iff, List.length_range, hcapacity, zeroHmac_supply rfl]
    obtain ⟨rest, hrest⟩ : ∃ rest, FisherYates.drawsFrom drawBelow 1151
        (List.replicate (blockCount * 32) 0) = .ok rest :=
      drawsFrom_zeros (by omega) (by rw [blockCount]; omega)
    intro hexhausted
    have hdraws := hrest.symm.trans hexhausted
    cases hdraws
  have hbinding : DctBinding zeroHmac (fun _ ↦ List.replicate 8 0) [1] 0 realSpreadProfile
      identifier values := ⟨List.cons_ne_nil _ _, by decide, hvalid, hshuffled⟩
  have hinputs : CodecInputs (⟨384, 384, fun _ _ ↦ 0⟩ : Image ℝ)
      (Interleave.interleave sampleCodeword 8) [1] 0 realSpreadProfile.codec :=
    ⟨hvalid.codec, rfl, by decide +kernel, hbinding.codec, by decide⟩
  obtain ⟨positions, hpositions, hplacement⟩ := selectedPositions_spec
    (payloadShuffle zeroHmac identifier) hinputs.valid hinputs.binding hinputs.capacity
  obtain ⟨embedded, hembed, hshape, -⟩ := embedCodewordV2_spec orthonormalNumerics
    (payloadShuffle zeroHmac identifier) hinputs hpositions hplacement
  have hembed' := (hbinding.embed _ _).mpr hembed
  have hreceived : Received realSpreadProfile.codec embedded (whitened embedded) (1 / 10) {0} := by
    refine ⟨hshape, fun y _ x _ hblock ↦ ?_⟩
    rw [Finset.mem_singleton] at hblock
    show |(if sampleBlock realSpreadProfile.codec y x = 0 then ((255 : Nat) : ℝ)
      else embedded.pixel y x + 1 / (10 : Nat)) - embedded.pixel y x| ≤ 1 / 10
    rw [if_neg hblock, add_sub_cancel_left]
    norm_num
  have hsmall : 160 * (1 / 10 : ℝ) ≤ realSpreadProfile.qimDelta := by
    show 160 * (1 / 10 : ℝ) ≤ (24 : Nat)
    norm_num
  obtain ⟨_, -, hvotes⟩ := damaged_tile_votes_v3 (fun _ ↦ sampleLibrary)
    orthonormalNumerics_steady sampleLibrary_corrects sampleLibrary_codeword hembed'
  obtain ⟨evidence, hextract, hvote⟩ := hvotes (whitened embedded) (1 / 10) {0} (by norm_num)
    hsmall hreceived (.inl (by decide))
  refine ⟨embedded, evidence, hembed', fun y hy x hx ↦ ?_, hextract, hvote "candidate" [] 0 .dct⟩
  have hblock : sampleBlock realCodecProfile y x = 0 := by
    unfold sampleBlock
    rw [Nat.div_eq_of_lt hy, Nat.div_eq_of_lt hx, Nat.zero_mul]
  show (if sampleBlock realCodecProfile y x = 0 then ((255 : Nat) : ℝ) else _) = 255
  rw [if_pos hblock]
  norm_num

end Splitbind
