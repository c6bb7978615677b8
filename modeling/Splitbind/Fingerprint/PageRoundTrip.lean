import Splitbind.Fingerprint.PageDecoding
import Splitbind.Fingerprint.SpreadCodec

/-!
# Page round trip — an embedded page is attributed, and damage does not change its name

Every tile of an embedded page that is received well enough votes for the id of the page.  With all
of them the decision is complete; with some of them no other id is named; and with a quorum, and no
tile that names another, the page is attributed.
-/

namespace Splitbind

open Transaction Quorum

/-! ## 1. A full vote -/

/-- The votes of all the tiles of a profile for one issuance. -/
def fullVotes (candidateId : String) (issuanceId : UUID) (count : Nat) : List PayloadVoteV2 :=
  (List.range count).map fun tileOrdinal ↦ ⟨candidateId, tileOrdinal, issuanceId, some 0⟩

section Full

variable {candidate : FingerprintV2Profile} {issuanceId : UUID}

theorem mem_fullVotes {candidateId : String} {count : Nat} {vote : PayloadVoteV2} :
    vote ∈ fullVotes candidateId issuanceId count ↔
      ∃ tileOrdinal < count, vote = ⟨candidateId, tileOrdinal, issuanceId, some 0⟩ := by
  unfold fullVotes
  rw [List.mem_map]
  constructor
  · rintro ⟨tileOrdinal, hmem, rfl⟩
    exact ⟨tileOrdinal, List.mem_range.mp hmem, rfl⟩
  · rintro ⟨tileOrdinal, hlt, rfl⟩
    exact ⟨tileOrdinal, List.mem_range.mpr hlt, rfl⟩

theorem fullVotes_consistent {candidateId : String} {count : Nat} :
    Consistent (fullVotes candidateId issuanceId count) := by
  intro vote hvote other hother hsame
  obtain ⟨tileOrdinal, -, rfl⟩ := mem_fullVotes.mp hvote
  obtain ⟨tileOrdinal', -, rfl⟩ := mem_fullVotes.mp hother
  obtain rfl : tileOrdinal = tileOrdinal' := hsame.2
  rfl

theorem places_fullVotes {candidateId : String} {count : Nat} :
    places ((fullVotes candidateId issuanceId count).map (·.ballot)) candidateId issuanceId =
      Finset.range count := by
  apply Finset.ext
  intro tileOrdinal
  rw [mem_places, List.mem_map, Finset.mem_range]
  constructor
  · rintro ⟨vote, hvote, hballot⟩
    obtain ⟨place, hlt, rfl⟩ := mem_fullVotes.mp hvote
    obtain rfl : place = tileOrdinal := congrArg Ballot.place hballot
    exact hlt
  · intro hlt
    exact ⟨_, mem_fullVotes.mpr ⟨tileOrdinal, hlt, rfl⟩, rfl⟩

/-- When all the tiles name one issuance, the decision names it with full confidence. -/
theorem decidePayloadVotes_full (issuanceId : UUID)
    (hrepetitions : 2 ≤ candidate.payloadRepetitions) (geometryConfidence : ℚ) :
    ∃ decision, decidePayloadVotes
        (fullVotes candidate.identifier issuanceId candidate.payloadRepetitions) [candidate]
        geometryConfidence = .ok decision ∧
      decision.verdict = ⟨.decoded, some issuanceId, 1, candidate.payloadRepetitions⟩ := by
  obtain ⟨decision, hdecision, hverdict⟩ :=
    decidePayloadVotes_verdict fullVotes_consistent [candidate] geometryConfidence
  refine ⟨decision, hdecision, ?_⟩
  set ballots := (fullVotes candidate.identifier issuanceId
    candidate.payloadRepetitions).map (·.ballot) with hballots
  have hseats : repetitionsOf [candidate] candidate.identifier = candidate.payloadRepetitions := by
    simp [repetitionsOf]
  have hpos : (0 : ℚ) < candidate.payloadRepetitions := by
    exact_mod_cast (show 0 < candidate.payloadRepetitions by omega)
  have hstrength : strength (repetitionsOf [candidate]) ballots candidate.identifier issuanceId =
      toLex (1, candidate.payloadRepetitions) := by
    unfold strength
    rw [hseats, hballots, places_fullVotes, Finset.card_range, div_self hpos.ne']
  have hquorate : Quorate
      (strength (repetitionsOf [candidate]) ballots candidate.identifier issuanceId) := by
    rw [hstrength]
    refine ⟨hrepetitions, ?_⟩
    show candidateSupportThreshold ≤ 1
    norm_num [candidateSupportThreshold]
  have hcast : ∀ ballot ∈ ballots,
      ballot.candidate = candidate.identifier ∧ ballot.choice = issuanceId := by
    intro ballot hballot
    obtain ⟨vote, hvote, rfl⟩ := List.mem_map.mp hballot
    obtain ⟨place, -, rfl⟩ := mem_fullVotes.mp hvote
    exact ⟨rfl, rfl⟩
  have hfirst : (⟨candidate.identifier, 0, issuanceId⟩ : TileBallot) ∈ ballots :=
    List.mem_map_of_mem (f := (·.ballot))
      (mem_fullVotes.mpr ⟨0, by omega, rfl⟩)
  generalize hgiven : decision.verdict = verdict at hverdict
  cases hverdict with
  | undetected hempty =>
    rw [hempty] at hfirst
    exact absurd hfirst List.not_mem_nil
  | decoded hunanimous hstrongest =>
    obtain ⟨ballot, hballot, rfl, rfl⟩ := hstrongest.cast
    obtain ⟨hcandidate, hchoice⟩ := hcast ballot hballot
    rw [hcandidate, hchoice, hstrength]
    rfl
  | undecided hnone _ =>
    obtain ⟨best, hbest, hstrongest⟩ := exists_strongest hfirst hquorate
    exact absurd hstrongest
      (hnone _ _ fun ballot hballot ↦ (hcast ballot hballot).2.trans (hcast best hbest).2.symm)

end Full

/-! ## 2. The tiles of an embedded page -/

section Kept

variable {K : Type} [Field K] [LinearOrder K] [IsStrictOrderedRing K] [FloorRing K]
  {tools : DecodingTools K} {context : FingerprintV2Context} {profile : GridProfileV2 K}

/-- A tile of the raster is received well enough on a canvas: near everywhere but in one block, or in
up to eight blocks that hold no two replicas of one bit. -/
structure TileKept (tools : DecodingTools K) (context : FingerprintV2Context)
    (profile : GridProfileV2 K) (raster canvas : Image Bgr) (tile : Tile) : Prop where
  intro ::
  kept : ∃ (ε : K) (damaged : Finset Nat), 0 ≤ ε ∧
    160 * (ε + 925 / 10000) ≤ profile.qimDelta ∧
    Received profile.codec ((luminance raster).crop tile) ((luminance canvas).crop tile) ε damaged ∧
    (damaged.card ≤ 1 ∨ damaged.card ≤ 8 ∧ ∀ positions,
      selectedPositions tools.keyed context.fingerprintKey context.pageIndex profile.codec =
        .ok positions →
      ∀ bit < 312, ((positions.drop (bit * 3)).take 3).countP
        (fun position ↦ decide (position / 2 ∈ damaged)) ≤ 1)

omit [IsStrictOrderedRing K] [FloorRing K] in
/-- What is near an image that is near a third is near the third. -/
theorem Received.trans [IsStrictOrderedRing K] {profile : CodecProfile K}
    {embedded raster received : Image K} {ε δ : K} {damaged : Finset Nat}
    (hnear : ∀ y < profile.tileSizePx, ∀ x < profile.tileSizePx,
      |raster.pixel y x - embedded.pixel y x| ≤ δ)
    (h : Received profile raster received ε damaged) :
    Received profile embedded received (ε + δ) damaged := by
  refine ⟨h.shape, fun y hy x hx hblock ↦ ?_⟩
  calc |received.pixel y x - embedded.pixel y x|
      ≤ |received.pixel y x - raster.pixel y x| + |raster.pixel y x - embedded.pixel y x| :=
        abs_sub_le _ _ _
    _ ≤ ε + δ := add_le_add (h.near y hy x hx hblock) (hnear y hy x hx)

/-- The raster as it is keeps all its tiles. -/
theorem TileKept.self {raster : Image Bgr} {tile : Tile}
    (hdelta : ((24 : Nat) : K) ≤ profile.qimDelta)
    (hsize : tile.width = profile.tileSizePx ∧ tile.height = profile.tileSizePx) :
    TileKept tools context profile raster raster tile := by
  refine ⟨0, ∅, le_rfl, ?_, ⟨?_, fun y _ x _ _ ↦ ?_⟩, .inl ?_⟩
  · have hcast : ((24 : Nat) : K) = 24 := by norm_num
    rw [hcast] at hdelta
    linarith
  · show (tile.height, tile.width) = (profile.tileSizePx, profile.tileSizePx)
    rw [hsize.1, hsize.2]
  · rw [sub_self, abs_zero]
  · rw [Finset.card_empty]
    exact Nat.zero_le 1

/-- A tile that is kept votes for the id of the page. -/
theorem kept_tile_votes (hsteady : tools.numerics.Steady)
    (hlibrary : ((tools.library 16).codec).Corrects 16 (payloadBytes context.issuanceId))
    {raster canvas : Image Bgr} {tiles : List Tile} {tile : Tile} {tileOrdinal : Nat}
    (hcarries : CarriesPage tools.toPageTools
      (Interleave.interleave ((tools.library 16).encode (payloadBytes context.issuanceId)) 8)
      context profile raster tiles)
    (htile : (tiles.take profile.payloadRepetitions)[tileOrdinal]? = some tile)
    (hkept : TileKept tools context profile raster canvas tile) :
    tileVote tools (luminance canvas) context.fingerprintKey context.pageIndex profile tile
      tileOrdinal = .ok (some ⟨(profile.candidate tools.packReal).identifier, tileOrdinal,
        context.issuanceId, some 0⟩) := by
  obtain ⟨source, region, hregion, hraster⟩ :=
    hcarries.embedded tile (List.mem_of_getElem? htile)
  obtain ⟨ε, damaged, hε, hsmall, hreceived, hdamage⟩ := hkept.kept
  obtain ⟨-, -, positions, hpositions, hplacement, -⟩ := embedCodewordV2_carries hregion
  have hbudget : (0 : K) ≤ ε + 925 / 10000 := by
    have hraw : (0 : K) ≤ 925 / 10000 := by norm_num
    exact add_nonneg hε hraw
  have hnear : Received profile.codec region ((luminance canvas).crop tile) (ε + 925 / 10000)
      damaged := hreceived.trans hraster
  have hapart : damaged.card ≤ 8 ∧ ∀ bit < 312, ((positions.drop (bit * 3)).take 3).countP
      (fun position ↦ decide (position / 2 ∈ damaged)) ≤ 1 := by
    rcases hdamage with hone | ⟨hfew, hapart⟩
    · exact ⟨by omega, fun bit hbit ↦ hplacement.countP_le_one hone hbit⟩
    · exact ⟨hfew, hapart positions hpositions⟩
  obtain ⟨evidence, hextract, hvote⟩ := embedded_tile_votes hsteady hlibrary hregion hpositions
    hbudget hsmall hnear hapart.1 hapart.2
  unfold tileVote
  rw [hextract]
  show (decodePayloadVote tools.library evidence (profile.candidate tools.packReal).identifier
    tileOrdinal).mapError PageError.attempt = _
  rw [hvote]
  rfl

end Kept

/-! ## 3. The page as it was embedded -/

section Whole

variable {K : Type} [Field K] [LinearOrder K] [IsStrictOrderedRing K] [FloorRing K]
  {tools : DecodingTools K} {context : FingerprintV2Context} {profile : GridProfileV2 K}

omit [IsStrictOrderedRing K] in
theorem examineProfile_of_alignsTo {page canvas : Image Bgr} {key : List UInt8} {pageIndex : Int}
    {canonicalShape : Int × Int}
    (h : AlignsTo tools.toAlignmentTools page key pageIndex profile canonicalShape canvas) :
    ∃ pilotScore, examineProfile tools page key pageIndex canonicalShape profile =
      canvasFindings tools canvas pilotScore key pageIndex profile := by
  obtain ⟨result, halign, hreason, himage⟩ := h
  refine ⟨result.pilotScore, ?_⟩
  have hnot : ¬ result.reason = .geometryRejected := by
    rw [hreason]
    decide
  unfold examineProfile
  rw [halign, ok_bind, if_neg hnot]
  simp only [hreason, himage]

/-- A canvas on which every tile is kept votes for the id throughout. -/
theorem canvasVotes_kept (hsteady : tools.numerics.Steady)
    (hlibrary : ((tools.library 16).codec).Corrects 16 (payloadBytes context.issuanceId))
    {raster canvas : Image Bgr} {tiles : List Tile}
    (hcarries : CarriesPage tools.toPageTools
      (Interleave.interleave ((tools.library 16).encode (payloadBytes context.issuanceId)) 8)
      context profile raster tiles)
    (hkept : ∀ tile ∈ tiles.take profile.payloadRepetitions,
      TileKept tools context profile raster canvas tile) :
    ∃ votes, canvasVotes tools canvas context.fingerprintKey context.pageIndex profile tiles =
        .ok votes ∧
      votes.filterMap id = fullVotes (profile.candidate tools.packReal).identifier
        context.issuanceId profile.payloadRepetitions := by
  set candidateId := (profile.candidate tools.packReal).identifier with hcandidate
  have hcast : ∀ place ∈ (tiles.take profile.payloadRepetitions).zipIdx,
      tileVote tools (luminance canvas) context.fingerprintKey context.pageIndex profile place.1
        place.2 = .ok (some ⟨candidateId, place.2, context.issuanceId, some 0⟩) := by
    intro place hplace
    have htile := List.mem_zipIdx_iff_getElem?.mp hplace
    exact kept_tile_votes hsteady hlibrary hcarries htile
      (hkept place.1 (List.mem_of_getElem? htile))
  refine ⟨_, mapM_eq_map hcast, ?_⟩
  have hlength : (tiles.take profile.payloadRepetitions).length = profile.payloadRepetitions := by
    rw [List.length_take]
    exact Nat.min_eq_left hcarries.enough
  have hplaces : (tiles.take profile.payloadRepetitions).zipIdx.map Prod.snd =
      List.range profile.payloadRepetitions := by
    rw [List.zipIdx_map_snd, ← List.range_eq_range', hlength]
  unfold fullVotes
  rw [List.filterMap_map, ← hplaces, List.map_map]
  exact congrFun (List.filterMap_eq_map (f := fun place : Tile × Nat ↦
    (⟨candidateId, place.2, context.issuanceId, some 0⟩ : PayloadVoteV2))) _

/-- The inputs that every check of a decoding accepts. -/
structure DecodingInputs (tools : DecodingTools K) (received : Image Bgr)
    (context : FingerprintV2Context) (canonicalShape : Int × Int) (profile : GridProfileV2 K) :
    Prop where
  sha : tools.contractSha256.length = 32
  key : context.fingerprintKey ≠ []
  pageIndex : 0 ≤ context.pageIndex ∧ context.pageIndex ≤ 0xFFFFFFFF
  profile : profile ∈ loadV2Profiles tools.contractSha256
  canonicalShape : validateCanonicalShape canonicalShape = .ok ()
  page : validatePage received = .ok ()

omit [FloorRing K] in
theorem validateProfiles_singleton (hsha : tools.contractSha256.length = 32)
    (hprofile : profile ∈ loadV2Profiles tools.contractSha256) :
    validateProfiles tools [profile] = .ok () := by
  have hmem := validateCanonicalProfile_of_mem hsha hprofile
  have hforM : [profile].forM (validateCanonicalProfile tools.contractSha256) = .ok () := by
    show (validateCanonicalProfile tools.contractSha256 profile >>= fun _ ↦ _) = _
    rw [hmem]
    rfl
  have hfew : ¬ 16 < [profile].length := by
    rw [List.length_singleton]
    decide
  simp only [validateProfiles, bind_eq_ok, exists_unit, raiseIf_eq_ok]
  exact ⟨List.cons_ne_nil _ _, hfew, hforM, not_not.mpr (List.nodup_singleton _)⟩

/-- When every tile is kept, the page is decoded with full confidence. -/
theorem decodePageFingerprintV2_kept (hsteady : tools.numerics.Steady)
    (hlibrary : ((tools.library 16).codec).Corrects 16 (payloadBytes context.issuanceId))
    {raster received canvas : Image Bgr} {canonicalShape : Int × Int} {tiles : List Tile}
    (hinputs : DecodingInputs tools received context canonicalShape profile)
    (hcarries : CarriesPage tools.toPageTools
      (Interleave.interleave ((tools.library 16).encode (payloadBytes context.issuanceId)) 8)
      context profile raster tiles)
    (halign : AlignsTo tools.toAlignmentTools received context.fingerprintKey context.pageIndex
      profile canonicalShape canvas)
    (hshape : (canvas.height, canvas.width) = (raster.height, raster.width))
    (hkept : ∀ tile ∈ tiles.take profile.payloadRepetitions,
      TileKept tools context profile raster canvas tile) :
    ∃ decision, decodePageFingerprintV2 tools received context.fingerprintKey context.pageIndex
        canonicalShape [profile] = .ok decision ∧
      decision.verdict = ⟨.decoded, some context.issuanceId, 1, profile.payloadRepetitions⟩ := by
  obtain ⟨hheight, hwidth⟩ := Prod.mk.inj hshape
  -- what the profile finds on the canvas
  obtain ⟨pilotScore, hexamine⟩ := examineProfile_of_alignsTo halign
  obtain ⟨votes, hvotes, hfull⟩ := canvasVotes_kept hsteady hlibrary hcarries hkept
  have hfindings : examineProfile tools received context.fingerprintKey context.pageIndex
      canonicalShape profile = .ok ⟨pilotScore, true, false, votes⟩ := by
    rw [hexamine, canvasFindings, hheight, hwidth, hcarries.derived]
    dsimp only
    rw [hvotes]
    rfl
  -- and the decision on it
  have hrepetitions := (onGrid_of_mem hinputs.profile).payloadRepetitions
  have hquorum : 2 ≤ (profile.candidate tools.packReal).payloadRepetitions := by
    show 2 ≤ profile.payloadRepetitions
    omega
  obtain ⟨decision, hdecision, hverdict⟩ :=
    decidePayloadVotes_full context.issuanceId hquorum
      (bestGeometryConfidence [pilotScore])
  refine ⟨decision, ?_, hverdict⟩
  have hkey : validateFingerprintKey context.fingerprintKey = .ok () := raiseIf_neg hinputs.key _
  have hindex : validateFingerprintIndex context.pageIndex = .ok () :=
    raiseIf_neg (not_not.mpr hinputs.pageIndex) _
  have hprofiles := validateProfiles_singleton hinputs.sha hinputs.profile
  have hmapM : [profile].mapM (examineProfile tools received context.fingerprintKey
      context.pageIndex canonicalShape) = .ok [⟨pilotScore, true, false, votes⟩] := by
    rw [List.mapM_cons, hfindings]
    rfl
  have hany : ([⟨pilotScore, true, false, votes⟩] : List ProfileFindings).any (·.aligned) = true := rfl
  simp only [decodePageFingerprintV2, bind_eq_ok, exists_unit]
  refine ⟨hkey, hindex, hinputs.canonicalShape, hprofiles, hinputs.page, _, hmapM, ?_⟩
  rw [if_pos hany]
  show (decidePayloadVotes (votes.filterMap id ++ []) [profile.candidate tools.packReal]
    (bestGeometryConfidence [pilotScore])).mapError PageError.decision = _
  rw [List.append_nil, hfull]
  exact mapError_eq_ok.mpr hdecision

/-- The shape of a valid page is a canonical shape. -/
theorem validateCanonicalShape_of_page {page : Image Bgr} (h : validatePage page = .ok ()) :
    validateCanonicalShape ((page.height : Int), (page.width : Int)) = .ok () := by
  simp only [validatePage, bind_eq_ok, exists_unit, raiseIf_eq_ok, not_or, not_lt] at h
  simp only [validateCanonicalShape, bind_eq_ok, exists_unit, raiseIf_eq_ok, not_or, not_le, not_lt]
  refine ⟨⟨by omega, by omega⟩, ?_⟩
  exact_mod_cast h.2

end Whole

/-- **Page round trip.**  A valid page with a layout and with headroom is embedded; and when its raster
is aligned to itself, decoding it names its id with full confidence and a vote of every repetition. -/
theorem page_round_trip {K : Type} [Field K] [LinearOrder K] [IsStrictOrderedRing K] [FloorRing K]
    (tools : DecodingTools K) (page : Image Bgr) (context : FingerprintV2Context)
    (profile : GridProfileV2 K) (tiles : List Tile) (hsteady : tools.numerics.Steady)
    (hlibrary : ∀ payload, encodePayload context.issuanceId 1 = .ok payload →
      ((tools.library 16).codec).Corrects 16 payload)
    (hsha : tools.contractSha256.length = 32) (hkey : context.fingerprintKey ≠ [])
    (hindex : 0 ≤ context.pageIndex ∧ context.pageIndex ≤ 0xFFFFFFFF)
    (hprofile : profile ∈ loadV2Profiles tools.contractSha256)
    (hpage : validatePage page = .ok ())
    (htiles : deriveTilesV2 tools.hmac (page.height, page.width) context.fingerprintKey
      context.pageIndex (profile.layout tools.packReal) = .ok tiles)
    (hroom : ∀ y < page.height, ∀ x < page.width,
      Headroom (page.pixel y x) (embeddingChange tools.toPageTools page context profile y x)) :
    ∃ result, embedFingerprintV2 tools.toPageTools page context profile = .ok result ∧
      (AlignsTo tools.toAlignmentTools result.image context.fingerprintKey context.pageIndex profile
          (page.height, page.width) result.image →
        ∃ decision, decodePageFingerprintV2 tools result.image context.fingerprintKey
            context.pageIndex (page.height, page.width) [profile] = .ok decision ∧
          decision.verdict =
            ⟨.decoded, some context.issuanceId, 1, profile.payloadRepetitions⟩) := by
  have hcorrects := hlibrary _ (encodePayload_one context.issuanceId)
  have hlength : ((tools.library 16).encode (payloadBytes context.issuanceId)).length = 39 := by
    have hencode := hcorrects.length_encode
    rw [length_payloadBytes] at hencode
    exact hencode
  obtain ⟨result, hembed⟩ :=
    embedFingerprintV2_ok hsha hkey hindex hprofile hpage hlength htiles
  refine ⟨result, hembed, fun halign ↦ ?_⟩
  obtain ⟨tiles', hcarries⟩ := embedFingerprintV2_carries hsteady hroom hembed
  obtain ⟨-, -, target, -, hresult⟩ := embedFingerprintV2_eq_ok hembed
  have hshape : result.image.height = page.height ∧ result.image.width = page.width := by
    rw [hresult]
    exact ⟨rfl, rfl⟩
  have hinputs : DecodingInputs tools result.image context (page.height, page.width) profile := by
    refine ⟨hsha, hkey, hindex, hprofile, validateCanonicalShape_of_page hpage, ?_⟩
    unfold validatePage
    rw [hshape.1, hshape.2]
    exact hpage
  exact decodePageFingerprintV2_kept hsteady hcorrects hinputs hcarries halign rfl fun tile htile ↦
    TileKept.self (onGrid_of_mem hprofile).qimDelta (hcarries.size tile (List.mem_of_mem_take htile))

/-! ### A slate page -/

/-- The pilot is a chequerboard, the one hypothesis is that the page lies where it should, and the
warp by it is the page itself. -/
noncomputable def slateTools : DecodingTools ℝ where
  numerics := orthonormalNumerics
  keyed := ⟨fun _ _ _ values ↦ values, fun _ _ _ _ ↦ List.Perm.refl _⟩
  hmac := zeroHmac
  library := fun _ ↦ sampleLibrary
  packReal := fun _ ↦ List.replicate 8 0
  contractSha256 := List.replicate 32 0
  pilotSpatial := fun _ _ _ _ y x ↦ if (y + x) % 2 = 0 then 1 else -1
  pilotHypotheses := fun _ _ _ _ _ ↦ .ok [⟨fun row column ↦ if row = column then 1 else 0, some 1, .pilot⟩]
  orbHypothesis := fun _ _ ↦ .ok none
  geometryIsAcceptable := fun _ _ _ ↦ .ok true
  warpPerspective := fun page _ _ ↦ .ok page

noncomputable def slateProfile : GridProfileV2 ℝ where
  schemaVersion := 2
  contractSha256 := List.replicate 32 0
  qimDelta := (24 : Nat)
  pilotStrengthRms := (3 : Nat) / (2 : Nat)
  tileSizePx := 384
  tilesPerPage := 18
  payloadRepetitions := 3
  bitReplication := 3
  bitConfidenceMin := (3 : Nat) / (5 : Nat)
  pilotScoreMin := (1 : Nat) / (5 : Nat)

def slatePage : Image Bgr := ⟨2304, 1152, fun _ _ _ ↦ 128⟩

def slateContext : FingerprintV2Context := ⟨samplePayloadUuid, [1], 0⟩

theorem slateProfile_identifier : candidateIdentifierV2 slateProfile.codec = .ok () := by
  decide +kernel

theorem slateProfile_layout : (slateProfile.layout slateTools.packReal).candidateIdentifier =
    .ok (slateProfile.identifier slateTools.packReal) := by
  unfold GridProfileV2.layout
  rw [slateProfile_identifier]

theorem slateProfile_slots :
    gridSlots (2304, 1152) (slateProfile.layout slateTools.packReal) = 18 := by
  show (2304 : Int).toNat / (384 : Int).toNat * ((1152 : Int).toNat / (384 : Int).toNat) = 18
  decide

theorem slatePage_tiles : ∃ tiles, deriveTilesV2 zeroHmac (2304, 1152) [1] 0
    (slateProfile.layout slateTools.packReal) = .ok tiles := by
  cases hderived : deriveTilesV2 zeroHmac (2304, 1152) [1] 0
      (slateProfile.layout slateTools.packReal) with
  | ok tiles => exact ⟨tiles, rfl⟩
  | error e =>
    have hvalid : ValidLayout layoutV2 (2304, 1152) [1] 0
        (slateProfile.layout slateTools.packReal) :=
      ⟨by decide, by decide, by decide, by decide, rfl, Int.ofNat_lt.mpr (by decide),
        Int.ofNat_lt.mpr (by decide), ⟨_, slateProfile_layout⟩⟩
    rcases deriveTiles_refused_iff.mp ⟨e, hderived⟩ with
      hinvalid | hover | hfew | ⟨identifier, -, hexhausted⟩
    · exact absurd hvalid hinvalid
    · exact absurd hover (by decide)
    · rw [slateProfile_slots] at hfew
      exact absurd hfew (by decide)
    · unfold StreamExhausted at hexhausted
      rw [slateProfile_slots, zeroHmac_supply rfl] at hexhausted
      obtain ⟨rest, hrest⟩ : ∃ rest, FisherYates.drawsFrom drawBelow 17
          (List.replicate (blockCount * 32) 0) = .ok rest :=
        drawsFrom_zeros (by omega) (by rw [blockCount]; omega)
      have hdraws := hrest.symm.trans hexhausted
      cases hdraws

theorem slateProfile_mem : slateProfile ∈ loadV2Profiles slateTools.contractSha256 := by
  unfold loadV2Profiles coupledLevels
  exact List.mem_flatMap.mpr ⟨_, List.mem_cons_self, List.mem_flatMap.mpr
    ⟨384, List.mem_cons_self, List.mem_map.mpr ⟨3, List.mem_cons_self, rfl⟩⟩⟩

theorem slatePage_valid : validatePage slatePage = .ok () := by decide

/-- Slate is far from black and white. -/
theorem slatePage_headroom : ∀ y < slatePage.height, ∀ x < slatePage.width,
    Headroom (slatePage.pixel y x)
      (embeddingChange slateTools.toPageTools slatePage slateContext slateProfile y x) := by
  intro y _ x _ channel
  have hspatial : |slateProfile.pilotStrengthRms * (if (y + x) % 2 = 0 then (1 : ℝ) else -1)| =
      3 / 2 := by
    have hstrength : slateProfile.pilotStrengthRms = 3 / 2 := by
      show ((3 : Nat) : ℝ) / ((2 : Nat) : ℝ) = 3 / 2
      norm_num
    rw [hstrength]
    split_ifs <;> norm_num [abs_of_pos]
  have hchange : embeddingChange slateTools.toPageTools slatePage slateContext slateProfile y x =
      21 / 2 := by
    show |slateProfile.pilotStrengthRms * (if (y + x) % 2 = 0 then (1 : ℝ) else -1)| +
      ((3 : Nat) : ℝ) / ((8 : Nat) : ℝ) * ((24 : Nat) : ℝ) = 21 / 2
    rw [hspatial]
    norm_num
  have hslate : (((slatePage.pixel y x channel).toNat : Nat) : ℝ) = 128 := by
    have hbyte : (128 : UInt8).toNat = 128 := rfl
    show (((128 : UInt8).toNat : Nat) : ℝ) = 128
    rw [hbyte]
    norm_num
  rw [hchange, hslate]
  constructor <;> norm_num

theorem sampleLibrary_sends (payload : List UInt8)
    (h : encodePayload slateContext.issuanceId 1 = .ok payload) :
    ((slateTools.library 16).codec).Corrects 16 payload :=
  sampleLibrary_corrects payload h

theorem slateLibrary_corrects :
    ((slateTools.library 16).codec).Corrects 16 (payloadBytes slateContext.issuanceId) :=
  sampleLibrary_sends _ (encodePayload_one slateContext.issuanceId)

theorem slatePage_embedded : ∃ result,
    embedFingerprintV2 slateTools.toPageTools slatePage slateContext slateProfile = .ok result := by
  obtain ⟨tiles, htiles⟩ := slatePage_tiles
  exact embedFingerprintV2_ok (by decide) (by decide) (by decide) slateProfile_mem slatePage_valid
    (by decide) htiles

theorem slateRaster_valid {result : EmbeddedPageV2}
    (h : embedFingerprintV2 slateTools.toPageTools slatePage slateContext slateProfile =
      .ok result) : validatePage result.image = .ok () := by
  obtain ⟨-, -, target, -, hresult⟩ := embedFingerprintV2_eq_ok h
  rw [hresult]
  exact slatePage_valid

/-- A page of the size of the slate one is aligned to itself. -/
theorem slateTools_alignsTo {raster : Image Bgr} (hshape : validatePage raster = .ok ()) :
    AlignsTo slateTools.toAlignmentTools raster [1] 0 slateProfile (2304, 1152) raster := by
  simp only [validatePage, bind_eq_ok, exists_unit, raiseIf_eq_ok, not_or, not_lt] at hshape
  obtain ⟨hpositive, hpixels⟩ := hshape
  have hpage : validateSyncPage raster = .ok () := by
    simp only [validateSyncPage, bind_eq_ok, exists_unit, raiseIf_eq_ok, not_or, not_lt]
    exact ⟨hpositive, hpixels⟩
  have hprofile : validateSyncProfile slateProfile = .ok () := by
    have hvalid : candidateIdentifierV2 slateProfile.codec = .ok () := by decide +kernel
    simp only [validateSyncProfile, bind_eq_ok, exists_unit, raiseIf_eq_ok, mapError_eq_ok]
    exact ⟨not_not.mpr rfl, hvalid⟩
  have hcanonical : validateSyncShape (2304, 1152) = .ok (2304, 1152) := by decide
  have hkey : validateFingerprintKey [1] = .ok () := by decide
  have hindex : validateFingerprintIndex 0 = .ok () := by decide
  set identity : GeometryHypothesisV2 ℝ :=
    ⟨fun row column ↦ if row = column then 1 else 0, some 1, .pilot⟩ with hidentity
  have heligible : eligibleHypothesis slateProfile identity = true := by
    have hscore : slateProfile.pilotScoreMin ≤ (((1 : ℚ) : ℚ) : ℝ) := by
      show ((1 : Nat) : ℝ) / ((5 : Nat) : ℝ) ≤ ((1 : ℚ) : ℝ)
      norm_num
    unfold eligibleHypothesis
    rw [decide_eq_true_eq]
    exact .inr (decide_eq_true hscore)
  have hdivisor : ¬ |identity.homography (Fin.last 2) (Fin.last 2)| ≤ ((1 : Nat) : ℝ) / ((1000000000000 : Nat) : ℝ) := by
    show ¬ |(1 : ℝ)| ≤ _
    norm_num
  refine ⟨⟨some raster, some (alignmentMatrix raster (2304, 1152) identity), some (clipScore 1), 1,
    .aligned⟩, ?_, rfl, rfl⟩
  have hestimated : slateTools.pilotHypotheses raster [1] 0 slateProfile (2304, 1152) =
      .ok [identity] := rfl
  simp only [alignPageV2, bind_eq_ok, exists_unit, mapError_eq_ok, raiseIf_eq_ok]
  refine ⟨hpage, _, hcanonical, hkey, hindex, hprofile, ?_, _, hestimated, none, rfl, ?_⟩
  · rintro ⟨template, hnone, -⟩
    cases hnone
  have hfilter : ([identity].take maxPilotHypotheses ++ (none : Option (GeometryHypothesisV2 ℝ)).toList).filter
      (eligibleHypothesis slateProfile) = [identity] := by
    show [identity].filter (eligibleHypothesis slateProfile) = [identity]
    rw [List.filter_cons_of_pos heligible, List.filter_nil]
  rw [hfilter, if_neg (List.cons_ne_nil _ _)]
  simp only [bind_eq_ok, mapError_eq_ok]
  refine ⟨[identity], rfl, ?_⟩
  show (if |identity.homography (Fin.last 2) (Fin.last 2)| ≤ ((1 : Nat) : ℝ) / ((1000000000000 : Nat) : ℝ) then _ else _) = _
  rw [if_neg hdivisor]
  rfl

theorem page_round_trip_slate : ∃ result decision,
    embedFingerprintV2 slateTools.toPageTools slatePage slateContext slateProfile = .ok result ∧
      decodePageFingerprintV2 slateTools result.image [1] 0 (2304, 1152) [slateProfile] =
        .ok decision ∧
      decision.verdict = ⟨.decoded, some samplePayloadUuid, 1, 3⟩ := by
  obtain ⟨tiles, htiles⟩ := slatePage_tiles
  obtain ⟨result, hembed, hdecode⟩ := page_round_trip slateTools slatePage slateContext slateProfile
    tiles orthonormalNumerics_steady sampleLibrary_sends (by decide) (by decide) (by decide)
    slateProfile_mem slatePage_valid htiles slatePage_headroom
  obtain ⟨decision, hdecision, hverdict⟩ :=
    hdecode (slateTools_alignsTo (slateRaster_valid hembed))
  exact ⟨result, decision, hembed, hdecision, hverdict⟩

/-! ## 4. A page that was damaged -/

section Damaged

variable {K : Type} [Field K] [LinearOrder K] [IsStrictOrderedRing K] [FloorRing K]
  {tools : DecodingTools K} {context : FingerprintV2Context} {profile : GridProfileV2 K}

/-- When every tile is kept, the profile votes for nobody else. -/
theorem kept_unanimous (hsteady : tools.numerics.Steady)
    (hlibrary : ((tools.library 16).codec).Corrects 16 (payloadBytes context.issuanceId))
    {raster received canvas : Image Bgr} {canonicalShape : Int × Int} {tiles : List Tile}
    (hcarries : CarriesPage tools.toPageTools
      (Interleave.interleave ((tools.library 16).encode (payloadBytes context.issuanceId)) 8)
      context profile raster tiles)
    (halign : AlignsTo tools.toAlignmentTools received context.fingerprintKey context.pageIndex
      profile canonicalShape canvas)
    (hshape : (canvas.height, canvas.width) = (raster.height, raster.width))
    (hkept : ∀ tile ∈ tiles.take profile.payloadRepetitions,
      TileKept tools context profile raster canvas tile)
    {tileOrdinal : Nat} {vote : PayloadVoteV2}
    (hcast : TileVotes tools received context.fingerprintKey context.pageIndex canonicalShape
      profile tileOrdinal (some vote)) : vote.issuanceId = context.issuanceId := by
  obtain ⟨hheight, hwidth⟩ := Prod.mk.inj hshape
  obtain ⟨canvas', tiles', tile, halign', htiles', htile, hvote⟩ := hcast.cast
  obtain rfl := halign.unique halign'
  rw [hheight, hwidth, hcarries.derived] at htiles'
  cases htiles'
  have hown := kept_tile_votes hsteady hlibrary hcarries htile
    (hkept tile (List.mem_of_getElem? htile))
  rw [hvote] at hown
  cases hown
  rfl

end Damaged

/-- **Damage to a page.**  A page that was embedded for an id is decoded from what is received of it,
under any profiles that include its own.  When one of its tiles is kept no other id is named; and
when a quorum of them is, and no tile names another id, this id is. -/
theorem damaged_page_attributed {K : Type} [Field K] [LinearOrder K] [IsStrictOrderedRing K]
    [FloorRing K] (tools : DecodingTools K) (page received canvas : Image Bgr)
    (context : FingerprintV2Context) (profile : GridProfileV2 K) (profiles : List (GridProfileV2 K))
    (result : EmbeddedPageV2) (canonicalShape : Int × Int) (decision : DecodeV2Decision)
    (hsteady : tools.numerics.Steady)
    (hlibrary : ∀ payload, encodePayload context.issuanceId 1 = .ok payload →
      ((tools.library 16).codec).Corrects 16 payload)
    (hroom : ∀ y < page.height, ∀ x < page.width,
      Headroom (page.pixel y x) (embeddingChange tools.toPageTools page context profile y x))
    (hembed : embedFingerprintV2 tools.toPageTools page context profile = .ok result)
    (hprofile : profile ∈ profiles)
    (halign : AlignsTo tools.toAlignmentTools received context.fingerprintKey context.pageIndex
      profile canonicalShape canvas)
    (hshape : (canvas.height, canvas.width) = (page.height, page.width))
    (hdecode : decodePageFingerprintV2 tools received context.fingerprintKey context.pageIndex
      canonicalShape profiles = .ok decision) :
    ∃ tiles, deriveTilesV2 tools.hmac (page.height, page.width) context.fingerprintKey
        context.pageIndex (profile.layout tools.packReal) = .ok tiles ∧
      ∀ kept : Finset Nat,
        (∀ tileOrdinal ∈ kept, ∃ tile,
          (tiles.take profile.payloadRepetitions)[tileOrdinal]? = some tile ∧
            TileKept tools context profile result.image canvas tile) →
        (kept.Nonempty →
          decision.issuanceId = none ∨ decision.issuanceId = some context.issuanceId) ∧
        (EnoughTiles kept profile.payloadRepetitions →
          (∀ other ∈ profiles, ∀ tileOrdinal vote,
            TileVotes tools received context.fingerprintKey context.pageIndex canonicalShape other
              tileOrdinal (some vote) → vote.issuanceId = context.issuanceId) →
          decision.issuanceId = some context.issuanceId) := by
  have hcorrects := hlibrary _ (encodePayload_one context.issuanceId)
  obtain ⟨tiles, hcarries⟩ := embedFingerprintV2_carries hsteady hroom hembed
  obtain ⟨-, -, target, -, hresult⟩ := embedFingerprintV2_eq_ok hembed
  have hderived := hcarries.derived
  have hraster : (result.image.height, result.image.width) = (page.height, page.width) := by
    rw [hresult]
    rfl
  obtain ⟨hheight, hwidth⟩ := Prod.mk.inj hraster
  obtain ⟨hcanvasHeight, hcanvasWidth⟩ := Prod.mk.inj hshape
  rw [hheight, hwidth] at hderived
  refine ⟨tiles, hderived, fun kept hkept ↦ ?_⟩
  -- what is kept votes for the id
  have hvotes : ∀ tileOrdinal ∈ kept, Names tools received context.fingerprintKey
      context.pageIndex canonicalShape profile context.issuanceId tileOrdinal := by
    intro tileOrdinal hmem
    obtain ⟨tile, htile, htileKept⟩ := hkept tileOrdinal hmem
    refine ⟨_, ⟨canvas, tiles, tile, halign, ?_, htile,
      kept_tile_votes hsteady hcorrects hcarries htile htileKept⟩, rfl⟩
    rw [hcanvasHeight, hcanvasWidth]
    exact hderived
  obtain ⟨hvalid, findings, hfindings, hdecision⟩ := decodePageFingerprintV2_eq_ok hdecode
  constructor
  · intro hnonempty
    obtain ⟨tileOrdinal, hmem⟩ := hnonempty
    rcases hdecision with ⟨-, hdecision⟩ | ⟨-, hnone⟩
    · cases hid : decision.issuanceId with
      | none => exact .inl rfl
      | some named =>
        obtain ⟨vote, hcast, hname⟩ := hvotes tileOrdinal hmem
        have hall := ((decidePayloadVotes_names_iff hvalid hfindings hdecision named).mp hid).1
        have hsame := hall profile hprofile tileOrdinal vote hcast
        exact .inr (congrArg some (hsame.symm.trans hname))
    · exact .inl hnone
  · intro henough hothers
    rcases hdecision with ⟨-, hdecision⟩ | ⟨hunaligned, -⟩
    · rw [decidePayloadVotes_names_iff hvalid hfindings hdecision]
      exact ⟨hothers, profile, hprofile, kept, henough, hvotes⟩
    · -- a profile that aligned the page would have said so
      exact absurd halign (not_aligned hfindings hunaligned profile hprofile canvas)

/-! ### A white corner on the slate page -/

/-- The raster with a white block in its corner. -/
def cornered (raster : Image Bgr) : Image Bgr :=
  { raster with pixel := fun y x ↦ if y < 16 ∧ x < 16 then fun _ ↦ 255 else raster.pixel y x }

/-- The corner is at most one block of any tile. -/
theorem cornered_kept {raster : Image Bgr} {tile : Tile}
    (hsize : tile.width = slateProfile.tileSizePx ∧ tile.height = slateProfile.tileSizePx) :
    TileKept slateTools slateContext slateProfile raster (cornered raster) tile := by
  refine ⟨0, {0}, le_rfl, ?_, ⟨?_, fun y _ x _ hblock ↦ ?_⟩, .inl (by decide)⟩
  · show 160 * ((0 : ℝ) + 925 / 10000) ≤ ((24 : Nat) : ℝ)
    norm_num
  · show (tile.height, tile.width) = (slateProfile.tileSizePx, slateProfile.tileSizePx)
    rw [hsize.1, hsize.2]
  · have hout : ¬ (tile.y + y < 16 ∧ tile.x + x < 16) := by
      intro hcorner
      apply hblock
      have hrow : y / 16 = 0 := Nat.div_eq_of_lt (by omega)
      have hcolumn : x / 16 = 0 := Nat.div_eq_of_lt (by omega)
      unfold sampleBlock
      rw [hrow, hcolumn, Nat.zero_mul]
      exact Finset.mem_singleton_self 0
    have hpixel : (cornered raster).pixel (tile.y + y) (tile.x + x) =
        raster.pixel (tile.y + y) (tile.x + x) := if_neg hout
    show |weighted (fun channel ↦ (((cornered raster).pixel (tile.y + y) (tile.x + x)
        channel).toNat : ℝ)) -
      weighted (fun channel ↦ ((raster.pixel (tile.y + y) (tile.x + x) channel).toNat : ℝ))| ≤ 0
    rw [hpixel, sub_self, abs_zero]

theorem cornered_inputs {result : EmbeddedPageV2}
    (h : embedFingerprintV2 slateTools.toPageTools slatePage slateContext slateProfile =
      .ok result) :
    DecodingInputs slateTools (cornered result.image) slateContext (2304, 1152) slateProfile :=
  ⟨by decide, by decide, by decide, slateProfile_mem, by decide, slateRaster_valid h⟩

theorem damaged_page_attributed_cornered : ∃ result decision,
    embedFingerprintV2 slateTools.toPageTools slatePage slateContext slateProfile = .ok result ∧
      (∀ y < 16, ∀ x < 16, ∀ channel, (cornered result.image).pixel y x channel = 255) ∧
      decodePageFingerprintV2 slateTools (cornered result.image) [1] 0 (2304, 1152) [slateProfile] =
        .ok decision ∧
      decision.issuanceId = some samplePayloadUuid := by
  obtain ⟨result, hembed⟩ := slatePage_embedded
  obtain ⟨-, -, target, -, hresult⟩ := embedFingerprintV2_eq_ok hembed
  have hraster : validatePage (cornered result.image) = .ok () := slateRaster_valid hembed
  have halign := slateTools_alignsTo hraster
  have hcorrects := slateLibrary_corrects
  obtain ⟨tiles, hcarries⟩ :=
    embedFingerprintV2_carries orthonormalNumerics_steady slatePage_headroom hembed
  have hinputs := cornered_inputs hembed
  have hkept : ∀ tile ∈ tiles.take slateProfile.payloadRepetitions,
      TileKept slateTools slateContext slateProfile result.image (cornered result.image) tile :=
    fun tile htile ↦ cornered_kept (hcarries.size tile (List.mem_of_mem_take htile))
  obtain ⟨decision, hdecision, -⟩ := decodePageFingerprintV2_kept orthonormalNumerics_steady
    hcorrects hinputs hcarries halign rfl hkept
  have hshape : ((cornered result.image).height, (cornered result.image).width) =
      (slatePage.height, slatePage.width) := by
    rw [hresult]
    rfl
  obtain ⟨tiles', htiles', hdamage⟩ := damaged_page_attributed slateTools slatePage
    (cornered result.image) (cornered result.image) slateContext slateProfile [slateProfile] result
    (2304, 1152) decision orthonormalNumerics_steady sampleLibrary_sends slatePage_headroom hembed
    List.mem_cons_self halign hshape hdecision
  obtain ⟨hheight, hwidth⟩ : result.image.height = slatePage.height ∧
      result.image.width = slatePage.width := by
    rw [hresult]
    exact ⟨rfl, rfl⟩
  have hderived := hcarries.derived
  rw [hheight, hwidth, htiles'] at hderived
  cases hderived
  have hcount : (tiles.take 3).length = 3 := by
    rw [List.length_take]
    exact Nat.min_eq_left hcarries.enough
  have hplace : ∀ tileOrdinal < 3, ∃ tile, (tiles.take 3)[tileOrdinal]? = some tile :=
    fun tileOrdinal hlt ↦ ⟨_, List.getElem?_eq_getElem (by omega)⟩
  obtain ⟨-, hattributed⟩ := hdamage (Finset.range 3) fun tileOrdinal hmem ↦ by
    obtain ⟨tile, htile⟩ := hplace tileOrdinal (Finset.mem_range.mp hmem)
    exact ⟨tile, htile, hkept tile (List.mem_of_getElem? htile)⟩
  refine ⟨result, decision, hembed, fun y hy x hx channel ↦ ?_, hdecision, hattributed ?_ ?_⟩
  · show (if y < 16 ∧ x < 16 then fun _ ↦ 255 else result.image.pixel y x) channel = 255
    rw [if_pos ⟨hy, hx⟩]
  · show 2 ≤ (Finset.range 3).card ∧ (3 / 5 : ℚ) * ((3 : Nat) : ℚ) ≤ (Finset.range 3).card
    rw [Finset.card_range]
    constructor <;> norm_num
  · -- the tiles that vote are all kept
    intro other hother tileOrdinal vote hcast
    obtain rfl := List.mem_singleton.mp hother
    exact kept_unanimous orthonormalNumerics_steady hcorrects hcarries halign rfl hkept hcast

/-- **Grounds of an attribution.**  A decoded page names an id exactly when no tile of any profile
votes for another and some profile has a quorum for it: a hypothesis with enough evidence and a safe
geometry warps the page to a canvas, and enough tiles of the canvas hold codewords that decode to
payloads of the id. -/
theorem page_attribution_grounds {K : Type} [Field K] [LinearOrder K] [IsStrictOrderedRing K]
    [FloorRing K] (tools : DecodingTools K) (page : Image Bgr) (key : List UInt8) (pageIndex : Int)
    (canonicalShape : Int × Int) (profiles : List (GridProfileV2 K)) (decision : DecodeV2Decision)
    (hdecode : decodePageFingerprintV2 tools page key pageIndex canonicalShape profiles =
      .ok decision) (issuanceId : UUID) :
    decision.issuanceId = some issuanceId ↔
      (∀ profile ∈ profiles, ∀ tileOrdinal vote,
        TileVotes tools page key pageIndex canonicalShape profile tileOrdinal (some vote) →
          vote.issuanceId = issuanceId) ∧
      ∃ profile ∈ profiles, ∃ canvas tiles,
        AlignsTo tools.toAlignmentTools page key pageIndex profile canonicalShape canvas ∧
        (∃ hypothesis, Grounded tools.toAlignmentTools page key pageIndex profile canonicalShape
          hypothesis canvas) ∧
        deriveTilesV2 tools.hmac (canvas.height, canvas.width) key pageIndex
          (profile.layout tools.packReal) = .ok tiles ∧
        ∃ naming : Finset Nat, EnoughTiles naming profile.payloadRepetitions ∧
          ∀ tileOrdinal ∈ naming, ∃ tile evidence vote,
            (tiles.take profile.payloadRepetitions)[tileOrdinal]? = some tile ∧
            extractCodewordV2 tools.numerics tools.keyed ((luminance canvas).crop tile) key pageIndex
              profile.codec = .ok evidence ∧
            decodePayloadVote tools.library evidence (profile.candidate tools.packReal).identifier
              tileOrdinal = .ok (some vote) ∧ vote.issuanceId = issuanceId := by
  obtain ⟨hvalid, findings, hfindings, hdecision⟩ := decodePageFingerprintV2_eq_ok hdecode
  have hnamed : decision.issuanceId = some issuanceId ↔
      (∀ profile ∈ profiles, ∀ tileOrdinal vote,
        TileVotes tools page key pageIndex canonicalShape profile tileOrdinal (some vote) →
          vote.issuanceId = issuanceId) ∧
      ∃ profile ∈ profiles, ∃ naming : Finset Nat, EnoughTiles naming profile.payloadRepetitions ∧
        ∀ tileOrdinal ∈ naming,
          Names tools page key pageIndex canonicalShape profile issuanceId tileOrdinal := by
    rcases hdecision with ⟨-, hdecision⟩ | ⟨hunaligned, hnone⟩
    · exact decidePayloadVotes_names_iff hvalid hfindings hdecision issuanceId
    · -- nothing was aligned, so there is neither a name nor a vote
      rw [hnone]
      refine iff_of_false (fun h ↦ by cases h) ?_
      rintro ⟨-, profile, hprofile, naming, henough, hnaming⟩
      obtain ⟨tileOrdinal, hmem⟩ : naming.Nonempty :=
        Finset.card_pos.mp (lt_of_lt_of_le two_pos henough.1)
      obtain ⟨vote, hcast, -⟩ := hnaming tileOrdinal hmem
      obtain ⟨canvas, _, _, halign, -⟩ := hcast.cast
      exact not_aligned hfindings hunaligned profile hprofile canvas halign
  rw [hnamed]
  refine and_congr_right fun _ ↦ exists_congr fun profile ↦ and_congr_right fun _ ↦ ?_
  constructor
  · rintro ⟨naming, henough, hnaming⟩
    obtain ⟨first, hfirst⟩ : naming.Nonempty :=
      Finset.card_pos.mp (lt_of_lt_of_le two_pos henough.1)
    obtain ⟨_, hcast, -⟩ := hnaming first hfirst
    obtain ⟨canvas, tiles, _, halign, htiles, -⟩ := hcast.cast
    refine ⟨canvas, tiles, halign, halign.grounded, htiles, naming, henough, ?_⟩
    intro tileOrdinal hmem
    obtain ⟨vote, hcast, hname⟩ := hnaming tileOrdinal hmem
    obtain ⟨canvas', tiles', tile, halign', htiles', htile, hvote⟩ := hcast.cast
    obtain rfl := halign.unique halign'
    rw [htiles] at htiles'
    cases htiles'
    simp only [tileVote, bind_eq_ok, mapError_eq_ok] at hvote
    obtain ⟨evidence, hextract, hvote⟩ := hvote
    exact ⟨tile, evidence, vote, htile, hextract, hvote, hname⟩
  · rintro ⟨canvas, tiles, halign, -, htiles, naming, henough, hnaming⟩
    refine ⟨naming, henough, fun tileOrdinal hmem ↦ ?_⟩
    obtain ⟨tile, evidence, vote, htile, hextract, hvote, hname⟩ := hnaming tileOrdinal hmem
    refine ⟨vote, ⟨canvas, tiles, tile, halign, htiles, htile, ?_⟩, hname⟩
    simp only [tileVote, bind_eq_ok, mapError_eq_ok]
    exact ⟨evidence, hextract, hvote⟩

theorem slatePage_decoded : ∃ result decision,
    embedFingerprintV2 slateTools.toPageTools slatePage slateContext slateProfile = .ok result ∧
      decodePageFingerprintV2 slateTools result.image [1] 0 (2304, 1152) [slateProfile] =
        .ok decision ∧
      decision.verdict = ⟨.decoded, some samplePayloadUuid, 1, 3⟩ := by
  obtain ⟨result, hembed⟩ := slatePage_embedded
  have hraster := slateRaster_valid hembed
  obtain ⟨tiles, hcarries⟩ :=
    embedFingerprintV2_carries orthonormalNumerics_steady slatePage_headroom hembed
  have hinputs : DecodingInputs slateTools result.image slateContext (2304, 1152) slateProfile :=
    ⟨by decide, by decide, by decide, slateProfile_mem, by decide, hraster⟩
  have hkept : ∀ tile ∈ tiles.take slateProfile.payloadRepetitions,
      TileKept slateTools slateContext slateProfile result.image result.image tile :=
    fun tile htile ↦ TileKept.self (onGrid_of_mem slateProfile_mem).qimDelta
      (hcarries.size tile (List.mem_of_mem_take htile))
  obtain ⟨decision, hdecision, hverdict⟩ := decodePageFingerprintV2_kept orthonormalNumerics_steady
    slateLibrary_corrects hinputs hcarries (slateTools_alignsTo hraster) rfl hkept
  exact ⟨result, decision, hembed, hdecision, hverdict⟩

/-- What the slate page is attributed by. -/
theorem page_attribution_grounds_slate : ∃ result hypothesis canvas,
    embedFingerprintV2 slateTools.toPageTools slatePage slateContext slateProfile = .ok result ∧
      Grounded slateTools.toAlignmentTools result.image [1] 0 slateProfile (2304, 1152) hypothesis
        canvas := by
  obtain ⟨result, decision, hembed, hdecision, hverdict⟩ := slatePage_decoded
  have hid : decision.issuanceId = some samplePayloadUuid := congrArg Verdict.issuanceId hverdict
  obtain ⟨-, profile, hprofile, canvas, -, -, ⟨hypothesis, hgrounded⟩, -⟩ :=
    (page_attribution_grounds slateTools result.image [1] 0 (2304, 1152) [slateProfile] decision
      hdecision samplePayloadUuid).mp hid
  obtain rfl := List.mem_singleton.mp hprofile
  exact ⟨result, hypothesis, canvas, hembed, hgrounded⟩

end Splitbind
