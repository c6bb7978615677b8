import Splitbind.Fingerprint.DctCodecV3
import Splitbind.Fingerprint.GeometrySearch
import Splitbind.Fingerprint.PageDecoding

/-!
# Page decoding of V3 — every geometry, every codec, one decision

Each profile searches canvases for itself, derives its tiles, and lets every tile vote on every
canvas by every codec.  However many ways there are to read a tile, it counts once for an issuance,
and a single vote for another issuance is enough that none is named.
-/

namespace Splitbind

open Transaction Quorum

/-! ## 1. Decoding -/

deriving instance DecidableEq for SpreadProfile

/-- What decoding a page of V3 calls. -/
structure DecodingToolsV3 (K : Type) [Field K] extends PageTools K, GeometryTools K where
  /-- The digest of the frozen V3 contract. -/
  candidatesSha256 : List UInt8
  /-- `float(·)`. -/
  float : K → ℚ

/-- What one profile contributes: the scores of its canvases, whether the pilot's geometry was
rejected, and what its tiles voted. -/
structure SearchFindings where
  scores : List ℚ
  geometryRejected : Bool
  votes : List PayloadVoteV3

section Grid

variable {K : Type} [Field K]

/-- `load_v3_profiles`, for the digest of the frozen contract. -/
def loadV3Profiles (contractSha256 : List UInt8) : List (SpreadProfile K) :=
  [384, 512].flatMap fun tileSizePx ↦ [3, 5].map fun payloadRepetitions ↦
    { schemaVersion := 3, contractSha256 := contractSha256, qimDelta := ((32 : Nat) : K),
      pilotStrengthRms := ((2 : Nat) : K), spreadDelta := ((4 : Nat) : K), spreadChipsPerBit := 64,
      saturatedFractionMin := ((3 : Nat) : K) / ((4 : Nat) : K), saturationLow := 16,
      saturationHigh := 239, tileSizePx := tileSizePx, tilesPerPage := 18,
      payloadRepetitions := payloadRepetitions, bitReplication := 3,
      bitConfidenceMin := ((3 : Nat) : K) / ((5 : Nat) : K),
      pilotScoreMin := ((1 : Nat) : K) / ((5 : Nat) : K), maxGeometryHypotheses := 8,
      geometryRatioTolerance := ((1 : Nat) : K) / ((1000 : Nat) : K),
      cropRetainedScales := [((8660254037844386 : Nat) : K) / ((10000000000000000 : Nat) : K)],
      resizeInterpolation := "INTER_CUBIC".toList }

/-- Every profile of the grid repeats the payload three times at least. -/
theorem repetitions_of_mem_v3 {contractSha256 : List UInt8} {profile : SpreadProfile K}
    (h : profile ∈ loadV3Profiles contractSha256) : 3 ≤ profile.payloadRepetitions := by
  obtain ⟨tileSizePx, -, h⟩ := List.mem_flatMap.mp h
  obtain ⟨payloadRepetitions, hmem, rfl⟩ := List.mem_map.mp h
  show 3 ≤ payloadRepetitions
  simp only [List.mem_cons, List.not_mem_nil, or_false] at hmem
  omega

end Grid

section Decode

variable {K : Type} [Field K] [LinearOrder K]

/-- The candidate that votes are cast for; every byte of its identifier is a character. -/
def SpreadProfile.candidate (packReal : K → List UInt8) (profile : SpreadProfile K) :
    Except PageError FingerprintV3Profile := do
  let identifier ← (candidateIdentifierV3 packReal profile).mapError .layout
  return ⟨String.ofList (identifier.map fun byte ↦ Char.ofNat byte.toNat),
    profile.payloadRepetitions.toNat⟩

/-- `_validate_canonical_profile` of V3. -/
def validateCanonicalProfileV3 (packReal : K → List UInt8) (candidatesSha256 : List UInt8)
    (profile : SpreadProfile K) : Except PageError Unit := do
  let _ ← profile.candidate packReal
  raiseIf (profile ∉ loadV3Profiles candidatesSha256)
    (.value "profile must be an exact profile from the frozen V3 grid")

/-- `_validate_profiles` of V3, with the candidates. -/
def validateProfilesV3 (packReal : K → List UInt8) (candidatesSha256 : List UInt8)
    (profiles : List (SpreadProfile K)) : Except PageError (List FingerprintV3Profile) := do
  raiseIf (profiles = []) (.value "profiles must contain at least one V3 candidate")
  raiseIf (16 < profiles.length) (.value "profiles must contain at most 16 V3 candidates")
  profiles.forM (validateCanonicalProfileV3 packReal candidatesSha256)
  let candidates ← profiles.mapM (·.candidate packReal)
  raiseIf (¬ (candidates.map (·.identifier)).Nodup)
    (.value "profiles contain a duplicate candidate identifier")
  return candidates

/-- The matrix of a canvas, row by row. -/
def GeometryHypothesisV3.matrix (float : K → ℚ) (hypothesis : GeometryHypothesisV3 K) : List ℚ :=
  (List.finRange 3).flatMap fun row ↦ (List.finRange 3).map fun column ↦
    float (hypothesis.sourceToCanonical row column)

def SpreadCodewordEvidence.read (evidence : SpreadCodewordEvidence K) : ReadCodeword :=
  ⟨evidence.codeword, evidence.erasePositions, evidence.erasureRanking⟩

variable [FloorRing K] (tools : DecodingToolsV3 K)

/-- `evidence_by_codec`. -/
def evidenceByCodec (region : Image K) (key : List UInt8) (pageIndex : Int)
    (profile : SpreadProfile K) : Except PageError (List (PayloadCodec × ReadCodeword)) := do
  let dct ← extractCodewordV3 tools.numerics tools.hmac tools.packReal region key pageIndex profile
  let darken ← (extractSpreadCodewordV3 tools.hmac tools.packReal region key pageIndex profile
    .darken).mapError .layout
  let lighten ← (extractSpreadCodewordV3 tools.hmac tools.packReal region key pageIndex profile
    .lighten).mapError .layout
  return [(.dct, dct.read), (.spreadDarken, darken.read), (.spreadLighten, lighten.read)]

/-- The votes of one tile of a canvas. -/
def tileVotesV3 (hypothesis : GeometryHypothesisV3 K) (key : List UInt8) (pageIndex : Int)
    (profile : SpreadProfile K) (candidateId : String) (tile : Tile) (tileOrdinal : Nat) :
    Except PageError (List (Option PayloadVoteV3)) := do
  let region := (luminance hypothesis.image).crop tile
  let evidence ← evidenceByCodec tools region key pageIndex profile
  evidence.mapM fun reading ↦ (decodePayloadVoteV3 tools.library reading.2 candidateId
    (hypothesis.matrix tools.float) tileOrdinal reading.1).mapError .attempt

/-- The votes of the first `payload_repetitions` tiles; a canvas too small for them has none. -/
def hypothesisVotes (key : List UInt8) (pageIndex : Int) (canonicalShape : Int × Int)
    (profile : SpreadProfile K) (candidateId : String) (hypothesis : GeometryHypothesisV3 K) :
    Except PageError (List PayloadVoteV3) :=
  match deriveTilesV3 tools.hmac canonicalShape key pageIndex
      (profile.layoutProfile tools.packReal) with
  | .error (.value _) => .ok []
  | .error error => .error (.layout error)
  | .ok tiles => do
    let votes ← (tiles.take profile.payloadRepetitions.toNat).zipIdx.mapM fun entry ↦
      tileVotesV3 tools hypothesis key pageIndex profile candidateId entry.1 entry.2
    return votes.flatten.filterMap id

/-- One turn of the loop over the profiles. -/
def examineProfileV3 (page : Image Bgr) (key : List UInt8) (pageIndex : Int)
    (canonicalShape : Int × Int) (orbTemplate : Option OrbTemplate) (profile : SpreadProfile K) :
    Except PageError SearchFindings := do
  let search ← searchGeometryV3 tools.toGeometryTools page key pageIndex canonicalShape profile
    orbTemplate
  let candidate ← profile.candidate tools.packReal
  let votes ← search.hypotheses.mapM
    (hypothesisVotes tools key pageIndex canonicalShape profile candidate.identifier)
  return ⟨search.hypotheses.map (·.score), search.syncReason = some .geometryRejected,
    votes.flatten⟩

/-- `decode_fingerprint_v3`. -/
def decodePageFingerprintV3 (page : Image Bgr) (key : List UInt8) (pageIndex : Int)
    (canonicalShape : Int × Int) (profiles : List (SpreadProfile K))
    (orbTemplate : Option OrbTemplate) : Except PageError DecodeV3Decision := do
  validateFingerprintKey key
  validateFingerprintIndex pageIndex
  validateCanonicalShape canonicalShape
  let candidates ← validateProfilesV3 tools.packReal tools.candidatesSha256 profiles
  validatePage page
  let findings ← profiles.mapM
    (examineProfileV3 tools page key pageIndex canonicalShape orbTemplate)
  let scores := findings.flatMap (·.scores)
  let geometryConfidence := bestGeometryConfidence (scores.map some)
  if scores = [] then
    return ⟨none, geometryConfidence, 0, none,
      if findings.any (·.geometryRejected) then .geometryRejected else .insufficientSyncEvidence⟩
  else
    (decidePayloadVotesV3 (findings.flatMap (·.votes)) candidates geometryConfidence).mapError
      .decision

end Decode

/-! ## 2. Who voted -/

section Cast

variable {K : Type} [Field K] [LinearOrder K] [FloorRing K] {tools : DecodingToolsV3 K}
  {page : Image Bgr} {key : List UInt8} {pageIndex : Int} {canonicalShape : Int × Int}
  {orbTemplate : Option OrbTemplate} {profile : SpreadProfile K}

/-- A codec votes from a tile of a canvas that the search found. -/
structure CastsV3 (tools : DecodingToolsV3 K) (page : Image Bgr) (key : List UInt8)
    (pageIndex : Int) (canonicalShape : Int × Int) (orbTemplate : Option OrbTemplate)
    (profile : SpreadProfile K) (tileOrdinal : Nat) (vote : PayloadVoteV3) : Prop where
  intro ::
  cast : ∃ search hypothesis candidate tiles tile votes,
    searchGeometryV3 tools.toGeometryTools page key pageIndex canonicalShape profile orbTemplate =
      .ok search ∧
    hypothesis ∈ search.hypotheses ∧ profile.candidate tools.packReal = .ok candidate ∧
    deriveTilesV3 tools.hmac canonicalShape key pageIndex (profile.layoutProfile tools.packReal) =
      .ok tiles ∧
    (tiles.take profile.payloadRepetitions.toNat)[tileOrdinal]? = some tile ∧
    tileVotesV3 tools hypothesis key pageIndex profile candidate.identifier tile tileOrdinal =
      .ok votes ∧ some vote ∈ votes

theorem decodePayloadVoteV3_eq_some {library : Int → RSLibrary} {evidence : ReadCodeword}
    {candidateId : String} {geometryMatrix : List ℚ} {tileOrdinal : Nat} {codec : PayloadCodec}
    {vote : PayloadVoteV3}
    (h : decodePayloadVoteV3 library evidence candidateId geometryMatrix tileOrdinal codec =
      .ok (some vote)) : vote.candidateId = candidateId ∧ vote.tileOrdinal = tileOrdinal := by
  unfold decodePayloadVoteV3 at h
  rw [bind_eq_ok] at h
  obtain ⟨decoded, -, h⟩ := h
  cases decoded with
  | none => cases h
  | some decoded =>
    simp only [bind_eq_ok, pure_eq_ok] at h
    obtain ⟨expected, -, h⟩ := h
    cases h
    exact ⟨rfl, rfl⟩

/-- A tile votes under the name and the place it has. -/
theorem tileVotesV3_provenance {hypothesis : GeometryHypothesisV3 K} {candidateId : String}
    {tile : Tile} {tileOrdinal : Nat} {votes : List (Option PayloadVoteV3)} {vote : PayloadVoteV3}
    (h : tileVotesV3 tools hypothesis key pageIndex profile candidateId tile tileOrdinal =
      .ok votes) (hvote : some vote ∈ votes) :
    vote.candidateId = candidateId ∧ vote.tileOrdinal = tileOrdinal := by
  simp only [tileVotesV3, bind_eq_ok] at h
  obtain ⟨evidence, -, hvotes⟩ := h
  obtain ⟨reading, -, hreading⟩ := (mem_mapM_iff hvotes).mp hvote
  exact decodePayloadVoteV3_eq_some (mapError_eq_ok.mp hreading)

theorem mem_hypothesisVotes {hypothesis : GeometryHypothesisV3 K} {candidateId : String}
    {found : List PayloadVoteV3}
    (h : hypothesisVotes tools key pageIndex canonicalShape profile candidateId hypothesis =
      .ok found) (vote : PayloadVoteV3) :
    vote ∈ found ↔ ∃ tiles tile votes,
      deriveTilesV3 tools.hmac canonicalShape key pageIndex
        (profile.layoutProfile tools.packReal) = .ok tiles ∧
      (tiles.take profile.payloadRepetitions.toNat)[vote.tileOrdinal]? = some tile ∧
      tileVotesV3 tools hypothesis key pageIndex profile candidateId tile vote.tileOrdinal =
        .ok votes ∧ some vote ∈ votes := by
  unfold hypothesisVotes at h
  split at h
  · -- a canvas without tiles
    rename_i text herror
    rw [← Except.ok.inj h]
    refine iff_of_false List.not_mem_nil ?_
    rintro ⟨tiles, _, _, htiles, -⟩
    rw [herror] at htiles
    cases htiles
  · cases h
  · rename_i tiles htiles
    simp only [bind_eq_ok, pure_eq_ok] at h
    obtain ⟨votes, hvotes, rfl⟩ := h
    have hread : ∀ (entry : Tile × Nat) (cast : List (Option PayloadVoteV3)),
        tileVotesV3 tools hypothesis key pageIndex profile candidateId entry.1 entry.2 = .ok cast →
          (some vote ∈ cast ↔ ∃ votes, tileVotesV3 tools hypothesis key pageIndex profile
            candidateId entry.1 entry.2 = .ok votes ∧ some vote ∈ votes) := by
      intro entry cast hcast
      simp only [hcast, Except.ok.injEq, exists_eq_left']
    have hmem : vote ∈ votes.flatten.filterMap id ↔ ∃ cast ∈ votes, some vote ∈ cast := by
      simp only [List.mem_filterMap, List.mem_flatten, id_eq, exists_eq_right]
    rw [hmem, mapM_exists hvotes hread]
    constructor
    · -- the place in the list is the ordinal that the vote carries
      rintro ⟨⟨tile, tileOrdinal⟩, hentry, cast, hcast, hvote⟩
      rw [List.mem_zipIdx_iff_getElem?] at hentry
      obtain ⟨-, hordinal⟩ := tileVotesV3_provenance hcast hvote
      obtain rfl : vote.tileOrdinal = tileOrdinal := hordinal
      exact ⟨tiles, tile, cast, htiles, hentry, hcast, hvote⟩
    · rintro ⟨tiles', tile, cast, htiles', htile, hcast, hvote⟩
      obtain rfl := Except.ok.inj (htiles.symm.trans htiles')
      exact ⟨(tile, vote.tileOrdinal), List.mem_zipIdx_iff_getElem?.mpr htile, cast, hcast, hvote⟩

/-- The votes a profile finds are those its tiles cast. -/
theorem examineProfileV3_votes {findings : SearchFindings}
    (h : examineProfileV3 tools page key pageIndex canonicalShape orbTemplate profile =
      .ok findings) (vote : PayloadVoteV3) :
    vote ∈ findings.votes ↔ CastsV3 tools page key pageIndex canonicalShape orbTemplate profile
      vote.tileOrdinal vote := by
  simp only [examineProfileV3, bind_eq_ok, pure_eq_ok] at h
  obtain ⟨search, hsearch, candidate, hcandidate, votes, hvotes, rfl⟩ := h
  rw [List.mem_flatten, mapM_exists hvotes fun hypothesis found hfound ↦
    mem_hypothesisVotes hfound vote]
  constructor
  · rintro ⟨hypothesis, hmem, tiles, tile, cast, htiles, htile, hcast, hvote⟩
    exact ⟨search, hypothesis, candidate, tiles, tile, cast, hsearch, hmem, hcandidate, htiles,
      htile, hcast, hvote⟩
  · rintro ⟨search', hypothesis, candidate', tiles, tile, cast, hsearch', hmem, hcandidate', htiles,
      htile, hcast, hvote⟩
    rw [hsearch] at hsearch'
    cases hsearch'
    rw [hcandidate] at hcandidate'
    cases hcandidate'
    exact ⟨hypothesis, hmem, tiles, tile, cast, htiles, htile, hcast, hvote⟩

theorem CastsV3.provenance {tileOrdinal : Nat} {vote : PayloadVoteV3}
    (h : CastsV3 tools page key pageIndex canonicalShape orbTemplate profile tileOrdinal vote) :
    vote.tileOrdinal = tileOrdinal ∧ ∃ candidate, profile.candidate tools.packReal = .ok candidate ∧
      vote.candidateId = candidate.identifier := by
  obtain ⟨_, _, candidate, _, _, _, -, -, hcandidate, -, -, hvotes, hvote⟩ := h.cast
  obtain ⟨hidentifier, hordinal⟩ := tileVotesV3_provenance hvotes hvote
  exact ⟨hordinal, candidate, hcandidate, hidentifier⟩

end Cast

/-! ## 3. What a decision rests on -/

/-- A profile that repeats the payload has a quorum only where the strongest one has. -/
theorem exists_strongest_enough {profiles : List FingerprintV3Profile}
    (hprofiles : ValidatedProfilesV3 profiles)
    (hrepeated : ∀ profile ∈ profiles, 2 ≤ profile.payloadRepetitions)
    {ballots : List TileBallot} {issuanceId : UUID} {profile : FingerprintV3Profile}
    (hprofile : profile ∈ profiles)
    (henough : EnoughTiles (places ballots profile.identifier issuanceId)
      profile.payloadRepetitions) :
    ∃ best ∈ profiles, (∀ other ∈ profiles,
        strength (repetitionsOfV3 profiles) ballots other.identifier issuanceId ≤
          strength (repetitionsOfV3 profiles) ballots best.identifier issuanceId) ∧
      EnoughTiles (places ballots best.identifier issuanceId) best.payloadRepetitions := by
  obtain ⟨best, hbest, hgreatest⟩ := profiles.toFinset.exists_max_image
    (fun profile ↦ strength (repetitionsOfV3 profiles) ballots profile.identifier issuanceId)
    ⟨profile, List.mem_toFinset.mpr hprofile⟩
  rw [List.mem_toFinset] at hbest
  have hge : ∀ other ∈ profiles, strength (repetitionsOfV3 profiles) ballots other.identifier
      issuanceId ≤ strength (repetitionsOfV3 profiles) ballots best.identifier issuanceId :=
    fun other hother ↦ hgreatest other (List.mem_toFinset.mpr hother)
  have hshare : ((places ballots profile.identifier issuanceId).card : ℚ) /
      profile.payloadRepetitions ≤ (places ballots best.identifier issuanceId).card /
        best.payloadRepetitions := by
    have hle := hge profile hprofile
    rw [strength, strength, hprofiles.repetitionsOf_eq hprofile,
      hprofiles.repetitionsOf_eq hbest, Prod.Lex.toLex_le_toLex] at hle
    exact hle.elim le_of_lt fun h ↦ h.1.le
  have hpos : (0 : ℚ) < profile.payloadRepetitions :=
    Nat.cast_pos.mpr (hprofiles.repeated profile hprofile)
  have htwo : (2 : ℚ) ≤ best.payloadRepetitions := by exact_mod_cast hrepeated best hbest
  have hquorum : candidateSupportThreshold * best.payloadRepetitions ≤
      (places ballots best.identifier issuanceId).card := by
    rw [← le_div_iff₀ (by linarith)]
    exact ((le_div_iff₀ hpos).mpr henough.2).trans hshare
  refine ⟨best, hbest, hge, ?_, hquorum⟩
  -- three fifths of two repetitions are more than one
  have hmore : (1 : ℚ) < (places ballots best.identifier issuanceId).card := by
    unfold candidateSupportThreshold at hquorum
    linarith
  have hmore' : 1 < (places ballots best.identifier issuanceId).card := by exact_mod_cast hmore
  exact hmore'

theorem decidePayloadVotesV3_id {votes : List PayloadVoteV3} {profiles : List FingerprintV3Profile}
    {geometryConfidence : ℚ} {decision : DecodeV3Decision} {issuanceId : UUID}
    (h : decidePayloadVotesV3 votes profiles geometryConfidence = .ok decision)
    (hid : decision.issuanceId = some issuanceId) : decision.status = .decoded := by
  obtain ⟨decided, hdecided, hverdict⟩ :=
    decidePayloadVotesV3_verdict votes profiles geometryConfidence
  obtain rfl : decision = decided := Except.ok.inj (h.symm.trans hdecided)
  generalize hgiven : decision.verdict = verdict at hverdict
  have hname := hid.symm.trans (congrArg Verdict.issuanceId hgiven)
  cases hverdict with
  | undetected _ => cases hname
  | conflicting _ _ => cases hname
  | weak _ _ _ => cases hname
  | decoded _ _ _ => exact congrArg Verdict.status hgiven

section Decision

variable {K : Type} [Field K] [LinearOrder K]

/-- What the checks of the profiles have found. -/
theorem validateProfilesV3_eq_ok {packReal : K → List UInt8} {candidatesSha256 : List UInt8}
    {profiles : List (SpreadProfile K)} {candidates : List FingerprintV3Profile}
    (h : validateProfilesV3 packReal candidatesSha256 profiles = .ok candidates) :
    profiles.mapM (·.candidate packReal) = .ok candidates ∧
      (candidates.map (·.identifier)).Nodup ∧
      ∀ profile ∈ profiles, profile ∈ loadV3Profiles candidatesSha256 := by
  simp only [validateProfilesV3, bind_eq_ok, exists_unit, raiseIf_eq_ok, not_not, pure_eq_ok] at h
  obtain ⟨-, -, hcanonical, candidates', hcandidates, hnodup, rfl⟩ := h
  refine ⟨hcandidates, hnodup, fun profile hprofile ↦ ?_⟩
  have hmem := forM_ok hcanonical profile hprofile
  simp only [validateCanonicalProfileV3, bind_eq_ok, raiseIf_eq_ok, not_not] at hmem
  obtain ⟨_, -, hmem⟩ := hmem
  exact hmem

/-- Candidates of one name are of one profile. -/
theorem candidateV3_injOn {packReal : K → List UInt8} {profiles : List (SpreadProfile K)}
    {candidates : List FingerprintV3Profile}
    (h : profiles.mapM (·.candidate packReal) = .ok candidates)
    (hnodup : (candidates.map (·.identifier)).Nodup) {profile other : SpreadProfile K}
    {candidate candidate' : FingerprintV3Profile} (hprofile : profile ∈ profiles)
    (hother : other ∈ profiles) (hcandidate : profile.candidate packReal = .ok candidate)
    (hcandidate' : other.candidate packReal = .ok candidate')
    (hsame : candidate.identifier = candidate'.identifier) : profile = other := by
  have hread : ∀ profile ∈ profiles, ∀ candidate : FingerprintV3Profile,
      profile.candidate packReal = .ok candidate → some candidate.identifier =
        ((profile.candidate packReal).toOption.map (·.identifier)) := by
    intro profile _ candidate hcandidate
    rw [hcandidate]
    rfl
  -- the names of the candidates are distinct, and they are the names of the profiles
  have hnames := mapM_map_eq h hread
  have hdistinct := hnodup.map (Option.some_injective _)
  rw [List.map_map] at hdistinct
  replace hdistinct : (candidates.map fun candidate ↦ some candidate.identifier).Nodup := hdistinct
  rw [hnames] at hdistinct
  refine List.inj_on_of_nodup_map hdistinct hprofile hother ?_
  rw [hcandidate, hcandidate']
  exact congrArg some hsame

theorem candidate_repetitions {packReal : K → List UInt8} {profile : SpreadProfile K}
    {candidate : FingerprintV3Profile} (h : profile.candidate packReal = .ok candidate) :
    candidate.payloadRepetitions = profile.payloadRepetitions.toNat := by
  simp only [SpreadProfile.candidate, bind_eq_ok, pure_eq_ok] at h
  obtain ⟨_, -, rfl⟩ := h
  rfl

/-- The candidates are those of the profiles, and repeat the payload. -/
theorem validatedProfilesV3 {profiles : List (SpreadProfile K)}
    {candidates : List FingerprintV3Profile} {packReal : K → List UInt8}
    {candidatesSha256 : List UInt8}
    (h : validateProfilesV3 packReal candidatesSha256 profiles = .ok candidates) :
    (∀ candidate, candidate ∈ candidates ↔
        ∃ profile ∈ profiles, profile.candidate packReal = .ok candidate) ∧
      ValidatedProfilesV3 candidates ∧
      ∀ candidate ∈ candidates, 2 ≤ candidate.payloadRepetitions := by
  obtain ⟨hcandidates, hnodup, hgrid⟩ := validateProfilesV3_eq_ok h
  have hmem : ∀ candidate, candidate ∈ candidates ↔
      ∃ profile ∈ profiles, profile.candidate packReal = .ok candidate :=
    fun candidate ↦ mem_mapM_iff hcandidates
  have hrepeated : ∀ candidate ∈ candidates, 3 ≤ candidate.payloadRepetitions := by
    intro candidate hcandidate
    obtain ⟨profile, hprofile, hcandidate⟩ := (hmem candidate).mp hcandidate
    have hrepetitions := repetitions_of_mem_v3 (hgrid profile hprofile)
    rw [candidate_repetitions hcandidate]
    omega
  refine ⟨hmem, ⟨hnodup, fun candidate hcandidate ↦ ?_⟩, fun candidate hcandidate ↦ ?_⟩
  · have hthree := hrepeated candidate hcandidate
    omega
  · have hthree := hrepeated candidate hcandidate
    omega

variable [FloorRing K] {tools : DecodingToolsV3 K} {page : Image Bgr} {key : List UInt8}
  {pageIndex : Int} {canonicalShape : Int × Int} {orbTemplate : Option OrbTemplate}
  {profiles : List (SpreadProfile K)}

theorem decodePageFingerprintV3_eq_ok {decision : DecodeV3Decision}
    (h : decodePageFingerprintV3 tools page key pageIndex canonicalShape profiles orbTemplate =
      .ok decision) :
    ∃ candidates findings,
      validateProfilesV3 tools.packReal tools.candidatesSha256 profiles = .ok candidates ∧
      profiles.mapM (examineProfileV3 tools page key pageIndex canonicalShape orbTemplate) =
        .ok findings ∧
      (findings.flatMap (·.scores) = [] ∧ decision.issuanceId = none ∨
        ∃ geometryConfidence, decidePayloadVotesV3 (findings.flatMap (·.votes)) candidates
          geometryConfidence = .ok decision) := by
  simp only [decodePageFingerprintV3, bind_eq_ok, exists_unit] at h
  obtain ⟨-, -, -, candidates, hcandidates, -, findings, hfindings, h⟩ := h
  refine ⟨candidates, findings, hcandidates, hfindings, ?_⟩
  split at h
  · rename_i hscores
    rw [pure_eq_ok] at h
    subst h
    exact .inl ⟨hscores, rfl⟩
  · exact .inr ⟨_, mapError_eq_ok.mp h⟩

/-- Votes of the page: a tile of some profile casts them. -/
theorem mem_votes_v3_iff {findings : List SearchFindings}
    (h : profiles.mapM (examineProfileV3 tools page key pageIndex canonicalShape orbTemplate) =
      .ok findings) (vote : PayloadVoteV3) :
    vote ∈ findings.flatMap (·.votes) ↔ ∃ profile ∈ profiles,
      CastsV3 tools page key pageIndex canonicalShape orbTemplate profile vote.tileOrdinal
        vote := by
  rw [List.mem_flatMap]
  exact mapM_exists h fun profile found hfound ↦ examineProfileV3_votes hfound vote

/-- Without a canvas there is no vote. -/
theorem votes_eq_nil_of_scores {findings : List SearchFindings}
    (h : profiles.mapM (examineProfileV3 tools page key pageIndex canonicalShape orbTemplate) =
      .ok findings) (hscores : findings.flatMap (·.scores) = []) :
    ∀ vote, vote ∉ findings.flatMap (·.votes) := by
  intro vote hvote
  obtain ⟨profile, hprofile, hcast⟩ := (mem_votes_v3_iff h vote).mp hvote
  obtain ⟨search, hypothesis, _, _, _, _, hsearch, hmem, -⟩ := hcast.cast
  have hscored : ∀ profile found,
      examineProfileV3 tools page key pageIndex canonicalShape orbTemplate profile = .ok found →
        (hypothesis.score ∈ found.scores ↔ ∃ search, searchGeometryV3 tools.toGeometryTools page key
          pageIndex canonicalShape profile orbTemplate = .ok search ∧
            hypothesis.score ∈ search.hypotheses.map (·.score)) := by
    intro profile found hfound
    simp only [examineProfileV3, bind_eq_ok, pure_eq_ok] at hfound
    obtain ⟨search, hsearch, candidate, -, votes, -, rfl⟩ := hfound
    simp only [hsearch, Except.ok.injEq, exists_eq_left']
  obtain ⟨found, hfound, hscore⟩ := (mapM_exists h hscored).mpr
    ⟨profile, hprofile, search, hsearch, List.mem_map_of_mem hmem⟩
  have hany := List.mem_flatMap.mpr ⟨found, hfound, hscore⟩
  rw [hscores] at hany
  exact List.not_mem_nil hany

/-- Some codec names the issuance from a tile of the profile. -/
def NamesV3 (tools : DecodingToolsV3 K) (page : Image Bgr) (key : List UInt8) (pageIndex : Int)
    (canonicalShape : Int × Int) (orbTemplate : Option OrbTemplate) (profile : SpreadProfile K)
    (issuanceId : UUID) (tileOrdinal : Nat) : Prop :=
  ∃ vote, CastsV3 tools page key pageIndex canonicalShape orbTemplate profile tileOrdinal vote ∧
    vote.issuanceId = issuanceId

theorem mem_places_v3 {candidates : List FingerprintV3Profile} {findings : List SearchFindings}
    (hcandidates : profiles.mapM (·.candidate tools.packReal) = .ok candidates)
    (hnodup : (candidates.map (·.identifier)).Nodup)
    (h : profiles.mapM (examineProfileV3 tools page key pageIndex canonicalShape orbTemplate) =
      .ok findings) {profile : SpreadProfile K} {candidate : FingerprintV3Profile}
    (hprofile : profile ∈ profiles) (hcandidate : profile.candidate tools.packReal = .ok candidate)
    (issuanceId : UUID) (tileOrdinal : Nat) :
    tileOrdinal ∈ places ((findings.flatMap (·.votes)).map (·.ballot)) candidate.identifier
        issuanceId ↔
      NamesV3 tools page key pageIndex canonicalShape orbTemplate profile issuanceId
        tileOrdinal := by
  rw [mem_places, List.mem_map]
  constructor
  · rintro ⟨vote, hvote, hballot⟩
    obtain ⟨other, hother, hcast⟩ := (mem_votes_v3_iff h vote).mp hvote
    obtain ⟨-, candidate', hcandidate', hidentifier⟩ := hcast.provenance
    have hname : vote.candidateId = candidate.identifier := congrArg Ballot.candidate hballot
    have hplace : vote.tileOrdinal = tileOrdinal := congrArg Ballot.place hballot
    obtain rfl := candidateV3_injOn hcandidates hnodup hother hprofile hcandidate' hcandidate
      (hidentifier.symm.trans hname)
    rw [hplace] at hcast
    exact ⟨vote, hcast, congrArg Ballot.choice hballot⟩
  · rintro ⟨vote, hcast, rfl⟩
    obtain ⟨hordinal, candidate', hcandidate', hidentifier⟩ := hcast.provenance
    rw [hcandidate] at hcandidate'
    cases hcandidate'
    refine ⟨vote, (mem_votes_v3_iff h vote).mpr ⟨profile, hprofile, ?_⟩, ?_⟩
    · rw [hordinal]
      exact hcast
    · unfold PayloadVoteV3.ballot
      rw [hidentifier, hordinal]

/-- Every vote is under the name of a candidate. -/
theorem votes_candidates {candidates : List FingerprintV3Profile} {findings : List SearchFindings}
    (hmem : ∀ candidate, candidate ∈ candidates ↔
      ∃ profile ∈ profiles, profile.candidate tools.packReal = .ok candidate)
    (h : profiles.mapM (examineProfileV3 tools page key pageIndex canonicalShape orbTemplate) =
      .ok findings) :
    ∀ vote ∈ findings.flatMap (·.votes), ∃ candidate ∈ candidates,
      candidate.identifier = vote.candidateId := by
  intro vote hvote
  obtain ⟨profile, hprofile, hcast⟩ := (mem_votes_v3_iff h vote).mp hvote
  obtain ⟨-, candidate, hcandidate, hidentifier⟩ := hcast.provenance
  exact ⟨candidate, (hmem candidate).mpr ⟨profile, hprofile, hcandidate⟩, hidentifier.symm⟩

/-- The inputs pass their checks, and no profile raises. -/
structure ReadableV3 (tools : DecodingToolsV3 K) (page : Image Bgr) (key : List UInt8)
    (pageIndex : Int) (canonicalShape : Int × Int) (profiles : List (SpreadProfile K))
    (orbTemplate : Option OrbTemplate) : Prop where
  keyed : validateFingerprintKey key = .ok ()
  indexed : validateFingerprintIndex pageIndex = .ok ()
  shaped : validateCanonicalShape canonicalShape = .ok ()
  validated : ∃ candidates,
    validateProfilesV3 tools.packReal tools.candidatesSha256 profiles = .ok candidates
  paged : validatePage page = .ok ()
  examined : ∀ profile ∈ profiles, ∃ findings,
    examineProfileV3 tools page key pageIndex canonicalShape orbTemplate profile = .ok findings

theorem readableV3_iff :
    ReadableV3 tools page key pageIndex canonicalShape profiles orbTemplate ↔
      ∃ decision, decodePageFingerprintV3 tools page key pageIndex canonicalShape profiles
        orbTemplate = .ok decision := by
  constructor
  · intro h
    obtain ⟨candidates, hcandidates⟩ := h.validated
    obtain ⟨findings, hfindings⟩ := mapM_total h.examined
    unfold decodePageFingerprintV3
    rw [h.keyed, ok_bind, h.indexed, ok_bind, h.shaped, ok_bind, hcandidates, ok_bind, h.paged,
      ok_bind, hfindings, ok_bind]
    dsimp only
    split
    · exact ⟨_, rfl⟩
    · -- counting the votes never raises
      obtain ⟨decision, hdecision, -⟩ := decidePayloadVotesV3_verdict
        (findings.flatMap (·.votes)) candidates
        (bestGeometryConfidence ((findings.flatMap (·.scores)).map some))
      exact ⟨decision, mapError_eq_ok.mpr hdecision⟩
  · rintro ⟨decision, h⟩
    simp only [decodePageFingerprintV3, bind_eq_ok, exists_unit] at h
    obtain ⟨hkey, hindex, hshape, candidates, hcandidates, hpage, findings, hfindings, -⟩ := h
    exact ⟨hkey, hindex, hshape, ⟨candidates, hcandidates⟩, hpage,
      fun profile hprofile ↦ mapM_ok_of_mem hfindings hprofile⟩

/-- **What a V3 attribution rests on.**  A page names an issuance exactly when it can be read, no
tile votes for another issuance, on whichever canvas and by whichever codec, and some profile has
two distinct tiles or more, at least 0.60 of its repetitions, that name it. -/
theorem page_attribution_grounds_v3 (issuanceId : UUID) :
    (∃ decision, decodePageFingerprintV3 tools page key pageIndex canonicalShape profiles
        orbTemplate = .ok decision ∧ decision.issuanceId = some issuanceId) ↔
      ReadableV3 tools page key pageIndex canonicalShape profiles orbTemplate ∧
      (∀ profile ∈ profiles, ∀ tileOrdinal vote,
        CastsV3 tools page key pageIndex canonicalShape orbTemplate profile tileOrdinal vote →
          vote.issuanceId = issuanceId) ∧
      ∃ profile ∈ profiles, ∃ naming : Finset Nat,
        EnoughTiles naming profile.payloadRepetitions.toNat ∧ ∀ tileOrdinal ∈ naming,
          NamesV3 tools page key pageIndex canonicalShape orbTemplate profile issuanceId
            tileOrdinal := by
  rw [readableV3_iff]
  constructor
  · rintro ⟨decision, h, hid⟩
    refine ⟨⟨decision, h⟩, ?_⟩
    obtain ⟨candidates, findings, hvalid, hfindings, hdecision⟩ := decodePageFingerprintV3_eq_ok h
    obtain ⟨hcandidates, hnodup, -⟩ := validateProfilesV3_eq_ok hvalid
    obtain ⟨hmem, hvalidated, -⟩ := validatedProfilesV3 hvalid
    rcases hdecision with ⟨-, hnone⟩ | ⟨geometryConfidence, hdecision⟩
    · -- without a canvas no id is named
      rw [hnone] at hid
      cases hid
    obtain ⟨hsame, candidate, hcandidate, -, henough⟩ :=
      (decidePayloadVotesV3_decoded_iff hvalidated (votes_candidates hmem hfindings)
        geometryConfidence issuanceId).mp
        ⟨decision, hdecision, decidePayloadVotesV3_id hdecision hid, hid⟩
    obtain ⟨profile, hprofile, hcandidate⟩ := (hmem candidate).mp hcandidate
    refine ⟨fun other hother tileOrdinal vote hcast ↦ ?_, profile, hprofile, _,
      candidate_repetitions hcandidate ▸ henough, fun tileOrdinal hplace ↦ ?_⟩
    · obtain ⟨hordinal, -⟩ := hcast.provenance
      rw [← hordinal] at hcast
      exact hsame vote ((mem_votes_v3_iff hfindings vote).mpr ⟨other, hother, hcast⟩)
    · exact (mem_places_v3 hcandidates hnodup hfindings hprofile hcandidate issuanceId
        tileOrdinal).mp hplace
  · rintro ⟨⟨decision, h⟩, hsame, profile, hprofile, naming, henough, hnaming⟩
    refine ⟨decision, h, ?_⟩
    obtain ⟨candidates, findings, hvalid, hfindings, hdecision⟩ := decodePageFingerprintV3_eq_ok h
    obtain ⟨hcandidates, hnodup, -⟩ := validateProfilesV3_eq_ok hvalid
    obtain ⟨hmem, hvalidated, hrepeated⟩ := validatedProfilesV3 hvalid
    have hvotes : ∀ vote ∈ findings.flatMap (·.votes), vote.issuanceId = issuanceId := by
      intro vote hvote
      obtain ⟨other, hother, hcast⟩ := (mem_votes_v3_iff hfindings vote).mp hvote
      exact hsame other hother vote.tileOrdinal vote hcast
    -- one tile that names the id shows that a canvas was found, so the votes are counted
    obtain ⟨tileOrdinal, htile⟩ : naming.Nonempty :=
      Finset.card_pos.mp (lt_of_lt_of_le two_pos henough.1)
    obtain ⟨vote, hcast, -⟩ := hnaming tileOrdinal htile
    obtain ⟨hordinal, candidate, hcandidate, -⟩ := hcast.provenance
    rcases hdecision with ⟨hscores, -⟩ | ⟨geometryConfidence, hdecision⟩
    · rw [← hordinal] at hcast
      exact absurd ((mem_votes_v3_iff hfindings vote).mpr ⟨profile, hprofile, hcast⟩)
        (votes_eq_nil_of_scores hfindings hscores vote)
    -- a tile counts once, whichever canvas and codec read it
    have hplaces : EnoughTiles (places ((findings.flatMap (·.votes)).map (·.ballot))
        candidate.identifier issuanceId) candidate.payloadRepetitions := by
      rw [candidate_repetitions hcandidate]
      exact henough.mono fun tileOrdinal hplace ↦ (mem_places_v3 hcandidates hnodup hfindings
        hprofile hcandidate issuanceId tileOrdinal).mpr (hnaming tileOrdinal hplace)
    obtain ⟨decided, hdecided, -, hid⟩ :=
      (decidePayloadVotesV3_decoded_iff hvalidated (votes_candidates hmem hfindings)
        geometryConfidence issuanceId).mpr ⟨hvotes, exists_strongest_enough hvalidated hrepeated
          ((hmem candidate).mpr ⟨profile, hprofile, hcandidate⟩) hplaces⟩
    rw [hdecision] at hdecided
    cases hdecided
    exact hid

end Decision

/-- An orthonormal transform, a shuffle that keeps the order, and a pilot that finds nothing. -/
noncomputable def orthonormalToolsV3 : DecodingToolsV3 ℝ where
  numerics := orthonormalNumerics
  keyed := ⟨fun _ _ _ values ↦ values, fun _ _ _ _ ↦ List.Perm.refl _⟩
  hmac := zeroHmac
  library := fun _ ↦ sampleLibrary
  packReal := fun _ ↦ List.replicate 8 0
  pilotSpatial := fun _ _ _ _ _ _ ↦ 0
  toFrameTools := nearestTools
  pilotHypotheses := fun _ _ _ _ _ ↦ .ok []
  orbHypothesis := fun _ _ ↦ .ok none
  geometryIsAcceptable := fun _ _ _ ↦ .ok true
  warpPerspective := fun page _ _ ↦ .ok page
  contractSha256 := List.replicate 32 0
  candidatesSha256 := List.replicate 32 0
  float := fun value ↦ ⌊value⌋

/-- With these tools, as with any, a page is decoded for one profile at least. -/
example : decodePageFingerprintV3 orthonormalToolsV3 framedPage [1] 0 (8, 8) [] none =
    .error (.value "profiles must contain at least one V3 candidate") := rfl

end Splitbind
