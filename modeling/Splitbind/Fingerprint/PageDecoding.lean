import Splitbind.Fingerprint.Attribution
import Splitbind.Fingerprint.PageAlignment

/-!
# Page decoding — from a received page to a decision

Each profile aligns the page for itself, derives its tiles on the canvas and lets the first of them
vote.  What the profiles find is all that the decision rests on: a page is decided like the canvas
that shows these findings.
-/

namespace Splitbind

open Transaction Quorum

/-! ## 1. Decoding -/

/-- What decoding a page calls. -/
structure DecodingTools (K : Type) [Field K] extends PageTools K, AlignmentTools K

/-- What one profile contributes: its score, whether it aligned the page or rejected its geometry,
and what its tiles voted. -/
structure ProfileFindings where
  pilotScore : Option ℚ
  aligned : Bool
  geometryRejected : Bool
  tileVotes : List (Option PayloadVoteV2)

def ProfileFindings.votes (findings : ProfileFindings) : List PayloadVoteV2 :=
  findings.tileVotes.filterMap id

section Decode

variable {K : Type} [Field K] [LinearOrder K] [FloorRing K] (tools : DecodingTools K)

/-- `_validate_canonical_shape`. -/
def validateCanonicalShape (canonicalShape : Int × Int) : Except PageError Unit := do
  raiseIf (canonicalShape.1 ≤ 0 ∨ canonicalShape.2 ≤ 0)
    (.value "canonical_shape must contain positive (height, width) integers")
  raiseIf (40000000 < canonicalShape.1 * canonicalShape.2)
    (.value "canonical_shape exceeds the 40-megapixel processing ceiling")

/-- `_validate_profiles`. -/
def validateProfiles (profiles : List (GridProfileV2 K)) : Except PageError Unit := do
  raiseIf (profiles = []) (.value "profiles must contain at least one V2 candidate")
  raiseIf (16 < profiles.length) (.value "profiles must contain at most 16 V2 candidates")
  profiles.forM (validateCanonicalProfile tools.contractSha256)
  raiseIf (¬ (profiles.map (·.identifier tools.packReal)).Nodup)
    (.value "profiles contain a duplicate candidate identifier")

/-- The evidence of one tile, and its vote. -/
def tileVote (luminance : Image K) (key : List UInt8) (pageIndex : Int) (profile : GridProfileV2 K)
    (tile : Tile) (tileOrdinal : Nat) : Except PageError (Option PayloadVoteV2) := do
  let evidence ← (extractCodewordV2 tools.numerics tools.keyed (luminance.crop tile) key pageIndex
    profile.codec).mapError .codec
  (decodePayloadVote tools.library evidence (profile.candidate tools.packReal).identifier
    tileOrdinal).mapError .attempt

/-- The votes of the first `payload_repetitions` tiles of a canvas. -/
def canvasVotes (image : Image Bgr) (key : List UInt8) (pageIndex : Int)
    (profile : GridProfileV2 K) (tiles : List Tile) :
    Except PageError (List (Option PayloadVoteV2)) :=
  (tiles.take profile.payloadRepetitions).zipIdx.mapM fun (tile, tileOrdinal) ↦
    tileVote tools (luminance image) key pageIndex profile tile tileOrdinal

/-- What an aligned canvas contributes; a canvas that is too small for the tiles is no evidence. -/
def canvasFindings (image : Image Bgr) (pilotScore : Option ℚ) (key : List UInt8) (pageIndex : Int)
    (profile : GridProfileV2 K) : Except PageError ProfileFindings :=
  match deriveTilesV2 tools.hmac (image.height, image.width) key pageIndex
      (profile.layout tools.packReal) with
  | .error (.value _) => .ok ⟨pilotScore, true, false, []⟩
  | .error error => .error (.layout error)
  | .ok tiles => do
    let votes ← canvasVotes tools image key pageIndex profile tiles
    return ⟨pilotScore, true, false, votes⟩

/-- One turn of the loop over the profiles. -/
def examineProfile (page : Image Bgr) (key : List UInt8) (pageIndex : Int)
    (canonicalShape : Int × Int) (profile : GridProfileV2 K) : Except PageError ProfileFindings := do
  let alignment ← alignPageV2 tools.toAlignmentTools page key pageIndex profile canonicalShape none
  if alignment.reason = .geometryRejected then
    return ⟨alignment.pilotScore, false, true, []⟩
  else
    match alignment.reason, alignment.image with
    | .aligned, some image => canvasFindings tools image alignment.pilotScore key pageIndex profile
    | _, _ => return ⟨alignment.pilotScore, false, false, []⟩

/-- `decode_fingerprint_v2`, of a page. -/
def decodePageFingerprintV2 (page : Image Bgr) (key : List UInt8) (pageIndex : Int)
    (canonicalShape : Int × Int) (profiles : List (GridProfileV2 K)) :
    Except PageError DecodeV2Decision := do
  validateFingerprintKey key
  validateFingerprintIndex pageIndex
  validateCanonicalShape canonicalShape
  validateProfiles tools profiles
  validatePage page
  let findings ← profiles.mapM (examineProfile tools page key pageIndex canonicalShape)
  let geometryConfidence := bestGeometryConfidence (findings.map (·.pilotScore))
  if findings.any (·.aligned) then
    (decidePayloadVotes (findings.flatMap (·.votes))
      (profiles.map (·.candidate tools.packReal)) geometryConfidence).mapError .decision
  else if findings.any (·.geometryRejected) then
    return ⟨none, geometryConfidence, 0, none, .geometryRejected⟩
  else return ⟨none, geometryConfidence, 0, none, .insufficientSyncEvidence⟩

end Decode

/-! ## 2. Who voted -/

section Cast

variable {K : Type} [Field K] [LinearOrder K] [FloorRing K] {tools : DecodingTools K}
  {page canvas : Image Bgr} {key : List UInt8} {pageIndex : Int} {canonicalShape : Int × Int}
  {profile : GridProfileV2 K} {profiles : List (GridProfileV2 K)}

/-- A tile votes under the name and the place it has. -/
theorem tileVote_eq_some {luminance : Image K} {tile : Tile} {tileOrdinal : Nat}
    {vote : PayloadVoteV2}
    (h : tileVote tools luminance key pageIndex profile tile tileOrdinal = .ok (some vote)) :
    vote.candidateId = (profile.candidate tools.packReal).identifier ∧
      vote.tileOrdinal = tileOrdinal ∧ vote.bitErrorRate.isSome = true := by
  simp only [tileVote, bind_eq_ok, mapError_eq_ok] at h
  obtain ⟨evidence, -, h⟩ := h
  unfold decodePayloadVote voteUnder at h
  rw [bind_eq_ok] at h
  obtain ⟨decoded, -, h⟩ := h
  cases decoded with
  | none => cases h
  | some decoded =>
    simp only [bind_eq_ok, pure_eq_ok] at h
    obtain ⟨expected, -, h⟩ := h
    cases h
    exact ⟨rfl, rfl, rfl⟩

/-- A tile of a canvas and what it votes. -/
structure TileVotes (tools : DecodingTools K) (page : Image Bgr) (key : List UInt8)
    (pageIndex : Int) (canonicalShape : Int × Int) (profile : GridProfileV2 K) (tileOrdinal : Nat)
    (vote : Option PayloadVoteV2) : Prop where
  intro ::
  cast : ∃ canvas tiles tile,
    AlignsTo tools.toAlignmentTools page key pageIndex profile canonicalShape canvas ∧
    deriveTilesV2 tools.hmac (canvas.height, canvas.width) key pageIndex
      (profile.layout tools.packReal) = .ok tiles ∧
    (tiles.take profile.payloadRepetitions)[tileOrdinal]? = some tile ∧
    tileVote tools (luminance canvas) key pageIndex profile tile tileOrdinal = .ok vote

theorem TileVotes.unique {tileOrdinal : Nat} {vote vote' : Option PayloadVoteV2}
    (h : TileVotes tools page key pageIndex canonicalShape profile tileOrdinal vote)
    (h' : TileVotes tools page key pageIndex canonicalShape profile tileOrdinal vote') :
    vote = vote' := by
  obtain ⟨canvas, tiles, tile, halign, htiles, htile, hvote⟩ := h.cast
  obtain ⟨canvas', tiles', tile', halign', htiles', htile', hvote'⟩ := h'.cast
  obtain rfl := halign.unique halign'
  rw [htiles] at htiles'
  cases htiles'
  rw [htile] at htile'
  cases htile'
  rw [hvote] at hvote'
  cases hvote'
  rfl

theorem canvasVotes_getElem? {tiles : List Tile} {votes : List (Option PayloadVoteV2)}
    (h : canvasVotes tools canvas key pageIndex profile tiles = .ok votes) (tileOrdinal : Nat)
    (vote : Option PayloadVoteV2) :
    votes[tileOrdinal]? = some vote ↔
      ∃ tile, (tiles.take profile.payloadRepetitions)[tileOrdinal]? = some tile ∧
        tileVote tools (luminance canvas) key pageIndex profile tile tileOrdinal = .ok vote := by
  have hforall := mapM_forall₂ h
  have hlength := hforall.length_eq
  rw [List.length_zipIdx] at hlength
  have hcast : ∀ i (hi : i < (tiles.take profile.payloadRepetitions).length) (hi' : i < votes.length),
      tileVote tools (luminance canvas) key pageIndex profile
        (tiles.take profile.payloadRepetitions)[i] i = .ok votes[i] := by
    intro i hi hi'
    have hget := hforall.get (i := i) (by rwa [List.length_zipIdx]) hi'
    simpa using hget
  constructor
  · intro hvote
    obtain ⟨hlt, rfl⟩ := List.getElem?_eq_some_iff.mp hvote
    have hlt' : tileOrdinal < (tiles.take profile.payloadRepetitions).length := by omega
    exact ⟨_, List.getElem?_eq_getElem hlt', hcast tileOrdinal hlt' hlt⟩
  · rintro ⟨tile, htile, hvote⟩
    obtain ⟨hlt, rfl⟩ := List.getElem?_eq_some_iff.mp htile
    have hlt' : tileOrdinal < votes.length := by omega
    rw [hcast tileOrdinal hlt hlt'] at hvote
    cases hvote
    exact List.getElem?_eq_getElem hlt'

/-- What a profile finds: its canvas, or none. -/
theorem examineProfile_cases {findings : ProfileFindings}
    (h : examineProfile tools page key pageIndex canonicalShape profile = .ok findings) :
    (∃ canvas, AlignsTo tools.toAlignmentTools page key pageIndex profile canonicalShape canvas ∧
        canvasFindings tools canvas findings.pilotScore key pageIndex profile = .ok findings) ∨
      (∀ canvas, ¬ AlignsTo tools.toAlignmentTools page key pageIndex profile canonicalShape canvas) ∧
        findings.aligned = false ∧ findings.tileVotes = [] := by
  simp only [examineProfile, bind_eq_ok] at h
  obtain ⟨alignment, halign, h⟩ := h
  have hnone : (∀ image, alignment.reason = .aligned → alignment.image ≠ some image) →
      ∀ canvas, ¬ AlignsTo tools.toAlignmentTools page key pageIndex profile canonicalShape
        canvas := by
    rintro hnot canvas ⟨result, hresult, hreason, himage⟩
    rw [halign] at hresult
    cases hresult
    exact hnot canvas hreason himage
  split at h
  · rename_i hrejected
    cases h
    refine .inr ⟨hnone fun image haligned ↦ ?_, rfl, rfl⟩
    rw [hrejected] at haligned
    cases haligned
  · split at h
    · rename_i image hreason himage
      refine .inl ⟨image, ⟨alignment, halign, hreason, himage⟩, ?_⟩
      have hscore : findings.pilotScore = alignment.pilotScore := by
        unfold canvasFindings at h
        split at h
        · cases h
          rfl
        · cases h
        · simp only [bind_eq_ok, pure_eq_ok] at h
          obtain ⟨votes, -, rfl⟩ := h
          rfl
      rw [hscore]
      exact h
    · rename_i hother
      cases h
      refine .inr ⟨hnone fun image haligned himage ↦ ?_, rfl, rfl⟩
      exact hother image haligned himage

/-- A profile whose geometry is rejected has found the score zero. -/
theorem examineProfile_rejected {findings : ProfileFindings}
    (h : examineProfile tools page key pageIndex canonicalShape profile = .ok findings)
    (hrejected : findings.geometryRejected = true) : findings.pilotScore = some 0 := by
  simp only [examineProfile, bind_eq_ok] at h
  obtain ⟨alignment, halign, h⟩ := h
  split at h
  · rename_i hreason
    cases h
    exact alignPageV2_rejected halign hreason
  split at h
  · -- a canvas is not rejected
    unfold canvasFindings at h
    split at h
    · cases h
      cases hrejected
    · cases h
    · simp only [bind_eq_ok, pure_eq_ok] at h
      obtain ⟨votes, -, rfl⟩ := h
      cases hrejected
  · cases h
    cases hrejected

/-- The votes a profile finds are those of its tiles. -/
theorem examineProfile_votes {findings : ProfileFindings}
    (h : examineProfile tools page key pageIndex canonicalShape profile = .ok findings)
    (tileOrdinal : Nat) (vote : Option PayloadVoteV2) :
    findings.tileVotes[tileOrdinal]? = some vote ↔
      TileVotes tools page key pageIndex canonicalShape profile tileOrdinal vote := by
  rcases examineProfile_cases h with ⟨canvas, halign, hfindings⟩ | ⟨hnone, -, hempty⟩
  · unfold canvasFindings at hfindings
    split at hfindings
    · -- a canvas without tiles
      rename_i text herror
      rw [← Except.ok.inj hfindings]
      refine iff_of_false (fun hvote ↦ by cases hvote) fun hvotes ↦ ?_
      obtain ⟨canvas', tiles, tile, halign', htiles, -⟩ := hvotes.cast
      obtain rfl := halign.unique halign'
      rw [herror] at htiles
      cases htiles
    · cases hfindings
    · rename_i tiles htiles
      simp only [bind_eq_ok, pure_eq_ok] at hfindings
      obtain ⟨votes, hvotes, hfound⟩ := hfindings
      rw [← hfound]
      rw [canvasVotes_getElem? hvotes]
      constructor
      · rintro ⟨tile, htile, hvote⟩
        exact ⟨canvas, tiles, tile, halign, htiles, htile, hvote⟩
      · intro hcast
        obtain ⟨canvas', tiles', tile, halign', htiles', htile, hvote⟩ := hcast.cast
        obtain rfl := halign.unique halign'
        rw [htiles] at htiles'
        cases htiles'
        exact ⟨tile, htile, hvote⟩
  · rw [hempty]
    refine iff_of_false (fun hvote ↦ by cases hvote) fun hvotes ↦ ?_
    obtain ⟨canvas, _, _, halign, -⟩ := hvotes.cast
    exact hnone canvas halign

theorem canvasFindings_aligned {pilotScore : Option ℚ} {findings : ProfileFindings}
    (h : canvasFindings tools canvas pilotScore key pageIndex profile = .ok findings) :
    findings.aligned = true := by
  unfold canvasFindings at h
  split at h
  · rw [← Except.ok.inj h]
  · cases h
  · simp only [bind_eq_ok, pure_eq_ok] at h
    obtain ⟨votes, -, hfound⟩ := h
    rw [← hfound]

/-- Where nothing was aligned, no profile has a canvas. -/
theorem not_aligned {findings : List ProfileFindings}
    (h : profiles.mapM (examineProfile tools page key pageIndex canonicalShape) = .ok findings)
    (hunaligned : findings.any (·.aligned) = false) :
    ∀ profile ∈ profiles, ∀ canvas,
      ¬ AlignsTo tools.toAlignmentTools page key pageIndex profile canonicalShape canvas := by
  have haligned : ∀ profile found,
      examineProfile tools page key pageIndex canonicalShape profile = .ok found →
        (found.aligned = true ↔ ∃ canvas,
          AlignsTo tools.toAlignmentTools page key pageIndex profile canonicalShape canvas) := by
    intro profile found hfound
    rcases examineProfile_cases hfound with ⟨canvas, halign, hfindings⟩ | ⟨hnone, hfalse, -⟩
    · exact iff_of_true (canvasFindings_aligned hfindings) ⟨canvas, halign⟩
    · rw [hfalse]
      refine iff_of_false (fun h ↦ by cases h) ?_
      rintro ⟨canvas, halign⟩
      exact hnone canvas halign
  intro profile hprofile canvas halign
  obtain ⟨found, hfound, htrue⟩ := (mapM_exists h haligned).mpr ⟨profile, hprofile, canvas, halign⟩
  have hany := List.any_eq_true.mpr ⟨found, hfound, htrue⟩
  rw [hunaligned] at hany
  cases hany

/-- Votes of the page: the tile of some profile casts them. -/
theorem mem_votes_iff {findings : List ProfileFindings}
    (h : profiles.mapM (examineProfile tools page key pageIndex canonicalShape) = .ok findings)
    (vote : PayloadVoteV2) :
    vote ∈ findings.flatMap (·.votes) ↔ ∃ profile ∈ profiles,
      TileVotes tools page key pageIndex canonicalShape profile vote.tileOrdinal (some vote) := by
  have hvotes : ∀ profile found,
      examineProfile tools page key pageIndex canonicalShape profile = .ok found →
        (vote ∈ found.votes ↔ TileVotes tools page key pageIndex canonicalShape profile
          vote.tileOrdinal (some vote)) := by
    intro profile found hfound
    rw [ProfileFindings.votes, List.mem_filterMap]
    constructor
    · rintro ⟨cast, hcast, hsome⟩
      obtain rfl : cast = some vote := hsome
      obtain ⟨i, hi⟩ := List.mem_iff_getElem?.mp hcast
      have hplace := (examineProfile_votes hfound i _).mp hi
      obtain ⟨_, _, _, -, -, -, hvote⟩ := hplace.cast
      obtain ⟨-, hordinal, -⟩ := tileVote_eq_some hvote
      rw [hordinal]
      exact hplace
    · intro hplace
      have hget := (examineProfile_votes hfound _ _).mpr hplace
      exact ⟨some vote, List.mem_of_getElem? hget, rfl⟩
  rw [List.mem_flatMap]
  exact mapM_exists h hvotes

end Cast

/-! ## 3. What a decision rests on -/

section Decision

variable {K : Type} [Field K] [LinearOrder K]

theorem byteText_injective : Function.Injective fun bytes : List UInt8 ↦
    String.ofList (bytes.map fun byte ↦ Char.ofNat byte.toNat) := by
  intro bytes bytes' h
  have hlists := String.ofList_injective h
  refine List.map_injective_iff.mpr (fun byte byte' hchar ↦ ?_) hlists
  have hbyte : ∀ byte : UInt8, (Char.ofNat byte.toNat).toNat = byte.toNat := by
    intro byte
    have hlt : byte.toNat < 256 := byte.toNat_lt
    have hvalid : byte.toNat.isValidChar := .inl (by omega)
    unfold Char.ofNat
    rw [dif_pos hvalid]
    rfl
  have hnat := congrArg Char.toNat hchar
  rw [hbyte, hbyte] at hnat
  exact UInt8.toNat_inj.mp hnat

theorem forM_ok {α ε : Type} {f : α → Except ε PUnit} {xs : List α} (h : xs.forM f = .ok ⟨⟩) :
    ∀ x ∈ xs, f x = .ok ⟨⟩ := by
  induction xs with
  | nil => exact fun x hx ↦ absurd hx List.not_mem_nil
  | cons x xs ih =>
    obtain ⟨_, hx, hxs⟩ := (bind_eq_ok _ _ _).mp h
    rw [List.forall_mem_cons]
    exact ⟨hx, ih hxs⟩

variable [FloorRing K] {tools : DecodingTools K}
  {page canvas : Image Bgr} {key : List UInt8} {pageIndex : Int} {canonicalShape : Int × Int}
  {profile : GridProfileV2 K} {profiles : List (GridProfileV2 K)}

omit [FloorRing K] in
theorem mem_of_canonical {contractSha256 : List UInt8}
    (h : validateCanonicalProfile contractSha256 profile = .ok ⟨⟩) :
    profile ∈ loadV2Profiles contractSha256 := by
  unfold validateCanonicalProfile at h
  simp only [bind_eq_ok, exists_unit, raiseIf_eq_ok, not_not] at h
  exact h.2

omit [Field K] [LinearOrder K] [FloorRing K] in
theorem candidate_injOn {packReal : K → List UInt8}
    (hnodup : (profiles.map (·.identifier packReal)).Nodup) :
    ∀ profile ∈ profiles, ∀ other ∈ profiles,
      (profile.candidate packReal).identifier = (other.candidate packReal).identifier →
        profile = other := by
  intro profile hprofile other hother hsame
  exact List.inj_on_of_nodup_map hnodup hprofile hother (byteText_injective hsame)

omit [FloorRing K] in
/-- What the checks of the profiles have found. -/
theorem validateProfiles_eq_ok [IsStrictOrderedRing K]
    (h : validateProfiles tools profiles = .ok ⟨⟩) :
    (profiles.map (·.identifier tools.packReal)).Nodup ∧
      (∀ profile ∈ profiles, profile ∈ loadV2Profiles tools.contractSha256) ∧
      ValidatedProfiles (profiles.map (·.candidate tools.packReal)) := by
  unfold validateProfiles at h
  simp only [bind_eq_ok, exists_unit, raiseIf_eq_ok, not_not] at h
  obtain ⟨-, -, hcanonical, hnodup⟩ := h
  have hgrid : ∀ profile ∈ profiles, profile ∈ loadV2Profiles tools.contractSha256 :=
    fun profile hprofile ↦ mem_of_canonical (forM_ok hcanonical profile hprofile)
  refine ⟨hnodup, hgrid, ?_, ?_⟩
  · rw [List.map_map]
    refine (List.nodup_map_iff_inj_on hnodup.of_map).mpr ?_
    exact candidate_injOn hnodup
  · intro candidate hcandidate
    obtain ⟨profile, hprofile, rfl⟩ := List.mem_map.mp hcandidate
    show 0 < profile.payloadRepetitions
    have hrepetitions := (onGrid_of_mem (hgrid profile hprofile)).payloadRepetitions
    omega

theorem decodePageFingerprintV2_eq_ok {decision : DecodeV2Decision}
    (h : decodePageFingerprintV2 tools page key pageIndex canonicalShape profiles = .ok decision) :
    validateProfiles tools profiles = .ok ⟨⟩ ∧ ∃ findings,
      profiles.mapM (examineProfile tools page key pageIndex canonicalShape) = .ok findings ∧
      (findings.any (·.aligned) = true ∧
          decidePayloadVotes (findings.flatMap (·.votes))
            (profiles.map (·.candidate tools.packReal))
            (bestGeometryConfidence (findings.map (·.pilotScore))) = .ok decision ∨
        findings.any (·.aligned) = false ∧ decision.issuanceId = none) := by
  simp only [decodePageFingerprintV2, bind_eq_ok, exists_unit] at h
  obtain ⟨-, -, -, hprofiles, -, findings, hfindings, h⟩ := h
  refine ⟨hprofiles, findings, hfindings, ?_⟩
  split at h
  · rename_i haligned
    exact .inl ⟨haligned, mapError_eq_ok.mp h⟩
  · rename_i haligned
    refine .inr ⟨Bool.eq_false_iff.mpr haligned, ?_⟩
    split at h
    · cases h
      rfl
    · cases h
      rfl

/-- No tile votes in two ways on a page. -/
theorem consistent_votes {findings : List ProfileFindings}
    (hnodup : (profiles.map (·.identifier tools.packReal)).Nodup)
    (h : profiles.mapM (examineProfile tools page key pageIndex canonicalShape) = .ok findings) :
    Consistent (findings.flatMap (·.votes)) := by
  intro vote hvote other hother hsame
  obtain ⟨profile, hprofile, hcast⟩ := (mem_votes_iff h vote).mp hvote
  obtain ⟨profile', hprofile', hcast'⟩ := (mem_votes_iff h other).mp hother
  obtain ⟨_, _, _, -, -, -, hcasts⟩ := hcast.cast
  obtain ⟨_, _, _, -, -, -, hcasts'⟩ := hcast'.cast
  have hname : (profile.candidate tools.packReal).identifier =
      (profile'.candidate tools.packReal).identifier := by
    rw [← (tileVote_eq_some hcasts).1, ← (tileVote_eq_some hcasts').1]
    exact hsame.1
  obtain rfl := candidate_injOn hnodup profile hprofile profile' hprofile' hname
  rw [hsame.2] at hcast
  exact Option.some.inj (hcast.unique hcast')

/-- A tile of the profile votes for the issuance. -/
def Names (tools : DecodingTools K) (page : Image Bgr) (key : List UInt8) (pageIndex : Int)
    (canonicalShape : Int × Int) (profile : GridProfileV2 K) (issuanceId : UUID)
    (tileOrdinal : Nat) : Prop :=
  ∃ vote, TileVotes tools page key pageIndex canonicalShape profile tileOrdinal (some vote) ∧
    vote.issuanceId = issuanceId

theorem mem_places_votes {findings : List ProfileFindings}
    (hnodup : (profiles.map (·.identifier tools.packReal)).Nodup)
    (h : profiles.mapM (examineProfile tools page key pageIndex canonicalShape) = .ok findings)
    (hprofile : profile ∈ profiles) (issuanceId : UUID) (tileOrdinal : Nat) :
    tileOrdinal ∈ places ((findings.flatMap (·.votes)).map (·.ballot))
        (profile.candidate tools.packReal).identifier issuanceId ↔
      Names tools page key pageIndex canonicalShape profile issuanceId tileOrdinal := by
  rw [mem_places, List.mem_map]
  constructor
  · rintro ⟨vote, hvote, hballot⟩
    obtain ⟨other, hother, hcast⟩ := (mem_votes_iff h vote).mp hvote
    obtain ⟨_, _, _, -, -, -, hcasts⟩ := hcast.cast
    have hcandidate := congrArg Ballot.candidate hballot
    have hplace : vote.tileOrdinal = tileOrdinal := congrArg Ballot.place hballot
    have hname : (other.candidate tools.packReal).identifier =
        (profile.candidate tools.packReal).identifier :=
      (tileVote_eq_some hcasts).1.symm.trans hcandidate
    obtain rfl := candidate_injOn hnodup other hother profile hprofile hname
    rw [hplace] at hcast
    exact ⟨vote, hcast, congrArg Ballot.choice hballot⟩
  · rintro ⟨vote, hcast, rfl⟩
    obtain ⟨_, _, _, -, -, -, hcasts⟩ := hcast.cast
    obtain ⟨hcandidate, hordinal, -⟩ := tileVote_eq_some hcasts
    refine ⟨vote, (mem_votes_iff h vote).mpr ⟨profile, hprofile, ?_⟩, ?_⟩
    · rw [hordinal]
      exact hcast
    · unfold PayloadVoteV2.ballot
      rw [hcandidate, hordinal]

theorem EnoughTiles.mono {tiles tiles' : Finset Nat} {payloadRepetitions : Nat}
    (h : EnoughTiles tiles payloadRepetitions) (hsubset : tiles ⊆ tiles') :
    EnoughTiles tiles' payloadRepetitions := by
  have hcard := Finset.card_le_card hsubset
  have hcast : (tiles.card : ℚ) ≤ tiles'.card := Nat.cast_le.mpr hcard
  exact ⟨h.1.trans hcard, h.2.trans hcast⟩

/-- The votes name an issuance exactly when no tile votes for another and some profile has enough
tiles that vote for it. -/
theorem decidePayloadVotes_names_iff [IsStrictOrderedRing K] {findings : List ProfileFindings}
    (hvalid : validateProfiles tools profiles = .ok ⟨⟩)
    (h : profiles.mapM (examineProfile tools page key pageIndex canonicalShape) = .ok findings)
    {geometryConfidence : ℚ} {decision : DecodeV2Decision}
    (hdecision : decidePayloadVotes (findings.flatMap (·.votes))
      (profiles.map (·.candidate tools.packReal)) geometryConfidence = .ok decision)
    (issuanceId : UUID) :
    decision.issuanceId = some issuanceId ↔
      (∀ profile ∈ profiles, ∀ tileOrdinal vote,
        TileVotes tools page key pageIndex canonicalShape profile tileOrdinal (some vote) →
          vote.issuanceId = issuanceId) ∧
      ∃ profile ∈ profiles, ∃ naming : Finset Nat, EnoughTiles naming profile.payloadRepetitions ∧
        ∀ tileOrdinal ∈ naming,
          Names tools page key pageIndex canonicalShape profile issuanceId tileOrdinal := by
  obtain ⟨hnodup, -, hvalidated⟩ := validateProfiles_eq_ok hvalid
  have hvotes : ∀ vote ∈ findings.flatMap (·.votes),
      ∃ candidate ∈ profiles.map (·.candidate tools.packReal),
        candidate.identifier = vote.candidateId := by
    intro vote hvote
    obtain ⟨profile, hprofile, hcast⟩ := (mem_votes_iff h vote).mp hvote
    obtain ⟨_, _, _, -, -, -, hcasts⟩ := hcast.cast
    exact ⟨_, List.mem_map_of_mem hprofile, (tileVote_eq_some hcasts).1.symm⟩
  have hiff := decidePayloadVotes_decoded_iff hvalidated hvotes geometryConfidence issuanceId
  have hnamed : decision.issuanceId = some issuanceId ↔ ∃ decided,
      decidePayloadVotes (findings.flatMap (·.votes)) (profiles.map (·.candidate tools.packReal))
        geometryConfidence = .ok decided ∧ decided.status = .decoded ∧
          decided.issuanceId = some issuanceId := by
    constructor
    · intro hid
      refine ⟨decision, hdecision, (decidePayloadVotes_id hdecision).mp ?_, hid⟩
      rw [hid]
      rfl
    · rintro ⟨decided, hdecided, -, hid⟩
      rw [hdecision] at hdecided
      cases hdecided
      exact hid
  rw [hnamed, hiff]
  constructor
  · rintro ⟨-, hsame, candidate, hcandidate, henough⟩
    obtain ⟨profile, hprofile, rfl⟩ := List.mem_map.mp hcandidate
    refine ⟨fun other hother tileOrdinal vote hcast ↦ ?_, profile, hprofile, _, henough, ?_⟩
    · apply hsame
      rw [mem_votes_iff h]
      obtain ⟨_, _, _, -, -, -, hcasts⟩ := hcast.cast
      rw [(tileVote_eq_some hcasts).2.1]
      exact ⟨other, hother, hcast⟩
    · intro tileOrdinal hplace
      exact (mem_places_votes hnodup h hprofile issuanceId tileOrdinal).mp hplace
  · rintro ⟨hsame, profile, hprofile, naming, henough, hnaming⟩
    refine ⟨consistent_votes hnodup h, fun vote hvote ↦ ?_, profile.candidate tools.packReal,
      List.mem_map_of_mem hprofile, henough.mono fun tileOrdinal hplace ↦ ?_⟩
    · obtain ⟨other, hother, hcast⟩ := (mem_votes_iff h vote).mp hvote
      exact hsame other hother vote.tileOrdinal vote hcast
    · exact (mem_places_votes hnodup h hprofile issuanceId tileOrdinal).mpr
        (hnaming tileOrdinal hplace)

end Decision

end Splitbind
