import Splitbind.Demo.Aggregation
import Splitbind.Fingerprint.PageRoundTrip

/-!
# Raster decoding — the pages of a suspect file as rasters

A raster shows of a profile what decoding under that profile finds.  Whatever is decided on rasters is
decided on the canvases they show, so what holds of canvases holds of rasters; and the pages of an
issued document attribute it.
-/

namespace Splitbind

open Transaction

/-! ## 1. Decisions on rasters -/

section Decode

variable {K : Type} [Field K] [LinearOrder K] [FloorRing K] (tools : DecodingTools K)
  (key : List UInt8) (canonicalShape : Int × Int)

/-- The loop of `_first_conclusive_decision` over the profiles, on a raster. -/
def firstConclusiveRaster (raster : Image Bgr) (pageIndex : Nat)
    (fallback : Option DecodeV2Decision) :
    List (GridProfileV2 K) → Except PageError DecodeV2Decision
  | [] => found fallback .other
  | candidate :: rest => do
    let decision ← decodePageFingerprintV2 tools raster key pageIndex canonicalShape [candidate]
    if decision.status.conclusive then
      return decision
    else
      firstConclusiveRaster raster pageIndex (fallback <|> some decision) rest

/-- One decision for every rendered page of a document. -/
def rasterPageDecisions (candidates : List (GridProfileV2 K)) (pages : List (Image Bgr)) :
    Except PageError (List DecodeV2Decision) :=
  pages.zipIdx.mapM fun (page, pageIndex) ↦
    firstConclusiveRaster tools key canonicalShape page pageIndex none candidates

/-- One decision for every page index a raster may have been. -/
def rasterHypothesisDecisions (candidates : List (GridProfileV2 K)) (page : Image Bgr) :
    Except PageError (List DecodeV2Decision) :=
  (List.range pageIndexHypotheses).mapM fun pageIndex ↦
    firstConclusiveRaster tools key canonicalShape page pageIndex none candidates

/-- The loop of `_decode_image` over the geometry hypotheses. -/
def firstConclusiveRasterSummary (candidates : List (GridProfileV2 K))
    (fallback : Option DecodeSummary) : List (Image Bgr) → Except PageError DecodeSummary
  | [] => found fallback .other
  | page :: rest => do
    let decisions ← rasterHypothesisDecisions tools key canonicalShape candidates page
    let summary ← (aggregateUnknownPageDecisions decisions).mapError .decision
    if summary.status.conclusive then
      return summary
    else
      firstConclusiveRasterSummary candidates (fallback <|> some summary) rest

end Decode

/-! ## 2. What a raster shows -/

/-- The findings of a profile, as an alignment of a canvas. -/
def ProfileFindings.alignment (findings : ProfileFindings) : Alignment :=
  if findings.aligned then
    .aligned findings.pilotScore (some (findings.tileVotes.map (Option.map fun vote ↦
      ⟨vote.issuanceId, vote.bitErrorRate.getD 0⟩)))
  else if findings.geometryRejected then .geometryRejected
  else .unaligned findings.pilotScore

section Shown

variable {K : Type} [Field K] [LinearOrder K] [FloorRing K] (tools : DecodingTools K)
  (key : List UInt8) (canonicalShape : Int × Int)

/-- The canvas that a raster shows to the accepted profiles. -/
def shownCanvas (accepted : List (GridProfileV2 K)) (raster : Image Bgr) : Canvas :=
  fun candidate pageIndex ↦
    match accepted.find? fun profile ↦ profile.candidate tools.packReal = candidate with
    | none => .unaligned none
    | some profile =>
      match examineProfile tools raster key pageIndex canonicalShape profile with
      | .error _ => .unaligned none
      | .ok findings => findings.alignment

variable {tools key canonicalShape}
variable {accepted profiles : List (GridProfileV2 K)} {profile : GridProfileV2 K}
  {raster : Image Bgr} {pageIndex : Nat}

/-- An accepted profile sees its own findings. -/
theorem shownCanvas_eq (hdistinct : (accepted.map (·.identifier tools.packReal)).Nodup)
    (hprofile : profile ∈ accepted) {findings : ProfileFindings}
    (h : examineProfile tools raster key pageIndex canonicalShape profile = .ok findings) :
    shownCanvas tools key canonicalShape accepted raster (profile.candidate tools.packReal)
      pageIndex = findings.alignment := by
  have hfind : (accepted.find? fun other ↦
      other.candidate tools.packReal = profile.candidate tools.packReal) = some profile := by
    have hunique : (accepted.map fun other ↦ (other.candidate tools.packReal).identifier).Nodup :=
      (List.nodup_map_iff_inj_on hdistinct.of_map).mpr (candidate_injOn hdistinct)
    apply Table.find?_eq_some hunique hprofile
    · exact decide_eq_true rfl
    · intro other hother
      exact congrArg FingerprintV2Profile.identifier (of_decide_eq_true hother)
  unfold shownCanvas
  simp only [hfind, h]

/-- The canvas votes as the tiles do. -/
theorem profileVotes_alignment {findings : ProfileFindings}
    (h : examineProfile tools raster key pageIndex canonicalShape profile = .ok findings) :
    profileVotes (profile.candidate tools.packReal) findings.alignment = findings.votes := by
  by_cases haligned : findings.aligned = true
  · have hcast : ∀ (tileOrdinal : Nat) (vote : PayloadVoteV2), findings.tileVotes[tileOrdinal]? = some (some vote) →
        (profile.candidate tools.packReal).identifier = vote.candidateId ∧
          tileOrdinal = vote.tileOrdinal ∧ some (vote.bitErrorRate.getD 0) = vote.bitErrorRate := by
      intro tileOrdinal vote hvote
      obtain ⟨_, _, _, -, -, -, hcasts⟩ := ((examineProfile_votes h _ _).mp hvote).cast
      obtain ⟨hcandidate, hordinal, hrate⟩ := tileVote_eq_some hcasts
      obtain ⟨rate, hrate⟩ := Option.isSome_iff_exists.mp hrate
      refine ⟨hcandidate.symm, hordinal.symm, ?_⟩
      rw [hrate]
      rfl
    have hfew : findings.tileVotes.length ≤ (profile.candidate tools.packReal).payloadRepetitions := by
      show findings.tileVotes.length ≤ profile.payloadRepetitions
      by_contra hmany
      push Not at hmany
      obtain ⟨_, tiles, _, -, -, htile, -⟩ :=
        ((examineProfile_votes h _ _).mp (List.getElem?_eq_getElem hmany)).cast
      have hlt := (List.getElem?_eq_some_iff.mp htile).1
      rw [List.length_take] at hlt
      omega
    unfold profileVotes ProfileFindings.alignment ProfileFindings.votes
    simp only [if_pos haligned]
    rw [List.take_of_length_le (by rwa [List.length_map]), List.zipIdx_map, List.filterMap_map]
    calc findings.tileVotes.zipIdx.filterMap _
        = findings.tileVotes.zipIdx.filterMap (id ∘ Prod.fst) := by
          refine List.filterMap_congr fun place hplace ↦ ?_
          have hget := List.mem_zipIdx_iff_getElem?.mp hplace
          obtain ⟨cast, tileOrdinal⟩ := place
          cases cast with
          | none => rfl
          | some vote =>
            obtain ⟨hcandidate, hordinal, hrate⟩ := hcast tileOrdinal vote hget
            show some (⟨(profile.candidate tools.packReal).identifier, tileOrdinal,
              vote.issuanceId, some (vote.bitErrorRate.getD 0)⟩ : PayloadVoteV2) = some vote
            rw [hcandidate, hordinal, hrate]
      _ = findings.tileVotes.filterMap id := by
          rw [← List.filterMap_map, List.zipIdx_map_fst]
  · -- without a canvas there is no vote
    have hempty : findings.tileVotes = [] := by
      rcases examineProfile_cases h with ⟨canvas, halign, hfindings⟩ | ⟨-, -, hempty⟩
      · exact absurd (canvasFindings_aligned hfindings) haligned
      · exact hempty
    have hvotes : findings.votes = [] := by
      unfold ProfileFindings.votes
      rw [hempty]
      rfl
    rw [Bool.not_eq_true] at haligned
    unfold profileVotes ProfileFindings.alignment
    rw [hvotes, haligned]
    cases findings.geometryRejected with
    | true => rfl
    | false => rfl

theorem alignment_aligned (findings : ProfileFindings) :
    (findings.alignment matches .aligned _ _) = findings.aligned := by
  unfold ProfileFindings.alignment
  cases findings.aligned with
  | true => rfl
  | false =>
    cases findings.geometryRejected with
    | true => rfl
    | false => rfl

theorem alignment_rejected {findings : ProfileFindings} (h : findings.aligned = false) :
    decide (findings.alignment = .geometryRejected) = findings.geometryRejected := by
  unfold ProfileFindings.alignment
  rw [h]
  cases findings.geometryRejected with
  | true => rfl
  | false => rfl

/-- The canvas has the score of the findings. -/
theorem alignment_pilotScore {findings : ProfileFindings}
    (h : examineProfile tools raster key pageIndex canonicalShape profile = .ok findings) :
    findings.alignment.pilotScore = findings.pilotScore := by
  unfold ProfileFindings.alignment
  split
  · rfl
  split
  · rename_i hrejected
    exact (examineProfile_rejected h hrejected).symm
  · rfl

/-- What is decided on a raster is decided on the canvas that it shows. -/
theorem decodeFingerprintV2_shown (hdistinct : (accepted.map (·.identifier tools.packReal)).Nodup)
    (haccepted : profiles ⊆ accepted) {decision : DecodeV2Decision}
    (h : decodePageFingerprintV2 tools raster key pageIndex canonicalShape profiles = .ok decision) :
    decodeFingerprintV2 (shownCanvas tools key canonicalShape accepted raster) pageIndex
      (profiles.map (·.candidate tools.packReal)) = .ok decision := by
  simp only [decodePageFingerprintV2, bind_eq_ok, exists_unit] at h
  obtain ⟨-, -, -, -, -, findings, hfindings, h⟩ := h
  set shown := fun profile : GridProfileV2 K ↦ shownCanvas tools key canonicalShape accepted raster
    (profile.candidate tools.packReal) pageIndex with hshown
  have hsame : ∀ profile ∈ profiles, ∀ found,
      examineProfile tools raster key pageIndex canonicalShape profile = .ok found →
        shown profile = found.alignment :=
    fun profile hprofile found hfound ↦ shownCanvas_eq hdistinct (haccepted hprofile) hfound
  have hscores : findings.map (·.pilotScore) = profiles.map fun profile ↦ (shown profile).pilotScore :=
    mapM_map_eq hfindings fun profile hprofile found hfound ↦ by
      rw [hsame profile hprofile found hfound, alignment_pilotScore hfound]
  have haligned : findings.map (·.aligned) = profiles.map fun profile ↦
      (shown profile matches .aligned _ _) :=
    mapM_map_eq hfindings fun profile hprofile found hfound ↦ by
      rw [hsame profile hprofile found hfound, alignment_aligned]
  have hvotes : findings.map (·.votes) = profiles.map fun profile ↦
      profileVotes (profile.candidate tools.packReal) (shown profile) :=
    mapM_map_eq hfindings fun profile hprofile found hfound ↦ by
      rw [hsame profile hprofile found hfound, profileVotes_alignment hfound]
  have hanyAligned : findings.any (·.aligned) = profiles.any fun profile ↦
      (shown profile matches .aligned _ _) := by
    have hmapped := congrArg (List.any · id) haligned
    rwa [List.any_map, List.any_map] at hmapped
  have hallVotes : findings.flatMap (·.votes) = profiles.flatMap fun profile ↦
      profileVotes (profile.candidate tools.packReal) (shown profile) := by
    rw [List.flatMap_def, List.flatMap_def, hvotes]
  have hcanvas : decodeFingerprintV2 (shownCanvas tools key canonicalShape accepted raster) pageIndex
      (profiles.map (·.candidate tools.packReal)) =
      (let geometryConfidence :=
        bestGeometryConfidence (profiles.map fun profile ↦ (shown profile).pilotScore)
      if (profiles.any fun profile ↦ (shown profile matches .aligned _ _)) = true then
        decidePayloadVotes (profiles.flatMap fun profile ↦
          profileVotes (profile.candidate tools.packReal) (shown profile))
          (profiles.map (·.candidate tools.packReal)) geometryConfidence
      else if (profiles.any fun profile ↦
          decide (shown profile = .geometryRejected)) = true then
        .ok ⟨none, geometryConfidence, 0, none, .geometryRejected⟩
      else .ok ⟨none, geometryConfidence, 0, none, .insufficientSyncEvidence⟩) := by
    unfold decodeFingerprintV2
    simp only [List.map_map, List.any_map, List.flatMap_map]
    rfl
  rw [hcanvas]
  rw [hscores, hallVotes, hanyAligned] at h
  split at h
  · rename_i hsome
    rw [if_pos hsome]
    exact mapError_eq_ok.mp h
  · rename_i hnone
    rw [if_neg hnone]
    -- without a canvas a rejection is seen as one
    have hanyRejected : findings.any (·.geometryRejected) = profiles.any fun profile ↦
        decide (shown profile = .geometryRejected) := by
      have hrejected : findings.map (·.geometryRejected) = profiles.map fun profile ↦
          decide (shown profile = .geometryRejected) := by
        refine mapM_map_eq hfindings fun profile hprofile found hfound ↦ ?_
        have hunaligned : found.aligned = false := by
          rw [Bool.not_eq_true, List.any_eq_false] at hnone
          have hnot := hnone profile hprofile
          rw [hsame profile hprofile found hfound, alignment_aligned] at hnot
          exact Bool.eq_false_of_not_eq_true hnot
        rw [hsame profile hprofile found hfound, alignment_rejected hunaligned]
      have hmapped := congrArg (List.any · id) hrejected
      rwa [List.any_map, List.any_map] at hmapped
    rw [hanyRejected] at h
    split at h
    · rename_i hsome
      rw [if_pos hsome]
      cases h
      rfl
    · rename_i hnone'
      rw [if_neg hnone']
      cases h
      rfl

/-- The first conclusive decision on a raster is that on its canvas. -/
theorem firstConclusive_shown (hdistinct : (accepted.map (·.identifier tools.packReal)).Nodup)
    (haccepted : profiles ⊆ accepted) {fallback : Option DecodeV2Decision}
    {decision : DecodeV2Decision}
    (h : firstConclusiveRaster tools key canonicalShape raster pageIndex fallback profiles =
      .ok decision) :
    firstConclusive (shownCanvas tools key canonicalShape accepted raster) pageIndex fallback
      (profiles.map (·.candidate tools.packReal)) = .ok decision := by
  induction profiles generalizing fallback with
  | nil =>
    unfold firstConclusiveRaster at h
    rw [found_eq_ok] at h
    rw [h]
    rfl
  | cons profile rest ih =>
    obtain ⟨hfirst, hrest⟩ := List.cons_subset.mp haccepted
    unfold firstConclusiveRaster at h
    rw [bind_eq_ok] at h
    obtain ⟨attempt, hattempt, h⟩ := h
    have halone : [profile] ⊆ accepted := List.cons_subset.mpr ⟨hfirst, List.nil_subset _⟩
    have hshown := decodeFingerprintV2_shown hdistinct halone hattempt
    rw [List.map_cons, List.map_nil] at hshown
    rw [List.map_cons]
    unfold firstConclusive
    rw [hshown, ok_bind]
    by_cases hconclusive : attempt.status.conclusive = true
    · rw [if_pos hconclusive] at h ⊢
      cases h
      rfl
    · rw [if_neg hconclusive] at h ⊢
      exact ih hrest h

theorem hypothesisDecisions_shown (hdistinct : (accepted.map (·.identifier tools.packReal)).Nodup)
    (haccepted : profiles ⊆ accepted) {decisions : List DecodeV2Decision}
    (h : rasterHypothesisDecisions tools key canonicalShape profiles raster = .ok decisions) :
    hypothesisDecisions (profiles.map (·.candidate tools.packReal))
      (shownCanvas tools key canonicalShape accepted raster) = .ok decisions :=
  mapM_of_forall h fun _ _ _ hdecision ↦ firstConclusive_shown hdistinct haccepted hdecision

end Shown

/-- **Rasters and canvases.**  What the pages of a document and the hypotheses of an image are decided
to be as rasters is what the canvases they show are decided to be: page by page for a document, and
with the same summary for an image. -/
theorem raster_decoding_refines {K : Type} [Field K] [LinearOrder K] [FloorRing K]
    (tools : DecodingTools K) (key : List UInt8) (canonicalShape : Int × Int)
    (accepted : List (GridProfileV2 K))
    (hdistinct : (accepted.map (·.identifier tools.packReal)).Nodup) :
    ∃ shown : Image Bgr → Canvas,
      (∀ raster (pageIndex : Nat), ∀ profile ∈ accepted, ∀ findings,
        examineProfile tools raster key pageIndex canonicalShape profile = .ok findings →
          profileVotes (profile.candidate tools.packReal)
            (shown raster (profile.candidate tools.packReal) pageIndex) = findings.votes) ∧
      ∀ candidates ⊆ accepted,
      (∀ pages decisions,
        rasterPageDecisions tools key canonicalShape candidates pages = .ok decisions →
          pageDecisions (candidates.map (·.candidate tools.packReal)) (pages.map shown) =
            .ok decisions) ∧
      ∀ hypotheses fallback summary,
        firstConclusiveRasterSummary tools key canonicalShape candidates fallback hypotheses =
            .ok summary →
          firstConclusiveSummary (candidates.map (·.candidate tools.packReal)) fallback
            (hypotheses.map shown) = .ok summary := by
  refine ⟨shownCanvas tools key canonicalShape accepted, ?_, fun candidates haccepted ↦ ⟨?_, ?_⟩⟩
  · intro raster pageIndex profile hprofile findings hfindings
    rw [shownCanvas_eq hdistinct hprofile hfindings, profileVotes_alignment hfindings]
  · intro pages decisions h
    unfold pageDecisions
    rw [List.zipIdx_map, List.mapM_map]
    exact mapM_of_forall h fun _ _ _ hdecision ↦
      firstConclusive_shown hdistinct haccepted hdecision
  · intro hypotheses fallback summary h
    induction hypotheses generalizing fallback with
    | nil =>
      unfold firstConclusiveRasterSummary at h
      rw [found_eq_ok] at h
      rw [h]
      rfl
    | cons raster rest ih =>
      unfold firstConclusiveRasterSummary at h
      simp only [bind_eq_ok, mapError_eq_ok] at h
      obtain ⟨decisions, hdecisions, attempt, hattempt, h⟩ := h
      have hshown := hypothesisDecisions_shown hdistinct haccepted hdecisions
      rw [List.map_cons]
      unfold firstConclusiveSummary
      rw [hshown, ok_bind, hattempt, ok_bind]
      by_cases hconclusive : attempt.status.conclusive = true
      · rw [if_pos hconclusive] at h ⊢
        cases h
        rfl
      · rw [if_neg hconclusive] at h ⊢
        exact ih _ h

/-- The slate page, as the only page of a document. -/
theorem raster_decoding_refines_slate : ∃ canvas decision,
    pageDecisions [slateProfile.candidate slateTools.packReal] [canvas] = .ok [decision] ∧
      decision.verdict = ⟨.decoded, some samplePayloadUuid, 1, 3⟩ := by
  obtain ⟨result, decision, -, hdecision, hverdict⟩ := slatePage_decoded
  obtain ⟨shown, -, hshown⟩ := raster_decoding_refines slateTools [1] (2304, 1152) [slateProfile]
    (List.nodup_singleton _)
  have hstatus : decision.status = .decoded := congrArg Verdict.status hverdict
  have hconclusive : decision.status.conclusive = true := by
    rw [hstatus]
    rfl
  have hfirst : firstConclusiveRaster slateTools [1] (2304, 1152) result.image (0 : Nat) none
      [slateProfile] = .ok decision := by
    unfold firstConclusiveRaster
    show (decodePageFingerprintV2 slateTools result.image [1] 0 (2304, 1152) [slateProfile] >>=
      fun decision ↦ _) = _
    rw [hdecision, ok_bind, if_pos hconclusive]
    rfl
  have hpages : rasterPageDecisions slateTools [1] (2304, 1152) [slateProfile] [result.image] =
      .ok [decision] := by
    show (firstConclusiveRaster slateTools [1] (2304, 1152) result.image (0 : Nat) none
      [slateProfile] >>= fun decision ↦ _) = _
    rw [hfirst]
    rfl
  obtain ⟨hdocument, -⟩ := hshown [slateProfile] (List.Subset.refl _)
  exact ⟨shown result.image, decision, hdocument [result.image] [decision] hpages, hverdict⟩

/-! ## 3. An issued document -/

/-- A page of a document as it is received: embedded for the issuance under its index, aligned to a
canvas of its own shape, and with every tile kept. -/
structure IssuedPage {K : Type} [Field K] [LinearOrder K] [FloorRing K] (tools : DecodingTools K)
    (issuanceId : UUID) (key : List UInt8) (canonicalShape : Int × Int) (profile : GridProfileV2 K)
    (pageIndex : Nat) (received : Image Bgr) : Prop where
  intro ::
  issued : ∃ page result canvas,
    embedFingerprintV2 tools.toPageTools page ⟨issuanceId, key, pageIndex⟩ profile = .ok result ∧
    (∀ y < page.height, ∀ x < page.width, Headroom (page.pixel y x)
      (embeddingChange tools.toPageTools page ⟨issuanceId, key, pageIndex⟩ profile y x)) ∧
    validatePage received = .ok () ∧
    AlignsTo tools.toAlignmentTools received key pageIndex profile canonicalShape canvas ∧
    (canvas.height, canvas.width) = (result.image.height, result.image.width) ∧
    ∀ tiles, deriveTilesV2 tools.hmac (result.image.height, result.image.width) key pageIndex
        (profile.layout tools.packReal) = .ok tiles →
      ∀ tile ∈ tiles.take profile.payloadRepetitions,
        TileKept tools ⟨issuanceId, key, pageIndex⟩ profile result.image canvas tile

section Issued

variable {K : Type} [Field K] [LinearOrder K] [IsStrictOrderedRing K] [FloorRing K]
  {tools : DecodingTools K} {issuanceId : UUID} {key : List UInt8} {canonicalShape : Int × Int}
  {profile : GridProfileV2 K} {others : List (GridProfileV2 K)}

/-- A page that was embedded and kept names its id at the first profile. -/
theorem firstConclusiveRaster_kept {context : FingerprintV2Context}
    {page received canvas : Image Bgr} {result : EmbeddedPageV2}
    (hsteady : tools.numerics.Steady)
    (hlibrary : ((tools.library 16).codec).Corrects 16 (payloadBytes context.issuanceId))
    (hsha : tools.contractSha256.length = 32)
    (hshape : validateCanonicalShape canonicalShape = .ok ())
    (hreceived : validatePage received = .ok ())
    (hembed : embedFingerprintV2 tools.toPageTools page context profile = .ok result)
    (hroom : ∀ y < page.height, ∀ x < page.width, Headroom (page.pixel y x)
      (embeddingChange tools.toPageTools page context profile y x))
    (halign : AlignsTo tools.toAlignmentTools received context.fingerprintKey context.pageIndex
      profile canonicalShape canvas)
    (hsame : (canvas.height, canvas.width) = (result.image.height, result.image.width))
    (hkept : ∀ tiles, deriveTilesV2 tools.hmac (result.image.height, result.image.width)
        context.fingerprintKey context.pageIndex (profile.layout tools.packReal) = .ok tiles →
      ∀ tile ∈ tiles.take profile.payloadRepetitions,
        TileKept tools context profile result.image canvas tile) {pageIndex : Nat}
    (hpageIndex : context.pageIndex = pageIndex) :
    ∃ decision, firstConclusiveRaster tools context.fingerprintKey canonicalShape received
        pageIndex none (profile :: others) = .ok decision ∧
      decision.verdict = ⟨.decoded, some context.issuanceId, 1, profile.payloadRepetitions⟩ := by
  obtain ⟨tiles, hcarries⟩ := embedFingerprintV2_carries hsteady hroom hembed
  obtain ⟨hprofile, ⟨hkey, hindex, -, -⟩, -⟩ := embedFingerprintV2_eq_ok hembed
  unfold validateFingerprintKey at hkey
  unfold validateFingerprintIndex at hindex
  rw [raiseIf_eq_ok] at hkey hindex
  have hinputs : DecodingInputs tools received context canonicalShape profile :=
    ⟨hsha, hkey, not_not.mp hindex, hprofile, hshape, hreceived⟩
  obtain ⟨decision, hdecision, hverdict⟩ := decodePageFingerprintV2_kept hsteady hlibrary hinputs
    hcarries halign hsame (hkept tiles hcarries.derived)
  refine ⟨decision, ?_, hverdict⟩
  have hstatus : decision.status = .decoded := congrArg Verdict.status hverdict
  have hconclusive : decision.status.conclusive = true := by
    rw [hstatus]
    rfl
  rw [hpageIndex] at hdecision
  unfold firstConclusiveRaster
  rw [hdecision, ok_bind, if_pos hconclusive]
  rfl

/-- An issued page names its id at the first profile. -/
theorem IssuedPage.decision (others : List (GridProfileV2 K)) (hsteady : tools.numerics.Steady)
    (hlibrary : ((tools.library 16).codec).Corrects 16 (payloadBytes issuanceId))
    (hsha : tools.contractSha256.length = 32)
    (hshape : validateCanonicalShape canonicalShape = .ok ()) {pageIndex : Nat}
    {received : Image Bgr}
    (h : IssuedPage tools issuanceId key canonicalShape profile pageIndex received) :
    ∃ decision, firstConclusiveRaster tools key canonicalShape received pageIndex none
        (profile :: others) = .ok decision ∧
      decision.verdict = ⟨.decoded, some issuanceId, 1, profile.payloadRepetitions⟩ := by
  obtain ⟨page, result, canvas, hembed, hroom, hreceived, halign, hsame, hkept⟩ := h.issued
  generalize hcontext : FingerprintV2Context.mk issuanceId key pageIndex = context
    at hembed hroom hkept
  obtain rfl : context.issuanceId = issuanceId := by rw [← hcontext]
  obtain rfl : context.fingerprintKey = key := by rw [← hcontext]
  have hpageIndex : context.pageIndex = pageIndex := by rw [← hcontext]
  rw [← hpageIndex] at halign hkept
  exact firstConclusiveRaster_kept hsteady hlibrary hsha hshape hreceived hembed hroom halign hsame
    hkept hpageIndex

end Issued

/-- **Issued documents.**  A document with at least one page that was issued for an id and kept, and
whose other pages say nothing, is attributed to that id. -/
theorem issued_document_attributed {K : Type} [Field K] [LinearOrder K] [IsStrictOrderedRing K]
    [FloorRing K] (tools : DecodingTools K) (issuanceId : UUID) (key : List UInt8)
    (canonicalShape : Int × Int) (profile : GridProfileV2 K) (others : List (GridProfileV2 K))
    (pages : List (Image Bgr)) (hsteady : tools.numerics.Steady)
    (hlibrary : ∀ payload, encodePayload issuanceId 1 = .ok payload →
      ((tools.library 16).codec).Corrects 16 payload)
    (hsha : tools.contractSha256.length = 32)
    (hshape : validateCanonicalShape canonicalShape = .ok ())
    (hpages : ∀ pageIndex page, pages[pageIndex]? = some page →
      IssuedPage tools issuanceId key canonicalShape profile pageIndex page ∨
        ∃ decision, firstConclusiveRaster tools key canonicalShape page pageIndex none
          (profile :: others) = .ok decision ∧ decision.status.conclusive = false)
    (hissued : ∃ pageIndex page, pages[pageIndex]? = some page ∧
      IssuedPage tools issuanceId key canonicalShape profile pageIndex page) :
    ∃ decisions summary,
      rasterPageDecisions tools key canonicalShape (profile :: others) pages = .ok decisions ∧
        aggregateDecisions decisions = .ok summary ∧ summary.Attributed issuanceId := by
  have hcorrects := hlibrary _ (encodePayload_one issuanceId)
  -- every page has a decision, for the id or for nobody
  have hdecided : ∀ place ∈ pages.zipIdx, ∃ decision,
      firstConclusiveRaster tools key canonicalShape place.1 place.2 none (profile :: others) =
        .ok decision ∧
      (decision.status.conclusive = true →
        decision.status = .decoded ∧ decision.issuanceId = some issuanceId) := by
    intro place hplace
    rcases hpages place.2 place.1 (List.mem_zipIdx_iff_getElem?.mp hplace) with
      hpage | ⟨decision, hdecision, hsilent⟩
    · obtain ⟨decision, hdecision, hverdict⟩ :=
        hpage.decision others hsteady hcorrects hsha hshape
      exact ⟨decision, hdecision, fun _ ↦
        ⟨congrArg Verdict.status hverdict, congrArg Verdict.issuanceId hverdict⟩⟩
    · refine ⟨decision, hdecision, fun hconclusive ↦ ?_⟩
      rw [hsilent] at hconclusive
      cases hconclusive
  obtain ⟨decisions, hdecisions⟩ : ∃ decisions,
      rasterPageDecisions tools key canonicalShape (profile :: others) pages = .ok decisions :=
    mapM_total fun place hplace ↦
      have ⟨decision, hdecision, _⟩ := hdecided place hplace
      ⟨decision, hdecision⟩
  have hfrom : ∀ decision ∈ decisions, decision.status.conclusive = true →
      decision.status = .decoded ∧ decision.issuanceId = some issuanceId := by
    intro decision hdecision
    obtain ⟨place, hplace, hplaced⟩ := (mem_mapM_iff hdecisions).mp hdecision
    obtain ⟨named, hnamed, hsays⟩ := hdecided place hplace
    rw [Except.ok.inj (hplaced.symm.trans hnamed)]
    exact hsays
  obtain ⟨pageIndex, page, hpage, hissuedPage⟩ := hissued
  have hplace : (page, pageIndex) ∈ pages.zipIdx := List.mem_zipIdx_iff_getElem?.mpr hpage
  obtain ⟨issued, hissuedDecision, hverdict⟩ :=
    hissuedPage.decision others hsteady hcorrects hsha hshape
  have hissuedMem : issued ∈ decisions :=
    (mem_mapM_iff hdecisions).mpr ⟨(page, pageIndex), hplace, hissuedDecision⟩
  have hne : decisions ≠ [] := List.ne_nil_of_mem hissuedMem
  obtain ⟨summary, hsummary, hattributed⟩ := aggregateDecisions_attributed hne
  refine ⟨decisions, summary, hdecisions, hsummary, (hattributed issuanceId).mpr ⟨?_, ?_, ?_⟩⟩
  · exact ⟨issued, hissuedMem, congrArg Verdict.status hverdict⟩
  · intro decision hdecision hstatus
    refine (hfrom decision hdecision ?_).2
    rw [hstatus]
    rfl
  · intro decision hdecision hstatus
    have hconclusive : decision.status.conclusive = true := by
      rw [hstatus]
      rfl
    have hdecoded := (hfrom decision hdecision hconclusive).1
    rw [hstatus] at hdecoded
    cases hdecoded

/-- The slate page, as a document. -/
theorem issued_document_attributed_slate : ∃ page decisions summary,
    IssuedPage slateTools samplePayloadUuid [1] (2304, 1152) slateProfile 0 page ∧
      rasterPageDecisions slateTools [1] (2304, 1152) [slateProfile] [page] = .ok decisions ∧
      aggregateDecisions decisions = .ok summary ∧ summary.Attributed samplePayloadUuid := by
  obtain ⟨result, hembed⟩ := slatePage_embedded
  have hraster := slateRaster_valid hembed
  obtain ⟨tiles, hcarries⟩ :=
    embedFingerprintV2_carries orthonormalNumerics_steady slatePage_headroom hembed
  have hissued : IssuedPage slateTools samplePayloadUuid [1] (2304, 1152) slateProfile 0
      result.image := by
    refine ⟨slatePage, result, result.image, hembed, slatePage_headroom, hraster,
      slateTools_alignsTo hraster, rfl, fun tiles' htiles tile htile ↦ ?_⟩
    have hsame := Except.ok.inj (htiles.symm.trans hcarries.derived)
    rw [hsame] at htile
    exact TileKept.self (onGrid_of_mem slateProfile_mem).qimDelta
      (hcarries.size tile (List.mem_of_mem_take htile))
  have hpages : ∀ (pageIndex : Nat) (page : Image Bgr), [result.image][pageIndex]? = some page →
      IssuedPage slateTools samplePayloadUuid [1] (2304, 1152) slateProfile pageIndex page := by
    intro pageIndex page hpage
    obtain ⟨hlt, rfl⟩ := List.getElem?_eq_some_iff.mp hpage
    rw [List.length_singleton] at hlt
    obtain rfl : pageIndex = 0 := by omega
    exact hissued
  obtain ⟨decisions, summary, hdecisions, hsummary, hattributed⟩ := issued_document_attributed
    slateTools samplePayloadUuid [1] (2304, 1152) slateProfile [] [result.image]
    orthonormalNumerics_steady sampleLibrary_sends (by decide) (by decide)
    (fun pageIndex page hpage ↦ .inl (hpages pageIndex page hpage)) ⟨0, result.image, rfl, hissued⟩
  exact ⟨result.image, decisions, summary, hissued, hdecisions, hsummary, hattributed⟩

end Splitbind
