import Splitbind.Fingerprint.BallotsV3
import Splitbind.Library.Table

/-!
# Attribution — the votes of the tiles decide, and fail closed

The votes of validated profiles name an issuance exactly when it is the only one they name and a
profile has a quorum for it.
-/

namespace Splitbind

open Quorum

/-! ## 1. Validated profiles -/

/-- What `_validate_profiles` promises of the V2 profiles it returns. -/
structure ValidatedProfiles (profiles : List FingerprintV2Profile) : Prop where
  distinct : (profiles.map (·.identifier)).Nodup
  repeated : ∀ profile ∈ profiles, 0 < profile.payloadRepetitions

/-- What `_validate_profiles` promises of the V3 profiles it returns. -/
structure ValidatedProfilesV3 (profiles : List FingerprintV3Profile) : Prop where
  distinct : (profiles.map (·.identifier)).Nodup
  repeated : ∀ profile ∈ profiles, 0 < profile.payloadRepetitions

theorem ValidatedProfiles.repetitionsOf_eq {profiles : List FingerprintV2Profile}
    {profile : FingerprintV2Profile} (h : ValidatedProfiles profiles) (hprofile : profile ∈ profiles) :
    repetitionsOf profiles profile.identifier = profile.payloadRepetitions := by
  have hfind := Table.find?_eq_some h.distinct hprofile (decide_eq_true rfl)
    (fun other hother ↦ of_decide_eq_true hother)
  rw [repetitionsOf, hfind]
  rfl

theorem ValidatedProfilesV3.repetitionsOf_eq {profiles : List FingerprintV3Profile}
    {profile : FingerprintV3Profile} (h : ValidatedProfilesV3 profiles)
    (hprofile : profile ∈ profiles) :
    repetitionsOfV3 profiles profile.identifier = profile.payloadRepetitions := by
  have hfind := Table.find?_eq_some h.distinct hprofile (decide_eq_true rfl)
    (fun other hother ↦ of_decide_eq_true hother)
  rw [repetitionsOfV3, hfind]
  rfl

/-- Two distinct tiles or more, and at least 0.60 of the repetitions. -/
def EnoughTiles (tiles : Finset Nat) (payloadRepetitions : Nat) : Prop :=
  2 ≤ tiles.card ∧ candidateSupportThreshold * payloadRepetitions ≤ tiles.card

theorem quorate_iff {seats : String → Nat} {ballots : List TileBallot} {candidateId : String}
    {issuanceId : UUID} {payloadRepetitions : Nat} (hseats : seats candidateId = payloadRepetitions)
    (hpos : 0 < payloadRepetitions) :
    Quorate (strength seats ballots candidateId issuanceId) ↔
      EnoughTiles (places ballots candidateId issuanceId) payloadRepetitions := by
  have hcast : (0 : ℚ) < payloadRepetitions := Nat.cast_pos.mpr hpos
  rw [EnoughTiles, ← le_div_iff₀ hcast, ← hseats]
  exact Iff.rfl

/-- A quorum rests on a ballot. -/
theorem EnoughTiles.exists_ballot {ballots : List TileBallot} {candidateId : String}
    {issuanceId : UUID} {payloadRepetitions : Nat}
    (h : EnoughTiles (places ballots candidateId issuanceId) payloadRepetitions) :
    ∃ tile, (⟨candidateId, tile, issuanceId⟩ : TileBallot) ∈ ballots := by
  have hcard : 0 < (places ballots candidateId issuanceId).card := lt_of_lt_of_le two_pos h.1
  obtain ⟨tile, htile⟩ := Finset.card_pos.mp hcard
  exact ⟨tile, mem_places.mp htile⟩

/-! ## 2. Fail closed -/

/-- V2 names an issuance exactly when it is the only one and some profile has a quorum for it. -/
theorem decidePayloadVotes_decoded_iff {profiles : List FingerprintV2Profile}
    (hprofiles : ValidatedProfiles profiles) {votes : List PayloadVoteV2}
    (hvotes : ∀ vote ∈ votes, ∃ profile ∈ profiles, profile.identifier = vote.candidateId)
    (geometryConfidence : ℚ) (issuanceId : UUID) :
    (∃ decision, decidePayloadVotes votes profiles geometryConfidence = .ok decision ∧
        decision.status = .decoded ∧ decision.issuanceId = some issuanceId) ↔
      Consistent votes ∧ (∀ vote ∈ votes, vote.issuanceId = issuanceId) ∧
        ∃ profile ∈ profiles, EnoughTiles (places (votes.map (·.ballot)) profile.identifier
          issuanceId) profile.payloadRepetitions := by
  constructor
  · rintro ⟨decision, hdecision, hstatus, hid⟩
    have hconsistent : Consistent votes := by
      by_contra hconflict
      rw [decidePayloadVotes_conflicting hconflict] at hdecision
      cases hdecision
    obtain ⟨decided, hdecided, hverdict⟩ :=
      decidePayloadVotes_verdict hconsistent profiles geometryConfidence
    obtain rfl : decision = decided := Except.ok.inj (hdecision.symm.trans hdecided)
    refine ⟨hconsistent, ?_⟩
    generalize hgiven : decision.verdict = verdict at hverdict
    cases hverdict with
    | undetected hempty =>
      have hnot := congrArg Verdict.status hgiven
      exact absurd (hstatus.symm.trans hnot) DecodeStatus.noConfusion
    | undecided hnone hstrongest =>
      have hnot := congrArg Verdict.status hgiven
      exact absurd (hstatus.symm.trans hnot) DecodeStatus.noConfusion
    | decoded hunanimous hstrongest =>
      have hname := congrArg Verdict.issuanceId hgiven
      obtain rfl : issuanceId = _ := Option.some.inj (hid.symm.trans hname)
      refine ⟨fun vote hvote ↦ hunanimous vote.ballot (List.mem_map_of_mem hvote), ?_⟩
      obtain ⟨ballot, hballot, rfl, -⟩ := hstrongest.cast
      obtain ⟨vote, hvote, rfl⟩ := List.mem_map.mp hballot
      obtain ⟨profile, hprofile, hidentifier⟩ := hvotes vote hvote
      refine ⟨profile, hprofile, ?_⟩
      rw [← quorate_iff (hprofiles.repetitionsOf_eq hprofile)
        (hprofiles.repeated profile hprofile), hidentifier]
      exact hstrongest.admits
  · rintro ⟨hconsistent, hsame, profile, hprofile, henough⟩
    obtain ⟨decision, hdecision, hverdict⟩ :=
      decidePayloadVotes_verdict hconsistent profiles geometryConfidence
    refine ⟨decision, hdecision, ?_⟩
    obtain ⟨tile, hballot⟩ := henough.exists_ballot
    have hunanimous : Unanimously (votes.map (·.ballot)) issuanceId := by
      intro ballot hballot
      obtain ⟨vote, hvote, rfl⟩ := List.mem_map.mp hballot
      exact hsame vote hvote
    have hquorate := (quorate_iff (hprofiles.repetitionsOf_eq hprofile)
      (hprofiles.repeated profile hprofile)).mpr henough
    generalize hgiven : decision.verdict = verdict at hverdict
    cases hverdict with
    | undetected hempty =>
      rw [hempty] at hballot
      exact absurd hballot List.not_mem_nil
    | undecided hnone _ =>
      -- the quorum of the profile has a strongest choice
      obtain ⟨best, hbest, hstrongest⟩ := exists_strongest hballot hquorate
      rw [hunanimous best hbest] at hstrongest
      exact absurd hstrongest (hnone _ _ hunanimous)
    | decoded hunanimous' _ =>
      have hname := hunanimous' _ hballot
      exact ⟨congrArg Verdict.status hgiven,
        (congrArg Verdict.issuanceId hgiven).trans (congrArg some hname.symm)⟩

/-- V3 names an issuance exactly when it is the only one and the strongest profile has a quorum. -/
theorem decidePayloadVotesV3_decoded_iff {profiles : List FingerprintV3Profile}
    (hprofiles : ValidatedProfilesV3 profiles) {votes : List PayloadVoteV3}
    (hvotes : ∀ vote ∈ votes, ∃ profile ∈ profiles, profile.identifier = vote.candidateId)
    (geometryConfidence : ℚ) (issuanceId : UUID) :
    (∃ decision, decidePayloadVotesV3 votes profiles geometryConfidence = .ok decision ∧
        decision.status = .decoded ∧ decision.issuanceId = some issuanceId) ↔
      (∀ vote ∈ votes, vote.issuanceId = issuanceId) ∧
        ∃ profile ∈ profiles, (∀ other ∈ profiles,
            strength (repetitionsOfV3 profiles) (votes.map (·.ballot)) other.identifier issuanceId ≤
              strength (repetitionsOfV3 profiles) (votes.map (·.ballot)) profile.identifier
                issuanceId) ∧
          EnoughTiles (places (votes.map (·.ballot)) profile.identifier issuanceId)
            profile.payloadRepetitions := by
  obtain ⟨decision, hdecision, hverdict⟩ :=
    decidePayloadVotesV3_verdict votes profiles geometryConfidence
  generalize hgiven : decision.verdict = verdict at hverdict
  constructor
  · rintro ⟨decided, hdecided, hstatus, hid⟩
    obtain rfl : decision = decided := Except.ok.inj (hdecision.symm.trans hdecided)
    have hnot := hstatus.symm.trans (congrArg Verdict.status hgiven)
    cases hverdict with
    | undetected _ => exact absurd hnot DecodeV3Status.noConfusion
    | conflicting _ _ => exact absurd hnot DecodeV3Status.noConfusion
    | weak _ _ _ => exact absurd hnot DecodeV3Status.noConfusion
    | decoded hunanimous hstrongest hquorate =>
      have hname := congrArg Verdict.issuanceId hgiven
      obtain rfl : issuanceId = _ := Option.some.inj (hid.symm.trans hname)
      refine ⟨fun vote hvote ↦ hunanimous vote.ballot (List.mem_map_of_mem hvote), ?_⟩
      obtain ⟨ballot, hballot, rfl, -⟩ := hstrongest.cast
      obtain ⟨vote, hvote, rfl⟩ := List.mem_map.mp hballot
      obtain ⟨profile, hprofile, hidentifier⟩ := hvotes vote hvote
      have hcandidate : vote.ballot.candidate = profile.identifier := hidentifier.symm
      rw [hcandidate] at hstrongest hquorate
      refine ⟨profile, hprofile, fun other hother ↦ ?_, ?_⟩
      · by_cases hempty :
          places (votes.map (·.ballot)) other.identifier issuanceId = ∅
        · exact strength_le_of_empty hempty
        · obtain ⟨tile, htile⟩ := Finset.nonempty_iff_ne_empty.mpr hempty
          exact hstrongest.ge ⟨other.identifier, tile, issuanceId⟩ (mem_places.mp htile) trivial
      · rw [← quorate_iff (hprofiles.repetitionsOf_eq hprofile)
          (hprofiles.repeated profile hprofile)]
        exact hquorate
  · rintro ⟨hsame, profile, hprofile, hgreatest, henough⟩
    refine ⟨decision, hdecision, ?_⟩
    obtain ⟨tile, hballot⟩ := henough.exists_ballot
    have hunanimous : Unanimously (votes.map (·.ballot)) issuanceId := by
      intro ballot hballot
      obtain ⟨vote, hvote, rfl⟩ := List.mem_map.mp hballot
      exact hsame vote hvote
    have hquorate := (quorate_iff (hprofiles.repetitionsOf_eq hprofile)
      (hprofiles.repeated profile hprofile)).mpr henough
    cases hverdict with
    | undetected hempty =>
      rw [hempty] at hballot
      exact absurd hballot List.not_mem_nil
    | conflicting hconflict _ => exact absurd hunanimous (hconflict issuanceId)
    | decoded hunanimous' _ _ =>
      have hname := hunanimous' _ hballot
      exact ⟨congrArg Verdict.status hgiven,
        (congrArg Verdict.issuanceId hgiven).trans (congrArg some hname.symm)⟩
    | weak hunanimous' hstrongest hweak =>
      -- the strongest choice and that of the profile are equally strong
      obtain ⟨best, hbest, rfl, rfl⟩ := hstrongest.cast
      have hbestName := hunanimous best hbest
      obtain ⟨vote, hvote, rfl⟩ := List.mem_map.mp hbest
      obtain ⟨other, hother, hidentifier⟩ := hvotes vote hvote
      have hle := hstrongest.ge _ hballot trivial
      have hge := hgreatest other hother
      have hcandidate : other.identifier = vote.ballot.candidate := hidentifier
      rw [hcandidate] at hge
      rw [hbestName] at hle hweak
      have hequal := le_antisymm hge hle
      rw [hequal] at hweak
      exact absurd hquorate hweak

/-- **Attribution fails closed.**  The votes of validated profiles are attributed by the ballots
they cast: to the only issuance observed, and only with a quorum; order, repetition and, in V3,
further geometries and codecs change nothing, and V2 refuses a tile that votes in two ways. -/
theorem attribution_fails_closed :
    (∀ profiles : List FingerprintV2Profile, ValidatedProfiles profiles →
      ∀ (votes : List PayloadVoteV2) (geometryConfidence : ℚ),
      (∀ vote ∈ votes, ∃ profile ∈ profiles, profile.identifier = vote.candidateId) →
      (∀ votes', votes.Perm votes' →
        (decidePayloadVotes votes' profiles geometryConfidence).map (·.verdict) =
          (decidePayloadVotes votes profiles geometryConfidence).map (·.verdict)) ∧
      (∀ issuanceId, (∃ decision,
          decidePayloadVotes votes profiles geometryConfidence = .ok decision ∧
          decision.status = .decoded ∧ decision.issuanceId = some issuanceId) ↔
        Consistent votes ∧ (∀ vote ∈ votes, vote.issuanceId = issuanceId) ∧
          ∃ profile ∈ profiles, EnoughTiles (places (votes.map (·.ballot)) profile.identifier
            issuanceId) profile.payloadRepetitions) ∧
      (∀ vote ∈ votes, ∀ other ∈ votes, vote.issuanceId ≠ other.issuanceId →
        ∀ decision, decidePayloadVotes votes profiles geometryConfidence = .ok decision →
          decision.status ≠ .decoded ∧ decision.issuanceId = none) ∧
      (∀ earlier vote later, votes = earlier ++ later → vote ∈ earlier →
        decidePayloadVotes (earlier ++ vote :: later) profiles geometryConfidence =
          decidePayloadVotes votes profiles geometryConfidence) ∧
      (∀ vote ∈ votes, ∀ other ∈ votes, vote.SameProvenance other → vote ≠ other →
        decidePayloadVotes votes profiles geometryConfidence = .error conflictingEvidence)) ∧
    (∀ profiles : List FingerprintV3Profile, ValidatedProfilesV3 profiles →
      ∀ (votes : List PayloadVoteV3) (geometryConfidence : ℚ),
      (∀ vote ∈ votes, ∃ profile ∈ profiles, profile.identifier = vote.candidateId) →
      ∃ decision, decidePayloadVotesV3 votes profiles geometryConfidence = .ok decision ∧
        (∀ votes', votes.Perm votes' → ∃ decision',
          decidePayloadVotesV3 votes' profiles geometryConfidence = .ok decision' ∧
            decision'.verdict = decision.verdict) ∧
        (∀ issuanceId, decision.status = .decoded ∧ decision.issuanceId = some issuanceId ↔
          (∀ vote ∈ votes, vote.issuanceId = issuanceId) ∧
            ∃ profile ∈ profiles, (∀ other ∈ profiles,
                strength (repetitionsOfV3 profiles) (votes.map (·.ballot)) other.identifier
                    issuanceId ≤
                  strength (repetitionsOfV3 profiles) (votes.map (·.ballot)) profile.identifier
                    issuanceId) ∧
              EnoughTiles (places (votes.map (·.ballot)) profile.identifier issuanceId)
                profile.payloadRepetitions) ∧
        (∀ vote ∈ votes, ∀ other ∈ votes, vote.issuanceId ≠ other.issuanceId →
          decision.status ≠ .decoded ∧ decision.issuanceId = none) ∧
        (∀ further : List PayloadVoteV3,
          (∀ vote ∈ further, ∃ cast ∈ votes, vote.candidateId = cast.candidateId ∧
            vote.tileOrdinal = cast.tileOrdinal ∧ vote.issuanceId = cast.issuanceId) →
          ∀ votes', (votes ++ further).Perm votes' → ∃ decision',
            decidePayloadVotesV3 votes' profiles geometryConfidence = .ok decision' ∧
              decision'.verdict = decision.verdict)) := by
  constructor
  · intro profiles hprofiles votes geometryConfidence hvotes
    have hdecoded := decidePayloadVotes_decoded_iff hprofiles hvotes geometryConfidence
    refine ⟨?_, hdecoded, ?_, ?_, ?_⟩
    · intro votes' hperm
      by_cases hconsistent : Consistent votes
      · have hconsistent' : Consistent votes' := hconsistent.subset hperm.symm.subset
        obtain ⟨decision, hdecision, hverdict⟩ :=
          decidePayloadVotes_verdict hconsistent profiles geometryConfidence
        obtain ⟨decision', hdecision', hverdict'⟩ :=
          decidePayloadVotes_verdict hconsistent' profiles geometryConfidence
        have hcongr := hverdict.congr fun ballot ↦ (hperm.map (·.ballot)).mem_iff
        rw [hdecision, hdecision']
        exact congrArg Except.ok (hverdict'.unique hcongr)
      · have hconflict' : ¬ Consistent votes' :=
          fun hconsistent' ↦ hconsistent (hconsistent'.subset hperm.subset)
        rw [decidePayloadVotes_conflicting hconsistent,
          decidePayloadVotes_conflicting hconflict']
    · intro vote hvote other hother hne decision hdecision
      have hnone : decision.issuanceId = none := by
        by_contra hsome
        obtain ⟨issuanceId, hid⟩ := Option.ne_none_iff_exists'.mp hsome
        have hstatus := (decidePayloadVotes_id hdecision).mp (hid ▸ rfl)
        obtain ⟨-, hsame, -⟩ := (hdecoded issuanceId).mp ⟨decision, hdecision, hstatus, hid⟩
        exact hne ((hsame vote hvote).trans (hsame other hother).symm)
      refine ⟨fun hstatus ↦ ?_, hnone⟩
      have hsome := (decidePayloadVotes_id hdecision).mpr hstatus
      rw [hnone] at hsome
      cases hsome
    · rintro earlier vote later rfl hvote
      rw [decidePayloadVotes, decidePayloadVotes, foldlM_addVote_repeat hvote]
    · intro vote hvote other hother hsame hne
      exact decidePayloadVotes_conflicting
        (fun hconsistent ↦ hne (hconsistent vote hvote other hother hsame)) _ _
  · intro profiles hprofiles votes geometryConfidence hvotes
    obtain ⟨decision, hdecision, hverdict⟩ :=
      decidePayloadVotesV3_verdict votes profiles geometryConfidence
    -- the ballots decide
    have hballots : ∀ votes' : List PayloadVoteV3,
        (∀ ballot, ballot ∈ votes.map (·.ballot) ↔ ballot ∈ votes'.map (·.ballot)) →
        ∃ decision', decidePayloadVotesV3 votes' profiles geometryConfidence = .ok decision' ∧
          decision'.verdict = decision.verdict := by
      intro votes' hsame
      obtain ⟨decision', hdecision', hverdict'⟩ :=
        decidePayloadVotesV3_verdict votes' profiles geometryConfidence
      exact ⟨decision', hdecision', hverdict'.unique (hverdict.congr hsame)⟩
    refine ⟨decision, hdecision, ?_, fun issuanceId ↦ ?_, ?_, ?_⟩
    · intro votes' hperm
      exact hballots votes' fun ballot ↦ (hperm.map (·.ballot)).mem_iff
    · rw [← decidePayloadVotesV3_decoded_iff hprofiles hvotes geometryConfidence issuanceId,
        hdecision]
      constructor
      · intro h
        exact ⟨decision, rfl, h⟩
      · rintro ⟨decided, hdecided, h⟩
        cases hdecided
        exact h
    · intro vote hvote other hother hne
      exact hverdict.conflicting_ids (List.mem_map_of_mem hvote) (List.mem_map_of_mem hother) hne
    · intro further hfurther votes' hperm
      apply hballots
      intro ballot
      rw [← (hperm.map (·.ballot)).mem_iff, List.map_append, List.mem_append]
      refine ⟨Or.inl, fun h ↦ h.elim id fun hlate ↦ ?_⟩
      obtain ⟨vote, hvote, rfl⟩ := List.mem_map.mp hlate
      obtain ⟨cast, hcast, hcandidate, htile, hname⟩ := hfurther vote hvote
      have hballot : vote.ballot = cast.ballot := by
        rw [PayloadVoteV3.ballot, PayloadVoteV3.ballot, hcandidate, htile, hname]
      rw [hballot]
      exact List.mem_map_of_mem hcast

end Splitbind
