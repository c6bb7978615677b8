import Splitbind.Fingerprint.Ballots
import Splitbind.Fingerprint.DecisionV3

/-!
# Ballots of V3 — the tiles that name an issuance under any geometry and codec

The decision on V3 votes keeps one vote of a tile for each identity, so it too rests on its ballots.
-/

namespace Splitbind

open Transaction Quorum

/-! ## 1. The first vote of a tile counts -/

def DecodeV3Decision.verdict (decision : DecodeV3Decision) : Verdict DecodeV3Status :=
  ⟨decision.status, decision.issuanceId, decision.confidence, decision.validVotes⟩

def PayloadVoteV3.ballot (vote : PayloadVoteV3) : TileBallot :=
  ⟨vote.candidateId, vote.tileOrdinal, vote.issuanceId⟩

/-- Every tile that votes is kept once. -/
theorem foldl_setdefaultTile (votes : List PayloadVoteV3) {kept : List PayloadVoteV3}
    (hkept : (kept.map (·.tileOrdinal)).Nodup) :
    ((votes.foldl setdefaultTile kept).map (·.tileOrdinal)).Nodup ∧
      ∀ tile, tile ∈ (votes.foldl setdefaultTile kept).map (·.tileOrdinal) ↔
        tile ∈ kept.map (·.tileOrdinal) ∨ tile ∈ votes.map (·.tileOrdinal) := by
  induction votes generalizing kept with
  | nil => exact ⟨hkept, fun tile ↦ by rw [List.map_nil, List.foldl_nil]; simp⟩
  | cons vote votes ih =>
    rw [List.foldl_cons, setdefaultTile]
    split_ifs with hseen
    · obtain ⟨hnodup, hmem⟩ := ih hkept
      refine ⟨hnodup, fun tile ↦ ?_⟩
      rw [hmem, List.map_cons, List.mem_cons]
      constructor
      · exact Or.imp_right Or.inr
      · rintro (h | rfl | h)
        · exact .inl h
        · exact .inl hseen
        · exact .inr h
    · have hnext : ((kept ++ [vote]).map (·.tileOrdinal)).Nodup := by
        rw [List.map_append, List.nodup_append]
        refine ⟨hkept, List.nodup_singleton _, fun tile htile other hother heq ↦ ?_⟩
        rw [List.map_singleton, List.mem_singleton] at hother
        exact hseen (hother ▸ heq ▸ htile)
      obtain ⟨hnodup, hmem⟩ := ih hnext
      refine ⟨hnodup, fun tile ↦ ?_⟩
      rw [hmem, List.map_append, List.mem_append, List.map_singleton, List.mem_singleton,
        List.map_cons, List.mem_cons, or_assoc]

/-- The votes kept for an issuance under a candidate. -/
def identityGroup (votes : List PayloadVoteV3) (candidateId : String) (issuanceId : UUID) :
    IdentityGroup :=
  ⟨candidateId, issuanceId, (votes.filter fun vote ↦
    (vote.candidateId, vote.issuanceId) = (candidateId, issuanceId)).foldl setdefaultTile []⟩

theorem mem_byIdentity {votes : List PayloadVoteV3} {group : IdentityGroup} :
    group ∈ byIdentity votes ↔
      ∃ vote ∈ votes, group = identityGroup votes vote.candidateId vote.issuanceId := by
  rw [byIdentity, List.mem_map]
  constructor
  · rintro ⟨identity, hidentity, rfl⟩
    rw [List.mem_eraseDups, List.mem_map] at hidentity
    obtain ⟨vote, hvote, rfl⟩ := hidentity
    exact ⟨vote, hvote, rfl⟩
  · rintro ⟨vote, hvote, rfl⟩
    refine ⟨(vote.candidateId, vote.issuanceId), ?_, rfl⟩
    rw [List.mem_eraseDups]
    exact List.mem_map_of_mem hvote

/-- A group is as strong as its issuance's ballots. -/
theorem identityGroup_strength (votes : List PayloadVoteV3)
    (profiles : List FingerprintV3Profile) (candidateId : String) (issuanceId : UUID) :
    toLex ((identityGroup votes candidateId issuanceId).support profiles,
        (identityGroup votes candidateId issuanceId).supporting.length) =
      strength (repetitionsOfV3 profiles) (votes.map (·.ballot)) candidateId issuanceId := by
  have hlength : (identityGroup votes candidateId issuanceId).supporting.length =
      (places (votes.map (·.ballot)) candidateId issuanceId).card := by
    have hempty : (([] : List PayloadVoteV3).map (·.tileOrdinal)).Nodup := List.nodup_nil
    have hkept := fun cast : List PayloadVoteV3 ↦ foldl_setdefaultTile cast hempty
    rw [identityGroup, ← List.length_map, ← List.toFinset_card_of_nodup (hkept _).1]
    congr 1
    apply Finset.ext
    intro tile
    rw [List.mem_toFinset, (hkept _).2, mem_places, List.map_nil, List.mem_map, List.mem_map]
    constructor
    · rintro (hnil | ⟨vote, hvote, rfl⟩)
      · exact absurd hnil List.not_mem_nil
      · rw [List.mem_filter, decide_eq_true_eq, Prod.mk.injEq] at hvote
        obtain ⟨hcast, rfl, rfl⟩ := hvote
        exact ⟨vote, hcast, rfl⟩
    · rintro ⟨vote, hvote, hballot⟩
      cases hballot
      exact .inr ⟨vote, List.mem_filter.mpr ⟨hvote, decide_eq_true rfl⟩, rfl⟩
  rw [strength, ← hlength]
  rfl

/-! ## 2. The verdict -/

/-- What the ballots of V3 say. -/
inductive VerdictV3 (seats : String → Nat) (ballots : List TileBallot) (geometryConfidence : ℚ) :
    Verdict DecodeV3Status → Prop
  | undetected (hempty : ballots = []) :
    VerdictV3 seats ballots geometryConfidence ⟨.payloadNotDetected, none, geometryConfidence, 0⟩
  | conflicting {candidateId : String} {issuanceId : UUID}
    (hconflict : ∀ issuanceId, ¬ Unanimously ballots issuanceId)
    (hstrongest : Strongest seats ballots (fun _ ↦ True) candidateId issuanceId) :
    VerdictV3 seats ballots geometryConfidence
      (.rated .conflictingPayloadEvidence none (strength seats ballots candidateId issuanceId))
  | decoded {candidateId : String} {issuanceId : UUID}
    (hunanimous : Unanimously ballots issuanceId)
    (hstrongest : Strongest seats ballots (fun _ ↦ True) candidateId issuanceId)
    (hquorate : Quorate (strength seats ballots candidateId issuanceId)) :
    VerdictV3 seats ballots geometryConfidence
      (.rated .decoded (some issuanceId) (strength seats ballots candidateId issuanceId))
  | weak {candidateId : String} {issuanceId : UUID}
    (hunanimous : Unanimously ballots issuanceId)
    (hstrongest : Strongest seats ballots (fun _ ↦ True) candidateId issuanceId)
    (hquorate : ¬ Quorate (strength seats ballots candidateId issuanceId)) :
    VerdictV3 seats ballots geometryConfidence
      (.rated .partialPayloadEvidence none (strength seats ballots candidateId issuanceId))

/-- The verdict rests on which ballots were cast. -/
theorem VerdictV3.congr {seats : String → Nat} {ballots ballots' : List TileBallot}
    {geometryConfidence : ℚ} {verdict : Verdict DecodeV3Status}
    (h : ∀ ballot, ballot ∈ ballots ↔ ballot ∈ ballots')
    (hverdict : VerdictV3 seats ballots geometryConfidence verdict) :
    VerdictV3 seats ballots' geometryConfidence verdict := by
  cases hverdict with
  | undetected hempty =>
    apply VerdictV3.undetected
    rw [List.eq_nil_iff_forall_not_mem]
    intro ballot hballot
    rw [← h, hempty] at hballot
    exact List.not_mem_nil hballot
  | conflicting hconflict hstrongest =>
    rw [strength_congr h]
    refine .conflicting (fun issuanceId hunanimous ↦ ?_) (hstrongest.congr h)
    exact hconflict issuanceId (hunanimous.congr fun ballot ↦ (h ballot).symm)
  | decoded hunanimous hstrongest hquorate =>
    rw [strength_congr h] at hquorate ⊢
    exact .decoded (hunanimous.congr h) (hstrongest.congr h) hquorate
  | weak hunanimous hstrongest hquorate =>
    rw [strength_congr h] at hquorate ⊢
    exact .weak (hunanimous.congr h) (hstrongest.congr h) hquorate

/-- What strongest choice there is, and whether it stands alone, settles the verdict. -/
theorem VerdictV3.unique {seats : String → Nat} {ballots : List TileBallot}
    {geometryConfidence : ℚ} {verdict verdict' : Verdict DecodeV3Status}
    (h : VerdictV3 seats ballots geometryConfidence verdict)
    (h' : VerdictV3 seats ballots geometryConfidence verdict') : verdict = verdict' := by
  have hcast : ∀ {candidateId issuanceId},
      Strongest seats ballots (fun _ ↦ True) candidateId issuanceId → ballots ≠ [] := by
    intro candidateId issuanceId hstrongest
    obtain ⟨ballot, hballot, -⟩ := hstrongest.cast
    exact List.ne_nil_of_mem hballot
  have hname : ∀ {candidateId issuanceId issuanceId'},
      Strongest seats ballots (fun _ ↦ True) candidateId issuanceId →
        Unanimously ballots issuanceId' → issuanceId = issuanceId' := by
    intro candidateId issuanceId issuanceId' hstrongest hunanimous
    obtain ⟨ballot, hballot, -, hchoice⟩ := hstrongest.cast
    exact hchoice.symm.trans (hunanimous ballot hballot)
  -- any two verdicts exclude each other by the ballots, their unanimity or the quorum
  cases h with
  | undetected hempty =>
    cases h' with
    | undetected _ => rfl
    | conflicting _ hstrongest => exact absurd hempty (hcast hstrongest)
    | decoded _ hstrongest _ => exact absurd hempty (hcast hstrongest)
    | weak _ hstrongest _ => exact absurd hempty (hcast hstrongest)
  | conflicting hconflict hstrongest =>
    cases h' with
    | undetected hempty => exact absurd hempty (hcast hstrongest)
    | conflicting _ hstrongest' => rw [hstrongest.strength_eq hstrongest']
    | decoded hunanimous' _ _ => exact absurd hunanimous' (hconflict _)
    | weak hunanimous' _ _ => exact absurd hunanimous' (hconflict _)
  | decoded hunanimous hstrongest hquorate =>
    cases h' with
    | undetected hempty => exact absurd hempty (hcast hstrongest)
    | conflicting hconflict _ => exact absurd hunanimous (hconflict _)
    | decoded hunanimous' hstrongest' _ =>
      rw [hstrongest.strength_eq hstrongest', hname hstrongest hunanimous']
    | weak _ hstrongest' hquorate' =>
      rw [hstrongest.strength_eq hstrongest'] at hquorate
      exact absurd hquorate hquorate'
  | weak hunanimous hstrongest hquorate =>
    cases h' with
    | undetected hempty => exact absurd hempty (hcast hstrongest)
    | conflicting hconflict _ => exact absurd hunanimous (hconflict _)
    | decoded _ hstrongest' hquorate' =>
      rw [hstrongest.strength_eq hstrongest'] at hquorate
      exact absurd hquorate' hquorate
    | weak _ hstrongest' _ => rw [hstrongest.strength_eq hstrongest']

/-- Two ids are never attributed. -/
theorem VerdictV3.conflicting_ids {seats : String → Nat} {ballots : List TileBallot}
    {geometryConfidence : ℚ} {verdict : Verdict DecodeV3Status} {ballot other : TileBallot}
    (h : VerdictV3 seats ballots geometryConfidence verdict) (hballot : ballot ∈ ballots)
    (hother : other ∈ ballots) (hne : ballot.choice ≠ other.choice) :
    verdict.status ≠ .decoded ∧ verdict.issuanceId = none := by
  cases h with
  | undetected _ => exact ⟨DecodeV3Status.noConfusion, rfl⟩
  | conflicting _ _ => exact ⟨DecodeV3Status.noConfusion, rfl⟩
  | weak _ _ _ => exact ⟨DecodeV3Status.noConfusion, rfl⟩
  | decoded hunanimous _ _ =>
    exact absurd ((hunanimous ballot hballot).trans (hunanimous other hother).symm) hne

theorem strongestIdentity_strongest {votes : List PayloadVoteV3}
    {profiles : List FingerprintV3Profile} {group : IdentityGroup}
    (h : strongestIdentity (byIdentity votes) profiles = some group) :
    Strongest (repetitionsOfV3 profiles) (votes.map (·.ballot)) (fun _ ↦ True) group.candidateId
        group.issuanceId ∧
      toLex (group.support profiles, group.supporting.length) =
        strength (repetitionsOfV3 profiles) (votes.map (·.ballot)) group.candidateId
          group.issuanceId := by
  obtain ⟨vote, hvote, rfl⟩ := mem_byIdentity.mp (List.argmax_mem h)
  have hstrength := identityGroup_strength votes profiles vote.candidateId vote.issuanceId
  refine ⟨⟨⟨vote.ballot, List.mem_map_of_mem hvote, rfl, rfl⟩, trivial, ?_⟩, hstrength⟩
  intro ballot hballot _
  obtain ⟨other, hother, rfl⟩ := List.mem_map.mp hballot
  have hle := List.le_of_mem_argmax (mem_byIdentity.mpr ⟨other, hother, rfl⟩) h
  rw [hstrength, identityGroup_strength] at hle
  exact hle

/-- The votes of V3 are decided by their ballots. -/
theorem decidePayloadVotesV3_verdict (votes : List PayloadVoteV3)
    (profiles : List FingerprintV3Profile) (geometryConfidence : ℚ) :
    ∃ decision, decidePayloadVotesV3 votes profiles geometryConfidence = .ok decision ∧
      VerdictV3 (repetitionsOfV3 profiles) (votes.map (·.ballot)) geometryConfidence
        decision.verdict := by
  rw [decidePayloadVotesV3]
  dsimp only
  by_cases hgroups : byIdentity votes = []
  · rw [if_pos hgroups]
    refine ⟨_, rfl, .undetected ?_⟩
    rw [List.map_eq_nil_iff, List.eq_nil_iff_forall_not_mem]
    intro vote hvote
    have hgroup := mem_byIdentity.mpr ⟨vote, hvote, rfl⟩
    rw [hgroups] at hgroup
    exact List.not_mem_nil hgroup
  rw [if_neg hgroups]
  obtain ⟨strongest, hfound⟩ : ∃ group, strongestIdentity (byIdentity votes) profiles = some group := by
    rw [← Option.isSome_iff_exists, Option.isSome_iff_ne_none, strongestIdentity, ne_eq,
      List.argmax_eq_none]
    exact hgroups
  obtain ⟨hstrongest, hstrength⟩ := strongestIdentity_strongest hfound
  rw [hfound, found_some, ok_bind]
  refine ⟨_, rfl, ?_⟩
  by_cases hconflict : 1 < (votes.map (·.issuanceId)).eraseDups.length
  · -- two issuances
    rw [identityStatus, if_pos hconflict]
    have hnone : ∀ issuanceId, ¬ Unanimously (votes.map (·.ballot)) issuanceId := by
      intro issuanceId hunanimous
      obtain ⟨id, hid, other, hother, hne⟩ := Distinct.one_lt_length_eraseDups.mp hconflict
      obtain ⟨vote, hvote, rfl⟩ := List.mem_map.mp hid
      obtain ⟨vote', hvote', rfl⟩ := List.mem_map.mp hother
      exact hne ((hunanimous vote.ballot (List.mem_map_of_mem hvote)).trans
        (hunanimous vote'.ballot (List.mem_map_of_mem hvote')).symm)
    have hverdict : VerdictV3 (repetitionsOfV3 profiles) (votes.map (·.ballot))
        geometryConfidence _ := .conflicting hnone hstrongest
    rw [← hstrength] at hverdict
    exact hverdict
  have hunanimous : Unanimously (votes.map (·.ballot)) strongest.issuanceId := by
    intro ballot hballot
    obtain ⟨named, hnamed, -, hchoice⟩ := hstrongest.cast
    rw [← hchoice]
    by_contra hne
    obtain ⟨vote, hvote, rfl⟩ := List.mem_map.mp hballot
    obtain ⟨other, hother, rfl⟩ := List.mem_map.mp hnamed
    exact hconflict (Distinct.one_lt_length_eraseDups.mpr ⟨vote.issuanceId,
      List.mem_map_of_mem hvote, other.issuanceId, List.mem_map_of_mem hother, hne⟩)
  rw [identityStatus, if_neg hconflict]
  by_cases hquorate : 2 ≤ strongest.supporting.length ∧
      candidateSupportThreshold ≤ strongest.support profiles
  · have hverdict : VerdictV3 (repetitionsOfV3 profiles) (votes.map (·.ballot))
        geometryConfidence _ := .decoded hunanimous hstrongest (hstrength ▸ hquorate)
    rw [← hstrength] at hverdict
    rw [if_pos hquorate]
    exact hverdict
  · have hverdict : VerdictV3 (repetitionsOfV3 profiles) (votes.map (·.ballot))
        geometryConfidence _ := .weak hunanimous hstrongest (hstrength ▸ hquorate)
    rw [← hstrength] at hverdict
    rw [if_neg hquorate]
    exact hverdict

end Splitbind
