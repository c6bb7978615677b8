import Splitbind.Fingerprint.Decision
import Splitbind.Library.Distinct
import Splitbind.Library.Quorum

/-!
# Ballots of V2 — which tiles of which profile name which issuance

The decision on V2 votes refuses a tile that votes in two ways, and reads all other votes as ballots:
its status, issuance, confidence and number of votes depend on nothing else.
-/

namespace Splitbind

open Transaction Quorum

/-! ## 1. What a decision says -/

/-- A decision apart from its bit error rate. -/
structure Verdict (σ : Type) where
  status : σ
  issuanceId : Option UUID
  confidence : ℚ
  validVotes : Nat
deriving DecidableEq, Repr

/-- A verdict on a choice of the given strength. -/
def Verdict.rated {σ : Type} (status : σ) (issuanceId : Option UUID) (strength : ℚ ×ₗ Nat) :
    Verdict σ :=
  ⟨status, issuanceId, (ofLex strength).1, (ofLex strength).2⟩

def DecodeV2Decision.verdict (decision : DecodeV2Decision) : Verdict DecodeStatus :=
  ⟨decision.status, decision.issuanceId, decision.confidence, decision.validVotes⟩

abbrev TileBallot := Ballot String Nat UUID

/-- Two votes or more, of at least 0.60 of the repetitions. -/
def Quorate (strength : ℚ ×ₗ Nat) : Prop :=
  2 ≤ (ofLex strength).2 ∧ candidateSupportThreshold ≤ (ofLex strength).1

def Unanimously (ballots : List TileBallot) (issuanceId : UUID) : Prop :=
  ∀ ballot ∈ ballots, ballot.choice = issuanceId

/-! ## 2. One vote of a tile -/

def PayloadVoteV2.ballot (vote : PayloadVoteV2) : TileBallot :=
  ⟨vote.candidateId, vote.tileOrdinal, vote.issuanceId⟩

/-- The votes come from one tile of one profile. -/
def PayloadVoteV2.SameProvenance (vote other : PayloadVoteV2) : Prop :=
  vote.candidateId = other.candidateId ∧ vote.tileOrdinal = other.tileOrdinal

/-- No tile votes in two ways. -/
def Consistent (votes : List PayloadVoteV2) : Prop :=
  ∀ vote ∈ votes, ∀ other ∈ votes, vote.SameProvenance other → vote = other

def conflictingEvidence : Raised := .value "duplicate V2 tile provenance has conflicting evidence"

theorem Consistent.subset {votes votes' : List PayloadVoteV2} (h : Consistent votes')
    (hsubset : votes ⊆ votes') : Consistent votes :=
  fun vote hvote other hother ↦ h vote (hsubset hvote) other (hsubset hother)

theorem addVote_of_mem {unique : List PayloadVoteV2} {vote : PayloadVoteV2}
    (hunique : Consistent unique) (hvote : vote ∈ unique) :
    addVote unique vote = .ok unique := by
  unfold addVote
  split
  · rename_i existing hfound
    have hsame := List.find?_some hfound
    rw [decide_eq_true_eq] at hsame
    rw [if_pos (hunique existing (List.mem_of_find?_eq_some hfound) vote hvote hsame)]
  · rename_i hfound
    have hnone := List.find?_eq_none.mp hfound vote hvote
    rw [decide_eq_true_eq] at hnone
    exact absurd ⟨rfl, rfl⟩ hnone

theorem addVote_of_new {unique : List PayloadVoteV2} {vote : PayloadVoteV2}
    (hnew : ∀ existing ∈ unique, ¬ existing.SameProvenance vote) :
    addVote unique vote = .ok (unique ++ [vote]) := by
  unfold addVote
  split
  · rename_i existing hfound
    have hsame := List.find?_some hfound
    rw [decide_eq_true_eq] at hsame
    exact absurd hsame (hnew existing (List.mem_of_find?_eq_some hfound))
  · rfl

theorem addVote_conflicting {unique : List PayloadVoteV2} {existing vote : PayloadVoteV2}
    (hunique : Consistent unique) (hexisting : existing ∈ unique)
    (hsame : existing.SameProvenance vote) (hne : existing ≠ vote) :
    addVote unique vote = .error conflictingEvidence := by
  unfold addVote
  split
  · rename_i found hfound
    have hfoundSame := List.find?_some hfound
    rw [decide_eq_true_eq] at hfoundSame
    have heq : found = existing :=
      hunique found (List.mem_of_find?_eq_some hfound) existing hexisting
        ⟨hfoundSame.1.trans hsame.1.symm, hfoundSame.2.trans hsame.2.symm⟩
    rw [heq, if_neg hne]
    rfl
  · rename_i hfound
    have hnone := List.find?_eq_none.mp hfound existing hexisting
    rw [decide_eq_true_eq] at hnone
    exact absurd hsame hnone

/-- Consistent votes are collected without their repetitions. -/
theorem foldlM_addVote_consistent {votes unique : List PayloadVoteV2} (hnodup : unique.Nodup)
    (hconsistent : Consistent (unique ++ votes)) :
    ∃ unique', votes.foldlM addVote unique = .ok unique' ∧ unique'.Nodup ∧
      ∀ vote, vote ∈ unique' ↔ vote ∈ unique ++ votes := by
  induction votes generalizing unique with
  | nil => exact ⟨unique, rfl, hnodup, fun vote ↦ by rw [List.append_nil]⟩
  | cons vote votes ih =>
    have hunique : Consistent unique := hconsistent.subset (List.subset_append_left _ _)
    rw [List.foldlM_cons]
    by_cases hvote : vote ∈ unique
    · -- a repetition changes nothing
      rw [addVote_of_mem hunique hvote, ok_bind]
      have hrest : Consistent (unique ++ votes) := by
        apply hconsistent.subset
        intro other hother
        rw [List.mem_append] at hother ⊢
        exact hother.imp_right (List.mem_cons_of_mem vote)
      obtain ⟨unique', hfold, hnodup', hmem⟩ := ih hnodup hrest
      refine ⟨unique', hfold, hnodup', fun other ↦ ?_⟩
      rw [hmem, List.mem_append, List.mem_append, List.mem_cons]
      constructor
      · exact Or.imp_right Or.inr
      · rintro (hother | rfl | hother)
        · exact .inl hother
        · exact .inl hvote
        · exact .inr hother
    · have hnew : ∀ existing ∈ unique, ¬ existing.SameProvenance vote := by
        intro existing hexisting hsame
        have heq := hconsistent existing (List.mem_append_left _ hexisting) vote
          (List.mem_append_right _ List.mem_cons_self) hsame
        exact hvote (heq ▸ hexisting)
      rw [addVote_of_new hnew, ok_bind]
      have hassoc : unique ++ [vote] ++ votes = unique ++ vote :: votes := by
        rw [List.append_assoc, List.singleton_append]
      have hnodup' : (unique ++ [vote]).Nodup := by
        rw [List.nodup_append]
        refine ⟨hnodup, List.nodup_singleton vote, fun existing hexisting other hother heq ↦ ?_⟩
        rw [List.mem_singleton.mp hother] at heq
        exact hvote (heq ▸ hexisting)
      have h := ih hnodup' (by rw [hassoc]; exact hconsistent)
      rw [hassoc] at h
      exact h

/-- Votes that conflict are refused, wherever they stand. -/
theorem foldlM_addVote_conflicting {votes unique : List PayloadVoteV2}
    (hunique : Consistent unique) (hconflict : ¬ Consistent (unique ++ votes)) :
    votes.foldlM addVote unique = .error conflictingEvidence := by
  induction votes generalizing unique with
  | nil =>
    rw [List.append_nil] at hconflict
    exact absurd hunique hconflict
  | cons vote votes ih =>
    rw [List.foldlM_cons]
    by_cases hvote : vote ∈ unique
    · rw [addVote_of_mem hunique hvote, ok_bind]
      refine ih hunique fun hconsistent ↦ hconflict (hconsistent.subset ?_)
      intro other hother
      rw [List.mem_append, List.mem_cons] at hother
      rw [List.mem_append]
      rcases hother with hother | rfl | hother
      · exact .inl hother
      · exact .inl hvote
      · exact .inr hother
    by_cases hnew : ∀ existing ∈ unique, ¬ existing.SameProvenance vote
    · rw [addVote_of_new hnew, ok_bind]
      apply ih
      · -- the new vote comes from another tile than those before it
        intro first hfirst second hsecond hsame
        rw [List.mem_append, List.mem_singleton] at hfirst hsecond
        rcases hfirst with hfirst | rfl
        · rcases hsecond with hsecond | rfl
          · exact hunique first hfirst second hsecond hsame
          · exact absurd hsame (hnew first hfirst)
        · rcases hsecond with hsecond | rfl
          · exact absurd ⟨hsame.1.symm, hsame.2.symm⟩ (hnew second hsecond)
          · rfl
      · rw [List.append_assoc, List.singleton_append]
        exact hconflict
    · push Not at hnew
      obtain ⟨existing, hexisting, hsame⟩ := hnew
      have hne : existing ≠ vote := fun heq ↦ hvote (heq ▸ hexisting)
      rw [addVote_conflicting hunique hexisting hsame hne, error_bind]

/-- A vote that was cast before is not collected again. -/
theorem foldlM_addVote_repeat {earlier later : List PayloadVoteV2} {vote : PayloadVoteV2}
    (hvote : vote ∈ earlier) :
    (earlier ++ vote :: later).foldlM addVote [] = (earlier ++ later).foldlM addVote [] := by
  rw [List.foldlM_append, List.foldlM_append]
  by_cases hconsistent : Consistent earlier
  · obtain ⟨unique, hfold, -, hmem⟩ :=
      foldlM_addVote_consistent List.nodup_nil (show Consistent ([] ++ earlier) from hconsistent)
    rw [List.nil_append] at hmem
    have hunique : Consistent unique :=
      hconsistent.subset fun other hother ↦ (hmem other).mp hother
    rw [hfold, ok_bind, ok_bind, List.foldlM_cons, addVote_of_mem hunique ((hmem vote).mpr hvote),
      ok_bind]
  · have hempty : Consistent [] := fun other hother ↦ absurd hother List.not_mem_nil
    have hfold := foldlM_addVote_conflicting hempty
      (show ¬ Consistent ([] ++ earlier) from hconsistent)
    rw [hfold, error_bind, error_bind]

/-! ## 3. The groups are the ballots' strengths -/

/-- The votes collected for an issuance under a candidate. -/
def supportGroup (unique : List PayloadVoteV2) (profiles : List FingerprintV2Profile)
    (candidateId : String) (issuanceId : UUID) : SupportGroup :=
  let supporting := (unique.filter (·.candidateId = candidateId)).filter
    (·.issuanceId = issuanceId)
  ⟨candidateId, issuanceId, supporting.length / repetitionsOf profiles candidateId, supporting⟩

theorem mem_supportGroups_iff {unique : List PayloadVoteV2}
    {profiles : List FingerprintV2Profile} {group : SupportGroup} :
    group ∈ supportGroups unique profiles ↔
      ∃ vote ∈ unique, group = supportGroup unique profiles vote.candidateId vote.issuanceId := by
  simp only [supportGroups, List.mem_flatMap, List.mem_map, List.mem_eraseDups]
  constructor
  · rintro ⟨_, -, _, ⟨vote, hvote, rfl⟩, rfl⟩
    rw [List.mem_filter, decide_eq_true_eq] at hvote
    obtain ⟨hvote, rfl⟩ := hvote
    exact ⟨vote, hvote, rfl⟩
  · rintro ⟨vote, hvote, rfl⟩
    exact ⟨vote.candidateId, ⟨vote, hvote, rfl⟩, vote.issuanceId,
      ⟨vote, List.mem_filter.mpr ⟨hvote, decide_eq_true rfl⟩, rfl⟩, rfl⟩

theorem nodup_ballots {unique : List PayloadVoteV2} (hnodup : unique.Nodup)
    (hconsistent : Consistent unique) : (unique.map (·.ballot)).Nodup := by
  apply hnodup.map_on
  intro vote hvote other hother hballot
  have hcandidate : vote.candidateId = other.candidateId := congrArg Ballot.candidate hballot
  have htile : vote.tileOrdinal = other.tileOrdinal := congrArg Ballot.place hballot
  exact hconsistent vote hvote other hother ⟨hcandidate, htile⟩

/-- A group is as strong as its issuance's ballots. -/
theorem supportGroup_strength {unique : List PayloadVoteV2} (hnodup : unique.Nodup)
    (hconsistent : Consistent unique) (profiles : List FingerprintV2Profile)
    (candidateId : String) (issuanceId : UUID) :
    toLex ((supportGroup unique profiles candidateId issuanceId).support,
        (supportGroup unique profiles candidateId issuanceId).supporting.length) =
      strength (repetitionsOf profiles) (unique.map (·.ballot)) candidateId issuanceId := by
  have hlength : (supportGroup unique profiles candidateId issuanceId).supporting.length =
      (places (unique.map (·.ballot)) candidateId issuanceId).card := by
    rw [card_places_of_nodup (nodup_ballots hnodup hconsistent), List.filter_map, List.length_map,
      supportGroup, List.filter_filter]
    congr 1
    apply List.filter_congr
    intro vote _
    rw [Function.comp_apply, ← Bool.decide_and]
    exact decide_eq_decide.mpr and_comm
  rw [strength, ← hlength]
  rfl

theorem SupportGroup.eligible_iff {group : SupportGroup} :
    group.eligible = true ↔ Quorate (toLex (group.support, group.supporting.length)) := by
  rw [SupportGroup.eligible, decide_eq_true_eq]
  exact Iff.rfl

/-- The strongest of the admitted groups is a strongest choice of the ballots. -/
theorem strongestGroup_strongest {unique : List PayloadVoteV2} (hnodup : unique.Nodup)
    (hconsistent : Consistent unique) {profiles : List FingerprintV2Profile}
    (admitted : ℚ ×ₗ Nat → Prop) {groups : List SupportGroup} {group : SupportGroup}
    (hgroups : ∀ group, group ∈ groups ↔ group ∈ supportGroups unique profiles ∧
      admitted (toLex (group.support, group.supporting.length)))
    (h : strongestGroup groups = some group) :
    Strongest (repetitionsOf profiles) (unique.map (·.ballot)) admitted group.candidateId
        group.issuanceId ∧
      toLex (group.support, group.supporting.length) =
        strength (repetitionsOf profiles) (unique.map (·.ballot)) group.candidateId
          group.issuanceId := by
  obtain ⟨hgroup, hadmitted⟩ := (hgroups group).mp (strongestGroup_mem h)
  obtain ⟨vote, hvote, rfl⟩ := mem_supportGroups_iff.mp hgroup
  have hstrength := supportGroup_strength hnodup hconsistent profiles vote.candidateId
    vote.issuanceId
  refine ⟨⟨⟨vote.ballot, List.mem_map_of_mem hvote, rfl, rfl⟩, ?_, ?_⟩, hstrength⟩
  · rw [hstrength] at hadmitted
    exact hadmitted
  · intro ballot hballot hadmits
    obtain ⟨other, hother, rfl⟩ := List.mem_map.mp hballot
    have hotherStrength := supportGroup_strength hnodup hconsistent profiles other.candidateId
      other.issuanceId
    have hmem : supportGroup unique profiles other.candidateId other.issuanceId ∈ groups := by
      rw [hgroups]
      refine ⟨mem_supportGroups_iff.mpr ⟨other, hother, rfl⟩, ?_⟩
      rw [hotherStrength]
      exact hadmits
    have hle := List.le_of_mem_argmax hmem h
    rw [hstrength, hotherStrength] at hle
    exact hle

/-! ## 4. The verdict -/

/-- What the ballots of V2 say. -/
inductive VerdictV2 (seats : String → Nat) (ballots : List TileBallot) (geometryConfidence : ℚ) :
    Verdict DecodeStatus → Prop
  | undetected (hempty : ballots = []) :
    VerdictV2 seats ballots geometryConfidence ⟨.payloadNotDetected, none, geometryConfidence, 0⟩
  | decoded {candidateId : String} {issuanceId : UUID}
    (hunanimous : Unanimously ballots issuanceId)
    (hstrongest : Strongest seats ballots Quorate candidateId issuanceId) :
    VerdictV2 seats ballots geometryConfidence
      (.rated .decoded (some issuanceId) (strength seats ballots candidateId issuanceId))
  | undecided {candidateId : String} {issuanceId : UUID}
    (hnone : ∀ candidateId issuanceId, Unanimously ballots issuanceId →
      ¬ Strongest seats ballots Quorate candidateId issuanceId)
    (hstrongest : Strongest seats ballots (fun _ ↦ True) candidateId issuanceId) :
    VerdictV2 seats ballots geometryConfidence
      (.rated .partialPayloadEvidence none (strength seats ballots candidateId issuanceId))

theorem Unanimously.congr {ballots ballots' : List TileBallot} {issuanceId : UUID}
    (h : ∀ ballot, ballot ∈ ballots ↔ ballot ∈ ballots')
    (hunanimous : Unanimously ballots issuanceId) : Unanimously ballots' issuanceId :=
  fun ballot hballot ↦ hunanimous ballot ((h ballot).mpr hballot)

/-- The verdict rests on which ballots were cast. -/
theorem VerdictV2.congr {seats : String → Nat} {ballots ballots' : List TileBallot}
    {geometryConfidence : ℚ} {verdict : Verdict DecodeStatus}
    (h : ∀ ballot, ballot ∈ ballots ↔ ballot ∈ ballots')
    (hverdict : VerdictV2 seats ballots geometryConfidence verdict) :
    VerdictV2 seats ballots' geometryConfidence verdict := by
  cases hverdict with
  | undetected hempty =>
    apply VerdictV2.undetected
    rw [List.eq_nil_iff_forall_not_mem]
    intro ballot hballot
    rw [← h, hempty] at hballot
    exact List.not_mem_nil hballot
  | decoded hunanimous hstrongest =>
    rw [strength_congr h]
    exact .decoded (hunanimous.congr h) (hstrongest.congr h)
  | undecided hnone hstrongest =>
    rw [strength_congr h]
    refine .undecided (fun candidateId issuanceId hunanimous hstrongest ↦ ?_) (hstrongest.congr h)
    have hback : ∀ ballot, ballot ∈ ballots' ↔ ballot ∈ ballots := fun ballot ↦ (h ballot).symm
    exact hnone candidateId issuanceId (hunanimous.congr hback) (hstrongest.congr hback)

/-- The ballots have one verdict. -/
theorem VerdictV2.unique {seats : String → Nat} {ballots : List TileBallot}
    {geometryConfidence : ℚ} {verdict verdict' : Verdict DecodeStatus}
    (h : VerdictV2 seats ballots geometryConfidence verdict)
    (h' : VerdictV2 seats ballots geometryConfidence verdict') : verdict = verdict' := by
  cases h with
  | undetected hempty =>
    subst hempty
    cases h' with
    | undetected _ => rfl
    | decoded _ hstrongest =>
      obtain ⟨ballot, hballot, -⟩ := hstrongest.cast
      exact absurd hballot List.not_mem_nil
    | undecided _ hstrongest =>
      obtain ⟨ballot, hballot, -⟩ := hstrongest.cast
      exact absurd hballot List.not_mem_nil
  | decoded hunanimous hstrongest =>
    obtain ⟨ballot, hballot, -, hchoice⟩ := hstrongest.cast
    cases h' with
    | undetected hempty =>
      rw [hempty] at hballot
      exact absurd hballot List.not_mem_nil
    | decoded hunanimous' hstrongest' =>
      have hsame := hunanimous' ballot hballot
      rw [hchoice] at hsame
      subst hsame
      rw [hstrongest.strength_eq hstrongest']
    | undecided hnone _ => exact absurd hstrongest (hnone _ _ hunanimous)
  | undecided hnone hstrongest =>
    cases h' with
    | undetected hempty =>
      obtain ⟨ballot, hballot, -⟩ := hstrongest.cast
      rw [hempty] at hballot
      exact absurd hballot List.not_mem_nil
    | decoded hunanimous' hstrongest' => exact absurd hstrongest' (hnone _ _ hunanimous')
    | undecided _ hstrongest' => rw [hstrongest.strength_eq hstrongest']

theorem strongestGroup_ne_none {groups : List SupportGroup} (h : groups ≠ []) :
    ∃ group, strongestGroup groups = some group := by
  rw [← Option.isSome_iff_exists, Option.isSome_iff_ne_none, strongestGroup, ne_eq,
    List.argmax_eq_none]
  exact h

/-- Consistent votes are decided by their ballots. -/
theorem decidePayloadVotes_verdict {votes : List PayloadVoteV2} (hconsistent : Consistent votes)
    (profiles : List FingerprintV2Profile) (geometryConfidence : ℚ) :
    ∃ decision, decidePayloadVotes votes profiles geometryConfidence = .ok decision ∧
      VerdictV2 (repetitionsOf profiles) (votes.map (·.ballot)) geometryConfidence
        decision.verdict := by
  -- votes that agree are counted once each
  obtain ⟨unique, hfold, hnodup, hmem⟩ :=
    foldlM_addVote_consistent List.nodup_nil (show Consistent ([] ++ votes) from hconsistent)
  rw [List.nil_append] at hmem
  have hunique : Consistent unique :=
    hconsistent.subset fun vote hvote ↦ (hmem vote).mp hvote
  have hballots : ∀ ballot,
      ballot ∈ unique.map (·.ballot) ↔ ballot ∈ votes.map (·.ballot) := by
    intro ballot
    rw [List.mem_map, List.mem_map]
    exact exists_congr fun vote ↦ and_congr_left' (hmem vote)
  rw [decidePayloadVotes, hfold, ok_bind]
  by_cases hempty : unique = []
  · rw [if_pos hempty]
    subst hempty
    exact ⟨_, rfl, (VerdictV2.undetected rfl).congr hballots⟩
  rw [if_neg hempty]
  have hgroups : supportGroups unique profiles ≠ [] := supportGroups_ne_nil hempty
  dsimp only
  split
  · -- one issuance, and a quorum for it
    rename_i issuanceId first rest hids heligible
    obtain ⟨-, hsame⟩ := Distinct.eraseDups_eq_singleton.mp hids
    have hunanimous : Unanimously (unique.map (·.ballot)) issuanceId := by
      intro ballot hballot
      obtain ⟨vote, hvote, rfl⟩ := List.mem_map.mp hballot
      exact hsame _ (List.mem_map_of_mem hvote)
    have hissuance : ∀ group ∈ supportGroups unique profiles, group.issuanceId = issuanceId := by
      intro group hgroup
      obtain ⟨vote, hvote, rfl⟩ := mem_supportGroups_iff.mp hgroup
      exact hsame _ (List.mem_map_of_mem hvote)
    have hmembers : ∀ group, group ∈ ((supportGroups unique profiles).filter (·.eligible)).filter
        (·.issuanceId = issuanceId) ↔ group ∈ supportGroups unique profiles ∧
          Quorate (toLex (group.support, group.supporting.length)) := by
      intro group
      rw [List.mem_filter, List.mem_filter, decide_eq_true_eq, SupportGroup.eligible_iff]
      exact ⟨And.left, fun h ↦ ⟨h, hissuance group h.1⟩⟩
    have hfirst : first ∈ (supportGroups unique profiles).filter (·.eligible) := by
      rw [heligible]
      exact List.mem_cons_self
    have hwinners : ((supportGroups unique profiles).filter (·.eligible)).filter
        (·.issuanceId = issuanceId) ≠ [] := by
      have hfirstId := hissuance first (List.mem_filter.mp hfirst).1
      exact List.ne_nil_of_mem (List.mem_filter.mpr ⟨hfirst, decide_eq_true hfirstId⟩)
    obtain ⟨winner, hwinner⟩ := strongestGroup_ne_none hwinners
    obtain ⟨hstrongest, hstrength⟩ := strongestGroup_strongest hnodup hunique Quorate hmembers hwinner
    have hwinnerId : winner.issuanceId = issuanceId :=
      hissuance winner ((hmembers winner).mp (strongestGroup_mem hwinner)).1
    rw [hwinnerId] at hstrongest hstrength
    refine ⟨winner.decision (some issuanceId) .decoded, ?_, ?_⟩
    · rw [hwinner]
      rfl
    · have hverdict : VerdictV2 (repetitionsOf profiles) (unique.map (·.ballot))
          geometryConfidence _ := .decoded hunanimous hstrongest
      rw [← hstrength] at hverdict
      exact hverdict.congr hballots
  · -- no issuance is named
    rename_i hother
    obtain ⟨strongest, hfound⟩ := strongestGroup_ne_none hgroups
    obtain ⟨hstrongest, hstrength⟩ := strongestGroup_strongest hnodup hunique (fun _ ↦ True)
      (fun group ↦ (and_iff_left trivial).symm) hfound
    refine ⟨strongest.decision none .partialPayloadEvidence, ?_, ?_⟩
    · rw [hfound]
      rfl
    · -- a winner named by all would have been the first case
      have hnone : ∀ candidateId issuanceId,
          Unanimously (unique.map (·.ballot)) issuanceId →
            ¬ Strongest (repetitionsOf profiles) (unique.map (·.ballot)) Quorate candidateId
              issuanceId := by
        intro candidateId issuanceId hunanimous hquorate
        obtain ⟨ballot, hballot, rfl, rfl⟩ := hquorate.cast
        obtain ⟨vote, hvote, rfl⟩ := List.mem_map.mp hballot
        have hids : (unique.map (·.issuanceId)).eraseDups = [vote.issuanceId] := by
          rw [Distinct.eraseDups_eq_singleton]
          refine ⟨List.mem_map_of_mem hvote, fun id hid ↦ ?_⟩
          obtain ⟨other, hmemOther, rfl⟩ := List.mem_map.mp hid
          exact hunanimous other.ballot (List.mem_map_of_mem hmemOther)
        have heligible : supportGroup unique profiles vote.candidateId vote.issuanceId ∈
            (supportGroups unique profiles).filter (·.eligible) := by
          rw [List.mem_filter, SupportGroup.eligible_iff,
            supportGroup_strength hnodup hunique]
          exact ⟨mem_supportGroups_iff.mpr ⟨vote, hvote, rfl⟩, hquorate.admits⟩
        obtain ⟨first, rest, hcons⟩ := List.exists_cons_of_ne_nil (List.ne_nil_of_mem heligible)
        exact hother _ _ _ hids hcons
      have hverdict : VerdictV2 (repetitionsOf profiles) (unique.map (·.ballot))
          geometryConfidence _ := .undecided hnone hstrongest
      rw [← hstrength] at hverdict
      exact hverdict.congr hballots

theorem decidePayloadVotes_conflicting {votes : List PayloadVoteV2}
    (hconflict : ¬ Consistent votes) (profiles : List FingerprintV2Profile)
    (geometryConfidence : ℚ) :
    decidePayloadVotes votes profiles geometryConfidence = .error conflictingEvidence := by
  have hempty : Consistent [] := fun other hother ↦ absurd hother List.not_mem_nil
  have hfold := foldlM_addVote_conflicting hempty (show ¬ Consistent ([] ++ votes) from hconflict)
  rw [decidePayloadVotes, hfold, error_bind]

end Splitbind
