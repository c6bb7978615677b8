import Mathlib.Algebra.Order.Field.Basic
import Mathlib.Algebra.Order.Field.Rat
import Mathlib.Data.List.MinMax
import Mathlib.Data.Prod.Lex
import Splitbind.Demo.VerificationEvidence

/-!
# Fingerprint decision — what one canvas says about its payload

The image processing (alignment, tile extraction, error correction) is what a canvas *shows* of a
profile; the decisions `decode_fingerprint_v2` takes on it are those of the code.  Confidences are
exact rationals.
-/

namespace Splitbind

open Transaction

/-! ## 1. What a canvas shows -/

structure FingerprintV2Profile where
  /-- `candidate_identifier_v2`. -/
  identifier : String
  payloadRepetitions : Nat
deriving DecidableEq, Repr

/-- `accepted_decode_candidates`: both identifiers spell three payload repetitions. -/
def acceptedDecodeCandidates : List FingerprintV2Profile :=
  demoAcceptedCandidateIdentifiers.map fun identifier ↦ ⟨identifier, 3⟩

/-- A payload that `_decode_payload_vote` recovered from one tile. -/
structure TilePayload where
  issuanceId : UUID
  bitErrorRate : ℚ
deriving DecidableEq, Repr

/-- How `align_page_v2` ended, with the score it reports unless that is not finite; an aligned page is
cut into tiles, unless it is too small. -/
inductive Alignment
  | aligned (pilotScore : Option ℚ) (tiles : Option (List (Option TilePayload)))
  | geometryRejected
  | unaligned (pilotScore : Option ℚ)
deriving DecidableEq, Repr

/-- A page whose geometry is rejected is reported with the score zero. -/
def Alignment.pilotScore : Alignment → Option ℚ
  | .aligned pilotScore _ => pilotScore
  | .geometryRejected => some 0
  | .unaligned pilotScore => pilotScore

/-- What a canvas shows of a profile under a page index. -/
abbrev Canvas := FingerprintV2Profile → Nat → Alignment

/-! ## 2. Votes -/

structure PayloadVoteV2 where
  candidateId : String
  tileOrdinal : Nat
  issuanceId : UUID
  bitErrorRate : Option ℚ
deriving DecidableEq, Repr

structure DecodeV2Decision where
  issuanceId : Option UUID
  confidence : ℚ
  validVotes : Nat
  bitErrorRate : Option ℚ
  status : DecodeStatus
deriving DecidableEq, Repr

/-- The votes of one profile: one per tile that yields a payload, of the first
`payload_repetitions` tiles. -/
def profileVotes (profile : FingerprintV2Profile) (alignment : Alignment) : List PayloadVoteV2 :=
  match alignment with
  | .aligned _ (some tiles) =>
    (tiles.take profile.payloadRepetitions).zipIdx.filterMap fun (tile, ordinal) ↦
      tile.map fun payload ↦
        ⟨profile.identifier, ordinal, payload.issuanceId, some payload.bitErrorRate⟩
  | _ => []

/-- `unique.setdefault(provenance, vote)`, and the check after it. -/
def addVote (unique : List PayloadVoteV2) (vote : PayloadVoteV2) :
    Except Raised (List PayloadVoteV2) :=
  match unique.find? fun existing ↦
      existing.candidateId = vote.candidateId ∧ existing.tileOrdinal = vote.tileOrdinal with
  | some existing =>
    if existing = vote then .ok unique
    else .error (.value "duplicate V2 tile provenance has conflicting evidence")
  | none => .ok (unique ++ [vote])

structure SupportGroup where
  candidateId : String
  issuanceId : UUID
  support : ℚ
  supporting : List PayloadVoteV2
deriving DecidableEq, Repr

def repetitionsOf (profiles : List FingerprintV2Profile) (candidateId : String) : Nat :=
  ((profiles.find? (·.identifier = candidateId)).map (·.payloadRepetitions)).getD 0

/-- The votes by candidate and issuance, with the share of the repetitions they reach. -/
def supportGroups (unique : List PayloadVoteV2) (profiles : List FingerprintV2Profile) :
    List SupportGroup :=
  (unique.map (·.candidateId)).eraseDups.flatMap fun candidateId ↦
    let votes := unique.filter (·.candidateId = candidateId)
    (votes.map (·.issuanceId)).eraseDups.map fun issuanceId ↦
      let supporting := votes.filter (·.issuanceId = issuanceId)
      ⟨candidateId, issuanceId, supporting.length / repetitionsOf profiles candidateId, supporting⟩

def candidateSupportThreshold : ℚ := 3 / 5

def SupportGroup.eligible (group : SupportGroup) : Bool :=
  2 ≤ group.supporting.length ∧ candidateSupportThreshold ≤ group.support

/-- `max(groups, key=lambda group: (group[2], len(group[3])))`, the first of the largest. -/
def strongestGroup (groups : List SupportGroup) : Option SupportGroup :=
  groups.argmax fun group ↦ toLex (group.support, group.supporting.length)

def meanBitErrorRate (votes : List PayloadVoteV2) : Option ℚ :=
  let values := votes.filterMap (·.bitErrorRate)
  if values = [] then none else some (values.sum / values.length)

/-- The decision a group of votes supports. -/
def SupportGroup.decision (group : SupportGroup) (issuanceId : Option UUID)
    (status : DecodeStatus) : DecodeV2Decision :=
  ⟨issuanceId, group.support, group.supporting.length, meanBitErrorRate group.supporting, status⟩

def decidePayloadVotes (votes : List PayloadVoteV2) (profiles : List FingerprintV2Profile)
    (geometryConfidence : ℚ) : Except Raised DecodeV2Decision := do
  let unique ← votes.foldlM addVote []
  if unique = [] then
    return ⟨none, geometryConfidence, 0, none, .payloadNotDetected⟩
  else
    let groups := supportGroups unique profiles
    let eligible := groups.filter (·.eligible)
    match (unique.map (·.issuanceId)).eraseDups, eligible with
    | [issuanceId], _ :: _ =>
      let winner ← found (strongestGroup (eligible.filter (·.issuanceId = issuanceId)))
        (.value "max() arg is an empty sequence")
      return winner.decision (some issuanceId) .decoded
    | _, _ =>
      let strongest ← found (strongestGroup groups) (.value "max() arg is an empty sequence")
      return strongest.decision none .partialPayloadEvidence

/-! ## 3. One canvas -/

/-- `np.clip(score, -1.0, 1.0)`. -/
def clipScore (score : ℚ) : ℚ := max (-1) (min score 1)

/-- `_best_geometry_confidence`. -/
def bestGeometryConfidence (scores : List (Option ℚ)) : ℚ :=
  ((scores.filterMap id).map clipScore).max?.getD 0

/-- `decode_fingerprint_v2` under the given profiles. -/
def decodeFingerprintV2 (canvas : Canvas) (pageIndex : Nat) (profiles : List FingerprintV2Profile) :
    Except Raised DecodeV2Decision :=
  let alignments := profiles.map fun profile ↦ (profile, canvas profile pageIndex)
  let geometryConfidence := bestGeometryConfidence (alignments.map (·.2.pilotScore))
  if alignments.any fun (_, alignment) ↦ alignment matches .aligned _ _ then
    decidePayloadVotes (alignments.flatMap fun (profile, alignment) ↦
      profileVotes profile alignment) profiles geometryConfidence
  else if alignments.any fun (_, alignment) ↦ alignment = .geometryRejected then
    .ok ⟨none, geometryConfidence, 0, none, .geometryRejected⟩
  else .ok ⟨none, geometryConfidence, 0, none, .insufficientSyncEvidence⟩

def DecodeStatus.conclusive : DecodeStatus → Bool
  | .decoded => true
  | .partialPayloadEvidence => true
  | _ => false

/-- The loop of `_first_conclusive_decision`, with the fallback it has so far. -/
def firstConclusive (canvas : Canvas) (pageIndex : Nat) (fallback : Option DecodeV2Decision) :
    List FingerprintV2Profile → Except Raised DecodeV2Decision
  | [] => found fallback .other
  | candidate :: rest => do
    let decision ← decodeFingerprintV2 canvas pageIndex [candidate]
    if decision.status.conclusive then
      return decision
    else
      firstConclusive canvas pageIndex (fallback <|> some decision) rest

/-- `_first_conclusive_decision`. -/
def firstConclusiveDecision (canvas : Canvas) (pageIndex : Nat)
    (candidates : List FingerprintV2Profile) : Except Raised DecodeV2Decision :=
  firstConclusive canvas pageIndex none candidates

/-! ## 4. The range of a decision -/

theorem profileVotes_length (profile : FingerprintV2Profile) (alignment : Alignment) :
    (profileVotes profile alignment).length ≤ profile.payloadRepetitions := by
  unfold profileVotes
  split
  · rename_i tiles
    calc ((tiles.take profile.payloadRepetitions).zipIdx.filterMap _).length
        ≤ (tiles.take profile.payloadRepetitions).zipIdx.length := List.length_filterMap_le _ _
      _ ≤ profile.payloadRepetitions := by simp
  · simp

theorem profileVotes_candidateId {profile : FingerprintV2Profile} {alignment : Alignment}
    {vote : PayloadVoteV2} (h : vote ∈ profileVotes profile alignment) :
    vote.candidateId = profile.identifier := by
  unfold profileVotes at h
  split at h
  · simp only [List.mem_filterMap, Option.map_eq_some_iff] at h
    obtain ⟨⟨tile, ordinal⟩, -, payload, -, rfl⟩ := h
    rfl
  · simp at h

/-- One more vote keeps the votes collected so far, and adds that vote unless it is there. -/
theorem addVote_eq_ok {unique unique' : List PayloadVoteV2} {vote : PayloadVoteV2}
    (h : addVote unique vote = .ok unique') :
    vote ∈ unique ∧ unique' = unique ∨ unique' = unique ++ [vote] := by
  unfold addVote at h
  split at h
  · rename_i existing hfound
    split at h
    · rename_i heq
      exact .inl ⟨heq ▸ List.mem_of_find?_eq_some hfound, (Except.ok.inj h).symm⟩
    · simp at h
  · exact .inr (Except.ok.inj h).symm

/-- The collected votes are votes, no more of them, and some if there is any vote. -/
theorem foldlM_addVote_eq_ok {votes unique unique' : List PayloadVoteV2}
    (h : votes.foldlM addVote unique = .ok unique') :
    (∀ vote ∈ unique', vote ∈ unique ∨ vote ∈ votes) ∧
      unique'.length ≤ unique.length + votes.length ∧
      (unique' = [] → unique = [] ∧ votes = []) := by
  induction votes generalizing unique with
  | nil =>
    simp only [List.foldlM_nil, pure_eq_ok] at h
    subst h
    simp
  | cons vote votes ih =>
    simp only [List.foldlM_cons, bind_eq_ok] at h
    obtain ⟨middle, hadd, hrest⟩ := h
    obtain ⟨hmem, hlength, hnil⟩ := ih hrest
    rcases addVote_eq_ok hadd with ⟨hin, rfl⟩ | rfl
    · refine ⟨fun v hv ↦ (hmem v hv).imp_right (List.mem_cons_of_mem _), ?_, fun hempty ↦ ?_⟩
      · simp only [List.length_cons]
        omega
      · simp [(hnil hempty).1] at hin
    · refine ⟨fun v hv ↦ ?_, ?_, fun hempty ↦ ?_⟩
      · rcases hmem v hv with hv | hv
        · rcases List.mem_append.mp hv with hv | hv
          · exact .inl hv
          · exact .inr (List.mem_singleton.mp hv ▸ List.mem_cons_self)
        · exact .inr (List.mem_cons_of_mem _ hv)
      · simp only [List.length_append, List.length_cons, List.length_nil] at hlength ⊢
        omega
      · simp at hnil
        exact absurd hempty hnil

/-- A decision carries an id exactly when it is decoded. -/
theorem decidePayloadVotes_id {votes : List PayloadVoteV2} {profiles : List FingerprintV2Profile}
    {geometryConfidence : ℚ} {decision : DecodeV2Decision}
    (h : decidePayloadVotes votes profiles geometryConfidence = .ok decision) :
    decision.issuanceId.isSome = true ↔ decision.status = .decoded := by
  simp only [decidePayloadVotes, bind_eq_ok] at h
  obtain ⟨unique, -, h⟩ := h
  split at h
  · rw [pure_eq_ok] at h
    subst h
    simp
  · split at h
    · simp only [bind_eq_ok, pure_eq_ok] at h
      obtain ⟨winner, -, rfl⟩ := h
      simp [SupportGroup.decision]
    · simp only [bind_eq_ok, pure_eq_ok] at h
      obtain ⟨strongest, -, rfl⟩ := h
      simp [SupportGroup.decision]

/-- Every group rests on a vote, on no more votes than there are, and on one candidate's. -/
theorem mem_supportGroups {unique : List PayloadVoteV2} {profiles : List FingerprintV2Profile}
    {group : SupportGroup} (h : group ∈ supportGroups unique profiles) :
    (∃ vote ∈ unique, vote.candidateId = group.candidateId) ∧ group.supporting ≠ [] ∧
      group.supporting.length ≤ unique.length ∧
      group.support = group.supporting.length / repetitionsOf profiles group.candidateId := by
  simp only [supportGroups, List.mem_flatMap, List.mem_map, List.mem_eraseDups] at h
  obtain ⟨candidateId, ⟨vote, hvote, rfl⟩, issuanceId, ⟨supporter, hsupporter, rfl⟩, rfl⟩ := h
  refine ⟨⟨vote, hvote, rfl⟩, ?_, ?_, rfl⟩
  · exact List.ne_nil_of_mem (List.mem_filter.mpr ⟨hsupporter, by simp⟩)
  · exact (List.length_filter_le _ _).trans (List.length_filter_le _ _)

theorem supportGroups_ne_nil {unique : List PayloadVoteV2} {profiles : List FingerprintV2Profile}
    (h : unique ≠ []) : supportGroups unique profiles ≠ [] := by
  obtain ⟨vote, hvote⟩ := List.exists_mem_of_ne_nil _ h
  intro hnil
  have hcandidate : vote.candidateId ∈ (unique.map (·.candidateId)).eraseDups :=
    List.mem_eraseDups.mpr (List.mem_map_of_mem hvote)
  have hissuance : vote.issuanceId ∈
      ((unique.filter (·.candidateId = vote.candidateId)).map (·.issuanceId)).eraseDups :=
    List.mem_eraseDups.mpr
      (List.mem_map_of_mem (List.mem_filter.mpr ⟨hvote, by simp⟩))
  simp only [supportGroups, List.flatMap_eq_nil_iff, List.map_eq_nil_iff] at hnil
  rw [hnil _ hcandidate] at hissuance
  simp at hissuance

/-- Under one profile that can be repeated, the share of a group is positive and at most one. -/
theorem support_range {unique : List PayloadVoteV2} {profile : FingerprintV2Profile}
    {group : SupportGroup} (h : group ∈ supportGroups unique [profile])
    (hids : ∀ vote ∈ unique, vote.candidateId = profile.identifier)
    (hlength : unique.length ≤ profile.payloadRepetitions) :
    0 < group.support ∧ group.support ≤ 1 := by
  obtain ⟨⟨vote, hvote, hcandidate⟩, hne, hle, hsupport⟩ := mem_supportGroups h
  have hrepetitions : repetitionsOf [profile] group.candidateId = profile.payloadRepetitions := by
    simp [repetitionsOf, ← hcandidate, hids vote hvote]
  have hpos : 0 < group.supporting.length := List.length_pos_iff.mpr hne
  have hall : group.supporting.length ≤ profile.payloadRepetitions := hle.trans hlength
  have hdenominator : (0 : ℚ) < profile.payloadRepetitions := by
    exact_mod_cast lt_of_lt_of_le hpos hall
  rw [hsupport, hrepetitions]
  refine ⟨div_pos (by exact_mod_cast hpos) hdenominator, ?_⟩
  rw [div_le_one hdenominator]
  exact_mod_cast hall

theorem strongestGroup_mem {groups : List SupportGroup} {group : SupportGroup}
    (h : strongestGroup groups = some group) : group ∈ groups :=
  List.argmax_mem h

theorem clipScore_nonneg {score : ℚ} : 0 ≤ clipScore score ↔ 0 ≤ score := by
  simp [clipScore]

theorem clipScore_le_one (score : ℚ) : clipScore score ≤ 1 := by
  simp [clipScore]

/-- The confidence of the one pilot score: its clip, or zero when it is not finite. -/
theorem bestGeometryConfidence_singleton (score : Option ℚ) :
    bestGeometryConfidence [score] = score.elim 0 clipScore := by
  cases score <;> simp [bestGeometryConfidence]

/-- Whether some tile of the canvas yields a payload for one of the profiles. -/
def Canvas.showsPayload (canvas : Canvas) (pageIndex : Nat)
    (candidates : List FingerprintV2Profile) : Prop :=
  ∃ candidate ∈ candidates, profileVotes candidate (canvas candidate pageIndex) ≠ []

instance (canvas : Canvas) (pageIndex : Nat) (candidates : List FingerprintV2Profile) :
    Decidable (canvas.showsPayload pageIndex candidates) :=
  inferInstanceAs (Decidable (∃ _ ∈ _, _))

/-- A decision under one profile: with votes it is conclusive, of positive confidence; without, its
confidence is that of the geometry. -/
theorem decodeFingerprintV2_singleton {canvas : Canvas} {pageIndex : Nat}
    {candidate : FingerprintV2Profile} {decision : DecodeV2Decision}
    (h : decodeFingerprintV2 canvas pageIndex [candidate] = .ok decision) :
    decision.confidence ≤ 1 ∧
      (profileVotes candidate (canvas candidate pageIndex) ≠ [] ∧
          decision.status.conclusive = true ∧ 0 < decision.confidence ∨
        profileVotes candidate (canvas candidate pageIndex) = [] ∧
          decision.status.conclusive = false ∧ decision.confidence =
            (canvas candidate pageIndex).pilotScore.elim 0 clipScore) := by
  have hgeometry : (canvas candidate pageIndex).pilotScore.elim 0 clipScore ≤ 1 := by
    cases (canvas candidate pageIndex).pilotScore with
    | none => exact zero_le_one
    | some score => exact clipScore_le_one score
  simp only [decodeFingerprintV2, List.map_cons, List.map_nil, List.any_cons, List.any_nil,
    Bool.or_false, List.flatMap_cons, List.flatMap_nil, List.append_nil,
    bestGeometryConfidence_singleton] at h
  generalize canvas candidate pageIndex = alignment at *
  rcases alignment with ⟨pilotScore, tiles⟩ | _ | pilotScore
  · -- aligned: the votes decide
    simp only [if_true] at h
    simp only [decidePayloadVotes, bind_eq_ok] at h
    obtain ⟨unique, hunique, h⟩ := h
    obtain ⟨hmem, hlength, hnil⟩ := foldlM_addVote_eq_ok hunique
    split at h
    · rename_i hempty
      simp only [pure_eq_ok] at h
      subst h
      exact ⟨hgeometry, .inr ⟨(hnil hempty).2, rfl, rfl⟩⟩
    rename_i hunique'
    have hvotes : profileVotes candidate (.aligned pilotScore tiles) ≠ [] := by
      intro hempty
      rw [hempty] at hlength
      exact hunique' (List.length_eq_zero_iff.mp (Nat.le_zero.mp hlength))
    have hids : ∀ vote ∈ unique, vote.candidateId = candidate.identifier := by
      intro vote hvote
      exact profileVotes_candidateId ((hmem vote hvote).resolve_left (by simp))
    have hcount : unique.length ≤ candidate.payloadRepetitions := by
      have := profileVotes_length candidate (.aligned pilotScore tiles)
      simp only [List.length_nil, Nat.zero_add] at hlength
      omega
    have hrange : ∀ {group}, group ∈ supportGroups unique [candidate] →
        0 < group.support ∧ group.support ≤ 1 :=
      fun hgroup ↦ support_range hgroup hids hcount
    split at h
    · simp only [bind_eq_ok, found_eq_ok, pure_eq_ok] at h
      obtain ⟨winner, hwinner, rfl⟩ := h
      have hgroup := (List.mem_filter.mp (List.mem_filter.mp (strongestGroup_mem hwinner)).1).1
      exact ⟨(hrange hgroup).2, .inl ⟨hvotes, rfl, (hrange hgroup).1⟩⟩
    · simp only [bind_eq_ok, found_eq_ok, pure_eq_ok] at h
      obtain ⟨strongest, hstrongest, rfl⟩ := h
      have hgroup := strongestGroup_mem hstrongest
      exact ⟨(hrange hgroup).2, .inl ⟨hvotes, rfl, (hrange hgroup).1⟩⟩
  · simp at h
    subst h
    exact ⟨hgeometry, .inr ⟨rfl, rfl, rfl⟩⟩
  · simp at h
    subst h
    exact ⟨hgeometry, .inr ⟨rfl, rfl, rfl⟩⟩

/-- The loop returns a conclusive decision as soon as a profile shows a payload, and otherwise the
fallback: the one it was given, or the decision of the first profile. -/
theorem firstConclusive_eq_ok {canvas : Canvas} {pageIndex : Nat}
    {fallback : Option DecodeV2Decision} {candidates : List FingerprintV2Profile}
    {decision : DecodeV2Decision}
    (h : firstConclusive canvas pageIndex fallback candidates = .ok decision) :
    canvas.showsPayload pageIndex candidates ∧ decision.status.conclusive = true ∧
        0 < decision.confidence ∧ decision.confidence ≤ 1 ∨
      ¬ canvas.showsPayload pageIndex candidates ∧
        (fallback = some decision ∨ fallback = none ∧ ∃ first ∈ candidates.head?,
          decodeFingerprintV2 canvas pageIndex [first] = .ok decision) := by
  induction candidates generalizing fallback with
  | nil =>
    simp only [firstConclusive, found_eq_ok] at h
    exact .inr ⟨by simp [Canvas.showsPayload], .inl h⟩
  | cons candidate rest ih =>
    simp only [firstConclusive, bind_eq_ok] at h
    obtain ⟨attempt, hattempt, h⟩ := h
    obtain ⟨hle, ⟨hvotes, hconclusive, hpos⟩ | ⟨hvotes, hconclusive, -⟩⟩ :=
      decodeFingerprintV2_singleton hattempt
    · rw [if_pos hconclusive, pure_eq_ok] at h
      subst h
      exact .inl ⟨⟨candidate, List.mem_cons_self, hvotes⟩, hconclusive, hpos, hle⟩
    · rw [if_neg (by simp [hconclusive])] at h
      have hshows : canvas.showsPayload pageIndex (candidate :: rest) ↔
          canvas.showsPayload pageIndex rest := by
        simp [Canvas.showsPayload, hvotes]
      rw [hshows]
      refine (ih h).imp_right fun hlater ↦ ⟨hlater.1, ?_⟩
      have hfallback := hlater.2
      cases fallback with
      | some earlier => simpa using hfallback
      | none =>
        obtain rfl : attempt = decision := by simpa using hfallback
        exact .inr ⟨rfl, candidate, by simp, hattempt⟩

/-- The pilot score of the first profile, which a canvas without payload is judged by. -/
def Canvas.geometryScore (canvas : Canvas) (pageIndex : Nat)
    (candidates : List FingerprintV2Profile) : Option ℚ :=
  candidates.head?.bind fun first ↦ (canvas first pageIndex).pilotScore

/-- The confidence of a page's decision: positive with a payload, else the clipped score of the
first profile. -/
theorem firstConclusiveDecision_eq_ok {canvas : Canvas} {pageIndex : Nat}
    {candidates : List FingerprintV2Profile} {decision : DecodeV2Decision}
    (h : firstConclusiveDecision canvas pageIndex candidates = .ok decision) :
    decision.confidence ≤ 1 ∧
      (canvas.showsPayload pageIndex candidates ∧ decision.status.conclusive = true ∧
          0 < decision.confidence ∨
        ¬ canvas.showsPayload pageIndex candidates ∧ decision.status.conclusive = false ∧
          decision.confidence = (canvas.geometryScore pageIndex candidates).elim 0 clipScore) := by
  rcases firstConclusive_eq_ok h with ⟨hshows, hconclusive, hpos, hle⟩ |
    ⟨hshows, hnone | ⟨-, first, hfirst, hattempt⟩⟩
  · exact ⟨hle, .inl ⟨hshows, hconclusive, hpos⟩⟩
  · simp at hnone
  · obtain ⟨hle, ⟨hvotes, -⟩ | ⟨-, hconclusive, hconfidence⟩⟩ :=
      decodeFingerprintV2_singleton hattempt
    · exact absurd ⟨first, List.mem_of_mem_head? hfirst, hvotes⟩ hshows
    · refine ⟨hle, .inr ⟨hshows, hconclusive, ?_⟩⟩
      rw [hconfidence, Canvas.geometryScore, Option.mem_def.mp hfirst]
      rfl

end Splitbind
