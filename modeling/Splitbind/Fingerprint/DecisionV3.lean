import Splitbind.Fingerprint.Decision

/-!
# Fingerprint V3 decision — votes across geometries and codecs

A tile may vote more than once, under other geometries and codecs; `_decide_payload_votes` keeps the
first vote of a tile for an identity, and names an issuance only when it is the only one observed.
-/

namespace Splitbind

open Transaction

/-! ## 1. Votes -/

structure FingerprintV3Profile where
  /-- `candidate_identifier_v3`. -/
  identifier : String
  payloadRepetitions : Nat
deriving DecidableEq, Repr

inductive PayloadCodec
  | dct
  | spreadDarken
  | spreadLighten
deriving DecidableEq, Repr

structure PayloadVoteV3 where
  candidateId : String
  geometryMatrix : List ℚ
  tileOrdinal : Nat
  codec : PayloadCodec
  issuanceId : UUID
  bitErrorRate : Option ℚ
deriving DecidableEq, Repr

inductive DecodeV3Status
  | decoded
  | partialPayloadEvidence
  | conflictingPayloadEvidence
  | payloadNotDetected
  | insufficientSyncEvidence
  | geometryRejected
deriving DecidableEq, Repr

structure DecodeV3Decision where
  issuanceId : Option UUID
  confidence : ℚ
  validVotes : Nat
  bitErrorRate : Option ℚ
  status : DecodeV3Status
deriving DecidableEq, Repr

/-! ## 2. The decision -/

/-- `setdefault(vote.tile_ordinal, vote)`. -/
def setdefaultTile (kept : List PayloadVoteV3) (vote : PayloadVoteV3) : List PayloadVoteV3 :=
  if vote.tileOrdinal ∈ kept.map (·.tileOrdinal) then kept else kept ++ [vote]

/-- An item of `by_identity`. -/
structure IdentityGroup where
  candidateId : String
  issuanceId : UUID
  supporting : List PayloadVoteV3
deriving DecidableEq, Repr

/-- The votes by candidate and issuance, the first of each tile. -/
def byIdentity (votes : List PayloadVoteV3) : List IdentityGroup :=
  (votes.map fun vote ↦ (vote.candidateId, vote.issuanceId)).eraseDups.map fun identity ↦
    ⟨identity.1, identity.2, (votes.filter fun vote ↦
      (vote.candidateId, vote.issuanceId) = identity).foldl setdefaultTile []⟩

def repetitionsOfV3 (profiles : List FingerprintV3Profile) (candidateId : String) : Nat :=
  ((profiles.find? (·.identifier = candidateId)).map (·.payloadRepetitions)).getD 0

def IdentityGroup.support (group : IdentityGroup) (profiles : List FingerprintV3Profile) : ℚ :=
  group.supporting.length / repetitionsOfV3 profiles group.candidateId

/-- `max(by_identity.items(), key=…)`, the first of the largest. -/
def strongestIdentity (groups : List IdentityGroup) (profiles : List FingerprintV3Profile) :
    Option IdentityGroup :=
  groups.argmax fun group ↦ toLex (group.support profiles, group.supporting.length)

def meanBitErrorRateV3 (votes : List PayloadVoteV3) : Option ℚ :=
  let errors := votes.filterMap (·.bitErrorRate)
  if errors = [] then none else some (errors.sum / errors.length)

def identityStatus (observedIds : List UUID) (supporting : List PayloadVoteV3) (support : ℚ) :
    DecodeV3Status :=
  if 1 < observedIds.length then .conflictingPayloadEvidence
  else if 2 ≤ supporting.length ∧ candidateSupportThreshold ≤ support then .decoded
  else .partialPayloadEvidence

def decidePayloadVotesV3 (votes : List PayloadVoteV3) (profiles : List FingerprintV3Profile)
    (geometryConfidence : ℚ) : Except Raised DecodeV3Decision := do
  let groups := byIdentity votes
  let observedIds := (votes.map (·.issuanceId)).eraseDups
  if groups = [] then
    return ⟨none, geometryConfidence, 0, none, .payloadNotDetected⟩
  else
    let strongest ← found (strongestIdentity groups profiles)
      (.value "max() arg is an empty sequence")
    let support := strongest.support profiles
    let status := identityStatus observedIds strongest.supporting support
    return ⟨if status = .decoded then some strongest.issuanceId else none, support,
      strongest.supporting.length, meanBitErrorRateV3 strongest.supporting, status⟩

end Splitbind
