import Mathlib.Data.Finset.Sort
import Splitbind.Fingerprint.Decision
import Splitbind.Fingerprint.Ecc
import Splitbind.Fingerprint.TileCodec
import Splitbind.Library.Distinct

/-!
# Erasure ladder — a tile's codeword is tried under fewer and fewer erasures

The receiver's own claim is tried first, then the weakest bytes of its ranking in shrinking numbers,
down to none.  The Reed-Solomon library is the one of the error correction, and may raise other
exceptions than `ReedSolomonError` on calls that it does not support.
-/

namespace Splitbind

open Transaction

/-! ## 1. The ladder -/

def erasureBudget : Nat := payloadProfile.paritySymbols

/-- `while counts[-1] > 0: counts.append(counts[-1] // 2)`, from a first count. -/
def halvings : Nat → List Nat
  | 0 => [0]
  | count + 1 => (count + 1) :: halvings ((count + 1) / 2)
termination_by count => count
decreasing_by exact Nat.div_lt_self (Nat.succ_pos count) Nat.one_lt_two

/-- `tuple(sorted(erasure_ranking[:count]))`. -/
def weakestBytes (erasureRanking : List Nat) (count : Nat) : List Nat :=
  (erasureRanking.take count).insertionSort (· ≤ ·)

def erasureAttempts (erasePositions erasureRanking : List Nat) : List (List Nat) :=
  erasePositions :: ((halvings erasureBudget).filter (· ≤ erasureRanking.length)).map
    (weakestBytes erasureRanking)

def erasureLadder (erasePositions erasureRanking : List Nat) : List (List Nat) :=
  (erasureAttempts erasePositions erasureRanking).eraseDups

/-! ## 2. One attempt -/

/-- What the library raises: `ReedSolomonError`, or anything else. -/
inductive RSRaised
  | reedSolomonError
  | other
deriving DecidableEq, Repr

structure RSLibrary where
  encode : List UInt8 → List UInt8
  decode : List UInt8 → List Nat → Except RSRaised (List UInt8)

/-- The library's documented contract: a codeword is the message and the parity, and a word of its
length with distinct erasures in range and within the parity raises nothing but
`ReedSolomonError`. -/
structure RSLibrary.Contract (library : RSLibrary) (messageBytes parity : Nat) : Prop where
  length_encode : ∀ message, message.length = messageBytes →
    (library.encode message).length = messageBytes + parity
  decode_raises : ∀ word erasePos, word.length = messageBytes + parity → erasePos.Nodup →
    (∀ p ∈ erasePos, p < messageBytes + parity) → erasePos.length ≤ parity →
    library.decode word erasePos ≠ .error .other

/-- What a caller sees of the library that handles `ReedSolomonError` only. -/
def RSLibrary.codec (library : RSLibrary) : RSCodec where
  encode := library.encode
  decode := fun word erasePos ↦ (library.decode word erasePos).toOption

/-- What an attempt raises: a `ValueError`, or an exception of the library that is not handled. -/
inductive AttemptRaised
  | payload (error : PayloadError)
  | library
deriving DecidableEq, Repr

/-- `except (EccDecodeError, ValueError)`. -/
def AttemptRaised.caught : AttemptRaised → Bool
  | .payload _ => true
  | .library => false

/-- `except ReedSolomonError as error: raise EccDecodeError(...)`. -/
def raisedAs (error : PayloadError) : RSRaised → AttemptRaised
  | .reedSolomonError => .payload error
  | .other => .library

variable (library : Int → RSLibrary)

/-- `decode_ecc_with_erasures`, with the exceptions of the library it does not handle. -/
def decodeEccAttempt (codeword : List UInt8) (erasePositions : List Int) (paritySymbols : Int) :
    Except AttemptRaised (List UInt8) := do
  let messageBytes := payloadProfile.messageBytes
  let contractedParity := payloadProfile.paritySymbols
  (validateParitySymbols paritySymbols contractedParity).mapError .payload
  let expectedLength : Int := messageBytes + paritySymbols
  raiseIf ((codeword.length : Int) ≠ expectedLength)
    (.payload (.value ("Reed-Solomon codeword must be " ++ toString expectedLength ++ " bytes")))
  let positions ← (validateErasePositions erasePositions expectedLength).mapError .payload
  raiseIf (paritySymbols < positions.length)
    (.payload (.ecc "Reed-Solomon erasures exceed correction capacity"))
  let depth := payloadProfile.interleaveDepth
  let rawCodeword ← (deinterleave codeword depth).mapError .payload
  let rawIndexAtInterleavedPosition ←
    (interleave ((List.range expectedLength.toNat).map UInt8.ofNat) depth).mapError .payload
  let rawErasePositions := positions.map fun position ↦
    (rawIndexAtInterleavedPosition.getD position.toNat 0).toNat
  let decoded ← ((library paritySymbols).decode rawCodeword rawErasePositions).mapError
    (raisedAs (.ecc "Reed-Solomon codeword exceeds correction capacity"))
  raiseIf (decoded.length ≠ messageBytes)
    (.payload (.ecc "Reed-Solomon decoder returned an invalid payload length"))
  return decoded

/-- The body of the `try`: the corrected payload, and what it says. -/
def decodeAttempt (codeword : List UInt8) (erasures : List Nat) :
    Except AttemptRaised (List UInt8 × PayloadDecode) := do
  let payload ← decodeEccAttempt library codeword (erasures.map Int.ofNat) 16
  let decoded ← (decodePayload payload).mapError .payload
  return (payload, decoded)

/-- The loop over the attempts: the first that does not raise. -/
def firstDecoded (codeword : List UInt8) :
    List (List Nat) → Except AttemptRaised (Option (List UInt8 × PayloadDecode))
  | [] => .ok none
  | erasures :: attempts =>
    match decodeAttempt library codeword erasures with
    | .ok decoded => .ok (some decoded)
    | .error e => if e.caught then firstDecoded codeword attempts else .error e

/-- `np.count_nonzero(observed_bits != expected_bits) / expected_bits.size`. -/
def observedErrorRate (observed expected : List UInt8) : ℚ :=
  (((PackedBits.unpack observed).zip (PackedBits.unpack expected)).countP
    fun bits ↦ decide (bits.1 ≠ bits.2)) / (PackedBits.unpack expected).length

/-- The vote of a tile whose codeword is tried under the given erasure sets. -/
def voteUnder {K : Type} (attempts : List (List Nat)) (evidence : CodewordEvidence K)
    (candidateId : String) (tileOrdinal : Nat) : Except AttemptRaised (Option PayloadVoteV2) := do
  match ← firstDecoded library evidence.codeword attempts with
  | none => return none
  | some (payload, decoded) =>
    let expected ← (encodeEcc (fun parity ↦ (library parity).codec) payload 16).mapError .payload
    return some ⟨candidateId, tileOrdinal, decoded.issuanceId,
      some (observedErrorRate evidence.codeword expected)⟩

/-- `_decode_payload_vote`. -/
def decodePayloadVote {K : Type} (evidence : CodewordEvidence K) (candidateId : String)
    (tileOrdinal : Nat) : Except AttemptRaised (Option PayloadVoteV2) :=
  voteUnder library (erasureLadder evidence.erasePositions evidence.erasureRanking) evidence
    candidateId tileOrdinal

/-! ## 3. What is tried -/

section Ladder

variable {erasePositions erasureRanking attempt : List Nat}

/-- The counts shrink from the first to zero. -/
theorem halvings_eq_append (count : Nat) :
    ∃ counts, halvings count = counts ++ [0] ∧ ∀ c ∈ counts, 0 < c ∧ c ≤ count := by
  induction count using halvings.induct with
  | case1 => exact ⟨[], by rw [halvings]; rfl, fun c hc ↦ absurd hc List.not_mem_nil⟩
  | case2 count ih =>
    obtain ⟨counts, heq, hcounts⟩ := ih
    refine ⟨(count + 1) :: counts, by rw [halvings, heq]; rfl, ?_⟩
    rw [List.forall_mem_cons]
    refine ⟨⟨Nat.succ_pos count, le_rfl⟩, fun c hc ↦ ⟨(hcounts c hc).1, ?_⟩⟩
    exact (hcounts c hc).2.trans (Nat.div_le_self _ _)

theorem halvings_le {count c : Nat} (h : c ∈ halvings count) : c ≤ count := by
  obtain ⟨counts, heq, hcounts⟩ := halvings_eq_append count
  rw [heq, List.mem_append, List.mem_singleton] at h
  rcases h with h | rfl
  · exact (hcounts c h).2
  · exact Nat.zero_le count

theorem weakestBytes_perm (erasureRanking : List Nat) (count : Nat) :
    (weakestBytes erasureRanking count).Perm (erasureRanking.take count) :=
  List.perm_insertionSort _ _

theorem weakestBytes_sorted (hranking : erasureRanking.Nodup) (count : Nat) :
    (weakestBytes erasureRanking count).Pairwise (· < ·) := by
  have hsorted : (weakestBytes erasureRanking count).Pairwise (· ≤ ·) :=
    List.pairwise_insertionSort _ _
  have hnodup : (weakestBytes erasureRanking count).Nodup :=
    (weakestBytes_perm erasureRanking count).nodup_iff.mpr (hranking.sublist (List.take_sublist _ _))
  exact hsorted.imp₂ (fun a b hle hne ↦ lt_of_le_of_ne hle hne) hnodup

/-- An attempt is the claim or the weakest bytes of the ranking, within the budget. -/
theorem mem_erasureLadder : attempt ∈ erasureLadder erasePositions erasureRanking ↔
    attempt = erasePositions ∨ ∃ count ∈ halvings erasureBudget, count ≤ erasureRanking.length ∧
      weakestBytes erasureRanking count = attempt := by
  rw [erasureLadder, List.mem_eraseDups, erasureAttempts, List.mem_cons, List.mem_map]
  simp only [List.mem_filter, decide_eq_true_eq, and_assoc]

/-- The claim comes first, and the other attempts differ from it. -/
theorem erasureLadder_eq_cons : ∃ retries,
    erasureLadder erasePositions erasureRanking = erasePositions :: retries ∧
      ∀ retry ∈ retries, retry ≠ erasePositions ∧
        ∃ count ∈ halvings erasureBudget, count ≤ erasureRanking.length ∧
          weakestBytes erasureRanking count = retry := by
  rw [erasureLadder, erasureAttempts, List.eraseDups_cons]
  refine ⟨_, rfl, fun retry hretry ↦ ?_⟩
  rw [List.mem_eraseDups, List.mem_filter, List.mem_map] at hretry
  obtain ⟨⟨count, hcount, rfl⟩, hne⟩ := hretry
  rw [List.mem_filter, decide_eq_true_eq] at hcount
  refine ⟨?_, count, hcount.1, hcount.2, rfl⟩
  simpa using hne

/-- The last set that is tried is the empty one, unless it was the claim. -/
theorem erasureLadder_getLast? (hclaim : erasePositions ≠ []) :
    (erasureLadder erasePositions erasureRanking).getLast? = some [] := by
  obtain ⟨counts, heq, hcounts⟩ := halvings_eq_append erasureBudget
  have hattempts : erasureAttempts erasePositions erasureRanking =
      (erasePositions :: (counts.filter (· ≤ erasureRanking.length)).map
        (weakestBytes erasureRanking)) ++ [[]] := by
    rw [erasureAttempts, heq, List.filter_append, List.map_append, List.cons_append]
    rfl
  have hfresh : [] ∉ erasePositions :: (counts.filter (· ≤ erasureRanking.length)).map
      (weakestBytes erasureRanking) := by
    rw [List.mem_cons, not_or, List.mem_map]
    refine ⟨Ne.symm hclaim, ?_⟩
    rintro ⟨count, hcount, hempty⟩
    rw [List.mem_filter, decide_eq_true_eq] at hcount
    have hlength := (weakestBytes_perm erasureRanking count).length_eq
    rw [hempty, List.length_nil, List.length_take, Nat.min_eq_left hcount.2] at hlength
    exact absurd hlength (Nat.ne_of_lt (hcounts count hcount.1).1)
  have hremoved : [[]].removeAll (erasePositions ::
      (counts.filter (· ≤ erasureRanking.length)).map (weakestBytes erasureRanking)) = [[]] := by
    rw [List.removeAll, List.filter_cons_of_pos, List.filter_nil]
    simpa using hfresh
  have hone : ([[]] : List (List Nat)).eraseDups = [[]] := rfl
  rw [erasureLadder, hattempts, List.eraseDups_append, hremoved, hone, List.getLast?_append]
  rfl

end Ladder

/-! ## 4. What an attempt raises -/

theorem mapError_bind {ε ε' α β : Type} (g : ε → ε') (x : Except ε α) (f : α → Except ε β) :
    (x >>= f).mapError g = x.mapError g >>= fun a ↦ (f a).mapError g := by
  cases x <;> rfl

theorem mapError_raiseIf {ε ε' : Type} (g : ε → ε') (p : Prop) [Decidable p] (e : ε) :
    (raiseIf p e).mapError g = raiseIf p (g e) := by
  by_cases hp : p
  · rw [raiseIf_pos hp, raiseIf_pos hp]
    rfl
  · rw [raiseIf_neg hp, raiseIf_neg hp]
    rfl

/-- An attempt raises what the library raises unhandled, or ends as `decode_ecc_with_erasures`
does. -/
theorem decodeEccAttempt_refines (codeword : List UInt8) (erasePositions : List Int)
    (paritySymbols : Int) :
    decodeEccAttempt library codeword erasePositions paritySymbols = .error .library ∨
      decodeEccAttempt library codeword erasePositions paritySymbols =
        (decodeEccWithErasures (fun parity ↦ (library parity).codec) codeword erasePositions
          paritySymbols).mapError .payload := by
  -- the same steps up to the call of the library
  have hstep : ∀ {α β : Type} (x : Except AttemptRaised α) {f f' : α → Except AttemptRaised β},
      (∀ a, f a = .error .library ∨ f a = f' a) →
        (x >>= f) = .error .library ∨ (x >>= f) = (x >>= f') := by
    intro α β x f f' h
    cases x with
    | error e => exact .inr rfl
    | ok a => exact h a
  rw [decodeEccAttempt, decodeEccWithErasures]
  simp only [mapError_bind, mapError_raiseIf]
  apply hstep
  intro _
  apply hstep
  intro _
  apply hstep
  intro positions
  apply hstep
  intro _
  apply hstep
  intro rawCodeword
  apply hstep
  intro rawIndexAtInterleavedPosition
  simp only [RSLibrary.codec]
  generalize (library paritySymbols).decode rawCodeword (positions.map fun position ↦
    (rawIndexAtInterleavedPosition.getD position.toNat 0).toNat) = response
  cases response with
  | ok decoded => exact .inr rfl
  | error raised =>
    cases raised with
    | reedSolomonError => exact .inr rfl
    | other => exact .inl rfl

/-- Positions of the word as the receiver declares them. -/
structure DeclaredPositions (positions : List Nat) : Prop where
  distinct : positions.Nodup
  within : ∀ position ∈ positions, position < 39

theorem DeclaredPositions.ofNat {positions : List Nat} (h : DeclaredPositions positions) :
    (positions.map Int.ofNat).Nodup ∧ ∀ p ∈ positions.map Int.ofNat, 0 ≤ p ∧ p < 39 := by
  refine ⟨h.distinct.map fun p q ↦ Int.ofNat.inj, fun p hp ↦ ?_⟩
  obtain ⟨position, hposition, rfl⟩ := List.mem_map.mp hp
  have hlt := h.within position hposition
  show 0 ≤ (position : Int) ∧ (position : Int) < 39
  omega

theorem validateErasePositions_ok {erasePositions : List Int} (hnodup : erasePositions.Nodup)
    (hrange : ∀ p ∈ erasePositions, 0 ≤ p ∧ p < 39) :
    validateErasePositions erasePositions 39 = .ok erasePositions := by
  rw [validateErasePositions, raiseIf_neg (not_not.mpr hrange), ok_bind,
    raiseIf_neg (not_not.mpr hnodup)]
  rfl

/-- Up to the budget the library is called, with the word and the declared bytes moved. -/
theorem decodeEccAttempt_eq {codeword : List UInt8} {erasePositions : List Int}
    (hlength : codeword.length = 39) (hnodup : erasePositions.Nodup)
    (hrange : ∀ p ∈ erasePositions, 0 ≤ p ∧ p < 39) (hbudget : erasePositions.length ≤ 16) :
    decodeEccAttempt library codeword erasePositions 16 =
      (do
        let decoded ← ((library 16).decode (Interleave.deinterleave codeword 8)
            (rawErasures erasePositions)).mapError
          (raisedAs (.ecc "Reed-Solomon codeword exceeds correction capacity"))
        raiseIf (decoded.length ≠ 23)
          (.payload (.ecc "Reed-Solomon decoder returned an invalid payload length"))
        return decoded) := by
  have hraw : (erasePositions.map fun position ↦
      ((Interleave.interleave ((List.range 39).map UInt8.ofNat) 8).getD position.toNat 0).toNat) =
        rawErasures erasePositions := by
    rw [rawErasures, List.map_map]
    refine List.map_congr_left fun p hp ↦ getD_interleave_range ?_
    have hp := hrange p hp
    omega
  have hvalid := validateErasePositions_ok hnodup hrange
  have hlength : (codeword.length : Int) = 39 := by omega
  have hbudget : ¬ (16 : Int) < erasePositions.length := by omega
  have hexpected : ((payloadProfile.messageBytes : Nat) : Int) + 16 = 39 := by decide
  rw [decodeEccAttempt]
  simp only [hexpected]
  rw [← hraw]
  simp only [hvalid, Except.mapError, ok_bind, raiseIf_neg (not_not.mpr hlength),
    raiseIf_neg hbudget]
  rfl

/-- Beyond the budget the attempt is given up before the library is called. -/
theorem decodeEccAttempt_over {codeword : List UInt8} {erasePositions : List Int}
    (hlength : codeword.length = 39) (hnodup : erasePositions.Nodup)
    (hrange : ∀ p ∈ erasePositions, 0 ≤ p ∧ p < 39) (hbudget : 16 < erasePositions.length) :
    decodeEccAttempt library codeword erasePositions 16 =
      .error (.payload (.ecc "Reed-Solomon erasures exceed correction capacity")) := by
  have hvalid := validateErasePositions_ok hnodup hrange
  have hlength : (codeword.length : Int) = 39 := by omega
  have hbudget : (16 : Int) < erasePositions.length := by omega
  have hexpected : ((payloadProfile.messageBytes : Nat) : Int) + 16 = 39 := by decide
  rw [decodeEccAttempt]
  simp only [hexpected]
  simp only [hvalid, Except.mapError, ok_bind, raiseIf_neg (not_not.mpr hlength),
    raiseIf_pos hbudget]
  rfl

/-- A declared set of positions is tried within the library's contract, and what the attempt raises
is handled. -/
theorem decodeEccAttempt_declared (hlibrary : (library 16).Contract 23 16)
    {codeword : List UInt8} {erasures : List Nat} (hlength : codeword.length = 39)
    (herasures : DeclaredPositions erasures) :
    decodeEccAttempt library codeword (erasures.map Int.ofNat) 16 =
      (decodeEccWithErasures (fun parity ↦ (library parity).codec) codeword
        (erasures.map Int.ofNat) 16).mapError .payload := by
  refine (decodeEccAttempt_refines library codeword _ 16).resolve_left fun hraised ↦ ?_
  obtain ⟨hnodup, hrange⟩ := herasures.ofNat
  by_cases hbudget : (erasures.map Int.ofNat).length ≤ 16
  · obtain ⟨hrawNodup, hrawRange⟩ := rawErasures_valid hrange hnodup
    have hword : (Interleave.deinterleave codeword 8).length = 39 := by
      rw [Interleave.length_deinterleave, hlength]
    have hrawBudget : (rawErasures (erasures.map Int.ofNat)).length ≤ 16 := by
      rw [rawErasures, List.length_map, List.length_map]
      exact hbudget
    have hcall := hlibrary.decode_raises _ _ hword hrawNodup hrawRange hrawBudget
    rw [decodeEccAttempt_eq library hlength hnodup hrange hbudget] at hraised
    cases hresponse : (library 16).decode (Interleave.deinterleave codeword 8)
        (rawErasures (erasures.map Int.ofNat)) with
    | error raised =>
      cases raised with
      | other => exact hcall hresponse
      | reedSolomonError =>
        rw [hresponse] at hraised
        cases hraised
    | ok decoded =>
      rw [hresponse] at hraised
      simp only [Except.mapError, ok_bind] at hraised
      by_cases hshort : decoded.length ≠ 23
      · rw [raiseIf_pos hshort] at hraised
        cases hraised
      · rw [raiseIf_neg hshort] at hraised
        cases hraised
  · rw [decodeEccAttempt_over library hlength hnodup hrange (Nat.lt_of_not_le hbudget)] at hraised
    cases hraised

theorem mapError_eq_ok {ε ε' α : Type} {g : ε → ε'} {x : Except ε α} {a : α} :
    x.mapError g = .ok a ↔ x = .ok a := by
  cases x with
  | error e =>
    constructor <;> intro h <;> cases h
  | ok b => exact ⟨fun h ↦ congrArg _ (Except.ok.inj h), fun h ↦ congrArg _ (Except.ok.inj h)⟩

theorem mapError_eq_error {ε ε' α : Type} {g : ε → ε'} {x : Except ε α} {e' : ε'}
    (h : x.mapError g = .error e') : ∃ e, x = .error e ∧ g e = e' := by
  cases x with
  | error e => exact ⟨e, rfl, Except.error.inj h⟩
  | ok b => cases h

theorem decodeAttempt_eq_ok (hlibrary : (library 16).Contract 23 16) {codeword : List UInt8}
    {erasures : List Nat} (hlength : codeword.length = 39)
    (herasures : DeclaredPositions erasures) {payload : List UInt8} {decoded : PayloadDecode} :
    decodeAttempt library codeword erasures = .ok (payload, decoded) ↔
      decodeEccWithErasures (fun parity ↦ (library parity).codec) codeword
        (erasures.map Int.ofNat) 16 = .ok payload ∧ decodePayload payload = .ok decoded := by
  simp only [decodeAttempt, bind_eq_ok, pure_eq_ok,
    decodeEccAttempt_declared library hlibrary hlength herasures, mapError_eq_ok, Prod.mk.injEq]
  constructor
  · rintro ⟨_, hpayload, _, hdecoded, rfl, rfl⟩
    exact ⟨hpayload, hdecoded⟩
  · rintro ⟨hpayload, hdecoded⟩
    exact ⟨payload, hpayload, decoded, hdecoded, rfl, rfl⟩

/-- What an attempt raises is caught. -/
theorem decodeAttempt_eq_error (hlibrary : (library 16).Contract 23 16) {codeword : List UInt8}
    {erasures : List Nat} (hlength : codeword.length = 39)
    (herasures : DeclaredPositions erasures) {raised : AttemptRaised}
    (h : decodeAttempt library codeword erasures = .error raised) : raised.caught = true := by
  rw [decodeAttempt, decodeEccAttempt_declared library hlibrary hlength herasures,
    bind_eq_error] at h
  rcases h with h | ⟨payload, -, h⟩
  · obtain ⟨error, -, rfl⟩ := mapError_eq_error h
    rfl
  · rw [bind_eq_error] at h
    rcases h with h | ⟨decoded, -, h⟩
    · obtain ⟨error, -, rfl⟩ := mapError_eq_error h
      rfl
    · cases h

/-! ## 5. The loop -/

/-- The loop ends with the first attempt that does not raise, or with none. -/
theorem firstDecoded_spec (hlibrary : (library 16).Contract 23 16) {codeword : List UInt8}
    (hlength : codeword.length = 39) {attempts : List (List Nat)}
    (hattempts : ∀ erasures ∈ attempts, DeclaredPositions erasures) :
    ∃ result, firstDecoded library codeword attempts = .ok result ∧
      ∀ decoded ∈ result, ∃ erasures ∈ attempts,
        decodeAttempt library codeword erasures = .ok decoded := by
  induction attempts with
  | nil => exact ⟨none, rfl, fun decoded h ↦ absurd h (Option.not_mem_none decoded)⟩
  | cons erasures attempts ih =>
    rw [List.forall_mem_cons] at hattempts
    cases hattempt : decodeAttempt library codeword erasures with
    | ok decoded =>
      refine ⟨some decoded, by rw [firstDecoded, hattempt], fun other hother ↦ ?_⟩
      cases hother
      exact ⟨erasures, List.mem_cons_self, hattempt⟩
    | error raised =>
      have hcaught := decodeAttempt_eq_error library hlibrary hlength hattempts.1 hattempt
      obtain ⟨result, hresult, hdecoded⟩ := ih hattempts.2
      refine ⟨result, ?_, fun decoded h ↦ ?_⟩
      · rw [firstDecoded, hattempt]
        exact (if_pos hcaught).trans hresult
      · obtain ⟨other, hother, hok⟩ := hdecoded decoded h
        exact ⟨other, List.mem_cons_of_mem _ hother, hok⟩

theorem length_of_decodeEcc {codec : Int → RSCodec} {codeword payload : List UInt8}
    {erasePositions : List Int}
    (h : decodeEccWithErasures codec codeword erasePositions 16 = .ok payload) :
    payload.length = 23 := by
  simp only [decodeEccWithErasures, bind_eq_ok, raiseIf_eq_ok, pure_eq_ok] at h
  obtain ⟨_, _, _, _, _, _, _, _, _, _, _, _, decoded, -, _, hlength, rfl⟩ := h
  exact not_not.mp hlength

theorem voteUnder_some {K : Type} {attempts : List (List Nat)} {evidence : CodewordEvidence K}
    {candidateId : String} {tileOrdinal : Nat} {payload : List UInt8} {decoded : PayloadDecode}
    (hfirst : firstDecoded library evidence.codeword attempts = .ok (some (payload, decoded)))
    (hlength : payload.length = 23) :
    voteUnder library attempts evidence candidateId tileOrdinal =
      .ok (some ⟨candidateId, tileOrdinal, decoded.issuanceId,
        some (observedErrorRate evidence.codeword
          (Interleave.interleave ((library 16).encode payload) 8))⟩) := by
  rw [voteUnder, hfirst, ok_bind]
  dsimp only
  rw [encodeEcc_eq _ hlength]
  rfl

theorem voteUnder_none {K : Type} {attempts : List (List Nat)} {evidence : CodewordEvidence K}
    {candidateId : String} {tileOrdinal : Nat}
    (hfirst : firstDecoded library evidence.codeword attempts = .ok none) :
    voteUnder library attempts evidence candidateId tileOrdinal = .ok none := by
  rw [voteUnder, hfirst, ok_bind]
  rfl

/-! ## 6. Evidence -/

/-- What extraction promises of the codeword, of the claim and of the ranking. -/
structure CodewordEvidence.WellFormed {K : Type} (evidence : CodewordEvidence K) : Prop where
  codeword_length : evidence.codeword.length = 39
  claim_sorted : evidence.erasePositions.Pairwise (· < ·)
  claim_within : ∀ position ∈ evidence.erasePositions, position < 39
  ranking_distinct : evidence.erasureRanking.Nodup
  ranking_within : ∀ position ∈ evidence.erasureRanking, position < 39

theorem CodewordEvidence.WellFormed.attempt_sorted {K : Type} {evidence : CodewordEvidence K}
    (h : evidence.WellFormed) {attempt : List Nat}
    (hattempt : attempt ∈ erasureLadder evidence.erasePositions evidence.erasureRanking) :
    attempt.Pairwise (· < ·) := by
  rcases mem_erasureLadder.mp hattempt with rfl | ⟨count, -, -, rfl⟩
  · exact h.claim_sorted
  · exact weakestBytes_sorted h.ranking_distinct count

/-- Every attempt declares distinct positions of the word. -/
theorem CodewordEvidence.WellFormed.declared {K : Type} {evidence : CodewordEvidence K}
    (h : evidence.WellFormed) {attempt : List Nat}
    (hattempt : attempt ∈ erasureLadder evidence.erasePositions evidence.erasureRanking) :
    DeclaredPositions attempt := by
  refine ⟨(h.attempt_sorted hattempt).imp ne_of_lt, fun position hposition ↦ ?_⟩
  rcases mem_erasureLadder.mp hattempt with rfl | ⟨count, -, -, rfl⟩
  · exact h.claim_within position hposition
  · have htaken := (weakestBytes_perm evidence.erasureRanking count).mem_iff.mp hposition
    exact h.ranking_within position (List.mem_of_mem_take htaken)

/-- No set of positions is tried twice. -/
theorem CodewordEvidence.WellFormed.pairwise_toFinset {K : Type} {evidence : CodewordEvidence K}
    (h : evidence.WellFormed) :
    (erasureLadder evidence.erasePositions evidence.erasureRanking).Pairwise
      fun attempt other ↦ attempt.toFinset ≠ other.toFinset := by
  have hnodup : (erasureLadder evidence.erasePositions evidence.erasureRanking).Nodup :=
    Distinct.nodup_eraseDups _
  refine hnodup.imp_of_mem fun {attempt other} hattempt hother hne hsame ↦ hne ?_
  have hsorted := h.attempt_sorted hattempt
  have hsorted' := h.attempt_sorted hother
  have hperm : attempt.Perm other :=
    (List.perm_ext_iff_of_nodup (hsorted.imp ne_of_lt) (hsorted'.imp ne_of_lt)).mpr fun position ↦ by
      rw [← List.mem_toFinset, hsame, List.mem_toFinset]
  exact hperm.eq_of_pairwise (fun a b _ _ hab hba ↦ absurd hab hba.asymm) hsorted hsorted'

section Extraction

variable {K : Type} [Field K] [LinearOrder K] [FloorRing K]

omit [FloorRing K] in
/-- Counting the bits recovers one each, and doubts bytes of the codeword only. -/
theorem foldl_tallyBit_spec (profile : CodecProfile K) (replicas : List (Replica K))
    {bits : List Nat} {tally : Tally K} (hbits : ∀ bit ∈ bits, bit < 312)
    (herasures : ∀ byte ∈ tally.erasures, byte < 39) :
    (bits.foldl (tallyBit profile replicas) tally).recoveredBits.length =
        tally.recoveredBits.length + bits.length ∧
      ∀ byte ∈ (bits.foldl (tallyBit profile replicas) tally).erasures, byte < 39 := by
  induction bits generalizing tally with
  | nil => exact ⟨rfl, herasures⟩
  | cons bit bits ih =>
    rw [List.forall_mem_cons] at hbits
    have hnext : ∀ byte ∈ (tallyBit profile replicas tally bit).erasures, byte < 39 := by
      intro byte hbyte
      simp only [tallyBit] at hbyte
      split_ifs at hbyte
      · rcases Finset.mem_insert.mp hbyte with rfl | hold
        · exact Nat.div_lt_of_lt_mul hbits.1
        · exact herasures byte hold
      · exact herasures byte hbyte
    obtain ⟨hlength, hwithin⟩ := ih hbits.2 hnext
    rw [List.foldl_cons]
    refine ⟨?_, hwithin⟩
    rw [hlength, List.length_cons]
    show (tally.recoveredBits ++ [_]).length + _ = _
    rw [List.length_append, List.length_singleton]
    omega

/-- The evidence of a tile is well formed. -/
theorem extractCodewordV2_wellFormed {numerics : Numerics K} {keyed : KeyedShuffle K}
    {tileLuminance : Image K} {key : List UInt8} {pageIndex : Int} {profile : CodecProfile K}
    {evidence : CodewordEvidence K}
    (h : extractCodewordV2 numerics keyed tileLuminance key pageIndex profile = .ok evidence) :
    evidence.WellFormed := by
  simp only [extractCodewordV2, bind_eq_ok, pure_eq_ok] at h
  obtain ⟨_, -, _, -, positions, -, replicas, -, rfl⟩ := h
  have hcount : codewordBytes * bitsPerByte = 312 := rfl
  have hempty : ∀ byte ∈ (Tally.empty : Tally K).erasures, byte < 39 :=
    fun byte hbyte ↦ absurd hbyte (Finset.notMem_empty byte)
  obtain ⟨hlength, hwithin⟩ := foldl_tallyBit_spec profile replicas
    (fun bit hbit ↦ hcount ▸ List.mem_range.mp hbit) hempty
  have hranking : ∀ confidence : Nat → WithTop K,
      (rankErasureCandidates confidence codewordBytes).Perm (List.range codewordBytes) :=
    fun confidence ↦ List.mergeSort_perm _ _
  refine ⟨?_, (Finset.sortedLT_sort _).pairwise, fun byte hbyte ↦ ?_, ?_, fun byte hbyte ↦ ?_⟩
  · apply PackedBits.length_pack
    rw [hlength, List.length_range]
    rfl
  · exact hwithin byte ((Finset.mem_sort _).mp hbyte)
  · exact (hranking _).nodup_iff.mpr List.nodup_range
  · exact List.mem_range.mp ((hranking _).mem_iff.mp hbyte)

end Extraction

/-- **Retries extend the plain decoder.**  The ladder starts with the claim and goes on with ever
fewer of the weakest bytes; a codeword that decodes under the claim votes as it would without the
ladder, every vote rests on an attempt that corrected the word to the codeword of the vote's id, and
nothing is raised that the loop does not catch. -/
theorem erasure_retries_extend {K : Type} (hlibrary : (library 16).Contract 23 16)
    (evidence : CodewordEvidence K) (hevidence : evidence.WellFormed) (candidateId : String)
    (tileOrdinal : Nat) :
    (∃ retries, erasureLadder evidence.erasePositions evidence.erasureRanking =
        evidence.erasePositions :: retries ∧
      (erasureLadder evidence.erasePositions evidence.erasureRanking).Pairwise
        (fun attempt other ↦ attempt.toFinset ≠ other.toFinset) ∧
      (∀ retry ∈ retries, ∃ count, count ≤ erasureBudget ∧
        count ≤ evidence.erasureRanking.length ∧ retry.length = count ∧
        retry.toFinset = (evidence.erasureRanking.take count).toFinset) ∧
      [] ∈ erasureLadder evidence.erasePositions evidence.erasureRanking ∧
      (evidence.erasePositions ≠ [] →
        (erasureLadder evidence.erasePositions evidence.erasureRanking).getLast? = some [])) ∧
    ((∃ decoded, decodeAttempt library evidence.codeword evidence.erasePositions = .ok decoded) →
      decodePayloadVote library evidence candidateId tileOrdinal =
        voteUnder library [evidence.erasePositions] evidence candidateId tileOrdinal ∧
      ∃ vote, decodePayloadVote library evidence candidateId tileOrdinal = .ok (some vote)) ∧
    (∀ vote, decodePayloadVote library evidence candidateId tileOrdinal = .ok (some vote) →
      ∃ erasures ∈ erasureLadder evidence.erasePositions evidence.erasureRanking,
        ∃ payload corrected,
          decodeEccWithErasures (fun parity ↦ (library parity).codec) evidence.codeword
            (erasures.map Int.ofNat) 16 = .ok payload ∧
          encodePayload vote.issuanceId 1 = .ok payload ∧
          encodeEcc (fun parity ↦ (library parity).codec) payload 16 = .ok corrected ∧
          vote = ⟨candidateId, tileOrdinal, vote.issuanceId,
            some (observedErrorRate evidence.codeword corrected)⟩) ∧
    (∀ erasures ∈ erasureLadder evidence.erasePositions evidence.erasureRanking, ∀ raised,
      decodeAttempt library evidence.codeword erasures = .error raised →
        raised.caught = true) ∧
    ∃ vote, decodePayloadVote library evidence candidateId tileOrdinal = .ok vote := by
  have hlength := hevidence.codeword_length
  have hclaim : evidence.erasePositions ∈
      erasureLadder evidence.erasePositions evidence.erasureRanking :=
    mem_erasureLadder.mpr (.inl rfl)
  have hdeclared : ∀ erasures ∈ erasureLadder evidence.erasePositions evidence.erasureRanking,
      DeclaredPositions erasures := fun erasures herasures ↦ hevidence.declared herasures
  refine ⟨?_, ?_, ?_, ?_, ?_⟩
  · -- what is tried
    obtain ⟨retries, hladder, hretries⟩ : ∃ retries,
      erasureLadder evidence.erasePositions evidence.erasureRanking =
        evidence.erasePositions :: retries ∧ _ := erasureLadder_eq_cons
    refine ⟨retries, hladder, hevidence.pairwise_toFinset, fun retry hretry ↦ ?_, ?_,
      erasureLadder_getLast?⟩
    · obtain ⟨-, count, hcount, hle, rfl⟩ := hretries retry hretry
      have hperm := weakestBytes_perm evidence.erasureRanking count
      refine ⟨count, halvings_le hcount, hle, ?_, List.toFinset_eq_of_perm _ _ hperm⟩
      rw [hperm.length_eq, List.length_take, Nat.min_eq_left hle]
    · -- the ladder ends with no erasures at all
      obtain ⟨counts, heq, -⟩ := halvings_eq_append erasureBudget
      refine mem_erasureLadder.mpr (.inr ⟨0, ?_, Nat.zero_le _, rfl⟩)
      rw [heq]
      exact List.mem_append_right _ (List.mem_singleton_self 0)
  · -- the claim decodes
    rintro ⟨⟨payload, decoded⟩, hattempt⟩
    obtain ⟨retries, hladder, -⟩ : ∃ retries,
      erasureLadder evidence.erasePositions evidence.erasureRanking =
        evidence.erasePositions :: retries ∧ _ := erasureLadder_eq_cons
    have hfirst : ∀ attempts, firstDecoded library evidence.codeword
        (evidence.erasePositions :: attempts) = .ok (some (payload, decoded)) := by
      intro attempts
      rw [firstDecoded, hattempt]
    have hpayload := length_of_decodeEcc ((decodeAttempt_eq_ok library hlibrary hlength
      (hdeclared _ hclaim)).mp hattempt).1
    rw [decodePayloadVote, hladder, voteUnder_some library (hfirst retries) hpayload,
      voteUnder_some library (hfirst []) hpayload]
    exact ⟨rfl, _, rfl⟩
  · -- a vote rests on an attempt
    intro vote hvote
    obtain ⟨result, hresult, hdecoded⟩ := firstDecoded_spec library hlibrary hlength hdeclared
    cases result with
    | none =>
      rw [decodePayloadVote, voteUnder_none library hresult] at hvote
      cases hvote
    | some decodedPayload =>
      obtain ⟨payload, decoded⟩ := decodedPayload
      obtain ⟨erasures, herasures, hattempt⟩ := hdecoded (payload, decoded) rfl
      obtain ⟨hpayload, hdecode⟩ :=
        (decodeAttempt_eq_ok library hlibrary hlength (hdeclared _ herasures)).mp hattempt
      have hpayloadLength := length_of_decodeEcc hpayload
      rw [decodePayloadVote, voteUnder_some library hresult hpayloadLength] at hvote
      cases hvote
      refine ⟨erasures, herasures, payload, _, hpayload, ?_, encodeEcc_eq _ hpayloadLength, rfl⟩
      rw [(eq_payloadBytes_of_decodePayload hdecode).2, encodePayload_one]
  · intro erasures herasures raised hraised
    exact decodeAttempt_eq_error library hlibrary hlength (hdeclared _ herasures) hraised
  · obtain ⟨result, hresult, hdecoded⟩ := firstDecoded_spec library hlibrary hlength hdeclared
    cases result with
    | none => exact ⟨none, voteUnder_none library hresult⟩
    | some decodedPayload =>
      obtain ⟨payload, decoded⟩ := decodedPayload
      obtain ⟨erasures, herasures, hattempt⟩ := hdecoded (payload, decoded) rfl
      have hpayload := length_of_decodeEcc ((decodeAttempt_eq_ok library hlibrary hlength
        (hdeclared _ herasures)).mp hattempt).1
      exact ⟨_, voteUnder_some library hresult hpayload⟩

/-! ### The golden payload under a claim of ten bytes, all of them lost -/

/-- The library on words near the codeword of the golden payload. -/
def sampleLibrary : RSLibrary where
  encode := fun _ ↦ sampleCodeword
  decode := fun word erasePos ↦
    if 2 * Interleave.wrong sampleCodeword word erasePos + erasePos.length ≤ 16 then
      .ok samplePayload
    else
      .error .reedSolomonError

def sampleEvidence : CodewordEvidence ℚ where
  codeword := sampleReceived
  erasePositions := [0, 1, 2, 3, 4, 5, 6, 7, 8, 9]
  meanConfidence := 1
  bitErrorHint := none
  erasureRanking := List.range 12

theorem erasure_retries_extend_sample :
    decodePayloadVote (fun _ ↦ sampleLibrary) sampleEvidence "candidate" 0 =
        voteUnder (fun _ ↦ sampleLibrary) [[0, 1, 2, 3, 4, 5, 6, 7, 8, 9]] sampleEvidence
          "candidate" 0 ∧
      ∃ vote, decodePayloadVote (fun _ ↦ sampleLibrary) sampleEvidence "candidate" 0 =
        .ok (some vote) := by
  have hlibrary : sampleLibrary.Contract 23 16 := by
    refine ⟨fun _ _ ↦ rfl, fun word erasePos _ _ _ _ hother ↦ ?_⟩
    simp only [sampleLibrary] at hother
    split_ifs at hother
    cases hother
  have hevidence : sampleEvidence.WellFormed :=
    ⟨by decide +kernel, by decide, by decide, List.nodup_range, by decide⟩
  have hclaim : decodeAttempt (fun _ ↦ sampleLibrary) sampleReceived
      [0, 1, 2, 3, 4, 5, 6, 7, 8, 9] = .ok (samplePayload, ⟨samplePayloadUuid, 1⟩) := by
    decide +kernel
  exact (erasure_retries_extend (fun _ ↦ sampleLibrary) hlibrary sampleEvidence hevidence
    "candidate" 0).2.1 ⟨_, hclaim⟩

end Splitbind
