import Splitbind.Fingerprint.Payload
import Splitbind.Library.Interleave

/-!
# Error correction — the interleaved Reed-Solomon word of a payload

The Reed-Solomon library is a parameter: what it makes of a message, and what it reads in a word
some of whose positions it is told to disregard.  The framing around it is the code's, and moves
the declared erasures from the transmitted word to the word the library decodes.
-/

namespace Splitbind

open Transaction

/-! ## 1. The library -/

/-- An `RSCodec`; `decode` is `none` where the library raises `ReedSolomonError`. -/
structure RSCodec where
  encode : List UInt8 → List UInt8
  decode : List UInt8 → List Nat → Option (List UInt8)

/-- Every word within the parity of the codeword of `message` decodes to it: twice the wrong
positions the library is not told of, and once those it is. -/
structure RSCodec.Corrects (codec : RSCodec) (parity : Nat) (message : List UInt8) : Prop where
  length_encode : (codec.encode message).length = message.length + parity
  decode : ∀ (word : List UInt8) (erasePos : List Nat),
    word.length = message.length + parity → erasePos.Nodup →
    (∀ p ∈ erasePos, p < message.length + parity) →
    2 * Interleave.wrong (codec.encode message) word erasePos + erasePos.length ≤ parity →
    codec.decode word erasePos = some message

/-! ## 2. Framing -/

section Framing

variable {α : Type} [Inhabited α]

def interleave (data : List α) (depth : Nat) : Except PayloadError (List α) := do
  raiseIf (depth ≤ 0) (.value "interleave depth must be positive")
  return Interleave.interleave data depth

def deinterleave (data : List α) (depth : Nat) : Except PayloadError (List α) := do
  raiseIf (depth ≤ 0) (.value "interleave depth must be positive")
  return Interleave.deinterleave data depth

end Framing

/-- `_validate_parity_symbols`. -/
def validateParitySymbols (paritySymbols contractedParity : Int) : Except PayloadError PUnit :=
  raiseIf (paritySymbols ≠ contractedParity)
    (.value ("parity_symbols must be " ++ toString contractedParity ++
      " for the frozen payload contract"))

/-- `_validate_erase_positions`. -/
def validateErasePositions (erasePositions : List Int) (expectedLength : Int) :
    Except PayloadError (List Int) := do
  raiseIf (¬ ∀ position ∈ erasePositions, 0 ≤ position ∧ position < expectedLength)
    (.value "erase_positions must be valid codeword byte indices")
  raiseIf (¬ erasePositions.Nodup) (.value "erase_positions must not contain duplicates")
  return erasePositions

variable (codec : Int → RSCodec)

def encodeEcc (payload : List UInt8) (paritySymbols : Int) : Except PayloadError (List UInt8) := do
  let messageBytes := payloadProfile.messageBytes
  let contractedParity := payloadProfile.paritySymbols
  raiseIf (payload.length ≠ messageBytes)
    (.value ("Reed-Solomon payload must be " ++ toString messageBytes ++ " bytes"))
  validateParitySymbols paritySymbols contractedParity
  interleave ((codec paritySymbols).encode payload) payloadProfile.interleaveDepth

def decodeEccWithErasures (codeword : List UInt8) (erasePositions : List Int)
    (paritySymbols : Int) : Except PayloadError (List UInt8) := do
  let messageBytes := payloadProfile.messageBytes
  let contractedParity := payloadProfile.paritySymbols
  validateParitySymbols paritySymbols contractedParity
  let expectedLength : Int := messageBytes + paritySymbols
  raiseIf ((codeword.length : Int) ≠ expectedLength)
    (.value ("Reed-Solomon codeword must be " ++ toString expectedLength ++ " bytes"))
  let positions ← validateErasePositions erasePositions expectedLength
  raiseIf (paritySymbols < positions.length)
    (.ecc "Reed-Solomon erasures exceed correction capacity")
  let depth := payloadProfile.interleaveDepth
  let rawCodeword ← deinterleave codeword depth
  -- `bytes(range(expected_length))`, interleaved: at a position, the byte of the raw index there
  let rawIndexAtInterleavedPosition ←
    interleave ((List.range expectedLength.toNat).map UInt8.ofNat) depth
  let rawErasePositions := positions.map fun position ↦
    (rawIndexAtInterleavedPosition.getD position.toNat 0).toNat
  let decoded ← found ((codec paritySymbols).decode rawCodeword rawErasePositions)
    (.ecc "Reed-Solomon codeword exceeds correction capacity")
  raiseIf (decoded.length ≠ messageBytes)
    (.ecc "Reed-Solomon decoder returned an invalid payload length")
  return decoded

/-! ## 3. The positions the library is given -/

/-- The raw positions of declared erasures. -/
def rawErasures (erasePositions : List Int) : List Nat :=
  (erasePositions.map Int.toNat).map (Interleave.source 39 8)

theorem encodeEcc_eq {payload : List UInt8} (hlength : payload.length = 23) :
    encodeEcc codec payload 16 = .ok (Interleave.interleave ((codec 16).encode payload) 8) := by
  have hlength : payload.length = payloadProfile.messageBytes := hlength
  rw [encodeEcc, raiseIf_neg (not_not.mpr hlength), ok_bind]
  rfl

/-- The table of `bytes(range(39))` holds at a position what the order reads there. -/
theorem getD_interleave_range {p : Nat} (hp : p < 39) :
    ((Interleave.interleave ((List.range 39).map UInt8.ofNat) 8).getD p 0).toNat =
      Interleave.source 39 8 p := by
  have hlt : Interleave.source 39 8 p < 39 := Interleave.source_lt (by decide) hp
  rw [Interleave.interleave_map _ _ (by decide), Interleave.interleave_range,
    List.getD_eq_getElem?_getD, List.getElem?_map, Interleave.getElem?_order (by decide) hp,
    Option.map_some, Option.getD_some, UInt8.toNat_ofNat', Nat.mod_eq_of_lt (by omega)]

theorem decodeEccWithErasures_eq {codeword : List UInt8} {erasePositions : List Int}
    (hlength : codeword.length = 39) (hrange : ∀ p ∈ erasePositions, 0 ≤ p ∧ p < 39)
    (hnodup : erasePositions.Nodup) (hbudget : erasePositions.length ≤ 16) :
    decodeEccWithErasures codec codeword erasePositions 16 =
      (do
        let decoded ← found ((codec 16).decode (Interleave.deinterleave codeword 8)
          (rawErasures erasePositions)) (.ecc "Reed-Solomon codeword exceeds correction capacity")
        raiseIf (decoded.length ≠ 23)
          (.ecc "Reed-Solomon decoder returned an invalid payload length")
        return decoded) := by
  have hraw : (erasePositions.map fun position ↦
      ((Interleave.interleave ((List.range 39).map UInt8.ofNat) 8).getD position.toNat 0).toNat) =
        rawErasures erasePositions := by
    rw [rawErasures, List.map_map]
    refine List.map_congr_left fun p hp ↦ getD_interleave_range ?_
    have hp := hrange p hp
    omega
  have hvalid : validateErasePositions erasePositions 39 = .ok erasePositions := by
    rw [validateErasePositions, raiseIf_neg (not_not.mpr hrange), ok_bind,
      raiseIf_neg (not_not.mpr hnodup)]
    rfl
  have hlength : (codeword.length : Int) = 39 := by omega
  have hbudget : ¬ (16 : Int) < erasePositions.length := by omega
  have hexpected : ((payloadProfile.messageBytes : Nat) : Int) + 16 = 39 := by decide
  rw [decodeEccWithErasures]
  simp only [hexpected]
  rw [← hraw]
  simp only [hvalid, ok_bind, raiseIf_neg (not_not.mpr hlength), raiseIf_neg hbudget]
  rfl

/-- Declared erasures stay distinct and in range on their way to the library. -/
theorem rawErasures_valid {erasePositions : List Int}
    (hrange : ∀ p ∈ erasePositions, 0 ≤ p ∧ p < 39) (hnodup : erasePositions.Nodup) :
    (rawErasures erasePositions).Nodup ∧ ∀ i ∈ rawErasures erasePositions, i < 39 := by
  have hlt : ∀ p ∈ erasePositions.map Int.toNat, p < 39 := by
    intro p hp
    obtain ⟨position, hposition, rfl⟩ := List.mem_map.mp hp
    have := hrange position hposition
    omega
  have htoNat : (erasePositions.map Int.toNat).Nodup := by
    refine hnodup.map_on fun p hp p' hp' heq ↦ ?_
    have := hrange p hp
    have := hrange p' hp'
    omega
  constructor
  · exact htoNat.map_on fun p hp p' hp' heq ↦
      Interleave.source_injective (by decide) (hlt p hp) (hlt p' hp') heq
  · intro i hi
    obtain ⟨p, hp, rfl⟩ := List.mem_map.mp hi
    exact Interleave.source_lt (by decide) (hlt p hp)

/-! ## 4. Damage within the parity -/

/-- The library's guarantee on the word it is handed is one on the word as transmitted. -/
theorem decodeEccWithErasures_damaged {payload : List UInt8} (hlength : payload.length = 23)
    (hcodec : (codec 16).Corrects 16 payload) {received : List UInt8} {erasePositions : List Int}
    (hreceived : received.length = 39) (hrange : ∀ p ∈ erasePositions, 0 ≤ p ∧ p < 39)
    (hnodup : erasePositions.Nodup)
    (hdamage : 2 * Interleave.wrong (Interleave.interleave ((codec 16).encode payload) 8) received
        (erasePositions.map Int.toNat) + erasePositions.length ≤ 16) :
    decodeEccWithErasures codec received erasePositions 16 = .ok payload := by
  have hcodeword : ((codec 16).encode payload).length = 39 := by
    rw [hcodec.length_encode, hlength]
  have hvalid := rawErasures_valid hrange hnodup
  have hmoved : Interleave.wrong ((codec 16).encode payload) (Interleave.deinterleave received 8)
      (rawErasures erasePositions) =
        Interleave.wrong (Interleave.interleave ((codec 16).encode payload) 8) received
          (erasePositions.map Int.toNat) := by
    have hpositions : ∀ p ∈ erasePositions.map Int.toNat,
        p < ((codec 16).encode payload).length := by
      intro p hp
      obtain ⟨position, hposition, rfl⟩ := List.mem_map.mp hp
      have := hrange position hposition
      omega
    have hdepth : 0 < 8 := by decide
    have h := Interleave.wrong_deinterleave hdepth (hreceived.trans hcodeword.symm) hpositions
    rw [hcodeword] at h
    exact h
  have hdecode : (codec 16).decode (Interleave.deinterleave received 8)
      (rawErasures erasePositions) = some payload := by
    apply hcodec.decode
    · rw [Interleave.length_deinterleave, hreceived, hlength]
    · exact hvalid.1
    · rw [hlength]
      exact hvalid.2
    · rw [hmoved, rawErasures, List.length_map, List.length_map]
      exact hdamage
  rw [decodeEccWithErasures_eq codec hreceived hrange hnodup (by omega), hdecode, found_some,
    ok_bind, raiseIf_neg (not_not.mpr hlength)]
  rfl

/-- **Round trip under damage.**  A word of the payload's code with `e` wrong positions outside
`s` declared ones, `2e + s ≤ 16`, decodes to the payload's UUID; and whatever the word, a UUID is
returned only where the corrected payload is its encoding. -/
theorem payload_survives_damage (issuanceId : UUID)
    (hcodec : ∀ payload, encodePayload issuanceId 1 = .ok payload →
      (codec 16).Corrects 16 payload) :
    (∃ payload sent, encodePayload issuanceId 1 = .ok payload ∧
      encodeEcc codec payload 16 = .ok sent ∧ sent.length = 39 ∧
      ∀ (received : List UInt8) (erasePositions : List Int), received.length = sent.length →
        erasePositions.Nodup → (∀ p ∈ erasePositions, 0 ≤ p ∧ p < sent.length) →
        2 * Interleave.wrong sent received (erasePositions.map Int.toNat) +
          erasePositions.length ≤ 16 →
        (decodeEccWithErasures codec received erasePositions 16 >>= decodePayload) =
          .ok ⟨issuanceId, 1⟩) ∧
    ∀ (word : List UInt8) (erasePositions : List Int) (decoded : PayloadDecode),
      (decodeEccWithErasures codec word erasePositions 16 >>= decodePayload) = .ok decoded →
      ∃ corrected, decodeEccWithErasures codec word erasePositions 16 = .ok corrected ∧
        encodePayload decoded.issuanceId 1 = .ok corrected := by
  constructor
  · have hcorrects := hcodec _ (encodePayload_one issuanceId)
    have hlength := length_payloadBytes issuanceId
    have hcodeword : ((codec 16).encode (payloadBytes issuanceId)).length = 39 := by
      rw [hcorrects.length_encode, hlength]
    have hsent : (Interleave.interleave ((codec 16).encode (payloadBytes issuanceId)) 8).length =
        39 := by
      rw [Interleave.length_interleave _ (by decide), hcodeword]
    refine ⟨_, _, encodePayload_one issuanceId, encodeEcc_eq codec hlength, hsent, ?_⟩
    rw [hsent]
    intro received erasePositions hreceived hnodup hrange hdamage
    rw [decodeEccWithErasures_damaged codec hlength hcorrects hreceived hrange hnodup hdamage,
      ok_bind, decodePayload_payloadBytes]
  · intro word erasePositions decoded hdecoded
    obtain ⟨corrected, hcorrected, hpayload⟩ := (bind_eq_ok _ _ _).mp hdecoded
    refine ⟨corrected, hcorrected, ?_⟩
    rw [(eq_payloadBytes_of_decodePayload hpayload).2, encodePayload_one]

/-! ### The contract's golden payload, ten bytes erased and three more wrong -/

/-- The contract's golden UUID, its payload, and the library's codeword of it. -/
def samplePayloadUuid : UUID := ⟨0x12345678123456781234567812345678#128⟩

def samplePayload : List UInt8 :=
  [83, 66, 1, 18, 52, 86, 120, 18, 52, 86, 120, 18, 52, 86, 120, 18, 52, 86, 120, 154, 226, 66,
    129]

def sampleCodeword : List UInt8 :=
  samplePayload ++ [193, 105, 35, 162, 50, 109, 64, 77, 93, 97, 239, 47, 189, 5, 117, 225]

/-- The library on words near that codeword. -/
def sampleCodec : RSCodec where
  encode := fun _ ↦ sampleCodeword
  decode := fun word erasePos ↦
    if 2 * Interleave.wrong sampleCodeword word erasePos + erasePos.length ≤ 16 then
      some samplePayload
    else
      none

/-- What was transmitted with its first ten bytes lost and three bytes behind them altered. -/
def sampleReceived : List UInt8 :=
  [0, 0, 0, 0, 0, 0, 0, 0, 0, 0, 1, 120, 121, 162, 47, 18, 18, 154, 50, 189, 52, 52, 226, 110, 5,
    86, 86, 66, 64, 117, 120, 120, 129, 77, 225, 18, 18, 193, 94]

theorem payload_survives_damage_sample :
    (∃ sent, encodeEcc (fun _ ↦ sampleCodec) samplePayload 16 = .ok sent ∧
      2 * Interleave.wrong sent sampleReceived [0, 1, 2, 3, 4, 5, 6, 7, 8, 9] + 10 = 16) ∧
    (decodeEccWithErasures (fun _ ↦ sampleCodec) sampleReceived [0, 1, 2, 3, 4, 5, 6, 7, 8, 9] 16
      >>= decodePayload) = .ok ⟨samplePayloadUuid, 1⟩ := by
  have hencode : encodePayload samplePayloadUuid 1 = .ok samplePayload := by decide +kernel
  have hcodec : ∀ payload, encodePayload samplePayloadUuid 1 = .ok payload →
      sampleCodec.Corrects 16 payload := by
    intro payload hpayload
    have heq : samplePayload = payload := Except.ok.inj (hencode.symm.trans hpayload)
    subst heq
    exact ⟨by decide, fun word erasePos _ _ _ hdamage ↦ if_pos hdamage⟩
  obtain ⟨⟨payload, sent, hpayload, hsent, -, hdecodes⟩, -⟩ :=
    payload_survives_damage (fun _ ↦ sampleCodec) samplePayloadUuid hcodec
  have heq : samplePayload = payload := Except.ok.inj (hencode.symm.trans hpayload)
  subst heq
  have hword : (.ok (Interleave.interleave sampleCodeword 8) : Except PayloadError (List UInt8)) =
      .ok sent := by
    rw [← hsent, encodeEcc_eq _ (by decide)]
    rfl
  obtain rfl : Interleave.interleave sampleCodeword 8 = sent := Except.ok.inj hword
  refine ⟨⟨_, hsent, by decide +kernel⟩, ?_⟩
  exact hdecodes sampleReceived _ (by decide +kernel) (by decide) (by decide +kernel)
    (by decide +kernel)

end Splitbind
