import Splitbind.Identifiers
import Splitbind.Library.BigEndian
import Splitbind.Library.Transaction

/-!
# Fingerprint payload — the bytes a page carries

A payload is a magic, a version, the issuance UUID and the CRC-32 of those.  Decoding accepts
exactly the encodings: a payload that decodes is the payload of the UUID it decodes to.
-/

namespace Splitbind

open Transaction

/-! ## 1. The frozen contract -/

structure PayloadProfile where
  schemaVersion : Nat
  magicAscii : List UInt8
  schemaVersionBytes : Nat
  issuanceUuidBytes : Nat
  crc32Bytes : Nat
  totalBytes : Nat
  /-- `crc32.input_bytes`. -/
  inputBytes : Nat
  paritySymbols : Nat
  messageBytes : Nat
  interleaveDepth : Nat
deriving DecidableEq, Repr

/-- `payload_profile()`; the magic is `SB`. -/
def payloadProfile : PayloadProfile where
  schemaVersion := 1
  magicAscii := [0x53, 0x42]
  schemaVersionBytes := 1
  issuanceUuidBytes := 16
  crc32Bytes := 4
  totalBytes := 23
  inputBytes := 19
  paritySymbols := 16
  messageBytes := 23
  interleaveDepth := 8

/-- `ValueError`, and its subclass `EccDecodeError`. -/
inductive PayloadError
  | value (text : String)
  | ecc (text : String)
deriving DecidableEq, Repr

/-! ## 2. Bytes of a UUID and the checksum -/

/-- `uuid.bytes`. -/
def UUID.bytes (u : UUID) : List UInt8 := BigEndian.toBytes 16 u.value.toNat

/-- `UUID(bytes=...)`. -/
def UUID.ofBytes (bytes : List UInt8) : UUID := ⟨BitVec.ofNat 128 (BigEndian.fromBytes bytes)⟩

@[simp] theorem UUID.length_bytes (u : UUID) : u.bytes.length = 16 :=
  BigEndian.length_toBytes 16 u.value.toNat

theorem UUID.ofBytes_bytes (u : UUID) : UUID.ofBytes u.bytes = u := by
  have hlt : u.value.toNat < 256 ^ 16 := u.value.isLt
  rw [UUID.ofBytes, UUID.bytes, BigEndian.fromBytes_toBytes hlt, BitVec.ofNat_toNat,
    BitVec.setWidth_eq]

theorem UUID.bytes_ofBytes {bytes : List UInt8} (hlength : bytes.length = 16) :
    (UUID.ofBytes bytes).bytes = bytes := by
  have hlt : BigEndian.fromBytes bytes < 2 ^ 128 := by
    have h := BigEndian.fromBytes_lt bytes
    rwa [hlength] at h
  rw [UUID.bytes, UUID.ofBytes, BitVec.toNat_ofNat, Nat.mod_eq_of_lt hlt, ← hlength,
    BigEndian.toBytes_fromBytes]

/-- One bit of the reflected division by the polynomial `0x04c11db7`. -/
def crc32Bit (remainder : BitVec 32) : BitVec 32 :=
  if remainder.getLsbD 0 then (remainder >>> 1) ^^^ 0xedb88320#32 else remainder >>> 1

def crc32Byte (remainder : BitVec 32) (byte : UInt8) : BitVec 32 :=
  (List.range 8).foldl (fun r _ ↦ crc32Bit r) (remainder ^^^ byte.toBitVec.setWidth 32)

/-- `zlib.crc32`. -/
def crc32 (data : List UInt8) : BitVec 32 :=
  data.foldl crc32Byte 0xffffffff#32 ^^^ 0xffffffff#32

/-- The check value of CRC-32/ISO-HDLC: the ASCII digits from 1 to 9. -/
example : crc32 [0x31, 0x32, 0x33, 0x34, 0x35, 0x36, 0x37, 0x38, 0x39] = 0xcbf43926#32 := by
  decide +kernel

/-! ## 3. Encoding and decoding -/

structure PayloadDecode where
  issuanceId : UUID
  version : Nat
deriving DecidableEq, Repr

def encodePayload (issuanceId : UUID) (version : Int) : Except PayloadError (List UInt8) := do
  raiseIf (version ≠ payloadProfile.schemaVersion)
    (.value ("unsupported payload version: " ++ toString version))
  let body := payloadProfile.magicAscii ++
    BigEndian.toBytes payloadProfile.schemaVersionBytes version.toNat ++ issuanceId.bytes
  let checksum := BigEndian.toBytes payloadProfile.crc32Bytes (crc32 body).toNat
  return body ++ checksum

def verifyCrc (payload : List UInt8) : Bool :=
  if payload.length ≠ payloadProfile.totalBytes then
    false
  else
    let expected := BigEndian.toBytes payloadProfile.crc32Bytes
      (crc32 (payload.take payloadProfile.inputBytes)).toNat
    expected = payload.drop payloadProfile.inputBytes

def decodePayload (encoded : List UInt8) : Except PayloadError PayloadDecode := do
  raiseIf (encoded.length ≠ payloadProfile.totalBytes)
    (.value ("payload length must be " ++ toString payloadProfile.totalBytes ++ " bytes"))
  let magic := payloadProfile.magicAscii
  raiseIf (¬ magic <+: encoded) (.value "invalid payload magic")
  let versionOffset := magic.length
  let versionEnd := versionOffset + payloadProfile.schemaVersionBytes
  let version := BigEndian.fromBytes ((encoded.take versionEnd).drop versionOffset)
  raiseIf (version ≠ payloadProfile.schemaVersion)
    (.value ("unsupported payload version: " ++ toString version))
  raiseIf (verifyCrc encoded = false) (.value "payload CRC mismatch")
  let issuanceEnd := versionEnd + payloadProfile.issuanceUuidBytes
  return ⟨UUID.ofBytes ((encoded.take issuanceEnd).drop versionEnd), version⟩

/-! ## 4. What decodes is an encoding -/

/-- The 19 bytes the checksum is taken over. -/
def payloadBody (issuanceId : UUID) : List UInt8 := [0x53, 0x42] ++ [1] ++ issuanceId.bytes

def payloadBytes (issuanceId : UUID) : List UInt8 :=
  payloadBody issuanceId ++ BigEndian.toBytes 4 (crc32 (payloadBody issuanceId)).toNat

theorem encodePayload_one (issuanceId : UUID) :
    encodePayload issuanceId 1 = .ok (payloadBytes issuanceId) := rfl

@[simp] theorem length_payloadBody (issuanceId : UUID) : (payloadBody issuanceId).length = 19 := by
  rw [payloadBody, List.length_append, UUID.length_bytes]
  rfl

@[simp] theorem length_payloadBytes (issuanceId : UUID) :
    (payloadBytes issuanceId).length = 23 := by
  rw [payloadBytes, List.length_append, length_payloadBody, BigEndian.length_toBytes]

theorem verifyCrc_eq_true (payload : List UInt8) :
    verifyCrc payload = true ↔
      payload.length = 23 ∧ BigEndian.toBytes 4 (crc32 (payload.take 19)).toNat = payload.drop 19 := by
  by_cases hlength : payload.length = payloadProfile.totalBytes
  · rw [verifyCrc, if_neg (not_not.mpr hlength)]
    exact decide_eq_true_iff.trans ⟨fun hcrc ↦ ⟨hlength, hcrc⟩, fun h ↦ h.2⟩
  · rw [verifyCrc, if_pos hlength]
    exact ⟨fun h ↦ Bool.noConfusion h, fun h ↦ absurd h.1 hlength⟩

theorem decodePayload_eq_ok (encoded : List UInt8) (decoded : PayloadDecode) :
    decodePayload encoded = .ok decoded ↔
      encoded.length = 23 ∧ [0x53, 0x42] <+: encoded ∧
        BigEndian.fromBytes ((encoded.take 3).drop 2) = 1 ∧
        BigEndian.toBytes 4 (crc32 (encoded.take 19)).toNat = encoded.drop 19 ∧
        decoded = ⟨UUID.ofBytes ((encoded.take 19).drop 3), 1⟩ := by
  simp only [decodePayload, bind_eq_ok, raiseIf_eq_ok, exists_unit]
  simp only [payloadProfile, ne_eq, not_not, Bool.not_eq_false, verifyCrc_eq_true,
    List.length_cons, List.length_nil, Nat.reduceAdd]
  constructor
  · rintro ⟨hlength, hmagic, hversion, ⟨-, hcrc⟩, hdecoded⟩
    cases hdecoded
    exact ⟨hlength, hmagic, hversion, hcrc, by rw [hversion]⟩
  · rintro ⟨hlength, hmagic, hversion, hcrc, rfl⟩
    exact ⟨hlength, hmagic, hversion, ⟨hlength, hcrc⟩, by rw [hversion]; rfl⟩

/-- A payload decodes to the UUID it was made of. -/
theorem decodePayload_payloadBytes (issuanceId : UUID) :
    decodePayload (payloadBytes issuanceId) = .ok ⟨issuanceId, 1⟩ := by
  have htake : (payloadBytes issuanceId).take 19 = payloadBody issuanceId := by
    rw [payloadBytes, List.take_left' (length_payloadBody issuanceId)]
  have hdrop : (payloadBytes issuanceId).drop 19 =
      BigEndian.toBytes 4 (crc32 (payloadBody issuanceId)).toNat := by
    rw [payloadBytes, List.drop_left' (length_payloadBody issuanceId)]
  have hmagic : [0x53, 0x42] <+: payloadBytes issuanceId := by
    rw [payloadBytes, payloadBody, List.append_assoc, List.append_assoc]
    exact List.prefix_append _ _
  have hversion : ((payloadBytes issuanceId).take 3).drop 2 = [1] := by
    rw [payloadBytes, payloadBody, List.append_assoc]
    rfl
  have huuid : (payloadBody issuanceId).drop 3 = issuanceId.bytes := by
    rw [payloadBody, List.drop_left' (by decide)]
  refine (decodePayload_eq_ok _ _).mpr ⟨length_payloadBytes issuanceId, hmagic, ?_, ?_, ?_⟩
  · rw [hversion]
    decide
  · rw [htake, hdrop]
  · rw [htake, huuid, UUID.ofBytes_bytes]

/-- What decodes to a UUID is that UUID's payload. -/
theorem eq_payloadBytes_of_decodePayload {encoded : List UInt8} {decoded : PayloadDecode}
    (h : decodePayload encoded = .ok decoded) :
    decoded.version = 1 ∧ encoded = payloadBytes decoded.issuanceId := by
  obtain ⟨hlength, hmagic, hversion, hcrc, rfl⟩ := (decodePayload_eq_ok encoded decoded).mp h
  refine ⟨rfl, ?_⟩
  -- the four fields, in the order they are laid out
  have hmagic : encoded.take 2 = [0x53, 0x42] := (List.prefix_iff_eq_take.mp hmagic).symm
  have hversion : (encoded.take 3).drop 2 = [1] := by
    have hlength : ((encoded.take 3).drop 2).length = 1 := by simp [hlength]
    have hbytes := BigEndian.toBytes_fromBytes ((encoded.take 3).drop 2)
    rw [hlength, hversion] at hbytes
    exact hbytes.symm
  have huuid : (UUID.ofBytes ((encoded.take 19).drop 3)).bytes = (encoded.take 19).drop 3 :=
    UUID.bytes_ofBytes (by simp [hlength])
  have hbody : payloadBody (UUID.ofBytes ((encoded.take 19).drop 3)) = encoded.take 19 := by
    rw [payloadBody, huuid, ← hmagic, ← hversion]
    calc encoded.take 2 ++ (encoded.take 3).drop 2 ++ (encoded.take 19).drop 3
        = (encoded.take 3).take 2 ++ (encoded.take 3).drop 2 ++ (encoded.take 19).drop 3 := by
          rw [List.take_take, Nat.min_eq_left (by decide)]
      _ = (encoded.take 19).take 3 ++ (encoded.take 19).drop 3 := by
          rw [List.take_append_drop, List.take_take, Nat.min_eq_left (by decide)]
      _ = encoded.take 19 := List.take_append_drop 3 _
  rw [payloadBytes, hbody, hcrc, List.take_append_drop]

end Splitbind
