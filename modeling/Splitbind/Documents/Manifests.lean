import Mathlib.Data.List.Sort
import Splitbind.Demo.IssuanceEvidence

/-!
# Signed manifests — the signing-key registry, building and verifying

What the third-party libraries do (canonical JSON, the JSON schema, PEM, base64 and Ed25519) is
the parameter `ManifestLibrary`; the decisions taken around them are those of the code.
-/

namespace Splitbind

open Transaction

/-! ## 1. Rows -/

inductive SigningKeyStatus
  | active
  | verifyOnly
  | revoked
deriving DecidableEq, Repr

def SigningKeyStatus.text : SigningKeyStatus → String
  | .active => "active"
  | .verifyOnly => "verify_only"
  | .revoked => "revoked"

structure SigningKey where
  id : UUID
  organizationId : UUID
  keyId : String
  algorithm : String
  publicKey : String
  status : SigningKeyStatus
  validFrom : Instant
  validUntil : Option Instant
  revokedAt : Option Instant
  metadata : JsonObject
deriving DecidableEq

structure Manifest where
  organizationId : UUID
  issuanceId : UUID
  signingKeyId : UUID
  internalPayload : String
  internalSignatureEnvelope : JsonObject
  publicPayload : String
  publicSignatureEnvelope : JsonObject
deriving DecidableEq

/-! ## 2. The libraries -/

inductive ManifestKind
  | internalKind
  | publicKind
deriving DecidableEq, Repr

/-- What `verifier.verify` reports on a decoded signature. -/
inductive SignatureCheck
  | malformed
  | invalid
  | failed
  | valid
deriving DecidableEq, Repr

structure ManifestLibrary where
  /-- `rfc8785.dumps`. -/
  dumps : JsonObject → String
  /-- `json.loads` of an object without duplicate members. -/
  loads : String → Option JsonObject
  /-- `Draft202012Validator(schema).validate`. -/
  schemaAccepts : ManifestKind → JsonObject → Bool
  /-- `validate_ed25519_public_pem`. -/
  validPublicPem : String → Bool
  /-- Base64 decoding and Ed25519 verification with the key's PEM. -/
  checkSignature : (publicKey signature payload : String) → SignatureCheck
  /-- `datetime.isoformat()` in UTC with the `Z` suffix. -/
  isoformat : Instant → String

/-- A library that accepts nothing. -/
def ManifestLibrary.rejecting : ManifestLibrary where
  dumps := fun _ ↦ ""
  loads := fun _ ↦ none
  schemaAccepts := fun _ _ ↦ false
  validPublicPem := fun _ ↦ false
  checkSignature := fun _ _ _ ↦ .invalid
  isoformat := fun _ ↦ ""

/-- A loaded private key: its public PEM and the base64 signature it makes of a text. -/
structure PrivateKey where
  publicKeyPem : String
  sign : String → String

/-! ## 3. Building -/

structure SignedIssuanceManifest where
  internalPayload : String
  internalSignatureEnvelope : JsonObject
  publicPayload : String
  publicSignatureEnvelope : JsonObject
deriving DecidableEq

def signEnvelope (privateKey : PrivateKey) (keyId canonical : String) : JsonObject :=
  [("algorithm", .text "Ed25519"), ("key_id", .text keyId),
    ("signature", .text (privateKey.sign canonical))]

def internalManifest (library : ManifestLibrary) (issuance : Issuance) (sourceSha256 outputSha256 :
    Sha256) (signingKeyId retentionPolicyId : String) : JsonObject :=
  [("schema_version", .int 1),
    ("issuance_id", .text issuance.id.text),
    ("document_id", .text issuance.documentId.text),
    ("recipient_id", .text issuance.recipientId.text),
    ("issued_at", .text (library.isoformat issuance.issuedAt)),
    ("source_sha256", .text sourceSha256.text),
    ("output_sha256", .text outputSha256.text),
    ("fingerprint_algorithm", .text "none"),
    ("integrity_algorithm", .text "integrity_release_v1"),
    ("signing_key_id", .text signingKeyId),
    ("retention_policy_id", .text retentionPolicyId)]

/-- The members of the internal manifest the public one repeats. -/
def publicManifestKeys : List String :=
  ["schema_version", "issuance_id", "issued_at", "output_sha256", "fingerprint_algorithm",
    "integrity_algorithm", "signing_key_id"]

def publicManifest (internal : JsonObject) : JsonObject :=
  internal.filter fun member ↦ member.1 ∈ publicManifestKeys

def buildSignedIssuanceManifest (library : ManifestLibrary) (issuance : Issuance)
    (sourceSha256 outputSha256 : Sha256) (signingKeyId : String) (privateKey : PrivateKey)
    (retentionPolicyId : String) : SignedIssuanceManifest :=
  let internal :=
    internalManifest library issuance sourceSha256 outputSha256 signingKeyId retentionPolicyId
  let internalBytes := library.dumps internal
  let publicBytes := library.dumps (publicManifest internal)
  { internalPayload := internalBytes
    internalSignatureEnvelope := signEnvelope privateKey signingKeyId internalBytes
    publicPayload := publicBytes
    publicSignatureEnvelope := signEnvelope privateKey signingKeyId publicBytes }

/-- `_integrity_signing_key_locked`. -/
def integritySigningKeyLocked (registry : List SigningKey) (organizationId : UUID)
    (privateKey : PrivateKey) (at' : Instant) : Except Raised SigningKey :=
  let matching := registry.filter fun key ↦
    key.organizationId = organizationId ∧ key.publicKey = privateKey.publicKeyPem ∧
      key.algorithm = "Ed25519" ∧ key.status = .active ∧ key.validFrom ≤ at'
  let candidates := ((matching.insertionSort fun a b ↦ a.keyId ≤ b.keyId).take 2).filter fun key ↦
    key.validUntil = none ∨ ∃ limit ∈ key.validUntil, at' < limit
  match candidates with
  | [key] => .ok key
  | _ => .error (.demoIssuance .manifestSigningKeyUnregistered 0)

/-! ## 4. Verifying -/

/-- `[A-Za-z0-9][A-Za-z0-9._:-]{0,119}`, the whole key id. -/
def keyIdPattern (keyId : String) : Bool :=
  match keyId.toList with
  | [] => false
  | c :: rest => c.isAlphanum && rest.length ≤ 119 &&
      rest.all fun d ↦ d.isAlphanum || d = '.' || d = '_' || d = ':' || d = '-'

/-- A metadata value is a text of 1 to 120 characters. -/
def safeMetadataValue : JsonValue → Bool
  | .text s => 1 ≤ s.length && s.length ≤ 120
  | _ => false

def SigningKey.clean (library : ManifestLibrary) (key : SigningKey) : Except Raised Unit := do
  raiseIf (key.algorithm ≠ "Ed25519") (.validation "signing key algorithm must be Ed25519")
  raiseIf (¬ keyIdPattern key.keyId) (.validation "signing key identifier is invalid")
  raiseIf (¬ library.validPublicPem key.publicKey)
    (.validation "public key must be standard Ed25519 SPKI PEM")
  raiseIf (∃ limit ∈ key.validUntil, limit ≤ key.validFrom)
    (.validation "signing key validity window is invalid")
  if key.status = .revoked then
    raiseIf (key.revokedAt = none ∨ ∃ revoked ∈ key.revokedAt, revoked < key.validFrom)
      (.validation "revoked signing key requires a valid revocation time")
  else
    raiseIf (key.revokedAt ≠ none)
      (.validation "only revoked signing keys may have a revocation time")
  raiseIf (∃ member ∈ key.metadata, member.1 ∉ ["label", "purpose"] ∨
      ¬ safeMetadataValue member.2)
    (.validation "signing key metadata is unsafe")

structure ManifestVerification where
  cryptographicallyValid : Bool
  trusted : Bool
  lifecycle : String
  code : String
deriving DecidableEq, Repr

def maxManifestBytes : Nat := 1024 * 1024

/-- The verdicts after the signature has been found valid: the key's status and window. -/
def verifyLifecycle (key : SigningKey) (now : Instant) : ManifestVerification :=
  if key.status = .revoked then ⟨true, false, "revoked", "VALID_REVOKED"⟩
  else if now < key.validFrom ∨ ∃ limit ∈ key.validUntil, limit ≤ now then
    ⟨true, false, key.status.text, "VALID_UNTRUSTED_WINDOW"⟩
  else ⟨true, true, key.status.text, "VALID_TRUSTED"⟩

/-- The verdicts on a canonical payload of the right schema: the envelope and its signature. -/
def verifyEnvelope (library : ManifestLibrary) (value : JsonObject) (stored : String)
    (signature : JsonObject) (key : SigningKey) (now : Instant) : ManifestVerification :=
  let refuse (code : String) : ManifestVerification := ⟨false, false, key.status.text, code⟩
  if ¬ (signature.keys.length = 3 ∧ ∀ name ∈ ["algorithm", "key_id", "signature"],
      name ∈ signature.keys) then refuse "INVALID_ENVELOPE"
  else if signature.get "algorithm" ≠ some (.text "Ed25519") then refuse "INVALID_ENVELOPE"
  else if signature.get "key_id" ≠ some (.text key.keyId) ∨
      value.get "signing_key_id" ≠ some (.text key.keyId) then refuse "KEY_ID_MISMATCH"
  else
    match signature.get "signature" with
    | some (.text encoded) =>
      match library.checkSignature key.publicKey encoded stored with
      | .malformed => refuse "INVALID_ENVELOPE"
      | .invalid => refuse "INVALID_SIGNATURE"
      | .failed => refuse "VERIFICATION_ERROR"
      | .valid => verifyLifecycle key now
    | _ => refuse "INVALID_ENVELOPE"

/-- `verify_stored_manifest` of a stored text payload. -/
def verifyStoredManifest (library : ManifestLibrary) (payload : String) (signature : JsonObject)
    (key : SigningKey) (now : Instant) (expectedKind : Option ManifestKind) :
    ManifestVerification :=
  let refuse (code : String) : ManifestVerification := ⟨false, false, key.status.text, code⟩
  match key.clean library with
  | .error _ => refuse "INVALID_REGISTRY"
  | .ok _ =>
    if payload.utf8ByteSize = 0 ∨ payload.utf8ByteSize > maxManifestBytes then
      refuse "INVALID_PAYLOAD"
    else
      match library.loads payload with
      | none => refuse "INVALID_PAYLOAD"
      | some value =>
        if payload ≠ library.dumps value then refuse "NONCANONICAL_PAYLOAD"
        else
          let kind := if "recipient_id" ∈ value.keys then ManifestKind.internalKind else .publicKind
          if ∃ expected ∈ expectedKind, kind ≠ expected then refuse "INVALID_SCHEMA"
          else if ¬ library.schemaAccepts kind value then refuse "INVALID_SCHEMA"
          else verifyEnvelope library value payload signature key now

end Splitbind
