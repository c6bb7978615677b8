import Splitbind.Contracts.Schema
import Splitbind.Documents.Manifests
import Splitbind.Library.Base64
import Splitbind.Library.Json

/-!
# The manifest verifier — from any stored value to a verdict

A stored payload, envelope and key record may hold anything their columns admit, and every call of
a library may raise.  `verifyStoredManifest` follows the checks one by one with the exceptions each
of them catches, so that what none catches is seen.
-/

namespace Splitbind.ManifestVerifier

open Transaction

/-! ## 1. Stored values -/

/-- A point in time with a time zone, or without one. -/
inductive DateTime
  | aware (at' : Instant)
  | naive (at' : Instant)
deriving DecidableEq, Repr

/-- Comparing a time with a zone to one without raises `TypeError`. -/
def DateTime.lt : DateTime → DateTime → Except Raised Bool
  | .aware a, .aware b => .ok (a < b)
  | .naive a, .naive b => .ok (a < b)
  | _, _ => .error .other

def DateTime.le : DateTime → DateTime → Except Raised Bool
  | .aware a, .aware b => .ok (a ≤ b)
  | .naive a, .naive b => .ok (a ≤ b)
  | _, _ => .error .other

/-- A signing-key row, with whatever its columns hold. -/
structure KeyRecord where
  id : UUID
  organizationId : UUID
  keyId : String
  algorithm : String
  publicKey : String
  status : String
  validFrom : DateTime
  validUntil : Option DateTime
  revokedAt : Option DateTime
  metadata : Json
  createdAt : DateTime
deriving DecidableEq

/-- A value offered as payload: a text, a text that UTF-8 cannot spell, or no text at all. -/
inductive StoredPayload
  | text (s : String)
  | unencodable
  | other
deriving DecidableEq, Repr

/-! ## 2. The libraries -/

/-- What `load_pem_public_key` makes of a text; it refuses with `ValueError` or `TypeError`, and may
raise something else. -/
inductive LoadedPem (κ : Type)
  | refused
  | raised
  | otherKey
  | ed25519 (key : κ)

/-- What `verify` of a public key does. -/
inductive SignatureVerdict
  | verified
  | invalidSignature
  | raised
deriving DecidableEq, Repr

structure Library (κ : Type) where
  /-- The tree `json.loads` reads, before its hooks are run; `none` when it raises. -/
  parse : String → Option Json
  /-- `rfc8785.dumps`, as text; `none` when it raises. -/
  dumps : Json → Option String
  formats : FormatChecker
  loadPem : String → LoadedPem κ
  /-- `public_bytes(PEM, SubjectPublicKeyInfo)`. -/
  publicPem : κ → String
  verify : (key : κ) → (signature : List UInt8) → (payload : String) → SignatureVerdict

/-- RFC 8785 has no form for a float that is no number, and no form is empty. -/
structure Library.Canonicalizes {κ : Type} (library : Library κ) : Prop where
  finite : ∀ v s, library.dumps v = some s → v.finite = true
  nonempty : ∀ v s, library.dumps v = some s → s ≠ ""

variable {κ : Type}

/-! ## 3. The key record -/

/-- `validate_ed25519_public_pem`. -/
def validateEd25519PublicPem (library : Library κ) (value : String) : Except Raised κ := do
  raiseIf (¬ (1 ≤ value.length ∧ value.length ≤ 1024))
    (.validation "public key must be bounded PEM text")
  -- `value.encode("ascii")`
  raiseIf ((value.toList.all fun c ↦ c.toNat < 128) = false)
    (.validation "public key must be standard Ed25519 SPKI PEM")
  match library.loadPem value with
  | .refused => throw (.validation "public key must be standard Ed25519 SPKI PEM")
  | .raised => throw .other
  | .otherKey => throw (.validation "public key must be Ed25519")
  | .ed25519 key =>
    raiseIf (library.publicPem key ≠ value)
      (.validation "public key must use canonical SPKI PEM encoding")
    return key

namespace KeyRecord

def cleanWindow (key : KeyRecord) : Except Raised Unit :=
  match key.validUntil with
  | none => .ok ()
  | some limit => do
    raiseIf ((← limit.le key.validFrom) = true)
      (.validation "signing key validity window is invalid")

def cleanRevocation (key : KeyRecord) : Except Raised Unit :=
  let invalid : Raised := .validation "revoked signing key requires a valid revocation time"
  if key.status = "revoked" then
    match key.revokedAt with
    | none => throw invalid
    | some revoked => do raiseIf ((← revoked.lt key.validFrom) = true) invalid
  else
    raiseIf (key.revokedAt ≠ none)
      (.validation "only revoked signing keys may have a revocation time")

/-- A text of 1 to 120 characters. -/
def safeMetadataValue : Json → Bool
  | .text s => 1 ≤ s.length && s.length ≤ 120
  | _ => false

def cleanMetadata (key : KeyRecord) : Except Raised Unit := do
  let metadata ← found key.metadata.members?
    (.validation "signing key metadata must be an object")
  raiseIf (∃ member ∈ metadata, member.1 ∉ ["label", "purpose"] ∨ ¬ safeMetadataValue member.2)
    (.validation "signing key metadata is unsafe")

def clean (library : Library κ) (key : KeyRecord) : Except Raised Unit := do
  raiseIf (key.algorithm ≠ "Ed25519") (.validation "signing key algorithm must be Ed25519")
  raiseIf (¬ keyIdPattern key.keyId) (.validation "signing key identifier is invalid")
  let _ ← validateEd25519PublicPem library key.publicKey
  key.cleanWindow
  key.cleanRevocation
  key.cleanMetadata

/-- A window with time zones. -/
def WindowAware (key : KeyRecord) : Prop :=
  (∃ from', key.validFrom = .aware from') ∧ ∀ limit ∈ key.validUntil, ∃ until', limit = .aware until'

/-- `valid_from <= current < valid_until`, for a current time with a zone. -/
def WindowContains (key : KeyRecord) (current : DateTime) : Prop :=
  ∃ t from', current = .aware t ∧ key.validFrom = .aware from' ∧ from' ≤ t ∧
    ∀ limit ∈ key.validUntil, ∃ until', limit = .aware until' ∧ t < until'

end KeyRecord

/-! ## 4. The payload -/

/-- One turn of the loop of `_unique_object`. -/
def addMember (result : List (String × Json)) (pair : String × Json) :
    Except Raised (List (String × Json)) := do
  raiseIf (pair.1 ∈ result.map Prod.fst) (.value "duplicate JSON member")
  return result ++ [pair]

/-- `_unique_object`. -/
def uniqueObject (pairs : List (String × Json)) : Except Raised (List (String × Json)) :=
  pairs.foldlM addMember []

mutual

/-- `json.loads` with its two hooks, on the tree that was read. -/
def hooked : Json → Except Raised Json
  | .nonFinite true => throw (.value "non-finite JSON")
  | .array items => do return .array (← hookedItems items)
  | .object members => do return .object (← uniqueObject (← hookedMembers members))
  | v => return v

def hookedItems : List Json → Except Raised (List Json)
  | [] => return []
  | item :: items => do return (← hooked item) :: (← hookedItems items)

def hookedMembers : List (String × Json) → Except Raised (List (String × Json))
  | [] => return []
  | (name, value) :: members => do return (name, ← hooked value) :: (← hookedMembers members)

end

/-- `_parse_exact_payload`: the object, the stored text and its canonical form. -/
def parseExactPayload (library : Library κ) :
    StoredPayload → Except Raised (List (String × Json) × String × String)
  | .other => throw (.value "payload must be stored text")
  | .unencodable => throw (.value "surrogates not allowed")
  | .text payload => do
    raiseIf (payload.utf8ByteSize = 0 ∨ payload.utf8ByteSize > maxManifestBytes)
      (.value "payload size is invalid")
    let tree ← found (library.parse payload) (.value "json.JSONDecodeError")
    let value ← hooked tree
    let members ← found value.members? (.value "payload must be an object")
    let canonical ← found (library.dumps value) (.value "rfc8785.CanonicalizationError")
    return (members, payload, canonical)

/-! ## 5. The schemas -/

/-- The schema type `integer` with the constant 1. -/
def isOne : Json → Bool
  | .int i => i = 1
  | .float q => q = 1
  | _ => false

/-- A text that passes the check. -/
def textThat (check : String → Bool) : Json → Bool
  | .text s => check s
  | _ => false

/-- `^[a-z0-9][a-z0-9._-]{0,127}$`. -/
def algorithmPattern (s : String) : Bool :=
  match beforeFinalNewline s.toList with
  | [] => false
  | c :: rest => (c.isLower || c.isDigit) && rest.length ≤ 127 &&
      rest.all fun d ↦ d.isLower || d.isDigit || d = '.' || d = '_' || d = '-'

/-- `minLength` 1 and `maxLength` 128. -/
def bounded (s : String) : Bool := 1 ≤ s.length && s.length ≤ 128

/-- The properties of a schema with their checks. -/
abbrev Schema := List (String × (Json → Bool))

/-- Every property is there and passes its check, and there is no other member. -/
def Schema.accepts (schema : Schema) (members : List (String × Json)) : Bool :=
  (schema.all fun property ↦ (Json.get members property.1).any property.2) &&
    members.all fun member ↦ schema.any fun property ↦ property.1 = member.1

def publicManifestSchema (formats : FormatChecker) : Schema :=
  [("schema_version", isOne),
    ("issuance_id", textThat formats.uuid),
    ("issued_at", textThat fun s ↦ formats.dateTime s && endsWithZ s),
    ("output_sha256", textThat sha256Pattern),
    ("fingerprint_algorithm", textThat algorithmPattern),
    ("integrity_algorithm", textThat algorithmPattern),
    ("signing_key_id", textThat bounded)]

def internalManifestSchema (formats : FormatChecker) : Schema :=
  [("schema_version", isOne),
    ("issuance_id", textThat formats.uuid),
    ("document_id", textThat formats.uuid),
    ("recipient_id", textThat formats.uuid),
    ("issued_at", textThat fun s ↦ formats.dateTime s && endsWithZ s),
    ("source_sha256", textThat sha256Pattern),
    ("output_sha256", textThat sha256Pattern),
    ("fingerprint_algorithm", textThat algorithmPattern),
    ("integrity_algorithm", textThat algorithmPattern),
    ("signing_key_id", textThat bounded),
    ("retention_policy_id", textThat bounded)]

/-- `"internal" if "recipient_id" in value else "public"`. -/
def kindOf (members : List (String × Json)) : String :=
  if "recipient_id" ∈ members.map Prod.fst then "internal" else "public"

def schemaOf (formats : FormatChecker) (kind : String) : Schema :=
  if kind = "internal" then internalManifestSchema formats else publicManifestSchema formats

/-! ## 6. The verdict -/

def refused (key : KeyRecord) (code : String) : ManifestVerification :=
  ⟨false, false, key.status, code⟩

/-- `current < valid_from or (valid_until is not None and current >= valid_until)`. -/
def KeyRecord.outsideWindow (key : KeyRecord) (current : DateTime) : Except Raised Bool := do
  let early ← current.lt key.validFrom
  if early then return true
  else
    match key.validUntil with
    | none => return false
    | some limit => limit.le current

/-- The verdicts once the signature is valid: status and window. -/
def verifyLifecycle (key : KeyRecord) (current : DateTime) : Except Raised ManifestVerification :=
  let untrusted : ManifestVerification := ⟨true, false, key.status, "VALID_UNTRUSTED_WINDOW"⟩
  if key.status = "revoked" then .ok ⟨true, false, "revoked", "VALID_REVOKED"⟩
  else if key.status ∉ ["active", "verify_only"] then
    .ok ⟨true, false, "invalid", "VALID_UNTRUSTED_STATUS"⟩
  else
    match current with
    | .naive _ => .ok untrusted
    | .aware _ => do
      let outside ← key.outsideWindow current
      return if outside then untrusted else ⟨true, true, key.status, "VALID_TRUSTED"⟩

/-- The 64 bytes of the signature and the public key. -/
def decodeSignature (library : Library κ) (publicKey : String) :
    Option Json → Except Raised (List UInt8 × κ)
  | some (.text encoded) => do
    raiseIf (encoded.length ≠ 88) (.value "")
    let raw ← found (Base64.decode encoded.toList) (.value "binascii.Error")
    raiseIf (raw.length ≠ 64 ∨ Base64.encode raw ≠ encoded.toList) (.value "")
    let verifier ← validateEd25519PublicPem library publicKey
    return (raw, verifier)
  | _ => throw (.value "")

/-- The exceptions caught around decoding the signature. -/
def caught : Raised → Bool
  | .value _ => true
  | .validation _ => true
  | _ => false

/-- The verdicts on an envelope over a stored text with the given object. -/
def verifyEnvelope (library : Library κ) (value : List (String × Json)) (stored : String)
    (signature : Json) (key : KeyRecord) (current : DateTime) :
    Except Raised ManifestVerification :=
  match signature.members? with
  | none => .ok (refused key "INVALID_ENVELOPE")
  | some envelope =>
    if ¬ (envelope.all (fun member ↦ member.1 ∈ ["algorithm", "key_id", "signature"]) ∧
        ∀ name ∈ ["algorithm", "key_id", "signature"], name ∈ envelope.map Prod.fst) then
      .ok (refused key "INVALID_ENVELOPE")
    else if Json.get envelope "algorithm" ≠ some (.text "Ed25519") then
      .ok (refused key "INVALID_ENVELOPE")
    else
      match Json.get envelope "key_id" with
      | some (.text keyId) =>
        if Json.get value "signing_key_id" ≠ some (.text keyId) ∨ keyId ≠ key.keyId then
          .ok (refused key "KEY_ID_MISMATCH")
        else
          match decodeSignature library key.publicKey (Json.get envelope "signature") with
          | .error e =>
            if caught e then .ok (refused key "INVALID_ENVELOPE") else .error e
          | .ok (raw, verifier) =>
            match library.verify verifier raw stored with
            | .invalidSignature => .ok (refused key "INVALID_SIGNATURE")
            | .raised => .ok (refused key "VERIFICATION_ERROR")
            | .verified => verifyLifecycle key current
      | _ => .ok (refused key "KEY_ID_MISMATCH")

/-- `verify_stored_manifest`; without a time of its own it looks at the clock. -/
def verifyStoredManifest (library : Library κ) (manifest : StoredPayload) (signature : Json)
    (key : KeyRecord) (now : Option DateTime) (clock : Instant) (expectedKind : Option String) :
    Except Raised ManifestVerification :=
  let registry : Except Raised Unit := do
    raiseIf (key.algorithm ≠ "Ed25519") (.validation "registry algorithm")
    key.clean library
  match registry with
  | .error _ => .ok (refused key "INVALID_REGISTRY")
  | .ok _ =>
    match parseExactPayload library manifest with
    | .error _ => .ok (refused key "INVALID_PAYLOAD")
    | .ok (value, stored, canonical) =>
      if stored ≠ canonical then .ok (refused key "NONCANONICAL_PAYLOAD")
      else if ∃ expected ∈ expectedKind, kindOf value ≠ expected then
        .ok (refused key "INVALID_SCHEMA")
      else if ¬ (schemaOf library.formats (kindOf value)).accepts value then
        .ok (refused key "INVALID_SCHEMA")
      else verifyEnvelope library value stored signature key (now.getD (.aware clock))

end Splitbind.ManifestVerifier
