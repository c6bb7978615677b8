import Splitbind.Documents.TrustedManifests

/-!
# Manifest round trip — what the builder signs, the verifier trusts

The builder and the verifier meet only in the canonical text.  RFC 8785 is assumed to write an
object of texts and safe integers so that reading gives back its members in some order, and the
signature to verify over the text it was made of.
-/

namespace Splitbind.ManifestVerifier

open Transaction

variable {κ : Type} {library : Library κ}

/-! ## 1. Assumptions on the libraries -/

/-- An object of texts and of integers that a float holds exactly. -/
def Flat (members : List (String × Json)) : Prop :=
  ∀ member ∈ members, (∃ s, member.2 = .text s) ∨ ∃ i : Int, member.2 = .int i ∧ i.natAbs < 2 ^ 53

/-- The characters of a text, or enough of them for an integer. -/
def scalarLength : Json → Nat
  | .text s => s.length
  | _ => 17

/-- A bound on the canonical text: no character takes more than six bytes. -/
def writtenSize (members : List (String × Json)) : Nat :=
  2 + (members.map fun member ↦ 6 * member.1.length + 6 * scalarLength member.2 + 8).sum

/-- The canonical form of a flat object is a fixed point on what is read of it, and is not larger
than its members. -/
structure Library.WritesFlat (library : Library κ) : Prop where
  reads : ∀ members s, Flat members → (members.map Prod.fst).Nodup →
    library.dumps (.object members) = some s → ∃ members', members'.Perm members ∧
      library.parse s = some (.object members') ∧ library.dumps (.object members') = some s
  size : ∀ members s, Flat members → library.dumps (.object members) = some s →
    s.utf8ByteSize ≤ writtenSize members

/-- An Ed25519 private key; signing is deterministic. -/
structure SigningPrivateKey (κ : Type) where
  publicKey : κ
  sign : String → List UInt8

/-- What the key signs is 64 bytes and verifies. -/
def SigningPrivateKey.Signs (privateKey : SigningPrivateKey κ) (library : Library κ) : Prop :=
  ∀ payload, (privateKey.sign payload).length = 64 ∧
    library.verify privateKey.publicKey (privateKey.sign payload) payload = .verified

/-! ## 2. Building -/

/-- A time on the wall, with the offset of its zone from UTC if it has one. -/
structure IssuedAt where
  wall : Int
  offset : Option Int
deriving DecidableEq, Repr

/-- `issued_at.astimezone(timezone.utc).isoformat().replace("+00:00", "Z")`. -/
def IssuedAt.timestamp (issuedAt : IssuedAt) : Except Raised String := do
  let offset ← found issuedAt.offset (.value "issued_at must be timezone-aware")
  -- `OverflowError` outside the years 1 to 9999
  raiseIf (¬ Calendar.InRange (issuedAt.wall - offset)) .other
  return String.ofList (Calendar.text (issuedAt.wall - offset))

structure ManifestInputs where
  issuanceId : UUID
  documentId : UUID
  recipientId : UUID
  issuedAt : IssuedAt
  sourceSha256 : Sha256
  outputSha256 : Sha256
  signingKeyId : String
  retentionPolicyId : String

structure SignedManifest where
  internalPayload : String
  internalSignatureEnvelope : Json
  publicPayload : String
  publicSignatureEnvelope : Json
deriving DecidableEq

namespace ManifestInputs

def internal (inputs : ManifestInputs) (timestamp : String) : List (String × Json) :=
  [("schema_version", .int 1),
    ("issuance_id", .text inputs.issuanceId.text),
    ("document_id", .text inputs.documentId.text),
    ("recipient_id", .text inputs.recipientId.text),
    ("issued_at", .text timestamp),
    ("source_sha256", .text inputs.sourceSha256.text),
    ("output_sha256", .text inputs.outputSha256.text),
    ("fingerprint_algorithm", .text "none"),
    ("integrity_algorithm", .text "integrity_release_v1"),
    ("signing_key_id", .text inputs.signingKeyId),
    ("retention_policy_id", .text inputs.retentionPolicyId)]

def internalKeys : List String :=
  ["schema_version", "issuance_id", "document_id", "recipient_id", "issued_at", "source_sha256",
    "output_sha256", "fingerprint_algorithm", "integrity_algorithm", "signing_key_id",
    "retention_policy_id"]

/-- The seven members that are disclosed, looked up in the internal manifest. -/
def publicKeys : List String :=
  ["schema_version", "issuance_id", "issued_at", "output_sha256", "fingerprint_algorithm",
    "integrity_algorithm", "signing_key_id"]

def public' (inputs : ManifestInputs) (timestamp : String) : List (String × Json) :=
  publicKeys.filterMap fun name ↦
    (Json.get (inputs.internal timestamp) name).map fun value ↦ (name, value)

end ManifestInputs

/-- `_sign`. -/
def signEnvelope (canonical keyId : String) (privateKey : SigningPrivateKey κ) :
    List (String × Json) :=
  [("algorithm", .text "Ed25519"), ("key_id", .text keyId),
    ("signature", .text (String.ofList (Base64.encode (privateKey.sign canonical))))]

def buildSignedIssuanceManifest (library : Library κ) (inputs : ManifestInputs)
    (privateKey : SigningPrivateKey κ) : Except Raised SignedManifest := do
  let timestamp ← inputs.issuedAt.timestamp
  let internalBytes ← found (library.dumps (.object (inputs.internal timestamp))) .other
  let publicBytes ← found (library.dumps (.object (inputs.public' timestamp))) .other
  return {
    internalPayload := internalBytes
    internalSignatureEnvelope :=
      .object (signEnvelope internalBytes inputs.signingKeyId privateKey)
    publicPayload := publicBytes
    publicSignatureEnvelope := .object (signEnvelope publicBytes inputs.signingKeyId privateKey) }

/-! ## 3. Members of an object -/

theorem writtenSize_le {members : List (String × Json)} {a b : Nat}
    (hnames : ∀ name ∈ members.map Prod.fst, name.length ≤ a)
    (hvalues : ∀ member ∈ members, scalarLength member.2 ≤ b) :
    writtenSize members ≤ 2 + members.length * (6 * a + 6 * b + 8) := by
  unfold writtenSize
  refine Nat.add_le_add_left ?_ 2
  induction members with
  | nil => simp
  | cons member members ih =>
    rw [List.map_cons, List.forall_mem_cons] at hnames
    rw [List.forall_mem_cons] at hvalues
    have htail := ih hnames.2 hvalues.2
    have hname := hnames.1
    have hvalue := hvalues.1
    rw [List.map_cons, List.sum_cons, List.length_cons, Nat.add_mul, Nat.one_mul]
    omega

theorem accepts_perm {members members' : List (String × Json)} (hperm : members'.Perm members)
    (hnames : (members.map Prod.fst).Nodup) (schema : Schema) :
    schema.accepts members' = schema.accepts members := by
  rw [Schema.accepts, Schema.accepts, Bool.eq_iff_iff]
  simp only [Json.get_perm hperm hnames, Bool.and_eq_true, List.all_eq_true, hperm.mem_iff]

theorem kindOf_perm {members members' : List (String × Json)} (hperm : members'.Perm members) :
    kindOf members' = kindOf members := by
  rw [kindOf, kindOf]
  exact if_congr (hperm.map Prod.fst).mem_iff rfl rfl

theorem finiteMembers_of_flat {members : List (String × Json)} (h : Flat members) :
    Json.finiteMembers members = true := by
  induction members with
  | nil => rw [Json.finiteMembers]
  | cons member members ih =>
    obtain ⟨name, value⟩ := member
    rw [Json.finiteMembers, ih fun other hother ↦ h other (List.mem_cons_of_mem _ hother),
      Bool.and_true]
    rcases h (name, value) List.mem_cons_self with ⟨s, hs⟩ | ⟨i, hi, -⟩
    · rw [show value = .text s from hs]
      rfl
    · rw [show value = .int i from hi]
      rfl

theorem uniqueMembers_of_flat {members : List (String × Json)} (h : Flat members) :
    Json.uniqueMembers members = true := by
  induction members with
  | nil => rw [Json.uniqueMembers]
  | cons member members ih =>
    obtain ⟨name, value⟩ := member
    rw [Json.uniqueMembers, ih fun other hother ↦ h other (List.mem_cons_of_mem _ hother),
      Bool.and_true]
    rcases h (name, value) List.mem_cons_self with ⟨s, hs⟩ | ⟨i, hi, -⟩
    · rw [show value = .text s from hs]
      rfl
    · rw [show value = .int i from hi]
      rfl

/-! ## 4. A signed flat object is trusted -/

/-- The verifier trusts a pair as a manifest of the given kind. -/
def TrustedAs (library : Library κ) (payload : String) (envelope : Json) (key : KeyRecord)
    (now : DateTime) (clock : Instant) (kind : String) : Prop :=
  ∃ verdict, verifyStoredManifest library (.text payload) envelope key (some now) clock
    (some kind) = .ok verdict ∧ verdict.trusted = true

/-- A key that may sign for the private key at a given time. -/
structure KeyRecord.SignsFor (key : KeyRecord) (library : Library κ)
    (privateKey : SigningPrivateKey κ) (now : DateTime) : Prop where
  clean : key.clean library = .ok ()
  publicKey : validateEd25519PublicPem library key.publicKey = .ok privateKey.publicKey
  status : key.status ∈ ["active", "verify_only"]
  window : key.WindowContains now

theorem KeyRecord.WindowContains.aware {key : KeyRecord} {now : DateTime}
    (h : key.WindowContains now) : key.WindowAware := by
  obtain ⟨t, from', -, hfrom, -, hlimits⟩ := h
  refine ⟨⟨from', hfrom⟩, fun limit hlimit ↦ ?_⟩
  obtain ⟨until', huntil, -⟩ := hlimits limit hlimit
  exact ⟨until', huntil⟩

/-- A record that passed `clean` is for Ed25519 and has an admitted key id. -/
theorem KeyRecord.identity_of_clean {key : KeyRecord} (h : key.clean library = .ok ()) :
    key.algorithm = "Ed25519" ∧ keyIdPattern key.keyId = true := by
  simp only [KeyRecord.clean, bind_eq_ok, exists_unit, raiseIf_eq_ok, not_not] at h
  exact ⟨h.1, h.2.1⟩

/-- A flat object of the schema of its kind, signed in canonical form, is trusted as that kind and
as no other. -/
theorem trustedAs_iff_of_signed (hlibrary : library.Canonicalizes) (hwrites : library.WritesFlat)
    {privateKey : SigningPrivateKey κ} (hsigns : privateKey.Signs library) {key : KeyRecord}
    {now : DateTime} (hkey : key.SignsFor library privateKey now)
    {members : List (String × Json)} (hflat : Flat members)
    (hnames : (members.map Prod.fst).Nodup) {canonical : String}
    (hdumps : library.dumps (.object members) = some canonical)
    (hsize : writtenSize members ≤ maxManifestBytes)
    (hschema : (schemaOf library.formats (kindOf members)).accepts members = true)
    (hkeyId : Json.get members "signing_key_id" = some (.text key.keyId)) (clock : Instant)
    (kind : String) :
    TrustedAs library canonical (.object (signEnvelope canonical key.keyId privateKey)) key now
      clock kind ↔ kind = kindOf members := by
  -- the writer may reorder the members, and every check is of the members as a set
  obtain ⟨members', hperm, hparse, hcanonical⟩ := hwrites.reads members canonical hflat hnames hdumps
  have hflat' : Flat members' := fun member hmember ↦ hflat member (hperm.mem_iff.mp hmember)
  obtain ⟨verdict, hverdict, htrusted⟩ := trusted_text_iff hlibrary hkey.window.aware canonical
    (.object (signEnvelope canonical key.keyId privateKey)) (some now) clock (some kind)
  have htrustedAs : TrustedAs library canonical
      (.object (signEnvelope canonical key.keyId privateKey)) key now clock kind ↔
        verdict.trusted = true := by
    simp [TrustedAs, hverdict]
  rw [htrustedAs, htrusted]
  constructor
  · rintro ⟨value, envelope, raw, verifier, h⟩
    have hread := hparse.symm.trans h.parsed
    rw [Option.some.injEq, Json.object.injEq] at hread
    rw [← h.kind kind rfl, ← hread, kindOf_perm hperm]
  · rintro rfl
    refine ⟨members', signEnvelope canonical key.keyId privateKey, privateKey.sign canonical,
      privateKey.publicKey, ?_⟩
    exact {
      envelope := rfl
      names := by simp [signEnvelope]
      envelopeAlgorithm := rfl
      envelopeKeyId := rfl
      payloadKeyId := by rw [Json.get_perm hperm hnames]; exact hkeyId
      encoded := rfl
      length := (hsigns canonical).1
      publicKey := hkey.publicKey
      verified := (hsigns canonical).2
      algorithm := (KeyRecord.identity_of_clean hkey.clean).1
      registry := hkey.clean
      size := (hwrites.size members canonical hflat hdumps).trans hsize
      parsed := hparse
      unique := by
        rw [Json.unique, uniqueMembers_of_flat hflat', Bool.and_true, decide_eq_true_eq]
        exact (hperm.map Prod.fst).nodup_iff.mpr hnames
      finite := by rw [Json.finite]; exact finiteMembers_of_flat hflat'
      canonical := hcanonical
      kind := fun expected hexpected ↦ by rw [kindOf_perm hperm]; exact Option.some.inj hexpected
      schema := by rw [kindOf_perm hperm, accepts_perm hperm hnames]; exact hschema
      status := hkey.status
      window := hkey.window }

/-! ## 5. The two manifests -/

/-- A key id the registry admits fits the schema. -/
theorem bounded_of_keyIdPattern {keyId : String} (h : keyIdPattern keyId = true) :
    1 ≤ keyId.length ∧ keyId.length ≤ 120 := by
  rw [← String.length_toList]
  unfold keyIdPattern at h
  split at h
  · cases h
  · rename_i c rest hchars
    rw [Bool.and_eq_true, Bool.and_eq_true, decide_eq_true_eq] at h
    rw [hchars, List.length_cons]
    omega

theorem length_text_sha256 (h : Sha256) : h.text.length = 64 := by
  simp [Sha256.text, length_hexDigits]

/-- The timestamp is an RFC 3339 date-time in UTC, of at most 27 characters. -/
structure Stamped (formats : FormatChecker) (timestamp : String) : Prop where
  dateTime : formats.dateTime timestamp = true
  endsWithZ : endsWithZ timestamp = true
  length : timestamp.length ≤ 27

theorem Stamped.of_timestamp {formats : FormatChecker} (hformats : formats.Conforms)
    {issuedAt : IssuedAt} {timestamp : String} (h : issuedAt.timestamp = .ok timestamp) :
    Stamped formats timestamp := by
  simp only [IssuedAt.timestamp, bind_eq_ok, exists_unit, raiseIf_eq_ok, found_eq_ok, pure_eq_ok,
    not_not] at h
  obtain ⟨offset, -, hrange, rfl⟩ := h
  refine ⟨hformats.dateTime _ (Calendar.accepts_text hrange), ?_, ?_⟩
  · simp [Splitbind.endsWithZ, Calendar.text, beforeFinalNewline]
  · have hfraction : ∀ t, (Calendar.fraction t).length = 7 := by
      intro t
      simp [Calendar.fraction, Calendar.digits_length]
    rw [String.length_ofList]
    simp only [Calendar.text, Calendar.Timestamp.text, List.length_append, List.length_cons,
      Calendar.digits_length, List.length_nil]
    split
    · exact Nat.le_of_ble_eq_true rfl
    · rw [hfraction]

section Members

variable {formats : FormatChecker} (inputs : ManifestInputs) {timestamp : String}

theorem flat_internal : Flat (inputs.internal timestamp) := by
  simp [Flat, ManifestInputs.internal]

theorem names_internal : ((inputs.internal timestamp).map Prod.fst).Nodup := by
  simp [ManifestInputs.internal]

theorem public_eq : inputs.public' timestamp =
    [("schema_version", .int 1),
      ("issuance_id", .text inputs.issuanceId.text),
      ("issued_at", .text timestamp),
      ("output_sha256", .text inputs.outputSha256.text),
      ("fingerprint_algorithm", .text "none"),
      ("integrity_algorithm", .text "integrity_release_v1"),
      ("signing_key_id", .text inputs.signingKeyId)] := rfl

theorem flat_public : Flat (inputs.public' timestamp) := by
  simp [Flat, public_eq]

theorem names_public : ((inputs.public' timestamp).map Prod.fst).Nodup := by
  simp [public_eq]

theorem kindOf_internal : kindOf (inputs.internal timestamp) = "internal" := rfl

theorem kindOf_public : kindOf (inputs.public' timestamp) = "public" := rfl

/-- What the texts of the inputs must be for both manifests to be admitted. -/
structure Admitted (formats : FormatChecker) (inputs : ManifestInputs) (timestamp : String) :
    Prop where
  stamped : Stamped formats timestamp
  signingKeyId : 1 ≤ inputs.signingKeyId.length ∧ inputs.signingKeyId.length ≤ 128
  retentionPolicyId : 1 ≤ inputs.retentionPolicyId.length ∧ inputs.retentionPolicyId.length ≤ 128

variable {inputs}

theorem size_internal (hadmitted : Admitted formats inputs timestamp) :
    writtenSize (inputs.internal timestamp) ≤ maxManifestBytes := by
  have hstamp := hadmitted.stamped.length
  have hids : ∀ u : UUID, u.text.length = 36 := length_text_uuid
  have hnames : ∀ name ∈ (inputs.internal timestamp).map Prod.fst, name.length ≤ 21 := by
    show ∀ name ∈ ManifestInputs.internalKeys, name.length ≤ 21
    decide
  have hvalues : ∀ member ∈ inputs.internal timestamp, scalarLength member.2 ≤ 128 := by
    simp only [ManifestInputs.internal, List.forall_mem_cons, scalarLength, hids,
      length_text_sha256, List.not_mem_nil, false_imp_iff, implies_true, and_true]
    exact ⟨by decide, by decide, by decide, by decide, hstamp.trans (by decide), by decide,
      by decide, by decide, by decide, hadmitted.signingKeyId.2, hadmitted.retentionPolicyId.2⟩
  have hsize := writtenSize_le hnames hvalues
  rw [show (inputs.internal timestamp).length = 11 from rfl] at hsize
  exact hsize.trans (by decide)

theorem size_public (hadmitted : Admitted formats inputs timestamp) :
    writtenSize (inputs.public' timestamp) ≤ maxManifestBytes := by
  have hstamp := hadmitted.stamped.length
  have hids : ∀ u : UUID, u.text.length = 36 := length_text_uuid
  have hnames : ∀ name ∈ (inputs.public' timestamp).map Prod.fst, name.length ≤ 21 := by
    show ∀ name ∈ ManifestInputs.publicKeys, name.length ≤ 21
    decide
  have hvalues : ∀ member ∈ inputs.public' timestamp, scalarLength member.2 ≤ 128 := by
    simp only [public_eq, List.forall_mem_cons, scalarLength, hids, length_text_sha256,
      List.not_mem_nil, false_imp_iff, implies_true, and_true]
    exact ⟨by decide, by decide, hstamp.trans (by decide), by decide, by decide, by decide,
      hadmitted.signingKeyId.2⟩
  have hsize := writtenSize_le hnames hvalues
  rw [show (inputs.public' timestamp).length = 7 from rfl] at hsize
  exact hsize.trans (by decide)

theorem algorithmPattern_fixed :
    algorithmPattern "none" = true ∧ algorithmPattern "integrity_release_v1" = true := by
  decide

theorem accepts_internal (hformats : formats.Conforms)
    (hadmitted : Admitted formats inputs timestamp) :
    (schemaOf formats "internal").accepts (inputs.internal timestamp) := by
  have hstamp := hadmitted.stamped
  have hkey := hadmitted.signingKeyId
  have hretention := hadmitted.retentionPolicyId
  have huuid := hformats.uuid
  simp [schemaOf, internalManifestSchema, Schema.accepts, ManifestInputs.internal, Json.get, isOne,
    textThat, bounded, huuid, hstamp.dateTime, hstamp.endsWithZ, sha256Pattern_text, hkey,
    hretention, algorithmPattern_fixed]

theorem accepts_public (hformats : formats.Conforms)
    (hadmitted : Admitted formats inputs timestamp) :
    (schemaOf formats "public").accepts (inputs.public' timestamp) := by
  have hstamp := hadmitted.stamped
  have hkey := hadmitted.signingKeyId
  have huuid := hformats.uuid
  simp [schemaOf, publicManifestSchema, Schema.accepts, public_eq, Json.get, isOne, textThat,
    bounded, huuid, hstamp.dateTime, hstamp.endsWithZ, sha256Pattern_text, hkey,
    algorithmPattern_fixed]

end Members

/-- The signing key of the record is the one the manifest was made with. -/
theorem Admitted.of_key {formats : FormatChecker} (hformats : formats.Conforms)
    {inputs : ManifestInputs} {timestamp : String} {key : KeyRecord}
    (htimestamp : inputs.issuedAt.timestamp = .ok timestamp)
    (hclean : key.clean library = .ok ()) (hkeyId : key.keyId = inputs.signingKeyId)
    (hretention : 1 ≤ inputs.retentionPolicyId.length ∧ inputs.retentionPolicyId.length ≤ 128) :
    Admitted formats inputs timestamp where
  stamped := .of_timestamp hformats htimestamp
  signingKeyId := by
    obtain ⟨hlow, hhigh⟩ := bounded_of_keyIdPattern (KeyRecord.identity_of_clean hclean).2
    rw [← hkeyId]
    omega
  retentionPolicyId := hretention

/-- Two inputs with the same seven disclosed members. -/
structure ManifestInputs.SamePublic (inputs inputs' : ManifestInputs) : Prop where
  issuanceId : inputs'.issuanceId = inputs.issuanceId
  issuedAt : inputs'.issuedAt.timestamp = inputs.issuedAt.timestamp
  outputSha256 : inputs'.outputSha256 = inputs.outputSha256
  signingKeyId : inputs'.signingKeyId = inputs.signingKeyId

/-! ## 6. The round trip -/

/-- **What is signed is trusted.**  The pairs of a built manifest are trusted under the registered
key as the kind each of them is, and as no other; and the public pair depends on the disclosed
members alone. -/
theorem manifest_round_trip (hlibrary : library.Canonicalizes) (hwrites : library.WritesFlat)
    (hformats : library.formats.Conforms) {privateKey : SigningPrivateKey κ}
    (hsigns : privateKey.Signs library) {key : KeyRecord} {now : DateTime}
    (hkey : key.SignsFor library privateKey now) {inputs : ManifestInputs}
    (hkeyId : key.keyId = inputs.signingKeyId)
    (hretention : 1 ≤ inputs.retentionPolicyId.length ∧ inputs.retentionPolicyId.length ≤ 128)
    {pair : SignedManifest}
    (h : buildSignedIssuanceManifest library inputs privateKey = .ok pair) (clock : Instant) :
    (∀ kind, TrustedAs library pair.publicPayload pair.publicSignatureEnvelope key now clock kind ↔
      kind = "public") ∧
    (∀ kind, TrustedAs library pair.internalPayload pair.internalSignatureEnvelope key now clock
      kind ↔ kind = "internal") ∧
    ∀ inputs' pair', inputs.SamePublic inputs' →
      buildSignedIssuanceManifest library inputs' privateKey = .ok pair' →
        pair'.publicPayload = pair.publicPayload ∧
        pair'.publicSignatureEnvelope = pair.publicSignatureEnvelope := by
  simp only [buildSignedIssuanceManifest, bind_eq_ok, found_eq_ok, pure_eq_ok] at h ⊢
  obtain ⟨timestamp, htimestamp, internalBytes, hinternal, publicBytes, hpublic, rfl⟩ := h
  have hadmitted := Admitted.of_key hformats htimestamp hkey.clean hkeyId hretention
  refine ⟨fun kind ↦ ?_, fun kind ↦ ?_, ?_⟩
  · rw [← hkeyId, ← kindOf_public inputs]
    exact trustedAs_iff_of_signed hlibrary hwrites hsigns hkey (flat_public inputs)
      (names_public inputs) hpublic (size_public hadmitted) (accepts_public hformats hadmitted)
      (by rw [hkeyId]; rfl) clock kind
  · rw [← hkeyId, ← kindOf_internal inputs]
    exact trustedAs_iff_of_signed hlibrary hwrites hsigns hkey (flat_internal inputs)
      (names_internal inputs) hinternal (size_internal hadmitted)
      (accepts_internal hformats hadmitted) (by rw [hkeyId]; rfl) clock kind
  · rintro inputs' pair' hsame ⟨timestamp', htimestamp', internalBytes', -, publicBytes', hpublic',
      rfl⟩
    obtain rfl : timestamp' = timestamp :=
      Except.ok.inj (htimestamp'.symm.trans (hsame.issuedAt.trans htimestamp))
    have hmembers : inputs'.public' timestamp' = inputs.public' timestamp' := by
      rw [public_eq, public_eq, hsame.issuanceId, hsame.outputSha256, hsame.signingKeyId]
    rw [hmembers] at hpublic'
    obtain rfl := Option.some.inj (hpublic'.symm.trans hpublic)
    exact ⟨rfl, by rw [hsame.signingKeyId]⟩

/-! ## 7. An issuance at midnight in UTC -/

def sampleInternal : List (String × Json) :=
  [("document_id", .text "00000000-0000-0000-0000-000000000005"),
    ("fingerprint_algorithm", .text "none"),
    ("integrity_algorithm", .text "integrity_release_v1"),
    ("issuance_id", .text "00000000-0000-0000-0000-000000000003"),
    ("issued_at", .text "2026-01-01T00:00:00Z"),
    ("output_sha256", .text "aaaaaaaaaaaaaaaaaaaaaaaaaaaaaaaaaaaaaaaaaaaaaaaaaaaaaaaaaaaaaaaa"),
    ("recipient_id", .text "00000000-0000-0000-0000-000000000006"),
    ("retention_policy_id", .text "retention-v1"),
    ("schema_version", .int 1),
    ("signing_key_id", .text "manifest-key-1"),
    ("source_sha256", .text "bbbbbbbbbbbbbbbbbbbbbbbbbbbbbbbbbbbbbbbbbbbbbbbbbbbbbbbbbbbbbbbb")]

def sampleInternalText : String :=
  "\x7b\"document_id\":\"00000000-0000-0000-0000-000000000005\"," ++
    "\"fingerprint_algorithm\":\"none\",\"integrity_algorithm\":\"integrity_release_v1\"," ++
    "\"issuance_id\":\"00000000-0000-0000-0000-000000000003\"," ++
    "\"issued_at\":\"2026-01-01T00:00:00Z\",\"output_sha256\":" ++
    "\"aaaaaaaaaaaaaaaaaaaaaaaaaaaaaaaaaaaaaaaaaaaaaaaaaaaaaaaaaaaaaaaa\"," ++
    "\"recipient_id\":\"00000000-0000-0000-0000-000000000006\"," ++
    "\"retention_policy_id\":\"retention-v1\",\"schema_version\":1," ++
    "\"signing_key_id\":\"manifest-key-1\",\"source_sha256\":" ++
    "\"bbbbbbbbbbbbbbbbbbbbbbbbbbbbbbbbbbbbbbbbbbbbbbbbbbbbbbbbbbbbbbbb\"\x7d"

/-- The signature of the internal text under the private key of `samplePem`. -/
def sampleInternalSignature : List UInt8 :=
  [79, 127, 131, 245, 70, 31, 237, 145, 118, 168, 147, 7, 45, 131, 249, 158, 156, 92, 98, 162, 184,
    26, 121, 26, 196, 119, 205, 12, 119, 108, 12, 95, 46, 82, 49, 175, 134, 176, 103, 118, 148, 51,
    150, 46, 130, 36, 58, 228, 66, 14, 193, 132, 1, 149, 194, 249, 176, 202, 226, 112, 213, 150,
    79, 1]

def samplePrivateKey : SigningPrivateKey Unit where
  publicKey := ()
  sign := fun payload ↦
    if payload = sampleInternalText then sampleInternalSignature else samplePublicSignature

/-- The libraries, on the two texts of the sample. -/
def sampleSigningLibrary : Library Unit where
  parse := fun s ↦
    if s = samplePublicText then some (.object samplePublic)
    else if s = sampleInternalText then some (.object sampleInternal)
    else none
  dumps := fun v ↦ v.members?.bind fun members ↦
    if members.Perm samplePublic then some samplePublicText
    else if members.Perm sampleInternal then some sampleInternalText
    else none
  formats := ⟨fun s ↦ s.length = 36, fun s ↦ Calendar.accepts s.toList⟩
  loadPem := fun s ↦ if s = samplePem then .ed25519 () else .refused
  publicPem := fun _ ↦ samplePem
  verify := fun _ raw payload ↦
    if raw = samplePrivateKey.sign payload then .verified else .invalidSignature

theorem sampleSigningLibrary_dumps {v : Json} {s : String}
    (h : sampleSigningLibrary.dumps v = some s) : ∃ members, v = .object members ∧
      (members.Perm samplePublic ∧ s = samplePublicText ∨
        members.Perm sampleInternal ∧ s = sampleInternalText) := by
  simp only [sampleSigningLibrary, Option.bind_eq_some_iff] at h
  obtain ⟨members, hmembers, h⟩ := h
  refine ⟨members, ?_, ?_⟩
  · cases v <;> simp [Json.members?] at hmembers
    rw [hmembers]
  · split at h
    · rename_i hpublic
      exact .inl ⟨hpublic, (Option.some.inj h).symm⟩
    · simp only [Option.ite_none_right_eq_some, Option.some.injEq] at h
      exact .inr ⟨h.1, h.2.symm⟩

theorem flat_sample : Flat samplePublic ∧ Flat sampleInternal := by
  constructor <;> simp [Flat, samplePublic, sampleInternal]

theorem flat_perm {members members' : List (String × Json)} (hperm : members'.Perm members)
    (h : Flat members) : Flat members' :=
  fun member hmember ↦ h member (hperm.mem_iff.mp hmember)

theorem writtenSize_perm {members members' : List (String × Json)} (hperm : members'.Perm members) :
    writtenSize members' = writtenSize members := by
  rw [writtenSize, writtenSize, (hperm.map _).sum_eq]

theorem sampleSigningLibrary_canonicalizes : sampleSigningLibrary.Canonicalizes where
  finite := by
    intro v s h
    obtain ⟨members, rfl, ⟨hperm, -⟩ | ⟨hperm, -⟩⟩ := sampleSigningLibrary_dumps h
    · rw [Json.finite]
      exact finiteMembers_of_flat (flat_perm hperm flat_sample.1)
    · rw [Json.finite]
      exact finiteMembers_of_flat (flat_perm hperm flat_sample.2)
  nonempty := by
    intro v s h
    obtain ⟨members, rfl, ⟨-, rfl⟩ | ⟨-, rfl⟩⟩ := sampleSigningLibrary_dumps h <;> decide +kernel

theorem sampleSigningLibrary_writesFlat : sampleSigningLibrary.WritesFlat where
  reads := by
    intro members s _ _ h
    obtain ⟨members, hmembers, ⟨hperm, rfl⟩ | ⟨hperm, rfl⟩⟩ := sampleSigningLibrary_dumps h
    · obtain rfl := Json.object.inj hmembers
      exact ⟨samplePublic, hperm.symm, by decide +kernel, by decide +kernel⟩
    · obtain rfl := Json.object.inj hmembers
      exact ⟨sampleInternal, hperm.symm, by decide +kernel, by decide +kernel⟩
  size := by
    intro members s _ h
    obtain ⟨members, hmembers, ⟨hperm, rfl⟩ | ⟨hperm, rfl⟩⟩ := sampleSigningLibrary_dumps h
    · obtain rfl := Json.object.inj hmembers
      rw [writtenSize_perm hperm]
      decide +kernel
    · obtain rfl := Json.object.inj hmembers
      rw [writtenSize_perm hperm]
      decide +kernel

/-- Issued at seven in the morning, seven hours east of UTC. -/
def sampleInputs : ManifestInputs where
  issuanceId := ⟨3⟩
  documentId := ⟨5⟩
  recipientId := ⟨6⟩
  issuedAt := ⟨1767250800000000, some 25200000000⟩
  sourceSha256 := ⟨0xbbbbbbbbbbbbbbbbbbbbbbbbbbbbbbbbbbbbbbbbbbbbbbbbbbbbbbbbbbbbbbbb⟩
  outputSha256 := ⟨0xaaaaaaaaaaaaaaaaaaaaaaaaaaaaaaaaaaaaaaaaaaaaaaaaaaaaaaaaaaaaaaaa⟩
  signingKeyId := "manifest-key-1"
  retentionPolicyId := "retention-v1"

theorem manifest_round_trip_sample : ∃ pair,
    buildSignedIssuanceManifest sampleSigningLibrary sampleInputs samplePrivateKey = .ok pair ∧
    TrustedAs sampleSigningLibrary pair.publicPayload pair.publicSignatureEnvelope sampleKey
      (.aware 100) 0 "public" ∧
    TrustedAs sampleSigningLibrary pair.internalPayload pair.internalSignatureEnvelope sampleKey
      (.aware 100) 0 "internal" ∧
    ¬ TrustedAs sampleSigningLibrary pair.internalPayload pair.internalSignatureEnvelope sampleKey
      (.aware 100) 0 "public" := by
  have hformats : sampleSigningLibrary.formats.Conforms :=
    ⟨fun u ↦ by simp only [sampleSigningLibrary, decide_eq_true_eq]; exact length_text_uuid u,
      fun s hs ↦ by simpa [sampleSigningLibrary] using hs⟩
  have hsigns : samplePrivateKey.Signs sampleSigningLibrary := by
    intro payload
    refine ⟨?_, if_pos rfl⟩
    simp only [samplePrivateKey]
    split <;> rfl
  have hkey : sampleKey.SignsFor sampleSigningLibrary samplePrivateKey (.aware 100) :=
    ⟨by decide +kernel, by decide +kernel, by decide, 100, 0, rfl, rfl, by decide,
      fun _ hlimit ↦ ⟨1000, (Option.some.inj hlimit).symm, by decide⟩⟩
  have hbuild : buildSignedIssuanceManifest sampleSigningLibrary sampleInputs samplePrivateKey =
      .ok ⟨sampleInternalText, .object (signEnvelope sampleInternalText "manifest-key-1"
        samplePrivateKey), samplePublicText, .object (signEnvelope samplePublicText
        "manifest-key-1" samplePrivateKey)⟩ := by decide +kernel
  obtain ⟨hpublic, hinternal, -⟩ := manifest_round_trip sampleSigningLibrary_canonicalizes
    sampleSigningLibrary_writesFlat hformats hsigns hkey rfl (by decide) hbuild 0
  exact ⟨_, hbuild, (hpublic _).mpr rfl, (hinternal _).mpr rfl,
    fun h ↦ absurd ((hinternal _).mp h) (by decide)⟩

end Splitbind.ManifestVerifier
