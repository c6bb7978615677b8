import Mathlib.Data.Set.List
import Splitbind.Demo.VerificationSource
import Splitbind.Documents.ManifestRoundTrip

/-!
# Manifest agreement — the manifests of the transactions are those of the verifier

The transactions of the workers take the libraries as `ManifestLibrary`, which hands them objects
and verdicts, and read rows whose columns hold what the models wrote.  Every library makes one, and
over it building and verifying are the full functions.
-/

namespace Splitbind

open Transaction

/-! ## 1. Values of a column as JSON -/

def JsonValue.toJson : JsonValue → Json
  | .null => .null
  | .bool b => .bool b
  | .int i => .int i
  | .float q => .float q
  | .text s => .text s
  | .texts items => .array (items.map .text)

def JsonObject.toJson (object : JsonObject) : List (String × Json) :=
  object.map fun member ↦ (member.1, member.2.toJson)

/-- The value a column can hold; nothing that is nested deeper than a list of texts. -/
def JsonValue.ofJson : Json → Option JsonValue
  | .null => some .null
  | .bool b => some (.bool b)
  | .int i => some (.int i)
  | .float q => some (.float q)
  | .nonFinite _ => none
  | .text s => some (.text s)
  | .array items => (items.mapM Json.text?).map .texts
  | .object _ => none

def JsonObject.ofMembers (members : List (String × Json)) : Option JsonObject :=
  members.mapM fun member ↦ (JsonValue.ofJson member.2).map fun value ↦ (member.1, value)

theorem JsonValue.ofJson_eq_some {v : Json} {w : JsonValue} :
    JsonValue.ofJson v = some w ↔ v = w.toJson := by
  have htexts : ∀ items texts, List.mapM Json.text? items = some texts ↔
      items = texts.map Json.text :=
    fun _ _ ↦ Json.mapM_eq_some_iff fun _ _ ↦ Json.text?_eq_some
  cases v <;> cases w <;> simp [JsonValue.ofJson, JsonValue.toJson, htexts]

theorem JsonObject.ofMembers_eq_some {members : List (String × Json)} {object : JsonObject} :
    JsonObject.ofMembers members = some object ↔ members = object.toJson := by
  refine Json.mapM_eq_some_iff fun a b ↦ ?_
  obtain ⟨name, v⟩ := a
  obtain ⟨name', w⟩ := b
  simp only [Option.map_eq_some_iff, Prod.mk.injEq]
  constructor
  · rintro ⟨w', hw, rfl, rfl⟩
    exact ⟨rfl, JsonValue.ofJson_eq_some.mp hw⟩
  · rintro ⟨rfl, hv⟩
    exact ⟨w, JsonValue.ofJson_eq_some.mpr hv, rfl, rfl⟩

theorem JsonObject.map_fst_toJson (object : JsonObject) :
    object.toJson.map Prod.fst = object.keys := by
  rw [JsonObject.toJson, List.map_map]
  rfl

theorem JsonObject.get_toJson (object : JsonObject) (name : String) :
    Json.get object.toJson name = (object.get name).map JsonValue.toJson := by
  rw [Json.get, JsonObject.toJson, List.find?_map, JsonObject.get, Option.map_map, Option.map_map]
  rfl

theorem JsonValue.toJson_eq_text {v : JsonValue} {s : String} :
    v.toJson = .text s ↔ v = .text s := by
  cases v <;> simp [JsonValue.toJson]

theorem JsonObject.get_toJson_eq_text {object : JsonObject} {name s : String} :
    Json.get object.toJson name = some (.text s) ↔ object.get name = some (.text s) := by
  rw [JsonObject.get_toJson, Option.map_eq_some_iff]
  constructor
  · rintro ⟨v, hv, htext⟩
    rw [hv, JsonValue.toJson_eq_text.mp htext]
  · exact fun h ↦ ⟨.text s, h, rfl⟩

/-! ## 2. The libraries and the rows -/

def ManifestKind.text : ManifestKind → String
  | .internalKind => "internal"
  | .publicKind => "public"

theorem SigningKeyStatus.text_eq_revoked {status : SigningKeyStatus} :
    status.text = "revoked" ↔ status = .revoked := by
  cases status <;> simp [SigningKeyStatus.text]

/-- The record of a row; its times are read with a zone. -/
@[simps]
def SigningKey.record (key : SigningKey) (createdAt : Instant) : ManifestVerifier.KeyRecord where
  id := key.id
  organizationId := key.organizationId
  keyId := key.keyId
  algorithm := key.algorithm
  publicKey := key.publicKey
  status := key.status.text
  validFrom := .aware key.validFrom
  validUntil := key.validUntil.map .aware
  revokedAt := key.revokedAt.map .aware
  metadata := .object key.metadata.toJson
  createdAt := .aware createdAt

namespace ManifestVerifier

variable {κ : Type}

/-- What the transactions see of the libraries. -/
@[simps]
def Library.manifestLibrary (library : Library κ) : ManifestLibrary where
  dumps object := (library.dumps (.object object.toJson)).getD ""
  loads payload :=
    match parseExactPayload library (.text payload) with
    | .ok (members, _, _) => JsonObject.ofMembers members
    | .error _ => none
  schemaAccepts kind object := (schemaOf library.formats kind.text).accepts object.toJson
  validPublicPem value :=
    match validateEd25519PublicPem library value with
    | .ok _ => true
    | .error _ => false
  checkSignature publicKey signature payload :=
    match decodeSignature library publicKey (some (.text signature)) with
    | .error _ => .malformed
    | .ok (raw, verifier) =>
      match library.verify verifier raw payload with
      | .invalidSignature => .invalid
      | .raised => .failed
      | .verified => .valid
  isoformat t := String.ofList (Calendar.text t)

section Verifying

variable {library : Library κ} {key : SigningKey} {createdAt : Instant}

/-! ## 3. Verifying -/

theorem cleanWindow_record : (key.record createdAt).cleanWindow = .ok () ↔
    ¬ ∃ limit ∈ key.validUntil, limit ≤ key.validFrom := by
  cases huntil : key.validUntil <;>
    simp [KeyRecord.cleanWindow, SigningKey.record, huntil, DateTime.le]

theorem cleanRevocation_record : (key.record createdAt).cleanRevocation = .ok () ↔
    if key.status = .revoked then
      ¬ (key.revokedAt = none ∨ ∃ revoked ∈ key.revokedAt, revoked < key.validFrom)
    else key.revokedAt = none := by
  rw [KeyRecord.cleanRevocation]
  by_cases hrevoked : key.status = .revoked
  · rw [if_pos hrevoked]
    cases hat : key.revokedAt <;>
      simp [SigningKeyStatus.text_eq_revoked, hrevoked, hat, DateTime.lt]
  · rw [if_neg hrevoked]
    cases hat : key.revokedAt <;> simp [SigningKeyStatus.text_eq_revoked, hrevoked, hat]

theorem cleanMetadata_record : (key.record createdAt).cleanMetadata = .ok () ↔
    ¬ ∃ member ∈ key.metadata, member.1 ∉ ["label", "purpose"] ∨
      ¬ Splitbind.safeMetadataValue member.2 := by
  have hvalue : ∀ v : JsonValue, KeyRecord.safeMetadataValue v.toJson =
      Splitbind.safeMetadataValue v := fun v ↦ by cases v <;> rfl
  simp [KeyRecord.cleanMetadata, SigningKey.record, Json.members?, JsonObject.toJson, hvalue]

/-- The same records pass. -/
theorem clean_record : (key.record createdAt).clean library = .ok () ↔
    key.clean library.manifestLibrary = .ok () := by
  have hpem : library.manifestLibrary.validPublicPem key.publicKey = true ↔
      ∃ verifier, validateEd25519PublicPem library key.publicKey = .ok verifier := by
    cases h : validateEd25519PublicPem library key.publicKey <;> simp [Library.manifestLibrary, h]
  rw [KeyRecord.clean, SigningKey.clean]
  by_cases hrevoked : key.status = .revoked <;>
    simp [-Library.manifestLibrary_validPublicPem, cleanWindow_record, cleanRevocation_record,
      cleanMetadata_record, hpem, hrevoked]

/-- `verify_stored_manifest` looks at the algorithm once more before. -/
theorem registry_record : (do
    raiseIf ((key.record createdAt).algorithm ≠ "Ed25519") (Raised.validation "registry algorithm")
    (key.record createdAt).clean library) = .ok () ↔ key.clean library.manifestLibrary = .ok () := by
  rw [← @clean_record _ _ _ createdAt, bind_eq_ok]
  simp [KeyRecord.clean]

/-- The same verdict on status and window. -/
theorem verifyLifecycle_record (now : Instant) :
    verifyLifecycle (key.record createdAt) (.aware now) =
      .ok (Splitbind.verifyLifecycle key now) := by
  rw [verifyLifecycle, Splitbind.verifyLifecycle]
  by_cases hrevoked : key.status = .revoked
  · simp [SigningKeyStatus.text_eq_revoked, hrevoked]
  have hknown : key.status.text ∈ ["active", "verify_only"] := by
    cases h : key.status <;> simp_all [SigningKeyStatus.text]
  by_cases hearly : now < key.validFrom
  · simp [SigningKeyStatus.text_eq_revoked, hrevoked, hknown, KeyRecord.outsideWindow, DateTime.lt,
      hearly]
  · cases huntil : key.validUntil <;>
      simp [SigningKeyStatus.text_eq_revoked, hrevoked, hknown, KeyRecord.outsideWindow,
        DateTime.lt, DateTime.le, hearly, huntil]

/-- The names of an envelope are the three, in whatever order. -/
theorem names_record {signature : JsonObject} (hkeys : signature.keys.Nodup) :
    (signature.toJson.all (fun member ↦ member.1 ∈ ["algorithm", "key_id", "signature"]) ∧
        ∀ name ∈ ["algorithm", "key_id", "signature"],
          name ∈ signature.toJson.map Prod.fst) ↔
      signature.keys.length = 3 ∧ ∀ name ∈ ["algorithm", "key_id", "signature"],
        name ∈ signature.keys := by
  rw [sameNames_iff, JsonObject.map_fst_toJson]
  have hthree : ["algorithm", "key_id", "signature"].Nodup := by decide
  constructor
  · intro h
    have hperm := (List.perm_ext_iff_of_nodup hkeys hthree).mpr h
    exact ⟨hperm.length_eq, fun name ↦ (h name).mpr⟩
  · rintro ⟨hlength, hall⟩ name
    -- three names among three that differ are all of them
    have hperm := (List.subperm_of_subset hthree hall).perm_of_length_le hlength.le
    exact hperm.mem_iff.symm

/-- The same verdict on an envelope, for a key whose PEM passed `clean`. -/
theorem verifyEnvelope_record {signature : JsonObject} (hkeys : signature.keys.Nodup)
    {verifier : κ} (hkey : validateEd25519PublicPem library key.publicKey = .ok verifier)
    (object : JsonObject) (stored : String) (now : Instant) :
    verifyEnvelope library object.toJson stored (.object signature.toJson) (key.record createdAt)
        (.aware now) =
      .ok (Splitbind.verifyEnvelope library.manifestLibrary object stored signature key now) := by
  rw [verifyEnvelope, Splitbind.verifyEnvelope]
  dsimp only [Json.members?]
  by_cases hnames : signature.keys.length = 3 ∧ ∀ name ∈ ["algorithm", "key_id", "signature"],
      name ∈ signature.keys
  swap
  · rw [if_pos (mt (names_record hkeys).mp hnames), if_pos hnames]
    rfl
  rw [if_neg (not_not.mpr ((names_record hkeys).mpr hnames)), if_neg (not_not.mpr hnames)]
  by_cases halgorithm : signature.get "algorithm" = some (.text "Ed25519")
  swap
  · rw [if_pos (mt JsonObject.get_toJson_eq_text.mp halgorithm), if_pos halgorithm]
    rfl
  rw [if_neg (not_not.mpr (JsonObject.get_toJson_eq_text.mpr halgorithm)),
    if_neg (not_not.mpr halgorithm)]
  by_cases hids : signature.get "key_id" = some (.text key.keyId) ∧
      object.get "signing_key_id" = some (.text key.keyId)
  swap
  · rw [if_pos (not_and_or.mp hids)]
    split
    · rename_i keyId hkeyId
      rw [if_pos]
      · rfl
      by_contra hsame
      rw [not_or, not_not, not_not] at hsame
      obtain ⟨hpayload, rfl⟩ := hsame
      exact hids ⟨JsonObject.get_toJson_eq_text.mp hkeyId, JsonObject.get_toJson_eq_text.mp hpayload⟩
    · rfl
  obtain ⟨hkeyId, hpayload⟩ := hids
  rw [if_neg (by simp [hkeyId, hpayload]), JsonObject.get_toJson_eq_text.mpr hkeyId,
    JsonObject.get_toJson_eq_text.mpr hpayload]
  dsimp only
  rw [if_neg (by simp), JsonObject.get_toJson]
  cases hsignature : signature.get "signature" with
  | none => rfl
  | some v =>
    cases v with
    | text encoded =>
      dsimp only [Option.map_some, JsonValue.toJson, Library.manifestLibrary]
      rw [SigningKey.record_publicKey]
      cases hdecode : decodeSignature library key.publicKey (some (.text encoded)) with
      | error e =>
        dsimp only
        rw [if_pos (decodeSignature_caught hkey hdecode)]
        rfl
      | ok decoded =>
        dsimp only
        cases library.verify decoded.2 decoded.1 stored with
        | verified => exact verifyLifecycle_record now
        | invalidSignature => rfl
        | raised => rfl
    | null | bool | int | float | texts => rfl

theorem kindOf_toJson (object : JsonObject) : kindOf object.toJson =
    (if "recipient_id" ∈ object.keys then ManifestKind.internalKind else .publicKind).text := by
  rw [kindOf, JsonObject.map_fst_toJson]
  split <;> rfl

theorem unexpectedKind_iff {kind : ManifestKind} {expectedKind : Option ManifestKind} :
    (∃ expected ∈ expectedKind.map ManifestKind.text, kind.text ≠ expected) ↔
      ∃ expected ∈ expectedKind, kind ≠ expected := by
  have htext : ∀ kind kind' : ManifestKind, kind.text = kind'.text ↔ kind = kind' :=
    fun kind kind' ↦ by cases kind <;> cases kind' <;> decide
  cases expectedKind <;> simp [htext]

/-- A payload that the schema admits is an object that a column can hold. -/
theorem exists_object_of_accepts {members : List (String × Json)}
    (hnames : (members.map Prod.fst).Nodup) {schema : Schema}
    (hscalar : ∀ property ∈ schema, ∀ v, property.2 v = true →
      ∃ w, JsonValue.ofJson v = some w) (h : schema.accepts members = true) :
    ∃ object : JsonObject, members = object.toJson := by
  simp only [Schema.accepts, Bool.and_eq_true, List.all_eq_true, List.any_eq_true,
    Option.any_eq_true, decide_eq_true_eq] at h
  obtain ⟨hchecks, hknown⟩ := h
  have hvalue : members ∈ Set.range (List.map fun member : String × JsonValue ↦
      (member.1, member.2.toJson)) := by
    rw [Set.range_list_map]
    intro member hmember
    obtain ⟨property, hproperty, hname⟩ := hknown member hmember
    obtain ⟨v, hget, hcheck⟩ := hchecks property hproperty
    obtain ⟨w, hw⟩ := hscalar property hproperty v hcheck
    rw [hname, (Json.get_eq_some_iff hnames).mpr hmember, Option.some.injEq] at hget
    exact ⟨(member.1, w), Prod.ext rfl (hget.trans (JsonValue.ofJson_eq_some.mp hw)).symm⟩
  obtain ⟨object, hobject⟩ := hvalue
  exact ⟨object, hobject.symm⟩

theorem ofJson_of_isOne {v : Json} (h : isOne v = true) : ∃ w, JsonValue.ofJson v = some w := by
  cases v <;> simp_all [isOne, JsonValue.ofJson]

theorem ofJson_of_textThat {check : String → Bool} {v : Json} (h : textThat check v = true) :
    ∃ w, JsonValue.ofJson v = some w := by
  cases v <;> simp_all [textThat, JsonValue.ofJson]

theorem scalar_schemaOf {formats : FormatChecker} {kind : String} :
    ∀ property ∈ schemaOf formats kind, ∀ v, property.2 v = true →
      ∃ w, JsonValue.ofJson v = some w := by
  rw [schemaOf]
  split <;>
    simp only [internalManifestSchema, publicManifestSchema, List.forall_mem_cons,
      List.not_mem_nil, false_implies, implies_true, and_true] <;>
    refine ⟨fun _ ↦ ofJson_of_isOne, ?_⟩ <;>
    and_intros <;>
    exact fun _ ↦ ofJson_of_textThat

/-- The verdict of the transactions is that of the verifier.  Only its code may differ, on a payload
with a member that no column can hold: the one finds it unreadable, the other refuses its form. -/
theorem verifyStoredManifest_agrees (hlibrary : library.Canonicalizes) {signature : JsonObject}
    (hkeys : signature.keys.Nodup) (payload : String) (key : SigningKey)
    (createdAt now clock : Instant) (expectedKind : Option ManifestKind) :
    ∃ verdict, verifyStoredManifest library (.text payload) (.object signature.toJson)
        (key.record createdAt) (some (.aware now)) clock (expectedKind.map ManifestKind.text) =
          .ok verdict ∧
      verdict = { Splitbind.verifyStoredManifest library.manifestLibrary payload signature key now
        expectedKind with code := verdict.code } ∧
      ((∀ members, library.parse payload = some (.object members) →
          ∃ object : JsonObject, members = object.toJson) →
        verdict = Splitbind.verifyStoredManifest library.manifestLibrary payload signature key now
          expectedKind) := by
  rw [verifyStoredManifest, Splitbind.verifyStoredManifest]
  dsimp only
  cases hclean : key.clean library.manifestLibrary with
  | error e =>
    split
    · exact ⟨_, rfl, rfl, fun _ ↦ rfl⟩
    · rename_i hfine
      rw [registry_record.mp hfine] at hclean
      cases hclean
  | ok _ =>
    rw [registry_record.mpr hclean]
    dsimp only
    have hrecord : (key.record createdAt).clean library = .ok () := clean_record.mpr hclean
    obtain ⟨verifier, hkey⟩ := KeyRecord.publicKey_of_clean hrecord
    rw [SigningKey.record_publicKey] at hkey
    cases hpayload : parseExactPayload library (.text payload) with
    | error e =>
      have hloads : library.manifestLibrary.loads payload = none := by
        rw [Library.manifestLibrary_loads, hpayload]
      rw [hloads, ite_self]
      exact ⟨_, rfl, rfl, fun _ ↦ rfl⟩
    | ok parsed =>
      obtain ⟨members, stored, canonical⟩ := parsed
      obtain ⟨hstored, hempty, hsize, hparse, hunique, -, hdumps⟩ :=
        (parseExactPayload_eq_ok hlibrary).mp hpayload
      obtain rfl := StoredPayload.text.inj hstored
      have hfits : ¬ (payload.utf8ByteSize = 0 ∨ payload.utf8ByteSize > maxManifestBytes) := by
        simp [hempty, hsize]
      have hloads : library.manifestLibrary.loads payload = JsonObject.ofMembers members := by
        rw [Library.manifestLibrary_loads, hpayload]
      rw [if_neg hfits, hloads]
      dsimp only
      cases hobject : JsonObject.ofMembers members with
      | none =>
        -- such a payload ends at one of the checks up to the schema
        have hflat : ¬ ∃ object : JsonObject, members = object.toJson := by
          rintro ⟨object, rfl⟩
          rw [JsonObject.ofMembers_eq_some.mpr rfl] at hobject
          cases hobject
        split
        · exact ⟨_, rfl, rfl, fun h ↦ absurd (h members hparse) hflat⟩
        split
        · exact ⟨_, rfl, rfl, fun h ↦ absurd (h members hparse) hflat⟩
        split
        · exact ⟨_, rfl, rfl, fun h ↦ absurd (h members hparse) hflat⟩
        rename_i haccepts
        rw [Json.unique, Bool.and_eq_true, decide_eq_true_eq] at hunique
        exact absurd (exists_object_of_accepts hunique.1 scalar_schemaOf (not_not.mp haccepts)) hflat
      | some object =>
        obtain rfl := JsonObject.ofMembers_eq_some.mp hobject
        have hcanonical : library.manifestLibrary.dumps object = canonical := by
          rw [Library.manifestLibrary_dumps, hdumps]
          rfl
        dsimp only
        rw [hcanonical]
        by_cases hsame : payload = canonical
        swap
        · rw [if_pos hsame, if_pos hsame]
          exact ⟨_, rfl, rfl, fun _ ↦ rfl⟩
        rw [if_neg (not_not.mpr hsame), if_neg (not_not.mpr hsame), kindOf_toJson]
        generalize (if "recipient_id" ∈ object.keys then ManifestKind.internalKind
          else .publicKind) = kind
        by_cases hexpected : ∃ expected ∈ expectedKind, kind ≠ expected
        · rw [if_pos (unexpectedKind_iff.mpr hexpected), if_pos hexpected]
          exact ⟨_, rfl, rfl, fun _ ↦ rfl⟩
        rw [if_neg (mt unexpectedKind_iff.mp hexpected), if_neg hexpected,
          Library.manifestLibrary_schemaAccepts]
        split
        · exact ⟨_, rfl, rfl, fun _ ↦ rfl⟩
        · exact ⟨_, verifyEnvelope_record hkeys hkey object payload now, rfl, fun _ ↦ rfl⟩

theorem windowAware_record : (key.record createdAt).WindowAware := by
  refine ⟨⟨key.validFrom, rfl⟩, fun limit hlimit ↦ ?_⟩
  obtain ⟨until', -, rfl⟩ := Option.map_eq_some_iff.mp hlimit
  exact ⟨until', rfl⟩

/-- What the transactions trust is signed by a valid registry record. -/
theorem trusted_record_iff (hlibrary : library.Canonicalizes) {signature : JsonObject}
    (hkeys : signature.keys.Nodup) (payload : String) (key : SigningKey) (createdAt now : Instant)
    (expectedKind : Option ManifestKind) :
    (Splitbind.verifyStoredManifest library.manifestLibrary payload signature key now
        expectedKind).trusted = true ↔
      ∃ value members raw verifier, TrustedBy library (.object signature.toJson)
        (key.record createdAt) (.aware now) (expectedKind.map ManifestKind.text) payload value
        members raw verifier := by
  obtain ⟨verdict, hverdict, hsame, -⟩ := verifyStoredManifest_agrees hlibrary hkeys payload key
    createdAt now now expectedKind
  obtain ⟨verdict', hverdict', htrusted⟩ := trusted_text_iff hlibrary
    (@windowAware_record key createdAt) payload (.object signature.toJson) (some (.aware now)) now
    (expectedKind.map ManifestKind.text)
  obtain rfl := Except.ok.inj (hverdict'.symm.trans hverdict)
  have hequal := congrArg ManifestVerification.trusted hsame
  rw [← hequal, htrusted]
  rfl

/-- A source whose retained manifest checks out has a manifest of the organisation, signed by a
valid registry record, that names it and its output. -/
theorem manifestCheck_signed (hlibrary : library.Canonicalizes) {db : SourceDatabase}
    (hkeys : ∀ manifest ∈ db.manifests, manifest.publicSignatureEnvelope.keys.Nodup)
    {now : Instant} {issuance : Issuance} (createdAt : Instant)
    (h : db.manifestCheck library.manifestLibrary now issuance = some true) :
    ∃ manifest ∈ db.manifests, ∃ signingKey ∈ db.signingKeys, ∃ object : JsonObject,
      manifest.issuanceId = issuance.id ∧ manifest.organizationId = issuance.organizationId ∧
      signingKey.organizationId = issuance.organizationId ∧
      (∃ members raw verifier, TrustedBy library (.object manifest.publicSignatureEnvelope.toJson)
        (signingKey.record createdAt) (.aware now) (some "public") manifest.publicPayload
        object.toJson members raw verifier) ∧
      object.get "issuance_id" = some (.text issuance.id.text) ∧
      object.get "output_sha256" = issuance.outputSha256.map fun sha256 ↦ .text sha256.text := by
  unfold SourceDatabase.manifestCheck at h
  split at h
  · cases h
  rename_i manifest hmanifest
  split at h
  · cases h
  rename_i signingKey hsigningKey
  split at h
  swap
  · cases h
  rename_i htrusted
  have hmem := List.mem_of_find?_eq_some hmanifest
  have howner := List.find?_some hmanifest
  have hkeyOwner := List.find?_some hsigningKey
  rw [decide_eq_true_eq] at howner hkeyOwner
  obtain ⟨value, members, raw, verifier, hsigned⟩ :=
    (trusted_record_iff hlibrary (hkeys manifest hmem) _ _ createdAt _ _).mp htrusted
  have hparsed : parseExactPayload library (.text manifest.publicPayload) =
      .ok (value, manifest.publicPayload, manifest.publicPayload) :=
    (parseExactPayload_eq_ok hlibrary).mpr ⟨rfl, hlibrary.nonempty _ _ hsigned.canonical,
      hsigned.size, hsigned.parsed, hsigned.unique, hsigned.finite, hsigned.canonical⟩
  rw [Library.manifestLibrary_loads, hparsed] at h
  dsimp only at h
  split at h
  · cases h
  rename_i object hobject
  obtain rfl := JsonObject.ofMembers_eq_some.mp hobject
  rw [Option.some.injEq, decide_eq_true_eq] at h
  exact ⟨manifest, hmem, signingKey, List.mem_of_find?_eq_some hsigningKey, object, howner.1,
    howner.2, hkeyOwner.2, ⟨members, raw, verifier, hsigned⟩, h⟩

end Verifying

/-! ## 4. Building -/

/-- A loaded private key as the transactions see it. -/
def SigningPrivateKey.privateKey (library : Library κ) (privateKey : SigningPrivateKey κ) :
    PrivateKey where
  publicKeyPem := library.publicPem privateKey.publicKey
  sign payload := String.ofList (Base64.encode (privateKey.sign payload))

/-- The inputs that the transactions read off an issuance. -/
def manifestInputs (issuance : Issuance) (sourceSha256 outputSha256 : Sha256)
    (signingKeyId retentionPolicyId : String) : ManifestInputs where
  issuanceId := issuance.id
  documentId := issuance.documentId
  recipientId := issuance.recipientId
  issuedAt := ⟨issuance.issuedAt, some 0⟩
  sourceSha256 := sourceSha256
  outputSha256 := outputSha256
  signingKeyId := signingKeyId
  retentionPolicyId := retentionPolicyId

section Building

variable {library : Library κ} {issuance : Issuance} {sourceSha256 outputSha256 : Sha256}
  {signingKeyId retentionPolicyId : String}

theorem internal_manifestInputs :
    (manifestInputs issuance sourceSha256 outputSha256 signingKeyId retentionPolicyId).internal
        (library.manifestLibrary.isoformat issuance.issuedAt) =
      (internalManifest library.manifestLibrary issuance sourceSha256 outputSha256 signingKeyId
        retentionPolicyId).toJson := rfl

theorem public_manifestInputs :
    (manifestInputs issuance sourceSha256 outputSha256 signingKeyId retentionPolicyId).public'
        (library.manifestLibrary.isoformat issuance.issuedAt) =
      (publicManifest (internalManifest library.manifestLibrary issuance sourceSha256 outputSha256
        signingKeyId retentionPolicyId)).toJson := rfl

/-- Where the full builder returns, it returns what the transactions build. -/
theorem buildSignedIssuanceManifest_agrees {privateKey : SigningPrivateKey κ} {pair : SignedManifest}
    (h : buildSignedIssuanceManifest library (manifestInputs issuance sourceSha256 outputSha256
      signingKeyId retentionPolicyId) privateKey = .ok pair) :
    let built := Splitbind.buildSignedIssuanceManifest library.manifestLibrary issuance sourceSha256
      outputSha256 signingKeyId (privateKey.privateKey library) retentionPolicyId
    pair = ⟨built.internalPayload, .object built.internalSignatureEnvelope.toJson,
      built.publicPayload, .object built.publicSignatureEnvelope.toJson⟩ := by
  simp only [buildSignedIssuanceManifest, bind_eq_ok, found_eq_ok, pure_eq_ok] at h
  obtain ⟨timestamp, htimestamp, internalBytes, hinternal, publicBytes, hpublic, rfl⟩ := h
  have htext : timestamp = library.manifestLibrary.isoformat issuance.issuedAt := by
    simp only [manifestInputs, IssuedAt.timestamp, found_some, ok_bind, bind_eq_ok, exists_unit,
      raiseIf_eq_ok, pure_eq_ok, sub_zero] at htimestamp
    exact htimestamp.2.symm
  rw [htext, internal_manifestInputs] at hinternal
  rw [htext, public_manifestInputs] at hpublic
  simp only [Splitbind.buildSignedIssuanceManifest, Library.manifestLibrary_dumps, hinternal,
    hpublic, Option.getD_some]
  rfl

end Building

end ManifestVerifier

end Splitbind
