import Splitbind.Documents.TrustedManifests
import Splitbind.Library.Table

/-!
# Key lifecycle — how the registry changes, and what it never gives back

A key record moves from active to verify-only to revoked through `transition_signing_key` alone.
Every other save, and every delete, of a key or a manifest is refused or changes nothing that is
stored.
-/

namespace Splitbind.ManifestVerifier

open Transaction

variable {κ : Type} {library : Library κ}

/-! ## 1. Saving a key -/

namespace KeyRecord

/-- The columns `save` compares, apart from the two of the lifecycle. -/
def evidenceChanged (record persisted : KeyRecord) : Prop :=
  record.keyId ≠ persisted.keyId ∨ record.algorithm ≠ persisted.algorithm ∨
    record.publicKey ≠ persisted.publicKey ∨ record.validFrom ≠ persisted.validFrom ∨
    record.validUntil ≠ persisted.validUntil ∨ record.metadata ≠ persisted.metadata ∨
    record.createdAt ≠ persisted.createdAt

/-- The two columns of the lifecycle. -/
def lifecycleChanged (record persisted : KeyRecord) : Prop :=
  record.status ≠ persisted.status ∨ record.revokedAt ≠ persisted.revokedAt

instance (record persisted : KeyRecord) : Decidable (evidenceChanged record persisted) :=
  inferInstanceAs (Decidable (_ ∨ _))

instance (record persisted : KeyRecord) : Decidable (lifecycleChanged record persisted) :=
  inferInstanceAs (Decidable (_ ∨ _))

/-- A time as the database returns it: one without a zone is taken to be in UTC. -/
def zoned : DateTime → DateTime
  | .aware t => .aware t
  | .naive t => .aware t

/-- A new record as the database returns it. -/
def inserted (record : KeyRecord) : KeyRecord :=
  { record with
    validFrom := zoned record.validFrom
    validUntil := record.validUntil.map zoned
    revokedAt := record.revokedAt.map zoned
    createdAt := zoned record.createdAt }

/-- `SigningKeyStatus.values`. -/
def statusValues : List String := ["active", "verify_only", "revoked"]

/-- The check constraints of the table. -/
def rowConstraints (record : KeyRecord) : Except Raised Unit := do
  raiseIf (record.status ∉ statusValues) (.integrity "signkey_status_stable")
  match record.validUntil with
  | none => pure ()
  | some limit =>
    raiseIf ((← limit.le record.validFrom) = true) (.integrity "signkey_valid_window_ordered")
  raiseIf (¬ (record.status = "revoked" ∧ record.revokedAt ≠ none ∨
      record.status ∈ ["active", "verify_only"] ∧ record.revokedAt = none))
    (.integrity "signkey_revocation_state")

/-- `save` of a loaded record; `lifecycleWrite` is the capability of the lifecycle service. -/
def save (library : Library κ) (lifecycleWrite : Bool) (record : KeyRecord)
    (persisted : Option KeyRecord) : Except Raised KeyRecord := do
  let persisted ← found persisted (.doesNotExist "SigningKey")
  raiseIf ((evidenceChanged record persisted ∨ lifecycleChanged record persisted) ∧
      (lifecycleWrite = false ∨ evidenceChanged record persisted))
    (.validation "signing-key historical evidence is immutable")
  raiseIf (record.organizationId ≠ persisted.organizationId)
    (.validation "organization cannot be changed after creation")
  record.clean library
  record.rowConstraints
  return record

end KeyRecord

/-! ## 2. The registry -/

structure ManifestRecord where
  id : Nat
  organizationId : UUID
  issuanceId : UUID
  signingKeyId : UUID
  internalPayload : String
  internalSignatureEnvelope : Json
  publicPayload : String
  publicSignatureEnvelope : Json
  createdAt : DateTime
deriving DecidableEq

structure Registry where
  keys : List KeyRecord
  manifests : List ManifestRecord

/-- What may be attempted on the rows of the registry. -/
inductive RegistryOperation
  | transitionSigningKey (keyPk : UUID) (targetStatus : String) (at' : DateTime)
  | saveKey (record : KeyRecord)
  | addKey (record : KeyRecord)
  | deleteKey (keyPk : UUID)
  | saveManifest (record : ManifestRecord)
  | addManifest (record : ManifestRecord) (issuanceOrganizationId : UUID)
  | deleteManifest (manifestPk : Nat)

namespace Registry

def key (registry : Registry) (keyPk : UUID) : Option KeyRecord :=
  registry.keys.find? fun record ↦ record.id = keyPk

def manifest (registry : Registry) (manifestPk : Nat) : Option ManifestRecord :=
  registry.manifests.find? fun record ↦ record.id = manifestPk

def allowed : String → List String
  | "active" => ["verify_only", "revoked"]
  | "verify_only" => ["revoked"]
  | _ => []

/-- `at.tzinfo is None or at < key.valid_from`: a time without a zone is not compared. -/
def lifecycleTimeInvalid (key : KeyRecord) : DateTime → Except Raised Bool
  | .naive _ => .ok true
  | .aware t => (DateTime.aware t).lt key.validFrom

/-- `transition_signing_key`. -/
def transitionSigningKey (library : Library κ) (registry : Registry) (keyPk : UUID)
    (targetStatus : String) (at' : DateTime) : Except Raised Registry := do
  raiseIf (targetStatus ∉ KeyRecord.statusValues)
    (.validation "signing-key lifecycle target is invalid")
  let key ← found (registry.key keyPk) (.doesNotExist "SigningKey")
  if targetStatus = key.status then return registry
  else
    raiseIf (key.status = "revoked") (.validation "revoked signing-key lifecycle is terminal")
    raiseIf (targetStatus ∉ allowed key.status)
      (.validation "signing-key lifecycle transition is invalid")
    let invalid ← lifecycleTimeInvalid key at'
    raiseIf (invalid = true) (.validation "signing-key lifecycle time is invalid")
    let record ← KeyRecord.save library true
      { key with
        status := targetStatus
        revokedAt := if targetStatus = "revoked" then some at' else none }
      (some key)
    return { registry with keys := Table.save KeyRecord.id registry.keys record }

/-- An operation, with the check of the row it is about. -/
def apply (library : Library κ) (registry : Registry) :
    RegistryOperation → Except Raised Registry
  | .transitionSigningKey keyPk targetStatus at' =>
    registry.transitionSigningKey library keyPk targetStatus at'
  | .saveKey record => do
    let record ← KeyRecord.save library false record (registry.key record.id)
    return { registry with keys := Table.save KeyRecord.id registry.keys record }
  | .addKey record => do
    record.clean library
    record.rowConstraints
    raiseIf (∃ other ∈ registry.keys, other.id = record.id ∨ other.keyId = record.keyId)
      (.integrity "access_signingkey_key")
    return { registry with keys := registry.keys ++ [record.inserted] }
  | .deleteKey _ => throw (.validation "signing-key evidence must be preserved")
  | .saveManifest _ => throw (.validation "manifest evidence is immutable")
  | .addManifest record issuanceOrganizationId => do
    let key ← found (registry.key record.signingKeyId) (.doesNotExist "SigningKey")
    raiseIf (issuanceOrganizationId ≠ record.organizationId ∨
        key.organizationId ≠ record.organizationId)
      (.validation "Related records must belong to the same organization.")
    raiseIf (∃ other ∈ registry.manifests,
        other.id = record.id ∨ other.issuanceId = record.issuanceId)
      (.integrity "documents_manifest_key")
    return { registry with manifests := registry.manifests ++ [record] }
  | .deleteManifest _ => throw (.validation "manifest evidence must be preserved")

/-- The registry after an attempt: a refused one changes nothing. -/
def attempt (library : Library κ) (registry : Registry) (operation : RegistryOperation) :
    Registry :=
  match registry.apply library operation with
  | .ok registry' => registry'
  | .error _ => registry

def attempts (library : Library κ) (registry : Registry) (operations : List RegistryOperation) :
    Registry :=
  operations.foldl (attempt library) registry

theorem attempts_append (registry : Registry) (earlier later : List RegistryOperation) :
    registry.attempts library (earlier ++ later) =
      (registry.attempts library earlier).attempts library later :=
  List.foldl_append

/-- A registry as the database stores it: keys that passed `clean`, with windows in a time zone. -/
structure Stored (library : Library κ) (registry : Registry) : Prop where
  keys : (registry.keys.map KeyRecord.id).Nodup
  manifests : (registry.manifests.map ManifestRecord.id).Nodup
  cleaned : ∀ record ∈ registry.keys, record.clean library = .ok ()
  aware : ∀ record ∈ registry.keys, record.WindowAware

end Registry

/-! ## 3. What an operation keeps -/

namespace KeyRecord

/-- What no operation changes about a stored key. -/
structure Kept (key key' : KeyRecord) : Prop where
  id : key'.id = key.id
  organizationId : key'.organizationId = key.organizationId
  keyId : key'.keyId = key.keyId
  algorithm : key'.algorithm = key.algorithm
  publicKey : key'.publicKey = key.publicKey
  validFrom : key'.validFrom = key.validFrom
  validUntil : key'.validUntil = key.validUntil
  revokedAt : ∀ at', key.revokedAt = some at' → key'.revokedAt = some at'
  revoked : key.status = "revoked" → key'.status = "revoked"
  live : key'.status ∈ ["active", "verify_only"] → key.status ∈ ["active", "verify_only"]

theorem Kept.refl (key : KeyRecord) : key.Kept key :=
  ⟨rfl, rfl, rfl, rfl, rfl, rfl, rfl, fun _ h ↦ h, fun h ↦ h, fun h ↦ h⟩

theorem Kept.trans {key key' key'' : KeyRecord} (h : key.Kept key') (h' : key'.Kept key'') :
    key.Kept key'' where
  id := h'.id.trans h.id
  organizationId := h'.organizationId.trans h.organizationId
  keyId := h'.keyId.trans h.keyId
  algorithm := h'.algorithm.trans h.algorithm
  publicKey := h'.publicKey.trans h.publicKey
  validFrom := h'.validFrom.trans h.validFrom
  validUntil := h'.validUntil.trans h.validUntil
  revokedAt at' hat := h'.revokedAt at' (h.revokedAt at' hat)
  revoked hstatus := h'.revoked (h.revoked hstatus)
  live hstatus := h.live (h'.live hstatus)

theorem Kept.windowAware {key key' : KeyRecord} (h : key.Kept key') (haware : key.WindowAware) :
    key'.WindowAware := by
  rw [WindowAware, h.validFrom, h.validUntil]
  exact haware

/-- What an accepted save has checked. -/
theorem save_eq_ok {lifecycleWrite : Bool} {record record' key : KeyRecord}
    (h : save library lifecycleWrite record (some key) = .ok record') :
    (lifecycleChanged record key → lifecycleWrite = true) ∧ ¬ evidenceChanged record key ∧
      record.organizationId = key.organizationId ∧ record.clean library = .ok () ∧
      record = record' := by
  simp only [save, found_some, ok_bind, bind_eq_ok, exists_unit, raiseIf_eq_ok, pure_eq_ok,
    not_not, ne_eq] at h
  obtain ⟨hchanged, horganization, hclean, -, hrecord⟩ := h
  have hevidence : ¬ evidenceChanged record key := fun h ↦ hchanged ⟨.inl h, .inr h⟩
  refine ⟨fun hlifecycle ↦ ?_, hevidence, horganization, hclean, hrecord⟩
  exact eq_true_of_ne_false fun hwrite ↦ hchanged ⟨.inr hlifecycle, .inl hwrite⟩

/-- Without the capability of the lifecycle service a loaded record is saved as it is stored. -/
theorem save_eq_ok_of_no_lifecycle {record record' key : KeyRecord} (hid : record.id = key.id)
    (h : save library false record (some key) = .ok record') : record' = key := by
  obtain ⟨hlifecycle, hevidence, horganization, -, rfl⟩ := save_eq_ok h
  have hlifecycle : ¬ lifecycleChanged record key := fun h ↦ Bool.false_ne_true (hlifecycle h)
  simp only [evidenceChanged, lifecycleChanged, not_or, not_not, ne_eq] at hevidence hlifecycle
  obtain ⟨hkeyId, halgorithm, hpublicKey, hfrom, huntil, hmetadata, hcreated⟩ := hevidence
  obtain ⟨hstatus, hrevoked⟩ := hlifecycle
  cases record
  cases key
  simp_all

/-- Only a revoked record has a revocation time. -/
theorem revokedAt_eq_none_of_clean {key : KeyRecord} (h : key.clean library = .ok ())
    (hstatus : key.status ≠ "revoked") : key.revokedAt = none := by
  simp only [clean, bind_eq_ok, exists_unit] at h
  obtain ⟨-, -, -, -, -, hrevocation, -⟩ := h
  rw [cleanRevocation, if_neg hstatus, raiseIf_eq_ok, not_not] at hrevocation
  exact hrevocation

end KeyRecord

namespace Registry

/-- A record that may move is active or verify-only. -/
theorem live_of_mem_allowed {status targetStatus : String} (h : targetStatus ∈ allowed status) :
    status ∈ ["active", "verify_only"] := by
  unfold allowed at h
  split at h
  · decide
  · decide
  · cases h

/-- An accepted transition saves the record with its new status, unless it has it already. -/
theorem transitionSigningKey_cases {registry registry' : Registry} {keyPk : UUID}
    {targetStatus : String} {at' : DateTime}
    (h : registry.transitionSigningKey library keyPk targetStatus at' = .ok registry') :
    ∃ key, registry.key keyPk = some key ∧
      (targetStatus = key.status ∧ registry' = registry ∨
        key.status ≠ "revoked" ∧ targetStatus ∈ allowed key.status ∧
          ∃ record : KeyRecord, record = { key with
              status := targetStatus
              revokedAt := if targetStatus = "revoked" then some at' else none } ∧
            record.clean library = .ok () ∧
            registry' =
              { registry with keys := Table.save KeyRecord.id registry.keys record }) := by
  simp only [transitionSigningKey, bind_eq_ok, exists_unit, raiseIf_eq_ok, found_eq_ok] at h
  obtain ⟨-, key, hkey, h⟩ := h
  refine ⟨key, hkey, ?_⟩
  by_cases hsame : targetStatus = key.status
  · rw [if_pos hsame, pure_eq_ok] at h
    exact .inl ⟨hsame, h.symm⟩
  · rw [if_neg hsame] at h
    simp only [bind_eq_ok, exists_unit, raiseIf_eq_ok, pure_eq_ok, not_not] at h
    obtain ⟨hlive, hallowed, -, -, -, record, hsave, rfl⟩ := h
    obtain ⟨-, -, -, hclean, rfl⟩ := KeyRecord.save_eq_ok hsave
    exact .inr ⟨hlive, hallowed, _, rfl, hclean, rfl⟩

end Registry

/-! ## 4. New records -/

theorem le_zoned {a b : DateTime} {r : Bool} (h : a.le b = .ok r) :
    (KeyRecord.zoned a).le (KeyRecord.zoned b) = .ok r := by
  cases a <;> cases b <;> first | exact h | cases h

theorem lt_zoned {a b : DateTime} {r : Bool} (h : a.lt b = .ok r) :
    (KeyRecord.zoned a).lt (KeyRecord.zoned b) = .ok r := by
  cases a <;> cases b <;> first | exact h | cases h

theorem KeyRecord.windowAware_inserted (record : KeyRecord) : record.inserted.WindowAware := by
  have hzoned : ∀ t : DateTime, ∃ at', zoned t = .aware at' := by
    intro t
    cases t <;> exact ⟨_, rfl⟩
  refine ⟨hzoned record.validFrom, fun limit hlimit ↦ ?_⟩
  obtain ⟨t, -, rfl⟩ := Option.map_eq_some_iff.mp hlimit
  exact hzoned t

/-- A new record that passed `clean` passes it as it is stored. -/
theorem KeyRecord.clean_inserted {record : KeyRecord} (h : record.clean library = .ok ()) :
    record.inserted.clean library = .ok () := by
  simp only [clean, bind_eq_ok, exists_unit] at h ⊢
  obtain ⟨halgorithm, hkeyId, verifier, hkey, hwindow, hrevocation, hmetadata⟩ := h
  refine ⟨halgorithm, hkeyId, verifier, hkey, ?_, ?_, hmetadata⟩
  · rw [cleanWindow] at hwindow ⊢
    cases huntil : record.validUntil with
    | none => simp [inserted, huntil]
    | some limit =>
      simp only [huntil, bind_eq_ok, raiseIf_eq_ok] at hwindow
      obtain ⟨early, hearly, hordered⟩ := hwindow
      simp only [inserted, huntil, Option.map_some, le_zoned hearly, ok_bind]
      exact raiseIf_neg hordered _
  · rw [cleanRevocation] at hrevocation ⊢
    by_cases hstatus : record.status = "revoked"
    · rw [if_pos hstatus] at hrevocation
      rw [if_pos (show record.inserted.status = "revoked" from hstatus)]
      cases hrevoked : record.revokedAt with
      | none => simp [hrevoked] at hrevocation
      | some revoked =>
        simp only [hrevoked, bind_eq_ok, raiseIf_eq_ok] at hrevocation
        obtain ⟨early, hearly, hordered⟩ := hrevocation
        simp only [inserted, hrevoked, Option.map_some, lt_zoned hearly, ok_bind]
        exact raiseIf_neg hordered _
    · rw [if_neg hstatus, raiseIf_eq_ok, not_not] at hrevocation
      rw [if_neg (show record.inserted.status ≠ "revoked" from hstatus), raiseIf_eq_ok]
      simp [inserted, hrevocation]

/-! ## 5. Trust between two points -/

/-- A record between two trusted states of it, at a time between theirs, is trusted. -/
theorem TrustedBy.between {signature : Json} {key₁ key₂ key₃ : KeyRecord} {t₁ t₂ t₃ : Instant}
    {expectedKind : Option String} {stored : String} {value members value' members' :
    List (String × Json)} {raw raw' : List UInt8} {verifier verifier' : κ}
    (h₁ : TrustedBy library signature key₁ (.aware t₁) expectedKind stored value members raw verifier)
    (h₃ : TrustedBy library signature key₃ (.aware t₃) expectedKind stored value' members' raw'
      verifier')
    (hkept₁₂ : key₁.Kept key₂) (hkept₂₃ : key₂.Kept key₃) (hclean : key₂.clean library = .ok ())
    (h₁₂ : t₁ ≤ t₂) (h₂₃ : t₂ ≤ t₃) :
    TrustedBy library signature key₂ (.aware t₂) expectedKind stored value members raw verifier where
  envelope := h₁.envelope
  names := h₁.names
  envelopeAlgorithm := h₁.envelopeAlgorithm
  envelopeKeyId := by rw [hkept₁₂.keyId]; exact h₁.envelopeKeyId
  payloadKeyId := by rw [hkept₁₂.keyId]; exact h₁.payloadKeyId
  encoded := h₁.encoded
  length := h₁.length
  publicKey := by rw [hkept₁₂.publicKey]; exact h₁.publicKey
  verified := h₁.verified
  algorithm := hkept₁₂.algorithm.trans h₁.algorithm
  registry := hclean
  size := h₁.size
  parsed := h₁.parsed
  unique := h₁.unique
  finite := h₁.finite
  canonical := h₁.canonical
  kind := h₁.kind
  schema := h₁.schema
  status := hkept₂₃.live h₃.status
  window := by
    obtain ⟨t, from', ht, hfrom, hstarted, -⟩ := h₁.window
    obtain ⟨t', from'', ht', -, -, hends⟩ := h₃.window
    obtain rfl := DateTime.aware.inj ht
    obtain rfl := DateTime.aware.inj ht'
    refine ⟨t₂, from', rfl, hkept₁₂.validFrom.trans hfrom, hstarted.trans h₁₂, ?_⟩
    intro limit hlimit
    rw [← hkept₂₃.validUntil] at hlimit
    obtain ⟨until', huntil, hbefore⟩ := hends limit hlimit
    exact ⟨until', huntil, lt_of_le_of_lt h₂₃ hbefore⟩

/-! ## 6. One operation -/

namespace Registry

/-- What an operation does to the rows that are there. -/
structure Step (registry registry' : Registry) : Prop where
  keys : ∀ keyPk key, registry.key keyPk = some key →
    ∃ key', registry'.key keyPk = some key' ∧ key.Kept key'
  manifests : ∀ manifestPk manifest, registry.manifest manifestPk = some manifest →
    registry'.manifest manifestPk = some manifest

theorem Step.refl (registry : Registry) : Step registry registry where
  keys _ key hkey := ⟨key, hkey, .refl key⟩
  manifests _ _ hmanifest := hmanifest

theorem Step.trans {registry registry' registry'' : Registry} (h : Step registry registry')
    (h' : Step registry' registry'') : Step registry registry'' where
  keys keyPk key hkey := by
    obtain ⟨key', hkey', hkept⟩ := h.keys keyPk key hkey
    obtain ⟨key'', hkey'', hkept'⟩ := h'.keys keyPk key' hkey'
    exact ⟨key'', hkey'', hkept.trans hkept'⟩
  manifests manifestPk manifest hmanifest :=
    h'.manifests manifestPk manifest (h.manifests manifestPk manifest hmanifest)

theorem mem_of_key {registry : Registry} {keyPk : UUID} {key : KeyRecord}
    (h : registry.key keyPk = some key) : key ∈ registry.keys ∧ key.id = keyPk :=
  ⟨List.mem_of_find?_eq_some h, by simpa using List.find?_some h⟩

/-- Saving a record over the one of its key. -/
theorem step_save {registry : Registry} (hstored : registry.Stored library) {key record : KeyRecord}
    (hkey : registry.key record.id = some key) (hkept : key.Kept record)
    (hclean : record.clean library = .ok ()) :
    Step registry { registry with keys := Table.save KeyRecord.id registry.keys record } ∧
      Stored library { registry with keys := Table.save KeyRecord.id registry.keys record } := by
  constructor
  · refine ⟨fun keyPk other hother ↦ ?_, fun _ _ h ↦ h⟩
    by_cases hsame : record.id = keyPk
    · obtain rfl := hsame
      obtain rfl := Option.some.inj (hkey.symm.trans hother)
      exact ⟨record, Table.find?_save_self hkey, hkept⟩
    · refine ⟨other, ?_, .refl other⟩
      rw [Registry.key, Table.find?_save_of_ne hsame]
      exact hother
  · refine ⟨by rw [Table.map_save]; exact hstored.keys, hstored.manifests, fun other hother ↦ ?_,
      fun other hother ↦ ?_⟩
    · rcases Table.mem_save hother with rfl | ⟨hother, -⟩
      · exact hclean
      · exact hstored.cleaned other hother
    · rcases Table.mem_save hother with rfl | ⟨hother, -⟩
      · exact hkept.windowAware (hstored.aware key (mem_of_key hkey).1)
      · exact hstored.aware other hother

theorem apply_step {registry registry' : Registry} (hstored : registry.Stored library)
    {operation : RegistryOperation} (h : registry.apply library operation = .ok registry') :
    Step registry registry' ∧ registry'.Stored library := by
  cases operation with
  | transitionSigningKey keyPk targetStatus at' =>
    obtain ⟨key, hkey, ⟨-, rfl⟩ | ⟨hlive, hallowed, record, hrecord, hclean, rfl⟩⟩ :=
      transitionSigningKey_cases h
    · exact ⟨.refl registry', hstored⟩
    -- the key that is saved is the one that was found
    have hid : record.id = keyPk := by
      rw [hrecord]
      exact (mem_of_key hkey).2
    refine step_save hstored (hid ▸ hkey) ?_ hclean
    have hunrevoked := KeyRecord.revokedAt_eq_none_of_clean
      (hstored.cleaned key (mem_of_key hkey).1) hlive
    rw [hrecord]
    exact ⟨rfl, rfl, rfl, rfl, rfl, rfl, rfl, fun at' hat ↦ by simp [hunrevoked] at hat,
      fun hrevoked ↦ absurd hrevoked hlive, fun _ ↦ live_of_mem_allowed hallowed⟩
  | saveKey record =>
    simp only [apply, bind_eq_ok, pure_eq_ok] at h
    obtain ⟨record', hsave, rfl⟩ := h
    cases hkey : registry.key record.id with
    | none => simp [hkey, KeyRecord.save] at hsave
    | some key =>
      rw [hkey] at hsave
      -- a save without a lifecycle change leaves the key as it was
      obtain rfl := KeyRecord.save_eq_ok_of_no_lifecycle (mem_of_key hkey).2.symm hsave
      refine step_save hstored ?_ (.refl record') (hstored.cleaned record' (mem_of_key hkey).1)
      rw [(mem_of_key hkey).2]
      exact hkey
  | addKey record =>
    simp only [apply, bind_eq_ok, exists_unit, raiseIf_eq_ok, pure_eq_ok] at h
    obtain ⟨hclean, -, hunique, rfl⟩ := h
    push Not at hunique
    refine ⟨⟨fun keyPk key hkey ↦ ⟨key, ?_, .refl key⟩, fun _ _ h ↦ h⟩, ?_, hstored.manifests,
      List.forall_mem_append.mpr ⟨hstored.cleaned, by
        simpa using KeyRecord.clean_inserted hclean⟩,
      List.forall_mem_append.mpr ⟨hstored.aware, by
        simpa using KeyRecord.windowAware_inserted record⟩⟩
    · rw [Registry.key, List.find?_append]
      exact Option.or_eq_some_iff.mpr (.inl hkey)
    · -- the ids stay unique, since the new one was checked against them
      rw [List.map_append, List.map_singleton, List.nodup_append]
      refine ⟨hstored.keys, List.nodup_singleton _, fun a ha b hb ↦ ?_⟩
      obtain ⟨other, hother, rfl⟩ := List.mem_map.mp ha
      rw [List.mem_singleton.mp hb]
      exact (hunique other hother).1
  | deleteKey keyPk => simp [apply] at h
  | saveManifest record => simp [apply] at h
  | addManifest record issuanceOrganizationId =>
    simp only [apply, bind_eq_ok, exists_unit, raiseIf_eq_ok, pure_eq_ok] at h
    obtain ⟨-, -, -, hunique, rfl⟩ := h
    push Not at hunique
    refine ⟨⟨fun keyPk key hkey ↦ ⟨key, hkey, .refl key⟩, fun manifestPk manifest hmanifest ↦ ?_⟩,
      hstored.keys, ?_, hstored.cleaned, hstored.aware⟩
    · rw [Registry.manifest, List.find?_append]
      exact Option.or_eq_some_iff.mpr (.inl hmanifest)
    · rw [List.map_append, List.map_singleton, List.nodup_append]
      refine ⟨hstored.manifests, List.nodup_singleton _, fun a ha b hb ↦ ?_⟩
      obtain ⟨other, hother, rfl⟩ := List.mem_map.mp ha
      rw [List.mem_singleton.mp hb]
      exact (hunique other hother).1
  | deleteManifest manifestPk => simp [apply] at h

/-- An attempt, accepted or refused. -/
theorem attempt_step {registry : Registry} (hstored : registry.Stored library)
    (operation : RegistryOperation) :
    Step registry (registry.attempt library operation) ∧
      (registry.attempt library operation).Stored library := by
  rw [attempt]
  cases happly : registry.apply library operation with
  | ok registry' => exact apply_step hstored happly
  | error e => exact ⟨.refl registry, hstored⟩

theorem attempts_step {registry : Registry} (hstored : registry.Stored library)
    (operations : List RegistryOperation) :
    Step registry (registry.attempts library operations) ∧
      (registry.attempts library operations).Stored library := by
  induction operations generalizing registry with
  | nil => exact ⟨.refl registry, hstored⟩
  | cons operation operations ih =>
    obtain ⟨hstep, hstored'⟩ := attempt_step hstored operation
    obtain ⟨hsteps, hstored''⟩ := ih hstored'
    exact ⟨hstep.trans hsteps, hstored''⟩

/-! ## 7. Verifying what the registry holds -/

/-- One of the two pairs of a manifest under a key, at a given time. -/
structure Subject where
  manifestPk : Nat
  keyPk : UUID
  internal : Bool
  expectedKind : Option String

def Subject.pair (subject : Subject) (manifest : ManifestRecord) : String × Json :=
  if subject.internal then (manifest.internalPayload, manifest.internalSignatureEnvelope)
  else (manifest.publicPayload, manifest.publicSignatureEnvelope)

/-- Load the two rows and verify the pair. -/
def verify (library : Library κ) (registry : Registry) (subject : Subject) (now : Instant) :
    Except Raised ManifestVerification := do
  let manifest ← found (registry.manifest subject.manifestPk) (.doesNotExist "Manifest")
  let key ← found (registry.key subject.keyPk) (.doesNotExist "SigningKey")
  verifyStoredManifest library (.text (subject.pair manifest).1) (subject.pair manifest).2 key
    (some (.aware now)) now subject.expectedKind

/-- The verification at a given time reports the pair as trusted. -/
def Trusts (library : Library κ) (registry : Registry) (subject : Subject) (now : Instant) :
    Prop :=
  ∃ verdict, registry.verify library subject now = .ok verdict ∧ verdict.trusted = true

instance (registry : Registry) (subject : Subject) (now : Instant) :
    Decidable (registry.Trusts library subject now) :=
  match h : registry.verify library subject now with
  | .ok verdict => decidable_of_iff (verdict.trusted = true) (by simp [Trusts, h])
  | .error _ => isFalse (by simp [Trusts, h])

theorem trusts_iff (hlibrary : library.Canonicalizes) {registry : Registry}
    (hstored : registry.Stored library) {subject : Subject} {manifest : ManifestRecord}
    {key : KeyRecord} (hmanifest : registry.manifest subject.manifestPk = some manifest)
    (hkey : registry.key subject.keyPk = some key) (now : Instant) :
    registry.Trusts library subject now ↔ ∃ value members raw verifier,
      TrustedBy library (subject.pair manifest).2 key (.aware now) subject.expectedKind
        (subject.pair manifest).1 value members raw verifier := by
  obtain ⟨verdict, hverdict, htrusted⟩ := trusted_text_iff hlibrary
    (hstored.aware key (mem_of_key hkey).1) (subject.pair manifest).1 (subject.pair manifest).2
    (some (.aware now)) now subject.expectedKind
  have hverify : registry.verify library subject now = .ok verdict := by
    simp only [verify, hmanifest, hkey, found_some, ok_bind]
    exact hverdict
  have htrusts : registry.Trusts library subject now ↔ verdict.trusted = true := by
    simp [Trusts, hverify]
  rw [htrusts, htrusted]
  rfl

/-! ## 8. Trust only decays -/

/-- After a transition to the revoked status the record is revoked. -/
theorem revoked_of_transition {registry registry' : Registry} (hstored : registry.Stored library)
    {keyPk : UUID} {at' : DateTime}
    (h : registry.transitionSigningKey library keyPk "revoked" at' = .ok registry') :
    ∃ key', registry'.key keyPk = some key' ∧ key'.status = "revoked" := by
  obtain ⟨key, hkey, ⟨hsame, rfl⟩ | ⟨-, -, record, hrecord, -, rfl⟩⟩ := transitionSigningKey_cases h
  · exact ⟨key, hkey, hsame.symm⟩
  · obtain rfl : record.id = keyPk := by
      rw [hrecord]
      exact (mem_of_key hkey).2
    exact ⟨record, Table.find?_save_self hkey, by rw [hrecord]⟩

/-- **Trust only decays.**  For a stored manifest and key, over any attempts on the registry: a
pair once trusted and then untrusted at a later time is never trusted again; after a transition to
the revoked status it is not trusted at any time; and the key keeps its identity, its window and a
recorded revocation time, and the manifest everything. -/
theorem trust_only_decays (hlibrary : library.Canonicalizes) {registry : Registry}
    (hstored : registry.Stored library) {subject : Subject} {manifest : ManifestRecord}
    {key : KeyRecord} (hmanifest : registry.manifest subject.manifestPk = some manifest)
    (hkey : registry.key subject.keyPk = some key)
    (before middle after : List RegistryOperation) :
    (∀ t₁ t₂ t₃, t₁ ≤ t₂ → t₂ ≤ t₃ →
      (registry.attempts library before).Trusts library subject t₁ →
      ¬ (registry.attempts library (before ++ middle)).Trusts library subject t₂ →
      ¬ (registry.attempts library (before ++ middle ++ after)).Trusts library subject t₃) ∧
    (∀ at' registry', (registry.attempts library before).apply library
        (.transitionSigningKey subject.keyPk "revoked" at') = .ok registry' →
      ∀ t, ¬ (registry'.attempts library after).Trusts library subject t) ∧
    ∃ key₁ key₂, (registry.attempts library before).key subject.keyPk = some key₁ ∧
      (registry.attempts library (before ++ middle)).key subject.keyPk = some key₂ ∧
      key.Kept key₁ ∧ key₁.Kept key₂ ∧
      (registry.attempts library before).manifest subject.manifestPk = some manifest := by
  obtain ⟨hbefore, hstored₁⟩ := attempts_step hstored before
  obtain ⟨hmiddle, hstored₂⟩ := attempts_step hstored₁ middle
  obtain ⟨hafter, hstored₃⟩ := attempts_step hstored₂ after
  -- every attempt keeps what is stored, so the three registries stand in a row
  simp only [attempts_append]
  obtain ⟨key₁, hkey₁, hkept₁⟩ := hbefore.keys _ _ hkey
  obtain ⟨key₂, hkey₂, hkept₂⟩ := hmiddle.keys _ _ hkey₁
  obtain ⟨key₃, hkey₃, hkept₃⟩ := hafter.keys _ _ hkey₂
  have hmanifest₁ := hbefore.manifests _ _ hmanifest
  have hmanifest₂ := hmiddle.manifests _ _ hmanifest₁
  refine ⟨?_, ?_, key₁, key₂, hkey₁, hkey₂, hkept₁, hkept₂, hmanifest₁⟩
  · intro t₁ t₂ t₃ h₁₂ h₂₃ htrusted huntrusted htrusted'
    rw [trusts_iff hlibrary hstored₁ hmanifest₁ hkey₁] at htrusted
    rw [trusts_iff hlibrary hstored₃ (hafter.manifests _ _ hmanifest₂) hkey₃] at htrusted'
    obtain ⟨value, members, raw, verifier, htrusted⟩ := htrusted
    obtain ⟨value', members', raw', verifier', htrusted'⟩ := htrusted'
    -- trusted before and after, so the checks between them hold as well
    refine huntrusted ((trusts_iff hlibrary hstored₂ hmanifest₂ hkey₂ t₂).mpr
      ⟨value, members, raw, verifier, htrusted.between htrusted' hkept₂ hkept₃ ?_ h₁₂ h₂₃⟩)
    exact hstored₂.cleaned key₂ (mem_of_key hkey₂).1
  · intro at' registry' happly t htrusted
    obtain ⟨hstep, hstored'⟩ := apply_step hstored₁ happly
    obtain ⟨hsteps, hstored''⟩ := attempts_step hstored' after
    obtain ⟨key', hkey', hrevoked⟩ := revoked_of_transition hstored₁ happly
    obtain ⟨key'', hkey'', hkept⟩ := hsteps.keys _ _ hkey'
    have hmanifest' := hsteps.manifests _ _ (hstep.manifests _ _ hmanifest₁)
    rw [trusts_iff hlibrary hstored'' hmanifest' hkey''] at htrusted
    obtain ⟨value, members, raw, verifier, htrusted⟩ := htrusted
    have hstatus := htrusted.status
    rw [hkept.revoked hrevoked] at hstatus
    exact absurd hstatus (by decide)

/-- The signed pair under its key. -/
def sampleRegistry : Registry where
  keys := [sampleKey]
  manifests :=
    [{  id := 1
        organizationId := ⟨2⟩
        issuanceId := ⟨3⟩
        signingKeyId := ⟨1⟩
        internalPayload := ""
        internalSignatureEnvelope := .null
        publicPayload := samplePublicText
        publicSignatureEnvelope := .object samplePublicEnvelope
        createdAt := .aware 10 }]

theorem sampleRegistry_stored : sampleRegistry.Stored sampleLibrary where
  keys := by simp [sampleRegistry]
  manifests := by simp [sampleRegistry]
  cleaned := by
    intro record hrecord
    rw [List.mem_singleton.mp hrecord]
    decide +kernel
  aware := by
    intro record hrecord
    rw [List.mem_singleton.mp hrecord]
    exact sampleKey_windowAware

/-- The pair is trusted at 100 and, once its key is revoked, neither at 200 nor at 300. -/
theorem trust_only_decays_sample :
    sampleRegistry.Trusts sampleLibrary ⟨1, ⟨1⟩, false, some "public"⟩ 100 ∧
      ¬ (sampleRegistry.attempts sampleLibrary
          [.transitionSigningKey ⟨1⟩ "revoked" (.aware 150)]).Trusts sampleLibrary
        ⟨1, ⟨1⟩, false, some "public"⟩ 200 ∧
      ¬ (sampleRegistry.attempts sampleLibrary
          [.transitionSigningKey ⟨1⟩ "revoked" (.aware 150),
            .transitionSigningKey ⟨1⟩ "active" (.aware 250)]).Trusts sampleLibrary
        ⟨1, ⟨1⟩, false, some "public"⟩ 300 := by
  have hfirst : sampleRegistry.Trusts sampleLibrary ⟨1, ⟨1⟩, false, some "public"⟩ 100 := by
    decide +kernel
  have hsecond : ¬ (sampleRegistry.attempts sampleLibrary
      [.transitionSigningKey ⟨1⟩ "revoked" (.aware 150)]).Trusts sampleLibrary
        ⟨1, ⟨1⟩, false, some "public"⟩ 200 := by
    decide +kernel
  have hmanifest : sampleRegistry.manifest (Subject.mk 1 ⟨1⟩ false (some "public")).manifestPk =
      sampleRegistry.manifests.head? := rfl
  obtain ⟨hdecays, -⟩ := trust_only_decays sampleLibrary_canonicalizes sampleRegistry_stored
    hmanifest rfl [] [.transitionSigningKey ⟨1⟩ "revoked" (.aware 150)]
    [.transitionSigningKey ⟨1⟩ "active" (.aware 250)]
  exact ⟨hfirst, hsecond, hdecays 100 200 300 (by decide) (by decide) hfirst hsecond⟩

end Registry

end Splitbind.ManifestVerifier
