import Mathlib.Data.String.Basic
import Splitbind.Documents.Manifests
import Splitbind.Library.RetryQueue

/-!
# Signing keys — which registered record a private key signs with

The query keeps the two matching records with the smallest key ids, and only then are the records
dropped whose window has ended.  A record that the query cut off counts for nothing.
-/

namespace Splitbind

/-! ## 1. Records that may be chosen -/

namespace SigningKey

section Choice

variable (organizationId : UUID) (publicKey : String) (at' : Instant)

/-- The filter of the query. -/
def Matching (key : SigningKey) : Prop :=
  key.organizationId = organizationId ∧ key.publicKey = publicKey ∧
    key.algorithm = "Ed25519" ∧ key.status = .active ∧ key.validFrom ≤ at'

/-- `key.valid_until is None or at < key.valid_until`. -/
def Unexpired (key : SigningKey) : Prop :=
  key.validUntil = none ∨ ∃ limit ∈ key.validUntil, at' < limit

instance (key : SigningKey) : Decidable (key.Matching organizationId publicKey at') :=
  inferInstanceAs (Decidable (_ ∧ _))

instance (key : SigningKey) : Decidable (key.Unexpired at') :=
  inferInstanceAs (Decidable (_ ∨ _))

/-- An active record of the organisation for the public key, inside its window. -/
def Registered (key : SigningKey) : Prop :=
  key.Matching organizationId publicKey at' ∧ key.Unexpired at'

instance (key : SigningKey) : Decidable (key.Registered organizationId publicKey at') :=
  inferInstanceAs (Decidable (_ ∧ _))

/-- The number of matching records with a smaller key id: from two on, the query has cut the
record off. -/
def ahead (registry : List SigningKey) (key : SigningKey) : Nat :=
  registry.countP fun other ↦ other.Matching organizationId publicKey at' ∧ other.keyId < key.keyId

end Choice

instance : Std.Total fun a b : SigningKey ↦ a.keyId ≤ b.keyId :=
  ⟨fun a b ↦ le_total a.keyId b.keyId⟩

instance : IsTrans SigningKey fun a b ↦ a.keyId ≤ b.keyId :=
  ⟨fun _ _ _ ↦ le_trans⟩

end SigningKey

/-! ## 2. What the selection returns -/

section Selection

variable {registry : List SigningKey} {organizationId : UUID} {privateKey : PrivateKey}
  {at' : Instant}

/-- The records the selection is left with. -/
def selectedKeys (registry : List SigningKey) (organizationId : UUID) (privateKey : PrivateKey)
    (at' : Instant) : List SigningKey :=
  let matching := registry.filter fun key ↦
    key.Matching organizationId privateKey.publicKeyPem at'
  ((matching.insertionSort fun a b ↦ a.keyId ≤ b.keyId).take 2).filter fun key ↦
    key.Unexpired at'

theorem integritySigningKeyLocked_eq_ok {key : SigningKey} :
    integritySigningKeyLocked registry organizationId privateKey at' = .ok key ↔
      selectedKeys registry organizationId privateKey at' = [key] := by
  unfold integritySigningKeyLocked
  dsimp only
  split
  · rename_i key' hselected
    have hselected : selectedKeys registry organizationId privateKey at' = [key'] := hselected
    rw [hselected]
    simp
  · rename_i hselected
    have hselected : ∀ key', selectedKeys registry organizationId privateKey at' ≠ [key'] :=
      hselected
    simp [hselected key]

/-- Whatever the selection does not return, it refuses with the one code. -/
theorem integritySigningKeyLocked_eq_error {raised : Raised}
    (h : integritySigningKeyLocked registry organizationId privateKey at' = .error raised) :
    raised = .demoIssuance .manifestSigningKeyUnregistered 0 := by
  unfold integritySigningKeyLocked at h
  dsimp only at h
  split at h <;> cases h
  rfl

/-- A registered record is among the selected ones unless two others come ahead of it. -/
theorem mem_selectedKeys (hunique : (registry.map SigningKey.keyId).Nodup) {key : SigningKey} :
    key ∈ selectedKeys registry organizationId privateKey at' ↔
      key ∈ registry ∧ key.Registered organizationId privateKey.publicKeyPem at' ∧
        key.ahead organizationId privateKey.publicKeyPem at' registry < 2 := by
  have hnames : ((registry.filter fun key ↦
      key.Matching organizationId privateKey.publicKeyPem at').map SigningKey.keyId).Nodup :=
    hunique.sublist (List.filter_sublist.map _)
  -- with unique key ids, coming ahead is having a smaller one
  have hahead : (registry.filter fun key ↦
        key.Matching organizationId privateKey.publicKeyPem at').countP
        (fun other ↦ other.keyId ≤ key.keyId ∧ other.keyId ≠ key.keyId) =
      key.ahead organizationId privateKey.publicKeyPem at' registry := by
    rw [SigningKey.ahead, List.countP_filter]
    refine List.countP_congr fun other _ ↦ ?_
    rw [Bool.and_eq_true, decide_eq_true_eq, decide_eq_true_eq, decide_eq_true_eq,
      lt_iff_le_and_ne]
    exact and_comm
  rw [selectedKeys, List.mem_filter,
    RetryQueue.mem_take_insertionSort hnames fun a b hab hba ↦ le_antisymm hab hba, hahead,
    List.mem_filter, decide_eq_true_eq, decide_eq_true_eq, SigningKey.Registered]
  tauto

theorem nodup_selectedKeys (hunique : (registry.map SigningKey.keyId).Nodup) :
    (selectedKeys registry organizationId privateKey at').Nodup := by
  have hmatching := (hunique.of_map _).filter fun key ↦
    key.Matching organizationId privateKey.publicKeyPem at'
  have hsorted := (List.perm_insertionSort (fun a b ↦ a.keyId ≤ b.keyId) _).nodup_iff.mpr hmatching
  exact (hsorted.sublist (List.take_sublist 2 _)).filter _

theorem selectedKeys_eq_singleton (hunique : (registry.map SigningKey.keyId).Nodup)
    {key : SigningKey} :
    selectedKeys registry organizationId privateKey at' = [key] ↔
      key ∈ selectedKeys registry organizationId privateKey at' ∧
        ∀ other ∈ selectedKeys registry organizationId privateKey at', other = key := by
  constructor
  · intro h
    rw [h]
    exact ⟨List.mem_singleton_self key, fun _ ↦ List.mem_singleton.mp⟩
  · intro ⟨hmem, hall⟩
    refine List.perm_singleton.mp
      ((List.perm_ext_iff_of_nodup (nodup_selectedKeys hunique) (List.nodup_singleton key)).mpr ?_)
    intro other
    rw [List.mem_singleton]
    exact ⟨hall other, fun h ↦ h ▸ hmem⟩

end Selection

/-! ## 3. The selection and the one registered record -/

section OneRecord

variable (registry : List SigningKey) (organizationId : UUID) (privateKey : PrivateKey)
  (at' : Instant)

/-- The record is registered, and no other one is. -/
def OnlyRegistered (key : SigningKey) : Prop :=
  key ∈ registry ∧ key.Registered organizationId privateKey.publicKeyPem at' ∧
    ∀ other ∈ registry, other.Registered organizationId privateKey.publicKeyPem at' → other = key

instance (key : SigningKey) :
    Decidable (OnlyRegistered registry organizationId privateKey at' key) :=
  inferInstanceAs (Decidable (_ ∧ _))

/-- The selection returns the one registered record and refuses when there is no such record. -/
structure SelectsRegistered : Prop where
  returned : ∀ key, integritySigningKeyLocked registry organizationId privateKey at' = .ok key ↔
    OnlyRegistered registry organizationId privateKey at' key
  refused : (¬ ∃ key, OnlyRegistered registry organizationId privateKey at' key) →
    integritySigningKeyLocked registry organizationId privateKey at' =
      .error (.demoIssuance .manifestSigningKeyUnregistered 0)

/-- Two registered records with a property. -/
def TwoRegistered (p : SigningKey → Prop) : Prop :=
  ∃ a ∈ registry, ∃ b ∈ registry, a ≠ b ∧
    a.Registered organizationId privateKey.publicKeyPem at' ∧
    b.Registered organizationId privateKey.publicKeyPem at' ∧ p a ∧ p b

/-- The records the query cuts off do not matter: none of them is registered, or two registered
ones are in front anyway, or there are two registered ones and all of them are cut off. -/
def CutOffIrrelevant : Prop :=
  let front := fun key : SigningKey ↦
    key.ahead organizationId privateKey.publicKeyPem at' registry < 2
  (∀ key ∈ registry, key.Registered organizationId privateKey.publicKeyPem at' → front key) ∨
  TwoRegistered registry organizationId privateKey at' front ∨
  ((∀ key ∈ registry, key.Registered organizationId privateKey.publicKeyPem at' → ¬ front key) ∧
    TwoRegistered registry organizationId privateKey at' fun _ ↦ True)

variable {registry} {organizationId} {privateKey} {at'}

/-- A selection that returns the right record refuses with the one code otherwise. -/
theorem SelectsRegistered.of_returned
    (h : ∀ key, integritySigningKeyLocked registry organizationId privateKey at' = .ok key ↔
      OnlyRegistered registry organizationId privateKey at' key) :
    SelectsRegistered registry organizationId privateKey at' where
  returned := h
  refused := by
    intro hnone
    cases hresult : integritySigningKeyLocked registry organizationId privateKey at' with
    | ok key => exact absurd ⟨key, (h key).mp hresult⟩ hnone
    | error raised => rw [integritySigningKeyLocked_eq_error hresult]

/-- Two registered records leave no record that is registered alone. -/
theorem TwoRegistered.not_only {p : SigningKey → Prop}
    (htwo : TwoRegistered registry organizationId privateKey at' p) (key : SigningKey) :
    ¬ OnlyRegistered registry organizationId privateKey at' key := by
  intro ⟨_, _, honly⟩
  obtain ⟨a, ha, b, hb, hne, hrega, hregb, -⟩ := htwo
  exact hne ((honly a ha hrega).trans (honly b hb hregb).symm)

/-- **Selecting the signing key.**  The selection returns the one registered record of the
organisation exactly when the records that the query cuts off do not matter. -/
theorem selects_registered_iff (hunique : (registry.map SigningKey.keyId).Nodup) :
    SelectsRegistered registry organizationId privateKey at' ↔
      CutOffIrrelevant registry organizationId privateKey at' := by
  have hreturns : ∀ key,
      integritySigningKeyLocked registry organizationId privateKey at' = .ok key ↔
        key ∈ selectedKeys registry organizationId privateKey at' ∧
          ∀ other ∈ selectedKeys registry organizationId privateKey at', other = key :=
    fun key ↦ integritySigningKeyLocked_eq_ok.trans (selectedKeys_eq_singleton hunique)
  constructor
  · intro hselects
    by_cases hfront : ∀ key ∈ registry,
        key.Registered organizationId privateKey.publicKeyPem at' →
          key.ahead organizationId privateKey.publicKeyPem at' registry < 2
    · exact .inl hfront
    push Not at hfront
    obtain ⟨hidden, hmem, hregistered, hcut⟩ := hfront
    have hnotSelected : hidden ∉ selectedKeys registry organizationId privateKey at' := by
      rw [mem_selectedKeys hunique]
      omega
    right
    by_cases hnone : ∀ key, key ∉ selectedKeys registry organizationId privateKey at'
    · -- nothing is selected, so the record cut off is not the only registered one
      right
      have hallCut : ∀ key ∈ registry,
          key.Registered organizationId privateKey.publicKeyPem at' →
            ¬ key.ahead organizationId privateKey.publicKeyPem at' registry < 2 :=
        fun key hkey hreg hahead ↦ hnone key ((mem_selectedKeys hunique).mpr ⟨hkey, hreg, hahead⟩)
      have hnotOnly : ¬ OnlyRegistered registry organizationId privateKey at' hidden :=
        fun honly ↦ hnone hidden ((hreturns hidden).mp ((hselects.returned hidden).mpr honly)).1
      rw [OnlyRegistered] at hnotOnly
      push Not at hnotOnly
      obtain ⟨other, hother, hotherReg, hne⟩ := hnotOnly hmem hregistered
      exact ⟨hallCut, other, hother, hidden, hmem, hne, hotherReg, hregistered, trivial, trivial⟩
    · -- a selected record is not returned, for the record cut off is registered as well
      left
      push Not at hnone
      obtain ⟨key, hkey⟩ := hnone
      have hnotReturned :
          ¬ ∀ other ∈ selectedKeys registry organizationId privateKey at', other = key := by
        intro hall
        have honly := (hselects.returned key).mp ((hreturns key).mpr ⟨hkey, hall⟩)
        rw [honly.2.2 hidden hmem hregistered] at hnotSelected
        exact hnotSelected hkey
      push Not at hnotReturned
      obtain ⟨other, hother, hne⟩ := hnotReturned
      rw [mem_selectedKeys hunique] at hkey hother
      exact ⟨other, hother.1, key, hkey.1, hne, hother.2.1, hkey.2.1, hother.2.2, hkey.2.2⟩
  · intro hirrelevant
    refine SelectsRegistered.of_returned fun key ↦ ?_
    rw [hreturns]
    simp only [mem_selectedKeys hunique]
    rcases hirrelevant with hfront | htwo | ⟨hcut, htwo⟩
    · constructor
      · intro ⟨⟨hmem, hreg, _⟩, hall⟩
        exact ⟨hmem, hreg, fun other hother hotherReg ↦
          hall other ⟨hother, hotherReg, hfront other hother hotherReg⟩⟩
      · intro ⟨hmem, hreg, honly⟩
        exact ⟨⟨hmem, hreg, hfront key hmem hreg⟩, fun other hother ↦
          honly other hother.1 hother.2.1⟩
    · refine iff_of_false ?_ (htwo.not_only key)
      intro ⟨_, hall⟩
      obtain ⟨a, ha, b, hb, hne, hrega, hregb, hfronta, hfrontb⟩ := htwo
      exact hne ((hall a ⟨ha, hrega, hfronta⟩).trans (hall b ⟨hb, hregb, hfrontb⟩).symm)
    · refine iff_of_false ?_ (htwo.not_only key)
      intro ⟨⟨hmem, hreg, hahead⟩, _⟩
      exact hcut key hmem hreg hahead

end OneRecord

/-! ## 4. A rotated public key -/

/-- The `n`-th record of one public key, valid from the given time until the other. -/
def rotatedKey (n : Nat) (validFrom : Instant) (validUntil : Option Instant) : SigningKey where
  id := ⟨.ofNat 128 n⟩
  organizationId := ⟨1⟩
  keyId := String.ofList ['k', n.digitChar]
  algorithm := "Ed25519"
  publicKey := "public key"
  status := .active
  validFrom := validFrom
  validUntil := validUntil
  revokedAt := none
  metadata := []

def rotatedPrivateKey : PrivateKey := ⟨"public key", fun _ ↦ "signature"⟩

/-- Two windows that have ended, and the current one under the last key id. -/
def rotatedRegistry : List SigningKey :=
  [rotatedKey 1 0 (some 100), rotatedKey 2 100 (some 200), rotatedKey 3 200 none]

/-- One window that has ended, and two that overlap. -/
def overlappingRegistry : List SigningKey :=
  [rotatedKey 1 0 (some 100), rotatedKey 2 100 none, rotatedKey 3 200 none]

/-- Behind one window that has ended, the current record is selected. -/
theorem selects_registered_sample :
    SelectsRegistered [rotatedKey 1 0 (some 100), rotatedKey 2 100 none] ⟨1⟩ rotatedPrivateKey
      300 :=
  (selects_registered_iff (by decide)).mpr (.inl (by decide +kernel))

/-- Behind two ended windows the one registered record is refused, and behind one ended window
one of two registered records is returned. -/
theorem selection_misses_registered :
    ¬ SelectsRegistered rotatedRegistry ⟨1⟩ rotatedPrivateKey 300 ∧
      ¬ SelectsRegistered overlappingRegistry ⟨1⟩ rotatedPrivateKey 300 := by
  constructor
  · intro h
    have hreturned := (h.returned (rotatedKey 3 200 none)).mpr (by decide +kernel)
    have hrefused : integritySigningKeyLocked rotatedRegistry ⟨1⟩ rotatedPrivateKey 300 =
        .error (.demoIssuance .manifestSigningKeyUnregistered 0) := by decide +kernel
    rw [hrefused] at hreturned
    cases hreturned
  · intro h
    have hreturned : integritySigningKeyLocked overlappingRegistry ⟨1⟩ rotatedPrivateKey 300 =
        .ok (rotatedKey 2 100 none) := by decide +kernel
    have honly := ((h.returned _).mp hreturned).2.2 (rotatedKey 3 200 none)
      (by decide +kernel) (by decide +kernel)
    exact absurd honly (by decide +kernel)

end Splitbind
