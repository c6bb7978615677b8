import Splitbind.Documents.ManifestVerifier

/-!
# Trusted manifests — exactly which stored values the verifier trusts

Each stage of the verifier is inverted on its own; a trusted verdict is what passes all of them.
-/

namespace Splitbind.ManifestVerifier

open Transaction

variable {κ : Type} {library : Library κ}

/-! ## 1. Reading the payload -/

theorem addMember_eq_ok {result members : List (String × Json)} {pair : String × Json} :
    addMember result pair = .ok members ↔
      pair.1 ∉ result.map Prod.fst ∧ result ++ [pair] = members := by
  simp only [addMember, bind_eq_ok, exists_unit, raiseIf_eq_ok, pure_eq_ok]

/-- The hook adds the pairs in turn, until a name comes again. -/
theorem foldlM_addMember {pairs result members : List (String × Json)} :
    pairs.foldlM addMember result = .ok members ↔
      ((pairs.map Prod.fst).Nodup ∧ (pairs.map Prod.fst).Disjoint (result.map Prod.fst)) ∧
        members = result ++ pairs := by
  induction pairs generalizing result with
  | nil =>
    rw [List.foldlM_nil, pure_eq_ok]
    simp [eq_comm]
  | cons pair pairs ih =>
    simp only [List.foldlM_cons, bind_eq_ok, addMember_eq_ok, and_assoc, exists_and_left,
      exists_eq_left', ih, List.map_cons, List.map_append, List.map_nil, List.nodup_cons,
      List.disjoint_append_right, List.disjoint_cons_left, List.disjoint_singleton,
      List.append_assoc, List.singleton_append]
    tauto

theorem uniqueObject_eq_ok {pairs members : List (String × Json)} :
    uniqueObject pairs = .ok members ↔ (pairs.map Prod.fst).Nodup ∧ members = pairs := by
  rw [uniqueObject, foldlM_addMember]
  simp

mutual

/-- The hooks change nothing, and what they let through names no member twice. -/
theorem of_hooked {v w : Json} (h : hooked v = .ok w) : w = v ∧ v.unique = true := by
  match v with
  | .null | .bool _ | .int _ | .float _ | .nonFinite false | .text _ =>
    simp only [hooked, pure_eq_ok] at h
    exact ⟨h.symm, rfl⟩
  | .nonFinite true => simp [hooked] at h
  | .array items =>
    simp only [hooked, bind_eq_ok, pure_eq_ok] at h
    obtain ⟨items', hitems, rfl⟩ := h
    obtain ⟨rfl, hunique⟩ := of_hookedItems hitems
    exact ⟨rfl, by rw [Json.unique]; exact hunique⟩
  | .object members =>
    simp only [hooked, bind_eq_ok, pure_eq_ok, uniqueObject_eq_ok] at h
    obtain ⟨members', hmembers, _, ⟨hnames, rfl⟩, rfl⟩ := h
    obtain ⟨rfl, hunique⟩ := of_hookedMembers hmembers
    refine ⟨rfl, ?_⟩
    rw [Json.unique, hunique, Bool.and_true, decide_eq_true_eq]
    exact hnames

theorem of_hookedItems {vs ws : List Json} (h : hookedItems vs = .ok ws) :
    ws = vs ∧ Json.uniqueItems vs = true := by
  match vs with
  | [] =>
    simp only [hookedItems, pure_eq_ok] at h
    exact ⟨h.symm, by rw [Json.uniqueItems]⟩
  | v :: vs =>
    simp only [hookedItems, bind_eq_ok, pure_eq_ok] at h
    obtain ⟨w, hw, ws, hws, rfl⟩ := h
    obtain ⟨rfl, hv⟩ := of_hooked hw
    obtain ⟨rfl, hvs⟩ := of_hookedItems hws
    exact ⟨rfl, by rw [Json.uniqueItems]; simp [hv, hvs]⟩

theorem of_hookedMembers {vs ws : List (String × Json)} (h : hookedMembers vs = .ok ws) :
    ws = vs ∧ Json.uniqueMembers vs = true := by
  match vs with
  | [] =>
    simp only [hookedMembers, pure_eq_ok] at h
    exact ⟨h.symm, by rw [Json.uniqueMembers]⟩
  | (name, v) :: vs =>
    simp only [hookedMembers, bind_eq_ok, pure_eq_ok] at h
    obtain ⟨w, hw, ws, hws, rfl⟩ := h
    obtain ⟨rfl, hv⟩ := of_hooked hw
    obtain ⟨rfl, hvs⟩ := of_hookedMembers hws
    exact ⟨rfl, by rw [Json.uniqueMembers]; simp [hv, hvs]⟩

end

mutual

/-- A finite tree without repeated names passes the hooks. -/
theorem hooked_of_unique {v : Json} (hunique : v.unique = true) (hfinite : v.finite = true) :
    hooked v = .ok v := by
  match v with
  | .null | .bool _ | .int _ | .float _ | .text _ => rfl
  | .nonFinite constant => simp [Json.finite] at hfinite
  | .array items =>
    rw [Json.unique] at hunique
    rw [Json.finite] at hfinite
    rw [hooked, hookedItems_of_unique hunique hfinite]
    rfl
  | .object members =>
    rw [Json.unique, Bool.and_eq_true, decide_eq_true_eq] at hunique
    rw [Json.finite] at hfinite
    rw [hooked, hookedMembers_of_unique hunique.2 hfinite, ok_bind,
      uniqueObject_eq_ok.mpr ⟨hunique.1, rfl⟩]
    rfl

theorem hookedItems_of_unique {vs : List Json} (hunique : Json.uniqueItems vs = true)
    (hfinite : Json.finiteItems vs = true) : hookedItems vs = .ok vs := by
  match vs with
  | [] => rw [hookedItems]; rfl
  | v :: vs =>
    rw [Json.uniqueItems, Bool.and_eq_true] at hunique
    rw [Json.finiteItems, Bool.and_eq_true] at hfinite
    rw [hookedItems, hooked_of_unique hunique.1 hfinite.1,
      hookedItems_of_unique hunique.2 hfinite.2]
    rfl

theorem hookedMembers_of_unique {vs : List (String × Json)}
    (hunique : Json.uniqueMembers vs = true) (hfinite : Json.finiteMembers vs = true) :
    hookedMembers vs = .ok vs := by
  match vs with
  | [] => rw [hookedMembers]; rfl
  | (name, v) :: vs =>
    rw [Json.uniqueMembers, Bool.and_eq_true] at hunique
    rw [Json.finiteMembers, Bool.and_eq_true] at hfinite
    rw [hookedMembers, hooked_of_unique hunique.1 hfinite.1,
      hookedMembers_of_unique hunique.2 hfinite.2]
    rfl

end

/-- What the payload stage lets through: a text that is read as an object, within the size limit,
with its canonical form. -/
theorem parseExactPayload_eq_ok {manifest : StoredPayload} {value : List (String × Json)}
    {stored canonical : String} (hlibrary : library.Canonicalizes) :
    parseExactPayload library manifest = .ok (value, stored, canonical) ↔
      manifest = .text stored ∧ stored ≠ "" ∧ stored.utf8ByteSize ≤ maxManifestBytes ∧
        library.parse stored = some (.object value) ∧ (Json.object value).unique = true ∧
        (Json.object value).finite = true ∧ library.dumps (.object value) = some canonical := by
  cases manifest with
  | other => simp [parseExactPayload]
  | unencodable => simp [parseExactPayload]
  | text payload =>
    simp only [parseExactPayload, bind_eq_ok, exists_unit, raiseIf_eq_ok, found_eq_ok, pure_eq_ok,
      Prod.mk.injEq, StoredPayload.text.injEq, not_or, not_lt, String.utf8ByteSize_eq_zero_iff]
    constructor
    · rintro ⟨⟨hempty, hsize⟩, tree, hparse, v, hhooked, members, hmembers, text, hdumps, rfl, rfl,
        rfl⟩
      obtain ⟨rfl, hunique⟩ := of_hooked hhooked
      obtain rfl : v = .object members := by
        cases v <;> simp [Json.members?] at hmembers
        rw [hmembers]
      exact ⟨rfl, hempty, hsize, hparse, hunique, hlibrary.finite _ _ hdumps, hdumps⟩
    · rintro ⟨rfl, hempty, hsize, hparse, hunique, hfinite, hdumps⟩
      exact ⟨⟨hempty, hsize⟩, _, hparse, _, hooked_of_unique hunique hfinite, value, rfl, canonical,
        hdumps, rfl, rfl, rfl⟩

/-! ## 2. The signature and the lifecycle -/

/-- The signature stage reads the encoding of 64 bytes and the key's public PEM. -/
theorem decodeSignature_eq_ok {publicKey : String} {encoded : Option Json} {raw : List UInt8}
    {verifier : κ} :
    decodeSignature library publicKey encoded = .ok (raw, verifier) ↔
      encoded = some (.text (String.ofList (Base64.encode raw))) ∧ raw.length = 64 ∧
        validateEd25519PublicPem library publicKey = .ok verifier := by
  constructor
  · intro h
    unfold decodeSignature at h
    split at h
    · rename_i text
      simp only [bind_eq_ok, exists_unit, raiseIf_eq_ok, found_eq_ok, pure_eq_ok, not_or, not_not,
        ne_eq, Prod.mk.injEq] at h
      obtain ⟨-, bytes, -, ⟨hlength, hencode⟩, key', hkey, rfl, rfl⟩ := h
      refine ⟨?_, hlength, hkey⟩
      rw [hencode, String.ofList_toList]
    · simp at h
  · rintro ⟨rfl, hlength, hkey⟩
    have hchars : (Base64.encode raw).length = 88 := by rw [Base64.length_encode, hlength]
    simp only [decodeSignature, bind_eq_ok, exists_unit, raiseIf_eq_ok, found_eq_ok, pure_eq_ok,
      not_or, not_not, ne_eq, String.length_ofList, String.toList_ofList, Base64.decode_encode]
    exact ⟨hchars, raw, rfl, ⟨hlength, rfl⟩, verifier, hkey, rfl⟩

/-- A key whose PEM passed `clean` leaves the signature stage nothing to raise but what is
caught. -/
theorem decodeSignature_caught {publicKey : String} {encoded : Option Json} {verifier : κ}
    {e : Raised} (hkey : validateEd25519PublicPem library publicKey = .ok verifier)
    (h : decodeSignature library publicKey encoded = .error e) : caught e = true := by
  unfold decodeSignature at h
  split at h
  · rename_i text
    simp only [hkey, bind_eq_error, raiseIf_eq_error, found_eq_error, pure, Except.pure, ok_bind,
      reduceCtorEq, and_false, exists_false, or_false] at h
    rcases h with ⟨-, rfl⟩ | ⟨-, -, ⟨-, rfl⟩ | ⟨-, -, -, rfl⟩⟩ <;> rfl
  · simp only [throw_eq, Except.error.injEq] at h
    rw [← h]
    rfl

/-- With time zones on both sides, the window is compared without raising. -/
theorem outsideWindow_spec {key : KeyRecord} (haware : key.WindowAware) (t : Instant) :
    ∃ outside, key.outsideWindow (.aware t) = .ok outside ∧
      (outside = false ↔ key.WindowContains (.aware t)) := by
  obtain ⟨⟨from', hfrom⟩, huntil⟩ := haware
  have hcontains : key.WindowContains (.aware t) ↔
      from' ≤ t ∧ ∀ limit ∈ key.validUntil, ∃ until', limit = .aware until' ∧ t < until' := by
    simp [KeyRecord.WindowContains, hfrom]
  rw [hcontains, KeyRecord.outsideWindow, hfrom, DateTime.lt, ok_bind]
  by_cases hearly : t < from'
  · exact ⟨true, if_pos (decide_eq_true hearly), by simp [not_le.mpr hearly]⟩
  rw [if_neg (by simpa using hearly)]
  cases hlimit : key.validUntil with
  | none => exact ⟨false, rfl, by simpa using hearly⟩
  | some limit =>
    obtain ⟨until', rfl⟩ := huntil limit hlimit
    refine ⟨decide (until' ≤ t), rfl, ?_⟩
    rw [decide_eq_false_iff_not, not_le]
    simp [not_lt.mp hearly]

/-- With time zones on its window a key gets a verdict, and it is trusted when the status and the
window allow it. -/
theorem verifyLifecycle_spec {key : KeyRecord} (haware : key.WindowAware) (current : DateTime) :
    ∃ verdict, verifyLifecycle key current = .ok verdict ∧
      (verdict.trusted = true ↔
        key.status ∈ ["active", "verify_only"] ∧ key.WindowContains current) := by
  unfold verifyLifecycle
  by_cases hrevoked : key.status = "revoked"
  · exact ⟨_, if_pos hrevoked, by simp [hrevoked]⟩
  by_cases hstatus : key.status ∈ ["active", "verify_only"]
  · rw [if_neg hrevoked, if_neg (not_not.mpr hstatus)]
    cases current with
    | naive t => exact ⟨_, rfl, by simp [KeyRecord.WindowContains]⟩
    | aware t =>
      obtain ⟨outside, houtside, hcontains⟩ := outsideWindow_spec haware t
      refine ⟨_, by rw [houtside, ok_bind]; rfl, ?_⟩
      rw [← hcontains]
      cases outside <;> simp [hstatus]
  · exact ⟨_, by rw [if_neg hrevoked, if_pos hstatus], by simp [hstatus]⟩

/-! ## 3. The envelope -/

/-- The envelope has its three members, names the key of the record and of the payload, and carries
the canonical encoding of 64 bytes that verify over exactly the stored text. -/
structure SignedBy (library : Library κ) (signature : Json) (key : KeyRecord) (stored : String)
    (value members : List (String × Json)) (raw : List UInt8) (verifier : κ) : Prop where
  envelope : signature = .object members
  names : ∀ name, name ∈ members.map Prod.fst ↔ name ∈ ["algorithm", "key_id", "signature"]
  envelopeAlgorithm : Json.get members "algorithm" = some (.text "Ed25519")
  envelopeKeyId : Json.get members "key_id" = some (.text key.keyId)
  payloadKeyId : Json.get value "signing_key_id" = some (.text key.keyId)
  encoded : Json.get members "signature" = some (.text (String.ofList (Base64.encode raw)))
  length : raw.length = 64
  publicKey : validateEd25519PublicPem library key.publicKey = .ok verifier
  verified : library.verify verifier raw stored = .verified

theorem sameNames_iff {members : List (String × Json)} {names : List String} :
    (members.all (fun member ↦ member.1 ∈ names) ∧
        ∀ name ∈ names, name ∈ members.map Prod.fst) ↔
      ∀ name, name ∈ members.map Prod.fst ↔ name ∈ names := by
  rw [List.all_eq_true]
  constructor
  · rintro ⟨hknown, hall⟩ name
    refine ⟨fun h ↦ ?_, hall name⟩
    obtain ⟨member, hmember, rfl⟩ := List.mem_map.mp h
    simpa using hknown member hmember
  · intro h
    refine ⟨fun member hmember ↦ ?_, fun name ↦ (h name).mpr⟩
    simpa using (h member.1).mp (List.mem_map_of_mem hmember)

/-- A refusal is not trusted, and is right where nothing has signed. -/
theorem refused_spec {key : KeyRecord} {p : Prop} (code : String) (h : ¬ p) :
    ∃ verdict, (.ok (refused key code) : Except Raised ManifestVerification) = .ok verdict ∧
      (verdict.trusted = true ↔ p) :=
  ⟨_, rfl, iff_of_false Bool.false_ne_true h⟩

/-- The envelope stage, for a key whose PEM passed `clean`. -/
theorem verifyEnvelope_spec {value : List (String × Json)} {stored : String} {signature : Json}
    {key : KeyRecord} {verifier : κ} (haware : key.WindowAware)
    (hkey : validateEd25519PublicPem library key.publicKey = .ok verifier) (current : DateTime) :
    ∃ verdict, verifyEnvelope library value stored signature key current = .ok verdict ∧
      (verdict.trusted = true ↔
        (∃ members raw, SignedBy library signature key stored value members raw verifier) ∧
          key.status ∈ ["active", "verify_only"] ∧ key.WindowContains current) := by
  unfold verifyEnvelope
  cases hobject : signature.members? with
  | none =>
    refine refused_spec _ ?_
    rintro ⟨⟨members, raw, hsigned⟩, -⟩
    simp [hsigned.envelope, Json.members?] at hobject
  | some members =>
    obtain rfl : signature = .object members := by
      cases signature <;> simp [Json.members?] at hobject
      rw [hobject]
    dsimp only
    split
    · rename_i hnames
      refine refused_spec _ ?_
      rintro ⟨⟨members', raw, hsigned⟩, -⟩
      obtain rfl := Json.object.inj hsigned.envelope
      exact hnames (sameNames_iff.mpr hsigned.names)
    rename_i hnames
    rw [not_not, sameNames_iff] at hnames
    split
    · rename_i halgorithm
      refine refused_spec _ ?_
      rintro ⟨⟨members', raw, hsigned⟩, -⟩
      obtain rfl := Json.object.inj hsigned.envelope
      exact halgorithm hsigned.envelopeAlgorithm
    rename_i halgorithm
    split
    · rename_i keyId hkeyId
      split
      · rename_i hmismatch
        refine refused_spec _ ?_
        rintro ⟨⟨members', raw, hsigned⟩, -⟩
        obtain rfl := Json.object.inj hsigned.envelope
        rw [hsigned.envelopeKeyId, Option.some.injEq, Json.text.injEq] at hkeyId
        rw [hsigned.payloadKeyId, hkeyId] at hmismatch
        simp at hmismatch
      rename_i hmatch
      rw [not_or, not_not, not_not] at hmatch
      obtain ⟨hpayload, rfl⟩ := hmatch
      cases hdecode : decodeSignature library key.publicKey (Json.get members "signature") with
      | error e =>
        dsimp only
        rw [if_pos (decodeSignature_caught hkey hdecode)]
        refine refused_spec _ ?_
        rintro ⟨⟨members', raw, hsigned⟩, -⟩
        obtain rfl := Json.object.inj hsigned.envelope
        rw [decodeSignature_eq_ok.mpr ⟨hsigned.encoded, hsigned.length, hkey⟩] at hdecode
        cases hdecode
      | ok decoded =>
        obtain ⟨raw, verifier'⟩ := decoded
        obtain ⟨hencoded, hlength, hkey'⟩ := decodeSignature_eq_ok.mp hdecode
        obtain rfl := Except.ok.inj (hkey.symm.trans hkey')
        -- the bytes are those of the only text they are written as
        have hraw : ∀ members' raw', SignedBy library (.object members) key stored value members'
            raw' verifier → raw' = raw := by
          intro members' raw' hsigned
          obtain rfl := Json.object.inj hsigned.envelope
          have heq := hsigned.encoded.symm.trans hencoded
          rw [Option.some.injEq, Json.text.injEq, String.ofList_inj] at heq
          have hdecoded := congrArg Base64.decode heq
          rwa [Base64.decode_encode, Base64.decode_encode, Option.some.injEq] at hdecoded
        dsimp only
        cases hverify : library.verify verifier raw stored with
        | invalidSignature =>
          refine refused_spec _ ?_
          rintro ⟨⟨members', raw', hsigned⟩, -⟩
          rw [← hraw members' raw' hsigned, hsigned.verified] at hverify
          cases hverify
        | raised =>
          refine refused_spec _ ?_
          rintro ⟨⟨members', raw', hsigned⟩, -⟩
          rw [← hraw members' raw' hsigned, hsigned.verified] at hverify
          cases hverify
        | verified =>
          obtain ⟨verdict, hverdict, htrusted⟩ := verifyLifecycle_spec haware current
          refine ⟨verdict, hverdict, htrusted.trans ⟨fun h ↦ ⟨⟨members, raw, ?_⟩, h⟩, And.right⟩⟩
          exact ⟨rfl, hnames, not_not.mp halgorithm, hkeyId, hpayload, hencoded, hlength, hkey,
            hverify⟩
    · rename_i hkeyId
      refine refused_spec _ ?_
      rintro ⟨⟨members', raw, hsigned⟩, -⟩
      obtain rfl := Json.object.inj hsigned.envelope
      exact hkeyId _ hsigned.envelopeKeyId

/-! ## 4. Trusted -/

/-- A valid registry record signs, in its window, the canonical text of an object of the expected
kind. -/
structure TrustedBy (library : Library κ) (signature : Json) (key : KeyRecord) (current : DateTime)
    (expectedKind : Option String) (stored : String) (value members : List (String × Json))
    (raw : List UInt8) (verifier : κ) : Prop
    extends SignedBy library signature key stored value members raw verifier where
  algorithm : key.algorithm = "Ed25519"
  registry : key.clean library = .ok ()
  size : stored.utf8ByteSize ≤ maxManifestBytes
  parsed : library.parse stored = some (.object value)
  unique : (Json.object value).unique = true
  finite : (Json.object value).finite = true
  canonical : library.dumps (.object value) = some stored
  kind : ∀ expected ∈ expectedKind, kindOf value = expected
  schema : (schemaOf library.formats (kindOf value)).accepts value = true
  status : key.status ∈ ["active", "verify_only"]
  window : key.WindowContains current

/-- A record that passed `clean` has a public key. -/
theorem KeyRecord.publicKey_of_clean {key : KeyRecord} (h : key.clean library = .ok ()) :
    ∃ verifier, validateEd25519PublicPem library key.publicKey = .ok verifier := by
  simp only [KeyRecord.clean, bind_eq_ok, exists_unit] at h
  obtain ⟨-, -, verifier, hkey, -⟩ := h
  exact ⟨verifier, hkey⟩

/-- The verdict on a stored text. -/
theorem trusted_text_iff (hlibrary : library.Canonicalizes) {key : KeyRecord}
    (haware : key.WindowAware) (payload : String) (signature : Json) (now : Option DateTime)
    (clock : Instant) (expectedKind : Option String) :
    ∃ verdict,
      verifyStoredManifest library (.text payload) signature key now clock expectedKind =
        .ok verdict ∧
      (verdict.trusted = true ↔ ∃ value members raw verifier,
        TrustedBy library signature key (now.getD (.aware clock)) expectedKind payload value members
          raw verifier) := by
  unfold verifyStoredManifest
  dsimp only
  split
  · rename_i hregistry
    refine refused_spec _ ?_
    rintro ⟨value, members, raw, verifier, htrusted⟩
    rw [raiseIf_neg (not_not.mpr htrusted.algorithm), htrusted.registry] at hregistry
    cases hregistry
  rename_i hregistry
  simp only [bind_eq_ok, exists_unit, raiseIf_eq_ok, not_not] at hregistry
  obtain ⟨halgorithm, hclean⟩ := hregistry
  obtain ⟨verifier, hkey⟩ := KeyRecord.publicKey_of_clean hclean
  cases hpayload : parseExactPayload library (.text payload) with
  | error e =>
    refine refused_spec _ ?_
    rintro ⟨value, members, raw, verifier, htrusted⟩
    have hparsed : parseExactPayload library (.text payload) = .ok (value, payload, payload) :=
      (parseExactPayload_eq_ok hlibrary).mpr ⟨rfl, hlibrary.nonempty _ _ htrusted.canonical,
        htrusted.size, htrusted.parsed, htrusted.unique, htrusted.finite, htrusted.canonical⟩
    rw [hparsed] at hpayload
    cases hpayload
  | ok parsed =>
    obtain ⟨value, stored, canonical⟩ := parsed
    obtain ⟨hstored, -, hsize, hparsed, hunique, hfinite, hcanonical⟩ :=
      (parseExactPayload_eq_ok hlibrary).mp hpayload
    obtain rfl := StoredPayload.text.inj hstored
    -- a text is read in one way only
    have hvalue : ∀ value' members raw verifier, TrustedBy library signature key
        (now.getD (.aware clock)) expectedKind payload value' members raw verifier →
          value' = value := by
      intro value' members raw verifier' htrusted
      have hread := htrusted.parsed.symm.trans hparsed
      rwa [Option.some.injEq, Json.object.injEq] at hread
    dsimp only
    split
    · rename_i hcanonical'
      refine refused_spec _ ?_
      rintro ⟨value', members, raw, verifier', htrusted⟩
      obtain rfl := hvalue _ _ _ _ htrusted
      exact hcanonical' (Option.some.inj (htrusted.canonical.symm.trans hcanonical))
    rename_i hsame
    obtain rfl := not_not.mp hsame
    split
    · rename_i hkind
      refine refused_spec _ ?_
      rintro ⟨value', members, raw, verifier', htrusted⟩
      obtain rfl := hvalue _ _ _ _ htrusted
      obtain ⟨expected, hexpected, hne⟩ := hkind
      exact hne (htrusted.kind expected hexpected)
    rename_i hkind
    split
    · rename_i hschema
      refine refused_spec _ ?_
      rintro ⟨value', members, raw, verifier', htrusted⟩
      obtain rfl := hvalue _ _ _ _ htrusted
      exact hschema htrusted.schema
    rename_i hschema
    obtain ⟨verdict, hverdict, hsigned⟩ := verifyEnvelope_spec haware hkey (now.getD (.aware clock))
    refine ⟨verdict, hverdict, hsigned.trans ⟨?_, ?_⟩⟩
    · rintro ⟨⟨members, raw, hsigned⟩, hstatus, hwindow⟩
      push Not at hkind
      exact ⟨value, members, raw, verifier, hsigned, halgorithm, hclean, hsize, hparsed, hunique,
        hfinite, hcanonical, hkind, not_not.mp hschema, hstatus, hwindow⟩
    · rintro ⟨value', members, raw, verifier', htrusted⟩
      obtain rfl := hvalue _ _ _ _ htrusted
      obtain rfl := Except.ok.inj (hkey.symm.trans htrusted.publicKey)
      exact ⟨⟨members, raw, htrusted.toSignedBy⟩, htrusted.status, htrusted.window⟩

/-- What is no text is refused, by the registry check or as a payload. -/
theorem verifyStoredManifest_other {manifest : StoredPayload} (hother : ∀ s, manifest ≠ .text s)
    (key : KeyRecord) (signature : Json) (now : Option DateTime) (clock : Instant)
    (expectedKind : Option String) :
    ∃ code, verifyStoredManifest library manifest signature key now clock expectedKind =
      .ok (refused key code) := by
  unfold verifyStoredManifest
  dsimp only
  split
  · exact ⟨_, rfl⟩
  cases manifest with
  | text s => exact absurd rfl (hother s)
  | unencodable => exact ⟨_, rfl⟩
  | other => exact ⟨_, rfl⟩

/-- **The verifier.**  Whatever is stored, offered and expected, it returns a verdict, and the
verdict is trusted exactly when a valid registry record signs the manifest. -/
theorem trusted_iff (hlibrary : library.Canonicalizes) {key : KeyRecord} (haware : key.WindowAware)
    (manifest : StoredPayload) (signature : Json) (now : Option DateTime) (clock : Instant)
    (expectedKind : Option String) :
    ∃ verdict,
      verifyStoredManifest library manifest signature key now clock expectedKind = .ok verdict ∧
      (verdict.trusted = true ↔ ∃ stored value members raw verifier, manifest = .text stored ∧
        TrustedBy library signature key (now.getD (.aware clock)) expectedKind stored value members
          raw verifier) := by
  by_cases htext : ∃ payload, manifest = .text payload
  · obtain ⟨payload, rfl⟩ := htext
    obtain ⟨verdict, hverdict, htrusted⟩ :=
      trusted_text_iff hlibrary haware payload signature now clock expectedKind
    refine ⟨verdict, hverdict, htrusted.trans ⟨?_, ?_⟩⟩
    · rintro ⟨value, members, raw, verifier, h⟩
      exact ⟨payload, value, members, raw, verifier, rfl, h⟩
    · rintro ⟨stored, value, members, raw, verifier, hstored, h⟩
      obtain rfl := StoredPayload.text.inj hstored
      exact ⟨value, members, raw, verifier, h⟩
  · obtain ⟨code, hcode⟩ := verifyStoredManifest_other (not_exists.mp htext) key signature now clock
      expectedKind
    rw [hcode]
    refine refused_spec _ ?_
    rintro ⟨stored, value, members, raw, verifier, hstored, -⟩
    exact htext ⟨stored, hstored⟩

/-! ## 5. A signed pair -/

def samplePem : String :=
  "-----BEGIN PUBLIC KEY-----\nMCowBQYDK2VwAyEAA6EHv/POEL4dcN0Y50vAmWfk1jCbpQ1fHdyGZBJVMbg=\n" ++
    "-----END PUBLIC KEY-----\n"

def sampleKey : KeyRecord where
  id := ⟨1⟩
  organizationId := ⟨2⟩
  keyId := "manifest-key-1"
  algorithm := "Ed25519"
  publicKey := samplePem
  status := "active"
  validFrom := .aware 0
  validUntil := some (.aware 1000)
  revokedAt := none
  metadata := .object []
  createdAt := .aware 0

def samplePublic : List (String × Json) :=
  [("fingerprint_algorithm", .text "none"),
    ("integrity_algorithm", .text "integrity_release_v1"),
    ("issuance_id", .text "00000000-0000-0000-0000-000000000003"),
    ("issued_at", .text "2026-01-01T00:00:00Z"),
    ("output_sha256", .text "aaaaaaaaaaaaaaaaaaaaaaaaaaaaaaaaaaaaaaaaaaaaaaaaaaaaaaaaaaaaaaaa"),
    ("schema_version", .int 1),
    ("signing_key_id", .text "manifest-key-1")]

def samplePublicText : String :=
  "\x7b\"fingerprint_algorithm\":\"none\",\"integrity_algorithm\":\"integrity_release_v1\"," ++
    "\"issuance_id\":\"00000000-0000-0000-0000-000000000003\"," ++
    "\"issued_at\":\"2026-01-01T00:00:00Z\",\"output_sha256\":" ++
    "\"aaaaaaaaaaaaaaaaaaaaaaaaaaaaaaaaaaaaaaaaaaaaaaaaaaaaaaaaaaaaaaaa\"," ++
    "\"schema_version\":1,\"signing_key_id\":\"manifest-key-1\"\x7d"

/-- The signature of the public text under the private key of `samplePem`. -/
def samplePublicSignature : List UInt8 :=
  [157, 219, 227, 82, 62, 166, 127, 80, 240, 251, 226, 156, 106, 67, 243, 53, 142, 36, 95, 136,
    123, 244, 186, 83, 31, 191, 205, 86, 107, 125, 40, 124, 20, 64, 157, 51, 77, 253, 238, 44, 77,
    80, 148, 214, 164, 188, 180, 100, 105, 50, 43, 41, 54, 66, 204, 75, 4, 195, 116, 124, 6, 168,
    122, 3]

def samplePublicEnvelope : List (String × Json) :=
  [("algorithm", .text "Ed25519"), ("key_id", .text "manifest-key-1"),
    ("signature", .text (String.ofList (Base64.encode samplePublicSignature)))]

/-- The libraries, on the sample's texts. -/
def sampleLibrary : Library Unit where
  parse := fun s ↦ if s = samplePublicText then some (.object samplePublic) else none
  dumps := fun v ↦ if v = .object samplePublic then some samplePublicText else none
  formats := ⟨fun s ↦ s.length = 36, fun s ↦ Calendar.accepts s.toList⟩
  loadPem := fun s ↦ if s = samplePem then .ed25519 () else .refused
  publicPem := fun _ ↦ samplePem
  verify := fun _ raw payload ↦
    if raw = samplePublicSignature ∧ payload = samplePublicText then .verified
    else .invalidSignature

theorem sampleLibrary_canonicalizes : sampleLibrary.Canonicalizes where
  finite := by
    intro v s h
    simp only [sampleLibrary, Option.ite_none_right_eq_some] at h
    rw [h.1]
    decide +kernel
  nonempty := by
    intro v s h
    simp only [sampleLibrary, Option.ite_none_right_eq_some, Option.some.injEq] at h
    rw [← h.2]
    decide +kernel

theorem sampleKey_windowAware : sampleKey.WindowAware :=
  ⟨⟨0, rfl⟩, fun _ hlimit ↦ ⟨1000, (Option.some.inj hlimit).symm⟩⟩

/-- The public text is trusted inside the window. -/
theorem trusted_iff_sample : ∃ verdict,
    verifyStoredManifest sampleLibrary (.text samplePublicText) (.object samplePublicEnvelope)
      sampleKey (some (.aware 100)) 0 (some "public") = .ok verdict ∧ verdict.trusted = true := by
  obtain ⟨verdict, hverdict, htrusted⟩ := trusted_iff sampleLibrary_canonicalizes
    sampleKey_windowAware (.text samplePublicText) (.object samplePublicEnvelope)
    (some (.aware 100)) 0 (some "public")
  refine ⟨verdict, hverdict, htrusted.mpr ⟨samplePublicText, samplePublic, samplePublicEnvelope,
    samplePublicSignature, (), rfl, ?_⟩⟩
  exact {
    envelope := rfl
    names := by simp [samplePublicEnvelope]
    envelopeAlgorithm := by decide +kernel
    envelopeKeyId := by decide +kernel
    payloadKeyId := by decide +kernel
    encoded := by decide +kernel
    length := rfl
    publicKey := by decide +kernel
    verified := by decide +kernel
    algorithm := rfl
    registry := by decide +kernel
    size := by decide +kernel
    parsed := by decide +kernel
    unique := by decide +kernel
    finite := by decide +kernel
    canonical := by decide +kernel
    kind := by decide +kernel
    schema := by decide +kernel
    status := by decide
    window := ⟨100, 0, rfl, rfl, by decide, fun _ hlimit ↦
      ⟨1000, (Option.some.inj hlimit).symm, by decide⟩⟩ }

end Splitbind.ManifestVerifier
