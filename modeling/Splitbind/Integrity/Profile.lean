import Splitbind.Library.Fields
import Splitbind.Library.JsonText
import Splitbind.Library.Rotation
import Splitbind.Library.Sha256
import Splitbind.Library.Transaction

/-!
# Integrity profile — what the regions of a page are authenticated with

A profile is accepted when its canonical text has the digest of the frozen one; the checks behind
that read its fields.  The digest and what Python does with floats are parameters.  Texts are of
Unicode characters, so that each of them can be encoded.
-/

namespace Splitbind

open Transaction

inductive IntegrityError
  | type (message : String)
  | value (message : String)
  | overflow (message : String)
  | zeroDivision (message : String)
deriving DecidableEq, Repr

/-! ## 1. Strict JSON values -/

/-- What a caller passes; the items of a mapping are as it yields them, under a name when the key is
a text. -/
inductive ProfileValue
  | null
  | bool (b : Bool)
  | int (i : Int)
  | float (q : ℚ)
  | nonFinite
  | text (s : String)
  | list (items : List ProfileValue)
  | mapping (items : List (Option String × ProfileValue))
  | other

mutual

/-- `_normalize_profile_json`. -/
def normalizeProfileJson (path : String) : ProfileValue → Except IntegrityError Json
  | .null => .ok .null
  | .bool b => .ok (.bool b)
  | .int i => .ok (.int i)
  | .float q => .ok (.float q)
  | .nonFinite =>
    .error (.value ("integrity profile number at " ++ path ++ " must be finite"))
  | .text s => .ok (.text s)
  | .list items => do return .array (← normalizeItems path 0 items)
  | .mapping items => do return .object (← normalizeMembers path [] items)
  | .other =>
    .error (.type ("integrity profile value at " ++ path ++ " is not a strict JSON value"))

def normalizeItems (path : String) (index : Nat) :
    List ProfileValue → Except IntegrityError (List Json)
  | [] => .ok []
  | item :: items => do
    let v ← normalizeProfileJson (path ++ "[" ++ toString index ++ "]") item
    return v :: (← normalizeItems path (index + 1) items)

def normalizeMembers (path : String) (result : List (String × Json)) :
    List (Option String × ProfileValue) → Except IntegrityError (List (String × Json))
  | [] => .ok result
  | (none, _) :: _ =>
    .error (.type ("integrity profile member name at " ++ path ++ " must be a string"))
  | (some key, item) :: items => do
    let v ← normalizeProfileJson (path ++ "." ++ key) item
    normalizeMembers path (Json.set key v result) items

end

/-- Python on numbers: how floats are written, and `float(i)` of a whole number that is not too
large. -/
structure PythonNumbers where
  floats : JsonText.FloatText
  ofInt : Int → Option ℚ

mutual

/-- Whether `int.__repr__` refuses a number of the tree for its digits. -/
def hasLongInt : Json → Bool
  | .int i => 4300 < (Nat.toDigits 10 i.natAbs).length
  | .array items => hasLongIntItems items
  | .object members => hasLongIntMembers members
  | _ => false

def hasLongIntItems : List Json → Bool
  | [] => false
  | v :: vs => hasLongInt v || hasLongIntItems vs

def hasLongIntMembers : List (String × Json) → Bool
  | [] => false
  | (_, v) :: members => hasLongInt v || hasLongIntMembers members

end

def profileV1CanonicalSha256 : String :=
  "76917b030dfe508532dbc2603953dcba1491ef7fa5d538217bec93076014188d"

/-- The bytes that are digested. -/
def canonicalProfile (numbers : PythonNumbers) (profile : Json) : List UInt8 :=
  (JsonText.canonical numbers.floats profile).flatMap String.utf8EncodeChar

/-! ## 2. Fields -/

mutual

/-- `==` with a value that is not an object: numbers and truth values are compared as numbers. -/
def pythonEquals : Json → Json → Bool
  | .null, .null => true
  | .text a, .text b => a = b
  | .array as, .array bs => pythonEqualsItems as bs
  | .bool a, .bool b => a = b
  | .bool a, .int i => (if a then 1 else 0) = i
  | .bool a, .float q => (if a then 1 else 0) = q
  | .int i, .bool b => i = if b then 1 else 0
  | .int i, .int j => i = j
  | .int i, .float q => (i : ℚ) = q
  | .float q, .bool b => q = if b then 1 else 0
  | .float q, .int i => q = i
  | .float p, .float q => p = q
  | _, _ => false

def pythonEqualsItems : List Json → List Json → Bool
  | [], [] => true
  | a :: as, b :: bs => pythonEquals a b && pythonEqualsItems as bs
  | _, _ => false

end

/-- `parent.get(key)`. -/
def jsonGet (parent : List (String × Json)) (key : String) : Json :=
  (Json.get parent key).getD .null

/-- `set(value) != expected`. -/
def differentKeys (members : List (String × Json)) (expected : List String) : Bool :=
  !((members.map Prod.fst).all expected.contains && expected.all (members.map Prod.fst).contains)

/-- `_mapping`. -/
def mappingField (parent : List (String × Json)) (key : String) :
    Except IntegrityError (List (String × Json)) :=
  found (jsonGet parent key).members?
    (.value ("integrity profile field " ++ key ++ " must be an object"))

def exactKeys (members : List (String × Json)) (expected : List String) :
    Except IntegrityError Unit :=
  raiseIf (differentKeys members expected = true)
    (.value "integrity profile has missing or unsupported nested fields")

def position? : Json → Option (Int × Int)
  | .array [.int row, .int column] =>
    if 0 ≤ row ∧ row < 128 ∧ 0 ≤ column ∧ column < 128 then some (row, column) else none
  | _ => none

def profilePositions (value : Json) (count : Nat) : Except IntegrityError (List (Int × Int)) := do
  let invalid : IntegrityError := .value "integrity profile coefficient positions are invalid"
  match value with
  | .array items =>
    raiseIf (items.length ≠ count) invalid
    let positions ← items.mapM fun pair ↦ found (position? pair) invalid
    raiseIf (¬ positions.Nodup) (.value "integrity profile coefficient positions must be unique")
    return positions
  | _ => .error invalid

def int? : Json → Option Int
  | .int i => some i
  | _ => none

def coefficientBox (value : Json) : Except IntegrityError (List (Int × Int)) := do
  let invalid : IntegrityError := .value "integrity profile tag coefficient box is invalid"
  let members ← found value.members? invalid
  raiseIf (differentKeys members ["row_start", "column_start", "rows", "columns"] = true) invalid
  let row ← found (int? (jsonGet members "row_start")) invalid
  let column ← found (int? (jsonGet members "column_start")) invalid
  let rows ← found (int? (jsonGet members "rows")) invalid
  let columns ← found (int? (jsonGet members "columns")) invalid
  raiseIf (row < 0 ∨ column < 0 ∨ rows < 1 ∨ columns < 1 ∨ 128 < row + rows ∨
      128 < column + columns) invalid
  return (List.range rows.toNat).flatMap fun r ↦
    (List.range columns.toNat).map fun c ↦ (row + r, column + c)

/-- `_integer_tuple`; what passes is positive. -/
def integerTuple (value : Json) : Except IntegrityError (List Nat) := do
  let invalid : IntegrityError := .value "integrity profile replica shifts are invalid"
  match value with
  | .array items =>
    raiseIf (items = []) invalid
    let shifts ← items.mapM fun item ↦ do
      let shift ← found (int? item) invalid
      raiseIf (shift < 1) invalid
      return shift.toNat
    raiseIf (¬ shifts.Nodup) (.value "integrity profile replica shifts must be unique")
    return shifts
  | _ => .error invalid

def finitePositive (numbers : PythonNumbers) (value : Json) : Except IntegrityError ℚ := do
  let invalid : IntegrityError :=
    .value "integrity profile numeric value must be finite and positive"
  match value with
  | .int i =>
    let q ← found (numbers.ofInt i) (.overflow "int too large to convert to float")
    raiseIf (q ≤ 0) invalid
    return q
  | .float q =>
    raiseIf (q ≤ 0) invalid
    return q
  | _ => .error invalid

def unitFloat (numbers : PythonNumbers) (value : Json) : Except IntegrityError ℚ := do
  let result ← finitePositive numbers value
  raiseIf (1 < result) (.value "integrity profile threshold must be in (0, 1]")
  return result

/-- `_positive_integer`; what passes is positive. -/
def profilePositiveInteger (value : Json) : Except IntegrityError Nat := do
  let invalid : IntegrityError := .value "integrity profile integer value must be positive"
  let i ← found (int? value) invalid
  raiseIf (i < 1) invalid
  return i.toNat

def nonemptyAscii (value : Json) : Except IntegrityError (List UInt8) :=
  let invalid : IntegrityError := .value "integrity profile domain must be bounded ASCII"
  match value with
  | .text s => do
    raiseIf (s.toList = [] ∨ 128 < s.toList.length ∨ ¬ s.toList.all (·.toNat < 128)) invalid
    return s.toList.map fun c ↦ UInt8.ofNat c.toNat
  | _ => .error invalid

/-- An identifier of a limitation. -/
def limitation? (member : String × Json) : Option (String × String) :=
  match member.2 with
  | .text s => if "integrity.".toList.isPrefixOf s.toList then some (member.1, s) else none
  | _ => none

/-! ## 3. Validation -/

/-- `_Profile`. -/
structure IntegrityProfile where
  regionSize : Nat
  featurePositions : List (Int × Int)
  featureStep : ℚ
  partnerDomain : List UInt8
  replicaShifts : List Nat
  qimDelta : ℚ
  coefficientSets : List (List (Int × Int))
  minimumReplicaVotes : Nat
  minimumBitConfidence : ℚ
  minimumRegions : Nat
  compressionRatio : ℚ
  geometryRatio : ℚ
  highConfidence : ℚ
  limitationIds : List (String × String)
  maxPixels : Nat
  keyMin : Nat
  keyMax : Nat
  nonceMin : Nat
  nonceMax : Nat

/-- The objects of the frozen form. -/
structure ProfileSections where
  content : List (String × Json)
  authentication : List (String × Json)
  partnerMapping : List (String × Json)
  embedding : List (String × Json)
  localization : List (String × Json)
  decisionPolicy : List (String × Json)
  bounds : List (String × Json)

def profileKeys : List String :=
  ["schema_version", "profile_id", "status", "region_size_px", "content_feature", "authentication",
    "partner_mapping", "embedding", "localization", "decision_policy", "input_bounds"]

/-- The fields of the sections with the only values they may have. -/
def requiredLiterals (sections : ProfileSections) : List (Json × Json) :=
  let content := jsonGet sections.content
  let authentication := jsonGet sections.authentication
  let embedding := jsonGet sections.embedding
  let localization := jsonGet sections.localization
  let bounds := jsonGet sections.bounds
  [(content "color_channel", .text "luminance"), (content "transform", .text "dct"),
    (content "coefficient_band", .text "low-frequency-quantized"),
    (content "encoding", .text "signed-int16-big-endian"),
    (authentication "algorithm", .text "hmac-sha256"), (authentication "tag_bytes", .int 4),
    (authentication "binding_inputs",
      .array [.text "content_feature", .text "region_index_be32", .text "document_nonce"]),
    (authentication "placement", .text "key-derived-partner-region"),
    (jsonGet sections.partnerMapping "derivation", .text "hmac-sha256-sorted-ring-v1"),
    (authentication "exclude_destination_coefficients_from_feature", .bool true),
    (embedding "transform", .text "dct"), (embedding "quantizer", .text "parity-qim"),
    (localization "coordinate_space", .text "normalized-xywh"),
    (localization "score_range", .array [.float 0, .float 1]),
    (bounds "supported_dtype", .text "uint8"),
    (bounds "supported_channels", .array [.int 1, .int 3]),
    (bounds "partial_region_policy", .text "ignore")]

/-- The sections of a profile, with the keys and the literals of the frozen form. -/
def profileSections (profile : List (String × Json)) : Except IntegrityError ProfileSections := do
  raiseIf (differentKeys profile profileKeys = true)
    (.value "integrity profile has missing or unsupported fields")
  let field := jsonGet profile
  raiseIf (pythonEquals (field "schema_version") (.int 1) = false ∨
      pythonEquals (field "profile_id") (.text "splitbind-integrity-candidate-v1") = false ∨
      pythonEquals (field "status") (.text "research-candidate") = false ∨
      pythonEquals (field "region_size_px") (.int 128) = false)
    (.value "integrity profile identity, status, and region size must match v1")
  let content ← mappingField profile "content_feature"
  let authentication ← mappingField profile "authentication"
  let partnerMapping ← mappingField profile "partner_mapping"
  let embedding ← mappingField profile "embedding"
  let localization ← mappingField profile "localization"
  let decisionPolicy ← mappingField profile "decision_policy"
  let bounds ← mappingField profile "input_bounds"
  exactKeys content ["color_channel", "transform", "coefficient_band", "coefficient_positions",
    "quantization_step", "encoding"]
  exactKeys authentication ["algorithm", "tag_bytes", "binding_inputs", "placement",
    "exclude_destination_coefficients_from_feature"]
  exactKeys partnerMapping ["derivation", "domain", "replica_ring_shifts"]
  exactKeys embedding ["transform", "quantizer", "qim_delta", "tag_coefficient_sets",
    "minimum_replica_votes", "minimum_bit_confidence"]
  exactKeys localization ["coordinate_space", "score_range"]
  exactKeys decisionPolicy ["minimum_complete_regions", "strong_compression_mismatch_ratio",
    "geometry_failure_mismatch_ratio", "high_confidence_threshold", "limitation_ids"]
  exactKeys bounds ["supported_dtype", "supported_channels", "max_pixels", "key_bytes",
    "nonce_bytes", "partial_region_policy"]
  let sections : ProfileSections :=
    ⟨content, authentication, partnerMapping, embedding, localization, decisionPolicy, bounds⟩
  raiseIf ((requiredLiterals sections).any (fun choice ↦ !pythonEquals choice.1 choice.2) = true)
    (.value "integrity profile contains unsupported algorithm choices")
  return sections

/-- The destinations of the tags: one box for a replica, apart from each other and from the
feature. -/
def tagCoefficientSets (value : Json) (shifts : List Nat) (featurePositions : List (Int × Int)) :
    Except IntegrityError (List (List (Int × Int))) := do
  let unmatched : IntegrityError :=
    .value "integrity profile tag coefficient sets must match replicas"
  match value with
  | .array boxes =>
    raiseIf (boxes.length ≠ shifts.length) unmatched
    let sets ← boxes.mapM coefficientBox
    raiseIf (sets.any (fun positions ↦ positions.length ≠ 32) = true)
      (.value "integrity profile each tag coefficient set must contain 32 positions")
    raiseIf (featurePositions.any sets.flatten.contains = true)
      (.value "integrity profile feature and destination coefficients must be disjoint")
    raiseIf ((sets.map fun positions ↦ positions.dedup.length).sum ≠ sets.flatten.dedup.length)
      (.value "integrity profile destination coefficient sets must be pairwise disjoint")
    return sets
  | _ => .error unmatched

/-- The fields of the sections. -/
def parseProfile (numbers : PythonNumbers) (sections : ProfileSections) :
    Except IntegrityError IntegrityProfile := do
  let content := jsonGet sections.content
  let embedding := jsonGet sections.embedding
  let decision := jsonGet sections.decisionPolicy
  let featurePositions ← profilePositions (content "coefficient_positions") 16
  let featureStep ← finitePositive numbers (content "quantization_step")
  let replicaShifts ← integerTuple (jsonGet sections.partnerMapping "replica_ring_shifts")
  let coefficientSets ←
    tagCoefficientSets (embedding "tag_coefficient_sets") replicaShifts featurePositions
  let limitations ← mappingField sections.decisionPolicy "limitation_ids"
  exactKeys limitations ["strong_compression", "geometry_failure", "insufficient_complete_regions",
    "indeterminate"]
  let limitationIds ← limitations.mapM fun member ↦
    found (limitation? member) (.value "integrity profile limitation identifiers are invalid")
  let keyBounds ← mappingField sections.bounds "key_bytes"
  let nonceBounds ← mappingField sections.bounds "nonce_bytes"
  exactKeys keyBounds ["minimum", "maximum"]
  exactKeys nonceBounds ["minimum", "maximum"]
  let partnerDomain ← nonemptyAscii (jsonGet sections.partnerMapping "domain")
  let qimDelta ← finitePositive numbers (embedding "qim_delta")
  let minimumReplicaVotes ← profilePositiveInteger (embedding "minimum_replica_votes")
  let minimumBitConfidence ← unitFloat numbers (embedding "minimum_bit_confidence")
  let minimumRegions ← profilePositiveInteger (decision "minimum_complete_regions")
  let compressionRatio ← unitFloat numbers (decision "strong_compression_mismatch_ratio")
  let geometryRatio ← unitFloat numbers (decision "geometry_failure_mismatch_ratio")
  let highConfidence ← unitFloat numbers (decision "high_confidence_threshold")
  let maxPixels ← profilePositiveInteger (jsonGet sections.bounds "max_pixels")
  let keyMin ← profilePositiveInteger (jsonGet keyBounds "minimum")
  let keyMax ← profilePositiveInteger (jsonGet keyBounds "maximum")
  let nonceMin ← profilePositiveInteger (jsonGet nonceBounds "minimum")
  let nonceMax ← profilePositiveInteger (jsonGet nonceBounds "maximum")
  return {
    regionSize := 128, featurePositions, featureStep, partnerDomain, replicaShifts, qimDelta,
    coefficientSets, minimumReplicaVotes, minimumBitConfidence, minimumRegions, compressionRatio,
    geometryRatio, highConfidence, limitationIds, maxPixels, keyMin, keyMax, nonceMin, nonceMax }

/-- The bounds that the fields keep together. -/
def validateBounds (profile : IntegrityProfile) : Except IntegrityError Unit := do
  raiseIf (profile.maxPixels ≠ 40000000 ∨ profile.minimumRegions ≤ profile.replicaShifts.length)
    (.value "integrity profile safety bounds are invalid")
  raiseIf (profile.replicaShifts.length < profile.minimumReplicaVotes)
    (.value "integrity profile vote threshold exceeds replicas")
  raiseIf (¬ Rotation.Independent profile.replicaShifts profile.minimumRegions)
    (.value "integrity profile partner mappings must be independent")
  raiseIf (profile.keyMax < profile.keyMin ∨ profile.nonceMax < profile.nonceMin)
    (.value "integrity profile secret bounds are invalid")

/-- `_validate_profile`. -/
def validateIntegrityProfile (sha256 : List UInt8 → List Char) (numbers : PythonNumbers)
    (value : ProfileValue) : Except IntegrityError IntegrityProfile := do
  let normalized ← normalizeProfileJson "$" value
  let profile ← found normalized.members? (.type "integrity profile must be a JSON object")
  raiseIf (hasLongInt normalized = true) (.value "integrity profile is not canonical JSON")
  raiseIf (sha256 (canonicalProfile numbers normalized) ≠ profileV1CanonicalSha256.toList)
    (.value "integrity profile material choices do not match frozen v1")
  let sections ← profileSections profile
  let parsed ← parseProfile numbers sections
  validateBounds parsed
  return parsed

/-! ## 4. The frozen profile -/

def frozenPartnerMapping : List (String × Json) :=
  [("derivation", .text "hmac-sha256-sorted-ring-v1"),
    ("domain", .text "splitbind-integrity-partners-v1"),
    ("replica_ring_shifts", .array [.int 1, .int 2, .int 3])]

def frozenDecisionPolicy : List (String × Json) :=
  [("minimum_complete_regions", .int 4),
    ("strong_compression_mismatch_ratio", .float (3602879701896397 / 36028797018963968)),
    ("geometry_failure_mismatch_ratio", .float (1 / 4)),
    ("high_confidence_threshold", .float (7656119366529843 / 9007199254740992)),
    ("limitation_ids", .object [("strong_compression", .text "integrity.strong_compression"),
      ("geometry_failure", .text "integrity.geometry_failure"),
      ("insufficient_complete_regions", .text "integrity.insufficient_complete_regions"),
      ("indeterminate", .text "integrity.indeterminate")])]

/-- The members of the file; the floats are the doubles nearest to what is written. -/
def frozenMembers : List (String × Json) :=
  [("schema_version", .int 1), ("profile_id", .text "splitbind-integrity-candidate-v1"),
    ("status", .text "research-candidate"), ("region_size_px", .int 128),
    ("content_feature", .object [("color_channel", .text "luminance"), ("transform", .text "dct"),
      ("coefficient_band", .text "low-frequency-quantized"),
      ("coefficient_positions", .array
        ([(0, 0), (0, 1), (1, 0), (1, 1), (0, 2), (2, 0), (1, 2), (2, 1), (0, 3), (3, 0), (1, 3),
          (3, 1), (2, 2), (2, 3), (3, 2), (3, 3)].map fun position ↦
            .array [.int position.1, .int position.2])),
      ("quantization_step", .float 512), ("encoding", .text "signed-int16-big-endian")]),
    ("authentication", .object [("algorithm", .text "hmac-sha256"), ("tag_bytes", .int 4),
      ("binding_inputs",
        .array [.text "content_feature", .text "region_index_be32", .text "document_nonce"]),
      ("placement", .text "key-derived-partner-region"),
      ("exclude_destination_coefficients_from_feature", .bool true)]),
    ("partner_mapping", .object frozenPartnerMapping),
    ("embedding", .object [("transform", .text "dct"), ("quantizer", .text "parity-qim"),
      ("qim_delta", .float 48),
      ("tag_coefficient_sets", .array ([8, 12, 16].map fun row ↦ .object [("row_start", .int row),
        ("column_start", .int 8), ("rows", .int 4), ("columns", .int 8)])),
      ("minimum_replica_votes", .int 2),
      ("minimum_bit_confidence", .float (3602879701896397 / 18014398509481984))]),
    ("localization", .object [("coordinate_space", .text "normalized-xywh"),
      ("score_range", .array [.float 0, .float 1])]),
    ("decision_policy", .object frozenDecisionPolicy),
    ("input_bounds", .object [("supported_dtype", .text "uint8"),
      ("supported_channels", .array [.int 1, .int 3]), ("max_pixels", .int 40000000),
      ("key_bytes", .object [("minimum", .int 16), ("maximum", .int 64)]),
      ("nonce_bytes", .object [("minimum", .int 8), ("maximum", .int 64)]),
      ("partial_region_policy", .text "ignore")])]

/-- `integrity-profile.v1.json`. -/
def frozenIntegrityProfile : Json := .object frozenMembers

/-- The text of a profile is the frozen one when its digest is the pinned one. -/
def PinsFrozen (sha256 : List UInt8 → List Char) (numbers : PythonNumbers) (profile : Json) :
    Prop :=
  sha256 (canonicalProfile numbers profile) = profileV1CanonicalSha256.toList →
    canonicalProfile numbers profile = canonicalProfile numbers frozenIntegrityProfile

/-! ## 5. Accepted profiles -/

theorem mappingField_eq_ok {parent members : List (String × Json)} {key : String} :
    mappingField parent key = .ok members ↔ Json.get parent key = some (.object members) := by
  rw [mappingField, found_eq_ok, jsonGet]
  cases hget : Json.get parent key with
  | none => exact iff_of_false (fun h ↦ nomatch h) (fun h ↦ nomatch h)
  | some v =>
    rw [Option.getD_some, Option.some_inj]
    cases v with
    | object inner => exact ⟨fun h ↦ congrArg Json.object (Option.some.inj h),
        fun h ↦ congrArg some (Json.object.inj h)⟩
    | _ => exact iff_of_false (fun h ↦ nomatch h) (fun h ↦ nomatch h)

theorem of_profileSections {profile : List (String × Json)} {sections : ProfileSections}
    (h : profileSections profile = .ok sections) :
    Json.get profile "partner_mapping" = some (.object sections.partnerMapping) ∧
      Json.get profile "decision_policy" = some (.object sections.decisionPolicy) := by
  simp only [profileSections, bind_eq_ok, exists_unit, pure_eq_ok, mappingField_eq_ok] at h
  obtain ⟨-, -, content, -, authentication, -, partnerMapping, hpartner, embedding, -,
    localization, -, decisionPolicy, hdecision, bounds, -, -, -, -, -, -, -, -, -, rfl⟩ := h
  exact ⟨hpartner, hdecision⟩

theorem of_parseProfile {numbers : PythonNumbers} {sections : ProfileSections}
    {profile : IntegrityProfile} (h : parseProfile numbers sections = .ok profile) :
    integerTuple (jsonGet sections.partnerMapping "replica_ring_shifts") =
        .ok profile.replicaShifts ∧
      profilePositiveInteger (jsonGet sections.decisionPolicy "minimum_complete_regions") =
        .ok profile.minimumRegions ∧
      profile.regionSize = 128 := by
  simp only [parseProfile, bind_eq_ok, exists_unit, pure_eq_ok] at h
  obtain ⟨featurePositions, -, featureStep, -, replicaShifts, hshifts, coefficientSets, -,
    limitations, -, -, limitationIds, -, keyBounds, -, nonceBounds, -, -, -, partnerDomain, -,
    qimDelta, -, minimumReplicaVotes, -, minimumBitConfidence, -, minimumRegions, hregions,
    compressionRatio, -, geometryRatio, -, highConfidence, -, maxPixels, -, keyMin, -, keyMax, -,
    nonceMin, -, nonceMax, -, rfl⟩ := h
  exact ⟨hshifts, hregions, rfl⟩

mutual

/-- A normalized value names no member of an object twice. -/
theorem unique_normalizeProfileJson {path : String} (value : ProfileValue) {v : Json}
    (h : normalizeProfileJson path value = .ok v) : v.unique = true := by
  cases value with
  | list items =>
    simp only [normalizeProfileJson, bind_eq_ok, pure_eq_ok] at h
    obtain ⟨vs, hvs, rfl⟩ := h
    exact uniqueItems_normalizeItems items hvs
  | mapping items =>
    simp only [normalizeProfileJson, bind_eq_ok, pure_eq_ok] at h
    obtain ⟨members, hmembers, rfl⟩ := h
    have hempty : (([] : List (String × Json)).map Prod.fst).Nodup := List.nodup_nil
    obtain ⟨hnames, hvalues⟩ := unique_normalizeMembers items hempty rfl hmembers
    rw [Json.unique, hvalues, Bool.and_true]
    exact decide_eq_true hnames
  | nonFinite | other => exact nomatch h
  | null | bool _ | int _ | float _ | text _ =>
    cases h
    rfl

theorem uniqueItems_normalizeItems {path : String} {index : Nat} (items : List ProfileValue)
    {vs : List Json} (h : normalizeItems path index items = .ok vs) :
    Json.uniqueItems vs = true := by
  cases items with
  | nil =>
    cases h
    rfl
  | cons item items =>
    simp only [normalizeItems, bind_eq_ok, pure_eq_ok] at h
    obtain ⟨v, hv, vs, hvs, rfl⟩ := h
    rw [Json.uniqueItems, unique_normalizeProfileJson item hv, uniqueItems_normalizeItems items hvs]
    rfl

theorem unique_normalizeMembers {path : String} {result members : List (String × Json)}
    (items : List (Option String × ProfileValue)) (hnames : (result.map Prod.fst).Nodup)
    (hvalues : Json.uniqueMembers result = true)
    (h : normalizeMembers path result items = .ok members) :
    (members.map Prod.fst).Nodup ∧ Json.uniqueMembers members = true := by
  cases items with
  | nil =>
    cases h
    exact ⟨hnames, hvalues⟩
  | cons item items =>
    obtain ⟨key, item⟩ := item
    cases key with
    | none => exact nomatch h
    | some key =>
      simp only [normalizeMembers, bind_eq_ok] at h
      obtain ⟨v, hv, hrest⟩ := h
      exact unique_normalizeMembers items (Json.nodup_set hnames)
        (Json.uniqueMembers_set (unique_normalizeProfileJson item hv) hvalues) hrest

end

theorem nodup_names {members : List (String × Json)}
    (h : (Json.object members).unique = true) : (members.map Prod.fst).Nodup := by
  rw [Json.unique, Bool.and_eq_true] at h
  exact of_decide_eq_true h.1

theorem member_of_frozen {members frozen : List (String × Json)} {name : String}
    (hunique : (Json.object members).unique = true) (hfrozen : (Json.object frozen).unique = true)
    (hsorted : JsonText.sorted (.object members) = JsonText.sorted (.object frozen)) {w : Json}
    (hthere : (Json.get frozen name).map JsonText.sorted = some w) :
    ∃ v, Json.get members name = some v ∧ JsonText.sorted v = w := by
  rw [← JsonText.map_sorted_get_eq (nodup_names hunique) (nodup_names hfrozen) hsorted] at hthere
  exact Option.map_eq_some_iff.mp hthere

/-- A profile with the text of the frozen one has its section of a name, up to the order of its
members. -/
theorem section_of_frozen {members frozen fields : List (String × Json)} {name : String}
    (hunique : (Json.object members).unique = true) (hfrozen : (Json.object frozen).unique = true)
    (hsorted : JsonText.sorted (.object members) = JsonText.sorted (.object frozen))
    (hget : Json.get members name = some (.object fields)) {fields' : List (String × Json)}
    (hget' : Json.get frozen name = some (.object fields')) :
    (Json.object fields).unique = true ∧ (Json.object fields').unique = true ∧
      JsonText.sorted (.object fields) = JsonText.sorted (.object fields') := by
  have hsame := JsonText.map_sorted_get_eq (nodup_names hunique) (nodup_names hfrozen) hsorted name
  rw [hget, hget'] at hsame
  exact ⟨Json.unique_get hunique hget, Json.unique_get hfrozen hget', Option.some.inj hsame⟩

/-- **What is accepted is the frozen profile**, in its shifts and its least number of regions, when
the pinned digest stands for the frozen text. -/
theorem accepted_profile {sha256 : List UInt8 → List Char} {numbers : PythonNumbers}
    {value : ProfileValue} {profile : IntegrityProfile}
    (hvalid : validateIntegrityProfile sha256 numbers value = .ok profile)
    (hpinned : ∀ tree, normalizeProfileJson "$" value = .ok tree →
      PinsFrozen sha256 numbers tree) :
    profile.replicaShifts = [1, 2, 3] ∧ profile.minimumRegions = 4 ∧ profile.regionSize = 128 ∧
      profile.maxPixels = 40000000 := by
  simp only [validateIntegrityProfile, bind_eq_ok, exists_unit, pure_eq_ok, found_eq_ok,
    raiseIf_eq_ok, not_not] at hvalid
  obtain ⟨tree, htree, members, hmembers, -, hdigest, sections, hsections, parsed, hparsed, hbounds,
    rfl⟩ := hvalid
  obtain rfl : tree = .object members := by
    cases tree with
    | object inner => exact congrArg Json.object (Option.some.inj hmembers)
    | _ => cases hmembers
  obtain ⟨hshifts, hregions, hsize⟩ := of_parseProfile hparsed
  obtain ⟨hpartner, hdecision⟩ := of_profileSections hsections
  -- the digest fixes the canonical text, and the text fixes the tree up to the order of members
  have hunique := unique_normalizeProfileJson value htree
  have htext := Fields.utf8_inj (hpinned _ htree hdigest)
  have hsorted := JsonText.sorted_eq_of_canonical_eq htext
  have hfrozen : frozenIntegrityProfile.unique = true := by decide +kernel
  obtain ⟨hpartnerUnique, hpartnerUnique', hpartnerSorted⟩ :=
    section_of_frozen hunique hfrozen hsorted hpartner
      (by decide +kernel : _ = some (Json.object frozenPartnerMapping))
  obtain ⟨hdecisionUnique, hdecisionUnique', hdecisionSorted⟩ :=
    section_of_frozen hunique hfrozen hsorted hdecision
      (by decide +kernel : _ = some (Json.object frozenDecisionPolicy))
  -- the frozen fields are lists and numbers, which have no members to be put in order
  have hshiftsField : jsonGet sections.partnerMapping "replica_ring_shifts" =
      .array ([1, 2, 3].map .int) := by
    have hthere : (Json.get frozenPartnerMapping "replica_ring_shifts").map JsonText.sorted =
        some (.array ([1, 2, 3].map .int)) := by decide +kernel
    obtain ⟨v, hget, hv⟩ :=
      member_of_frozen hpartnerUnique hpartnerUnique' hpartnerSorted hthere
    rw [jsonGet, hget, Option.getD_some, JsonText.sorted_eq_ints hv]
  have hregionsField : jsonGet sections.decisionPolicy "minimum_complete_regions" = .int 4 := by
    have hthere : (Json.get frozenDecisionPolicy "minimum_complete_regions").map JsonText.sorted =
        some (.int 4) := by decide +kernel
    obtain ⟨v, hget, hv⟩ :=
      member_of_frozen hdecisionUnique hdecisionUnique' hdecisionSorted hthere
    rw [jsonGet, hget, Option.getD_some, JsonText.sorted_eq_int hv]
  rw [hshiftsField] at hshifts
  rw [hregionsField] at hregions
  rw [validateBounds, bind_eq_ok, exists_unit, raiseIf_eq_ok, not_or, not_not] at hbounds
  exact ⟨(Except.ok.inj hshifts).symm, (Except.ok.inj hregions).symm, hsize, hbounds.1.1⟩

end Splitbind
