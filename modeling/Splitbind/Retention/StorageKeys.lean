import Splitbind.Contracts.Schema
import Splitbind.Library.Pattern
import Splitbind.Retention.Services

/-!
# Storage keys — the texts that the object keys are spelled as

The store and the database know a key by its text.  The validators accept the texts of the keys and
no others, a text is the text of one key, and what is checked on texts is what is checked on keys.
-/

namespace Splitbind

open Transaction Pattern

/-! ## 1. Validators -/

def hexShape (width : Nat) : Shape := List.replicate width isLowerHex

/-- `[0-9a-f]{8}-[0-9a-f]{4}-[0-9a-f]{4}-[0-9a-f]{4}-[0-9a-f]{12}`. -/
def uuidShape : Shape :=
  hexShape 8 ++ (spelled "-" ++ (hexShape 4 ++ (spelled "-" ++ (hexShape 4 ++ (spelled "-" ++
    (hexShape 4 ++ (spelled "-" ++ hexShape 12)))))))

/-- `_ORPHAN_KEY`. -/
def orphanKey : List (List Shape) :=
  [[spelled "uploads/orphan/"], [spelled "issuance_input", spelled "verification_input"],
    [spelled "/"], [uuidShape], [spelled "/"], [hexShape 32], [spelled ".bin"]]

/-- `_PROMOTED_KEY`. -/
def promotedKey : List (List Shape) :=
  [[spelled "inputs/"], [spelled "issuance", spelled "verification"], [spelled "/"], [uuidShape],
    [spelled "/"], [uuidShape], [spelled ".bin"]]

/-- `_ISSUANCE_OUTPUT_KEY`. -/
def issuanceOutputKey : List (List Shape) :=
  [[spelled "outputs/issuance/"], [uuidShape], [spelled "/"], [uuidShape], [spelled "."],
    [spelled "pdf", spelled "png"]]

/-- The named groups of a match. -/
structure KeyMatch where
  kind : List Char
  organization : List Char
  object : List Char
deriving DecidableEq, Repr

def readKind : List (List Char) → Option KeyMatch
  | [_, kind, _, organization, _, object, _] => some ⟨kind, organization, object⟩
  | _ => none

/-- The organization and the issuance. -/
def readIssuance : List (List Char) → Option (List Char × List Char)
  | [_, organization, _, issuance, _, _] => some (organization, issuance)
  | _ => none

/-- What a validator reads of a key that its pattern matches. -/
def validateKey {α : Type} (pattern : List (List Shape)) (read : List (List Char) → Option α)
    (complaint key : String) : Except Raised α :=
  found ((fullmatch pattern key.toList).bind read) (.value complaint)

def validateOrphanKey : String → Except Raised KeyMatch :=
  validateKey orphanKey readKind "storage source key must use the controlled orphan-upload shape"

def validatePromotedKey : String → Except Raised KeyMatch :=
  validateKey promotedKey readKind
    "storage destination key must use the controlled promoted-input shape"

def validateIssuanceOutputKey : String → Except Raised (List Char × List Char) :=
  validateKey issuanceOutputKey readIssuance
    "issuance output key must use the controlled output shape"

def forbiddenKeyCharacters : List Char := ['\\', '\x00', '\r', '\n']

def validateControlledKey (key : String) : Except Raised Unit := do
  raiseIf (¬ ((fullmatch orphanKey key.toList).isSome ∨ (fullmatch promotedKey key.toList).isSome ∨
      (fullmatch issuanceOutputKey key.toList).isSome))
    (.value "storage key must use a controlled application shape")
  raiseIf (forbiddenKeyCharacters.any (· ∈ key.toList) = true ∨ ['.', '.'] <:+: key.toList)
    (.value "storage key must use a controlled application shape")

/-- `text.removesuffix(suffix)`. -/
def removeSuffix (suffix text : List Char) : List Char :=
  if suffix <:+ text then text.take (text.length - suffix.length) else text

def validateCopyBoundary (source destination : String) : Except Raised Unit := do
  let sourceMatch ← validateOrphanKey source
  let destinationMatch ← validatePromotedKey destination
  raiseIf (removeSuffix "_input".toList sourceMatch.kind ≠ destinationMatch.kind ∨
      sourceMatch.organization ≠ destinationMatch.organization)
    (.value "storage copy must preserve the same organization and kind")

/-- `_key_is_owned`, of the text of a key. -/
def keyTextIsOwned (upload : UploadRequest) (category : Category) (key : String) : Bool :=
  match category with
  | .orphan =>
    match validateOrphanKey key with
    | .ok found => found.kind = upload.purpose.orphanText.toList &&
        found.organization = upload.organizationId.text.toList &&
        found.object = upload.id.hex.toList
    | .error _ => false
  | .stalePromotion _ | .issuanceInput | .verificationInput =>
    match validatePromotedKey key with
    | .ok found => found.organization = upload.organizationId.text.toList &&
        found.object = upload.id.text.toList && found.kind = upload.purpose.kind.text.toList
    | .error _ => false
  | .issuanceOutput => false

def outputKeyTextIsOwned (issuance : Issuance) (key : String) : Bool :=
  match validateIssuanceOutputKey key with
  | .ok found => found.1 = issuance.organizationId.text.toList && found.2 = issuance.id.text.toList
  | .error _ => false

/-! ## 2. Digits -/

theorem hexDigits_succ (width n : Nat) :
    hexDigits (width + 1) n = hexDigit (n / 16 ^ width % 16) :: hexDigits width n := by
  unfold hexDigits
  rw [List.range_succ_eq_map, List.map_cons, List.map_map]
  congr 1
  refine List.map_congr_left fun i _ ↦ ?_
  show hexDigit (n / 16 ^ (width + 1 - 1 - (i + 1)) % 16) = _
  rw [show width + 1 - 1 - (i + 1) = width - 1 - i by omega]

/-- Higher digits do not show. -/
theorem hexDigits_mod (width n : Nat) : hexDigits width (n % 16 ^ width) = hexDigits width n := by
  unfold hexDigits
  refine List.map_congr_left fun i hi ↦ ?_
  rw [List.mem_range] at hi
  have hpow : 16 ^ width = 16 ^ (width - 1 - i) * (16 * 16 ^ i) := by
    rw [← Nat.pow_succ', ← Nat.pow_add]
    congr 1
    omega
  congr 1
  rw [hpow, Nat.mod_mul_right_div_self, Nat.mod_mul_right_mod]

theorem hexDigit_inj {m n : Nat} (hm : m < 16) (hn : n < 16) (h : hexDigit m = hexDigit n) :
    m = n := by
  have hdigits : ∀ m < 16, ∀ n < 16, hexDigit m = hexDigit n → m = n := by decide
  exact hdigits m hm n hn h

theorem hexDigits_inj {width m n : Nat} (hm : m < 16 ^ width) (hn : n < 16 ^ width)
    (h : hexDigits width m = hexDigits width n) : m = n := by
  induction width generalizing m n with
  | zero => omega
  | succ width ih =>
    rw [hexDigits_succ, hexDigits_succ, List.cons.injEq] at h
    -- the leading digits are one, and so are the others, by induction
    have hpos : 0 < 16 ^ width := Nat.pow_pos (by decide)
    have hleading : ∀ {k}, k < 16 ^ (width + 1) → k / 16 ^ width < 16 := fun hk ↦
      Nat.div_lt_of_lt_mul (by rwa [← Nat.pow_succ])
    have hfirst := hexDigit_inj (Nat.mod_lt _ (by decide)) (Nat.mod_lt _ (by decide)) h.1
    rw [Nat.mod_eq_of_lt (hleading hm), Nat.mod_eq_of_lt (hleading hn)] at hfirst
    have hrest : m % 16 ^ width = n % 16 ^ width := by
      refine ih (Nat.mod_lt _ hpos) (Nat.mod_lt _ hpos) ?_
      rw [hexDigits_mod, hexDigits_mod]
      exact h.2
    rw [← Nat.div_add_mod m (16 ^ width), ← Nat.div_add_mod n (16 ^ width), hfirst, hrest]

theorem exists_hexDigit {c : Char} (h : isLowerHex c = true) : ∃ d < 16, hexDigit d = c := by
  rw [isLowerHex, decide_eq_true_eq] at h
  rcases h with ⟨hlow, hhigh⟩ | ⟨hlow, hhigh⟩
  · have hlow' : 48 ≤ c.toNat := hlow
    have hhigh' : c.toNat ≤ 57 := hhigh
    refine ⟨c.toNat - 48, by omega, ?_⟩
    rw [hexDigit, if_pos (by omega), show 48 + (c.toNat - 48) = c.toNat by omega,
      Char.ofNat_toNat]
  · have hlow' : 97 ≤ c.toNat := hlow
    have hhigh' : c.toNat ≤ 102 := hhigh
    refine ⟨c.toNat - 87, by omega, ?_⟩
    rw [hexDigit, if_neg (by omega), show 87 + (c.toNat - 87) = c.toNat by omega,
      Char.ofNat_toNat]

/-- Every text of digits is the digits of a number. -/
theorem exists_hexDigits {digits : List Char} (h : ∀ c ∈ digits, isLowerHex c = true) :
    ∃ n < 16 ^ digits.length, hexDigits digits.length n = digits := by
  induction digits with
  | nil => exact ⟨0, by decide, rfl⟩
  | cons c digits ih =>
    rw [List.forall_mem_cons] at h
    obtain ⟨d, hd, rfl⟩ := exists_hexDigit h.1
    obtain ⟨n, hn, hdigits⟩ := ih h.2
    have hpos : 0 < 16 ^ digits.length := Nat.pow_pos (by decide)
    have hdiv : (16 ^ digits.length * d + n) / 16 ^ digits.length = d := by
      rw [Nat.mul_add_div hpos, Nat.div_eq_of_lt hn, Nat.add_zero]
    have hmod : (16 ^ digits.length * d + n) % 16 ^ digits.length = n := by
      rw [Nat.mul_add_mod, Nat.mod_eq_of_lt hn]
    -- the first digit weighs more than all the others together
    refine ⟨16 ^ digits.length * d + n, ?_, ?_⟩
    · rw [List.length_cons, Nat.pow_succ]
      calc 16 ^ digits.length * d + n < 16 ^ digits.length * d + 16 ^ digits.length := by omega
        _ = 16 ^ digits.length * (d + 1) := by ring
        _ ≤ 16 ^ digits.length * 16 := Nat.mul_le_mul_left _ hd
    · rw [List.length_cons, hexDigits_succ, hdiv, Nat.mod_eq_of_lt hd, ← hexDigits_mod, hmod,
        hdigits]

theorem accepts_hexShape {width : Nat} {text : List Char} :
    accepts (hexShape width) text = true ↔ ∃ n < 16 ^ width, hexDigits width n = text := by
  rw [hexShape, accepts_replicate]
  constructor
  · rintro ⟨rfl, hdigits⟩
    exact exists_hexDigits hdigits
  · rintro ⟨n, -, rfl⟩
    exact ⟨length_hexDigits width n, fun c hc ↦ isLowerHex_of_mem_hexDigits hc⟩

/-! ## 3. Identifiers -/

theorem exists_uuid {digits : List Char} (h : accepts (hexShape 32) digits = true) :
    ∃ id : UUID, hexDigits 32 id.value.toNat = digits := by
  obtain ⟨n, hn, hdigits⟩ := accepts_hexShape.mp h
  refine ⟨⟨BitVec.ofNat 128 n⟩, ?_⟩
  have hsmall : n < 2 ^ 128 := hn
  rw [BitVec.toNat_ofNat, Nat.mod_eq_of_lt hsmall, hdigits]

theorem uuid_of_hexDigits {id id' : UUID}
    (h : hexDigits 32 id.value.toNat = hexDigits 32 id'.value.toNat) : id = id' := by
  have hvalue := BitVec.eq_of_toNat_eq (hexDigits_inj (show id.value.toNat < 16 ^ 32 from
    id.value.isLt) (show id'.value.toNat < 16 ^ 32 from id'.value.isLt) h)
  cases id
  cases id'
  exact congrArg UUID.mk hvalue

theorem toList_hex (id : UUID) : id.hex.toList = hexDigits 32 id.value.toNat := by
  rw [UUID.hex, String.toList_ofList]

theorem accepts_hex {text : List Char} :
    accepts (hexShape 32) text = true ↔ ∃ id : UUID, id.hex.toList = text := by
  simp only [toList_hex]
  constructor
  · exact exists_uuid
  · rintro ⟨id, rfl⟩
    exact accepts_hexShape.mpr ⟨_, id.value.isLt, rfl⟩

theorem uuid_hex_injective {id id' : UUID} (h : id.hex.toList = id'.hex.toList) : id = id' := by
  rw [toList_hex, toList_hex] at h
  exact uuid_of_hexDigits h

/-- The five groups of the digits. -/
theorem toList_text (id : UUID) {a b c d e : List Char} (ha : a.length = 8) (hb : b.length = 4)
    (hc : c.length = 4) (hd : d.length = 4)
    (h : hexDigits 32 id.value.toNat = a ++ (b ++ (c ++ (d ++ e)))) :
    id.text.toList = a ++ (['-'] ++ (b ++ (['-'] ++ (c ++ (['-'] ++ (d ++ (['-'] ++ e))))))) := by
  rw [UUID.text, String.toList_ofList, h]
  -- the slices of the digits begin where the groups do
  have hb' : (a ++ (b ++ (c ++ (d ++ e)))).drop 8 = b ++ (c ++ (d ++ e)) := List.drop_left' ha
  have hc' : (a ++ (b ++ (c ++ (d ++ e)))).drop 12 = c ++ (d ++ e) := by
    rw [← List.append_assoc]
    exact List.drop_left' (by rw [List.length_append, ha, hb])
  have hd' : (a ++ (b ++ (c ++ (d ++ e)))).drop 16 = d ++ e := by
    rw [← List.append_assoc, ← List.append_assoc]
    exact List.drop_left' (by rw [List.length_append, List.length_append, ha, hb, hc])
  have he' : (a ++ (b ++ (c ++ (d ++ e)))).drop 20 = e := by
    rw [← List.append_assoc, ← List.append_assoc, ← List.append_assoc]
    exact List.drop_left' (by
      rw [List.length_append, List.length_append, List.length_append, ha, hb, hc, hd])
  rw [hb', hc', hd', he', List.take_left' ha, List.take_left' hb, List.take_left' hc,
    List.take_left' hd]
  simp only [List.append_assoc, List.cons_append, List.nil_append]

theorem accepts_hexShape_append (left right : Nat) {text : List Char} :
    accepts (hexShape (left + right)) text = true ↔ ∃ a b, text = a ++ b ∧
      accepts (hexShape left) a = true ∧ accepts (hexShape right) b = true := by
  rw [hexShape, List.replicate_add, accepts_append]
  rfl

theorem length_of_hexShape {width : Nat} {text : List Char}
    (h : accepts (hexShape width) text = true) : text.length = width :=
  (accepts_replicate.mp h).1

theorem accepts_uuid {text : List Char} :
    accepts uuidShape text = true ↔ ∃ id : UUID, id.text.toList = text := by
  have hdash : "-".toList = ['-'] := rfl
  constructor
  · intro h
    simp only [uuidShape, accepts_append, accepts_spelled, hdash] at h
    obtain ⟨a, _, rfl, ha, _, _, rfl, rfl, b, _, rfl, hb, _, _, rfl, rfl, c, _, rfl, hc, _, _, rfl,
      rfl, d, _, rfl, hd, _, e, rfl, rfl, he⟩ := h
    have hdigits : accepts (hexShape 32) (a ++ (b ++ (c ++ (d ++ e)))) = true :=
      (accepts_hexShape_append 8 24).mpr ⟨a, _, rfl, ha,
        (accepts_hexShape_append 4 20).mpr ⟨b, _, rfl, hb,
          (accepts_hexShape_append 4 16).mpr ⟨c, _, rfl, hc,
            (accepts_hexShape_append 4 12).mpr ⟨d, e, rfl, hd, he⟩⟩⟩⟩
    obtain ⟨id, hid⟩ := exists_uuid hdigits
    exact ⟨id, toList_text id (length_of_hexShape ha) (length_of_hexShape hb)
      (length_of_hexShape hc) (length_of_hexShape hd) hid⟩
  · rintro ⟨id, rfl⟩
    have hdigits : accepts (hexShape (8 + (4 + (4 + (4 + 12))))) (hexDigits 32 id.value.toNat) =
        true := accepts_hexShape.mpr ⟨_, id.value.isLt, rfl⟩
    simp only [accepts_hexShape_append] at hdigits
    obtain ⟨a, _, heq, ha, b, _, rfl, hb, c, _, rfl, hc, d, e, rfl, hd, he⟩ := hdigits
    rw [toList_text id (length_of_hexShape ha) (length_of_hexShape hb) (length_of_hexShape hc)
      (length_of_hexShape hd) heq]
    simp only [uuidShape, accepts_append, accepts_spelled, hdash]
    exact ⟨a, _, rfl, ha, _, _, rfl, rfl, b, _, rfl, hb, _, _, rfl, rfl, c, _, rfl, hc, _, _, rfl,
      rfl, d, _, rfl, hd, _, e, rfl, rfl, he⟩

/-- The digits are the text without its dashes. -/
theorem filter_text (id : UUID) :
    id.text.toList.filter (fun c ↦ c != '-') = hexDigits 32 id.value.toNat := by
  have hdigits : accepts (hexShape (8 + (4 + (4 + (4 + 12))))) (hexDigits 32 id.value.toNat) =
      true := accepts_hexShape.mpr ⟨_, id.value.isLt, rfl⟩
  simp only [accepts_hexShape_append] at hdigits
  obtain ⟨a, _, heq, ha, b, _, rfl, hb, c, _, rfl, hc, d, e, rfl, hd, he⟩ := hdigits
  have hkeep : ∀ {width : Nat} {part : List Char}, accepts (hexShape width) part = true →
      part.filter (fun c ↦ c != '-') = part := by
    intro width part hpart
    refine List.filter_eq_self.mpr fun c hc ↦ ?_
    have hhex := (accepts_replicate.mp hpart).2 c hc
    rw [bne_iff_ne]
    rintro rfl
    exact absurd hhex (by decide)
  have hdash : ['-'].filter (fun c ↦ c != '-') = [] := rfl
  rw [toList_text id (length_of_hexShape ha) (length_of_hexShape hb) (length_of_hexShape hc)
    (length_of_hexShape hd) heq, heq]
  simp only [List.filter_append, hkeep ha, hkeep hb, hkeep hc, hkeep hd, hkeep he, hdash,
    List.nil_append]

theorem uuid_text_injective {id id' : UUID} (h : id.text.toList = id'.text.toList) : id = id' := by
  refine uuid_of_hexDigits ?_
  rw [← filter_text, ← filter_text, h]

/-! ## 4. Keys -/

theorem orphanKey_apart : ∀ shapes ∈ orphanKey, Apart shapes := by
  simp only [orphanKey, List.forall_mem_cons]
  exact ⟨apart_singleton _, apart_spelled (by decide) (by decide), apart_singleton _,
    apart_singleton _, apart_singleton _, apart_singleton _, apart_singleton _,
    fun _ h ↦ absurd h List.not_mem_nil⟩

theorem promotedKey_apart : ∀ shapes ∈ promotedKey, Apart shapes := by
  simp only [promotedKey, List.forall_mem_cons]
  exact ⟨apart_singleton _, apart_spelled (by decide) (by decide), apart_singleton _,
    apart_singleton _, apart_singleton _, apart_singleton _, apart_singleton _,
    fun _ h ↦ absurd h List.not_mem_nil⟩

theorem issuanceOutputKey_apart : ∀ shapes ∈ issuanceOutputKey, Apart shapes := by
  simp only [issuanceOutputKey, List.forall_mem_cons]
  exact ⟨apart_singleton _, apart_singleton _, apart_singleton _, apart_singleton _,
    apart_singleton _, apart_spelled (by decide) (by decide),
    fun _ h ↦ absurd h List.not_mem_nil⟩

/-- The groups of a key. -/
def ObjectKey.groups : ObjectKey → List (List Char)
  | .orphan purpose organization object =>
    ["uploads/orphan/".toList, purpose.orphanText.toList, "/".toList, organization.text.toList,
      "/".toList, object.hex.toList, ".bin".toList]
  | .promotedInput kind organization upload =>
    ["inputs/".toList, kind.text.toList, "/".toList, organization.text.toList, "/".toList,
      upload.text.toList, ".bin".toList]
  | .issuanceOutput organization issuance extension =>
    ["outputs/issuance/".toList, organization.text.toList, "/".toList, issuance.text.toList,
      ".".toList, extension.text.toList]

theorem flatten_groups (key : ObjectKey) : key.groups.flatten = key.text.toList := by
  unfold ObjectKey.groups ObjectKey.text
  cases key with
  | orphan purpose organization object =>
    dsimp only
    rw [String.toList_append, String.toList_append, String.toList_append, String.toList_append,
      String.toList_append, String.toList_append, List.append_assoc, List.append_assoc,
      List.append_assoc, List.append_assoc, List.append_assoc]
    rw [List.flatten_cons, List.flatten_cons, List.flatten_cons, List.flatten_cons,
      List.flatten_cons, List.flatten_cons, List.flatten_cons, List.flatten_nil, List.append_nil]
  | promotedInput kind organization upload =>
    dsimp only
    rw [String.toList_append, String.toList_append, String.toList_append, String.toList_append,
      String.toList_append, String.toList_append, List.append_assoc, List.append_assoc,
      List.append_assoc, List.append_assoc, List.append_assoc]
    rw [List.flatten_cons, List.flatten_cons, List.flatten_cons, List.flatten_cons,
      List.flatten_cons, List.flatten_cons, List.flatten_cons, List.flatten_nil, List.append_nil]
  | issuanceOutput organization issuance extension =>
    dsimp only
    rw [String.toList_append, String.toList_append, String.toList_append, String.toList_append,
      String.toList_append, List.append_assoc, List.append_assoc, List.append_assoc,
      List.append_assoc]
    rw [List.flatten_cons, List.flatten_cons, List.flatten_cons, List.flatten_cons,
      List.flatten_cons, List.flatten_cons, List.flatten_nil, List.append_nil]

theorem divides_uuid {pattern : List (List Shape)} {groups : List (List Char)} :
    Divides ([uuidShape] :: pattern) groups ↔
      ∃ (id : UUID) (rest : List (List Char)), groups = id.text.toList :: rest ∧
        Divides pattern rest := by
  refine divides_values (fun id : UUID ↦ id.text.toList) fun group ↦ ?_
  rw [← accepts_uuid]
  simp only [List.mem_singleton, exists_eq_left]

theorem divides_hex {pattern : List (List Shape)} {groups : List (List Char)} :
    Divides ([hexShape 32] :: pattern) groups ↔
      ∃ (id : UUID) (rest : List (List Char)), groups = id.hex.toList :: rest ∧
        Divides pattern rest := by
  refine divides_values (fun id : UUID ↦ id.hex.toList) fun group ↦ ?_
  rw [← accepts_hex]
  simp only [List.mem_singleton, exists_eq_left]

theorem divides_orphanKey (groups : List (List Char)) :
    Divides orphanKey groups ↔ ∃ data : UploadPurpose × UUID × UUID,
      groups = (ObjectKey.orphan data.1 data.2.1 data.2.2).groups := by
  have hpurpose : ∀ purpose : UploadPurpose, purpose = .issuance ∨ purpose = .verification := by
    intro purpose
    cases purpose
    · exact .inl rfl
    · exact .inr rfl
  constructor
  · intro h
    obtain ⟨_, hgroups, h⟩ := divides_spelled.mp h
    obtain ⟨purpose, _, hkind, h⟩ := (divides_either UploadPurpose.orphanText hpurpose).mp h
    obtain ⟨_, hslash, h⟩ := divides_spelled.mp h
    obtain ⟨organization, _, horganization, h⟩ := divides_uuid.mp h
    obtain ⟨_, hslash', h⟩ := divides_spelled.mp h
    obtain ⟨object, _, hobject, h⟩ := divides_hex.mp h
    obtain ⟨_, hbin, h⟩ := divides_spelled.mp h
    have hend := divides_nil.mp h
    refine ⟨(purpose, organization, object), ?_⟩
    rw [hgroups, hkind, hslash, horganization, hslash', hobject, hbin, hend]
    rfl
  · rintro ⟨⟨purpose, organization, object⟩, rfl⟩
    exact divides_spelled.mpr ⟨_, rfl, (divides_either UploadPurpose.orphanText hpurpose).mpr
      ⟨purpose, _, rfl, divides_spelled.mpr ⟨_, rfl, divides_uuid.mpr ⟨organization, _, rfl,
        divides_spelled.mpr ⟨_, rfl, divides_hex.mpr ⟨object, _, rfl,
          divides_spelled.mpr ⟨_, rfl, divides_nil.mpr rfl⟩⟩⟩⟩⟩⟩⟩

theorem divides_promotedKey (groups : List (List Char)) :
    Divides promotedKey groups ↔ ∃ data : JobKind × UUID × UUID,
      groups = (ObjectKey.promotedInput data.1 data.2.1 data.2.2).groups := by
  have hkinds : ∀ kind : JobKind, kind = .issuance ∨ kind = .verification := by
    intro kind
    cases kind
    · exact .inl rfl
    · exact .inr rfl
  constructor
  · intro h
    obtain ⟨_, hgroups, h⟩ := divides_spelled.mp h
    obtain ⟨kind, _, hkind, h⟩ := (divides_either JobKind.text hkinds).mp h
    obtain ⟨_, hslash, h⟩ := divides_spelled.mp h
    obtain ⟨organization, _, horganization, h⟩ := divides_uuid.mp h
    obtain ⟨_, hslash', h⟩ := divides_spelled.mp h
    obtain ⟨upload, _, hupload, h⟩ := divides_uuid.mp h
    obtain ⟨_, hbin, h⟩ := divides_spelled.mp h
    have hend := divides_nil.mp h
    refine ⟨(kind, organization, upload), ?_⟩
    rw [hgroups, hkind, hslash, horganization, hslash', hupload, hbin, hend]
    rfl
  · rintro ⟨⟨kind, organization, upload⟩, rfl⟩
    exact divides_spelled.mpr ⟨_, rfl, (divides_either JobKind.text hkinds).mpr ⟨kind, _, rfl,
      divides_spelled.mpr ⟨_, rfl, divides_uuid.mpr ⟨organization, _, rfl,
        divides_spelled.mpr ⟨_, rfl, divides_uuid.mpr ⟨upload, _, rfl,
          divides_spelled.mpr ⟨_, rfl, divides_nil.mpr rfl⟩⟩⟩⟩⟩⟩⟩

theorem divides_issuanceOutputKey (groups : List (List Char)) :
    Divides issuanceOutputKey groups ↔ ∃ data : UUID × UUID × OutputExtension,
      groups = (ObjectKey.issuanceOutput data.1 data.2.1 data.2.2).groups := by
  have hextensions : ∀ extension : OutputExtension, extension = .pdf ∨ extension = .png := by
    intro extension
    cases extension
    · exact .inl rfl
    · exact .inr rfl
  constructor
  · intro h
    obtain ⟨_, hgroups, h⟩ := divides_spelled.mp h
    obtain ⟨organization, _, horganization, h⟩ := divides_uuid.mp h
    obtain ⟨_, hslash, h⟩ := divides_spelled.mp h
    obtain ⟨issuance, _, hissuance, h⟩ := divides_uuid.mp h
    obtain ⟨_, hdot, h⟩ := divides_spelled.mp h
    obtain ⟨extension, _, hextension, h⟩ :=
      (divides_either OutputExtension.text hextensions).mp h
    have hend := divides_nil.mp h
    refine ⟨(organization, issuance, extension), ?_⟩
    rw [hgroups, horganization, hslash, hissuance, hdot, hextension, hend]
    rfl
  · rintro ⟨⟨organization, issuance, extension⟩, rfl⟩
    exact divides_spelled.mpr ⟨_, rfl, divides_uuid.mpr ⟨organization, _, rfl,
      divides_spelled.mpr ⟨_, rfl, divides_uuid.mpr ⟨issuance, _, rfl,
        divides_spelled.mpr ⟨_, rfl, (divides_either OutputExtension.text hextensions).mpr
          ⟨extension, _, rfl, divides_nil.mpr rfl⟩⟩⟩⟩⟩⟩

section Match

variable {α β : Type} {key : α → ObjectKey} {pattern : List (List Shape)}

/-- A pattern matches the texts of its keys, by their groups. -/
theorem fullmatch_key (hapart : ∀ shapes ∈ pattern, Apart shapes)
    (hdivides : ∀ groups, Divides pattern groups ↔ ∃ data, groups = (key data).groups)
    {text : String} {groups : List (List Char)} :
    fullmatch pattern text.toList = some groups ↔
      ∃ data, (key data).text = text ∧ groups = (key data).groups := by
  rw [fullmatch_eq_some hapart, hdivides]
  constructor
  · rintro ⟨⟨data, rfl⟩, hflatten⟩
    rw [flatten_groups, String.toList_inj] at hflatten
    exact ⟨data, hflatten, rfl⟩
  · rintro ⟨data, rfl, rfl⟩
    exact ⟨⟨data, rfl⟩, flatten_groups _⟩

theorem isSome_fullmatch_key (hapart : ∀ shapes ∈ pattern, Apart shapes)
    (hdivides : ∀ groups, Divides pattern groups ↔ ∃ data, groups = (key data).groups)
    {text : String} :
    (fullmatch pattern text.toList).isSome ↔ ∃ data, (key data).text = text := by
  rw [Option.isSome_iff_exists]
  constructor
  · rintro ⟨groups, hmatch⟩
    obtain ⟨data, htext, -⟩ := (fullmatch_key hapart hdivides).mp hmatch
    exact ⟨data, htext⟩
  · rintro ⟨data, htext⟩
    exact ⟨_, (fullmatch_key hapart hdivides).mpr ⟨data, htext, rfl⟩⟩

theorem groups_eq_of_text (hapart : ∀ shapes ∈ pattern, Apart shapes)
    (hdivides : ∀ groups, Divides pattern groups ↔ ∃ data, groups = (key data).groups)
    (data data' : α) (h : (key data).text = (key data').text) :
    (key data).groups = (key data').groups := by
  have hfirst := (fullmatch_key hapart hdivides).mpr ⟨data, rfl, rfl⟩
  have hsecond := (fullmatch_key hapart hdivides).mpr ⟨data', h.symm, rfl⟩
  exact Option.some.inj (hfirst.symm.trans hsecond)

/-- A validator accepts the texts of its keys, and reads the data of the key. -/
theorem validateKey_eq_ok (read : List (List Char) → Option β) (view : α → β) {complaint : String}
    (hapart : ∀ shapes ∈ pattern, Apart shapes)
    (hdivides : ∀ groups, Divides pattern groups ↔ ∃ data, groups = (key data).groups)
    (hread : ∀ data, read (key data).groups = some (view data)) {text : String} {seen : β} :
    validateKey pattern read complaint text = .ok seen ↔
      ∃ data, (key data).text = text ∧ seen = view data := by
  rw [validateKey, found_eq_ok, Option.bind_eq_some_iff]
  constructor
  · rintro ⟨groups, hmatch, hseen⟩
    obtain ⟨data, htext, rfl⟩ := (fullmatch_key hapart hdivides).mp hmatch
    rw [hread, Option.some.injEq] at hseen
    exact ⟨data, htext, hseen.symm⟩
  · rintro ⟨data, htext, rfl⟩
    exact ⟨_, (fullmatch_key hapart hdivides).mpr ⟨data, htext, rfl⟩, hread data⟩

end Match

theorem validateOrphanKey_eq_ok {text : String} {seen : KeyMatch} :
    validateOrphanKey text = .ok seen ↔ ∃ data : UploadPurpose × UUID × UUID,
      (ObjectKey.orphan data.1 data.2.1 data.2.2).text = text ∧
        seen = ⟨data.1.orphanText.toList, data.2.1.text.toList, data.2.2.hex.toList⟩ := by
  unfold validateOrphanKey
  exact validateKey_eq_ok readKind (fun data : UploadPurpose × UUID × UUID ↦
    ⟨data.1.orphanText.toList, data.2.1.text.toList, data.2.2.hex.toList⟩) orphanKey_apart
    divides_orphanKey fun _ ↦ rfl

theorem validatePromotedKey_eq_ok {text : String} {seen : KeyMatch} :
    validatePromotedKey text = .ok seen ↔ ∃ data : JobKind × UUID × UUID,
      (ObjectKey.promotedInput data.1 data.2.1 data.2.2).text = text ∧
        seen = ⟨data.1.text.toList, data.2.1.text.toList, data.2.2.text.toList⟩ := by
  unfold validatePromotedKey
  exact validateKey_eq_ok readKind (fun data : JobKind × UUID × UUID ↦
    ⟨data.1.text.toList, data.2.1.text.toList, data.2.2.text.toList⟩) promotedKey_apart
    divides_promotedKey fun _ ↦ rfl

theorem validateIssuanceOutputKey_eq_ok {text : String} {seen : List Char × List Char} :
    validateIssuanceOutputKey text = .ok seen ↔ ∃ data : UUID × UUID × OutputExtension,
      (ObjectKey.issuanceOutput data.1 data.2.1 data.2.2).text = text ∧
        seen = (data.1.text.toList, data.2.1.text.toList) := by
  unfold validateIssuanceOutputKey
  exact validateKey_eq_ok readIssuance (fun data : UUID × UUID × OutputExtension ↦
    (data.1.text.toList, data.2.1.text.toList)) issuanceOutputKey_apart
    divides_issuanceOutputKey fun _ ↦ rfl

/-- The first character tells the kinds of keys apart. -/
def ObjectKey.initial : ObjectKey → Char
  | .orphan _ _ _ => 'u'
  | .promotedInput _ _ _ => 'i'
  | .issuanceOutput _ _ _ => 'o'

theorem head_text (key : ObjectKey) : key.text.toList.head? = some key.initial := by
  rw [← flatten_groups]
  cases key <;> rfl

theorem orphanText_injective {purpose purpose' : UploadPurpose}
    (h : purpose.orphanText.toList = purpose'.orphanText.toList) : purpose = purpose' := by
  cases purpose <;> cases purpose' <;> first | rfl | exact absurd h (by decide)

theorem kindText_injective {kind kind' : JobKind} (h : kind.text.toList = kind'.text.toList) :
    kind = kind' := by
  cases kind <;> cases kind' <;> first | rfl | exact absurd h (by decide)

theorem extensionText_injective {extension extension' : OutputExtension}
    (h : extension.text.toList = extension'.text.toList) : extension = extension' := by
  cases extension <;> cases extension' <;> first | rfl | exact absurd h (by decide)

theorem objectKey_text_injective : Function.Injective ObjectKey.text := by
  intro key key' h
  -- keys of two kinds begin with two characters; those of one kind have the groups of one match
  have hinitial : key.initial = key'.initial := by
    have hhead := head_text key
    rw [h, head_text key'] at hhead
    exact (Option.some.inj hhead).symm
  cases key with
  | orphan purpose organization object =>
    cases key' with
    | orphan purpose' organization' object' =>
      have hgroups : (ObjectKey.orphan purpose organization object).groups =
          (ObjectKey.orphan purpose' organization' object').groups :=
        groups_eq_of_text orphanKey_apart divides_orphanKey (purpose, organization, object)
          (purpose', organization', object') h
      have hread := Option.some.inj (congrArg readKind hgroups)
      obtain ⟨hkind, horganization, hobject⟩ := KeyMatch.mk.inj hread
      rw [orphanText_injective hkind, uuid_text_injective horganization, uuid_hex_injective hobject]
    | promotedInput _ _ _ => cases hinitial
    | issuanceOutput _ _ _ => cases hinitial
  | promotedInput kind organization upload =>
    cases key' with
    | orphan _ _ _ => cases hinitial
    | promotedInput kind' organization' upload' =>
      have hgroups : (ObjectKey.promotedInput kind organization upload).groups =
          (ObjectKey.promotedInput kind' organization' upload').groups :=
        groups_eq_of_text promotedKey_apart divides_promotedKey (kind, organization, upload)
          (kind', organization', upload') h
      have hread := Option.some.inj (congrArg readKind hgroups)
      obtain ⟨hkind, horganization, hupload⟩ := KeyMatch.mk.inj hread
      rw [kindText_injective hkind, uuid_text_injective horganization, uuid_text_injective hupload]
    | issuanceOutput _ _ _ => cases hinitial
  | issuanceOutput organization issuance extension =>
    cases key' with
    | orphan _ _ _ => cases hinitial
    | promotedInput _ _ _ => cases hinitial
    | issuanceOutput organization' issuance' extension' =>
      have hgroups : (ObjectKey.issuanceOutput organization issuance extension).groups =
          (ObjectKey.issuanceOutput organization' issuance' extension').groups :=
        groups_eq_of_text issuanceOutputKey_apart divides_issuanceOutputKey
          (organization, issuance, extension) (organization', issuance', extension') h
      have hread := Option.some.inj (congrArg readIssuance hgroups)
      obtain ⟨horganization, hissuance⟩ := Prod.mk.inj hread
      have hextension : some extension.text.toList = some extension'.text.toList :=
        congrArg (fun groups ↦ groups[5]?) hgroups
      rw [uuid_text_injective horganization, uuid_text_injective hissuance,
        extensionText_injective (Option.some.inj hextension)]

/-! ## 5. The second check -/

theorem not_mem_text {c : Char} (hhex : isLowerHex c = false) (hdash : c ≠ '-') (id : UUID) :
    c ∉ id.text.toList ∧ c ∉ id.hex.toList := by
  have hdigit : ∀ d < 16, c ≠ hexDigit d := by
    rintro d hd rfl
    rw [isLowerHex_hexDigit hd] at hhex
    cases hhex
  constructor
  · intro hmem
    rcases mem_text_uuid hmem with ⟨d, hd, hc⟩ | hc
    · exact hdigit d hd hc
    · exact hdash hc
  · intro hmem
    rw [toList_hex] at hmem
    obtain ⟨d, hd, hc⟩ := mem_hexDigits hmem
    exact hdigit d hd hc

/-- No key has a character that the second check forbids. -/
theorem not_mem_key_text (key : ObjectKey) : ∀ c ∈ forbiddenKeyCharacters, c ∉ key.text.toList := by
  intro c hc
  simp only [forbiddenKeyCharacters, List.mem_cons, List.not_mem_nil, or_false] at hc
  have hid : ∀ id : UUID, c ∉ id.text.toList ∧ c ∉ id.hex.toList := by
    have hplain : isLowerHex c = false ∧ c ≠ '-' := by
      rcases hc with rfl | rfl | rfl | rfl <;> decide
    exact not_mem_text hplain.1 hplain.2
  -- a group is a word that the pattern spells, or an identifier
  have hgroups : ∀ group ∈ key.groups, c ∉ group := by
    cases key with
    | orphan purpose organization object =>
      simp only [ObjectKey.groups, List.forall_mem_cons]
      refine ⟨?_, ?_, ?_, (hid organization).1, ?_, (hid object).2, ?_,
        fun _ h ↦ absurd h List.not_mem_nil⟩
      all_goals rcases hc with rfl | rfl | rfl | rfl <;> cases purpose <;> decide
    | promotedInput kind organization upload =>
      simp only [ObjectKey.groups, List.forall_mem_cons]
      refine ⟨?_, ?_, ?_, (hid organization).1, ?_, (hid upload).1, ?_,
        fun _ h ↦ absurd h List.not_mem_nil⟩
      all_goals rcases hc with rfl | rfl | rfl | rfl <;> cases kind <;> decide
    | issuanceOutput organization issuance extension =>
      simp only [ObjectKey.groups, List.forall_mem_cons]
      refine ⟨?_, (hid organization).1, ?_, (hid issuance).1, ?_, ?_,
        fun _ h ↦ absurd h List.not_mem_nil⟩
      all_goals rcases hc with rfl | rfl | rfl | rfl <;> cases extension <;> decide
  rw [← flatten_groups, List.mem_flatten]
  rintro ⟨group, hgroup, hmem⟩
  exact hgroups group hgroup hmem

/-- A key has one dot. -/
theorem count_dot_text (key : ObjectKey) : key.text.toList.count '.' = 1 := by
  have hid : ∀ id : UUID, id.text.toList.count '.' = 0 ∧ id.hex.toList.count '.' = 0 := by
    intro id
    obtain ⟨htext, hhex⟩ := not_mem_text (show isLowerHex '.' = false by decide)
      (show '.' ≠ '-' by decide) id
    exact ⟨List.count_eq_zero.mpr htext, List.count_eq_zero.mpr hhex⟩
  rw [← flatten_groups, List.count_flatten]
  cases key with
  | orphan purpose organization object =>
    simp only [ObjectKey.groups, List.map_cons, List.map_nil, hid organization, hid object]
    cases purpose <;> decide
  | promotedInput kind organization upload =>
    simp only [ObjectKey.groups, List.map_cons, List.map_nil, hid organization, hid upload]
    cases kind <;> decide
  | issuanceOutput organization issuance extension =>
    simp only [ObjectKey.groups, List.map_cons, List.map_nil, hid organization, hid issuance]
    cases extension <;> decide

theorem raiseIf_second_check (key : ObjectKey) :
    ¬ (forbiddenKeyCharacters.any (· ∈ key.text.toList) = true ∨
      ['.', '.'] <:+: key.text.toList) := by
  rintro (hany | hdots)
  · obtain ⟨c, hc, hmem⟩ := List.any_eq_true.mp hany
    exact not_mem_key_text key c hc (of_decide_eq_true hmem)
  · -- two dots in a row are two dots
    have hcount := hdots.sublist.count_le '.'
    rw [count_dot_text] at hcount
    exact absurd hcount (by decide)

/-- The texts of the keys are accepted, and no others; the second check never refuses. -/
theorem validateControlledKey_iff (text : String) :
    validateControlledKey text = .ok () ↔ ∃ key : ObjectKey, key.text = text := by
  simp only [validateControlledKey, bind_eq_ok, exists_unit, raiseIf_eq_ok]
  rw [not_not, isSome_fullmatch_key orphanKey_apart divides_orphanKey,
    isSome_fullmatch_key promotedKey_apart divides_promotedKey,
    isSome_fullmatch_key issuanceOutputKey_apart divides_issuanceOutputKey]
  constructor
  · rintro ⟨⟨data, htext⟩ | ⟨data, htext⟩ | ⟨data, htext⟩, -⟩
    · exact ⟨_, htext⟩
    · exact ⟨_, htext⟩
    · exact ⟨_, htext⟩
  · rintro ⟨key, rfl⟩
    refine ⟨?_, raiseIf_second_check key⟩
    cases key with
    | orphan purpose organization object => exact .inl ⟨(purpose, organization, object), rfl⟩
    | promotedInput kind organization upload =>
      exact .inr (.inl ⟨(kind, organization, upload), rfl⟩)
    | issuanceOutput organization issuance extension =>
      exact .inr (.inr ⟨(organization, issuance, extension), rfl⟩)

/-- A copy goes from an upload to the input of the same kind and the same organization. -/
theorem validateCopyBoundary_iff (source destination : String) :
    validateCopyBoundary source destination = .ok () ↔
      ∃ (purpose : UploadPurpose) (organization object upload : UUID),
        (ObjectKey.orphan purpose organization object).text = source ∧
        (ObjectKey.promotedInput purpose.kind organization upload).text = destination := by
  have hkind : ∀ purpose : UploadPurpose,
      removeSuffix "_input".toList purpose.orphanText.toList = purpose.kind.text.toList := by
    intro purpose
    cases purpose <;> decide
  simp only [validateCopyBoundary, bind_eq_ok, raiseIf_eq_ok, validateOrphanKey_eq_ok,
    validatePromotedKey_eq_ok, not_or, not_not, ne_eq]
  constructor
  · rintro ⟨_, ⟨⟨purpose, organization, object⟩, hsource, rfl⟩, _,
      ⟨⟨kind, organization', upload⟩, hdestination, rfl⟩, hsame, horganization⟩
    -- without `_input`, the purpose of the source is the kind of the destination
    rw [hkind] at hsame
    obtain rfl := kindText_injective hsame
    obtain rfl := uuid_text_injective horganization
    exact ⟨purpose, organization, object, upload, hsource, hdestination⟩
  · rintro ⟨purpose, organization, object, upload, hsource, hdestination⟩
    exact ⟨_, ⟨(purpose, organization, object), hsource, rfl⟩, _,
      ⟨(purpose.kind, organization, upload), hdestination, rfl⟩, hkind purpose, rfl⟩

/-! ## 6. Ownership -/

theorem validateOrphanKey_text (purpose : UploadPurpose) (organization object : UUID) :
    validateOrphanKey (ObjectKey.orphan purpose organization object).text =
      .ok ⟨purpose.orphanText.toList, organization.text.toList, object.hex.toList⟩ :=
  validateOrphanKey_eq_ok.mpr ⟨(purpose, organization, object), rfl, rfl⟩

theorem validatePromotedKey_text (kind : JobKind) (organization upload : UUID) :
    validatePromotedKey (ObjectKey.promotedInput kind organization upload).text =
      .ok ⟨kind.text.toList, organization.text.toList, upload.text.toList⟩ :=
  validatePromotedKey_eq_ok.mpr ⟨(kind, organization, upload), rfl, rfl⟩

theorem validateIssuanceOutputKey_text (organization issuance : UUID)
    (extension : OutputExtension) :
    validateIssuanceOutputKey (ObjectKey.issuanceOutput organization issuance extension).text =
      .ok (organization.text.toList, issuance.text.toList) :=
  validateIssuanceOutputKey_eq_ok.mpr ⟨(organization, issuance, extension), rfl, rfl⟩

theorem orphanText_inj {purpose purpose' : UploadPurpose} :
    purpose.orphanText.toList = purpose'.orphanText.toList ↔ purpose = purpose' :=
  ⟨orphanText_injective, fun h ↦ h ▸ rfl⟩

theorem kindText_inj {kind kind' : JobKind} :
    kind.text.toList = kind'.text.toList ↔ kind = kind' :=
  ⟨kindText_injective, fun h ↦ h ▸ rfl⟩

theorem uuid_text_inj {id id' : UUID} : id.text.toList = id'.text.toList ↔ id = id' :=
  ⟨uuid_text_injective, fun h ↦ h ▸ rfl⟩

theorem uuid_hex_inj {id id' : UUID} : id.hex.toList = id'.hex.toList ↔ id = id' :=
  ⟨uuid_hex_injective, fun h ↦ h ▸ rfl⟩

/-- An upload owns the text of its object key when it owns the key. -/
theorem keyTextIsOwned_orphan (upload : UploadRequest) (key : ObjectKey) :
    keyTextIsOwned upload .orphan key.text = keyIsOwned upload .orphan key := by
  unfold keyTextIsOwned
  cases hvalid : validateOrphanKey key.text with
  | ok seen =>
    -- the text is that of an upload's key, so the key is one
    obtain ⟨⟨purpose, organization, object⟩, htext, rfl⟩ := validateOrphanKey_eq_ok.mp hvalid
    obtain rfl := objectKey_text_injective htext
    simp only [keyIsOwned, orphanText_inj, uuid_text_inj, uuid_hex_inj]
  | error raised =>
    cases key with
    | orphan purpose organization object =>
      rw [validateOrphanKey_text] at hvalid
      cases hvalid
    | promotedInput _ _ _ => rfl
    | issuanceOutput _ _ _ => rfl

/-- The categories that delete a promoted input read its text as they read the key. -/
theorem keyTextIsOwned_promoted (upload : UploadRequest) {category : Category} (key : ObjectKey)
    (h : category ≠ .orphan ∧ category ≠ .issuanceOutput) :
    keyTextIsOwned upload category key.text = keyIsOwned upload category key := by
  unfold keyTextIsOwned
  cases hvalid : validatePromotedKey key.text with
  | ok seen =>
    obtain ⟨⟨kind, organization, owner⟩, htext, rfl⟩ := validatePromotedKey_eq_ok.mp hvalid
    obtain rfl := objectKey_text_injective htext
    cases category with
    | orphan => exact absurd rfl h.1
    | issuanceOutput => exact absurd rfl h.2
    | stalePromotion _ => simp only [keyIsOwned, kindText_inj, uuid_text_inj]
    | issuanceInput => simp only [keyIsOwned, kindText_inj, uuid_text_inj]
    | verificationInput => simp only [keyIsOwned, kindText_inj, uuid_text_inj]
  | error raised =>
    cases key with
    | promotedInput kind organization owner =>
      rw [validatePromotedKey_text] at hvalid
      cases hvalid
    | orphan _ _ _ =>
      cases category <;> first | exact absurd rfl h.1 | exact absurd rfl h.2 | rfl
    | issuanceOutput _ _ _ =>
      cases category <;> first | exact absurd rfl h.1 | exact absurd rfl h.2 | rfl

theorem keyTextIsOwned_text (upload : UploadRequest) (category : Category) (key : ObjectKey) :
    keyTextIsOwned upload category key.text = keyIsOwned upload category key := by
  cases category with
  | orphan => exact keyTextIsOwned_orphan upload key
  | issuanceOutput => cases key <;> rfl
  | stalePromotion _ => exact keyTextIsOwned_promoted upload key (by simp)
  | issuanceInput => exact keyTextIsOwned_promoted upload key (by simp)
  | verificationInput => exact keyTextIsOwned_promoted upload key (by simp)

theorem outputKeyTextIsOwned_text (issuance : Issuance) (key : ObjectKey) :
    outputKeyTextIsOwned issuance key.text = outputKeyIsOwned issuance key := by
  unfold outputKeyTextIsOwned
  cases hvalid : validateIssuanceOutputKey key.text with
  | ok seen =>
    obtain ⟨⟨organization, owner, extension⟩, htext, rfl⟩ :=
      validateIssuanceOutputKey_eq_ok.mp hvalid
    obtain rfl := objectKey_text_injective htext
    simp only [outputKeyIsOwned, uuid_text_inj]
  | error raised =>
    cases key with
    | orphan _ _ _ => rfl
    | promotedInput _ _ _ => rfl
    | issuanceOutput organization owner extension =>
      rw [validateIssuanceOutputKey_text] at hvalid
      cases hvalid

/-- The store's keys and their texts are one: a text spells one key, the controlled texts are the
texts of the keys, a copy is allowed from an upload's key to an input's key of its kind and
organization, and a row owns the texts of the keys that it owns. -/
theorem object_keys_spelled :
    Function.Injective ObjectKey.text ∧
    (∀ text, validateControlledKey text = .ok () ↔ ∃ key : ObjectKey, key.text = text) ∧
    (∀ source destination, validateCopyBoundary source destination = .ok () ↔
      ∃ (purpose : UploadPurpose) (organization object upload : UUID),
        (ObjectKey.orphan purpose organization object).text = source ∧
        (ObjectKey.promotedInput purpose.kind organization upload).text = destination) ∧
    (∀ (upload : UploadRequest) (category : Category) (key : ObjectKey),
      keyTextIsOwned upload category key.text = keyIsOwned upload category key) ∧
    (∀ (issuance : Issuance) (key : ObjectKey),
      outputKeyTextIsOwned issuance key.text = outputKeyIsOwned issuance key) := by
  refine ⟨objectKey_text_injective, ?_, ?_, ?_, ?_⟩
  · exact validateControlledKey_iff
  · exact validateCopyBoundary_iff
  · exact keyTextIsOwned_text
  · exact outputKeyTextIsOwned_text

end Splitbind
