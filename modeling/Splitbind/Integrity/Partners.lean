import Mathlib.Data.Rat.Encodable
import Splitbind.Fingerprint.TileLayout
import Splitbind.Integrity.Profile

/-!
# Integrity partners — where the tags of a region are kept

A keyed order closes the regions to a ring, and every replica of a tag goes some places further on.
Whatever the key, the nonce and the number of regions, no region keeps its own tag, and the replicas
of one tag are in different regions.
-/

namespace Splitbind

open Transaction

/-! ## 1. Partner regions -/

section Partners

variable (hmac : HmacSha256) (count : Nat) (key nonce : List UInt8) (profile : IntegrityProfile)

/-- The digest that a region is ordered by; its index is written in four bytes. -/
def partnerDigest (index : Nat) : Except IntegrityError (List UInt8) := do
  raiseIf (2 ^ 32 ≤ index) (.overflow "int too big to convert")
  return hmac.digest key (profile.partnerDomain ++ [0] ++ nonce ++ BigEndian.toBytes 4 index)

def keyedRegion (index : Nat) : Except IntegrityError (List UInt8 × Nat) := do
  return (← partnerDigest hmac key nonce profile index, index)

/-- The order of byte strings. -/
def digestLe (a b : List UInt8) : Bool := !b.lex a fun x y ↦ x.toNat < y.toNat

/-- The regions, sorted by their digests. -/
def partnerOrder : Except IntegrityError (List Nat) := do
  let keyed ← (List.range count).mapM (keyedRegion hmac key nonce profile)
  return (keyed.mergeSort fun a b ↦ digestLe a.1 b.1).map Prod.snd

/-- `_partner_regions`: for every replica the destinations of the regions. -/
def partnerRegions : Except IntegrityError (List (List Nat)) := do
  let order ← partnerOrder hmac count key nonce profile
  let rank := fun source ↦ order.idxOf source
  raiseIf (count = 0 ∧ profile.replicaShifts ≠ []) (.zeroDivision "integer modulo by zero")
  let effectiveShifts := profile.replicaShifts.map (· % count)
  raiseIf (0 ∈ effectiveShifts ∨ ¬ effectiveShifts.Nodup)
    (.value "integrity profile replica mappings must be independent")
  return effectiveShifts.map fun effective ↦
    (List.range count).map fun source ↦ order.getD ((rank source + effective) % count) 0

end Partners

/-! ## 2. The ring -/

section Ring

variable {hmac : HmacSha256} {count : Nat} {key nonce : List UInt8} {profile : IntegrityProfile}

/-- The digest of a region with an index that fits. -/
def regionDigest (hmac : HmacSha256) (key nonce : List UInt8) (profile : IntegrityProfile)
    (index : Nat) : List UInt8 :=
  hmac.digest key (profile.partnerDomain ++ [0] ++ nonce ++ BigEndian.toBytes 4 index)

theorem keyedRegion_of_lt {index : Nat} (h : index < 2 ^ 32) :
    keyedRegion hmac key nonce profile index =
      .ok (regionDigest hmac key nonce profile index, index) := by
  rw [keyedRegion, partnerDigest, raiseIf_neg (Nat.not_le_of_lt h)]
  rfl

theorem keyedRegion_of_le {index : Nat} (h : 2 ^ 32 ≤ index) :
    keyedRegion hmac key nonce profile index =
      .error (.overflow "int too big to convert") := by
  rw [keyedRegion, partnerDigest, raiseIf_pos h]
  rfl

/-- While the indices fit into four bytes, every region has its place in the order. -/
theorem partnerOrder_of_le (h : count ≤ 2 ^ 32) :
    ∃ order, partnerOrder hmac count key nonce profile = .ok order ∧
      order.Perm (List.range count) := by
  have hkeyed : (List.range count).mapM (keyedRegion hmac key nonce profile) =
      .ok ((List.range count).map fun index ↦ (regionDigest hmac key nonce profile index, index)) :=
    mapM_eq_map fun index hindex ↦ keyedRegion_of_lt ((List.mem_range.mp hindex).trans_le h)
  refine ⟨_, by rw [partnerOrder, hkeyed]; rfl, ?_⟩
  refine ((List.mergeSort_perm _ _).map Prod.snd).trans ?_
  rw [List.map_map]
  exact (List.map_id'' (fun _ ↦ rfl) _).symm ▸ List.Perm.refl _

/-- With an index that does not fit, there is no order. -/
theorem partnerOrder_of_lt (h : 2 ^ 32 < count) :
    partnerOrder hmac count key nonce profile = .error (.overflow "int too big to convert") := by
  have honly : ∀ index e, keyedRegion hmac key nonce profile index = .error e →
      e = .overflow "int too big to convert" := by
    intro index e he
    rcases Nat.lt_or_ge index (2 ^ 32) with hlt | hge
    · rw [keyedRegion_of_lt hlt] at he
      exact nomatch he
    · rw [keyedRegion_of_le hge] at he
      exact (Except.error.inj he).symm
  have hkeyed : (List.range count).mapM (keyedRegion hmac key nonce profile) =
      .error (.overflow "int too big to convert") :=
    mapM_eq_error honly (List.mem_range.mpr h) (keyedRegion_of_le le_rfl)
  rw [partnerOrder, hkeyed]
  rfl

/-- Where the tag of a region is kept by a replica. -/
theorem destination_eq {order : List Nat} {source shift : Nat}
    (hperm : order.Perm (List.range count)) (hsource : source < count) :
    order.getD ((order.idxOf source + shift) % count) 0 = Rotation.image order shift source := by
  have hmem : source ∈ order := hperm.mem_iff.mpr (List.mem_range.mpr hsource)
  have hlength : order.length = count := hperm.length_eq.trans List.length_range
  obtain ⟨hlt, heq⟩ := Rotation.image_eq shift hmem
  rw [heq, List.getD_eq_getElem _ _ (hlength ▸ hlt)]
  simp only [hlength]

/-- The mappings are rotations of the order. -/
theorem partnerRegions_of_order {order : List Nat}
    (horder : partnerOrder hmac count key nonce profile = .ok order)
    (hperm : order.Perm (List.range count)) (hpos : 0 < count)
    (hshifts : Rotation.Independent profile.replicaShifts count) :
    partnerRegions hmac count key nonce profile =
      .ok ((profile.replicaShifts.map (· % count)).map fun shift ↦
        (List.range count).map (Rotation.image order shift)) := by
  have hcount : ¬ (count = 0 ∧ profile.replicaShifts ≠ []) := fun h ↦ Nat.ne_of_gt hpos h.1
  have hindependent : ¬ (0 ∈ profile.replicaShifts.map (· % count) ∨
      ¬ (profile.replicaShifts.map (· % count)).Nodup) := by
    rintro (hzero | htwice)
    · exact hshifts.1 hzero
    · exact htwice hshifts.2
  rw [partnerRegions, horder, ok_bind, raiseIf_neg hcount, ok_bind]
  dsimp only
  rw [raiseIf_neg hindependent, ok_bind]
  refine congrArg Except.ok (List.map_congr_left fun shift _ ↦ ?_)
  refine List.map_congr_left fun source hsource ↦ ?_
  exact destination_eq hperm (List.mem_range.mp hsource)

/-- What the mappings of the replicas keep: each moves all regions to all regions, and the copies of
one tag are in different regions. -/
structure IndependentMappings (count : Nat) (mappings : List (List Nat)) : Prop where
  bijective : ∀ mapping ∈ mappings, mapping.Perm (List.range count)
  moves : ∀ mapping ∈ mappings, ∀ source < count, mapping[source]? ≠ some source
  apart : ∀ source < count, (mappings.map fun mapping ↦ mapping[source]?).Nodup

/-- A lost region costs a source at most one copy of its tag. -/
theorem IndependentMappings.copies_lost {mappings : List (List Nat)}
    (h : IndependentMappings count mappings) {source : Nat} (hsource : source < count) (lost : Nat) :
    mappings.countP (fun mapping ↦ mapping[source]? = some lost) ≤ 1 := by
  -- a value occurs at most once in a list without repetitions
  have hcount := List.nodup_iff_count_le_one.mp (h.apart source hsource) (some lost)
  rw [List.count, List.countP_map] at hcount
  refine le_trans (le_of_eq (List.countP_congr fun mapping _ ↦ ?_)) hcount
  rw [decide_eq_true_iff, Function.comp_apply, beq_iff_eq]

/-- Rotations by independent shifts are independent. -/
theorem rotations_independent {order : List Nat} {shifts : List Nat}
    (hperm : order.Perm (List.range count)) (hpos : 0 < count)
    (hshifts : Rotation.Independent shifts count) :
    IndependentMappings count ((shifts.map (· % count)).map fun shift ↦
      (List.range count).map (Rotation.image order shift)) := by
  have hnodup : order.Nodup := hperm.nodup_iff.mpr List.nodup_range
  have hlength : order.length = count := hperm.length_eq.trans List.length_range
  have hmem : ∀ source < count, source ∈ order := fun source hsource ↦
    hperm.mem_iff.mpr (List.mem_range.mpr hsource)
  have hentry : ∀ shift source, source < count →
      ((List.range count).map (Rotation.image order shift))[source]? =
        some (Rotation.image order shift source) := by
    intro shift source hsource
    rw [List.getElem?_map, List.getElem?_range hsource, Option.map_some]
  -- along the ring a shift counts only up to whole turns
  have hshift : ∀ shift ∈ shifts.map (· % count), 0 < shift ∧ shift < order.length := by
    intro shift hmem
    have hpositive := Nat.pos_of_ne_zero fun hzero ↦ hshifts.1 (hzero ▸ hmem)
    obtain ⟨original, -, rfl⟩ := List.mem_map.mp hmem
    exact ⟨hpositive, (Nat.mod_lt original hpos).trans_eq hlength.symm⟩
  refine ⟨fun mapping hmapping ↦ ?_, fun mapping hmapping source hsource ↦ ?_,
    fun source hsource ↦ ?_⟩
  · obtain ⟨shift, -, rfl⟩ := List.mem_map.mp hmapping
    exact Rotation.map_image_perm hnodup hperm
  · obtain ⟨shift, hmapped, rfl⟩ := List.mem_map.mp hmapping
    rw [hentry shift source hsource]
    intro h
    exact Rotation.image_ne hnodup (hmem source hsource) (hshift shift hmapped).1
      (hshift shift hmapped).2 (Option.some.inj h)
  · rw [List.map_map]
    refine List.Nodup.map_on (fun shift hmapped shift' hmapped' h ↦ ?_) hshifts.2
    rw [Function.comp_apply, Function.comp_apply, hentry shift source hsource,
      hentry shift' source hsource] at h
    exact Rotation.shift_inj hnodup (hmem source hsource) (hshift shift hmapped).2
      (hshift shift' hmapped').2 (Option.some.inj h)

end Ring

/-! ## 3. Pages -/

/-- What is passed as a page: an array of samples, or something else. -/
inductive PageInput
  | array (uint8 : Bool) (shape : List Nat)
  | other

/-- `_validate_secret`; what is not `bytes` is `none`. -/
def validateSecret (name : String) (value : Option (List UInt8)) (minimum maximum : Nat) :
    Except IntegrityError Unit := do
  let bytes ← found value (.type (name ++ " must be bytes"))
  raiseIf (¬ (minimum ≤ bytes.length ∧ bytes.length ≤ maximum))
    (.value (name ++ " length must be in [" ++ toString minimum ++ ", " ++ toString maximum ++
      "] bytes"))

/-- `_validate_inputs`: the height and the width of the page. -/
def validateInputs (page : PageInput) (key nonce : Option (List UInt8)) (profile : IntegrityProfile) :
    Except IntegrityError (Nat × Nat) :=
  match page with
  | .other => .error (.type "page must be a numpy array")
  | .array uint8 shape => do
    raiseIf (uint8 = false) (.type "page must use uint8 samples")
    raiseIf (shape.length ≠ 2 ∧ shape.length ≠ 3)
      (.value "page must be grayscale or channel-last BGR")
    raiseIf (shape.length = 3 ∧ shape.getD 2 0 ≠ 3) (.value "page channel count must be 1 or 3")
    let height := shape.getD 0 0
    let width := shape.getD 1 0
    raiseIf (height = 0 ∨ width = 0) (.value "page dimensions must be non-empty")
    raiseIf (profile.maxPixels < height * width) (.value "page exceeds the 40 megapixels limit")
    validateSecret "key" key profile.keyMin profile.keyMax
    validateSecret "nonce" nonce profile.nonceMin profile.nonceMax
    return (height, width)

/-- `_regions`: the corners of the complete regions. -/
def integrityRegions (shape : Nat × Nat) (regionSize : Nat) : List (Nat × Nat) :=
  (rangeStep (shape.1 + 1 - regionSize) regionSize).flatMap fun y ↦
    (rangeStep (shape.2 + 1 - regionSize) regionSize).map fun x ↦ (x, y)

theorem length_rangeStep {side regionSize : Nat} (hpos : 0 < regionSize) :
    (rangeStep (side + 1 - regionSize) regionSize).length = side / regionSize := by
  rw [rangeStep, List.length_range']
  rcases Nat.lt_or_ge side regionSize with hsmall | hlarge
  · -- a side shorter than a region holds none: the range is empty
    rw [Nat.div_eq_of_lt hsmall, Nat.div_eq_of_lt]
    omega
  · rw [show side + 1 - regionSize + regionSize - 1 = side by omega]

/-- The complete regions cover no more than the page. -/
theorem length_integrityRegions {shape : Nat × Nat} {regionSize : Nat} (hpos : 0 < regionSize) :
    (integrityRegions shape regionSize).length * (regionSize * regionSize) ≤ shape.1 * shape.2 := by
  have hlength : (integrityRegions shape regionSize).length =
      shape.1 / regionSize * (shape.2 / regionSize) := by
    rw [integrityRegions, List.length_flatMap]
    simp only [List.length_map, length_rangeStep hpos, List.map_const', List.sum_replicate_nat]
  calc (integrityRegions shape regionSize).length * (regionSize * regionSize)
      = (shape.1 / regionSize * regionSize) * (shape.2 / regionSize * regionSize) := by
        rw [hlength, Nat.mul_mul_mul_comm]
    _ ≤ shape.1 * shape.2 := Nat.mul_le_mul (Nat.div_mul_le_self _ _) (Nat.div_mul_le_self _ _)

/-- A page that passes has no more samples than the profile allows. -/
theorem pixels_of_validateInputs {page : PageInput} {key nonce : Option (List UInt8)}
    {profile : IntegrityProfile} {shape : Nat × Nat}
    (h : validateInputs page key nonce profile = .ok shape) :
    shape.1 * shape.2 ≤ profile.maxPixels := by
  cases page with
  | other => exact nomatch h
  | array uint8 sides =>
    simp only [validateInputs, bind_eq_ok, exists_unit, raiseIf_eq_ok, pure_eq_ok] at h
    obtain ⟨-, -, -, -, hpixels, -, -, rfl⟩ := h
    exact Nat.le_of_not_lt hpixels

/-! ## 4. Accepted profiles -/

section Accepted

variable {sha256 : List UInt8 → List Char} {numbers : PythonNumbers} {value : ProfileValue}
  {profile : IntegrityProfile}

/-- The shifts of an accepted profile are independent on every ring of enough regions. -/
theorem accepted_independent (hvalid : validateIntegrityProfile sha256 numbers value = .ok profile)
    (hpinned : ∀ tree, normalizeProfileJson "$" value = .ok tree → PinsFrozen sha256 numbers tree)
    {count : Nat} (hcount : profile.minimumRegions ≤ count) :
    0 < count ∧ Rotation.Independent profile.replicaShifts count := by
  obtain ⟨hshifts, hregions, -⟩ := accepted_profile hvalid hpinned
  rw [hregions] at hcount
  rw [hshifts]
  exact ⟨by omega, Rotation.independent_forall_iff.mpr (by decide) count hcount⟩

/-- A page that passes the checks is never refused for its ring: its regions are few enough. -/
theorem accepted_page_partnered
    (hvalid : validateIntegrityProfile sha256 numbers value = .ok profile)
    (hpinned : ∀ tree, normalizeProfileJson "$" value = .ok tree → PinsFrozen sha256 numbers tree)
    {page : PageInput} {key nonce : Option (List UInt8)} {shape : Nat × Nat}
    (hinputs : validateInputs page key nonce profile = .ok shape)
    (hregions : profile.minimumRegions ≤ (integrityRegions shape profile.regionSize).length)
    (hmac : HmacSha256) (keyBytes nonceBytes : List UInt8) :
    ∃ mappings, partnerRegions hmac (integrityRegions shape profile.regionSize).length keyBytes
        nonceBytes profile = .ok mappings ∧
      IndependentMappings (integrityRegions shape profile.regionSize).length mappings := by
  obtain ⟨-, -, hsize, hpixels⟩ := accepted_profile hvalid hpinned
  have hcovered : (integrityRegions shape profile.regionSize).length * (128 * 128) ≤
      shape.1 * shape.2 := by
    rw [hsize]
    exact length_integrityRegions (by decide)
  have hpage := pixels_of_validateInputs hinputs
  -- at most 40 million samples in regions of 128 by 128, so far fewer than 2 ^ 32
  have hfits : (integrityRegions shape profile.regionSize).length ≤ 2 ^ 32 := by omega
  obtain ⟨hpos, hshifts⟩ := accepted_independent hvalid hpinned hregions
  obtain ⟨order, horder, hperm⟩ := partnerOrder_of_le hfits
  exact ⟨_, partnerRegions_of_order horder hperm hpos hshifts,
    rotations_independent hperm hpos hshifts⟩

end Accepted

/-- **Replica rings are independent.**  For an accepted profile, every number of regions from its
minimum up to what four bytes count, every key and nonce, there are mappings; each moves all regions
to all regions, and no two copies of one tag are in one region. -/
theorem partnerRegions_independent (hmac : HmacSha256) (sha256 : List UInt8 → List Char)
    (numbers : PythonNumbers) (value : ProfileValue) (profile : IntegrityProfile)
    (hvalid : validateIntegrityProfile sha256 numbers value = .ok profile)
    (hpinned : ∀ tree, normalizeProfileJson "$" value = .ok tree → PinsFrozen sha256 numbers tree)
    (count : Nat) (hcount : profile.minimumRegions ≤ count) (hfits : count ≤ 2 ^ 32)
    (key nonce : List UInt8) :
    ∃ mappings, partnerRegions hmac count key nonce profile = .ok mappings ∧
      mappings.length = profile.replicaShifts.length ∧ IndependentMappings count mappings ∧
      ∀ source < count, ∀ lost,
        mappings.countP (fun mapping ↦ mapping[source]? = some lost) ≤ 1 := by
  obtain ⟨hpos, hshifts⟩ := accepted_independent hvalid hpinned hcount
  obtain ⟨order, horder, hperm⟩ := partnerOrder_of_le hfits
  have hindependent := rotations_independent hperm hpos hshifts
  refine ⟨_, partnerRegions_of_order horder hperm hpos hshifts, ?_, hindependent,
    fun source hsource lost ↦ hindependent.copies_lost hsource lost⟩
  rw [List.length_map, List.length_map]

/-! ### The frozen profile -/

/-- The floats of the frozen profile as they are written. -/
def writtenFloats : List (ℚ × String) :=
  [(0, "0.0"), (1, "1.0"), (48, "48.0"), (512, "512.0"), (1 / 4, "0.25"),
    (3602879701896397 / 18014398509481984, "0.2"), (3602879701896397 / 36028797018963968, "0.1"),
    (7656119366529843 / 9007199254740992, "0.85")]

/-- `float.__repr__` on these, and something else of its kind elsewhere. -/
def sampleRepr (q : ℚ) : List Char :=
  match writtenFloats.find? fun row ↦ row.1 = q with
  | some row => row.2.toList
  | none => 'e' :: Nat.toDigits 10 (Encodable.encode q)

theorem writtenFloats_texts : ∀ row ∈ writtenFloats,
    row.2.toList.all JsonText.isNumeral = true ∧ '.' ∈ row.2.toList ∧
      row.2.toList.head? ≠ some 'e' :=
  List.all_iff_forall_prop.mp (by decide +kernel)

theorem writtenFloats_inj : ∀ row ∈ writtenFloats, ∀ other ∈ writtenFloats,
    row.2.toList = other.2.toList → row.1 = other.1 := by
  have hall : (writtenFloats.all fun row ↦ writtenFloats.all fun other ↦
      !decide (row.2.toList = other.2.toList) || decide (row.1 = other.1)) = true := by
    decide +kernel
  intro row hrow other hother htext
  have hpair := List.all_eq_true.mp (List.all_eq_true.mp hall row hrow) other hother
  rw [decide_eq_true htext, Bool.not_true, Bool.false_or] at hpair
  exact of_decide_eq_true hpair

/-- A float is written as in the list, or by its number. -/
theorem sampleRepr_cases (q : ℚ) :
    (∃ row ∈ writtenFloats, row.1 = q ∧ sampleRepr q = row.2.toList) ∨
      sampleRepr q = 'e' :: Nat.toDigits 10 (Encodable.encode q) := by
  cases hfind : writtenFloats.find? (fun row ↦ row.1 = q) with
  | none => exact .inr (by rw [sampleRepr, hfind])
  | some row =>
    have hrow : row.1 = q := by simpa using List.find?_some hfind
    exact .inl ⟨row, List.mem_of_find?_eq_some hfind, hrow, by rw [sampleRepr, hfind]⟩

theorem sampleRepr_injective : Function.Injective sampleRepr := by
  intro p q h
  rcases sampleRepr_cases p with ⟨row, hrow, rfl, hp⟩ | hp <;>
    rcases sampleRepr_cases q with ⟨other, hother, rfl, hq⟩ | hq <;> rw [hp, hq] at h
  · -- a listed text never begins with `e`, and the unlisted ones are told apart by their codes
    exact writtenFloats_inj row hrow other hother h
  · exact absurd (congrArg List.head? h) (writtenFloats_texts row hrow).2.2
  · exact absurd (congrArg List.head? h.symm) (writtenFloats_texts other hother).2.2
  · exact Encodable.encode_injective (JsonText.toDigits_inj (List.cons.inj h).2)

def sampleFloats : JsonText.FloatText where
  repr := sampleRepr
  injective := sampleRepr_injective
  numeral := by
    intro q c hc
    rcases sampleRepr_cases q with ⟨row, hrow, rfl, hq⟩ | hq <;> rw [hq] at hc
    · exact List.all_eq_true.mp (writtenFloats_texts row hrow).1 c hc
    · rcases List.mem_cons.mp hc with rfl | hdigit
      · decide
      · rw [JsonText.isNumeral, JsonText.isDigit_of_mem_toDigits hdigit, Bool.true_or]
  marked := by
    intro q
    rcases sampleRepr_cases q with ⟨row, hrow, rfl, hq⟩ | hq <;> rw [hq]
    · exact ⟨'.', (writtenFloats_texts row hrow).2.1, .inl rfl⟩
    · exact ⟨'e', List.mem_cons_self, .inr rfl⟩

/-- Whole numbers that doubles hold are floats as they are. -/
def sampleNumbers : PythonNumbers where
  floats := sampleFloats
  ofInt := fun i ↦ if i.natAbs ≤ 9007199254740992 then some i else none

mutual

/-- A parsed file as a caller passes it. -/
def ProfileValue.ofJson : Json → ProfileValue
  | .null => .null
  | .bool b => .bool b
  | .int i => .int i
  | .float q => .float q
  | .nonFinite _ => .nonFinite
  | .text s => .text s
  | .array items => .list (ofItems items)
  | .object members => .mapping (ofMembers members)

def ProfileValue.ofItems : List Json → List ProfileValue
  | [] => []
  | v :: vs => ofJson v :: ofItems vs

def ProfileValue.ofMembers : List (String × Json) → List (Option String × ProfileValue)
  | [] => []
  | (name, v) :: members => (some name, ofJson v) :: ofMembers members

end

def frozenValue : ProfileValue := .ofJson frozenIntegrityProfile

theorem frozenValue_normalized :
    normalizeProfileJson "$" frozenValue = .ok frozenIntegrityProfile := by
  decide +kernel

/-- The frozen profile has the pinned digest, and passes. -/
theorem frozenValue_accepted : ∃ profile,
    validateIntegrityProfile Sha256.hexdigest sampleNumbers frozenValue = .ok profile :=
  exists_ok (by decide +kernel)

theorem frozenValue_pinned : ∀ tree, normalizeProfileJson "$" frozenValue = .ok tree →
    PinsFrozen Sha256.hexdigest sampleNumbers tree := by
  intro tree htree _
  rw [Except.ok.inj (htree.symm.trans frozenValue_normalized)]

/-- `hmac.new(key, message, hashlib.sha256).digest()`. -/
def hmacSha256 : HmacSha256 where
  digest := Sha256.hmac
  length_digest := Sha256.length_hmac

theorem partnerRegions_independent_six : ∃ profile mappings,
    validateIntegrityProfile Sha256.hexdigest sampleNumbers frozenValue = .ok profile ∧
      partnerRegions hmacSha256 6 (List.replicate 16 7) (List.replicate 8 9) profile = .ok mappings ∧
      mappings.length = 3 ∧ IndependentMappings 6 mappings := by
  obtain ⟨profile, hvalid⟩ := frozenValue_accepted
  obtain ⟨hshifts, hregions, -⟩ := accepted_profile hvalid frozenValue_pinned
  obtain ⟨mappings, hmappings, hlength, hindependent, -⟩ :=
    partnerRegions_independent hmacSha256 Sha256.hexdigest sampleNumbers frozenValue profile hvalid
      frozenValue_pinned 6 (by rw [hregions]; decide) (by decide) (List.replicate 16 7)
      (List.replicate 8 9)
  rw [hshifts] at hlength
  exact ⟨profile, mappings, hvalid, hmappings, hlength, hindependent⟩

/-- One region more than four bytes count. -/
theorem partnerRegions_overflow : ∃ profile,
    validateIntegrityProfile Sha256.hexdigest sampleNumbers frozenValue = .ok profile ∧
      profile.minimumRegions ≤ 2 ^ 32 + 1 ∧ ∀ hmac key nonce,
        partnerRegions hmac (2 ^ 32 + 1) key nonce profile =
          .error (.overflow "int too big to convert") := by
  obtain ⟨profile, hvalid⟩ := frozenValue_accepted
  obtain ⟨-, hregions, -⟩ := accepted_profile hvalid frozenValue_pinned
  refine ⟨profile, hvalid, by rw [hregions]; decide, fun hmac key nonce ↦ ?_⟩
  rw [partnerRegions, partnerOrder_of_lt (Nat.lt_succ_self _)]
  rfl

end Splitbind
