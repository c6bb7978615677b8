import Mathlib.Data.List.Nodup
import Splitbind.Fingerprint.TilePlacement

/-!
# Spread chips — which samples of a tile carry which bit

Carrier blocks of eight by eight samples are chosen by a keyed shuffle.  Two diagonal quarters of
every chosen block are chips, the one for the first group of a bit and the other for the second.
-/

namespace Splitbind

open Transaction

/-! ## 1. The profile -/

structure SpreadProfile (K : Type) where
  schemaVersion : Int
  contractSha256 : List UInt8
  qimDelta : K
  pilotStrengthRms : K
  spreadDelta : K
  spreadChipsPerBit : Int
  saturatedFractionMin : K
  saturationLow : Int
  saturationHigh : Int
  tileSizePx : Int
  tilesPerPage : Int
  payloadRepetitions : Int
  bitReplication : Int
  bitConfidenceMin : K
  pilotScoreMin : K
  maxGeometryHypotheses : Int
  geometryRatioTolerance : K
  cropRetainedScales : List K
  resizeInterpolation : List Char

section Profile

variable {K : Type} [Field K] [LinearOrder K]

/-- The fields that must be positive reals. -/
def SpreadProfile.positiveReals (profile : SpreadProfile K) : List (K × String) :=
  [(profile.qimDelta, "profile.qim_delta"),
    (profile.pilotStrengthRms, "profile.pilot_strength_rms"),
    (profile.spreadDelta, "profile.spread_delta"),
    (profile.geometryRatioTolerance, "profile.geometry_ratio_tolerance")]

/-- The fields that must be positive integers. -/
def SpreadProfile.positiveIntegers (profile : SpreadProfile K) : List (Int × String) :=
  [(profile.spreadChipsPerBit, "profile.spread_chips_per_bit"),
    (profile.tileSizePx, "profile.tile_size_px"),
    (profile.tilesPerPage, "profile.tiles_per_page"),
    (profile.payloadRepetitions, "profile.payload_repetitions"),
    (profile.bitReplication, "profile.bit_replication"),
    (profile.maxGeometryHypotheses, "profile.max_geometry_hypotheses")]

/-- The fields that must be fractions. -/
def SpreadProfile.fractions (profile : SpreadProfile K) : List (K × String) :=
  [(profile.saturatedFractionMin, "profile.saturated_fraction_min"),
    (profile.bitConfidenceMin, "profile.bit_confidence_min"),
    (profile.pilotScoreMin, "profile.pilot_score_min")]

/-- A loop of checks, each of which names its field. -/
def requireEach {α : Type} (bad : α → Prop) [DecidablePred bad] (complaint : String)
    (fields : List (α × String)) : Except LayoutError PUnit :=
  match fields with
  | [] => return
  | (value, name) :: rest => do
    raiseIf (bad value) (.value (name ++ complaint))
    requireEach bad complaint rest

theorem requireEach_eq_ok {α : Type} {bad : α → Prop} [DecidablePred bad] {complaint : String}
    {fields : List (α × String)} {u : PUnit} :
    requireEach bad complaint fields = .ok u ↔ ∀ field ∈ fields, ¬ bad field.1 := by
  induction fields with
  | nil => exact iff_of_true rfl fun _ h ↦ absurd h List.not_mem_nil
  | cons field fields ih =>
    rw [List.forall_mem_cons, ← ih]
    simp only [requireEach, bind_eq_ok, exists_unit, raiseIf_eq_ok]

/-- `_validate_profile` of a V3 profile. -/
def validateProfileV3 (profile : SpreadProfile K) : Except LayoutError PUnit := do
  raiseIf (profile.schemaVersion ≠ 3) (.value "profile schema_version must be 3")
  raiseIf (profile.contractSha256.length ≠ 32)
    (.value "profile contract_sha256 must contain exactly 32 bytes")
  requireEach (· ≤ 0) " must be positive" profile.positiveReals
  requireEach (· ≤ 0) " must be positive" profile.positiveIntegers
  requireEach (fun value ↦ ¬ (0 ≤ value ∧ value ≤ 1)) " must be between zero and one"
    profile.fractions
  raiseIf (¬ (0 ≤ profile.saturationLow ∧ profile.saturationLow < 256))
    (.value "profile.saturation_low must be an 8-bit value")
  raiseIf (¬ (0 ≤ profile.saturationHigh ∧ profile.saturationHigh < 256))
    (.value "profile.saturation_high must be an 8-bit value")
  raiseIf (profile.saturationLow ≥ profile.saturationHigh)
    (.value "profile saturation bounds must be ordered")
  raiseIf (profile.cropRetainedScales = [])
    (.value "crop_retained_scales must be a non-empty list of finite real numbers")
  raiseIf (∃ scale ∈ profile.cropRetainedScales, scale ≤ 0 ∨ 1 < scale)
    (.value "crop_retained_scales must be in the interval (0, 1]")
  raiseIf (profile.resizeInterpolation = [])
    (.value "profile.resize_interpolation must be a non-empty string")

/-- `struct.pack(">I", n)`. -/
def packUnsigned (n : Int) : Except LayoutError (List UInt8) := do
  raiseIf (¬ (0 ≤ n ∧ n < 2 ^ 32)) .identifier
  return BigEndian.toBytes 4 n.toNat

/-- `candidate_identifier_v3`; `packReal` is `struct.pack(">d", ·)`. -/
def candidateIdentifierV3 (packReal : K → List UInt8) (profile : SpreadProfile K) :
    Except LayoutError (List UInt8) := do
  validateProfileV3 profile
  let interpolation := profile.resizeInterpolation.flatMap String.utf8EncodeChar
  let schemaVersion ← packUnsigned profile.schemaVersion
  let spreadChipsPerBit ← packUnsigned profile.spreadChipsPerBit
  let saturationLow ← packUnsigned profile.saturationLow
  let saturationHigh ← packUnsigned profile.saturationHigh
  let tileSizePx ← packUnsigned profile.tileSizePx
  let tilesPerPage ← packUnsigned profile.tilesPerPage
  let payloadRepetitions ← packUnsigned profile.payloadRepetitions
  let bitReplication ← packUnsigned profile.bitReplication
  let maxGeometryHypotheses ← packUnsigned profile.maxGeometryHypotheses
  let scaleCount ← packUnsigned profile.cropRetainedScales.length
  let interpolationLength ← packUnsigned interpolation.length
  return [0x53, 0x42, 0x46, 0x33, 0x01] ++ profile.contractSha256 ++ schemaVersion ++
    packReal profile.qimDelta ++ packReal profile.pilotStrengthRms ++
    packReal profile.spreadDelta ++ spreadChipsPerBit ++ packReal profile.saturatedFractionMin ++
    saturationLow ++ saturationHigh ++ tileSizePx ++ tilesPerPage ++ payloadRepetitions ++
    bitReplication ++ packReal profile.bitConfidenceMin ++ packReal profile.pilotScoreMin ++
    maxGeometryHypotheses ++ packReal profile.geometryRatioTolerance ++ scaleCount ++
    profile.cropRetainedScales.flatMap packReal ++ interpolationLength ++ interpolation

/-! ## 2. The groups -/

/-- The samples of four rows and four columns from a corner on. -/
def subBlock (tileSizePx y x : Nat) : List Nat :=
  (List.range' y 4).flatMap fun row ↦ (List.range' x 4).map fun column ↦ row * tileSizePx + column

/-- The two quarters of a block, upper first unless the orientation is odd. -/
def blockChips (tileSizePx blockIndex orientation : Nat) : List Nat × List Nat :=
  let blocksPerEdge := tileSizePx / 8
  let originY := blockIndex / blocksPerEdge * 8
  let originX := blockIndex % blocksPerEdge * 8
  let first := subBlock tileSizePx originY (originX + if orientation ≥ 2 then 4 else 0)
  let second := subBlock tileSizePx (originY + 4) (originX + if orientation ≥ 2 then 0 else 4)
  if orientation % 2 ≠ 0 then (second, first) else (first, second)

section Groups

variable {σ : Type} (randbelow : Nat → σ → Except LayoutError (Nat × σ)) (tileSizePx : Nat)

/-- The groups of one bit, from its blocks. -/
def bitGroups : List Nat → σ → Except LayoutError ((List Nat × List Nat) × σ)
  | [], stream => .ok (([], []), stream)
  | blockIndex :: blocks, stream => do
    let (orientation, stream) ← randbelow 4 stream
    let (rest, stream) ← bitGroups blocks stream
    let (first, second) := blockChips tileSizePx blockIndex orientation
    return ((first ++ rest.1, second ++ rest.2), stream)

/-- The groups of a number of bits, each from the next blocks of the selected ones. -/
def groupsFrom (blocksPerBit : Nat) : Nat → List Nat → σ →
    Except LayoutError (List (List Nat × List Nat))
  | 0, _, _ => .ok []
  | bits + 1, selected, stream => do
    let (group, stream) ← bitGroups randbelow tileSizePx (selected.take blocksPerBit) stream
    let groups ← groupsFrom blocksPerBit bits (selected.drop blocksPerBit) stream
    return group :: groups

end Groups

/-- The bits of a codeword of 39 bytes. -/
def spreadBitCount : Nat := 39 * 8

def chipSeedDomain : List UInt8 := domainBytes "splitbind-v3-spread-chip-permutation"

def chipStreamDomain : List UInt8 := domainBytes "splitbind-v3-spread-chip-stream"

/-- `randbelow` of the chip stream. -/
def chipBelow (hmac : HmacSha256) (upperBound : Nat) (stream : HmacByteStream) :
    Except LayoutError (Nat × HmacByteStream) :=
  stream.accept hmac chipStreamDomain upperBound

/-- `_validate_binding`, with the identifier it computes. -/
def validateSpreadBinding (packReal : K → List UInt8) (key : List UInt8) (pageIndex : Int)
    (profile : SpreadProfile K) : Except LayoutError (List UInt8) := do
  validateLayoutKey key
  validatePageIndex pageIndex
  candidateIdentifierV3 packReal profile

def chipGroups (hmac : HmacSha256) (packReal : K → List UInt8) (key : List UInt8)
    (pageIndex : Int) (profile : SpreadProfile K) :
    Except LayoutError (List (List Nat × List Nat)) := do
  let identifier ← validateSpreadBinding packReal key pageIndex profile
  raiseIf (profile.spreadChipsPerBit % 16 ≠ 0)
    (.value "V3 spread chips per bit must be divisible by 16")
  let blocksPerBit := (profile.spreadChipsPerBit / 16).toNat
  let blocksPerEdge := profile.tileSizePx.toNat / 8
  let blockCapacity := blocksPerEdge ^ 2
  let requiredBlocks := spreadBitCount * blocksPerBit
  raiseIf (blockCapacity < requiredBlocks)
    (.value ("V3 spread capacity is " ++ toString blockCapacity ++
      " carrier blocks, but embedding needs " ++ toString requiredBlocks))
  let seedMessage := chipSeedDomain ++ BigEndian.toBytes 4 pageIndex.toNat ++ identifier
  let (blockIndexes, stream) ← FisherYates.shuffle (chipBelow hmac)
    (List.range blockCapacity).toArray ⟨hmac.digest key seedMessage, 0, []⟩
  groupsFrom (chipBelow hmac) profile.tileSizePx.toNat blocksPerBit spreadBitCount
    (blockIndexes.toList.take requiredBlocks) stream

end Profile

/-! ## 3. Where the chips lie -/

/-- All groups, two for a bit. -/
def allGroups (groups : List (List Nat × List Nat)) : List (List Nat) :=
  groups.flatMap fun group ↦ [group.1, group.2]

/-- Disjoint groups of samples of the tile, as many for a bit as the profile says. -/
structure ChipLayout (tileSizePx chipsPerBit : Nat) (groups : List (List Nat × List Nat)) :
    Prop where
  count : groups.length = spreadBitCount
  size : ∀ group ∈ allGroups groups, group.length = chipsPerBit
  inside : ∀ group ∈ allGroups groups, ∀ sample ∈ group, sample < tileSizePx * tileSizePx
  nodup : ∀ group ∈ allGroups groups, group.Nodup
  disjoint : (allGroups groups).Pairwise List.Disjoint

section Blocks

variable {tileSizePx : Nat}

theorem mem_subBlock {y x sample : Nat} (hx : x + 4 ≤ tileSizePx) :
    sample ∈ subBlock tileSizePx y x ↔ (y ≤ sample / tileSizePx ∧ sample / tileSizePx < y + 4) ∧
      x ≤ sample % tileSizePx ∧ sample % tileSizePx < x + 4 := by
  have hpos : 0 < tileSizePx := by omega
  simp only [subBlock, List.mem_flatMap, List.mem_map, List.mem_range'_1]
  constructor
  · rintro ⟨row, hrow, column, hcolumn, rfl⟩
    have hlt : column < tileSizePx := by omega
    rw [Nat.mul_comm, Nat.mul_add_div hpos, Nat.div_eq_of_lt hlt, Nat.mul_add_mod,
      Nat.mod_eq_of_lt hlt]
    exact ⟨hrow, hcolumn⟩
  · rintro ⟨hrow, hcolumn⟩
    exact ⟨_, hrow, _, hcolumn, Nat.div_add_mod' sample tileSizePx⟩

theorem length_subBlock (y x : Nat) : (subBlock tileSizePx y x).length = 16 := by
  rw [subBlock, List.length_flatMap]
  simp

theorem nodup_subBlock {y x : Nat} (hx : x + 4 ≤ tileSizePx) :
    (subBlock tileSizePx y x).Nodup := by
  refine List.nodup_flatMap.mpr ⟨fun row _ ↦ ?_, ?_⟩
  · have hcolumns : (List.range' x 4).Nodup := List.nodup_range'
    exact hcolumns.map fun a b hab ↦ Nat.add_left_cancel hab
  · have hrows : (List.range' y 4).Nodup := List.nodup_range'
    refine hrows.imp fun {row other} hne sample hrow hother ↦ ?_
    -- a sample tells its row
    have hline : ∀ r, sample ∈ (List.range' x 4).map (r * tileSizePx + ·) →
        sample / tileSizePx = r := by
      intro r hmem
      obtain ⟨column, hcolumn, rfl⟩ := List.mem_map.mp hmem
      rw [List.mem_range'_1] at hcolumn
      rw [Nat.mul_comm, Nat.mul_add_div (by omega), Nat.div_eq_of_lt (by omega), Nat.add_zero]
    exact hne ((hline row hrow).symm.trans (hline other hother))

/-- The block that a sample lies in. -/
def blockOf (tileSizePx sample : Nat) : Nat :=
  sample / tileSizePx / 8 * (tileSizePx / 8) + sample % tileSizePx / 8

/-- What an entry of a bit contributes to its groups. -/
structure Quarters (tileSizePx blockIndex : Nat) (chips : List Nat × List Nat) : Prop where
  first : chips.1.length = 16
  second : chips.2.length = 16
  nodup : (chips.1 ++ chips.2).Nodup
  block : ∀ sample ∈ chips.1 ++ chips.2, blockOf tileSizePx sample = blockIndex
  inside : ∀ sample ∈ chips.1 ++ chips.2, sample < tileSizePx * tileSizePx

theorem Quarters.swap {blockIndex : Nat} {first second : List Nat}
    (h : Quarters tileSizePx blockIndex (first, second)) :
    Quarters tileSizePx blockIndex (second, first) := by
  have hmem : ∀ sample, sample ∈ second ++ first → sample ∈ first ++ second :=
    fun sample hsample ↦ List.mem_append.mpr (List.mem_append.mp hsample).symm
  exact ⟨h.second, h.first, List.nodup_append_comm.mp h.nodup,
    fun sample hsample ↦ h.block sample (hmem sample hsample),
    fun sample hsample ↦ h.inside sample (hmem sample hsample)⟩

/-- Two quarters of a block, of different rows. -/
theorem quarters_subBlock {blockIndex : Nat} (hblock : blockIndex < (tileSizePx / 8) ^ 2)
    (left right : Nat) (hleft : left ≤ 4) (hright : right ≤ 4) :
    Quarters tileSizePx blockIndex
      (subBlock tileSizePx (blockIndex / (tileSizePx / 8) * 8)
          (blockIndex % (tileSizePx / 8) * 8 + left),
        subBlock tileSizePx (blockIndex / (tileSizePx / 8) * 8 + 4)
          (blockIndex % (tileSizePx / 8) * 8 + right)) := by
  have hedge : 0 < tileSizePx / 8 := by
    by_contra h
    rw [Nat.le_zero.mp (Nat.le_of_not_lt h)] at hblock
    exact absurd hblock (Nat.not_lt_zero _)
  have hcolumn := Nat.mod_lt blockIndex hedge
  have hrow : blockIndex / (tileSizePx / 8) < tileSizePx / 8 := by
    rw [pow_two] at hblock
    exact Nat.div_lt_of_lt_mul hblock
  have hfits : ∀ side, side ≤ 4 → blockIndex % (tileSizePx / 8) * 8 + side + 4 ≤ tileSizePx := by
    intro side hside
    omega
  -- a sample of either quarter lies in the eight rows and columns of the block
  have hplace : ∀ {top side sample : Nat}, top ≤ 4 → side ≤ 4 →
      sample ∈ subBlock tileSizePx (blockIndex / (tileSizePx / 8) * 8 + top)
        (blockIndex % (tileSizePx / 8) * 8 + side) →
      sample / tileSizePx / 8 = blockIndex / (tileSizePx / 8) ∧
        sample % tileSizePx / 8 = blockIndex % (tileSizePx / 8) := by
    intro top side sample htop hside hmem
    obtain ⟨hy, hx⟩ := (mem_subBlock (hfits side hside)).mp hmem
    omega
  have hwhole : ∀ {sample : Nat}, sample / tileSizePx / 8 = blockIndex / (tileSizePx / 8) →
      sample % tileSizePx / 8 = blockIndex % (tileSizePx / 8) →
      blockOf tileSizePx sample = blockIndex ∧ sample < tileSizePx * tileSizePx := by
    intro sample hy hx
    constructor
    · rw [blockOf, hy, hx, Nat.div_add_mod']
    · refine Nat.lt_mul_of_div_lt ?_ (by omega)
      omega
  have hall : ∀ sample ∈ subBlock tileSizePx (blockIndex / (tileSizePx / 8) * 8)
      (blockIndex % (tileSizePx / 8) * 8 + left) ++
        subBlock tileSizePx (blockIndex / (tileSizePx / 8) * 8 + 4)
          (blockIndex % (tileSizePx / 8) * 8 + right),
      sample / tileSizePx / 8 = blockIndex / (tileSizePx / 8) ∧
        sample % tileSizePx / 8 = blockIndex % (tileSizePx / 8) := by
    intro sample hsample
    rcases List.mem_append.mp hsample with hmem | hmem
    · exact hplace (Nat.zero_le 4) hleft hmem
    · exact hplace (le_refl 4) hright hmem
  refine ⟨length_subBlock _ _, length_subBlock _ _, ?_, fun sample hsample ↦ ?_,
    fun sample hsample ↦ ?_⟩
  · refine List.nodup_append'.mpr ⟨nodup_subBlock (hfits left hleft),
      nodup_subBlock (hfits right hright), fun sample hfirst hsecond ↦ ?_⟩
    have hupper := ((mem_subBlock (hfits left hleft)).mp hfirst).1
    have hlower := ((mem_subBlock (hfits right hright)).mp hsecond).1
    omega
  · exact (hwhole (hall sample hsample).1 (hall sample hsample).2).1
  · exact (hwhole (hall sample hsample).1 (hall sample hsample).2).2

theorem blockChips_quarters {blockIndex : Nat} (hblock : blockIndex < (tileSizePx / 8) ^ 2)
    (orientation : Nat) :
    Quarters tileSizePx blockIndex (blockChips tileSizePx blockIndex orientation) := by
  have hquarters := quarters_subBlock hblock (if orientation ≥ 2 then 4 else 0)
    (if orientation ≥ 2 then 0 else 4) (by split_ifs <;> omega) (by split_ifs <;> omega)
  rw [blockChips]
  split_ifs at hquarters ⊢
  · exact hquarters.swap
  · exact hquarters.swap
  · exact hquarters
  · exact hquarters

/-- Groups of samples that lie in given blocks. -/
structure CarriedBy (tileSizePx : Nat) (blocks : List Nat) (samples : List Nat) : Prop where
  nodup : samples.Nodup
  block : ∀ sample ∈ samples, blockOf tileSizePx sample ∈ blocks
  inside : ∀ sample ∈ samples, sample < tileSizePx * tileSizePx

/-- Samples of different blocks come together. -/
theorem CarriedBy.append {blocks others samples more : List Nat}
    (h : CarriedBy tileSizePx blocks samples) (hmore : CarriedBy tileSizePx others more)
    (hdisjoint : blocks.Disjoint others) :
    CarriedBy tileSizePx (blocks ++ others) (samples ++ more) := by
  refine ⟨List.nodup_append'.mpr ⟨h.nodup, hmore.nodup, fun sample hsample hother ↦ ?_⟩,
    fun sample hsample ↦ ?_, fun sample hsample ↦ ?_⟩
  · exact hdisjoint (h.block sample hsample) (hmore.block sample hother)
  · exact List.mem_append.mpr ((List.mem_append.mp hsample).imp (h.block sample)
      (hmore.block sample))
  · exact (List.mem_append.mp hsample).elim (h.inside sample) (hmore.inside sample)

theorem CarriedBy.perm {blocks samples others : List Nat}
    (h : CarriedBy tileSizePx blocks samples) (hperm : samples.Perm others) :
    CarriedBy tileSizePx blocks others :=
  ⟨hperm.nodup_iff.mp h.nodup, fun sample hsample ↦ h.block sample (hperm.mem_iff.mpr hsample),
    fun sample hsample ↦ h.inside sample (hperm.mem_iff.mpr hsample)⟩

theorem Quarters.carried {blockIndex : Nat} {chips : List Nat × List Nat}
    (h : Quarters tileSizePx blockIndex chips) :
    CarriedBy tileSizePx [blockIndex] (chips.1 ++ chips.2) :=
  ⟨h.nodup, fun sample hsample ↦ List.mem_singleton.mpr (h.block sample hsample), h.inside⟩

variable {σ : Type} {randbelow : Nat → σ → Except LayoutError (Nat × σ)}

/-- The two groups of a bit, by induction on its blocks. -/
theorem bitGroups_spec {blocks : List Nat} {stream next : σ} {group : List Nat × List Nat}
    (h : bitGroups randbelow tileSizePx blocks stream = .ok (group, next))
    (hnodup : blocks.Nodup) (hblocks : ∀ block ∈ blocks, block < (tileSizePx / 8) ^ 2) :
    group.1.length = 16 * blocks.length ∧ group.2.length = 16 * blocks.length ∧
      CarriedBy tileSizePx blocks (group.1 ++ group.2) := by
  induction blocks generalizing stream next group with
  | nil =>
    obtain rfl := (Prod.mk.inj (Except.ok.inj h)).1
    exact ⟨rfl, rfl, List.nodup_nil, fun _ h ↦ absurd h List.not_mem_nil,
      fun _ h ↦ absurd h List.not_mem_nil⟩
  | cons blockIndex blocks ih =>
    simp only [bitGroups, bind_eq_ok, pure_eq_ok, Prod.exists, Prod.mk.injEq] at h
    obtain ⟨orientation, afterDraw, -, restA, restB, afterRest, hrest, rfl, -⟩ := h
    rw [List.nodup_cons] at hnodup
    rw [List.forall_mem_cons] at hblocks
    obtain ⟨hfirst, hsecond, hcarried⟩ := ih hrest hnodup.2 hblocks.2
    have hquarters := blockChips_quarters hblocks.1 orientation
    refine ⟨?_, ?_, ?_⟩
    · rw [List.length_append, hquarters.first, hfirst, List.length_cons]
      omega
    · rw [List.length_append, hquarters.second, hsecond, List.length_cons]
      omega
    · have hdisjoint : [blockIndex].Disjoint blocks := List.singleton_disjoint.mpr hnodup.1
      refine (hquarters.carried.append hcarried hdisjoint).perm ?_
      -- the quarters of the block go to either group
      simp only [List.append_assoc]
      exact (List.perm_append_comm_assoc _ _ _).append_left _

/-- All groups, by induction on the bits. -/
theorem groupsFrom_spec {blocksPerBit bits : Nat} {selected : List Nat} {stream : σ}
    {groups : List (List Nat × List Nat)}
    (h : groupsFrom randbelow tileSizePx blocksPerBit bits selected stream = .ok groups)
    (hnodup : selected.Nodup) (hblocks : ∀ block ∈ selected, block < (tileSizePx / 8) ^ 2)
    (hlength : bits * blocksPerBit ≤ selected.length) :
    groups.length = bits ∧ (∀ group ∈ groups, group.1.length = 16 * blocksPerBit ∧
      group.2.length = 16 * blocksPerBit) ∧
        CarriedBy tileSizePx selected (groups.flatMap fun group ↦ group.1 ++ group.2) := by
  induction bits generalizing selected stream groups with
  | zero =>
    obtain rfl := Except.ok.inj h
    exact ⟨rfl, fun _ h ↦ absurd h List.not_mem_nil, List.nodup_nil,
      fun _ h ↦ absurd h List.not_mem_nil, fun _ h ↦ absurd h List.not_mem_nil⟩
  | succ bits ih =>
    simp only [groupsFrom, bind_eq_ok, pure_eq_ok, Prod.exists] at h
    obtain ⟨first, second, next, hgroup, rest, hrest, rfl⟩ := h
    rw [Nat.succ_mul] at hlength
    have hparts : (selected.take blocksPerBit ++ selected.drop blocksPerBit).Nodup := by
      rw [List.take_append_drop]
      exact hnodup
    have htake : (selected.take blocksPerBit).length = blocksPerBit := by
      rw [List.length_take]
      omega
    obtain ⟨htakeNodup, hdropNodup, hdisjoint⟩ := List.nodup_append'.mp hparts
    obtain ⟨hfirst, hsecond, hcarried⟩ := bitGroups_spec hgroup htakeNodup
      fun block hblock ↦ hblocks block (List.mem_of_mem_take hblock)
    obtain ⟨hcount, hsizes, hall⟩ := ih hrest hdropNodup
      (fun block hblock ↦ hblocks block (List.mem_of_mem_drop hblock))
      (by rw [List.length_drop]; omega)
    rw [htake] at hfirst hsecond
    refine ⟨congrArg Nat.succ hcount, List.forall_mem_cons.mpr ⟨⟨hfirst, hsecond⟩, hsizes⟩, ?_⟩
    have happend := hcarried.append hall hdisjoint
    rw [List.take_append_drop] at happend
    exact happend

theorem flatten_allGroups (groups : List (List Nat × List Nat)) :
    (allGroups groups).flatten = groups.flatMap fun group ↦ group.1 ++ group.2 := by
  induction groups with
  | nil => rfl
  | cons group groups ih =>
    rw [List.flatMap_cons, ← ih, List.append_assoc]
    rfl

theorem length_allGroups (groups : List (List Nat × List Nat)) :
    (allGroups groups).length = 2 * groups.length := by
  induction groups with
  | nil => rfl
  | cons group groups ih =>
    show (allGroups groups).length + 2 = 2 * (groups.length + 1)
    omega

/-- Chosen blocks make a layout. -/
theorem chipLayout_of_carried {chipsPerBit : Nat} {blocks : List Nat}
    {groups : List (List Nat × List Nat)} (hcount : groups.length = spreadBitCount)
    (hsizes : ∀ group ∈ groups, group.1.length = chipsPerBit ∧ group.2.length = chipsPerBit)
    (hcarried : CarriedBy tileSizePx blocks (groups.flatMap fun group ↦ group.1 ++ group.2)) :
    ChipLayout tileSizePx chipsPerBit groups := by
  rw [← flatten_allGroups] at hcarried
  obtain ⟨hnodup, hdisjoint⟩ := List.nodup_flatten.mp hcarried.nodup
  refine ⟨hcount, fun samples hsamples ↦ ?_, fun samples hsamples sample hsample ↦ ?_,
    hnodup, hdisjoint⟩
  · obtain ⟨group, hgroup, hmem⟩ := List.mem_flatMap.mp hsamples
    rcases List.mem_cons.mp hmem with rfl | hmem
    · exact (hsizes group hgroup).1
    · rw [List.mem_singleton.mp hmem]
      exact (hsizes group hgroup).2
  · exact hcarried.inside sample (List.mem_flatten.mpr ⟨samples, hsamples, hsample⟩)

end Blocks

section Layout

variable {K : Type} [Field K] [LinearOrder K]

/-- **The chip groups.** Whatever the stream draws. -/
theorem chipGroups_layout {hmac : HmacSha256} {packReal : K → List UInt8} {key : List UInt8}
    {pageIndex : Int} {profile : SpreadProfile K} {groups : List (List Nat × List Nat)}
    (h : chipGroups hmac packReal key pageIndex profile = .ok groups) :
    ChipLayout profile.tileSizePx.toNat profile.spreadChipsPerBit.toNat groups := by
  simp only [chipGroups, bind_eq_ok, exists_unit, raiseIf_eq_ok, not_not, not_lt, Prod.exists] at h
  obtain ⟨identifier, hidentifier, hchips, hcapacity, blockIndexes, stream, hshuffle, hgroups⟩ := h
  have hperm := FisherYates.shuffle_perm hshuffle
  rw [List.toList_toArray] at hperm
  have hnodup := hperm.nodup_iff.mpr List.nodup_range
  have hlength := hperm.length_eq
  rw [List.length_range] at hlength
  obtain ⟨hcount, hsizes, hcarried⟩ := groupsFrom_spec hgroups
    (hnodup.sublist (List.take_sublist _ _))
    (fun block hblock ↦ List.mem_range.mp (hperm.mem_iff.mp (List.mem_of_mem_take hblock)))
    (by rw [List.length_take, hlength]; exact le_min (le_refl _) hcapacity)
  have hexact : 16 * (profile.spreadChipsPerBit / 16).toNat = profile.spreadChipsPerBit.toNat := by
    omega
  rw [hexact] at hsizes
  exact chipLayout_of_carried hcount hsizes hcarried

end Layout

end Splitbind
