import Mathlib.Algebra.Module.Equiv.Basic
import Mathlib.Analysis.SpecialFunctions.Sqrt
import Splitbind.Fingerprint.TileCodec

/-!
# The round trip of a tile — what is embedded is read back

Replicas go to distinct positions, and what is written at one leaves the difference at every other
one as it is: two positions are in different blocks, or use different coefficients of one.  So
every position ends up with the parity it was given, and the vote is unanimous.
-/

namespace Splitbind

open Transaction

/-! ## 1. Positions -/

/-- The positions that are chosen and those that are left are the values; when they are too few,
every value is in a block that is taken. -/
theorem takeReplicas_spec {replication : Nat} {replicaBlocks values replicas rest : List Nat}
    (hlength : replicaBlocks.length ≤ replication)
    (h : takeReplicas replication replicaBlocks values = (replicas, rest)) :
    (replicas ++ rest).Perm values ∧ replicaBlocks.length + replicas.length ≤ replication ∧
      (replicaBlocks.length + replicas.length < replication →
        ∀ position ∈ values, position / 2 ∈ replicaBlocks ++ replicas.map (· / 2)) := by
  induction values generalizing replicaBlocks replicas rest with
  | nil =>
    cases h
    exact ⟨List.Perm.refl _, hlength, fun _ position hmem ↦ absurd hmem List.not_mem_nil⟩
  | cons position values ih =>
    have hpairs : coefficientPairs.length = 2 := rfl
    simp only [takeReplicas, hpairs] at h
    split_ifs at h with hfull htaken
    · cases h
      refine ⟨List.Perm.refl _, hlength, fun hlt ↦ absurd hfull (Nat.ne_of_lt ?_)⟩
      rwa [List.length_nil, Nat.add_zero] at hlt
    · -- the position is passed over: its block is taken
      cases hnext : takeReplicas replication replicaBlocks values with
      | mk replicas' rest' =>
        simp only [hnext] at h
        obtain ⟨rfl, rfl⟩ := Prod.mk.inj h
        obtain ⟨hperm, hle, hall⟩ := ih hlength hnext
        refine ⟨List.perm_middle.trans (hperm.cons position), hle, fun hlt ↦ ?_⟩
        rw [List.forall_mem_cons]
        exact ⟨List.mem_append_left _ htaken, hall hlt⟩
    · -- the position is chosen, and its block is taken from now on
      cases hnext : takeReplicas replication (position / 2 :: replicaBlocks) values with
      | mk replicas' rest' =>
        have hroom : (position / 2 :: replicaBlocks).length ≤ replication := by
          rw [List.length_cons]
          omega
        obtain ⟨hperm, hle, hall⟩ := ih hroom hnext
        simp only [hnext] at h
        obtain ⟨rfl, rfl⟩ := Prod.mk.inj h
        rw [List.length_cons] at hle hall
        refine ⟨hperm.cons position, by rw [List.length_cons]; omega, fun hlt ↦ ?_⟩
        rw [List.length_cons] at hlt
        have hall := hall (by omega)
        rw [List.forall_mem_cons, List.map_cons]
        refine ⟨List.mem_append_right _ List.mem_cons_self, fun other hother ↦ ?_⟩
        have hmem := hall other hother
        rw [List.cons_append, List.mem_cons] at hmem
        rw [List.mem_append, List.mem_cons]
        rw [List.mem_append] at hmem
        tauto

/-- The positions that are chosen are in different blocks, none of which was taken. -/
theorem takeReplicas_blocks {replication : Nat} {replicaBlocks values replicas rest : List Nat}
    (h : takeReplicas replication replicaBlocks values = (replicas, rest)) :
    (replicas.map (· / 2)).Nodup ∧ ∀ position ∈ replicas, position / 2 ∉ replicaBlocks := by
  induction values generalizing replicaBlocks replicas rest with
  | nil =>
    cases h
    exact ⟨List.nodup_nil, fun position hmem ↦ absurd hmem List.not_mem_nil⟩
  | cons position values ih =>
    have hpairs : coefficientPairs.length = 2 := rfl
    simp only [takeReplicas, hpairs] at h
    split_ifs at h with hfull htaken
    · cases h
      exact ⟨List.nodup_nil, fun position hmem ↦ absurd hmem List.not_mem_nil⟩
    · cases hnext : takeReplicas replication replicaBlocks values with
      | mk replicas' rest' =>
        simp only [hnext] at h
        obtain ⟨rfl, rfl⟩ := Prod.mk.inj h
        exact ih hnext
    · cases hnext : takeReplicas replication (position / 2 :: replicaBlocks) values with
      | mk replicas' rest' =>
        simp only [hnext] at h
        obtain ⟨rfl, rfl⟩ := Prod.mk.inj h
        obtain ⟨hnodup, houtside⟩ := ih hnext
        rw [List.map_cons, List.nodup_cons, List.forall_mem_cons]
        refine ⟨⟨fun hmem ↦ ?_, hnodup⟩, htaken, fun other hother ↦ ?_⟩
        · obtain ⟨other, hother, heq⟩ := List.mem_map.mp hmem
          exact houtside other hother (heq ▸ List.mem_cons_self)
        · exact fun hmem ↦ houtside other hother (List.mem_cons_of_mem _ hmem)

/-- Two coefficient pairs a block: the positions in some blocks are at most twice as many. -/
theorem length_le_of_blocks {values blocks : List Nat} (hnodup : values.Nodup)
    (hblocks : ∀ position ∈ values, position / 2 ∈ blocks) :
    values.length ≤ 2 * blocks.length := by
  have hsubset : values ⊆ blocks.flatMap fun block ↦ [2 * block, 2 * block + 1] := by
    intro position hposition
    refine List.mem_flatMap.mpr ⟨position / 2, hblocks position hposition, ?_⟩
    rw [List.mem_pair]
    omega
  have hle := (List.subperm_of_subset hnodup hsubset).length_le
  rw [List.length_flatMap] at hle
  simpa [Nat.mul_comm] using hle

/-- Enough distinct positions are enough for the replicas of one bit. -/
theorem takeReplicas_length {replication : Nat} {values replicas rest : List Nat}
    (hnodup : values.Nodup) (hcount : 2 * replication ≤ values.length + 1)
    (h : takeReplicas replication [] values = (replicas, rest)) :
    replicas.length = replication ∧ (replicas ++ rest).Perm values := by
  obtain ⟨hperm, hle, hall⟩ := takeReplicas_spec (Nat.zero_le replication) h
  rw [List.length_nil, Nat.zero_add] at hle hall
  refine ⟨?_, hperm⟩
  by_contra hne
  have hblocks := length_le_of_blocks hnodup (hall (lt_of_le_of_ne hle hne))
  rw [List.nil_append, List.length_map] at hblocks
  omega

/-- The positions of all bits are distinct values, the same number for every bit, and those of one
bit are in different blocks. -/
theorem selectPositions_spec {replication bits : Nat} {values : List Nat} (hnodup : values.Nodup)
    (hcount : replication * bits + replication ≤ values.length + 1) :
    ∃ selected, selectPositions replication bits values = .ok selected ∧
      selected.length = replication * bits ∧ selected.Subperm values ∧
      ∀ bit < bits, (((selected.drop (replication * bit)).take replication).map (· / 2)).Nodup := by
  induction bits generalizing values with
  | zero => exact ⟨[], rfl, rfl, List.nil_subperm, fun bit hbit ↦ absurd hbit (Nat.not_lt_zero bit)⟩
  | succ bits ih =>
    rw [Nat.mul_add_one] at hcount
    cases hnext : takeReplicas replication [] values with
    | mk replicas rest =>
      obtain ⟨hlength, hperm⟩ := takeReplicas_length hnodup (by omega) hnext
      have hsum := hperm.length_eq
      rw [List.length_append, hlength] at hsum
      have hrest : rest.Nodup := (hperm.nodup_iff.mpr hnodup).of_append_right
      obtain ⟨selected, hselected, hselectedLength, hsubperm, hblocks⟩ := ih hrest (by omega)
      refine ⟨replicas ++ selected, ?_, ?_, ?_, ?_⟩
      · rw [selectPositions, hnext]
        show (raiseIf _ _ >>= fun _ ↦ selectPositions replication bits rest >>= _) = _
        rw [raiseIf_neg (not_not.mpr hlength), ok_bind, hselected, ok_bind]
        rfl
      · rw [List.length_append, hlength, hselectedLength, Nat.mul_add_one, Nat.add_comm]
      · exact ((List.subperm_append_left replicas).mpr hsubperm).trans hperm.subperm
      · intro bit hbit
        cases bit with
        | zero =>
          rw [Nat.mul_zero, List.drop_zero, List.take_left' hlength]
          exact (takeReplicas_blocks hnext).1
        | succ bit =>
          rw [Nat.mul_add_one, Nat.add_comm, ← List.drop_drop, List.drop_left' hlength]
          exact hblocks bit (Nat.lt_of_succ_lt_succ hbit)

/-! ## 2. Valid profiles -/

section Valid

variable {K : Type} [Field K] [LinearOrder K]

/-- A profile of the second version. -/
structure ValidV2Profile (profile : CodecProfile K) : Prop where
  schemaVersion : profile.schemaVersion = 2
  tileSizePx_pos : 0 < profile.tileSizePx
  tileSizePx_dvd : profile.tileSizePx % 16 = 0
  bitReplication : profile.bitReplication = 3
  bitConfidenceMin : profile.bitConfidenceMin = 3 / 5
  qimDelta_pos : 0 < profile.qimDelta
  identifier : candidateIdentifierV2 profile = .ok ()

theorem validateProfile_eq_ok {profile : CodecProfile K} :
    validateProfile profile = .ok () ↔ ValidV2Profile profile := by
  simp only [validateProfile, bind_eq_ok, exists_unit, raiseIf_eq_ok, not_not, not_or, not_le,
    ne_eq]
  constructor
  · rintro ⟨hschema, ⟨hpos, hdvd⟩, hreplication, hconfidence, hdelta, hidentifier⟩
    exact ⟨hschema, hpos, hdvd, hreplication, hconfidence, hdelta, hidentifier⟩
  · intro h
    exact ⟨h.schemaVersion, ⟨h.tileSizePx_pos, h.tileSizePx_dvd⟩, h.bitReplication,
      h.bitConfidenceMin, h.qimDelta_pos, h.identifier⟩

/-- A square of blocks that has room for all replicas has room to choose distinct blocks. -/
theorem room_of_capacity {edge : Nat} (h : 936 ≤ 2 * edge ^ 2) : 939 ≤ 2 * edge ^ 2 + 1 := by
  have hedge : 22 ≤ edge := by
    by_contra hlt
    have hle : edge ^ 2 ≤ 21 ^ 2 := Nat.pow_le_pow_left (by omega) 2
    omega
  have hle : 22 ^ 2 ≤ edge ^ 2 := Nat.pow_le_pow_left hedge 2
  omega

/-- The positions of a page are distinct positions of the tile, three for every bit. -/
structure Placement (profile : CodecProfile K) (positions : List Nat) : Prop where
  length : positions.length = 936
  nodup : positions.Nodup
  lt_capacity : ∀ position ∈ positions, position < capacity profile
  blocks : ∀ bit < 312, (((positions.drop (3 * bit)).take 3).map (· / 2)).Nodup

theorem selectedPositions_spec (keyed : KeyedShuffle K) {key : List UInt8} {pageIndex : Int}
    {profile : CodecProfile K} (hvalid : ValidV2Profile profile)
    (hbinding : validateBinding key pageIndex profile = .ok ())
    (hcapacity : 936 ≤ capacity profile) :
    ∃ positions, selectedPositions keyed key pageIndex profile = .ok positions ∧
      Placement profile positions := by
  have hperm := keyed.perm key pageIndex profile (List.range (capacity profile))
  set values := keyed.shuffle key pageIndex profile (List.range (capacity profile)) with hvalues
  have hnodup : values.Nodup := hperm.nodup_iff.mpr List.nodup_range
  have hlength : values.length = capacity profile := by rw [hperm.length_eq, List.length_range]
  have hcount : 3 * 312 + 3 ≤ values.length + 1 := by
    rw [hlength]
    exact room_of_capacity hcapacity
  obtain ⟨selected, hselected, hselectedLength, hsubperm, hblocks⟩ :=
    selectPositions_spec hnodup hcount
  refine ⟨selected, ?_, hselectedLength, ?_, ?_, hblocks⟩
  · have hrequired : ¬ capacity profile < codewordBytes * bitsPerByte * profile.bitReplication := by
      rw [hvalid.bitReplication]
      exact not_lt.mpr hcapacity
    rw [selectedPositions, hbinding, ok_bind]
    simp only [raiseIf_neg hrequired, ok_bind]
    rw [hvalid.bitReplication]
    exact hselected
  · obtain ⟨sublist, hsame, hsub⟩ := hsubperm
    exact hsame.nodup_iff.mp (hnodup.sublist hsub)
  · intro position hposition
    exact List.mem_range.mp (hperm.mem_iff.mp (hsubperm.subset hposition))

end Valid

/-! ## 3. Where positions lie -/

section Layout

variable {K : Type} {profile : CodecProfile K}

/-- The coefficients a position uses. -/
def PositionComponents.coordinates (components : PositionComponents) : List (Fin 8 × Fin 8) :=
  [components.first, components.second]

/-- The blocks of two positions do not meet, or they are one block used at different
coefficients. -/
def PositionComponents.Apart (c d : PositionComponents) : Prop :=
  ((d.y + 8 ≤ c.y ∨ c.y + 8 ≤ d.y) ∨ d.x + 8 ≤ c.x ∨ c.x + 8 ≤ d.x) ∨
    (d.y = c.y ∧ d.x = c.x) ∧ ∀ coordinate ∈ d.coordinates, coordinate ∉ c.coordinates

/-- The block of a position lies inside the band. -/
def PositionComponents.Inside (c : PositionComponents) (ll : Image K) : Prop :=
  c.y + 8 ≤ ll.height ∧ c.x + 8 ≤ ll.width

theorem coefficientPairs_ne : ∀ i : Fin 2,
    (coefficientPairs.get i).1 ≠ (coefficientPairs.get i).2 := by
  decide

theorem coefficientPairs_disjoint : ∀ i j : Fin 2, i ≠ j →
    ∀ coordinate ∈ [(coefficientPairs.get j).1, (coefficientPairs.get j).2],
      coordinate ∉ [(coefficientPairs.get i).1, (coefficientPairs.get i).2] := by
  decide

theorem positionComponents_first_ne_second (position : Nat) :
    (positionComponents position profile).first ≠ (positionComponents position profile).second :=
  coefficientPairs_ne ⟨position % 2, Nat.mod_lt position two_pos⟩

/-- The upper left corner of the block of a position. -/
def PositionComponents.corner (components : PositionComponents) : Nat × Nat :=
  (components.y, components.x)

/-- A block is determined by its row and its column. -/
theorem block_of_corner {position other : Nat}
    (h : (positionComponents other profile).corner = (positionComponents position profile).corner) :
    other / 2 = position / 2 := by
  set edge := profile.tileSizePx / 16 with hedge
  have hcorner : ∀ p, (positionComponents p profile).corner =
      (p / 2 / edge * 8, p / 2 % edge * 8) := fun _ ↦ rfl
  rw [hcorner, hcorner, Prod.mk.injEq] at h
  have hposition := Nat.div_add_mod (position / 2) edge
  have hother := Nat.div_add_mod (other / 2) edge
  have hrow : other / 2 / edge = position / 2 / edge := by omega
  rw [hrow] at hother
  omega

theorem positionComponents_apart {position other : Nat} (hne : other ≠ position) :
    (positionComponents position profile).Apart (positionComponents other profile) := by
  set edge := profile.tileSizePx / 16 with hedge
  have hy : ∀ p, (positionComponents p profile).y = p / 2 / edge * 8 := fun _ ↦ rfl
  have hx : ∀ p, (positionComponents p profile).x = p / 2 % edge * 8 := fun _ ↦ rfl
  rw [PositionComponents.Apart, hy, hx, hy, hx]
  by_cases hblock : other / 2 = position / 2
  · right
    rw [hblock]
    refine ⟨⟨rfl, rfl⟩, ?_⟩
    have hpair : (⟨position % 2, Nat.mod_lt position two_pos⟩ : Fin 2) ≠
        ⟨other % 2, Nat.mod_lt other two_pos⟩ := by
      rw [ne_eq, Fin.mk.injEq]
      omega
    exact coefficientPairs_disjoint _ _ hpair
  · left
    have hcorner : ¬ ((positionComponents other profile).corner =
        (positionComponents position profile).corner) := fun h ↦ hblock (block_of_corner h)
    rw [PositionComponents.corner, PositionComponents.corner, Prod.mk.injEq, hy, hx, hy, hx]
      at hcorner
    omega

/-- The positions within the capacity lie inside the low band of the tile. -/
theorem positionComponents_inside {position edge : Nat} {ll : Image K}
    (htile : profile.tileSizePx = 16 * edge) (hshape : (ll.height, ll.width) = (8 * edge, 8 * edge))
    (hposition : position < capacity profile) :
    (positionComponents position profile).Inside ll := by
  obtain ⟨hheight, hwidth⟩ := Prod.mk.inj hshape
  have hedge : profile.tileSizePx / 16 = edge := by omega
  rw [capacity, hedge, pow_two] at hposition
  have hpos : 0 < edge := by
    by_contra hzero
    rw [Nat.eq_zero_of_not_pos hzero] at hposition
    exact absurd hposition (Nat.not_lt_zero position)
  have hrow : position / 2 / edge < edge := by
    rw [Nat.div_lt_iff_lt_mul hpos]
    omega
  have hcolumn : position / 2 % edge < edge := Nat.mod_lt _ hpos
  show position / 2 / (profile.tileSizePx / 16) * 8 + 8 ≤ ll.height ∧
    position / 2 % (profile.tileSizePx / 16) * 8 + 8 ≤ ll.width
  rw [hedge, hheight, hwidth]
  omega

/-- **Selection.**  Where the tile has room for all replicas the selection does not fail: the
positions are distinct ones of the tile, the replicas of a bit lie in different blocks, and every
block lies inside the low band. -/
theorem selectedPositions_placed {K : Type} [Field K] [LinearOrder K] (keyed : KeyedShuffle K)
    {key : List UInt8} {pageIndex : Int} {profile : CodecProfile K}
    (hbinding : validateBinding key pageIndex profile = .ok ())
    (hcapacity : codewordBytes * bitsPerByte * profile.bitReplication ≤ capacity profile) :
    ∃ positions, selectedPositions keyed key pageIndex profile = .ok positions ∧
      positions.length = 936 ∧ positions.Nodup ∧
      (∀ position ∈ positions, position < capacity profile) ∧
      (∀ bit < codewordBytes * bitsPerByte, (((positions.drop (3 * bit)).take 3).map fun position ↦
        (positionComponents position profile).corner).Nodup) ∧
      ∀ position ∈ positions,
        (positionComponents position profile).y + 8 ≤ profile.tileSizePx / 2 ∧
        (positionComponents position profile).x + 8 ≤ profile.tileSizePx / 2 := by
  have hvalid : ValidV2Profile profile := by
    simp only [validateBinding, bind_eq_ok, exists_unit] at hbinding
    exact validateProfile_eq_ok.mp hbinding.2.2
  rw [hvalid.bitReplication] at hcapacity
  obtain ⟨positions, hpositions, hplacement⟩ :=
    selectedPositions_spec keyed hvalid hbinding hcapacity
  refine ⟨positions, hpositions, hplacement.length, hplacement.nodup, hplacement.lt_capacity, ?_,
    ?_⟩
  · intro bit hbit
    refine List.Nodup.map_on ?_ (List.Nodup.of_map _ (hplacement.blocks bit hbit))
    intro other hother position hposition hcorner
    exact List.inj_on_of_nodup_map (hplacement.blocks bit hbit) hother hposition
      (block_of_corner hcorner)
  · intro position hposition
    obtain ⟨edge, hedge⟩ : ∃ edge, profile.tileSizePx = 16 * edge :=
      ⟨profile.tileSizePx / 16, by have h := hvalid.tileSizePx_dvd; omega⟩
    have hhalf : profile.tileSizePx / 2 = 8 * edge := by omega
    have hinside : (positionComponents position profile).Inside
        (⟨8 * edge, 8 * edge, fun _ _ ↦ (0 : K)⟩ : Image K) :=
      positionComponents_inside hedge rfl (hplacement.lt_capacity position hposition)
    rw [hhalf]
    exact hinside

def sampleCodecProfile : CodecProfile ℚ where
  schemaVersion := 2
  contractSha256 := List.replicate 32 0
  qimDelta := 24
  tileSizePx := 352
  tilesPerPage := 5
  payloadRepetitions := 3
  bitReplication := 3
  bitConfidenceMin := 3 / 5

/-- The smallest tile with enough room, under the shuffle that changes nothing. -/
theorem selectedPositions_sample :
    validateBinding [1] 0 sampleCodecProfile = .ok () ∧
    ∃ positions, selectedPositions ⟨fun _ _ _ values ↦ values, fun _ _ _ _ ↦ List.Perm.refl _⟩
        [1] 0 sampleCodecProfile = .ok positions ∧
      positions.length = 936 := by
  have hbinding : validateBinding [1] 0 sampleCodecProfile = .ok () := by decide +kernel
  obtain ⟨positions, hpositions, hlength, -⟩ :=
    selectedPositions_placed ⟨fun _ _ _ values ↦ values, fun _ _ _ _ ↦ List.Perm.refl _⟩ hbinding
      (by decide)
  exact ⟨hbinding, positions, hpositions, hlength⟩

end Layout

/-! ## 4. What a position carries -/

section Replicas

variable {K : Type} [Field K] [LinearOrder K] [IsStrictOrderedRing K] [FloorRing K]
variable (numerics : Numerics K) {profile : CodecProfile K}

/-- The difference of the coefficients of a position. -/
def pairDifference (profile : CodecProfile K) (ll : Image K) (position : Nat) : K :=
  let c := positionComponents position profile
  let coefficients := numerics.dct2 (ll.window c.y c.x)
  coefficients.get c.first - coefficients.get c.second

/-- The difference is a multiple of the step whose parity is the bit. -/
def Carries (profile : CodecProfile K) (ll : Image K) (bit : Int) (position : Nat) : Prop :=
  ∃ target : Int, pairDifference numerics profile ll position = target * profile.qimDelta ∧
    target % 2 = bit

omit [IsStrictOrderedRing K] in
/-- What one write does to the band: its own position carries the bit, and the difference at every
other one stays. -/
theorem embedBit_spec {ll : Image K} {bit : Int} {position : Nat} (hdelta : 0 < profile.qimDelta)
    (hbit : bit = 0 ∨ bit = 1) (hinside : (positionComponents position profile).Inside ll) :
    ∃ ll', embedBit numerics profile ll bit position = .ok ll' ∧
      (ll'.height, ll'.width) = (ll.height, ll.width) ∧ Carries numerics profile ll' bit position ∧
      ∀ other, other ≠ position →
        pairDifference numerics profile ll' other = pairDifference numerics profile ll other := by
  set c := positionComponents position profile with hc
  set coefficients := numerics.dct2 (ll.window c.y c.x) with hcoefficients
  obtain ⟨⟨a, b⟩, hpair, target, hdifference, hparity⟩ :=
    qimEmbedPair_spec (a := coefficients.get c.first) (b := coefficients.get c.second) hdelta hbit
  set written := (coefficients.set c.first a).set c.second b with hwritten
  have hread : numerics.dct2 ((ll.setBlock c.y c.x (numerics.idct2 written)).window c.y c.x) =
      written := by
    rw [Image.window_setBlock_self, numerics.dct2_idct2]
  refine ⟨ll.setBlock c.y c.x (numerics.idct2 written), ?_, rfl, ⟨target, ?_, hparity⟩, ?_⟩
  · rw [embedBit, ← hc]
    simp only [Image.block_eq hinside.1 hinside.2, ok_bind, ← hcoefficients, hpair]
    rfl
  · have hne : c.first ≠ c.second := positionComponents_first_ne_second position
    simp only [pairDifference, ← hc, hread]
    rw [hwritten, Block.get_set_of_ne hne, Block.get_set_self, Block.get_set_self]
    exact hdifference
  · intro other hother
    have hapart : c.Apart (positionComponents other profile) := positionComponents_apart hother
    set d := positionComponents other profile with hd
    simp only [pairDifference, ← hd]
    rcases hapart with hdisjoint | ⟨⟨hy, hx⟩, hcoordinates⟩
    · -- another block, which is not written
      rw [Image.window_setBlock_of_disjoint ll _ hdisjoint]
    · -- the same block, at coefficients that are not written
      have hkept : ∀ coordinate ∈ d.coordinates,
          written.get coordinate = coefficients.get coordinate := by
        intro coordinate hmem
        have hout := hcoordinates coordinate hmem
        rw [PositionComponents.coordinates, List.mem_pair, not_or] at hout
        rw [hwritten, Block.get_set_of_ne hout.2, Block.get_set_of_ne hout.1]
      rw [hy, hx, hread, ← hcoefficients, hkept d.first List.mem_cons_self,
        hkept d.second (List.mem_cons_of_mem _ List.mem_cons_self)]

omit [IsStrictOrderedRing K] in
/-- After all writes every position carries its bit. -/
theorem embedBits_spec {ll : Image K} {replicas : List (Int × Nat)} (hdelta : 0 < profile.qimDelta)
    (hbits : ∀ replica ∈ replicas, replica.1 = 0 ∨ replica.1 = 1)
    (hinside : ∀ replica ∈ replicas, (positionComponents replica.2 profile).Inside ll)
    (hnodup : (replicas.map Prod.snd).Nodup) :
    ∃ ll', embedBits numerics profile ll replicas = .ok ll' ∧
      (ll'.height, ll'.width) = (ll.height, ll.width) ∧
      (∀ replica ∈ replicas, Carries numerics profile ll' replica.1 replica.2) ∧
      ∀ other ∉ replicas.map Prod.snd,
        pairDifference numerics profile ll' other = pairDifference numerics profile ll other := by
  induction replicas generalizing ll with
  | nil =>
    exact ⟨ll, rfl, rfl, fun replica hmem ↦ absurd hmem List.not_mem_nil, fun _ _ ↦ rfl⟩
  | cons replica replicas ih =>
    rw [List.forall_mem_cons] at hbits hinside
    rw [List.map_cons, List.nodup_cons] at hnodup
    obtain ⟨first, hfirst, hshape, hcarries, hkept⟩ :=
      embedBit_spec numerics hdelta hbits.1 hinside.1
    have hinside' : ∀ replica ∈ replicas, (positionComponents replica.2 profile).Inside first := by
      intro other hother
      obtain ⟨hheight, hwidth⟩ := Prod.mk.inj hshape
      rw [PositionComponents.Inside, hheight, hwidth]
      exact hinside.2 other hother
    obtain ⟨last, hlast, hshape', hcarries', hkept'⟩ := ih hbits.2 hinside' hnodup.2
    refine ⟨last, ?_, hshape'.trans hshape, ?_, ?_⟩
    · rw [embedBits, hfirst, ok_bind, hlast]
    · rw [List.forall_mem_cons]
      refine ⟨?_, hcarries'⟩
      -- the later writes go to other positions
      rw [Carries, hkept' _ hnodup.1]
      exact hcarries
    · intro other hother
      rw [List.map_cons, List.mem_cons, not_or] at hother
      rw [hkept' other hother.2, hkept other hother.1]

/-- A position that carries a bit is read without doubt. -/
theorem extractReplica_eq {ll : Image K} {bit : Int} {position : Nat} (hdelta : 0 < profile.qimDelta)
    (hinside : (positionComponents position profile).Inside ll)
    (hcarries : Carries numerics profile ll bit position) :
    extractReplica numerics profile ll position = .ok ⟨bit, 1⟩ := by
  obtain ⟨target, hdifference, hparity⟩ := hcarries
  simp only [extractReplica, Image.block_eq hinside.1 hinside.2, ok_bind,
    qimExtractPair_eq hdelta hdifference, hparity]
  rfl

/-- The replicas read from a band that carries them. -/
theorem extractReplicas_eq {ll : Image K} {bits : List Int} {positions : List Nat}
    (hlength : bits.length = positions.length) (hdelta : 0 < profile.qimDelta)
    (hinside : ∀ position ∈ positions, (positionComponents position profile).Inside ll)
    (hcarries : ∀ replica ∈ bits.zip positions, Carries numerics profile ll replica.1 replica.2) :
    positions.mapM (extractReplica numerics profile ll) = .ok (bits.map fun bit ↦ ⟨bit, 1⟩) := by
  have hread : ∀ replica ∈ bits.zip positions,
      (extractReplica numerics profile ll ∘ Prod.snd) replica = .ok ⟨replica.1, 1⟩ := by
    intro replica hmem
    exact extractReplica_eq numerics hdelta (hinside _ (List.of_mem_zip hmem).2)
      (hcarries replica hmem)
  have hpositions : positions = (bits.zip positions).map Prod.snd :=
    (List.map_snd_zip hlength.ge).symm
  have hbits : bits = (bits.zip positions).map Prod.fst := (List.map_fst_zip hlength.le).symm
  conv_lhs => rw [hpositions, List.mapM_map]
  rw [mapM_eq_map hread]
  conv_rhs => rw [hbits, List.map_map]
  rfl

end Replicas

/-! ## 5. The vote -/

section Vote

variable {K : Type} [Field K] [LinearOrder K] [IsStrictOrderedRing K]

/-- The replicas of a bit are next to each other. -/
theorem take_drop_replicas {n index : Nat} {bits : List Int} {bit : Int}
    (h : bits[index]? = some bit) :
    ((bits.flatMap (List.replicate n)).drop (index * n)).take n = List.replicate n bit := by
  induction bits generalizing index with
  | nil => exact absurd h (by simp)
  | cons head bits ih =>
    rw [List.flatMap_cons]
    cases index with
    | zero =>
      cases h
      rw [Nat.zero_mul, List.drop_zero, List.take_append_of_le_length (by simp),
        List.take_of_length_le (by simp)]
    | succ index =>
      rw [Nat.succ_mul, Nat.add_comm, ← List.drop_drop, List.drop_left' (by simp)]
      exact ih h

omit [LinearOrder K] [IsStrictOrderedRing K] in
/-- Replicas that agree weigh their number for their bit and nothing for the other one. -/
theorem weight_replicate (n : Nat) (bit other : Int) :
    weight (List.replicate n (⟨bit, 1⟩ : Replica K)) other = if bit = other then (n : K) else 0 := by
  rw [weight, List.filter_replicate]
  split_ifs <;> simp_all

theorem length_replicas (n : Nat) (bits : List Int) :
    (bits.flatMap (List.replicate n)).length = n * bits.length := by
  induction bits with
  | nil => rfl
  | cons bit bits ih =>
    rw [List.flatMap_cons, List.length_append, List.length_replicate, ih, List.length_cons,
      Nat.mul_add_one, Nat.add_comm]

/-- A unanimous vote recovers its bit, with full confidence. -/
theorem tallyBit_eq {profile : CodecProfile K} {replicas : List (Replica K)}
    {tally : Tally K} {index : Nat} {bit : Int} (hvalid : ValidV2Profile profile)
    (hbit : bit = 0 ∨ bit = 1)
    (hvalues : (replicas.drop (index * 3)).take 3 = List.replicate 3 ⟨bit, 1⟩) :
    (tallyBit profile replicas tally index).recoveredBits = tally.recoveredBits ++ [bit] ∧
      (tallyBit profile replicas tally index).erasures = tally.erasures ∧
      (tallyBit profile replicas tally index).confidenceSum = tally.confidenceSum + 1 := by
  have hthree : (0 : K) < 3 := by norm_num
  have hthreshold : ¬ (1 : K) < 3 / 5 := by norm_num
  have hzero : weight (List.replicate 3 (⟨bit, 1⟩ : Replica K)) 0 = if bit = 0 then 3 else 0 := by
    rw [weight_replicate]
    norm_num
  have hone : weight (List.replicate 3 (⟨bit, 1⟩ : Replica K)) 1 = if bit = 1 then 3 else 0 := by
    rw [weight_replicate]
    norm_num
  simp only [tallyBit, hvalid.bitReplication, hvalid.bitConfidenceMin, hvalues, hzero, hone]
  rcases hbit with rfl | rfl
  · simp [hthree.le, hthree.not_gt, hthreshold]
  · simp [hthree.le, hthree, hthreshold]

/-- After a number of bits, these are recovered, and no vote was in doubt. -/
theorem tally_eq {profile : CodecProfile K} {bits : List Int} {n : Nat}
    (hvalid : ValidV2Profile profile) (hbits : ∀ bit ∈ bits, bit = 0 ∨ bit = 1)
    (hn : n ≤ bits.length) :
    let replicas := (bits.flatMap (List.replicate 3)).map fun bit ↦ (⟨bit, 1⟩ : Replica K)
    let tally := (List.range n).foldl (tallyBit profile replicas) Tally.empty
    tally.recoveredBits = bits.take n ∧ tally.erasures = ∅ ∧ tally.confidenceSum = n := by
  intro replicas
  induction n with
  | zero => exact ⟨rfl, rfl, Nat.cast_zero.symm⟩
  | succ n ih =>
    intro tally
    obtain ⟨hrecovered, herasures, hsum⟩ := ih (Nat.le_of_succ_le hn)
    have hbit : bits[n]? = some bits[n] := List.getElem?_eq_getElem hn
    have hvalues : (replicas.drop (n * 3)).take 3 = List.replicate 3 ⟨bits[n], 1⟩ := by
      rw [← List.map_drop, ← List.map_take, take_drop_replicas hbit, List.map_replicate]
    set before := (List.range n).foldl (tallyBit profile replicas) Tally.empty with hbefore
    have htally : tally = tallyBit profile replicas before n := by
      show (List.range (n + 1)).foldl _ _ = _
      rw [List.range_succ, List.foldl_concat]
    have hturn : (tallyBit profile replicas before n).recoveredBits =
          before.recoveredBits ++ [bits[n]] ∧
        (tallyBit profile replicas before n).erasures = before.erasures ∧
        (tallyBit profile replicas before n).confidenceSum = before.confidenceSum + 1 :=
      tallyBit_eq hvalid (hbits _ (List.getElem_mem hn)) hvalues
    rw [htally, hturn.1, hrecovered, hturn.2.1, herasures, hturn.2.2, hsum]
    exact ⟨List.take_concat_get' _ _ _, rfl, (Nat.cast_succ n).symm⟩

/-- The evidence of a tally without doubt. -/
theorem Tally.evidence_spec {tally : Tally K} {codeword : List UInt8} {replicaCount : Nat}
    (hrecovered : tally.recoveredBits = PackedBits.unpack codeword)
    (herasures : tally.erasures = ∅) (hsum : tally.confidenceSum = (312 : Nat)) :
    (tally.evidence replicaCount).codeword = codeword ∧
      (tally.evidence replicaCount).erasePositions = [] ∧
      (tally.evidence replicaCount).meanConfidence = 1 := by
  have hcount : ((codewordBytes * bitsPerByte : Nat) : K) ≠ 0 := by
    rw [show codewordBytes * bitsPerByte = 312 from rfl]
    norm_num
  refine ⟨?_, ?_, ?_⟩
  · show PackedBits.pack tally.recoveredBits = codeword
    rw [hrecovered, PackedBits.pack_unpack]
  · show tally.erasures.sort (· ≤ ·) = []
    rw [herasures, Finset.sort_empty]
  · show tally.confidenceSum / (codewordBytes * bitsPerByte : Nat) = 1
    rw [hsum]
    exact div_self hcount

end Vote

/-! ## 6. The round trip -/

section RoundTrip

variable {K : Type} [Field K] [LinearOrder K] [IsStrictOrderedRing K] [FloorRing K]
variable (numerics : Numerics K) (keyed : KeyedShuffle K)

/-- What the codec checks before it chooses positions, and the room it needs for them. -/
structure CodecInputs (tile : Image K) (codeword key : List UInt8) (pageIndex : Int)
    (profile : CodecProfile K) : Prop where
  valid : ValidV2Profile profile
  shape : (tile.height, tile.width) = (profile.tileSizePx, profile.tileSizePx)
  codeword : codeword.length = 39
  binding : validateBinding key pageIndex profile = .ok ()
  capacity : 936 ≤ capacity profile

omit [IsStrictOrderedRing K] [FloorRing K] in
theorem validateTile_eq_ok {tile tile' : Image K} {profile : CodecProfile K} :
    validateTile tile profile = .ok tile' ↔ ValidV2Profile profile ∧
      (tile.height, tile.width) = (profile.tileSizePx, profile.tileSizePx) ∧ tile = tile' := by
  simp only [validateTile, bind_eq_ok, exists_unit, raiseIf_eq_ok, pure_eq_ok, not_not, ne_eq]
  exact and_congr_left fun _ ↦ validateProfile_eq_ok

omit [IsStrictOrderedRing K] in
/-- The codec checks all its inputs. -/
theorem codecInputs_of_embed {tile embedded : Image K} {codeword key : List UInt8}
    {pageIndex : Int} {profile : CodecProfile K}
    (h : embedCodewordV2 numerics keyed tile codeword key pageIndex profile = .ok embedded) :
    CodecInputs tile codeword key pageIndex profile := by
  simp only [embedCodewordV2, bind_eq_ok, exists_unit] at h
  obtain ⟨_, htile, hcodeword, hbinding, positions, hpositions, -⟩ := h
  obtain ⟨hvalid, hshape, -⟩ := validateTile_eq_ok.mp htile
  refine ⟨hvalid, hshape, not_not.mp ((raiseIf_eq_ok _ _ _).mp hcodeword), hbinding, ?_⟩
  simp only [selectedPositions, bind_eq_ok, exists_unit, raiseIf_eq_ok, not_lt] at hpositions
  have hrequired := hpositions.2.1
  rwa [hvalid.bitReplication] at hrequired

/-- The band of a tile carries the replicas of a codeword at positions. -/
def CarriesCodeword (profile : CodecProfile K) (tile : Image K) (codeword : List UInt8)
    (positions : List Nat) : Prop :=
  ∀ replica ∈ ((PackedBits.unpack codeword).flatMap (List.replicate 3)).zip positions,
    Carries numerics profile (haarDwt2 numerics tile).ll replica.1 replica.2

theorem replica_bit {codeword : List UInt8} {bit : Int}
    (h : bit ∈ (PackedBits.unpack codeword).flatMap (List.replicate 3)) : bit = 0 ∨ bit = 1 := by
  obtain ⟨source, hsource, hcopy⟩ := List.mem_flatMap.mp h
  rw [List.eq_of_mem_replicate hcopy]
  exact PackedBits.unpack_bit hsource

omit [IsStrictOrderedRing K] [FloorRing K] in
/-- Two halvings of the edge of a tile: its low band, and the blocks of that. -/
theorem ValidV2Profile.edge {profile : CodecProfile K} (h : ValidV2Profile profile) :
    ∃ edge, 0 < edge ∧ profile.tileSizePx = 16 * edge := by
  have hpos := h.tileSizePx_pos
  have hdvd := h.tileSizePx_dvd
  exact ⟨profile.tileSizePx / 16, by omega, by omega⟩

omit [IsStrictOrderedRing K] in
/-- Inputs that pass the checks are embedded, in a tile of the same shape. -/
theorem embedCodewordV2_spec {tile : Image K} {codeword key : List UInt8} {pageIndex : Int}
    {profile : CodecProfile K} {positions : List Nat}
    (h : CodecInputs tile codeword key pageIndex profile)
    (hpositions : selectedPositions keyed key pageIndex profile = .ok positions)
    (hplacement : Placement profile positions) :
    ∃ embedded, embedCodewordV2 numerics keyed tile codeword key pageIndex profile = .ok embedded ∧
      (embedded.height, embedded.width) = (profile.tileSizePx, profile.tileSizePx) ∧
      CarriesCodeword numerics profile embedded codeword positions := by
  obtain ⟨edge, hedge, htile⟩ := h.valid.edge
  have htwice : profile.tileSizePx = 2 * (8 * edge) := by omega
  set replicated := (PackedBits.unpack codeword).flatMap (List.replicate 3) with hreplicated
  have hlength : replicated.length = positions.length := by
    rw [hreplicated, length_replicas, PackedBits.length_unpack, h.codeword, hplacement.length]
  have hshaped : (haarDwt2 numerics tile).Shaped (8 * edge) (8 * edge) :=
    haarDwt2_shaped numerics (by rw [h.shape, htwice])
  set bands := haarDwt2 numerics tile with hbands
  -- what the embedding of bits asks for: bits, positions in the band, no position twice
  have hbits : ∀ replica ∈ replicated.zip positions, replica.1 = 0 ∨ replica.1 = 1 :=
    fun replica hmem ↦ replica_bit (List.of_mem_zip hmem).1
  have hinside : ∀ replica ∈ replicated.zip positions,
      (positionComponents replica.2 profile).Inside bands.ll :=
    fun replica hmem ↦ positionComponents_inside htile hshaped.ll
      (hplacement.lt_capacity _ (List.of_mem_zip hmem).2)
  have hnodup : ((replicated.zip positions).map Prod.snd).Nodup := by
    rw [List.map_snd_zip hlength.ge]
    exact hplacement.nodup
  obtain ⟨ll, hll, hllShape, hcarries, -⟩ :=
    embedBits_spec numerics h.valid.qimDelta_pos hbits hinside hnodup
  have hwritten : ({ bands with ll := ll } : Bands K).Shaped (8 * edge) (8 * edge) :=
    ⟨hllShape.trans hshaped.ll, hshaped.lh, hshaped.hl, hshaped.hh, hshaped.originalShape⟩
  refine ⟨⟨2 * (8 * edge), 2 * (8 * edge), haarRestored numerics { bands with ll := ll }⟩, ?_, ?_,
    ?_⟩
  · have htileValid : validateTile tile profile = .ok tile :=
      validateTile_eq_ok.mpr ⟨h.valid, h.shape, rfl⟩
    have hcodeword : validateCodeword codeword = .ok () :=
      raiseIf_neg (not_not.mpr h.codeword) _
    rw [embedCodewordV2, htileValid, ok_bind, hcodeword, ok_bind, h.binding, ok_bind]
    simp only [hpositions, ok_bind, h.valid.bitReplication, ← hreplicated,
      raiseIf_neg (not_not.mpr hlength), ← hbands, hll]
    exact haarIdwt2_eq numerics hwritten (by omega) (by omega)
  · rw [htwice]
  · rw [CarriesCodeword, haarDwt2_restored numerics hwritten]
    exact hcarries

/-- A tile that carries a codeword gives it back. -/
theorem extractCodewordV2_spec {tile : Image K} {codeword key : List UInt8} {pageIndex : Int}
    {profile : CodecProfile K} {positions : List Nat} (hvalid : ValidV2Profile profile)
    (hshape : (tile.height, tile.width) = (profile.tileSizePx, profile.tileSizePx))
    (hcodeword : codeword.length = 39)
    (hbinding : validateBinding key pageIndex profile = .ok ())
    (hpositions : selectedPositions keyed key pageIndex profile = .ok positions)
    (hplacement : Placement profile positions)
    (hcarries : CarriesCodeword numerics profile tile codeword positions) :
    ∃ evidence, extractCodewordV2 numerics keyed tile key pageIndex profile = .ok evidence ∧
      evidence.codeword = codeword ∧ evidence.erasePositions = [] ∧
      evidence.meanConfidence = 1 := by
  obtain ⟨edge, hedge, htile⟩ := hvalid.edge
  have htwice : profile.tileSizePx = 2 * (8 * edge) := by omega
  have hshaped : (haarDwt2 numerics tile).Shaped (8 * edge) (8 * edge) :=
    haarDwt2_shaped numerics (by rw [hshape, htwice])
  set bits := PackedBits.unpack codeword with hbits
  have hbitsLength : bits.length = 312 := by rw [hbits, PackedBits.length_unpack, hcodeword]
  set replicated := bits.flatMap (List.replicate 3) with hreplicated
  have hlength : replicated.length = positions.length := by
    rw [hreplicated, length_replicas, hbitsLength, hplacement.length]
  have hinside : ∀ position ∈ positions,
      (positionComponents position profile).Inside (haarDwt2 numerics tile).ll :=
    fun position hmem ↦ positionComponents_inside htile hshaped.ll
      (hplacement.lt_capacity position hmem)
  have hreplicas := extractReplicas_eq numerics hlength hvalid.qimDelta_pos hinside hcarries
  obtain ⟨hrecovered, herasures, hsum⟩ := tally_eq (n := 312) hvalid
    (fun bit hmem ↦ PackedBits.unpack_bit hmem) hbitsLength.ge
  have htileValid : validateTile tile profile = .ok tile :=
    validateTile_eq_ok.mpr ⟨hvalid, hshape, rfl⟩
  set replicas := replicated.map fun bit ↦ (⟨bit, 1⟩ : Replica K)
  set tally := (List.range 312).foldl (tallyBit profile replicas) Tally.empty
  refine ⟨tally.evidence replicas.length, ?_, ?_⟩
  · have hcount : codewordBytes * bitsPerByte = 312 := rfl
    simp only [extractCodewordV2, htileValid, hbinding, hpositions, hreplicas, ok_bind, hcount]
    rfl
  · refine Tally.evidence_spec ?_ herasures hsum
    rw [hrecovered, List.take_of_length_le hbitsLength.le]

end RoundTrip

/-! ## 7. Real luminance -/

theorem sqrtTwo_mul_sqrtTwo : √((2 : Nat) : ℝ) * √((2 : Nat) : ℝ) = 2 :=
  (Real.mul_self_sqrt (Nat.cast_nonneg 2)).trans Nat.cast_ofNat

theorem dct_apply_symm (dct : Block ℝ ≃ₗ[ℝ] Block ℝ) (block : Block ℝ) :
    dct (dct.symm block) = block :=
  dct.apply_symm_apply block

/-- The square root of two, and a linear transform of blocks with its inverse. -/
noncomputable def realNumerics (dct : Block ℝ ≃ₗ[ℝ] Block ℝ) : Numerics ℝ where
  sqrtTwo := √(2 : Nat)
  dct2 := dct
  idct2 := dct.symm
  sqrtTwo_mul_self := sqrtTwo_mul_sqrtTwo
  dct2_idct2 := dct_apply_symm dct

/-- **Round trip.**  Inputs that pass the checks are embedded exactly when the tile has room for
the replicas, and what was embedded is extracted, without erasures and with full confidence. -/
theorem extractCodewordV2_embedCodewordV2 (dct : Block ℝ ≃ₗ[ℝ] Block ℝ) (keyed : KeyedShuffle ℝ)
    (tile : Image ℝ) (codeword key : List UInt8) (pageIndex : Int)
    (profile : CodecProfile ℝ) :
    (validateTile tile profile = .ok tile → validateCodeword codeword = .ok () →
      validateBinding key pageIndex profile = .ok () →
      ((∃ embedded, embedCodewordV2 (realNumerics dct) keyed tile codeword key pageIndex profile =
        .ok embedded) ↔ codewordBytes * bitsPerByte * 3 ≤ capacity profile)) ∧
    ∀ embedded, embedCodewordV2 (realNumerics dct) keyed tile codeword key pageIndex profile =
        .ok embedded →
      ∃ evidence, extractCodewordV2 (realNumerics dct) keyed embedded key pageIndex profile =
          .ok evidence ∧
        evidence.codeword = codeword ∧ evidence.erasePositions = [] ∧
        evidence.meanConfidence = 1 := by
  constructor
  · intro htile hcodeword hbinding
    constructor
    · rintro ⟨embedded, h⟩
      exact (codecInputs_of_embed _ keyed h).capacity
    · intro hcapacity
      obtain ⟨hvalid, hshape, -⟩ := validateTile_eq_ok.mp htile
      have hlength := not_not.mp ((raiseIf_eq_ok _ _ _).mp hcodeword)
      have hinputs : CodecInputs tile codeword key pageIndex profile :=
        ⟨hvalid, hshape, hlength, hbinding, hcapacity⟩
      obtain ⟨positions, hpositions, hplacement⟩ :=
        selectedPositions_spec keyed hvalid hbinding hcapacity
      obtain ⟨embedded, h, -⟩ :=
        embedCodewordV2_spec (realNumerics dct) keyed hinputs hpositions hplacement
      exact ⟨embedded, h⟩
  · intro embedded h
    have hinputs := codecInputs_of_embed _ keyed h
    obtain ⟨positions, hpositions, hplacement⟩ :=
      selectedPositions_spec keyed hinputs.valid hinputs.binding hinputs.capacity
    obtain ⟨embedded', h', hshape, hcarries⟩ :=
      embedCodewordV2_spec (realNumerics dct) keyed hinputs hpositions hplacement
    rw [h] at h'
    cases h'
    exact extractCodewordV2_spec _ keyed hinputs.valid hshape hinputs.codeword hinputs.binding
      hpositions hplacement hcarries

end Splitbind
