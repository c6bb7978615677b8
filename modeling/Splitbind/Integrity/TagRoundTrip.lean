import Splitbind.Integrity.Tampering

/-!
# Tag round trip — what is embedded is verified

Every turn of the loops writes one tag into one set of coefficients of one region.  The sets of a
region are apart from each other and from the feature, and no replica writes a region twice; so a
written bit, and the feature, drift only by what rounding to samples moves.  As long as that stays
within the margins, the page that was embedded is verified in full.
-/

namespace Splitbind

open Transaction Replication

/-! ## 1. Coefficients of a square -/

section Coefficients

variable {K : Type} [Field K] {n : Nat} {position other : Int × Int}

theorem coefficientAt_set (hn : n = 128) (h : InRegion position) (coefficients : Square n K)
    (value : K) : coefficientAt (setCoefficient coefficients position value) position = value := by
  obtain ⟨⟨hrow, hrow'⟩, hcolumn, hcolumn'⟩ := h
  have hin : position.1.toNat < n ∧ position.2.toNat < n := by omega
  rw [coefficientAt, dif_pos hin]
  exact if_pos ⟨rfl, rfl⟩

theorem coefficientAt_set_of_ne (h : InRegion position) (hother : InRegion other)
    (hne : other ≠ position) (coefficients : Square n K) (value : K) :
    coefficientAt (setCoefficient coefficients position value) other =
      coefficientAt coefficients other := by
  unfold coefficientAt
  split_ifs with hin
  · refine if_neg fun hsame ↦ hne ?_
    exact (h.toNat_inj hother hsame.1 hsame.2).symm
  · rfl

variable [LinearOrder K] [FloorRing K]

/-- The loop over the bits moves each placed coefficient once, and no others. -/
theorem embedded_coefficients (hn : n = 128) (delta : K) (placed : List (Int × (Int × Int)))
    (hnodup : (placed.map Prod.snd).Nodup) (hin : ∀ row ∈ placed, InRegion row.2)
    (coefficients : Square n K) :
    (∀ row ∈ placed, coefficientAt (placed.foldl (embedRegionBit delta) coefficients) row.2 =
      latticeFor row.1 (coefficientAt coefficients row.2 / delta) * delta) ∧
    ∀ position, InRegion position → position ∉ placed.map Prod.snd →
      coefficientAt (placed.foldl (embedRegionBit delta) coefficients) position =
        coefficientAt coefficients position := by
  induction placed generalizing coefficients with
  | nil => exact ⟨fun _ hrow ↦ absurd hrow List.not_mem_nil, fun _ _ _ ↦ rfl⟩
  | cons first placed ih =>
    rw [List.map_cons, List.nodup_cons] at hnodup
    rw [List.forall_mem_cons] at hin
    obtain ⟨hplaced, hkept⟩ := ih hnodup.2 hin.2 (embedRegionBit delta coefficients first)
    have hset : coefficientAt (embedRegionBit delta coefficients first) first.2 =
        latticeFor first.1 (coefficientAt coefficients first.2 / delta) * delta :=
      coefficientAt_set hn hin.1 coefficients _
    have hother : ∀ position, InRegion position → position ≠ first.2 →
        coefficientAt (embedRegionBit delta coefficients first) position =
          coefficientAt coefficients position :=
      fun position hposition hne ↦ coefficientAt_set_of_ne hin.1 hposition hne coefficients _
    constructor
    · intro row hrow
      rw [List.foldl_cons]
      rcases List.mem_cons.mp hrow with rfl | hrest
      · -- the later bits are placed elsewhere
        rw [hkept row.2 hin.1 hnodup.1, hset]
      · rw [hplaced row hrest, hother row.2 (hin.2 row hrest) ?_]
        intro hsame
        exact hnodup.1 (hsame ▸ List.mem_map_of_mem hrest)
    · intro position hposition hout
      rw [List.map_cons, List.mem_cons, not_or] at hout
      rw [List.foldl_cons, hkept position hposition hout.2, hother position hposition hout.1]

theorem latticeFor_bit {bit : Int} (hbit : bit = 0 ∨ bit = 1) (scaled : K) :
    latticeFor bit scaled % 2 = bit := by
  unfold latticeFor
  dsimp only
  split_ifs <;> omega

variable [IsStrictOrderedRing K]

/-- A coefficient near a lattice point of the parity of a bit says that bit. -/
theorem readBit_near {delta coefficient e : K} {lattice : Int} (hdelta : 0 < delta)
    (hnear : |coefficient - lattice * delta| ≤ e) (he : 2 * (e / delta) < 1) :
    (readBit delta coefficient).1 = lattice % 2 ∧
      1 - 2 * (e / delta) ≤ (readBit delta coefficient).2 := by
  have hscaled : |coefficient / delta - lattice| ≤ e / delta := by
    have hquotient : coefficient / delta - lattice = (coefficient - lattice * delta) / delta := by
      field_simp
    rw [hquotient, abs_div, abs_of_pos hdelta]
    exact div_le_div_of_nonneg_right hnear hdelta.le
  have hlattice : Rounding.halfEven (coefficient / delta) = lattice :=
    Rounding.halfEven_near (hscaled.trans_lt (by linarith))
  unfold readBit
  dsimp only
  rw [hlattice]
  refine ⟨rfl, le_max_of_le_right ?_⟩
  push_cast
  linarith

end Coefficients

/-! ## 2. Regions of the grid -/

section Grid

/-- The corners of the regions are on a grid. -/
theorem corner_aligned {shape corner : Nat × Nat} {regionSize : Nat}
    (h : corner ∈ integrityRegions shape regionSize) :
    ∃ column row, corner = (regionSize * column, regionSize * row) := by
  have hside : ∀ stop start, start ∈ rangeStep stop regionSize → ∃ i, start = regionSize * i := by
    intro stop start hstart
    rw [rangeStep, List.mem_range'] at hstart
    obtain ⟨i, -, rfl⟩ := hstart
    exact ⟨i, Nat.zero_add _⟩
  unfold integrityRegions at h
  obtain ⟨y, hrow, hcorner⟩ := List.mem_flatMap.mp h
  obtain ⟨x, hcolumn, rfl⟩ := List.mem_map.mp hcorner
  obtain ⟨column, rfl⟩ := hside _ _ hcolumn
  obtain ⟨row, rfl⟩ := hside _ _ hrow
  exact ⟨column, row, rfl⟩

theorem nodup_integrityRegions {shape : Nat × Nat} {regionSize : Nat} (hpos : 0 < regionSize) :
    (integrityRegions shape regionSize).Nodup := by
  have hside : ∀ stop, (rangeStep stop regionSize).Nodup := fun _ ↦ List.nodup_range' _ hpos
  unfold integrityRegions
  rw [List.nodup_flatMap]
  refine ⟨fun y _ ↦ (hside _).map fun x x' hsame ↦ congrArg Prod.fst hsame, ?_⟩
  refine (hside _).imp ?_
  intro y y' hne corner hcorner hcorner'
  obtain ⟨x, -, rfl⟩ := List.mem_map.mp hcorner
  obtain ⟨x', -, hsame⟩ := List.mem_map.mp hcorner'
  exact hne (congrArg Prod.snd hsame).symm

variable {α : Type} {n : Nat}

theorem regionAt_pasteAt (image : Image α) (corner : Nat × Nat) (region : Square n α) :
    regionAt n (pasteAt image corner region) corner = region := by
  funext i j
  have hi := i.isLt
  have hj := j.isLt
  have hin : (corner.2 ≤ corner.2 + i.val ∧ corner.2 + i.val < corner.2 + n) ∧
      corner.1 ≤ corner.1 + j.val ∧ corner.1 + j.val < corner.1 + n := by omega
  show (if h : _ then _ else _) = _
  rw [dif_pos hin]
  congr 1 <;> exact Fin.ext (Nat.add_sub_cancel_left _ _)

/-- Regions with different corners on the grid do not meet. -/
theorem regionAt_pasteAt_of_ne (image : Image α) {shape corner other : Nat × Nat}
    (hcorner : corner ∈ integrityRegions shape n) (hother : other ∈ integrityRegions shape n)
    (hne : other ≠ corner) (region : Square n α) :
    regionAt n (pasteAt image corner region) other = regionAt n image other := by
  obtain ⟨column, row, rfl⟩ := corner_aligned hcorner
  obtain ⟨column', row', rfl⟩ := corner_aligned hother
  -- in steps of the grid, what is between two of its lines has the number of the first
  have hline : ∀ a b k : Nat, k < n → n * a ≤ n * b + k → n * b + k < n * a + n → a = b := by
    intro a b k hk hlow hhigh
    have hpos : 0 < n := Nat.zero_lt_of_lt hk
    have hdiv : (n * b + k) / n = b := by
      rw [Nat.mul_add_div hpos, Nat.div_eq_of_lt hk, Nat.add_zero]
    have hline : (n * b + k) / n = a := by
      apply Nat.div_eq_of_lt_le
      · rw [mul_comm]
        exact hlow
      · rw [Nat.succ_mul, mul_comm a]
        exact hhigh
    exact hline.symm.trans hdiv
  funext i j
  have hout : ¬ ((n * row ≤ n * row' + i.val ∧ n * row' + i.val < n * row + n) ∧
      n * column ≤ n * column' + j.val ∧ n * column' + j.val < n * column + n) := by
    rintro ⟨⟨hlow, hhigh⟩, hleft, hright⟩
    apply hne
    rw [hline row row' i i.isLt hlow hhigh, hline column column' j j.isLt hleft hright]
  show (if h : _ then _ else _) = _
  rw [dif_neg hout]
  rfl

end Grid

/-! ## 3. Writes -/

/-- A turn of both loops of `embed_integrity`. -/
structure TagWrite where
  tag : List UInt8
  source : Nat
  replica : List Nat × Nat

def TagWrite.destination (write : TagWrite) : Nat :=
  Splitbind.destination write.replica write.source

/-- All the turns, in their order. -/
def tagWrites (partners : List (List Nat)) (tags : List (List UInt8)) : List TagWrite :=
  tags.zipIdx.flatMap fun tagged ↦ partners.zipIdx.map fun replica ↦ ⟨tagged.1, tagged.2, replica⟩

theorem mem_tagWrites {partners : List (List Nat)} {tags : List (List UInt8)} {write : TagWrite} :
    write ∈ tagWrites partners tags ↔
      tags[write.source]? = some write.tag ∧ write.replica ∈ partners.zipIdx := by
  unfold tagWrites
  rw [List.mem_flatMap]
  constructor
  · rintro ⟨tagged, htagged, hwrite⟩
    obtain ⟨replica, hreplica, rfl⟩ := List.mem_map.mp hwrite
    exact ⟨List.mem_zipIdx_iff_getElem?.mp htagged, hreplica⟩
  · rintro ⟨htag, hreplica⟩
    exact ⟨(write.tag, write.source), List.mem_zipIdx_iff_getElem?.mpr htag,
      List.mem_map.mpr ⟨write.replica, hreplica, rfl⟩⟩

/-- No replica writes a region twice. -/
theorem tagWrites_apart {partners : List (List Nat)} {tags : List (List UInt8)}
    (h : IndependentMappings tags.length partners) :
    (tagWrites partners tags).Pairwise fun write later ↦
      write.destination = later.destination → write.replica.2 ≠ later.replica.2 := by
  have hplaces : ∀ {α : Type} (rows : List α),
      rows.zipIdx.Pairwise fun row later ↦ row.2 ≠ later.2 := by
    intro α rows
    rw [← List.pairwise_map, List.zipIdx_map_snd]
    exact List.nodup_range'
  unfold tagWrites
  rw [List.pairwise_flatMap]
  constructor
  · intro tagged _
    rw [List.pairwise_map]
    refine (hplaces partners).imp ?_
    intro replica later hne _
    exact hne
  · refine (hplaces tags).imp_of_mem ?_
    intro tagged later htagged hlater hne write hwrite other hother hsame hplace
    obtain ⟨replica, hreplica, rfl⟩ := List.mem_map.mp hwrite
    obtain ⟨replica', hreplica', rfl⟩ := List.mem_map.mp hother
    -- one place in the list of replicas is one replica, and that keeps its sources apart
    have hmapping : replica.1 = replica'.1 := by
      have hfirst := List.mem_zipIdx_iff_getElem?.mp hreplica
      have hsecond := List.mem_zipIdx_iff_getElem?.mp hreplica'
      dsimp only at hplace
      rw [hplace, hsecond] at hfirst
      exact (Option.some.inj hfirst).symm
    obtain rfl : replica = replica' := Prod.ext hmapping hplace
    have hlt : ∀ row ∈ tags.zipIdx, row.2 ∈ Finset.range tags.length := fun row hrow ↦
      Finset.mem_range.mpr
        (List.getElem?_eq_some_iff.mp (List.mem_zipIdx_iff_getElem?.mp hrow)).1
    exact hne (destination_injOn h hreplica (hlt _ htagged) (hlt _ hlater) hsame)

/-- A region is written at most once by every replica. -/
theorem countP_destination_le {partners : List (List Nat)} {tags : List (List UInt8)}
    (h : IndependentMappings tags.length partners) (place : Nat) :
    (tagWrites partners tags).countP (fun write ↦ write.destination = place) ≤
      partners.length := by
  have hlost : ∀ source, (partners.zipIdx.map fun replica ↦
      (TagWrite.mk [] source replica).destination).countP (fun written ↦ written = place) =
        lost destination partners.zipIdx {place} source := by
    intro source
    unfold lost
    rw [List.countP_map]
    refine List.countP_congr fun replica _ ↦ ?_
    simp only [Function.comp_apply, decide_eq_true_eq, Finset.mem_singleton]
    rfl
  have hcount : (tagWrites partners tags).countP (fun write ↦ write.destination = place) =
      ∑ source ∈ Finset.range tags.length, lost destination partners.zipIdx {place} source := by
    unfold tagWrites
    rw [List.countP_flatMap]
    have hrows : tags.zipIdx.map (List.countP (fun write : TagWrite ↦
        write.destination = place) ∘ fun tagged ↦
          partners.zipIdx.map fun replica ↦ ⟨tagged.1, tagged.2, replica⟩) =
        (tags.zipIdx.map Prod.snd).map (lost destination partners.zipIdx {place}) := by
      rw [List.map_map]
      refine List.map_congr_left fun tagged _ ↦ ?_
      rw [Function.comp_apply, Function.comp_apply, ← hlost, List.countP_map, List.countP_map]
      rfl
    rw [hrows, List.zipIdx_map_snd, ← List.range_eq_range', ← List.sum_toFinset _ List.nodup_range,
      List.toFinset_range]
  calc _ ≤ partners.zipIdx.length * ({place} : Finset Nat).card := by
        rw [hcount]
        exact sum_lost_le fun _ hreplica ↦ destination_injOn h hreplica
    _ = partners.length := by rw [List.length_zipIdx, Finset.card_singleton, Nat.mul_one]

section Writes

variable {K : Type} [Field K] [LinearOrder K] [FloorRing K] (tools : IntegrityTools K)
  (profile : IntegrityProfile) (regions : List (Nat × Nat))

def embedWrite (modified : Image UInt8) (write : TagWrite) :
    Except IntegrityError (Image UInt8) :=
  embedReplica tools profile regions (PackedBits.unpack write.tag) write.source modified
    write.replica

/-- The loops are one run over the writes. -/
theorem embedTags_eq (partners : List (List Nat)) (tags : List (List UInt8))
    (luminance : Image UInt8) :
    embedTags tools profile regions partners tags luminance =
      (tagWrites partners tags).foldlM (embedWrite tools profile regions) luminance := by
  unfold embedTags tagWrites
  generalize tags.zipIdx = tagged
  induction tagged generalizing luminance with
  | nil => rfl
  | cons row rows ih =>
    rw [List.foldlM_cons, List.flatMap_cons, List.foldlM_append, List.foldlM_map]
    exact bind_congr fun modified ↦ ih modified

/-- The coefficients that a tag or a feature is read from. -/
def usedPositions : List (Int × Int) :=
  profile.featurePositions ++ profile.coefficientSets.flatten

/-- A coefficient of a region of an image. -/
def regionCoefficient (image : Image UInt8) (corner : Nat × Nat) (position : Int × Int) : K :=
  coefficientAt (tools.dct (samples (regionAt profile.regionSize image corner))) position

/-- The coefficients a write aims at. -/
def writeTarget (modified : Image UInt8) (write : TagWrite) : Square profile.regionSize K :=
  ((PackedBits.unpack write.tag).zip (replicaPositions profile write.replica)).foldl
    (embedRegionBit (profile.qimDelta : K))
    (tools.dct (samples
      (regionAt profile.regionSize modified (regions.getD write.destination (0, 0)))))

/-- The samples it leaves. -/
def writtenSamples (modified : Image UInt8) (write : TagWrite) : Square profile.regionSize UInt8 :=
  fun i j ↦ toSample (tools.idct (writeTarget tools profile regions modified write) i j)

/-- Rounding to samples moves no coefficient that is used by more than a bound. -/
def RoundsWithin (e : K) (modified : Image UInt8) (write : TagWrite) : Prop :=
  ∀ position ∈ usedPositions profile,
    |coefficientAt (tools.dct (samples (writtenSamples tools profile regions modified write)))
        position -
      coefficientAt (writeTarget tools profile regions modified write) position| ≤ e

variable {tools profile regions}

theorem embedWrite_eq_ok {modified image : Image UInt8} {write : TagWrite} :
    embedWrite tools profile regions modified write = .ok image ↔
      (PackedBits.unpack write.tag).length = (replicaPositions profile write.replica).length ∧
        image = pasteAt modified (regions.getD write.destination (0, 0))
          (writtenSamples tools profile regions modified write) := by
  simp only [embedWrite, embedReplica, embedRegionBits, bind_eq_ok, exists_unit, raiseIf_eq_ok,
    pure_eq_ok]
  constructor
  · rintro ⟨region, ⟨hshort, hlong, rfl⟩, rfl⟩
    exact ⟨by omega, rfl⟩
  · rintro ⟨hlength, rfl⟩
    exact ⟨_, ⟨by omega, by omega, rfl⟩, rfl⟩

end Writes

/-! ## 4. Drift -/

section Drift

variable {K : Type} [Field K] [LinearOrder K] [IsStrictOrderedRing K] [FloorRing K]
  {tools : IntegrityTools K} {profile : IntegrityProfile} {shape : Nat × Nat}

/-- Sets of different replicas have no coefficient in common. -/
theorem replicaPositions_disjoint (hwell : profile.WellFormed) {replica other : List Nat × Nat}
    (hne : replica.2 ≠ other.2) :
    List.Disjoint (replicaPositions profile replica) (replicaPositions profile other) := by
  have happart := (List.nodup_flatten.mp hwell.nodup).2
  unfold replicaPositions
  rcases Nat.lt_or_ge replica.2 profile.coefficientSets.length with hlt | hge
  · rcases Nat.lt_or_ge other.2 profile.coefficientSets.length with hlt' | hge'
    · rw [List.getD_eq_getElem _ _ hlt, List.getD_eq_getElem _ _ hlt']
      rcases Nat.lt_or_gt_of_ne hne with hbefore | hafter
      · exact List.pairwise_iff_getElem.mp happart _ _ hlt hlt' hbefore
      · exact (List.pairwise_iff_getElem.mp happart _ _ hlt' hlt hafter).symm
    · rw [List.getD_eq_default _ _ hge']
      exact List.disjoint_nil_right _
  · rw [List.getD_eq_default _ _ hge]
    exact List.disjoint_nil_left _

theorem mem_flatten_of_replica {replica : List Nat × Nat} {position : Int × Int}
    (h : position ∈ replicaPositions profile replica) :
    position ∈ profile.coefficientSets.flatten := by
  unfold replicaPositions at h
  rcases Nat.lt_or_ge replica.2 profile.coefficientSets.length with hlt | hge
  · rw [List.getD_eq_getElem _ _ hlt] at h
    exact List.mem_flatten.mpr ⟨_, List.getElem_mem hlt, h⟩
  · rw [List.getD_eq_default _ _ hge] at h
    cases h

theorem nodup_replicaPositions (hwell : profile.WellFormed) (replica : List Nat × Nat) :
    (replicaPositions profile replica).Nodup := by
  unfold replicaPositions
  rcases Nat.lt_or_ge replica.2 profile.coefficientSets.length with hlt | hge
  · rw [List.getD_eq_getElem _ _ hlt]
    exact (List.nodup_flatten.mp hwell.nodup).1 _ (List.getElem_mem hlt)
  · rw [List.getD_eq_default _ _ hge]
    exact List.nodup_nil

omit [IsStrictOrderedRing K] in
/-- What one write does to the coefficients of its region. -/
theorem coefficient_of_write (hwell : profile.WellFormed) {e : K} {image image' : Image UInt8}
    {write : TagWrite} {corner : Nat × Nat}
    (hcorner : (integrityRegions shape profile.regionSize)[write.destination]? = some corner)
    (hround : RoundsWithin tools profile (integrityRegions shape profile.regionSize) e image write)
    (h : embedWrite tools profile (integrityRegions shape profile.regionSize) image write =
      .ok image') :
    (∀ placed ∈ (PackedBits.unpack write.tag).zip (replicaPositions profile write.replica),
      ∃ lattice : Int, lattice % 2 = placed.1 ∧
        |regionCoefficient tools profile image' corner placed.2 -
          lattice * (profile.qimDelta : K)| ≤ e) ∧
    ∀ position ∈ usedPositions profile, position ∉ replicaPositions profile write.replica →
      |regionCoefficient tools profile image' corner position -
        regionCoefficient tools profile image corner position| ≤ e := by
  obtain ⟨hlength, rfl⟩ := embedWrite_eq_ok.mp h
  have hread : (integrityRegions shape profile.regionSize).getD write.destination (0, 0) =
      corner := by
    rw [List.getD_eq_getElem?_getD, hcorner, Option.getD_some]
  set placed := (PackedBits.unpack write.tag).zip (replicaPositions profile write.replica)
    with hplaced
  have hpositions : placed.map Prod.snd = replicaPositions profile write.replica := by
    rw [hplaced, List.map_snd_zip hlength.ge]
  have hinside : ∀ position ∈ usedPositions profile, InRegion position := by
    intro position hposition
    rcases List.mem_append.mp hposition with hfeature | hset
    · exact hwell.featuresInside position hfeature
    · exact hwell.inside position hset
  have husedSet : ∀ position ∈ replicaPositions profile write.replica,
      position ∈ usedPositions profile := fun position hposition ↦
    List.mem_append_right _ (mem_flatten_of_replica hposition)
  have hnodup : (placed.map Prod.snd).Nodup := by
    rw [hpositions]
    exact nodup_replicaPositions hwell write.replica
  have hrows : ∀ row ∈ placed, InRegion row.2 := by
    intro row hrow
    apply hinside
    apply husedSet
    rw [← hpositions]
    exact List.mem_map_of_mem hrow
  obtain ⟨hmoved, hkept⟩ := embedded_coefficients hwell.regionSize (profile.qimDelta : K) placed
    hnodup hrows (tools.dct (samples (regionAt profile.regionSize image corner)))
  have htarget : writeTarget tools profile (integrityRegions shape profile.regionSize) image write =
      placed.foldl (embedRegionBit (profile.qimDelta : K))
        (tools.dct (samples (regionAt profile.regionSize image corner))) := by
    rw [writeTarget, hread]
  -- the samples of the region are those that were written
  have hwritten : ∀ position, regionCoefficient tools profile (pasteAt image
      ((integrityRegions shape profile.regionSize).getD write.destination (0, 0))
        (writtenSamples tools profile (integrityRegions shape profile.regionSize) image write))
          corner position =
      coefficientAt (tools.dct (samples (writtenSamples tools profile
        (integrityRegions shape profile.regionSize) image write))) position := by
    intro position
    rw [regionCoefficient, hread, regionAt_pasteAt]
  constructor
  · intro row hrow
    have hbit : row.1 = 0 ∨ row.1 = 1 := PackedBits.unpack_bit (List.of_mem_zip hrow).1
    refine ⟨_, latticeFor_bit hbit (coefficientAt
      (tools.dct (samples (regionAt profile.regionSize image corner))) row.2 /
        (profile.qimDelta : K)), ?_⟩
    have hclose := hround row.2 (husedSet row.2 (List.of_mem_zip hrow).2)
    rw [htarget, hmoved row hrow] at hclose
    rw [hwritten]
    exact hclose
  · intro position hused hout
    have hclose := hround position hused
    rw [htarget, hkept position (hinside position hused) (hpositions ▸ hout)] at hclose
    rw [hwritten]
    exact hclose

theorem corner_ne (hwell : profile.WellFormed) {index place : Nat} {corner other : Nat × Nat}
    (hcorner : (integrityRegions shape profile.regionSize)[place]? = some corner)
    (hother : (integrityRegions shape profile.regionSize)[index]? = some other)
    (hne : index ≠ place) : other ≠ corner := by
  have hpos : 0 < profile.regionSize := by
    rw [hwell.regionSize]
    decide
  rintro rfl
  obtain ⟨hlt, hat⟩ := List.getElem?_eq_some_iff.mp hother
  obtain ⟨hlt', hat'⟩ := List.getElem?_eq_some_iff.mp hcorner
  exact hne ((nodup_integrityRegions hpos).getElem_inj_iff.mp (hat.trans hat'.symm))

omit [IsStrictOrderedRing K] in
/-- What the other regions keep. -/
theorem coefficient_of_other (hwell : profile.WellFormed) {image image' : Image UInt8}
    {write : TagWrite} {index : Nat} {corner other : Nat × Nat}
    (hcorner : (integrityRegions shape profile.regionSize)[write.destination]? = some corner)
    (hother : (integrityRegions shape profile.regionSize)[index]? = some other)
    (hne : index ≠ write.destination)
    (h : embedWrite tools profile (integrityRegions shape profile.regionSize) image write =
      .ok image') (position : Int × Int) :
    regionCoefficient tools profile image' other position =
      regionCoefficient tools profile image other position := by
  obtain ⟨-, rfl⟩ := embedWrite_eq_ok.mp h
  have hread : (integrityRegions shape profile.regionSize).getD write.destination (0, 0) =
      corner := by
    rw [List.getD_eq_getElem?_getD, hcorner, Option.getD_some]
  rw [regionCoefficient, hread, regionAt_pasteAt_of_ne image (List.mem_of_getElem? hcorner)
    (List.mem_of_getElem? hother) (corner_ne hwell hcorner hother hne), regionCoefficient]

/-- How far features and written bits are from where they were, behind some writes: as many roundings
as their region was written. -/
structure Drifted (tools : IntegrityTools K) (profile : IntegrityProfile)
    (regions : List (Nat × Nat)) (e : K) (original image : Image UInt8) (done : List TagWrite) :
    Prop where
  features : ∀ (index : Nat) corner, regions[index]? = some corner →
    ∀ position ∈ profile.featurePositions,
      |regionCoefficient tools profile image corner position -
        regionCoefficient tools profile original corner position| ≤
          (done.countP fun write ↦ write.destination = index : Nat) * e
  bits : ∀ write ∈ done, ∀ corner, regions[write.destination]? = some corner →
    ∀ placed ∈ (PackedBits.unpack write.tag).zip (replicaPositions profile write.replica),
      ∃ lattice : Int, lattice % 2 = placed.1 ∧
        |regionCoefficient tools profile image corner placed.2 -
          lattice * (profile.qimDelta : K)| ≤
            (done.countP fun earlier ↦ earlier.destination = write.destination : Nat) * e

omit [FloorRing K] in
theorem Drifted.start (regions : List (Nat × Nat)) (e : K) (original : Image UInt8) :
    Drifted tools profile regions e original original [] := by
  refine ⟨fun index corner _ position _ ↦ ?_, fun write hwrite ↦ absurd hwrite List.not_mem_nil⟩
  rw [sub_self, abs_zero, List.countP_nil, Nat.cast_zero, zero_mul]

/-- A write adds one rounding to its region. -/
theorem Drifted.step (hwell : profile.WellFormed) {e : K} (he : 0 ≤ e)
    {original image image' : Image UInt8} {done : List TagWrite} {write : TagWrite}
    (hdrifted : Drifted tools profile (integrityRegions shape profile.regionSize) e original image
      done)
    (happart : ∀ earlier ∈ done, earlier.destination = write.destination →
      earlier.replica.2 ≠ write.replica.2)
    (hlt : write.destination < (integrityRegions shape profile.regionSize).length)
    (hround : RoundsWithin tools profile (integrityRegions shape profile.regionSize) e image write)
    (h : embedWrite tools profile (integrityRegions shape profile.regionSize) image write =
      .ok image') :
    Drifted tools profile (integrityRegions shape profile.regionSize) e original image'
      (done ++ [write]) := by
  obtain ⟨here, hcorner⟩ : ∃ here,
      (integrityRegions shape profile.regionSize)[write.destination]? = some here :=
    ⟨_, List.getElem?_eq_getElem hlt⟩
  obtain ⟨hwritten, hkept⟩ := coefficient_of_write hwell hcorner hround h
  -- one rounding on top of a drift
  have hmore : ∀ (a b c : K) (count : Nat), |a - b| ≤ e → |b - c| ≤ count * e →
      |a - c| ≤ ((count + 1 : Nat) : K) * e := by
    intro a b c count hab hbc
    calc |a - c| ≤ |a - b| + |b - c| := abs_sub_le a b c
      _ ≤ e + count * e := add_le_add hab hbc
      _ = ((count + 1 : Nat) : K) * e := by
        push_cast
        ring
  have hcount : ∀ index, (done ++ [write]).countP (fun w ↦ w.destination = index) =
      done.countP (fun w ↦ w.destination = index) + if write.destination = index then 1 else 0 := by
    intro index
    rw [List.countP_append, List.countP_singleton]
    simp only [decide_eq_true_eq]
  constructor
  · intro index corner hindex position hposition
    rw [hcount]
    by_cases hhere : write.destination = index
    · subst hhere
      obtain rfl := Option.some.inj (hcorner.symm.trans hindex)
      rw [if_pos rfl]
      refine hmore _ _ _ _ (hkept position (List.mem_append_left _ hposition) fun hset ↦ ?_)
        (hdrifted.features _ _ hindex position hposition)
      exact hwell.featuresApart position hposition (mem_flatten_of_replica hset)
    · rw [if_neg hhere, Nat.add_zero,
        coefficient_of_other hwell hcorner hindex (Ne.symm hhere) h position]
      exact hdrifted.features index corner hindex position hposition
  · intro other hother corner hindex placed hplaced
    rw [hcount]
    rcases List.mem_append.mp hother with hearlier | hlast
    · obtain ⟨lattice, hbit, hnear⟩ := hdrifted.bits other hearlier corner hindex placed hplaced
      refine ⟨lattice, hbit, ?_⟩
      by_cases hhere : write.destination = other.destination
      · have hsame : corner = here := by
          rw [hhere] at hcorner
          exact Option.some.inj (hindex.symm.trans hcorner)
        have hmem := (List.of_mem_zip hplaced).2
        rw [if_pos hhere]
        refine hmore _ _ _ _ ?_ hnear
        rw [hsame]
        -- a later write of the region is by another replica
        refine hkept placed.2 (List.mem_append_right _ (mem_flatten_of_replica hmem)) fun hset ↦ ?_
        exact replicaPositions_disjoint hwell (happart other hearlier hhere.symm) hmem hset
      · rw [if_neg hhere, Nat.add_zero,
          coefficient_of_other hwell hcorner hindex (Ne.symm hhere) h placed.2]
        exact hnear
    · obtain rfl := List.mem_singleton.mp hlast
      obtain rfl := Option.some.inj (hcorner.symm.trans hindex)
      obtain ⟨lattice, hbit, hnear⟩ := hwritten placed hplaced
      refine ⟨lattice, hbit, hnear.trans ?_⟩
      rw [if_pos rfl]
      push_cast
      have hdrift : 0 ≤ (done.countP (fun w ↦ w.destination = other.destination) : K) * e :=
        mul_nonneg (Nat.cast_nonneg _) he
      linarith

/-- So the run over the writes adds as many as it has written. -/
theorem Drifted.run (hwell : profile.WellFormed) {e : K} (he : 0 ≤ e) {original : Image UInt8}
    {writes : List TagWrite}
    (happart : writes.Pairwise fun write later ↦
      write.destination = later.destination → write.replica.2 ≠ later.replica.2)
    (hlt : ∀ write ∈ writes,
      write.destination < (integrityRegions shape profile.regionSize).length)
    (hround : ∀ done write rest, writes = done ++ write :: rest → ∀ modified,
      done.foldlM (embedWrite tools profile (integrityRegions shape profile.regionSize)) original =
          .ok modified →
        RoundsWithin tools profile (integrityRegions shape profile.regionSize) e modified write)
    {done rest : List TagWrite} (hdone : writes = done ++ rest) {image : Image UInt8}
    (h : done.foldlM (embedWrite tools profile (integrityRegions shape profile.regionSize))
      original = .ok image) :
    Drifted tools profile (integrityRegions shape profile.regionSize) e original image done := by
  induction done using List.reverseRecOn generalizing rest image with
  | nil =>
    rw [List.foldlM_nil, pure_eq_ok] at h
    rw [← h]
    exact Drifted.start _ e original
  | append_singleton done write ih =>
    rw [List.foldlM_append, bind_eq_ok] at h
    obtain ⟨before, hbefore, hwrite⟩ := h
    rw [List.foldlM_cons, bind_eq_ok] at hwrite
    obtain ⟨after, hwrite, hafter⟩ := hwrite
    rw [List.foldlM_nil, pure_eq_ok] at hafter
    subst hafter
    rw [List.append_assoc, List.singleton_append] at hdone
    refine (ih hdone hbefore).step hwell he ?_ ?_ (hround done write rest hdone before hbefore)
      hwrite
    · rw [hdone, List.pairwise_append] at happart
      exact fun earlier hearlier ↦ happart.2.2 earlier hearlier write List.mem_cons_self
    · apply hlt
      rw [hdone]
      exact List.mem_append_right _ List.mem_cons_self

end Drift

/-! ## 5. Reading -/

section Reading

variable {K : Type} [Field K] [LinearOrder K] [IsStrictOrderedRing K] [FloorRing K]
  {tools : IntegrityTools K} {profile : IntegrityProfile}

/-- A tag is read where each of its bits is near a lattice point of its parity. -/
theorem extractBits_near {n : Nat} {region : Square n UInt8} {tag : List UInt8}
    {positions : List (Int × Int)} {delta e : K} (hdelta : 0 < delta) (he : 2 * (e / delta) < 1)
    (hlength : (PackedBits.unpack tag).length = positions.length) (hpositions : positions ≠ [])
    (hnear : ∀ placed ∈ (PackedBits.unpack tag).zip positions, ∃ lattice : Int,
      lattice % 2 = placed.1 ∧
        |coefficientAt (tools.dct (samples region)) placed.2 - lattice * delta| ≤ e) :
    (extractBits tools region positions delta).1 = tag ∧
      1 - 2 * (e / delta) ≤ (extractBits tools region positions delta).2 := by
  have hread : ∀ placed ∈ (PackedBits.unpack tag).zip positions,
      (readBit delta (coefficientAt (tools.dct (samples region)) placed.2)).1 = placed.1 ∧
        1 - 2 * (e / delta) ≤
          (readBit delta (coefficientAt (tools.dct (samples region)) placed.2)).2 := by
    intro placed hplaced
    obtain ⟨lattice, hbit, hclose⟩ := hnear placed hplaced
    obtain ⟨hbit', hclear⟩ := readBit_near hdelta hclose he
    exact ⟨hbit'.trans hbit, hclear⟩
  constructor
  · show PackedBits.pack ((positions.map fun position ↦
      readBit delta (coefficientAt (tools.dct (samples region)) position)).map Prod.fst) = tag
    rw [List.map_map]
    exact PackedBits.pack_map_of_zip hlength fun placed hplaced ↦ (hread placed hplaced).1
  · set confidences := (positions.map fun position ↦
      readBit delta (coefficientAt (tools.dct (samples region)) position)).map Prod.snd
      with hconfidences
    have hcount : confidences.length = positions.length := by
      rw [hconfidences, List.length_map, List.length_map]
    have hpos : (0 : K) < (positions.length : K) := by
      exact_mod_cast List.length_pos_iff.mpr hpositions
    have hall : ∀ confidence ∈ confidences, 1 - 2 * (e / delta) ≤ confidence := by
      intro confidence hconfidence
      rw [hconfidences, List.map_map] at hconfidence
      obtain ⟨position, hposition, rfl⟩ := List.mem_map.mp hconfidence
      have hsecond : position ∈ ((PackedBits.unpack tag).zip positions).map Prod.snd := by
        rw [List.map_snd_zip hlength.ge]
        exact hposition
      obtain ⟨placed, hplaced, rfl⟩ := List.mem_map.mp hsecond
      exact (hread placed hplaced).2
    have hsum := List.card_nsmul_le_sum confidences (1 - 2 * (e / delta)) hall
    rw [hcount, nsmul_eq_mul] at hsum
    show 1 - 2 * (e / delta) ≤ confidences.sum / ((List.length _ : Nat) : K)
    rw [List.length_map, le_div_iff₀ hpos, mul_comm]
    exact hsum

/-- Coefficients that stay within their steps give the same feature. -/
theorem contentFeature_near {n : Nat} {region region' : Square n UInt8} {e : K}
    {feature : List UInt8} (hstep : 0 < profile.featureStep)
    (hnear : ∀ position ∈ profile.featurePositions,
      |coefficientAt (tools.dct (samples region')) position -
        coefficientAt (tools.dct (samples region)) position| ≤ e)
    (hmargin : ∀ position ∈ profile.featurePositions,
      |coefficientAt (tools.dct (samples region)) position / (profile.featureStep : K) -
        Rounding.halfEven
          (coefficientAt (tools.dct (samples region)) position / (profile.featureStep : K))| +
            e / (profile.featureStep : K) < 1 / 2)
    (h : contentFeature tools profile region = .ok feature) :
    contentFeature tools profile region' = .ok feature := by
  have hpos : (0 : K) < (profile.featureStep : K) := by exact_mod_cast hstep
  have hsame : ∀ position ∈ profile.featurePositions,
      featureBytes (profile.featureStep : K)
          (coefficientAt (tools.dct (samples region')) position) =
        featureBytes (profile.featureStep : K)
          (coefficientAt (tools.dct (samples region)) position) := by
    intro position hposition
    have hmoved : |coefficientAt (tools.dct (samples region')) position /
        (profile.featureStep : K) -
          coefficientAt (tools.dct (samples region)) position / (profile.featureStep : K)| ≤
            e / (profile.featureStep : K) := by
      rw [← sub_div, abs_div, abs_of_pos hpos]
      exact div_le_div_of_nonneg_right (hnear position hposition) hpos.le
    have hround := Rounding.halfEven_near (lt_of_le_of_lt
      ((abs_sub_le _ _ _).trans ((add_comm _ _).le.trans
        (add_le_add_right hmoved _))) (hmargin position hposition))
    unfold featureBytes
    rw [hround]
  unfold contentFeature at h ⊢
  simp only [bind_eq_ok] at h ⊢
  obtain ⟨quantized, hquantized, h⟩ := h
  refine ⟨quantized, mapM_of_forall hquantized fun position hposition bytes hbytes ↦ ?_, h⟩
  exact (hsame position hposition).trans hbytes

end Reading

/-! ## 6. An embedded page -/

section Embedded

variable {K : Type} [Field K] [LinearOrder K] [IsStrictOrderedRing K] [FloorRing K]
  {tools : IntegrityTools K} {profile : IntegrityProfile} {page received : IntegrityPage}
  {key nonce : List UInt8} {value : ProfileValue} {tags : List (List UInt8)}
  {partners : List (List Nat)}

omit [IsStrictOrderedRing K] in
theorem embedIntegrity_eq_ok {embedded : EmbeddedIntegrityPage}
    (hprofile : validateIntegrityProfile tools.sha256 tools.numbers value = .ok profile)
    (henough : profile.minimumRegions ≤ (pageRegions profile page).length)
    (h : embedIntegrity tools page key nonce value = .ok embedded) :
    validateInputs page.input (some key) (some nonce) profile = .ok page.shape ∧
      ∃ tags partners modified, pageTags tools profile page key nonce = .ok tags ∧
        pagePartners tools profile page key nonce = .ok partners ∧
        embedTags tools profile (pageRegions profile page) partners tags
          (pageLuminance tools page) = .ok modified ∧
        embedded = ⟨replacePageLuminance tools page modified, (pageRegions profile page).length,
          []⟩ := by
  simp only [embedIntegrity, bind_eq_ok, hprofile, Except.ok.injEq, exists_eq_left'] at h
  obtain ⟨shape, hinputs, h⟩ := h
  obtain rfl := shape_of_validateInputs hinputs
  have hmany : ¬ (integrityRegions page.shape profile.regionSize).length <
      profile.minimumRegions := Nat.not_lt_of_le henough
  rw [if_neg hmany] at h
  simp only [bind_eq_ok, pure_eq_ok] at h
  obtain ⟨tags, htags, partners, hpartners, modified, hmodified, rfl⟩ := h
  exact ⟨hinputs, tags, partners, modified, htags, hpartners, hmodified, rfl⟩

/-- The checks of a page look at its shape only. -/
theorem validateInputs_of_shape (hshape : received.shape = page.shape)
    (h : validateInputs page.input (some key) (some nonce) profile = .ok page.shape) :
    validateInputs received.input (some key) (some nonce) profile = .ok received.shape := by
  obtain ⟨hheight, hwidth⟩ := Prod.mk.inj (show (received.shape.1, received.shape.2) =
    (page.shape.1, page.shape.2) from hshape)
  cases page <;> cases received <;>
    simp only [IntegrityPage.input, IntegrityPage.shape, validateInputs, bind_eq_ok, exists_unit,
      raiseIf_eq_ok, pure_eq_ok, List.length_cons, List.length_nil, List.getD_cons_zero,
      List.getD_cons_succ] at h hheight hwidth ⊢ <;>
    rw [hheight, hwidth] <;>
    simp_all

/-- An intact page is verified in full. -/
theorem Intact.verified
    (hintact : Intact tools profile page key nonce tags partners)
    (hprofile : validateIntegrityProfile tools.sha256 tools.numbers value = .ok profile)
    (henough : profile.minimumRegions ≤ (pageRegions profile page).length)
    (hinputs : validateInputs page.input (some key) (some nonce) profile = .ok page.shape) :
    ∃ decision : IntegrityDecision K,
      verifyIntegrity tools page key nonce value = .ok decision ∧ decision.score = 1 ∧
        decision.suspiciousRegions = [] ∧ decision.limitations = [] ∧
        decision.evaluatedRegions = (pageRegions profile page).length := by
  have hwell := wellFormed_of_validate hprofile
  have hpos : 0 < (pageRegions profile page).length :=
    (Nat.zero_le _).trans_lt (hwell.regions.trans_le henough)
  obtain ⟨decision, hdecision⟩ := verifyIntegrity_total hprofile hinputs henough hintact.tagged
    (tag_of_region hintact.tagged).1 hintact.partnered
  obtain ⟨tags', partners', tally, hjudged⟩ := judged_of_verify hprofile henough hdecision
  obtain rfl : tags' = tags := Except.ok.inj (hjudged.tagged.symm.trans hintact.tagged)
  obtain rfl : partners' = partners :=
    Except.ok.inj (hjudged.partnered.symm.trans hintact.partnered)
  -- nothing was altered, so nothing fails
  have hsame : AlteredIn tools profile page page ∅ := ⟨rfl, fun _ _ _ _ ↦ rfl⟩
  have hnone := card_failing_le hwell hintact hsame hpos hintact.tagged
  have hbound : damageBound profile ∅ = 0 := by
    rw [damageBound, Finset.card_empty, Nat.mul_zero, Nat.zero_div]
  obtain ⟨hfailing, hall⟩ := hjudged.counts.failing
  rw [hbound] at hnone
  rw [List.length_zipIdx, (tag_of_region hintact.tagged).1] at hall
  have hmismatch : tally.mismatchCount = 0 := by omega
  have hundecided : tally.indeterminateCount = 0 := by omega
  have hmatched : tally.matched = (pageRegions profile page).length := by omega
  have hlength : (0 : K) < ((pageRegions profile page).length : K) := by exact_mod_cast hpos
  have hpositive : ∀ ratio : ℚ, 0 < ratio →
      ¬ (ratio : K) ≤ ((tally.mismatchCount : Nat) : K) /
        ((pageRegions profile page).length : K) := by
    intro ratio hratio
    rw [hmismatch, Nat.cast_zero, zero_div, not_le]
    exact_mod_cast hratio
  have hlimitations : decision.limitations = [] := by
    rw [hjudged.limitations, pageLimitations, if_neg (by omega),
      if_neg fun hboth ↦ hpositive _ hwell.geometryRatio hboth.1,
      if_neg fun hboth ↦ hpositive _ hwell.compressionRatio hboth.1]
  have hindexes : tally.suspiciousIndexes = [] := by
    have hcount := hjudged.counts.mismatchCount
    rw [hmismatch, List.countP_eq_length_filter] at hcount
    rw [hjudged.counts.suspiciousIndexes, List.length_eq_zero_iff.mp hcount.symm, List.map_nil]
  have haccused := hjudged.accused
  rw [suspiciousRects, if_neg (not_not.mpr hlimitations), hindexes, List.mapM_nil,
    pure_eq_ok] at haccused
  refine ⟨decision, hdecision, ?_, haccused.symm, hlimitations, hjudged.evaluated⟩
  rw [hjudged.score, hmatched, div_self hlength.ne']

/-- What may move the coefficients of a page between its samples and those that are verified. -/
structure Margins (K : Type) where
  rounding : K
  conversion : K
  noise : K

/-- The most a coefficient of a region can have moved: its writes, the conversion of the page, and
what happened to it behind that. -/
def Margins.total (margins : Margins K) (profile : IntegrityProfile) : K :=
  profile.replicaShifts.length * margins.rounding + margins.conversion + margins.noise

/-- A page is received with its coefficients within the margins, and the margins within what bits and
features stand. -/
structure Readable (tools : IntegrityTools K) (profile : IntegrityProfile)
    (page embedded received : IntegrityPage) (tags : List (List UInt8))
    (partners : List (List Nat)) (modified : Image UInt8) (margins : Margins K) : Prop where
  nonneg : 0 ≤ margins.rounding
  rounds : ∀ done write rest, tagWrites partners tags = done ++ write :: rest → ∀ image,
    done.foldlM (embedWrite tools profile (pageRegions profile page))
        (pageLuminance tools page) = .ok image →
      RoundsWithin tools profile (pageRegions profile page) margins.rounding image write
  converted : ∀ corner ∈ pageRegions profile page, ∀ position ∈ usedPositions profile,
    |regionCoefficient tools profile (pageLuminance tools embedded) corner position -
      regionCoefficient tools profile modified corner position| ≤ margins.conversion
  shape : received.shape = page.shape
  received : ∀ corner ∈ pageRegions profile page, ∀ position ∈ usedPositions profile,
    |regionCoefficient tools profile (pageLuminance tools received) corner position -
      regionCoefficient tools profile (pageLuminance tools embedded) corner position| ≤
        margins.noise
  clear : (profile.minimumBitConfidence : K) +
    2 * (margins.total profile / (profile.qimDelta : K)) ≤ 1
  features : ∀ corner ∈ pageRegions profile page, ∀ position ∈ profile.featurePositions,
    |regionCoefficient tools profile (pageLuminance tools page) corner position /
        (profile.featureStep : K) -
      Rounding.halfEven (regionCoefficient tools profile (pageLuminance tools page) corner
        position / (profile.featureStep : K))| +
          margins.total profile / (profile.featureStep : K) < 1 / 2

omit [IsStrictOrderedRing K] in
/-- A write has a region to go to, and a position for every bit. -/
theorem tagWrites_fit (hwell : profile.WellFormed)
    (hpos : 0 < (pageRegions profile page).length)
    (htags : pageTags tools profile page key nonce = .ok tags)
    (hpartners : pagePartners tools profile page key nonce = .ok partners) {write : TagWrite}
    (hwrite : write ∈ tagWrites partners tags) :
    write.destination < (pageRegions profile page).length ∧
      (PackedBits.unpack write.tag).length = 32 ∧
        (replicaPositions profile write.replica).length = 32 := by
  obtain ⟨htag, hreplica⟩ := mem_tagWrites.mp hwrite
  obtain ⟨hlength, hmade⟩ := tag_of_region htags
  obtain ⟨hindependent, hreplicas⟩ := independent_of_partnerRegions hpos hpartners
  refine ⟨destination_lt hindependent hreplica ?_, ?_, ?_⟩
  · rw [← hlength]
    exact (List.getElem?_eq_some_iff.mp htag).1
  · obtain ⟨-, feature, -, -, hregionTag⟩ := hmade _ _ htag
    simp only [regionTag, bind_eq_ok, exists_unit, pure_eq_ok] at hregionTag
    obtain ⟨-, htake⟩ := hregionTag
    rw [← htake, PackedBits.length_unpack, List.length_take, tools.hmac.length_digest]
    rfl
  · have hset : write.replica.2 < profile.coefficientSets.length := by
      rw [hwell.sets, ← hreplicas]
      exact (List.getElem?_eq_some_iff.mp (List.mem_zipIdx_iff_getElem?.mp hreplica)).1
    rw [replicaPositions, List.getD_eq_getElem _ _ hset]
    exact hwell.setLength _ (List.getElem_mem hset)

/-- A page that is readable is intact. -/
theorem Readable.intact {embedded : IntegrityPage} {modified : Image UInt8} {margins : Margins K}
    (h : Readable tools profile page embedded received tags partners modified margins)
    (hwell : profile.WellFormed) (hpos : 0 < (pageRegions profile page).length)
    (htags : pageTags tools profile page key nonce = .ok tags)
    (hpartners : pagePartners tools profile page key nonce = .ok partners)
    (hmodified : embedTags tools profile (pageRegions profile page) partners tags
      (pageLuminance tools page) = .ok modified) :
    Intact tools profile received key nonce tags partners := by
  have hlength := (tag_of_region htags).1
  obtain ⟨hindependent, hreplicas⟩ := independent_of_partnerRegions hpos hpartners
  have hregions : pageRegions profile received = pageRegions profile page := by
    rw [pageRegions, h.shape, pageRegions]
  have hindependent' : IndependentMappings tags.length partners := by
    rw [hlength]
    exact hindependent
  -- the drift of the page behind all writes
  rw [embedTags_eq] at hmodified
  have hdrifted : Drifted tools profile (pageRegions profile page) margins.rounding
      (pageLuminance tools page) modified (tagWrites partners tags) := by
    exact Drifted.run hwell h.nonneg (tagWrites_apart hindependent')
      (fun write hwrite ↦ (tagWrites_fit hwell hpos htags hpartners hwrite).1) h.rounds
      (List.append_nil _).symm hmodified
  have hwrites : ∀ index, (((tagWrites partners tags).countP
      (fun write ↦ write.destination = index) : Nat) : K) * margins.rounding ≤
        profile.replicaShifts.length * margins.rounding := by
    intro index
    refine mul_le_mul_of_nonneg_right ?_ h.nonneg
    rw [← hreplicas]
    exact_mod_cast countP_destination_le hindependent' index
  have hmoved : ∀ corner ∈ pageRegions profile page, ∀ position ∈ usedPositions profile,
      ∀ aim : K, |regionCoefficient tools profile modified corner position - aim| ≤
          profile.replicaShifts.length * margins.rounding →
        |regionCoefficient tools profile (pageLuminance tools received) corner position - aim| ≤
          margins.total profile := by
    intro corner hcorner position hposition aim haim
    have hconverted := h.converted corner hcorner position hposition
    have hreceived := h.received corner hcorner position hposition
    have hfirst := abs_sub_le
      (regionCoefficient tools profile (pageLuminance tools received) corner position)
      (regionCoefficient tools profile (pageLuminance tools embedded) corner position) aim
    have hsecond := abs_sub_le
      (regionCoefficient tools profile (pageLuminance tools embedded) corner position)
      (regionCoefficient tools profile modified corner position) aim
    unfold Margins.total
    linarith
  have hdelta : (0 : K) < (profile.qimDelta : K) := by exact_mod_cast hwell.qimDelta
  have hconfidence : (0 : K) < (profile.minimumBitConfidence : K) := by
    exact_mod_cast hwell.confidence
  have hclear := h.clear
  constructor
  · -- every feature is what it was
    simp only [pageTags, regionTags, bind_eq_ok] at htags ⊢
    obtain ⟨features, hfeatures, htags⟩ := htags
    rw [hregions]
    refine ⟨features, mapM_of_forall hfeatures fun corner hcorner feature hfeature ↦ ?_, htags⟩
    obtain ⟨index, hindex⟩ := List.getElem?_of_mem hcorner
    refine contentFeature_near hwell.featureStep (fun position hposition ↦ ?_)
      (h.features corner hcorner) hfeature
    exact hmoved corner hcorner position (List.mem_append_left _ hposition) _
      ((hdrifted.features index corner hindex position hposition).trans (hwrites index))
  · unfold pagePartners at hpartners ⊢
    rw [hregions]
    exact hpartners
  · -- every copy is clear and right
    intro source tag htag replica hreplica
    have hwrite : (⟨tag, source, replica⟩ : TagWrite) ∈ tagWrites partners tags :=
      mem_tagWrites.mpr ⟨htag, hreplica⟩
    obtain ⟨hplace, hunpacked, hpositions⟩ := tagWrites_fit hwell hpos htags hpartners hwrite
    have hcorner := List.getElem?_eq_getElem hplace
    have hbits : (PackedBits.unpack tag).length = (replicaPositions profile replica).length :=
      hunpacked.trans hpositions.symm
    have hne : replicaPositions profile replica ≠ [] := by
      intro hnil
      rw [hnil] at hpositions
      cases hpositions
    have hnear : ∀ placed ∈ (PackedBits.unpack tag).zip (replicaPositions profile replica),
        ∃ lattice : Int, lattice % 2 = placed.1 ∧
          |coefficientAt (tools.dct (samples (regionAt profile.regionSize
              (pageLuminance tools received)
                ((pageRegions profile page)[destination replica source])))) placed.2 -
            lattice * (profile.qimDelta : K)| ≤ margins.total profile := by
      intro placed hplaced
      obtain ⟨lattice, hbit, hclose⟩ := hdrifted.bits _ hwrite _ hcorner placed hplaced
      refine ⟨lattice, hbit, ?_⟩
      refine hmoved _ (List.mem_of_getElem? hcorner) placed.2 (List.mem_append_right _
        (mem_flatten_of_replica (List.of_mem_zip hplaced).2)) _ (hclose.trans (hwrites _))
    obtain ⟨hactual, hconfident⟩ := extractBits_near hdelta (by linarith) hbits hne hnear
    have hread : (pageRegions profile page).getD (destination replica source) (0, 0) =
        (pageRegions profile page)[destination replica source] := List.getD_eq_getElem _ _ hplace
    unfold pageCopy copyState
    rw [hregions, hread]
    dsimp only
    rw [if_pos (by linarith), if_pos hactual]

end Embedded

/-- **Round trip.**  A page that is embedded and received with its coefficients within the margins is
intact, and is verified in full: nothing is suspected and nothing is held back. -/
theorem embedded_page_verified {K : Type} [Field K] [LinearOrder K] [IsStrictOrderedRing K]
    [FloorRing K] (tools : IntegrityTools K) (value : ProfileValue) (profile : IntegrityProfile)
    (page received : IntegrityPage) (key nonce : List UInt8) (embedded : EmbeddedIntegrityPage)
    (margins : Margins K)
    (hprofile : validateIntegrityProfile tools.sha256 tools.numbers value = .ok profile)
    (henough : profile.minimumRegions ≤ (pageRegions profile page).length)
    (hembed : embedIntegrity tools page key nonce value = .ok embedded)
    (hreadable : ∀ tags partners modified, pageTags tools profile page key nonce = .ok tags →
      pagePartners tools profile page key nonce = .ok partners →
      embedTags tools profile (pageRegions profile page) partners tags
        (pageLuminance tools page) = .ok modified →
      Readable tools profile page embedded.image received tags partners modified margins) :
    (∃ tags partners, Intact tools profile received key nonce tags partners) ∧
      ∃ decision : IntegrityDecision K,
        verifyIntegrity tools received key nonce value = .ok decision ∧ decision.score = 1 ∧
          decision.suspiciousRegions = [] ∧ decision.limitations = [] ∧
          decision.evaluatedRegions = embedded.embeddedRegions := by
  have hwell := wellFormed_of_validate hprofile
  have hpos : 0 < (pageRegions profile page).length :=
    (Nat.zero_le _).trans_lt (hwell.regions.trans_le henough)
  obtain ⟨hinputs, tags, partners, modified, htags, hpartners, hmodified, hresult⟩ :=
    embedIntegrity_eq_ok hprofile henough hembed
  have hread := hreadable tags partners modified htags hpartners hmodified
  have hintact := hread.intact hwell hpos htags hpartners hmodified
  have hregions : pageRegions profile received = pageRegions profile page := by
    rw [pageRegions, hread.shape, pageRegions]
  have hverified := hintact.verified hprofile (by rw [hregions]; exact henough)
    (validateInputs_of_shape hread.shape hinputs)
  rw [hregions] at hverified
  refine ⟨⟨tags, partners, hintact⟩, ?_⟩
  rw [hresult]
  exact hverified

/-! ### A grey sheet is embedded, and received with noise -/

/-- HMAC-SHA-256, and samples that are their own coefficients. -/
def greyTools : IntegrityTools ℚ where
  hmac := hmacSha256
  sha256 := Sha256.hexdigest
  numbers := sampleNumbers
  dct := fun square ↦ square
  idct := fun coefficients ↦ coefficients
  grayOfBgr := fun pixel ↦ pixel (Fin.last 2)
  ycrcbOfBgr := fun pixel ↦ pixel
  bgrOfYcrcb := fun pixel ↦ pixel

/-- Every other sample is received one level brighter. -/
def brightened (y x : Nat) (v : UInt8) : UInt8 :=
  if (y + x) % 2 = 0 ∧ v < 255 then v + 1 else v

def noisy : IntegrityPage → IntegrityPage
  | .gray image => .gray { image with pixel := fun y x ↦ brightened y x (image.pixel y x) }
  | .bgr image => .bgr image

theorem brightened_near (y x : Nat) (v : UInt8) :
    |(((brightened y x v).toNat : Nat) : ℚ) - (v.toNat : Nat)| ≤ 1 := by
  unfold brightened
  split_ifs with hbright
  · have hlt : v.toNat < 255 := hbright.2
    have hnext : (v + 1).toNat = v.toNat + 1 := by
      rw [UInt8.toNat_add, Nat.mod_eq_of_lt (by simpa using Nat.succ_lt_succ hlt)]
      rfl
    rw [hnext, Nat.cast_succ, add_sub_cancel_left, abs_one]
  · rw [sub_self, abs_zero]
    exact zero_le_one

/-- The levels of a grey sample, the first two before its region is written. -/
def greys : List UInt8 := [128, 144, 96, 48, 0]

/-- A bit takes a level to one that at most one more write allows. -/
theorem latticeFor_grey : ∀ count < 3, ∀ v ∈ greys.take (count + 2), ∀ bit ∈ [(0 : Int), 1],
    ∃ w ∈ greys.take (count + 3),
      (latticeFor bit (((v.toNat : Nat) : ℚ) / 48) : ℚ) * 48 = (w.toNat : Nat) := by
  decide +kernel

theorem toSample_natCast (v : UInt8) : toSample ((v.toNat : Nat) : ℚ) = v := by
  have hround : Rounding.halfEven ((v.toNat : ℕ) : ℚ) = v.toNat := by
    exact_mod_cast Rounding.halfEven_intCast (K := ℚ) v.toNat
  have hlt := v.toNat_lt
  have hclip : (max 0 (min 255 ((v.toNat : ℕ) : ℤ))).toNat = v.toNat := by omega
  rw [toSample, hround, hclip]
  exact UInt8.ofNat_toNat

/-- The samples of a grey square are its coefficients. -/
theorem grey_coefficient {n : Nat} (hn : n = 128) {position : Int × Int} (h : InRegion position) :
    coefficientAt (samples (K := ℚ) fun (_ _ : Fin n) ↦ 128) position = 128 := by
  obtain ⟨⟨hrow, hrow'⟩, hcolumn, hcolumn'⟩ := h
  have hin : position.1.toNat < n ∧ position.2.toNat < n := by omega
  rw [coefficientAt, dif_pos hin]
  rfl

section Grey

variable {profile : IntegrityProfile} {image : Image UInt8} {write : TagWrite}

/-- A write aims at levels, which rounding leaves alone. -/
theorem grey_target (hwell : profile.WellFormed) (hdelta : profile.qimDelta = 48)
    (regions : List (Nat × Nat)) {count : Nat} (hcount : count < 3)
    (hbits : (PackedBits.unpack write.tag).length = (replicaPositions profile write.replica).length)
    (hgrey : ∀ i j, regionAt profile.regionSize image (regions.getD write.destination (0, 0)) i j ∈
      greys.take (count + 2)) (i j : Fin profile.regionSize) :
    writtenSamples greyTools profile regions image write i j ∈ greys.take (count + 3) ∧
      samples (writtenSamples greyTools profile regions image write) i j =
        writeTarget greyTools profile regions image write i j := by
  set placed := (PackedBits.unpack write.tag).zip (replicaPositions profile write.replica)
    with hplaced
  have hpositions : placed.map Prod.snd = replicaPositions profile write.replica := by
    rw [hplaced, List.map_snd_zip hbits.ge]
  have hnodup : (placed.map Prod.snd).Nodup := by
    rw [hpositions]
    exact nodup_replicaPositions hwell write.replica
  have hrows : ∀ row ∈ placed, InRegion row.2 := fun row hrow ↦
    hwell.inside _ (mem_flatten_of_replica (List.of_mem_zip hrow).2)
  obtain ⟨hmoved, hkept⟩ := embedded_coefficients hwell.regionSize (profile.qimDelta : ℚ) placed
    hnodup hrows
    (samples (regionAt profile.regionSize image (regions.getD write.destination (0, 0))))
  have hat : ∀ square : Square profile.regionSize ℚ,
      coefficientAt square ((i.val : Int), (j.val : Int)) = square i j := fun square ↦ by
    rw [coefficientAt, dif_pos ⟨i.isLt, j.isLt⟩]
    rfl
  have hhere : InRegion ((i.val : Int), (j.val : Int)) := by
    have hi := i.isLt.trans_eq hwell.regionSize
    have hj := j.isLt.trans_eq hwell.regionSize
    constructor <;> constructor <;> dsimp only <;> omega
  obtain ⟨w, hw, htarget⟩ : ∃ w ∈ greys.take (count + 3),
      writeTarget greyTools profile regions image write i j = ((w.toNat : Nat) : ℚ) := by
    by_cases hset : ((i.val : Int), (j.val : Int)) ∈ placed.map Prod.snd
    · obtain ⟨row, hrow, hposition⟩ := List.mem_map.mp hset
      have hbit : row.1 ∈ [(0 : Int), 1] := by
        rcases PackedBits.unpack_bit (List.of_mem_zip hrow).1 with hbit | hbit <;> simp [hbit]
      obtain ⟨w, hw, hlevel⟩ := latticeFor_grey count hcount _ (hgrey i j) row.1 hbit
      have hset := hmoved row hrow
      rw [hposition, hat, hat] at hset
      rw [← hdelta] at hlevel
      exact ⟨w, hw, hset.trans hlevel⟩
    · have hsame := hkept _ hhere hset
      rw [hat, hat] at hsame
      exact ⟨_, List.take_subset_take_left _ (Nat.le_succ _) (hgrey i j), hsame⟩
  have hwritten : writtenSamples greyTools profile regions image write i j = w := by
    show toSample (writeTarget greyTools profile regions image write i j) = w
    rw [htarget, toSample_natCast]
  rw [samples, hwritten, htarget]
  exact ⟨hw, rfl⟩

/-- A write to the sheet, with a position for every bit. -/
structure TagWrite.Fits (profile : IntegrityProfile) (write : TagWrite) : Prop where
  destination : write.destination < (pageRegions profile plainSheet).length
  bits : (PackedBits.unpack write.tag).length = (replicaPositions profile write.replica).length

/-- Behind some writes the samples of a region have a level that these allow. -/
structure Greyed (profile : IntegrityProfile) (image : Image UInt8) (done : List TagWrite) :
    Prop where
  shape : (image.height, image.width) = (640, 640)
  levels : ∀ (index : Nat) corner, (pageRegions profile plainSheet)[index]? = some corner →
    ∀ i j, regionAt profile.regionSize image corner i j ∈
      greys.take (done.countP (fun write ↦ write.destination = index) + 2)

variable {writes done rest : List TagWrite}

/-- A write neither fails nor is rounded. -/
theorem Greyed.step (hwell : profile.WellFormed) (hdelta : profile.qimDelta = 48)
    (hfits : ∀ write ∈ writes, write.Fits profile)
    (hfew : ∀ index, writes.countP (fun write ↦ write.destination = index) ≤ 3)
    (hsplit : writes = done ++ write :: rest) (h : Greyed profile image done) :
    RoundsWithin greyTools profile (pageRegions profile plainSheet) 0 image write ∧
      ∃ image', embedWrite greyTools profile (pageRegions profile plainSheet) image write =
        .ok image' ∧ Greyed profile image' (done ++ [write]) := by
  obtain ⟨hlt, hbits⟩ := hfits write (by simp [hsplit])
  have hcount := hfew write.destination
  rw [hsplit, List.countP_append, List.countP_cons, decide_eq_true rfl, if_pos rfl] at hcount
  have hcorner := List.getElem?_eq_getElem hlt
  have hread : (pageRegions profile plainSheet).getD write.destination (0, 0) =
      (pageRegions profile plainSheet)[write.destination] := List.getD_eq_getElem _ _ hlt
  have htarget := grey_target hwell hdelta (pageRegions profile plainSheet)
    (show done.countP (fun earlier ↦ earlier.destination = write.destination) < 3 by omega) hbits
    fun i j ↦ hread ▸ h.levels write.destination _ hcorner i j
  constructor
  · intro position _
    have hsame : samples (writtenSamples greyTools profile (pageRegions profile plainSheet) image
        write) = writeTarget greyTools profile (pageRegions profile plainSheet) image write :=
      funext fun i ↦ funext fun j ↦ (htarget i j).2
    show |coefficientAt (samples _) position - _| ≤ 0
    rw [hsame, sub_self, abs_zero]
  · refine ⟨_, embedWrite_eq_ok.mpr ⟨hbits, rfl⟩, h.shape, fun index corner hindex i j ↦ ?_⟩
    rw [hread, List.countP_append, List.countP_singleton]
    by_cases hhere : write.destination = index
    · subst hhere
      obtain rfl := Option.some.inj (hcorner.symm.trans hindex)
      rw [regionAt_pasteAt]
      simpa using (htarget i j).1
    · have hne := corner_ne hwell hcorner hindex (Ne.symm hhere)
      rw [regionAt_pasteAt_of_ne image (List.getElem_mem hlt) (List.mem_of_getElem? hindex) hne]
      simpa [hhere] using h.levels index corner hindex i j

theorem Greyed.run (hwell : profile.WellFormed) (hdelta : profile.qimDelta = 48)
    (hfits : ∀ write ∈ writes, write.Fits profile)
    (hfew : ∀ index, writes.countP (fun write ↦ write.destination = index) ≤ 3)
    (hsplit : writes = done ++ rest) :
    ∃ image, done.foldlM (embedWrite greyTools profile (pageRegions profile plainSheet))
      (pageLuminance greyTools plainSheet) = .ok image ∧ Greyed profile image done := by
  induction done using List.reverseRecOn generalizing rest with
  | nil => exact ⟨_, rfl, rfl, fun _ _ _ _ _ ↦ List.mem_cons_self⟩
  | append_singleton done write ih =>
    rw [List.append_assoc, List.singleton_append] at hsplit
    obtain ⟨image, himage, hgreyed⟩ := ih hsplit
    obtain ⟨-, image', hwrite, hgreyed'⟩ := hgreyed.step hwell hdelta hfits hfew hsplit
    refine ⟨image', ?_, hgreyed'⟩
    rw [List.foldlM_append, himage, ok_bind, List.foldlM_cons, hwrite, ok_bind]
    rfl

/-- With its tags in it the sheet is readable under noise of one level. -/
theorem plainSheet_readable (hwell : profile.WellFormed) (hfields : SheetFields profile)
    {tags : List (List UInt8)} {partners : List (List Nat)} {modified : Image UInt8}
    (hfits : ∀ write ∈ tagWrites partners tags, write.Fits profile)
    (hfew : ∀ index, (tagWrites partners tags).countP
      (fun write ↦ write.destination = index) ≤ 3)
    (hshape : (modified.height, modified.width) = (640, 640)) :
    Readable greyTools profile plainSheet (.gray modified) (noisy (.gray modified)) tags partners
      modified ⟨0, 0, 1⟩ := by
  obtain ⟨-, hdelta, hconfidence⟩ := hfields.2.2.2.2.2.2
  have htotal : Margins.total (⟨0, 0, 1⟩ : Margins ℚ) profile = 1 := by
    simp [Margins.total]
  refine
    { nonneg := le_rfl
      rounds := fun done write rest hsplit image himage ↦ ?_
      converted := fun corner _ position _ ↦ ?_
      shape := hshape
      received := fun corner _ position _ ↦ ?_
      clear := ?_
      features := fun corner _ position hposition ↦ ?_ }
  · obtain ⟨image', himage', hgreyed⟩ := Greyed.run hwell hdelta hfits hfew hsplit
    obtain rfl := Except.ok.inj (himage'.symm.trans himage)
    exact (hgreyed.step hwell hdelta hfits hfew hsplit).1
  · show |_ - _| ≤ (0 : ℚ)
    exact (abs_eq_zero.mpr (sub_self _)).le
  · unfold regionCoefficient coefficientAt
    split_ifs with hin
    · exact brightened_near _ _ _
    · rw [sub_self, abs_zero]
      exact zero_le_one
  · rw [htotal]
    have hclear : (profile.minimumBitConfidence : ℚ) + 2 * (1 / profile.qimDelta) ≤ 1 := by
      rw [hdelta]
      linarith
    exact hclear
  · have hlevel : Rounding.halfEven (128 / 512 : ℚ) = 0 := by decide +kernel
    have hcoefficient : regionCoefficient greyTools profile (pageLuminance greyTools plainSheet)
        corner position / profile.featureStep = 128 / 512 := by
      rw [hfields.1.1]
      exact congrArg (· / (512 : ℚ))
        (grey_coefficient hwell.regionSize (hwell.featuresInside position hposition))
    have hfeature : |(128 / 512 : ℚ) - Rounding.halfEven (128 / 512 : ℚ)| +
        1 / profile.featureStep < 1 / 2 := by
      rw [hlevel, hfields.1.1]
      norm_num
    rw [htotal]
    rw [← hcoefficient] at hfeature
    exact hfeature

theorem plainSheet_tagged (hwell : profile.WellFormed) (hfields : SheetFields profile)
    (key nonce : List UInt8) :
    ∃ tags, pageTags greyTools profile plainSheet key nonce = .ok tags := by
  obtain ⟨features, hfeatures⟩ : ∃ features, (pageRegions profile plainSheet).mapM (fun corner ↦
      contentFeature greyTools profile
        (regionAt profile.regionSize (pageLuminance greyTools plainSheet) corner)) =
          .ok features := by
    refine mapM_total fun corner _ ↦ ?_
    obtain ⟨quantized, hquantized⟩ : ∃ quantized, profile.featurePositions.mapM (fun position ↦
        featureBytes (profile.featureStep : ℚ)
          (coefficientAt (samples fun (_ _ : Fin profile.regionSize) ↦ 128) position)) =
            .ok quantized := by
      refine mapM_total fun position hposition ↦ ⟨[0, 0], ?_⟩
      rw [grey_coefficient hwell.regionSize (hwell.featuresInside position hposition),
        hfields.1.1]
      decide +kernel
    exact ⟨quantized.flatten, by
      unfold contentFeature
      exact (congrArg (· >>= _) hquantized).trans rfl⟩
  exact sheet_tagged hwell rfl hfeatures key nonce

end Grey

/-- The plain sheet is embedded, and verified in full under noise of one level. -/
theorem embedded_page_verified_sheet : ∃ embedded decision,
    embedIntegrity greyTools plainSheet (List.replicate 16 7) (List.replicate 8 9) frozenValue =
        .ok embedded ∧
      verifyIntegrity greyTools (noisy embedded.image) (List.replicate 16 7) (List.replicate 8 9)
        frozenValue = .ok decision ∧
      decision.score = 1 ∧ decision.suspiciousRegions = [] ∧ decision.limitations = [] ∧
        decision.evaluatedRegions = embedded.embeddedRegions := by
  obtain ⟨profile, hprofile, hfields⟩ := exists_sheetProfile
  have hwell := wellFormed_of_validate hprofile
  obtain ⟨tags, htags⟩ := plainSheet_tagged hwell hfields (List.replicate 16 7) (List.replicate 8 9)
  obtain ⟨partners, hpartners⟩ := sheet_partners greyTools hprofile hfields plainSheet rfl rfl
  have hregions : pageRegions profile plainSheet = integrityRegions (640, 640) 128 :=
    sheet_regions hwell rfl
  have henough : profile.minimumRegions ≤ (pageRegions profile plainSheet).length := by
    rw [hregions]
    exact hfields.2.2.1.2
  have hpos : 0 < (pageRegions profile plainSheet).length := by
    rw [hregions]
    decide
  obtain ⟨hindependent, hreplicas⟩ := independent_of_partnerRegions hpos hpartners
  have hlength := (tag_of_region htags).1
  have hfits : ∀ write ∈ tagWrites partners tags, write.Fits profile := by
    intro write hwrite
    obtain ⟨hplace, hbits, hpositions⟩ := tagWrites_fit hwell hpos htags hpartners hwrite
    exact ⟨hplace, hbits.trans hpositions.symm⟩
  have hfew : ∀ index, (tagWrites partners tags).countP
      (fun write ↦ write.destination = index) ≤ 3 := by
    intro index
    rw [← hfields.2.1.1, ← hreplicas]
    exact countP_destination_le (hlength ▸ hindependent) index
  obtain ⟨modified, hmodified, hgreyed⟩ := Greyed.run hwell hfields.2.2.2.2.2.2.2.1 hfits hfew
    (List.append_nil _).symm
  rw [← embedTags_eq] at hmodified
  have hembed : embedIntegrity greyTools plainSheet (List.replicate 16 7) (List.replicate 8 9)
      frozenValue = .ok ⟨.gray modified, (pageRegions profile plainSheet).length, []⟩ := by
    have hmany : ¬ (integrityRegions (640, 640) profile.regionSize).length <
        profile.minimumRegions := Nat.not_lt_of_le henough
    simp only [embedIntegrity, bind_eq_ok]
    refine ⟨profile, hprofile, (640, 640), sheet_inputs plainSheet hfields rfl, ?_⟩
    rw [if_neg hmany]
    simp only [bind_eq_ok]
    exact ⟨tags, htags, partners, hpartners, modified, hmodified, rfl⟩
  obtain ⟨-, decision, hdecision, hverified⟩ := embedded_page_verified greyTools frozenValue profile
    plainSheet (noisy (.gray modified)) _ _ _ ⟨0, 0, 1⟩ hprofile henough hembed
    fun tags' partners' modified' htags' hpartners' hmodified' ↦ by
      obtain rfl := Except.ok.inj (htags.symm.trans htags')
      obtain rfl := Except.ok.inj (hpartners.symm.trans hpartners')
      obtain rfl := Except.ok.inj (hmodified.symm.trans hmodified')
      exact plainSheet_readable hwell hfields hfits hfew hgreyed.shape
  exact ⟨_, decision, hembed, hdecision, hverified⟩

end Splitbind
