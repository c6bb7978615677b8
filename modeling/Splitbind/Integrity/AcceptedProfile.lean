import Splitbind.Integrity.Verification

/-!
# Accepted integrity profiles — what the checks leave

Whatever passes the checks of a profile has its coefficients inside a region and in one role each,
thresholds that a page can meet, and a text for every limitation.
-/

namespace Splitbind

open Transaction

/-! ## 1. Fields -/

/-- A coefficient of a region. -/
def InRegion (position : Int × Int) : Prop :=
  (0 ≤ position.1 ∧ position.1 < 128) ∧ 0 ≤ position.2 ∧ position.2 < 128

theorem InRegion.toNat_inj {position other : Int × Int} (h : InRegion position)
    (hother : InRegion other) (hrow : position.1.toNat = other.1.toNat)
    (hcolumn : position.2.toNat = other.2.toNat) : position = other := by
  unfold InRegion at h hother
  apply Prod.ext <;> omega

theorem inRegion_of_position? {value : Json} {position : Int × Int}
    (h : position? value = some position) : InRegion position := by
  unfold position? at h
  split at h
  · split_ifs at h with hbounds
    cases h
    exact ⟨⟨hbounds.1, hbounds.2.1⟩, hbounds.2.2⟩
  · cases h

theorem of_profilePositions {value : Json} {count : Nat} {positions : List (Int × Int)}
    (h : profilePositions value count = .ok positions) :
    positions.Nodup ∧ ∀ position ∈ positions, InRegion position := by
  cases value with
  | array items =>
    simp only [profilePositions, bind_eq_ok, exists_unit, raiseIf_eq_ok, not_not, pure_eq_ok] at h
    obtain ⟨-, positions, hpositions, hnodup, rfl⟩ := h
    refine ⟨hnodup, mapM_forall hpositions fun pair position hpair ↦ ?_⟩
    exact inRegion_of_position? ((found_eq_ok _ _ _).mp hpair)
  | _ => cases h

/-- The rows, and the columns, of a box are counted in integers. -/
theorem range_cast (n : Nat) :
    (do let index ← List.range n; pure (index : Int)) = (List.range n).map Nat.cast := by
  rw [bind_pure_comp]
  rfl

/-- A box names each of its coefficients once. -/
theorem of_coefficientBox {value : Json} {positions : List (Int × Int)}
    (h : coefficientBox value = .ok positions) :
    positions.Nodup ∧ ∀ position ∈ positions, InRegion position := by
  simp only [coefficientBox, bind_eq_ok, exists_unit, raiseIf_eq_ok, pure_eq_ok, range_cast] at h
  obtain ⟨-, -, -, row, -, column, -, rows, -, columns, -, hbounds, rfl⟩ := h
  have hcounted : ∀ n : Nat, ((List.range n).map (Nat.cast : Nat → Int)).Nodup := fun n ↦
    List.nodup_range.map Nat.cast_injective
  constructor
  · rw [List.nodup_flatMap]
    constructor
    · intro r _
      refine (hcounted _).map fun c c' hsame ↦ ?_
      have hcolumn := congrArg Prod.snd hsame
      dsimp only at hcolumn
      omega
    · refine (hcounted _).imp ?_
      intro r r' hne position hposition hposition'
      obtain ⟨c, -, rfl⟩ := List.mem_map.mp hposition
      obtain ⟨c', -, hsame⟩ := List.mem_map.mp hposition'
      have hrow := congrArg Prod.fst hsame
      dsimp only at hrow
      omega
  · intro position hposition
    obtain ⟨r, hr, hposition⟩ := List.mem_flatMap.mp hposition
    obtain ⟨c, hc, rfl⟩ := List.mem_map.mp hposition
    obtain ⟨r, hrows, rfl⟩ := List.mem_map.mp hr
    obtain ⟨c, hcolumns, rfl⟩ := List.mem_map.mp hc
    rw [List.mem_range] at hrows hcolumns
    unfold InRegion
    dsimp only
    omega

theorem of_finitePositive {numbers : PythonNumbers} {value : Json} {q : ℚ}
    (h : finitePositive numbers value = .ok q) : 0 < q := by
  cases value with
  | int i =>
    simp only [finitePositive, bind_eq_ok, exists_unit, raiseIf_eq_ok, not_le, pure_eq_ok] at h
    obtain ⟨_, -, hpos, rfl⟩ := h
    exact hpos
  | float q' =>
    simp only [finitePositive, bind_eq_ok, exists_unit, raiseIf_eq_ok, not_le, pure_eq_ok] at h
    obtain ⟨hpos, rfl⟩ := h
    exact hpos
  | _ => cases h

theorem of_unitFloat {numbers : PythonNumbers} {value : Json} {q : ℚ}
    (h : unitFloat numbers value = .ok q) : 0 < q ∧ q ≤ 1 := by
  simp only [unitFloat, bind_eq_ok, exists_unit, raiseIf_eq_ok, not_lt, pure_eq_ok] at h
  obtain ⟨_, hpos, hone, rfl⟩ := h
  exact ⟨of_finitePositive hpos, hone⟩

theorem of_profilePositiveInteger {value : Json} {count : Nat}
    (h : profilePositiveInteger value = .ok count) : 0 < count := by
  simp only [profilePositiveInteger, bind_eq_ok, exists_unit, raiseIf_eq_ok, pure_eq_ok] at h
  obtain ⟨i, -, hpos, rfl⟩ := h
  omega

/-- No coefficient is in two of the sets, or twice in one, or in a set and in the feature. -/
theorem of_tagCoefficientSets {value : Json} {shifts : List Nat}
    {featurePositions : List (Int × Int)} {sets : List (List (Int × Int))}
    (h : tagCoefficientSets value shifts featurePositions = .ok sets) :
    sets.length = shifts.length ∧ (∀ positions ∈ sets, positions.length = 32) ∧
      (∀ position ∈ sets.flatten, InRegion position) ∧ sets.flatten.Nodup ∧
      ∀ position ∈ featurePositions, position ∉ sets.flatten := by
  cases value with
  | array boxes =>
    simp only [tagCoefficientSets, bind_eq_ok, exists_unit, raiseIf_eq_ok, not_not, pure_eq_ok,
      Bool.not_eq_true, List.any_eq_false, decide_eq_true_eq, List.contains_iff_mem] at h
    obtain ⟨hcount, sets, hsets, hlength, hfeatures, hsum, rfl⟩ := h
    have hboxes : ∀ positions ∈ sets,
        positions.Nodup ∧ ∀ position ∈ positions, InRegion position :=
      mapM_forall hsets fun _ _ hbox ↦ of_coefficientBox hbox
    have hmapped : sets.length = boxes.length := (mapM_forall₂ hsets).length_eq.symm
    have hdedup : ∀ positions ∈ sets, positions.dedup.length = positions.length :=
      fun positions hpositions ↦ by rw [(hboxes positions hpositions).1.dedup]
    -- as many different coefficients as there are in all
    rw [List.map_congr_left hdedup, ← List.length_flatten] at hsum
    refine ⟨hmapped.trans hcount, hlength, fun position hposition ↦ ?_, ?_, hfeatures⟩
    · obtain ⟨positions, hpositions, hin⟩ := List.mem_flatten.mp hposition
      exact (hboxes positions hpositions).2 position hin
    · have hself := (List.dedup_sublist sets.flatten).eq_of_length hsum.symm
      rw [← hself]
      exact List.nodup_dedup _
  | _ => cases h

/-! ## 2. The profile -/

/-- What every accepted profile keeps. -/
structure IntegrityProfile.WellFormed (profile : IntegrityProfile) : Prop where
  regionSize : profile.regionSize = 128
  sets : profile.coefficientSets.length = profile.replicaShifts.length
  setLength : ∀ positions ∈ profile.coefficientSets, positions.length = 32
  inside : ∀ position ∈ profile.coefficientSets.flatten, InRegion position
  featuresInside : ∀ position ∈ profile.featurePositions, InRegion position
  nodup : profile.coefficientSets.flatten.Nodup
  featuresApart : ∀ position ∈ profile.featurePositions, position ∉ profile.coefficientSets.flatten
  featureStep : 0 < profile.featureStep
  qimDelta : 0 < profile.qimDelta
  votes : 0 < profile.minimumReplicaVotes
  votesLe : profile.minimumReplicaVotes ≤ profile.replicaShifts.length
  confidence : 0 < profile.minimumBitConfidence
  regions : profile.replicaShifts.length < profile.minimumRegions
  compressionRatio : 0 < profile.compressionRatio
  geometryRatio : 0 < profile.geometryRatio
  limitations : ∀ name ∈ ["strong_compression", "geometry_failure",
    "insufficient_complete_regions", "indeterminate"],
      (profile.limitationIds.lookup name).isSome = true

theorem lookup_isSome {α : Type} {names : List String} {rows : List (String × α)}
    (h : rows.map Prod.fst = names) {name : String} (hname : name ∈ names) :
    (rows.lookup name).isSome = true := by
  subst h
  obtain ⟨row, hrow, rfl⟩ := List.mem_map.mp hname
  exact List.lookup_isSome_iff.mpr ⟨row, hrow, BEq.rfl⟩

theorem wellFormed_of_validate {sha256 : List UInt8 → List Char} {numbers : PythonNumbers}
    {value : ProfileValue} {profile : IntegrityProfile}
    (h : validateIntegrityProfile sha256 numbers value = .ok profile) : profile.WellFormed := by
  simp only [validateIntegrityProfile, bind_eq_ok, exists_unit, pure_eq_ok] at h
  obtain ⟨-, -, -, -, -, -, sections, -, parsed, hparsed, hbounds, rfl⟩ := h
  simp only [validateBounds, bind_eq_ok, exists_unit, raiseIf_eq_ok, not_or, not_not, not_lt,
    not_le] at hbounds
  obtain ⟨⟨-, hregions⟩, hvotes, -, -⟩ := hbounds
  simp only [parseProfile, bind_eq_ok, exists_unit, pure_eq_ok] at hparsed
  obtain ⟨featurePositions, hfeatures, featureStep, hstep, replicaShifts, -, coefficientSets, hsets,
    members, -, hnames, limitationIds, hids, keyBounds, -, nonceBounds, -, -, -, partnerDomain, -,
    qimDelta, hdelta, minimumReplicaVotes, hquorum, minimumBitConfidence, hconfidence,
    minimumRegions, -, compressionRatio, hcompression, geometryRatio, hgeometry, highConfidence, -,
    maxPixels, -, keyMin, -, keyMax, -, nonceMin, -, nonceMax, -, rfl⟩ := hparsed
  obtain ⟨hcount, hlength, hinside, hnodup, happart⟩ := of_tagCoefficientSets hsets
  have hids' : limitationIds.map Prod.fst = members.map Prod.fst := by
    refine mapM_map_eq hids fun member _ row hrow ↦ ?_
    have hread := (found_eq_ok _ _ _).mp hrow
    unfold limitation? at hread
    split at hread
    · split_ifs at hread
      cases hread
      rfl
    · cases hread
  refine
    { regionSize := rfl, sets := hcount, setLength := hlength, inside := hinside
      featuresInside := (of_profilePositions hfeatures).2, nodup := hnodup
      featuresApart := happart, featureStep := of_finitePositive hstep
      qimDelta := of_finitePositive hdelta, votes := of_profilePositiveInteger hquorum
      votesLe := hvotes, confidence := (of_unitFloat hconfidence).1, regions := hregions
      compressionRatio := (of_unitFloat hcompression).1
      geometryRatio := (of_unitFloat hgeometry).1, limitations := fun name hname ↦ ?_ }
  refine lookup_isSome hids' ?_
  rw [exactKeys, raiseIf_eq_ok, Bool.not_eq_true, differentKeys, Bool.not_eq_false',
    Bool.and_eq_true] at hnames
  exact List.contains_iff_mem.mp (List.all_eq_true.mp hnames.2 name hname)

end Splitbind
