import Mathlib.Tactic.Linarith
import Splitbind.Fingerprint.SpreadChips
import Splitbind.Fingerprint.TileCodec

/-!
# The spread codec — bits in the sample means of chip groups

A bit darkens, or lightens, one of its two groups; which of the two directions is left to a tile
by its mean.  Arithmetic is exact.
-/

namespace Splitbind

open Transaction

/-! ## 1. Embedding -/

inductive Polarity
  | darken
  | lighten
deriving DecidableEq, Repr

section Codec

variable {K : Type} [Field K] [LinearOrder K]

/-- `tile.reshape(-1)`. -/
def Image.samples (image : Image K) (index : Nat) : K :=
  image.pixel (index / image.width) (index % image.width)

def validateSpreadTile (packReal : K → List UInt8) (tile : Image K) (profile : SpreadProfile K) :
    Except LayoutError PUnit := do
  let _ ← candidateIdentifierV3 packReal profile
  raiseIf (((tile.height : Int), (tile.width : Int)) ≠ (profile.tileSizePx, profile.tileSizePx))
    (.value ("tile_luminance must have contracted shape (" ++ toString profile.tileSizePx ++ ", " ++
      toString profile.tileSizePx ++ ")"))
  raiseIf (∃ index ∈ List.range (tile.height * tile.width),
      tile.samples index < 0 ∨ ((255 : Nat) : K) < tile.samples index)
    (.value "tile_luminance samples must be in the interval [0, 255]")

def validateSpreadCodeword (codeword : List UInt8) : Except LayoutError PUnit :=
  raiseIf (codeword.length ≠ 39) (.value "codeword must contain exactly 39 bytes")

def sampleMean (values : List K) : K := values.sum / (values.length : Nat)

def embeddingPolarity (tile : Image K) : Polarity :=
  if ((255 : Nat) : K) / ((2 : Nat) : K) ≤
      sampleMean ((List.range (tile.height * tile.width)).map tile.samples) then .darken
  else .lighten

/-- What embedding does to a sample of an active group. -/
def shiftSample (polarity : Polarity) (spreadDelta value : K) : K :=
  match polarity with
  | .darken => max 0 (value - spreadDelta)
  | .lighten => min ((255 : Nat) : K) (value + spreadDelta)

def activeGroup (bit : Int) (group : List Nat × List Nat) : List Nat :=
  if bit ≠ 0 then group.2 else group.1

/-- One turn of the loop of `embed_spread_codeword_v3`. -/
def embedSpreadBit (polarity : Polarity) (spreadDelta : K) (samples : Nat → K)
    (entry : Int × (List Nat × List Nat)) (index : Nat) : K :=
  if index ∈ activeGroup entry.1 entry.2 then shiftSample polarity spreadDelta (samples index)
  else samples index

def embedSpreadCodewordV3 (hmac : HmacSha256) (packReal : K → List UInt8) (tile : Image K)
    (codeword key : List UInt8) (pageIndex : Int) (profile : SpreadProfile K) :
    Except LayoutError (Image K) := do
  validateSpreadTile packReal tile profile
  validateSpreadCodeword codeword
  let groups ← chipGroups hmac packReal key pageIndex profile
  let bits := PackedBits.unpack codeword
  raiseIf (bits.length ≠ groups.length) (.value "zip() arguments differ in length")
  let embedded := (bits.zip groups).foldl
    (embedSpreadBit (embeddingPolarity tile) profile.spreadDelta) tile.samples
  return ⟨tile.height, tile.width, fun y x ↦ embedded (y * tile.width + x)⟩

/-! ## 2. Extraction -/

structure SpreadCodewordEvidence (K : Type) where
  codeword : List UInt8
  erasePositions : List Nat
  meanConfidence : K
  polarity : Polarity
  erasureRanking : List Nat

/-- What the loop over the groups accumulates. -/
structure SpreadTally (K : Type) where
  bits : List Int
  erasures : Finset Nat
  byteConfidence : Nat → WithTop K
  confidenceSum : K

def SpreadTally.empty : SpreadTally K := ⟨[], ∅, fun _ ↦ ⊤, 0⟩

/-- What the difference of the two means says. -/
def spreadBit (polarity : Polarity) (difference : K) : Int :=
  match polarity with
  | .darken => if 0 < difference then 1 else 0
  | .lighten => if 0 < difference then 0 else 1

/-- `mean(samples[group_a]) - mean(samples[group_b])`. -/
def groupDifference (samples : Nat → K) (group : List Nat × List Nat) : K :=
  sampleMean (group.1.map samples) - sampleMean (group.2.map samples)

def spreadConfidence (spreadDelta difference : K) : K := min 1 (|difference| / spreadDelta)

/-- One turn of the loop of `extract_spread_codeword_v3`. -/
def tallySpreadBit (profile : SpreadProfile K) (polarity : Polarity) (samples : Nat → K)
    (tally : SpreadTally K) (entry : (List Nat × List Nat) × Nat) : SpreadTally K :=
  let difference := groupDifference samples entry.1
  let confidence := spreadConfidence profile.spreadDelta difference
  let byteIndex := entry.2 / 8
  { bits := tally.bits ++ [spreadBit polarity difference]
    confidenceSum := tally.confidenceSum + confidence
    byteConfidence := Function.update tally.byteConfidence byteIndex
      (min (tally.byteConfidence byteIndex) confidence)
    erasures := if confidence < profile.bitConfidenceMin then insert byteIndex tally.erasures
      else tally.erasures }

/-- What is returned once all groups are read. -/
def SpreadTally.evidence (tally : SpreadTally K) (polarity : Polarity) :
    SpreadCodewordEvidence K where
  codeword := PackedBits.pack tally.bits
  erasePositions := tally.erasures.sort (· ≤ ·)
  meanConfidence := tally.confidenceSum / (tally.bits.length : Nat)
  polarity := polarity
  erasureRanking := rankErasureCandidates tally.byteConfidence 39

def extractSpreadCodewordV3 (hmac : HmacSha256) (packReal : K → List UInt8) (tile : Image K)
    (key : List UInt8) (pageIndex : Int) (profile : SpreadProfile K) (polarity : Polarity) :
    Except LayoutError (SpreadCodewordEvidence K) := do
  validateSpreadTile packReal tile profile
  let groups ← chipGroups hmac packReal key pageIndex profile
  return (groups.zipIdx.foldl (tallySpreadBit profile polarity tile.samples) .empty).evidence polarity

/-! ## 3. What embedding changes -/

section Embedding

variable {groups : List (List Nat × List Nat)} {tileSizePx chipsPerBit : Nat}

theorem ChipLayout.apart (h : ChipLayout tileSizePx chipsPerBit groups) :
    (∀ group ∈ groups, group.1.Disjoint group.2) ∧ groups.Pairwise fun group other ↦
      ∀ samples ∈ [group.1, group.2], ∀ more ∈ [other.1, other.2], samples.Disjoint more := by
  have hdisjoint := h.disjoint
  rw [allGroups, List.pairwise_flatMap] at hdisjoint
  exact ⟨fun group hgroup ↦ List.pairwise_pair.mp (hdisjoint.1 group hgroup), hdisjoint.2⟩

theorem activeGroup_mem (bit : Int) (group : List Nat × List Nat) :
    activeGroup bit group ∈ [group.1, group.2] := by
  rw [activeGroup]
  split_ifs
  · exact List.mem_cons_of_mem _ List.mem_cons_self
  · exact List.mem_cons_self

variable {polarity : Polarity} {spreadDelta : K}

/-- A sample of no active group stays. -/
theorem foldl_embed_of_notMem {entries : List (Int × (List Nat × List Nat))} {index : Nat}
    (h : ∀ entry ∈ entries, index ∉ activeGroup entry.1 entry.2) (samples : Nat → K) :
    entries.foldl (embedSpreadBit polarity spreadDelta) samples index = samples index := by
  induction entries generalizing samples with
  | nil => rfl
  | cons entry entries ih =>
    rw [List.forall_mem_cons] at h
    rw [List.foldl_cons, ih h.2]
    exact if_neg h.1

/-- A sample of a bit's groups is left to that bit. -/
theorem foldl_embed_of_mem {entries : List (Int × (List Nat × List Nat))}
    (hapart : (entries.map Prod.snd).Pairwise fun group other ↦
      ∀ samples ∈ [group.1, group.2], ∀ more ∈ [other.1, other.2], samples.Disjoint more)
    {entry : Int × (List Nat × List Nat)} (hentry : entry ∈ entries) {side : List Nat}
    (hside : side ∈ [entry.2.1, entry.2.2]) {index : Nat} (hindex : index ∈ side)
    (samples : Nat → K) :
    entries.foldl (embedSpreadBit polarity spreadDelta) samples index =
      embedSpreadBit polarity spreadDelta samples entry index := by
  induction entries generalizing samples with
  | nil => exact absurd hentry List.not_mem_nil
  | cons first entries ih =>
    rw [List.map_cons, List.pairwise_cons] at hapart
    rw [List.foldl_cons]
    rcases List.mem_cons.mp hentry with rfl | hentry
    · refine foldl_embed_of_notMem (fun other hother hmem ↦ ?_) _
      exact hapart.1 other.2 (List.mem_map_of_mem hother) side hside _ (activeGroup_mem _ _)
        hindex hmem
    · have hnot : index ∉ activeGroup first.1 first.2 := fun hmem ↦
        hapart.1 entry.2 (List.mem_map_of_mem hentry) _ (activeGroup_mem _ _) side hside hmem hindex
      have hsame : embedSpreadBit polarity spreadDelta samples first index = samples index :=
        if_neg hnot
      rw [ih hapart.2 hentry, embedSpreadBit, hsame]
      rfl

variable [IsStrictOrderedRing K]

/-- A shift keeps to its direction, to the strength and to the range. -/
theorem shiftSample_spec (polarity : Polarity) (hdelta : 0 < spreadDelta) {value : K} (hlow : 0 ≤ value)
    (hhigh : value ≤ ((255 : Nat) : K)) :
    (0 ≤ shiftSample polarity spreadDelta value ∧
        shiftSample polarity spreadDelta value ≤ ((255 : Nat) : K)) ∧
      match polarity with
      | .darken => shiftSample polarity spreadDelta value ≤ value ∧
          value - shiftSample polarity spreadDelta value ≤ spreadDelta
      | .lighten => value ≤ shiftSample polarity spreadDelta value ∧
          shiftSample polarity spreadDelta value - value ≤ spreadDelta := by
  cases polarity with
  | darken =>
    show (0 ≤ max 0 (value - spreadDelta) ∧ max 0 (value - spreadDelta) ≤ ((255 : Nat) : K)) ∧
      max 0 (value - spreadDelta) ≤ value ∧ value - max 0 (value - spreadDelta) ≤ spreadDelta
    have hmax := le_max_right 0 (value - spreadDelta)
    refine ⟨⟨le_max_left _ _, max_le (hlow.trans hhigh) (by linarith)⟩,
      max_le hlow (by linarith), by linarith⟩
  | lighten =>
    show (0 ≤ min ((255 : Nat) : K) (value + spreadDelta) ∧
      min ((255 : Nat) : K) (value + spreadDelta) ≤ ((255 : Nat) : K)) ∧
        value ≤ min ((255 : Nat) : K) (value + spreadDelta) ∧
          min ((255 : Nat) : K) (value + spreadDelta) - value ≤ spreadDelta
    have hmin := min_le_right ((255 : Nat) : K) (value + spreadDelta)
    refine ⟨⟨le_min (hlow.trans hhigh) (by linarith), min_le_left _ _⟩,
      le_min hhigh (by linarith), by linarith⟩

end Embedding

/-! ## 4. What extraction reads -/

section Extraction

variable {profile : SpreadProfile K} {polarity : Polarity} {samples : Nat → K}

theorem foldl_tally_bits (entries : List ((List Nat × List Nat) × Nat)) (tally : SpreadTally K) :
    (entries.foldl (tallySpreadBit profile polarity samples) tally).bits =
      tally.bits ++ (entries.map Prod.fst).map fun group ↦
        spreadBit polarity (groupDifference samples group) := by
  induction entries generalizing tally with
  | nil => exact (List.append_nil _).symm
  | cons entry entries ih =>
    rw [List.foldl_cons, ih, List.map_cons, List.map_cons, List.append_cons]
    rfl

/-- A byte is an erasure when one of its bits is weak. -/
theorem mem_foldl_tally_erasures (entries : List ((List Nat × List Nat) × Nat))
    (tally : SpreadTally K) (byteIndex : Nat) :
    byteIndex ∈ (entries.foldl (tallySpreadBit profile polarity samples) tally).erasures ↔
      byteIndex ∈ tally.erasures ∨ ∃ entry ∈ entries, entry.2 / 8 = byteIndex ∧
        spreadConfidence profile.spreadDelta (groupDifference samples entry.1) <
          profile.bitConfidenceMin := by
  induction entries generalizing tally with
  | nil => simp only [List.foldl_nil, List.not_mem_nil, false_and, exists_false, or_false]
  | cons entry entries ih =>
    rw [List.foldl_cons, ih, List.exists_mem_cons_iff, ← or_assoc]
    refine or_congr_left ?_
    show byteIndex ∈ (if spreadConfidence profile.spreadDelta (groupDifference samples entry.1) <
      profile.bitConfidenceMin then insert (entry.2 / 8) tally.erasures else tally.erasures) ↔ _
    split_ifs with hweak
    · rw [Finset.mem_insert, and_iff_left hweak, or_comm, eq_comm]
    · rw [iff_self_or]
      exact fun h ↦ absurd h.2 hweak

omit [LinearOrder K] in
/-- The mean of equal samples. -/
theorem sampleMean_constant [CharZero K] {group : List Nat} (hne : 0 < group.length) {value : K}
    (h : ∀ sample ∈ group, samples sample = value) : sampleMean (group.map samples) = value := by
  have hmap : group.map samples = List.replicate group.length value :=
    List.map_eq_replicate_iff.mpr h
  have hcast : ((group.length : Nat) : K) ≠ 0 := Nat.cast_ne_zero.mpr hne.ne'
  rw [sampleMean, hmap, List.sum_replicate, List.length_replicate, nsmul_eq_mul,
    mul_div_cancel_left₀ value hcast]

end Extraction

/-! ## 5. Uniform tiles -/

section Uniform

variable [IsStrictOrderedRing K] {groups : List (List Nat × List Nat)} {tileSizePx chipsPerBit : Nat}
  {polarity : Polarity} {spreadDelta value : K}

/-- The difference of the means after embedding in a uniform tile. -/
theorem groupDifference_embedded (polarity : Polarity) (spreadDelta : K)
    (hlayout : ChipLayout tileSizePx chipsPerBit groups)
    (hchips : 0 < chipsPerBit) {bits : List Int} (hlength : bits.length = groups.length)
    {samples : Nat → K} (huniform : ∀ index < tileSizePx * tileSizePx, samples index = value)
    {bit : Int} {group : List Nat × List Nat} (hentry : (bit, group) ∈ bits.zip groups) :
    groupDifference ((bits.zip groups).foldl (embedSpreadBit polarity spreadDelta) samples) group =
      if bit ≠ 0 then value - shiftSample polarity spreadDelta value
      else shiftSample polarity spreadDelta value - value := by
  obtain ⟨hwithin, hapart⟩ := hlayout.apart
  have hgroup := (List.of_mem_zip hentry).2
  have hsnd : (bits.zip groups).map Prod.snd = groups :=
    List.map_snd_zip hlength.ge
  have hall : ∀ samples ∈ [group.1, group.2], samples ∈ allGroups groups :=
    fun samples hsamples ↦ List.mem_flatMap.mpr ⟨group, hgroup, hsamples⟩
  have hsize : 0 < group.1.length ∧ 0 < group.2.length := by
    rw [hlayout.size _ (hall _ List.mem_cons_self),
      hlayout.size _ (hall _ (List.mem_cons_of_mem _ List.mem_cons_self))]
    exact ⟨hchips, hchips⟩
  have hsamples : ∀ side ∈ [group.1, group.2], ∀ sample ∈ side,
      (bits.zip groups).foldl (embedSpreadBit polarity spreadDelta) samples sample =
        if sample ∈ activeGroup bit group then shiftSample polarity spreadDelta value else value := by
    intro side hside sample hsample
    have hinside := hlayout.inside _ (hall _ hside) sample hsample
    rw [foldl_embed_of_mem (by rw [hsnd]; exact hapart) hentry hside hsample, embedSpreadBit,
      huniform sample hinside]
  have hdisjoint := hwithin group hgroup
  rw [groupDifference]
  by_cases hbit : bit ≠ 0
  · -- the second group is the active one
    have hactive : activeGroup bit group = group.2 := if_pos hbit
    rw [hactive] at hsamples
    rw [if_pos hbit, sampleMean_constant hsize.1 fun sample hsample ↦
        (hsamples _ List.mem_cons_self sample hsample).trans (if_neg (hdisjoint hsample)),
      sampleMean_constant hsize.2 fun sample hsample ↦
        (hsamples _ (List.mem_cons_of_mem _ List.mem_cons_self) sample hsample).trans
          (if_pos hsample)]
  · have hactive : activeGroup bit group = group.1 := if_neg hbit
    rw [hactive] at hsamples
    rw [if_neg hbit, sampleMean_constant hsize.1 fun sample hsample ↦
        (hsamples _ List.mem_cons_self sample hsample).trans (if_pos hsample),
      sampleMean_constant hsize.2 fun sample hsample ↦
        (hsamples _ (List.mem_cons_of_mem _ List.mem_cons_self) sample hsample).trans
          (if_neg fun h ↦ hdisjoint h hsample)]

/-- How far a sample can go in a direction. -/
def headroom (polarity : Polarity) (value : K) : K :=
  match polarity with
  | .darken => value
  | .lighten => ((255 : Nat) : K) - value

theorem shiftSample_eq (polarity : Polarity) (spreadDelta value : K) :
    shiftSample polarity spreadDelta value = match polarity with
      | .darken => value - min value spreadDelta
      | .lighten => value + min (((255 : Nat) : K) - value) spreadDelta := by
  cases polarity with
  | darken =>
    show max 0 (value - spreadDelta) = value - min value spreadDelta
    rcases le_total value spreadDelta with hle | hle
    · rw [min_eq_left hle, sub_self, max_eq_left (sub_nonpos.mpr hle)]
    · rw [min_eq_right hle, max_eq_right (sub_nonneg.mpr hle)]
  | lighten =>
    show min ((255 : Nat) : K) (value + spreadDelta) =
      value + min (((255 : Nat) : K) - value) spreadDelta
    rw [← min_add_add_left, add_sub_cancel]

/-- What extraction finds in the groups of a bit. -/
theorem spreadBit_embedded (hdelta : 0 < spreadDelta) (hroom : 0 < headroom polarity value)
    {bit : Int} (hbit : bit = 0 ∨ bit = 1) :
    spreadBit polarity (if bit ≠ 0 then value - shiftSample polarity spreadDelta value
      else shiftSample polarity spreadDelta value - value) = bit ∧
    |if bit ≠ 0 then value - shiftSample polarity spreadDelta value
      else shiftSample polarity spreadDelta value - value| =
        min (headroom polarity value) spreadDelta := by
  have hpos : 0 < min (headroom polarity value) spreadDelta := lt_min hroom hdelta
  have hneg : ¬ 0 < -min (headroom polarity value) spreadDelta := by linarith
  rw [shiftSample_eq]
  cases polarity with
  | darken =>
    rcases hbit with rfl | rfl
    · have hdifference : value - min value spreadDelta - value =
          -min (headroom .darken value) spreadDelta := by
        rw [headroom]
        ring
      rw [if_neg (not_not.mpr rfl), hdifference, abs_neg, abs_of_pos hpos]
      exact ⟨if_neg hneg, rfl⟩
    · have hdifference : value - (value - min value spreadDelta) =
          min (headroom .darken value) spreadDelta := by
        rw [headroom]
        ring
      rw [if_pos one_ne_zero, hdifference, abs_of_pos hpos]
      exact ⟨if_pos hpos, rfl⟩
  | lighten =>
    rcases hbit with rfl | rfl
    · have hdifference : value + min (((255 : Nat) : K) - value) spreadDelta - value =
          min (headroom .lighten value) spreadDelta := by
        rw [headroom]
        ring
      rw [if_neg (not_not.mpr rfl), hdifference, abs_of_pos hpos]
      exact ⟨if_pos hpos, rfl⟩
    · have hdifference : value - (value + min (((255 : Nat) : K) - value) spreadDelta) =
          -min (headroom .lighten value) spreadDelta := by
        rw [headroom]
        ring
      rw [if_pos one_ne_zero, hdifference, abs_neg, abs_of_pos hpos]
      exact ⟨if_neg hneg, rfl⟩

/-- A bit is weak when the direction leaves too little room for the confidence asked for. -/
theorem not_weak_iff {confidenceMin : K} (hdelta : 0 < spreadDelta) (hmin : confidenceMin ≤ 1)
    {difference room : K} (h : |difference| = min room spreadDelta) :
    ¬ spreadConfidence spreadDelta difference < confidenceMin ↔
      confidenceMin * spreadDelta ≤ room := by
  have hbelow : confidenceMin * spreadDelta ≤ spreadDelta := by
    have hle := mul_le_mul_of_nonneg_right hmin hdelta.le
    rwa [one_mul] at hle
  rw [spreadConfidence, h, not_lt, le_min_iff, le_div_iff₀ hdelta, le_min_iff]
  exact ⟨fun h ↦ h.2.1, fun h ↦ ⟨hmin, h, hbelow⟩⟩

end Uniform

/-! ## 6. The codec -/

section Law

variable {hmac : HmacSha256} {packReal : K → List UInt8} {key : List UInt8} {pageIndex : Int}
  {profile : SpreadProfile K} {tile : Image K} {groups : List (List Nat × List Nat)}

/-- What the checks leave of a profile. -/
theorem profile_of_identifier {identifier : List UInt8}
    (h : candidateIdentifierV3 packReal profile = .ok identifier) :
    0 < profile.spreadDelta ∧ 0 < profile.spreadChipsPerBit ∧ 0 < profile.tileSizePx ∧
      profile.bitConfidenceMin ≤ 1 := by
  simp only [candidateIdentifierV3, validateProfileV3, bind_eq_ok, exists_unit, raiseIf_eq_ok,
    requireEach_eq_ok] at h
  obtain ⟨⟨-, -, hreals, hintegers, hfractions, -⟩, -⟩ := h
  have hdelta := hreals (profile.spreadDelta, "profile.spread_delta") (by
    simp [SpreadProfile.positiveReals])
  have hchips := hintegers (profile.spreadChipsPerBit, "profile.spread_chips_per_bit") (by
    simp [SpreadProfile.positiveIntegers])
  have htile := hintegers (profile.tileSizePx, "profile.tile_size_px") (by
    simp [SpreadProfile.positiveIntegers])
  have hconfidence := hfractions (profile.bitConfidenceMin, "profile.bit_confidence_min") (by
    simp [SpreadProfile.fractions])
  exact ⟨not_le.mp hdelta, not_le.mp hchips, not_le.mp htile, (not_not.mp hconfidence).2⟩

/-- A tile of the contracted shape with samples in the range. -/
structure SpreadTile (profile : SpreadProfile K) (tile : Image K) : Prop where
  height : (tile.height : Int) = profile.tileSizePx
  width : (tile.width : Int) = profile.tileSizePx
  range : ∀ index < tile.height * tile.width,
    0 ≤ tile.samples index ∧ tile.samples index ≤ ((255 : Nat) : K)

theorem identifier_of_chipGroups (h : chipGroups hmac packReal key pageIndex profile = .ok groups) :
    ∃ identifier, candidateIdentifierV3 packReal profile = .ok identifier := by
  simp only [chipGroups, validateSpreadBinding, bind_eq_ok] at h
  obtain ⟨identifier, ⟨_, -, _, -, hidentifier⟩, -⟩ := h
  exact ⟨identifier, hidentifier⟩

theorem validateSpreadTile_ok {identifier : List UInt8}
    (hprofile : candidateIdentifierV3 packReal profile = .ok identifier)
    (htile : SpreadTile profile tile) : validateSpreadTile packReal tile profile = .ok ⟨⟩ := by
  have hshape : ¬ ((tile.height : Int), (tile.width : Int)) ≠
      (profile.tileSizePx, profile.tileSizePx) := by
    rw [not_not, htile.height, htile.width]
  have hrange : ¬ ∃ index ∈ List.range (tile.height * tile.width),
      tile.samples index < 0 ∨ ((255 : Nat) : K) < tile.samples index := by
    rintro ⟨index, hindex, hout⟩
    obtain ⟨hlow, hhigh⟩ := htile.range index (List.mem_range.mp hindex)
    exact hout.elim (not_lt.mpr hlow) (not_lt.mpr hhigh)
  rw [validateSpreadTile, hprofile, ok_bind, raiseIf_neg hshape, ok_bind, raiseIf_neg hrange]

/-- The samples after embedding. -/
def embeddedSamples (profile : SpreadProfile K) (tile : Image K) (codeword : List UInt8)
    (groups : List (List Nat × List Nat)) : Nat → K :=
  ((PackedBits.unpack codeword).zip groups).foldl
    (embedSpreadBit (embeddingPolarity tile) profile.spreadDelta) tile.samples

def embeddedTile (profile : SpreadProfile K) (tile : Image K) (codeword : List UInt8)
    (groups : List (List Nat × List Nat)) : Image K :=
  ⟨tile.height, tile.width,
    fun y x ↦ embeddedSamples profile tile codeword groups (y * tile.width + x)⟩

theorem embeddedTile_samples (codeword : List UInt8) (index : Nat) :
    (embeddedTile profile tile codeword groups).samples index =
      embeddedSamples profile tile codeword groups index := by
  show embeddedSamples profile tile codeword groups
    (index / tile.width * tile.width + index % tile.width) = _
  rw [Nat.div_add_mod']

theorem embedSpreadCodewordV3_eq
    (hgroups : chipGroups hmac packReal key pageIndex profile = .ok groups)
    (htile : SpreadTile profile tile) {codeword : List UInt8} (hcodeword : codeword.length = 39) :
    embedSpreadCodewordV3 hmac packReal tile codeword key pageIndex profile =
      .ok (embeddedTile profile tile codeword groups) := by
  obtain ⟨identifier, hprofile⟩ := identifier_of_chipGroups hgroups
  have hlength : ¬ (PackedBits.unpack codeword).length ≠ groups.length := by
    rw [not_not, PackedBits.length_unpack, hcodeword, (chipGroups_layout hgroups).count]
    rfl
  rw [embedSpreadCodewordV3, validateSpreadTile_ok hprofile htile, ok_bind,
    validateSpreadCodeword, raiseIf_neg (not_not.mpr hcodeword), ok_bind, hgroups, ok_bind]
  simp only [raiseIf_neg hlength, ok_bind]
  rfl

/-- Every sample of an active group goes in the one direction, by the strength at most, and every
other sample stays. -/
structure SpreadEmbedding (profile : SpreadProfile K) (codeword : List UInt8)
    (groups : List (List Nat × List Nat)) (tile embedded : Image K) : Prop where
  shape : (embedded.height, embedded.width) = (tile.height, tile.width)
  inactive : ∀ index < tile.height * tile.width,
    (∀ entry ∈ (PackedBits.unpack codeword).zip groups, index ∉ activeGroup entry.1 entry.2) →
      embedded.samples index = tile.samples index
  direction : ∀ index < tile.height * tile.width,
    match embeddingPolarity tile with
    | .darken => embedded.samples index ≤ tile.samples index ∧
        tile.samples index - embedded.samples index ≤ profile.spreadDelta
    | .lighten => tile.samples index ≤ embedded.samples index ∧
        embedded.samples index - tile.samples index ≤ profile.spreadDelta
  range : ∀ index < tile.height * tile.width,
    0 ≤ embedded.samples index ∧ embedded.samples index ≤ ((255 : Nat) : K)

/-- A sample is shifted or stays. -/
theorem embeddedSamples_cases
    (hlayout : ChipLayout profile.tileSizePx.toNat profile.spreadChipsPerBit.toNat groups)
    {codeword : List UInt8} (hlength : (PackedBits.unpack codeword).length = groups.length)
    (index : Nat) :
    embeddedSamples profile tile codeword groups index = tile.samples index ∨
      embeddedSamples profile tile codeword groups index =
        shiftSample (embeddingPolarity tile) profile.spreadDelta (tile.samples index) := by
  by_cases hactive : ∀ entry ∈ (PackedBits.unpack codeword).zip groups,
      index ∉ activeGroup entry.1 entry.2
  · exact .inl (foldl_embed_of_notMem hactive _)
  · push Not at hactive
    obtain ⟨entry, hentry, hindex⟩ := hactive
    have hsnd : ((PackedBits.unpack codeword).zip groups).map Prod.snd = groups :=
      List.map_snd_zip hlength.ge
    right
    rw [embeddedSamples, foldl_embed_of_mem (by rw [hsnd]; exact hlayout.apart.2) hentry
      (activeGroup_mem entry.1 entry.2) hindex]
    exact if_pos hindex

/-- What is embedded is a tile again. -/
theorem SpreadEmbedding.spreadTile {codeword : List UInt8} {embedded : Image K}
    (h : SpreadEmbedding profile codeword groups tile embedded) (htile : SpreadTile profile tile) :
    SpreadTile profile embedded := by
  obtain ⟨hheight, hwidth⟩ := Prod.mk.inj h.shape
  refine ⟨by rw [hheight, htile.height], by rw [hwidth, htile.width], fun index hindex ↦ ?_⟩
  rw [hheight, hwidth] at hindex
  exact h.range index hindex

variable [IsStrictOrderedRing K]

theorem spreadEmbedding_of_groups
    (hgroups : chipGroups hmac packReal key pageIndex profile = .ok groups)
    (htile : SpreadTile profile tile) {codeword : List UInt8} (hcodeword : codeword.length = 39) :
    SpreadEmbedding profile codeword groups tile (embeddedTile profile tile codeword groups) := by
  obtain ⟨identifier, hprofile⟩ := identifier_of_chipGroups hgroups
  have hdelta := (profile_of_identifier hprofile).1
  have hlayout := chipGroups_layout hgroups
  have hlength : (PackedBits.unpack codeword).length = groups.length := by
    rw [PackedBits.length_unpack, hcodeword, hlayout.count]
    rfl
  refine ⟨rfl, fun index _ hinactive ↦ ?_, fun index hindex ↦ ?_, fun index hindex ↦ ?_⟩
  · rw [embeddedTile_samples]
    exact foldl_embed_of_notMem hinactive _
  · obtain ⟨hlow, hhigh⟩ := htile.range index hindex
    have hshift := (shiftSample_spec (embeddingPolarity tile) hdelta hlow hhigh).2
    rw [embeddedTile_samples]
    rcases embeddedSamples_cases hlayout hlength index with hsame | hshifted
    · rw [hsame]
      cases embeddingPolarity tile with
      | darken => exact ⟨le_refl _, by rw [sub_self]; exact hdelta.le⟩
      | lighten => exact ⟨le_refl _, by rw [sub_self]; exact hdelta.le⟩
    · rw [hshifted]
      exact hshift
  · obtain ⟨hlow, hhigh⟩ := htile.range index hindex
    rw [embeddedTile_samples]
    rcases embeddedSamples_cases hlayout hlength index with hsame | hshifted
    · rw [hsame]
      exact ⟨hlow, hhigh⟩
    · rw [hshifted]
      exact (shiftSample_spec (embeddingPolarity tile) hdelta hlow hhigh).1

/-- A uniform tile is darkened from the middle of the range on, and has the larger half of it to
go. -/
theorem embeddingPolarity_uniform {value : K} (hpos : 0 < tile.height * tile.width)
    (huniform : ∀ index < tile.height * tile.width, tile.samples index = value) :
    headroom (embeddingPolarity tile) value = max value (((255 : Nat) : K) - value) ∧
      0 < headroom (embeddingPolarity tile) value := by
  have hmean : sampleMean ((List.range (tile.height * tile.width)).map tile.samples) = value :=
    sampleMean_constant (by rw [List.length_range]; exact hpos) fun index hindex ↦
      huniform index (List.mem_range.mp hindex)
  have hwhole : (0 : K) < ((255 : Nat) : K) := Nat.cast_pos.mpr (by decide)
  have htwo : ((2 : Nat) : K) = 1 + 1 := by norm_num
  have hhalf : ((255 : Nat) : K) / ((2 : Nat) : K) ≤ value ↔ ((255 : Nat) : K) - value ≤ value := by
    rw [div_le_iff₀ (Nat.cast_pos.mpr two_pos), htwo, mul_add, mul_one]
    exact sub_le_iff_le_add.symm
  rw [embeddingPolarity, hmean]
  split_ifs with hdark
  · have hle := hhalf.mp hdark
    exact ⟨(max_eq_left hle).symm, by show 0 < value; linarith⟩
  · have hlt := not_le.mp (mt hhalf.mpr hdark)
    exact ⟨(max_eq_right hlt.le).symm, by show 0 < ((255 : Nat) : K) - value; linarith⟩

omit [IsStrictOrderedRing K] [LinearOrder K] [Field K] in
/-- A function that gives back what stands beside its argument gives back the list. -/
theorem map_eq_of_zip {α β : Type} {xs : List α} {ys : List β} {f : β → α}
    (hlength : xs.length = ys.length) (h : ∀ entry ∈ xs.zip ys, f entry.2 = entry.1) :
    ys.map f = xs := by
  calc ys.map f = ((xs.zip ys).map Prod.snd).map f := by rw [List.map_snd_zip hlength.ge]
    _ = (xs.zip ys).map fun entry ↦ f entry.2 := List.map_map
    _ = (xs.zip ys).map Prod.fst := List.map_congr_left h
    _ = xs := List.map_fst_zip hlength.le

/-- **Extraction from a uniform tile.** -/
theorem extract_uniform (hgroups : chipGroups hmac packReal key pageIndex profile = .ok groups)
    (htile : SpreadTile profile tile) {value : K}
    (huniform : ∀ index < tile.height * tile.width, tile.samples index = value)
    {codeword : List UInt8} (hcodeword : codeword.length = 39) :
    ∃ evidence, extractSpreadCodewordV3 hmac packReal (embeddedTile profile tile codeword groups)
        key pageIndex profile (embeddingPolarity tile) = .ok evidence ∧
      evidence.codeword = codeword ∧ (evidence.erasePositions = [] ↔
        profile.bitConfidenceMin * profile.spreadDelta ≤
          max value (((255 : Nat) : K) - value)) := by
  obtain ⟨identifier, hprofile⟩ := identifier_of_chipGroups hgroups
  obtain ⟨hdelta, hchips, hsize, hconfidence⟩ := profile_of_identifier hprofile
  have hlayout := chipGroups_layout hgroups
  have hlength : (PackedBits.unpack codeword).length = groups.length := by
    rw [PackedBits.length_unpack, hcodeword, hlayout.count]
    rfl
  have hside : tile.height = profile.tileSizePx.toNat ∧ tile.width = profile.tileSizePx.toNat := by
    have hheight := htile.height
    have hwidth := htile.width
    omega
  have hpos : 0 < tile.height * tile.width := by
    rw [hside.1, hside.2]
    exact Nat.mul_pos (by omega) (by omega)
  have hinside : ∀ index < profile.tileSizePx.toNat * profile.tileSizePx.toNat,
      tile.samples index = value := by
    intro index hindex
    exact huniform index (by rwa [hside.1, hside.2])
  obtain ⟨hroom, hroomPos⟩ := embeddingPolarity_uniform hpos huniform
  have hembedded := (spreadEmbedding_of_groups hgroups htile hcodeword).spreadTile htile
  -- every bit comes back, with the confidence that the room allows
  have hread : ∀ entry ∈ (PackedBits.unpack codeword).zip groups,
      spreadBit (embeddingPolarity tile) (groupDifference
          (embeddedTile profile tile codeword groups).samples entry.2) = entry.1 ∧
        (¬ spreadConfidence profile.spreadDelta (groupDifference
          (embeddedTile profile tile codeword groups).samples entry.2) <
            profile.bitConfidenceMin ↔ profile.bitConfidenceMin * profile.spreadDelta ≤
              max value (((255 : Nat) : K) - value)) := by
    intro entry hentry
    have hsamples : (embeddedTile profile tile codeword groups).samples =
        embeddedSamples profile tile codeword groups :=
      funext fun index ↦ embeddedTile_samples codeword index
    have hdifference := groupDifference_embedded (embeddingPolarity tile) profile.spreadDelta hlayout
      (by omega) hlength hinside hentry
    obtain ⟨hbit, habs⟩ := spreadBit_embedded hdelta hroomPos
      (PackedBits.unpack_bit (List.of_mem_zip hentry).1)
    rw [hsamples, embeddedSamples, hdifference, ← hroom]
    exact ⟨hbit, not_weak_iff hdelta hconfidence habs⟩
  have hgroup : ∀ entry ∈ groups.zipIdx,
      ∃ bit, (bit, entry.1) ∈ (PackedBits.unpack codeword).zip groups := by
    intro entry hentry
    have hmem : entry.1 ∈ ((PackedBits.unpack codeword).zip groups).map Prod.snd := by
      rw [List.map_snd_zip hlength.ge]
      exact List.fst_mem_of_mem_zipIdx hentry
    obtain ⟨⟨bit, _⟩, hzip, rfl⟩ := List.mem_map.mp hmem
    exact ⟨bit, hzip⟩
  refine ⟨(groups.zipIdx.foldl (tallySpreadBit profile (embeddingPolarity tile)
    (embeddedTile profile tile codeword groups).samples) .empty).evidence (embeddingPolarity tile),
    ?_, ?_, ?_⟩
  · rw [extractSpreadCodewordV3, validateSpreadTile_ok hprofile hembedded, ok_bind, hgroups,
      ok_bind]
    rfl
  · show PackedBits.pack (groups.zipIdx.foldl _ SpreadTally.empty).bits = codeword
    have hbits : (groups.map fun group ↦ spreadBit (embeddingPolarity tile) (groupDifference
        (embeddedTile profile tile codeword groups).samples group)) =
          PackedBits.unpack codeword :=
      map_eq_of_zip hlength fun entry hentry ↦ (hread entry hentry).1
    rw [foldl_tally_bits, List.zipIdx_map_fst, hbits]
    exact PackedBits.pack_unpack codeword
  · show (groups.zipIdx.foldl _ SpreadTally.empty).erasures.sort (· ≤ ·) = [] ↔ _
    rw [← List.length_eq_zero_iff, Finset.length_sort, Finset.card_eq_zero,
      Finset.eq_empty_iff_forall_notMem]
    constructor
    · intro hnone
      obtain ⟨entry, hentry⟩ : ∃ entry, entry ∈ groups.zipIdx := by
        refine List.exists_mem_of_length_pos ?_
        rw [List.length_zipIdx, hlayout.count]
        decide
      obtain ⟨bit, hzip⟩ := hgroup entry hentry
      refine (hread _ hzip).2.mp fun hweak ↦ hnone (entry.2 / 8) ?_
      exact (mem_foldl_tally_erasures _ _ _).mpr (.inr ⟨entry, hentry, rfl, hweak⟩)
    · intro henough byteIndex hmem
      rcases (mem_foldl_tally_erasures _ _ _).mp hmem with hempty | ⟨entry, hentry, -, hweak⟩
      · exact absurd hempty (Finset.notMem_empty byteIndex)
      · obtain ⟨bit, hzip⟩ := hgroup entry hentry
        exact (hread _ hzip).2.mpr henough hweak

end Law

/-- **The spread codec.** The groups are disjoint and of the size asked for, embedding keeps to the
active ones, to one direction and to the range, and a uniform tile gives the codeword back; it gives
it back without an erasure exactly when its larger half has room for the confidence asked for. -/
theorem spread_codec [IsStrictOrderedRing K] {hmac : HmacSha256} {packReal : K → List UInt8}
    {key : List UInt8} {pageIndex : Int} {profile : SpreadProfile K}
    {groups : List (List Nat × List Nat)}
    (hgroups : chipGroups hmac packReal key pageIndex profile = .ok groups) :
    (ChipLayout profile.tileSizePx.toNat profile.spreadChipsPerBit.toNat groups ∧
        (allGroups groups).length = 624) ∧
      (∀ (tile : Image K) (codeword : List UInt8), SpreadTile profile tile → codeword.length = 39 →
        ∃ embedded, embedSpreadCodewordV3 hmac packReal tile codeword key pageIndex profile =
          .ok embedded ∧ SpreadEmbedding profile codeword groups tile embedded) ∧
      ∀ (tile : Image K) (codeword : List UInt8) (value : K), SpreadTile profile tile →
        codeword.length = 39 →
        (∀ index < tile.height * tile.width, tile.samples index = value) →
        ∃ embedded evidence,
          embedSpreadCodewordV3 hmac packReal tile codeword key pageIndex profile =
            .ok embedded ∧
          extractSpreadCodewordV3 hmac packReal embedded key pageIndex profile
            (embeddingPolarity tile) = .ok evidence ∧
          evidence.codeword = codeword ∧ (evidence.erasePositions = [] ↔
            profile.bitConfidenceMin * profile.spreadDelta ≤
              max value (((255 : Nat) : K) - value)) := by
  have hlayout := chipGroups_layout hgroups
  refine ⟨⟨hlayout, ?_⟩, fun tile codeword htile hcodeword ↦ ?_,
    fun tile codeword value htile hcodeword huniform ↦ ?_⟩
  · rw [length_allGroups, hlayout.count]
    rfl
  · exact ⟨_, embedSpreadCodewordV3_eq hgroups htile hcodeword,
      spreadEmbedding_of_groups hgroups htile hcodeword⟩
  · obtain ⟨evidence, hextract, hcodeword', herasures⟩ :=
      extract_uniform hgroups htile huniform hcodeword
    exact ⟨_, evidence, embedSpreadCodewordV3_eq hgroups htile hcodeword, hextract, hcodeword',
      herasures⟩

end Codec

/-! ### A stream of zeros -/

/-- A digest that says zero throughout. -/
def zeroHmac : HmacSha256 where
  digest := fun _ _ ↦ List.replicate 32 0
  length_digest := fun _ _ ↦ List.length_replicate

/-- The stream has so many zeros left, and nothing else. -/
def Zeros (count : Nat) (stream : HmacByteStream) : Prop :=
  ∃ rest, count ≤ rest ∧ stream.supply zeroHmac chipStreamDomain = List.replicate rest 0

theorem fromBytes_zeros (count : Nat) : BigEndian.fromBytes (List.replicate count 0) = 0 := by
  induction count with
  | zero => rfl
  | succ count ih =>
    rw [List.replicate_succ', BigEndian.fromBytes_concat, ih]
    rfl

theorem byteCount_le_two {upperBound : Nat} (h : upperBound < 2 ^ 16) : byteCount upperBound ≤ 2 := by
  have hsize := Nat.size_le.mpr h
  rw [byteCount]
  omega

/-- A draw takes two bytes at most. -/
theorem drawBelow_zeros {upperBound rest : Nat} (hpos : 0 < upperBound) (hsmall : upperBound < 2 ^ 16)
    (hrest : 2 ≤ rest) :
    drawBelow upperBound (List.replicate rest 0) =
      .ok (0, List.replicate (rest - byteCount upperBound) 0) := by
  have hbytes := byteCount_le_two hsmall
  have hone := byteCount_pos upperBound
  have htake : BigEndian.fromBytes ((List.replicate rest (0 : UInt8)).take (byteCount upperBound)) =
      0 := by
    rw [List.take_replicate, fromBytes_zeros]
  rw [drawBelow, Rejection.sample, if_neg (by rw [List.length_replicate]; omega)]
  dsimp only
  rw [htake, if_pos (acceptanceLimit_pos hpos), Nat.zero_mod, List.drop_replicate, found_some]

theorem chipBelow_zeros {upperBound count : Nat} {stream : HmacByteStream} (hpos : 0 < upperBound)
    (hsmall : upperBound < 2 ^ 16) (hzeros : Zeros (count + 2) stream) :
    ∃ next, chipBelow zeroHmac upperBound stream = .ok (0, next) ∧ Zeros count next := by
  obtain ⟨rest, hrest, hsupply⟩ := hzeros
  have hbytes := byteCount_le_two hsmall
  have hdraw := stream.accept_supply zeroHmac chipStreamDomain upperBound
  rw [hsupply, drawBelow_zeros hpos hsmall (by omega)] at hdraw
  cases haccept : stream.accept zeroHmac chipStreamDomain upperBound with
  | error e =>
    rw [haccept] at hdraw
    cases hdraw
  | ok drawn =>
    rw [haccept] at hdraw
    obtain ⟨hvalue, hnext⟩ := Prod.mk.inj (Except.ok.inj hdraw)
    exact ⟨drawn.2, haccept.trans (by rw [← hvalue]), rest - byteCount upperBound, by omega, hnext⟩

/-- A supply of zeros that is long enough lasts for the draws of a shuffle. -/
theorem drawsFrom_zeros {index count : Nat} (hindex : index + 1 < 2 ^ 16) (hcount : 2 * index ≤ count) :
    ∃ rest, FisherYates.drawsFrom drawBelow index (List.replicate count 0) = .ok rest := by
  induction index generalizing count with
  | zero => exact ⟨_, rfl⟩
  | succ index ih =>
    have hbytes : byteCount (index + 2) ≤ 2 := byteCount_le_two hindex
    rw [FisherYates.drawsFrom, drawBelow_zeros (Nat.succ_pos (index + 1)) hindex (by omega), ok_bind]
    exact ih (by omega) (show 2 * index ≤ count - byteCount (index + 2) by omega)

theorem shuffleFrom_zeros {index count : Nat} (hindex : index + 1 < 2 ^ 16) (values : Array Nat)
    {stream : HmacByteStream} (hzeros : Zeros (count + 2 * index) stream) :
    ∃ shuffled next, FisherYates.shuffleFrom (chipBelow zeroHmac) index values stream =
      .ok (shuffled, next) ∧ Zeros count next := by
  induction index generalizing values stream with
  | zero => exact ⟨values, stream, rfl, hzeros⟩
  | succ index ih =>
    obtain ⟨next, hdraw, hnext⟩ := chipBelow_zeros (Nat.succ_pos (index + 1)) hindex
      (show Zeros (count + 2 * index + 2) stream from hzeros)
    rw [FisherYates.shuffleFrom, hdraw]
    exact ih (by omega) _ hnext

theorem bitGroups_zeros {tileSizePx count : Nat} (blocks : List Nat) {stream : HmacByteStream}
    (hzeros : Zeros (count + 2 * blocks.length) stream) :
    ∃ group next, bitGroups (chipBelow zeroHmac) tileSizePx blocks stream = .ok (group, next) ∧
      Zeros count next := by
  induction blocks generalizing stream with
  | nil => exact ⟨_, stream, rfl, hzeros⟩
  | cons blockIndex blocks ih =>
    obtain ⟨next, hdraw, hnext⟩ := chipBelow_zeros (show 0 < 4 by decide) (by decide)
      (show Zeros (count + 2 * blocks.length + 2) stream from hzeros)
    obtain ⟨group, last, hgroup, hlast⟩ := ih hnext
    rw [bitGroups, hdraw, ok_bind]
    simp only [hgroup, ok_bind]
    exact ⟨_, last, rfl, hlast⟩

theorem groupsFrom_zeros {tileSizePx blocksPerBit bits : Nat} (selected : List Nat)
    {stream : HmacByteStream} (hzeros : Zeros (2 * (bits * blocksPerBit)) stream) :
    ∃ groups, groupsFrom (chipBelow zeroHmac) tileSizePx blocksPerBit bits selected stream =
      .ok groups := by
  induction bits generalizing selected stream with
  | zero => exact ⟨[], rfl⟩
  | succ bits ih =>
    have henough : Zeros (2 * (bits * blocksPerBit) + 2 * (selected.take blocksPerBit).length)
        stream := by
      obtain ⟨rest, hrest, hsupply⟩ := hzeros
      have hbits : (bits + 1) * blocksPerBit = bits * blocksPerBit + blocksPerBit :=
        Nat.succ_mul bits blocksPerBit
      refine ⟨rest, ?_, hsupply⟩
      rw [List.length_take]
      omega
    obtain ⟨group, next, hgroup, hnext⟩ := bitGroups_zeros _ henough
    obtain ⟨groups, hgroups⟩ := ih (selected.drop blocksPerBit) hnext
    rw [groupsFrom, hgroup, ok_bind]
    simp only [hgroups, ok_bind]
    exact ⟨_, rfl⟩

/-- The frozen profile of 512 pixels, with another strength and confidence. -/
def sampleSpreadProfile (spreadDelta bitConfidenceMin : ℚ) : SpreadProfile ℚ where
  schemaVersion := 3
  contractSha256 := List.replicate 32 0
  qimDelta := 32
  pilotStrengthRms := 2
  spreadDelta := spreadDelta
  spreadChipsPerBit := 64
  saturatedFractionMin := 3 / 4
  saturationLow := 16
  saturationHigh := 239
  tileSizePx := 512
  tilesPerPage := 18
  payloadRepetitions := 3
  bitReplication := 3
  bitConfidenceMin := bitConfidenceMin
  pilotScoreMin := 1 / 5
  maxGeometryHypotheses := 8
  geometryRatioTolerance := 1 / 1000
  cropRetainedScales := [866 / 1000]
  resizeInterpolation := "INTER_CUBIC".toList

theorem zeroHmac_supply {stream : HmacByteStream} {streamDomain : List UInt8}
    (hbuffer : stream.buffer = []) :
    stream.supply zeroHmac streamDomain =
      List.replicate ((blockCount - stream.counter) * 32) 0 := by
  rw [HmacByteStream.supply, hbuffer, List.nil_append, blocksFrom]
  refine flatMap_replicate.trans ?_
  rw [List.length_range']

theorem zeroHmac_chipGroups {spreadDelta bitConfidenceMin : ℚ} {identifier : List UInt8}
    (h : candidateIdentifierV3 (fun _ ↦ List.replicate 8 0)
      (sampleSpreadProfile spreadDelta bitConfidenceMin) = .ok identifier) :
    ∃ groups, chipGroups zeroHmac (fun _ ↦ List.replicate 8 0) [1] 0
      (sampleSpreadProfile spreadDelta bitConfidenceMin) = .ok groups := by
  have hbinding : validateSpreadBinding (fun _ ↦ List.replicate 8 0) [1] 0
      (sampleSpreadProfile spreadDelta bitConfidenceMin) = .ok identifier := h
  have hsupply : (⟨zeroHmac.digest [1] (chipSeedDomain ++ BigEndian.toBytes 4 0 ++ identifier), 0,
      []⟩ : HmacByteStream).supply zeroHmac chipStreamDomain = List.replicate (blockCount * 32) 0 :=
    zeroHmac_supply rfl
  have hcapacity : ¬ (512 / 8) ^ 2 < spreadBitCount * 4 := by decide
  obtain ⟨shuffled, next, hshuffle, hnext⟩ := shuffleFrom_zeros (show 4095 + 1 < 2 ^ 16 by decide)
    (List.range ((512 / 8) ^ 2)).toArray
    ⟨blockCount * 32, show 2 * (spreadBitCount * 4) + 2 * 4095 ≤ blockCount * 32 by decide,
      hsupply⟩
  obtain ⟨groups, hgroups⟩ := groupsFrom_zeros
    (shuffled.toList.take (spreadBitCount * 4)) hnext
  have hshuffle' : FisherYates.shuffle (chipBelow zeroHmac) (List.range ((512 / 8) ^ 2)).toArray
      ⟨zeroHmac.digest [1] (chipSeedDomain ++ BigEndian.toBytes 4 0 ++ identifier), 0, []⟩ =
        .ok (shuffled, next) := by
    rw [FisherYates.shuffle, List.size_toArray, List.length_range]
    exact hshuffle
  have hchips : ¬ (sampleSpreadProfile spreadDelta bitConfidenceMin).spreadChipsPerBit % 16 ≠ 0 :=
    not_not.mpr rfl
  have hblocks :
      ((sampleSpreadProfile spreadDelta bitConfidenceMin).spreadChipsPerBit / 16).toNat = 4 := rfl
  have hside : (sampleSpreadProfile spreadDelta bitConfidenceMin).tileSizePx.toNat = 512 := rfl
  refine ⟨groups, ?_⟩
  rw [chipGroups, hbinding, ok_bind, raiseIf_neg hchips, ok_bind]
  simp only [hblocks, hside, raiseIf_neg hcapacity, ok_bind, Int.toNat_zero, hshuffle']
  exact hgroups

/-- The tile whose samples are all in the middle of the range. -/
def greyTile : Image ℚ := ⟨512, 512, fun _ _ ↦ 255 / 2⟩

theorem greyTile_spread (spreadDelta bitConfidenceMin : ℚ) :
    SpreadTile (sampleSpreadProfile spreadDelta bitConfidenceMin) greyTile ∧
      ∀ index < greyTile.height * greyTile.width, greyTile.samples index = 255 / 2 :=
  ⟨⟨rfl, rfl, fun _ _ ↦ by show (0 : ℚ) ≤ 255 / 2 ∧ (255 : ℚ) / 2 ≤ ((255 : Nat) : ℚ); norm_num⟩,
    fun _ _ ↦ rfl⟩

theorem sampleSpreadProfile_accepted :
    (∃ identifier, candidateIdentifierV3 (fun _ ↦ List.replicate 8 0)
        (sampleSpreadProfile 4 (3 / 5)) = .ok identifier) ∧
      ∃ identifier, candidateIdentifierV3 (fun _ ↦ List.replicate 8 0) (sampleSpreadProfile 300 1) =
        .ok identifier := by
  exact ⟨exists_ok (by decide +kernel), exists_ok (by decide +kernel)⟩

/-- With the frozen strength a grey tile gives its codeword back without an erasure. -/
theorem greyTile_read : ∃ groups embedded evidence,
    chipGroups zeroHmac (fun _ ↦ List.replicate 8 0) [1] 0 (sampleSpreadProfile 4 (3 / 5)) =
      .ok groups ∧
    embedSpreadCodewordV3 zeroHmac (fun _ ↦ List.replicate 8 0) greyTile (List.replicate 39 0x5a)
      [1] 0 (sampleSpreadProfile 4 (3 / 5)) = .ok embedded ∧
    extractSpreadCodewordV3 zeroHmac (fun _ ↦ List.replicate 8 0) embedded [1] 0
      (sampleSpreadProfile 4 (3 / 5)) (embeddingPolarity greyTile) = .ok evidence ∧
    evidence.codeword = List.replicate 39 0x5a ∧ evidence.erasePositions = [] := by
  obtain ⟨⟨identifier, hprofile⟩, -⟩ := sampleSpreadProfile_accepted
  obtain ⟨groups, hgroups⟩ := zeroHmac_chipGroups hprofile
  obtain ⟨htile, huniform⟩ := greyTile_spread 4 (3 / 5)
  obtain ⟨embedded, evidence, hembed, hextract, hcodeword, herasures⟩ :=
    (spread_codec hgroups).2.2 greyTile (List.replicate 39 0x5a) (255 / 2) htile
      List.length_replicate huniform
  refine ⟨groups, embedded, evidence, hgroups, hembed, hextract, hcodeword, herasures.mpr ?_⟩
  show (3 / 5 : ℚ) * 4 ≤ max (255 / 2) (((255 : Nat) : ℚ) - 255 / 2)
  norm_num

/-- A strength of 300 is accepted, and a grey tile has not half of the room that it asks for. -/
theorem greyTile_erased : ∃ embedded evidence,
    embedSpreadCodewordV3 zeroHmac (fun _ ↦ List.replicate 8 0) greyTile (List.replicate 39 0x5a)
      [1] 0 (sampleSpreadProfile 300 1) = .ok embedded ∧
    extractSpreadCodewordV3 zeroHmac (fun _ ↦ List.replicate 8 0) embedded [1] 0
      (sampleSpreadProfile 300 1) (embeddingPolarity greyTile) = .ok evidence ∧
    evidence.erasePositions ≠ [] := by
  obtain ⟨-, identifier, hprofile⟩ := sampleSpreadProfile_accepted
  obtain ⟨groups, hgroups⟩ := zeroHmac_chipGroups hprofile
  obtain ⟨htile, huniform⟩ := greyTile_spread 300 1
  obtain ⟨evidence, hextract, -, herasures⟩ := extract_uniform hgroups htile huniform
    (List.length_replicate (n := 39) (a := 0x5a))
  refine ⟨_, evidence, embedSpreadCodewordV3_eq hgroups htile List.length_replicate, hextract,
    fun hnone ↦ ?_⟩
  have hroom : (1 : ℚ) * 300 ≤ max (255 / 2) (((255 : Nat) : ℚ) - 255 / 2) := herasures.mp hnone
  norm_num at hroom

end Splitbind
