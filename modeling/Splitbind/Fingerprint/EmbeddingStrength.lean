import Splitbind.Fingerprint.TileDamage

/-!
# Embedding strength — how far an embedded codeword moves the samples of its tile

A pair of coefficients is moved by a step and a half at most, which spreads over the block.  A block
holds two pairs, so no sample of the tile moves by more than three eighths of the step.
-/

namespace Splitbind

open Transaction

/-! ## 1. A pair -/

section Pair

variable {K : Type} [Field K] [LinearOrder K] [IsStrictOrderedRing K] [FloorRing K]

/-- Each of the pair moves by half of a step and a half at most. -/
theorem qimEmbedPair_move {a b delta a' b' : K} {bit : Int} (hdelta : 0 < delta)
    (hbit : bit = 0 ∨ bit = 1) (h : qimEmbedPair a b bit delta = .ok (a', b')) :
    |a' - a| ≤ delta - delta / 4 ∧ |b' - b| ≤ delta - delta / 4 := by
  have hvalid : validateQimInputs delta = .ok () := raiseIf_neg (not_le.mpr hdelta) _
  unfold qimEmbedPair at h
  rw [hvalid, ok_bind, raiseIf_neg (not_not.mpr hbit), ok_bind] at h
  set lattice := Rounding.halfEven ((a - b) / delta) with hlattice
  set target := if lattice % 2 = bit then lattice else lattice + 1 with htarget
  have hpair := Except.ok.inj h
  have ha : a' - a = (target * delta - (a - b)) / 2 := by
    rw [← (Prod.mk.inj hpair).1]
    ring
  have hb : b' - b = -((target * delta - (a - b)) / 2) := by
    rw [← (Prod.mk.inj hpair).2]
    ring
  -- the target is the nearest lattice point, or the one above it
  have hnear := abs_le.mp (Rounding.abs_halfEven_sub_le ((a - b) / delta))
  rw [← hlattice] at hnear
  have htargetNear : |(target : K) - (a - b) / delta| ≤ 3 / 2 := by
    rw [htarget, abs_le]
    split_ifs
    · constructor <;> linarith
    · push_cast
      constructor <;> linarith
  have hmove : |(target * delta - (a - b)) / 2| ≤ delta - delta / 4 := by
    have hscaled : (target * delta - (a - b)) / 2 = (target - (a - b) / delta) * delta / 2 := by
      field_simp
    rw [hscaled, abs_div, abs_mul, abs_of_pos hdelta, abs_two]
    linarith [mul_le_mul_of_nonneg_right htargetNear hdelta.le]
  rw [ha, hb, abs_neg]
  exact ⟨hmove, hmove⟩

end Pair

/-! ## 2. A block -/

section Blocks

variable {K : Type} [Field K] [LinearOrder K] [IsStrictOrderedRing K]

/-- Two written coefficients are all that changes in a block. -/
theorem sum_abs_set_le (coefficients : Block K)
    {first second : Fin 8 × Fin 8} (hne : first ≠ second) (a b : K) :
    ∑ f, ∑ g, |((coefficients.set first a).set second b) f g - coefficients f g| ≤
      |a - coefficients.get first| + |b - coefficients.get second| := by
  have hentry : ∀ p : Fin 8 × Fin 8,
      |((coefficients.set first a).set second b) p.1 p.2 - coefficients p.1 p.2| =
        (if p = first then |a - coefficients.get first| else 0) +
          if p = second then |b - coefficients.get second| else 0 := by
    intro p
    show |((coefficients.set first a).set second b).get p - coefficients.get p| = _
    by_cases hsecond : p = second
    · rw [hsecond, Block.get_set_self, if_neg hne.symm, if_pos rfl, zero_add]
    · rw [Block.get_set_of_ne hsecond, if_neg hsecond, add_zero]
      by_cases hfirst : p = first
      · rw [hfirst, Block.get_set_self, if_pos rfl]
      · rw [Block.get_set_of_ne hfirst, if_neg hfirst, sub_self, abs_zero]
  rw [← Fintype.sum_prod_type', Finset.sum_congr rfl fun p _ ↦ hentry p, Finset.sum_add_distrib,
    Finset.sum_ite_eq', Finset.sum_ite_eq', if_pos (Finset.mem_univ _),
    if_pos (Finset.mem_univ _)]

/-- The block of a position has a sample. -/
def PositionComponents.Contains (c : PositionComponents) (y x : Nat) : Prop :=
  (c.y ≤ y ∧ y < c.y + 8) ∧ c.x ≤ x ∧ x < c.x + 8

instance (c : PositionComponents) (y x : Nat) : Decidable (c.Contains y x) :=
  inferInstanceAs (Decidable ((c.y ≤ y ∧ y < c.y + 8) ∧ c.x ≤ x ∧ x < c.x + 8))

variable [FloorRing K] {numerics : Numerics K} {profile : CodecProfile K}

/-- One write moves the samples of its block a little, and no others. -/
theorem embedBit_move (hsteady : numerics.Steady) {ll ll' : Image K} {bit : Int} {position : Nat}
    (hdelta : 0 < profile.qimDelta) (hbit : bit = 0 ∨ bit = 1)
    (hinside : (positionComponents position profile).Inside ll)
    (h : embedBit numerics profile ll bit position = .ok ll') (y x : Nat) :
    |ll'.pixel y x - ll.pixel y x| ≤
      if (positionComponents position profile).Contains y x then ((3 : Nat) : K) / 8 * profile.qimDelta
      else 0 := by
  unfold embedBit at h
  set c := positionComponents position profile with hc
  set coefficients := numerics.dct2 (ll.window c.y c.x) with hcoefficients
  simp only [Image.block_eq hinside.1 hinside.2, ok_bind, ← hcoefficients, bind_eq_ok] at h
  obtain ⟨⟨a, b⟩, hpair, hwritten⟩ := h
  have hwritten := Except.ok.inj hwritten
  obtain ⟨ha, hb⟩ := qimEmbedPair_move hdelta hbit hpair
  set written := (coefficients.set c.first a).set c.second b with hset
  by_cases hcontains : c.Contains y x
  · rw [if_pos hcontains]
    have hin : (c.y ≤ y ∧ y < c.y + 8) ∧ c.x ≤ x ∧ x < c.x + 8 := hcontains
    have hy : y - c.y < 8 := by omega
    have hx : x - c.x < 8 := by omega
    -- a sample of the block, before and after
    have hbefore : ll.pixel y x = numerics.idct2 coefficients ⟨y - c.y, hy⟩ ⟨x - c.x, hx⟩ := by
      rw [hcoefficients, hsteady.idct2_dct2]
      show ll.pixel y x = ll.pixel (c.y + (y - c.y)) (c.x + (x - c.x))
      rw [Nat.add_sub_cancel' hin.1.1, Nat.add_sub_cancel' hin.2.1]
    have hafter : ll'.pixel y x = numerics.idct2 written ⟨y - c.y, hy⟩ ⟨x - c.x, hx⟩ := by
      rw [← hwritten]
      show (if _ : _ then _ else _) = _
      rw [dif_pos hin]
    have hne : c.first ≠ c.second := positionComponents_first_ne_second position
    have hspread := hsteady.idct2_near written coefficients ⟨y - c.y, hy⟩ ⟨x - c.x, hx⟩
    have hsum := sum_abs_set_le coefficients hne a b
    rw [← hset] at hsum
    rw [hbefore, hafter]
    push_cast at hspread
    linarith
  · have hout : ¬ ((c.y ≤ y ∧ y < c.y + 8) ∧ c.x ≤ x ∧ x < c.x + 8) := hcontains
    rw [if_neg hcontains, ← hwritten]
    show |(if _ : _ then _ else _) - ll.pixel y x| ≤ 0
    rw [dif_neg hout, sub_self, abs_zero]

/-- A sample moves once for every write to its block. -/
theorem embedBits_move (hsteady : numerics.Steady) {ll ll' : Image K} {replicas : List (Int × Nat)}
    (hdelta : 0 < profile.qimDelta) (hbits : ∀ replica ∈ replicas, replica.1 = 0 ∨ replica.1 = 1)
    (hinside : ∀ replica ∈ replicas, (positionComponents replica.2 profile).Inside ll)
    (h : embedBits numerics profile ll replicas = .ok ll') (y x : Nat) :
    |ll'.pixel y x - ll.pixel y x| ≤
      (replicas.countP fun replica ↦
        decide ((positionComponents replica.2 profile).Contains y x) : Nat) *
        (((3 : Nat) : K) / 8 * profile.qimDelta) := by
  induction replicas generalizing ll with
  | nil =>
    cases h
    simp
  | cons replica replicas ih =>
    obtain ⟨bit, position⟩ := replica
    rw [List.forall_mem_cons] at hbits hinside
    obtain ⟨first, hfirst, hshape, -⟩ :=
      embedBit_spec numerics hdelta hbits.1 hinside.1
    rw [embedBits, hfirst, ok_bind] at h
    have hinside' : ∀ replica ∈ replicas, (positionComponents replica.2 profile).Inside first := by
      intro other hother
      obtain ⟨hheight, hwidth⟩ := Prod.mk.inj hshape
      unfold PositionComponents.Inside
      rw [hheight, hwidth]
      exact hinside.2 other hother
    have hrest := ih hbits.2 hinside' h
    have hmove := embedBit_move hsteady hdelta hbits.1 hinside.1 hfirst y x
    have htriangle := abs_sub_le (ll'.pixel y x) (first.pixel y x) (ll.pixel y x)
    rw [List.countP_cons]
    by_cases hcontains : (positionComponents position profile).Contains y x
    · rw [if_pos hcontains] at hmove
      rw [if_pos (decide_eq_true hcontains)]
      push_cast
      linarith
    · rw [if_neg hcontains] at hmove
      rw [if_neg (by simpa using hcontains)]
      push_cast
      linarith

end Blocks

/-! ## 3. A tile -/

section Tiles

variable {K : Type} [Field K] [LinearOrder K] [IsStrictOrderedRing K] [FloorRing K]
variable {numerics : Numerics K} {keyed : KeyedShuffle K} {profile : CodecProfile K}

omit [IsStrictOrderedRing K] [FloorRing K] [LinearOrder K] [Field K] in
/-- A sample of the band belongs to one block. -/
theorem PositionComponents.Contains.block {position y x : Nat}
    (h : (positionComponents position profile).Contains y x) :
    position / 2 = y / 8 * (profile.tileSizePx / 16) + x / 8 := by
  have hin : (position / 2 / (profile.tileSizePx / 16) * 8 ≤ y ∧
      y < position / 2 / (profile.tileSizePx / 16) * 8 + 8) ∧
      position / 2 % (profile.tileSizePx / 16) * 8 ≤ x ∧
      x < position / 2 % (profile.tileSizePx / 16) * 8 + 8 := h
  have hrow : y / 8 = position / 2 / (profile.tileSizePx / 16) := by omega
  have hcolumn : x / 8 = position / 2 % (profile.tileSizePx / 16) := by omega
  rw [hrow, hcolumn, Nat.mul_comm]
  exact (Nat.div_add_mod (position / 2) (profile.tileSizePx / 16)).symm

omit [IsStrictOrderedRing K] [FloorRing K] [LinearOrder K] [Field K] in
/-- At most two positions write to a sample. -/
theorem countP_contains_le {replicas : List (Int × Nat)} (hnodup : (replicas.map Prod.snd).Nodup)
    (y x : Nat) :
    (replicas.countP fun replica ↦
      decide ((positionComponents replica.2 profile).Contains y x)) ≤ 2 := by
  set writing := (replicas.map Prod.snd).filter fun position ↦
    decide ((positionComponents position profile).Contains y x) with hwriting
  have hcount : (replicas.countP fun replica ↦
      decide ((positionComponents replica.2 profile).Contains y x)) = writing.length := by
    rw [hwriting, ← List.countP_eq_length_filter, List.countP_map]
    rfl
  have hblock : ∀ position ∈ writing,
      position / 2 ∈ [y / 8 * (profile.tileSizePx / 16) + x / 8] := by
    intro position hmem
    have hcontains := of_decide_eq_true (List.mem_filter.mp hmem).2
    rw [List.mem_singleton]
    exact hcontains.block
  have hdistinct : writing.Nodup := hnodup.filter _
  have hle := length_le_of_blocks hdistinct hblock
  rw [List.length_singleton] at hle
  omega

omit [IsStrictOrderedRing K] [FloorRing K] [LinearOrder K] in
/-- A restored sample follows half of its sample of the low band. -/
theorem haarRestored_sub (bands : Bands K) (ll : Image K) (y x : Nat) :
    haarRestored numerics { bands with ll := ll } y x - haarRestored numerics bands y x =
      (ll.pixel (y / 2) (x / 2) - bands.ll.pixel (y / 2) (x / 2)) / 2 := by
  have htwo := numerics.sqrtTwo_mul_self
  unfold haarRestored
  dsimp only
  split_ifs <;> rw [← htwo, ← div_div] <;> ring

/-- **Strength.**  Embedding moves no sample of a tile by more than three eighths of the step. -/
theorem embedCodewordV2_move (hsteady : numerics.Steady) {tile embedded : Image K}
    {codeword key : List UInt8} {pageIndex : Int}
    (h : embedCodewordV2 numerics keyed tile codeword key pageIndex profile = .ok embedded)
    {y x : Nat} (hy : y < profile.tileSizePx) (hx : x < profile.tileSizePx) :
    |embedded.pixel y x - tile.pixel y x| ≤ ((3 : Nat) : K) / 8 * profile.qimDelta := by
  obtain ⟨hinputs, -, positions, hpositions, hplacement, -⟩ := embedCodewordV2_carries h
  obtain ⟨edge, hedge, htile⟩ := hinputs.valid.edge
  have htwice : profile.tileSizePx = 2 * (8 * edge) := by omega
  have hdelta := hinputs.valid.qimDelta_pos
  obtain ⟨hheight, hwidth⟩ := Prod.mk.inj hinputs.shape
  set replicated := (PackedBits.unpack codeword).flatMap (List.replicate 3) with hreplicated
  have hlength : replicated.length = positions.length := by
    rw [hreplicated, length_replicas, PackedBits.length_unpack, hinputs.codeword,
      hplacement.length]
  have hshaped : (haarDwt2 numerics tile).Shaped (8 * edge) (8 * edge) :=
    haarDwt2_shaped numerics (by rw [hinputs.shape, htwice])
  set bands := haarDwt2 numerics tile with hbands
  have hbits : ∀ replica ∈ replicated.zip positions, replica.1 = 0 ∨ replica.1 = 1 :=
    fun replica hmem ↦ replica_bit (List.of_mem_zip hmem).1
  have hinside : ∀ replica ∈ replicated.zip positions,
      (positionComponents replica.2 profile).Inside bands.ll :=
    fun replica hmem ↦ positionComponents_inside htile hshaped.ll
      (hplacement.lt_capacity _ (List.of_mem_zip hmem).2)
  have hnodup : ((replicated.zip positions).map Prod.snd).Nodup := by
    rw [List.map_snd_zip hlength.ge]
    exact hplacement.nodup
  obtain ⟨ll, hll, hllShape, -⟩ := embedBits_spec numerics hdelta hbits hinside hnodup
  have hwritten : ({ bands with ll := ll } : Bands K).Shaped (8 * edge) (8 * edge) :=
    ⟨hllShape.trans hshaped.ll, hshaped.lh, hshaped.hl, hshaped.hh, hshaped.originalShape⟩
  -- the embedded tile is what is restored from the written low band
  have hembedded : embedded =
      ⟨2 * (8 * edge), 2 * (8 * edge), haarRestored numerics { bands with ll := ll }⟩ := by
    have htileValid : validateTile tile profile = .ok tile :=
      validateTile_eq_ok.mpr ⟨hinputs.valid, hinputs.shape, rfl⟩
    have hcodeword : validateCodeword codeword = .ok () :=
      raiseIf_neg (not_not.mpr hinputs.codeword) _
    rw [embedCodewordV2, htileValid, ok_bind, hcodeword, ok_bind, hinputs.binding, ok_bind] at h
    simp only [hpositions, ok_bind, hinputs.valid.bitReplication, ← hreplicated,
      raiseIf_neg (not_not.mpr hlength), ← hbands, hll] at h
    rw [haarIdwt2_eq numerics hwritten (by omega) (by omega)] at h
    exact (Except.ok.inj h).symm
  have hrestored : tile.pixel y x = haarRestored numerics bands y x :=
    (haarRestored_haarDwt2 numerics (by omega) (by omega)).symm
  have hmove := embedBits_move hsteady hdelta hbits hinside hll (y / 2) (x / 2)
  have htwo : (replicated.zip positions).countP (fun replica ↦
      decide ((positionComponents replica.2 profile).Contains (y / 2) (x / 2))) ≤ 2 :=
    countP_contains_le hnodup (y / 2) (x / 2)
  have hbound : |ll.pixel (y / 2) (x / 2) - bands.ll.pixel (y / 2) (x / 2)| ≤
      2 * (((3 : Nat) : K) / 8 * profile.qimDelta) := by
    have hcast : ((List.countP (fun replica : Int × Nat ↦
        decide ((positionComponents replica.2 profile).Contains (y / 2) (x / 2)))
          (replicated.zip positions) : Nat) : K) ≤ 2 := by exact_mod_cast htwo
    refine hmove.trans ?_
    gcongr
  rw [hembedded, hrestored]
  show |haarRestored numerics { bands with ll := ll } y x - haarRestored numerics bands y x| ≤ _
  rw [haarRestored_sub, abs_div, abs_two]
  linarith

end Tiles

end Splitbind
