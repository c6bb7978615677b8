import Mathlib.Analysis.SpecialFunctions.Sqrt
import Splitbind.Fingerprint.ErasureLadder
import Splitbind.Fingerprint.TileRoundTrip
import Splitbind.Library.Cosine

/-!
# Damage to a tile — what the vote over the replicas absorbs

A received tile differs a little from the embedded one everywhere, and without any bound in some
blocks.  A small error moves a difference of coefficients by less than half a step, so its parity
stays; and what is read in a lost block is outvoted, because the replicas of a bit lie in different
blocks.
-/

namespace Splitbind

open Transaction

/-! ## 1. Errors and the transform -/

section Steady

variable {K : Type} [Field K] [LinearOrder K]

/-- The transform loses nothing, and errors of samples and of coefficients do not spread far. -/
structure Numerics.Steady (numerics : Numerics K) : Prop where
  idct2_dct2 : ∀ block, numerics.idct2 (numerics.dct2 block) = block
  dct2_near : ∀ (block other : Block K) (ε : K), 0 ≤ ε →
    (∀ i j, |block i j - other i j| ≤ ε) →
    ∀ i j, |numerics.dct2 block i j - numerics.dct2 other i j| ≤ ((8 : Nat) : K) * ε
  idct2_near : ∀ (coefficients other : Block K) (i j : Fin 8),
    |numerics.idct2 coefficients i j - numerics.idct2 other i j| ≤
      (∑ f, ∑ g, |coefficients f g - other f g|) / ((4 : Nat) : K)

end Steady

/-- The square root of two, `dct2` and `idct2` with the matrix of `_dct_matrix`. -/
noncomputable def orthonormalNumerics : Numerics ℝ where
  sqrtTwo := √(2 : Nat)
  dct2 := fun block ↦ Cosine.transform (Matrix.of block)
  idct2 := fun coefficients ↦ Cosine.inverse (Matrix.of coefficients)
  sqrtTwo_mul_self := sqrtTwo_mul_sqrtTwo
  dct2_idct2 := fun coefficients ↦ Cosine.transform_inverse (Matrix.of coefficients)

theorem orthonormalNumerics_steady : orthonormalNumerics.Steady := by
  constructor
  · intro block
    exact Cosine.inverse_transform (Matrix.of block)
  · intro block other ε hε hnear i j
    have hsub := Cosine.transform_sub (Matrix.of block) (Matrix.of other)
    have hentry : orthonormalNumerics.dct2 block i j - orthonormalNumerics.dct2 other i j =
        Cosine.transform (Matrix.of block - Matrix.of other) i j := by
      rw [← hsub]
      rfl
    rw [hentry]
    exact Cosine.abs_transform_le hε hnear i j
  · intro coefficients other i j
    have hsub := Cosine.inverse_sub (Matrix.of coefficients) (Matrix.of other)
    have hentry : orthonormalNumerics.idct2 coefficients i j - orthonormalNumerics.idct2 other i j =
        Cosine.inverse (Matrix.of coefficients - Matrix.of other) i j := by
      rw [← hsub]
      rfl
    have hle := Cosine.abs_inverse_le (Matrix.of coefficients - Matrix.of other) i j
    rw [hentry, Finset.sum_comm]
    calc |Cosine.inverse (Matrix.of coefficients - Matrix.of other) i j|
        ≤ 2 / (8 : Nat) * ∑ g, ∑ f, |coefficients f g - other f g| := hle
      _ = (∑ g, ∑ f, |coefficients f g - other f g|) / ((4 : Nat) : ℝ) := by
        push_cast
        ring

section Near

variable {K : Type} [Field K] [LinearOrder K] [IsStrictOrderedRing K] (numerics : Numerics K)

omit [LinearOrder K] [IsStrictOrderedRing K] in
/-- A sample of the low band is half the sum of four samples of the tile. -/
theorem haarDwt2_ll {image : Image K} {height width : Nat}
    (hshape : (image.height, image.width) = (2 * height, 2 * width)) (y x : Nat) :
    (haarDwt2 numerics image).ll.pixel y x =
      (image.pixel (2 * y) (2 * x) + image.pixel (2 * y) (2 * x + 1) +
        (image.pixel (2 * y + 1) (2 * x) + image.pixel (2 * y + 1) (2 * x + 1))) / 2 := by
  obtain ⟨hheight, hwidth⟩ := Prod.mk.inj hshape
  have hpad : ¬ (image.height % 2 ≠ 0 ∨ image.width % 2 ≠ 0) := by omega
  unfold haarDwt2
  simp only [if_neg hpad]
  rw [← add_div, div_div, numerics.sqrtTwo_mul_self]

/-- Where the samples of two tiles are near, so are those of their low bands. -/
theorem haarDwt2_ll_near {image other : Image K} (height width : Nat) {y x : Nat} {ε : K}
    (hshape : (image.height, image.width) = (2 * height, 2 * width))
    (hshape' : (other.height, other.width) = (2 * height, 2 * width))
    (hnear : ∀ i < 2, ∀ j < 2,
      |image.pixel (2 * y + i) (2 * x + j) - other.pixel (2 * y + i) (2 * x + j)| ≤ ε) :
    |(haarDwt2 numerics image).ll.pixel y x - (haarDwt2 numerics other).ll.pixel y x| ≤ 2 * ε := by
  rw [haarDwt2_ll numerics hshape, haarDwt2_ll numerics hshape']
  have h00 := abs_le.mp (hnear 0 two_pos 0 two_pos)
  have h01 := abs_le.mp (hnear 0 two_pos 1 one_lt_two)
  have h10 := abs_le.mp (hnear 1 one_lt_two 0 two_pos)
  have h11 := abs_le.mp (hnear 1 one_lt_two 1 one_lt_two)
  simp only [Nat.add_zero] at h00 h01 h10 h11
  rw [abs_le]
  constructor
  · linarith only [h00.1, h01.1, h10.1, h11.1]
  · linarith only [h00.2, h01.2, h10.2, h11.2]

variable {profile : CodecProfile K}

/-- Where the block of a position is near, so is the difference of its coefficients. -/
theorem pairDifference_near (hsteady : numerics.Steady) {ll ll' : Image K} {position : Nat} {ε : K}
    (hε : 0 ≤ ε)
    (hnear : ∀ i j : Fin 8,
      |ll.window (positionComponents position profile).y (positionComponents position profile).x i j
        - ll'.window (positionComponents position profile).y
          (positionComponents position profile).x i j| ≤ ε) :
    |pairDifference numerics profile ll position - pairDifference numerics profile ll' position| ≤
      16 * ε := by
  set c := positionComponents position profile with hc
  have hfirst := hsteady.dct2_near _ _ ε hε hnear c.first.1 c.first.2
  have hsecond := hsteady.dct2_near _ _ ε hε hnear c.second.1 c.second.2
  push_cast at hfirst hsecond
  rw [abs_le] at hfirst hsecond
  show |(numerics.dct2 (ll.window c.y c.x) c.first.1 c.first.2 -
        numerics.dct2 (ll.window c.y c.x) c.second.1 c.second.2) -
      (numerics.dct2 (ll'.window c.y c.x) c.first.1 c.first.2 -
        numerics.dct2 (ll'.window c.y c.x) c.second.1 c.second.2)| ≤ 16 * ε
  rw [abs_le]
  constructor
  · linarith only [hfirst.1, hsecond.2]
  · linarith only [hfirst.2, hsecond.1]

end Near

/-! ## 2. A pair that is read -/

section Pair

variable {K : Type} [Field K] [LinearOrder K] [IsStrictOrderedRing K] [FloorRing K]

/-- A pair near a multiple of the step is read with that multiple's parity, with a confidence that
falls by twice the distance in steps. -/
theorem qimExtractPair_near {a b delta e : K} {target : ℤ} (hdelta : 0 < delta)
    (hnear : |a - b - target * delta| ≤ e) (he : 2 * e < delta) :
    ∃ confidence, qimExtractPair a b delta = .ok ⟨target % 2, target, confidence⟩ ∧
      1 - 2 * e / delta ≤ confidence := by
  have hvalid : validateQimInputs delta = .ok () := raiseIf_neg (not_le.mpr hdelta) _
  have hdistance : |(a - b) / delta - target| ≤ e / delta := by
    have hquotient : (a - b) / delta - target = (a - b - target * delta) / delta := by
      field_simp
    rw [hquotient, abs_div, abs_of_pos hdelta]
    gcongr
  have hhalf : e / delta < 1 / 2 := by
    rw [div_lt_iff₀ hdelta]
    linarith
  have hlattice := Rounding.halfEven_near (hdistance.trans_lt hhalf)
  refine ⟨max 0 (min 1 (1 - 2 * |(a - b) / delta - target|)), ?_, ?_⟩
  · unfold qimExtractPair
    rw [hvalid, ok_bind]
    simp only [hlattice]
    rfl
  · have htwice : 2 * e / delta = 2 * (e / delta) := mul_div_assoc 2 e delta
    have hnonneg := abs_nonneg ((a - b) / delta - target)
    rw [le_max_iff, le_min_iff, htwice]
    right
    constructor <;> linarith

omit [IsStrictOrderedRing K] in
/-- Whatever a pair is, a bit is read from it, with a confidence between nothing and one. -/
theorem qimExtractPair_range {a b delta : K} (hdelta : 0 < delta) :
    ∃ bit latticeIndex confidence, qimExtractPair a b delta = .ok ⟨bit, latticeIndex, confidence⟩ ∧
      (bit = 0 ∨ bit = 1) ∧ 0 ≤ confidence ∧ confidence ≤ 1 := by
  have hvalid : validateQimInputs delta = .ok () := raiseIf_neg (not_le.mpr hdelta) _
  set lattice := Rounding.halfEven ((a - b) / delta) with hlattice
  refine ⟨lattice % 2, lattice, max 0 (min 1 (1 - 2 * |(a - b) / delta - lattice|)), ?_, ?_, ?_, ?_⟩
  · unfold qimExtractPair
    rw [hvalid, ok_bind]
    rfl
  · omega
  · exact le_max_left _ _
  · exact max_le zero_le_one (min_le_left _ _)

end Pair

/-! ## 3. The vote -/

section Vote

variable {K : Type} [Field K] [LinearOrder K]

/-- A replica is read right, and with some confidence. -/
def Replica.legible (c : K) (bit : Int) (replica : Replica K) : Bool :=
  replica.bit = bit ∧ c ≤ replica.confidence

/-- What every replica that is read is. -/
structure Replica.Bounded (replica : Replica K) : Prop where
  bit : replica.bit = 0 ∨ replica.bit = 1
  nonneg : 0 ≤ replica.confidence
  le_one : replica.confidence ≤ 1

omit [LinearOrder K] in
theorem weight_cons (replica : Replica K) (replicas : List (Replica K)) (bit : Int) :
    weight (replica :: replicas) bit =
      (if replica.bit = bit then replica.confidence else 0) + weight replicas bit := by
  unfold weight
  rw [List.filter_cons]
  split_ifs with h h' h'
  · rw [List.map_cons, List.sum_cons]
  · exact absurd (of_decide_eq_true h) h'
  · exact absurd (decide_eq_true h') h
  · rw [zero_add]

variable [IsStrictOrderedRing K]

/-- The bit weighs what its legible replicas weigh, or more. -/
theorem le_weight {c : K} {bit : Int} {replicas : List (Replica K)}
    (hbounded : ∀ replica ∈ replicas, replica.Bounded) :
    c * (replicas.countP (Replica.legible c bit) : Nat) ≤ weight replicas bit := by
  induction replicas with
  | nil => simp [weight]
  | cons replica replicas ih =>
    rw [List.forall_mem_cons] at hbounded
    have ih := ih hbounded.2
    rw [weight_cons, List.countP_cons]
    by_cases hlegible : replica.legible c bit = true
    · obtain ⟨hbit, hconfidence⟩ := of_decide_eq_true hlegible
      rw [if_pos hlegible, if_pos hbit]
      push_cast
      linarith
    · have hnonneg : 0 ≤ if replica.bit = bit then replica.confidence else 0 := by
        split_ifs
        · exact hbounded.1.nonneg
        · exact le_rfl
      rw [if_neg hlegible, Nat.add_zero]
      linarith

/-- The other bit weighs no more than the replicas that are not legible. -/
theorem weight_le {c : K} {bit other : Int} {replicas : List (Replica K)} (hne : other ≠ bit)
    (hbounded : ∀ replica ∈ replicas, replica.Bounded) :
    weight replicas other ≤ (replicas.countP fun replica ↦ !replica.legible c bit : Nat) := by
  induction replicas with
  | nil => simp [weight]
  | cons replica replicas ih =>
    rw [List.forall_mem_cons] at hbounded
    have ih := ih hbounded.2
    rw [weight_cons, List.countP_cons]
    by_cases hlegible : replica.legible c bit = true
    · obtain ⟨hbit, -⟩ := of_decide_eq_true hlegible
      have hother : ¬ replica.bit = other := fun h ↦ hne (h.symm.trans hbit)
      rw [if_neg hother, zero_add, hlegible]
      exact ih
    · have hle : (if replica.bit = other then replica.confidence else 0) ≤ 1 := by
        split_ifs
        · exact hbounded.1.le_one
        · exact zero_le_one
      rw [Bool.eq_false_of_not_eq_true hlegible, Bool.not_false, if_pos rfl]
      push_cast
      linarith

/-- One illegible replica of three does not turn the vote, and none leaves it without doubt. -/
theorem tallyBit_damaged {profile : CodecProfile K} {replicas values : List (Replica K)}
    (tally : Tally K) {index : Nat} {bit : Int} {c : K} (hvalid : ValidV2Profile profile)
    (hbit : bit = 0 ∨ bit = 1) (hc : 6 / 10 ≤ c)
    (hvalues : (replicas.drop (index * 3)).take 3 = values) (hlength : values.length = 3)
    (hbounded : ∀ replica ∈ values, replica.Bounded)
    (hone : values.countP (fun replica ↦ !replica.legible c bit) ≤ 1) :
    (tallyBit profile replicas tally index).recoveredBits = tally.recoveredBits ++ [bit] ∧
      (tallyBit profile replicas tally index).erasures ⊆ insert (index / 8) tally.erasures ∧
      (values.countP (fun replica ↦ !replica.legible c bit) = 0 →
        (tallyBit profile replicas tally index).erasures = tally.erasures) := by
  have hcount := List.length_eq_countP_add_countP (Replica.legible c bit) (l := values)
  have hflip : values.countP (fun replica ↦ !replica.legible c bit) =
      values.countP fun replica ↦ decide ¬ replica.legible c bit = true := by
    simp only [Bool.not_eq_true, Bool.decide_eq_false]
  rw [← hflip, hlength] at hcount
  -- at least two legible replicas, so the bit weighs more than one and the other at most one
  have htwo : (2 : K) ≤ (values.countP (Replica.legible c bit) : Nat) := by
    have hle : 2 ≤ values.countP (Replica.legible c bit) := by omega
    exact_mod_cast hle
  have hweight : c * (values.countP (Replica.legible c bit) : Nat) ≤ weight values bit :=
    le_weight hbounded
  have hmore : 6 / 5 ≤ weight values bit := by nlinarith only [htwo, hweight, hc]
  have hless : ∀ other, other ≠ bit → weight values other ≤ 1 := by
    intro other hother
    refine (weight_le (c := c) hother hbounded).trans ?_
    exact_mod_cast hone
  -- a bit without an illegible replica is beyond the threshold
  have hsure : values.countP (fun replica ↦ !replica.legible c bit) = 0 →
      ¬ max (weight values 0) (weight values 1) / ((3 : Nat) : K) < ((3 : Nat) : K) / ((5 : Nat) : K) := by
    intro hnone
    have hthree : values.countP (Replica.legible c bit) = 3 := by omega
    rw [hthree] at hweight
    push_cast at hweight ⊢
    have hmax : weight values bit ≤ max (weight values 0) (weight values 1) := by
      rcases hbit with rfl | rfl
      · exact le_max_left _ _
      · exact le_max_right _ _
    rw [not_lt, le_div_iff₀ (by norm_num)]
    linarith
  have hwinner : (if weight values 0 < weight values 1 then (1 : Int) else 0) = bit := by
    rcases hbit with rfl | rfl
    · have h := hless 1 (by decide)
      exact if_neg (by linarith)
    · have h := hless 0 (by decide)
      exact if_pos (by linarith)
  unfold tallyBit
  simp only [hvalid.bitReplication, hvalid.bitConfidenceMin, hvalues, hwinner]
  refine ⟨trivial, ?_, fun hnone ↦ if_neg (hsure hnone)⟩
  show (if _ then insert (index / 8) tally.erasures else tally.erasures) ⊆ _
  split_ifs
  · exact Finset.Subset.refl _
  · exact Finset.subset_insert _ _

omit [IsStrictOrderedRing K] in
theorem Tally.evidence_codeword (tally : Tally K) (replicaCount : Nat) :
    (tally.evidence replicaCount).codeword = PackedBits.pack tally.recoveredBits := rfl

omit [IsStrictOrderedRing K] in
theorem Tally.length_erasePositions (tally : Tally K) (replicaCount : Nat) :
    (tally.evidence replicaCount).erasePositions.length = tally.erasures.card :=
  Finset.length_sort (· ≤ ·)

/-- After a number of bits: they are recovered, and a byte is marked only for a bit with a replica
that is not legible. -/
theorem tally_damaged {profile : CodecProfile K} {bits : List Int} {replicas : List (Replica K)}
    {c : K} {n : Nat} (hvalid : ValidV2Profile profile) (hc : 6 / 10 ≤ c)
    (hbits : ∀ bit ∈ bits, bit = 0 ∨ bit = 1) (hreplicas : replicas.length = 3 * bits.length)
    (hbounded : ∀ replica ∈ replicas, replica.Bounded)
    (hone : ∀ index bit, bits[index]? = some bit →
      ((replicas.drop (index * 3)).take 3).countP (fun replica ↦ !replica.legible c bit) ≤ 1)
    (hn : n ≤ bits.length) :
    let tally := (List.range n).foldl (tallyBit profile replicas) Tally.empty
    tally.recoveredBits = bits.take n ∧
      ∀ byte ∈ tally.erasures, ∃ index bit, index / 8 = byte ∧ bits[index]? = some bit ∧
        0 < ((replicas.drop (index * 3)).take 3).countP fun replica ↦ !replica.legible c bit := by
  induction n with
  | zero => exact ⟨rfl, fun byte hbyte ↦ absurd hbyte (Finset.notMem_empty byte)⟩
  | succ n ih =>
    intro tally
    obtain ⟨hrecovered, herasures⟩ := ih (Nat.le_of_succ_le hn)
    have hbit : bits[n]? = some bits[n] := List.getElem?_eq_getElem hn
    have hlength : ((replicas.drop (n * 3)).take 3).length = 3 := by
      rw [List.length_take, List.length_drop, hreplicas]
      omega
    have hvalues : ∀ replica ∈ (replicas.drop (n * 3)).take 3, replica.Bounded := by
      intro replica hmem
      exact hbounded replica (List.mem_of_mem_drop (List.mem_of_mem_take hmem))
    set before := (List.range n).foldl (tallyBit profile replicas) Tally.empty with hbefore
    have htally : tally = tallyBit profile replicas before n := by
      show (List.range (n + 1)).foldl _ _ = _
      rw [List.range_succ, List.foldl_concat]
    obtain ⟨hturn, hmarked, hkept⟩ := tallyBit_damaged before hvalid
      (hbits _ (List.getElem_mem hn)) hc rfl hlength hvalues (hone n _ hbit)
    constructor
    · rw [htally, hturn, hrecovered]
      exact List.take_concat_get' _ _ _
    · intro byte hbyte
      rw [htally] at hbyte
      by_cases hnone : ((replicas.drop (n * 3)).take 3).countP
          (fun replica ↦ !replica.legible c bits[n]) = 0
      · -- nothing is marked for this bit
        rw [hkept hnone] at hbyte
        exact herasures byte hbyte
      · rcases Finset.mem_insert.mp (hmarked hbyte) with rfl | hbyte
        · exact ⟨n, bits[n], rfl, hbit, Nat.pos_of_ne_zero hnone⟩
        · exact herasures byte hbyte

end Vote

/-! ## 4. A received tile -/

section Received

variable {K : Type} [Field K] [LinearOrder K]

/-- The block of the low band that a sample of the tile belongs to. -/
def sampleBlock (profile : CodecProfile K) (y x : Nat) : Nat :=
  y / 16 * (profile.tileSizePx / 16) + x / 16

/-- A tile that is near the embedded one outside some blocks. -/
structure Received (profile : CodecProfile K) (embedded received : Image K) (ε : K)
    (damaged : Finset Nat) : Prop where
  shape : (received.height, received.width) = (profile.tileSizePx, profile.tileSizePx)
  near : ∀ y < profile.tileSizePx, ∀ x < profile.tileSizePx, sampleBlock profile y x ∉ damaged →
    |received.pixel y x - embedded.pixel y x| ≤ ε

variable [IsStrictOrderedRing K] (numerics : Numerics K) {profile : CodecProfile K}

/-- Outside the damaged blocks the low bands are near. -/
theorem Received.window_near {embedded received : Image K} {ε : K} {damaged : Finset Nat}
    {edge position : Nat} (h : Received profile embedded received ε damaged)
    (htile : profile.tileSizePx = 16 * edge)
    (hshape : (embedded.height, embedded.width) = (profile.tileSizePx, profile.tileSizePx))
    (hposition : position < capacity profile) (hblock : position / 2 ∉ damaged) (i j : Fin 8) :
    |(haarDwt2 numerics embedded).ll.window (positionComponents position profile).y
        (positionComponents position profile).x i j -
      (haarDwt2 numerics received).ll.window (positionComponents position profile).y
        (positionComponents position profile).x i j| ≤ 2 * ε := by
  have hedge : profile.tileSizePx / 16 = edge := by omega
  have htwice : profile.tileSizePx = 2 * (8 * edge) := by omega
  rw [capacity, hedge, pow_two] at hposition
  have hpos : 0 < edge := by
    by_contra hzero
    rw [Nat.eq_zero_of_not_pos hzero] at hposition
    exact absurd hposition (Nat.not_lt_zero position)
  have hrow : position / 2 / edge < edge := by
    rw [Nat.div_lt_iff_lt_mul hpos]
    omega
  have hcolumn : position / 2 % edge < edge := Nat.mod_lt _ hpos
  have hsplit := Nat.div_add_mod (position / 2) edge
  have hy : (positionComponents position profile).y = position / 2 / edge * 8 := by
    rw [← hedge]
    rfl
  have hx : (positionComponents position profile).x = position / 2 % edge * 8 := by
    rw [← hedge]
    rfl
  rw [hy, hx, abs_sub_comm]
  apply haarDwt2_ll_near numerics (8 * edge) (8 * edge)
  · rw [h.shape, htwice]
  · rw [hshape, htwice]
  · intro a ha b hb
    apply h.near
    · omega
    · omega
    · -- the four samples belong to the block of the position
      have hsampleBlock : sampleBlock profile (2 * (position / 2 / edge * 8 + i) + a)
          (2 * (position / 2 % edge * 8 + j) + b) = position / 2 := by
        unfold sampleBlock
        rw [hedge, show (2 * (position / 2 / edge * 8 + i.val) + a) / 16 = position / 2 / edge by
          omega, show (2 * (position / 2 % edge * 8 + j.val) + b) / 16 = position / 2 % edge by
          omega, Nat.mul_comm]
        exact hsplit
      rw [hsampleBlock]
      exact hblock

variable [FloorRing K]

/-- The replica that is read at a position inside the band. -/
def readReplica (profile : CodecProfile K) (ll : Image K) (position : Nat) : Replica K :=
  match extractReplica numerics profile ll position with
  | .ok replica => replica
  | .error _ => ⟨0, 0⟩

omit [IsStrictOrderedRing K] in
theorem readReplica_eq {ll : Image K} {position : Nat} {replica : Replica K}
    (h : extractReplica numerics profile ll position = .ok replica) :
    readReplica numerics profile ll position = replica := by
  unfold readReplica
  rw [h]

omit [IsStrictOrderedRing K] in
theorem readReplica_spec {ll : Image K} {position : Nat} (hdelta : 0 < profile.qimDelta)
    (hinside : (positionComponents position profile).Inside ll) :
    extractReplica numerics profile ll position = .ok (readReplica numerics profile ll position) ∧
      (readReplica numerics profile ll position).Bounded := by
  set c := positionComponents position profile with hc
  set coefficients := numerics.dct2 (ll.window c.y c.x) with hcoefficients
  obtain ⟨bit, latticeIndex, confidence, hpair, hbit, hnonneg, hle⟩ :=
    qimExtractPair_range (a := coefficients.get c.first) (b := coefficients.get c.second) hdelta
  have hread : extractReplica numerics profile ll position = .ok ⟨bit, confidence⟩ := by
    unfold extractReplica
    simp only [← hc, Image.block_eq hinside.1 hinside.2, ok_bind, ← hcoefficients, hpair]
    rfl
  rw [readReplica_eq numerics hread]
  exact ⟨hread, hbit, hnonneg, hle⟩

/-- What a position carries is legible at the same position of a band that is near. -/
theorem readReplica_legible (hsteady : numerics.Steady) {ll ll' : Image K} {bit : Int}
    {position : Nat} {ε : K} (hdelta : 0 < profile.qimDelta) (hε : 0 ≤ ε)
    (hsmall : 160 * ε ≤ profile.qimDelta)
    (hinside : (positionComponents position profile).Inside ll')
    (hcarries : Carries numerics profile ll bit position)
    (hnear : ∀ i j : Fin 8,
      |ll.window (positionComponents position profile).y (positionComponents position profile).x i j
        - ll'.window (positionComponents position profile).y
          (positionComponents position profile).x i j| ≤ 2 * ε) :
    (readReplica numerics profile ll' position).legible (6 / 10) bit = true := by
  obtain ⟨target, hdifference, hparity⟩ := hcarries
  have hmoved := pairDifference_near numerics hsteady (by linarith) hnear
  rw [hdifference, abs_sub_comm] at hmoved
  set c := positionComponents position profile with hc
  set coefficients := numerics.dct2 (ll'.window c.y c.x) with hcoefficients
  obtain ⟨confidence, hpair, hconfidence⟩ :=
    qimExtractPair_near (a := coefficients.get c.first) (b := coefficients.get c.second) hdelta
      hmoved (by linarith)
  have hread : extractReplica numerics profile ll' position = .ok ⟨bit, confidence⟩ := by
    unfold extractReplica
    simp only [← hc, Image.block_eq hinside.1 hinside.2, ok_bind, ← hcoefficients, hpair, hparity]
    rfl
  have hloss : 2 * (16 * (2 * ε)) / profile.qimDelta ≤ 2 / 5 := by
    rw [div_le_iff₀ hdelta]
    linarith
  rw [readReplica_eq numerics hread]
  apply decide_eq_true
  exact ⟨rfl, by linarith⟩

/-! ## 5. What is extracted -/

/-- Where a position of a bit stands in the list. -/
theorem getElem?_of_mem_replicas {positions : List Nat} {index position : Nat}
    (hmem : position ∈ (positions.drop (index * 3)).take 3) :
    ∃ i < 3, positions[index * 3 + i]? = some position := by
  obtain ⟨i, hi⟩ := List.mem_iff_getElem?.mp hmem
  rw [List.getElem?_take, List.getElem?_drop] at hi
  split_ifs at hi with hlt
  exact ⟨i, hlt, hi⟩

/-- The positions of a bit are zipped with the bit. -/
theorem mem_zip_replicas {bits : List Int} {positions : List Nat} {index position : Nat} {bit : Int}
    (hbit : bits[index]? = some bit) (hmem : position ∈ (positions.drop (index * 3)).take 3) :
    (bit, position) ∈ (bits.flatMap (List.replicate 3)).zip positions := by
  obtain ⟨i, hlt, hi⟩ := getElem?_of_mem_replicas hmem
  have hcopy : (bits.flatMap (List.replicate 3))[index * 3 + i]? = some bit := by
    rw [← List.getElem?_drop, ← List.getElem?_take_of_lt hlt, take_drop_replicas hbit,
      List.getElem?_replicate, if_pos hlt]
  exact List.mem_iff_getElem?.mpr ⟨index * 3 + i, List.getElem?_zip_eq_some.mpr ⟨hcopy, hi⟩⟩

/-- The bytes with a bit that has a replica in one of the blocks: two for a block at most. -/
theorem card_le_of_damaged {positions : List Nat} {damaged bytes : Finset Nat}
    (hnodup : positions.Nodup)
    (hbytes : ∀ byte ∈ bytes, ∃ index position, index / 8 = byte ∧
      position ∈ (positions.drop (index * 3)).take 3 ∧ position / 2 ∈ damaged) :
    bytes.card ≤ 2 * damaged.card := by
  set spoiled := damaged.biUnion fun block ↦ ({2 * block, 2 * block + 1} : Finset Nat) with hspoiled
  have hsubset : bytes ⊆ spoiled.image fun position ↦ positions.idxOf position / 24 := by
    intro byte hbyte
    obtain ⟨index, position, rfl, hmem, hblock⟩ := hbytes byte hbyte
    obtain ⟨i, hlt, hi⟩ := getElem?_of_mem_replicas hmem
    obtain ⟨hbound, hget⟩ := List.getElem?_eq_some_iff.mp hi
    have hplace : positions.idxOf position = index * 3 + i := by
      rw [← hget]
      exact hnodup.idxOf_getElem _ hbound
    refine Finset.mem_image.mpr ⟨position, ?_, by rw [hplace]; omega⟩
    refine Finset.mem_biUnion.mpr ⟨position / 2, hblock, ?_⟩
    rw [Finset.mem_insert, Finset.mem_singleton]
    omega
  have hpairs : spoiled.card ≤ damaged.card * 2 := by
    apply Finset.card_biUnion_le_card_mul
    intro block _
    exact Finset.card_le_two
  calc bytes.card ≤ (spoiled.image fun position ↦ positions.idxOf position / 24).card :=
        Finset.card_le_card hsubset
    _ ≤ spoiled.card := Finset.card_image_le
    _ ≤ 2 * damaged.card := by omega

variable {keyed : KeyedShuffle K}

/-- **Damage.**  A tile that carries a codeword gives it back when it is received near enough outside
blocks that hold at most one replica of a bit each; at most two bytes for a block are marked. -/
theorem extractCodewordV2_damaged (hsteady : numerics.Steady) {embedded received : Image K}
    {codeword key : List UInt8} {pageIndex : Int} {positions : List Nat} {ε : K}
    {damaged : Finset Nat} (hvalid : ValidV2Profile profile)
    (hshape : (embedded.height, embedded.width) = (profile.tileSizePx, profile.tileSizePx))
    (hcodeword : codeword.length = 39)
    (hbinding : validateBinding key pageIndex profile = .ok ())
    (hpositions : selectedPositions keyed key pageIndex profile = .ok positions)
    (hplacement : Placement profile positions)
    (hcarries : CarriesCodeword numerics profile embedded codeword positions) (hε : 0 ≤ ε)
    (hsmall : 160 * ε ≤ profile.qimDelta)
    (hreceived : Received profile embedded received ε damaged)
    (hapart : ∀ bit < 312, ((positions.drop (bit * 3)).take 3).countP
      (fun position ↦ decide (position / 2 ∈ damaged)) ≤ 1) :
    ∃ evidence, extractCodewordV2 numerics keyed received key pageIndex profile = .ok evidence ∧
      evidence.codeword = codeword ∧ evidence.erasePositions.length ≤ 2 * damaged.card := by
  obtain ⟨edge, hedge, htile⟩ := hvalid.edge
  have htwice : profile.tileSizePx = 2 * (8 * edge) := by omega
  have hshaped : (haarDwt2 numerics received).Shaped (8 * edge) (8 * edge) :=
    haarDwt2_shaped numerics (by rw [hreceived.shape, htwice])
  set ll := (haarDwt2 numerics embedded).ll with hll
  set ll' := (haarDwt2 numerics received).ll with hll'
  set bits := PackedBits.unpack codeword with hbits
  have hbitsLength : bits.length = 312 := by rw [hbits, PackedBits.length_unpack, hcodeword]
  have hinside : ∀ position ∈ positions, (positionComponents position profile).Inside ll' :=
    fun position hmem ↦ positionComponents_inside htile hshaped.ll
      (hplacement.lt_capacity position hmem)
  set replicas := positions.map (readReplica numerics profile ll') with hreplicas
  have hread : positions.mapM (extractReplica numerics profile ll') = .ok replicas :=
    mapM_eq_map fun position hmem ↦
      (readReplica_spec numerics hvalid.qimDelta_pos (hinside position hmem)).1
  have hbounded : ∀ replica ∈ replicas, replica.Bounded := by
    intro replica hmem
    obtain ⟨position, hposition, rfl⟩ := List.mem_map.mp hmem
    exact (readReplica_spec numerics hvalid.qimDelta_pos (hinside position hposition)).2
  -- a replica of a bit outside the damaged blocks is legible
  have hlegible : ∀ index bit, bits[index]? = some bit →
      ∀ position ∈ (positions.drop (index * 3)).take 3,
        (!(readReplica numerics profile ll' position).legible (6 / 10) bit) = true →
          position / 2 ∈ damaged := by
    intro index bit hbit position hmem hillegible
    by_contra hblock
    have hposition := List.mem_of_mem_drop (List.mem_of_mem_take hmem)
    have hcarried : Carries numerics profile ll bit position :=
      hcarries (bit, position) (mem_zip_replicas hbit hmem)
    have hnear := hreceived.window_near numerics htile hshape
      (hplacement.lt_capacity position hposition) hblock
    have hright := readReplica_legible numerics hsteady hvalid.qimDelta_pos hε hsmall
      (hinside position hposition) hcarried hnear
    rw [hright] at hillegible
    cases hillegible
  have hvalues : ∀ index, (replicas.drop (index * 3)).take 3 =
      ((positions.drop (index * 3)).take 3).map (readReplica numerics profile ll') := by
    intro index
    rw [hreplicas, ← List.map_drop, ← List.map_take]
  have hone : ∀ index bit, bits[index]? = some bit →
      ((replicas.drop (index * 3)).take 3).countP
        (fun replica ↦ !replica.legible (6 / 10) bit) ≤ 1 := by
    intro index bit hbit
    have hindex : index < 312 := hbitsLength ▸ (List.getElem?_eq_some_iff.mp hbit).1
    rw [hvalues, List.countP_map]
    refine le_trans (List.countP_mono_left fun position hmem hillegible ↦ ?_) (hapart index hindex)
    exact decide_eq_true (hlegible index bit hbit position hmem hillegible)
  have hcountReplicas : replicas.length = 3 * bits.length := by
    rw [hreplicas, List.length_map, hplacement.length, hbitsLength]
  have hbit : ∀ bit ∈ bits, bit = 0 ∨ bit = 1 := fun bit hmem ↦ PackedBits.unpack_bit hmem
  obtain ⟨hrecovered, hmarked⟩ := tally_damaged (n := 312) hvalid le_rfl hbit hcountReplicas
    hbounded hone hbitsLength.ge
  set tally := (List.range 312).foldl (tallyBit profile replicas) Tally.empty
  have htileValid : validateTile received profile = .ok received :=
    validateTile_eq_ok.mpr ⟨hvalid, hreceived.shape, rfl⟩
  refine ⟨tally.evidence replicas.length, ?_, ?_, ?_⟩
  · have hcount : codewordBytes * bitsPerByte = 312 := rfl
    simp only [extractCodewordV2, htileValid, hbinding, hpositions, ← hll', hread, ok_bind, hcount]
    rfl
  · rw [Tally.evidence_codeword, hrecovered, List.take_of_length_le hbitsLength.le, hbits,
      PackedBits.pack_unpack]
  · rw [Tally.length_erasePositions]
    apply card_le_of_damaged hplacement.nodup
    intro byte hbyte
    obtain ⟨index, bit, hindex, hbit, hcount⟩ := hmarked byte hbyte
    rw [hvalues, List.countP_map, List.countP_pos_iff] at hcount
    obtain ⟨position, hmem, hillegible⟩ := hcount
    exact ⟨index, position, hindex, hmem, hlegible index bit hbit position hmem hillegible⟩

end Received

/-! ## 6. The vote of a tile -/

section Votes

variable {K : Type} (library : Int → RSLibrary)

/-- A word differs from itself nowhere. -/
theorem observedErrorRate_self (word : List UInt8) : observedErrorRate word word = 0 := by
  have hnone : ((PackedBits.unpack word).zip (PackedBits.unpack word)).countP
      (fun bits ↦ decide (bits.1 ≠ bits.2)) = 0 := by
    rw [List.countP_eq_zero]
    intro bits hbits
    obtain ⟨i, hi⟩ := List.mem_iff_getElem?.mp hbits
    obtain ⟨hfirst, hsecond⟩ := List.getElem?_zip_eq_some.mp hi
    have hsame : bits.1 = bits.2 := Option.some.inj (hfirst.symm.trans hsecond)
    simp [hsame]
  unfold observedErrorRate
  rw [hnone, Nat.cast_zero, zero_div]

/-- An intact codeword votes for its id at the first attempt, while the bytes marked are within the
parity. -/
theorem decodePayloadVote_intact {evidence : CodewordEvidence K} {issuanceId : UUID}
    {candidateId : String} {tileOrdinal : Nat} (hevidence : evidence.WellFormed)
    (hlibrary : ((library 16).codec).Corrects 16 (payloadBytes issuanceId))
    (hcodeword : evidence.codeword =
      Interleave.interleave ((library 16).encode (payloadBytes issuanceId)) 8)
    (hbudget : evidence.erasePositions.length ≤ 16) :
    decodePayloadVote library evidence candidateId tileOrdinal =
      .ok (some ⟨candidateId, tileOrdinal, issuanceId, some 0⟩) := by
  have hlength := length_payloadBytes issuanceId
  have hdeclared : DeclaredPositions evidence.erasePositions :=
    ⟨hevidence.claim_sorted.imp ne_of_lt, hevidence.claim_within⟩
  obtain ⟨hnodup, hrange⟩ := hdeclared.ofNat
  have hbudget' : (evidence.erasePositions.map Int.ofNat).length ≤ 16 := by
    rwa [List.length_map]
  have hcodec : decodeEccWithErasures (fun parity ↦ (library parity).codec) evidence.codeword
      (evidence.erasePositions.map Int.ofNat) 16 = .ok (payloadBytes issuanceId) := by
    apply decodeEccWithErasures_damaged _ hlength hlibrary hevidence.codeword_length hrange hnodup
    have hnone : Interleave.wrong
        (Interleave.interleave ((library 16).encode (payloadBytes issuanceId)) 8) evidence.codeword
        ((evidence.erasePositions.map Int.ofNat).map Int.toNat) = 0 := by
      rw [hcodeword]
      exact Interleave.wrong_self _ _
    show 2 * Interleave.wrong
      (Interleave.interleave ((library 16).encode (payloadBytes issuanceId)) 8) _ _ + _ ≤ 16
    omega
  -- the library is called once, and what it returns is the payload
  have hattempt : decodeEccAttempt library evidence.codeword
      (evidence.erasePositions.map Int.ofNat) 16 = .ok (payloadBytes issuanceId) := by
    rw [decodeEccWithErasures_eq _ hevidence.codeword_length hrange hnodup hbudget'] at hcodec
    rw [decodeEccAttempt_eq library hevidence.codeword_length hnodup hrange hbudget']
    cases hanswer : (library 16).decode (Interleave.deinterleave evidence.codeword 8)
        (rawErasures (evidence.erasePositions.map Int.ofNat)) with
    | error raised =>
      simp only [RSLibrary.codec, hanswer, Except.toOption, found_none, error_bind] at hcodec
      cases hcodec
    | ok decoded =>
      simp only [RSLibrary.codec, hanswer, Except.toOption, found_some, ok_bind, bind_eq_ok,
        exists_unit, raiseIf_eq_ok, pure_eq_ok, not_not] at hcodec
      obtain ⟨hdecoded, rfl⟩ := hcodec
      simp only [Except.mapError, ok_bind, raiseIf_neg (not_not.mpr hdecoded)]
      rfl
  obtain ⟨retries, hladder, -⟩ : ∃ retries,
      erasureLadder evidence.erasePositions evidence.erasureRanking =
        evidence.erasePositions :: retries ∧ _ := erasureLadder_eq_cons
  have hfirst : firstDecoded library evidence.codeword (evidence.erasePositions :: retries) =
      .ok (some (payloadBytes issuanceId, ⟨issuanceId, 1⟩)) := by
    have hdecode : decodeAttempt library evidence.codeword evidence.erasePositions =
        .ok (payloadBytes issuanceId, ⟨issuanceId, 1⟩) := by
      unfold decodeAttempt
      rw [hattempt, ok_bind, decodePayload_payloadBytes]
      rfl
    rw [firstDecoded, hdecode]
  unfold decodePayloadVote
  rw [hladder, voteUnder_some library hfirst hlength, ← hcodeword, observedErrorRate_self]

end Votes

/-! ## 7. An embedded tile under damage -/

section Embedded

variable {K : Type} [Field K] [LinearOrder K] [IsStrictOrderedRing K] [FloorRing K]
variable {numerics : Numerics K} {keyed : KeyedShuffle K} {profile : CodecProfile K}

omit [IsStrictOrderedRing K] in
/-- What an embedded tile carries, and where. -/
theorem embedCodewordV2_carries {tile embedded : Image K} {codeword key : List UInt8}
    {pageIndex : Int}
    (h : embedCodewordV2 numerics keyed tile codeword key pageIndex profile = .ok embedded) :
    CodecInputs tile codeword key pageIndex profile ∧
      (embedded.height, embedded.width) = (profile.tileSizePx, profile.tileSizePx) ∧
      ∃ positions, selectedPositions keyed key pageIndex profile = .ok positions ∧
        Placement profile positions ∧ CarriesCodeword numerics profile embedded codeword positions := by
  have hinputs := codecInputs_of_embed numerics keyed h
  obtain ⟨positions, hpositions, hplacement⟩ :=
    selectedPositions_spec keyed hinputs.valid hinputs.binding hinputs.capacity
  obtain ⟨embedded', h', hshape, hcarries⟩ :=
    embedCodewordV2_spec numerics keyed hinputs hpositions hplacement
  rw [h] at h'
  cases h'
  exact ⟨hinputs, hshape, positions, hpositions, hplacement, hcarries⟩

omit [Field K] [LinearOrder K] [IsStrictOrderedRing K] [FloorRing K] in
/-- A single block holds at most one replica of a bit. -/
theorem Placement.countP_le_one {positions : List Nat} (h : Placement profile positions)
    {damaged : Finset Nat} (hone : damaged.card ≤ 1) {bit : Nat} (hbit : bit < 312) :
    ((positions.drop (bit * 3)).take 3).countP
      (fun position ↦ decide (position / 2 ∈ damaged)) ≤ 1 := by
  obtain ⟨block, hblock⟩ := Finset.card_le_one_iff_subset_singleton.mp hone
  have hnodup := h.blocks bit hbit
  rw [Nat.mul_comm] at hnodup
  have hcount := List.nodup_iff_count_le_one.mp hnodup block
  rw [List.count, List.countP_map] at hcount
  refine le_trans (List.countP_mono_left fun position _ hmem ↦ ?_) hcount
  have hsame := Finset.mem_singleton.mp (hblock (of_decide_eq_true hmem))
  show (position / 2 == block) = true
  rw [hsame, beq_self_eq_true]

/-- An embedded tile that is received with little damage votes for the id in its codeword. -/
theorem embedded_tile_votes {library : Int → RSLibrary} {issuanceId : UUID}
    {tile embedded received : Image K} {key : List UInt8} {pageIndex : Int} {positions : List Nat}
    {ε : K} {damaged : Finset Nat} (hsteady : numerics.Steady)
    (hlibrary : ((library 16).codec).Corrects 16 (payloadBytes issuanceId))
    (hembed : embedCodewordV2 numerics keyed tile
      (Interleave.interleave ((library 16).encode (payloadBytes issuanceId)) 8) key pageIndex
      profile = .ok embedded)
    (hpositions : selectedPositions keyed key pageIndex profile = .ok positions) (hε : 0 ≤ ε)
    (hsmall : 160 * ε ≤ profile.qimDelta)
    (hreceived : Received profile embedded received ε damaged) (hfew : damaged.card ≤ 8)
    (hapart : ∀ bit < 312, ((positions.drop (bit * 3)).take 3).countP
      (fun position ↦ decide (position / 2 ∈ damaged)) ≤ 1) :
    ∃ evidence, extractCodewordV2 numerics keyed received key pageIndex profile = .ok evidence ∧
      ∀ candidateId tileOrdinal, decodePayloadVote library evidence candidateId tileOrdinal =
        .ok (some ⟨candidateId, tileOrdinal, issuanceId, some 0⟩) := by
  obtain ⟨hinputs, hshape, positions', hpositions', hplacement, hcarries⟩ :=
    embedCodewordV2_carries hembed
  rw [hpositions] at hpositions'
  cases hpositions'
  obtain ⟨evidence, hextract, hcodeword, hmarked⟩ := extractCodewordV2_damaged numerics hsteady
    hinputs.valid hshape hinputs.codeword hinputs.binding hpositions hplacement hcarries hε hsmall
    hreceived hapart
  refine ⟨evidence, hextract, fun candidateId tileOrdinal ↦ ?_⟩
  exact decodePayloadVote_intact library (extractCodewordV2_wellFormed hextract) hlibrary hcodeword
    (by omega)

end Embedded

/-- **Damage to a tile.**  A tile that was embedded with the codeword of an id votes for that id, with
no bit in error, when every sample is received within a hundred-and-sixtieth of the step, save those
of any one block, or of up to eight blocks no two of which hold replicas of one bit. -/
theorem damaged_tile_votes (keyed : KeyedShuffle ℝ) (library : Int → RSLibrary) (issuanceId : UUID)
    (tile embedded : Image ℝ) (codeword key : List UInt8) (pageIndex : Int)
    (profile : CodecProfile ℝ)
    (hlibrary : ∀ payload, encodePayload issuanceId 1 = .ok payload →
      ((library 16).codec).Corrects 16 payload)
    (hcodeword : (encodePayload issuanceId 1 >>= fun payload ↦
      encodeEcc (fun parity ↦ (library parity).codec) payload 16) = .ok codeword)
    (hembed : embedCodewordV2 orthonormalNumerics keyed tile codeword key pageIndex profile =
      .ok embedded) :
    ∃ positions, selectedPositions keyed key pageIndex profile = .ok positions ∧
      ∀ (received : Image ℝ) (ε : ℝ) (damaged : Finset Nat), 0 ≤ ε →
        160 * ε ≤ profile.qimDelta → Received profile embedded received ε damaged →
        (damaged.card ≤ 1 ∨ damaged.card ≤ 8 ∧
          ∀ bit < 312, ((positions.drop (bit * 3)).take 3).countP
            (fun position ↦ decide (position / 2 ∈ damaged)) ≤ 1) →
        ∃ evidence, extractCodewordV2 orthonormalNumerics keyed received key pageIndex profile =
            .ok evidence ∧
          ∀ candidateId tileOrdinal, decodePayloadVote library evidence candidateId tileOrdinal =
            .ok (some ⟨candidateId, tileOrdinal, issuanceId, some 0⟩) := by
  rw [encodePayload_one, ok_bind, encodeEcc_eq _ (length_payloadBytes issuanceId)] at hcodeword
  cases hcodeword
  obtain ⟨-, -, positions, hpositions, hplacement, -⟩ := embedCodewordV2_carries hembed
  have hcorrects := hlibrary _ (encodePayload_one issuanceId)
  refine ⟨positions, hpositions, fun received ε damaged hε hsmall hreceived hdamage ↦ ?_⟩
  rcases hdamage with hone | ⟨hfew, hapart⟩
  · exact embedded_tile_votes orthonormalNumerics_steady hcorrects hembed hpositions hε hsmall
      hreceived (by omega) fun bit hbit ↦ hplacement.countP_le_one hone hbit
  · exact embedded_tile_votes orthonormalNumerics_steady hcorrects hembed hpositions hε hsmall
      hreceived hfew hapart

/-! ### A white block in a tile that is a little brighter -/

noncomputable def realCodecProfile : CodecProfile ℝ where
  schemaVersion := 2
  contractSha256 := List.replicate 32 0
  qimDelta := (24 : Nat)
  tileSizePx := 384
  tilesPerPage := 18
  payloadRepetitions := 3
  bitReplication := 3
  bitConfidenceMin := (3 : Nat) / (5 : Nat)

theorem realCodecProfile_valid : ValidV2Profile realCodecProfile where
  schemaVersion := rfl
  tileSizePx_pos := by decide
  tileSizePx_dvd := rfl
  bitReplication := rfl
  bitConfidenceMin := by
    show ((3 : Nat) : ℝ) / ((5 : Nat) : ℝ) = 3 / 5
    norm_num
  qimDelta_pos := by
    show (0 : ℝ) < (24 : Nat)
    norm_num
  identifier := by decide +kernel

theorem realCodecProfile_binding : validateBinding [1] 0 realCodecProfile = .ok () := by
  have hkey : ¬ ([1] : List UInt8) = [] := List.cons_ne_nil _ _
  have hindex : ¬ ¬ ((0 : Int) ≤ 0 ∧ (0 : Int) ≤ 0xffffffff) := by decide
  unfold validateBinding
  rw [raiseIf_neg hkey, ok_bind, raiseIf_neg hindex, ok_bind]
  exact validateProfile_eq_ok.mpr realCodecProfile_valid

/-- The library corrects words near the codeword of the golden payload. -/
theorem sampleLibrary_corrects (payload : List UInt8)
    (h : encodePayload samplePayloadUuid 1 = .ok payload) :
    sampleLibrary.codec.Corrects 16 payload := by
  have hencode : encodePayload samplePayloadUuid 1 = .ok samplePayload := by decide +kernel
  obtain rfl : samplePayload = payload := Except.ok.inj (hencode.symm.trans h)
  refine ⟨by decide, fun word erasePos _ _ _ hdamage ↦ ?_⟩
  have hwithin : 2 * Interleave.wrong sampleCodeword word erasePos + erasePos.length ≤ 16 := hdamage
  show (sampleLibrary.decode word erasePos).toOption = some samplePayload
  unfold sampleLibrary
  simp only [if_pos hwithin]
  rfl

theorem sampleLibrary_codeword : (encodePayload samplePayloadUuid 1 >>= fun payload ↦
    encodeEcc (fun _ ↦ sampleLibrary.codec) payload 16) =
      .ok (Interleave.interleave sampleCodeword 8) := by
  rw [encodePayload_one, ok_bind, encodeEcc_eq _ (length_payloadBytes samplePayloadUuid)]
  rfl

/-- The embedded tile as it is received: brighter by a tenth, and its first block white. -/
noncomputable def whitened (embedded : Image ℝ) : Image ℝ :=
  { embedded with
    pixel := fun y x ↦ if sampleBlock realCodecProfile y x = 0 then (255 : Nat)
      else embedded.pixel y x + 1 / (10 : Nat) }

theorem damaged_tile_votes_whitened : ∃ embedded evidence,
    embedCodewordV2 orthonormalNumerics ⟨fun _ _ _ values ↦ values, fun _ _ _ _ ↦ List.Perm.refl _⟩
      ⟨384, 384, fun _ _ ↦ 0⟩ (Interleave.interleave sampleCodeword 8) [1] 0 realCodecProfile =
        .ok embedded ∧
      (∀ y < 16, ∀ x < 16, (whitened embedded).pixel y x = 255) ∧
      extractCodewordV2 orthonormalNumerics
        ⟨fun _ _ _ values ↦ values, fun _ _ _ _ ↦ List.Perm.refl _⟩ (whitened embedded) [1] 0
        realCodecProfile = .ok evidence ∧
      decodePayloadVote (fun _ ↦ sampleLibrary) evidence "candidate" 0 =
        .ok (some ⟨"candidate", 0, samplePayloadUuid, some 0⟩) := by
  set keyed : KeyedShuffle ℝ := ⟨fun _ _ _ values ↦ values, fun _ _ _ _ ↦ List.Perm.refl _⟩
  have hinputs : CodecInputs (⟨384, 384, fun _ _ ↦ 0⟩ : Image ℝ)
      (Interleave.interleave sampleCodeword 8) [1] 0 realCodecProfile :=
    ⟨realCodecProfile_valid, rfl, by decide +kernel, realCodecProfile_binding, by decide⟩
  obtain ⟨positions, hpositions, hplacement⟩ :=
    selectedPositions_spec keyed hinputs.valid hinputs.binding hinputs.capacity
  obtain ⟨embedded, hembed, hshape, -⟩ :=
    embedCodewordV2_spec orthonormalNumerics keyed hinputs hpositions hplacement
  have hreceived : Received realCodecProfile embedded (whitened embedded) (1 / 10) {0} := by
    refine ⟨hshape, fun y _ x _ hblock ↦ ?_⟩
    rw [Finset.mem_singleton] at hblock
    show |(if sampleBlock realCodecProfile y x = 0 then ((255 : Nat) : ℝ)
      else embedded.pixel y x + 1 / (10 : Nat)) - embedded.pixel y x| ≤ 1 / 10
    rw [if_neg hblock, add_sub_cancel_left]
    norm_num
  have hsmall : 160 * (1 / 10 : ℝ) ≤ realCodecProfile.qimDelta := by
    show 160 * (1 / 10 : ℝ) ≤ (24 : Nat)
    norm_num
  obtain ⟨_, -, hvotes⟩ := damaged_tile_votes keyed (fun _ ↦ sampleLibrary) samplePayloadUuid _
    embedded _ [1] 0 realCodecProfile sampleLibrary_corrects sampleLibrary_codeword hembed
  obtain ⟨evidence, hextract, hvote⟩ := hvotes (whitened embedded) (1 / 10) {0} (by norm_num)
    hsmall hreceived (.inl (by decide))
  refine ⟨embedded, evidence, hembed, fun y hy x hx ↦ ?_, hextract, hvote "candidate" 0⟩
  have hblock : sampleBlock realCodecProfile y x = 0 := by
    unfold sampleBlock
    rw [Nat.div_eq_of_lt hy, Nat.div_eq_of_lt hx, Nat.zero_mul]
  show (if sampleBlock realCodecProfile y x = 0 then ((255 : Nat) : ℝ) else _) = 255
  rw [if_pos hblock]
  norm_num

end Splitbind
