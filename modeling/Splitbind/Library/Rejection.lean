import Mathlib.Data.Set.Card
import Mathlib.Data.Finset.Card
import Splitbind.Library.BigEndian

/-!
# Rejection — numbers below a bound from a supply of bytes

Bytes are taken a few at a time and read as a number; a number below the acceptance limit gives its
residue, any other is dropped.  When the bound divides the limit, every residue stands for equally
many of the accepted byte strings.
-/

namespace Rejection

/-- The first accepted sample of a supply and what is left of it, unless the supply runs out. -/
def sample (byteCount limit bound : Nat) (supply : List UInt8) : Option (Nat × List UInt8) :=
  if supply.length < byteCount ∨ byteCount = 0 then none
  else
    let candidate := BigEndian.fromBytes (supply.take byteCount)
    if candidate < limit then some (candidate % bound, supply.drop byteCount)
    else sample byteCount limit bound (supply.drop byteCount)
termination_by supply.length
decreasing_by
  rw [List.length_drop]
  omega

/-- The byte strings that are accepted and give a residue. -/
def accepted (byteCount limit bound residue : Nat) : Set (List UInt8) :=
  {bytes | bytes.length = byteCount ∧ BigEndian.fromBytes bytes < limit ∧
    BigEndian.fromBytes bytes % bound = residue}

/-- A sample is the residue of an accepted byte string of the supply. -/
theorem sample_accepted {byteCount limit bound value : Nat} {supply rest : List UInt8}
    (h : sample byteCount limit bound supply = some (value, rest)) :
    ∃ dropped bytes, supply = dropped ++ bytes ++ rest ∧
      bytes ∈ accepted byteCount limit bound value := by
  induction supply using sample.induct byteCount limit with
  | case1 supply hshort =>
    rw [sample, if_pos hshort] at h
    cases h
  | case2 supply hlong candidate haccepted =>
    rw [sample, if_neg hlong] at h
    dsimp only at h
    rw [if_pos haccepted] at h
    cases h
    refine ⟨[], supply.take byteCount, (List.take_append_drop byteCount supply).symm, ?_,
      haccepted, rfl⟩
    rw [List.length_take]
    omega
  | case3 supply hlong candidate hrejected ih =>
    rw [sample, if_neg hlong] at h
    dsimp only at h
    rw [if_neg hrejected] at h
    obtain ⟨dropped, bytes, hsupply, hbytes⟩ := ih h
    refine ⟨supply.take byteCount ++ dropped, bytes, ?_, hbytes⟩
    rw [List.append_assoc, List.append_assoc, ← List.append_assoc dropped, ← hsupply,
      List.take_append_drop]

theorem accepted_lt {byteCount limit bound residue : Nat} {bytes : List UInt8}
    (hbound : 0 < bound) (h : bytes ∈ accepted byteCount limit bound residue) :
    residue < bound := by
  rw [← h.2.2]
  exact Nat.mod_lt _ hbound

/-- A supply of rejected samples only runs out. -/
theorem sample_replicate {limit bound : Nat} {byte : UInt8} (hrejected : limit ≤ byte.toNat)
    (n : Nat) : sample 1 limit bound (List.replicate n byte) = none := by
  induction n with
  | zero =>
    rw [sample]
    exact if_pos (.inl Nat.one_pos)
  | succ n ih =>
    have hvalue : BigEndian.fromBytes ((List.replicate (n + 1) byte).take 1) = byte.toNat := by
      rw [List.replicate_succ, List.take_succ_cons, List.take_zero, ← List.nil_append [byte],
        BigEndian.fromBytes_concat]
      exact Nat.zero_add _
    rw [sample, if_neg (by rw [List.length_replicate]; omega)]
    dsimp only
    rw [hvalue, if_neg (not_lt.mpr hrejected), List.replicate_succ, List.drop_succ_cons,
      List.drop_zero]
    exact ih

/-- Below a multiple of the bound every residue is that of equally many numbers. -/
theorem card_residue {limit bound residue : Nat} (hdvd : bound ∣ limit) (hresidue : residue < bound) :
    ((Finset.range limit).filter (· % bound = residue)).card = limit / bound := by
  obtain ⟨count, rfl⟩ := hdvd
  have hbound : 0 < bound := Nat.zero_lt_of_lt hresidue
  have himage : (Finset.range (bound * count)).filter (· % bound = residue) =
      (Finset.range count).image fun quotient ↦ bound * quotient + residue := by
    apply Finset.ext
    intro n
    rw [Finset.mem_filter, Finset.mem_range, Finset.mem_image]
    constructor
    · rintro ⟨hlt, rfl⟩
      refine ⟨n / bound, Finset.mem_range.mpr (Nat.div_lt_of_lt_mul hlt), Nat.div_add_mod n bound⟩
    · rintro ⟨quotient, hquotient, rfl⟩
      have hnext : bound * (quotient + 1) ≤ bound * count :=
        Nat.mul_le_mul_left bound (Finset.mem_range.mp hquotient)
      refine ⟨by rw [Nat.mul_succ] at hnext; omega, ?_⟩
      rw [Nat.mul_add_mod, Nat.mod_eq_of_lt hresidue]
  have hinjective : Function.Injective fun quotient ↦ bound * quotient + residue := by
    intro a b hab
    exact Nat.eq_of_mul_eq_mul_left hbound (Nat.add_right_cancel hab)
  rw [himage, Finset.card_image_of_injective _ hinjective, Finset.card_range,
    Nat.mul_div_cancel_left count hbound]

/-- Every residue stands for equally many accepted byte strings. -/
theorem ncard_accepted {byteCount limit bound residue : Nat} (hlimit : limit ≤ 256 ^ byteCount)
    (hdvd : bound ∣ limit) (hresidue : residue < bound) :
    (accepted byteCount limit bound residue).ncard = limit / bound := by
  have himage : accepted byteCount limit bound residue =
      BigEndian.toBytes byteCount '' ((Finset.range limit).filter (· % bound = residue)) := by
    apply Set.ext
    intro bytes
    rw [Set.mem_image]
    constructor
    · rintro ⟨rfl, hlt, hmod⟩
      refine ⟨BigEndian.fromBytes bytes, ?_, BigEndian.toBytes_fromBytes bytes⟩
      rw [Finset.mem_coe, Finset.mem_filter, Finset.mem_range]
      exact ⟨hlt, hmod⟩
    · rintro ⟨n, hn, rfl⟩
      rw [Finset.mem_coe, Finset.mem_filter, Finset.mem_range] at hn
      have hvalue : BigEndian.fromBytes (BigEndian.toBytes byteCount n) = n :=
        BigEndian.fromBytes_toBytes (lt_of_lt_of_le hn.1 hlimit)
      refine ⟨BigEndian.length_toBytes byteCount n, ?_, ?_⟩
      · rw [hvalue]
        exact hn.1
      · rw [hvalue]
        exact hn.2
  have hinjective : Set.InjOn (BigEndian.toBytes byteCount)
      ((Finset.range limit).filter (· % bound = residue)) := by
    intro a ha b hb hab
    rw [Finset.mem_coe, Finset.mem_filter, Finset.mem_range] at ha hb
    rw [← BigEndian.fromBytes_toBytes (lt_of_lt_of_le ha.1 hlimit), hab,
      BigEndian.fromBytes_toBytes (lt_of_lt_of_le hb.1 hlimit)]
  rw [himage, hinjective.ncard_image, Set.ncard_coe_finset,
    card_residue hdvd hresidue]

end Rejection
