import Mathlib.Data.List.Basic

/-!
# Packed bits — bytes as lists of bits, most significant first, and back
-/

namespace PackedBits

/-- The bits of a byte. -/
def unpackByte (byte : UInt8) : List Int :=
  [128, 64, 32, 16, 8, 4, 2, 1].map fun unit ↦ ((byte.toNat / unit % 2 : Nat) : Int)

/-- `np.unpackbits` in big-endian bit order. -/
def unpack (bytes : List UInt8) : List Int := bytes.flatMap unpackByte

/-- The byte of at most eight bits; all values but zero count as set. -/
def packByte (bits : List Int) : UInt8 :=
  UInt8.ofNat (bits.foldl (fun n bit ↦ 2 * n + if bit = 0 then 0 else 1) 0)

/-- `np.packbits` in big-endian bit order: the last byte is filled up with zeros. -/
def pack : List Int → List UInt8
  | [] => []
  | a :: b :: c :: d :: e :: f :: g :: h :: bits => packByte [a, b, c, d, e, f, g, h] :: pack bits
  | bits => [packByte (bits.rightpad 8 0)]

@[simp] theorem length_unpack (bytes : List UInt8) : (unpack bytes).length = 8 * bytes.length := by
  induction bytes with
  | nil => rfl
  | cons byte bytes ih =>
    rw [unpack, List.flatMap_cons, List.length_append, List.length_cons]
    show 8 + (unpack bytes).length = _
    omega

theorem unpackByte_bit {byte : UInt8} {bit : Int} (h : bit ∈ unpackByte byte) :
    bit = 0 ∨ bit = 1 := by
  obtain ⟨unit, -, rfl⟩ := List.mem_map.mp h
  omega

theorem unpack_bit {bytes : List UInt8} {bit : Int} (h : bit ∈ unpack bytes) :
    bit = 0 ∨ bit = 1 := by
  obtain ⟨byte, -, hbit⟩ := List.mem_flatMap.mp h
  exact unpackByte_bit hbit

/-- Whole bytes of bits are as many bytes. -/
theorem length_pack {bits : List Int} {n : Nat} (h : bits.length = 8 * n) :
    (pack bits).length = n := by
  induction n generalizing bits with
  | zero =>
    rw [List.length_eq_zero_iff.mp h]
    rfl
  | succ n ih =>
    have hsplit : (bits.take 8).length = 8 := by
      rw [List.length_take]
      omega
    obtain ⟨a, b, c, d, e, f, g, k, htake⟩ : ∃ a b c d e f g k,
        bits.take 8 = [a, b, c, d, e, f, g, k] := by
      generalize bits.take 8 = block at hsplit
      rcases block with _ | ⟨a, _ | ⟨b, _ | ⟨c, _ | ⟨d, _ | ⟨e, _ | ⟨f, _ | ⟨g, _ | ⟨k, rest⟩⟩⟩⟩⟩⟩⟩⟩
      all_goals simp only [List.length_cons, List.length_nil] at hsplit
      all_goals first | omega | skip
      rw [List.length_eq_zero_iff.mp (show rest.length = 0 by omega)]
      exact ⟨a, b, c, d, e, f, g, k, rfl⟩
    have hdrop : (bits.drop 8).length = 8 * n := by
      rw [List.length_drop]
      omega
    rw [← List.take_append_drop 8 bits, htake]
    show (packByte [a, b, c, d, e, f, g, k] :: pack (bits.drop 8)).length = n + 1
    rw [List.length_cons, ih hdrop]

theorem packByte_unpackByte (byte : UInt8) : packByte (unpackByte byte) = byte := by
  have hlt : byte.toNat < 256 := byte.toNat_lt
  have hbit : ∀ n : Nat, (if ((n % 2 : Nat) : Int) = 0 then 0 else 1) = n % 2 := by
    intro n
    split_ifs <;> omega
  -- one more bit of a byte that is known down to the unit above
  have hstep : ∀ unit : Nat,
      2 * (byte.toNat / (unit * 2)) + byte.toNat / unit % 2 = byte.toNat / unit := by
    intro unit
    rw [← Nat.div_div_eq_div_mul]
    omega
  have hvalue : (unpackByte byte).foldl (fun n bit ↦ 2 * n + if bit = 0 then 0 else 1) 0 =
      byte.toNat := by
    simp only [unpackByte, List.map_cons, List.map_nil, List.foldl_cons, List.foldl_nil, hbit]
    rw [show 0 = byte.toNat / 256 by omega, hstep 128, hstep 64, hstep 32, hstep 16, hstep 8,
      hstep 4, hstep 2, Nat.div_one]
    omega
  rw [packByte, hvalue, UInt8.ofNat_toNat]

/-- **Round trip.** -/
theorem pack_unpack (bytes : List UInt8) : pack (unpack bytes) = bytes := by
  induction bytes with
  | nil => rfl
  | cons byte bytes ih =>
    show packByte (unpackByte byte) :: pack (unpack bytes) = _
    rw [packByte_unpackByte, ih]

/-- Bits that are read back where they were placed are the bytes they came from. -/
theorem pack_map_of_zip {α : Type} {f : α → Int} {places : List α} {bytes : List UInt8}
    (hlength : (unpack bytes).length = places.length)
    (h : ∀ placed ∈ (unpack bytes).zip places, f placed.2 = placed.1) :
    pack (places.map f) = bytes := by
  calc pack (places.map f)
      = pack ((((unpack bytes).zip places).map Prod.snd).map f) := by
        rw [List.map_snd_zip (Nat.le_of_eq hlength.symm)]
    _ = pack (((unpack bytes).zip places).map Prod.fst) := by
        rw [List.map_map]
        exact congrArg pack (List.map_congr_left h)
    _ = bytes := by rw [List.map_fst_zip (Nat.le_of_eq hlength), pack_unpack]

end PackedBits
