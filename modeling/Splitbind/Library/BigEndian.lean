import Mathlib.Data.List.Induction
import Mathlib.Tactic.Ring

/-!
# Big-endian numbers — fixed-width bytes of a natural number and back
-/

namespace BigEndian

/-! ## 1. The two directions -/

/-- The `width` bytes of `n`, most significant first. -/
def toBytes : Nat → Nat → List UInt8
  | 0, _ => []
  | width + 1, n => toBytes width (n / 256) ++ [UInt8.ofNat (n % 256)]

def fromBytes (bytes : List UInt8) : Nat :=
  bytes.foldl (fun n byte ↦ 256 * n + byte.toNat) 0

@[simp] theorem length_toBytes (width n : Nat) : (toBytes width n).length = width := by
  induction width generalizing n with
  | zero => rfl
  | succ width ih => rw [toBytes, List.length_append, ih, List.length_singleton]

theorem fromBytes_concat (bytes : List UInt8) (byte : UInt8) :
    fromBytes (bytes ++ [byte]) = 256 * fromBytes bytes + byte.toNat := by
  rw [fromBytes, List.foldl_append]
  rfl

theorem fromBytes_lt (bytes : List UInt8) : fromBytes bytes < 256 ^ bytes.length := by
  induction bytes using List.reverseRecOn with
  | nil => decide
  | append_singleton bytes byte ih =>
    have hbyte : byte.toNat < 256 := byte.toNat_lt
    rw [fromBytes_concat, List.length_append, List.length_singleton, Nat.pow_succ]
    omega

/-! ## 2. Round trips -/

/-- A number that fits its width comes back. -/
theorem fromBytes_toBytes {width n : Nat} (hn : n < 256 ^ width) :
    fromBytes (toBytes width n) = n := by
  induction width generalizing n with
  | zero =>
    have hzero : n = 0 := by simpa using hn
    rw [hzero]
    rfl
  | succ width ih =>
    have hdiv : n / 256 < 256 ^ width := by
      rw [Nat.pow_succ] at hn
      omega
    have hbyte : (UInt8.ofNat (n % 256)).toNat = n % 256 := by
      rw [UInt8.toNat_ofNat']
      omega
    rw [toBytes, fromBytes_concat, ih hdiv, hbyte]
    omega

/-- Bytes come back in their own width. -/
theorem toBytes_fromBytes (bytes : List UInt8) :
    toBytes bytes.length (fromBytes bytes) = bytes := by
  induction bytes using List.reverseRecOn with
  | nil => rfl
  | append_singleton bytes byte ih =>
    have hbyte : byte.toNat < 256 := byte.toNat_lt
    have hdiv : (256 * fromBytes bytes + byte.toNat) / 256 = fromBytes bytes := by omega
    have hmod : (256 * fromBytes bytes + byte.toNat) % 256 = byte.toNat := by omega
    rw [List.length_append, List.length_singleton, fromBytes_concat, toBytes, hdiv, hmod, ih,
      UInt8.ofNat_toNat]

end BigEndian
