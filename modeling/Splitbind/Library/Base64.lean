import Mathlib.Data.Nat.Notation
import Mathlib.Tactic.IntervalCases

/-!
# Base64 — texts of four symbols for three bytes

`decode` reads the standard alphabet with its padding and nothing else.  It does not look at the
bits that the padding cuts off, so that only a text that is written again in the same way is the
encoding of what it decodes to.
-/

namespace Base64

def alphabet : List Char :=
  "ABCDEFGHIJKLMNOPQRSTUVWXYZabcdefghijklmnopqrstuvwxyz0123456789+/".toList

def symbol (n : Nat) : Char := alphabet.getD n 'A'

def symbolValue (c : Char) : Option Nat := alphabet.findIdx? (· = c)

theorem symbolValue_symbol {n : Nat} (h : n < 64) : symbolValue (symbol n) = some n := by
  interval_cases n <;> decide

/-! ## 1. Writing -/

def encode : List UInt8 → List Char
  | a :: b :: c :: rest =>
    symbol (a.toNat / 4) :: symbol (a.toNat % 4 * 16 + b.toNat / 16) ::
      symbol (b.toNat % 16 * 4 + c.toNat / 64) :: symbol (c.toNat % 64) :: encode rest
  | [a, b] =>
    [symbol (a.toNat / 4), symbol (a.toNat % 4 * 16 + b.toNat / 16), symbol (b.toNat % 16 * 4), '=']
  | [a] => [symbol (a.toNat / 4), symbol (a.toNat % 4 * 16), '=', '=']
  | [] => []

theorem length_encode (bytes : List UInt8) : (encode bytes).length = (bytes.length + 2) / 3 * 4 := by
  induction bytes using encode.induct with
  | case1 a b c rest ih =>
    simp only [encode, List.length_cons, ih]
    omega
  | case2 a b => simp [encode]
  | case3 a => simp [encode]
  | case4 => simp [encode]

/-! ## 2. Reading -/

/-- The byte that ends in the second symbol, in the third, and in the fourth. -/
def firstByte (a b : Nat) : UInt8 := .ofNat (a * 4 + b / 16)

def secondByte (b c : Nat) : UInt8 := .ofNat (b % 16 * 16 + c / 4)

def thirdByte (c d : Nat) : UInt8 := .ofNat (c % 4 * 64 + d)

/-- The padding ends the text. -/
def decode : List Char → Option (List UInt8)
  | [] => some []
  | a :: b :: c :: d :: rest => do
    let a ← symbolValue a
    let b ← symbolValue b
    if d = '=' then
      if rest ≠ [] then none
      else if c = '=' then some [firstByte a b]
      else (symbolValue c).map fun c ↦ [firstByte a b, secondByte b c]
    else
      let c ← symbolValue c
      let d ← symbolValue d
      let bytes ← decode rest
      return firstByte a b :: secondByte b c :: thirdByte c d :: bytes
  | _ => none

theorem symbol_ne_pad {n : Nat} (h : n < 64) : symbol n ≠ '=' := by
  interval_cases n <;> decide

theorem firstByte_eq (a b : UInt8) :
    firstByte (a.toNat / 4) (a.toNat % 4 * 16 + b.toNat / 16) = a := by
  have ha := a.toNat_lt
  have hb := b.toNat_lt
  rw [firstByte, show a.toNat / 4 * 4 + (a.toNat % 4 * 16 + b.toNat / 16) / 16 = a.toNat by omega,
    UInt8.ofNat_toNat]

theorem secondByte_eq (a b c : UInt8) :
    secondByte (a.toNat % 4 * 16 + b.toNat / 16) (b.toNat % 16 * 4 + c.toNat / 64) = b := by
  have hb := b.toNat_lt
  have hc := c.toNat_lt
  rw [secondByte, show (a.toNat % 4 * 16 + b.toNat / 16) % 16 * 16 +
    (b.toNat % 16 * 4 + c.toNat / 64) / 4 = b.toNat by omega, UInt8.ofNat_toNat]

theorem thirdByte_eq (b c : UInt8) :
    thirdByte (b.toNat % 16 * 4 + c.toNat / 64) (c.toNat % 64) = c := by
  have hc := c.toNat_lt
  rw [thirdByte, show (b.toNat % 16 * 4 + c.toNat / 64) % 4 * 64 + c.toNat % 64 = c.toNat by omega,
    UInt8.ofNat_toNat]

/-- What is written is read back. -/
theorem decode_encode (bytes : List UInt8) : decode (encode bytes) = some bytes := by
  induction bytes using encode.induct with
  | case1 a b c rest ih =>
    have ha := a.toNat_lt
    have hb := b.toNat_lt
    have hc := c.toNat_lt
    have hpad := symbol_ne_pad (show c.toNat % 64 < 64 by omega)
    have h₁ := symbolValue_symbol (show a.toNat / 4 < 64 by omega)
    have h₂ := symbolValue_symbol (show a.toNat % 4 * 16 + b.toNat / 16 < 64 by omega)
    have h₃ := symbolValue_symbol (show b.toNat % 16 * 4 + c.toNat / 64 < 64 by omega)
    have h₄ := symbolValue_symbol (show c.toNat % 64 < 64 by omega)
    simp [encode, decode, hpad, h₁, h₂, h₃, h₄, ih, firstByte_eq, secondByte_eq, thirdByte_eq]
  | case2 a b =>
    have ha := a.toNat_lt
    have hb := b.toNat_lt
    have hsecond := secondByte_eq a b 0
    rw [UInt8.toNat_zero, Nat.zero_div, Nat.add_zero] at hsecond
    have hpad := symbol_ne_pad (show b.toNat % 16 * 4 < 64 by omega)
    have h₁ := symbolValue_symbol (show a.toNat / 4 < 64 by omega)
    have h₂ := symbolValue_symbol (show a.toNat % 4 * 16 + b.toNat / 16 < 64 by omega)
    have h₃ := symbolValue_symbol (show b.toNat % 16 * 4 < 64 by omega)
    simp [encode, decode, hpad, h₁, h₂, h₃, firstByte_eq, hsecond]
  | case3 a =>
    have ha := a.toNat_lt
    have hfirst := firstByte_eq a 0
    rw [UInt8.toNat_zero, Nat.zero_div, Nat.add_zero] at hfirst
    have h₁ := symbolValue_symbol (show a.toNat / 4 < 64 by omega)
    have h₂ := symbolValue_symbol (show a.toNat % 4 * 16 < 64 by omega)
    simp [encode, decode, h₁, h₂, hfirst]
  | case4 => rfl

end Base64
