import Mathlib.Tactic.Common
import Splitbind.Library.BigEndian

/-!
# SHA-256 — digests of bytes, and authentication codes over them

Words are natural numbers below 2 ^ 32; every operation that could leave this range is reduced.
-/

namespace Sha256

/-! ## 1. Words -/

def modulus : Nat := 4294967296

def rotr (n x : Nat) : Nat := (x >>> n) ||| ((x <<< (32 - n)) % modulus)

def complement (x : Nat) : Nat := x ^^^ 4294967295

def choose (x y z : Nat) : Nat := (x &&& y) ^^^ (complement x &&& z)

def majority (x y z : Nat) : Nat := (x &&& y) ^^^ (x &&& z) ^^^ (y &&& z)

def bigSigma0 (x : Nat) : Nat := rotr 2 x ^^^ rotr 13 x ^^^ rotr 22 x

def bigSigma1 (x : Nat) : Nat := rotr 6 x ^^^ rotr 11 x ^^^ rotr 25 x

def smallSigma0 (x : Nat) : Nat := rotr 7 x ^^^ rotr 18 x ^^^ (x >>> 3)

def smallSigma1 (x : Nat) : Nat := rotr 17 x ^^^ rotr 19 x ^^^ (x >>> 10)

def constants : List Nat :=
  [0x428a2f98, 0x71374491, 0xb5c0fbcf, 0xe9b5dba5, 0x3956c25b, 0x59f111f1, 0x923f82a4, 0xab1c5ed5,
    0xd807aa98, 0x12835b01, 0x243185be, 0x550c7dc3, 0x72be5d74, 0x80deb1fe, 0x9bdc06a7, 0xc19bf174,
    0xe49b69c1, 0xefbe4786, 0x0fc19dc6, 0x240ca1cc, 0x2de92c6f, 0x4a7484aa, 0x5cb0a9dc, 0x76f988da,
    0x983e5152, 0xa831c66d, 0xb00327c8, 0xbf597fc7, 0xc6e00bf3, 0xd5a79147, 0x06ca6351, 0x14292967,
    0x27b70a85, 0x2e1b2138, 0x4d2c6dfc, 0x53380d13, 0x650a7354, 0x766a0abb, 0x81c2c92e, 0x92722c85,
    0xa2bfe8a1, 0xa81a664b, 0xc24b8b70, 0xc76c51a3, 0xd192e819, 0xd6990624, 0xf40e3585, 0x106aa070,
    0x19a4c116, 0x1e376c08, 0x2748774c, 0x34b0bcb5, 0x391c0cb3, 0x4ed8aa4a, 0x5b9cca4f, 0x682e6ff3,
    0x748f82ee, 0x78a5636f, 0x84c87814, 0x8cc70208, 0x90befffa, 0xa4506ceb, 0xbef9a3f7, 0xc67178f2]

/-! ## 2. Blocks -/

/-- The eight working words. -/
structure State where
  a : Nat
  b : Nat
  c : Nat
  d : Nat
  e : Nat
  f : Nat
  g : Nat
  h : Nat

def initial : State :=
  ⟨0x6a09e667, 0xbb67ae85, 0x3c6ef372, 0xa54ff53a, 0x510e527f, 0x9b05688c, 0x1f83d9ab, 0x5be0cd19⟩

/-- The words of a block, the newest first, after so many further words. -/
def schedule : Nat → List Nat → List Nat
  | 0, words => words
  | n + 1, words =>
    schedule n ((smallSigma1 (words.getD 1 0) + words.getD 6 0 + smallSigma0 (words.getD 14 0) +
      words.getD 15 0) % modulus :: words)

def round (s : State) (k w : Nat) : State :=
  let t1 := s.h + bigSigma1 s.e + choose s.e s.f s.g + k + w
  let t2 := bigSigma0 s.a + majority s.a s.b s.c
  ⟨(t1 + t2) % modulus, s.a, s.b, s.c, (s.d + t1) % modulus, s.e, s.f, s.g⟩

def rounds (s : State) (ws : List Nat) : State :=
  (constants.zip ws).foldl (fun s kw ↦ round s kw.1 kw.2) s

def State.add (s t : State) : State :=
  ⟨(s.a + t.a) % modulus, (s.b + t.b) % modulus, (s.c + t.c) % modulus, (s.d + t.d) % modulus,
    (s.e + t.e) % modulus, (s.f + t.f) % modulus, (s.g + t.g) % modulus, (s.h + t.h) % modulus⟩

/-- The first words of some bytes. -/
def words : Nat → List UInt8 → List Nat
  | 0, _ => []
  | n + 1, bytes => BigEndian.fromBytes (bytes.take 4) :: words n (bytes.drop 4)

def compress (s : State) (block : List UInt8) : State :=
  s.add (rounds s (schedule 48 (words 16 block).reverse).reverse)

/-- The state after so many blocks. -/
def compressAll : Nat → State → List UInt8 → State
  | 0, s, _ => s
  | n + 1, s, bytes => compressAll n (compress s (bytes.take 64)) (bytes.drop 64)

/-! ## 3. Digests -/

/-- The message, a mark, zeros to a whole number of blocks, and the number of its bits. -/
def pad (message : List UInt8) : List UInt8 :=
  message ++ 0x80 :: (List.replicate ((119 - message.length % 64) % 64) 0 ++
    BigEndian.toBytes 8 (8 * message.length))

def State.bytes (s : State) : List UInt8 :=
  [s.a, s.b, s.c, s.d, s.e, s.f, s.g, s.h].flatMap (BigEndian.toBytes 4)

def digest (message : List UInt8) : List UInt8 :=
  (compressAll ((pad message).length / 64) initial (pad message)).bytes

def hexdigest (message : List UInt8) : List Char :=
  (digest message).flatMap fun byte ↦
    [Nat.digitChar (byte.toNat / 16), Nat.digitChar (byte.toNat % 16)]

theorem length_digest (message : List UInt8) : (digest message).length = 32 := by
  simp only [digest, State.bytes, List.flatMap_cons, List.flatMap_nil, List.length_append,
    BigEndian.length_toBytes, List.length_nil]

example : hexdigest [0x61, 0x62, 0x63] =
    "ba7816bf8f01cfea414140de5dae2223b00361a396177a9cb410ff61f20015ad".toList := by
  decide +kernel

/-! ## 4. Authentication codes -/

/-- The key as a block: a long key is digested first. -/
def keyBlock (key : List UInt8) : List UInt8 :=
  let short := if 64 < key.length then digest key else key
  short ++ List.replicate (64 - short.length) 0

def hmac (key message : List UInt8) : List UInt8 :=
  digest ((keyBlock key).map (· ^^^ 0x5c) ++ digest ((keyBlock key).map (· ^^^ 0x36) ++ message))

theorem length_hmac (key message : List UInt8) : (hmac key message).length = 32 :=
  length_digest _

end Sha256
