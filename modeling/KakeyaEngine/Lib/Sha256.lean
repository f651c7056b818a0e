import Mathlib.Algebra.GroupWithZero.Nat

/-!
# SHA-256 and HMAC-SHA-256

The hash of a byte string, and the keyed hash built from it.  Words are natural numbers below `2 ^ 32` and every
loop recurses on its data, so the digest of a concrete text evaluates inside a proof.  What the verification uses of
the digest is its length.
-/

namespace Sha256

/-! ### Words -/

/-- Addition of words. -/
def add (x y : Nat) : Nat := (x + y) % 2 ^ 32

/-- Rotation of a word to the right. -/
def rotr (n x : Nat) : Nat := (x >>> n) ||| (x <<< (32 - n)) % 2 ^ 32

def complement (x : Nat) : Nat := 2 ^ 32 - 1 - x

def ch (x y z : Nat) : Nat := (x &&& y) ^^^ (complement x &&& z)

def maj (x y z : Nat) : Nat := (x &&& y) ^^^ (x &&& z) ^^^ (y &&& z)

def bigSigma0 (x : Nat) : Nat := rotr 2 x ^^^ rotr 13 x ^^^ rotr 22 x

def bigSigma1 (x : Nat) : Nat := rotr 6 x ^^^ rotr 11 x ^^^ rotr 25 x

def smallSigma0 (x : Nat) : Nat := rotr 7 x ^^^ rotr 18 x ^^^ (x >>> 3)

def smallSigma1 (x : Nat) : Nat := rotr 17 x ^^^ rotr 19 x ^^^ (x >>> 10)

/-- The four bytes of a word, the highest first. -/
def wordBytes (x : Nat) : List UInt8 :=
  [UInt8.ofNat (x >>> 24), UInt8.ofNat (x >>> 16), UInt8.ofNat (x >>> 8), UInt8.ofNat x]

/-- The words of a byte string whose length is a multiple of four. -/
def toWords : List UInt8 → List Nat
  | a :: b :: c :: d :: rest =>
    (a.toNat <<< 24 ||| b.toNat <<< 16 ||| c.toNat <<< 8 ||| d.toNat) :: toWords rest
  | _ => []

/-! ### The compression function -/

/-- The round constants. -/
def roundConstants : List Nat :=
  [0x428a2f98, 0x71374491, 0xb5c0fbcf, 0xe9b5dba5, 0x3956c25b, 0x59f111f1, 0x923f82a4, 0xab1c5ed5,
    0xd807aa98, 0x12835b01, 0x243185be, 0x550c7dc3, 0x72be5d74, 0x80deb1fe, 0x9bdc06a7, 0xc19bf174,
    0xe49b69c1, 0xefbe4786, 0x0fc19dc6, 0x240ca1cc, 0x2de92c6f, 0x4a7484aa, 0x5cb0a9dc, 0x76f988da,
    0x983e5152, 0xa831c66d, 0xb00327c8, 0xbf597fc7, 0xc6e00bf3, 0xd5a79147, 0x06ca6351, 0x14292967,
    0x27b70a85, 0x2e1b2138, 0x4d2c6dfc, 0x53380d13, 0x650a7354, 0x766a0abb, 0x81c2c92e, 0x92722c85,
    0xa2bfe8a1, 0xa81a664b, 0xc24b8b70, 0xc76c51a3, 0xd192e819, 0xd6990624, 0xf40e3585, 0x106aa070,
    0x19a4c116, 0x1e376c08, 0x2748774c, 0x34b0bcb5, 0x391c0cb3, 0x4ed8aa4a, 0x5b9cca4f, 0x682e6ff3,
    0x748f82ee, 0x78a5636f, 0x84c87814, 0x8cc70208, 0x90befffa, 0xa4506ceb, 0xbef9a3f7, 0xc67178f2]

/-- Extends a message schedule by `n` words; the schedule is held with its last word first. -/
def extend : Nat → List Nat → List Nat
  | 0, ws => ws
  | n + 1, ws =>
    extend n
      (add (add (smallSigma1 (ws.getD 1 0)) (ws.getD 6 0)) (add (smallSigma0 (ws.getD 14 0)) (ws.getD 15 0))
        :: ws)

/-- The working variables. -/
structure Vars where
  a : Nat
  b : Nat
  c : Nat
  d : Nat
  e : Nat
  f : Nat
  g : Nat
  h : Nat

/-- The initial hash value. -/
def Vars.initial : Vars :=
  ⟨0x6a09e667, 0xbb67ae85, 0x3c6ef372, 0xa54ff53a, 0x510e527f, 0x9b05688c, 0x1f83d9ab, 0x5be0cd19⟩

def Vars.sum (v w : Vars) : Vars :=
  ⟨add v.a w.a, add v.b w.b, add v.c w.c, add v.d w.d, add v.e w.e, add v.f w.f, add v.g w.g, add v.h w.h⟩

def Vars.bytes (v : Vars) : List UInt8 :=
  wordBytes v.a ++ wordBytes v.b ++ wordBytes v.c ++ wordBytes v.d ++
    wordBytes v.e ++ wordBytes v.f ++ wordBytes v.g ++ wordBytes v.h

/-- The new variables from the two sums of a round. -/
def Vars.shift (v : Vars) (t1 t2 : Nat) : Vars := ⟨add t1 t2, v.a, v.b, v.c, add v.d t1, v.e, v.f, v.g⟩

/-- One round, on a round constant and a word of the schedule. -/
def round (v : Vars) (kw : Nat × Nat) : Vars :=
  v.shift (add (add v.h (bigSigma1 v.e)) (add (ch v.e v.f v.g) (add kw.1 kw.2)))
    (add (bigSigma0 v.a) (maj v.a v.b v.c))

/-- The 64 rounds over one block of 64 bytes. -/
def compress (v : Vars) (block : List UInt8) : Vars :=
  v.sum ((roundConstants.zip (extend 48 (toWords block).reverse).reverse).foldl round v)

/-! ### Digests -/

/-- The eight bytes of a number, the highest first. -/
def be64 (n : Nat) : List UInt8 := wordBytes (n >>> 32 % 2 ^ 32) ++ wordBytes (n % 2 ^ 32)

/-- The message with its padding: a one bit, zeros up to 56 modulo 64, and the length in bits. -/
def padded (m : List UInt8) : List UInt8 :=
  m ++ 0x80 :: (List.replicate ((119 - m.length % 64) % 64) 0 ++ be64 (8 * m.length))

/-- Compresses the next `n` blocks. -/
def compressAll : Nat → Vars → List UInt8 → Vars
  | 0, v, _ => v
  | n + 1, v, m => compressAll n (compress v (m.take 64)) (m.drop 64)

/-- The SHA-256 digest of a byte string. -/
def sha256 (m : List UInt8) : List UInt8 :=
  (compressAll ((padded m).length / 64) Vars.initial (padded m)).bytes

/-- A key of at most one block, filled up with zeros. -/
def blockKey (key : List UInt8) : List UInt8 :=
  let short := if 64 < key.length then sha256 key else key
  short ++ List.replicate (64 - short.length) 0

/-- The HMAC-SHA-256 digest of a message under a key. -/
def hmac (key m : List UInt8) : List UInt8 :=
  sha256 ((blockKey key).map (· ^^^ 0x5c) ++ sha256 ((blockKey key).map (· ^^^ 0x36) ++ m))

theorem length_sha256 (m : List UInt8) : (sha256 m).length = 32 := rfl

theorem length_hmac (key m : List UInt8) : (hmac key m).length = 32 := rfl

end Sha256
