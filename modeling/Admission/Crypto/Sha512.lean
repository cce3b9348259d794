-- SHA-512. The message is followed by one set bit, zeros and its length in
-- bits, and cut into blocks of 128 bytes, which are folded into eight words.
import Admission.ByteString

namespace Admission.Sha512

/-! ## Constants -/

/-- The first 64 bits of the fractions of the square roots of the first eight primes. -/
def initialState : Vector UInt64 8 :=
  #v[0x6a09e667f3bcc908, 0xbb67ae8584caa73b, 0x3c6ef372fe94f82b, 0xa54ff53a5f1d36f1,
    0x510e527fade682d1, 0x9b05688c2b3e6c1f, 0x1f83d9abfb41bd6b, 0x5be0cd19137e2179]

/-- The first 64 bits of the fractions of the cube roots of the first eighty primes. -/
def roundConstants : List UInt64 :=
  [0x428a2f98d728ae22, 0x7137449123ef65cd, 0xb5c0fbcfec4d3b2f, 0xe9b5dba58189dbbc,
    0x3956c25bf348b538, 0x59f111f1b605d019, 0x923f82a4af194f9b, 0xab1c5ed5da6d8118,
    0xd807aa98a3030242, 0x12835b0145706fbe, 0x243185be4ee4b28c, 0x550c7dc3d5ffb4e2,
    0x72be5d74f27b896f, 0x80deb1fe3b1696b1, 0x9bdc06a725c71235, 0xc19bf174cf692694,
    0xe49b69c19ef14ad2, 0xefbe4786384f25e3, 0x0fc19dc68b8cd5b5, 0x240ca1cc77ac9c65,
    0x2de92c6f592b0275, 0x4a7484aa6ea6e483, 0x5cb0a9dcbd41fbd4, 0x76f988da831153b5,
    0x983e5152ee66dfab, 0xa831c66d2db43210, 0xb00327c898fb213f, 0xbf597fc7beef0ee4,
    0xc6e00bf33da88fc2, 0xd5a79147930aa725, 0x06ca6351e003826f, 0x142929670a0e6e70,
    0x27b70a8546d22ffc, 0x2e1b21385c26c926, 0x4d2c6dfc5ac42aed, 0x53380d139d95b3df,
    0x650a73548baf63de, 0x766a0abb3c77b2a8, 0x81c2c92e47edaee6, 0x92722c851482353b,
    0xa2bfe8a14cf10364, 0xa81a664bbc423001, 0xc24b8b70d0f89791, 0xc76c51a30654be30,
    0xd192e819d6ef5218, 0xd69906245565a910, 0xf40e35855771202a, 0x106aa07032bbd1b8,
    0x19a4c116b8d2d0c8, 0x1e376c085141ab53, 0x2748774cdf8eeb99, 0x34b0bcb5e19b48a8,
    0x391c0cb3c5c95a63, 0x4ed8aa4ae3418acb, 0x5b9cca4f7763e373, 0x682e6ff3d6b2b8a3,
    0x748f82ee5defb2fc, 0x78a5636f43172f60, 0x84c87814a1f0ab72, 0x8cc702081a6439ec,
    0x90befffa23631e28, 0xa4506cebde82bde9, 0xbef9a3f7b2c67915, 0xc67178f2e372532b,
    0xca273eceea26619c, 0xd186b8c721c0c207, 0xeada7dd6cde0eb1e, 0xf57d4f7fee6ed178,
    0x06f067aa72176fba, 0x0a637dc5a2c898a6, 0x113f9804bef90dae, 0x1b710b35131c471b,
    0x28db77f523047d84, 0x32caab7b40c72493, 0x3c9ebe0a15c9bebc, 0x431d67c49c100d4c,
    0x4cc5d4becb3e42b6, 0x597f299cfc657e2a, 0x5fcb6fab3ad6faec, 0x6c44198c4a475817]

/-! ## One block -/

def rotateRight (x n : UInt64) : UInt64 := (x >>> n) ||| (x <<< (64 - n))

/-- The next word of the schedule, from the sixteen before it. -/
def nextWord (w : Vector UInt64 16) : UInt64 :=
  let w1 := w.getD 1 0
  let w14 := w.getD 14 0
  let s0 := rotateRight w1 1 ^^^ rotateRight w1 8 ^^^ (w1 >>> 7)
  let s1 := rotateRight w14 19 ^^^ rotateRight w14 61 ^^^ (w14 >>> 6)
  w.getD 0 0 + s0 + w.getD 9 0 + s1

/-- Drops the first word of the window and adds one at its end. -/
def slide (w : Vector UInt64 16) : Vector UInt64 16 :=
  Vector.ofFn fun i : Fin 16 => if h : i.val + 1 < 16 then w[i.val + 1] else nextWord w

/-- One round with its constant and its word of the schedule. -/
def round (s : Vector UInt64 8) (k w : UInt64) : Vector UInt64 8 :=
  let e := s.get 4
  let a := s.get 0
  let big1 := rotateRight e 14 ^^^ rotateRight e 18 ^^^ rotateRight e 41
  let choice := (e &&& s.get 5) ^^^ (e.complement &&& s.get 6)
  let t1 := s.get 7 + big1 + choice + k + w
  let big0 := rotateRight a 28 ^^^ rotateRight a 34 ^^^ rotateRight a 39
  let majority := (a &&& s.get 1) ^^^ (a &&& s.get 2) ^^^ (s.get 1 &&& s.get 2)
  #v[t1 + (big0 + majority), a, s.get 1, s.get 2, s.get 3 + t1, e, s.get 5, s.get 6]

def rounds : List UInt64 → Vector UInt64 8 → Vector UInt64 16 → Vector UInt64 8
  | [], s, _ => s
  | k :: ks, s, w => rounds ks (round s k w[0]) (slide w)

/-- The words of a block of 128 bytes, the highest byte of each first. -/
def blockWords (block : List UInt8) : Vector UInt64 16 :=
  let bytes := block.toArray
  Vector.ofFn fun i : Fin 16 =>
    UInt64.ofNat (ofBigEndian ((List.range 8).map fun j => bytes[8 * i.val + j]?.getD 0))

def absorb (s : Vector UInt64 8) (block : List UInt8) : Vector UInt64 8 :=
  Vector.zipWith (· + ·) s (rounds roundConstants s (blockWords block))

/-! ## The whole message -/

/-- The message with its filling, a whole number of blocks long. -/
def padded (message : List UInt8) : List UInt8 :=
  let zeros := (239 - message.length % 128) % 128
  message ++ 0x80 :: List.replicate zeros 0 ++ bigEndian 16 (8 * message.length)

def absorbAll (s : Vector UInt64 8) (bytes : List UInt8) : Vector UInt64 8 :=
  if bytes.isEmpty then s else absorbAll (absorb s (bytes.take 128)) (bytes.drop 128)
termination_by bytes.length
decreasing_by
  have : bytes.length ≠ 0 := by simp_all
  simp; omega

def hash (message : List UInt8) : List UInt8 :=
  (absorbAll initialState (padded message)).toList.flatMap fun w => bigEndian 8 w.toNat

end Admission.Sha512
