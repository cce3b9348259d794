-- Ed25519 over SHA-512. Points are read leniently: a coordinate may be written
-- unreduced and zero may carry a sign. A signature is judged strictly by its
-- bytes: the point that it should name is computed, written, and compared.
import Admission.Crypto.Sha512

namespace Admission.Ed25519

/-! ## The field -/

def prime : Nat := (1 <<< 255) - 19

/-- The order of the subgroup of the base point. -/
def order : Nat := (1 <<< 252) + 27742317777372353535851937790883648493

def addField (a b : Nat) : Nat := (a + b) % prime

def subField (a b : Nat) : Nat := (a + (prime - b % prime)) % prime

def mulField (a b : Nat) : Nat := a * b % prime

/-- The low bits of a number, the highest first. -/
def bits (width n : Nat) : List Bool := (List.range width).reverse.map n.testBit

/-- A power, by squaring along the bits of the exponent. -/
def powField (base exponent : Nat) : Nat :=
  (bits 255 exponent).foldl
    (fun acc bit =>
      let squared := mulField acc acc
      if bit then mulField squared base else squared)
    1

def invField (a : Nat) : Nat := powField a (prime - 2)

/-- The constant of the curve, -121665/121666. -/
def curveD : Nat := 37095705934669439343138083508754565189542113879843219016388785533085940283555

def rootOfMinusOne : Nat :=
  19681161376707505956807079304988542015446066515923890162744021073123829784752

/-- A root of u/v, if there is one. -/
def rootOfRatio (u v : Nat) : Option Nat :=
  let v3 := mulField (mulField v v) v
  let v7 := mulField (mulField v3 v3) v
  let x := mulField (mulField u v3) (powField (mulField u v7) ((prime - 5) / 8))
  let check := mulField v (mulField x x)
  if check = u then some x
  else if check = subField 0 u then some (mulField x rootOfMinusOne)
  else none

/-! ## Points -/

/-- A point of the curve: x = X/Z, y = Y/Z and T = XY/Z. -/
structure Point where
  x : Nat
  y : Nat
  z : Nat
  t : Nat

def identity : Point := ⟨0, 1, 1, 0⟩

def basePoint : Point :=
  let x := 15112221349535400772501151409588531511454012693041857206046113283949847762202
  let y := 46316835694926478169428394003475163141307993866256225615783033603165251855960
  ⟨x, y, 1, mulField x y⟩

/-- The sum of two points, by formulas that hold for all pairs. -/
def Point.add (p q : Point) : Point :=
  let a := mulField (subField p.y p.x) (subField q.y q.x)
  let b := mulField (addField p.y p.x) (addField q.y q.x)
  let c := mulField (mulField p.t (2 * curveD)) q.t
  let d := mulField (2 * p.z) q.z
  let e := subField b a
  let f := subField d c
  let g := addField d c
  let h := addField b a
  ⟨mulField e f, mulField g h, mulField f g, mulField e h⟩

def Point.double (p : Point) : Point :=
  let a := mulField p.x p.x
  let b := mulField p.y p.y
  let c := mulField 2 (mulField p.z p.z)
  let h := addField a b
  let s := addField p.x p.y
  let e := subField h (mulField s s)
  let g := subField a b
  let f := addField c g
  ⟨mulField e f, mulField g h, mulField f g, mulField e h⟩

def Point.neg (p : Point) : Point := ⟨subField 0 p.x, p.y, p.z, subField 0 p.t⟩

/-- A multiple of a point, along the bits of the factor. -/
def Point.mul (factor : Nat) (p : Point) : Point :=
  (bits 256 factor).foldl (fun acc bit => if bit then acc.double.add p else acc.double) identity

/-- The canonical form: y in 255 bits, and the lowest bit of x on top. -/
def Point.encode (p : Point) : List UInt8 :=
  let inverse := invField p.z
  let x := mulField p.x inverse
  let y := mulField p.y inverse
  littleEndian 32 (y + if x % 2 = 1 then 1 <<< 255 else 0)

/-- The point that 32 bytes name, if its y lies on the curve. -/
def Point.decode? (bytes : List UInt8) : Option Point :=
  let n := ofLittleEndian bytes
  let y := n % (1 <<< 255) % prime
  let y2 := mulField y y
  (rootOfRatio (subField y2 1) (addField (mulField curveD y2) 1)).map fun root =>
    let even := if root % 2 = 1 then subField 0 root else root
    let x := if 1 <<< 255 ≤ n then subField 0 even else even
    ⟨x, y, 1, mulField x y⟩

/-! ## Keys and signatures -/

/-- The number and the prefix that a secret stands for. -/
def expand (secret : List UInt8) : Nat × List UInt8 :=
  let digest := Sha512.hash secret
  let low := ofLittleEndian (digest.take 32)
  let clamped := low % (1 <<< 254) / 8 * 8 + (1 <<< 254)
  (clamped, digest.drop 32)

def publicKey (secret : List UInt8) : List UInt8 := (basePoint.mul (expand secret).1).encode

/-- The number that binds a signature to its key and its message. -/
def challenge (commitment key message : List UInt8) : Nat :=
  ofLittleEndian (Sha512.hash (commitment ++ key ++ message)) % order

/-- The 64 bytes of a signature, given the bytes of the public key too. -/
def sign (secret key message : List UInt8) : List UInt8 :=
  let (factor, seed) := expand secret
  let nonce := ofLittleEndian (Sha512.hash (seed ++ message)) % order
  let commitment := (basePoint.mul nonce).encode
  let response := (challenge commitment key message * factor + nonce) % order
  commitment ++ littleEndian 32 response

/-- Whether a signature over a message was made with the secret of this key. There is no
cofactor, and keys of small order are not singled out. -/
def verify (key message signature : List UInt8) : Bool :=
  let commitment := signature.take 32
  let response := ofLittleEndian (signature.drop 32)
  match Point.decode? key with
  | none => false
  | some point =>
    decide (response < order) &&
      (((basePoint.mul response).add (point.neg.mul (challenge commitment key message))).encode
        == commitment)

/-- Nothing is accepted under bytes that name no point, or with a response that is not reduced. -/
theorem of_verify {key message signature : List UInt8} (h : verify key message signature = true) :
    (Point.decode? key).isSome = true ∧ ofLittleEndian (signature.drop 32) < order := by
  -- Unfolded without its arguments: with them, the two sides are compared by computing the point.
  have hverify : verify = fun key message signature =>
      match Point.decode? key with
      | none => false
      | some point =>
        decide (ofLittleEndian (signature.drop 32) < order) &&
          (((basePoint.mul (ofLittleEndian (signature.drop 32))).add
            (point.neg.mul (challenge (signature.take 32) key message))).encode
              == signature.take 32) := by
    delta verify
    rfl
  rw [hverify] at h
  dsimp only at h
  cases hpoint : Point.decode? key with
  | none =>
    rw [hpoint] at h
    cases h
  | some point =>
    rw [hpoint, Bool.and_eq_true, decide_eq_true_eq] at h
    exact ⟨rfl, h.1⟩

end Admission.Ed25519
