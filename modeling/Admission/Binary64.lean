-- Numbers of 64 bits in binary floating point, as exact values. Rounding is done
-- on quotients of naturals, to the nearest number and halfway to an even one.

namespace Admission

/-- A number of the format. A finite one is `mantissa * 2 ^ exponent`, up to its sign. -/
inductive Binary64 where
  | finite (negative : Bool) (mantissa : Nat) (exponent : Int)
  | infinite (negative : Bool)
  | notANumber
deriving DecidableEq

namespace Binary64

def leastExponent : Int := -1074

def greatestExponent : Int := 971

/-- Mantissas are below this. -/
def mantissaLimit : Nat := 0x20000000000000

def scaledByTwo (num den : Nat) (e : Int) : Nat × Nat :=
  if 0 ≤ e then (num <<< e.toNat, den) else (num, den <<< (-e).toNat)

def scaledByTen (num den : Nat) (e : Int) : Nat × Nat :=
  if 0 ≤ e then (num * Nat.pow 10 e.toNat, den) else (num, den * Nat.pow 10 (-e).toNat)

/-- The natural number nearest to a quotient, halfway the even one. -/
def nearest (num den : Nat) : Nat :=
  let q := num / den
  let r := num % den
  if 2 * r < den then q else if den < 2 * r then q + 1 else q + q % 2

/-- The exponent at which a positive quotient has a mantissa of 53 bits, or the least exponent. -/
def exponentOf (num den : Nat) : Int :=
  let e : Int := (num.log2 : Int) - (den.log2 : Int) - 53
  let (n, d) := scaledByTwo num den (-e)
  max leastExponent (if n / d < mantissaLimit then e else e + 1)

/-- The number nearest to a quotient with this sign. -/
def ofQuotient (negative : Bool) (num den : Nat) : Binary64 :=
  if num = 0 then finite negative 0 leastExponent
  else
    let e := exponentOf num den
    let (n, d) := scaledByTwo num den (-e)
    let m := nearest n d
    let (m, e) := if m = mantissaLimit then (m / 2, e + 1) else (m, e)
    if greatestExponent < e then infinite negative else finite negative m e

/-- A power of ten of more digits than this is infinite or vanishes. -/
def digitLimit : Nat := 400

/-- The number nearest to `digits * 10 ^ e`. -/
def ofDecimal (negative : Bool) (digits : Nat) (e : Int) : Binary64 :=
  let size := (Nat.toDigits 10 digits).length + e
  if digits = 0 ∨ size < -(digitLimit : Int) then finite negative 0 leastExponent
  else if (digitLimit : Int) < size then infinite negative
  else
    let (num, den) := scaledByTen digits 1 e
    ofQuotient negative num den

def ofNat (n : Nat) : Binary64 := ofQuotient false n 1

/-- The product with a power of ten that is itself rounded to a number of the format. The sign
and anything not finite are left as they are. -/
def timesPowerOfTen (x : Binary64) (k : Nat) : Binary64 :=
  match x, ofDecimal false 1 k with
  | finite negative m e, finite _ m' e' =>
    let (num, den) := scaledByTwo (m * m') 1 (e + e')
    ofQuotient negative num den
  | x, _ => x

/-- The quotient by a power of ten that is itself rounded to a number of the format. -/
def overPowerOfTen (x : Binary64) (k : Nat) : Binary64 :=
  match x, ofDecimal false 1 k with
  | finite negative m e, finite _ m' e' =>
    let (num, den) := scaledByTwo m m' (e - e')
    ofQuotient negative num den
  | x, _ => x

def isInfinite : Binary64 → Bool
  | infinite _ => true
  | _ => false

def isZero : Binary64 → Bool
  | finite _ m _ => m == 0
  | _ => false

def negate : Binary64 → Binary64
  | finite negative m e => finite (!negative) m e
  | infinite negative => infinite (!negative)
  | notANumber => notANumber

/-- The nearest natural number, halfway the larger one, but at most `limit`. Everything below zero
counts as zero, and so does what is no number. -/
def toNatUpTo (limit : Nat) : Binary64 → Nat
  | finite true _ _ => 0
  | finite false m e =>
    let (num, den) := scaledByTwo m 1 e
    min limit ((2 * num + den) / (2 * den))
  | infinite true => 0
  | infinite false => limit
  | notANumber => 0

end Binary64

end Admission
