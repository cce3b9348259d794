-- The text of a binary floating point number: the fewest digits that read back,
-- written out without an exponent. And the reading of such numbers, which allows
-- an exponent and the names of the numbers that are not finite.
import Admission.Binary64

namespace Admission

namespace Binary64

/-! ## Shortest digits -/

/-- The number of digits in front of the point of a positive quotient; for a quotient below one,
minus the number of zeros behind the point. -/
def pointPosition (num den : Nat) : Int :=
  if den ≤ num then (Nat.toDigits 10 (num / den)).length
  else
    let e : Int := 1 - ((Nat.toDigits 10 (den / num)).length : Int)
    let (n, d) := scaledByTen num den (-e)
    if n < d then e else e + 1

/-- Whether `c * 10 ^ k` reads back as `mantissa * 2 ^ exponent`: it is closer to it than half the
way to the neighbours, or halfway where the mantissa is even. -/
def readsBackAs (mantissa : Nat) (exponent : Int) (c : Nat) (k : Int) : Bool :=
  let down := if mantissa = mantissaLimit / 2 ∧ leastExponent < exponent then 1 else 2
  let (n, d) := scaledByTen c 1 k
  let (n, d) := scaledByTwo n d (2 - exponent)
  let low := (4 * mantissa - down) * d
  let high := (4 * mantissa + 2) * d
  if mantissa % 2 = 0 then decide (low ≤ n ∧ n ≤ high) else decide (low < n ∧ n < high)

/-- The shortest digits from `count` digits on, with the exponent of the last of them. Of two that
read back, the nearer is taken, and the larger one halfway. -/
def shortestFrom (mantissa : Nat) (exponent : Int) (count : Nat) : (tries : Nat) → Nat × Int
  | 0 => (0, 0)
  | tries + 1 =>
    let (num, den) := scaledByTwo mantissa 1 exponent
    let k := pointPosition num den - count
    let (n, d) := scaledByTen num den (-k)
    let c := n / d
    let below := readsBackAs mantissa exponent c k
    let above := readsBackAs mantissa exponent (c + 1) k
    if below && (!above || decide (2 * (n % d) < d)) then (c, k)
    else if above then (c + 1, k)
    else shortestFrom mantissa exponent (count + 1) tries

/-- The fewest digits that read back as a positive number. Seventeen are always enough. -/
def shortest (mantissa : Nat) (exponent : Int) : Nat × Int := shortestFrom mantissa exponent 1 17

/-! ## Writing -/

/-- `c * 10 ^ k` without an exponent. -/
def positional (c : Nat) (k : Int) : List Char :=
  let digits := Nat.toDigits 10 c
  if 0 ≤ k then digits ++ List.replicate k.toNat '0'
  else
    let places := (-k).toNat
    let digits := List.replicate (places + 1 - digits.length) '0' ++ digits
    let whole := digits.length - places
    let fraction := ((digits.drop whole).reverse.dropWhile (· = '0')).reverse
    digits.take whole ++ if fraction.isEmpty then [] else '.' :: fraction

def text : Binary64 → String
  | finite negative m e =>
    let digits := if m = 0 then ['0'] else
      let (c, k) := shortest m e
      positional c k
    String.ofList (if negative then '-' :: digits else digits)
  | infinite negative => if negative then "-inf" else "inf"
  | notANumber => "NaN"

/-! ## Reading -/

/-- The number that decimal digits write. -/
def ofDigits (digits : List Char) : Nat := digits.foldl (fun n c => 10 * n + (c.toNat - 48)) 0

/-- A sign in front, if there is one: whether it is a minus, and the rest. -/
def splitSign : List Char → Bool × List Char
  | '-' :: rest => (true, rest)
  | '+' :: rest => (false, rest)
  | cs => (false, cs)

/-- Reads digits with an optional point, and an optional exponent behind them. -/
def readDecimal (negative : Bool) (cs : List Char) : Option Binary64 :=
  let whole := cs.takeWhile Char.isDigit
  let cs := cs.drop whole.length
  let (fraction, cs) := match cs with
    | '.' :: rest =>
      let fraction := rest.takeWhile Char.isDigit
      (fraction, rest.drop fraction.length)
    | cs => ([], cs)
  if whole.isEmpty && fraction.isEmpty then none
  else
    let value (e : Int) : Binary64 :=
      ofDecimal negative (ofDigits (whole ++ fraction)) (e - fraction.length)
    match cs with
    | [] => some (value 0)
    | c :: rest =>
      let (down, digits) := splitSign rest
      if (c = 'e' ∨ c = 'E') ∧ !digits.isEmpty ∧ digits.all Char.isDigit then
        some (value (if down then -(ofDigits digits : Int) else ofDigits digits))
      else none

/-- Reads a number. Letters may be of either case. -/
def ofText? (s : String) : Option Binary64 :=
  let (negative, cs) := splitSign s.toList
  match String.ofList (cs.map Char.toLower) with
  | "inf" => some (infinite negative)
  | "infinity" => some (infinite negative)
  | "nan" => some notANumber
  | _ => readDecimal negative cs

end Binary64

end Admission
