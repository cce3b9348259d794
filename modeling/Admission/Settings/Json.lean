-- Reading JSON. Of a name that is repeated the last value counts, a whole number
-- outside the range of integers is kept as a floating point number, and nesting
-- is limited.
import Admission.Settings.Value

namespace Admission

namespace Json

/-- Values nest less deep than this. -/
def depthLimit : Nat := 128

def isSpace (c : Char) : Bool := c = ' ' || c = '\n' || c = '\t' || c = '\r'

def skipSpace (cs : List Char) : List Char := cs.dropWhile isSpace

/-! ## Texts -/

def hexDigit? (c : Char) : Option Nat :=
  if c.isDigit then some (c.toNat - 48)
  else if 'a' ≤ c ∧ c ≤ 'f' then some (c.toNat - 87)
  else if 'A' ≤ c ∧ c ≤ 'F' then some (c.toNat - 55)
  else none

/-- The number that four hexadecimal digits write. -/
def codeUnit? (a b c d : Char) : Option Nat := do
  return (((← hexDigit? a) * 16 + (← hexDigit? b)) * 16 + (← hexDigit? c)) * 16 + (← hexDigit? d)

/-- What stands for a character behind a backslash. -/
def escaped? : Char → Option Char
  | '"' => some '"'
  | '\\' => some '\\'
  | '/' => some '/'
  | 'b' => some '\x08'
  | 'f' => some '\x0c'
  | 'n' => some '\n'
  | 'r' => some '\r'
  | 't' => some '\t'
  | _ => none

/-- Reads a text behind its opening quote. Two halves of a character have to stand together. -/
def readText : List Char → Option (List Char × List Char)
  | [] => none
  | '"' :: rest => some ([], rest)
  | '\\' :: 'u' :: a :: b :: c :: d :: rest =>
    match codeUnit? a b c d with
    | none => none
    | some n =>
      if n < 0xD800 ∨ 0xDFFF < n then
        (readText rest).map fun (text, rest) => (Char.ofNat n :: text, rest)
      else
        match rest with
        | '\\' :: 'u' :: e :: f :: g :: h :: rest =>
          match codeUnit? e f g h with
          | none => none
          | some low =>
            if n ≤ 0xDBFF ∧ 0xDC00 ≤ low ∧ low ≤ 0xDFFF then
              (readText rest).map fun (text, rest) =>
                (Char.ofNat (0x10000 + (n - 0xD800) * 0x400 + (low - 0xDC00)) :: text, rest)
            else none
        | _ => none
  | '\\' :: c :: rest =>
    match escaped? c with
    | none => none
    | some e => (readText rest).map fun (text, rest) => (e :: text, rest)
  | c :: rest =>
    if c.toNat < 0x20 ∨ c = '\\' then none
    else (readText rest).map fun (text, rest) => (c :: text, rest)

/-! ## Numbers -/

/-- Takes digits into a number for as long as it stays below the limit, and leaves the others. -/
def absorb (limit n : Nat) : List Char → Nat × List Char
  | [] => (n, [])
  | c :: rest =>
    let next := 10 * n + (c.toNat - 48)
    if next < limit then absorb limit next rest else (n, c :: rest)

/-- The largest power of ten that is a finite floating point number. -/
def greatestPower : Nat := 308

/-- `x * 10 ^ e`, where powers of ten and products are rounded one by one. Too large a number is
refused. After a few divisions by the greatest power nothing but zero is left. -/
def scale (x : Binary64) (e : Int) : (rounds : Nat) → Option Binary64
  | 0 => some x
  | rounds + 1 =>
    if e.natAbs ≤ greatestPower then
      if 0 ≤ e then
        let y := x.timesPowerOfTen e.toNat
        if y.isInfinite then none else some y
      else some (x.overPowerOfTen e.natAbs)
    else if x.isZero then some x
    else if 0 ≤ e then none
    else scale (x.overPowerOfTen greatestPower) (e + greatestPower) rounds

/-- A number with a fraction or an exponent, or with too many digits. -/
def decimal? (negative : Bool) (significand : Nat) (e : Int) : Option Value :=
  (scale (.ofNat significand) e 4).map fun x => .decimal (if negative then x.negate else x)

/-- A whole number. Where it is no integer of the range it is a floating point number, and so is
a zero with a minus. -/
def whole (negative : Bool) (n : Nat) : Value :=
  let signed : Int := if negative then -n else n
  if Value.inIntegerRange signed && !(negative && n == 0) then .integer signed
  else .decimal (if negative then (Binary64.ofNat n).negate else .ofNat n)

/-- Exponents are counted up to here. -/
def exponentLimit : Nat := 0x7fffffff

/-- Reads an exponent behind its letter. -/
def readExponent (negative : Bool) (significand : Nat) (e : Int) (cs : List Char) :
    Option (Value × List Char) :=
  let (down, cs) := Binary64.splitSign cs
  let digits := cs.takeWhile Char.isDigit
  let n := Binary64.ofDigits digits
  if digits.isEmpty then none
  else if exponentLimit < n ∧ significand ≠ 0 ∧ !down then none
  else
    let n := min n exponentLimit
    (decimal? negative significand (if down then e - n else e + n)).map fun v =>
      (v, cs.drop digits.length)

/-- Reads what may follow the digits of a significand: an exponent, or nothing. -/
def readTail (negative : Bool) (significand : Nat) (e : Int) : List Char → Option (Value × List Char)
  | 'e' :: rest => readExponent negative significand e rest
  | 'E' :: rest => readExponent negative significand e rest
  | cs => (decimal? negative significand e).map fun v => (v, cs)

/-- Reads a number. Digits that the significand has no room for only count in front of the
point. -/
def readNumber (cs : List Char) : Option (Value × List Char) :=
  let (negative, cs) := match cs with
    | '-' :: rest => (true, rest)
    | cs => (false, cs)
  let digits := cs.takeWhile Char.isDigit
  let cs := cs.drop digits.length
  let (significand, left) := absorb Value.numberLimit 0 digits
  if digits.isEmpty || (digits.head? == some '0' && 1 < digits.length) then none
  else
    match cs with
    | '.' :: rest =>
      let fraction := rest.takeWhile Char.isDigit
      let (significand, dropped) := absorb Value.numberLimit significand fraction
      if fraction.isEmpty then none
      else
        readTail negative significand (left.length - (fraction.length - dropped.length : Nat))
          (rest.drop fraction.length)
    | c :: _ =>
      if c = 'e' ∨ c = 'E' ∨ !left.isEmpty then readTail negative significand left.length cs
      else some (whole negative significand, cs)
    | [] =>
      if left.isEmpty then some (whole negative significand, cs)
      else readTail negative significand left.length cs

/-! ## Values -/

def readWord : List Char → List Char → Option (List Char)
  | [], cs => some cs
  | w :: word, c :: cs => if w = c then readWord word cs else none
  | _ :: _, [] => none

mutual

/-- Reads a value, with at most so many containers around what is inside it. -/
def readValue (depth : Nat) : (rounds : Nat) → List Char → Option (Value × List Char)
  | 0, _ => none
  | rounds + 1, cs =>
    match skipSpace cs with
    | '"' :: rest => (readText rest).map fun (text, rest) => (.text (String.ofList text), rest)
    | '[' :: rest =>
      if depth ≤ 1 then none
      else
        match skipSpace rest with
        | ']' :: rest => some (.list [], rest)
        | rest => (readItems (depth - 1) rounds rest).map fun (items, rest) => (.list items, rest)
    | '\x7b' :: rest =>
      if depth ≤ 1 then none
      else
        match skipSpace rest with
        | '\x7d' :: rest => some (.table [], rest)
        | rest =>
          (readMembers (depth - 1) rounds [] rest).map fun (es, rest) => (.table es, rest)
    | 'n' :: rest => (readWord ['u', 'l', 'l'] rest).map fun rest => (.null, rest)
    | 't' :: rest => (readWord ['r', 'u', 'e'] rest).map fun rest => (.truth true, rest)
    | 'f' :: rest => (readWord ['a', 'l', 's', 'e'] rest).map fun rest => (.truth false, rest)
    | rest => readNumber rest

def readItems (depth : Nat) : (rounds : Nat) → List Char → Option (List Value × List Char)
  | 0, _ => none
  | rounds + 1, cs =>
    (readValue depth rounds cs).bind fun (v, rest) =>
      match skipSpace rest with
      | ',' :: rest => (readItems depth rounds rest).map fun (items, rest) => (v :: items, rest)
      | ']' :: rest => some ([v], rest)
      | _ => none

def readMembers (depth : Nat) : (rounds : Nat) → List (String × Value) → List Char →
    Option (List (String × Value) × List Char)
  | 0, _, _ => none
  | rounds + 1, entries, cs =>
    match skipSpace cs with
    | '"' :: rest =>
      (readText rest).bind fun (name, rest) =>
        match skipSpace rest with
        | ':' :: rest =>
          (readValue depth rounds rest).bind fun (v, rest) =>
            let entries := Value.putNamed (String.ofList name) v entries
            match skipSpace rest with
            | ',' :: rest => readMembers depth rounds entries rest
            | '\x7d' :: rest => some (entries, rest)
            | _ => none
        | _ => none
    | _ => none

end

def read (text : String) : Option Value :=
  let cs := text.toList
  (readValue depthLimit (2 * cs.length + 2) cs).bind fun (v, rest) =>
    if (skipSpace rest).isEmpty then some v else none

end Json

end Admission
