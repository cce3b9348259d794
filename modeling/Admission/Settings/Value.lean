-- Values as they are found in a settings file or in the environment, and the
-- numbers and texts that they are taken for where a setting asks for one.
import Admission.Binary64.Text

namespace Admission

/-- A value before it is known which setting it belongs to. -/
inductive Value where
  | null
  | truth (b : Bool)
  | integer (n : Int)
  | decimal (x : Binary64)
  | text (s : String)
  | list (items : List Value)
  /-- Values under names, each name once. -/
  | table (entries : List (String × Value))

namespace Value

instance : Inhabited Value := ⟨null⟩

/-! ## Reading numbers -/

/-- The whole numbers that are kept as such. -/
def inIntegerRange (n : Int) : Bool := decide (-0x8000000000000000 ≤ n ∧ n < 0x8000000000000000)

/-- One more than the largest number that a setting holds. -/
def numberLimit : Nat := 0x10000000000000000

/-- Digits behind an optional sign, as a number in the range of integers. -/
def integerOf? (s : String) : Option Int :=
  let (negative, digits) := Binary64.splitSign s.toList
  if digits.isEmpty || !digits.all Char.isDigit then none
  else
    let n : Int := Binary64.ofDigits digits
    let n := if negative then -n else n
    if inIntegerRange n then some n else none

/-- Digits behind an optional plus, as a number below the limit. -/
def naturalOf? (s : String) : Option Nat :=
  let (negative, digits) := Binary64.splitSign s.toList
  if negative || digits.isEmpty || !digits.all Char.isDigit then none
  else
    let n := Binary64.ofDigits digits
    if n < numberLimit then some n else none

/-- The letters of ASCII in lower case, and the sign for Kelvin, which has a letter of ASCII for its
lower case. -/
def lowered (s : String) : String :=
  String.ofList (s.toList.map fun c => if c.toNat = 0x212A then 'k' else c.toLower)

/-! ## Taking values for others -/

/-- A number that is not negative. Words for truth values count as one and zero, and numbers with
a fraction are rounded. -/
def toNat? : Value → Option Nat
  | integer n => if 0 ≤ n then some n.toNat else none
  | decimal x => some (x.toNatUpTo (numberLimit - 1))
  | truth b => some (if b then 1 else 0)
  | text s =>
    match lowered s with
    | "true" | "on" | "yes" => some 1
    | "false" | "off" | "no" => some 0
    | _ => naturalOf? s
  | _ => none

/-- A text. Truth values and numbers are written out. -/
def toText? : Value → Option String
  | text s => some s
  | truth b => some (if b then "true" else "false")
  | integer n => some (toString n)
  | decimal x => some x.text
  | _ => none

/-- A text that may be absent. -/
def toOptionalText? : Value → Option (Option String)
  | null => some none
  | v => v.toText?.map some

def toTexts? : Value → Option (List String)
  | list items => items.mapM toText?
  | _ => none

def toTextTable? : Value → Option (List (String × String))
  | table entries => entries.mapM fun e => e.2.toText?.map fun s => (e.1, s)
  | _ => none

/-! ## Tables -/

/-- Puts an entry in the place of the one with its name, or behind all others. -/
def putNamed (name : String) (v : Value) : List (String × Value) → List (String × Value)
  | [] => [(name, v)]
  | (n, w) :: rest => if n = name then (name, v) :: rest else (n, w) :: putNamed name v rest

/-- The entries of a table; none for any other value. -/
def entries : Value → List (String × Value)
  | table es => es
  | _ => []

/-- The items of a list; none for any other value. -/
def items : Value → List Value
  | list vs => vs
  | _ => []

def get? (v : Value) (name : String) : Option Value := v.entries.lookup name

mutual

/-- Stores a value under a name of a table, any other value giving way to a table. A table is
merged into the one that may be there, and every other value takes the place of what is. -/
def setNamed (root : Value) (name : String) : Value → Value
  | table incoming =>
    table (putNamed name (setAll ((root.get? name).getD (table [])) incoming) root.entries)
  | v => table (putNamed name v root.entries)

def setAll (root : Value) : List (String × Value) → Value
  | [] => root
  | (name, v) :: rest => setAll (setNamed root name v) rest

end

end Value

end Admission
