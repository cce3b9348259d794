-- Endpoints: an internet address with a port, in either family, as they are
-- written in settings. Two endpoints are the same if address, port and scope are.
import Admission.Text.Parts

namespace Admission

inductive Endpoint where
  | v4 (octets : Vector UInt8 4) (port : UInt16)
  | v6 (groups : Vector UInt16 8) (scope : UInt32) (port : UInt16)
deriving DecidableEq

instance : Inhabited Endpoint := ⟨.v4 (.replicate 4 0) 0⟩

namespace Endpoint

/-! ## Printing -/

def octetsText (octets : List UInt8) : String :=
  ".".intercalate (octets.map fun o => toString o.toNat)

/-- The length of the run of zero groups at the front. -/
def zeroRun (groups : List UInt16) : Nat := (groups.takeWhile (· = 0)).length

/-- The place and the length of the longest run of zero groups, the first of several. -/
def longestZeroRun (index : Nat) : List UInt16 → Nat × Nat
  | [] => (index, 0)
  | g :: rest =>
    let here := zeroRun (g :: rest)
    let later := longestZeroRun (index + 1) rest
    if later.2 ≤ here then (index, here) else later

/-- Groups in hexadecimal without leading zeros, with colons between. -/
def groupsText (groups : List UInt16) : String :=
  ":".intercalate (groups.map fun g => String.ofList (Nat.toDigits 16 g.toNat))

/-- The first longest run of at least two zero groups is left out. An address of the other
family that is mapped into this one keeps its dots. -/
def addressText (groups : List UInt16) : String :=
  match groups with
  | [0, 0, 0, 0, 0, 0xffff, high, low] =>
    "::ffff:" ++ octetsText [(high >>> 8).toUInt8, high.toUInt8, (low >>> 8).toUInt8, low.toUInt8]
  | groups =>
    let (index, length) := longestZeroRun 0 groups
    if length < 2 then groupsText groups
    else groupsText (groups.take index) ++ "::" ++ groupsText (groups.drop (index + length))

def text : Endpoint → String
  | v4 octets port => octetsText octets.toList ++ ":" ++ toString port.toNat
  | v6 groups scope port =>
    let zone := if scope = 0 then "" else "%" ++ toString scope.toNat
    "[" ++ addressText groups.toList ++ zone ++ "]:" ++ toString port.toNat

/-! ## Reading -/

/-- The value of a digit in a radix up to sixteen. -/
def digitValue? (radix : Nat) (c : Char) : Option Nat :=
  let v :=
    if '0' ≤ c ∧ c ≤ '9' then c.toNat - 48
    else if 'a' ≤ c ∧ c ≤ 'f' then c.toNat - 87
    else if 'A' ≤ c ∧ c ≤ 'F' then c.toNat - 55
    else radix
  if v < radix then some v else none

/-- Reads all digits in front as a number below `limit`, of at most so many digits. -/
def readNumber (radix limit maxDigits : Nat) (zeroPrefix : Bool) (cs : List Char) : Option (Nat × List Char) :=
  let digits := cs.takeWhile fun c => (digitValue? radix c).isSome
  let value := digits.foldl (fun n c => n * radix + (digitValue? radix c).getD 0) 0
  if digits.isEmpty || maxDigits < digits.length then none
  else if !zeroPrefix && digits.head? == some '0' && 1 < digits.length then none
  else if limit ≤ value then none
  else some (value, cs.drop digits.length)

def readChar (c : Char) : List Char → Option (List Char)
  | [] => none
  | d :: rest => if d = c then some rest else none

/-- Reads a separator and then a value; the first value has no separator in front. -/
def readSeparated {α : Type} (separator : Char) (first : Bool) (read : List Char → Option (α × List Char))
    (cs : List Char) : Option (α × List Char) :=
  if first then read cs else (readChar separator cs).bind read

/-- A number up to 255 without leading zeros. -/
def readOctet (cs : List Char) : Option (UInt8 × List Char) :=
  (readNumber 10 256 3 false cs).map fun (n, rest) => (UInt8.ofNat n, rest)

def readOctets (cs : List Char) : Option (Vector UInt8 4 × List Char) := do
  let (a, cs) ← readOctet cs
  let (b, cs) ← readSeparated '.' false readOctet cs
  let (c, cs) ← readSeparated '.' false readOctet cs
  let (d, cs) ← readSeparated '.' false readOctet cs
  return (#v[a, b, c, d], cs)

/-- Reads at most `room` groups, where four octets may take the place of the last two. Says
whether they do. -/
def readGroups (first : Bool) : (room : Nat) → List Char → List UInt16 × Bool × List Char
  | 0, cs => ([], false, cs)
  | room + 1, cs =>
    match if 0 < room then readSeparated ':' first readOctets cs else none with
    | some (octets, rest) =>
      let word (i j : UInt8) : UInt16 := i.toUInt16 <<< 8 ||| j.toUInt16
      ([word octets[0] octets[1], word octets[2] octets[3]], true, rest)
    | none =>
      match readSeparated ':' first (readNumber 16 65536 4 true) cs with
      | none => ([], false, cs)
      | some (g, rest) =>
        let (groups, octets, rest) := readGroups false room rest
        (UInt16.ofNat g :: groups, octets, rest)

/-- The eight groups that a front and a back leave open with zeros between. -/
def fillGroups (front back : List UInt16) : Vector UInt16 8 :=
  Vector.ofFn fun i =>
    if i.val < front.length then front.getD i.val 0
    else if 8 ≤ i.val + back.length then back.getD (i.val + back.length - 8) 0
    else 0

/-- Eight groups, or fewer with two colons in the place of at least one. -/
def readAddress (cs : List Char) : Option (Vector UInt16 8 × List Char) :=
  let (front, octets, rest) := readGroups true 8 cs
  if front.length = 8 then some (fillGroups front [], rest)
  else if octets then none
  else do
    let rest ← readChar ':' rest
    let rest ← readChar ':' rest
    let (back, _, rest) := readGroups true (7 - front.length) rest
    return (fillGroups front back, rest)

/-- A colon and a port, and nothing behind it. -/
def readPort (cs : List Char) : Option UInt16 := do
  let cs ← readChar ':' cs
  let (port, rest) ← readNumber 10 65536 cs.length true cs
  if rest.isEmpty then some (UInt16.ofNat port) else none

/-- The number of a scope behind a percent sign; zero where there is none. -/
def readScope (cs : List Char) : UInt32 × List Char :=
  match (readChar '%' cs).bind fun cs => readNumber 10 0x100000000 cs.length true cs with
  | some (scope, rest) => (UInt32.ofNat scope, rest)
  | none => (0, cs)

def readV4 (cs : List Char) : Option Endpoint := do
  let (octets, rest) ← readOctets cs
  let port ← readPort rest
  return .v4 octets port

def readV6 (cs : List Char) : Option Endpoint := do
  let cs ← readChar '[' cs
  let (groups, cs) ← readAddress cs
  let (scope, cs) := readScope cs
  let cs ← readChar ']' cs
  let port ← readPort cs
  return .v6 groups scope port

/-- Reads an endpoint, with white space around it allowed. -/
def ofText? (s : String) : Option Endpoint :=
  let cs := Text.trim s.toList
  readV4 cs <|> readV6 cs

end Endpoint

end Admission
