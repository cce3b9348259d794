-- Key paths: a name, then members behind points and items between brackets. A
-- key that is no path stands for itself. Storing under a path makes the tables
-- and lists on the way where there are none.
import Admission.Settings.Value

namespace Admission

inductive KeyPath where
  | name (s : String)
  | member (path : KeyPath) (s : String)
  /-- An item of a list, counted from its end where the number is negative. -/
  | item (path : KeyPath) (index : Int)
deriving DecidableEq

namespace KeyPath

/-! ## Reading -/

/-- The characters of names in a path. -/
def isNameChar (c : Char) : Bool := c.isAlphanum || c = ' ' || c = '_' || c = '-'

/-- The name in front, which is not empty, and the rest. -/
def readName (cs : List Char) : Option (String × List Char) :=
  let name := cs.takeWhile isNameChar
  if name.isEmpty then none else some (String.ofList name, cs.drop name.length)

/-- A number in brackets, behind the opening one, with spaces around it allowed. -/
def readIndex (cs : List Char) : Option (Int × List Char) :=
  let isSpace (c : Char) : Bool := c = ' ' || c = '\t'
  let cs := cs.dropWhile isSpace
  let (negative, cs) := match cs with
    | '-' :: rest => (true, rest)
    | cs => (false, cs)
  let digits := cs.takeWhile Char.isDigit
  let n : Int := Binary64.ofDigits digits
  let n := if negative then -n else n
  match (cs.drop digits.length).dropWhile isSpace with
  | ']' :: rest => if !digits.isEmpty && Value.inIntegerRange n then some (n, rest) else none
  | _ => none

/-- Reads members and items up to the end. Each takes at least one character, so as many rounds as
there are characters are enough. -/
def readSteps (path : KeyPath) : (rounds : Nat) → List Char → Option KeyPath
  | _, [] => some path
  | 0, _ => none
  | rounds + 1, '.' :: rest =>
    (readName rest).bind fun (s, rest) => readSteps (path.member s) rounds rest
  | rounds + 1, '[' :: rest =>
    (readIndex rest).bind fun (n, rest) => readSteps (path.item n) rounds rest
  | _, _ => none

/-- The path that a key writes; a key that writes none is a name as it stands. -/
def ofKey (key : String) : KeyPath :=
  match (readName key.toList).bind fun (s, rest) => readSteps (name s) rest.length rest with
  | some path => path
  | none => name key

/-! ## Items -/

/-- The position that an index means in a list of this length. -/
def position (index : Int) (length : Nat) : Nat :=
  if 0 ≤ index then index.toNat else length - index.natAbs

/-- Whether an index does not lead past the front of a list of this length. -/
def inReach (index : Int) (length : Nat) : Bool := 0 ≤ index || index.natAbs ≤ length

def item? (index : Int) : Value → Option Value
  | .list items => items[position index items.length]?
  | _ => none

/-- The value at a path, if there is one. -/
def at? : KeyPath → Value → Option Value
  | name s, v => v.get? s
  | member path s, v => (path.at? v).bind (·.get? s)
  | item path index, v => (path.at? v).bind (item? index)

/-- Whether no index on the way leads past the front of its list. -/
def fits : KeyPath → Value → Bool
  | name _, _ => true
  | member path _, v => path.fits v
  | item path index, v => path.fits v && inReach index ((path.at? v).getD .null).items.length

/-! ## Storing -/

/-- Changes an item of a list. Any other value gives way to an empty list, and a list that is too
short is filled up. -/
def modifyItem (index : Int) (f : Value → Value) (v : Value) : Value :=
  let i := position index v.items.length
  let items := v.items ++ List.replicate (i + 1 - v.items.length) .null
  .list (items.modify i f)

/-- Changes a member of a table. Any other value gives way to an empty table. -/
def modifyMember (s : String) (f : Value → Value) (v : Value) : Value :=
  .table (Value.putNamed s (f ((v.get? s).getD .null)) v.entries)

def modify : KeyPath → (Value → Value) → Value → Value
  | name s, f => modifyMember s f
  | member path s, f => path.modify (modifyMember s f)
  | item path index, f => path.modify (modifyItem index f)

/-- Stores a value at a path that fits. Only under a name are tables merged. -/
def set (root : Value) (path : KeyPath) (v : Value) : Value :=
  match path with
  | name s => root.setNamed s v
  | member parent s => parent.modify (·.setNamed s v) root
  | item parent index => parent.modify (modifyItem index fun _ => v) root

end KeyPath

/-- Stores entries one after the other, each at the path that its key writes; none if one of these
does not fit. -/
def Value.setPaths (root : Value) : List (String × Value) → Option Value
  | [] => some root
  | (key, v) :: rest =>
    if (KeyPath.ofKey key).fits root then (KeyPath.set root (.ofKey key) v).setPaths rest else none

end Admission
