-- The tree that a TOML file builds up, line by line, and the value that it means.
-- What a header opened may be added to by other headers, what a point in a key
-- opened only by other points, and nothing may be given twice. A table that has
-- a certain name in front stands for a time and not for a table.
import Admission.Settings.Toml.Scalar

namespace Admission

namespace Toml

inductive Node where
  | bare (b : Bare)
  | quoted (s : String)
  | items (ns : List Node)
  /-- A table that is written on one line. -/
  | line (entries : List (String × Node))
  /-- A table that points in keys opened. -/
  | dotted (entries : List (String × Node))
  /-- A table that headers opened, and whether one of them is its own. -/
  | opened (own : Bool) (entries : List (String × Node))
  /-- Tables under one name, each opened by a header in double brackets. -/
  | repeated (tables : List (List (String × Node)))

namespace Node

/-! ## Meaning -/

/-- A table with this name in front stands for the time that is written under it. -/
def timeKey : String := "$__toml_private_datetime"

/-- The time that a text between quotes writes. -/
def time? : Node → Option Value
  | quoted s => (timeText? s.toList).map .text
  | _ => none

/-- Whether a header opened this. -/
def isOpened : Node → Bool
  | opened _ _ => true
  | repeated _ => true
  | _ => false

/-- What entries mean that have these values. What follows the name for times does not matter, but
headers may not add to a time. -/
def table? (entries : List (String × Node)) (values : Option (List (String × Value))) :
    Option Value :=
  match entries with
  | [] => some (.table [])
  | (name, n) :: rest =>
    if name = timeKey then if rest.any fun e => e.2.isOpened then none else n.time?
    else values.bind fun vs => if (vs.map (·.1)).Nodup then some (.table vs) else none

mutual

/-- What a node means; none if a name in it is given twice or a time is none. -/
def value? : Node → Option Value
  | bare b => b.value?
  | quoted s => some (.text s)
  | items ns => (itemValues ns).map .list
  | line es => table? es (entryValues es)
  | dotted es => table? es (entryValues es)
  | opened _ es => table? es (entryValues es)
  | repeated tables => (tableValues tables).map .list

def itemValues : List Node → Option (List Value)
  | [] => some []
  | n :: rest => (value? n).bind fun v => (itemValues rest).map fun vs => v :: vs

def entryValues : List (String × Node) → Option (List (String × Value))
  | [] => some []
  | (name, n) :: rest =>
    (value? n).bind fun v => (entryValues rest).map fun vs => (name, v) :: vs

def tableValues : List (List (String × Node)) → Option (List Value)
  | [] => some []
  | es :: rest =>
    (table? es (entryValues es)).bind fun v => (tableValues rest).map fun vs => v :: vs

end

/-! ## Building -/

/-- Puts an entry in the place of the first one with its name, or behind all others. -/
def put (name : String) (n : Node) : List (String × Node) → List (String × Node)
  | [] => [(name, n)]
  | (k, m) :: rest => if k = name then (name, n) :: rest else (k, m) :: put name n rest

/-- Adds a value under a key with points. -/
def addKey (n : Node) : List String → List (String × Node) → Option (List (String × Node))
  | [], _ => none
  | [k], es => some (es ++ [(k, n)])
  | k :: path, es =>
    match es.lookup k with
    | none => (addKey n path []).map fun inner => put k (dotted inner) es
    | some (dotted inner) => (addKey n path inner).map fun inner => put k (dotted inner) es
    | some _ => none

def addSection (double : Bool) (body : List (String × Node)) :
    List String → List (String × Node) → Option (List (String × Node))
  | [], _ => none
  | [k], es =>
    match es.lookup k, double with
    | none, false => some (put k (opened true body) es)
    | none, true => some (put k (repeated [body]) es)
    | some (opened false inner), false => some (put k (opened true (inner ++ body)) es)
    | some (repeated tables), true => some (put k (repeated (tables ++ [body])) es)
    | _, _ => none
  | k :: path, es =>
    match es.lookup k with
    | none => (addSection double body path []).map fun inner => put k (opened false inner) es
    | some (opened own inner) =>
      (addSection double body path inner).map fun inner => put k (opened own inner) es
    | some (repeated tables) =>
      (addSection double body path (tables.getLast?.getD [])).map fun inner =>
        put k (repeated (tables.dropLast ++ [inner])) es
    | some _ => none

end Node

end Toml

end Admission
