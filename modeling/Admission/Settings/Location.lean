-- Where a settings file is looked for. A path is a row of parts between slashes,
-- followed from one directory, and only a path that ends in a name can be a file.
import Admission.Settings.Value
import Admission.Text.Parts

namespace Admission

namespace Location

def parts (path : String) : List String :=
  (Text.partsBetween '/' path.toList).map String.ofList

def stays (part : String) : Bool := part = "" || part = "."

/-- Whether a path can be a file: one that ends in a slash can only be a directory. -/
def canBeFile (path : String) : Bool := ((parts path).getLast?.map fun p => !stays p).getD false

/-- The directories above a place, both being written with the innermost part in front. -/
def above : List String → List (List String)
  | [] => []
  | _ :: rest => rest :: above rest

/-- Follows parts from a place. Only a directory has anything below or above it, and nothing is
above the first one. -/
def follow (directories : List (List String)) :
    (place : List String) → List String → Option (List String)
  | place, [] => some place
  | place, part :: rest =>
    if !directories.contains place then none
    else if part = ".." then
      match place with
      | [] => none
      | _ :: outer => follow directories outer rest
    else follow directories (part :: place) rest

/-- The text of the file that a path leads to, among files that are named by their own paths. -/
def fileAt (files : List (String × String)) (path : String) : Option String :=
  if !canBeFile path then none
  else
    match files.lookup path with
    | some text => some text
    | none =>
      if path.startsWith "/" then none
      else
        let inner (path : String) : List String := (parts path).filter fun p => !stays p
        let places := files.map fun f => ((inner f.1).reverse, f.2)
        let directories := [] :: places.flatMap fun p => above p.1
        (follow directories [] (inner path)).bind fun place => places.lookup place

/-- A path with an ending behind a point added to its last part; none if that is no name. -/
def withEnding (path ending : String) : Option String :=
  match (parts path).reverse.dropWhile stays with
  | [] => none
  | ".." :: _ => none
  | kept => some ("/".intercalate kept.reverse ++ "." ++ ending)

end Location

end Admission
