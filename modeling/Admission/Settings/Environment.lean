-- Settings from the environment: every variable with the right beginning sets a
-- value, which is a truth value, a number, a list or a text by how it is written.
import Admission.Settings.Value
import Admission.Text.Parts

namespace Admission

namespace Environment

/-- How the names of the variables begin, in lower case. -/
def beginning : List Char := "sentinel_".toList

/-- The settings whose values are lists of texts. -/
def listKeys : List String := ["sentinel_endpoints", "coordinator_endpoints"]

/-- The key that a variable sets, if it sets one. Names are of any case. -/
def key? (name : String) : Option String :=
  let cs := (Value.lowered name).toList
  if beginning.isPrefixOf cs then some (String.ofList (cs.drop beginning.length)) else none

def value (key content : String) : Value :=
  match Value.lowered content with
  | "true" => .truth true
  | "false" => .truth false
  | _ =>
    match Value.integerOf? content, Binary64.ofText? content with
    | some n, _ => .integer n
    | none, some x => .decimal x
    | none, none =>
      if listKeys.contains key then
        .list ((Text.partsBetween ',' content.toList).map fun part => .text (String.ofList part))
      else .text content

/-- The keys that the variables set, with their values. -/
def entries (named : List (String × String)) : List (String × Value) :=
  named.filterMap fun e => (key? e.1).map fun key => (key, value key e.2)

end Environment

end Admission
