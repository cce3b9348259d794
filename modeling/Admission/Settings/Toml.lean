-- Reading TOML: lines of keys and values, under headers in brackets.
import Admission.Settings.Toml.Node

namespace Admission

namespace Toml

/-! ## Lines -/

/-- Line breaks are single characters. -/
def foldBreaks : List Char → List Char
  | '\r' :: '\n' :: rest => '\n' :: foldBreaks rest
  | c :: rest => c :: foldBreaks rest
  | [] => []

/-- What follows a comment, if one starts here. -/
def skipComment (cs : List Char) : List Char :=
  match cs with
  | '#' :: rest => rest.dropWhile fun c => c = '\t' || 0x20 ≤ c.toNat
  | cs => cs

/-- The rest behind the end of a line, in front of which there may be a comment. -/
def endLine (cs : List Char) : Option (List Char) :=
  match skipComment (skipSpace cs) with
  | [] => some []
  | '\n' :: rest => some rest
  | _ => none

/-- Skips space, line breaks and comments. Every round skips at least one character. -/
def skipLines : (rounds : Nat) → List Char → List Char
  | 0, cs => cs
  | rounds + 1, cs =>
    match skipComment (skipSpace cs) with
    | '\n' :: rest => skipLines rounds rest
    | rest => rest

/-! ## Keys -/

def readKeyPart (cs : List Char) : Option (String × List Char) :=
  let quoted (quote : Char) (rest : List Char) : Option (String × List Char) :=
    match readText quote rest with
    | some (text, false, rest) => some (text, rest)
    | _ => none
  match cs with
  | '"' :: rest => quoted '"' rest
  | '\'' :: rest => quoted '\'' rest
  | cs => (readBare cs).map fun (word, rest) => (String.ofList word, rest)

/-- Reads parts with points between them, and the space behind. -/
def readKey : (rounds : Nat) → List Char → Option (List String × List Char)
  | 0, _ => none
  | rounds + 1, cs =>
    (readKeyPart cs).bind fun (part, rest) =>
      match skipSpace rest with
      | '.' :: rest =>
        (readKey rounds (skipSpace rest)).map fun (parts, rest) => (part :: parts, rest)
      | rest => some ([part], rest)

/-! ## Values -/

mutual

def readValue : (rounds : Nat) → List Char → Option (Node × List Char)
  | 0, _ => none
  | rounds + 1, cs =>
    match cs with
    | '"' :: rest => (readText '"' rest).map fun (text, _, rest) => (.quoted text, rest)
    | '\'' :: rest => (readText '\'' rest).map fun (text, _, rest) => (.quoted text, rest)
    | '+' :: rest =>
      ((readBare rest).bind fun (word, rest) => readNumber word rest).map fun (v, rest) =>
        (.bare (.plain v), rest)
    | '[' :: rest => (readItems rounds rest).map fun (items, rest) => (.items items, rest)
    | '\x7b' :: rest =>
      match skipSpace rest with
      | '\x7d' :: rest => some (.line [], rest)
      | rest => (readMembers rounds [] rest).map fun (es, rest) => (.line es, rest)
    | cs =>
      ((readBare cs).bind fun (word, rest) => readWord word rest).map fun (b, rest) =>
        (.bare b, rest)

/-- Reads the items of a list up to its end. A comma may follow the last one. -/
def readItems : (rounds : Nat) → List Char → Option (List Node × List Char)
  | 0, _ => none
  | rounds + 1, cs =>
    match skipLines cs.length cs with
    | ']' :: rest => some ([], rest)
    | cs =>
      (readValue rounds cs).bind fun (n, rest) =>
        match skipLines rest.length rest with
        | ',' :: rest => (readItems rounds rest).map fun (items, rest) => (n :: items, rest)
        | ']' :: rest => some ([n], rest)
        | _ => none

def readMembers : (rounds : Nat) → List (String × Node) → List Char →
    Option (List (String × Node) × List Char)
  | 0, _, _ => none
  | rounds + 1, entries, cs =>
    (readKey cs.length cs).bind fun (key, rest) =>
      (readChar '=' rest).bind fun rest =>
        (readValue rounds (skipSpace rest)).bind fun (n, rest) =>
          (Node.addKey n key entries).bind fun entries =>
            match skipSpace rest with
            | ',' :: rest => readMembers rounds entries (skipSpace rest)
            | '\x7d' :: rest => some (entries, rest)
            | _ => none

end

/-! ## Files -/

/-- A header: whether it has double brackets, and its key. -/
abbrev Header := Bool × List String

/-- Reads a header behind its first bracket, to the end of the line. -/
def readHeader (cs : List Char) : Option (Header × List Char) :=
  let (double, cs) := match cs with
    | '[' :: rest => (true, rest)
    | cs => (false, cs)
  (readKey cs.length (skipSpace cs)).bind fun (key, rest) =>
    ((readChar ']' rest).bind fun rest => if double then readChar ']' rest else some rest).bind
      fun rest => (endLine rest).map fun rest => ((double, key), rest)

/-- Reads a key with its value, to the end of the line, and adds it. -/
def readPair (cs : List Char) (body : List (String × Node)) :
    Option (List (String × Node) × List Char) :=
  (readKey cs.length cs).bind fun (key, rest) =>
    (readChar '=' rest).bind fun rest =>
      (readValue (2 * rest.length + 2) (skipSpace rest)).bind fun (n, rest) =>
        (Node.addKey n key body).bind fun body => (endLine rest).map fun rest => (body, rest)

abbrev Section := Header × List (String × Node)

/-- Reads line by line, below the file's own entries or below a header. Gives the entries that the
file has of its own, and the sections in order. Every round reads at least one character. -/
def readLines (header : Option Header) (body : List (String × Node)) :
    (rounds : Nat) → List Char → Option (List (String × Node) × List Section)
  | 0, _ => none
  | rounds + 1, cs =>
    let close (sections : List Section) : List (String × Node) × List Section :=
      match header with
      | none => (body, sections)
      | some header => ([], (header, body) :: sections)
    match skipLines cs.length cs with
    | [] => some (close [])
    | '[' :: rest =>
      (readHeader rest).bind fun (next, rest) =>
        (readLines (some next) [] rounds rest).map fun (_, sections) => close sections
    | cs =>
      (readPair cs body).bind fun (body, rest) => readLines header body rounds rest

/-- What a file means. Where its own entries stand for a time, no section matters. -/
def fileValue (own : List (String × Node)) (sections : List Section) : Option Value :=
  if own.head?.any fun e => e.1 = Node.timeKey then (Node.line own).value?
  else
    (sections.foldlM (fun root s => Node.addSection s.1.1 s.2 s.1.2 root) own).bind fun root =>
      (Node.opened true root).value?

/-- Reads a file. A mark of the byte order may stand in front. -/
def read (text : String) : Option Value :=
  let cs := foldBreaks text.toList
  let cs := match cs with
    | '\uFEFF' :: rest => rest
    | cs => cs
  (readLines none [] (cs.length + 1) cs).bind fun (own, sections) => fileValue own sections

end Toml

end Admission
