-- The values of TOML that stand on their own: texts, numbers and times.
import Admission.Settings.Value

namespace Admission

namespace Toml

/-! ## Characters -/

/-- The characters of bare keys and of numbers and times without their points and colons. -/
def isBare (c : Char) : Bool := c.isAlphanum || c = '_' || c = '-'

def isSpace (c : Char) : Bool := c = ' ' || c = '\t'

def skipSpace (cs : List Char) : List Char := cs.dropWhile isSpace

/-- The bare characters in front, if there are any, and the rest. -/
def readBare (cs : List Char) : Option (List Char × List Char) :=
  let bare := cs.takeWhile isBare
  if bare.isEmpty then none else some (bare, cs.drop bare.length)

def readChar (c : Char) : List Char → Option (List Char)
  | [] => none
  | d :: rest => if d = c then some rest else none

/-! ## Texts -/

/-- A character that texts hold as it is. -/
def isPlain (c : Char) : Bool := c = '\t' || (0x20 ≤ c.toNat && c.toNat ≠ 0x7F)

def hexValue? (c : Char) : Option Nat :=
  if c.isDigit then some (c.toNat - 48)
  else if 'a' ≤ c ∧ c ≤ 'f' then some (c.toNat - 87)
  else if 'A' ≤ c ∧ c ≤ 'F' then some (c.toNat - 55)
  else none

/-- The character whose number these hexadecimal digits write. -/
def charOf? (digits : List Char) : Option Char := do
  let n := (← digits.mapM hexValue?).foldl (fun n d => 16 * n + d) 0
  if n < 0xD800 ∨ (0xDFFF < n ∧ n < 0x110000) then some (Char.ofNat n) else none

/-- What stands for a character behind a backslash. -/
def escaped? : Char → Option Char
  | '"' => some '"'
  | '\\' => some '\\'
  | 'b' => some '\x08'
  | 'f' => some '\x0c'
  | 'n' => some '\n'
  | 'r' => some '\r'
  | 't' => some '\t'
  | _ => none

/-- Reads what stands behind a backslash: the characters that it means, and the rest. At the end
of a line it means nothing, and neither does the space that follows. -/
def readEscape (multiline : Bool) : List Char → Option (List Char × List Char)
  | [] => none
  | 'u' :: rest =>
    if rest.length < 4 then none else (charOf? (rest.take 4)).map fun c => ([c], rest.drop 4)
  | 'U' :: rest =>
    if rest.length < 8 then none else (charOf? (rest.take 8)).map fun c => ([c], rest.drop 8)
  | c :: rest =>
    if multiline && (isSpace c || c = '\n') then
      let line := if c = '\n' then some rest else
        match skipSpace rest with
        | [] => some []
        | '\n' :: rest => some rest
        | _ => none
      line.map fun rest => ([], rest.dropWhile fun c => isSpace c || c = '\n')
    else (escaped? c).map fun c => ([c], rest)

/-- Reads a text behind its opening quotes. A text of several lines ends at three quotes, and up to
two more in front of them belong to it. Every round reads at least one character. -/
def readTextUntil (quote : Char) (multiline : Bool) :
    (rounds : Nat) → List Char → Option (List Char × List Char)
  | 0, _ => none
  | _, [] => none
  | rounds + 1, c :: rest =>
    if c = quote then
      if !multiline then some ([], rest)
      else
        let quotes := 1 + (rest.takeWhile (· = quote)).length
        if 3 ≤ quotes then
          let kept := min (quotes - 3) 2
          some (List.replicate kept quote, rest.drop (kept + 2))
        else
          (readTextUntil quote multiline rounds rest).map fun (text, rest) => (quote :: text, rest)
    else if c = '\n' then
      if multiline then
        (readTextUntil quote multiline rounds rest).map fun (text, rest) => ('\n' :: text, rest)
      else none
    else if c = '\\' ∧ quote = '"' then
      (readEscape multiline rest).bind fun (cs, rest) =>
        (readTextUntil quote multiline rounds rest).map fun (text, rest) => (cs ++ text, rest)
    else if isPlain c then
      (readTextUntil quote multiline rounds rest).map fun (text, rest) => (c :: text, rest)
    else none

/-- Reads a text behind its first quote, and says whether it has the form for several lines, where
a line break at the front does not belong to it. -/
def readText (quote : Char) (cs : List Char) : Option (String × Bool × List Char) :=
  let text (multiline : Bool) (cs : List Char) : Option (String × Bool × List Char) :=
    (readTextUntil quote multiline cs.length cs).map fun (text, rest) =>
      (String.ofList text, multiline, rest)
  match (readChar quote cs).map fun rest => (rest, readChar quote rest) with
  | some (_, some rest) =>
    match rest with
    | '\n' :: rest => text true rest
    | rest => text true rest
  | some (rest, none) => some ("", false, rest)
  | none => text false cs

/-! ## Numbers -/

/-- Reads the digits in front of a word, with single underscores between them, and maybe a sign.
Gives the sign and the digits, and the rest of the word. -/
def splitDigits (radix : Nat) (sign zeros : Bool) (word : List Char) :
    Option (Bool × List Char × List Char) :=
  let (negative, word) := if sign then Binary64.splitSign word else (false, word)
  let isDigit (c : Char) : Bool := match hexValue? c with
    | some v => decide (v < radix)
    | none => false
  let rec take (rounds : Nat) (cs : List Char) : List Char × List Char :=
    match rounds, cs with
    | rounds + 1, '_' :: c :: rest =>
      if isDigit c then
        let (digits, rest) := take rounds rest
        (c :: digits, rest)
      else ([], '_' :: c :: rest)
    | rounds + 1, c :: rest =>
      if isDigit c then
        let (digits, rest) := take rounds rest
        (c :: digits, rest)
      else ([], c :: rest)
    | _, cs => ([], cs)
  let (digits, rest) := if word.head? == some '_' then ([], word) else take word.length word
  if digits.isEmpty || rest.head? == some '_' then none
  else if !zeros && digits.head? == some '0' && 1 < digits.length then none
  else some (negative, digits, rest)

/-- A whole number in the range of integers. -/
def integer? (radix : Nat) (sign zeros : Bool) (word : List Char) : Option Value :=
  match splitDigits radix sign zeros word with
  | some (negative, digits, []) =>
    let n : Int := digits.foldl (fun n c => radix * n + (hexValue? c).getD 0) 0
    let n := if negative then -n else n
    if Value.inIntegerRange n then some (.integer n) else none
  | _ => none

/-- Reads the exponent that a word ends in, or that continues behind it after a plus. Gives its
sign and digits, and what follows the word. -/
def readExponent : List Char → List Char → Option (Bool × List Char × List Char)
  | [], cs => some (false, ['0'], cs)
  | e :: word, cs =>
    if e ≠ 'e' ∧ e ≠ 'E' then none
    else if word.isEmpty then
      (readBare ((readChar '+' cs).getD cs)).bind fun (word, cs) =>
        match splitDigits 10 false true word with
        | some (_, digits, []) => some (false, digits, cs)
        | _ => none
    else
      match splitDigits 10 true true word with
      | some (negative, digits, []) => some (negative, digits, cs)
      | _ => none

def decimal? (negative : Bool) (whole fraction : List Char) (down : Bool) (exponent : List Char) :
    Option Value :=
  let e : Int := Binary64.ofDigits exponent
  let e := (if down then -e else e) - (fraction.length : Int)
  let x := Binary64.ofDecimal negative (Binary64.ofDigits (whole ++ fraction)) e
  if x.isInfinite then none else some (.decimal x)

/-- Reads a number that starts with a word. -/
def readNumber (word cs : List Char) : Option (Value × List Char) :=
  let float (fraction tail cs : List Char) (front : Bool × List Char) : Option (Value × List Char) :=
    (readExponent tail cs).bind fun (down, exponent, cs) =>
      (decimal? front.1 front.2 fraction down exponent).map fun v => (v, cs)
  match word with
  | '0' :: 'x' :: rest => (integer? 16 false true rest).map fun v => (v, cs)
  | '0' :: 'o' :: rest => (integer? 8 false true rest).map fun v => (v, cs)
  | '0' :: 'b' :: rest => (integer? 2 false true rest).map fun v => (v, cs)
  | word =>
    if word.contains 'e' || word.contains 'E' then
      (splitDigits 10 true false word).bind fun (negative, whole, tail) =>
        float [] tail cs (negative, whole)
    else
      match readChar '.' cs with
      | some rest =>
        match splitDigits 10 true false word, readBare rest with
        | some (negative, whole, []), some (after, cs) =>
          (splitDigits 10 false true after).bind fun (_, fraction, tail) =>
            float fraction tail cs (negative, whole)
        | _, _ => none
      | none =>
        match String.ofList word with
        | "inf" => some (.decimal (.infinite false), cs)
        | "-inf" => some (.decimal (.infinite true), cs)
        | "nan" => some (.decimal .notANumber, cs)
        | "-nan" => some (.decimal .notANumber, cs)
        | _ => (integer? 10 true false word).map fun v => (v, cs)

/-! ## Times -/

/-- The number that exactly these digits write. -/
def twoDigits? : List Char → Option (Nat × List Char)
  | a :: b :: rest =>
    if a.isDigit && b.isDigit then some (Binary64.ofDigits [a, b], rest) else none
  | _ => none

def padded (width n : Nat) : String :=
  let digits := Nat.toDigits 10 n
  String.ofList (List.replicate (width - digits.length) '0' ++ digits)

def readDate (cs : List Char) : Option (String × List Char) := do
  let (century, cs) ← twoDigits? cs
  let (year, cs) ← twoDigits? cs
  let (month, cs) ← twoDigits? (← readChar '-' cs)
  let (day, cs) ← twoDigits? (← readChar '-' cs)
  if 1 ≤ month ∧ month ≤ 12 ∧ 1 ≤ day ∧ day ≤ 31 then
    some (padded 2 century ++ padded 2 year ++ "-" ++ padded 2 month ++ "-" ++ padded 2 day, cs)
  else none

/-- Reads a fraction of a second, of which nine digits count, and gives its text. -/
def readFraction (cs : List Char) : Option (String × List Char) :=
  match readChar '.' cs with
  | none => some ("", cs)
  | some cs =>
    let digits := cs.takeWhile Char.isDigit
    let kept := ((digits.take 9).reverse.dropWhile (· = '0')).reverse
    if digits.isEmpty then none
    else some (if kept.isEmpty then "" else String.ofList ('.' :: kept), cs.drop digits.length)

def readClock (cs : List Char) : Option (String × List Char) := do
  let (hour, cs) ← twoDigits? cs
  let (minute, cs) ← twoDigits? (← readChar ':' cs)
  let (second, cs) ← twoDigits? (← readChar ':' cs)
  let (fraction, cs) ← readFraction cs
  if hour ≤ 24 ∧ minute ≤ 59 ∧ second ≤ 59 then
    some (padded 2 hour ++ ":" ++ padded 2 minute ++ ":" ++ padded 2 second ++ fraction, cs)
  else none

/-- Reads a distance from universal time, and gives its text. -/
def readOffset : List Char → Option (String × List Char)
  | [] => some ("", [])
  | c :: cs =>
    if c = 'Z' ∨ c = 'z' then some ("Z", cs)
    else if c = '+' ∨ c = '-' then do
      let (hours, cs) ← twoDigits? cs
      let (minutes, cs) ← twoDigits? (← readChar ':' cs)
      let sign := if c = '-' ∧ hours ≠ 0 then "-" else "+"
      some (sign ++ padded 2 hours ++ ":" ++ padded 2 minutes, cs)
    else none

/-- The text of a date, of a time, or of a date with a time and maybe an offset. -/
def timeText? (cs : List Char) : Option String := do
  let (text, rest) ←
    if cs[2]? == some ':' then readClock cs
    else do
      let (date, rest) ← readDate cs
      match rest with
      | c :: rest =>
        if c = 'T' ∨ c = 't' ∨ c = ' ' then
          let (clock, rest) ← readClock rest
          let (offset, rest) ← readOffset rest
          some (date ++ "T" ++ clock ++ offset, rest)
        else some (date, c :: rest)
      | [] => some (date, [])
  if rest.isEmpty then some text else none

/-- The rest behind a colon and a word. -/
def skipPart (mark : Char) (cs : List Char) : Option (List Char) :=
  (readChar mark cs).bind fun cs => (readBare cs).map (·.2)

/-- The rest behind the same, where it may be left out. -/
def skipOptionalPart (mark : Char) (cs : List Char) : Option (List Char) :=
  if (readChar mark cs).isSome then skipPart mark cs else some cs

/-- Reads what has the outline of a time and starts with a word. Whether it is one is left open. -/
def readTime (word cs : List Char) : Option (List Char × List Char) := do
  let behindHour := match cs with
    | ' ' :: rest => match readBare rest with
      | some (_, rest) => rest
      | none => cs
    | cs => cs
  let rest ←
    if (readChar ':' behindHour).isSome then do
      let rest ← skipPart ':' behindHour
      let rest ← skipPart ':' rest
      let rest ← skipOptionalPart '.' rest
      let rest ← skipOptionalPart '+' rest
      skipOptionalPart ':' rest
    else some behindHour
  return (word ++ cs.take (cs.length - rest.length), rest)

/-- Whether a word can only be the front of a time. -/
def startsTime (word : List Char) : Bool :=
  let hasPair (a b : Char) : Bool := (word.zip word.tail).contains (a, b)
  word.contains 'T' || word.contains 't' ||
    (word.tail.contains '-' && !hasPair 'e' '-' && !hasPair 'E' '-')

/-- A value that holds no others and stands without quotes. -/
inductive Bare where
  | plain (v : Value)
  /-- Something that has the outline of a time. -/
  | time (cs : List Char)

namespace Bare

/-- The value that is meant; none if a time is none. -/
def value? : Bare → Option Value
  | plain v => some v
  | time cs => (timeText? cs).map .text

end Bare

/-- Reads a value that starts with a word. -/
def readWord (word cs : List Char) : Option (Bare × List Char) :=
  let number := (readNumber word cs).map fun (v, rest) => (Bare.plain v, rest)
  match String.ofList word with
  | "true" => some (.plain (.truth true), cs)
  | "false" => some (.plain (.truth false), cs)
  | "inf" => number
  | "nan" => number
  | _ =>
    if !(word.head?.any fun c => c.isDigit || c = '-') then none
    else if startsTime word || (readChar ':' cs).isSome then
      (readTime word cs).map fun (time, rest) => (.time time, rest)
    else number

end Toml

end Admission
