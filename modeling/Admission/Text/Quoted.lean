-- Quoted texts, as they stand in error messages: a quote, a backslash and what
-- cannot be shown are escaped. Inside double quotes a single quote stays, and
-- the other way round.
import Admission.Text.Shown

namespace Admission.Text

/-- The digits of a number in hexadecimal, lower case, with no leading zeros. -/
def hexNumber (n : Nat) : List Char := Nat.toDigits 16 n

/-- What stands for one character between the given quotes. -/
def escape (quote c : Char) : List Char :=
  if c = '\x00' then ['\\', '0']
  else if c = '\t' then ['\\', 't']
  else if c = '\r' then ['\\', 'r']
  else if c = '\n' then ['\\', 'n']
  else if c = '\\' ∨ c = quote then ['\\', c]
  else if isShown c then [c]
  else ['\\', 'u', '\x7b'] ++ hexNumber c.toNat ++ ['\x7d']

def quoted (s : String) : String :=
  String.ofList ('"' :: s.toList.flatMap (escape '"') ++ ['"'])

def quotedChar (c : Char) : String :=
  String.ofList ('\'' :: escape '\'' c ++ ['\''])

end Admission.Text
