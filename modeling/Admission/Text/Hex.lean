-- Bytes written as pairs of hexadecimal digits. They are written in lower case
-- and read in either case.

namespace Admission.Text.Hex

/-! ## Writing -/

def digit (n : Nat) : Char := if n < 10 then Char.ofNat (48 + n) else Char.ofNat (87 + n)

def encode (bytes : List UInt8) : List Char :=
  bytes.flatMap fun b => [digit (b.toNat / 16), digit (b.toNat % 16)]

def text (bytes : List UInt8) : String := String.ofList (encode bytes)

/-- The writing of the first eight bytes, which is enough to tell things apart at a glance. -/
def short (bytes : List UInt8) : String := text (bytes.take 8)

/-! ## Reading -/

/-- Why a text is no hexadecimal writing. -/
inductive Error where
  | oddLength
  /-- This byte, at this place among the bytes of the text, is no digit. -/
  | notADigit (byte : UInt8) (index : Nat)
deriving DecidableEq

/-- The value of a digit, given as a byte. -/
def value? (b : UInt8) : Option Nat :=
  let n := b.toNat
  if 48 ≤ n ∧ n ≤ 57 then some (n - 48)
  else if 97 ≤ n ∧ n ≤ 102 then some (n - 87)
  else if 65 ≤ n ∧ n ≤ 70 then some (n - 55)
  else none

def valueAt (b : UInt8) (index : Nat) : Except Error Nat :=
  match value? b with
  | some v => .ok v
  | none => .error (.notADigit b index)

/-- Reads pairs of digits, the first of them standing at `index`. -/
def decodePairs (index : Nat) : List UInt8 → Except Error (List UInt8)
  | [] => .ok []
  | [_] => .error .oddLength
  | a :: b :: rest => do
    let high ← valueAt a index
    let low ← valueAt b (index + 1)
    let bytes ← decodePairs (index + 2) rest
    return UInt8.ofNat (16 * high + low) :: bytes

/-- Reads the bytes that some bytes of text write. The length is looked at first. -/
def decode (text : List UInt8) : Except Error (List UInt8) :=
  if text.length % 2 = 1 then .error .oddLength else decodePairs 0 text

/-! ## Laws -/

theorem value?_digit : ∀ n < 16, value? (UInt8.ofNat (digit n).toNat) = some n := by decide

theorem digit_ascii : ∀ n < 16, String.utf8EncodeChar (digit n) = [UInt8.ofNat (digit n).toNat] := by
  decide

/-- The bytes of a hexadecimal writing. -/
theorem utf8_encode_cons (b : UInt8) (bytes : List UInt8) :
    (encode (b :: bytes)).flatMap String.utf8EncodeChar =
      UInt8.ofNat (digit (b.toNat / 16)).toNat :: UInt8.ofNat (digit (b.toNat % 16)).toNat ::
        (encode bytes).flatMap String.utf8EncodeChar := by
  have hb := b.toNat_lt
  have h1 := digit_ascii (b.toNat / 16) (by omega)
  have h2 := digit_ascii (b.toNat % 16) (by omega)
  simp [encode, h1, h2]

theorem decodePairs_encode (index : Nat) (bytes : List UInt8) :
    decodePairs index ((encode bytes).flatMap String.utf8EncodeChar) = .ok bytes := by
  induction bytes generalizing index with
  | nil => rfl
  | cons b rest ih =>
    have hb := b.toNat_lt
    have h1 := value?_digit (b.toNat / 16) (by omega)
    have h2 := value?_digit (b.toNat % 16) (by omega)
    have h3 : UInt8.ofNat (16 * (b.toNat / 16) + b.toNat % 16) = b := by
      rw [Nat.div_add_mod]
      exact UInt8.ofNat_toNat
    rw [utf8_encode_cons]
    simp only [decodePairs, valueAt, h1, h2, ih]
    simp only [bind, Except.bind, pure, Except.pure, h3]

end Admission.Text.Hex
