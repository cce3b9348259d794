-- Reading keys and signatures from outside, and why that may fail.
import Admission.Crypto
import Admission.Text.Hex
import Admission.Text.Parts
import Admission.Text.Quoted

namespace Admission

/-- Why some bytes or some text is not the key or the signature it should be. -/
inductive KeyError where
  | hex (cause : Text.Hex.Error)
  /-- A secret of this many bytes. -/
  | secretLength (length : Nat)
  | publicKeyLength
  | notAPoint
  | signature
deriving DecidableEq

/-! ## The wording -/

/-- A digit that could not be read is shown as the character of its byte alone. -/
def Text.Hex.Error.message : Text.Hex.Error → String
  | .oddLength => "OddLength"
  | .notADigit byte index =>
    "InvalidHexCharacter \x7b c: " ++ Text.quotedChar (Char.ofNat byte.toNat) ++ ", index: " ++
      toString index ++ " \x7d"

/-- What went wrong in a key or signature, in the words of the signature scheme. -/
def schemeMessage (source : String) : String := "signature::Error \x7b source: " ++ source ++ " \x7d"

/-- The failure of a key as it is reported: what failed, with the cause as a text. -/
inductive KeyFailure where
  | hex (cause : String)
  /-- The signature scheme refused it. -/
  | scheme (cause : String)
  | secretLength (length : Nat)
deriving DecidableEq

/-- The kind of a failure and its text, in which the cause is quoted. -/
def KeyFailure.kindAndMessage : KeyFailure → String × String
  | .hex cause => ("Hex", "Hex(" ++ Text.quoted cause ++ ")")
  | .scheme cause => ("Dalek", "Dalek(" ++ Text.quoted cause ++ ")")
  | .secretLength length => ("InvalidKeyLength", "InvalidKeyLength(" ++ toString length ++ ")")

def KeyError.failure : KeyError → KeyFailure
  | .hex cause => .hex cause.message
  | .secretLength length => .secretLength length
  | .publicKeyLength => .scheme (schemeMessage "Some(PublicKey must be 32 bytes in length)")
  | .notAPoint => .scheme (schemeMessage "Some(Cannot decompress Edwards point)")
  | .signature => .scheme (schemeMessage "None")

/-! ## Reading -/

def utf8 (cs : List Char) : List UInt8 := cs.flatMap String.utf8EncodeChar

/-- Reads a secret from its hexadecimal writing, with white space around it allowed. -/
def Secret.ofText (text : String) : Except KeyError Secret :=
  match Text.Hex.decode (utf8 (Text.trim text.toList)) with
  | .error cause => .error (.hex cause)
  | .ok bytes =>
    match ByteString.ofList? 32 bytes with
    | none => .error (.secretLength bytes.length)
    | some secret => .ok secret

/-- Reads a signature: 64 bytes with the top three bits clear. -/
def Signature.ofBytes (bytes : List UInt8) : Except KeyError Signature :=
  match ByteString.ofList? 64 bytes with
  | none => .error .signature
  | some s => if Signature.wellFormed s then .ok s else .error .signature

variable [Crypto]

def Keypair.ofText (text : String) : Except KeyError Keypair :=
  (Secret.ofText text).map Keypair.ofSecret

/-- Reads a public key: 32 bytes that the scheme takes for one. -/
def PublicKey.ofBytes (bytes : List UInt8) : Except KeyError PublicKey :=
  match ByteString.ofList? 32 bytes with
  | none => .error .publicKeyLength
  | some key => if Crypto.isPublicKey key then .ok key else .error .notAPoint

end Admission
