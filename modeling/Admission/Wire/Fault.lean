-- What can be wrong with a stream of messages, and how it is told.
import Admission.Format

namespace Admission

/-- What a reader says of a key or a signature. -/
def KeyError.reason : KeyError → String
  | .publicKeyLength => "signature error: PublicKey must be 32 bytes in length"
  | .notAPoint => "signature error: Cannot decompress Edwards point"
  | _ => "signature error"

def ReadError.message : ReadError → String
  | .endOfInput => "io error: unexpected end of file"
  | .leftOver => "Slice had bytes remaining after deserialization"
  | .unknownVariant number count =>
    "invalid value: integer `" ++ toString number ++ "`, expected variant index 0 <= i < " ++
      toString count
  | .largeVariant number =>
    "Invalid u32 " ++ toString number ++ ": you may have a version disagreement?"
  | .presence byte => "tag for enum is not valid, found " ++ toString byte.toNat
  | .truth byte =>
    "invalid u8 while decoding bool, expected 0 or 1, found " ++ toString byte.toNat
  | .wideNumber =>
    "Invalid value (u128 range): you may have a version or configuration disagreement?"
  | .reserved =>
    "\nByte 255 is treated as an extension point; it should not be encoding anything.\n" ++
      "Do you have a mismatched bincode version or configuration?\n"
  | .key cause => cause.reason
  | .time => "time out of range"

/-- Why no more messages are read from a stream. -/
inductive StreamFault where
  | tooLong
  | cutOff
  | payload (cause : ReadError)
deriving DecidableEq

def StreamFault.message : StreamFault → String
  | tooLong => "frame size too big"
  | cutOff => "bytes remaining on stream"
  | payload cause => cause.message

end Admission
