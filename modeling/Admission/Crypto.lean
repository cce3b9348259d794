-- The hash and the signatures that a fleet of sentinels agrees on. Everything
-- above this module holds for any such choice; the standard one is in
-- Admission.Crypto.Standard.
import Admission.ByteString

namespace Admission

abbrev Secret := ByteString 32

abbrev PublicKey := ByteString 32

abbrev Signature := ByteString 64

/-- A hash, and a signature scheme over strings of bytes. -/
class Crypto where
  hash : List UInt8 → Hash
  publicKey : Secret → PublicKey
  /-- A signature, made with a secret and its public key. -/
  sign : Secret → PublicKey → List UInt8 → Signature
  verify : PublicKey → List UInt8 → Signature → Bool
  /-- Which strings are public keys. -/
  isPublicKey : PublicKey → Bool

/-- The top three bits of the last byte of a signature are clear. Any other string of 64
bytes is not read as one. -/
def Signature.wellFormed (s : Signature) : Bool :=
  (s.toList.getLast?.getD 0).toNat < 32

/-- What is expected of the verifying side: a signature is only ever accepted if it can be read
back, under a key that can be. -/
class StrictCrypto [Crypto] : Prop where
  of_verify : ∀ {key message signature}, Crypto.verify key message signature = true →
    Crypto.isPublicKey key = true ∧ Signature.wellFormed signature = true

variable [Crypto]

structure Keypair where
  secret : Secret
  publicKey : PublicKey
  agree : publicKey = Crypto.publicKey secret

def Keypair.ofSecret (secret : Secret) : Keypair := ⟨secret, Crypto.publicKey secret, rfl⟩

def Keypair.sign (pair : Keypair) (message : List UInt8) : Signature :=
  Crypto.sign pair.secret pair.publicKey message

end Admission
