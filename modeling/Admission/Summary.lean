-- The summary of a transaction: what goes to the coordinator. Only its set of
-- attestations ever changes.
import Admission.Attestation

namespace Admission

/-- A transaction by its identifiers, with the attestations collected for it. -/
structure Summary where
  id : Hash
  inputs : List Hash
  outputs : List Hash
  attestations : AttestationSet
deriving DecidableEq, Inhabited

namespace Summary

def description (s : Summary) : String := Text.Hex.text s.id.toList

/-- Adds an attestation unless its key has one already. -/
def attest (s : Summary) (a : Attestation) : Summary :=
  { s with attestations := AttestationSet.insert s.attestations a }

@[simp] theorem id_attest (s : Summary) (a : Attestation) : (s.attest a).id = s.id := rfl

@[simp] theorem attestations_attest (s : Summary) (a : Attestation) :
    (s.attest a).attestations = AttestationSet.insert s.attestations a := rfl

/-- Whether an attestation would add to the set. -/
def lacks (s : Summary) (a : Attestation) : Bool := !s.attestations.contains a.publicKey

variable [Crypto]

/-- The summary of a transaction that nobody attested yet. -/
def ofTransaction (t : Transaction) : Summary := ⟨t.id, t.inputIds, t.outputIds, .empty⟩

/-- The attestation that a pair of keys gives for this transaction. -/
def sign (s : Summary) (pair : Keypair) : Attestation := .ofKeypair pair s.id

def verify (s : Summary) : Bool := AttestationSet.verify s.attestations s.id

end Summary

end Admission
