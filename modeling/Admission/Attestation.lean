-- Attestations, and sets of them with at most one for each key. The first
-- attestation under a key stays, and the set lists them in the order of the keys.
import Admission.Table
import Admission.Transaction

namespace Admission

/-- A sentinel's signature over the identifier of a transaction that it found valid. -/
structure Attestation where
  publicKey : PublicKey
  signature : Signature
deriving DecidableEq

namespace Attestation

/-- An attestation is shown as its key. -/
def description (a : Attestation) : String := Text.Hex.text a.publicKey.toList

variable [Crypto]

/-- The attestation that a pair of keys gives for the transaction with this identifier. -/
def ofKeypair (pair : Keypair) (transaction : Hash) : Attestation :=
  ⟨pair.publicKey, pair.sign transaction.toList⟩

def verify (a : Attestation) (transaction : Hash) : Bool :=
  Crypto.verify a.publicKey transaction.toList a.signature

end Attestation

/-! ## Sets of attestations -/

/-- Attestations, each stored under a key. Whoever builds a set with `insert` alone stores
each under its own key; a set that was read from elsewhere need not. -/
abbrev AttestationSet := Table Attestation

namespace AttestationSet

/-- Adds an attestation unless its key has one already. -/
def insert (s : AttestationSet) (a : Attestation) : AttestationSet :=
  if s.contains a.publicKey then s else s.put a.publicKey a

/-- Whether every attestation of the set is a signature over this identifier. -/
def verify [Crypto] (s : AttestationSet) (transaction : Hash) : Bool :=
  s.toList.all (·.verify transaction)

theorem insert_of_mem (s : AttestationSet) (a : Attestation) (h : a.publicKey ∈ s.keys) :
    insert s a = s := by
  simp [insert, h]

/-- An attestation under a new key comes to the others. -/
theorem entries_insert_perm (s : AttestationSet) (a : Attestation) (h : a.publicKey ∉ s.keys) :
    (insert s a).entries.Perm ((a.publicKey, a) :: s.entries) := by
  simpa [insert, h] using s.entries_put_perm a.publicKey a h

theorem size_insert (s : AttestationSet) (a : Attestation) :
    (insert s a).size = if a.publicKey ∈ s.keys then s.size else s.size + 1 := by
  split
  · rename_i h
    rw [insert_of_mem s a h]
  · rename_i h
    simpa [Table.size] using (entries_insert_perm s a h).length_eq

/-- What is there stays. -/
theorem mem_entries_insert_of_mem (s : AttestationSet) (a : Attestation) (e : Hash × Attestation)
    (h : e ∈ s.entries) : e ∈ (insert s a).entries := by
  by_cases hkey : a.publicKey ∈ s.keys
  · rw [insert_of_mem s a hkey]
    exact h
  · exact (entries_insert_perm s a hkey).mem_iff.2 (List.mem_cons_of_mem _ h)

/-- Nothing comes but the attestation, under its own key. -/
theorem mem_entries_insert (s : AttestationSet) (a : Attestation) (e : Hash × Attestation)
    (h : e ∈ (insert s a).entries) : e ∈ s.entries ∨ e = (a.publicKey, a) := by
  by_cases hkey : a.publicKey ∈ s.keys
  · rw [insert_of_mem s a hkey] at h
    exact Or.inl h
  · rcases List.mem_cons.1 ((entries_insert_perm s a hkey).mem_iff.1 h) with h | h
    · exact Or.inr h
    · exact Or.inl h

end AttestationSet

end Admission
