-- Transactions that one pair of keys signs. A signature for each input opens every
-- lock of its key, so what is left to ask is asked of the inputs and outputs alone.
import Admission.Proofs.HealthyFleet
import Admission.Proofs.Rules
import Mathlib.Order.Lattice.Nat

namespace Admission

/-! ## Inputs and outputs -/

/-- What is asked of inputs and outputs before anybody looks at the witnesses. -/
structure Balanced (inputs : List Input) (outputs : List Output) : Prop where
  someInputs : inputs ≠ []
  someOutputs : outputs ≠ []
  different : inputs.Pairwise fun a b => a.outpoint ≠ b.outpoint
  positive : ∀ o ∈ outputs, 0 < o.value
  bounded : (inputs.map (·.spent.value.toNat)).sum < amountLimit
  equal : (inputs.map (·.spent.value.toNat)).sum = (outputs.map (·.value.toNat)).sum

namespace Transaction

variable [Crypto] {t : Transaction}

/-- The rules in front of the last one ask for a witness for each input, and nothing else of the
witnesses. -/
theorem keepsBefore_unlocked_iff :
    t.KeepsBefore .unlocked ↔
      t.witnesses.length = t.inputs.length ∧ Balanced t.inputs t.outputs := by
  constructor
  · intro h
    have hsums : t.inputSum < amountLimit ∧ t.outputSum < amountLimit := h .boundedSums (by decide)
    exact ⟨h .witnessForEach (by decide), h .someInputs (by decide), h .someOutputs (by decide),
      h .noRepeatedInput (by decide), h .noZeroOutput (by decide), hsums.1,
      h .equalSums (by decide)⟩
  · rintro ⟨hcount, hbalanced⟩ earlier hearlier
    cases earlier with
    | someInputs => exact hbalanced.someInputs
    | someOutputs => exact hbalanced.someOutputs
    | witnessForEach => exact hcount
    | noRepeatedInput => exact hbalanced.different
    | noZeroOutput => exact hbalanced.positive
    | boundedSums =>
      refine ⟨hbalanced.bounded, ?_⟩
      unfold outputSum
      rw [← hbalanced.equal]
      exact hbalanced.bounded
    | equalSums => exact hbalanced.equal
    | unlocked => exact absurd hearlier (Nat.lt_irrefl _)

end Transaction

/-! ## What a pair of keys signs -/

section
variable [Crypto] (inputs : List Input) (outputs : List Output) (pair : Keypair)

/-- The key of the pair is not the one that the input at this position is locked to. -/
def ForeignAt (index : Nat) : Prop :=
  ∃ i, inputs[index]? = some i ∧ i.spent.lock ≠ pair.publicKey.lock

/-- What the pair signs for these inputs and outputs verifies under its public key. -/
def SignatureVerifies : Prop :=
  Crypto.verify pair.publicKey (Transaction.signed inputs outputs pair).id.toList
    (pair.sign (Transaction.signed inputs outputs pair).id.toList) = true

variable {inputs outputs pair} {index : Nat}

namespace Transaction

/-- The witnesses of a transaction do not change its identifier. -/
theorem id_eq_of_entries {t u : Transaction} (hinputs : t.inputs = u.inputs)
    (houtputs : t.outputs = u.outputs) : t.id = u.id := by
  unfold Transaction.id preimage
  rw [hinputs, houtputs]

/-- What is signed is the identifier of the transaction, which its witnesses do not change. -/
theorem witnesses_signed :
    (signed inputs outputs pair).witnesses =
      inputs.map fun _ => Witness.ofKeypair pair (signed inputs outputs pair).id := rfl

theorem length_witnesses_signed :
    (signed inputs outputs pair).witnesses.length = (signed inputs outputs pair).inputs.length :=
  List.length_map _

theorem getElem?_witnesses_signed {w : Witness} :
    (signed inputs outputs pair).witnesses[index]? = some w ↔
      index < inputs.length ∧ w = .ofKeypair pair (signed inputs outputs pair).id := by
  rw [witnesses_signed, List.getElem?_map, Option.map_eq_some_iff]
  constructor
  · rintro ⟨i, hi, rfl⟩
    exact ⟨(List.getElem?_eq_some_iff.1 hi).1, rfl⟩
  · rintro ⟨hlt, rfl⟩
    exact ⟨inputs[index], List.getElem?_eq_getElem hlt, rfl⟩

theorem mismatchAt_signed_iff :
    (signed inputs outputs pair).MismatchAt index ↔ ForeignAt inputs pair index := by
  constructor
  · rintro ⟨i, w, hi, hw, hlock⟩
    obtain ⟨_, rfl⟩ := getElem?_witnesses_signed.1 hw
    exact ⟨i, hi, hlock.symm⟩
  · rintro ⟨i, hi, hlock⟩
    have hlt := (List.getElem?_eq_some_iff.1 hi).1
    exact ⟨i, _, hi, getElem?_witnesses_signed.2 ⟨hlt, rfl⟩, hlock.symm⟩

theorem unlocks_signed (hverify : SignatureVerifies inputs outputs pair) (o : Output) :
    (Witness.ofKeypair pair (signed inputs outputs pair).id).unlocks o
      (signed inputs outputs pair).id = decide (pair.publicKey.lock = o.lock) := by
  unfold Witness.unlocks Witness.verify
  rw [Witness.ofKeypair, hverify, Bool.and_true]

/-- Where the signature verifies, only the lock of another key stays closed. -/
theorem lockedAt_signed_iff (hverify : SignatureVerifies inputs outputs pair) :
    (signed inputs outputs pair).LockedAt index ↔ ForeignAt inputs pair index := by
  constructor
  · rintro ⟨i, w, hi, hw, hclosed⟩
    obtain ⟨_, rfl⟩ := getElem?_witnesses_signed.1 hw
    rw [unlocks_signed hverify, decide_eq_false_iff_not] at hclosed
    exact ⟨i, hi, Ne.symm hclosed⟩
  · rintro ⟨i, hi, hlock⟩
    have hlt := (List.getElem?_eq_some_iff.1 hi).1
    refine ⟨i, _, hi, getElem?_witnesses_signed.2 ⟨hlt, rfl⟩, ?_⟩
    rw [unlocks_signed hverify, decide_eq_false_iff_not]
    exact Ne.symm hlock

theorem keepsBefore_unlocked_signed_iff :
    (signed inputs outputs pair).KeepsBefore .unlocked ↔ Balanced inputs outputs :=
  keepsBefore_unlocked_iff.trans (and_iff_right length_witnesses_signed)

/-! ## What is told of a signed transaction -/

theorem violation_signed_ne_missingWitness (asked given : Nat) :
    (signed inputs outputs pair).violation ≠ some (.missingWitness asked given) := by
  intro h
  obtain ⟨⟨rfl, rfl, hdiffer⟩, _⟩ := violation_eq_some_iff.1 h
  exact hdiffer length_witnesses_signed

theorem violation_signed_ne_invalidWitnessSignature
    (hverify : SignatureVerifies inputs outputs pair) (index : Nat) :
    (signed inputs outputs pair).violation ≠ some (.invalidWitnessSignature index) := by
  intro h
  obtain ⟨⟨hleast, hmatch⟩, _⟩ := violation_eq_some_iff.1 h
  exact hmatch (mismatchAt_signed_iff.2 ((lockedAt_signed_iff hverify).1 hleast.1))

/-- If it finds the inputs and outputs balanced, a check of a signed transaction ends at the first
lock of another key. -/
theorem violation_signed_eq_mismatch_iff (hverify : SignatureVerifies inputs outputs pair) :
    (signed inputs outputs pair).violation = some (.witnessLockMismatch index) ↔
      IsLeast {k | ForeignAt inputs pair k} index ∧ Balanced inputs outputs := by
  rw [violation_eq_some_iff]
  refine and_congr ?_ keepsBefore_unlocked_signed_iff
  show IsLeast {k | (signed inputs outputs pair).LockedAt k} index ∧
    (signed inputs outputs pair).MismatchAt index ↔ _
  simp only [lockedAt_signed_iff hverify, mismatchAt_signed_iff]
  exact and_iff_left_of_imp fun hleast => hleast.1

theorem violation_signed_eq_none_iff (hverify : SignatureVerifies inputs outputs pair)
    (hown : ∀ i ∈ inputs, i.spent.lock = pair.publicKey.lock) :
    (signed inputs outputs pair).violation = none ↔ Balanced inputs outputs := by
  rw [violation_eq_none_iff]
  refine Iff.trans ⟨fun h earlier _ => h earlier, fun h => h.all ?_⟩
    keepsBefore_unlocked_signed_iff
  intro index i w hi hw
  obtain ⟨_, rfl⟩ := getElem?_witnesses_signed.1 hw
  rw [unlocks_signed hverify, decide_eq_true_iff]
  exact (hown i (List.mem_of_getElem? hi)).symm

end Transaction

/-- Whoever holds the key of all inputs can sign for them. If the signature verifies, no signed
transaction is refused for the number of its witnesses or for a signature. Where all inputs are
locked to the key, none is refused for a witness at all, and it is valid if the inputs and outputs
are balanced, and only then. Where one is locked to another key and the inputs and outputs are
balanced, the first such input is told. -/
theorem a_signature_opens_every_lock_of_its_key
    (hverify : SignatureVerifies inputs outputs pair) :
    (∀ asked given, (Transaction.signed inputs outputs pair).violation ≠
        some (.missingWitness asked given)) ∧
    (∀ index, (Transaction.signed inputs outputs pair).violation ≠
        some (.invalidWitnessSignature index)) ∧
    ((∀ i ∈ inputs, i.spent.lock = pair.publicKey.lock) →
      (∀ index, (Transaction.signed inputs outputs pair).violation ≠
        some (.witnessLockMismatch index)) ∧
      ((Transaction.signed inputs outputs pair).violation = none ↔ Balanced inputs outputs)) ∧
    ((∃ i ∈ inputs, i.spent.lock ≠ pair.publicKey.lock) → Balanced inputs outputs →
      ∃ index, IsLeast {k | ForeignAt inputs pair k} index ∧
        (Transaction.signed inputs outputs pair).violation = some (.witnessLockMismatch index)) := by
  refine ⟨Transaction.violation_signed_ne_missingWitness,
    Transaction.violation_signed_ne_invalidWitnessSignature hverify, ?_, ?_⟩
  · intro hown
    refine ⟨fun index h => ?_, Transaction.violation_signed_eq_none_iff hverify hown⟩
    obtain ⟨⟨⟨i, hi, hforeign⟩, _⟩, _⟩ :=
      (Transaction.violation_signed_eq_mismatch_iff hverify).1 h
    exact hforeign (hown i (List.mem_of_getElem? hi))
  · rintro ⟨i, hi, hforeign⟩ hbalanced
    obtain ⟨k, hk⟩ := List.mem_iff_getElem?.1 hi
    have hleast := isLeast_csInf (s := {k | ForeignAt inputs pair k}) ⟨k, i, hk, hforeign⟩
    exact ⟨_, hleast, (Transaction.violation_signed_eq_mismatch_iff hverify).2 ⟨hleast, hbalanced⟩⟩

end

namespace Sample

attribute [local instance] standardCrypto

theorem balanced_transaction : Balanced transaction.inputs transaction.outputs := by
  have hkept := Transaction.violation_eq_none_iff.1 violation_transaction
  exact (Transaction.keepsBefore_unlocked_iff.1 fun earlier _ => hkept earlier).2

theorem id_signed (signer : Keypair) :
    (Transaction.signed transaction.inputs transaction.outputs signer).id = id :=
  (Transaction.id_eq_of_entries rfl rfl).trans id_transaction

/-- The pair that signed the sample. -/
theorem verifies_pair : SignatureVerifies transaction.inputs transaction.outputs pair := by
  have hsign : pair.sign id.toList = signature := congrArg (·.signature) ofKeypair_pair
  unfold SignatureVerifies
  rw [id_signed, hsign]
  exact verify_signature

theorem verifies_peerPair : SignatureVerifies transaction.inputs transaction.outputs peerPair := by
  have hsign : peerPair.sign id.toList = peerSignature := congrArg (·.signature) ofKeypair_peerPair
  unfold SignatureVerifies
  rw [id_signed, hsign]
  exact verify_peerSignature

theorem own_inputs : ∀ i ∈ transaction.inputs, i.spent.lock = pair.publicKey.lock := by
  have hlock : pair.publicKey.lock = lock := lock_key
  simp [transaction, hlock]

theorem foreignAt_zero : ForeignAt transaction.inputs peerPair 0 := by
  refine ⟨_, rfl, ?_⟩
  decide +kernel

/-- The owner can sign for the entry. Of somebody else's pair the signature verifies too, and the
entry stays closed. -/
theorem only_the_owner_opens_the_lock :
    SignatureVerifies transaction.inputs transaction.outputs pair ∧
    (∀ i ∈ transaction.inputs, i.spent.lock = pair.publicKey.lock) ∧
    Balanced transaction.inputs transaction.outputs ∧
    (Transaction.signed transaction.inputs transaction.outputs pair).violation = none ∧
    SignatureVerifies transaction.inputs transaction.outputs peerPair ∧
    (∃ i ∈ transaction.inputs, i.spent.lock ≠ peerPair.publicKey.lock) ∧
    (Transaction.signed transaction.inputs transaction.outputs peerPair).violation =
      some (.witnessLockMismatch 0) := by
  obtain ⟨_, _, howner, _⟩ := a_signature_opens_every_lock_of_its_key verifies_pair
  obtain ⟨_, _, _, hforeign⟩ := a_signature_opens_every_lock_of_its_key verifies_peerPair
  have hsome : ∃ i ∈ transaction.inputs, i.spent.lock ≠ peerPair.publicKey.lock := by
    obtain ⟨i, hi, hlock⟩ := foreignAt_zero
    exact ⟨i, List.mem_of_getElem? hi, hlock⟩
  obtain ⟨index, hleast, hviolation⟩ := hforeign hsome balanced_transaction
  obtain rfl : index = 0 := Nat.le_zero.1 (hleast.2 foreignAt_zero)
  exact ⟨verifies_pair, own_inputs, balanced_transaction,
    (howner own_inputs).2.2 balanced_transaction, verifies_peerPair, hsome, hviolation⟩

end Sample

end Admission
