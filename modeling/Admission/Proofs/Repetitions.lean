-- What the summary of a transaction lists. A valid transaction consumes no entry
-- twice and produces no entry twice, also where its outputs are all alike.
import Admission.Proofs.Identifiers
import Admission.Proofs.Peers
import Admission.Proofs.Rules
import Mathlib.Algebra.BigOperators.Group.List.Basic

namespace Admission

/-! ## Strings of entries -/

section
variable [Crypto]

/-- The hash tells all these strings apart. -/
def CollisionFree (strings : List (List UInt8)) : Prop :=
  ∀ a ∈ strings, ∀ b ∈ strings, ¬ Collide a b

theorem CollisionFree.hash_eq_iff {strings : List (List UInt8)} (h : CollisionFree strings)
    {a b : List UInt8} (ha : a ∈ strings) (hb : b ∈ strings) :
    Crypto.hash a = Crypto.hash b ↔ a = b :=
  Admission.hash_eq_iff (h a ha b hb)

/-- Strings with different hashes do not collide. -/
theorem collisionFree_of_nodup {strings : List (List UInt8)}
    (h : (strings.map Crypto.hash).Nodup) : CollisionFree strings := by
  intro a ha b hb hcollide
  exact hcollide.1 (List.inj_on_of_nodup_map h ha hb hcollide.2)

namespace Transaction

/-- What is hashed for the entries that a transaction consumes and for those that it produces. -/
def entryPreimages (t : Transaction) : List (List UInt8) :=
  t.inputs.map Input.preimage ++ t.outputs.mapIdx fun index o => o.preimage t.id index

variable {t : Transaction}

theorem input_mem_entryPreimages {i : Input} (h : i ∈ t.inputs) :
    i.preimage ∈ t.entryPreimages :=
  List.mem_append_left _ (List.mem_map_of_mem h)

theorem output_mem_entryPreimages {index : Nat} (h : index < t.outputs.length) :
    t.outputs[index].preimage t.id index ∈ t.entryPreimages :=
  List.mem_append_right _ (List.mem_mapIdx.2 ⟨index, h, rfl⟩)

end Transaction

end

/-- The position of an output can be read back from what is hashed for it. -/
theorem Output.index_eq_of_preimage_eq {a b : Output} {transaction : Hash} {i j : Nat}
    (hi : i < UInt64.size) (hj : j < UInt64.size)
    (h : a.preimage transaction i = b.preimage transaction j) : i = j := by
  have hlimit : bytesLimit 8 = UInt64.size := rfl
  obtain ⟨hplace, _⟩ := List.append_inj h (by simp)
  obtain ⟨_, hindex⟩ := List.append_inj hplace (by simp)
  exact (bigEndian_inj (hlimit ▸ hi) (hlimit ▸ hj)).1 hindex

/-! ## Valid transactions -/

namespace Transaction

/-- Each output that is worth something adds at least one to what all are worth. -/
theorem length_outputs_le {t : Transaction} (h : ∀ o ∈ t.outputs, 0 < o.value) :
    t.outputs.length ≤ t.outputSum := by
  unfold outputSum
  rw [← List.length_map (fun o : Output => o.value.toNat)]
  apply List.length_le_sum_of_one_le
  intro amount hamount
  obtain ⟨o, ho, rfl⟩ := List.mem_map.1 hamount
  exact UInt64.lt_iff_toNat_lt.1 (h o ho)

variable [Crypto] {t : Transaction}

/-- The positions of the outputs fit the 64 bits that they are written in. -/
theorem length_outputs_lt_of_valid (h : t.violation = none) : t.outputs.length < UInt64.size := by
  have hkept := violation_eq_none_iff.1 h
  have hpositive : ∀ o ∈ t.outputs, 0 < o.value := hkept .noZeroOutput
  have hbounded : t.outputSum < amountLimit := (hkept .boundedSums).2
  exact Nat.lt_of_le_of_lt (length_outputs_le hpositive) hbounded

theorem nodup_inputIds (hkept : Rule.noRepeatedInput.KeptBy t)
    (hclear : CollisionFree t.entryPreimages) : t.inputIds.Nodup := by
  unfold inputIds List.Nodup
  rw [List.pairwise_map]
  refine List.Pairwise.imp_of_mem ?_ hkept
  intro i j hi hj hdiffer hsame
  have hpreimage := (hclear.hash_eq_iff (input_mem_entryPreimages hi)
    (input_mem_entryPreimages hj)).1 hsame
  exact hdiffer (congrArg Input.outpoint (Input.preimage_inj hpreimage))

theorem nodup_outputIds (hlength : t.outputs.length < UInt64.size)
    (hclear : CollisionFree t.entryPreimages) : t.outputIds.Nodup := by
  unfold List.Nodup
  rw [List.pairwise_iff_getElem]
  intro i j hi hj hij hsame
  have hcount : t.outputIds.length = t.outputs.length := List.length_mapIdx
  rw [hcount] at hi hj
  -- At each of the two positions stands the hash of a string that holds the position.
  have hi' := t.getElem?_outputIds i hi
  have hj' := t.getElem?_outputIds j hj
  rw [List.getElem?_eq_some_iff] at hi' hj'
  obtain ⟨_, hi'⟩ := hi'
  obtain ⟨_, hj'⟩ := hj'
  rw [hi', hj', hclear.hash_eq_iff (output_mem_entryPreimages hi) (output_mem_entryPreimages hj)]
    at hsame
  have heq :=
    Output.index_eq_of_preimage_eq (Nat.lt_trans hi hlength) (Nat.lt_trans hj hlength) hsame
  exact absurd heq (Nat.ne_of_lt hij)

/-- Where an input repeats the outpoint of an earlier one the transaction is refused, and that is
the violation unless a rule in front is broken. -/
theorem exists_violation_of_repeatsAt {index : Nat} (h : t.RepeatsAt index) :
    ∃ v, t.violation = some v ∧
      (t.KeepsBefore .noRepeatedInput → ∃ first ≤ index, v = .duplicateInput first) := by
  have hbroken := h.not_kept
  have hrefused : t.violation ≠ none := fun hnone => hbroken (violation_eq_none_iff.1 hnone _)
  obtain ⟨v, hv⟩ := Option.ne_none_iff_exists'.1 hrefused
  refine ⟨v, hv, fun hbefore => ?_⟩
  obtain ⟨hholds, hfirst⟩ := violation_eq_some_iff.1 hv
  have hrule : v.rule = .noRepeatedInput :=
    FirstBroken.unique (fun _ _ => Rule.position_injective) ⟨hholds.broken, hfirst⟩
      ⟨hbroken, hbefore⟩
  cases v <;> simp only [Violation.rule, reduceCtorEq] at hrule
  case duplicateInput first => exact ⟨first, hholds.2 h, rfl⟩

end Transaction

section
variable [Crypto]

/-- The summary of a valid transaction lists one identifier for each input and one for each output,
and none of them twice, be the outputs alike or not, unless the hash collides on what is hashed for
them. Whoever names one outpoint in two inputs is refused. So is who states the entry in two ways,
although the two inputs then have different identifiers. -/
theorem a_valid_transaction_lists_no_entry_twice (t : Transaction)
    (hclear : CollisionFree t.entryPreimages) :
    (t.violation = none →
      (Summary.ofTransaction t).inputs.length = t.inputs.length ∧
        (Summary.ofTransaction t).inputs.Nodup ∧
        (Summary.ofTransaction t).outputs.length = t.outputs.length ∧
        (Summary.ofTransaction t).outputs.Nodup) ∧
    ∀ (i j : Nat) (a b : Input), i < j → t.inputs[i]? = some a → t.inputs[j]? = some b →
      a.outpoint = b.outpoint →
        (∃ v, t.violation = some v ∧
          (t.KeepsBefore .noRepeatedInput → ∃ first ≤ j, v = .duplicateInput first)) ∧
        (a.spent.lock ≠ b.spent.lock ∨ a.spent.value ≠ b.spent.value → a.id ≠ b.id) := by
  constructor
  · intro hvalid
    refine ⟨List.length_map _, ?_, List.length_mapIdx, ?_⟩
    · exact Transaction.nodup_inputIds (Transaction.violation_eq_none_iff.1 hvalid _) hclear
    · exact Transaction.nodup_outputIds (Transaction.length_outputs_lt_of_valid hvalid) hclear
  · intro i j a b hij ha hb hsame
    obtain ⟨hi, rfl⟩ := List.getElem?_eq_some_iff.1 ha
    constructor
    · apply Transaction.exists_violation_of_repeatsAt
      have hj := (List.getElem?_eq_some_iff.1 hb).1
      have hearlier : t.inputs[i] ∈ t.inputs.take j :=
        List.mem_take_iff_getElem.2 ⟨i, by omega, rfl⟩
      exact ⟨b, hb, t.inputs[i], hearlier, hsame⟩
    · intro hdiffer hid
      have ha := Transaction.input_mem_entryPreimages (List.getElem_mem hi)
      have hb := Transaction.input_mem_entryPreimages (List.mem_of_getElem? hb)
      have hpreimage := (hclear.hash_eq_iff ha hb).1 hid
      rw [Input.preimage_inj hpreimage] at hdiffer
      simp at hdiffer

end

namespace Sample

attribute [local instance] standardCrypto

def paymentId : Hash :=
  string 32 0x3d77461bfd18cede9460e60f89c8b99f7500f83559783c7d1cb21f376b6b9fdb

def paymentSignature : Signature :=
  halves (string 32 0x70fa39f86b7f85537927ca24d71a20a559ce085fb31344925af7eb4c3b296843)
    (string 32 0x90a5424178d1f2144fdfd5bcef44789ae708966c0bbc950382b4a86357aeb90d)

/-- The entry of the sample is paid out in two halves that are alike. -/
def payment : Transaction where
  inputs := transaction.inputs
  outputs := [⟨lock, 50⟩, ⟨lock, 50⟩]
  witnesses := [⟨key, paymentSignature⟩]

/-- The entry is spent twice, the second time for one more. -/
def restated : Transaction where
  inputs := transaction.inputs ++ transaction.inputs.map fun i => { i with spent := ⟨lock, 101⟩ }
  outputs := [⟨lock, 201⟩]
  witnesses := transaction.witnesses ++ transaction.witnesses

theorem id_payment : payment.id = paymentId := by decide +kernel

theorem verify_paymentSignature :
    Crypto.verify key paymentId.toList paymentSignature = true := by
  decide +kernel

theorem violation_payment : payment.violation = none := by
  have hshape : payment.shapeViolation = none := rfl
  have hvalue : payment.valueViolation = none := rfl
  have hwitness : payment.witnessViolation = none := by
    unfold Transaction.witnessViolation
    rw [id_payment]
    simp [payment, transaction, Transaction.witnessViolationFrom, lock_key, Witness.verify,
      verify_paymentSignature]
  simp [Transaction.violation, hshape, hvalue, hwitness]

/-- The entries of the payment, the one that is consumed in front. -/
theorem hashes_payment : payment.entryPreimages.map Crypto.hash =
    [string 32 0x0a8f3a52a74ca14f059f40e8daca0519f0e0bd3e5105e63b09e7b23f29eab0b4,
      string 32 0x3fcddc855c695d207d0aa83385561709039d9d6ae6990b72553c1c2d6f4fcc64,
      string 32 0x5f4c9de94eaa0544d1ec7b8e10650e6a4e59ed6a99f28615ac23ad7d9799e307] := by
  unfold Transaction.entryPreimages
  rw [id_payment]
  decide +kernel

theorem collisionFree_payment : CollisionFree payment.entryPreimages := by
  apply collisionFree_of_nodup
  rw [hashes_payment]
  decide

theorem hashes_restated : restated.entryPreimages.map Crypto.hash =
    [string 32 0x0a8f3a52a74ca14f059f40e8daca0519f0e0bd3e5105e63b09e7b23f29eab0b4,
      string 32 0xa53df91c9ec644e7065ff260d97fc377c9a62e1e6538771a902123c50b6e2e71,
      string 32 0x8eeddc59e352d86ff928ba633e833010ccd2a1308d61f3e04e004d7ddfc89994] := by
  decide +kernel

theorem collisionFree_restated : CollisionFree restated.entryPreimages := by
  apply collisionFree_of_nodup
  rw [hashes_restated]
  decide

theorem keepsBefore_restated : restated.KeepsBefore .noRepeatedInput := by
  have hinputs : restated.KeepsBefore .someOutputs :=
    restated.keepsBefore_first.next (List.cons_ne_nil _ _) rfl
  have houtputs : restated.KeepsBefore .witnessForEach := hinputs.next (List.cons_ne_nil _ _) rfl
  have hcount : Rule.witnessForEach.KeptBy restated := rfl
  exact houtputs.next hcount rfl

/-- Two outputs that are alike have two identifiers. An entry that is stated in two ways is refused,
although the inputs have two identifiers too. -/
theorem equal_outputs_are_two_entries :
    CollisionFree payment.entryPreimages ∧ payment.violation = none ∧
    payment.outputs[0]? = payment.outputs[1]? ∧
    (Summary.ofTransaction payment).inputs.Nodup ∧ (Summary.ofTransaction payment).outputs.Nodup ∧
    CollisionFree restated.entryPreimages ∧
    (∃ first ≤ 1, restated.violation = some (.duplicateInput first)) ∧
    restated.inputIds[0]? ≠ restated.inputIds[1]? := by
  have hpayment := a_valid_transaction_lists_no_entry_twice payment collisionFree_payment
  have hrestated := a_valid_transaction_lists_no_entry_twice restated collisionFree_restated
  obtain ⟨_, hinputs, _, houtputs⟩ := hpayment.1 violation_payment
  obtain ⟨⟨v, hv, hrefused⟩, hdiffer⟩ := hrestated.2 0 1 _ _ (by decide) rfl rfl rfl
  obtain ⟨first, hfirst, rfl⟩ := hrefused keepsBefore_restated
  have hids := hdiffer (Or.inr (by decide))
  exact ⟨collisionFree_payment, violation_payment, rfl, hinputs, houtputs, collisionFree_restated,
    ⟨first, hfirst, hv⟩, fun hsame => hids (Option.some.inj hsame)⟩

end Sample

end Admission
