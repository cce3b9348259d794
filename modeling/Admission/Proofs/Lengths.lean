-- How long the writings of values are. Keys, hashes and signatures have a fixed
-- length, and what varies are the numbers and the lists.
import Admission.Wire.Messages
import Mathlib.Algebra.Group.Action.Defs
import Mathlib.Algebra.Order.BigOperators.Group.List
import Mathlib.Algebra.Order.Ring.Nat
import Mathlib.Tactic.SplitIfs

namespace Admission

/-! ## Numbers -/

namespace Varint

theorem length_write (n : Nat) :
    (write n).length =
      if n < smallLimit then 1 else if n < 0x10000 then 3 else if n < 0x100000000 then 5 else 9 := by
  unfold write
  split_ifs <;> rfl

theorem length_write_pos (n : Nat) : 0 < (write n).length := by
  rw [length_write]
  split_ifs <;> decide

theorem length_write_le (n : Nat) : (write n).length ≤ 9 := by
  rw [length_write]
  split_ifs <;> decide

/-- A larger number takes no less room. -/
theorem length_write_mono {m n : Nat} (h : m ≤ n) : (write m).length ≤ (write n).length := by
  rw [length_write, length_write]
  split_ifs <;> omega

end Varint

namespace Wire

/-! ## Lists -/

section
variable {α : Type} {f : Format α} {size : Nat}

/-- Behind its number, a list takes what its values take. -/
theorem length_many (as : List α) :
    ((many f).write as).length =
      (Varint.write as.length).length + (as.map fun a => (f.write a).length).sum := by
  have hwrite : (many f).write as = Varint.write as.length ++ as.flatMap f.write := rfl
  rw [hwrite, List.length_append, List.length_flatMap]

theorem length_many_of_eq (h : ∀ a, (f.write a).length = size) (as : List α) :
    ((many f).write as).length = (Varint.write as.length).length + as.length * size := by
  rw [length_many]
  simp only [h, List.map_const', List.sum_replicate_nat]

theorem le_length_many (h : ∀ a, size ≤ (f.write a).length) (as : List α) :
    (Varint.write as.length).length + as.length * size ≤ ((many f).write as).length := by
  rw [length_many]
  apply Nat.add_le_add_left
  have hsum := List.card_nsmul_le_sum (as.map fun a => (f.write a).length) size (by simp [h])
  rwa [List.length_map, smul_eq_mul] at hsum

end

/-! ## Parts -/

theorem length_write_hash (h : Hash) : (hash.write h).length = 32 := h.length_toList

theorem length_write_word_pos (w : UInt64) : 0 < (word.write w).length :=
  Varint.length_write_pos w.toNat

theorem le_length_write_output (o : Output) : 33 ≤ (output.write o).length := by
  have hwrite : output.write o = hash.write o.lock ++ word.write o.value := rfl
  have hvalue := length_write_word_pos o.value
  rw [hwrite, List.length_append, length_write_hash]
  omega

theorem le_length_write_input (i : Input) : 66 ≤ (input.write i).length := by
  have hwrite : input.write i =
      hash.write i.outpoint.transaction ++ word.write i.outpoint.index ++ output.write i.spent :=
    rfl
  have hindex := length_write_word_pos i.outpoint.index
  have hspent := le_length_write_output i.spent
  rw [hwrite, List.length_append, List.length_append, length_write_hash]
  omega

variable [Crypto]

theorem length_write_attestation (a : Attestation) : (attestation.write a).length = 97 := by
  have hwrite : attestation.write a =
      Varint.write a.publicKey.toList.length ++ a.publicKey.toList ++ a.signature.toList := rfl
  rw [hwrite, List.length_append, List.length_append, ByteString.length_toList,
    ByteString.length_toList]
  rfl

theorem length_write_witness (w : Witness) : (witness.write w).length = 97 :=
  length_write_attestation ⟨w.owner, w.signature⟩

/-- An attestation behind the key that it is stored under. -/
theorem length_write_entry (e : Hash × Attestation) :
    ((hash.pair attestation).write e).length = 129 := by
  have hwrite : (hash.pair attestation).write e = hash.write e.1 ++ attestation.write e.2 := rfl
  rw [hwrite, List.length_append, length_write_hash, length_write_attestation]

/-! ## Requests -/

theorem length_write_transaction (t : Transaction) :
    (transaction.write t).length = ((many input).write t.inputs).length +
      ((many output).write t.outputs).length + ((many witness).write t.witnesses).length := by
  have hwrite : transaction.write t = (many input).write t.inputs ++
      ((many output).write t.outputs ++ (many witness).write t.witnesses) := rfl
  rw [hwrite, List.length_append, List.length_append, Nat.add_assoc]

/-- A request is a transaction behind one byte, whatever is to be done with it. -/
theorem length_write_request (r : Request) :
    (request.write r).length = (transaction.write r.transaction).length + 1 := by
  cases r <;> rfl

theorem le_length_write_request (r : Request) :
    r.transaction.inputs.length * 66 + r.transaction.outputs.length * 33 +
      r.transaction.witnesses.length * 97 + (Varint.write r.transaction.inputs.length).length +
      (Varint.write r.transaction.outputs.length).length + 2 ≤ (request.write r).length := by
  have hinputs := le_length_many le_length_write_input r.transaction.inputs
  have houtputs := le_length_many le_length_write_output r.transaction.outputs
  have hwitnesses := length_many_of_eq length_write_witness r.transaction.witnesses
  have hnumber := Varint.length_write_pos r.transaction.witnesses.length
  rw [length_write_request, length_write_transaction]
  omega

theorem length_write_coordinatorRequest (s : Summary) :
    (coordinatorRequest.write (.execute s)).length =
      s.inputs.length * 32 + s.outputs.length * 32 + s.attestations.entries.length * 129 +
      (Varint.write s.inputs.length).length + (Varint.write s.outputs.length).length +
      (Varint.write s.attestations.entries.length).length + 33 := by
  have hwrite : coordinatorRequest.write (.execute s) =
      0 :: (hash.write s.id ++ ((many hash).write s.inputs ++ ((many hash).write s.outputs ++
        (many (hash.pair attestation)).write s.attestations.entries))) := rfl
  have hinputs := length_many_of_eq length_write_hash s.inputs
  have houtputs := length_many_of_eq length_write_hash s.outputs
  have hentries := length_many_of_eq length_write_entry s.attestations.entries
  have hid := length_write_hash s.id
  rw [hwrite]
  simp only [List.length_cons, List.length_append]
  omega

end Wire

end Admission
