-- The entries of the ledger and their identifiers. What is hashed for an input
-- and what is hashed for an output are built alike, so an input has the
-- identifier of the entry that it names and describes, and of no other one.
import Admission.Proofs.Peers

namespace Admission

/-! ## Preimages -/

namespace Output

theorem length_bytes (o : Output) : o.bytes.length = 40 := by
  simp [bytes]

theorem length_preimage (transaction : Hash) (index : Nat) (o : Output) :
    (o.preimage transaction index).length = 80 := by
  simp [preimage, length_bytes]

/-- Nothing of an output is lost in its bytes. -/
theorem bytes_inj {a b : Output} : a.bytes = b.bytes ↔ a = b := by
  constructor
  · intro h
    obtain ⟨hlock, hvalue⟩ := List.append_inj h (by simp)
    have hvalue : a.value.toNat = b.value.toNat :=
      (bigEndian_inj a.value.toNat_lt b.value.toNat_lt).1 hvalue
    cases a
    cases b
    rw [Output.mk.injEq]
    exact ⟨ByteString.ext hlock, UInt64.toNat_inj.1 hvalue⟩
  · rintro rfl
    rfl

end Output

namespace Input

theorem length_preimage (i : Input) : i.preimage.length = 80 := by
  simp [preimage, Output.length_bytes]

/-- An input has the preimage of an entry if it names its place and describes it as it is. -/
theorem preimage_eq_iff {i : Input} {o : Output} {transaction : Hash} {index : Nat} :
    i.preimage = o.preimage transaction index ↔
      i.outpoint = ⟨transaction, .ofNat index⟩ ∧ i.spent = o := by
  -- Positions are written in 64 bits, also in the preimage of the output.
  have hindex : bigEndian 8 index = bigEndian 8 (UInt64.ofNat index).toNat := by
    rw [UInt64.toNat_ofNat']
    exact (bigEndian_mod 8 index).symm
  unfold preimage Output.preimage
  rw [hindex]
  constructor
  · intro h
    obtain ⟨hplace, hspent⟩ := List.append_inj h (by simp)
    obtain ⟨htransaction, hposition⟩ := List.append_inj hplace (by simp)
    have hposition : i.outpoint.index.toNat = (UInt64.ofNat index).toNat :=
      (bigEndian_inj i.outpoint.index.toNat_lt (UInt64.toNat_lt _)).1 hposition
    refine ⟨?_, Output.bytes_inj.1 hspent⟩
    cases hi : i.outpoint
    rw [hi] at htransaction hposition
    rw [Outpoint.mk.injEq]
    exact ⟨ByteString.ext htransaction, UInt64.toNat_inj.1 hposition⟩
  · rintro ⟨hplace, hspent⟩
    rw [hplace, hspent]

end Input

section
variable [Crypto]

/-- Two strings that the hash does not tell apart. -/
def Collide (a b : List UInt8) : Prop := a ≠ b ∧ Crypto.hash a = Crypto.hash b

theorem hash_eq_iff {a b : List UInt8} (h : ¬ Collide a b) :
    Crypto.hash a = Crypto.hash b ↔ a = b := by
  constructor
  · intro hsame
    by_contra hdiffer
    exact h ⟨hdiffer, hsame⟩
  · rintro rfl
    rfl

theorem Transaction.getElem?_outputIds (t : Transaction) (index : Nat)
    (h : index < t.outputs.length) :
    t.outputIds[index]? = some (Crypto.hash (t.outputs[index].preimage t.id index)) := by
  simp [outputIds, h]

/-! ## What an input consumes -/

/-- An input that names an output of a transaction and states its lock and value has the
identifier of that entry. Unless the hash collides on the two strings, it is the only kind that
does: what is misstated is the identifier of something else. -/
theorem an_input_consumes_the_entry_it_names (t : Transaction) (index : Nat)
    (h : index < t.outputs.length) (i : Input) :
    i.preimage.length = 80 ∧ (t.outputs[index].preimage t.id index).length = 80 ∧
      (i.outpoint = ⟨t.id, .ofNat index⟩ → i.spent = t.outputs[index] →
        t.outputIds[index]? = some i.id) ∧
      (¬ Collide i.preimage (t.outputs[index].preimage t.id index) →
        (t.outputIds[index]? = some i.id →
          i.outpoint.transaction = t.id ∧ i.outpoint.index = .ofNat index ∧
            (index < UInt64.size → i.outpoint.index.toNat = index) ∧
            i.spent.lock = t.outputs[index].lock ∧ i.spent.value = t.outputs[index].value) ∧
        (i.spent.lock ≠ t.outputs[index].lock ∨ i.spent.value ≠ t.outputs[index].value →
          t.outputIds[index]? ≠ some i.id)) := by
  have hid : t.outputIds[index]? = some i.id ↔
      Crypto.hash i.preimage = Crypto.hash (t.outputs[index].preimage t.id index) := by
    rw [t.getElem?_outputIds index h, Option.some.injEq, eq_comm, Input.id]
  refine ⟨i.length_preimage, Output.length_preimage _ _ _, ?_, ?_⟩
  · intro hplace hspent
    rw [hid, Input.preimage_eq_iff.2 ⟨hplace, hspent⟩]
  · intro hclear
    rw [hash_eq_iff hclear, Input.preimage_eq_iff] at hid
    constructor
    · intro hsame
      obtain ⟨hplace, hspent⟩ := hid.1 hsame
      rw [hplace, hspent]
      exact ⟨rfl, rfl, fun hfits => UInt64.toNat_ofNat_of_lt' hfits, rfl, rfl⟩
    · intro hmisstated hsame
      obtain ⟨_, hspent⟩ := hid.1 hsame
      rw [hspent] at hmisstated
      simp at hmisstated

end

namespace Sample

attribute [local instance] standardCrypto

/-- An input that spends what the sample transaction produces. -/
def successor : Input := ⟨⟨transaction.id, 0⟩, ⟨lock, 100⟩⟩

/-- The same with a larger value than was produced. -/
def inflated : Input := ⟨⟨transaction.id, 0⟩, ⟨lock, 101⟩⟩

theorem not_collide_inflated :
    ¬ Collide inflated.preimage (transaction.outputs[0].preimage transaction.id 0) := by
  unfold inflated
  rw [id_transaction]
  unfold Collide
  decide +kernel

/-- What the sample transaction produces is consumed at its value, and not at a larger one. -/
theorem the_sample_entry_is_consumed_at_its_value :
    0 < transaction.outputs.length ∧ transaction.outputIds[0]? = some successor.id ∧
      ¬ Collide inflated.preimage (transaction.outputs[0].preimage transaction.id 0) ∧
      transaction.outputIds[0]? ≠ some inflated.id := by
  have hlength : 0 < transaction.outputs.length := by decide
  have hvalue : (101 : UInt64) ≠ 100 := by decide
  obtain ⟨_, _, hconsumes, _⟩ :=
    an_input_consumes_the_entry_it_names transaction 0 hlength successor
  obtain ⟨_, _, _, hclear⟩ := an_input_consumes_the_entry_it_names transaction 0 hlength inflated
  exact ⟨hlength, hconsumes rfl rfl, not_collide_inflated,
    (hclear not_collide_inflated).2 (Or.inr hvalue)⟩

end Sample

end Admission
