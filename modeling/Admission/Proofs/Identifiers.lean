-- Identifiers of transactions, of entries and of locks. What is hashed for a
-- transaction can be read back but for its witnesses, and what is hashed for things
-- of different kinds differs in length.
import Admission.Proofs.Entries

namespace Admission

/-! ## Strings of blocks -/

section
variable {α β : Type} {f : α → List β} {size : Nat}

theorem length_flatMap_blocks (hsize : ∀ a, (f a).length = size) (l : List α) :
    (l.flatMap f).length = size * l.length := by
  induction l with
  | nil => rfl
  | cons a rest ih =>
    rw [List.flatMap_cons, List.length_append, List.length_cons, hsize, ih, Nat.mul_succ,
      Nat.add_comm]

/-- Blocks of one size that stand one behind the other can be told apart. -/
theorem flatMap_blocks_inj (hsize : ∀ a, (f a).length = size)
    (hinj : ∀ a b, f a = f b → a = b) {l m : List α} (hlength : l.length = m.length)
    (h : l.flatMap f = m.flatMap f) : l = m := by
  induction l generalizing m with
  | nil => exact (List.eq_nil_of_length_eq_zero hlength.symm).symm
  | cons a rest ih =>
    cases m with
    | nil => cases hlength
    | cons b more =>
      rw [List.flatMap_cons, List.flatMap_cons] at h
      obtain ⟨hfirst, hrest⟩ := List.append_inj h (by rw [hsize, hsize])
      rw [hinj a b hfirst, ih (Nat.succ.inj hlength) hrest]

end

/-! ## Transactions -/

theorem Input.preimage_inj {i j : Input} (h : i.preimage = j.preimage) : i = j := by
  -- What is hashed for `j` is also what is hashed for the entry that it names and describes.
  obtain ⟨hplace, hspent⟩ := Input.preimage_eq_iff.1
    (h.trans (rfl : j.preimage =
      j.spent.preimage j.outpoint.transaction j.outpoint.index.toNat))
  rw [UInt64.ofNat_toNat] at hplace
  cases i
  cases j
  rw [Input.mk.injEq]
  exact ⟨hplace, hspent⟩

namespace Transaction

/-- The numbers of inputs and of outputs fit the 64 bits that they are written in. -/
structure Counted (t : Transaction) : Prop where
  inputs : t.inputs.length < UInt64.size
  outputs : t.outputs.length < UInt64.size

theorem length_preimage (t : Transaction) :
    t.preimage.length = 16 + 80 * t.inputs.length + 40 * t.outputs.length := by
  unfold preimage
  simp only [List.length_append, length_bigEndian, length_flatMap_blocks Input.length_preimage,
    length_flatMap_blocks Output.length_bytes]
  omega

/-- All of a transaction but its witnesses can be read back from its preimage. -/
theorem preimage_eq_iff {a b : Transaction} (ha : a.Counted) (hb : b.Counted) :
    a.preimage = b.preimage ↔ a.inputs = b.inputs ∧ a.outputs = b.outputs := by
  have hlimit : bytesLimit 8 = UInt64.size := rfl
  constructor
  · intro h
    unfold preimage at h
    rw [List.append_assoc, List.append_assoc] at h
    obtain ⟨hcount, h⟩ := List.append_inj h (by simp)
    have hcount := (bigEndian_inj (hlimit ▸ ha.inputs) (hlimit ▸ hb.inputs)).1 hcount
    obtain ⟨hinputs, h⟩ := List.append_inj h (by
      rw [length_flatMap_blocks Input.length_preimage, length_flatMap_blocks Input.length_preimage,
        hcount])
    obtain ⟨hcount', houtputs⟩ := List.append_inj h (by simp)
    have hcount' := (bigEndian_inj (hlimit ▸ ha.outputs) (hlimit ▸ hb.outputs)).1 hcount'
    exact ⟨flatMap_blocks_inj Input.length_preimage (fun _ _ => Input.preimage_inj) hcount hinputs,
      flatMap_blocks_inj Output.length_bytes (fun _ _ => Output.bytes_inj.1) hcount' houtputs⟩
  · rintro ⟨hinputs, houtputs⟩
    unfold preimage
    rw [hinputs, houtputs]

end Transaction

/-! ## Kinds of identifiers -/

inductive Kind where
  | transaction
  /-- An entry of the ledger, be it consumed or produced. -/
  | entry
  | lock
deriving DecidableEq

section
variable [Crypto]

/-- The identifiers of each kind, with the string that is hashed for them. -/
inductive Identifies : Kind → List UInt8 → Hash → Prop
  | transaction (t : Transaction) : Identifies .transaction t.preimage t.id
  | input (i : Input) : Identifies .entry i.preimage i.id
  | output (t : Transaction) {index : Nat} {id : Hash} (h : index < t.outputs.length)
      (hid : t.outputIds[index]? = some id) :
      Identifies .entry (t.outputs[index].preimage t.id index) id
  | lock (key : PublicKey) : Identifies .lock key.toList key.lock

namespace Identifies

variable {kind kind' : Kind} {bytes bytes' : List UInt8} {id id' : Hash}

theorem eq_hash (h : Identifies kind bytes id) : id = Crypto.hash bytes := by
  cases h with
  | transaction t | input i | lock key => rfl
  | output t h hid =>
    rw [t.getElem?_outputIds _ h, Option.some.injEq] at hid
    exact hid.symm

/-- The length of the string tells the kind: no transaction has a preimage of 80 or 32 bytes. -/
theorem length_iff (h : Identifies kind bytes id) :
    (bytes.length = 80 ↔ kind = .entry) ∧ (bytes.length = 32 ↔ kind = .lock) := by
  cases h with
  | transaction t =>
    rw [t.length_preimage]
    refine ⟨⟨fun h => ?_, fun h => by cases h⟩, ⟨fun h => ?_, fun h => by cases h⟩⟩ <;> omega
  | input i => simp [i.length_preimage]
  | output t h hid => simp [Output.length_preimage]
  | lock key => simp

theorem bytes_ne (h : Identifies kind bytes id) (h' : Identifies kind' bytes' id')
    (hkind : kind ≠ kind') : bytes ≠ bytes' := by
  rintro rfl
  obtain ⟨hentry, hlock⟩ := h.length_iff
  obtain ⟨hentry', hlock'⟩ := h'.length_iff
  rw [hentry] at hentry'
  rw [hlock] at hlock'
  cases kind <;> cases kind' <;> simp_all

end Identifies

/-- Identifiers tell transactions apart, and things of one kind from things of another. Two
transactions have the same preimage if and only if they have the same inputs and outputs, whatever
their witnesses are. What is hashed for a transaction, for an entry and for a lock is never the
same. So all this holds of the identifiers too, unless the hash collides on these strings. -/
theorem identifiers_tell_transactions_and_kinds_apart :
    (∀ a b : Transaction, a.Counted → b.Counted →
      (a.preimage = b.preimage ↔ a.inputs = b.inputs ∧ a.outputs = b.outputs) ∧
        (¬ Collide a.preimage b.preimage →
          (a.id = b.id ↔ a.inputs = b.inputs ∧ a.outputs = b.outputs))) ∧
    ∀ kind kind' bytes bytes' id id', Identifies kind bytes id → Identifies kind' bytes' id' →
      kind ≠ kind' → bytes ≠ bytes' ∧ (¬ Collide bytes bytes' → id ≠ id') := by
  constructor
  · intro a b ha hb
    have hpreimage := Transaction.preimage_eq_iff ha hb
    refine ⟨hpreimage, fun hclear => ?_⟩
    rw [← hpreimage, ← hash_eq_iff hclear]
    rfl
  · intro kind kind' bytes bytes' id id' h h' hkind
    have hbytes := h.bytes_ne h' hkind
    refine ⟨hbytes, fun hclear => ?_⟩
    rw [h.eq_hash, h'.eq_hash, ne_eq, hash_eq_iff hclear]
    exact hbytes

end

namespace Sample

attribute [local instance] standardCrypto

/-- One input of zeros, and no output. -/
def consuming : Transaction := ⟨[⟨⟨.zeros 32, 0⟩, ⟨.zeros 32, 0⟩⟩], [], []⟩

/-- No input, and two outputs of zeros. Their bytes are those of the input. -/
def producing : Transaction := ⟨[], [⟨.zeros 32, 0⟩, ⟨.zeros 32, 0⟩], []⟩

theorem counted_consuming : consuming.Counted := ⟨by decide, by decide⟩

theorem counted_producing : producing.Counted := ⟨by decide, by decide⟩

theorem not_collide_consuming : ¬ Collide consuming.preimage producing.preimage := by
  unfold Collide
  decide +kernel

theorem not_collide_lock : ¬ Collide consuming.preimage key.toList := by
  unfold Collide
  decide +kernel

/-- The same bytes as an input and as two outputs make different transactions, and none of them has
the identifier of a lock. -/
theorem an_input_does_not_pass_for_two_outputs :
    consuming.Counted ∧ producing.Counted ∧
    consuming.inputs.flatMap Input.preimage = producing.outputs.flatMap Output.bytes ∧
    consuming.preimage.length = producing.preimage.length ∧
    consuming.preimage ≠ producing.preimage ∧
    ¬ Collide consuming.preimage producing.preimage ∧ consuming.id ≠ producing.id ∧
    Identifies .transaction consuming.preimage consuming.id ∧
    Identifies .lock key.toList (PublicKey.lock key) ∧
    ¬ Collide consuming.preimage key.toList ∧ consuming.id ≠ PublicKey.lock key := by
  obtain ⟨htransactions, hkinds⟩ := identifiers_tell_transactions_and_kinds_apart
  obtain ⟨hpreimage, hid⟩ := htransactions _ _ counted_consuming counted_producing
  have hdiffer : ¬ (consuming.inputs = producing.inputs ∧ consuming.outputs = producing.outputs) := by
    decide
  have hkind := hkinds _ _ _ _ _ _ (.transaction consuming) (.lock key) (by decide)
  refine ⟨counted_consuming, counted_producing, by decide +kernel, by decide +kernel,
    mt hpreimage.1 hdiffer, not_collide_consuming, mt (hid not_collide_consuming).1 hdiffer,
    .transaction consuming, .lock key, not_collide_lock, hkind.2 not_collide_lock⟩

end Sample

end Admission
