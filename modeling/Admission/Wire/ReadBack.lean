-- Every message that can be built of real keys and signatures is read back as
-- it was written, whatever bytes follow it. The law of a message is the law of
-- its parts, put together in the order of the parts.
import Admission.Wire.Messages

namespace Admission

/-! ## What can be sent -/

/-- Lists are counted, and numbers written, in 64 bits at most. -/
def wireLimit : Nat := 0x10000000000000000

/-- All its numbers fit. A violation that a transaction has always is. -/
def Violation.Sendable (v : Violation) : Prop :=
  v.counts.1 < wireLimit ∧ v.counts.2 < wireLimit ∧ v.position < wireLimit

def Verdict.Sendable (v : Verdict) : Prop := ∀ broken, v.violation = some broken → broken.Sendable

section
variable [Crypto]

def Witness.Sendable (w : Witness) : Prop :=
  Crypto.isPublicKey w.owner = true ∧ Signature.wellFormed w.signature = true

def Attestation.Sendable (a : Attestation) : Prop :=
  Crypto.isPublicKey a.publicKey = true ∧ Signature.wellFormed a.signature = true

def Transaction.Sendable (t : Transaction) : Prop :=
  t.inputs.length < wireLimit ∧ t.outputs.length < wireLimit ∧ t.witnesses.length < wireLimit ∧
    ∀ w ∈ t.witnesses, w.Sendable

def Summary.Sendable (s : Summary) : Prop :=
  s.inputs.length < wireLimit ∧ s.outputs.length < wireLimit ∧
    s.attestations.entries.length < wireLimit ∧ ∀ e ∈ s.attestations.entries, e.2.Sendable

def Response.Sendable : Response → Prop
  | executed verdict => ∀ v, verdict = some v → v.Sendable
  | validated attestation => ∀ a, attestation = some a → a.Sendable
  | unavailable => True

end

namespace Wire

open Format

/-! ## Parts -/

theorem word_readsBack : word.ReadsBack fun _ => True := fun w rest _ =>
  view_readsBack Varint.format_readsBack (fun _ => UInt64.ofNat_toNat) w rest w.toNat_lt

theorem many_readsBack {α : Type} {f : Format α} {P : α → Prop} (hf : f.ReadsBack P) :
    (many f).ReadsBack fun as => as.length < wireLimit ∧ ∀ a ∈ as, P a :=
  list_readsBack Varint.format_readsBack hf

theorem hash_readsBack : hash.ReadsBack fun _ => True := bytes_readsBack 32

theorem outpoint_readsBack : outpoint.ReadsBack fun _ => True := fun o rest _ =>
  view_readsBack (pair_readsBack hash_readsBack word_readsBack) (fun _ => rfl) o rest
    ⟨trivial, trivial⟩

theorem output_readsBack : output.ReadsBack fun _ => True := fun o rest _ =>
  view_readsBack (pair_readsBack hash_readsBack word_readsBack) (fun _ => rfl) o rest
    ⟨trivial, trivial⟩

theorem input_readsBack : input.ReadsBack fun _ => True := fun i rest _ =>
  view_readsBack (pair_readsBack outpoint_readsBack output_readsBack) (fun _ => rfl) i rest
    ⟨trivial, trivial⟩

theorem signature_readsBack : signature.ReadsBack fun s => Signature.wellFormed s = true :=
  fun s rest h => accept_readsBack (bytes_readsBack 64) s rest ⟨trivial, by simp [h]⟩

theorem counts_readsBack : counts.ReadsBack fun p => p.1 < wireLimit ∧ p.2 < wireLimit :=
  pair_readsBack Varint.format_readsBack Varint.format_readsBack

/-- A variant is read back if its number is one of the few, and its body is read back. -/
theorem oneOf_readsBack {α : Type} {count : Nat} {number : α → Nat} {body : Nat → Format α}
    {P : α → Prop} (hc : count ≤ 0x100000000) (hb : ∀ a rest, P a → number a < count ∧
      (body (number a)).read ((body (number a)).write a ++ rest) = .ok (a, rest)) :
    (oneOf count number body).ReadsBack P :=
  Format.oneOf_readsBack (fun n rest h => Varint.format_readsBack n rest (by omega)) hc hb

theorem violationNumber_lt (v : Violation) : violationNumber v < 9 := by
  cases v <;> simp [violationNumber]

theorem violation_readsBack : violation.ReadsBack Violation.Sendable := by
  refine oneOf_readsBack (by decide) fun v rest h => ⟨violationNumber_lt v, ?_⟩
  have numbered (into : Nat → Violation) (hinto : into v.position = v) :
      (Varint.format.view into Violation.position).read
        ((Varint.format.view into Violation.position).write v ++ rest) = .ok (v, rest) := by
    have := Varint.format_readsBack v.position rest h.2.2
    simp only [Format.view, this, Except.map, hinto]
  have counted (into : Nat × Nat → Violation) (hinto : into v.counts = v) :
      (counts.view into Violation.counts).read
        ((counts.view into Violation.counts).write v ++ rest) = .ok (v, rest) := by
    have := counts_readsBack v.counts rest ⟨h.1, h.2.1⟩
    simp only [Format.view, this, Except.map, hinto]
  cases v with
  | noInputs => exact rfl
  | noOutputs => exact rfl
  | missingWitness inputs witnesses => exact counted (fun p => .missingWitness p.1 p.2) rfl
  | duplicateInput index => exact numbered .duplicateInput rfl
  | zeroValueOutput index => exact numbered .zeroValueOutput rfl
  | valueOverflow => exact rfl
  | asymmetricValues inputs outputs => exact counted (fun p => .asymmetricValues p.1 p.2) rfl
  | witnessLockMismatch index => exact numbered .witnessLockMismatch rfl
  | invalidWitnessSignature index => exact numbered .invalidWitnessSignature rfl

theorem requestNumber_lt (r : Request) : requestNumber r < 2 := by
  cases r <;> simp [requestNumber]

theorem responseNumber_lt (r : Response) : responseNumber r < 3 := by
  cases r <;> simp [responseNumber]

theorem status_readsBack : status.ReadsBack fun _ => True := by
  refine oneOf_readsBack (by decide) fun s rest _ => ?_
  cases s <;> exact ⟨by decide, rfl⟩

theorem verdict_readsBack : verdict.ReadsBack Verdict.Sendable := fun v rest h =>
  view_readsBack (pair_readsBack status_readsBack (optional_readsBack violation_readsBack))
    (fun _ => rfl) v rest ⟨trivial, h⟩

theorem coordinatorResponse_readsBack : coordinatorResponse.ReadsBack fun _ => True := by
  refine oneOf_readsBack (by decide) fun r rest _ => ⟨by decide, ?_⟩
  exact view_readsBack (optional_readsBack truth_readsBack) (fun _ => rfl) r rest
    fun _ _ => trivial

variable [Crypto]

theorem publicKey_readsBack : publicKey.ReadsBack fun key => Crypto.isPublicKey key = true := by
  intro key rest h
  have hlength := Varint.format_readsBack key.toList.length (key.toList ++ rest)
    (by simp only [ByteString.length_toList]; decide)
  have hread : Varint.read (Varint.write key.toList.length ++ (key.toList ++ rest)) =
      .ok (key.toList.length, key.toList ++ rest) := hlength
  have hkey : PublicKey.ofBytes key.toList = .ok key := by
    simp [PublicKey.ofBytes, h]
  simp only [publicKey, List.append_assoc, hread, Except.bind, takeBytes_append rest rfl, hkey]

theorem witness_readsBack : witness.ReadsBack Witness.Sendable := fun w rest h =>
  view_readsBack (pair_readsBack publicKey_readsBack signature_readsBack) (fun _ => rfl) w rest h

theorem attestation_readsBack : attestation.ReadsBack Attestation.Sendable := fun a rest h =>
  view_readsBack (pair_readsBack publicKey_readsBack signature_readsBack) (fun _ => rfl) a rest h

theorem attestations_readsBack : attestations.ReadsBack fun s =>
    s.entries.length < wireLimit ∧ ∀ e ∈ s.entries, e.2.Sendable := fun s rest h =>
  view_readsBack (many_readsBack (pair_readsBack hash_readsBack attestation_readsBack))
    Table.ofEntries_entries s rest ⟨h.1, fun e he => ⟨trivial, h.2 e he⟩⟩

theorem transaction_readsBack : transaction.ReadsBack Transaction.Sendable := fun t rest h =>
  view_readsBack
    (pair_readsBack (many_readsBack input_readsBack)
      (pair_readsBack (many_readsBack output_readsBack) (many_readsBack witness_readsBack)))
    (fun _ => rfl) t rest
    ⟨⟨h.1, fun _ _ => trivial⟩, ⟨h.2.1, fun _ _ => trivial⟩, h.2.2.1, h.2.2.2⟩

theorem summary_readsBack : summary.ReadsBack Summary.Sendable := fun s rest h =>
  view_readsBack
    (pair_readsBack hash_readsBack (pair_readsBack (many_readsBack hash_readsBack)
      (pair_readsBack (many_readsBack hash_readsBack) attestations_readsBack)))
    (fun _ => rfl) s rest
    ⟨trivial, ⟨h.1, fun _ _ => trivial⟩, ⟨h.2.1, fun _ _ => trivial⟩, h.2.2.1, h.2.2.2⟩

/-! ## Messages -/

theorem request_readsBack : request.ReadsBack fun r => r.transaction.Sendable := by
  refine oneOf_readsBack (by decide) fun r rest h => ⟨requestNumber_lt r, ?_⟩
  have body (into : Transaction → Request) (hinto : into r.transaction = r) :
      (transaction.view into Request.transaction).read
        ((transaction.view into Request.transaction).write r ++ rest) = .ok (r, rest) := by
    have := transaction_readsBack r.transaction rest h
    simp only [Format.view, this, Except.map, hinto]
  cases r with
  | execute t => exact body .execute rfl
  | validate t => exact body .validate rfl

theorem response_readsBack : response.ReadsBack Response.Sendable := by
  refine oneOf_readsBack (by decide) fun r rest h => ⟨responseNumber_lt r, ?_⟩
  cases r with
  | executed v =>
    have := optional_readsBack verdict_readsBack v rest h
    simp only [responseNumber, Format.view, this, Except.map]
  | validated a =>
    have := optional_readsBack attestation_readsBack a rest h
    simp only [responseNumber, Format.view, this, Except.map]
  | unavailable => rfl

theorem coordinatorRequest_readsBack : coordinatorRequest.ReadsBack fun r =>
    match r with | .execute s => s.Sendable := by
  refine oneOf_readsBack (by decide) fun r rest h => ⟨by decide, ?_⟩
  exact view_readsBack summary_readsBack (fun _ => rfl) r rest h

end Wire

end Admission
