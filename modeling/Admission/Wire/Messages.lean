-- The messages as bytes. Each part has a format, a message is put together of
-- its parts, and every message that holds real keys and signatures is read back
-- as it was written.
import Admission.Protocol
import Admission.Wire.Varint

namespace Admission

/-! ## Numbers of variants -/

def Violation.counts : Violation → Nat × Nat
  | missingWitness inputs witnesses => (inputs, witnesses)
  | asymmetricValues inputs outputs => (inputs, outputs)
  | _ => (0, 0)

def Violation.position : Violation → Nat
  | duplicateInput index => index
  | zeroValueOutput index => index
  | witnessLockMismatch index => index
  | invalidWitnessSignature index => index
  | _ => 0

namespace Wire

def violationNumber : Violation → Nat
  | .noInputs => 0
  | .noOutputs => 1
  | .missingWitness _ _ => 2
  | .duplicateInput _ => 3
  | .zeroValueOutput _ => 4
  | .valueOverflow => 5
  | .asymmetricValues _ _ => 6
  | .witnessLockMismatch _ => 7
  | .invalidWitnessSignature _ => 8

def statusNumber : Status → Nat
  | .confirmed => 0
  | .staticInvalid => 1
  | .stateInvalid => 2

def requestNumber : Request → Nat
  | .execute _ => 0
  | .validate _ => 1

def responseNumber : Response → Nat
  | .executed _ => 0
  | .validated _ => 1
  | .unavailable => 2

/-! ## Parts -/

def hash : Format Hash := Format.bytes 32

/-- An amount, or a position among outputs. -/
def word : Format UInt64 := Varint.format.view UInt64.ofNat UInt64.toNat

def many {α : Type} (f : Format α) : Format (List α) := Format.list Varint.format f

def oneOf {α : Type} (count : Nat) (number : α → Nat) (body : Nat → Format α) : Format α :=
  Format.oneOf Varint.format count number body

def output : Format Output :=
  (hash.pair word).view (fun p => ⟨p.1, p.2⟩) (fun o => (o.lock, o.value))

def outpoint : Format Outpoint :=
  (hash.pair word).view (fun p => ⟨p.1, p.2⟩) (fun o => (o.transaction, o.index))

def input : Format Input :=
  (outpoint.pair output).view (fun p => ⟨p.1, p.2⟩) (fun i => (i.outpoint, i.spent))

/-- Any other string of 64 bytes is refused. -/
def signature : Format Signature :=
  (Format.bytes 64).accept
    (fun s => if Signature.wellFormed s then .ok s else .error (.key .signature))
    id

def counts : Format (Nat × Nat) := Varint.format.pair Varint.format

def violation : Format Violation :=
  oneOf 9 violationNumber fun
    | 0 => .constant .noInputs
    | 1 => .constant .noOutputs
    | 2 => counts.view (fun p => .missingWitness p.1 p.2) Violation.counts
    | 3 => Varint.format.view .duplicateInput Violation.position
    | 4 => Varint.format.view .zeroValueOutput Violation.position
    | 5 => .constant .valueOverflow
    | 6 => counts.view (fun p => .asymmetricValues p.1 p.2) Violation.counts
    | 7 => Varint.format.view .witnessLockMismatch Violation.position
    | _ => Varint.format.view .invalidWitnessSignature Violation.position

def status : Format Status :=
  oneOf 3 statusNumber fun
    | 0 => .constant .confirmed
    | 1 => .constant .staticInvalid
    | _ => .constant .stateInvalid

def verdict : Format Verdict :=
  (status.pair violation.optional).view (fun p => ⟨p.1, p.2⟩) (fun v => (v.status, v.violation))

/-- Whether the coordinator committed, if that is known. -/
def coordinatorResponse : Format CoordinatorResponse :=
  oneOf 1 (fun _ => 0) fun _ =>
    Format.truth.optional.view .outcome fun r => match r with | .outcome committed => committed

variable [Crypto]

/-- A public key is written behind its length, which is refused if it is another. -/
def publicKey : Format PublicKey where
  write key := Varint.write key.toList.length ++ key.toList
  read input :=
    (Varint.read input).bind fun (length, rest) =>
      (Format.takeBytes length rest).bind fun (bytes, rest) =>
        match PublicKey.ofBytes bytes with
        | .ok key => .ok (key, rest)
        | .error cause => .error (.key cause)

def witness : Format Witness :=
  (publicKey.pair signature).view (fun p => ⟨p.1, p.2⟩) (fun w => (w.owner, w.signature))

def attestation : Format Attestation :=
  (publicKey.pair signature).view (fun p => ⟨p.1, p.2⟩) (fun a => (a.publicKey, a.signature))

/-- Attestations with the keys they are stored under. Nothing checks that a key is the one of its
attestation, and of two under one key the later stays. -/
def attestations : Format AttestationSet :=
  (many (hash.pair attestation)).view Table.ofEntries Table.entries

def transaction : Format Transaction :=
  ((many input).pair ((many output).pair (many witness))).view
    (fun p => ⟨p.1, p.2.1, p.2.2⟩)
    (fun t => (t.inputs, t.outputs, t.witnesses))

def summary : Format Summary :=
  (hash.pair ((many hash).pair ((many hash).pair attestations))).view
    (fun p => ⟨p.1, p.2.1, p.2.2.1, p.2.2.2⟩)
    (fun s => (s.id, s.inputs, s.outputs, s.attestations))

/-! ## Messages -/

def request : Format Request :=
  oneOf 2 requestNumber fun
    | 0 => transaction.view .execute Request.transaction
    | _ => transaction.view .validate Request.transaction

def response : Format Response :=
  oneOf 3 responseNumber fun
    | 0 => verdict.optional.view .executed fun r => match r with
      | .executed v => v
      | _ => none
    | 1 => attestation.optional.view .validated fun r => match r with
      | .validated a => a
      | _ => none
    | _ => .constant .unavailable

def coordinatorRequest : Format CoordinatorRequest :=
  oneOf 1 (fun _ => 0) fun _ =>
    summary.view .execute fun r => match r with | .execute s => s

end Wire

end Admission
