-- The audit: what was handed to the coordinator, for reports. It keeps four
-- tables that are written together, so that each message is stored as a whole
-- or not at all.
import Admission.Audit.Record

namespace Admission

/-- What the audit is told of an accepted transaction. -/
structure AuditEntry where
  id : Hash
  inputs : List Hash
  outputs : List Hash
deriving DecidableEq

def AuditEntry.ofSummary (s : Summary) : AuditEntry := ⟨s.id, s.inputs, s.outputs⟩

/-- The tables of the audit. -/
structure Audit where
  /-- The stored record of each transaction. -/
  transactions : Table (List UInt8)
  /-- Who consumed an entry. -/
  inputs : Table Hash
  /-- Who produced an entry. -/
  outputs : Table Hash
  /-- Who produced an entry that nobody consumed since. -/
  unspent : Table Hash
deriving DecidableEq

/-- Why the audit gives no answer. -/
inductive AuditError where
  /-- The tables cannot be opened or written. -/
  | storage
  /-- What is stored is no record. -/
  | record (cause : ReadError)
deriving DecidableEq

namespace Audit

def empty : Audit := ⟨.empty, .empty, .empty, .empty⟩

instance : Inhabited Audit := ⟨empty⟩

/-- The tables of a new place, if the place can hold them. -/
def create (usable : Bool) : Except AuditError Audit := if usable then .ok empty else .error .storage

def consume (transaction : Hash) (audit : Audit) (id : Hash) : Audit :=
  { audit with inputs := audit.inputs.put id transaction, unspent := audit.unspent.erase id }

def produce (transaction : Hash) (audit : Audit) (id : Hash) : Audit :=
  { audit with
    outputs := audit.outputs.put id transaction
    unspent := audit.unspent.put id transaction }

def store (audit : Audit) (transaction : Hash) (bytes : List UInt8) : Audit :=
  { audit with transactions := audit.transactions.put transaction bytes }

/-- Stores what is told of a transaction at a moment: first what it consumes, then what it
produces. -/
def record (audit : Audit) (moment : Moment) (entry : AuditEntry) : Audit :=
  let stored := audit.store entry.id (AuditRecord.format.write ⟨entry.inputs, entry.outputs, moment⟩)
  entry.outputs.foldl (produce entry.id) (entry.inputs.foldl (consume entry.id) stored)

/-- The audit that was told of these transactions, one after the other at one moment. -/
def ofEntries (moment : Moment) (entries : List AuditEntry) : Audit :=
  entries.foldl (fun audit e => audit.record moment e) empty

def get (audit : Audit) (transaction : Hash) : Except AuditError (Option AuditRecord) :=
  match audit.transactions.get? transaction with
  | none => .ok none
  | some stored =>
    match AuditRecord.ofBytes stored with
    | .ok r => .ok (some r)
    | .error cause => .error (.record cause)

def isUnspent (audit : Audit) (id : Hash) : Bool := audit.unspent.contains id

end Audit

end Admission
