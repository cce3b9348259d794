-- What the audit keeps of one transaction, and how it is stored: two counted
-- lists of identifiers, each count in eight bytes, and the time behind them.
import Admission.Format
import Admission.Summary

namespace Admission

/-- A moment: seconds on the international atomic time scale, counted from 2^62 for 1970, and
nanoseconds. -/
structure Moment where
  seconds : Nat
  nanoseconds : Nat
deriving DecidableEq

namespace Moment

/-- The seconds that can be labelled, and the nanoseconds of one of them. -/
def inRange (m : Moment) : Bool := decide (m.seconds ≤ 0x8000000000000000) && decide (m.nanoseconds < 1000000000)

/-- Twelve bytes, the seconds first, both numbers with the highest byte first. -/
def format : Format Moment :=
  ((Format.highFirst 8).pair (Format.highFirst 4)).accept
    (fun p => if inRange ⟨p.1, p.2⟩ then .ok ⟨p.1, p.2⟩ else .error .time)
    (fun m => (m.seconds, m.nanoseconds))

end Moment

structure AuditRecord where
  inputs : List Hash
  outputs : List Hash
  recordedAt : Moment
deriving DecidableEq

namespace AuditRecord

/-- Identifiers behind their number. -/
def hashesFormat : Format (List Hash) := Format.list (Format.lowFirst 8) (Format.bytes 32)

def format : Format AuditRecord :=
  (hashesFormat.pair (hashesFormat.pair Moment.format)).view
    (fun p => ⟨p.1, p.2.1, p.2.2⟩)
    (fun r => (r.inputs, r.outputs, r.recordedAt))

/-- Reads a stored record. Bytes behind it do not matter. -/
def ofBytes (stored : List UInt8) : Except ReadError AuditRecord :=
  (format.read stored).map (·.1)

/-! ## Laws -/

/-- The numbers of a moment fit their bytes if it is in range. -/
theorem moment_readsBack : Moment.format.ReadsBack fun m => m.inRange = true := by
  intro m rest h
  have hr := h
  simp only [Moment.inRange, Bool.and_eq_true, decide_eq_true_eq] at hr
  refine Format.accept_readsBack
    (Format.pair_readsBack (Format.highFirst_readsBack 8) (Format.highFirst_readsBack 4)) m rest
    ⟨⟨?_, ?_⟩, ?_⟩
  · show m.seconds < 0x10000000000000000
    omega
  · show m.nanoseconds < 0x100000000
    omega
  · simp [h]

/-- A record whose time is in range and whose lists can be counted in eight bytes is read back. -/
theorem format_readsBack : format.ReadsBack fun r =>
    r.inputs.length < bytesLimit 8 ∧ r.outputs.length < bytesLimit 8 ∧
      r.recordedAt.inRange = true := by
  have hashes : hashesFormat.ReadsBack fun hs => hs.length < bytesLimit 8 := fun hs rest h =>
    Format.list_readsBack (Format.lowFirst_readsBack 8) (Format.bytes_readsBack 32) hs rest
      ⟨h, fun _ _ => trivial⟩
  intro r rest h
  exact Format.view_readsBack
    (Format.pair_readsBack hashes (Format.pair_readsBack hashes moment_readsBack))
    (fun _ => rfl) r rest h

end AuditRecord

end Admission
