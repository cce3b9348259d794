-- The start of a sentinel. It goes on without an audit that cannot be opened,
-- and without a coordinator that does not answer; only a place to listen it
-- cannot do without.
import Admission.Audit
import Admission.Client
import Admission.Readiness
import Admission.Server

namespace Admission

/-- What a sentinel finds when it starts. -/
structure Conditions where
  auditOpens : String → Bool
  coordinator : Nat → Probing
  /-- Why the sentinel cannot listen, if it cannot. -/
  listening : Option SystemFailure

inductive StartError where
  | listener (cause : SystemFailure)
  | panic (cause : Panic)
deriving DecidableEq

variable [Crypto]

structure Node where
  sentinel : Sentinel
  /-- Where accepted transactions are recorded, if they are. -/
  audit : Option String

namespace Configuration

def prepare (c : Configuration) (found : Conditions) : Preparation :=
  Preparation.run c.initAttempts.toNat c.initDelay.toNat found.coordinator

/-- Starts a sentinel. Whether the coordinator was reached makes no difference to it. -/
def start (c : Configuration) (found : Conditions) : Except StartError Node :=
  match (c.prepare found).result, found.listening with
  | .error cause, _ => .error (.panic cause)
  | .ok _, some cause => .error (.listener cause)
  | .ok _, none => .ok ⟨c.sentinel, c.auditPath.filter found.auditOpens⟩

end Configuration

end Admission
