-- The messages between callers, sentinels and the coordinator.
import Admission.Execution

namespace Admission

inductive Request where
  /-- To take a transaction all the way to the coordinator. -/
  | execute (t : Transaction)
  /-- To check a transaction for another sentinel, and to attest it. -/
  | validate (t : Transaction)
deriving DecidableEq

inductive Response where
  /-- The verdict, if there is one. -/
  | executed (verdict : Option Verdict)
  | validated (attestation : Option Attestation)
  /-- The sentinel cannot work on requests. -/
  | unavailable
deriving DecidableEq

inductive CoordinatorRequest where
  | execute (summary : Summary)
deriving DecidableEq

/-- What the coordinator answers: whether it committed, if that is known. -/
inductive CoordinatorResponse where
  | outcome (committed : Option Bool)
deriving DecidableEq

namespace Request

def transaction : Request → Transaction
  | execute t => t
  | validate t => t

/-- The answer to a request, where `verdict` is what becomes of a transaction that is executed. -/
def answer [Crypto] (s : Sentinel) (verdict : Transaction → Option Verdict) : Request → Response
  | execute t => .executed (verdict t)
  | validate t => .validated (s.validate t)

end Request

end Admission
