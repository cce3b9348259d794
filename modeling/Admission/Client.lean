-- The clients of a sentinel: to another sentinel, and to the coordinator. What
-- an exchange means differs between the two. A peer that was not reached may be
-- asked again, and a coordinator that was not handed the whole request has not
-- accepted it.
import Admission.Exchange
import Admission.Failure
import Admission.Wire.Messages

namespace Admission

/-! ## To a sentinel -/

/-- Why a request to a sentinel has no answer. -/
inductive CallError where
  | unreachable
  | unwritten
  | faulty (fault : StreamFault)
  | broken
  | emptyResponse
  | invalidResponse
deriving DecidableEq

def CallError.kind : CallError → String
  | unreachable => Failure.unreachable.kind
  | unwritten | faulty _ | broken => (Failure.channel "").kind
  | emptyResponse => Failure.emptyResponse.kind
  | invalidResponse => Failure.invalidResponse.kind

namespace Received

/-- The response of a sentinel, unless nothing ever comes. -/
def response {α : Type} : Received α → Option (Except CallError α)
  | unopened => some (.error .unreachable)
  | unwritten => some (.error .unwritten)
  | message a => some (.ok a)
  | faulty fault => some (.error (.faulty fault))
  | ended => some (.error .emptyResponse)
  | broken => some (.error .broken)
  | nothing => none

/-- The answer to a request for an attestation. -/
def acknowledgement (r : Received Response) : Option (Except CallError (Option Attestation)) :=
  r.response.map fun
    | .ok (.validated attestation) => .ok attestation
    | .ok _ => .error .invalidResponse
    | .error e => .error e

end Received

/-- What a gathering makes of the answer of a peer. -/
def PeerAnswer.ofAcknowledgement : Except CallError (Option Attestation) → PeerAnswer
  | .ok (some a) => .attestation a
  | .ok none => .invalid
  | .error .unreachable => .unreachable
  | .error _ => .failure

/-- What becomes of a request for an attestation that is waited for at most so long. The waiting
begins when the request is sent, and the exchange a while later, when the client takes it up. What
has come by the end of the waiting and not before counts as late. -/
def Exchange.delivery (e : Exchange Response) (handover peerTimeout : Nat) : Delivery :=
  match e.received.acknowledgement with
  | none => .timedOut
  | some answer =>
    if handover + e.lasts < peerTimeout then .answered (.ofAcknowledgement answer) else .timedOut

namespace OtherEnd

def reachable (o : OtherEnd) (limit : Nat) : Bool := (o.opening.within limit).2

def call [Crypto] (o : OtherEnd) (limit : Nat) (request : Request) : Exchange Response :=
  o.exchange limit Wire.request Wire.response request

def delivery [Crypto] (o : OtherEnd) (handover connectTimeout peerTimeout : Nat)
    (t : Transaction) : Delivery :=
  (o.call connectTimeout (.validate t)).delivery handover peerTimeout

/-! ## To the coordinator -/

def submit [Crypto] (o : OtherEnd) (limit : Nat) (s : Summary) : Exchange CoordinatorResponse :=
  o.exchange limit Wire.coordinatorRequest Wire.coordinatorResponse (.execute s)

end OtherEnd

namespace Received

/-- Whether the coordinator has the whole request. -/
def accepted : Received CoordinatorResponse → Bool
  | unopened | unwritten => false
  | _ => true

/-- The outcome of an accepted submission, unless nothing ever comes. A connection that is lost
gives no outcome. -/
def outcome : Received CoordinatorResponse → Option (Option Bool)
  | message (.outcome committed) => some committed
  | nothing => none
  | _ => some none

/-- What an attempt to submit does to the submission. -/
def happenings (r : Received CoordinatorResponse) : List Happening :=
  if r.accepted then .accepted :: (r.outcome.map Happening.concluded).toList else [.refused]

end Received

end Admission
