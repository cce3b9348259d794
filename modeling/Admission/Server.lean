-- The server of a sentinel. A connection carries any number of requests, which
-- are answered in order, and ends with the first frame that is no request. What
-- one connection carries does not touch another.
import Admission.Wire.Frame
import Admission.Wire.Messages

namespace Admission

namespace Server

variable [Crypto]

/-- The requests of a connection whose bytes arrive in these pieces. -/
def requests (pieces : List (List UInt8)) : List Request :=
  (Wire.Inbox.ofStream Wire.request pieces).messages

/-- The responses on a connection, one for each request. -/
def responses {m : Type → Type} [Monad m] (answer : Request → m Response)
    (pieces : List (List UInt8)) : m (List Response) :=
  (requests pieces).mapM answer

def serve {m : Type → Type} [Monad m] (answer : Request → m Response)
    (pieces : List (List UInt8)) : m (List UInt8) := do
  return Wire.sendAll Wire.response (← responses answer pieces)

/-- Nothing is behind the server that could answer. -/
def idle (_ : Request) : Response := .unavailable

end Server

end Admission
