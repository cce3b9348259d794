-- One request over a connection of its own: the connection is opened within a
-- limit, the request is written, and the first message that comes back is the
-- answer. What the other end does is handed in. Times are in milliseconds and
-- count from the moment at which whoever makes the request takes it up.
import Admission.Wire.Frame

namespace Admission

/-! ## The other end -/

/-- How the opening of a connection goes if it is given all the time it takes. -/
inductive Opening where
  | opens (after : Nat)
  | refused (after : Nat)
  | pending
deriving DecidableEq

/-- How long an opening takes that is given up at a limit, and whether it succeeds. -/
def Opening.within (limit : Nat) : Opening → Nat × Bool
  | opens after => (min after limit, decide (after < limit))
  | refused after => (min after limit, false)
  | pending => (limit, false)

/-- What comes behind the last byte of an answer. -/
inductive StreamEnd where
  | closed
  | broken
  /-- Nothing more comes, and the stream stays open. -/
  | silent
deriving DecidableEq

structure OtherEnd where
  opening : Opening
  /-- The bytes of the request that can be written, if there is a bound. -/
  room : Option Nat
  answer : List (List UInt8)
  ending : StreamEnd
  /-- How long after the opening the first message, or what is there in its place, has come. -/
  delay : Nat
deriving DecidableEq

/-! ## The exchange -/

inductive Received (α : Type) where
  | unopened
  /-- The request could not be written as a whole. -/
  | unwritten
  | message (a : α)
  | faulty (fault : StreamFault)
  | ended
  | broken
  | nothing
deriving DecidableEq

structure Exchange (α : Type) where
  written : List UInt8
  received : Received α
  lasts : Nat
deriving DecidableEq

namespace OtherEnd

variable {α β : Type}

def firstReceived (o : OtherEnd) (f : Format α) : Received α :=
  let inbox := o.answer.foldl (Wire.Inbox.receive f) Wire.Inbox.empty
  match inbox.messages, inbox.fault, o.ending with
  | a :: _, _, _ => .message a
  | [], some fault, _ => .faulty fault
  | [], none, .closed =>
    match inbox.close.fault with
    | some fault => .faulty fault
    | none => .ended
  | [], none, .broken => .broken
  | [], none, .silent => .nothing

/-- Sends a request and waits for the answer. A request that is too long for a frame is not
written at all. -/
def exchange (o : OtherEnd) (limit : Nat) (f : Format α) (g : Format β) (request : α) : Exchange β :=
  let (time, opened) := o.opening.within limit
  if !opened then ⟨[], .unopened, time⟩
  else
    match Wire.send f request with
    | none => ⟨[], .unwritten, time⟩
    | some bytes =>
      let room := o.room.getD bytes.length
      if room < bytes.length then ⟨bytes.take room, .unwritten, time⟩
      else ⟨bytes, o.firstReceived g, time + o.delay⟩

theorem firstReceived_ne_unopened (o : OtherEnd) (f : Format α) :
    o.firstReceived f ≠ .unopened := by
  simp only [firstReceived]
  split <;> try split
  all_goals simp

end OtherEnd

end Admission
