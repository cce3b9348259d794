-- Gathering a quorum: peers are drawn and asked one at a time, and when nobody
-- that is left can be reached there is a pause, which grows while that goes on.
-- The gathering is a machine with stages; what the surroundings do to it is
-- handed in, so every behaviour of the peers is a list of happenings.
import Admission.Quorum

namespace Admission

/-! ## What comes back -/

/-- The answer of a peer that a request was delivered to. -/
inductive PeerAnswer where
  | attestation (a : Attestation)
  | invalid
  | unreachable
  | failure
deriving DecidableEq

inductive Delivery where
  | answered (answer : PeerAnswer)
  | timedOut
  /-- There is no such peer, or what would have carried the request is gone. -/
  | undelivered
deriving DecidableEq

/-- What a request means for the gathering. -/
inductive Reply where
  | attested (a : Attestation)
  | invalid
  /-- The request did not go out, so the peer may be asked again. -/
  | notDispatched
  | noAnswer
deriving DecidableEq

/-- Reads what became of a request for the transaction with this identifier. -/
def Delivery.reply [Crypto] (transaction : Hash) : Delivery → Reply
  | .answered (.attestation a) => if a.verify transaction then .attested a else .noAnswer
  | .answered .invalid => .invalid
  | .answered .unreachable => .notDispatched
  | .answered .failure => .noAnswer
  | .timedOut => .noAnswer
  | .undelivered => .notDispatched

/-! ## Pauses -/

def longestPauseFactor : Nat := 32

/-- How many times the shortest pause a pause lasts, after so many in a row. -/
def pauseFactor (pauses : Nat) : Nat :=
  if pauses < 32 then min (1 <<< pauses) longestPauseFactor else longestPauseFactor

/-- Pauses in a row are counted up to here. -/
def pauseCountLimit : Nat := 0xffffffff

/-! ## The machine -/

/-- How a sentinel gathers. Times are in milliseconds. -/
structure Gatherer where
  peers : Nat
  threshold : Nat
  peerTimeout : Nat
  retryDelay : Nat
deriving DecidableEq

structure Progress where
  quorum : QuorumState
  failed : List Nat
  /-- The pauses since the last attestation. -/
  pauses : Nat
deriving DecidableEq

inductive Gathered where
  | reached (summary : Summary)
  | invalidated (peer : Nat)
  | unreachable
deriving DecidableEq

inductive Gathering where
  | deciding (p : Progress)
  | asking (p : Progress) (peer : Nat)
  | pausing (p : Progress) (milliseconds : Nat)
  | ended (result : Gathered)
deriving DecidableEq

namespace Gatherer

def pauseLength (g : Gatherer) (pauses : Nat) : Nat := g.retryDelay * pauseFactor pauses

end Gatherer

namespace Progress

def start (summary : Summary) : Progress := ⟨.start summary, [], 0⟩

/-- After a reply that leaves the transaction valid. -/
def replied (p : Progress) (peer : Nat) : Reply → Progress
  | .attested a => ⟨p.quorum.attested peer a, [], 0⟩
  | .notDispatched => { p with failed := peer :: p.failed }
  | .noAnswer => { p with quorum := p.quorum.unanswered peer }
  | .invalid => p

def rested (p : Progress) : Progress :=
  { p with failed := [], pauses := min (p.pauses + 1) pauseCountLimit }

end Progress

namespace Gathering

def start (summary : Summary) : Gathering := .deciding (.start summary)

/-- The stage that a decision leads to; none if the random numbers do not last. -/
def decide (g : Gatherer) (p : Progress) (randoms : List Nat) : Option Gathering :=
  (p.quorum.step g.threshold g.peers p.failed randoms).map fun
    | .ask peer => .asking p peer
    | .backoff => .pausing p (g.pauseLength p.pauses)
    | .reached summary => .ended (.reached summary)
    | .exhausted => .ended .unreachable

def receive (p : Progress) (peer : Nat) (reply : Reply) : Gathering :=
  match reply with
  | .invalid => .ended (.invalidated peer)
  | reply => .deciding (p.replied peer reply)

end Gathering

end Admission
