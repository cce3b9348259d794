-- The quorum of one transaction: whom to ask next, and when to stop. A state is
-- never changed in place, so what one branch asked is unknown to every other.
import Admission.Summary

namespace Admission

inductive Step where
  | ask (peer : Nat)
  | backoff
  | reached (summary : Summary)
  /-- Every peer was asked, and there are still not enough. -/
  | exhausted
deriving DecidableEq

structure QuorumState where
  summary : Summary
  /-- The peers that attested, in the order in which they were asked. -/
  requested : List Nat
  /-- The peers that were asked and gave no usable answer. -/
  unresponsive : List Nat
deriving DecidableEq

/-- The peer that a random number stands for, among `n` of them. -/
def drawPeer (n random : Nat) : Option Nat := if n = 0 then none else some (random % n)

namespace QuorumState

def start (summary : Summary) : QuorumState := ⟨summary, [], []⟩

def excludes (q : QuorumState) (peer : Nat) : Bool :=
  q.requested.contains peer || q.unresponsive.contains peer

/-- The peers among `n` that may still be asked. -/
def remaining (q : QuorumState) (n : Nat) : List Nat :=
  (List.range n).filter fun peer => !q.excludes peer

/-- The peers that a request may go to: they remain and have not failed. -/
def candidates (q : QuorumState) (n : Nat) (failed : List Nat) : List Nat :=
  (q.remaining n).filter fun peer => !failed.contains peer

/-- Draws until a peer comes up that may be asked. There is no answer if the random numbers
do not last. -/
def draw (q : QuorumState) (n : Nat) (failed : List Nat) : (randoms : List Nat) → Option Step
  | [] => none
  | random :: rest =>
    match drawPeer n random with
    | none => some .exhausted
    | some peer =>
      if q.excludes peer || failed.contains peer then q.draw n failed rest else some (.ask peer)

/-- The next step towards `threshold` attestations from `n` peers, where those in `failed`
could not be reached since the state last changed. -/
def step (q : QuorumState) (threshold n : Nat) (failed randoms : List Nat) : Option Step :=
  if threshold ≤ q.summary.attestations.size then some (.reached q.summary)
  else if (q.remaining n).isEmpty then some .exhausted
  else if (q.remaining n).all failed.contains then some .backoff
  else q.draw n failed randoms

/-- The state after a peer answered with an attestation, be it a new one or not. -/
def attested (q : QuorumState) (peer : Nat) (a : Attestation) : QuorumState :=
  { q with summary := q.summary.attest a, requested := q.requested ++ [peer] }

def unanswered (q : QuorumState) (peer : Nat) : QuorumState :=
  { q with unresponsive := q.unresponsive ++ [peer] }

end QuorumState

end Admission
