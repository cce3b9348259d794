-- A fleet: sentinels of one list of endpoints that ask each other for
-- attestations, among coordinators that follow a script.
import Admission.Node
import Admission.Service

namespace Admission

/-- What a caller finds at the endpoint of a sentinel. -/
inductive Presence where
  | running
  | absent
  /-- Something else listens, and never answers. -/
  | displaced
deriving DecidableEq

/-- A coordinator of a fleet: where it listens, and what it does with the requests to come. Without
a script it refuses. -/
structure ScriptedCoordinator where
  endpoint : Endpoint
  script : List CoordinatorAct

/-- The coordinator after so many requests. The last entry of a script stays. -/
def ScriptedCoordinator.after (c : ScriptedCoordinator) (requests : Nat) : ScriptedCoordinator :=
  { c with script := c.script.drop (min requests (c.script.length - 1)) }

variable [Crypto]

structure Member where
  configuration : Configuration
  presence : Presence

structure Fleet where
  members : List Member
  coordinators : List ScriptedCoordinator

structure FleetAnswer where
  /-- Nothing, as long as the member is at work. -/
  response : Option (Except CallError Response)
  submitted : List Summary
  /-- The fleet as the next request finds it. -/
  fleet : Fleet

/-- What a member does when another one asks it to attest a transaction. -/
def Member.act (m : Member) (t : Transaction) : PeerAct :=
  match m.presence with
  | .absent => .unreachable
  | .displaced => .silent
  | .running =>
    match m.configuration.sentinel.validate t with
    | some a => .give a
    | none => .invalid

namespace Fleet

def act (f : Fleet) (e : Endpoint) (t : Transaction) : PeerAct :=
  match f.members.find? fun m => m.configuration.listener = e with
  | some m => m.act t
  | none => .unreachable

/-- Everyone around a member, as far as one transaction goes. -/
def scene (f : Fleet) (c : Configuration) (t : Transaction) : Scene where
  peers := c.peers.map fun e => ⟨.ofSecret (.zeros 32), [f.act e t], false⟩
  coordinator :=
    ((f.coordinators.find? fun k => k.endpoint = c.coordinator).map (·.script)).getD []

/-- Sends a request to a member and waits for at most so many milliseconds. -/
def answer (f : Fleet) (m : Member) (limit : Nat) (request : Request) : FleetAnswer :=
  match m.presence with
  | .absent => ⟨some (.error .unreachable), [], f⟩
  | .displaced => ⟨none, [], f⟩
  | .running =>
    let c := m.configuration
    let scene := f.scene c request.transaction
    let (responses, r) := c.sentinel.work scene limit [request] (.start scene)
    let coordinators := f.coordinators.map fun k =>
      if k.endpoint = c.coordinator then k.after r.attempts else k
    ⟨responses.head?.join.map .ok, r.accepted, { f with coordinators }⟩

def run (f : Fleet) (limit : Nat) : List (Member × Request) → List FleetAnswer
  | [] => []
  | (m, request) :: rest =>
    let answer := f.answer m limit request
    answer :: answer.fleet.run limit rest

end Fleet

end Admission
