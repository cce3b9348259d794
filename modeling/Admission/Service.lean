-- A sentinel at work: the requests that it is given in a rehearsal, side by
-- side, and its responses.
import Admission.Protocol
import Admission.Rehearsal

namespace Admission

variable [Crypto]

namespace Sentinel

/-- The response to a request: at once for another sentinel, and from the next of the `stages` for
a caller. There is none yet while the execution goes on. -/
def response (s : Sentinel) : Request → List Execution → Option Response × List Execution
  | .validate t, stages => (some (.validated (s.validate t)), stages)
  | .execute _, .answered verdict :: stages => (some (.executed verdict), stages)
  | .execute _, stages => (none, stages.drop 1)

/-- The responses to requests whose executions have come to these stages. -/
def responses (s : Sentinel) : List Request → List Execution → List (Option Response)
  | [], _ => []
  | r :: rest, stages =>
    let (response, stages) := s.response r stages
    response :: s.responses rest stages

/-- The transactions that requests ask to execute. -/
def executions : List Request → List Transaction :=
  List.filterMap fun r => match r with
    | .execute t => some t
    | .validate _ => none

/-- Works on requests side by side, for at most so many milliseconds. In no time nothing is begun
and nothing answered. -/
def work (s : Sentinel) (scene : Scene) (limit : Nat) (requests : List Request)
    (r : Rehearsal Execution) : List (Option Response) × Rehearsal Execution :=
  if limit = 0 then (requests.map fun _ => none, r)
  else
    let ts := executions requests
    let next := Rehearsal.perform s.actor scene .themselves s.gatherer.peers limit
      (ts.map fun t => (s.execute t, t.id)) r
    (s.responses requests (next.lastStages ts.length), next)

end Sentinel

end Admission
