-- The handling of one transaction from the caller's request to the answer:
-- check it, gather a quorum, submit it, and say what happened. It is a machine
-- that moves on one happening at a time, so that many of them may run side by
-- side in any order.
import Admission.Gathering
import Admission.Run
import Admission.Violation

namespace Admission

/-! ## Answers -/

inductive Status where
  | confirmed
  /-- The transaction breaks a static rule. -/
  | staticInvalid
  /-- A peer or the coordinator rejected it. -/
  | stateInvalid
deriving DecidableEq

/-- What a caller is told of a transaction. -/
structure Verdict where
  status : Status
  violation : Option Violation
deriving DecidableEq

namespace Verdict

def confirmed : Verdict := ⟨.confirmed, none⟩

def stateInvalid : Verdict := ⟨.stateInvalid, none⟩

def staticInvalid (v : Violation) : Verdict := ⟨.staticInvalid, some v⟩

/-- The verdict that an outcome of the coordinator means. No outcome stays no verdict. -/
def ofOutcome : Option Bool → Option Verdict
  | some true => some confirmed
  | some false => some stateInvalid
  | none => none

@[simp] theorem ofOutcome_eq_confirmed (outcome : Option Bool) :
    ofOutcome outcome = some confirmed ↔ outcome = some true := by
  rcases outcome with _ | _ | _ <;> simp [ofOutcome, confirmed, stateInvalid]

@[simp] theorem ofOutcome_eq_stateInvalid (outcome : Option Bool) :
    ofOutcome outcome = some stateInvalid ↔ outcome = some false := by
  rcases outcome with _ | _ | _ <;> simp [ofOutcome, confirmed, stateInvalid]

@[simp] theorem ofOutcome_eq_none (outcome : Option Bool) :
    ofOutcome outcome = none ↔ outcome = none := by
  rcases outcome with _ | _ | _ <;> simp [ofOutcome]

end Verdict

/-! ## Handing over -/

/-- A summary on its way to the coordinator. An attempt that is not accepted is made again after a
pause, for as long as it takes; an accepted one is final. -/
inductive Submission where
  | attempting (summary : Summary)
  | pausing (summary : Summary)
  /-- The outcome is awaited. -/
  | accepted (summary : Summary)
  | ended (outcome : Option Bool)
deriving DecidableEq

namespace Submission

def start (summary : Summary) : Submission := .attempting summary

end Submission

/-! ## The machine -/

inductive Execution where
  | gathering (g : Gathering)
  | submitting (s : Submission)
  | answered (verdict : Option Verdict)
deriving DecidableEq

/-- Something that the surroundings do. -/
inductive Happening where
  /-- The selector draws these random numbers. -/
  | drew (randoms : List Nat)
  /-- A request to a peer came to this. -/
  | replied (delivery : Delivery)
  | rested
  /-- The coordinator did not accept the attempt. -/
  | refused
  | accepted
  /-- The outcome of an accepted attempt came, be it known or not. -/
  | concluded (outcome : Option Bool)
  /-- Whoever was to deliver the outcome is gone. -/
  | dropped
deriving DecidableEq

inductive Message where
  | requestAttestation (peer : Nat)
  /-- The coordinator is handed the summary. -/
  | submit (summary : Summary)
  /-- The audit is told of an accepted summary. -/
  | record (summary : Summary)
deriving DecidableEq

namespace Execution

/-- The end of a gathering leads on to the submission or to the answer. -/
def settle : Gathered → Execution
  | .reached summary => .submitting (.start summary)
  | .invalidated _ => .answered (some .stateInvalid)
  | .unreachable => .answered none

/-- A stage of the gathering, its end being passed over. -/
def ofGathering : Gathering → Execution
  | .ended result => settle result
  | stage => .gathering stage

/-- A stage of the submission, its end being passed over. -/
def ofSubmission : Submission → Execution
  | .ended outcome => .answered (Verdict.ofOutcome outcome)
  | stage => .submitting stage

end Execution

/-- The stage after a happening; none if such a thing cannot happen there. What a peer signed is
looked at here, against the transaction that the gathering is about. -/
def Gathering.after [Crypto] (g : Gatherer) : Gathering → Happening → Option Gathering
  | .deciding p, .drew randoms => Gathering.decide g p randoms
  | .asking p peer, .replied delivery =>
    some (Gathering.receive p peer (delivery.reply p.quorum.summary.id))
  | .pausing p _, .rested => some (.deciding p.rested)
  | _, _ => none

def Submission.after : Submission → Happening → Option Submission
  | .attempting s, .refused => some (.pausing s)
  | .attempting s, .accepted => some (.accepted s)
  | .pausing s, .rested => some (.attempting s)
  | .accepted _, .concluded outcome => some (.ended outcome)
  | .accepted _, .dropped => some (.ended none)
  | _, _ => none

namespace Execution

def after [Crypto] (g : Gatherer) : Execution → Happening → Option Execution
  | .gathering stage, h => (stage.after g h).map ofGathering
  | .submitting stage, h => (stage.after h).map ofSubmission
  | .answered _, _ => none

def message : Execution → Option Message
  | .gathering (.asking _ peer) => some (.requestAttestation peer)
  | .submitting (.attempting s) => some (.submit s)
  | .submitting (.accepted s) => some (.record s)
  | _ => none

end Execution

/-! ## A sentinel -/

variable [Crypto]

/-- What a sentinel decides by: its key, if it has one, how it gathers, and how long it waits
before it hands over a summary again. -/
structure Sentinel where
  keypair : Option Keypair
  gatherer : Gatherer
  retryDelay : Nat

namespace Sentinel

/-- The summary that gathering starts from: attested by the sentinel itself where attestations
are required and it has a key. -/
def firstSummary (s : Sentinel) (t : Transaction) : Summary :=
  let summary := Summary.ofTransaction t
  if 0 < s.gatherer.threshold then
    match s.keypair with
    | some pair => summary.attest (summary.sign pair)
    | none => summary
  else summary

/-- The first stage of handling a transaction. -/
def execute (s : Sentinel) (t : Transaction) : Execution :=
  match t.violation with
  | some v => .answered (some (.staticInvalid v))
  | none => .gathering (.start (s.firstSummary t))

/-- The answer to a peer that asks for an attestation: none if the transaction is invalid, and
none without a key. -/
def validate (s : Sentinel) (t : Transaction) : Option Attestation :=
  match t.violation with
  | some _ => none
  | none => s.keypair.map (Summary.ofTransaction t).sign

end Sentinel

/-! ## Runs -/

/-- Where the gathering for a summary stands after these happenings; none if one of them cannot
happen. -/
def Gatherer.run (g : Gatherer) (start : Summary) (hs : List Happening) : Option Gathering :=
  Run.reach (Gathering.after g) (.start start) hs

/-- The peer whose request came to something, and to what. -/
def Gathering.reply? : Gathering × Happening → Option (Nat × Delivery)
  | (.asking _ peer, .replied delivery) => some (peer, delivery)
  | _ => none

/-- What the requests of a gathering came to, in order. -/
def Gatherer.replies (g : Gatherer) (start : Summary) (hs : List Happening) :
    List (Nat × Delivery) :=
  (Run.history (Gathering.after g) (.start start) hs).filterMap Gathering.reply?

/-- Where the submission of a summary stands. -/
def Submission.run (summary : Summary) (hs : List Happening) : Option Submission :=
  Run.reach Submission.after (.start summary) hs

namespace Sentinel

def run (s : Sentinel) (t : Transaction) (hs : List Happening) : Option Execution :=
  Run.reach (Execution.after s.gatherer) (s.execute t) hs

/-- The messages that go out in the handling of a transaction, in order. -/
def sent (s : Sentinel) (t : Transaction) (hs : List Happening) : List Message :=
  (Run.stages (Execution.after s.gatherer) (s.execute t) hs).filterMap Execution.message

/-- What the requests to peers come to in the handling of a transaction, in order. -/
def replies (s : Sentinel) (t : Transaction) (hs : List Happening) : List (Nat × Delivery) :=
  s.gatherer.replies (s.firstSummary t) hs

end Sentinel

end Admission
