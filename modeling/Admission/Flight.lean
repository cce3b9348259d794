-- Transactions in flight: a sentinel handles several at a time, and the peers of
-- all of them are drawn from one selector. A number that one handling takes is gone
-- for the others; everything else belongs to one handling.
import Admission.Execution

namespace Admission

namespace Happening

def isDraw : Happening → Bool
  | drew _ => true
  | _ => false

def drawn : Happening → List Nat
  | drew randoms => randoms
  | _ => []

end Happening

/-- The handling of one transaction, as far as it has come. -/
structure Handling where
  transaction : Transaction
  stage : Execution
  /-- The numbers that were taken so far for the decision that is being made. -/
  taken : List Nat
deriving DecidableEq

/-- All that one sentinel is handling. -/
structure Flight where
  /-- The numbers that the selector is going to give, to whoever draws first. -/
  randoms : List Nat
  handlings : List Handling
  /-- The numbers that were taken, each with the place of the handling that took it. -/
  drawn : List (Nat × Nat)
  /-- The messages that went out, each with the place of the handling that sent it. -/
  sent : List (Nat × Message)
deriving DecidableEq

inductive FlightEvent where
  | begins (t : Transaction)
  /-- The handling at a place goes on with its decision. -/
  | decides (index : Nat)
  /-- This happens to the handling at a place. -/
  | meets (index : Nat) (h : Happening)
deriving DecidableEq

namespace FlightEvent

def begun : FlightEvent → Option Transaction
  | begins t => some t
  | _ => none

def metBy (index : Nat) : FlightEvent → Option Happening
  | meets i h => if i = index then some h else none
  | _ => none

end FlightEvent

/-- What happens from outside to the handling at a place, in order. -/
def happeningsAt (index : Nat) (es : List FlightEvent) : List Happening :=
  es.filterMap (FlightEvent.metBy index)

/-- What belongs to one place, of a log in which each entry has a place. -/
def entriesAt {α : Type} (index : Nat) (log : List (Nat × α)) : List α :=
  (log.filter fun entry => entry.1 = index).map (·.2)

namespace Flight

def start (randoms : List Nat) : Flight := ⟨randoms, [], [], []⟩

def moveTo (f : Flight) (index : Nat) (e : Handling) (stage : Execution) : Flight :=
  { f with
    handlings := f.handlings.set index ⟨e.transaction, stage, []⟩
    sent := f.sent ++ stage.message.toList.map fun m => (index, m) }

def take (f : Flight) (index : Nat) (e : Handling) : Option Flight :=
  match f.randoms with
  | [] => none
  | random :: rest =>
    some { f with
      randoms := rest
      handlings := f.handlings.set index { e with taken := e.taken ++ [random] }
      drawn := f.drawn ++ [(index, random)] }

variable [Crypto]

/-- Lets a handling decide if the numbers that it took are enough, and take another one if they
are not. -/
def decide (s : Sentinel) (f : Flight) (index : Nat) (e : Handling) : Option Flight :=
  match e.stage with
  | .gathering (.deciding p) =>
    match Gathering.decide s.gatherer p e.taken with
    | some next => some (f.moveTo index e (.ofGathering next))
    | none => f.take index e
  | _ => none

def add (s : Sentinel) (f : Flight) (t : Transaction) : Flight :=
  { f with
    handlings := f.handlings ++ [⟨t, s.execute t, []⟩]
    sent := f.sent ++ (s.execute t).message.toList.map fun m => (f.handlings.length, m) }

/-- The flight after an event; none if it cannot happen. What a handling draws it has to take from
the selector. -/
def after (s : Sentinel) (f : Flight) : FlightEvent → Option Flight
  | .begins t => some (f.add s t)
  | .decides index => f.handlings[index]?.bind (f.decide s index)
  | .meets index h =>
    f.handlings[index]?.bind fun e =>
      if h.isDraw then none else (e.stage.after s.gatherer h).map (f.moveTo index e)

/-- Where a sentinel stands that begins with nothing in flight. -/
def run (s : Sentinel) (randoms : List Nat) (es : List FlightEvent) : Option Flight :=
  Run.reach (after s) (start randoms) es

end Flight

end Admission
