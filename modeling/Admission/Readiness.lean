-- Waiting for the coordinator at the start. It is tried a bounded number of
-- times, and the wait between two attempts doubles each time. A wait that cannot
-- be doubled ends the program.
import Admission.Failure
import Admission.Span

namespace Admission

inductive Probing where
  | reached
  | failed
  /-- What would have carried the attempt is gone. -/
  | undelivered
deriving DecidableEq

inductive Readiness where
  | ready
  | unreachable
  /-- A wait was doubled beyond what a wait can last. -/
  | overflow
deriving DecidableEq

/-- How the attempts went. Times are in milliseconds. -/
structure Preparation where
  readiness : Readiness
  attempts : List Probing
  waits : List Nat
deriving DecidableEq

/-- All waits are shorter than this: whole seconds fit 64 bits. -/
def waitLimit : Nat := 0x10000000000000000 * 1000

namespace Preparation

def elapsed (p : Preparation) : Nat := (p.waits.map restLength).foldr (· + ·) 0

def delivered (p : Preparation) : Nat := (p.attempts.filter (· ≠ .undelivered)).length

/-- Makes the `remaining` attempts, the `k`-th of all being answered by `answer k`. The wait is
doubled as soon as it is over. -/
def attempt (answer : Nat → Probing) (k wait : Nat) : (remaining : Nat) → Preparation
  | 0 => ⟨.unreachable, [], []⟩
  | remaining + 1 =>
    if answer k = .reached then ⟨.ready, [.reached], []⟩
    else if remaining = 0 then ⟨.unreachable, [answer k], []⟩
    else if waitLimit ≤ 2 * wait then ⟨.overflow, [answer k], [wait]⟩
    else
      let later := attempt answer (k + 1) (2 * wait) remaining
      ⟨later.readiness, answer k :: later.attempts, wait :: later.waits⟩

/-- Tries to reach the coordinator up to `attempts` times, with a first wait of `wait`. -/
def run (attempts wait : Nat) (answer : Nat → Probing) : Preparation :=
  attempt answer 0 wait attempts

/-- Whether the coordinator was reached. A wait that was doubled too often is no answer to that: the
program panics. -/
def result (p : Preparation) : Except Panic Bool :=
  match p.readiness with
  | .ready => .ok true
  | .unreachable => .ok false
  | .overflow => .error .spanOverflow

end Preparation

end Admission
