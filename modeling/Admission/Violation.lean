-- The static rules of a transaction, which need no ledger and so are the same
-- on every sentinel. The first broken rule is reported.
import Admission.Transaction

namespace Admission

inductive Violation where
  | noInputs
  | noOutputs
  | missingWitness (inputs witnesses : Nat)
  /-- The input at this position spends what an earlier one spends. -/
  | duplicateInput (index : Nat)
  | zeroValueOutput (index : Nat)
  | valueOverflow
  | asymmetricValues (inputs outputs : Nat)
  /-- The key of this witness is not the one its input is locked to. -/
  | witnessLockMismatch (index : Nat)
  | invalidWitnessSignature (index : Nat)
deriving DecidableEq

namespace Violation

def message : Violation → String
  | noInputs => "transaction has no inputs"
  | noOutputs => "transaction has no outputs"
  | missingWitness inputs witnesses =>
    toString witnesses ++ " witnesses for " ++ toString inputs ++ " inputs"
  | duplicateInput index => "input " ++ toString index ++ " is a duplicate"
  | zeroValueOutput index => "output " ++ toString index ++ " has zero value"
  | valueOverflow => "value sum overflows"
  | asymmetricValues inputs outputs =>
    "inputs sum to " ++ toString inputs ++ " but outputs sum to " ++ toString outputs
  | witnessLockMismatch index =>
    "witness " ++ toString index ++ " does not match the lock of its input"
  | invalidWitnessSignature index => "witness " ++ toString index ++ " has an invalid signature"

end Violation

/-! ## The rules -/

/-- Amounts, and sums of them, stay below this. -/
def amountLimit : Nat := 0x10000000000000000

/-- The position of the first member that equals an earlier one or one of `seen`. -/
def firstRepeated {α : Type} [DecidableEq α] (seen : List α) : List α → Option Nat
  | [] => none
  | x :: rest => if x ∈ seen then some 0 else (firstRepeated (x :: seen) rest).map (· + 1)

/-- The sum of two amounts, unless it is no amount. -/
def addAmounts (a b : UInt64) : Option UInt64 :=
  if a.toNat + b.toNat < amountLimit then some (a + b) else none

/-- The sum of amounts, added up one after the other; none if it is too large on the way. -/
def sumAmounts (amounts : List UInt64) : Option UInt64 :=
  amounts.foldl (fun sum a => sum.bind fun sum => addAmounts sum a) (some 0)

namespace Transaction

/-- There are inputs and outputs, a witness for each input, and no outpoint twice. -/
def shapeViolation (t : Transaction) : Option Violation :=
  if t.inputs.isEmpty then some .noInputs
  else if t.outputs.isEmpty then some .noOutputs
  else if t.witnesses.length ≠ t.inputs.length then
    some (.missingWitness t.inputs.length t.witnesses.length)
  else (firstRepeated [] (t.inputs.map (·.outpoint))).map .duplicateInput

/-- Every output has a value, and the inputs and outputs have one sum, which is an amount. -/
def valueViolation (t : Transaction) : Option Violation :=
  match t.outputs.findIdx? (·.value = 0) with
  | some index => some (.zeroValueOutput index)
  | none =>
    match sumAmounts (t.inputs.map (·.spent.value)), sumAmounts (t.outputs.map (·.value)) with
    | some inputs, some outputs =>
      if inputs = outputs then none else some (.asymmetricValues inputs.toNat outputs.toNat)
    | _, _ => some .valueOverflow

variable [Crypto]

/-- The first witness, counted from `index`, that does not open the lock of its input. -/
def witnessViolationFrom (id : Hash) (index : Nat) : List (Input × Witness) → Option Violation
  | [] => none
  | (input, witness) :: rest =>
    if witness.owner.lock ≠ input.spent.lock then some (.witnessLockMismatch index)
    else if !witness.verify id then some (.invalidWitnessSignature index)
    else witnessViolationFrom id (index + 1) rest

/-- Every witness opens the lock of the input at its position. -/
def witnessViolation (t : Transaction) : Option Violation :=
  witnessViolationFrom t.id 0 (t.inputs.zip t.witnesses)

def violation (t : Transaction) : Option Violation :=
  t.shapeViolation <|> t.valueViolation <|> t.witnessViolation

end Transaction

end Admission
