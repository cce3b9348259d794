-- Transactions of the ledger, and the identifiers of what they consume and
-- produce. An identifier is the hash of a fixed string of bytes, its preimage,
-- so what two identifiers have in common can be read off the preimages.
import Admission.Crypto
import Admission.Text.Hex

namespace Admission

/-- An entry that a transaction produces. -/
structure Output where
  /-- The hash of the public key that may spend it. -/
  lock : Hash
  value : UInt64
deriving DecidableEq

/-- The place of an entry: a transaction, and the position among its outputs. -/
structure Outpoint where
  transaction : Hash
  index : UInt64
deriving DecidableEq

/-- A use of an entry, with a copy of what is spent, so that it can be judged without the
ledger. -/
structure Input where
  outpoint : Outpoint
  spent : Output
deriving DecidableEq

/-- The consent of an owner: a signature over the identifier of the transaction. -/
structure Witness where
  owner : PublicKey
  signature : Signature
deriving DecidableEq

/-- A transaction as a caller submits it. The witness at a position goes with the input at
that position. -/
structure Transaction where
  inputs : List Input
  outputs : List Output
  witnesses : List Witness
deriving DecidableEq

/-! ## Preimages -/

def Output.bytes (o : Output) : List UInt8 := o.lock.toList ++ bigEndian 8 o.value.toNat

/-- What is hashed for the entry that an input consumes. -/
def Input.preimage (i : Input) : List UInt8 :=
  i.outpoint.transaction.toList ++ bigEndian 8 i.outpoint.index.toNat ++ i.spent.bytes

/-- What is hashed for the entry that a transaction produces at a position. -/
def Output.preimage (transaction : Hash) (index : Nat) (o : Output) : List UInt8 :=
  transaction.toList ++ bigEndian 8 index ++ o.bytes

/-- What is hashed for the transaction itself. Witnesses are no part of it. -/
def Transaction.preimage (t : Transaction) : List UInt8 :=
  bigEndian 8 t.inputs.length ++ t.inputs.flatMap Input.preimage ++
    (bigEndian 8 t.outputs.length ++ t.outputs.flatMap Output.bytes)

/-! ## Identifiers -/

variable [Crypto]

def PublicKey.lock (key : PublicKey) : Hash := Crypto.hash key.toList

def Input.id (i : Input) : Hash := Crypto.hash i.preimage

namespace Transaction

def id (t : Transaction) : Hash := Crypto.hash t.preimage

def inputIds (t : Transaction) : List Hash := t.inputs.map Input.id

def outputIds (t : Transaction) : List Hash :=
  let id := t.id
  t.outputs.mapIdx fun index o => Crypto.hash (o.preimage id index)

/-- The identifier with the numbers of inputs and outputs. -/
def description (t : Transaction) : String :=
  Text.Hex.text t.id.toList ++ " (" ++ toString t.inputs.length ++ " inputs, " ++
    toString t.outputs.length ++ " outputs)"

end Transaction

/-! ## Witnesses -/

namespace Witness

/-- The witness that a pair of keys gives for the transaction with this identifier. -/
def ofKeypair (pair : Keypair) (transaction : Hash) : Witness :=
  ⟨pair.publicKey, pair.sign transaction.toList⟩

def verify (w : Witness) (transaction : Hash) : Bool :=
  Crypto.verify w.owner transaction.toList w.signature

/-- Whether the witness opens the lock of an entry for this transaction. -/
def unlocks (w : Witness) (o : Output) (transaction : Hash) : Bool :=
  decide (w.owner.lock = o.lock) && w.verify transaction

end Witness

/-- A transaction whose inputs all belong to one pair of keys, with its witnesses. -/
def Transaction.signed (inputs : List Input) (outputs : List Output) (pair : Keypair) : Transaction :=
  let unsigned : Transaction := ⟨inputs, outputs, []⟩
  let witness := Witness.ofKeypair pair unsigned.id
  { unsigned with witnesses := inputs.map fun _ => witness }

end Admission
