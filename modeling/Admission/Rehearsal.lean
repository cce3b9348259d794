-- Rehearsals: sentinels among peers and a coordinator that follow a script, on
-- a clock of their own. The clock stands still while anybody has a turn and
-- then moves to the moment of the next one, so how long a run takes is exact.
-- Turns at one moment are taken in the order in which they were queued.
import Admission.Execution
import Admission.Span

namespace Admission

/-! ## Scripts -/

inductive PeerAct where
  | attest
  | attestAfter (milliseconds : Nat)
  /-- It returns this attestation, whatever the transaction. -/
  | give (a : Attestation)
  | forge
  | invalid
  | unreachable
  | fail
  | silent
deriving DecidableEq

inductive CoordinatorAct where
  | refuse
  /-- It accepts, and this is the outcome, if there is one. -/
  | conclude (outcome : Option Bool)
  /-- It accepts, and then is gone. -/
  | drop
deriving DecidableEq

/-- The entry of a script for the `k`-th request, the last one standing for all later. -/
def scriptEntry {α : Type} (script : List α) (k : Nat) : Option α := script[k]? <|> script.getLast?

variable [Crypto]

structure ScriptedPeer where
  keypair : Keypair
  script : List PeerAct
  /-- Nothing carries a request to this peer. -/
  gone : Bool

structure Scene where
  peers : List ScriptedPeer
  coordinator : List CoordinatorAct

/-- What a peer answers about a transaction, and after how many milliseconds. -/
def ScriptedPeer.answer (peer : ScriptedPeer) (transaction : Hash) :
    PeerAct → Option (Nat × PeerAnswer)
  | .attest => some (0, .attestation (.ofKeypair peer.keypair transaction))
  | .attestAfter milliseconds =>
    some (restLength milliseconds, .attestation (.ofKeypair peer.keypair transaction))
  | .give a => some (0, .attestation a)
  | .forge => some (0, .attestation (.ofKeypair peer.keypair (.zeros 32)))
  | .invalid => some (0, .invalid)
  | .unreachable => some (0, .unreachable)
  | .fail => some (0, .failure)
  | .silent => none

def Scene.peer? (scene : Scene) (index : Nat) : Option ScriptedPeer :=
  scene.peers[index]?.filter fun peer => !peer.gone

/-! ## What machines wait for -/

inductive Awaited where
  | draw (peers : Nat)
  | reply (peer timeout : Nat)
  | rest (milliseconds : Nat)
  | acceptance (summary : Summary)
  | outcome
deriving DecidableEq

structure Actor (σ : Type) where
  after : σ → Happening → Option σ
  /-- Nothing more is awaited at the end. -/
  awaits : σ → Option Awaited
  /-- What goes out on entering a stage. -/
  message : σ → Option Message

omit [Crypto] in
def Gathering.awaits (g : Gatherer) : Gathering → Option Awaited
  | .deciding _ => some (.draw g.peers)
  | .asking _ peer => some (.reply peer g.peerTimeout)
  | .pausing _ milliseconds => some (.rest milliseconds)
  | .ended _ => none

omit [Crypto] in
def Submission.awaits (retryDelay : Nat) : Submission → Option Awaited
  | .attempting s => some (.acceptance s)
  | .pausing _ => some (.rest retryDelay)
  | .accepted _ => some .outcome
  | .ended _ => none

omit [Crypto] in
def Execution.awaits (g : Gatherer) (retryDelay : Nat) : Execution → Option Awaited
  | .gathering stage => stage.awaits g
  | .submitting stage => stage.awaits retryDelay
  | .answered _ => none

def Gatherer.actor (g : Gatherer) : Actor Gathering :=
  ⟨Gathering.after g, Gathering.awaits g, fun stage => (Execution.gathering stage).message⟩

def Submission.actor (retryDelay : Nat) : Actor Submission :=
  ⟨Submission.after, Submission.awaits retryDelay,
    fun stage => (Execution.submitting stage).message⟩

def Sentinel.actor (s : Sentinel) : Actor Execution :=
  ⟨Execution.after s.gatherer, Execution.awaits s.gatherer s.retryDelay, Execution.message⟩

inductive Recipient where
  | peer (index : Nat)
  | coordinator
deriving DecidableEq

omit [Crypto] in
def Awaited.recipient : Awaited → Option Recipient
  | .reply peer _ => some (.peer peer)
  | .acceptance _ => some .coordinator
  | _ => none

/-! ## Turns -/

inductive Due where
  | entrance
  /-- It comes to this without anybody else. -/
  | alone (h : Happening)
  /-- What it has sent is looked at by whom it is for. -/
  | arrival
  /-- This is going to be said to it, after so many milliseconds. -/
  | speech (milliseconds : Nat) (h : Happening)
  | told (h : Happening)
deriving DecidableEq

/-- A turn. Of several at one moment the one with the lowest number is first. -/
structure Turn where
  moment : Nat
  number : Nat
  due : Due
deriving DecidableEq

namespace Turn

def isBefore (t u : Turn) : Bool :=
  t.moment < u.moment || (t.moment == u.moment && t.number < u.number)

def isAlone (t : Turn) : Bool :=
  match t.due with
  | .entrance => true
  | .alone _ => true
  | _ => false

end Turn

/-- Who keeps machines going while somebody waits for them. -/
inductive Keeper where
  /-- Whoever waits: when the waiting is over, they still come to what needs nobody else. -/
  | waiter
  /-- They keep going by themselves, and whoever waits gives up before anything else. -/
  | themselves
deriving DecidableEq

def Keeper.allows (keeper : Keeper) (deadline : Nat) (t : Turn) : Bool :=
  t.moment < deadline || (keeper == .waiter && t.moment == deadline && t.isAlone)

/-! ## The run -/

structure Role (σ : Type) where
  stage : σ
  transaction : Hash
  turn : Option Turn
  /-- The outcome of its accepted attempt; none if whoever has it is gone. -/
  promised : Option (Option Bool)

structure Rehearsal (σ : Type) where
  now : Nat
  queued : Nat
  calls : List Nat
  attempts : Nat
  accepted : List Summary
  sent : List Message
  roles : List (Role σ)

namespace Rehearsal

variable {σ : Type}

def start (scene : Scene) : Rehearsal σ := ⟨0, 0, scene.peers.map fun _ => 0, 0, [], [], []⟩

omit [Crypto] in
/-- Gives a machine its next turn, which it takes before anybody else has one. -/
def atOnce (r : Rehearsal σ) (index : Nat) (h : Happening) : Rehearsal σ :=
  { r with roles := r.roles.modify index fun role => { role with turn := some ⟨r.now, 0, .alone h⟩ } }

omit [Crypto] in
/-- Gives a machine its next turn after so many milliseconds, behind all that are queued. -/
def queue (r : Rehearsal σ) (index milliseconds : Nat) (due : Due) : Rehearsal σ :=
  let turn : Turn := ⟨r.now + milliseconds, r.queued + 1, due⟩
  { r with
    queued := turn.number
    roles := r.roles.modify index fun role => { role with turn := some turn } }

omit [Crypto] in
def turn? (r : Rehearsal σ) (index : Nat) : Option Turn := r.roles[index]?.bind (·.turn)

def awaited (actor : Actor σ) (r : Rehearsal σ) (index : Nat) : Option Awaited :=
  r.roles[index]?.bind fun role => actor.awaits role.stage

def send (actor : Actor σ) (r : Rehearsal σ) (index : Nat) : Rehearsal σ :=
  { r with sent := r.sent ++ (r.roles[index]?.bind fun role => actor.message role.stage).toList }

def recorded (r : Rehearsal σ) : List Summary :=
  r.sent.filterMap fun
    | .record summary => some summary
    | _ => none

/-- Sees to what a machine waits for on entering a stage. A request that nothing carries comes
back at once, and a wait of no length is over before anyone can look at the request. -/
def attend (actor : Actor σ) (scene : Scene) (r : Rehearsal σ) (index : Nat) : Rehearsal σ :=
  let r := r.send actor index
  match r.awaited actor index with
  | none =>
    { r with roles := r.roles.modify index fun role => { role with turn := none } }
  | some (.draw peers) => r.atOnce index (.drew (List.range peers))
  | some .outcome =>
    match r.roles[index]?.bind (·.promised) with
    | some outcome => r.atOnce index (.concluded outcome)
    | none => r.atOnce index .dropped
  | some (.rest milliseconds) =>
    if milliseconds = 0 then r.atOnce index .rested
    else r.queue index (restLength milliseconds) (.alone .rested)
  | some (.reply peer timeout) =>
    if (scene.peer? peer).isNone then r.atOnce index (.replied .undelivered)
    else if timeout = 0 then r.atOnce index (.replied .timedOut)
    else r.queue index 0 .arrival
  | some (.acceptance _) => r.queue index 0 .arrival

/-- Lets a peer look at the request of a machine. If the answer is too late, the machine has its
turn when the wait is over, behind what was queued before the request went out. -/
def askPeer (scene : Scene) (r : Rehearsal σ) (index peer timeout : Nat) : Rehearsal σ :=
  match r.roles[index]?, scene.peer? peer with
  | some role, some scripted =>
    let act := scriptEntry scripted.script (r.calls.getD peer 0)
    let r := { r with calls := r.calls.modify peer (· + 1) }
    let late : Rehearsal σ := { r with
      roles := r.roles.modify index fun role =>
        { role with turn := role.turn.map fun turn =>
          ⟨r.now + timeout, turn.number, .alone (.replied .timedOut)⟩ } }
    match act.bind (scripted.answer role.transaction) with
    | none => late
    | some (milliseconds, answer) =>
      if milliseconds < timeout then
        r.queue index 0 (.speech milliseconds (.replied (.answered answer)))
      else late
  | _, _ => r

omit [Crypto] in
def accept (r : Rehearsal σ) (index : Nat) (summary : Summary) (promised : Option (Option Bool)) :
    Rehearsal σ :=
  let r := { r with
    accepted := r.accepted ++ [summary]
    roles := r.roles.modify index fun role => { role with promised } }
  r.queue index 0 (.speech 0 .accepted)

def askCoordinator (scene : Scene) (r : Rehearsal σ) (index : Nat) (summary : Summary) :
    Rehearsal σ :=
  let act := scriptEntry scene.coordinator r.attempts
  let r := { r with attempts := r.attempts + 1 }
  match act with
  | some (.conclude outcome) => r.accept index summary (some outcome)
  | some .drop => r.accept index summary none
  | _ => r.queue index 0 (.speech 0 .refused)

def arrive (actor : Actor σ) (scene : Scene) (r : Rehearsal σ) (index : Nat) : Rehearsal σ :=
  match r.awaited actor index with
  | some (.reply peer timeout) => r.askPeer scene index peer timeout
  | some (.acceptance summary) => r.askCoordinator scene index summary
  | _ => r

/-- The machines that have sent something to the same one as this machine and are not looked at
yet, in the order in which they sent it. -/
def senders (actor : Actor σ) (r : Rehearsal σ) (index : Nat) : List Nat :=
  let recipient := (r.awaited actor index).bind Awaited.recipient
  let waiting : List (Nat × Nat) := (List.range r.roles.length).filterMap fun i =>
    match (r.turn? i).filter (·.due = .arrival) with
    | some turn =>
      if (r.awaited actor i).bind Awaited.recipient = recipient then some (turn.number, i) else none
    | none => none
  (waiting.mergeSort fun a b => a.1 ≤ b.1).map (·.2)

def advance (actor : Actor σ) (scene : Scene) (r : Rehearsal σ) (index : Nat) (h : Happening) :
    Rehearsal σ :=
  match r.roles[index]? with
  | none => r
  | some role =>
    match actor.after role.stage h with
    | none => { r with roles := r.roles.set index { role with turn := none } }
    | some stage =>
      attend actor scene { r with roles := r.roles.set index { role with stage } } index

/-- Takes the turn of a machine. Whoever looks at something that was sent looks at all that has
arrived. -/
def take (actor : Actor σ) (scene : Scene) (r : Rehearsal σ) (index : Nat) (turn : Turn) :
    Rehearsal σ :=
  let r := { r with now := turn.moment }
  match turn.due with
  | .entrance => r.attend actor scene index
  | .alone h => r.advance actor scene index h
  | .told h => r.advance actor scene index h
  | .arrival => (r.senders actor index).foldl (arrive actor scene) r
  | .speech 0 h => r.queue index 0 (.told h)
  | .speech milliseconds h => r.queue index milliseconds (.speech 0 h)

omit [Crypto] in
def nextTurn (r : Rehearsal σ) : Option (Nat × Turn) :=
  (r.roles.mapIdx fun index role => role.turn.map fun turn => (index, turn)).foldl
    (fun best entry =>
      match best, entry with
      | some b, some e => if e.2.isBefore b.2 then some e else some b
      | none, e => e
      | b, none => b)
    none

omit [Crypto] in
def settledFrom (first : Nat) (r : Rehearsal σ) : Bool :=
  (r.roles.drop first).all fun role => role.turn.isNone

/-- Takes turns until the machines from `first` on have ended or the deadline is there, at most
so many turns. When they have ended, the turns of that moment are still taken. -/
def runUntil (actor : Actor σ) (scene : Scene) (keeper : Keeper) (first deadline : Nat) :
    (turns : Nat) → Rehearsal σ → Rehearsal σ
  | 0, r => { r with now := deadline }
  | turns + 1, r =>
    let settled := r.settledFrom first
    match r.nextTurn.filter fun e => !settled || e.2.moment == r.now with
    | none => r
    | some (index, turn) =>
      if keeper.allows deadline turn then
        runUntil actor scene keeper first deadline turns (r.take actor scene index turn)
      else { r with now := deadline }

/-- More turns than there can be in so many milliseconds if every pause lasts at least one. -/
def enoughTurns (peers roles milliseconds : Nat) : Nat :=
  16 * (milliseconds + 1) * (roles + 1) * ((peers + 2) * (peers + 2))

def enter (r : Rehearsal σ) (stage : σ) (transaction : Hash) : Rehearsal σ :=
  let role : Role σ := ⟨stage, transaction, none, none⟩
  { r with roles := r.roles ++ [role] }.queue r.roles.length 0 .entrance

/-- Brings machines on that draw among so many peers, each with the transaction it is about, and
waits for them at most so many milliseconds. Machines from before go on as well. -/
def perform (actor : Actor σ) (scene : Scene) (keeper : Keeper) (peers limit : Nat)
    (stages : List (σ × Hash)) (r : Rehearsal σ) : Rehearsal σ :=
  let first := r.roles.length
  let r := stages.foldl (fun r e => r.enter e.1 e.2) r
  runUntil actor scene keeper first (r.now + limit) (enoughTurns peers r.roles.length limit) r

omit [Crypto] in
def lastStages (r : Rehearsal σ) (count : Nat) : List σ :=
  (r.roles.drop (r.roles.length - count)).map (·.stage)

end Rehearsal

end Admission
