-- Settings, and the configuration that they are resolved into. Resolving
-- refuses settings under which a sentinel could not do its work, and reports
-- the first fault that it finds.
import Admission.Endpoint
import Admission.Execution
import Admission.Key

namespace Admission

/-- What a sentinel is told before it starts. Times are in milliseconds. -/
structure Settings where
  sentinelId : UInt32
  /-- Where the sentinels listen, the one with number `i` at position `i`. -/
  sentinelEndpoints : List String
  coordinatorEndpoints : List String
  /-- Secrets in hexadecimal, under the decimal number of their sentinel. -/
  privateKeys : List (String × String)
  threshold : UInt64
  peerTimeout : UInt64
  connectTimeout : UInt64
  peerRetry : UInt64
  coordinatorRetry : UInt64
  initAttempts : UInt32
  initDelay : UInt64
  auditPath : Option String
deriving DecidableEq

/-- Settings where everything that may be left out is. -/
def Settings.basic (id : UInt32) (sentinels coordinators : List String) : Settings :=
  ⟨id, sentinels, coordinators, [], 0, 5000, 1000, 100, 100, 5, 1000, none⟩

inductive SettingsError where
  | load (cause : String)
  | noSentinelEndpoints
  | sentinelIdOutOfRange (id endpoints : Nat)
  | noCoordinatorEndpoints
  | invalidEndpoint (text : String)
  | missingPrivateKey (id : Nat)
  | invalidPrivateKey (id : Nat)
  | insufficientPeers (threshold available : Nat)
  | connectTimeoutTooLong (connect peer : Nat)
deriving DecidableEq

def SettingsError.kindAndMessage : SettingsError → String × String
  | load cause => holding "Load" (Text.quoted cause)
  | noSentinelEndpoints => alone "NoSentinelEndpoints"
  | sentinelIdOutOfRange id endpoints =>
    naming "SentinelIdOutOfRange" [("id", id), ("endpoints", endpoints)]
  | noCoordinatorEndpoints => alone "NoCoordinatorEndpoints"
  | invalidEndpoint text => holding "InvalidEndpoint" (Text.quoted text)
  | missingPrivateKey id => holding "MissingPrivateKey" (toString id)
  | invalidPrivateKey id => holding "InvalidPrivateKey" (toString id)
  | insufficientPeers threshold available =>
    naming "InsufficientPeers" [("threshold", threshold), ("available", available)]
  | connectTimeoutTooLong connect peer =>
    naming "ConnectTimeoutTooLong" [("connect_ms", connect), ("peer_ms", peer)]
where
  alone (kind : String) : String × String := (kind, kind)
  holding (kind content : String) : String × String := (kind, kind ++ "(" ++ content ++ ")")
  naming (kind : String) (fields : List (String × Nat)) : String × String :=
    (kind, kind ++ " \x7b " ++
      ", ".intercalate (fields.map fun f => f.1 ++ ": " ++ toString f.2) ++ " \x7d")

variable [Crypto]

/-- What a running sentinel goes by. -/
structure Configuration where
  sentinelId : UInt32
  listener : Endpoint
  /-- The other sentinels, in the order of the settings. -/
  peers : List Endpoint
  coordinator : Endpoint
  keypair : Option Keypair
  threshold : UInt64
  peerTimeout : UInt64
  connectTimeout : UInt64
  peerRetry : UInt64
  coordinatorRetry : UInt64
  initAttempts : UInt32
  initDelay : UInt64
  auditPath : Option String

namespace Settings

omit [Crypto] in
/-- Reads an endpoint; the error quotes the text as it was written. -/
def endpoint (text : String) : Except SettingsError Endpoint :=
  match Endpoint.ofText? text with
  | some e => .ok e
  | none => .error (.invalidEndpoint text)

def ownKeypair (s : Settings) : Except SettingsError (Option Keypair) :=
  match s.privateKeys.lookup (toString s.sentinelId.toNat) with
  | none => .ok none
  | some text =>
    match Keypair.ofText text with
    | .ok pair => .ok (some pair)
    | .error _ => .error (.invalidPrivateKey s.sentinelId.toNat)

omit [Crypto] in
/-- The first fault among the numbers: endpoints are there, the sentinel has one of them, and
connecting takes less time than answering. -/
def numberFault (s : Settings) : Option SettingsError :=
  let id := s.sentinelId.toNat
  if s.sentinelEndpoints.isEmpty then some .noSentinelEndpoints
  else if s.sentinelEndpoints.length ≤ id then
    some (.sentinelIdOutOfRange id s.sentinelEndpoints.length)
  else if s.coordinatorEndpoints.isEmpty then some .noCoordinatorEndpoints
  else if s.peerTimeout ≤ s.connectTimeout then
    some (.connectTimeoutTooLong s.connectTimeout.toNat s.peerTimeout.toNat)
  else none

def thresholdFault (s : Settings) (keypair : Option Keypair) (peers : List Endpoint) :
    Option SettingsError :=
  if s.threshold = 0 then none
  else if keypair.isNone then some (.missingPrivateKey s.sentinelId.toNat)
  else if peers.length + 1 < s.threshold.toNat then
    some (.insufficientPeers s.threshold.toNat (peers.length + 1))
  else none

def configure (s : Settings) (endpoints : List Endpoint) (coordinator : Endpoint)
    (keypair : Option Keypair) : Configuration :=
  let listener := endpoints.getD s.sentinelId.toNat default
  ⟨s.sentinelId, listener, endpoints.filter (· ≠ listener), coordinator, keypair, s.threshold,
    s.peerTimeout, s.connectTimeout, s.peerRetry, s.coordinatorRetry, s.initAttempts, s.initDelay,
    s.auditPath⟩

/-- Resolves settings, or reports the first fault. The coordinators are dealt out to the sentinels
in turn. -/
def validate (s : Settings) : Except SettingsError Configuration :=
  match s.numberFault with
  | some fault => .error fault
  | none => do
    let endpoints ← s.sentinelEndpoints.mapM endpoint
    let coordinator ← endpoint
      (s.coordinatorEndpoints.getD (s.sentinelId.toNat % s.coordinatorEndpoints.length) "")
    let keypair ← s.ownKeypair
    let c := s.configure endpoints coordinator keypair
    match s.thresholdFault keypair c.peers with
    | some fault => .error fault
    | none => .ok c

end Settings

def Configuration.sentinel (c : Configuration) : Sentinel :=
  ⟨c.keypair, ⟨c.peers.length, c.threshold.toNat, c.peerTimeout.toNat, c.peerRetry.toNat⟩,
    c.coordinatorRetry.toNat⟩

end Admission
