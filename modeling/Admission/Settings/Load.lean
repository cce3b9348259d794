-- Loading settings: a file, found by its name or by its name without the ending,
-- and the environment on top of it. Two formats of files are read here. YAML, INI,
-- RON and JSON5 are left out, and how a failure to load reads is left out too: that
-- is up to who reads the file.
import Admission.Settings
import Admission.Settings.Environment
import Admission.Settings.Json
import Admission.Settings.KeyPath
import Admission.Settings.Location
import Admission.Settings.Toml

namespace Admission

/-! ## Files -/

inductive SettingsFormat where
  | json
  | toml
deriving DecidableEq

namespace SettingsFormat

def all : List SettingsFormat := [json, toml]

def ending : SettingsFormat → String
  | json => "json"
  | toml => "toml"

/-- Reads a file of this format. One that holds no table has no entries. -/
def read (f : SettingsFormat) (text : String) : Option (List (String × Value)) :=
  let v := match f with
    | json => Json.read text
    | toml => Toml.read text
  v.map Value.entries

end SettingsFormat

/-- What the name of a file ends in behind its last point, if something stands before the point. -/
def nameEnding (path : String) : Option String :=
  let name := ((path.toList.reverse.takeWhile (· ≠ '/')).reverse)
  let ending := (name.reverse.takeWhile (· ≠ '.')).reverse
  if name.length ≤ ending.length + 1 then none else some (String.ofList ending)

/-- The file that a path means, with its format. A file of exactly this name has to have a known
ending; where there is none, the endings are tried behind the name. -/
def locateSettings (files : List (String × String)) (path : String) :
    Option (SettingsFormat × String) :=
  match Location.fileAt files path with
  | some text =>
    (SettingsFormat.all.find? fun f => nameEnding path == some f.ending).map fun f => (f, text)
  | none =>
    SettingsFormat.all.findSome? fun f =>
      ((Location.withEnding path f.ending).bind (Location.fileAt files)).map fun text => (f, text)

/-! ## Settings -/

inductive LoadFault where
  /-- The file cannot be used, or what it says. -/
  | unusable
  /-- An index leads past the front of its list, which is a panic. -/
  | pastFront
deriving DecidableEq

namespace Settings

/-- Takes a setting out of a table, the default standing for one that is left out. -/
def take {α : Type} (v : Value) (key : String) (read : Value → Option α) (default : Option α) :
    Except LoadFault α :=
  match v.get? key with
  | none =>
    match default with
    | some a => .ok a
    | none => .error .unusable
  | some w =>
    match read w with
    | some a => .ok a
    | none => .error .unusable

/-- The settings that a table holds. Numbers of 32 bits are what is left of larger ones, and names
that are no settings do not matter. -/
def ofValue (v : Value) : Except LoadFault Settings := do
  let number (key : String) (default : Nat) : Except LoadFault UInt64 :=
    (take v key Value.toNat? (some default)).map UInt64.ofNat
  let id ← take v "sentinel_id" Value.toNat? none
  let sentinels ← take v "sentinel_endpoints" Value.toTexts? none
  let coordinators ← take v "coordinator_endpoints" Value.toTexts? none
  let privateKeys ← take v "sentinel_private_keys" Value.toTextTable? (some [])
  let basic := Settings.basic (UInt32.ofNat id) sentinels coordinators
  let threshold ← number "attestation_threshold" basic.threshold.toNat
  let peerTimeout ← number "peer_timeout_ms" basic.peerTimeout.toNat
  let connectTimeout ← number "connect_timeout_ms" basic.connectTimeout.toNat
  let peerRetry ← number "peer_retry_ms" basic.peerRetry.toNat
  let coordinatorRetry ← number "coordinator_retry_ms" basic.coordinatorRetry.toNat
  let initAttempts ← take v "coordinator_init_attempts" Value.toNat? (some basic.initAttempts.toNat)
  let initDelay ← number "coordinator_init_delay_ms" basic.initDelay.toNat
  let auditPath ← take v "audit_db" Value.toOptionalText? (some none)
  return { basic with
    privateKeys, threshold, peerTimeout, connectTimeout, peerRetry, coordinatorRetry
    initAttempts := UInt32.ofNat initAttempts
    initDelay, auditPath }

/-- Reads the settings from the file that a path means, with the environment on top. -/
def load (files : List (String × String)) (path : String) (environment : List (String × String)) :
    Except LoadFault Settings :=
  match (locateSettings files path).bind fun (format, text) => format.read text with
  | none => .error .unusable
  | some entries =>
    match (Value.table []).setPaths (entries ++ Environment.entries environment) with
    | none => .error .pastFront
    | some v => ofValue v

end Settings

end Admission
