-- The program: it reads its settings and starts. The library does its work on
-- bytes and has no sockets of its own, so a start ends at the listener, which
-- is told and is no failure of the call.
import Admission.CommandLine
import Admission.Crypto.Standard
import Admission.Node

namespace Admission

namespace CommandLine

/-- The path of the settings file, if one is given. -/
def settingsPath (args : List String) : Option String :=
  match Invocation.ofArguments args with
  | .options given => (given.lookup .config).join
  | _ => none

/-- The files that a path may mean, as far as they can be read. -/
def readFiles (path : String) : IO (List (String × String)) := do
  let names : List String :=
    path :: SettingsFormat.all.filterMap fun f => Location.withEnding path f.ending
  names.filterMapM fun (name : String) => do
    try
      let text ← IO.FS.readFile name
      return some (name, text)
    catch _ => return none

/-- The variables of an environment that is listed with a NUL behind each. -/
def namedValues (listing : String) : List (String × String) :=
  (listing.splitOn "\x00").filterMap fun entry =>
    let cs := entry.toList
    if cs.contains '=' then
      some (String.ofList (cs.takeWhile (· ≠ '=')),
        String.ofList ((cs.dropWhile (· ≠ '=')).drop 1))
    else none

/-- The environment of this process; where it is not listed it counts as empty. -/
def readEnvironment : IO (List (String × String)) := do
  try
    let listing ← IO.FS.readFile "/proc/self/environ"
    return namedValues listing
  catch _ => return []

/-- What is found where there is no network. -/
def offline : Conditions := ⟨fun _ => false, fun _ => .failed, some ⟨"Unsupported"⟩⟩

/-- What a start comes to there. -/
def startText [Crypto] (c : Configuration) : Except Panic String :=
  match c.start offline with
  | .ok _ => .ok "sentinel started"
  | .error (.listener cause) => .ok ("sentinel failed to start: " ++ (Failure.io cause).text)
  | .error (.panic cause) => .error cause

end CommandLine

end Admission

open Admission in
def main (args : List String) : IO UInt32 := do
  let _ : Crypto := standardCrypto
  let files ← match CommandLine.settingsPath args with
    | some path => CommandLine.readFiles path
    | none => pure []
  let call := CommandLine.call args files (← CommandLine.readEnvironment)
  match call with
  | .print text => IO.println text
  | .misuse => IO.eprintln "error: the arguments make no sense, see --help"
  | .unloaded _ => IO.eprintln "Error: there are no settings"
  | .failure cause => IO.eprintln ("Error: " ++ cause.text)
  | .start c =>
    match CommandLine.startText c with
    | .ok text => IO.println text
    | .error cause =>
      IO.eprintln cause.text
      return CommandLine.panicExitCode
  return call.exitCode
