-- The command line of a sentinel: which settings file it reads, and which
-- number it has if not the one in the file.
import Admission.Failure
import Admission.Settings.Load

namespace Admission

namespace CommandLine

/-! ## Options -/

/-- What stands behind a dash. -/
inductive Switch where
  | config
  | sentinelId
  | help
  | version
deriving DecidableEq

namespace Switch

def all : List Switch := [config, sentinelId, help, version]

def long : Switch → String
  | config => "config"
  | sentinelId => "sentinel-id"
  | help => "help"
  | version => "version"

def short : Switch → Char
  | config => 'c'
  | sentinelId => 'i'
  | help => 'h'
  | version => 'V'

end Switch

/-- Reads an argument that begins with a dash: the switch, and the value that is attached to it. -/
def readSwitch (arg : List Char) : Option (Switch × Option (List Char)) :=
  let body := arg.dropWhile (· = '-')
  if arg.take 2 = ['-', '-'] then
    let name := body.takeWhile (· ≠ '=')
    let value := if body.contains '=' then some (body.dropWhile (· ≠ '=')) else none
    (Switch.all.find? fun s => s.long.toList = name).map fun s => (s, value)
  else
    match body with
    | [] => none
    | c :: value =>
      (Switch.all.find? fun s => s.short = c).map fun s =>
        (s, if value.isEmpty then none else some value)

/-- Whether an argument cannot be a value. -/
def isSwitch (arg : List Char) : Bool := arg.head? = some '-' && 1 < arg.length

/-! ## Invocations -/

/-- What the arguments ask for. -/
inductive Invocation where
  | help
  | version
  | misuse
  /-- Each option that was given, with its value if it has one. -/
  | options (given : List (Switch × Option String))
deriving DecidableEq

/-- The value of an option, without the equals signs in front of it. -/
def attached (value : List Char) : String := String.ofList (value.dropWhile (· = '='))

/-- Reads arguments from left to right, where `given` came before. The first that asks for help or
the version, or that makes no sense, decides. -/
def read (given : List (Switch × Option String)) : List (List Char) → Invocation
  | [] => .options given
  | ['-', '-'] :: rest => if rest.isEmpty then .options given else .misuse
  | arg :: rest =>
    if !isSwitch arg then .misuse
    else
      match readSwitch arg, rest with
      | none, _ => .misuse
      | some (.help, _), _ => .help
      | some (.version, _), _ => .version
      | some (s, some value), rest => read (given ++ [(s, some (attached value))]) rest
      | some (_, none), [] => .misuse
      | some (s, none), next :: rest =>
        if next = ['-', '-'] && rest.isEmpty then .misuse
        else if isSwitch next then read (given ++ [(s, none)]) (next :: rest)
        else read (given ++ [(s, some (String.ofList next))]) rest
termination_by args => args.length

/-- An option may be given once, and the settings file has to be given. -/
def Invocation.ofArguments (args : List String) : Invocation :=
  match read [] (args.map String.toList) with
  | .options given =>
    let config := given.filter fun e => e.1 = .config
    let sentinelId := given.filter fun e => e.1 = .sentinelId
    if config.length ≠ 1 ∨ 1 < sentinelId.length then .misuse else .options given
  | invocation => invocation

/-- Reads a number of 32 bits. A plus sign may stand in front of it. -/
def number (text : String) : Option UInt32 :=
  let digits := match text.toList with
    | '+' :: rest => rest
    | cs => cs
  if digits.isEmpty || !digits.all Char.isDigit then none
  else
    let n := digits.foldl (fun n c => 10 * n + (c.toNat - '0'.toNat)) 0
    if n < 0x100000000 then some (UInt32.ofNat n) else none

/-! ## What follows -/

def title : String := "sentinel 0.1"

def helpText : String := "\n".intercalate [
  title,
  "Admits transactions into the two-phase-commit ledger",
  "",
  "USAGE:",
  "    sentinel [OPTIONS] --config <CONFIG>",
  "",
  "FLAGS:",
  "    -h, --help       Prints help information",
  "    -V, --version    Prints version information",
  "",
  "OPTIONS:",
  "    -c, --config <CONFIG>              ",
  "    -i, --sentinel-id <SENTINEL_ID>    "]

/-- What a call of the program comes to. -/
inductive Call [Crypto] where
  | print (text : String)
  | misuse
  /-- There are no settings. -/
  | unloaded (fault : LoadFault)
  | failure (cause : Failure)
  | start (c : Configuration)

/-- What the program exits with after a panic. -/
def panicExitCode : UInt32 := 101

namespace Call

variable [Crypto]

def exitCode : Call → UInt32
  | print _ | start _ => 0
  | misuse | unloaded .unusable | failure _ => 1
  | unloaded .pastFront => panicExitCode

def error : Call → Option String
  | failure cause => some cause.text
  | _ => none

def output : Call → String
  | print text => text
  | _ => ""

end Call

/-- The settings that the options lead to. The file is read before the number of the sentinel. -/
def settings (given : List (Switch × Option String)) (files : List (String × String))
    (environment : List (String × String)) : Option (Except LoadFault Settings) :=
  match given.lookup .config with
  | some (some path) =>
    match Settings.load files path environment, given.lookup .sentinelId with
    | .error e, _ => some (.error e)
    | .ok s, none => some (.ok s)
    | .ok _, some none => none
    | .ok s, some (some text) => (number text).map fun id => .ok { s with sentinelId := id }
  | _ => none

/-- What a call comes to, with these files and this environment. -/
def call [Crypto] (args : List String) (files environment : List (String × String)) : Call :=
  match Invocation.ofArguments args with
  | .help => .print helpText
  | .version => .print title
  | .misuse => .misuse
  | .options given =>
    match settings given files environment with
    | none => .misuse
    | some (.error fault) => .unloaded fault
    | some (.ok s) =>
      match s.validate with
      | .error e => .failure (.settings e)
      | .ok c => .start c

end CommandLine

end Admission
