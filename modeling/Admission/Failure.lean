-- The failures of a sentinel and its parts, and how they are shown. A failure
-- that holds another one shows it inside, as a whole or as a quoted text.
import Admission.Settings

namespace Admission

structure SystemFailure where
  kind : String
deriving DecidableEq

def SystemFailure.text (f : SystemFailure) : String := "Kind(" ++ f.kind ++ ")"

inductive ChannelFailure where
  | io (cause : SystemFailure)
  | read (cause : SystemFailure)
  | write (cause : SystemFailure)
deriving DecidableEq

def ChannelFailure.text : ChannelFailure → String
  | io cause => "IO(" ++ cause.text ++ ")"
  | read cause => "ReadError(" ++ cause.text ++ ")"
  | write cause => "WriteError(" ++ cause.text ++ ")"

inductive EncodingFailure where
  /-- A failure without particulars, by its name. -/
  | plain (name : String)
  /-- A failure with the number that was found. -/
  | found (name : String) (number : Nat)
  | custom (text : String)
deriving DecidableEq

def EncodingFailure.text : EncodingFailure → String
  | plain name => name
  | found name number => name ++ "(" ++ toString number ++ ")"
  | custom text => "Custom(" ++ Text.quoted text ++ ")"

/-- What ends the whole program, with the text that it leaves. -/
structure Panic where
  text : String
deriving DecidableEq

/-- A span was multiplied beyond what a span can be. -/
def Panic.spanOverflow : Panic := ⟨"overflow when multiplying duration by scalar"⟩

inductive Failure where
  | io (cause : SystemFailure)
  /-- What would have carried a message is gone. -/
  | mailboxClosed
  /-- What would have carried a message gave up. -/
  | mailboxTimeout
  | encoding (cause : EncodingFailure)
  | channel (text : String)
  | emptyResponse
  | invalidResponse
  | timeout
  | unreachable
  | notAccepted
  | settings (cause : SettingsError)
  | key (cause : KeyFailure)
deriving DecidableEq

namespace Failure

/-- The failure of a connection, as a failure of the sentinel: only opening is told apart. -/
def ofChannel : ChannelFailure → Failure
  | .io cause => .io cause
  | .read cause => .channel cause.text
  | .write cause => .channel cause.text

def kind : Failure → String
  | io _ => "IO"
  | mailboxClosed | mailboxTimeout => "Actix"
  | encoding _ => "Bincode"
  | channel _ => "ChannelError"
  | emptyResponse => "EmptyResponse"
  | invalidResponse => "InvalidResponse"
  | timeout => "Timeout"
  | unreachable => "Unreachable"
  | notAccepted => "NotAccepted"
  | settings _ => "Config"
  | key _ => "Transaction"

def content : Failure → Option String
  | io cause => some cause.text
  | mailboxClosed => some "MailboxError(Mailbox has closed)"
  | mailboxTimeout => some "MailboxError(Message delivery timed out)"
  | encoding cause => some (Text.quoted cause.text)
  | channel text => some (Text.quoted text)
  | settings cause => some cause.kindAndMessage.2
  | key cause => some cause.kindAndMessage.2
  | _ => none

def text (f : Failure) : String :=
  match f.content with
  | some content => f.kind ++ "(" ++ content ++ ")"
  | none => f.kind

end Failure

end Admission
