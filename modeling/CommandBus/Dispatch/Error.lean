import CommandBus.Access.Control
import CommandBus.Parameter.Error

/-! # Dispatch errors

`DispatchError` is everything that can stop a dispatch.  The errors of the framework have a
constructor each; what a command fails with by itself becomes `execution`, with the messages of
its causes.

A `CommandError` is what a command returns: a cause, and texts put around it on its way up.
A cause of the framework keeps its kind under any texts (`DispatchError.ofCommand`). -/

namespace CommandBus

/-- The kind of an error, as told to a client. -/
inductive ErrorKind where
  | noSuchCommand
  | protocolMismatch
  | missingParameter
  | conversionError
  | accessDenied
  | configurationError
  | executionFailure
  deriving DecidableEq, Repr

namespace ErrorKind

def name : ErrorKind → String
  | .noSuchCommand => "NoSuchCommand"
  | .protocolMismatch => "ProtocolMismatch"
  | .missingParameter => "MissingParameter"
  | .conversionError => "ConversionError"
  | .accessDenied => "AccessDenied"
  | .configurationError => "ConfigurationError"
  | .executionFailure => "ExecutionFailure"

/-- All kinds, in their order. -/
def all : List ErrorKind :=
  [.noSuchCommand, .protocolMismatch, .missingParameter, .conversionError, .accessDenied,
    .configurationError, .executionFailure]

/-- Every kind but a failure of the command itself. -/
def isRejection (k : ErrorKind) : Bool := k != .executionFailure

end ErrorKind

/-- Everything that can stop a dispatch. -/
inductive DispatchError where
  | noSuchCommand (name : String)
  | protocolMismatch (expected actual : String)
  | binding (e : BindingError)
  | conversion (e : ConversionError)
  | accessDenied (e : AccessDenied)
  | configuration (e : ConfigurationError)
  /-- The command failed by itself; the messages of its causes, the outermost first. -/
  | execution (command : String) (causes : List String)
  deriving DecidableEq, Repr

/-- The cause of a command's failure. -/
inductive Cause where
  | dispatch (e : DispatchError)
  | denied (e : AccessDenied)
  | access (e : AccessError)
  | binding (e : BindingError)
  | conversion (e : ConversionError)
  | configuration (e : ConfigurationError)
  /-- Anything that the framework does not know. -/
  | other (message : String)
  deriving DecidableEq, Repr

/-- What a command fails with: the texts around the cause, the outermost first. -/
structure CommandError where
  contexts : List String := []
  cause : Cause
  deriving DecidableEq, Repr

/-- The error with one more text around it. -/
def CommandError.within (e : CommandError) (context : String) : CommandError :=
  { e with contexts := context :: e.contexts }

namespace DispatchError

/-- The error of an access check. -/
def ofAccess : AccessError → DispatchError
  | .denied e => .accessDenied e
  | .configuration e => .configuration e

/-- The error that a cause of the framework is. -/
def ofCause? : Cause → Option DispatchError
  | .dispatch e => some e
  | .denied e => some (.accessDenied e)
  | .access e => some (ofAccess e)
  | .binding e => some (.binding e)
  | .conversion e => some (.conversion e)
  | .configuration e => some (.configuration e)
  | .other _ => none

/-- The error of a command that failed. -/
def ofCommand (command : String) (e : CommandError) : DispatchError :=
  match e.cause with
  | .other message => .execution command (e.contexts ++ [message])
  | cause => (ofCause? cause).getD (.execution command e.contexts)

/-- The kind of an error. -/
def kind : DispatchError → ErrorKind
  | .noSuchCommand _ => .noSuchCommand
  | .protocolMismatch _ _ => .protocolMismatch
  | .binding e => if e.isMissing then .missingParameter else .conversionError
  | .conversion _ => .conversionError
  | .accessDenied _ => .accessDenied
  | .configuration _ => .configurationError
  | .execution _ _ => .executionFailure

/-- The messages of the causes below an error, the outermost first. -/
def trace : DispatchError → List String
  | .execution _ causes => causes
  | _ => []

/-- The wording of an error. -/
def message : DispatchError → String
  | .noSuchCommand name => "no such command: '" ++ name ++ "'"
  | .protocolMismatch expected actual =>
    "protocol version mismatch: expected '" ++ expected ++ "', got '" ++ actual ++ "'"
  | .binding e => e.message
  | .conversion e => e.message
  | .accessDenied e => e.message
  | .configuration e => e.message
  | .execution command _ => "command '" ++ command ++ "' failed"

end DispatchError

end CommandBus
