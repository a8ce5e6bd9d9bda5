import CommandBus.Json.Printer
import CommandBus.Text.Quoted

/-! # Reading errors of JSON

A reading fails with a `Fault` and, when the document is a text, the place of the fault: the
line, and the number of bytes read on that line.  Faults of the syntax and faults of the
data (a string where a number was wanted) share one type, since the first of either kind
ends the reading. -/

namespace CommandBus.Json

open Number Text

/-- What was found where something else was wanted. -/
inductive Found where
  | null
  | bool (b : Bool)
  | integer (n : Int)
  | double (x : Binary64)
  | string (s : String)
  | sequence
  | map
  deriving DecidableEq, Repr

/-- The description of what was found. -/
def Found.text : Found → String
  | .null => "null"
  | .bool b => "boolean \x60" ++ (if b then "true" else "false") ++ "\x60"
  | .integer n => "integer \x60" ++ intText n ++ "\x60"
  | .double x => "floating point \x60" ++ x.jsonNumber ++ "\x60"
  | .string s => "string " ++ quoted s
  | .sequence => "sequence"
  | .map => "map"

/-- How a document shows up as something unexpected. -/
def found : Json → Found
  | .null => .null
  | .bool b => .bool b
  | .integer n => .integer n.value
  | .double x => .double x
  | .string s => .string s
  | .array _ => .sequence
  | .object _ => .map

/-- What stops a reading. -/
inductive Fault where
  | eofValue
  | eofList
  | eofObject
  | eofString
  | expectedValue
  | expectedIdent
  | expectedColon
  | expectedListEnd
  | expectedObjectEnd
  | trailingComma
  | trailingCharacters
  | keyNotString
  | invalidNumber
  | numberOutOfRange
  | invalidEscape
  | loneSurrogate
  | brokenSurrogatePair
  | controlCharacter
  | recursionLimit
  | invalidType (found : Found) (expected : String)
  | invalidValue (found : Found) (expected : String)
  | invalidLength (found : Nat) (expected : String)
  | missingField (name : String)
  | duplicateField (name : String)
  | unknownVariant (name : String) (expected : List String)
  | custom (message : String)
  deriving DecidableEq, Repr

/-- A list of names of which one is wanted. -/
def oneOf (names : List String) : String :=
  let ticked := names.map fun n => "\x60" ++ n ++ "\x60"
  match ticked with
  | [] => "there are no variants"
  | [a] => "expected " ++ a
  | [a, b] => "expected " ++ a ++ " or " ++ b
  | _ => "expected one of " ++ ", ".intercalate ticked

/-- The wording of a fault. -/
def Fault.message : Fault → String
  | .eofValue => "EOF while parsing a value"
  | .eofList => "EOF while parsing a list"
  | .eofObject => "EOF while parsing an object"
  | .eofString => "EOF while parsing a string"
  | .expectedValue => "expected value"
  | .expectedIdent => "expected ident"
  | .expectedColon => "expected \x60:\x60"
  | .expectedListEnd => "expected \x60,\x60 or \x60]\x60"
  | .expectedObjectEnd => "expected \x60,\x60 or \x60\x7d\x60"
  | .trailingComma => "trailing comma"
  | .trailingCharacters => "trailing characters"
  | .keyNotString => "key must be a string"
  | .invalidNumber => "invalid number"
  | .numberOutOfRange => "number out of range"
  | .invalidEscape => "invalid escape"
  | .loneSurrogate => "lone leading surrogate in hex escape"
  | .brokenSurrogatePair => "unexpected end of hex escape"
  | .controlCharacter => "control character (\\u0000-\\u001F) found while parsing a string"
  | .recursionLimit => "recursion limit exceeded"
  | .invalidType found expected => "invalid type: " ++ found.text ++ ", expected " ++ expected
  | .invalidValue found expected => "invalid value: " ++ found.text ++ ", expected " ++ expected
  | .invalidLength n expected => "invalid length " ++ natText n ++ ", expected " ++ expected
  | .missingField name => "missing field \x60" ++ name ++ "\x60"
  | .duplicateField name => "duplicate field \x60" ++ name ++ "\x60"
  | .unknownVariant name expected =>
    "unknown variant \x60" ++ name ++ "\x60, " ++ oneOf expected
  | .custom message => message

/-- A place in a text: the line, from one, and the bytes read on it. -/
structure Position where
  line : Nat := 1
  column : Nat := 0
  deriving DecidableEq, Repr

/-- A fault, and its place when the document is a text. -/
structure Error where
  fault : Fault
  position : Option Position := none
  deriving DecidableEq, Repr

namespace Error

/-- The place is set once, by the innermost reader that knows it. -/
def locate (p : Position) (e : Error) : Error :=
  match e.position with
  | some _ => e
  | none => { e with position := some p }

def message (e : Error) : String :=
  match e.position with
  | none => e.fault.message
  | some p =>
    e.fault.message ++ " at line " ++ natText p.line ++ " column " ++ natText p.column

end Error

end CommandBus.Json
