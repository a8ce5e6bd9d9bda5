import CommandBus.Conversion.Service
import CommandBus.Json.Error
import CommandBus.Value.Json

/-! # Parameter types

A `ParamType` is a type that a parameter may be declared with: a scalar, any value, a value
or null, a list, a map, or a record.  `Carrier` is the type of its values, `extract` unpacks a
value that was converted before, `render` packs it again.  Extraction never converts.

A record is carried as its document; a `RecordType` reads the document of a value and, where
it can, writes it back.  `Service.convertTo` converts and extracts at once. -/

namespace CommandBus

open Number

/-- A structured type that documents are read into. -/
structure RecordType where
  /-- The name in the declared type. -/
  name : String
  /-- The document of the record that a document stands for. -/
  read : Json → Except Json.Error Json
  /-- The document that a record is written as, if it can be written. -/
  write : Json → Option Json

/-- What a parameter may be declared as. -/
inductive ParamType where
  | bool
  | short
  | int
  | long
  | double
  | decimal
  | string
  | date
  | uuid
  | any
  | option (inner : ParamType)
  | list (element : ParamType)
  | map (element : ParamType)
  | record (type : RecordType)
  deriving Inhabited

namespace ParamType

/-- The values of a parameter type. -/
@[reducible] def Carrier : ParamType → Type
  | .bool => Bool
  | .short => Int16
  | .int => Int32
  | .long => Int64
  | .double => Binary64
  | .decimal => Decimal
  | .string => String
  | .date => Instant
  | .uuid => Uuid
  | .any => Value
  | .option inner => Option inner.Carrier
  | .list element => List element.Carrier
  | .map element => List (String × element.Carrier)
  | .record _ => Json

/-- The declared type; an option is declared as what it may hold. -/
def valueType : ParamType → ValueType
  | .bool => .bool
  | .short => .short
  | .int => .int
  | .long => .long
  | .double => .double
  | .decimal => .decimal
  | .string => .string
  | .date => .date
  | .uuid => .uuid
  | .any => .any
  | .option inner => inner.valueType
  | .list element => .list element.valueType
  | .map element => .map element.valueType
  | .record type => .record type.name

/-- The results of a function on a list, or the first error. -/
def collect {ε α β : Type} (f : α → Except ε β) : List α → Except ε (List β)
  | [] => .ok []
  | a :: rest =>
    match f a with
    | .error e => .error e
    | .ok b =>
      match collect f rest with
      | .error e => .error e
      | .ok bs => .ok (b :: bs)

/-- The results of a function on the values of entries, or the first error. -/
def collectEntries {ε α β : Type} (f : α → Except ε β) :
    List (String × α) → Except ε (List (String × β))
  | [] => .ok []
  | (key, a) :: rest =>
    match f a with
    | .error e => .error e
    | .ok b =>
      match collectEntries f rest with
      | .error e => .error e
      | .ok bs => .ok ((key, b) :: bs)

/-- Unpack a value of the declared type. -/
def extract : (t : ParamType) → Value → Except ConversionError t.Carrier
  | .bool, .bool b => .ok b
  | .bool, v => .error (.mismatch v.kind .bool)
  | .short, .short n => .ok n
  | .short, v => .error (.mismatch v.kind .short)
  | .int, .int n => .ok n
  | .int, v => .error (.mismatch v.kind .int)
  | .long, .long n => .ok n
  | .long, v => .error (.mismatch v.kind .long)
  | .double, .double x => .ok x
  | .double, v => .error (.mismatch v.kind .double)
  | .decimal, .decimal d => .ok d
  | .decimal, v => .error (.mismatch v.kind .decimal)
  | .string, .string s => .ok s
  | .string, v => .error (.mismatch v.kind .string)
  | .date, .date t => .ok t
  | .date, v => .error (.mismatch v.kind .date)
  | .uuid, .uuid u => .ok u
  | .uuid, v => .error (.mismatch v.kind .uuid)
  | .any, v => .ok v
  | .option _, .null => .ok none
  | .option inner, v => (extract inner v).map some
  | .list element, .list items => collect (extract element) items
  | .list element, v => .error (.mismatch v.kind (.list element.valueType))
  | .map element, .map entries => collectEntries (extract element) entries
  | .map element, v => .error (.mismatch v.kind (.map element.valueType))
  | .record type, v =>
    match type.read v.toJson with
    | .ok document => .ok document
    | .error e => .error (.mapping v.kind (.record type.name) e.message)

/-- Pack a value of a parameter type. -/
def render : (t : ParamType) → t.Carrier → Value
  | .bool, b => .bool b
  | .short, n => .short n
  | .int, n => .int n
  | .long, n => .long n
  | .double, x => .double x
  | .decimal, d => .decimal d
  | .string, s => .string s
  | .date, t => .date t
  | .uuid, u => .uuid u
  | .any, v => v
  | .option inner, o =>
    match o with
    | none => .null
    | some a => render inner a
  | .list element, items => .list (items.map (render element))
  | .map element, entries => .map (entries.map fun (key, a) => (key, render element a))
  | .record type, document =>
    match type.write document with
    | some document => Value.ofJson document
    | none => .null

/-- A value after it was unpacked and packed again. -/
def pass (t : ParamType) (v : Value) : Except ConversionError Value :=
  match t.extract v with
  | .ok a => .ok (t.render a)
  | .error e => .error e

end ParamType

namespace Conversion.Service

/-- Bring a value straight into a parameter type; null is nothing. -/
def convertTo (s : Service) (t : ParamType) (v : Value) :
    Except ConversionError (Option t.Carrier) :=
  if v.isNull then .ok none
  else match s.convert v t.valueType with
    | .error e => .error e
    | .ok r =>
      match t.extract r with
      | .error e => .error e
      | .ok a => .ok (some a)

end Conversion.Service

end CommandBus
