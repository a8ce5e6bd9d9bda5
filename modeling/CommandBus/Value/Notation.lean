import CommandBus.Number.Decimal.Text
import CommandBus.Value.Json

/-! # A notation that keeps the kind

The plain document of a value forgets its kind: a date becomes a string like any other.  The
notation keeps it.  Null, truth values, strings and lists stand for themselves, and every other
value is an object with one member, named for its kind.  Longs and doubles are texts, the
latter the digits of their bits, so that no reader of documents rounds them. -/

namespace CommandBus

open Number

namespace Kind

/-- The kind of a name. -/
def ofName? (s : String) : Option Kind := all.find? fun k => k.name == s

end Kind

namespace ValueType

/-- The type that a notation stands for: the name of a scalar, `Any`, or an object with one
    member for a list, a map or a record. -/
def ofNotation? : Json → Option ValueType
  | .string "Any" => some .any
  | .string s => (Kind.ofName? s).map ofKind
  | .object [("list", element)] => (ofNotation? element).map .list
  | .object [("map", element)] => (ofNotation? element).map .map
  | .object [("record", .string s)] => some (.record s)
  | _ => none

end ValueType

namespace Value

/-- An object with one member. -/
def tag (name : String) (j : Json) : Json := .object [(name, j)]

/-- A small number as a document. -/
def number (n : Int) : Json :=
  match Json.Integer.ofInt? n with
  | some n => .integer n
  | none => .null

/-- The notation of the bits of a double; all that are not a number are the same. -/
def bitsText (x : Binary64) : String :=
  if x.isNaN then "NaN" else "0x" ++ String.ofList (paddedHex 16 x.word)

mutual

/-- The notation of a value. -/
def toNotation : Value → Json
  | .null => .null
  | .bool b => .bool b
  | .short n => tag "short" (number n.toInt)
  | .int n => tag "int" (number n.toInt)
  | .long n => tag "long" (.string (intText n.toInt))
  | .double x => tag "double" (.string (bitsText x))
  | .decimal d => tag "dec" (.string d.text)
  | .string s => .string s
  | .date t => tag "date" (.array [number t.seconds, number t.nanos])
  | .uuid u => tag "uuid" (.string u.text)
  | .list items => .array (toNotationItems items)
  | .map entries => tag "map" (.object (toNotationEntries entries))

def toNotationItems : List Value → List Json
  | [] => []
  | v :: rest => v.toNotation :: toNotationItems rest

def toNotationEntries : List (String × Value) → List (String × Json)
  | [] => []
  | (name, v) :: rest => (name, v.toNotation) :: toNotationEntries rest

end

/-- The double with the given bits. -/
def bitsOf? (s : String) : Option Binary64 :=
  match s.toList with
  | ['N', 'a', 'N'] => some Binary64.nan
  | '0' :: 'x' :: digits =>
    (digits.mapM hexValue?).map fun ds => ⟨UInt64.ofNat (ds.foldl (fun n d => n * 16 + d) 0)⟩
  | _ => none

/-- The value of a scalar's member. -/
def ofMember? : (name : String) → Json → Option Value
  | "short", .integer n => some (.short (Int16.ofInt n.value))
  | "int", .integer n => some (.int (Int32.ofInt n.value))
  | "long", .string s => (readInteger .long s.toList).toOption.map fun n => .long (Int64.ofInt n)
  | "double", .string s => (bitsOf? s).map .double
  | "dec", .string s => (Decimal.read s.toList).toOption.map .decimal
  | "date", .array [.integer s, .integer n] => (Instant.ofParts? s.value n.value.toNat).map .date
  | "uuid", .string s => (Uuid.read s.toList).toOption.map .uuid
  | _, _ => none

mutual

/-- The value of a notation. -/
def ofNotation? : Json → Option Value
  | .null => some .null
  | .bool b => some (.bool b)
  | .string s => some (.string s)
  | .array items => (ofNotationItems? items).map .list
  | .object [("map", .object members)] =>
    (ofNotationMembers? members).map fun entries => .map (Entries.ofList entries)
  | .object [(name, j)] => ofMember? name j
  | _ => none

def ofNotationItems? : List Json → Option (List Value)
  | [] => some []
  | j :: rest =>
    match ofNotation? j, ofNotationItems? rest with
    | some v, some vs => some (v :: vs)
    | _, _ => none

def ofNotationMembers? : List (String × Json) → Option (List (String × Value))
  | [] => some []
  | (name, j) :: rest =>
    match ofNotation? j, ofNotationMembers? rest with
    | some v, some vs => some ((name, v) :: vs)
    | _, _ => none

end

end Value

end CommandBus
