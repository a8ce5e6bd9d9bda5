/-! # Kinds and types of values

A `Kind` is what a value is; a `ValueType` is what a parameter asks for.  The scalar types
are named by their kinds; lists, maps, records and `any` have no scalar kind. -/

namespace CommandBus

/-- What a value is, in the order in which kinds are listed. -/
inductive Kind where
  | null
  | bool
  | short
  | int
  | long
  | double
  | decimal
  | string
  | date
  | uuid
  | list
  | map
  deriving DecidableEq, Repr, Inhabited

namespace Kind

/-- All kinds, in order. -/
def all : List Kind :=
  [.null, .bool, .short, .int, .long, .double, .decimal, .string, .date, .uuid, .list, .map]

/-- The kinds of numbers, the narrowest first. -/
def numeric : List Kind := [.short, .int, .long, .double, .decimal]

def isNumeric (k : Kind) : Bool := numeric.contains k

def name : Kind → String
  | .null => "Null"
  | .bool => "Bool"
  | .short => "Short"
  | .int => "Int"
  | .long => "Long"
  | .double => "Double"
  | .decimal => "Decimal"
  | .string => "String"
  | .date => "Date"
  | .uuid => "Uuid"
  | .list => "List"
  | .map => "Map"

end Kind

/-- What a parameter asks for. -/
inductive ValueType where
  | bool
  | short
  | int
  | long
  | double
  | decimal
  | string
  | date
  | uuid
  | list (element : ValueType)
  | map (element : ValueType)
  /-- A structured type, carried as a map. -/
  | record (name : String)
  | any
  deriving DecidableEq, Repr, Inhabited

namespace ValueType

/-- The kind of a scalar type. -/
def scalarKind? : ValueType → Option Kind
  | .bool => some .bool
  | .short => some .short
  | .int => some .int
  | .long => some .long
  | .double => some .double
  | .decimal => some .decimal
  | .string => some .string
  | .date => some .date
  | .uuid => some .uuid
  | .list _ | .map _ | .record _ | .any => none

/-- The type that a kind stands for; null stands for anything. -/
def ofKind : Kind → ValueType
  | .bool => .bool
  | .short => .short
  | .int => .int
  | .long => .long
  | .double => .double
  | .decimal => .decimal
  | .string => .string
  | .date => .date
  | .uuid => .uuid
  | .list => .list .any
  | .map => .map .any
  | .null => .any

/-- The name of a type in messages and schemas. -/
def name : ValueType → String
  | .bool => "Bool"
  | .short => "Short"
  | .int => "Int"
  | .long => "Long"
  | .double => "Double"
  | .decimal => "Decimal"
  | .string => "String"
  | .date => "Date"
  | .uuid => "Uuid"
  | .list element => "List<" ++ element.name ++ ">"
  | .map element => "Map<String, " ++ element.name ++ ">"
  | .record name => "Record(" ++ name ++ ")"
  | .any => "Any"

end ValueType

end CommandBus
