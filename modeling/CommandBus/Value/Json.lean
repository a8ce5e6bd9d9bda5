import CommandBus.Json.Basic
import CommandBus.Number.Decimal
import CommandBus.Value.Basic

/-! # Values and JSON

`Value.ofJson` reads integers as longs where they fit and as decimals beyond; `Value.toJson`
writes decimals, dates and identifiers as strings and numbers that are not finite as null.
`Value.plain` is what is left of a value after it was written and read. -/

namespace CommandBus.Value

open Number

mutual

/-- The value of a document. -/
def ofJson : Json → Value
  | .null => .null
  | .bool b => .bool b
  | .integer n =>
    match n.toInt64? with
    | some n => .long n
    | none => .decimal (Decimal.ofUInt64 n.toUInt64)
  | .double x => .double x
  | .string s => .string s
  | .array items => .list (ofJsonItems items)
  | .object members => .map (ofJsonMembers members)

def ofJsonItems : List Json → List Value
  | [] => []
  | item :: rest => ofJson item :: ofJsonItems rest

def ofJsonMembers : List (String × Json) → List (String × Value)
  | [] => []
  | (name, item) :: rest => (name, ofJson item) :: ofJsonMembers rest

end

mutual

/-- The document of a value. -/
def toJson : Value → Json
  | .null => .null
  | .bool b => .bool b
  | .short n => .integer ⟨n.toInt, Int.le_trans (by decide) n.le_toInt, Int.lt_trans n.toInt_lt (by decide)⟩
  | .int n => .integer ⟨n.toInt, Int.le_trans (by decide) n.le_toInt, Int.lt_trans n.toInt_lt (by decide)⟩
  | .long n => .integer (Json.Integer.ofInt64 n)
  | .double x => if x.isFinite then .double x else .null
  | .decimal d => .string d.text
  | .string s => .string s
  | .date t => .string t.text
  | .uuid u => .string u.text
  | .list items => .array (toJsonItems items)
  | .map entries => .object (toJsonEntries entries)

def toJsonItems : List Value → List Json
  | [] => []
  | item :: rest => item.toJson :: toJsonItems rest

def toJsonEntries : List (String × Value) → List (String × Json)
  | [] => []
  | (name, item) :: rest => (name, item.toJson) :: toJsonEntries rest

end

mutual

/-- A value with only the kinds that a document has: short integers widened, decimals, dates
    and identifiers as their texts, and null for numbers that are not finite. -/
def plain : Value → Value
  | .short n => .long n.toInt64
  | .int n => .long n.toInt64
  | .double x => if x.isFinite then .double x else .null
  | .decimal d => .string d.text
  | .date t => .string t.text
  | .uuid u => .string u.text
  | .list items => .list (plainItems items)
  | .map entries => .map (plainEntries entries)
  | v => v

def plainItems : List Value → List Value
  | [] => []
  | item :: rest => item.plain :: plainItems rest

def plainEntries : List (String × Value) → List (String × Value)
  | [] => []
  | (name, item) :: rest => (name, item.plain) :: plainEntries rest

end

end CommandBus.Value
