import CommandBus.Conversion.Table

/-! # The conversion service

`Service.convert` brings a value to a type:

1. null stays null, and a value that satisfies the type is given back as it is;
2. a scalar type runs the converter of the pair, if there is one;
3. a disabled pair is refused;
4. everything else is left to the structural mapper.

The elementwise mapper converts the items of a list and the entries of a map one by one and
tells of the first one that fails.  A service is built from the built-in table by registering
converters, each in the place of its pair; a disabled pair cannot be registered. -/

namespace CommandBus.Conversion

open Number

/-- The messages of a failed mapping, from the outside in. -/
abbrev Failure := List String

/-- How a value is brought to a type that the table does not cover. -/
inductive Mapper where
  /-- Item by item, with the conversions of the service. -/
  | elementwise
  /-- By a function of the value and the type. -/
  | custom (map : Value → ValueType → Except Failure Value)

/-- The conversions of one environment. -/
structure Service where
  table : Table
  mapper : Mapper

/-- The reason of a mapping error: the messages of the failure. -/
def reasonOf (failure : Failure) : String := ": ".intercalate failure

/-- The failure of an item of a list. -/
def itemFailure (index : Nat) (e : ConversionError) : Failure :=
  ["element " ++ natText index, e.message]

/-- The failure of an entry of a map. -/
def entryFailure (key : String) (e : ConversionError) : Failure :=
  ["key '" ++ key ++ "'", e.message]

/-- The failure of a value that the elementwise mapper has no rule for. -/
def noMapping (source : Kind) (target : ValueType) : Failure :=
  ["no structural mapping from " ++ source.name ++ " to " ++ target.name]

namespace Service

/-- The built-in conversions with the elementwise mapper. -/
def standard : Service := ⟨Table.builtin, .elementwise⟩

/-- What the table says of a value and a type: the result of a converter, the refusal of a
    disabled pair, or nothing. -/
def byTable (s : Service) (v : Value) (t : ValueType) : Option (Except ConversionError Value) :=
  match t.scalarKind? with
  | none => none
  | some k =>
    match s.table v.kind k with
    | some converter => some (converter v)
    | none => if isDisabled v.kind k then some (.error (.unsupported v.kind t)) else none

mutual

/-- Bring a value to a type. -/
def convert (s : Service) (v : Value) (t : ValueType) : Except ConversionError Value :=
  -- an identity needs no converter, not even one that was registered for it
  if v.isNull || v.satisfies t then .ok v
  else match s.byTable v t with
    | some result => result
    | none =>
      match s.mapper with
      | .custom map =>
        match map v t with
        | .ok r => .ok r
        | .error failure => .error (.mapping v.kind t (reasonOf failure))
      | .elementwise =>
        match v, t with
        | .list items, .list element =>
          match convertItems s items element 0 with
          | .ok items => .ok (.list items)
          | .error failure => .error (.mapping .list t (reasonOf failure))
        | .map entries, .map element =>
          match convertEntries s entries element with
          | .ok entries => .ok (.map entries)
          | .error failure => .error (.mapping .map t (reasonOf failure))
        | v, t => .error (.mapping v.kind t (reasonOf (noMapping v.kind t)))

/-- Bring the items of a list to a type, the first one being number `index`. -/
def convertItems (s : Service) : List Value → ValueType → (index : Nat) → Except Failure (List Value)
  | [], _, _ => .ok []
  | v :: rest, t, index =>
    match convert s v t with
    | .error e => .error (itemFailure index e)
    | .ok r =>
      match convertItems s rest t (index + 1) with
      | .error failure => .error failure
      | .ok rs => .ok (r :: rs)

/-- Bring the values of entries to a type. -/
def convertEntries (s : Service) :
    List (String × Value) → ValueType → Except Failure (List (String × Value))
  | [], _ => .ok []
  | (key, v) :: rest, t =>
    match convert s v t with
    | .error e => .error (entryFailure key e)
    | .ok r =>
      match convertEntries s rest t with
      | .error failure => .error failure
      | .ok rs => .ok ((key, r) :: rs)

end

/-- A converter registered for a pair. -/
structure Override where
  source : Kind
  target : Kind
  converter : Converter

/-- The error of registering a disabled pair. -/
def disabledError (source target : Kind) : ConfigurationError :=
  ⟨"conversion from " ++ source.name ++ " to " ++ target.name
    ++ " is disabled and cannot be registered"⟩

/-- Put overrides into a table in turn. -/
def install : Table → List Override → Except ConfigurationError Table
  | table, [] => .ok table
  | table, o :: rest =>
    if isDisabled o.source o.target then .error (disabledError o.source o.target)
    else install (table.insert o.source o.target o.converter) rest

/-- The service with overrides and a mapper, the elementwise one if none is given. -/
def build (overrides : List Override) (mapper : Option Mapper) : Except ConfigurationError Service :=
  match install Table.builtin overrides with
  | .error e => .error e
  | .ok table => .ok ⟨table, mapper.getD .elementwise⟩

/-- What a service shows of itself: the number of its pairs. -/
def debugText (s : Service) : String :=
  "ConversionService \x7b pairs: " ++ natText s.table.pairs.length ++ ", .. \x7d"

end Service

end CommandBus.Conversion
