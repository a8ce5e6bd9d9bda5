import CommandBus.Conversion.Scalar

/-! # The conversion table

A table gives a converter for some pairs of kinds.  `builtin` converts numbers and texts into
every kind of number, most scalars into texts, texts into truth values and identifiers, and
dates into long integers and back.

Some pairs are disabled for good: an integer of 32 bits, a fraction or a text is no safe date,
and a date fits none of them.  The one way between dates and numbers is epoch milliseconds in a
long integer. -/

namespace CommandBus.Conversion

/-- The pairs that never convert. -/
def disabledPairs : List (Kind × Kind) := [
  (.short, .date),
  (.int, .date),
  (.double, .date),
  (.decimal, .date),
  (.string, .date),
  (.date, .short),
  (.date, .int),
  (.date, .double),
  (.date, .decimal)]

def isDisabled (source target : Kind) : Bool := disabledPairs.contains (source, target)

/-- The converters by source and target kind. -/
abbrev Table := Kind → Kind → Option Converter

namespace Table

/-- The kinds that convert into every kind of number. -/
def isNumberSource : Kind → Bool
  | .short | .int | .long | .double | .decimal | .string => true
  | _ => false

/-- The kinds that convert into a text. -/
def isTextSource : Kind → Bool
  | .bool | .short | .int | .long | .double | .decimal | .date | .uuid => true
  | _ => false

/-- The converter into a kind of number. -/
def numberConverter? : Kind → Option Converter
  | .short => some toShort
  | .int => some toInt
  | .long => some toLong
  | .double => some toDouble
  | .decimal => some toDecimal
  | _ => none

/-- The conversions that every service starts from. -/
def builtin : Table := fun source target =>
  if source = target then none
  else match source, target with
    | .string, .bool => some toBool
    | .string, .uuid => some toUuid
    | .date, .long => some toLong
    | .long, .date => some toDate
    | source, .string => if isTextSource source then some toText else none
    | source, target => if isNumberSource source then numberConverter? target else none

/-- Put a converter in the place of one pair. -/
def insert (table : Table) (source target : Kind) (converter : Converter) : Table :=
  fun s t => if s = source ∧ t = target then some converter else table s t

/-- The pairs with a converter, in the order of the kinds. -/
def pairs (table : Table) : List (Kind × Kind) :=
  Kind.all.flatMap fun source =>
    (Kind.all.filter fun target => (table source target).isSome).map fun target => (source, target)

@[simp] theorem insert_self (table : Table) (source target : Kind) (converter : Converter) :
    table.insert source target converter source target = some converter := by
  simp [insert]

theorem insert_ne (table : Table) {source target s t : Kind} (converter : Converter)
    (h : ¬(s = source ∧ t = target)) :
    table.insert source target converter s t = table s t := by
  simp [insert, h]

/-- No built-in converter stands at a disabled pair. -/
theorem builtin_of_isDisabled {source target : Kind} (h : isDisabled source target = true) :
    builtin source target = none := by
  cases source <;> cases target <;> first | rfl | exact absurd h (by decide)

end Table

end CommandBus.Conversion
