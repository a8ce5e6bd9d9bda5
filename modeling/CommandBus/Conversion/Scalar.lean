import CommandBus.Conversion.Error
import CommandBus.Number.Binary64.Text
import CommandBus.Number.Decimal.Binary
import CommandBus.Number.Decimal.Text
import CommandBus.Number.IntegerText
import CommandBus.Text.Blank
import CommandBus.Value.Basic

/-! # Conversions between scalars

Narrowing is checked: a number outside the range or with a fraction is refused, never cut
off.  Dates become epoch milliseconds and only through the long integers.  Texts are trimmed
before they are read, and messages quote them as they were.

`integral` is what all integer targets share: the integer that a value stands for. -/

namespace CommandBus.Conversion

open Number Text

/-- A conversion of single values. -/
abbrev Converter := Value → Except ConversionError Value

/-- The bound of the long integers, from above. -/
def longLimit : Int := 9223372036854775808

/-- The long integer that a double stands for, or what keeps it from being one. -/
def integralDouble (x : Binary64) : Except String Int :=
  match x.toInt? with
  | none => .error (x.display ++ " is not an integral value")
  | some n =>
    if n < -longLimit ∨ longLimit ≤ n then .error (x.display ++ " is out of range") else .ok n

/-- The long integer that a decimal stands for, or what keeps it from being one. -/
def integralDecimal (d : Decimal) : Except String Int :=
  match d.toInt? with
  | none => .error (d.text ++ " is not an integral value")
  | some n =>
    if n < -longLimit ∨ longLimit ≤ n then .error (d.text ++ " is out of range") else .ok n

/-- The long integer that a text stands for, or what keeps it from being one. -/
def integralText (s : String) : Except String Int :=
  match readInteger .long (trim s.toList) with
  | .ok n => .ok n
  | .error e => .error ("'" ++ s ++ "' is not an integer: " ++ e.message)

/-- The long integer that a value stands for, or what keeps it from being one. -/
def integral : Value → Except String Int
  | .short n => .ok n.toInt
  | .int n => .ok n.toInt
  | .long n => .ok n.toInt
  | .date t => .ok t.toMillis
  | .double x => integralDouble x
  | .decimal d => integralDecimal d
  | .string s => integralText s
  | v => .error (v.kind.name ++ " is not numeric")

/-- Bring a value to an integer type of a given range. -/
def narrow (range : IntegerRange) (target : ValueType) (wrap : Int → Value) : Converter := fun v =>
  match integral v with
  | .error reason => .error (.invalid v.kind target reason)
  | .ok n =>
    if range.holds n then .ok (wrap n)
    else .error (.invalid v.kind target (intText n ++ " is out of range"))

def toShort : Converter := narrow .short .short fun n => .short (Int16.ofInt n)

def toInt : Converter := narrow .int .int fun n => .int (Int32.ofInt n)

def toLong : Converter := narrow .long .long fun n => .long (Int64.ofInt n)

def toDouble : Converter
  | .short n => .ok (.double (Binary64.ofInt n.toInt))
  | .int n => .ok (.double (Binary64.ofInt n.toInt))
  | .long n => .ok (.double (Binary64.ofInt n.toInt))
  | .decimal d => .ok (.double d.toBinary64)
  | .string s =>
    match Binary64.read (trim s.toList) with
    | .ok x => .ok (.double x)
    | .error e => .error (.invalid .string .double ("'" ++ s ++ "' is not a number: " ++ e.message))
  | v => .error (.unsupported v.kind .double)

def toDecimal : Converter
  | .short n => .ok (.decimal (Decimal.ofInt64 n.toInt64))
  | .int n => .ok (.decimal (Decimal.ofInt64 n.toInt64))
  | .long n => .ok (.decimal (Decimal.ofInt64 n))
  | .double x =>
    match Decimal.ofBinary64? x with
    | some d => .ok (.decimal d)
    | none => .error (.invalid .double .decimal (x.display ++ " is not representable"))
  | .string s =>
    match Decimal.read (trim s.toList) with
    | .ok d => .ok (.decimal d)
    | .error e =>
      .error (.invalid .string .decimal ("'" ++ s ++ "' is not a decimal: " ++ e.message))
  | v => .error (.unsupported v.kind .decimal)

/-- The text of a truth value. -/
def boolText (b : Bool) : String := if b then "true" else "false"

def toText : Converter
  | .bool b => .ok (.string (boolText b))
  | .short n => .ok (.string (intText n.toInt))
  | .int n => .ok (.string (intText n.toInt))
  | .long n => .ok (.string (intText n.toInt))
  | .double x => .ok (.string x.display)
  | .decimal d => .ok (.string d.text)
  | .date t => .ok (.string t.text)
  | .uuid u => .ok (.string u.text)
  | .string s => .ok (.string s)
  | v => .error (.unsupported v.kind .string)

/-- The truth value that a text names, in any case and between blanks. -/
def boolOfText? (s : String) : Option Bool :=
  let word := (trim s.toList).map Char.toLower
  if word = ['t', 'r', 'u', 'e'] then some true
  else if word = ['f', 'a', 'l', 's', 'e'] then some false
  else none

def toBool : Converter := fun v =>
  match v.string?.bind boolOfText? with
  | some b => .ok (.bool b)
  | none => .error (.invalid v.kind .bool "expected 'true' or 'false'")

def toUuid : Converter
  | .string s =>
    match Uuid.read (trim s.toList) with
    | .ok u => .ok (.uuid u)
    | .error e => .error (.invalid .string .uuid e.message)
  | v => .error (.unsupported v.kind .uuid)

def toDate : Converter
  | .long n =>
    match Instant.ofMillis? n.toInt with
    | some t => .ok (.date t)
    | none =>
      .error (.invalid .long .date (intText n.toInt ++ " is outside the representable date range"))
  | v => .error (.unsupported v.kind .date)

end CommandBus.Conversion
