import CommandBus.Number.Digits

/-! # Reading integers of a fixed range

An integer text is an optional sign followed by ASCII digits.  It is read from left to
right against a range: the first character that is no digit, or the first digit that
carries the number out of the range, decides the error.  A range without negative
numbers takes no `-`. -/

namespace CommandBus.Number

/-- Why a text is no integer of the asked range. -/
inductive IntegerError where
  | empty
  | invalidDigit
  | tooLarge
  | tooSmall
  deriving DecidableEq, Repr

/-- The wording of an integer error. -/
def IntegerError.message : IntegerError → String
  | .empty => "cannot parse integer from empty string"
  | .invalidDigit => "invalid digit found in string"
  | .tooLarge => "number too large to fit in target type"
  | .tooSmall => "number too small to fit in target type"

/-- The integers from `lo` to `hi`, both included. -/
structure IntegerRange where
  lo : Int
  hi : Int
  deriving DecidableEq, Repr

namespace IntegerRange

def short : IntegerRange := ⟨-32768, 32767⟩
def int : IntegerRange := ⟨-2147483648, 2147483647⟩
def long : IntegerRange := ⟨-9223372036854775808, 9223372036854775807⟩
def unsignedLong : IntegerRange := ⟨0, 18446744073709551615⟩

/-- Membership in the range. -/
def holds (r : IntegerRange) (n : Int) : Bool := r.lo ≤ n && n ≤ r.hi

end IntegerRange

/-- Append the digits of `cs` to `n`, away from zero on the side that `negative` names, as
long as the number stays in the range. -/
def scanDigits (r : IntegerRange) (negative : Bool) : Int → List Char → Except IntegerError Int
  | n, [] => .ok n
  | n, c :: cs =>
    match digitValue? c with
    | none => .error .invalidDigit
    | some d =>
      let next := if negative then n * 10 - d else n * 10 + d
      if r.holds next then scanDigits r negative next cs
      else .error (if negative then .tooSmall else .tooLarge)

/-- Read an integer of the range `r` from the whole of a text. -/
def readInteger (r : IntegerRange) : List Char → Except IntegerError Int
  | [] => .error .empty
  | ['+'] | ['-'] => .error .invalidDigit
  | '+' :: cs => scanDigits r false 0 cs
  | '-' :: cs =>
    if r.lo < 0 then scanDigits r true 0 cs else .error .invalidDigit
  | cs => scanDigits r false 0 cs

end CommandBus.Number
