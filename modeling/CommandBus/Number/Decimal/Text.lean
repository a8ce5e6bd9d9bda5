import CommandBus.Number.Decimal
import CommandBus.Number.IntegerText

/-! # Reading decimals

A decimal text is an optional sign, digits and at most one point, read from left to right.
An underscore is skipped once a digit was seen.  Digits are kept exactly while the
coefficient has 96 bits and the scale is at most 28; the first digit beyond that rounds a
fraction half up and is an error before the point.  An underscore in the place of that digit
counts as zero while the coefficient is small (`Progress.inWord`), and is skipped otherwise.

A text that is not of this form but holds an `e` is read as a decimal with an exponent of
ten, at most 28 in size. -/

namespace CommandBus.Number.Decimal

/-- Why a text is no decimal. -/
inductive ReadError where
  | empty
  | noDigits
  | unknownCharacter
  | secondPoint
  | leadingUnderscore
  | tooManyDigits
  | roundedOverflow
  | malformedExponent
  | exponentTooLarge (exponent : Nat)
  | tooLarge
  deriving DecidableEq, Repr

/-- The wording of a decimal error. -/
def ReadError.message : ReadError → String
  | .empty => "Invalid decimal: empty"
  | .noDigits => "Invalid decimal: no digits found"
  | .unknownCharacter => "Invalid decimal: unknown character"
  | .secondPoint => "Invalid decimal: two decimal points"
  | .leadingUnderscore => "Invalid decimal: must start lead with a number"
  | .tooManyDigits => "Invalid decimal: overflow from too many digits"
  | .roundedOverflow => "Invalid decimal: overflow from mantissa after rounding"
  | .malformedExponent => "Failed to parse"
  | .exponentTooLarge e =>
    "Scale exceeds the maximum precision allowed: " ++ natText e ++ " > " ++ natText maxScale
  | .tooLarge => "Number exceeds maximum value that can be represented."

/-- The error of a character that has no place in a decimal text. -/
def misplaced (c : Char) : ReadError :=
  if c = '.' then .secondPoint
  else if c = '_' then .leadingUnderscore
  else .unknownCharacter

/-- A coefficient below this one has room for another digit in a word of 64 bits: a tenth of the
    largest word, less 255. -/
def wordLimit : Nat := 1844674407370954906

/-- What is known of a decimal after some of its characters. -/
structure Progress where
  negative : Bool
  coefficient : Nat := 0
  scale : Nat := 0
  /-- The point was read. -/
  point : Bool := false
  /-- A digit was read. -/
  digit : Bool := false
  deriving DecidableEq, Repr

namespace Progress

/-- The decimal when the text ends here. -/
def finish (p : Progress) : Except ReadError Decimal :=
  if !p.digit then .error .noDigits
  else match unsignedZero? p.negative p.coefficient p.scale with
    | some d => .ok d
    | none => .error .tooLarge

/-- The digits that are dropped are only tested for being digits. -/
def checkDropped : List Char → Except ReadError Unit
  | [] => .ok ()
  | c :: cs => if isDigit c || c = '_' then checkDropped cs else .error (misplaced c)

/-- Add one to the coefficient; when that leaves 96 bits, one digit less has room for it. -/
def roundUp (p : Progress) : Except ReadError Progress :=
  if p.coefficient + 1 < coefficientLimit then .ok { p with coefficient := p.coefficient + 1 }
  else if p.scale = 0 then .error .roundedOverflow
  else .ok { p with coefficient := (p.coefficient + 1 + 4) / 10, scale := p.scale - 1 }

/-- Round half up by the first dropped character, an underscore counting as zero.  The
    characters after it cannot change the number, but they can spoil the text. -/
def round (p : Progress) (c : Char) (cs : List Char) : Except ReadError Decimal :=
  if c != '_' && !isDigit c then .error (misplaced c)
  else match (if (digitValue? c).getD 0 < 5 then .ok p else p.roundUp) with
    | .error e => .error e
    | .ok p =>
      match checkDropped cs with
      | .error e => .error e
      | .ok () => p.finish

/-- Whether the coefficient was gathered in a single word up to its last digit. -/
def inWord (p : Progress) : Bool := p.coefficient / 10 < wordLimit

/-- Read the rest of a decimal text. -/
def scan : Progress → List Char → Except ReadError Decimal
  | p, [] => p.finish
  | p, c :: cs =>
    if p.point && p.digit && maxScale ≤ p.scale then
      -- the digit behind underscores rounds, unless the coefficient never left its word
      if c = '_' && !p.inWord then scan p cs else p.round c cs
    else match digitValue? c with
      | some d =>
        let next := p.coefficient * 10 + d
        if next < coefficientLimit then
          scan { p with coefficient := next, scale := if p.point then p.scale + 1 else 0, digit := true } cs
        -- a digit without room rounds a fraction, but cannot be left out of an integer
        else if p.point then p.round c cs
        else .error .tooManyDigits
      | none =>
        if c = '.' && !p.point then scan { p with point := true } cs
        else if c = '_' && p.digit then scan p cs
        else .error (misplaced c)

end Progress

/-- Read a decimal without an exponent. -/
def readPlain : List Char → Except ReadError Decimal
  | [] => .error .empty
  | '-' :: cs => Progress.scan { negative := true } cs
  | '+' :: cs => Progress.scan { negative := false } cs
  | cs => Progress.scan { negative := false } cs

/-- The text before the first `e` of either case, and the text after it. -/
def cutExponent : List Char → Option (List Char × List Char)
  | [] => none
  | c :: cs =>
    if c = 'e' ∨ c = 'E' then some ([], cs)
    else (cutExponent cs).map fun (base, exponent) => (c :: base, exponent)

/-- The size of an exponent: below `2 ^ 32` to be read at all, at most 28 to be used. -/
def readExponentSize (cs : List Char) : Except ReadError Nat :=
  match readInteger ⟨0, 4294967295⟩ cs with
  | .error _ => .error .malformedExponent
  | .ok n => if maxScale < n.toNat then .error (.exponentTooLarge n.toNat) else .ok n.toNat

/-- Divide by a power of ten, a half going away from zero. -/
def divideHalfUp (n : Nat) (places : Nat) : Nat :=
  (n + 5 * Nat.pow 10 places / 10) / Nat.pow 10 places

/-- `d * 10 ^ -e`: the scale grows by `e`; digits that it has no room for are rounded off
    first. -/
def lowered (d : Decimal) (e : Nat) : Except ReadError Decimal :=
  let result :=
    if d.scale + e ≤ maxScale then fit? d.negative d.coefficient (d.scale + e)
    else fit? d.negative (divideHalfUp d.coefficient (d.scale + e - maxScale)) maxScale
  match result with
  | some d => .ok d
  | none => .error .tooLarge

/-- `d * 10 ^ e`: the scale shrinks by `e`, and below zero the coefficient grows. -/
def raised (d : Decimal) (e : Nat) : Except ReadError Decimal :=
  let result :=
    if e ≤ d.scale then fit? d.negative d.coefficient (d.scale - e)
    else fit? d.negative (d.coefficient * Nat.pow 10 (e - d.scale)) 0
  match result with
  | some d => .ok d
  | none => .error .tooLarge

/-- Read a decimal with an exponent, given its two parts. -/
def readScaled (base exponent : List Char) : Except ReadError Decimal :=
  match readPlain base with
  | .error e => .error e
  | .ok d =>
    match exponent with
    | '-' :: cs =>
      match readExponentSize cs with
      | .error e => .error e
      | .ok e => d.lowered e
    | cs =>
      let digits := match cs with
        | '+' :: rest => rest
        | cs => cs
      match readExponentSize digits with
      | .error e => .error e
      | .ok e => d.raised e

/-- Read a decimal from the whole of a text. -/
def read (cs : List Char) : Except ReadError Decimal :=
  match readPlain cs with
  | .ok d => .ok d
  | .error e =>
    match cutExponent cs with
    | some (base, exponent) => readScaled base exponent
    | none => .error e

end CommandBus.Number.Decimal
