import CommandBus.Number.Digits

/-! # Decimal numbers

A `Decimal` is a sign, a coefficient of at most 96 bits and a scale of at most 28: the
number `± coefficient / 10 ^ scale`.  Scale and sign are part of the value, so that `1.50`
is not `1.5` and a zero may be negative; `same` compares the numbers only.

The bounds are proof fields.  `fit?` is the one place where a coefficient is tested. -/

namespace CommandBus.Number

/-- A decimal number with the digits it was written with. -/
structure Decimal where
  negative : Bool
  coefficient : Nat
  scale : Nat
  coefficient_lt : coefficient < 79228162514264337593543950336 := by decide
  scale_le : scale ≤ 28 := by decide
  deriving DecidableEq, Repr

namespace Decimal

/-- The first coefficient that does not fit. -/
def coefficientLimit : Nat := 79228162514264337593543950336

/-- The largest number of digits after the point. -/
def maxScale : Nat := 28

/-- The decimal with the given parts, if they are within the bounds. -/
def fit? (negative : Bool) (coefficient scale : Nat) : Option Decimal :=
  if h : coefficient < 79228162514264337593543950336 ∧ scale ≤ 28 then
    some ⟨negative, coefficient, scale, h.1, h.2⟩
  else none

/-- The same, with the sign of a zero dropped. -/
def unsignedZero? (negative : Bool) (coefficient scale : Nat) : Option Decimal :=
  fit? (negative && coefficient != 0) coefficient scale

def zero : Decimal := ⟨false, 0, 0, by decide, by decide⟩

/-- A word of 64 bits as a decimal. -/
def ofUInt64 (n : UInt64) : Decimal :=
  ⟨false, n.toNat, 0, Nat.lt_trans n.toNat_lt (by decide), by decide⟩

/-- A signed word of 64 bits as a decimal. -/
def ofInt64 (n : Int64) : Decimal :=
  ⟨n.toInt < 0, n.toInt.natAbs, 0, by
    have h₁ := n.le_toInt
    have h₂ := n.toInt_lt
    omega, by decide⟩

def isZero (d : Decimal) : Bool := d.coefficient == 0

/-- The number times `10 ^ 28`, which is an integer for every decimal. -/
def scaledValue (d : Decimal) : Int :=
  let magnitude : Nat := d.coefficient * Nat.pow 10 (28 - d.scale)
  if d.negative then -magnitude else magnitude

/-- Comparison of the numbers, digits and sign of zero aside. -/
def same (a b : Decimal) : Bool := a.scaledValue == b.scaledValue

/-- The integer that a decimal is, if it is one. -/
def toInt? (d : Decimal) : Option Int :=
  let unit := Nat.pow 10 d.scale
  if d.coefficient % unit = 0 then
    let n : Nat := d.coefficient / unit
    some (if d.negative then -n else n)
  else none

/-- The digits of the coefficient, as many as the scale asks for and one more. -/
def coefficientDigits (d : Decimal) : List Char :=
  let digits := toDigits d.coefficient
  List.replicate (d.scale + 1 - digits.length) '0' ++ digits

/-- The text of a decimal: its sign, its integer part and all digits of its scale. -/
def chars (d : Decimal) : List Char :=
  let digits := d.coefficientDigits
  let whole := digits.take (digits.length - d.scale)
  let fraction := digits.drop (digits.length - d.scale)
  (if d.negative then ['-'] else []) ++ whole ++ (if d.scale = 0 then [] else '.' :: fraction)

def text (d : Decimal) : String := String.ofList d.chars

theorem fit?_eq_some_iff {negative : Bool} {coefficient scale : Nat} {d : Decimal} :
    fit? negative coefficient scale = some d ↔
      d.negative = negative ∧ d.coefficient = coefficient ∧ d.scale = scale := by
  unfold fit?
  constructor
  · intro h
    split at h
    · simp only [Option.some.injEq] at h
      simp [← h]
    · contradiction
  · rintro ⟨rfl, rfl, rfl⟩
    rw [dif_pos ⟨d.coefficient_lt, d.scale_le⟩]

end Decimal

end CommandBus.Number
