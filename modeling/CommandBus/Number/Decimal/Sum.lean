import CommandBus.Number.Decimal

/-! # Sums of decimals

A sum is computed exactly at the larger of the two scales.  When its coefficient has no
room there, digits after the point are dropped, a half going to the even neighbour; a sum
whose integer part has no room is no decimal.  A zero operand gives the other one back
as it was written, and a sum of zero is never negative otherwise. -/

namespace CommandBus.Number.Decimal

/-- Divide by a power of ten, a half going to the even neighbour. -/
def divideHalfEven (n : Nat) (places : Nat) : Nat :=
  let unit := Nat.pow 10 places
  let q := n / unit
  let r := n % unit
  if 2 * r < unit then q
  else if unit < 2 * r then q + 1
  else if q % 2 = 0 then q else q + 1

/-- Drop as few digits as needed, `dropped` of them so far, and at most `left` more. -/
def fitRounded? (negative : Bool) (n : Nat) : (left dropped : Nat) → Option Decimal
  | 0, dropped => fit? negative (divideHalfEven n dropped) 0
  | left + 1, dropped =>
    match fit? negative (divideHalfEven n dropped) (left + 1) with
    | some d => some d
    | none => fitRounded? negative n left (dropped + 1)

/-- The coefficient of a decimal at a scale that is not smaller than its own, with its sign. -/
def signedAt (d : Decimal) (scale : Nat) : Int :=
  let magnitude : Nat := d.coefficient * Nat.pow 10 (scale - d.scale)
  if d.negative then -magnitude else magnitude

/-- The sum of two decimals, if there is room for it. -/
def add? (a b : Decimal) : Option Decimal :=
  if a.isZero then some b
  else if b.isZero then some a
  else
    let scale := max a.scale b.scale
    let sum := a.signedAt scale + b.signedAt scale
    -- the sum is exact here; only making room for it rounds
    fitRounded? (sum < 0) sum.natAbs scale 0

end CommandBus.Number.Decimal
