import CommandBus.Number.Decimal
import CommandBus.Number.Binary64

/-! # Decimals and double precision numbers

`ofBinary64?` works on a coefficient of 96 bits that it multiplies by five or halves until
the power of two is gone, then moves the power of ten into range and keeps about sixteen
digits.  `toBinary64` splits off the integer part, and rounds the sum of the two parts to
the scale of the decimal.  Neither is correctly rounded in every case; both answer the same
digits for the same input. -/

namespace CommandBus.Number.Decimal

/-- A coefficient of 96 bits with a power of ten. -/
structure Scaled where
  coefficient : Nat
  exponent : Int
  deriving DecidableEq, Repr

namespace Scaled

/-- Multiply by `10 / 2` for each of `steps` halvings that are left: an even coefficient is
    halved, an odd one multiplied by five, and one that has no room for it loses a bit. -/
def clearHalves : (steps : Nat) → Scaled → Scaled
  | 0, s => s
  | steps + 1, s =>
    if s.coefficient % 2 = 0 then
      clearHalves steps ⟨s.coefficient / 2, s.exponent + 1⟩
    else if s.coefficient * 5 < coefficientLimit then
      clearHalves steps ⟨s.coefficient * 5, s.exponent⟩
    else
      clearHalves steps ⟨s.coefficient / 2, s.exponent + 1⟩

/-- Double for each of `steps` doublings that are left, taking a factor of ten out with each;
    when there is no room, divide by five instead, unless too much is left to do. -/
def clearDoubles : (steps : Nat) → Scaled → Option Scaled
  | 0, s => some s
  | steps + 1, s =>
    if s.coefficient * 2 < coefficientLimit then
      clearDoubles steps ⟨s.coefficient * 2, s.exponent - 1⟩
    else if ((steps : Int) + 1) < 2 * s.exponent then none
    else clearDoubles steps ⟨s.coefficient / 5, s.exponent⟩

/-- Multiply a positive power of ten out. -/
def clearPositive (s : Scaled) : Option Scaled :=
  if s.exponent ≤ 0 then some s
  else
    let n := s.coefficient * Nat.pow 10 s.exponent.toNat
    if n < coefficientLimit then some ⟨n, 0⟩ else none

/-- Divide by ten, a digit of five or more carrying. -/
def dropDigit (s : Scaled) : Scaled :=
  ⟨s.coefficient / 10 + (if 5 ≤ s.coefficient % 10 then 1 else 0), s.exponent + 1⟩

/-- Drop digits until the scale is at most 28; a coefficient that is used up is zero. -/
def limitScale : (steps : Nat) → Scaled → Scaled
  | 0, s => s
  | steps + 1, s =>
    if -28 ≤ s.exponent then s
    else if s.coefficient / 10 = 0 then ⟨0, 0⟩
    else limitScale steps s.dropDigit

/-- Drop digits after the point until the coefficient has at most 52 bits. -/
def limitPrecision : (steps : Nat) → Scaled → Scaled
  | 0, s => s
  | steps + 1, s =>
    if s.exponent < 0 && Binary64.hiddenBit ≤ s.coefficient then limitPrecision steps s.dropDigit else s

/-- Drop zeros after the point. -/
def stripZeros : (steps : Nat) → Scaled → Scaled
  | 0, s => s
  | steps + 1, s =>
    if s.exponent < 0 && s.coefficient % 10 = 0 then
      stripZeros steps ⟨s.coefficient / 10, s.exponent + 1⟩
    else s

end Scaled

/-- The decimal for a double precision number, if it has one. -/
def ofBinary64? (x : Binary64) : Option Decimal :=
  if !x.isFinite then none
  else if x.isZero then fit? x.negative 0 0
  else
    let start : Scaled := ⟨x.significand, x.exponent⟩
    let cleared :=
      if x.exponent < 0 then some (start.clearHalves (-x.exponent).toNat)
      else start.clearDoubles x.exponent.toNat
    match cleared.bind Scaled.clearPositive with
    | none => none
    | some s =>
      let s := ((s.limitScale 1200).limitPrecision 40).stripZeros 40
      fit? x.negative s.coefficient (-s.exponent).toNat

/-- `10 ^ n` by repeated squaring, each product rounded. -/
def tenPower (n : Nat) : Binary64 :=
  go 64 n (Binary64.ofNat 10) (Binary64.ofNat 1)
where
  go : (fuel : Nat) → (n : Nat) → (base product : Binary64) → Binary64
    | 0, _, _, product => product
    | fuel + 1, n, base, product =>
      let product := if n % 2 = 1 then product.mul base else product
      if n / 2 = 0 then product else go fuel (n / 2) (base.mul base) product

/-- The double precision number for a decimal. -/
def toBinary64 (d : Decimal) : Binary64 :=
  if d.scale = 0 then Binary64.ofInt (if d.negative then -d.coefficient else d.coefficient)
  else
    let unit := Nat.pow 10 d.scale
    let whole := Binary64.ofNat (d.coefficient / unit)
    let fraction := (Binary64.ofNat (d.coefficient % unit)).div (Binary64.ofNat unit)
    if fraction.isZero then whole.withSign d.negative
    else
      let power := tenPower d.scale
      let shifted := (whole.addMagnitudes fraction).mul power
      ((Binary64.ofNat shifted.roundHalfUp).div power).withSign d.negative

end CommandBus.Number.Decimal
