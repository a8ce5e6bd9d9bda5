/-! # Double precision numbers, exactly

A `Binary64` is a word of 64 bits in the interchange format: one sign bit, eleven bits
of exponent and fifty-two of fraction.  Everything here is exact arithmetic on natural
numbers and integers; no machine float is involved, so every operation can be reasoned
about.

A finite number has the magnitude `significand * 2 ^ exponent`.  The exponent field `0`
(subnormal numbers) shares the exponent of the field `1`, so that the magnitude word is
`(exponent + 1074) * 2 ^ 52 + significand`, without the hidden bit being split off, for
both kinds: `ofRatio` relies on this, a carry out of the significand included.

`ofRatio` rounds a fraction to the nearest number, a tie to the even significand, and is
the only rounding in this library: sums, products, quotients and readings of text all go
through it. -/

namespace CommandBus.Number

/-- A double precision number, given by its bits. -/
structure Binary64 where
  bits : UInt64
  deriving DecidableEq, Repr

namespace Binary64

/-- The place value of the sign: `2 ^ 63`. -/
def signBit : Nat := 9223372036854775808

/-- The place value of the exponent field, which is also the bit of a significand that a
    number does not spell out: `2 ^ 52`. -/
def hiddenBit : Nat := 4503599627370496

/-- The bits as a natural number. -/
def word (x : Binary64) : Nat := x.bits.toNat

def negative (x : Binary64) : Bool := signBit ≤ x.word

def exponentField (x : Binary64) : Nat := x.word / hiddenBit % 2048

def fractionField (x : Binary64) : Nat := x.word % hiddenBit

def isFinite (x : Binary64) : Bool := x.exponentField != 2047

def isNaN (x : Binary64) : Bool := !x.isFinite && x.fractionField != 0

/-- Both zeros are zero. -/
def isZero (x : Binary64) : Bool := x.word % signBit == 0

/-- The integer `m` of the magnitude `m * 2 ^ exponent`, with the hidden bit. -/
def significand (x : Binary64) : Nat :=
  if x.exponentField = 0 then x.fractionField else hiddenBit + x.fractionField

/-- The power of two of the magnitude. -/
def exponent (x : Binary64) : Int :=
  if x.exponentField = 0 then -1074 else x.exponentField - 1075

/-- The magnitude of a finite number as a fraction of natural numbers. -/
def magnitude (x : Binary64) : Nat × Nat :=
  if 0 ≤ x.exponent then (x.significand * Nat.pow 2 x.exponent.toNat, 1)
  else (x.significand, Nat.pow 2 (-x.exponent).toNat)

/-- The largest word of a magnitude: infinity. -/
def infinityWord : Nat := 2047 * hiddenBit

/-- The number with a sign and a magnitude word. -/
def ofParts (negative : Bool) (word : Nat) : Binary64 :=
  ⟨UInt64.ofNat ((if negative then signBit else 0) + word)⟩

def infinity (negative : Bool) : Binary64 := ofParts negative infinityWord

/-- The quiet number that is not a number. -/
def nan : Binary64 := ofParts false (infinityWord + hiddenBit / 2)

def zero (negative : Bool) : Binary64 := ofParts negative 0

/-- `num / den` rounded to the nearest integer, a tie to the even one. -/
def divideToEven (num den : Nat) : Nat :=
  let q := num / den
  let r := num % den
  if 2 * r < den then q
  else if den < 2 * r then q + 1
  else if q % 2 = 0 then q else q + 1

/-- The largest `e` with `2 ^ e ≤ num / den`. -/
def floorLog2 (num den : Nat) : Int :=
  let e : Int := (num.log2 : Int) - den.log2
  -- the difference of the two logarithms is right or one too large
  let reached := if 0 ≤ e then den * Nat.pow 2 e.toNat ≤ num
    else den ≤ num * Nat.pow 2 (-e).toNat
  if reached then e else e - 1

/-- The number nearest to `num / den`, a tie to the even significand; magnitudes beyond
    the largest finite number by half a unit or more become infinity. -/
def ofRatio (negative : Bool) (num den : Nat) : Binary64 :=
  if num = 0 then zero negative
  else
    -- the unit of the last place: 53 bits of precision, or the finest unit there is
    let q := max (floorLog2 num den - 52) (-1074)
    let m := if 0 ≤ q then divideToEven num (den * Nat.pow 2 q.toNat)
      else divideToEven (num * Nat.pow 2 (-q).toNat) den
    -- a significand that was rounded up to 54 bits carries into the exponent
    ofParts negative (min ((q + 1074).toNat * hiddenBit + m) infinityWord)

def ofNat (n : Nat) : Binary64 := ofRatio false n 1

/-- The number nearest to an integer. -/
def ofInt (n : Int) : Binary64 := ofRatio (n < 0) n.natAbs 1

/-- Comparison of the numbers that the bits stand for: the two zeros are the same, and a
    number that is not a number is the same as nothing. -/
def same (x y : Binary64) : Bool :=
  !x.isNaN && !y.isNaN && (x.bits == y.bits || (x.isZero && y.isZero))

/-- The integer a finite number is, if it is one. -/
def toInt? (x : Binary64) : Option Int :=
  if x.isFinite then
    let (num, den) := x.magnitude
    if num % den = 0 then
      some (if x.negative then -(num / den : Nat) else (num / den : Nat))
    else none
  else none

/-- The product of two finite numbers. -/
def mul (x y : Binary64) : Binary64 :=
  let (a, b) := x.magnitude
  let (c, d) := y.magnitude
  ofRatio (x.negative != y.negative) (a * c) (b * d)

/-- The quotient of two finite numbers, the second one not zero. -/
def div (x y : Binary64) : Binary64 :=
  let (a, b) := x.magnitude
  let (c, d) := y.magnitude
  ofRatio (x.negative != y.negative) (a * d) (b * c)

/-- The sum of two finite numbers that are not negative. -/
def addMagnitudes (x y : Binary64) : Binary64 :=
  let (a, b) := x.magnitude
  let (c, d) := y.magnitude
  ofRatio false (a * d + c * b) (b * d)

/-- The integer nearest to a finite number that is not negative, a half going up. -/
def roundHalfUp (x : Binary64) : Nat :=
  let (num, den) := x.magnitude
  (2 * num + den) / (2 * den)

/-- The same magnitude with another sign. -/
def withSign (negative : Bool) (x : Binary64) : Binary64 := ofParts negative (x.word % signBit)

end Binary64

end CommandBus.Number
