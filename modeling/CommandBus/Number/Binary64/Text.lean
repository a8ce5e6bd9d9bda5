import CommandBus.Number.Digits
import CommandBus.Number.Binary64

/-! # Texts of double precision numbers

`shortest` finds the fewest decimal digits that read back as the same number, and among
those the digits nearest to it.  A layout then places the point: `display` never writes
an exponent and drops a fraction of zero, `jsonNumber` always has a point and changes to
an exponent outside `10 ^ -5 ≤ x < 10 ^ 16`.  A number in the middle between two choices of
digits goes up in a display and to the even digit in JSON.

`read` takes a sign, digits with an optional point and an optional exponent, or one of the
words for infinity and for not a number, and rounds correctly. -/

namespace CommandBus.Number.Binary64

/-- The reals that round to a finite number, in quarters of its last place: the lower end,
    the number and the upper end.  Below a power of two the next number is nearer. -/
def roundingInterval (x : Binary64) : Nat × Nat × Nat :=
  let m := x.significand
  let below := if m = hiddenBit && 1 < x.exponentField then 1 else 2
  (4 * m - below, 4 * m, 4 * m + 2)

/-- `n * 10 ^ e` as a fraction. -/
def scaledByTen (n : Nat) (e : Int) : Nat × Nat :=
  if 0 ≤ e then (n * Nat.pow 10 e.toNat, 1) else (n, Nat.pow 10 (-e).toNat)

/-- The largest `e` with `10 ^ e ≤ num / den`, found from a lower bound by counting up. -/
def floorLog10From (num den : Nat) : (fuel : Nat) → (e : Int) → Int
  | 0, e => e
  | fuel + 1, e =>
    let (a, b) := scaledByTen 1 (e + 1)
    if a * den ≤ num * b then floorLog10From num den fuel (e + 1) else e

/-- The largest `e` with `10 ^ e ≤ num / den`: counted up from a bound that comes from the
    largest power of two in the fraction. -/
def floorLog10 (num den : Nat) : Int :=
  let two := floorLog2 num den
  let estimate : Int := if 0 ≤ two then two * 3 / 10 else two * 31 / 100 - 1
  floorLog10From num den 32 (estimate - 1)

/-- A decimal number `digits * 10 ^ exponent`. -/
structure Decimals where
  digits : Nat
  exponent : Int
  deriving DecidableEq, Repr

/-- Move trailing zeros of the digits into the exponent; `fuel` bounds their number. -/
def Decimals.strip : (fuel : Nat) → Decimals → Decimals
  | 0, d => d
  | fuel + 1, d =>
    if d.digits % 10 = 0 && d.digits != 0 then
      strip fuel ⟨d.digits / 10, d.exponent + 1⟩
    else d

/-- Which of two digits is taken when a number lies in the middle between them. -/
inductive Tie where
  | up
  | even
  deriving DecidableEq, Repr

/-- The best of the two points next to `x` on the grid of multiples of `10 ^ e`: the nearer
    one of those inside the rounding interval. -/
def nearestOnGrid? (tie : Tie) (x : Binary64) (e : Int) : Option Nat :=
  let (lo, mid, hi) := x.roundingInterval
  let (gridNum, gridDen) := scaledByTen 1 e
  let (unitNum, unitDen) :=
    if 2 ≤ x.exponent then (Nat.pow 2 (x.exponent - 2).toNat, 1)
    else (1, Nat.pow 2 (2 - x.exponent).toNat)
  -- a grid point `c` is compared as `c * gridNum * unitDen` with `k * unitNum * gridDen`
  let grid := gridNum * unitDen
  let unit := unitNum * gridDen
  let even := x.significand % 2 = 0
  let inside (c : Nat) : Bool :=
    let p := c * grid
    if even then lo * unit ≤ p && p ≤ hi * unit else lo * unit < p && p < hi * unit
  let value := mid * unit
  let c := value / grid
  let below := value - c * grid
  let above := (c + 1) * grid - value
  match inside c, inside (c + 1) with
  | true, true =>
    if below < above then some c
    else if above < below then some (c + 1)
    else if tie = .even ∧ c % 2 = 0 then some c
    else some (c + 1)
  | true, false => some c
  | false, true => some (c + 1)
  | false, false => none

/-- Try grids from `count` digits on, each ten times as fine as the one before. -/
def shortestFrom (tie : Tie) (x : Binary64) (top : Int) :
    (fuel : Nat) → (count : Nat) → Decimals
  | 0, _ => ⟨0, 0⟩
  | fuel + 1, count =>
    let e := top - count + 1
    match x.nearestOnGrid? tie e with
    | some c => Decimals.strip 20 ⟨c, e⟩
    | none => shortestFrom tie x top fuel (count + 1)

/-- The shortest decimal that reads back as a finite number, its sign aside. -/
def shortest (tie : Tie) (x : Binary64) : Decimals :=
  if x.isZero then ⟨0, 0⟩
  else
    let (num, den) := x.magnitude
    shortestFrom tie x (floorLog10 num den) 17 1

/-- Digits with a point after the first `whole` of them; zeros fill both sides. -/
def placePoint (digits : List Char) (whole : Int) : List Char × List Char :=
  if whole ≤ 0 then (['0'], List.replicate (-whole).toNat '0' ++ digits)
  else
    let n := whole.toNat
    if n < digits.length then (digits.take n, digits.drop n)
    else (digits ++ List.replicate (n - digits.length) '0', [])

def signText (x : Binary64) : List Char := if x.negative then ['-'] else []

/-- The text of a number in messages and conversions: positional, and without a point when
    the number is an integer. -/
def displayChars (x : Binary64) : List Char :=
  if x.isNaN then ['N', 'a', 'N']
  else if !x.isFinite then x.signText ++ ['i', 'n', 'f']
  else
    let d := x.shortest .up
    let digits := toDigits d.digits
    let (whole, fraction) := placePoint digits (digits.length + d.exponent)
    x.signText ++ whole ++ (if fraction.isEmpty then [] else '.' :: fraction)

def display (x : Binary64) : String := String.ofList x.displayChars

/-- The exponents that a JSON text writes positionally: that of the first digit. -/
def jsonPositional (e : Int) : Bool := -5 ≤ e && e < 16

/-- The text of a finite number in JSON: positional with at least one digit after the point,
    or one digit before the point and a signed exponent. -/
def jsonChars (x : Binary64) : List Char :=
  let d := x.shortest .even
  let digits := toDigits d.digits
  let top : Int := digits.length + d.exponent - 1
  if jsonPositional top then
    let (whole, fraction) := placePoint digits (top + 1)
    x.signText ++ whole ++ '.' :: (if fraction.isEmpty then ['0'] else fraction)
  else
    let point := match digits with
      | first :: second :: rest => first :: '.' :: second :: rest
      | digits => digits
    x.signText ++ point ++ 'e' :: (if top < 0 then '-' else '+') :: toDigits top.natAbs

def jsonNumber (x : Binary64) : String := String.ofList x.jsonChars

/-- The number nearest to `digits * 10 ^ exponent`.  Exponents that lead far beyond the range
    are answered without computing the power. -/
def ofDecimals (negative : Bool) (d : Decimals) : Binary64 :=
  let size : Int := (toDigits d.digits).length
  if d.digits = 0 then zero negative
  -- the first digit has the place `size + exponent - 1`
  else if 400 < size + d.exponent then infinity negative
  else if size + d.exponent < -400 then zero negative
  else
    let (num, den) := scaledByTen d.digits d.exponent
    ofRatio negative num den

/-- Why a text is no number. -/
inductive ReadError where
  | empty
  | invalid
  deriving DecidableEq, Repr

def ReadError.message : ReadError → String
  | .empty => "cannot parse float from empty string"
  | .invalid => "invalid float literal"

/-- The exponent after the `e` of a number text: a sign and at least one digit. -/
def readExponent? (cs : List Char) : Option Int :=
  let (negative, digits) := match cs with
    | '-' :: cs => (true, cs)
    | '+' :: cs => (false, cs)
    | cs => (false, cs)
  if digits.isEmpty || !digits.all isDigit then none
  else
    let n : Int := ofDigits digits
    some (if negative then -n else n)

/-- Digits, an optional point with digits on one of its sides, an optional exponent. -/
def readDecimals? (cs : List Char) : Option Decimals :=
  let whole := cs.takeWhile isDigit
  let (fraction, rest) := match cs.dropWhile isDigit with
    | '.' :: cs => (cs.takeWhile isDigit, cs.dropWhile isDigit)
    | cs => ([], cs)
  if whole.isEmpty && fraction.isEmpty then none
  else
    let unscaled (e : Int) : Decimals := ⟨ofDigits (whole ++ fraction), e - fraction.length⟩
    match rest with
    | [] => some (unscaled 0)
    | c :: cs => if c = 'e' ∨ c = 'E' then (readExponent? cs).map unscaled else none

/-- Read a number from the whole of a text. -/
def read (cs : List Char) : Except ReadError Binary64 :=
  let (negative, body) := match cs with
    | '-' :: cs => (true, cs)
    | '+' :: cs => (false, cs)
    | cs => (false, cs)
  let word := String.ofList (body.map Char.toLower)
  if cs.isEmpty then .error .empty
  else if word == "nan" then .ok (withSign negative nan)
  else if word == "inf" || word == "infinity" then .ok (infinity negative)
  else match readDecimals? body with
    | some d => .ok (ofDecimals negative d)
    | none => .error .invalid

end CommandBus.Number.Binary64
