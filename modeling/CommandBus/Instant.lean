import CommandBus.Number.Digits

/-! # Instants

An `Instant` is a moment on the UTC scale: whole seconds since the start of 1970, rounded
down, and nanoseconds after that second.  Its years go from -262143 to 262142.  In a leap
second, which can only follow the last second of a minute, the nanoseconds run on to two
thousand million.

Dates travel as epoch milliseconds, rounded down (`toMillis`, `ofMillis?`), and are written
in the RFC 3339 form with three digits of the second (`text`). -/

namespace CommandBus

open Number

/-- A moment on the UTC scale. -/
structure Instant where
  /-- Whole seconds since the epoch, rounded down. -/
  seconds : Int
  /-- Nanoseconds after the second; a thousand million or more in a leap second. -/
  nanos : Nat
  seconds_ge : -8334601228800 ≤ seconds := by decide
  seconds_le : seconds ≤ 8210266876799 := by decide
  nanos_lt : nanos < 2000000000 := by decide
  leap : 1000000000 ≤ nanos → seconds % 60 = 59 := by decide
  deriving DecidableEq, Repr

namespace Instant

/-- The first second of the year -262143. -/
def minSeconds : Int := -8334601228800

/-- The last second of the year 262142. -/
def maxSeconds : Int := 8210266876799

/-- The instant with the given parts, if it is one. -/
def ofParts? (seconds : Int) (nanos : Nat) : Option Instant :=
  if h : (-8334601228800 ≤ seconds ∧ seconds ≤ 8210266876799) ∧ nanos < 2000000000 ∧
      (1000000000 ≤ nanos → seconds % 60 = 59) then
    some ⟨seconds, nanos, h.1.1, h.1.2, h.2.1, h.2.2⟩
  else none

/-- The start of 1970. -/
def epoch : Instant := ⟨0, 0, by decide, by decide, by decide, by decide⟩

/-- Milliseconds since the epoch, rounded down. -/
def toMillis (t : Instant) : Int := t.seconds * 1000 + (t.nanos / 1000000 : Nat)

/-- The instant a number of milliseconds after the epoch, if there is one. -/
def ofMillis? (millis : Int) : Option Instant :=
  ofParts? (millis / 1000) ((millis % 1000).toNat * 1000000)

/-- A later or earlier instant, a whole number of seconds away.  It is outside a leap second
    even if `t` is inside one. -/
def addSeconds? (t : Instant) (n : Int) : Option Instant :=
  if t.nanos < 1000000000 then ofParts? (t.seconds + n) t.nanos
  -- the leap second counts as a second of its own in both directions
  else if 0 < n then ofParts? (t.seconds + n) (t.nanos - 1000000000)
  else if n < 0 then ofParts? (t.seconds + n + 1) (t.nanos - 1000000000)
  else some t

/-- A day of the proleptic Gregorian calendar. -/
structure CivilDate where
  year : Int
  month : Nat
  day : Nat
  deriving DecidableEq, Repr

/-- The civil date of a day, counted from the first day of 1970.  Years are counted from March
    in eras of 400 years, so that the leap day is the last day of a year. -/
def civilDate (days : Int) : CivilDate :=
  -- days since the first of March of the year 0
  let shifted := days + 719468
  let era := shifted / 146097
  let dayOfEra := (shifted % 146097).toNat
  let yearOfEra :=
    (dayOfEra - dayOfEra / 1460 + dayOfEra / 36524 - dayOfEra / 146096) / 365
  let dayOfYear := dayOfEra - (365 * yearOfEra + yearOfEra / 4 - yearOfEra / 100)
  -- from March on, five months have 153 days, in the same pattern twice
  let monthFromMarch := (5 * dayOfYear + 2) / 153
  let day := dayOfYear - (153 * monthFromMarch + 2) / 5 + 1
  -- January and February end the year that began in March
  let month := if monthFromMarch < 10 then monthFromMarch + 3 else monthFromMarch - 9
  let year := yearOfEra + era * 400
  ⟨if month ≤ 2 then year + 1 else year, month, day⟩

/-- A year of four digits, and outside 0 to 9999 with a sign and at least four digits. -/
def yearChars (year : Int) : List Char :=
  if 0 ≤ year ∧ year ≤ 9999 then paddedDigits 4 year.toNat
  else
    let digits := toDigits year.natAbs
    (if year < 0 then '-' else '+') :: (List.replicate (4 - digits.length) '0' ++ digits)

/-- The characters of `text`. -/
def chars (t : Instant) : List Char :=
  let date := civilDate (t.seconds / 86400)
  let second := (t.seconds % 86400).toNat
  let leap := 1000000000 ≤ t.nanos
  let shownSecond := second % 60 + if leap then 1 else 0
  let millis := (if leap then t.nanos - 1000000000 else t.nanos) / 1000000
  yearChars date.year ++ '-' :: (paddedDigits 2 date.month ++ '-' :: (paddedDigits 2 date.day ++
    'T' :: (paddedDigits 2 (second / 3600) ++ ':' :: (paddedDigits 2 (second / 60 % 60) ++
      ':' :: (paddedDigits 2 shownSecond ++ '.' :: (paddedDigits 3 millis ++ ['Z']))))))

/-- The RFC 3339 form with milliseconds, digits beyond them cut off. -/
def text (t : Instant) : String := String.ofList t.chars

theorem ofParts?_eq_some_iff {seconds : Int} {nanos : Nat} {t : Instant} :
    ofParts? seconds nanos = some t ↔ t.seconds = seconds ∧ t.nanos = nanos := by
  unfold ofParts?
  constructor
  · intro h
    split at h
    · simp only [Option.some.injEq] at h
      simp [← h]
    · contradiction
  · rintro ⟨rfl, rfl⟩
    have h := t.leap
    simp only [dif_pos (show (-8334601228800 ≤ t.seconds ∧ t.seconds ≤ 8210266876799) ∧
      t.nanos < 2000000000 ∧ (1000000000 ≤ t.nanos → t.seconds % 60 = 59) from
      ⟨⟨t.seconds_ge, t.seconds_le⟩, t.nanos_lt, h⟩)]

end Instant

end CommandBus
