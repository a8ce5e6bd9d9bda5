import CommandBus.Uuid

/-! # Timed identifiers

A timed identifier starts with the milliseconds since the epoch, so that later identifiers sort
behind earlier ones; the rest of it is random.  Six bits are fixed: four tell the version, which
is seven, and two the variant. -/

namespace CommandBus.Uuid

/-- The place value of the time in an identifier: `2 ^ 80`. -/
def timeUnit : Nat := 1208925819614629174706176

/-- The place value of the version in an identifier: `2 ^ 76`. -/
def versionUnit : Nat := 75557863725914323419136

/-- The place value of the variant in an identifier: `2 ^ 62`. -/
def variantUnit : Nat := 4611686018427387904

/-- The first time that the 48 bits of an identifier cannot tell. -/
def timeLimit : Nat := 281474976710656

/-- The identifier of a time, with the lowest 74 bits of `random`. -/
def timed (millis random : Nat) : Uuid :=
  ⟨millis % timeLimit * timeUnit + 7 * versionUnit
      + random / variantUnit % 4096 * (4 * variantUnit) + 2 * variantUnit
      + random % variantUnit, by
    simp only [timeLimit, timeUnit, versionUnit, variantUnit]; omega⟩

end CommandBus.Uuid
