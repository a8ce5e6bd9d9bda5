/-! # Digits of natural numbers

Decimal and hexadecimal digits as characters, and the digit strings of natural
numbers, most significant digit first and without leading zeros.

* `digitValue?_digitChar`  a digit character reads back as its value
* `ofDigits_toDigits`      the digit string of `n` reads back as `n` -/

namespace CommandBus.Number

/-- The value of an ASCII decimal digit. -/
def digitValue? (c : Char) : Option Nat :=
  if '0' ≤ c ∧ c ≤ '9' then some (c.toNat - 48) else none

/-- The value of an ASCII hexadecimal digit of either case. -/
def hexValue? (c : Char) : Option Nat :=
  if '0' ≤ c ∧ c ≤ '9' then some (c.toNat - 48)
  else if 'a' ≤ c ∧ c ≤ 'f' then some (c.toNat - 87)
  else if 'A' ≤ c ∧ c ≤ 'F' then some (c.toNat - 55)
  else none

/-- Whether a character is an ASCII decimal digit. -/
def isDigit (c : Char) : Bool := (digitValue? c).isSome

/-- The character of a decimal digit; values above nine are read modulo ten. -/
def digitChar (d : Nat) : Char :=
  match d % 10 with
  | 0 => '0' | 1 => '1' | 2 => '2' | 3 => '3' | 4 => '4'
  | 5 => '5' | 6 => '6' | 7 => '7' | 8 => '8' | _ => '9'

/-- The lower-case character of a hexadecimal digit, read modulo sixteen. -/
def hexChar (d : Nat) : Char :=
  match d % 16 with
  | 10 => 'a' | 11 => 'b' | 12 => 'c' | 13 => 'd' | 14 => 'e' | 15 => 'f'
  | d => digitChar d

/-- The decimal digits of `n`; zero is written `0`. -/
def toDigits (n : Nat) : List Char :=
  if n < 10 then [digitChar n] else toDigits (n / 10) ++ [digitChar n]
termination_by n

/-- The number whose decimal digits are `ds`, a character that is no digit counting as zero. -/
def ofDigits (ds : List Char) : Nat :=
  ds.foldl (fun n c => n * 10 + (digitValue? c).getD 0) 0

/-- The lowest `width` decimal digits of `n`, with leading zeros. -/
def paddedDigits : (width : Nat) → (n : Nat) → List Char
  | 0, _ => []
  | width + 1, n => paddedDigits width (n / 10) ++ [digitChar n]

/-- The lowest `width` hexadecimal digits of `n`, with leading zeros. -/
def paddedHex : (width : Nat) → (n : Nat) → List Char
  | 0, _ => []
  | width + 1, n => paddedHex width (n / 16) ++ [hexChar n]

/-- The hexadecimal digits of `n` without leading zeros. -/
def toHex (n : Nat) : List Char :=
  if n < 16 then [hexChar n] else toHex (n / 16) ++ [hexChar n]
termination_by n

/-- The decimal text of an integer: its digits, after a `-` when it is negative. -/
def intText (n : Int) : String :=
  String.ofList (if n < 0 then '-' :: toDigits n.natAbs else toDigits n.natAbs)

/-- The decimal text of a natural number. -/
def natText (n : Nat) : String := String.ofList (toDigits n)

theorem digitValue?_digitChar (d : Nat) : digitValue? (digitChar d) = some (d % 10) := by
  have h : d % 10 < 10 := Nat.mod_lt _ (by decide)
  unfold digitChar
  generalize d % 10 = m at h ⊢
  match m, h with
  | 0, _ | 1, _ | 2, _ | 3, _ | 4, _ | 5, _ | 6, _ | 7, _ | 8, _ | 9, _ => decide

theorem ofDigits_append_singleton (ds : List Char) (c : Char) :
    ofDigits (ds ++ [c]) = ofDigits ds * 10 + (digitValue? c).getD 0 := by
  simp [ofDigits]

theorem ofDigits_toDigits (n : Nat) : ofDigits (toDigits n) = n := by
  fun_induction toDigits n with
  | case1 n h =>
    simp [ofDigits, digitValue?_digitChar, Nat.mod_eq_of_lt h]
  | case2 n h ih =>
    rw [ofDigits_append_singleton, ih, digitValue?_digitChar]
    simp only [Option.getD_some]
    omega

theorem length_paddedHex (width n : Nat) : (paddedHex width n).length = width := by
  induction width generalizing n with
  | zero => rfl
  | succ width ih => simp [paddedHex, ih]

end CommandBus.Number
