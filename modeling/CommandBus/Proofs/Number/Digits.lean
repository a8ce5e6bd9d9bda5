import CommandBus.Number.Digits

/-!
# The shape of digit strings

What a reader of numbers looks at before it has the value: a digit string has digits only, it is
not empty, and it starts with a zero only if it is the zero.

## Key results

- `isDigit_of_mem_toDigits`, `toDigits_cons`: the characters and the first digit of a number
- `hexValue?_hexChar`: a hexadecimal digit reads back as its value
-/

namespace CommandBus.Number

theorem isDigit_digitChar (d : Nat) : isDigit (digitChar d) = true := by
  rw [isDigit, digitValue?_digitChar]
  rfl

/-- A digit string has nothing but digits. -/
theorem isDigit_of_mem_toDigits {n : Nat} {c : Char} (h : c ∈ toDigits n) : isDigit c = true := by
  fun_induction toDigits n with
  | case1 n hn =>
    obtain rfl := List.mem_singleton.1 h
    exact isDigit_digitChar n
  | case2 n hn ih =>
    rcases List.mem_append.1 h with hm | hl
    · exact ih hm
    · obtain rfl := List.mem_singleton.1 hl
      exact isDigit_digitChar n

/-- A digit string has a first digit, which is zero only for the number zero. -/
theorem toDigits_cons (n : Nat) :
    ∃ c cs, toDigits n = c :: cs ∧ isDigit c = true ∧
      (digitValue? c = some 0 → cs = []) := by
  fun_induction toDigits n with
  | case1 n hn => exact ⟨_, _, rfl, isDigit_digitChar n, fun _ => rfl⟩
  | case2 n hn ih =>
    obtain ⟨c, cs, heq, hc, hzero⟩ := ih
    refine ⟨c, cs ++ [digitChar n], by rw [heq]; rfl, hc, fun h0 => ?_⟩
    -- a zero in front would be all of `n / 10`, which is not zero
    have hval := ofDigits_toDigits (n / 10)
    rw [heq, hzero h0] at hval
    simp [ofDigits, h0] at hval
    omega

/-- More digits do not make a number smaller. -/
theorem le_foldl_digits (ds : List Char) (n : Nat) :
    n ≤ ds.foldl (fun n c => n * 10 + (digitValue? c).getD 0) n := by
  induction ds generalizing n with
  | nil => exact Nat.le_refl _
  | cons d ds ih =>
    have hnext := ih (n * 10 + (digitValue? d).getD 0)
    rw [List.foldl_cons]
    omega

/-- A hexadecimal digit reads back as its value. -/
theorem hexValue?_hexChar (d : Nat) : hexValue? (hexChar d) = some (d % 16) := by
  have hlt : d % 16 < 16 := Nat.mod_lt _ (by decide)
  have hall : ∀ m < 16, hexValue? (hexChar m) = some m := by decide
  have hmod : hexChar d = hexChar (d % 16) := by simp only [hexChar, Nat.mod_mod]
  rw [hmod, hall _ hlt]

end CommandBus.Number
