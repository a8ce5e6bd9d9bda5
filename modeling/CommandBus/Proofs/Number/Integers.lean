import CommandBus.Number.Binary64
import CommandBus.Number.Decimal
import CommandBus.Number.IntegerText
import CommandBus.Proofs.Number.Written
import Mathlib.Algebra.Order.Field.Power
import Mathlib.Data.Rat.Cast.Order
import Mathlib.Tactic.FieldSimp
import Mathlib.Tactic.NormNum
import Mathlib.Tactic.Ring

/-!
# The integers that numbers and texts stand for

A text stands for an integer if it is an optional sign and one digit or more, however many zeros
are in front.  A decimal and a finite double stand for a rational number, the double for the one
that the fields of its word give; both tell the integer that this number is, if it is one.

## Key results

- `readInteger_eq_ok_iff`: the integers of a range are read from the texts that denote them, and
  from no others
- `Decimal.toInt?_eq_some_iff`, `Binary64.toInt?_eq_some_iff`: the integer of a decimal or a
  double is its value
-/

namespace CommandBus.Number

/-- A magnitude with its sign. -/
def signed (negative : Bool) (n : Nat) : Int := if negative then -n else n

@[simp] theorem signed_true (n : Nat) : signed true n = -n := rfl

@[simp] theorem signed_false (n : Nat) : signed false n = n := rfl

/-- An integer is its magnitude with its sign. -/
theorem signed_natAbs (n : Int) : signed (n < 0) n.natAbs = n := by
  unfold signed
  simp only [decide_eq_true_eq]
  split <;> omega

/-! ## Texts -/

/-- An optional sign, and one digit or more: the integer that a text denotes. -/
inductive Denotes : List Char → Int → Prop where
  | plain {ds : List Char} (h : IsDigits ds) : Denotes ds (ofDigits ds)
  | plus {ds : List Char} (h : IsDigits ds) : Denotes ('+' :: ds) (ofDigits ds)
  | minus {ds : List Char} (h : IsDigits ds) : Denotes ('-' :: ds) (-ofDigits ds)

/-- What begins with a digit has no sign. -/
theorem IsDigits.isDigit_head {c : Char} {cs : List Char} (h : IsDigits (c :: cs)) :
    isDigit c = true :=
  h.digits c List.mem_cons_self

theorem denotes_plus_iff {ds : List Char} {n : Int} :
    Denotes ('+' :: ds) n ↔ IsDigits ds ∧ n = signed false (ofDigits ds) := by
  constructor
  · rintro (h | h)
    · exact absurd h.isDigit_head (by decide)
    · exact ⟨h, rfl⟩
  · rintro ⟨h, rfl⟩
    exact .plus h

theorem denotes_minus_iff {ds : List Char} {n : Int} :
    Denotes ('-' :: ds) n ↔ IsDigits ds ∧ n = signed true (ofDigits ds) := by
  constructor
  · rintro (h | - | h)
    · exact absurd h.isDigit_head (by decide)
    · exact ⟨h, rfl⟩
  · rintro ⟨h, rfl⟩
    exact .minus h

theorem denotes_unsigned_iff {cs : List Char} {n : Int} (hplus : ∀ ds, cs ≠ '+' :: ds)
    (hminus : ∀ ds, cs ≠ '-' :: ds) :
    Denotes cs n ↔ IsDigits cs ∧ n = signed false (ofDigits cs) := by
  constructor
  · rintro (h | h | h)
    · exact ⟨h, rfl⟩
    · exact absurd rfl (hplus _)
    · exact absurd rfl (hminus _)
  · rintro ⟨h, rfl⟩
    exact .plain h

/-- A text denotes one integer at most. -/
theorem Denotes.unique {cs : List Char} {n m : Int} (hn : Denotes cs n) (hm : Denotes cs m) :
    n = m := by
  cases hn with
  | plain h =>
    cases hm with
    | plain => rfl
    | plus | minus => exact absurd h.isDigit_head (by decide)
  | plus => exact (denotes_plus_iff.1 hm).2.symm
  | minus => exact (denotes_minus_iff.1 hm).2.symm

theorem IntegerRange.holds_iff {r : IntegerRange} {n : Int} :
    r.holds n = true ↔ r.lo ≤ n ∧ n ≤ r.hi := by
  rw [holds, Bool.and_eq_true, decide_eq_true_eq, decide_eq_true_eq]

/-- A range around zero has, with a number, all of the same sign that are nearer to zero. -/
theorem IntegerRange.holds_of_le {r : IntegerRange} (hr : r.holds 0 = true) {negative : Bool}
    {a b : Nat} (hle : a ≤ b) (hb : r.holds (signed negative b) = true) :
    r.holds (signed negative a) = true := by
  rw [holds_iff] at hr hb ⊢
  cases negative with
  | true =>
    rw [signed_true] at hb ⊢
    omega
  | false =>
    rw [signed_false] at hb ⊢
    omega

/-- A scan succeeds on digits whose number is in the range, and yields this number. -/
theorem scanDigits_eq_ok_iff {r : IntegerRange} (hr : r.holds 0 = true) {negative : Bool} {n : Nat}
    {cs : List Char} (hn : r.holds (signed negative n) = true) {m : Int} :
    scanDigits r negative (signed negative n) cs = .ok m ↔
      (∀ c ∈ cs, isDigit c = true) ∧
        m = signed negative (cs.foldl (fun n c => n * 10 + (digitValue? c).getD 0) n) ∧
        r.holds m = true := by
  induction cs generalizing n with
  | nil =>
    rw [scanDigits, List.foldl_nil, Except.ok.injEq]
    constructor
    · rintro rfl
      exact ⟨List.forall_mem_nil _, rfl, hn⟩
    · rintro ⟨-, rfl, -⟩
      rfl
  | cons c cs ih =>
    rw [scanDigits, List.forall_mem_cons, List.foldl_cons]
    cases hc : digitValue? c with
    | none => simp [isDigit, hc]
    | some d =>
      have hnext : (if negative = true then signed negative n * 10 - (d : Int)
          else signed negative n * 10 + d) = signed negative (n * 10 + d) := by
        cases negative with
        | true => rw [if_pos rfl, signed_true, signed_true]; omega
        | false => rw [if_neg Bool.false_ne_true, signed_false, signed_false]; omega
      simp only [hnext, isDigit, hc, Option.isSome_some, Option.getD_some, true_and]
      by_cases hin : r.holds (signed negative (n * 10 + d)) = true
      · rw [if_pos hin]
        exact ih hin
      · rw [if_neg hin]
        simp only [reduceCtorEq, false_iff]
        -- more digits lead no further into the range
        rintro ⟨-, rfl, hm⟩
        exact hin (IntegerRange.holds_of_le hr (le_foldl_digits cs (n * 10 + d)) hm)

/-- The integers of a range around zero are read from the texts that denote them. -/
theorem readInteger_eq_ok_iff {r : IntegerRange} (hlo : r.lo < 0) (hhi : 0 ≤ r.hi)
    {cs : List Char} {n : Int} :
    readInteger r cs = .ok n ↔ Denotes cs n ∧ r.holds n = true := by
  have hzero : r.holds 0 = true := IntegerRange.holds_iff.2 ⟨hlo.le, hhi⟩
  have hscan : ∀ {negative ds}, ds ≠ [] → (scanDigits r negative 0 ds = .ok n ↔
      (IsDigits ds ∧ n = signed negative (ofDigits ds)) ∧ r.holds n = true) := by
    intro negative ds hne
    have hstart : signed negative 0 = 0 := by cases negative <;> rfl
    rw [← hstart, scanDigits_eq_ok_iff hzero (hstart.symm ▸ hzero), and_assoc]
    exact and_congr ⟨fun hds => ⟨hne, hds⟩, IsDigits.digits⟩ Iff.rfl
  have hnone : ¬IsDigits [] := fun h => h.nonempty rfl
  unfold readInteger
  split
  -- nothing, or nothing but a sign
  · rw [denotes_unsigned_iff (fun _ => (List.cons_ne_nil _ _).symm)
      fun _ => (List.cons_ne_nil _ _).symm]
    simp [hnone]
  · rw [denotes_plus_iff]
    simp [hnone]
  · rw [denotes_minus_iff]
    simp [hnone]
  -- digits behind a sign, and digits without one
  · next ds hne =>
    rw [denotes_plus_iff]
    exact hscan fun h => hne (h ▸ rfl)
  · next ds hne =>
    rw [if_pos hlo, denotes_minus_iff]
    exact hscan fun h => hne (h ▸ rfl)
  · next hne _ _ hplus hminus =>
    rw [denotes_unsigned_iff hplus hminus]
    exact hscan hne

/-! ## Decimals and doubles -/

theorem signed_mul (negative : Bool) (n k : Nat) :
    signed negative (n * k) = signed negative n * k := by
  cases negative with
  | true => simp
  | false => simp

theorem signed_cast (negative : Bool) (n : Nat) :
    ((signed negative n : ℤ) : ℚ) = (if negative then -1 else 1) * n := by
  cases negative with
  | true => simp
  | false => simp

/-- A fraction with a sign is an integer exactly if it leaves no rest. -/
theorem signed_div_eq_iff {negative : Bool} {num den : Nat} (hden : 0 < den) {n : ℤ} :
    (signed negative num : ℚ) / den = n ↔ num % den = 0 ∧ signed negative (num / den) = n := by
  have hne : (den : ℚ) ≠ 0 := by exact_mod_cast hden.ne'
  rw [div_eq_iff hne, ← Nat.dvd_iff_mod_eq_zero]
  constructor
  · intro h
    have hint : signed negative num = n * den := by exact_mod_cast h
    -- the sign does not matter for what divides
    have hdvd : den ∣ num := by
      have hsigned : (den : ℤ) ∣ signed negative num := ⟨n, by rw [hint, mul_comm]⟩
      cases negative with
      | true => exact Int.natCast_dvd_natCast.1 (Int.dvd_neg.1 hsigned)
      | false => exact Int.natCast_dvd_natCast.1 hsigned
    obtain ⟨k, rfl⟩ := hdvd
    refine ⟨Nat.dvd_mul_right den k, ?_⟩
    rw [Nat.mul_comm, signed_mul] at hint
    rw [Nat.mul_div_cancel_left k hden]
    exact mul_right_cancel₀ (by exact_mod_cast hne) hint
  · rintro ⟨⟨k, rfl⟩, rfl⟩
    rw [Nat.mul_div_cancel_left k hden, Nat.mul_comm, signed_mul]
    push_cast
    rfl

namespace Decimal

/-- The number that a decimal stands for. -/
def value (d : Decimal) : ℚ := signed d.negative d.coefficient / 10 ^ d.scale

/-- The integer of a decimal is its value, whatever the scale that hides it. -/
theorem toInt?_eq_some_iff {d : Decimal} {n : ℤ} : d.toInt? = some n ↔ d.value = n := by
  have hunit : 0 < Nat.pow 10 d.scale := Nat.pow_pos (by decide)
  have hvalue : d.value = (signed d.negative d.coefficient : ℚ) / (Nat.pow 10 d.scale : ℕ) := by
    rw [value, Nat.pow_eq, Nat.cast_pow]
    rfl
  rw [hvalue, signed_div_eq_iff hunit, toInt?]
  simp only [Option.ite_none_right_eq_some, Option.some.injEq]
  rfl

end Decimal

namespace Binary64

/-- The number that the fields of a finite word stand for. -/
def value (x : Binary64) : ℚ :=
  let sign : ℚ := if x.negative then -1 else 1
  if x.exponentField = 0 then sign * 2 ^ (-1022 : ℤ) * (x.fractionField / 2 ^ 52)
  else sign * 2 ^ ((x.exponentField : ℤ) - 1023) * (1 + x.fractionField / 2 ^ 52)

/-- The value is the significand, moved by the exponent. -/
theorem value_eq_significand (x : Binary64) :
    x.value = signed x.negative x.significand * 2 ^ x.exponent := by
  have hfraction : (2 : ℚ) ^ (52 : ℕ) ≠ 0 := by positivity
  rw [signed_cast]
  unfold value significand exponent
  dsimp only
  generalize (if x.negative = true then (-1 : ℚ) else 1) = sign
  -- a subnormal number has no hidden bit, and the exponent of the least normal one
  split
  · have hpow : (2 : ℚ) ^ (-1022 : ℤ) = 2 ^ (-1074 : ℤ) * 2 ^ (52 : ℕ) := by
      rw [← zpow_natCast, ← zpow_add₀ two_ne_zero]
      rfl
    rw [hpow]
    field_simp
  · have hpow : (2 : ℚ) ^ ((x.exponentField : ℤ) - 1023) =
        2 ^ ((x.exponentField : ℤ) - 1075) * 2 ^ (52 : ℕ) := by
      rw [← zpow_natCast, ← zpow_add₀ two_ne_zero]
      congr 1
      omega
    have hhidden : ((hiddenBit + x.fractionField : ℕ) : ℚ) = 2 ^ 52 + x.fractionField := by
      rw [Nat.cast_add]
      norm_num [hiddenBit]
    rw [hpow, hhidden]
    field_simp

/-- The value is the magnitude with the sign. -/
theorem value_eq_magnitude (x : Binary64) :
    0 < x.magnitude.2 ∧ x.value = (signed x.negative x.magnitude.1 : ℚ) / x.magnitude.2 := by
  rw [value_eq_significand]
  unfold magnitude
  split
  -- a power of two is multiplied in, or divided by, so that both parts are natural
  · next hnonneg =>
    refine ⟨Nat.one_pos, ?_⟩
    have hpow : (2 : ℚ) ^ x.exponent = (2 ^ x.exponent.toNat : ℕ) := by
      rw [Nat.cast_pow, ← zpow_natCast, Int.toNat_of_nonneg hnonneg]
      rfl
    rw [hpow, Nat.pow_eq, signed_mul]
    push_cast
    rw [div_one]
  · next hnegative =>
    refine ⟨Nat.pow_pos (by decide), ?_⟩
    have hpow : (2 : ℚ) ^ x.exponent = ((2 ^ (-x.exponent).toNat : ℕ) : ℚ)⁻¹ := by
      rw [Nat.cast_pow, ← zpow_natCast, Int.toNat_of_nonneg (by omega), ← zpow_neg, neg_neg]
      rfl
    rw [hpow, Nat.pow_eq, div_eq_mul_inv]

/-- The integer of a double is its value; an infinity and what is no number have none. -/
theorem toInt?_eq_some_iff {x : Binary64} {n : ℤ} :
    x.toInt? = some n ↔ x.isFinite = true ∧ x.value = n := by
  obtain ⟨hden, hvalue⟩ := x.value_eq_magnitude
  rw [hvalue, signed_div_eq_iff hden, toInt?]
  simp only [Option.ite_none_right_eq_some, Option.some.injEq]
  rfl

end Binary64

end CommandBus.Number
