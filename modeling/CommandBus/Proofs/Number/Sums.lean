import CommandBus.Number.Decimal.Sum
import CommandBus.Proofs.Number.Exact
import Mathlib.Algebra.Order.Field.Basic
import Mathlib.Tactic.Linarith

/-!
# Which sums of decimals are exact

Two decimals are added exactly at the larger of their scales.  What is then left to do is to make
room: digits after the point are dropped, one more at a time, until the rounded coefficient is one
of a decimal.  So the sum is exact if it is a decimal at all, there is no sum if not even the
integer part has room, and in between it is rounded at the largest scale that there is room for.

## Key results

- `exists_fitRounded?_iff`, `fitRounded?_eq_some`: when there is room, and what is dropped for it
- `add?_exact_iff`: the sums that are exact
- `add?_eq_none_iff`: the sums that are too large
- `add?_rounded`: what is rounded is rounded as little as possible
-/

namespace CommandBus.Number.Decimal

/-! ## Making room -/

/-- The division of sums is that of doubles, by a power of ten. -/
theorem divideHalfEven_eq (n places : ℕ) :
    divideHalfEven n places = Binary64.divideToEven n (10 ^ places) := rfl

theorem divideHalfEven_of_dvd {n places : ℕ} (h : 10 ^ places ∣ n) :
    divideHalfEven n places * 10 ^ places = n := by
  obtain ⟨k, rfl⟩ := h
  rw [Nat.mul_comm (10 ^ places) k, divideHalfEven_eq,
    Binary64.divideToEven_mul (Nat.pow_pos (by decide))]

/-- There is room for a magnitude once that many of its digits are dropped. -/
def HasRoom (n places : ℕ) : Prop := divideHalfEven n places < coefficientLimit

theorem coefficientLimit_eq : coefficientLimit = 2 ^ 96 := rfl

theorem hasRoom_iff {n places : ℕ} :
    HasRoom n places ↔ 2 * n + 10 ^ places < 2 * (coefficientLimit * 10 ^ places) :=
  Binary64.divideToEven_lt_iff (Nat.pow_pos (by decide)) (by decide) n

/-- There is no less room if more digits are dropped. -/
theorem HasRoom.mono {n p q : ℕ} (h : HasRoom n p) (hle : p ≤ q) : HasRoom n q := by
  have hpow : 10 ^ p ≤ 10 ^ q := Nat.pow_le_pow_right (by decide) hle
  rw [hasRoom_iff, coefficientLimit] at h ⊢
  omega

theorem exists_fit? (negative : Bool) {n places scale : ℕ} (h : HasRoom n places)
    (hscale : scale ≤ 28) : ∃ d, fit? negative (divideHalfEven n places) scale = some d :=
  ⟨_, dif_pos ⟨h, hscale⟩⟩

theorem fitRounded?_of_hasRoom {negative : Bool} {n left dropped : ℕ} (h : HasRoom n dropped)
    (hleft : left ≤ 28) :
    fitRounded? negative n left dropped = fit? negative (divideHalfEven n dropped) left := by
  cases left with
  | zero => rfl
  | succ left =>
    obtain ⟨d, hd⟩ := exists_fit? negative h hleft
    rw [fitRounded?, hd]

theorem fitRounded?_succ_of_not_hasRoom {negative : Bool} {n left dropped : ℕ}
    (h : ¬ HasRoom n dropped) :
    fitRounded? negative n (left + 1) dropped = fitRounded? negative n left (dropped + 1) := by
  have htight : fit? negative (divideHalfEven n dropped) (left + 1) = none :=
    dif_neg fun hfits => h hfits.1
  rw [fitRounded?, htight]

/-- A magnitude gets room exactly if there is room without all of its digits after the point. -/
theorem exists_fitRounded?_iff (negative : Bool) {n left dropped : ℕ} (hleft : left ≤ 28) :
    (∃ d, fitRounded? negative n left dropped = some d) ↔ HasRoom n (left + dropped) := by
  induction left generalizing dropped with
  | zero =>
    rw [fitRounded?, Nat.zero_add]
    constructor
    · rintro ⟨d, hd⟩
      rw [HasRoom, ← (fit?_eq_some_iff.1 hd).2.1]
      exact d.coefficient_lt
    · exact fun hroom => exists_fit? negative hroom hleft
  | succ left ih =>
    -- once the number has room it keeps it, however many digits are dropped
    by_cases hroom : HasRoom n dropped
    · rw [fitRounded?_of_hasRoom hroom hleft]
      exact ⟨fun _ => hroom.mono (by omega), fun _ => exists_fit? negative hroom hleft⟩
    · rw [fitRounded?_succ_of_not_hasRoom hroom, Nat.add_right_comm]
      exact ih (by omega)

/-- A magnitude gets room by dropping the fewest digits that leave enough. -/
theorem fitRounded?_eq_some {negative : Bool} {n left dropped : ℕ} {d : Decimal}
    (hleft : left ≤ 28) (h : fitRounded? negative n left dropped = some d) :
    d.scale ≤ left ∧ d.negative = negative ∧
      d.coefficient = divideHalfEven n (left + dropped - d.scale) ∧
      ∀ p, dropped ≤ p → p < left + dropped - d.scale → ¬ HasRoom n p := by
  induction left generalizing dropped with
  | zero =>
    obtain ⟨hnegative, hcoefficient, hscale⟩ := fit?_eq_some_iff.1 h
    rw [hscale, Nat.zero_add, Nat.sub_zero]
    exact ⟨le_rfl, hnegative, hcoefficient, fun p hp hlt => absurd hlt (not_lt.2 hp)⟩
  | succ left ih =>
    by_cases hroom : HasRoom n dropped
    · -- there is room already, so that no more is dropped
      rw [fitRounded?_of_hasRoom hroom hleft] at h
      obtain ⟨hnegative, hcoefficient, hscale⟩ := fit?_eq_some_iff.1 h
      rw [hscale, Nat.add_sub_cancel_left]
      exact ⟨le_rfl, hnegative, hcoefficient, fun p hp hlt => absurd hlt (not_lt.2 hp)⟩
    · rw [fitRounded?_succ_of_not_hasRoom hroom] at h
      obtain ⟨hscale, hnegative, hcoefficient, hfewest⟩ := ih (by omega) h
      rw [show left + (dropped + 1) = left + 1 + dropped by omega] at hcoefficient hfewest
      refine ⟨by omega, hnegative, hcoefficient, fun p hp hlt => ?_⟩
      -- there was no room at this step, nor at the ones behind it up to the end
      obtain rfl | hmore := Nat.eq_or_lt_of_le hp
      · exact hroom
      · exact hfewest p hmore hlt

/-! ## One scale for both -/

theorem signedAt_eq_signed (d : Decimal) (scale : ℕ) :
    d.signedAt scale = signed d.negative (d.coefficient * 10 ^ (scale - d.scale)) := rfl

/-- The coefficient at a larger scale is the value in units of that scale. -/
theorem signedAt_cast {d : Decimal} {scale : ℕ} (h : d.scale ≤ scale) :
    (d.signedAt scale : ℚ) = d.value * 10 ^ scale := by
  have hpow : (10 : ℚ) ^ scale = 10 ^ d.scale * 10 ^ (scale - d.scale) :=
    (pow_mul_pow_sub 10 h).symm
  rw [signedAt_eq_signed, signed_mul, value, hpow]
  push_cast
  field_simp

/-- The sum in units of the larger scale. -/
def exactSum (a b : Decimal) : ℤ :=
  a.signedAt (max a.scale b.scale) + b.signedAt (max a.scale b.scale)

theorem exactSum_cast (a b : Decimal) :
    (exactSum a b : ℚ) = (a.value + b.value) * 10 ^ max a.scale b.scale := by
  rw [exactSum, Int.cast_add, signedAt_cast (le_max_left _ _), signedAt_cast (le_max_right _ _),
    add_mul]

theorem natAbs_exactSum_cast (a b : Decimal) :
    ((exactSum a b).natAbs : ℚ) = |a.value + b.value| * 10 ^ max a.scale b.scale := by
  rw [Nat.cast_natAbs, Int.cast_abs, exactSum_cast, abs_mul,
    abs_of_pos (a := 10 ^ _) (by positivity)]

/-- There is room at a scale for the numbers that do not round to a coefficient of 97 bits. -/
theorem hasRoom_iff_abs {x : ℚ} {n scale kept : ℕ} (hn : (n : ℚ) = |x| * 10 ^ scale)
    (hkept : kept ≤ scale) : HasRoom n (scale - kept) ↔ |x| * 10 ^ kept < 2 ^ 96 - 1 / 2 := by
  have hunit : (0 : ℚ) < 10 ^ (scale - kept) := by positivity
  have hpow : (10 : ℚ) ^ scale = 10 ^ kept * 10 ^ (scale - kept) :=
    (pow_mul_pow_sub 10 hkept).symm
  -- with halves doubled, and on the scale of the integer, both sides say the same
  have hcast : HasRoom n (scale - kept) ↔
      (2 * (|x| * 10 ^ kept) + 1) * 10 ^ (scale - kept) <
        2 * 2 ^ 96 * (10 : ℚ) ^ (scale - kept) := by
    rw [hasRoom_iff, coefficientLimit_eq, ← Nat.cast_lt (α := ℚ)]
    push_cast
    rw [hn, hpow]
    ring_nf
  rw [hcast, mul_lt_mul_iff_left₀ hunit]
  constructor
  · intro h
    linarith
  · intro h
    linarith

theorem abs_signed_sub (negative : Bool) (m n : ℕ) :
    |(signed negative m : ℚ) - signed negative n| = |(m : ℚ) - n| := by
  cases negative with
  | true =>
    rw [signed_true, signed_true, Int.cast_neg, Int.cast_neg, neg_sub_neg, abs_sub_comm]
    rfl
  | false => rfl

theorem abs_value (d : Decimal) : |d.value| = d.coefficient / 10 ^ d.scale := by
  rw [value, abs_div, abs_of_pos (a := 10 ^ _) (by positivity), signed_cast, abs_mul, Nat.abs_cast]
  cases d.negative <;> simp

theorem abs_value_mul (d : Decimal) : |d.value| * 10 ^ d.scale = d.coefficient := by
  rw [abs_value, div_mul_cancel₀ _ (by positivity)]

theorem coefficient_add_one_le (d : Decimal) : (d.coefficient : ℚ) + 1 ≤ 2 ^ 96 := by
  exact_mod_cast d.coefficient_lt

theorem value_of_isZero {d : Decimal} (h : d.isZero = true) : d.value = 0 := by
  have hcoefficient : d.coefficient = 0 := beq_iff_eq.1 h
  rw [← abs_eq_zero, abs_value, hcoefficient, Nat.cast_zero, zero_div]

/-- No decimal rounds to an integer of 97 bits. -/
theorem abs_value_lt (d : Decimal) : |d.value| < 2 ^ 96 - 1 / 2 := by
  have hcoefficient := d.coefficient_add_one_le
  have hscale : (1 : ℚ) ≤ 10 ^ d.scale := one_le_pow₀ (by norm_num)
  have hle := div_le_self (Nat.cast_nonneg d.coefficient) hscale
  rw [abs_value]
  linarith

/-- A decimal is what is left of its value at any other scale after dropping zeros. -/
theorem exists_places_of_value {e : Decimal} {n scale : ℕ} (hn : (n : ℚ) = |e.value| * 10 ^ scale) :
    ∃ p ≤ scale, 10 ^ p ∣ n ∧ HasRoom n p := by
  have hcoefficient := e.coefficient_add_one_le
  -- a decimal of smaller scale ends in as many zeros as the scales differ
  obtain hle | hle := le_total e.scale scale
  · refine ⟨scale - e.scale, Nat.sub_le _ _, ⟨e.coefficient, ?_⟩, ?_⟩
    · have hpow : (10 : ℚ) ^ scale = 10 ^ e.scale * 10 ^ (scale - e.scale) :=
        (pow_mul_pow_sub 10 hle).symm
      rw [hpow, ← mul_assoc, abs_value_mul, mul_comm] at hn
      exact_mod_cast hn
    · rw [hasRoom_iff_abs hn hle, abs_value_mul]
      linarith
  · refine ⟨0, Nat.zero_le _, ⟨n, (Nat.one_mul n).symm⟩, ?_⟩
    rw [← Nat.sub_self scale, hasRoom_iff_abs hn le_rfl]
    -- otherwise nothing is dropped, and the coefficient of the decimal is the bound
    have hpow : (10 : ℚ) ^ scale ≤ 10 ^ e.scale := pow_le_pow_right₀ (by norm_num) hle
    have hbound := mul_le_mul_of_nonneg_left hpow (abs_nonneg e.value)
    rw [abs_value_mul] at hbound
    linarith

/-! ## Sums -/

section

variable {a b d : Decimal}

theorem max_scale_le (a b : Decimal) : max a.scale b.scale ≤ 28 := max_le a.scale_le b.scale_le

/-- A zero is left out of a sum. -/
theorem add?_of_isZero (h : a.isZero = true ∨ b.isZero = true) :
    ∃ d, add? a b = some d ∧ d.value = a.value + b.value := by
  unfold add?
  split
  · next ha => exact ⟨b, rfl, by rw [value_of_isZero ha, zero_add]⟩
  · next ha =>
    have hb := h.resolve_left ha
    exact ⟨a, if_pos hb, by rw [value_of_isZero hb, add_zero]⟩

theorem add?_of_not_isZero (h : ¬ (a.isZero = true ∨ b.isZero = true)) :
    add? a b =
      fitRounded? (exactSum a b < 0) (exactSum a b).natAbs (max a.scale b.scale) 0 := by
  rw [not_or] at h
  rw [add?, if_neg h.1, if_neg h.2]
  rfl

/-- A sum fails exactly if the integer that it rounds to has 97 bits. -/
theorem add?_eq_none_iff : add? a b = none ↔ 2 ^ 96 - 1 / 2 ≤ |a.value + b.value| := by
  by_cases hzero : a.isZero = true ∨ b.isZero = true
  · obtain ⟨d, hd, hvalue⟩ := add?_of_isZero hzero
    rw [hd, ← hvalue]
    exact iff_of_false (Option.some_ne_none d) (not_le.2 d.abs_value_lt)
  · have hroom := hasRoom_iff_abs (natAbs_exactSum_cast a b) (Nat.zero_le _)
    rw [pow_zero, mul_one, Nat.sub_zero] at hroom
    rw [add?_of_not_isZero hzero, ← not_iff_not, not_le, ← hroom, ← Ne, Option.ne_none_iff_exists',
      exists_fitRounded?_iff _ (max_scale_le a b), Nat.add_zero]

/-- What is left of the exact sum: as few of its digits are dropped as leave room. -/
structure Kept (a b d : Decimal) : Prop where
  scale_le : d.scale ≤ max a.scale b.scale
  negative : d.negative = decide (exactSum a b < 0)
  coefficient :
    d.coefficient = divideHalfEven (exactSum a b).natAbs (max a.scale b.scale - d.scale)
  fewest : ∀ p < max a.scale b.scale - d.scale, ¬ HasRoom (exactSum a b).natAbs p

theorem kept_of_add? (h : add? a b = some d) (hzero : ¬ (a.isZero = true ∨ b.isZero = true)) :
    Kept a b d := by
  rw [add?_of_not_isZero hzero] at h
  obtain ⟨hscale, hnegative, hcoefficient, hfewest⟩ := fitRounded?_eq_some (max_scale_le a b) h
  exact ⟨hscale, hnegative, hcoefficient, fun p hp => hfewest p (Nat.zero_le p) hp⟩

/-- The error of a sum, in units of the larger scale. -/
theorem Kept.error (h : Kept a b d) :
    |d.value - (a.value + b.value)| * 10 ^ max a.scale b.scale =
      |((d.coefficient * 10 ^ (max a.scale b.scale - d.scale) : ℕ) : ℚ) -
        (exactSum a b).natAbs| := by
  have hkept := signedAt_cast h.scale_le
  have hsum := exactSum_cast a b
  -- both have the sign of the exact sum
  rw [signedAt_eq_signed] at hkept
  rw [← signed_natAbs (exactSum a b), ← h.negative] at hsum
  rw [← abs_of_pos (a := (10 : ℚ) ^ max a.scale b.scale) (by positivity), ← abs_mul, sub_mul,
    ← hkept, ← hsum, abs_signed_sub]

/-- Nothing is lost if only zeros are dropped. -/
theorem Kept.value_eq (h : Kept a b d)
    (hdvd : 10 ^ (max a.scale b.scale - d.scale) ∣ (exactSum a b).natAbs) :
    d.value = a.value + b.value := by
  have herror := h.error
  rw [h.coefficient, divideHalfEven_of_dvd hdvd, sub_self, abs_zero] at herror
  rw [← sub_eq_zero, ← abs_eq_zero]
  exact (mul_eq_zero.1 herror).resolve_right (by positivity)

/-- What is dropped is half a digit at most. -/
theorem Kept.error_le (h : Kept a b d) :
    |d.value - (a.value + b.value)| ≤ 1 / 2 / 10 ^ d.scale := by
  have hunit : (0 : ℚ) < 10 ^ (max a.scale b.scale - d.scale) := by positivity
  have hpow : (10 : ℚ) ^ max a.scale b.scale =
      10 ^ d.scale * 10 ^ (max a.scale b.scale - d.scale) :=
    (pow_mul_pow_sub 10 h.scale_le).symm
  obtain ⟨hhigh, hlow⟩ := Binary64.divideToEven_error
    (Nat.pow_pos (n := max a.scale b.scale - d.scale) (show 0 < 10 by decide))
    (exactSum a b).natAbs
  rw [← divideHalfEven_eq, ← h.coefficient, ← Nat.cast_le (α := ℚ)] at hhigh hlow
  push_cast at hhigh hlow
  have herror := h.error
  -- the rounding is off by half a unit of what was dropped at most
  have hhalf : |((d.coefficient * 10 ^ (max a.scale b.scale - d.scale) : ℕ) : ℚ) -
      (exactSum a b).natAbs| ≤ 1 / 2 * 10 ^ (max a.scale b.scale - d.scale) := by
    rw [abs_le]
    push_cast
    constructor
    · linarith
    · linarith
  rw [← herror, hpow, ← mul_assoc, mul_le_mul_iff_left₀ hunit] at hhalf
  rwa [le_div_iff₀ (by positivity)]

/-- Another digit would have been kept if there had been room for it. -/
theorem Kept.no_room (h : Kept a b d) (hlt : d.scale < max a.scale b.scale) :
    2 ^ 96 - 1 / 2 ≤ |a.value + b.value| * 10 ^ (d.scale + 1) := by
  have hfewest := h.fewest (max a.scale b.scale - (d.scale + 1)) (by omega)
  rwa [hasRoom_iff_abs (natAbs_exactSum_cast a b) hlt, not_lt] at hfewest

/-- A sum that is a decimal is exact. -/
theorem add?_exact_iff :
    (∃ d, add? a b = some d ∧ d.value = a.value + b.value) ↔
      ∃ e : Decimal, e.value = a.value + b.value := by
  constructor
  · rintro ⟨d, -, hd⟩
    exact ⟨d, hd⟩
  · rintro ⟨e, he⟩
    by_cases hzero : a.isZero = true ∨ b.isZero = true
    · exact add?_of_isZero hzero
    · have hn := natAbs_exactSum_cast a b
      rw [← he] at hn
      obtain ⟨p, hp, hdvd, hroom⟩ := exists_places_of_value hn
      obtain ⟨d, hd⟩ := (exists_fitRounded?_iff (exactSum a b < 0) (max_scale_le a b)).2
        (hroom.mono (Nat.le_add_right_of_le hp))
      rw [← add?_of_not_isZero hzero] at hd
      have hkept := kept_of_add? hd hzero
      -- no more digits are dropped than there are zeros at the end
      have hfew : max a.scale b.scale - d.scale ≤ p := by
        by_contra hmore
        exact hkept.fewest p (not_le.1 hmore) hroom
      exact ⟨d, hd, hkept.value_eq ((Nat.pow_dvd_pow 10 hfew).trans hdvd)⟩

/-- A sum that is not exact is off by half a digit at most, and has no room for one more digit. -/
theorem add?_rounded (h : add? a b = some d) (hrounded : d.value ≠ a.value + b.value) :
    |d.value - (a.value + b.value)| ≤ 1 / 2 / 10 ^ d.scale ∧
      2 ^ 96 - 1 / 2 ≤ |a.value + b.value| * 10 ^ (d.scale + 1) := by
  have hzero : ¬ (a.isZero = true ∨ b.isZero = true) := by
    intro hzero
    obtain ⟨d', hd', hvalue⟩ := add?_of_isZero hzero
    obtain rfl := Option.some.inj (h.symm.trans hd')
    exact hrounded hvalue
  have hkept := kept_of_add? h hzero
  refine ⟨hkept.error_le, hkept.no_room ?_⟩
  by_contra hfull
  -- nothing is dropped
  refine hrounded (hkept.value_eq ?_)
  rw [Nat.sub_eq_zero_of_le (not_lt.1 hfull)]
  exact one_dvd _

end

end CommandBus.Number.Decimal
