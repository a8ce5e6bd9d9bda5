import CommandBus.Proofs.Number.Integers

/-!
# Integers that a double holds

A double has 53 binary digits.  An integer with no more significant digits than that is the double
nearest to it, and every double that is an integer has no more.

## Key results

- `Binary64.value_ofParts`: the number of a word with a significand of 53 digits
- `Binary64.value_ofInt`: an integer of at most 53 significant digits is rounded to itself
- `Binary64.precise_of_value`: a double that is an integer has no more of them
-/

namespace CommandBus.Number

/-- An integer whose significant binary digits are at most 53. -/
def Precise (n : ℤ) : Prop := ∃ m k : ℕ, m < 2 ^ 53 ∧ n.natAbs = m * 2 ^ k

theorem precise_of_lt {n : ℤ} (h : n.natAbs < 2 ^ 53) : Precise n :=
  ⟨n.natAbs, 0, h, by rw [pow_zero, mul_one]⟩

namespace Binary64

/-! ## The fields of a word -/

section Fields

variable {negative : Bool} {word : Nat} (h : word < signBit)

include h

theorem word_ofParts : (ofParts negative word).word = (if negative then signBit else 0) + word := by
  have hlt : (if negative then signBit else 0) + word < 2 ^ 64 := by
    unfold signBit at h ⊢
    split <;> omega
  rw [Binary64.word, ofParts, UInt64.toNat_ofNat']
  exact Nat.mod_eq_of_lt hlt

theorem negative_ofParts : (ofParts negative word).negative = negative := by
  rw [Binary64.negative, word_ofParts h]
  cases negative with
  | true => simp
  | false => simpa using h

theorem exponentField_ofParts : (ofParts negative word).exponentField = word / hiddenBit := by
  rw [exponentField, word_ofParts h]
  unfold signBit at h ⊢
  unfold hiddenBit
  split <;> omega

theorem fractionField_ofParts : (ofParts negative word).fractionField = word % hiddenBit := by
  rw [fractionField, word_ofParts h]
  unfold signBit hiddenBit
  split <;> omega

end Fields

/-- The word of a significand of 53 digits and an exponent stands for the two of them. -/
theorem value_ofParts (negative : Bool) {q : ℤ} {m : ℕ} (hq : -1074 ≤ q) (hq' : q ≤ 971)
    (hm : hiddenBit ≤ m) (hm' : m < 2 * hiddenBit) :
    (ofParts negative ((q + 1074).toNat * hiddenBit + m)).isFinite = true ∧
      (ofParts negative ((q + 1074).toNat * hiddenBit + m)).value = signed negative m * 2 ^ q := by
  generalize hword : (q + 1074).toNat * hiddenBit + m = word
  -- the word has its exponent above the fraction, and the sign above both
  have hlt : word < signBit := by
    unfold hiddenBit at *
    unfold signBit
    omega
  have hexponentField : (ofParts negative word).exponentField = (q + 1075).toNat := by
    rw [exponentField_ofParts hlt]
    unfold hiddenBit at *
    omega
  have hfractionField : (ofParts negative word).fractionField = m - hiddenBit := by
    rw [fractionField_ofParts hlt]
    unfold hiddenBit at *
    omega
  -- the hidden bit is not written, and comes back with an exponent that is not zero
  have hsignificand : (ofParts negative word).significand = m := by
    rw [significand, hexponentField, hfractionField, if_neg (by omega)]
    omega
  have hexponent : (ofParts negative word).exponent = q := by
    rw [exponent, hexponentField, if_neg (by omega)]
    omega
  constructor
  · rw [isFinite, hexponentField, bne_iff_ne]
    omega
  · rw [value_eq_significand, hsignificand, hexponent, negative_ofParts hlt]

/-! ## Rounding -/

/-- A division without a rest needs no rounding. -/
theorem divideToEven_mul {den : ℕ} (hden : 0 < den) (n : ℕ) :
    divideToEven (n * den) den = n := by
  unfold divideToEven
  simp [Nat.mul_div_cancel n hden, hden]

/-- A division is rounded down or up, and a rest of one half goes to the even neighbour. -/
theorem divideToEven_cases (num den : ℕ) :
    (divideToEven num den = num / den ∧
        (2 * (num % den) < den ∨ 2 * (num % den) = den ∧ Even (num / den))) ∨
      (divideToEven num den = num / den + 1 ∧
        (den < 2 * (num % den) ∨ 2 * (num % den) = den ∧ ¬ Even (num / den))) := by
  unfold divideToEven
  dsimp only
  split_ifs with hlow hhigh heven
  · exact .inl ⟨rfl, .inl hlow⟩
  · exact .inr ⟨rfl, .inl hhigh⟩
  · exact .inl ⟨rfl, .inr ⟨by omega, Nat.even_iff.2 heven⟩⟩
  · exact .inr ⟨rfl, .inr ⟨by omega, fun h => heven (Nat.even_iff.1 h)⟩⟩

/-- A rounded division is off by half at most. -/
theorem divideToEven_error {den : ℕ} (hden : 0 < den) (num : ℕ) :
    2 * (divideToEven num den * den) ≤ 2 * num + den ∧
      2 * num ≤ 2 * (divideToEven num den * den) + den := by
  have hdiv := Nat.div_add_mod' num den
  have hrest := Nat.mod_lt num hden
  obtain ⟨hdown, hcase⟩ | ⟨hup, hcase⟩ := divideToEven_cases num den
  · rw [hdown]
    omega
  · rw [hup, Nat.add_one_mul (num / den)]
    omega

/-- A rounded division stays below an even limit up to half a unit in front of it: the half itself
    goes to the limit. -/
theorem divideToEven_lt_iff {den limit : ℕ} (hden : 0 < den) (hlimit : Even limit) (num : ℕ) :
    divideToEven num den < limit ↔ 2 * num + den < 2 * (limit * den) := by
  have hdiv := Nat.div_add_mod' num den
  have hrest := Nat.mod_lt num hden
  have hmul : ∀ {k m : ℕ}, k ≤ m → k * den ≤ m * den := fun h => Nat.mul_le_mul_right den h
  -- the quotient is rounded down below a half and to even at one, and else up
  obtain ⟨hdown, hcase⟩ | ⟨hup, hcase⟩ := divideToEven_cases num den
  · rw [hdown]
    constructor
    · intro hlt
      obtain hlow | ⟨hhalf, heven⟩ := hcase
      · have hnext := hmul hlt
        rw [Nat.succ_mul] at hnext
        omega
      · -- both are even, so that there is one more in between
        have hnext := hmul (show num / den + 2 ≤ limit by grind)
        rw [Nat.add_mul] at hnext
        omega
    · intro hlt
      by_contra hge
      have hle := hmul (not_lt.1 hge)
      omega
  -- rounded up, the rest is at least a half of the divisor
  · rw [hup]
    constructor
    · intro hlt
      have hnext := hmul hlt
      rw [Nat.succ_mul, Nat.succ_mul] at hnext
      omega
    · intro hlt
      by_contra hge
      have hle := hmul (not_lt.1 hge)
      rw [Nat.succ_mul] at hle
      omega

/-- The logarithm of an integer is the place of its first binary digit. -/
theorem floorLog2_one {n : ℕ} (hn : n ≠ 0) : floorLog2 n 1 = n.log2 := by
  have hone : Nat.log2 1 = 0 := by decide
  have hle := Nat.log2_self_le hn
  unfold floorLog2
  simp [hone, hle]

/-- The digits of an integer, moved up to the hidden bit when there are fewer than 53 of them. -/
private theorem digits_of_short {n : ℕ} (hn : n ≠ 0) (hshort : n.log2 < 52) :
    hiddenBit ≤ n * 2 ^ (52 - n.log2) ∧ n * 2 ^ (52 - n.log2) < 2 * hiddenBit := by
  have hlow := Nat.mul_le_mul_right (2 ^ (52 - n.log2)) (Nat.log2_self_le hn)
  have hhigh := Nat.mul_lt_mul_of_pos_right (Nat.lt_log2_self (n := n))
    (Nat.two_pow_pos (52 - n.log2))
  rw [← Nat.pow_add, show n.log2 + (52 - n.log2) = 52 by omega] at hlow
  rw [← Nat.pow_add, show n.log2 + 1 + (52 - n.log2) = 53 by omega] at hhigh
  exact ⟨hlow, hhigh⟩

/-- The digits of a longer integer that is precise, moved down to the hidden bit. -/
private theorem digits_of_long {n : ℕ} (hn : n ≠ 0) (hlong : 52 ≤ n.log2)
    (h : ∃ m k : ℕ, m < 2 ^ 53 ∧ n = m * 2 ^ k) :
    ∃ m, n = m * 2 ^ (n.log2 - 52) ∧ hiddenBit ≤ m ∧ m < 2 * hiddenBit := by
  obtain ⟨a, k, ha, hak⟩ := h
  have hpos := Nat.two_pow_pos (n.log2 - 52)
  have hlow := Nat.log2_self_le hn
  have hhigh := Nat.lt_log2_self (n := n)
  -- only zeros are moved out
  have hzeros : n.log2 - 52 ≤ k := by
    have hlt : n < 2 ^ (53 + k) := by
      rw [hak, Nat.pow_add]
      exact Nat.mul_lt_mul_of_pos_right ha (Nat.two_pow_pos k)
    have hlog := (Nat.log2_lt hn).mpr hlt
    omega
  have hsplit : n = a * 2 ^ (k - (n.log2 - 52)) * 2 ^ (n.log2 - 52) := by
    rw [Nat.mul_assoc, ← Nat.pow_add, Nat.sub_add_cancel hzeros]
    exact hak
  refine ⟨a * 2 ^ (k - (n.log2 - 52)), hsplit, ?_, ?_⟩
  · apply Nat.le_of_mul_le_mul_right _ hpos
    rw [← hsplit, show hiddenBit = 2 ^ 52 by rfl, ← Nat.pow_add, Nat.add_sub_cancel' hlong]
    exact hlow
  · apply Nat.lt_of_mul_lt_mul_right (a := 2 ^ (n.log2 - 52))
    rw [← hsplit, show 2 * hiddenBit = 2 ^ 53 by rfl, ← Nat.pow_add,
      show 53 + (n.log2 - 52) = n.log2 + 1 by omega]
    exact hhigh

/-- The word that an integer of 53 significant digits is rounded to has all of them. -/
private theorem ofRatio_eq_ofParts (negative : Bool) {n : ℕ} (hn : n ≠ 0) (htop : n.log2 < 64)
    (h : ∃ m k : ℕ, m < 2 ^ 53 ∧ n = m * 2 ^ k) :
    ∃ m, hiddenBit ≤ m ∧ m < 2 * hiddenBit ∧ (n : ℚ) = m * 2 ^ ((n.log2 : ℤ) - 52) ∧
      ofRatio negative n 1 =
        ofParts negative (((n.log2 : ℤ) - 52 + 1074).toNat * hiddenBit + m) := by
  -- the unit in the last place is 52 binary digits below the first one
  have hunit : max (floorLog2 n 1 - 52) (-1074) = (n.log2 : ℤ) - 52 := by
    rw [floorLog2_one hn]
    omega
  unfold ofRatio
  rw [if_neg hn]
  dsimp only
  rw [hunit]
  by_cases hlong : 52 ≤ n.log2
  · obtain ⟨m, hsplit, hlow, hhigh⟩ := digits_of_long hn hlong h
    have hexponent : ((n.log2 : ℤ) - 52).toNat = n.log2 - 52 := by omega
    -- the digits that are divided off are zeros, so nothing is rounded
    have hround : divideToEven n (1 * Nat.pow 2 ((n.log2 : ℤ) - 52).toNat) = m := by
      rw [hexponent, one_mul, Nat.pow_eq]
      conv_lhs => arg 1; rw [hsplit]
      exact divideToEven_mul (Nat.two_pow_pos _) m
    have hpow : (2 : ℚ) ^ ((n.log2 : ℤ) - 52) = 2 ^ (n.log2 - 52) := by
      rw [← zpow_natCast]
      congr 1
      omega
    refine ⟨m, hlow, hhigh, ?_, ?_⟩
    · rw [hpow]
      exact_mod_cast hsplit
    · rw [if_pos (by omega), hround, min_eq_left]
      unfold infinityWord hiddenBit at *
      omega
  · obtain ⟨hlow, hhigh⟩ := digits_of_short hn (Nat.lt_of_not_le hlong)
    have hexponent : (-((n.log2 : ℤ) - 52)).toNat = 52 - n.log2 := by omega
    -- a short integer is filled up with zeros
    have hround : divideToEven (n * Nat.pow 2 (-((n.log2 : ℤ) - 52)).toNat) 1 =
        n * 2 ^ (52 - n.log2) := by
      rw [hexponent, Nat.pow_eq]
      simpa using divideToEven_mul Nat.one_pos (n * 2 ^ (52 - n.log2))
    have hpow : (2 : ℚ) ^ ((n.log2 : ℤ) - 52) = (2 ^ (52 - n.log2))⁻¹ := by
      rw [← zpow_natCast, ← zpow_neg]
      congr 1
      omega
    refine ⟨n * 2 ^ (52 - n.log2), hlow, hhigh, ?_, ?_⟩
    · rw [hpow]
      push_cast
      field_simp
    · rw [if_neg (by omega), hround, min_eq_left]
      unfold infinityWord hiddenBit at *
      omega

/-- An integer of 53 significant digits is rounded to itself. -/
theorem ofRatio_of_precise (negative : Bool) {n : ℕ} (hn : n ≠ 0) (hlt : n < 2 ^ 64)
    (h : ∃ m k : ℕ, m < 2 ^ 53 ∧ n = m * 2 ^ k) :
    (ofRatio negative n 1).isFinite = true ∧ (ofRatio negative n 1).value = signed negative n := by
  have htop : n.log2 < 64 := (Nat.log2_lt hn).mpr hlt
  obtain ⟨m, hlow, hhigh, hvalue, hparts⟩ := ofRatio_eq_ofParts negative hn htop h
  obtain ⟨hfinite, hexact⟩ := value_ofParts negative (q := (n.log2 : ℤ) - 52)
    (by omega) (by omega) hlow hhigh
  rw [hparts]
  refine ⟨hfinite, ?_⟩
  rw [hexact, signed_cast, signed_cast, hvalue]
  ring

/-! ## Integers and doubles -/

/-- The double nearest to a precise integer is this integer. -/
theorem value_ofInt {n : ℤ} (hlt : n.natAbs < 2 ^ 64) (h : Precise n) :
    (ofInt n).isFinite = true ∧ (ofInt n).value = n := by
  by_cases hn : n = 0
  · subst hn
    have hzero : (ofInt 0).significand = 0 := by decide
    refine ⟨by decide, ?_⟩
    rw [value_eq_significand, hzero, signed_cast]
    simp
  · obtain ⟨hfinite, hvalue⟩ :=
      ofRatio_of_precise (n < 0) (Int.natAbs_ne_zero.mpr hn) hlt h
    rw [signed_natAbs] at hvalue
    exact ⟨hfinite, hvalue⟩

theorem significand_lt (x : Binary64) : x.significand < 2 ^ 53 := by
  have hfraction : x.fractionField < hiddenBit := Nat.mod_lt _ (by decide)
  unfold significand
  unfold hiddenBit at hfraction ⊢
  split <;> omega

/-- A double that is an integer is a precise one. -/
theorem precise_of_value {x : Binary64} {n : ℤ} (h : x.value = n) : Precise n := by
  have hlt := x.significand_lt
  have habs : (signed x.negative x.significand).natAbs = x.significand := by
    cases x.negative <;> simp
  rw [value_eq_significand] at h
  -- an integer is a significand that is shifted up, or one that is shifted down without a rest
  by_cases hexponent : 0 ≤ x.exponent
  · obtain ⟨k, hk⟩ := Int.eq_ofNat_of_zero_le hexponent
    have hint : signed x.negative x.significand * 2 ^ k = n := by
      rw [hk, zpow_natCast] at h
      exact_mod_cast h
    refine ⟨x.significand, k, hlt, ?_⟩
    rw [← hint, Int.natAbs_mul, habs, Int.natAbs_pow]
    rfl
  · -- digits after the point are all zero, so that the integer is no larger than the significand
    obtain ⟨k, hk⟩ := Int.eq_ofNat_of_zero_le (show 0 ≤ -x.exponent by omega)
    have hint : signed x.negative x.significand = n * 2 ^ k := by
      rw [show x.exponent = -(k : ℤ) by omega, zpow_neg, zpow_natCast,
        ← div_eq_mul_inv, div_eq_iff (by positivity)] at h
      exact_mod_cast h
    have hle : n.natAbs ≤ x.significand := by
      rw [← habs, hint, Int.natAbs_mul]
      exact Nat.le_mul_of_pos_right _ (Int.natAbs_pos.mpr (by positivity))
    exact precise_of_lt (by omega)

end Binary64

end CommandBus.Number
