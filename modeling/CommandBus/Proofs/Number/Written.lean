import CommandBus.Number.Binary64.Text
import CommandBus.Proofs.Number.Digits

/-!
# Written numbers

A number of a document is a sign, whole digits without a zero in front, a fraction and an
exponent, of which only the whole digits must be there.  Integers are written so, and so is every
double precision number: the digits that are found for it are zero only for the zero, so that no
zero gets in front of another digit when the point is placed.

## Key results

- `shortest_exponent`: the digits of a number are zero only in the place of the units
- `isWhole_placePoint`: where the point stands there is no zero too many in front of it
- `isNumber_intText`, `isNumber_jsonChars`: what is written is a number
-/

namespace CommandBus.Number

/-! ## The form of a number -/

/-- One digit or more. -/
structure IsDigits (cs : List Char) : Prop where
  nonempty : cs ≠ []
  digits : ∀ c ∈ cs, isDigit c = true

/-- Digits that start with a zero only if it is the only one. -/
structure IsWhole (cs : List Char) : Prop where
  digits : IsDigits cs
  leading : ∀ rest, cs = '0' :: rest → rest = []

/-- Nothing, or a point and digits. -/
def IsFraction (cs : List Char) : Prop := cs = [] ∨ ∃ digits, IsDigits digits ∧ cs = '.' :: digits

/-- Nothing, or a mark, a sign that may be left out, and digits. -/
def IsExponent (cs : List Char) : Prop :=
  cs = [] ∨ ∃ mark sign digits, (mark = 'e' ∨ mark = 'E') ∧
    (sign = [] ∨ sign = ['+'] ∨ sign = ['-']) ∧ IsDigits digits ∧ cs = mark :: (sign ++ digits)

/-- A number as a document has it. -/
def IsNumber (cs : List Char) : Prop :=
  ∃ sign whole fraction exponent, (sign = [] ∨ sign = ['-']) ∧ IsWhole whole ∧
    IsFraction fraction ∧ IsExponent exponent ∧ cs = sign ++ whole ++ fraction ++ exponent

/-! ## Digits -/

theorem isDigits_toDigits (n : Nat) : IsDigits (toDigits n) := by
  obtain ⟨c, cs, heq, -⟩ := toDigits_cons n
  exact ⟨by rw [heq]; exact List.cons_ne_nil c cs, fun c hc => isDigit_of_mem_toDigits hc⟩

/-- A number that is not zero has a first digit that is not. -/
theorem toDigits_ne_zero_cons {n : Nat} (hn : n ≠ 0) (rest : List Char) :
    toDigits n ≠ '0' :: rest := by
  intro heq
  obtain ⟨c, cs, hcs, -, hzero⟩ := toDigits_cons n
  obtain ⟨rfl, rfl⟩ := List.cons.inj (hcs.symm.trans heq)
  -- a zero in front is all there is, and stands for zero
  have hvalue := ofDigits_toDigits n
  rw [heq, hzero rfl] at hvalue
  exact hn hvalue.symm

theorem isWhole_toDigits (n : Nat) : IsWhole (toDigits n) := by
  refine ⟨isDigits_toDigits n, fun rest heq => ?_⟩
  obtain ⟨c, cs, hcs, -, hzero⟩ := toDigits_cons n
  obtain ⟨rfl, rfl⟩ := List.cons.inj (hcs.symm.trans heq)
  exact hzero rfl

/-- An integer is written as a number. -/
theorem isNumber_intText (n : Int) : IsNumber (intText n).toList := by
  rw [intText, String.toList_ofList]
  split
  · exact ⟨['-'], toDigits n.natAbs, [], [], .inr rfl, isWhole_toDigits _, .inl rfl, .inl rfl,
      by simp⟩
  · exact ⟨[], toDigits n.natAbs, [], [], .inl rfl, isWhole_toDigits _, .inl rfl, .inl rfl,
      by simp⟩

namespace Binary64

/-! ## The digits that are found for a number -/

/-- Trailing zeros are moved only away from digits in front of them. -/
theorem strip_digits_ne_zero {d : Decimals} (hd : d.digits ≠ 0) (fuel : Nat) :
    (Decimals.strip fuel d).digits ≠ 0 := by
  induction fuel generalizing d with
  | zero => exact hd
  | succ fuel ih =>
    unfold Decimals.strip
    split
    · next h =>
      have hten : d.digits % 10 = 0 := by
        simp only [Bool.and_eq_true, decide_eq_true_eq] at h
        exact h.1
      exact ih (by simp only; omega)
    · exact hd

/-- A number that is not a zero has a significand. -/
theorem significand_pos {x : Binary64} (hx : x.isZero = false) : 0 < x.significand := by
  refine Nat.pos_of_ne_zero fun hzero => ?_
  unfold significand at hzero
  split at hzero
  · next hexponent =>
    -- the word without its sign is the two fields
    have hfields : x.word % (hiddenBit * 2048) = 0 := by
      rw [Nat.mod_mul, show x.word % hiddenBit = 0 from hzero,
        show x.word / hiddenBit % 2048 = 0 from hexponent]
      rfl
    have hword : x.word % signBit = 0 := hfields
    simp [isZero, hword] at hx
  · exact absurd (Nat.eq_zero_of_add_eq_zero_right hzero) (by decide)

/-- A power of ten is a fraction of numbers that are not zero. -/
theorem scaledByTen_pos (e : Int) : 0 < (scaledByTen 1 e).1 ∧ 0 < (scaledByTen 1 e).2 := by
  unfold scaledByTen
  split
  · exact ⟨Nat.mul_pos Nat.one_pos (Nat.pow_pos (by decide)), Nat.one_pos⟩
  · exact ⟨Nat.one_pos, Nat.pow_pos (by decide)⟩

/-- What rounds to a number that is not a zero begins above zero. -/
theorem roundingInterval_pos {x : Binary64} (hx : x.isZero = false) :
    0 < x.roundingInterval.1 := by
  have hpos := significand_pos hx
  unfold roundingInterval
  dsimp only
  split <;> omega

/-- No number but a zero is next to the zero of a grid. -/
theorem nearestOnGrid?_ne_zero {tie : Tie} {x : Binary64} (hx : x.isZero = false) {e : Int}
    {c : Nat} (h : x.nearestOnGrid? tie e = some c) : c ≠ 0 := by
  have hlow := roundingInterval_pos hx
  obtain ⟨-, hden⟩ := scaledByTen_pos e
  unfold nearestOnGrid? at h
  generalize x.roundingInterval = interval at h hlow
  generalize hunits : (if 2 ≤ x.exponent then (Nat.pow 2 (x.exponent - 2).toNat, 1)
    else (1, Nat.pow 2 (2 - x.exponent).toNat)) = units at h
  have hunit : 0 < units.1 := by
    rw [← hunits]
    split
    · exact Nat.pow_pos (by decide)
    · exact Nat.one_pos
  dsimp only at h
  have hbegin := Nat.mul_pos hlow (Nat.mul_pos hunit hden)
  generalize interval.1 * (units.1 * (scaledByTen 1 e).2) = low at h hbegin
  generalize interval.2.2 * (units.1 * (scaledByTen 1 e).2) = high at h
  generalize interval.2.1 * (units.1 * (scaledByTen 1 e).2) = value at h
  generalize (scaledByTen 1 e).1 * units.2 = grid at h
  have hinside : (if x.significand % 2 = 0 then
      decide (low ≤ value / grid * grid) && decide (value / grid * grid ≤ high)
      else decide (low < value / grid * grid) && decide (value / grid * grid < high)) = true →
        value / grid ≠ 0 := by
    intro hin hzero
    rw [hzero] at hin
    split at hin
    · simp only [Nat.zero_mul, Bool.and_eq_true, decide_eq_true_eq] at hin
      omega
    · simp only [Nat.zero_mul, Bool.and_eq_true, decide_eq_true_eq] at hin
      omega
  rintro rfl
  -- the lower of the two points is taken only inside the interval, and the upper one is not zero
  have hupper : value / grid + 1 ≠ 0 := Nat.succ_ne_zero _
  split at h
  · next hlower _ =>
    have hne := hinside hlower
    split at h
    · exact hne (Option.some.inj h)
    · split at h
      · exact hupper (Option.some.inj h)
      · split at h
        · exact hne (Option.some.inj h)
        · exact hupper (Option.some.inj h)
  · next hlower _ => exact hinside hlower (Option.some.inj h)
  · exact hupper (Option.some.inj h)
  · exact nomatch h

/-- The digits of a number are zero only in the place of the units. -/
theorem shortest_exponent (tie : Tie) (x : Binary64) (h : (x.shortest tie).digits = 0) :
    (x.shortest tie).exponent = 0 := by
  -- the search ends at a grid with digits, or with nothing at all
  have hfrom : ∀ top fuel count, x.isZero = false →
      (shortestFrom tie x top fuel count).digits = 0 →
        (shortestFrom tie x top fuel count).exponent = 0 := by
    intro top fuel count hx hdigits
    induction fuel generalizing count with
    | zero => rfl
    | succ fuel ih =>
      unfold shortestFrom at hdigits ⊢
      dsimp only at hdigits ⊢
      cases hgrid : x.nearestOnGrid? tie (top - count + 1) with
      | some c =>
        rw [hgrid] at hdigits
        exact absurd hdigits (strip_digits_ne_zero (nearestOnGrid?_ne_zero hx hgrid) 20)
      | none =>
        rw [hgrid] at hdigits
        exact ih (count + 1) hdigits
  unfold shortest at h ⊢
  split
  · rfl
  · next hx =>
    rw [if_neg hx] at h
    exact hfrom _ _ _ (by simpa using hx) h

/-! ## The point -/

theorem isDigit_zero : isDigit '0' = true := by decide

/-- The digits in front of the point, and those behind it: a number that is zero has a single
    digit, in the place of the units. -/
theorem isWhole_placePoint {n : Nat} {whole : Int} (hzero : n = 0 → whole ≤ 1) :
    IsWhole (placePoint (toDigits n) whole).1 ∧
      ∀ c ∈ (placePoint (toDigits n) whole).2, isDigit c = true := by
  have hdigits := isDigits_toDigits n
  obtain ⟨c, cs, hcons, -⟩ := toDigits_cons n
  have hleading : c = '0' → cs = [] := by
    rintro rfl
    exact (isWhole_toDigits n).leading cs hcons
  unfold placePoint
  split
  · refine ⟨⟨⟨List.cons_ne_nil _ _, by simp [isDigit_zero]⟩, by simp⟩, fun d hd => ?_⟩
    rcases List.mem_append.1 hd with hfill | hdigit
    · rw [List.eq_of_mem_replicate hfill]
      exact isDigit_zero
    · exact hdigits.digits d hdigit
  · next hwhole =>
    obtain ⟨k, hk⟩ : ∃ k, whole.toNat = k + 1 := ⟨whole.toNat - 1, by omega⟩
    dsimp only
    split
    -- some of the digits are in front, the first one among them
    · have htake : (toDigits n).take whole.toNat = c :: cs.take k := by
        rw [hcons, hk, List.take_succ_cons]
      refine ⟨⟨⟨?_, fun d hd => hdigits.digits d (List.mem_of_mem_take hd)⟩, fun rest heq => ?_⟩,
        fun d hd => hdigits.digits d (List.mem_of_mem_drop hd)⟩
      · rw [htake]
        exact List.cons_ne_nil _ _
      · obtain ⟨hc, rfl⟩ := List.cons.inj (htake.symm.trans heq)
        rw [hleading hc, List.take_nil]
    -- all of them are, and zeros behind them unless they are the zero
    · refine ⟨⟨⟨by simp [hdigits.nonempty], fun d hd => ?_⟩, fun rest heq => ?_⟩, by simp⟩
      · rcases List.mem_append.1 hd with hdigit | hfill
        · exact hdigits.digits d hdigit
        · rw [List.eq_of_mem_replicate hfill]
          exact isDigit_zero
      · rw [hcons] at heq
        obtain ⟨rfl, rfl⟩ := List.cons.inj heq
        obtain rfl := hleading rfl
        have hn : n = 0 := by
          by_cases hn : n = 0
          · exact hn
          · exact absurd hcons (toDigits_ne_zero_cons hn [])
        have hunits := hzero hn
        have hfill : whole.toNat - ['0'].length = 0 := by
          rw [List.length_singleton]
          omega
        rw [hfill]
        rfl

/-- A double precision number is written as a number. -/
theorem isNumber_jsonChars (x : Binary64) : IsNumber x.jsonChars := by
  have hsign : x.signText = [] ∨ x.signText = ['-'] := by
    unfold signText
    split
    · exact .inr rfl
    · exact .inl rfl
  have hexponent := shortest_exponent .even x
  generalize hd : x.shortest .even = d at hexponent
  unfold jsonChars
  simp only [hd]
  split
  · have hunits : d.digits = 0 → ((toDigits d.digits).length + d.exponent - 1 + 1 : Int) ≤ 1 := by
      intro hzero
      have hlength : (toDigits 0).length = 1 := by simp [toDigits]
      rw [hexponent hzero, hzero, hlength]
      omega
    obtain ⟨hwhole, hfraction⟩ := isWhole_placePoint hunits
    generalize placePoint (toDigits d.digits) _ = placed at hwhole hfraction
    refine ⟨x.signText, placed.1, '.' :: (if placed.2.isEmpty then ['0'] else placed.2), [], hsign,
      hwhole, .inr ⟨_, ?_, rfl⟩, .inl rfl, by simp⟩
    split
    · exact ⟨List.cons_ne_nil _ _, by simp [isDigit_zero]⟩
    · next hne => exact ⟨by simpa using hne, hfraction⟩
  · have hdigits := isDigits_toDigits d.digits
    generalize (↑(toDigits d.digits).length + d.exponent - 1 : Int) = top
    have hmark : IsExponent ('e' :: (if top < 0 then '-' else '+') :: toDigits top.natAbs) := by
      refine .inr ⟨'e', [if top < 0 then '-' else '+'], _, .inl rfl, ?_, isDigits_toDigits _, rfl⟩
      split
      · exact .inr (.inr rfl)
      · exact .inr (.inl rfl)
    obtain ⟨c, cs, hcons, hc, -⟩ := toDigits_cons d.digits
    have hfirst : IsWhole [c] :=
      ⟨⟨List.cons_ne_nil _ _, by simpa using hc⟩, fun rest heq => (List.cons.inj heq).2.symm⟩
    rw [hcons] at hdigits ⊢
    -- one digit is in front of the point, and the point is there if others are behind it
    cases cs with
    | nil => exact ⟨x.signText, [c], [], _, hsign, hfirst, .inl rfl, hmark, by simp⟩
    | cons second rest =>
      have hrest : IsDigits (second :: rest) :=
        ⟨List.cons_ne_nil _ _, fun d hd => hdigits.digits d (List.mem_cons_of_mem c hd)⟩
      exact ⟨x.signText, [c], '.' :: second :: rest, _, hsign, hfirst, .inr ⟨_, hrest, rfl⟩,
        hmark, by simp⟩

end Binary64

end CommandBus.Number
