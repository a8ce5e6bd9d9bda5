import CommandBus.Number.Decimal.Text
import CommandBus.Proofs.Number.Integers
import CommandBus.Proofs.Text.Cutting

/-!
# Numbers are read back from their texts

The text of an integer denotes it.  The text of a decimal has all digits of the coefficient, and as
many of them behind the point as the scale tells: the reader takes one digit after the other, has
room for each of them because the coefficient had, and counts those behind the point.  Only the sign
of a zero is not read back.

## Key results

- `denotes_intText`: the text of an integer denotes it
- `Decimal.Progress.scan_digits`: digits that there is room for are taken over
- `Decimal.read_chars`: a decimal is read back with its digits and its scale
- `Decimal.chars_injective`: no two decimals have the same text
-/

namespace CommandBus.Number

open Text

/-! ## Integers -/

/-- The text of an integer denotes it. -/
theorem denotes_intText (n : Int) : Denotes (intText n).toList n := by
  have hdigits := isDigits_toDigits n.natAbs
  rw [intText, String.toList_ofList]
  split
  · rw [denotes_minus_iff, ofDigits_toDigits, signed_true]
    exact ⟨hdigits, by omega⟩
  · have hvalue : (ofDigits (toDigits n.natAbs) : Int) = n := by
      rw [ofDigits_toDigits]
      omega
    have hplain := Denotes.plain hdigits
    rwa [hvalue] at hplain

theorem isBlank_of_isDigit {c : Char} (h : isDigit c = true) : isBlank c = false := by
  unfold isDigit digitValue? at h
  split at h
  · next hc =>
    have hlow : 48 ≤ c.val.toNat := UInt32.le_iff_toNat_le.1 hc.1
    have hhigh : c.val.toNat ≤ 57 := UInt32.le_iff_toNat_le.1 hc.2
    simp only [isBlank, Bool.or_eq_false_iff, Bool.and_eq_false_iff, decide_eq_false_iff_not,
      beq_eq_false_iff_ne]
    omega
  · exact nomatch h

/-- There is no blank in the text of an integer. -/
theorem isBlank_of_mem_intText {n : Int} {c : Char} (h : c ∈ (intText n).toList) :
    isBlank c = false := by
  have hdigits : ∀ {c}, c ∈ toDigits n.natAbs → isBlank c = false := fun hc =>
    isBlank_of_isDigit (isDigit_of_mem_toDigits hc)
  rw [intText, String.toList_ofList] at h
  split at h
  · rcases List.mem_cons.1 h with rfl | hmem
    · rfl
    · exact hdigits hmem
  · exact hdigits h

/-! ## Decimals -/

namespace Decimal

/-- The same decimal, but no negative zero. -/
def withoutZeroSign (d : Decimal) : Decimal :=
  { d with negative := d.negative && d.coefficient != 0 }

theorem withoutZeroSign_eq_self {d : Decimal} (h : d.negative = true → d.coefficient ≠ 0) :
    d.withoutZeroSign = d := by
  have hsign : (d.negative && d.coefficient != 0) = d.negative := by
    cases hnegative : d.negative with
    | true => simpa using h hnegative
    | false => rfl
  rw [withoutZeroSign, hsign]

theorem unsignedZero?_self (d : Decimal) :
    unsignedZero? d.negative d.coefficient d.scale = some d.withoutZeroSign :=
  fit?_eq_some_iff.2 ⟨rfl, rfl, rfl⟩

/-! ### Digits -/

/-- Zeros in front of digits do not count. -/
theorem ofDigits_replicate_append (k : Nat) (ds : List Char) :
    ofDigits (List.replicate k '0' ++ ds) = ofDigits ds := by
  induction k with
  | zero => rfl
  | succ k ih => exact ih

theorem ofDigits_coefficientDigits (d : Decimal) :
    ofDigits d.coefficientDigits = d.coefficient := by
  rw [coefficientDigits, ofDigits_replicate_append, ofDigits_toDigits]

theorem isDigit_of_mem_coefficientDigits {d : Decimal} {c : Char} (h : c ∈ d.coefficientDigits) :
    isDigit c = true := by
  rcases List.mem_append.1 h with hfill | hdigit
  · rw [List.eq_of_mem_replicate hfill]
    rfl
  · exact isDigit_of_mem_toDigits hdigit

/-- There are more digits than the scale asks for. -/
theorem scale_lt_length_coefficientDigits (d : Decimal) :
    d.scale < d.coefficientDigits.length := by
  rw [coefficientDigits, List.length_append, List.length_replicate]
  omega

/-- A decimal is written as a sign, one digit or more and, unless the scale is zero, a point and
    as many digits as the scale tells. -/
theorem chars_eq (d : Decimal) :
    ∃ whole fraction, IsDigits whole ∧ (∀ c ∈ fraction, isDigit c = true) ∧
      fraction.length = d.scale ∧ ofDigits (whole ++ fraction) = d.coefficient ∧
      d.chars = (if d.negative then ['-'] else []) ++
        (whole ++ if d.scale = 0 then [] else '.' :: fraction) := by
  have hlength := d.scale_lt_length_coefficientDigits
  -- the point is put so that as many digits as the scale stand behind it
  refine ⟨d.coefficientDigits.take (d.coefficientDigits.length - d.scale),
    d.coefficientDigits.drop (d.coefficientDigits.length - d.scale), ⟨?_, fun c hc => ?_⟩,
    fun c hc => ?_, ?_, ?_, ?_⟩
  · rw [Ne, List.take_eq_nil_iff, ← List.length_eq_zero_iff]
    omega
  · exact isDigit_of_mem_coefficientDigits (List.mem_of_mem_take hc)
  · exact isDigit_of_mem_coefficientDigits (List.mem_of_mem_drop hc)
  · rw [List.length_drop]
    omega
  · rw [List.take_append_drop, ofDigits_coefficientDigits]
  · rw [chars, List.append_assoc]

/-! ### The reader -/

namespace Progress

/-- A digit that there is room for is taken over. -/
theorem scan_digit {p : Progress} {c : Char} (hc : isDigit c = true)
    (hroom : p.coefficient * 10 + (digitValue? c).getD 0 < coefficientLimit)
    (hscale : p.point = true → p.scale < maxScale) (cs : List Char) :
    scan p (c :: cs) = scan { p with
      coefficient := p.coefficient * 10 + (digitValue? c).getD 0
      scale := if p.point then p.scale + 1 else 0
      digit := true } cs := by
  obtain ⟨d, hd⟩ := Option.isSome_iff_exists.1 hc
  -- behind the point there is a place for the digit, so that it is not one to be rounded by
  have hopen : ¬(p.point && p.digit && decide (maxScale ≤ p.scale)) = true := by
    intro hfull
    simp only [Bool.and_eq_true, decide_eq_true_eq] at hfull
    exact absurd (hscale hfull.1.1) (Nat.not_lt.2 hfull.2)
  rw [hd, Option.getD_some] at hroom ⊢
  rw [scan, if_neg hopen, hd]
  dsimp only
  rw [if_pos hroom]

/-- What is known after digits that there is room for: they are put behind the coefficient, and
    counted behind the point. -/
def withDigits (p : Progress) (ds : List Char) : Progress :=
  { p with
    coefficient := ds.foldl (fun n c => n * 10 + (digitValue? c).getD 0) p.coefficient
    scale := p.scale + if p.point then ds.length else 0
    digit := p.digit || !ds.isEmpty }

/-- Digits that there is room for are taken over. -/
theorem scan_digits {p : Progress} {ds : List Char} (hds : ∀ c ∈ ds, isDigit c = true)
    (hroom : (p.withDigits ds).coefficient < coefficientLimit)
    (hstart : p.point = false → p.scale = 0)
    (hscale : p.point = true → p.scale + ds.length ≤ maxScale) (cs : List Char) :
    scan p (ds ++ cs) = scan (p.withDigits ds) cs := by
  induction ds generalizing p with
  | nil => simp [withDigits]
  | cons c ds ih =>
    rw [List.forall_mem_cons] at hds
    -- more digits make no smaller coefficient, so that the first one has room if all of them do
    have hfirst : p.coefficient * 10 + (digitValue? c).getD 0 < coefficientLimit :=
      Nat.lt_of_le_of_lt (le_foldl_digits ds _) hroom
    have hnext : p.point = true → p.scale + 1 + ds.length ≤ maxScale := by
      intro hpoint
      have hlength := hscale hpoint
      rw [List.length_cons] at hlength
      omega
    -- behind the point there is a place for each of the digits
    have hplace : p.point = true → p.scale < maxScale := fun hpoint => by
      have hlength := hnext hpoint
      omega
    rw [List.cons_append, scan_digit hds.1 hfirst hplace, ih hds.2 hroom]
    · have hcount : (if p.point then p.scale + 1 else 0) + (if p.point then ds.length else 0) =
          p.scale + if p.point then (c :: ds).length else 0 := by
        rw [List.length_cons]
        split
        · omega
        · next hpoint => rw [hstart (by simpa using hpoint)]
      simp only [withDigits, hcount, List.foldl_cons, List.isEmpty_cons, Bool.not_false,
        Bool.true_or, Bool.or_true]
    · intro hpoint
      exact if_neg (by simpa using hpoint)
    · intro hpoint
      have hopen : p.point = true := hpoint
      simpa only [hopen, if_true] using hnext hopen

/-- The first point is noted. -/
theorem scan_point {p : Progress} (hp : p.point = false) (cs : List Char) :
    scan p ('.' :: cs) = scan { p with point := true } cs := by
  have hnone : digitValue? '.' = none := by decide
  rw [scan]
  simp [hp, hnone]

/-- The digits of a decimal, all of them taken over, are the decimal. -/
theorem finish_eq {p : Progress} {d : Decimal} (hnegative : p.negative = d.negative)
    (hcoefficient : p.coefficient = d.coefficient) (hscale : p.scale = d.scale)
    (hdigit : p.digit = true) : p.finish = .ok d.withoutZeroSign := by
  rw [finish, hdigit, hnegative, hcoefficient, hscale, unsignedZero?_self]
  rfl

/-- The digits before the point and those behind it are the decimal. -/
theorem scan_decimal {d : Decimal} {whole fraction : List Char} (hwhole : IsDigits whole)
    (hfraction : ∀ c ∈ fraction, isDigit c = true) (hlength : fraction.length = d.scale)
    (hvalue : ofDigits (whole ++ fraction) = d.coefficient) :
    scan { negative := d.negative } (whole ++ if d.scale = 0 then [] else '.' :: fraction) =
      .ok d.withoutZeroSign := by
  -- what is known behind the sign, and what is known behind the point
  let start : Progress := { negative := d.negative }
  let middle : Progress := { start.withDigits whole with point := true }
  have hcoefficient : (middle.withDigits fraction).coefficient = d.coefficient := by
    rw [← hvalue, ofDigits, List.foldl_append]
    rfl
  have hdigit : (start.withDigits whole).digit = true := by
    simp [start, withDigits, hwhole.nonempty]
  -- the digits before the point are no more than all of them
  have hroom : (start.withDigits whole).coefficient < coefficientLimit := by
    refine Nat.lt_of_le_of_lt ?_ d.coefficient_lt
    exact hcoefficient ▸ le_foldl_digits fraction _
  have hclosed : ¬(start.withDigits whole).point = true := Bool.false_ne_true
  rw [scan_digits hwhole.digits hroom (fun _ => rfl) fun h => absurd h hclosed]
  split
  · next hscale =>
    obtain rfl : fraction = [] := List.eq_nil_of_length_eq_zero (hlength.trans hscale)
    exact finish_eq rfl hcoefficient hscale.symm hdigit
  · have hbehind : middle.scale + fraction.length = d.scale := (Nat.zero_add _).trans hlength
    have hopen : ¬middle.point = false := by simp [middle]
    have htaken := scan_digits hfraction (hcoefficient ▸ d.coefficient_lt)
      (fun h => absurd h hopen) (fun _ => hbehind ▸ d.scale_le) []
    rw [List.append_nil] at htaken
    rw [scan_point rfl, htaken]
    exact finish_eq rfl hcoefficient hbehind (Bool.or_eq_true_iff.2 (.inl hdigit))

end Progress

/-- What begins with a digit is read without a sign. -/
theorem readPlain_of_isDigits {ds rest : List Char} (h : IsDigits ds) :
    readPlain (ds ++ rest) = Progress.scan { negative := false } (ds ++ rest) := by
  obtain ⟨c, cs, rfl⟩ := List.exists_cons_of_ne_nil h.nonempty
  have hdigit := h.isDigit_head
  unfold readPlain
  split
  -- a digit is neither of the two signs
  · next heq => exact nomatch heq
  · next heq =>
    obtain ⟨rfl, -⟩ := List.cons.inj heq
    exact absurd hdigit (by decide)
  · next heq =>
    obtain ⟨rfl, -⟩ := List.cons.inj heq
    exact absurd hdigit (by decide)
  · rfl

theorem readPlain_chars (d : Decimal) : readPlain d.chars = .ok d.withoutZeroSign := by
  obtain ⟨whole, fraction, hwhole, hfraction, hlength, hvalue, hchars⟩ := d.chars_eq
  have hscan := Progress.scan_decimal hwhole hfraction hlength hvalue
  rw [hchars]
  cases hnegative : d.negative with
  | true =>
    rw [hnegative] at hscan
    exact hscan
  | false =>
    rw [hnegative] at hscan
    exact (readPlain_of_isDigits hwhole).trans hscan

/-- A decimal is read back from its text with its digits and its scale; only the sign of a zero is
    lost. -/
theorem read_chars (d : Decimal) : Decimal.read d.chars = .ok d.withoutZeroSign := by
  rw [Decimal.read, readPlain_chars]

theorem isBlank_of_mem_chars {d : Decimal} {c : Char} (h : c ∈ d.chars) : isBlank c = false := by
  obtain ⟨whole, fraction, hwhole, hfraction, -, -, hchars⟩ := d.chars_eq
  rw [hchars, List.mem_append, List.mem_append] at h
  -- a minus sign, digits and a point are all there is
  rcases h with hsign | hdigit | hrest
  · split at hsign
    · obtain rfl := List.mem_singleton.1 hsign
      rfl
    · exact nomatch hsign
  · exact isBlank_of_isDigit (hwhole.digits c hdigit)
  · split at hrest
    · exact nomatch hrest
    · rcases List.mem_cons.1 hrest with rfl | hmem
      · rfl
      · exact isBlank_of_isDigit (hfraction c hmem)

/-- A decimal is negative if its text begins with the sign. -/
theorem negative_iff_head? (d : Decimal) : d.negative = true ↔ d.chars.head? = some '-' := by
  obtain ⟨whole, fraction, hwhole, -, -, -, hchars⟩ := d.chars_eq
  obtain ⟨c, cs, rfl⟩ := List.exists_cons_of_ne_nil hwhole.nonempty
  rw [hchars]
  cases d.negative with
  | true => simp
  | false =>
    simp only [Bool.false_eq_true, if_false, List.nil_append, List.cons_append, List.head?_cons,
      Option.some.injEq, false_iff]
    rintro rfl
    exact absurd hwhole.isDigit_head (by decide)

/-- No two decimals have the same text, the zeros of either sign included. -/
theorem chars_injective : Function.Injective chars := by
  intro d e h
  have hread : d.withoutZeroSign = e.withoutZeroSign := by
    have hd := d.read_chars
    rw [h, e.read_chars] at hd
    exact (Except.ok.inj hd).symm
  have hnegative : d.negative = e.negative := by
    rw [Bool.eq_iff_iff, negative_iff_head?, negative_iff_head?, h]
  -- only the sign of a zero is not in what is read, and the first character shows the sign
  cases d with
  | mk negative coefficient scale =>
    simp only [withoutZeroSign, Decimal.mk.injEq] at hread hnegative
    obtain ⟨-, rfl, rfl⟩ := hread
    rw [hnegative]

end Decimal

end CommandBus.Number
