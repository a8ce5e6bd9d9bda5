import CommandBus.Proofs.Json.Records
import CommandBus.Proofs.Number.Written

/-!
# Reading written numbers

The reader goes through a number part by part: sign, whole digits, fraction, exponent.  What it
makes of the parts depends on their characters alone, so the text of a number is read as the same
number, or fails, wherever it stands.  Double precision numbers are not always read as themselves:
digits are gathered into a word first, and the powers of ten are rounded.

## Key results

- `exists_gives_number`: the outcome for the text of a number is the same everywhere
- `gives_number_jsonChars`: for a double precision number it is what the number is `reread?` as
- `legible_iff`: which double precision numbers are read as themselves
-/

namespace CommandBus.Json

open Number Cursor

/-! ## Exponents -/

/-- The digits of an exponent are taken up to the end of the number, or leave the range before. -/
private theorem exponentDigits_cases {ds : List Char} (hds : ∀ c ∈ ds, isDigit c = true)
    (n : Nat) :
    (∃ m, ∀ rest p, NoDigit rest → exponentDigits n (ds ++ rest) p = .inl m) ∨
      ∀ rest p, NoDigit rest → ∃ c, exponentDigits n (ds ++ rest) p = .inr c := by
  induction ds generalizing n with
  | nil =>
    refine .inl ⟨n, fun rest p hrest => ?_⟩
    cases rest with
    | nil => rfl
    | cons c cs =>
      have hc : digitValue? c = none := by simpa [isDigit] using hrest c cs rfl
      simp only [List.nil_append, exponentDigits, hc]
  | cons d ds ih =>
    rw [List.forall_mem_cons] at hds
    obtain ⟨v, hv⟩ := Option.isSome_iff_exists.1 hds.1
    -- the digits leave the range at this one, or the ones behind it decide
    by_cases hbeyond : 2147483648 ≤ n * 10 + v
    · refine .inr fun rest p _ => ?_
      simp only [List.cons_append, exponentDigits, hv, if_pos hbeyond]
      exact ⟨_, rfl⟩
    · have hstep : ∀ rest p, exponentDigits n (d :: ds ++ rest) p =
          exponentDigits (n * 10 + v) (ds ++ rest) (p.after d) := fun rest p => by
        simp only [List.cons_append, exponentDigits, hv, if_neg hbeyond]
      simp only [hstep]
      rcases ih hds.2 (n * 10 + v) with ⟨m, hm⟩ | hbehind
      · exact .inl ⟨m, fun rest p hrest => hm rest _ hrest⟩
      · exact .inr fun rest p hrest => hbehind rest _ hrest

section

variable (negative : Bool) (significand : Nat) (exponent : Int)

/-- The number that a gathered number is, unless it is too large. -/
private def gathered? : Option Json :=
  (scaleByTen (Binary64.ofNat significand) exponent).map fun x => .double (x.withSign negative)

private theorem yields_gatheredDouble (rest : List Char) (p : Position) :
    Yields (gatheredDouble negative significand exponent ⟨rest, p⟩) rest
      (gathered? negative significand exponent) := by
  unfold gatheredDouble gathered?
  cases scaleByTen (Binary64.ofNat significand) exponent with
  | none => exact ⟨_, rfl⟩
  | some x => exact ⟨_, rfl⟩

/-- The exponent of a number, the cursor being behind its sign. -/
private def unsignedExponent (down : Bool) (c : Cursor) : Except Error (Json × Cursor) :=
  match c.rest with
  | [] => .error (c.here .eofValue)
  | ch :: _ =>
    match digitValue? ch with
    | none => .error (c.peeked .invalidNumber)
    | some d =>
      match exponentDigits d c.eat.rest c.eat.position with
      | .inl n =>
        gatheredDouble negative significand (exponent + if down then -(n : Int) else n)
          c.skipDigits
      | .inr beyond =>
        if significand ≠ 0 && !down then .error (beyond.here .numberOutOfRange)
        else .ok (.double (Binary64.zero negative), c.skipDigits)

/-- Whether an exponent is negative, and the cursor behind its sign. -/
private def exponentSign (c : Cursor) : Bool × Cursor :=
  match c.rest with
  | '+' :: _ => (false, c.eat)
  | '-' :: _ => (true, c.eat)
  | _ => (false, c)

private theorem exponentPart_eq (c : Cursor) :
    exponentPart negative significand exponent c =
      unsignedExponent negative significand exponent (exponentSign c.eat).1
        (exponentSign c.eat).2 := rfl

/-- A digit is no sign. -/
private theorem exponentSign_digit {d : Char} (hd : isDigit d = true) (cs : List Char)
    (p : Position) : exponentSign ⟨d :: cs, p⟩ = (false, ⟨d :: cs, p⟩) := by
  unfold exponentSign
  split
  · next heq =>
    obtain ⟨rfl, -⟩ := List.cons.inj heq
    exact absurd hd (by decide)
  · next heq =>
    obtain ⟨rfl, -⟩ := List.cons.inj heq
    exact absurd hd (by decide)
  · rfl

/-- Behind its sign an exponent ends a number in the same way everywhere. -/
private theorem exists_yields_unsignedExponent (down : Bool) {digits : List Char}
    (hdigits : IsDigits digits) :
    ∃ outcome, ∀ rest p, Ends rest →
      Yields (unsignedExponent negative significand exponent down ⟨digits ++ rest, p⟩) rest
        outcome := by
  have hskip : ∀ rest p, Ends rest → skipDigits ⟨digits ++ rest, p⟩ = ⟨rest, p.afterAll digits⟩ :=
    fun rest p hrest => skipDigits_append hdigits.digits hrest.noDigit p
  obtain ⟨d, ds, rfl⟩ := List.exists_cons_of_ne_nil hdigits.nonempty
  obtain ⟨hd, hds⟩ := List.forall_mem_cons.1 hdigits.digits
  obtain ⟨v, hv⟩ := Option.isSome_iff_exists.1 hd
  rcases exponentDigits_cases hds v with ⟨n, hn⟩ | hbeyond
  · refine ⟨gathered? negative significand (exponent + if down then -(n : Int) else n),
      fun rest p hrest => ?_⟩
    have hafter := hskip rest p hrest
    rw [List.cons_append] at hafter ⊢
    simp only [unsignedExponent, hv, eat, hn rest (p.after d) hrest.noDigit, hafter]
    exact yields_gatheredDouble _ _ _ _ _
  -- an exponent out of range is told by its sign and the significand alone
  · by_cases hrange : (significand ≠ 0 && !down) = true
    · refine ⟨none, fun rest p hrest => ?_⟩
      obtain ⟨c, hc⟩ := hbeyond rest (p.after d) hrest.noDigit
      rw [List.cons_append]
      simp only [unsignedExponent, hv, eat, hc, if_pos hrange]
      exact ⟨_, rfl⟩
    · refine ⟨some (.double (Binary64.zero negative)), fun rest p hrest => ?_⟩
      obtain ⟨c, hc⟩ := hbeyond rest (p.after d) hrest.noDigit
      have hafter := hskip rest p hrest
      rw [List.cons_append] at hafter ⊢
      simp only [unsignedExponent, hv, eat, hc, if_neg hrange, hafter]
      exact ⟨_, rfl⟩

/-- So does an exponent with its mark and its sign. -/
private theorem exists_yields_exponentPart (mark : Char) {sign digits : List Char}
    (hsign : sign = [] ∨ sign = ['+'] ∨ sign = ['-']) (hdigits : IsDigits digits) :
    ∃ outcome, ∀ rest p, Ends rest →
      Yields (exponentPart negative significand exponent ⟨mark :: (sign ++ (digits ++ rest)), p⟩)
        rest outcome := by
  obtain ⟨d, ds, hcons⟩ := List.exists_cons_of_ne_nil hdigits.nonempty
  have hd := hdigits.digits d (by simp [hcons])
  -- the direction and what is left behind the sign
  have hbehind : ∃ down, ∀ rest p, ∃ p',
      exponentSign (eat ⟨mark :: (sign ++ (digits ++ rest)), p⟩) =
        (down, ⟨digits ++ rest, p'⟩) := by
    obtain rfl | rfl | rfl := hsign
    · exact ⟨false, fun rest p => ⟨p.after mark, hcons ▸ exponentSign_digit hd _ _⟩⟩
    · exact ⟨false, fun rest p => ⟨_, rfl⟩⟩
    · exact ⟨true, fun rest p => ⟨_, rfl⟩⟩
  obtain ⟨down, hdown⟩ := hbehind
  obtain ⟨outcome, h⟩ := exists_yields_unsignedExponent negative significand exponent down hdigits
  refine ⟨outcome, fun rest p hrest => ?_⟩
  obtain ⟨p', hp⟩ := hdown rest p
  rw [exponentPart_eq, hp]
  exact h rest p' hrest

/-- And whatever stands behind the point or the whole digits, if anything. -/
private theorem exists_yields_exponentOrEnd {part : List Char} (hpart : IsExponent part) :
    ∃ outcome, ∀ rest p, Ends rest →
      Yields (exponentOrEnd negative significand exponent ⟨part ++ rest, p⟩) rest outcome := by
  obtain rfl | ⟨mark, sign, digits, hmark, hsign, hdigits, rfl⟩ := hpart
  · refine ⟨gathered? negative significand exponent, fun rest p hrest => ?_⟩
    rw [List.nil_append]
    unfold exponentOrEnd
    split
    -- the text ends here, so no mark of an exponent follows
    · next heq => exact absurd rfl (hrest _ _ heq).2.2.1
    · next heq => exact absurd rfl (hrest _ _ heq).2.2.2
    · exact yields_gatheredDouble _ _ _ _ _
  · obtain ⟨outcome, h⟩ :=
      exists_yields_exponentPart negative significand exponent mark hsign hdigits
    refine ⟨outcome, fun rest p hrest => ?_⟩
    rw [List.cons_append, List.append_assoc]
    obtain rfl | rfl := hmark
    · exact h rest p hrest
    · exact h rest p hrest

/-! ## Fractions -/

/-- An exponent, and what follows a number, begins with no digit. -/
private theorem noDigit_exponent {part : List Char} (hpart : IsExponent part) {rest : List Char}
    (hrest : Ends rest) : NoDigit (part ++ rest) := by
  obtain rfl | ⟨mark, sign, digits, hmark, -, -, rfl⟩ := hpart
  · exact hrest.noDigit
  · rintro c cs heq
    obtain ⟨rfl, -⟩ := List.cons.inj heq
    obtain rfl | rfl := hmark <;> decide

/-- The digits behind the point end a number in the same way everywhere. -/
private theorem exists_yields_fractionPart {digits part : List Char} (hdigits : IsDigits digits)
    (hpart : IsExponent part) :
    ∃ outcome, ∀ rest p, Ends rest →
      Yields (fractionPart negative significand exponent ⟨'.' :: (digits ++ (part ++ rest)), p⟩)
        rest outcome := by
  obtain ⟨outcome, h⟩ := exists_yields_exponentOrEnd negative (gatherDigits significand 0 digits).1
    (exponent - (digits.length - (gatherDigits significand 0 digits).2 : Nat)) hpart
  refine ⟨outcome, fun rest p hrest => ?_⟩
  -- the digits end where the exponent or the rest of the text starts
  have hnone := noDigit_exponent hpart hrest
  have htake := takeWhile_digits hdigits.digits hnone
  have hskip := skipDigits_append hdigits.digits hnone (p.after '.')
  have hne : digits.isEmpty = false := by simpa using hdigits.nonempty
  simp only [fractionPart, eat, htake, hskip, hne, Bool.false_eq_true, if_false]
  exact h rest _ hrest

/-! ## Numbers -/

private theorem eq_zero_of_digitValue? {c : Char} (h : digitValue? c = some 0) : c = '0' := by
  unfold digitValue? at h
  split at h
  · next hc =>
    have hge : 48 ≤ c.toNat := UInt32.le_iff_toNat_le.1 hc.1
    have hvalue : c.toNat - 48 = 0 := Option.some.inj h
    exact Char.toNat_inj.1 (show c.toNat = 48 by omega)
  · exact nomatch h

/-- The number that whole digits begin, the cursor being behind them. -/
private def afterWhole (significand dropped : Nat) (c : Cursor) : Except Error (Json × Cursor) :=
  match c.rest with
  | '.' :: _ => fractionPart negative significand dropped c
  | 'e' :: _ | 'E' :: _ => exponentPart negative significand dropped c
  | _ =>
    if dropped = 0 then .ok (wholeNumber negative significand, c)
    else gatheredDouble negative significand dropped c

/-- Up to the end of the whole digits all numbers are read in the same way. -/
private theorem unsignedNumber_whole {whole : List Char} (hwhole : IsWhole whole)
    {behind : List Char} (hbehind : NoDigit behind) (p : Position) :
    unsignedNumber negative ⟨whole ++ behind, p⟩ =
      afterWhole negative (gatherDigits 0 0 whole).1 (gatherDigits 0 0 whole).2
        ⟨behind, p.afterAll whole⟩ := by
  have htake := takeWhile_digits hwhole.digits.digits hbehind
  have hskip := skipDigits_append hwhole.digits.digits hbehind p
  obtain ⟨d, ds, rfl⟩ := List.exists_cons_of_ne_nil hwhole.digits.nonempty
  obtain ⟨v, hv⟩ := Option.isSome_iff_exists.1 (hwhole.digits.digits d List.mem_cons_self)
  rw [List.cons_append] at htake hskip ⊢
  simp only [unsignedNumber, hv, htake, hskip]
  refine if_neg ?_
  -- a zero in front is the only whole digit
  by_cases h0 : v = 0
  · subst h0
    obtain rfl : ds = [] := hwhole.leading ds (by rw [eq_zero_of_digitValue? hv])
    rw [List.nil_append]
    split
    · next next cs => simp [hbehind next cs rfl]
    · simp
  · simp [h0]

/-- What follows the whole digits is one number everywhere, or the end of one. -/
private theorem exists_yields_afterWhole (significand dropped : Nat) {fraction part : List Char}
    (hfraction : IsFraction fraction) (hpart : IsExponent part) :
    ∃ outcome, ∀ rest p, Ends rest →
      Yields (afterWhole negative significand dropped ⟨fraction ++ (part ++ rest), p⟩) rest
        outcome := by
  obtain rfl | ⟨digits, hdigits, rfl⟩ := hfraction
  · obtain rfl | ⟨mark, sign, digits, hmark, hsign, hdigits, rfl⟩ := hpart
    · -- neither a point nor a mark follows
      have hend : ∀ rest p, Ends rest → afterWhole negative significand dropped ⟨rest, p⟩ =
          if dropped = 0 then .ok (wholeNumber negative significand, ⟨rest, p⟩)
          else gatheredDouble negative significand dropped ⟨rest, p⟩ := by
        intro rest p hrest
        unfold afterWhole
        split
        · next cs heq => exact absurd rfl (hrest _ cs heq).2.1
        · next cs heq => exact absurd rfl (hrest _ cs heq).2.2.1
        · next cs heq => exact absurd rfl (hrest _ cs heq).2.2.2
        · rfl
      simp only [List.nil_append]
      -- digits that did not fit make a double of the integer
      by_cases hdropped : dropped = 0
      · refine ⟨some (wholeNumber negative significand), fun rest p hrest => ?_⟩
        rw [hend rest p hrest, if_pos hdropped]
        exact ⟨_, rfl⟩
      · refine ⟨gathered? negative significand dropped, fun rest p hrest => ?_⟩
        rw [hend rest p hrest, if_neg hdropped]
        exact yields_gatheredDouble _ _ _ _ _
    · obtain ⟨outcome, h⟩ :=
        exists_yields_exponentPart negative significand dropped mark hsign hdigits
      refine ⟨outcome, fun rest p hrest => ?_⟩
      rw [List.nil_append, List.cons_append, List.append_assoc]
      obtain rfl | rfl := hmark
      · exact h rest p hrest
      · exact h rest p hrest
  -- with a point the fraction decides
  · obtain ⟨outcome, h⟩ := exists_yields_fractionPart negative significand dropped hdigits hpart
    exact ⟨outcome, fun rest p hrest => h rest p hrest⟩

/-- The digits of a number, with all that follows them, are one number everywhere. -/
private theorem exists_yields_unsignedNumber {whole fraction part : List Char}
    (hwhole : IsWhole whole) (hfraction : IsFraction fraction) (hpart : IsExponent part) :
    ∃ outcome, ∀ rest p, Ends rest →
      Yields (unsignedNumber negative ⟨whole ++ (fraction ++ (part ++ rest)), p⟩) rest outcome := by
  obtain ⟨outcome, h⟩ := exists_yields_afterWhole negative (gatherDigits 0 0 whole).1
    (gatherDigits 0 0 whole).2 hfraction hpart
  refine ⟨outcome, fun rest p hrest => ?_⟩
  -- what follows the whole part starts with a point, a mark or the rest
  have hbehind : NoDigit (fraction ++ (part ++ rest)) := by
    obtain rfl | ⟨digits, -, rfl⟩ := hfraction
    · exact noDigit_exponent hpart hrest
    · rintro c cs heq
      obtain ⟨rfl, -⟩ := List.cons.inj heq
      decide
  rw [unsignedNumber_whole negative hwhole hbehind]
  exact h rest _ hrest

end

/-- The text of a number is read as one number, or not at all, wherever it stands. -/
theorem exists_gives_number {cs : List Char} (h : IsNumber cs) :
    ∃ outcome, Gives Cursor.number cs outcome := by
  obtain ⟨sign, whole, fraction, part, hsign, hwhole, hfraction, hpart, rfl⟩ := h
  obtain rfl | rfl := hsign
  · obtain ⟨outcome, houtcome⟩ := exists_yields_unsignedNumber false hwhole hfraction hpart
    refine ⟨outcome, fun rest p hrest => ?_⟩
    have hyields := houtcome rest p hrest
    obtain ⟨d, ds, rfl⟩ := List.exists_cons_of_ne_nil hwhole.digits.nonempty
    have hd := hwhole.digits.digits d List.mem_cons_self
    simp only [List.nil_append, List.append_assoc, List.cons_append, number] at hyields ⊢
    split
    · next heq =>
      obtain ⟨rfl, -⟩ := List.cons.inj heq
      -- no digit is a minus
      exact absurd hd (by decide)
    · exact hyields
  · obtain ⟨outcome, houtcome⟩ := exists_yields_unsignedNumber true hwhole hfraction hpart
    refine ⟨outcome, fun rest p hrest => ?_⟩
    have hyields := houtcome rest (p.after '-') hrest
    simp only [List.append_assoc, List.cons_append, List.nil_append]
    exact hyields

end CommandBus.Json

namespace CommandBus.Number.Binary64

open Json (Cursor)

/-- What a double precision number is read as from its own text. -/
def reread? (x : Binary64) : Option Json :=
  match Cursor.number ⟨x.jsonChars, {}⟩ with
  | .ok (j, _) => some j
  | .error _ => none

/-- A written double precision number is read in the same way wherever it stands. -/
theorem gives_number_jsonChars (x : Binary64) :
    Json.Gives Cursor.number x.jsonChars x.reread? := by
  obtain ⟨outcome, h⟩ := Json.exists_gives_number x.isNumber_jsonChars
  -- the text by itself tells which outcome it is
  have halone := h [] {} Cursor.ends_nil
  rw [List.append_nil] at halone
  have hreread : x.reread? = outcome := by
    unfold reread?
    cases outcome with
    | some j =>
      obtain ⟨p, hp⟩ := halone
      rw [hp]
    | none =>
      obtain ⟨e, he⟩ := halone
      rw [he]
  rw [hreread]
  exact h

/-- Whether a double precision number is read as itself from its own text. -/
def legible (x : Binary64) : Bool :=
  match x.reread? with
  | some (.double y) => y = x
  | _ => false

theorem legible_iff {x : Binary64} : x.legible = true ↔ x.reread? = some (.double x) := by
  unfold legible
  split
  · next y h => simp [h]
  · next h =>
    exact ⟨fun hfalse => absurd hfalse Bool.false_ne_true, fun hself => absurd hself (h x)⟩

/-- The text `1e-24` of this number is read as the number behind it. -/
example : (Binary64.mk 0x3AF357C299A88EA7).legible = false := by decide +kernel

end CommandBus.Number.Binary64
