import CommandBus.Json.Cursor
import CommandBus.Proofs.Number.Digits

/-!
# Reading back what was written

The writer escapes a string character by character and writes an integer as its digits.  The
reader takes both back, wherever they stand in a text, and so does the part of the reader that
steps over values without looking at them.

Places in the text play no part here: every lemma says that there is some place.

## Key results

- `string_stringChars`, `skipString_flatMap`: a written string is read back, or stepped over
- `number_intText`, `skipNumber_intText`: so is a written integer, if no digit, point or
  exponent follows it (`Ends`)
-/

namespace CommandBus.Json

open Number

namespace Cursor

/-! ## Strings -/

/-- A character is written as itself, as a backslash with a letter, or by its number. -/
theorem stringChar_cases (c : Char) :
    (stringChar c = [c] ∧ c ≠ '"' ∧ c ≠ '\\' ∧ ¬ c.val.toNat < 0x20) ∨
    (∃ e, stringChar c = ['\\', e] ∧ e ≠ 'u' ∧
      ∀ rest p, escape ⟨e :: rest, p⟩ = .ok (c, eat ⟨e :: rest, p⟩)) ∨
    (stringChar c = '\\' :: 'u' :: paddedHex 4 c.val.toNat ∧ c.val.toNat < 0x20) := by
  -- the characters with a letter of their own come first, in the order of the writer
  unfold stringChar
  split
  · exact .inr (.inl ⟨'"', rfl, by decide, fun _ _ => rfl⟩)
  · exact .inr (.inl ⟨'\\', rfl, by decide, fun _ _ => rfl⟩)
  · exact .inr (.inl ⟨'b', rfl, by decide, fun _ _ => rfl⟩)
  · exact .inr (.inl ⟨'f', rfl, by decide, fun _ _ => rfl⟩)
  · exact .inr (.inl ⟨'n', rfl, by decide, fun _ _ => rfl⟩)
  · exact .inr (.inl ⟨'r', rfl, by decide, fun _ _ => rfl⟩)
  · exact .inr (.inl ⟨'t', rfl, by decide, fun _ _ => rfl⟩)
  · next hquote hback _ _ _ _ _ =>
    split
    · next hlow => exact .inr (.inr ⟨rfl, hlow⟩)
    · next hhigh => exact .inl ⟨rfl, hquote, hback, hhigh⟩

/-- Four hexadecimal digits are read back as their number. -/
theorem hexEscape_paddedHex {n : Nat} (hn : n < 65536) (rest : List Char) (p : Position) :
    ∃ p', hexEscape ⟨paddedHex 4 n ++ rest, p⟩ = .ok (n, ⟨rest, p'⟩) := by
  have hdigits : paddedHex 4 n =
      [hexChar (n / 16 / 16 / 16), hexChar (n / 16 / 16), hexChar (n / 16), hexChar n] := rfl
  -- a number that four digits have room for is put together again
  have hvalue : ((n / 16 / 16 / 16 % 16 * 16 + n / 16 / 16 % 16) * 16 + n / 16 % 16) * 16 +
      n % 16 = n := by omega
  rw [hdigits]
  simp only [List.cons_append, List.nil_append, hexEscape, hexValue?_hexChar, hvalue]
  exact ⟨_, rfl⟩

/-- An escape by number of a low character gives the character. -/
theorem escape_paddedHex {c : Char} (hc : c.val.toNat < 0x20) (rest : List Char) (p : Position) :
    ∃ p', escape ⟨'u' :: (paddedHex 4 c.val.toNat ++ rest), p⟩ = .ok (c, ⟨rest, p'⟩) := by
  obtain ⟨p', hp⟩ := hexEscape_paddedHex (n := c.val.toNat) (by omega) rest (p.after 'u')
  -- a low character is far from the surrogates, so that one escape is all of it
  have hlone : ¬ (0xDC00 ≤ c.val.toNat ∧ c.val.toNat ≤ 0xDFFF) := by omega
  have hscalar : c.val.toNat < 0xD800 ∨ 0xDBFF < c.val.toNat := by omega
  have hchar : Char.ofNat c.val.toNat = c := Char.ofNat_toNat c
  refine ⟨p', ?_⟩
  simp only [escape, unicodeEscape, eat, hp, if_neg hlone, if_pos hscalar, hchar]

/-- The body of a string takes back one written character and goes on behind it. -/
private theorem stringBody_stringChar (c : Char) (fuel : Nat) (rest : List Char) (p : Position) :
    ∃ p', ∀ xs next, stringBody fuel ⟨rest, p'⟩ = .ok (xs, next) →
      stringBody (fuel + 1) ⟨stringChar c ++ rest, p⟩ = .ok (c :: xs, next) := by
  -- a character is written as itself, behind a backslash, or as its number
  obtain ⟨hw, hquote, hback, hhigh⟩ | ⟨e, hw, -, hesc⟩ | ⟨hw, hlow⟩ := stringChar_cases c
  · refine ⟨p.after c, fun xs next hrest => ?_⟩
    rw [hw]
    simp only [List.cons_append, List.nil_append, stringBody, if_neg hquote, if_neg hback,
      if_neg hhigh, eat, hrest]
  · refine ⟨(p.after '\\').after e, fun xs next hrest => ?_⟩
    have hne : ('\\' : Char) ≠ '"' := by decide
    rw [hw]
    simp only [List.cons_append, List.nil_append, stringBody, if_neg hne, if_true, eat, hesc,
      hrest]
  · obtain ⟨p', hp⟩ := escape_paddedHex hlow rest (p.after '\\')
    refine ⟨p', fun xs next hrest => ?_⟩
    have hne : ('\\' : Char) ≠ '"' := by decide
    rw [hw]
    simp only [List.cons_append, stringBody, if_neg hne, if_true, eat, hp, hrest]

/-- The body of a string takes back the characters of a written string. -/
theorem stringBody_flatMap {cs : List Char} {fuel : Nat} (hfuel : cs.length < fuel)
    (rest : List Char) (p : Position) :
    ∃ p', stringBody fuel ⟨cs.flatMap stringChar ++ '"' :: rest, p⟩ = .ok (cs, ⟨rest, p'⟩) := by
  -- there is fuel for the closing quote as well
  obtain ⟨fuel, rfl⟩ : ∃ k, fuel = k + 1 := ⟨fuel - 1, by omega⟩
  induction cs generalizing fuel p with
  | nil => exact ⟨_, rfl⟩
  | cons c cs ih =>
    rw [List.length_cons] at hfuel
    obtain ⟨fuel, rfl⟩ : ∃ k, fuel = k + 1 := ⟨fuel - 1, by omega⟩
    rw [List.flatMap_cons, List.append_assoc]
    obtain ⟨p₁, hstep⟩ :=
      stringBody_stringChar c (fuel + 1) (cs.flatMap stringChar ++ '"' :: rest) p
    obtain ⟨p₂, hrest⟩ := ih p₁ fuel (by omega)
    exact ⟨p₂, hstep cs _ hrest⟩

/-- Stepping over a string passes one written character. -/
private theorem skipString_stringChar (c : Char) (fuel : Nat) (rest : List Char) (p : Position) :
    ∃ p', skipString (fuel + 1) ⟨stringChar c ++ rest, p⟩ = skipString fuel ⟨rest, p'⟩ := by
  obtain ⟨hw, hquote, hback, hhigh⟩ | ⟨e, hw, hu, hesc⟩ | ⟨hw, hlow⟩ := stringChar_cases c
  · rw [hw]
    refine ⟨p.after c, ?_⟩
    simp only [List.cons_append, List.nil_append, skipString, if_neg hquote, if_neg hback,
      if_neg hhigh, eat]
  · rw [hw]
    refine ⟨(p.after '\\').after e, ?_⟩
    have hne : ('\\' : Char) ≠ '"' := by decide
    simp only [List.cons_append, List.nil_append, skipString, if_neg hne, if_true, eat]
    split
    -- only escapes by number are looked at in another way
    · next heq => exact absurd (List.cons.inj heq).1 hu
    · rw [hesc]
      rfl
  · rw [hw]
    have hsmall : c.val.toNat < 65536 := by omega
    obtain ⟨p', hp⟩ := hexEscape_paddedHex hsmall rest ((p.after '\\').after 'u')
    refine ⟨p', ?_⟩
    have hne : ('\\' : Char) ≠ '"' := by decide
    simp only [List.cons_append, skipString, if_neg hne, if_true, eat, hp]

/-- A written string is stepped over. -/
theorem skipString_flatMap {cs : List Char} {fuel : Nat} (hfuel : cs.length < fuel)
    (rest : List Char) (p : Position) :
    ∃ p', skipString fuel ⟨cs.flatMap stringChar ++ '"' :: rest, p⟩ = .ok ⟨rest, p'⟩ := by
  -- there is fuel for the closing quote as well
  obtain ⟨fuel, rfl⟩ : ∃ k, fuel = k + 1 := ⟨fuel - 1, by omega⟩
  induction cs generalizing fuel p with
  | nil => exact ⟨_, rfl⟩
  | cons c cs ih =>
    rw [List.length_cons] at hfuel
    obtain ⟨fuel, rfl⟩ : ∃ k, fuel = k + 1 := ⟨fuel - 1, by omega⟩
    rw [List.flatMap_cons, List.append_assoc]
    obtain ⟨p₁, hstep⟩ :=
      skipString_stringChar c (fuel + 1) (cs.flatMap stringChar ++ '"' :: rest) p
    rw [hstep]
    exact ih p₁ fuel (by omega)

/-- No character is written as nothing. -/
theorem length_le_length_flatMap (cs : List Char) :
    cs.length ≤ (cs.flatMap stringChar).length := by
  induction cs with
  | nil => exact Nat.le_refl _
  | cons c cs ih =>
    have hpos : 0 < (stringChar c).length := by
      obtain ⟨hw, -⟩ | ⟨e, hw, -⟩ | ⟨hw, -⟩ := stringChar_cases c <;> rw [hw] <;> simp
    rw [List.flatMap_cons, List.length_append, List.length_cons]
    omega

/-- A written string is read back. -/
theorem string_stringChars (s : String) (rest : List Char) (p : Position) :
    ∃ p', string ⟨stringChars s ++ rest, p⟩ = .ok (s, ⟨rest, p'⟩) := by
  have hlen := length_le_length_flatMap s.toList
  have htext : stringChars s ++ rest = '"' :: (s.toList.flatMap stringChar ++ '"' :: rest) := by
    simp [stringChars]
  rw [htext]
  have hfuel : s.toList.length <
      ('"' :: (s.toList.flatMap stringChar ++ '"' :: rest)).length + 1 := by
    simp only [List.length_cons, List.length_append]
    omega
  obtain ⟨p', hp⟩ := stringBody_flatMap hfuel rest (p.after '"')
  refine ⟨p', ?_⟩
  simp only [string, eat, hp, String.ofList_toList]

/-! ## Integers -/

/-- What follows a text cannot be part of a number at the end of it. -/
def Ends (rest : List Char) : Prop :=
  ∀ c cs, rest = c :: cs → isDigit c = false ∧ c ≠ '.' ∧ c ≠ 'e' ∧ c ≠ 'E'

theorem ends_nil : Ends [] := fun _ _ h => nomatch h

theorem ends_comma (cs : List Char) : Ends (',' :: cs) := by
  rintro c cs' h
  obtain ⟨rfl, rfl⟩ := List.cons.inj h
  decide

theorem ends_brace (cs : List Char) : Ends ('\x7d' :: cs) := by
  rintro c cs' h
  obtain ⟨rfl, rfl⟩ := List.cons.inj h
  decide

theorem ends_bracket (cs : List Char) : Ends (']' :: cs) := by
  rintro c cs' h
  obtain ⟨rfl, rfl⟩ := List.cons.inj h
  decide

/-- What follows digits is not one more digit. -/
def NoDigit (rest : List Char) : Prop := ∀ c cs, rest = c :: cs → isDigit c = false

theorem Ends.noDigit {rest : List Char} (h : Ends rest) : NoDigit rest :=
  fun c cs heq => (h c cs heq).1

/-- Digits are taken up to the end of them. -/
theorem takeWhile_digits {ds rest : List Char} (hds : ∀ c ∈ ds, isDigit c = true)
    (hrest : NoDigit rest) : (ds ++ rest).takeWhile isDigit = ds := by
  rw [List.takeWhile_append_of_pos hds]
  cases rest with
  | nil => simp
  | cons c cs => simp [hrest c cs rfl]

theorem dropWhile_digits {ds rest : List Char} (hds : ∀ c ∈ ds, isDigit c = true)
    (hrest : NoDigit rest) : (ds ++ rest).dropWhile isDigit = rest := by
  rw [List.dropWhile_append_of_pos hds]
  cases rest with
  | nil => rfl
  | cons c cs => simp [hrest c cs rfl]

theorem skipDigits_append {ds rest : List Char} (hds : ∀ c ∈ ds, isDigit c = true)
    (hrest : NoDigit rest) (p : Position) :
    skipDigits ⟨ds ++ rest, p⟩ = ⟨rest, p.afterAll ds⟩ := by
  simp only [skipDigits, takeWhile_digits hds hrest, dropWhile_digits hds hrest]

/-- Digits of a number that fits into the significand are all gathered. -/
private theorem gatherDigits_of_lt {ds : List Char} (hds : ∀ c ∈ ds, isDigit c = true) {n : Nat}
    (hlt : ds.foldl (fun n c => n * 10 + (digitValue? c).getD 0) n < significandLimit) :
    gatherDigits n 0 ds = (ds.foldl (fun n c => n * 10 + (digitValue? c).getD 0) n, 0) := by
  induction ds generalizing n with
  | nil => rfl
  | cons d ds ih =>
    rw [List.forall_mem_cons] at hds
    obtain ⟨v, hv⟩ := Option.isSome_iff_exists.1 hds.1
    rw [List.foldl_cons, hv, Option.getD_some] at hlt ⊢
    -- what is small enough in the end is small enough on the way
    have hle := le_foldl_digits ds (n * 10 + v)
    have hfits : n * 10 + v < significandLimit := by omega
    simp only [gatherDigits, hv, hfits, decide_true, Bool.and_self, if_true]
    exact ih hds.2 hlt

/-- The digits of a number are read back as the whole number, after either sign. -/
private theorem unsignedNumber_toDigits (negative : Bool) {n : Nat} (hn : n < significandLimit)
    {rest : List Char} (hrest : Ends rest) (p : Position) :
    ∃ p', unsignedNumber negative ⟨toDigits n ++ rest, p⟩ =
      .ok (wholeNumber negative n, ⟨rest, p'⟩) := by
  have hds : ∀ c ∈ toDigits n, isDigit c = true := fun c hc => isDigit_of_mem_toDigits hc
  -- all digits fit into the significand
  have hgather : gatherDigits 0 0 (toDigits n) = (n, 0) := by
    have hval : (toDigits n).foldl (fun n c => n * 10 + (digitValue? c).getD 0) 0 = n :=
      ofDigits_toDigits n
    rw [gatherDigits_of_lt hds (by rw [hval]; exact hn), hval]
  have htake := takeWhile_digits hds hrest.noDigit
  have hskip := skipDigits_append hds hrest.noDigit p
  obtain ⟨ch, cs, heq, hch, hzero⟩ := toDigits_cons n
  obtain ⟨v, hv⟩ := Option.isSome_iff_exists.1 hch
  refine ⟨p.afterAll (toDigits n), ?_⟩
  rw [heq, List.cons_append] at htake hskip ⊢
  simp only [unsignedNumber, hv, htake, hskip]
  rw [← heq, hgather, if_neg]
  · cases rest with
    | nil => rfl
    | cons c cs' =>
      -- what follows is neither a point nor the mark of an exponent
      obtain ⟨-, hpoint, he, hE⟩ := hrest c cs' rfl
      split
      · next h => exact absurd (List.cons.inj h).1 hpoint
      · next h => exact absurd (List.cons.inj h).1 he
      · next h => exact absurd (List.cons.inj h).1 hE
      · rfl
  · -- a zero in front is the whole number, and no digit follows it
    by_cases h0 : v = 0
    · rw [hzero (h0 ▸ hv), List.nil_append]
      cases rest with
      | nil => simp
      | cons c cs' => simp [(hrest c cs' rfl).1]
    · simp [h0]

/-- An integer of the document range is what its value stands for. -/
private theorem ofInt?_value (n : Integer) : Integer.ofInt? n.value = some n := by
  rw [Integer.ofInt?, dif_pos ⟨n.value_ge, n.value_lt⟩]

/-- No digit is a sign. -/
private theorem ne_minus_of_isDigit {c : Char} (h : isDigit c = true) : c ≠ '-' := by
  rintro rfl
  exact absurd h (by decide)

/-- A written integer is read back. -/
theorem number_intText (n : Integer) {rest : List Char} (hrest : Ends rest) (p : Position) :
    ∃ p', number ⟨(intText n.value).toList ++ rest, p⟩ = .ok (.integer n, ⟨rest, p'⟩) := by
  have hge := n.value_ge
  have hlt := n.value_lt
  have hfits : n.value.natAbs < significandLimit := by
    unfold significandLimit
    omega
  rw [intText, String.toList_ofList]
  -- a negative number is its sign and the digits of its distance from zero
  by_cases hneg : n.value < 0
  · obtain ⟨p', hp⟩ := unsignedNumber_toDigits true hfits hrest (p.after '-')
    have hzero : n.value.natAbs ≠ 0 := by omega
    have habs : -(n.value.natAbs : Int) = n.value := by omega
    have hwhole : wholeNumber true n.value.natAbs = .integer n := by
      simp only [wholeNumber, if_true, if_neg hzero, habs, ofInt?_value]
    refine ⟨p', ?_⟩
    rw [if_pos hneg, List.cons_append, ← hwhole, ← hp]
    rfl
  · obtain ⟨p', hp⟩ := unsignedNumber_toDigits false hfits hrest p
    have habs : (n.value.natAbs : Int) = n.value := by omega
    have hwhole : wholeNumber false n.value.natAbs = .integer n := by
      simp only [wholeNumber, habs, ofInt?_value]
      rfl
    obtain ⟨ch, cs, heq, hch, -⟩ := toDigits_cons n.value.natAbs
    refine ⟨p', ?_⟩
    rw [if_neg hneg, ← hwhole, ← hp, heq, List.cons_append, number]
    split
    · next h => exact absurd (List.cons.inj h).1 (ne_minus_of_isDigit hch)
    · rfl

/-- The digits of a number are stepped over. -/
private theorem skipNumber_toDigits (n : Nat) {rest : List Char} (hrest : Ends rest)
    (p : Position) : ∃ p', skipNumber ⟨toDigits n ++ rest, p⟩ = .ok ⟨rest, p'⟩ := by
  have hds : ∀ c ∈ toDigits n, isDigit c = true := fun c hc => isDigit_of_mem_toDigits hc
  have hskip := skipDigits_append hds hrest.noDigit p
  obtain ⟨ch, cs, heq, hch, hzero⟩ := toDigits_cons n
  refine ⟨p.afterAll (toDigits n), ?_⟩
  rw [heq, List.cons_append] at hskip ⊢
  unfold skipNumber
  split
  · next h => exact absurd (List.cons.inj h).1 (ne_minus_of_isDigit hch)
  simp only [hch, Bool.not_true, Bool.false_eq_true, if_false, hskip]
  rw [← heq, if_neg]
  · cases rest with
    | nil => rfl
    | cons c cs' =>
      -- what follows is neither a point nor the mark of an exponent
      obtain ⟨-, hpoint, he, hE⟩ := hrest c cs' rfl
      split
      · next h => exact absurd (List.cons.inj h).1 hpoint
      · split
        · next h => exact absurd (List.cons.inj h).1 he
        · next h => exact absurd (List.cons.inj h).1 hE
        · rfl
  -- a zero in front is the whole number, and no digit follows it
  · by_cases h0 : ch = '0'
    · have hv : digitValue? ch = some 0 := by rw [h0]; rfl
      rw [hzero hv, List.nil_append]
      cases rest with
      | nil => simp
      | cons c cs' => simp [(hrest c cs' rfl).1]
    · simp [h0]

/-- A sign in front of digits is stepped over with them. -/
private theorem skipNumber_minus (n : Nat) (rest : List Char) (p : Position) :
    skipNumber ⟨'-' :: (toDigits n ++ rest), p⟩ =
      skipNumber ⟨toDigits n ++ rest, p.after '-'⟩ := by
  obtain ⟨ch, cs, heq, hch, -⟩ := toDigits_cons n
  rw [heq, List.cons_append]
  unfold skipNumber
  split
  · split
    · next h => exact absurd (List.cons.inj h).1 (ne_minus_of_isDigit hch)
    · rfl
  · next h => exact absurd rfl (h _)

/-- A written integer is stepped over. -/
theorem skipNumber_intText (n : Int) {rest : List Char} (hrest : Ends rest) (p : Position) :
    ∃ p', skipNumber ⟨(intText n).toList ++ rest, p⟩ = .ok ⟨rest, p'⟩ := by
  rw [intText, String.toList_ofList]
  by_cases hneg : n < 0
  · rw [if_pos hneg, List.cons_append, skipNumber_minus]
    exact skipNumber_toDigits n.natAbs hrest _
  · rw [if_neg hneg]
    exact skipNumber_toDigits n.natAbs hrest p

/-- A character that an integer may start with. -/
def StartsInteger (c : Char) : Prop := c = '-' ∨ isDigit c = true

namespace StartsInteger

/-- Words, strings and brackets start in other ways. -/
theorem ne {c : Char} (h : StartsInteger c) {s : Char} (hminus : s ≠ '-')
    (hdigit : isDigit s = false) : c ≠ s := by
  rintro rfl
  obtain hc | hc := h
  · exact hminus hc
  · rw [hdigit] at hc
    exact nomatch hc

theorem isSpace {c : Char} (h : StartsInteger c) : isSpace c = false := by
  simp [Cursor.isSpace, h.ne (s := ' ') (by decide) (by decide),
    h.ne (s := '\n') (by decide) (by decide), h.ne (s := '\t') (by decide) (by decide),
    h.ne (s := '\r') (by decide) (by decide)]

/-- The test that the reader of values makes. -/
theorem test {c : Char} (h : StartsInteger c) : (c = '-' || isDigit c) = true := by
  rw [Bool.or_eq_true, decide_eq_true_eq]
  exact h

end StartsInteger

/-- A written integer starts with a sign or a digit. -/
theorem intText_cons (n : Int) : ∃ c cs, (intText n).toList = c :: cs ∧ StartsInteger c := by
  rw [intText, String.toList_ofList]
  by_cases hneg : n < 0
  · rw [if_pos hneg]
    exact ⟨_, _, rfl, .inl rfl⟩
  · obtain ⟨c, cs, heq, hc, -⟩ := toDigits_cons n.natAbs
    rw [if_neg hneg]
    exact ⟨c, cs, heq, .inr hc⟩

end Cursor

end CommandBus.Json
