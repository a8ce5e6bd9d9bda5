import CommandBus.Json.Printer
import CommandBus.Proofs.Number.Written

/-!
# The grammar of written documents

`IsValue` is the grammar of documents without blanks between their parts.  Whatever is written is
in it, and an object is written between braces.  The grammar has no control character anywhere,
inside strings they are escaped, so that a document is written on one line.

## Key results

- `IsValue.printable`: no control character stands in a document
- `isString_stringChars`: a text is written as a string, whatever its characters are
- `isValue_chars`: a document is written as a value
-/

namespace CommandBus.Json

open Number

/-! ## The grammar -/

/-- The inside of a string: characters that stand for themselves, and escapes. -/
inductive IsStringBody : List Char → Prop where
  | nil : IsStringBody []
  | plain {c : Char} {rest : List Char} (hlow : 0x20 ≤ c.val.toNat) (hquote : c ≠ '"')
      (hback : c ≠ '\\') (h : IsStringBody rest) : IsStringBody (c :: rest)
  | escape {c : Char} {rest : List Char} (hc : c ∈ ['"', '\\', '/', 'b', 'f', 'n', 'r', 't'])
      (h : IsStringBody rest) : IsStringBody ('\\' :: c :: rest)
  | unicode {digits rest : List Char} (hlength : digits.length = 4)
      (hdigits : ∀ c ∈ digits, (hexValue? c).isSome) (h : IsStringBody rest) :
      IsStringBody ('\\' :: 'u' :: (digits ++ rest))

/-- A string between quotes. -/
def IsString (cs : List Char) : Prop := ∃ body, IsStringBody body ∧ cs = '"' :: (body ++ ['"'])

/-- A document without blanks between its parts. -/
inductive IsValue : List Char → Prop where
  | null : IsValue ['n', 'u', 'l', 'l']
  | true : IsValue ['t', 'r', 'u', 'e']
  | false : IsValue ['f', 'a', 'l', 's', 'e']
  | number {cs : List Char} (h : IsNumber cs) : IsValue cs
  | string {cs : List Char} (h : IsString cs) : IsValue cs
  | array (items : List (List Char)) (h : ∀ item ∈ items, IsValue item) :
      IsValue ('[' :: (List.intercalate [','] items ++ [']']))
  | object (members : List (List Char × List Char)) (hnames : ∀ m ∈ members, IsString m.1)
      (h : ∀ m ∈ members, IsValue m.2) :
      IsValue ('\x7b' :: (List.intercalate [','] (members.map fun m => m.1 ++ ':' :: m.2) ++
        ['\x7d']))

/-- An object is a document that starts with a brace. -/
structure IsObject (cs : List Char) : Prop where
  value : IsValue cs
  brace : cs.head? = some '\x7b'

/-! ## Control characters -/

/-- No character of these is a control below the space. -/
def Printable (cs : List Char) : Prop := ∀ c ∈ cs, 0x20 ≤ c.val.toNat

instance (cs : List Char) : Decidable (Printable cs) :=
  decidable_of_iff (cs.all fun c => decide (0x20 ≤ c.val.toNat) = true) (by simp [Printable])

theorem Printable.append {cs ds : List Char} (hcs : Printable cs) (hds : Printable ds) :
    Printable (cs ++ ds) :=
  fun c hc => (List.mem_append.1 hc).elim (hcs c) (hds c)

theorem Printable.cons {c : Char} {cs : List Char} (hc : 0x20 ≤ c.val.toNat)
    (hcs : Printable cs) : Printable (c :: cs) :=
  List.forall_mem_cons.2 ⟨hc, hcs⟩

theorem Printable.intercalate {parts : List (List Char)} (h : ∀ part ∈ parts, Printable part) :
    Printable (List.intercalate [','] parts) := by
  induction parts with
  | nil => exact fun c hc => nomatch hc
  | cons part rest ih =>
    rw [List.forall_mem_cons] at h
    cases rest with
    | nil => simpa using h.1
    | cons next rest =>
      rw [List.intercalate_cons_cons, List.append_assoc]
      exact h.1.append (.cons (by decide) (ih h.2))

/-- Neither is a decimal digit. -/
theorem printable_of_isDigit {c : Char} (h : isDigit c = true) : 0x20 ≤ c.val.toNat := by
  unfold isDigit digitValue? at h
  split at h
  · next hc => exact Nat.le_trans (by decide) (UInt32.le_iff_toNat_le.1 hc.1)
  · exact nomatch h

/-- Neither is a hexadecimal digit. -/
theorem printable_of_hexValue? {c : Char} (h : (hexValue? c).isSome) : 0x20 ≤ c.val.toNat := by
  unfold hexValue? at h
  split at h
  · next hc => exact Nat.le_trans (by decide) (UInt32.le_iff_toNat_le.1 hc.1)
  · split at h
    · next hc => exact Nat.le_trans (by decide) (UInt32.le_iff_toNat_le.1 hc.1)
    · split at h
      · next hc => exact Nat.le_trans (by decide) (UInt32.le_iff_toNat_le.1 hc.1)
      · exact nomatch h

theorem printable_number {cs : List Char} (h : IsNumber cs) : Printable cs := by
  obtain ⟨sign, whole, fraction, exponent, hsign, hwhole, hfraction, hexponent, rfl⟩ := h
  have hdigits : ∀ {ds}, IsDigits ds → Printable ds :=
    fun hds c hc => printable_of_isDigit (hds.digits c hc)
  -- sign, whole part, fraction and exponent, each of printable characters
  refine ((Printable.append ?_ (hdigits hwhole.digits)).append ?_).append ?_
  · obtain rfl | rfl := hsign <;> decide
  · obtain rfl | ⟨ds, hds, rfl⟩ := hfraction
    · exact fun c hc => nomatch hc
    · exact .cons (by decide) (hdigits hds)
  · obtain rfl | ⟨mark, sign, ds, hmark, hsign, hds, rfl⟩ := hexponent
    · exact fun c hc => nomatch hc
    · refine .cons ?_ (.append ?_ (hdigits hds))
      · obtain rfl | rfl := hmark <;> decide
      · obtain rfl | rfl | rfl := hsign <;> decide

theorem printable_string {cs : List Char} (h : IsString cs) : Printable cs := by
  obtain ⟨body, hbody, rfl⟩ := h
  refine .cons (by decide) (.append ?_ (by decide))
  induction hbody with
  | nil => exact fun c hc => nomatch hc
  | plain hlow _ _ _ ih => exact .cons hlow ih
  | escape hc _ ih =>
    have hletters : Printable ['"', '\\', '/', 'b', 'f', 'n', 'r', 't'] := by decide
    exact .cons (by decide) (.cons (hletters _ hc) ih)
  | unicode _ hdigits _ ih =>
    have hhex : Printable _ := fun c hc => printable_of_hexValue? (hdigits c hc)
    exact .cons (by decide) (.cons (by decide) (hhex.append ih))

/-- No control character stands in a document. -/
theorem IsValue.printable {cs : List Char} (h : IsValue cs) : Printable cs := by
  induction h with
  | null => decide
  | true => decide
  | false => decide
  | number h => exact printable_number h
  | string h => exact printable_string h
  | array items _ ih =>
    exact .cons (by decide) (.append (.intercalate ih) (by decide))
  | object members hnames _ ih =>
    refine .cons (by decide) (.append (.intercalate fun part hpart => ?_) (by decide))
    obtain ⟨m, hm, rfl⟩ := List.mem_map.1 hpart
    exact (printable_string (hnames m hm)).append (.cons (by decide) (ih m hm))

/-! ## What is written -/

theorem isStringBody_stringChar (c : Char) {rest : List Char} (h : IsStringBody rest) :
    IsStringBody (stringChar c ++ rest) := by
  -- the characters with a letter of their own come first, in the order of the writer
  unfold stringChar
  split
  · exact .escape (by decide) h
  · exact .escape (by decide) h
  · exact .escape (by decide) h
  · exact .escape (by decide) h
  · exact .escape (by decide) h
  · exact .escape (by decide) h
  · exact .escape (by decide) h
  · next hquote hback _ _ _ _ _ =>
    split
    · next hlow =>
      refine .unicode (length_paddedHex 4 _) (fun d hd => ?_) h
      have hdigits : paddedHex 4 c.val.toNat = [hexChar (c.val.toNat / 16 / 16 / 16),
          hexChar (c.val.toNat / 16 / 16), hexChar (c.val.toNat / 16), hexChar c.val.toNat] := rfl
      rw [hdigits] at hd
      simp only [List.mem_cons, List.not_mem_nil, or_false] at hd
      obtain rfl | rfl | rfl | rfl := hd <;> simp [hexValue?_hexChar]
    · next hhigh => exact .plain (Nat.le_of_not_lt hhigh) hquote hback h

/-- A text is written as a string. -/
theorem isString_stringChars (s : String) : IsString (stringChars s) := by
  refine ⟨s.toList.flatMap stringChar, ?_, rfl⟩
  induction s.toList with
  | nil => exact .nil
  | cons c cs ih => exact isStringBody_stringChar c ih

theorem itemChars_eq (items : List Json) :
    itemChars items = List.intercalate [','] (items.map chars) := by
  induction items with
  | nil => rfl
  | cons first rest ih =>
    cases rest with
    | nil => simp [itemChars]
    | cons next rest => simp [itemChars, ih, List.intercalate_cons_cons]

theorem memberChars_eq (members : List (String × Json)) :
    memberChars members =
      List.intercalate [','] (members.map fun m => stringChars m.1 ++ ':' :: m.2.chars) := by
  induction members with
  | nil => rfl
  | cons first rest ih =>
    obtain ⟨name, item⟩ := first
    cases rest with
    | nil => simp [memberChars]
    | cons next rest => simp [memberChars, ih, List.intercalate_cons_cons]

mutual

/-- A document is written as a value. -/
theorem isValue_chars : (j : Json) → IsValue j.chars
  | .null => .null
  | .bool true => .true
  | .bool false => .false
  | .integer n => .number (isNumber_intText n.value)
  | .double x => .number x.isNumber_jsonChars
  | .string s => .string (isString_stringChars s)
  | .array items => by
    rw [chars, itemChars_eq]
    refine .array _ fun cs hcs => ?_
    obtain ⟨item, hitem, rfl⟩ := List.mem_map.1 hcs
    exact isValue_of_mem_items items item hitem
  | .object members => by
    -- the members are written as their names and their values, and both are what the grammar asks
    -- for
    have hmembers := isValue_of_mem_members members
    have hobject := IsValue.object (members.map fun m => (stringChars m.1, m.2.chars))
      (fun m hm => ?_) (fun m hm => ?_)
    · rw [List.map_map] at hobject
      rw [chars, memberChars_eq]
      exact hobject
    · obtain ⟨member, -, rfl⟩ := List.mem_map.1 hm
      exact isString_stringChars member.1
    · obtain ⟨member, hmember, rfl⟩ := List.mem_map.1 hm
      exact hmembers member hmember

/-- So are all items of a list. -/
theorem isValue_of_mem_items : (items : List Json) → ∀ item ∈ items, IsValue item.chars
  | [], _, h => nomatch h
  | first :: rest, item, h => by
    rcases List.mem_cons.1 h with heq | hrest
    · rw [heq]
      exact isValue_chars first
    · exact isValue_of_mem_items rest item hrest

/-- And all members of an object. -/
theorem isValue_of_mem_members :
    (members : List (String × Json)) → ∀ m ∈ members, IsValue m.2.chars
  | [], _, h => nomatch h
  | (name, first) :: rest, m, h => by
    rcases List.mem_cons.1 h with heq | hrest
    · rw [heq]
      exact isValue_chars first
    · exact isValue_of_mem_members rest m hrest

end

/-- An object is written as an object. -/
theorem isObject_chars (members : List (String × Json)) : IsObject (object members).chars :=
  ⟨isValue_chars (.object members), by rw [chars]; rfl⟩

end CommandBus.Json
