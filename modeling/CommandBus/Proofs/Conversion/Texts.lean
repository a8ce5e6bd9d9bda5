import CommandBus.Proofs.Conversion.Narrowing
import CommandBus.Proofs.Number.Texts
import CommandBus.Proofs.Text.Cutting
import CommandBus.Proofs.Uuid.Reading

/-!
# Texts and back

Truth values, integers, decimals and identifiers are written as texts that the built-in service
reads back, with any blanks around them.  What is read back is the same value, a decimal with the
same digits and the same scale; only a zero with a sign comes back without it.  So no two values of
a kind have the same text.

## Key results

- `Legible`: the text that a value is written as, and read back from
- `exists_legible`: each value of these kinds has one, unless it is a zero with a sign
- `eq_of_toText_eq`: no other value of the kind has the same text
- `Service.comes_back_from_text`: all of this as the service does it
-/

namespace CommandBus

open Number Text

/-- The kinds whose values are read back from their texts. -/
def Kind.legible : List Kind := [.bool, .short, .int, .long, .decimal, .uuid]

/-- A zero that is negative, which only a decimal can be. -/
def Value.IsNegativeZero : Value → Prop
  | .decimal d => d.negative = true ∧ d.coefficient = 0
  | _ => False

namespace Conversion

namespace Service

/-- What is wanted as a text is written. -/
theorem convert_eq_toText {v : Value} (hv : Table.isTextSource v.kind = true) :
    standard.convert v .string = toText v := by
  -- every source of texts but the text itself is in the table
  have hbuiltin : Table.builtin v.kind .string = some toText := by
    cases v <;> first
      | rfl
      | exact nomatch hv
  have hnull : v.isNull = false := by
    cases v <;> first
      | rfl
      | exact nomatch hv
  have hne : v.kind ≠ .string := by
    rintro heq
    rw [heq] at hv
    exact nomatch hv
  exact convert_of_converter rfl hnull hne hbuiltin

/-- A text is read by the converter of the wanted kind. -/
theorem convert_string {t : ValueType} {k : Kind} (ht : t.scalarKind? = some k)
    (hne : Kind.string ≠ k) {c : Converter} (hc : Table.builtin .string k = some c) (s : String) :
    standard.convert (.string s) t = c (.string s) := by
  have hkind : (Value.string s).kind = .string := rfl
  exact convert_of_converter ht rfl (hkind ▸ hne) hc

end Service

open Service

/-! ## The kinds in turn -/

/-- The text that a value is written as, and that it is read back from when blanks around it are
    trimmed. -/
structure Legible (v : Value) (text : String) : Prop where
  written : toText v = .ok (.string text)
  isBlank_of_mem : ∀ c ∈ text.toList, isBlank c = false
  read : ∀ s : String, trim s.toList = text.toList →
    standard.convert (.string s) (.ofKind v.kind) = .ok v

theorem legible_bool (b : Bool) : Legible (.bool b) (boolText b) := by
  refine ⟨rfl, ?_, fun s hs => ?_⟩
  · have hletters : (boolText b).toList.any isBlank = false := by cases b <;> rfl
    simpa using hletters
  · have hconvert : standard.convert (.string s) .bool = toBool (.string s) :=
      convert_string rfl (by decide) rfl s
    have hread : boolOfText? s = some b := by
      rw [boolOfText?, hs]
      cases b <;> decide
    refine hconvert.trans ?_
    simp only [toBool, Value.string?, Option.bind_some, hread]

theorem legible_integer {i : IntegerType} {n : ℤ} (hn : i.Holds n) :
    Legible (i.wrap n) (intText n) := by
  have hmeans := IntegerType.wrap_means hn
  refine ⟨?_, fun c hc => isBlank_of_mem_intText hc, fun s hs => ?_⟩
  -- the three kinds of integers are written the same way
  · have hwritten : ∀ {k : ℤ}, k = n →
        (.ok (.string (intText k)) : Except ConversionError Value) = .ok (.string (intText n)) :=
      fun hk => by rw [hk]
    cases i with
    | short | int | long => exact hwritten hmeans
  -- read back, the trimmed text denotes the integer
  · have hdenotes : (Value.string s).Means n := by
      show Denotes (trim s.toList) n
      rw [hs]
      exact denotes_intText n
    have htype : ValueType.ofKind (i.wrap n).kind = i.type := by cases i <;> rfl
    rw [htype, convert_eq_converter rfl rfl, IntegerType.converter_eq_ok_iff rfl]
    exact ⟨n, hdenotes, hn, rfl⟩

/-- A decimal is read back, but a zero without a sign. -/
theorem convert_decimal_text {d : Decimal} {s : String} (hs : trim s.toList = d.text.toList) :
    standard.convert (.string s) .decimal = .ok (.decimal d.withoutZeroSign) := by
  have hconvert : standard.convert (.string s) .decimal = toDecimal (.string s) :=
    convert_string rfl (by decide) rfl s
  rw [Decimal.text, String.toList_ofList] at hs
  refine hconvert.trans ?_
  simp only [toDecimal, hs, d.read_chars]

theorem legible_decimal {d : Decimal} (hd : ¬(Value.decimal d).IsNegativeZero) :
    Legible (.decimal d) d.text := by
  refine ⟨rfl, fun c hc => ?_, fun s hs => ?_⟩
  · rw [Decimal.text, String.toList_ofList] at hc
    exact Decimal.isBlank_of_mem_chars hc
  · have hself : d.withoutZeroSign = d :=
      Decimal.withoutZeroSign_eq_self fun hnegative hzero => hd ⟨hnegative, hzero⟩
    exact (convert_decimal_text hs).trans (by rw [hself])

theorem legible_uuid (u : Uuid) : Legible (.uuid u) u.text := by
  have hchars : u.text.toList = u.chars := String.toList_ofList
  refine ⟨rfl, fun c hc => Uuid.isBlank_of_mem_chars (hchars ▸ hc), fun s hs => ?_⟩
  have hconvert : standard.convert (.string s) .uuid = toUuid (.string s) :=
    convert_string rfl (by decide) rfl s
  refine hconvert.trans ?_
  simp only [toUuid, hs, hchars, u.read_chars]

/-! ## All of them -/

/-- A value of these kinds is written and read back, unless it is a zero with a sign. -/
theorem exists_legible {v : Value} (hkind : v.kind ∈ Kind.legible) (hzero : ¬v.IsNegativeZero) :
    ∃ text, Legible v text := by
  have hinteger : ∀ {i : IntegerType}, v.kind = i.kind → ∃ text, Legible v text := by
    intro i hi
    obtain ⟨n, hn, -, rfl⟩ := IntegerType.eq_wrap_of_kind hi
    exact ⟨_, legible_integer hn⟩
  cases v with
  | bool b => exact ⟨_, legible_bool b⟩
  | short k => exact hinteger (i := .short) rfl
  | int k => exact hinteger (i := .int) rfl
  | long k => exact hinteger (i := .long) rfl
  | decimal d => exact ⟨_, legible_decimal hzero⟩
  | uuid u => exact ⟨_, legible_uuid u⟩
  | _ => simp [Kind.legible, Value.kind] at hkind

/-- Two values of one kind that are read back from the same text are the same. -/
theorem Legible.unique {v w : Value} {text : String} (hv : Legible v text) (hw : Legible w text)
    (hsame : w.kind = v.kind) : w = v := by
  have htrim : trim text.toList = text.toList := trim_eq_self (tight_of_forall hv.isBlank_of_mem)
  have hread := hw.read text htrim
  rw [hsame, hv.read text htrim] at hread
  exact (Except.ok.inj hread).symm

/-- No two values of such a kind have the same text, the zeros with a sign included. -/
theorem eq_of_toText_eq {v w : Value} (hkind : v.kind ∈ Kind.legible) (hsame : w.kind = v.kind)
    (htext : toText w = toText v) : w = v := by
  by_cases hdecimal : v.kind = .decimal
  · -- decimals have different characters even where the same one is read back
    cases v with
    | decimal d =>
      cases w with
      | decimal e =>
        have hchars : String.ofList e.chars = String.ofList d.chars := by
          simpa [toText, Decimal.text] using htext
        rw [Decimal.chars_injective (String.ofList_injective hchars)]
      | _ => exact nomatch hsame
    | _ => exact nomatch hdecimal
  · have hnozero : ∀ {u : Value}, u.kind = v.kind → ¬u.IsNegativeZero := by
      intro u hu hzero
      cases u with
      | decimal d => exact hdecimal hu.symm
      | _ => exact hzero
    -- any other kind is read back from its text, so that one text has one value
    obtain ⟨text, hv⟩ := exists_legible hkind (hnozero rfl)
    obtain ⟨other, hw⟩ := exists_legible (hsame ▸ hkind) (hnozero hsame)
    have heq : other = text := by
      have hwritten := hw.written.symm.trans (htext.trans hv.written)
      simpa using hwritten
    exact hv.unique (heq ▸ hw) hsame

namespace Service

/-- A value of these kinds is written as a text that the service reads back as the same value,
    with any blanks around it or none, and that no other value of its kind is written as. -/
theorem comes_back_from_text {v : Value} (hkind : v.kind ∈ Kind.legible)
    (hzero : ¬v.IsNegativeZero) :
    ∃ text, standard.convert v .string = .ok (.string text) ∧
      (∀ before after : String, (∀ c ∈ before.toList, isBlank c = true) →
        (∀ c ∈ after.toList, isBlank c = true) →
          standard.convert (.string (before ++ text ++ after)) (.ofKind v.kind) = .ok v) ∧
      ∀ w, w.kind = v.kind → standard.convert w .string = .ok (.string text) → w = v := by
  have hsource : ∀ k ∈ Kind.legible, Table.isTextSource k = true := by decide
  obtain ⟨text, hlegible⟩ := exists_legible hkind hzero
  have htight : Tight text.toList := tight_of_forall hlegible.isBlank_of_mem
  refine ⟨text, (convert_eq_toText (hsource _ hkind)).trans hlegible.written, ?_, ?_⟩
  · intro before after hbefore hafter
    -- blanks around a text that neither starts nor ends with one are trimmed
    apply hlegible.read
    rw [String.toList_append, String.toList_append, trim_append hbefore htight hafter]
  · intro w hsame hwritten
    rw [convert_eq_toText (hsource _ (hsame ▸ hkind)), ← hlegible.written] at hwritten
    exact eq_of_toText_eq hkind hsame hwritten

/-- A negative decimal of 29 digits keeps all of them, between an ideographic space and the end of
    a line. -/
theorem comes_back_from_text_most_digits :
    let v : Value := .decimal ⟨true, 79228162514264337593543950335, 28, by decide, by decide⟩
    v.kind ∈ Kind.legible ∧ ¬v.IsNegativeZero ∧
      ∃ text, standard.convert v .string = .ok (.string text) ∧
        standard.convert (.string ("\u3000" ++ text ++ "\n")) .decimal = .ok v := by
  intro v
  have hkind : v.kind ∈ Kind.legible := by decide
  have hzero : ¬v.IsNegativeZero := fun h => absurd h.2 (by decide)
  obtain ⟨text, hwritten, hread, -⟩ := comes_back_from_text hkind hzero
  have hbefore : ∀ c ∈ "\u3000".toList, isBlank c = true := List.all_eq_true.mp rfl
  have hafter : ∀ c ∈ "\n".toList, isBlank c = true := List.all_eq_true.mp rfl
  exact ⟨hkind, hzero, text, hwritten, hread _ _ hbefore hafter⟩

end Service

end Conversion

end CommandBus
