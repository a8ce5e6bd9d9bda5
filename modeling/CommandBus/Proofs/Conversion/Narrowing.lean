import CommandBus.Proofs.Conversion.Disabled
import CommandBus.Proofs.Number.Integers

/-!
# Narrowing is exact or refused

A number or a text is narrowed to an integer type exactly if the number that it stands for is an
integer of the type, and the result is this integer.  All else is refused: fractions, numbers out
of the range, infinities, and texts that denote no integer.

## Key results

- `integral_eq_ok_iff`: what all integer types share is the long integer that a value stands for
- `Service.narrows_of_builtin`: every integer type takes what it can hold, unchanged, and refuses
  the rest
-/

namespace CommandBus

open Number Text

/-- The value stands for an integer: a number by its exact value, a text by what is left of it
    without the blanks at its ends. -/
def Value.Means : Value → ℤ → Prop
  | .short k, n => k.toInt = n
  | .int k, n => k.toInt = n
  | .long k, n => k.toInt = n
  | .decimal d, n => d.value = n
  | .double x, n => x.isFinite = true ∧ x.value = n
  | .string s, n => Denotes (trim s.toList) n
  | _, _ => False

/-- A value stands for one integer at most. -/
theorem Value.Means.unique {v : Value} {n m : ℤ} (hn : v.Means n) (hm : v.Means m) : n = m := by
  cases v with
  | short k | int k | long k => exact hn.symm.trans hm
  | decimal d => exact_mod_cast hn.symm.trans hm
  | double x => exact_mod_cast hn.2.symm.trans hm.2
  | string s => exact Denotes.unique hn hm
  | _ => exact hn.elim

namespace Conversion

/-! ## The integer types -/

/-- The types that hold the integers of a fixed number of bits. -/
inductive IntegerType where
  | short
  | int
  | long

namespace IntegerType

def kind : IntegerType → Kind
  | short => .short
  | int => .int
  | long => .long

def type : IntegerType → ValueType
  | short => .short
  | int => .int
  | long => .long

/-- The number of bits, that of the sign included. -/
def bits : IntegerType → Nat
  | short => 16
  | int => 32
  | long => 64

/-- An integer of the type. -/
def Holds (i : IntegerType) (n : ℤ) : Prop := -2 ^ (i.bits - 1) ≤ n ∧ n < 2 ^ (i.bits - 1)

/-- The range that the conversions test. -/
def range : IntegerType → IntegerRange
  | short => .short
  | int => .int
  | long => .long

/-- The value of the type that an integer is put into. -/
def wrap : IntegerType → ℤ → Value
  | short, n => .short (Int16.ofInt n)
  | int, n => .int (Int32.ofInt n)
  | long, n => .long (Int64.ofInt n)

theorem scalarKind?_type (i : IntegerType) : i.type.scalarKind? = some i.kind := by
  cases i <;> rfl

theorem range_holds_iff {i : IntegerType} {n : ℤ} : i.range.holds n = true ↔ i.Holds n := by
  rw [IntegerRange.holds_iff]
  cases i <;>
    simp only [range, Holds, bits, IntegerRange.short, IntegerRange.int, IntegerRange.long] <;>
    omega

/-- No integer type holds more than the long integers. -/
theorem Holds.long {i : IntegerType} {n : ℤ} (h : i.Holds n) : IntegerType.long.Holds n := by
  cases i <;> simp only [Holds, bits] at h ⊢ <;> omega

/-- A held integer is put into a value that stands for it. -/
theorem wrap_means {i : IntegerType} {n : ℤ} (h : i.Holds n) : (i.wrap n).Means n := by
  cases i with
  | short => exact Int16.toInt_ofInt_of_le h.1 h.2
  | int => exact Int32.toInt_ofInt_of_le h.1 h.2
  | long => exact Int64.toInt_ofInt_of_le h.1 h.2

theorem kind_wrap (i : IntegerType) (n : ℤ) : (i.wrap n).kind = i.kind := by
  cases i <;> rfl

/-- A value of an integer type is a held integer, put into it. -/
theorem eq_wrap_of_kind {i : IntegerType} {v : Value} (hv : v.kind = i.kind) :
    ∃ n, i.Holds n ∧ integral v = .ok n ∧ v = i.wrap n := by
  cases i with
  | short =>
    cases v with
    | short k => exact ⟨k.toInt, ⟨k.le_toInt, k.toInt_lt⟩, rfl, by rw [wrap, Int16.ofInt_toInt]⟩
    | _ => exact nomatch hv
  | int =>
    cases v with
    | int k => exact ⟨k.toInt, ⟨k.le_toInt, k.toInt_lt⟩, rfl, by rw [wrap, Int32.ofInt_toInt]⟩
    | _ => exact nomatch hv
  | long =>
    cases v with
    | long k => exact ⟨k.toInt, ⟨k.le_toInt, k.toInt_lt⟩, rfl, by rw [wrap, Int64.ofInt_toInt]⟩
    | _ => exact nomatch hv

/-- The converter that brings values to the type. -/
def converter (i : IntegerType) : Converter := narrow i.range i.type i.wrap

/-- The built-in table has the converter for every other kind of number and for texts. -/
theorem builtin_kind {i : IntegerType} {source : Kind}
    (hsource : Table.isNumberSource source = true) (hne : source ≠ i.kind) :
    Table.builtin source i.kind = some i.converter := by
  cases i <;> cases source <;> first | rfl | exact absurd rfl hne | exact nomatch hsource

end IntegerType

/-! ## The integer of a value -/

theorem holds_long_iff {n : ℤ} :
    IntegerType.long.Holds n ↔ ¬(n < -longLimit ∨ longLimit ≤ n) := by
  simp only [IntegerType.Holds, IntegerType.bits, longLimit]
  omega

/-- An integer is taken if it is a long integer. -/
private theorem bounded_eq_ok_iff {k n : ℤ} {reason : String} :
    (if k < -longLimit ∨ longLimit ≤ k then (.error reason : Except String ℤ) else .ok k) = .ok n ↔
      k = n ∧ IntegerType.long.Holds n := by
  split
  · next hout =>
    refine iff_of_false (fun h => nomatch h) ?_
    rintro ⟨rfl, hk⟩
    exact holds_long_iff.1 hk hout
  · next hin =>
    rw [Except.ok.injEq]
    refine ⟨?_, And.left⟩
    rintro rfl
    exact ⟨rfl, holds_long_iff.2 hin⟩

theorem integralDecimal_eq_ok_iff {d : Decimal} {n : ℤ} :
    integralDecimal d = .ok n ↔ d.value = n ∧ IntegerType.long.Holds n := by
  rw [← Decimal.toInt?_eq_some_iff, integralDecimal]
  cases d.toInt? with
  | none => simp
  | some k => exact bounded_eq_ok_iff.trans (by rw [Option.some.injEq])

theorem integralDouble_eq_ok_iff {x : Binary64} {n : ℤ} :
    integralDouble x = .ok n ↔ (x.isFinite = true ∧ x.value = n) ∧ IntegerType.long.Holds n := by
  rw [← Binary64.toInt?_eq_some_iff, integralDouble]
  cases x.toInt? with
  | none => simp
  | some k => exact bounded_eq_ok_iff.trans (by rw [Option.some.injEq])

theorem integralText_eq_ok_iff {s : String} {n : ℤ} :
    integralText s = .ok n ↔ Denotes (trim s.toList) n ∧ IntegerType.long.Holds n := by
  have hread : readInteger .long (trim s.toList) = .ok n ↔
      Denotes (trim s.toList) n ∧ IntegerRange.long.holds n = true :=
    readInteger_eq_ok_iff (by decide) (by decide)
  rw [← IntegerType.range_holds_iff, IntegerType.range, ← hread, integralText]
  cases readInteger .long (trim s.toList) with
  | error e => simp
  | ok k => simp

/-- The integer of a value of an integer type is the one that it holds. -/
private theorem integral_eq_ok_iff_of_kind {i : IntegerType} {v : Value} (hv : v.kind = i.kind)
    {n : ℤ} : integral v = .ok n ↔ v.Means n ∧ IntegerType.long.Holds n := by
  obtain ⟨k, hk, hintegral, rfl⟩ := IntegerType.eq_wrap_of_kind hv
  have hmeans := IntegerType.wrap_means hk
  rw [hintegral, Except.ok.injEq]
  constructor
  · rintro rfl
    exact ⟨hmeans, hk.long⟩
  · rintro ⟨hn, -⟩
    exact hmeans.unique hn

/-- What all integer types share is the long integer that a value stands for. -/
theorem integral_eq_ok_iff {v : Value} (hv : Table.isNumberSource v.kind = true) {n : ℤ} :
    integral v = .ok n ↔ v.Means n ∧ IntegerType.long.Holds n := by
  cases v with
  | short k => exact integral_eq_ok_iff_of_kind (i := .short) rfl
  | int k => exact integral_eq_ok_iff_of_kind (i := .int) rfl
  | long k => exact integral_eq_ok_iff_of_kind (i := .long) rfl
  | decimal d => exact integralDecimal_eq_ok_iff
  | double x => exact integralDouble_eq_ok_iff
  | string s => exact integralText_eq_ok_iff
  | _ => exact nomatch hv

/-! ## Narrowing -/

theorem narrow_eq_ok_iff {range : IntegerRange} {t : ValueType} {wrap : ℤ → Value} {v r : Value} :
    narrow range t wrap v = .ok r ↔
      ∃ n, integral v = .ok n ∧ range.holds n = true ∧ wrap n = r := by
  unfold narrow
  cases integral v with
  | error reason => simp
  | ok n =>
    dsimp only
    split
    · next hin => simp [hin]
    · next hout => simp [hout]

/-- A converter gives the integer of a value in the type, if the type holds it. -/
theorem IntegerType.converter_eq_ok_iff {i : IntegerType} {v : Value}
    (hv : Table.isNumberSource v.kind = true) {r : Value} :
    i.converter v = .ok r ↔ ∃ n, v.Means n ∧ i.Holds n ∧ i.wrap n = r := by
  rw [converter, narrow_eq_ok_iff]
  refine exists_congr fun n => ?_
  rw [integral_eq_ok_iff hv, range_holds_iff]
  constructor
  · rintro ⟨⟨hn, -⟩, hin, hr⟩
    exact ⟨hn, hin, hr⟩
  · rintro ⟨hn, hin, hr⟩
    exact ⟨⟨hn, hin.long⟩, hin, hr⟩

namespace Service

/-- Where the built-in converter of an integer type stands, it is what a conversion comes to, and
    that is so for the values of the type too, which have no converter. -/
theorem convert_eq_converter {s : Service} {v : Value} {i : IntegerType}
    (hs : s.table v.kind i.kind = Table.builtin v.kind i.kind)
    (hv : Table.isNumberSource v.kind = true) : s.convert v i.type = i.converter v := by
  by_cases hkind : v.kind = i.kind
  · have hready : v.satisfies i.type = true := by
      rw [Value.satisfies_scalar i.scalarKind?_type, hkind, beq_self_eq_true]
    obtain ⟨n, hn, -, rfl⟩ := IntegerType.eq_wrap_of_kind hkind
    -- a value of the target kind is handed back, as its own converter does
    rw [s.convert_of_ready (.inr hready)]
    exact ((IntegerType.converter_eq_ok_iff hv).2 ⟨n, IntegerType.wrap_means hn, hn, rfl⟩).symm
  · have hnull : v.isNull = false := by
      cases v with
      | null => exact nomatch hv
      | _ => rfl
    exact convert_of_converter i.scalarKind?_type hnull hkind
      (hs.trans (IntegerType.builtin_kind hv hkind))

/-- What a service makes of a value that is brought to an integer type: the integer that the value
    stands for if the type holds it, and otherwise an error that says so. -/
structure Narrows (s : Service) (v : Value) (i : IntegerType) : Prop where
  converts : (∃ r, s.convert v i.type = .ok r) ↔ ∃ n, v.Means n ∧ i.Holds n
  keeps : ∀ r, s.convert v i.type = .ok r → r.kind = i.kind ∧ ∃ n, v.Means n ∧ r.Means n
  refuses : (¬∃ n, v.Means n ∧ i.Holds n) →
    ∃ reason, s.convert v i.type = .error (.invalid v.kind i.type reason)

/-- Where a service has the built-in converters, numbers and texts are narrowed exactly or
    refused. -/
theorem narrows_of_builtin {s : Service} {v : Value} {i : IntegerType}
    (hs : s.table v.kind i.kind = Table.builtin v.kind i.kind)
    (hv : Table.isNumberSource v.kind = true) : s.Narrows v i := by
  have hiff : ∀ r, s.convert v i.type = .ok r ↔ ∃ n, v.Means n ∧ i.Holds n ∧ i.wrap n = r := by
    intro r
    rw [convert_eq_converter hs hv, IntegerType.converter_eq_ok_iff hv]
  refine ⟨⟨?_, ?_⟩, fun r hr => ?_, fun hnone => ?_⟩
  · rintro ⟨r, hr⟩
    obtain ⟨n, hn, hin, -⟩ := (hiff r).1 hr
    exact ⟨n, hn, hin⟩
  · rintro ⟨n, hn, hin⟩
    exact ⟨i.wrap n, (hiff _).2 ⟨n, hn, hin, rfl⟩⟩
  · obtain ⟨n, hn, hin, rfl⟩ := (hiff r).1 hr
    exact ⟨i.kind_wrap n, n, hn, IntegerType.wrap_means hin⟩
  -- a value that means no integer of the range is not converted to one
  · cases hconvert : s.convert v i.type with
    | ok r =>
      obtain ⟨n, hn, hin, -⟩ := (hiff r).1 hconvert
      exact absurd ⟨n, hn, hin⟩ hnone
    | error e =>
      obtain ⟨reason, rfl⟩ := error_of_narrow ((convert_eq_converter hs hv).symm.trans hconvert)
      exact ⟨reason, rfl⟩

/-- The doubles at the bounds of the long integers: the lower bound is a long integer, the upper
    one is the first number beyond them. -/
theorem narrows_double_at_bounds :
    (∃ r, standard.convert (.double ⟨0xC3E0000000000000⟩) .long = .ok r ∧ r.Means (-2 ^ 63)) ∧
      ∃ reason, standard.convert (.double ⟨0x43E0000000000000⟩) .long =
        .error (.invalid .double .long reason) := by
  have hlow : (Value.double ⟨0xC3E0000000000000⟩).Means (-2 ^ 63) :=
    Binary64.toInt?_eq_some_iff.1 (by decide)
  have hhigh : (Value.double ⟨0x43E0000000000000⟩).Means (2 ^ 63) :=
    Binary64.toInt?_eq_some_iff.1 (by decide)
  have hnarrows : ∀ x : Binary64, standard.Narrows (.double x) .long :=
    fun x => narrows_of_builtin rfl rfl
  constructor
  · obtain ⟨r, hr⟩ := (hnarrows _).converts.2 ⟨_, hlow, le_refl _, by decide⟩
    obtain ⟨-, n, hn, hmeans⟩ := (hnarrows _).keeps r hr
    exact ⟨r, hr, hn.unique hlow ▸ hmeans⟩
  · refine (hnarrows _).refuses ?_
    rintro ⟨n, hn, hin⟩
    rw [hn.unique hhigh] at hin
    exact absurd hin.2 (lt_irrefl _)

end Service

end Conversion

end CommandBus
