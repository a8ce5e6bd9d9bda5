import CommandBus.Proofs.Conversion.Narrowing
import CommandBus.Proofs.Number.Exact

/-!
# Widening and back

An integer is brought to every wider kind of number.  It comes back from a wider integer type and
from a decimal, and from a double if the double holds it: always when it has 32 bits or fewer, and
for a long integer exactly if it has at most 53 significant binary digits.  Other long integers are
rounded on the way, so that another integer comes back, or none.

## Key results

- `widen`: what an integer becomes in a wider kind, and when that is still the same number
- `returns_iff`: a number comes back as the integer that it stands for
- `Service.widening_returns_iff`: the integers that come back, for every integer type and every
  wider kind
-/

namespace CommandBus

open Number

/-- One kind of number stands before the other one in the list that has the narrowest first. -/
def Kind.Widens (narrow wide : Kind) : Prop := [narrow, wide].Sublist Kind.numeric

instance (narrow wide : Kind) : Decidable (narrow.Widens wide) :=
  inferInstanceAs (Decidable ([narrow, wide].Sublist Kind.numeric))

namespace Conversion

/-! ## Wider integers, doubles and decimals -/

/-- A decimal holds every long integer. -/
theorem value_ofInt64 (n : Int64) : (Decimal.ofInt64 n).value = n.toInt := by
  rw [Decimal.value, Decimal.ofInt64, signed_natAbs, pow_zero, div_one]

/-- A value of an integer type that stands for an integer is this integer, put into it. -/
theorem IntegerType.eq_wrap_of_means {i : IntegerType} {v : Value} (hv : v.kind = i.kind) {n : ℤ}
    (hn : v.Means n) : i.Holds n ∧ v = i.wrap n := by
  obtain ⟨m, hm, -, rfl⟩ := IntegerType.eq_wrap_of_kind hv
  obtain rfl : m = n := (IntegerType.wrap_means hm).unique hn
  exact ⟨hm, rfl⟩

/-- An integer type holds the integers of all narrower ones. -/
theorem IntegerType.Holds.widen {i j : IntegerType} {n : ℤ} (h : i.Holds n)
    (hwider : i.kind.Widens j.kind) : j.Holds n := by
  cases i <;> cases j <;> first
    | exact absurd hwider (by decide)
    | (simp only [Holds, bits] at h ⊢; omega)

/-- The integers of at most 32 bits are precise. -/
theorem IntegerType.Holds.precise {i : IntegerType} {n : ℤ} (h : i.Holds n) (hi : i ≠ .long) :
    Precise n := by
  apply precise_of_lt
  cases i with
  | short => simp only [Holds, bits] at h; omega
  | int => simp only [Holds, bits] at h; omega
  | long => exact absurd rfl hi

/-- The double of an integer is the one nearest to it. -/
theorem toDouble_of_integral {i : IntegerType} {v : Value} (hv : v.kind = i.kind) {n : ℤ}
    (hn : v.Means n) : toDouble v = .ok (.double (Binary64.ofInt n)) := by
  cases v with
  | short k | int k | long k =>
    obtain rfl : k.toInt = n := hn
    rfl
  | _ => cases i <;> exact nomatch hv

/-- The decimal of an integer stands for it. -/
theorem toDecimal_of_integral {i : IntegerType} {v : Value} (hv : v.kind = i.kind) {n : ℤ}
    (hn : v.Means n) : ∃ d, toDecimal v = .ok (.decimal d) ∧ d.value = n := by
  cases v with
  | short k =>
    obtain rfl : k.toInt = n := hn
    exact ⟨_, rfl, by rw [value_ofInt64, Int16.toInt_toInt64]⟩
  | int k =>
    obtain rfl : k.toInt = n := hn
    exact ⟨_, rfl, by rw [value_ofInt64, Int32.toInt_toInt64]⟩
  | long k =>
    obtain rfl : k.toInt = n := hn
    exact ⟨_, rfl, value_ofInt64 k⟩
  | _ => cases i <;> exact nomatch hv

namespace Service

/-! ## There and back -/

section Widen

variable {i : IntegerType} {v : Value} {n : ℤ} (hv : v.kind = i.kind) (hn : v.Means n)

include hv

/-- An integer that is wanted in another kind goes through the converter of the pair. -/
theorem convert_of_integer {t : ValueType} {k : Kind} (ht : t.scalarKind? = some k)
    (hne : i.kind ≠ k) {c : Converter} (hc : Table.builtin i.kind k = some c) :
    standard.convert v t = c v := by
  have hnull : v.isNull = false := by
    cases v with
    | null => cases i <;> exact nomatch hv
    | _ => rfl
  exact convert_of_converter ht hnull (hv ▸ hne) (hv ▸ hc)

include hn

/-- A wider integer type takes the integer over. -/
theorem widen_integer {j : IntegerType} (hwide : i.kind.Widens j.kind) :
    standard.convert v j.type = .ok (j.wrap n) ∧ (j.wrap n).Means n := by
  obtain ⟨hholds, rfl⟩ := IntegerType.eq_wrap_of_means hv hn
  have hsource : Table.isNumberSource (i.wrap n).kind = true := by cases i <;> rfl
  have hwider := hholds.widen hwide
  refine ⟨?_, IntegerType.wrap_means hwider⟩
  rw [convert_eq_converter rfl hsource, IntegerType.converter_eq_ok_iff hsource]
  exact ⟨n, hn, hwider, rfl⟩

/-- A double takes over the integers that are precise, and rounds the others. -/
theorem widen_double : ∃ x, standard.convert v .double = .ok (.double x) ∧
    ((Value.double x).Means n ↔ Precise n) := by
  have hlt : n.natAbs < 2 ^ 64 := by
    have hlong := (IntegerType.eq_wrap_of_means hv hn).1.long
    simp only [IntegerType.Holds, IntegerType.bits] at hlong
    omega
  have hconvert : standard.convert v .double = toDouble v := by
    cases i <;> exact convert_of_integer hv rfl (by decide) rfl
  refine ⟨Binary64.ofInt n, hconvert.trans (toDouble_of_integral hv hn), ?_, ?_⟩
  · exact fun hmeans => Binary64.precise_of_value hmeans.2
  · exact Binary64.value_ofInt hlt

/-- A decimal takes over every integer. -/
theorem widen_decimal :
    ∃ d, standard.convert v .decimal = .ok (.decimal d) ∧ (Value.decimal d).Means n := by
  have hconvert : standard.convert v .decimal = toDecimal v := by
    cases i <;> exact convert_of_integer hv rfl (by decide) rfl
  obtain ⟨d, hd, hvalue⟩ := toDecimal_of_integral hv hn
  exact ⟨d, hconvert.trans hd, hvalue⟩

/-- An integer becomes a number of the wider kind, and is still this number unless a double does
    not hold it. -/
theorem widen {wide : Kind} (hwide : i.kind.Widens wide) :
    ∃ r, standard.convert v (.ofKind wide) = .ok r ∧ r.kind = wide ∧
      (r.Means n ↔ (wide = .double → Precise n)) := by
  cases wide with
  | int =>
    obtain ⟨hconvert, hmeans⟩ := widen_integer hv hn (j := .int) hwide
    exact ⟨_, hconvert, rfl, by simp [hmeans]⟩
  | long =>
    obtain ⟨hconvert, hmeans⟩ := widen_integer hv hn (j := .long) hwide
    exact ⟨_, hconvert, rfl, by simp [hmeans]⟩
  | double =>
    obtain ⟨x, hconvert, hmeans⟩ := widen_double hv hn
    exact ⟨_, hconvert, rfl, by simp [hmeans]⟩
  | decimal =>
    obtain ⟨d, hconvert, hmeans⟩ := widen_decimal hv hn
    exact ⟨_, hconvert, rfl, by simp [hmeans]⟩
  | _ =>
    -- nothing is narrower than a short integer, and no other kind is one of numbers
    cases i <;> exact absurd hwide (by decide)

end Widen

/-- A number comes back as the integer that it stands for, if it does. -/
theorem returns_iff {i : IntegerType} {v r : Value} {n : ℤ} (hv : v.kind = i.kind)
    (hn : v.Means n) (hr : Table.isNumberSource r.kind = true) :
    standard.convert r i.type = .ok v ↔ r.Means n := by
  obtain ⟨hholds, rfl⟩ := IntegerType.eq_wrap_of_means hv hn
  rw [convert_eq_converter rfl hr, IntegerType.converter_eq_ok_iff hr]
  constructor
  · intro ⟨k, hk, hin, hwrap⟩
    have hsame : k = n := (hwrap ▸ IntegerType.wrap_means hin).unique hn
    exact hsame ▸ hk
  · intro hmeans
    exact ⟨n, hmeans, hholds, rfl⟩

/-- An integer is brought to every wider kind of number, and comes back from there exactly if
    this kind is not that of doubles or the integer has at most 53 significant binary digits.
    Integers of 32 bits or fewer always come back. -/
theorem widening_returns_iff {i : IntegerType} {v : Value} (hv : v.kind = i.kind) {wide : Kind}
    (hwide : i.kind.Widens wide) :
    ∃ r, standard.convert v (.ofKind wide) = .ok r ∧ r.kind = wide ∧
      (standard.convert r i.type = .ok v ↔ (wide = .double → ∃ n, v.Means n ∧ Precise n)) ∧
      (i ≠ .long ∨ wide ≠ .double → standard.convert r i.type = .ok v) := by
  -- both conversions are told by the integer that the value means
  obtain ⟨n, hholds, -, hwrap⟩ := IntegerType.eq_wrap_of_kind hv
  have hn : v.Means n := hwrap ▸ IntegerType.wrap_means hholds
  obtain ⟨r, hconvert, hkind, hmeans⟩ := widen hv hn hwide
  have hsource : Table.isNumberSource r.kind = true := by
    rw [hkind]
    cases wide <;> first
      | rfl
      | (cases i <;> exact absurd hwide (by decide))
  have hback := (returns_iff hv hn hsource).trans hmeans
  refine ⟨r, hconvert, hkind, ?_, ?_⟩
  · rw [hback]
    constructor
    · exact fun h hdouble => ⟨n, hn, h hdouble⟩
    · intro h hdouble
      obtain ⟨m, hm, hprecise⟩ := h hdouble
      exact hm.unique hn ▸ hprecise
  · intro h
    rw [hback]
    intro hdouble
    -- only a long is too long for a double, and only a double may be too short
    rcases h with hshort | hother
    · exact hholds.precise hshort
    · exact absurd hdouble hother

/-- The least long integer comes back from the double that it becomes, though it has 64 bits. -/
theorem widening_returns_least_long :
    let least : Value := .long (Int64.ofInt (-2 ^ 63))
    least.kind = IntegerType.long.kind ∧ IntegerType.long.kind.Widens .double ∧
      ∃ r, standard.convert least .double = .ok r ∧ r.kind = .double ∧
        standard.convert r .long = .ok least := by
  intro least
  have hkind : least.kind = IntegerType.long.kind := rfl
  have hwide : IntegerType.long.kind.Widens .double := by decide
  obtain ⟨r, hr, hrkind, hiff, -⟩ := widening_returns_iff hkind hwide
  have hprecise : Precise (-2 ^ 63) := ⟨1, 63, by decide, by decide⟩
  have hmeans : least.Means (-2 ^ 63) := by
    show (Int64.ofInt (-2 ^ 63)).toInt = -2 ^ 63
    decide
  exact ⟨hkind, hwide, r, hr, hrkind, hiff.mpr fun _ => ⟨_, hmeans, hprecise⟩⟩

/-- The greatest long integer is rounded up to a double that is no long integer any more, and the
    first one that a double does not hold comes back as another one. -/
theorem widening_loses_long :
    ∃ x y : Binary64,
      standard.convert (.long (Int64.ofInt 9223372036854775807)) .double = .ok (.double x) ∧
      (∃ reason, standard.convert (.double x) .long = .error (.invalid .double .long reason)) ∧
      standard.convert (.long (Int64.ofInt 9007199254740993)) .double = .ok (.double y) ∧
      standard.convert (.double y) .long = .ok (.long (Int64.ofInt 9007199254740992)) := by
  have hwiden : ∀ n : Int64, standard.convert (.long n) .double = toDouble (.long n) :=
    fun n => convert_of_integer (i := .long) rfl rfl (by decide) rfl
  have hback : ∀ x : Binary64, standard.convert (.double x) .long = toLong (.double x) :=
    fun x => convert_eq_converter (i := .long) rfl rfl
  refine ⟨⟨0x43E0000000000000⟩, ⟨0x4340000000000000⟩, ?_, ?_, ?_, ?_⟩
  · exact (hwiden _).trans rfl
  · exact ⟨Binary64.display ⟨0x43E0000000000000⟩ ++ " is out of range", (hback _).trans rfl⟩
  · exact (hwiden _).trans rfl
  · exact (hback _).trans rfl

end Service

end Conversion

end CommandBus
