import CommandBus.Demo.Commands
import CommandBus.Proofs.Number.Sums
import CommandBus.Proofs.Number.Texts

/-!
# How exact the addition of the application is

An addition gives a decimal or fails because its sum is too large.  The decimal is the exact sum
whenever this is a decimal; otherwise the digits that there is no room for are rounded off, and
nothing in the answer tells.

## Key results

- `add_answers`: the sums that are exact, that are too large and that are rounded
- `add_rounds_largest`: a sum that is neither exact nor too large
-/

namespace CommandBus.Demo

open Number

/-- The exact sum. -/
def Summands.sum (s : Summands) : ℚ := s.a.value + s.b.value

/-- The addition gives a decimal. -/
def Yields (s : Summands) (ctx : Context) (now : Instant) (d : Decimal) : Prop :=
  add.execute s ctx now = done ctx now (.string d.text)

/-- The addition gives the exact sum. -/
def AddsExactly (s : Summands) (ctx : Context) (now : Instant) : Prop :=
  ∃ d, Yields s ctx now d ∧ d.value = s.sum

/-- The addition fails because the sum is too large. -/
def Overflows (s : Summands) (ctx : Context) (now : Instant) : Prop :=
  add.execute s ctx now = failed ctx now (.other (overflowText s))

/-- What an addition answers, in any context and at any moment. -/
structure Addition (s : Summands) (ctx : Context) (now : Instant) : Prop where
  /-- The sum is exact, or said to be too large, for these summands and for no others. -/
  faithful_iff : AddsExactly s ctx now ∨ Overflows s ctx now ↔
    (∃ d : Decimal, d.value = s.sum) ∨ 2 ^ 96 - 1 / 2 ≤ |s.sum|
  /-- It is exact whenever it is a decimal. -/
  exact_iff : AddsExactly s ctx now ↔ ∃ d : Decimal, d.value = s.sum
  /-- It is too large if there is no room for the integer that it rounds to. -/
  overflows_iff : Overflows s ctx now ↔ 2 ^ 96 - 1 / 2 ≤ |s.sum|
  /-- All other sums are off by half a digit at most, and have no room for one more digit. -/
  rounded : (¬ ∃ d : Decimal, d.value = s.sum) → |s.sum| < 2 ^ 96 - 1 / 2 →
    ∃ d, Yields s ctx now d ∧ |d.value - s.sum| ≤ 1 / 2 / 10 ^ d.scale ∧
      2 ^ 96 - 1 / 2 ≤ |s.sum| * 10 ^ (d.scale + 1)

variable {s : Summands} {ctx : Context} {now : Instant}

theorem execute_add_of_some {d : Decimal} (h : Decimal.add? s.a s.b = some d) :
    add.execute s ctx now = done ctx now (.string d.text) := by
  simp only [add, h]

theorem execute_add_of_none (h : Decimal.add? s.a s.b = none) :
    add.execute s ctx now = failed ctx now (.other (overflowText s)) := by
  simp only [add, h]

theorem yields_iff {d : Decimal} : Yields s ctx now d ↔ Decimal.add? s.a s.b = some d := by
  refine ⟨fun h => ?_, execute_add_of_some⟩
  cases hsum : Decimal.add? s.a s.b with
  | none =>
    rw [Yields, execute_add_of_none hsum] at h
    exact nomatch congrArg Execution.result h
  | some sum =>
    rw [Yields, execute_add_of_some hsum] at h
    -- no two decimals have the same text
    simp only [done, Execution.mk.injEq, Except.ok.injEq, Json.string.injEq, and_true] at h
    rw [Decimal.chars_injective (String.ofList_injective h)]

theorem overflows_iff : Overflows s ctx now ↔ Decimal.add? s.a s.b = none := by
  refine ⟨fun h => ?_, execute_add_of_none⟩
  cases hsum : Decimal.add? s.a s.b with
  | none => rfl
  | some sum =>
    rw [Overflows, execute_add_of_some hsum] at h
    exact nomatch congrArg Execution.result h

/-- An addition is exact if its sum is a decimal, fails if it is too large, and is rounded in
    between. -/
theorem add_answers (s : Summands) (ctx : Context) (now : Instant) : Addition s ctx now := by
  have hexact : AddsExactly s ctx now ↔ ∃ d : Decimal, d.value = s.sum := by
    rw [Summands.sum, ← Decimal.add?_exact_iff]
    exact exists_congr fun d => and_congr_left fun _ => yields_iff
  have hlarge : Overflows s ctx now ↔ 2 ^ 96 - 1 / 2 ≤ |s.sum| :=
    overflows_iff.trans Decimal.add?_eq_none_iff
  refine ⟨or_congr hexact hlarge, hexact, hlarge, fun hno hsmall => ?_⟩
  obtain ⟨d, hd⟩ : ∃ d, Decimal.add? s.a s.b = some d := by
    rw [← Option.ne_none_iff_exists', Ne, Decimal.add?_eq_none_iff]
    exact not_le.2 hsmall
  exact ⟨d, yields_iff.2 hd, Decimal.add?_rounded hd fun heq => hno ⟨d, heq⟩⟩

/-- The largest decimal is what is left of it when a tenth is taken away. -/
theorem add_rounds_largest :
    let s : Summands := ⟨⟨false, 79228162514264337593543950335, 0, by decide, by decide⟩,
      ⟨true, 1, 1, by decide, by decide⟩⟩
    Yields s {} Instant.epoch s.a ∧ ¬ AddsExactly s {} Instant.epoch ∧
      ¬ Overflows s {} Instant.epoch := by
  intro s
  have hsum : Decimal.add? s.a s.b = some s.a := by decide
  refine ⟨yields_iff.2 hsum, ?_, ?_⟩
  · rintro ⟨d, hd, hvalue⟩
    obtain rfl := Option.some.inj (hsum.symm.trans (yields_iff.1 hd))
    have hzero : s.b.value = 0 := left_eq_add.1 hvalue
    norm_num [Decimal.value, s] at hzero
  · rw [overflows_iff, hsum]
    exact Option.some_ne_none _

end CommandBus.Demo
