/-!
# The last entry of a history

A history is a list of entries, each of them about a name.  What counts for a name is the last
entry about it: whatever was done before is overwritten, and entries about other names play no
part.

## Key results

- `find?_reverse_eq_some_iff`, `find?_reverse_eq_none_iff`: searching a history from its end
- `LastOn.unique`: a name has one last entry
- `lastOn_filter`: entries about other names can be left out
-/

namespace CommandBus

variable {α : Type} {about : α → String} {history : List α} {name : String} {x : α}

/-- The entry is about the name, and no later one is. -/
def LastOn (about : α → String) (history : List α) (name : String) (x : α) : Prop :=
  ∃ before after, history = before ++ x :: after ∧ about x = name ∧ ∀ y ∈ after, about y ≠ name

/-- The entry that is found from the end of a history is the last one about the name. -/
theorem find?_reverse_eq_some_iff :
    (history.reverse.find? fun y => about y == name) = some x ↔ LastOn about history name x := by
  rw [List.find?_eq_some_iff_append]
  constructor
  · rintro ⟨hname, after, before, hsplit, hother⟩
    refine ⟨before.reverse, after.reverse, ?_, by simpa using hname, fun y hy => ?_⟩
    · rw [List.reverse_eq_iff.1 hsplit]
      simp
    · simpa using hother y (List.mem_reverse.1 hy)
  · rintro ⟨before, after, rfl, hname, hother⟩
    refine ⟨by simpa using hname, after.reverse, before.reverse, by simp, fun y hy => ?_⟩
    simpa using hother y (List.mem_reverse.1 hy)

theorem find?_reverse_eq_none_iff :
    (history.reverse.find? fun y => about y == name) = none ↔ ∀ y ∈ history, about y ≠ name := by
  simp

/-- A history has a last entry about a name, or none at all. -/
theorem lastOn_or_none (about : α → String) (history : List α) (name : String) :
    (∃ x, LastOn about history name x) ∨ ∀ y ∈ history, about y ≠ name := by
  cases h : history.reverse.find? fun y => about y == name with
  | some x => exact .inl ⟨x, find?_reverse_eq_some_iff.1 h⟩
  | none => exact .inr (find?_reverse_eq_none_iff.1 h)

theorem LastOn.mem (h : LastOn about history name x) : x ∈ history := by
  obtain ⟨before, after, rfl, -, -⟩ := h
  simp

theorem LastOn.about_eq (h : LastOn about history name x) : about x = name := by
  obtain ⟨_, _, -, hname, -⟩ := h
  exact hname

/-- A name has one last entry. -/
theorem LastOn.unique {y : α} (hx : LastOn about history name x)
    (hy : LastOn about history name y) : x = y :=
  Option.some.inj
    ((find?_reverse_eq_some_iff.2 hx).symm.trans (find?_reverse_eq_some_iff.2 hy))

/-- Entries about other names can be left out. -/
theorem lastOn_filter :
    LastOn about (history.filter fun y => about y == name) name x ↔
      LastOn about history name x := by
  rw [← find?_reverse_eq_some_iff, ← find?_reverse_eq_some_iff, ← List.filter_reverse,
    List.find?_filter]
  simp only [and_self, Bool.decide_eq_true]

end CommandBus
