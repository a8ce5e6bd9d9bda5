/-! # Cutting a text at a separator

`splitOn` cuts at every occurrence of a separator, `cutOnce` at the first one only.
A text without the separator is its own only piece, and an empty text has one empty
piece.

* `not_mem_of_mem_splitOn`   no piece holds the separator
* `eq_append_of_cutOnce`     the two parts and the separator give the text back -/

namespace CommandBus.Text

/-- The pieces between the occurrences of `sep`, in order; never the empty list. -/
def splitOn (sep : Char) : List Char → List (List Char)
  | [] => [[]]
  | c :: cs =>
    if c = sep then [] :: splitOn sep cs
    else match splitOn sep cs with
      | [] => [[c]]
      | piece :: pieces => (c :: piece) :: pieces

/-- The text before the first `sep` and the text after it, if there is a `sep`. -/
def cutOnce (sep : Char) : List Char → Option (List Char × List Char)
  | [] => none
  | c :: cs =>
    if c = sep then some ([], cs)
    else (cutOnce sep cs).map fun (before, after) => (c :: before, after)

/-- The text before the last `sep` and the text after it, if there is a `sep`. -/
def cutLast (sep : Char) (cs : List Char) : Option (List Char × List Char) :=
  (cutOnce sep cs.reverse).map fun (after, before) => (before.reverse, after.reverse)

theorem splitOn_ne_nil (sep : Char) (cs : List Char) : splitOn sep cs ≠ [] := by
  cases cs with
  | nil => simp [splitOn]
  | cons c cs =>
    simp only [splitOn]
    split
    · simp
    · split <;> simp

theorem not_mem_of_mem_splitOn {sep : Char} {cs piece : List Char}
    (h : piece ∈ splitOn sep cs) : sep ∉ piece := by
  induction cs generalizing piece with
  | nil => simp [splitOn] at h; simp [h]
  | cons c cs ih =>
    simp only [splitOn] at h
    split at h
    · rcases List.mem_cons.1 h with rfl | h
      · simp
      · exact ih h
    -- the character is put in front of the first piece
    · next hc =>
      split at h
      · next he => exact absurd he (splitOn_ne_nil sep cs)
      · next p ps he =>
        rcases List.mem_cons.1 h with rfl | h
        · have hp := ih (he ▸ List.mem_cons_self : p ∈ splitOn sep cs)
          simp [hp, Ne.symm hc]
        · exact ih (he ▸ List.mem_cons_of_mem _ h)

theorem splitOn_eq_singleton {sep : Char} {cs : List Char} (h : sep ∉ cs) :
    splitOn sep cs = [cs] := by
  induction cs with
  | nil => rfl
  | cons c cs ih =>
    simp only [List.mem_cons, not_or] at h
    simp [splitOn, Ne.symm h.1, ih h.2]

theorem cutOnce_eq_none_iff {sep : Char} {cs : List Char} : cutOnce sep cs = none ↔ sep ∉ cs := by
  induction cs with
  | nil => simp [cutOnce]
  | cons c cs ih =>
    by_cases h : c = sep
    · simp [cutOnce, h]
    · simp [cutOnce, h, ih, Ne.symm h]

theorem eq_append_of_cutOnce {sep : Char} {cs before after : List Char}
    (h : cutOnce sep cs = some (before, after)) : cs = before ++ sep :: after ∧ sep ∉ before := by
  induction cs generalizing before after with
  | nil => simp [cutOnce] at h
  | cons c cs ih =>
    simp only [cutOnce] at h
    split at h
    · next hc => simp only [Option.some.injEq, Prod.mk.injEq] at h; simp [← h.1, ← h.2, hc]
    · next hc =>
      obtain ⟨⟨b, a⟩, hba, heq⟩ := Option.map_eq_some_iff.1 h
      simp only [Prod.mk.injEq] at heq
      obtain ⟨rfl, hn⟩ := ih hba
      simp [← heq.1, ← heq.2, hn, Ne.symm hc]

end CommandBus.Text
