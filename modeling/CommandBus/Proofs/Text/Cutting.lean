import CommandBus.Text.Blank
import CommandBus.Text.Cut

/-!
# Cutting and trimming texts of a known shape

What `Text.Cut` and `Text.Blank` do to texts that were put together: a separator is found where
it was put if it is nowhere else, and nothing is trimmed from a text without blanks at its ends.

## Key results

- `cutOnce_append`, `cutLast_append`, `splitOn_append`: a separator is found where it was put
- `splitOn_eq`: cutting at all separators is that of lists
- `mem_splitOn_iff`: the pieces of a text are what stands between its separators
- `trim_eq_self`, `tight_trim`: what trimming leaves alone, and what it leaves behind
- `trim_append`: blanks around a text are trimmed away
- `trim_eq_iff`: a trimmed text is the text without blanks around it
-/

namespace CommandBus.Text

/-! ## Cutting -/

theorem cutOnce_append {sep : Char} {before : List Char} (h : sep ∉ before)
    (after : List Char) : cutOnce sep (before ++ sep :: after) = some (before, after) := by
  induction before with
  | nil => simp [cutOnce]
  | cons c cs ih =>
    rw [List.mem_cons, not_or] at h
    rw [List.cons_append, cutOnce, if_neg (Ne.symm h.1), ih h.2]
    rfl

theorem cutLast_append {sep : Char} {after : List Char} (h : sep ∉ after)
    (before : List Char) : cutLast sep (before ++ sep :: after) = some (before, after) := by
  have hrev : (before ++ sep :: after).reverse = after.reverse ++ sep :: before.reverse := by
    simp
  have hnot : sep ∉ after.reverse := by simpa using h
  rw [cutLast, hrev, cutOnce_append hnot]
  simp

/-- The pieces of two texts with a separator between them are the pieces of both. -/
theorem splitOn_append (sep : Char) (before after : List Char) :
    splitOn sep (before ++ sep :: after) = splitOn sep before ++ splitOn sep after := by
  induction before with
  | nil => simp [splitOn]
  | cons c cs ih =>
    rw [List.cons_append, splitOn, splitOn]
    by_cases hc : c = sep
    · rw [if_pos hc, if_pos hc, ih, List.cons_append]
    · rw [if_neg hc, if_neg hc, ih]
      cases hcs : splitOn sep cs with
      | nil => exact absurd hcs (splitOn_ne_nil sep cs)
      | cons piece pieces => rfl

/-- Texts are cut as lists are. -/
theorem splitOn_eq (sep : Char) (cs : List Char) : splitOn sep cs = cs.splitOn sep := by
  induction cs with
  | nil => rfl
  | cons c cs ih =>
    rw [splitOn, ih, List.splitOn, List.splitOn, List.splitOnP_cons_eq_if_modifyHead]
    by_cases hc : c = sep
    · rw [if_pos hc, if_pos (by simpa using hc)]
    · rw [if_neg hc, if_neg (by simpa using hc)]
      cases hcs : List.splitOnP (· == sep) cs with
      | nil => exact absurd hcs (List.splitOnP_ne_nil _ _)
      | cons piece pieces => rfl

/-- A piece of a text stands between two separators and has none inside, where one more separator is
    put at either end of the text. -/
structure IsPiece (sep : Char) (cs piece : List Char) : Prop where
  free : sep ∉ piece
  between : sep :: (piece ++ [sep]) <:+: sep :: (cs ++ [sep])

/-- What stands between the first and the last of a list is not moved by looking past both. -/
private theorem mem_of_inner {α : Type} {x y z : α} {xs before after : List α}
    (h : x :: (xs ++ [z]) = before ++ y :: after) (hbefore : before ≠ []) (hafter : after ≠ []) :
    y ∈ xs := by
  obtain ⟨first, before, rfl⟩ := List.exists_cons_of_ne_nil hbefore
  obtain ⟨after, last, rfl⟩ := (List.eq_nil_or_concat after).resolve_left hafter
  have htail : xs ++ [z] = (before ++ y :: after) ++ [last] := by
    simpa using (List.cons.inj h).2
  have hinner : xs = before ++ y :: after := (List.append_inj' htail rfl).1
  rw [hinner]
  exact List.mem_append_right _ List.mem_cons_self

/-- A text is cut into its pieces. -/
theorem mem_splitOn_iff {sep : Char} {cs piece : List Char} :
    piece ∈ splitOn sep cs ↔ IsPiece sep cs piece := by
  constructor
  · intro h
    refine ⟨not_mem_of_mem_splitOn h, ?_⟩
    -- by the length of the text, which is cut at its first separator
    obtain ⟨n, hn⟩ : ∃ n, cs.length = n := ⟨_, rfl⟩
    induction n using Nat.strongRecOn generalizing cs with
    | _ n ih =>
      cases hcut : cutOnce sep cs with
      | none =>
        rw [splitOn_eq_singleton (cutOnce_eq_none_iff.1 hcut), List.mem_singleton] at h
        subst h
        exact List.infix_refl _
      | some parts =>
        obtain ⟨before, after⟩ := parts
        obtain ⟨rfl, hfree⟩ := eq_append_of_cutOnce hcut
        rw [splitOn_append, splitOn_eq_singleton hfree, List.singleton_append] at h
        rcases List.mem_cons.1 h with rfl | hrest
        · exact ⟨[], after ++ [sep], by simp⟩
        · have hshorter : after.length < n := by
            rw [← hn, List.length_append, List.length_cons]
            omega
          have hsuffix : sep :: (after ++ [sep]) <:+ sep :: (before ++ sep :: after ++ [sep]) :=
            ⟨sep :: before, by simp⟩
          exact (ih _ hshorter hrest rfl).trans hsuffix.isInfix
  · intro ⟨hfree, before, after, hbetween⟩
    -- the text with separators around it has an empty piece more at either end
    have hwhole : splitOn sep (sep :: (cs ++ [sep])) = [] :: (splitOn sep cs ++ [[]]) := by
      have hstart := splitOn_append sep [] (cs ++ [sep])
      rw [List.nil_append] at hstart
      rw [hstart, splitOn_append]
      rfl
    have hcut : splitOn sep (before ++ sep :: (piece ++ [sep]) ++ after) =
        splitOn sep before ++ piece :: splitOn sep after := by
      have happend : before ++ sep :: (piece ++ [sep]) ++ after =
          before ++ sep :: (piece ++ sep :: after) := by simp
      rw [happend, splitOn_append, splitOn_append, splitOn_eq_singleton hfree]
      rfl
    have hboth : [] :: (splitOn sep cs ++ [[]]) =
        splitOn sep before ++ piece :: splitOn sep after := by
      rw [← hwhole, ← hcut, hbetween]
    exact mem_of_inner hboth (splitOn_ne_nil _ _) (splitOn_ne_nil _ _)

/-! ## Trimming -/

/-- No blank at the start and none at the end. -/
def Tight (cs : List Char) : Prop :=
  (∀ c, cs.head? = some c → isBlank c = false) ∧ ∀ c, cs.getLast? = some c → isBlank c = false

/-- What is dropped from the start leaves a text that starts with no blank. -/
private theorem head?_dropWhile {cs : List Char} {c : Char}
    (h : (cs.dropWhile isBlank).head? = some c) : isBlank c = false := by
  have hnot := List.head?_dropWhile_not isBlank cs
  rw [h] at hnot
  simpa using hnot

/-- Nothing is dropped from a text that starts with no blank. -/
private theorem dropWhile_eq_self {cs : List Char}
    (h : ∀ c, cs.head? = some c → isBlank c = false) : cs.dropWhile isBlank = cs := by
  cases cs with
  | nil => rfl
  | cons c cs => rw [List.dropWhile_cons, h c rfl]; rfl

/-- A text is trimmed to itself exactly if no blank is at its ends. -/
theorem trim_eq_self {cs : List Char} (h : Tight cs) : trim cs = cs := by
  have hlast : ∀ c, cs.reverse.head? = some c → isBlank c = false := by
    rw [List.head?_reverse]
    exact h.2
  rw [trim, trimStart, dropWhile_eq_self h.1, trimEnd, dropWhile_eq_self hlast,
    List.reverse_reverse]

/-- Only what is behind a text without a blank at its end is trimmed. -/
theorem trimEnd_append {cs : List Char} (h : ∀ c, cs.getLast? = some c → isBlank c = false)
    (after : List Char) : trimEnd (cs ++ after) = cs ++ trimEnd after := by
  have hself : cs.reverse.dropWhile isBlank = cs.reverse := by
    apply dropWhile_eq_self
    rw [List.head?_reverse]
    exact h
  rw [trimEnd, trimEnd, List.reverse_append, List.dropWhile_append, hself]
  split
  · next hnothing =>
    rw [List.isEmpty_iff.1 hnothing]
    simp
  · simp

/-- What is trimmed from the end of a text are blanks. -/
theorem exists_trimEnd_append (cs : List Char) :
    ∃ after, (∀ c ∈ after, isBlank c = true) ∧ trimEnd cs ++ after = cs := by
  refine ⟨(cs.reverse.takeWhile isBlank).reverse, fun c hc => ?_, ?_⟩
  · exact List.all_eq_true.1 List.all_takeWhile c (List.mem_reverse.1 hc)
  · rw [trimEnd, ← List.reverse_append, List.takeWhile_append_dropWhile, List.reverse_reverse]

/-- Blanks around a text are trimmed away. -/
theorem trim_append {before cs after : List Char} (hbefore : ∀ c ∈ before, isBlank c = true)
    (h : Tight cs) (hafter : ∀ c ∈ after, isBlank c = true) :
    trim (before ++ cs ++ after) = cs := by
  have hreverse : ∀ c ∈ after.reverse, isBlank c = true := fun c hc =>
    hafter c (List.mem_reverse.1 hc)
  have hstart : trimStart (before ++ cs ++ after) = trimStart (cs ++ after) := by
    rw [List.append_assoc, trimStart, List.dropWhile_append_of_pos hbefore, trimStart]
  have hend : trimEnd (cs ++ after) = trimEnd cs := by
    rw [trimEnd, List.reverse_append, List.dropWhile_append_of_pos hreverse, trimEnd]
  -- between blanks nothing is left of nothing, and text that starts and ends with no blank stays
  cases cs with
  | nil =>
    have hnothing : (after ++ []).dropWhile isBlank = [] :=
      List.dropWhile_append_of_pos hafter
    rw [trim, hstart, List.nil_append, trimStart, ← List.append_nil after, hnothing]
    rfl
  | cons c cs =>
    have htrim := trim_eq_self h
    have hfirst : isBlank c = false := h.1 c rfl
    rw [trim, trimStart_eq_self hfirst] at htrim
    rw [trim, hstart, List.cons_append, trimStart_eq_self hfirst, ← List.cons_append, hend, htrim]

/-- A trimmed text has no blank at its ends. -/
theorem tight_trim (cs : List Char) : Tight (trim cs) := by
  constructor
  · intro c hc
    -- the start of the trimmed text is the start of what `trimStart` left
    have hprefix : trim cs <+: trimStart cs := by
      rw [trim, trimEnd, ← List.reverse_suffix, List.reverse_reverse]
      exact List.dropWhile_suffix _
    obtain ⟨rest, hrest⟩ := hprefix
    have hhead : (trimStart cs).head? = some c := by
      rw [← hrest, List.head?_append, hc]
      rfl
    exact head?_dropWhile hhead
  · intro c hc
    rw [trim, trimEnd, List.getLast?_reverse] at hc
    exact head?_dropWhile hc

/-- A text without the blanks around it. -/
structure IsTrimmed (cs inner : List Char) : Prop where
  tight : Tight inner
  around : ∃ before after, (∀ c ∈ before, isBlank c = true) ∧ (∀ c ∈ after, isBlank c = true) ∧
    cs = before ++ inner ++ after

/-- A text is trimmed to what is left without the blanks around it. -/
theorem trim_eq_iff {cs inner : List Char} : trim cs = inner ↔ IsTrimmed cs inner := by
  constructor
  · rintro rfl
    obtain ⟨after, hafter, hend⟩ := exists_trimEnd_append (trimStart cs)
    refine ⟨tight_trim cs, cs.takeWhile isBlank, after,
      fun c hc => List.all_eq_true.1 List.all_takeWhile c hc, hafter, ?_⟩
    rw [List.append_assoc, trim, hend, trimStart, List.takeWhile_append_dropWhile]
  · rintro ⟨htight, before, after, hbefore, hafter, rfl⟩
    exact trim_append hbefore htight hafter

theorem tight_of_forall {cs : List Char} (h : ∀ c ∈ cs, isBlank c = false) : Tight cs :=
  ⟨fun c hc => h c (List.mem_of_mem_head? hc), fun c hc => h c (List.mem_of_mem_getLast? hc)⟩

/-- Trimming only takes away. -/
theorem mem_of_mem_trim {cs : List Char} {c : Char} (h : c ∈ trim cs) : c ∈ cs := by
  rw [trim, trimEnd, List.mem_reverse] at h
  have hstart : c ∈ trimStart cs := List.mem_reverse.1 ((List.dropWhile_sublist _).mem h)
  exact (List.dropWhile_sublist _).mem hstart

end CommandBus.Text
