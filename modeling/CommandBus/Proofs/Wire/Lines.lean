import CommandBus.Proofs.Bytes.Utf8
import CommandBus.Wire.Lines
import Mathlib.Data.List.TakeWhile

/-!
# The lines of a text

A line ends with a line feed, in front of which a carriage return may stand, or with the text.
`Lines.Cut` says what the lines of a text are.  The lines of the bytes of a text are these lines:
a line feed is a byte of its own, and so is a carriage return.

## Key results

- `exists_cut`, `Cut.unique`: every text has lines, and no others
- `Cut.append`: texts one behind the other have the lines of both, if the first one ends with a
  line feed
- `cut_joined`: lines that are put together are cut apart again
- `cut_flatMap`: bytes are cut where the text is
- `texts_cut_ofText`: the lines of the bytes of a text are all texts
- `isBlankLine_iff`: a line is passed over if it has nothing but blanks in it
-/

namespace CommandBus.Lines

open String (utf8EncodeChar)

/-- A text and its lines. -/
inductive Cut : List Char → List (List Char) → Prop where
  | nil : Cut [] []
  /-- The last line may end with the text, if there is something in it. -/
  | last {line : List Char} (hne : line ≠ []) (hline : '\n' ∉ line) : Cut line [line]
  /-- A line before a line feed. -/
  | feed {line rest : List Char} {lines : List (List Char)} (hline : '\n' ∉ line)
      (hreturn : line.getLast? ≠ some '\r') (h : Cut rest lines) :
      Cut (line ++ '\n' :: rest) (line :: lines)
  /-- A line before a carriage return and a line feed. -/
  | returnFeed {line rest : List Char} {lines : List (List Char)} (hline : '\n' ∉ line)
      (h : Cut rest lines) : Cut (line ++ '\r' :: '\n' :: rest) (line :: lines)

/-! ## Texts -/

/-- Every text has lines. -/
theorem exists_cut (cs : List Char) : ∃ lines, Cut cs lines := by
  -- the induction is on the length, for the first line is cut off whole
  induction hn : cs.length using Nat.strong_induction_on generalizing cs with
  | _ n ih =>
    by_cases hfeed : '\n' ∈ cs
    · obtain ⟨line, rest, rfl, hline⟩ := List.eq_append_cons_of_mem hfeed
      have hshort : rest.length < n := by
        rw [← hn, List.length_append, List.length_cons]
        omega
      obtain ⟨lines, hlines⟩ := ih rest.length hshort rest rfl
      -- a carriage return at the end of the line goes with the line feed
      by_cases hreturn : line.getLast? = some '\r'
      · obtain ⟨front, rfl⟩ := List.getLast?_eq_some_iff.1 hreturn
        refine ⟨front :: lines, ?_⟩
        rw [List.append_assoc]
        exact .returnFeed (fun h => hline (List.mem_append_left _ h)) hlines
      · exact ⟨line :: lines, .feed hline hreturn hlines⟩
    · by_cases hne : cs = []
      · exact ⟨[], by rw [hne]; exact .nil⟩
      · exact ⟨[cs], .last hne hfeed⟩

/-- A text that ends behind a line feed ends with it, or is empty. -/
private theorem getLast?_of_append_feed {front rest : List Char}
    (h : (front ++ '\n' :: rest).getLast? = some '\n') :
    rest = [] ∨ rest.getLast? = some '\n' := by
  cases rest with
  | nil => exact .inl rfl
  | cons c rest =>
    rw [List.getLast?_append, List.getLast?_cons_cons] at h
    exact .inr (by simpa [List.getLast?_cons] using h)

/-- Texts one behind the other have the lines of both, if the first one ends with a line feed. -/
theorem Cut.append {cs ds : List Char} {lines more : List (List Char)} (h : Cut cs lines)
    (hend : cs = [] ∨ cs.getLast? = some '\n') (hds : Cut ds more) :
    Cut (cs ++ ds) (lines ++ more) := by
  induction h with
  | nil => exact hds
  | last hne hline =>
    -- a line that ends with the text has no line feed
    obtain heq | hlast := hend
    · exact absurd heq hne
    · exact absurd (List.mem_of_getLast? hlast) hline
  | @feed line rest lines hline hreturn _ ih =>
    have hlast := hend.resolve_left (by simp)
    rw [List.append_assoc, List.cons_append]
    exact .feed hline hreturn (ih (getLast?_of_append_feed hlast))
  | @returnFeed line rest lines hline _ ih =>
    have hlast := hend.resolve_left (by simp)
    rw [List.append_cons] at hlast
    rw [List.append_assoc, List.cons_append, List.cons_append]
    exact .returnFeed hline (ih (getLast?_of_append_feed hlast))

/-- Lines without line feeds and carriage returns, each with a line feed behind it, are cut where
    they were put together. -/
theorem cut_joined {lines : List (List Char)} (h : ∀ line ∈ lines, '\n' ∉ line ∧ '\r' ∉ line) :
    Cut (lines.flatMap fun line => line ++ ['\n']) lines := by
  induction lines with
  | nil => exact .nil
  | cons line rest ih =>
    rw [List.forall_mem_cons] at h
    rw [List.flatMap_cons, List.append_assoc]
    exact .feed h.1.1 (fun hlast => h.1.2 (List.mem_of_getLast? hlast)) (ih h.2)

/-! ## Bytes -/

/-- A byte that is not cut off is put in front of the first line. -/
private theorem cut_cons {b : UInt8} {rest line : List UInt8} {lines : List (List UInt8)}
    (hb : b ≠ 10) (hrest : cut rest = line :: lines)
    (hreturn : ¬ (b = 13 ∧ rest.head? = some 10)) : cut (b :: rest) = (b :: line) :: lines := by
  rw [cut, if_neg hb, hrest]
  simp only [if_neg hreturn]

/-- Bytes without a line feed are one line. -/
theorem cut_last {line : List UInt8} (hne : line ≠ []) (hline : 10 ∉ line) : cut line = [line] := by
  induction line with
  | nil => exact absurd rfl hne
  | cons b rest ih =>
    rw [List.mem_cons, not_or] at hline
    cases rest with
    | nil => simp [cut, Ne.symm hline.1]
    | cons next rest =>
      refine cut_cons (Ne.symm hline.1) (ih (List.cons_ne_nil _ _) hline.2) ?_
      rintro ⟨-, hfeed⟩
      rw [List.mem_cons, not_or] at hline
      exact hline.2.1 (Option.some.inj hfeed).symm

/-- Behind a line without line feeds, a line feed comes first only if the line is empty. -/
private theorem head?_append_ne_feed {line rest : List UInt8} (hne : line ≠ [])
    (hline : 10 ∉ line) : (line ++ rest).head? ≠ some 10 := by
  rw [List.head?_append_of_ne_nil _ hne]
  exact fun h => hline (List.mem_of_head? h)

/-- A line is cut off in front of a line feed. -/
theorem cut_feed {line rest : List UInt8} (hline : 10 ∉ line) (hreturn : line.getLast? ≠ some 13) :
    cut (line ++ 10 :: rest) = line :: cut rest := by
  induction line with
  | nil => rfl
  | cons b bs ih =>
    rw [List.mem_cons, not_or] at hline
    cases bs with
    | nil =>
      -- a carriage return in front of the line feed would be the last byte of the line
      exact cut_cons (Ne.symm hline.1) (ih hline.2 nofun) fun h => hreturn (by rw [h.1]; rfl)
    | cons next bs =>
      rw [List.getLast?_cons_cons] at hreturn
      exact cut_cons (Ne.symm hline.1) (ih hline.2 hreturn)
        fun h => head?_append_ne_feed (List.cons_ne_nil _ _) hline.2 h.2

/-- So it is in front of a carriage return and a line feed. -/
theorem cut_returnFeed {line rest : List UInt8} (hline : 10 ∉ line) :
    cut (line ++ 13 :: 10 :: rest) = line :: cut rest := by
  induction line with
  | nil => simp [cut]
  | cons b bs ih =>
    rw [List.mem_cons, not_or] at hline
    refine cut_cons (Ne.symm hline.1) (ih hline.2) ?_
    rintro ⟨-, hfeed⟩
    cases bs with
    | nil => exact absurd (Option.some.inj hfeed) (by decide)
    | cons next bs => exact head?_append_ne_feed (List.cons_ne_nil _ _) hline.2 hfeed

/-! ## The bytes of texts -/

/-- A byte of ASCII stands in the bytes of a text only where its character stands in the text. -/
theorem mem_flatMap_ascii {c : Char} (hc : c.val.toNat < 128) {cs : List Char}
    (h : .ofNat c.val.toNat ∈ cs.flatMap utf8EncodeChar) : c ∈ cs := by
  obtain ⟨d, hd, hmem⟩ := List.mem_flatMap.1 h
  by_cases hascii : d.val.toNat < 128
  -- a character of ASCII is its own byte
  · rw [Bytes.utf8EncodeChar_of_ascii hascii, List.mem_singleton] at hmem
    have hval : c.val.toNat = d.val.toNat := by
      have hnat := congrArg UInt8.toNat hmem
      rw [UInt8.toNat_ofNat', UInt8.toNat_ofNat'] at hnat
      omega
    rwa [Char.ext (UInt32.toNat_inj.1 hval)]
  -- and no other one has such a byte
  · have hbyte := Bytes.le_of_mem_utf8EncodeChar (Nat.le_of_not_lt hascii) hmem
    rw [UInt8.toNat_ofNat'] at hbyte
    omega

/-- The last byte of a text is a carriage return only if the text ends with one. -/
theorem getLast?_flatMap_ne {line : List Char} (h : line.getLast? ≠ some '\r') :
    (line.flatMap utf8EncodeChar).getLast? ≠ some 13 := by
  rcases List.eq_nil_or_concat line with rfl | ⟨front, c, rfl⟩
  · exact nofun
  · intro hlast
    have hbytes : [c].flatMap utf8EncodeChar ≠ [] := by simp
    rw [List.concat_eq_append, List.flatMap_append, List.getLast?_append_of_ne_nil _ hbytes]
      at hlast
    have hmem : '\r' ∈ [c] := mem_flatMap_ascii (by decide) (List.mem_of_getLast? hlast)
    rw [List.mem_singleton] at hmem
    exact h (by rw [hmem]; simp)

/-- Bytes are cut where the text is. -/
theorem cut_flatMap {cs : List Char} {lines : List (List Char)} (h : Cut cs lines) :
    cut (cs.flatMap utf8EncodeChar) = lines.map fun line => line.flatMap utf8EncodeChar := by
  -- a line feed among the bytes would be one in the line
  have hno : ∀ {line : List Char}, '\n' ∉ line → 10 ∉ line.flatMap utf8EncodeChar :=
    fun hline hmem => hline (mem_flatMap_ascii (by decide) hmem)
  induction h with
  | nil => rfl
  | @last line hne hline =>
    refine cut_last (fun heq => ?_) (hno hline)
    obtain ⟨c, cs, rfl⟩ := List.exists_cons_of_ne_nil hne
    exact String.utf8EncodeChar_ne_nil (List.append_eq_nil_iff.1 heq).1
  | @feed line rest lines hline hreturn _ ih =>
    rw [List.flatMap_append, List.flatMap_cons, List.map_cons, ← ih]
    exact cut_feed (hno hline) (getLast?_flatMap_ne hreturn)
  | @returnFeed line rest lines hline _ ih =>
    rw [List.flatMap_append, List.flatMap_cons, List.flatMap_cons, List.map_cons, ← ih]
    exact cut_returnFeed (hno hline)

example : cut (Bytes.ofText "a\r\n\n\rb\r") = ["a", "", "\rb\r"].map Bytes.ofText := by decide

/-- The forms of texts are texts. -/
private theorem texts_map_ofText (lines : List String) :
    texts (lines.map Bytes.ofText) = (lines, true) := by
  induction lines with
  | nil => rfl
  | cons line rest ih => simp only [List.map_cons, texts, Bytes.toText?_ofText, ih]

/-- The lines of the bytes of a text are its lines, and all of them are texts. -/
theorem texts_cut_ofText {text : String} {lines : List String}
    (h : Cut text.toList (lines.map String.toList)) :
    texts (cut (Bytes.ofText text)) = (lines, true) := by
  have hbytes : cut (Bytes.ofText text) = lines.map Bytes.ofText := by
    rw [Bytes.ofText_eq_flatMap, cut_flatMap h, List.map_map]
    exact List.map_congr_left fun line _ => (Bytes.ofText_eq_flatMap line).symm
  rw [hbytes, texts_map_ofText]

/-- A text has lines, and they are texts. -/
theorem exists_lines (text : String) :
    ∃ lines : List String, Cut text.toList (lines.map String.toList) := by
  obtain ⟨lines, h⟩ := exists_cut text.toList
  refine ⟨lines.map String.ofList, ?_⟩
  rw [List.map_map]
  simpa [Function.comp_def] using h

/-- A text has no other lines. -/
theorem Cut.unique {text : String} {lines lines' : List String}
    (h : Cut text.toList (lines.map String.toList))
    (h' : Cut text.toList (lines'.map String.toList)) : lines = lines' := by
  -- both are what the bytes of the text are cut into
  have hboth := (texts_cut_ofText h).symm.trans (texts_cut_ofText h')
  exact congrArg Prod.fst hboth

/-! ## Blank lines -/

/-- A line is passed over if it has nothing but blanks in it. -/
theorem isBlankLine_iff (line : String) :
    isBlankLine line = true ↔ ∀ c ∈ line.toList, Text.isBlank c = true := by
  rw [isBlankLine, List.isEmpty_iff, Text.trim, Text.trimEnd, List.reverse_eq_nil_iff,
    List.dropWhile_eq_nil_iff]
  simp only [List.mem_reverse]
  refine ⟨fun h c hc => ?_, fun h c hc => h c ((List.dropWhile_suffix _).subset hc)⟩
  -- a character in front of the first one that is no blank is a blank
  rw [← List.takeWhile_append_dropWhile (p := Text.isBlank) (l := line.toList)] at hc
  rcases List.mem_append.1 hc with hfront | hrest
  · exact List.mem_takeWhile_imp hfront
  · exact h c hrest

end CommandBus.Lines
