import CommandBus.Json.Codec
import CommandBus.Proofs.Json.Lexical

/-!
# Reading back documents of a fixed shape

A reader `Reads` a text if it gives the value and stops behind the text, wherever that stands; it
`Gives` an outcome if it does so or fails, again wherever the text stands.
For strings and integers this is what the lexical level does.  For records it is built up
member by member: `Gathers` says what the members of a written object do to the draft of a
record, and the reader of the record does just that, up to the first member that it fails at.

## Key results

- `reads_string`, `reads_integer`, `reads_variants`, `reads_readValue_string`: values
- `skips_string`, `skips_integer`: values that are stepped over
- `reads_record`: a record is read from a written object whose members make up its draft
- `gives_record`: if the reader of a field may fail at its member, so may that of the record
- `parse_of_reads`: a whole text is read as what its reader reads
-/

namespace CommandBus.Json

open Number Cursor

/-- The reader gives `a` for the text `cs` and stops behind it, wherever the text stands. -/
def Reads {α : Type} (reader : Cursor → Except Error (α × Cursor)) (cs : List Char) (a : α) :
    Prop :=
  ∀ rest p, Ends rest → ∃ p', reader ⟨cs ++ rest, p⟩ = .ok (a, ⟨rest, p'⟩)

/-- A reading gives the value and stops in front of `rest`, or it fails. -/
def Yields {α : Type} (result : Except Error (α × Cursor)) (rest : List Char) : Option α → Prop
  | some a => ∃ p, result = .ok (a, ⟨rest, p⟩)
  | none => ∃ e, result = .error e

theorem Yields.cases {α : Type} {result : Except Error (α × Cursor)} {rest : List Char}
    {outcome : Option α} (h : Yields result rest outcome) :
    (∃ e, result = .error e ∧ outcome = none) ∨
      ∃ a p, result = .ok (a, ⟨rest, p⟩) ∧ outcome = some a := by
  cases outcome with
  | none =>
    obtain ⟨e, he⟩ := h
    exact .inl ⟨e, he, rfl⟩
  | some a =>
    obtain ⟨p, hp⟩ := h
    exact .inr ⟨a, p, hp, rfl⟩

/-- The reader ends with the outcome, and behind the text `cs` if it gives a value, wherever the
    text stands. -/
def Gives {α : Type} (reader : Cursor → Except Error (α × Cursor)) (cs : List Char)
    (outcome : Option α) : Prop :=
  ∀ rest p, Ends rest → Yields (reader ⟨cs ++ rest, p⟩) rest outcome

theorem gives_some_iff {α : Type} {reader : Cursor → Except Error (α × Cursor)} {cs : List Char}
    {a : α} : Gives reader cs (some a) ↔ Reads reader cs a := Iff.rfl

/-- The text `cs` is stepped over as one value, wherever it stands. -/
def Skips (cs : List Char) : Prop :=
  ∀ rest p, Ends rest → ∃ p', skipValue ⟨cs ++ rest, p⟩ = .ok ⟨rest, p'⟩

/-- Where no blank is, none is stepped over. -/
theorem skipSpaces_cons {c : Char} (hc : isSpace c = false) (cs : List Char) (p : Position) :
    skipSpaces ⟨c :: cs, p⟩ = ⟨c :: cs, p⟩ := by
  simp [skipSpaces, hc, Position.afterAll]

/-- A written string starts with its quote. -/
theorem stringChars_append (s : String) (rest : List Char) :
    stringChars s ++ rest = '"' :: (s.toList.flatMap stringChar ++ '"' :: rest) := by
  simp [stringChars]

/-! ## Values -/

section Values

variable {α β : Type}

theorem Yields.map {result : Except Error (α × Cursor)} {rest : List Char} {outcome : Option α}
    (h : Yields result rest outcome) (f : α → β) :
    Yields (result.map fun (a, c) => (f a, c)) rest (outcome.map f) := by
  cases outcome with
  | some a =>
    obtain ⟨p, rfl⟩ := h
    exact ⟨p, rfl⟩
  | none =>
    obtain ⟨e, rfl⟩ := h
    exact ⟨e, rfl⟩

theorem gives_map {reader : Cursor → Except Error (α × Cursor)} {cs : List Char}
    {outcome : Option α} (h : Gives reader cs outcome) (f : α → β) :
    Gives (fun c => (reader c).map fun (a, c) => (f a, c)) cs (outcome.map f) :=
  fun rest p hrest => (h rest p hrest).map f

theorem reads_map {reader : Cursor → Except Error (α × Cursor)} {cs : List Char} {a : α}
    (h : Reads reader cs a) (f : α → β) :
    Reads (fun c => (reader c).map fun (a, c) => (f a, c)) cs (f a) :=
  gives_map (gives_some_iff.2 h) f

theorem reads_string (depth : Depth) (s : String) :
    Reads (Codec.string.read depth) (chars (.string s)) s := by
  intro rest p _
  obtain ⟨p', hp⟩ := string_stringChars s rest p
  refine ⟨p', ?_⟩
  rw [chars]
  rw [stringChars_append] at hp ⊢
  simp only [Codec.string, skipSpaces_cons (show isSpace '"' = false by decide), hp]

theorem reads_integer {name : String} {range : IntegerRange} {n : Integer}
    (hn : range.holds n.value = true) (depth : Depth) :
    Reads ((Codec.integer name range).read depth) (chars (.integer n)) n.value := by
  intro rest p hrest
  obtain ⟨p', hp⟩ := number_intText n hrest p
  obtain ⟨c, cs, heq, hc⟩ := intText_cons n.value
  refine ⟨p', ?_⟩
  rw [chars]
  rw [heq, List.cons_append] at hp ⊢
  simp only [Codec.integer, Codec.numeric, skipSpaces_cons hc.isSpace, hc.test, if_true, hp,
    Codec.integerOf, hn]

/-- A value that is not written with an `n` in front is read where null is allowed. -/
theorem gives_optional {codec : Codec α} {depth : Depth} {c : Char} {cs : List Char}
    {outcome : Option α} (hn : c ≠ 'n') (hspace : isSpace c = false)
    (h : Gives (codec.read depth) (c :: cs) outcome) :
    Gives ((Codec.optional codec).read depth) (c :: cs) (outcome.map some) := by
  intro rest p hrest
  have hread := (h rest p hrest).map some
  rw [List.cons_append] at hread ⊢
  simp only [Codec.optional, skipSpaces_cons hspace]
  split
  · next heq => exact absurd (List.cons.inj heq).1 hn
  · exact hread

theorem reads_optional {codec : Codec α} {depth : Depth} {c : Char} {cs : List Char} {a : α}
    (hn : c ≠ 'n') (hspace : isSpace c = false) (h : Reads (codec.read depth) (c :: cs) a) :
    Reads ((Codec.optional codec).read depth) (c :: cs) (some a) :=
  gives_optional hn hspace (gives_some_iff.2 h)

theorem reads_optional_null {codec : Codec α} (depth : Depth) :
    Reads ((Codec.optional codec).read depth) (chars .null) none :=
  fun _ _ _ => ⟨_, rfl⟩

theorem reads_variants {variants : List (String × α)} {name : String} {a : α}
    (h : Codec.variantOf variants name = .ok a) (depth : Depth) :
    Reads ((Codec.variants variants).read depth) (chars (.string name)) a := by
  intro rest p _
  obtain ⟨p', hp⟩ := string_stringChars name rest p
  refine ⟨p', ?_⟩
  rw [chars]
  rw [stringChars_append] at hp ⊢
  simp only [Codec.variants, skipSpaces_cons (show isSpace '"' = false by decide), hp, h]

theorem reads_readValue_string (depth : Depth) (s : String) :
    Reads (readValue (depth + 1)) (chars (.string s)) (.string s) := by
  intro rest p _
  obtain ⟨p', hp⟩ := string_stringChars s rest p
  refine ⟨p', ?_⟩
  rw [chars]
  rw [stringChars_append] at hp ⊢
  simp only [readValue, skipSpaces_cons (show isSpace '"' = false by decide), scalar, hp,
    Except.map]
  rfl

end Values

/-! ## Values that are stepped over -/

/-- After one value outside of all brackets there is nothing left to step over. -/
private theorem skipRest_nil (fuel : Nat) (comma : Bool) (c : Cursor) :
    skipRest (fuel + 1) [] comma c = .ok c := rfl

theorem skips_string (s : String) : Skips (chars (.string s)) := by
  intro rest p _
  rw [chars, stringChars_append, skipValue]
  have hlen := length_le_length_flatMap s.toList
  have hfuel : s.toList.length <
      ('"' :: (s.toList.flatMap stringChar ++ '"' :: rest)).length + 1 := by
    simp only [List.length_cons, List.length_append]
    omega
  -- the fuel is the length of the text, which has all characters of the string in it
  obtain ⟨p', hp⟩ := skipString_flatMap hfuel rest (p.after '"')
  refine ⟨p', ?_⟩
  simp only [skipIn, skipSpaces_cons (show isSpace '"' = false by decide), eat, hp]
  exact skipRest_nil _ _ _

theorem skips_integer (n : Integer) : Skips (chars (.integer n)) := by
  intro rest p hrest
  obtain ⟨p', hp⟩ := skipNumber_intText n.value hrest p
  obtain ⟨c, cs, heq, hc⟩ := intText_cons n.value
  refine ⟨p', ?_⟩
  rw [chars, skipValue]
  rw [heq, List.cons_append] at hp ⊢
  simp only [skipIn, skipSpaces_cons hc.isSpace]
  -- none of the words and brackets starts like a number
  split
  · next h => exact absurd h (List.cons_ne_nil _ _)
  · next h => exact absurd (List.cons.inj h).1 (hc.ne (by decide) (by decide))
  · next h => exact absurd (List.cons.inj h).1 (hc.ne (by decide) (by decide))
  · next h => exact absurd (List.cons.inj h).1 (hc.ne (by decide) (by decide))
  · next h => exact absurd (List.cons.inj h).1 (hc.ne (by decide) (by decide))
  · next h => exact absurd (List.cons.inj h).1 (hc.ne (by decide) (by decide))
  · next h => exact absurd (List.cons.inj h).1 (hc.ne (by decide) (by decide))
  · next h =>
    obtain ⟨rfl, rfl⟩ := List.cons.inj h
    simp only [hc.test, if_true, hp]
    exact skipRest_nil _ _ _

/-! ## Records -/

namespace Codec

variable {α σ : Type}

/-- What the members of a written object do to the draft of a record, in turn: a member that is
    a field is read into it, any other is stepped over. -/
inductive Gathers (fields : List (Field σ)) (depth : Depth) :
    σ → List (String × Json) → σ → Prop where
  | nil {draft : σ} : Gathers fields depth draft [] draft
  | field {name : String} {j : Json} {rest : List (String × Json)} {f : Field σ}
    {draft next final : σ} (hf : findField name fields = some f) (hnew : f.filled draft = false)
    (hread : Reads (f.read draft depth) j.chars next)
    (hrest : Gathers fields depth next rest final) :
    Gathers fields depth draft ((name, j) :: rest) final
  | other {name : String} {j : Json} {rest : List (String × Json)} {draft final : σ}
    (hf : findField name fields = none) (hskip : Skips j.chars)
    (hrest : Gathers fields depth draft rest final) :
    Gathers fields depth draft ((name, j) :: rest) final

/-- What some members do, and then some more. -/
theorem Gathers.append {fields : List (Field σ)} {depth : Depth} {draft next final : σ}
    {front back : List (String × Json)} (hfront : Gathers fields depth draft front next)
    (hback : Gathers fields depth next back final) :
    Gathers fields depth draft (front ++ back) final := by
  induction hfront with
  | nil => exact hback
  | field hf hnew hread _ ih => exact .field hf hnew hread (ih hback)
  | other hf hskip _ ih => exact .other hf hskip (ih hback)

/-- A field is read into its slot. -/
theorem gives_field {codec : Codec α} {depth : Depth} {cs : List Char} {outcome : Option α}
    (h : Gives (codec.read depth) cs outcome) (name : String) (get : σ → Option α)
    (set : σ → α → σ) (default? : Option α) (draft : σ) :
    Gives ((field name codec get set default?).read draft depth) cs (outcome.map (set draft)) :=
  gives_map h (set draft)

theorem reads_field {codec : Codec α} {depth : Depth} {cs : List Char} {a : α}
    (h : Reads (codec.read depth) cs a) (name : String) (get : σ → Option α) (set : σ → α → σ)
    (default? : Option α) (draft : σ) :
    Reads ((field name codec get set default?).read draft depth) cs (set draft a) :=
  reads_map h (set draft)

/-- The written members behind the first one, with the comma in front of them. -/
def furtherChars : List (String × Json) → List Char
  | [] => []
  | m :: ms => ',' :: memberChars (m :: ms)

/-- A written member, what stands behind it set apart. -/
theorem memberChars_cons (name : String) (j : Json) (ms : List (String × Json)) :
    memberChars ((name, j) :: ms) = stringChars name ++ ':' :: (j.chars ++ furtherChars ms) := by
  cases ms with
  | nil => simp [memberChars, furtherChars]
  | cons m ms => simp [memberChars, furtherChars]

/-- No member is written as nothing. -/
private theorem length_le_memberChars (ms : List (String × Json)) :
    ms.length ≤ (memberChars ms).length := by
  induction ms with
  | nil => exact Nat.zero_le _
  | cons m ms ih =>
    obtain ⟨name, j⟩ := m
    rw [memberChars_cons]
    cases ms with
    | nil => simp [stringChars]
    | cons m ms =>
      simp only [furtherChars, List.length_cons, List.length_append] at ih ⊢
      omega

/-- What follows a member ends a number in it. -/
theorem ends_further (ms : List (String × Json)) (rest : List Char) :
    Ends (furtherChars ms ++ '\x7d' :: rest) := by
  cases ms with
  | nil => exact ends_brace rest
  | cons m ms => exact ends_comma _

/-- The cursor finds the key of a member, behind a comma unless it is the first one. -/
theorem nextKey?_member (first : Bool) (name : String) (j : Json)
    (ms : List (String × Json)) (rest : List Char) (p : Position) :
    ∃ p', nextKey? first
        ⟨(if first then memberChars ((name, j) :: ms) else furtherChars ((name, j) :: ms)) ++ rest,
          p⟩ =
      .ok (some ⟨stringChars name ++ ':' :: (j.chars ++ (furtherChars ms ++ rest)), p'⟩) := by
  have hquote : isSpace '"' = false := by decide
  have htext : memberChars ((name, j) :: ms) ++ rest =
      stringChars name ++ ':' :: (j.chars ++ (furtherChars ms ++ rest)) := by
    rw [memberChars_cons]
    simp only [List.append_assoc, List.cons_append]
  -- the first member stands behind the brace, and every other one behind a comma
  cases first with
  | true =>
    refine ⟨p, ?_⟩
    rw [if_pos rfl, htext, stringChars_append]
    simp only [nextKey?, skipSpaces_cons hquote, if_true]
    rfl
  | false =>
    refine ⟨p.after ',', ?_⟩
    have hcomma : isSpace ',' = false := by decide
    have hfurther : furtherChars ((name, j) :: ms) = ',' :: memberChars ((name, j) :: ms) := rfl
    rw [if_neg Bool.false_ne_true, hfurther, List.cons_append, htext, stringChars_append]
    simp only [nextKey?, skipSpaces_cons hcomma, eat, skipSpaces_cons hquote,
      Bool.false_eq_true, if_false]
    rfl

/-- The colon behind a key is stepped over. -/
theorem colon_cons (cs : List Char) (p : Position) :
    colon ⟨':' :: cs, p⟩ = .ok ⟨cs, p.after ':'⟩ := by
  simp only [colon, skipSpaces_cons (show isSpace ':' = false by decide), eat]

/-- The members of a written object, from the first one on or from the comma behind it. -/
def membersFrom (first : Bool) (ms : List (String × Json)) : List Char :=
  if first then memberChars ms else furtherChars ms

/-- The first members of a written object are read into the draft that they make up, and the
    reading goes on at the members behind them. -/
private theorem readMembers_append {fields : List (Field σ)} {depth : Depth} {draft next : σ}
    {ms : List (String × Json)} (h : Gathers fields depth draft ms next)
    (back : List (String × Json)) (fuel : Nat) (first : Bool) (rest : List Char) (p : Position) :
    ∃ p', readMembers fields depth (ms.length + fuel) first draft
        ⟨membersFrom first (ms ++ back) ++ '\x7d' :: rest, p⟩ =
      readMembers fields depth fuel (first && ms.isEmpty) next
        ⟨membersFrom (first && ms.isEmpty) back ++ '\x7d' :: rest, p'⟩ := by
  -- the draft changes from member to member, and the first one alone has no comma
  induction h generalizing first p with
  | nil => exact ⟨p, by simp⟩
  | @field name j ms f draft next final hf hnew hread hrest ih =>
    -- key, colon and value, each from where the one before left the cursor
    obtain ⟨p₁, hkey⟩ := nextKey?_member first name j (ms ++ back) ('\x7d' :: rest) p
    obtain ⟨p₂, hname⟩ := string_stringChars name
      (':' :: (j.chars ++ (furtherChars (ms ++ back) ++ '\x7d' :: rest))) p₁
    obtain ⟨p₃, hvalue⟩ := hread _ (p₂.after ':') (ends_further (ms ++ back) rest)
    obtain ⟨p₄, htail⟩ := ih false p₃
    refine ⟨p₄, ?_⟩
    rw [Bool.false_and] at htail
    rw [List.isEmpty_cons, Bool.and_false, ← htail, List.length_cons,
      show ms.length + 1 + fuel = ms.length + fuel + 1 by omega]
    simp only [membersFrom, List.cons_append, readMembers, hkey, hname, hf, hnew, colon_cons,
      hvalue, Bool.false_eq_true, if_false]
  | @other name j ms draft final hf hskip hrest ih =>
    -- the same way, but the draft stays as it is
    obtain ⟨p₁, hkey⟩ := nextKey?_member first name j (ms ++ back) ('\x7d' :: rest) p
    obtain ⟨p₂, hname⟩ := string_stringChars name
      (':' :: (j.chars ++ (furtherChars (ms ++ back) ++ '\x7d' :: rest))) p₁
    obtain ⟨p₃, hvalue⟩ := hskip _ (p₂.after ':') (ends_further (ms ++ back) rest)
    obtain ⟨p₄, htail⟩ := ih false p₃
    refine ⟨p₄, ?_⟩
    rw [Bool.false_and] at htail
    rw [List.isEmpty_cons, Bool.and_false, ← htail, List.length_cons,
      show ms.length + 1 + fuel = ms.length + fuel + 1 by omega]
    simp only [membersFrom, List.cons_append, readMembers, hkey, hname, hf, colon_cons, hvalue,
      Bool.false_eq_true, if_false]

/-- The members of a written object are read into the draft that they make up, up to the
    closing brace. -/
private theorem readMembers_of_gathers {fields : List (Field σ)} {depth : Depth}
    {draft final : σ} {ms : List (String × Json)} (h : Gathers fields depth draft ms final)
    {fuel : Nat} (hfuel : ms.length < fuel) (rest : List Char) (p : Position) :
    ∃ p', readMembers fields depth fuel true draft ⟨memberChars ms ++ '\x7d' :: rest, p⟩ =
      .ok (final, ⟨'\x7d' :: rest, p'⟩) := by
  obtain ⟨k, rfl⟩ : ∃ k, fuel = ms.length + (k + 1) := ⟨fuel - ms.length - 1, by omega⟩
  obtain ⟨p', hp⟩ := readMembers_append h [] (k + 1) true rest p
  rw [List.append_nil, membersFrom, if_pos rfl] at hp
  refine ⟨p', ?_⟩
  rw [hp]
  simp only [membersFrom, memberChars, furtherChars, ite_self, List.nil_append, readMembers,
    nextKey?, skipSpaces_cons (show isSpace '\x7d' = false by decide)]

/-- The reading of members fails where the reader of a field does. -/
private theorem readMembers_of_stops {fields : List (Field σ)} {depth : Depth} {draft next : σ}
    {front : List (String × Json)} {name : String} {j : Json} {f : Field σ}
    (h : Gathers fields depth draft front next) (hf : findField name fields = some f)
    (hnew : f.filled next = false) (hread : Gives (f.read next depth) j.chars none) {fuel : Nat}
    (hfuel : front.length < fuel) (back : List (String × Json)) (rest : List Char)
    (p : Position) :
    ∃ e, readMembers fields depth fuel true draft
      ⟨memberChars (front ++ (name, j) :: back) ++ '\x7d' :: rest, p⟩ = .error e := by
  obtain ⟨k, rfl⟩ : ∃ k, fuel = front.length + (k + 1) := ⟨fuel - front.length - 1, by omega⟩
  -- the members in front are gathered, and then the value of this one is not read
  obtain ⟨p₁, hfront⟩ := readMembers_append h ((name, j) :: back) (k + 1) true rest p
  rw [membersFrom, if_pos rfl] at hfront
  obtain ⟨p₂, hkey⟩ :=
    nextKey?_member (true && front.isEmpty) name j back ('\x7d' :: rest) p₁
  obtain ⟨p₃, hname⟩ := string_stringChars name
    (':' :: (j.chars ++ (furtherChars back ++ '\x7d' :: rest))) p₂
  obtain ⟨e, hvalue⟩ := hread _ (p₃.after ':') (ends_further back rest)
  refine ⟨e, ?_⟩
  rw [hfront]
  simp only [membersFrom, readMembers, hkey, hname, hf, hnew, colon_cons, hvalue,
    Bool.false_eq_true, if_false]

/-- A written object starts with its brace. -/
theorem chars_object_append (ms : List (String × Json)) (rest : List Char) :
    chars (.object ms) ++ rest = '\x7b' :: (memberChars ms ++ '\x7d' :: rest) := by
  simp [chars]

/-- Its text is long enough for all its members. -/
theorem length_lt_chars_object (ms : List (String × Json)) (rest : List Char) :
    ms.length < ('\x7b' :: (memberChars ms ++ '\x7d' :: rest)).length + 1 := by
  have hlen := length_le_memberChars ms
  simp only [List.length_cons, List.length_append]
  omega

/-- A record is read from a written object whose members make up its draft. -/
theorem reads_record {fields : List (Field σ)} {depth : Nat} {empty draft : σ}
    {ms : List (String × Json)} {finish : σ → Except Error α} {a : α}
    (h : Gathers fields depth empty ms draft) (hfinish : finish draft = .ok a)
    (hdepth : 0 < depth) (name : String) :
    Reads ((record name fields empty finish).read (depth + 1)) (chars (.object ms)) a := by
  intro rest p _
  -- there is a level left for the brace
  have hdeep : ¬ depth + 1 ≤ 1 := by omega
  obtain ⟨p', hp⟩ :=
    readMembers_of_gathers h (length_lt_chars_object ms rest) rest (p.after '\x7b')
  refine ⟨p'.after '\x7d', ?_⟩
  rw [chars_object_append]
  simp only [record, skipSpaces_cons (show isSpace '\x7b' = false by decide), if_neg hdeep, eat,
    Nat.add_sub_cancel, hp, hfinish, closeObject,
    skipSpaces_cons (show isSpace '\x7d' = false by decide)]

/-- A record is not read if the reader of a field fails at its member. -/
theorem gives_record_none {fields : List (Field σ)} {depth : Nat} {empty next : σ}
    {front back : List (String × Json)} {field : String} {j : Json} {f : Field σ}
    (h : Gathers fields depth empty front next) (hf : findField field fields = some f)
    (hnew : f.filled next = false) (hread : Gives (f.read next depth) j.chars none)
    (hdepth : 0 < depth) (name : String) (finish : σ → Except Error α) :
    Gives ((record name fields empty finish).read (depth + 1))
      (chars (.object (front ++ (field, j) :: back))) none := by
  intro rest p _
  have hdeep : ¬ depth + 1 ≤ 1 := by omega
  have hlength := length_lt_chars_object (front ++ (field, j) :: back) rest
  rw [List.length_append] at hlength
  have hfuel := Nat.lt_of_le_of_lt (Nat.le_add_right _ _) hlength
  -- the members in front are gathered, and the one that cannot be read stops the reading
  obtain ⟨e, he⟩ := readMembers_of_stops h hf hnew hread hfuel back rest (p.after '\x7b')
  refine ⟨e, ?_⟩
  rw [chars_object_append]
  simp only [record, skipSpaces_cons (show isSpace '\x7b' = false by decide), if_neg hdeep, eat,
    Nat.add_sub_cancel, he]

/-- A record, one field of which may fail, is read as what it is if the field is read. -/
theorem gives_record {β : Type} {fields : List (Field σ)} {depth : Nat} {empty next : σ}
    {front back : List (String × Json)} {field : String} {j : Json} {f : Field σ}
    {outcome : Option β} {after : β → σ} {finish : σ → Except Error α} {result : β → α}
    (hfront : Gathers fields depth empty front next) (hf : findField field fields = some f)
    (hnew : f.filled next = false) (hread : Gives (f.read next depth) j.chars (outcome.map after))
    (hback : ∀ b, ∃ draft, Gathers fields depth (after b) back draft ∧
      finish draft = .ok (result b)) (hdepth : 0 < depth) (name : String) :
    Gives ((record name fields empty finish).read (depth + 1))
      (chars (.object (front ++ (field, j) :: back))) (outcome.map result) := by
  -- only this member may fail, as those in front and behind are gathered
  cases outcome with
  | none => exact gives_record_none hfront hf hnew hread hdepth name finish
  | some b =>
    obtain ⟨draft, hdraft, hfinish⟩ := hback b
    exact reads_record (hfront.append (.field hf hnew hread hdraft)) hfinish hdepth name

/-! ### Records in documents -/

/-- What the members of an object that was read before do to the draft of a record, all of them
    being fields. -/
inductive Fills (fields : List (Field σ)) : σ → List (String × Json) → σ → Prop where
  | nil {draft : σ} : Fills fields draft [] draft
  | field {name : String} {j : Json} {rest : List (String × Json)} {f : Field σ}
    {draft next final : σ} (hf : findField name fields = some f) (hnew : f.filled draft = false)
    (hdecode : f.decode draft j = .ok next) (hrest : Fills fields next rest final) :
    Fills fields draft ((name, j) :: rest) final

theorem Fills.append {fields : List (Field σ)} {draft next final : σ}
    {front back : List (String × Json)} (hfront : Fills fields draft front next)
    (hback : Fills fields next back final) : Fills fields draft (front ++ back) final := by
  induction hfront with
  | nil => exact hback
  | field hf hnew hdecode _ ih => exact .field hf hnew hdecode (ih hback)

theorem Fills.decodeInto_eq {fields : List (Field σ)} {draft final : σ}
    {ms : List (String × Json)} (h : Fills fields draft ms final) :
    decodeInto fields draft ms = .ok final := by
  induction h with
  | nil => rfl
  | field hf hnew hdecode _ ih =>
    simp only [decodeInto, hf, hnew, hdecode, ih, Bool.false_eq_true, if_false]

theorem decode_field {codec : Codec α} {j : Json} {a : α} (h : codec.decode j = .ok a)
    (name : String) (get : σ → Option α) (set : σ → α → σ) (default? : Option α) (draft : σ) :
    (field name codec get set default?).decode draft j = .ok (set draft a) := by
  simp only [field, h, Except.map]

/-- A value that is not null is decoded where null is allowed. -/
theorem decode_optional {codec : Codec α} {j : Json} {a : α} (hj : j ≠ .null)
    (h : codec.decode j = .ok a) : (optional codec).decode j = .ok (some a) := by
  simp only [optional, h, Except.map]

/-- A record is decoded from an object whose members make up its draft. -/
theorem decode_record {fields : List (Field σ)} {empty draft : σ} {ms : List (String × Json)}
    {finish : σ → Except Error α} {a : α} (h : Fills fields empty ms draft)
    (hfinish : finish draft = .ok a) (name : String) :
    (record name fields empty finish).decode (.object ms) = .ok a := by
  simp only [record, h.decodeInto_eq, hfinish]

/-! ### Whole texts -/

/-- A whole text is read as what its reader reads. -/
theorem parse_of_reads {codec : Codec α} {j : Json} {a : α}
    (h : Reads (codec.read maxDepth) j.chars a) : codec.parse j.render = .ok a := by
  obtain ⟨p', hp⟩ := h [] {} ends_nil
  rw [List.append_nil] at hp
  have hend : Cursor.finish ⟨[], p'⟩ = .ok () := rfl
  simp only [parse, readAll, start, render, String.toList_ofList, hp, hend]

/-- A whole text is not read if its reader fails. -/
theorem parse_of_gives_none {codec : Codec α} {j : Json}
    (h : Gives (codec.read maxDepth) j.chars none) : ∃ e, codec.parse j.render = .error e := by
  obtain ⟨e, he⟩ := h [] {} ends_nil
  rw [List.append_nil] at he
  refine ⟨e, ?_⟩
  simp only [parse, readAll, start, render, String.toList_ofList, he]

/-- A whole text is read as a value if and only if that is the outcome of its reader. -/
theorem parse_eq_ok_iff {codec : Codec α} {j : Json} {outcome : Option α} {a : α}
    (h : Gives (codec.read maxDepth) j.chars outcome) :
    codec.parse j.render = .ok a ↔ outcome = some a := by
  cases outcome with
  | some b => rw [parse_of_reads h, Except.ok.injEq, Option.some.injEq]
  | none =>
    obtain ⟨e, he⟩ := parse_of_gives_none h
    rw [he]
    simp

end Codec

end CommandBus.Json
