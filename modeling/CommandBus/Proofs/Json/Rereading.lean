import Mathlib.Data.List.Forall2
import CommandBus.Proofs.Json.Grammar
import CommandBus.Proofs.Json.Numbers
import CommandBus.Proofs.Json.Order

/-!
# Reading back any document

What a document is read as from its text is built up like the document: strings, words and integers
are read as themselves, double precision numbers as their texts are read, lists and objects item by
item, as long as a level is left for their brackets.  So a document with its members in key order is
read as itself if and only if the same holds of all its numbers and the brackets are not too deep.

## Key results

- `yields_listBody`, `yields_objectBody`: lists and objects are read as their items are
- `reads_list`, `reads_entries`: written lists and objects of one type are read
- `gives_readValue`: what any document is read as
- `reread?_eq_some_self_iff`: which documents in key order are read as themselves
- `exists_gives_members`: which members of an object are read as themselves
- `parse_render_iff`: a document comes back from its text if and only if it is legible
-/

namespace CommandBus.Json

open Number Cursor
open Number.Binary64 (legible_iff)

/-! ## How texts begin -/

/-- A number starts with its sign or a digit. -/
theorem exists_cons_of_isNumber {cs : List Char} (h : IsNumber cs) :
    ∃ c rest, cs = c :: rest ∧ StartsInteger c := by
  obtain ⟨sign, whole, fraction, part, hsign, hwhole, -, -, rfl⟩ := h
  obtain ⟨d, ds, rfl⟩ := List.exists_cons_of_ne_nil hwhole.digits.nonempty
  obtain rfl | rfl := hsign
  · exact ⟨d, _, rfl, .inr (hwhole.digits.digits d List.mem_cons_self)⟩
  · exact ⟨'-', _, rfl, .inl rfl⟩

/-- No document starts with a blank or a closing bracket, and only null starts like it. -/
theorem exists_chars_cons (j : Json) : ∃ c rest,
    j.chars = c :: rest ∧ isSpace c = false ∧ c ≠ ']' ∧ (c = 'n' → j = .null) := by
  -- numbers start with a sign or a digit, and all others with a character of their own
  have hnumber : ∀ {cs}, IsNumber cs → j.chars = cs → ∃ c rest,
      j.chars = c :: rest ∧ isSpace c = false ∧ c ≠ ']' ∧ (c = 'n' → j = .null) := by
    rintro cs h rfl
    obtain ⟨c, rest, heq, hc⟩ := exists_cons_of_isNumber h
    refine ⟨c, rest, heq, hc.isSpace, hc.ne (by decide) (by decide), fun hn => ?_⟩
    exact absurd hn (hc.ne (by decide) (by decide))
  cases j with
  | null => exact ⟨_, _, rfl, by decide, by decide, fun _ => rfl⟩
  | bool b => cases b <;> exact ⟨_, _, rfl, by decide, by decide, fun h => absurd h (by decide)⟩
  | integer n => exact hnumber (isNumber_intText n.value) (by rw [chars])
  | double x => exact hnumber x.isNumber_jsonChars (by rw [chars])
  | string s =>
    exact ⟨_, _, by rw [chars]; rfl, by decide, by decide, fun h => absurd h (by decide)⟩
  | array items =>
    exact ⟨_, _, by rw [chars], by decide, by decide, fun h => absurd h (by decide)⟩
  | object members =>
    exact ⟨_, _, by rw [chars], by decide, by decide, fun h => absurd h (by decide)⟩

/-! ## Lists -/

section Bodies

variable {α : Type} {item : Cursor → Except Error (α × Cursor)} {outcome : Json → Option α}

/-- The items of a written list, from the first one on or from the comma behind it. -/
def itemsFrom : (first : Bool) → List Json → List Char
  | _, [] => []
  | true, j :: rest => j.chars ++ itemsFrom false rest
  | false, j :: rest => ',' :: (j.chars ++ itemsFrom false rest)

theorem itemChars_eq_itemsFrom (items : List Json) : itemChars items = itemsFrom true items := by
  induction items with
  | nil => rfl
  | cons j rest ih =>
    cases rest with
    | nil => simp [itemChars, itemsFrom]
    | cons k rest => simp [itemChars, itemsFrom, ih]

private theorem ends_itemsFrom (items : List Json) (rest : List Char) :
    Ends (itemsFrom false items ++ ']' :: rest) := by
  cases items with
  | nil => exact ends_bracket rest
  | cons j items => exact ends_comma _

private theorem length_le_itemsFrom (first : Bool) (items : List Json) :
    items.length ≤ (itemsFrom first items).length := by
  induction items generalizing first with
  | nil => exact Nat.zero_le _
  | cons j rest ih =>
    obtain ⟨c, cs, hj, -⟩ := exists_chars_cons j
    have hrest := ih false
    cases first <;> simp only [itemsFrom, hj, List.length_cons, List.length_append] <;> omega

/-- The cursor finds the next item, behind a comma unless it is the first one. -/
private theorem nextItem?_itemsFrom (first : Bool) (j : Json) (items : List Json)
    (rest : List Char) (p : Position) :
    ∃ p', nextItem? first ⟨itemsFrom first (j :: items) ++ rest, p⟩ =
      .ok (some ⟨j.chars ++ (itemsFrom false items ++ rest), p'⟩) := by
  obtain ⟨c, cs, hj, hspace, hbracket, -⟩ := exists_chars_cons j
  -- the first item stands behind the bracket, and every other one behind a comma
  cases first with
  | true =>
    refine ⟨p, ?_⟩
    rw [itemsFrom, List.append_assoc, hj, List.cons_append]
    simp only [nextItem?, skipSpaces_cons hspace]
    split
    · next heq => exact nomatch heq
    · next heq => exact absurd (List.cons.inj heq).1 hbracket
    · rfl
    · rfl
  | false =>
    refine ⟨p.after ',', ?_⟩
    rw [itemsFrom, List.cons_append, List.append_assoc, hj, List.cons_append]
    simp only [nextItem?, skipSpaces_cons (show isSpace ',' = false by decide),
      Bool.false_eq_true, if_false, eat, skipSpaces_cons hspace]
    split
    · next heq => exact nomatch heq
    · next heq => exact absurd (List.cons.inj heq).1 hbracket
    · rfl

/-- The items of a written list are read one by one, up to the first one that is not read. -/
theorem yields_listBody {items : List Json}
    (h : ∀ j ∈ items, Gives item j.chars (outcome j)) {fuel : Nat} (hfuel : items.length < fuel)
    (first : Bool) (rest : List Char) (p : Position) :
    Yields (listBody item fuel first ⟨itemsFrom first items ++ ']' :: rest, p⟩) rest
      (items.mapM outcome) := by
  induction items generalizing fuel first p with
  | nil =>
    obtain ⟨fuel, rfl⟩ : ∃ k, fuel = k + 1 := ⟨fuel - 1, by omega⟩
    have hbracket : isSpace ']' = false := by decide
    rw [itemsFrom, List.nil_append, List.mapM_nil]
    refine ⟨p.after ']', ?_⟩
    simp only [listBody, nextItem?, skipSpaces_cons hbracket, closeList, eat]
  | cons j items ih =>
    rw [List.length_cons] at hfuel
    obtain ⟨fuel, rfl⟩ : ∃ k, fuel = k + 1 := ⟨fuel - 1, by omega⟩
    obtain ⟨hj, hitems⟩ := List.forall_mem_cons.1 h
    obtain ⟨p₁, hnext⟩ := nextItem?_itemsFrom first j items (']' :: rest) p
    rw [List.mapM_cons]
    -- either the item is not read, or one behind it, or all of them are
    obtain ⟨e, he, hout⟩ | ⟨a, p₂, hp, hout⟩ := (hj _ p₁ (ends_itemsFrom items rest)).cases
    · rw [hout]
      exact ⟨e, by simp only [listBody, hnext, he]⟩
    · have hbehind := ih hitems (Nat.lt_of_succ_lt_succ hfuel) false p₂
      obtain ⟨e, he, hrest⟩ | ⟨as, p₃, hp', hrest⟩ := hbehind.cases
      · rw [hout, hrest]
        exact ⟨e, by simp only [listBody, hnext, hp, he]⟩
      · rw [hout, hrest]
        exact ⟨p₃, by simp only [listBody, hnext, hp, hp']⟩

/-! ## Objects -/

open Codec (membersFrom furtherChars nextKey?_member colon_cons ends_further)

/-- The outcome for a member: its value is read under its name. -/
def memberOutcome (outcome : Json → Option α) (m : String × Json) : Option (String × α) :=
  (outcome m.2).map fun a => (m.1, a)

/-- The members of a written object are read one by one, up to the first one that is not read. -/
theorem yields_objectBody {ms : List (String × Json)}
    (h : ∀ m ∈ ms, Gives item m.2.chars (outcome m.2)) {fuel : Nat} (hfuel : ms.length < fuel)
    (first : Bool) (rest : List Char) (p : Position) :
    Yields (objectBody item fuel first ⟨membersFrom first ms ++ '\x7d' :: rest, p⟩) rest
      (ms.mapM (memberOutcome outcome)) := by
  induction ms generalizing fuel first p with
  | nil =>
    obtain ⟨fuel, rfl⟩ : ∃ k, fuel = k + 1 := ⟨fuel - 1, by omega⟩
    have hbrace : isSpace '\x7d' = false := by decide
    rw [List.mapM_nil]
    refine ⟨p.after '\x7d', ?_⟩
    simp only [membersFrom, memberChars, furtherChars, ite_self, List.nil_append, objectBody,
      nextKey?, skipSpaces_cons hbrace, closeObject, eat]
  | cons m ms ih =>
    obtain ⟨name, j⟩ := m
    rw [List.length_cons] at hfuel
    obtain ⟨fuel, rfl⟩ : ∃ k, fuel = k + 1 := ⟨fuel - 1, by omega⟩
    obtain ⟨hj, hms⟩ := List.forall_mem_cons.1 h
    -- the comma in front of all members but the first, then the name
    obtain ⟨p₁, hkey⟩ := nextKey?_member first name j ms ('\x7d' :: rest) p
    obtain ⟨p₂, hname⟩ := string_stringChars name
      (':' :: (j.chars ++ (furtherChars ms ++ '\x7d' :: rest))) p₁
    rw [List.mapM_cons, memberOutcome, membersFrom]
    -- the value of this member fails, or one behind it does, or none of them
    obtain ⟨e, he, hout⟩ | ⟨a, p₃, hp, hout⟩ :=
      (hj _ (p₂.after ':') (ends_further ms rest)).cases
    · rw [hout]
      exact ⟨e, by simp only [objectBody, hkey, hname, colon_cons, he]⟩
    · have hbehind := ih hms (Nat.lt_of_succ_lt_succ hfuel) false p₃
      rw [membersFrom, if_neg Bool.false_ne_true] at hbehind
      obtain ⟨e, he, hrest⟩ | ⟨as, p₄, hp', hrest⟩ := hbehind.cases
      · rw [hout, hrest]
        exact ⟨e, by simp only [objectBody, hkey, hname, colon_cons, hp, he]⟩
      · rw [hout, hrest]
        exact ⟨p₄, by simp only [objectBody, hkey, hname, colon_cons, hp, hp']⟩

end Bodies

/-! ## Lists and objects of one type -/

/-- A list of outcomes is there if each of them is. -/
private theorem mapM_eq_some_iff {α β : Type} {f : α → Option β} {as : List α} {bs : List β} :
    as.mapM f = some bs ↔ List.Forall₂ (fun a b => f a = some b) as bs := by
  induction as generalizing bs with
  | nil => simp [eq_comm]
  | cons a as ih =>
    rw [List.mapM_cons]
    cases bs with
    | nil => simp [Option.bind_eq_some_iff]
    | cons b bs => simp [Option.bind_eq_some_iff, ← ih]

namespace Codec

variable {α : Type} {codec : Codec α} {outcome : Json → Option α} {depth : Depth}

theorem gives_list (hdepth : 1 < depth) {items : List Json}
    (h : ∀ j ∈ items, Gives (codec.read (depth - 1)) j.chars (outcome j)) :
    Gives ((Codec.list codec).read depth) (chars (.array items)) (items.mapM outcome) := by
  intro rest p _
  have htext : chars (.array items) ++ rest = '[' :: (itemsFrom true items ++ ']' :: rest) := by
    simp [chars, itemChars_eq_itemsFrom]
  -- the fuel is the length of the text, and every item takes at least one character
  have hfuel : items.length < ('[' :: (itemsFrom true items ++ ']' :: rest)).length + 1 := by
    have hlen := length_le_itemsFrom true items
    simp only [List.length_cons, List.length_append]
    omega
  rw [htext]
  simp only [Codec.list, skipSpaces_cons (show isSpace '[' = false by decide),
    if_neg (Nat.not_le_of_lt hdepth), eat]
  exact yields_listBody h hfuel true rest _

theorem gives_entries (hdepth : 1 < depth) {ms : List (String × Json)}
    (h : ∀ m ∈ ms, Gives (codec.read (depth - 1)) m.2.chars (outcome m.2)) :
    Gives ((Codec.entries codec).read depth) (chars (.object ms))
      ((ms.mapM (memberOutcome outcome)).map SortedEntries.ofList) := by
  intro rest p _
  rw [chars_object_append]
  simp only [Codec.entries, skipSpaces_cons (show isSpace '\x7b' = false by decide),
    if_neg (Nat.not_le_of_lt hdepth), eat]
  exact (yields_objectBody h (length_lt_chars_object ms rest) true rest _).map _

/-- What a document is decoded as, if it is. -/
private def decode? (codec : Codec α) (j : Json) : Option α := (codec.decode j).toOption

section Written

variable {f : α → Json} (hf : ∀ a, codec.decode (f a) = .ok a)
include hf

theorem decode_list (as : List α) : (list codec).decode (.array (as.map f)) = .ok as := by
  show (as.map f).mapM codec.decode = .ok as
  induction as with
  | nil => rfl
  | cons a as ih =>
    rw [List.map_cons, List.mapM_cons, hf, ih]
    rfl

private theorem decodeMembers_mapValues (as : Entries α) :
    decodeMembers codec (as.mapValues f) = .ok as := by
  induction as with
  | nil => rfl
  | cons e as ih =>
    obtain ⟨name, a⟩ := e
    rw [Entries.mapValues] at ih ⊢
    simp only [List.map_cons, decodeMembers, hf, ih]

theorem decode_entries (as : SortedEntries α) :
    (entries codec).decode (.object (Entries.mapValues f as.entries)) = .ok as := by
  show (decodeMembers codec (Entries.mapValues f as.entries)).map SortedEntries.ofList = .ok as
  rw [decodeMembers_mapValues hf, Except.map, as.ofList_entries]

private theorem decode?_eq (a : α) : codec.decode? (f a) = some a := by
  rw [decode?, hf, Except.toOption]

theorem reads_list (hdepth : 1 < depth) {as : List α}
    (h : ∀ a ∈ as, Reads (codec.read (depth - 1)) (f a).chars a) :
    Reads ((list codec).read depth) (chars (.array (as.map f))) as := by
  have hitems : ∀ j ∈ as.map f, Gives (codec.read (depth - 1)) j.chars (codec.decode? j) := by
    intro j hj
    obtain ⟨a, ha, rfl⟩ := List.mem_map.1 hj
    rw [decode?_eq hf]
    exact h a ha
  have hlist : (as.map f).mapM codec.decode? = some as := by
    rw [mapM_eq_some_iff, List.forall₂_map_left_iff, List.forall₂_same]
    exact fun a _ => decode?_eq hf a
  rw [← gives_some_iff, ← hlist]
  exact gives_list hdepth hitems

theorem reads_entries (hdepth : 1 < depth) {as : SortedEntries α}
    (h : ∀ e ∈ as.entries, Reads (codec.read (depth - 1)) (f e.2).chars e.2) :
    Reads ((entries codec).read depth) (chars (.object (Entries.mapValues f as.entries))) as := by
  -- every member is read as the codec decodes it
  have hmembers : ∀ m ∈ Entries.mapValues f as.entries,
      Gives (codec.read (depth - 1)) m.2.chars (codec.decode? m.2) := by
    intro m hm
    obtain ⟨e, he, rfl⟩ := List.mem_map.1 hm
    rw [decode?_eq hf]
    exact h e he
  -- and decoded it is the member that was written
  have hobject : (Entries.mapValues f as.entries).mapM (memberOutcome codec.decode?) =
      some as.entries := by
    rw [mapM_eq_some_iff, Entries.mapValues, List.forall₂_map_left_iff, List.forall₂_same]
    intro e _
    simp only [memberOutcome, decode?_eq hf, Option.map_some]
  have hentries := gives_entries hdepth hmembers
  rwa [hobject, Option.map_some, as.ofList_entries] at hentries

end Written

end Codec

/-! ## Any document -/

/-- What a document is read as from its text, with so many levels left. -/
def reread? : Depth → Json → Option Json
  | 0, _ => none
  | depth + 1, .array items =>
    if depth = 0 then none else (items.mapM (reread? depth)).map .array
  | depth + 1, .object members =>
    if depth = 0 then none
    else (members.mapM (memberOutcome (reread? depth))).map fun ms => .object (Entries.ofList ms)
  | _ + 1, .double x => x.reread?
  | _ + 1, j => some j

/-- Where no bracket is, the reader of documents is the reader of scalars. -/
private theorem readValue_scalar {c : Char} (hspace : isSpace c = false) (hlist : c ≠ '[')
    (hobject : c ≠ '\x7b') (depth : Depth) (cs : List Char) (p : Position) :
    readValue (depth + 1) ⟨c :: cs, p⟩ = scalar ⟨c :: cs, p⟩ := by
  simp only [readValue, skipSpaces_cons hspace]
  split
  · next heq => exact absurd (List.cons.inj heq).1 hlist
  · next heq => exact absurd (List.cons.inj heq).1 hobject
  · rfl

/-- A number is read by the reader of numbers. -/
private theorem gives_readValue_number {cs : List Char} (hcs : IsNumber cs)
    {outcome : Option Json} (h : Gives Cursor.number cs outcome) (depth : Depth) :
    Gives (readValue (depth + 1)) cs outcome := by
  intro rest p hrest
  have hread := h rest p hrest
  obtain ⟨c, cs, rfl, hc⟩ := exists_cons_of_isNumber hcs
  rw [List.cons_append] at hread ⊢
  rw [readValue_scalar hc.isSpace (hc.ne (by decide) (by decide)) (hc.ne (by decide) (by decide)),
    scalar]
  -- the first character of a number is none of those that other scalars start with
  split
  · next heq => exact absurd heq (List.cons_ne_nil _ _)
  · next heq => exact absurd (List.cons.inj heq).1 (hc.ne (by decide) (by decide))
  · next heq => exact absurd (List.cons.inj heq).1 (hc.ne (by decide) (by decide))
  · next heq => exact absurd (List.cons.inj heq).1 (hc.ne (by decide) (by decide))
  · next heq => exact absurd (List.cons.inj heq).1 (hc.ne (by decide) (by decide))
  · next heq =>
    obtain ⟨rfl, rfl⟩ := List.cons.inj heq
    rw [if_pos hc.test]
    exact hread

/-- A list is read as a list of documents where a level is left for its bracket. -/
private theorem readValue_list {depth : Depth} (hdepth : depth ≠ 0) (cs : List Char)
    (p : Position) :
    readValue (depth + 1) ⟨'[' :: cs, p⟩ =
      ((Codec.list Codec.json).read (depth + 1) ⟨'[' :: cs, p⟩).map
        fun (items, c) => (.array items, c) := by
  have hlevel : ¬ depth + 1 ≤ 1 := fun h => hdepth (Nat.le_zero.1 (Nat.le_of_succ_le_succ h))
  simp only [readValue, Codec.list, Codec.json, Nat.add_sub_cancel,
    skipSpaces_cons (show isSpace '[' = false by decide), if_neg hdepth, if_neg hlevel]

/-- And so is an object. -/
private theorem readValue_entries {depth : Depth} (hdepth : depth ≠ 0) (cs : List Char)
    (p : Position) :
    readValue (depth + 1) ⟨'\x7b' :: cs, p⟩ =
      ((Codec.entries Codec.json).read (depth + 1) ⟨'\x7b' :: cs, p⟩).map
        fun (members, c) => (.object members.entries, c) := by
  have hlevel : ¬ depth + 1 ≤ 1 := fun h => hdepth (Nat.le_zero.1 (Nat.le_of_succ_le_succ h))
  simp only [readValue, Codec.entries, Codec.json, Nat.add_sub_cancel,
    skipSpaces_cons (show isSpace '\x7b' = false by decide), if_neg hdepth, if_neg hlevel]
  cases objectBody (readValue depth) (('\x7b' :: cs).length + 1) true (eat ⟨'\x7b' :: cs, p⟩) with
  | error e => rfl
  | ok read => rfl

/-- A document is read as what it is reread as. -/
theorem gives_readValue (depth : Depth) (j : Json) :
    Gives (readValue depth) j.chars (j.reread? depth) := by
  induction depth generalizing j with
  | zero => exact fun rest p _ => ⟨_, rfl⟩
  | succ depth ih =>
    cases j with
    | null => exact fun rest p _ => ⟨_, rfl⟩
    | bool b => cases b <;> exact fun rest p _ => ⟨_, rfl⟩
    -- numbers are read as their texts tell, integers exactly
    | integer n =>
      have hnumber : Gives Cursor.number (intText n.value).toList (some (.integer n)) :=
        fun rest p hrest => number_intText n hrest p
      simpa only [chars, reread?] using
        gives_readValue_number (isNumber_intText n.value) hnumber depth
    | double x =>
      simpa only [chars, reread?] using
        gives_readValue_number x.isNumber_jsonChars x.gives_number_jsonChars depth
    | string s => exact reads_readValue_string depth s
    | array items =>
      intro rest p hrest
      rw [reread?]
      by_cases hdepth : depth = 0
      -- no level is left for what is in the list
      · rw [if_pos hdepth, chars, List.cons_append]
        simp only [readValue, skipSpaces_cons (show isSpace '[' = false by decide), if_pos hdepth]
        exact ⟨_, rfl⟩
      · have hitems : ∀ j ∈ items, Gives (Codec.json.read (depth + 1 - 1)) j.chars
            (j.reread? depth) := fun j _ => ih j
        -- one level is spent, and each item is read with the levels that are left
        have hlist := Codec.gives_list (Nat.succ_lt_succ (Nat.pos_of_ne_zero hdepth)) hitems
          rest p hrest
        rw [if_neg hdepth]
        rw [chars, List.cons_append] at hlist ⊢
        rw [readValue_list hdepth]
        exact hlist.map Json.array
    | object members =>
      intro rest p hrest
      rw [reread?]
      by_cases hdepth : depth = 0
      · rw [if_pos hdepth, chars, List.cons_append]
        simp only [readValue, skipSpaces_cons (show isSpace '\x7b' = false by decide),
          if_pos hdepth]
        exact ⟨_, rfl⟩
      · have hmembers : ∀ m ∈ members, Gives (Codec.json.read (depth + 1 - 1)) m.2.chars
            (m.2.reread? depth) := fun m _ => ih m.2
        have hentries := Codec.gives_entries (Nat.succ_lt_succ (Nat.pos_of_ne_zero hdepth))
          hmembers rest p hrest
        rw [if_neg hdepth]
        rw [chars, List.cons_append] at hentries ⊢
        rw [readValue_entries hdepth]
        have hmap := hentries.map fun ms => Json.object ms.entries
        -- the members are gathered in the order of their keys before they become a document
        rw [Option.map_map] at hmap
        exact hmap

/-! ## Documents that come back -/

/-- The document is legible with so many levels left: its double precision numbers are read as
    themselves, and its brackets leave a level. -/
def Legible : Depth → Json → Prop
  | 0, _ => False
  | depth + 1, .array items => depth ≠ 0 ∧ ∀ j ∈ items, j.Legible depth
  | depth + 1, .object members => depth ≠ 0 ∧ ∀ m ∈ members, m.2.Legible depth
  | _ + 1, .double x => x.legible = true
  | _ + 1, _ => True

instance Legible.decidable : (depth : Depth) → (j : Json) → Decidable (j.Legible depth)
  | 0, _ => .isFalse id
  | depth + 1, .array items =>
    have := Legible.decidable depth
    inferInstanceAs (Decidable (depth ≠ 0 ∧ ∀ j ∈ items, j.Legible depth))
  | depth + 1, .object members =>
    have := Legible.decidable depth
    inferInstanceAs (Decidable (depth ≠ 0 ∧ ∀ m ∈ members, m.2.Legible depth))
  | _ + 1, .double x => inferInstanceAs (Decidable (x.legible = true))
  | _ + 1, .null | _ + 1, .bool _ | _ + 1, .integer _ | _ + 1, .string _ => .isTrue trivial

/-- Members are read under their names. -/
private theorem keys_of_mapM {α : Type} {outcome : Json → Option α} {members : List (String × Json)}
    {ms : List (String × α)} (h : members.mapM (memberOutcome outcome) = some ms) :
    Entries.keys members = Entries.keys ms := by
  have hnames : List.Forall₂ (fun m m' => m.1 = m'.1) members ms :=
    (mapM_eq_some_iff.1 h).imp fun m m' hm => by
      obtain ⟨a, -, rfl⟩ := Option.map_eq_some_iff.1 hm
      rfl
  have hkeys := List.forall₂_map_left_iff.2 (List.forall₂_map_right_iff.2 hnames)
  rwa [List.forall₂_eq_eq_eq] at hkeys

/-- Members that are read of members in key order are in key order themselves. -/
private theorem sorted_of_mapM {α : Type} {outcome : Json → Option α}
    {members : List (String × Json)} {ms : List (String × α)} (hsorted : Entries.Sorted members)
    (h : members.mapM (memberOutcome outcome) = some ms) : Entries.Sorted ms :=
  hsorted.of_keys (keys_of_mapM h)

/-- A document in key order is read as itself if and only if it is legible. -/
theorem reread?_eq_some_self_iff {depth : Depth} {j : Json} (h : j.Ordered) :
    j.reread? depth = some j ↔ j.Legible depth := by
  induction depth generalizing j with
  | zero => simp [reread?, Legible]
  | succ depth ih =>
    cases j with
    | null => simp [reread?, Legible]
    | bool b => simp [reread?, Legible]
    | integer n => simp [reread?, Legible]
    | string s => simp [reread?, Legible]
    | double x => simp [reread?, Legible, legible_iff]
    | array items =>
      rw [reread?, Legible]
      by_cases hdepth : depth = 0
      · simp [hdepth]
      · rw [if_neg hdepth, and_iff_right hdepth]
        have hitems := ordered_array_iff.1 h
        -- the items of an ordered list are ordered, so that the induction is about each of them
        calc (items.mapM (reread? depth)).map Json.array = some (.array items)
            ↔ items.mapM (reread? depth) = some items := by simp
          _ ↔ ∀ j ∈ items, j.reread? depth = some j := by
            rw [mapM_eq_some_iff, List.forall₂_same]
          _ ↔ ∀ j ∈ items, j.Legible depth := forall₂_congr fun j hj => ih (hitems j hj)
    | object members =>
      rw [reread?, Legible]
      by_cases hdepth : depth = 0
      · simp [hdepth]
      · rw [if_neg hdepth, and_iff_right hdepth]
        obtain ⟨hsorted, hmembers⟩ := ordered_object_iff.1 h
        -- members that are read in the same order are read as they are
        have hself : (members.mapM (memberOutcome (reread? depth))).map
              (fun ms => Json.object (Entries.ofList ms)) = some (.object members) ↔
            members.mapM (memberOutcome (reread? depth)) = some members := by
          rw [Option.map_eq_some_iff]
          refine ⟨?_, fun hread => ⟨members, hread, by rw [hsorted.ofList_eq]⟩⟩
          rintro ⟨ms, hread, heq⟩
          have hms := (sorted_of_mapM hsorted hread).ofList_eq
          rwa [hms.symm.trans (Json.object.inj heq)] at hread
        calc (members.mapM (memberOutcome (reread? depth))).map
              (fun ms => Json.object (Entries.ofList ms)) = some (.object members)
            ↔ members.mapM (memberOutcome (reread? depth)) = some members := hself
          _ ↔ ∀ m ∈ members, m.2.reread? depth = some m.2 := by
            rw [mapM_eq_some_iff, List.forall₂_same]
            exact forall₂_congr fun m _ => by simp [memberOutcome, Prod.ext_iff]
          _ ↔ ∀ m ∈ members, m.2.Legible depth := forall₂_congr fun m hm => ih (hmembers m hm)

/-! ## Documents that are kept in key order -/

/-- What any document is read as is in key order. -/
theorem ordered_of_reread? {depth : Depth} {j read : Json} (h : j.reread? depth = some read) :
    read.Ordered := by
  have hgives := gives_readValue depth j
  rw [h] at hgives
  obtain ⟨p, hread⟩ := hgives [] {} ends_nil
  exact ordered_of_readValue hread

theorem decode_document (d : Document) : Codec.document.decode d.json = .ok d :=
  congrArg Except.ok d.ofJson_json

theorem gives_document (depth : Depth) (j : Json) :
    Gives (Codec.document.read depth) j.chars ((j.reread? depth).map .ofJson) :=
  gives_map (gives_readValue depth j) Document.ofJson

theorem map_ofJson_reread?_iff {depth : Depth} {d : Document} :
    (d.json.reread? depth).map Document.ofJson = some d ↔ d.json.Legible depth := by
  rw [← reread?_eq_some_self_iff d.ordered, Option.map_eq_some_iff]
  constructor
  · rintro ⟨read, hread, rfl⟩
    -- to keep what was read does not change it
    exact hread.trans (congrArg some (ordered_of_reread? hread).symm)
  · exact fun h => ⟨d.json, h, d.ofJson_json⟩

/-- The members of an object are decoded as themselves. -/
theorem decode_members (members : SortedEntries Document) :
    (Codec.entries .document).decode
      (.object (Entries.mapValues Document.json members.entries)) = .ok members :=
  Codec.decode_entries decode_document members

/-- The members of an object are read as themselves if and only if the object is legible. -/
theorem exists_gives_members {depth : Depth} (hdepth : depth ≠ 0)
    (members : SortedEntries Document) :
    let j : Json := .object (Entries.mapValues Document.json members.entries)
    ∃ outcome, Gives ((Codec.entries .document).read (depth + 1)) j.chars outcome ∧
      (outcome = some members ↔ j.Legible (depth + 1)) := by
  intro j
  let outcome (j : Json) : Option Document := (j.reread? depth).map .ofJson
  let ms : Entries Json := Entries.mapValues Document.json members.entries
  have hread : ∀ m ∈ ms, Gives (Codec.document.read (depth + 1 - 1)) m.2.chars (outcome m.2) :=
    fun m _ => gives_document depth m.2
  refine ⟨_, Codec.gives_entries (Nat.succ_lt_succ (Nat.pos_of_ne_zero hdepth)) hread, ?_⟩
  have hsorted : Entries.Sorted ms := (members.mapValues Document.json).sorted
  -- the order of the keys is kept, so that gathering them again changes nothing
  have hself : (ms.mapM (memberOutcome outcome)).map SortedEntries.ofList = some members ↔
      ms.mapM (memberOutcome outcome) = some members.entries := by
    rw [Option.map_eq_some_iff]
    refine ⟨?_, fun hms => ⟨members.entries, hms, members.ofList_entries⟩⟩
    rintro ⟨read, hms, rfl⟩
    rw [SortedEntries.entries_ofList, (sorted_of_mapM hsorted hms).ofList_eq]
    exact hms
  calc (ms.mapM (memberOutcome outcome)).map SortedEntries.ofList = some members
      ↔ ms.mapM (memberOutcome outcome) = some members.entries := hself
    _ ↔ ∀ e ∈ members.entries, outcome e.2.json = some e.2 := by
      rw [mapM_eq_some_iff]
      exact List.forall₂_map_left_iff.trans (List.forall₂_same.trans
        (forall₂_congr fun e _ => by simp [memberOutcome, Prod.ext_iff]))
    _ ↔ ∀ e ∈ members.entries, e.2.json.Legible depth :=
      forall₂_congr fun e _ => map_ofJson_reread?_iff
    _ ↔ j.Legible (depth + 1) := by
      rw [Legible, and_iff_right hdepth, Entries.mapValues, List.forall_mem_map]

/-- A document in key order comes back from its text if and only if it is legible. -/
theorem parse_render_iff (d : Document) :
    Json.parse d.json.render = .ok d.json ↔ d.json.Legible maxDepth := by
  have hgives : Gives (Codec.json.read maxDepth) d.json.chars (d.json.reread? maxDepth) :=
    gives_readValue maxDepth d.json
  rw [← reread?_eq_some_self_iff d.ordered]
  exact Codec.parse_eq_ok_iff hgives

end CommandBus.Json
