import CommandBus.Proofs.Text.Cutting
import CommandBus.User.Directory
import Mathlib.Data.List.Forall2

/-!
# The text form of users

Users are written as entries between semicolons, an entry as a name, a password and roles between
colons, and roles between bars.  Blanks may be put around entries and around roles, and entries of
nothing but blanks anywhere.  What was written so is read back: the blanks around an entry are
trimmed before the roles are cut, which takes blanks from the last role only, and they would have
been trimmed from it anyway.

A text of any other form is read as far as it goes, except for an entry without a colon or without
a name, the first of which is what the whole text fails with.

## Key results

- `pieces_written`: pieces that were written with blanks around them are found again
- `readEntry_written`: an entry that was written is read as the user that it is of
- `readEntry_eq_error_iff`: what is wrong with an entry that is not read
- `users_read_back`: users are read back, and texts fail as their first faulty entry
-/

namespace CommandBus

open Text

/-- A user as it is written down. -/
structure UserEntry where
  name : String
  password : String
  roles : List String

namespace UserEntry

/-- What the text form has room for. -/
structure Writable (u : UserEntry) : Prop where
  name_ne : u.name ≠ ""
  name_start : ∀ c, u.name.toList.head? = some c → isBlank c = false
  name_free : ';' ∉ u.name.toList ∧ ':' ∉ u.name.toList
  password_free : ';' ∉ u.password.toList ∧ ':' ∉ u.password.toList
  roles_ne : ∀ role ∈ u.roles, role ≠ ""
  roles_free : ∀ role ∈ u.roles, ';' ∉ role.toList ∧ '|' ∉ role.toList
  roles_tight : ∀ role ∈ u.roles, Tight role.toList

/-- A user was read as it was written down. -/
structure ReadAs (u : UserEntry) (record : UserRecord) : Prop where
  name : record.name = u.name
  password : record.accepts u.password = true
  /-- Another password is taken for it only if the two have one digest behind the salt. -/
  others : ∀ other, record.accepts other = true →
    UserRecord.digestOf record.salt other = UserRecord.digestOf record.salt u.password
  roles : ∀ role, role ∈ record.authorities ↔ role ∈ u.roles

/-- The record that is made of an entry, whatever the salt. -/
theorem readAs_make (u : UserEntry) (salt : Salt) :
    u.ReadAs (.make salt u.name u.password (AuthoritySet.ofList u.roles)) where
  name := rfl
  password := UserRecord.accepts_make _ _ _ _
  others _ hother := (eq_of_beq hother).symm
  roles _ := AuthoritySet.mem_ofList

/-- The text in front of the roles. -/
def head (u : UserEntry) : List Char := u.name.toList ++ ':' :: (u.password.toList ++ [':'])

end UserEntry

/-- A text with blanks around it. -/
def Padded (inner text : List Char) : Prop :=
  ∃ before after, (∀ c ∈ before, isBlank c = true) ∧ (∀ c ∈ after, isBlank c = true) ∧
    text = before ++ inner ++ after

/-- Roles with blanks around them and bars between them. -/
def RolesText (roles : List String) (text : List Char) : Prop :=
  ∃ texts, List.Forall₂ (fun role text => Padded role.toList text) roles texts ∧
    text = ['|'].intercalate texts

/-- An entry with blanks around it. -/
def EntryText (u : UserEntry) (text : List Char) : Prop :=
  ∃ roles, RolesText u.roles roles ∧ Padded (u.head ++ roles) text

/-- The entries of users in their order, with blank ones anywhere between them. -/
inductive EntryTexts : List UserEntry → List (List Char) → Prop where
  | nil : EntryTexts [] []
  | blank {users : List UserEntry} {texts : List (List Char)} {text : List Char}
    (hblank : ∀ c ∈ text, isBlank c = true) (h : EntryTexts users texts) :
    EntryTexts users (text :: texts)
  | entry {u : UserEntry} {users : List UserEntry} {texts : List (List Char)} {text : List Char}
    (hu : EntryText u text) (h : EntryTexts users texts) : EntryTexts (u :: users) (text :: texts)

/-- Users written down as a text. -/
def UsersText (users : List UserEntry) (text : String) : Prop :=
  ∃ texts, EntryTexts users texts ∧ text.toList = [';'].intercalate texts

namespace UserRecord

/-! ## Pieces -/

section Pieces

variable {sep : Char} {cs : List Char}

theorem pieces_append (sep : Char) (before after : List Char) :
    pieces sep (before ++ sep :: after) = pieces sep before ++ pieces sep after := by
  rw [pieces, splitOn_append, List.map_append, List.filter_append]
  rfl

/-- A text without a separator is one piece. -/
theorem pieces_of_not_mem (h : sep ∉ cs) :
    pieces sep cs = [trim cs].filter fun piece => !piece.isEmpty := by
  rw [pieces, splitOn_eq_singleton h, List.map_singleton]

/-- Blanks behind a text are not in its pieces. -/
theorem pieces_append_blanks (hsep : isBlank sep = false) {after : List Char}
    (hafter : ∀ c ∈ after, isBlank c = true) : pieces sep (cs ++ after) = pieces sep cs := by
  have hnot : sep ∉ after := fun h => by simp [hafter sep h] at hsep
  -- a last piece is trimmed, with more blanks or without
  have hlast : ∀ {last : List Char}, sep ∉ last → pieces sep (last ++ after) = pieces sep last := by
    intro last hfree
    obtain ⟨htight, before, behind, hbefore, hbehind, heq⟩ := trim_eq_iff.1 (rfl : trim last = _)
    have htrim : trim (last ++ after) = trim last := by
      refine trim_eq_iff.2 ⟨htight, before, behind ++ after, hbefore, fun c hc => ?_, ?_⟩
      · exact (List.mem_append.1 hc).elim (hbehind c) (hafter c)
      · rw [← List.append_assoc, ← heq]
    have hboth : sep ∉ last ++ after := fun h => (List.mem_append.1 h).elim hfree hnot
    rw [pieces_of_not_mem hboth, pieces_of_not_mem hfree, htrim]
  by_cases hmem : sep ∈ cs
  · -- only what is behind the last separator gets longer
    obtain ⟨last, front, hsplit, hfree⟩ := List.eq_append_cons_of_mem (List.mem_reverse.2 hmem)
    have hcs : cs = front.reverse ++ sep :: last.reverse := by
      rw [← List.reverse_inj, hsplit]
      simp
    have hfree' : sep ∉ last.reverse := by simpa using hfree
    rw [hcs, List.append_assoc, List.cons_append, pieces_append, pieces_append, hlast hfree']
  · exact hlast hmem

/-- Texts that were put together are the pieces, without the blanks around them. -/
theorem pieces_intercalate {texts : List (List Char)} (hfree : ∀ text ∈ texts, sep ∉ text) :
    pieces sep ([sep].intercalate texts) =
      (texts.map trim).filter fun piece => !piece.isEmpty := by
  by_cases htexts : texts = []
  · subst htexts
    simp [pieces, splitOn, trim, trimStart, trimEnd]
  · rw [pieces, splitOn_eq, List.splitOn_intercalate sep hfree htexts]

/-- Pieces that were written with blanks around them are found again. -/
theorem pieces_written {inner texts : List (List Char)}
    (h : List.Forall₂ (fun piece text => IsTrimmed text piece) inner texts)
    (hne : ∀ piece ∈ inner, piece ≠ []) (hfree : ∀ text ∈ texts, sep ∉ text) :
    pieces sep ([sep].intercalate texts) = inner := by
  have htrim : texts.map trim = inner := by
    clear hne hfree
    induction h with
    | nil => rfl
    | cons hpiece _ ih => rw [List.map_cons, trim_eq_iff.2 hpiece, ih]
  rw [pieces_intercalate hfree, htrim, List.filter_eq_self]
  intro piece hpiece
  simpa using hne piece hpiece

end Pieces

/-! ## Entries that were written -/

/-- A character that is not blank is in a text with blanks around it only if it was in the text. -/
theorem not_mem_of_padded {c : Char} {inner text : List Char} (h : Padded inner text)
    (hc : isBlank c = false) (hinner : c ∉ inner) : c ∉ text := by
  obtain ⟨before, after, hbefore, hafter, rfl⟩ := h
  intro hmem
  rw [List.mem_append, List.mem_append] at hmem
  rcases hmem with (hmem | hmem) | hmem
  · simp [hbefore c hmem] at hc
  · exact hinner hmem
  · simp [hafter c hmem] at hc

/-- Only the separator comes in between texts that are put together. -/
theorem not_mem_intercalate {c sep : Char} (hc : c ≠ sep) {texts : List (List Char)}
    (h : ∀ text ∈ texts, c ∉ text) : c ∉ [sep].intercalate texts := by
  induction texts with
  | nil => simp
  | cons text rest ih =>
    rw [List.forall_mem_cons] at h
    cases rest with
    | nil => simpa using h.1
    | cons other rest =>
      rw [List.intercalate_cons_cons]
      simp [h.1, hc, ih h.2]

/-- Blanks around an entry are trimmed, and those around its last role with them. -/
theorem trim_of_padded {front roles text : List Char} (hne : front ≠ []) (hfront : Tight front)
    (h : Padded (front ++ roles) text) {sep : Char} (hsep : isBlank sep = false) :
    ∃ rest, trim text = front ++ rest ∧ pieces sep rest = pieces sep roles := by
  obtain ⟨before, after, hbefore, hafter, rfl⟩ := h
  obtain ⟨c, cs, rfl⟩ := List.exists_cons_of_ne_nil hne
  have hstart : trimStart (before ++ (c :: cs ++ roles) ++ after) =
      c :: cs ++ (roles ++ after) := by
    rw [List.append_assoc, trimStart, List.dropWhile_append_of_pos hbefore, List.append_assoc]
    exact trimStart_eq_self (hfront.1 c rfl)
  refine ⟨trimEnd (roles ++ after), ?_, ?_⟩
  · rw [trim, hstart, trimEnd_append hfront.2]
  · obtain ⟨blanks, hblanks, heq⟩ := exists_trimEnd_append (roles ++ after)
    rw [← pieces_append_blanks hsep hblanks, heq, pieces_append_blanks hsep hafter]

/-- A character that is not blank is in roles that were written only if it was in a role. -/
theorem not_mem_roleTexts {roles : List String} {texts : List (List Char)}
    (h : List.Forall₂ (fun role text => Padded role.toList text) roles texts) {c : Char}
    (hc : isBlank c = false) (hfree : ∀ role ∈ roles, c ∉ role.toList) :
    ∀ text ∈ texts, c ∉ text := by
  induction h with
  | nil => exact List.forall_mem_nil _
  | cons hrole _ ih =>
    rw [List.forall_mem_cons] at hfree ⊢
    exact ⟨not_mem_of_padded hrole hc hfree.1, ih hfree.2⟩

/-- Roles that were written are cut apart again. -/
theorem pieces_roles {roles : List String} {text : List Char} (h : RolesText roles text)
    (hne : ∀ role ∈ roles, role ≠ "") (hfree : ∀ role ∈ roles, '|' ∉ role.toList)
    (htight : ∀ role ∈ roles, Tight role.toList) :
    pieces '|' text = roles.map String.toList := by
  obtain ⟨texts, htexts, rfl⟩ := h
  apply pieces_written
  -- blanks around a role are not part of it
  · rw [List.forall₂_map_left_iff]
    induction htexts with
    | nil => exact .nil
    | cons hrole _ ih =>
      rw [List.forall_mem_cons] at hne hfree htight
      exact .cons ⟨htight.1, hrole⟩ (ih hne.2 hfree.2 htight.2)
  -- no role is empty, so that no piece is dropped
  · intro piece hpiece
    obtain ⟨role, hrole, rfl⟩ := List.mem_map.1 hpiece
    simpa using hne role hrole
  · exact not_mem_roleTexts htexts rfl hfree

section Written

variable {u : UserEntry} (hu : u.Writable)

include hu

theorem tight_head : Tight u.head := by
  obtain ⟨c, cs, hname⟩ : ∃ c cs, u.name.toList = c :: cs :=
    List.exists_cons_of_ne_nil (by simpa using hu.name_ne)
  constructor
  · intro x hx
    rw [UserEntry.head, hname] at hx
    exact hu.name_start x (by rw [hname]; exact hx)
  · intro x hx
    have hend : u.head = (u.name.toList ++ ':' :: u.password.toList) ++ [':'] := by
      simp [UserEntry.head]
    rw [hend, List.getLast?_concat] at hx
    rw [← Option.some.inj hx]
    rfl

/-- An entry that was written is read as the user that it is of. -/
theorem readEntry_written {text : List Char} (h : EntryText u text) (salt : Salt) :
    trim text ≠ [] ∧ readEntry salt (trim text) =
      .ok (make salt u.name u.password (AuthoritySet.ofList u.roles)) := by
  obtain ⟨roles, hroles, hpadded⟩ := h
  have hhead : u.head ≠ [] := by simp [UserEntry.head]
  obtain ⟨rest, htrim, hpieces⟩ := trim_of_padded hhead (tight_head hu) hpadded
    (show isBlank '|' = false from rfl)
  have hbars : ∀ role ∈ u.roles, '|' ∉ role.toList := fun role hr => (hu.roles_free role hr).2
  -- the name ends at the first colon, and the password at the next one
  have hcut : cutOnce ':' (u.head ++ rest) =
      some (u.name.toList, u.password.toList ++ ':' :: rest) := by
    rw [UserEntry.head, List.append_assoc, List.cons_append, cutOnce_append hu.name_free.2]
    simp
  have hname : u.name.toList.isEmpty = false := by simpa using hu.name_ne
  rw [htrim]
  refine ⟨by simp [hhead], ?_⟩
  rw [readEntry, hcut]
  simp only [hname, cutOnce_append hu.password_free.2, Option.getD_some, hpieces,
    pieces_roles hroles hu.roles_ne hbars hu.roles_tight, List.map_map]
  simp [Function.comp_def]

/-- There is no semicolon in an entry that was written. -/
theorem not_mem_entry {text : List Char} (h : EntryText u text) : ';' ∉ text := by
  obtain ⟨roles, ⟨texts, htexts, rfl⟩, hpadded⟩ := h
  have hroles : ';' ∉ ['|'].intercalate texts :=
    not_mem_intercalate (by decide)
      (not_mem_roleTexts htexts rfl fun role hr => (hu.roles_free role hr).1)
  refine not_mem_of_padded hpadded rfl ?_
  simp [UserEntry.head, hu.name_free.1, hu.password_free.1, hroles]

end Written

/-- Entries that were written are read in their order, whatever the salts, and blank ones are
    passed over. -/
theorem readEntries_written {users : List UserEntry} {texts : List (List Char)}
    (hu : ∀ u ∈ users, u.Writable) (h : EntryTexts users texts) (salts : Nat → Salt)
    (index : Nat) :
    ∃ records, readEntries salts index
        ((texts.map trim).filter fun entry => !entry.isEmpty) = .ok records ∧
      List.Forall₂ UserEntry.ReadAs users records := by
  induction h generalizing index with
  | nil => exact ⟨[], rfl, .nil⟩
  | @blank users texts text hblank _ ih =>
    have htrim : trim text = [] := by
      have htight : Tight [] := ⟨nofun, nofun⟩
      simpa using trim_append hblank htight (List.forall_mem_nil _)
    rw [List.map_cons, htrim]
    exact ih hu index
  | @entry u users texts text hentry _ ih =>
    rw [List.forall_mem_cons] at hu
    obtain ⟨hne, hread⟩ := readEntry_written hu.1 hentry (salts index)
    -- the entries behind this one are read with the salts behind this one
    obtain ⟨records, hrest, hrecords⟩ := ih hu.2 (index + 1)
    refine ⟨_, ?_, .cons (u.readAs_make (salts index)) hrecords⟩
    rw [List.map_cons, List.filter_cons_of_pos (by simpa using hne), readEntries, hread, hrest]

/-- There is a semicolon in no entry, blank ones included. -/
theorem not_mem_entries {users : List UserEntry} {texts : List (List Char)}
    (hu : ∀ u ∈ users, u.Writable) (h : EntryTexts users texts) :
    ∀ text ∈ texts, ';' ∉ text := by
  induction h with
  | nil => exact List.forall_mem_nil _
  | blank hblank _ ih =>
    refine List.forall_mem_cons.2 ⟨fun hmem => ?_, ih hu⟩
    exact absurd (hblank _ hmem) (by decide)
  | entry hentry _ ih =>
    rw [List.forall_mem_cons] at hu ⊢
    exact ⟨not_mem_entry hu.1 hentry, ih hu.2⟩

/-- Users that were written down are read. -/
theorem readList_written {users : List UserEntry} {text : String}
    (hu : ∀ u ∈ users, u.Writable) (h : UsersText users text) (salts : Nat → Salt) :
    ∃ records, readList salts text = .ok records ∧
      List.Forall₂ UserEntry.ReadAs users records := by
  obtain ⟨texts, htexts, heq⟩ := h
  rw [readList, heq, pieces_intercalate (not_mem_entries hu htexts)]
  exact readEntries_written hu htexts salts 0

/-! ## Faulty entries -/

/-- What is wrong with an entry, once the blanks around it are trimmed. -/
inductive Fault : List Char → ConfigurationError → Prop where
  | noColon {entry : List Char} (hne : entry ≠ []) (h : ':' ∉ entry) :
    Fault entry (shapeError entry)
  | noName (rest : List Char) : Fault (':' :: rest) emptyNameError

/-- An entry is not read exactly if something is wrong with it. -/
theorem readEntry_eq_error_iff (salt : Salt) {entry : List Char} (hne : entry ≠ [])
    {e : ConfigurationError} : readEntry salt entry = .error e ↔ Fault entry e := by
  constructor
  · intro h
    unfold readEntry at h
    split at h
    -- without a colon there is no name to read, and with one the name may be empty
    · next hcut =>
      obtain rfl := Except.error.inj h
      exact .noColon hne (cutOnce_eq_none_iff.1 hcut)
    · next name rest hcut =>
      obtain ⟨rfl, -⟩ := eq_append_of_cutOnce hcut
      split at h
      · next hempty =>
        obtain rfl := Except.error.inj h
        rw [List.isEmpty_iff.1 hempty]
        exact .noName rest
      · exact nomatch h
  · rintro (⟨-, hcolon⟩ | rest)
    · rw [readEntry, cutOnce_eq_none_iff.2 hcolon]
    · rw [readEntry, ← List.nil_append (':' :: rest), cutOnce_append List.not_mem_nil]
      rfl

/-- Something is wrong with the entry in a text with blanks around it. -/
def Faulty (text : List Char) (e : ConfigurationError) : Prop :=
  ∃ entry, IsTrimmed text entry ∧ Fault entry e

theorem faulty_iff {text : List Char} {e : ConfigurationError} :
    Faulty text e ↔ Fault (trim text) e := by
  constructor
  · rintro ⟨entry, htrim, hfault⟩
    rwa [trim_eq_iff.2 htrim]
  · intro hfault
    exact ⟨trim text, trim_eq_iff.1 rfl, hfault⟩

/-- The first entry of a list with which something is wrong, and what it is. -/
inductive FirstFault : List (List Char) → ConfigurationError → Prop where
  | here {text : List Char} {rest : List (List Char)} {e : ConfigurationError}
    (h : Faulty text e) : FirstFault (text :: rest) e
  | later {text : List Char} {rest : List (List Char)} {e : ConfigurationError}
    (hfine : ∀ other, ¬Faulty text other) (h : FirstFault rest e) : FirstFault (text :: rest) e

section FirstFault

variable {text : List Char} {texts : List (List Char)} {e : ConfigurationError}

theorem firstFault_cons_of_fine (hfine : ∀ other, ¬Faulty text other) :
    FirstFault (text :: texts) e ↔ FirstFault texts e := by
  constructor
  · rintro (h | ⟨-, h⟩)
    · exact absurd h (hfine e)
    · exact h
  · exact .later hfine

theorem firstFault_cons_of_faulty {other : ConfigurationError} (hfaulty : Faulty text other) :
    FirstFault (text :: texts) e ↔ Faulty text e := by
  constructor
  · rintro (h | ⟨hfine, -⟩)
    · exact h
    · exact absurd hfaulty (hfine other)
  · exact .here

/-- There is a first fault where there is one at all. -/
theorem exists_firstFault_iff :
    (∃ e, FirstFault texts e) ↔ ∃ text ∈ texts, ∃ e, Faulty text e := by
  induction texts with
  | nil => exact ⟨fun ⟨_, h⟩ => (nomatch h), fun ⟨_, hmem, _⟩ => (nomatch hmem)⟩
  | cons text rest ih =>
    rw [List.exists_mem_cons_iff, ← ih]
    by_cases hfaulty : ∃ e, Faulty text e
    · obtain ⟨e, he⟩ := hfaulty
      exact iff_of_true ⟨e, .here he⟩ (.inl ⟨e, he⟩)
    · simp only [firstFault_cons_of_fine (not_exists.1 hfaulty), hfaulty, false_or]

/-- Nothing is wrong with a blank entry. -/
theorem not_faulty_of_blank (hblank : trim text = []) : ¬Faulty text e := by
  intro hfaulty
  rw [faulty_iff, hblank] at hfaulty
  cases hfaulty with
  | noColon hne _ => exact hne rfl

/-- Entries are not read exactly if something is wrong with one of them, and fail as the first. -/
theorem readEntries_eq_error_iff (salts : Nat → Salt) (index : Nat) :
    readEntries salts index ((texts.map trim).filter fun entry => !entry.isEmpty) = .error e ↔
      FirstFault texts e := by
  induction texts generalizing index with
  | nil => exact ⟨fun h => (nomatch h), fun h => (nomatch h)⟩
  | cons text rest ih =>
    rw [List.map_cons]
    -- a blank entry is skipped; any other one is faulty by itself, whatever salt it is read with
    by_cases hblank : trim text = []
    · rw [hblank, List.filter_cons_of_neg (by simp), ih,
        firstFault_cons_of_fine fun _ => not_faulty_of_blank hblank]
    · have hfaulty : ∀ other, readEntry (salts index) (trim text) = .error other ↔
          Faulty text other :=
        fun _ => (readEntry_eq_error_iff _ hblank).trans faulty_iff.symm
      rw [List.filter_cons_of_pos (by simpa using hblank), readEntries]
      cases hread : readEntry (salts index) (trim text) with
      | error other =>
        rw [firstFault_cons_of_faulty ((hfaulty other).1 hread), ← hfaulty, hread]
        simp
      | ok user =>
        rw [firstFault_cons_of_fine fun other h => by simpa [hread] using (hfaulty other).2 h,
          ← ih (index + 1)]
        cases readEntries salts (index + 1)
            ((rest.map trim).filter fun entry => !entry.isEmpty) with
        | error other => simp
        | ok users => simp

end FirstFault

/-- Users that were written down are read back, in their order and with their passwords and roles,
    whatever the salts that the passwords are digested with.  A text fails exactly if one of its
    entries has no colon or no name, and the error is that of the first such entry. -/
theorem users_read_back (salts : Nat → Salt) :
    (∀ (users : List UserEntry) (text : String), (∀ u ∈ users, u.Writable) →
      UsersText users text →
        ∃ records, readList salts text = .ok records ∧
          List.Forall₂ UserEntry.ReadAs users records) ∧
    ∀ text : String,
      (∀ e, readList salts text = .error e ↔ FirstFault (text.toList.splitOn ';') e) ∧
      ((∃ e, readList salts text = .error e) ↔
        ∃ entry ∈ text.toList.splitOn ';', ∃ e, Faulty entry e) := by
  constructor
  · intro users text hu h
    exact readList_written hu h salts
  · intro text
    -- the text is cut at semicolons, and the first faulty entry stops the reading
    have herror : ∀ e, readList salts text = .error e ↔ FirstFault (text.toList.splitOn ';') e := by
      intro e
      rw [readList, pieces, splitOn_eq, readEntries_eq_error_iff]
    refine ⟨herror, ?_⟩
    simp only [herror]
    exact exists_firstFault_iff

/-- A user with a role that has a colon in it, blanks at many places, and a user without a password
    and roles; and a text whose second and third entries are faulty. -/
theorem users_read_back_padded :
    let users : List UserEntry := [⟨"root", "p w", ["ROLE_ADMIN", "a:b"]⟩, ⟨"guest", "", []⟩]
    let text := " ;root:p w: ROLE_ADMIN |a:b\t;; guest:: "
    let salts (index : Nat) : Salt := .replicate 16 (UInt8.ofNat index)
    (∀ u ∈ users, u.Writable) ∧ UsersText users text ∧
      (∃ records, readList salts text = .ok records ∧
        List.Forall₂ UserEntry.ReadAs users records) ∧
      readList salts "ada:pw; nobody ;:pw" = .error (shapeError "nobody".toList) := by
  intro users text salts
  have hblank : ∀ {cs : List Char}, cs.all isBlank = true → ∀ c ∈ cs, isBlank c = true :=
    List.all_eq_true.1
  have htight : ∀ {cs : List Char}, cs.all (fun c => !isBlank c) = true → Tight cs := fun h =>
    tight_of_forall (by simpa using h)
  -- a colon may be part of a role, though not of a password
  have hroot : UserEntry.Writable ⟨"root", "p w", ["ROLE_ADMIN", "a:b"]⟩ :=
    { name_ne := by decide
      name_start := fun c hc => by simp at hc; subst hc; decide
      name_free := by decide
      password_free := by decide
      roles_ne := by decide
      roles_free := by decide
      roles_tight := List.forall_mem_cons.2 ⟨htight (by decide),
        List.forall_mem_singleton.2 (htight (by decide))⟩ }
  have hguest : UserEntry.Writable ⟨"guest", "", []⟩ :=
    { name_ne := by decide
      name_start := fun c hc => by simp at hc; subst hc; decide
      name_free := by decide
      password_free := by decide
      roles_ne := List.forall_mem_nil _
      roles_free := List.forall_mem_nil _
      roles_tight := List.forall_mem_nil _ }
  have hwritable : ∀ u ∈ users, u.Writable :=
    List.forall_mem_cons.2 ⟨hroot, List.forall_mem_singleton.2 hguest⟩
  -- the roles and the entries stand between blanks, and blank entries between them
  have hroles : RolesText ["ROLE_ADMIN", "a:b"] " ROLE_ADMIN |a:b".toList :=
    ⟨[" ROLE_ADMIN ".toList, "a:b".toList],
      .cons ⟨[' '], [' '], hblank rfl, hblank rfl, by decide⟩
        (.cons ⟨[], [], hblank rfl, hblank rfl, by decide⟩ .nil), by decide⟩
  have hentries : EntryTexts users
      [[' '], "root:p w: ROLE_ADMIN |a:b\t".toList, [], " guest:: ".toList] :=
    .blank (hblank rfl)
      (.entry ⟨_, hroles, [], ['\t'], hblank rfl, hblank rfl, by decide⟩
        (.blank (hblank rfl)
          (.entry ⟨_, ⟨[], .nil, rfl⟩, [' '], [' '], hblank rfl, hblank rfl, by decide⟩ .nil)))
  have htext : UsersText users text := ⟨_, hentries, by decide⟩
  refine ⟨hwritable, htext, (users_read_back salts).1 users text hwritable htext, ?_⟩
  rw [((users_read_back salts).2 _).1]
  -- the second entry of the other text has no colon
  have hnobody : Faulty " nobody ".toList (shapeError "nobody".toList) :=
    ⟨_, ⟨htight (by decide), [' '], [' '], hblank rfl, hblank rfl, by decide⟩,
      .noColon (by decide) (by decide)⟩
  refine .later (fun other h => ?_) (.here hnobody)
  rw [faulty_iff, ← readEntry_eq_error_iff (salts 0) (by decide)] at h
  exact nomatch h

end UserRecord

end CommandBus
