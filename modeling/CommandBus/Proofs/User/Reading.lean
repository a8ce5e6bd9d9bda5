import CommandBus.Proofs.Dispatch.Registration
import CommandBus.Proofs.History
import CommandBus.Proofs.Token.Claims
import CommandBus.User.Credentials

/-!
# Users that were read

The roles of a user that was read from a text are trimmed and not empty, but may have any other
characters in them.  A directory finds the last user of a name.

## Key results

- `plain_of_readList`: what is known of the roles of users that were read
- `find?_ofUsers_eq_some_iff`: what a directory finds under a name
- `authenticate_password`: the caller with a name and its password is the user
- `answered`: what becomes of any caller by its name and password
-/

namespace CommandBus

open Text

namespace UserRecord

/-- A piece of a text is trimmed and not empty. -/
private theorem tight_of_mem_pieces {sep : Char} {cs piece : List Char}
    (h : piece ∈ pieces sep cs) : piece ≠ [] ∧ Tight piece := by
  rw [pieces, List.mem_filter] at h
  obtain ⟨hmem, hne⟩ := h
  obtain ⟨whole, -, rfl⟩ := List.mem_map.1 hmem
  exact ⟨by simpa using hne, tight_trim whole⟩

/-- The roles of one entry are plain. -/
theorem plain_of_readEntry {salt : Salt} {cs : List Char} {u : UserRecord}
    (h : readEntry salt cs = .ok u) : u.identity.Plain := by
  unfold readEntry at h
  split at h
  · exact nomatch h
  · split at h
    · exact nomatch h
    · obtain rfl := Except.ok.inj h
      -- name and password are taken as they are, only the roles are cut and trimmed
      intro n hn
      obtain ⟨piece, hpiece, rfl⟩ := List.mem_map.1 (AuthoritySet.mem_ofList.1 hn)
      obtain ⟨hne, htight⟩ := tight_of_mem_pieces hpiece
      refine ⟨fun hempty => hne ?_, ?_⟩
      · rw [← String.toList_ofList (l := piece), hempty]
        rfl
      · rw [String.toList_ofList]
        exact htight

/-- The roles of all entries are plain. -/
private theorem plain_of_readEntries {salts : Nat → Salt} {index : Nat}
    {entries : List (List Char)} {users : List UserRecord}
    (h : readEntries salts index entries = .ok users) : ∀ u ∈ users, u.identity.Plain := by
  induction entries generalizing index users with
  | nil =>
    obtain rfl := Except.ok.inj h
    exact fun u hu => nomatch hu
  | cons entry rest ih =>
    unfold readEntries at h
    split at h
    · exact nomatch h
    · next u hentry =>
      split at h
      · exact nomatch h
      -- every user is made of one entry
      · next others hrest =>
        obtain rfl := Except.ok.inj h
        rw [List.forall_mem_cons]
        exact ⟨plain_of_readEntry hentry, ih hrest⟩

/-- The roles of users that were read from a text are trimmed and not empty. -/
theorem plain_of_readList {salts : Nat → Salt} {text : String} {users : List UserRecord}
    (h : readList salts text = .ok users) : ∀ u ∈ users, u.identity.Plain :=
  plain_of_readEntries h

end UserRecord

namespace UserDirectory

/-- What is found after users were added in turn. -/
private theorem find?_foldl_add (users : List UserRecord) (directory : UserDirectory)
    (name : String) :
    find? (users.foldl add directory) name =
      (users.reverse.find? fun u => u.name == name).or (directory.find? name) := by
  induction users generalizing directory with
  | nil => rfl
  | cons u rest ih =>
    rw [List.foldl_cons, ih, List.reverse_cons, List.find?_append, Option.or_assoc]
    congr 1
    -- the user that was added replaces one of its name and leaves all others
    by_cases hu : u.name = name
    · subst hu
      simp [find?, add]
    · have hb : (u.name == name) = false := by simpa using hu
      simp [find?, add, Entries.get?_insert_ne (Ne.symm hu), hb]

/-- A directory finds the last user of a name. -/
theorem find?_ofUsers (users : List UserRecord) (name : String) :
    (ofUsers users).find? name = users.reverse.find? fun u => u.name == name := by
  rw [ofUsers, find?_foldl_add, find?, Entries.get?_nil, Option.or_none]

/-- The user that a list has for a name: the last one of the name. -/
def LastOf (users : List UserRecord) (name : String) (u : UserRecord) : Prop :=
  ∃ before after, users = before ++ u :: after ∧ u.name = name ∧ ∀ v ∈ after, v.name ≠ name

/-- What a directory finds is the last user of the name. -/
theorem find?_ofUsers_eq_some_iff {users : List UserRecord} {name : String} {u : UserRecord} :
    (ofUsers users).find? name = some u ↔ LastOf users name u := by
  rw [find?_ofUsers]
  exact find?_reverse_eq_some_iff

theorem LastOf.mem {users : List UserRecord} {name : String} {u : UserRecord}
    (h : LastOf users name u) : u ∈ users :=
  LastOn.mem h

theorem LastOf.name {users : List UserRecord} {name : String} {u : UserRecord}
    (h : LastOf users name u) : u.name = name :=
  LastOn.about_eq h

/-- A user that is found is one of the users and has the name. -/
theorem mem_of_find?_ofUsers {users : List UserRecord} {name : String} {u : UserRecord}
    (h : (ofUsers users).find? name = some u) : u ∈ users ∧ u.name = name :=
  have hlast := find?_ofUsers_eq_some_iff.1 h
  ⟨hlast.mem, hlast.name⟩

/-- A name has one last user. -/
theorem LastOf.unique {users : List UserRecord} {name : String} {u v : UserRecord}
    (hu : LastOf users name u) (hv : LastOf users name v) : u = v :=
  LastOn.unique hu hv

/-- The credentials of a caller with a name and a password. -/
def credentials (name password : String) : Credentials :=
  .ofList [("password", password), ("username", name)]

/-- The caller with the name and the password of a user is the user. -/
theorem authenticate_password {directory : UserDirectory} {u : UserRecord}
    (hu : directory.find? u.name = some u) {password : String}
    (hpassword : u.accepts password = true) {ctx : Context}
    (hctx : ctx.credentials = some (credentials u.name password)) :
    Credential.presentedToken ctx = .ok none ∧
      directory.authenticate ctx = .ok (some u.identity) := by
  -- neither way to carry a token is used, so that the password is looked at
  have htoken : ctx.credential? Credential.token = none := by
    simp [Context.credential?, hctx, credentials, Entries.get?_ofList, Credential.token]
  have hbearer : ctx.credential? Credential.authorization = none := by
    simp [Context.credential?, hctx, credentials, Entries.get?_ofList, Credential.authorization]
  have hname : ctx.credential? Credential.username = some u.name := by
    simp [Context.credential?, hctx, credentials, Entries.get?_ofList, Credential.username]
  have hpw : ctx.credential? Credential.password = some password := by
    simp [Context.credential?, hctx, credentials, Entries.get?_ofList, Credential.password]
  constructor
  · rw [Credential.presentedToken, htoken]
    simp only [hbearer]
  · rw [authenticate, hname, hpw]
    simp only [hu, hpassword, if_true]

/-! ## Callers with a name and a password -/

open Credential

/-- The caller gives the name and the password of a user. -/
structure Knows (users : List UserRecord) (ctx : Context) (u : UserRecord) : Prop where
  user : LastOf users u.name u
  username : ctx.credential? username = some u.name
  password : ∃ given, ctx.credential? password = some given ∧ u.accepts given = true

/-- The caller gives one of name and password without the other. -/
def HalfGiven (ctx : Context) : Prop :=
  (ctx.credential? username).isSome ≠ (ctx.credential? password).isSome

/-- The caller gives a name and a password that no user has. -/
def Unmatched (users : List UserRecord) (ctx : Context) : Prop :=
  (ctx.credential? username).isSome = true ∧ (ctx.credential? password).isSome = true ∧
    ∀ u, ¬ Knows users ctx u

variable {users : List UserRecord} {ctx : Context}

/-- A caller knows one user at most. -/
theorem Knows.unique {u v : UserRecord} (hu : Knows users ctx u) (hv : Knows users ctx v) :
    u = v := by
  have hname : u.name = v.name := Option.some.inj (hu.username.symm.trans hv.username)
  have huser := hu.user
  rw [hname] at huser
  exact huser.unique hv.user

/-- To know a user takes both a name and a password. -/
theorem Knows.not_halfGiven {u : UserRecord} (hu : Knows users ctx u) : ¬ HalfGiven ctx := by
  obtain ⟨given, hgiven, -⟩ := hu.password
  intro hhalf
  exact hhalf (by rw [hu.username, hgiven]; rfl)

/-- What becomes of a caller by its name and password, in four cases that exclude each other. -/
inductive Answered (users : List UserRecord) (ctx : Context) : Authentication → Prop where
  | absent (hname : ctx.credential? username = none) (hgiven : ctx.credential? password = none) :
    Answered users ctx (.ok none)
  | half (h : HalfGiven ctx) (e : AuthenticationError) : Answered users ctx (.error e)
  | known {u : UserRecord} (hu : Knows users ctx u) : Answered users ctx (.ok (some u.identity))
  | unmatched (h : Unmatched users ctx) (e : AuthenticationError) : Answered users ctx (.error e)

/-- A directory answers in one of the four cases. -/
theorem answered (users : List UserRecord) (ctx : Context) :
    Answered users ctx ((ofUsers users).authenticate ctx) := by
  unfold authenticate
  cases hname : ctx.credential? username with
  | none =>
    cases hgiven : ctx.credential? password with
    | none => exact .absent hname hgiven
    | some given => exact .half (by simp [HalfGiven, hname, hgiven]) _
  | some name =>
    cases hgiven : ctx.credential? password with
    | none => exact .half (by simp [HalfGiven, hname, hgiven]) _
    | some given =>
      -- whoever is known has this name and this password
      have hknows : ∀ u, Knows users ctx u → LastOf users name u ∧ u.accepts given = true := by
        rintro u ⟨huser, husername, other, hother, haccepts⟩
        obtain rfl : name = u.name := Option.some.inj (hname.symm.trans husername)
        obtain rfl : given = other := Option.some.inj (hgiven.symm.trans hother)
        exact ⟨huser, haccepts⟩
      have hboth : (∀ u, ¬ Knows users ctx u) → Unmatched users ctx := fun hno =>
        ⟨by rw [hname]; rfl, by rw [hgiven]; rfl, hno⟩
      dsimp only
      cases huser : (ofUsers users).find? name with
      | none =>
        refine .unmatched (hboth fun u hu => ?_) _
        rw [find?_ofUsers_eq_some_iff.2 (hknows u hu).1] at huser
        exact nomatch huser
      | some u =>
        -- the record that is found is the last one of the name, so that no other can be known
        have hlast := find?_ofUsers_eq_some_iff.1 huser
        dsimp only
        split
        · next haccepts =>
          obtain rfl := hlast.name
          exact .known ⟨hlast, hname, given, hgiven, haccepts⟩
        · next hrejects =>
          refine .unmatched (hboth fun v hv => ?_) _
          obtain ⟨hsame, haccepts⟩ := hknows v hv
          rw [hlast.unique hsame] at hrejects
          exact hrejects haccepts

/-- A caller is found by name and password exactly if it knows those of a user, and is the user
    then, with all roles of the user and no others. -/
theorem authenticate_eq_some_iff {i : Identity} :
    (ofUsers users).authenticate ctx = .ok (some i) ↔ ∃ u, Knows users ctx u ∧ i = u.identity := by
  -- nothing is needed of the answer but which of the cases it is
  have h := answered users ctx
  generalize (ofUsers users).authenticate ctx = answer at h ⊢
  cases h with
  | absent hname hgiven =>
    simp only [Except.ok.injEq, reduceCtorEq, false_iff]
    rintro ⟨u, hu, -⟩
    rw [hu.username] at hname
    exact nomatch hname
  | half h e =>
    simp only [reduceCtorEq, false_iff]
    rintro ⟨u, hu, -⟩
    exact hu.not_halfGiven h
  | @known u hu =>
    simp only [Except.ok.injEq, Option.some.injEq]
    constructor
    · rintro rfl
      exact ⟨u, hu, rfl⟩
    · rintro ⟨v, hv, rfl⟩
      rw [hu.unique hv]
  | unmatched h e =>
    simp only [reduceCtorEq, false_iff]
    rintro ⟨u, hu, -⟩
    exact h.2.2 u hu

/-- Only a caller without a name and without a password is nobody. -/
theorem authenticate_eq_none_iff :
    (ofUsers users).authenticate ctx = .ok none ↔
      ctx.credential? username = none ∧ ctx.credential? password = none := by
  have h := answered users ctx
  generalize (ofUsers users).authenticate ctx = answer at h ⊢
  -- half of the credentials is an error, and so are two that fit nobody
  cases h with
  | absent hname hgiven => simp only [hname, hgiven, and_self]
  | half h e =>
    simp only [reduceCtorEq, false_iff]
    rintro ⟨hname, hgiven⟩
    exact h (by rw [hname, hgiven])
  | known hu => simp [hu.username]
  | unmatched h e =>
    simp only [reduceCtorEq, false_iff]
    rintro ⟨hname, -⟩
    simpa [hname] using h.1

/-- A name and a password are in error exactly if one of them is missing or no user has both. -/
theorem authenticate_error_iff :
    (∃ e, (ofUsers users).authenticate ctx = .error e) ↔ HalfGiven ctx ∨ Unmatched users ctx := by
  have h := answered users ctx
  generalize (ofUsers users).authenticate ctx = answer at h ⊢
  cases h with
  | absent hname hgiven => simp [HalfGiven, Unmatched, hname, hgiven]
  | half h e => exact ⟨fun _ => .inl h, fun _ => ⟨e, rfl⟩⟩
  | known hu =>
    simp only [reduceCtorEq, exists_false, false_iff]
    rintro (h | h)
    · exact hu.not_halfGiven h
    · exact h.2.2 _ hu
  | unmatched h e => exact ⟨fun _ => .inr h, fun _ => ⟨e, rfl⟩⟩

end UserDirectory

end CommandBus
