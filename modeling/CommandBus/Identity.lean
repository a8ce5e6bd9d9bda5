import CommandBus.Json.Codec
import CommandBus.Text.Quoted

/-! # Identities and their authorities

An `AuthoritySet` is a list of names in strictly ascending order, so that two sets with the
same members are equal (`AuthoritySet.ext_mem`).  An `Identity` is the name of a caller with
the authorities it holds.

* `AuthoritySet.mem_insert`, `AuthoritySet.mem_ofList`  what a set has after a write -/

namespace CommandBus

open Text

/-- A set of authorities (roles), in ascending order. -/
structure AuthoritySet where
  names : List String
  sorted : names.Pairwise (· < ·) := by simp
  deriving DecidableEq, Repr

namespace AuthoritySet

/-- Put a name at its place, once. -/
def insertName (name : String) : List String → List String
  | [] => [name]
  | n :: rest =>
    if name = n then n :: rest
    else if name < n then name :: n :: rest
    else n :: insertName name rest

theorem mem_insertName {name x : String} {names : List String} :
    x ∈ insertName name names ↔ x = name ∨ x ∈ names := by
  induction names with
  | nil => simp [insertName]
  | cons n rest ih =>
    simp only [insertName]
    split
    -- the name is put in front, found in place, or put into the rest
    · next h => subst h; simp
    · split
      · simp
      · simp only [List.mem_cons, ih]
        constructor
        · rintro (h | h | h) <;> simp [h]
        · rintro (h | h | h) <;> simp [h]

theorem pairwise_insertName {name : String} {names : List String}
    (h : names.Pairwise (· < ·)) : (insertName name names).Pairwise (· < ·) := by
  induction names with
  | nil => simp [insertName]
  | cons n rest ih =>
    obtain ⟨hn, hrest⟩ := List.pairwise_cons.1 h
    -- the name is there already, comes first, or goes somewhere behind the first one
    simp only [insertName]
    split
    · exact h
    · next hne =>
      split
      · next hlt =>
        refine List.pairwise_cons.2 ⟨fun x hx => ?_, h⟩
        rcases List.mem_cons.1 hx with rfl | hx
        · exact hlt
        · exact String.lt_trans hlt (hn x hx)
      · next hlt =>
        refine List.pairwise_cons.2 ⟨fun x hx => ?_, ih hrest⟩
        rcases mem_insertName.1 hx with rfl | hx
        · exact Entries.lt_of_not_lt hne hlt
        · exact hn x hx

/-- The set with one more name. -/
def insert (name : String) (s : AuthoritySet) : AuthoritySet :=
  ⟨insertName name s.names, pairwise_insertName s.sorted⟩

/-- The set without names. -/
def empty : AuthoritySet := ⟨[], by simp⟩

/-- The set of the names of a list. -/
def ofList (names : List String) : AuthoritySet := names.foldl (fun s n => s.insert n) empty

def contains (s : AuthoritySet) (name : String) : Bool := s.names.contains name

instance : Membership String AuthoritySet := ⟨fun s name => name ∈ s.names⟩

theorem mem_def {name : String} {s : AuthoritySet} : name ∈ s ↔ name ∈ s.names := Iff.rfl

theorem mem_insert {name x : String} {s : AuthoritySet} :
    x ∈ s.insert name ↔ x = name ∨ x ∈ s := mem_insertName

theorem mem_foldl_insert {x : String} {names : List String} {s : AuthoritySet} :
    x ∈ names.foldl (fun s n => s.insert n) s ↔ x ∈ names ∨ x ∈ s := by
  induction names generalizing s with
  | nil => simp
  | cons n rest ih =>
    rw [List.foldl_cons, ih, mem_insert, List.mem_cons]
    constructor
    · rintro (h | h | h) <;> simp [h]
    · rintro ((h | h) | h) <;> simp [h]

theorem mem_ofList {x : String} {names : List String} : x ∈ ofList names ↔ x ∈ names := by
  rw [ofList, mem_foldl_insert]
  simp [mem_def, empty]

/-- Sets with the same members are equal. -/
theorem ext_mem {s t : AuthoritySet} (h : ∀ x, x ∈ s ↔ x ∈ t) : s = t := by
  obtain ⟨xs, hxs⟩ := s
  obtain ⟨ys, hys⟩ := t
  simp only [mem_def] at h
  congr
  -- two ascending lists of the same members are the same list, name by name
  induction xs generalizing ys with
  | nil =>
    cases ys with
    | nil => rfl
    | cons y ys => exact absurd ((h y).2 List.mem_cons_self) (by simp)
  | cons x xs ih =>
    cases ys with
    | nil => exact absurd ((h x).1 List.mem_cons_self) (by simp)
    | cons y ys =>
      obtain ⟨hx, hxs'⟩ := List.pairwise_cons.1 hxs
      obtain ⟨hy, hys'⟩ := List.pairwise_cons.1 hys
      -- each first name is in the other list, and in front of all other names of its own
      have hxy : x = y := by
        rcases List.mem_cons.1 ((h x).1 List.mem_cons_self) with he | hm
        · exact he
        · rcases List.mem_cons.1 ((h y).2 List.mem_cons_self) with he | hm'
          · exact he.symm
          · exact absurd (String.lt_trans (hx y hm') (hy x hm)) (String.lt_irrefl x)
      subst hxy
      congr 1
      -- behind the first names the members are the same, for no name stands twice
      refine ih hxs' ys hys' fun z => ?_
      constructor
      · intro hz
        rcases List.mem_cons.1 ((h z).1 (List.mem_cons_of_mem _ hz)) with rfl | hm
        · exact absurd (hx z hz) (String.lt_irrefl z)
        · exact hm
      · intro hz
        rcases List.mem_cons.1 ((h z).2 (List.mem_cons_of_mem _ hz)) with rfl | hm
        · exact absurd (hy z hz) (String.lt_irrefl z)
        · exact hm

end AuthoritySet

/-- An authenticated caller. -/
structure Identity where
  name : String
  authorities : AuthoritySet
  deriving DecidableEq, Repr

namespace Identity

/-- The identity of a name and a list of authorities. -/
def make (name : String) (authorities : List String) : Identity :=
  ⟨name, AuthoritySet.ofList authorities⟩

def hasAuthority (i : Identity) (authority : String) : Bool := i.authorities.contains authority

/-- Whether at least one of the wanted authorities is held. -/
def hasAnyAuthority (i : Identity) (wanted : AuthoritySet) : Bool :=
  wanted.names.any i.hasAuthority

/-- The document of an identity. -/
def toJson (i : Identity) : Json :=
  .object [("name", .string i.name),
    ("authorities", .array (i.authorities.names.map Json.string))]

/-- The fields of an identity while it is read. -/
structure Draft where
  name : Option String := none
  authorities : Option (List String) := none

/-- How an identity is read. -/
def codec : Json.Codec Identity :=
  Json.Codec.record "Identity"
    [Json.Codec.field "name" .string Draft.name (fun d s => { d with name := some s }) none,
      Json.Codec.field "authorities" (.list .string) Draft.authorities
        (fun d xs => { d with authorities := some xs }) none]
    {}
    fun d =>
      match Json.Codec.required "name" d.name, Json.Codec.required "authorities" d.authorities with
      | .error e, _ => .error e
      | _, .error e => .error e
      | .ok name, .ok authorities => .ok (make name authorities)

/-- An authority as shown in a debug text. -/
def authorityText (name : String) : String := "Authority(" ++ quoted name ++ ")"

/-- What an identity shows of itself. -/
def debugText (i : Identity) : String :=
  recordText "Identity"
    [("name", quoted i.name), ("authorities", braced (i.authorities.names.map authorityText))] true

theorem hasAnyAuthority_iff {i : Identity} {wanted : AuthoritySet} :
    i.hasAnyAuthority wanted = true ↔ ∃ a, a ∈ wanted ∧ a ∈ i.authorities := by
  simp [hasAnyAuthority, hasAuthority, AuthoritySet.mem_def, AuthoritySet.contains]

end Identity

end CommandBus
