/-! # Entries by name

A finite map with string keys is a list of entries in ascending key order, the order of
code points.  `insert` keeps the order and replaces the entry of an equal key, so that
the last of several writes remains.

* `get?_insert_self`, `get?_insert_ne`  what a write changes and what it leaves
* `get?_ofList`                         the last of several writes remains
* `Sorted.insert`, `sorted_ofList`      the order is kept
* `Sorted.ofList_eq`                    entries in order are written as they are

`SortedEntries` are entries together with their order.  What is listed or written in the order
of its keys, such as commands, credentials and parameters, is kept as this type, so that nobody
has to ask for the order again; what is only looked up is left bare.  Inside of documents and
values entries are bare, too: a constructor of a tree cannot mention the order of the branches
that it is given, so that there the order is a property of the whole tree. -/

namespace CommandBus

universe u v

/-- A finite map as the list of its entries. -/
abbrev Entries (α : Type u) := List (String × α)

namespace Entries

variable {α : Type u} {β : Type v}

/-- The keys ascend strictly. -/
def Sorted (entries : Entries α) : Prop := entries.Pairwise fun a b => a.1 < b.1

/-- The value of the first entry with a key. -/
def get? (key : String) : Entries α → Option α
  | [] => none
  | (k, v) :: rest => if k = key then some v else get? key rest

/-- Whether there is an entry with a key. -/
def hasKey (key : String) (entries : Entries α) : Bool := (get? key entries).isSome

/-- Write an entry at its place in the order. -/
def insert (key : String) (value : α) : Entries α → Entries α
  | [] => [(key, value)]
  | (k, v) :: rest =>
    if key = k then (key, value) :: rest
    else if key < k then (key, value) :: (k, v) :: rest
    else (k, v) :: insert key value rest

/-- Drop the entries with a key. -/
def erase (key : String) (entries : Entries α) : Entries α :=
  entries.filter fun e => e.1 != key

/-- Write the entries of a list in turn, the last one of a key remaining. -/
def ofList (entries : List (String × α)) : Entries α :=
  entries.foldl (fun m e => insert e.1 e.2 m) []

def keys (entries : Entries α) : List String := entries.map (·.1)

def values (entries : Entries α) : List α := entries.map (·.2)

def mapValues (f : α → β) (entries : Entries α) : Entries β := entries.map fun (k, v) => (k, f v)

@[simp] theorem get?_nil (key : String) : get? key ([] : Entries α) = none := rfl

@[simp] theorem get?_cons (key k : String) (v : α) (rest : Entries α) :
    get? key ((k, v) :: rest) = if k = key then some v else get? key rest := rfl

@[simp] theorem get?_insert_self (key : String) (value : α) (entries : Entries α) :
    get? key (insert key value entries) = some value := by
  induction entries with
  | nil => simp [insert]
  | cons e rest ih =>
    obtain ⟨k, v⟩ := e
    simp only [insert]
    split
    · simp
    · split
      · simp
      · next h _ => simp [Ne.symm h, ih]

theorem get?_insert_ne {key other : String} (h : other ≠ key) (value : α) (entries : Entries α) :
    get? other (insert key value entries) = get? other entries := by
  induction entries with
  | nil => simp [insert, Ne.symm h]
  | cons e rest ih =>
    obtain ⟨k, v⟩ := e
    simp only [insert]
    split
    · next hk => subst hk; simp [Ne.symm h]
    · split
      · simp [Ne.symm h]
      · simp [ih]

theorem get?_mapValues (f : α → β) (key : String) (entries : Entries α) :
    get? key (mapValues f entries) = (get? key entries).map f := by
  induction entries with
  | nil => rfl
  | cons e rest ih =>
    obtain ⟨k, v⟩ := e
    simp only [mapValues, List.map_cons, get?_cons] at ih ⊢
    split
    · rfl
    · exact ih

/-- After several writes a key has the value of the last write of it. -/
theorem get?_foldl_insert (key : String) (writes : List (String × α)) (entries : Entries α) :
    get? key (writes.foldl (fun m e => insert e.1 e.2 m) entries) =
      ((writes.reverse.find? fun e => e.1 == key).map Prod.snd).or (get? key entries) := by
  induction writes generalizing entries with
  | nil => rfl
  | cons e rest ih =>
    rw [List.foldl_cons, ih, List.reverse_cons, List.find?_append, Option.map_or, Option.or_assoc,
      List.find?_singleton]
    -- what is left is the one write, with the later ones and the base apart from it
    congr 1
    by_cases h : e.1 = key
    · rw [h, get?_insert_self, if_pos BEq.rfl]
      rfl
    · rw [get?_insert_ne (Ne.symm h), if_neg (by simpa using h)]
      rfl

theorem get?_ofList (key : String) (writes : List (String × α)) :
    get? key (ofList writes) = (writes.reverse.find? fun e => e.1 == key).map Prod.snd := by
  rw [ofList, get?_foldl_insert, get?_nil, Option.or_none]

/-- After a write there is the written entry, and nothing else that was not there before. -/
theorem mem_insert {key : String} {value : α} {entries : Entries α} {e : String × α}
    (h : e ∈ insert key value entries) : e = (key, value) ∨ e ∈ entries := by
  induction entries with
  | nil => exact .inl (by simpa [insert] using h)
  | cons head rest ih =>
    obtain ⟨k, v⟩ := head
    -- the written entry replaces one of its key, goes in front of a greater one, or goes further
    -- on
    simp only [insert] at h
    split at h
    · rcases List.mem_cons.1 h with he | hm
      · exact .inl he
      · exact .inr (List.mem_cons_of_mem _ hm)
    · split at h
      · rcases List.mem_cons.1 h with he | hm
        · exact .inl he
        · exact .inr hm
      · rcases List.mem_cons.1 h with he | hm
        · exact .inr (he ▸ List.mem_cons_self)
        · rcases ih hm with he | hr
          · exact .inl he
          · exact .inr (List.mem_cons_of_mem _ hr)

/-- Of two different texts one is before the other. -/
theorem lt_of_not_lt {a b : String} (hne : a ≠ b) (h : ¬a < b) : b < a := by
  rcases String.le_total a b with hab | hba
  · rw [String.not_lt] at h
    exact absurd (String.le_antisymm hab h) hne
  · by_cases hlt : b < a
    · exact hlt
    · rw [String.not_lt] at hlt
      exact absurd (String.le_antisymm hlt hba) hne

/-- After several writes there is nothing but written entries. -/
theorem mem_ofList {writes : List (String × α)} {e : String × α} (h : e ∈ ofList writes) :
    e ∈ writes := by
  have hfold : ∀ entries : Entries α, e ∈ writes.foldl (fun m e => insert e.1 e.2 m) entries →
      e ∈ writes ∨ e ∈ entries := by
    -- the fold is taken from any entries, as the induction changes them
    clear h
    induction writes with
    | nil => exact fun _ h => .inr h
    | cons write rest ih =>
      intro entries h
      rcases ih _ h with hrest | hwritten
      · exact .inl (List.mem_cons_of_mem _ hrest)
      · rcases mem_insert hwritten with rfl | hentries
        · exact .inl List.mem_cons_self
        · exact .inr hentries
  exact (hfold [] h).resolve_right List.not_mem_nil

/-- A write keeps the keys in ascending order. -/
theorem Sorted.insert {entries : Entries α} (h : Sorted entries) (key : String) (value : α) :
    Sorted (insert key value entries) := by
  induction entries with
  | nil => exact List.pairwise_singleton _ _
  | cons e rest ih =>
    obtain ⟨k, v⟩ := e
    obtain ⟨hk, hrest⟩ := List.pairwise_cons.1 h
    simp only [Entries.insert]
    split
    · next heq =>
      subst heq
      exact List.pairwise_cons.2 ⟨hk, hrest⟩
    · next hne =>
      split
      · next hlt =>
        refine List.pairwise_cons.2 ⟨fun x hx => ?_, h⟩
        rcases List.mem_cons.1 hx with rfl | hx
        · exact hlt
        · exact String.lt_trans hlt (hk x hx)
      · next hnlt =>
        -- the key belongs behind the first one, and the write goes on behind it
        have hlt : k < key := lt_of_not_lt hne hnlt
        refine List.pairwise_cons.2 ⟨fun x hx => ?_, ih hrest⟩
        rcases mem_insert hx with rfl | hx
        · exact hlt
        · exact hk x hx

/-- A write of a key behind all others is put at the end. -/
theorem insert_of_forall_lt {key : String} {entries : Entries α} (h : ∀ e ∈ entries, e.1 < key)
    (value : α) : insert key value entries = entries ++ [(key, value)] := by
  induction entries with
  | nil => rfl
  | cons e rest ih =>
    obtain ⟨k, v⟩ := e
    obtain ⟨hk, hrest⟩ := List.forall_mem_cons.1 h
    have hne : key ≠ k := fun heq => String.lt_irrefl k (heq ▸ hk)
    have hnlt : ¬key < k := fun hlt => String.lt_irrefl k (String.lt_trans hk hlt)
    rw [insert, if_neg hne, if_neg hnlt, ih hrest, List.cons_append]

/-- The keys of several writes are in ascending order. -/
theorem sorted_ofList (writes : List (String × α)) : Sorted (ofList writes) := by
  have hfold : ∀ entries : Entries α, Sorted entries →
      Sorted (writes.foldl (fun m e => insert e.1 e.2 m) entries) := by
    induction writes with
    | nil => exact fun _ h => h
    | cons e rest ih => exact fun entries h => ih _ (h.insert e.1 e.2)
  exact hfold [] .nil

/-- Entries in ascending order are written as they are. -/
theorem Sorted.ofList_eq {entries : Entries α} (h : Sorted entries) : ofList entries = entries := by
  -- what is written so far is in front of what is still to be written
  have hfold : ∀ front : Entries α, Sorted (front ++ entries) →
      entries.foldl (fun m e => Entries.insert e.1 e.2 m) front = front ++ entries := by
    clear h
    induction entries with
    | nil => exact fun front _ => (List.append_nil front).symm
    | cons e rest ih =>
      intro front h
      have hlast : ∀ x ∈ front, x.1 < e.1 := fun x hx =>
        (List.pairwise_append.1 h).2.2 x hx e List.mem_cons_self
      have hsplit : front ++ e :: rest = (front ++ [e]) ++ rest := by simp
      rw [List.foldl_cons, insert_of_forall_lt hlast, hsplit]
      exact ih (front ++ [e]) (hsplit ▸ h)
  exact hfold [] h

theorem get?_erase_self (key : String) (entries : Entries α) :
    get? key (erase key entries) = none := by
  induction entries with
  | nil => rfl
  | cons e rest ih =>
    obtain ⟨k, v⟩ := e
    by_cases h : k = key
    · simpa [erase, h] using ih
    · simpa [erase, h] using ih

theorem get?_erase_ne {key other : String} (h : other ≠ key) (entries : Entries α) :
    get? other (erase key entries) = get? other entries := by
  induction entries with
  | nil => rfl
  | cons e rest ih =>
    obtain ⟨k, v⟩ := e
    by_cases hk : k = key
    · subst hk
      simpa [erase, Ne.symm h] using ih
    · by_cases ho : k = other
      · subst ho
        simp [erase, hk]
      · simpa [erase, hk, ho] using ih

/-- The order of entries is the order of their keys. -/
theorem Sorted.of_keys {entries : Entries α} {others : Entries β} (h : entries.Sorted)
    (hkeys : entries.keys = others.keys) : others.Sorted := by
  have hordered : entries.keys.Pairwise (· < ·) := List.pairwise_map.2 h
  rw [hkeys] at hordered
  exact List.pairwise_map.1 hordered

@[simp] theorem keys_mapValues (f : α → β) (entries : Entries α) :
    (mapValues f entries).keys = entries.keys := by
  simp [keys, mapValues]

end Entries

/-- A finite map as its entries in ascending key order. -/
@[ext]
structure SortedEntries (α : Type u) where
  entries : Entries α
  sorted : entries.Sorted
  deriving DecidableEq, Repr

namespace SortedEntries

variable {α : Type u} {β : Type v}

/-- No entries. -/
def empty : SortedEntries α := ⟨[], .nil⟩

/-- One entry. -/
def single (key : String) (value : α) : SortedEntries α :=
  ⟨[(key, value)], List.pairwise_singleton _ _⟩

/-- Write the entries of a list in turn, the last one of a key remaining. -/
def ofList (writes : List (String × α)) : SortedEntries α :=
  ⟨Entries.ofList writes, Entries.sorted_ofList writes⟩

/-- Write an entry at its place in the order. -/
def insert (key : String) (value : α) (map : SortedEntries α) : SortedEntries α :=
  ⟨Entries.insert key value map.entries, map.sorted.insert key value⟩

def mapValues (f : α → β) (map : SortedEntries α) : SortedEntries β :=
  ⟨Entries.mapValues f map.entries, map.sorted.of_keys (Entries.keys_mapValues f _).symm⟩

@[simp] theorem entries_empty : (empty : SortedEntries α).entries = [] := rfl

@[simp] theorem entries_single (key : String) (value : α) :
    (single key value).entries = [(key, value)] := rfl

@[simp] theorem entries_ofList (writes : List (String × α)) :
    (ofList writes).entries = Entries.ofList writes := rfl

@[simp] theorem entries_insert (key : String) (value : α) (map : SortedEntries α) :
    (map.insert key value).entries = Entries.insert key value map.entries := rfl

@[simp] theorem entries_mapValues (f : α → β) (map : SortedEntries α) :
    (map.mapValues f).entries = Entries.mapValues f map.entries := rfl

/-- Entries in order are written as they are. -/
@[simp] theorem ofList_entries (map : SortedEntries α) : ofList map.entries = map :=
  SortedEntries.ext map.sorted.ofList_eq

end SortedEntries

end CommandBus
