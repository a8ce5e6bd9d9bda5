import CommandBus.Json.Basic

/-! # Documents in key order

A document that is kept has the members of every object in key order, at every depth.
`Document` is a document with that order; whatever document one is made of, its members are
put in order. -/

namespace CommandBus

namespace Json

/-- The members of every object in the document are in key order. -/
def Ordered (j : Json) : Prop := j.sorted = j

private theorem sortedItems_eq (items : List Json) : sortedItems items = items.map sorted := by
  induction items with
  | nil => rfl
  | cons j items ih => rw [sortedItems, ih, List.map_cons]

private theorem sortedMembers_eq (members : List (String × Json)) :
    sortedMembers members = Entries.mapValues sorted members := by
  induction members with
  | nil => rfl
  | cons m members ih => rw [sortedMembers, ih, Entries.mapValues, Entries.mapValues, List.map_cons]

private theorem map_eq_self_iff {α : Type} {f : α → α} {as : List α} :
    as.map f = as ↔ ∀ a ∈ as, f a = a := by
  have h := List.map_inj_left (f := f) (g := id) (l := as)
  rwa [List.map_id] at h

theorem ordered_array_iff {items : List Json} :
    (Json.array items).Ordered ↔ ∀ j ∈ items, j.Ordered := by
  rw [Ordered, sorted, sortedItems_eq, Json.array.injEq]
  exact map_eq_self_iff

private theorem mapValues_sorted_eq_self_iff {members : List (String × Json)} :
    Entries.mapValues sorted members = members ↔ ∀ m ∈ members, m.2.Ordered := by
  refine map_eq_self_iff.trans (forall_congr' fun m => forall_congr' fun _ => ?_)
  simp [Ordered, Prod.ext_iff]

theorem sorted_object (members : List (String × Json)) :
    (Json.object members).sorted = .object (Entries.ofList (Entries.mapValues sorted members)) := by
  rw [sorted, sortedMembers_eq]

/-- If the values of an object are in order, the members alone are put in order. -/
theorem sorted_object_of_ordered {members : List (String × Json)}
    (h : ∀ m ∈ members, m.2.Ordered) :
    (Json.object members).sorted = .object (Entries.ofList members) := by
  rw [sorted_object, mapValues_sorted_eq_self_iff.2 h]

theorem ordered_object_iff {members : List (String × Json)} :
    (Json.object members).Ordered ↔ Entries.Sorted members ∧ ∀ m ∈ members, m.2.Ordered := by
  constructor
  · intro h
    rw [Ordered, sorted_object, Json.object.injEq] at h
    have hsorted : Entries.Sorted members := h ▸ Entries.sorted_ofList _
    rw [(hsorted.of_keys (Entries.keys_mapValues sorted _).symm).ofList_eq] at h
    exact ⟨hsorted, mapValues_sorted_eq_self_iff.1 h⟩
  · rintro ⟨hsorted, hmembers⟩
    rw [Ordered, sorted_object_of_ordered hmembers, hsorted.ofList_eq]

mutual

/-- What is put in order is in order. -/
theorem ordered_sorted : (j : Json) → j.sorted.Ordered
  | .null => rfl
  | .bool _ => rfl
  | .integer _ => rfl
  | .double _ => rfl
  | .string _ => rfl
  | .array items => ordered_array_iff.2 (ordered_of_mem_sortedItems items)
  | .object members => ordered_object_iff.2
      ⟨Entries.sorted_ofList _, fun m hm =>
        ordered_of_mem_sortedMembers members m (Entries.mem_ofList hm)⟩

theorem ordered_of_mem_sortedItems : (items : List Json) → ∀ j ∈ sortedItems items, j.Ordered
  | [] => List.forall_mem_nil _
  | item :: rest => List.forall_mem_cons.2 ⟨ordered_sorted item, ordered_of_mem_sortedItems rest⟩

theorem ordered_of_mem_sortedMembers : (members : List (String × Json)) →
    ∀ m ∈ sortedMembers members, m.2.Ordered
  | [] => List.forall_mem_nil _
  | (_, item) :: rest =>
    List.forall_mem_cons.2 ⟨ordered_sorted item, ordered_of_mem_sortedMembers rest⟩

end

end Json

/-- A document with the members of every object in key order. -/
@[ext]
structure Document where
  json : Json
  ordered : json.Ordered
  deriving Repr

namespace Document

/-- A document with its members put in order. -/
def ofJson (j : Json) : Document := ⟨j.sorted, j.ordered_sorted⟩

@[simp] theorem sorted_json (d : Document) : d.json.sorted = d.json := d.ordered

/-- A document in order is left as it is. -/
@[simp] theorem ofJson_json (d : Document) : ofJson d.json = d := Document.ext d.ordered

/-- The object of documents by name is in order. -/
theorem ordered_object (members : SortedEntries Document) :
    (Json.object (Entries.mapValues json members.entries)).Ordered := by
  refine Json.ordered_object_iff.2 ⟨(members.mapValues json).sorted, fun m hm => ?_⟩
  obtain ⟨e, -, rfl⟩ := List.mem_map.1 hm
  exact e.2.ordered

end Document

end CommandBus
