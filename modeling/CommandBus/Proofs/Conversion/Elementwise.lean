import CommandBus.Conversion.Service
import CommandBus.Sample.Conversion
import Mathlib.Data.List.Forall2

/-!
# Conversion item by item

A service with the elementwise mapper brings a list or a map to a container type exactly by
bringing every part of it to the element type.  It does not matter whether the container is given
back as it is, because its parts satisfy the type already, or is built anew.

What keeps a value from being converted is `failure?`.  For a container it is the failure of
its first part that fails, and going down from part to part it is the failure of the first of its
`leaves`, told with the way there.

## Key results

- `convert_list`, `convert_map`: a container is converted part by part on either path
- `failure?_list`, `failure?_map`: the failure that a container tells of
- `failure?_eq_leaf`: the failure of a value is that of its first leaf that fails
- `convert_container_pointwise`: all of it for lists, maps and values of any depth
-/

namespace CommandBus

/-! ## Values inside values -/

namespace Value

/-- What holds of values that are no containers, of lists whose items have it and of maps whose
    entries have it, holds of all values. -/
theorem nested_induction {motive : Value → Prop}
    (scalar : ∀ v, (∀ items, v ≠ .list items) → (∀ entries, v ≠ .map entries) → motive v)
    (list : ∀ items, (∀ v ∈ items, motive v) → motive (.list items))
    (map : ∀ entries, (∀ e ∈ entries, motive e.2) → motive (.map entries)) (v : Value) :
    motive v := by
  cases v with
  | list items => exact list items fun v hv => nested_induction scalar list map v
  | map entries => exact map entries fun e he => nested_induction scalar list map e.2
  | _ => exact scalar _ (fun _ => nofun) (fun _ => nofun)
termination_by sizeOf v
decreasing_by
  · have := List.sizeOf_lt_of_mem hv
    simp only [Value.list.sizeOf_spec]
    omega
  · have := List.sizeOf_lt_of_mem he
    have : sizeOf e = 1 + sizeOf e.1 + sizeOf e.2 := rfl
    simp only [Value.map.sizeOf_spec]
    omega

end Value

namespace Conversion

/-! ## The first failure of a list of steps -/

section Steps

variable {ε ε' α β γ : Type}

/-- The error that a result is, if it is one. -/
def failed? : Except ε α → Option ε
  | .ok _ => none
  | .error e => some e

@[simp] theorem failed?_ok (a : α) : failed? (.ok a : Except ε α) = none := rfl

@[simp] theorem failed?_error (e : ε) : failed? (.error e : Except ε α) = some e := rfl

theorem failed?_eq_none_iff {x : Except ε α} : failed? x = none ↔ ∃ a, x = .ok a := by
  cases x <;> simp

theorem failed?_eq_some_iff {x : Except ε α} {e : ε} : failed? x = some e ↔ x = .error e := by
  cases x <;> simp

@[simp] theorem failed?_mapError (x : Except ε α) (f : ε → ε') :
    failed? (x.mapError f) = (failed? x).map f := by
  cases x <;> rfl

@[simp] theorem failed?_map (x : Except ε α) (g : α → β) :
    failed? (x.map g) = failed? x := by
  cases x <;> rfl

theorem mapError_eq_ok_iff {x : Except ε α} {f : ε → ε'} {a : α} :
    x.mapError f = .ok a ↔ x = .ok a := by
  cases x <;> simp [Except.mapError]

/-- Steps in turn succeed if every one of them does, with their results in order. -/
theorem mapM_eq_ok_iff {f : α → Except ε β} {xs : List α} {ys : List β} :
    xs.mapM f = .ok ys ↔ List.Forall₂ (fun x y => f x = .ok y) xs ys := by
  induction xs generalizing ys with
  | nil => simp [pure, Except.pure, eq_comm]
  | cons x xs ih =>
    rw [List.mapM_cons, List.forall₂_cons_left_iff]
    cases hx : f x with
    | error e => simp [bind, Except.bind]
    | ok y =>
      cases hxs : xs.mapM f with
      | error e => simp [bind, Except.bind, ← ih, hxs]
      | ok rest => simp [bind, Except.bind, pure, Except.pure, ← ih, hxs, eq_comm]

/-- Steps in turn fail as the first of them that fails. -/
theorem failed?_mapM (f : α → Except ε β) (xs : List α) :
    failed? (xs.mapM f) = xs.findSome? fun x => failed? (f x) := by
  induction xs with
  | nil => rfl
  | cons x xs ih =>
    rw [List.mapM_cons, List.findSome?_cons, ← ih]
    cases f x with
    | error e => rfl
    | ok y => cases xs.mapM f <;> rfl

/-- What is found first, by its place in the list. -/
theorem findSome?_eq_some_iff_getElem? {f : α → Option β} {xs : List α} {b : β} :
    xs.findSome? f = some b ↔
      ∃ (i : Nat) (x : α), xs[i]? = some x ∧ f x = some b ∧
        ∀ j y, j < i → xs[j]? = some y → f y = none := by
  induction xs with
  | nil => simp
  | cons x xs ih =>
    rw [List.findSome?_cons]
    cases hx : f x with
    | some c =>
      constructor
      · rintro ⟨⟩
        exact ⟨0, x, rfl, hx, fun j y hj => absurd hj (Nat.not_lt_zero j)⟩
      · rintro ⟨i, y, hy, hf, hbefore⟩
        -- nothing comes before the first step, so that it is the one that was found
        cases i with
        | zero =>
          obtain rfl : x = y := by simpa using hy
          rw [← hf, hx]
        | succ i =>
          have hnone := hbefore 0 x (Nat.succ_pos i) rfl
          rw [hx] at hnone
          exact nomatch hnone
    -- nothing is found at the first place, and the others are those of the rest, moved by one
    | none =>
      rw [ih]
      constructor
      · rintro ⟨i, y, hy, hf, hbefore⟩
        refine ⟨i + 1, y, by simpa using hy, hf, fun j z hj hz => ?_⟩
        cases j with
        | zero =>
          obtain rfl : x = z := by simpa using hz
          exact hx
        | succ j => exact hbefore j z (by omega) (by simpa using hz)
      · rintro ⟨i, y, hy, hf, hbefore⟩
        cases i with
        | zero =>
          obtain rfl : x = y := by simpa using hy
          rw [hx] at hf
          exact nomatch hf
        | succ i =>
          exact ⟨i, y, by simpa using hy, hf,
            fun j z hj hz => hbefore (j + 1) z (by omega) (by simpa using hz)⟩

/-- What is found depends only on what the members give. -/
theorem findSome?_congr {f g : α → Option β} {xs : List α} (h : ∀ x ∈ xs, f x = g x) :
    xs.findSome? f = xs.findSome? g := by
  induction xs with
  | nil => rfl
  | cons x xs ih =>
    rw [List.forall_mem_cons] at h
    rw [List.findSome?_cons, List.findSome?_cons, h.1, ih h.2]

/-- Searching lists put together is searching them one by one. -/
theorem findSome?_flatMap (g : α → List β) (f : β → Option γ) (xs : List α) :
    (xs.flatMap g).findSome? f = xs.findSome? fun x => (g x).findSome? f := by
  induction xs with
  | nil => rfl
  | cons x xs ih =>
    rw [List.flatMap_cons, List.findSome?_append, ih, List.findSome?_cons]
    cases (g x).findSome? f <;> rfl

end Steps

namespace Service

/-! ## Parts of a container -/

/-- What keeps a value from being brought to a type. -/
def failure? (s : Service) (v : Value) (t : ValueType) : Option ConversionError :=
  failed? (s.convert v t)

/-- A step down into a container. -/
inductive Step where
  | item (index : Nat)
  | entry (key : String)
  deriving DecidableEq, Repr

/-- How a step is told. -/
def Step.text : Step → String
  | .item index => "element " ++ Number.natText index
  | .entry key => "key '" ++ key ++ "'"

/-- The failure of a part, told by the container that it is in. -/
def told (container : Kind) (t : ValueType) (step : Step) (cause : ConversionError) :
    ConversionError :=
  .mapping container t (step.text ++ ": " ++ cause.message)

theorem told_item (container : Kind) (t : ValueType) (index : Nat) (cause : ConversionError) :
    told container t (.item index) cause =
      .mapping container t ("element " ++ Number.natText index ++ ": " ++ cause.message) := rfl

theorem told_entry (container : Kind) (t : ValueType) (key : String) (cause : ConversionError) :
    told container t (.entry key) cause =
      .mapping container t ("key '" ++ key ++ "': " ++ cause.message) := by
  have hquote : "'" ++ (": " ++ cause.message) = "': " ++ cause.message := by
    rw [← String.append_assoc]
    rfl
  simp only [told, Step.text, String.append_assoc, hquote]

/-- The items of a list are converted in turn. -/
theorem convertItems_eq_mapM (s : Service) (xs : List Value) (t : ValueType) (index : Nat) :
    s.convertItems xs t index =
      (xs.zipIdx index).mapM fun x => (s.convert x.1 t).mapError (itemFailure x.2) := by
  induction xs generalizing index with
  | nil => rfl
  | cons x xs ih =>
    rw [convertItems, List.zipIdx_cons, List.mapM_cons, ← ih]
    cases s.convert x t with
    | error e => rfl
    | ok r => cases s.convertItems xs t (index + 1) <;> rfl

/-- The values of a map are converted in turn, under their keys. -/
theorem convertEntries_eq_mapM (s : Service) (es : List (String × Value)) (t : ValueType) :
    s.convertEntries es t =
      es.mapM fun e => ((s.convert e.2 t).map fun r => (e.1, r)).mapError (entryFailure e.1) := by
  induction es with
  | nil => rfl
  | cons e es ih =>
    rw [convertEntries, List.mapM_cons, ← ih]
    cases s.convert e.2 t with
    | error cause => rfl
    | ok r => cases s.convertEntries es t <;> rfl

/-- A value that is null or satisfies the type is given back. -/
theorem convert_of_ready (s : Service) {v : Value} {t : ValueType}
    (h : v.isNull = true ∨ v.satisfies t = true) : s.convert v t = .ok v := by
  unfold convert
  rw [if_pos]
  simpa using h

/-- Items that are null or satisfy the type are given back. -/
private theorem convertItems_of_ready (s : Service) {xs : List Value} {t : ValueType}
    (h : ∀ x ∈ xs, x.isNull = true ∨ x.satisfies t = true) (index : Nat) :
    s.convertItems xs t index = .ok xs := by
  induction xs generalizing index with
  | nil => rfl
  | cons x xs ih =>
    rw [List.forall_mem_cons] at h
    simp only [convertItems, s.convert_of_ready h.1, ih h.2]

/-- Entries whose values are null or satisfy the type are given back. -/
private theorem convertEntries_of_ready (s : Service) {es : List (String × Value)}
    {t : ValueType} (h : ∀ e ∈ es, e.2.isNull = true ∨ e.2.satisfies t = true) :
    s.convertEntries es t = .ok es := by
  induction es with
  | nil => rfl
  | cons e es ih =>
    rw [List.forall_mem_cons] at h
    simp only [convertEntries, s.convert_of_ready h.1, ih h.2]

/-- A list is converted item by item, whether it is given back or built anew. -/
theorem convert_list {s : Service} (hs : s.mapper = .elementwise) (xs : List Value)
    (t : ValueType) :
    s.convert (.list xs) (.list t) =
      match s.convertItems xs t 0 with
      | .ok ys => .ok (.list ys)
      | .error failure => .error (.mapping .list (.list t) (reasonOf failure)) := by
  cases hready : (Value.list xs).satisfies (.list t) with
  | true =>
    -- the list is given back, and so is every item
    rw [Value.satisfies_list, List.all_eq_true] at hready
    have hitems := s.convertItems_of_ready (fun x hx => by simpa using hready x hx) 0
    rw [hitems, s.convert_of_ready (.inr (by simpa [Value.satisfies_list] using hready))]
  | false =>
    unfold convert
    rw [hready]
    simp only [Value.isNull, Bool.or_self, Bool.false_eq_true, if_false, hs]
    rfl

/-- A map is converted entry by entry, whether it is given back or built anew. -/
theorem convert_map {s : Service} (hs : s.mapper = .elementwise) (es : List (String × Value))
    (t : ValueType) :
    s.convert (.map es) (.map t) =
      match s.convertEntries es t with
      | .ok rs => .ok (.map rs)
      | .error failure => .error (.mapping .map (.map t) (reasonOf failure)) := by
  cases hready : (Value.map es).satisfies (.map t) with
  | true =>
    -- the map is given back, and so is every value
    rw [Value.satisfies_map, List.all_eq_true] at hready
    have hentries := s.convertEntries_of_ready fun e he => by simpa using hready e he
    rw [hentries, s.convert_of_ready (.inr (by simpa [Value.satisfies_map] using hready))]
  | false =>
    unfold convert
    rw [hready]
    simp only [Value.isNull, Bool.or_self, Bool.false_eq_true, if_false, hs]
    rfl

/-! ## The converted container -/

/-- A converted list has the results of its items in their order. -/
theorem convert_list_eq_ok_iff {s : Service} (hs : s.mapper = .elementwise) {xs : List Value}
    {t : ValueType} {r : Value} :
    s.convert (.list xs) (.list t) = .ok r ↔
      ∃ ys, r = .list ys ∧ List.Forall₂ (fun x y => s.convert x t = .ok y) xs ys := by
  have hitems : ∀ ys, s.convertItems xs t 0 = .ok ys ↔
      List.Forall₂ (fun x y => s.convert x t = .ok y) xs ys := by
    intro ys
    rw [convertItems_eq_mapM, mapM_eq_ok_iff]
    -- the places of the items are in the errors only
    conv_rhs => rw [← List.zipIdx_map_fst 0 xs, List.forall₂_map_left_iff]
    simp only [mapError_eq_ok_iff]
  rw [convert_list hs]
  simp only [← hitems]
  cases s.convertItems xs t 0 with
  | error failure => simp
  | ok ys => simp [eq_comm]

/-- A converted map has the results of its values under their keys. -/
theorem convert_map_eq_ok_iff {s : Service} (hs : s.mapper = .elementwise)
    {es : List (String × Value)} {t : ValueType} {r : Value} :
    s.convert (.map es) (.map t) = .ok r ↔
      ∃ rs, r = .map rs ∧
        List.Forall₂ (fun e r => r.1 = e.1 ∧ s.convert e.2 t = .ok r.2) es rs := by
  -- an entry keeps its key, whatever becomes of its value
  have hentry : ∀ (e r : String × Value),
      ((s.convert e.2 t).map fun v => (e.1, v)).mapError (entryFailure e.1) = .ok r ↔
        r.1 = e.1 ∧ s.convert e.2 t = .ok r.2 := by
    intro e r
    rw [mapError_eq_ok_iff]
    cases s.convert e.2 t with
    | error cause => simp [Except.map]
    | ok v => simp [Except.map, Prod.ext_iff, eq_comm]
  have hentries : ∀ rs, s.convertEntries es t = .ok rs ↔
      List.Forall₂ (fun e r => r.1 = e.1 ∧ s.convert e.2 t = .ok r.2) es rs := by
    intro rs
    rw [convertEntries_eq_mapM, mapM_eq_ok_iff]
    simp only [hentry]
  rw [convert_map hs]
  simp only [← hentries]
  cases s.convertEntries es t with
  | error failure => simp
  | ok rs => simp [eq_comm]

/-! ## The failure of a container -/

/-- A list fails as its first item that fails. -/
theorem failure?_list {s : Service} (hs : s.mapper = .elementwise) (xs : List Value)
    (t : ValueType) :
    s.failure? (.list xs) (.list t) =
      xs.zipIdx.findSome? fun x => (s.failure? x.1 t).map (told .list (.list t) (.item x.2)) := by
  have hfailed : s.failure? (.list xs) (.list t) = (failed? (s.convertItems xs t 0)).map
      fun failure => .mapping .list (.list t) (reasonOf failure) := by
    rw [failure?, convert_list hs]
    cases s.convertItems xs t 0 <;> rfl
  rw [hfailed, convertItems_eq_mapM, failed?_mapM, List.map_findSome?]
  congr 1
  funext x
  simp only [Function.comp_apply, failed?_mapError, Option.map_map]
  rfl

/-- A map fails as its first entry that fails. -/
theorem failure?_map {s : Service} (hs : s.mapper = .elementwise) (es : List (String × Value))
    (t : ValueType) :
    s.failure? (.map es) (.map t) =
      es.findSome? fun e => (s.failure? e.2 t).map (told .map (.map t) (.entry e.1)) := by
  have hfailed : s.failure? (.map es) (.map t) = (failed? (s.convertEntries es t)).map
      fun failure => .mapping .map (.map t) (reasonOf failure) := by
    rw [failure?, convert_map hs]
    cases s.convertEntries es t <;> rfl
  rw [hfailed, convertEntries_eq_mapM, failed?_mapM, List.map_findSome?]
  congr 1
  funext e
  simp only [Function.comp_apply, failed?_mapError, failed?_map, Option.map_map]
  rfl

/-! ## The first leaf that fails -/

/-- A part of a value that is converted as a whole: the way to it, and the type that it is
    wanted in. -/
structure Leaf where
  path : List Step
  value : Value
  type : ValueType

/-- A leaf of a part, seen from the container. -/
def Leaf.below (step : Step) (leaf : Leaf) : Leaf := { leaf with path := step :: leaf.path }

mutual

/-- The leaves of a value in their order: what is left where the value and the type are no longer
    both lists or both maps. -/
def leaves : Value → ValueType → List Leaf
  | .list xs, .list t => itemLeaves xs t 0
  | .map es, .map t => entryLeaves es t
  | v, t => [⟨[], v, t⟩]

/-- The leaves of items, the first one being number `index`. -/
def itemLeaves : List Value → ValueType → (index : Nat) → List Leaf
  | [], _, _ => []
  | x :: rest, t, index =>
    (leaves x t).map (Leaf.below (.item index)) ++ itemLeaves rest t (index + 1)

/-- The leaves of entries. -/
def entryLeaves : List (String × Value) → ValueType → List Leaf
  | [], _ => []
  | (key, x) :: rest, t => (leaves x t).map (Leaf.below (.entry key)) ++ entryLeaves rest t

end

/-- The failure of a leaf, told by all the containers on the way to it. -/
def located : ValueType → List Step → ConversionError → ConversionError
  | .list t, step :: path, cause => told .list (.list t) step (located t path cause)
  | .map t, step :: path, cause => told .map (.map t) step (located t path cause)
  | _, _, cause => cause

theorem leaves_list (xs : List Value) (t : ValueType) :
    leaves (.list xs) (.list t) =
      xs.zipIdx.flatMap fun x => (leaves x.1 t).map (Leaf.below (.item x.2)) := by
  have hitems : ∀ index, itemLeaves xs t index =
      (xs.zipIdx index).flatMap fun x => (leaves x.1 t).map (Leaf.below (.item x.2)) := by
    induction xs with
    | nil => intro index; rfl
    | cons x xs ih =>
      intro index
      rw [itemLeaves, ih, List.zipIdx_cons, List.flatMap_cons]
  exact hitems 0

theorem leaves_map (es : List (String × Value)) (t : ValueType) :
    leaves (.map es) (.map t) =
      es.flatMap fun e => (leaves e.2 t).map (Leaf.below (.entry e.1)) := by
  have hentries : entryLeaves es t =
      es.flatMap fun e => (leaves e.2 t).map (Leaf.below (.entry e.1)) := by
    induction es with
    | nil => rfl
    | cons e es ih => rw [entryLeaves, ih, List.flatMap_cons]
  exact hentries

/-- Where the value and the type are not both lists or both maps there is one leaf. -/
theorem leaves_self {v : Value} {t : ValueType}
    (hlist : ∀ xs element, v = .list xs → t ≠ .list element)
    (hmap : ∀ es element, v = .map es → t ≠ .map element) : leaves v t = [⟨[], v, t⟩] := by
  unfold leaves
  split
  · exact absurd rfl (hlist _ _ rfl)
  · exact absurd rfl (hmap _ _ rfl)
  · rfl

theorem located_nil (t : ValueType) (cause : ConversionError) : located t [] cause = cause := by
  cases t <;> rfl

/-- What a leaf fails with, told by the container of type `t`. -/
def leafFailure? (s : Service) (t : ValueType) (leaf : Leaf) : Option ConversionError :=
  (s.failure? leaf.value leaf.type).map (located t leaf.path)

/-- A value is its only leaf where it is no container of the type. -/
private theorem failure?_eq_leaf_self (s : Service) {v : Value} {t : ValueType}
    (hlist : ∀ xs element, v = .list xs → t ≠ .list element)
    (hmap : ∀ es element, v = .map es → t ≠ .map element) :
    s.failure? v t = (leaves v t).findSome? (s.leafFailure? t) := by
  have hlocated : located t [] = id := funext (located_nil t)
  rw [leaves_self hlist hmap, List.findSome?_singleton, leafFailure?, hlocated, Option.map_id_fun,
    id_eq]

/-- What a part tells of its first leaf, the container tells with one more step. -/
private theorem findSome?_below (s : Service) {container : Kind} {whole t : ValueType}
    {step : Step}
    (h : ∀ path cause, located whole (step :: path) cause =
      told container whole step (located t path cause)) (part : List Leaf) :
    (part.map (Leaf.below step)).findSome? (s.leafFailure? whole) =
      (part.findSome? (s.leafFailure? t)).map (told container whole step) := by
  rw [List.findSome?_map, List.map_findSome?]
  refine findSome?_congr fun leaf _ => ?_
  simp only [Function.comp_apply, leafFailure?, Leaf.below, Option.map_map]
  congr 1
  exact funext (h leaf.path)

/-- The failure of a value is the failure of the first of its leaves that fails. -/
theorem failure?_eq_leaf {s : Service} (hs : s.mapper = .elementwise) (v : Value)
    (t : ValueType) : s.failure? v t = (leaves v t).findSome? (s.leafFailure? t) := by
  -- a list for a list and a map for a map are gone into; any other value is a leaf of its own
  induction v using Value.nested_induction generalizing t with
  | scalar v hlist hmap =>
    exact s.failure?_eq_leaf_self (fun xs _ h => absurd h (hlist xs))
      (fun es _ h => absurd h (hmap es))
  | list xs ih =>
    cases t with
    | list t =>
      rw [failure?_list hs, leaves_list, findSome?_flatMap]
      refine findSome?_congr fun x hx => ?_
      rw [findSome?_below s (fun _ _ => rfl), ih x.1 (List.fst_mem_of_mem_zipIdx hx)]
    | _ => exact s.failure?_eq_leaf_self (fun _ _ _ => nofun) (fun _ _ => nofun)
  | map es ih =>
    cases t with
    | map t =>
      rw [failure?_map hs, leaves_map, findSome?_flatMap]
      refine findSome?_congr fun e he => ?_
      rw [findSome?_below s (fun _ _ => rfl), ih e he]
    | _ => exact s.failure?_eq_leaf_self (fun _ _ => nofun) (fun _ _ _ => nofun)

/-! ## The whole of it -/

/-- A value can be brought to a type. -/
def Converts (s : Service) (v : Value) (t : ValueType) : Prop := ∃ r, s.convert v t = .ok r

theorem failure?_eq_none_iff {s : Service} {v : Value} {t : ValueType} :
    s.failure? v t = none ↔ s.Converts v t := failed?_eq_none_iff

theorem failure?_eq_some_iff {s : Service} {v : Value} {t : ValueType} {e : ConversionError} :
    s.failure? v t = some e ↔ s.convert v t = .error e := failed?_eq_some_iff

/-- The conversion of a list goes by its items. -/
structure ListPointwise (s : Service) (xs : List Value) (t : ValueType) : Prop where
  /-- The list converts exactly if every item does. -/
  converts : s.Converts (.list xs) (.list t) ↔ ∀ x ∈ xs, s.Converts x t
  /-- The result is the list of the results of the items, in the same order and number. -/
  result : ∀ r, s.convert (.list xs) (.list t) = .ok r ↔
    ∃ ys, r = .list ys ∧ List.Forall₂ (fun x y => s.convert x t = .ok y) xs ys
  /-- The failure is that of the item with the least index that fails. -/
  failure : ∀ e, s.convert (.list xs) (.list t) = .error e ↔
    ∃ i x cause, xs[i]? = some x ∧ s.convert x t = .error cause ∧
      (∀ j y, j < i → xs[j]? = some y → s.Converts y t) ∧
      e = .mapping .list (.list t) ("element " ++ Number.natText i ++ ": " ++ cause.message)

/-- The conversion of a map goes by its entries. -/
structure MapPointwise (s : Service) (es : Entries Value) (t : ValueType) : Prop where
  /-- The map converts exactly if every value does. -/
  converts : s.Converts (.map es) (.map t) ↔ ∀ e ∈ es, s.Converts e.2 t
  /-- The result is the map of the results of the values, under the same keys. -/
  result : ∀ r, s.convert (.map es) (.map t) = .ok r ↔
    ∃ rs, r = .map rs ∧
      List.Forall₂ (fun e r => r.1 = e.1 ∧ s.convert e.2 t = .ok r.2) es rs
  /-- The failure is that of the value with the least key that fails. -/
  failure : ∀ e, s.convert (.map es) (.map t) = .error e ↔
    ∃ key v cause, (key, v) ∈ es ∧ s.convert v t = .error cause ∧
      (∀ other w, other < key → (other, w) ∈ es → s.Converts w t) ∧
      e = .mapping .map (.map t) ("key '" ++ key ++ "': " ++ cause.message)

theorem listPointwise {s : Service} (hs : s.mapper = .elementwise) (xs : List Value)
    (t : ValueType) : s.ListPointwise xs t where
  converts := by
    rw [← failure?_eq_none_iff, failure?_list hs, List.findSome?_eq_none_iff]
    simp only [Option.map_eq_none_iff, failure?_eq_none_iff]
    constructor
    · intro h x hx
      obtain ⟨i, hi⟩ := List.mem_iff_getElem?.1 hx
      exact h (x, i) (List.mem_zipIdx_iff_getElem?.2 hi)
    · intro h x hx
      exact h x.1 (List.fst_mem_of_mem_zipIdx hx)
  result r := convert_list_eq_ok_iff hs
  failure e := by
    rw [← failure?_eq_some_iff, failure?_list hs, findSome?_eq_some_iff_getElem?]
    simp only [List.getElem?_zipIdx, Nat.zero_add, Option.map_eq_some_iff, told_item,
      failure?_eq_some_iff, Option.map_eq_none_iff, failure?_eq_none_iff]
    constructor
    -- the first failure in the list is the one of the least index
    · rintro ⟨i, -, ⟨x, hx, rfl⟩, ⟨cause, hcause, rfl⟩, hbefore⟩
      exact ⟨i, x, cause, hx, hcause, fun j y hj hy => hbefore j (y, j) hj ⟨y, hy, rfl⟩, rfl⟩
    · rintro ⟨i, x, cause, hx, hcause, hbefore, rfl⟩
      refine ⟨i, (x, i), ⟨x, hx, rfl⟩, ⟨cause, hcause, rfl⟩, ?_⟩
      rintro j - hj ⟨y, hy, rfl⟩
      exact hbefore j y hj hy

/-- In a sorted map the place of an entry and its key say the same of what comes before it. -/
private theorem before_iff_lt {es : Entries Value} (hes : Entries.Sorted es) {i : Nat}
    {key : String} {v : Value} (hi : es[i]? = some (key, v)) (p : Value → Prop) :
    (∀ j e, j < i → es[j]? = some e → p e.2) ↔
      ∀ other w, other < key → (other, w) ∈ es → p w := by
  rw [List.getElem?_eq_some_iff] at hi
  obtain ⟨hlt, hget⟩ := hi
  constructor
  · intro h other w hother hmem
    obtain ⟨j, hj⟩ := List.mem_iff_getElem?.1 hmem
    obtain ⟨hjlt, hjget⟩ := List.getElem?_eq_some_iff.1 hj
    -- an entry with a lower key stands before, for the entries behind have higher ones
    refine h j (other, w) (Nat.lt_of_not_le fun hij => ?_) hj
    rcases Nat.lt_or_eq_of_le hij with hbehind | rfl
    · have habove := List.pairwise_iff_getElem.1 hes i j hlt hjlt hbehind
      rw [hget, hjget] at habove
      exact String.lt_asymm hother habove
    · rw [hget] at hjget
      obtain ⟨rfl, -⟩ := Prod.mk.inj hjget
      exact String.lt_irrefl key hother
  · intro h j e hj he
    obtain ⟨hjlt, rfl⟩ := List.getElem?_eq_some_iff.1 he
    have hbelow := List.pairwise_iff_getElem.1 hes j i hjlt hlt hj
    rw [hget] at hbelow
    exact h _ _ hbelow (List.getElem_mem hjlt)

theorem mapPointwise {s : Service} (hs : s.mapper = .elementwise) {es : Entries Value}
    (hes : Entries.Sorted es) (t : ValueType) : s.MapPointwise es t where
  converts := by
    rw [← failure?_eq_none_iff, failure?_map hs, List.findSome?_eq_none_iff]
    simp only [Option.map_eq_none_iff, failure?_eq_none_iff]
  result r := convert_map_eq_ok_iff hs
  failure e := by
    rw [← failure?_eq_some_iff, failure?_map hs, findSome?_eq_some_iff_getElem?]
    simp only [Option.map_eq_some_iff, told_entry, failure?_eq_some_iff, Option.map_eq_none_iff,
      failure?_eq_none_iff]
    constructor
    -- the first failure is the one of the least key, for the keys ascend
    · rintro ⟨i, ⟨key, v⟩, hi, ⟨cause, hcause, rfl⟩, hbefore⟩
      have hleast := (before_iff_lt hes hi (s.Converts · t)).1 hbefore
      exact ⟨key, v, cause, List.mem_of_getElem? hi, hcause, hleast, rfl⟩
    · rintro ⟨key, v, cause, hmem, hcause, hleast, rfl⟩
      obtain ⟨i, hi⟩ := List.mem_iff_getElem?.1 hmem
      have hbefore := (before_iff_lt hes hi (s.Converts · t)).2 hleast
      exact ⟨i, (key, v), hi, ⟨cause, hcause, rfl⟩, hbefore⟩

/-- With the elementwise mapper, whatever converters were registered, lists and maps are
    converted part by part.  What is told of a value that does not convert is the failure of the
    first of its leaves that does not, with the whole way to that leaf. -/
theorem convert_container_pointwise {s : Service} (hs : s.mapper = .elementwise)
    (t : ValueType) :
    (∀ xs, s.ListPointwise xs t) ∧ (∀ es, Entries.Sorted es → s.MapPointwise es t) ∧
    ∀ v e, s.convert v t = .error e ↔
      ∃ before leaf after cause, leaves v t = before ++ leaf :: after ∧
        (∀ l ∈ before, s.Converts l.value l.type) ∧
        s.convert leaf.value leaf.type = .error cause ∧ e = located t leaf.path cause := by
  refine ⟨fun xs => listPointwise hs xs t, fun es hes => mapPointwise hs hes t, fun v e => ?_⟩
  -- a failure is that of the first leaf that fails
  rw [← failure?_eq_some_iff, failure?_eq_leaf hs, List.findSome?_eq_some_iff]
  simp only [leafFailure?, Option.map_eq_some_iff, Option.map_eq_none_iff, failure?_eq_some_iff,
    failure?_eq_none_iff]
  constructor
  · rintro ⟨before, leaf, after, hleaves, ⟨cause, hcause, rfl⟩, hbefore⟩
    exact ⟨before, leaf, after, cause, hleaves, hbefore, hcause, rfl⟩
  · rintro ⟨before, leaf, after, cause, hleaves, hbefore, hcause, rfl⟩
    exact ⟨before, leaf, after, hleaves, ⟨cause, hcause, rfl⟩, hbefore⟩

/-- A map of lists fails at the second item under its second key, where an override refuses a
    truth value; the text behind it, which is no number, is not told of. -/
theorem convert_container_rejected :
    let s : Service :=
      ⟨Table.builtin.insert .bool .int (Sample.Conversion.reject.converter .int), .elementwise⟩
    let es : Entries Value :=
      [("a", .list [.long 1, .null]), ("b", .list [.string "2", .bool true, .string "x"])]
    s.mapper = .elementwise ∧ Entries.Sorted es ∧ ¬ s.Converts (.map es) (.map (.list .int)) ∧
      s.convert (.map es) (.map (.list .int)) = .error (.mapping .map (.map (.list .int))
        ("key 'b': cannot map List to List<Int>: element 1: " ++
          "cannot convert Bool to Int: rejected by override")) := by
  intro s es
  have hs : s.mapper = .elementwise := rfl
  have hes : Entries.Sorted es := List.pairwise_pair.2 (by decide)
  -- the leaves before the one that fails, and the one behind it
  have hbefore : ∀ l ∈ [⟨[.entry "a", .item 0], .long 1, .int⟩,
      ⟨[.entry "a", .item 1], .null, .int⟩, ⟨[.entry "b", .item 0], .string "2", .int⟩],
      s.Converts (Leaf.value l) l.type := by
    simp only [List.forall_mem_cons, List.not_mem_nil, false_implies, implies_true, and_true]
    exact ⟨⟨.int 1, rfl⟩, ⟨.null, rfl⟩, ⟨.int 2, rfl⟩⟩
  have hfails := ((convert_container_pointwise hs (.map (.list .int))).2.2 (.map es) _).2
    ⟨_, ⟨[.entry "b", .item 1], .bool true, .int⟩, [⟨[.entry "b", .item 2], .string "x", .int⟩],
      .invalid .bool .int "rejected by override", rfl, hbefore, rfl, rfl⟩
  refine ⟨hs, hes, ?_, hfails.trans (congrArg Except.error (by decide +kernel))⟩
  rintro ⟨r, hr⟩
  rw [hfails] at hr
  exact nomatch hr

end Service

end Conversion

end CommandBus
