import CommandBus.Json.Document
import CommandBus.Json.Reader

/-!
# What is read is in key order

A reader writes the members of an object into their places one by one, so every document that is
read has its members in key order, at every depth.  To take such a document for a `Document` does
not change it.

## Key results

- `ordered_of_readValue`: what is read at a cursor is in key order
- `ordered_of_parse`, `json_ofJson_of_parse`: what is read from a text is in key order
-/

namespace CommandBus.Json

open Cursor

/-! ## Scalars -/

/-- A document without branches. -/
private def IsScalar : Json → Prop
  | .array _ | .object _ => False
  | _ => True

private theorem IsScalar.ordered {j : Json} (h : j.IsScalar) : j.Ordered := by
  cases j with
  | array items => exact h.elim
  | object members => exact h.elim
  | _ => rfl

/-- If a document is read, it is a scalar. -/
private def GivesScalar (result : Except Error (Json × Cursor)) : Prop :=
  ∀ j c, result = .ok (j, c) → j.IsScalar

private theorem givesScalar_error (e : Error) : GivesScalar (.error e) := fun _ _ h => nomatch h

private theorem givesScalar_ok {j : Json} (h : j.IsScalar) (c : Cursor) :
    GivesScalar (.ok (j, c)) := by
  rintro _ _ ⟨⟩
  exact h

private theorem givesScalar_ite {condition : Prop} [Decidable condition]
    {first second : Except Error (Json × Cursor)} (hfirst : GivesScalar first)
    (hsecond : GivesScalar second) : GivesScalar (if condition then first else second) := by
  split
  · exact hfirst
  · exact hsecond

private theorem givesScalar_map {α : Type} {f : α → Json × Cursor} (h : ∀ a, (f a).1.IsScalar)
    (result : Except Error α) : GivesScalar (result.map f) := by
  cases result with
  | error e => exact givesScalar_error e
  | ok a => exact givesScalar_ok (h a) (f a).2

private theorem gatheredDouble_scalar (negative : Bool) (significand : Nat) (exponent : Int)
    (c : Cursor) : GivesScalar (gatheredDouble negative significand exponent c) := by
  unfold gatheredDouble
  split
  · exact givesScalar_error _
  · exact givesScalar_ok (by trivial) _

private theorem exponentPart_scalar (negative : Bool) (significand : Nat) (exponent : Int)
    (c : Cursor) : GivesScalar (exponentPart negative significand exponent c) := by
  unfold exponentPart
  dsimp only
  split
  · exact givesScalar_error _
  · split
    · exact givesScalar_error _
    · split
      · exact gatheredDouble_scalar _ _ _ _
      · exact givesScalar_ite (givesScalar_error _) (givesScalar_ok (by trivial) _)

private theorem exponentOrEnd_scalar (negative : Bool) (significand : Nat) (exponent : Int)
    (c : Cursor) : GivesScalar (exponentOrEnd negative significand exponent c) := by
  unfold exponentOrEnd
  split
  · exact exponentPart_scalar _ _ _ _
  · exact exponentPart_scalar _ _ _ _
  · exact gatheredDouble_scalar _ _ _ _

private theorem fractionPart_scalar (negative : Bool) (significand : Nat) (exponent : Int)
    (c : Cursor) : GivesScalar (fractionPart negative significand exponent c) := by
  unfold fractionPart
  dsimp only
  refine givesScalar_ite ?_ (exponentOrEnd_scalar _ _ _ _)
  split
  · exact givesScalar_error _
  · exact givesScalar_error _

private theorem wholeNumber_scalar (negative : Bool) (significand : Nat) :
    (wholeNumber negative significand).IsScalar := by
  unfold wholeNumber
  split
  · split
    · trivial
    · trivial
  · split
    · trivial
    · trivial

private theorem unsignedNumber_scalar (negative : Bool) (c : Cursor) :
    GivesScalar (unsignedNumber negative c) := by
  unfold unsignedNumber
  split
  · exact givesScalar_error _
  · split
    · exact givesScalar_error _
    -- a zero in front of another digit is refused, every other way ends in a number
    · refine givesScalar_ite (givesScalar_error _) ?_
      dsimp only
      split
      · exact fractionPart_scalar _ _ _ _
      · exact exponentPart_scalar _ _ _ _
      · exact exponentPart_scalar _ _ _ _
      · exact givesScalar_ite (givesScalar_ok (wholeNumber_scalar _ _) _)
          (gatheredDouble_scalar _ _ _ _)

private theorem number_scalar (c : Cursor) : GivesScalar c.number := by
  unfold number
  split
  · exact unsignedNumber_scalar true _
  · exact unsignedNumber_scalar false _

private theorem scalar_scalar (c : Cursor) : GivesScalar c.scalar := by
  unfold scalar
  split
  · exact givesScalar_error _
  · exact givesScalar_map (fun _ => by trivial) _
  · exact givesScalar_map (fun _ => by trivial) _
  · exact givesScalar_map (fun _ => by trivial) _
  · exact givesScalar_map (fun _ => by trivial) _
  · exact givesScalar_ite (number_scalar c) (givesScalar_error _)

/-! ## Lists and objects -/

section Bodies

variable {α : Type} {P : α → Prop} {item : Cursor → Except Error (α × Cursor)}
  (hitem : ∀ c a c', item c = .ok (a, c') → P a)
include hitem

/-- What is true of every item that is read is true of the items of a list. -/
private theorem forall_of_listBody {fuel : Nat} {first : Bool} {c c' : Cursor} {as : List α}
    (h : listBody item fuel first c = .ok (as, c')) : ∀ a ∈ as, P a := by
  -- the items are read one by one, each with one less of fuel
  induction fuel generalizing first c as with
  | zero => exact nomatch h
  | succ fuel ih =>
    rw [listBody] at h
    split at h
    · exact nomatch h
    · cases h
      exact List.forall_mem_nil _
    -- here an item was read, and the rest after it
    · split at h
      · exact nomatch h
      · next hread =>
        split at h
        · exact nomatch h
        · next hrest =>
          cases h
          exact List.forall_mem_cons.2 ⟨hitem _ _ _ hread, ih hrest⟩

/-- And so it is of the values of the members of an object. -/
private theorem forall_of_objectBody {fuel : Nat} {first : Bool} {c c' : Cursor}
    {as : List (String × α)} (h : objectBody item fuel first c = .ok (as, c')) :
    ∀ m ∈ as, P m.2 := by
  induction fuel generalizing first c as with
  | zero => exact nomatch h
  | succ fuel ih =>
    rw [objectBody] at h
    split at h
    · exact nomatch h
    · cases h
      exact List.forall_mem_nil _
    -- here the name, the colon, the value and the rest follow one another
    · split at h
      · exact nomatch h
      · split at h
        · exact nomatch h
        · split at h
          · exact nomatch h
          · next hread =>
            split at h
            · exact nomatch h
            · next hrest =>
              cases h
              exact List.forall_mem_cons.2 ⟨hitem _ _ _ hread, ih hrest⟩

end Bodies

/-! ## Any document -/

/-- Of a result that is turned into another one, the other one came from the result. -/
private theorem exists_of_map_eq_ok {α β : Type} {f : α → β} {result : Except Error α} {b : β}
    (h : result.map f = .ok b) : ∃ a, result = .ok a ∧ f a = b := by
  cases result with
  | error e => exact nomatch h
  | ok a => exact ⟨a, rfl, Except.ok.inj h⟩

/-- A document that is read at a cursor is in key order. -/
theorem ordered_of_readValue {depth : Depth} {c c' : Cursor} {j : Json}
    (h : readValue depth c = .ok (j, c')) : j.Ordered := by
  induction depth generalizing c c' j with
  | zero => exact nomatch h
  | succ depth ih =>
    rw [readValue] at h
    dsimp only at h
    split at h
    · split at h
      · exact nomatch h
      · obtain ⟨⟨items, end_⟩, hbody, heq⟩ := exists_of_map_eq_ok h
        cases heq
        exact ordered_array_iff.2 (forall_of_listBody (fun _ _ _ => ih) hbody)
    · split at h
      · exact nomatch h
      · obtain ⟨⟨members, end_⟩, hbody, heq⟩ := exists_of_map_eq_ok h
        cases heq
        -- the members are written into their places, whatever order they were read in
        have hmembers := forall_of_objectBody (fun _ _ _ => ih) hbody
        exact ordered_object_iff.2
          ⟨Entries.sorted_ofList members, fun m hm => hmembers m (Entries.mem_ofList hm)⟩
    · exact (scalar_scalar _ j c' h).ordered

/-- A document that is read from a text is in key order. -/
theorem ordered_of_parse {s : String} {j : Json} (h : Json.parse s = .ok j) : j.Ordered := by
  rw [Json.parse, readAll] at h
  split at h
  · exact nomatch h
  · next hread =>
    split at h
    · exact nomatch h
    · cases h
      exact ordered_of_readValue hread

/-- To keep a document that is read from a text is to keep it as it is. -/
theorem json_ofJson_of_parse {s : String} {j : Json} (h : Json.parse s = .ok j) :
    (Document.ofJson j).json = j := ordered_of_parse h

end CommandBus.Json
