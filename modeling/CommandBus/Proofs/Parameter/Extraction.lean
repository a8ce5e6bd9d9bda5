import CommandBus.Parameter.Type
import CommandBus.Proofs.Conversion.Landing

/-!
# Unpacking converted values

A converted value satisfies its type, but a list or a map satisfies its type with null in any
place, while only options and values of any kind are unpacked from null.  The `parts` of a value
are its list items and map values at any depth, in their order, with the parameter types that they
are unpacked as.  What was converted is unpacked unless one of them is null and has no room for it
(`Part.Gap`), and the error tells the first such part.  What was unpacked is packed to the same
value again, as long as no record is involved.

## Key results

- `render_of_extract`: what was unpacked is packed to the same value
- `failed?_extract`: what keeps a value that satisfies its type from being unpacked
- `extract_of_convert`: which converted values are unpacked, and what to
-/

namespace CommandBus.ParamType

open Conversion (failed? failed?_mapM failed?_map failed?_eq_none_iff failed?_eq_some_iff
  findSome?_congr findSome?_flatMap mapM_eq_ok_iff)

/-! ## Types and parts -/

/-- No record is part of a type. -/
def recordFree : ParamType → Bool
  | .record _ => false
  | .option inner => inner.recordFree
  | .list element => element.recordFree
  | .map element => element.recordFree
  | _ => true

/-- A type with room for null: an option, or values of any kind. -/
def takesNull : ParamType → Bool
  | .option _ | .any => true
  | _ => false

/-- A list item or a map value, with the type that it is unpacked as. -/
structure Part where
  type : ParamType
  value : Value

/-- Null where there is no room for it. -/
def Part.Gap (part : Part) : Prop := part.value = .null ∧ part.type.takesNull = false

/-- The parts of a value that is unpacked as a type, each one before the parts of its own. -/
def parts : ParamType → Value → List Part
  | .option inner, v => parts inner v
  | .list element, .list items => items.flatMap fun v => ⟨element, v⟩ :: parts element v
  | .map element, .map entries => entries.flatMap fun e => ⟨element, e.2⟩ :: parts element e.2
  | _, _ => []

/-- The error of a part that is a gap. -/
def Part.gap? (part : Part) : Option ConversionError :=
  if part.value.isNull && !part.type.takesNull then
    some (.mismatch .null part.type.valueType)
  else none

theorem Part.gap?_eq_none_iff {part : Part} : part.gap? = none ↔ ¬ part.Gap := by
  simp [gap?, Gap, Value.isNull_iff]

theorem Part.gap?_eq_some_iff {part : Part} {e : ConversionError} :
    part.gap? = some e ↔ part.Gap ∧ e = .mismatch .null part.type.valueType := by
  simp [gap?, Gap, Value.isNull_iff, eq_comm (a := e)]

/-! ## Lists and maps -/

section Collecting

variable {ε α β : Type}

theorem collect_eq_mapM (f : α → Except ε β) (xs : List α) : collect f xs = xs.mapM f := by
  induction xs with
  | nil => rfl
  | cons x xs ih =>
    rw [collect, List.mapM_cons, ← ih]
    cases f x with
    | error e => rfl
    | ok b => cases collect f xs <;> rfl

theorem collectEntries_eq_mapM (f : α → Except ε β) (es : List (String × α)) :
    collectEntries f es = es.mapM fun e => (f e.2).map fun b => (e.1, b) := by
  induction es with
  | nil => rfl
  | cons e es ih =>
    rw [collectEntries, List.mapM_cons, ← ih]
    cases f e.2 with
    | error cause => rfl
    | ok b => cases collectEntries f es <;> rfl

/-- What was collected from a list gives the list back if every item is given back. -/
theorem map_of_collect {f : α → Except ε β} {g : β → α} {xs : List α} {ys : List β}
    (hback : ∀ x y, f x = .ok y → g y = x) (h : collect f xs = .ok ys) : ys.map g = xs := by
  rw [collect_eq_mapM, mapM_eq_ok_iff] at h
  induction h with
  | nil => rfl
  | cons hxy _ ih => rw [List.map_cons, hback _ _ hxy, ih]

/-- What was collected from entries gives them back if every value is given back. -/
theorem map_of_collectEntries {f : α → Except ε β} {g : β → α} {es : List (String × α)}
    {rs : List (String × β)} (hback : ∀ x y, f x = .ok y → g y = x)
    (h : collectEntries f es = .ok rs) : (rs.map fun r => (r.1, g r.2)) = es := by
  -- entry by entry, as the keys are carried along
  rw [collectEntries_eq_mapM, mapM_eq_ok_iff] at h
  induction h with
  | nil => rfl
  | @cons e r es rs her _ ih =>
    cases hf : f e.2 with
    | error cause =>
      rw [hf] at her
      exact nomatch her
    | ok b =>
      rw [hf] at her
      obtain rfl : (e.1, b) = r := Except.ok.inj her
      rw [List.map_cons, ih, hback _ _ hf]

end Collecting

/-! ## Packed again -/

/-- What is not null is unpacked as what the option may hold. -/
theorem extract_option {inner : ParamType} {v : Value} (hv : v.isNull = false) :
    (option inner).extract v = (inner.extract v).map some := by
  cases v with
  | null => exact nomatch hv
  | _ => rfl

/-- What was unpacked is packed to the same value, as long as no record is involved. -/
theorem render_of_extract {t : ParamType} (ht : t.recordFree = true) {v : Value} {x : t.Carrier}
    (h : t.extract v = .ok x) : t.render x = v := by
  induction t generalizing v with
  | any => exact (Except.ok.inj h).symm
  | option inner ih =>
    cases hnull : v.isNull with
    -- null is unpacked as nothing, and nothing is packed as null
    | true =>
      obtain rfl := Value.isNull_iff.1 hnull
      obtain rfl := Except.ok.inj h
      rfl
    | false =>
      rw [extract_option hnull] at h
      cases hinner : inner.extract v with
      | error e =>
        rw [hinner] at h
        exact nomatch h
      | ok a =>
        rw [hinner] at h
        obtain rfl := Except.ok.inj h
        exact ih ht hinner
  | list element ih =>
    cases v with
    | list items => exact congrArg Value.list (map_of_collect (fun v x hx => ih ht hx) h)
    | _ => cases h
  | map element ih =>
    cases v with
    | map entries => exact congrArg Value.map (map_of_collectEntries (fun v x hx => ih ht hx) h)
    | _ => cases h
  | record type => exact nomatch ht
  | _ =>
    -- a scalar is unpacked from values of its kind only
    cases v <;> cases h
    rfl

/-! ## The first gap -/

/-- Null has no parts. -/
theorem parts_null (t : ParamType) : t.parts .null = [] := by
  induction t with
  | option inner ih => exact ih
  | _ => rfl

/-- Null is unpacked exactly where there is room for it. -/
theorem failed?_extract_null {t : ParamType} (ht : t.recordFree = true) :
    failed? (t.extract .null) = Part.gap? ⟨t, .null⟩ := by
  cases t with
  | record type => exact nomatch ht
  | _ => rfl

/-- A scalar of the kind of its type is unpacked. -/
theorem failed?_extract_scalar {t : ParamType} {k : Kind} (ht : t.valueType.scalarKind? = some k)
    {v : Value} (hv : v.kind = k) : failed? (t.extract v) = none := by
  induction t with
  | option inner ih =>
    cases hnull : v.isNull with
    | true => rw [Value.isNull_iff.1 hnull]; rfl
    | false => rw [extract_option hnull, failed?_map, ih ht]
  | list _ | map _ | record _ | any => exact nomatch ht
  | _ =>
    obtain rfl := Option.some.inj ht
    cases v <;> first | rfl | exact nomatch hv

/-- A part that is null or satisfies its type fails as the first gap from there on, if it does so
    when it is not null. -/
private theorem failed?_extract_part {t : ParamType} (ht : t.recordFree = true) {v : Value}
    (hv : (v.isNull || v.satisfies t.valueType) = true)
    (hpart : v.isNull = false → v.satisfies t.valueType = true →
      failed? (t.extract v) = (t.parts v).findSome? Part.gap?) :
    failed? (t.extract v) = (⟨t, v⟩ :: t.parts v : List Part).findSome? Part.gap? := by
  rw [List.findSome?_cons]
  -- a null is the gap itself, and any other value has its gaps inside
  cases hnull : v.isNull with
  | true =>
    obtain rfl := Value.isNull_iff.1 hnull
    rw [failed?_extract_null ht, parts_null]
    cases Part.gap? ⟨t, .null⟩ <;> rfl
  | false =>
    have hgap : Part.gap? ⟨t, v⟩ = none := by simp [Part.gap?, hnull]
    rw [hgap]
    exact hpart hnull (by simpa [hnull] using hv)

/-- A value that satisfies its type is unpacked unless there is a gap among its parts, and is
    told with the first one. -/
theorem failed?_extract {t : ParamType} (ht : t.recordFree = true) {v : Value}
    (hnull : v.isNull = false) (hv : v.satisfies t.valueType = true) :
    failed? (t.extract v) = (t.parts v).findSome? Part.gap? := by
  induction t generalizing v with
  | any => rfl
  | option inner ih => rw [extract_option hnull, failed?_map, ih ht hnull hv, parts]
  | list element ih =>
    have helement : element.recordFree = true := ht
    cases v with
    | list items =>
      -- the first item that fails is the first one with a gap, and has its first gap
      rw [valueType, Value.satisfies_list, List.all_eq_true] at hv
      rw [extract, collect_eq_mapM, failed?_mapM, parts, findSome?_flatMap]
      exact findSome?_congr fun x hx => failed?_extract_part helement (hv x hx) (ih helement)
    | _ => exact nomatch hv
  | map element ih =>
    have helement : element.recordFree = true := ht
    cases v with
    | map entries =>
      rw [valueType, Value.satisfies_map, List.all_eq_true] at hv
      rw [extract, collectEntries_eq_mapM, failed?_mapM, parts, findSome?_flatMap]
      refine findSome?_congr fun e he => ?_
      rw [failed?_map]
      exact failed?_extract_part helement (hv e he) (ih helement)
    | _ => exact nomatch hv
  | record type => exact nomatch ht
  | _ =>
    rw [Value.satisfies_scalar rfl] at hv
    exact failed?_extract_scalar rfl (beq_iff_eq.1 hv).symm

/-! ## Converted values -/

/-- A value that is not null was brought to a type without records by the built-in service.  It is
    not unpacked exactly if one of its parts is null without room for it, and the error tells the
    first of these.  Otherwise it is unpacked, and packed to the same value again. -/
theorem extract_of_convert {t : ParamType} (ht : t.recordFree = true) {v r : Value}
    (hv : v ≠ .null) (hr : Conversion.Service.standard.convert v t.valueType = .ok r) :
    ((∃ e, t.extract r = .error e) ↔ ∃ part ∈ t.parts r, part.Gap) ∧
    (∀ e, t.extract r = .error e ↔ ∃ before part after, t.parts r = before ++ part :: after ∧
      (∀ p ∈ before, ¬ p.Gap) ∧ part.Gap ∧ e = .mismatch .null part.type.valueType) ∧
    ((∀ part ∈ t.parts r, ¬ part.Gap) → ∃ x, t.extract r = .ok x ∧ t.render x = r) := by
  -- the converted value is null only if the given one was, so it satisfies the type
  obtain ⟨hisNull, hready⟩ :=
    Conversion.Service.fits_of_convert Conversion.Service.landing_standard hr
  have hnull : r.isNull = false := by
    rw [hisNull, ← Bool.not_eq_true, Value.isNull_iff]
    exact hv
  have hsatisfies : r.satisfies t.valueType = true := hready.resolve_left (by simp [hnull])
  have hfailed := failed?_extract ht hnull hsatisfies
  have hnone : failed? (t.extract r) = none ↔ ∀ part ∈ t.parts r, ¬ part.Gap := by
    simp only [hfailed, List.findSome?_eq_none_iff, Part.gap?_eq_none_iff]
  refine ⟨?_, fun e => ?_, fun hgaps => ?_⟩
  · simp only [← failed?_eq_some_iff, ← Option.ne_none_iff_exists', Ne, hnone, not_forall, not_not,
      exists_prop]
  · rw [← failed?_eq_some_iff, hfailed, List.findSome?_eq_some_iff]
    simp only [Part.gap?_eq_some_iff, Part.gap?_eq_none_iff]
    constructor
    · rintro ⟨before, part, after, hparts, ⟨hgap, he⟩, hbefore⟩
      exact ⟨before, part, after, hparts, hbefore, hgap, he⟩
    · rintro ⟨before, part, after, hparts, hbefore, hgap, he⟩
      exact ⟨before, part, after, hparts, ⟨hgap, he⟩, hbefore⟩
  · obtain ⟨x, hx⟩ := failed?_eq_none_iff.1 (hnone.2 hgaps)
    exact ⟨x, hx, render_of_extract ht hx⟩

/-- Null between the numbers of a list stays there when the list is converted, but no number is
    unpacked from it.  The null behind it, where a list is wanted, is not told of. -/
theorem extract_of_convert_null_item :
    let t : ParamType := .map (.list .int)
    let v : Value :=
      .map [("a", .list [.long 1]), ("b", .list [.string "2", .null]), ("c", .null)]
    let r : Value := .map [("a", .list [.int 1]), ("b", .list [.int 2, .null]), ("c", .null)]
    t.recordFree = true ∧ v ≠ .null ∧
      Conversion.Service.standard.convert v t.valueType = .ok r ∧
      t.extract r = .error (.mismatch .null .int) := by
  intro t v r
  have hv : v ≠ .null := fun h => nomatch (h : Value.map _ = .null)
  have hr : Conversion.Service.standard.convert v t.valueType = .ok r := rfl
  -- the second item of the second list is the first null that a type has no room for
  have hparts : t.parts r =
      [⟨.list .int, .list [.int 1]⟩, ⟨.int, .int 1⟩, ⟨.list .int, .list [.int 2, .null]⟩,
        ⟨.int, .int 2⟩] ++ ⟨.int, .null⟩ :: [⟨.list .int, .null⟩] := rfl
  refine ⟨rfl, hv, hr, ((extract_of_convert rfl hv hr).2.1 _).2
    ⟨_, _, _, hparts, fun p hp => ?_, ⟨rfl, rfl⟩, rfl⟩⟩
  simp only [List.mem_cons, List.not_mem_nil, or_false] at hp
  obtain rfl | rfl | rfl | rfl := hp <;> exact fun hgap => nomatch hgap.1

end CommandBus.ParamType
