import CommandBus.Parameter.Form

/-!
# Fields in their places

A form is searched level by level, from the most derived level on, and within a level from its first
field on.  The field that is found under a name stands in a place (`FormPlace`) with none of its
name before it; storing exchanges it in its place, and so every other name is found as before.

## Key results

- `Form.exists_place`, `Form.field?_put`: the field that is found, and the place it stands in
- `Form.assign_put`: storing changes the field in its place
- `Form.exists_of_assign`, `Form.error_of_assign`: what was stored, and what is not
- `Form.field?_of_assign`: what is found after something was stored
- `Form.assign_self_iff`: which values a form holds
-/

namespace CommandBus

/-! ## Fields -/

namespace FormField

/-- What the type of a form says of a field: its name and type, and whether it is required. -/
def outline (f : FormField) : String × ParamType × Bool := (f.name, f.type, f.required)

/-- A field takes what its type unpacks. -/
theorem store_of_extract {f : FormField} {v : Value} {a : f.type.Carrier}
    (h : f.type.extract v = .ok a) : f.store v = .ok { f with value := a } := by
  rw [store, h]

/-- A stored field is the same field with what its type unpacked. -/
theorem exists_of_store {f g : FormField} {v : Value} (h : f.store v = .ok g) :
    ∃ a, f.type.extract v = .ok a ∧ g = { f with value := a } := by
  unfold store at h
  split at h
  · next a hextract => exact ⟨a, hextract, (Except.ok.inj h).symm⟩
  · exact nomatch h

theorem outline_of_store {f g : FormField} {v : Value} (h : f.store v = .ok g) :
    g.outline = f.outline := by
  obtain ⟨a, -, rfl⟩ := exists_of_store h
  rfl

/-- A field takes what it has taken before without a change. -/
theorem store_of_store {f g : FormField} {v : Value} (h : f.store v = .ok g) :
    g.store v = .ok g := by
  obtain ⟨a, hextract, rfl⟩ := exists_of_store h
  exact store_of_extract hextract

end FormField

namespace FormLevel

/-- A level without a name stores nothing under it. -/
theorem assign?_of_forall {level : FormLevel} {name : String} (h : ∀ f ∈ level, f.name ≠ name)
    (v : Value) : assign? name v level = none := by
  induction level with
  | nil => rfl
  | cons f rest ih =>
    rw [List.forall_mem_cons] at h
    rw [assign?, if_neg (by simpa using h.1), ih h.2]

/-- A level stores into the first field of a name and leaves the others. -/
theorem assign?_append {before after : FormLevel} {f : FormField}
    (h : ∀ g ∈ before, g.name ≠ f.name) (v : Value) :
    assign? f.name v (before ++ f :: after) =
      some ((f.store v).map fun g => before ++ g :: after) := by
  induction before with
  | nil =>
    rw [List.nil_append, assign?, if_pos BEq.rfl]
    cases f.store v <;> rfl
  | cons g rest ih =>
    rw [List.forall_mem_cons] at h
    rw [List.cons_append, assign?, if_neg (by simpa using h.1), ih h.2]
    cases f.store v <;> rfl

end FormLevel

/-! ## The most derived field of a name -/

/-- A place for a field: the levels that are more derived, the fields before and after it in its
    level, and the levels of the base. -/
structure FormPlace where
  derived : Form
  before : FormLevel
  after : FormLevel
  base : Form

namespace FormPlace

/-- The form with a field in the place. -/
def put (place : FormPlace) (f : FormField) : Form :=
  place.derived ++ (place.before ++ f :: place.after) :: place.base

/-- Different fields in one place make different forms. -/
theorem put_injective (place : FormPlace) : Function.Injective place.put := by
  intro f g h
  have hlevels := List.append_cancel_left h
  have hfields := List.append_cancel_left (List.cons.inj hlevels).1
  exact (List.cons.inj hfields).1

/-- No field of a name stands before the place, in its level or in a more derived one. -/
structure First (place : FormPlace) (name : String) : Prop where
  derived : ∀ level ∈ place.derived, ∀ f ∈ level, f.name ≠ name
  before : ∀ f ∈ place.before, f.name ≠ name

end FormPlace

namespace Form

/-- The most derived field of a name. -/
def field? (form : Form) (name : String) : Option FormField :=
  form.findSome? fun level => FormLevel.find? level name

/-- What the type of a form says of its fields, level by level. -/
def outline (form : Form) : List (List (String × ParamType × Bool)) :=
  form.map fun level => level.map FormField.outline

theorem field?_cons (level : FormLevel) (base : Form) (name : String) :
    field? (level :: base) name = (FormLevel.find? level name).or (field? base name) := by
  rw [field?, List.findSome?_cons]
  cases FormLevel.find? level name <;> rfl

theorem read_eq (form : Form) (name : String) :
    form.read name = (form.field? name).map FormField.current := by
  induction form with
  | nil => rfl
  | cons level base ih =>
    rw [read, field?_cons]
    cases FormLevel.find? level name with
    | some f => rfl
    | none => exact ih

/-- The most derived field of a name stands in a place that comes first. -/
theorem exists_place {form : Form} {name : String} {f : FormField}
    (h : form.field? name = some f) :
    ∃ place : FormPlace, form = place.put f ∧ f.name = name ∧ place.First name := by
  obtain ⟨derived, level, base, rfl, hlevel, hderived⟩ := List.findSome?_eq_some_iff.1 h
  obtain ⟨hname, before, after, rfl, hbefore⟩ := List.find?_eq_some_iff_append.1 hlevel
  refine ⟨⟨derived, before, after, base⟩, rfl, by simpa using hname, fun level hl f hf => ?_,
    fun f hf => by simpa using hbefore f hf⟩
  simpa using List.find?_eq_none.1 (hderived level hl) f hf

/-- The field in a place that comes first is found. -/
theorem field?_put {place : FormPlace} {f : FormField} (h : place.First f.name) :
    (place.put f).field? f.name = some f := by
  refine List.findSome?_eq_some_iff.2 ⟨place.derived, _, place.base, rfl, ?_, fun level hl => ?_⟩
  · exact List.find?_eq_some_iff_append.2 ⟨BEq.rfl, place.before, place.after, rfl,
      fun g hg => by simpa using h.before g hg⟩
  · exact List.find?_eq_none.2 fun g hg => by simpa using h.derived level hl g hg

/-- Where a field is exchanged for another one of its name, other names are found as before. -/
theorem field?_put_ne {place : FormPlace} {f g : FormField} {name : String}
    (hf : f.name ≠ name) (hg : g.name ≠ name) :
    (place.put g).field? name = (place.put f).field? name := by
  have hfalse : ∀ {x : FormField}, x.name ≠ name → (x.name == name) = false := by simp
  simp only [field?, FormPlace.put, FormLevel.find?, List.findSome?_append, List.findSome?_cons,
    List.find?_append, List.find?_cons, hfalse hf, hfalse hg]

/-! ## What is stored -/

/-- A name without a field is unknown. -/
theorem assign_of_field?_none {form : Form} {name : String} (h : form.field? name = none)
    (v : Value) : form.assign name v = .error (.unknownParameter name) := by
  induction form with
  | nil => rfl
  | cons level base ih =>
    obtain ⟨hlevel, hbase⟩ := List.forall_mem_cons.1 (List.findSome?_eq_none_iff.1 h)
    have hnone : ∀ f ∈ level, f.name ≠ name := by
      simpa [FormLevel.find?] using hlevel
    rw [assign, FormLevel.assign?_of_forall hnone, ih (List.findSome?_eq_none_iff.2 hbase)]

/-- Storing changes the most derived field of a name in its place, and no other. -/
theorem assign_put {place : FormPlace} {f : FormField} (h : place.First f.name) (v : Value) :
    (place.put f).assign f.name v = (f.store v).map place.put := by
  obtain ⟨derived, before, after, base⟩ := place
  obtain ⟨hderived, hbefore⟩ := h
  simp only [FormPlace.put] at hderived hbefore ⊢
  induction derived with
  | nil =>
    rw [List.nil_append, assign, FormLevel.assign?_append hbefore]
    cases f.store v <;> rfl
  -- a more derived level without the name leaves it to its base
  | cons level derived ih =>
    rw [List.forall_mem_cons] at hderived
    rw [List.cons_append, assign, FormLevel.assign?_of_forall hderived.1, ih hderived.2]
    cases f.store v <;> rfl

/-- Whatever is stored is stored into the most derived field of its name, in its place. -/
theorem exists_of_assign {form stored : Form} {name : String} {v : Value}
    (h : form.assign name v = .ok stored) :
    ∃ (place : FormPlace) (f g : FormField), f.name = name ∧ place.First f.name ∧
      form = place.put f ∧ f.store v = .ok g ∧ stored = place.put g := by
  -- without a field the name is unknown, and a field is stored in its place
  cases hfield : form.field? name with
  | none =>
    rw [assign_of_field?_none hfield] at h
    exact nomatch h
  | some f =>
    obtain ⟨place, rfl, rfl, hfirst⟩ := exists_place hfield
    rw [assign_put hfirst] at h
    cases hstore : f.store v with
    | error e =>
      rw [hstore] at h
      exact nomatch h
    | ok g =>
      rw [hstore] at h
      exact ⟨place, f, g, rfl, hfirst, rfl, hstore, (Except.ok.inj h).symm⟩

/-- What is not stored has a name without a field, or is not unpacked by the field of its name. -/
theorem error_of_assign {form : Form} {name : String} {v : Value} {e : ConversionError}
    (h : form.assign name v = .error e) :
    (form.field? name = none ∧ e = .unknownParameter name) ∨
      ∃ f, form.field? name = some f ∧ f.type.extract v = .error e := by
  cases hfield : form.field? name with
  | none =>
    rw [assign_of_field?_none hfield] at h
    exact .inl ⟨rfl, (Except.error.inj h).symm⟩
  | some f =>
    obtain ⟨place, rfl, rfl, hfirst⟩ := exists_place hfield
    rw [assign_put hfirst, FormField.store] at h
    refine .inr ⟨f, rfl, ?_⟩
    -- a field refuses only what its type does not extract
    cases hextract : f.type.extract v with
    | error cause =>
      rw [hextract] at h
      exact congrArg Except.error (Except.error.inj h)
    | ok a =>
      rw [hextract] at h
      exact nomatch h

/-- Storing keeps what the type says of the fields. -/
theorem outline_assign {form stored : Form} {name : String} {v : Value}
    (h : form.assign name v = .ok stored) : stored.outline = form.outline := by
  obtain ⟨place, f, g, -, -, rfl, hstore, rfl⟩ := exists_of_assign h
  simp only [outline, FormPlace.put, List.map_append, List.map_cons,
    FormField.outline_of_store hstore]

/-- A form holds a value if the most derived field of the name does. -/
theorem assign_self_iff {form : Form} {name : String} {v : Value} :
    form.assign name v = .ok form ↔ ∃ f, form.field? name = some f ∧ f.store v = .ok f := by
  constructor
  · intro h
    obtain ⟨place, f, g, rfl, hfirst, hform, hstore, hstored⟩ := exists_of_assign h
    obtain rfl : f = g := place.put_injective (hform.symm.trans hstored)
    exact ⟨f, by rw [hform, field?_put hfirst], hstore⟩
  · rintro ⟨f, hfield, hstore⟩
    obtain ⟨place, rfl, rfl, hfirst⟩ := exists_place hfield
    rw [assign_put hfirst, hstore]
    rfl

/-- A stored field is found under its name, and all other names are found as before. -/
theorem field?_of_assign {form stored : Form} {name : String} {v : Value}
    (h : form.assign name v = .ok stored) :
    (∃ f g, form.field? name = some f ∧ f.store v = .ok g ∧ stored.field? name = some g) ∧
    ∀ other, other ≠ name → stored.field? other = form.field? other := by
  obtain ⟨place, f, g, rfl, hfirst, rfl, hstore, rfl⟩ := exists_of_assign h
  have hname : g.name = f.name := congrArg Prod.fst (FormField.outline_of_store hstore)
  refine ⟨⟨f, g, field?_put hfirst, hstore, ?_⟩, fun other hother => ?_⟩
  · rw [← hname] at hfirst ⊢
    exact field?_put hfirst
  · exact field?_put_ne hother.symm (hname ▸ hother.symm)

end Form

end CommandBus
