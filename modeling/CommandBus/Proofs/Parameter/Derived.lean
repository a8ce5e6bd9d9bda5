import CommandBus.Proofs.Parameter.Extraction
import CommandBus.Proofs.Parameter.Schemas
import CommandBus.Proofs.Parameter.Storing
import CommandBus.Sample.Records

/-!
# Derived types

A type lists its fields level by level, and a derived level may have a name once more that a level
of its base has.  The schema is declared from the base on and keeps the last declaration of a name;
fields are read and stored from the most derived level on and stop at the first one.  As long as no
level has a name twice, both find the same field.  Storing changes this field alone, and the fields
that it hides in the levels below are changed by no binding.

## Key results

- `Form.find?_declarations`: the last declaration of a name is that of its most derived field
- `Form.get?_schema`: the schema of a type has it
- `Form.hidden_assign`: hidden fields are not touched
- `Form.bindable_coherent`: all of it for a type with any number of levels
-/

namespace CommandBus.Form

/-! ## The schema of a form -/

/-- No level has a name twice. -/
def NamesApart (form : Form) : Prop := ∀ level ∈ form, (level.map FormField.name).Nodup

/-- A level is declared field by field. -/
theorem flattenAll_level (level : FormLevel) :
    SchemaStep.flattenAll (level.map fun f => .declare f.decl) = level.map FormField.decl := by
  induction level with
  | nil => rfl
  | cons f rest ih =>
    rw [List.map_cons, SchemaStep.flattenAll, ih]
    rfl

/-- The base is declared first, and then the level itself. -/
theorem flattenAll_declarations_cons (level : FormLevel) (base : Form) :
    SchemaStep.flattenAll (declarations (level :: base)) =
      SchemaStep.flattenAll base.declarations ++ level.map FormField.decl := by
  cases base with
  | nil => exact flattenAll_level level
  | cons next base =>
    rw [declarations, SchemaStep.flattenAll, SchemaStep.flatten, flattenAll_level]
    exact nofun

/-- The last declaration of a name is that of the most derived field of the name. -/
theorem find?_declarations {form : Form} (h : form.NamesApart) (name : String) :
    ((SchemaStep.flattenAll form.declarations).reverse.find? fun p => p.name == name) =
      (form.field? name).map FormField.decl := by
  induction form with
  | nil => rfl
  | cons level base ih =>
    obtain ⟨hlevel, hbase⟩ := List.forall_mem_cons.1 h
    have hdecls : ((level.map FormField.decl).reverse.find? fun p => p.name == name) =
        (FormLevel.find? level name).map FormField.decl := by
      rw [← List.map_reverse, List.find?_map]
      exact congrArg (Option.map FormField.decl) (find?_name_reverse hlevel name)
    rw [flattenAll_declarations_cons, List.reverse_append, List.find?_append, hdecls, ih hbase,
      field?_cons, Option.map_or]

/-- The schema of a type has the declarations of the most derived fields of its instances. -/
theorem get?_schema {shape form : Form} (hshape : shape.NamesApart)
    (hform : form.outline = shape.outline) (key : TypeKey) (owner name : String) :
    (bindable key owner shape).schema.get? name = (form.field? name).map FormField.decl := by
  -- what the type says of a field is all that a declaration has
  let decl (o : String × ParamType × Bool) : ParameterDecl := ⟨o.1, o.2.1.valueType, o.2.2⟩
  have houtline : ∀ form : Form, (form.field? name).map FormField.decl =
      (form.outline.findSome? fun level => level.find? fun o => o.1 == name).map decl := by
    intro form
    rw [outline, List.findSome?_map, field?, List.map_findSome?, List.map_findSome?]
    congr 1
    funext level
    rw [Function.comp_apply, Function.comp_apply, Function.comp_apply, List.find?_map,
      Option.map_map]
    rfl
  rw [Bindable.schema, ParameterSchema.get?_ofSteps]
  exact (find?_declarations hshape name).trans
    ((houtline shape).trans (hform ▸ (houtline form).symm))

/-- The declared names of a type are those of the fields of its instances. -/
theorem mem_schema_names_iff {shape form : Form} (hshape : shape.NamesApart)
    (hform : form.outline = shape.outline) (key : TypeKey) (owner name : String) :
    name ∈ (bindable key owner shape).schema.names ↔ (form.field? name).isSome = true := by
  rw [ParameterSchema.mem_names_iff, get?_schema hshape hform, Option.isSome_map]

/-! ## Hidden fields -/

/-- The fields whose names are among those of more derived levels, level by level.  The names of
    `taken` belong to the levels before. -/
def hidden (taken : List String) : Form → List FormLevel
  | [] => []
  | level :: base =>
    level.filter (fun f => taken.contains f.name) ::
      hidden (taken ++ level.map FormField.name) base

/-- Where the most derived field of a name is exchanged, the hidden fields are as before. -/
theorem hidden_put {place : FormPlace} {f g : FormField} (hname : g.name = f.name)
    (h : place.First f.name) {taken : List String} (htaken : f.name ∉ taken) :
    hidden taken (place.put g) = hidden taken (place.put f) := by
  obtain ⟨derived, before, after, base⟩ := place
  obtain ⟨hderived, -⟩ := h
  simp only [FormPlace.put] at hderived ⊢
  -- the field is in the level of the place, and no level before it has the name
  induction derived generalizing taken with
  | nil =>
    have hf : taken.contains f.name = false := by simpa using htaken
    simp only [List.nil_append, hidden, List.filter_append, List.filter_cons, List.map_append,
      List.map_cons, hname, hf, Bool.false_eq_true, if_false]
  | cons level derived ih =>
    rw [List.forall_mem_cons] at hderived
    have hlater : f.name ∉ taken ++ level.map FormField.name := by
      rw [List.mem_append, List.mem_map]
      rintro (hmem | ⟨g, hg, heq⟩)
      · exact htaken hmem
      · exact hderived.1 g hg heq
    rw [List.cons_append, List.cons_append, hidden, hidden, ih hlater hderived.2]

/-- Storing does not touch hidden fields. -/
theorem hidden_assign {form stored : Form} {name : String} {v : Value}
    (h : form.assign name v = .ok stored) : stored.hidden [] = form.hidden [] := by
  obtain ⟨place, f, g, -, hfirst, rfl, hstore, rfl⟩ := exists_of_assign h
  have hname : g.name = f.name := congrArg Prod.fst (FormField.outline_of_store hstore)
  exact hidden_put hname hfirst List.not_mem_nil

/-! ## The whole of it -/

open Conversion (Service)

/-- What a type with any number of levels promises of an instance `form`.

    The names that can be read are those of the schema, and any other name is unknown.  A declared
    name has a most derived field, which has the type of the declaration and is required if the
    declaration is.  It is the one that is read, and it takes whatever its type unpacks: the new
    value stands in its place and is read back as the type packs it, which is the stored value
    itself unless a record is part of the type, and all else in the form is as before.  No binding
    changes what the type says of the fields, nor any field that a more derived level hides. -/
theorem bindable_coherent (key : TypeKey) (owner : String) {shape form : Form}
    (hshape : shape.NamesApart) (hform : form.outline = shape.outline) :
    let b := bindable key owner shape
    (∀ name, (b.read form name).isSome = true ↔ name ∈ b.schema.names) ∧
    (∀ name v, name ∉ b.schema.names → b.assign form name v = .error (.unknownParameter name)) ∧
    (∀ decl ∈ b.schema.params, ∃ (place : FormPlace) (f : FormField),
      form = place.put f ∧ place.First decl.name ∧ f.decl = decl ∧
      b.read form decl.name = some f.current ∧
      ∀ v a, f.type.extract v = .ok a →
        b.assign form decl.name v = .ok (place.put { f with value := a }) ∧
        b.read (place.put { f with value := a }) decl.name = some (f.type.render a) ∧
        (f.type.recordFree = true → f.type.render a = v)) ∧
    ∀ (s : Service) (source : Source),
      (b.bind s source form).1.outline = shape.outline ∧
      (b.bind s source form).1.hidden [] = form.hidden [] := by
  intro b
  -- a parameter is declared exactly where the form has a field of the name that is seen
  have hget : ∀ name, b.schema.get? name = (form.field? name).map FormField.decl :=
    get?_schema hshape hform key owner
  have hnames : ∀ name, name ∈ b.schema.names ↔ (form.field? name).isSome = true :=
    mem_schema_names_iff hshape hform key owner
  refine ⟨fun name => ?_, fun name v hname => ?_, fun decl hdecl => ?_, fun s source => ?_⟩
  · rw [hnames, show b.read form name = form.read name from rfl, read_eq, Option.isSome_map]
  · rw [hnames, Option.not_isSome_iff_eq_none] at hname
    exact assign_of_field?_none hname v
  · have hfield : (form.field? decl.name).map FormField.decl = some decl := by
      rw [← hget]
      exact ParameterSchema.mem_params_iff.1 hdecl
    obtain ⟨f, hf, rfl⟩ := Option.map_eq_some_iff.1 hfield
    obtain ⟨place, hplace, -, hfirst⟩ := exists_place hf
    have hread : form.read f.name = some f.current := by
      rw [read_eq, show form.field? f.name = some f from hf, Option.map_some]
    refine ⟨place, f, hplace, hfirst, rfl, hread, fun v a hextract => ⟨?_, ?_, fun hfree => ?_⟩⟩
    · have hassign : form.assign f.name v = (f.store v).map place.put := by
        rw [hplace]
        exact assign_put hfirst v
      rw [FormField.store_of_extract hextract] at hassign
      exact hassign
    · -- the new field has the name of the old one
      have hstored : (place.put { f with value := a }).field? f.name = some { f with value := a } :=
        field?_put hfirst
      have hnew := read_eq (place.put { f with value := a }) f.name
      rw [hstored] at hnew
      exact hnew
    · exact ParamType.render_of_extract hfree hextract
  -- no assignment changes the declarations, nor the fields that are hidden
  · refine Bindable.bind_induction (motive := fun t : Form =>
      t.outline = shape.outline ∧ t.hidden [] = form.hidden []) ?_ ⟨hform, rfl⟩
    intro t stored name v ⟨houtline, hhidden⟩ hassign
    exact ⟨(outline_assign hassign).trans houtline, (hidden_assign hassign).trans hhidden⟩

/-- Two levels have the name `page` with different types, and two the name `size`.  The schema has
    those of the more derived levels, and a binding that gives values for both names leaves the
    lowest level as it was. -/
theorem bindable_coherent_deep :
    let form : Form := [Sample.deep, Sample.listUsers, Sample.paging]
    let b := bindable 0 "Deep" form
    let source := Source.ofEntries [("page", .long 7), ("size", .string "20")]
    form.NamesApart ∧ b.schema.names = ["role", "size", "page", "ship"] ∧
      (b.read form "page").isSome = true ∧
      b.assign form "base" .null = .error (.unknownParameter "base") ∧
      (b.bind .standard source form).1.hidden [] = [[], [], Sample.paging] := by
  intro form b source
  have hapart : form.NamesApart := by
    unfold NamesApart
    decide
  obtain ⟨hread, hunknown, -, hbind⟩ := bindable_coherent 0 "Deep" hapart rfl
  have hnames : b.schema.names = ["role", "size", "page", "ship"] := by decide
  refine ⟨hapart, hnames, (hread "page").2 ?_, hunknown "base" .null ?_,
    (hbind .standard source).2⟩
  · decide
  · decide

/-- An address that was stored without a note is read back with an empty one. -/
theorem record_read_with_note :
    let form : Form := [Sample.deep, Sample.listUsers, Sample.paging]
    let b := bindable 0 "Deep" form
    let v : Value := .map [("street", .string "s"), ("zip", .long 2)]
    form.NamesApart ∧ ⟨"ship", .record "Address", false⟩ ∈ b.schema.params ∧
      (∃ a, (ParamType.record Sample.address).extract v = .ok a) ∧
      ∃ stored, b.assign form "ship" v = .ok stored ∧
        b.read stored "ship" =
          some (.map [("note", .null), ("street", .string "s"), ("zip", .long 2)]) ∧
        b.read stored "ship" ≠ some v := by
  intro form b v
  have hapart : form.NamesApart := by
    unfold NamesApart
    decide
  refine ⟨hapart, by decide, ⟨_, rfl⟩, _, rfl, rfl, fun h => ?_⟩
  -- the entries are not even as many
  have hentries := congrArg (fun o => (o.bind Value.entries?).map List.length) h
  exact absurd hentries (by decide)

end CommandBus.Form
