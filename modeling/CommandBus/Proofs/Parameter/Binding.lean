import CommandBus.Parameter.Slots
import CommandBus.Proofs.Parameter.Fields
import Mathlib.Data.List.Nodup

/-!
# What a failed binding tells

A parameter is at fault if it is required and not given, or if its value cannot be converted or
stored.  What is stored for one parameter may change the target, but as long as a target takes
and refuses values by their names and the values alone (`Uniform`), it changes nothing for the
other parameters.  So a binding fails if any parameter is at fault, and tells all the faults, in
the order of the declarations.

## Key results

- `SchemaStep.nodup_runAll`: no name is declared twice
- `uniform_ofSlots`, `Form.uniform_bindable`: what structures and forms refuse
- `bindFields_snd`: the failures of a binding are the faults of the declared parameters
- `bind_reported`: a binding fails if there is a fault, and tells them all
-/

namespace CommandBus

open Conversion (Service)

/-! ## Declared names -/

namespace SchemaStep

/-- A declaration takes the place of an earlier one of its name. -/
theorem nodup_redeclare {params : List ParameterDecl}
    (h : (params.map ParameterDecl.name).Nodup) (decl : ParameterDecl) :
    ((redeclare params decl).map ParameterDecl.name).Nodup := by
  have hkept : ((params.filter fun p => p.name != decl.name).map ParameterDecl.name).Nodup :=
    h.sublist (List.filter_sublist.map ParameterDecl.name)
  rw [redeclare, List.map_append, List.map_singleton]
  refine hkept.append (List.nodup_singleton _) ?_
  rw [List.disjoint_singleton]
  intro hmem
  obtain ⟨p, hp, hname⟩ := List.mem_map.1 hmem
  simp [hname] at hp

mutual

/-- A step keeps the declared names apart. -/
theorem nodup_run {params : List ParameterDecl} (h : (params.map ParameterDecl.name).Nodup) :
    (step : SchemaStep) → ((run params step).map ParameterDecl.name).Nodup
  | .declare decl => nodup_redeclare h decl
  | .include steps => nodup_runAll h steps

/-- Steps in turn keep the declared names apart. -/
theorem nodup_runAll {params : List ParameterDecl} (h : (params.map ParameterDecl.name).Nodup) :
    (steps : List SchemaStep) → ((runAll params steps).map ParameterDecl.name).Nodup
  | [] => h
  | step :: rest => nodup_runAll (nodup_run h step) rest

end

end SchemaStep

/-- No name is declared twice. -/
theorem ParameterSchema.nodup_names (owner : String) (steps : List SchemaStep) :
    (ofSteps owner steps).names.Nodup := by
  have hnone : (([] : List ParameterDecl).map ParameterDecl.name).Nodup := List.nodup_nil
  exact SchemaStep.nodup_runAll hnone steps

/-! ## Targets that refuse values -/

namespace Bindable

variable {β : Type}

/-- Whether a target of a kind takes a value depends on the name and the value alone.  What it
    does not take it refuses with the error of `refusal`, and what it takes leaves it of the
    kind. -/
structure Uniform (b : Bindable β) (Kind : β → Prop)
    (refusal : String → Value → Option ConversionError) : Prop where
  takes : ∀ {target stored : β} {name : String} {v : Value}, Kind target →
    b.assign target name v = .ok stored → refusal name v = none ∧ Kind stored
  refuses : ∀ {target : β} {name : String} {v : Value} {e : ConversionError}, Kind target →
    b.assign target name v = .error e → refusal name v = some e

end Bindable

/-- The error of a value that is not of a type. -/
def ParamType.refusal (t : ParamType) (v : Value) : Option ConversionError :=
  match t.extract v with
  | .ok _ => none
  | .error e => some e

/-- What the slots of a structure refuse. -/
def Slot.refusal {β : Type} (slots : List (Slot β)) (name : String) (v : Value) :
    Option ConversionError :=
  match Slot.find? slots name with
  | none => some (.unknownParameter name)
  | some slot => slot.type.refusal v

/-- A slot stores what is of its type, whatever the structure holds. -/
theorem Bindable.uniform_ofSlots {β : Type} (key : TypeKey) (owner : String)
    (slots : List (Slot β)) :
    (ofSlots key owner slots).Uniform (fun _ => True) (Slot.refusal slots) where
  takes {target stored name v} _ h := by
    refine ⟨?_, trivial⟩
    simp only [ofSlots] at h
    -- a slot refuses what its type does not extract, and a name without a slot is refused as
    -- unknown
    cases hslot : Slot.find? slots name with
    | none => simp [hslot] at h
    | some slot =>
      cases hextract : slot.type.extract v with
      | error e => simp [hslot, Slot.store, hextract] at h
      | ok a => simp [Slot.refusal, ParamType.refusal, hslot, hextract]
  refuses {target name v e} _ h := by
    simp only [ofSlots] at h
    cases hslot : Slot.find? slots name with
    | none =>
      obtain rfl : .unknownParameter name = e := by simpa [hslot] using h
      simp [Slot.refusal, hslot]
    | some slot =>
      cases hextract : slot.type.extract v with
      | error cause =>
        obtain rfl : cause = e := by simpa [hslot, Slot.store, hextract] using h
        simp [Slot.refusal, ParamType.refusal, hslot, hextract]
      | ok a => simp [hslot, Slot.store, hextract] at h

/-- The names and types of the fields of a level. -/
def FormLevel.fieldTypes (level : FormLevel) : List (String × ParamType) :=
  level.map fun f => (f.name, f.type)

/-- The type that is found under a name is that of the field that is found. -/
theorem FormLevel.lookup_fieldTypes (level : FormLevel) (name : String) :
    level.fieldTypes.lookup name = (find? level name).map FormField.type := by
  induction level with
  | nil => rfl
  | cons f rest ih =>
    rw [fieldTypes, List.map_cons, List.lookup_cons, find?, List.find?_cons, BEq.comm (a := name)]
    cases f.name == name with
    | true => rfl
    | false => exact ih

namespace Form

/-- The names and types of the fields of a form, level by level. -/
def fieldTypes (form : Form) : List (List (String × ParamType)) := form.map FormLevel.fieldTypes

/-- What forms with such fields refuse. -/
def refusal (types : List (List (String × ParamType))) (name : String) (v : Value) :
    Option ConversionError :=
  match types.findSome? fun level => level.lookup name with
  | none => some (.unknownParameter name)
  | some type => type.refusal v

/-- A form refuses what the type of the most derived field of the name does not unpack. -/
theorem refusal_fieldTypes (form : Form) (name : String) (v : Value) :
    refusal form.fieldTypes name v =
      match form.field? name with
      | none => some (.unknownParameter name)
      | some f => f.type.refusal v := by
  have htype : (form.fieldTypes.findSome? fun level => level.lookup name) =
      (form.field? name).map FormField.type := by
    rw [fieldTypes, List.findSome?_map, field?, List.map_findSome?]
    congr 1
    exact funext fun level => level.lookup_fieldTypes name
  rw [refusal, htype]
  cases form.field? name <;> rfl

/-- What the type says of the fields has their names and types. -/
theorem fieldTypes_of_outline {form shape : Form} (h : form.outline = shape.outline) :
    form.fieldTypes = shape.fieldTypes := by
  have houtline : ∀ form : Form, form.fieldTypes =
      form.outline.map fun level => level.map fun o => (o.1, o.2.1) := by
    intro form
    rw [fieldTypes, outline, List.map_map]
    refine List.map_congr_left fun level _ => ?_
    rw [FormLevel.fieldTypes, Function.comp_apply, List.map_map]
    rfl
  rw [houtline, houtline, h]

/-- A form takes and refuses by the names and types of its fields, whatever it holds. -/
theorem uniform_bindable (key : TypeKey) (owner : String) (shape : Form) :
    (bindable key owner shape).Uniform (fun form => form.fieldTypes = shape.fieldTypes)
      (refusal shape.fieldTypes) where
  takes {form stored name v} hform hassign := by
    obtain ⟨⟨f, g, hfield, hstore, -⟩, -⟩ := field?_of_assign hassign
    obtain ⟨a, hextract, -⟩ := FormField.exists_of_store hstore
    refine ⟨?_, (fieldTypes_of_outline (outline_assign hassign)).trans hform⟩
    rw [← hform, refusal_fieldTypes, hfield]
    simp only [ParamType.refusal, hextract]
  refuses {form name v e} hform hassign := by
    rw [← hform, refusal_fieldTypes]
    obtain ⟨hfield, rfl⟩ | ⟨f, hfield, hextract⟩ := error_of_assign hassign
    · rw [hfield]
    · rw [hfield]
      simp only [ParamType.refusal, hextract]

end Form

namespace Bindable

variable {β : Type}

/-! ## Faults -/

/-- What is wrong with the parameter of a declaration. -/
inductive Fault (s : Service) (refusal : String → Value → Option ConversionError)
    (source : Source) (decl : ParameterDecl) : FieldError → Prop where
  /-- It is required, and absent or null. -/
  | missing (hrequired : decl.required = true)
      (habsent : source decl.name = none ∨ source decl.name = some .null) :
    Fault s refusal source decl (.missing decl.name)
  /-- Its value cannot be converted. -/
  | unconvertible {raw : Value} {e : ConversionError} (hraw : source decl.name = some raw)
      (hpresent : raw ≠ .null) (hconvert : s.convert raw decl.type = .error e) :
    Fault s refusal source decl (.invalid decl.name e)
  /-- Its converted value is refused. -/
  | refused {raw v : Value} {e : ConversionError} (hraw : source decl.name = some raw)
      (hpresent : raw ≠ .null) (hconvert : s.convert raw decl.type = .ok v)
      (hrefused : refusal decl.name v = some e) :
    Fault s refusal source decl (.invalid decl.name e)

/-- The same, computed. -/
def fault? (s : Service) (refusal : String → Value → Option ConversionError) (source : Source)
    (decl : ParameterDecl) : Option FieldError :=
  match Source.present (source decl.name) with
  | none => if decl.required then some (.missing decl.name) else none
  | some raw =>
    match s.convert raw decl.type with
    | .error e => some (.invalid decl.name e)
    | .ok v => (refusal decl.name v).map (.invalid decl.name)

end Bindable

namespace Source

theorem present_eq_some_iff {v : Option Value} {raw : Value} :
    present v = some raw ↔ v = some raw ∧ raw ≠ .null := by
  rw [present, Option.filter_eq_some_iff, Bool.not_eq_true', ← Bool.not_eq_true, Value.isNull_iff]

theorem present_eq_none_iff {v : Option Value} :
    present v = Option.none ↔ v = Option.none ∨ v = some .null := by
  rw [present, Option.filter_eq_none_iff]
  cases v with
  | none => simp
  | some raw => simp [Value.isNull_iff]

end Source

namespace Bindable

variable {β : Type} {s : Service} {refusal : String → Value → Option ConversionError}
  {source : Source}

theorem fault?_eq_some_iff {decl : ParameterDecl} {e : FieldError} :
    fault? s refusal source decl = some e ↔ Fault s refusal source decl e := by
  constructor
  · intro h
    unfold fault? at h
    split at h
    -- nothing is there, it is not converted, or it is converted and refused
    · next hnone =>
      obtain ⟨hrequired, rfl⟩ : decl.required = true ∧ .missing decl.name = e := by simpa using h
      exact .missing hrequired (Source.present_eq_none_iff.1 hnone)
    · next raw hsome =>
      obtain ⟨hraw, hpresent⟩ := Source.present_eq_some_iff.1 hsome
      split at h
      · next cause hconvert =>
        obtain rfl := Option.some.inj h
        exact .unconvertible hraw hpresent hconvert
      · next v hconvert =>
        obtain ⟨cause, hrefused, rfl⟩ := Option.map_eq_some_iff.1 h
        exact .refused hraw hpresent hconvert hrefused
  · intro h
    unfold fault?
    cases h with
    | missing hrequired habsent =>
      have hnone : Source.present (source decl.name) = none :=
        Source.present_eq_none_iff.2 habsent
      simp [hnone, hrequired]
    | unconvertible hraw hpresent hconvert =>
      simp [Source.present_eq_some_iff.2 ⟨hraw, hpresent⟩, hconvert]
    | refused hraw hpresent hconvert hrefused =>
      simp [Source.present_eq_some_iff.2 ⟨hraw, hpresent⟩, hconvert, hrefused]

/-- A fault is told of the parameter that has it. -/
theorem Fault.field_eq {decl : ParameterDecl} {e : FieldError}
    (h : Fault s refusal source decl e) : e.field = decl.name := by
  cases h <;> rfl

variable {b : Bindable β} {Kind : β → Prop}

/-- Binding one parameter fails with its fault, whatever was stored before. -/
theorem bindField_of_uniform (h : b.Uniform Kind refusal) (s : Service) (source : Source)
    {target : β} (ht : Kind target) (decl : ParameterDecl) :
    match b.bindField s source target decl with
    | .ok bound => fault? s refusal source decl = none ∧ Kind bound
    | .error e => fault? s refusal source decl = some e := by
  unfold bindField fault?
  cases Source.present (source decl.name) with
  | none => cases decl.required <;> simp [ht]
  | some raw =>
    dsimp only
    cases s.convert raw decl.type with
    | error e => rfl
    | ok v =>
      dsimp only
      -- the outcome of storing depends on the kind of the target alone
      cases hassign : b.assign target decl.name v with
      | error e => simp [h.refuses ht hassign]
      | ok stored => simp [h.takes ht hassign]

/-- The failures of a binding are the faults of its parameters, one by one. -/
theorem bindFields_snd (h : b.Uniform Kind refusal) (s : Service) (source : Source) {target : β}
    (ht : Kind target) (decls : List ParameterDecl) :
    (b.bindFields s source target decls).2 = decls.filterMap (fault? s refusal source) := by
  induction decls generalizing target with
  | nil => rfl
  | cons decl rest ih =>
    have hfield := bindField_of_uniform h s source ht decl
    unfold bindFields
    split
    · next bound heq =>
      rw [heq] at hfield
      rw [List.filterMap_cons_none hfield.1]
      exact ih hfield.2
    -- a target that failed to take a value is as it was
    · next e heq =>
      rw [heq] at hfield
      rw [List.filterMap_cons_some hfield, ← ih ht]

/-! ## One binding -/

/-- The faults of a schema, in the order of its parameters. -/
def faults (s : Service) (refusal : String → Value → Option ConversionError) (source : Source)
    (schema : ParameterSchema) : List FieldError :=
  schema.params.filterMap (fault? s refusal source)

/-- A list of failures that tells every fault of a schema once, in the order of its parameters. -/
structure Reports (s : Service) (refusal : String → Value → Option ConversionError)
    (source : Source) (schema : ParameterSchema) (failures : List FieldError) : Prop where
  exact : ∀ e, e ∈ failures ↔ ∃ decl ∈ schema.params, Fault s refusal source decl e
  ordered : (failures.map FieldError.field).Sublist schema.names
  once : (failures.map FieldError.field).Nodup

/-- The parameters that are told are declared, and in their order. -/
private theorem fields_sublist (decls : List ParameterDecl) :
    ((decls.filterMap (fault? s refusal source)).map FieldError.field).Sublist
      (decls.map ParameterDecl.name) := by
  induction decls with
  | nil => exact List.Sublist.refl _
  | cons decl rest ih =>
    -- a declaration without a fault is left out
    cases hfault : fault? s refusal source decl with
    | none =>
      rw [List.filterMap_cons_none hfault]
      exact ih.cons _
    | some e =>
      rw [List.filterMap_cons_some hfault, List.map_cons, List.map_cons,
        (fault?_eq_some_iff.1 hfault).field_eq]
      exact ih.cons_cons _

/-- The faults of a schema without repeated names are told once each. -/
theorem reports_faults {schema : ParameterSchema} (hnames : schema.names.Nodup) :
    Reports s refusal source schema (faults s refusal source schema) where
  exact e := by simp only [faults, List.mem_filterMap, fault?_eq_some_iff]
  ordered := fields_sublist schema.params
  once := hnames.sublist (fields_sublist schema.params)

/-- A binding fails with the faults, if there are any. -/
theorem bind_snd (h : b.Uniform Kind refusal) (s : Service) (source : Source) {target : β}
    (ht : Kind target) :
    (b.bind s source target).2 =
      if faults s refusal source b.schema = [] then .ok ()
      else .error ⟨b.owner, faults s refusal source b.schema⟩ := by
  have hfields : (b.bindFields s source target b.schema.params).2 =
      faults s refusal source b.schema := bindFields_snd h s source ht b.schema.params
  simp only [bind, bindSchema, hfields, List.isEmpty_iff]
  split
  · rfl
  · rfl

/-- What a binding must tell: it succeeds if no parameter is at fault, and otherwise tells all the
    faults. -/
structure Reported (b : Bindable β) (s : Service)
    (refusal : String → Value → Option ConversionError) (source : Source)
    (result : Except BindingError Unit) : Prop where
  succeeds : result = .ok () ↔ ∀ decl ∈ b.schema.params, ∀ e, ¬ Fault s refusal source decl e
  fails : ∀ e, result = .error e →
    e.command = b.owner ∧ e.failures ≠ [] ∧ Reports s refusal source b.schema e.failures

/-- There is no fault if no parameter has one. -/
theorem faults_eq_nil_iff {schema : ParameterSchema} :
    faults s refusal source schema = [] ↔
      ∀ decl ∈ schema.params, ∀ e, ¬ Fault s refusal source decl e := by
  rw [faults, List.filterMap_eq_nil_iff]
  refine forall₂_congr fun decl _ => ?_
  rw [Option.eq_none_iff_forall_ne_some]
  exact forall_congr' fun e => not_congr fault?_eq_some_iff

/-- A binding fails exactly if a parameter is at fault, whatever the target holds, and tells every
    fault. -/
theorem bind_reported (h : b.Uniform Kind refusal) (s : Service) (source : Source) {target : β}
    (ht : Kind target) : b.Reported s refusal source (b.bind s source target).2 := by
  have hnames : b.schema.names.Nodup := ParameterSchema.nodup_names b.owner b.declarations
  rw [bind_snd h s source ht]
  split
  · next hnone => exact ⟨by simpa using faults_eq_nil_iff.1 hnone, fun e he => nomatch he⟩
  · next hsome =>
    refine ⟨?_, fun e he => ?_⟩
    · rw [← faults_eq_nil_iff]
      simp [hsome]
    · obtain rfl := Except.error.inj he
      exact ⟨rfl, hsome, reports_faults hnames⟩

/-- A schema that is kept for the type binds as the declared one, if it is the declared one. -/
theorem bindCached_of_kept {cache : SchemaCache}
    (hkept : ∀ kept, cache.find? b.key = some kept → kept = b.schema) (s : Service)
    (source : Source) (target : β) :
    (b.bindCached s cache source target).1 = b.bind s source target := by
  unfold bindCached SchemaCache.getOrCompute
  cases hfind : cache.find? b.key with
  | none => rfl
  | some kept =>
    rw [hkept kept hfind]
    rfl

end Bindable

end CommandBus
