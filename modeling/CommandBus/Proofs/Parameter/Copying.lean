import CommandBus.Parameter.Parameters
import CommandBus.Proofs.Parameter.Agreement

/-!
# Copying the parameters of an instance

What a parameter type packs is null or satisfies the declared type already, so no service converts
it, and it is unpacked again.  Another instance of the type therefore takes what an instance gives
as it is: a binding fails for required parameters that are null there and for no other reason, and
carries every other value over as it reads.

Nothing in an option in an option is packed as null, and unpacked as nothing at all.  So a field may
hold something else than the one that it was copied from, but it reads the same.

## Key results

- `ParamType.ready_render`, `ParamType.refusal_render`: what is packed needs no conversion, and is
  not refused
- `Bindable.bind_induction_converted`: what the converted values keep, a binding keeps
- `Form.field?_bind`: a field that nothing is given for is not touched
- `Form.given_ofPrototype_iff`, `Form.fault_ofPrototype_iff`: what an instance gives, and what it
  lacks
- `Form.bind_prototype_copies`: what a binding from an instance copies, and what it leaves
-/

namespace CommandBus

open Conversion (Service failed? failed?_map failed?_mapM failed?_eq_none_iff)

/-! ## Packed values -/

namespace ParamType

/-- What a type packs is null or satisfies the declared type. -/
theorem ready_render {t : ParamType} (ht : t.recordFree = true) (x : t.Carrier) :
    (t.render x).isNull = true ∨ (t.render x).satisfies t.valueType = true := by
  induction t with
  | any => exact .inr (Value.satisfies_any x)
  | option inner ih =>
    -- an option is declared as what it may hold
    cases x with
    | none => exact .inl rfl
    | some a => exact ih ht a
  | list element ih =>
    right
    show (Value.list (x.map element.render)).satisfies (.list element.valueType) = true
    rw [Value.satisfies_list, List.all_map, List.all_eq_true]
    intro a _
    simpa using ih ht a
  | map element ih =>
    right
    show (Value.map (x.map fun e => (e.1, element.render e.2))).satisfies
      (.map element.valueType) = true
    rw [Value.satisfies_map, List.all_map, List.all_eq_true]
    intro e _
    simpa using ih ht e.2
  | record type => exact nomatch ht
  | _ => exact .inr rfl

/-- What a type packs is unpacked again. -/
theorem failed?_extract_render {t : ParamType} (ht : t.recordFree = true) (x : t.Carrier) :
    failed? (t.extract (t.render x)) = none := by
  induction t with
  | option inner ih =>
    cases x with
    | none => rfl
    | some a =>
      show failed? ((option inner).extract (inner.render a)) = none
      cases hnull : (inner.render a).isNull with
      -- an option in an option may be packed as null, which is unpacked as nothing
      | true =>
        rw [Value.isNull_iff.1 hnull]
        rfl
      | false =>
        rw [extract_option hnull, failed?_map]
        exact ih ht a
  | list element ih =>
    show failed? (collect element.extract (x.map element.render)) = none
    rw [collect_eq_mapM, failed?_mapM, List.findSome?_map, List.findSome?_eq_none_iff]
    intro a _
    exact ih ht a
  | map element ih =>
    show failed? (collectEntries element.extract
      (x.map fun e => (e.1, element.render e.2))) = none
    rw [collectEntries_eq_mapM, failed?_mapM, List.findSome?_map, List.findSome?_eq_none_iff]
    intro e _
    rw [Function.comp_apply, failed?_map]
    exact ih ht e.2
  | record type => exact nomatch ht
  | _ => rfl

/-- What holds nothing inside of an option is packed as null, and unpacked as nothing at all. -/
example :
    let t : ParamType := .list (.option (.option .int))
    t.extract (t.render [some none, some (some 3), none]) = .ok [none, some (some 3), none] := rfl

/-- Nothing that a type packs is refused by it. -/
theorem refusal_render {t : ParamType} (ht : t.recordFree = true) (x : t.Carrier) :
    t.refusal (t.render x) = none := by
  obtain ⟨y, hy⟩ := failed?_eq_none_iff.1 (failed?_extract_render ht x)
  simp only [refusal, hy]

end ParamType

/-! ## What a binding sees of a source and a service -/

namespace Source

/-- An instance as a source passes over null already. -/
theorem present_ofPrototype {β : Type} (b : Bindable β) (prototype : β) (name : String) :
    present (ofPrototype b prototype name) = present (b.read prototype name) := by
  simp [ofPrototype, present, Option.filter_filter]

end Source

namespace Bindable

variable {β : Type} {b : Bindable β} {s : Service} {source : Source}

/-- What the converted values of the parameters keep when they are stored, a binding keeps. -/
theorem bind_induction_converted {motive : β → Prop}
    (hassign : ∀ {t stored : β} {decl : ParameterDecl} {v : Value}, decl ∈ b.schema.params →
      Converted s source decl v → motive t → b.assign t decl.name v = .ok stored → motive stored)
    {target : β} (h : motive target) : motive (b.bind s source target).1 := by
  rw [bind_fst]
  refine List.foldlRecOn _ _ h fun t ht decl hdecl => ?_
  obtain ⟨v, hv, hstored⟩ | ⟨-, heq⟩ := bindStep_cases b s source t decl
  · exact hassign hdecl hv ht hstored
  · rw [heq]
    exact ht

/-- A service is seen only through the conversions of what a source gives. -/
theorem bindField_congr_service {other : Service} {decl : ParameterDecl}
    (h : ∀ raw, Source.present (source decl.name) = some raw →
      other.convert raw decl.type = s.convert raw decl.type) (target : β) :
    b.bindField other source target decl = b.bindField s source target decl := by
  unfold bindField
  cases hpresent : Source.present (source decl.name) with
  | none => rfl
  | some raw => simp only [h raw hpresent]

theorem bindFields_congr_service {other : Service} {decls : List ParameterDecl}
    (h : ∀ decl ∈ decls, ∀ raw, Source.present (source decl.name) = some raw →
      other.convert raw decl.type = s.convert raw decl.type) (target : β) :
    b.bindFields other source target decls = b.bindFields s source target decls := by
  induction decls generalizing target with
  | nil => rfl
  | cons decl rest ih =>
    rw [List.forall_mem_cons] at h
    simp only [bindFields, bindField_congr_service h.1, ih h.2]

/-- Services that convert what a source gives alike bind it alike. -/
theorem bind_congr_service {other : Service}
    (h : ∀ decl ∈ b.schema.params, ∀ raw, Source.present (source decl.name) = some raw →
      other.convert raw decl.type = s.convert raw decl.type) (target : β) :
    b.bind other source target = b.bind s source target := by
  simp only [bind, bindSchema, bindFields_congr_service h]

end Bindable

namespace Form

variable {key : TypeKey} {owner : String} {shape p f : Form} {s : Service}

/-! ## Fields that are not touched -/

/-- A field is found as before if nothing is given for a parameter of its name. -/
theorem field?_bind {source : Source} {name : String}
    (hnone : ∀ decl ∈ (bindable key owner shape).schema.params, decl.name = name →
      ∀ v, ¬ Bindable.Converted s source decl v) :
    ((bindable key owner shape).bind s source f).1.field? name = f.field? name := by
  refine Bindable.bind_induction_converted (motive := fun t : Form =>
    t.field? name = f.field? name) ?_ rfl
  intro t stored decl v hdecl hv ht hassign
  have hne : name ≠ decl.name := fun hname => hnone decl hdecl hname.symm v hv
  obtain ⟨-, hothers⟩ := field?_of_assign hassign
  rw [hothers name hne, ht]

/-! ## The values of an instance -/

/-- No parameter is a record, nor has one as a part.  A field that is hidden may be one. -/
def ParametersRecordFree (form : Form) : Prop :=
  ∀ name f, form.field? name = some f → f.type.recordFree = true

theorem RecordFree.parameters (h : shape.RecordFree) : shape.ParametersRecordFree :=
  fun _ _ hfield => h.field hfield

/-- What the type says of the field of a name. -/
theorem outline_field? (form : Form) (name : String) :
    (form.field? name).map FormField.outline =
      form.outline.findSome? fun level => level.find? fun o => o.1 == name := by
  rw [outline, List.findSome?_map, field?, List.map_findSome?]
  congr 1
  funext level
  rw [Function.comp_apply, Function.comp_apply, List.find?_map]
  rfl

/-- The instances of a type without records among its parameters have none among theirs. -/
theorem ParametersRecordFree.of_outline (h : shape.ParametersRecordFree)
    (hp : p.outline = shape.outline) : p.ParametersRecordFree := by
  intro name f hfield
  have houtline : (shape.field? name).map FormField.outline = some f.outline := by
    rw [outline_field?, ← hp, ← outline_field?, hfield, Option.map_some]
  obtain ⟨g, hg, hsame⟩ := Option.map_eq_some_iff.1 houtline
  have htype : g.type = f.type := congrArg (fun o => o.2.1) hsame
  rw [← htype]
  exact h name g hg

/-- A value that an instance holds as a parameter is read. -/
theorem read_of_holds (hfree : f.ParametersRecordFree) {name : String} {v : Value}
    (h : f.assign name v = .ok f) : f.read name = some v := by
  obtain ⟨g, hg, hstore⟩ := assign_self_iff.1 h
  obtain ⟨a, hextract, hga⟩ := FormField.exists_of_store hstore
  have hrender : g.type.render a = v := ParamType.render_of_extract (hfree name g hg) hextract
  rw [read_eq, hg, Option.map_some, hga, ← hrender]
  rfl

/-- An instance has the field of a declared parameter, and it is declared as it is. -/
theorem exists_field_of_decl (hshape : shape.NamesApart) (hp : p.outline = shape.outline)
    {decl : ParameterDecl} (hdecl : decl ∈ (bindable key owner shape).schema.params) :
    ∃ g, p.field? decl.name = some g ∧ g.decl = decl := by
  rw [← Option.map_eq_some_iff, ← get?_schema hshape hp key owner]
  exact ParameterSchema.mem_params_iff.1 hdecl

/-- What an instance holds as a parameter is converted to itself by every service, and is refused by
    no instance of the type. -/
theorem taken_of_read (hshape : shape.NamesApart) (hfree : shape.ParametersRecordFree)
    (hp : p.outline = shape.outline) {decl : ParameterDecl}
    (hdecl : decl ∈ (bindable key owner shape).schema.params) {v : Value}
    (hread : p.read decl.name = some v) :
    (∀ s : Service, s.convert v decl.type = .ok v) ∧
      refusal shape.fieldTypes decl.name v = none := by
  obtain ⟨g, hg, rfl⟩ := exists_field_of_decl hshape hp hdecl
  have hgfree : g.type.recordFree = true := hfree.of_outline hp _ g hg
  -- what is read is the value of the field, rendered, and that needs no conversion
  have hv : g.type.render g.value = v := by
    rw [read_eq, hg] at hread
    exact Option.some.inj hread
  constructor
  · intro s
    apply s.convert_of_ready
    rw [← hv]
    exact ParamType.ready_render hgfree g.value
  · rw [← fieldTypes_of_outline hp, refusal_fieldTypes, hg, ← hv]
    exact ParamType.refusal_render hgfree g.value

/-- An instance gives what it holds, unless it is null. -/
theorem given_ofPrototype_iff (hshape : shape.NamesApart) (hfree : shape.ParametersRecordFree)
    (hp : p.outline = shape.outline) {decl : ParameterDecl}
    (hdecl : decl ∈ (bindable key owner shape).schema.params) {v : Value} :
    Bindable.Given s (refusal shape.fieldTypes)
        (Source.ofPrototype (bindable key owner shape) p) decl v ↔
      p.read decl.name = some v ∧ v ≠ .null := by
  have hsource : ∀ raw, Source.present
      (Source.ofPrototype (bindable key owner shape) p decl.name) = some raw ↔
        p.read decl.name = some raw ∧ raw ≠ .null := by
    intro raw
    rw [Source.present_ofPrototype, Source.present_eq_some_iff]
    rfl
  constructor
  · intro h
    obtain ⟨raw, hraw, hconvert⟩ := Bindable.converted_iff.1 h.converted
    obtain ⟨hread, hnull⟩ := (hsource raw).1 hraw
    -- the value is converted to itself
    have hself := (taken_of_read hshape hfree hp hdecl hread).1 s
    obtain rfl : v = raw := Except.ok.inj (hconvert.symm.trans hself)
    exact ⟨hread, hnull⟩
  · intro ⟨hread, hnull⟩
    obtain ⟨hconvert, htaken⟩ := taken_of_read hshape hfree hp hdecl hread
    exact ⟨Bindable.converted_iff.2 ⟨v, (hsource v).2 ⟨hread, hnull⟩, hconvert s⟩, htaken⟩

/-- An instance is at fault for a required parameter that is null, and for nothing else. -/
theorem fault_ofPrototype_iff (hshape : shape.NamesApart) (hfree : shape.ParametersRecordFree)
    (hp : p.outline = shape.outline) {decl : ParameterDecl}
    (hdecl : decl ∈ (bindable key owner shape).schema.params) {e : FieldError} :
    Bindable.Fault s (refusal shape.fieldTypes)
        (Source.ofPrototype (bindable key owner shape) p) decl e ↔
      decl.required = true ∧ p.read decl.name = some .null ∧ e = .missing decl.name := by
  have hsource : ∀ raw, Source.ofPrototype (bindable key owner shape) p decl.name = some raw →
      p.read decl.name = some raw := fun raw hraw =>
    (Source.present_eq_some_iff.1 hraw).1
  constructor
  · intro h
    cases h with
    | missing hrequired habsent =>
      refine ⟨hrequired, ?_, rfl⟩
      rw [← Source.present_eq_none_iff, Source.present_ofPrototype,
        Source.present_eq_none_iff] at habsent
      -- a declared parameter can be read
      obtain ⟨g, hg, -⟩ := exists_field_of_decl hshape hp hdecl
      apply habsent.resolve_left
      show p.read decl.name ≠ none
      rw [read_eq, hg]
      exact nofun
    | unconvertible hraw hpresent hconvert =>
      have hself := (taken_of_read hshape hfree hp hdecl (hsource _ hraw)).1 s
      exact nomatch hself.symm.trans hconvert
    | refused hraw hpresent hconvert hrefused =>
      obtain ⟨hself, htaken⟩ := taken_of_read hshape hfree hp hdecl (hsource _ hraw)
      obtain rfl := Except.ok.inj ((hself s).symm.trans hconvert)
      exact nomatch htaken.symm.trans hrefused
  · rintro ⟨hrequired, hread, rfl⟩
    apply Bindable.Fault.missing hrequired
    left
    exact Source.present_eq_none_iff.2 (.inr hread)

/-! ## Copies -/

/-- What a binding from an instance `p` must make of another instance `f` of its type.

    It succeeds if no required parameter is null in `p`, and only then; otherwise it tells each of
    them as missing, and nothing else.  Whether or not it succeeds, every parameter of `p` that is
    not null reads afterwards as it does in `p`; every other name has the field that it had, the
    fields that more derived ones hide are as before, and so is what the type says of the fields. -/
structure Copied (b : Bindable Form) (p f : Form) (result : Form × Except BindingError Unit) :
    Prop where
  succeeds : result.2 = .ok () ↔
    ∀ decl ∈ b.schema.params, decl.required = true → b.read p decl.name ≠ some .null
  fails : ∀ e, result.2 = .error e → ∀ cause, cause ∈ e.failures ↔ ∃ decl ∈ b.schema.params,
    decl.required = true ∧ b.read p decl.name = some .null ∧ cause = .missing decl.name
  copies : ∀ name v, b.read p name = some v → v ≠ .null → b.read result.1 name = some v
  keeps : ∀ name, (∀ v, b.read p name = some v → v = .null) →
    result.1.field? name = f.field? name
  hidden : result.1.hidden [] = f.hidden []
  outline : result.1.outline = f.outline

/-- A binding from an instance of the same type copies its parameters. -/
theorem copied_bind (hshape : shape.NamesApart) (hfree : shape.ParametersRecordFree)
    (hp : p.outline = shape.outline) (hf : f.outline = shape.outline) (s : Service) :
    let b := bindable key owner shape
    Copied b p f (b.bind s (.ofPrototype b p) f) := by
  intro b
  have hkeeping := keeping_bindable key owner hshape
  -- the bound object has the declarations of the prototype and of the target
  have hkind : (b.bind s (.ofPrototype b p) f).1.outline = shape.outline := hkeeping.kind_bind hf
  have hreported := Bindable.bind_reported hkeeping.toUniform s (.ofPrototype b p) hf
  refine ⟨?_, fun e he cause => ?_, fun name v hread hnull => ?_, fun name hnone => ?_, ?_,
    hkind.trans hf.symm⟩
  · rw [hreported.succeeds]
    refine forall₂_congr fun decl hdecl => ?_
    constructor
    -- with a prototype the only fault is a required parameter that reads as null
    · intro h hrequired hread
      exact h _ ((fault_ofPrototype_iff hshape hfree hp hdecl).2 ⟨hrequired, hread, rfl⟩)
    · intro h e hfault
      obtain ⟨hrequired, hread, -⟩ := (fault_ofPrototype_iff hshape hfree hp hdecl).1 hfault
      exact h hrequired hread
  · obtain ⟨-, -, htold⟩ := hreported.fails e he
    rw [htold.exact cause]
    exact exists_congr fun decl => and_congr_right fun hdecl =>
      fault_ofPrototype_iff hshape hfree hp hdecl
  · -- the name is declared, as it can be read
    have hname : name ∈ b.schema.names := (hkeeping.declared hp).1 (by rw [hread]; rfl)
    obtain ⟨decl, hdecl, rfl⟩ := List.mem_map.1 hname
    have hgiven : Bindable.Given s (refusal shape.fieldTypes) (.ofPrototype b p) decl v :=
      (given_ofPrototype_iff hshape hfree hp hdecl).2 ⟨hread, hnull⟩
    exact read_of_holds (hfree.of_outline hkind) (hkeeping.holds_bind hf hdecl hgiven)
  · refine field?_bind fun decl hdecl hname v hv => ?_
    obtain ⟨raw, hraw, hpresent, -⟩ := hv
    have hread : p.read decl.name = some raw := (Source.present_eq_some_iff.1 hraw).1
    rw [hname] at hread
    exact hpresent (hnone raw hread)
  · refine Bindable.bind_induction (motive := fun t : Form => t.hidden [] = f.hidden []) ?_ rfl
    intro t stored name v hhidden hassign
    exact (hidden_assign hassign).trans hhidden

/-- What an instance gives is bound alike by every service, as none of it is converted. -/
theorem bind_ofPrototype_service (hshape : shape.NamesApart) (hfree : shape.ParametersRecordFree)
    (hp : p.outline = shape.outline) (s other : Service) (f : Form) :
    let b := bindable key owner shape
    b.bind other (.ofPrototype b p) f = b.bind s (.ofPrototype b p) f := by
  intro b
  refine Bindable.bind_congr_service (fun decl hdecl raw hraw => ?_) f
  rw [Source.present_ofPrototype] at hraw
  have hread : p.read decl.name = some raw := (Source.present_eq_some_iff.1 hraw).1
  obtain ⟨hconvert, -⟩ := taken_of_read hshape hfree hp hdecl hread
  rw [hconvert other, hconvert s]

/-- A binding from an instance copies its parameters.

    The type may have any number of levels, whose names are apart level by level, and parameters of
    all types but records, options and containers nested in any way.  An instance `f` of the type is
    bound from another one `p`, which is only read, by any service, the built-in one among them.
    Then it is `Copied`.  The instance may as well be given as the parameters of a dispatch with
    nothing written on top, and as no value is converted, it makes no difference which service
    binds it. -/
theorem bind_prototype_copies (key : TypeKey) (owner : String) {shape p f : Form}
    (hshape : shape.NamesApart) (hfree : shape.ParametersRecordFree)
    (hp : p.outline = shape.outline) (hf : f.outline = shape.outline) (s : Service) :
    let b := bindable key owner shape
    Copied b p f (b.bind s (.ofPrototype b p) f) ∧
    b.bind s (Parameters.ofPrototype b p).source f = b.bind s (.ofPrototype b p) f ∧
    ∀ other : Service, b.bind other (.ofPrototype b p) f = b.bind s (.ofPrototype b p) f := by
  intro b
  have hsource : (Parameters.ofPrototype b p).source = Source.ofPrototype b p := rfl
  refine ⟨copied_bind hshape hfree hp hf s, ?_, fun other => ?_⟩
  · rw [hsource]
  · exact bind_ofPrototype_service hshape hfree hp s other f

/-- The role is null and stays what it was.  The size of a page is given from the more derived
    level, and the one that it hides is not. -/
theorem bind_prototype_copies_redeclared :
    let shape : Form := [Sample.listUsers, Sample.paging]
    let b := bindable 0 "ListUsers" shape
    let p : Form :=
      [[⟨"role", .option .string, false, (none : Option String)⟩,
          ⟨"size", .int, true, (20 : Int32)⟩],
        [⟨"page", .int, false, (2 : Int32)⟩, ⟨"size", .int, false, (9 : Int32)⟩]]
    let f : Form :=
      [[⟨"role", .option .string, false, some "guest"⟩, ⟨"size", .int, true, (1 : Int32)⟩],
        [⟨"page", .int, false, (1 : Int32)⟩, ⟨"size", .int, false, (5 : Int32)⟩]]
    let bound := (b.bind .standard (.ofPrototype b p) f).1
    shape.NamesApart ∧ shape.ParametersRecordFree ∧ p.outline = shape.outline ∧
      f.outline = shape.outline ∧
      (b.bind .standard (.ofPrototype b p) f).2 = .ok () ∧
      b.read bound "size" = some (.int 20) ∧ b.read bound "page" = some (.int 2) ∧
      b.read bound "role" = some (.string "guest") ∧
      bound.hidden [] = [[], [⟨"size", .int, false, (5 : Int32)⟩]] := by
  intro shape b p f bound
  have hapart : shape.NamesApart := by
    unfold NamesApart
    decide
  have hfree : shape.ParametersRecordFree := by
    apply RecordFree.parameters
    unfold RecordFree
    decide
  obtain ⟨hcopied, -, -⟩ := bind_prototype_copies 0 "ListUsers" hapart hfree
    (rfl : p.outline = shape.outline) (rfl : f.outline = shape.outline) .standard
  -- the size is declared twice and listed once, as the derived type has it
  have hparams : b.schema.params =
      [⟨"page", .int, false⟩, ⟨"role", .string, false⟩, ⟨"size", .int, true⟩] := by
    decide
  refine ⟨hapart, hfree, rfl, rfl, hcopied.succeeds.2 ?_, hcopied.copies "size" _ rfl nofun,
    hcopied.copies "page" _ rfl nofun, ?_, hcopied.hidden⟩
  · -- only the size is required, and it is a number
    show ∀ decl ∈ b.schema.params, _
    rw [hparams]
    simp only [List.forall_mem_cons]
    exact ⟨nofun, nofun, fun _ => nofun, nofun⟩
  -- the role of the prototype is null, so the target keeps its own
  · have hrole : bound.field? "role" = f.field? "role" :=
      hcopied.keeps "role" fun v hv => (Option.some.inj hv).symm
    show bound.read "role" = _
    rw [read_eq, hrole]
    rfl

end Form

end CommandBus
