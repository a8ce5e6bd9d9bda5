import CommandBus.Proofs.Parameter.Derived

/-!
# Types that declare, store and read alike

The instances of a derived type have the fields that the type declares, and a binding keeps them
apart: a field that was stored holds its value until a value is stored under its own name.  As long
as none of the fields is a record, a name also reads as what was stored under it.

For all types of this kind a binding changes what is given for the declared names and nothing
besides, whether it succeeds or fails.

## Key results

- `Form.keeping_bindable`, `Form.agrees_bindable`: derived types keep what they have, and read as
  they store
- `Bindable.bind_changes_given_only`: what a binding changes, and what it depends on
-/

namespace CommandBus

open Conversion (Service)

/-! ## Derived types -/

namespace Form

/-- The instances of a derived type keep what they have. -/
theorem keeping_bindable (key : TypeKey) (owner : String) {shape : Form}
    (hshape : shape.NamesApart) :
    (bindable key owner shape).Keeping (fun form => form.outline = shape.outline)
      (refusal shape.fieldTypes) where
  takes hform hassign :=
    have htaken := (uniform_bindable key owner shape).takes (fieldTypes_of_outline hform) hassign
    ⟨htaken.1, (outline_assign hassign).trans hform⟩
  refuses hform hassign :=
    (uniform_bindable key owner shape).refuses (fieldTypes_of_outline hform) hassign
  declared {form name} hform := by
    rw [mem_schema_names_iff hshape hform, show (bindable key owner shape).read form name =
      form.read name from rfl, read_eq, Option.isSome_map]
  again {form stored name v} _ hassign := by
    obtain ⟨⟨f, g, -, hstore, hfield⟩, -⟩ := field?_of_assign hassign
    exact assign_self_iff.2 ⟨g, hfield, FormField.store_of_store hstore⟩
  read_other {form stored name other v} _ hassign hother := by
    obtain ⟨-, hothers⟩ := field?_of_assign hassign
    have hread : stored.read other = form.read other := by
      rw [read_eq, read_eq, hothers other hother]
    exact hread
  again_other {form stored name other v w} _ hassign hother hheld := by
    -- the field that holds the other value is found as before
    obtain ⟨-, hothers⟩ := field?_of_assign hassign
    obtain ⟨f, hfield, hstore⟩ := assign_self_iff.1 hheld
    exact assign_self_iff.2 ⟨f, (hothers other hother).trans hfield, hstore⟩

/-- No field is a record, nor has one as a part. -/
def RecordFree (form : Form) : Prop :=
  ∀ level ∈ form.outline, ∀ o ∈ level, o.2.1.recordFree = true

theorem RecordFree.field {form : Form} (h : form.RecordFree) {name : String} {f : FormField}
    (hfield : form.field? name = some f) : f.type.recordFree = true := by
  obtain ⟨place, rfl, -, -⟩ := exists_place hfield
  have hlevel : place.before ++ f :: place.after ∈ place.put f :=
    List.mem_append_right _ List.mem_cons_self
  have hmem : f ∈ place.before ++ f :: place.after :=
    List.mem_append_right _ List.mem_cons_self
  exact h _ (List.mem_map_of_mem hlevel) f.outline (List.mem_map_of_mem hmem)

/-- The instances of a derived type without records read as they store. -/
theorem agrees_bindable (key : TypeKey) (owner : String) {shape : Form}
    (hshape : shape.NamesApart) (hfree : shape.RecordFree) :
    (bindable key owner shape).Agrees (fun form => form.outline = shape.outline)
      (refusal shape.fieldTypes) where
  toKeeping := keeping_bindable key owner hshape
  reads {form stored name v} hform hassign := by
    obtain ⟨⟨f, g, hfield, hstore, hstored⟩, -⟩ := field?_of_assign hassign
    obtain ⟨a, hextract, rfl⟩ := FormField.exists_of_store hstore
    -- the instance has the field types of its type
    have hfree : form.RecordFree := by
      rw [RecordFree, hform]
      exact hfree
    have hread : stored.read name = some (f.type.render a) := by
      rw [read_eq, hstored]
      rfl
    rw [ParamType.render_of_extract (hfree.field hfield) hextract] at hread
    exact hread

end Form

/-! ## What a binding changes -/

namespace Bindable

variable {β : Type} {b : Bindable β} {Kind : β → Prop}
  {refusal : String → Value → Option ConversionError}

/-- A binding changes what is given, whether or not it succeeds.

    Every value that is given for a declared name is read after the binding, and a name that nothing
    is given for reads as before, whatever became of the others.  The binding depends on what the
    source gives for the declared names alone, where null is nothing, so that an instance may stand
    for the map of its fields.  And binding the same source again changes nothing and reports the
    same. -/
theorem bind_changes_given_only (h : b.Agrees Kind refusal) (s : Service) (source : Source)
    {target : β} (ht : Kind target) :
    let bound := (b.bind s source target).1
    (∀ decl ∈ b.schema.params, ∀ v, Given s refusal source decl v →
      b.read bound decl.name = some v) ∧
    (∀ name, (∀ decl ∈ b.schema.params, decl.name = name → ∀ v, ¬ Given s refusal source decl v) →
      b.read bound name = b.read target name) ∧
    (∀ other : Source, (∀ name ∈ b.schema.names,
        Source.present (other name) = Source.present (source name)) →
      b.bind s other target = b.bind s source target) ∧
    (∀ (γ : Type) (c : Bindable γ) (prototype : γ),
      (∀ name, (c.read prototype name).isSome = true → name ∈ c.schema.names) →
      b.bind s (.ofPrototype c prototype) target =
        b.bind s (.ofEntries (c.fields prototype)) target) ∧
    b.bind s source bound = b.bind s source target := by
  intro bound
  -- the object stays of its kind, so that what was stored can be read
  have hkind : Kind bound := h.kind_bind ht
  refine ⟨fun decl hdecl v hv => ?_, fun name hnone => ?_, fun other hother => ?_,
    fun γ c prototype hdeclared => ?_, ?_⟩
  · exact h.read_of_holds hkind (h.holds_bind ht hdecl hv)
  · exact h.read_bind ht hnone
  · exact bind_congr hother target
  · rw [ofPrototype_eq hdeclared]
  · exact h.bind_bind ht

/-- The size of a page is given as a text of digits.  Its number is no number, so the binding fails,
    and the role is null: both read as before, and without the role and the name that is not
    declared the binding is the same. -/
theorem bind_changes_given_only_mixed :
    let shape : Form := [Sample.listUsers, Sample.paging]
    let b := Form.bindable 0 "ListUsers" shape
    let source := Source.ofEntries
      [("extra", .bool true), ("page", .string "first"), ("role", .null), ("size", .string "20")]
    let bound := (b.bind .standard source shape).1
    b.Agrees (fun form => form.outline = shape.outline) (Form.refusal shape.fieldTypes) ∧
      b.read bound "size" = some (.int 20) ∧
      b.read bound "page" = b.read shape "page" ∧
      b.bind .standard (.ofEntries [("page", .string "first"), ("size", .string "20")]) shape =
        b.bind .standard source shape ∧
      b.bind .standard (.ofPrototype b bound) shape =
        b.bind .standard (.ofEntries (b.fields bound)) shape ∧
      b.bind .standard source bound = b.bind .standard source shape := by
  intro shape b source bound
  have hapart : shape.NamesApart := by
    unfold Form.NamesApart
    decide
  have hfree : shape.RecordFree := by
    unfold Form.RecordFree
    decide
  have hagrees := Form.agrees_bindable 0 "ListUsers" hapart hfree
  have hkind : bound.outline = shape.outline := hagrees.kind_bind rfl
  obtain ⟨hgiven, hother, hsource, hprototype, hagain⟩ :=
    bind_changes_given_only hagrees .standard source rfl
  have hparams : b.schema.params =
      [⟨"page", .int, false⟩, ⟨"role", .string, false⟩, ⟨"size", .int, true⟩] := by
    decide
  have hnames : b.schema.names = ["page", "role", "size"] := by decide
  -- only the size is given: the page is no number, the role is null, and the rest is not declared
  have hsize : Given .standard (Form.refusal shape.fieldTypes) source ⟨"size", .int, true⟩
      (.int 20) := ⟨⟨.string "20", rfl, nofun, rfl⟩, rfl⟩
  refine ⟨hagrees, hgiven _ ?_ _ hsize, hother "page" fun decl hdecl hname v hv => ?_,
    hsource _ ?_, hprototype _ b bound fun name => (hagrees.declared hkind).1, hagain⟩
  · rw [hparams]
    decide
  -- the page was sent, but as a text that no number can be read from
  · have hpage : b.schema.get? "page" = some ⟨"page", .int, false⟩ := by decide
    have hfound : b.schema.get? decl.name = some decl := ParameterSchema.mem_params_iff.1 hdecl
    rw [hname] at hfound
    obtain rfl := Option.some.inj (hpage.symm.trans hfound)
    obtain ⟨raw, hraw, -, hconvert⟩ := hv.converted
    obtain rfl : .string "first" = raw := Option.some.inj hraw
    exact nomatch hconvert
  · rw [hnames]
    simp only [List.forall_mem_cons]
    exact ⟨rfl, rfl, rfl, nofun⟩

end Bindable

end CommandBus
