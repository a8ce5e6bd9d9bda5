import CommandBus.Proofs.Parameter.Binding

/-!
# What a binding stores

One step of a binding stores the converted value of a parameter, or leaves the target as it is.
What every stored value keeps is therefore kept by a whole binding.  For targets whose names do not
get into each other's way (`Keeping`), the values that are given for the declared names are all held
after a binding, whatever became of the other parameters, and every other name reads as before; and
as a target takes a value that it holds without a change, binding once more changes nothing.

A binding looks at its source only for the declared names, and takes null for nothing.

## Key results

- `bindStep_cases`: what one step of a binding does
- `bind_induction`: what every stored value keeps, a binding keeps
- `holds_bind`, `read_bind`: what is held after a binding, and what reads as before
- `bind_bind`: binding the same source again changes nothing
- `bind_congr`: a binding sees only what a source gives for the declared names
-/

namespace CommandBus.Bindable

open Conversion (Service)

variable {β : Type} {b : Bindable β} {s : Service} {source : Source}

/-! ## One step -/

/-- The source gives a value for a parameter, which is converted to another one. -/
def Converted (s : Service) (source : Source) (decl : ParameterDecl) (v : Value) : Prop :=
  ∃ raw, source decl.name = some raw ∧ raw ≠ .null ∧ s.convert raw decl.type = .ok v

theorem converted_iff {decl : ParameterDecl} {v : Value} :
    Converted s source decl v ↔
      ∃ raw, Source.present (source decl.name) = some raw ∧ s.convert raw decl.type = .ok v := by
  simp only [Converted, Source.present_eq_some_iff, and_assoc]

/-- The target after one parameter was bound, or was not. -/
def bindStep (b : Bindable β) (s : Service) (source : Source) (target : β)
    (decl : ParameterDecl) : β :=
  match b.bindField s source target decl with
  | .ok bound => bound
  | .error _ => target

/-- One parameter is bound after the other, whether or not they can be. -/
theorem bindFields_fst (target : β) (decls : List ParameterDecl) :
    (b.bindFields s source target decls).1 = decls.foldl (b.bindStep s source) target := by
  induction decls generalizing target with
  | nil => rfl
  | cons decl rest ih =>
    rw [List.foldl_cons, bindFields, bindStep]
    cases b.bindField s source target decl with
    | ok bound => exact ih bound
    | error e => exact ih target

theorem bind_fst (target : β) :
    (b.bind s source target).1 = b.schema.params.foldl (b.bindStep s source) target := by
  rw [bind, bindSchema, ← bindFields_fst]
  dsimp only
  split <;> rfl

/-- A step stores the converted value of its parameter, or leaves the target as it is if there is
    none or it is not taken. -/
theorem bindStep_cases (b : Bindable β) (s : Service) (source : Source) (target : β)
    (decl : ParameterDecl) :
    (∃ v, Converted s source decl v ∧
      b.assign target decl.name v = .ok (b.bindStep s source target decl)) ∨
    ((∀ v stored, Converted s source decl v → b.assign target decl.name v ≠ .ok stored) ∧
      b.bindStep s source target decl = target) := by
  simp only [converted_iff, bindStep, bindField]
  -- nothing is there, or it is not converted, or it is refused, or it is stored
  cases Source.present (source decl.name) with
  | none =>
    refine .inr ⟨fun v stored ⟨raw, hraw, _⟩ => (nomatch hraw), ?_⟩
    cases decl.required <;> rfl
  | some raw =>
    dsimp only
    cases hconvert : s.convert raw decl.type with
    | error e =>
      refine .inr ⟨fun v stored ⟨other, hother, hv⟩ => ?_, rfl⟩
      obtain rfl := Option.some.inj hother
      rw [hconvert] at hv
      exact nomatch hv
    | ok v =>
      dsimp only
      cases hassign : b.assign target decl.name v with
      | ok stored => exact .inl ⟨v, ⟨raw, rfl, hconvert⟩, hassign⟩
      | error e =>
        refine .inr ⟨fun w stored ⟨other, hother, hw⟩ => ?_, rfl⟩
        obtain rfl := Option.some.inj hother
        obtain rfl : v = w := Except.ok.inj (hconvert.symm.trans hw)
        rw [hassign]
        exact nofun

/-- What every stored value keeps, a binding keeps. -/
theorem bind_induction {motive : β → Prop}
    (hassign : ∀ {t stored : β} {name : String} {v : Value}, motive t →
      b.assign t name v = .ok stored → motive stored)
    {target : β} (h : motive target) : motive (b.bind s source target).1 := by
  rw [bind_fst]
  refine List.foldlRecOn _ _ h fun t ht decl _ => ?_
  obtain ⟨v, -, hstored⟩ | ⟨-, heq⟩ := bindStep_cases b s source t decl
  · exact hassign ht hstored
  · rw [heq]
    exact ht

/-! ## Targets whose names do not get into each other's way -/

variable {Kind : β → Prop} {refusal : String → Value → Option ConversionError}

/-- A target of a kind keeps what it has: its declared names are those that can be read, a value
    that was stored is taken again without a change, and storing under one name changes nothing
    under another. -/
structure Keeping (b : Bindable β) (Kind : β → Prop)
    (refusal : String → Value → Option ConversionError) : Prop extends b.Uniform Kind refusal where
  declared : ∀ {target : β} {name : String}, Kind target →
    ((b.read target name).isSome = true ↔ name ∈ b.schema.names)
  again : ∀ {target stored : β} {name : String} {v : Value}, Kind target →
    b.assign target name v = .ok stored → b.assign stored name v = .ok stored
  read_other : ∀ {target stored : β} {name other : String} {v : Value}, Kind target →
    b.assign target name v = .ok stored → other ≠ name → b.read stored other = b.read target other
  again_other : ∀ {target stored : β} {name other : String} {v w : Value}, Kind target →
    b.assign target name v = .ok stored → other ≠ name → b.assign target other w = .ok target →
      b.assign stored other w = .ok stored

/-- Declaring, storing and reading agree if, besides, a name reads as what was stored under it. -/
structure Agrees (b : Bindable β) (Kind : β → Prop)
    (refusal : String → Value → Option ConversionError) : Prop extends b.Keeping Kind refusal where
  reads : ∀ {target stored : β} {name : String} {v : Value}, Kind target →
    b.assign target name v = .ok stored → b.read stored name = some v

/-- A value is present, is converted, and the converted value is taken. -/
structure Given (s : Service) (refusal : String → Value → Option ConversionError)
    (source : Source) (decl : ParameterDecl) (v : Value) : Prop where
  converted : Converted s source decl v
  taken : refusal decl.name v = none

/-- A step stores what is given for its parameter, if anything is. -/
theorem Uniform.bindStep_cases (h : b.Uniform Kind refusal) (s : Service) (source : Source)
    {target : β} (ht : Kind target) (decl : ParameterDecl) :
    (∃ v, Given s refusal source decl v ∧
      b.assign target decl.name v = .ok (b.bindStep s source target decl)) ∨
    ((∀ v, ¬ Given s refusal source decl v) ∧ b.bindStep s source target decl = target) := by
  obtain ⟨v, hv, hassign⟩ | ⟨hnone, heq⟩ := b.bindStep_cases s source target decl
  · exact .inl ⟨v, ⟨hv, (h.takes ht hassign).1⟩, hassign⟩
  -- a value that is taken can be stored, so that nothing was given
  · refine .inr ⟨fun v hv => ?_, heq⟩
    cases hassign : b.assign target decl.name v with
    | ok stored => exact hnone v stored hv.converted hassign
    | error e =>
      have hrefused := h.refuses ht hassign
      rw [hv.taken] at hrefused
      exact nomatch hrefused

theorem Uniform.kind_bindStep (h : b.Uniform Kind refusal) (s : Service) (source : Source)
    {target : β} (ht : Kind target) (decl : ParameterDecl) :
    Kind (b.bindStep s source target decl) := by
  obtain ⟨v, -, hassign⟩ | ⟨-, heq⟩ := h.bindStep_cases s source ht decl
  · exact (h.takes ht hassign).2
  · rw [heq]
    exact ht

/-- At most one value is given for a parameter. -/
theorem Given.unique {decl : ParameterDecl} {v w : Value} (hv : Given s refusal source decl v)
    (hw : Given s refusal source decl w) : v = w := by
  obtain ⟨raw, hraw, hv⟩ := converted_iff.1 hv.converted
  obtain ⟨other, hother, hw⟩ := converted_iff.1 hw.converted
  obtain rfl : raw = other := Option.some.inj (hraw.symm.trans hother)
  exact Except.ok.inj (hv.symm.trans hw)

/-! ## A whole binding -/

/-- A target holds a value under a name if it takes it without a change. -/
def Holds (b : Bindable β) (target : β) (name : String) (v : Value) : Prop :=
  b.assign target name v = .ok target

theorem Agrees.read_of_holds (h : b.Agrees Kind refusal) {target : β} (ht : Kind target)
    {name : String} {v : Value} (hv : b.Holds target name v) : b.read target name = some v :=
  h.reads ht hv

/-- Steps for other names leave what is held under a name. -/
theorem Keeping.holds_foldl_of_ne (h : b.Keeping Kind refusal) {target : β} (ht : Kind target)
    {decls : List ParameterDecl} {name : String} (hne : ∀ decl ∈ decls, decl.name ≠ name)
    {v : Value} (hv : b.Holds target name v) :
    b.Holds (decls.foldl (b.bindStep s source) target) name v := by
  have hrun : Kind (decls.foldl (b.bindStep s source) target) ∧
      b.Holds (decls.foldl (b.bindStep s source) target) name v := by
    refine List.foldlRecOn (motive := fun t => Kind t ∧ b.Holds t name v) _ _ ⟨ht, hv⟩
      fun t ⟨hkind, hheld⟩ decl hdecl => ⟨h.kind_bindStep s source hkind decl, ?_⟩
    obtain ⟨w, -, hassign⟩ | ⟨-, heq⟩ := h.bindStep_cases s source hkind decl
    · exact h.again_other hkind hassign (Ne.symm (hne decl hdecl)) hheld
    · rw [heq]
      exact hheld
  exact hrun.2

/-- What is given for parameters of different names is held after their steps. -/
theorem Keeping.holds_foldl (h : b.Keeping Kind refusal) {target : β} (ht : Kind target)
    {decls : List ParameterDecl} (hnames : (decls.map ParameterDecl.name).Nodup)
    {decl : ParameterDecl} (hdecl : decl ∈ decls) {v : Value}
    (hv : Given s refusal source decl v) :
    b.Holds (decls.foldl (b.bindStep s source) target) decl.name v := by
  induction decls generalizing target with
  | nil => exact nomatch hdecl
  | cons first rest ih =>
    obtain ⟨hfirst, hrest⟩ := List.nodup_cons.1 hnames
    have hkind := h.kind_bindStep s source ht first
    rw [List.foldl_cons]
    -- every name is declared once, so that no later step writes to this one
    rcases List.mem_cons.1 hdecl with rfl | hmem
    · -- the step of the parameter stores the value, and the others have other names
      have hheld : b.Holds (b.bindStep s source target decl) decl.name v := by
        obtain ⟨w, hw, hassign⟩ | ⟨hnone, -⟩ := h.bindStep_cases s source ht decl
        · obtain rfl := hv.unique hw
          exact h.again ht hassign
        · exact absurd hv (hnone v)
      have hne : ∀ other ∈ rest, other.name ≠ decl.name := fun other hother hname =>
        hfirst (List.mem_map.2 ⟨other, hother, hname⟩)
      exact h.holds_foldl_of_ne hkind hne hheld
    · exact ih hkind hrest hmem

/-- After a binding every given value is held. -/
theorem Keeping.holds_bind (h : b.Keeping Kind refusal) {target : β} (ht : Kind target)
    {decl : ParameterDecl} (hdecl : decl ∈ b.schema.params) {v : Value}
    (hv : Given s refusal source decl v) :
    b.Holds (b.bind s source target).1 decl.name v := by
  rw [bind_fst]
  exact h.holds_foldl ht (ParameterSchema.nodup_names b.owner b.declarations) hdecl hv

/-- A name that nothing is given for reads as before. -/
theorem Keeping.read_bind (h : b.Keeping Kind refusal) {target : β} (ht : Kind target)
    {name : String} (hnone : ∀ decl ∈ b.schema.params, decl.name = name →
      ∀ v, ¬ Given s refusal source decl v) :
    b.read (b.bind s source target).1 name = b.read target name := by
  rw [bind_fst]
  have hrun := List.foldlRecOn (motive := fun t => Kind t ∧ b.read t name = b.read target name)
    b.schema.params (b.bindStep s source) ⟨ht, rfl⟩
    fun t ⟨hkind, hread⟩ decl hdecl => ⟨h.kind_bindStep s source hkind decl, by
      obtain ⟨v, hv, hassign⟩ | ⟨-, heq⟩ := h.bindStep_cases s source hkind decl
      · have hne : name ≠ decl.name := fun hname => hnone decl hdecl hname.symm v hv
        rw [h.read_other hkind hassign hne, hread]
      · rw [heq, hread]⟩
  exact hrun.2

theorem Uniform.kind_bind (h : b.Uniform Kind refusal) {target : β} (ht : Kind target) :
    Kind (b.bind s source target).1 :=
  bind_induction (fun ht hassign => (h.takes ht hassign).2) ht

/-- Binding the same source again changes nothing and reports the same. -/
theorem Keeping.bind_bind (h : b.Keeping Kind refusal) {target : β} (ht : Kind target) :
    b.bind s source (b.bind s source target).1 = b.bind s source target := by
  have hkind : Kind (b.bind s source target).1 := h.kind_bind ht
  refine Prod.ext ?_ ((bind_snd h.toUniform s source hkind).trans
    (bind_snd h.toUniform s source ht).symm)
  -- no step changes a target that holds what is given
  refine (bind_fst (b.bind s source target).1).trans ?_
  refine List.foldlRecOn (motive := fun t => t = (b.bind s source target).1) _ _ rfl ?_
  rintro t rfl decl hdecl
  obtain ⟨v, hv, hassign⟩ | ⟨-, heq⟩ := h.bindStep_cases s source hkind decl
  · have hheld : b.Holds (b.bind s source target).1 decl.name v := h.holds_bind ht hdecl hv
    exact Except.ok.inj (hassign.symm.trans hheld)
  · exact heq

/-! ## What is seen of a source -/

/-- A parameter is bound by what a source gives for its name. -/
theorem bindField_congr {other : Source} {decl : ParameterDecl}
    (h : Source.present (other decl.name) = Source.present (source decl.name)) (target : β) :
    b.bindField s other target decl = b.bindField s source target decl := by
  simp only [bindField, h]

theorem bindFields_congr {other : Source} {decls : List ParameterDecl}
    (h : ∀ decl ∈ decls,
      Source.present (other decl.name) = Source.present (source decl.name)) (target : β) :
    b.bindFields s other target decls = b.bindFields s source target decls := by
  induction decls generalizing target with
  | nil => rfl
  | cons decl rest ih =>
    rw [List.forall_mem_cons] at h
    simp only [bindFields, bindField_congr h.1, ih h.2]

/-- A binding sees only what a source gives for the declared names, and takes null for nothing. -/
theorem bind_congr {other : Source} (h : ∀ name ∈ b.schema.names,
      Source.present (other name) = Source.present (source name)) (target : β) :
    b.bind s other target = b.bind s source target := by
  have hdecls : ∀ decl ∈ b.schema.params,
      Source.present (other decl.name) = Source.present (source decl.name) :=
    fun decl hdecl => h decl.name (List.mem_map_of_mem hdecl)
  simp only [bind, bindSchema, bindFields_congr hdecls]

/-- The declared names of an instance with their values. -/
def readings (b : Bindable β) (t : β) : List (String × Value) :=
  b.schema.names.filterMap fun name => (b.read t name).map fun v => (name, v)

/-- The same as a map. -/
def fields (b : Bindable β) (t : β) : Entries Value := Entries.ofList (b.readings t)

theorem mem_readings_iff {t : β} {e : String × Value} :
    e ∈ b.readings t ↔ e.1 ∈ b.schema.names ∧ b.read t e.1 = some e.2 := by
  rw [readings, List.mem_filterMap]
  constructor
  · rintro ⟨name, hname, he⟩
    obtain ⟨v, hv, rfl⟩ := Option.map_eq_some_iff.1 he
    exact ⟨hname, hv⟩
  · rintro ⟨hname, hread⟩
    exact ⟨e.1, hname, by rw [hread]; rfl⟩

/-- The map of an instance has what the instance has. -/
theorem get?_fields {t : β} {name : String}
    (h : (b.read t name).isSome = true → name ∈ b.schema.names) :
    Entries.get? name (b.fields t) = b.read t name := by
  rw [fields, Entries.get?_ofList]
  cases hfind : (b.readings t).reverse.find? fun e => e.1 == name with
  | some e =>
    have hname : e.1 = name := by simpa using List.find?_some hfind
    obtain ⟨-, hread⟩ := mem_readings_iff.1 (List.mem_reverse.1 (List.mem_of_find?_eq_some hfind))
    rw [← hname, hread]
    rfl
  | none =>
    -- a value that can be read would have been found
    cases hread : b.read t name with
    | none => rfl
    | some v =>
      have hmem : (name, v) ∈ b.readings t := mem_readings_iff.2 ⟨h (by rw [hread]; rfl), hread⟩
      exact absurd BEq.rfl (List.find?_eq_none.1 hfind (name, v) (List.mem_reverse.2 hmem))

/-- An instance gives the same values as the map of its fields. -/
theorem ofPrototype_eq {t : β} (h : ∀ name, (b.read t name).isSome = true → name ∈ b.schema.names) :
    Source.ofPrototype b t = Source.ofEntries (b.fields t) := by
  funext name
  rw [Source.ofPrototype, Source.ofEntries, get?_fields (h name)]

end CommandBus.Bindable
