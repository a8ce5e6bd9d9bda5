import CommandBus.Proofs.Parameter.Binding

/-!
# What a schema finds under a name

The steps of a declaration, includes spelled out, are one sequence of declarations, and each of them
takes the place of an earlier one of its name.  So what a schema has under a name is the last
declaration of the name in that sequence.

## Key results

- `SchemaStep.runAll_eq_foldl`: running steps is declaring their declarations in turn
- `ParameterSchema.get?_ofSteps`: a schema has the last declaration of a name
- `ParameterSchema.mem_params_iff`: the parameters of a schema are what it finds
-/

namespace CommandBus

/-! ## Names that are apart -/

section Names

variable {α : Type} {name : α → String}

/-- Where no two have one name, what is found under a name is the one that has it. -/
theorem find?_name_iff {xs : List α} (h : (xs.map name).Nodup) {wanted : String} {x : α} :
    (xs.find? fun y => name y == wanted) = some x ↔ x ∈ xs ∧ name x = wanted := by
  constructor
  · intro hfind
    exact ⟨List.mem_of_find?_eq_some hfind, by simpa using List.find?_some hfind⟩
  · rintro ⟨hx, rfl⟩
    have hsome : (xs.find? fun y => name y == name x).isSome = true :=
      List.find?_isSome.2 ⟨x, hx, BEq.rfl⟩
    obtain ⟨y, hy⟩ := Option.isSome_iff_exists.1 hsome
    have hname : name y = name x := by simpa using List.find?_some hy
    rw [hy, List.inj_on_of_nodup_map h (List.mem_of_find?_eq_some hy) hx hname]

/-- There it does not matter from which end a name is looked for. -/
theorem find?_name_reverse {xs : List α} (h : (xs.map name).Nodup) (wanted : String) :
    (xs.reverse.find? fun y => name y == wanted) = xs.find? fun y => name y == wanted := by
  have hreverse : (xs.reverse.map name).Nodup := by
    rw [List.map_reverse]
    exact List.nodup_reverse.2 h
  refine Option.ext fun x => ?_
  rw [find?_name_iff hreverse, find?_name_iff h, List.mem_reverse]

end Names

/-! ## Declarations in turn -/

namespace SchemaStep

mutual

/-- A step declares its declarations in turn. -/
theorem run_eq_foldl (params : List ParameterDecl) :
    (step : SchemaStep) → run params step = (flatten step).foldl redeclare params
  | .declare _ => rfl
  | .include steps => runAll_eq_foldl params steps

/-- Steps declare the declarations of all of them in turn. -/
theorem runAll_eq_foldl (params : List ParameterDecl) :
    (steps : List SchemaStep) → runAll params steps = (flattenAll steps).foldl redeclare params
  | [] => rfl
  | step :: rest => by
    rw [runAll, flattenAll, List.foldl_append, run_eq_foldl params step, runAll_eq_foldl _ rest]

end

/-- A declaration is found under its name, and what is found under another name stays. -/
theorem find?_redeclare (params : List ParameterDecl) (decl : ParameterDecl) (name : String) :
    (redeclare params decl).find? (fun p => p.name == name) =
      if decl.name == name then some decl else params.find? fun p => p.name == name := by
  rw [redeclare, List.find?_append, List.find?_filter, List.find?_singleton]
  by_cases hname : decl.name = name
  · subst hname
    -- nothing of the name is left before the new declaration
    have hnone : (params.find? fun p =>
        decide ((p.name != decl.name) = true ∧ (p.name == decl.name) = true)) = none := by
      simp [List.find?_eq_none]
    rw [hnone, Option.none_or, if_pos BEq.rfl, if_pos BEq.rfl]
  · have hkept : (fun p : ParameterDecl =>
        decide ((p.name != decl.name) = true ∧ (p.name == name) = true)) =
        fun p => p.name == name := by
      funext p
      rw [Bool.eq_iff_iff, decide_eq_true_iff, and_iff_right_iff_imp, beq_iff_eq, bne_iff_ne]
      rintro rfl
      exact Ne.symm hname
    have hfalse : ¬(decl.name == name) = true := by simpa using hname
    rw [hkept, if_neg hfalse, if_neg hfalse, Option.or_none]

/-- The last one of declarations in turn is found under its name. -/
theorem find?_foldl_redeclare (params decls : List ParameterDecl) (name : String) :
    (decls.foldl redeclare params).find? (fun p => p.name == name) =
      (decls.reverse.find? fun p => p.name == name).or (params.find? fun p => p.name == name) := by
  induction decls generalizing params with
  | nil => rfl
  | cons decl rest ih =>
    rw [List.foldl_cons, ih, find?_redeclare, List.reverse_cons, List.find?_append,
      List.find?_singleton, Option.or_assoc]
    congr 1
    split <;> rfl

end SchemaStep

namespace ParameterSchema

/-- The parameters of a schema are those that it finds under their names. -/
theorem mem_params_iff {owner : String} {steps : List SchemaStep} {decl : ParameterDecl} :
    decl ∈ (ofSteps owner steps).params ↔ (ofSteps owner steps).get? decl.name = some decl := by
  rw [get?, find?_name_iff (nodup_names owner steps), and_iff_left rfl]

/-- The names of a schema are those that it finds something under. -/
theorem mem_names_iff {schema : ParameterSchema} {name : String} :
    name ∈ schema.names ↔ (schema.get? name).isSome = true := by
  rw [names, get?, List.find?_isSome, List.mem_map]
  simp only [beq_iff_eq]

/-- A schema has the last declaration of a name. -/
theorem get?_ofSteps (owner : String) (steps : List SchemaStep) (name : String) :
    (ofSteps owner steps).get? name =
      (SchemaStep.flattenAll steps).reverse.find? fun p => p.name == name := by
  rw [get?, ofSteps, SchemaStep.runAll_eq_foldl, SchemaStep.find?_foldl_redeclare, List.find?_nil,
    Option.or_none]

end ParameterSchema

end CommandBus
