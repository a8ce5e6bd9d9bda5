import CommandBus.Proofs.Parameter.Schemas
import Mathlib.Data.List.Dedup

/-!
# The order of a schema

A declaration removes an earlier one of its name and stands at the end.  So after a sequence of
declarations those are left that no later one of their names follows, and they stand in the order
in which they were declared, whatever was declared in between and in whichever included type.

## Key results

- `SchemaStep.foldl_redeclare`: what a sequence of declarations makes of the parameters so far
- `SchemaStep.map_name_standing`: the names that are left are the declared ones without repetition
- `SchemaStep.mem_standing_iff`, `SchemaStep.pairwise_standing`: which declarations are left, and
  in which order
- `ParameterSchema.ofSteps_listsLast`: all of it for the schema of any steps
-/

namespace CommandBus

namespace SchemaStep

/-- The declarations that no later one of their names follows. -/
def standing : List ParameterDecl → List ParameterDecl
  | [] => []
  | decl :: rest =>
    if decl.name ∈ rest.map ParameterDecl.name then standing rest else decl :: standing rest

/-- The declaration stands at the place `i` of the sequence, and no later one has its name. -/
def LastPlace (decls : List ParameterDecl) (i : Nat) (decl : ParameterDecl) : Prop :=
  decls[i]? = some decl ∧ ∀ j later, i < j → decls[j]? = some later → later.name ≠ decl.name

/-! ## What is left -/

/-- Declarations in turn leave, of the parameters so far, those of other names, and behind them
    the declarations that are not replaced. -/
theorem foldl_redeclare (params decls : List ParameterDecl) :
    decls.foldl redeclare params =
      params.filter (fun p => p.name ∉ decls.map ParameterDecl.name) ++ standing decls := by
  induction decls generalizing params with
  | nil => simp [standing]
  | cons decl rest ih =>
    have hkept : (params.filter fun p => p.name != decl.name).filter
          (fun p => p.name ∉ rest.map ParameterDecl.name) =
        params.filter fun p => p.name ∉ (decl :: rest).map ParameterDecl.name := by
      rw [List.filter_filter]
      refine List.filter_congr fun p _ => ?_
      rw [Bool.eq_iff_iff]
      simp [and_comm]
    -- the new declaration is one of those that the rest may replace
    rw [List.foldl_cons, ih, redeclare, List.filter_append, hkept, List.append_assoc,
      List.append_cancel_left_eq, List.filter_singleton, standing]
    by_cases h : decl.name ∈ rest.map ParameterDecl.name
    · simp [h]
    · simp [h]

theorem runAll_nil_eq_standing (steps : List SchemaStep) :
    runAll [] steps = standing (flattenAll steps) := by
  rw [runAll_eq_foldl, foldl_redeclare, List.filter_nil, List.nil_append]

/-- The names that are left are the declared ones, each at its last occurrence. -/
theorem map_name_standing (decls : List ParameterDecl) :
    (standing decls).map ParameterDecl.name = (decls.map ParameterDecl.name).dedup := by
  induction decls with
  | nil => rfl
  | cons decl rest ih =>
    rw [standing, List.map_cons]
    by_cases h : decl.name ∈ rest.map ParameterDecl.name
    · rw [if_pos h, List.dedup_cons_of_mem h, ih]
    · rw [if_neg h, List.dedup_cons_of_notMem h, List.map_cons, ih]

/-! ## Places -/

section Places

variable {decls rest : List ParameterDecl} {decl p : ParameterDecl} {i : Nat}

/-- Behind a first declaration all places are one further. -/
theorem lastPlace_cons_succ : LastPlace (decl :: rest) (i + 1) p ↔ LastPlace rest i p := by
  unfold LastPlace
  rw [List.getElem?_cons_succ]
  refine and_congr_right fun _ => ⟨fun h j later hlt hlater => ?_, fun h j later hlt hlater => ?_⟩
  · exact h (j + 1) later (by omega) (by rwa [List.getElem?_cons_succ])
  · obtain ⟨j, rfl⟩ : ∃ k, j = k + 1 := ⟨j - 1, by omega⟩
    rw [List.getElem?_cons_succ] at hlater
    exact h j later (by omega) hlater

/-- The first declaration is the last one of its name if the name is not declared again. -/
theorem lastPlace_cons_zero :
    LastPlace (decl :: rest) 0 p ↔ decl = p ∧ decl.name ∉ rest.map ParameterDecl.name := by
  unfold LastPlace
  rw [List.getElem?_cons_zero, Option.some.injEq]
  refine and_congr_right ?_
  rintro rfl
  rw [List.mem_map]
  -- the places after the first are those of the rest, moved by one
  constructor
  · rintro h ⟨later, hmem, hname⟩
    obtain ⟨j, hj⟩ := List.mem_iff_getElem?.1 hmem
    exact h (j + 1) later (by omega) (by rwa [List.getElem?_cons_succ]) hname
  · intro h j later hlt hlater hname
    obtain ⟨j, rfl⟩ : ∃ k, j = k + 1 := ⟨j - 1, by omega⟩
    rw [List.getElem?_cons_succ] at hlater
    exact h ⟨later, List.mem_of_getElem? hlater, hname⟩

/-- What is left is what has a last place. -/
theorem mem_standing_iff : p ∈ standing decls ↔ ∃ i, LastPlace decls i p := by
  induction decls with
  | nil => simp [standing, LastPlace]
  | cons decl rest ih =>
    -- a last place is that of the first declaration or one behind it
    have hplaces : (∃ i, LastPlace (decl :: rest) i p) ↔
        (decl = p ∧ decl.name ∉ rest.map ParameterDecl.name) ∨ ∃ i, LastPlace rest i p := by
      constructor
      · rintro ⟨_ | i, h⟩
        · exact .inl (lastPlace_cons_zero.1 h)
        · exact .inr ⟨i, lastPlace_cons_succ.1 h⟩
      · rintro (h | ⟨i, h⟩)
        · exact ⟨0, lastPlace_cons_zero.2 h⟩
        · exact ⟨i + 1, lastPlace_cons_succ.2 h⟩
    rw [hplaces, ← ih, standing]
    by_cases h : decl.name ∈ rest.map ParameterDecl.name
    · simp [h]
    · simp [h, eq_comm]

/-- What is left stands in the order of the last places. -/
theorem pairwise_standing (decls : List ParameterDecl) :
    (standing decls).Pairwise fun earlier later =>
      ∃ i j, i < j ∧ LastPlace decls i earlier ∧ LastPlace decls j later := by
  induction decls with
  | nil => exact .nil
  | cons decl rest ih =>
    -- places in the rest are places after the first
    have hrest := ih.imp (S := fun earlier later =>
        ∃ i j, i < j ∧ LastPlace (decl :: rest) i earlier ∧ LastPlace (decl :: rest) j later) (by
      rintro earlier later ⟨i, j, hlt, hearlier, hlater⟩
      exact ⟨i + 1, j + 1, by omega, lastPlace_cons_succ.2 hearlier, lastPlace_cons_succ.2 hlater⟩)
    rw [standing]
    by_cases h : decl.name ∈ rest.map ParameterDecl.name
    · rwa [if_pos h]
    · rw [if_neg h]
      -- the first declaration stands before all that stand in the rest
      refine .cons (fun later hlater => ?_) hrest
      obtain ⟨j, hj⟩ := mem_standing_iff.1 hlater
      exact ⟨0, j + 1, by omega, lastPlace_cons_zero.2 ⟨rfl, h⟩, lastPlace_cons_succ.2 hj⟩

end Places

end SchemaStep

namespace ParameterSchema

open SchemaStep (LastPlace)

/-- What a schema lists of a sequence of declarations. -/
structure ListsLast (schema : ParameterSchema) (decls : List ParameterDecl) : Prop where
  /-- A name is listed once if it is declared, and not at all otherwise. -/
  once : ∀ name, schema.names.count name = if name ∈ decls.map ParameterDecl.name then 1 else 0
  /-- What is listed under a name is the last declaration of it, with its type and requirement. -/
  last : ∀ decl, decl ∈ schema.params ↔ ∃ i, LastPlace decls i decl
  /-- It stands where the places of the last declarations put it. -/
  ordered : schema.params.Pairwise fun earlier later =>
    ∃ i j, i < j ∧ LastPlace decls i earlier ∧ LastPlace decls j later
  /-- What is found under a name is what is listed under it. -/
  found : ∀ name decl, schema.get? name = some decl ↔ decl ∈ schema.params ∧ decl.name = name

/-- The schema of any steps, with includes at any place and to any depth, lists every declared name
    exactly once, with its last declaration in the flat sequence and in the order of those, and
    finds it under its name. -/
theorem ofSteps_listsLast (owner : String) (steps : List SchemaStep) :
    (ofSteps owner steps).ListsLast (SchemaStep.flattenAll steps) := by
  -- whatever the nesting, the parameters are those that stand at the end of the flat list
  have hparams : (ofSteps owner steps).params =
      SchemaStep.standing (SchemaStep.flattenAll steps) :=
    SchemaStep.runAll_nil_eq_standing steps
  have hnames : (ofSteps owner steps).names =
      ((SchemaStep.flattenAll steps).map ParameterDecl.name).dedup := by
    rw [names, hparams, SchemaStep.map_name_standing]
  refine ⟨fun name => ?once, fun decl => ?last, ?ordered, fun name decl => ?found⟩
  case once =>
    rw [hnames, (List.nodup_dedup _).count]
    exact if_congr List.mem_dedup rfl rfl
  case last =>
    rw [hparams]
    exact SchemaStep.mem_standing_iff
  case ordered =>
    rw [hparams]
    exact SchemaStep.pairwise_standing _
  case found =>
    rw [get?]
    exact find?_name_iff (nodup_names owner steps)

/-- A derived type that declares `size` once more has it at the end, as it declares it. -/
example :
    let base : List SchemaStep := [.declare ⟨"page", .int, false⟩, .declare ⟨"size", .int, false⟩]
    (ofSteps "ListUsers" [.include base, .declare ⟨"role", .string, false⟩,
        .declare ⟨"size", .int, true⟩]).params =
      [⟨"page", .int, false⟩, ⟨"role", .string, false⟩, ⟨"size", .int, true⟩] := by
  decide

end ParameterSchema

end CommandBus
