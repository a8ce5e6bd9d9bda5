import CommandBus.Proofs.Conversion.Disabled

/-!
# Overrides

A service that is built with overrides is the built-in service but for the pairs of the overrides.
The last override of a pair converts its values, wherever they are in lists and maps, and all other
values are converted as the built-in service converts them.

An override is idle if no conversion looks for it: null is never converted, a value is never
converted into its own kind, and null, lists and maps are the kinds of no scalar type.

## Key results

- `overridden_of_last`, `overridden_of_none`: what a pair has in a table with overrides
- `convert_congr`: a conversion depends on what the table has for the leaves of the value
- `overrides_replace_their_pair`: a service with overrides against the built-in one, and against
  the service without the idle overrides
-/

namespace CommandBus.Conversion.Service

/-- An override of the pair. -/
def Override.At (o : Override) (source target : Kind) : Prop :=
  o.source = source ∧ o.target = target

/-- The last override of the pair. -/
def LastAt (overrides : List Override) (source target : Kind) (o : Override) : Prop :=
  ∃ before after, overrides = before ++ o :: after ∧ o.At source target ∧
    ∀ p ∈ after, ¬p.At source target

/-- An override that no conversion looks for. -/
def Override.isIdle (o : Override) : Bool :=
  o.source == .null || o.source == o.target || [.null, .list, .map].contains o.target

/-! ## The table with overrides -/

section Table

variable {table : Table} {overrides : List Override} {source target : Kind} {o : Override}

theorem overridden_cons (table : Table) (o : Override) (rest : List Override) :
    overridden table (o :: rest) =
      overridden (table.insert o.source o.target o.converter) rest := rfl

/-- The override of another pair leaves the pair alone. -/
theorem insert_of_not_at (table : Table) (h : ¬o.At source target) :
    table.insert o.source o.target o.converter source target = table source target :=
  table.insert_ne o.converter fun ⟨hsource, htarget⟩ => h ⟨hsource.symm, htarget.symm⟩

/-- A pair that is not overridden has what it had. -/
theorem overridden_of_none (h : ∀ o ∈ overrides, ¬o.At source target) :
    overridden table overrides source target = table source target := by
  induction overrides generalizing table with
  | nil => rfl
  | cons o rest ih =>
    rw [List.forall_mem_cons] at h
    rw [overridden_cons, ih h.2, insert_of_not_at table h.1]

/-- A pair that is overridden has the converter of its last override. -/
theorem overridden_of_last (h : LastAt overrides source target o) :
    overridden table overrides source target = some o.converter := by
  obtain ⟨before, after, rfl, ⟨rfl, rfl⟩, hafter⟩ := h
  -- the overrides before this one only change the table that it is put into
  have hsplit : overridden table (before ++ o :: after) =
      overridden ((overridden table before).insert o.source o.target o.converter) after := by
    simp [overridden]
  rw [hsplit, overridden_of_none hafter, Table.insert_self]

/-- Overrides of other pairs can be left out. -/
theorem overridden_filter {keep : Override → Bool}
    (hkeep : ∀ o : Override, o.At source target → keep o = true) :
    overridden table (overrides.filter keep) source target =
      overridden table overrides source target := by
  -- the two tables may differ at the pairs that are left out
  have hgeneral : ∀ table table' : Table, table source target = table' source target →
      overridden table (overrides.filter keep) source target =
        overridden table' overrides source target := by
    induction overrides with
    | nil => exact fun _ _ h => h
    | cons o rest ih =>
      intro table table' h
      rw [List.filter_cons, overridden_cons]
      by_cases hat : o.At source target
      · rw [if_pos (hkeep o hat), overridden_cons]
        obtain ⟨rfl, rfl⟩ := hat
        apply ih
        rw [Table.insert_self, Table.insert_self]
      · have hkept := insert_of_not_at table' hat
        split
        · rw [overridden_cons]
          apply ih
          rw [insert_of_not_at table hat, h, hkept]
        · apply ih
          rw [h, hkept]
  exact hgeneral table table rfl

end Table

/-! ## Conversions that look at the same converters -/

section Congr

variable {s s' : Service} (hs : s.mapper = .elementwise) (hs' : s'.mapper = .elementwise)

/-- The two services have the same converter for the leaf, where a converter is looked for. -/
def SameAt (s s' : Service) (v : Value) (t : ValueType) : Prop :=
  ∀ k, t.scalarKind? = some k → v.isNull = false → v.kind ≠ k →
    s.table v.kind k = s'.table v.kind k

include hs hs'

/-- A value that is looked at as a whole is converted alike by services with the same converter
    for it. -/
private theorem convert_congr_self {v : Value} {t : ValueType}
    (hlist : ∀ xs element, v = .list xs → t ≠ .list element)
    (hmap : ∀ es element, v = .map es → t ≠ .map element)
    (h : ∀ leaf ∈ leaves v t, SameAt s s' leaf.value leaf.type) :
    s.convert v t = s'.convert v t := by
  rw [leaves_self hlist hmap, List.forall_mem_singleton] at h
  cases hready : v.isNull || v.satisfies t with
  | true =>
    rw [s.convert_of_ready (by simpa using hready), s'.convert_of_ready (by simpa using hready)]
  | false =>
    have ⟨hnull, hunsatisfied⟩ := Bool.or_eq_false_iff.mp hready
    -- for a scalar type both tables are asked for the one pair where they agree
    have htable : s.byTable v t = s'.byTable v t := by
      unfold byTable
      cases hk : t.scalarKind? with
      | none => rfl
      | some k =>
        rw [Value.satisfies_scalar hk, beq_eq_false_iff_ne] at hunsatisfied
        simp only [h k hk hnull (Ne.symm hunsatisfied)]
    cases hresult : s'.byTable v t with
    | some result =>
      rw [convert_of_byTable hready (htable.trans hresult), convert_of_byTable hready hresult]
    | none =>
      -- what no table decides is mapped as a whole, in both services by the same mapper
      have hstructural : s.structural v t = s'.structural v t := by
        unfold structural
        rw [hs, hs']
        cases v with
        | list xs => cases t with
          | list element => exact absurd rfl (hlist xs element rfl)
          | _ => rfl
        | map es => cases t with
          | map element => exact absurd rfl (hmap es element rfl)
          | _ => rfl
        | _ => rfl
      rw [convert_of_structural hready (htable.trans hresult),
        convert_of_structural hready hresult, hstructural]

omit hs hs' in
private theorem convertItems_congr {xs : List Value} {t : ValueType}
    (h : ∀ x ∈ xs, s.convert x t = s'.convert x t) (index : Nat) :
    s.convertItems xs t index = s'.convertItems xs t index := by
  induction xs generalizing index with
  | nil => rfl
  | cons x xs ih =>
    rw [List.forall_mem_cons] at h
    simp only [convertItems, h.1, ih h.2]

omit hs hs' in
private theorem convertEntries_congr {es : List (String × Value)} {t : ValueType}
    (h : ∀ e ∈ es, s.convert e.2 t = s'.convert e.2 t) :
    s.convertEntries es t = s'.convertEntries es t := by
  induction es with
  | nil => rfl
  | cons e es ih =>
    rw [List.forall_mem_cons] at h
    simp only [convertEntries, h.1, ih h.2]

/-- A value is converted alike by services with the same converters for its leaves. -/
theorem convert_congr {v : Value} {t : ValueType}
    (h : ∀ leaf ∈ leaves v t, SameAt s s' leaf.value leaf.type) :
    s.convert v t = s'.convert v t := by
  induction v using Value.nested_induction generalizing t with
  | scalar v hlist hmap =>
    exact convert_congr_self hs hs' (fun xs _ hv => absurd hv (hlist xs))
      (fun es _ hv => absurd hv (hmap es)) h
  | list xs ih =>
    cases t with
    | list t =>
      have hitems : ∀ x ∈ xs, s.convert x t = s'.convert x t := by
        intro x hx
        apply ih x hx
        intro leaf hleaf
        -- a leaf of an item is a leaf of the list, one step further down
        obtain ⟨i, hi⟩ := List.mem_iff_getElem?.mp hx
        have hmem : (x, i) ∈ xs.zipIdx := List.mem_zipIdx_iff_getElem?.mpr hi
        refine h (leaf.below (.item i)) ?_
        rw [leaves_list, List.mem_flatMap]
        exact ⟨(x, i), hmem, List.mem_map_of_mem hleaf⟩
      rw [convert_list hs, convert_list hs', convertItems_congr hitems]
    | _ => exact convert_congr_self hs hs' (fun _ _ _ => nofun) (fun _ _ => nofun) h
  | map es ih =>
    cases t with
    | map t =>
      have hentries : ∀ e ∈ es, s.convert e.2 t = s'.convert e.2 t := by
        intro e he
        apply ih e he
        intro leaf hleaf
        refine h (leaf.below (.entry e.1)) ?_
        rw [leaves_map, List.mem_flatMap]
        exact ⟨e, he, List.mem_map_of_mem hleaf⟩
      rw [convert_map hs, convert_map hs', convertEntries_congr hentries]
    | _ => exact convert_congr_self hs hs' (fun _ _ => nofun) (fun _ _ _ => nofun) h

end Congr

/-! ## The whole of it -/

/-- An override that a conversion looks for is not idle. -/
theorem Override.At.not_idle {o : Override} {v : Value} {t : ValueType} {k : Kind}
    (h : o.At v.kind k) (hk : t.scalarKind? = some k) (hnull : v.isNull = false)
    (hne : v.kind ≠ k) : o.isIdle = false := by
  obtain ⟨hsource, htarget⟩ := h
  have hnotNull : v.kind ≠ .null := by
    cases v with
    | null => exact nomatch hnull
    | _ => simp [Value.kind]
  have hscalar : [Kind.null, .list, .map].contains k = false := by
    cases t <;> simp only [ValueType.scalarKind?, Option.some.injEq, reduceCtorEq] at hk <;>
      subst hk <;> rfl
  rw [isIdle, hsource, htarget, hscalar]
  simp [hnotNull, hne]

/-- No disabled pair is idle. -/
theorem Override.isDisabled_of_isIdle {o : Override} (h : o.isIdle = true) :
    o.isDisabled = false := by
  obtain ⟨source, target, converter⟩ := o
  revert h
  simp only [isIdle, isDisabled]
  cases source <;> cases target <;> decide

/-- What overrides make of the built-in service. -/
structure Overriding (s : Service) (overrides : List Override) : Prop where
  /-- A value of another kind than that of the scalar type goes through the converter of the last
      override of the pair, -/
  replaced : ∀ v t k o, t.scalarKind? = some k → v ≠ .null → v.kind ≠ k →
    LastAt overrides v.kind k o → s.convert v t = o.converter v
  /-- and is converted as by the built-in service if there is none. -/
  kept : ∀ v t k, t.scalarKind? = some k → v ≠ .null → v.kind ≠ k →
    (∀ o ∈ overrides, ¬o.At v.kind k) → s.convert v t = standard.convert v t
  /-- Lists are converted item by item, -/
  lists : ∀ xs t, s.ListPointwise xs t
  /-- and maps entry by entry. -/
  maps : ∀ es t, Entries.Sorted es → s.MapPointwise es t
  /-- A value without a leaf that is overridden is converted as by the built-in service, whatever
      the depth of its leaves. -/
  untouched : ∀ v t, (∀ leaf ∈ leaves v t, ∀ k, leaf.type.scalarKind? = some k →
    ∀ o ∈ overrides, o.At leaf.value.kind k → o.isIdle = true) →
      s.convert v t = standard.convert v t

/-- No value has parts that a scalar type asks for. -/
theorem leaves_of_scalarKind? {v : Value} {t : ValueType} {k : Kind}
    (hk : t.scalarKind? = some k) : leaves v t = [⟨[], v, t⟩] := by
  apply leaves_self
  · rintro xs element - rfl
    exact nomatch hk
  · rintro es element - rfl
    exact nomatch hk

/-- A value is converted as by the built-in service if only idle overrides are for its leaves. -/
theorem convert_overridden_of_idle {overrides : List Override} {v : Value} {t : ValueType}
    (h : ∀ leaf ∈ leaves v t, ∀ k, leaf.type.scalarKind? = some k →
      ∀ o ∈ overrides, o.At leaf.value.kind k → o.isIdle = true) :
    convert ⟨overridden Table.builtin overrides, .elementwise⟩ v t = standard.convert v t := by
  apply convert_congr rfl rfl
  intro leaf hleaf k hk hnull hne
  apply overridden_of_none
  intro o ho hat
  have hidle := h leaf hleaf k hk o ho hat
  rw [hat.not_idle hk hnull hne] at hidle
  exact nomatch hidle

theorem overriding_of_build {overrides : List Override} {s : Service}
    (h : build overrides none = .ok s) : s.Overriding overrides := by
  obtain ⟨-, rfl⟩ := build_eq_ok_iff.mp h
  constructor
  case replaced =>
    intro v t k o hk hv hne hlast
    have hnull : v.isNull = false := by
      rw [← Bool.not_eq_true, Value.isNull_iff]
      exact hv
    exact convert_of_converter hk hnull hne (overridden_of_last hlast)
  case kept =>
    intro v t k hk hv hne hnone
    apply convert_overridden_of_idle
    -- the value is its only leaf
    rw [leaves_of_scalarKind? hk, List.forall_mem_singleton]
    intro k' hk' o ho hat
    obtain rfl : k = k' := Option.some.inj (hk.symm.trans hk')
    exact absurd hat (hnone o ho)
  case lists => exact listPointwise rfl
  case maps => exact fun es t hes => mapPointwise rfl hes t
  case untouched => exact fun v t => convert_overridden_of_idle

/-- Services whose overrides differ in idle ones only are built together and convert alike. -/
theorem build_of_idle {overrides overrides' : List Override} {s : Service}
    (h : build overrides none = .ok s)
    (hsame : (overrides'.filter fun o => !o.isIdle) = overrides.filter fun o => !o.isIdle) :
    ∃ s', build overrides' none = .ok s' ∧ ∀ v t, s'.convert v t = s.convert v t := by
  obtain ⟨hopen, rfl⟩ := build_eq_ok_iff.mp h
  -- the overrides that count are those of the other list, and an idle one is of no disabled pair
  have hopen' : ∀ o ∈ overrides', o.isDisabled = false := by
    intro o ho
    cases hidle : o.isIdle with
    | true => exact Override.isDisabled_of_isIdle hidle
    | false =>
      have hmem : o ∈ overrides'.filter fun o => !o.isIdle := by simp [ho, hidle]
      rw [hsame] at hmem
      exact hopen o (List.mem_filter.mp hmem).1
  refine ⟨_, build_eq_ok_iff.mpr ⟨hopen', rfl⟩, fun v t => ?_⟩
  apply convert_congr rfl rfl
  intro leaf _ k hk hnull hne
  -- an override that a leaf is converted with is not idle
  have hkeep : ∀ o : Override, o.At leaf.value.kind k → (!o.isIdle) = true := fun o hat => by
    rw [hat.not_idle hk hnull hne]
    rfl
  show overridden Table.builtin overrides' leaf.value.kind k =
    overridden Table.builtin overrides leaf.value.kind k
  rw [← overridden_filter hkeep, hsame, overridden_filter hkeep]

/-- A service that is built with overrides and the elementwise mapper converts the values of each
    pair by its last override, and all else as the built-in service does.  Idle overrides may be
    put in and left out anywhere. -/
theorem overrides_replace_their_pair {overrides : List Override} {s : Service}
    (h : build overrides none = .ok s) :
    s.Overriding overrides ∧
      ∀ overrides', (overrides'.filter fun o => !o.isIdle) =
          overrides.filter (fun o => !o.isIdle) →
        ∃ s', build overrides' none = .ok s' ∧ ∀ v t, s'.convert v t = s.convert v t :=
  ⟨overriding_of_build h, fun _ => build_of_idle h⟩

/-- Of two overrides of the same pair the later one converts the texts of a list; the idle
    override between them, which would refuse truth values, is never asked. -/
theorem overrides_replace_text_to_bool :
    let overrides := [Sample.override .string .bool .reject, Sample.override .bool .bool .reject,
      Sample.override .string .bool .tag]
    ∃ s, build overrides none = .ok s ∧
      s.convert (.string "yes") .bool = .ok (.string "<String>") ∧
      s.convert (.list [.string "yes", .null, .bool true]) (.list .bool) =
        .ok (.list [.string "<String>", .null, .bool true]) ∧
      s.convert (.long 7) .int = standard.convert (.long 7) .int ∧
      ∃ s', build [Sample.override .string .bool .reject, Sample.override .string .bool .tag] none =
        .ok s' ∧ ∀ v t, s'.convert v t = s.convert v t := by
  intro overrides
  obtain ⟨s, hs⟩ : ∃ s, build overrides none = .ok s := ⟨_, rfl⟩
  obtain ⟨hoverriding, hidle⟩ := overrides_replace_their_pair hs
  -- the third override is the last one of its pair, and the second one is of a pair that needs
  -- none
  have hlast : LastAt overrides .string .bool (Sample.override .string .bool .tag) :=
    ⟨overrides.take 2, [], rfl, ⟨rfl, rfl⟩, List.forall_mem_nil _⟩
  have htext : s.convert (.string "yes") .bool = .ok (.string "<String>") :=
    hoverriding.replaced (.string "yes") .bool .bool _ rfl (by simp) (by simp [Value.kind]) hlast
  have hlist := (hoverriding.lists [.string "yes", .null, .bool true] .bool).result
    (.list [.string "<String>", .null, .bool true])
  refine ⟨s, hs, htext, hlist.mpr ⟨_, rfl, ?_⟩, ?_, ?_⟩
  · have hnull := s.convert_of_ready (v := .null) (t := .bool) (.inl rfl)
    have hready := s.convert_of_ready (v := .bool true) (t := .bool) (.inr rfl)
    exact .cons htext (.cons hnull (.cons hready .nil))
  · have hnone : ∀ o ∈ overrides, ¬o.At .long .int := by
      simp [overrides, Sample.override, Override.At]
    exact hoverriding.kept (.long 7) .int .int rfl (by simp) (by simp [Value.kind]) hnone
  · exact hidle _ rfl

end CommandBus.Conversion.Service
