import CommandBus.Proofs.Conversion.Landing

/-!
# Disabled conversions

A disabled pair is refused by every service there is, the built-in one and all that can be built.
The conversion looks for a converter before it looks whether the pair is disabled, so that this
rests on the table: no table of a service has a converter at a disabled pair (`Guarded`).

To see that nothing is called on the way to a refusal, the steps of a conversion are taken with
converters and a mapper that may act on some environment (`convertWith`).  A refusal is then
`pure`, whatever they would do.

## Key results

- `install_eq`, `build_eq_find?`: overrides are put into a table unless one of them is disabled, and
  then the first one is told
- `guarded_of_available`: no service has a converter at a disabled pair
- `convertWith_of_disabled`: on the way to a refusal nothing is called
- `error_of_builtin`: a built-in converter never refuses the pair that it is registered for
- `disabled_refused_by_every_service`: all of it
-/

namespace CommandBus.Conversion

/-! ## Tables without a converter at a disabled pair -/

theorem isDisabled_iff {source target : Kind} :
    isDisabled source target = true ↔ (source, target) ∈ disabledPairs :=
  List.contains_iff_mem

namespace Table

/-- No converter stands at a disabled pair. -/
def Guarded (table : Table) : Prop :=
  ∀ source target, isDisabled source target = true → table source target = none

theorem guarded_builtin : Guarded builtin := fun _ _ h => builtin_of_isDisabled h

/-- A converter at a pair that is not disabled does no harm. -/
theorem Guarded.insert {table : Table} (h : table.Guarded) {source target : Kind}
    (hopen : isDisabled source target = false) (converter : Converter) :
    (table.insert source target converter).Guarded := by
  intro s t hst
  have hne : ¬(s = source ∧ t = target) := by
    rintro ⟨rfl, rfl⟩
    rw [hopen] at hst
    exact nomatch hst
  rw [insert_ne table converter hne]
  exact h s t hst

end Table

namespace Service

/-! ## Building a service -/

/-- The table with overrides put in, each in the place of its pair. -/
def overridden (table : Table) (overrides : List Override) : Table :=
  overrides.foldl (fun table o => table.insert o.source o.target o.converter) table

/-- An override of a pair that is disabled. -/
def Override.isDisabled (o : Override) : Bool := Conversion.isDisabled o.source o.target

/-- Overrides are put into a table, unless one is disabled: then the first such one is told. -/
theorem install_eq (table : Table) (overrides : List Override) :
    install table overrides =
      match overrides.find? Override.isDisabled with
      | some o => .error (disabledError o.source o.target)
      | none => .ok (overridden table overrides) := by
  -- the induction needs any table, since every override that is taken changes it
  induction overrides generalizing table with
  | nil => rfl
  | cons o rest ih =>
    rw [install, List.find?_cons, ih]
    cases hdisabled : Conversion.isDisabled o.source o.target with
    | true => simp [Override.isDisabled, hdisabled]
    | false =>
      simp only [Override.isDisabled, hdisabled, Bool.false_eq_true, if_false]
      rfl

/-- A service is built unless an override is disabled: then the first such one is told. -/
theorem build_eq_find? (overrides : List Override) (mapper : Option Mapper) :
    build overrides mapper =
      match overrides.find? Override.isDisabled with
      | some o => .error (disabledError o.source o.target)
      | none => .ok ⟨overridden Table.builtin overrides, mapper.getD .elementwise⟩ := by
  unfold build
  rw [install_eq]
  cases overrides.find? Override.isDisabled <;> rfl

/-- The service that is built has the table with the overrides, none of which is disabled. -/
theorem build_eq_ok_iff {overrides : List Override} {mapper : Option Mapper} {s : Service} :
    build overrides mapper = .ok s ↔ (∀ o ∈ overrides, o.isDisabled = false) ∧
      s = ⟨overridden Table.builtin overrides, mapper.getD .elementwise⟩ := by
  have hopen : (∀ o ∈ overrides, o.isDisabled = false) ↔
      overrides.find? Override.isDisabled = none := by simp
  rw [hopen, build_eq_find?]
  cases overrides.find? Override.isDisabled with
  | some o => simp
  | none => simp [eq_comm]

/-- Overrides of pairs that are not disabled leave no converter at one that is. -/
theorem guarded_overridden {table : Table} (h : table.Guarded) {overrides : List Override}
    (hopen : ∀ o ∈ overrides, o.isDisabled = false) : (overridden table overrides).Guarded := by
  induction overrides generalizing table with
  | nil => exact h
  | cons o rest ih =>
    rw [List.forall_mem_cons] at hopen
    exact ih (h.insert hopen.1 o.converter) hopen.2

/-- The services there are. -/
inductive Available : Service → Prop where
  | standard : Available standard
  | built {overrides : List Override} {mapper : Option Mapper} {s : Service}
    (h : build overrides mapper = .ok s) : Available s

/-- No service has a converter at a disabled pair. -/
theorem guarded_of_available {s : Service} (h : Available s) : s.table.Guarded := by
  cases h with
  | standard => exact Table.guarded_builtin
  | built h =>
    obtain ⟨hopen, rfl⟩ := build_eq_ok_iff.mp h
    exact guarded_overridden Table.guarded_builtin hopen

/-! ## Conversions that act -/

/-- Converters that may act on an environment, by source and target kind. -/
abbrev ActingTable (m : Type → Type) :=
  Kind → Kind → Option (Value → m (Except ConversionError Value))

/-- The steps of a conversion, with converters and a mapper that may act on an environment. -/
def convertWith {m : Type → Type} [Monad m] (table : ActingTable m)
    (map : Value → ValueType → m (Except Failure Value)) (v : Value) (t : ValueType) :
    m (Except ConversionError Value) :=
  let mapped := do
    let found ← map v t
    return found.mapError fun failure => .mapping v.kind t (reasonOf failure)
  if v.isNull || v.satisfies t then return .ok v
  else match t.scalarKind? with
    | none => mapped
    | some k =>
      match table v.kind k with
      | some converter => converter v
      | none => if isDisabled v.kind k then return .error (.unsupported v.kind t) else mapped

/-- What the mapper of a service makes of a value. -/
def structural (s : Service) (v : Value) (t : ValueType) : Except Failure Value :=
  match s.mapper with
  | .custom map => map v t
  | .elementwise =>
    match v, t with
    | .list items, .list element => (s.convertItems items element 0).map .list
    | .map entries, .map element => (s.convertEntries entries element).map .map
    | v, t => .error (noMapping v.kind t)

/-- A value that the table has a say in is not looked at any further. -/
theorem convert_of_byTable {s : Service} {v : Value} {t : ValueType}
    (h : (v.isNull || v.satisfies t) = false) {result : Except ConversionError Value}
    (hresult : s.byTable v t = some result) : s.convert v t = result := by
  unfold convert
  simp only [h, Bool.false_eq_true, if_false, hresult]

/-- A value of another kind than a scalar type has goes through the converter of the pair. -/
theorem convert_of_converter {s : Service} {v : Value} {t : ValueType} {k : Kind}
    (ht : t.scalarKind? = some k) (hnull : v.isNull = false) (hne : v.kind ≠ k) {c : Converter}
    (hc : s.table v.kind k = some c) : s.convert v t = c v := by
  have hready : (v.isNull || v.satisfies t) = false := by
    rw [hnull, Bool.false_or, Value.satisfies_scalar ht, beq_eq_false_iff_ne]
    exact Ne.symm hne
  have hresult : s.byTable v t = some (c v) := by
    rw [byTable, ht]
    dsimp only
    rw [hc]
  exact convert_of_byTable hready hresult

/-- A value that the table says nothing of is left to the mapper. -/
theorem convert_of_structural {s : Service} {v : Value} {t : ValueType}
    (h : (v.isNull || v.satisfies t) = false) (hnone : s.byTable v t = none) :
    s.convert v t =
      (s.structural v t).mapError fun failure => .mapping v.kind t (reasonOf failure) := by
  unfold convert structural
  simp only [h, Bool.false_eq_true, if_false, hnone]
  -- the mapper was asked, and its failure is told as the failure of the whole value
  cases s.mapper with
  | custom map =>
    dsimp only
    cases map v t <;> rfl
  | elementwise =>
    cases v with
    | list items =>
      cases t with
      | list element =>
        dsimp only
        cases s.convertItems items element 0 <;> rfl
      | _ => rfl
    | map entries =>
      cases t with
      | map element =>
        dsimp only
        cases s.convertEntries entries element <;> rfl
      | _ => rfl
    | _ => rfl

/-- A conversion goes through the steps with the converters and the mapper of the service. -/
theorem convert_eq_convertWith (s : Service) (v : Value) (t : ValueType) :
    s.convert v t = Id.run (convertWith s.table s.structural v t) := by
  -- the cases are the ways through the steps: the value is taken as it is, its type is no
  -- scalar, there is a converter, the pair is disabled, or the mapper is asked
  unfold convertWith
  cases hready : v.isNull || v.satisfies t with
  | true =>
    rw [s.convert_of_ready (by simpa using hready)]
    rfl
  | false =>
    simp only [Bool.false_eq_true, if_false]
    cases hk : t.scalarKind? with
    | none =>
      have hnone : s.byTable v t = none := by simp only [byTable, hk]
      rw [convert_of_structural hready hnone]
      rfl
    | some k =>
      dsimp only
      cases hc : s.table v.kind k with
      | some c =>
        have hresult : s.byTable v t = some (c v) := by simp only [byTable, hk, hc]
        rw [convert_of_byTable hready hresult]
        rfl
      | none =>
        cases hd : isDisabled v.kind k with
        | true =>
          have hresult : s.byTable v t = some (.error (.unsupported v.kind t)) := by
            simp only [byTable, hk, hc, hd, if_true]
          rw [convert_of_byTable hready hresult]
          rfl
        | false =>
          have hnone : s.byTable v t = none := by
            simp only [byTable, hk, hc, hd, Bool.false_eq_true, if_false]
          rw [convert_of_structural hready hnone]
          rfl

/-- No value of a disabled pair is null or satisfies the type. -/
theorem not_ready_of_disabled {v : Value} {t : ValueType} {k : Kind}
    (hk : t.scalarKind? = some k) (h : isDisabled v.kind k = true) :
    (v.isNull || v.satisfies t) = false := by
  -- neither null nor a kind with itself is among the disabled pairs
  have hnull : ∀ k, isDisabled .null k = false := by intro k; cases k <;> rfl
  have hself : ∀ k, isDisabled k k = false := by intro k; cases k <;> rfl
  rw [Bool.or_eq_false_iff, Value.satisfies_scalar hk]
  constructor
  · cases v with
    | null =>
      rw [Value.kind, hnull] at h
      exact absurd h Bool.false_ne_true
    | _ => rfl
  · rw [beq_eq_false_iff_ne]
    rintro rfl
    rw [hself] at h
    exact absurd h Bool.false_ne_true

/-- On the way to the refusal of a disabled pair nothing is called, if the converters stand at
    no disabled pair. -/
theorem convertWith_of_disabled {m : Type → Type} [Monad m] {table : ActingTable m}
    {v : Value} {t : ValueType} {k : Kind} (hk : t.scalarKind? = some k)
    (h : isDisabled v.kind k = true) (hnone : table v.kind k = none)
    (map : Value → ValueType → m (Except Failure Value)) :
    convertWith table map v t = pure (.error (.unsupported v.kind t)) := by
  simp only [convertWith, not_ready_of_disabled hk h, hk, hnone, h, Bool.false_eq_true, if_false,
    if_true]

end Service

/-! ## The errors of the built-in converters -/

/-- A scalar type is the one that its kind stands for. -/
theorem ofKind_of_scalarKind? {t : ValueType} {k : Kind} (h : t.scalarKind? = some k) :
    ValueType.ofKind k = t := by
  cases t <;> simp only [ValueType.scalarKind?, Option.some.injEq, reduceCtorEq] at h <;>
    subst h <;> rfl

/-- What a failed conversion tells of a value outside of what the pair converts. -/
private theorem invalid_of_error {source : Kind} {t : ValueType} {reason : String}
    {e : ConversionError}
    (h : (Except.error (.invalid source t reason) : Except ConversionError Value) = .error e) :
    ∃ reason, e = .invalid source t reason :=
  ⟨reason, (Except.error.inj h).symm⟩

theorem error_of_narrow {range : Number.IntegerRange} {t : ValueType} {wrap : Int → Value}
    {v : Value} {e : ConversionError} (h : narrow range t wrap v = .error e) :
    ∃ reason, e = .invalid v.kind t reason := by
  unfold narrow at h
  split at h
  · exact invalid_of_error h
  · split at h
    · exact nomatch h
    · exact invalid_of_error h

/-- Of the numbers and texts, only a text may have no double. -/
theorem error_of_toDouble {v : Value} (hv : Table.isNumberSource v.kind = true)
    (hne : v.kind ≠ .double) {e : ConversionError} (h : toDouble v = .error e) :
    ∃ reason, e = .invalid v.kind .double reason := by
  cases v with
  | short n | int n | long n | decimal d => exact nomatch h
  | double x => exact absurd rfl hne
  | string s =>
    simp only [toDouble] at h
    split at h
    · exact nomatch h
    · exact invalid_of_error h
  | _ => exact nomatch hv

/-- Of the numbers and texts, a double and a text may have no decimal. -/
theorem error_of_toDecimal {v : Value} (hv : Table.isNumberSource v.kind = true)
    (hne : v.kind ≠ .decimal) {e : ConversionError} (h : toDecimal v = .error e) :
    ∃ reason, e = .invalid v.kind .decimal reason := by
  cases v with
  | short n | int n | long n => exact nomatch h
  | decimal d => exact absurd rfl hne
  | double x | string s =>
    simp only [toDecimal] at h
    split at h
    · exact nomatch h
    · exact invalid_of_error h
  | _ => exact nomatch hv

/-- Every scalar that is no text has one. -/
theorem toText_ne_error {v : Value} (hv : Table.isTextSource v.kind = true)
    {e : ConversionError} : toText v ≠ .error e := by
  intro h
  cases v with
  | null | string s | list items | map entries => exact nomatch hv
  | _ => exact nomatch h

theorem error_of_toBool {v : Value} {e : ConversionError} (h : toBool v = .error e) :
    ∃ reason, e = .invalid v.kind .bool reason := by
  unfold toBool at h
  split at h
  · exact nomatch h
  · exact invalid_of_error h

theorem error_of_toUuid {v : Value} (hv : v.kind = .string) {e : ConversionError}
    (h : toUuid v = .error e) : ∃ reason, e = .invalid v.kind .uuid reason := by
  cases v with
  | string s =>
    simp only [toUuid] at h
    split at h
    · exact nomatch h
    · exact invalid_of_error h
  | _ => exact nomatch hv

theorem error_of_toDate {v : Value} (hv : v.kind = .long) {e : ConversionError}
    (h : toDate v = .error e) : ∃ reason, e = .invalid v.kind .date reason := by
  cases v with
  | long n =>
    simp only [toDate] at h
    split at h
    · exact nomatch h
    · exact invalid_of_error h
  | _ => exact nomatch hv

/-- The converter into a kind of number, at another number or a text. -/
theorem error_of_numberConverter? {v : Value} {k : Kind}
    (hv : Table.isNumberSource v.kind = true) (hne : v.kind ≠ k) {c : Converter}
    (hc : Table.numberConverter? k = some c) {e : ConversionError} (h : c v = .error e) :
    ∃ reason, e = .invalid v.kind (ValueType.ofKind k) reason := by
  cases k with
  | short => obtain rfl := Option.some.inj hc; exact error_of_narrow h
  | int => obtain rfl := Option.some.inj hc; exact error_of_narrow h
  | long => obtain rfl := Option.some.inj hc; exact error_of_narrow h
  | double => obtain rfl := Option.some.inj hc; exact error_of_toDouble hv hne h
  | decimal => obtain rfl := Option.some.inj hc; exact error_of_toDecimal hv hne h
  | _ => exact nomatch hc

/-- A built-in converter, run at the pair that it is registered for, may find a value outside of
    what the pair converts, and never refuses the pair. -/
theorem error_of_builtin {v : Value} {k : Kind} {c : Converter}
    (hc : Table.builtin v.kind k = some c) {e : ConversionError} (h : c v = .error e) :
    ∃ reason, e = .invalid v.kind (ValueType.ofKind k) reason := by
  unfold Table.builtin at hc
  split at hc
  · exact nomatch hc
  · next hne =>
    split at hc
    · obtain rfl := Option.some.inj hc
      exact error_of_toBool h
    · next _ _ hv =>
      obtain rfl := Option.some.inj hc
      exact error_of_toUuid hv h
    · obtain rfl := Option.some.inj hc
      exact error_of_narrow h
    · next _ _ hv =>
      obtain rfl := Option.some.inj hc
      exact error_of_toDate hv h
    -- into a text, and from numbers and texts into numbers
    · split at hc
      · next htext =>
        obtain rfl := Option.some.inj hc
        exact absurd h (toText_ne_error htext)
      · exact nomatch hc
    · split at hc
      · next hnumber => exact error_of_numberConverter? hnumber hne hc h
      · exact nomatch hc

namespace Service

/-! ## The whole of it -/

/-- The ways in which a conversion of the built-in service fails: the pair is disabled, the value
    is outside of what the pair converts, or its structure does not fit. -/
theorem convert_standard_error_cases {v : Value} {t : ValueType} {e : ConversionError}
    (h : standard.convert v t = .error e) :
    (∃ k, t.scalarKind? = some k ∧ isDisabled v.kind k = true ∧ e = .unsupported v.kind t) ∨
      (∃ reason, e = .invalid v.kind t reason) ∨ ∃ reason, e = .mapping v.kind t reason := by
  cases hready : v.isNull || v.satisfies t with
  | true =>
    rw [standard.convert_of_ready (by simpa using hready)] at h
    exact nomatch h
  | false =>
    cases htable : standard.byTable v t with
    | none =>
      rw [convert_of_structural hready htable] at h
      cases hmapped : standard.structural v t with
      | ok r =>
        rw [hmapped] at h
        exact nomatch h
      | error failure =>
        rw [hmapped] at h
        exact .inr (.inr ⟨_, (Except.error.inj h).symm⟩)
    | some result =>
      rw [convert_of_byTable hready htable] at h
      subst h
      -- the error is that of a converter, or the pair is disabled
      unfold byTable at htable
      split at htable
      · exact nomatch htable
      · next k hk =>
        split at htable
        · next c hc =>
          rw [← ofKind_of_scalarKind? hk]
          exact .inr (.inl (error_of_builtin hc (Option.some.inj htable)))
        · split at htable
          · next hdisabled =>
            exact .inl ⟨k, hk, hdisabled, (Except.error.inj (Option.some.inj htable)).symm⟩
          · exact nomatch htable

/-- What building a service makes of the overrides: it fails exactly if there is one of a
    disabled pair, and tells the first one. -/
structure BuildsUnlessDisabled (overrides : List Override) (mapper : Option Mapper) : Prop where
  fails : (∃ e, build overrides mapper = .error e) ↔
    ∃ o ∈ overrides, (o.source, o.target) ∈ disabledPairs
  tells : ∀ e, build overrides mapper = .error e → ∃ before o after,
    overrides = before ++ o :: after ∧ (∀ p ∈ before, (p.source, p.target) ∉ disabledPairs) ∧
      (o.source, o.target) ∈ disabledPairs ∧ e = disabledError o.source o.target

/-- A service refuses the disabled pairs, and calls neither a converter nor the mapper for it. -/
structure RefusesDisabled (s : Service) : Prop where
  refused : ∀ v t k, t.scalarKind? = some k → (v.kind, k) ∈ disabledPairs →
    s.convert v t = .error (.unsupported v.kind t)
  /-- The conversion goes through the steps of `convertWith`. -/
  steps : ∀ v t, s.convert v t = Id.run (convertWith s.table s.structural v t)
  /-- In these steps nothing is done before the refusal, whatever is registered where the service
      has a converter, and whatever the mapper is. -/
  uncalled : ∀ {m : Type → Type} [Monad m] (table : ActingTable m)
    (map : Value → ValueType → m (Except Failure Value)),
    (∀ source target, (table source target).isSome = (s.table source target).isSome) →
    ∀ v t k, t.scalarKind? = some k → (v.kind, k) ∈ disabledPairs →
      convertWith table map v t = pure (.error (.unsupported v.kind t))

/-- What the errors of the built-in service tell. -/
structure TellsErrors (s : Service) : Prop where
  /-- Every error has the kind of the value and the type that was wanted. -/
  ends : ∀ v t e, s.convert v t = .error e → e = .unsupported v.kind t ∨
    (∃ reason, e = .invalid v.kind t reason) ∨ ∃ reason, e = .mapping v.kind t reason
  /-- A pair is refused exactly if it is disabled. -/
  unsupported : ∀ v t, (∃ source target, s.convert v t = .error (.unsupported source target)) ↔
    ∃ k, t.scalarKind? = some k ∧ (v.kind, k) ∈ disabledPairs
  /-- No converter refuses a value of the kind that it is registered for. -/
  unreached : ∀ k c v, s.table v.kind k = some c →
    ∀ source target, c v ≠ .error (.unsupported source target)

/-- The first override of a disabled pair, if there is one, is what building fails with. -/
theorem buildsUnlessDisabled (overrides : List Override) (mapper : Option Mapper) :
    BuildsUnlessDisabled overrides mapper := by
  have hbuild := build_eq_find? overrides mapper
  cases hfind : overrides.find? Override.isDisabled with
  | none =>
    rw [hfind] at hbuild
    -- no override is of a disabled pair, so all of them are taken
    have hopen : ∀ o ∈ overrides, (o.source, o.target) ∉ disabledPairs := by
      intro o ho hmem
      exact List.find?_eq_none.1 hfind o ho (isDisabled_iff.2 hmem)
    constructor
    · rw [hbuild]
      simpa using hopen
    · intro e he
      exact nomatch hbuild.symm.trans he
  | some o =>
    rw [hfind] at hbuild
    obtain ⟨hdisabled, before, after, heq, hbefore⟩ := List.find?_eq_some_iff_append.1 hfind
    -- the first one of a disabled pair stops the build, and those before it are of no such pair
    have hmem : (o.source, o.target) ∈ disabledPairs := isDisabled_iff.1 hdisabled
    constructor
    · exact ⟨fun _ => ⟨o, List.mem_of_find?_eq_some hfind, hmem⟩, fun _ => ⟨_, hbuild⟩⟩
    · intro e he
      refine ⟨before, o, after, heq, fun p hp hpair => ?_, hmem,
        Except.error.inj (he.symm.trans hbuild)⟩
      have hopen := hbefore p hp
      rw [Override.isDisabled, isDisabled_iff.2 hpair] at hopen
      exact nomatch hopen

theorem refusesDisabled {s : Service} (hs : Available s) : s.RefusesDisabled where
  refused v t k hk hmem := by
    have hdisabled := isDisabled_iff.2 hmem
    rw [convert_eq_convertWith,
      convertWith_of_disabled hk hdisabled (guarded_of_available hs _ _ hdisabled)]
    rfl
  steps := s.convert_eq_convertWith
  uncalled table map hsame v t k hk hmem := by
    have hdisabled := isDisabled_iff.2 hmem
    -- where the service has no converter, nothing is registered
    have hnone := hsame v.kind k
    rw [guarded_of_available hs _ _ hdisabled] at hnone
    exact convertWith_of_disabled hk hdisabled (by simpa using hnone) map

theorem tellsErrors_standard : standard.TellsErrors where
  ends v t e h := by
    obtain ⟨-, -, -, he⟩ | hother := convert_standard_error_cases h
    · exact .inl he
    · exact .inr hother
  unsupported v t := by
    constructor
    -- of the three ways to fail only a disabled pair is told as unsupported
    · rintro ⟨source, target, h⟩
      obtain ⟨k, hk, hdisabled, -⟩ | ⟨reason, he⟩ | ⟨reason, he⟩ :=
        convert_standard_error_cases h
      · exact ⟨k, hk, isDisabled_iff.1 hdisabled⟩
      · exact nomatch he
      · exact nomatch he
    · rintro ⟨k, hk, hmem⟩
      exact ⟨_, _, (refusesDisabled .standard).refused v t k hk hmem⟩
  unreached k c v hc source target h := by
    obtain ⟨reason, he⟩ := error_of_builtin hc h
    exact nomatch he

/-- Whatever converters are registered and whatever the mapper is, a service is built unless a
    disabled pair is among them, and the first such pair is told.  Every service that can be had
    refuses the disabled pairs without calling a converter or the mapper.  The built-in service
    tells every error under the kind of the value and the type that was wanted, and refuses no
    other pair. -/
theorem disabled_refused_by_every_service :
    (∀ overrides mapper, BuildsUnlessDisabled overrides mapper) ∧
      (∀ s, Available s → s.RefusesDisabled) ∧ standard.TellsErrors :=
  ⟨buildsUnlessDisabled, fun _ => refusesDisabled, tellsErrors_standard⟩

/-- With a converter of dates into texts and a mapper that takes everything, a date still is no
    double, though now it is whatever text the converter gives. -/
theorem disabled_refused_beside_override :
    let overrides := [Sample.override .date .string .tag]
    ∃ s, build overrides (Sample.mapper? "box") = .ok s ∧ Available s ∧
      s.convert (.date Instant.epoch) .string = .ok (.string "<Date>") ∧
      s.convert (.date Instant.epoch) .double = .error (.unsupported .date .double) := by
  intro overrides
  obtain ⟨s, hs⟩ : ∃ s, build overrides (Sample.mapper? "box") = .ok s := ⟨_, rfl⟩
  have havailable : Available s := .built hs
  have hrefuses := disabled_refused_by_every_service.2.1 s havailable
  have hdouble := hrefuses.refused (.date Instant.epoch) .double .double rfl (by decide)
  refine ⟨s, hs, havailable, ?_, hdouble⟩
  obtain rfl := Except.ok.inj hs
  rfl

end Service

end CommandBus.Conversion
