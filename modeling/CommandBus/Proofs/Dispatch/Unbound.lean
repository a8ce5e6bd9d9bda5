import CommandBus.Proofs.Dispatch.Stages
import CommandBus.Proofs.Parameter.Binding
import CommandBus.Sample.Interceptor

/-!
# Dispatches that fail in binding

A dispatch whose caller passes the check binds a fresh instance.  If a parameter is at fault the
dispatch fails with all the faults, under the name of the command.  Interceptors that go on with
the command and its parameters and hand an error on (`HandsOn`) change nothing of that.

## Key results

- `result_buildChain_of_error`: an error at the end of a chain is the error of the chain
- `binding_kind_iff`: the kind of a binding error is read off its failures
- `terminal_of_fault`, `chain_of_fault`: a parameter at fault ends a dispatch with all the faults
- `binding_reported`: what bindings tell, by themselves and in a dispatch
-/

namespace CommandBus

open Conversion (Service)

/-! ## Interceptors that hand errors on -/

namespace Interceptor

variable {σ : Type}

/-- An interceptor that goes on with the same command and parameters, and gives an error of the
    rest of the chain back as it is. -/
def HandsOn (i : Interceptor σ σ) : Prop :=
  ∀ c params ctx s, ∃ ctx' s' resume, i c params ctx s = .next c params ctx' s' resume ∧
    ∀ outcome e, outcome.result = .error e →
      ∃ ctx'' s'', resume outcome = .finish ⟨.error e, ctx'', s''⟩

theorem handsOn_record (label : String) :
    (Sample.Interception.record label).interceptor.HandsOn := by
  intro c params ctx log
  refine ⟨ctx, (label ++ ":before") :: log, _, rfl, fun outcome e he => ?_⟩
  refine ⟨outcome.context, Sample.Interception.ending label outcome.result :: outcome.state, ?_⟩
  rw [← he]

/-- An error of the rest of the chain is handed on, from whatever context and environment. -/
theorem result_around_of_error {i : Interceptor σ σ} (hi : i.HandsOn)
    {rest : Executor σ (Runtime σ)} {c : Command σ} {params : Parameters} {e : DispatchError}
    {schemas : SchemaCache}
    (hrest : ∀ ctx r, r.schemas = schemas → (rest c params ctx r).result = .error e)
    (ctx : Context) {r : Runtime σ} (hr : r.schemas = schemas) :
    (i.lift.around rest c params ctx r).result = .error e := by
  obtain ⟨ctx', s', resume, hnext, hresume⟩ := hi c params ctx r.world
  have herror := hrest ctx' { r with world := s' } hr
  obtain ⟨ctx'', s'', hfinish⟩ := hresume
    ⟨_, (rest c params ctx' { r with world := s' }).context,
      (rest c params ctx' { r with world := s' }).state.world⟩ e herror
  simp only [around, lift, hnext, Link.lift, Link.run, hfinish]

end Interceptor

namespace Dispatcher

variable {σ : Type}

/-- An error at the end of a chain is the error of the chain, if every interceptor hands errors
    on. -/
theorem result_buildChain_of_error {interceptors : List (Interceptor σ σ)}
    (hi : ∀ i ∈ interceptors, i.HandsOn) {terminal : Executor σ (Runtime σ)} {c : Command σ}
    {params : Parameters} {e : DispatchError} {schemas : SchemaCache}
    (hterminal : ∀ ctx r, r.schemas = schemas → (terminal c params ctx r).result = .error e)
    (ctx : Context) {r : Runtime σ} (hr : r.schemas = schemas) :
    (buildChain (interceptors.map Interceptor.lift) terminal c params ctx r).result = .error e := by
  induction interceptors generalizing ctx r with
  | nil => exact hterminal ctx r hr
  | cons i rest ih =>
    rw [List.forall_mem_cons] at hi
    exact Interceptor.result_around_of_error hi.1 (fun ctx r hr => ih hi.2 ctx hr) ctx hr

/-- A caller that is admitted gets to the interceptors, with the schemas that were kept. -/
theorem chain_of_admitted {d : Dispatcher σ} {c : Command σ} {ctx : Context} {r : Runtime σ}
    (h : (d.admission c ctx r).result = .ok ()) (params : Parameters) :
    d.chain c params ctx r =
        buildChain (d.interceptors.map Interceptor.lift) d.terminal c params
          (d.admission c ctx r).context (d.admission c ctx r).state ∧
      (d.admission c ctx r).state.schemas = r.schemas := by
  unfold admission at h ⊢
  cases ha : d.authenticator with
  | none => exact ⟨by simp [chain, guards, ha], rfl⟩
  | some a =>
    simp only [ha] at h
    exact ⟨chain_of_passed ha h params, rfl⟩

/-! ## Binding errors -/

/-- The kind of a binding error is read off its failures. -/
theorem binding_kind_iff (command : String) {failures : List FieldError} (h : failures ≠ []) :
    ((DispatchError.binding ⟨command, failures⟩).kind = .missingParameter ↔
        ∀ e ∈ failures, e.isMissing = true) ∧
      ((DispatchError.binding ⟨command, failures⟩).kind = .conversionError ↔
        ∃ e ∈ failures, e.isMissing = false) := by
  have hempty : failures.isEmpty = false := by simpa using h
  cases hall : failures.all FieldError.isMissing with
  | true =>
    have hmissing : ∀ e ∈ failures, e.isMissing = true := by simpa using hall
    simpa [DispatchError.kind, BindingError.isMissing, hempty, hall] using hmissing
  | false =>
    have hinvalid : ∃ e ∈ failures, e.isMissing = false := by simpa using hall
    simpa [DispatchError.kind, BindingError.isMissing, hempty, hall] using hinvalid

/-- A command is bound to what it declares: the schema that is kept for its type is the declared
    one, and fresh instances refuse values by their names and the values alone. -/
structure BindsDeclared (c : Command σ) (refusal : String → Value → Option ConversionError)
    (schemas : SchemaCache) : Prop where
  kept : ∀ kept, schemas.find? c.key = some kept → kept = c.parameters.schema
  fresh : ∃ Kind, c.parameters.Uniform Kind refusal ∧ ∀ world, Kind (c.create world).1

/-- At the end of the chain a parameter at fault ends a dispatch with all the faults, under the
    name of the command. -/
theorem terminal_of_fault (d : Dispatcher σ) {c : Command σ}
    {refusal : String → Value → Option ConversionError} {r : Runtime σ}
    (h : BindsDeclared c refusal r.schemas) {params : Parameters}
    (hfault : Bindable.faults d.service refusal params.source c.parameters.schema ≠ [])
    (ctx : Context) :
    (d.terminal c params ctx r).result = .error (.binding
      ⟨c.name, Bindable.faults d.service refusal params.source c.parameters.schema⟩) := by
  obtain ⟨Kind, huniform, hfresh⟩ := h.fresh
  have hbind := Bindable.bind_snd huniform d.service params.source (hfresh r.world)
  rw [if_neg hfault] at hbind
  -- a parameter at fault means that the body is not run
  have hbound : c.bound d.service params r = .error ⟨c.parameters.owner,
      Bindable.faults d.service refusal params.source c.parameters.schema⟩ := by
    rw [Command.bound, Bindable.bindCached_of_kept h.kept]
    simp only [hbind, Except.map]
  rw [terminal, Command.invoke_eq, hbound]
  rfl

/-- So it does for a caller that is admitted, if the interceptors hand errors on. -/
theorem chain_of_fault {d : Dispatcher σ} (hi : ∀ i ∈ d.interceptors, i.HandsOn) {c : Command σ}
    {refusal : String → Value → Option ConversionError} {r : Runtime σ}
    (h : BindsDeclared c refusal r.schemas) {params : Parameters}
    (hfault : Bindable.faults d.service refusal params.source c.parameters.schema ≠ [])
    {ctx : Context} (hadmitted : (d.admission c ctx r).result = .ok ()) :
    (d.chain c params ctx r).result = .error (.binding
      ⟨c.name, Bindable.faults d.service refusal params.source c.parameters.schema⟩) := by
  obtain ⟨hchain, hschemas⟩ := chain_of_admitted hadmitted params
  rw [hchain]
  -- what is kept for the type is the same at the end of the chain
  refine result_buildChain_of_error hi (fun ctx' r' hr' => ?_) _ hschemas
  have hkept : BindsDeclared c refusal r'.schemas := by
    rw [hr']
    exact h
  exact d.terminal_of_fault hkept hfault ctx'

/-- A result that tells the faults of the parameters of `c`. -/
structure TellsFaults (d : Dispatcher σ) (c : Command σ)
    (refusal : String → Value → Option ConversionError) (params : Parameters)
    (failures : List FieldError) (result : Except DispatchError Value) : Prop where
  result : result = .error (.binding ⟨c.name, failures⟩)
  nonempty : failures ≠ []
  reports : Bindable.Reports d.service refusal params.source c.parameters.schema failures
  missing : (DispatchError.binding ⟨c.name, failures⟩).kind = .missingParameter ↔
    ∀ e ∈ failures, e.isMissing = true
  otherwise : (DispatchError.binding ⟨c.name, failures⟩).kind = .conversionError ↔
    ∃ e ∈ failures, e.isMissing = false

/-- Binding a type that refuses values by their names and the values alone, with any conversions,
    any source and any target, succeeds if no declared parameter is at fault, and otherwise tells
    the faults of all of them, in the order of the declarations and once each.  At the end of the
    chain of a dispatcher they are told under the name of the command, and the kind of the error
    says whether all of them are missing parameters.  A dispatch whose caller is admitted ends so,
    with interceptors that hand errors on. -/
theorem binding_reported :
    (∀ {β : Type} (b : Bindable β) (Kind : β → Prop)
      (refusal : String → Value → Option ConversionError), b.Uniform Kind refusal →
      ∀ s source target, Kind target →
        b.Reported s refusal source (b.bind s source target).2) ∧
    ∀ {σ : Type} (d : Dispatcher σ) (c : Command σ)
      (refusal : String → Value → Option ConversionError) (r : Runtime σ) (params : Parameters),
      BindsDeclared c refusal r.schemas →
      (∃ decl ∈ c.parameters.schema.params, ∃ e,
        Bindable.Fault d.service refusal params.source decl e) →
      ∃ failures,
        (∀ ctx, d.TellsFaults c refusal params failures (d.terminal c params ctx r).result) ∧
        ((∀ i ∈ d.interceptors, i.HandsOn) → ∀ ctx, (d.admission c ctx r).result = .ok () →
          (∀ name, d.registry.resolve name = .ok c →
            d.TellsFaults c refusal params failures (d.dispatch name params ctx r).result) ∧
          (CommandRegistry.inNamespace d.registry.root c.name = true → ∀ enter, d.Entry c enter →
            d.TellsFaults c refusal params failures (enter params ctx r).result)) := by
  refine ⟨fun b Kind refusal h s source target ht => Bindable.bind_reported h s source ht, ?_⟩
  intro σ d c refusal r params h hfault
  have hfaults : Bindable.faults d.service refusal params.source c.parameters.schema ≠ [] := by
    rw [ne_eq, Bindable.faults_eq_nil_iff]
    obtain ⟨decl, hdecl, e, he⟩ := hfault
    exact fun hnone => hnone decl hdecl e he
  have hnames : c.parameters.schema.names.Nodup := ParameterSchema.nodup_names _ _
  obtain ⟨hmissing, hotherwise⟩ := binding_kind_iff c.name hfaults
  -- what tells the faults tells all that is said of them
  have htells : ∀ result, result = .error (.binding
      ⟨c.name, Bindable.faults d.service refusal params.source c.parameters.schema⟩) →
      d.TellsFaults c refusal params
        (Bindable.faults d.service refusal params.source c.parameters.schema) result :=
    fun result hresult =>
      ⟨hresult, hfaults, Bindable.reports_faults hnames, hmissing, hotherwise⟩
  refine ⟨_, fun ctx => htells _ (d.terminal_of_fault h hfaults ctx), fun hi ctx hadmitted => ?_⟩
  have hchain := htells _ (chain_of_fault hi h hfaults hadmitted)
  refine ⟨fun name hname => ?_, fun hin enter henter => ?_⟩
  · simp only [dispatch, hname]
    exact hchain
  · rw [henter.eq_chain hin]
    exact hchain

end Dispatcher

namespace Sample.Script

/-- What the parameters of a script refuse. -/
def refusal (script : Script) (name : String) (v : Value) : Option ConversionError :=
  match script.assign [] name v with
  | .ok _ => none
  | .error e => some e

/-- A script takes and refuses values by their names and the values alone. -/
theorem uniform_bindable (script : Script) (key : TypeKey) :
    (script.bindable key).Uniform (fun _ => True) script.refusal := by
  -- to assign a field fails exactly where the field refuses the value, with that error
  have hsame : ∀ fields name v,
      (script.refusal name v = none ∧ ∃ stored, script.assign fields name v = .ok stored) ∨
        ∃ e, script.refusal name v = some e ∧ script.assign fields name v = .error e := by
    intro fields name v
    unfold refusal assign
    cases script.declarations.reverse.findSome? (Declaration.type? name) with
    | none => exact .inr ⟨_, rfl, rfl⟩
    | some type => cases hpass : type.pass v <;> simp [hpass]
  constructor
  · intro target stored name v _ h
    obtain ⟨hnone, -⟩ | ⟨e, -, he⟩ := hsame target name v
    · exact ⟨hnone, trivial⟩
    · exact nomatch h.symm.trans he
  · intro target name v e _ h
    obtain ⟨-, stored, hstored⟩ | ⟨cause, hcause, he⟩ := hsame target name v
    · exact nomatch h.symm.trans hstored
    · rw [hcause, Except.error.inj (h.symm.trans he)]

end Sample.Script

namespace Dispatcher

/-- One parameter is null and another one cannot be converted: the dispatch tells both, in the
    order in which they are declared, through an interceptor that watches it. -/
theorem binding_reported_alpha :
    let script : Sample.Script :=
      { declarations := [.own "to" .string true .null, .own "loud" .bool false .null] }
    let c := Sample.commandAt script 0
    let d : Dispatcher Sample.Log :=
      ⟨{}, CommandRegistry.registerEach "app" [c], Service.standard, none,
        [(Sample.Interception.record "outer").interceptor]⟩
    let params : Parameters := .ofEntries [("loud", .list []), ("to", .null)]
    BindsDeclared c script.refusal {} ∧ (∀ i ∈ d.interceptors, i.HandsOn) ∧
      d.TellsFaults c script.refusal params
        [.missing "to",
          .invalid "loud" (.mapping .list .bool "no structural mapping from List to Bool")]
        (d.dispatch "Alpha" params {} { world := [] }).result := by
  intro script c d params
  have hbinds : BindsDeclared c script.refusal {} :=
    ⟨fun kept hkept => (nomatch hkept), fun _ => True, script.uniform_bindable 0, fun _ => trivial⟩
  have hinterceptors : ∀ i ∈ d.interceptors, i.HandsOn := by
    intro i hi
    obtain rfl := List.mem_singleton.1 hi
    exact Interceptor.handsOn_record "outer"
  -- a null is no value for a required parameter
  have hmissing : Bindable.Fault d.service script.refusal params.source ⟨"to", .string, true⟩
      (.missing "to") := .missing rfl (.inl rfl)
  have hdeclared : ⟨"to", .string, true⟩ ∈ c.parameters.schema.params := by decide
  obtain ⟨failures, -, htells⟩ := binding_reported.2 d c script.refusal { world := [] } params
    hbinds ⟨_, hdeclared, _, hmissing⟩
  have hdispatch := (htells hinterceptors {} rfl).1 "Alpha" rfl
  -- the failures are read off the result
  have hresult : (d.dispatch "Alpha" params {} { world := [] }).result = .error (.binding
      ⟨c.name, [.missing "to",
        .invalid "loud" (.mapping .list .bool "no structural mapping from List to Bool")]⟩) := rfl
  rw [hdispatch.result] at hresult
  obtain rfl : failures = _ := by simpa using hresult
  exact ⟨hbinds, hinterceptors, hdispatch⟩

end Dispatcher

end CommandBus
