import CommandBus.Proofs.Dispatch.Memory
import CommandBus.Proofs.Dispatch.Starts
import CommandBus.Proofs.Parameter.Binding
import CommandBus.Sample.Authenticator
import CommandBus.Wire.Handler

/-!
# Requests that do not see each other

From one request to the next a dispatcher remembers the schemas of the types that were bound, the
classifications of the types that were checked and the authorizers that they share.  All of it is
what would be computed again, as long as a type always declares the same: `Typing` says what the
types declare, and what a dispatcher remembers is `Faithful` to it.

Two runs of a chain on the same environment are then told apart by nothing but how much was
remembered when they began.  They end with the same result and context and in the same
environment, whatever the interceptors and the bodies of the commands do.

## Key results

- `SchemaCache.faithful_getOrCompute`: a faithful cache gives the declared schema and stays faithful
- `oblivious_around_lift`, `oblivious_chain`: no link of a chain sees what is remembered
- `typed_of_reached`: what is remembered is faithful in every state that a dispatcher gets into
- `handle_alike`: a request is answered as by a dispatcher that remembers nothing
- `answers_isolated`: requests are answered one by one as each of them would be alone
-/

namespace CommandBus

open Conversion (Service)

/-! ## What is remembered -/

namespace SchemaCache

/-- Every kept schema is the one that the type declares. -/
def Faithful (declared : TypeKey → ParameterSchema) (cache : SchemaCache) : Prop :=
  ∀ key kept, cache.find? key = some kept → kept = declared key

theorem faithful_empty (declared : TypeKey → ParameterSchema) : Faithful declared {} := by
  intro key kept h
  simp [find?] at h

/-- A faithful cache gives the declared schema, whether it was kept or not, and stays faithful. -/
theorem faithful_getOrCompute {declared : TypeKey → ParameterSchema} {cache : SchemaCache}
    (h : Faithful declared cache) (key : TypeKey) :
    (cache.getOrCompute key (declared key)).1 = declared key ∧
      Faithful declared (cache.getOrCompute key (declared key)).2 := by
  unfold getOrCompute
  cases hk : cache.find? key with
  | some kept => exact ⟨h key kept hk, h⟩
  | none =>
    refine ⟨rfl, fun other kept hother => ?_⟩
    simp only [find?, List.find?_append] at hother
    -- what is found was kept before, or it is the new entry
    cases hold : cache.schemas.find? fun e => e.1 == other with
    | some e =>
      rw [hold] at hother
      exact h other kept (by rw [find?, hold]; exact hother)
    | none =>
      rw [hold] at hother
      by_cases heq : key = other
      · subst heq
        simpa using hother.symm
      · simp [heq] at hother

end SchemaCache

/-- What the types of commands declare: their names and classifiers, and their parameters. -/
structure Typing where
  declaration : TypeKey → Declaration
  schema : TypeKey → ParameterSchema

namespace Typing

variable {σ : Type}

/-- A command declares what is said of its type. -/
structure Describes (types : Typing) (c : Command σ) : Prop where
  declaration : c.declaration = types.declaration c.key
  schema : c.parameters.schema = types.schema c.key

/-- A runtime remembers nothing but what the types declare. -/
structure Faithful (types : Typing) (r : Runtime σ) : Prop where
  access : AccessRecords.Faithful types.declaration r.access
  schemas : SchemaCache.Faithful types.schema r.schemas

theorem faithful_fresh (types : Typing) (s : σ) : types.Faithful ({ world := s } : Runtime σ) :=
  ⟨AccessRecords.faithful_empty _, SchemaCache.faithful_empty _⟩

/-- Two runtimes in the same environment that remember what the types declare, each as much of
    it as it may. -/
structure Alike (types : Typing) (r r' : Runtime σ) : Prop where
  world : r.world = r'.world
  left : types.Faithful r
  right : types.Faithful r'

/-- Two ends of a dispatch that nobody can tell apart. -/
structure SameEnd (types : Typing) (o o' : Outcome (Runtime σ)) : Prop where
  result : o.result = o'.result
  context : o.context = o'.context
  state : types.Alike o.state o'.state

/-- An executor that does not see what is remembered. -/
def Oblivious (types : Typing) (e : Executor σ (Runtime σ)) : Prop :=
  ∀ ⦃c : Command σ⦄, types.Describes c → ∀ params ctx ⦃r r' : Runtime σ⦄, types.Alike r r' →
    types.SameEnd (e c params ctx r) (e c params ctx r')

end Typing

/-- Every command that a course goes on with declares what is said of its type. -/
def Link.WellTyped {σ τ : Type} (types : Typing) : Link σ τ → Prop
  | .finish _ => True
  | .next command _ _ _ resume =>
    types.Describes command ∧ ∀ outcome, (resume outcome).WellTyped types

/-- An interceptor that goes on with commands that declare what is said of their types. -/
def Interceptor.WellTyped {σ τ : Type} (types : Typing) (i : Interceptor σ τ) : Prop :=
  ∀ ⦃c : Command σ⦄, types.Describes c → ∀ params ctx s, (i c params ctx s).WellTyped types

theorem Interceptor.wellTyped_tracing {σ τ : Type} (types : Typing) :
    (Interceptor.tracing : Interceptor σ τ).WellTyped types :=
  fun _ hc _ _ _ => ⟨hc, fun _ => trivial⟩

/-! ## One dispatch -/

namespace Command

variable {σ : Type} {types : Typing} {c : Command σ}

/-- With a faithful cache an instance is bound to the declared parameters. -/
private theorem bindCached_of_faithful (hc : types.Describes c) (s : Service)
    {cache : SchemaCache} (h : SchemaCache.Faithful types.schema cache) (source : Source)
    (target : c.Params) :
    (c.parameters.bindCached s cache source target).1 = c.parameters.bind s source target ∧
      SchemaCache.Faithful types.schema (c.parameters.bindCached s cache source target).2 := by
  have hlookup := SchemaCache.faithful_getOrCompute h c.key
  rw [← hc.schema] at hlookup
  have hkept : ∀ kept, cache.find? c.parameters.key = some kept → kept = c.parameters.schema := by
    intro kept hfind
    rw [hc.schema]
    exact h c.key kept hfind
  exact ⟨Bindable.bindCached_of_kept hkept s source target, hlookup.2⟩

/-- In faithful memory a fresh instance is bound to the declared parameters. -/
theorem bound_of_faithful (hc : types.Describes c) (s : Service) (params : Parameters)
    {r : Runtime σ} (h : types.Faithful r) :
    c.bound s params r =
      let (target, result) := c.parameters.bind s params.source (c.create r.world).1
      result.map fun _ => target := by
  rw [bound, (bindCached_of_faithful hc s h.schemas params.source _).1]

/-- Making and binding an instance keeps what is remembered faithful. -/
theorem faithful_prepared (hc : types.Describes c) (s : Service) (params : Parameters)
    {r : Runtime σ} (h : types.Faithful r) : types.Faithful (c.prepared s params r) :=
  ⟨h.access,
    (bindCached_of_faithful hc s h.schemas params.source (c.create r.world).1).2⟩

end Command

namespace Typing

variable {σ : Type} {types : Typing}

/-- What is done to the environment alone keeps two runtimes alike. -/
theorem Alike.withWorld {r r' : Runtime σ} (h : types.Alike r r') (s : σ) :
    types.Alike { r with world := s } { r' with world := s } :=
  ⟨rfl, ⟨h.left.access, h.left.schemas⟩, ⟨h.right.access, h.right.schemas⟩⟩

/-- Making an instance, binding it and executing it does not depend on what is remembered. -/
theorem oblivious_invoke (s : Service) :
    types.Oblivious fun (c : Command σ) params ctx r => c.invoke s params ctx r := by
  intro c hc params ctx r r' h
  have hprepared : types.Alike (c.prepared s params r) (c.prepared s params r') :=
    ⟨by simp only [Command.prepared, h.world], Command.faithful_prepared hc s params h.left,
      Command.faithful_prepared hc s params h.right⟩
  have hbound : c.bound s params r = c.bound s params r' := by
    rw [Command.bound_of_faithful hc s params h.left,
      Command.bound_of_faithful hc s params h.right, h.world]
  simp only [Command.invoke_eq, hbound]
  cases c.bound s params r' with
  | error e => exact ⟨rfl, rfl, hprepared⟩
  | ok target =>
    -- the body sees the environment only
    simp only [Command.run, hprepared.world]
    exact ⟨rfl, rfl, hprepared.withWorld _⟩

/-- A course of the environment does not see what is remembered, if what it goes on to does
    not. -/
private theorem sameEnd_run_lift {rest : Executor σ (Runtime σ)} (hrest : types.Oblivious rest)
    {link : Link σ σ} (hlink : link.WellTyped types) {r r' : Runtime σ} (h : types.Alike r r') :
    types.SameEnd ((link.lift r).run rest) ((link.lift r').run rest) := by
  induction link generalizing r r' with
  | finish outcome => exact ⟨rfl, rfl, h.withWorld _⟩
  | next c params ctx s resume ih =>
    -- the rest of the chain ends the same, so that the course goes on the same
    have hpass := hrest hlink.1 params ctx (h.withWorld s)
    simp only [Link.lift, Link.run, hpass.result, hpass.context, hpass.state.world]
    exact ih _ (hlink.2 _) hpass.state

/-- An interceptor does not see what is remembered, if what it stands around does not. -/
theorem oblivious_around_lift {rest : Executor σ (Runtime σ)} (hrest : types.Oblivious rest)
    {i : Interceptor σ σ} (hi : i.WellTyped types) : types.Oblivious (i.lift.around rest) := by
  intro c hc params ctx r r' h
  simp only [Interceptor.around, Interceptor.lift, h.world]
  exact sameEnd_run_lift hrest (hi hc params ctx r'.world) h

/-- Interceptors do not see what is remembered, and neither does what they stand around. -/
theorem oblivious_buildChain {terminal : Executor σ (Runtime σ)} (h : types.Oblivious terminal)
    {interceptors : List (Interceptor σ σ)} (hi : ∀ i ∈ interceptors, i.WellTyped types) :
    types.Oblivious (buildChain (interceptors.map Interceptor.lift) terminal) := by
  induction interceptors with
  | nil => exact h
  | cons i rest ih =>
    rw [List.forall_mem_cons] at hi
    exact oblivious_around_lift (ih hi.2) hi.1

/-- An access check keeps what is remembered faithful. -/
theorem Faithful.checked {c : Command σ} (hc : types.Describes c) {r : Runtime σ}
    (h : types.Faithful r) (a : Authenticator σ) (ctx : Context) :
    types.Faithful
      { r with
        access := (Dispatcher.checked a c ctx r).2
        world := (Dispatcher.checked a c ctx r).1.state } := by
  refine ⟨?_, h.schemas⟩
  rw [Dispatcher.checked, AccessRecords.check_snd]
  exact AccessRecords.faithful_authorizer h.access hc.declaration

/-- An access check decides by what a type declares and not by what is remembered of it. -/
theorem oblivious_around_authorization {rest : Executor σ (Runtime σ)}
    (hrest : types.Oblivious rest) (a : Authenticator σ) :
    types.Oblivious ((Interceptor.authorization a).around rest) := by
  intro c hc params ctx r r' h
  -- the decision is that of the declaration and the world, whatever was recorded
  have hdecision : (Dispatcher.checked a c ctx r).1 = (Dispatcher.checked a c ctx r').1 := by
    have hleft := AccessRecords.check_fst h.left.access hc.declaration a ctx r.world
    have hright := AccessRecords.check_fst h.right.access hc.declaration a ctx r'.world
    rw [h.world] at hleft
    rw [Dispatcher.checked, Dispatcher.checked, h.world]
    exact hleft.trans hright.symm
  -- after the check both runtimes are alike again
  have hchecked : types.Alike
      { r with
        access := (Dispatcher.checked a c ctx r).2
        world := (Dispatcher.checked a c ctx r).1.state }
      { r' with
        access := (Dispatcher.checked a c ctx r').2
        world := (Dispatcher.checked a c ctx r').1.state } :=
    ⟨congrArg Decision.state hdecision, h.left.checked hc a ctx, h.right.checked hc a ctx⟩
  cases hresult : (Dispatcher.checked a c ctx r').1.result with
  | error e =>
    have hresult' : (Dispatcher.checked a c ctx r).1.result = .error e := by
      rw [hdecision, hresult]
    rw [Interceptor.around_authorization_of_denied hresult,
      Interceptor.around_authorization_of_denied hresult']
    exact ⟨rfl, rfl, hchecked⟩
  | ok _ =>
    have hresult' : (Dispatcher.checked a c ctx r).1.result = .ok () := by
      rw [hdecision, hresult]
    rw [Interceptor.around_authorization_of_passed hresult,
      Interceptor.around_authorization_of_passed hresult', hdecision]
    rw [hdecision] at hchecked
    exact hrest hc params _ hchecked

end Typing

namespace Dispatcher

variable {σ : Type}

/-- All registered commands declare what is said of their types, and so do all commands that the
    interceptors go on with. -/
structure Typed (d : Dispatcher σ) (types : Typing) : Prop where
  commands : ∀ c ∈ d.registry.commands, types.Describes c
  interceptors : ∀ i ∈ d.interceptors, i.WellTyped types

variable {types : Typing} {d : Dispatcher σ}

theorem Typed.declaredBy (h : d.Typed types) : d.DeclaredBy types.declaration :=
  fun c hc => (h.commands c hc).declaration

/-- What the registered commands declare for their types. -/
def typing (d : Dispatcher σ) : Typing where
  declaration := d.declared
  schema key := ((d.registry.ofType? key).map fun c => c.parameters.schema).getD ⟨"", []⟩

/-- Registered commands that are told apart by type and by name declare what is said of their
    types. -/
theorem WellKeyed.typed (h : d.WellKeyed) (hi : ∀ i ∈ d.interceptors, i.WellTyped d.typing) :
    d.Typed d.typing where
  commands c hc := by
    refine ⟨declared_key h hc, ?_⟩
    simp only [typing, CommandRegistry.ofType?_key_of_mem h.keyed hc (h.types c hc),
      Option.map_some, Option.getD_some]
  interceptors := hi

/-- The chain does not see what is remembered. -/
theorem oblivious_chain (h : d.Typed types) : types.Oblivious d.chain := by
  have hrest : types.Oblivious (buildChain (d.interceptors.map Interceptor.lift) d.terminal) :=
    Typing.oblivious_buildChain (Typing.oblivious_invoke d.service) h.interceptors
  cases ha : d.authenticator with
  | none =>
    have hchain : d.chain = buildChain (d.interceptors.map Interceptor.lift) d.terminal := by
      simp [chain, guards, ha]
    rw [hchain]
    exact hrest
  | some a =>
    rw [chain_eq_around ha]
    exact Typing.oblivious_around_authorization hrest a

/-- A dispatch by name does not see what is remembered. -/
theorem dispatch_alike (h : d.Typed types) (name : String) (params : Parameters) (ctx : Context)
    {r r' : Runtime σ} (hr : types.Alike r r') :
    types.SameEnd (d.dispatch name params ctx r) (d.dispatch name params ctx r') := by
  unfold dispatch
  cases hname : d.registry.resolve name with
  | error e => exact ⟨rfl, rfl, hr⟩
  | ok c =>
    exact oblivious_chain h (h.commands c (CommandRegistry.mem_commands_of_resolve hname))
      params ctx hr

/-! ## States of a dispatcher -/

/-- Describing registered commands keeps the cached schemas faithful. -/
private theorem faithful_describeCommands_schemas (h : d.Typed types) (controlled : Bool)
    {cs : List (Command σ)} (hcs : ∀ c ∈ cs, c ∈ d.registry.commands) {r : Runtime σ}
    (hr : SchemaCache.Faithful types.schema r.schemas) :
    SchemaCache.Faithful types.schema (describeCommands controlled cs r).2.schemas := by
  induction cs generalizing r with
  | nil => exact hr
  | cons c rest ih =>
    rw [List.forall_mem_cons] at hcs
    have hnext := (SchemaCache.faithful_getOrCompute hr c.key).2
    rw [← (h.commands c hcs.1).schema] at hnext
    cases controlled with
    | true => exact ih hcs.2 hnext
    | false => exact ih hcs.2 hnext

/-- In every state that a dispatcher gets into, it remembers nothing but what the types
    declare. -/
theorem typed_of_reached (h : d.Typed types) {r : Runtime σ} (hr : d.Reached r) :
    types.Faithful r := by
  refine ⟨faithful_of_reached h.declaredBy hr, ?_⟩
  -- only a dispatch and a description fill the cache of schemas
  induction hr with
  | fresh s => exact SchemaCache.faithful_empty _
  | environment _ s ih => exact ih
  | @dispatched r hr name params ctx ih =>
    have hfaithful : types.Faithful r := ⟨faithful_of_reached h.declaredBy hr, ih⟩
    exact (dispatch_alike h name params ctx ⟨rfl, hfaithful, hfaithful⟩).state.left.schemas
  | @verified r _ ih =>
    unfold verifyAccess
    cases d.authenticator with
    | none => exact ih
    | some a => exact ih
  | described _ ih => exact faithful_describeCommands_schemas h _ (fun c hc => hc) ih

/-! ## Requests -/

/-- A request is answered the same by runtimes that differ only in what they remember. -/
theorem handle_alike (h : d.Typed types) (freshId : String) (request : Request)
    {r r' : Runtime σ} (hr : types.Alike r r') :
    (d.handle freshId request r).1 = (d.handle freshId request r').1 ∧
      types.Alike (d.handle freshId request r).2 (d.handle freshId request r').2 := by
  have hend := dispatch_alike h request.command (Parameters.ofJson request.members)
    (request.context (request.id.getD freshId)) hr
  unfold handle
  dsimp only
  split
  · exact ⟨by rw [hend.result], hend.state⟩
  · exact ⟨rfl, hr⟩

/-- A request with the id that is made for it and the environment that it is answered in. -/
structure Turn (σ : Type) where
  freshId : String
  world : σ
  request : Request

/-- Answer one request in the environment of its turn. -/
def answer (d : Dispatcher σ) (turn : Turn σ) (r : Runtime σ) : Response × Runtime σ :=
  d.handle turn.freshId turn.request { r with world := turn.world }

/-- Answer requests one after the other; what is remembered goes on from each to the next. -/
def answerAll (d : Dispatcher σ) : List (Turn σ) → Runtime σ → List Response × Runtime σ
  | [], r => ([], r)
  | turn :: rest, r =>
    let (response, r) := d.answer turn r
    let (responses, r) := answerAll d rest r
    (response :: responses, r)

/-- In faithful memory a request is answered as with none. -/
theorem answer_of_faithful (h : d.Typed types) (turn : Turn σ) {r : Runtime σ}
    (hr : types.Faithful r) :
    (d.answer turn r).1 = (d.handle turn.freshId turn.request { world := turn.world }).1 ∧
      types.Faithful (d.answer turn r).2 := by
  have halike : types.Alike { r with world := turn.world } { world := turn.world } :=
    ⟨rfl, ⟨hr.access, hr.schemas⟩, types.faithful_fresh turn.world⟩
  have hboth := handle_alike h turn.freshId turn.request halike
  exact ⟨hboth.1, hboth.2.left⟩

/-- Requests are answered one by one as each of them is with no memory. -/
theorem answerAll_of_faithful (h : d.Typed types) (turns : List (Turn σ)) {r : Runtime σ}
    (hr : types.Faithful r) :
    (d.answerAll turns r).1 =
      turns.map fun turn => (d.handle turn.freshId turn.request { world := turn.world }).1 := by
  induction turns generalizing r with
  | nil => rfl
  | cons turn rest ih =>
    obtain ⟨hresponse, hnext⟩ := answer_of_faithful h turn hr
    simp only [answerAll, List.map_cons]
    rw [hresponse, ih hnext]

/-- Let a dispatcher be built from parts that keep nothing of their own: whatever they leave in
    the environment, every request comes with an environment of its turn, the clock among it.
    Then any sequence of requests is answered, from any state that the dispatcher gets into, as
    each request is answered by a dispatcher that is built anew of the same parts and has
    answered nothing yet.  Hence to answer the requests in another order is to give the same
    answers in another order. -/
theorem answers_isolated {types : Typing} {b : Blueprint σ} (hb : b.build = .ok d)
    (h : d.Typed types) {r : Runtime σ} (hr : d.Reached r) :
    (∀ turns fresh, b.build = .ok fresh →
      (d.answerAll turns r).1 = turns.map fun turn =>
        (fresh.handle turn.freshId turn.request { world := turn.world }).1) ∧
    ∀ turns turns' : List (Turn σ), turns.Perm turns' →
      (turns.zip (d.answerAll turns r).1).Perm (turns'.zip (d.answerAll turns' r).1) := by
  have hanswers := fun turns => answerAll_of_faithful h turns (typed_of_reached h hr)
  refine ⟨fun turns fresh hfresh => ?_, fun turns turns' hperm => ?_⟩
  · obtain rfl : d = fresh := Except.ok.inj (hb.symm.trans hfresh)
    exact hanswers turns
  · -- every request takes its answer along
    have hpairs : ∀ turns : List (Turn σ), turns.zip (d.answerAll turns r).1 =
        turns.map fun turn =>
          (turn, (d.handle turn.freshId turn.request { world := turn.world }).1) := by
      intro turns
      rw [hanswers, List.map_prod_left_eq_zip]
    rw [hpairs, hpairs]
    exact hperm.map _

/-- Between two requests of one caller, a request of nobody is refused, and what was bound for
    the first caller does not make up for what the second request leaves out. -/
theorem answers_isolated_users_create :
    let c := Sample.commandAt { declarations := [.own "title" .string true (.string "")] } 1
    let b : Blueprint Sample.Log :=
      { settings := {}
        commands := [c]
        interceptors := [(Sample.Interception.record "outer").interceptor]
        authenticator := some (Sample.Answer.caller "user").authenticator }
    let asked : Request :=
      { version := "1", command := "users.Create", credentials := some (.single "user" "eve") }
    let titled : Turn Sample.Log :=
      ⟨"1", [], { asked with parameters := .single "title" (.ofJson (.string "Go")) }⟩
    let anonymous : Turn Sample.Log := ⟨"2", [], { asked with credentials := none }⟩
    let untitled : Turn Sample.Log := ⟨"3", [], asked⟩
    ∃ d types, b.build = .ok d ∧ d.Typed types ∧ d.Reached { world := [] } ∧
      (d.answerAll [titled, anonymous, untitled] { world := [] }).1 =
        [.success "1" (.map [("title", .string "Go")]),
          .failure "2" (.accessDenied ⟨"app.users.Create", .unauthenticated⟩),
          .failure "3" (.binding ⟨"app.users.Create", [.missing "title"]⟩)] := by
  intro c b asked titled anonymous untitled
  let d : Dispatcher Sample.Log :=
    ⟨{}, CommandRegistry.registerEach "app" [c], Conversion.Service.standard, b.authenticator,
      b.interceptors⟩
  let types : Typing := ⟨fun _ => c.declaration, fun _ => c.parameters.schema⟩
  have hb : b.build = .ok d := rfl
  -- one command, and one interceptor that hands on the command that it was given
  have htyped : d.Typed types := by
    refine ⟨fun other hother => ?_, fun i hi => ?_⟩
    · obtain rfl := List.mem_singleton.1 hother
      exact ⟨rfl, rfl⟩
    · obtain rfl := List.mem_singleton.1 hi
      exact fun _ hc _ _ _ => ⟨hc, fun _ => trivial⟩
  have hreached : d.Reached { world := [] } := .fresh []
  have hanswers := (answers_isolated hb htyped hreached).1 [titled, anonymous, untitled] d hb
  exact ⟨d, types, hb, htyped, hreached, hanswers.trans rfl⟩

end Dispatcher

end CommandBus
