import CommandBus.Dispatch.Dispatcher

/-!
# Which bodies a dispatch starts

The outcome of a dispatch does not tell whether the body of a command was started.  To see it, a
dispatcher is watched: its environment gets a list beside it, and every command writes there each
time that the chain starts its body.  Authenticators, interceptors and commands see the
environment only, and the dispatch is that of any other dispatcher.

`starts` is the list after a dispatch that began with an empty one.  It holds the starts of the
dispatcher's own chain, which come about where the chain ends.  Two others are not among them:
an interceptor may invoke the command that it is given by itself, and a body may dispatch; both
work on the environment, and what they start is part of what they make of it.

## Key results

- `dispatch_watched`: a watched dispatch is the dispatch, with `starts` added to the list
- `starts_eq`: the starts put together link by link
-/

namespace CommandBus

open Conversion (Service)

/-- A body that was started: of which command, on what, and to what end. -/
structure Start (σ : Type) where
  key : TypeKey
  name : String
  context : Context
  world : σ
  ending : Execution σ

/-- An environment and the bodies started so far, in their order. -/
abbrev Watched (σ : Type) := σ × List (Start σ)

/-! ## Watching the parts of a dispatcher -/

namespace Command

variable {σ : Type}

/-- The start of the body on a bound instance. -/
def started (c : Command σ) (params : c.Params) (ctx : Context) (world : σ) : Start σ :=
  ⟨c.key, c.name, ctx, world, c.execute params ctx world⟩

/-- The same command, which writes down every start of its body. -/
def watched (c : Command σ) : Command (Watched σ) :=
  { c with
    create := fun s => ((c.create s.1).1, (c.create s.1).2, s.2)
    execute := fun params ctx s =>
      let start := c.started params ctx s.1
      ⟨start.ending.result, start.ending.context, start.ending.state, s.2 ++ [start]⟩ }

/-- A watched command as interceptors see it.  One that invokes it by itself does what it would
    do with the command, and nothing is written down. -/
def unwatched (c : Command (Watched σ)) : Command σ :=
  { c with
    create := fun s => ((c.create (s, [])).1, (c.create (s, [])).2.1)
    execute := fun params ctx s =>
      let done := c.execute params ctx (s, [])
      ⟨done.result, done.context, done.state.1⟩ }

@[simp] theorem watched_key (c : Command σ) : c.watched.key = c.key := rfl

@[simp] theorem watched_name (c : Command σ) : c.watched.name = c.name := rfl

@[simp] theorem watched_access (c : Command σ) : c.watched.access = c.access := rfl

@[simp] theorem unwatched_watched (c : Command σ) : c.watched.unwatched = c := rfl

end Command

/-- An authenticator that does not see the list. -/
def Authenticator.watched {σ : Type} (a : Authenticator σ) : Authenticator (Watched σ) :=
  fun ctx s => ((a ctx s.1).1, (a ctx s.1).2, s.2)

/-- A course that does not see the list and hands it on as it is. -/
def Link.watched {σ : Type} (starts : List (Start σ)) :
    Link σ σ → Link (Watched σ) (Watched σ)
  | .finish outcome => .finish ⟨outcome.result, outcome.context, outcome.state, starts⟩
  | .next command params ctx state resume =>
    .next command.watched params ctx (state, starts) fun outcome =>
      (resume ⟨outcome.result, outcome.context, outcome.state.1⟩).watched outcome.state.2

/-- An interceptor that does not see the list. -/
def Interceptor.watched {σ : Type} (i : Interceptor σ σ) : Interceptor (Watched σ) (Watched σ) :=
  fun command params ctx s => (i command.unwatched params ctx s.1).watched s.2

/-- The same commands under the same names, watched. -/
def CommandRegistry.watched {σ : Type} (registry : CommandRegistry σ) :
    CommandRegistry (Watched σ) :=
  ⟨registry.root, registry.byName.mapValues Command.watched, registry.byType⟩

/-- A runtime with bodies started so far. -/
def Runtime.watched {σ : Type} (r : Runtime σ) (starts : List (Start σ)) : Runtime (Watched σ) :=
  ⟨r.schemas, r.access, r.world, starts⟩

/-- To replace the watched environment is to replace the environment and the list. -/
theorem Runtime.watched_with_world {σ : Type} (r : Runtime σ) (before earlier : List (Start σ))
    (s : σ) :
    { r.watched before with world := (s, earlier) } = ({ r with world := s }).watched earlier := rfl

/-- An outcome with bodies started so far. -/
def Outcome.watched {σ : Type} (o : Outcome (Runtime σ)) (starts : List (Start σ)) :
    Outcome (Runtime (Watched σ)) :=
  ⟨o.result, o.context, o.state.watched starts⟩

namespace Dispatcher

variable {σ : Type}

/-- The same dispatcher with its commands watched. -/
def watched (d : Dispatcher σ) : Dispatcher (Watched σ) :=
  ⟨d.settings, d.registry.watched, d.service, d.authenticator.map Authenticator.watched,
    d.interceptors.map Interceptor.watched⟩

/-- The bodies that the dispatcher's own chain starts in a dispatch, in their order. -/
def starts (d : Dispatcher σ) (name : String) (params : Parameters) (ctx : Context)
    (r : Runtime σ) : List (Start σ) :=
  (d.watched.dispatch name params ctx (r.watched [])).state.world.2

end Dispatcher

/-! ## What each link starts -/

/-- Which bodies a call of an executor starts. -/
abbrev Executor.Starts (σ : Type) :=
  Command σ → Parameters → Context → Runtime σ → List (Start σ)

/-- `watching` does what `e` does, and writes down what it starts. -/
def Executor.Watches {σ : Type} (watching : Executor (Watched σ) (Runtime (Watched σ)))
    (e : Executor σ (Runtime σ)) (starts : Executor.Starts σ) : Prop :=
  ∀ c params ctx r earlier, watching c.watched params ctx (r.watched earlier) =
    (e c params ctx r).watched (earlier ++ starts c params ctx r)

namespace Command

variable {σ : Type}

/-- A fresh instance after binding, or why it could not be bound. -/
def bound (c : Command σ) (s : Service) (params : Parameters) (r : Runtime σ) :
    Except BindingError c.Params :=
  let (target, result) :=
    (c.parameters.bindCached s r.schemas params.source (c.create r.world).1).1
  result.map fun _ => target

/-- The runtime once an instance was made and its schema was looked up. -/
def prepared (c : Command σ) (s : Service) (params : Parameters) (r : Runtime σ) : Runtime σ :=
  { r with
    schemas := (c.parameters.bindCached s r.schemas params.source (c.create r.world).1).2
    world := (c.create r.world).2 }

/-- The body runs on the bound instance, or the failure to bind it is the result. -/
theorem invoke_eq (c : Command σ) (s : Service) (params : Parameters) (ctx : Context)
    (r : Runtime σ) :
    c.invoke s params ctx r =
      match c.bound s params r with
      | .error e => ⟨.error (.binding (e.forCommand c.name)), ctx, c.prepared s params r⟩
      | .ok target => c.run target ctx (c.prepared s params r) := by
  unfold invoke bound prepared
  -- the made command and the binding are named, so that the match reduces on them
  generalize c.create r.world = made
  obtain ⟨fresh, world⟩ := made
  dsimp only
  generalize c.parameters.bindCached s r.schemas params.source fresh = binding
  obtain ⟨⟨target, result⟩, schemas⟩ := binding
  cases result with
  | error e => rfl
  | ok _ => rfl

/-- What invoking a command starts: its body, if binding succeeds. -/
def starts (c : Command σ) (s : Service) (params : Parameters) (ctx : Context) (r : Runtime σ) :
    List (Start σ) :=
  match c.bound s params r with
  | .error _ => []
  | .ok target => [c.started target ctx (c.prepared s params r).world]

/-- Invoking a watched command writes down the start of its body, if there is one. -/
theorem invoke_watched (c : Command σ) (s : Service) (params : Parameters) (ctx : Context)
    (r : Runtime σ) (earlier : List (Start σ)) :
    c.watched.invoke s params ctx (r.watched earlier) =
      (c.invoke s params ctx r).watched (earlier ++ c.starts s params ctx r) := by
  -- binding and preparing do not look at what was written down
  have hbound : c.watched.bound s params (r.watched earlier) = c.bound s params r := rfl
  have hprepared : c.watched.prepared s params (r.watched earlier) =
      (c.prepared s params r).watched earlier := rfl
  rw [invoke_eq, invoke_eq, starts, hbound, hprepared]
  cases c.bound s params r with
  | error e =>
    simp only [List.append_nil]
    rfl
  | ok target =>
    simp only [run, watched_name]
    rfl

end Command

namespace Link

variable {σ : Type}

/-- What a course starts: whatever the rest of the chain starts each time that it goes on. -/
def starts (rest : Executor σ (Runtime σ)) (restStarts : Executor.Starts σ) :
    Link σ (Runtime σ) → List (Start σ)
  | .finish _ => []
  | .next command params ctx r resume =>
    restStarts command params ctx r ++ starts rest restStarts (resume (rest command params ctx r))

/-- A watched course ends as the course does, with the starts of all its passes. -/
theorem run_watched {watching : Executor (Watched σ) (Runtime (Watched σ))}
    {rest : Executor σ (Runtime σ)} {restStarts : Executor.Starts σ}
    (h : watching.Watches rest restStarts) (link : Link σ σ) (r : Runtime σ)
    (before earlier : List (Start σ)) :
    ((link.watched earlier).lift (r.watched before)).run watching =
      ((link.lift r).run rest).watched (earlier ++ (link.lift r).starts rest restStarts) := by
  induction link generalizing r before earlier with
  | finish outcome =>
    simp only [lift, run, starts, List.append_nil]
    rfl
  | next c params ctx s resume ih =>
    -- the pass adds its starts to the list, and the course goes on from there
    have hpass := h c params ctx { r with world := s } earlier
    simp only [Link.watched, lift, run, starts]
    rw [r.watched_with_world before earlier s, hpass, ← List.append_assoc]
    exact ih _ _ _ _

end Link

namespace Interceptor

variable {σ : Type}

/-- What an interceptor around an executor starts. -/
def starts (i : Interceptor σ (Runtime σ)) (rest : Executor σ (Runtime σ))
    (restStarts : Executor.Starts σ) : Executor.Starts σ :=
  fun c params ctx r => (i c params ctx r).starts rest restStarts

variable {watching : Executor (Watched σ) (Runtime (Watched σ))} {rest : Executor σ (Runtime σ)}
  {restStarts : Executor.Starts σ}

/-- An interceptor of the environment around a watched chain. -/
theorem watches_around_lift (h : watching.Watches rest restStarts) (i : Interceptor σ σ) :
    Executor.Watches (i.watched.lift.around watching) (i.lift.around rest)
      (i.lift.starts rest restStarts) := by
  intro c params ctx r earlier
  -- the interceptor is asked about the command as it is
  have hcourse : i.watched c.watched params ctx (r.world, earlier) =
      (i c params ctx r.world).watched earlier := by
    rw [Interceptor.watched, Command.unwatched_watched]
  have hrun := Link.run_watched h (i c params ctx r.world) r earlier earlier
  rw [← hcourse] at hrun
  exact hrun

end Interceptor

/-- An authorization does not see the list. -/
theorem AccessPolicy.authorize_watched {σ : Type} (policy : AccessPolicy) (a : Authenticator σ)
    (command : String) (ctx : Context) (s : Watched σ) :
    policy.authorize a.watched command ctx s =
      let decision := policy.authorize a command ctx s.1
      ⟨decision.result, decision.context, decision.state, s.2⟩ := by
  simp only [authorize, Authenticator.watched]
  split
  · cases caller command (a ctx s.1).1 with
    | error e => rfl
    | ok i =>
      dsimp only
      split
      · rfl
      · rfl
  · rfl

/-- An access check does not see the list. -/
theorem AccessRecords.check_watched {σ : Type} (records : AccessRecords) (a : Authenticator σ)
    (key : TypeKey) (command : String) (classifiers : List Access) (ctx : Context)
    (s : Watched σ) :
    records.check a.watched key command classifiers ctx s =
      let (decision, records) := records.check a key command classifiers ctx s.1
      (⟨decision.result, decision.context, decision.state, s.2⟩, records) := by
  unfold check
  cases records.authorizer key command classifiers with
  | mk found records =>
    cases found with
    | error e => rfl
    | ok authorizer => simp only [AccessPolicy.authorize_watched]

namespace Interceptor

variable {σ : Type} {watching : Executor (Watched σ) (Runtime (Watched σ))}
  {rest : Executor σ (Runtime σ)} {restStarts : Executor.Starts σ}

/-- The access check around a watched chain. -/
theorem watches_around_authorization (h : watching.Watches rest restStarts)
    (a : Authenticator σ) :
    Executor.Watches ((authorization a.watched).around watching) ((authorization a).around rest)
      ((authorization a).starts rest restStarts) := by
  intro c params ctx r earlier
  have hcheck := r.access.check_watched a c.key c.name c.access ctx (r.world, earlier)
  simp only [around, starts, authorization, Runtime.watched, Command.watched_key,
    Command.watched_name, Command.watched_access, hcheck]
  generalize r.access.check a c.key c.name c.access ctx r.world = checked
  obtain ⟨decision, records⟩ := checked
  dsimp only
  -- a refusal starts nothing, and a caller who passes goes on to the rest
  cases decision.result with
  | error e =>
    simp only [Link.run, Link.starts, List.append_nil]
    rfl
  | ok _ =>
    simp only [Link.run, Link.starts, List.append_nil]
    exact h c params decision.context { r with access := records, world := decision.state } earlier

end Interceptor

/-! ## A whole dispatch -/

/-- What a chain starts, from the outermost interceptor to the executor that it ends in. -/
def chainStarts {σ : Type} (terminal : Executor σ (Runtime σ))
    (terminalStarts : Executor.Starts σ) :
    List (Interceptor σ (Runtime σ)) → Executor.Starts σ
  | [] => terminalStarts
  | i :: rest => i.starts (buildChain rest terminal) (chainStarts terminal terminalStarts rest)

namespace CommandRegistry

variable {σ : Type}

/-- What is registered under a name in the namespace, watched. -/
theorem named?_watched (registry : CommandRegistry σ) (name : String) :
    registry.watched.named? name = (registry.named? name).map Command.watched := by
  simp only [named?, watched, SortedEntries.entries_mapValues, Entries.get?_mapValues,
    Option.filter_map]
  rfl

/-- A name stands for the same command, watched. -/
theorem resolve_watched (registry : CommandRegistry σ) (name : String) :
    registry.watched.resolve name = (registry.resolve name).map Command.watched := by
  simp only [resolve, named?_watched]
  cases registry.named? name with
  | some c => rfl
  | none =>
    simp only [Option.map_none, watched, SortedEntries.entries_mapValues, Entries.get?_mapValues]
    cases Entries.get? (qualified registry.root name) registry.byName.entries with
    | some c => rfl
    | none => rfl

end CommandRegistry

namespace Dispatcher

variable {σ : Type}

/-- Interceptors of the environment around a watched executor, one after the other. -/
theorem watches_buildChain {watching : Executor (Watched σ) (Runtime (Watched σ))}
    {terminal : Executor σ (Runtime σ)} {terminalStarts : Executor.Starts σ}
    (h : watching.Watches terminal terminalStarts) (interceptors : List (Interceptor σ σ)) :
    Executor.Watches
      (buildChain ((interceptors.map Interceptor.watched).map Interceptor.lift) watching)
      (buildChain (interceptors.map Interceptor.lift) terminal)
      (chainStarts terminal terminalStarts (interceptors.map Interceptor.lift)) := by
  induction interceptors with
  | nil => exact h
  | cons i rest ih => exact Interceptor.watches_around_lift ih i

/-- What the whole chain of a dispatcher starts. -/
def startsOf (d : Dispatcher σ) : Executor.Starts σ :=
  chainStarts d.terminal (fun c => c.starts d.service)
    (d.guards ++ d.interceptors.map Interceptor.lift)

/-- The chain of a watched dispatcher writes down what the chain starts. -/
theorem watches_chain (d : Dispatcher σ) : d.watched.chain.Watches d.chain d.startsOf := by
  have hterminal : d.watched.terminal.Watches d.terminal fun c => c.starts d.service :=
    fun c params ctx r earlier => c.invoke_watched d.service params ctx r earlier
  have hrest := watches_buildChain hterminal d.interceptors
  unfold chain startsOf guards
  cases ha : d.authenticator with
  | none =>
    simp only [watched, ha, Option.map_none, List.nil_append]
    exact hrest
  | some a =>
    simp only [watched, ha, Option.map_some]
    exact Interceptor.watches_around_authorization hrest a

/-- A watched dispatch ends as the dispatch does, whatever was started before it, and the list
    grows by what the dispatch starts. -/
private theorem dispatch_watched_startsOf (d : Dispatcher σ) (name : String) (params : Parameters)
    (ctx : Context) (r : Runtime σ) (earlier : List (Start σ)) :
    d.watched.dispatch name params ctx (r.watched earlier) =
      (d.dispatch name params ctx r).watched (earlier ++
        match d.registry.resolve name with
        | .error _ => []
        | .ok c => d.startsOf c params ctx r) := by
  have hresolve : d.watched.registry.resolve name = _ := d.registry.resolve_watched name
  unfold dispatch
  rw [hresolve]
  cases d.registry.resolve name with
  | error e =>
    simp only [List.append_nil]
    rfl
  | ok c => exact d.watches_chain c params ctx r earlier

/-- The starts of a dispatch are those of the chain on the command that the name stands for. -/
theorem starts_eq (d : Dispatcher σ) (name : String) (params : Parameters) (ctx : Context)
    (r : Runtime σ) :
    d.starts name params ctx r =
      match d.registry.resolve name with
      | .error _ => []
      | .ok c => d.startsOf c params ctx r := by
  rw [starts, dispatch_watched_startsOf]
  rfl

/-- A watched dispatch is the dispatch, whatever was started before it, with its starts added to
    the list. -/
theorem dispatch_watched (d : Dispatcher σ) (name : String) (params : Parameters) (ctx : Context)
    (r : Runtime σ) (earlier : List (Start σ)) :
    d.watched.dispatch name params ctx (r.watched earlier) =
      (d.dispatch name params ctx r).watched (earlier ++ d.starts name params ctx r) := by
  rw [dispatch_watched_startsOf, starts_eq]

end Dispatcher

end CommandBus
