import CommandBus.Dispatch.Command

/-! # Interceptor chains

An interceptor stands around the rest of a chain.  It may change the parameters and the context
before it goes on, change the outcome afterwards, or end the dispatch by itself.

What an interceptor does is a `Link`: an end, or a step into the rest of the chain together
with what to do with its outcome.  `buildChain` puts interceptors around an executor, the
first one outermost. -/

namespace CommandBus

/-- Runs commands; `τ` is the state that is passed along. -/
abbrev Executor (σ τ : Type) := Command σ → Parameters → Context → τ → Outcome τ

/-- The course of an interceptor. -/
inductive Link (σ τ : Type) where
  /-- The dispatch ends here. -/
  | finish (outcome : Outcome τ)
  /-- The rest of the chain runs, and its outcome decides how to go on. -/
  | next (command : Command σ) (params : Parameters) (ctx : Context) (state : τ)
      (resume : Outcome τ → Link σ τ)

namespace Link

variable {σ τ : Type}

/-- Follow a course, with `rest` as the rest of the chain. -/
def run (rest : Executor σ τ) : Link σ τ → Outcome τ
  | .finish outcome => outcome
  | .next command params ctx state resume => run rest (resume (rest command params ctx state))

/-- A course that sees only the environment, inside a runtime. -/
def lift (r : Runtime σ) : Link σ σ → Link σ (Runtime σ)
  | .finish outcome =>
    .finish ⟨outcome.result, outcome.context, { r with world := outcome.state }⟩
  | .next command params ctx state resume =>
    .next command params ctx { r with world := state } fun outcome =>
      lift outcome.state (resume ⟨outcome.result, outcome.context, outcome.state.world⟩)

end Link

/-- Stands around the rest of a chain. -/
abbrev Interceptor (σ τ : Type) := Command σ → Parameters → Context → τ → Link σ τ

namespace Interceptor

variable {σ τ : Type}

/-- An interceptor around an executor. -/
def around (interceptor : Interceptor σ τ) (rest : Executor σ τ) : Executor σ τ :=
  fun command params ctx state => (interceptor command params ctx state).run rest

/-- An interceptor that sees only the environment, inside a runtime. -/
def lift (interceptor : Interceptor σ σ) : Interceptor σ (Runtime σ) :=
  fun command params ctx r => (interceptor command params ctx r.world).lift r

/-- Watches dispatches for the logs and changes nothing. -/
def tracing : Interceptor σ τ :=
  fun command params ctx state => .next command params ctx state .finish

/-- Lets only those dispatches go on whose caller may run the command. -/
def authorization (authenticator : Authenticator σ) : Interceptor σ (Runtime σ) :=
  fun command params ctx r =>
    let (decision, access) :=
      r.access.check authenticator command.key command.name command.access ctx r.world
    let r := { r with access := access, world := decision.state }
    match decision.result with
    | .ok () => .next command params decision.context r .finish
    | .error e => .finish ⟨.error (.ofAccess e), decision.context, r⟩

end Interceptor

/-- Interceptors around an executor, the first one outermost. -/
def buildChain {σ τ : Type} (interceptors : List (Interceptor σ τ)) (terminal : Executor σ τ) :
    Executor σ τ :=
  interceptors.foldr Interceptor.around terminal

end CommandBus
