import CommandBus.Context
import CommandBus.Dispatch.Error
import CommandBus.Parameter.Parameters

/-! # Commands

A command is a named piece of work with declared parameters.  For every dispatch a fresh
instance of its parameters is made, bound and then executed; `σ` is the state of the
environment that commands work on.

`Command.invoke` runs these steps.  The first one that fails decides the result. -/

namespace CommandBus

open Conversion (Service)

/-- What a command gives back: a document, or why there is none. -/
abbrev Output := Except String Json

/-- The end of an execution. -/
structure Execution (σ : Type) where
  result : Except CommandError Output
  context : Context
  state : σ

/-- A named piece of work. -/
structure Command (σ : Type) where
  name : String
  /-- Who may run it; exactly one classifier is wanted where access is controlled. -/
  access : List Access
  Params : Type
  parameters : Bindable Params
  /-- A fresh instance of the parameters. -/
  create : σ → Params × σ
  execute : Params → Context → σ → Execution σ

/-- What a dispatcher remembers between dispatches, and the state of the environment. -/
structure Runtime (σ : Type) where
  schemas : SchemaCache := {}
  access : AccessRecords := {}
  world : σ

/-- The end of a dispatch. -/
structure Outcome (τ : Type) where
  result : Except DispatchError Value
  context : Context
  state : τ

namespace Command

variable {σ : Type}

/-- What tells the type of a command apart. -/
def key (c : Command σ) : TypeKey := c.parameters.key

/-- The value of an output. -/
def resultOf (name : String) : Output → Except DispatchError Value
  | .ok document => .ok (Value.ofJson document.sorted)
  | .error reason => .error (.execution name ["serializing command output", reason])

/-- Execute bound parameters. -/
def run (c : Command σ) (params : c.Params) (ctx : Context) (r : Runtime σ) :
    Outcome (Runtime σ) :=
  let done := c.execute params ctx r.world
  let result := match done.result with
    | .error e => .error (DispatchError.ofCommand c.name e)
    | .ok output => resultOf c.name output
  ⟨result, done.context, { r with world := done.state }⟩

/-- Make an instance, bind it and execute it. -/
def invoke (c : Command σ) (s : Service) (params : Parameters) (ctx : Context) (r : Runtime σ) :
    Outcome (Runtime σ) :=
  let (fresh, world) := c.create r.world
  let ((bound, result), schemas) := c.parameters.bindCached s r.schemas params.source fresh
  let r := { r with schemas := schemas, world := world }
  match result with
  | .error e => ⟨.error (.binding (e.forCommand c.name)), ctx, r⟩
  | .ok () => c.run bound ctx r

/-- The schema kept for a command. -/
def schema (c : Command σ) (cache : SchemaCache) : ParameterSchema × SchemaCache :=
  cache.getOrCompute c.key c.parameters.schema

/-- What a command shows of itself. -/
def debugText (c : Command σ) : String :=
  Text.recordText "CommandType"
    [("name", Text.quoted c.name), ("access", Text.bracketed (c.access.map Access.debugText))] false

end Command

end CommandBus
