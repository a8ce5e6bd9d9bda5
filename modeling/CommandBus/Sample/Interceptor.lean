import CommandBus.Dispatch.Chain
import CommandBus.Sample.Command
import CommandBus.Value.Notation

/-! # Scripted interceptors

Interceptors for trying out a chain, and an end for chains that tells what reached it. -/

namespace CommandBus.Sample

/-- What a scripted interceptor does. -/
inductive Interception where
  /-- Log that the rest runs, and how it ended. -/
  | record (label : String)
  | inject (name : String) (value : Value)
  | remove (name : String)
  /-- Log a parameter. -/
  | see (name : String)
  /-- Log the caller. -/
  | caller
  /-- End the dispatch with a value. -/
  | stop (value : Value)
  /-- End the dispatch of one command. -/
  | stopFor (command : String) (value : Value)
  | fail (e : DispatchError)
  | attribute (key value : String) (immutable : Bool)
  /-- Put the result into a map. -/
  | wrap (key : String)
  /-- Put a value in the place of an error. -/
  | recover (value : Value)
  | tracing

/-- A value as logged. -/
def shown : Option Value → String
  | some v => v.toNotation.render
  | none => "absent"

namespace Interception

/-- Write a text attribute. -/
def write (ctx : Context) (key value : String) (immutable : Bool) :
    Except ContextError Unit × Context :=
  if immutable then ctx.setImmutableAttribute key (.text value)
  else ctx.setAttribute key (.text value)

/-- How the outcome of the rest is logged. -/
def ending (label : String) : Except DispatchError Value → String
  | .ok _ => label ++ ":ok"
  | .error _ => label ++ ":error"

/-- The interceptor of a script. -/
def interceptor : Interception → Interceptor Log Log
  | .record label, command, params, ctx, log =>
    .next command params ctx ((label ++ ":before") :: log) fun o =>
      .finish { o with state := ending label o.result :: o.state }
  | .inject name value, command, params, ctx, log =>
    .next command (params.insert name value) ctx log .finish
  | .remove name, command, params, ctx, log => .next command (params.remove name) ctx log .finish
  | .see name, command, params, ctx, log =>
    .next command params ctx (("see:" ++ shown (params.source name)) :: log) .finish
  | .caller, command, params, ctx, log =>
    let name := (ctx.identity.map Identity.name).getD "-"
    .next command params ctx (("caller:" ++ name) :: log) .finish
  | .stop value, _, _, ctx, log => .finish ⟨.ok value, ctx, log⟩
  | .stopFor name value, command, params, ctx, log =>
    if command.name = name then .finish ⟨.ok value, ctx, log⟩
    else .next command params ctx log .finish
  | .fail e, _, _, ctx, log => .finish ⟨.error e, ctx, log⟩
  | .attribute key value immutable, command, params, ctx, log =>
    match write ctx key value immutable with
    | (.ok _, ctx) => .next command params ctx log .finish
    | (.error e, ctx) => .finish ⟨.error (.execution command.name [e.message]), ctx, log⟩
  | .wrap key, command, params, ctx, log =>
    .next command params ctx log fun o =>
      .finish { o with result := o.result.map fun v => .map [(key, v)] }
  | .recover value, command, params, ctx, log =>
    .next command params ctx log fun o =>
      match o.result with
      | .ok _ => .finish o
      | .error _ => .finish { o with result := .ok value }
  | .tracing, command, params, ctx, log => Interceptor.tracing command params ctx log

end Interception

/-- An end of a chain with a fixed result, which logs the command and some parameters. -/
def terminal (see : List String) (result : Except DispatchError Value) : Executor Log Log :=
  fun command params ctx log =>
    let entries := see.map fun name => name ++ "=" ++ shown (params.source name)
    ⟨result, ctx, entries.reverse ++ ("terminal:" ++ command.name) :: log⟩

end CommandBus.Sample
