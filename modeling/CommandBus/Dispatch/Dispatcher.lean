import CommandBus.Dispatch.Chain
import CommandBus.Dispatch.Registry
import CommandBus.Dispatch.Settings

/-! # The dispatcher

A dispatcher resolves a name, checks the caller where access is controlled, passes through the
interceptors and invokes the command.  The check stands before every interceptor, so that none
of them sees a dispatch that the caller may not perform.

A `Dispatcher` is fixed once it is built; what it remembers between dispatches is in the
`Runtime` that every operation takes and gives back. -/

namespace CommandBus

open Conversion (Service)

/-- Routes named commands through a chain. -/
structure Dispatcher (σ : Type) where
  settings : DispatcherSettings
  registry : CommandRegistry σ
  service : Service
  /-- Finds the callers, where access is controlled. -/
  authenticator : Option (Authenticator σ)
  interceptors : List (Interceptor σ σ)

/-- What a dispatcher is built from. -/
structure Blueprint (σ : Type) where
  settings : DispatcherSettings
  commands : List (Command σ) := []
  interceptors : List (Interceptor σ σ) := []
  authenticator : Option (Authenticator σ) := none
  service : Option Service := none

namespace Blueprint

variable {σ : Type}

/-- One more command. -/
def command (b : Blueprint σ) (c : Command σ) : Blueprint σ :=
  { b with commands := b.commands ++ [c] }

/-- One more interceptor, inside the earlier ones. -/
def interceptor (b : Blueprint σ) (i : Interceptor σ σ) : Blueprint σ :=
  { b with interceptors := b.interceptors ++ [i] }

/-- Control access with an authenticator. -/
def accessControl (b : Blueprint σ) (a : Authenticator σ) : Blueprint σ :=
  { b with authenticator := some a }

/-- Convert parameters with a service. -/
def conversions (b : Blueprint σ) (s : Service) : Blueprint σ := { b with service := some s }

/-- Build the dispatcher; two commands of one name are an error. -/
def build (b : Blueprint σ) : Except ConfigurationError (Dispatcher σ) :=
  match CommandRegistry.registerAll { root := b.settings.root } b.commands with
  | .error e => .error e
  | .ok registry =>
    .ok ⟨b.settings, registry, b.service.getD Service.standard, b.authenticator, b.interceptors⟩

end Blueprint

/-- What is told of a registered command. -/
structure CommandDescription where
  name : String
  /-- The access policy, where access is controlled. -/
  access : Option String
  schema : ParameterSchema
  deriving DecidableEq, Repr

/-- The document of a description; the policy is left out where access is not controlled. -/
def CommandDescription.toJson (d : CommandDescription) : Json :=
  .object (("name", .string d.name)
    :: ((d.access.map fun s => ("access", Json.string s)).toList ++ [("schema", d.schema.toJson)]))

namespace Dispatcher

variable {σ : Type}

/-- The end of the chain: make an instance, bind it and execute it. -/
def terminal (d : Dispatcher σ) : Executor σ (Runtime σ) :=
  fun command params ctx r => command.invoke d.service params ctx r

/-- The access check, where access is controlled. -/
def guards (d : Dispatcher σ) : List (Interceptor σ (Runtime σ)) :=
  match d.authenticator with
  | none => []
  | some authenticator => [Interceptor.authorization authenticator]

/-- The whole chain. -/
def chain (d : Dispatcher σ) : Executor σ (Runtime σ) :=
  -- the first interceptor is the outermost, so the check comes before all others
  buildChain (d.guards ++ d.interceptors.map Interceptor.lift) d.terminal

/-- Dispatch to the command that a name stands for. -/
def dispatch (d : Dispatcher σ) (name : String) (params : Parameters) (ctx : Context)
    (r : Runtime σ) : Outcome (Runtime σ) :=
  match d.registry.resolve name with
  | .error e => ⟨.error e, ctx, r⟩
  | .ok command => d.chain command params ctx r

/-- Dispatch to a command that was found before; it need not be registered. -/
def dispatchTo (d : Dispatcher σ) (command : Command σ) (params : Parameters) (ctx : Context)
    (r : Runtime σ) : Outcome (Runtime σ) :=
  match d.registry.ensureInNamespace command with
  | .error e => ⟨.error e, ctx, r⟩
  | .ok () => d.chain command params ctx r

/-- Dispatch to the registered command of the same type. -/
def dispatchType (d : Dispatcher σ) (command : Command σ) (params : Parameters) (ctx : Context)
    (r : Runtime σ) : Outcome (Runtime σ) :=
  match d.registry.ofType? command.key with
  | none => ⟨.error (.noSuchCommand command.name), ctx, r⟩
  | some command => d.dispatchTo command params ctx r

/-- The first classification error of commands, in order. -/
def verifyCommands : List (Command σ) → AccessRecords →
    Except ConfigurationError Unit × AccessRecords
  | [], records => (.ok (), records)
  | c :: rest, records =>
    match records.authorizer c.key c.name c.access with
    | (.error e, records) => (.error e, records)
    | (.ok _, records) => verifyCommands rest records

/-- Classify every registered command now; without access control there is nothing to do. -/
def verifyAccess (d : Dispatcher σ) (r : Runtime σ) :
    Except ConfigurationError Unit × Runtime σ :=
  match d.authenticator with
  | none => (.ok (), r)
  | some _ =>
    let (result, access) := verifyCommands d.registry.commands r.access
    (result, { r with access := access })

/-- The text of the policy of a command, or of the error in its place. -/
def policyText (records : AccessRecords) (c : Command σ) : String × AccessRecords :=
  match records.policy c.key c.name c.access with
  | (.ok policy, records) => (policy.text, records)
  | (.error e, records) => (e.message, records)

/-- Describe commands in order. -/
def describeCommands (controlled : Bool) : List (Command σ) → Runtime σ →
    List CommandDescription × Runtime σ
  | [], r => ([], r)
  | c :: rest, r =>
    let (access, records) :=
      if controlled then
        let (text, records) := policyText r.access c
        (some text, records)
      else (none, r.access)
    let (schema, schemas) := c.schema r.schemas
    let (others, r) :=
      describeCommands controlled rest { r with access := records, schemas := schemas }
    (⟨c.name, access, schema⟩ :: others, r)

/-- Describe every registered command. -/
def describe (d : Dispatcher σ) (r : Runtime σ) : List CommandDescription × Runtime σ :=
  describeCommands d.authenticator.isSome d.registry.commands r

/-- What a dispatcher shows of itself. -/
def debugText (d : Dispatcher σ) : String :=
  Text.recordText "Dispatcher"
    [("config", d.settings.debugText), ("commands", Number.natText d.registry.size),
      ("access_control", if d.authenticator.isSome then "true" else "false")] false

end Dispatcher

end CommandBus
