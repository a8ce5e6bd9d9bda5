import CommandBus.Parameter.Error
import CommandBus.Parameter.Schema
import CommandBus.Parameter.Type

/-! # Binding

A type that can be bound (`Bindable`) declares its parameters, stores a converted value under
a name and reads the value of a name.  A `Source` gives raw values by name; null counts as
absent.

Binding walks through the declarations.  An absent optional parameter keeps its value, an
absent required one fails; a present value is converted to the declared type and stored.
Every parameter is tried, and the failures are told together (`bindFields`).  The target after
a failed binding has what was stored by the others. -/

namespace CommandBus

open Conversion (Service)

/-- Raw values by name. -/
abbrev Source := String → Option Value

/-- A type whose parameters can be bound. -/
structure Bindable (β : Type) where
  key : TypeKey
  owner : String
  declarations : List SchemaStep
  /-- Store a converted value. -/
  assign : β → String → Value → Except ConversionError β
  /-- The value of a name. -/
  read : β → String → Option Value

namespace Source

/-- Null counts as absent. -/
def present (v : Option Value) : Option Value := v.filter fun v => !v.isNull

/-- No values at all. -/
def none : Source := fun _ => Option.none

/-- The values of a map. -/
def ofEntries (values : Entries Value) : Source := fun name => present (Entries.get? name values)

/-- The parameter values of an instance. -/
def ofPrototype {β : Type} (b : Bindable β) (prototype : β) : Source :=
  fun name => present (b.read prototype name)

end Source

namespace Bindable

variable {β : Type}

/-- The schema that a type declares. -/
def schema (b : Bindable β) : ParameterSchema := .ofSteps b.owner b.declarations

/-- Bind one parameter. -/
def bindField (b : Bindable β) (s : Service) (source : Source) (target : β) (decl : ParameterDecl) :
    Except FieldError β :=
  match Source.present (source decl.name) with
  | none => if decl.required then .error (.missing decl.name) else .ok target
  | some raw =>
    match s.convert raw decl.type with
    | .error e => .error (.invalid decl.name e)
    | .ok v =>
      match b.assign target decl.name v with
      | .error e => .error (.invalid decl.name e)
      | .ok target => .ok target

/-- Bind parameters in order: the target with what could be stored, and the failures. -/
def bindFields (b : Bindable β) (s : Service) (source : Source) :
    β → List ParameterDecl → β × List FieldError
  | target, [] => (target, [])
  | target, decl :: rest =>
    match b.bindField s source target decl with
    | .ok target => bindFields b s source target rest
    -- the others are tried all the same
    | .error e =>
      let (target, failures) := bindFields b s source target rest
      (target, e :: failures)

/-- Bind the parameters of a schema. -/
def bindSchema (b : Bindable β) (s : Service) (schema : ParameterSchema) (source : Source)
    (target : β) : β × Except BindingError Unit :=
  let (target, failures) := b.bindFields s source target schema.params
  if failures.isEmpty then (target, .ok ()) else (target, .error ⟨schema.owner, failures⟩)

/-- Bind the declared parameters of a target. -/
def bind (b : Bindable β) (s : Service) (source : Source) (target : β) :
    β × Except BindingError Unit :=
  b.bindSchema s b.schema source target

/-- The same with the schema kept for the type, which is computed at the first use. -/
def bindCached (b : Bindable β) (s : Service) (cache : SchemaCache) (source : Source)
    (target : β) : (β × Except BindingError Unit) × SchemaCache :=
  let (schema, cache) := cache.getOrCompute b.key b.schema
  (b.bindSchema s schema source target, cache)

end Bindable

end CommandBus
