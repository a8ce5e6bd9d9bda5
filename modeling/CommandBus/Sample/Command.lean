import CommandBus.Dispatch.Command

/-! # Scripted commands

A command for trying out a dispatcher: its parameters and what it does are data.  It works on a
log, newest entry first, and starts by writing there that it runs. -/

namespace CommandBus.Sample

/-- What has happened, the newest entry first. -/
abbrev Log := List String

/-- A step of a scripted declaration. -/
inductive Declaration where
  /-- A parameter of the script, which starts with a value of any kind. -/
  | own (name : String) (type : ParamType) (required : Bool) (initial : Value)
  /-- The declarations of another script. -/
  | include (declarations : List Declaration)

/-- What a scripted command does. -/
inductive Behaviour where
  /-- Give all fields back. -/
  | echo
  | identity
  | correlation
  /-- Give something back that cannot be written. -/
  | unwritable
  | give (document : Json)
  | attribute (key : String)
  | credential (key : String)
  | fail (e : CommandError)

/-- The parameters of a scripted command and what it does. -/
structure Script where
  declarations : List Declaration := []
  behaviour : Behaviour := .echo

namespace Declaration

mutual

/-- A declaration as a step of a schema. -/
def step : Declaration → SchemaStep
  | .own name type required _ => .declare ⟨name, type.valueType, required⟩
  | .include declarations => .include (steps declarations)

def steps : List Declaration → List SchemaStep
  | [] => []
  | d :: rest => step d :: steps rest

end

/-- The name and the first value of a parameter of the script itself. -/
def initial? : Declaration → Option (String × Value)
  | .own name _ _ initial => some (name, initial)
  | .include _ => none

/-- The type of a parameter of the script itself, if it has the name. -/
def type? (wanted : String) : Declaration → Option ParamType
  | .own name type _ _ => if name = wanted then some type else none
  | .include _ => none

end Declaration

namespace Script

/-- An instance before anything is bound. -/
def fresh (script : Script) : Entries Value :=
  Entries.ofList (script.declarations.filterMap Declaration.initial?)

/-- Store a value under the type of the last declaration of the name. -/
def assign (script : Script) (fields : Entries Value) (name : String) (v : Value) :
    Except ConversionError (Entries Value) :=
  match script.declarations.reverse.findSome? (Declaration.type? name) with
  | none => .error (.unknownParameter name)
  | some type =>
    match type.pass v with
    | .ok v => .ok (Entries.insert name v fields)
    | .error e => .error e

/-- The parameters of a script. -/
def bindable (script : Script) (key : TypeKey) : Bindable (Entries Value) where
  key := key
  owner := "Slot"
  declarations := Declaration.steps script.declarations
  assign := script.assign
  read fields name := Entries.get? name fields

/-- A text that may be absent, as a document. -/
def textJson : Option String → Json
  | none => .null
  | some s => .string s

/-- What a behaviour gives back. -/
def result (fields : Entries Value) (ctx : Context) : Behaviour → Except CommandError Output
  | .echo => .ok (.ok (Value.map fields).toJson)
  | .identity =>
    match ctx.identity with
    | some i => .ok (.ok i.toJson)
    | none => .error { cause := .other "no identity" }
  | .correlation => .ok (.ok (textJson ctx.correlationId))
  | .unwritable => .ok (.error "unserializable output")
  | .give document => .ok (.ok document)
  | .attribute key => .ok (.ok (textJson (ctx.attribute? key .text)))
  | .credential key => .ok (.ok (textJson (ctx.credential? key)))
  | .fail e => .error e

/-- The command of a script. -/
def command (script : Script) (key : TypeKey) (name : String) (access : List Access) :
    Command Log where
  name := name
  access := access
  Params := Entries Value
  parameters := script.bindable key
  create log := (script.fresh, log)
  execute fields ctx log := ⟨result fields ctx script.behaviour, ctx, ("exec:" ++ name) :: log⟩

end Script

/-- Names and classifiers of commands: well placed ones, and ones outside a namespace, without
    classifiers or with too many of them. -/
def names : List (String × List Access) :=
  [("app.Alpha", [.anyone]), ("app.users.Create", [.authenticated]),
    ("app.users.Delete", [.roles ["ROLE_ADMIN"]]),
    ("app.users.List", [.roles ["ROLE_USER", "ROLE_ADMIN"]]),
    ("app.orders.List", [.roles ["ROLE_ADMIN", "ROLE_USER", "ROLE_ADMIN"]]),
    ("orders.List", [.anyone]), ("other.Escaped", [.anyone]),
    ("application.Lookalike", [.anyone]), ("app.Unclassified", []),
    ("app.Doubled", [.anyone, .authenticated]), ("app.EmptyRoles", [.roles []]),
    ("app.users.Create", [.anyone]), ("app", [.anyone]), ("app.", [.anyone]), ("Bare", [.anyone]),
    ("app.app.Alpha", [.authenticated]), ("", [.anyone]), (".Dotted", [.anyone]),
    ("app.ünï.Ω", [.anyone]), ("app.Triple", [.roles ["A"], .anyone, .authenticated])]

/-- The command of a script under one of the names. -/
def commandAt (script : Script) (i : Nat) : Command Log :=
  let (name, access) := names.getD i ("", [])
  script.command i name access

end CommandBus.Sample
