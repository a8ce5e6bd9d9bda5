import CommandBus.Dispatch.Error
import CommandBus.Token.Claims

/-! # Reports of errors

Where a message is not enough an error is reported as a document: which error it is, its
message, and what a program may want to know besides. -/

namespace CommandBus

/-- The report of an error: its name, its message and some further members. -/
def report (name message : String) (more : List (String × Json)) : Json :=
  .object (Entries.ofList ([("error", .string name), ("message", .string message)] ++ more))

/-- The report of a document that could not be read. -/
def Json.Error.toJson (e : Json.Error) : Json := report "Json" e.message []

/-- The report of a wrong configuration. -/
def ConfigurationError.toJson (e : ConfigurationError) : Json :=
  report "Configuration" e.message [("text", .string e.text)]

/-- The report of a conversion that failed. -/
def ConversionError.toJson (e : ConversionError) : Json :=
  let pair (s : Kind) (t : ValueType) : List (String × Json) :=
    [("from", .string s.name), ("to", .string t.name)]
  match e with
  | .unsupported s t => report "Unsupported" e.message (pair s t)
  | .invalid s t reason => report "Invalid" e.message (pair s t ++ [("reason", .string reason)])
  | .mapping s t reason => report "Mapping" e.message (pair s t ++ [("reason", .string reason)])
  | .unknownParameter name => report "UnknownParameter" e.message [("name", .string name)]

/-- The report of a parameter that could not be bound. -/
def FieldError.toJson (e : FieldError) : Json :=
  let cause : List (String × Json) :=
    match e with
    | .missing _ => []
    | .invalid _ cause => [("cause", cause.toJson)]
  .object (Entries.ofList
    ([("field", .string e.field), ("missing", .bool e.isMissing), ("message", .string e.message)]
      ++ cause))

/-- The reports of all parameters that could not be bound. -/
def BindingError.failuresJson (e : BindingError) : Json :=
  .array (e.failures.map FieldError.toJson)

/-- The report of a binding that failed. -/
def BindingError.toJson (e : BindingError) : Json :=
  report "Binding" e.message
    [("command", .string e.command), ("missing", .bool e.isMissing),
      ("fields", .array (e.fields.map Json.string)), ("failures", e.failuresJson)]

/-- The report of a dispatch that failed. -/
def DispatchError.toJson (e : DispatchError) : Json :=
  let failures : List (String × Json) :=
    match e with
    | .binding e => [("failures", e.failuresJson)]
    | _ => []
  report e.kind.name e.message
    ([("trace", .array (e.trace.map Json.string)), ("rejection", .bool e.kind.isRejection)]
      ++ failures)

/-- The name of a reason to deny access. -/
def DenialReason.name : DenialReason → String
  | .unauthenticated => "Unauthenticated"
  | .insufficientAuthority => "InsufficientAuthority"

/-- The report of an access check that failed. -/
def AccessError.toJson : AccessError → Json
  | .configuration e => e.toJson
  | .denied e =>
    report "Denied" e.message [("command", .string e.command), ("reason", .string e.reason.name)]

/-- The report of credentials that were refused. -/
def AuthenticationError.toJson (e : AuthenticationError) : Json :=
  match e with
  | .malformed _ => report "Malformed" e.message []
  | .badCredentials => report "BadCredentials" e.message []

/-- The report of a context that could not be changed. -/
def ContextError.toJson (e : ContextError) : Json :=
  match e with
  | .immutableAttribute _ => report "ImmutableAttribute" e.message []
  | .attributeExists _ => report "AttributeExists" e.message []

/-- The report of claims that do not hold. -/
def ClaimsError.toJson (e : ClaimsError) : Json :=
  match e with
  | .expired => report "Expired" e.message []
  | .notYetValid => report "NotYetValid" e.message []
  | .invalidTimeWindow => report "InvalidTimeWindow" e.message []

end CommandBus
