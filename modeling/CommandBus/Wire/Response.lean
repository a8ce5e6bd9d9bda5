import CommandBus.Dispatch.Error
import CommandBus.Json.Codec
import CommandBus.Json.Printer
import CommandBus.Value.Json

/-! # Responses

The document of a response bears the id of its request, and a result or an error.  Of the two
the one that is not set is left out when a response is written; a null result is set. -/

namespace CommandBus

open Json (Codec)

/-- What a response tells of an error. -/
structure ErrorBody where
  message : String
  kind : ErrorKind
  trace : List String := []
  deriving DecidableEq, Repr

namespace ErrorBody

/-- What is told of an error. -/
def ofError (e : DispatchError) : ErrorBody := ⟨e.message, e.kind, e.trace⟩

/-- An error body while it is read. -/
structure Draft where
  message : Option String := none
  kind : Option ErrorKind := none
  trace : Option (List String) := none

/-- How an error body is read. -/
def codec : Codec ErrorBody :=
  Codec.record "ErrorBody"
    [Codec.field "message" .string Draft.message (fun d s => { d with message := some s }) none,
      Codec.field "type" (.variants (ErrorKind.all.map fun k => (k.name, k))) Draft.kind
        (fun d k => { d with kind := some k }) none,
      Codec.field "trace" (.list .string) Draft.trace (fun d xs => { d with trace := some xs })
        (some [])]
    {}
    fun d => do
      let message ← Codec.required "message" d.message
      let kind ← Codec.required "type" d.kind
      return ⟨message, kind, d.trace.getD []⟩

/-- The document of an error body. -/
def toJson (e : ErrorBody) : Json :=
  .object [("message", .string e.message), ("type", .string e.kind.name),
    ("trace", .array (e.trace.map Json.string))]

end ErrorBody

/-- The answer to a request. -/
structure Response where
  id : String
  result : Option Document := none
  error : Option ErrorBody := none
  deriving Repr

namespace Response

/-- The answer with a result. -/
def success (id : String) (v : Value) : Response := { id := id, result := some (.ofJson v.toJson) }

/-- The answer with an error. -/
def failure (id : String) (e : DispatchError) : Response :=
  { id := id, error := some (ErrorBody.ofError e) }

def isSuccess (response : Response) : Bool := response.error.isNone

/-- The kind of the error, if there is one. -/
def errorKind (response : Response) : Option ErrorKind := response.error.map ErrorBody.kind

/-- A response while it is read. -/
structure Draft where
  id : Option String := none
  result : Option (Option Document) := none
  error : Option (Option ErrorBody) := none

/-- How a response is read. -/
def codec : Codec Response :=
  Codec.record "Response"
    [Codec.field "id" .string Draft.id (fun d s => { d with id := some s }) none,
      Codec.field "result" (.optional .document) Draft.result
        (fun d j => { d with result := some j }) (some none),
      Codec.field "error" (.optional ErrorBody.codec) Draft.error
        (fun d e => { d with error := some e }) (some none)]
    {}
    fun d => do
      let id ← Codec.required "id" d.id
      return ⟨id, d.result.getD none, d.error.getD none⟩

/-- The document of a response. -/
def toJson (response : Response) : Json :=
  .object
    (("id", .string response.id)
      :: ((response.result.map fun d => ("result", d.json)).toList
        ++ (response.error.map fun e => ("error", e.toJson)).toList))

end Response

end CommandBus
