import CommandBus.Context
import CommandBus.Json.Codec
import CommandBus.Json.Printer

/-! # Requests

The document of a request names a command and a version, and brings parameters, credentials
and an id along.  An absent id or absent credentials are left out when a request is
written. -/

namespace CommandBus

open Json (Codec)

/-- A request for one dispatch. -/
structure Request where
  id : Option String := none
  version : String
  command : String
  parameters : SortedEntries Document := .empty
  credentials : Option Credentials := none
  deriving Repr

namespace Request

/-- The request with one more parameter. -/
def withParameter (request : Request) (name : String) (value : Json) : Request :=
  { request with parameters := request.parameters.insert name (.ofJson value) }

/-- The request with one more credential. -/
def withCredential (request : Request) (key value : String) : Request :=
  { request with credentials := some ((request.credentials.getD .empty).insert key value) }

/-- A request while it is read. -/
structure Draft where
  id : Option (Option String) := none
  version : Option String := none
  command : Option String := none
  parameters : Option (SortedEntries Document) := none
  credentials : Option (Option Credentials) := none

/-- How a request is read. -/
def codec : Codec Request :=
  Codec.record "Request"
    [Codec.field "id" (.optional .string) Draft.id (fun d s => { d with id := some s }) (some none),
      Codec.field "protocol-version" .string Draft.version
        (fun d s => { d with version := some s }) none,
      Codec.field "command" .string Draft.command (fun d s => { d with command := some s }) none,
      Codec.field "parameters" (.entries .document) Draft.parameters
        (fun d ps => { d with parameters := some ps }) (some .empty),
      Codec.field "auth" (.optional (.entries .string)) Draft.credentials
        (fun d cs => { d with credentials := some cs }) (some none)]
    {}
    fun d => do
      let version ← Codec.required "protocol-version" d.version
      let command ← Codec.required "command" d.command
      return ⟨d.id.getD none, version, command, d.parameters.getD .empty, d.credentials.getD none⟩

/-- The parameters as the members of an object. -/
def members (request : Request) : Entries Json :=
  Entries.mapValues Document.json request.parameters.entries

/-- The document of credentials. -/
def credentialsJson (credentials : Credentials) : Json :=
  .object (Entries.mapValues Json.string credentials.entries)

/-- The document of a request. -/
def toJson (request : Request) : Json :=
  .object
    ((request.id.map fun id => ("id", Json.string id)).toList
      ++ [("protocol-version", .string request.version), ("command", .string request.command),
        ("parameters", .object request.members)]
      ++ (request.credentials.map fun cs => ("auth", credentialsJson cs)).toList)

end Request

end CommandBus
