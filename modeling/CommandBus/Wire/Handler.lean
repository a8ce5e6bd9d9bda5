import CommandBus.Dispatch.Dispatcher
import CommandBus.Wire.Request
import CommandBus.Wire.Response

/-! # Handling requests

A request with another version than the dispatcher's is refused before anything else is looked
at.  Every other request is dispatched on a context of its own, which has its credentials and
the id of its response. -/

namespace CommandBus

namespace Request

/-- The context that a request is dispatched on. -/
def context (request : Request) (id : String) : Context :=
  { credentials := request.credentials, correlationId := some id }

end Request

namespace Response

/-- The answer that a result is told with. -/
def ofResult (id : String) : Except DispatchError Value → Response
  | .ok v => success id v
  | .error e => failure id e

end Response

namespace Dispatcher

variable {σ : Type}

/-- Answer a request; `freshId` is the id of the response if the request has none. -/
def handle (d : Dispatcher σ) (freshId : String) (request : Request) (r : Runtime σ) :
    Response × Runtime σ :=
  let id := request.id.getD freshId
  if request.version = d.settings.version then
    let outcome := d.dispatch request.command (Parameters.ofJson request.members)
      (request.context id) r
    (Response.ofResult id outcome.result, outcome.state)
  else (Response.failure id (.protocolMismatch d.settings.version request.version), r)

end Dispatcher

end CommandBus
