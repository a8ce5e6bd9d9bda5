import CommandBus.Sample.Command
import CommandBus.Wire.Handler

/-!
# Answers to requests

A request is answered with the response to some result, and a written response has the id and one
member more: the result, null as well, or the error.  Which of the two is decided at the version.
With another version than the dispatcher's the answer tells the two versions and nothing else has
a part in it, so that any dispatcher of the version answers alike and stays as it was.  With the
right version the answer tells what the dispatch gives on a new context.

## Key results

- `toJson_ofResult`: the members of a written response
- `told_ofResult`: one of result and error is told, and never both
- `handle_of_mismatch`: a wrong version is told whatever the dispatcher consists of
- `handle_answered`: all that is said of the answer to a request
-/

namespace CommandBus

namespace Response

/-- The document that tells a result. -/
def resultJson (id : String) (document : Json) : Json :=
  .object [("id", .string id), ("result", document)]

/-- The document that tells an error: its message, the name of its kind and the messages of its
    causes. -/
def errorJson (id message kind : String) (trace : List String) : Json :=
  .object [("id", .string id),
    ("error", .object [("message", .string message), ("type", .string kind),
      ("trace", .array (trace.map Json.string))])]

@[simp] theorem ofResult_id (id : String) (result : Except DispatchError Value) :
    (ofResult id result).id = id := by
  cases result <;> rfl

/-- A value is told as the result, in key order, and an error as the error. -/
theorem toJson_ofResult (id : String) (result : Except DispatchError Value) :
    (ofResult id result).toJson =
      match result with
      | .ok v => resultJson id v.toJson.sorted
      | .error e => errorJson id e.message e.kind.name e.trace := by
  cases result <;> rfl

/-- What every written response tells: its id, and one of a result and an error. -/
structure Told (response : Response) : Prop where
  id : response.toJson.member? "id" = some (.string response.id)
  oneOf : (response.toJson.member? "result").isSome = !(response.toJson.member? "error").isSome
  /-- There is nothing else in it. -/
  members : ∃ entries, response.toJson = .object entries ∧
    (Entries.keys entries = ["id", "result"] ∨ Entries.keys entries = ["id", "error"])

theorem told_ofResult (id : String) (result : Except DispatchError Value) :
    (ofResult id result).Told := by
  cases result with
  | ok v => exact ⟨rfl, rfl, _, rfl, .inl rfl⟩
  | error e => exact ⟨rfl, rfl, _, rfl, .inr rfl⟩

end Response

namespace Dispatcher

open Response

variable {σ : Type}

/-- With the right version the answer tells the end of a dispatch. -/
theorem handle_of_version {d : Dispatcher σ} {request : Request}
    (h : request.version = d.settings.version) (freshId : String) (r : Runtime σ) :
    d.handle freshId request r =
      let id := request.id.getD freshId
      let outcome := d.dispatch request.command (Parameters.ofJson request.members)
        { credentials := request.credentials, correlationId := some id } r
      (ofResult id outcome.result, outcome.state) := by
  rw [handle, if_pos h]
  rfl

/-- With another version the answer tells the two versions, and the state stays as it was. -/
theorem handle_of_mismatch {d : Dispatcher σ} {request : Request}
    (h : request.version ≠ d.settings.version) (freshId : String) (r : Runtime σ) :
    d.handle freshId request r =
      (ofResult (request.id.getD freshId)
        (.error (.protocolMismatch d.settings.version request.version)), r) := by
  rw [handle, if_neg h]
  rfl

/-- Every answer is the response to some result. -/
theorem exists_result (d : Dispatcher σ) (freshId : String) (request : Request) (r : Runtime σ) :
    ∃ result, (d.handle freshId request r).1 = ofResult (request.id.getD freshId) result := by
  by_cases h : request.version = d.settings.version
  · rw [handle_of_version h]
    exact ⟨_, rfl⟩
  · rw [handle_of_mismatch h]
    exact ⟨.error (.protocolMismatch d.settings.version request.version), rfl⟩

/-- What the answer to a request is, and the state behind it. -/
structure Answered (d : Dispatcher σ) (freshId : String) (request : Request) (r : Runtime σ)
    (response : Response) (next : Runtime σ) : Prop where
  /-- The response has the id of the request, if there is one. -/
  id : response.id = request.id.getD freshId
  told : response.Told
  /-- Another version is told beside the right one. -/
  mismatch : request.version ≠ d.settings.version →
    response.toJson = errorJson response.id
      ("protocol version mismatch: expected '" ++ d.settings.version ++ "', got '"
        ++ request.version ++ "'") "ProtocolMismatch" [] ∧ next = r
  /-- Nothing is looked up, asked or run then: a dispatcher of the same version, whatever it
      consists of and whatever its environment writes down, answers any request of the same id
      and version in the same way, and stays as it was. -/
  untouched : request.version ≠ d.settings.version →
    ∀ (τ : Type) (other : Dispatcher τ) (asked : Request) (s : Runtime τ),
      other.settings.version = d.settings.version → asked.version = request.version →
      asked.id = request.id → other.handle freshId asked s = (response, s)
  /-- With the right version the end of the dispatch is told.  Its context has the credentials of
      the request and the id of the response, and nothing else. -/
  dispatched : request.version = d.settings.version →
    let ctx : Context := ⟨request.credentials, [], none, some response.id⟩
    let outcome := d.dispatch request.command (Parameters.ofJson request.members) ctx r
    next = outcome.state ∧
      response.toJson =
        match outcome.result with
        | .ok v => resultJson response.id v.toJson.sorted
        | .error e => errorJson response.id e.message e.kind.name e.trace

/-- Any dispatcher answers any request in any state with a response that has the id of the
    request, and either a result or an error.  With another version than the dispatcher's this is
    the mismatch of the two, in which nothing else has a part, and otherwise it tells what the
    dispatch of the command gives on a new context. -/
theorem handle_answered (d : Dispatcher σ) (freshId : String) (request : Request)
    (r : Runtime σ) :
    d.Answered freshId request r (d.handle freshId request r).1
      (d.handle freshId request r).2 := by
  obtain ⟨result, hresult⟩ := d.exists_result freshId request r
  refine ⟨?id, ?told, fun h => ?mismatch, fun h τ other asked s hversion hasked hid => ?untouched,
    fun h => ?dispatched⟩
  case id => rw [hresult, ofResult_id]
  case told => exact hresult ▸ told_ofResult _ result
  case mismatch =>
    rw [handle_of_mismatch h, toJson_ofResult, ofResult_id]
    exact ⟨rfl, rfl⟩
  case untouched =>
    -- the answer is made of the id and the two versions, which are the same
    have hother : asked.version ≠ other.settings.version := by rwa [hversion, hasked]
    rw [handle_of_mismatch h, handle_of_mismatch hother, hversion, hasked, hid]
  case dispatched =>
    rw [handle_of_version h, toJson_ofResult, ofResult_id]
    exact ⟨rfl, rfl⟩

/-- A null result is told as a result. -/
example :
    let c := Sample.commandAt { behaviour := .give .null } 0
    let d : Dispatcher Sample.Log :=
      ⟨{}, { root := "app", byName := .single "app.Alpha" c }, .standard, none, []⟩
    (d.handle "x" { id := some "7", version := "1", command := "Alpha" } { world := [] }).1.toJson =
      resultJson "7" .null := by
  rfl

end Dispatcher

end CommandBus
