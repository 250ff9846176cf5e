import CodexGateway.Library.JsonDict

/-!
# Worker/AgentEvent — the events of a Sandbox Worker and their server-sent event stream

`eventSse` is the body of `GET /v1/events`: one frame for each `AgentEvent`, and a comment frame
whenever the generator waited too long for one.  The text stands for its UTF-8 bytes.
-/

namespace CodexGateway.Worker

open PyJson

/-- The types of an event. -/
inductive AgentEventType where
  | notification
  | serverRequest
  | sessionFailed
deriving DecidableEq

/-- The literal of the model and of the wire. -/
def AgentEventType.value : AgentEventType → String
  | .notification => "notification"
  | .serverRequest => "server_request"
  | .sessionFailed => "session_failed"

/-- The type of a name. -/
def AgentEventType.ofValue (s : String) : Option AgentEventType :=
  if s = "notification" then some .notification
  else if s = "server_request" then some .serverRequest
  else if s = "session_failed" then some .sessionFailed
  else none

theorem AgentEventType.ofValue_value (t : AgentEventType) : ofValue t.value = some t := by
  cases t <;> decide

/-- An event of the worker. -/
structure AgentEvent where
  id : ℕ
  type : AgentEventType
  data : Dict

/-- `event.model_dump()` -/
def AgentEvent.modelDump (event : AgentEvent) : Dict where
  members := [("id", .int event.id), ("type", .str event.type.value), ("data", event.data.toJson)]
  wellFormed := ⟨show ["id", "type", "data"].Nodup by decide, trivial, trivial, event.data.wellFormed, trivial⟩

/-- `AgentEvent.model_validate(payload)`.  The model is lax, so an `id` that is no JSON integer may
still be converted to one: `coerceId` is that conversion.  No other key is allowed. -/
def AgentEvent.modelValidate (coerceId : Json → Option ℕ) (payload : Dict) : Option AgentEvent := do
  guard (payload.members.all fun m => m.1 ∈ ["id", "type", "data"])
  let id ← match ← payload.get? "id" with
    | .int i => if 0 ≤ i then some i.toNat else none
    | v => coerceId v
  let type ← match ← payload.get? "type" with
    | .str s => AgentEventType.ofValue s
    | _ => none
  let data ← payload.getDict? "data"
  return ⟨id, type, data⟩

theorem AgentEvent.modelValidate_modelDump (coerceId : Json → Option ℕ) (event : AgentEvent) :
    modelValidate coerceId event.modelDump = some event := by
  have hid : event.modelDump.get? "id" = some (.int event.id) := rfl
  have htype : event.modelDump.get? "type" = some (.str event.type.value) := rfl
  have hdata : event.modelDump.getDict? "data" = some event.data := Dict.getDict?_eq_some rfl
  have hkeys : (event.modelDump.members.all fun m => m.1 ∈ ["id", "type", "data"]) = true := rfl
  rw [modelValidate, hid, htype, hdata, guard, if_pos hkeys]
  simp [AgentEventType.ofValue_value]

/-- The comment that keeps the connection alive. -/
def keepAlive : List Char :=
  [':', ' ', 'k', 'e', 'e', 'p', '-', 'a', 'l', 'i', 'v', 'e', '\n', '\n']

/-- `f"id: {id}\nevent: {type}\ndata: {data}\n\n"` -/
def frame (id type data : List Char) : List Char :=
  "id: ".toList ++ id ++ '\n' :: ("event: ".toList ++ type ++
    '\n' :: ("data: ".toList ++ data ++ ['\n', '\n']))

/-- What `_event_sse` yields for an event, or for `None` when none came in time. -/
def eventFrame : Option AgentEvent → List Char
  | none => keepAlive
  | some event =>
    frame (dumpsNat event.id) event.type.value.toList (dumps event.modelDump.toJson)

/-- `_event_sse` -/
def eventSse (events : List (Option AgentEvent)) : List Char := events.flatMap eventFrame

end CodexGateway.Worker
