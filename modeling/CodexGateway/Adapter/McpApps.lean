import Mathlib.Logic.Function.Basic
import CodexGateway.Adapter.AppScope

/-!
# Adapter/McpApps — the side state of the Apps, by Response

`McpAppsState` keeps what the Responses themselves do not: the side events, the sessions and the
interactions.  Every method holds the condition's lock from its first access to its last and awaits
nothing in between but its own wake-up, so that each is one step.

An `AppInteraction` outlives its entry in the table, as whoever waits for its future has a
reference: `objects` has every one that was made, and `interactions` is the keys of the table.
-/

namespace CodexGateway.Adapter

open PyJson

/-- What a user can do with a form. -/
inductive InteractionAction where
  | accept
  | decline
  | cancel
deriving DecidableEq

/-- The states of an interaction; all but the first are final. -/
inductive InteractionStatus where
  | pending
  | resolved
  | expired
  | cancelled
deriving DecidableEq

/-- What the worker is answered. -/
structure InteractionResult where
  action : InteractionAction
  content : Json
  metadata : Json

/-- The answer of a user, as the request has it. -/
structure ResolveInteractionRequest where
  action : InteractionAction
  content : Json
  metadata : Json

/-- A form of an App that waits for an answer. -/
structure AppInteraction where
  id : String
  responseId : String
  method : String
  params : Members
  status : InteractionStatus
  future : Option InteractionResult
  result : Option InteractionResult

/-- An event of the stream of a Response. -/
structure AppEvent where
  type : String
  sequenceNumber : ℕ
  responseId : String
  data : Json

/-- The settings of the MCP Apps. -/
structure McpAppsSettings where
  enabled : Bool
  publicBaseUrl : String

/-- `notifications` counts the calls of `notify_all`. -/
structure McpAppsState where
  maxEventHistory : ℕ
  events : String → Option (List AppEvent)
  nextSequence : String → Option ℕ
  closedResponses : String → Bool
  appSessions : String → String → Option AppSession
  interactions : String → Bool
  objects : String → Option AppInteraction
  interactionIdsByResponse : String → List String
  notifications : ℕ

/-! ## Interactions -/

/-- The action on the wire. -/
def InteractionAction.value : InteractionAction → String
  | .accept => "accept"
  | .decline => "decline"
  | .cancel => "cancel"

/-- The status on the wire. -/
def InteractionStatus.value : InteractionStatus → String
  | .pending => "pending"
  | .resolved => "resolved"
  | .expired => "expired"
  | .cancelled => "cancelled"

/-- What a form that nobody answers is answered with. -/
def cancelResult : InteractionResult := ⟨.cancel, .null, .null⟩

/-- The result on the wire. -/
def InteractionResult.toJson (result : InteractionResult) : Json :=
  .obj [("action", .str result.action.value), ("content", result.content),
    ("_meta", result.metadata)]

namespace AppInteraction

/-- `public` -/
def publicView (i : AppInteraction) : Members :=
  [("id", .str i.id), ("object", .str "mcp_app.interaction"), ("response_id", .str i.responseId),
    ("method", .str i.method), ("params", .obj i.params), ("status", .str i.status.value),
    ("result", (i.result.map InteractionResult.toJson).getD .null)]

/-- `_public_interaction` -/
def publicInteraction (settings : McpAppsSettings) (i : AppInteraction) : Json :=
  .obj (i.publicView ++ [("resolve_url",
    .str (settings.publicBaseUrl ++ "/v1/mcp-apps/interactions/" ++ i.id ++ "/resolve"))])

/-- The status, the result, and the future unless it is done. -/
def settle (i : AppInteraction) (status : InteractionStatus) (result : InteractionResult) :
    AppInteraction :=
  { i with status := status, result := some result, future := i.future.or (some result) }

end AppInteraction

/-- What `resolve_interaction` and `expire_interaction` raise. -/
inductive InteractionError where
  | notFound (interactionId : String)
  | conflict (message code : String)
deriving DecidableEq

/-- The result of an answer: only an accepted form has a content. -/
def ResolveInteractionRequest.result (request : ResolveInteractionRequest) : InteractionResult :=
  ⟨request.action, if request.action = .accept then request.content else .null, request.metadata⟩

namespace McpAppsState

/-- The state before the first Response. -/
def init (maxEventHistory : ℕ) : McpAppsState where
  maxEventHistory := maxEventHistory
  events := fun _ => none
  nextSequence := fun _ => none
  closedResponses := fun _ => false
  appSessions := fun _ _ => none
  interactions := fun _ => false
  objects := fun _ => none
  interactionIdsByResponse := fun _ => []
  notifications := 0

variable (s : McpAppsState)

/-- `self._condition.notify_all()` -/
def notifyAll : McpAppsState := { s with notifications := s.notifications + 1 }

/-- `publish` -/
def publish (responseId type : String) (data : Json) : McpAppsState :=
  let sequence := (s.nextSequence responseId).getD 0
  let history := (s.events responseId).getD [] ++ [⟨type, sequence, responseId, data⟩]
  { s with
    nextSequence := Function.update s.nextSequence responseId (some (sequence + 1))
    events := Function.update s.events responseId
      (some (history.drop (history.length - s.maxEventHistory))) }.notifyAll

/-- The events of the history after a cursor. -/
def eventsAfter (responseId : String) (after : ℤ) : List AppEvent :=
  ((s.events responseId).getD []).filter fun event => after < event.sequenceNumber

/-- `ready` of `wait_for_events` -/
def ready (responseId : String) (after : ℤ) : Bool :=
  !(s.eventsAfter responseId after).isEmpty || s.closedResponses responseId

/-- The end of `register_app_session`. -/
def putAppSession (session : AppSession) : McpAppsState :=
  { s with
    appSessions := Function.update s.appSessions session.responseId
      (Function.update (s.appSessions session.responseId) session.originCallId
        (some session)) }.notifyAll

/-- `close_response` -/
def closeResponse (responseId : String) : McpAppsState :=
  { s with closedResponses := Function.update s.closedResponses responseId true }.notifyAll

/-- `delete_response` -/
def deleteResponse (responseId : String) : McpAppsState :=
  let interactionIds := s.interactionIdsByResponse responseId
  { s with
    interactionIdsByResponse := Function.update s.interactionIdsByResponse responseId []
    interactions := fun id => s.interactions id && id ∉ interactionIds
    objects := fun id => (s.objects id).map fun i : AppInteraction =>
      if id ∈ interactionIds ∧ s.interactions id ∧ i.future.isNone then
        i.settle .cancelled cancelResult
      else i
    events := Function.update s.events responseId none
    nextSequence := Function.update s.nextSequence responseId none
    closedResponses := Function.update s.closedResponses responseId false
    appSessions := Function.update s.appSessions responseId fun _ => none }.notifyAll

/-- `create_interaction`, where `uuid4` gives the id. -/
def createInteraction (id responseId method : String) (params : Members) : McpAppsState :=
  { s with
    objects := Function.update s.objects id
      (some ⟨id, responseId, method, params, .pending, none, none⟩)
    interactions := Function.update s.interactions id true
    interactionIdsByResponse := Function.update s.interactionIdsByResponse responseId
      ((s.interactionIdsByResponse responseId).insert id) }.notifyAll

/-- `self._interactions.get(interaction_id)` -/
def interaction? (id : String) : Option AppInteraction :=
  if s.interactions id then s.objects id else none

/-- An interaction is written, and all who wait are woken. -/
def setObject (id : String) (i : AppInteraction) : McpAppsState :=
  { s with objects := Function.update s.objects id (some i) }.notifyAll

/-- `resolve_interaction` -/
def resolveInteraction (id : String) (request : ResolveInteractionRequest) :
    Except InteractionError (McpAppsState × AppInteraction) :=
  match s.interaction? id with
  | none => .error (.notFound id)
  | some i =>
    if i.status ≠ .pending then
      .error (.conflict "The MCP App interaction is no longer pending."
        "mcp_app_interaction_already_resolved")
    else
      let i := i.settle .resolved request.result
      .ok (s.setObject id i, i)

/-- `expire_interaction` -/
def expireInteraction (id : String) : Except InteractionError (McpAppsState × AppInteraction) :=
  match s.interaction? id with
  | none => .error (.notFound id)
  | some i =>
    if i.status = .pending then
      let i := i.settle .expired cancelResult
      .ok (s.setObject id i, i)
    else .ok (s, i)

/-- `cancel_response_interactions` -/
def cancelResponseInteractions (responseId : String) : McpAppsState :=
  { s with
    objects := fun id => (s.objects id).map fun i : AppInteraction =>
      if id ∈ s.interactionIdsByResponse responseId ∧ s.interactions id ∧
          i.status = InteractionStatus.pending then
        i.settle .cancelled cancelResult
      else i }.notifyAll

/-! ## What the operations return -/

variable {s} {s' : McpAppsState}

theorem interaction?_eq_some {id : String} {i : AppInteraction} :
    s.interaction? id = some i ↔ s.interactions id = true ∧ s.objects id = some i := by
  rw [interaction?]
  split_ifs with h
  · simp [h]
  · simp [h]

/-- **A resolution succeeds only on a pending interaction**, and settles it with what was asked. -/
theorem resolveInteraction_ok {id : String} {request : ResolveInteractionRequest}
    {j : AppInteraction} (h : s.resolveInteraction id request = .ok (s', j)) :
    ∃ i, s.interaction? id = some i ∧ i.status = .pending ∧
      j = i.settle .resolved request.result ∧ s' = s.setObject id j := by
  rw [resolveInteraction] at h
  split at h
  · cases h
  · rename_i i hi
    split_ifs at h with hpending
    · obtain ⟨rfl, rfl⟩ := Prod.mk.inj (Except.ok.inj h)
      exact ⟨i, hi, by simpa using hpending, rfl, rfl⟩

/-- An expiration settles an interaction that is pending, and otherwise reads it. -/
theorem expireInteraction_ok {id : String} {j : AppInteraction}
    (h : s.expireInteraction id = .ok (s', j)) :
    ∃ i, s.interaction? id = some i ∧
      ((i.status = .pending ∧ j = i.settle .expired cancelResult ∧ s' = s.setObject id j) ∨
        (i.status ≠ .pending ∧ j = i ∧ s' = s)) := by
  rw [expireInteraction] at h
  split at h
  · cases h
  · rename_i i hi
    split_ifs at h with hpending
    · obtain ⟨rfl, rfl⟩ := Prod.mk.inj (Except.ok.inj h)
      exact ⟨i, hi, .inl ⟨hpending, rfl, rfl⟩⟩
    · obtain ⟨rfl, rfl⟩ := Prod.mk.inj (Except.ok.inj h)
      exact ⟨_, hi, .inr ⟨hpending, rfl, rfl⟩⟩

end McpAppsState

end CodexGateway.Adapter
