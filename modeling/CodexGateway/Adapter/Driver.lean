import CodexGateway.Library.Machine
import CodexGateway.Worker.EventLog
import CodexGateway.Adapter.Events

/-!
# Adapter/Driver — the task that drives one execution

`Driver` is an execution with everything that acts on it: its Worker and the event stream to it,
the lease task, the deadline, a client that cancels, and a subscriber that was there from the start.
A phase of the driver is an await of `_drive`; `driverStep` is what may happen next.
-/

namespace CodexGateway.Adapter

open PyJson Worker ResponsesEventBuilder

/-- The exceptions of `_drive`, by how they are caught; `terminal` is an upstream error too. -/
inductive DriverError where
  | terminal (message : String)
  | upstream (message : String)
  | timeout
  | other
deriving DecidableEq

/-- `_safe_error_message` -/
def safeErrorMessage : DriverError → String
  | .terminal message | .upstream message => message
  | .timeout | .other => "Unexpected Codex adapter execution failure"

/-- The worker has dropped events that the driver has not seen. -/
def gapError : DriverError := .terminal "Sandbox worker event history has a gap"

/-- The stream has ended in the middle of a turn. -/
def streamEndedError : DriverError :=
  .upstream "Sandbox Worker event stream ended before the turn completed"

/-- What the driver waits for. -/
inductive Phase where
  /-- `_start`, before and after it has read the cursor -/
  | preparing
  | starting
  /-- the request for the event stream -/
  | connecting
  /-- the next event of the stream -/
  | reading
  /-- the answer to an interaction -/
  | interacting (event : AgentEvent) (requestId : String)
  /-- the request that resolves a server request, on its way and on its way back -/
  | resolving (event : AgentEvent) (requestId : String) (reply : ServerReply)
  | replying (event : AgentEvent) (accepted : Bool)
  /-- `app/read`, for the event `current` between those that are bound and those that are not -/
  | binding (event : AgentEvent) (bound : List Event) (current : Event) (todo : List Event)
  /-- the side events of a batch -/
  | announcing (event : AgentEvent)
  /-- the Sandbox and its lease, after an upstream error -/
  | reconnecting (error : DriverError)
  /-- the interrupt of a turn that ran out of time -/
  | interrupting
  /-- the end of the driver -/
  | closing
  | closed

/-- The event the driver works on. -/
def Phase.event? : Phase → Option AgentEvent
  | .interacting event _ | .resolving event _ _ | .replying event _ | .binding event _ _ _
  | .announcing event => some event
  | _ => none

/-- A driver with the worker it follows. -/
structure Driver where
  runtime : WorkerRuntime
  /-- every event the Worker has published -/
  history : List AgentEvent
  /-- the events of the stream that the driver has not seen -/
  stream : List AgentEvent
  /-- the cursor of `event_stream`, at the other end of the stream -/
  streamCursor : ℤ
  mcpAppsEnabled : Bool
  threadId : String
  turnId : String
  eventCursor : ℤ
  cancelRequested : Bool
  driverError : Option DriverError
  leaseError : Option DriverError
  /-- the deadline of the execution is over -/
  expired : Bool
  builder : ResponsesEventBuilder
  /-- the App sessions of the response, by call id, with their allowed tools -/
  appSessions : List (String × List String)
  /-- the queue of the subscriber -/
  queue : List (Option Event)
  phase : Phase
  /-- what has happened to the events of the Worker, by id -/
  startCursor : ℤ
  consumed : List ℕ
  processed : List ℕ
  interactions : List ℕ
  resolved : List ℕ

namespace Driver

/-- A driver that has started its turn. -/
def create (maxHistory : ℕ) (mcpAppsEnabled : Bool) (threadId turnId : String)
    (record : ResponseRecord) : Driver where
  runtime := .start maxHistory
  history := []
  stream := []
  streamCursor := -1
  mcpAppsEnabled := mcpAppsEnabled
  threadId := threadId
  turnId := turnId
  eventCursor := -1
  cancelRequested := false
  driverError := none
  leaseError := none
  expired := false
  builder := .init record
  appSessions := []
  queue := []
  phase := .preparing
  startCursor := -1
  consumed := []
  processed := []
  interactions := []
  resolved := []

/-! ## The end of an execution -/

/-- The last events of a Response that ends with an error. -/
def lastEvents (s : Driver) (error : DriverError) : Build (List Event) :=
  if s.cancelRequested then incomplete "cancelled"
  else ResponsesEventBuilder.fail (safeErrorMessage error)

/-- The error becomes the last event of the Response. -/
def fail (s : Driver) (error : DriverError) : Driver :=
  let (events, builder) := s.lastEvents error s.builder
  { s with
    driverError := some error
    builder := builder
    queue := s.queue ++ events.map some
    phase := .closing }

/-- The handler around the loop: a timeout first interrupts the turn. -/
def raise (s : Driver) : DriverError → Driver
  | .timeout => { s with phase := .interrupting }
  | error => s.fail error

/-- The handlers inside the loop, for an error of one subscription. -/
def raiseInner (s : Driver) : DriverError → Driver
  | .upstream message =>
    match s.leaseError with
    | some leaseError => s.raise leaseError
    | none =>
      if s.cancelRequested || s.expired then s.raise (.upstream message)
      else { s with phase := .reconnecting (.upstream message) }
  | error => s.raise error

/-- `active.event_cursor = event.id`, and the test that follows it. -/
def advance (s : Driver) (event : AgentEvent) : Driver :=
  { s with
    eventCursor := event.id
    processed := s.processed ++ [event.id]
    phase := if s.builder.terminal then .closing else .reading }

/-! ## The events of a response -/

/-- `mcp_app_side_event`, as far as the App session needs it: the call of an event that tells of an
App. -/
def sideCall (event : Event) : Option (McpCallItem × McpMeta × McpAppDescriptor) :=
  match event.body with
  | .outputItemAdded _ (.mcpCall call) | .outputItemDone _ (.mcpCall call) => do
    let itemMeta ← call.itemMeta
    return (call, itemMeta, ← itemMeta.mcpApp)
  | _ => none

/-- The event, with another item in the place of its own. -/
def withItem (event : Event) (item : OutputItem) : Event :=
  match event.body with
  | .outputItemAdded outputIndex _ => { event with body := .outputItemAdded outputIndex item }
  | .outputItemDone outputIndex _ => { event with body := .outputItemDone outputIndex item }
  | _ => event

/-- `_bind_app_session`, where `app/read` gives `tools`; no tool is allowed where it fails.  The
item of the event is changed in its place. -/
def bindAppSession (s : Driver) (event : Event) (tools : List String) : Event × Driver :=
  match sideCall event with
  | none => (event, s)
  | some (call, itemMeta, descriptor) =>
    let (allowedTools, sessions) :=
      match s.appSessions.lookup descriptor.callId with
      | some allowed => (allowed, s.appSessions)
      | none => (tools.eraseDups, (descriptor.callId, tools.eraseDups) :: s.appSessions)
    let target := { descriptor with allowedTools := allowedTools }
    let item := .mcpCall { call with itemMeta := some { itemMeta with mcpApp := some target } }
    let record := s.builder.record.registerMcpAppTarget descriptor.callId target
    (withItem event item,
      { s with
        appSessions := sessions
        builder := { s.builder with record := (record.updateOutputItem item).1 } })

/-- `_publish_response_events` from `todo` on, up to its next await. -/
def publishResponseEvents (s : Driver) (event : AgentEvent) (bound : List Event) :
    List Event → Driver
  | [] =>
    let s := { s with queue := s.queue ++ bound.map some }
    if s.mcpAppsEnabled && bound.any fun e => (sideCall e).isSome then
      { s with phase := .announcing event }
    else s.advance event
  | current :: todo =>
    if s.mcpAppsEnabled && (sideCall current).isSome then
      { s with phase := .binding event bound current todo }
    else s.publishResponseEvents event (bound ++ [current]) todo

/-! ## The events of the Worker -/

/-- `_belongs_to_execution` -/
def belongsToExecution (s : Driver) (notification : Members) : Bool :=
  match dict? (notification.get "params") with
  | none => true
  | some params =>
    let turn := (dict? (params.get "turn")).getD []
    (str? (params.get "threadId")).all (· = s.threadId) &&
      (str? (params.get "turnId")).all (· = s.turnId) &&
      (str? (turn.get "id")).all (· = s.turnId)

/-- `str(request_id)`, for the values `_handle_agent_server_request` accepts. -/
def requestId? : Json → Option String
  | .str s => some s
  | .int i => some (toString i)
  | .bool b => some (if b then "True" else "False")
  | _ => none

/-- What a server request is answered with once the turn is cancelled. -/
def cancelReply : ServerReply :=
  .result (.obj [("action", .str "cancel"), ("content", .null), ("_meta", .null)])

/-- `_handle_server_request` up to its wait: the reply, if there is one at once. -/
def replyAtOnce (s : Driver) (method : String) : Option ServerReply :=
  if !s.mcpAppsEnabled then some (.error (-32000) "MCP Apps support is disabled")
  else if method ≠ elicitationMethod then
    some (.error (-32000) ("Unsupported interactive app-server request: " ++ method))
  else if !s.builder.record.stream then some cancelReply
  else none

/-- `_handle_agent_server_request` up to its first await. -/
def handleAgentServerRequest (s : Driver) (event : AgentEvent) : Driver :=
  let data : Members := event.data.members
  match requestId? (data.get "request_id"), str? (data.get "method") with
  | some requestId, some method =>
    let params := (dict? (data.get "params")).getD []
    if !s.belongsToExecution [("params", .obj params)] then
      let reply := .error (-32000) "Interactive request does not belong to the active turn"
      { s with phase := .resolving event requestId reply }
    else
      match s.replyAtOnce method with
      | some reply => { s with phase := .resolving event requestId reply }
      | none =>
        { s with
          interactions := s.interactions ++ [event.id]
          phase := .interacting event requestId }
  | _, _ => s.raiseInner (.upstream "Sandbox worker emitted an invalid server request")

/-- The message of a `session_failed` event; the Worker sends no other value than a string. -/
def sessionFailedMessage (data : Members) : String :=
  ((str? (data.get "message")).filter (· ≠ "")).getD "Sandbox worker session failed"

/-- A notification is consumed if it belongs to the execution. -/
def handleNotification (s : Driver) (event : AgentEvent) : Driver :=
  if s.belongsToExecution event.data.members then
    let (events, builder) := consume event.data.members s.builder
    { s with builder := builder, consumed := s.consumed ++ [event.id] }.publishResponseEvents
      event [] events
  else s.advance event

/-- One round of the loop over the events of a subscription, up to its first await. -/
def handle (s : Driver) (event : AgentEvent) : Driver :=
  match s.leaseError with
  | some error => s.raise error
  | none =>
    if s.eventCursor + 1 < event.id then s.raise gapError
    else
      match event.type with
      | .serverRequest => s.handleAgentServerRequest event
      | .sessionFailed => s.raise (.terminal (sessionFailedMessage event.data.members))
      | .notification => s.handleNotification event

/-! ## What may happen next -/

/-- The outcome of the requests of a reconnect. -/
inductive Reconnected where
  | renewed
  | unavailable
  | raised (error : DriverError)

/-- What happens to a driver. -/
inductive Action where
  | worker (action : WorkerAction)
  /-- The lease task ends with an exception. -/
  | failLease (error : DriverError)
  | cancel
  /-- The deadline of the execution passes; the driver learns of it by `interrupt`. -/
  | expire
  | readCursor
  | startTurn
  | connect
  /-- `event_stream` sends what it reads from the log. -/
  | send
  /-- The next event of the stream reaches the driver. -/
  | deliver
  /-- The subscription ends, or cannot be made. -/
  | endStream
  | breakStream (error : DriverError)
  /-- The interaction is resolved, cancelled or expired. -/
  | answer (reply : ServerReply)
  /-- The Worker takes the request that resolves one of its own. -/
  | resolve
  | returnReply
  /-- The request fails, whether it has reached the Worker or not. -/
  | loseReply (error : DriverError)
  /-- `app/read` ends, with the tools it allows. -/
  | bind (tools : List String)
  | announce
  | reconnect (outcome : Reconnected)
  /-- The deadline ends the await of the driver. -/
  | interrupt
  | interrupted
  | finish

/-- The driver is inside the deadline of the execution. -/
def underDeadline (s : Driver) : Bool :=
  match s.phase with
  | .preparing | .starting | .interrupting | .closing | .closed => false
  | _ => true

/-- There is a subscription. -/
def streaming (s : Driver) : Bool :=
  match s.phase with
  | .reading => true
  | phase => phase.event?.isSome

/-- `while not builder.terminal` -/
def loop (s : Driver) : Driver :=
  { s with phase := if s.builder.terminal then .closing else .connecting }

/-- What an action does, where it can happen. -/
def driverStep (s : Driver) : Action → Option Driver
  | .worker action =>
    (s.runtime.step action).map fun (runtime, published) =>
      { s with runtime := runtime, history := s.history ++ published }
  | .failLease error => if s.leaseError.isNone then some { s with leaseError := some error } else none
  | .cancel => some { s with cancelRequested := true }
  | .expire => some { s with expired := true }
  | .readCursor =>
    match s.phase with
    | .preparing =>
      let cursor := s.runtime.events.lastEventId
      some { s with eventCursor := cursor, startCursor := cursor, phase := .starting }
    | _ => none
  | .startTurn =>
    match s.phase with
    | .starting =>
      let (initial, builder) := initialEvents s.builder
      some { s with builder := builder, queue := s.queue ++ initial.map some }.loop
    | _ => none
  | .connect =>
    match s.phase with
    | .connecting =>
      some { s with stream := [], streamCursor := s.eventCursor, phase := .reading }
    | _ => none
  | .send =>
    let events := s.runtime.events.read s.streamCursor
    if s.streaming then
      some { s with
        stream := s.stream ++ events
        streamCursor := (events.getLast?.map fun e => (e.id : ℤ)).getD s.streamCursor }
    else none
  | .deliver =>
    match s.phase, s.stream with
    | .reading, event :: stream => some ({ s with stream := stream }.handle event)
    | _, _ => none
  | .endStream =>
    match s.phase with
    | .reading => some (s.raiseInner streamEndedError)
    | _ => none
  | .breakStream error =>
    match s.phase with
    | .connecting | .reading => some (s.raiseInner error)
    | _ => none
  | .answer reply =>
    match s.phase with
    | .interacting event requestId => some { s with phase := .resolving event requestId reply }
    | _ => none
  | .resolve =>
    match s.phase with
    | .resolving event requestId reply =>
      match s.runtime.resolveServerRequest requestId reply with
      | some runtime => some { s with runtime := runtime, phase := .replying event true }
      | none => some { s with phase := .replying event false }
    | _ => none
  | .returnReply =>
    match s.phase with
    | .replying event accepted =>
      let s := { s with resolved := s.resolved ++ [event.id] }
      match accepted with
      | true => some (s.advance event)
      | false => some (s.raiseInner (.upstream "Unknown or completed app-server request"))
    | _ => none
  | .loseReply error =>
    match s.phase with
    | .resolving event _ _ | .replying event _ =>
      some ({ s with resolved := s.resolved ++ [event.id] }.raiseInner error)
    | _ => none
  | .bind tools =>
    match s.phase with
    | .binding event bound current todo =>
      let (current, s) := s.bindAppSession current tools
      some (s.publishResponseEvents event (bound ++ [current]) todo)
    | _ => none
  | .announce =>
    match s.phase with
    | .announcing event => some (s.advance event)
    | _ => none
  | .reconnect outcome =>
    match s.phase with
    | .reconnecting error =>
      match outcome with
      | .renewed => some s.loop
      | .unavailable => some (s.raise error)
      | .raised error => some (s.raise error)
    | _ => none
  | .interrupt => if s.expired && s.underDeadline then some (s.raise .timeout) else none
  | .interrupted =>
    match s.phase with
    | .interrupting => some (s.fail (.upstream "Agent execution timed out"))
    | _ => none
  | .finish =>
    match s.phase with
    | .closing => some { s with queue := s.queue ++ [none], phase := .closed }
    | _ => none

/-! ## What a step can do -/

/-- The steps of a driver, each with the phase it is taken in. -/
inductive Step (s : Driver) : Action → Driver → Prop
  | worker {action : WorkerAction} {runtime : WorkerRuntime} {published : List AgentEvent}
      (hworker : s.runtime.step action = some (runtime, published)) :
      Step s (.worker action) { s with runtime := runtime, history := s.history ++ published }
  | failLease (error : DriverError) : Step s (.failLease error) { s with leaseError := some error }
  | cancel : Step s .cancel { s with cancelRequested := true }
  | expire : Step s .expire { s with expired := true }
  | readCursor (hphase : s.phase = .preparing) : Step s .readCursor
      { s with
        eventCursor := s.runtime.events.lastEventId
        startCursor := s.runtime.events.lastEventId
        phase := .starting }
  | startTurn (hphase : s.phase = .starting) : Step s .startTurn
      { s with
        builder := (initialEvents s.builder).2
        queue := s.queue ++ (initialEvents s.builder).1.map some }.loop
  | connect (hphase : s.phase = .connecting) : Step s .connect
      { s with stream := [], streamCursor := s.eventCursor, phase := .reading }
  | send (hstreaming : s.streaming = true) : Step s .send
      { s with
        stream := s.stream ++ s.runtime.events.read s.streamCursor
        streamCursor :=
          ((s.runtime.events.read s.streamCursor).getLast?.map fun e => (e.id : ℤ)).getD
            s.streamCursor }
  | deliver {event : AgentEvent} {rest : List AgentEvent} (hphase : s.phase = .reading)
      (hstream : s.stream = event :: rest) :
      Step s .deliver ({ s with stream := rest }.handle event)
  | endStream (hphase : s.phase = .reading) : Step s .endStream (s.raiseInner streamEndedError)
  | breakStream (error : DriverError) (hphase : s.phase = .connecting ∨ s.phase = .reading) :
      Step s (.breakStream error) (s.raiseInner error)
  | answer {event : AgentEvent} {requestId : String} (reply : ServerReply)
      (hphase : s.phase = .interacting event requestId) :
      Step s (.answer reply) { s with phase := .resolving event requestId reply }
  | resolve {event : AgentEvent} {requestId : String} {reply : ServerReply}
      {runtime : WorkerRuntime} (hphase : s.phase = .resolving event requestId reply)
      (hresolve : s.runtime.resolveServerRequest requestId reply = some runtime) :
      Step s .resolve { s with runtime := runtime, phase := .replying event true }
  | reject {event : AgentEvent} {requestId : String} {reply : ServerReply}
      (hphase : s.phase = .resolving event requestId reply)
      (hreject : s.runtime.resolveServerRequest requestId reply = none) :
      Step s .resolve { s with phase := .replying event false }
  | accepted {event : AgentEvent} (hphase : s.phase = .replying event true) :
      Step s .returnReply ({ s with resolved := s.resolved ++ [event.id] }.advance event)
  | rejected {event : AgentEvent} (hphase : s.phase = .replying event false) : Step s .returnReply
      ({ s with resolved := s.resolved ++ [event.id] }.raiseInner
        (.upstream "Unknown or completed app-server request"))
  | loseReply {event : AgentEvent} (error : DriverError)
      (hphase : (∃ requestId reply, s.phase = .resolving event requestId reply) ∨
        ∃ accepted, s.phase = .replying event accepted) :
      Step s (.loseReply error) ({ s with resolved := s.resolved ++ [event.id] }.raiseInner error)
  | bind {event : AgentEvent} {bound : List Event} {current : Event} {todo : List Event}
      (tools : List String) (hphase : s.phase = .binding event bound current todo) :
      Step s (.bind tools) ((s.bindAppSession current tools).2.publishResponseEvents event
        (bound ++ [(s.bindAppSession current tools).1]) todo)
  | announce {event : AgentEvent} (hphase : s.phase = .announcing event) :
      Step s .announce (s.advance event)
  | renewed {error : DriverError} (hphase : s.phase = .reconnecting error) :
      Step s (.reconnect .renewed) s.loop
  | reconnectRaises {error : DriverError} {outcome : Reconnected} (error' : DriverError)
      (hphase : s.phase = .reconnecting error) (houtcome : outcome ≠ .renewed) :
      Step s (.reconnect outcome) (s.raise error')
  | interrupt (hdeadline : s.underDeadline = true) : Step s .interrupt (s.raise .timeout)
  | interrupted (hphase : s.phase = .interrupting) :
      Step s .interrupted (s.fail (.upstream "Agent execution timed out"))
  | finish (hphase : s.phase = .closing) :
      Step s .finish { s with queue := s.queue ++ [none], phase := .closed }

/-- **Every step is one of these.** -/
theorem step_of_driverStep {s s' : Driver} {action : Action}
    (hstep : driverStep s action = some s') : Step s action s' := by
  cases action with
  | worker action =>
    obtain ⟨⟨runtime, published⟩, hworker, rfl⟩ := Option.map_eq_some_iff.mp hstep
    exact .worker hworker
  | failLease error =>
    simp only [driverStep] at hstep
    split_ifs at hstep
    exact Option.some.inj hstep ▸ .failLease error
  | cancel => exact Option.some.inj hstep ▸ .cancel
  | expire => exact Option.some.inj hstep ▸ .expire
  | readCursor =>
    simp only [driverStep] at hstep
    split at hstep
    next hphase => exact Option.some.inj hstep ▸ .readCursor hphase
    next => cases hstep
  | startTurn =>
    simp only [driverStep] at hstep
    split at hstep
    next hphase => exact Option.some.inj hstep ▸ .startTurn hphase
    next => cases hstep
  | connect =>
    simp only [driverStep] at hstep
    split at hstep
    next hphase => exact Option.some.inj hstep ▸ .connect hphase
    next => cases hstep
  | send =>
    simp only [driverStep] at hstep
    split_ifs at hstep with hstreaming
    exact Option.some.inj hstep ▸ .send hstreaming
  | deliver =>
    simp only [driverStep] at hstep
    split at hstep
    next hphase hstream => exact Option.some.inj hstep ▸ .deliver hphase hstream
    next => cases hstep
  | endStream =>
    simp only [driverStep] at hstep
    split at hstep
    next hphase => exact Option.some.inj hstep ▸ .endStream hphase
    next => cases hstep
  | breakStream error =>
    simp only [driverStep] at hstep
    split at hstep
    next hphase => exact Option.some.inj hstep ▸ .breakStream error (.inl hphase)
    next hphase => exact Option.some.inj hstep ▸ .breakStream error (.inr hphase)
    next => cases hstep
  | answer reply =>
    simp only [driverStep] at hstep
    split at hstep
    next hphase => exact Option.some.inj hstep ▸ .answer reply hphase
    next => cases hstep
  | resolve =>
    simp only [driverStep] at hstep
    split at hstep
    next hphase =>
      split at hstep
      next hresolve => exact Option.some.inj hstep ▸ .resolve hphase hresolve
      next hreject => exact Option.some.inj hstep ▸ .reject hphase hreject
    next => cases hstep
  | returnReply =>
    simp only [driverStep] at hstep
    split at hstep
    next event accepted hphase =>
      cases accepted with
      | true => exact Option.some.inj hstep ▸ .accepted hphase
      | false => exact Option.some.inj hstep ▸ .rejected hphase
    next => cases hstep
  | loseReply error =>
    simp only [driverStep] at hstep
    split at hstep
    next hphase => exact Option.some.inj hstep ▸ .loseReply error (.inl ⟨_, _, hphase⟩)
    next hphase => exact Option.some.inj hstep ▸ .loseReply error (.inr ⟨_, hphase⟩)
    next => cases hstep
  | bind tools =>
    simp only [driverStep] at hstep
    split at hstep
    next hphase => exact Option.some.inj hstep ▸ .bind tools hphase
    next => cases hstep
  | announce =>
    simp only [driverStep] at hstep
    split at hstep
    next hphase => exact Option.some.inj hstep ▸ .announce hphase
    next => cases hstep
  | reconnect outcome =>
    simp only [driverStep] at hstep
    split at hstep
    next error hphase =>
      cases outcome with
      | renewed => exact Option.some.inj hstep ▸ .renewed hphase
      | unavailable => exact Option.some.inj hstep ▸ .reconnectRaises error hphase (by simp)
      | raised error' => exact Option.some.inj hstep ▸ .reconnectRaises error' hphase (by simp)
    next => cases hstep
  | interrupt =>
    simp only [driverStep] at hstep
    split_ifs at hstep with hdeadline
    exact Option.some.inj hstep ▸ .interrupt (Bool.and_eq_true_iff.mp hdeadline).2
  | interrupted =>
    simp only [driverStep] at hstep
    split at hstep
    next hphase => exact Option.some.inj hstep ▸ .interrupted hphase
    next => cases hstep
  | finish =>
    simp only [driverStep] at hstep
    split at hstep
    next hphase => exact Option.some.inj hstep ▸ .finish hphase
    next => cases hstep

end Driver

end CodexGateway.Adapter
