import Mathlib.Data.Int.Notation
import Mathlib.Data.List.Infix
import Mathlib.Logic.Function.Basic
import CodexGateway.Worker.AgentEvent

/-!
# Worker/EventLog — the bounded history of a Sandbox Worker, and the requests it waits for

`EventLog` keeps the last `maxHistory` events under consecutive ids; a reader asks for the events
after a cursor.  `step_events` is all that a Worker does to its log.
-/

namespace CodexGateway.Worker

open PyJson

/-- The events of a turn: the last `maxHistory` are kept. -/
structure EventLog where
  maxHistory : ℕ
  events : List AgentEvent
  nextId : ℕ
  closed : Bool

namespace EventLog

/-- A log before its first event. -/
def empty (maxHistory : ℕ) : EventLog := ⟨maxHistory, [], 0, false⟩

/-- The id of the last event, or -1. -/
def lastEventId (log : EventLog) : ℤ := log.nextId - 1

/-- The last `n` of a list: what a `deque(maxlen=n)` keeps. -/
def lastN {α : Type} (n : ℕ) (l : List α) : List α := l.drop (l.length - n)

/-- The event that is published next. -/
def next (log : EventLog) (type : AgentEventType) (data : Dict) : AgentEvent :=
  ⟨log.nextId, type, data⟩

/-- `publish` -/
def publish (log : EventLog) (type : AgentEventType) (data : Dict) : EventLog :=
  { log with
    events := lastN log.maxHistory (log.events ++ [log.next type data])
    nextId := log.nextId + 1 }

/-- `close` -/
def close (log : EventLog) : EventLog := { log with closed := true }

/-- `read`, where it does not wait. -/
def read (log : EventLog) (after : ℤ) : List AgentEvent :=
  log.events.filter fun event => after < event.id

theorem lastN_suffix {α : Type} (n : ℕ) (l : List α) : lastN n l <:+ l := List.drop_suffix _ _

end EventLog

/-! ## The requests of the app server -/

/-- What `resolve_server_request` puts into the future of a request. -/
inductive ServerReply where
  | result (result : Json)
  | error (code : ℤ) (message : String)

/-- `pending` is `_pending_server_requests`, each request with what its future holds, if it is
done. -/
structure WorkerRuntime where
  events : EventLog
  pending : String → Option (Option ServerReply)

/-- The method of a form. -/
def elicitationMethod : String := "mcpServer/elicitation/request"

/-- The data of a `server_request` event. -/
def serverRequestData (token : String) (params : Dict) : Dict where
  members := [("request_id", .str token), ("method", .str elicitationMethod),
    ("params", params.toJson)]
  wellFormed := ⟨show ["request_id", "method", "params"].Nodup by decide, trivial, trivial,
    params.wellFormed, trivial⟩

/-- `{"message": self._failure_message}` -/
def failureData (message : String) : Dict where
  members := [("message", .str message)]
  wellFormed := ⟨show ["message"].Nodup by decide, trivial, trivial⟩

/-- What the Worker does between two steps of a client. -/
inductive WorkerAction where
  /-- `_pump_notifications` takes one more notification. -/
  | notify (notification : Dict)
  /-- `_pump_notifications` ends with an exception. -/
  | failSession (message : String)
  /-- `_handle_server_request` up to its wait -/
  | serverRequest (token : String) (params : Dict)
  /-- Its wait is over, with the reply or at the timeout. -/
  | forget (token : String)
  /-- Another client resolves a request. -/
  | resolve (token : String) (reply : ServerReply)
  | close

namespace WorkerRuntime

/-- A worker whose turn has started. -/
def start (maxHistory : ℕ) : WorkerRuntime := ⟨.empty maxHistory, fun _ => none⟩

/-- `resolve_server_request`, unless it raises. -/
def resolveServerRequest (runtime : WorkerRuntime) (requestId : String) (reply : ServerReply) :
    Option WorkerRuntime :=
  match runtime.pending requestId with
  | some none =>
    some { runtime with pending := Function.update runtime.pending requestId (some (some reply)) }
  | _ => none

/-- One event is published. -/
def publish (runtime : WorkerRuntime) (type : AgentEventType) (data : Dict) :
    WorkerRuntime × List AgentEvent :=
  ({ runtime with events := runtime.events.publish type data }, [runtime.events.next type data])

/-- The runtime after an action, with what it has published. -/
def step (runtime : WorkerRuntime) : WorkerAction → Option (WorkerRuntime × List AgentEvent)
  | .notify notification =>
    if runtime.events.closed then none else some (runtime.publish .notification notification)
  | .failSession message =>
    if runtime.events.closed then none
    else
      let (runtime, published) := runtime.publish .sessionFailed (failureData message)
      some ({ runtime with events := runtime.events.close }, published)
  | .serverRequest token params =>
    if (runtime.pending token).isSome then none
    else
      let pending := Function.update runtime.pending token (some none)
      some ({ runtime with pending := pending }.publish .serverRequest
        (serverRequestData token params))
  | .forget token =>
    some ({ runtime with pending := Function.update runtime.pending token none }, [])
  | .resolve token reply => (runtime.resolveServerRequest token reply).map fun r => (r, [])
  | .close =>
    some ({ events := runtime.events.close, pending := fun _ => none }, [])

variable {runtime runtime' : WorkerRuntime} {published : List AgentEvent}

theorem resolveServerRequest_events {token : String} {reply : ServerReply}
    (h : runtime.resolveServerRequest token reply = some runtime') :
    runtime'.events = runtime.events := by
  rw [resolveServerRequest] at h
  split at h
  · rw [← Option.some.inj h]
  · cases h

/-- **What an action does to the log**: it publishes one event, or leaves the events alone. -/
theorem step_events {action : WorkerAction} (h : runtime.step action = some (runtime', published)) :
    (∃ event, event.id = runtime.events.nextId ∧
      runtime'.events.events <:+ runtime.events.events ++ [event] ∧
      runtime'.events.nextId = runtime.events.nextId + 1 ∧ published = [event]) ∨
    (runtime'.events.events = runtime.events.events ∧
      runtime'.events.nextId = runtime.events.nextId ∧ published = []) := by
  cases action with
  | notify notification =>
    simp only [step] at h
    split_ifs at h
    obtain ⟨rfl, rfl⟩ := Prod.mk.inj (Option.some.inj h)
    exact .inl ⟨_, rfl, EventLog.lastN_suffix _ _, rfl, rfl⟩
  | failSession message =>
    simp only [step] at h
    split_ifs at h
    obtain ⟨rfl, rfl⟩ := Prod.mk.inj (Option.some.inj h)
    exact .inl ⟨_, rfl, EventLog.lastN_suffix _ _, rfl, rfl⟩
  | serverRequest token params =>
    simp only [step] at h
    split_ifs at h
    obtain ⟨rfl, rfl⟩ := Prod.mk.inj (Option.some.inj h)
    exact .inl ⟨_, rfl, EventLog.lastN_suffix _ _, rfl, rfl⟩
  | forget token =>
    obtain ⟨rfl, rfl⟩ := Prod.mk.inj (Option.some.inj h)
    exact .inr ⟨rfl, rfl, rfl⟩
  | resolve token reply =>
    obtain ⟨r, hr, heq⟩ := Option.map_eq_some_iff.mp h
    obtain ⟨rfl, rfl⟩ := Prod.mk.inj heq
    rw [resolveServerRequest_events hr]
    exact .inr ⟨rfl, rfl, rfl⟩
  | close =>
    obtain ⟨rfl, rfl⟩ := Prod.mk.inj (Option.some.inj h)
    exact .inr ⟨rfl, rfl, rfl⟩

end WorkerRuntime

end CodexGateway.Worker
