import CodexGateway.Library.Calls
import CodexGateway.Library.Machine
import CodexGateway.SandboxApi.Grants

/-!
# Worker/RpcSession — one JSON-RPC session with the app server

Both sides of the session send requests.  Those of the Worker are numbered and answered by number;
those of the app server are each handled by a task of their own.  What is read that is neither is a
notification, and is put into a queue.

A request is answered by the first response with its id that is read after it was made
(`request_answered`); what else is read does not answer it, and neither does a second response.
-/

namespace CodexGateway.Worker

open PyJson SandboxApi

/-! ## Messages -/

/-- `name in message` -/
def hasMember (message : Members) (name : String) : Bool := (message.lookup name).isSome

/-- `isinstance(message_id, int) and ("result" in message or "error" in message)` -/
def isResponse (message : Members) : Bool :=
  (int? (message.get "id")).isSome && (hasMember message "result" || hasMember message "error")

/-- The place of the request a message is the response to; ids are counted from one. -/
def responseTo (message : Members) : Option ℕ :=
  match int? (message.get "id") with
  | none => none
  | some id => if isResponse message && 1 ≤ id then some (id - 1).toNat else none

/-- `isinstance(message_id, (int, str))` -/
def isRequestId (id : Json) : Bool := (int? id).isSome || (text? id).isSome

/-- What is asked of the app-server. -/
structure RpcRequest where
  method : String
  params : Members

/-- `{"id": request_id, "method": method, "params": params}` -/
def RpcRequest.message (n : ℕ) (r : RpcRequest) : Members :=
  [("id", .int (n + 1)), ("method", .str r.method), ("params", .obj r.params)]

/-- What `_write` raises. -/
inductive WriteFailure where
  | connectionClosed
  | cancelled
  | other (text : String)
  deriving DecidableEq

/-- What the future of a request holds where it is not answered. -/
inductive FutureFailure where
  | cancelled
  | exited
  | sessionClosed

/-- What `request` raises once the request is made. -/
inductive RpcFailure where
  | rpc (method : String) (error : Json)
  | timedOut (method : String)
  | future (failure : FutureFailure)
  | write (failure : WriteFailure)

/-- The message of each failure. -/
def RpcFailure.message : RpcFailure → String
  | .rpc method _ => "Codex app-server RPC '" ++ method ++ "' failed"
  | .timedOut method => "Codex app-server RPC '" ++ method ++ "' timed out"
  | .future .exited => "Codex app-server exited while an RPC was pending"
  | .future .sessionClosed => "Codex app-server session closed"
  | .write .connectionClosed => "Codex app-server connection was closed"
  | .write (.other text) => text
  | .future .cancelled | .write .cancelled => ""

/-- What a response makes of the request. -/
def reply (method : String) (message : Members) : Except RpcFailure Json :=
  if hasMember message "error" then .error (.rpc method (message.get "error"))
  else .ok (message.get "result")

/-- `{"method": "$session/closed", "params": {"error": error}}` -/
def closedNotice (error : Json) : Members :=
  [("method", .str "$session/closed"), ("params", .obj [("error", error)])]

/-! ## The requests of the app server -/

/-- The place of a task that answers the app-server. -/
inductive ServerTaskPhase where
  | start
  | handler
  /-- `_write`, in the `try` or in what catches its exceptions. -/
  | write (answer : Members) (last : Bool)
  | ended

/-- `_handle_server_request`, whether it is cancelled, and the answers it has written. -/
structure ServerTask where
  id : Json
  method : String
  params : Members
  cancelled : Bool
  phase : ServerTaskPhase
  answers : List Members

/-- What the task of a server request does next. -/
inductive ServerTaskAction where
  | run
  | returns (result : Json)
  | protocolError (message : String)
  | raises
  | written
  /-- `_write` raises, done or not: a `CodexProtocolError` with its text, or something else. -/
  | writeFails (done : Bool) (text : Option String)
  | stop (done : Bool)

namespace ServerTask

variable (t : ServerTask)

/-- The answer with a result. -/
def result (result : Json) : Members := [("id", t.id), ("result", result)]

/-- The answer with an error. -/
def error (code : ℤ) (message : String) : Members :=
  [("id", t.id), ("error", .obj [("code", .int code), ("message", .str message)])]

/-- The answer is written, unless the session is closed. -/
def answer (closed : Bool) (answer : Members) (last : Bool) : ServerTask :=
  { t with phase := if closed then .ended else .write answer last }

/-- The answer to what the handler refuses. -/
def protocolError (closed : Bool) (message : String) : ServerTask :=
  t.answer closed (t.error (-32000) message) true

/-- The answer to an exception of the handler. -/
def internalError (closed : Bool) : ServerTask :=
  t.answer closed (t.error (-32603) "Internal MCP Apps bridge error") true

/-- The write is over: the answer has gone out, or has not. -/
def wrote (answer : Members) (done : Bool) : ServerTask :=
  { t with answers := t.answers ++ if done then [answer] else [] }

/-- `_handle_server_request`, with a handler or without one. -/
def act (hasHandler closed : Bool) (a : ServerTaskAction) : Option ServerTask :=
  match t.cancelled, t.phase, a with
  | false, .start, .run =>
    if hasHandler then some { t with phase := .handler }
    else some { t with
      phase := .write (t.error (-32601) ("Unsupported app-server request: " ++ t.method)) false }
  | false, .handler, .returns result => some (t.answer closed (t.result result) false)
  | false, .handler, .protocolError message => some (t.protocolError closed message)
  | false, .handler, .raises => some (t.internalError closed)
  | false, .write answer _, .written => some { t.wrote answer true with phase := .ended }
  | false, .write answer false, .writeFails done text =>
    let t := t.wrote answer done
    some (match text with
      | some message => t.protocolError closed message
      | none => t.internalError closed)
  | false, .write answer true, .writeFails done _ =>
    some { t.wrote answer done with phase := .ended }
  | true, .write answer _, .stop done => some { t.wrote answer done with phase := .ended }
  | true, .start, .stop _ | true, .handler, .stop _ => some { t with phase := .ended }
  | _, _, _ => none

/-- The task is over. -/
def isOver : Bool :=
  match t.phase with
  | .ended => true
  | _ => false

end ServerTask

/-! ## The session -/

/-- The place of a request of the session. -/
inductive RequestPhase where
  | unmade
  | write
  | wait
  | returned (value : Json)
  | raised (failure : RpcFailure)

/-- `_read_stdout`: its loop, and the wait for the process in its `finally`. -/
inductive ReaderPhase where
  | reading
  | exiting
  | ended
  deriving DecidableEq

/-- `close`, which waits for the tasks there are, then for the process and for the reader. -/
inductive ClosePhase where
  | unclosed
  | tasks (count : ℕ)
  | process
  | reader
  | done
  | aborted
  deriving DecidableEq

/-- The requests by their places, and what has been read. -/
abbrev Requests := Calls RpcRequest Members FutureFailure

/-- `calls` are the requests with `_pending` and what has been read, and `sent` the requests that
have been written; `notifications` is all that has been put into the queue. -/
structure RpcSession where
  calls : Requests
  phase : ℕ → RequestPhase
  sent : List Members
  reader : ReaderPhase
  closing : ClosePhase
  tasks : List ServerTask
  notifications : List Members

/-- A request is made; `_write` returns or raises, done or not; its future is settled, its time is
over, or it is cancelled.  The reader reads a message or ends, and the process has exited.  A task
goes on.  The session is closed. -/
inductive RpcAction where
  | request (r : RpcRequest)
  | written (n : ℕ)
  | writeFails (n : ℕ) (done : Bool) (failure : WriteFailure)
  | settled (n : ℕ)
  | timeout (n : ℕ)
  | cancel (n : ℕ)
  | read (message : Members)
  | readerEnds (failure : Option String)
  | exited (error : Json)
  | readerCancelled
  | server (k : ℕ) (a : ServerTaskAction)
  | close
  | closeTasks
  | closeProcess
  | closeReader
  | closeFails

namespace RpcSession

variable (s : RpcSession)

/-- `_closed` -/
def closed : Bool := s.closing ≠ .unclosed

/-- A request goes on. -/
def setPhase (n : ℕ) (phase : RequestPhase) : RpcSession :=
  { s with phase := Function.update s.phase n phase }

/-- The task of a request of the app server. -/
def serverTask (message : Members) : Option ServerTask :=
  if isResponse message then none
  else if isRequestId (message.get "id") then
    (text? (message.get "method")).map fun method =>
      { id := message.get "id"
        method := method
        params := match message.get "params" with
          | .obj params => params
          | _ => []
        cancelled := false
        phase := .start
        answers := [] }
  else none

/-- A message with a method, and without an id. -/
def isNotification (message : Members) : Bool :=
  !isResponse message && !isRequestId (message.get "id") && (text? (message.get "method")).isSome

/-- `_dispatch` -/
def dispatch (message : Members) : RpcSession :=
  { s with
    calls := s.calls.hear responseTo message
    tasks := s.tasks ++ (serverTask message).toList
    notifications := s.notifications ++ if isNotification message then [message] else [] }

/-- What a settled future makes of the request that waits for it. -/
def outcome (call : Call RpcRequest Members FutureFailure) : Option RequestPhase :=
  match call.future with
  | .pending => none
  | .failed failure => some (.raised (.future failure))
  | .answered message => some (match reply call.tag.method message with
    | .ok value => .returned value
    | .error failure => .raised failure)

/-- A request that is being written goes on, and has been written or not. -/
def onWrite (n : ℕ) (done : Bool) (phase : RequestPhase) : Option RpcSession :=
  match s.phase n, s.calls.calls[n]? with
  | .write, some call => some { s.setPhase n phase with
      sent := s.sent ++ if done then [call.tag.message n] else [] }
  | _, _ => none

/-- A request that waits goes on. -/
def onWait (n : ℕ) (next : Call RpcRequest Members FutureFailure → Option RpcSession) :
    Option RpcSession :=
  match s.phase n with
  | .wait => s.calls.calls[n]?.bind next
  | _ => none

/-- What an action does, where it can happen. -/
def act (hasHandler : Bool) : RpcAction → Option RpcSession
  | .request r =>
    -- A session that is closed raises, before the request has an id.
    if s.closed then some s
    else some { s.setPhase s.calls.calls.length .write with calls := s.calls.make r }
  | .written n => s.onWrite n true .wait
  | .writeFails n done failure => s.onWrite n done (.raised (.write failure))
  | .settled n => s.onWait n fun call => (outcome call).map fun phase => s.setPhase n phase
  | .timeout n => s.onWait n fun call =>
    some { s.setPhase n (.raised (.timedOut call.tag.method)) with
      calls := s.calls.fail n .cancelled }
  | .cancel n => s.onWait n fun _ =>
    some { s.setPhase n (.raised (.future .cancelled)) with
      calls := s.calls.settle (· = n) (.failed .cancelled) }
  | .read message =>
    match s.reader with
    | .reading => some (s.dispatch message)
    | _ => none
  | .readerEnds failure =>
    match s.reader with
    | .reading => some { s with
        reader := if s.closed then .ended else .exiting
        notifications := s.notifications ++
          (failure.map fun text => closedNotice (.str text)).toList }
    | _ => none
  | .exited error =>
    match s.reader with
    | .exiting => some { s with
        reader := .ended
        calls := s.calls.failAll .exited
        notifications := s.notifications ++ [closedNotice error] }
    | _ => none
  | .readerCancelled =>
    match s.closing, s.reader with
    | .reader, .reading | .reader, .exiting => some { s with reader := .ended }
    | _, _ => none
  | .server k a =>
    match s.tasks[k]? with
    | none => none
    | some t => (t.act hasHandler s.closed a).map fun t => { s with tasks := s.tasks.set k t }
  | .close =>
    if s.closed then some s
    else some { s with
      closing := .tasks s.tasks.length
      tasks := s.tasks.map fun t => { t with cancelled := !t.isOver } }
  | .closeTasks =>
    match s.closing with
    | .tasks count =>
      if (s.tasks.take count).all ServerTask.isOver then some { s with closing := .process }
      else none
    | _ => none
  | .closeProcess =>
    match s.closing with
    | .process => some { s with closing := .reader }
    | _ => none
  | .closeReader =>
    match s.closing, s.reader with
    | .reader, .ended => some { s with
        closing := .done
        calls := s.calls.failAll .sessionClosed }
    | _, _ => none
  | .closeFails =>
    match s.closing with
    | .process => some { s with closing := .aborted }
    | _ => none

end RpcSession

/-- A session whose reader has started. -/
def rpcStart : RpcSession := ⟨.empty, fun _ => .unmade, [], .reading, .unclosed, [], []⟩

/-! ## What is meant -/

/-- A request is where it says it is: it has been made, or what it returned or raised is in the
response that its future holds. -/
def RequestPhase.Justified (calls : Requests) (n : ℕ) :
    RequestPhase → Prop
  | .returned value => ∃ call message, calls.calls[n]? = some call ∧
      call.future = .answered message ∧ reply call.tag.method message = .ok value
  | .raised (.rpc method error) => ∃ call message, calls.calls[n]? = some call ∧
      call.future = .answered message ∧ reply call.tag.method message = .error (.rpc method error)
  | .write | .wait => ∃ call, calls.calls[n]? = some call
  | .unmade | .raised _ => True

/-- No request is left with a future that nothing has settled. -/
def AllSettled (calls : Requests) : Prop :=
  ∀ (n : ℕ) (call : Call RpcRequest Members FutureFailure), calls.calls[n]? = some call →
    call.future ≠ .pending

/-- What a step does to the requests. -/
structure RequestStep (s s' : RpcSession) : Prop where
  grows : Calls.Grows s.calls s'.calls
  sound : s.calls.Sound responseTo → s'.calls.Sound responseTo
  held : s.calls.Held → s'.calls.Held
  made : s.closed = true → s'.calls.calls.length = s.calls.calls.length
  phase : ∀ n, s'.phase n = s.phase n ∨ (s'.phase n).Justified s'.calls n

section Requests

variable {s s' w : RpcSession} {a : RpcAction} {hasHandler : Bool} {n : ℕ}

theorem RequestPhase.Justified.grows {calls calls' : Requests}
    {phase : RequestPhase} (h : phase.Justified calls n) (hgrows : Calls.Grows calls calls') :
    phase.Justified calls' n := by
  cases phase with
  | unmade => trivial
  | write =>
    obtain ⟨call, hcall⟩ := h
    obtain ⟨call', hcall', -⟩ := hgrows.calls n call hcall
    exact ⟨call', hcall'⟩
  | wait =>
    obtain ⟨call, hcall⟩ := h
    obtain ⟨call', hcall', -⟩ := hgrows.calls n call hcall
    exact ⟨call', hcall'⟩
  | returned value =>
    obtain ⟨call, message, hcall, hanswered, hreply⟩ := h
    obtain ⟨call', hcall', -, hsame⟩ := hgrows.calls n call hcall
    obtain rfl := hsame (by simp [hanswered])
    exact ⟨call', message, hcall', hanswered, hreply⟩
  | raised failure =>
    cases failure with
    | rpc method error =>
      obtain ⟨call, message, hcall, hanswered, hreply⟩ := h
      obtain ⟨call', hcall', -, hsame⟩ := hgrows.calls n call hcall
      obtain rfl := hsame (by simp [hanswered])
      exact ⟨call', message, hcall', hanswered, hreply⟩
    | _ => trivial

/-- Nothing happens to the requests. -/
theorem RequestStep.of_eq (hcalls : s'.calls = s.calls) (hphase : s'.phase = s.phase) :
    RequestStep s s' where
  grows := .of_eq (by rw [hcalls])
  sound h := by rwa [hcalls]
  held h := by rwa [hcalls]
  made _ := by rw [hcalls]
  phase _ := .inl (by rw [hphase])

theorem reply_error {method : String} {message : Members} {failure : RpcFailure}
    (h : reply method message = .error failure) :
    failure = .rpc method (message.get "error") ∧ hasMember message "error" = true := by
  rw [reply] at h
  split_ifs at h with herror
  exact ⟨(Except.error.inj h).symm, herror⟩

theorem justified_outcome {call : Call RpcRequest Members FutureFailure} {phase : RequestPhase}
    (hcall : s.calls.calls[n]? = some call) (h : RpcSession.outcome call = some phase) :
    phase.Justified s.calls n := by
  rw [RpcSession.outcome] at h
  split at h
  · cases h
  · obtain rfl := Option.some.inj h
    trivial
  · rename_i message hfuture
    obtain rfl := Option.some.inj h
    cases hreply : reply call.tag.method message with
    | ok value => exact ⟨call, message, hcall, hfuture, hreply⟩
    | error failure =>
      obtain ⟨rfl, -⟩ := reply_error hreply
      exact ⟨call, message, hcall, hfuture, hreply⟩

theorem onWrite_eq {done : Bool} {phase : RequestPhase}
    (h : s.onWrite n done phase = some s') :
    s'.calls = s.calls ∧ s'.phase = Function.update s.phase n phase ∧
      ∃ call, s.calls.calls[n]? = some call := by
  rw [RpcSession.onWrite] at h
  split at h
  · rename_i call _ hcall
    obtain rfl := Option.some.inj h
    exact ⟨rfl, rfl, call, hcall⟩
  · cases h

theorem onWait_eq {next : Call RpcRequest Members FutureFailure → Option RpcSession}
    (h : s.onWait n next = some s') :
    ∃ call, s.calls.calls[n]? = some call ∧ next call = some s' := by
  rw [RpcSession.onWait] at h
  split at h
  · exact Option.bind_eq_some_iff.mp h
  · cases h

/-- One request goes on, and its phase is justified. -/
theorem RequestStep.of_update {phase : RequestPhase} (hgrows : Calls.Grows s.calls s'.calls)
    (hsound : s.calls.Sound responseTo → s'.calls.Sound responseTo)
    (hheld : s.calls.Held → s'.calls.Held)
    (hmade : s.closed = true → s'.calls.calls.length = s.calls.calls.length)
    (hphase : s'.phase = Function.update s.phase n phase)
    (hjustified : phase.Justified s'.calls n) : RequestStep s s' where
  grows := hgrows
  sound := hsound
  held := hheld
  made := hmade
  phase k := by
    rw [hphase]
    by_cases hk : k = n
    · obtain rfl := hk
      rw [Function.update_self]
      exact .inr hjustified
    · exact .inl (Function.update_of_ne hk ..)

theorem RequestStep.of_phase {phase : RequestPhase} (hcalls : s'.calls = s.calls)
    (hphase : s'.phase = Function.update s.phase n phase)
    (hjustified : phase.Justified s.calls n) : RequestStep s s' :=
  .of_update (.of_eq (by rw [hcalls])) (fun h => by rwa [hcalls]) (fun h => by rwa [hcalls])
    (fun _ => by rw [hcalls]) hphase (by rwa [hcalls])

/-- **What a step does to the requests.** -/
theorem requestStep (h : s.act hasHandler a = some s') : RequestStep s s' := by
  cases a with
  | request r =>
    rw [RpcSession.act] at h
    split_ifs at h with hclosed
    · obtain rfl := Option.some.inj h
      exact .of_eq rfl rfl
    · obtain rfl := Option.some.inj h
      exact .of_update Calls.grows_make (fun h => h.make) (fun h => h.make)
        (fun hc => absurd hc hclosed) rfl ⟨_, Calls.getElem?_make⟩
  | written n =>
    obtain ⟨hcalls, hphase, hcall⟩ := onWrite_eq h
    exact .of_phase hcalls hphase hcall
  | writeFails n done failure =>
    obtain ⟨hcalls, hphase, -⟩ := onWrite_eq h
    exact .of_phase hcalls hphase trivial
  | settled n =>
    obtain ⟨call, hcall, h⟩ := onWait_eq h
    obtain ⟨phase, hphase, rfl⟩ := Option.map_eq_some_iff.mp h
    exact .of_phase rfl rfl (justified_outcome hcall hphase)
  | timeout n =>
    obtain ⟨call, -, h⟩ := onWait_eq h
    obtain rfl := Option.some.inj h
    exact .of_update Calls.grows_fail (fun h => h.fail) (fun h => h.fail)
      (fun _ => Calls.length_fail) rfl trivial
  | cancel n =>
    obtain ⟨call, -, h⟩ := onWait_eq h
    obtain rfl := Option.some.inj h
    exact .of_update Calls.grows_settle (fun h => h.settle (fun _ => by simp) fun _ h => h)
      (fun h => h.settle (by simp)) (fun _ => Calls.length_settle) rfl trivial
  | read message =>
    rw [RpcSession.act] at h
    split at h
    · obtain rfl := Option.some.inj h
      exact ⟨Calls.grows_hear, fun h => h.hear, fun h => h.hear, fun _ => Calls.length_hear,
        fun _ => .inl rfl⟩
    · cases h
  | readerEnds failure =>
    rw [RpcSession.act] at h
    split at h
    · obtain rfl := Option.some.inj h
      exact .of_eq rfl rfl
    · cases h
  | exited error =>
    rw [RpcSession.act] at h
    split at h
    · obtain rfl := Option.some.inj h
      exact ⟨Calls.grows_failAll, fun h => h.failAll, fun h => h.failAll,
        fun _ => Calls.length_failAll, fun _ => .inl rfl⟩
    · cases h
  | readerCancelled =>
    rw [RpcSession.act] at h
    split at h
    · obtain rfl := Option.some.inj h
      exact .of_eq rfl rfl
    · obtain rfl := Option.some.inj h
      exact .of_eq rfl rfl
    · cases h
  | server k a =>
    rw [RpcSession.act] at h
    split at h
    · cases h
    · obtain ⟨t, -, rfl⟩ := Option.map_eq_some_iff.mp h
      exact .of_eq rfl rfl
  | close =>
    rw [RpcSession.act] at h
    split_ifs at h
    · obtain rfl := Option.some.inj h
      exact .of_eq rfl rfl
    · obtain rfl := Option.some.inj h
      exact .of_eq rfl rfl
  | closeTasks =>
    rw [RpcSession.act] at h
    split at h
    · split_ifs at h
      obtain rfl := Option.some.inj h
      exact .of_eq rfl rfl
    · cases h
  | closeProcess =>
    rw [RpcSession.act] at h
    split at h
    · obtain rfl := Option.some.inj h
      exact .of_eq rfl rfl
    · cases h
  | closeReader =>
    rw [RpcSession.act] at h
    split at h
    · obtain rfl := Option.some.inj h
      exact ⟨Calls.grows_failAll, fun h => h.failAll, fun h => h.failAll,
        fun _ => Calls.length_failAll, fun _ => .inl rfl⟩
    · cases h
  | closeFails =>
    rw [RpcSession.act] at h
    split at h
    · obtain rfl := Option.some.inj h
      exact .of_eq rfl rfl
    · cases h

/-- What holds of the requests in every state. -/
structure RpcSession.Sound (s : RpcSession) : Prop where
  calls : s.calls.Sound responseTo
  held : s.calls.Held
  phase : ∀ n, (s.phase n).Justified s.calls n

theorem RpcSession.Sound.step (hs : s.Sound) (h : RequestStep s s') : s'.Sound where
  calls := h.sound hs.calls
  held := h.held hs.held
  phase n := by
    rcases h.phase n with hsame | hnew
    · rw [hsame]
      exact (hs.phase n).grows h.grows
    · exact hnew

theorem sound_start : rpcStart.Sound where
  calls := Calls.sound_empty
  held := Calls.held_empty
  phase _ := trivial

theorem sound_run {as : List RpcAction}
    (hrun : Machine.run (RpcSession.act · hasHandler) s as = some w) (hs : s.Sound) : w.Sound :=
  Machine.run_keeps (fun _ _ _ hs h => RpcSession.Sound.step hs (requestStep h)) hrun hs

end Requests

/-! ## What a request returns -/

/-- **A request returns the result, or raises the error, of the first response with its id that is
read after it was made.** -/
theorem request_answered {hasHandler : Bool} {as : List RpcAction} {w : RpcSession}
    (hrun : Machine.run (RpcSession.act · hasHandler) rpcStart as = some w) (n : ℕ) :
    (∀ value, w.phase n = .returned value → ∃ call message, w.calls.calls[n]? = some call ∧
      Calls.First responseTo n message (w.calls.heard.drop call.since) ∧
      hasMember message "error" = false ∧ value = message.get "result") ∧
    ∀ method error, w.phase n = .raised (.rpc method error) → ∃ call message,
      w.calls.calls[n]? = some call ∧ call.tag.method = method ∧
      Calls.First responseTo n message (w.calls.heard.drop call.since) ∧
      hasMember message "error" = true ∧ error = message.get "error" := by
  have hsound := sound_run hrun sound_start
  have hjustified := hsound.phase n
  refine ⟨fun value hphase => ?_, fun method error hphase => ?_⟩
  · rw [hphase] at hjustified
    obtain ⟨call, message, hcall, hanswered, hreply⟩ := hjustified
    refine ⟨call, message, hcall, (hsound.calls n call hcall).answered message hanswered, ?_⟩
    rw [reply] at hreply
    split_ifs at hreply with herror
    exact ⟨Bool.eq_false_iff.mpr herror, (Except.ok.inj hreply).symm⟩
  · rw [hphase] at hjustified
    obtain ⟨call, message, hcall, hanswered, hreply⟩ := hjustified
    obtain ⟨hfailure, herror⟩ := reply_error hreply
    obtain ⟨hmethod, herrors⟩ := RpcFailure.rpc.inj hfailure
    exact ⟨call, message, hcall, hmethod.symm,
      (hsound.calls n call hcall).answered message hanswered, herror, herrors⟩

/-! ## A session -/

/-- The text that a request has returned. -/
def RequestPhase.text? : RequestPhase → Option String
  | .returned value => SandboxApi.text? value
  | _ => none

theorem exists_returned {phase : RequestPhase} {text : String} (h : phase.text? = some text) :
    ∃ value, phase = .returned value ∧ SandboxApi.text? value = some text := by
  cases phase with
  | returned value => exact ⟨value, rfl, h⟩
  | _ => cases h

/-- The answer of the app-server to a request. -/
def response (id : Json) (result : String) : Members := [("id", id), ("result", .str result)]

/-- Two requests are answered, the second one first; a response without a request is passed over, as
is the second response to one. -/
def answeredRun : List RpcAction :=
  [.request ⟨"thread/start", []⟩, .request ⟨"turn/start", []⟩, .written 1, .written 0,
    .read (response (.int 7) "late"), .read (response (.int 2) "turn"),
    .read (response (.int 2) "again"), .settled 1, .read [("method", .str "turn/started")],
    .read (response (.bool true) "thread"), .settled 0]

theorem run_answered : ∃ w, Machine.run (RpcSession.act · true) rpcStart answeredRun = some w ∧
    (w.phase 0).text? = some "thread" ∧ (w.phase 1).text? = some "turn" := by
  have htexts : (Machine.run (RpcSession.act · true) rpcStart answeredRun).map
      (fun w => ((w.phase 0).text?, (w.phase 1).text?)) = some (some "thread", some "turn") := by
    decide +kernel
  obtain ⟨w, hrun, htexts⟩ := Option.map_eq_some_iff.mp htexts
  exact ⟨w, hrun, (Prod.mk.inj htexts).1, (Prod.mk.inj htexts).2⟩

theorem request_answered_second : ∃ w value call message,
    Machine.run (RpcSession.act · true) rpcStart answeredRun = some w ∧
      w.phase 1 = .returned value ∧ w.calls.calls[1]? = some call ∧
      Calls.First responseTo 1 message (w.calls.heard.drop call.since) ∧
      value = message.get "result" := by
  obtain ⟨w, hrun, -, hturn⟩ := run_answered
  obtain ⟨value, hphase, -⟩ := exists_returned hturn
  obtain ⟨call, message, hcall, hfirst, -, hvalue⟩ := (request_answered hrun 1).1 value hphase
  exact ⟨w, value, call, message, hrun, hphase, hcall, hfirst, hvalue⟩

end CodexGateway.Worker
