import CodexGateway.Library.Pool
import CodexGateway.Manager.State

/-!
# Adapter/Executions — permits, the active table, and the life of an execution

`_start` takes a permit, prepares the turn over many awaited calls, and hands the permit over to the
driver in the step that registers the execution.  The driver's `finally` block settles the lease
task, reports the terminal event, and cleans up.  Between two awaited calls nothing else runs, so a
step is the outcome of one awaited call with the code up to the next one: the store, the
subscribers and the state of the MCP Apps are only ever held across code without an await.

The driver's loop is one call here; its steps are `Adapter/Driver`'s.
-/

namespace CodexGateway.Adapter

/-- What an awaited call raises, or the code makes of a value it refuses: an `httpx.HTTPError`,
another `Exception`, or a `BaseException` that is none, as `asyncio.CancelledError` is. -/
inductive Raised where
  | httpError
  | exception
  | base
deriving DecidableEq

/-- A Sandbox as the Manager tells of it. -/
structure SandboxInfo where
  id : String
  status : Manager.SandboxStatus
  worker : Bool
  workspaceId : Option String
  recoverable : Bool

/-- `sandbox.status == "running" and sandbox.worker is not None` -/
def SandboxInfo.isRunning (sandbox : SandboxInfo) : Bool :=
  sandbox.status == .running && sandbox.worker

/-- A file operation as the Manager tells of it. -/
structure OperationInfo where
  status : Manager.OperationStatus
  workspaceId : String
  sandboxId : Option String

/-- What an awaited call returns, where the code looks at it. -/
inductive Reply where
  | workspace (id : String)
  | sandbox (info : SandboxInfo)
  | operation (info : OperationInfo)
  | value

/-- A create request, by which grants and which previous Response it comes with. -/
structure CreateRequest where
  previousResponseId : Option String
  grant : Bool
  checkoutGrant : Bool
  publishGrant : Bool
  subscribe : Bool

/-- A `ResponseRecord` of the store, by what a continuation reads. -/
structure StoredResponse where
  id : String
  sandboxId : String
  workspaceId : Option String
  workspaceRecoverable : Bool

/-- The row of an `ActiveExecution` in the active table. -/
structure ActiveEntry where
  responseId : String
  sandboxId : String
deriving DecidableEq

/-- The queue of a stream: not made, subscribed, taken out by its consumer, or ended by `None`. -/
inductive Subscription where
  | absent
  | subscribed
  | unsubscribed
  | ended
deriving DecidableEq

/-- The settings that an execution reads. -/
structure ExecutionSettings where
  maxConcurrentExecutions : ℕ
  publishCallbackUrl : Bool
  codexEphemeralThreads : Bool

/-- The awaited call an execution is at. -/
inductive ExecutionPhase where
  | acquire
  | prepare
  | authorizeWorkspace
  | inspectSandbox
  | renewSandbox
  | createSandbox
  | createOperation
  | inspectOperation
  | startThread
  | eventCursor
  | startTurn
  | terminateSandbox
  | drive
  | lease
  | notify (attempt : Fin 3)
  | refused
  | finished
  | stranded
  | lost
deriving DecidableEq

/-- The local variables of `_start`, and the `ActiveExecution` it makes. -/
structure Execution where
  request : CreateRequest
  phase : ExecutionPhase
  recordId : Option String
  previous : Option StoredResponse
  sandbox : Option SandboxInfo
  createdSandboxId : Option String
  subscription : Subscription
  terminal : Bool

/-- The service; `responses` and `sandboxes` are the ids that were ever given out. -/
structure Executions where
  permits : ℕ
  records : List StoredResponse
  active : List ActiveEntry
  responses : List String
  sandboxes : List String

/-! ## The store -/

namespace Executions

/-- `store.get` -/
def get (s : Executions) (id : String) : Option StoredResponse := s.records.find? (·.id == id)

/-- `_active.get` -/
def getActive (s : Executions) (id : String) : Option ActiveEntry :=
  s.active.find? (·.responseId == id)

/-- `store.put` -/
def put (s : Executions) (record : StoredResponse) : Executions :=
  { s with records := s.records.filter (·.id ≠ record.id) ++ [record] }

/-- The execution is written to the active table under its Response. -/
def registerActive (s : Executions) (entry : ActiveEntry) : Executions :=
  { s with active := s.active.filter (·.responseId ≠ entry.responseId) ++ [entry] }

/-- The Response is taken out of the active table. -/
def unregisterActive (s : Executions) (id : String) : Executions :=
  { s with active := s.active.filter (·.responseId ≠ id) }

/-- A permit is taken, where there is one. -/
def acquire (s : Executions) : Option Executions :=
  if 0 < s.permits then some { s with permits := s.permits - 1 } else none

/-- A permit is given back. -/
def release (s : Executions) : Executions := { s with permits := s.permits + 1 }

/-- `delete` -/
def delete (s : Executions) (id : String) : Executions :=
  if (s.getActive id).isSome then s else { s with records := s.records.filter (·.id ≠ id) }

end Executions

/-! ## One execution -/

namespace Execution

variable (settings : ExecutionSettings)

/-- The request comes in; `_validate_request` has let it pass. -/
def create (request : CreateRequest) : Execution :=
  ⟨request, .acquire, none, none, none, none, .absent, false⟩

/-- The code goes on to an awaited call. -/
def await (t : Execution) (phase : ExecutionPhase) (s : Executions) : Executions × Execution :=
  (s, { t with phase := phase })

/-- `self._semaphore.release(); raise` -/
def refuse (t : Execution) (s : Executions) : Executions × Execution :=
  (s.release, { t with phase := .refused })

/-- `except BaseException` of `_start` -/
def unwind (t : Execution) (s : Executions) : Executions × Execution :=
  match t.createdSandboxId with
  | some _ => t.await .terminateSandbox s
  | none => t.refuse s

/-- From the permit to the first awaited call. -/
def prepare (t : Execution) (s : Executions) : Executions × Execution :=
  match t.request.previousResponseId.filter (· ≠ "") with
  | none => t.await .createSandbox s
  | some id =>
    match s.get id with
    | none => t.unwind s
    | some previous =>
      let t := { t with previous := some previous }
      if (s.getActive previous.id).isSome then t.unwind s
      else if previous.sandboxId = "" then t.unwind s
      else if previous.workspaceRecoverable then
        if previous.workspaceId = none ∨ t.request.grant = false then t.unwind s
        else t.await .authorizeWorkspace s
      else if t.request.grant then t.unwind s
      else t.await .inspectSandbox s

/-- `_start_or_continue_thread`, up to its call. -/
def startThread (t : Execution) (s : Executions) : Executions × Execution :=
  if t.previous.isSome ∧ settings.codexEphemeralThreads then t.unwind s else t.await .startThread s

/-- The record is bound to the Sandbox; `_run_checkout_operation`, up to its first call. -/
def bindSandbox (t : Execution) (sandbox : SandboxInfo) (s : Executions) : Executions × Execution :=
  let t := { t with sandbox := some sandbox }
  if t.request.checkoutGrant then
    if sandbox.workspaceId = none then t.unwind s else t.await .createOperation s
  else t.startThread settings s

/-- The Manager has told of the checkout. -/
def waitOperation (t : Execution) (sandbox : SandboxInfo) (operation : OperationInfo)
    (s : Executions) : Executions × Execution :=
  if operation.status = .pending ∨ operation.status = .running then t.await .inspectOperation s
  else if operation.status ≠ .succeeded ∨ sandbox.workspaceId ≠ some operation.workspaceId ∨
    operation.sandboxId ≠ some sandbox.id then t.unwind s
  else t.startThread settings s

/-- The turn has started: the record and the execution are stored, and the driver's task exists. -/
def register (t : Execution) (id : String) (sandbox : SandboxInfo) (s : Executions) :
    Executions × Execution :=
  ((s.put ⟨id, sandbox.id, sandbox.workspaceId, sandbox.recoverable⟩).registerActive
      ⟨id, sandbox.id⟩,
    { t with
      phase := .drive
      subscription := if t.request.subscribe then .subscribed else .absent })

/-- `_cleanup` -/
def cleanup (t : Execution) (id : String) (s : Executions) : Executions × Execution :=
  ((s.unregisterActive id).release,
    { t with
      phase := .finished
      subscription := if t.subscription = .subscribed then .ended else t.subscription
      terminal := true })

/-- `_notify_terminal`, up to its first call, or past it. -/
def notify (t : Execution) (id : String) (s : Executions) : Executions × Execution :=
  if t.request.publishGrant ∧ settings.publishCallbackUrl then t.await (.notify 0) s
  else t.cleanup id s

/-- The awaited call returns.  The Manager answers about the Sandbox it is asked for, and gives a
new id to each Sandbox it makes. -/
def returns (t : Execution) (s : Executions) (reply : Reply) : Option (Executions × Execution) :=
  match t.phase, reply, t.recordId, t.previous, t.sandbox with
  | .authorizeWorkspace, .workspace id, _, some previous, _ =>
    some (if previous.workspaceId = some id then t.await .inspectSandbox s else t.unwind s)
  | .inspectSandbox, .sandbox info, _, some previous, _ =>
    if info.id = previous.sandboxId then
      some (if info.isRunning then t.await .renewSandbox s else t.unwind s)
    else none
  | .renewSandbox, .sandbox info, _, some previous, _ =>
    if info.id = previous.sandboxId then
      some (if info.isRunning ∧ info.workspaceId = previous.workspaceId then
        t.bindSandbox settings info s else t.unwind s)
    else none
  | .createSandbox, .sandbox info, _, _, _ =>
    if info.id ∈ s.sandboxes then none
    else
      let t := { t with createdSandboxId := some info.id }
      let s := { s with sandboxes := info.id :: s.sandboxes }
      some (if t.request.grant ∧ (info.recoverable = false ∨ info.workspaceId = none) then
        t.unwind s else t.bindSandbox settings info s)
  | .createOperation, .operation info, _, _, some sandbox
  | .inspectOperation, .operation info, _, _, some sandbox =>
    some (t.waitOperation settings sandbox info s)
  | .startThread, .value, _, _, _ => some (t.await .eventCursor s)
  | .eventCursor, .value, _, _, _ => some (t.await .startTurn s)
  | .startTurn, .value, some id, _, some sandbox => some (t.register id sandbox s)
  | .terminateSandbox, .value, _, _, _ => some (t.refuse s)
  | .drive, .value, _, _, _ => some (t.await .lease s)
  | .lease, .value, some id, _, _ => some (t.notify settings id s)
  | .notify _, .value, some id, _, _ => some (t.cleanup id s)
  | _, _, _, _, _ => none

/-- The awaited call raises. -/
def raises (t : Execution) (s : Executions) (error : Raised) : Option (Executions × Execution) :=
  match t.phase with
  | .acquire => some (t.await .refused s)
  | .terminateSandbox =>
    some (if error = .base then t.await .stranded s else t.refuse s)
  | .drive => some (t.await .lease s)
  | .lease =>
    -- `suppress(asyncio.CancelledError)`: the lease task has turned every `Exception` into a value.
    if error = .base then some (t.await .lost s) else none
  | .notify attempt =>
    if error = .httpError then
      if attempt = 2 then t.recordId.map fun id => t.cleanup id s
      else some (t.await (.notify (attempt + 1)) s)
    else some (t.await .lost s)
  | .refused | .finished | .stranded | .lost => none
  | _ => some (t.unwind s)

/-- A step of an execution: it takes its permit, it makes its record, a call of it returns or
raises, or the consumer of its stream leaves. -/
inductive Act where
  | acquired
  | prepared (id : String)
  | returned (reply : Reply)
  | raised (error : Raised)
  | unsubscribe

/-- What an execution does, where it can. -/
def act (s : Executions) (t : Execution) : Act → Option (Executions × Execution)
  | .acquired =>
    if t.phase = .acquire then s.acquire.map fun s => (s, { t with phase := .prepare }) else none
  | .prepared id =>
    if t.phase = .prepare ∧ id ∉ s.responses then
      some ({ t with recordId := some id }.prepare { s with responses := id :: s.responses })
    else none
  | .returned reply => t.returns settings s reply
  | .raised error => t.raises s error
  | .unsubscribe =>
    if t.subscription = .subscribed then some (s, { t with subscription := .unsubscribed })
    else none

end Execution

/-- What reaches the service from outside. -/
inductive ServiceEvent where
  | create (request : CreateRequest)
  | delete (id : String)

/-- A request starts an execution, and a deletion is done at once. -/
def serviceEvent (s : Executions) : ServiceEvent → Option (Executions × List Execution)
  | .create request => some (s, [Execution.create request])
  | .delete id => some (s.delete id, [])

/-- The executions of a service. -/
def service (settings : ExecutionSettings) :
    Pool.Program Executions Execution Execution.Act ServiceEvent :=
  ⟨Execution.act settings, serviceEvent⟩

/-- The executions with what they share. -/
abbrev Service := Pool Executions Execution

/-- The service before its first request. -/
def Service.create (settings : ExecutionSettings) : Service :=
  ⟨⟨settings.maxConcurrentExecutions, [], [], [], []⟩, []⟩

/-! ## What a step does -/

namespace Execution

/-- Where an execution is between its request and its end. -/
inductive Stage where
  | waiting
  | starting
  | running
  | over
deriving DecidableEq

end Execution

/-- The stage of each awaited call. -/
def ExecutionPhase.stage : ExecutionPhase → Execution.Stage
  | .acquire => .waiting
  | .prepare | .authorizeWorkspace | .inspectSandbox | .renewSandbox | .createSandbox
  | .createOperation | .inspectOperation | .startThread | .eventCursor | .startTurn
  | .terminateSandbox => .starting
  | .drive | .lease | .notify _ | .lost => .running
  | .refused | .finished | .stranded => .over

namespace Execution

variable {settings : ExecutionSettings} {s s' : Executions} {t t' : Execution}

/-- The stage an execution is in. -/
abbrev stage (t : Execution) : Stage := t.phase.stage

/-- The Sandbox an execution works with, from the check of its previous Response on. -/
def sandboxId? (t : Execution) : Option String :=
  match t.phase with
  | .authorizeWorkspace | .inspectSandbox | .renewSandbox => t.previous.map (·.sandboxId)
  | .createOperation | .inspectOperation | .startThread | .eventCursor | .startTurn
  | .drive | .lease | .notify _ | .lost => t.sandbox.map (·.id)
  | _ => none

/-- The code of `_start` up to an awaited call: it awaits it, with no Sandbox but the one in hand,
or it gives the permit back. -/
inductive Proceeds (s : Executions) (t : Execution) (sandboxId : Option String) :
    Executions × Execution → Prop
  | awaits {t' : Execution} (stage : t'.stage = .starting) (recordId : t'.recordId = t.recordId)
      (subscription : t'.subscription = t.subscription)
      (sandbox : ∀ k, t'.sandboxId? = some k → sandboxId = some k) :
      Proceeds s t sandboxId (s, t')
  | refuses {t' : Execution} (phase : t'.phase = .refused) (recordId : t'.recordId = t.recordId) :
      Proceeds s t sandboxId (s.release, t')

theorem Proceeds.congr {k : Option String} {r : Executions × Execution} (h : Proceeds s t' k r)
    (hid : t'.recordId = t.recordId) (hsub : t'.subscription = t.subscription) :
    Proceeds s t k r := by
  cases h with
  | awaits hstage hrecord hsubscription hk =>
    exact .awaits hstage (hrecord.trans hid) (hsubscription.trans hsub) hk
  | refuses hphase hrecord => exact .refuses hphase (hrecord.trans hid)

/-- The next call is awaited. -/
theorem proceeds_await (s : Executions) (t : Execution) (phase : ExecutionPhase) {k : Option String}
    (hstage : phase.stage = .starting)
    (hk : ∀ sandboxId, sandboxId? { t with phase := phase } = some sandboxId → k = some sandboxId) :
    Proceeds s t k (t.await phase s) :=
  .awaits hstage rfl rfl hk

theorem proceeds_unwind (s : Executions) (t : Execution) (k : Option String) :
    Proceeds s t k (t.unwind s) := by
  unfold unwind
  cases t.createdSandboxId with
  | some _ => exact proceeds_await s t .terminateSandbox rfl nofun
  | none => exact .refuses rfl rfl

theorem proceeds_startThread (settings : ExecutionSettings) (s : Executions) (t : Execution) :
    Proceeds s t (t.sandbox.map (·.id)) (t.startThread settings s) := by
  unfold startThread
  split_ifs
  · exact proceeds_unwind s t _
  · exact proceeds_await s t .startThread rfl fun _ hk => hk

theorem proceeds_bindSandbox (settings : ExecutionSettings) (s : Executions) (t : Execution)
    (sandbox : SandboxInfo) :
    Proceeds s t (some sandbox.id) (t.bindSandbox settings sandbox s) := by
  unfold bindSandbox
  dsimp only
  split_ifs
  · exact (proceeds_unwind s _ _).congr rfl rfl
  · exact (proceeds_await s { t with sandbox := some sandbox } .createOperation rfl
      fun _ hk => hk).congr rfl rfl
  · exact (proceeds_startThread settings s { t with sandbox := some sandbox }).congr rfl rfl

theorem proceeds_waitOperation (settings : ExecutionSettings) (s : Executions) (t : Execution)
    {sandbox : SandboxInfo} (hsandbox : t.sandbox = some sandbox) (operation : OperationInfo) :
    Proceeds s t (some sandbox.id) (t.waitOperation settings sandbox operation s) := by
  have hthread := proceeds_startThread settings s t
  rw [hsandbox] at hthread
  unfold waitOperation
  split_ifs
  · exact .awaits rfl rfl rfl fun k hk => by simpa [sandboxId?, await, hsandbox] using hk
  · exact proceeds_unwind s t _
  · exact hthread

/-- The Response a request continues, as the checks of `_start` have found it. -/
structure Continues (s : Executions) (t : Execution) (previous : StoredResponse) : Prop where
  found : ∃ id, t.request.previousResponseId = some id ∧ s.get id = some previous
  idle : s.getActive previous.id = none

theorem proceeds_prepare (s : Executions) (t : Execution) :
    ∃ k, Proceeds s t k (t.prepare s) ∧
      ∀ sandboxId, k = some sandboxId → ∃ previous, Continues s t previous ∧
        previous.sandboxId = sandboxId := by
  have hnone {r : Executions × Execution} (h : Proceeds s t none r) : ∃ k, Proceeds s t k r ∧
      ∀ sandboxId, k = some sandboxId → ∃ previous, Continues s t previous ∧
        previous.sandboxId = sandboxId := ⟨none, h, fun _ hk => nomatch hk⟩
  unfold prepare
  split
  · exact hnone (proceeds_await s t .createSandbox rfl fun _ hk => nomatch hk)
  · rename_i id hid
    split
    · exact hnone (proceeds_unwind s t none)
    · rename_i previous hget
      have hunwind := hnone
        ((proceeds_unwind s { t with previous := some previous } none).congr rfl rfl)
      have hcall (phase : ExecutionPhase) (hactive : ¬ (s.getActive previous.id).isSome = true)
          (h : Proceeds s { t with previous := some previous } (some previous.sandboxId)
            (await { t with previous := some previous } phase s)) :
          ∃ k, Proceeds s t k (await { t with previous := some previous } phase s) ∧
            ∀ sandboxId, k = some sandboxId → ∃ previous, Continues s t previous ∧
              previous.sandboxId = sandboxId := by
        refine ⟨_, h.congr rfl rfl, fun _ hk => ⟨previous, ⟨⟨id, ?_, hget⟩, ?_⟩, ?_⟩⟩
        · exact (Option.filter_eq_some_iff.mp hid).1
        · simpa using hactive
        · exact Option.some.inj hk
      dsimp only
      split_ifs with hactive
      · exact hunwind
      · exact hunwind
      · exact hunwind
      · exact hcall .authorizeWorkspace hactive (proceeds_await s _ _ rfl fun _ hk => hk)
      · exact hunwind
      · exact hcall .inspectSandbox hactive (proceeds_await s _ _ rfl fun _ hk => hk)

/-- **Everything a step of an execution can do.** -/
inductive Step (s : Executions) (t : Execution) : Act → Executions → Execution → Prop
  | acquired (phase : t.phase = .acquire) (permits : 0 < s.permits) :
      Step s t .acquired { s with permits := s.permits - 1 } { t with phase := .prepare }
  | rejected {error : Raised} (phase : t.phase = .acquire) :
      Step s t (.raised error) s { t with phase := .refused }
  | prepared {id : String} {k : Option String} {r : Executions × Execution}
      (phase : t.phase = .prepare) (fresh : id ∉ s.responses)
      (sandbox : ∀ sandboxId, k = some sandboxId → ∃ previous, Continues s t previous ∧
        previous.sandboxId = sandboxId)
      (proceeds : Proceeds { s with responses := id :: s.responses }
        { t with recordId := some id } k r) : Step s t (.prepared id) r.1 r.2
  | created {info : SandboxInfo} {r : Executions × Execution} (phase : t.phase = .createSandbox)
      (fresh : info.id ∉ s.sandboxes)
      (proceeds : Proceeds { s with sandboxes := info.id :: s.sandboxes } t (some info.id) r) :
      Step s t (.returned (.sandbox info)) r.1 r.2
  | proceeded {a : Act} {r : Executions × Execution} (stage : t.stage = .starting)
      (act : ∀ id, a ≠ .prepared id) (proceeds : Proceeds s t t.sandboxId? r) : Step s t a r.1 r.2
  | stranded (phase : t.phase = .terminateSandbox) :
      Step s t (.raised .base) s { t with phase := .stranded }
  | registered {id : String} {sandbox : SandboxInfo} (phase : t.phase = .startTurn)
      (recordId : t.recordId = some id) (sandbox_eq : t.sandbox = some sandbox) :
      Step s t (.returned .value) (t.register id sandbox s).1 (t.register id sandbox s).2
  | ran {a : Act} {phase : ExecutionPhase} (stage : t.stage = .running)
      (stage' : phase.stage = .running) (lost : phase = .lost → ∃ error, a = .raised error ∧
        (t.phase = .lease ∧ error = .base ∨ ∃ k, t.phase = .notify k ∧ error ≠ .httpError)) :
      Step s t a s { t with phase := phase }
  | finished {a : Act} {id : String} (stage : t.stage = .running)
      (recordId : t.recordId = some id) :
      Step s t a (t.cleanup id s).1 (t.cleanup id s).2
  | unsubscribed (subscription : t.subscription = .subscribed) :
      Step s t .unsubscribe s { t with subscription := .unsubscribed }

/-- A call of `_start` is over, and the code goes on to the next. -/
theorem step_proceeded {a : Act} {k : Option String} {r : Executions × Execution}
    (hstage : t.stage = .starting) (ha : ∀ id, a ≠ .prepared id) (hk : t.sandboxId? = k)
    (h : Proceeds s t k r) : Step s t a r.1 r.2 := .proceeded hstage ha (hk ▸ h)

theorem step_returned {reply : Reply} {r : Executions × Execution}
    (h : t.returns settings s reply = some r) : Step s t (.returned reply) r.1 r.2 := by
  have hprepared (id : String) : Act.returned reply ≠ .prepared id := nofun
  unfold returns at h
  split at h
  · rename_i previous hphase hprevious
    obtain rfl := Option.some.inj h
    have hk : t.sandboxId? = some previous.sandboxId := by
      rw [sandboxId?, hphase, hprevious, Option.map_some]
    refine step_proceeded (by rw [stage, hphase]; rfl) hprepared hk ?_
    split_ifs
    · exact proceeds_await s t _ rfl fun _ h => by simpa [sandboxId?, hprevious] using h
    · exact proceeds_unwind s t _
  · rename_i previous hphase hprevious
    obtain ⟨hid, h⟩ := Option.ite_none_right_eq_some.mp h
    obtain rfl := Option.some.inj h
    have hk : t.sandboxId? = some previous.sandboxId := by
      rw [sandboxId?, hphase, hprevious, Option.map_some]
    refine step_proceeded (by rw [stage, hphase]; rfl) hprepared hk ?_
    split_ifs
    · exact proceeds_await s t _ rfl fun _ h => by simpa [sandboxId?, hprevious] using h
    · exact proceeds_unwind s t _
  · rename_i info previous hphase hprevious
    obtain ⟨hid, h⟩ := Option.ite_none_right_eq_some.mp h
    obtain rfl := Option.some.inj h
    have hk : t.sandboxId? = some info.id := by
      rw [sandboxId?, hphase, hprevious, Option.map_some, hid]
    refine step_proceeded (by rw [stage, hphase]; rfl) hprepared hk ?_
    split_ifs
    · exact proceeds_bindSandbox settings s t info
    · exact proceeds_unwind s t _
  · rename_i info hphase
    obtain ⟨hfresh, h⟩ := Option.ite_none_left_eq_some.mp h
    obtain rfl := Option.some.inj h
    refine .created hphase hfresh ?_
    split_ifs
    · exact (proceeds_unwind _ { t with createdSandboxId := some info.id } _).congr rfl rfl
    · exact (proceeds_bindSandbox settings _ { t with createdSandboxId := some info.id } info).congr
        rfl rfl
  · rename_i info sandbox hphase hsandbox
    obtain rfl := Option.some.inj h
    have hk : t.sandboxId? = some sandbox.id := by
      rw [sandboxId?, hphase, hsandbox, Option.map_some]
    exact step_proceeded (by rw [stage, hphase]; rfl) hprepared hk
      (proceeds_waitOperation settings s t hsandbox info)
  · rename_i info sandbox hphase hsandbox
    obtain rfl := Option.some.inj h
    have hk : t.sandboxId? = some sandbox.id := by
      rw [sandboxId?, hphase, hsandbox, Option.map_some]
    exact step_proceeded (by rw [stage, hphase]; rfl) hprepared hk
      (proceeds_waitOperation settings s t hsandbox info)
  · rename_i hphase
    obtain rfl := Option.some.inj h
    have hk : t.sandboxId? = t.sandbox.map (·.id) := by rw [sandboxId?, hphase]
    exact step_proceeded (by rw [stage, hphase]; rfl) hprepared hk
      (proceeds_await s t .eventCursor rfl fun _ h => h)
  · rename_i hphase
    obtain rfl := Option.some.inj h
    have hk : t.sandboxId? = t.sandbox.map (·.id) := by rw [sandboxId?, hphase]
    exact step_proceeded (by rw [stage, hphase]; rfl) hprepared hk
      (proceeds_await s t .startTurn rfl fun _ h => h)
  · rename_i id sandbox hphase hid hsandbox
    obtain rfl := Option.some.inj h
    exact .registered hphase hid hsandbox
  · rename_i hphase
    obtain rfl := Option.some.inj h
    exact step_proceeded (by rw [stage, hphase]; rfl) hprepared rfl (.refuses rfl rfl)
  · rename_i hphase
    obtain rfl := Option.some.inj h
    exact .ran (by rw [stage, hphase]; rfl) rfl nofun
  · rename_i id hphase hid
    obtain rfl := Option.some.inj h
    have hstage : t.stage = .running := by rw [stage, hphase]; rfl
    unfold notify
    split_ifs
    · exact .ran hstage rfl nofun
    · exact .finished hstage hid
  · rename_i id hphase hid
    obtain rfl := Option.some.inj h
    exact .finished (by rw [stage, hphase]; rfl) hid
  · cases h

theorem step_raised {error : Raised} {r : Executions × Execution}
    (h : t.raises s error = some r) : Step s t (.raised error) r.1 r.2 := by
  have hprepared (id : String) : Act.raised error ≠ .prepared id := nofun
  unfold raises at h
  split at h
  · rename_i hphase
    obtain rfl := Option.some.inj h
    exact .rejected hphase
  · rename_i hphase
    obtain rfl := Option.some.inj h
    split_ifs with hbase
    · exact hbase ▸ .stranded hphase
    · exact step_proceeded (by rw [stage, hphase]; rfl) hprepared rfl (.refuses rfl rfl)
  · rename_i hphase
    obtain rfl := Option.some.inj h
    exact .ran (by rw [stage, hphase]; rfl) rfl nofun
  · rename_i hphase
    split_ifs at h with hbase
    obtain rfl := Option.some.inj h
    exact .ran (by rw [stage, hphase]; rfl) rfl fun _ => ⟨error, rfl, .inl ⟨hphase, hbase⟩⟩
  · rename_i attempt hphase
    have hstage : t.stage = .running := by rw [stage, hphase]; rfl
    split_ifs at h with herror hattempt
    · obtain ⟨id, hid, rfl⟩ := Option.map_eq_some_iff.mp h
      exact .finished hstage hid
    · obtain rfl := Option.some.inj h
      exact .ran hstage rfl nofun
    · obtain rfl := Option.some.inj h
      exact .ran hstage rfl fun _ => ⟨error, rfl, .inr ⟨attempt, hphase, herror⟩⟩
  · cases h
  · cases h
  · cases h
  · cases h
  · obtain rfl := Option.some.inj h
    refine step_proceeded ?_ hprepared rfl (proceeds_unwind s t _)
    cases hphase : t.phase <;> simp_all [stage, ExecutionPhase.stage]

theorem step_of_act {a : Act} (h : act settings s t a = some (s', t')) : Step s t a s' t' := by
  cases a with
  | acquired =>
    simp only [act] at h
    split_ifs at h with hphase
    obtain ⟨s₁, hs₁, heq⟩ := Option.map_eq_some_iff.mp h
    unfold Executions.acquire at hs₁
    split_ifs at hs₁ with hpermits
    cases hs₁
    cases heq
    exact .acquired hphase hpermits
  | prepared id =>
    simp only [act] at h
    split_ifs at h with hphase
    obtain ⟨k, hproceeds, hk⟩ := proceeds_prepare { s with responses := id :: s.responses }
      { t with recordId := some id }
    rw [Option.some.inj h] at hproceeds
    refine .prepared hphase.1 hphase.2 (fun sandboxId h => ?_) hproceeds
    obtain ⟨previous, ⟨hfound, hidle⟩, heq⟩ := hk sandboxId h
    exact ⟨previous, ⟨hfound, hidle⟩, heq⟩
  | returned reply => exact step_returned h
  | raised error => exact step_raised h
  | unsubscribe =>
    simp only [act] at h
    split_ifs at h with hsub
    cases h
    exact .unsubscribed hsub

end Execution

end CodexGateway.Adapter
