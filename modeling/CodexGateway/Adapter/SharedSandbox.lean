import CodexGateway.Adapter.DriverFollow

/-!
# Adapter/SharedSandbox — two executions on one Sandbox

Two drivers read the events of one Worker, and each of them answers every server request it is
delivered: a request of its own turn as the interaction says, any other at once with an error.  The
first answer that reaches the Worker is the answer.

So a request of the one turn is kept from the driver of the other by time alone: as long as it is
answered before that driver takes it up, no request is answered by the driver of another execution
(`no_foreign_answer`).
-/

namespace CodexGateway.Adapter

open PyJson Worker

/-- The server request a driver works on, before its answer reaches the Worker. -/
def Phase.request? : Phase → Option (AgentEvent × String)
  | .interacting event requestId | .resolving event requestId _ => some (event, requestId)
  | _ => none

namespace Driver

/-- The parameters and the id of a server request. -/
def requestParams (event : AgentEvent) : Members :=
  (dict? (Members.get event.data.members "params")).getD []

/-- The id that the answer to a server request has to name. -/
def requestToken (event : AgentEvent) : Option String :=
  requestId? (Members.get event.data.members "request_id")

/-- The server request belongs to the execution of this driver. -/
def owns (s : Driver) (event : AgentEvent) : Bool :=
  s.belongsToExecution [("params", .obj (requestParams event))]

/-! ## What a step leaves alone -/

/-- The same execution and the same Worker, and no server request at work. -/
structure Idle (s s' : Driver) : Prop where
  threadId : s'.threadId = s.threadId
  turnId : s'.turnId = s.turnId
  runtime : s'.runtime = s.runtime
  request : s'.phase.request? = none

variable {s s' m : Driver} {event : AgentEvent}

/-- An exception answers nothing. -/
theorem idle_raise (s : Driver) (error : DriverError) : Idle s (s.raise error) := by
  cases error <;> exact ⟨rfl, rfl, rfl, rfl⟩

/-- An exception of the inner block answers nothing. -/
theorem idle_raiseInner (s : Driver) (error : DriverError) : Idle s (s.raiseInner error) := by
  cases error with
  | upstream message =>
    simp only [raiseInner]
    split
    · exact idle_raise s _
    · split_ifs
      · exact idle_raise s _
      · exact ⟨rfl, rfl, rfl, rfl⟩
  | terminal message => exact idle_raise s (.terminal message)
  | timeout => exact idle_raise s .timeout
  | other => exact idle_raise s .other

/-- The next event answers nothing. -/
theorem idle_advance (s : Driver) (event : AgentEvent) : Idle s (s.advance event) := by
  refine ⟨rfl, rfl, rfl, ?_⟩
  simp only [advance]
  split_ifs <;> rfl

/-- The loop goes on without an answer. -/
theorem idle_loop (s : Driver) : Idle s s.loop := by
  refine ⟨rfl, rfl, rfl, ?_⟩
  simp only [loop]
  split_ifs <;> rfl

/-- Events that are published answer nothing. -/
theorem idle_publishResponseEvents (event : AgentEvent) (todo : List Event) (s : Driver)
    (bound : List Event) : Idle s (s.publishResponseEvents event bound todo) := by
  induction todo generalizing bound with
  | nil =>
    simp only [publishResponseEvents]
    split_ifs
    · exact ⟨rfl, rfl, rfl, rfl⟩
    · obtain ⟨hthread, hturn, hruntime, hrequest⟩ :=
        idle_advance { s with queue := s.queue ++ bound.map some } event
      exact ⟨hthread, hturn, hruntime, hrequest⟩
  | cons current todo ih =>
    simp only [publishResponseEvents]
    split_ifs
    · exact ⟨rfl, rfl, rfl, rfl⟩
    · exact ih (bound ++ [current])

/-- A notification answers nothing. -/
theorem idle_handleNotification (s : Driver) (event : AgentEvent) :
    Idle s (s.handleNotification event) := by
  simp only [handleNotification]
  split_ifs
  · obtain ⟨hthread, hturn, hruntime, hrequest⟩ := idle_publishResponseEvents event
      (ResponsesEventBuilder.consume event.data.members s.builder).1
      { s with
        builder := (ResponsesEventBuilder.consume event.data.members s.builder).2
        consumed := s.consumed ++ [event.id] } []
    exact ⟨hthread, hturn, hruntime, hrequest⟩
  · exact idle_advance s event

/-- The driver has taken up the server request: to ask if it is its own, else to refuse it. -/
structure Takes (s : Driver) (event : AgentEvent) (s' : Driver) : Prop where
  threadId : s'.threadId = s.threadId
  turnId : s'.turnId = s.turnId
  runtime : s'.runtime = s.runtime
  request : ∀ e requestId, s'.phase.request? = some (e, requestId) →
    e = event ∧ requestToken event = some requestId
  own : ∀ e requestId, s'.phase = .interacting e requestId → s.owns event = true

/-- A driver that answers nothing is at no answer. -/
theorem Idle.not_request (h : Idle s s') {r : AgentEvent × String} :
    s'.phase.request? ≠ some r := by
  rw [h.request]
  exact nofun

/-- A driver that answers nothing waits for no form. -/
theorem Idle.not_interacting (h : Idle s s') {e : AgentEvent} {requestId : String} :
    s'.phase ≠ .interacting e requestId := fun hphase =>
  h.not_request (by rw [hphase, Phase.request?])

/-- A driver that answers nothing has taken no request. -/
theorem Idle.takes (h : Idle s s') : Takes s event s' :=
  ⟨h.threadId, h.turnId, h.runtime, fun _ _ hr => absurd hr h.not_request,
    fun _ _ hphase => absurd hphase h.not_interacting⟩

/-- A server request is taken by its driver. -/
theorem takes_handleAgentServerRequest (s : Driver) (event : AgentEvent) :
    Takes s event (s.handleAgentServerRequest event) := by
  simp only [handleAgentServerRequest]
  split
  · rename_i requestId method hid hmethod
    have hrequest (e : AgentEvent) (token : String) (h : some (event, requestId) = some (e, token)) :
        e = event ∧ requestToken event = some token := by
      obtain ⟨rfl, rfl⟩ := Prod.mk.inj (Option.some.inj h)
      exact ⟨rfl, hid⟩
    split_ifs with hforeign
    · exact ⟨rfl, rfl, rfl, hrequest, fun _ _ hphase => by cases hphase⟩
    · split
      · exact ⟨rfl, rfl, rfl, hrequest, fun _ _ hphase => by cases hphase⟩
      · exact ⟨rfl, rfl, rfl, hrequest, fun _ _ _ => by simpa [owns, requestParams] using hforeign⟩
  · exact (idle_raiseInner s _).takes

/-- An event is taken, or answers nothing. -/
theorem takes_handle (s : Driver) (event : AgentEvent) : Takes s event (s.handle event) := by
  simp only [handle]
  split
  · exact (idle_raise s _).takes
  · split_ifs
    · exact (idle_raise s _).takes
    · split
      · exact takes_handleAgentServerRequest s event
      · exact (idle_raise s _).takes
      · exact (idle_handleNotification s event).takes

/-- The scope of an event answers nothing. -/
theorem idle_bind (current : Event) (tools : List String) (event : AgentEvent) (bound : List Event)
    (todo : List Event) : Idle s ((s.bindAppSession current tools).2.publishResponseEvents event
      bound todo) := by
  obtain ⟨hthread, hturn, hruntime, hrequest⟩ :=
    idle_publishResponseEvents event todo (s.bindAppSession current tools).2 bound
  have hsame : (s.bindAppSession current tools).2.threadId = s.threadId ∧
      (s.bindAppSession current tools).2.turnId = s.turnId ∧
      (s.bindAppSession current tools).2.runtime = s.runtime := by
    rw [bindAppSession]
    split <;> exact ⟨rfl, rfl, rfl⟩
  exact ⟨hthread.trans hsame.1, hturn.trans hsame.2.1, hruntime.trans hsame.2.2, hrequest⟩

/-! ## The Worker's requests -/

/-- No request is pending that was not before, but the one an action of the Worker opens. -/
def NoNewPending (r r' : WorkerRuntime) (opened : Option String) : Prop :=
  ∀ token, r'.pending token = some none → r.pending token = some none ∨ opened = some token

/-- The request an action of the Worker opens. -/
def opened : Action → Option String
  | .worker (.serverRequest token _) => some token
  | _ => none

/-- An answer opens no request. -/
theorem noNewPending_resolve {r r' : WorkerRuntime} {requestId : String} {reply : ServerReply}
    {o : Option String} (h : r.resolveServerRequest requestId reply = some r') :
    NoNewPending r r' o ∧ r.pending requestId = some none := by
  unfold WorkerRuntime.resolveServerRequest at h
  split at h
  · rename_i hpending
    obtain rfl := Option.some.inj h
    refine ⟨fun token htoken => .inl ?_, hpending⟩
    by_cases heq : token = requestId
    · simp [heq] at htoken
    · simpa [heq] using htoken
  · cases h

/-- The worker opens the requests that its action says. -/
theorem noNewPending_worker {r r' : WorkerRuntime} {published : List AgentEvent}
    {action : WorkerAction} (h : r.step action = some (r', published)) :
    NoNewPending r r' (opened (.worker action)) := by
  intro token htoken
  cases action with
  | notify notification =>
    simp only [WorkerRuntime.step] at h
    split_ifs at h
    obtain ⟨rfl, -⟩ := Prod.mk.inj (Option.some.inj h)
    exact .inl htoken
  | failSession message =>
    simp only [WorkerRuntime.step] at h
    split_ifs at h
    obtain ⟨rfl, -⟩ := Prod.mk.inj (Option.some.inj h)
    exact .inl htoken
  | serverRequest other params =>
    simp only [WorkerRuntime.step] at h
    split_ifs at h
    obtain ⟨rfl, -⟩ := Prod.mk.inj (Option.some.inj h)
    by_cases heq : token = other
    · exact .inr (by rw [opened, heq])
    · exact .inl (by simpa [WorkerRuntime.publish, heq] using htoken)
  | forget other =>
    obtain ⟨rfl, -⟩ := Prod.mk.inj (Option.some.inj h)
    by_cases heq : token = other
    · simp [heq] at htoken
    · exact .inl (by simpa [heq] using htoken)
  | resolve other reply =>
    obtain ⟨r₁, hr₁, heq⟩ := Option.map_eq_some_iff.mp h
    obtain ⟨rfl, -⟩ := Prod.mk.inj heq
    exact (noNewPending_resolve hr₁).1 token htoken
  | close =>
    obtain ⟨rfl, -⟩ := Prod.mk.inj (Option.some.inj h)
    cases htoken

/-- The request waits for its answer. -/
def isPending (r : WorkerRuntime) (token : String) : Bool := (r.pending token).any (·.isNone)

/-- A request without an answer is pending. -/
theorem isPending_of {r : WorkerRuntime} {token : String} (h : r.pending token = some none) :
    isPending r token = true := by rw [isPending, h]; rfl

/-! ## What a step does to the request at work -/

/-- The execution is the same, the Worker has no request more, and the request at work is the one
before or the one just delivered. -/
structure Kept (s : Driver) (action : Action) (s' : Driver) : Prop where
  threadId : s'.threadId = s.threadId
  turnId : s'.turnId = s.turnId
  pending : NoNewPending s.runtime s'.runtime (opened action)
  request : ∀ event requestId, s'.phase.request? = some (event, requestId) →
    s.phase.request? = some (event, requestId) ∨
      action = .deliver ∧ (∃ rest, s.stream = event :: rest) ∧
        requestToken event = some requestId
  own : ∀ event requestId, s'.phase = .interacting event requestId →
    s.phase = .interacting event requestId ∨ s.owns event = true

/-- Nothing is opened where nothing happens. -/
theorem NoNewPending.refl (r : WorkerRuntime) (o : Option String) : NoNewPending r r o :=
  fun _ h => .inl h

/-- A driver that answers nothing keeps what it had. -/
theorem Idle.kept (h : Idle s s') (action : Action) : Kept s action s' :=
  ⟨h.threadId, h.turnId, h.runtime ▸ NoNewPending.refl _ _,
    fun _ _ hr => absurd hr h.not_request, fun _ _ hphase => absurd hphase h.not_interacting⟩

/-- The phase is as it was. -/
theorem kept_of_phase {action : Action} (hthread : s'.threadId = s.threadId)
    (hturn : s'.turnId = s.turnId) (hpending : NoNewPending s.runtime s'.runtime (opened action))
    (hphase : s'.phase = s.phase) : Kept s action s' :=
  ⟨hthread, hturn, hpending, fun _ _ h => .inl (hphase ▸ h), fun _ _ h => .inl (hphase ▸ h)⟩

/-- **Every step keeps to its execution.** -/
theorem kept_of_step {action : Action} (h : Step s action s') : Kept s action s' := by
  cases h with
  | worker hworker => exact kept_of_phase rfl rfl (noNewPending_worker hworker) rfl
  | failLease error => exact kept_of_phase rfl rfl (.refl _ _) rfl
  | cancel => exact kept_of_phase rfl rfl (.refl _ _) rfl
  | expire => exact kept_of_phase rfl rfl (.refl _ _) rfl
  | send hstreaming => exact kept_of_phase rfl rfl (.refl _ _) rfl
  | readCursor hphase =>
    refine Idle.kept ?_ _
    exact ⟨rfl, rfl, rfl, rfl⟩
  | startTurn hphase =>
    obtain ⟨hthread, hturn, hruntime, hrequest⟩ := idle_loop { s with
      builder := (ResponsesEventBuilder.initialEvents s.builder).2
      queue := s.queue ++ (ResponsesEventBuilder.initialEvents s.builder).1.map some }
    refine Idle.kept ?_ _
    exact ⟨hthread, hturn, hruntime, hrequest⟩
  | connect hphase =>
    refine Idle.kept ?_ _
    exact ⟨rfl, rfl, rfl, rfl⟩
  | @deliver event rest hphase hstream =>
    obtain ⟨hthread, hturn, hruntime, hrequest, hown⟩ :=
      takes_handle { s with stream := rest } event
    refine ⟨hthread, hturn, ?_, fun e requestId hr => ?_, fun e requestId hp => ?_⟩
    · rw [hruntime]
      exact .refl _ _
    · obtain ⟨rfl, hid⟩ := hrequest e requestId hr
      exact .inr ⟨rfl, ⟨rest, hstream⟩, hid⟩
    · obtain ⟨rfl, -⟩ := hrequest e requestId (by rw [hp, Phase.request?])
      exact .inr (hown e requestId hp)
  | endStream hphase => exact (idle_raiseInner s _).kept _
  | breakStream error hphase => exact (idle_raiseInner s _).kept _
  | answer reply hphase =>
    refine ⟨rfl, rfl, .refl _ _, fun _ _ hr => .inl ?_, nofun⟩
    rw [hphase]
    exact hr
  | resolve hphase hresolve =>
    exact ⟨rfl, rfl, (noNewPending_resolve hresolve).1, nofun, nofun⟩
  | reject hphase hreject =>
    refine Idle.kept ?_ _
    exact ⟨rfl, rfl, rfl, rfl⟩
  | @accepted event hphase =>
    obtain ⟨hthread, hturn, hruntime, hrequest⟩ :=
      idle_advance { s with resolved := s.resolved ++ [event.id] } event
    refine Idle.kept ?_ _
    exact ⟨hthread, hturn, hruntime, hrequest⟩
  | @rejected event hphase =>
    obtain ⟨hthread, hturn, hruntime, hrequest⟩ :=
      idle_raiseInner { s with resolved := s.resolved ++ [event.id] }
        (.upstream "Unknown or completed app-server request")
    refine Idle.kept ?_ _
    exact ⟨hthread, hturn, hruntime, hrequest⟩
  | @loseReply event error hphase =>
    obtain ⟨hthread, hturn, hruntime, hrequest⟩ :=
      idle_raiseInner { s with resolved := s.resolved ++ [event.id] } error
    refine Idle.kept ?_ _
    exact ⟨hthread, hturn, hruntime, hrequest⟩
  | bind tools hphase => exact (idle_bind _ tools _ _ _).kept _
  | announce hphase => exact (idle_advance s _).kept _
  | renewed hphase => exact (idle_loop s).kept _
  | reconnectRaises error' hphase => exact (idle_raise s _).kept _
  | interrupt hdeadline => exact (idle_raise s _).kept _
  | interrupted hphase =>
    refine Idle.kept ?_ _
    exact ⟨rfl, rfl, rfl, rfl⟩
  | finish hphase =>
    refine Idle.kept ?_ _
    exact ⟨rfl, rfl, rfl, rfl⟩

end Driver

/-! ## Two executions -/

/-- An answer the Worker took: the driver it came from, and the request it is for. -/
structure ForwardedAnswer where
  driver : Bool
  event : AgentEvent

/-- The drivers of two executions on one Sandbox; each has its copy of the Worker. -/
structure SharedSandbox where
  drivers : Bool → Driver
  answered : List ForwardedAnswer

namespace SharedSandbox

open Driver

/-- The executions before they read their cursors. -/
def create (maxHistory : ℕ) (mcpAppsEnabled : Bool) (threadId turnId : Bool → String)
    (record : Bool → ResponseRecord) : SharedSandbox where
  drivers i := Driver.create maxHistory mcpAppsEnabled (threadId i) (turnId i) (record i)
  answered := []

/-- What a step of a driver answers. -/
def answers (i : Bool) (s : Driver) : Action → List ForwardedAnswer
  | .resolve =>
    match s.phase with
    | .resolving event requestId reply =>
      if (s.runtime.resolveServerRequest requestId reply).isSome then [⟨i, event⟩] else []
    | _ => []
  | _ => []

/-- One of the drivers takes a step; the other one sees the Worker as that leaves it. -/
def sharedStep (s : SharedSandbox) (a : Bool × Action) : Option SharedSandbox :=
  (driverStep (s.drivers a.1) a.2).map fun d =>
    { drivers := fun j => if j = a.1 then d
        else { s.drivers j with runtime := d.runtime, history := d.history }
      answered := s.answered ++ answers a.1 (s.drivers a.1) a.2 }

/-- An elicitation that belongs to the other execution, and not to that of driver `i`. -/
def Foreign (s : SharedSandbox) (i : Bool) (event : AgentEvent) : Prop :=
  event.type = .serverRequest ∧
    str? (Members.get event.data.members "method") = some elicitationMethod ∧
    (s.drivers !i).owns event = true ∧ (s.drivers i).owns event = false

/-- A driver takes up an elicitation of the other execution only when that is answered already, and
the app server opens no request under an id whose request is being resolved. -/
def AnsweredFirst (s : SharedSandbox) (a : Bool × Action) : Prop :=
  (match a.2 with
    | .deliver => ∀ event ∈ (s.drivers a.1).stream.head?, s.Foreign a.1 event →
        ∀ requestId ∈ requestToken event, isPending (s.drivers a.1).runtime requestId = false
    | _ => True) ∧
  ∀ token ∈ opened a.2, ∀ j, ∀ r ∈ (s.drivers j).phase.request?, r.2 ≠ token

instance (s : SharedSandbox) (i : Bool) (event : AgentEvent) : Decidable (s.Foreign i event) :=
  inferInstanceAs (Decidable (_ ∧ _ ∧ _ ∧ _))

instance (s : SharedSandbox) : ∀ a, Decidable (s.AnsweredFirst a) := fun a => by
  unfold AnsweredFirst
  exact @instDecidableAnd _ _ (by split <;> infer_instance) inferInstance

/-- The drivers see one Worker; a driver asks about its own requests only, and has no elicitation of
the other in hand that could still be answered. -/
structure Guarded (s : SharedSandbox) : Prop where
  shared : ∀ i j, (s.drivers i).runtime = (s.drivers j).runtime
  own : ∀ i event requestId, (s.drivers i).phase = .interacting event requestId →
    (s.drivers i).owns event = true
  answered : ∀ i event requestId, (s.drivers i).phase.request? = some (event, requestId) →
    s.Foreign i event → (s.drivers i).runtime.pending requestId ≠ some none
  log : ∀ a ∈ s.answered, ¬ s.Foreign a.driver a.event

variable {s s' : SharedSandbox} {i : Bool} {action : Action}

/-- A driver owns what its turn owns. -/
theorem owns_congr {d d' : Driver} (hthread : d'.threadId = d.threadId)
    (hturn : d'.turnId = d.turnId) (event : AgentEvent) : d'.owns event = d.owns event := by
  rw [owns, owns, belongsToExecution, belongsToExecution, hthread, hturn]

/-- Nothing is taken before the first step. -/
theorem guarded_create (maxHistory : ℕ) (mcpAppsEnabled : Bool) (threadId turnId : Bool → String)
    (record : Bool → ResponseRecord) :
    (create maxHistory mcpAppsEnabled threadId turnId record).Guarded :=
  ⟨fun _ _ => rfl, nofun, nofun, fun _ h => absurd h List.not_mem_nil⟩

/-- An answer comes from a driver that resolves, to a request that is pending. -/
theorem mem_answers {d : Driver} {a : ForwardedAnswer} (h : a ∈ answers i d action) :
    a.driver = i ∧ ∃ requestId reply, d.phase = .resolving a.event requestId reply ∧
      d.runtime.pending requestId = some none := by
  unfold answers at h
  split at h
  · split at h
    · rename_i event requestId reply hphase
      split_ifs at h with hsome
      · obtain rfl := List.mem_singleton.mp h
        obtain ⟨runtime, hresolve⟩ := Option.isSome_iff_exists.mp hsome
        exact ⟨rfl, requestId, reply, hphase, (noNewPending_resolve (o := none) hresolve).2⟩
      · exact absurd h List.not_mem_nil
    · exact absurd h List.not_mem_nil
  · exact absurd h List.not_mem_nil

/-- **One step of one driver** keeps the requests apart. -/
theorem Guarded.step (h : s.Guarded) {a : Bool × Action} (hcond : s.AnsweredFirst a)
    (hstep : sharedStep s a = some s') : s'.Guarded := by
  obtain ⟨i, action⟩ := a
  obtain ⟨d, hd, rfl⟩ := Option.map_eq_some_iff.mp hstep
  have hkept := kept_of_step (step_of_driverStep hd)
  have howns (j : Bool) (event : AgentEvent) : (if j = i then d else
      { s.drivers j with runtime := d.runtime, history := d.history }).owns event =
        (s.drivers j).owns event := by
    split_ifs with hj
    · rw [hj]
      exact owns_congr hkept.threadId hkept.turnId event
    · exact owns_congr rfl rfl event
  have hforeign (j : Bool) (event : AgentEvent)
      (hf : Foreign ⟨fun j => if j = i then d else
        { s.drivers j with runtime := d.runtime, history := d.history },
        s.answered ++ answers i (s.drivers i) action⟩ j event) : s.Foreign j event := by
    obtain ⟨htype, hmethod, hother, hown⟩ := hf
    exact ⟨htype, hmethod, (howns _ event) ▸ hother, (howns _ event) ▸ hown⟩
  refine ⟨fun j k => ?_, fun j event requestId hphase => ?_, fun j event requestId hr hf => ?_,
    fun a ha => ?_⟩
  · dsimp only
    split_ifs <;> rfl
  · dsimp only at hphase ⊢
    rw [howns]
    split_ifs at hphase with hj
    · rw [hj]
      rcases hkept.own event requestId hphase with hbefore | hown
      · exact h.own i event requestId hbefore
      · exact hown
    · exact h.own j event requestId hphase
  · have hother := hforeign j event hf
    have hbefore : (s.drivers j).phase.request? = some (event, requestId) →
        d.runtime.pending requestId ≠ some none := fun hr hpending => by
      rcases hkept.pending requestId hpending with hpending | hopened
      · exact h.answered j event requestId hr hother (h.shared i j ▸ hpending)
      · exact hcond.2 requestId hopened j (event, requestId) hr rfl
    dsimp only at hr ⊢
    split_ifs at hr ⊢ with hj
    · rcases hkept.request event requestId hr with hr | ⟨rfl, ⟨rest, hstream⟩, htoken⟩
      · exact hbefore (hj ▸ hr)
      · intro hpending
        rcases hkept.pending requestId hpending with hpending | hopened
        · have hanswered := hcond.1 event (by rw [hstream]; rfl) (hj ▸ hother) requestId htoken
          rw [isPending_of hpending] at hanswered
          cases hanswered
        · cases hopened
    · exact hbefore hr
  · intro hf
    have hother := hforeign a.driver a.event hf
    rcases List.mem_append.mp ha with ha | ha
    · exact h.log a ha hother
    · obtain ⟨rfl, requestId, reply, hphase, hpending⟩ := mem_answers ha
      exact h.answered _ a.event requestId (by rw [hphase, Phase.request?]) hother
        hpending

/-- **As long as a request of the other execution is answered before a driver takes it up, no
elicitation is answered by the driver of the other execution.** -/
theorem no_foreign_answer {maxHistory : ℕ} {mcpAppsEnabled : Bool} {threadId turnId : Bool → String}
    {record : Bool → ResponseRecord} {actions : List (Bool × Action)}
    (hrun : Machine.run sharedStep (create maxHistory mcpAppsEnabled threadId turnId record) actions =
      some s)
    (hfirst : Machine.Meets sharedStep AnsweredFirst
      (create maxHistory mcpAppsEnabled threadId turnId record) actions) :
    ∀ a ∈ s.answered, ¬ s.Foreign a.driver a.event :=
  (Machine.run_invariant (fun _ _ _ hcond hinv hstep => Guarded.step hinv hcond hstep) hfirst hrun
    (guarded_create _ _ _ _ _)).log

/-! ## A request of the second turn -/

/-- Two turns of one thread. -/
def twoTurns : SharedSandbox :=
  create 64 true (fun _ => "thread_1") (fun i => if i then "turn_2" else "turn_1")
    fun _ => sampleRecord

/-- Both drivers read the stream, and the app server asks for the second turn. -/
def askSecond : List (Bool × Action) :=
  [(false, .readCursor), (false, .startTurn), (false, .connect),
    (true, .readCursor), (true, .startTurn), (true, .connect),
    (false, .worker (.serverRequest "7" ⟨[("turnId", .str "turn_2")],
      show ["turnId"].Nodup by decide, trivial, trivial⟩))]

/-- The driver of the second turn answers before the other one takes the request up. -/
theorem no_foreign_answer_ownFirst : ∃ s, Machine.run sharedStep twoTurns
    (askSecond ++ [(true, .send), (true, .deliver), (true, .answer cancelReply), (true, .resolve),
      (false, .send), (false, .deliver), (false, .resolve)]) = some s ∧
      s.answered.length = 1 ∧ ∀ a ∈ s.answered, ¬ s.Foreign a.driver a.event := by
  obtain ⟨s, hs, htest⟩ := (Option.any_eq_true _ _).mp (show (Machine.run sharedStep twoTurns
    (askSecond ++ [(true, .send), (true, .deliver), (true, .answer cancelReply), (true, .resolve),
      (false, .send), (false, .deliver), (false, .resolve)])).any
        (fun s => s.answered.length = 1) = true by decide +kernel)
  exact ⟨s, hs, of_decide_eq_true htest, no_foreign_answer hs (by decide +kernel)⟩

/-- The driver of the first turn takes the request up first, and answers it with an error. -/
theorem foreign_answer_taken : ∃ s, Machine.run sharedStep twoTurns
    (askSecond ++ [(false, .send), (false, .deliver), (false, .resolve)]) = some s ∧
      ∃ a ∈ s.answered, s.Foreign a.driver a.event := by
  obtain ⟨s, hs, htest⟩ := (Option.any_eq_true _ _).mp (show (Machine.run sharedStep twoTurns
    (askSecond ++ [(false, .send), (false, .deliver), (false, .resolve)])).any
      (fun s => s.answered.any fun a => s.Foreign a.driver a.event) = true by decide +kernel)
  obtain ⟨a, ha, hforeign⟩ := List.any_eq_true.mp htest
  exact ⟨s, hs, a, ha, of_decide_eq_true hforeign⟩

end SharedSandbox

end CodexGateway.Adapter
