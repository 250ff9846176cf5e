import CodexGateway.Adapter.McpApps
import CodexGateway.Library.Pool

/-!
# Adapter/Interactions — an interaction is settled once, and its request is answered with that

The driver answers a server request by an interaction: it waits for the future, for as long as the
timeout lets it, and expires the interaction then.  Meanwhile the browser may resolve it, a
cancellation settles it, and a deletion takes it out of the table.  Whatever comes first is recorded
(`interactions_settle_once`): a timeout that fires late finds the recorded result.
-/

namespace CodexGateway.Adapter

open PyJson

/-! ## What an operation does to the interactions -/

namespace AppInteraction

/-- The status, the result and the future say the same. -/
structure Coherent (i : AppInteraction) : Prop where
  result_none_iff : i.result = none ↔ i.status = .pending
  future_eq : i.future = i.result

/-- `j` is a later state of `i`: the same, unless `i` is pending. -/
structure Later (i j : AppInteraction) : Prop where
  same : i.status ≠ .pending → j = i
  id : j.id = i.id
  responseId : j.responseId = i.responseId

theorem Later.refl (i : AppInteraction) : Later i i := ⟨fun _ => rfl, rfl, rfl⟩

theorem Later.trans {i j k : AppInteraction} (h : Later i j) (h' : Later j k) : Later i k where
  same := fun hi => by
    have hji := h.same hi
    rw [h'.same (hji ▸ hi), hji]
  id := h'.id.trans h.id
  responseId := h'.responseId.trans h.responseId

variable {i : AppInteraction} {status : InteractionStatus} {result : InteractionResult}

theorem Coherent.settle (h : i.Coherent) (hi : i.status = .pending) (hstatus : status ≠ .pending) :
    (i.settle status result).Coherent where
  result_none_iff := by simp [AppInteraction.settle, hstatus]
  future_eq := by simp [AppInteraction.settle, h.future_eq, h.result_none_iff.mpr hi]

theorem later_settle (hi : i.status = .pending) : Later i (i.settle status result) :=
  ⟨fun hne => absurd hi hne, rfl, rfl⟩

/-- The future is open exactly while the interaction is pending. -/
theorem Coherent.future_isNone (h : i.Coherent) : i.future.isNone = true ↔ i.status = .pending := by
  rw [h.future_eq, Option.isNone_iff_eq_none, h.result_none_iff]

end AppInteraction

namespace McpAppsState

/-- Every interaction is coherent. -/
def Coherent (s : McpAppsState) : Prop := ∀ id i, s.objects id = some i → i.Coherent

/-- What may happen to an object: nothing, its creation, or its settlement while it is pending. -/
inductive Change : Option AppInteraction → Option AppInteraction → Prop where
  | same (o : Option AppInteraction) : Change o o
  | create (i : AppInteraction) (_ : i.Coherent) : Change none (some i)
  | settle (i : AppInteraction) (status : InteractionStatus) (result : InteractionResult)
      (_ : i.status = .pending) (_ : status ≠ .pending) :
      Change (some i) (some (i.settle status result))

/-- A step of the interactions: every object changes as it may, and no other one enters the table
than one that is created. -/
structure Steps (s s' : McpAppsState) : Prop where
  objects : ∀ id, Change (s.objects id) (s'.objects id)
  interactions : ∀ id, s.objects id ≠ none → s'.interactions id = true → s.interactions id = true

variable {s s' : McpAppsState}

theorem Change.coherent {o o' : Option AppInteraction} (h : Change o o')
    (ho : ∀ i, o = some i → i.Coherent) : ∀ i, o' = some i → i.Coherent := by
  intro j hj
  cases h with
  | same => exact ho j hj
  | create i hi =>
    obtain rfl := Option.some.inj hj
    exact hi
  | settle i status result hi hstatus =>
    obtain rfl := Option.some.inj hj
    exact (ho i rfl).settle hi hstatus

theorem Change.later {o o' : Option AppInteraction} (h : Change o o') {i : AppInteraction}
    (hi : o = some i) : ∃ j, o' = some j ∧ i.Later j := by
  cases h with
  | same => exact ⟨i, hi, .refl i⟩
  | create => cases hi
  | settle i' status result hpending =>
    obtain rfl := Option.some.inj hi
    exact ⟨_, rfl, AppInteraction.later_settle hpending⟩

/-- What any number of steps does: every interaction is found again in a later state, and none comes
back into the table. -/
structure Evolves (s s' : McpAppsState) : Prop where
  later : ∀ id i, s.objects id = some i → ∃ j, s'.objects id = some j ∧ i.Later j
  interactions : ∀ id, s.objects id ≠ none → s'.interactions id = true → s.interactions id = true

theorem Evolves.refl (s : McpAppsState) : Evolves s s :=
  ⟨fun _ i hi => ⟨i, hi, .refl i⟩, fun _ _ h => h⟩

theorem Evolves.ne_none (h : Evolves s s') {id : String} (hid : s.objects id ≠ none) :
    s'.objects id ≠ none := by
  obtain ⟨i, hi⟩ := Option.ne_none_iff_exists'.mp hid
  obtain ⟨j, hj, -⟩ := h.later id i hi
  simp [hj]

theorem Evolves.trans {m : McpAppsState} (h : Evolves s m) (h' : Evolves m s') : Evolves s s' where
  later := fun id i hi => by
    obtain ⟨j, hj, hij⟩ := h.later id i hi
    obtain ⟨k, hk, hjk⟩ := h'.later id j hj
    exact ⟨k, hk, hij.trans hjk⟩
  interactions := fun id hid hs' => h.interactions id hid (h'.interactions id (h.ne_none hid) hs')

theorem Steps.evolves (h : Steps s s') : Evolves s s' :=
  ⟨fun id _ hi => (h.objects id).later hi, h.interactions⟩

theorem Steps.coherent (h : Steps s s') (hs : s.Coherent) : s'.Coherent :=
  fun id => (h.objects id).coherent (hs id)

theorem steps_of_eq (hobjects : s'.objects = s.objects)
    (hinteractions : s'.interactions = s.interactions) : Steps s s' where
  objects := fun _ => hobjects ▸ .same _
  interactions := fun _ _ h => hinteractions ▸ h

theorem steps_publish (responseId type : String) (data : Json) :
    Steps s (s.publish responseId type data) := steps_of_eq rfl rfl

/-- A fresh id is given to a coherent interaction. -/
theorem steps_createInteraction {id : String} (hid : s.objects id = none)
    (responseId method : String) (params : Members) :
    Steps s (s.createInteraction id responseId method params) where
  objects := fun other => by
    by_cases h : other = id
    · subst h
      rw [hid]
      simp only [createInteraction, notifyAll, Function.update_self]
      exact .create _ ⟨by simp, rfl⟩
    · simp only [createInteraction, notifyAll, Function.update_of_ne h]
      exact .same _
  interactions := fun other hother h => by
    have hne : other ≠ id := by
      rintro rfl
      exact hother hid
    simpa [createInteraction, notifyAll, Function.update_of_ne hne] using h

theorem steps_setObject {id : String} {i : AppInteraction} (hi : s.objects id = some i)
    (hpending : i.status = .pending) {status : InteractionStatus} (hstatus : status ≠ .pending)
    (result : InteractionResult) : Steps s (s.setObject id (i.settle status result)) where
  objects := fun other => by
    by_cases h : other = id
    · subst h
      rw [hi]
      simp only [setObject, notifyAll, Function.update_self]
      exact .settle i status result hpending hstatus
    · simp only [setObject, notifyAll, Function.update_of_ne h]
      exact .same _
  interactions := fun _ _ h => h

/-- Several interactions are settled where a condition lets it. -/
theorem change_map {o : Option AppInteraction} {p : AppInteraction → Prop} [DecidablePred p]
    (hp : ∀ i, o = some i → p i → i.status = .pending) {status : InteractionStatus}
    (hstatus : status ≠ .pending) (result : InteractionResult) :
    Change o (o.map fun i => if p i then i.settle status result else i) := by
  cases o with
  | none => exact .same _
  | some i =>
    rw [Option.map_some]
    split_ifs with h
    · exact .settle i status result (hp i rfl h) hstatus
    · exact .same _

theorem steps_cancelResponseInteractions (responseId : String) :
    Steps s (s.cancelResponseInteractions responseId) where
  objects := fun _ => change_map (fun _ _ h => h.2.2) (by decide) _
  interactions := fun _ _ h => h

/-- A deletion looks at the futures, which say what the statuses do. -/
theorem steps_deleteResponse (hs : s.Coherent) (responseId : String) :
    Steps s (s.deleteResponse responseId) where
  objects := fun id => change_map (fun i hi h => (hs id i hi).future_isNone.mp h.2.2) (by decide) _
  interactions := fun id _ h => by
    simp only [deleteResponse, notifyAll, Bool.and_eq_true] at h
    exact h.1

theorem steps_resolveInteraction {id : String} {request : ResolveInteractionRequest}
    {j : AppInteraction} (h : s.resolveInteraction id request = .ok (s', j)) : Steps s s' := by
  obtain ⟨i, hi, hpending, rfl, rfl⟩ := resolveInteraction_ok h
  exact steps_setObject (interaction?_eq_some.mp hi).2 hpending (by decide) _

theorem steps_expireInteraction {id : String} {j : AppInteraction}
    (h : s.expireInteraction id = .ok (s', j)) : Steps s s' := by
  obtain ⟨i, hi, ⟨hpending, rfl, rfl⟩ | ⟨-, -, rfl⟩⟩ := expireInteraction_ok h
  · exact steps_setObject (interaction?_eq_some.mp hi).2 hpending (by decide) _
  · exact steps_of_eq rfl rfl

end McpAppsState

/-! ## The handlers of server requests, and the operations beside them -/

/-- A request of the worker to its client. -/
structure ServerRequest where
  responseId : String
  stream : Bool
  method : String
  params : Members

/-- What `_handle_server_request` raises: `UpstreamProtocolError`, `InteractionNotFoundError`, or
the cancellation of its task. -/
inductive HandlerError where
  | upstream (message : String)
  | notFound
  | cancelled

/-- The awaited call a handler is at, with its interaction. -/
inductive HandlerPhase where
  | create
  | publishRequested (id : String)
  | wait (id : String)
  | expire (id : String)
  | publishExpired (id : String) (result : InteractionResult)
  | returned (id : Option String) (result : InteractionResult)
  | raised (id : Option String) (error : HandlerError)

/-- The handler of a request. -/
structure RequestHandler where
  request : ServerRequest
  phase : HandlerPhase

/-- The first lines of `_handle_server_request`. -/
def handleServerRequest (settings : McpAppsSettings) (request : ServerRequest) :
    RequestHandler where
  request := request
  phase :=
    if !settings.enabled then .raised none (.upstream "MCP Apps support is disabled")
    else if request.method ≠ "mcpServer/elicitation/request" then
      .raised none (.upstream ("Unsupported interactive app-server request: " ++ request.method))
    else if !request.stream then .returned none cancelResult
    else .create

/-- How the awaited call ends: it returns, where `create` is told what `uuid4` gives; the timeout of
`wait_for` fires; or the task is cancelled. -/
inductive HandlerAction where
  | create (id : String)
  | proceed
  | timeout
  | cancelled

namespace RequestHandler

variable (settings : McpAppsSettings) (t : RequestHandler) (s : McpAppsState)

/-- A handler goes on. -/
def await (phase : HandlerPhase) (s : McpAppsState) : Option (McpAppsState × RequestHandler) :=
  some (s, { t with phase := phase })

/-- `{"interaction": self._public_interaction(interaction)}` -/
def interactionData (s : McpAppsState) (id : String) : Json :=
  .obj [("interaction",
    ((s.objects id).map (AppInteraction.publicInteraction settings)).getD .null)]

/-- `_handle_server_request`, from one awaited call to the next.  The timeout may fire although the
future is done. -/
def act : HandlerAction → Option (McpAppsState × RequestHandler)
  | .create id =>
    match t.phase with
    | .create =>
      if (s.objects id).isNone then
        t.await (.publishRequested id)
          (s.createInteraction id t.request.responseId t.request.method t.request.params)
      else none
    | _ => none
  | .proceed =>
    match t.phase with
    | .publishRequested id => t.await (.wait id)
        (s.publish t.request.responseId "mcp_app.elicitation.requested"
          (interactionData settings s id))
    | .wait id =>
      match (s.objects id).bind (·.future) with
      | some result => t.await (.returned (some id) result) s
      | none => none
    | .expire id =>
      match s.expireInteraction id with
      | .ok (s, i) => t.await (.publishExpired id (i.result.getD cancelResult)) s
      | .error _ => t.await (.raised (some id) .notFound) s
    | .publishExpired id result => t.await (.returned (some id) result)
        (s.publish t.request.responseId "mcp_app.elicitation.expired"
          (interactionData settings s id))
    | _ => none
  | .timeout =>
    match t.phase with
    | .wait id => t.await (.expire id) s
    | _ => none
  | .cancelled =>
    match t.phase with
    | .create => t.await (.raised none .cancelled) s
    | .publishRequested id | .wait id | .expire id | .publishExpired id _ =>
      t.await (.raised (some id) .cancelled) s
    | .returned .. | .raised .. => none

end RequestHandler

/-- What comes from outside: a server request, or an operation of another task. -/
inductive InteractionEvent where
  | request (request : ServerRequest)
  | create (id responseId method : String) (params : Members)
  | resolve (id : String) (request : ResolveInteractionRequest)
  | expire (id : String)
  | cancelResponse (responseId : String)
  | delete (responseId : String)
  | publish (responseId type : String) (data : Json)

/-- An operation that raises leaves the state as it was. -/
def interactionEnv (settings : McpAppsSettings) (s : McpAppsState) :
    InteractionEvent → Option (McpAppsState × List RequestHandler)
  | .request request => some (s, [handleServerRequest settings request])
  | .create id responseId method params =>
    if (s.objects id).isNone then some (s.createInteraction id responseId method params, [])
    else none
  | .resolve id request =>
    match s.resolveInteraction id request with
    | .ok (s, _) => some (s, [])
    | .error _ => some (s, [])
  | .expire id =>
    match s.expireInteraction id with
    | .ok (s, _) => some (s, [])
    | .error _ => some (s, [])
  | .cancelResponse responseId => some (s.cancelResponseInteractions responseId, [])
  | .delete responseId => some (s.deleteResponse responseId, [])
  | .publish responseId type data => some (s.publish responseId type data, [])

/-- The handlers, among operations in any order. -/
def interactionPool (settings : McpAppsSettings) :
    Pool.Program McpAppsState RequestHandler HandlerAction InteractionEvent :=
  ⟨fun s t a => t.act settings s a, interactionEnv settings⟩

/-! ## What a handler has seen -/

namespace McpAppsState

/-- The interaction has left `pending`, with this result. -/
def Answered (s : McpAppsState) (id : String) (result : InteractionResult) : Prop :=
  ∃ i, s.objects id = some i ∧ i.status ≠ .pending ∧ i.result = some result

variable {s s' : McpAppsState}

theorem Evolves.answered (h : Evolves s s') {id : String} {result : InteractionResult}
    (hs : s.Answered id result) : s'.Answered id result := by
  obtain ⟨i, hi, hstatus, hresult⟩ := hs
  obtain ⟨j, hj, hij⟩ := h.later id i hi
  obtain rfl := hij.same hstatus
  exact ⟨j, hj, hstatus, hresult⟩

/-- A future that is done holds the recorded result. -/
theorem answered_of_future (hs : s.Coherent) {id : String} {i : AppInteraction}
    (hi : s.objects id = some i) {result : InteractionResult} (hresult : i.future = some result) :
    s.Answered id result := by
  have hcoherent := hs id i hi
  rw [hcoherent.future_eq] at hresult
  refine ⟨i, hi, fun hpending => ?_, hresult⟩
  rw [hcoherent.result_none_iff.mpr hpending] at hresult
  cases hresult

/-- **The interaction of an expiration has a result**: the one of the expiration, or what was
recorded before. -/
theorem answered_of_expireInteraction (hs : s.Coherent) {id : String} {j : AppInteraction}
    (h : s.expireInteraction id = .ok (s', j)) :
    s'.Answered id (j.result.getD cancelResult) := by
  obtain ⟨i, hi, ⟨hpending, rfl, rfl⟩ | ⟨hstatus, rfl, rfl⟩⟩ := expireInteraction_ok h
  · exact ⟨_, Function.update_self .., by simp [AppInteraction.settle], rfl⟩
  · have hobject := (interaction?_eq_some.mp hi).2
    obtain ⟨result, hresult⟩ := Option.ne_none_iff_exists'.mp
      (mt (hs id j hobject).result_none_iff.mp hstatus)
    exact ⟨j, hobject, hstatus, by simp [hresult]⟩

/-- An expiration raises only for an interaction that is not in the table. -/
theorem interactions_of_expireInteraction_error {id : String} (hid : s.objects id ≠ none)
    {error : InteractionError} (h : s.expireInteraction id = .error error) :
    s.interactions id = false := by
  rw [expireInteraction] at h
  split at h
  · rename_i hnone
    by_contra hin
    rw [interaction?, if_pos (by simpa using hin)] at hnone
    exact hid hnone
  · split_ifs at h

end McpAppsState

/-- What a handler relies on, by the call it is at. -/
def RequestHandler.Backed (s : McpAppsState) (t : RequestHandler) : Prop :=
  match t.phase with
  | .publishRequested id | .wait id | .expire id => s.objects id ≠ none
  | .publishExpired id result | .returned (some id) result => s.Answered id result
  | .raised (some id) .notFound => s.objects id ≠ none ∧ s.interactions id = false
  | _ => True

section Handlers

variable {settings : McpAppsSettings} {s s' : McpAppsState} {t t' : RequestHandler}

theorem RequestHandler.Backed.stable (ht : t.Backed s) (h : s.Evolves s') : t.Backed s' := by
  rw [RequestHandler.Backed] at ht ⊢
  split at ht
  all_goals first
    | exact h.ne_none ht
    | exact h.answered ht
    | exact ⟨h.ne_none ht.1, by
        by_contra hin
        exact absurd (h.interactions _ ht.1 (by simpa using hin)) (by simp [ht.2])⟩
    | trivial

/-- **One step of a handler.** -/
theorem act_backed {a : HandlerAction} (hs : s.Coherent) (ht : t.Backed s)
    (h : t.act settings s a = some (s', t')) : McpAppsState.Steps s s' ∧ t'.Backed s' := by
  cases a with
  | create id =>
    simp only [RequestHandler.act] at h
    split at h
    · split_ifs at h with hid
      obtain ⟨rfl, rfl⟩ := Prod.mk.inj (Option.some.inj h)
      exact ⟨McpAppsState.steps_createInteraction (by simpa using hid) .., by
        simp [RequestHandler.Backed, McpAppsState.createInteraction, McpAppsState.notifyAll]⟩
    · cases h
  | proceed =>
    rw [RequestHandler.Backed] at ht
    simp only [RequestHandler.act] at h
    split at h
    case h_1 id hphase =>
      obtain ⟨rfl, rfl⟩ := Prod.mk.inj (Option.some.inj h)
      simp only [hphase] at ht
      exact ⟨McpAppsState.steps_publish .., ht⟩
    case h_2 id hphase =>
      split at h
      · rename_i result hresult
        obtain ⟨rfl, rfl⟩ := Prod.mk.inj (Option.some.inj h)
        obtain ⟨i, hi, hfuture⟩ := Option.bind_eq_some_iff.mp hresult
        exact ⟨McpAppsState.steps_of_eq rfl rfl, McpAppsState.answered_of_future hs hi hfuture⟩
      · cases h
    case h_3 id hphase =>
      simp only [hphase] at ht
      split at h
      · rename_i hexpire
        obtain ⟨rfl, rfl⟩ := Prod.mk.inj (Option.some.inj h)
        exact ⟨McpAppsState.steps_expireInteraction hexpire,
          McpAppsState.answered_of_expireInteraction hs hexpire⟩
      · rename_i hexpire
        obtain ⟨rfl, rfl⟩ := Prod.mk.inj (Option.some.inj h)
        exact ⟨McpAppsState.steps_of_eq rfl rfl, ht,
          McpAppsState.interactions_of_expireInteraction_error ht hexpire⟩
    case h_4 id result hphase =>
      obtain ⟨rfl, rfl⟩ := Prod.mk.inj (Option.some.inj h)
      simp only [hphase] at ht
      exact ⟨McpAppsState.steps_publish .., ht⟩
    case h_5 => cases h
  | timeout =>
    rw [RequestHandler.Backed] at ht
    simp only [RequestHandler.act] at h
    split at h
    · rename_i id hphase
      obtain ⟨rfl, rfl⟩ := Prod.mk.inj (Option.some.inj h)
      simp only [hphase] at ht
      exact ⟨McpAppsState.steps_of_eq rfl rfl, ht⟩
    · cases h
  | cancelled =>
    simp only [RequestHandler.act] at h
    split at h
    all_goals first
      | exact absurd h (by simp)
      | obtain ⟨rfl, rfl⟩ := Prod.mk.inj (Option.some.inj h)
        exact ⟨McpAppsState.steps_of_eq rfl rfl, trivial⟩

/-- A handler begins without an interaction. -/
theorem backed_handleServerRequest (request : ServerRequest) :
    (handleServerRequest settings request).Backed s := by
  simp only [RequestHandler.Backed, handleServerRequest]
  split_ifs <;> trivial

/-- **One operation from outside.** -/
theorem env_steps {e : InteractionEvent} {ts : List RequestHandler} (hs : s.Coherent)
    (h : interactionEnv settings s e = some (s', ts)) :
    McpAppsState.Steps s s' ∧ ∀ t ∈ ts, t.Backed s' := by
  have hnone : ∀ t ∈ ([] : List RequestHandler), t.Backed s' := by simp
  cases e with
  | request request =>
    obtain ⟨rfl, rfl⟩ := Prod.mk.inj (Option.some.inj h)
    refine ⟨McpAppsState.steps_of_eq rfl rfl, fun t ht => ?_⟩
    rw [List.mem_singleton.mp ht]
    exact backed_handleServerRequest request
  | create id responseId method params =>
    simp only [interactionEnv] at h
    split_ifs at h with hid
    obtain ⟨rfl, rfl⟩ := Prod.mk.inj (Option.some.inj h)
    exact ⟨McpAppsState.steps_createInteraction (by simpa using hid) .., hnone⟩
  | resolve id request =>
    simp only [interactionEnv] at h
    split at h
    · rename_i hresolve
      obtain ⟨rfl, rfl⟩ := Prod.mk.inj (Option.some.inj h)
      exact ⟨McpAppsState.steps_resolveInteraction hresolve, hnone⟩
    · obtain ⟨rfl, rfl⟩ := Prod.mk.inj (Option.some.inj h)
      exact ⟨McpAppsState.steps_of_eq rfl rfl, hnone⟩
  | expire id =>
    simp only [interactionEnv] at h
    split at h
    · rename_i hexpire
      obtain ⟨rfl, rfl⟩ := Prod.mk.inj (Option.some.inj h)
      exact ⟨McpAppsState.steps_expireInteraction hexpire, hnone⟩
    · obtain ⟨rfl, rfl⟩ := Prod.mk.inj (Option.some.inj h)
      exact ⟨McpAppsState.steps_of_eq rfl rfl, hnone⟩
  | cancelResponse responseId =>
    obtain ⟨rfl, rfl⟩ := Prod.mk.inj (Option.some.inj h)
    exact ⟨McpAppsState.steps_cancelResponseInteractions responseId, hnone⟩
  | delete responseId =>
    obtain ⟨rfl, rfl⟩ := Prod.mk.inj (Option.some.inj h)
    exact ⟨McpAppsState.steps_deleteResponse hs responseId, hnone⟩
  | publish responseId type data =>
    obtain ⟨rfl, rfl⟩ := Prod.mk.inj (Option.some.inj h)
    exact ⟨McpAppsState.steps_publish .., hnone⟩

/-! ## Runs -/

theorem interactionPool_certificate : Pool.Certificate (interactionPool settings)
    (fun _ _ _ => True) (fun _ _ => True) McpAppsState.Coherent RequestHandler.Backed
    McpAppsState.Evolves where
  act := fun _ _ _ _ _ _ hs ht h => by
    obtain ⟨hsteps, hback⟩ := act_backed hs ht h
    exact ⟨hsteps.coherent hs, hback, hsteps.evolves⟩
  env := fun _ _ _ _ _ hs h => by
    obtain ⟨hsteps, hback⟩ := env_steps hs h
    exact ⟨hsteps.coherent hs, hback, hsteps.evolves⟩
  stable := fun _ _ _ _ _ hevolves ht => ht.stable hevolves

end Handlers

/-- **An interaction is settled once.**  In any order of the operations, an interaction has a result
exactly where it is no longer pending, its future holds that result, and it stays as it is from then
on.  A resolution succeeds as that one transition.  A handler returns the recorded result, whichever
way its wait ends, and finds no interaction only after a deletion. -/
theorem interactions_settle_once {settings : McpAppsSettings} {maxEventHistory : ℕ}
    {as bs : List (Pool.Action HandlerAction InteractionEvent)}
    {w w' : Pool McpAppsState RequestHandler}
    (hrun : Machine.run (Pool.step (interactionPool settings))
      ⟨McpAppsState.init maxEventHistory, []⟩ as = some w)
    (hrun' : Machine.run (Pool.step (interactionPool settings)) w bs = some w') :
    (∀ id i, w.shared.objects id = some i →
      (i.result = none ↔ i.status = .pending) ∧ i.future = i.result ∧
      ∃ j, w'.shared.objects id = some j ∧ (i.status ≠ .pending → j = i)) ∧
    (∀ id request s j, w.shared.resolveInteraction id request = .ok (s, j) →
      ∃ i, w.shared.objects id = some i ∧ i.status = .pending ∧ s.objects id = some j ∧
        j.status = .resolved ∧ j.result = some request.result) ∧
    (∀ t ∈ w.tasks, ∀ id result, t.phase = .returned (some id) result →
      w.shared.Answered id result) ∧
    ∀ t ∈ w.tasks, ∀ id, t.phase = .raised (some id) .notFound →
      w.shared.interactions id = false := by
  have hinit : Pool.Holds McpAppsState.Coherent RequestHandler.Backed
      ⟨McpAppsState.init maxEventHistory, []⟩ :=
    ⟨fun _ _ hi => (by cases hi), fun _ ht => (by cases ht)⟩
  have hw := interactionPool_certificate.run (Pool.meets_stepCond_true _ as) hrun hinit
  have hevolves := interactionPool_certificate.run_rel McpAppsState.Evolves.refl
    (fun _ _ _ => McpAppsState.Evolves.trans) (Pool.meets_stepCond_true _ bs) hrun' hw
  refine ⟨fun id i hi => ?_, fun id request s j hresolve => ?_, fun t ht id result hphase => ?_,
    fun t ht id hphase => ?_⟩
  · have hcoherent := hw.shared id i hi
    obtain ⟨j, hj, hlater⟩ := hevolves.later id i hi
    exact ⟨hcoherent.result_none_iff, hcoherent.future_eq, j, hj, hlater.same⟩
  · obtain ⟨i, hi, hpending, rfl, rfl⟩ := McpAppsState.resolveInteraction_ok hresolve
    exact ⟨i, (McpAppsState.interaction?_eq_some.mp hi).2, hpending, Function.update_self ..,
      rfl, rfl⟩
  · have hback := hw.tasks t ht
    rw [RequestHandler.Backed, hphase] at hback
    exact hback
  · have hback := hw.tasks t ht
    rw [RequestHandler.Backed, hphase] at hback
    exact hback.2

/-- A timeout that fires after the resolution: the handler returns what was accepted. -/
theorem interactions_settle_once_late :
    let settings : McpAppsSettings := ⟨true, ""⟩
    let request : ServerRequest := ⟨"resp_1", true, "mcpServer/elicitation/request", []⟩
    let as : List (Pool.Action HandlerAction InteractionEvent) :=
      [.env (.request request), .task 0 (.create "mcpint_1"), .task 0 .proceed,
        .env (.resolve "mcpint_1" ⟨.accept, .str "yes", .null⟩), .task 0 .timeout, .task 0 .proceed,
        .task 0 .proceed]
    ∃ w, Machine.run (Pool.step (interactionPool settings)) ⟨.init 512, []⟩ as = some w ∧
      w.shared.Answered "mcpint_1" ⟨.accept, .str "yes", .null⟩ := by
  intro settings request as
  have hrun : ∃ w, Machine.run (Pool.step (interactionPool settings))
      ⟨McpAppsState.init 512, []⟩ as = some w ∧
        ∃ t ∈ w.tasks, t.phase = .returned (some "mcpint_1") ⟨.accept, .str "yes", .null⟩ :=
    ⟨_, rfl, _, List.mem_singleton_self _, rfl⟩
  obtain ⟨w, hrun, t, ht, hphase⟩ := hrun
  obtain ⟨-, -, hreturned, -⟩ := interactions_settle_once hrun (rfl : Machine.run _ w [] = some w)
  exact ⟨w, hrun, hreturned t ht _ _ hphase⟩

end CodexGateway.Adapter
