import CodexGateway.Adapter.McpApps
import CodexGateway.Library.Pool

/-!
# Adapter/AppsDeletion — what is left of the Apps of a deleted Response

`delete` looks at the active table, which the driver's `_cleanup` clears first: the cleanup settles
the interactions, publishes and closes after that.  A resolution publishes after it has settled its
interaction.  Whichever of them comes after `delete_response` makes an entry for a Response that is
gone, and nothing else does (`deleted_forgotten`).

Each step is the outcome of one awaited call.  The condition's lock is held across a loop turn while
`asyncio.wait_for` starts or ends the wait of a subscriber, so that any two of these calls may be
separated.
-/

namespace CodexGateway.Adapter

open PyJson

/-! ## The tasks -/

/-- What the driver of a Response is at: its loop, or the next call of `_cleanup`. -/
inductive CleanupPhase where
  | running
  | cancelInteractions (status : String)
  | publishClosed (status : String)
  | closeResponse
  | done
deriving DecidableEq

/-- The place of a `delete`. -/
inductive DeletePhase where
  | getActive
  | storeDelete
  | deleteResponse
  | returned
  | raised
deriving DecidableEq

/-- The place of a `resolve`. -/
inductive ResolvePhase where
  | resolve (id : String) (request : ResolveInteractionRequest)
  | publish (interaction : AppInteraction)
  | returned (interaction : AppInteraction)
  | raised (error : InteractionError)

/-- A request that is being answered. -/
inductive AppsRequest where
  | delete (responseId : String) (phase : DeletePhase)
  | resolve (phase : ResolvePhase)

/-- The store and the Apps, with the drivers by their Response; `seen` are the ids that were given
out or asked for, and `deleted` those whose deletion has returned. -/
structure AppsService where
  apps : McpAppsState
  records : String → Bool
  active : String → Bool
  drivers : String → Option CleanupPhase
  seen : String → Bool
  deleted : String → Bool

/-- What the driver does in its loop, or `proceed`: its loop ends with the status of the record, or
the cleanup takes its next step. -/
inductive CleanupAction where
  | createInteraction (id method : String) (params : Members)
  | publish (type : String) (data : Json)
  | registerAppSession (session : AppSession)
  | expireInteraction (id : String)
  | finish (status : String)
  | proceed

/-- What reaches the service from outside. -/
inductive AppsRequestEvent where
  | start (responseId : String)
  | drive (responseId : String) (action : CleanupAction)
  | cancel (responseId : String)
  | delete (responseId : String)
  | resolve (id : String) (request : ResolveInteractionRequest)

namespace AppsService

/-- The service before its first Response. -/
def init (maxEventHistory : ℕ) : AppsService where
  apps := .init maxEventHistory
  records := fun _ => false
  active := fun _ => false
  drivers := fun _ => none
  seen := fun _ => false
  deleted := fun _ => false

variable (settings : McpAppsSettings) (s : AppsService)

/-- The driver of a Response goes on. -/
def setDriver (responseId : String) (phase : CleanupPhase) : AppsService :=
  { s with drivers := Function.update s.drivers responseId (some phase) }

/-- The state of the MCP Apps is written. -/
def setApps (apps : McpAppsState) : AppsService := { s with apps := apps }

/-- The driver's loop, as far as it touches the Apps, and `_cleanup`. -/
def drive (responseId : String) (action : CleanupAction) : Option AppsService :=
  match s.drivers responseId, action with
  | some .running, .createInteraction id method params =>
    if (s.apps.objects id).isNone then
      some (s.setApps (s.apps.createInteraction id responseId method params))
    else none
  | some .running, .publish type data => some (s.setApps (s.apps.publish responseId type data))
  | some .running, .registerAppSession session =>
    some (s.setApps (s.apps.putAppSession { session with responseId := responseId }))
  | some .running, .expireInteraction id =>
    match s.apps.expireInteraction id with
    | .ok (apps, _) => some (s.setApps apps)
    | .error _ => some s
  | some .running, .finish status =>
    some ({ s with active := Function.update s.active responseId false }.setDriver responseId
      (.cancelInteractions status))
  | some (.cancelInteractions status), .proceed =>
    some ((s.setApps (s.apps.cancelResponseInteractions responseId)).setDriver responseId
      (if settings.enabled then .publishClosed status else .closeResponse))
  | some (.publishClosed status), .proceed =>
    some ((s.setApps (s.apps.publish responseId "mcp_app.response.closed"
      (.obj [("response_id", .str responseId), ("status", .str status)]))).setDriver responseId
        .closeResponse)
  | some .closeResponse, .proceed =>
    some ((s.setApps (s.apps.closeResponse responseId)).setDriver responseId .done)
  | _, _ => none

/-- `delete`, from one awaited call to the next. -/
def delete (responseId : String) : DeletePhase → Option (AppsService × AppsRequest)
  | .getActive =>
    some (s, .delete responseId (if s.active responseId then .raised else .storeDelete))
  | .storeDelete =>
    if s.records responseId then
      some ({ s with records := Function.update s.records responseId false },
        .delete responseId .deleteResponse)
    else some (s, .delete responseId .raised)
  | .deleteResponse =>
    some ({ s with
      apps := s.apps.deleteResponse responseId
      deleted := Function.update s.deleted responseId true }, .delete responseId .returned)
  | .returned | .raised => none

/-- `resolve_interaction` of the service. -/
def resolve : ResolvePhase → Option (AppsService × AppsRequest)
  | .resolve id request =>
    match s.apps.resolveInteraction id request with
    | .ok (apps, i) => some (s.setApps apps, .resolve (.publish i))
    | .error error => some (s, .resolve (.raised error))
  | .publish i =>
    some (s.setApps (s.apps.publish i.responseId "mcp_app.elicitation.resolved"
      (.obj [("interaction", i.publicInteraction settings)])), .resolve (.returned i))
  | .returned _ | .raised _ => none

/-- A request goes on. -/
def act (s : AppsService) (t : AppsRequest) (_ : Unit) : Option (AppsService × AppsRequest) :=
  match t with
  | .delete responseId phase => s.delete responseId phase
  | .resolve phase => s.resolve settings phase

/-- `uuid4` gives a Response an id that was neither given out nor asked for. -/
def env (s : AppsService) : AppsRequestEvent → Option (AppsService × List AppsRequest)
  | .start responseId =>
    if s.seen responseId then none
    else some ({ s with
      records := Function.update s.records responseId true
      active := Function.update s.active responseId true
      drivers := Function.update s.drivers responseId (some .running)
      seen := Function.update s.seen responseId true }, [])
  | .drive responseId action => (s.drive settings responseId action).map fun s => (s, [])
  | .cancel responseId => some (s.setApps (s.apps.cancelResponseInteractions responseId), [])
  | .delete responseId =>
    some ({ s with seen := Function.update s.seen responseId true },
      [.delete responseId .getActive])
  | .resolve id request => some (s, [.resolve (.resolve id request)])

end AppsService

/-- The requests, among the steps of the drivers. -/
def appsPool (settings : McpAppsSettings) :
    Pool.Program AppsService AppsRequest Unit AppsRequestEvent :=
  ⟨AppsService.act settings, AppsService.env settings⟩

/-! ## What is meant -/

/-- Nothing is kept for the Response. -/
structure McpAppsState.Forgets (s : McpAppsState) (responseId : String) : Prop where
  events : s.events responseId = none
  nextSequence : s.nextSequence responseId = none
  closed : s.closedResponses responseId = false
  sessions : ∀ callId, s.appSessions responseId callId = none
  ids : s.interactionIdsByResponse responseId = []
  interactions : ∀ id i, s.interaction? id = some i → i.responseId ≠ responseId

/-- The cleanup of the Response is between its first call and its last. -/
def AppsService.CleansUp (s : AppsService) (responseId : String) : Prop :=
  ∃ phase ∈ s.drivers responseId, phase ≠ .running ∧ phase ≠ .done

/-- The Response whose entries the next call of the request drops. -/
def AppsRequest.dropping : AppsRequest → Option String
  | .delete responseId .deleteResponse => some responseId
  | _ => none

/-- The Response for which a resolution is still to be published. -/
def AppsRequest.publishing : AppsRequest → Option String
  | .resolve (.publish i) => some i.responseId
  | _ => none

/-- `delete_response` is called while nothing is still to be done for the Response. -/
def DeletesAlone (w : Pool AppsService AppsRequest) : Pool.Action Unit AppsRequestEvent → Prop
  | .task n _ => ∀ responseId ∈ w.tasks[n]?.bind AppsRequest.dropping,
      ¬ w.shared.CleansUp responseId ∧ ∀ t ∈ w.tasks, t.publishing ≠ some responseId
  | .env _ => True

instance (s : AppsService) (responseId : String) : Decidable (s.CleansUp responseId) :=
  inferInstanceAs (Decidable (∃ phase ∈ s.drivers responseId, phase ≠ .running ∧ phase ≠ .done))

instance (w : Pool AppsService AppsRequest) :
    ∀ a : Pool.Action Unit AppsRequestEvent, Decidable (DeletesAlone w a)
  | .task n _ => inferInstanceAs (Decidable (∀ responseId ∈ w.tasks[n]?.bind AppsRequest.dropping,
      ¬ w.shared.CleansUp responseId ∧ ∀ t ∈ w.tasks, t.publishing ≠ some responseId))
  | .env _ => inferInstanceAs (Decidable True)

/-! ## Where the operations write -/

namespace McpAppsState

/-- What is kept for a Response, by its id, is the same in both. -/
structure SameAt (responseId : String) (s s' : McpAppsState) : Prop where
  events : s'.events responseId = s.events responseId
  nextSequence : s'.nextSequence responseId = s.nextSequence responseId
  closed : s'.closedResponses responseId = s.closedResponses responseId
  sessions : s'.appSessions responseId = s.appSessions responseId
  ids : s'.interactionIdsByResponse responseId = s.interactionIdsByResponse responseId

/-- Nothing is kept for a Response by its id. -/
structure Cleared (responseId : String) (s : McpAppsState) : Prop where
  events : s.events responseId = none
  nextSequence : s.nextSequence responseId = none
  closed : s.closedResponses responseId = false
  sessions : s.appSessions responseId = fun _ => none
  ids : s.interactionIdsByResponse responseId = []

/-- Every interaction of the table is in the set of its Response. -/
def Indexed (s : McpAppsState) : Prop :=
  ∀ id i, s.interaction? id = some i → id ∈ s.interactionIdsByResponse i.responseId

variable {s s' : McpAppsState} {responseId other : String}

theorem SameAt.refl (responseId : String) (s : McpAppsState) : SameAt responseId s s :=
  ⟨rfl, rfl, rfl, rfl, rfl⟩

theorem Cleared.sameAt (h : Cleared responseId s) (hsame : SameAt responseId s s') :
    Cleared responseId s' :=
  ⟨hsame.events.trans h.events, hsame.nextSequence.trans h.nextSequence,
    hsame.closed.trans h.closed, hsame.sessions.trans h.sessions, hsame.ids.trans h.ids⟩

/-- **No interaction is left where the set of the Response is empty.** -/
theorem Cleared.forgets (h : Cleared responseId s) (hs : Indexed s) : s.Forgets responseId where
  events := h.events
  nextSequence := h.nextSequence
  closed := h.closed
  sessions := fun callId => congrFun h.sessions callId
  ids := h.ids
  interactions := fun id i hi hid => by
    have hmem := hs id i hi
    rw [hid, h.ids] at hmem
    cases hmem

section Other

variable (hne : responseId ≠ other)

include hne

theorem sameAt_publish (type : String) (data : Json) :
    SameAt responseId s (s.publish other type data) := by
  constructor <;> simp [publish, notifyAll, Function.update_of_ne hne]

theorem sameAt_closeResponse : SameAt responseId s (s.closeResponse other) := by
  constructor <;> simp [closeResponse, notifyAll, Function.update_of_ne hne]

theorem sameAt_putAppSession {session : AppSession} (hsession : session.responseId = other) :
    SameAt responseId s (s.putAppSession session) := by
  subst hsession
  constructor <;> simp [putAppSession, notifyAll, Function.update_of_ne hne]

theorem sameAt_createInteraction (id method : String) (params : Members) :
    SameAt responseId s (s.createInteraction id other method params) := by
  constructor <;> simp [createInteraction, notifyAll, Function.update_of_ne hne]

theorem sameAt_deleteResponse : SameAt responseId s (s.deleteResponse other) := by
  constructor <;> simp [deleteResponse, notifyAll, Function.update_of_ne hne]

end Other

theorem cleared_deleteResponse (responseId : String) :
    Cleared responseId (s.deleteResponse responseId) := by
  constructor <;> simp [deleteResponse, notifyAll]

theorem sameAt_setObject (id : String) (i : AppInteraction) :
    SameAt responseId s (s.setObject id i) := ⟨rfl, rfl, rfl, rfl, rfl⟩

theorem sameAt_cancelResponseInteractions (other : String) :
    SameAt responseId s (s.cancelResponseInteractions other) := ⟨rfl, rfl, rfl, rfl, rfl⟩

/-- The interactions of the table were there before, in sets that have not lost them. -/
theorem Indexed.of (hs : Indexed s) (h : ∀ id j, s'.interaction? id = some j →
    ∃ i, s.interaction? id = some i ∧ i.responseId = j.responseId ∧
      (id ∈ s.interactionIdsByResponse i.responseId →
        id ∈ s'.interactionIdsByResponse i.responseId)) : Indexed s' := by
  intro id j hj
  obtain ⟨i, hi, hresponse, hmem⟩ := h id j hj
  rw [← hresponse]
  exact hmem (hs id i hi)

theorem Indexed.createInteraction (hs : Indexed s) {id : String} (hid : s.objects id = none)
    (other method : String) (params : Members) :
    Indexed (s.createInteraction id other method params) := by
  intro id' j hj
  obtain ⟨hin, hobject⟩ := interaction?_eq_some.mp hj
  by_cases h : id' = id
  · subst h
    simp only [McpAppsState.createInteraction, notifyAll, Function.update_self,
      Option.some.injEq] at hobject
    subst hobject
    simp [McpAppsState.createInteraction, notifyAll]
  · simp only [McpAppsState.createInteraction, notifyAll, Function.update_of_ne h] at hin hobject ⊢
    have hmem := hs id' j (interaction?_eq_some.mpr ⟨hin, hobject⟩)
    by_cases ho : j.responseId = other
    · rw [ho, Function.update_self]
      exact List.mem_insert_of_mem (ho ▸ hmem)
    · rwa [Function.update_of_ne ho]

theorem Indexed.setObject (hs : Indexed s) {id : String} {i j : AppInteraction}
    (hi : s.interaction? id = some i) (hresponse : j.responseId = i.responseId) :
    Indexed (s.setObject id j) := by
  refine hs.of fun id' k hk => ?_
  obtain ⟨hin, hobject⟩ := interaction?_eq_some.mp hk
  by_cases h : id' = id
  · subst h
    simp only [McpAppsState.setObject, notifyAll, Function.update_self,
      Option.some.injEq] at hobject
    exact ⟨i, hi, hobject ▸ hresponse.symm, fun hmem => hmem⟩
  · simp only [McpAppsState.setObject, notifyAll, Function.update_of_ne h] at hin hobject
    exact ⟨k, interaction?_eq_some.mpr ⟨hin, hobject⟩, rfl, fun hmem => hmem⟩

/-- A settlement of some interactions keeps their Responses. -/
theorem interaction?_of_map {p : AppInteraction → Prop} [DecidablePred p]
    {status : InteractionStatus} {result : InteractionResult} {id : String} {j : AppInteraction}
    (hin : s.interactions id = true)
    (hobject : (s.objects id).map (fun i => if p i then i.settle status result else i) = some j) :
    ∃ i, s.interaction? id = some i ∧ i.responseId = j.responseId := by
  obtain ⟨i, hi, rfl⟩ := Option.map_eq_some_iff.mp hobject
  refine ⟨i, interaction?_eq_some.mpr ⟨hin, hi⟩, ?_⟩
  split_ifs <;> rfl

theorem Indexed.cancelResponseInteractions (hs : Indexed s) (other : String) :
    Indexed (s.cancelResponseInteractions other) := by
  refine hs.of fun id j hj => ?_
  obtain ⟨hin, hobject⟩ := interaction?_eq_some.mp hj
  simp only [McpAppsState.cancelResponseInteractions, notifyAll] at hin hobject
  obtain ⟨i, hi, hresponse⟩ := interaction?_of_map hin hobject
  exact ⟨i, hi, hresponse, fun hmem => hmem⟩

theorem Indexed.deleteResponse (hs : Indexed s) (other : String) :
    Indexed (s.deleteResponse other) := by
  refine hs.of fun id j hj => ?_
  obtain ⟨hin, hobject⟩ := interaction?_eq_some.mp hj
  obtain ⟨hkept, hnot⟩ : s.interactions id = true ∧ id ∉ s.interactionIdsByResponse other := by
    simpa [McpAppsState.deleteResponse, notifyAll] using hin
  simp only [McpAppsState.deleteResponse, notifyAll] at hobject
  obtain ⟨i, hi, hresponse⟩ := interaction?_of_map hkept hobject
  refine ⟨i, hi, hresponse, fun hmem => ?_⟩
  have hne : i.responseId ≠ other := by
    rintro rfl
    exact hnot hmem
  simpa [McpAppsState.deleteResponse, notifyAll, Function.update_of_ne hne] using hmem

/-- What is written for another Response, or for none. -/
theorem Indexed.of_eq (hs : Indexed s) (hobjects : s'.objects = s.objects)
    (hinteractions : s'.interactions = s.interactions)
    (hids : s'.interactionIdsByResponse = s.interactionIdsByResponse) : Indexed s' := by
  refine hs.of fun id j hj => ⟨j, ?_, rfl, fun hmem => hids ▸ hmem⟩
  rwa [interaction?, hobjects, hinteractions] at hj

end McpAppsState

/-! ## The invariant -/

namespace AppsService

/-- A deleted Response is cleared, and its driver is done. -/
structure Good (s : AppsService) : Prop where
  indexed : s.apps.Indexed
  seen : ∀ responseId, s.drivers responseId ≠ none → s.seen responseId = true
  running : ∀ responseId, s.drivers responseId = some .running → s.active responseId = true
  deleted : ∀ responseId, s.deleted responseId = true → s.apps.Cleared responseId ∧
    s.seen responseId = true ∧ s.active responseId = false ∧ ¬ s.CleansUp responseId

/-- What a step does to the ids that requests have named. -/
structure Rely (s s' : AppsService) : Prop where
  seen : ∀ responseId, s.seen responseId = true → s'.seen responseId = true
  active : ∀ responseId, s.seen responseId = true → s.active responseId = false →
    s'.active responseId = false
  deleted : ∀ responseId, s.deleted responseId = true → s'.deleted responseId = true

end AppsService

/-- What a request relies on, by the call it is at. -/
def AppsRequest.Sound (s : AppsService) : AppsRequest → Prop
  | .delete responseId .getActive => s.seen responseId = true
  | .delete responseId .storeDelete | .delete responseId .deleteResponse =>
    s.seen responseId = true ∧ s.active responseId = false
  | .delete responseId .returned => s.deleted responseId = true
  | .resolve (.publish i) => s.deleted i.responseId = false
  | _ => True

section Steps

variable {settings : McpAppsSettings} {s s' : AppsService} {responseId : String}

theorem AppsRequest.Sound.stable {t : AppsRequest} (ht : t.Sound s) (h : s.Rely s')
    (hpublish : ∀ i, t = .resolve (.publish i) → s.deleted i.responseId = false →
      s'.deleted i.responseId = false) : t.Sound s' := by
  rw [AppsRequest.Sound.eq_def] at ht ⊢
  split at ht
  · exact h.seen _ ht
  · exact ⟨h.seen _ ht.1, h.active _ ht.1 ht.2⟩
  · exact ⟨h.seen _ ht.1, h.active _ ht.1 ht.2⟩
  · exact h.deleted _ ht
  · exact hpublish _ rfl ht
  · trivial

namespace AppsService.Good

variable (hs : s.Good)

include hs

/-- A driver that is not done works for a Response that is not deleted. -/
theorem deleted_eq_false {phase : CleanupPhase} (hdriver : s.drivers responseId = some phase)
    (hphase : phase ≠ .done) : s.deleted responseId = false := by
  by_contra hdeleted
  obtain ⟨-, -, hactive, hclean⟩ := hs.deleted responseId (by simpa using hdeleted)
  by_cases hrunning : phase = .running
  · rw [hs.running responseId (hrunning ▸ hdriver)] at hactive
    cases hactive
  · exact hclean ⟨phase, hdriver, hrunning, hphase⟩

theorem setApps {apps : McpAppsState} (hindexed : apps.Indexed)
    (hsame : ∀ other, s.deleted other = true → McpAppsState.SameAt other s.apps apps) :
    (s.setApps apps).Good where
  indexed := hindexed
  seen := hs.seen
  running := hs.running
  deleted := fun other hother => by
    obtain ⟨hcleared, hrest⟩ := hs.deleted other hother
    exact ⟨hcleared.sameAt (hsame other hother), hrest⟩

/-- The driver takes its next step. -/
theorem setDriver {phase phase' : CleanupPhase} (hdriver : s.drivers responseId = some phase)
    (hphase : phase ≠ .done) (hphase' : phase' ≠ .running) :
    (s.setDriver responseId phase').Good where
  indexed := hs.indexed
  seen := fun other hother => by
    by_cases h : other = responseId
    · exact hs.seen other (by simp [h, hdriver])
    · exact hs.seen other (by simpa [AppsService.setDriver, Function.update_of_ne h] using hother)
  running := fun other hother => by
    by_cases h : other = responseId
    · subst h
      simp [AppsService.setDriver, hphase'] at hother
    · exact hs.running other (by
        simpa [AppsService.setDriver, Function.update_of_ne h] using hother)
  deleted := fun other hother => by
    have hne : other ≠ responseId := by
      rintro rfl
      rw [AppsService.setDriver, hs.deleted_eq_false hdriver hphase] at hother
      cases hother
    obtain ⟨hcleared, hseen, hactive, hclean⟩ := hs.deleted other hother
    refine ⟨hcleared, hseen, hactive, ?_⟩
    simpa [AppsService.CleansUp, AppsService.setDriver, Function.update_of_ne hne] using hclean

end AppsService.Good

/-- A step that names no new id, and after which no other Response is deleted. -/
structure AppsService.Quiet (s s' : AppsService) : Prop where
  seen : s'.seen = s.seen
  active : ∀ responseId, s.active responseId = false → s'.active responseId = false
  deleted : s'.deleted = s.deleted

theorem AppsService.quiet_of_eq (hseen : s'.seen = s.seen) (hactive : s'.active = s.active)
    (hdeleted : s'.deleted = s.deleted) : s.Quiet s' :=
  ⟨hseen, fun _ h => hactive ▸ h, hdeleted⟩

theorem AppsRequest.Sound.quiet {t : AppsRequest} (ht : t.Sound s) (h : s.Quiet s') : t.Sound s' :=
  ht.stable ⟨fun _ hseen => h.seen ▸ hseen, fun _ _ => h.active _, fun _ hd => h.deleted ▸ hd⟩
    fun _ _ hd => h.deleted ▸ hd

/-- What a driver that is not done writes is for a Response that is not deleted. -/
theorem AppsService.Good.setApps_driver (hs : s.Good) {phase : CleanupPhase}
    (hdriver : s.drivers responseId = some phase) (hphase : phase ≠ .done) {apps : McpAppsState}
    (hindexed : apps.Indexed)
    (hsame : ∀ other, other ≠ responseId → McpAppsState.SameAt other s.apps apps) :
    (s.setApps apps).Good := by
  refine hs.setApps hindexed fun other hother => hsame other ?_
  rintro rfl
  rw [hs.deleted_eq_false hdriver hphase] at hother
  cases hother

/-- **One step of a driver.** -/
theorem drive_good {action : CleanupAction} (hs : s.Good)
    (h : s.drive settings responseId action = some s') : s'.Good ∧ s.Quiet s' := by
  rw [AppsService.drive.eq_def] at h
  split at h
  case h_1 id method params hdriver =>
    split_ifs at h with hid
    obtain rfl := Option.some.inj h
    refine ⟨hs.setApps_driver hdriver (by decide) ?_ fun other hne => ?_,
      AppsService.quiet_of_eq rfl rfl rfl⟩
    · exact hs.indexed.createInteraction (by simpa using hid) responseId method params
    · exact McpAppsState.sameAt_createInteraction hne id method params
  case h_2 type data hdriver =>
    obtain rfl := Option.some.inj h
    exact ⟨hs.setApps_driver hdriver (by decide) (hs.indexed.of_eq rfl rfl rfl)
      fun other hne => McpAppsState.sameAt_publish hne .., AppsService.quiet_of_eq rfl rfl rfl⟩
  case h_3 session hdriver =>
    obtain rfl := Option.some.inj h
    exact ⟨hs.setApps_driver hdriver (by decide) (hs.indexed.of_eq rfl rfl rfl)
      fun other hne => McpAppsState.sameAt_putAppSession hne rfl,
      AppsService.quiet_of_eq rfl rfl rfl⟩
  case h_4 id hdriver =>
    split at h
    · rename_i hexpire
      obtain rfl := Option.some.inj h
      obtain ⟨i, hi, ⟨-, rfl, rfl⟩ | ⟨-, rfl, rfl⟩⟩ := McpAppsState.expireInteraction_ok hexpire
      · exact ⟨hs.setApps (hs.indexed.setObject hi rfl)
          fun other _ => McpAppsState.sameAt_setObject .., AppsService.quiet_of_eq rfl rfl rfl⟩
      · exact ⟨hs, AppsService.quiet_of_eq rfl rfl rfl⟩
    · obtain rfl := Option.some.inj h
      exact ⟨hs, AppsService.quiet_of_eq rfl rfl rfl⟩
  case h_5 status hdriver =>
    obtain rfl := Option.some.inj h
    have hfalse (other : String) (hother : s.active other = false) :
        Function.update s.active responseId false other = false := by
      by_cases hne : other = responseId
      · rw [hne, Function.update_self]
      · rwa [Function.update_of_ne hne]
    have hnext : (s.setDriver responseId (.cancelInteractions status)).Good :=
      hs.setDriver hdriver (by decide) (by simp)
    refine ⟨⟨hnext.indexed, hnext.seen, fun other hother => ?_, fun other hother => ?_⟩,
      ⟨rfl, hfalse, rfl⟩⟩
    · have hne : other ≠ responseId := by
        rintro rfl
        simp [AppsService.setDriver] at hother
      have hactive := hnext.running other hother
      simpa [AppsService.setDriver, Function.update_of_ne hne] using hactive
    · obtain ⟨hcleared, hseen, hactive, hclean⟩ := hnext.deleted other hother
      exact ⟨hcleared, hseen, hfalse other hactive, hclean⟩
  case h_6 status hdriver =>
    obtain rfl := Option.some.inj h
    have happs := hs.setApps (hs.indexed.cancelResponseInteractions responseId)
      fun other _ => McpAppsState.sameAt_cancelResponseInteractions responseId
    exact ⟨happs.setDriver hdriver (by simp) (by split_ifs <;> simp),
      AppsService.quiet_of_eq rfl rfl rfl⟩
  case h_7 status hdriver =>
    obtain rfl := Option.some.inj h
    have happs : (s.setApps (s.apps.publish responseId "mcp_app.response.closed"
        (.obj [("response_id", .str responseId), ("status", .str status)]))).Good :=
      hs.setApps_driver hdriver (by simp) (hs.indexed.of_eq rfl rfl rfl)
        fun other hne => McpAppsState.sameAt_publish hne ..
    exact ⟨happs.setDriver hdriver (by simp) (by simp), AppsService.quiet_of_eq rfl rfl rfl⟩
  case h_8 hdriver =>
    obtain rfl := Option.some.inj h
    have happs : (s.setApps (s.apps.closeResponse responseId)).Good :=
      hs.setApps_driver hdriver (by simp) (hs.indexed.of_eq rfl rfl rfl)
        fun other hne => McpAppsState.sameAt_closeResponse hne
    exact ⟨happs.setDriver hdriver (by simp) (by simp), AppsService.quiet_of_eq rfl rfl rfl⟩
  case h_9 => cases h

/-- **One step of a resolution.** -/
theorem resolve_good {phase : ResolvePhase} {t' : AppsRequest} (hs : s.Good)
    (ht : (AppsRequest.resolve phase).Sound s) (h : s.resolve settings phase = some (s', t')) :
    s'.Good ∧ s.Quiet s' ∧ t'.Sound s' := by
  cases phase with
  | resolve id request =>
    simp only [AppsService.resolve] at h
    split at h
    · rename_i hresolve
      obtain ⟨rfl, rfl⟩ := Prod.mk.inj (Option.some.inj h)
      obtain ⟨i, hi, -, rfl, rfl⟩ := McpAppsState.resolveInteraction_ok hresolve
      refine ⟨hs.setApps (hs.indexed.setObject hi rfl)
        fun other _ => McpAppsState.sameAt_setObject .., AppsService.quiet_of_eq rfl rfl rfl, ?_⟩
      -- an interaction of the table is in the set of its Response, so that this is not deleted
      change s.deleted i.responseId = false
      by_contra hdeleted
      have hcleared := (hs.deleted i.responseId (by simpa using hdeleted)).1
      exact (hcleared.forgets hs.indexed).interactions id i hi rfl
    · obtain ⟨rfl, rfl⟩ := Prod.mk.inj (Option.some.inj h)
      exact ⟨hs, AppsService.quiet_of_eq rfl rfl rfl, trivial⟩
  | publish i =>
    obtain ⟨rfl, rfl⟩ := Prod.mk.inj (Option.some.inj h)
    refine ⟨hs.setApps (hs.indexed.of_eq rfl rfl rfl) fun other hother => ?_,
      AppsService.quiet_of_eq rfl rfl rfl, trivial⟩
    refine McpAppsState.sameAt_publish ?_ _ _
    rintro rfl
    exact absurd (show s.deleted i.responseId = false from ht) (by simp [hother])
  | returned | raised => cases h

/-- **One step of a deletion**, which clears the Response in the end. -/
theorem delete_good {phase : DeletePhase} {t' : AppsRequest} (hs : s.Good)
    (ht : (AppsRequest.delete responseId phase).Sound s)
    (hclean : phase = .deleteResponse → ¬ s.CleansUp responseId)
    (h : s.delete responseId phase = some (s', t')) :
    s'.Good ∧ s.Rely s' ∧ t'.Sound s' ∧ ∀ other, s'.deleted other = true →
      s.deleted other = true ∨ phase = .deleteResponse ∧ other = responseId := by
  have hrefl : s.Rely s := ⟨fun _ h => h, fun _ _ h => h, fun _ h => h⟩
  cases phase with
  | getActive =>
    obtain ⟨rfl, rfl⟩ := Prod.mk.inj (Option.some.inj h)
    refine ⟨hs, hrefl, ?_, fun other hother => .inl hother⟩
    split_ifs with hactive
    · trivial
    · exact ⟨ht, by simpa using hactive⟩
  | storeDelete =>
    simp only [AppsService.delete] at h
    split_ifs at h
    · obtain ⟨rfl, rfl⟩ := Prod.mk.inj (Option.some.inj h)
      exact ⟨⟨hs.indexed, hs.seen, hs.running, hs.deleted⟩, ⟨fun _ h => h, fun _ _ h => h,
        fun _ h => h⟩, ht, fun other hother => .inl hother⟩
    · obtain ⟨rfl, rfl⟩ := Prod.mk.inj (Option.some.inj h)
      exact ⟨hs, hrefl, trivial, fun other hother => .inl hother⟩
  | deleteResponse =>
    obtain ⟨rfl, rfl⟩ := Prod.mk.inj (Option.some.inj h)
    have hcases (other : String)
        (hother : Function.update s.deleted responseId true other = true) :
        other = responseId ∨ other ≠ responseId ∧ s.deleted other = true := by
      by_cases hne : other = responseId
      · exact .inl hne
      · exact .inr ⟨hne, by rwa [Function.update_of_ne hne] at hother⟩
    refine ⟨⟨hs.indexed.deleteResponse responseId, hs.seen, hs.running, fun other hother => ?_⟩,
      ⟨fun _ h => h, fun _ _ h => h, fun other hother => ?_⟩, ?_, fun other hother => ?_⟩
    · rcases hcases other hother with rfl | ⟨hne, hold⟩
      · exact ⟨McpAppsState.cleared_deleteResponse _, ht.1, ht.2, hclean rfl⟩
      · obtain ⟨hcleared, hrest⟩ := hs.deleted other hold
        exact ⟨hcleared.sameAt (McpAppsState.sameAt_deleteResponse hne), hrest⟩
    · by_cases hne : other = responseId
      · simp [hne]
      · simpa [Function.update_of_ne hne] using hother
    · exact Function.update_self ..
    · rcases hcases other hother with hsame | ⟨-, hold⟩
      · exact .inr ⟨rfl, hsame⟩
      · exact .inl hold
  | returned | raised => cases h

/-- **One step from outside**, which starts a Response or a request. -/
theorem env_good {e : AppsRequestEvent} {ts : List AppsRequest} (hs : s.Good)
    (h : AppsService.env settings s e = some (s', ts)) :
    s'.Good ∧ s.Rely s' ∧ (∀ t ∈ ts, t.Sound s') ∧ s'.deleted = s.deleted := by
  have hquiet (h : s.Quiet s') : s.Rely s' :=
    ⟨fun _ hseen => h.seen ▸ hseen, fun _ _ => h.active _, fun _ hd => h.deleted ▸ hd⟩
  have hmono (responseId other : String) (hother : s.seen other = true) :
      Function.update s.seen responseId true other = true := by
    by_cases hne : other = responseId
    · simp [hne]
    · rwa [Function.update_of_ne hne]
  cases e with
  | start responseId =>
    simp only [AppsService.env] at h
    split_ifs at h with hseen
    obtain ⟨rfl, rfl⟩ := Prod.mk.inj (Option.some.inj h)
    have hother (other : String) (ho : s.seen other = true) : other ≠ responseId := by
      rintro rfl
      exact hseen ho
    refine ⟨⟨hs.indexed, fun other hdriver => ?_, fun other hdriver => ?_,
      fun other hdeleted => ?_⟩, ⟨fun other ho => hmono responseId other ho,
        fun other ho hactive => ?_, fun _ h => h⟩, by simp, rfl⟩
    · by_cases hne : other = responseId
      · simp [hne]
      · exact hmono responseId other (hs.seen other (by
          simpa [Function.update_of_ne hne] using hdriver))
    · by_cases hne : other = responseId
      · simp [hne]
      · simp only [Function.update_of_ne hne] at hdriver ⊢
        exact hs.running other hdriver
    · obtain ⟨hcleared, ho, hactive, hclean⟩ := hs.deleted other hdeleted
      have hne := hother other ho
      refine ⟨hcleared, hmono responseId other ho, ?_, ?_⟩
      · simpa [Function.update_of_ne hne] using hactive
      · simpa [AppsService.CleansUp, Function.update_of_ne hne] using hclean
    · simpa [Function.update_of_ne (hother other ho)] using hactive
  | drive responseId action =>
    obtain ⟨m, hm, heq⟩ := Option.map_eq_some_iff.mp h
    obtain ⟨rfl, rfl⟩ := Prod.mk.inj heq
    obtain ⟨hgood, hq⟩ := drive_good hs hm
    exact ⟨hgood, hquiet hq, by simp, hq.deleted⟩
  | cancel responseId =>
    obtain ⟨rfl, rfl⟩ := Prod.mk.inj (Option.some.inj h)
    exact ⟨hs.setApps (hs.indexed.cancelResponseInteractions responseId)
      fun other _ => McpAppsState.sameAt_cancelResponseInteractions responseId,
      hquiet (AppsService.quiet_of_eq rfl rfl rfl), by simp, rfl⟩
  | delete responseId =>
    obtain ⟨rfl, rfl⟩ := Prod.mk.inj (Option.some.inj h)
    refine ⟨⟨hs.indexed, fun other hdriver => hmono responseId other (hs.seen other hdriver),
      hs.running, fun other hdeleted => ?_⟩,
      ⟨fun other ho => hmono responseId other ho, fun _ _ h => h, fun _ h => h⟩,
      fun t ht => ?_, rfl⟩
    · obtain ⟨hcleared, ho, hrest⟩ := hs.deleted other hdeleted
      exact ⟨hcleared, hmono responseId other ho, hrest⟩
    · rw [List.mem_singleton.mp ht]
      exact Function.update_self ..
  | resolve id request =>
    obtain ⟨rfl, rfl⟩ := Prod.mk.inj (Option.some.inj h)
    exact ⟨hs, hquiet (AppsService.quiet_of_eq rfl rfl rfl), fun t ht => by
      rw [List.mem_singleton.mp ht]
      trivial, rfl⟩

end Steps

/-! ## Runs -/

theorem appsPool_invariant (settings : McpAppsSettings) :
    Pool.Invariant (appsPool settings) DeletesAlone AppsService.Good AppsRequest.Sound where
  act := fun w n t _ s' t' hcond hw ht h => by
    have hsound := hw.tasks t (List.mem_of_getElem? ht)
    cases t with
    | delete responseId phase =>
      have halone (hphase : phase = .deleteResponse) := hcond responseId (by
        rw [ht, hphase]
        rfl)
      obtain ⟨hgood, hrely, hsound', hdeleted⟩ := delete_good hw.shared hsound
        (fun hphase => (halone hphase).1) h
      refine ⟨hgood, hsound', fun u hu => (hw.tasks u hu).stable hrely fun i hi hfalse => ?_⟩
      by_contra htrue
      rcases hdeleted i.responseId (by simpa using htrue) with hold | ⟨hphase, hsame⟩
      · rw [hfalse] at hold
        cases hold
      · exact (halone hphase).2 u hu (by rw [hi, AppsRequest.publishing, hsame])
    | resolve phase =>
      obtain ⟨hgood, hquiet, hsound'⟩ := resolve_good hw.shared hsound h
      exact ⟨hgood, hsound', fun u hu => (hw.tasks u hu).quiet hquiet⟩
  env := fun w e s' ts _ hw h => by
    obtain ⟨hgood, hrely, hts, hdeleted⟩ := env_good hw.shared h
    exact ⟨hgood, hts, fun u hu => (hw.tasks u hu).stable hrely fun _ _ hfalse =>
      hdeleted ▸ hfalse⟩

/-- **A deleted Response is forgotten**, in every run whose deletions come while no cleanup of the
Response is under way and no resolution of one of its interactions is still to be published. -/
theorem deleted_forgotten {settings : McpAppsSettings} {maxEventHistory : ℕ}
    {as : List (Pool.Action Unit AppsRequestEvent)} {w : Pool AppsService AppsRequest}
    (hmeets : Machine.Meets (Pool.step (appsPool settings)) DeletesAlone
      ⟨.init maxEventHistory, []⟩ as)
    (hrun : Machine.run (Pool.step (appsPool settings)) ⟨.init maxEventHistory, []⟩ as = some w)
    {responseId : String} (h : .delete responseId .returned ∈ w.tasks) :
    w.shared.apps.Forgets responseId := by
  have hinit : Pool.Holds AppsService.Good AppsRequest.Sound
      (⟨.init maxEventHistory, []⟩ : Pool AppsService AppsRequest) := by
    refine ⟨⟨fun id i hi => ?_, fun _ h => absurd rfl h, fun _ h => ?_, fun _ h => ?_⟩, by simp⟩
    · cases hi
    · cases h
    · cases h
  have hw := (appsPool_invariant settings).run hmeets hrun hinit
  exact (hw.shared.deleted responseId (hw.tasks _ h)).1.forgets hw.shared.indexed

/-- A Response whose deletion is asked for after its cleanup. -/
theorem deleted_forgotten_sample :
    let settings : McpAppsSettings := ⟨true, ""⟩
    let as : List (Pool.Action Unit AppsRequestEvent) :=
      [.env (.start "resp_1"), .env (.drive "resp_1" (.createInteraction "mcpint_1" "m" [])),
        .env (.drive "resp_1" (.finish "completed")), .env (.drive "resp_1" .proceed),
        .env (.drive "resp_1" .proceed), .env (.drive "resp_1" .proceed), .env (.delete "resp_1"),
        .task 0 (), .task 0 (), .task 0 ()]
    ∃ w, Machine.run (Pool.step (appsPool settings)) ⟨.init 512, []⟩ as = some w ∧
      w.shared.apps.Forgets "resp_1" := by
  intro settings as
  have hrun : ∃ w, Machine.run (Pool.step (appsPool settings)) ⟨.init 512, []⟩ as = some w ∧
      .delete "resp_1" .returned ∈ w.tasks := ⟨_, rfl, List.mem_singleton_self _⟩
  obtain ⟨w, hrun, hdelete⟩ := hrun
  have hmeets : Machine.Meets (Pool.step (appsPool settings)) DeletesAlone ⟨.init 512, []⟩ as := by
    decide +kernel
  exact ⟨w, hrun, deleted_forgotten hmeets hrun hdelete⟩

/-- The deletion comes between the first call of the cleanup and the others: the closing event and
the closed mark are kept for good. -/
theorem deleted_forgotten_early : ¬ ∀ (settings : McpAppsSettings) (maxEventHistory : ℕ)
    (as : List (Pool.Action Unit AppsRequestEvent)) (w : Pool AppsService AppsRequest),
      Machine.run (Pool.step (appsPool settings)) ⟨.init maxEventHistory, []⟩ as = some w →
      ∀ responseId, .delete responseId .returned ∈ w.tasks →
        w.shared.apps.Forgets responseId := by
  intro h
  have hrun : ∃ w, Machine.run (Pool.step (appsPool ⟨true, ""⟩)) ⟨.init 512, []⟩
      [.env (.start "resp_1"), .env (.drive "resp_1" (.finish "completed")),
        .env (.delete "resp_1"), .task 0 (), .task 0 (), .env (.drive "resp_1" .proceed),
        .task 0 (), .env (.drive "resp_1" .proceed), .env (.drive "resp_1" .proceed)] = some w ∧
      .delete "resp_1" .returned ∈ w.tasks ∧ w.shared.apps.closedResponses "resp_1" = true :=
    ⟨_, rfl, List.mem_singleton_self _, rfl⟩
  obtain ⟨w, hrun, hdelete, hclosed⟩ := hrun
  have hforgets := h _ _ _ w hrun "resp_1" hdelete
  rw [hforgets.closed] at hclosed
  cases hclosed

end CodexGateway.Adapter
