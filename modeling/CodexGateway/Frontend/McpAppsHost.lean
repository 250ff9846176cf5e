import Mathlib.Data.List.Sort
import CodexGateway.Adapter.Interactions
import CodexGateway.SandboxApi.Grants

/-!
# Frontend/McpAppsHost — the page asks its user what the Apps ask

A session of the page reads the state of a Response, asks about what is pending, and then follows
the side events.  It keeps the ids it has handled, so that no interaction is asked about twice.

The event source is new and starts at the first event that is retained.  An interaction that was
settled when the session started is not among the handled ones, and where its request is still in
the history, or is published late, the user is asked about it (`session_asks_iff`).
-/

namespace CodexGateway.Frontend

open PyJson Adapter SandboxApi

/-! ## What the Adapter serves -/

/-- The `interactions` of `app_state`. -/
def appStateInteractions (settings : McpAppsSettings) (s : McpAppsState) (responseId : String) :
    List Json :=
  (((s.interactionIdsByResponse responseId).insertionSort (· ≤ ·)).filterMap s.interaction?).map
    (AppInteraction.publicInteraction settings)

/-- An interaction as the page reads it. -/
structure McpAppInteraction where
  id : String
  status : String
  resolveUrl : Option String

/-- The interaction of an event, where it has an id. -/
def mcpAppInteraction? : Json → Option McpAppInteraction
  | .obj ms => (text? (Members.get ms "id")).map fun id =>
      ⟨id, (text? (Members.get ms "status")).getD "", text? (Members.get ms "resolve_url")⟩
  | _ => none

/-- `payload.data?.interaction` of a `mcp_app.elicitation.requested` event -/
def requestedInteraction? (event : AppEvent) : Option McpAppInteraction :=
  if event.type = "mcp_app.elicitation.requested" then
    match event.data with
    | .obj data => mcpAppInteraction? (Members.get data "interaction")
    | _ => none
  else none

/-! ## The session -/

/-- A page with a session: whether it was given `onElicitation`. -/
structure AppPage where
  settings : McpAppsSettings
  responseId : String
  onElicitation : Bool

/-- `cursor` is the server's; what is in flight has been sent and not been dispatched. -/
structure EventSource where
  inFlight : List AppEvent
  cursor : ℤ
  lastEventId : ℤ

/-- What `handle` awaits: the callback, or the request that resolves. -/
inductive HandlePhase where
  | asking (interaction : McpAppInteraction)
  | resolving (interaction : McpAppInteraction) (resolution : ResolveInteractionRequest)
  | returned
  | raised

/-- What `start` is at; it awaits each `handle` before it looks at the next interaction. -/
inductive StartPhase where
  | state
  | next (rest : List McpAppInteraction) (closed : Bool)
  | handling (handle : HandlePhase) (rest : List McpAppInteraction) (closed : Bool)
  | returned
  | raised

/-- A handler of the driver, the start of the session, or the `handle` of an event. -/
inductive HostTask where
  | handler (t : RequestHandler)
  | start (phase : StartPhase)
  | handle (phase : HandlePhase)

/-- The Apps of the Adapter and the session; `called` is what `onElicitation` was called with, and
`atStart` the Apps when the session was started. -/
structure AppHost where
  apps : McpAppsState
  atStart : Option McpAppsState
  handled : List String
  called : List String
  source : Option EventSource

/-- The callback answers, an awaited request returns, or either fails, done or not. -/
inductive SessionAction where
  | proceed
  | answer (resolution : ResolveInteractionRequest)
  | fail (done : Bool)

/-- What a task of the host does. -/
inductive HostAction where
  | handler (a : HandlerAction)
  | session (a : SessionAction)

/-- An operation at the Adapter, or an event of the page. -/
inductive HostEvent where
  | server (e : InteractionEvent)
  | closeResponse
  | start
  | fetch
  | dispatch
  | reconnect
  | stop

namespace HandlePhase

/-- The effect of `client.resolve` at the Adapter, and how it ends. -/
def resolve (s : McpAppsState) (interaction : McpAppInteraction)
    (resolution : ResolveInteractionRequest) : McpAppsState × HandlePhase :=
  match interaction.resolveUrl with
  | none => (s, .raised)
  | some _ =>
    match s.resolveInteraction interaction.id resolution with
    | .ok (s, _) => (s, .returned)
    | .error _ => (s, .raised)

/-- `handle`, from one awaited call to the next. -/
def act (s : McpAppsState) : HandlePhase → SessionAction → Option (McpAppsState × HandlePhase)
  | .asking interaction, .answer resolution => some (s, .resolving interaction resolution)
  | .asking _, .fail _ => some (s, .raised)
  | .resolving interaction resolution, .proceed => some (resolve s interaction resolution)
  | .resolving interaction resolution, .fail done =>
    some (if done then (resolve s interaction resolution).1 else s, .raised)
  | _, _ => none

end HandlePhase

namespace AppPage

variable (page : AppPage)

/-- `handle`, up to its first await; nothing is left to do where the interaction is handled. -/
def handle (w : AppHost) (interaction : McpAppInteraction) : AppHost × HandlePhase :=
  if interaction.id ∈ w.handled then (w, .returned)
  else if page.onElicitation then
    ({ w with
      handled := w.handled ++ [interaction.id]
      called := w.called ++ [interaction.id] }, .asking interaction)
  else
    ({ w with handled := w.handled ++ [interaction.id] },
      .resolving interaction ⟨.cancel, .null, .null⟩)

/-- `start`, from one awaited call to the next. -/
def startAct (w : AppHost) : StartPhase → SessionAction → Option (AppHost × StartPhase)
  | .state, .proceed => some (w, .next
      ((appStateInteractions page.settings w.apps page.responseId).filterMap mcpAppInteraction?)
      (w.apps.closedResponses page.responseId))
  | .state, .fail _ => some (w, .raised)
  | .next (interaction :: rest) closed, .proceed =>
    if interaction.status = "pending" then
      let (w, phase) := page.handle w interaction
      some (w, .handling phase rest closed)
    else some (w, .next rest closed)
  | .next [] closed, .proceed =>
    if closed then some (w, .returned)
    else some ({ w with source := some ⟨[], -1, -1⟩ }, .returned)
  | .handling .returned rest closed, .proceed => some (w, .next rest closed)
  | .handling .raised _ _, .proceed => some (w, .raised)
  | .handling phase rest closed, a =>
    (phase.act w.apps a).map fun r => ({ w with apps := r.1 }, .handling r.2 rest closed)
  | _, _ => none

/-- A task of the host goes on. -/
def act (w : AppHost) : HostTask → HostAction → Option (AppHost × HostTask)
  | .handler t, .handler a =>
    (t.act page.settings w.apps a).map fun r => ({ w with apps := r.1 }, .handler r.2)
  | .start phase, .session a => (page.startAct w phase a).map fun r => (r.1, .start r.2)
  | .handle phase, .session a =>
    (phase.act w.apps a).map fun r => ({ w with apps := r.1 }, .handle r.2)
  | _, _ => none

/-- An event is dispatched to the listeners of the source. -/
def dispatch (w : AppHost) (source : EventSource) (event : AppEvent) (rest : List AppEvent) :
    AppHost × List HostTask :=
  let w := { w with
    source := some { source with inFlight := rest, lastEventId := event.sequenceNumber } }
  match requestedInteraction? event with
  | some interaction =>
    let (w, phase) := page.handle w interaction
    (w, [.handle phase])
  | none =>
    if event.type = "mcp_app.response.closed" then ({ w with source := none }, []) else (w, [])

/-- Only the handlers publish requests. -/
def isServerEvent : InteractionEvent → Bool
  | .publish _ type _ => type ≠ "mcp_app.elicitation.requested"
  | _ => true

/-- What reaches the page from outside. -/
def env (w : AppHost) : HostEvent → Option (AppHost × List HostTask)
  | .server e =>
    if isServerEvent e then
      (interactionEnv page.settings w.apps e).map fun r =>
        ({ w with apps := r.1 }, r.2.map .handler)
    else none
  | .closeResponse => some ({ w with apps := w.apps.closeResponse page.responseId }, [])
  | .start =>
    match w.atStart with
    | none => some ({ w with atStart := some w.apps }, [.start .state])
    | some _ => none
  | .fetch =>
    w.source.map fun source =>
      let events := w.apps.eventsAfter page.responseId source.cursor
      ({ w with source := some { source with
        inFlight := source.inFlight ++ events
        cursor := events.foldl (fun cursor event => max cursor event.sequenceNumber)
          source.cursor } }, [])
  | .dispatch =>
    match w.source with
    | some source =>
      match source.inFlight with
      | event :: rest => some (page.dispatch w source event rest)
      | [] => none
    | none => none
  | .reconnect =>
    w.source.map fun source =>
      ({ w with source := some ⟨[], source.lastEventId, source.lastEventId⟩ }, [])
  | .stop => some ({ w with source := none }, [])

end AppPage

/-- The driver's handlers and the session of a page. -/
def appHost (page : AppPage) : Pool.Program AppHost HostTask HostAction HostEvent :=
  ⟨page.act, page.env⟩

/-- Before there is any interaction, and before the session is started. -/
def AppHost.init (maxEventHistory : ℕ) : AppHost :=
  ⟨McpAppsState.init maxEventHistory, none, [], [], none⟩

/-! ## What is meant -/

/-- The interaction was resolved, expired or cancelled when the session was started. -/
def AppHost.SettledAtStart (w : AppHost) (id : String) : Prop :=
  ∃ s i, w.atStart = some s ∧ s.objects id = some i ∧ i.status ≠ .pending

/-- The next event that is dispatched does not request an interaction that was settled when the
session was started. -/
def NotReplayed (page : AppPage) (w : AppHost) : HostEvent → Prop
  | .dispatch => ∀ source event rest interaction, w.source = some source →
      source.inFlight = event :: rest → requestedInteraction? event = some interaction →
      page.onElicitation = true → ¬ w.SettledAtStart interaction.id
  | _ => True

/-- A run in which no request of an interaction is replayed that was settled at the start. -/
def Unreplayed (page : AppPage) (w : Pool AppHost HostTask)
    (as : List (Pool.Action HostAction HostEvent)) : Prop :=
  Machine.Meets (Pool.step (appHost page))
    (Pool.stepCond (fun _ _ _ => True) (NotReplayed page)) w as

/-! ## The ids of the interactions -/

/-- Every interaction is kept under its id. -/
def Named (s : McpAppsState) : Prop := ∀ id i, s.objects id = some i → i.id = id

section Server

variable {settings : McpAppsSettings} {s s' : McpAppsState}

theorem named_of_eq (hs : Named s) (h : s'.objects = s.objects) : Named s' :=
  fun id i hi => hs id i (h ▸ hi)

theorem Named.setObject (hs : Named s) {i : AppInteraction} {id : String} (hid : i.id = id) :
    Named (s.setObject id i) := by
  intro other j hj
  change Function.update s.objects id (some i) other = some j at hj
  by_cases h : other = id
  · subst h
    rw [Function.update_self] at hj
    exact Option.some.inj hj ▸ hid
  · rw [Function.update_of_ne h] at hj
    exact hs other j hj

/-- Interactions that are settled in place keep their ids. -/
theorem named_map (hs : Named s) {p : String → AppInteraction → Prop}
    [∀ id, DecidablePred (p id)] {status : InteractionStatus} {result : InteractionResult}
    (h : ∀ id, s'.objects id =
      (s.objects id).map fun i => if p id i then i.settle status result else i) : Named s' := by
  intro id j hj
  rw [h id] at hj
  obtain ⟨i, hi, rfl⟩ := Option.map_eq_some_iff.mp hj
  split_ifs
  · exact hs id i hi
  · exact hs id i hi

theorem Named.resolve (hs : Named s) {id : String} {request : ResolveInteractionRequest}
    {j : AppInteraction} (h : s.resolveInteraction id request = .ok (s', j)) : Named s' := by
  obtain ⟨i, hi, -, rfl, rfl⟩ := McpAppsState.resolveInteraction_ok h
  exact hs.setObject (hs id i (McpAppsState.interaction?_eq_some.mp hi).2)

theorem Named.expire (hs : Named s) {id : String} {j : AppInteraction}
    (h : s.expireInteraction id = .ok (s', j)) : Named s' := by
  obtain ⟨i, hi, ⟨-, rfl, rfl⟩ | ⟨-, -, rfl⟩⟩ := McpAppsState.expireInteraction_ok h
  · exact hs.setObject (hs id i (McpAppsState.interaction?_eq_some.mp hi).2)
  · exact hs

theorem Named.create (hs : Named s) (id responseId method : String) (params : Members) :
    Named (s.createInteraction id responseId method params) :=
  named_of_eq (hs.setObject (i := ⟨id, responseId, method, params, .pending, none, none⟩) rfl) rfl

theorem Named.env (hs : Named s) {e : InteractionEvent} {ts : List RequestHandler}
    (h : interactionEnv settings s e = some (s', ts)) : Named s' := by
  cases e with
  | request request => exact (Prod.mk.inj (Option.some.inj h)).1 ▸ hs
  | create id responseId method params =>
    rw [interactionEnv] at h
    split_ifs at h
    exact (Prod.mk.inj (Option.some.inj h)).1 ▸ hs.create id responseId method params
  | resolve id request =>
    rw [interactionEnv] at h
    cases hresolve : s.resolveInteraction id request with
    | ok r =>
      rw [hresolve] at h
      exact (Prod.mk.inj (Option.some.inj h)).1 ▸ hs.resolve hresolve
    | error e =>
      rw [hresolve] at h
      exact (Prod.mk.inj (Option.some.inj h)).1 ▸ hs
  | expire id =>
    rw [interactionEnv] at h
    cases hexpire : s.expireInteraction id with
    | ok r =>
      rw [hexpire] at h
      exact (Prod.mk.inj (Option.some.inj h)).1 ▸ hs.expire hexpire
    | error e =>
      rw [hexpire] at h
      exact (Prod.mk.inj (Option.some.inj h)).1 ▸ hs
  | cancelResponse responseId =>
    exact (Prod.mk.inj (Option.some.inj h)).1 ▸ named_map hs fun _ => rfl
  | delete responseId =>
    exact (Prod.mk.inj (Option.some.inj h)).1 ▸ named_map hs fun _ => rfl
  | publish responseId type data =>
    exact (Prod.mk.inj (Option.some.inj h)).1 ▸ named_of_eq hs rfl

theorem Named.handler (hs : Named s) {t t' : RequestHandler} {a : HandlerAction}
    (h : t.act settings s a = some (s', t')) : Named s' := by
  cases a with
  | create id =>
    rw [RequestHandler.act] at h
    split at h
    · split_ifs at h
      exact (Prod.mk.inj (Option.some.inj h)).1 ▸ hs.create _ _ _ _
    · cases h
  | proceed =>
    rw [RequestHandler.act] at h
    split at h
    · exact (Prod.mk.inj (Option.some.inj h)).1 ▸ named_of_eq hs rfl
    · split at h
      · exact (Prod.mk.inj (Option.some.inj h)).1 ▸ hs
      · cases h
    · split at h
      · rename_i hexpire
        exact (Prod.mk.inj (Option.some.inj h)).1 ▸ hs.expire hexpire
      · exact (Prod.mk.inj (Option.some.inj h)).1 ▸ hs
    · exact (Prod.mk.inj (Option.some.inj h)).1 ▸ named_of_eq hs rfl
    · cases h
  | timeout =>
    rw [RequestHandler.act] at h
    split at h
    · exact (Prod.mk.inj (Option.some.inj h)).1 ▸ hs
    · cases h
  | cancelled =>
    rw [RequestHandler.act] at h
    split at h
    all_goals first
      | exact (Prod.mk.inj (Option.some.inj h)).1 ▸ hs
      | cases h

end Server

/-! ## What holds of the session -/

/-- What holds of the Apps and of the session: `onElicitation` is called for what is handled. -/
structure Session (page : AppPage) (w : AppHost) : Prop where
  coherent : w.apps.Coherent
  named : Named w.apps
  evolves : ∀ s, w.atStart = some s → s.Evolves w.apps
  fresh : w.atStart = none → w.handled = [] ∧ w.source = none
  called : w.called = if page.onElicitation then w.handled else []
  nodup : w.handled.Nodup

/-- What `start` has yet to look at. -/
def StartPhase.rest : StartPhase → List McpAppInteraction
  | .next rest _ | .handling _ rest _ => rest
  | _ => []

/-- What a task relies on: what `start` finds pending was not settled when it began. -/
def HostTask.Sound (w : AppHost) : HostTask → Prop
  | .handler t => t.Backed w.apps
  | .start phase => w.atStart.isSome ∧ ∀ interaction ∈ phase.rest,
      interaction.status = "pending" → ¬ w.SettledAtStart interaction.id
  | .handle _ => w.atStart.isSome

/-- The Apps evolve, and the session is started once. -/
structure Evolves (w w' : AppHost) : Prop where
  apps : w.apps.Evolves w'.apps
  atStart : ∀ s, w.atStart = some s → w'.atStart = some s

/-- `onElicitation` was called only for interactions that were not settled at the start. -/
def AppHost.Unsettled (w : AppHost) : Prop := ∀ id ∈ w.called, ¬ w.SettledAtStart id

section Host

variable {page : AppPage} {w w' : AppHost} {interaction : McpAppInteraction}

theorem settledAtStart_iff (h : w'.atStart = w.atStart) (id : String) :
    w'.SettledAtStart id ↔ w.SettledAtStart id := by
  rw [AppHost.SettledAtStart, AppHost.SettledAtStart, h]

theorem unsettled_iff (hstart : w'.atStart = w.atStart) (hcalled : w'.called = w.called) :
    w'.Unsettled ↔ w.Unsettled := by
  rw [AppHost.Unsettled, AppHost.Unsettled, hcalled]
  exact forall₂_congr fun id _ => not_congr (settledAtStart_iff hstart id)

/-- What is pending was not settled earlier. -/
theorem Session.not_settledAtStart (h : Session page w) {id : String} {i : AppInteraction}
    (hi : w.apps.objects id = some i) (hpending : i.status = .pending) :
    ¬ w.SettledAtStart i.id := by
  rintro ⟨s, j, hstart, hj, hsettled⟩
  rw [h.named id i hi] at hj
  obtain ⟨k, hk, hlater⟩ := (h.evolves s hstart).later id j hj
  obtain rfl := Option.some.inj (hi.symm.trans hk)
  exact hsettled (hlater.same hsettled ▸ hpending)

theorem mcpAppInteraction?_publicInteraction (settings : McpAppsSettings) (i : AppInteraction) :
    ∃ url, mcpAppInteraction? (i.publicInteraction settings) =
      some ⟨i.id, i.status.value, some url⟩ := ⟨_, rfl⟩

theorem value_eq_pending {status : InteractionStatus} :
    status.value = "pending" ↔ status = .pending := by
  cases status <;> decide

/-- What the state shows as pending is pending. -/
theorem Session.not_settled_of_state (h : Session page w)
    (hmem : interaction ∈
      (appStateInteractions page.settings w.apps page.responseId).filterMap mcpAppInteraction?)
    (hpending : interaction.status = "pending") : ¬ w.SettledAtStart interaction.id := by
  obtain ⟨view, hview, hparse⟩ := List.mem_filterMap.mp hmem
  obtain ⟨i, hi, rfl⟩ := List.mem_map.mp hview
  obtain ⟨id, -, hid⟩ := List.mem_filterMap.mp hi
  obtain ⟨url, hurl⟩ := mcpAppInteraction?_publicInteraction page.settings i
  obtain rfl := Option.some.inj (hurl.symm.trans hparse)
  exact h.not_settledAtStart (McpAppsState.interaction?_eq_some.mp hid).2
    (value_eq_pending.mp hpending)

/-- A step of the Apps leaves the session as it is. -/
theorem Session.apps (h : Session page w) {s : McpAppsState}
    (hsteps : McpAppsState.Steps w.apps s) (hnamed : Named s) :
    Session page { w with apps := s } ∧ Evolves w { w with apps := s } :=
  ⟨⟨hsteps.coherent h.coherent, hnamed,
    fun start hstart => (h.evolves start hstart).trans hsteps.evolves, h.fresh, h.called, h.nodup⟩,
    hsteps.evolves, fun _ hstart => hstart⟩

/-- **An interaction is asked about once**, and is asked about where it is not handled yet. -/
theorem Session.handle (h : Session page w) (interaction : McpAppInteraction)
    (hstart : w.atStart.isSome) :
    Session page (page.handle w interaction).1 ∧ Evolves w (page.handle w interaction).1 ∧
      ((page.handle w interaction).1.Unsettled ↔ w.Unsettled ∧
        (page.onElicitation = true → ¬ w.SettledAtStart interaction.id)) := by
  have hsome (hnone : w.atStart = none) : False := by
    rw [hnone] at hstart
    cases hstart
  have hnodup (hnew : interaction.id ∉ w.handled) : (w.handled ++ [interaction.id]).Nodup := by
    simpa [List.concat_eq_append] using h.nodup.concat hnew
  have hcalled := h.called
  rw [AppPage.handle]
  split_ifs with hhandled hon
  · refine ⟨h, ⟨.refl _, fun _ hs => hs⟩, fun hunsettled => ⟨hunsettled, fun hon => ?_⟩,
      fun hboth => hboth.1⟩
    rw [if_pos hon] at hcalled
    exact hunsettled interaction.id (hcalled ▸ hhandled)
  · rw [if_pos hon] at hcalled
    refine ⟨⟨h.coherent, h.named, h.evolves, fun hnone => (hsome hnone).elim, ?_, hnodup hhandled⟩,
      ⟨.refl _, fun _ hs => hs⟩, ?_⟩
    · rw [if_pos hon, hcalled]
    · constructor
      · intro hunsettled
        exact ⟨fun id hid => hunsettled id (List.mem_append_left _ hid),
          fun _ => hunsettled interaction.id (List.mem_append_right _ (List.mem_singleton_self _))⟩
      · rintro ⟨hunsettled, hnew⟩ id hid
        rcases List.mem_append.mp hid with hid | hid
        · exact hunsettled id hid
        · exact List.mem_singleton.mp hid ▸ hnew hon
  · rw [if_neg hon] at hcalled
    refine ⟨⟨h.coherent, h.named, h.evolves, fun hnone => (hsome hnone).elim, ?_, hnodup hhandled⟩,
      ⟨.refl _, fun _ hs => hs⟩,
      fun hunsettled => ⟨hunsettled, fun hyes => absurd hyes hon⟩, fun hboth => hboth.1⟩
    rw [if_neg hon, hcalled]

theorem handlePhase_steps {s s' : McpAppsState} (hnamed : Named s) {phase phase' : HandlePhase}
    {a : SessionAction} (h : phase.act s a = some (s', phase')) :
    McpAppsState.Steps s s' ∧ Named s' := by
  have hresolve (interaction : McpAppInteraction) (resolution : ResolveInteractionRequest) :
      McpAppsState.Steps s (HandlePhase.resolve s interaction resolution).1 ∧
        Named (HandlePhase.resolve s interaction resolution).1 := by
    rw [HandlePhase.resolve]
    split
    · exact ⟨McpAppsState.steps_of_eq rfl rfl, hnamed⟩
    · cases hres : s.resolveInteraction interaction.id resolution with
      | ok r => exact ⟨McpAppsState.steps_resolveInteraction hres, hnamed.resolve hres⟩
      | error e => exact ⟨McpAppsState.steps_of_eq rfl rfl, hnamed⟩
  rw [HandlePhase.act.eq_def] at h
  split at h
  · exact (Prod.mk.inj (Option.some.inj h)).1 ▸ ⟨McpAppsState.steps_of_eq rfl rfl, hnamed⟩
  · exact (Prod.mk.inj (Option.some.inj h)).1 ▸ ⟨McpAppsState.steps_of_eq rfl rfl, hnamed⟩
  · rename_i interaction resolution
    have heq : (HandlePhase.resolve s interaction resolution).1 = s' :=
      congrArg Prod.fst (Option.some.inj h)
    exact heq ▸ hresolve interaction resolution
  · rw [← (Prod.mk.inj (Option.some.inj h)).1]
    split_ifs
    · exact hresolve _ _
    · exact ⟨McpAppsState.steps_of_eq rfl rfl, hnamed⟩
  · cases h

/-- A handler of the driver, a deletion or another operation leaves the session as it is. -/
theorem Session.apps_step (h : Session page w) {s : McpAppsState}
    (hsteps : McpAppsState.Steps w.apps s) (hnamed : Named s) :
    Session page { w with apps := s } ∧ Evolves w { w with apps := s } ∧
      (AppHost.Unsettled { w with apps := s } ↔ w.Unsettled) :=
  ⟨(h.apps hsteps hnamed).1, (h.apps hsteps hnamed).2, unsettled_iff rfl rfl⟩

/-- `start` asks only about what was not settled when it began. -/
theorem Session.startAct (h : Session page w) {phase phase' : StartPhase} {a : SessionAction}
    (ht : HostTask.Sound w (.start phase)) (hact : page.startAct w phase a = some (w', phase')) :
    Session page w' ∧ Evolves w w' ∧ HostTask.Sound w' (.start phase') ∧
      (w'.Unsettled ↔ w.Unsettled) := by
  have hsame : Session page w ∧ Evolves w w := ⟨h, .refl _, fun _ hs => hs⟩
  rw [AppPage.startAct.eq_def] at hact
  split at hact
  · obtain ⟨rfl, rfl⟩ := Prod.mk.inj (Option.some.inj hact)
    exact ⟨h, hsame.2, ⟨ht.1, fun i hi hpending => h.not_settled_of_state hi hpending⟩, Iff.rfl⟩
  · obtain ⟨rfl, rfl⟩ := Prod.mk.inj (Option.some.inj hact)
    exact ⟨h, hsame.2, ⟨ht.1, fun _ hi => absurd hi List.not_mem_nil⟩, Iff.rfl⟩
  · rename_i interaction rest closed
    split_ifs at hact with hpending
    · obtain ⟨rfl, rfl⟩ := Prod.mk.inj (Option.some.inj hact)
      obtain ⟨hsession, hevolves, hunsettled⟩ := h.handle interaction ht.1
      have hstart : (page.handle w interaction).1.atStart = w.atStart := by
        obtain ⟨s, hs⟩ := Option.isSome_iff_exists.mp ht.1
        rw [hs, hevolves.atStart s hs]
      have hnew := ht.2 interaction List.mem_cons_self hpending
      refine ⟨hsession, hevolves,
        ⟨(congrArg Option.isSome hstart).trans ht.1, fun i hi hpending => ?_⟩,
        hunsettled.trans ⟨fun hboth => hboth.1, fun hun => ⟨hun, fun _ => hnew⟩⟩⟩
      exact mt (settledAtStart_iff hstart i.id).mp
        (ht.2 i (List.mem_cons_of_mem _ hi) hpending)
    · obtain ⟨rfl, rfl⟩ := Prod.mk.inj (Option.some.inj hact)
      exact ⟨h, hsame.2, ⟨ht.1, fun i hi => ht.2 i (List.mem_cons_of_mem _ hi)⟩, Iff.rfl⟩
  · split_ifs at hact
    · obtain ⟨rfl, rfl⟩ := Prod.mk.inj (Option.some.inj hact)
      exact ⟨h, hsame.2, ⟨ht.1, fun _ hi => absurd hi List.not_mem_nil⟩, Iff.rfl⟩
    · obtain ⟨rfl, rfl⟩ := Prod.mk.inj (Option.some.inj hact)
      refine ⟨⟨h.coherent, h.named, h.evolves, fun hnone => ?_, h.called, h.nodup⟩,
        ⟨.refl _, fun _ hs => hs⟩, ⟨ht.1, fun _ hi => absurd hi List.not_mem_nil⟩,
        unsettled_iff rfl rfl⟩
      exact absurd ht.1 (by simp [show w.atStart = none from hnone])
  · obtain ⟨rfl, rfl⟩ := Prod.mk.inj (Option.some.inj hact)
    exact ⟨h, hsame.2, ⟨ht.1, ht.2⟩, Iff.rfl⟩
  · obtain ⟨rfl, rfl⟩ := Prod.mk.inj (Option.some.inj hact)
    exact ⟨h, hsame.2, ⟨ht.1, fun _ hi => absurd hi List.not_mem_nil⟩, Iff.rfl⟩
  · obtain ⟨⟨s, next⟩, hr, heq⟩ := Option.map_eq_some_iff.mp hact
    obtain ⟨rfl, rfl⟩ := Prod.mk.inj heq
    obtain ⟨hsteps, hnamed⟩ := handlePhase_steps h.named hr
    obtain ⟨hsession, hevolves, hunsettled⟩ := h.apps_step hsteps hnamed
    exact ⟨hsession, hevolves, ⟨ht.1, ht.2⟩, hunsettled⟩
  · cases hact

/-- What a task relies on holds from then on. -/
theorem HostTask.Sound.stable {t : HostTask} (ht : t.Sound w) (h : Evolves w w') : t.Sound w' := by
  have hstarted (hs : w.atStart.isSome = true) : w'.atStart = w.atStart := by
    obtain ⟨s, hs⟩ := Option.isSome_iff_exists.mp hs
    rw [hs, h.atStart s hs]
  cases t with
  | handler t => exact RequestHandler.Backed.stable ht h.apps
  | start phase =>
    have hstart := hstarted ht.1
    exact ⟨(congrArg Option.isSome hstart).trans ht.1, fun i hi hpending =>
      mt (settledAtStart_iff hstart i.id).mp (ht.2 i hi hpending)⟩
  | handle phase => exact (congrArg Option.isSome (hstarted ht)).trans ht

/-- **One step of one task.** -/
theorem Session.act (h : Session page w) {t t' : HostTask} {a : HostAction} (ht : t.Sound w)
    (hact : page.act w t a = some (w', t')) :
    Session page w' ∧ t'.Sound w' ∧ Evolves w w' ∧ (w'.Unsettled ↔ w.Unsettled) := by
  rw [AppPage.act.eq_def] at hact
  split at hact
  · obtain ⟨⟨s, next⟩, hr, heq⟩ := Option.map_eq_some_iff.mp hact
    obtain ⟨rfl, rfl⟩ := Prod.mk.inj heq
    obtain ⟨hsteps, hback⟩ := act_backed h.coherent ht hr
    obtain ⟨hsession, hevolves, hunsettled⟩ := h.apps_step hsteps (h.named.handler hr)
    exact ⟨hsession, hback, hevolves, hunsettled⟩
  · obtain ⟨⟨v, next⟩, hr, heq⟩ := Option.map_eq_some_iff.mp hact
    obtain ⟨rfl, rfl⟩ := Prod.mk.inj heq
    obtain ⟨hsession, hevolves, hsound, hunsettled⟩ := h.startAct ht hr
    exact ⟨hsession, hsound, hevolves, hunsettled⟩
  · obtain ⟨⟨s, next⟩, hr, heq⟩ := Option.map_eq_some_iff.mp hact
    obtain ⟨rfl, rfl⟩ := Prod.mk.inj heq
    obtain ⟨hsteps, hnamed⟩ := handlePhase_steps h.named hr
    obtain ⟨hsession, hevolves, hunsettled⟩ := h.apps_step hsteps hnamed
    exact ⟨hsession, ht, hevolves, hunsettled⟩
  · cases hact

/-- The source of a session that is started may be exchanged. -/
theorem Session.source (h : Session page w) (source : Option EventSource)
    (hsource : w.source.isSome ∨ source = none) :
    Session page { w with source := source } ∧ Evolves w { w with source := source } ∧
      (AppHost.Unsettled { w with source := source } ↔ w.Unsettled) := by
  refine ⟨⟨h.coherent, h.named, h.evolves, fun hnone => ⟨(h.fresh hnone).1, ?_⟩, h.called, h.nodup⟩,
    ⟨.refl _, fun _ hs => hs⟩, unsettled_iff rfl rfl⟩
  rcases hsource with hsource | hsource
  · rw [(h.fresh hnone).2] at hsource
    cases hsource
  · exact hsource

/-- **An event that is dispatched** calls `onElicitation` where it requests an interaction that is
not handled. -/
theorem Session.dispatch (h : Session page w) {source : EventSource} (event : AppEvent)
    (rest : List AppEvent) (hsource : w.source = some source) :
    Session page (page.dispatch w source event rest).1 ∧
      (∀ t ∈ (page.dispatch w source event rest).2,
        t.Sound (page.dispatch w source event rest).1) ∧
      Evolves w (page.dispatch w source event rest).1 ∧
      ((page.dispatch w source event rest).1.Unsettled ↔ w.Unsettled ∧
        ∀ interaction, requestedInteraction? event = some interaction →
          page.onElicitation = true → ¬ w.SettledAtStart interaction.id) := by
  obtain ⟨hnext, hevolves, hunsettled⟩ := h.source
    (some { source with inFlight := rest, lastEventId := event.sequenceNumber })
    (.inl (by simp [hsource]))
  have hstarted : w.atStart.isSome := by
    rw [Option.isSome_iff_ne_none]
    intro hnone
    rw [(h.fresh hnone).2] at hsource
    cases hsource
  rw [AppPage.dispatch]
  cases hrequest : requestedInteraction? event with
  | some interaction =>
    obtain ⟨hsession, hlater, hiff⟩ := hnext.handle interaction hstarted
    obtain ⟨s, hs⟩ := Option.isSome_iff_exists.mp hstarted
    refine ⟨hsession, fun t ht => ?_, ⟨hevolves.apps.trans hlater.apps, fun s hs =>
      hlater.atStart s (hevolves.atStart s hs)⟩, hiff.trans ?_⟩
    · obtain rfl := List.mem_singleton.mp ht
      exact Option.isSome_iff_exists.mpr ⟨s, hlater.atStart s hs⟩
    · exact and_congr hunsettled ⟨fun hnew i hi => Option.some.inj hi ▸ hnew,
        fun hall => hall interaction rfl⟩
  | none =>
    have hnothing (v : AppHost) (hv : v.Unsettled ↔ w.Unsettled) : v.Unsettled ↔ w.Unsettled ∧
        ∀ interaction, (none : Option McpAppInteraction) = some interaction →
          page.onElicitation = true → ¬ w.SettledAtStart interaction.id :=
      hv.trans ⟨fun hun => ⟨hun, fun _ hi => by cases hi⟩, fun hboth => hboth.1⟩
    by_cases hclosed : event.type = "mcp_app.response.closed"
    · rw [if_pos hclosed]
      obtain ⟨hstop, hlater, hiff⟩ := hnext.source none (.inr rfl)
      exact ⟨hstop, fun _ ht => absurd ht List.not_mem_nil,
        ⟨hevolves.apps.trans hlater.apps, fun s hs => hlater.atStart s (hevolves.atStart s hs)⟩,
        hnothing _ (hiff.trans hunsettled)⟩
    · rw [if_neg hclosed]
      exact ⟨hnext, fun _ ht => absurd ht List.not_mem_nil, hevolves, hnothing _ hunsettled⟩

/-- **One event of the Adapter or the page.** -/
theorem Session.env (h : Session page w) {e : HostEvent} {ts : List HostTask}
    (henv : page.env w e = some (w', ts)) :
    Session page w' ∧ (∀ t ∈ ts, t.Sound w') ∧ Evolves w w' ∧
      (w'.Unsettled ↔ w.Unsettled ∧ NotReplayed page w e) := by
  have hnil {v : AppHost} : ∀ t ∈ ([] : List HostTask), t.Sound v :=
    fun _ ht => absurd ht List.not_mem_nil
  cases e with
  | server e =>
    rw [AppPage.env] at henv
    split_ifs at henv
    obtain ⟨⟨s, handlers⟩, hr, heq⟩ := Option.map_eq_some_iff.mp henv
    obtain ⟨rfl, rfl⟩ := Prod.mk.inj heq
    obtain ⟨hsteps, hback⟩ := env_steps h.coherent hr
    obtain ⟨hsession, hevolves, hiff⟩ := h.apps_step hsteps (h.named.env hr)
    refine ⟨hsession, fun t ht => ?_, hevolves, hiff.trans (and_iff_left trivial).symm⟩
    obtain ⟨handler, hmem, rfl⟩ := List.mem_map.mp ht
    exact hback handler hmem
  | closeResponse =>
    obtain ⟨rfl, rfl⟩ := Prod.mk.inj (Option.some.inj henv)
    have hsteps : McpAppsState.Steps w.apps (w.apps.closeResponse page.responseId) :=
      McpAppsState.steps_of_eq rfl rfl
    obtain ⟨hsession, hevolves, hiff⟩ := h.apps_step hsteps (named_of_eq h.named rfl)
    exact ⟨hsession, hnil, hevolves, hiff.trans (and_iff_left trivial).symm⟩
  | start =>
    rw [AppPage.env] at henv
    cases hstart : w.atStart with
    | some s =>
      rw [hstart] at henv
      cases henv
    | none =>
      rw [hstart] at henv
      obtain ⟨rfl, rfl⟩ := Prod.mk.inj (Option.some.inj henv)
      have hcalled : w.called = [] := by
        rw [h.called, (h.fresh hstart).1, ite_self]
      have hnone (v : AppHost) (hv : v.called = w.called) : v.Unsettled :=
        fun id hid => absurd (hcalled ▸ hv ▸ hid) List.not_mem_nil
      refine ⟨⟨h.coherent, h.named, fun s hs => Option.some.inj hs ▸ .refl _,
        fun hno => (by cases hno), h.called, h.nodup⟩, fun t ht => ?_,
        ⟨.refl _, fun s hs => (by simp [hstart] at hs)⟩,
        iff_of_true (hnone _ rfl) ⟨hnone w rfl, trivial⟩⟩
      obtain rfl := List.mem_singleton.mp ht
      exact ⟨rfl, fun _ hi => absurd hi List.not_mem_nil⟩
  | fetch =>
    obtain ⟨source, hsource, heq⟩ := Option.map_eq_some_iff.mp henv
    obtain ⟨rfl, rfl⟩ := Prod.mk.inj heq
    obtain ⟨hsession, hevolves, hiff⟩ := h.source _ (.inl (by simp [hsource]))
    exact ⟨hsession, hnil, hevolves, hiff.trans (and_iff_left trivial).symm⟩
  | dispatch =>
    rw [AppPage.env] at henv
    cases hsource : w.source with
    | none =>
      rw [hsource] at henv
      cases henv
    | some source =>
      rw [hsource] at henv
      cases hflight : source.inFlight with
      | nil =>
        simp only [hflight] at henv
        cases henv
      | cons event rest =>
        simp only [hflight] at henv
        obtain ⟨hsession, hsound, hevolves, hiff⟩ := h.dispatch event rest hsource
        rw [Option.some.inj henv] at hsession hsound hevolves hiff
        refine ⟨hsession, hsound, hevolves, hiff.trans (and_congr_right fun _ => ?_)⟩
        constructor
        · intro hnew source' event' rest' interaction hsource' hflight' hrequest
          obtain rfl := Option.some.inj (hsource.symm.trans hsource')
          obtain ⟨rfl, -⟩ := List.cons.inj (hflight.symm.trans hflight')
          exact hnew interaction hrequest
        · exact fun hnew interaction hrequest =>
            hnew source event rest interaction hsource hflight hrequest
  | reconnect =>
    obtain ⟨source, hsource, heq⟩ := Option.map_eq_some_iff.mp henv
    obtain ⟨rfl, rfl⟩ := Prod.mk.inj heq
    obtain ⟨hsession, hevolves, hiff⟩ := h.source _ (.inl (by simp [hsource]))
    exact ⟨hsession, hnil, hevolves, hiff.trans (and_iff_left trivial).symm⟩
  | stop =>
    obtain ⟨rfl, rfl⟩ := Prod.mk.inj (Option.some.inj henv)
    obtain ⟨hsession, hevolves, hiff⟩ := h.source none (.inr rfl)
    exact ⟨hsession, hnil, hevolves, hiff.trans (and_iff_left trivial).symm⟩

end Host

/-! ## Runs -/

section Runs

variable {page : AppPage} {w w' : Pool AppHost HostTask}

/-- The session and its tasks. -/
def Followed (page : AppPage) : Pool AppHost HostTask → Prop :=
  Pool.Holds (Session page) fun w t => t.Sound w

theorem followed_init (maxEventHistory : ℕ) : Followed page ⟨AppHost.init maxEventHistory, []⟩ where
  shared := {
    coherent := fun _ _ hi => by cases hi
    named := fun _ _ hi => by cases hi
    evolves := fun _ hs => by cases hs
    fresh := fun _ => ⟨rfl, rfl⟩
    called := (ite_self _).symm
    nodup := List.nodup_nil }
  tasks _ ht := absurd ht List.not_mem_nil

/-- **A step asks about what was settled at the start exactly where it replays its request.** -/
theorem Followed.step {a : Pool.Action HostAction HostEvent} (h : Followed page w)
    (hstep : Pool.step (appHost page) w a = some w') :
    Followed page w' ∧ (w'.shared.Unsettled ↔ w.shared.Unsettled ∧
      Pool.stepCond (fun _ _ _ => True) (NotReplayed page) w a) := by
  cases a with
  | task i a =>
    obtain ⟨t, s, t', hi, hact, rfl⟩ := Pool.step_task.mp hstep
    obtain ⟨hsession, hsound, hevolves, hiff⟩ :=
      h.shared.act (h.tasks t (List.mem_of_getElem? hi)) hact
    refine ⟨⟨hsession, fun u hu => ?_⟩, hiff.trans (and_iff_left fun _ _ => trivial).symm⟩
    rcases List.mem_or_eq_of_mem_set hu with hu | rfl
    · exact (h.tasks u hu).stable hevolves
    · exact hsound
  | env e =>
    obtain ⟨s, ts, henv, rfl⟩ := Pool.step_env.mp hstep
    obtain ⟨hsession, hsound, hevolves, hiff⟩ := h.shared.env henv
    refine ⟨⟨hsession, fun u hu => ?_⟩, hiff⟩
    rcases List.mem_append.mp hu with hu | hu
    · exact (h.tasks u hu).stable hevolves
    · exact hsound u hu

/-- **The user is asked at most once about an interaction, and about none that was settled when the
session started in exactly the runs in which no request of such a one is replayed.** -/
theorem session_asks_iff {maxEventHistory : ℕ} {as : List (Pool.Action HostAction HostEvent)}
    (hrun : Machine.run (Pool.step (appHost page)) ⟨.init maxEventHistory, []⟩ as = some w) :
    w.shared.called.Nodup ∧
      ((∀ id ∈ w.shared.called, ¬ w.shared.SettledAtStart id) ↔
        Unreplayed page ⟨.init maxEventHistory, []⟩ as) := by
  have hinit : Followed page ⟨.init maxEventHistory, []⟩ := followed_init maxEventHistory
  have hfollowed : Followed page w :=
    Machine.run_keeps (fun _ _ _ h hstep => (Followed.step h hstep).1) hrun hinit
  have hiff := Machine.run_iff_meets (fun _ _ _ h hstep => Followed.step h hstep) hrun hinit
  refine ⟨?_, hiff.trans (and_iff_right fun _ hid => absurd hid List.not_mem_nil)⟩
  rw [hfollowed.shared.called]
  split_ifs
  · exact hfollowed.shared.nodup
  · exact List.nodup_nil

end Runs

/-! ## Two runs -/

/-- A page whose server asks for a form. -/
def elicitingPage : AppPage := ⟨⟨true, ""⟩, "resp_1", true⟩

/-- The driver asks, and the session is started. -/
def requested : List (Pool.Action HostAction HostEvent) :=
  [.env (.server (.request ⟨"resp_1", true, "mcpServer/elicitation/request", []⟩)),
    .task 0 (.handler (.create "mcpint_1")), .task 0 (.handler .proceed)]

/-- The session is started, the user answers what is pending, and the source is opened and replays
the request. -/
def answered : List (Pool.Action HostAction HostEvent) :=
  [.env .start, .task 1 (.session .proceed), .task 1 (.session .proceed),
    .task 1 (.session (.answer ⟨.accept, .null, .null⟩)), .task 1 (.session .proceed),
    .task 1 (.session .proceed), .task 1 (.session .proceed), .env .fetch, .env .dispatch]

theorem session_asks_iff_answered : ∃ w,
    Machine.run (Pool.step (appHost elicitingPage)) ⟨.init 512, []⟩ (requested ++ answered) =
      some w ∧
    w.shared.called = ["mcpint_1"] ∧ w.shared.called.Nodup ∧
    (∀ id ∈ w.shared.called, ¬ w.shared.SettledAtStart id) ∧
    Unreplayed elicitingPage ⟨.init 512, []⟩ (requested ++ answered) := by
  have hasked : (Machine.run (Pool.step (appHost elicitingPage)) ⟨.init 512, []⟩
      (requested ++ answered)).map (fun w => (w.shared.called,
        w.shared.atStart.bind fun s => (s.objects "mcpint_1").map (·.status))) =
      some (["mcpint_1"], some .pending) := by
    decide +kernel
  obtain ⟨w, hrun, hw⟩ := Option.map_eq_some_iff.mp hasked
  obtain ⟨hcalled, hstatus⟩ := Prod.mk.inj hw
  obtain ⟨honce, hiff⟩ := session_asks_iff hrun
  have hpending : ∀ id ∈ w.shared.called, ¬ w.shared.SettledAtStart id := by
    rintro id hid ⟨s, i, hs, hi, hsettled⟩
    rw [hcalled] at hid
    obtain rfl := List.mem_singleton.mp hid
    rw [hs, Option.bind_some, hi] at hstatus
    exact hsettled (Option.some.inj hstatus)
  exact ⟨w, hrun, hcalled, honce, hpending, hiff.mp hpending⟩

/-- The interaction is resolved before the session starts; its request is still in the history. -/
theorem not_session_asks_pending : ∃ w,
    Machine.run (Pool.step (appHost elicitingPage)) ⟨.init 512, []⟩
      (requested ++ [.env (.server (.resolve "mcpint_1" ⟨.accept, .null, .null⟩)), .env .start,
        .task 1 (.session .proceed), .task 1 (.session .proceed), .task 1 (.session .proceed),
        .env .fetch, .env .dispatch]) = some w ∧
    ¬ (w.shared.called.Nodup ∧ ∀ id ∈ w.shared.called, ¬ w.shared.SettledAtStart id) := by
  have hasked : (Machine.run (Pool.step (appHost elicitingPage)) ⟨.init 512, []⟩
      (requested ++ [.env (.server (.resolve "mcpint_1" ⟨.accept, .null, .null⟩)), .env .start,
        .task 1 (.session .proceed), .task 1 (.session .proceed), .task 1 (.session .proceed),
        .env .fetch, .env .dispatch])).map (fun w => (w.shared.called,
          w.shared.atStart.bind fun s => (s.objects "mcpint_1").map (·.status))) =
      some (["mcpint_1"], some .resolved) := by
    decide +kernel
  obtain ⟨w, hrun, hw⟩ := Option.map_eq_some_iff.mp hasked
  obtain ⟨hcalled, hstatus⟩ := Prod.mk.inj hw
  obtain ⟨s, hs, hobject⟩ := Option.bind_eq_some_iff.mp hstatus
  obtain ⟨i, hi, hresolved⟩ := Option.map_eq_some_iff.mp hobject
  refine ⟨w, hrun, fun h => h.2 "mcpint_1" (by simp [hcalled]) ⟨s, i, hs, hi, ?_⟩⟩
  rw [hresolved]
  decide

end CodexGateway.Frontend
