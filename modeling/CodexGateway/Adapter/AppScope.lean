import CodexGateway.Adapter.AppTargets

/-!
# Adapter/AppScope — what an App may reach

The first event of a call that tells of an App registers its session, with the tools that `app/read`
lists.  An access is checked against the session, but for the connector: that is compared with the
call's target, which every later notification of the call writes again.

Where no notification names another connector for a call with a session, an access is forwarded only
within the descriptor of the session's registration (`scope_kept`).  The driver, which keeps less of a
session, binds the same (`AgreesWith.bindAppSession`).
-/

namespace CodexGateway.Adapter

open PyJson ResponsesEventBuilder
open Driver (sideCall)

/-- The scope that an App's session is bound to. -/
structure AppSession where
  responseId : String
  originCallId : String
  appId : String
  serverId : String
  resourceUri : String
  allowedTools : List String
deriving DecidableEq

/-- A request that is refused. -/
structure InvalidRequestError where
  message : String
  param : Option String
  code : String
deriving DecidableEq

/-- A descriptor that is refused. -/
def invalidDescriptor (message : String) : InvalidRequestError :=
  ⟨message, none, "invalid_mcp_app_descriptor"⟩

/-- `register_app_session` -/
def registerAppSession (responseId : String) (descriptor : McpAppDescriptor) :
    Except InvalidRequestError AppSession :=
  if descriptor.callId = "" ∨ descriptor.appId = "" ∨ descriptor.server = "" ∨
      descriptor.resourceUri = "" then
    .error (invalidDescriptor "Codex emitted an invalid MCP App descriptor.")
  else if descriptor.responseId ≠ responseId then
    .error (invalidDescriptor "MCP App descriptor response binding is invalid.")
  else .ok {
    responseId := responseId
    originCallId := descriptor.callId
    appId := descriptor.appId
    serverId := descriptor.server
    resourceUri := descriptor.resourceUri
    allowedTools := (descriptor.allowedTools.filter (· ≠ "")).eraseDups }

/-- The names of the summaries that are enabled. -/
def enabledTools (summaries : List Json) : List String :=
  (summaries.filterMap fun summary => do
    let summary ← dict? summary
    if isTrue (summary.get "isEnabled") then
      (string? (summary.get "name")).map Subtype.val
    else none).eraseDups

/-- `_load_app_allowed_tools`, where `app/read` returns `result`, or raises. -/
def loadAppAllowedTools (appId : String) (result : Option Json) : List String :=
  if appId = "" then []
  else
    match (result.bind dict?).bind fun ms => list? (ms.get "apps") with
    | none => []
    | some apps =>
      match (apps.filterMap dict?).find? fun app => str? (app.get "id") = some appId with
      | none => []
      | some app => enabledTools ((list? (app.get "toolSummaries")).getD [])

/-! ## The check of an access -/

/-- An origin that is refused. -/
def invalidOrigin (message : String) : InvalidRequestError :=
  ⟨message, some "origin_call_id", "invalid_mcp_app_origin"⟩

/-- A request of an App: `read_mcp_resource` gives a resource and may give a connector,
`call_mcp_tool` gives a tool. -/
structure AppAccess where
  server : String
  originCallId : Option String
  resourceUri : Option String
  connectorId : Option String
  tool : Option String

/-- `_validate_mcp_app_access` -/
def validateMcpAppAccess (record : ResponseRecord) (sessions : List (String × AppSession))
    (access : AppAccess) : Except InvalidRequestError Unit :=
  match access.originCallId.filter (· ≠ "") with
  | none => .error (invalidOrigin "origin_call_id is required for MCP App access.")
  | some originCallId =>
    match sessions.lookup originCallId with
    | none => .error (invalidOrigin "MCP App call does not belong to this response.")
    | some session =>
      if session.serverId ≠ access.server then
        .error (invalidOrigin "MCP App call does not belong to this response.")
      else if access.resourceUri.any (session.resourceUri ≠ ·) then
        .error ⟨"MCP App resource URI is outside the AppSession scope.", some "uri",
          "invalid_mcp_app_resource"⟩
      else if access.connectorId.any fun id =>
          (record.mcpAppTargets.lookup originCallId).bind (·.connectorId) ≠ some id then
        .error ⟨"MCP App connector is outside the AppSession scope.", some "connector_id",
          "invalid_mcp_app_connector"⟩
      else if access.tool.any (· ∉ session.allowedTools) then
        .error ⟨"MCP App tool is outside the AppSession scope.", some "tool",
          "mcp_app_tool_not_allowed"⟩
      else .ok ()

/-! ## The Response and its Apps -/

/-- A Response that is driven: its builder, the App sessions by call id, and the events of the last
notification that are not bound yet.  `registered` keeps what each session was registered with. -/
structure AppScope where
  builder : ResponsesEventBuilder
  sessions : List (String × AppSession)
  todo : List Event
  registered : List (String × McpAppDescriptor × Option Json)

namespace AppScope

/-- A Response before its first notification. -/
def create (record : ResponseRecord) : AppScope := ⟨.init record, [], [], []⟩

/-- What happens to the scopes of a Response. -/
inductive Action where
  /-- A notification is consumed. -/
  | notify (notification : Members)
  /-- The next event is bound; `app/read` returns or raises, where it is asked. -/
  | bind (result : Option Json)

/-- The descriptor of the event, with the tools of its session, in the record. -/
def bindTo (s : AppScope) (call : McpCallItem) (itemMeta : McpMeta) (descriptor : McpAppDescriptor)
    (allowedTools : List String) : AppScope :=
  let target := { descriptor with allowedTools := allowedTools }
  let item := .mcpCall { call with itemMeta := some { itemMeta with mcpApp := some target } }
  let record := s.builder.record.registerMcpAppTarget descriptor.callId target
  { s with builder := { s.builder with record := (record.updateOutputItem item).1 } }

/-- `_bind_app_session`; an error abandons the events that are left. -/
def bindAppSession (s : AppScope) (event : Event) (result : Option Json) : AppScope :=
  match sideCall event with
  | none => s
  | some (call, itemMeta, descriptor) =>
    match s.sessions.lookup descriptor.callId with
    | some session => s.bindTo call itemMeta descriptor session.allowedTools
    | none =>
      let tools := loadAppAllowedTools descriptor.appId result
      match registerAppSession s.builder.record.id { descriptor with allowedTools := tools } with
      | .error _ => { s with todo := [] }
      | .ok session =>
        { s with
          sessions := (descriptor.callId, session) :: s.sessions
          registered := (descriptor.callId, descriptor, result) :: s.registered
        }.bindTo call itemMeta descriptor tools

/-- What an action does, where it can happen. -/
def scopeStep (s : AppScope) : Action → Option AppScope
  | .notify notification =>
    match s.todo with
    | [] =>
      let (events, builder) := consume notification s.builder
      some { s with builder := builder, todo := events }
    | _ :: _ => none
  | .bind result =>
    match s.todo with
    | [] => none
    | event :: todo => some ({ s with todo := todo }.bindAppSession event result)

/-- The notification names no other connector for a call that has a session. -/
def SameConnector (s : AppScope) : Action → Prop
  | .notify notification =>
    ∀ source ∈ appSources s.builder notification, ∀ callId ∈ string? (source.get "id"),
      ∀ first ∈ s.registered.lookup callId.val, appResource source ≠ none →
        appConnector source = first.1.connectorId
  | .bind _ => True

instance (s : AppScope) : ∀ a, Decidable (s.SameConnector a)
  | .notify _ => by unfold SameConnector; infer_instance
  | .bind _ => Decidable.isTrue trivial

/-- The session is what the descriptor and the tools of its registration make it. -/
structure Opened (recordId callId : String) (first : McpAppDescriptor × Option Json)
    (session : AppSession) : Prop where
  responseId : first.1.responseId = recordId
  callId : first.1.callId = callId
  server : session.serverId = first.1.server
  resource : session.resourceUri = first.1.resourceUri
  tools : ∀ tool ∈ session.allowedTools, tool ∈ loadAppAllowedTools first.1.appId first.2

/-- The sessions are those registered, and the connectors that are left are theirs. -/
structure Scoped (s : AppScope) : Prop where
  opened : ∀ callId session, s.sessions.lookup callId = some session →
    ∃ first, s.registered.lookup callId = some first ∧
      Opened s.builder.record.id callId first session
  registered : ∀ callId, s.sessions.lookup callId = none → s.registered.lookup callId = none
  targets : ∀ callId first target, s.registered.lookup callId = some first →
    s.builder.record.mcpAppTargets.lookup callId = some target →
      target.connectorId = first.1.connectorId
  events : ∀ e ∈ s.todo, ∀ x, sideCall e = some x → ∀ first,
    s.registered.lookup x.2.2.callId = some first → x.2.2.connectorId = first.1.connectorId
  agree : ∀ e ∈ s.todo, ∀ e' ∈ s.todo, ∀ x x', sideCall e = some x → sideCall e' = some x' →
    x.2.2.callId = x'.2.2.callId → x.2.2.connectorId = x'.2.2.connectorId

variable {s s' : AppScope} {action : Action}

theorem scoped_create (record : ResponseRecord) : (create record).Scoped :=
  ⟨fun _ _ h => (by cases h), fun _ _ => rfl, fun _ _ _ h => (by cases h),
    fun _ h => absurd h List.not_mem_nil, fun _ h => absurd h List.not_mem_nil⟩

/-- Two descriptors of one source name one connector. -/
theorem describes_connector {source : Members} {d d' : McpAppDescriptor} (h : Describes source d)
    (h' : Describes source d') : d.connectorId = d'.connectorId :=
  h.connectorId.trans h'.connectorId.symm

theorem Scoped.notify (h : s.Scoped) (notification : Members)
    (hcond : s.SameConnector (.notify notification)) :
    ({ s with
      builder := (consume notification s.builder).2
      todo := (consume notification s.builder).1 } : AppScope).Scoped := by
  have hsourced := consume_sourced s.builder notification
  -- a descriptor from a source names the connector of the call's registration
  have hfirst {source : Members} (hsource : source ∈ appSources s.builder notification)
      {d : McpAppDescriptor} (hd : Describes source d) {first : McpAppDescriptor × Option Json}
      (hregistered : s.registered.lookup d.callId = some first) :
      d.connectorId = first.1.connectorId := by
    obtain ⟨callId, hid, hcall⟩ := Option.map_eq_some_iff.mp hd.callId
    rw [hd.connectorId]
    refine hcond source hsource callId hid first (by rw [hcall]; exact hregistered) fun hnone => ?_
    have := hd.resource
    rw [hnone] at this
    cases this
  refine ⟨fun callId session hsession => ?_, h.registered, fun callId first target hregistered
    htarget => ?_, fun e he x hx first hregistered => ?_, fun e he e' he' x x' hx hx' hcall => ?_⟩
  · obtain ⟨first, hregistered, hopened⟩ := h.opened callId session hsession
    exact ⟨first, hregistered, hsourced.id ▸ hopened⟩
  · rcases hsourced.targets callId target htarget with hold | ⟨rfl, source, hsource, hd⟩
    · exact h.targets callId first target hregistered hold
    · exact hfirst hsource hd hregistered
  · obtain ⟨source, hsource, hd⟩ := hsourced.events e he x hx
    exact hfirst hsource hd hregistered
  · obtain ⟨source, hsource, hd⟩ := hsourced.events e he x hx
    obtain ⟨source', hsource', hd'⟩ := hsourced.events e' he' x' hx'
    have hid : string? (source.get "id") = string? (source'.get "id") :=
      Option.map_injective Subtype.val_injective
        (hd.callId.trans (hcall ▸ hd'.callId.symm))
    obtain rfl := uniqueIds_appSources s.builder notification source hsource source' hsource' hid
    exact describes_connector hd hd'

theorem lookup_bindTo (s : AppScope) (call : McpCallItem) (itemMeta : McpMeta)
    (descriptor : McpAppDescriptor) (allowedTools : List String) (callId : String) :
    (s.bindTo call itemMeta descriptor allowedTools).builder.record.mcpAppTargets.lookup callId =
      if callId = descriptor.callId then some { descriptor with allowedTools := allowedTools }
      else s.builder.record.mcpAppTargets.lookup callId := by
  rw [← lookup_registerMcpAppTarget]
  exact congrArg _ (addOutputItem_targets _ _).1

theorem id_bindTo (s : AppScope) (call : McpCallItem) (itemMeta : McpMeta)
    (descriptor : McpAppDescriptor) (allowedTools : List String) :
    (s.bindTo call itemMeta descriptor allowedTools).builder.record.id = s.builder.record.id :=
  (addOutputItem_targets _ _).2

/-- A descriptor with the connector of its call's registration is bound. -/
theorem Scoped.bindTo (h : s.Scoped) {call : McpCallItem} {itemMeta : McpMeta}
    {descriptor : McpAppDescriptor} {allowedTools : List String}
    (hconnector : ∀ first, s.registered.lookup descriptor.callId = some first →
      descriptor.connectorId = first.1.connectorId) :
    (s.bindTo call itemMeta descriptor allowedTools).Scoped := by
  refine ⟨fun callId session hsession => ?_, h.registered, fun callId first target hregistered
    htarget => ?_, h.events, h.agree⟩
  · rw [id_bindTo]
    exact h.opened callId session hsession
  · rw [lookup_bindTo] at htarget
    split_ifs at htarget with hcall
    · obtain rfl := Option.some.inj htarget
      exact hconnector first (hcall ▸ hregistered)
    · exact h.targets callId first target hregistered htarget

theorem registerAppSession_ok {responseId : String} {descriptor : McpAppDescriptor}
    {session : AppSession} (h : registerAppSession responseId descriptor = .ok session) :
    descriptor.responseId = responseId ∧ session.serverId = descriptor.server ∧
      session.resourceUri = descriptor.resourceUri ∧
      ∀ tool ∈ session.allowedTools, tool ∈ descriptor.allowedTools := by
  unfold registerAppSession at h
  split_ifs at h with hempty hresponse
  obtain rfl := Except.ok.inj h
  refine ⟨not_not.mp hresponse, rfl, rfl, fun tool htool => ?_⟩
  exact List.mem_of_mem_filter (List.mem_eraseDups.mp htool)

theorem lookup_cons {α : Type} (xs : List (String × α)) (k id : String) (a : α) :
    ((k, a) :: xs).lookup id = if id = k then some a else xs.lookup id := by
  rw [List.lookup_cons]
  split_ifs with hid
  · simp [hid]
  · have hbeq : (id == k) = false := by simpa using hid
    simp only [hbeq]

/-- A session is registered and its descriptor bound; the events left name its connector. -/
theorem Scoped.register (h : s.Scoped) {call : McpCallItem} {itemMeta : McpMeta}
    {descriptor : McpAppDescriptor} {result : Option Json} {session : AppSession}
    (hagree : ∀ e ∈ s.todo, ∀ x, sideCall e = some x → x.2.2.callId = descriptor.callId →
      x.2.2.connectorId = descriptor.connectorId)
    (hsession : registerAppSession s.builder.record.id { descriptor with
      allowedTools := loadAppAllowedTools descriptor.appId result } = .ok session) :
    ({ s with
        sessions := (descriptor.callId, session) :: s.sessions
        registered := (descriptor.callId, descriptor, result) :: s.registered
      }.bindTo call itemMeta descriptor (loadAppAllowedTools descriptor.appId result)).Scoped := by
  obtain ⟨hresponse, hserver, hresource, htools⟩ := registerAppSession_ok hsession
  refine ⟨fun callId session' hlookup => ?_, fun callId hlookup => ?_,
    fun callId first target hregistered htarget => ?_, fun e he x hx first hregistered => ?_,
    h.agree⟩
  · rw [id_bindTo]
    simp only [AppScope.bindTo] at hlookup ⊢
    rw [lookup_cons] at hlookup ⊢
    split_ifs at hlookup ⊢ with hcall
    · obtain rfl := Option.some.inj hlookup
      exact ⟨_, rfl, hresponse, hcall.symm, hserver, hresource, htools⟩
    · exact h.opened callId session' hlookup
  · simp only [AppScope.bindTo] at hlookup ⊢
    rw [lookup_cons] at hlookup ⊢
    split_ifs at hlookup ⊢ with hcall
    exact h.registered callId hlookup
  · rw [lookup_bindTo] at htarget
    simp only [AppScope.bindTo] at hregistered
    rw [lookup_cons] at hregistered
    split_ifs at hregistered htarget with hcall
    · obtain rfl := Option.some.inj hregistered
      obtain rfl := Option.some.inj htarget
      rfl
    · exact h.targets callId first target hregistered htarget
  · simp only [AppScope.bindTo] at hregistered
    rw [lookup_cons] at hregistered
    split_ifs at hregistered with hcall
    · obtain rfl := Option.some.inj hregistered
      exact hagree e he x hx hcall
    · exact h.events e he x hx first hregistered

theorem Scoped.dropTodo (h : s.Scoped) {todo : List Event} (hsub : ∀ e ∈ todo, e ∈ s.todo) :
    ({ s with todo := todo } : AppScope).Scoped :=
  ⟨h.opened, h.registered, h.targets, fun e he => h.events e (hsub e he),
    fun e he e' he' => h.agree e (hsub e he) e' (hsub e' he')⟩

theorem Scoped.bindAppSession (h : s.Scoped) {event : Event} (result : Option Json)
    (hevent : ∀ x, sideCall event = some x → ∀ first,
      s.registered.lookup x.2.2.callId = some first → x.2.2.connectorId = first.1.connectorId)
    (hagree : ∀ e ∈ s.todo, ∀ x x', sideCall e = some x → sideCall event = some x' →
      x.2.2.callId = x'.2.2.callId → x.2.2.connectorId = x'.2.2.connectorId) :
    (s.bindAppSession event result).Scoped := by
  unfold AppScope.bindAppSession
  split
  · exact h
  · rename_i call itemMeta descriptor hside
    split
    · exact h.bindTo (hevent _ hside)
    · dsimp only
      split
      · exact h.dropTodo fun _ he => absurd he List.not_mem_nil
      · rename_i session hsession
        exact h.register (fun e he x hx => hagree e he x _ hx hside) hsession

theorem Scoped.step (h : s.Scoped) (hcond : s.SameConnector action)
    (hstep : scopeStep s action = some s') : s'.Scoped := by
  cases action with
  | notify notification =>
    unfold scopeStep at hstep
    dsimp only at hstep
    split at hstep
    · obtain rfl := Option.some.inj hstep
      exact h.notify notification hcond
    · cases hstep
  | bind result =>
    unfold scopeStep at hstep
    dsimp only at hstep
    split at hstep
    · cases hstep
    · rename_i event todo htodo
      obtain rfl := Option.some.inj hstep
      have hmem (e : Event) (he : e ∈ todo) : e ∈ s.todo := htodo ▸ List.mem_cons_of_mem _ he
      have hhead : event ∈ s.todo := htodo ▸ List.mem_cons_self
      exact (h.dropTodo hmem).bindAppSession result (h.events event hhead)
        fun e he x x' => h.agree e (hmem e he) event hhead x x'

/-- What an access may do that is forwarded: it stays within the descriptor and the tools with which
the session of its call was registered. -/
structure Within (recordId : String) (first : McpAppDescriptor × Option Json)
    (access : AppAccess) : Prop where
  responseId : first.1.responseId = recordId
  callId : access.originCallId = some first.1.callId
  server : access.server = first.1.server
  resource : ∀ uri ∈ access.resourceUri, uri = first.1.resourceUri
  connector : ∀ id ∈ access.connectorId, first.1.connectorId = some id
  tool : ∀ tool ∈ access.tool, tool ∈ loadAppAllowedTools first.1.appId first.2

theorem Scoped.access (h : s.Scoped) {access : AppAccess}
    (hok : validateMcpAppAccess s.builder.record s.sessions access = .ok ()) :
    ∃ callId first, access.originCallId = some callId ∧ s.registered.lookup callId = some first ∧
      Within s.builder.record.id first access := by
  unfold validateMcpAppAccess at hok
  split at hok
  · cases hok
  · rename_i callId horigin
    have hcall : access.originCallId = some callId := (Option.filter_eq_some_iff.mp horigin).1
    split at hok
    · cases hok
    · rename_i session hsession
      split_ifs at hok with hserver hresource hconnector htool
      obtain ⟨first, hregistered, hopened⟩ := h.opened callId session hsession
      refine ⟨callId, first, hcall, hregistered, hopened.responseId, hopened.callId ▸ hcall, ?_,
        fun uri huri => ?_, fun id hid => ?_, fun tool ht => hopened.tools tool ?_⟩
      · exact (not_not.mp hserver).symm.trans hopened.server
      · rw [huri] at hresource
        exact ((by simpa using hresource : session.resourceUri = uri).symm).trans hopened.resource
      · rw [hid] at hconnector
        obtain ⟨target, htarget, hid'⟩ := Option.bind_eq_some_iff.mp (by simpa using hconnector :
          (s.builder.record.mcpAppTargets.lookup callId).bind (·.connectorId) = some id)
        rw [← h.targets callId first target hregistered htarget, hid']
      · rw [ht] at htool
        simpa using htool

/-- **As long as no notification names another connector for a call with a session, an access is
forwarded only within the registration of its call's session.** -/
theorem scope_kept {record : ResponseRecord} {actions : List Action} {access : AppAccess}
    (hrun : Machine.run scopeStep (create record) actions = some s)
    (hconnector : Machine.Meets scopeStep SameConnector (create record) actions)
    (hok : validateMcpAppAccess s.builder.record s.sessions access = .ok ()) :
    ∃ callId first, access.originCallId = some callId ∧ s.registered.lookup callId = some first ∧
      Within s.builder.record.id first access :=
  (Machine.run_invariant (fun _ _ _ hcond h hstep => Scoped.step h hcond hstep) hconnector hrun
    (scoped_create record)).access hok

/-! ## The driver binds the same

`Driver.bindAppSession` keeps of a session its tools alone, which is what it binds. -/

section Driving

variable {w : AppScope} {s : Driver}

theorem nodup_eraseDups {α : Type} [BEq α] [LawfulBEq α] : ∀ xs : List α, xs.eraseDups.Nodup
  | [] => List.nodup_nil
  | a :: xs => by
      rw [List.eraseDups_cons]
      refine List.nodup_cons.mpr ⟨fun hmem => ?_, nodup_eraseDups _⟩
      have hne := (List.mem_filter.mp (List.mem_eraseDups.mp hmem)).2
      simp at hne
termination_by xs => xs.length
decreasing_by
  simp only [List.length_cons]
  exact Nat.lt_succ_of_le (List.length_filter_le _ _)

theorem eraseDups_of_nodup {α : Type} [BEq α] [LawfulBEq α] {xs : List α} (h : xs.Nodup) :
    xs.eraseDups = xs := by
  induction xs with
  | nil => rfl
  | cons a xs ih =>
    obtain ⟨hnotin, hrest⟩ := List.nodup_cons.mp h
    have hfilter : xs.filter (fun b => !b == a) = xs := by
      refine List.filter_eq_self.mpr fun b hb => ?_
      have hne : b ≠ a := fun heq => hnotin (heq ▸ hb)
      simpa using hne
    rw [List.eraseDups_cons, hfilter, ih hrest]

/-- The tools of an App are distinct, and have names. -/
theorem loadAppAllowedTools_plain (appId : String) (result : Option Json) :
    (loadAppAllowedTools appId result).Nodup ∧ "" ∉ loadAppAllowedTools appId result := by
  have henabled (summaries : List Json) :
      (enabledTools summaries).Nodup ∧ "" ∉ enabledTools summaries := by
    refine ⟨nodup_eraseDups _, fun hmem => ?_⟩
    obtain ⟨summary, -, hname⟩ := List.mem_filterMap.mp (List.mem_eraseDups.mp hmem)
    obtain ⟨ms, -, hname⟩ := Option.bind_eq_some_iff.mp hname
    split_ifs at hname
    obtain ⟨name, -, hempty⟩ := Option.map_eq_some_iff.mp hname
    exact name.property hempty
  rw [loadAppAllowedTools]
  split_ifs
  · exact ⟨List.nodup_nil, List.not_mem_nil⟩
  · split
    · exact ⟨List.nodup_nil, List.not_mem_nil⟩
    · split
      · exact ⟨List.nodup_nil, List.not_mem_nil⟩
      · exact henabled _

/-- Both have the Response where it is, and the sessions with the same tools. -/
structure AgreesWith (w : AppScope) (s : Driver) : Prop where
  builder : w.builder = s.builder
  sessions : ∀ callId,
    s.appSessions.lookup callId = (w.sessions.lookup callId).map AppSession.allowedTools

/-- **The driver binds an event as the scope does**, where the session is registered. -/
theorem AgreesWith.bindAppSession (h : w.AgreesWith s) {event : Event} {call : McpCallItem}
    {itemMeta : McpMeta} {descriptor : McpAppDescriptor}
    (hside : sideCall event = some (call, itemMeta, descriptor)) (result : Option Json)
    (hregisters : w.sessions.lookup descriptor.callId = none →
      ∃ session, registerAppSession w.builder.record.id { descriptor with
        allowedTools := loadAppAllowedTools descriptor.appId result } = .ok session) :
    (w.bindAppSession event result).AgreesWith
      (s.bindAppSession event (loadAppAllowedTools descriptor.appId result)).2 := by
  have hsessions := h.sessions descriptor.callId
  rw [AppScope.bindAppSession, Driver.bindAppSession, hside]
  cases hlookup : w.sessions.lookup descriptor.callId with
  | some session =>
    rw [hlookup, Option.map_some] at hsessions
    simp only [hlookup, hsessions]
    refine ⟨?_, h.sessions⟩
    simp only [bindTo, h.builder]
  | none =>
    obtain ⟨hnodup, hnamed⟩ := loadAppAllowedTools_plain descriptor.appId result
    obtain ⟨session, hsession⟩ := hregisters hlookup
    rw [hlookup, Option.map_none] at hsessions
    simp only [hlookup, hsessions, hsession, eraseDups_of_nodup hnodup]
    have htools : session.allowedTools = loadAppAllowedTools descriptor.appId result := by
      unfold registerAppSession at hsession
      split_ifs at hsession
      obtain rfl := Except.ok.inj hsession
      have hfilter : (loadAppAllowedTools descriptor.appId result).filter (· ≠ "") =
          loadAppAllowedTools descriptor.appId result :=
        List.filter_eq_self.mpr fun tool htool => decide_eq_true fun hempty =>
          hnamed (hempty ▸ htool)
      simp only [hfilter, eraseDups_of_nodup hnodup]
    refine ⟨by simp only [bindTo, h.builder], fun callId => ?_⟩
    simp only [bindTo, lookup_cons]
    split_ifs
    · rw [Option.map_some, htools]
    · exact h.sessions callId

end Driving

/-! ## A call that completes with another connector -/

/-- The call of an App, when it starts and when it completes. -/
def appCall (method connectorId : String) : Members :=
  [("method", .str method), ("params", .obj [("item", .obj [("id", .str "call_1"),
    ("type", .str "mcpToolCall"), ("server", .str "images"), ("tool", .str "edit"),
    ("appContext", .obj [("resourceUri", .str "ui://edit"), ("connectorId", .str connectorId)])])])]

/-- A resource read of the App, with a connector. -/
def readAccess (connectorId : String) : AppAccess :=
  ⟨"images", some "call_1", some "ui://edit", some connectorId, none⟩

/-- The App's call starts with a connector and completes with one. -/
def startAndComplete (started completed : String) : List Action :=
  [.notify (appCall "item/started" started), .bind none, .bind none, .bind none,
    .notify (appCall "item/completed" completed), .bind none, .bind none]

/-- The call keeps its connector. -/
theorem scope_kept_sameConnector : ∃ s : AppScope, Machine.run scopeStep (create sampleRecord)
    (startAndComplete "connector_1" "connector_1") = some s ∧
    validateMcpAppAccess s.builder.record s.sessions (readAccess "connector_1") = .ok () ∧
    ∃ callId first, (readAccess "connector_1").originCallId = some callId ∧
      s.registered.lookup callId = some first ∧
        Within s.builder.record.id first (readAccess "connector_1") := by
  obtain ⟨s, hs, htest⟩ := (Option.any_eq_true _ _).mp (show (Machine.run scopeStep
    (create sampleRecord) (startAndComplete "connector_1" "connector_1")).any (fun s =>
      validateMcpAppAccess s.builder.record s.sessions (readAccess "connector_1") = .ok ()) = true
        by decide +kernel)
  have hok := of_decide_eq_true htest
  exact ⟨s, hs, hok, scope_kept hs (by decide +kernel) hok⟩

/-- It completes with another one, which the App may use from then on. -/
theorem not_scope_kept_otherConnector : ∃ s : AppScope, Machine.run scopeStep (create sampleRecord)
    (startAndComplete "connector_1" "connector_2") = some s ∧
    validateMcpAppAccess s.builder.record s.sessions (readAccess "connector_2") = .ok () ∧
    ∀ first, s.registered.lookup "call_1" = some first →
      ¬ Within s.builder.record.id first (readAccess "connector_2") := by
  obtain ⟨s, hs, htest⟩ := (Option.any_eq_true _ _).mp (show (Machine.run scopeStep
    (create sampleRecord) (startAndComplete "connector_1" "connector_2")).any (fun s =>
      validateMcpAppAccess s.builder.record s.sessions (readAccess "connector_2") = .ok () ∧
        (s.registered.lookup "call_1").all fun first =>
          first.1.connectorId = some "connector_1") = true by decide +kernel)
  obtain ⟨hok, hfirst⟩ := of_decide_eq_true htest
  refine ⟨s, hs, hok, fun first hregistered hwithin => ?_⟩
  rw [hregistered] at hfirst
  have hother := (of_decide_eq_true hfirst).symm.trans (hwithin.connector "connector_2" rfl)
  exact absurd (Option.some.inj hother) (by decide)

end AppScope

end CodexGateway.Adapter
