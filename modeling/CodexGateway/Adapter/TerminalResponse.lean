import CodexGateway.Adapter.BatchItems
import CodexGateway.Adapter.DriverStream

/-!
# Adapter/TerminalResponse — the response of the last event, and the one that is read later

The builder copies the output into the terminal event before the service has bound the Apps of the
same batch: their tools are written to the items of the batch and to the record, and the copy stays
without them.

Where no App call of that batch gets tools, the response of the terminal event is the one that
`retrieve` returns ever after (`retrieve_agrees`).
-/

namespace CodexGateway.Adapter

open PyJson Worker ResponsesEventBuilder

namespace Driver

variable {s s' : Driver} {event : AgentEvent} {bound todo : List Event} {b : ResponsesEventBuilder}

/-- What `retrieve` returns. -/
def retrieve (s : Driver) : Response := s.builder.record.retrieve

/-- The responses that the subscriber is told of as the last. -/
def terminalResponses (s : Driver) : List Response :=
  s.queue.filterMap fun e => e.bind fun e => e.body.terminal?

/-- The tools of the call's session; `tools` are those `app/read` gives, if it is asked. -/
def sessionTools (s : Driver) (callId : String) (tools : List String) : List String :=
  (s.appSessions.lookup callId).getD tools.eraseDups

/-- The event tells of no App with tools, or the message covers the call. -/
def Toolless (record : ResponseRecord) (event : Event) : Prop :=
  ∀ x ∈ sideCall event, x.2.2.allowedTools = [] ∨ record.Covers x.1.id

/-- When the batch that ends the Response is published, none of its App calls has tools. -/
def EndsToolless (s : Driver) : Action → Prop
  | .bind tools =>
    match s.phase with
    | .binding _ bound current todo =>
      s.builder.terminal = true → (∀ e ∈ todo, ¬ (sideCall e).isSome) →
        (∀ e ∈ bound, Toolless s.builder.record e) ∧
          ∀ x ∈ sideCall current, s.sessionTools x.2.2.callId tools = [] ∨
            s.builder.record.Covers x.1.id
    | _ => True
  | _ => True

instance (record : ResponseRecord) (event : Event) : Decidable (Toolless record event) := by
  unfold Toolless
  infer_instance

instance (s : Driver) : ∀ a, Decidable (s.EndsToolless a) := fun a => by
  unfold EndsToolless
  split
  · split
    · infer_instance
    · infer_instance
  · infer_instance

/-! ## A batch that waits -/

/-- The terminal event of a batch has the response that is read when the rest of the batch is bound,
unless an event that is bound has tools. -/
def Waits (b : ResponsesEventBuilder) (bound todo : List Event) : Prop :=
  ∀ e ∈ bound ++ todo, ∀ response ∈ e.body.terminal?, b.terminal = true ∧
    b.record.Lists (sideCalls todo) ∧
    (∀ e ∈ todo, ∀ x, sideCall e = some x → x.2.2.allowedTools = []) ∧
    ((∃ e ∈ bound, ¬ Toolless b.record e) ∨
      (b.record.rebind (sideCalls todo)).retrieve = response)

theorem sideCalls_cons_of_none {event : Event} (h : sideCall event = none) (events : List Event) :
    sideCalls (event :: events) = sideCalls events := by
  rw [sideCalls, List.filterMap_cons, h]
  rfl

theorem sideCalls_cons_of_some {event : Event} {x : McpCallItem × McpMeta × McpAppDescriptor}
    (h : sideCall event = some x) (events : List Event) :
    sideCalls (event :: events) = x.1 :: sideCalls events := by
  rw [sideCalls, List.filterMap_cons, h]
  rfl

theorem toolless_of_none {record : ResponseRecord} {event : Event} (h : sideCall event = none) :
    Toolless record event := fun x hx => by
  rw [h] at hx
  cases hx

/-- An event that tells of no App needs no binding. -/
theorem Waits.skip {current : Event} (h : Waits b bound (current :: todo))
    (hside : sideCall current = none) : Waits b (bound ++ [current]) todo := by
  intro e he response hresponse
  obtain ⟨hterminal, hlists, hbare, hread⟩ := h e (by simpa using he) response hresponse
  rw [sideCalls_cons_of_none hside] at hlists hread
  refine ⟨hterminal, hlists, fun e he => hbare e (List.mem_cons_of_mem _ he), hread.imp_left ?_⟩
  exact fun ⟨e, he, htools⟩ => ⟨e, List.mem_append_left _ he, htools⟩

/-! ## An event is bound -/

/-- The App of an event, with the tools of its session. -/
def boundTarget (x : McpCallItem × McpMeta × McpAppDescriptor) (tools : List String) :
    McpAppDescriptor := { x.2.2 with allowedTools := tools }

/-- …and its call. -/
def boundCall (x : McpCallItem × McpMeta × McpAppDescriptor) (tools : List String) : McpCallItem :=
  { x.1 with itemMeta := some { x.2.1 with mcpApp := some (boundTarget x tools) } }

/-- What binding changes. -/
theorem bindAppSession_of_some {current : Event} {x : McpCallItem × McpMeta × McpAppDescriptor}
    (hside : sideCall current = some x) (tools : List String) :
    (s.bindAppSession current tools).1 =
        withItem current (.mcpCall (boundCall x (s.sessionTools x.2.2.callId tools))) ∧
      (s.bindAppSession current tools).2.builder.terminal = s.builder.terminal ∧
      (s.bindAppSession current tools).2.builder.record =
        ((s.builder.record.registerMcpAppTarget x.2.2.callId
          (boundTarget x (s.sessionTools x.2.2.callId tools))).addOutputItem
            (.mcpCall (boundCall x (s.sessionTools x.2.2.callId tools)))).1 := by
  obtain ⟨call, itemMeta, descriptor⟩ := x
  rw [bindAppSession, hside, sessionTools]
  dsimp only
  cases s.appSessions.lookup descriptor.callId with
  | none => exact ⟨rfl, rfl, rfl⟩
  | some allowed => exact ⟨rfl, rfl, rfl⟩

/-- A call without tools is bound to what it is. -/
theorem boundCall_self {current : Event} {x : McpCallItem × McpMeta × McpAppDescriptor}
    (hside : sideCall current = some x) (hbare : x.2.2.allowedTools = []) :
    boundCall x [] = x.1 := by
  obtain ⟨hmeta, happ, -⟩ := sideCall_eq_some hside
  have htarget : boundTarget x [] = x.2.2 := by rw [boundTarget, ← hbare]
  rw [boundCall, htarget, ← happ, ← hmeta]

/-- The event is the same, but for its call. -/
theorem withItem_spec {current : Event} {x : McpCallItem × McpMeta × McpAppDescriptor}
    (hside : sideCall current = some x) (call : McpCallItem) :
    (withItem current (.mcpCall call)).body.terminal? = none ∧
      sideCall (withItem current (.mcpCall call)) = call.itemMeta.bind fun itemMeta =>
        itemMeta.mcpApp.bind fun descriptor => some (call, itemMeta, descriptor) := by
  obtain ⟨-, i, hbody⟩ := sideCall_call hside
  rw [withItem]
  rcases hbody with hbody | hbody
  · rw [hbody]
    exact ⟨rfl, rfl⟩
  · rw [hbody]
    exact ⟨rfl, rfl⟩

/-- Binding leaves the message alone. -/
theorem covers_bindAppSession (s : Driver) (current : Event) (tools : List String) (id : String) :
    (s.bindAppSession current tools).2.builder.record.Covers id ↔ s.builder.record.Covers id := by
  cases hside : sideCall current with
  | none =>
    rw [bindAppSession, hside]
  | some x =>
    rw [(bindAppSession_of_some hside tools).2.2]
    exact ResponseRecord.covers_add _ id

theorem Toolless.congr {record record' : ResponseRecord} {event : Event} (h : Toolless record event)
    (hcovers : ∀ id, record.Covers id ↔ record'.Covers id) : Toolless record' event :=
  fun x hx => (h x hx).imp_right (hcovers _).mp

/-- An event is bound without tools where its session has none, or the message covers its call. -/
theorem toolless_bindAppSession {current : Event} {x : McpCallItem × McpMeta × McpAppDescriptor}
    (hside : sideCall current = some x) (tools : List String) :
    Toolless (s.bindAppSession current tools).2.builder.record (s.bindAppSession current tools).1 ↔
      s.sessionTools x.2.2.callId tools = [] ∨ s.builder.record.Covers x.1.id := by
  obtain ⟨hevent, -, -⟩ := bindAppSession_of_some hside tools
  obtain ⟨-, hbound⟩ := withItem_spec hside (boundCall x (s.sessionTools x.2.2.callId tools))
  have hside' : sideCall (s.bindAppSession current tools).1 =
      some (boundCall x (s.sessionTools x.2.2.callId tools), _,
        boundTarget x (s.sessionTools x.2.2.callId tools)) := hevent ▸ hbound
  constructor
  · intro h
    exact (h _ hside').imp_right (covers_bindAppSession s current tools _).mp
  · intro h y hy
    obtain rfl := Option.some.inj (hside'.symm.trans hy)
    exact h.imp_right (covers_bindAppSession s current tools _).mpr

/-- **An event is bound**: without tools, or under the message, it leaves what is read alone. -/
theorem Waits.bind {current : Event} {x : McpCallItem × McpMeta × McpAppDescriptor}
    (h : Waits s.builder bound (current :: todo)) (hside : sideCall current = some x)
    (tools : List String) :
    Waits (s.bindAppSession current tools).2.builder
      (bound ++ [(s.bindAppSession current tools).1]) todo := by
  obtain ⟨hevent, hterminal, hrecord⟩ := bindAppSession_of_some (s := s) hside tools
  have hbound := toolless_bindAppSession (s := s) hside tools
  have hcovers := covers_bindAppSession s current tools
  generalize s.sessionTools x.2.2.callId tools = allowed at hevent hrecord hbound
  have hnone := (withItem_spec hside (boundCall x allowed)).1
  intro e he response hresponse
  have hmem : e ∈ bound ++ current :: todo := by
    simp only [List.append_assoc, List.mem_append, List.mem_cons, List.not_mem_nil, or_false]
      at he ⊢
    rcases he with he | rfl | he
    · exact .inl he
    · rw [hevent, hnone] at hresponse
      cases hresponse
    · exact .inr (.inr he)
  obtain ⟨hended, hlists, hbare, hread⟩ := h e hmem response hresponse
  rw [sideCalls_cons_of_some hside] at hlists hread
  have hknown := hlists x.1 List.mem_cons_self
  have hrest : (s.builder.record.addOutputItem (.mcpCall x.1)).1.Lists (sideCalls todo) :=
    ResponseRecord.Lists.add (fun call hcall => hlists call (List.mem_cons_of_mem _ hcall)) _
  refine ⟨hterminal.trans hended, fun call hcall => ?_,
    fun e he => hbare e (List.mem_cons_of_mem _ he), ?_⟩
  · rw [hrecord]
    exact ResponseRecord.isSome_index_add _ (hlists call (List.mem_cons_of_mem _ hcall))
  rcases hread with ⟨e, he, htools⟩ | hread
  · exact .inl ⟨e, List.mem_append_left _ he, fun hless => htools (hless.congr hcovers)⟩
  by_cases hplain : allowed = [] ∨ s.builder.record.Covers x.1.id
  · right
    have hitem : s.builder.record.Covers x.1.id ∨
        OutputItem.mcpCall (boundCall x allowed) = .mcpCall x.1 := by
      rcases hplain with rfl | hcover
      · rw [boundCall_self hside (hbare current List.mem_cons_self x hside)]
        exact .inr rfl
      · exact .inl hcover
    have htarget : ResponseRecord.Agrees s.builder.record.Covers s.builder.record
        (s.builder.record.registerMcpAppTarget x.2.2.callId (boundTarget x allowed)) :=
      ⟨rfl, rfl, fun _ _ => rfl⟩
    have hadded : ResponseRecord.Agrees s.builder.record.Covers
        (s.builder.record.addOutputItem (.mcpCall x.1)).1
        ((s.builder.record.registerMcpAppTarget x.2.2.callId (boundTarget x allowed)).addOutputItem
          (.mcpCall (boundCall x allowed))).1 :=
      htarget.add rfl hknown (fun _ hid => .inl hid) hitem
    rw [← hread, hrecord]
    exact ((hadded.rebind hrest).mono fun id hid => (ResponseRecord.covers_rebind _ id).mpr
      ((ResponseRecord.covers_add _ id).mpr hid)).retrieve
  · exact .inl ⟨_, List.mem_append_right _ List.mem_cons_self, fun hless =>
      hplain (hbound.mp hless)⟩

/-! ## The queue of the subscriber -/

/-- The terminal events of a queue have the response that is read. -/
def Shown (b : ResponsesEventBuilder) (queue : List (Option Event)) : Prop :=
  ∀ e, some e ∈ queue → ∀ response ∈ e.body.terminal?,
    b.terminal = true ∧ b.record.retrieve = response

/-- The subscriber is told what is read, and a batch that waits will tell it. -/
structure Faithful (s : Driver) : Prop where
  indexed : s.builder.record.Indexed
  shown : Shown s.builder s.queue
  silent : s.pendingEvents ≠ [] →
    s.mcpAppsEnabled = true ∧ ∀ e, some e ∈ s.queue → e.body.terminal? = none
  waits : ∀ event bound current todo, s.phase = .binding event bound current todo →
    Waits s.builder bound (current :: todo)

theorem shown_silent {queue : List (Option Event)}
    (h : ∀ e, some e ∈ queue → e.body.terminal? = none) : Shown b queue :=
  fun e he response hresponse => by
    rw [h e he] at hresponse
    cases hresponse

theorem Shown.silent {queue : List (Option Event)} (h : Shown b queue) (hopen : b.terminal = false)
    (e : Event) (he : some e ∈ queue) : e.body.terminal? = none := by
  refine Option.eq_none_iff_forall_not_mem.mpr fun response hresponse => ?_
  rw [(h e he response hresponse).1] at hopen
  cases hopen

/-- More events are published, of a Response that had not ended. -/
theorem shown_append {queue : List (Option Event)} {events : List Event}
    (hold : ∀ e, some e ∈ queue → e.body.terminal? = none)
    (hnew : ∀ e ∈ events, ∀ response ∈ e.body.terminal?,
      b.terminal = true ∧ b.record.retrieve = response) : Shown b (queue ++ events.map some) := by
  intro e he response hresponse
  rcases List.mem_append.mp he with he | he
  · rw [hold e he] at hresponse
    cases hresponse
  · obtain ⟨e', he', heq⟩ := List.mem_map.mp he
    obtain rfl := Option.some.inj heq
    exact hnew e' he' response hresponse

/-- A driver that works on no batch. -/
theorem Shown.faithful (h : Shown s.builder s.queue) (hindexed : s.builder.record.Indexed)
    (hpending : s.pendingEvents = []) : s.Faithful where
  indexed := hindexed
  shown := h
  silent hne := absurd hpending hne
  waits event bound current todo hphase := by
    rw [pendingEvents, hphase] at hpending
    exact absurd hpending (by simp)

theorem lastEvents_batch (s : Driver) (error : DriverError) (hindexed : b.record.Indexed) :
    Batch b (s.lastEvents error b) := by
  rw [lastEvents]
  split_ifs
  · exact incomplete_batch hindexed _
  · exact fail_batch hindexed _

theorem Shown.fail (h : Shown s.builder s.queue) (hindexed : s.builder.record.Indexed)
    (error : DriverError) : (s.fail error).Faithful := by
  have hbatch := s.lastEvents_batch error hindexed
  have hshown : Shown (s.fail error).builder (s.fail error).queue := by
    cases hterminal : s.builder.terminal with
    | false => exact shown_append (h.silent hterminal) hbatch.snapshot
    | true =>
      have hnothing := s.lastEvents_terminal error hterminal
      have hbuilder : (s.fail error).builder = s.builder := congrArg Prod.snd hnothing
      have hqueue : (s.fail error).queue = s.queue := by
        show s.queue ++ (s.lastEvents error s.builder).1.map some = s.queue
        rw [hnothing, List.map_nil, List.append_nil]
      rw [hbuilder, hqueue]
      exact h
  exact hshown.faithful hbatch.carries.indexed rfl

theorem Shown.raise (h : Shown s.builder s.queue) (hindexed : s.builder.record.Indexed)
    (error : DriverError) : (s.raise error).Faithful := by
  cases error with
  | timeout => exact Shown.faithful (s := s.raise .timeout) h hindexed rfl
  | terminal message => exact h.fail hindexed _
  | upstream message => exact h.fail hindexed _
  | other => exact h.fail hindexed _

theorem Shown.raiseInner (h : Shown s.builder s.queue) (hindexed : s.builder.record.Indexed)
    (error : DriverError) : (s.raiseInner error).Faithful := by
  cases error with
  | upstream message =>
    simp only [Driver.raiseInner]
    split
    · exact h.raise hindexed _
    · split_ifs
      · exact h.raise hindexed _
      · exact Shown.faithful h hindexed rfl
  | terminal message => exact h.raise hindexed (.terminal message)
  | timeout => exact h.raise hindexed .timeout
  | other => exact h.raise hindexed .other

theorem Shown.advance (h : Shown s.builder s.queue) (hindexed : s.builder.record.Indexed)
    (event : AgentEvent) : (s.advance event).Faithful := by
  have hpending : (s.advance event).pendingEvents = [] := by
    rw [pendingEvents, Driver.advance]
    cases s.builder.terminal <;> rfl
  have hsame : Shown (s.advance event).builder (s.advance event).queue := h
  exact hsame.faithful hindexed hpending

theorem Shown.loop (h : Shown s.builder s.queue) (hindexed : s.builder.record.Indexed) :
    s.loop.Faithful := by
  have hpending : s.loop.pendingEvents = [] := by
    rw [pendingEvents, Driver.loop]
    cases s.builder.terminal <;> rfl
  have hsame : Shown s.loop.builder s.loop.queue := h
  exact hsame.faithful hindexed hpending

/-! ## A batch is published, or waits -/

/-- Where no App is bound, a batch is published at once. -/
theorem publishResponseEvents_disabled (event : AgentEvent) (todo : List Event)
    (hdisabled : s.mcpAppsEnabled = false) (bound : List Event) :
    s.publishResponseEvents event bound todo =
      { s with queue := s.queue ++ (bound ++ todo).map some }.advance event := by
  induction todo generalizing bound with
  | nil =>
    rw [publishResponseEvents, if_neg (by simp [hdisabled]), List.append_nil]
  | cons current todo ih =>
    rw [publishResponseEvents, if_neg (by simp [hdisabled]), ih, List.append_assoc]
    rfl

/-- …and else only the events that tell of no App are. -/
theorem Waits.publish (event : AgentEvent) (henabled : s.mcpAppsEnabled = true)
    (hindexed : s.builder.record.Indexed)
    (hsilent : ∀ e, some e ∈ s.queue → e.body.terminal? = none)
    (h : Waits s.builder bound todo)
    (htools : s.builder.terminal = true → (∀ e ∈ todo, ¬ (sideCall e).isSome) →
      ∀ e ∈ bound, Toolless s.builder.record e) :
    (s.publishResponseEvents event bound todo).Faithful := by
  induction todo generalizing bound with
  | nil =>
    have hshown : Shown s.builder (s.queue ++ bound.map some) := by
      refine shown_append hsilent fun e he response hresponse => ?_
      obtain ⟨hterminal, -, -, hread⟩ := h e (by simpa using he) response hresponse
      refine ⟨hterminal, hread.resolve_left ?_⟩
      rintro ⟨e, he, hnot⟩
      exact hnot (htools hterminal (fun _ he => absurd he List.not_mem_nil) e he)
    rw [publishResponseEvents]
    split_ifs
    · exact Shown.faithful hshown hindexed rfl
    · exact @Shown.advance { s with queue := s.queue ++ bound.map some } hshown hindexed event
  | cons current todo ih =>
    rw [publishResponseEvents]
    split_ifs with hside
    · refine ⟨hindexed, shown_silent hsilent, fun _ => ⟨henabled, hsilent⟩, ?_⟩
      intro event' bound' current' todo' hphase
      cases hphase
      exact h
    · have hnone : sideCall current = none := by simpa [henabled] using hside
      refine ih (h.skip hnone) fun hterminal htodo e he => ?_
      rcases List.mem_append.mp he with he | he
      · refine htools hterminal (fun e he => ?_) e he
        rcases List.mem_cons.mp he with rfl | he
        · simp [hnone]
        · exact htodo e he
      · obtain rfl := List.mem_singleton.mp he
        exact toolless_of_none hnone

/-- A new batch is published, or waits. -/
theorem publish_faithful (event : AgentEvent) {events : List Event}
    (hindexed : s.builder.record.Indexed)
    (hsilent : ∀ e, some e ∈ s.queue → e.body.terminal? = none)
    (hsnapshot : ∀ e ∈ events, ∀ response ∈ e.body.terminal?,
      s.builder.terminal = true ∧ s.builder.record.retrieve = response)
    (hwaits : Waits s.builder [] events) : (s.publishResponseEvents event [] events).Faithful := by
  by_cases henabled : s.mcpAppsEnabled = true
  · exact hwaits.publish event henabled hindexed hsilent
      fun _ _ _ he => absurd he List.not_mem_nil
  · rw [publishResponseEvents_disabled event _ (by simpa using henabled), List.nil_append]
    exact @Shown.advance { s with queue := s.queue ++ events.map some }
      (shown_append hsilent hsnapshot) hindexed event

/-! ## What one step does -/

theorem Shown.handleAgentServerRequest (h : Shown s.builder s.queue)
    (hindexed : s.builder.record.Indexed) (event : AgentEvent) :
    (s.handleAgentServerRequest event).Faithful := by
  simp only [Driver.handleAgentServerRequest]
  split
  · split_ifs
    · exact Shown.faithful h hindexed rfl
    · split
      · exact Shown.faithful h hindexed rfl
      · exact Shown.faithful h hindexed rfl
  · exact h.raiseInner hindexed _

/-- **A notification is consumed**: what it says of the end is what is read once it is bound. -/
theorem Shown.handleNotification (h : Shown s.builder s.queue)
    (hindexed : s.builder.record.Indexed) (hopen : s.builder.terminal = false)
    (event : AgentEvent) : (s.handleNotification event).Faithful := by
  simp only [Driver.handleNotification]
  split_ifs
  · have hsilent := h.silent hopen
    obtain ⟨hindexed', hbatch⟩ := consume_batch hindexed event.data.members
    have hsnapshot : Snapshot (consume event.data.members s.builder) := by
      rcases hbatch with hnone | hbatch
      · intro e he response hresponse
        rw [hnone e he] at hresponse
        cases hresponse
      · exact hbatch.snapshot
    have hwaits : Waits (consume event.data.members s.builder).2 []
        (consume event.data.members s.builder).1 := by
      intro e he response hresponse
      rcases hbatch with hnone | hbatch
      · rw [hnone e he] at hresponse
        cases hresponse
      · obtain ⟨hterminal, hread⟩ := hbatch.snapshot e he response hresponse
        exact ⟨hterminal, hbatch.carries.lists, hbatch.carries.bare,
          .inr (hbatch.retrieve.trans hread)⟩
    exact @publish_faithful { s with
      builder := (consume event.data.members s.builder).2
      consumed := s.consumed ++ [event.id] } event _ hindexed' hsilent hsnapshot hwaits
  · exact h.advance hindexed event

theorem Shown.handle (h : Shown s.builder s.queue) (hindexed : s.builder.record.Indexed)
    (hopen : s.builder.terminal = false) (event : AgentEvent) : (s.handle event).Faithful := by
  simp only [Driver.handle]
  split
  · exact h.raise hindexed _
  · split_ifs
    · exact h.raise hindexed _
    · cases event.type with
      | serverRequest => exact h.handleAgentServerRequest hindexed event
      | sessionFailed => exact h.raise hindexed _
      | notification => exact h.handleNotification hindexed hopen event

/-- A change that neither the queue nor the record sees. -/
theorem Faithful.frame (h : s.Faithful) (hqueue : s'.queue = s.queue)
    (hbuilder : s'.builder = s.builder) (hphase : s'.phase = s.phase)
    (henabled : s'.mcpAppsEnabled = s.mcpAppsEnabled) : s'.Faithful where
  indexed := hbuilder ▸ h.indexed
  shown := by
    rw [hbuilder, hqueue]
    exact h.shown
  silent hne := by
    rw [pendingEvents, hphase] at hne
    rw [henabled, hqueue]
    exact h.silent hne
  waits event bound current todo hbinding := by
    rw [hbuilder]
    exact h.waits event bound current todo (hphase ▸ hbinding)

theorem bindAppSession_frame (s : Driver) (current : Event) (tools : List String) :
    (s.bindAppSession current tools).2.mcpAppsEnabled = s.mcpAppsEnabled ∧
      (s.bindAppSession current tools).2.queue = s.queue := by
  rw [bindAppSession]
  split
  · exact ⟨rfl, rfl⟩
  · exact ⟨rfl, rfl⟩

/-- The next event of a batch is bound. -/
theorem Faithful.bind (h : s.Faithful) {current : Event} (tools : List String)
    (hphase : s.phase = .binding event bound current todo)
    (hcond : s.EndsToolless (.bind tools)) :
    ((s.bindAppSession current tools).2.publishResponseEvents event
      (bound ++ [(s.bindAppSession current tools).1]) todo).Faithful := by
  have hpending : s.pendingEvents ≠ [] := by
    rw [pendingEvents, hphase]
    simp
  obtain ⟨henabled, hsilent⟩ := h.silent hpending
  obtain ⟨henabled', hqueue⟩ := s.bindAppSession_frame current tools
  have hwaits := h.waits event bound current todo hphase
  simp only [EndsToolless, hphase] at hcond
  have hcovers := covers_bindAppSession s current tools
  rw [← hqueue] at hsilent
  cases hside : sideCall current with
  | none =>
    have hsame : s.bindAppSession current tools = (current, s) := by rw [bindAppSession, hside]
    rw [hsame]
    refine (hwaits.skip hside).publish event henabled h.indexed (h.silent hpending).2
      fun hterminal htodo e he => ?_
    rcases List.mem_append.mp he with he | he
    · exact (hcond hterminal htodo).1 e he
    · obtain rfl := List.mem_singleton.mp he
      exact toolless_of_none hside
  | some x =>
    obtain ⟨-, hterminal, hrecord⟩ := bindAppSession_of_some hside tools
    have hindexed : (s.bindAppSession current tools).2.builder.record.Indexed := by
      have htarget : (s.builder.record.registerMcpAppTarget x.2.2.callId
          (boundTarget x (s.sessionTools x.2.2.callId tools))).Indexed :=
        ⟨h.indexed.lt, h.indexed.unique⟩
      rw [hrecord]
      exact htarget.add _
    refine (hwaits.bind hside tools).publish event (henabled'.trans henabled) hindexed hsilent
      fun hended htodo e he => ?_
    obtain ⟨hbound, hcurrent⟩ := hcond (hterminal.symm.trans hended) htodo
    rcases List.mem_append.mp he with he | he
    · exact (hbound e he).congr fun id => (hcovers id).symm
    · obtain rfl := List.mem_singleton.mp he
      exact (toolless_bindAppSession hside tools).mpr (hcurrent x hside)

theorem faithful_step {action : Action} (h : s.Faithful) (hlive : s.Live)
    (hcond : s.EndsToolless action) (hstep : Step s action s') : s'.Faithful := by
  have hshown := h.shown
  have hindexed := h.indexed
  cases hstep with
  | worker hworker => exact h.frame rfl rfl rfl rfl
  | failLease error => exact h.frame rfl rfl rfl rfl
  | cancel => exact h.frame rfl rfl rfl rfl
  | expire => exact h.frame rfl rfl rfl rfl
  | send hstreaming => exact h.frame rfl rfl rfl rfl
  | readCursor hphase => exact Shown.faithful hshown hindexed rfl
  | startTurn hphase =>
    have hopen := hlive.not_terminal hphase trivial
    have hinitial : Shown (initialEvents s.builder).2
        (s.queue ++ (initialEvents s.builder).1.map some) := by
      refine shown_append (hshown.silent hopen) fun e he response hresponse => ?_
      rw [terminal?_of_outcome? ((initialEvents_plain s.builder).silent e he)] at hresponse
      cases hresponse
    exact @Shown.loop { s with
      builder := (initialEvents s.builder).2
      queue := s.queue ++ (initialEvents s.builder).1.map some } hinitial
        ((initialEvents_mute s.builder).retains.indexed hindexed)
  | connect hphase => exact Shown.faithful hshown hindexed rfl
  | @deliver event rest hphase hstream =>
    exact @Shown.handle { s with stream := rest } hshown hindexed
      (hlive.not_terminal hphase trivial) event
  | endStream hphase => exact hshown.raiseInner hindexed _
  | breakStream error hphase => exact hshown.raiseInner hindexed error
  | answer reply hphase => exact Shown.faithful hshown hindexed rfl
  | resolve hphase hresolve => exact Shown.faithful hshown hindexed rfl
  | reject hphase hreject => exact Shown.faithful hshown hindexed rfl
  | @accepted event hphase =>
    exact @Shown.advance { s with resolved := s.resolved ++ [event.id] } hshown hindexed event
  | @rejected event hphase =>
    exact @Shown.raiseInner { s with resolved := s.resolved ++ [event.id] } hshown hindexed _
  | @loseReply event error hphase =>
    exact @Shown.raiseInner { s with resolved := s.resolved ++ [event.id] } hshown hindexed error
  | bind tools hphase => exact h.bind tools hphase hcond
  | @announce event hphase => exact hshown.advance hindexed event
  | renewed hphase => exact hshown.loop hindexed
  | reconnectRaises error' hphase houtcome => exact hshown.raise hindexed error'
  | interrupt hdeadline => exact hshown.raise hindexed .timeout
  | interrupted hphase => exact hshown.fail hindexed _
  | finish hphase =>
    have hclosed : Shown s.builder (s.queue ++ [none]) := fun e he => by
      rcases List.mem_append.mp he with he | he
      · exact hshown e he
      · simp at he
    exact Shown.faithful hclosed hindexed rfl

/-- **As long as no App call of the batch that ends the Response has tools when that is published,
the response of the terminal event is the one that is read from then on.** -/
theorem retrieve_agrees (maxHistory : ℕ) (mcpAppsEnabled : Bool) (threadId turnId : String)
    (fresh : Fresh) (request : CreateResponseRequest) (inputItems : List Members)
    (mcpAppsBaseUrl : String) (actions : List Action) (s : Driver)
    (hrun : Machine.run driverStep (create maxHistory mcpAppsEnabled threadId turnId
      (.create fresh request inputItems mcpAppsBaseUrl)) actions = some s)
    (htools : Machine.Meets driverStep EndsToolless (create maxHistory mcpAppsEnabled threadId
      turnId (.create fresh request inputItems mcpAppsBaseUrl)) actions) :
    ∀ response ∈ s.terminalResponses, s.retrieve = response := by
  have hcreate : (create maxHistory mcpAppsEnabled threadId turnId
      (.create fresh request inputItems mcpAppsBaseUrl)).Faithful :=
    Shown.faithful (fun _ he => absurd he List.not_mem_nil) (ResponseRecord.indexed_create _ _ _ _)
      rfl
  have hkeep : ∀ s a s', s.EndsToolless a → s.Faithful ∧ s.Live → driverStep s a = some s' →
      s'.Faithful ∧ s'.Live := by
    rintro s a s' hcond ⟨h, hlive⟩ hstep
    have hstep := step_of_driverStep hstep
    exact ⟨faithful_step h hlive hcond hstep, live_step hlive hstep⟩
  obtain ⟨h, -⟩ := Machine.run_invariant hkeep htools hrun ⟨hcreate, fun _ => rfl⟩
  intro response hresponse
  obtain ⟨e, he, hterminal⟩ := List.mem_filterMap.mp hresponse
  obtain ⟨e', rfl, hterminal⟩ := Option.bind_eq_some_iff.mp hterminal
  exact (h.shown e' he response hterminal).2

/-! ## A call that is reported late -/

/-- The call of an App, complete. -/
def editCall : Json :=
  .obj [("id", .str "c1"), ("type", .str "mcpToolCall"), ("server", .str "s"), ("tool", .str "t"),
    ("mcpAppResourceUri", .str "ui://app")]

/-- The end of the call. -/
def editCompleted : Dict where
  members := [("method", .str "item/completed"), ("params", .obj [("item", editCall)])]
  wellFormed := ⟨by decide, by simp [editCall, WellFormedMembers, WellFormed]⟩

/-- The end of the turn, with the call among its items. -/
def editTurn : Dict where
  members := [("method", .str "turn/completed"), ("params", .obj [("turn", .obj
    [("id", .str "turn_1"), ("status", .str "completed"), ("items", .arr [editCall])])])]
  wellFormed := ⟨by decide, by simp [editCall, WellFormedMembers, WellFormed, WellFormedList]⟩

/-- The driver reads the next notification, of an App with one tool. -/
def readsEdit (notification : Dict) : List Action :=
  [.worker (.notify notification), .send, .deliver, .bind ["edit"], .bind ["edit"], .announce]

/-- The tools of the Apps in a response. -/
def appTools (response : Response) : List (List String) :=
  response.output.filterMap fun item =>
    match item with
    | .mcpCall call => call.app.map (·.allowedTools)
    | .message .. => none

/-- The execution up to its first event. -/
def connects : List Action := [.readCursor, .startTurn, .connect]

/-- The call is complete before the turn is, and the turn repeats it. -/
def reportedBefore : List Action :=
  connects ++ readsEdit editCompleted ++ [.worker (.notify editTurn), .send, .deliver, .finish]

/-- The call is only among the items of the turn. -/
def reportedByTurn : List Action := connects ++ readsEdit editTurn ++ [.finish]

/-- The terminal event has the App with its tool. -/
theorem retrieve_agrees_before : ∃ s, Machine.run driverStep
    (create 64 true "thread_1" "turn_1" sampleRecord) reportedBefore = some s ∧
      s.terminalResponses.map appTools = [[["edit"]]] ∧
        ∀ response ∈ s.terminalResponses, s.retrieve = response := by
  obtain ⟨s, hs, htools⟩ := (Option.any_eq_true _ _).mp (show (Machine.run driverStep
    (create 64 true "thread_1" "turn_1" sampleRecord) reportedBefore).any (fun s =>
      s.terminalResponses.map appTools = [[["edit"]]]) = true by decide +kernel)
  exact ⟨s, hs, of_decide_eq_true htools,
    retrieve_agrees _ _ _ _ _ _ _ _ _ s hs (by decide +kernel)⟩

/-- It has the App without the tool that is read afterwards. -/
theorem not_retrieve_agrees : ¬ ∀ (maxHistory : ℕ) (mcpAppsEnabled : Bool)
    (threadId turnId : String) (fresh : Fresh) (request : CreateResponseRequest)
    (inputItems : List Members) (mcpAppsBaseUrl : String) (actions : List Action) (s : Driver),
    Machine.run driverStep (create maxHistory mcpAppsEnabled threadId turnId
      (.create fresh request inputItems mcpAppsBaseUrl)) actions = some s →
      ∀ response ∈ s.terminalResponses, s.retrieve = response := by
  intro h
  obtain ⟨s, hs, htest⟩ := (Option.any_eq_true _ _).mp (show (Machine.run driverStep
    (create 64 true "thread_1" "turn_1" sampleRecord) reportedByTurn).any (fun s =>
      s.terminalResponses.map appTools = [[[]]] ∧ appTools s.retrieve = [["edit"]]) = true by
        decide +kernel)
  obtain ⟨htold, hread⟩ := of_decide_eq_true htest
  obtain ⟨response, hresponse, htools⟩ := List.mem_map.mp (htold ▸ List.mem_singleton.mpr rfl :
    [[]] ∈ s.terminalResponses.map appTools)
  rw [h _ _ _ _ _ _ _ _ _ s hs response hresponse, htools] at hread
  exact absurd hread (by decide)

end Driver

end CodexGateway.Adapter
