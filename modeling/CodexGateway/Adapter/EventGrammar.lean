import CodexGateway.Adapter.OutputItems

/-!
# Adapter/EventGrammar — the stream of a Response that has ended

The builder opens an item where it is first heard of and closes the message when the Response ends.
An MCP call is closed only where it is reported as completed: a call that was started and has not
come back when the Response ends stays open, and its item in progress.
-/

namespace CodexGateway.Adapter

open PyJson ResponsesEventBuilder ItemStream

section Grammar

variable (isCall : String → Prop)

/-! ## The end of the Response -/

/-- What `_finish_message` does: the message is closed, if there is one. -/
structure Finishes (b : ResponsesEventBuilder) (r : List Event × ResponsesEventBuilder) : Prop where
  inOrder : InOrder isCall r.2
  marks : Machine.run mark b.ledger (marks r.1) = some r.2.ledger
  silent : ∀ e ∈ r.1, e.body.terminal? = none
  items : ∀ id, r.2.record.HasItem id ↔ b.record.HasItem id
  calls : r.2.completedMcpCalls = b.completedMcpCalls
  finished : r.2.record.messageStarted = true → r.2.record.messageCompleted = true

/-- What a method emits that ends the Response. -/
structure Ends (S D : List String) (b : ResponsesEventBuilder)
    (r : List Event × ResponsesEventBuilder) : Prop where
  inOrder : InOrder isCall r.2
  marks : Machine.run mark b.ledger (marks r.1) = some r.2.ledger
  items : ∀ id, isCall id → (r.2.record.HasItem id ↔ b.record.HasItem id ∨ id ∈ S)
  calls : ∀ id, id ∈ r.2.completedMcpCalls ↔ id ∈ b.completedMcpCalls ∨ id ∈ D
  finished : r.2.record.messageStarted = true → r.2.record.messageCompleted = true
  message : ∀ item ∈ r.2.record.outputItems, item.messageText?.isSome → item.status = .completed
  last : ∃ es e response, r.1 = es ++ [e] ∧ (∀ e ∈ es, e.body.terminal? = none) ∧
    e.body.terminal? = some response ∧ response.output = r.2.record.outputItems
  terminal : r.2.terminal = true

variable {isCall} {S D : List String} {b : ResponsesEventBuilder}
variable {r : List Event × ResponsesEventBuilder}

theorem finishMessage_finishes (h : InOrder isCall b) :
    Finishes isCall b (finishMessage b) := by
  unfold finishMessage
  rw [getRecord_bind]
  by_cases hdone : (!b.record.messageStarted || b.record.messageCompleted) = true
  · rw [if_pos hdone]
    refine ⟨h, rfl, fun _ h => (by cases h), fun _ => .rfl, rfl, fun hs => ?_⟩
    change b.record.messageStarted = true at hs
    change b.record.messageCompleted = true
    simpa [hs] using hdone
  · rw [if_neg hdone]
    obtain ⟨hs, hopen⟩ : b.record.messageStarted = true ∧ b.record.messageCompleted = false := by
      simpa using hdone
    obtain ⟨i, hindex, hat⟩ := h.ledger_message hs
    rw [hopen] at hat
    obtain ⟨hinOrder, -, hcompleted, hledger, hindex', hhas⟩ :=
      h.syncRecord hs b.record.outputText true
    have hmarks : marks (completeMessage b).1 = List.replicate 2 (.used i) ++ [.closed i] := by
      have hi := congrArg (Option.getD · 0) (hindex'.trans hindex)
      simp only [Option.getD_some] at hi
      rw [← hi]
      rfl
    refine ⟨⟨hinOrder.listed, hinOrder.named, hinOrder.call, hinOrder.message, hinOrder.started,
      hinOrder.unstarted, hinOrder.completed⟩, ?_, fun e he => ?_, hhas, rfl, fun _ => hcompleted⟩
    · rw [hmarks, run_closed hat, ← hledger i hindex]
      rfl
    · have hmem : e.body.terminal? ∈ (completeMessage b).1.map fun e => e.body.terminal? :=
        List.mem_map_of_mem he
      change e.body.terminal? ∈ [none, none, none] at hmem
      simpa using hmem

/-- The two outputs have items under the same ids, and their messages are as complete. -/
structure SameItems (record record' : ResponseRecord) : Prop where
  items : ∀ id, record'.HasItem id ↔ record.HasItem id
  started : record'.messageStarted = record.messageStarted
  completed : record'.messageCompleted = record.messageCompleted

theorem SameItems.trans {r₁ r₂ r₃ : ResponseRecord} (h : SameItems r₁ r₂) (h' : SameItems r₂ r₃) :
    SameItems r₁ r₃ where
  items := fun id => (h'.items id).trans (h.items id)
  started := h'.started.trans h.started
  completed := h'.completed.trans h.completed

/-- The terminal event brings the message item up to date once more, which changes nothing. -/
theorem InOrder.synced (h : InOrder isCall b) :
    let c := { b with record := b.record.syncMessageItem }
    InOrder isCall c ∧ c.ledger = b.ledger ∧ SameItems b.record c.record := by
  intro c
  by_cases hs : b.record.messageStarted = true
  · obtain ⟨i, hindex, hat⟩ := h.ledger_message hs
    obtain ⟨hinOrder, hstarted, hcompleted, hledger, -, hhas⟩ :=
      h.syncRecord hs b.record.outputText b.record.messageCompleted
    exact ⟨hinOrder, (hledger i hindex).trans (set_self hat), hhas, hstarted.trans hs.symm,
      hcompleted⟩
  · have hsame : c = b := by
      show { b with record := b.record.syncMessageItem } = b
      rw [ResponseRecord.syncMessageItem, if_neg hs]
    rw [hsame]
    exact ⟨h, rfl, fun _ => .rfl, rfl, rfl⟩

/-- A message that is finished stands in the terminal event as completed. -/
theorem InOrder.synced_message (h : InOrder isCall b)
    (hdone : b.record.messageStarted = true → b.record.messageCompleted = true) :
    ∀ item ∈ b.record.syncMessageItem.outputItems, item.messageText?.isSome →
      item.status = .completed := by
  intro item hmem ht
  obtain ⟨j, hj⟩ := List.getElem?_of_mem hmem
  obtain ⟨hstarted, hindex, -⟩ := h.synced.1.message j item hj ht
  have hs : b.record.messageStarted = true :=
    b.record.syncMessageItem_messageStarted.symm.trans hstarted
  obtain ⟨i, old, hi, hat, -, hidAt⟩ := h.message_at hs
  obtain ⟨hitems, -, -, -, hindexSame, -⟩ := syncMessageItem_output h.listed hs hidAt
  have hji : j = i := Option.some.inj (hindex.symm.trans (hindexSame.trans hi))
  subst hji
  rw [hitems, List.getElem?_set_self (List.getElem?_eq_some_iff.mp hat).1] at hj
  obtain rfl := Option.some.inj hj
  exact if_pos (hdone hs)

theorem InOrder.update (h : InOrder isCall b) {update : ResponseRecord → ResponseRecord}
    (hupdate : KeepsOutput update) :
    let c := { b with record := update b.record }
    InOrder isCall c ∧ c.ledger = b.ledger ∧ SameItems b.record c.record := by
  intro c
  obtain ⟨status, error, details, usage, heq⟩ := hupdate b.record
  have hc : c = { b with record := { b.record with
      status := status, error := error, incompleteDetails := details, usage := usage } } :=
    congrArg (fun record => { b with record := record }) heq
  rw [hc]
  exact ⟨⟨h.listed, h.named, h.call, h.message, h.started, h.unstarted, h.completed⟩, rfl,
    fun _ => .rfl, rfl, rfl⟩

theorem Emits.ends (h : Emits isCall S D b r) {before update : ResponseRecord → ResponseRecord}
    {body : Response → EventBody} (hbefore : KeepsOutput before) (hupdate : KeepsOutput update)
    (hbody : ∀ r, (body r).terminal? = some r) :
    Ends isCall S D b
      ((do
        let finished ← finishMessage
        setRecord (before (← getRecord))
        let ended ← terminate update body
        return r.1 ++ finished ++ [ended]) r.2) := by
  have hfinish := finishMessage_finishes h.inOrder
  obtain ⟨hbeforeOrder, hbeforeLedger, hbeforeSame⟩ := hfinish.inOrder.update hbefore
  obtain ⟨hupdateOrder, hupdateLedger, hupdateSame⟩ := hbeforeOrder.update hupdate
  obtain ⟨hsynced, hsyncedLedger, hsyncedSame⟩ := hupdateOrder.synced
  let c : ResponsesEventBuilder :=
    { (finishMessage r.2).2 with record := before (finishMessage r.2).2.record }
  have hevent : (terminate update body c).1.body =
      body (update c.record).syncMessageItem.response := rfl
  have hledger : (terminate update body c).2.ledger = (finishMessage r.2).2.ledger :=
    hsyncedLedger.trans (hupdateLedger.trans hbeforeLedger)
  have hmark : (terminate update body c).1.body.mark = .none := by
    have hterm := hbody (update c.record).syncMessageItem.response
    rw [hevent]
    cases hb : body (update c.record).syncMessageItem.response <;>
      simp_all [EventBody.terminal?, EventBody.mark]
  have hsame := hbeforeSame.trans (hupdateSame.trans hsyncedSame)
  have hitems : ∀ id, (terminate update body c).2.record.HasItem id ↔ r.2.record.HasItem id :=
    fun id => (hsame.items id).trans (hfinish.items id)
  refine
    { inOrder := ⟨hsynced.listed, hsynced.named, hsynced.call, hsynced.message, hsynced.started,
        hsynced.unstarted, hsynced.completed⟩
      marks := ?_
      items := fun id hid => (hitems id).trans (h.items id hid)
      calls := fun id => by
        show id ∈ (finishMessage r.2).2.completedMcpCalls ↔ _
        rw [hfinish.calls]
        exact h.calls id
      finished := fun hs => hsame.completed.trans (hfinish.finished (hsame.started.symm.trans hs))
      message := hupdateOrder.synced_message fun hs => (hbeforeSame.trans hupdateSame).completed.trans
        (hfinish.finished ((hbeforeSame.trans hupdateSame).started.symm.trans hs))
      last := ⟨r.1 ++ (finishMessage r.2).1, _, _, rfl, fun e he => ?_,
        (congrArg EventBody.terminal? hevent).trans (hbody _), rfl⟩
      terminal := rfl }
  · show Machine.run mark b.ledger (Adapter.marks (r.1 ++ (finishMessage r.2).1 ++
      [(terminate update body c).1])) = some (terminate update body c).2.ledger
    rw [Adapter.marks, List.map_append, List.map_append, Machine.run_append, Machine.run_append,
      hledger]
    have hr := h.marks
    have hf := hfinish.marks
    rw [Adapter.marks] at hr hf
    rw [hr, Option.bind_some, hf, Option.bind_some, List.map_singleton, hmark]
    rfl
  · exact (List.mem_append.mp he).elim (h.silent e) (hfinish.silent e)

theorem fail_ends (h : InOrder isCall b) (hopen : b.terminal = false) (message : String) :
    Ends isCall [] [] b (fail message b) := by
  unfold fail
  rw [getBuilder_bind, if_neg (by simp [hopen])]
  exact (Emits.nil h).ends (fun r => ⟨r.status, r.error, r.incompleteDetails, r.usage, rfl⟩)
    (fun r => ⟨_, _, r.incompleteDetails, r.usage, rfl⟩) (fun _ => rfl)

theorem incomplete_ends (h : InOrder isCall b) (hopen : b.terminal = false) (reason : String) :
    Ends isCall [] [] b (incomplete reason b) := by
  unfold incomplete
  rw [getBuilder_bind, if_neg (by simp [hopen])]
  exact (Emits.nil h).ends (fun r => ⟨r.status, r.error, r.incompleteDetails, r.usage, rfl⟩)
    (fun r => ⟨_, r.error, _, r.usage, rfl⟩) (fun _ => rfl)

theorem syncFinalText_emits (h : InOrder isCall b) (hopen : b.record.messageCompleted = false)
    {turn : Members} (hname : ∀ id ∈ (lastAgentMessage turn).2.bind nonempty?, ¬ isCall id) :
    Emits isCall [] [] b (syncFinalText turn b) := by
  simp only [syncFinalText]
  split_ifs
  · exact .nil h
  · exact syncCompletedMessage_emits h hopen _ hname

theorem completeTurn_ends (h : InOrder isCall b) (hopen : b.terminal = false)
    (hmessage : b.record.messageCompleted = false) (turn : Members)
    (hcalls : ∀ id ∈ callIds ((list? (turn.get "items")).getD []), isCall id)
    (hname : ∀ id ∈ (lastAgentMessage turn).2.bind nonempty?, ¬ isCall id) :
    Ends isCall (callIds ((list? (turn.get "items")).getD []))
      (callIds ((list? (turn.get "items")).getD [])) b (completeTurn turn b) := by
  have hfirst := completeMcpCalls_emits h _ hcalls
  have hsync := syncFinalText_emits hfirst.inOrder (hfirst.completed.trans hmessage) hname
  obtain ⟨update, body, hend, hupdate, hbody⟩ := endTurn_eq turn
  unfold completeTurn
  rw [getBuilder_bind, if_neg (by simp [hopen]), hend, bind_apply, bind_apply]
  have hends := (hfirst.append hsync).ends
    (fun r => ⟨r.status, r.error, r.incompleteDetails, usageFromTurn turn, rfl⟩) hupdate hbody
  simp only [List.append_nil] at hends
  exact hends

/-! ## One call of the builder -/

/-- The output items that a notification speaks of, by their ids. -/
structure ItemIds where
  /-- MCP calls that are started or completed -/
  calls : List String
  /-- MCP calls that are completed -/
  completed : List String
  /-- messages -/
  messages : List String

/-- No items. -/
def ItemIds.none : ItemIds := ⟨[], [], []⟩

/-- The items of a notification, read as `consume` reads it. -/
def itemIds (notification : Members) : ItemIds :=
  match str? (notification.get "method"), dict? (notification.get "params") with
  | some method, some params =>
    if method = "item/started" then
      match (dict? (params.get "item")).filter fun ms => hasType ms "mcpToolCall" with
      | some item => ⟨callId item, [], []⟩
      | Option.none => .none
    else if method = "item/agentMessage/delta" then ⟨[], [], (str? (params.get "itemId")).toList⟩
    else if method = "item/completed" then
      match dict? (params.get "item") with
      | some item =>
        if hasType item "agentMessage" then ⟨[], [], (agentMessage item).2.toList⟩
        else if hasType item "mcpToolCall" then ⟨callId item, callId item, []⟩
        else .none
      | Option.none => .none
    else if method = "turn/completed" then
      let turn := (dict? (params.get "turn")).getD []
      let ids := callIds ((list? (turn.get "items")).getD [])
      ⟨ids, ids, (lastAgentMessage turn).2.toList⟩
    else .none
  | _, _ => .none

/-- The methods by which the driver feeds a builder. -/
inductive BuilderCall where
  | consume (notification : Members)
  | fail (message : String)
  | incomplete (reason : String)

/-- What a call of the builder emits. -/
def BuilderCall.emit : BuilderCall → Build (List Event)
  | .consume notification => ResponsesEventBuilder.consume notification
  | .fail message => ResponsesEventBuilder.fail message
  | .incomplete reason => ResponsesEventBuilder.incomplete reason

/-- The items that a call is about. -/
def BuilderCall.itemIds : BuilderCall → ItemIds
  | .consume notification => Adapter.itemIds notification
  | _ => .none

theorem not_isCall_of_toList {itemId : Option String} (h : ∀ id ∈ itemId.toList, ¬ isCall id) :
    ∀ id ∈ itemId.bind nonempty?, ¬ isCall id := by
  intro id hid
  obtain ⟨s, rfl, hs⟩ := Option.bind_eq_some_iff.mp hid
  rw [nonempty?] at hs
  split_ifs at hs
  obtain rfl := Option.some.inj hs
  exact h s (by simp)

/-- **What one notification does to the items.** -/
theorem consume_items (h : InOrder isCall b) (hmessage : b.record.messageCompleted = false)
    (hopen : b.terminal = false) (notification : Members)
    (hcalls : ∀ id ∈ (itemIds notification).calls, isCall id)
    (hnames : ∀ id ∈ (itemIds notification).messages, ¬ isCall id) :
    Emits isCall (itemIds notification).calls (itemIds notification).completed b
        (consume notification b) ∨
      Ends isCall (itemIds notification).calls (itemIds notification).completed b
        (consume notification b) := by
  revert hcalls hnames
  unfold consume itemIds
  cases str? (notification.get "method") with
  | none => exact fun _ _ => .inl (.nil h)
  | some method =>
  cases dict? (notification.get "params") with
  | none => exact fun _ _ => .inl (.nil h)
  | some params =>
  simp only
  by_cases h1 : method = "item/started"
  · rw [if_pos h1, if_pos h1]
    unfold consumeItemStarted
    cases (dict? (params.get "item")).filter fun ms => hasType ms "mcpToolCall" with
    | none => exact fun _ _ => .inl (.nil h)
    | some item =>
      refine fun hcalls _ => .inl ?_
      simp only [callId] at hcalls ⊢
      cases hid : string? (item.get "id") with
      | none =>
        have heq : startMcpCall item = pure [] := by rw [startMcpCall, hid]
        rw [heq]
        exact .nil h
      | some id => exact startMcpCall_emits h hid (hcalls id (by simp [hid]))
  rw [if_neg h1, if_neg h1]
  by_cases h2 : method = "item/agentMessage/delta"
  · rw [if_pos h2, if_pos h2]
    intro _ hnames
    unfold consumeDelta
    cases string? (params.get "delta") with
    | none => exact .inl (.nil h)
    | some delta => exact .inl (appendText_emits h hmessage delta (not_isCall_of_toList hnames))
  rw [if_neg h2, if_neg h2]
  by_cases h3 : method = "item/completed"
  · rw [if_pos h3, if_pos h3]
    unfold consumeItemCompleted
    cases dict? (params.get "item") with
    | none => exact fun _ _ => .inl (.nil h)
    | some item =>
      simp only
      split_ifs
      · exact fun _ hnames =>
          .inl (syncCompletedMessage_emits h hmessage _ (not_isCall_of_toList hnames))
      · exact fun hcalls _ => .inl (completeMcpCall_emits h hcalls)
      · exact fun _ _ => .inl (.nil h)
  rw [if_neg h3, if_neg h3]
  by_cases h4 : method = "turn/completed"
  · rw [if_pos h4, if_pos h4]
    exact fun hcalls hnames =>
      .inr (completeTurn_ends h hopen hmessage _ hcalls (not_isCall_of_toList hnames))
  rw [if_neg h4, if_neg h4]
  intro _ _
  split_ifs
  · unfold consumeError
    split_ifs
    · exact .inl (.nil h)
    · exact .inr (fail_ends h hopen _)
  · exact .inl (.nil h)

theorem emit_items (h : InOrder isCall b) (hmessage : b.record.messageCompleted = false)
    (hopen : b.terminal = false) (call : BuilderCall)
    (hcalls : ∀ id ∈ call.itemIds.calls, isCall id)
    (hnames : ∀ id ∈ call.itemIds.messages, ¬ isCall id) :
    Emits isCall call.itemIds.calls call.itemIds.completed b (call.emit b) ∨
      Ends isCall call.itemIds.calls call.itemIds.completed b (call.emit b) := by
  cases call with
  | consume notification => exact consume_items h hmessage hopen notification hcalls hnames
  | fail message => exact .inr (fail_ends h hopen message)
  | incomplete reason => exact .inr (incomplete_ends h hopen reason)

/-! ## A run -/

/-- One call; the driver makes none after the terminal event. -/
def feed (r : List Event × ResponsesEventBuilder) (call : BuilderCall) :
    List Event × ResponsesEventBuilder :=
  if r.2.terminal then r else (r.1 ++ (call.emit r.2).1, (call.emit r.2).2)

/-- What a fresh builder emits. -/
def stream (record : ResponseRecord) (calls : List BuilderCall) :
    List Event × ResponsesEventBuilder := calls.foldl feed ([], .init record)

theorem inOrder_create (fresh : Fresh) (request : CreateResponseRequest) (inputItems : List Members)
    (mcpAppsBaseUrl : String) (hname : ¬ isCall fresh.messageId) :
    InOrder isCall (.init (.create fresh request inputItems mcpAppsBaseUrl)) where
  listed := fun _ _ => by simp [init, ResponseRecord.create, ResponseRecord.outputIndex,
    ResponseRecord.idAt]
  named := hname
  call := fun _ h => by simp [init, ResponseRecord.create] at h
  message := fun _ _ h => by simp [init, ResponseRecord.create] at h
  started := fun h => by simp [init, ResponseRecord.create] at h
  unstarted := fun _ => rfl
  completed := fun _ h => by simp [init] at h

theorem stream_concat (record : ResponseRecord) (calls : List BuilderCall) (call : BuilderCall) :
    stream record (calls ++ [call]) = feed (stream record calls) call := List.foldl_concat ..

/-- **What a run emits before its terminal event.** -/
theorem stream_emits {record : ResponseRecord} (h : InOrder isCall (.init record))
    (hcompleted : record.messageCompleted = false) {calls : List BuilderCall}
    (hcalls : ∀ id ∈ calls.flatMap (·.itemIds.calls), isCall id)
    (hnames : ∀ id ∈ calls.flatMap (·.itemIds.messages), ¬ isCall id)
    (hopen : (stream record calls).2.terminal = false) :
    Emits isCall (calls.flatMap (·.itemIds.calls)) (calls.flatMap (·.itemIds.completed))
      (.init record) (stream record calls) := by
  induction calls using List.reverseRecOn with
  | nil => exact .nil h
  | append_singleton calls call ih =>
    rw [stream_concat, feed] at hopen
    rw [List.flatMap_append, List.flatMap_singleton] at hcalls hnames
    by_cases hterm : (stream record calls).2.terminal = true
    · rw [if_pos hterm, hterm] at hopen
      cases hopen
    · rw [if_neg hterm] at hopen
      rw [Bool.not_eq_true] at hterm
      have hrun := ih (fun id hid => hcalls id (List.mem_append_left _ hid))
        (fun id hid => hnames id (List.mem_append_left _ hid)) hterm
      rw [stream_concat, feed, if_neg (by simp [hterm]), List.flatMap_append, List.flatMap_append,
        List.flatMap_singleton, List.flatMap_singleton]
      rcases emit_items hrun.inOrder (hrun.completed.trans hcompleted) hterm call
        (fun id hid => hcalls id (List.mem_append_right _ hid))
        (fun id hid => hnames id (List.mem_append_right _ hid)) with hemit | hemit
      · exact hrun.append hemit
      · rw [hemit.terminal] at hopen
        cases hopen

/-- What a run emits that ends with its terminal event. -/
theorem Emits.thenEnds {S' D' : List String} {r' : List Event × ResponsesEventBuilder}
    (h : Emits isCall S D b r) (h' : Ends isCall S' D' r.2 r') :
    Ends isCall (S ++ S') (D ++ D') b (r.1 ++ r'.1, r'.2) := by
  obtain ⟨es, e, response, hsplit, hsilent, hterm, houtput⟩ := h'.last
  refine
    { inOrder := h'.inOrder
      marks := ?_
      items := fun id hid => by rw [h'.items id hid, h.items id hid, List.mem_append, or_assoc]
      calls := fun id => by rw [h'.calls id, h.calls id, List.mem_append, or_assoc]
      finished := h'.finished
      message := h'.message
      last := ⟨r.1 ++ es, e, response, ?_, fun e he => ?_, hterm, houtput⟩
      terminal := h'.terminal }
  · rw [Adapter.marks, List.map_append, Machine.run_append]
    exact (congrArg (Option.bind · _) h.marks).trans h'.marks
  · rw [hsplit, List.append_assoc]
  · exact (List.mem_append.mp he).elim (h.silent e) (hsilent e)

/-- **What a run emits up to its terminal event.** -/
theorem stream_ends {record : ResponseRecord} (h : InOrder isCall (.init record))
    (hcompleted : record.messageCompleted = false) {calls : List BuilderCall} {call : BuilderCall}
    (hcalls : ∀ id ∈ (calls ++ [call]).flatMap (·.itemIds.calls), isCall id)
    (hnames : ∀ id ∈ (calls ++ [call]).flatMap (·.itemIds.messages), ¬ isCall id)
    (hopen : (stream record calls).2.terminal = false)
    (hterm : (stream record (calls ++ [call])).2.terminal = true) :
    Ends isCall ((calls ++ [call]).flatMap (·.itemIds.calls))
      ((calls ++ [call]).flatMap (·.itemIds.completed)) (.init record)
      (stream record (calls ++ [call])) := by
  rw [List.flatMap_append, List.flatMap_singleton] at hcalls hnames
  have hrun := stream_emits h hcompleted (fun id hid => hcalls id (List.mem_append_left _ hid))
    (fun id hid => hnames id (List.mem_append_left _ hid)) hopen
  rw [stream_concat, feed, if_neg (by simp [hopen])] at hterm ⊢
  rw [List.flatMap_append, List.flatMap_append, List.flatMap_singleton, List.flatMap_singleton]
  rcases emit_items hrun.inOrder (hrun.completed.trans hcompleted) hopen call
    (fun id hid => hcalls id (List.mem_append_right _ hid))
    (fun id hid => hnames id (List.mem_append_right _ hid)) with hemit | hemit
  · rw [hemit.terminal, hopen] at hterm
    cases hterm
  · exact hrun.thenEnds hemit

end Grammar

/-- **A well-formed Responses stream**, up to its terminal event. -/
structure WellFormedStream (events : List Event) : Prop where
  items : WellFormed (marks events)
  last : ∃ es e response, events = es ++ [e] ∧ (∀ e ∈ es, e.body.terminal? = none) ∧
    e.body.terminal? = some response ∧ ∀ item ∈ response.output, item.status ≠ .inProgress

/-- No message bears the id of an MCP call. -/
def DistinctIds (fresh : Fresh) (calls : List BuilderCall) : Prop :=
  ∀ id ∈ fresh.messageId.val :: calls.flatMap (·.itemIds.messages),
    id ∉ calls.flatMap (·.itemIds.calls)

instance (fresh : Fresh) (calls : List BuilderCall) : Decidable (DistinctIds fresh calls) :=
  inferInstanceAs (Decidable (∀ id ∈ _, id ∉ _))

/-- The ledger of a builder whose message is finished says which calls are completed. -/
theorem Ends.closed {S D : List String} {isCall : String → Prop} {b : ResponsesEventBuilder}
    {r : List Event × ResponsesEventBuilder} (h : Ends isCall S D b r) :
    (∀ i < r.2.ledger.length, r.2.ledger[i]? = some true) ↔
      ∀ id, isCall id → r.2.record.HasItem id → id ∈ r.2.completedMcpCalls := by
  constructor
  · rintro hall id hid ⟨i, hi⟩
    obtain ⟨call, hcall, rfl⟩ := h.inOrder.call_at hid hi
    have hlt := (List.getElem?_eq_some_iff.mp hcall).1
    have hclosed := hall i (by rwa [ledger_length])
    rw [ledger, List.getElem?_map, hcall] at hclosed
    simpa [isClosed] using hclosed
  · intro hall i hi
    rw [ledger_length] at hi
    have hitem := List.getElem?_eq_getElem hi
    rw [ledger, List.getElem?_map, hitem, Option.map_some, Option.some.injEq]
    cases hkind : r.2.record.outputItems[i] with
    | message id status text =>
      rw [hkind] at hitem
      exact h.finished (h.inOrder.message i _ hitem rfl).1
    | mcpCall call =>
      rw [hkind] at hitem
      have hisCall := (h.inOrder.call call (List.mem_of_getElem? hitem)).1
      have hhas : r.2.record.HasItem call.id.val := ⟨i, by rw [ResponseRecord.idAt, hitem]; rfl⟩
      simpa [isClosed] using hall call.id hisCall hhas

/-- **A stream is well formed exactly when every MCP call that was started has been completed.** -/
theorem wellFormedStream_iff (fresh : Fresh) (request : CreateResponseRequest)
    (inputItems : List Members) (mcpAppsBaseUrl : String) (calls : List BuilderCall)
    (call : BuilderCall) (hdistinct : DistinctIds fresh (calls ++ [call]))
    (hopen : (stream (.create fresh request inputItems mcpAppsBaseUrl) calls).2.terminal = false)
    (hterm : (stream (.create fresh request inputItems mcpAppsBaseUrl)
      (calls ++ [call])).2.terminal = true) :
    WellFormedStream (stream (.create fresh request inputItems mcpAppsBaseUrl)
        (calls ++ [call])).1 ↔
      ∀ id ∈ (calls ++ [call]).flatMap (·.itemIds.calls),
        id ∈ (calls ++ [call]).flatMap (·.itemIds.completed) := by
  let isCall : String → Prop := fun id => id ∈ (calls ++ [call]).flatMap (·.itemIds.calls)
  have hinit : InOrder isCall (.init (.create fresh request inputItems mcpAppsBaseUrl)) :=
    inOrder_create fresh request inputItems mcpAppsBaseUrl (hdistinct _ List.mem_cons_self)
  have hall := stream_ends hinit rfl (fun _ hid => hid)
    (fun id hid => hdistinct id (List.mem_cons_of_mem _ hid)) hopen hterm
  have hnone : ∀ id, ¬ (init (ResponseRecord.create fresh request inputItems
      mcpAppsBaseUrl)).record.HasItem id := fun id ⟨i, hi⟩ => by
    simp [init, ResponseRecord.create, ResponseRecord.idAt] at hi
  have hcompleted : ∀ id, id ∉ (init (ResponseRecord.create fresh request inputItems
      mcpAppsBaseUrl)).completedMcpCalls := fun _ h => by cases h
  have hmarks : Machine.run mark [] _ = some _ := hall.marks
  generalize stream (ResponseRecord.create fresh request inputItems mcpAppsBaseUrl)
    (calls ++ [call]) = r at hall hmarks ⊢
  have hids : (∀ id, isCall id → r.2.record.HasItem id → id ∈ r.2.completedMcpCalls) ↔
      ∀ id ∈ (calls ++ [call]).flatMap (·.itemIds.calls),
        id ∈ (calls ++ [call]).flatMap (·.itemIds.completed) := by
    refine forall_congr' fun id => forall_congr' fun hid => ?_
    rw [hall.calls]
    have hhas := (hall.items id hid).mpr (.inr hid)
    exact ⟨fun h => (h hhas).resolve_left (hcompleted id), fun h _ => .inr h⟩
  rw [← hids, ← hall.closed, ← wellFormed_iff hmarks]
  refine ⟨WellFormedStream.items, fun hitems => ⟨hitems, ?_⟩⟩
  obtain ⟨es, e, response, hsplit, hsilent, hlast, houtput⟩ := hall.last
  refine ⟨es, e, response, hsplit, hsilent, hlast, fun item hmem => ?_⟩
  rw [houtput] at hmem
  cases item with
  | message id status text =>
    rw [hall.message _ hmem rfl]
    simp
  | mcpCall mcp =>
    have hclosed := hall.closed.mp ((wellFormed_iff hmarks).mp hitems)
    obtain ⟨hid, hended⟩ := hall.inOrder.call mcp hmem
    obtain ⟨i, hi⟩ := List.getElem?_of_mem hmem
    exact hended (hclosed mcp.id hid ⟨i, by rw [ResponseRecord.idAt, hi]; rfl⟩)

/-- `item/started` and `item/completed` of an MCP call. -/
def mcpCall (method id : String) : BuilderCall :=
  .consume [("method", .str method), ("params", .obj [("item", .obj
    [("id", .str id), ("type", .str "mcpToolCall"), ("server", .str "s"), ("tool", .str "t")])])]

/-- A call that is started and completed. -/
theorem wellFormedStream_completed : WellFormedStream (stream sampleRecord
    ([mcpCall "item/started" "c1", mcpCall "item/completed" "c1"] ++ [.consume turnCompleted])).1 :=
  (wellFormedStream_iff _ _ _ _ _ _ (by decide +kernel) (by decide +kernel) (by decide +kernel)).mpr
    (by decide +kernel)

/-- A turn that ends while a call is under way: the call gets no last event. -/
theorem not_wellFormedStream_started : ¬ ∀ (fresh : Fresh) (request : CreateResponseRequest)
    (inputItems : List Members) (mcpAppsBaseUrl : String) (calls : List BuilderCall)
    (call : BuilderCall), DistinctIds fresh (calls ++ [call]) →
    (stream (.create fresh request inputItems mcpAppsBaseUrl) calls).2.terminal = false →
    (stream (.create fresh request inputItems mcpAppsBaseUrl) (calls ++ [call])).2.terminal = true →
      WellFormedStream (stream (.create fresh request inputItems mcpAppsBaseUrl)
        (calls ++ [call])).1 := by
  intro h
  have hwell := h ⟨"resp_1", ⟨"msg_1", by decide⟩, 0⟩
    ⟨"gpt", none, none, true, none, none, none, none⟩ [] "" [mcpCall "item/started" "c1"]
    (.consume turnCompleted) (by decide +kernel) (by decide +kernel) (by decide +kernel)
  have hclosed := hwell.items.closed 0
  exact absurd hclosed (by decide +kernel)

end CodexGateway.Adapter
