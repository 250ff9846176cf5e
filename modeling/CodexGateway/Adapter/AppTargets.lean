import CodexGateway.Adapter.OutputItems
import CodexGateway.Adapter.Driver

/-!
# Adapter/AppTargets — where the App targets of a Response come from

An MCP call belongs to an App when the app server names a resource with it, and then `_mcp_meta`
writes the call's target, whether the call has one or not.  `appSources` are the calls of a
notification that the builder looks at: a call is looked at when it starts and when it completes,
once each.  Every target, and every event that tells of an App, comes from one of them
(`consume_sourced`).
-/

namespace CodexGateway.Adapter

open PyJson ResponsesEventBuilder
open Driver (sideCall)

/-! ## The sources of a notification -/

/-- The connector an MCP call names. -/
def appConnector (source : Members) : Option String :=
  (string? (Members.get ((dict? (source.get "appContext")).getD []) "connectorId")).map Subtype.val

/-- The resource an MCP call names. -/
def appResource (source : Members) : Option NonemptyString :=
  (string? (Members.get ((dict? (source.get "appContext")).getD []) "resourceUri")).or
    ((string? (source.get "mcpAppResourceUri")).or (resourceUriFromResult (source.get "result")))

/-- `_start_mcp_call` looks at a call that has no item yet. -/
def startSources (record : ResponseRecord) (source : Members) : List Members :=
  match string? (source.get "id") with
  | some callId => if (record.outputIndex callId).isSome then [] else [source]
  | none => []

/-- `_complete_mcp_call` looks at a call that it has not completed. -/
def completeSources (completed : List String) (source : Members) : List Members :=
  match string? (source.get "id") with
  | some callId => if callId.val ∈ completed then [] else [source]
  | none => []

/-- The calls that are completed afterwards. -/
def completedAfter (completed : List String) (source : Members) : List String :=
  match string? (source.get "id") with
  | some callId => if callId.val ∈ completed then completed else callId.val :: completed
  | none => completed

/-- The calls of a turn whose items are replayed. -/
def turnSources (completed : List String) : List Json → List Members
  | [] => []
  | item :: items =>
    match (dict? item).filter fun ms => hasType ms "mcpToolCall" with
    | some source =>
      completeSources completed source ++ turnSources (completedAfter completed source) items
    | none => turnSources completed items

/-- The call of an item that has started. -/
def itemStartedSources (record : ResponseRecord) (params : Members) : List Members :=
  match (dict? (params.get "item")).filter fun ms => hasType ms "mcpToolCall" with
  | some item => startSources record item
  | none => []

/-- The call of an item that is completed. -/
def itemCompletedSources (completed : List String) (params : Members) : List Members :=
  match dict? (params.get "item") with
  | none => []
  | some item =>
    if hasType item "agentMessage" then []
    else if hasType item "mcpToolCall" then completeSources completed item
    else []

/-- The calls of a turn that is completed. -/
def turnCompletedSources (b : ResponsesEventBuilder) (turn : Members) : List Members :=
  if b.terminal then []
  else turnSources b.completedMcpCalls ((list? (turn.get "items")).getD [])

/-- The calls of a notification that the builder looks at. -/
def appSources (b : ResponsesEventBuilder) (notification : Members) : List Members :=
  match str? (notification.get "method"), dict? (notification.get "params") with
  | some method, some params =>
    if method = "item/started" then itemStartedSources b.record params
    else if method = "item/completed" then itemCompletedSources b.completedMcpCalls params
    else if method = "turn/completed" then
      turnCompletedSources b ((dict? (params.get "turn")).getD [])
    else []
  | _, _ => []

/-- The descriptor `_mcp_meta` makes of a call. -/
structure Describes (source : Members) (descriptor : McpAppDescriptor) : Prop where
  callId : (string? (source.get "id")).map Subtype.val = some descriptor.callId
  connectorId : descriptor.connectorId = appConnector source
  resource : (appResource source).map Subtype.val = some descriptor.resourceUri

/-! ## The sources have ids of their own -/

/-- A call that is completed has an id, and was not completed before. -/
theorem mem_completeSources {completed : List String} {source s : Members}
    (h : s ∈ completeSources completed source) :
    s = source ∧ ∃ callId, string? (source.get "id") = some callId ∧ callId.val ∉ completed := by
  unfold completeSources at h
  split at h
  · rename_i callId hid
    split_ifs at h with hmem
    · exact absurd h List.not_mem_nil
    · exact ⟨List.mem_singleton.mp h, callId, hid, hmem⟩
  · exact absurd h List.not_mem_nil

/-- A call that starts is the source itself. -/
theorem mem_startSources {record : ResponseRecord} {source s : Members}
    (h : s ∈ startSources record source) : s ∈ [source] := by
  unfold startSources at h
  split at h
  · split_ifs at h
    · exact absurd h List.not_mem_nil
    · exact h
  · exact absurd h List.not_mem_nil

/-- The calls that are completed afterwards: those of before, and this one. -/
theorem mem_completedAfter {completed : List String} {source : Members} {id : String} :
    id ∈ completedAfter completed source ↔
      id ∈ completed ∨ (string? (source.get "id")).map Subtype.val = some id := by
  unfold completedAfter
  cases string? (source.get "id") with
  | none => simp
  | some callId =>
    dsimp only
    split_ifs with hmem
    · refine ⟨.inl, ?_⟩
      rintro (h | heq)
      · exact h
      · exact Option.some.inj heq ▸ hmem
    · rw [List.mem_cons, or_comm, Option.map_some, Option.some.injEq, eq_comm]

/-- A call that is completed is not looked at. -/
theorem turnSources_fresh {items : List Json} {completed : List String} {s : Members}
    (h : s ∈ turnSources completed items) :
    ∃ callId, string? (s.get "id") = some callId ∧ callId.val ∉ completed := by
  induction items generalizing completed with
  | nil => exact absurd h List.not_mem_nil
  | cons item items ih =>
    unfold turnSources at h
    split at h
    · rcases List.mem_append.mp h with h | h
      · obtain ⟨rfl, hid⟩ := mem_completeSources h
        exact hid
      · obtain ⟨callId, hid, hmem⟩ := ih h
        exact ⟨callId, hid, fun hold => hmem (mem_completedAfter.mpr (.inl hold))⟩
    · exact ih h

/-- No two sources are of one call. -/
def UniqueIds (sources : List Members) : Prop :=
  ∀ s ∈ sources, ∀ s' ∈ sources, string? (s.get "id") = string? (s'.get "id") → s = s'

/-- No sources have different ids. -/
theorem uniqueIds_nil : UniqueIds [] := fun _ h => absurd h List.not_mem_nil

/-- One source has one id. -/
theorem uniqueIds_singleton (source : Members) : UniqueIds [source] := fun _ h _ h' _ =>
  (List.mem_singleton.mp h).trans (List.mem_singleton.mp h').symm

/-- The sources of a start have different ids. -/
theorem uniqueIds_startSources (record : ResponseRecord) (source : Members) :
    UniqueIds (startSources record source) := by
  unfold startSources
  split
  · split_ifs
    · exact uniqueIds_nil
    · exact uniqueIds_singleton source
  · exact uniqueIds_nil

/-- The sources of an end have different ids. -/
theorem uniqueIds_completeSources (completed : List String) (source : Members) :
    UniqueIds (completeSources completed source) := by
  unfold completeSources
  split
  · split_ifs
    · exact uniqueIds_nil
    · exact uniqueIds_singleton source
  · exact uniqueIds_nil

/-- The sources of a turn have different ids, as what is completed is left out. -/
theorem uniqueIds_turnSources (completed : List String) (items : List Json) :
    UniqueIds (turnSources completed items) := by
  induction items generalizing completed with
  | nil => exact uniqueIds_nil
  | cons item items ih =>
    unfold turnSources
    split
    · rename_i source hitem
      have hlater {u v : Members} (hu : u ∈ completeSources completed source)
          (hv : v ∈ turnSources (completedAfter completed source) items) :
          string? (u.get "id") ≠ string? (v.get "id") := fun heq => by
        obtain ⟨rfl, -⟩ := mem_completeSources hu
        obtain ⟨callId, hcall, hmem⟩ := turnSources_fresh hv
        exact hmem (mem_completedAfter.mpr (.inr (by rw [heq, hcall]; rfl)))
      intro s h s' h' hid
      rcases List.mem_append.mp h with h | h
      · rcases List.mem_append.mp h' with h' | h'
        · exact (mem_completeSources h).1.trans (mem_completeSources h').1.symm
        · exact absurd hid (hlater h h')
      · rcases List.mem_append.mp h' with h' | h'
        · exact absurd hid.symm (hlater h' h)
        · exact ih _ s h s' h' hid
    · exact ih completed

/-- **Among the calls that are looked at, each id is there once.** -/
theorem uniqueIds_appSources (b : ResponsesEventBuilder) (notification : Members) :
    UniqueIds (appSources b notification) := by
  unfold appSources
  split
  · split_ifs
    · unfold itemStartedSources
      split
      · exact uniqueIds_startSources _ _
      · exact uniqueIds_nil
    · unfold itemCompletedSources
      split
      · exact uniqueIds_nil
      · split_ifs
        · exact uniqueIds_nil
        · exact uniqueIds_completeSources _ _
        · exact uniqueIds_nil
    · unfold turnCompletedSources
      split_ifs
      · exact uniqueIds_nil
      · exact uniqueIds_turnSources _ _
    · exact uniqueIds_nil
  · exact uniqueIds_nil

/-! ## What a method does to the targets -/

/-- A place that is replaced is read, the others as before. -/
theorem lookup_replace {α : Type} (xs : List (String × α)) (callId id : String) (target : α) :
    (xs.map fun p => if p.1 = callId then (callId, target) else p).lookup id =
      if id = callId then (xs.lookup id).map fun _ => target else xs.lookup id := by
  induction xs with
  | nil => simp
  | cons p xs ih =>
    obtain ⟨k, old⟩ := p
    rw [List.map_cons]
    by_cases hk : k = callId
    · subst hk
      rw [if_pos rfl]
      by_cases hid : id = k
      · simp [hid]
      · have hbeq : (id == k) = false := by simpa using hid
        simp only [List.lookup_cons, hbeq, ih, if_neg hid]
    · rw [if_neg hk]
      cases hbeq : id == k with
      | false => simp only [List.lookup_cons, hbeq, ih]
      | true =>
        have hid : id ≠ callId := (beq_iff_eq.mp hbeq) ▸ hk
        simp [List.lookup_cons, hbeq, hid]

/-- A key of the list has a value. -/
theorem isSome_lookup {α : Type} {xs : List (String × α)} {id : String}
    (h : id ∈ xs.map Prod.fst) : (xs.lookup id).isSome := by
  induction xs with
  | nil => exact absurd h List.not_mem_nil
  | cons p xs ih =>
    rw [List.lookup_cons]
    cases hbeq : id == p.1 with
    | true => rfl
    | false =>
      rcases List.mem_cons.mp h with rfl | h
      · simp at hbeq
      · exact ih h

/-- **The target of a call is the last that was registered for it.** -/
theorem lookup_registerMcpAppTarget (record : ResponseRecord) (callId id : String)
    (target : McpAppDescriptor) :
    (record.registerMcpAppTarget callId target).mcpAppTargets.lookup id =
      if id = callId then some target else record.mcpAppTargets.lookup id := by
  unfold ResponseRecord.registerMcpAppTarget
  dsimp only
  split_ifs with hmem hid hid
  · obtain ⟨old, hold⟩ := Option.isSome_iff_exists.mp (isSome_lookup hmem)
    rw [lookup_replace, if_pos hid, hid, hold, Option.map_some]
  · rw [lookup_replace, if_neg hid]
  · have hnone : record.mcpAppTargets.lookup callId = none :=
      List.lookup_eq_none_iff.mpr fun p hp => by
        simpa using fun heq : callId = p.1 => hmem (heq ▸ List.mem_map_of_mem hp)
    rw [List.lookup_append, hid, hnone, Option.none_or]
    simp
  · have hbeq : (id == callId) = false := by simpa using hid
    rw [List.lookup_append]
    simp [List.lookup_cons, hbeq]

/-- The targets and the Apps of the events come from the record or from the sources. -/
structure Sourced (sources : List Members) (b : ResponsesEventBuilder)
    (r : List Event × ResponsesEventBuilder) : Prop where
  id : r.2.record.id = b.record.id
  targets : ∀ callId target, r.2.record.mcpAppTargets.lookup callId = some target →
    b.record.mcpAppTargets.lookup callId = some target ∨
      target.callId = callId ∧ ∃ source ∈ sources, Describes source target
  events : ∀ e ∈ r.1, ∀ x, sideCall e = some x → ∃ source ∈ sources, Describes source x.2.2

variable {sources sources' : List Members} {b : ResponsesEventBuilder}
  {r r' : List Event × ResponsesEventBuilder}

/-- What two steps emit comes from the sources of both. -/
theorem Sourced.append (h : Sourced sources b r) (h' : Sourced sources' r.2 r') :
    Sourced (sources ++ sources') b (r.1 ++ r'.1, r'.2) := by
  have hleft {p : Members → Prop} (hp : ∃ source ∈ sources, p source) :
      ∃ source ∈ sources ++ sources', p source :=
    hp.imp fun _ hs => ⟨List.mem_append_left _ hs.1, hs.2⟩
  have hright {p : Members → Prop} (hp : ∃ source ∈ sources', p source) :
      ∃ source ∈ sources ++ sources', p source :=
    hp.imp fun _ hs => ⟨List.mem_append_right _ hs.1, hs.2⟩
  refine ⟨h'.id.trans h.id, fun callId target htarget => ?_, fun e he x hx => ?_⟩
  · rcases h'.targets callId target htarget with hmiddle | ⟨hid, hsource⟩
    · exact (h.targets callId target hmiddle).imp_right fun hs => ⟨hs.1, hleft hs.2⟩
    · exact .inr ⟨hid, hright hsource⟩
  · rcases List.mem_append.mp he with he | he
    · exact hleft (h.events e he x hx)
    · exact hright (h'.events e he x hx)

/-- The targets are the same, and no event tells of an App. -/
theorem sourced_of_same (hid : r.2.record.id = b.record.id)
    (htargets : r.2.record.mcpAppTargets = b.record.mcpAppTargets)
    (hevents : ∀ e ∈ r.1, sideCall e = none) : Sourced [] b r :=
  ⟨hid, fun callId target h => .inl (htargets ▸ h), fun e he x hx => by
    rw [hevents e he] at hx
    cases hx⟩

/-- Doing nothing has no source. -/
theorem Sourced.nil (b : ResponsesEventBuilder) : Sourced [] b ([], b) :=
  ⟨rfl, fun _ _ h => .inl h, fun _ h => absurd h List.not_mem_nil⟩

/-! ## The MCP calls -/

/-- The scope of an item has the App that was registered, or none. -/
theorem mcpMeta_cases (record : ResponseRecord) (source : Members) (callId server tool : String) :
    ((mcpMeta record source callId server tool).1 = record ∧
      (mcpMeta record source callId server tool).2.bind (·.mcpApp) = none) ∨
    ∃ descriptor, descriptor.callId = callId ∧ descriptor.connectorId = appConnector source ∧
      (appResource source).map Subtype.val = some descriptor.resourceUri ∧
      (mcpMeta record source callId server tool).1 =
        record.registerMcpAppTarget callId descriptor ∧
      (mcpMeta record source callId server tool).2.bind (·.mcpApp) = some descriptor := by
  simp only [mcpMeta]
  split
  · refine .inl ⟨rfl, ?_⟩
    split_ifs <;> rfl
  · rename_i uri huri
    refine .inr ⟨_, rfl, rfl, ?_, rfl, rfl⟩
    exact congrArg (Option.map Subtype.val) huri

/-- A result does not change the App. -/
theorem addMcpResult_mcpApp (itemMeta : Option McpMeta) (result : Json) :
    (addMcpResult itemMeta result).bind (·.mcpApp) = itemMeta.bind (·.mcpApp) := by
  unfold addMcpResult
  split
  · cases itemMeta <;> rfl
  · rfl

/-- What `_mcp_call_item` does with a call that has an id: it says no App, and the record is the
same, or the App it says is the call's target. -/
theorem mcpCallItem_app {source : Members} {callId : NonemptyString}
    (hid : string? (source.get "id") = some callId) (completed : Bool) (b : ResponsesEventBuilder) :
    ((mcpCallItem source completed b).2 = b ∧
      (mcpCallItem source completed b).1.itemMeta.bind (·.mcpApp) = none) ∨
    ∃ descriptor, Describes source descriptor ∧
      (mcpCallItem source completed b).2 =
        { b with record := b.record.registerMcpAppTarget callId descriptor } ∧
      (mcpCallItem source completed b).1.itemMeta.bind (·.mcpApp) = some descriptor := by
  let server := ((string? (source.get "server")).map Subtype.val).getD "unknown"
  let tool := ((string? (source.get "tool")).map Subtype.val).getD "unknown"
  have hrecord : (mcpCallItem source completed b).2 =
      { b with record := (mcpMeta b.record source callId server tool).1 } := by
    simp only [mcpCallItem, hid]
    rfl
  have hmeta : (mcpCallItem source completed b).1.itemMeta =
      addMcpResult (mcpMeta b.record source callId server tool).2 (source.get "result") := by
    simp only [mcpCallItem, hid]
    rfl
  rw [hrecord, hmeta, addMcpResult_mcpApp]
  rcases mcpMeta_cases b.record source callId server tool with ⟨hsame, hnone⟩ |
      ⟨descriptor, hcall, hconnector, hresource, hregister, hsome⟩
  · exact .inl ⟨by rw [hsame], hnone⟩
  · refine .inr ⟨descriptor, ⟨?_, hconnector, hresource⟩, by rw [hregister], hsome⟩
    rw [hid, hcall]
    rfl

/-- The App of an event, through the `_meta` of its call. -/
theorem sideCall_eq_some {e : Event} {x : McpCallItem × McpMeta × McpAppDescriptor}
    (h : sideCall e = some x) : x.1.itemMeta = some x.2.1 ∧ x.2.1.mcpApp = some x.2.2 ∧ ∃ i,
      e.body = .outputItemAdded i (.mcpCall x.1) ∨ e.body = .outputItemDone i (.mcpCall x.1) := by
  have happ (call : McpCallItem) (h : (do
      let itemMeta ← call.itemMeta
      return (call, itemMeta, ← itemMeta.mcpApp) : Option _) = some x) :
      x.1 = call ∧ x.1.itemMeta = some x.2.1 ∧ x.2.1.mcpApp = some x.2.2 := by
    obtain ⟨itemMeta, hmeta, hrest⟩ := Option.bind_eq_some_iff.mp h
    obtain ⟨descriptor, happ, hx⟩ := Option.bind_eq_some_iff.mp hrest
    obtain rfl := Option.some.inj hx
    exact ⟨rfl, hmeta, happ⟩
  unfold sideCall at h
  split at h
  · rename_i i call hbody
    obtain ⟨rfl, hmeta, hdescriptor⟩ := happ call h
    exact ⟨hmeta, hdescriptor, i, .inl hbody⟩
  · rename_i i call hbody
    obtain ⟨rfl, hmeta, hdescriptor⟩ := happ call h
    exact ⟨hmeta, hdescriptor, i, .inr hbody⟩
  · cases h

/-- The call beside an item's event has the App of the item. -/
theorem sideCall_call {e : Event} {x : McpCallItem × McpMeta × McpAppDescriptor}
    (h : sideCall e = some x) : x.1.itemMeta.bind (·.mcpApp) = some x.2.2 ∧ ∃ i,
      e.body = .outputItemAdded i (.mcpCall x.1) ∨ e.body = .outputItemDone i (.mcpCall x.1) := by
  obtain ⟨hmeta, happ, hbody⟩ := sideCall_eq_some h
  exact ⟨by rw [hmeta]; exact happ, hbody⟩

/-- The events of a call that starts tell of its item alone. -/
theorem sideCall_started {n i : ℕ} {callId arguments : String} {call : McpCallItem} {e : Event}
    {x : McpCallItem × McpMeta × McpAppDescriptor}
    (he : e ∈ [⟨n, .outputItemAdded i (.mcpCall call)⟩,
      ⟨n + 1, .mcpCallArgumentsDone callId i arguments⟩, ⟨n + 2, .mcpCallInProgress callId i⟩])
    (hx : sideCall e = some x) : x.1 = call := by
  obtain ⟨-, j, hbody⟩ := sideCall_call hx
  simp only [List.mem_cons, List.not_mem_nil, or_false] at he
  rcases he with rfl | rfl | rfl
  · rcases hbody with hbody | hbody
    · injection hbody with _ hcall
      injection hcall with hcall
      exact hcall.symm
    · cases hbody
  · simp at hbody
  · simp at hbody

/-- …and so do those of a call that completes. -/
theorem sideCall_ended {n i : ℕ} {callId : String} {call : McpCallItem} {e : Event}
    {x : McpCallItem × McpMeta × McpAppDescriptor}
    (he : e ∈ [⟨n, if call.status = .failed then .mcpCallFailed callId i
      else .mcpCallCompleted callId i⟩, ⟨n + 1, .outputItemDone i (.mcpCall call)⟩])
    (hx : sideCall e = some x) : x.1 = call := by
  obtain ⟨-, j, hbody⟩ := sideCall_call hx
  simp only [List.mem_cons, List.not_mem_nil, or_false] at he
  rcases he with rfl | rfl
  · dsimp only at hbody
    split_ifs at hbody <;> simp at hbody
  · rcases hbody with hbody | hbody
    · cases hbody
    · injection hbody with _ hcall
      injection hcall with hcall
      exact hcall.symm

/-- An item is put into the output; the targets stay. -/
theorem addOutputItem_targets (record : ResponseRecord) (item : OutputItem) :
    (record.addOutputItem item).1.mcpAppTargets = record.mcpAppTargets ∧
      (record.addOutputItem item).1.id = record.id := by
  cases hi : record.outputIndex item.id with
  | some i =>
    rw [ResponseRecord.addOutputItem_of_some hi]
    exact ⟨rfl, rfl⟩
  | none =>
    rw [ResponseRecord.addOutputItem_of_none hi]
    exact ⟨rfl, rfl⟩

/-- A call is looked at: its item goes into the output, and the events of that tell of it alone. -/
theorem sourced_item {source : Members} {callId : NonemptyString}
    (hid : string? (source.get "id") = some callId) (completed : Bool) {events : List Event}
    {b c : ResponsesEventBuilder}
    (hrecord : c.record = ((mcpCallItem source completed b).2.record.addOutputItem
      (.mcpCall (mcpCallItem source completed b).1)).1)
    (hevents : ∀ e ∈ events, ∀ x, sideCall e = some x → x.1 = (mcpCallItem source completed b).1) :
    Sourced [source] b (events, c) := by
  obtain ⟨htargets, hrid⟩ := addOutputItem_targets (mcpCallItem source completed b).2.record
    (.mcpCall (mcpCallItem source completed b).1)
  have happ := mcpCallItem_app hid completed b
  refine ⟨?_, fun callId' target h => ?_, fun e he x hx => ?_⟩
  · rw [hrecord, hrid]
    rcases happ with ⟨hsame, -⟩ | ⟨descriptor, -, hregister, -⟩
    · rw [hsame]
    · rw [hregister]
      rfl
  · rw [hrecord, htargets] at h
    rcases happ with ⟨hsame, -⟩ | ⟨descriptor, hdescribes, hregister, -⟩
    · exact .inl (by rwa [hsame] at h)
    · rw [hregister, lookup_registerMcpAppTarget] at h
      split_ifs at h with hcall
      · obtain rfl := Option.some.inj h
        refine .inr ⟨?_, source, List.mem_singleton.mpr rfl, hdescribes⟩
        rw [hcall]
        exact Option.some.inj (hdescribes.callId.symm.trans (by rw [hid]; rfl))
      · exact .inl h
  · obtain ⟨hx', -⟩ := sideCall_call hx
    rw [hevents e he x hx] at hx'
    rcases happ with ⟨-, hnone⟩ | ⟨descriptor, hdescribes, -, hsome⟩
    · rw [hnone] at hx'
      cases hx'
    · obtain rfl := Option.some.inj (hsome.symm.trans hx')
      exact ⟨source, List.mem_singleton.mpr rfl, hdescribes⟩

/-- A call that starts is of its source. -/
theorem startMcpCall_sourced (source : Members) (b : ResponsesEventBuilder) :
    Sourced (startSources b.record source) b (startMcpCall source b) := by
  unfold startSources
  cases hid : string? (source.get "id") with
  | none =>
    have heq : startMcpCall source = pure [] := by rw [startMcpCall, hid]
    rw [heq]
    exact .nil b
  | some callId =>
    dsimp only
    split_ifs with hknown
    · rw [startMcpCall_known hid hknown]
      exact .nil b
    · rw [startMcpCall_new hid (by simpa using hknown)]
      exact sourced_item hid false rfl fun e he x hx => sideCall_started he hx

/-- A call that ends is of its source. -/
theorem endMcpCall_sourced {source : Members} {callId : NonemptyString}
    (hid : string? (source.get "id") = some callId) (b : ResponsesEventBuilder) :
    Sourced [source] b (endMcpCall source callId b) := by
  rw [endMcpCall_eq]
  exact sourced_item hid true rfl fun e he x hx => sideCall_ended he hx

/-- More sources may be named. -/
theorem Sourced.mono (h : Sourced sources b r) (hsub : ∀ source ∈ sources, source ∈ sources') :
    Sourced sources' b r := by
  have hmono {p : Members → Prop} (hp : ∃ source ∈ sources, p source) :
      ∃ source ∈ sources', p source := hp.imp fun source hs => ⟨hsub source hs.1, hs.2⟩
  exact ⟨h.id, fun callId target htarget => (h.targets callId target htarget).imp_right
    fun hs => ⟨hs.1, hmono hs.2⟩, fun e he x hx => hmono (h.events e he x hx)⟩

/-- A start completes no call and ends no stream. -/
theorem startMcpCall_completed (source : Members) (b : ResponsesEventBuilder) :
    (startMcpCall source b).2.completedMcpCalls = b.completedMcpCalls ∧
      (startMcpCall source b).2.terminal = b.terminal := by
  cases hid : string? (source.get "id") with
  | none =>
    have heq : startMcpCall source = pure [] := by rw [startMcpCall, hid]
    rw [heq]
    exact ⟨rfl, rfl⟩
  | some callId =>
    cases hknown : b.record.outputIndex callId with
    | some i =>
      rw [startMcpCall_known hid (by rw [hknown]; rfl)]
      exact ⟨rfl, rfl⟩
    | none =>
      rw [startMcpCall_new hid hknown]
      obtain ⟨targets, hframe⟩ := mcpCallItem_frame source false b
      dsimp only
      rw [hframe]
      exact ⟨rfl, rfl⟩

/-- A call that is completed is of its source, and is completed afterwards. -/
theorem completeMcpCall_sourced (source : Members) (b : ResponsesEventBuilder) :
    Sourced (completeSources b.completedMcpCalls source) b (completeMcpCall source b) ∧
      (completeMcpCall source b).2.completedMcpCalls =
        completedAfter b.completedMcpCalls source := by
  unfold completeMcpCall completeSources completedAfter
  cases hid : string? (source.get "id") with
  | none => exact ⟨.nil b, rfl⟩
  | some callId =>
    dsimp only
    rw [getBuilder_bind]
    split_ifs with hdone
    · exact ⟨.nil b, rfl⟩
    · rw [getRecord_bind, bind_apply]
      have hcompleted (c : ResponsesEventBuilder)
          (hc : c.completedMcpCalls = b.completedMcpCalls) :
          (endMcpCall source callId c).2.completedMcpCalls =
            callId.val :: b.completedMcpCalls := by
        obtain ⟨targets, hframe⟩ := mcpCallItem_frame source true c
        rw [endMcpCall_eq, ← hc]
        dsimp only
        rw [hframe]
      split_ifs with hnew
      · have hstart : Sourced [source] b (startMcpCall source b) :=
          (startMcpCall_sourced source b).mono fun s hs => mem_startSources hs
        refine ⟨(hstart.append (endMcpCall_sourced hid _)).mono fun s hs => ?_,
          hcompleted _ (startMcpCall_completed source b).1⟩
        rcases List.mem_append.mp hs with hs | hs <;> exact hs
      · exact ⟨(Sourced.nil b).append (endMcpCall_sourced hid b), hcompleted b rfl⟩

/-- The calls of a turn are of its items. -/
theorem completeMcpCalls_sourced (items : List Json) (b : ResponsesEventBuilder) :
    Sourced (turnSources b.completedMcpCalls items) b (completeMcpCalls items b) := by
  induction items generalizing b with
  | nil => exact .nil b
  | cons item items ih =>
    rw [completeMcpCalls, turnSources]
    cases hitem : (dict? item).filter fun ms => hasType ms "mcpToolCall" with
    | none => exact (Sourced.nil b).append (ih b)
    | some source =>
      obtain ⟨hfirst, hcompleted⟩ := completeMcpCall_sourced source b
      have hrest := ih (completeMcpCall source b).2
      rw [hcompleted] at hrest
      exact hfirst.append hrest

/-! ## The message -/

/-- The message that is brought up to date leaves the targets alone. -/
theorem syncMessageItem_targets (record : ResponseRecord) :
    record.syncMessageItem.mcpAppTargets = record.mcpAppTargets ∧
      record.syncMessageItem.id = record.id := by
  unfold ResponseRecord.syncMessageItem
  split_ifs
  · exact addOutputItem_targets record _
  · exact ⟨rfl, rfl⟩

/-- The message that gets its place leaves the targets alone. -/
theorem ensureMessage_targets (record : ResponseRecord) (itemId : Option String) :
    (record.ensureMessage itemId).1.mcpAppTargets = record.mcpAppTargets ∧
      (record.ensureMessage itemId).1.id = record.id := by
  unfold ResponseRecord.ensureMessage
  split
  · exact ⟨rfl, rfl⟩
  · dsimp only
    exact addOutputItem_targets { record with
      messageId := (itemId.bind nonempty?).getD record.messageId
      messageStarted := true } _

/-- The start of a message has no source. -/
theorem startMessage_sourced (itemId : Option String) (b : ResponsesEventBuilder) :
    Sourced [] b (startMessage itemId b) := by
  cases hs : b.record.messageStarted with
  | true =>
    unfold startMessage
    simp only [getRecord_bind, hs, if_true]
    exact .nil b
  | false =>
    rw [startMessage_new hs]
    obtain ⟨htargets, hid⟩ := ensureMessage_targets b.record itemId
    refine sourced_of_same hid htargets fun e he => ?_
    simp only [List.mem_cons, List.not_mem_nil, or_false] at he
    rcases he with rfl | rfl <;> rfl

/-- A text that is set has no source. -/
theorem setOutputText_sourced (text : String) (b : ResponsesEventBuilder) :
    Sourced [] b ([], (setOutputText text b).2) := by
  obtain ⟨htargets, hid⟩ := syncMessageItem_targets { b.record with outputText := text }
  exact sourced_of_same hid htargets fun _ h => absurd h List.not_mem_nil

/-- A delta has no source. -/
theorem textDelta_sourced (delta : String) (b : ResponsesEventBuilder) :
    Sourced [] b ([(textDelta delta b).1], (textDelta delta b).2) :=
  sourced_of_same rfl rfl fun e he => by
    obtain rfl := List.mem_singleton.mp he
    rfl

/-- A text that is shown has no source. -/
theorem showText_sourced (text delta : String) (b : ResponsesEventBuilder) :
    Sourced [] b ([(textDelta delta (setOutputText text b).2).1],
      (textDelta delta (setOutputText text b).2).2) :=
  (setOutputText_sourced text b).append (textDelta_sourced delta _)

/-- A text that is appended has no source. -/
theorem appendText_sourced (delta : String) (itemId : Option String) (b : ResponsesEventBuilder) :
    Sourced [] b (appendText delta itemId b) :=
  (startMessage_sourced itemId b).append (showText_sourced _ delta _)

/-- A completed message has no source. -/
theorem syncCompletedMessage_sourced (text : String) (itemId : Option String)
    (b : ResponsesEventBuilder) : Sourced [] b (syncCompletedMessage text itemId b) := by
  have hstart := startMessage_sourced itemId b
  simp only [syncCompletedMessage]
  rw [bind_apply, getRecord_bind]
  split_ifs
  · exact hstart
  · exact hstart
  · exact hstart.append (showText_sourced _ _ _)
  · have happend := hstart.append (setOutputText_sourced text _)
    simp only [List.append_nil] at happend
    exact happend

/-- The end of a message has no source. -/
theorem finishMessage_sourced (b : ResponsesEventBuilder) : Sourced [] b (finishMessage b) := by
  unfold finishMessage
  rw [getRecord_bind]
  split_ifs
  · exact .nil b
  · obtain ⟨htargets, hid⟩ := syncMessageItem_targets { b.record with messageCompleted := true }
    refine sourced_of_same hid htargets fun e he => ?_
    change e ∈ [_, _, _] at he
    simp only [List.mem_cons, List.not_mem_nil, or_false] at he
    rcases he with rfl | rfl | rfl <;> rfl

/-! ## The end of a Response -/

/-- What keeps the output keeps the targets. -/
theorem KeepsOutput.targets {update : ResponseRecord → ResponseRecord} (h : KeepsOutput update)
    (record : ResponseRecord) : (update record).mcpAppTargets = record.mcpAppTargets ∧
      (update record).id = record.id := by
  obtain ⟨status, error, details, usage, heq⟩ := h record
  rw [heq]
  exact ⟨rfl, rfl⟩

/-- The terminal event has no source. -/
theorem terminate_sourced {update : ResponseRecord → ResponseRecord} {body : Response → EventBody}
    (hupdate : KeepsOutput update) (hbody : ∀ r, (body r).terminal? = some r)
    (b : ResponsesEventBuilder) :
    Sourced [] b ([(terminate update body b).1], (terminate update body b).2) := by
  obtain ⟨htargets, hid⟩ := syncMessageItem_targets (update b.record)
  obtain ⟨htargets', hid'⟩ := hupdate.targets b.record
  refine sourced_of_same (hid.trans hid') (htargets.trans htargets') fun e he => ?_
  obtain rfl := List.mem_singleton.mp he
  have hterminal := hbody (update b.record).syncMessageItem.response
  change sideCall ⟨_, body (update b.record).syncMessageItem.response⟩ = none
  unfold sideCall
  dsimp only
  split
  · rename_i heq
    rw [heq] at hterminal
    cases hterminal
  · rename_i heq
    rw [heq] at hterminal
    cases hterminal
  · rfl

/-- The record is brought to its end. -/
theorem Sourced.ends (h : Sourced sources b r) {before update : ResponseRecord → ResponseRecord}
    {body : Response → EventBody} (hbefore : KeepsOutput before) (hupdate : KeepsOutput update)
    (hbody : ∀ r, (body r).terminal? = some r) :
    Sourced sources b
      ((do
        let finished ← finishMessage
        setRecord (before (← getRecord))
        let ended ← terminate update body
        return r.1 ++ finished ++ [ended]) r.2) := by
  have hfinish := finishMessage_sourced r.2
  have hset : Sourced [] (finishMessage r.2).2
      ([], { (finishMessage r.2).2 with record := before (finishMessage r.2).2.record }) := by
    obtain ⟨htargets, hid⟩ := hbefore.targets (finishMessage r.2).2.record
    exact sourced_of_same hid htargets fun _ h => absurd h List.not_mem_nil
  have hends := ((h.append hfinish).append hset).append (terminate_sourced hupdate hbody _)
  simp only [List.append_nil] at hends
  exact hends

/-- A failure has no source. -/
theorem fail_sourced (message : String) (b : ResponsesEventBuilder) :
    Sourced [] b (fail message b) := by
  unfold fail
  rw [getBuilder_bind]
  split_ifs
  · exact .nil b
  · exact (Sourced.nil b).ends (fun r => ⟨r.status, r.error, r.incompleteDetails, r.usage, rfl⟩)
      (fun r => ⟨_, _, r.incompleteDetails, r.usage, rfl⟩) fun _ => rfl

/-- The end of a turn is of its items. -/
theorem completeTurn_sourced (turn : Members) (b : ResponsesEventBuilder) :
    Sourced (turnCompletedSources b turn) b (completeTurn turn b) := by
  unfold completeTurn turnCompletedSources
  rw [getBuilder_bind]
  split_ifs
  · exact .nil b
  · obtain ⟨update, body, hend, hupdate, hbody⟩ := endTurn_eq turn
    have hcalls := completeMcpCalls_sourced ((list? (turn.get "items")).getD []) b
    have htext (c : ResponsesEventBuilder) : Sourced [] c (syncFinalText turn c) := by
      simp only [syncFinalText]
      split_ifs
      · exact .nil c
      · exact syncCompletedMessage_sourced _ _ c
    have hends := (hcalls.append (htext _)).ends
      (fun r => ⟨r.status, r.error, r.incompleteDetails, usageFromTurn turn, rfl⟩) hupdate hbody
    rw [hend, bind_apply, bind_apply]
    simp only [List.append_nil] at hends
    exact hends

/-- **The App targets of a notification, and the Apps its events tell of, come from the calls the
builder looks at.** -/
theorem consume_sourced (b : ResponsesEventBuilder) (notification : Members) :
    Sourced (appSources b notification) b (consume notification b) := by
  unfold consume appSources
  cases str? (notification.get "method") with
  | none => exact .nil b
  | some method =>
  cases dict? (notification.get "params") with
  | none => exact .nil b
  | some params =>
  dsimp only
  by_cases h1 : method = "item/started"
  · rw [if_pos h1, if_pos h1]
    unfold consumeItemStarted itemStartedSources
    cases (dict? (params.get "item")).filter fun ms => hasType ms "mcpToolCall" with
    | none => exact .nil b
    | some item => exact startMcpCall_sourced item b
  rw [if_neg h1, if_neg h1]
  by_cases h2 : method = "item/agentMessage/delta"
  · subst h2
    rw [if_pos rfl, if_neg (by decide), if_neg (by decide)]
    unfold consumeDelta
    cases string? (params.get "delta") with
    | none => exact .nil b
    | some delta => exact appendText_sourced delta _ b
  rw [if_neg h2]
  by_cases h3 : method = "item/completed"
  · rw [if_pos h3, if_pos h3]
    unfold consumeItemCompleted itemCompletedSources
    cases dict? (params.get "item") with
    | none => exact .nil b
    | some item =>
      dsimp only
      split_ifs
      · exact syncCompletedMessage_sourced _ _ b
      · exact (completeMcpCall_sourced item b).1
      · exact .nil b
  rw [if_neg h3, if_neg h3]
  by_cases h4 : method = "turn/completed"
  · rw [if_pos h4, if_pos h4]
    exact completeTurn_sourced _ b
  rw [if_neg h4, if_neg h4]
  split_ifs
  · unfold consumeError
    split_ifs
    · exact .nil b
    · exact fail_sourced _ b
  · exact .nil b

end CodexGateway.Adapter
