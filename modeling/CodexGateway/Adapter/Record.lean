import CodexGateway.Library.JsonDict

/-!
# Adapter/Record — the record of one Response

`ResponseRecord` is what the Adapter keeps of a Response while its turn runs: one output message,
the MCP calls, and the index at which each stands in the output.  An output item is stored under
its id, so an item that is updated keeps its place.
-/

namespace CodexGateway.Adapter

open PyJson

/-- A string that is not empty: what `_string` returns, and what an output item needs for an id. -/
abbrev NonemptyString := {s : String // s ≠ ""}

/-- The string, if it is not empty. -/
def nonempty? (s : String) : Option NonemptyString := if h : s ≠ "" then some ⟨s, h⟩ else none

/-- The states of a Response. -/
inductive ResponseStatus where
  | inProgress
  | completed
  | failed
  | incomplete
deriving DecidableEq

/-- The `status` of an output item. -/
inductive ItemStatus where
  | inProgress
  | completed
  | failed
deriving DecidableEq

/-- What `_mcp_meta` says about the App an MCP call belongs to. -/
structure McpAppDescriptor where
  responseId : String
  callId : String
  server : String
  tool : String
  resourceUri : String
  resourceUrl : String
  eventsUrl : String
  stateUrl : String
  toolCallUrl : String
  connectorId : Option String
  linkId : Option String
  appId : String
  allowedTools : List String

/-- The `_meta` of an MCP call; `ui` and `mcpApp` come together. -/
structure McpMeta where
  ui : Option String
  mcpApp : Option McpAppDescriptor
  codexAppContext : Option Members
  mcpResult : Option Members

/-- The `error` of an MCP call, by its `type`. -/
inductive McpError where
  | protocol (code : ℤ) (message : String)
  | toolExecution (content : Json)

/-- The item of an MCP call. -/
structure McpCallItem where
  id : NonemptyString
  arguments : String
  name : String
  serverLabel : String
  status : ItemStatus
  output : Option String
  error : Option McpError
  itemMeta : Option McpMeta

/-- An output item; the message has one `output_text` part without annotations. -/
inductive OutputItem where
  | message (id : NonemptyString) (status : ItemStatus) (text : String)
  | mcpCall (call : McpCallItem)

/-- The id of an item. -/
def OutputItem.id : OutputItem → NonemptyString
  | .message id _ _ => id
  | .mcpCall call => call.id

/-- The text of a message. -/
def OutputItem.messageText? : OutputItem → Option String
  | .message _ _ text => some text
  | .mcpCall _ => none

/-- The tokens of a turn. -/
structure Usage where
  inputTokens : ℤ
  cachedTokens : ℤ
  outputTokens : ℤ
  totalTokens : ℤ

/-- The error of a Response that has failed. -/
structure ResponseError where
  code : String
  message : String

/-- The parameters of a create request that the record keeps. -/
structure CreateResponseRequest where
  model : String
  instructions : Option String
  previousResponseId : Option String
  stream : Bool
  metadata : Option Members
  store : Option Bool
  reasoning : Option Members
  serviceTier : Option String

/-- A Response, as the Adapter stores it. -/
structure ResponseRecord where
  id : String
  model : String
  createdAt : ℤ
  status : ResponseStatus
  instructions : Option String
  previousResponseId : Option String
  metadata : Members
  inputItems : List Members
  store : Bool
  stream : Bool
  reasoning : Option Members
  serviceTier : Option String
  mcpAppsBaseUrl : String
  messageId : NonemptyString
  messageOutputIndex : Option ℕ
  outputText : String
  messageStarted : Bool
  messageCompleted : Bool
  outputItems : List OutputItem
  outputIndexes : List (String × ℕ)
  mcpAppTargets : List (String × McpAppDescriptor)
  error : Option ResponseError
  incompleteDetails : Option String
  usage : Option Usage

/-- The values `create` takes from `uuid4` and from the clock. -/
structure Fresh where
  id : String
  messageId : NonemptyString
  createdAt : ℤ

namespace ResponseRecord

/-- The record of a request. -/
def create (fresh : Fresh) (request : CreateResponseRequest) (inputItems : List Members)
    (mcpAppsBaseUrl : String) : ResponseRecord where
  id := fresh.id
  model := request.model
  createdAt := fresh.createdAt
  status := .inProgress
  instructions := request.instructions
  previousResponseId := request.previousResponseId
  metadata := request.metadata.getD []
  inputItems := inputItems
  store := request.store ≠ some false
  stream := request.stream
  reasoning := request.reasoning
  serviceTier := request.serviceTier
  mcpAppsBaseUrl := mcpAppsBaseUrl
  messageId := fresh.messageId
  messageOutputIndex := none
  outputText := ""
  messageStarted := false
  messageCompleted := false
  outputItems := []
  outputIndexes := []
  mcpAppTargets := []
  error := none
  incompleteDetails := none
  usage := none

/-- The place that an item has in the output. -/
def outputIndex (record : ResponseRecord) (itemId : String) : Option ℕ :=
  record.outputIndexes.lookup itemId

/-- `add_output_item`, with the index it returns. -/
def addOutputItem (record : ResponseRecord) (item : OutputItem) : ResponseRecord × ℕ :=
  match record.outputIndex item.id with
  | some existing =>
    ({ record with outputItems := record.outputItems.set existing item }, existing)
  | none =>
    ({ record with
        outputIndexes := record.outputIndexes ++ [(item.id.val, record.outputItems.length)]
        outputItems := record.outputItems ++ [item] }, record.outputItems.length)

/-- `update_output_item` -/
def updateOutputItem (record : ResponseRecord) (item : OutputItem) : ResponseRecord × ℕ :=
  record.addOutputItem item

/-- The message of the Agent as it stands. -/
def messageItem (record : ResponseRecord) : OutputItem :=
  .message record.messageId (if record.messageCompleted then .completed else .inProgress)
    record.outputText

/-- `ensure_message`, with the index it returns.  The item id of the first text names the message. -/
def ensureMessage (record : ResponseRecord) (itemId : Option String) : ResponseRecord × ℕ :=
  match record.messageStarted, record.messageOutputIndex with
  | true, some index => (record, index)
  | _, _ =>
    let named := { record with
      messageId := (itemId.bind nonempty?).getD record.messageId
      messageStarted := true }
    let added := named.addOutputItem named.messageItem
    ({ added.1 with messageOutputIndex := some added.2 }, added.2)

/-- The message in the output is brought up to what the record says of it. -/
def syncMessageItem (record : ResponseRecord) : ResponseRecord :=
  if record.messageStarted then (record.updateOutputItem record.messageItem).1 else record

/-- `register_mcp_app_target`: the place of a call that has one is kept. -/
def registerMcpAppTarget (record : ResponseRecord) (callId : String) (target : McpAppDescriptor) :
    ResponseRecord :=
  { record with
    mcpAppTargets :=
      if callId ∈ record.mcpAppTargets.map Prod.fst then
        record.mcpAppTargets.map fun p => if p.1 = callId then (callId, target) else p
      else record.mcpAppTargets ++ [(callId, target)] }

end ResponseRecord

/-- The response object, less its constant fields. -/
structure Response where
  id : String
  createdAt : ℤ
  status : ResponseStatus
  error : Option ResponseError
  incompleteDetails : Option String
  instructions : Option String
  model : String
  output : List OutputItem
  previousResponseId : Option String
  reasoning : Option Members
  store : Bool
  serviceTier : Option String
  usage : Option Usage
  metadata : Members

/-- The response object of a record.  A reason such as `cancelled` is no value of the Responses API
and is left out. -/
def ResponseRecord.response (record : ResponseRecord) : Response where
  id := record.id
  createdAt := record.createdAt
  status := record.status
  error := record.error
  incompleteDetails := record.incompleteDetails.filter fun reason =>
    reason = "max_output_tokens" || reason = "content_filter"
  instructions := record.instructions
  model := record.model
  output := record.outputItems
  previousResponseId := record.previousResponseId
  reasoning := record.reasoning
  store := record.store
  serviceTier := record.serviceTier
  usage := record.usage
  metadata := record.metadata

/-- `to_response`, which first brings the message item up to date. -/
def ResponseRecord.toResponse (record : ResponseRecord) : ResponseRecord × Response :=
  (record.syncMessageItem, record.syncMessageItem.response)

/-! ## Where the message stands

An item is updated at the index of its id, so an MCP call that bears the message's id takes its
place in the output until the message is next brought up to date.  A message never stands anywhere
else. -/

namespace ResponseRecord

/-- The output and its indexes agree about the message. -/
structure Placed (record : ResponseRecord) : Prop where
  index_lt : ∀ id i, record.outputIndex id = some i → i < record.outputItems.length
  message_at : ∀ i item, record.outputItems[i]? = some item → item.messageText?.isSome →
    record.messageStarted = true ∧ record.outputIndex record.messageId = some i
  started : record.messageStarted = true → ∃ i, record.messageOutputIndex = some i ∧
    record.outputIndex record.messageId = some i

theorem placed_create (fresh : Fresh) (request : CreateResponseRequest) (inputItems : List Members)
    (mcpAppsBaseUrl : String) : (create fresh request inputItems mcpAppsBaseUrl).Placed where
  index_lt := fun _ _ h => by simp [create, outputIndex] at h
  message_at := fun _ _ h => by simp [create] at h
  started := fun h => by simp [create] at h

theorem addOutputItem_of_some {record : ResponseRecord} {item : OutputItem} {i : ℕ}
    (h : record.outputIndex item.id = some i) :
    record.addOutputItem item = ({ record with outputItems := record.outputItems.set i item }, i) := by
  rw [addOutputItem, h]

theorem addOutputItem_of_none {record : ResponseRecord} {item : OutputItem}
    (h : record.outputIndex item.id = none) :
    record.addOutputItem item =
      ({ record with
          outputIndexes := record.outputIndexes ++ [(item.id.val, record.outputItems.length)]
          outputItems := record.outputItems ++ [item] }, record.outputItems.length) := by
  rw [addOutputItem, h]

/-- An index once given stays. -/
theorem outputIndex_addOutputItem {record : ResponseRecord} (item : OutputItem) {id : String} {i : ℕ}
    (h : record.outputIndex id = some i) :
    (record.addOutputItem item).1.outputIndex id = some i := by
  cases hitem : record.outputIndex item.id with
  | some j => rw [addOutputItem_of_some hitem]; exact h
  | none =>
    rw [addOutputItem_of_none hitem]
    show List.lookup id (record.outputIndexes ++ _) = some i
    rw [List.lookup_append, show List.lookup id record.outputIndexes = some i from h]
    rfl

theorem lookup_append_singleton {α : Type} {xs : List (String × α)} {id k : String} {a b : α}
    (h : List.lookup id (xs ++ [(k, a)]) = some b) : List.lookup id xs = some b ∨ b = a := by
  rw [List.lookup_append] at h
  cases hid : List.lookup id xs with
  | some c => exact .inl (by simpa [hid] using h)
  | none =>
    rw [hid, Option.none_or, List.lookup_cons] at h
    split at h
    · exact .inr (Option.some.inj h).symm
    · simp at h

/-- What adding an item does to the output: the item stands at the index of its id, nothing else
moves. -/
structure Added (record : ResponseRecord) (item : OutputItem) (added : ResponseRecord × ℕ) : Prop where
  index : added.1.outputIndex item.id = some added.2
  item_at : added.1.outputItems[added.2]? = some item
  other : ∀ j ≠ added.2, ∀ x, added.1.outputItems[j]? = some x → record.outputItems[j]? = some x
  index_lt : ∀ id i, added.1.outputIndex id = some i → i < added.1.outputItems.length
  frame : added.1 = { record with
    outputIndexes := added.1.outputIndexes
    outputItems := added.1.outputItems }

theorem added_addOutputItem (record : ResponseRecord) (item : OutputItem)
    (hlt : ∀ id i, record.outputIndex id = some i → i < record.outputItems.length) :
    Added record item (record.addOutputItem item) := by
  cases hitem : record.outputIndex item.id with
  | some i =>
    rw [addOutputItem_of_some hitem]
    have hi := hlt _ _ hitem
    exact
      { index := hitem
        item_at := by simp [hi]
        other := fun j hj x hx => by rwa [List.getElem?_set_ne (Ne.symm hj)] at hx
        index_lt := fun id k hk => by simpa using hlt id k hk
        frame := rfl }
  | none =>
    rw [addOutputItem_of_none hitem]
    have hmiss : List.lookup item.id.val record.outputIndexes = none := hitem
    exact
      { index := by simp [outputIndex, List.lookup_append, hmiss]
        item_at := by simp
        other := fun j hj x hx => by
          have hx' : (record.outputItems ++ [item])[j]? = some x := hx
          have hlt := (List.getElem?_eq_some_iff.mp hx').1
          simp only [List.length_append, List.length_singleton] at hlt
          rwa [List.getElem?_append_left (by change j ≠ record.outputItems.length at hj; omega)] at hx'
        index_lt := fun id k hk => by
          simp only [List.length_append, List.length_singleton]
          rcases lookup_append_singleton hk with hid | rfl
          · exact Nat.lt_succ_of_lt (hlt id k hid)
          · exact Nat.lt_succ_self _
        frame := rfl }

/-- An MCP call leaves the message where it is, or stands in its place for a while. -/
theorem Placed.addMcpCall {record : ResponseRecord} (h : record.Placed) (call : McpCallItem) :
    (record.addOutputItem (.mcpCall call)).1.Placed := by
  have hadd := added_addOutputItem record (.mcpCall call) h.index_lt
  have hframe := hadd.frame
  have hkeep : ∀ id i, record.outputIndex id = some i →
      (record.addOutputItem (.mcpCall call)).1.outputIndex id = some i :=
    fun id i => outputIndex_addOutputItem _
  generalize record.addOutputItem (.mcpCall call) = added at hadd hframe hkeep ⊢
  have hstarted : added.1.messageStarted = record.messageStarted := by rw [hframe]
  have hid : added.1.messageId = record.messageId := by rw [hframe]
  have hindex : added.1.messageOutputIndex = record.messageOutputIndex := by rw [hframe]
  refine ⟨hadd.index_lt, fun i item hi ht => ?_, fun hs => ?_⟩
  · by_cases hne : i = added.2
    · subst hne
      rw [hadd.item_at] at hi
      obtain rfl := Option.some.inj hi
      simp [OutputItem.messageText?] at ht
    · obtain ⟨hs, hi⟩ := h.message_at i item (hadd.other i hne item hi) ht
      exact ⟨hstarted.trans hs, hid ▸ hkeep _ _ hi⟩
  · obtain ⟨i, hi, hm⟩ := h.started (hstarted ▸ hs)
    exact ⟨i, hindex.trans hi, hid ▸ hkeep _ _ hm⟩

/-- The message put into the output stands at its index, and no other message does. -/
theorem placed_addMessage (record : ResponseRecord) {index : Option ℕ}
    (hlt : ∀ id i, record.outputIndex id = some i → i < record.outputItems.length)
    (hat : ∀ i item, record.outputItems[i]? = some item → item.messageText?.isSome →
      record.outputIndex record.messageId = some i)
    (hs : record.messageStarted = true)
    (hindex : index = some (record.addOutputItem record.messageItem).2) :
    ({ (record.addOutputItem record.messageItem).1 with messageOutputIndex := index }).Placed ∧
      ∀ item ∈ (record.addOutputItem record.messageItem).1.outputItems, item.messageText?.isSome →
        item = record.messageItem := by
  have hadd := added_addOutputItem record record.messageItem hlt
  have hframe := hadd.frame
  have hkeep : ∀ i, record.outputIndex record.messageId = some i →
      (record.addOutputItem record.messageItem).1.outputIndex record.messageId = some i :=
    fun i => outputIndex_addOutputItem _
  generalize record.addOutputItem record.messageItem = added at hadd hframe hkeep hindex ⊢
  have hown : added.1.outputIndex record.messageId = some added.2 := hadd.index
  have hstarted : added.1.messageStarted = true := by rw [hframe]; exact hs
  have hid : added.1.messageId = record.messageId := by rw [hframe]
  -- A message elsewhere would have stood there before, at the index of the same id.
  have honly : ∀ i item, added.1.outputItems[i]? = some item → item.messageText?.isSome →
      i = added.2 := by
    intro i item hi ht
    by_contra hne
    have hi' := hkeep i (hat i item (hadd.other i hne item hi) ht)
    rw [hown] at hi'
    exact hne (Option.some.inj hi').symm
  refine ⟨⟨hadd.index_lt, fun i item hi ht => ⟨hstarted, ?_⟩, fun _ => ⟨added.2, hindex, ?_⟩⟩,
    fun item hmem ht => ?_⟩
  · rw [honly i item hi ht]
    exact hid ▸ hown
  · exact hid ▸ hown
  · obtain ⟨i, hi⟩ := List.getElem?_of_mem hmem
    rw [honly i item hi ht, hadd.item_at] at hi
    exact (Option.some.inj hi).symm

/-- Bringing the message item up to date touches the output only. -/
theorem syncMessageItem_frame (record : ResponseRecord) :
    record.syncMessageItem = { record with
      outputIndexes := record.syncMessageItem.outputIndexes
      outputItems := record.syncMessageItem.outputItems } := by
  rw [syncMessageItem]
  split
  · rw [updateOutputItem]
    cases hi : record.outputIndex record.messageItem.id with
    | some i => rw [addOutputItem_of_some hi]
    | none => rw [addOutputItem_of_none hi]
  · rfl

@[simp] theorem syncMessageItem_outputText (record : ResponseRecord) :
    record.syncMessageItem.outputText = record.outputText := by rw [syncMessageItem_frame]

@[simp] theorem syncMessageItem_messageStarted (record : ResponseRecord) :
    record.syncMessageItem.messageStarted = record.messageStarted := by rw [syncMessageItem_frame]

@[simp] theorem syncMessageItem_messageCompleted (record : ResponseRecord) :
    record.syncMessageItem.messageCompleted = record.messageCompleted := by
  rw [syncMessageItem_frame]

/-- **After `sync_message_item` the only message of the output is the record's own.** -/
theorem Placed.sync {record : ResponseRecord} (h : record.Placed) :
    record.syncMessageItem.Placed ∧
      (∀ item ∈ record.syncMessageItem.outputItems, item.messageText?.isSome →
        item = record.messageItem) ∧
      (record.messageStarted = true → record.messageItem ∈ record.syncMessageItem.outputItems) := by
  cases hs : record.messageStarted with
  | false =>
    have hnone : ∀ item ∈ record.outputItems, item.messageText?.isSome → False := by
      intro item hmem ht
      obtain ⟨i, hi⟩ := List.getElem?_of_mem hmem
      simpa [hs] using (h.message_at i item hi ht).1
    rw [syncMessageItem, if_neg (by simp [hs])]
    exact ⟨h, fun item hmem ht => (hnone item hmem ht).elim, fun h => by simp at h⟩
  | true =>
    obtain ⟨i, hindex, hi⟩ := h.started hs
    have hadd := added_addOutputItem record record.messageItem h.index_lt
    have hsame : some i = some (record.addOutputItem record.messageItem).2 :=
      (outputIndex_addOutputItem record.messageItem hi).symm.trans hadd.index
    obtain ⟨hplaced, honly⟩ := placed_addMessage record h.index_lt
      (fun i item hi ht => (h.message_at i item hi ht).2) hs (hindex.trans hsame)
    have hmem := List.mem_of_getElem? hadd.item_at
    have hframe := hadd.frame
    rw [syncMessageItem, if_pos hs, updateOutputItem]
    refine ⟨?_, honly, fun _ => hmem⟩
    rw [hframe] at hplaced ⊢
    exact hplaced

/-- `ensure_message` starts the message and changes nothing of its text. -/
theorem ensureMessage_spec {record : ResponseRecord} (h : record.Placed)
    (hs : record.messageStarted = false) (itemId : Option String) :
    (record.ensureMessage itemId).1.Placed ∧
      (record.ensureMessage itemId).1.messageStarted = true ∧
      (record.ensureMessage itemId).1.outputText = record.outputText ∧
      (record.ensureMessage itemId).1.messageCompleted = record.messageCompleted := by
  let named : ResponseRecord := { record with
    messageId := (itemId.bind nonempty?).getD record.messageId
    messageStarted := true }
  have hens : record.ensureMessage itemId =
      ({ (named.addOutputItem named.messageItem).1 with
          messageOutputIndex := some (named.addOutputItem named.messageItem).2 },
        (named.addOutputItem named.messageItem).2) := by
    rw [ensureMessage, hs]
  have hat : ∀ i item, named.outputItems[i]? = some item → item.messageText?.isSome →
      named.outputIndex named.messageId = some i := fun i item hi ht => by
    simpa [hs] using (h.message_at i item hi ht).1
  have hplaced := (placed_addMessage named h.index_lt hat rfl rfl).1
  have hframe := (added_addOutputItem named named.messageItem h.index_lt).frame
  rw [hens]
  refine ⟨hplaced, ?_, ?_, ?_⟩ <;> rw [hframe]

end ResponseRecord

end CodexGateway.Adapter
