import Mathlib.Data.List.DropRight
import CodexGateway.Adapter.Record

/-!
# Adapter/Events — Codex notifications as Responses events

`ResponsesEventBuilder.consume` translates one app-server notification.  Every method runs in
`Build`, the state of the builder; `event` numbers what is emitted.
-/

namespace CodexGateway.Adapter

open PyJson

/-! ## Reading a notification -/

/-- `_string` -/
def string? : Json → Option NonemptyString
  | .str s => nonempty? s
  | _ => none

/-- `value if isinstance(value, str) else None` -/
def str? : Json → Option String
  | .str s => some s
  | _ => none

/-- `value if isinstance(value, dict) else None` -/
def dict? : Json → Option Members
  | .obj ms => some ms
  | _ => none

/-- `value if isinstance(value, list) else None` -/
def list? : Json → Option (List Json)
  | .arr xs => some xs
  | _ => none

/-- `value is None` -/
def isNone : Json → Bool
  | .null => true
  | _ => false

/-- `value is True` -/
def isTrue : Json → Bool
  | .bool b => b
  | _ => false

/-- `_json_string` -/
def jsonString : Json → String
  | .str s => s
  | v => String.ofList (dumps v)

/-- `_status`: the spellings the app server uses for a status; another string is passed on. -/
def status? : Json → Option String
  | .str value =>
    let normalized := (value.toList.filter fun c => c ≠ '_' ∧ c ≠ '-').map Char.toLower
    some (([("inprogress", "in_progress"), ("calling", "in_progress"), ("completed", "completed"),
      ("failed", "failed"), ("interrupted", "interrupted"), ("incomplete", "incomplete")].lookup
        (String.ofList normalized)).getD value)
  | _ => none

/-- `_as_int`; a Boolean is no number here. -/
def asInt : Json → ℤ
  | .int i => i
  | _ => 0

/-- One key of `_error_message`: the text under it, or under `message` of the object there. -/
def errorCandidate (value : Members) (key : String) : Option NonemptyString :=
  match value.get key with
  | .str s => nonempty? s
  | .obj ms => string? (Members.get ms "message")
  | _ => none

/-- `_error_message` -/
def errorMessage (value : Members) : String :=
  match ["message", "error", "detail"].findSome? (errorCandidate value) with
  | some message => message
  | none => "Codex app-server execution failed"

/-- `_mcp_error` -/
def mcpError : Json → McpError
  | .obj ms =>
    match Members.get ms "code" with
    | .int code => .protocol code (errorMessage ms)
    | _ => .toolExecution (.obj ms)
  | .str s => .toolExecution (.str s)
  | _ => .toolExecution (.str "MCP tool call failed")

/-- `_resource_uri_from_result` -/
def resourceUriFromResult (value : Json) : Option NonemptyString := do
  let result ← dict? value
  let itemMeta ← dict? (result.get "_meta")
  match (dict? (itemMeta.get "ui")).bind fun ui => string? (ui.get "resourceUri") with
  | some uri => some uri
  | none => string? (itemMeta.get "ui/resourceUri")

/-- `_usage_from_turn` -/
def usageFromTurn (turn : Members) : Option Usage := do
  let raw ← dict? (turn.get "usage")
  let inputTokens := asInt (orElse (raw.get "inputTokens") (raw.get "input_tokens"))
  let cachedTokens := asInt (orElse (raw.get "cachedInputTokens") (raw.get "cached_input_tokens"))
  let outputTokens := asInt (orElse (raw.get "outputTokens") (raw.get "output_tokens"))
  return ⟨inputTokens, cachedTokens, outputTokens, inputTokens + outputTokens⟩

/-- The text and the id of an `agentMessage` item. -/
def agentMessage (item : Members) : String × Option String :=
  ((str? (item.get "text")).getD "", str? (item.get "id"))

/-- `item.get("type") == type` -/
def hasType (item : Members) (type : String) : Bool := str? (item.get "type") = some type

/-- `_last_agent_message` -/
def lastAgentMessage (turn : Members) : String × Option String :=
  match ((list? (turn.get "items")).getD []).reverse.findSome? fun item =>
    (dict? item).filter fun ms => hasType ms "agentMessage" with
  | some item => agentMessage item
  | none => ("", none)

/-- The characters `quote_plus` leaves as they are. -/
def unreserved (c : Char) : Bool :=
  c.isAlphanum || c = '_' || c = '.' || c = '-' || c = '~'

/-- A hexadecimal digit of a percent escape. -/
def percentHex (n : ℕ) : Char := if n < 10 then Char.ofNat (48 + n) else Char.ofNat (55 + n)

/-- `quote_plus` -/
def quotePlus (s : String) : List Char :=
  s.toList.flatMap fun c =>
    if unreserved c then [c]
    else if c = ' ' then ['+']
    else (String.utf8EncodeChar c).flatMap fun b =>
      ['%', percentHex (b.toNat / 16), percentHex (b.toNat % 16)]

/-- `urlencode` of a dictionary of strings. -/
def urlencode (query : List (String × String)) : String :=
  String.ofList (['&'].intercalate (query.map fun p => quotePlus p.1 ++ '=' :: quotePlus p.2))

/-! ## The builder -/

/-- An event without its number, by its `type`. -/
inductive EventBody where
  | responseCreated (response : Response)
  | responseInProgress (response : Response)
  | outputItemAdded (outputIndex : ℕ) (item : OutputItem)
  | outputItemDone (outputIndex : ℕ) (item : OutputItem)
  | mcpCallArgumentsDone (itemId : String) (outputIndex : ℕ) (arguments : String)
  | mcpCallInProgress (itemId : String) (outputIndex : ℕ)
  | mcpCallCompleted (itemId : String) (outputIndex : ℕ)
  | mcpCallFailed (itemId : String) (outputIndex : ℕ)
  | contentPartAdded (itemId : String) (outputIndex contentIndex : ℕ) (text : String)
  | outputTextDelta (itemId : String) (outputIndex contentIndex : ℕ) (delta : String)
  | outputTextDone (itemId : String) (outputIndex contentIndex : ℕ) (text : String)
  | contentPartDone (itemId : String) (outputIndex contentIndex : ℕ) (text : String)
  | responseCompleted (response : Response)
  | responseFailed (response : Response)
  | responseIncomplete (response : Response)

/-- An event of the stream. -/
structure Event where
  sequenceNumber : ℕ
  body : EventBody

/-- The builder of a Response, with the events it has numbered. -/
structure ResponsesEventBuilder where
  record : ResponseRecord
  sequenceNumber : ℕ
  terminal : Bool
  completedMcpCalls : List String

/-- The builder before the first event. -/
def ResponsesEventBuilder.init (record : ResponseRecord) : ResponsesEventBuilder :=
  ⟨record, 0, false, []⟩

/-- What a method of the builder does. -/
abbrev Build := StateM ResponsesEventBuilder

namespace ResponsesEventBuilder

/-- `_event` -/
def event (body : EventBody) : Build Event := fun b =>
  (⟨b.sequenceNumber, body⟩, { b with sequenceNumber := b.sequenceNumber + 1 })

/-- `self` -/
def getBuilder : Build ResponsesEventBuilder := fun b => (b, b)

/-- `self.record` -/
def getRecord : Build ResponseRecord := fun b => (b.record, b)

/-- The record is replaced. -/
def setRecord (record : ResponseRecord) : Build Unit := fun b => ((), { b with record := record })

/-- `self.record.to_response()` -/
def toResponse : Build Response := do
  let (record, response) := (← getRecord).toResponse
  setRecord record
  return response

/-- `initial_events` -/
def initialEvents : Build (List Event) := do
  let created ← event (.responseCreated (← toResponse))
  let inProgress ← event (.responseInProgress (← toResponse))
  return [created, inProgress]

/-- `_public_url` -/
def publicUrl (record : ResponseRecord) (path : String) : String :=
  let base := String.ofList (record.mcpAppsBaseUrl.toList.rdropWhile (· = '/'))
  if base = "" then path else base ++ path

/-- `_mcp_meta`: what it puts into the record, and the `_meta` it returns, if any. -/
def mcpMeta (record : ResponseRecord) (source : Members) (callId server tool : String) :
    ResponseRecord × Option McpMeta :=
  let appContext := (dict? (source.get "appContext")).getD []
  let resourceUri := (string? (appContext.get "resourceUri")).or
    ((string? (source.get "mcpAppResourceUri")).or (resourceUriFromResult (source.get "result")))
  match resourceUri with
  | none => (record, if appContext = [] then none else some ⟨none, none, some appContext, none⟩)
  | some uri =>
    let connectorId := (string? (appContext.get "connectorId")).map Subtype.val
    let linkId := (string? (appContext.get "linkId")).map Subtype.val
    let query := [("server", server), ("uri", uri.val), ("origin_call_id", callId)] ++
      (connectorId.map fun id => ("connector_id", id)).toList
    let base := "/v1/mcp-apps/responses/" ++ record.id
    let descriptor : McpAppDescriptor :=
      { responseId := record.id
        callId := callId
        server := server
        tool := tool
        resourceUri := uri
        resourceUrl := publicUrl record (base ++ "/resources?" ++ urlencode query)
        eventsUrl := publicUrl record (base ++ "/events")
        stateUrl := publicUrl record (base ++ "/state")
        toolCallUrl := publicUrl record (base ++ "/tools/call")
        connectorId := connectorId
        linkId := linkId
        appId := (connectorId.or linkId).getD callId
        allowedTools := [] }
    (record.registerMcpAppTarget callId descriptor,
      some ⟨some uri, some descriptor, some appContext, none⟩)

/-- `meta["mcp_result"] = result["_meta"]`, when the result has one. -/
def addMcpResult (itemMeta : Option McpMeta) (result : Json) : Option McpMeta :=
  match (dict? result).bind fun ms => dict? (ms.get "_meta") with
  | some mcpResult => some { itemMeta.getD ⟨none, none, none, none⟩ with mcpResult := some mcpResult }
  | none => itemMeta

/-- `_mcp_call_item` -/
def mcpCallItem (source : Members) (completed : Bool) : Build McpCallItem := do
  let callId := (string? (source.get "id")).getD ⟨"mcp_unknown", by decide⟩
  let server := ((string? (source.get "server")).map Subtype.val).getD "unknown"
  let tool := ((string? (source.get "tool")).map Subtype.val).getD "unknown"
  let argumentsValue := source.get "arguments"
  let arguments := jsonString (if isNone argumentsValue then .obj [] else argumentsValue)
  let error := source.get "error"
  let result := source.get "result"
  let isError := ((dict? result).map fun ms => isTrue (ms.get "isError")).getD false
  let failed := !isNone error || isError || status? (source.get "status") = some "failed"
  let (record, itemMeta) := mcpMeta (← getRecord) source callId server tool
  setRecord record
  return {
    id := callId
    arguments := arguments
    name := tool
    serverLabel := server
    status := if failed then .failed else if completed then .completed else .inProgress
    output := if completed && !isNone result then some (jsonString result) else none
    error := if failed then some (mcpError (if isNone error then result else error)) else none
    itemMeta := addMcpResult itemMeta result }

/-- `self.record.add_output_item(item)` -/
def addOutputItem (item : OutputItem) : Build ℕ := do
  let (record, index) := (← getRecord).addOutputItem item
  setRecord record
  return index

/-- `_start_mcp_call` -/
def startMcpCall (source : Members) : Build (List Event) := do
  match string? (source.get "id") with
  | none => return []
  | some callId =>
    if ((← getRecord).outputIndex callId).isSome then return []
    let item ← mcpCallItem source false
    let outputIndex ← addOutputItem (.mcpCall item)
    let added ← event (.outputItemAdded outputIndex (.mcpCall item))
    let argumentsDone ← event (.mcpCallArgumentsDone callId outputIndex item.arguments)
    let inProgress ← event (.mcpCallInProgress callId outputIndex)
    return [added, argumentsDone, inProgress]

/-- `self._completed_mcp_calls.add(call_id)` -/
def addCompletedMcpCall (callId : String) : Build Unit := fun b =>
  ((), { b with completedMcpCalls := callId :: b.completedMcpCalls })

/-- The second half of `_complete_mcp_call`: the item with its result, and its two events. -/
def endMcpCall (source : Members) (callId : String) : Build (List Event) := do
  let item ← mcpCallItem source true
  let outputIndex ← addOutputItem (.mcpCall item)
  let ended ← event (if item.status = .failed then .mcpCallFailed callId outputIndex
    else .mcpCallCompleted callId outputIndex)
  let done ← event (.outputItemDone outputIndex (.mcpCall item))
  addCompletedMcpCall callId
  return [ended, done]

/-- `_complete_mcp_call` -/
def completeMcpCall (source : Members) : Build (List Event) := do
  match string? (source.get "id") with
  | none => return []
  | some callId =>
    if callId.val ∈ (← getBuilder).completedMcpCalls then return []
    let started ← (if ((← getRecord).outputIndex callId).isNone then startMcpCall source
      else pure [])
    return started ++ (← endMcpCall source callId)

/-- `_start_message` -/
def startMessage (itemId : Option String) : Build (List Event) := do
  if (← getRecord).messageStarted then return []
  let (record, outputIndex) := (← getRecord).ensureMessage itemId
  setRecord record
  let added ← event (.outputItemAdded outputIndex record.messageItem)
  let part ← event (.contentPartAdded record.messageId outputIndex 0 "")
  return [added, part]

/-- The text grows, and the message item with it. -/
def setOutputText (text : String) : Build Unit := do
  setRecord ({ ← getRecord with outputText := text }).syncMessageItem

/-- A delta of the message that is being written. -/
def textDelta (delta : String) : Build Event := do
  let record ← getRecord
  event (.outputTextDelta record.messageId (record.messageOutputIndex.getD 0) 0 delta)

/-- `_append_text` -/
def appendText (delta : String) (itemId : Option String) : Build (List Event) := do
  let started ← startMessage itemId
  setOutputText ((← getRecord).outputText ++ delta)
  return started ++ [← textDelta delta]

/-- `_sync_completed_message` -/
def syncCompletedMessage (text : String) (itemId : Option String) : Build (List Event) := do
  let started ← startMessage itemId
  let outputText := (← getRecord).outputText
  if text = "" ∨ text = outputText then return started
  if outputText.toList <+: text.toList then
    let missing := String.ofList (text.toList.drop outputText.length)
    if missing = "" then return started
    setOutputText (outputText ++ missing)
    return started ++ [← textDelta missing]
  else
    -- No delta is sent for a text that does not extend the one shown so far.
    setOutputText text
    return started

/-- The message is completed, with the three events that say so. -/
def completeMessage : Build (List Event) := do
  setRecord ({ ← getRecord with messageCompleted := true }).syncMessageItem
  let record ← getRecord
  let outputIndex := record.messageOutputIndex.getD 0
  let textDone ← event (.outputTextDone record.messageId outputIndex 0 record.outputText)
  let partDone ← event (.contentPartDone record.messageId outputIndex 0 record.outputText)
  let itemDone ← event (.outputItemDone outputIndex record.messageItem)
  return [textDone, partDone, itemDone]

/-- `_finish_message` -/
def finishMessage : Build (List Event) := do
  let record ← getRecord
  if !record.messageStarted || record.messageCompleted then return [] else completeMessage

/-- The stream has its terminal event. -/
def setTerminal : Build Unit := fun b => ((), { b with terminal := true })

/-- The record and the event of a terminal status. -/
def terminate (update : ResponseRecord → ResponseRecord) (body : Response → EventBody) :
    Build Event := do
  setRecord (update (← getRecord))
  setTerminal
  event (body (← toResponse))

/-- `fail`, once. -/
def fail (message : String) : Build (List Event) := do
  if (← getBuilder).terminal then return []
  let finished ← finishMessage
  let failed ← terminate
    (fun r => { r with status := .failed, error := some ⟨"codex_execution_failed", message⟩ })
    .responseFailed
  return finished ++ [failed]

/-- `incomplete`, once. -/
def incomplete (reason : String) : Build (List Event) := do
  if (← getBuilder).terminal then return []
  let finished ← finishMessage
  let ended ← terminate (fun r => { r with status := .incomplete, incompleteDetails := some reason })
    .responseIncomplete
  return finished ++ [ended]

/-- The MCP calls among the items of a completed turn. -/
def completeMcpCalls : List Json → Build (List Event)
  | [] => return []
  | item :: items => do
    let events ← (match (dict? item).filter fun ms => hasType ms "mcpToolCall" with
      | some call => completeMcpCall call
      | none => pure [])
    return events ++ (← completeMcpCalls items)

/-- The text of the last `agentMessage` of a completed turn. -/
def syncFinalText (turn : Members) : Build (List Event) :=
  let (finalText, itemId) := lastAgentMessage turn
  if finalText = "" then pure [] else syncCompletedMessage finalText itemId

/-- The terminal event of a completed turn, by its status. -/
def endTurn (turn : Members) : Build Event :=
  let status := ((status? (turn.get "status")).filter (· ≠ "")).getD "completed"
  if status = "completed" then terminate (fun r => { r with status := .completed }) .responseCompleted
  else if status = "interrupted" then
    terminate (fun r => { r with status := .incomplete, incompleteDetails := some "cancelled" })
      .responseIncomplete
  else
    let message := errorMessage ((dict? (turn.get "error")).getD turn)
    terminate (fun r => { r with status := .failed, error := some ⟨"codex_turn_failed", message⟩ })
      .responseFailed

/-- `_complete_turn` -/
def completeTurn (turn : Members) : Build (List Event) := do
  if (← getBuilder).terminal then return []
  let calls ← completeMcpCalls ((list? (turn.get "items")).getD [])
  let synced ← syncFinalText turn
  let finished ← finishMessage
  setRecord { ← getRecord with usage := usageFromTurn turn }
  let ended ← endTurn turn
  return calls ++ synced ++ finished ++ [ended]

/-- `item/started` -/
def consumeItemStarted (params : Members) : Build (List Event) :=
  match (dict? (params.get "item")).filter fun ms => hasType ms "mcpToolCall" with
  | some item => startMcpCall item
  | none => return []

/-- `item/agentMessage/delta` -/
def consumeDelta (params : Members) : Build (List Event) :=
  match string? (params.get "delta") with
  | some delta => appendText delta (str? (params.get "itemId"))
  | none => return []

/-- `item/completed` -/
def consumeItemCompleted (params : Members) : Build (List Event) :=
  match dict? (params.get "item") with
  | none => return []
  | some item =>
    if hasType item "agentMessage" then
      syncCompletedMessage (agentMessage item).1 (agentMessage item).2
    else if hasType item "mcpToolCall" then completeMcpCall item
    else return []

/-- `error` and `turn/error` -/
def consumeError (params : Members) : Build (List Event) :=
  if isTrue (params.get "willRetry") then return [] else fail (errorMessage params)

/-- `consume`: a notification of the worker. -/
def consume (notification : Members) : Build (List Event) :=
  match str? (notification.get "method"), dict? (notification.get "params") with
  | some method, some params =>
    if method = "item/started" then consumeItemStarted params
    else if method = "item/agentMessage/delta" then consumeDelta params
    else if method = "item/completed" then consumeItemCompleted params
    else if method = "turn/completed" then completeTurn ((dict? (params.get "turn")).getD [])
    else if method = "error" ∨ method = "turn/error" then consumeError params
    else return []
  | _, _ => return []

end ResponsesEventBuilder

end CodexGateway.Adapter
