import CodexGateway.Library.Climb
import CodexGateway.OpenWebui.Terminal

/-!
# OpenWebui/Continuation — the Response that a new message continues

A request continues the Response of the nearest answer above its message.  The walk up the chat
passes over answers that came to nothing, and counts the messages of the user that no Response has
seen; that many are cut off the end of the input and forwarded.

The walk goes on only through messages with ids the bridge accepts, and what it finds is taken only
where it is bound to the Workspace of the chat and to the caller (`inject_continues`).
-/

namespace CodexGateway.OpenWebui

open PyJson SandboxApi

/-! ## The chat -/

/-- `HTTPException` -/
structure HttpException where
  statusCode : ℕ
  detail : String
  deriving DecidableEq

/-- Who asks. -/
structure User where
  id : String
  role : String

/-- The messages of a chat: `None` or an empty dictionary where there is none. -/
structure Chat where
  message : String → Option Members
  ids : Finset String
  mem_ids : ∀ id ms, message id = some ms → ms ≠ [] → id ∈ ids

/-- `_valid_message_id`, with the id. -/
def messageId? (value : Json) : Option String :=
  (text? value).filter fun id => 1 ≤ id.length && id.length ≤ 128 &&
    id.toList.all fun c => c.isAlphanum || c = '_' || c = '-'

/-- `_require_message` -/
def Chat.requireMessage (chat : Chat) (id role : String) : Except HttpException Members :=
  let message := (chat.message id).getD []
  if message = [] ∨ text? (message.get "role") ≠ some role then
    .error ⟨404, role.capitalize ++ " message not found"⟩
  else .ok message

/-- `get_response_binding` -/
def getResponseBinding (bindings : List ResponseBinding) (chatId id : String) :
    Option ResponseBinding :=
  (bindings.find? (·.assistantMessageId = id)).filter (·.chatId = chatId)

/-- `_await_response_binding`, which reads the binding as often as the time lets it. -/
def awaitResponseBinding (bindings : List ResponseBinding) (chatId id : String) :
    ℕ → Option ResponseBinding
  | 0 => none
  | polls + 1 =>
    (getResponseBinding bindings chatId id).or (awaitResponseBinding bindings chatId id polls)

/-! ## The walk -/

/-- The stores and services a request is prepared with. -/
structure Services where
  enabled : Bool
  terminalGrantTtlSeconds : ℤ
  /-- The owner of the chat, where `get_chat_by_id_for_user` finds it. -/
  chatOwner : String → User → Option String
  chat : String → Chat
  bindings : List ResponseBinding
  polls : ℕ
  getWorkspace : String → Option String
  ensureChatWorkspace : String → Except HttpException String
  awaitCaptureBarriers : String → Except HttpException Unit
  /-- `_checkout_grant`, given the chat, the Workspace, the Sandbox, the user, the metadata, and the
  ids of the two messages. -/
  checkoutGrant : String → String → Option String → User → Members → String → String →
    Except HttpException (String × List String)
  /-- `_grant`, given the operation, the audience, the lifetime and the claims. -/
  grant : String → String → Option ℤ → Members → String
  /-- `uuid.uuid4().hex` -/
  uuid : String
  /-- How an f-string writes a value. -/
  format : Json → String

/-- The message has text or other output. -/
def hasOutput (message : Members) : Bool :=
  truthy (message.get "content") || truthy (message.get "output")

/-- The message has failed or is done. -/
def isOver (message : Members) : Bool :=
  truthy (message.get "error") || truthy (message.get "done")

namespace Services

variable (s : Services)

/-- The binding of an answer that is read, with a wait where the answer has not failed. -/
def responseBinding (chatId id : String) (message : Members) : Option ResponseBinding :=
  (getResponseBinding s.bindings chatId id).or
    (if truthy (message.get "error") then none
    else awaitResponseBinding s.bindings chatId id s.polls)

/-- One round of the loop of `_previous_response_binding`: what it returns or raises, or the link to
the answer before. -/
def visit (chatId id : String) : Except HttpException (Option ResponseBinding) ⊕ Json :=
  match (s.chat chatId).requireMessage id "assistant" with
  | .error e => .inl (.error e)
  | .ok message =>
    match s.responseBinding chatId id message with
    | some binding => .inl (.ok (some binding))
    | none =>
      if hasOutput message || !isOver message then
        .inl (.error ⟨409, "Previous Response binding is not ready"⟩)
      else match messageId? (message.get "parentId") with
        | none => .inl (.ok none)
        | some parentId =>
          match (s.chat chatId).requireMessage parentId "user" with
          | .error e => .inl (.error e)
          | .ok parent => .inr (parent.get "parentId")

theorem mem_ids_of_visit {chatId id : String} {link : Json}
    (h : s.visit chatId id = .inr link) : id ∈ (s.chat chatId).ids := by
  have hmessage : ∃ message, (s.chat chatId).requireMessage id "assistant" = .ok message := by
    rw [visit] at h
    split at h
    · cases h
    · exact ⟨_, ‹_›⟩
  obtain ⟨message, hmessage⟩ := hmessage
  rw [Chat.requireMessage] at hmessage
  split_ifs at hmessage with habsent
  obtain ⟨hne, -⟩ := not_or.mp habsent
  cases hstored : (s.chat chatId).message id with
  | none => simp [hstored] at hne
  | some ms => exact (s.chat chatId).mem_ids id ms hstored (by simpa [hstored] using hne)

/-- The answers of a chat, as the walk sees them. -/
def terrain (chatId : String) :
    Terrain Json String (Except HttpException (Option ResponseBinding)) where
  place := messageId?
  visit := s.visit chatId
  places := (s.chat chatId).ids
  mem_places _ _ := s.mem_ids_of_visit

/-- `_previous_response_binding` -/
def previousResponseBinding (chatId : String) (messageId : Json) :
    Except HttpException (Option ResponseBinding × ℕ) :=
  match (s.terrain chatId).climb messageId ∅ 1 with
  | (.ended, pending) => .ok (none, pending)
  | (.cycle, _) => .error ⟨409, "Chat message ancestry is invalid"⟩
  | (.answer (.ok binding), pending) => .ok (binding, pending)
  | (.answer (.error e), _) => .error e

end Services

/-! ## The request -/

/-- An item of the input that is a user's message. -/
def userItem : Json → Bool
  | .obj item => text? (Members.get item "role") = some "user"
  | _ => false

/-- `user_indices` -/
def userIndices (inputs : List Json) : List ℕ :=
  (inputs.zipIdx.filter fun p => userItem p.1).map Prod.snd

/-- `inputs[user_indices[-pending]:]` -/
def pendingInput (inputs : List Json) (pending : ℕ) : List Json :=
  let indices := userIndices inputs
  inputs.drop (indices.getD (indices.length - pending) 0)

/-- The ids of a chat and of the two messages of a turn. -/
structure TurnIds where
  chatId : String
  userMessageId : String
  assistantMessageId : String

/-- The ids in the metadata, where the request is of a chat. -/
def turnIds (metadata : Members) : Option TurnIds := do
  let chatId ← (text? (metadata.get "chat_id")).filter fun id =>
    id ≠ "" && ! "channel:".toList.isPrefixOf id.toList
  let userMessageId ← messageId? (metadata.get "user_message_id")
  let assistantMessageId ←
    messageId? (orElse (metadata.get "assistant_message_id") (metadata.get "message_id"))
  return { chatId, userMessageId, assistantMessageId }

/-- `user_message.get("parentId")` -/
def parentLink (metadata : Members) : Json :=
  match metadata.get "user_message" with
  | .obj message => Members.get message "parentId"
  | _ => .null

namespace Services

variable (s : Services)

/-- `require_chat_write` -/
def requireChatWrite (chatId : String) (user : User) : Except HttpException Unit :=
  match s.chatOwner chatId user with
  | none => .error ⟨404, "Chat not found"⟩
  | some owner =>
    if owner ≠ user.id ∧ user.role ≠ "admin" then .error ⟨404, "Chat not found"⟩ else .ok ()

/-- `existing_workspace_id or await ensure_chat_workspace(chat_id)` -/
def workspaceOf (chatId : String) : Except HttpException String :=
  match (s.getWorkspace chatId).filter (· ≠ "") with
  | some workspaceId => .ok workspaceId
  | none => s.ensureChatWorkspace chatId

/-- The payload with the Response it continues, and the number of messages that are pending. -/
def continuation (user : User) (metadata : Members) (ids : TurnIds) (workspaceId : String)
    (payload : Members) : Except HttpException (Members × ℕ) :=
  if truthy (payload.get "previous_response_id") then .ok (payload, 1)
  else match messageId? (parentLink metadata) with
    | none => .ok (payload, 1)
    | some _ => do
      let (binding, pending) ← s.previousResponseBinding ids.chatId (parentLink metadata)
      match binding with
      | none => return (payload, pending)
      | some binding =>
        if binding.workspaceId ≠ workspaceId ∨ binding.ownerUserId ≠ user.id then
          throw ⟨409, "Previous Response binding changed"⟩
        return (insertPair payload "previous_response_id" (.str binding.responseId), pending)

/-- The input that is forwarded. -/
def cutInput (payload : Members) (pending : ℕ) : Members :=
  match payload.get "input" with
  | .arr inputs =>
    if pending ≤ (userIndices inputs).length then
      insertPair payload "input" (.arr (pendingInput inputs pending))
    else payload
  | _ => payload

/-- `note` -/
def note (assistantMessageId : String) (paths : List String) : String :=
  let outputPath := "/workspace/outputs/" ++ assistantMessageId
  "\n".intercalate (["Use /workspace/work as the working directory.",
    "Write files for this answer under " ++ outputPath ++ ".",
    "Reference generated files as sandbox:" ++ outputPath ++ "/<relative_path>."] ++
    if paths = [] then []
    else "Attached files are read-only:" :: paths.map fun path => "- /workspace/" ++ path)

/-- The grants in the metadata of the payload, and the note in its instructions. -/
def withGrants (user : User) (ids : TurnIds) (workspaceId workspaceGrant checkoutGrant : String)
    (paths : List String) (payload : Members) : Members :=
  let publishGrant := s.grant "response_terminal" "open-webui-transfer"
    (some s.terminalGrantTtlSeconds)
    [("chat_id", .str ids.chatId), ("workspace_id", .str workspaceId), ("user_id", .str user.id),
      ("user_message_id", .str ids.userMessageId),
      ("assistant_message_id", .str ids.assistantMessageId)]
  let responseMetadata := match payload.get "metadata" with
    | .obj ms => ms
    | _ => []
  let responseMetadata := insertPair (insertPair (insertPair responseMetadata
    "agent_workspace_grant" (.str workspaceGrant)) "agent_publish_grant" (.str publishGrant))
    "agent_checkout_grant" (.str checkoutGrant)
  let instructions := payload.get "instructions"
  let note := note ids.assistantMessageId paths
  insertPair (insertPair payload "metadata" (.obj responseMetadata)) "instructions"
    (.str (if truthy instructions then s.format instructions ++ "\n\n" ++ note else note))

/-- `inject_workspace_context`, once the Workspace is known. -/
def prepareTurn (user : User) (metadata : Members) (ids : TurnIds) (workspaceId : String)
    (payload : Members) : Except HttpException Members := do
  let (payload, pending) ← s.continuation user metadata ids workspaceId payload
  s.awaitCaptureBarriers workspaceId
  if truthy (payload.get "previous_response_id") then
    let (checkoutGrant, paths) ← s.checkoutGrant ids.chatId workspaceId none user metadata
      ids.userMessageId ids.assistantMessageId
    let workspaceGrant := s.grant "workspace_inspect" "sandbox-manager" none
      [("workspace_id", .str workspaceId)]
    return s.withGrants user ids workspaceId workspaceGrant checkoutGrant paths
      (cutInput payload pending)
  else
    let sandboxId := "sandbox_" ++ s.uuid
    let (checkoutGrant, paths) ← s.checkoutGrant ids.chatId workspaceId (some sandboxId) user
      metadata ids.userMessageId ids.assistantMessageId
    let workspaceGrant := s.grant "sandbox_create" "sandbox-manager" none
      [("workspace_id", .str workspaceId), ("sandbox_id", .str sandboxId)]
    return s.withGrants user ids workspaceId workspaceGrant checkoutGrant paths payload

/-- `inject_workspace_context`, for a request of a chat. -/
def injectTurn (user : User) (metadata : Members) (ids : TurnIds) (payload : Members) :
    Except HttpException Members := do
  s.requireChatWrite ids.chatId user
  let _ ← (s.chat ids.chatId).requireMessage ids.userMessageId "user"
  if ((s.chat ids.chatId).message ids.assistantMessageId).any
      fun message => text? (message.get "role") ≠ some "assistant" then
    throw ⟨409, "Assistant message binding is invalid"⟩
  let workspaceId ← s.workspaceOf ids.chatId
  s.prepareTurn user metadata ids workspaceId payload

/-- `inject_workspace_context` -/
def injectWorkspaceContext (user : User) (metadata : Json) (payload : Members) :
    Except HttpException Members :=
  match metadata with
  | .obj metadata =>
    if !s.enabled then .ok payload
    else if truthy (Members.get metadata "task") then
      .ok (payload.filter fun member => member.1 ≠ "max_output_tokens")
    else if truthy (Members.get metadata "internal") then .ok payload
    else match turnIds metadata with
      | none => .ok payload
      | some ids => s.injectTurn user metadata ids payload
  | _ => .ok payload

end Services

/-! ## What is meant -/

/-- A message of the user with the answer to it. -/
structure Turn where
  user : String
  answer : String

/-- The ids of a turn are ids of messages. -/
def Turn.Valid (turn : Turn) : Prop :=
  messageId? (.str turn.user) = some turn.user ∧ messageId? (.str turn.answer) = some turn.answer

/-- The parent links lead from `link` up through the turns, the newest first. -/
def Chat.Leads (chat : Chat) : Json → List Turn → Json → Prop
  | link, [], top => link = top
  | link, turn :: turns, top => link = .str turn.answer ∧ ∃ answer question,
      chat.requireMessage turn.answer "assistant" = .ok answer ∧
      answer.get "parentId" = .str turn.user ∧
      chat.requireMessage turn.user "user" = .ok question ∧
      Leads chat (question.get "parentId") turns top

/-- The answer has no output, and is over. -/
def Chat.isEmptyAnswer (chat : Chat) (id : String) : Bool :=
  match chat.requireMessage id "assistant" with
  | .ok message => !hasOutput message && isOver message
  | .error _ => false

/-- The request is of a chat, and passes the checks before the walk. -/
structure Request (s : Services) (user : User) (metadata : Members) (ids : TurnIds)
    (workspaceId : String) : Prop where
  enabled : s.enabled = true
  task : truthy (metadata.get "task") = false
  internal : truthy (metadata.get "internal") = false
  turnIds : turnIds metadata = some ids
  writable : s.requireChatWrite ids.chatId user = .ok ()
  question : ∃ message, (s.chat ids.chatId).requireMessage ids.userMessageId "user" = .ok message
  answer : ((s.chat ids.chatId).message ids.assistantMessageId).any
    (fun message => text? (message.get "role") ≠ some "assistant") = false
  workspace : s.workspaceOf ids.chatId = .ok workspaceId

/-- Above the new message are `later`, which no Response is bound to, and `turn`, which is bound. -/
structure Ancestry (s : Services) (metadata : Members) (ids : TurnIds) (later : List Turn)
    (turn : Turn) (earlier : List Turn) (binding : ResponseBinding) : Prop where
  leads : ∃ top, (s.chat ids.chatId).Leads (parentLink metadata) (later ++ turn :: earlier) top
  unbound : ∀ t ∈ later, getResponseBinding s.bindings ids.chatId t.answer = none
  bound : getResponseBinding s.bindings ids.chatId turn.answer = some binding
  /-- The id of a Response is `resp_…`. -/
  named : binding.responseId ≠ ""

/-- `rest` is the part of the input that starts at the first of the messages `later`, and the
messages `earlier` are before it; `item` is how a message stands in the input. -/
structure StartsAt (item : String → Json) (earlier later : List String)
    (inputs rest : List Json) : Prop where
  split : ∃ before, inputs = before ++ rest ∧ before.filter userItem = earlier.map item
  users : rest.filter userItem = later.map item
  head : rest.head? = later.head?.map item

/-! ## The walk finds what is meant -/

section Walk

variable {s : Services} {chatId id : String} {message answer question : Members} {link top : Json}
  {turns later earlier : List Turn} {turn : Turn} {binding : ResponseBinding}

theorem awaitResponseBinding_eq_none {bindings : List ResponseBinding}
    (h : getResponseBinding bindings chatId id = none) (polls : ℕ) :
    awaitResponseBinding bindings chatId id polls = none := by
  induction polls with
  | zero => rfl
  | succ polls ih => rw [awaitResponseBinding, h, ih]; rfl

theorem responseBinding_eq (message : Members) :
    s.responseBinding chatId id message = getResponseBinding s.bindings chatId id := by
  rw [Services.responseBinding]
  cases h : getResponseBinding s.bindings chatId id with
  | none =>
    rw [awaitResponseBinding_eq_none h]
    simp
  | some binding => rfl

theorem visit_bound (hmessage : (s.chat chatId).requireMessage id "assistant" = .ok message)
    (hbound : getResponseBinding s.bindings chatId id = some binding) :
    s.visit chatId id = .inl (.ok (some binding)) := by
  simp only [Services.visit, hmessage, responseBinding_eq, hbound]

theorem visit_stuck (hmessage : (s.chat chatId).requireMessage id "assistant" = .ok message)
    (hunbound : getResponseBinding s.bindings chatId id = none)
    (hstuck : (s.chat chatId).isEmptyAnswer id = false) :
    s.visit chatId id = .inl (.error ⟨409, "Previous Response binding is not ready"⟩) := by
  simp only [Chat.isEmptyAnswer, hmessage] at hstuck
  have hcond : (hasOutput message || !isOver message) = true := by
    rw [← Bool.not_eq_false', Bool.not_or, Bool.not_not, hstuck]
  simp only [Services.visit, hmessage, responseBinding_eq, hunbound, hcond, if_true]

theorem visit_empty (hmessage : (s.chat chatId).requireMessage id "assistant" = .ok answer)
    (hunbound : getResponseBinding s.bindings chatId id = none)
    (hempty : (s.chat chatId).isEmptyAnswer id = true)
    {parentId : String} (hparent : messageId? (answer.get "parentId") = some parentId)
    (hquestion : (s.chat chatId).requireMessage parentId "user" = .ok question) :
    s.visit chatId id = .inr (question.get "parentId") := by
  simp only [Chat.isEmptyAnswer, hmessage] at hempty
  have hcond : (hasOutput answer || !isOver answer) = false := by
    rw [← Bool.not_eq_true', Bool.not_or, Bool.not_not, hempty]
  simp only [Services.visit, hmessage, responseBinding_eq, hunbound, hcond, hparent, hquestion]
  rfl

/-- The walk passes over the answers that are empty. -/
theorem climbs_of_leads (h : (s.chat chatId).Leads link turns top)
    (hvalid : ∀ t ∈ turns, t.Valid)
    (hunbound : ∀ t ∈ turns, getResponseBinding s.bindings chatId t.answer = none)
    (hempty : ∀ t ∈ turns, (s.chat chatId).isEmptyAnswer t.answer = true) :
    (s.terrain chatId).Climbs link (turns.map Turn.answer) top := by
  induction turns generalizing link with
  | nil => exact h
  | cons t turns ih =>
    obtain ⟨rfl, answer, question, hanswer, hparent, hquestion, hrest⟩ := h
    obtain ⟨huser, hplace⟩ := hvalid t List.mem_cons_self
    rw [← hparent] at huser
    refine ⟨hplace, question.get "parentId", ?_, ih hrest ?_ ?_ ?_⟩
    · exact visit_empty hanswer (hunbound t List.mem_cons_self) (hempty t List.mem_cons_self) huser
        hquestion
    · exact fun t ht => hvalid t (List.mem_cons_of_mem _ ht)
    · exact fun t ht => hunbound t (List.mem_cons_of_mem _ ht)
    · exact fun t ht => hempty t (List.mem_cons_of_mem _ ht)

/-- The links lead to the turn that comes after some of them. -/
theorem Chat.Leads.split {chat : Chat} (h : chat.Leads link (later ++ turn :: earlier) top) :
    chat.Leads link later (.str turn.answer) ∧
      ∃ message, chat.requireMessage turn.answer "assistant" = .ok message := by
  induction later generalizing link with
  | nil =>
    obtain ⟨hlink, answer, -, hanswer, -⟩ := h
    exact ⟨hlink, answer, hanswer⟩
  | cons t later ih =>
    obtain ⟨hlink, answer, question, hanswer, hparent, hquestion, hrest⟩ := h
    obtain ⟨hlater, hturn⟩ := ih hrest
    exact ⟨⟨hlink, answer, question, hanswer, hparent, hquestion, hlater⟩, hturn⟩

/-- **The nearest bound answer is found**, and the messages since are counted. -/
theorem previousResponseBinding_bound
    (hleads : (s.chat chatId).Leads link (later ++ turn :: earlier) top)
    (hvalid : ∀ t ∈ later, t.Valid)
    (hturn : messageId? (.str turn.answer) = some turn.answer)
    (hunbound : ∀ t ∈ later, getResponseBinding s.bindings chatId t.answer = none)
    (hempty : ∀ t ∈ later, (s.chat chatId).isEmptyAnswer t.answer = true)
    (hbound : getResponseBinding s.bindings chatId turn.answer = some binding) :
    s.previousResponseBinding chatId link = .ok (some binding, 1 + later.length) := by
  obtain ⟨hlater, message, hmessage⟩ := hleads.split
  have hclimbs := climbs_of_leads hlater hvalid hunbound hempty
  have hclimb := Terrain.climb_to_answer hclimbs hturn (visit_bound hmessage hbound) 1
  rw [Services.previousResponseBinding, hclimb, List.length_map]

/-- An answer that runs, or has output, is not passed over. -/
theorem previousResponseBinding_stuck (hleads : (s.chat chatId).Leads link later top)
    (hvalid : ∀ t ∈ later, t.Valid)
    (hunbound : ∀ t ∈ later, getResponseBinding s.bindings chatId t.answer = none)
    (hstuck : ∃ t ∈ later, (s.chat chatId).isEmptyAnswer t.answer = false) :
    s.previousResponseBinding chatId link =
      .error ⟨409, "Previous Response binding is not ready"⟩ := by
  obtain ⟨t, ht, hbad⟩ := hstuck
  have hsome : (later.find? fun t => !(s.chat chatId).isEmptyAnswer t.answer).isSome :=
    List.find?_isSome.mpr ⟨t, ht, by simp [hbad]⟩
  obtain ⟨u, hu⟩ := Option.isSome_iff_exists.mp hsome
  -- `u` is the first of them: the walk gets as far
  obtain ⟨hubad, xs, ys, rfl, hxs⟩ := List.find?_eq_some_iff_append.mp hu
  obtain ⟨hlater, message, hmessage⟩ := hleads.split
  have hclimbs := climbs_of_leads hlater (fun t ht => hvalid t (List.mem_append_left _ ht))
    (fun t ht => hunbound t (List.mem_append_left _ ht)) fun t ht => by simpa using hxs t ht
  have hvisit := visit_stuck hmessage (hunbound u (by simp)) (by simpa using hubad)
  have hclimb := Terrain.climb_to_answer hclimbs (hvalid u (by simp)).2 hvisit 1
  rw [Services.previousResponseBinding, hclimb]

/-- Links that come back to an answer are found out. -/
theorem previousResponseBinding_cycle
    (hleads : (s.chat chatId).Leads link turns (.str turn.answer))
    (hvalid : ∀ t ∈ turns, t.Valid)
    (hunbound : ∀ t ∈ turns, getResponseBinding s.bindings chatId t.answer = none)
    (hempty : ∀ t ∈ turns, (s.chat chatId).isEmptyAnswer t.answer = true)
    (hnodup : (turns.map Turn.answer).Nodup) (hturn : turn ∈ turns) :
    s.previousResponseBinding chatId link =
      .error ⟨409, "Chat message ancestry is invalid"⟩ := by
  have hclimbs := climbs_of_leads hleads hvalid hunbound hempty
  have hclimb := Terrain.climb_cycle hclimbs hnodup (hvalid turn hturn).2
    (List.mem_map_of_mem hturn) 1
  rw [Services.previousResponseBinding, hclimb]

end Walk

/-! ## The input is cut where it is meant to be -/

section Input

variable {item : String → Json} {before rest inputs : List Json} {earlier later : List String}

theorem length_filter_zipIdx (inputs : List Json) (n : ℕ) :
    ((inputs.zipIdx n).filter fun p => userItem p.1).length = (inputs.filter userItem).length := by
  induction inputs generalizing n with
  | nil => rfl
  | cons input inputs ih =>
    rw [List.zipIdx_cons, List.filter_cons, List.filter_cons]
    split_ifs
    · rw [List.length_cons, List.length_cons, ih]
    · exact ih _

theorem length_userIndices (inputs : List Json) :
    (userIndices inputs).length = (inputs.filter userItem).length := by
  rw [userIndices, List.length_map, length_filter_zipIdx]

/-- **The index from the end is the one from the front**, where a message of the user is first. -/
theorem pendingInput_append {first : Json} (hfirst : userItem first = true) :
    pendingInput (before ++ first :: rest) ((first :: rest).filter userItem).length =
      first :: rest := by
  have hindices : userIndices (before ++ first :: rest) = userIndices before ++
      before.length :: ((rest.zipIdx (before.length + 1)).filter fun p => userItem p.1).map
        Prod.snd := by
    rw [userIndices, List.zipIdx_append, List.zipIdx_cons, List.filter_append, List.map_append,
      List.filter_cons_of_pos (by exact hfirst), List.map_cons, userIndices, Nat.zero_add]
  have hlength : (userIndices (before ++ first :: rest)).length -
      ((first :: rest).filter userItem).length = (userIndices before).length := by
    rw [length_userIndices, length_userIndices, List.filter_append, List.length_append,
      Nat.add_sub_cancel]
  have hindex : (userIndices (before ++ first :: rest)).getD (userIndices before).length 0 =
      before.length := by
    rw [hindices, List.getD_eq_getElem?_getD, List.getElem?_append_right le_rfl, Nat.sub_self]
    rfl
  rw [pendingInput, hlength, hindex]
  exact List.drop_left

/-- Where the users' items are known, the part that starts at one of them is. -/
theorem exists_startsAt {user : String}
    (h : inputs.filter userItem = (earlier ++ user :: later).map item) :
    ∃ rest, StartsAt item earlier (user :: later) inputs rest ∧
      pendingInput inputs (later.length + 1) = rest := by
  rw [List.map_append, List.filter_eq_append_iff] at h
  obtain ⟨before, rest, rfl, hbefore, hrest⟩ := h
  rw [List.map_cons, List.filter_eq_cons_iff] at hrest
  obtain ⟨others, last, rfl, hothers, hfirst, hlast⟩ := hrest
  have hrest : (item user :: last).filter userItem = (user :: later).map item := by
    rw [List.filter_cons_of_pos hfirst, hlast, List.map_cons]
  refine ⟨item user :: last, ⟨⟨before ++ others, ?_, ?_⟩, hrest, rfl⟩, ?_⟩
  · rw [List.append_assoc]
  · rw [List.filter_append, hbefore, List.filter_eq_nil_iff.mpr hothers, List.append_nil]
  · have hcut := @pendingInput_append (before ++ others) last (item user) hfirst
    rw [hrest, List.length_map, List.length_cons, List.append_assoc] at hcut
    exact hcut

end Input

/-! ## The request -/

section Prepare

variable {s : Services} {user : User} {metadata payload : Members} {ids : TurnIds}
  {workspaceId : String} {later earlier : List Turn} {turn : Turn} {binding : ResponseBinding}

theorem inject_eq_prepareTurn (h : Request s user metadata ids workspaceId) (payload : Members) :
    s.injectWorkspaceContext user (.obj metadata) payload =
      s.prepareTurn user metadata ids workspaceId payload := by
  obtain ⟨message, hmessage⟩ := h.question
  simp only [Services.injectWorkspaceContext, h.enabled, h.task, h.internal, h.turnIds,
    Services.injectTurn, h.writable, hmessage, h.answer, h.workspace]
  rfl

theorem prepareTurn_error {e : HttpException}
    (h : s.continuation user metadata ids workspaceId payload = .error e) :
    s.prepareTurn user metadata ids workspaceId payload = .error e := by
  rw [Services.prepareTurn, h]
  rfl

theorem continuation_error (hprevious : truthy (payload.get "previous_response_id") = false)
    {parentId : String} (hlink : messageId? (parentLink metadata) = some parentId)
    {e : HttpException}
    (h : s.previousResponseBinding ids.chatId (parentLink metadata) = .error e) :
    s.continuation user metadata ids workspaceId payload = .error e := by
  simp only [Services.continuation, hprevious, hlink, h]
  rfl

theorem continuation_bound (hprevious : truthy (payload.get "previous_response_id") = false)
    {parentId : String} (hlink : messageId? (parentLink metadata) = some parentId) {pending : ℕ}
    (h : s.previousResponseBinding ids.chatId (parentLink metadata) =
      .ok (some binding, pending)) :
    s.continuation user metadata ids workspaceId payload =
      if binding.workspaceId ≠ workspaceId ∨ binding.ownerUserId ≠ user.id then
        .error ⟨409, "Previous Response binding changed"⟩
      else
        .ok (insertPair payload "previous_response_id" (.str binding.responseId), pending) := by
  by_cases hcond : binding.workspaceId ≠ workspaceId ∨ binding.ownerUserId ≠ user.id
  · simp only [Services.continuation, hprevious, hlink, h, bind, Except.bind, if_pos hcond]
    rfl
  · simp only [Services.continuation, hprevious, hlink, h, bind, Except.bind, if_neg hcond]
    rfl

/-- The grants and the note leave the other keys of the payload as they are. -/
theorem get_withGrants {key : String} (hmetadata : key ≠ "metadata")
    (hinstructions : key ≠ "instructions") (workspaceGrant checkoutGrant : String)
    (paths : List String) (payload : Members) :
    Members.get (s.withGrants user ids workspaceId workspaceGrant checkoutGrant paths payload) key =
      payload.get key := by
  rw [Services.withGrants, Members.get_insertPair, if_neg hinstructions, Members.get_insertPair,
    if_neg hmetadata]

theorem get_cutInput_previous (payload : Members) (pending : ℕ) :
    Members.get (Services.cutInput payload pending) "previous_response_id" =
      payload.get "previous_response_id" := by
  unfold Services.cutInput
  split
  · split_ifs
    · rw [Members.get_insertPair, if_neg (by decide)]
    · rfl
  · rfl

theorem get_cutInput_input {inputs : List Json} (hinput : payload.get "input" = .arr inputs)
    {pending : ℕ} (hpending : pending ≤ (userIndices inputs).length) :
    Members.get (Services.cutInput payload pending) "input" =
      .arr (pendingInput inputs pending) := by
  simp only [Services.cutInput, hinput, if_pos hpending, Members.get_insertPair, if_true]

theorem messageId?_of_leads {chat : Chat} {link top : Json} {turns : List Turn}
    (h : chat.Leads link turns top) (hturns : turns ≠ []) (hvalid : ∀ t ∈ turns, t.Valid) :
    ∃ parentId, messageId? link = some parentId := by
  cases turns with
  | nil => exact absurd rfl hturns
  | cons t turns =>
    obtain ⟨rfl, -⟩ := h
    exact ⟨t.answer, (hvalid t List.mem_cons_self).2⟩

/-- The messages of the user on a path, the oldest first. -/
def users (turns : List Turn) : List String := (turns.map Turn.user).reverse

/-- The request continues the Response of `turn`, and forwards the input from the message after. -/
def Continues (s : Services) (user : User) (metadata payload : Members) (ids : TurnIds)
    (later : List Turn) (turn : Turn) (earlier : List Turn) (binding : ResponseBinding)
    (item : String → Json) (inputs : List Json) : Prop :=
  ∃ result rest, s.injectWorkspaceContext user (.obj metadata) payload = .ok result ∧
    Members.get result "previous_response_id" = .str binding.responseId ∧
    Members.get result "input" = .arr rest ∧
    StartsAt item (users (turn :: earlier)) (users later ++ [ids.userMessageId]) inputs rest

/-- What comes after the walk returns. -/
structure Unhindered (s : Services) (user : User) (metadata : Members) (ids : TurnIds)
    (workspaceId : String) : Prop where
  barriers : s.awaitCaptureBarriers workspaceId = .ok ()
  checkout : ∃ checkoutGrant, s.checkoutGrant ids.chatId workspaceId none user metadata
    ids.userMessageId ids.assistantMessageId = .ok checkoutGrant

theorem users_append : users (later ++ turn :: earlier) =
    users (turn :: earlier) ++ users later := by
  rw [users, List.map_append, List.reverse_append]
  rfl

/-- **The payload of a request that continues a Response.** -/
theorem continues_of_continuation (hrequest : Request s user metadata ids workspaceId)
    (hfree : Unhindered s user metadata ids workspaceId) (hnamed : binding.responseId ≠ "")
    (hcontinuation : s.continuation user metadata ids workspaceId payload =
      .ok (insertPair payload "previous_response_id" (.str binding.responseId), 1 + later.length))
    {item : String → Json} {inputs : List Json} (hinput : payload.get "input" = .arr inputs)
    (husers : inputs.filter userItem =
      (users (later ++ turn :: earlier) ++ [ids.userMessageId]).map item) :
    Continues s user metadata payload ids later turn earlier binding item inputs := by
  obtain ⟨checkoutGrant, hcheckout⟩ := hfree.checkout
  have hsplit : users (later ++ turn :: earlier) ++ [ids.userMessageId] =
      users (turn :: earlier) ++ (users later ++ [ids.userMessageId]) := by
    rw [users_append, List.append_assoc]
  have hlength : (users later ++ [ids.userMessageId]).length = 1 + later.length := by
    rw [List.length_append, users, List.length_reverse, List.length_map, List.length_singleton,
      Nat.add_comm]
  obtain ⟨first, others, hothers⟩ : ∃ first others,
      users later ++ [ids.userMessageId] = first :: others :=
    List.exists_cons_of_ne_nil (by simp)
  obtain ⟨rest, hstarts, hrest⟩ := exists_startsAt (hothers ▸ hsplit ▸ husers)
  rw [← hothers] at hstarts
  have hpending : others.length + 1 = 1 + later.length := by
    rw [← hlength, hothers, List.length_cons]
  have htruthy : truthy (.str binding.responseId) = true := by simp [truthy, hnamed]
  have hcount : 1 + later.length ≤ (userIndices inputs).length := by
    rw [length_userIndices, husers, hsplit, List.length_map, List.length_append, hlength]
    exact Nat.le_add_left ..
  have hinput' : Members.get (insertPair payload "previous_response_id" (.str binding.responseId))
      "input" = .arr inputs := by
    rw [Members.get_insertPair, if_neg (by decide), hinput]
  refine ⟨s.withGrants user ids workspaceId
    (s.grant "workspace_inspect" "sandbox-manager" none [("workspace_id", .str workspaceId)])
    checkoutGrant.1 checkoutGrant.2
    (Services.cutInput (insertPair payload "previous_response_id" (.str binding.responseId))
      (1 + later.length)), rest, ?_, ?_, ?_, hstarts⟩
  · rw [inject_eq_prepareTurn hrequest]
    simp only [Services.prepareTurn, hcontinuation, hfree.barriers, bind, Except.bind,
      Members.get_insertPair, if_true, htruthy, hcheckout]
    rfl
  · rw [get_withGrants (by decide) (by decide), get_cutInput_previous, Members.get_insertPair,
      if_pos rfl]
  · rw [get_withGrants (by decide) (by decide), get_cutInput_input hinput' hcount, ← hpending,
      hrest]

/-- The binding is of the Workspace of the chat, and of the caller. -/
def Matches (binding : ResponseBinding) (workspaceId : String) (user : User) : Prop :=
  binding.workspaceId = workspaceId ∧ binding.ownerUserId = user.id

/-- **A new message continues the Response of the nearest bound answer above it**, and the input
from the message after that answer on is forwarded; an answer in between that runs or has output
stops it, and so do links that form a cycle. -/
theorem inject_continues (hrequest : Request s user metadata ids workspaceId)
    (hprevious : truthy (payload.get "previous_response_id") = false) :
    (∀ later turn earlier binding, Ancestry s metadata ids later turn earlier binding →
      (∀ t ∈ later, t.Valid) → messageId? (.str turn.answer) = some turn.answer →
        ((∀ t ∈ later, (s.chat ids.chatId).isEmptyAnswer t.answer = true) →
          (Matches binding workspaceId user → Unhindered s user metadata ids workspaceId →
            ∀ item inputs, payload.get "input" = .arr inputs →
              inputs.filter userItem =
                (users (later ++ turn :: earlier) ++ [ids.userMessageId]).map item →
              Continues s user metadata payload ids later turn earlier binding item inputs) ∧
          (¬ Matches binding workspaceId user →
            s.injectWorkspaceContext user (.obj metadata) payload =
              .error ⟨409, "Previous Response binding changed"⟩)) ∧
        ((∃ t ∈ later, (s.chat ids.chatId).isEmptyAnswer t.answer = false) →
          s.injectWorkspaceContext user (.obj metadata) payload =
            .error ⟨409, "Previous Response binding is not ready"⟩)) ∧
      ∀ turns, ∀ turn ∈ turns,
        (s.chat ids.chatId).Leads (parentLink metadata) turns (.str turn.answer) →
        (turns.map Turn.answer).Nodup → (∀ t ∈ turns, t.Valid) →
        (∀ t ∈ turns, getResponseBinding s.bindings ids.chatId t.answer = none) →
        (∀ t ∈ turns, (s.chat ids.chatId).isEmptyAnswer t.answer = true) →
        s.injectWorkspaceContext user (.obj metadata) payload =
          .error ⟨409, "Chat message ancestry is invalid"⟩ := by
  refine ⟨fun later turn earlier binding hancestry hvalid hturn => ?_,
    fun turns turn hturn hleads hnodup hvalid hunbound hempty => ?_⟩
  · obtain ⟨top, hleads⟩ := hancestry.leads
    obtain ⟨parentId, hlink⟩ : ∃ parentId, messageId? (parentLink metadata) = some parentId := by
      cases later with
      | nil => exact ⟨_, hleads.1 ▸ hturn⟩
      | cons t later => exact ⟨_, hleads.1 ▸ (hvalid t List.mem_cons_self).2⟩
    refine ⟨fun hempty => ⟨fun hmatches hfree item inputs hinput husers => ?_, fun hforeign => ?_⟩,
      fun hstuck => ?_⟩
    · have hwalk := previousResponseBinding_bound hleads hvalid hturn hancestry.unbound
        hempty hancestry.bound
      have hsame : ¬ (binding.workspaceId ≠ workspaceId ∨ binding.ownerUserId ≠ user.id) :=
        not_or.mpr ⟨not_not.mpr hmatches.1, not_not.mpr hmatches.2⟩
      exact continues_of_continuation hrequest hfree hancestry.named
        ((continuation_bound hprevious hlink hwalk).trans (if_neg hsame)) hinput husers
    · have hwalk := previousResponseBinding_bound hleads hvalid hturn hancestry.unbound
        hempty hancestry.bound
      rw [inject_eq_prepareTurn hrequest]
      refine prepareTurn_error ((continuation_bound hprevious hlink hwalk).trans (if_pos ?_))
      exact not_and_or.mp hforeign
    · have hwalk := previousResponseBinding_stuck hleads.split.1 hvalid hancestry.unbound hstuck
      rw [inject_eq_prepareTurn hrequest]
      exact prepareTurn_error (continuation_error hprevious hlink hwalk)
  · obtain ⟨parentId, hlink⟩ := messageId?_of_leads hleads (List.ne_nil_of_mem hturn) hvalid
    have hwalk := previousResponseBinding_cycle hleads hvalid hunbound hempty hnodup hturn
    rw [inject_eq_prepareTurn hrequest]
    exact prepareTurn_error (continuation_error hprevious hlink hwalk)

end Prepare

/-! ## A chat -/

/-- A chat with the messages given. -/
def chatOf (messages : List (String × Members)) : Chat where
  message id := messages.lookup id
  ids := (messages.map Prod.fst).toFinset
  mem_ids id ms h _ := by
    obtain ⟨before, after, rfl, -⟩ := List.lookup_eq_some_iff.mp h
    simp

/-- Everything is granted, in the chat with these messages. -/
def services (messages : List (String × Members)) (bindings : List ResponseBinding) : Services where
  enabled := true
  terminalGrantTtlSeconds := 60
  chatOwner _ _ := some "owner"
  chat _ := chatOf messages
  bindings := bindings
  polls := 2
  getWorkspace _ := some "w"
  ensureChatWorkspace _ := .ok "w"
  awaitCaptureBarriers _ := .ok ()
  checkoutGrant _ _ _ _ _ _ _ := .ok ("checkout", [])
  grant operation _ _ _ := operation
  uuid := "0"
  format _ := ""

/-- A question, with what it answers. -/
def questionMessage (parent : Json) : Members := [("role", .str "user"), ("parentId", parent)]

/-- An answer, with what it answers and the fields it has besides. -/
def answerMessage (parent : String) (rest : Members) : Members :=
  [("role", .str "assistant"), ("parentId", .str parent)] ++ rest

/-- The input item of a question. -/
def inputItem (id : String) : Json := .obj [("role", .str "user"), ("content", .str id)]

/-- The input item of an answer. -/
def outputItem (text : String) : Json := .obj [("role", .str "assistant"), ("content", .str text)]

/-- The metadata of the message `u` under the answer `a`. -/
def metadataOf (u a : String) : Members :=
  [("chat_id", .str "c"), ("user_message_id", .str u), ("assistant_message_id", .str "new"),
    ("user_message", .obj [("parentId", .str a)])]

/-- The binding of an answer to its Response. -/
def bindingOf (a : String) : ResponseBinding := ⟨a, "c", "resp_1", "w", "owner"⟩

/-- The first answer is bound, the second one failed. -/
def retryChat : List (String × Members) :=
  [("u1", questionMessage .null), ("a1", answerMessage "u1" [("content", .str "done")]),
    ("u2", questionMessage (.str "a1")), ("a2", answerMessage "u2" [("error", .str "rejected")]),
    ("u3", questionMessage (.str "a2"))]

/-- The input of a turn after an answer without a text. -/
def retryInput : List Json :=
  [inputItem "u1", outputItem "done", inputItem "u2", outputItem "", inputItem "u3"]

/-- The chat of that turn, with the first answer bound. -/
def retryServices : Services := services retryChat [bindingOf "a1"]

theorem request_retry : Request retryServices ⟨"owner", "user"⟩ (metadataOf "u3" "a2")
    ⟨"c", "u3", "new"⟩ "w" where
  enabled := rfl
  task := rfl
  internal := rfl
  turnIds := rfl
  writable := rfl
  question := ⟨_, rfl⟩
  answer := rfl
  workspace := rfl

theorem ancestry_retry : Ancestry retryServices (metadataOf "u3" "a2") ⟨"c", "u3", "new"⟩
    [⟨"u2", "a2"⟩] ⟨"u1", "a1"⟩ [] (bindingOf "a1") where
  leads := ⟨.null, rfl, _, _, rfl, rfl, rfl, rfl, _, _, rfl, rfl, rfl, rfl⟩
  unbound t ht := by
    obtain rfl := List.mem_singleton.mp ht
    rfl
  bound := rfl
  named := by decide

/-- The message after a failed one is sent together with it. -/
theorem inject_continues_retry : Continues retryServices ⟨"owner", "user"⟩ (metadataOf "u3" "a2")
    [("input", .arr retryInput)] ⟨"c", "u3", "new"⟩ [⟨"u2", "a2"⟩] ⟨"u1", "a1"⟩ [] (bindingOf "a1")
    inputItem retryInput := by
  have hvalid : ∀ t ∈ [(⟨"u2", "a2"⟩ : Turn)], t.Valid := by
    intro t ht
    obtain rfl := List.mem_singleton.mp ht
    exact ⟨rfl, rfl⟩
  have hempty : ∀ t ∈ [(⟨"u2", "a2"⟩ : Turn)],
      (retryServices.chat "c").isEmptyAnswer t.answer = true := by
    intro t ht
    obtain rfl := List.mem_singleton.mp ht
    rfl
  exact (((inject_continues request_retry rfl).1 _ _ _ _ ancestry_retry hvalid rfl).1 hempty).1
    ⟨rfl, rfl⟩ ⟨rfl, _, rfl⟩ inputItem retryInput rfl rfl

/-! ## Where nothing is continued -/

/-- Every request that meets a condition continues the Response above it, where only empty answers
are in between. -/
def ContinueWhere (cond : User → Members → String → List Turn → ResponseBinding → Prop) : Prop :=
  ∀ s user metadata payload ids workspaceId later turn earlier binding item inputs,
    Request s user metadata ids workspaceId →
    Ancestry s metadata ids later turn earlier binding →
    (∀ t ∈ later, (s.chat ids.chatId).isEmptyAnswer t.answer = true) →
    Unhindered s user metadata ids workspaceId →
    Members.get payload "input" = .arr inputs →
    inputs.filter userItem = (users (later ++ turn :: earlier) ++ [ids.userMessageId]).map item →
    cond user payload workspaceId (later ++ [turn]) binding →
    Continues s user metadata payload ids later turn earlier binding item inputs

/-- The message `u2` is under the bound answer `a`. -/
def nextServices (a : String) : Services :=
  services [("u1", questionMessage .null), (a, answerMessage "u1" [("content", .str "done")]),
    ("u2", questionMessage (.str a))] [bindingOf a]

/-- The input of a turn after an answer with a text. -/
def nextInput : List Json := [inputItem "u1", outputItem "done", inputItem "u2"]

section Next

variable {a : String} (ha : a = "a1" ∨ a = "a.1")

include ha

theorem request_next {user : User} (huser : user = ⟨"owner", "user"⟩ ∨ user = ⟨"root", "admin"⟩) :
    Request (nextServices a) user (metadataOf "u2" a) ⟨"c", "u2", "new"⟩ "w" where
  enabled := rfl
  task := rfl
  internal := rfl
  turnIds := rfl
  writable := by rcases huser with rfl | rfl <;> rfl
  question := by rcases ha with rfl | rfl <;> exact ⟨_, rfl⟩
  answer := by rcases ha with rfl | rfl <;> rfl
  workspace := rfl

theorem ancestry_next : Ancestry (nextServices a) (metadataOf "u2" a) ⟨"c", "u2", "new"⟩ []
    ⟨"u1", a⟩ [] (bindingOf a) where
  leads := by
    rcases ha with rfl | rfl
    · exact ⟨.null, rfl, _, _, rfl, rfl, rfl, rfl⟩
    · exact ⟨.null, rfl, _, _, rfl, rfl, rfl, rfl⟩
  unbound t ht := absurd ht List.not_mem_nil
  bound := by rcases ha with rfl | rfl <;> rfl
  named := by simp [bindingOf]

/-- What a condition that the request for `u2` meets says of it. -/
theorem ContinueWhere.next {cond : User → Members → String → List Turn → ResponseBinding → Prop}
    (h : ContinueWhere cond) {user : User}
    (huser : user = ⟨"owner", "user"⟩ ∨ user = ⟨"root", "admin"⟩) (payload : Members)
    (hinput : payload.get "input" = .arr nextInput)
    (hcond : cond user payload "w" [⟨"u1", a⟩] (bindingOf a)) :
    ∃ result, (nextServices a).injectWorkspaceContext user (.obj (metadataOf "u2" a)) payload =
      .ok result ∧ Members.get result "previous_response_id" = .str "resp_1" := by
  have hcontinues := h _ user _ payload _ _ _ _ _ _ inputItem nextInput (request_next ha huser)
    (ancestry_next ha) (fun _ ht => absurd ht List.not_mem_nil) ⟨rfl, _, rfl⟩ hinput rfl hcond
  obtain ⟨result, -, hresult, hprevious, -⟩ := hcontinues
  exact ⟨result, hresult, hprevious⟩

end Next

/-- **The binding of somebody else, an id the bridge does not accept, and a Response that the
request names itself** each keep it from continuing the Response above. -/
theorem not_inject_continues :
    ¬ ContinueWhere (fun _ payload _ turns _ =>
      truthy (payload.get "previous_response_id") = false ∧ ∀ t ∈ turns, t.Valid) ∧
    ¬ ContinueWhere (fun user payload workspaceId _ binding =>
      truthy (payload.get "previous_response_id") = false ∧ Matches binding workspaceId user) ∧
    ¬ ContinueWhere (fun user _ workspaceId turns binding =>
      (∀ t ∈ turns, t.Valid) ∧ Matches binding workspaceId user) := by
  have hvalid : ∀ t ∈ [(⟨"u1", "a1"⟩ : Turn)], t.Valid := fun t ht => by
    obtain rfl := List.mem_singleton.mp ht
    exact ⟨rfl, rfl⟩
  refine ⟨fun h => ?_, fun h => ?_, fun h => ?_⟩
  · obtain ⟨result, hresult, -⟩ := h.next (.inl rfl) (.inr rfl) [("input", .arr nextInput)] rfl
      ⟨rfl, hvalid⟩
    have hwalk : (nextServices "a1").previousResponseBinding "c" (.str "a1") =
        .ok (some (bindingOf "a1"), 1) :=
      previousResponseBinding_bound (ancestry_next (.inl rfl)).leads.choose_spec
        (fun _ ht => absurd ht List.not_mem_nil) rfl (fun _ ht => absurd ht List.not_mem_nil)
        (fun _ ht => absurd ht List.not_mem_nil) rfl
    rw [inject_eq_prepareTurn (request_next (.inl rfl) (.inr rfl)),
      prepareTurn_error ((continuation_bound rfl rfl hwalk).trans (if_pos (.inr (by decide))))]
      at hresult
    cases hresult
  · obtain ⟨result, hresult, hprevious⟩ := h.next (.inr rfl) (.inl rfl)
      [("input", .arr nextInput)] rfl ⟨rfl, rfl, rfl⟩
    have hnone : ((nextServices "a.1").injectWorkspaceContext ⟨"owner", "user"⟩
        (.obj (metadataOf "u2" "a.1")) [("input", .arr nextInput)]).map
          (fun result => Members.get result "previous_response_id") = .ok .null := rfl
    rw [hresult] at hnone
    exact absurd (hprevious.symm.trans (Except.ok.inj hnone)) (by simp)
  · obtain ⟨result, hresult, hprevious⟩ := h.next (.inl rfl) (.inl rfl)
      [("input", .arr nextInput), ("previous_response_id", .str "resp_0")] rfl ⟨hvalid, rfl, rfl⟩
    have hother : ((nextServices "a1").injectWorkspaceContext ⟨"owner", "user"⟩
        (.obj (metadataOf "u2" "a1")) [("input", .arr nextInput),
          ("previous_response_id", .str "resp_0")]).map
          (fun result => Members.get result "previous_response_id") = .ok (.str "resp_0") := rfl
    rw [hresult] at hother
    exact absurd (hprevious.symm.trans (Except.ok.inj hother)) (by simp)

end CodexGateway.OpenWebui
