import CodexGateway.Library.Mutex
import CodexGateway.OpenWebui.Continuation

/-!
# OpenWebui/BindCall — the calls that attach uploaded files to their message

An intent whose Artifact is uploaded is bound to the message of its Response: the file is
registered, the entry is appended to the files of the message, what was saved is read again, the
binding is inserted, and only then is the intent `ready`.

The files are read, extended and written back as a whole, which is why the calls of a chat share a
lock (`bindPublished_mutex`).  Each of the awaited calls may fail or be cancelled, done or not.
-/

namespace CodexGateway.OpenWebui

open PyJson SandboxApi

/-! ## The intents -/

/-- The descriptor of an uploaded Artifact, in which the intent's Artifact is named. -/
structure Descriptor where
  members : Members
  artifactId : String
  named : members.get "artifact_id" = .str artifactId

/-- What is read of an intent. -/
structure UploadedIntent where
  id : String
  ownerUserId : String
  descriptor : Option Descriptor
  attempts : ℕ

/-- The states of an intent. -/
inductive IntentState where
  | pending
  | captured
  | uploading
  | uploaded
  | retryable
  | bindingRetry
  | ready
  | failed
  deriving DecidableEq

/-- What is written of an intent. -/
structure IntentStatus where
  state : IntentState
  nextAttemptAt : ℤ
  error : Option String

/-- The intents of a message; their ids are the primary key. -/
structure MessageIntents where
  messageId : String
  intents : List UploadedIntent
  distinct : (intents.map (·.id)).Nodup
  publishRetryLimit : ℕ
  publishReconcileSeconds : ℤ

/-- `_retry_intent` -/
def MessageIntents.retryIntent (p : MessageIntents) (intent : UploadedIntent) (now : ℤ)
    (error : String) (binding : Bool) : IntentStatus where
  state :=
    if binding then .bindingRetry
    else if intent.attempts ≥ p.publishRetryLimit then .failed
    else .retryable
  nextAttemptAt := now + min 300 (p.publishReconcileSeconds * 2 ^ min intent.attempts 4)
  error := some (String.ofList (error.toList.take 1000))

/-! ## The stores -/

/-- A row of Open WebUI's files. -/
structure WebUiFile where
  id : String
  userId : String
  hash : Json
  filename : Json
  size : Json
  mediaType : Json

/-- A row that says which Artifact a file is. -/
structure FileArtifact where
  fileId : String
  artifactId : String
  ownerUserId : String
  descriptor : Members

/-- A binding of the message. -/
structure MessageArtifact where
  artifactId : String
  direction : String
  filename : Json

/-- The chat, the tables of the bridge, the lock of the chat, and what its page was sent. -/
structure PublishState where
  chat : Option Chat
  files : List WebUiFile
  artifacts : List FileArtifact
  bindings : List MessageArtifact
  status : String → IntentStatus
  lock : Bool
  emitted : List Json

/-- `{**ms, **fields}` -/
def mergeMembers (ms fields : Members) : Members :=
  fields.foldl (fun merged field => insertPair merged field.1 field.2) ms

/-- `upsert_message_to_chat_by_id_and_message_id` -/
def Chat.upsertMessage (chat : Chat) (id : String) (fields : Members) : Chat where
  message := Function.update chat.message id
    (some (mergeMembers ((chat.message id).getD []) fields))
  ids := insert id chat.ids
  mem_ids i ms hms hne := by
    by_cases hi : i = id
    · exact hi ▸ Finset.mem_insert_self i _
    · rw [Function.update_of_ne hi] at hms
      exact Finset.mem_insert_of_mem (chat.mem_ids i ms hms hne)

namespace PublishState

variable (s : PublishState)

/-- `_require_message` of an assistant's message -/
def requireMessage (id : String) : Except HttpException Members :=
  match s.chat with
  | none => .error ⟨404, "Assistant message not found"⟩
  | some chat => chat.requireMessage id "assistant"

/-- `register_artifact_file`, in one transaction, where it does not raise. -/
def registerArtifactFile (fileId ownerUserId : String) (descriptor : Descriptor) :
    Option PublishState :=
  match s.files.find? (·.id = fileId), s.artifacts.find? (·.fileId = fileId) with
  | some _, none => none
  | some file, some binding =>
    if binding.artifactId ≠ descriptor.artifactId ∨ file.userId ≠ ownerUserId then none else some s
  | none, binding => do
    let hash ← descriptor.members.lookup "sha256"
    let filename ← descriptor.members.lookup "filename"
    let size ← descriptor.members.lookup "size"
    let mediaType ← descriptor.members.lookup "media_type"
    let files := s.files ++ [⟨fileId, ownerUserId, hash, filename, size, mediaType⟩]
    match binding with
    | none =>
      if s.artifacts.any (·.artifactId = descriptor.artifactId) then none
      else some { s with
        files := files
        artifacts := s.artifacts ++
          [⟨fileId, descriptor.artifactId, ownerUserId, descriptor.members⟩] }
    | some binding =>
      if binding.artifactId ≠ descriptor.artifactId then none else some { s with files := files }

/-- The files of a message are written. -/
def upsertFiles (id : String) (files : List Json) : PublishState :=
  { s with chat := s.chat.map (·.upsertMessage id [("files", .arr files)]) }

/-- `bind_message_artifact`, which leaves a binding of the Artifact as it is. -/
def bindMessageArtifact (binding : MessageArtifact) : PublishState :=
  if s.bindings.any (·.artifactId = binding.artifactId) then s
  else { s with bindings := s.bindings ++ [binding] }

/-- `update_publish_intent` -/
def updatePublishIntent (id : String) (status : IntentStatus) : PublishState :=
  { s with status := Function.update s.status id status }

end PublishState

/-! ## The files of a message -/

/-- `message.get("files")`, where it is a list. -/
def messageFiles (message : Members) : List Json :=
  match message.get "files" with
  | .arr files => files
  | _ => []

/-- `isinstance(item, dict) and item.get("id") == artifact_id` -/
def isArtifact (artifactId : String) : Json → Bool
  | .obj item => text? (Members.get item "id") = some artifactId
  | _ => false

/-- `any(item.get("id") == artifact_id for item in items)`, where no item before raises. -/
def anyArtifact (artifactId : String) : List Json → Option Bool
  | [] => some false
  | .obj item :: items =>
    if isArtifact artifactId (.obj item) then some true else anyArtifact artifactId items
  | _ :: _ => none

/-- The same of any value: an empty string or dictionary has no items. -/
def anyArtifactOf (artifactId : String) : Json → Option Bool
  | .arr items => anyArtifact artifactId items
  | .str "" | .obj [] => some false
  | _ => none

/-- `saved.get("files", [])` -/
def savedFiles (message : Members) : Json := (List.lookup "files" message).getD (.arr [])

/-- The entry of an Artifact, where the descriptor has a name and a size. -/
def Descriptor.entry (descriptor : Descriptor) : Option Json := do
  let filename ← descriptor.members.lookup "filename"
  let size ← descriptor.members.lookup "size"
  return .obj [
    ("type", .str "file"),
    ("id", .str descriptor.artifactId),
    ("name", filename),
    ("size", size),
    ("url", .str ("/api/agent/artifacts/" ++ descriptor.artifactId ++ "/download"))]

/-! ## A call -/

/-- What a call awaits once it has the descriptor, with the files it has read. -/
inductive BindStep where
  | message
  | register (files : List Json)
  | upsert (files : List Json)
  | saved
  | bind (filename saved : Json)
  | ready (saved : Json)
  | emitter (saved : Json)
  | emit (saved : Json)

/-- The place of a call. -/
inductive BindPhase where
  | lock
  | work (descriptor : Descriptor) (next : BindStep)
  | retry (error : String)
  | returned
  | retried
  | raised

/-- Whether the call has the lock. -/
def BindPhase.inside : BindPhase → Bool
  | .work _ _ | .retry _ => true
  | _ => false

/-- A call of `_bind_published`. -/
structure BindCall where
  intent : UploadedIntent
  phase : BindPhase

/-- What is awaited returns, or it raises or is cancelled, done or not. -/
inductive BindAction where
  | proceed (now : ℤ)
  | fail (now : ℤ) (done : Bool)

namespace MessageIntents

variable (p : MessageIntents)

/-- What the awaited call does to the stores. -/
def effect (s : PublishState) (intent : UploadedIntent) (now : ℤ) : BindPhase → PublishState
  | .work descriptor (.register _) =>
    (s.registerArtifactFile descriptor.artifactId intent.ownerUserId descriptor).getD s
  | .work _ (.upsert files) => s.upsertFiles p.messageId files
  | .work descriptor (.bind filename _) =>
    s.bindMessageArtifact ⟨descriptor.artifactId, "output", filename⟩
  | .work _ (.ready _) =>
    s.updatePublishIntent intent.id { s.status intent.id with state := .ready, error := none }
  | .work _ (.emit saved) => { s with emitted := s.emitted ++ [saved] }
  | .retry error => s.updatePublishIntent intent.id (p.retryIntent intent now error true)
  | _ => s

/-- `_bind_published_locked` after the registration: the entry is appended where there is none. -/
def registered (descriptor : Descriptor) (files : List Json) : BindPhase :=
  if files.any (isArtifact descriptor.artifactId) then .work descriptor .saved
  else match descriptor.entry with
    | none => .raised
    | some entry => .work descriptor (.upsert (files ++ [entry]))

/-- …and after the second read of the message. -/
def reread (descriptor : Descriptor) (message : Members) : BindPhase :=
  match anyArtifactOf descriptor.artifactId (savedFiles message) with
  | none => .raised
  | some false => .retry "Assistant attachment is not committed yet"
  | some true =>
    match descriptor.members.lookup "filename" with
    | none => .raised
    | some filename => .work descriptor (.bind filename (savedFiles message))

/-- `_bind_published_locked`, from one awaited call to the next. -/
def next (s : PublishState) (intent : UploadedIntent) : BindPhase → BindPhase
  | .lock =>
    match intent.descriptor with
    | none => .retry "Uploaded Artifact descriptor is missing"
    | some descriptor => .work descriptor .message
  | .work descriptor .message =>
    match s.requireMessage p.messageId with
    | .error _ => .retry "Assistant message is not committed yet"
    | .ok message => .work descriptor (.register (messageFiles message))
  | .work descriptor (.register files) =>
    match s.registerArtifactFile descriptor.artifactId intent.ownerUserId descriptor with
    | none => .raised
    | some _ => registered descriptor files
  | .work descriptor (.upsert _) =>
    match s.chat with
    | none => .retry "Assistant message could not be updated"
    | some _ => .work descriptor .saved
  | .work descriptor .saved =>
    match s.requireMessage p.messageId with
    | .error _ => .raised
    | .ok message => reread descriptor message
  | .work descriptor (.bind _ saved) => .work descriptor (.ready saved)
  | .work descriptor (.ready saved) => .work descriptor (.emitter saved)
  | .work descriptor (.emitter saved) => .work descriptor (.emit saved)
  | .work _ (.emit _) => .returned
  | .retry _ => .retried
  | phase => phase

/-- A call goes on; it has the lock until it is over. -/
def goto (s : PublishState) (t : BindCall) (phase : BindPhase) : PublishState × BindCall :=
  ({ s with lock := phase.inside }, { t with phase := phase })

/-- A step of `_bind_published`. -/
def act (s : PublishState) (t : BindCall) : BindAction → Option (PublishState × BindCall)
  | .proceed now =>
    match t.phase with
    | .lock => if s.lock then none else some (goto s t (p.next s t.intent t.phase))
    | .work _ _ | .retry _ =>
      some (goto (p.effect s t.intent now t.phase) t (p.next s t.intent t.phase))
    | .returned | .retried | .raised => none
  | .fail now done =>
    match t.phase with
    | .lock => some (s, { t with phase := .raised })
    | .work _ _ | .retry _ =>
      some (goto (if done then p.effect s t.intent now t.phase else s) t .raised)
    | .returned | .retried | .raised => none

end MessageIntents

/-- The calls of `_bind_published` for the intents of a message, each for the intent at a place. -/
def bindPublished (p : MessageIntents) : Pool.Program PublishState BindCall BindAction ℕ where
  act := p.act
  env s i := (p.intents[i]?).map fun intent => (s, [⟨intent, .lock⟩])

/-! ## What holds of the message -/

namespace MessageIntents

variable (p : MessageIntents)

/-- The message, or an empty dictionary. -/
def message (s : PublishState) : Members :=
  (s.chat.bind fun chat => chat.message p.messageId).getD []

/-- The files of the message. -/
def filesOf (s : PublishState) : List Json := messageFiles (p.message s)

/-- The chat has the message, as one of an assistant. -/
def Committed (s : PublishState) : Prop :=
  s.chat.isSome ∧ p.message s ≠ [] ∧ text? ((p.message s).get "role") = some "assistant"

/-- The Artifact is in the files. -/
def Attached (s : PublishState) (artifactId : String) : Prop :=
  (p.filesOf s).any (isArtifact artifactId) = true

end MessageIntents

/-- The Artifact is bound to the message. -/
def PublishState.Binds (s : PublishState) (artifactId : String) : Prop :=
  ∃ binding ∈ s.bindings, binding.artifactId = artifactId

/-- How often an Artifact is in a list of files. -/
def countArtifact (artifactId : String) (files : List Json) : ℕ :=
  files.countP (isArtifact artifactId)

/-- The Artifact is bound, and in the files once, or as often as it was there before. -/
structure MessageIntents.Published (p : MessageIntents) (before : List Json) (s : PublishState)
    (artifactId : String) : Prop where
  count : countArtifact artifactId (p.filesOf s) = max 1 (countArtifact artifactId before)
  binding : s.Binds artifactId

section Files

variable {p : MessageIntents} {s s' : PublishState} {artifactId : String} {files : List Json}

theorem requireMessage_eq_ok {message : Members} :
    s.requireMessage p.messageId = .ok message ↔ p.Committed s ∧ message = p.message s := by
  cases hchat : s.chat with
  | none => simp [PublishState.requireMessage, MessageIntents.Committed, hchat]
  | some chat =>
    have hmessage : p.message s = (chat.message p.messageId).getD [] := by
      rw [MessageIntents.message, hchat]
      rfl
    simp only [PublishState.requireMessage, Chat.requireMessage, MessageIntents.Committed, hchat,
      hmessage, Option.isSome_some, true_and]
    split_ifs with habsent
    · constructor
      · intro h
        cases h
      · rintro ⟨⟨hne, hrole⟩, -⟩
        exact absurd habsent (not_or.mpr ⟨hne, not_not.mpr hrole⟩)
    · obtain ⟨hne, hrole⟩ := not_or.mp habsent
      exact ⟨fun h => ⟨⟨hne, not_not.mp hrole⟩, (Except.ok.inj h).symm⟩, fun h => h.2 ▸ rfl⟩

theorem insertPair_ne_nil (ms : Members) (k : String) (v : Json) : insertPair ms k v ≠ [] := by
  rw [insertPair]
  split_ifs with hmem
  · intro hnil
    rw [List.map_eq_nil_iff.mp hnil] at hmem
    exact List.not_mem_nil hmem
  · simp

theorem message_upsertFiles (hchat : s.chat.isSome) :
    p.message (s.upsertFiles p.messageId files) =
      insertPair (p.message s) "files" (.arr files) := by
  obtain ⟨chat, hchat⟩ := Option.isSome_iff_exists.mp hchat
  simp [MessageIntents.message, PublishState.upsertFiles, hchat, Chat.upsertMessage, mergeMembers]

theorem filesOf_upsertFiles (hchat : s.chat.isSome) :
    p.filesOf (s.upsertFiles p.messageId files) = files := by
  rw [MessageIntents.filesOf, message_upsertFiles hchat, messageFiles, Members.get_insertPair,
    if_pos rfl]

theorem committed_upsertFiles (h : p.Committed s) :
    p.Committed (s.upsertFiles p.messageId files) := by
  refine ⟨by simpa [PublishState.upsertFiles] using h.1, ?_, ?_⟩
  · have hmessage : p.message (s.upsertFiles p.messageId files) =
        insertPair (p.message s) "files" (.arr files) := message_upsertFiles h.1
    exact hmessage ▸ insertPair_ne_nil _ _ _
  · rw [message_upsertFiles h.1, Members.get_insertPair, if_neg (by decide)]
    exact h.2.2

/-- A registration changes no more than the two tables of files. -/
theorem registerArtifactFile_eq {fileId ownerUserId : String} {descriptor : Descriptor}
    (h : s.registerArtifactFile fileId ownerUserId descriptor = some s') :
    ∃ files artifacts, s' = { s with files := files, artifacts := artifacts } := by
  rw [PublishState.registerArtifactFile] at h
  split at h
  · cases h
  · split_ifs at h
    exact ⟨s.files, s.artifacts, (Option.some.inj h).symm⟩
  · simp only [Option.bind_eq_bind, Option.bind_eq_some_iff] at h
    obtain ⟨hash, -, filename, -, size, -, mediaType, -, h⟩ := h
    split at h
    · split_ifs at h
      exact ⟨_, _, (Option.some.inj h).symm⟩
    · split_ifs at h
      exact ⟨_, s.artifacts, (Option.some.inj h).symm⟩

/-- The entry of an Artifact names it, and no other. -/
theorem isArtifact_entry {descriptor : Descriptor} {entry : Json}
    (h : descriptor.entry = some entry) :
    isArtifact artifactId entry = decide (descriptor.artifactId = artifactId) := by
  simp only [Descriptor.entry, Option.bind_eq_bind, Option.bind_eq_some_iff, Option.pure_def,
    Option.some.injEq] at h
  obtain ⟨filename, -, size, -, rfl⟩ := h
  have hid : Members.get [("type", .str "file"), ("id", .str descriptor.artifactId),
      ("name", filename), ("size", size),
      ("url", .str ("/api/agent/artifacts/" ++ descriptor.artifactId ++ "/download"))] "id" =
        .str descriptor.artifactId := rfl
  rw [isArtifact, hid, text?]
  simp

/-- What is read once more has the Artifact, where the files have it. -/
theorem anyArtifact_eq_some {items : List Json} {found : Bool}
    (h : anyArtifact artifactId items = some found) :
    found = items.any (isArtifact artifactId) := by
  induction items with
  | nil => exact (Option.some.inj h).symm
  | cons item items ih =>
    cases item with
    | obj item =>
      rw [anyArtifact] at h
      split_ifs at h with hitem
      · simp [← Option.some.inj h, hitem]
      · simp [ih h, hitem]
    | _ => cases h

theorem anyArtifactOf_savedFiles {message : Members} {found : Bool}
    (h : anyArtifactOf artifactId (savedFiles message) = some found) :
    found = (messageFiles message).any (isArtifact artifactId) := by
  have hget : message.get "files" = (List.lookup "files" message).getD .null := rfl
  rw [messageFiles, hget]
  rw [savedFiles] at h
  cases hfiles : List.lookup "files" message with
  | none =>
    rw [hfiles] at h
    exact (Option.some.inj h).symm
  | some files =>
    rw [hfiles, Option.getD_some] at h
    rw [Option.getD_some]
    cases files with
    | arr files => exact anyArtifact_eq_some h
    | _ =>
      -- An empty string or dictionary has no items, and any other value raises.
      rw [anyArtifactOf.eq_def] at h
      split at h <;> simp_all

end Files

/-! ## What holds of the stores, and of a call -/

/-- What holds of the stores: `committed` says that the message was there to begin with. -/
structure Publishing (p : MessageIntents) (committed : Prop) (before : List Json)
    (s : PublishState) : Prop where
  committed : committed → p.Committed s
  kept : before <+: p.filesOf s
  once : ∀ artifactId, countArtifact artifactId (p.filesOf s) ≤
    max 1 (countArtifact artifactId before)
  ready : ∀ intent ∈ p.intents, (s.status intent.id).state = .ready →
    ∃ descriptor, intent.descriptor = some descriptor ∧ p.Attached s descriptor.artifactId ∧
      s.Binds descriptor.artifactId

/-- What a call has read is what is there, as long as it has the lock. -/
def BindStep.Sound (p : MessageIntents) (s : PublishState) (descriptor : Descriptor) :
    BindStep → Prop
  | .message => True
  | .register files => p.Committed s ∧ files = p.filesOf s
  | .upsert files => p.Committed s ∧ ¬ p.Attached s descriptor.artifactId ∧
      ∃ entry, descriptor.entry = some entry ∧ files = p.filesOf s ++ [entry]
  | .saved | .bind _ _ => p.Attached s descriptor.artifactId
  | .ready _ | .emitter _ | .emit _ =>
    p.Attached s descriptor.artifactId ∧ s.Binds descriptor.artifactId

/-- What holds of a call in each of its phases. -/
def BindPhase.Sound (p : MessageIntents) (committed : Prop) (s : PublishState)
    (intent : UploadedIntent) : BindPhase → Prop
  | .lock | .raised => True
  | .work descriptor next => intent.descriptor = some descriptor ∧ next.Sound p s descriptor
  | .retry _ | .retried => committed → intent.descriptor = none
  | .returned => ∃ descriptor, intent.descriptor = some descriptor ∧
      p.Attached s descriptor.artifactId ∧ s.Binds descriptor.artifactId

/-- What holds of a call. -/
structure BindCall.Sound (p : MessageIntents) (committed : Prop) (s : PublishState)
    (t : BindCall) : Prop where
  mem : t.intent ∈ p.intents
  phase : t.phase.Sound p committed s t.intent

/-- What is attached or bound stays so. -/
structure Grows (p : MessageIntents) (s s' : PublishState) : Prop where
  attached : ∀ artifactId, p.Attached s artifactId → p.Attached s' artifactId
  binds : ∀ artifactId, s.Binds artifactId → s'.Binds artifactId

theorem Grows.refl (p : MessageIntents) (s : PublishState) : Grows p s s :=
  ⟨fun _ h => h, fun _ h => h⟩

section Effects

variable {p : MessageIntents} {committed : Prop} {before : List Json} {s : PublishState}
  {descriptor : Descriptor} {intent : UploadedIntent}

theorem attached_iff {artifactId : String} :
    p.Attached s artifactId ↔ 0 < countArtifact artifactId (p.filesOf s) := by
  rw [MessageIntents.Attached, List.any_eq_true, countArtifact, List.countP_pos_iff]

/-- **The entry of an Artifact that is not there is appended to the files as they are.** -/
theorem Publishing.upsert (h : Publishing p committed before s) {entry : Json}
    (hchat : s.chat.isSome) (hnew : ¬ p.Attached s descriptor.artifactId)
    (hentry : descriptor.entry = some entry) :
    Publishing p committed before (s.upsertFiles p.messageId (p.filesOf s ++ [entry])) ∧
      Grows p s (s.upsertFiles p.messageId (p.filesOf s ++ [entry])) ∧
      p.Attached (s.upsertFiles p.messageId (p.filesOf s ++ [entry])) descriptor.artifactId := by
  have hfiles : p.filesOf (s.upsertFiles p.messageId (p.filesOf s ++ [entry])) =
      p.filesOf s ++ [entry] := filesOf_upsertFiles hchat
  have hgrows : Grows p s (s.upsertFiles p.messageId (p.filesOf s ++ [entry])) := by
    refine ⟨fun artifactId hat => ?_, fun _ hbinds => hbinds⟩
    rw [MessageIntents.Attached, hfiles, List.any_append, Bool.or_eq_true]
    exact .inl hat
  refine ⟨⟨fun hcommitted => committed_upsertFiles (h.committed hcommitted), ?_,
    fun artifactId => ?_, fun intent hintent hready => ?_⟩, hgrows, ?_⟩
  · rw [hfiles]
    exact h.kept.trans (List.prefix_append _ _)
  · have honce := h.once artifactId
    rw [hfiles, countArtifact, List.countP_append, List.countP_singleton, isArtifact_entry hentry]
    by_cases hid : descriptor.artifactId = artifactId
    · have hzero : countArtifact artifactId (p.filesOf s) = 0 := by
        rw [attached_iff] at hnew
        rw [← hid]
        omega
      rw [countArtifact] at hzero
      simp only [hid, decide_true, if_true, hzero, zero_add]
      exact le_max_left 1 _
    · simpa [hid, countArtifact] using honce
  · obtain ⟨descriptor, hsome, hat, hbinds⟩ := h.ready intent hintent hready
    exact ⟨descriptor, hsome, hgrows.attached _ hat, hgrows.binds _ hbinds⟩
  · rw [MessageIntents.Attached, hfiles, List.any_append, Bool.or_eq_true]
    exact .inr (by simp [isArtifact_entry hentry])

theorem binds_bindMessageArtifact (binding : MessageArtifact) :
    (s.bindMessageArtifact binding).Binds binding.artifactId := by
  rw [PublishState.bindMessageArtifact]
  split_ifs with hany
  · obtain ⟨existing, hmem, heq⟩ := List.any_eq_true.mp hany
    exact ⟨existing, hmem, of_decide_eq_true heq⟩
  · exact ⟨binding, List.mem_append_right _ (List.mem_singleton_self _), rfl⟩

theorem Publishing.bind (h : Publishing p committed before s) (binding : MessageArtifact) :
    Publishing p committed before (s.bindMessageArtifact binding) ∧
      Grows p s (s.bindMessageArtifact binding) := by
  rw [PublishState.bindMessageArtifact]
  split_ifs with hany
  · exact ⟨h, .refl p s⟩
  · have hbinds (artifactId : String) (hold : s.Binds artifactId) :
        PublishState.Binds { s with bindings := s.bindings ++ [binding] } artifactId := by
      obtain ⟨existing, hmem, heq⟩ := hold
      exact ⟨existing, List.mem_append_left _ hmem, heq⟩
    refine ⟨⟨h.committed, h.kept, h.once, fun intent hintent hready => ?_⟩, fun _ hat => hat,
      hbinds⟩
    obtain ⟨descriptor, hsome, hat, hold⟩ := h.ready intent hintent hready
    exact ⟨descriptor, hsome, hat, hbinds _ hold⟩

/-- The intent with an id is one. -/
theorem MessageIntents.eq_of_id {intent other : UploadedIntent} (hintent : intent ∈ p.intents)
    (hother : other ∈ p.intents) (hid : intent.id = other.id) : intent = other :=
  List.inj_on_of_nodup_map p.distinct hintent hother hid

theorem status_updatePublishIntent (id : String) (status : IntentStatus) :
    (s.updatePublishIntent id status).status = Function.update s.status id status := rfl

/-- An intent is made ready once its Artifact is attached and bound. -/
theorem Publishing.update (h : Publishing p committed before s) (hintent : intent ∈ p.intents)
    {status : IntentStatus} (hready : status.state = .ready →
      ∃ descriptor, intent.descriptor = some descriptor ∧ p.Attached s descriptor.artifactId ∧
        s.Binds descriptor.artifactId) :
    Publishing p committed before (s.updatePublishIntent intent.id status) := by
  refine ⟨h.committed, h.kept, h.once, fun other hother hstate => ?_⟩
  by_cases hid : other.id = intent.id
  · obtain rfl := MessageIntents.eq_of_id hother hintent hid
    refine hready ?_
    rwa [status_updatePublishIntent, Function.update_self] at hstate
  · refine h.ready other hother ?_
    rwa [status_updatePublishIntent, Function.update_of_ne hid] at hstate

/-- **What a call awaits keeps what holds of the stores.** -/
theorem Publishing.effect (h : Publishing p committed before s) (now : ℤ)
    (hintent : intent ∈ p.intents) {phase : BindPhase} (hphase : phase.Sound p committed s intent) :
    Publishing p committed before (p.effect s intent now phase) ∧
      Grows p s (p.effect s intent now phase) := by
  cases phase with
  | work descriptor step =>
    obtain ⟨hsome, hstep⟩ := hphase
    cases step with
    | register files =>
      rw [MessageIntents.effect]
      cases hreg : s.registerArtifactFile descriptor.artifactId intent.ownerUserId descriptor with
      | none => exact ⟨h, .refl p s⟩
      | some s' =>
        obtain ⟨files, artifacts, rfl⟩ := registerArtifactFile_eq hreg
        exact ⟨⟨h.committed, h.kept, h.once, h.ready⟩, fun _ hat => hat, fun _ hbinds => hbinds⟩
    | upsert files =>
      obtain ⟨hthere, hnew, entry, hentry, rfl⟩ := hstep
      obtain ⟨hpub, hgrows, -⟩ := h.upsert hthere.1 hnew hentry
      exact ⟨hpub, hgrows⟩
    | bind filename saved => exact h.bind ⟨descriptor.artifactId, "output", filename⟩
    | ready saved =>
      exact ⟨h.update hintent fun _ => ⟨descriptor, hsome, hstep⟩, fun _ hat => hat,
        fun _ hbinds => hbinds⟩
    | emit saved =>
      exact ⟨⟨h.committed, h.kept, h.once, h.ready⟩, fun _ hat => hat, fun _ hbinds => hbinds⟩
    | message => exact ⟨h, .refl p s⟩
    | saved => exact ⟨h, .refl p s⟩
    | emitter saved => exact ⟨h, .refl p s⟩
  | retry error =>
    refine ⟨h.update hintent fun hready => ?_, fun _ hat => hat, fun _ hbinds => hbinds⟩
    cases hready
  | lock => exact ⟨h, .refl p s⟩
  | returned => exact ⟨h, .refl p s⟩
  | retried => exact ⟨h, .refl p s⟩
  | raised => exact ⟨h, .refl p s⟩

/-- A call that has registered the file appends its entry, or goes on where there is one. -/
theorem sound_registered (hthere : p.Committed s) (hsome : intent.descriptor = some descriptor) :
    (MessageIntents.registered descriptor (p.filesOf s)).Sound p committed s intent := by
  rw [MessageIntents.registered]
  split_ifs with hany
  · exact ⟨hsome, hany⟩
  · cases hentry : descriptor.entry with
    | none => trivial
    | some entry => exact ⟨hsome, hthere, hany, entry, hentry, rfl⟩

/-- What was attached is found once more, where the look at the files does not raise. -/
theorem sound_reread (hsome : intent.descriptor = some descriptor)
    (hat : p.Attached s descriptor.artifactId) :
    (MessageIntents.reread descriptor (p.message s)).Sound p committed s intent := by
  rw [MessageIntents.reread]
  split
  · trivial
  · rename_i hfound
    rw [MessageIntents.Attached, MessageIntents.filesOf, ← anyArtifactOf_savedFiles hfound] at hat
    cases hat
  · split
    · trivial
    · exact ⟨hsome, hat⟩

/-- **What a call awaits next is sound where it stands.** -/
theorem Publishing.next (h : Publishing p committed before s) (now : ℤ) {phase : BindPhase}
    (hphase : phase.Sound p committed s intent) :
    (p.next s intent phase).Sound p committed (p.effect s intent now phase) intent := by
  cases phase with
  | lock =>
    rw [MessageIntents.next]
    cases hsome : intent.descriptor with
    | none => exact fun _ => hsome
    | some descriptor => exact ⟨hsome, trivial⟩
  | work descriptor step =>
    obtain ⟨hsome, hstep⟩ := hphase
    cases step with
    | message =>
      rw [MessageIntents.next]
      cases hmessage : s.requireMessage p.messageId with
      | error e =>
        intro hcommitted
        rw [requireMessage_eq_ok.mpr ⟨h.committed hcommitted, rfl⟩] at hmessage
        cases hmessage
      | ok message =>
        obtain ⟨hthere, rfl⟩ := requireMessage_eq_ok.mp hmessage
        exact ⟨hsome, hthere, rfl⟩
    | register files =>
      obtain ⟨hthere, rfl⟩ := hstep
      rw [MessageIntents.next, MessageIntents.effect]
      cases hreg : s.registerArtifactFile descriptor.artifactId intent.ownerUserId descriptor with
      | none => trivial
      | some s' =>
        obtain ⟨files, artifacts, rfl⟩ := registerArtifactFile_eq hreg
        exact sound_registered (s := { s with files := files, artifacts := artifacts }) hthere hsome
    | upsert files =>
      obtain ⟨hthere, hnew, entry, hentry, rfl⟩ := hstep
      obtain ⟨-, -, hat⟩ := h.upsert hthere.1 hnew hentry
      obtain ⟨chat, hchat⟩ := Option.isSome_iff_exists.mp hthere.1
      rw [MessageIntents.next, hchat]
      exact ⟨hsome, hat⟩
    | saved =>
      rw [MessageIntents.next]
      cases hmessage : s.requireMessage p.messageId with
      | error e => trivial
      | ok message =>
        obtain ⟨-, rfl⟩ := requireMessage_eq_ok.mp hmessage
        exact sound_reread hsome hstep
    | bind filename saved =>
      exact ⟨hsome, (h.bind _).2.attached _ hstep, binds_bindMessageArtifact _⟩
    | ready saved => exact ⟨hsome, hstep⟩
    | emitter saved => exact ⟨hsome, hstep⟩
    | emit saved => exact ⟨descriptor, hsome, hstep⟩
  | retry error => exact hphase
  | returned => exact hphase
  | retried => exact hphase
  | raised => trivial

end Effects

/-! ## All calls -/

section Calls

variable {p : MessageIntents} {committed : Prop} {before : List Json} {s s' : PublishState}
  {t t' : BindCall} {a : BindAction}

/-- A call takes the lock, gives up waiting for it, goes on, or raises. -/
theorem act_cases (h : p.act s t a = some (s', t')) :
    (t.phase = .lock ∧ s.lock = false ∧
      (s', t') = MessageIntents.goto s t (p.next s t.intent t.phase)) ∨
    (t.phase = .lock ∧ (s', t') = (s, { t with phase := .raised })) ∨
    t.phase.inside = true ∧ ∃ now, (s', t') =
        MessageIntents.goto (p.effect s t.intent now t.phase) t (p.next s t.intent t.phase) ∨
      (s', t') = MessageIntents.goto (p.effect s t.intent now t.phase) t .raised ∨
      (s', t') = MessageIntents.goto s t .raised := by
  cases a with
  | proceed now =>
    rw [MessageIntents.act] at h
    cases hphase : t.phase with
    | lock =>
      rw [hphase] at h
      simp only at h
      split_ifs at h with hlock
      exact .inl ⟨rfl, Bool.eq_false_iff.mpr hlock, (Option.some.inj h).symm⟩
    | work descriptor step =>
      rw [hphase] at h
      exact .inr (.inr ⟨rfl, now, .inl (Option.some.inj h).symm⟩)
    | retry error =>
      rw [hphase] at h
      exact .inr (.inr ⟨rfl, now, .inl (Option.some.inj h).symm⟩)
    | _ =>
      rw [hphase] at h
      cases h
  | fail now done =>
    rw [MessageIntents.act] at h
    cases hphase : t.phase with
    | lock =>
      rw [hphase] at h
      exact .inr (.inl ⟨rfl, (Option.some.inj h).symm⟩)
    | work descriptor step =>
      rw [hphase] at h
      refine .inr (.inr ⟨rfl, now, .inr ?_⟩)
      cases done
      · exact .inr (Option.some.inj h).symm
      · exact .inl (Option.some.inj h).symm
    | retry error =>
      rw [hphase] at h
      refine .inr (.inr ⟨rfl, now, .inr ?_⟩)
      cases done
      · exact .inr (Option.some.inj h).symm
      · exact .inl (Option.some.inj h).symm
    | _ =>
      rw [hphase] at h
      cases h

/-- Only the lock has changed. -/
def LockOnly (s s' : PublishState) : Prop := ∃ lock, s' = { s with lock := lock }

theorem Publishing.lockOnly (h : Publishing p committed before s) (hs : LockOnly s s') :
    Publishing p committed before s' := by
  obtain ⟨lock, rfl⟩ := hs
  exact ⟨h.committed, h.kept, h.once, h.ready⟩

theorem Grows.lockOnly {m : PublishState} (h : Grows p s m) (hs : LockOnly m s') :
    Grows p s s' := by
  obtain ⟨lock, rfl⟩ := hs
  exact ⟨h.attached, h.binds⟩

theorem BindPhase.Sound.lockOnly {intent : UploadedIntent} {phase : BindPhase}
    (h : phase.Sound p committed s intent) (hs : LockOnly s s') :
    phase.Sound p committed s' intent := by
  obtain ⟨lock, rfl⟩ := hs
  exact h

/-- What a call outside relies on is only ever added to. -/
theorem BindPhase.Sound.grows {intent : UploadedIntent} {phase : BindPhase}
    (h : phase.Sound p committed s intent) (hout : phase.inside = false) (hs : Grows p s s') :
    phase.Sound p committed s' intent := by
  cases phase with
  | returned =>
    obtain ⟨descriptor, hsome, hat, hbinds⟩ := h
    exact ⟨descriptor, hsome, hs.attached _ hat, hs.binds _ hbinds⟩
  | lock => trivial
  | retried => exact h
  | raised => trivial
  | work descriptor step => cases hout
  | retry error => cases hout

theorem goto_eq {m : PublishState} {phase : BindPhase}
    (h : (s', t') = MessageIntents.goto m t phase) :
    LockOnly m s' ∧ s'.lock = phase.inside ∧ t' = { t with phase := phase } := by
  obtain ⟨rfl, rfl⟩ := Prod.mk.inj h
  exact ⟨⟨phase.inside, rfl⟩, rfl, rfl⟩

/-- **One step of one call.** -/
theorem act_sound (hs : Publishing p committed before s) (ht : t.Sound p committed s)
    (h : p.act s t a = some (s', t')) :
    Publishing p committed before s' ∧ t'.Sound p committed s' ∧ Grows p s s' ∧
      (t.phase.inside = true ∨ LockOnly s s') := by
  rcases act_cases h with ⟨hphase, -, hgoto⟩ | ⟨-, hraise⟩ | ⟨hin, now, hgoto⟩
  · obtain ⟨honly, -, rfl⟩ := goto_eq hgoto
    have hnext := hs.next 0 ht.phase
    rw [hphase] at hnext
    refine ⟨hs.lockOnly honly, ⟨ht.mem, ?_⟩, (Grows.refl p s).lockOnly honly, .inr honly⟩
    rw [hphase]
    exact hnext.lockOnly honly
  · obtain ⟨rfl, rfl⟩ := Prod.mk.inj hraise
    exact ⟨hs, ⟨ht.mem, trivial⟩, .refl p s', .inr ⟨s'.lock, rfl⟩⟩
  · obtain ⟨heffect, hgrows⟩ := hs.effect now ht.mem ht.phase
    rcases hgoto with hgoto | hgoto | hgoto
    · obtain ⟨honly, -, rfl⟩ := goto_eq hgoto
      exact ⟨heffect.lockOnly honly, ⟨ht.mem, (hs.next now ht.phase).lockOnly honly⟩,
        hgrows.lockOnly honly, .inl hin⟩
    · obtain ⟨honly, -, rfl⟩ := goto_eq hgoto
      exact ⟨heffect.lockOnly honly, ⟨ht.mem, trivial⟩, hgrows.lockOnly honly, .inl hin⟩
    · obtain ⟨honly, -, rfl⟩ := goto_eq hgoto
      exact ⟨hs.lockOnly honly, ⟨ht.mem, trivial⟩, (Grows.refl p s).lockOnly honly, .inl hin⟩

/-- A call that has the lock has taken it, or had it. -/
theorem act_enter (h : p.act s t a = some (s', t')) (hin : t'.phase.inside = true) :
    s'.lock = true ∧ (t.phase.inside = true ∨ ¬ s.lock = true) := by
  rcases act_cases h with ⟨-, hfree, hgoto⟩ | ⟨-, hraise⟩ | ⟨hold, now, hgoto⟩
  · obtain ⟨-, hlock, rfl⟩ := goto_eq hgoto
    exact ⟨hlock.trans hin, .inr (by simp [hfree])⟩
  · obtain ⟨-, rfl⟩ := Prod.mk.inj hraise
    cases hin
  · refine ⟨?_, .inl hold⟩
    rcases hgoto with hgoto | hgoto | hgoto
    all_goals
      obtain ⟨-, hlock, rfl⟩ := goto_eq hgoto
      exact hlock.trans hin

/-- A call that waits for the lock leaves it to the one that has it. -/
theorem act_outside (h : p.act s t a = some (s', t')) (hout : t.phase.inside = false)
    (hlock : s.lock = true) : s'.lock = true := by
  rcases act_cases h with ⟨-, hfree, -⟩ | ⟨-, hraise⟩ | ⟨hin, -⟩
  · exact absurd hlock (by simp [hfree])
  · obtain ⟨rfl, -⟩ := Prod.mk.inj hraise
    exact hlock
  · exact absurd hin (by simp [hout])

/-- **The calls for a message work on its files one after the other.** -/
theorem bindPublished_mutex (p : MessageIntents) (committed : Prop) (before : List Json) :
    Pool.Mutex (bindPublished p) (·.lock = true) (·.phase.inside) (Publishing p committed before)
      (fun s t => t.Sound p committed s) LockOnly (Grows p) where
  act _ _ _ _ _ hs ht h := act_sound hs ht h
  enter _ _ _ _ _ h hin := act_enter h hin
  outside _ _ _ _ _ h hout hlock := act_outside h hout hlock
  env s i s' ts hs h := by
    obtain ⟨intent, hintent, heq⟩ := Option.map_eq_some_iff.mp h
    obtain ⟨rfl, rfl⟩ := Prod.mk.inj heq
    refine ⟨hs, fun t ht => ?_, ⟨s.lock, rfl⟩, fun hlock => hlock⟩
    obtain rfl := List.mem_singleton.mp ht
    exact ⟨⟨List.mem_of_getElem? hintent, trivial⟩, rfl⟩
  frame _ _ _ hs ht := ⟨ht.mem, ht.phase.lockOnly hs⟩
  stable _ _ _ hout hs ht := ⟨ht.mem, ht.phase.grows hout hs⟩

/-- What is attached and bound, is so once. -/
theorem Publishing.published (h : Publishing p committed before s) {artifactId : String}
    (hat : p.Attached s artifactId) (hbinds : s.Binds artifactId) :
    p.Published before s artifactId := by
  refine ⟨?_, hbinds⟩
  have honce := h.once artifactId
  have hkept : countArtifact artifactId before ≤ countArtifact artifactId (p.filesOf s) :=
    h.kept.sublist.countP_le
  have hpos := attached_iff.mp hat
  omega

end Calls

end CodexGateway.OpenWebui
