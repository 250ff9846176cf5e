import CodexGateway.Library.JsonDict
import CodexGateway.Library.Machine
import CodexGateway.SandboxApi.ArtifactRefs
import CodexGateway.StorageOps.Capture

/-!
# StorageOps/Checkout — the one-shot task `checkout-batch`

`checkout_batch` downloads the Artifacts of a user message to a staging directory of its operation,
adds a manifest, and makes the whole visible as `uploads/<user message id>` by one rename.  A stage
is a point between two file or network operations, where the task may raise or be killed.

A file that is not there yet reads as `none`.  The file of a manifest is the value that has been
written to it, and `dumps` is its text; what else `_read_json_object` may find is `loads` of a text.
-/

namespace CodexGateway.StorageOps.Checkout

open PyJson SandboxApi

/-! ## The batch -/

/-- An item of the manifest. -/
structure PublicArtifact where
  artifactId : String
  filename : String
  size : ℕ
  sha256 : String
deriving DecidableEq

/-- The JSON object of `.agent-checkout.json`. -/
structure PublicManifest where
  userMessageId : String
  assistantMessageId : String
  artifacts : List PublicArtifact
deriving DecidableEq

/-- The arguments of `checkout-batch` but the operation id. -/
structure Batch where
  userMessageId : String
  assistantMessageId : String
  artifacts : List Members

/-- `_required_text` -/
def requiredText (value : Members) (name : String) : Except String String :=
  match value.get name with
  | .str item =>
    if item = "" then .error ("Operation " ++ name ++ " is invalid") else .ok item
  | _ => .error ("Operation " ++ name ++ " is invalid")

/-- `_positive_int` -/
def positiveInt (value : Members) (name : String) (allowZero : Bool) : Except String ℕ :=
  match value.get name with
  | .int item =>
    if item < (if allowZero then 0 else 1) then .error ("Operation " ++ name ++ " is invalid")
    else .ok item.toNat
  | _ => .error ("Operation " ++ name ++ " is invalid")

/-- `[a-f0-9]` -/
def hexDigit (c : Char) : Bool := ('a' ≤ c && c ≤ 'f') || ('0' ≤ c && c ≤ '9')

/-- `head[a-f0-9]{n}`, as a whole. -/
def hexText (head : Text) (n : ℕ) (value : Text) : Bool :=
  head.isPrefixOf value && (value.drop head.length).length = n &&
    (value.drop head.length).all hexDigit

/-- `Path(value).name` -/
def pathName (value : Text) : Text :=
  ((parts value).filter fun part => part ≠ [] && part ≠ ['.']).getLastD []

/-- `_safe_filename` -/
def safeFilename (value : String) : Except String String :=
  if value = "" ∨ 255 < value.length ∨ value = "." ∨ value = ".." ∨
      pathName value.toList ≠ value.toList ∨ '\x00' ∈ value.toList then
    .error "Checkout filename is invalid"
  else .ok value

/-- `_message_id` -/
def messageId (value : String) : Except String String :=
  if validMessageId value.toList then .ok value else .error "Message id is invalid"

/-- `_safe_operation_id` -/
def safeOperationId (value : String) : Except String String :=
  if hexText "operation_".toList 32 value.toList then .ok value
  else .error "Operation id is invalid"

/-- The item of one Artifact. -/
def publicArtifact (source : Members) : Except String PublicArtifact := do
  let artifactId ← requiredText source "artifact_id"
  let filename ← safeFilename (← requiredText source "filename")
  let size ← positiveInt source "size" true
  let sha256 := (← requiredText source "sha256").toLower
  if hexText "artifact_".toList 32 artifactId.toList = false then
    throw "Checkout Artifact id is invalid"
  if hexText [] 64 sha256.toList = false then
    throw "Checkout Artifact digest is invalid"
  return ⟨artifactId, filename, size, sha256⟩

/-- The loop of `_checkout_public_manifest`, after the items of `public`. -/
def publicArtifacts (pub : List PublicArtifact) :
    List Members → Except String (List PublicArtifact)
  | [] => .ok pub
  | source :: artifacts => do
    let item ← publicArtifact source
    if item.artifactId ∈ pub.map (·.artifactId) ∨ item.filename ∈ pub.map (·.filename) then
      throw "Checkout Artifact ids and filenames must be unique"
    publicArtifacts (pub ++ [item]) artifacts

/-- `_checkout_public_manifest` -/
def checkoutPublicManifest (batch : Batch) : Except String PublicManifest := do
  return ⟨batch.userMessageId, batch.assistantMessageId, ← publicArtifacts [] batch.artifacts⟩

/-- The checks before the Workspace is looked at. -/
def Batch.validate (batch : Batch) : Except String PublicManifest := do
  let _ ← messageId batch.userMessageId
  let _ ← messageId batch.assistantMessageId
  if 32 < batch.artifacts.length then
    throw "Checkout batch cannot contain more than 32 Artifacts"
  checkoutPublicManifest batch

/-- `source.get("artifact_id") == artifact_id` -/
def describes (artifactId : String) (source : Members) : Bool :=
  match source.get "artifact_id" with
  | .str id => id = artifactId
  | _ => false

/-- `_artifact_source` -/
def artifactSource (artifacts : List Members) (artifactId : String) : Except String Members :=
  match artifacts.find? (describes artifactId) with
  | some source => .ok source
  | none => .error "Checkout Artifact source is missing"

/-! ## The Workspace -/

/-- A file of the checkout: the content of an Artifact, or the manifest. -/
inductive File where
  | data (bytes : Bytes)
  | json (manifest : PublicManifest)

/-- A directory, with its mode and what it holds. -/
structure Directory where
  mode : ℕ
  files : String → Option File

/-- A directory as it is made. -/
def Directory.empty (mode : ℕ) : Directory := ⟨mode, fun _ => none⟩

/-- A file of a directory is written. -/
def Directory.write (dir : Directory) (name : String) (file : File) : Directory :=
  { dir with files := Function.update dir.files name (some file) }

/-- A file of a directory is unlinked. -/
def Directory.remove (dir : Directory) (name : String) : Directory :=
  { dir with files := Function.update dir.files name none }

/-- `os.replace` -/
def Directory.replace (dir : Directory) (source target : String) (file : File) : Directory :=
  (dir.remove source).write target file

section Directory

variable (dir : Directory) {name n : String} (file : File)

@[simp] theorem Directory.write_files_self : (dir.write name file).files name = some file :=
  Function.update_self ..

@[simp] theorem Directory.write_files_ne (h : n ≠ name) :
    (dir.write name file).files n = dir.files n :=
  Function.update_of_ne h ..

@[simp] theorem Directory.remove_files_self : (dir.remove name).files name = none :=
  Function.update_self ..

@[simp] theorem Directory.remove_files_ne (h : n ≠ name) :
    (dir.remove name).files n = dir.files n :=
  Function.update_of_ne h ..

end Directory

/-- What the task works on: the directories under `uploads/` and `outputs/`, and those of the
operations under `.agent-staging/`. -/
structure Workspace where
  uploads : String → Option Directory
  uploadsMode : ℕ
  outputs : String → Option ℕ
  staging : String → Option Directory

/-- `prepare_workspace`, of what it touches here. -/
def Workspace.prepare (ws : Workspace) : Workspace := { ws with uploadsMode := 0o555 }

/-- `_controlled_directory(output, ".", 0o770, …)` -/
def Workspace.output (ws : Workspace) (assistantMessageId : String) : Workspace :=
  { ws with outputs := Function.update ws.outputs assistantMessageId (some 0o770) }

/-- The staging directory of an operation is put or taken away. -/
def Workspace.stage (ws : Workspace) (operationId : String) (dir : Option Directory) : Workspace :=
  { ws with staging := Function.update ws.staging operationId dir }

/-- The upload directory of a message is put in its place. -/
def Workspace.upload (ws : Workspace) (userMessageId : String) (dir : Directory) : Workspace :=
  { ws with uploads := Function.update ws.uploads userMessageId (some dir) }

variable (sha256 : Bytes → String) (dumps : PublicManifest → Bytes)
  (loads : Bytes → Option PublicManifest)

/-- The bytes of a file. -/
def File.bytes : File → Bytes
  | .data bytes => bytes
  | .json manifest => dumps manifest

/-- `_read_json_object` -/
def readJsonObject (file : Option File) : Except String PublicManifest :=
  match file with
  | some (.json manifest) => .ok manifest
  | some (.data bytes) =>
    match loads bytes with
    | some manifest => .ok manifest
    | none => .error "Operation manifest is missing or invalid"
  | none => .error "Operation manifest is missing or invalid"

/-- The name of the manifest. -/
def checkoutName : String := ".agent-checkout.json"

/-- `path.with_name(f".{path.name}.part")` -/
def partName : String := "." ++ checkoutName ++ ".part"

/-- The check of one committed file. -/
def verifyFile (final : Directory) (item : PublicArtifact) : Except String Unit :=
  match final.files item.filename with
  | none => .error "No such file or directory"
  | some file =>
    if (file.bytes dumps).length ≠ item.size then .error "Committed checkout file size changed"
    else .ok ()

/-- `_verify_checkout_commit` -/
def verifyCheckoutCommit (final : Directory) (expected : PublicManifest) : Except String Unit := do
  let manifest ← readJsonObject loads (final.files checkoutName)
  if manifest ≠ expected then throw "Checkout destination is already bound to another batch"
  expected.artifacts.forM (verifyFile dumps final)

/-! ## The task -/

/-- The call that a checkout is at. -/
inductive Stage where
  | check
  | verified
  | clear
  | mkdir
  | openTarget (installed rest : List PublicArtifact)
  | download (installed : List PublicArtifact) (item : PublicArtifact) (maxBytes : ℕ)
      (body : Bytes) (rest : List PublicArtifact)
  | openManifest (installed : List PublicArtifact)
  | replaceManifest (installed : List PublicArtifact)
  | outputDirectory (installed : List PublicArtifact)
  | rename (installed : List PublicArtifact)
  | protect (installed : List PublicArtifact)
  | cleanup (error : String)
  | returned (installed : List PublicArtifact) (alreadyCommitted : Bool)
  | raised (error : String)

/-- The call is over. -/
def Stage.ended : Stage → Bool
  | .returned _ _ | .raised _ => true
  | _ => false

/-- The stage is in the `try` block. -/
def Stage.guarded : Stage → Bool
  | .openTarget _ _ | .download _ _ _ _ _ | .openManifest _ | .replaceManifest _
  | .outputDirectory _ | .rename _ | .protect _ => true
  | _ => false

/-- What a download needs beside the item: the limit of its source. -/
def downloadLimit (artifacts : List Members) (item : PublicArtifact) : Except String ℕ := do
  let source ← artifactSource artifacts item.artifactId
  let _ ← requiredText source "url"
  let _ ← requiredText source "token"
  positiveInt source "max_bytes" false

/-- `isinstance(expected, str) and digest != expected.lower()` -/
def digestDiffers (source : Members) (digest : String) : Bool :=
  match source.get "sha256" with
  | .str expected => digest ≠ expected.toLower
  | _ => false

/-- A download that has come to its end. -/
def downloaded (artifacts : List Members) (item : PublicArtifact) (body : Bytes) :
    Except String PublicArtifact := do
  let source ← artifactSource artifacts item.artifactId
  if digestDiffers source (sha256 body) then throw "Downloaded file digest does not match"
  if body.length ≠ item.size then throw "Downloaded file size does not match"
  return { item with sha256 := sha256 body, size := body.length }

/-- The next operation of the call with `operationId`. -/
def taskStep (batch : Batch) (pub : PublicManifest) (operationId : String) (ws : Workspace) :
    Stage → Workspace × Stage
  | .check =>
    match ws.uploads batch.userMessageId with
    | some final =>
      match verifyCheckoutCommit dumps loads final pub with
      | .ok () => (ws.prepare, .verified)
      | .error error => (ws.prepare, .raised error)
    | none =>
      match safeOperationId operationId with
      | .ok _ => (ws.prepare, .clear)
      | .error error => (ws.prepare, .raised error)
  | .verified => (ws.output batch.assistantMessageId, .returned pub.artifacts true)
  | .clear => (ws.stage operationId none, .mkdir)
  | .mkdir => (ws.stage operationId (some (.empty 0o700)), .openTarget [] pub.artifacts)
  | .openTarget installed [] => (ws, .openManifest installed)
  | .openTarget installed (item :: rest) =>
    match ws.staging operationId with
    | none => (ws, .cleanup "No such file or directory")
    | some dir =>
      if (dir.files item.filename).isSome then (ws, .cleanup "File exists")
      else
        match downloadLimit batch.artifacts item with
        | .ok maxBytes => (ws.stage operationId (some (dir.write item.filename (.data []))),
            .download installed item maxBytes [] rest)
        | .error error =>
          (ws.stage operationId (some (dir.write item.filename (.data []))), .cleanup error)
  | .download installed item _ body rest =>
    match downloaded sha256 batch.artifacts item body with
    | .ok item => (ws, .openTarget (installed ++ [item]) rest)
    | .error error => (ws, .cleanup error)
  | .openManifest installed =>
    match ws.staging operationId with
    | none => (ws, .cleanup "No such file or directory")
    | some dir =>
      if (dir.files partName).isSome then (ws, .cleanup "File exists")
      else (ws.stage operationId
          (some (dir.write partName (.json { pub with artifacts := installed }))),
        .replaceManifest installed)
  | .replaceManifest installed =>
    match ws.staging operationId with
    | none => (ws, .cleanup "No such file or directory")
    | some dir =>
      match dir.files partName with
      | none => (ws, .cleanup "No such file or directory")
      | some file => (ws.stage operationId
            (some { dir.replace partName checkoutName file with mode := 0o755 }),
          .outputDirectory installed)
  | .outputDirectory installed =>
    ({ ws.output batch.assistantMessageId with uploadsMode := 0o755 }, .rename installed)
  | .rename installed =>
    match ws.staging operationId, ws.uploads batch.userMessageId with
    | some dir, none =>
      ((ws.stage operationId none).upload batch.userMessageId dir, .protect installed)
    | none, _ => ({ ws with uploadsMode := 0o555 }, .cleanup "No such file or directory")
    | _, some _ => ({ ws with uploadsMode := 0o555 }, .cleanup "Directory not empty")
  | .protect installed =>
    let final := (ws.uploads batch.userMessageId).map ({ · with mode := 0o555 })
    ({ ws with
        uploads := Function.update ws.uploads batch.userMessageId final
        uploadsMode := 0o555 }, .returned installed false)
  | .cleanup error => (ws.stage operationId none, .raised error)
  | .returned installed alreadyCommitted => (ws, .returned installed alreadyCommitted)
  | .raised error => (ws, .raised error)

/-- The next chunk of a download. -/
def receive (operationId : String) (ws : Workspace) (chunk : Bytes) :
    Stage → Option (Workspace × Stage)
  | .download installed item maxBytes body rest =>
    if maxBytes < (body ++ chunk).length then
      some (ws, .cleanup "Downloaded file exceeds the operation limit")
    else
      let dir := (ws.staging operationId).map (·.write item.filename (.data (body ++ chunk)))
      some (ws.stage operationId dir, .download installed item maxBytes (body ++ chunk) rest)
  | _ => none

/-- `rmtree` takes the files one by one. -/
def unlink (operationId : String) (ws : Workspace) (name : String) :
    Stage → Option (Workspace × Stage)
  | .clear => some (ws.stage operationId ((ws.staging operationId).map (·.remove name)), .clear)
  | .cleanup error =>
    some (ws.stage operationId ((ws.staging operationId).map (·.remove name)), .cleanup error)
  | _ => none

/-- The operation raises. -/
def fail (ws : Workspace) (error : String) (stage : Stage) : Workspace × Stage :=
  match stage with
  | .rename _ | .protect _ => ({ ws with uploadsMode := 0o555 }, .cleanup error)
  | _ => (ws, if stage.guarded then .cleanup error else .raised error)

/-! ## The calls -/

/-- A call.  `before` and `renamed` are what `uploads/` was when it began, and whether the call has
renamed its directory. -/
structure Attempt where
  operationId : String
  stage : Stage
  before : String → Option Directory
  renamed : Bool

/-- What happens to a checkout: its next call, a part of a download, or what stands for a failure or
a kill. -/
inductive Action where
  /-- the next call, once the last one is over -/
  | begin (operationId : String)
  | step
  | receive (chunk : Bytes)
  | unlink (name : String)
  | fail (error : String)
  /-- the call is killed -/
  | die

/-- The Workspace, and the checkout that is under way. -/
abbrev State := Workspace × Option Attempt

/-- The stage is the one after the rename. -/
def Stage.isProtect : Stage → Bool
  | .protect _ => true
  | _ => false

/-- The checkout goes on to its next call. -/
def Attempt.next (a : Attempt) (next : Workspace × Stage) : State :=
  (next.1, some { a with stage := next.2, renamed := a.renamed || next.2.isProtect })

/-- What an action does, where it can happen. -/
def step (batch : Batch) (pub : PublicManifest) (s : State) : Action → Option State
  | .begin operationId =>
    if s.2.any (!·.stage.ended) then none
    else some (s.1, some ⟨operationId, .check, s.1.uploads, false⟩)
  | .step => s.2.bind fun a =>
    if a.stage.ended then none
    else some (a.next (taskStep sha256 dumps loads batch pub a.operationId s.1 a.stage))
  | .receive chunk => s.2.bind fun a => (receive a.operationId s.1 chunk a.stage).map a.next
  | .unlink name => s.2.bind fun a => (unlink a.operationId s.1 name a.stage).map a.next
  | .fail error => s.2.bind fun a =>
    if a.stage.ended then none else some (a.next (fail s.1 error a.stage))
  | .die => s.2.map fun _ => (s.1, none)

end CodexGateway.StorageOps.Checkout
