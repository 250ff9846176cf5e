import CodexGateway.Library.Machine
import CodexGateway.Manager.Operation
import CodexGateway.StorageOps.Capture

/-!
# Manager/Publish — one publish operation over all its attempts

The row of the operation, the coroutine `_execute_file_operation` that is at work on it, the one-shot
task that the coroutine waits for, and what the tasks work on.  A task may be killed or raise at
every stage, an awaited Docker call may raise, and the Manager may die; its task then runs on, until
the next Manager removes the container and marks the operation failed.

Every request has the key and the input of this operation, but may have its own upload target.
-/

namespace CodexGateway.Manager

open StorageOps

/-- What a publish is asked for. -/
structure PublishInput where
  assistantMessageId : String
  responseId : String
  outputRelativePath : String
  workspacePath : String
  maxBytes : ℕ
deriving DecidableEq

/-- The result of a publish: an object whose members may be missing. -/
structure PublishResult (H : Type) where
  capture : Option (Manifest H)
  targetArtifactId : Option String
  artifact : Option (ArtifactInfo H)
deriving DecidableEq

/-- `artifact_id`, `upload_url` and `upload_token` of a request; they come together or not at all,
and the capability in the token is for the `artifact_id`. -/
structure Target where
  artifactId : String
  uploadUrl : String
  uploadToken : String
deriving DecidableEq

/-- What every request of this operation has in common. -/
structure PublishRequest where
  workspaceId : String
  sandboxId : String
  idempotencyKey : String
  input : PublishInput
  filename : String
  sourceAllowed : Bool

/-- What the task of a publish is given. -/
def PublishRequest.taskInput (cfg : PublishRequest) : TaskInput :=
  ⟨cfg.input.workspacePath, cfg.filename, cfg.sourceAllowed, cfg.input.maxBytes⟩

/-- The row of a publish operation. -/
abbrev PublishRecord (H : Type) := OperationRecord PublishInput (PublishResult H)

/-- `capture` of a result, if it is an object. -/
def captureOf {H : Type} (record : PublishRecord H) : Option (Manifest H) :=
  record.result.bind PublishResult.capture

/-- `target_artifact_id` of a result. -/
def targetOf {H : Type} (record : PublishRecord H) : Option String :=
  record.result.bind PublishResult.targetArtifactId

/-- Where `_execute_file_operation` waits. -/
inductive AttemptStage (H : Type) where
  | start
  | capturing
  | uploading (capture : Manifest H) (artifactId : String)

/-- The coroutine, with the record and the claims it was given. -/
structure Attempt (H : Type) where
  record : PublishRecord H
  target : Option Target
  stage : AttemptStage H

/-- `uploadCalls` are the `artifact_id`s that `upload_capture` was called for, the latest last. -/
structure Publication (H : Type) where
  db : Db PublishInput (PublishResult H)
  up : Bool
  attempt : Option (Attempt H)
  task : Option (Stage H)
  storage : Storage H
  uploadCalls : List String

variable {H : Type} [DecidableEq H] (cfg : PublishRequest) (sha256 : Bytes → H)

namespace Publication

/-- The `except` of `_execute_file_operation`; `capture` is what `capture_result` is bound to.  The
target in the row becomes the one of the request that failed. -/
def failAttempt (s : Publication H) (a : Attempt H) (capture : Option (Manifest H)) (error : String)
    (now : ℤ) : Publication H :=
  { s with
    db := suppress s.db (updateOperation s.db a.record.id .failed
      (some (if capture.isSome then .captured else .capturing))
      (capture.map fun m => ⟨some m, a.target.map Target.artifactId, none⟩) (some error) now)
    attempt := none
    task := none }

/-- The coroutine has the lock and starts the capture.  This update leaves the target out. -/
def startCapture (s : Publication H) (a : Attempt H) (now : ℤ) : Publication H :=
  match updateOperation s.db a.record.id .running (some .capturing)
      ((captureOf a.record).map fun m => ⟨some m, none, none⟩) none now with
  | .error e => s.failAttempt a (captureOf a.record) e.message now
  | .ok db =>
    { s with
      db := db
      attempt := some { a with stage := .capturing }
      task := some .captureCheck }

/-- The capture is recorded, and uploaded where the request has a target that does not contradict
the record the coroutine was given. -/
def recordCapture (s : Publication H) (a : Attempt H) (capture : Manifest H) (now : ℤ) :
    Publication H :=
  match updateOperation s.db a.record.id .running (some .captured) (some ⟨some capture, none, none⟩)
      none now with
  | .error e => s.failAttempt a (some capture) e.message now
  | .ok db =>
    match a.target with
    | none => { s with db := db, attempt := none, task := none }
    | some target =>
      if targetOf a.record ≠ none ∧ targetOf a.record ≠ some target.artifactId then
        failAttempt { s with db := db } a (some capture) "Publish operation Artifact binding changed"
          now
      else
        match updateOperation db a.record.id .running (some .uploading)
            (some ⟨some capture, some target.artifactId, none⟩) none now with
        | .error e => failAttempt { s with db := db } a (some capture) e.message now
        | .ok db =>
          { s with
            db := db
            attempt := some { a with stage := .uploading capture target.artifactId }
            task := some (.uploadVerify target.artifactId)
            uploadCalls := s.uploadCalls ++ [target.artifactId] }

/-- The upload has returned: it is recorded, where it is of the Artifact asked for. -/
def recordUpload (s : Publication H) (a : Attempt H) (capture : Manifest H) (artifactId : String)
    (result : ArtifactInfo H) (now : ℤ) : Publication H :=
  if result.artifactId ≠ artifactId then
    s.failAttempt a (some capture) "Artifact upload returned another artifact_id" now
  else
    match updateOperation s.db a.record.id .succeeded (some .uploading)
        (some ⟨some capture, some artifactId, some result⟩) none now with
    | .error e => s.failAttempt a (some capture) e.message now
    | .ok db => { s with db := db, attempt := none, task := none }

/-- What `capture_result` is bound to where the coroutine waits. -/
def boundCapture (a : Attempt H) : Option (Manifest H) :=
  match a.stage with
  | .uploading capture _ => some capture
  | _ => captureOf a.record

/-- The coroutine goes on; while its task is running there is nothing to do. -/
def attemptStep (s : Publication H) (a : Attempt H) (now : ℤ) : Publication H :=
  match a.stage, s.task with
  | .start, _ => s.startCapture a now
  | .capturing, some (.captured capture) => s.recordCapture a capture now
  | .uploading capture artifactId, some (.uploaded result) =>
    s.recordUpload a capture artifactId result now
  | _, some (.failed error) => s.failAttempt a (boundCapture a) error now
  | _, _ => s

/-- The task goes on, or else the coroutine that waits for it. -/
def go (s : Publication H) (contentFirst : Bool) (now : ℤ) : Publication H :=
  match s.task with
  | some stage =>
    if stage.ended then
      match s.attempt with
      | some a => s.attemptStep a now
      | none => s
    else
      { s with
        storage := (StorageOps.taskStep sha256 cfg.taskInput s.storage contentFirst stage).1
        task := some (StorageOps.taskStep sha256 cfg.taskInput s.storage contentFirst stage).2 }
  | none =>
    match s.attempt with
    | some a => s.attemptStep a now
    | none => s

/-- `_recover_incomplete_operations` -/
def recoverIncompleteOperations (db : Db PublishInput (PublishResult H)) (now : ℤ) :
    Db PublishInput (PublishResult H) :=
  (incompleteOperations db).foldl
    (fun db operation => suppress db (updateOperation db operation.id .failed
      (if (captureOf operation).isSome then some .captured else operation.phase) operation.result
      (some "Manager restarted before the operation result was committed") now)) db

end Publication

/-- `create_operation` is asked to resume an operation that has been captured. -/
def resumesCaptured {H : Type} (record : PublishRecord H) (target : Option Target) : Bool :=
  record.status = .running && record.phase = some .captured && target.isSome

/-- What happens to a publish. -/
inductive PublishAction where
  | request (target : Option Target) (token : String) (now : ℤ)
  | go (contentFirst : Bool) (now : ℤ)
  | taskFail (applied : Bool) (error : String)
  | managerFail (error : String) (now : ℤ)
  | crash
  | restart (now : ℤ)
  | agentWrite (file : Option Bytes)

/-- `create_operation` for this publish. -/
def requestPublish (s : Publication H) (target : Option Target) (token : String) (now : ℤ) :
    Option (Publication H) :=
  match bindOperation s.db s!"operation_{token}" .publish cfg.workspaceId (some cfg.sandboxId)
      cfg.idempotencyKey cfg.input now with
  | .error _ => none
  | .ok (db, record, created) =>
    match scheduleOperation db record created (resumesCaptured record target) now with
    | .error _ => none
    | .ok (db, record, scheduled) =>
      some { s with
        db := db
        attempt := if scheduled then some ⟨record, target, .start⟩ else s.attempt }

/-- What an action does, where it can happen. -/
def publishStep (s : Publication H) : PublishAction → Option (Publication H)
  | .request target token now => if s.up then requestPublish cfg s target token now else none
  | .go contentFirst now => some (s.go cfg sha256 contentFirst now)
  | .taskFail applied error =>
    match s.task with
    | some stage =>
      if stage.ended then none
      else some { s with
        storage := (taskFail sha256 s.storage applied error stage).1
        task := some (taskFail sha256 s.storage applied error stage).2 }
    | none => none
  | .managerFail error now =>
    match s.attempt with
    | some a => if s.task.isSome then some (s.failAttempt a (Publication.boundCapture a) error now)
      else none
    | none => none
  | .crash => if s.up then some { s with up := false, attempt := none } else none
  | .restart now =>
    if s.up then none
    else some { s with
      up := true
      task := none
      db := Publication.recoverIncompleteOperations s.db now }
  | .agentWrite file => some { s with storage := { s.storage with source := file } }

/-- The Workspace of the operation is there; nothing has been asked for. -/
def Publication.init (row : WorkspaceRecord) (file : Option Bytes) : Publication H where
  db := Db.empty.putWorkspace cfg.workspaceId row
  up := true
  attempt := none
  task := none
  storage := ⟨file, Spool.empty, fun _ => none, [], []⟩
  uploadCalls := []

/-! ## A publish -/

/-- A running Workspace. -/
def sampleRow : WorkspaceRecord :=
  ⟨"workspace_1", .recoverable, .running, "volume_1", 1, none, some "sandbox_1", 0, 0, none⟩

/-- A request for one of its files. -/
def sampleRequest : PublishRequest :=
  ⟨"workspace_1", "sandbox_1", "publish_1",
    ⟨"message_1", "response_1", "report.txt", "outputs/message_1/report.txt", 100⟩, "report.txt",
    true⟩

/-- Where an Artifact is uploaded. -/
def sampleTarget (artifactId : String) : Target := ⟨artifactId, "https://artifacts", "token"⟩

end CodexGateway.Manager
