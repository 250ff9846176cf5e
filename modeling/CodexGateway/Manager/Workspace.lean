import CodexGateway.Library.Pool
import CodexGateway.Manager.Operation

/-!
# Manager/Workspace — one recoverable Workspace under the calls of `DockerSandboxBackend`

A `Host` has the tables of the Manager, the local volume of the Workspace and its snapshots in the
object store.  A turn ends one `await`: the awaited call has its effect or raises, and the code runs
on to the next `await` — in the same turn where that code only looks at its own variables, in a turn
of its own where it goes back to the tables.

The coroutines that need the lock of the Workspace end where they take it; what the one holding it
waits for is `Host.holder`.  A volume that is mounted but missing is created empty.
-/

namespace CodexGateway.Manager

/-- The settings of the Manager that decide about a Workspace. -/
structure Settings where
  workspaceId : String
  storageEnabled : Bool
  executionTtlSeconds : ℤ
  workspaceLocalRetentionSeconds : ℤ

/-- The changes that made a volume, the latest first: what is derived from `c` has `c` as a
suffix. -/
abbrev Content := List String

/-- What an operation is asked for. -/
inductive OperationInput where
  | generation (generation : ℕ)
  | revision (revisionId : String)
  | empty
deriving DecidableEq

/-- What an operation has found. -/
inductive OperationResult where
  | revision (revisionId : String)
  | alreadyMaterialized (revisionId : Option String)
  | alreadyClean (revisionId : Option String)
  | objectsDeleted (objects : ℕ)
deriving DecidableEq

/-- The tables of the Manager. -/
abbrev Tables := Db OperationInput OperationResult

/-- Who called `_prepare_workspace`. -/
inductive Caller where
  | create (sandboxId : String)
  | restoreRequested (operationId : String)
deriving DecidableEq

/-- What the holder of the Workspace lock waits for, with the record it has read. -/
inductive Critical where
  -- `_prepare_workspace`, down to the second look for the volume
  | prepareExists (caller : Caller) (current : WorkspaceRecord)
  | prepareDecide (caller : Caller) (current : WorkspaceRecord) (volumeExists : Bool)
  | prepareEnsure (caller : Caller)
  -- its restore
  | restoreExists (caller : Caller) (revisionId : String)
  | restoreRemove (caller : Caller) (revisionId : String)
  | restoreEnsure (caller : Caller) (revisionId : String)
  | restoreBegin (caller : Caller) (revisionId : String)
  | restoreRun (caller : Caller) (operationId revisionId : String)
  | restoreDone (caller : Caller) (operationId revisionId : String)
  | restoreUndo (caller : Caller) (operationId error : String)
  | restoreFail (caller : Caller) (operationId error : String)
  -- `_checkpoint_workspace`
  | checkpointRun (operationId : String) (generation : ℕ)
  | checkpointDone (operationId : String) (generation : ℕ) (revisionId : String)
  | checkpointFail (operationId error : String)
  -- `_cleanup_local_workspace`
  | cleanupRemove
  | cleanupRemoved
deriving DecidableEq

/-- What a coroutine that does not hold the lock waits for. -/
inductive Task where
  | createLock (sandboxId : String)
  | createPrepare (sandboxId : String)
  | createClaim (sandboxId : String)
  | createContainer (sandboxId : String)
  | createStart (sandboxId : String)
  | createStarted (sandboxId : String)
  | createRemove (sandboxId : String)
  | createFailed (sandboxId : String)
  | terminateRemove (sandboxId : String)
  | terminateRemoved (sandboxId : String)
  | restoreRequested (operationId : String)
  | restoreLock (operationId : String)
  | checkpointLock
  | cleanupLock
  | finished
deriving DecidableEq

/-- The end of an `await`: whether the awaited call succeeds, what its container has written to the
volume if it has come to mount it, the text it returns or raises, and the clock. -/
structure Turn where
  ok : Bool
  written : Option Content
  text : String
  now : ℤ

/-- What the tasks of a Workspace share; `holder` is the one that has its lock. -/
structure Host where
  db : Tables
  volume : Option Content
  snapshots : String → Option Content
  /-- the Sandboxes in `_records` -/
  records : List String
  holder : Option Critical

namespace Host

/-- The lock is taken. -/
def hold (s : Host) (c : Critical) : Host := { s with holder := some c }

/-- The lock is given back. -/
def unlock (s : Host) : Host := { s with holder := none }

/-- `docker volume create`, and the mount of a volume that may be missing. -/
def ensureVolume (s : Host) : Host := { s with volume := some (s.volume.getD []) }

/-- A container writes to the volume it mounts. -/
def write (s : Host) (changes : Content) : Host :=
  { s with volume := some (changes ++ s.volume.getD []) }

/-- A container that may have failed before it mounts the volume. -/
def mount (s : Host) : Option Content → Host
  | none => s
  | some changes => s.write changes

/-- `_remove_volume`, which hides a failure. -/
def removeVolume (s : Host) (ok : Bool) : Host :=
  { s with volume := if ok then none else s.volume }

end Host

/-- An operation ends; if it is gone, nothing is recorded. -/
def endOperation (db : Tables) (operationId : String) (status : OperationStatus)
    (result : Option OperationResult) (error : Option String) (now : ℤ) : Tables :=
  suppress db (updateOperation db operationId status none result error now)

/-- A Sandbox ends; if it is gone, nothing is recorded. -/
def endSandbox (db : Tables) (sandboxId : String) (status : SandboxStatus) (now : ℤ) : Tables :=
  suppress db ((finishSandbox db sandboxId status .detachedDirty now).map Prod.fst)

/-! ## `_prepare_workspace` -/

variable (cfg : Settings)

/-- `_prepare_workspace` returns: `create` goes on to the prepare container, a requested restore
ends. -/
def prepareReturn (s : Host) : Caller → Host × List Task
  | .create sandboxId =>
    (s.unlock, [if cfg.storageEnabled then .createPrepare sandboxId else .createClaim sandboxId])
  | .restoreRequested _ => (s.unlock, [])

/-- `_prepare_workspace` raises: a requested restore records the error. -/
def prepareRaise (s : Host) (error : String) (now : ℤ) : Caller → Host × List Task
  | .create _ => (s.unlock, [])
  | .restoreRequested operationId =>
    ({ s.unlock with db := endOperation s.db operationId .failed none (some error) now }, [])

/-- The part of `_prepare_workspace` for a Workspace that is `remote_only`. -/
def prepareRemote (s : Host) (caller : Caller) (current : WorkspaceRecord) (now : ℤ) :
    Host × List Task :=
  match current.headRevision with
  | some revisionId =>
    if cfg.storageEnabled then (s.hold (.restoreExists caller revisionId), [])
    else
      let workspaceId := cfg.workspaceId
      prepareRaise s s!"Workspace '{workspaceId}' requires object-storage restore" now caller
  | none =>
    let workspaceId := cfg.workspaceId
    prepareRaise s s!"Workspace '{workspaceId}' requires object-storage restore" now caller

/-- The answer of the first look for the volume, with the record that was read before it. -/
def prepareDecide (s : Host) (caller : Caller) (current : WorkspaceRecord) (volumeExists : Bool)
    (now : ℤ) : Host × List Task :=
  if current.status ≠ .remoteOnly ∧ volumeExists = false then
    if current.headRevision ≠ none ∧ current.activeSandboxId = none then
      match transitionWorkspace s.db cfg.workspaceId [.detachedClean] .remoteOnly now with
      | .error e => prepareRaise s e.message now caller
      | .ok (db, current) => prepareRemote cfg { s with db := db } caller current now
    else if current.status = .detachedDirty then
      let workspaceId := cfg.workspaceId
      prepareRaise s s!"Dirty Workspace '{workspaceId}' has no local volume" now caller
    else (s.hold (.prepareEnsure caller), [])
  else if current.status ≠ .remoteOnly then prepareReturn cfg s caller
  else prepareRemote cfg s caller current now

/-- The operation is created outside the `try`, so that only what comes after it is undone. -/
def restoreBegin (s : Host) (caller : Caller) (revisionId : String) (turn : Turn) :
    Host × List Task :=
  let workspaceId := cfg.workspaceId
  match createOperation s.db s!"operation_{turn.text}" .restore workspaceId none
      s!"restore:{workspaceId}:{revisionId}" (.revision revisionId) turn.now with
  | .error e => prepareRaise s e.message turn.now caller
  | .ok (db, operation, _) =>
    match transitionWorkspace db workspaceId [.remoteOnly] .restoring turn.now with
    | .error e => ({ s with db := db }.hold (.restoreUndo caller operation.id e.message), [])
    | .ok (db, _) =>
      match updateOperation db operation.id .running none none none turn.now with
      | .error e => ({ s with db := db }.hold (.restoreUndo caller operation.id e.message), [])
      | .ok db => ({ s with db := db }.hold (.restoreRun caller operation.id revisionId), [])

/-- The restore container writes to an empty volume only; where it fails it has written any part. -/
def restoreRun (s : Host) (caller : Caller) (operationId revisionId : String) (turn : Turn) : Host :=
  if s.volume.getD [] ≠ [] then
    s.hold (.restoreUndo caller operationId "Restore target must be empty")
  else
    match turn.ok, s.snapshots revisionId with
    | true, some content => (s.write content).hold (.restoreDone caller operationId revisionId)
    | _, _ => (s.mount turn.written).hold (.restoreUndo caller operationId turn.text)

/-- The restore has run: it is recorded, and the Workspace is idle with what was restored. -/
def restoreDone (s : Host) (caller : Caller) (operationId revisionId : String) (now : ℤ) :
    Host × List Task :=
  match updateOperation s.db operationId .succeeded none (some (.revision revisionId)) none now with
  | .error e => (s.hold (.restoreUndo caller operationId e.message), [])
  | .ok db =>
    match transitionWorkspace db cfg.workspaceId [.restoring] .detachedClean now with
    | .error e => ({ s with db := db }.hold (.restoreUndo caller operationId e.message), [])
    | .ok (db, _) => prepareReturn cfg { s with db := db } caller

/-- `with suppress(…): self._state.transition_workspace(…)` -/
def transitionOrKeep (db : Tables) (expected : List WorkspaceStatus) (status : WorkspaceStatus)
    (now : ℤ) : Tables :=
  suppress db ((transitionWorkspace db cfg.workspaceId expected status now).map Prod.fst)

/-- The restore has failed: it is recorded, and the Workspace is remote again. -/
def restoreFail (s : Host) (caller : Caller) (operationId error : String) (now : ℤ) :
    Host × List Task :=
  let db := endOperation s.db operationId .failed none (some error) now
  let db := transitionOrKeep cfg db [.restoring] .remoteOnly now
  let workspaceId := cfg.workspaceId
  prepareRaise { s with db := db } s!"Failed to restore Workspace '{workspaceId}': {error}" now caller

/-! ## `_checkpoint_workspace` and `_cleanup_local_workspace` -/

/-- The `except` of `_checkpoint_workspace`. -/
def checkpointFail (s : Host) (operationId error : String) (now : ℤ) : Host :=
  let db := endOperation s.db operationId .failed none (some error) now
  { s.unlock with db := transitionOrKeep cfg db [.checkpointing] .detachedDirty now }

/-- The idempotency key of the checkpoint of a generation. -/
def checkpointKey (workspaceId : String) (generation : ℕ) : String :=
  s!"checkpoint:{workspaceId}:{generation}"

/-- A checkpoint starts for an idle Workspace with changes. -/
def checkpointBegin (s : Host) (row : WorkspaceRecord) (turn : Turn) : Host :=
  if row.activeSandboxId ≠ none ∨ row.status ≠ .detachedDirty then s
  else
    match createOperation s.db s!"operation_{turn.text}" .checkpoint cfg.workspaceId none
        (checkpointKey cfg.workspaceId row.generation) (.generation row.generation) turn.now with
    | .error _ => s
    | .ok (db, operation, _) =>
      if operation.status = .succeeded then { s with db := db }
      else
        match transitionWorkspace db cfg.workspaceId [.detachedDirty] .checkpointing turn.now with
        | .error e => checkpointFail cfg { s with db := db } operation.id e.message turn.now
        | .ok (db, row) =>
          match updateOperation db operation.id .running none none none turn.now with
          | .error e => checkpointFail cfg { s with db := db } operation.id e.message turn.now
          | .ok db => { s with db := db }.hold (.checkpointRun operation.id row.generation)

/-- The checkpoint container names its snapshot, which no older one is called.  A snapshot of a
container that fails is never heard of. -/
def checkpointRun (s : Host) (operationId : String) (generation : ℕ) (turn : Turn) : Option Host :=
  if turn.ok then
    if turn.text = "" then
      some (s.ensureVolume.hold (.checkpointFail operationId "checkpoint returned no revision_id"))
    else if (s.snapshots turn.text).isSome then none
    else some <| { s.ensureVolume with
      snapshots := Function.update s.snapshots turn.text (some (s.volume.getD [])) }.hold
        (.checkpointDone operationId generation turn.text)
  else
    -- The volume is mounted read-only.
    let s := if turn.written.isSome then s.ensureVolume else s
    some (s.hold (.checkpointFail operationId turn.text))

/-- The snapshot is taken: the revision is committed, or the checkpoint fails. -/
def checkpointDone (s : Host) (operationId : String) (generation : ℕ) (revisionId : String)
    (now : ℤ) : Host :=
  match commitRevision s.db cfg.workspaceId operationId revisionId generation
      (.revision revisionId) now with
  | .error e => checkpointFail cfg s operationId e.message now
  | .ok (db, _) => { s.unlock with db := db }

/-- The local copy of an idle Workspace is thrown away once it has not been used for some time. -/
def cleanupBegin (s : Host) (row : WorkspaceRecord) (now : ℤ) : Host :=
  if row.status ≠ .detachedClean ∨ row.headRevision = none ∨ row.activeSandboxId ≠ none ∨
      row.updatedAt > now - cfg.workspaceLocalRetentionSeconds then s
  else s.hold .cleanupRemove

/-! ## Turns -/

/-- A turn of the coroutine that holds the lock. -/
def criticalStep (s : Host) (turn : Turn) : Critical → Option (Host × List Task)
  | .prepareExists caller current =>
    if turn.ok then some (s.hold (.prepareDecide caller current s.volume.isSome), [])
    else some (prepareRaise s turn.text turn.now caller)
  | .prepareDecide caller current volumeExists =>
    some (prepareDecide cfg s caller current volumeExists turn.now)
  | .prepareEnsure caller =>
    if turn.ok then some (prepareReturn cfg s.ensureVolume caller)
    else some (prepareRaise s turn.text turn.now caller)
  | .restoreExists caller revisionId =>
    if turn.ok then
      if s.volume.isSome then some (s.hold (.restoreRemove caller revisionId), [])
      else some (s.hold (.restoreEnsure caller revisionId), [])
    else some (prepareRaise s turn.text turn.now caller)
  | .restoreRemove caller revisionId =>
    some ((s.removeVolume turn.ok).hold (.restoreEnsure caller revisionId), [])
  | .restoreEnsure caller revisionId =>
    if turn.ok then some (s.ensureVolume.hold (.restoreBegin caller revisionId), [])
    else some (prepareRaise s turn.text turn.now caller)
  | .restoreBegin caller revisionId => some (restoreBegin cfg s caller revisionId turn)
  | .restoreRun caller operationId revisionId =>
    some (restoreRun s caller operationId revisionId turn, [])
  | .restoreDone caller operationId revisionId =>
    some (restoreDone cfg s caller operationId revisionId turn.now)
  | .restoreUndo caller operationId error =>
    some ((s.removeVolume turn.ok).hold (.restoreFail caller operationId error), [])
  | .restoreFail caller operationId error =>
    some (restoreFail cfg s caller operationId error turn.now)
  | .checkpointRun operationId generation =>
    (checkpointRun s operationId generation turn).map fun s' => (s', [])
  | .checkpointDone operationId generation revisionId =>
    some (checkpointDone cfg s operationId generation revisionId turn.now, [])
  | .checkpointFail operationId error => some (checkpointFail cfg s operationId error turn.now, [])
  | .cleanupRemove =>
    if turn.ok then some (({ s with volume := none }.hold .cleanupRemoved), [])
    else some (s.unlock, [])
  | .cleanupRemoved =>
    let db := transitionOrKeep cfg s.db [.detachedClean] .remoteOnly turn.now
    some ({ s.unlock with db := db }, [])

/-- The lock is taken where it is free, and the record is read again. -/
def takeLock (s : Host) (begin : WorkspaceRecord → Host) : Option Host :=
  if s.holder = none then
    match getWorkspace s.db cfg.workspaceId with
    | .error _ => some s
    | .ok row => some (begin row)
  else none

/-- `f"sandbox-worker-{token}"` -/
def workerHost (sandboxId : String) : String :=
  let token := (sandboxId.toList.dropPrefix? "sandbox_".toList).getD sandboxId.toList
  "sandbox-worker-" ++ String.ofList token

/-- A turn of a coroutine without the lock. -/
def taskStep (s : Host) (turn : Turn) : Task → Option (Host × Task)
  | .createLock sandboxId =>
    (takeLock cfg s fun row => s.hold (.prepareExists (.create sandboxId) row)).map
      fun s' => (s', .finished)
  | .createPrepare sandboxId =>
    if turn.ok then some (s.write (turn.written.getD []), .createClaim sandboxId)
    else some (s.mount turn.written, .finished)
  | .createClaim sandboxId =>
    match claimWorkspace s.db cfg.workspaceId sandboxId (workerHost sandboxId)
        (workerHost sandboxId) turn.now (turn.now + cfg.executionTtlSeconds) with
    | .error _ => some (s, .finished)
    | .ok (db, _, _) => some ({ s with db := db }, .createContainer sandboxId)
  | .createContainer sandboxId =>
    if turn.ok then some (s.ensureVolume, .createStart sandboxId)
    else some (s, .createFailed sandboxId)
  | .createStart sandboxId =>
    some (s, if turn.ok then .createStarted sandboxId else .createRemove sandboxId)
  | .createStarted sandboxId =>
    match markSandboxRunning s.db sandboxId turn.now with
    | .error _ => some (s, .createRemove sandboxId)
    | .ok db => some ({ s with db := db, records := sandboxId :: s.records }, .finished)
  | .createRemove sandboxId =>
    if turn.ok then some (s, .createFailed sandboxId)
    else some ({ s with records := sandboxId :: s.records }, .finished)
  | .createFailed sandboxId =>
    some ({ s with db := endSandbox s.db sandboxId .failed turn.now }, .finished)
  | .terminateRemove sandboxId =>
    if turn.ok then
      some ({ s with records := s.records.erase sandboxId }, .terminateRemoved sandboxId)
    else some (s, .finished)
  | .terminateRemoved sandboxId =>
    some ({ s with db := endSandbox s.db sandboxId .terminated turn.now },
      if cfg.storageEnabled then .checkpointLock else .finished)
  | .restoreRequested operationId =>
    match getWorkspace s.db cfg.workspaceId with
    | .error e =>
      let db := endOperation s.db operationId .failed none (some e.message) turn.now
      some ({ s with db := db }, .finished)
    | .ok row =>
      if row.status = .detachedClean then
        let result := OperationResult.alreadyMaterialized row.headRevision
        let db := endOperation s.db operationId .succeeded (some result) none turn.now
        some ({ s with db := db }, .finished)
      else if row.status ≠ .remoteOnly then
        let status := row.status
        let workspaceId := cfg.workspaceId
        let error := s!"Workspace '{workspaceId}' cannot restore while {status}"
        let db := endOperation s.db operationId .failed none (some error) turn.now
        some ({ s with db := db }, .finished)
      else some (s, .restoreLock operationId)
  | .restoreLock operationId =>
    (takeLock cfg s fun row => s.hold (.prepareExists (.restoreRequested operationId) row)).map
      fun s' => (s', .finished)
  | .checkpointLock =>
    (takeLock cfg s fun row => checkpointBegin cfg s row turn).map fun s' => (s', .finished)
  | .cleanupLock =>
    (takeLock cfg s fun row => cleanupBegin cfg s row turn.now).map fun s' => (s', .finished)
  | .finished => none

/-! ## Requests -/

/-- The coroutine of an operation is started, if it is to be. -/
def startOperation (s : Host) (record : OperationRecord OperationInput OperationResult)
    (created : Bool) (task : Task) (now : ℤ) : Option (Host × List Task) :=
  match scheduleOperation s.db record created false now with
  | .error _ => none
  | .ok (db, _, scheduled) => some ({ s with db := db }, if scheduled then [task] else [])

/-- `create_operation` for a checkpoint. -/
def requestCheckpoint (s : Host) (row : WorkspaceRecord) (turn : Turn) :
    Option (Host × List Task) :=
  if row.activeSandboxId ≠ none ∨ row.status ∉ [.detachedDirty, .detachedClean] then none
  else
    match bindOperation s.db s!"operation_{turn.text}" .checkpoint cfg.workspaceId none
        (checkpointKey cfg.workspaceId row.generation) (.generation row.generation) turn.now with
    | .error _ => none
    | .ok (db, record, created) =>
      if row.status = .detachedClean then
        match updateOperation db record.id .succeeded none
            (some (.alreadyClean row.headRevision)) none turn.now with
        | .error _ => none
        | .ok db => some ({ s with db := db }, [])
      else startOperation { s with db := db } record created .checkpointLock turn.now

/-- `create_operation` for a restore of the head. -/
def requestRestore (s : Host) (row : WorkspaceRecord) (turn : Turn) :
    Option (Host × List Task) :=
  match row.headRevision with
  | none => none
  | some revisionId =>
    if row.activeSandboxId ≠ none ∨ row.status ∉ [.remoteOnly, .detachedClean] then none
    else
      let workspaceId := cfg.workspaceId
      match bindOperation s.db s!"operation_{turn.text}" .restore workspaceId none
          s!"restore:{workspaceId}:{revisionId}" (.revision revisionId) turn.now with
      | .error _ => none
      | .ok (db, record, created) =>
        startOperation { s with db := db } record created (.restoreRequested record.id) turn.now

/-- What happens to the Workspace from outside its coroutines. -/
inductive Event where
  /-- a turn of the coroutine that holds the lock -/
  | holder (turn : Turn)
  | create (sandboxId : String)
  | terminate (sandboxId : String)
  /-- the reaper schedules a checkpoint -/
  | checkpoint
  /-- the reaper calls `_cleanup_local_workspace` -/
  | cleanup
  | requestCheckpoint (turn : Turn)
  | requestRestore (turn : Turn)
  /-- `create_workspace` once more, which only ensures the volume -/
  | ensureVolume
  /-- the Agent changes files.  Its container is created after the claim of its Sandbox and removed
  before the Sandbox is finished. -/
  | agentWrite (changes : Content)

/-- What comes from outside, and what the holder of the lock does next. -/
def eventStep (s : Host) : Event → Option (Host × List Task)
  | .holder turn => s.holder.bind (criticalStep cfg s turn)
  | .create sandboxId => some (s, [.createLock sandboxId])
  | .terminate sandboxId =>
    if sandboxId ∈ s.records then some (s, [.terminateRemove sandboxId]) else none
  | .checkpoint => if cfg.storageEnabled then some (s, [.checkpointLock]) else none
  | .cleanup => if cfg.storageEnabled then some (s, [.cleanupLock]) else none
  | .requestCheckpoint turn =>
    if cfg.storageEnabled then
      (s.db.workspaces cfg.workspaceId).bind fun row => requestCheckpoint cfg s row turn
    else none
  | .requestRestore turn =>
    if cfg.storageEnabled then
      (s.db.workspaces cfg.workspaceId).bind fun row => requestRestore cfg s row turn
    else none
  | .ensureVolume => some (s.ensureVolume, [])
  | .agentWrite changes =>
    (s.db.workspaces cfg.workspaceId).bind fun row =>
      if row.status = .running then
        s.volume.map fun content => ({ s with volume := some (changes ++ content) }, [])
      else none

/-- The tasks of a Workspace, of which one holds the lock. -/
def backend : Pool.Program Host Task Turn Event where
  act := fun s t turn => taskStep cfg s turn t
  env := eventStep cfg

/-- The tasks with what they share. -/
abbrev Backend := Pool Host Task

/-- `create_workspace` of a new Workspace, before its volume is there. -/
def Backend.init (volumeName : String) (now : ℤ) : Backend where
  shared :=
    { db := suppress Db.empty
        ((createWorkspace Db.empty cfg.workspaceId .recoverable volumeName now).map Prod.fst)
      volume := none
      snapshots := fun _ => none
      records := []
      holder := none }
  tasks := []

end CodexGateway.Manager
