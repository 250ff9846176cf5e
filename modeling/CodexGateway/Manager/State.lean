import Mathlib.Data.Int.Notation
import Mathlib.Data.List.Basic
import Mathlib.Logic.Function.Basic
import Mathlib.Tactic.Common

/-!
# Manager/State — the control tables of the Manager and the transactions on them

A transaction either raises, and is rolled back, or returns the new tables.  The input and the
result of an operation are JSON that the store only keeps, so their types `I` and `R` are free.
Each transaction that takes an argument from the clock is given the time as `now`.
-/

namespace CodexGateway.Manager

/-- What the store raises, with its message. -/
inductive StateError where
  | notFound (message : String)
  | conflict (message : String)
  | integrity (message : String)
deriving DecidableEq

/-- `str(exc)` -/
def StateError.message : StateError → String
  | .notFound message => message
  | .conflict message => message
  | .integrity message => message

/-- Whether a Workspace is thrown away with its Sandbox or kept. -/
inductive WorkspaceKind where
  | ephemeral
  | recoverable
deriving DecidableEq

/-- The states of a Workspace; an idle one has changes since its last revision or has none. -/
inductive WorkspaceStatus where
  | detachedClean
  | detachedDirty
  | running
  | checkpointing
  | restoring
  | remoteOnly
  | deleting
  | deleted
deriving DecidableEq

instance : ToString WorkspaceStatus where
  toString
    | .detachedClean => "detached_clean"
    | .detachedDirty => "detached_dirty"
    | .running => "running"
    | .checkpointing => "checkpointing"
    | .restoring => "restoring"
    | .remoteOnly => "remote_only"
    | .deleting => "deleting"
    | .deleted => "deleted"

/-- A row of `workspaces`. -/
structure WorkspaceRecord where
  id : String
  kind : WorkspaceKind
  status : WorkspaceStatus
  volumeName : String
  generation : ℕ
  headRevision : Option String
  activeSandboxId : Option String
  createdAt : ℤ
  updatedAt : ℤ
  deleteAfter : Option ℤ
deriving DecidableEq

/-- The states of a Sandbox. -/
inductive SandboxStatus where
  | starting
  | running
  | terminated
  | failed
deriving DecidableEq

/-- A row of `sandboxes`. -/
structure SandboxRecord where
  id : String
  workspaceId : String
  workerHost : String
  containerName : String
  status : SandboxStatus
  createdAt : ℤ
  expiresAt : Option ℤ
deriving DecidableEq

/-- The file operations on a Workspace. -/
inductive OperationKind where
  | checkpoint
  | restore
  | checkout
  | publish
  | retire
deriving DecidableEq

/-- The states of an operation. -/
inductive OperationStatus where
  | pending
  | running
  | succeeded
  | failed
deriving DecidableEq

/-- How far a publish that is under way has come. -/
inductive OperationPhase where
  | capturing
  | captured
  | uploading
deriving DecidableEq

/-- A row of `operations`; `I` is what it was asked, `R` what it found. -/
structure OperationRecord (I R : Type) where
  id : String
  operation : OperationKind
  status : OperationStatus
  phase : Option OperationPhase
  workspaceId : String
  sandboxId : Option String
  idempotencyKey : String
  input : I
  result : Option R
  error : Option String
  createdAt : ℤ
  updatedAt : ℤ

/-- The tables `workspaces`, `sandboxes` and `operations`. -/
structure Db (I R : Type) where
  workspaces : String → Option WorkspaceRecord
  sandboxes : String → Option SandboxRecord
  operations : List (OperationRecord I R)

variable {I R : Type}

namespace Db

/-- The tables before the first call. -/
def empty : Db I R := ⟨fun _ => none, fun _ => none, []⟩

/-- The row of a Workspace is written. -/
def putWorkspace (db : Db I R) (workspaceId : String) (row : WorkspaceRecord) : Db I R :=
  { db with workspaces := Function.update db.workspaces workspaceId (some row) }

/-- The row of a Sandbox is written. -/
def putSandbox (db : Db I R) (sandboxId : String) (row : SandboxRecord) : Db I R :=
  { db with sandboxes := Function.update db.sandboxes sandboxId (some row) }

/-- The row that was written is read. -/
@[simp] theorem putWorkspace_workspaces (db : Db I R) (workspaceId : String)
    (row : WorkspaceRecord) :
    (db.putWorkspace workspaceId row).workspaces workspaceId = some row :=
  Function.update_self ..

/-- Writing a row back changes nothing. -/
theorem putWorkspace_self {db : Db I R} {workspaceId : String} {row : WorkspaceRecord}
    (h : db.workspaces workspaceId = some row) : db.putWorkspace workspaceId row = db := by
  rw [putWorkspace, ← h, Function.update_eq_self]

/-- A Workspace is no Sandbox. -/
@[simp] theorem putWorkspace_sandboxes (db : Db I R) (workspaceId : String)
    (row : WorkspaceRecord) : (db.putWorkspace workspaceId row).sandboxes = db.sandboxes := rfl

/-- A Sandbox is no Workspace. -/
@[simp] theorem putSandbox_workspaces (db : Db I R) (sandboxId : String) (row : SandboxRecord) :
    (db.putSandbox sandboxId row).workspaces = db.workspaces := rfl

/-- A row that is read was written, or was there. -/
theorem putSandbox_sandboxes {db : Db I R} {sandboxId id : String} {row sandbox : SandboxRecord}
    (h : (db.putSandbox sandboxId row).sandboxes id = some sandbox) :
    sandbox = row ∨ db.sandboxes id = some sandbox := by
  by_cases hid : id = sandboxId
  · subst hid
    exact .inl (by simpa [putSandbox] using h.symm)
  · exact .inr (by simpa [putSandbox, hid] using h)

end Db

/-- No row has the id of the Workspace. -/
def workspaceNotFound (workspaceId : String) : StateError :=
  .notFound s!"Workspace '{workspaceId}' was not found"

/-- No row has the id of the Sandbox. -/
def sandboxNotFound (sandboxId : String) : StateError :=
  .notFound s!"Sandbox '{sandboxId}' was not found"

/-- No row has the id of the operation. -/
def operationNotFound (operationId : String) : StateError :=
  .notFound s!"Operation '{operationId}' was not found"

/-! ## Workspaces and Sandboxes -/

/-- `create_workspace`: a row that is there is returned, where it says the same. -/
def createWorkspace (db : Db I R) (workspaceId : String) (kind : WorkspaceKind)
    (volumeName : String) (now : ℤ) : Except StateError (Db I R × WorkspaceRecord) :=
  match db.workspaces workspaceId with
  | none =>
    let row := ⟨workspaceId, kind, .detachedClean, volumeName, 0, none, none, now, now, none⟩
    .ok (db.putWorkspace workspaceId row, row)
  | some row =>
    if row.kind ≠ kind ∨ row.volumeName ≠ volumeName then
      .error (.conflict s!"Workspace '{workspaceId}' already exists")
    else .ok (db, row)

/-- `get_workspace` -/
def getWorkspace (db : Db I R) (workspaceId : String) : Except StateError WorkspaceRecord :=
  match db.workspaces workspaceId with
  | none => .error (workspaceNotFound workspaceId)
  | some row => .ok row

/-- The row of a claimed Workspace. -/
def WorkspaceRecord.claim (row : WorkspaceRecord) (sandboxId : String) (createdAt : ℤ) :
    WorkspaceRecord :=
  { row with
    status := .running
    activeSandboxId := some sandboxId
    generation := row.generation + 1
    updatedAt := createdAt
    deleteAfter := none }

/-- The row of a Workspace whose Sandbox has ended. -/
def WorkspaceRecord.release (row : WorkspaceRecord) (status : WorkspaceStatus) (now : ℤ) :
    WorkspaceRecord :=
  { row with status := status, activeSandboxId := none, updatedAt := now }

/-- The row of a Workspace in a new status. -/
def WorkspaceRecord.move (row : WorkspaceRecord) (status : WorkspaceStatus) (now : ℤ) :
    WorkspaceRecord :=
  { row with status := status, updatedAt := now }

/-- The row of a Workspace with a new head. -/
def WorkspaceRecord.commit (row : WorkspaceRecord) (revisionId : String) (now : ℤ) :
    WorkspaceRecord :=
  { row with headRevision := some revisionId, status := .detachedClean, updatedAt := now }

/-- The statuses in which `claim_workspace` refuses to mount. -/
def WorkspaceStatus.notMountable : WorkspaceStatus → Bool
  | .checkpointing | .restoring | .deleting | .deleted => true
  | _ => false

/-- `claim_workspace`: an idle Workspace gets its one Sandbox. -/
def claimWorkspace (db : Db I R) (workspaceId sandboxId workerHost containerName : String)
    (createdAt expiresAt : ℤ) : Except StateError (Db I R × WorkspaceRecord × SandboxRecord) :=
  match db.workspaces workspaceId with
  | none => .error (workspaceNotFound workspaceId)
  | some row =>
    if row.activeSandboxId ≠ none ∧ row.activeSandboxId ≠ some sandboxId then
      .error (.conflict s!"Workspace '{workspaceId}' already has a writer")
    else if row.status.notMountable then
      let status := row.status
      .error (.conflict s!"Workspace '{workspaceId}' is not mountable while {status}")
    else if (db.sandboxes sandboxId).isSome then
      .error (.integrity "UNIQUE constraint failed: sandboxes.id")
    else
      let sandbox : SandboxRecord :=
        ⟨sandboxId, workspaceId, workerHost, containerName, .starting, createdAt, some expiresAt⟩
      .ok ((db.putSandbox sandboxId sandbox).putWorkspace workspaceId (row.claim sandboxId createdAt),
        row.claim sandboxId createdAt, sandbox)

/-- `mark_sandbox_running`: both rows run, where the Sandbox is starting. -/
def markSandboxRunning (db : Db I R) (sandboxId : String) (now : ℤ) : Except StateError (Db I R) :=
  match db.sandboxes sandboxId with
  | none => .error (.conflict s!"Sandbox '{sandboxId}' is not starting")
  | some sandbox =>
    if sandbox.status = .starting then
      .ok { db.putSandbox sandboxId { sandbox with status := .running } with
        workspaces := fun id => (db.workspaces id).map fun row =>
          if row.activeSandboxId = some sandboxId then { row with updatedAt := now } else row }
    else .error (.conflict s!"Sandbox '{sandboxId}' is not starting")

/-- `renew_sandbox`: only a running Sandbox gets a later end. -/
def renewSandbox (db : Db I R) (sandboxId : String) (expiresAt : ℤ) :
    Except StateError (Db I R × SandboxRecord) :=
  match db.sandboxes sandboxId with
  | none => .error (.conflict s!"Sandbox '{sandboxId}' is not running")
  | some sandbox =>
    if sandbox.status = .running then
      let sandbox' := { sandbox with expiresAt := some expiresAt }
      .ok (db.putSandbox sandboxId sandbox', sandbox')
    else .error (.conflict s!"Sandbox '{sandboxId}' is not running")

/-- Only the Workspace that the Sandbox still holds is given the new status. -/
def finishSandbox (db : Db I R) (sandboxId : String) (status : SandboxStatus)
    (workspaceStatus : WorkspaceStatus) (now : ℤ) :
    Except StateError (Db I R × WorkspaceRecord) :=
  match db.sandboxes sandboxId with
  | none => .error (sandboxNotFound sandboxId)
  | some sandbox =>
    match db.workspaces sandbox.workspaceId with
    | none => .error (.integrity "FOREIGN KEY constraint failed")
    | some row =>
      let sandbox' := { sandbox with status := status, expiresAt := none }
      let row' :=
        if row.activeSandboxId = some sandboxId then row.release workspaceStatus now else row
      .ok ((db.putSandbox sandboxId sandbox').putWorkspace sandbox.workspaceId row', row')

/-- A Workspace goes with all that refers to it. -/
def Db.removeWorkspace (db : Db I R) (workspaceId : String) : Db I R where
  workspaces := Function.update db.workspaces workspaceId none
  sandboxes := fun id => (db.sandboxes id).filter fun row => row.workspaceId ≠ workspaceId
  operations := db.operations.filter fun operation => operation.workspaceId ≠ workspaceId

/-- `delete_workspace`: the row goes with its Sandboxes, unless one of them is active. -/
def deleteWorkspace (db : Db I R) (workspaceId : String) : Except StateError (Db I R) :=
  match db.workspaces workspaceId with
  | none => .ok db
  | some row =>
    if row.activeSandboxId ≠ none then
      .error (.conflict s!"Workspace '{workspaceId}' still has a writer")
    else .ok (db.removeWorkspace workspaceId)

/-- `schedule_workspace_delete`: the grace period of a recoverable Workspace starts, or starts
again. -/
def scheduleWorkspaceDelete (db : Db I R) (workspaceId : String) (deleteAfter now : ℤ) :
    Except StateError (Db I R × WorkspaceRecord) :=
  match db.workspaces workspaceId with
  | none => .error (.notFound s!"Recoverable Workspace '{workspaceId}' was not found")
  | some row =>
    if row.kind = .recoverable then
      let row' := { row with deleteAfter := some deleteAfter, updatedAt := now }
      .ok (db.putWorkspace workspaceId row', row')
    else .error (.notFound s!"Recoverable Workspace '{workspaceId}' was not found")

/-- `transition_workspace`: the state changes only from one of those expected. -/
def transitionWorkspace (db : Db I R) (workspaceId : String) (expected : List WorkspaceStatus)
    (status : WorkspaceStatus) (now : ℤ) : Except StateError (Db I R × WorkspaceRecord) :=
  match db.workspaces workspaceId with
  | none => .error (workspaceNotFound workspaceId)
  | some row =>
    if row.status ∉ expected then
      let old := row.status
      .error (.conflict s!"Workspace '{workspaceId}' cannot transition from {old} to {status}")
    else if row.activeSandboxId ≠ none ∧ status ≠ .running then
      .error (.conflict s!"Workspace '{workspaceId}' still has a writer")
    else .ok (db.putWorkspace workspaceId (row.move status now), row.move status now)

/-! ## Operations -/

/-- The operation with an id. -/
def findOperation (db : Db I R) (operationId : String) : Option (OperationRecord I R) :=
  db.operations.find? fun operation => operation.id = operationId

/-- The operation with the idempotency key if there is one, else a new one; and whether it is
new. -/
def createOperation (db : Db I R) (operationId : String) (operation : OperationKind)
    (workspaceId : String) (sandboxId : Option String) (idempotencyKey : String) (input : I)
    (now : ℤ) : Except StateError (Db I R × OperationRecord I R × Bool) :=
  match db.operations.find? fun operation => operation.idempotencyKey = idempotencyKey with
  | some existing => .ok (db, existing, false)
  | none =>
    if (findOperation db operationId).isSome then
      .error (.integrity "UNIQUE constraint failed: operations.id")
    else if (db.workspaces workspaceId).isNone then
      .error (.integrity "FOREIGN KEY constraint failed")
    else
      let row := ⟨operationId, operation, .pending, none, workspaceId, sandboxId, idempotencyKey,
        input, none, none, now, now⟩
      .ok ({ db with operations := db.operations ++ [row] }, row, true)

/-- `phase`, `result` and `error` are overwritten also where the caller leaves them out. -/
def OperationRecord.update (operation : OperationRecord I R) (status : OperationStatus)
    (phase : Option OperationPhase) (result : Option R) (error : Option String) (now : ℤ) :
    OperationRecord I R :=
  { operation with
    status := status, phase := phase, result := result, error := error, updatedAt := now }

/-- `update_operation` -/
def updateOperation (db : Db I R) (operationId : String) (status : OperationStatus)
    (phase : Option OperationPhase) (result : Option R) (error : Option String) (now : ℤ) :
    Except StateError (Db I R) :=
  if (findOperation db operationId).isNone then .error (operationNotFound operationId)
  else .ok { db with
    operations := db.operations.map fun operation =>
      if operation.id = operationId then operation.update status phase result error now
      else operation }

/-- The head moves only if the Workspace is still the one that was checkpointed. -/
def commitRevision (db : Db I R) (workspaceId operationId revisionId : String) (generation : ℕ)
    (result : R) (now : ℤ) : Except StateError (Db I R × WorkspaceRecord) :=
  match db.workspaces workspaceId with
  | none => .error (workspaceNotFound workspaceId)
  | some row =>
    if row.status ≠ .checkpointing ∨ row.activeSandboxId ≠ none ∨ row.generation ≠ generation then
      .error (.conflict s!"Workspace '{workspaceId}' changed during checkpoint")
    else if (findOperation db operationId).isNone then .error (.integrity "AssertionError")
    else
      let succeed := fun operation : OperationRecord I R =>
        if operation.id = operationId then
          operation.update .succeeded operation.phase (some result) none now
        else operation
      .ok ({ db.putWorkspace workspaceId (row.commit revisionId now) with
        operations := db.operations.map succeed }, row.commit revisionId now)

/-- `with suppress(…)` around a transaction. -/
def suppress {ε α : Type} (old : α) : Except ε α → α
  | .ok new => new
  | .error _ => old

/-- `incomplete_operations`: what a restart finds pending or running. -/
def incompleteOperations (db : Db I R) : List (OperationRecord I R) :=
  db.operations.filter fun operation =>
    operation.status = .pending || operation.status = .running

/-! ## What a transaction that returns has done -/

section Inversion

variable {db db' : Db I R} {workspaceId sandboxId operationId : String} {row' : WorkspaceRecord}
  {now : ℤ}

/-- **A claim** takes an idle Workspace of a status that may be claimed, and counts its generation.
-/
theorem claimWorkspace_ok {workerHost containerName : String} {createdAt expiresAt : ℤ}
    {sandbox : SandboxRecord}
    (h : claimWorkspace db workspaceId sandboxId workerHost containerName createdAt expiresAt =
      .ok (db', row', sandbox)) :
    ∃ row, db.workspaces workspaceId = some row ∧
      (row.activeSandboxId = none ∨ row.activeSandboxId = some sandboxId) ∧
      row.status.notMountable = false ∧ db.sandboxes sandboxId = none ∧
      row' = row.claim sandboxId createdAt ∧ sandbox.workspaceId = workspaceId ∧
      db' = (db.putSandbox sandboxId sandbox).putWorkspace workspaceId row' := by
  rw [claimWorkspace] at h
  split at h
  · cases h
  · rename_i row hrow
    split_ifs at h with hactive hstatus hsandbox
    obtain ⟨rfl, rfl, rfl⟩ := Prod.mk.inj (Except.ok.inj h) |>.imp_right Prod.mk.inj
    refine ⟨row, hrow, ?_, by simpa using hstatus, by simpa using hsandbox, rfl, rfl, rfl⟩
    by_contra hne
    exact hactive (not_or.mp hne)

/-- A Sandbox that is marked running was starting, and its Workspace runs with it. -/
theorem markSandboxRunning_ok (h : markSandboxRunning db sandboxId now = .ok db') :
    ∃ sandbox, db.sandboxes sandboxId = some sandbox ∧
      db'.sandboxes = (db.putSandbox sandboxId { sandbox with status := .running }).sandboxes ∧
      ∀ id row, db.workspaces id = some row →
        db'.workspaces id = some row ∨ db'.workspaces id = some (row.move row.status now) := by
  rw [markSandboxRunning] at h
  split at h
  · cases h
  · rename_i sandbox hsandbox
    split_ifs at h
    obtain rfl := Except.ok.inj h
    refine ⟨sandbox, hsandbox, rfl, fun id row hrow => ?_⟩
    by_cases hactive : row.activeSandboxId = some sandboxId
    · exact .inr (by simp [hrow, hactive, WorkspaceRecord.move])
    · exact .inl (by simp [hrow, hactive])

/-- The same, by what the row of the Sandbox was. -/
theorem markSandboxRunning_eq (h : markSandboxRunning db sandboxId now = .ok db') :
    ∃ sandbox, db.sandboxes sandboxId = some sandbox ∧ sandbox.status = .starting ∧
      db'.sandboxes = (db.putSandbox sandboxId { sandbox with status := .running }).sandboxes ∧
      db'.workspaces = fun id => (db.workspaces id).map fun row =>
        if row.activeSandboxId = some sandboxId then { row with updatedAt := now } else row := by
  rw [markSandboxRunning] at h
  split at h
  · cases h
  · rename_i sandbox hsandbox
    split_ifs at h with hstarting
    obtain rfl := Except.ok.inj h
    exact ⟨sandbox, hsandbox, hstarting, rfl, rfl⟩

/-- A Workspace that is deleted had no active Sandbox. -/
theorem deleteWorkspace_eq (h : deleteWorkspace db workspaceId = .ok db') :
    db.workspaces workspaceId = none ∧ db' = db ∨
      ∃ row, db.workspaces workspaceId = some row ∧ row.activeSandboxId = none ∧
        db' = db.removeWorkspace workspaceId := by
  rw [deleteWorkspace] at h
  split at h
  · rename_i hnone
    obtain rfl := Except.ok.inj h
    exact .inl ⟨hnone, rfl⟩
  · rename_i row hrow
    split_ifs at h with hactive
    obtain rfl := Except.ok.inj h
    exact .inr ⟨row, hrow, by simpa using hactive, rfl⟩

/-- **The end of a Sandbox** leaves its Workspace idle where it was the active one. -/
theorem finishSandbox_ok {status : SandboxStatus} {workspaceStatus : WorkspaceStatus}
    (h : finishSandbox db sandboxId status workspaceStatus now = .ok (db', row')) :
    ∃ sandbox ended row, db.sandboxes sandboxId = some sandbox ∧
      db.workspaces sandbox.workspaceId = some row ∧ ended.workspaceId = sandbox.workspaceId ∧
      (row.activeSandboxId = some sandboxId ∧ row' = row.release workspaceStatus now ∨
        row' = row) ∧
      db' = (db.putSandbox sandboxId ended).putWorkspace sandbox.workspaceId row' := by
  rw [finishSandbox] at h
  split at h
  · cases h
  · rename_i sandbox hsandbox
    split at h
    · cases h
    · rename_i row hrow
      obtain ⟨rfl, rfl⟩ := Prod.mk.inj (Except.ok.inj h)
      refine ⟨sandbox, { sandbox with status := status, expiresAt := none }, row, hsandbox, hrow,
        rfl, ?_, rfl⟩
      split_ifs with hactive
      · exact .inl ⟨hactive, rfl⟩
      · exact .inr rfl

/-- A transition starts from an expected status, with no active Sandbox. -/
theorem transitionWorkspace_ok {expected : List WorkspaceStatus} {status : WorkspaceStatus}
    (h : transitionWorkspace db workspaceId expected status now = .ok (db', row')) :
    ∃ row, db.workspaces workspaceId = some row ∧ row.status ∈ expected ∧
      (row.activeSandboxId = none ∨ status = .running) ∧ row' = row.move status now ∧
      db' = db.putWorkspace workspaceId row' := by
  rw [transitionWorkspace] at h
  split at h
  · cases h
  · rename_i row hrow
    split_ifs at h with hstatus hactive
    obtain ⟨rfl, rfl⟩ := Prod.mk.inj (Except.ok.inj h)
    refine ⟨row, hrow, hstatus, ?_, rfl, rfl⟩
    by_contra hne
    exact hactive (not_or.mp hne)

/-- A transition that is allowed is made. -/
theorem transitionWorkspace_eq {expected : List WorkspaceStatus} {row : WorkspaceRecord}
    (hrow : db.workspaces workspaceId = some row) (hstatus : row.status ∈ expected)
    (hactive : row.activeSandboxId = none) (status : WorkspaceStatus) (now : ℤ) :
    transitionWorkspace db workspaceId expected status now =
      .ok (db.putWorkspace workspaceId (row.move status now), row.move status now) := by
  simp [transitionWorkspace, hrow, hstatus, hactive]

/-- **A commit** is of a checkpointing Workspace whose generation is the one asked for. -/
theorem commitRevision_ok {revisionId : String} {generation : ℕ} {result : R}
    (h : commitRevision db workspaceId operationId revisionId generation result now =
      .ok (db', row')) :
    ∃ row, db.workspaces workspaceId = some row ∧ row.status = .checkpointing ∧
      row.activeSandboxId = none ∧ row.generation = generation ∧
      row' = row.commit revisionId now ∧ db'.sandboxes = db.sandboxes ∧
      db'.workspaces = (db.putWorkspace workspaceId row').workspaces := by
  rw [commitRevision] at h
  split at h
  · cases h
  · rename_i row hrow
    split_ifs at h with hchanged hoperation
    obtain ⟨rfl, rfl⟩ := Prod.mk.inj (Except.ok.inj h)
    simp only [not_or, not_not] at hchanged
    exact ⟨row, hrow, hchanged.1, hchanged.2.1, hchanged.2.2, rfl, rfl, rfl⟩

/-- A renewal changes no Workspace. -/
theorem renewSandbox_frame {expiresAt : ℤ} {sandbox : SandboxRecord}
    (h : renewSandbox db sandboxId expiresAt = .ok (db', sandbox)) :
    db'.workspaces = db.workspaces := by
  rw [renewSandbox] at h
  split at h
  · cases h
  · split_ifs at h
    obtain ⟨rfl, -⟩ := Prod.mk.inj (Except.ok.inj h)
    rfl

/-- A new operation changes neither Workspaces nor Sandboxes. -/
theorem createOperation_frame {operation : OperationKind} {owner : Option String} {key : String}
    {input : I} {r : OperationRecord I R × Bool}
    (h : createOperation db operationId operation workspaceId owner key input now = .ok (db', r)) :
    db'.workspaces = db.workspaces ∧ db'.sandboxes = db.sandboxes := by
  rw [createOperation] at h
  split at h
  · obtain ⟨rfl, -⟩ := Prod.mk.inj (Except.ok.inj h)
    exact ⟨rfl, rfl⟩
  · split_ifs at h
    obtain ⟨rfl, -⟩ := Prod.mk.inj (Except.ok.inj h)
    exact ⟨rfl, rfl⟩

/-- An operation that goes on changes neither Workspaces nor Sandboxes. -/
theorem updateOperation_frame {status : OperationStatus} {phase : Option OperationPhase}
    {result : Option R} {error : Option String}
    (h : updateOperation db operationId status phase result error now = .ok db') :
    db'.workspaces = db.workspaces ∧ db'.sandboxes = db.sandboxes := by
  rw [updateOperation] at h
  split_ifs at h
  obtain rfl := Except.ok.inj h
  exact ⟨rfl, rfl⟩

end Inversion

end CodexGateway.Manager
