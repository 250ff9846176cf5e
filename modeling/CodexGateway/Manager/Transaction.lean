import CodexGateway.Manager.State

/-!
# Manager/Transaction — the transactions of the store, statement by statement

A transaction of `StateStore` is a sequence of SQL statements, each of which may raise after others
have written.  `transaction` rolls back what a raising body has written.  The functions of
`Manager/State` are what these transactions do as a whole.
-/

namespace CodexGateway.Manager

/-- A row of `workspace_revisions`. -/
structure RevisionRecord where
  id : String
  workspaceId : String
  snapshotId : String
  createdAt : ℤ
deriving DecidableEq

/-- All tables but the consumed nonces. -/
structure Store (I R : Type) extends Db I R where
  revisions : List RevisionRecord

/-- All tables before the first call. -/
def Store.empty {I R : Type} : Store I R := ⟨.empty, []⟩

/-- The tables other than `revisions` are replaced. -/
def Store.setDb {I R : Type} (store : Store I R) (db : Db I R) : Store I R := ⟨db, store.revisions⟩

/-- The tables that were set are read. -/
@[simp] theorem Store.setDb_toDb {I R : Type} (store : Store I R) (db : Db I R) :
    (store.setDb db).toDb = db := rfl

/-- What runs on a connection: a statement that raises leaves what was written before it. -/
abbrev Sql (I R : Type) := EStateM StateError (Store I R)

namespace Sql

variable {I R α : Type}

/-- `transaction` -/
def transaction (body : Sql I R α) : Sql I R α := fun store =>
  match body store with
  | .ok a store' => .ok a store'
  | .error e _ => .error e store

/-! ## Statements -/

/-- The row of a Workspace, if there is one. -/
def selectWorkspace (workspaceId : String) : Sql I R (Option WorkspaceRecord) := fun store =>
  .ok (store.workspaces workspaceId) store

/-- The row of a Sandbox, if there is one. -/
def selectSandbox (sandboxId : String) : Sql I R (Option SandboxRecord) := fun store =>
  .ok (store.sandboxes sandboxId) store

/-- `assert row is not None` -/
def require : Option α → Sql I R α
  | some row => pure row
  | none => throw (.integrity "AssertionError")

/-- A row that is read back at the end of a transaction. -/
def fetchWorkspace (workspaceId : String) : Sql I R WorkspaceRecord := fun store =>
  require (store.workspaces workspaceId) store

/-- The row of a Sandbox, which the code takes for there. -/
def fetchSandbox (sandboxId : String) : Sql I R SandboxRecord := fun store =>
  require (store.sandboxes sandboxId) store

/-- The row of an operation, which the code takes for there. -/
def fetchOperation (operationId : String) : Sql I R (OperationRecord I R) := fun store =>
  require (findOperation store.toDb operationId) store

/-- `INSERT INTO workspaces … ON CONFLICT(id) DO NOTHING` -/
def insertWorkspace (row : WorkspaceRecord) : Sql I R Unit := fun store =>
  if (store.workspaces row.id).isSome then .ok () store
  else .ok () (store.setDb (store.putWorkspace row.id row))

/-- `UPDATE workspaces … WHERE id = ?`, with `rowcount`. -/
def updateWorkspace (workspaceId : String) (p : WorkspaceRecord → Bool)
    (f : WorkspaceRecord → WorkspaceRecord) : Sql I R ℕ := fun store =>
  match (store.workspaces workspaceId).filter p with
  | none => .ok 0 store
  | some row => .ok 1 (store.setDb (store.putWorkspace workspaceId (f row)))

/-- `UPDATE workspaces … WHERE active_sandbox_id = ?` -/
def updateWriter (sandboxId : String) (f : WorkspaceRecord → WorkspaceRecord) : Sql I R Unit :=
  fun store => .ok () (store.setDb { store.toDb with
    workspaces := fun id => (store.workspaces id).map fun row =>
      if row.activeSandboxId = some sandboxId then f row else row })

/-- `INSERT INTO sandboxes`; the Workspace is a foreign key. -/
def insertSandbox (row : SandboxRecord) : Sql I R Unit := fun store =>
  if (store.sandboxes row.id).isSome then
    .error (.integrity "UNIQUE constraint failed: sandboxes.id") store
  else if (store.workspaces row.workspaceId).isNone then
    .error (.integrity "FOREIGN KEY constraint failed") store
  else .ok () (store.setDb (store.putSandbox row.id row))

/-- `UPDATE sandboxes … WHERE id = ?`, with `rowcount`. -/
def updateSandbox (sandboxId : String) (p : SandboxRecord → Bool)
    (f : SandboxRecord → SandboxRecord) : Sql I R ℕ := fun store =>
  match (store.sandboxes sandboxId).filter p with
  | none => .ok 0 store
  | some row => .ok 1 (store.setDb (store.putSandbox sandboxId (f row)))

/-- `INSERT INTO revisions … ON CONFLICT(workspace_id, snapshot_id) DO NOTHING`; the id is the
primary key. -/
def insertRevision (row : RevisionRecord) : Sql I R Unit := fun store =>
  if store.revisions.any fun r =>
      r.workspaceId = row.workspaceId && r.snapshotId = row.snapshotId then .ok () store
  else if store.revisions.any fun r => r.id = row.id then
    .error (.integrity "UNIQUE constraint failed: revisions.id") store
  else .ok () { store with revisions := store.revisions ++ [row] }

/-- `INSERT INTO operations`; the Workspace is a foreign key. -/
def insertOperation (row : OperationRecord I R) : Sql I R Unit := fun store =>
  if (findOperation store.toDb row.id).isSome then
    .error (.integrity "UNIQUE constraint failed: operations.id") store
  else if (store.workspaces row.workspaceId).isNone then
    .error (.integrity "FOREIGN KEY constraint failed") store
  else .ok () (store.setDb { store.toDb with operations := store.operations ++ [row] })

/-- `UPDATE operations … WHERE id = ?`, with `rowcount`. -/
def updateOperations (operationId : String) (f : OperationRecord I R → OperationRecord I R) :
    Sql I R ℕ := fun store =>
  if (findOperation store.toDb operationId).isNone then .ok 0 store
  else .ok 1 (store.setDb { store.toDb with
    operations := store.operations.map fun operation =>
      if operation.id = operationId then f operation else operation })

/-- `DELETE FROM … WHERE workspace_id = ?` for the three tables that refer to a Workspace, and then
the Workspace itself. -/
def deleteOperations (workspaceId : String) : Sql I R Unit := fun store =>
  .ok () (store.setDb { store.toDb with
    operations := store.operations.filter fun operation => operation.workspaceId ≠ workspaceId })

/-- The revisions of a Workspace go. -/
def deleteRevisions (workspaceId : String) : Sql I R Unit := fun store =>
  .ok () { store with
    revisions := store.revisions.filter fun revision => revision.workspaceId ≠ workspaceId }

/-- The Sandboxes of a Workspace go. -/
def deleteSandboxes (workspaceId : String) : Sql I R Unit := fun store =>
  .ok () (store.setDb { store.toDb with
    sandboxes := fun id => (store.sandboxes id).filter fun row => row.workspaceId ≠ workspaceId })

/-- The row of a Workspace goes. -/
def deleteWorkspaceRow (workspaceId : String) : Sql I R Unit := fun store =>
  .ok () (store.setDb { store.toDb with
    workspaces := Function.update store.workspaces workspaceId none })

/-! ## Transactions -/

/-- `create_workspace`, statement by statement. -/
def createWorkspace (workspaceId : String) (kind : WorkspaceKind) (volumeName : String) (now : ℤ) :
    Sql I R WorkspaceRecord := transaction do
  insertWorkspace ⟨workspaceId, kind, .detachedClean, volumeName, 0, none, none, now, now, none⟩
  let row ← fetchWorkspace workspaceId
  if row.kind ≠ kind ∨ row.volumeName ≠ volumeName then
    throw (.conflict s!"Workspace '{workspaceId}' already exists")
  return row

/-- `claim_workspace`, statement by statement. -/
def claimWorkspace (workspaceId sandboxId workerHost containerName : String)
    (createdAt expiresAt : ℤ) : Sql I R (WorkspaceRecord × SandboxRecord) := transaction do
  match ← selectWorkspace workspaceId with
  | none => throw (workspaceNotFound workspaceId)
  | some row =>
    if row.activeSandboxId ≠ none ∧ row.activeSandboxId ≠ some sandboxId then
      throw (.conflict s!"Workspace '{workspaceId}' already has a writer")
    if row.status.notMountable then
      let status := row.status
      throw (.conflict s!"Workspace '{workspaceId}' is not mountable while {status}")
    insertSandbox
      ⟨sandboxId, workspaceId, workerHost, containerName, .starting, createdAt, some expiresAt⟩
    let _ ← updateWorkspace workspaceId (fun _ => true) fun row => row.claim sandboxId createdAt
    let row ← fetchWorkspace workspaceId
    let sandbox ← fetchSandbox sandboxId
    return (row, sandbox)

/-- `mark_sandbox_running`, statement by statement. -/
def markSandboxRunning (sandboxId : String) (now : ℤ) : Sql I R Unit := transaction do
  let changed ← updateSandbox sandboxId (·.status = .starting) fun row =>
    { row with status := .running }
  if changed ≠ 1 then throw (.conflict s!"Sandbox '{sandboxId}' is not starting")
  updateWriter sandboxId fun row => { row with updatedAt := now }

/-- `renew_sandbox`, statement by statement. -/
def renewSandbox (sandboxId : String) (expiresAt : ℤ) : Sql I R SandboxRecord := transaction do
  let changed ← updateSandbox sandboxId (·.status = .running) fun row =>
    { row with expiresAt := some expiresAt }
  if changed ≠ 1 then throw (.conflict s!"Sandbox '{sandboxId}' is not running")
  fetchSandbox sandboxId

/-- `finish_sandbox`, statement by statement. -/
def finishSandbox (sandboxId : String) (status : SandboxStatus) (workspaceStatus : WorkspaceStatus)
    (now : ℤ) : Sql I R WorkspaceRecord := transaction do
  match ← selectSandbox sandboxId with
  | none => throw (sandboxNotFound sandboxId)
  | some sandbox =>
    let _ ← updateSandbox sandboxId (fun _ => true) fun row =>
      { row with status := status, expiresAt := none }
    let _ ← updateWorkspace sandbox.workspaceId (·.activeSandboxId = some sandboxId) fun row =>
      row.release workspaceStatus now
    fetchWorkspace sandbox.workspaceId

/-- `delete_workspace`, statement by statement. -/
def deleteWorkspace (workspaceId : String) : Sql I R Unit := transaction do
  match ← selectWorkspace workspaceId with
  | none => return ()
  | some row =>
    if row.activeSandboxId ≠ none then
      throw (.conflict s!"Workspace '{workspaceId}' still has a writer")
    deleteOperations workspaceId
    deleteRevisions workspaceId
    deleteSandboxes workspaceId
    deleteWorkspaceRow workspaceId

/-- `schedule_workspace_delete`, statement by statement. -/
def scheduleWorkspaceDelete (workspaceId : String) (deleteAfter now : ℤ) :
    Sql I R WorkspaceRecord := transaction do
  let changed ← updateWorkspace workspaceId (·.kind = .recoverable) fun row =>
    { row with deleteAfter := some deleteAfter, updatedAt := now }
  if changed ≠ 1 then
    throw (.notFound s!"Recoverable Workspace '{workspaceId}' was not found")
  fetchWorkspace workspaceId

/-- `transition_workspace`, statement by statement. -/
def transitionWorkspace (workspaceId : String) (expected : List WorkspaceStatus)
    (status : WorkspaceStatus) (now : ℤ) : Sql I R WorkspaceRecord := transaction do
  match ← selectWorkspace workspaceId with
  | none => throw (workspaceNotFound workspaceId)
  | some row =>
    if row.status ∉ expected then
      let old := row.status
      throw (.conflict s!"Workspace '{workspaceId}' cannot transition from {old} to {status}")
    if row.activeSandboxId ≠ none ∧ status ≠ .running then
      throw (.conflict s!"Workspace '{workspaceId}' still has a writer")
    let _ ← updateWorkspace workspaceId (fun _ => true) fun row => row.move status now
    fetchWorkspace workspaceId

/-- `commit_revision`, statement by statement. -/
def commitRevision (workspaceId operationId revisionId : String) (generation : ℕ) (result : R)
    (now : ℤ) : Sql I R (WorkspaceRecord × OperationRecord I R) := transaction do
  match ← selectWorkspace workspaceId with
  | none => throw (workspaceNotFound workspaceId)
  | some row =>
    if row.status ≠ .checkpointing ∨ row.activeSandboxId ≠ none ∨ row.generation ≠ generation then
      throw (.conflict s!"Workspace '{workspaceId}' changed during checkpoint")
    insertRevision ⟨revisionId, workspaceId, revisionId, now⟩
    let _ ← updateWorkspace workspaceId (fun _ => true) fun row => row.commit revisionId now
    let _ ← updateOperations operationId fun operation =>
      operation.update .succeeded operation.phase (some result) none now
    let row ← fetchWorkspace workspaceId
    let operation ← fetchOperation operationId
    return (row, operation)

/-- `create_operation`, statement by statement. -/
def createOperation (operationId : String) (operation : OperationKind) (workspaceId : String)
    (sandboxId : Option String) (idempotencyKey : String) (input : I) (now : ℤ) :
    Sql I R (OperationRecord I R × Bool) := transaction fun store =>
  match store.operations.find? fun operation => operation.idempotencyKey = idempotencyKey with
  | some existing => .ok (existing, false) store
  | none => (do
      insertOperation ⟨operationId, operation, .pending, none, workspaceId, sandboxId,
        idempotencyKey, input, none, none, now, now⟩
      let row ← fetchOperation operationId
      return (row, true) : Sql I R (OperationRecord I R × Bool)) store

/-- `update_operation`, statement by statement. -/
def updateOperation (operationId : String) (status : OperationStatus)
    (phase : Option OperationPhase) (result : Option R) (error : Option String) (now : ℤ) :
    Sql I R (OperationRecord I R) := transaction do
  let changed ← updateOperations operationId fun operation =>
    operation.update status phase result error now
  if changed ≠ 1 then throw (operationNotFound operationId)
  fetchOperation operationId

/-! ## What a transaction that returns has done -/

section Returns

variable {β : Type} {store store' : Store I R} {body : Sql I R α} {a : α} {now : ℤ}
variable {workspaceId sandboxId operationId : String}

/-- What runs after a statement runs where that has left the tables. -/
theorem bind_ok {f : α → Sql I R β} {b : β} (h : (body >>= f) store = .ok b store') :
    ∃ a mid, body store = .ok a mid ∧ f a mid = .ok b store' := by
  simp only [bind, EStateM.bind] at h
  split at h
  · rename_i a mid hbody
    exact ⟨a, mid, hbody, h⟩
  · cases h

/-- **A transaction that raises leaves the tables as they were.** -/
theorem transaction_error {e : StateError} (h : transaction body store = .error e store') :
    store' = store := by
  rw [transaction] at h
  split at h
  · cases h
  · cases h
    rfl

/-- A transaction that commits has run to its end. -/
theorem transaction_ok (h : transaction body store = .ok a store') : body store = .ok a store' := by
  rw [transaction] at h
  split at h
  · rename_i hbody
    rw [hbody, h]
  · cases h

/-- A row that the code takes for there was there. -/
theorem require_ok {row : Option α} (h : require row store = .ok a store') :
    row = some a ∧ store = store' := by
  cases row with
  | none => cases h
  | some row =>
    cases h
    exact ⟨rfl, rfl⟩

/-- `if … : raise` -/
theorem unless_ok {p : Prop} [Decidable p] {e : StateError} {f : Unit → Sql I R α}
    (h : (if p then (throw e : Sql I R Unit) >>= f else f ()) store = .ok a store') :
    ¬ p ∧ f () store = .ok a store' := by
  split_ifs at h with hp
  · cases h
  · exact ⟨hp, h⟩

/-- An update of a Workspace changes one row, or none where none is as asked. -/
theorem updateWorkspace_ok {p : WorkspaceRecord → Bool} {f : WorkspaceRecord → WorkspaceRecord}
    {n : ℕ} (h : updateWorkspace workspaceId p f store = .ok n store') :
    n = 0 ∧ (store.workspaces workspaceId).filter p = none ∧ store' = store ∨
      n = 1 ∧ ∃ row, store.workspaces workspaceId = some row ∧ p row = true ∧
        store' = (store.setDb (store.putWorkspace workspaceId (f row))) := by
  rw [updateWorkspace] at h
  split at h
  · rename_i hrow
    cases h
    exact .inl ⟨rfl, hrow, rfl⟩
  · rename_i row hrow
    cases h
    obtain ⟨hrow, hp⟩ := Option.filter_eq_some_iff.mp hrow
    exact .inr ⟨rfl, row, hrow, hp, rfl⟩

/-- An update of a Sandbox changes one row, or none where none is as asked. -/
theorem updateSandbox_ok {p : SandboxRecord → Bool} {f : SandboxRecord → SandboxRecord} {n : ℕ}
    (h : updateSandbox sandboxId p f store = .ok n store') :
    n = 0 ∧ (store.sandboxes sandboxId).filter p = none ∧ store' = store ∨
      n = 1 ∧ ∃ row, store.sandboxes sandboxId = some row ∧ p row = true ∧
        store' = (store.setDb (store.putSandbox sandboxId (f row))) := by
  rw [updateSandbox] at h
  split at h
  · rename_i hrow
    cases h
    exact .inl ⟨rfl, hrow, rfl⟩
  · rename_i row hrow
    cases h
    obtain ⟨hrow, hp⟩ := Option.filter_eq_some_iff.mp hrow
    exact .inr ⟨rfl, row, hrow, hp, rfl⟩

/-- All rows with the id are updated. -/
theorem updateWorkspace_all {f : WorkspaceRecord → WorkspaceRecord} {row : WorkspaceRecord} {n : ℕ}
    (h : updateWorkspace workspaceId (fun _ => true) f store = .ok n store')
    (hrow : store.workspaces workspaceId = some row) :
    store' = (store.setDb (store.putWorkspace workspaceId (f row))) := by
  rcases updateWorkspace_ok h with ⟨-, hnone, -⟩ | ⟨-, row', hrow', -, rfl⟩
  · simp [hrow] at hnone
  · rw [Option.some.inj (hrow.symm.trans hrow')]

/-- A Sandbox is inserted under a new id. -/
theorem insertSandbox_ok {row : SandboxRecord} (h : insertSandbox row store = .ok () store') :
    store.sandboxes row.id = none ∧ store' = (store.setDb (store.putSandbox row.id row)) := by
  rw [insertSandbox] at h
  split_ifs at h with hsandbox
  cases h
  exact ⟨by simpa using hsandbox, rfl⟩

/-- A claim that commits is the one of the model. -/
theorem claimWorkspace_ok {workerHost containerName : String} {createdAt expiresAt : ℤ}
    {r : WorkspaceRecord × SandboxRecord}
    (h : claimWorkspace workspaceId sandboxId workerHost containerName createdAt expiresAt store =
      .ok r store') :
    Manager.claimWorkspace store.toDb workspaceId sandboxId workerHost containerName createdAt
      expiresAt = .ok (store'.toDb, r) := by
  obtain ⟨row?, mid, hsel, h⟩ := bind_ok (transaction_ok h)
  cases hsel
  cases hrow : store.workspaces workspaceId with
  | none =>
    rw [hrow] at h
    cases h
  | some row =>
    rw [hrow] at h
    obtain ⟨hactive, h⟩ := unless_ok h
    obtain ⟨hstatus, h⟩ := unless_ok h
    obtain ⟨_, mid, hinsert, h⟩ := bind_ok h
    obtain ⟨hsandbox, rfl⟩ := insertSandbox_ok hinsert
    obtain ⟨n, mid', hupdate, h⟩ := bind_ok h
    obtain rfl := updateWorkspace_all hupdate hrow
    obtain ⟨row', mid, hfetch, h⟩ := bind_ok h
    obtain ⟨hrow', rfl⟩ := require_ok hfetch
    obtain ⟨sandbox, mid, hfetch', h⟩ := bind_ok h
    obtain ⟨hsandbox', rfl⟩ := require_ok hfetch'
    cases h
    obtain rfl : row.claim sandboxId createdAt = row' := by simpa using hrow'
    have hnew := (Function.update_self sandboxId _ store.sandboxes).symm.trans hsandbox'
    obtain rfl := Option.some.inj hnew
    have hfree : store.sandboxes sandboxId = none := hsandbox
    rw [Manager.claimWorkspace, hrow]
    dsimp only
    rw [if_neg hactive, if_neg hstatus, if_neg (by simp [hfree])]
    rfl

/-- A mark that commits is the one of the model. -/
theorem markSandboxRunning_ok (h : markSandboxRunning sandboxId now store = .ok () store') :
    Manager.markSandboxRunning store.toDb sandboxId now = .ok store'.toDb := by
  obtain ⟨n, mid, hupdate, h⟩ := bind_ok (transaction_ok h)
  obtain ⟨hn, h⟩ := unless_ok h
  rcases updateSandbox_ok hupdate with ⟨rfl, -, -⟩ | ⟨-, row, hrow, hp, rfl⟩
  · exact absurd (by decide) hn
  · cases h
    rw [Manager.markSandboxRunning, hrow]
    dsimp only
    rw [if_pos (by simpa using hp)]
    rfl

/-- A renewal that commits is the one of the model. -/
theorem renewSandbox_ok {expiresAt : ℤ} {r : SandboxRecord}
    (h : renewSandbox sandboxId expiresAt store = .ok r store') :
    Manager.renewSandbox store.toDb sandboxId expiresAt = .ok (store'.toDb, r) := by
  obtain ⟨n, mid, hupdate, h⟩ := bind_ok (transaction_ok h)
  obtain ⟨hn, h⟩ := unless_ok h
  rcases updateSandbox_ok hupdate with ⟨rfl, -, -⟩ | ⟨-, row, hrow, hp, rfl⟩
  · exact absurd (by decide) hn
  · obtain ⟨hfetch, rfl⟩ := require_ok h
    have hnew := (Function.update_self sandboxId _ store.sandboxes).symm.trans hfetch
    obtain rfl := Option.some.inj hnew
    rw [Manager.renewSandbox, hrow]
    dsimp only
    rw [if_pos (by simpa using hp)]
    rfl

/-- An end that commits is the one of the model. -/
theorem finishSandbox_ok {status : SandboxStatus} {workspaceStatus : WorkspaceStatus}
    {r : WorkspaceRecord}
    (h : finishSandbox sandboxId status workspaceStatus now store = .ok r store') :
    Manager.finishSandbox store.toDb sandboxId status workspaceStatus now =
      .ok (store'.toDb, r) := by
  obtain ⟨row?, mid, hsel, h⟩ := bind_ok (transaction_ok h)
  cases hsel
  cases hsandbox : store.sandboxes sandboxId with
  | none =>
    rw [hsandbox] at h
    cases h
  | some sandbox =>
    rw [hsandbox] at h
    obtain ⟨n, mid, hupdate, h⟩ := bind_ok h
    obtain ⟨n', mid', hupdate', h⟩ := bind_ok h
    obtain ⟨hfetch, rfl⟩ := require_ok h
    rcases updateSandbox_ok hupdate with ⟨-, hnone, -⟩ | ⟨-, row, hrow, -, rfl⟩
    · simp [hsandbox] at hnone
    obtain rfl := Option.some.inj (hsandbox.symm.trans hrow)
    rw [Manager.finishSandbox, hsandbox]
    rcases updateWorkspace_ok hupdate' with ⟨-, hnone, rfl⟩ | ⟨-, row, hrow, hactive, rfl⟩
    · have hr : store.workspaces sandbox.workspaceId = some r := hfetch
      have hactive : r.activeSandboxId ≠ some sandboxId := by
        have hnone' : (store.workspaces sandbox.workspaceId).filter
            (fun row => row.activeSandboxId = some sandboxId) = none := hnone
        simpa [hr] using hnone'
      have hself : (store.putSandbox sandboxId
          { sandbox with status := status, expiresAt := none }).putWorkspace sandbox.workspaceId r =
          store.putSandbox sandboxId { sandbox with status := status, expiresAt := none } :=
        Db.putWorkspace_self hr
      simp only [hr, if_neg hactive, hself]
      rfl
    · have hrow' : store.workspaces sandbox.workspaceId = some row := hrow
      have hactive' : row.activeSandboxId = some sandboxId := by simpa using hactive
      have hr : row.release workspaceStatus now = r := by simpa using hfetch
      simp only [hrow', if_pos hactive', hr]
      rw [← hr]
      rfl

/-- A deletion that commits is the one of the model. -/
theorem deleteWorkspace_ok (h : deleteWorkspace workspaceId store = .ok () store') :
    Manager.deleteWorkspace store.toDb workspaceId = .ok store'.toDb := by
  obtain ⟨row?, mid, hsel, h⟩ := bind_ok (transaction_ok h)
  cases hsel
  cases hrow : store.workspaces workspaceId with
  | none =>
    rw [hrow] at h
    cases h
    rw [Manager.deleteWorkspace, hrow]
  | some row =>
    rw [hrow] at h
    obtain ⟨hactive, h⟩ := unless_ok h
    cases h
    rw [Manager.deleteWorkspace, hrow]
    dsimp only
    rw [if_neg hactive]
    rfl

/-- A schedule that commits is the one of the model. -/
theorem scheduleWorkspaceDelete_ok {deleteAfter : ℤ} {r : WorkspaceRecord}
    (h : scheduleWorkspaceDelete workspaceId deleteAfter now store = .ok r store') :
    Manager.scheduleWorkspaceDelete store.toDb workspaceId deleteAfter now =
      .ok (store'.toDb, r) := by
  obtain ⟨n, mid, hupdate, h⟩ := bind_ok (transaction_ok h)
  obtain ⟨hn, h⟩ := unless_ok h
  rcases updateWorkspace_ok hupdate with ⟨rfl, -, -⟩ | ⟨-, row, hrow, hp, rfl⟩
  · exact absurd (by decide) hn
  · obtain ⟨hfetch, rfl⟩ := require_ok h
    have hnew := (Function.update_self workspaceId _ store.workspaces).symm.trans hfetch
    obtain rfl := Option.some.inj hnew
    rw [Manager.scheduleWorkspaceDelete, hrow]
    dsimp only
    rw [if_pos (by simpa using hp)]
    rfl

/-- A transition that commits is the one of the model. -/
theorem transitionWorkspace_ok {expected : List WorkspaceStatus} {status : WorkspaceStatus}
    {r : WorkspaceRecord}
    (h : transitionWorkspace workspaceId expected status now store = .ok r store') :
    Manager.transitionWorkspace store.toDb workspaceId expected status now =
      .ok (store'.toDb, r) := by
  obtain ⟨row?, mid, hsel, h⟩ := bind_ok (transaction_ok h)
  cases hsel
  cases hrow : store.workspaces workspaceId with
  | none =>
    rw [hrow] at h
    cases h
  | some row =>
    rw [hrow] at h
    obtain ⟨hstatus, h⟩ := unless_ok h
    obtain ⟨hactive, h⟩ := unless_ok h
    obtain ⟨n, mid, hupdate, h⟩ := bind_ok h
    obtain rfl := updateWorkspace_all hupdate hrow
    obtain ⟨hfetch, rfl⟩ := require_ok h
    have hnew := (Function.update_self workspaceId _ store.workspaces).symm.trans hfetch
    obtain rfl := Option.some.inj hnew
    rw [Manager.transitionWorkspace, hrow]
    dsimp only
    rw [if_neg hstatus, if_neg hactive]
    rfl

/-- A creation that commits is the one of the model. -/
theorem createWorkspace_ok {kind : WorkspaceKind} {volumeName : String} {r : WorkspaceRecord}
    (h : createWorkspace workspaceId kind volumeName now store = .ok r store') :
    Manager.createWorkspace store.toDb workspaceId kind volumeName now = .ok (store'.toDb, r) := by
  obtain ⟨_, mid, hinsert, h⟩ := bind_ok (transaction_ok h)
  obtain ⟨row, mid', hfetch, h⟩ := bind_ok h
  obtain ⟨hrow, rfl⟩ := require_ok hfetch
  obtain ⟨hsame, h⟩ := unless_ok h
  cases h
  rw [insertWorkspace] at hinsert
  split_ifs at hinsert with hsome
  · cases hinsert
    rw [Manager.createWorkspace, hrow]
    dsimp only
    rw [if_neg hsame]
  · cases hinsert
    have hnone : store.workspaces workspaceId = none := by simpa using hsome
    have hnew := (Function.update_self workspaceId _ store.workspaces).symm.trans hrow
    obtain rfl := Option.some.inj hnew
    rw [Manager.createWorkspace, hnone]
    rfl

/-- A revision is inserted into a table of its own. -/
theorem insertRevision_ok {row : RevisionRecord} {u : Unit}
    (h : insertRevision row store = .ok u store') : store'.toDb = store.toDb := by
  rw [insertRevision] at h
  split_ifs at h
  · cases h
    rfl
  · cases h
    rfl

/-- An update of an operation changes one row, or none where there is none. -/
theorem updateOperations_ok {f : OperationRecord I R → OperationRecord I R} {n : ℕ}
    (h : updateOperations operationId f store = .ok n store') :
    n = 0 ∧ findOperation store.toDb operationId = none ∧ store' = store ∨
      n = 1 ∧ (findOperation store.toDb operationId).isSome ∧
        store' = store.setDb { store.toDb with
          operations := store.operations.map fun operation =>
            if operation.id = operationId then f operation else operation } := by
  rw [updateOperations] at h
  split_ifs at h with hnone
  · cases h
    exact .inl ⟨rfl, by simpa using hnone, rfl⟩
  · cases h
    exact .inr ⟨rfl, by simpa [Option.isSome_iff_ne_none] using hnone, rfl⟩

/-- A commit of a revision is the one of the model. -/
theorem commitRevision_ok {revisionId : String} {generation : ℕ} {result : R}
    {r : WorkspaceRecord × OperationRecord I R}
    (h : commitRevision workspaceId operationId revisionId generation result now store =
      .ok r store') :
    Manager.commitRevision store.toDb workspaceId operationId revisionId generation result now =
      .ok (store'.toDb, r.1) := by
  obtain ⟨row?, mid, hsel, h⟩ := bind_ok (transaction_ok h)
  cases hsel
  cases hrow : store.workspaces workspaceId with
  | none =>
    rw [hrow] at h
    cases h
  | some row =>
    rw [hrow] at h
    obtain ⟨hchanged, h⟩ := unless_ok h
    obtain ⟨_, mid, hinsert, h⟩ := bind_ok h
    obtain ⟨db, revisions⟩ := mid
    obtain rfl : db = store.toDb := insertRevision_ok hinsert
    obtain ⟨n, mid', hupdate, h⟩ := bind_ok h
    obtain rfl := updateWorkspace_all hupdate hrow
    obtain ⟨n', last, hoperation, h⟩ := bind_ok h
    obtain ⟨row', mid'', hfetch, h⟩ := bind_ok h
    obtain ⟨hrow', rfl⟩ := require_ok hfetch
    obtain ⟨operation, mid'', hfetch', h⟩ := bind_ok h
    obtain ⟨hfound, rfl⟩ := require_ok hfetch'
    cases h
    rw [Manager.commitRevision, hrow]
    dsimp only
    rw [if_neg hchanged]
    rcases updateOperations_ok hoperation with ⟨-, hnone, rfl⟩ | ⟨-, hsome, rfl⟩
    · exact absurd (hnone.symm.trans hfound) (by simp)
    · have hsome' : (findOperation store.toDb operationId).isSome := hsome
      have hnew := (Function.update_self workspaceId _ store.workspaces).symm.trans hrow'
      obtain rfl := Option.some.inj hnew
      rw [if_neg (by simpa [Option.isSome_iff_ne_none] using hsome')]
      rfl

/-- An operation that is created, or found, is the one of the model. -/
theorem createOperation_ok {operation : OperationKind} {owner : Option String} {key : String}
    {input : I} {r : OperationRecord I R × Bool}
    (h : createOperation operationId operation workspaceId owner key input now store =
      .ok r store') :
    Manager.createOperation store.toDb operationId operation workspaceId owner key input now =
      .ok (store'.toDb, r) := by
  have h := transaction_ok h
  rw [Manager.createOperation]
  cases hfind : store.operations.find? (fun operation => operation.idempotencyKey = key) with
  | some existing =>
    rw [hfind] at h
    cases h
    rfl
  | none =>
    rw [hfind] at h
    obtain ⟨_, mid, hinsert, h⟩ := bind_ok h
    obtain ⟨row, mid', hfetch, h⟩ := bind_ok h
    obtain ⟨hrow, rfl⟩ := require_ok hfetch
    cases h
    rw [insertOperation] at hinsert
    split_ifs at hinsert with hid hworkspace
    cases hinsert
    dsimp only
    rw [if_neg hid, if_neg hworkspace]
    have hnone : store.operations.find? (fun o => o.id = operationId) = none := by
      simpa [findOperation] using hid
    have hnew : row = ⟨operationId, operation, .pending, none, workspaceId, owner, key, input, none,
        none, now, now⟩ := by
      simpa [findOperation, List.find?_append, hnone] using hrow.symm
    rw [hnew]
    rfl

/-- An update that commits is the one of the model. -/
theorem updateOperation_ok {status : OperationStatus} {phase : Option OperationPhase}
    {result : Option R} {error : Option String} {r : OperationRecord I R}
    (h : updateOperation operationId status phase result error now store = .ok r store') :
    Manager.updateOperation store.toDb operationId status phase result error now =
      .ok store'.toDb := by
  obtain ⟨n, mid, hupdate, h⟩ := bind_ok (transaction_ok h)
  obtain ⟨hn, h⟩ := unless_ok h
  rcases updateOperations_ok hupdate with ⟨rfl, -, -⟩ | ⟨-, hsome, rfl⟩
  · exact absurd (by decide) hn
  · obtain ⟨-, rfl⟩ := require_ok h
    rw [Manager.updateOperation, if_neg (by simpa [Option.isSome_iff_ne_none] using hsome)]
    rfl

end Returns

end Sql

end CodexGateway.Manager
