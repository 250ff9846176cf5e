import Mathlib.Data.List.Induction
import CodexGateway.Library.Lease
import CodexGateway.Manager.Transaction

/-!
# Manager/SingleWriter — a Workspace has one writer, over the calls of the store

`Db.registry` forgets of the tables all but who writes a Workspace, how often it was claimed, and
which Sandboxes are still alive.  Each call of the store that returns is an event of this registry
or leaves it alone; a call that raises leaves all tables alone.
-/

namespace CodexGateway.Manager

variable {I R : Type}

/-- A Sandbox that may write. -/
def SandboxStatus.active : SandboxStatus → Bool
  | .starting | .running => true
  | .terminated | .failed => false

/-- A status in which a Sandbox ends. -/
abbrev EndedStatus := {status : SandboxStatus // status.active = false}

/-- A status of a Workspace that nobody writes. -/
abbrev DetachedStatus := {status : WorkspaceStatus // status ≠ .running}

/-- The calls of the store that change its tables, with the arguments `DockerSandboxBackend` may
use: it never releases or moves a Workspace into `running`. -/
inductive StoreCall (I R : Type) where
  | createWorkspace (workspaceId : String) (kind : WorkspaceKind) (volumeName : String) (now : ℤ)
  | claimWorkspace (workspaceId sandboxId workerHost containerName : String)
      (createdAt expiresAt : ℤ)
  | markSandboxRunning (sandboxId : String) (now : ℤ)
  | renewSandbox (sandboxId : String) (expiresAt : ℤ)
  | finishSandbox (sandboxId : String) (status : EndedStatus) (workspaceStatus : DetachedStatus)
      (now : ℤ)
  | deleteWorkspace (workspaceId : String)
  | scheduleWorkspaceDelete (workspaceId : String) (deleteAfter now : ℤ)
  | transitionWorkspace (workspaceId : String) (expected : List WorkspaceStatus)
      (status : DetachedStatus) (now : ℤ)
  | commitRevision (workspaceId operationId revisionId : String) (generation : ℕ) (result : R)
      (now : ℤ)
  | createOperation (operationId : String) (operation : OperationKind) (workspaceId : String)
      (sandboxId : Option String) (idempotencyKey : String) (input : I) (now : ℤ)
  | updateOperation (operationId : String) (status : OperationStatus)
      (phase : Option OperationPhase) (result : Option R) (error : Option String) (now : ℤ)

/-- A transaction whose row is not looked at. -/
def Sql.void {α : Type} (x : Sql I R α) : Sql I R Unit := fun store =>
  match x store with
  | .ok _ store' => .ok () store'
  | .error e store' => .error e store'

/-- A call of the store, for its effect. -/
def StoreCall.run : StoreCall I R → Sql I R Unit
  | .createWorkspace workspaceId kind volumeName now =>
    Sql.void (Sql.createWorkspace workspaceId kind volumeName now)
  | .claimWorkspace workspaceId sandboxId workerHost containerName createdAt expiresAt =>
    Sql.void (Sql.claimWorkspace workspaceId sandboxId workerHost containerName createdAt expiresAt)
  | .markSandboxRunning sandboxId now => Sql.markSandboxRunning sandboxId now
  | .renewSandbox sandboxId expiresAt => Sql.void (Sql.renewSandbox sandboxId expiresAt)
  | .finishSandbox sandboxId status workspaceStatus now =>
    Sql.void (Sql.finishSandbox sandboxId status workspaceStatus now)
  | .deleteWorkspace workspaceId => Sql.deleteWorkspace workspaceId
  | .scheduleWorkspaceDelete workspaceId deleteAfter now =>
    Sql.void (Sql.scheduleWorkspaceDelete workspaceId deleteAfter now)
  | .transitionWorkspace workspaceId expected status now =>
    Sql.void (Sql.transitionWorkspace workspaceId expected status now)
  | .commitRevision workspaceId operationId revisionId generation result now =>
    Sql.void (Sql.commitRevision workspaceId operationId revisionId generation result now)
  | .createOperation operationId operation workspaceId sandboxId idempotencyKey input now =>
    Sql.void (Sql.createOperation operationId operation workspaceId sandboxId idempotencyKey input now)
  | .updateOperation operationId status phase result error now =>
    Sql.void (Sql.updateOperation operationId status phase result error now)

/-- The tables after a call, whether it returns or raises. -/
def StoreCall.apply (store : Store I R) (call : StoreCall I R) : Store I R :=
  match call.run store with
  | .ok _ store' => store'
  | .error _ store' => store'

/-- The tables after any calls on a new database. -/
def Store.after (calls : List (StoreCall I R)) : Store I R := calls.foldl StoreCall.apply .empty

/-! ## The registry of a database -/

/-- The writers of the Workspaces, as leases. -/
def Db.registry (db : Db I R) : Lease.Registry String String where
  resources workspaceId :=
    (db.workspaces workspaceId).map fun row => (row.activeSandboxId, row.generation)
  leases sandboxId :=
    (db.sandboxes sandboxId).map fun sandbox => (sandbox.workspaceId, sandbox.status.active)

/-- A Workspace has a writer exactly while it is running. -/
def RunningRows (db : Db I R) : Prop :=
  ∀ workspaceId row, db.workspaces workspaceId = some row →
    (row.activeSandboxId ≠ none ↔ row.status = .running)

/-- **The two tables agree about who writes.** -/
structure Consistent (db : Db I R) : Prop where
  exclusive : Lease.Exclusive db.registry
  running : RunningRows db

variable {db db' : Db I R} {workspaceId sandboxId : String} {row row' : WorkspaceRecord}
variable {sandbox sandbox' : SandboxRecord}

/-- The empty tables are consistent. -/
theorem consistent_empty : Consistent (Db.empty : Db I R) :=
  ⟨Lease.exclusive_empty, fun _ _ h => by cases h⟩

/-- A Workspace's row is its entry in the registry. -/
theorem registry_putWorkspace (db : Db I R) (workspaceId : String) (row : WorkspaceRecord) :
    (db.putWorkspace workspaceId row).registry = { db.registry with
      resources := Function.update db.registry.resources workspaceId
        (some (row.activeSandboxId, row.generation)) } := by
  have hmap : ∀ id, ((db.putWorkspace workspaceId row).workspaces id).map
      (fun row => (row.activeSandboxId, row.generation)) =
        Function.update db.registry.resources workspaceId
          (some (row.activeSandboxId, row.generation)) id := by
    intro id
    by_cases hid : id = workspaceId
    · simp [hid]
    · simp [hid, Db.putWorkspace, Db.registry]
  rw [Db.registry, funext hmap]
  rfl

/-- A Sandbox's row is its lease. -/
theorem registry_putSandbox (db : Db I R) (sandboxId : String) (sandbox : SandboxRecord) :
    (db.putSandbox sandboxId sandbox).registry = { db.registry with
      leases := Function.update db.registry.leases sandboxId
        (some (sandbox.workspaceId, sandbox.status.active)) } := by
  have hmap : ∀ id, ((db.putSandbox sandboxId sandbox).sandboxes id).map
      (fun sandbox => (sandbox.workspaceId, sandbox.status.active)) =
        Function.update db.registry.leases sandboxId
          (some (sandbox.workspaceId, sandbox.status.active)) id := by
    intro id
    by_cases hid : id = sandboxId
    · simp [hid, Db.putSandbox]
    · simp [hid, Db.putSandbox, Db.registry]
  rw [Db.registry, funext hmap]
  rfl

/-- A Workspace that goes takes its leases along. -/
theorem registry_removeWorkspace (db : Db I R) (workspaceId : String) :
    (db.removeWorkspace workspaceId).registry =
      { resources := Function.update db.registry.resources workspaceId none
        leases := fun s => (db.registry.leases s).filter fun p => p.1 ≠ workspaceId } := by
  have hresources : ∀ id, ((db.removeWorkspace workspaceId).workspaces id).map
      (fun row => (row.activeSandboxId, row.generation)) =
        Function.update db.registry.resources workspaceId none id := by
    intro id
    by_cases hid : id = workspaceId
    · simp [hid, Db.removeWorkspace]
    · simp [hid, Db.removeWorkspace, Db.registry]
  have hleases : ∀ id, ((db.removeWorkspace workspaceId).sandboxes id).map
      (fun sandbox => (sandbox.workspaceId, sandbox.status.active)) =
        (db.registry.leases id).filter fun p => p.1 ≠ workspaceId := by
    intro id
    simp only [Db.removeWorkspace, Db.registry]
    cases db.sandboxes id with
    | none => rfl
    | some sandbox =>
      by_cases hworkspace : sandbox.workspaceId = workspaceId
      · simp [Option.filter_some, hworkspace]
      · simp [Option.filter_some, hworkspace]
  rw [Db.registry, funext hresources, funext hleases]

/-- A row that keeps its writer and its generation. -/
theorem registry_putWorkspace_same (hrow : db.workspaces workspaceId = some row)
    (hwriter : row'.activeSandboxId = row.activeSandboxId)
    (hgeneration : row'.generation = row.generation) :
    (db.putWorkspace workspaceId row').registry = db.registry := by
  have hself : some (row'.activeSandboxId, row'.generation) = db.registry.resources workspaceId := by
    simp [Db.registry, hrow, hwriter, hgeneration]
  rw [registry_putWorkspace, hself, Function.update_eq_self]

/-- A Sandbox that stays active, or ended, keeps its lease. -/
theorem registry_putSandbox_same (hsandbox : db.sandboxes sandboxId = some sandbox)
    (hworkspace : sandbox'.workspaceId = sandbox.workspaceId)
    (hactive : sandbox'.status.active = sandbox.status.active) :
    (db.putSandbox sandboxId sandbox').registry = db.registry := by
  have hself : some (sandbox'.workspaceId, sandbox'.status.active) =
      db.registry.leases sandboxId := by
    simp [Db.registry, hsandbox, hworkspace, hactive]
  rw [registry_putSandbox, hself, Function.update_eq_self]

/-- A row with an active Sandbox runs, and no other does. -/
theorem RunningRows.put (h : RunningRows db)
    (hrow : row.activeSandboxId ≠ none ↔ row.status = .running) :
    RunningRows (db.putWorkspace workspaceId row) := by
  intro id r hr
  by_cases hid : id = workspaceId
  · subst hid
    rw [Db.putWorkspace_workspaces] at hr
    exact Option.some.inj hr ▸ hrow
  · exact h id r (by simpa [Db.putWorkspace, hid] using hr)

/-! ## What a call does to the registry -/

/-- The registry of a database, changed by an event or not at all. -/
structure Writes (claimed : Option String) (db db' : Db I R) : Prop where
  running : RunningRows db'
  event : db'.registry = db.registry ∨ ∃ e, Lease.step db.registry e = some db'.registry ∧
    ∀ w s, e = .claim w s → claimed = some w

/-- What leaves the rows alone writes nothing. -/
theorem Writes.same (h : Consistent db) {claimed : Option String}
    (hworkspaces : db'.workspaces = db.workspaces) (hsandboxes : db'.sandboxes = db.sandboxes) :
    Writes claimed db db' where
  running := fun id row hrow => h.running id row (hworkspaces ▸ hrow)
  event := .inl (by rw [Db.registry, hworkspaces, hsandboxes]; rfl)

/-- A row is written that keeps its writer and its generation. -/
theorem Writes.put (h : Consistent db) {claimed : Option String}
    (hrow : db.workspaces workspaceId = some row)
    (hwriter : row'.activeSandboxId = row.activeSandboxId)
    (hgeneration : row'.generation = row.generation)
    (hstatus : row'.activeSandboxId ≠ none ↔ row'.status = .running) :
    Writes claimed db (db.putWorkspace workspaceId row') where
  running := h.running.put hstatus
  event := .inl (registry_putWorkspace_same hrow hwriter hgeneration)

/-- A creation claims nothing. -/
theorem createWorkspace_writes (h : Consistent db) {kind : WorkspaceKind} {volumeName : String}
    {now : ℤ} (hok : createWorkspace db workspaceId kind volumeName now = .ok (db', row)) :
    Writes none db db' := by
  rw [createWorkspace] at hok
  split at hok
  · rename_i hrow
    cases hok
    refine ⟨h.running.put (by simp), .inr ⟨.create workspaceId, ?_, fun _ _ he => (by cases he)⟩⟩
    rw [registry_putWorkspace, Lease.step]
    simp [Db.registry, hrow]
  · split_ifs at hok
    cases hok
    exact .same h rfl rfl

/-- **A claim gives the Workspace to its Sandbox, in a new generation.** -/
theorem claimWorkspace_writes (h : Consistent db) {workerHost containerName : String}
    {createdAt expiresAt : ℤ}
    (hok : claimWorkspace db workspaceId sandboxId workerHost containerName createdAt expiresAt =
      .ok (db', row', sandbox)) : Writes (some workspaceId) db db' := by
  rw [claimWorkspace] at hok
  split at hok
  · cases hok
  · rename_i row hrow
    split_ifs at hok with hactive hstatus hsandbox
    cases hok
    have hfree : db.sandboxes sandboxId = none := by simpa using hsandbox
    -- A Workspace that the Sandbox already wrote would know the Sandbox.
    have hnone : row.activeSandboxId = none := by
      by_contra hne
      have hown : row.activeSandboxId = some sandboxId := by
        by_contra hother
        exact hactive ⟨hne, hother⟩
      have hlease := (h.exclusive.writer workspaceId sandboxId).mp
        ⟨row.generation, by simp [Db.registry, hrow, hown]⟩
      simp [Db.registry, hfree] at hlease
    have hrunning : RunningRows (db.putSandbox sandboxId ⟨sandboxId, workspaceId, workerHost,
      containerName, .starting, createdAt, some expiresAt⟩) := h.running
    refine ⟨hrunning.put (by simp [WorkspaceRecord.claim]),
      .inr ⟨.claim workspaceId sandboxId, ?_, fun _ _ he => by cases he; rfl⟩⟩
    have hresource : db.registry.resources workspaceId = some (none, row.generation) := by
      simp [Db.registry, hrow, hnone]
    have hlease : db.registry.leases sandboxId = none := by simp [Db.registry, hfree]
    rw [registry_putWorkspace, registry_putSandbox, Lease.step, hresource, hlease]
    rfl

/-- The end of a Sandbox gives its Workspace back. -/
theorem finishSandbox_writes (h : Consistent db) {status : SandboxStatus}
    {workspaceStatus : WorkspaceStatus} {now : ℤ} (hended : status.active = false)
    (hdetached : workspaceStatus ≠ .running)
    (hok : finishSandbox db sandboxId status workspaceStatus now = .ok (db', row')) :
    Writes none db db' := by
  rw [finishSandbox] at hok
  split at hok
  · cases hok
  · rename_i sandbox hsandbox
    split at hok
    · cases hok
    · rename_i row hrow
      cases hok
      have hrunning : RunningRows (db.putSandbox sandboxId
        { sandbox with status := status, expiresAt := none }) := h.running
      have hlease : db.registry.leases sandboxId =
          some (sandbox.workspaceId, sandbox.status.active) := by simp [Db.registry, hsandbox]
      have hresource : db.registry.resources sandbox.workspaceId =
          some (row.activeSandboxId, row.generation) := by simp [Db.registry, hrow]
      refine ⟨hrunning.put ?_, .inr ⟨.finish sandboxId, ?_, fun _ _ he => by cases he⟩⟩
      · split_ifs
        · simp [WorkspaceRecord.release, hdetached]
        · exact h.running _ _ hrow
      · rw [registry_putWorkspace, registry_putSandbox, Lease.step, hlease, Option.map_some,
          Lease.Registry.release, hresource, Option.map_some, hended]
        split_ifs with hactive
        · rfl
        · rfl

/-- A deletion takes no Workspace from an active Sandbox. -/
theorem deleteWorkspace_writes (h : Consistent db)
    (hok : deleteWorkspace db workspaceId = .ok db') : Writes none db db' := by
  rw [deleteWorkspace] at hok
  split at hok
  · cases hok
    exact .same h rfl rfl
  · rename_i row hrow
    split_ifs at hok with hactive
    cases hok
    have hnone : row.activeSandboxId = none := by simpa using hactive
    refine ⟨fun id r hr => ?_, .inr ⟨.delete workspaceId, ?_, fun _ _ he => by cases he⟩⟩
    · by_cases hid : id = workspaceId
      · simp [Db.removeWorkspace, hid] at hr
      · exact h.running id r (by simpa [Db.removeWorkspace, hid] using hr)
    · have hresource : db.registry.resources workspaceId = some (none, row.generation) := by
        simp [Db.registry, hrow, hnone]
      rw [registry_removeWorkspace, Lease.step, hresource]

/-- A Sandbox that runs keeps the Workspace it has claimed. -/
theorem markSandboxRunning_writes (h : Consistent db) {now : ℤ}
    (hok : markSandboxRunning db sandboxId now = .ok db') : Writes none db db' := by
  rw [markSandboxRunning] at hok
  split at hok
  · cases hok
  · rename_i sandbox hsandbox
    split_ifs at hok with hstarting
    cases hok
    refine ⟨fun id r hr => ?_, .inl ?_⟩
    · obtain ⟨row, hrow, rfl⟩ := Option.map_eq_some_iff.mp hr
      have hrunning := h.running id row hrow
      split_ifs
      · exact hrunning
      · exact hrunning
    · have hput : (db.putSandbox sandboxId { sandbox with status := .running }).registry =
          db.registry := registry_putSandbox_same hsandbox rfl (by rw [hstarting]; rfl)
      rw [← hput]
      simp only [Db.registry, Option.map_map]
      congr 1
      funext id
      refine congrArg (Option.map · (db.workspaces id)) (funext fun row => ?_)
      dsimp only [Function.comp]
      split_ifs
      · rfl
      · rfl

/-- A renewal changes no writer. -/
theorem renewSandbox_writes (h : Consistent db) {expiresAt : ℤ}
    (hok : renewSandbox db sandboxId expiresAt = .ok (db', sandbox')) : Writes none db db' := by
  rw [renewSandbox] at hok
  split at hok
  · cases hok
  · rename_i sandbox hsandbox
    split_ifs at hok
    cases hok
    exact ⟨h.running, .inl (registry_putSandbox_same hsandbox rfl rfl)⟩

/-- A scheduled deletion changes no writer. -/
theorem scheduleWorkspaceDelete_writes (h : Consistent db) {deleteAfter now : ℤ}
    (hok : scheduleWorkspaceDelete db workspaceId deleteAfter now = .ok (db', row')) :
    Writes none db db' := by
  rw [scheduleWorkspaceDelete] at hok
  split at hok
  · cases hok
  · rename_i row hrow
    split_ifs at hok
    cases hok
    exact .put h hrow rfl rfl (h.running _ row hrow)

/-- A transition changes no writer. -/
theorem transitionWorkspace_writes (h : Consistent db) {expected : List WorkspaceStatus}
    {status : WorkspaceStatus} {now : ℤ} (hdetached : status ≠ .running)
    (hok : transitionWorkspace db workspaceId expected status now = .ok (db', row')) :
    Writes none db db' := by
  obtain ⟨row, hrow, -, hactive, rfl, rfl⟩ := transitionWorkspace_ok hok
  have hnone := hactive.resolve_right hdetached
  exact .put h hrow rfl rfl (by simp [WorkspaceRecord.move, hnone, hdetached])

/-- A commit changes no writer. -/
theorem commitRevision_writes (h : Consistent db) {operationId revisionId : String}
    {generation : ℕ} {result : R} {now : ℤ}
    (hok : commitRevision db workspaceId operationId revisionId generation result now =
      .ok (db', row')) : Writes none db db' := by
  obtain ⟨row, hrow, -, hactive, -, rfl, hsandboxes, hworkspaces⟩ := commitRevision_ok hok
  have hput : Writes none db (db.putWorkspace workspaceId (row.commit revisionId now)) :=
    .put h hrow rfl rfl (by simp [WorkspaceRecord.commit, hactive])
  have hregistry : db'.registry = (db.putWorkspace workspaceId (row.commit revisionId now)).registry := by
    rw [Db.registry, hworkspaces, hsandboxes]
    rfl
  exact ⟨fun id r hr => hput.running id r (hworkspaces ▸ hr), hregistry ▸ hput.event⟩

/-! ## Any calls -/

variable {store store' : Store I R} {call : StoreCall I R}

/-- The Workspace that a call claims. -/
def StoreCall.claimed : StoreCall I R → Option String
  | .claimWorkspace workspaceId _ _ _ _ _ => some workspaceId
  | _ => none

/-- A call whose result is not looked at returns where it does. -/
theorem void_ok {α : Type} {x : Sql I R α} (h : x.void store = .ok () store') :
    ∃ a, x store = .ok a store' := by
  rw [Sql.void] at h
  split at h
  · rename_i a mid hx
    cases h
    exact ⟨a, hx⟩
  · cases h

/-- A call whose result is not looked at raises where it does. -/
theorem void_error {α : Type} {x : Sql I R α} {e : StateError} (h : x.void store = .error e store') :
    x store = .error e store' := by
  rw [Sql.void] at h
  split at h
  · cases h
  · rename_i hx
    cases h
    exact hx

/-- **A call that raises leaves all tables as they were.** -/
theorem run_error {e : StateError} (h : call.run store = .error e store') : store' = store := by
  cases call with
  | markSandboxRunning | deleteWorkspace => exact Sql.transaction_error h
  | _ => exact Sql.transaction_error (void_error h)

/-- **What a call that returns has done.** -/
theorem run_writes (hc : Consistent store.toDb) (h : call.run store = .ok () store') :
    Writes call.claimed store.toDb store'.toDb := by
  cases call with
  | createWorkspace workspaceId kind volumeName now =>
    obtain ⟨a, h⟩ := void_ok h
    exact createWorkspace_writes hc (Sql.createWorkspace_ok h)
  | claimWorkspace workspaceId sandboxId workerHost containerName createdAt expiresAt =>
    obtain ⟨a, h⟩ := void_ok h
    exact claimWorkspace_writes hc (Sql.claimWorkspace_ok h)
  | markSandboxRunning sandboxId now =>
    exact markSandboxRunning_writes hc (Sql.markSandboxRunning_ok h)
  | renewSandbox sandboxId expiresAt =>
    obtain ⟨a, h⟩ := void_ok h
    exact renewSandbox_writes hc (Sql.renewSandbox_ok h)
  | finishSandbox sandboxId status workspaceStatus now =>
    obtain ⟨a, h⟩ := void_ok h
    exact finishSandbox_writes hc status.2 workspaceStatus.2 (Sql.finishSandbox_ok h)
  | deleteWorkspace workspaceId => exact deleteWorkspace_writes hc (Sql.deleteWorkspace_ok h)
  | scheduleWorkspaceDelete workspaceId deleteAfter now =>
    obtain ⟨a, h⟩ := void_ok h
    exact scheduleWorkspaceDelete_writes hc (Sql.scheduleWorkspaceDelete_ok h)
  | transitionWorkspace workspaceId expected status now =>
    obtain ⟨a, h⟩ := void_ok h
    exact transitionWorkspace_writes hc status.2 (Sql.transitionWorkspace_ok h)
  | commitRevision workspaceId operationId revisionId generation result now =>
    obtain ⟨a, h⟩ := void_ok h
    exact commitRevision_writes hc (Sql.commitRevision_ok h)
  | createOperation operationId operation workspaceId owner key input now =>
    obtain ⟨a, h⟩ := void_ok h
    obtain ⟨hworkspaces, hsandboxes⟩ := createOperation_frame (Sql.createOperation_ok h)
    exact .same hc hworkspaces hsandboxes
  | updateOperation operationId status phase result error now =>
    obtain ⟨a, h⟩ := void_ok h
    obtain ⟨hworkspaces, hsandboxes⟩ := updateOperation_frame (Sql.updateOperation_ok h)
    exact .same hc hworkspaces hsandboxes

/-- What writes as a lease keeps the tables consistent. -/
theorem Writes.consistent {claimed : Option String} (hc : Consistent db)
    (h : Writes claimed db db') : Consistent db' where
  exclusive := by
    rcases h.event with hsame | ⟨e, he, -⟩
    · exact hsame ▸ hc.exclusive
    · exact Lease.step_exclusive hc.exclusive he
  running := h.running

/-- A call keeps the tables consistent, whether it raises or not. -/
theorem apply_consistent (call : StoreCall I R) (hc : Consistent store.toDb) :
    Consistent (call.apply store).toDb := by
  rw [StoreCall.apply]
  cases hrun : call.run store with
  | ok _ store' => exact (run_writes hc hrun).consistent hc
  | error e store' => rw [run_error hrun]; exact hc

/-- **Every database the store can reach is consistent.** -/
theorem consistent_after (calls : List (StoreCall I R)) : Consistent (Store.after calls).toDb := by
  induction calls using List.reverseRecOn with
  | nil => exact consistent_empty
  | append_singleton calls call ih =>
    rw [Store.after, List.foldl_concat]
    exact apply_consistent call ih

/-! ## One writer -/

/-- A row of the Workspace in the table of Sandboxes is `starting` or `running`. -/
def Alive (db : Db I R) (workspaceId sandboxId : String) : Prop :=
  ∃ sandbox, db.sandboxes sandboxId = some sandbox ∧ sandbox.workspaceId = workspaceId ∧
    sandbox.status.active = true

/-- **The two tables name the same one writer**, while the Workspace is running, and none
otherwise. -/
structure SingleWriter (db : Db I R) (workspaceId : String) (row : WorkspaceRecord) : Prop where
  running : row.activeSandboxId ≠ none ↔ row.status = .running
  one : row.status = .running ↔ ∃! sandboxId, Alive db workspaceId sandboxId
  writer : ∀ sandboxId, Alive db workspaceId sandboxId ↔ row.activeSandboxId = some sandboxId

/-- A Sandbox is alive where its lease is active. -/
theorem alive_iff {sandboxId : String} :
    Alive db workspaceId sandboxId ↔ db.registry.leases sandboxId = some (workspaceId, true) := by
  simp [Alive, Db.registry]

/-- Consistent tables have one writer for each Workspace. -/
theorem Consistent.singleWriter (h : Consistent db) (hrow : db.workspaces workspaceId = some row) :
    SingleWriter db workspaceId row := by
  have hwriter : ∀ s, Alive db workspaceId s ↔ row.activeSandboxId = some s := by
    intro s
    rw [alive_iff, ← h.exclusive.writer]
    simp [Db.registry, hrow]
  have hrunning := h.running workspaceId row hrow
  refine ⟨hrunning, ?_, hwriter⟩
  rw [← hrunning]
  constructor
  · intro hactive
    obtain ⟨s, hs⟩ := Option.ne_none_iff_exists'.mp hactive
    have halive := (hwriter s).mpr hs
    exact ⟨s, halive, fun t ht => h.exclusive.unique (alive_iff.mp ht) (alive_iff.mp halive)⟩
  · rintro ⟨s, hs, -⟩
    rw [(hwriter s).mp hs]
    simp

/-- The generation of a Workspace before and after a call that returns. -/
theorem Writes.generation {claimed : Option String} (h : Writes claimed db db')
    (hrow : db.workspaces workspaceId = some row) (hrow' : db'.workspaces workspaceId = some row') :
    row'.generation = row.generation ∨
      claimed = some workspaceId ∧ row'.generation = row.generation + 1 := by
  have hr : db.registry.resources workspaceId = some (row.activeSandboxId, row.generation) := by
    simp [Db.registry, hrow]
  have hr' : db'.registry.resources workspaceId = some (row'.activeSandboxId, row'.generation) := by
    simp [Db.registry, hrow']
  rcases h.event with hsame | ⟨e, he, hclaimed⟩
  · rw [hsame, hr] at hr'
    exact .inl (Prod.mk.inj (Option.some.inj hr')).2.symm
  · refine (Lease.step_generation he hr hr').imp_right fun ⟨⟨s, hs⟩, hg⟩ => ?_
    exact ⟨hclaimed _ _ hs, hg⟩

/-- **One writer at a time**: in every database the store can reach, each Workspace has one writer
while it is running and none otherwise; a call that raises changes no table, and a call that returns
changes no generation but by claiming the Workspace once more. -/
theorem store_singleWriter (calls : List (StoreCall I R)) :
    (∀ workspaceId row, (Store.after calls).workspaces workspaceId = some row →
      SingleWriter (Store.after calls).toDb workspaceId row) ∧
    ∀ call : StoreCall I R,
      (∀ e store', call.run (Store.after calls) = .error e store' → store' = Store.after calls) ∧
      ∀ store', call.run (Store.after calls) = .ok () store' → ∀ workspaceId row row',
        (Store.after calls).workspaces workspaceId = some row →
        store'.workspaces workspaceId = some row' →
          row'.generation = row.generation ∨
            call.claimed = some workspaceId ∧ row'.generation = row.generation + 1 := by
  have hc := consistent_after calls
  refine ⟨fun _ _ => hc.singleWriter, fun call => ⟨fun e store' => run_error, ?_⟩⟩
  intro store' hrun workspaceId row row' hrow hrow'
  exact (run_writes hc hrun).generation hrow hrow'

end CodexGateway.Manager
