import CodexGateway.Manager.Crash

/-!
# Manager/Startup — the startup of the Manager after a crash

`startup` is the next process: it goes through the containers and the Sandboxes, the ephemeral
Workspaces, and the operations.
-/

namespace CodexGateway.Manager

variable {I R : Type}

/-! ## The startup -/

/-- Whether Docker removes what it is asked to remove. -/
structure Docker where
  removes : Container → Bool
  removesVolume : String → Bool

/-- The ids of the rows, in the order in which a `SELECT` returns them. -/
structure Rows (db : Db I R) where
  sandboxIds : List String
  workspaceIds : List String
  nodupSandboxes : sandboxIds.Nodup
  nodupWorkspaces : workspaceIds.Nodup
  sandboxes : ∀ id, (db.sandboxes id).isSome → id ∈ sandboxIds
  workspaces : ∀ id, (db.workspaces id).isSome → id ∈ workspaceIds

/-- A Sandbox in `_records`. -/
structure LiveRecord where
  sandboxId : String
  workspaceId : String
  container : Container
  expiresAt : ℤ

/-- The new process on its way through the startup. -/
structure Boot (I R : Type) where
  db : Db I R
  volumes : String → Bool
  records : List LiveRecord
  seen : List String

/-- `active_sandboxes`, by their ids. -/
def activeSandboxes (db : Db I R) (ids : List String) : List (String × SandboxRecord) :=
  ids.filterMap fun id => ((db.sandboxes id).filter (·.status.active)).map (id, ·)

/-- `workspaces_with_status`, by their ids. -/
def workspacesWithStatus (db : Db I R) (ids : List String) (status : WorkspaceStatus) :
    List (String × WorkspaceRecord) :=
  ids.filterMap fun id => ((db.workspaces id).filter (·.status = status)).map (id, ·)

/-- `_remove_volume`, which hides a failure. -/
def Boot.removeVolume (docker : Docker) (s : Boot I R) (workspaceId : String) : Boot I R :=
  let present := s.volumes workspaceId && !docker.removesVolume workspaceId
  { s with volumes := Function.update s.volumes workspaceId present }

/-- An ephemeral Workspace goes with its volume. -/
def Boot.removeWorkspace (docker : Docker) (s : Boot I R) (workspaceId : String) : Boot I R :=
  let s := s.removeVolume docker workspaceId
  { s with db := suppress s.db (deleteWorkspace s.db workspaceId) }

section Startup

variable (docker : Docker) (now : ℤ)

/-- `_finish_reconciled_sandbox` -/
def finishReconciledSandbox (s : Boot I R) (sandboxId : String) (sandbox : SandboxRecord) :
    Boot I R :=
  match s.db.workspaces sandbox.workspaceId with
  | none => s
  | some workspace =>
    let finished := finishSandbox s.db sandboxId .failed workspace.kind.leftAs now
    let s := { s with db := suppress s.db (finished.map Prod.fst) }
    if workspace.kind = .ephemeral then s.removeWorkspace docker sandbox.workspaceId else s

/-- The record of the Sandbox still has a lease, and its container runs. -/
def SandboxRecord.valid (sandbox : SandboxRecord) (workspaceId : String) (healthy : Bool) : Bool :=
  workspaceId = sandbox.workspaceId && sandbox.expiresAt.any (now < ·) && healthy

/-- A Sandbox that was starting at the crash is running. -/
def ensureRunning (db : Db I R) (sandboxId : String) (sandbox : SandboxRecord) : Option (Db I R) :=
  if sandbox.status = .starting then (markSandboxRunning db sandboxId now).toOption else some db

/-- A Sandbox that is kept: its container is put into `_records`. -/
def keepSandbox (s : Boot I R) (sandboxId : String) (sandbox : SandboxRecord)
    (container : Container) : Option (Boot I R) := do
  let db ← ensureRunning now s.db sandboxId sandbox
  let sandbox ← db.sandboxes sandboxId
  let expiresAt ← sandbox.expiresAt
  let _ ← db.workspaces sandbox.workspaceId
  return { s with
    db := db
    records := ⟨sandboxId, sandbox.workspaceId, container, expiresAt⟩ :: s.records
    seen := sandboxId :: s.seen }

/-- One container of `_reconcile_managed_containers`; a container that cannot be removed ends the
startup. -/
def reconcileContainer (active : List (String × SandboxRecord)) (s : Boot I R)
    (container : Container) : Option (Boot I R) :=
  match container with
  | .operation _ => if docker.removes container then some s else none
  | .worker sandboxId workspaceId kind healthy =>
    match active.lookup sandboxId with
    | some sandbox =>
      if sandbox.valid now workspaceId healthy then keepSandbox now s sandboxId sandbox container
      else if docker.removes container then
        let s := finishReconciledSandbox docker now s sandboxId sandbox
        some { s with seen := sandboxId :: s.seen }
      else none
    | none =>
      if docker.removes container then
        some (if kind = .ephemeral then s.removeVolume docker workspaceId else s)
      else none

/-- A Sandbox without a container. -/
def finishUnseen (s : Boot I R) (p : String × SandboxRecord) : Boot I R :=
  if p.1 ∈ s.seen then s else finishReconciledSandbox docker now s p.1 p.2

/-- `_cleanup_orphaned_ephemeral_workspaces` -/
def cleanupOrphaned (s : Boot I R) (p : String × WorkspaceRecord) : Boot I R :=
  if p.2.kind ≠ .ephemeral ∨ p.2.activeSandboxId ≠ none then s
  else s.removeWorkspace docker p.1

/-- The phase in which an operation is given up: one that has captured can be resumed there. -/
def recoveredPhase (captured : R → Bool) (operation : OperationRecord I R) :
    Option OperationPhase :=
  if operation.operation = .publish ∧ operation.result.any captured then some .captured
  else operation.phase

/-- An operation that was under way at the restart fails. -/
def failOperation (captured : R → Bool) (db : Db I R) (operation : OperationRecord I R) :
    Option (Db I R) :=
  (updateOperation db operation.id .failed (recoveredPhase captured operation) operation.result
    (some "Manager restarted before the operation result was committed") now).toOption

/-- `with suppress(…): self._state.transition_workspace(…)` -/
def transitionBack (status back : WorkspaceStatus) (db : Db I R) (workspaceId : String) : Db I R :=
  suppress db ((transitionWorkspace db workspaceId [status] back now).map Prod.fst)

/-- `_recover_incomplete_operations` -/
def recoverIncompleteOperations (captured : R → Bool) (workspaceIds : List String) (s : Boot I R) :
    Option (Boot I R) := do
  let db ← (incompleteOperations s.db).foldlM (failOperation now captured) s.db
  let checkpointing := workspacesWithStatus db workspaceIds .checkpointing
  let db := (checkpointing.map Prod.fst).foldl
    (transitionBack now .checkpointing .detachedDirty) db
  let restoring := workspacesWithStatus db workspaceIds .restoring
  return (restoring.map Prod.fst).foldl (fun s workspaceId =>
    let s := s.removeVolume docker workspaceId
    { s with db := transitionBack now .restoring .remoteOnly s.db workspaceId })
    { s with db := db }

/-- `startup`, from the tables, the containers and the volumes it finds; none if it raises. -/
def startup (captured : R → Bool) (p : Process I R) (rows : Rows p.store.toDb) :
    Option (Boot I R) := do
  let active := activeSandboxes p.store.toDb rows.sandboxIds
  let s ← p.containers.foldlM (reconcileContainer docker now active)
    ⟨p.store.toDb, p.volumes, [], []⟩
  let s := active.foldl (finishUnseen docker now) s
  let orphans := workspacesWithStatus s.db rows.workspaceIds .detachedClean
  let s := orphans.foldl (cleanupOrphaned docker) s
  recoverIncompleteOperations docker now captured rows.workspaceIds s

end Startup

/-! ## What one step does -/

/-- The Sandbox is starting or running. -/
def Active (db : Db I R) (sandboxId : String) (sandbox : SandboxRecord) : Prop :=
  db.sandboxes sandboxId = some sandbox ∧ sandbox.status.active = true

variable {db db' : Db I R} {docker : Docker} {now : ℤ} {s s' : Boot I R}
variable {sandboxId workspaceId : String} {sandbox : SandboxRecord} {row : WorkspaceRecord}

theorem activeSandboxes_lookup (rows : Rows db) :
    (activeSandboxes db rows.sandboxIds).lookup sandboxId = some sandbox ↔
      Active db sandboxId sandbox := by
  have hlookup : ∀ ids : List String, (activeSandboxes db ids).lookup sandboxId =
      if sandboxId ∈ ids then (db.sandboxes sandboxId).filter (·.status.active) else none := by
    intro ids
    induction ids with
    | nil => rfl
    | cons id ids ih =>
      rw [activeSandboxes] at ih ⊢
      by_cases hid : sandboxId = id
      · subst hid
        cases hf : (db.sandboxes sandboxId).filter (·.status.active) with
        | none => simp [hf, ih]
        | some sandbox => simp [hf]
      · have hne : (sandboxId == id) = false := by simpa using hid
        cases hf : (db.sandboxes id).filter (·.status.active) with
        | none => simp [hf, ih, hid]
        | some sandbox => simp [hf, ih, hid, List.lookup_cons, hne]
  rw [hlookup, Active]
  constructor
  · intro h
    split_ifs at h
    simpa [Option.filter_eq_some_iff] using h
  · rintro ⟨hsandbox, hactive⟩
    rw [if_pos (rows.sandboxes sandboxId (by rw [hsandbox]; rfl)), hsandbox]
    simp [Option.filter_some, hactive]

theorem mem_activeSandboxes {ids : List String} :
    (sandboxId, sandbox) ∈ activeSandboxes db ids ↔
      sandboxId ∈ ids ∧ Active db sandboxId sandbox := by
  simp only [activeSandboxes, List.mem_filterMap, Option.map_eq_some_iff,
    Option.filter_eq_some_iff, Prod.mk.injEq, Active]
  constructor
  · rintro ⟨id, hid, sandbox', hactive, rfl, rfl⟩
    exact ⟨hid, hactive⟩
  · rintro ⟨hid, hactive⟩
    exact ⟨sandboxId, hid, sandbox, hactive, rfl, rfl⟩

theorem mem_workspacesWithStatus {ids : List String} {status : WorkspaceStatus} :
    (workspaceId, row) ∈ workspacesWithStatus db ids status ↔
      workspaceId ∈ ids ∧ db.workspaces workspaceId = some row ∧ row.status = status := by
  simp only [workspacesWithStatus, List.mem_filterMap, Option.map_eq_some_iff,
    Option.filter_eq_some_iff, Prod.mk.injEq]
  constructor
  · rintro ⟨id, hid, row', ⟨hrow, hstatus⟩, rfl, rfl⟩
    exact ⟨hid, hrow, by simpa using hstatus⟩
  · rintro ⟨hid, hrow, hstatus⟩
    exact ⟨workspaceId, hid, row, ⟨hrow, by simpa using hstatus⟩, rfl, rfl⟩

/-- A volume stays as it is, or is removed. -/
theorem removeVolume_volumes (docker : Docker) (s : Boot I R) (workspaceId id : String) :
    (s.removeVolume docker workspaceId).volumes id = s.volumes id ∨
      id = workspaceId ∧ (s.removeVolume docker workspaceId).volumes id = false ∧
        docker.removesVolume id = true := by
  by_cases hid : id = workspaceId
  · subst hid
    cases hremoves : docker.removesVolume id with
    | true => exact .inr ⟨rfl, by simp [Boot.removeVolume, hremoves], rfl⟩
    | false => exact .inl (by simp [Boot.removeVolume, hremoves])
  · exact .inl (by simp [Boot.removeVolume, hid])

theorem removeVolume_removed {docker : Docker} {s : Boot I R} {workspaceId : String}
    (hremoves : docker.removesVolume workspaceId = true) :
    (s.removeVolume docker workspaceId).volumes workspaceId = false := by
  simp [Boot.removeVolume, hremoves]

theorem removeVolume_mono (docker : Docker) (s : Boot I R) (workspaceId : String) {id : String}
    (h : s.volumes id = false) : (s.removeVolume docker workspaceId).volumes id = false := by
  rcases removeVolume_volumes docker s workspaceId id with hsame | ⟨-, hgone, -⟩
  · exact hsame.trans h
  · exact hgone

theorem nodup_keys {α β : Type} {f : α → Option β} {ids : List α} (h : ids.Nodup) :
    ((ids.filterMap fun id => (f id).map (id, ·)).map Prod.fst).Nodup := by
  refine h.sublist ?_
  induction ids with
  | nil => exact .slnil
  | cons id ids ih =>
    have ih := ih (List.nodup_cons.mp h).2
    cases hf : f id with
    | none =>
      rw [List.filterMap_cons_none (by rw [hf]; rfl)]
      exact ih.cons id
    | some b =>
      rw [List.filterMap_cons_some (by rw [hf]; rfl)]
      exact ih.cons_cons id

/-- An active Sandbox is the writer of its Workspace. -/
theorem Active.writes (h : Active db sandboxId sandbox) (hc : Consistent db) :
    ∃ row, db.workspaces sandbox.workspaceId = some row ∧ row.activeSandboxId = some sandboxId := by
  have halive : Alive db sandbox.workspaceId sandboxId := ⟨sandbox, h.1, rfl, h.2⟩
  have hknown := hc.exclusive.known _ _ _ (alive_iff.mp halive)
  obtain ⟨row, hrow⟩ : ∃ row, db.workspaces sandbox.workspaceId = some row := by
    simpa [Db.registry, Option.isSome_iff_exists] using hknown
  exact ⟨row, hrow, ((hc.singleWriter hrow).writer sandboxId).mp halive⟩

/-- The writer of a Workspace is an active Sandbox of it. -/
theorem Consistent.active (hc : Consistent db) (hrow : db.workspaces workspaceId = some row)
    (hwriter : row.activeSandboxId = some sandboxId) :
    ∃ sandbox, Active db sandboxId sandbox ∧ sandbox.workspaceId = workspaceId := by
  obtain ⟨sandbox, hsandbox, hworkspace, hactive⟩ :=
    ((hc.singleWriter hrow).writer sandboxId).mpr hwriter
  exact ⟨sandbox, ⟨hsandbox, hactive⟩, hworkspace⟩

/-- Two active Sandboxes of one Workspace are one. -/
theorem Active.unique {other : String} {sandbox' : SandboxRecord}
    (h : Active db sandboxId sandbox) (h' : Active db other sandbox') (hc : Consistent db)
    (hworkspace : sandbox'.workspaceId = sandbox.workspaceId) : other = sandboxId := by
  obtain ⟨row, hrow, hwriter⟩ := h.writes hc
  obtain ⟨row', hrow', hwriter'⟩ := h'.writes hc
  rw [hworkspace, hrow] at hrow'
  obtain rfl := Option.some.inj hrow'
  exact Option.some.inj (hwriter'.symm.trans hwriter)

/-- The rows of a database can be listed. -/
theorem rows_exist (h : Lease.Finite db.registry) : Nonempty (Rows db) := by
  refine ⟨{
    sandboxIds := h.leases.toFinset.toList
    workspaceIds := h.resources.toFinset.toList
    nodupSandboxes := Finset.nodup_toList _
    nodupWorkspaces := Finset.nodup_toList _
    sandboxes := fun id hid => ?_
    workspaces := fun id hid => ?_ }⟩
  · simpa [Lease.rowsOf, Db.registry] using hid
  · simpa [Lease.rowsOf, Db.registry] using hid

/-- **What giving up a Sandbox does**: nothing but it and its Workspace changes, and an ephemeral
Workspace goes, with its volume if Docker removes it. -/
structure GivenUp (docker : Docker) (sandboxId workspaceId : String) (kind : WorkspaceKind)
    (s s' : Boot I R) : Prop where
  records : s'.records = s.records
  active : ∀ id sandbox, Active s'.db id sandbox ↔ Active s.db id sandbox ∧ id ≠ sandboxId
  others : ∀ id, id ≠ workspaceId → s'.db.workspaces id = s.db.workspaces id ∧
    s'.volumes id = s.volumes id
  ephemeral : kind = .ephemeral → s'.db.workspaces workspaceId = none ∧
    s'.volumes workspaceId = (s.volumes workspaceId && !docker.removesVolume workspaceId)
  recoverable : kind = .recoverable → s'.volumes workspaceId = s.volumes workspaceId ∧
    ∃ row, s'.db.workspaces workspaceId = some row ∧ row.status = .detachedDirty ∧
      row.activeSandboxId = none

/-- The record of a Sandbox that is given up. -/
def SandboxRecord.fail (sandbox : SandboxRecord) : SandboxRecord :=
  { sandbox with status := .failed, expiresAt := none }

theorem finishSandbox_active (h : Active db sandboxId sandbox)
    (hrow : db.workspaces sandbox.workspaceId = some row)
    (hwriter : row.activeSandboxId = some sandboxId) (status : WorkspaceStatus) (now : ℤ) :
    finishSandbox db sandboxId .failed status now =
      .ok ((db.putSandbox sandboxId sandbox.fail).putWorkspace sandbox.workspaceId
        (row.release status now), row.release status now) := by
  rw [finishSandbox, h.1]
  dsimp only
  rw [hrow]
  dsimp only
  rw [if_pos hwriter]
  rfl

theorem active_putSandbox_fail {id : String} {other : SandboxRecord} :
    Active (db.putSandbox sandboxId sandbox.fail) id other ↔
      Active db id other ∧ id ≠ sandboxId := by
  by_cases hid : id = sandboxId
  · subst hid
    refine iff_of_false (fun h => ?_) fun h => h.2 rfl
    have he : other = sandbox.fail := by simpa [Db.putSandbox] using h.1.symm
    rw [he] at h
    cases h.2
  · simp [Active, Db.putSandbox, hid]

theorem active_removeWorkspace
    (hfree : ∀ id other, Active db id other → other.workspaceId ≠ workspaceId) {id : String}
    {other : SandboxRecord} :
    Active (db.removeWorkspace workspaceId) id other ↔ Active db id other := by
  simp only [Active, Db.removeWorkspace, Option.filter_eq_some_iff, decide_eq_true_eq]
  exact ⟨fun h => ⟨h.1.1, h.2⟩, fun h => ⟨⟨h.1, hfree id other h⟩, h.2⟩⟩

theorem finishReconciledSandbox_givenUp (h : Active s.db sandboxId sandbox) (hc : Consistent s.db)
    (hrow : s.db.workspaces sandbox.workspaceId = some row) :
    GivenUp docker sandboxId sandbox.workspaceId row.kind s
      (finishReconciledSandbox docker now s sandboxId sandbox) := by
  obtain ⟨row', hrow', hwriter⟩ := h.writes hc
  obtain rfl := Option.some.inj (hrow.symm.trans hrow')
  have hfinish := finishSandbox_active h hrow hwriter row.kind.leftAs now
  rw [finishReconciledSandbox, hrow]
  dsimp only
  rw [hfinish]
  cases hkind : row.kind with
  | recoverable =>
    rw [if_neg (by simp)]
    exact {
      records := rfl
      active := fun id other => active_putSandbox_fail
      others := fun id hid => ⟨by simp [suppress, Except.map, Db.putWorkspace, Db.putSandbox, hid], rfl⟩
      ephemeral := fun he => by cases he
      recoverable := fun _ => ⟨rfl, row.release .detachedDirty now,
        by simp [suppress, Except.map, WorkspaceKind.leftAs], rfl, rfl⟩ }
  | ephemeral =>
    rw [if_pos rfl]
    have hremoved : deleteWorkspace ((s.db.putSandbox sandboxId sandbox.fail).putWorkspace
        sandbox.workspaceId (row.release .deleting now)) sandbox.workspaceId =
          .ok (((s.db.putSandbox sandboxId sandbox.fail).putWorkspace sandbox.workspaceId
            (row.release .deleting now)).removeWorkspace sandbox.workspaceId) := by
      simp [deleteWorkspace, WorkspaceRecord.release]
    rw [Boot.removeWorkspace]
    simp only [suppress, Except.map, WorkspaceKind.leftAs, Boot.removeVolume]
    rw [hremoved]
    refine ⟨rfl, fun id other => ?_, fun id hid => ?_, fun _ => ?_, fun he => by cases he⟩
    · refine (active_removeWorkspace fun id other hother hworkspace => ?_).trans
        active_putSandbox_fail
      obtain ⟨hother, hne⟩ := active_putSandbox_fail.mp hother
      exact hne (h.unique hother hc hworkspace)
    · simp [Db.removeWorkspace, Db.putWorkspace, Db.putSandbox, hid]
    · simp [Db.removeWorkspace]

theorem finishReconciledSandbox_seen :
    (finishReconciledSandbox docker now s sandboxId sandbox).seen = s.seen := by
  rw [finishReconciledSandbox]
  split
  · rfl
  · dsimp only
    split_ifs <;> rfl

/-- A transaction whose errors are hidden. -/
theorem suppress_keeps {ε : Type} {P : Db I R → Prop} {old : Db I R} {r : Except ε (Db I R)}
    (hold : P old) (hnew : ∀ new, r = .ok new → P new) : P (suppress old r) := by
  cases r with
  | ok new => exact hnew new rfl
  | error e => exact hold

/-- Tables that agree about who writes, with rows as the coroutines leave them. -/
structure SoundDb (kindOf : String → WorkspaceKind) (db : Db I R) : Prop where
  consistent : Consistent db
  rows : SoundRows kindOf db

variable {kindOf : String → WorkspaceKind}

theorem removeWorkspace_sound (docker : Docker) (workspaceId : String) (h : SoundDb kindOf s.db) :
    SoundDb kindOf (s.removeWorkspace docker workspaceId).db :=
  suppress_keeps (P := SoundDb kindOf) h fun _ hok =>
    ⟨(deleteWorkspace_writes h.consistent hok).consistent h.consistent,
      deleteWorkspace_sound h.rows hok⟩

theorem finishReconciledSandbox_sound (docker : Docker) (now : ℤ) (h : SoundDb kindOf s.db)
    (hactive : Active s.db sandboxId sandbox) :
    SoundDb kindOf (finishReconciledSandbox docker now s sandboxId sandbox).db := by
  rw [finishReconciledSandbox]
  split
  · exact h
  · rename_i workspace hrow
    have hkind := (h.rows _ workspace hrow).kind
    have hfinished : SoundDb kindOf (suppress s.db
        ((finishSandbox s.db sandboxId .failed workspace.kind.leftAs now).map Prod.fst)) := by
      refine suppress_keeps (P := SoundDb kindOf) h fun new hok => ?_
      cases hfinish : finishSandbox s.db sandboxId .failed workspace.kind.leftAs now with
      | error e =>
        rw [hfinish] at hok
        cases hok
      | ok r =>
      rw [hfinish] at hok
      obtain rfl := Except.ok.inj hok
      have hdetached : workspace.kind.leftAs ≠ .running := by cases workspace.kind <;> decide
      refine ⟨(finishSandbox_writes h.consistent rfl hdetached hfinish).consistent h.consistent,
        finishSandbox_sound h.rows (fun other hother => ?_) hfinish⟩
      obtain rfl := Option.some.inj (hactive.1.symm.trans hother)
      rw [hkind]
    dsimp only
    split_ifs
    · exact removeWorkspace_sound docker _ hfinished
    · exact hfinished

theorem toOption_eq_some {ε α : Type} {x : Except ε α} {a : α} (h : x.toOption = some a) :
    x = .ok a := by
  cases x with
  | ok b => exact congrArg _ (Option.some.inj h)
  | error e => cases h

/-- **What keeping a Sandbox does**: it is running and on record, with the lease it had. -/
structure Kept (sandboxId : String) (sandbox : SandboxRecord) (container : Container)
    (s s' : Boot I R) : Prop where
  volumes : s'.volumes = s.volumes
  seen : s'.seen = sandboxId :: s.seen
  records : ∃ expiresAt, sandbox.expiresAt = some expiresAt ∧
    s'.records = ⟨sandboxId, sandbox.workspaceId, container, expiresAt⟩ :: s.records
  sandboxes : s'.db.sandboxes =
    (s.db.putSandbox sandboxId { sandbox with status := .running }).sandboxes
  workspaces : ∃ touch : WorkspaceRecord → WorkspaceRecord,
    (∀ row, row.activeSandboxId ≠ some sandboxId → touch row = row) ∧
    (∀ row, (touch row).activeSandboxId = row.activeSandboxId) ∧
    ∀ id, s'.db.workspaces id = (s.db.workspaces id).map touch

theorem keepSandbox_kept {container : Container} (h : Active s.db sandboxId sandbox)
    (hkeep : keepSandbox now s sandboxId sandbox container = some s') :
    Kept sandboxId sandbox container s s' := by
  rw [keepSandbox] at hkeep
  obtain ⟨db, hdb, hkeep⟩ := Option.bind_eq_some_iff.mp hkeep
  obtain ⟨sandbox', hsandbox', hkeep⟩ := Option.bind_eq_some_iff.mp hkeep
  obtain ⟨expiresAt, hexpires, hkeep⟩ := Option.bind_eq_some_iff.mp hkeep
  obtain ⟨workspace, -, hkeep⟩ := Option.bind_eq_some_iff.mp hkeep
  obtain rfl := Option.some.inj hkeep
  rw [ensureRunning] at hdb
  have htables : db.sandboxes =
      (s.db.putSandbox sandboxId { sandbox with status := .running }).sandboxes ∧
      ∃ touch : WorkspaceRecord → WorkspaceRecord,
        (∀ row, row.activeSandboxId ≠ some sandboxId → touch row = row) ∧
        (∀ row, (touch row).activeSandboxId = row.activeSandboxId) ∧
        ∀ id, db.workspaces id = (s.db.workspaces id).map touch := by
    split_ifs at hdb with hstarting
    · obtain ⟨old, hold, -, hsandboxes, hworkspaces⟩ :=
        markSandboxRunning_eq (toOption_eq_some hdb)
      obtain rfl := Option.some.inj (h.1.symm.trans hold)
      refine ⟨hsandboxes, _, fun row hne => if_neg hne, fun row => ?_, fun id => by rw [hworkspaces]⟩
      split_ifs <;> rfl
    · obtain rfl := Option.some.inj hdb
      have hrunning : sandbox.status = .running := by
        have hactive := h.2
        cases hstatus : sandbox.status <;> simp_all [SandboxStatus.active]
      refine ⟨?_, id, fun _ _ => rfl, fun _ => rfl, fun id => by simp⟩
      have hself : { sandbox with status := .running } = sandbox := by rw [← hrunning]
      rw [hself, Db.putSandbox, ← h.1, Function.update_eq_self]
  have hsame : sandbox' = { sandbox with status := .running } := by
    simpa [htables.1, Db.putSandbox] using hsandbox'.symm
  subst hsame
  exact ⟨rfl, rfl, ⟨expiresAt, hexpires, rfl⟩, htables.1, htables.2⟩

theorem keepSandbox_sound {container : Container} (h : SoundDb kindOf s.db)
    (hkeep : keepSandbox now s sandboxId sandbox container = some s') : SoundDb kindOf s'.db := by
  rw [keepSandbox] at hkeep
  obtain ⟨db, hdb, hkeep⟩ := Option.bind_eq_some_iff.mp hkeep
  obtain ⟨sandbox', -, hkeep⟩ := Option.bind_eq_some_iff.mp hkeep
  obtain ⟨expiresAt, -, hkeep⟩ := Option.bind_eq_some_iff.mp hkeep
  obtain ⟨workspace, -, hkeep⟩ := Option.bind_eq_some_iff.mp hkeep
  obtain rfl := Option.some.inj hkeep
  rw [ensureRunning] at hdb
  split_ifs at hdb
  · have hok := toOption_eq_some hdb
    exact ⟨(markSandboxRunning_writes h.consistent hok).consistent h.consistent,
      markSandboxRunning_sound h.rows hok⟩
  · exact Option.some.inj hdb ▸ h

end CodexGateway.Manager
