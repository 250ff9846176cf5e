import CodexGateway.Library.Machine
import CodexGateway.Manager.SingleWriter

/-!
# Manager/Crash — what a crash of the Manager leaves behind

A process of the Manager changes its database by the calls of the store and Docker by creating and
removing containers and volumes.  Which coroutine takes a step, and in which order, is left open, so
that a run may stop at any point of any coroutine, a startup included.

The volume of a Workspace goes by the id of the Workspace.
-/

namespace CodexGateway.Manager

variable {I R : Type}

/-! ## A process -/

/-- A managed container by its role and its labels, and whether `_status` finds it running. -/
inductive Container where
  | worker (sandboxId workspaceId : String) (kind : WorkspaceKind) (healthy : Bool)
  | operation (operationId : String)
deriving DecidableEq

/-- The Sandbox of a worker's container. -/
def Container.sandboxId? : Container → Option String
  | .worker sandboxId _ _ _ => some sandboxId
  | .operation _ => none

/-- What outlasts a process, and what Docker has. -/
structure Process (I R : Type) where
  store : Store I R
  containers : List Container
  /-- the volumes of Workspaces that Docker has -/
  volumes : String → Bool

/-- The statuses between which the backend moves a Workspace. -/
def backendTransitions : List (List WorkspaceStatus × WorkspaceStatus) :=
  [([.detachedDirty], .checkpointing), ([.checkpointing], .detachedDirty),
    ([.detachedClean], .remoteOnly), ([.remoteOnly], .restoring), ([.restoring], .detachedClean),
    ([.restoring], .remoteOnly), ([.detachedClean, .remoteOnly], .deleting)]

/-- What the backend has read of a Workspace before it moves it: the head of one that leaves the
local disk or comes back to it, the date of one that is retired. -/
def WorkspaceRecord.movable (row : WorkspaceRecord) : WorkspaceStatus → Bool
  | .remoteOnly | .restoring => row.headRevision.isSome
  | .deleting => row.deleteAfter.isSome
  | _ => true

/-- The status in which a Workspace of the kind is left by its Sandbox. -/
def WorkspaceKind.leftAs : WorkspaceKind → WorkspaceStatus
  | .recoverable => .detachedDirty
  | .ephemeral => .deleting

/-- The call has the arguments that `DockerSandboxBackend` gives it.  An ephemeral Workspace has an
id of its own, so that the id of a Workspace says of which kind it is. -/
def StoreCall.issued (kindOf : String → WorkspaceKind) (db : Db I R) : StoreCall I R → Bool
  | .createWorkspace workspaceId kind _ _ => kind = kindOf workspaceId
  | .finishSandbox sandboxId _ workspaceStatus _ =>
    match db.sandboxes sandboxId with
    | some sandbox => workspaceStatus.val = (kindOf sandbox.workspaceId).leftAs
    | none => true
  | .transitionWorkspace workspaceId expected status _ =>
    (expected, status.val) ∈ backendTransitions &&
      (db.workspaces workspaceId).all fun row => row.movable status
  | _ => true

/-- A step of a process. -/
inductive ProcessStep (I R : Type) where
  /-- a transaction of the backend -/
  | call (call : StoreCall I R)
  /-- the container of a Sandbox is created; Docker refuses a name that is taken -/
  | createContainer (sandboxId : String) (healthy : Bool)
  | createOperationContainer (operationId : String)
  /-- containers are removed, start, stop or fall ill -/
  | containers (change : Container → Option Bool)
  /-- a volume is created, mounted or removed -/
  | volume (workspaceId : String) (present : Bool)

/-- The container in its new state, unless it is gone. -/
def Container.change (change : Container → Option Bool) (container : Container) :
    Option Container :=
  (change container).map fun healthy =>
    match container with
    | .worker sandboxId workspaceId kind _ => .worker sandboxId workspaceId kind healthy
    | .operation operationId => .operation operationId

/-- What a step does, where it can happen. -/
def processStep (kindOf : String → WorkspaceKind) (p : Process I R) :
    ProcessStep I R → Option (Process I R)
  | .call call =>
    if call.issued kindOf p.store.toDb then some { p with store := call.apply p.store } else none
  | .createContainer sandboxId healthy =>
    match p.store.sandboxes sandboxId with
    | none => none
    | some sandbox =>
      if some sandboxId ∈ p.containers.map Container.sandboxId? then none
      else
        let kind := kindOf sandbox.workspaceId
        let container := Container.worker sandboxId sandbox.workspaceId kind healthy
        some { p with containers := container :: p.containers }
  | .createOperationContainer operationId =>
    some { p with containers := .operation operationId :: p.containers }
  | .containers change => some { p with containers := p.containers.filterMap (·.change change) }
  | .volume workspaceId present =>
    some { p with volumes := Function.update p.volumes workspaceId present }

/-- Nothing is there before the first process. -/
def Process.init : Process I R := ⟨.empty, [], fun _ => false⟩

/-! ## What holds at every crash point -/

/-- A row of a Workspace as some coroutine can leave it. -/
structure WorkspaceRecord.Sound (label : WorkspaceKind) (row : WorkspaceRecord) : Prop where
  kind : row.kind = label
  restoring : row.status = .restoring → row.headRevision.isSome
  ephemeral : label = .ephemeral → row.headRevision = none ∧ row.deleteAfter = none ∧
    (row.status = .detachedClean ∨ row.status = .running ∨ row.status = .deleting)

/-- Each Workspace's row is sound. -/
def SoundRows (kindOf : String → WorkspaceKind) (db : Db I R) : Prop :=
  ∀ workspaceId row, db.workspaces workspaceId = some row → row.Sound (kindOf workspaceId)

variable {kindOf : String → WorkspaceKind} {db db' : Db I R} {workspaceId sandboxId : String}
variable {row row' : WorkspaceRecord} {now : ℤ}

theorem SoundRows.put (h : SoundRows kindOf db) (hrow : row.Sound (kindOf workspaceId)) :
    SoundRows kindOf (db.putWorkspace workspaceId row) := by
  intro id r hr
  by_cases hid : id = workspaceId
  · subst hid
    rw [Db.putWorkspace_workspaces] at hr
    exact Option.some.inj hr ▸ hrow
  · exact h id r (by simpa [Db.putWorkspace, hid] using hr)

theorem SoundRows.of_eq (h : SoundRows kindOf db) (he : db'.workspaces = db.workspaces) :
    SoundRows kindOf db' := fun id r hr => h id r (he ▸ hr)

/-- A row that keeps its status keeps its soundness. -/
theorem WorkspaceRecord.Sound.same {label : WorkspaceKind} (h : row.Sound label)
    (hkind : row'.kind = row.kind) (hstatus : row'.status = row.status)
    (hhead : row'.headRevision = row.headRevision) (hdate : row'.deleteAfter = row.deleteAfter) :
    row'.Sound label where
  kind := hkind.trans h.kind
  restoring := by rw [hstatus, hhead]; exact h.restoring
  ephemeral := by rw [hstatus, hhead, hdate]; exact h.ephemeral

theorem createWorkspace_sound (h : SoundRows kindOf db) {kind : WorkspaceKind} {volumeName : String}
    (hkind : kind = kindOf workspaceId)
    (hok : createWorkspace db workspaceId kind volumeName now = .ok (db', row)) :
    SoundRows kindOf db' := by
  rw [createWorkspace] at hok
  split at hok
  · cases hok
    exact h.put ⟨hkind, fun h => (by cases h), fun _ => ⟨rfl, rfl, .inl rfl⟩⟩
  · split_ifs at hok
    cases hok
    exact h

theorem claimWorkspace_sound (h : SoundRows kindOf db) {workerHost containerName : String}
    {createdAt expiresAt : ℤ} {sandbox : SandboxRecord}
    (hok : claimWorkspace db workspaceId sandboxId workerHost containerName createdAt expiresAt =
      .ok (db', row', sandbox)) : SoundRows kindOf db' := by
  obtain ⟨row, hrow, -, -, -, rfl, -, rfl⟩ := claimWorkspace_ok hok
  have hput : SoundRows kindOf (db.putSandbox sandboxId sandbox) := h
  have hsound := h workspaceId row hrow
  refine hput.put ⟨hsound.kind, fun h => (by cases h), fun he => ?_⟩
  exact ⟨(hsound.ephemeral he).1, rfl, .inr (.inl rfl)⟩

theorem markSandboxRunning_sound (h : SoundRows kindOf db)
    (hok : markSandboxRunning db sandboxId now = .ok db') : SoundRows kindOf db' := by
  obtain ⟨sandbox, -, -, -, hworkspaces⟩ := markSandboxRunning_eq hok
  intro id r hr
  rw [hworkspaces] at hr
  obtain ⟨row, hrow, rfl⟩ := Option.map_eq_some_iff.mp hr
  refine (h id row hrow).same ?_ ?_ ?_ ?_ <;> split_ifs <;> rfl

theorem finishSandbox_sound (h : SoundRows kindOf db) {status : SandboxStatus}
    {workspaceStatus : WorkspaceStatus}
    (hstatus : ∀ sandbox, db.sandboxes sandboxId = some sandbox →
      workspaceStatus = (kindOf sandbox.workspaceId).leftAs)
    (hok : finishSandbox db sandboxId status workspaceStatus now = .ok (db', row')) :
    SoundRows kindOf db' := by
  obtain ⟨sandbox, ended, row, hsandbox, hrow, -, hrow', rfl⟩ := finishSandbox_ok hok
  have hput : SoundRows kindOf (db.putSandbox sandboxId ended) := h
  have hsound := h _ row hrow
  obtain rfl := hstatus sandbox hsandbox
  rcases hrow' with ⟨-, rfl⟩ | rfl
  · refine hput.put ⟨hsound.kind, fun hr => ?_, fun he => ?_⟩
    · rw [WorkspaceRecord.release] at hr
      cases hkind : kindOf sandbox.workspaceId <;> simp [hkind, WorkspaceKind.leftAs] at hr
    · obtain ⟨hhead, hdate, -⟩ := hsound.ephemeral he
      exact ⟨hhead, hdate, .inr (.inr (by rw [he]; rfl))⟩
  · exact hput.put hsound

theorem deleteWorkspace_sound (h : SoundRows kindOf db)
    (hok : deleteWorkspace db workspaceId = .ok db') : SoundRows kindOf db' := by
  rcases deleteWorkspace_eq hok with ⟨-, rfl⟩ | ⟨row, -, -, rfl⟩
  · exact h
  · intro id r hr
    by_cases hid : id = workspaceId
    · simp [Db.removeWorkspace, hid] at hr
    · exact h id r (by simpa [Db.removeWorkspace, hid] using hr)

theorem scheduleWorkspaceDelete_sound (h : SoundRows kindOf db) {deleteAfter : ℤ}
    (hok : scheduleWorkspaceDelete db workspaceId deleteAfter now = .ok (db', row')) :
    SoundRows kindOf db' := by
  rw [scheduleWorkspaceDelete] at hok
  split at hok
  · cases hok
  · rename_i row hrow
    split_ifs at hok with hkind
    cases hok
    have hsound := h workspaceId row hrow
    refine h.put ⟨hsound.kind, hsound.restoring, fun he => ?_⟩
    rw [← hsound.kind, hkind] at he
    cases he

/-- The backend moves no ephemeral Workspace: one that is detached has no head, and no date on which
it is retired. -/
theorem not_backendTransition {expected : List WorkspaceStatus} {status : WorkspaceStatus}
    (hsound : row.Sound .ephemeral) (hbackend : (expected, status) ∈ backendTransitions)
    (hstatus : row.status ∈ expected) : row.movable status = false := by
  obtain ⟨hhead, hdate, hold⟩ := hsound.ephemeral rfl
  simp only [backendTransitions, List.mem_cons, List.not_mem_nil, or_false, Prod.mk.injEq]
    at hbackend
  rcases hbackend with ⟨rfl, rfl⟩ | ⟨rfl, rfl⟩ | ⟨rfl, rfl⟩ | ⟨rfl, rfl⟩ | ⟨rfl, rfl⟩ | ⟨rfl, rfl⟩ |
    ⟨rfl, rfl⟩
  -- Without its head or its date the row stays; from the other statuses it cannot start.
  all_goals first | simp [WorkspaceRecord.movable, hhead, hdate]; done | skip
  all_goals rcases hold with hold | hold | hold <;> simp [hold] at hstatus

theorem transitionWorkspace_sound (h : SoundRows kindOf db) {expected : List WorkspaceStatus}
    {status : WorkspaceStatus} (hbackend : (expected, status) ∈ backendTransitions)
    (hmovable : (db.workspaces workspaceId).all fun row => row.movable status)
    (hok : transitionWorkspace db workspaceId expected status now = .ok (db', row')) :
    SoundRows kindOf db' := by
  obtain ⟨row, hrow, hstatus, -, rfl, rfl⟩ := transitionWorkspace_ok hok
  have hsound := h workspaceId row hrow
  have hmovable : row.movable status := by simpa [hrow] using hmovable
  refine h.put ⟨hsound.kind, fun hr => ?_, fun he => ?_⟩
  · obtain rfl : status = .restoring := hr
    exact hmovable
  · rw [he] at hsound
    rw [not_backendTransition hsound hbackend hstatus] at hmovable
    cases hmovable

theorem commitRevision_sound (h : SoundRows kindOf db) {operationId revisionId : String}
    {generation : ℕ} {result : R}
    (hok : commitRevision db workspaceId operationId revisionId generation result now =
      .ok (db', row')) : SoundRows kindOf db' := by
  obtain ⟨row, hrow, hstatus, -, -, rfl, -, hworkspaces⟩ := commitRevision_ok hok
  have hsound := h workspaceId row hrow
  have hput : SoundRows kindOf (db.putWorkspace workspaceId (row.commit revisionId now)) := by
    refine h.put ⟨hsound.kind, fun hr => (by cases hr), fun he => ?_⟩
    simpa [hstatus] using (hsound.ephemeral he).2.2
  exact hput.of_eq hworkspaces

/-- **What a crash leaves behind**: the tables agree about who writes, and the labels of a container
are those of the Sandbox it was created for. -/
structure Process.Sound (kindOf : String → WorkspaceKind) (p : Process I R) : Prop where
  consistent : Consistent p.store.toDb
  rows : SoundRows kindOf p.store.toDb
  labels : ∀ sandboxId workspaceId kind healthy,
    .worker sandboxId workspaceId kind healthy ∈ p.containers → kind = kindOf workspaceId
  nodup : (p.containers.filterMap Container.sandboxId?).Nodup
  finite : Lease.Finite p.store.toDb.registry

theorem sound_init : (Process.init : Process I R).Sound kindOf where
  consistent := consistent_empty
  rows := fun _ _ h => by cases h
  labels := fun _ _ _ _ h => by cases h
  nodup := .nil
  finite := Lease.finite_empty

/-- A call adds at most a row. -/
theorem apply_finite {store : Store I R} (call : StoreCall I R) (hc : Consistent store.toDb)
    (h : Lease.Finite store.toDb.registry) : Lease.Finite (call.apply store).toDb.registry := by
  rw [StoreCall.apply]
  cases hrun : call.run store with
  | error e store' => rw [run_error hrun]; exact h
  | ok _ store' =>
    rcases (run_writes hc hrun).event with hsame | ⟨e, hstep, -⟩
    · exact hsame ▸ h
    · exact Lease.step_finite h hstep

theorem apply_sound {store : Store I R} {call : StoreCall I R} (h : SoundRows kindOf store.toDb)
    (hissued : call.issued kindOf store.toDb) : SoundRows kindOf (call.apply store).toDb := by
  rw [StoreCall.apply]
  cases hrun : call.run store with
  | error e store' => rw [run_error hrun]; exact h
  | ok _ store' =>
    cases call with
    | createWorkspace workspaceId kind volumeName now =>
      obtain ⟨a, hok⟩ := void_ok hrun
      exact createWorkspace_sound h (by simpa [StoreCall.issued] using hissued)
        (Sql.createWorkspace_ok hok)
    | claimWorkspace workspaceId sandboxId workerHost containerName createdAt expiresAt =>
      obtain ⟨a, hok⟩ := void_ok hrun
      exact claimWorkspace_sound h (Sql.claimWorkspace_ok hok)
    | markSandboxRunning sandboxId now =>
      exact markSandboxRunning_sound h (Sql.markSandboxRunning_ok hrun)
    | renewSandbox sandboxId expiresAt =>
      obtain ⟨a, hok⟩ := void_ok hrun
      exact h.of_eq (renewSandbox_frame (Sql.renewSandbox_ok hok))
    | finishSandbox sandboxId status workspaceStatus now =>
      obtain ⟨a, hok⟩ := void_ok hrun
      refine finishSandbox_sound h (fun sandbox hsandbox => ?_) (Sql.finishSandbox_ok hok)
      simpa [StoreCall.issued, hsandbox] using hissued
    | deleteWorkspace workspaceId => exact deleteWorkspace_sound h (Sql.deleteWorkspace_ok hrun)
    | scheduleWorkspaceDelete workspaceId deleteAfter now =>
      obtain ⟨a, hok⟩ := void_ok hrun
      exact scheduleWorkspaceDelete_sound h (Sql.scheduleWorkspaceDelete_ok hok)
    | transitionWorkspace workspaceId expected status now =>
      obtain ⟨a, hok⟩ := void_ok hrun
      obtain ⟨hbackend, hmovable⟩ := Bool.and_eq_true_iff.mp hissued
      exact transitionWorkspace_sound h (by simpa using hbackend) hmovable
        (Sql.transitionWorkspace_ok hok)
    | commitRevision workspaceId operationId revisionId generation result now =>
      obtain ⟨a, hok⟩ := void_ok hrun
      exact commitRevision_sound h (Sql.commitRevision_ok hok)
    | createOperation operationId operation workspaceId owner key input now =>
      obtain ⟨a, hok⟩ := void_ok hrun
      exact h.of_eq (createOperation_frame (Sql.createOperation_ok hok)).1
    | updateOperation operationId status phase result error now =>
      obtain ⟨a, hok⟩ := void_ok hrun
      exact h.of_eq (updateOperation_frame (Sql.updateOperation_ok hok)).1

/-- In a list whose values under `f` differ, a value belongs to one element. -/
theorem eq_of_nodup_filterMap {α β : Type} {f : α → Option β} {l : List α}
    (h : (l.filterMap f).Nodup) {a a' : α} {b : β} (ha : a ∈ l) (ha' : a' ∈ l)
    (hb : f a = some b) (hb' : f a' = some b) : a = a' := by
  induction l with
  | nil => cases ha
  | cons head l ih =>
    have hmem : ∀ {c}, c ∈ l → f c = some b → b ∈ l.filterMap f :=
      fun hc hf => List.mem_filterMap.mpr ⟨_, hc, hf⟩
    rcases List.mem_cons.mp ha with rfl | hl
    · rw [List.filterMap_cons_some hb, List.nodup_cons] at h
      exact ((List.mem_cons.mp ha').resolve_right fun hl => h.1 (hmem hl hb')).symm
    · rcases List.mem_cons.mp ha' with rfl | hl'
      · rw [List.filterMap_cons_some hb', List.nodup_cons] at h
        exact absurd (hmem hl hb) h.1
      · exact ih (h.sublist (List.Sublist.filterMap _ (List.sublist_cons_self ..))) hl hl'

/-- A Sandbox has one container. -/
theorem Process.Sound.worker_unique {p : Process I R} (h : p.Sound kindOf) {kind kind' : WorkspaceKind}
    {other : String} {healthy healthy' : Bool}
    (hmem : .worker sandboxId workspaceId kind healthy ∈ p.containers)
    (hmem' : .worker sandboxId other kind' healthy' ∈ p.containers) :
    Container.worker sandboxId workspaceId kind healthy = .worker sandboxId other kind' healthy' :=
  eq_of_nodup_filterMap h.nodup hmem hmem' rfl rfl

/-- A container keeps its labels. -/
theorem change_eq_some {change : Container → Option Bool} {container container' : Container}
    (h : container.change change = some container') :
    container'.sandboxId? = container.sandboxId? ∧
      ∀ sandboxId workspaceId kind healthy,
        container' = .worker sandboxId workspaceId kind healthy →
          ∃ before, container = .worker sandboxId workspaceId kind before := by
  obtain ⟨healthy, -, rfl⟩ := Option.map_eq_some_iff.mp h
  cases container with
  | worker sandboxId workspaceId kind before =>
    refine ⟨rfl, fun _ _ _ _ he => ?_⟩
    cases he
    exact ⟨before, rfl⟩
  | operation operationId => exact ⟨rfl, fun _ _ _ _ he => by cases he⟩

/-- Containers that are left keep their order. -/
theorem filterMap_change_sublist (change : Container → Option Bool) (containers : List Container) :
    ((containers.filterMap (·.change change)).filterMap Container.sandboxId?).Sublist
      (containers.filterMap Container.sandboxId?) := by
  induction containers with
  | nil => exact .slnil
  | cons container containers ih =>
    cases hchange : container.change change with
    | none =>
      rw [List.filterMap_cons_none hchange]
      exact ih.trans (List.Sublist.filterMap _ (List.sublist_cons_self ..))
    | some container' =>
      rw [List.filterMap_cons_some hchange, List.filterMap_cons, List.filterMap_cons,
        (change_eq_some hchange).1]
      cases container.sandboxId? with
      | none => exact ih
      | some sandboxId => exact ih.cons_cons sandboxId

theorem processStep_sound {p p' : Process I R} {step : ProcessStep I R} (h : p.Sound kindOf)
    (hstep : processStep kindOf p step = some p') : p'.Sound kindOf := by
  cases step with
  | call call =>
    rw [processStep] at hstep
    split_ifs at hstep with hissued
    cases hstep
    exact { h with
      consistent := apply_consistent call h.consistent
      rows := apply_sound h.rows hissued
      finite := apply_finite call h.consistent h.finite }
  | createContainer sandboxId healthy =>
    rw [processStep] at hstep
    split at hstep
    · cases hstep
    · rename_i sandbox hsandbox
      split_ifs at hstep with hfree
      cases hstep
      refine { h with labels := fun s w kind healthy hmem => ?_, nodup := ?_ }
      · rcases List.mem_cons.mp hmem with he | hmem
        · cases he
          rfl
        · exact h.labels s w kind healthy hmem
      · refine List.nodup_cons.mpr ⟨fun hmem => hfree ?_, h.nodup⟩
        obtain ⟨container, hmem, hid⟩ := List.mem_filterMap.mp hmem
        exact List.mem_map.mpr ⟨container, hmem, hid⟩
  | createOperationContainer operationId =>
    cases hstep
    refine { h with labels := fun s w kind healthy hmem => ?_ }
    rcases List.mem_cons.mp hmem with he | hmem
    · cases he
    · exact h.labels s w kind healthy hmem
  | containers change =>
    cases hstep
    refine { h with
      labels := fun s w kind healthy hmem => ?_
      nodup := h.nodup.sublist (filterMap_change_sublist change p.containers) }
    obtain ⟨container, hmem, hchange⟩ := List.mem_filterMap.mp hmem
    obtain ⟨before, rfl⟩ := (change_eq_some hchange).2 s w kind healthy rfl
    exact h.labels s w kind before hmem
  | volume workspaceId present =>
    cases hstep
    exact { h with }

/-- **Every crash point is sound.** -/
theorem run_sound {p : Process I R} {steps : List (ProcessStep I R)}
    (hrun : Machine.run (processStep kindOf) .init steps = some p) : p.Sound kindOf :=
  Machine.run_keeps (fun _ _ _ => processStep_sound) hrun sound_init

end CodexGateway.Manager
