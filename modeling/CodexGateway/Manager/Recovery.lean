import CodexGateway.Manager.Reconcile

/-!
# Manager/Recovery — the state after a startup

The operations and the Workspaces that a crash left half way are put back, and the tables then
agree with the containers.  An ephemeral Workspace whose teardown had reached `deleting` is seen by
no pass.
-/

namespace CodexGateway.Manager

variable {I R : Type} {db db' : Db I R} {now : ℤ} {docker : Docker} {captured : R → Bool}

/-! ## Operations -/

/-- The operation may still be working. -/
def OperationStatus.incomplete : OperationStatus → Bool
  | .pending | .running => true
  | .succeeded | .failed => false

theorem mem_incompleteOperations {operation : OperationRecord I R} :
    operation ∈ incompleteOperations db ↔
      operation ∈ db.operations ∧ operation.status.incomplete = true := by
  rw [incompleteOperations, List.mem_filter]
  refine and_congr_right fun _ => ?_
  cases operation.status <;> simp [OperationStatus.incomplete]

/-- An operation that fails is the only one to change. -/
theorem updateOperation_incomplete {operationId : String} {phase : Option OperationPhase}
    {result : Option R} {error : Option String}
    (h : updateOperation db operationId .failed phase result error now = .ok db')
    {operation : OperationRecord I R} (hmem : operation ∈ db'.operations)
    (hincomplete : operation.status.incomplete = true) :
    operation ∈ db.operations ∧ operation.id ≠ operationId := by
  rw [updateOperation] at h
  split_ifs at h
  obtain rfl := Except.ok.inj h
  obtain ⟨old, hold, rfl⟩ := List.mem_map.mp hmem
  split_ifs at hincomplete ⊢ with hid
  · cases hincomplete
  · exact ⟨hold, hid⟩

/-- A list of operations that are given up: the other tables stay, and only operations of another id
can still be incomplete. -/
theorem failOperations {operations : List (OperationRecord I R)}
    (h : operations.foldlM (failOperation now captured) db = some db') :
    db'.workspaces = db.workspaces ∧ db'.sandboxes = db.sandboxes ∧
      ∀ operation ∈ db'.operations, operation.status.incomplete = true →
        operation ∈ db.operations ∧ operation ∉ operations := by
  induction operations generalizing db with
  | nil =>
    obtain rfl := Option.some.inj h
    exact ⟨rfl, rfl, fun operation hmem _ => ⟨hmem, by simp⟩⟩
  | cons head operations ih =>
    rw [List.foldlM_cons] at h
    obtain ⟨mid, hfail, h⟩ := Option.bind_eq_some_iff.mp h
    obtain ⟨hworkspaces, hsandboxes, hrest⟩ := ih h
    have hok := toOption_eq_some hfail
    obtain ⟨hw, hs⟩ := updateOperation_frame hok
    refine ⟨hworkspaces.trans hw, hsandboxes.trans hs, fun operation hmem hincomplete => ?_⟩
    obtain ⟨hmid, hnot⟩ := hrest operation hmem hincomplete
    obtain ⟨hold, hne⟩ := updateOperation_incomplete hok hmid hincomplete
    refine ⟨hold, fun hin => ?_⟩
    rcases List.mem_cons.mp hin with rfl | hin
    · exact hne rfl
    · exact hnot hin

/-! ## Workspaces -/

/-- The row of a Workspace that was under way, put back. -/
def WorkspaceRecord.back (now : ℤ) (status back : WorkspaceStatus) (row : WorkspaceRecord) :
    WorkspaceRecord := if row.status = status then row.move back now else row

theorem back_back {row : WorkspaceRecord} {status back : WorkspaceStatus} (hne : back ≠ status) :
    (row.back now status back).back now status back = row.back now status back := by
  by_cases hs : row.status = status
  · simp [WorkspaceRecord.back, hs, WorkspaceRecord.move, hne]
  · simp [WorkspaceRecord.back, hs]

theorem transitionBack_tables (now : ℤ) (back : WorkspaceStatus) (hr : RunningRows db)
    {status : WorkspaceStatus} (hstatus : status ≠ .running) (workspaceId : String) :
    (transitionBack now status back db workspaceId).sandboxes = db.sandboxes ∧
      (transitionBack now status back db workspaceId).operations = db.operations ∧
      ∀ id, (transitionBack now status back db workspaceId).workspaces id =
        (db.workspaces id).map fun row =>
          if id = workspaceId then row.back now status back else row := by
  rw [transitionBack]
  cases hrow : db.workspaces workspaceId with
  | none =>
    rw [transitionWorkspace, hrow]
    refine ⟨rfl, rfl, fun id => ?_⟩
    by_cases hid : id = workspaceId
    · subst hid
      exact hrow.trans (by rw [hrow]; rfl)
    · simp [suppress, Except.map, hid]
  | some row =>
    by_cases hs : row.status = status
    · have hidle : row.activeSandboxId = none := by
        by_contra hne
        exact hstatus (hs.symm.trans ((hr workspaceId row hrow).mp hne))
      rw [transitionWorkspace_eq hrow (by simp [hs]) hidle]
      refine ⟨rfl, rfl, fun id => ?_⟩
      by_cases hid : id = workspaceId
      · subst hid
        simp [suppress, Except.map, hrow, WorkspaceRecord.back, hs]
      · simp [suppress, Except.map, Db.putWorkspace, hid]
    · have herror : suppress db ((transitionWorkspace db workspaceId [status] back now).map
          Prod.fst) = db := by simp [transitionWorkspace, hrow, hs, suppress, Except.map]
      rw [herror]
      refine ⟨rfl, rfl, fun id => ?_⟩
      by_cases hid : id = workspaceId
      · subst hid
        simp [hrow, WorkspaceRecord.back, hs]
      · simp [hid]

theorem transitionBack_consistent (now : ℤ) (status : WorkspaceStatus) (hc : Consistent db)
    {back : WorkspaceStatus} (hback : back ≠ .running) (workspaceId : String) :
    Consistent (transitionBack now status back db workspaceId) := by
  refine suppress_keeps (P := Consistent) hc fun new hok => ?_
  cases htransition : transitionWorkspace db workspaceId [status] back now with
  | error e =>
    rw [htransition] at hok
    cases hok
  | ok r =>
    rw [htransition] at hok
    obtain rfl := Except.ok.inj hok
    exact (transitionWorkspace_writes hc hback htransition).consistent hc

/-- **The Workspaces of a list are put back**: the rows in the status change, and nothing else. -/
theorem foldl_transitionBack (now : ℤ) (hc : Consistent db) {status back : WorkspaceStatus}
    (hstatus : status ≠ .running) (hback : back ≠ .running) (hne : back ≠ status)
    (ids : List String) :
    Consistent (ids.foldl (transitionBack now status back) db) ∧
      (ids.foldl (transitionBack now status back) db).sandboxes = db.sandboxes ∧
      (ids.foldl (transitionBack now status back) db).operations = db.operations ∧
      ∀ id, (ids.foldl (transitionBack now status back) db).workspaces id =
        (db.workspaces id).map fun row => if id ∈ ids then row.back now status back else row := by
  induction ids generalizing db with
  | nil => exact ⟨hc, rfl, rfl, fun id => by simp⟩
  | cons workspaceId ids ih =>
    obtain ⟨hs, ho, hw⟩ :=
      transitionBack_tables now back hc.running hstatus workspaceId
    obtain ⟨hc', hsandboxes, hoperations, hworkspaces⟩ :=
      ih (transitionBack_consistent now status hc hback workspaceId)
    refine ⟨hc', hsandboxes.trans hs, hoperations.trans ho, fun id => ?_⟩
    rw [List.foldl_cons, hworkspaces, hw, Option.map_map]
    refine congrArg (Option.map · (db.workspaces id)) (funext fun row => ?_)
    by_cases hid : id = workspaceId
    · by_cases hin : id ∈ ids
      · simp [← hid, hin, back_back hne]
      · simp [← hid, hin]
    · simp [hid]

variable {s s' : Boot I R}

/-- The Workspaces that were being restored, with their volumes. -/
theorem foldl_restoring (docker : Docker) (now : ℤ) (ids : List String) (s : Boot I R) :
    let s' := ids.foldl (fun s workspaceId =>
      let s := s.removeVolume docker workspaceId
      { s with db := transitionBack now .restoring .remoteOnly s.db workspaceId }) s
    s'.records = s.records ∧
      s'.db = ids.foldl (transitionBack now .restoring .remoteOnly) s.db ∧
      (∀ id, id ∉ ids → s'.volumes id = s.volumes id) := by
  induction ids generalizing s with
  | nil => exact ⟨rfl, rfl, fun _ _ => rfl⟩
  | cons workspaceId ids ih =>
    obtain ⟨hrecords, hdb, hvolumes⟩ := ih { s.removeVolume docker workspaceId with
      db := transitionBack now .restoring .remoteOnly s.db workspaceId }
    refine ⟨hrecords, hdb, fun id hid => ?_⟩
    obtain ⟨hne, hid⟩ := not_or.mp (List.mem_cons.not.mp hid)
    refine (hvolumes id hid).trans ?_
    simp [Boot.removeVolume, hne]

/-- The row of a Workspace after the recovery. -/
def WorkspaceRecord.recover (now : ℤ) (row : WorkspaceRecord) : WorkspaceRecord :=
  (row.back now .checkpointing .detachedDirty).back now .restoring .remoteOnly

/-- **What the recovery does**: it gives up the operations, puts back the Workspaces, and removes no
volume but of a Workspace that was being restored. -/
structure Recovers (now : ℤ) (s s' : Boot I R) : Prop where
  records : s'.records = s.records
  sandboxes : s'.db.sandboxes = s.db.sandboxes
  consistent : Consistent s'.db
  operations : ∀ operation ∈ s'.db.operations, operation.status.incomplete = false
  workspaces : ∀ id, s'.db.workspaces id = (s.db.workspaces id).map (WorkspaceRecord.recover now)
  volumes : ∀ id, s'.volumes id = s.volumes id ∨
    ∃ row, s.db.workspaces id = some row ∧ row.status = .restoring

/-- The rows in the status are those of the list. -/
theorem mem_withStatus {ids : List String} {status : WorkspaceStatus} {id : String} :
    id ∈ (workspacesWithStatus db ids status).map Prod.fst ↔
      id ∈ ids ∧ ∃ row, db.workspaces id = some row ∧ row.status = status := by
  rw [List.mem_map]
  constructor
  · rintro ⟨⟨id, row⟩, hmem, rfl⟩
    obtain ⟨hid, hrow⟩ := mem_workspacesWithStatus.mp hmem
    exact ⟨hid, row, hrow⟩
  · rintro ⟨hid, row, hrow⟩
    exact ⟨(id, row), mem_workspacesWithStatus.mpr ⟨hid, hrow⟩, rfl⟩

theorem foldl_transitionBack_all (now : ℤ) (status back : WorkspaceStatus) (hc : Consistent db)
    (hstatus : status ≠ .running) (hback : back ≠ .running) (hne : back ≠ status)
    {ids : List String}
    (hids : ∀ id row, db.workspaces id = some row → row.status = status → id ∈ ids) :
    let db' := ((workspacesWithStatus db ids status).map Prod.fst).foldl
      (transitionBack now status back) db
    Consistent db' ∧ db'.sandboxes = db.sandboxes ∧ db'.operations = db.operations ∧
      ∀ id, db'.workspaces id = (db.workspaces id).map (WorkspaceRecord.back now status back) := by
  obtain ⟨hc', hsandboxes, hoperations, hworkspaces⟩ := foldl_transitionBack now hc hstatus
    hback hne ((workspacesWithStatus db ids status).map Prod.fst)
  refine ⟨hc', hsandboxes, hoperations, fun id => (hworkspaces id).trans ?_⟩
  cases hrow : db.workspaces id with
  | none => rfl
  | some row =>
    refine congrArg some ?_
    split_ifs with hin
    · rfl
    · by_cases hs : row.status = status
      · exact absurd (mem_withStatus.mpr ⟨hids id row hrow hs, row, hrow, hs⟩) hin
      · rw [WorkspaceRecord.back, if_neg hs]

theorem recoverIncompleteOperations_recovers {ids : List String} (hc : Consistent s.db)
    (hids : ∀ id row, s.db.workspaces id = some row →
      row.status = .checkpointing ∨ row.status = .restoring → id ∈ ids)
    (h : recoverIncompleteOperations docker now captured ids s = some s') : Recovers now s s' := by
  rw [recoverIncompleteOperations] at h
  obtain ⟨db, hfail, h⟩ := Option.bind_eq_some_iff.mp h
  obtain ⟨hworkspaces, hsandboxes, hoperations⟩ := failOperations hfail
  have hc' : Consistent db := by
    have hregistry : db.registry = s.db.registry := by rw [Db.registry, hworkspaces, hsandboxes]; rfl
    exact ⟨hregistry ▸ hc.exclusive, fun id row hrow => hc.running id row (hworkspaces ▸ hrow)⟩
  obtain rfl := Option.some.inj h
  obtain ⟨hc₁, hsandboxes₁, hoperations₁, hworkspaces₁⟩ :=
    foldl_transitionBack_all now .checkpointing .detachedDirty hc' (by decide) (by decide)
      (by decide) fun id row hrow hs => hids id row (hworkspaces ▸ hrow) (.inl hs)
  dsimp only
  generalize ((workspacesWithStatus db ids .checkpointing).map Prod.fst).foldl
    (transitionBack now .checkpointing .detachedDirty) db = db₁ at *
  -- A Workspace that is put back to `detached_dirty` was not being restored.
  have hrestoring : ∀ id row, db₁.workspaces id = some row → row.status = .restoring →
      ∃ old, s.db.workspaces id = some old ∧ old.status = .restoring := by
    intro id row hrow hs
    rw [hworkspaces₁, hworkspaces] at hrow
    obtain ⟨old, hold, rfl⟩ := Option.map_eq_some_iff.mp hrow
    refine ⟨old, hold, ?_⟩
    rw [WorkspaceRecord.back] at hs
    split_ifs at hs
    · cases hs
    · exact hs
  obtain ⟨hc₂, hsandboxes₂, hoperations₂, hworkspaces₂⟩ :=
    foldl_transitionBack_all now .restoring .remoteOnly hc₁ (by decide) (by decide)
      (by decide) fun id row hrow hs => by
        obtain ⟨old, hold, hs⟩ := hrestoring id row hrow hs
        exact hids id old hold (.inr hs)
  obtain ⟨hrecords, hdb, hvolumes⟩ := foldl_restoring docker now
    ((workspacesWithStatus db₁ ids .restoring).map Prod.fst) { s with db := db₁ }
  refine {
    records := hrecords
    sandboxes := by rw [hdb, hsandboxes₂, hsandboxes₁, hsandboxes]
    consistent := by rw [hdb]; exact hc₂
    operations := fun operation hmem => ?_
    workspaces := fun id => by
      rw [hdb, hworkspaces₂, hworkspaces₁, hworkspaces, Option.map_map]
      rfl
    volumes := fun id => ?_ }
  · rw [hdb, hoperations₂, hoperations₁] at hmem
    by_contra hne
    have hincomplete : operation.status.incomplete = true := by simpa using hne
    obtain ⟨hold, hnot⟩ := hoperations operation hmem hincomplete
    exact hnot (mem_incompleteOperations.mpr ⟨hold, hincomplete⟩)
  · by_cases hid : id ∈ (workspacesWithStatus db₁ ids .restoring).map Prod.fst
    · obtain ⟨-, row, hrow, hs⟩ := mem_withStatus.mp hid
      exact .inr (hrestoring id row hrow hs)
    · exact .inl (hvolumes id hid)

/-! ## After the startup -/

variable {kindOf : String → WorkspaceKind} {p : Process I R} {handled : List String}

/-- **What a startup restores**: the tables agree with the containers, nothing is under way, and no
volume of a recoverable Workspace is gone but one that was being restored from its head. -/
structure Restored (kindOf : String → WorkspaceKind) (now : ℤ) (p : Process I R) (s : Boot I R) :
    Prop where
  sandboxes : ∀ sandboxId, (∃ sandbox, Active s.db sandboxId sandbox) ↔
    ∃ record ∈ s.records, record.sandboxId = sandboxId ∧ OnRecord now p s.db record
  writers : ∀ workspaceId row sandboxId, s.db.workspaces workspaceId = some row →
    row.activeSandboxId = some sandboxId → ∃ record ∈ s.records,
      record.sandboxId = sandboxId ∧ record.workspaceId = workspaceId ∧ OnRecord now p s.db record
  operations : ∀ operation ∈ s.db.operations,
    operation.status ≠ .pending ∧ operation.status ≠ .running
  workspaces : ∀ workspaceId row, s.db.workspaces workspaceId = some row →
    row.status ≠ .checkpointing ∧ row.status ≠ .restoring
  volumes : ∀ workspaceId, kindOf workspaceId = .recoverable → p.volumes workspaceId = true →
    s.volumes workspaceId = false → ∃ row, p.store.workspaces workspaceId = some row ∧
      row.status = .restoring ∧ row.headRevision.isSome

theorem recover_status (row : WorkspaceRecord) :
    (row.recover now).status ≠ .checkpointing ∧ (row.recover now).status ≠ .restoring := by
  rw [WorkspaceRecord.recover, WorkspaceRecord.back, WorkspaceRecord.back]
  cases hs : row.status <;> simp [hs, WorkspaceRecord.move]

theorem Recovers.active (h : Recovers now s s') (sandboxId : String) (sandbox : SandboxRecord) :
    Active s'.db sandboxId sandbox ↔ Active s.db sandboxId sandbox := by
  rw [Active, Active, h.sandboxes]

/-- The recovery sees every row that is under way. -/
theorem Reconciled.underWay (h : Reconciled kindOf docker now p handled [] s)
    (rows : Rows p.store.toDb) {id : String} {row : WorkspaceRecord}
    (hrow : s.db.workspaces id = some row)
    (hs : row.status = .checkpointing ∨ row.status = .restoring) :
    p.store.workspaces id = some row ∧ id ∈ rows.workspaceIds := by
  have hidle : row.activeSandboxId = none := by
    by_contra hne
    rw [(h.sound.consistent.running id row hrow).mp hne] at hs
    simp at hs
  have hold : p.store.workspaces id = some row := by
    refine (h.detached id row hrow hidle).resolve_right fun hdirty => ?_
    rw [hdirty.2] at hs
    simp at hs
  exact ⟨hold, rows.workspaces id (by rw [hold]; rfl)⟩

theorem Recovers.restored (hm : Reconciled kindOf docker now p handled [] s)
    (hhandled : ∀ id sandbox, Active s.db id sandbox → id ∈ handled) (rows : Rows p.store.toDb)
    (h : Recovers now s s') : Restored kindOf now p s' := by
  have honRecord : ∀ record ∈ s'.records, OnRecord now p s'.db record := by
    intro record hrecord
    rw [h.records] at hrecord
    exact (hm.onRecord record hrecord).2.mono (by rw [h.sandboxes])
  have hrecorded : ∀ id sandbox, Active s'.db id sandbox → ∃ record ∈ s'.records,
      record.sandboxId = id := by
    intro id sandbox hactive
    have hactive := (h.active id sandbox).mp hactive
    rw [h.records]
    exact hm.recorded id (hhandled id sandbox hactive) sandbox hactive
  refine {
    sandboxes := fun id => ⟨?_, ?_⟩
    writers := fun id row sandboxId hrow hwriter => ?_
    operations := fun operation hmem => ?_
    workspaces := fun id row hrow => ?_
    volumes := fun id hkind hbefore hafter => ?_ }
  · rintro ⟨sandbox, hactive⟩
    obtain ⟨record, hrecord, hid⟩ := hrecorded id sandbox hactive
    exact ⟨record, hrecord, hid, honRecord record hrecord⟩
  · rintro ⟨record, -, rfl, hon⟩
    obtain ⟨sandbox, -, -, -, hrow⟩ := hon.row
    exact ⟨_, hrow, rfl⟩
  · obtain ⟨sandbox, hactive, rfl⟩ := h.consistent.active hrow hwriter
    obtain ⟨record, hrecord, rfl⟩ := hrecorded sandboxId sandbox hactive
    obtain ⟨kept, -, hworkspace, -, hrow'⟩ := (honRecord record hrecord).row
    obtain rfl := Option.some.inj (hactive.1.symm.trans hrow')
    exact ⟨record, hrecord, rfl, hworkspace.symm, honRecord record hrecord⟩
  · have hdone := h.operations operation hmem
    cases hs : operation.status <;> simp_all [OperationStatus.incomplete]
  · rw [h.workspaces] at hrow
    obtain ⟨old, -, rfl⟩ := Option.map_eq_some_iff.mp hrow
    exact recover_status old
  · rcases h.volumes id with hsame | ⟨row, hrow, hs⟩
    · rcases hm.volumes id with hold | ⟨-, -, hephemeral, -⟩
      · rw [hsame, hold, hbefore] at hafter
        cases hafter
      · rw [hkind] at hephemeral
        cases hephemeral
    · exact ⟨row, (hm.underWay rows hrow (.inr hs)).1, hs, (hm.sound.rows id row hrow).restoring hs⟩

/-! ## The startup returns -/

theorem keepSandbox_returns {sandboxId : String} {sandbox : SandboxRecord} {container : Container}
    {expiresAt : ℤ} (h : Active s.db sandboxId sandbox) (hc : Consistent s.db)
    (hexpires : sandbox.expiresAt = some expiresAt) :
    ∃ s', keepSandbox now s sandboxId sandbox container = some s' := by
  obtain ⟨row, hrow, -⟩ := h.writes hc
  by_cases hstarting : sandbox.status = .starting
  · simp [keepSandbox, ensureRunning, markSandboxRunning, h.1, hstarting, Except.toOption,
      Db.putSandbox, hexpires, hrow]
  · simp [keepSandbox, ensureRunning, h.1, hstarting, hexpires, hrow]

theorem Looking.returns {container : Container} {active : List (String × SandboxRecord)}
    {todo : List Container}
    (hlookup : ∀ id sandbox, active.lookup id = some sandbox ↔ Active p.store.toDb id sandbox)
    (h : Looking kindOf docker now p (container :: todo) s)
    (hremoves : docker.removes container = true) :
    ∃ s', reconcileContainer docker now active s container = some s' := by
  cases container with
  | operation operationId => exact ⟨s, by rw [reconcileContainer, if_pos hremoves]⟩
  | worker sandboxId workspaceId kind healthy =>
    have hfresh : sandboxId ∉ s.seen :=
      fun hin => h.unseen _ List.mem_cons_self sandboxId hin rfl
    rw [reconcileContainer]
    cases hfound : active.lookup sandboxId with
    | none => exact ⟨_, if_pos hremoves⟩
    | some sandbox =>
      have hactive :=
        (h.reconciled.untouched _ hfresh _).mpr ((hlookup sandboxId sandbox).mp hfound)
      dsimp only
      split_ifs with hvalid
      · obtain ⟨-, -, expiresAt, hexpires, -⟩ := valid_iff.mp hvalid
        exact keepSandbox_returns hactive h.reconciled.sound.consistent hexpires
      · exact ⟨_, rfl⟩

/-- Operations of the table can be given up. -/
theorem failOperations_return (now : ℤ) (captured : R → Bool) {operations : List (OperationRecord I R)}
    (h : ∀ operation ∈ operations, (findOperation db operation.id).isSome) :
    ∃ db', operations.foldlM (failOperation now captured) db = some db' := by
  refine @Machine.foldlM_returns _ _ _
    (fun left (db : Db I R) => ∀ operation ∈ left, (findOperation db operation.id).isSome)
    (fun db head left hleft => ?_) _ _ h
  have hhead : findOperation db head.id ≠ none :=
    Option.isSome_iff_ne_none.mp (hleft head List.mem_cons_self)
  rw [failOperation, updateOperation, if_neg (by simpa using hhead)]
  refine ⟨_, rfl, fun operation hmem => ?_⟩
  have hfound := hleft operation (List.mem_cons_of_mem _ hmem)
  rw [findOperation, List.find?_isSome] at hfound ⊢
  obtain ⟨old, hold, hid⟩ := hfound
  refine ⟨_, List.mem_map_of_mem hold, ?_⟩
  split_ifs <;> exact hid

theorem recoverIncompleteOperations_returns (docker : Docker) (now : ℤ) (captured : R → Bool)
    (ids : List String) (s : Boot I R) :
    ∃ s', recoverIncompleteOperations docker now captured ids s = some s' := by
  have hfound : ∀ operation ∈ incompleteOperations s.db,
      (findOperation s.db operation.id).isSome := by
    intro operation hmem
    rw [findOperation, List.find?_isSome]
    exact ⟨operation, (mem_incompleteOperations.mp hmem).1, by simp⟩
  obtain ⟨db, hfail⟩ := failOperations_return now captured hfound
  exact ⟨_, Option.bind_eq_some_iff.mpr ⟨db, hfail, rfl⟩⟩

/-- **A startup that can remove the containers it gives up returns.** -/
theorem startup_returns (hp : p.Sound kindOf) (rows : Rows p.store.toDb)
    (hremoves : ∀ container ∈ p.containers, docker.removes container = true) :
    ∃ s, startup docker now captured p rows = some s := by
  have hlookup : ∀ id sandbox, (activeSandboxes p.store.toDb rows.sandboxIds).lookup id =
      some sandbox ↔ Active p.store.toDb id sandbox := fun _ _ => activeSandboxes_lookup rows
  obtain ⟨s, hcontainers⟩ := Machine.foldlM_returns
    (fun s container todo (h : Looking kindOf docker now p (container :: todo) s) => by
      obtain ⟨s', hstep⟩ := h.returns hlookup (hremoves container (h.mem _ List.mem_cons_self))
      exact ⟨s', hstep, h.step hp hlookup hstep⟩) (looking_start hp)
  obtain ⟨s', hrecover⟩ := recoverIncompleteOperations_returns docker now captured
    rows.workspaceIds _
  exact ⟨s', by rw [startup, hcontainers]; exact hrecover⟩

/-- **The two halves of a startup.** -/
theorem startup_recovers (hp : p.Sound kindOf) {rows : Rows p.store.toDb}
    (h : startup docker now captured p rows = some s') :
    ∃ handled s, Reconciled kindOf docker now p handled [] s ∧
      (∀ id sandbox, Active s.db id sandbox → id ∈ handled) ∧
      (∀ id row, s.db.workspaces id = some row → kindOf id = .ephemeral →
        row.status ≠ .detachedClean) ∧ Recovers now s s' := by
  obtain ⟨handled, s, hs, hhandled, horphans, hrecover⟩ := startup_reconciled hp h
  refine ⟨handled, s, hs, hhandled, horphans,
    recoverIncompleteOperations_recovers hs.sound.consistent (fun id row hrow hstatus => ?_) hrecover⟩
  exact (hs.underWay rows hrow hstatus).2

/-- **The startup restores the Manager after any crash**, whatever the coroutines of the process did
before it and whichever containers are left; it returns if Docker removes the containers that it
gives up. -/
theorem startup_restores {steps : List (ProcessStep I R)}
    (hrun : Machine.run (processStep kindOf) .init steps = some p) (rows : Rows p.store.toDb) :
    ((∀ container ∈ p.containers, docker.removes container = true) →
      ∃ s, startup docker now captured p rows = some s) ∧
    ∀ s, startup docker now captured p rows = some s → Restored kindOf now p s := by
  refine ⟨startup_returns (run_sound hrun) rows, fun s hstartup => ?_⟩
  obtain ⟨handled, mid, hmid, hhandled, -, hrecovers⟩ :=
    startup_recovers (run_sound hrun) hstartup
  exact hrecovers.restored hmid hhandled rows

/-- Docker removes what it is asked to remove. -/
def willing : Docker := ⟨fun _ => true, fun _ => true⟩

/-- A crash while the worker of a new Sandbox starts. -/
def interruptedCreate : List (ProcessStep Unit Unit) :=
  [.call (.createWorkspace "workspace_1" .recoverable "agent-workspace-1" 0),
    .volume "workspace_1" true,
    .call (.claimWorkspace "workspace_1" "sandbox_a" "agent-sandbox-a" "agent-sandbox-a" 1 100),
    .createContainer "sandbox_a" true]

theorem startup_restores_interruptedCreate : ∃ p s,
    Machine.run (processStep fun _ => .recoverable) .init interruptedCreate = some p ∧
      Restored (fun _ => .recoverable) 5 p s := by
  have hsome : (Machine.run (processStep fun _ => .recoverable) .init interruptedCreate).isSome := by
    decide +kernel
  obtain ⟨p, hp⟩ := Option.isSome_iff_exists.mp hsome
  obtain ⟨rows⟩ := rows_exist (run_sound hp).finite
  have hboot : ((∀ container ∈ p.containers, willing.removes container = true) →
      ∃ s, startup willing 5 (fun _ => false) p rows = some s) ∧
    ∀ s, startup willing 5 (fun _ => false) p rows = some s →
      Restored (fun _ => .recoverable) 5 p s := startup_restores hp rows
  obtain ⟨s, hs⟩ := hboot.1 fun _ _ => rfl
  exact ⟨p, s, hp, hboot.2 s hs⟩

/-! ## Ephemeral Workspaces -/

/-- **What is to hold of the ephemeral Workspaces after a startup**: one has an active Sandbox with a
live container, or has been deleted together with its volume. -/
def EphemeralSettled (kindOf : String → WorkspaceKind) (now : ℤ) (p : Process I R) (s : Boot I R) :
    Prop :=
  ∀ workspaceId, kindOf workspaceId = .ephemeral →
    (∃ row, s.db.workspaces workspaceId = some row ∧ ∃ record ∈ s.records,
      row.activeSandboxId = some record.sandboxId ∧ OnRecord now p s.db record) ∨
    s.db.workspaces workspaceId = none ∧ s.volumes workspaceId = false

/-- No teardown had come as far as `deleting`, and each volume of an ephemeral Workspace that is not
in use is known by a row or a container, and is removed by Docker. -/
structure Recognised (kindOf : String → WorkspaceKind) (docker : Docker) (now : ℤ)
    (p : Process I R) : Prop where
  rows : ∀ workspaceId row, p.store.workspaces workspaceId = some row →
    kindOf workspaceId = .ephemeral → row.status ≠ .deleting
  volumes : ∀ workspaceId, kindOf workspaceId = .ephemeral → p.volumes workspaceId = true →
    (∃ sandboxId sandbox, Active p.store.toDb sandboxId sandbox ∧
      sandbox.workspaceId = workspaceId ∧ Valid now p sandboxId sandbox) ∨
    docker.removesVolume workspaceId = true ∧
      ((p.store.workspaces workspaceId).isSome ∨ Leftover p workspaceId)

/-- The recovery leaves an ephemeral Workspace alone. -/
theorem Recovers.ephemeral (h : Recovers now s s') (hrows : SoundRows kindOf s.db) {id : String}
    (hkind : kindOf id = .ephemeral) :
    s'.db.workspaces id = s.db.workspaces id ∧ s'.volumes id = s.volumes id := by
  have hstatus : ∀ row, s.db.workspaces id = some row →
      row.status ≠ .checkpointing ∧ row.status ≠ .restoring := by
    intro row hrow
    obtain ⟨-, -, hstatus⟩ := (hrows id row hrow).ephemeral hkind
    rcases hstatus with hs | hs | hs <;> simp [hs]
  constructor
  · rw [h.workspaces]
    cases hrow : s.db.workspaces id with
    | none => rfl
    | some row =>
      obtain ⟨hcheckpointing, hrestoring⟩ := hstatus row hrow
      simp [WorkspaceRecord.recover, WorkspaceRecord.back, hcheckpointing, hrestoring]
  · refine (h.volumes id).resolve_right fun ⟨row, hrow, hs⟩ => ?_
    exact (hstatus row hrow).2 hs

/-- **A teardown that had come as far as `deleting` is not taken up again.** -/
theorem Recovers.deleting (h : Recovers now s s')
    (hs : Reconciled kindOf docker now p handled [] s) (hp : p.Sound kindOf) {id : String}
    {row : WorkspaceRecord} (hrow : p.store.workspaces id = some row)
    (hdeleting : row.status = .deleting) :
    s'.db.workspaces id = some row ∧ row.activeSandboxId = none := by
  have hidle : row.activeSandboxId = none := by
    by_contra hne
    rw [(hp.consistent.running id row hrow).mp hne] at hdeleting
    cases hdeleting
  have hsame : s.db.workspaces id = some row := by
    refine (hs.idle id row hrow hidle).resolve_right fun ⟨_, hclean, _⟩ => ?_
    rw [hdeleting] at hclean
    cases hclean
  refine ⟨?_, hidle⟩
  rw [h.workspaces, hsame]
  simp [WorkspaceRecord.recover, WorkspaceRecord.back, hdeleting]

theorem Recovers.settled (h : Recovers now s s')
    (hs : Reconciled kindOf docker now p handled [] s) (hp : p.Sound kindOf)
    (hhandled : ∀ id sandbox, Active s.db id sandbox → id ∈ handled)
    (horphans : ∀ id row, s.db.workspaces id = some row → kindOf id = .ephemeral →
      row.status ≠ .detachedClean)
    (hrecognised : Recognised kindOf docker now p) : EphemeralSettled kindOf now p s' := by
  intro id hkind
  obtain ⟨hworkspaces, hvolumes⟩ := h.ephemeral hs.sound.rows hkind
  rw [hworkspaces, hvolumes, h.records]
  cases hrow : s.db.workspaces id with
  | some row =>
    refine .inl ⟨row, rfl, ?_⟩
    have hactive : row.activeSandboxId ≠ none := by
      intro hidle
      obtain ⟨-, -, hstatus⟩ := (hs.sound.rows id row hrow).ephemeral hkind
      rcases hstatus with hclean | hrunning | hdeleting
      · exact horphans id row hrow hkind hclean
      · exact ((hs.sound.consistent.running id row hrow).mpr hrunning) hidle
      · rcases hs.detached id row hrow hidle with hold | ⟨hrecoverable, -⟩
        · exact hrecognised.rows id row hold hkind hdeleting
        · rw [hkind] at hrecoverable
          cases hrecoverable
    obtain ⟨sandboxId, hwriter⟩ := Option.ne_none_iff_exists'.mp hactive
    obtain ⟨sandbox, hactive, -⟩ := hs.sound.consistent.active hrow hwriter
    obtain ⟨record, hrecord, rfl⟩ := hs.recorded _ (hhandled _ _ hactive) sandbox hactive
    exact ⟨record, hrecord, hwriter, (hs.onRecord record hrecord).2.mono (by rw [h.sandboxes])⟩
  | none =>
    refine .inr ⟨rfl, ?_⟩
    by_contra hpresent
    have hpresent : s.volumes id = true := by simpa using hpresent
    have hbefore : p.volumes id = true := by
      rcases hs.volumes id with hsame | ⟨hgone, -⟩
      · exact hsame ▸ hpresent
      · rw [hgone] at hpresent
        cases hpresent
    have hgone : Gone docker s id → docker.removesVolume id = true → False := by
      intro hgone hremoves
      rw [hgone.2 hremoves] at hpresent
      cases hpresent
    have hnoActive : ∀ sandboxId sandbox, Active s.db sandboxId sandbox →
        sandbox.workspaceId ≠ id := by
      rintro sandboxId sandbox hactive rfl
      obtain ⟨row, hrow', -⟩ := hactive.writes hs.sound.consistent
      rw [hrow] at hrow'
      cases hrow'
    rcases hrecognised.volumes id hkind hbefore with
      ⟨sandboxId, sandbox, hactive, rfl, hvalid⟩ | ⟨hremoves, hknown | ⟨sandboxId, healthy, hmem, hfree⟩⟩
    · by_cases hin : sandboxId ∈ handled
      · obtain ⟨sandbox', hactive', hworkspace⟩ := hs.valid sandboxId hin sandbox hactive hvalid
        exact hnoActive sandboxId sandbox' hactive' hworkspace
      · exact hnoActive sandboxId sandbox ((hs.untouched sandboxId hin sandbox).mpr hactive) rfl
    · obtain ⟨row, hold⟩ := Option.isSome_iff_exists.mp hknown
      cases hwriter : row.activeSandboxId with
      | none =>
        rcases hs.idle id row hold hwriter with hsame | ⟨-, -, hg⟩
        · rw [hrow] at hsame
          cases hsame
        · exact hgone hg hremoves
      | some sandboxId =>
        obtain ⟨sandbox, hactive, rfl⟩ := hp.consistent.active hold hwriter
        rcases hs.givenUp sandboxId sandbox hactive hkind with hg | ⟨sandbox', hactive', hworkspace⟩
        · exact hgone hg hremoves
        · exact hnoActive sandboxId sandbox' hactive' hworkspace
    · have hremoved := hs.leftovers sandboxId id healthy hmem (by simp) hfree hremoves
      rw [hremoved] at hpresent
      cases hpresent

/-- **What a settled state says about the crash.** -/
theorem Recovers.recognised (h : Recovers now s s')
    (hs : Reconciled kindOf docker now p handled [] s) (hp : p.Sound kindOf)
    (hsettled : EphemeralSettled kindOf now p s') : Recognised kindOf docker now p where
  rows := by
    intro id row hrow hkind hdeleting
    obtain ⟨hsame, hidle⟩ := h.deleting hs hp hrow hdeleting
    rcases hsettled id hkind with ⟨row', hrow', record, -, hwriter, -⟩ | ⟨hnone, -⟩
    · obtain rfl := Option.some.inj (hsame.symm.trans hrow')
      rw [hidle] at hwriter
      cases hwriter
    · rw [hsame] at hnone
      cases hnone
  volumes := by
    intro id hkind hpresent
    obtain ⟨-, hvolumes⟩ := h.ephemeral hs.sound.rows hkind
    rcases hsettled id hkind with ⟨row, hrow, record, -, hwriter, hon⟩ | ⟨-, hgone⟩
    · obtain ⟨sandbox, hactive, hworkspace, hexpires, hkept⟩ := hon.row
      obtain ⟨sandbox', hactive', rfl⟩ := h.consistent.active hrow hwriter
      obtain rfl := Option.some.inj (hkept.symm.trans hactive'.1)
      obtain ⟨kind, hlabels⟩ := hon.labels
      refine .inl ⟨record.sandboxId, sandbox, hactive, rfl, kind, record.expiresAt, ?_, hexpires,
        hon.lease⟩
      rw [hworkspace, ← hlabels]
      exact hon.container
    · refine .inr ?_
      rw [hvolumes] at hgone
      rcases hs.volumes id with hsame | ⟨-, hremoves, -, hknown⟩
      · rw [hsame, hpresent] at hgone
        cases hgone
      · exact ⟨hremoves, hknown⟩

/-- **A startup settles the ephemeral Workspaces if and only if the crash left none of them half torn
down where no pass looks for it.** -/
theorem startup_settles_iff {steps : List (ProcessStep I R)}
    (hrun : Machine.run (processStep kindOf) .init steps = some p) {rows : Rows p.store.toDb}
    (hstartup : startup docker now captured p rows = some s) :
    EphemeralSettled kindOf now p s ↔ Recognised kindOf docker now p := by
  have hp := run_sound hrun
  obtain ⟨handled, mid, hmid, hhandled, horphans, hrecovers⟩ := startup_recovers hp hstartup
  exact ⟨hrecovers.recognised hmid hp, hrecovers.settled hmid hp hhandled horphans⟩

/-- A crash of `terminate` between the two transactions on an ephemeral Workspace. -/
def interruptedTeardown : List (ProcessStep Unit Unit) :=
  [.call (.createWorkspace "workspace_1" .ephemeral "agent-workspace-1" 0),
    .volume "workspace_1" true,
    .call (.claimWorkspace "workspace_1" "sandbox_a" "agent-sandbox-a" "agent-sandbox-a" 1 100),
    .createContainer "sandbox_a" true, .call (.markSandboxRunning "sandbox_a" 2),
    .containers fun _ => none,
    .call (.finishSandbox "sandbox_a" ⟨.terminated, rfl⟩ ⟨.deleting, by decide⟩ 3)]

/-- One Workspace is ephemeral. -/
def oneEphemeral (workspaceId : String) : WorkspaceKind :=
  if workspaceId = "workspace_1" then .ephemeral else .recoverable

theorem eq_of_oneEphemeral {workspaceId : String} (h : oneEphemeral workspaceId = .ephemeral) :
    workspaceId = "workspace_1" := by
  rw [oneEphemeral] at h
  split_ifs at h with hid
  exact hid

/-- The Manager ends while the Sandbox runs, before any teardown. -/
theorem startup_settles_iff_running : ∃ p s,
    Machine.run (processStep oneEphemeral) .init (interruptedTeardown.take 5) = some p ∧
      Recognised oneEphemeral willing 5 p ∧ EphemeralSettled oneEphemeral 5 p s := by
  have hview : (Machine.run (processStep oneEphemeral) .init (interruptedTeardown.take 5)).bind
      (fun p => (p.store.workspaces "workspace_1").map (·.status)) = some .running := by
    decide +kernel
  obtain ⟨p, hp, hstatus⟩ := Option.bind_eq_some_iff.mp hview
  obtain ⟨row, hrow, hrunning⟩ := Option.map_eq_some_iff.mp hstatus
  obtain ⟨rows⟩ := rows_exist (run_sound hp).finite
  obtain ⟨s, hs⟩ : ∃ s, startup willing 5 (fun _ => false) p rows = some s :=
    startup_returns (run_sound hp) rows fun _ _ => rfl
  have hrecognised : Recognised oneEphemeral willing 5 p := by
    refine ⟨fun id row' hrow' hkind => ?_, fun id hkind _ => .inr ⟨rfl, .inl ?_⟩⟩
    · obtain rfl := eq_of_oneEphemeral hkind
      obtain rfl := Option.some.inj (hrow.symm.trans hrow')
      rw [hrunning]
      decide
    · obtain rfl := eq_of_oneEphemeral hkind
      rw [hrow]
      rfl
  exact ⟨p, s, hp, hrecognised, (startup_settles_iff hp hs).mpr hrecognised⟩

theorem startup_interruptedTeardown : ¬ ∀ (kindOf : String → WorkspaceKind)
    (steps : List (ProcessStep Unit Unit)) (p : Process Unit Unit) (rows : Rows p.store.toDb)
    (s : Boot Unit Unit), Machine.run (processStep kindOf) .init steps = some p →
      startup willing 5 (fun _ => false) p rows = some s → EphemeralSettled kindOf 5 p s := by
  intro h
  have hview : ((Machine.run (processStep fun _ => .ephemeral) .init interruptedTeardown).bind
      fun p => (p.store.workspaces "workspace_1").map (·.status)) = some .deleting := by
    decide +kernel
  obtain ⟨p, hp, hstatus⟩ := Option.bind_eq_some_iff.mp hview
  obtain ⟨row, hrow, hdeleting⟩ := Option.map_eq_some_iff.mp hstatus
  have hsound := run_sound hp
  obtain ⟨rows⟩ := rows_exist hsound.finite
  obtain ⟨s, hs⟩ : ∃ s, startup willing 5 (fun _ => false) p rows = some s :=
    startup_returns hsound rows fun _ _ => rfl
  obtain ⟨handled, mid, hmid, -, -, hrecovers⟩ := startup_recovers hsound hs
  obtain ⟨hsame, hidle⟩ := hrecovers.deleting hmid hsound hrow hdeleting
  rcases h _ _ p rows s hp hs "workspace_1" rfl with ⟨row', hrow', record, -, hwriter, -⟩ | ⟨hnone, -⟩
  · obtain rfl := Option.some.inj (hsame.symm.trans hrow')
    rw [hidle] at hwriter
    cases hwriter
  · rw [hsame] at hnone
    cases hnone

end CodexGateway.Manager
