import CodexGateway.Manager.Holder

/-!
# Manager/Beside — what a turn without the lock of the Workspace does

The coroutines that do not hold the lock still write to the tables and to the volume.  `Beside` is
what all of them leave to the one that does: a Workspace that is being checkpointed, restored or
deleted stays so, the head stays, and no Workspace gets clean.
-/

namespace CodexGateway.Manager

/-! ## Turns beside the holder -/

/-- What becomes of the row.  Only a claim gives a detached Workspace a new status. -/
structure RowBeside (claims : Prop) (row row' : WorkspaceRecord) : Prop where
  head : row'.headRevision = row.headRevision
  clean : row'.status = .detachedClean → row.status = .detachedClean
  busy : row.status.notMountable = true →
    row'.status = row.status ∧ row'.generation = row.generation
  detached : ¬ claims → row.status ≠ .running →
    row'.status = row.status ∧ row'.generation = row.generation

/-- **What the holder of the lock may rely on.** -/
structure Beside (workspaceId : String) (claims : Prop) (s s' : Host) : Prop where
  ledger : Ledger workspaceId s'.db
  persists : Persists s.db s'.db
  row : ∀ row, s.db.workspaces workspaceId = some row →
    ∃ row', s'.db.workspaces workspaceId = some row' ∧ RowBeside claims row row'
  fresh : s.db.workspaces workspaceId = none → ∀ row', s'.db.workspaces workspaceId = some row' →
    row'.headRevision = none
  volume : Grows s s'
  snapshots : s'.snapshots = s.snapshots
  holder : s'.holder = s.holder

section Beside

variable {ws : String} {claims : Prop} {s s' : Host} {row row' : WorkspaceRecord}

theorem RowBeside.refl (row : WorkspaceRecord) : RowBeside claims row row :=
  ⟨rfl, id, fun _ => ⟨rfl, rfl⟩, fun _ _ => ⟨rfl, rfl⟩⟩

/-- A row that keeps its head, its status and its generation. -/
theorem RowBeside.same (hhead : row'.headRevision = row.headRevision)
    (hstatus : row'.status = row.status) (hgeneration : row'.generation = row.generation) :
    RowBeside claims row row' :=
  ⟨hhead, fun h => hstatus.symm.trans h, fun _ => ⟨hstatus, hgeneration⟩,
    fun _ _ => ⟨hstatus, hgeneration⟩⟩

theorem RowBeside.mono {claims' : Prop} (h : RowBeside claims row row') (himp : claims → claims') :
    RowBeside claims' row row' :=
  ⟨h.head, h.clean, h.busy, fun hn => h.detached fun hc => hn (himp hc)⟩

/-- What holds beside fewer claims holds beside more. -/
theorem Beside.mono {claims' : Prop} (h : Beside ws claims s s') (himp : claims → claims') :
    Beside ws claims' s s' := { h with
  row := fun row hrow => by
    obtain ⟨row', hrow', hr⟩ := h.row row hrow
    exact ⟨row', hrow', hr.mono himp⟩ }

/-- **What the holder relies on outlasts the turns of the others.** -/
theorem Critical.Ok.beside {c : Critical} (h : c.Ok ws s row) (hb : Beside ws claims s s')
    (hr : RowBeside claims row row') : c.Ok ws s' row' := by
  have hclean (hne : row.status ≠ .detachedClean) : row'.status ≠ .detachedClean :=
    fun he => hne (hr.clean he)
  have hbusy {status : WorkspaceStatus} (hstatus : row.status = status)
      (hmount : status.notMountable = true) : row'.status = status ∧
        row'.generation = row.generation := by
    obtain ⟨h₁, h₂⟩ := hr.busy (hstatus ▸ hmount)
    exact ⟨h₁.trans hstatus, h₂⟩
  cases c with
  | prepareExists caller current | prepareDecide caller current volumeExists =>
    exact ⟨h.1.trans hr.head.symm, fun hremote => hclean (h.2 hremote)⟩
  | prepareEnsure caller | cleanupRemove | cleanupRemoved => trivial
  | restoreExists caller r | restoreRemove caller r | restoreEnsure caller r
  | restoreBegin caller r => exact ⟨hr.head.trans h.1, hclean h.2⟩
  | restoreRun caller id r =>
    exact ⟨(hbusy h.1 rfl).1, hr.head.trans h.2.1, h.2.2.persists hb.persists⟩
  | restoreDone caller id r =>
    exact ⟨(hbusy h.1 rfl).1, hr.head.trans h.2.1, h.2.2.1.persists hb.persists,
      h.2.2.2.grow hb.volume hb.snapshots⟩
  | restoreUndo caller id error | restoreFail caller id error => exact hclean h
  | checkpointRun id g =>
    exact ⟨(hbusy h.1 rfl).1, (hbusy h.1 rfl).2.trans h.2.1, h.2.2.persists hb.persists⟩
  | checkpointDone id g r =>
    exact ⟨(hbusy h.1 rfl).1, (hbusy h.1 rfl).2.trans h.2.1, h.2.2.1.persists hb.persists,
      h.2.2.2.grow hb.volume hb.snapshots⟩
  | checkpointFail id error =>
    exact ⟨(hbusy h.1 rfl).1, (hbusy h.1 rfl).2 ▸ h.2.persists hb.persists⟩

theorem HostOk.beside (h : HostOk ws s) (hb : Beside ws claims s s') : HostOk ws s' := by
  refine ⟨hb.ledger, fun c hc => ?_⟩
  obtain ⟨row, hrow, hok⟩ := h.holds c (hb.holder ▸ hc)
  obtain ⟨row', hrow', hr⟩ := hb.row row hrow
  exact ⟨row', hrow', hok.beside hb hr⟩

theorem Clean.beside (h : Clean ws s) (hb : Beside ws claims s s') : Clean ws s' := by
  intro row' hrow' hclean hremoved r hhead
  cases hrow : s.db.workspaces ws with
  | none =>
    rw [hb.fresh hrow row' hrow'] at hhead
    cases hhead
  | some row =>
    obtain ⟨row₁, hrow₁, hr⟩ := hb.row row hrow
    obtain rfl := Option.some.inj (hrow₁.symm.trans hrow')
    exact (h row hrow (hr.clean hclean) (hb.holder ▸ hremoved) r (hr.head ▸ hhead)).grow hb.volume
      hb.snapshots

/-- The row and the operations are as they were. -/
theorem Beside.of_db (hl : Ledger ws s.db) (hworkspaces : s'.db.workspaces = s.db.workspaces)
    (hoperations : s'.db.operations = s.db.operations) (hgrows : Grows s s')
    (hsnapshots : s'.snapshots = s.snapshots) (hholder : s'.holder = s.holder) :
    Beside ws claims s s' where
  ledger := hl.congr (congrFun hworkspaces ws) hoperations
  persists := .of_eq hoperations
  row := fun row hrow => ⟨row, hworkspaces ▸ hrow, .refl row⟩
  fresh := fun hnone row' hrow' => by
    rw [hworkspaces, hnone] at hrow'
    cases hrow'
  volume := hgrows
  snapshots := hsnapshots
  holder := hholder

/-- An operation is updated. -/
theorem Beside.of_updated {db : Tables} {operationId : String} {status : OperationStatus}
    (hl : Ledger ws s.db) (hu : Updated operationId status s.db db)
    (hsaved : status = .succeeded → ∀ row, s.db.workspaces ws = some row → row.status.saved = true) :
    Beside ws claims s { s with db := db } where
  ledger := hl.updated hu hsaved
  persists := hu.persists
  row := fun row hrow => ⟨row, (congrFun hu.workspaces ws).trans hrow, .refl row⟩
  fresh := fun hnone row' hrow' => by
    rw [show ({ s with db := db } : Host).db.workspaces = s.db.workspaces from hu.workspaces,
      hnone] at hrow'
    cases hrow'
  volume := fun _ h => h
  snapshots := rfl
  holder := rfl

/-- The row is written, and no operation. -/
theorem Beside.of_row {db : Tables} (hl : Ledger ws s.db) (hrow : s.db.workspaces ws = some row)
    (hrow' : db.workspaces ws = some row') (hoperations : db.operations = s.db.operations)
    (hm : Moves row row') (hr : RowBeside claims row row') :
    Beside ws claims s { s with db := db } where
  ledger := (hl.put hrow hm).congr (hrow'.trans (Db.putWorkspace_workspaces ..).symm) hoperations
  persists := .of_eq hoperations
  row := fun r h => by
    obtain rfl := Option.some.inj (hrow.symm.trans h)
    exact ⟨row', hrow', hr⟩
  fresh := fun hnone => by
    rw [hrow] at hnone
    cases hnone
  volume := fun _ h => h
  snapshots := rfl
  holder := rfl

end Beside

/-! ## Transactions -/

section Transactions

variable {ws sandboxId : String} {claims : Prop} {s : Host} {row : WorkspaceRecord} {now : ℤ}

theorem claim_beside (hl : Ledger ws s.db) {workerHost containerName : String}
    {createdAt expiresAt : ℤ} {r : Tables × WorkspaceRecord × SandboxRecord}
    (hok : claimWorkspace s.db ws sandboxId workerHost containerName createdAt expiresAt = .ok r) :
    Beside ws True s { s with db := r.1 } := by
  obtain ⟨db, row', sandbox⟩ := r
  obtain ⟨row, hrow, -, hmountable, -, rfl, -, rfl⟩ := claimWorkspace_ok hok
  refine .of_row hl hrow (Db.putWorkspace_workspaces ..) rfl ⟨?_, Nat.le_succ _, ?_⟩ ⟨rfl, ?_, ?_, ?_⟩
  · simp [WorkspaceRecord.claim]
  · exact fun hg => absurd hg (Nat.succ_ne_self _)
  · exact fun he => by cases he
  · exact fun hbusy => by simp [hmountable] at hbusy
  · exact fun hn => absurd trivial hn

theorem markSandboxRunning_operations {db db' : Tables}
    (hok : markSandboxRunning db sandboxId now = .ok db') : db'.operations = db.operations := by
  rw [markSandboxRunning] at hok
  split at hok
  · cases hok
  · split_ifs at hok
    obtain rfl := Except.ok.inj hok
    rfl

theorem markSandboxRunning_beside (hl : Ledger ws s.db) {db : Tables}
    (hok : markSandboxRunning s.db sandboxId now = .ok db) :
    Beside ws claims s { s with db := db } := by
  have hoperations := markSandboxRunning_operations hok
  cases hrow : s.db.workspaces ws with
  | none =>
    obtain ⟨-, -, -, -, hworkspaces⟩ := markSandboxRunning_eq hok
    have hnone : db.workspaces ws = none := by rw [hworkspaces]; simp [hrow]
    refine ⟨hl.congr (hnone.trans hrow.symm) hoperations, .of_eq hoperations, fun r hr => ?_,
      fun _ r hr => ?_, fun _ h => h, rfl, rfl⟩
    · rw [hrow] at hr
      cases hr
    · rw [show ({ s with db := db } : Host).db.workspaces ws = none from hnone] at hr
      cases hr
  | some row =>
    obtain ⟨-, -, -, hrows⟩ := markSandboxRunning_ok hok
    have hrunning := hl.running row hrow
    rcases hrows ws row hrow with hrow' | hrow'
    · exact .of_row hl hrow hrow' hoperations ⟨hrunning, Nat.le_refl _, fun _ h => h⟩ (.refl row)
    · exact .of_row hl hrow hrow' hoperations ⟨hrunning, Nat.le_refl _, fun _ h => h⟩
        (.same rfl rfl rfl)

theorem endSandbox_operations (db : Tables) (sandboxId : String) (status : SandboxStatus) (now : ℤ) :
    (endSandbox db sandboxId status now).operations = db.operations := by
  rw [endSandbox]
  cases hok : finishSandbox db sandboxId status .detachedDirty now with
  | error e => rfl
  | ok r =>
    obtain ⟨_, _, _, _, _, _, _, hdb⟩ := finishSandbox_ok hok
    rw [Except.map, suppress, hdb]
    rfl

/-- **A Workspace whose Sandbox ends is dirty.** -/
theorem endSandbox_beside (hl : Ledger ws s.db) (sandboxId : String) (status : SandboxStatus)
    (now : ℤ) : Beside ws claims s { s with db := endSandbox s.db sandboxId status now } := by
  rw [endSandbox]
  cases hok : finishSandbox s.db sandboxId status .detachedDirty now with
  | error e => exact .of_db hl rfl rfl (fun _ h => h) rfl rfl
  | ok r =>
    obtain ⟨db, row'⟩ := r
    obtain ⟨sandbox, ended, row, -, hrow, -, hrow', rfl⟩ := finishSandbox_ok hok
    by_cases hid : sandbox.workspaceId = ws
    · subst hid
      refine .of_row hl hrow (Db.putWorkspace_workspaces ..) rfl ?_ ?_
      · rcases hrow' with ⟨hactive, rfl⟩ | rfl
        · have hrunning := (hl.running row hrow).mp (by simp [hactive])
          exact ⟨by simp [WorkspaceRecord.release], Nat.le_refl _, fun _ hs => by
            rw [hrunning] at hs; cases hs⟩
        · exact ⟨hl.running _ hrow, Nat.le_refl _, fun _ h => h⟩
      · rcases hrow' with ⟨hactive, rfl⟩ | rfl
        · have hrunning := (hl.running row hrow).mp (by simp [hactive])
          refine ⟨rfl, fun he => (by cases he), fun hbusy => ?_, fun _ hne => absurd hrunning hne⟩
          rw [hrunning] at hbusy
          cases hbusy
        · exact .refl _
    · have hother : ((s.db.putSandbox sandboxId ended).putWorkspace sandbox.workspaceId
          row').workspaces ws = s.db.workspaces ws := by
        simp [Db.putWorkspace, Db.putSandbox, Function.update_of_ne (Ne.symm hid)]
      refine ⟨hl.congr hother rfl, .of_eq rfl, fun r hr => ⟨r, hother.trans hr, .refl r⟩,
        fun hnone r hr => ?_, fun _ h => h, rfl, rfl⟩
      exact absurd (hnone.symm.trans (hother.symm.trans hr)) (by simp)

theorem scheduleDelete_beside (hl : Ledger ws s.db) {deleteAfter : ℤ}
    {r : Tables × WorkspaceRecord}
    (hok : scheduleWorkspaceDelete s.db ws deleteAfter now = .ok r) :
    Beside ws claims s { s with db := r.1 } := by
  rw [scheduleWorkspaceDelete] at hok
  split at hok
  · cases hok
  · rename_i row hrow
    split_ifs at hok
    obtain rfl := Except.ok.inj hok
    exact .of_row hl hrow (Db.putWorkspace_workspaces ..) rfl
      ⟨hl.running row hrow, Nat.le_refl _, fun _ h => h⟩ (.same rfl rfl rfl)

theorem scheduleDelete_operations {db : Tables} {deleteAfter : ℤ} {r : Tables × WorkspaceRecord}
    (hok : scheduleWorkspaceDelete db ws deleteAfter now = .ok r) :
    r.1.operations = db.operations := by
  rw [scheduleWorkspaceDelete] at hok
  split at hok
  · cases hok
  · split_ifs at hok
    obtain rfl := Except.ok.inj hok
    rfl

theorem createWorkspace_operations {db : Tables} {kind : WorkspaceKind} {volumeName : String}
    {r : Tables × WorkspaceRecord} (hok : createWorkspace db ws kind volumeName now = .ok r) :
    r.1.operations = db.operations := by
  rw [createWorkspace] at hok
  split at hok
  · obtain rfl := Except.ok.inj hok
    rfl
  · split_ifs at hok
    obtain rfl := Except.ok.inj hok
    rfl

/-- A Workspace that is new has no head. -/
theorem createWorkspace_beside (hl : Ledger ws s.db) {kind : WorkspaceKind} {volumeName : String}
    {r : Tables × WorkspaceRecord}
    (hok : createWorkspace s.db ws kind volumeName now = .ok r) :
    Beside ws claims s { s with db := r.1 } := by
  rw [createWorkspace] at hok
  split at hok
  · rename_i hnone
    obtain rfl := Except.ok.inj hok
    have hrow := Db.putWorkspace_workspaces s.db ws
      ⟨ws, kind, .detachedClean, volumeName, 0, none, none, now, now, none⟩
    have hnew {r : WorkspaceRecord} (hr : (s.db.putWorkspace ws ⟨ws, kind, .detachedClean,
        volumeName, 0, none, none, now, now, none⟩).workspaces ws = some r) :
        r = ⟨ws, kind, .detachedClean, volumeName, 0, none, none, now, now, none⟩ :=
      Option.some.inj (hr.symm.trans hrow)
    have hempty := hl.gone hnone
    refine ⟨⟨hl.keyed, hl.ids, hl.keys, fun _ => hempty, fun r hr => ?_, fun r hr o ho => ?_,
      fun r hr o ho => ?_⟩, .of_eq rfl, fun r hr => ?_, fun _ r hr => ?_, fun _ h => h, rfl, rfl⟩
    · obtain rfl := hnew hr
      exact ⟨fun h => absurd rfl h, fun h => by cases h⟩
    · rw [show (s.db.putWorkspace ws _).operations = [] from hempty] at ho
      cases ho
    · rw [show (s.db.putWorkspace ws _).operations = [] from hempty] at ho
      cases ho
    · rw [hnone] at hr
      cases hr
    · obtain rfl := hnew hr
      rfl
  · split_ifs at hok
    obtain rfl := Except.ok.inj hok
    exact .of_db hl rfl rfl (fun _ h => h) rfl rfl

end Transactions

end CodexGateway.Manager
