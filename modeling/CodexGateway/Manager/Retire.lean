import CodexGateway.Manager.Head

/-!
# Manager/Retire — a retired Workspace is out of reach

`release_workspace`, `_retire_workspace` and the reaper beside the coroutines of `backend`.  A
retire takes the lock of the Workspace, moves it to `deleting` in the step that checks it, and then
deletes the remote repository, the volume and the rows, waiting each time.

Nothing moves a Workspace out of `deleting`, so no claim comes between (`retire_safe`).  But a
release does not look at the status: while the retire is at work it puts `delete_after` back into
the future, and the retire goes on (`retire_released`).
-/

namespace CodexGateway.Manager

/-- The settings, with the grace period. -/
structure RetireSettings extends Settings where
  workspaceDeleteGraceSeconds : ℤ

/-- What `_retire_workspace` waits for under the lock, for its operation. -/
inductive RetireStage where
  | repository (operationId : String)
  | repositoryDeleted (operationId : String) (objects : ℕ)
  | volume (operationId : String)
  | rows (operationId : String)
  | failed (operationId error : String)
deriving DecidableEq

/-- The retire is going to delete something. -/
def RetireStage.deletes : RetireStage → Bool
  | .failed _ _ => false
  | _ => true

/-- The host under a retire.  `deleted` is whether a retire has deleted anything of the Workspace
whose row is in the table. -/
structure Retirement where
  host : Host
  retiring : Option RetireStage
  clock : ℤ
  deleted : Bool

/-- What a task does: a task of the Workspace, a release, or a retire. -/
inductive RetireTask where
  | backend (t : Task)
  -- `release_workspace`, while it terminates the active Sandbox
  | releaseRemove (sandboxId : String)
  | releaseRemoved (sandboxId : String)
  | retireLock
deriving DecidableEq

/-- The end of an `await` of `_retire_workspace`; where the deletion of the repository fails, the
`kept` revisions are still there. -/
structure RetireTurn where
  ok : Bool
  objects : ℕ
  kept : List String
  error : String

/-- What comes from outside. -/
inductive RetireEvent where
  | backend (e : Event)
  | createWorkspace (volumeName : String)
  | release
  /-- the reaper schedules a retire -/
  | retire
  /-- a turn of the retire that holds the lock -/
  | retirer (turn : RetireTurn)
  | tick (now : ℤ)

/-- The coroutines that wait for the lock of the Workspace. -/
def Task.locks : Task → Bool
  | .createLock _ | .restoreLock _ | .checkpointLock | .cleanupLock => true
  | _ => false

namespace Retirement

/-- A retire is about to delete something. -/
def deleting (s : Retirement) : Bool := s.retiring.any (·.deletes)

/-- The tables are written. -/
def setDb (s : Retirement) (db : Tables) : Retirement := { s with host := { s.host with db := db } }

/-- The retire has the lock and waits. -/
def wait (s : Retirement) (stage : RetireStage) : Retirement := { s with retiring := some stage }

/-- The retire records an error and gives up the lock. -/
def giveUp (s : Retirement) (operationId error : String) : Retirement :=
  { s.setDb (endOperation s.host.db operationId .failed none (some error) s.clock) with
    retiring := none }

end Retirement

variable (cfg : RetireSettings)

/-! ## `_retire_workspace` -/

/-- What `_retire_workspace` checks of the row. -/
def retireDue (row : WorkspaceRecord) (now : ℤ) : Bool :=
  row.deleteAfter.any (· ≤ now) && row.activeSandboxId.isNone &&
    [WorkspaceStatus.detachedClean, .remoteOnly, .deleting].contains row.status

/-- The deletion of the repository is recorded, and the volume is next. -/
def recordRetired (s : Retirement) (operationId : String) (objects : ℕ) : Retirement :=
  match updateOperation s.host.db operationId .succeeded none (some (.objectsDeleted objects)) none
      s.clock with
  | .error e => s.giveUp operationId e.message
  | .ok db => (s.setDb db).wait (.volume operationId)

/-- The retire has the lock. -/
def retireBegin (s : Retirement) (token : String) : Retirement :=
  match getWorkspace s.host.db cfg.workspaceId with
  | .error _ => s
  | .ok row =>
    if retireDue row s.clock = false then s
    else
      let workspaceId := cfg.workspaceId
      match createOperation s.host.db s!"operation_{token}" .retire workspaceId none
          s!"retire:{workspaceId}" .empty s.clock with
      | .error _ => s
      | .ok (db, operation, _) =>
        let moved :=
          if row.status = .deleting then .ok (db, row)
          else transitionWorkspace db workspaceId [.detachedClean, .remoteOnly] .deleting s.clock
        match moved with
        | .error e => (s.setDb db).giveUp operation.id e.message
        | .ok (db, row) =>
          match updateOperation db operation.id .running none none none s.clock with
          | .error e => (s.setDb db).giveUp operation.id e.message
          | .ok db =>
            if row.headRevision ≠ none then (s.setDb db).wait (.repository operation.id)
            else recordRetired (s.setDb db) operation.id 0

/-- The retire goes on from one awaited call to the next. -/
def retireStep (s : Retirement) (turn : RetireTurn) : RetireStage → Retirement
  | .repository operationId =>
    if turn.ok then
      { s.wait (.repositoryDeleted operationId turn.objects) with
        host := { s.host with snapshots := fun _ => none }
        deleted := true }
    else
      { s.wait (.failed operationId turn.error) with
        host := { s.host with
          snapshots := fun revisionId =>
            if revisionId ∈ turn.kept then s.host.snapshots revisionId else none }
        deleted := true }
  | .repositoryDeleted operationId objects => recordRetired s operationId objects
  | .volume operationId =>
    if turn.ok then
      { s.wait (.rows operationId) with
        host := { s.host with volume := none }
        deleted := true }
    else s.wait (.failed operationId turn.error)
  | .rows operationId =>
    match deleteWorkspace s.host.db cfg.workspaceId with
    | .error e => s.giveUp operationId e.message
    | .ok db => { s.setDb db with retiring := none, deleted := false }
  | .failed operationId error => s.giveUp operationId error

/-- `retire_candidates` -/
def isRetireCandidate (db : Tables) (row : WorkspaceRecord) (now : ℤ) : Bool :=
  row.kind = .recoverable && retireDue row now &&
    !(incompleteOperations db).any fun operation => operation.workspaceId = row.id

/-! ## `release_workspace` -/

/-- The grace period starts, or starts again. -/
def scheduleDelete (s : Retirement) : Retirement :=
  match scheduleWorkspaceDelete s.host.db cfg.workspaceId
      (s.clock + cfg.workspaceDeleteGraceSeconds) s.clock with
  | .error _ => s
  | .ok (db, _) => s.setDb db

/-- What a task does next, while no retire holds the lock. -/
def retireTaskStep (s : Retirement) (turn : Turn) : RetireTask → Option (Retirement × RetireTask)
  | .backend t =>
    if s.retiring.isSome && t.locks then none
    else
      (taskStep cfg.toSettings s.host turn t).map fun (host, t') =>
        ({ s with host := host }, .backend t')
  | .releaseRemove sandboxId =>
    (taskStep cfg.toSettings s.host turn (.terminateRemove sandboxId)).map fun (host, _) =>
      ({ s with host := host },
        if turn.ok then .releaseRemoved sandboxId else .backend .finished)
  | .releaseRemoved sandboxId =>
    (taskStep cfg.toSettings s.host turn (.terminateRemoved sandboxId)).map fun (host, t') =>
      (scheduleDelete cfg { s with host := host }, .backend t')
  | .retireLock =>
    if s.retiring.isSome || s.host.holder.isSome then none
    else some (retireBegin cfg s turn.text, .backend .finished)

/-- What comes from outside does at once. -/
def retireEventStep (s : Retirement) : RetireEvent → Option (Retirement × List RetireTask)
  | .backend e =>
    (eventStep cfg.toSettings s.host e).map fun (host, ts) =>
      ({ s with host := host }, ts.map .backend)
  | .createWorkspace volumeName =>
    match createWorkspace s.host.db cfg.workspaceId .recoverable volumeName s.clock with
    | .error _ => none
    | .ok (db, _) => some (s.setDb db, [])
  | .release =>
    match getWorkspace s.host.db cfg.workspaceId with
    | .error _ => none
    | .ok row =>
      match row.activeSandboxId with
      | none => some (scheduleDelete cfg s, [])
      | some sandboxId =>
        if sandboxId ∈ s.host.records then some (s, [.releaseRemove sandboxId]) else none
  | .retire =>
    (s.host.db.workspaces cfg.workspaceId).bind fun row =>
      if cfg.storageEnabled && isRetireCandidate s.host.db row s.clock then some (s, [.retireLock])
      else none
  | .retirer turn => s.retiring.map fun stage => (retireStep cfg s turn stage, [])
  | .tick now => if s.clock ≤ now then some ({ s with clock := now }, []) else none

/-- The tasks of a Workspace that may be retired. -/
def retirement : Pool.Program Retirement RetireTask Turn RetireEvent where
  act := fun s t turn => retireTaskStep cfg s turn t
  env := retireEventStep cfg

/-- Before the Workspace is created. -/
def Retirement.init (clock : ℤ) : Pool Retirement RetireTask where
  shared := ⟨⟨Db.empty, none, fun _ => none, [], none⟩, none, clock, false⟩
  tasks := []

/-! ## Nothing leaves `deleting` -/

/-- The Workspace is being deleted, and nobody writes it. -/
def Doomed (workspaceId : String) (deleteAfter : Option ℤ) (db : Tables) : Prop :=
  ∃ row, db.workspaces workspaceId = some row ∧ row.status = .deleting ∧
    row.activeSandboxId = none ∧ row.deleteAfter = deleteAfter

/-- A Workspace that is being deleted stays so. -/
structure StaysDoomed (workspaceId : String) (db db' : Tables) : Prop where
  keeps : ∀ deleteAfter, Doomed workspaceId deleteAfter db → Doomed workspaceId deleteAfter db'

section Doomed

variable {cfg : Settings} {workspaceId : String} {db m db' : Tables} {row' : WorkspaceRecord}
  {now : ℤ}

/-- Nothing changes. -/
theorem StaysDoomed.refl (db : Tables) : StaysDoomed workspaceId db db := ⟨fun _ h => h⟩

/-- What two steps keep is kept. -/
theorem StaysDoomed.trans (h : StaysDoomed workspaceId db m) (h' : StaysDoomed workspaceId m db') :
    StaysDoomed workspaceId db db' :=
  ⟨fun deleteAfter hd => h'.keeps deleteAfter (h.keeps deleteAfter hd)⟩

/-- The rows are as they were. -/
theorem staysDoomed_of_workspaces (h : db'.workspaces = db.workspaces) :
    StaysDoomed workspaceId db db' := by
  refine ⟨fun _ hd => ?_⟩
  rwa [Doomed, h]

/-- The end of an operation saves no Workspace that is being deleted. -/
theorem staysDoomed_endOperation (operationId : String) (status : OperationStatus)
    (result : Option OperationResult) (error : Option String) (now : ℤ) :
    StaysDoomed workspaceId db (endOperation db operationId status result error now) :=
  staysDoomed_of_workspaces (endOperation_workspaces ..)

/-- A transition that does not expect a deletion leaves one alone. -/
theorem staysDoomed_transition {expected : List WorkspaceStatus} {status : WorkspaceStatus}
    (hexpected : .deleting ∉ expected)
    (h : transitionWorkspace db workspaceId expected status now = .ok (db', row')) :
    StaysDoomed workspaceId db db' := by
  refine ⟨?_⟩
  rintro deleteAfter ⟨row, hrow, hdeleting, -⟩
  obtain ⟨r, hr, hstatus, -⟩ := transitionWorkspace_ok h
  obtain rfl := Option.some.inj (hrow.symm.trans hr)
  exact absurd (hdeleting ▸ hstatus) hexpected

/-- The same, where the transition may fail. -/
theorem staysDoomed_transitionOrKeep {expected : List WorkspaceStatus}
    (hexpected : .deleting ∉ expected) (status : WorkspaceStatus) (now : ℤ) :
    StaysDoomed cfg.workspaceId db (transitionOrKeep cfg db expected status now) := by
  rw [transitionOrKeep]
  cases h : transitionWorkspace db cfg.workspaceId expected status now with
  | error e => exact .refl db
  | ok r => exact staysDoomed_transition hexpected h

/-- A Workspace that is being deleted is not claimed. -/
theorem staysDoomed_claim {sandboxId workerHost containerName : String} {createdAt expiresAt : ℤ}
    {sandbox : SandboxRecord}
    (h : claimWorkspace db workspaceId sandboxId workerHost containerName createdAt expiresAt =
      .ok (db', row', sandbox)) : StaysDoomed workspaceId db db' := by
  refine ⟨?_⟩
  rintro deleteAfter ⟨row, hrow, hdeleting, -⟩
  obtain ⟨r, hr, -, hmountable, -⟩ := claimWorkspace_ok h
  obtain rfl := Option.some.inj (hrow.symm.trans hr)
  rw [hdeleting] at hmountable
  cases hmountable

/-- A Workspace that is being deleted gets no revision. -/
theorem staysDoomed_commit {operationId revisionId : String} {generation : ℕ}
    {result : OperationResult}
    (h : commitRevision db workspaceId operationId revisionId generation result now =
      .ok (db', row')) : StaysDoomed workspaceId db db' := by
  refine ⟨?_⟩
  rintro deleteAfter ⟨row, hrow, hdeleting, -⟩
  obtain ⟨r, hr, hcheckpointing, -⟩ := commitRevision_ok h
  obtain rfl := Option.some.inj (hrow.symm.trans hr)
  exact nomatch hdeleting.symm.trans hcheckpointing

/-- A Workspace that is being deleted has no Sandbox to end. -/
theorem staysDoomed_endSandbox (sandboxId : String) (status : SandboxStatus) (now : ℤ) :
    StaysDoomed workspaceId db (endSandbox db sandboxId status now) := by
  rw [endSandbox]
  cases h : finishSandbox db sandboxId status .detachedDirty now with
  | error e => exact .refl db
  | ok r =>
    obtain ⟨db', row'⟩ := r
    refine ⟨?_⟩
    rintro deleteAfter ⟨row, hrow, hdeleting, hidle, hafter⟩
    obtain ⟨sandbox, ended, r, -, hr, -, hrow', rfl⟩ := finishSandbox_ok h
    by_cases hid : workspaceId = sandbox.workspaceId
    · subst hid
      obtain rfl := Option.some.inj (hrow.symm.trans hr)
      -- the Sandbox that ends is not the active one
      obtain rfl := hrow'.resolve_left fun hactive => by simp [hidle] at hactive
      exact ⟨row', Db.putWorkspace_workspaces .., hdeleting, hidle, hafter⟩
    · refine ⟨row, ?_, hdeleting, hidle, hafter⟩
      simp only [Db.putWorkspace, suppress, Except.map, Function.update_of_ne hid]
      exact hrow

/-- A Workspace that is being deleted has no Sandbox that starts. -/
theorem staysDoomed_markSandboxRunning {sandboxId : String}
    (h : markSandboxRunning db sandboxId now = .ok db') : StaysDoomed workspaceId db db' := by
  refine ⟨?_⟩
  rintro deleteAfter ⟨row, hrow, hdeleting, hidle, hafter⟩
  obtain ⟨-, -, -, hrows⟩ := markSandboxRunning_ok h
  rcases hrows workspaceId row hrow with hrow' | hrow'
  · exact ⟨row, hrow', hdeleting, hidle, hafter⟩
  · exact ⟨_, hrow', hdeleting, hidle, hafter⟩

/-- A creation finds the row, and leaves it. -/
theorem staysDoomed_createWorkspace {kind : WorkspaceKind} {volumeName : String}
    (h : createWorkspace db workspaceId kind volumeName now = .ok (db', row')) :
    StaysDoomed workspaceId db db' := by
  refine ⟨?_⟩
  rintro deleteAfter ⟨row, hrow, hdoomed⟩
  rw [createWorkspace, hrow] at h
  dsimp only at h
  split_ifs at h
  obtain ⟨rfl, -⟩ := Prod.mk.inj (Except.ok.inj h)
  exact ⟨row, hrow, hdoomed⟩

/-- **A Workspace that is being deleted cannot be claimed.** -/
theorem Doomed.not_claimed {deleteAfter : Option ℤ} (h : Doomed workspaceId deleteAfter db)
    (sandboxId workerHost containerName : String) (createdAt expiresAt : ℤ)
    (r : Tables × WorkspaceRecord × SandboxRecord) :
    claimWorkspace db workspaceId sandboxId workerHost containerName createdAt expiresAt ≠
      .ok r := by
  obtain ⟨row, hrow, hdeleting, -⟩ := h
  intro hclaim
  obtain ⟨db', row', sandbox⟩ := r
  obtain ⟨r, hr, -, hmountable, -⟩ := claimWorkspace_ok hclaim
  obtain rfl := Option.some.inj (hrow.symm.trans hr)
  rw [hdeleting] at hmountable
  cases hmountable

end Doomed

/-! ## The coroutines of the backend -/

section Backend

variable {cfg : Settings} {s s' : Host} {turn : Turn}

/-- The end of a preparation saves no Workspace that is being deleted. -/
theorem staysDoomed_prepareReturn (s : Host) (caller : Caller) :
    StaysDoomed cfg.workspaceId s.db (prepareReturn cfg s caller).1.db := by
  cases caller <;> exact .refl s.db

/-- The failure of a preparation saves none. -/
theorem staysDoomed_prepareRaise (s : Host) (error : String) (now : ℤ) (caller : Caller) :
    StaysDoomed cfg.workspaceId s.db (prepareRaise s error now caller).1.db := by
  cases caller with
  | create sandboxId => exact .refl s.db
  | restoreRequested operationId => exact staysDoomed_endOperation ..

/-- A preparation by a restore saves none. -/
theorem staysDoomed_prepareRemote (s : Host) (caller : Caller) (current : WorkspaceRecord)
    (now : ℤ) : StaysDoomed cfg.workspaceId s.db (prepareRemote cfg s caller current now).1.db := by
  rw [prepareRemote]
  split
  · split
    · exact .refl s.db
    · exact staysDoomed_prepareRaise s _ now caller
  · exact staysDoomed_prepareRaise s _ now caller

/-- The decision of a preparation saves none, whatever row it has read. -/
theorem staysDoomed_prepareDecide (s : Host) (caller : Caller) (current : WorkspaceRecord)
    (volumeExists : Bool) (now : ℤ) : StaysDoomed cfg.workspaceId s.db
      (prepareDecide cfg s caller current volumeExists now).1.db := by
  rw [prepareDecide]
  split_ifs
  · split
    · exact staysDoomed_prepareRaise s _ now caller
    · rename_i db row htransition
      exact (staysDoomed_transition (by decide) htransition).trans
        (staysDoomed_prepareRemote { s with db := db } caller row now)
  · exact staysDoomed_prepareRaise s _ now caller
  · exact .refl s.db
  · exact staysDoomed_prepareReturn s caller
  · exact staysDoomed_prepareRemote s caller current now

/-- A restore that begins saves none. -/
theorem staysDoomed_restoreBegin (s : Host) (caller : Caller) (revisionId : String) (turn : Turn) :
    StaysDoomed cfg.workspaceId s.db (restoreBegin cfg s caller revisionId turn).1.db := by
  simp only [restoreBegin]
  split
  · exact staysDoomed_prepareRaise s _ turn.now caller
  · rename_i db operation created hcreate
    have hcreated : StaysDoomed cfg.workspaceId s.db db :=
      staysDoomed_of_workspaces (createOperation_frame hcreate).1
    split
    · exact hcreated
    · rename_i db' row htransition
      have hmoved := hcreated.trans (staysDoomed_transition (by decide) htransition)
      split
      · exact hmoved
      · rename_i db'' hupdate
        exact hmoved.trans (staysDoomed_of_workspaces (updateOperation_frame hupdate).1)

/-- A restore that runs saves none. -/
theorem staysDoomed_restoreRun (s : Host) (caller : Caller) (operationId revisionId : String)
    (turn : Turn) : StaysDoomed cfg.workspaceId s.db
      (restoreRun s caller operationId revisionId turn).db := by
  have hdb : (restoreRun s caller operationId revisionId turn).db = s.db := by
    rw [restoreRun]
    split
    · rfl
    · split
      · rfl
      · cases turn.written <;> rfl
  rw [hdb]
  exact .refl s.db

/-- A restore that has run saves none. -/
theorem staysDoomed_restoreDone (s : Host) (caller : Caller) (operationId revisionId : String)
    (now : ℤ) : StaysDoomed cfg.workspaceId s.db
      (restoreDone cfg s caller operationId revisionId now).1.db := by
  rw [restoreDone]
  split
  · exact .refl s.db
  · rename_i db hupdate
    have hupdated : StaysDoomed cfg.workspaceId s.db db :=
      staysDoomed_of_workspaces (updateOperation_frame hupdate).1
    split
    · exact hupdated
    · rename_i db' row htransition
      exact (hupdated.trans (staysDoomed_transition (by decide) htransition)).trans
        (staysDoomed_prepareReturn { s with db := db' } caller)

/-- A restore that fails saves none. -/
theorem staysDoomed_restoreFail (s : Host) (caller : Caller) (operationId error : String)
    (now : ℤ) : StaysDoomed cfg.workspaceId s.db
      (restoreFail cfg s caller operationId error now).1.db := by
  have hended : StaysDoomed cfg.workspaceId s.db (endOperation s.db operationId .failed none
      (some error) now) := staysDoomed_endOperation ..
  exact (hended.trans (staysDoomed_transitionOrKeep (by decide) .remoteOnly now)).trans
    (staysDoomed_prepareRaise { s with db := _ } _ now caller)

/-- A checkpoint that fails saves none. -/
theorem staysDoomed_checkpointFail (s : Host) (operationId error : String) (now : ℤ) :
    StaysDoomed cfg.workspaceId s.db (checkpointFail cfg s operationId error now).db :=
  (staysDoomed_endOperation operationId .failed none (some error) now).trans
    (staysDoomed_transitionOrKeep (by decide) .detachedDirty now)

/-- A checkpoint that begins saves none. -/
theorem staysDoomed_checkpointBegin (s : Host) (row : WorkspaceRecord) (turn : Turn) :
    StaysDoomed cfg.workspaceId s.db (checkpointBegin cfg s row turn).db := by
  rw [checkpointBegin]
  split
  · exact .refl s.db
  · split
    · exact .refl s.db
    · rename_i db operation created hcreate
      have hcreated : StaysDoomed cfg.workspaceId s.db db :=
        staysDoomed_of_workspaces (createOperation_frame hcreate).1
      split
      · exact hcreated
      · split
        · exact hcreated.trans (staysDoomed_checkpointFail { s with db := db } _ _ _)
        · rename_i db' row' htransition
          have hmoved := hcreated.trans (staysDoomed_transition (by decide) htransition)
          split
          · exact hmoved.trans (staysDoomed_checkpointFail { s with db := db' } _ _ _)
          · rename_i db'' hupdate
            exact hmoved.trans (staysDoomed_of_workspaces (updateOperation_frame hupdate).1)

/-- A checkpoint that is committed saves none. -/
theorem staysDoomed_checkpointDone (s : Host) (operationId : String) (generation : ℕ)
    (revisionId : String) (now : ℤ) : StaysDoomed cfg.workspaceId s.db
      (checkpointDone cfg s operationId generation revisionId now).db := by
  rw [checkpointDone]
  split
  · exact staysDoomed_checkpointFail s operationId _ now
  · rename_i db row hcommit
    exact staysDoomed_commit hcommit

/-- **No turn of the coroutine that holds the lock takes a Workspace out of `deleting`.** -/
theorem staysDoomed_criticalStep {c : Critical} {ts : List Task}
    (h : criticalStep cfg s turn c = some (s', ts)) :
    StaysDoomed cfg.workspaceId s.db s'.db := by
  have of_eq : ∀ r : Host × List Task, StaysDoomed cfg.workspaceId s.db r.1.db →
      some r = some (s', ts) → StaysDoomed cfg.workspaceId s.db s'.db := by
    intro r hr heq
    obtain rfl := Option.some.inj heq
    exact hr
  have hsame : StaysDoomed cfg.workspaceId s.db s.db := .refl s.db
  cases c with
  | prepareExists caller current =>
    simp only [criticalStep] at h
    split at h
    · exact of_eq _ hsame h
    · exact of_eq _ (staysDoomed_prepareRaise ..) h
  | prepareDecide caller current volumeExists => exact of_eq _ (staysDoomed_prepareDecide ..) h
  | prepareEnsure caller =>
    simp only [criticalStep] at h
    split at h
    · exact of_eq _ (staysDoomed_prepareReturn s.ensureVolume caller) h
    · exact of_eq _ (staysDoomed_prepareRaise ..) h
  | restoreExists caller r =>
    simp only [criticalStep] at h
    split_ifs at h
    · exact of_eq _ hsame h
    · exact of_eq _ hsame h
    · exact of_eq _ (staysDoomed_prepareRaise ..) h
  | restoreRemove caller r => exact of_eq _ hsame h
  | restoreEnsure caller r =>
    simp only [criticalStep] at h
    split at h
    · exact of_eq _ hsame h
    · exact of_eq _ (staysDoomed_prepareRaise ..) h
  | restoreBegin caller r => exact of_eq _ (staysDoomed_restoreBegin ..) h
  | restoreRun caller operationId r => exact of_eq _ (staysDoomed_restoreRun ..) h
  | restoreDone caller operationId r => exact of_eq _ (staysDoomed_restoreDone ..) h
  | restoreUndo caller operationId error => exact of_eq _ hsame h
  | restoreFail caller operationId error => exact of_eq _ (staysDoomed_restoreFail ..) h
  | checkpointRun operationId generation =>
    obtain ⟨m, hm, hr⟩ := Option.map_eq_some_iff.mp h
    obtain ⟨rfl, -⟩ := Prod.mk.inj hr
    rw [checkpointRun] at hm
    split_ifs at hm
    all_goals
      obtain rfl := Option.some.inj hm
      exact hsame
  | checkpointDone operationId generation r => exact of_eq _ (staysDoomed_checkpointDone ..) h
  | checkpointFail operationId error => exact of_eq _ (staysDoomed_checkpointFail ..) h
  | cleanupRemove =>
    simp only [criticalStep] at h
    split at h
    · exact of_eq _ hsame h
    · exact of_eq _ hsame h
  | cleanupRemoved =>
    exact of_eq _ (staysDoomed_transitionOrKeep (by decide) .remoteOnly turn.now) h

/-- What the lock is taken for saves none. -/
theorem staysDoomed_takeLock {begin : WorkspaceRecord → Host}
    (hbegin : ∀ row, StaysDoomed cfg.workspaceId s.db (begin row).db)
    (h : takeLock cfg s begin = some s') : StaysDoomed cfg.workspaceId s.db s'.db := by
  rw [takeLock] at h
  split_ifs at h
  split at h
  · obtain rfl := Option.some.inj h
    exact .refl s.db
  · obtain rfl := Option.some.inj h
    exact hbegin _

/-- …and no turn of the others. -/
theorem staysDoomed_taskStep {t t' : Task} (h : taskStep cfg s turn t = some (s', t')) :
    StaysDoomed cfg.workspaceId s.db s'.db := by
  have of_eq : ∀ r : Host × Task, StaysDoomed cfg.workspaceId s.db r.1.db →
      some r = some (s', t') → StaysDoomed cfg.workspaceId s.db s'.db := by
    intro r hr heq
    obtain rfl := Option.some.inj heq
    exact hr
  have of_lock : ∀ begin : WorkspaceRecord → Host,
      (∀ row, StaysDoomed cfg.workspaceId s.db (begin row).db) →
      ((takeLock cfg s begin).map fun s' => (s', Task.finished)) = some (s', t') →
        StaysDoomed cfg.workspaceId s.db s'.db := by
    intro begin hbegin heq
    obtain ⟨m, hm, heq⟩ := Option.map_eq_some_iff.mp heq
    obtain ⟨rfl, -⟩ := Prod.mk.inj heq
    exact staysDoomed_takeLock hbegin hm
  have hsame : StaysDoomed cfg.workspaceId s.db s.db := .refl s.db
  cases t with
  | createLock sandboxId =>
    exact of_lock (fun row => s.hold (.prepareExists (.create sandboxId) row)) (fun _ => hsame) h
  | restoreLock operationId =>
    exact of_lock (fun row => s.hold (.prepareExists (.restoreRequested operationId) row))
      (fun _ => hsame) h
  | checkpointLock => exact of_lock _ (fun row => staysDoomed_checkpointBegin s row turn) h
  | cleanupLock =>
    refine of_lock _ (fun row => ?_) h
    rw [cleanupBegin]
    split
    · exact hsame
    · exact hsame
  | createPrepare sandboxId =>
    simp only [taskStep] at h
    split at h
    · exact of_eq _ hsame h
    · refine of_eq _ ?_ h
      cases turn.written <;> exact hsame
  | createClaim sandboxId =>
    simp only [taskStep] at h
    split at h
    · exact of_eq _ hsame h
    · rename_i db row sandbox hclaim
      exact of_eq _ (staysDoomed_claim hclaim) h
  | createContainer sandboxId =>
    simp only [taskStep] at h
    split at h
    · exact of_eq _ hsame h
    · exact of_eq _ hsame h
  | createStart sandboxId => exact of_eq _ hsame h
  | createStarted sandboxId =>
    simp only [taskStep] at h
    split at h
    · exact of_eq _ hsame h
    · rename_i db hmark
      exact of_eq _ (staysDoomed_markSandboxRunning hmark) h
  | createRemove sandboxId =>
    simp only [taskStep] at h
    split at h
    · exact of_eq _ hsame h
    · exact of_eq _ hsame h
  | createFailed sandboxId => exact of_eq _ (staysDoomed_endSandbox ..) h
  | terminateRemove sandboxId =>
    simp only [taskStep] at h
    split at h
    · exact of_eq _ hsame h
    · exact of_eq _ hsame h
  | terminateRemoved sandboxId => exact of_eq _ (staysDoomed_endSandbox ..) h
  | restoreRequested operationId =>
    simp only [taskStep] at h
    split at h
    · exact of_eq _ (staysDoomed_endOperation ..) h
    · split_ifs at h
      · exact of_eq _ (staysDoomed_endOperation ..) h
      · exact of_eq _ (staysDoomed_endOperation ..) h
      · exact of_eq _ hsame h
  | finished => simp [taskStep] at h

/-- Rows that are as they were stay doomed. -/
theorem SameRows.staysDoomed (h : SameRows s s') : StaysDoomed cfg.workspaceId s.db s'.db := by
  obtain ⟨db, rfl, hworkspaces, -⟩ := h
  exact staysDoomed_of_workspaces hworkspaces

/-- What comes from outside saves no Workspace that is being deleted. -/
theorem staysDoomed_eventStep {e : Event} {ts : List Task}
    (h : eventStep cfg s e = some (s', ts)) : StaysDoomed cfg.workspaceId s.db s'.db := by
  have of_same : some (s, ts) = some (s', ts) → StaysDoomed cfg.workspaceId s.db s'.db := by
    intro heq
    obtain ⟨rfl, -⟩ := Prod.mk.inj (Option.some.inj heq)
    exact .refl s.db
  cases e with
  | holder turn =>
    obtain ⟨c, -, hstep⟩ := Option.bind_eq_some_iff.mp h
    exact staysDoomed_criticalStep hstep
  | create sandboxId =>
    obtain ⟨rfl, -⟩ := Prod.mk.inj (Option.some.inj h)
    exact .refl s.db
  | terminate sandboxId | checkpoint | cleanup =>
    simp only [eventStep] at h
    split at h
    · obtain ⟨rfl, -⟩ := Prod.mk.inj (Option.some.inj h)
      exact .refl s.db
    · cases h
  | requestCheckpoint turn =>
    simp only [eventStep] at h
    split at h
    · obtain ⟨r, -, hr⟩ := Option.bind_eq_some_iff.mp h
      exact (requestCheckpoint_rows hr).staysDoomed
    · cases h
  | requestRestore turn =>
    simp only [eventStep] at h
    split at h
    · obtain ⟨r, -, hr⟩ := Option.bind_eq_some_iff.mp h
      exact (requestRestore_rows hr).staysDoomed
    · cases h
  | ensureVolume =>
    obtain ⟨rfl, -⟩ := Prod.mk.inj (Option.some.inj h)
    exact .refl s.db
  | agentWrite changes =>
    obtain ⟨r, -, hr⟩ := Option.bind_eq_some_iff.mp h
    split at hr
    · obtain ⟨content, -, hr⟩ := Option.map_eq_some_iff.mp hr
      obtain ⟨rfl, -⟩ := Prod.mk.inj hr
      exact .refl s.db
    · cases hr

end Backend

/-! ## Every run -/

section Runs

variable {cfg : RetireSettings} {s s' : Retirement}

/-- A release takes effect while no retire is about to delete something. -/
def ReleaseInTime (s : Retirement) (t : RetireTask) (_ : Turn) : Prop :=
  match t with
  | .releaseRemoved _ => s.deleting = false
  | _ => True

instance (s : Retirement) (t : RetireTask) (turn : Turn) : Decidable (ReleaseInTime s t turn) := by
  unfold ReleaseInTime
  split <;> infer_instance

/-- A release comes before the retire has started to delete. -/
def RequestInTime (s : Retirement) : RetireEvent → Prop
  | .release => s.deleting = false
  | _ => True

instance (s : Retirement) (e : RetireEvent) : Decidable (RequestInTime s e) := by
  unfold RequestInTime
  split <;> infer_instance

/-- The time of the Workspace has come, and it is out of reach. -/
def Due (cfg : RetireSettings) (s : Retirement) : Prop :=
  ∃ after ≤ s.clock, Doomed cfg.workspaceId (some after) s.host.db

/-- What is deleted is due. -/
structure Sound (cfg : RetireSettings) (s : Retirement) : Prop where
  due : s.deleting = true → Due cfg s
  doomed : s.deleted = true → ∃ after, Doomed cfg.workspaceId after s.host.db

/-- What is due is sound. -/
theorem Due.sound (h : Due cfg s) : Sound cfg s := by
  refine ⟨fun _ => h, fun _ => ?_⟩
  obtain ⟨after, -, hdoomed⟩ := h
  exact ⟨some after, hdoomed⟩

/-- A Workspace that is due stays so as long as its row does. -/
theorem Due.stays (h : Due cfg s) (hclock : s'.clock = s.clock)
    (hstays : StaysDoomed cfg.workspaceId s.host.db s'.host.db) : Due cfg s' := by
  obtain ⟨after, hle, hdoomed⟩ := h
  exact ⟨after, hclock ▸ hle, hstays.keeps _ hdoomed⟩

/-- The tables of the Workspaces and the clock alone decide. -/
theorem Due.congr (h : Due cfg s) (hclock : s'.clock = s.clock)
    (hworkspaces : s'.host.db.workspaces = s.host.db.workspaces) : Sound cfg s' :=
  (h.stays hclock (staysDoomed_of_workspaces hworkspaces)).sound

/-- What the others do to the tables. -/
theorem Sound.stays (h : Sound cfg s) {host : Host}
    (hstays : StaysDoomed cfg.workspaceId s.host.db host.db) :
    Sound cfg { s with host := host } := by
  refine ⟨fun hdeleting => (h.due hdeleting).stays rfl hstays, fun hdeleted => ?_⟩
  obtain ⟨after, hdoomed⟩ := h.doomed hdeleted
  exact ⟨after, hstays.keeps _ hdoomed⟩

/-- A retire that is given up leaves a sound Workspace. -/
theorem Sound.giveUp (h : Sound cfg s) (operationId error : String) :
    Sound cfg (s.giveUp operationId error) := by
  have hstays : Sound cfg (s.setDb (endOperation s.host.db operationId .failed none (some error)
      s.clock)) := h.stays (staysDoomed_endOperation ..)
  exact ⟨fun hdeleting => absurd hdeleting Bool.false_ne_true, hstays.doomed⟩

/-- A release before the deletion schedules it. -/
theorem Sound.scheduleDelete (h : Sound cfg s) (hidle : s.deleting = false) :
    Sound cfg (scheduleDelete cfg s) := by
  rw [Manager.scheduleDelete]
  split
  · exact h
  · rename_i db row hschedule
    refine ⟨fun hdeleting => absurd (hidle.symm.trans hdeleting) Bool.false_ne_true,
      fun hdeleted => ?_⟩
    obtain ⟨after, r, hr, hdeleting, hactive, -⟩ := h.doomed hdeleted
    rw [scheduleWorkspaceDelete, hr] at hschedule
    dsimp only at hschedule
    split_ifs at hschedule
    obtain ⟨rfl, -⟩ := Prod.mk.inj (Except.ok.inj hschedule)
    exact ⟨_, _, Db.putWorkspace_workspaces .., hdeleting, hactive, rfl⟩

/-- A retire that is recorded leaves a sound Workspace. -/
theorem Due.recordRetired (h : Due cfg s) (operationId : String) (objects : ℕ) :
    Sound cfg (recordRetired s operationId objects) := by
  rw [Manager.recordRetired]
  split
  · exact h.sound.giveUp operationId _
  · rename_i db hupdate
    exact h.congr rfl (updateOperation_frame hupdate).1

/-- **The check and the move to `deleting` are one step.** -/
theorem Sound.retireBegin (h : Sound cfg s) (token : String) :
    Sound cfg (retireBegin cfg s token) := by
  rw [Manager.retireBegin]
  split
  · exact h
  · rename_i row hget
    split
    · exact h
    · rename_i hdue
      simp only [Bool.not_eq_false, retireDue, Bool.and_eq_true, Option.any_eq_true,
        decide_eq_true_eq, Option.isNone_iff_eq_none] at hdue
      obtain ⟨⟨⟨after, hafter, hle⟩, hactive⟩, -⟩ := hdue
      have hrow : s.host.db.workspaces cfg.workspaceId = some row := by
        rw [getWorkspace] at hget
        split at hget
        · cases hget
        · rename_i r hr
          exact hr.trans (congrArg some (Except.ok.inj hget))
      dsimp only
      split
      · exact h
      · rename_i db operation created hcreate
        have hworkspaces := (createOperation_frame hcreate).1
        have hcreated : Sound cfg (s.setDb db) := h.stays (staysDoomed_of_workspaces hworkspaces)
        split
        · exact hcreated.giveUp operation.id _
        · rename_i db' row' hmoved
          have hdoomed : Due cfg (s.setDb db') := by
            split at hmoved
            · rename_i hdeleting
              obtain ⟨rfl, rfl⟩ := Prod.mk.inj (Except.ok.inj hmoved)
              exact ⟨after, hle, row, (congrFun hworkspaces _).trans hrow, hdeleting, hactive,
                hafter⟩
            · obtain ⟨r, hr, -, -, rfl, rfl⟩ := transitionWorkspace_ok hmoved
              obtain rfl := Option.some.inj
                (hrow.symm.trans ((congrFun hworkspaces _).symm.trans hr))
              exact ⟨after, hle, _, Db.putWorkspace_workspaces .., rfl, hactive, hafter⟩
          split
          · exact hdoomed.sound.giveUp operation.id _
          · rename_i db'' hupdate
            have hupdated : Due cfg (s.setDb db'') :=
              hdoomed.stays rfl (staysDoomed_of_workspaces (updateOperation_frame hupdate).1)
            split
            · exact Due.sound hupdated
            · exact hupdated.recordRetired operation.id 0

/-- **A step of the retire** deletes nothing that is not due. -/
theorem Sound.retireStep (h : Sound cfg s) {stage : RetireStage} (hstage : s.retiring = some stage)
    (turn : RetireTurn) : Sound cfg (retireStep cfg s turn stage) := by
  have hdue (hdeletes : stage.deletes = true) : Due cfg s :=
    h.due (by rw [Retirement.deleting, hstage]; exact hdeletes)
  cases stage with
  | repository operationId =>
    rw [Manager.retireStep]
    split
    · exact (hdue rfl).congr rfl rfl
    · exact (hdue rfl).congr rfl rfl
  | repositoryDeleted operationId objects => exact (hdue rfl).recordRetired operationId objects
  | volume operationId =>
    rw [Manager.retireStep]
    split
    · exact (hdue rfl).congr rfl rfl
    · exact (hdue rfl).congr rfl rfl
  | rows operationId =>
    rw [Manager.retireStep]
    split
    · exact h.giveUp operationId _
    · exact ⟨fun hdeleting => absurd hdeleting Bool.false_ne_true,
        fun hdeleted => absurd hdeleted Bool.false_ne_true⟩
  | failed operationId error => exact h.giveUp operationId error

/-- A step of a task deletes nothing that is not due, where its release comes in time. -/
theorem Sound.taskStep (h : Sound cfg s) {t t' : RetireTask} {turn : Turn}
    (hcond : ReleaseInTime s t turn) (hstep : retireTaskStep cfg s turn t = some (s', t')) :
    Sound cfg s' := by
  cases t with
  | backend t =>
    rw [retireTaskStep] at hstep
    split at hstep
    · cases hstep
    · obtain ⟨r, hr, heq⟩ := Option.map_eq_some_iff.mp hstep
      obtain ⟨rfl, -⟩ := Prod.mk.inj heq
      exact h.stays (staysDoomed_taskStep hr)
  | releaseRemove sandboxId =>
    obtain ⟨r, hr, heq⟩ := Option.map_eq_some_iff.mp hstep
    obtain ⟨rfl, -⟩ := Prod.mk.inj heq
    exact h.stays (staysDoomed_taskStep hr)
  | releaseRemoved sandboxId =>
    rw [retireTaskStep] at hstep
    obtain ⟨r, hr, heq⟩ := Option.map_eq_some_iff.mp hstep
    obtain ⟨rfl, -⟩ := Prod.mk.inj heq
    exact (h.stays (staysDoomed_taskStep hr)).scheduleDelete hcond
  | retireLock =>
    rw [retireTaskStep] at hstep
    split at hstep
    · cases hstep
    · obtain ⟨rfl, -⟩ := Prod.mk.inj (Option.some.inj hstep)
      exact h.retireBegin turn.text

/-- What comes from outside deletes nothing, where a release comes in time. -/
theorem Sound.eventStep (h : Sound cfg s) {e : RetireEvent} {ts : List RetireTask}
    (hcond : RequestInTime s e) (hstep : retireEventStep cfg s e = some (s', ts)) :
    Sound cfg s' := by
  cases e with
  | backend e =>
    obtain ⟨r, hr, heq⟩ := Option.map_eq_some_iff.mp hstep
    obtain ⟨rfl, -⟩ := Prod.mk.inj heq
    exact h.stays (staysDoomed_eventStep hr)
  | createWorkspace volumeName =>
    rw [retireEventStep] at hstep
    split at hstep
    · cases hstep
    · rename_i db row hcreate
      obtain ⟨rfl, -⟩ := Prod.mk.inj (Option.some.inj hstep)
      exact h.stays (staysDoomed_createWorkspace hcreate)
  | release =>
    rw [retireEventStep] at hstep
    split at hstep
    · cases hstep
    · split at hstep
      · obtain ⟨rfl, -⟩ := Prod.mk.inj (Option.some.inj hstep)
        exact h.scheduleDelete hcond
      · split at hstep
        · obtain ⟨rfl, -⟩ := Prod.mk.inj (Option.some.inj hstep)
          exact h
        · cases hstep
  | retire =>
    obtain ⟨row, -, hr⟩ := Option.bind_eq_some_iff.mp hstep
    split at hr
    · obtain ⟨rfl, -⟩ := Prod.mk.inj (Option.some.inj hr)
      exact h
    · cases hr
  | retirer turn =>
    obtain ⟨stage, hstage, heq⟩ := Option.map_eq_some_iff.mp hstep
    obtain ⟨rfl, -⟩ := Prod.mk.inj heq
    exact h.retireStep hstage turn
  | tick now =>
    rw [retireEventStep] at hstep
    split at hstep
    · rename_i hle
      obtain ⟨rfl, -⟩ := Prod.mk.inj (Option.some.inj hstep)
      refine ⟨fun hdeleting => ?_, h.doomed⟩
      obtain ⟨after, hafter, hdoomed⟩ := h.due hdeleting
      exact ⟨after, Int.le_trans hafter hle, hdoomed⟩
    · cases hstep

/-- **The invariant of the retire**: what the shared state keeps in every run whose releases come in
time. -/
theorem retirement_certificate (cfg : RetireSettings) :
    Pool.Certificate (retirement cfg) ReleaseInTime RequestInTime (Sound cfg) (fun _ _ => True)
      fun _ _ => True where
  act := fun _ _ _ _ _ hcond hs _ h => ⟨hs.taskStep hcond h, trivial, trivial⟩
  env := fun _ _ _ _ hcond hs h => ⟨hs.eventStep hcond h, fun _ _ => trivial, trivial⟩
  stable := fun _ _ _ _ _ _ _ => trivial

/-- **In every run whose releases come in time, a retire deletes only what is due, and no claim
succeeds from its first deletion until the row is gone.** -/
theorem retire_safe (cfg : RetireSettings) (clock : ℤ)
    (as : List (Pool.Action Turn RetireEvent)) (w : Pool Retirement RetireTask)
    (hmeets : Machine.Meets (Pool.step (retirement cfg))
      (Pool.stepCond ReleaseInTime RequestInTime) (Retirement.init clock) as)
    (hrun : Machine.run (Pool.step (retirement cfg)) (Retirement.init clock) as = some w) :
    (w.shared.deleting = true → ∃ row after,
      w.shared.host.db.workspaces cfg.workspaceId = some row ∧ row.activeSandboxId = none ∧
        row.deleteAfter = some after ∧ after ≤ w.shared.clock) ∧
    (w.shared.deleting = true ∨ w.shared.deleted = true →
      ∀ sandboxId workerHost containerName createdAt expiresAt r,
        claimWorkspace w.shared.host.db cfg.workspaceId sandboxId workerHost containerName createdAt
          expiresAt ≠ .ok r) := by
  have hinit : Pool.Holds (Sound cfg) (fun _ _ => True) (Retirement.init clock) :=
    ⟨⟨fun h => absurd h Bool.false_ne_true, fun h => absurd h Bool.false_ne_true⟩,
      fun _ _ => trivial⟩
  have hsound := ((retirement_certificate cfg).run hmeets hrun hinit).shared
  refine ⟨fun hdeleting => ?_, fun hat => ?_⟩
  · obtain ⟨after, hle, row, hrow, -, hactive, hafter⟩ := hsound.due hdeleting
    exact ⟨row, after, hrow, hactive, hafter, hle⟩
  · obtain ⟨after, hdoomed⟩ : ∃ after, Doomed cfg.workspaceId after w.shared.host.db := by
      rcases hat with hdeleting | hdeleted
      · obtain ⟨after, -, hdoomed⟩ := hsound.due hdeleting
        exact ⟨some after, hdoomed⟩
      · exact hsound.doomed hdeleted
    exact hdoomed.not_claimed

end Runs

/-! ## A release that comes while the repository is deleted -/

/-- Settings with a grace period of a minute. -/
def sampleRetireSettings : RetireSettings := ⟨sampleSettings, 60⟩

/-- A step of the backend beside the retires. -/
def beside : Pool.Action Turn Event → Pool.Action Turn RetireEvent
  | .task i turn => .task i turn
  | .env e => .env (.backend e)

/-- The Workspace has a head, is released, and its retire has the lock. -/
def sampleRetire : List (Pool.Action Turn RetireEvent) :=
  .env (.createWorkspace "agent-workspace-1") :: firstSession.map beside ++
    [.env .release, .env (.tick 60), .env .retire, .task 3 (succeeds "2" 60)]

/-- A retire deletes the repository once the grace period is over. -/
theorem retire_safe_repository : ∃ w : Pool Retirement RetireTask,
    Machine.run (Pool.step (retirement sampleRetireSettings)) (Retirement.init 0)
      (sampleRetire ++ [.env (.retirer ⟨true, 4, [], ""⟩)]) = some w ∧
    (w.shared.deleting = true ∧ w.shared.deleted = true) ∧
    ∀ sandboxId workerHost containerName createdAt expiresAt r,
      claimWorkspace w.shared.host.db "workspace_1" sandboxId workerHost containerName createdAt
        expiresAt ≠ .ok r := by
  obtain ⟨w, hw, htest⟩ := (Option.any_eq_true _ _).mp
    (show (Machine.run (Pool.step (retirement sampleRetireSettings)) (Retirement.init 0)
      (sampleRetire ++ [.env (.retirer ⟨true, 4, [], ""⟩)])).any
        (fun w => w.shared.deleting && w.shared.deleted) = true by decide +kernel)
  have hflags : w.shared.deleting = true ∧ w.shared.deleted = true := by simpa using htest
  exact ⟨w, hw, hflags,
    (retire_safe sampleRetireSettings 0 _ w (by decide +kernel) hw).2 (.inl hflags.1)⟩

/-- **A release puts `delete_after` back into the future while the repository is being deleted.** -/
theorem retire_released : ¬ ∀ (cfg : RetireSettings) (clock : ℤ)
    (as : List (Pool.Action Turn RetireEvent)) (w : Pool Retirement RetireTask),
    Machine.run (Pool.step (retirement cfg)) (Retirement.init clock) as = some w →
      w.shared.deleting = true → ∃ row after,
        w.shared.host.db.workspaces cfg.workspaceId = some row ∧ row.activeSandboxId = none ∧
          row.deleteAfter = some after ∧ after ≤ w.shared.clock := by
  intro h
  obtain ⟨w, hw, htest⟩ := (Option.any_eq_true _ _).mp
    (show (Machine.run (Pool.step (retirement sampleRetireSettings)) (Retirement.init 0)
      (sampleRetire ++ [.env .release])).any
        (fun w => w.shared.deleting && ((w.shared.host.db.workspaces "workspace_1").bind
          (·.deleteAfter) == some 120) && w.shared.clock == 60) = true by decide +kernel)
  simp only [Bool.and_eq_true, beq_iff_eq] at htest
  obtain ⟨⟨hdeleting, hlater⟩, hclock⟩ := htest
  obtain ⟨row, after, hrow, -, hafter, hle⟩ := h sampleRetireSettings 0 _ w hw hdeleting
  have hid : w.shared.host.db.workspaces "workspace_1" = some row := hrow
  rw [hid, Option.bind_some, hafter] at hlater
  obtain rfl := Option.some.inj hlater
  rw [hclock] at hle
  exact absurd hle (by decide)

end CodexGateway.Manager
