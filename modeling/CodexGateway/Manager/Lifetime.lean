import CodexGateway.Manager.Retiring

/-!
# Manager/Lifetime — a Workspace through crashes and restarts

`Life` is a Workspace under one Manager process after the other.  A crash ends all coroutines, and
what they held in memory, wherever they wait; the volume, the snapshots and the tables stay, but the
call that the holder of the lock was waiting for may still take effect.  A startup goes through its
stages one transaction at a time, and may crash as well.

While the Workspace is dirty, the operation that saves its generation has not succeeded
(`dirty_not_saved`).
-/

namespace CodexGateway.Manager

/-- How far a startup is. -/
inductive BootStage where
  /-- `_reconcile_managed_containers` -/
  | reconcile
  /-- `_recover_incomplete_operations`, down to the last operation -/
  | operations
  | checkpointing
  | restoring
  | restored
deriving DecidableEq

/-- The Manager of a Workspace over its restarts. -/
structure Life where
  pool : Pool Retirement RetireTask
  booting : Option BootStage

/-- A step of the process, or what ends and starts one. -/
inductive LifeAction where
  /-- a step of the coroutines or an event -/
  | serve (a : Pool.Action Turn RetireEvent)
  /-- The process ends.  `taken` is whether the volume still goes that was being removed, `kept` the
  revisions that are left of a repository that was being deleted. -/
  | crash (taken : Bool) (kept : List String)
  /-- a container of the last process writes to the volume -/
  | write (changes : Content)
  /-- a turn of the startup -/
  | boot (turn : Turn)

/-- The holder of the lock waits for a volume to be removed. -/
def Critical.removes : Critical → Bool
  | .restoreRemove _ _ | .restoreUndo _ _ _ | .cleanupRemove => true
  | _ => false

variable (cfg : RetireSettings)

/-- What is left of a Workspace when the process ends. -/
def Retirement.crash (s : Retirement) (taken : Bool) (kept : List String) : Retirement where
  host :=
    { db := s.host.db
      volume :=
        if taken && (s.host.holder.any (·.removes) ||
            s.retiring.any fun stage => stage matches .volume _) then none
        else s.host.volume
      snapshots :=
        if s.retiring.any fun stage => stage matches .repository _ then
          fun revisionId => if revisionId ∈ kept then s.host.snapshots revisionId else none
        else s.host.snapshots
      records := []
      holder := none }
  retiring := none
  clock := s.clock
  deleted := s.deleted

/-- The startup finds the Sandbox of the Workspace.  It is kept, or it is finished. -/
def bootSandbox (s : Retirement) (sandboxId : String) (turn : Turn) : Option Retirement :=
  if turn.ok then
    (s.host.db.sandboxes sandboxId).bind fun sandbox =>
      (ensureRunning turn.now s.host.db sandboxId sandbox).map fun db =>
        { s with host := { s.host with db := db, records := [sandboxId] } }
  else some (s.setDb (endSandbox s.host.db sandboxId .failed turn.now))

/-- A turn of the startup, and the next stage of it. -/
def bootStep (s : Retirement) (turn : Turn) : BootStage → Option (Retirement × Option BootStage)
  | .reconcile =>
    match (s.host.db.workspaces cfg.workspaceId).bind (·.activeSandboxId) with
    | none => some (s, some .operations)
    | some sandboxId => (bootSandbox s sandboxId turn).map fun s => (s, some .operations)
  | .operations =>
    match incompleteOperations s.host.db with
    | [] => some (s, some .checkpointing)
    | operation :: _ =>
      (failOperation turn.now (fun _ => false) s.host.db operation).map fun db =>
        (s.setDb db, some .operations)
  | .checkpointing =>
    let db := transitionOrKeep cfg.toSettings s.host.db [.checkpointing] .detachedDirty turn.now
    some (s.setDb db, some .restoring)
  | .restoring =>
    if (s.host.db.workspaces cfg.workspaceId).any (·.status = .restoring) then
      some ({ s with host := s.host.removeVolume turn.ok }, some .restored)
    else some (s, none)
  | .restored =>
    let db := transitionOrKeep cfg.toSettings s.host.db [.restoring] .remoteOnly turn.now
    some (s.setDb db, none)

/-- The Workspace has a container while it is started: before the reconciliation any, then only
that of its Sandbox. -/
def Life.mounted (w : Life) : Bool :=
  w.booting = some .reconcile || w.booting.isSome &&
    (w.pool.shared.host.db.workspaces cfg.workspaceId).any (·.status = .running)

/-- What an action does, where it can happen. -/
def Life.step (w : Life) : LifeAction → Option Life
  | .serve a =>
    if w.booting = none then (Pool.step (retirement cfg) w.pool a).map fun pool => ⟨pool, none⟩
    else none
  | .crash taken kept => some ⟨⟨w.pool.shared.crash taken kept, []⟩, some .reconcile⟩
  | .write changes =>
    if w.mounted cfg then
      let s := w.pool.shared
      some { w with pool := ⟨{ s with host := s.host.write changes }, w.pool.tasks⟩ }
    else none
  | .boot turn => w.booting.bind fun stage =>
    (bootStep cfg w.pool.shared turn stage).map fun (s, booting) => ⟨⟨s, w.pool.tasks⟩, booting⟩

/-- The Manager before its first step. -/
def Life.init (clock : ℤ) : Life := ⟨Retirement.init clock, none⟩

/-! ## The invariant -/

/-- **The invariant of a Workspace**: that of its steps, and nothing is held during a startup. -/
structure LifeOk (workspaceId : String) (w : Life) : Prop where
  served : RetirementOk workspaceId w.pool.shared
  alone : w.booting ≠ none →
    w.pool.shared.host.holder = none ∧ w.pool.shared.retiring = none ∧ w.pool.tasks = []

section Life

variable {cfg : RetireSettings} {ws : String} {s s' : Retirement} {w w' : Life} {turn : Turn}

/-- Nothing is held, so the ledger is all. -/
theorem retirementOk_of_ledger (hl : Ledger ws s.host.db) (hholder : s.host.holder = none)
    (hretiring : s.retiring = none) : RetirementOk ws s := by
  refine ⟨⟨hl, fun c hc => ?_⟩, fun stage hstage => ?_⟩
  · rw [hholder] at hc
    cases hc
  · rw [hretiring] at hstage
    cases hstage

theorem lifeOk_init (clock : ℤ) : LifeOk ws (Life.init clock) :=
  ⟨retirementOk_of_ledger ledger_empty rfl rfl, fun h => absurd rfl h⟩

/-- What a turn of the startup does to a Workspace that is held by nobody. -/
structure Boots (workspaceId : String) (s s' : Retirement) : Prop where
  ledger : Ledger workspaceId s'.host.db
  clean : Clean workspaceId s.host → Clean workspaceId s'.host
  holder : s'.host.holder = s.host.holder
  retiring : s'.retiring = s.retiring
  settles : ∀ o ∈ incompleteOperations s'.host.db, o ∈ incompleteOperations s.host.db
  restores : ∀ o' ∈ s'.host.db.operations, o'.status = .succeeded →
    ∃ o ∈ s.host.db.operations, o.status = .succeeded ∧ SameOp o o'

theorem Beside.boots {claims : Prop} (h : Beside ws claims s.host s'.host)
    (hsame : s'.host.db.operations = s.host.db.operations) (hretiring : s'.retiring = s.retiring) :
    Boots ws s s' where
  ledger := h.ledger
  clean := fun hc => hc.beside h
  holder := h.holder
  retiring := hretiring
  settles := fun o ho => by rwa [incompleteOperations, hsame] at ho
  restores := fun o' ho' hs => ⟨o', hsame ▸ ho', hs, .refl o'⟩

theorem ensureRunning_beside {host : Host} (hl : Ledger ws host.db) {now : ℤ} {sandboxId : String}
    {sandbox : SandboxRecord} {db : Tables}
    (h : ensureRunning now host.db sandboxId sandbox = some db) :
    Beside ws False host { host with db := db } ∧ db.operations = host.db.operations := by
  rw [ensureRunning] at h
  split_ifs at h
  · have hok := toOption_eq_some h
    exact ⟨markSandboxRunning_beside hl hok, markSandboxRunning_operations hok⟩
  · obtain rfl := Option.some.inj h
    exact ⟨.of_db hl rfl rfl (fun _ h => h) rfl rfl, rfl⟩

/-- A transition of a Workspace that is not clean, and does not get so. -/
theorem transitionOrKeep_boots (hl : Ledger cfg.workspaceId s.host.db)
    {expected : List WorkspaceStatus} {status : WorkspaceStatus} (hrunning : status ≠ .running)
    (hsaved : ∀ e ∈ expected, e.saved = true → status.saved = true)
    (hexpected : .running ∉ expected) (hclean : status ≠ .detachedClean) (now : ℤ) :
    Boots cfg.workspaceId s
      (s.setDb (transitionOrKeep cfg.toSettings s.host.db expected status now)) where
  ledger := hl.transitionOrKeep hrunning hsaved now
  clean := fun hc => by
    cases hrow : s.host.db.workspaces cfg.workspaceId with
    | none =>
      have hkept : transitionOrKeep cfg.toSettings s.host.db expected status now = s.host.db := by
        rw [transitionOrKeep, transitionWorkspace, hrow]
        rfl
      rw [hkept]
      exact hc
    | some row =>
      rcases transitionOrKeep_row hl hrow hexpected status now with ⟨-, hmoved⟩ | ⟨-, hkept⟩
      · exact clean_of_status (s := (s.setDb _).host) hmoved hclean
      · rw [hkept]
        exact hc
  holder := rfl
  retiring := rfl
  settles := fun o ho => by
    rwa [incompleteOperations, show (s.setDb (transitionOrKeep cfg.toSettings s.host.db expected
      status now)).host.db.operations = s.host.db.operations from
        transitionOrKeep_operations ..] at ho
  restores := fun o' ho' hs => by
    rw [show (s.setDb (transitionOrKeep cfg.toSettings s.host.db expected status now)).host.db.operations
      = s.host.db.operations from transitionOrKeep_operations ..] at ho'
    exact ⟨o', ho', hs, .refl o'⟩

/-- **A turn of the startup.** -/
theorem bootStep_boots (hl : Ledger cfg.workspaceId s.host.db) {stage : BootStage}
    {booting : Option BootStage} (h : bootStep cfg s turn stage = some (s', booting)) :
    Boots cfg.workspaceId s s' := by
  have hkeep : Boots cfg.workspaceId s s :=
    Beside.boots (show Beside cfg.workspaceId False s.host s.host from
      .of_db hl rfl rfl (fun _ h => h) rfl rfl) rfl rfl
  cases stage with
  | reconcile =>
    rw [bootStep] at h
    split at h
    · obtain ⟨rfl, -⟩ := Prod.mk.inj (Option.some.inj h)
      exact hkeep
    · rename_i sandboxId hactive
      obtain ⟨m, hm, heq⟩ := Option.map_eq_some_iff.mp h
      obtain ⟨rfl, -⟩ := Prod.mk.inj heq
      rw [bootSandbox] at hm
      split at hm
      · obtain ⟨sandbox, -, hs⟩ := Option.bind_eq_some_iff.mp hm
        obtain ⟨db, hdb, rfl⟩ := Option.map_eq_some_iff.mp hs
        obtain ⟨hb, hsame⟩ := ensureRunning_beside hl hdb
        have hb' : Beside cfg.workspaceId False s.host
            { s.host with db := db, records := [sandboxId] } := { hb with }
        exact hb'.boots hsame rfl
      · obtain rfl := Option.some.inj hm
        have hb : Beside cfg.workspaceId False s.host
            { s.host with db := endSandbox s.host.db sandboxId .failed turn.now } :=
          endSandbox_beside hl sandboxId .failed turn.now
        exact hb.boots (endSandbox_operations ..) rfl
  | operations =>
    rw [bootStep] at h
    split at h
    · obtain ⟨rfl, -⟩ := Prod.mk.inj (Option.some.inj h)
      exact hkeep
    · obtain ⟨db, hdb, heq⟩ := Option.map_eq_some_iff.mp h
      obtain ⟨rfl, -⟩ := Prod.mk.inj heq
      have hu := updateOperation_updated (toOption_eq_some hdb)
      have hb : Beside cfg.workspaceId False s.host { s.host with db := db } :=
        .of_updated hl hu fun he => by cases he
      refine ⟨hb.ledger, fun hc => hc.beside hb, rfl, rfl, fun o ho => ?_, fun o' ho' hs => ?_⟩
      · rcases hu.incomplete ho with ⟨hold, -⟩ | ⟨-, hfailed⟩
        · exact hold
        · cases hfailed
      · rcases hu.succeeded ho' hs with hold | ⟨-, hfailed⟩
        · exact hold
        · cases hfailed
  | checkpointing =>
    obtain ⟨rfl, -⟩ := Prod.mk.inj (Option.some.inj h)
    exact transitionOrKeep_boots hl (by decide) (by decide) (by decide) (by decide) turn.now
  | restoring =>
    rw [bootStep] at h
    split at h
    · rename_i hrestoring
      obtain ⟨rfl, -⟩ := Prod.mk.inj (Option.some.inj h)
      obtain ⟨row, hrow, hstatus⟩ := (Option.any_eq_true _ _).mp hrestoring
      refine ⟨hl, fun _ => clean_of_status (s := s.host.removeVolume turn.ok) hrow ?_, rfl, rfl,
        fun o ho => ho, fun o' ho' hs => ⟨o', ho', hs, .refl o'⟩⟩
      rw [of_decide_eq_true hstatus]
      decide
    · obtain ⟨rfl, -⟩ := Prod.mk.inj (Option.some.inj h)
      exact hkeep
  | restored =>
    obtain ⟨rfl, -⟩ := Prod.mk.inj (Option.some.inj h)
    exact transitionOrKeep_boots hl (by decide) (by decide) (by decide) (by decide) turn.now

/-- **Every step of a Workspace keeps the invariant.** -/
theorem LifeOk.step (h : LifeOk cfg.workspaceId w) {a : LifeAction}
    (hstep : w.step cfg a = some w') : LifeOk cfg.workspaceId w' := by
  cases a with
  | serve a =>
    rw [Life.step] at hstep
    split at hstep
    · obtain ⟨pool, hpool, rfl⟩ := Option.map_eq_some_iff.mp hstep
      refine ⟨?_, fun hne => absurd rfl hne⟩
      cases a with
      | task i turn =>
        obtain ⟨t, s, t', -, hact, rfl⟩ := Pool.step_task.mp hpool
        exact (retireTaskStep_serves h.served hact).ok
      | env e =>
        obtain ⟨s, ts, henv, rfl⟩ := Pool.step_env.mp hpool
        exact (retireEventStep_serves h.served henv).ok
    · cases hstep
  | crash taken kept =>
    obtain rfl := Option.some.inj hstep
    exact ⟨retirementOk_of_ledger h.served.host.ledger rfl rfl, fun _ => ⟨rfl, rfl, rfl⟩⟩
  | write changes =>
    rw [Life.step] at hstep
    split at hstep
    · obtain rfl := Option.some.inj hstep
      refine ⟨?_, h.alone⟩
      have hb : Beside cfg.workspaceId False w.pool.shared.host (w.pool.shared.host.write changes) :=
        .of_db h.served.host.ledger rfl rfl (fun _ hc => hc.write changes) rfl rfl
      exact h.served.beside hb rfl
    · cases hstep
  | boot turn =>
    obtain ⟨stage, hstage, hmap⟩ := Option.bind_eq_some_iff.mp hstep
    obtain ⟨r, hr, rfl⟩ := Option.map_eq_some_iff.mp hmap
    obtain ⟨hholder, hretiring, htasks⟩ := h.alone (by rw [hstage]; exact Option.some_ne_none _)
    have hb := bootStep_boots h.served.host.ledger hr
    exact ⟨retirementOk_of_ledger hb.ledger (hb.holder.trans hholder) (hb.retiring.trans hretiring),
      fun _ => ⟨hb.holder.trans hholder, hb.retiring.trans hretiring, htasks⟩⟩

theorem lifeOk_run {clock : ℤ} {as : List LifeAction}
    (hrun : Machine.run (Life.step cfg) (Life.init clock) as = some w) : LifeOk cfg.workspaceId w :=
  Machine.run_keeps (fun _ _ _ h hstep => h.step hstep) hrun (lifeOk_init clock)

end Life

/-! ## A dirty Workspace is never taken for a saved one -/

/-- **While a Workspace is dirty, the operation that saves its generation has not succeeded**, so a
checkpoint that finds or creates it goes on. -/
theorem dirty_not_saved (cfg : RetireSettings) (clock : ℤ) (as : List LifeAction) (w : Life)
    (hrun : Machine.run (Life.step cfg) (Life.init clock) as = some w) :
    ∀ row, w.pool.shared.host.db.workspaces cfg.workspaceId = some row →
      row.status = .detachedDirty →
      (∀ o ∈ w.pool.shared.host.db.operations,
        o.idempotencyKey = checkpointKey cfg.workspaceId row.generation → o.status ≠ .succeeded) ∧
      ∀ operationId now db o created, createOperation w.pool.shared.host.db operationId .checkpoint
        cfg.workspaceId none (checkpointKey cfg.workspaceId row.generation)
          (.generation row.generation) now = .ok (db, o, created) → o.status ≠ .succeeded := by
  intro row hrow hdirty
  have hl := (lifeOk_run hrun).served.host.ledger
  have hnone : ∀ o ∈ w.pool.shared.host.db.operations,
      o.idempotencyKey = checkpointKey cfg.workspaceId row.generation → o.status ≠ .succeeded := by
    intro o ho hkey hsucceeded
    have hsaved := hl.unsaved row hrow o ho hkey hsucceeded
    rw [hdirty] at hsaved
    cases hsaved
  refine ⟨hnone, fun operationId now db o created hcreate hsucceeded => ?_⟩
  have hmem := (createOperation_cases (k := .checkpoint row.generation) hcreate).2.1
  have hkeyed := (hl.create (k := .checkpoint row.generation) (fun g hg r hr => by
    obtain rfl := Option.some.inj (hrow.symm.trans hr)
    exact Nat.le_of_eq (OpKey.checkpoint.inj hg).symm) hcreate).2.1
  exact hnone o (created_succeeded (k := .checkpoint row.generation) hcreate hmem hsucceeded)
    hkeyed.key hsucceeded

/-- The Manager ends during the first checkpoint, and starts again. -/
def interruptedCheckpoint : List LifeAction :=
  .serve (.env (.createWorkspace "agent-workspace-1")) ::
    (firstSession.take 15).map (fun a => .serve (beside a)) ++
      .crash false [] :: List.replicate 5 (.boot (succeeds "" 20))

theorem dirty_not_saved_interrupted : ∃ w,
    Machine.run (Life.step sampleRetireSettings) (Life.init 0) interruptedCheckpoint = some w ∧
    ∃ row, w.pool.shared.host.db.workspaces "workspace_1" = some row ∧ row.status = .detachedDirty ∧
      ∃ o ∈ w.pool.shared.host.db.operations,
        o.idempotencyKey = checkpointKey "workspace_1" row.generation ∧ o.status ≠ .succeeded := by
  obtain ⟨w, hw, htest⟩ := (Option.any_eq_true _ _).mp
    (show (Machine.run (Life.step sampleRetireSettings) (Life.init 0) interruptedCheckpoint).any
      (fun w => (w.pool.shared.host.db.workspaces "workspace_1").any fun row =>
        row.status = .detachedDirty && w.pool.shared.host.db.operations.any fun o =>
          o.idempotencyKey = checkpointKey "workspace_1" row.generation) = true by decide +kernel)
  obtain ⟨row, hrow, hdirty⟩ := (Option.any_eq_true _ _).mp htest
  simp only [Bool.and_eq_true, decide_eq_true_eq, List.any_eq_true] at hdirty
  obtain ⟨hdirty, o, ho, hkey⟩ := hdirty
  exact ⟨w, hw, row, hrow, hdirty, o, ho, hkey,
    (dirty_not_saved sampleRetireSettings 0 interruptedCheckpoint w hw row hrow hdirty).1 o ho hkey⟩

end CodexGateway.Manager
