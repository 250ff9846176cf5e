import CodexGateway.Manager.Exclusive

/-!
# Manager/Settled — every operation that is left to do is driven

The record of a checkpoint or a restore is made by the request and ended by a coroutine that looks
at the Workspace again.  `Life.Driven` says that each record that is left to do has a coroutine that
is going to end it.  Two turns break it: a claim that comes before the checkpoint that was asked for,
and a requested restore that finds nothing to restore under the lock.
-/

namespace CodexGateway.Manager

/-! ## Requested restores -/

/-- The operation that a coroutine was started for. -/
def Caller.operationId : Caller → Option String
  | .create _ => none
  | .restoreRequested operationId => some operationId

/-- The holder of the lock is in `_prepare_workspace`. -/
def Critical.caller : Critical → Option Caller
  | .prepareExists caller _ | .prepareDecide caller _ _ | .prepareEnsure caller
  | .restoreExists caller _ | .restoreRemove caller _ | .restoreEnsure caller _
  | .restoreBegin caller _ | .restoreRun caller _ _ | .restoreDone caller _ _
  | .restoreUndo caller _ _ | .restoreFail caller _ _ => some caller
  | .checkpointRun _ _ | .checkpointDone _ _ _ | .checkpointFail _ _ | .cleanupRemove
  | .cleanupRemoved => none

/-- The operation that the caller has asked for. -/
def Critical.requested (c : Critical) : Option String := c.caller.bind (·.operationId)

/-- `_prepare_workspace` returns in this turn, with another operation than the one it was called
for, or with none. -/
def Critical.returns (turn : Turn) : Critical → Bool
  | .prepareDecide _ current volumeExists => current.status ≠ .remoteOnly && volumeExists
  | .prepareEnsure _ => turn.ok
  | .restoreDone caller operationId _ => caller.operationId ≠ some operationId
  | _ => false

/-- The operation is ended, or its requested restore still has the lock. -/
def Awaited (s : Host) (operationId : String) : Prop :=
  (∃ c, s.holder = some c ∧ c.requested = some operationId) ∨
    ∀ o ∈ incompleteOperations s.db, o.id ≠ operationId

section Requested

variable {cfg : Settings} {s s' : Host} {caller : Caller} {operationId : String} {turn : Turn}

theorem awaited_ended (db : Tables) {status : OperationStatus} (hended : status.incomplete = false)
    (result : Option OperationResult) (error : Option String) (now : ℤ) :
    ∀ o ∈ incompleteOperations (endOperation db operationId status result error now),
      o.id ≠ operationId := by
  intro o ho
  rcases (endOperation_updated ..).incomplete ho with ⟨-, hid⟩ | ⟨-, hs⟩
  · exact hid
  · rw [hended] at hs
    cases hs

/-- A requested restore that raises has recorded the error. -/
theorem prepareRaise_awaited (hcaller : caller.operationId = some operationId) (error : String)
    (now : ℤ) : Awaited (prepareRaise s error now caller).1 operationId := by
  cases caller with
  | create sandboxId => cases hcaller
  | restoreRequested id =>
    obtain rfl := Option.some.inj hcaller
    exact .inr (awaited_ended s.db rfl none (some error) now)

theorem prepareReturn_awaited (h : ∀ o ∈ incompleteOperations s.db, o.id ≠ operationId) :
    Awaited (prepareReturn cfg s caller).1 operationId := by
  cases caller with
  | create sandboxId | restoreRequested id => exact .inr h

/-- The holder goes on for the same caller. -/
theorem hold_awaited {c : Critical} (h : c.requested = some operationId) :
    Awaited (s.hold c) operationId := .inl ⟨c, rfl, h⟩

theorem prepareRemote_awaited (hcaller : caller.operationId = some operationId)
    (current : WorkspaceRecord) (now : ℤ) :
    Awaited (prepareRemote cfg s caller current now).1 operationId := by
  rw [prepareRemote]
  split
  · split_ifs
    · exact hold_awaited hcaller
    · exact prepareRaise_awaited hcaller _ now
  · exact prepareRaise_awaited hcaller _ now

theorem prepareDecide_awaited (hcaller : caller.operationId = some operationId)
    {current : WorkspaceRecord} {volumeExists : Bool}
    (hreturns : current.status ≠ .remoteOnly → volumeExists = true →
      ∀ o ∈ incompleteOperations s.db, o.id ≠ operationId) (now : ℤ) :
    Awaited (prepareDecide cfg s caller current volumeExists now).1 operationId := by
  rw [prepareDecide]
  split
  · split
    · split
      · exact prepareRaise_awaited hcaller _ now
      · exact prepareRemote_awaited hcaller _ now
    · split
      · exact prepareRaise_awaited hcaller _ now
      · exact hold_awaited hcaller
  · rename_i hthere
    split
    · rename_i hremote
      have hexists : volumeExists = true := by simpa using not_and.mp hthere hremote
      exact prepareReturn_awaited (hreturns hremote hexists)
    · exact prepareRemote_awaited hcaller _ now

theorem restoreBegin_awaited (hcaller : caller.operationId = some operationId)
    (revisionId : String) : Awaited (restoreBegin cfg s caller revisionId turn).1 operationId := by
  rw [restoreBegin]
  split
  · exact prepareRaise_awaited hcaller _ _
  · split
    · exact hold_awaited hcaller
    · split
      · exact hold_awaited hcaller
      · exact hold_awaited hcaller

theorem restoreRun_awaited (hcaller : caller.operationId = some operationId)
    (id revisionId : String) : Awaited (restoreRun s caller id revisionId turn) operationId := by
  rw [restoreRun]
  split
  · exact hold_awaited hcaller
  · split
    · exact hold_awaited hcaller
    · exact hold_awaited hcaller

/-- A restore that is recorded ends the record it was asked for, if that is its own. -/
theorem restoreDone_awaited (hcaller : caller.operationId = some operationId) {id : String}
    (hreturns : id ≠ operationId → ∀ o ∈ incompleteOperations s.db, o.id ≠ operationId)
    (revisionId : String) (now : ℤ) :
    Awaited (restoreDone cfg s caller id revisionId now).1 operationId := by
  rw [restoreDone]
  split
  · exact hold_awaited hcaller
  · rename_i db hupdate
    split
    · exact hold_awaited hcaller
    · rename_i db' row hmove
      refine prepareReturn_awaited fun o ho => ?_
      have ho' : o ∈ incompleteOperations db := by
        rwa [incompleteOperations, transitionWorkspace_operations hmove] at ho
      rcases (updateOperation_updated hupdate).incomplete ho' with ⟨hold, hid⟩ | ⟨-, hs⟩
      · by_cases hsame : id = operationId
        · exact hsame ▸ hid
        · exact hreturns hsame o hold
      · cases hs

/-- **A turn of a requested restore**: it keeps the lock, or its record is ended. -/
theorem criticalStep_awaited {c : Critical} {ts : List Task}
    (hrequested : c.requested = some operationId)
    (hreturns : c.returns turn = true → ∀ o ∈ incompleteOperations s.db, o.id ≠ operationId)
    (hstep : criticalStep cfg s turn c = some (s', ts)) : Awaited s' operationId := by
  have of_eq {r : Host × List Task} (hr : some r = some (s', ts)) (h : Awaited r.1 operationId) :
      Awaited s' operationId := by
    obtain rfl := Option.some.inj hr
    exact h
  cases c with
  | prepareExists caller current =>
    simp only [criticalStep] at hstep
    split at hstep
    · exact of_eq hstep (hold_awaited hrequested)
    · exact of_eq hstep (prepareRaise_awaited hrequested _ _)
  | prepareDecide caller current volumeExists =>
    exact of_eq hstep (prepareDecide_awaited hrequested
      (fun hremote hexists => hreturns (by simp [Critical.returns, hremote, hexists])) _)
  | prepareEnsure caller =>
    simp only [criticalStep] at hstep
    split at hstep
    · rename_i hok
      exact of_eq hstep (prepareReturn_awaited (s := s.ensureVolume) (hreturns hok))
    · exact of_eq hstep (prepareRaise_awaited hrequested _ _)
  | restoreExists caller revisionId =>
    simp only [criticalStep] at hstep
    split_ifs at hstep
    · exact of_eq hstep (hold_awaited hrequested)
    · exact of_eq hstep (hold_awaited hrequested)
    · exact of_eq hstep (prepareRaise_awaited hrequested _ _)
  | restoreRemove caller revisionId => exact of_eq hstep (hold_awaited hrequested)
  | restoreEnsure caller revisionId =>
    simp only [criticalStep] at hstep
    split at hstep
    · exact of_eq hstep (hold_awaited hrequested)
    · exact of_eq hstep (prepareRaise_awaited hrequested _ _)
  | restoreBegin caller revisionId =>
    exact of_eq hstep (restoreBegin_awaited hrequested revisionId)
  | restoreRun caller id revisionId => exact of_eq hstep (restoreRun_awaited hrequested id revisionId)
  | restoreDone caller id revisionId =>
    have hcaller : caller.operationId = some operationId := hrequested
    exact of_eq hstep (restoreDone_awaited hcaller
      (fun hother => hreturns (by simp [Critical.returns, hcaller, Ne.symm hother])) revisionId _)
  | restoreUndo caller id error => exact of_eq hstep (hold_awaited hrequested)
  | restoreFail caller id error => exact of_eq hstep (prepareRaise_awaited hrequested _ _)
  | checkpointRun _ _ | checkpointDone _ _ _ | checkpointFail _ _ | cleanupRemove
  | cleanupRemoved => cases hrequested

end Requested

/-! ## Records that are driven -/

/-- **A coroutine is going to end the operation.** -/
def Retirement.Driven (workspaceId : String) (s : Retirement) (tasks : List RetireTask)
    (o : Operation) : Prop :=
  s.Drives workspaceId o ∨ (∃ c, s.host.holder = some c ∧ c.requested = some o.id) ∨
    ∃ t ∈ tasks, t.Drives workspaceId s o

/-- The coroutine claims the Workspace in this turn. -/
def RetireTask.claimsNow (cfg : Settings) (s : Host) (turn : Turn) : RetireTask → Bool
  | .backend (.createClaim sandboxId) =>
    (claimWorkspace s.db cfg.workspaceId sandboxId (workerHost sandboxId) (workerHost sandboxId)
      turn.now (turn.now + cfg.executionTtlSeconds)).toOption.isSome
  | _ => false

/-- The checkpoint of the generation has been asked for, and is left to do. -/
def toSave (workspaceId : String) (db : Tables) : Bool :=
  (db.workspaces workspaceId).any fun row => (incompleteOperations db).any fun o =>
    o.idempotencyKey = checkpointKey workspaceId row.generation

/-- The restore that was asked for has nothing to restore, and is left to do. -/
def Critical.leaves (s : Host) (turn : Turn) (c : Critical) : Bool :=
  c.returns turn && (incompleteOperations s.db).any fun o => c.requested = some o.id

section Driven

variable {cfg : RetireSettings} {ws : String} {s s' : Retirement} {tasks ts : List RetireTask}
  {t t' u : RetireTask} {turn : Turn} {o : Operation} {drives : Operation → Prop}

/-- What the others drive they still drive. -/
theorem RetireTask.Drives.stable (h : u.Drives ws s o) (hdirty : StaysDirty ws drives s.host s'.host)
    (hnot : ¬ drives o) : u.Drives ws s' o := by
  cases u with
  | backend t =>
    cases t with
    | checkpointLock =>
      obtain ⟨row, hrow, hto⟩ := h
      rcases hdirty row hrow hto.1 with ⟨row', hrow', hstatus, hgeneration⟩ | hall
      · exact ⟨row', hrow', hstatus, hgeneration ▸ hto.2⟩
      · exact absurd (hall o hto.2) hnot
    | _ => exact h
  | _ => exact h

/-- **Only a claim takes a dirty Workspace from its checkpoint.** -/
theorem retireTaskStep_dirty (h : RetirementOk cfg.workspaceId s)
    (hclaim : t.claimsNow cfg.toSettings s.host turn = true →
      toSave cfg.workspaceId s.host.db = false)
    (hstep : retireTaskStep cfg s turn t = some (s', t')) :
    StaysDirty cfg.workspaceId
      (fun o => t.Acts cfg.workspaceId s o ∨ o ∉ incompleteOperations s.host.db) s.host s'.host := by
  by_cases hclaims : t.Claims
  · cases t with
    | backend t =>
      cases t with
      | createClaim sandboxId =>
        simp only [retireTaskStep, Task.locks, Bool.and_false, Bool.false_eq_true, if_false] at hstep
        obtain ⟨r, hr, heq⟩ := Option.map_eq_some_iff.mp hstep
        obtain ⟨rfl, -⟩ := Prod.mk.inj heq
        rw [taskStep] at hr
        split at hr
        · obtain rfl := Option.some.inj hr
          exact .same rfl
        · rename_i db row sandbox hok
          intro row hrow hdirty
          refine .inr fun o ho => .inr fun hincomplete => ?_
          have hsave := hclaim (by rw [RetireTask.claimsNow, hok]; rfl)
          rw [toSave, hrow, Option.any_some, List.any_eq_false] at hsave
          exact hsave o hincomplete (decide_eq_true ho.key)
      | _ => exact absurd rfl hclaims
    | _ => exact hclaims.elim
  · intro row hrow hdirty
    exact ((retireTaskStep_serves h hstep).dirty hclaims row hrow hdirty).imp_right
      fun hall o ho => .inl (hall o ho)

/-- A requested restore takes the lock for the operation that it was started for. -/
theorem restoreLock_requested (h : RetirementOk cfg.workspaceId s) {operationId : String}
    (ho : o ∈ incompleteOperations s.host.db)
    (hstep : retireTaskStep cfg s turn (.backend (.restoreLock operationId)) = some (s', t')) :
    ∃ c, s'.host.holder = some c ∧ c.requested = some operationId := by
  rw [retireTaskStep] at hstep
  split at hstep
  · cases hstep
  · obtain ⟨r, hr, heq⟩ := Option.map_eq_some_iff.mp hstep
    obtain ⟨rfl, -⟩ := Prod.mk.inj heq
    obtain ⟨m, hm, rfl⟩ := Option.map_eq_some_iff.mp hr
    obtain ⟨-, ⟨hnone, -⟩ | ⟨row, -, rfl⟩⟩ := takeLock_cases hm
    · rw [incompleteOperations, h.host.ledger.gone hnone] at ho
      cases ho
    · exact ⟨_, rfl, rfl⟩

/-- **A turn of a coroutine leaves no record behind.** -/
theorem retireTaskStep_driven (h : RetirementOk cfg.workspaceId s)
    (hdriven : ∀ o ∈ incompleteOperations s.host.db, s.Driven cfg.workspaceId tasks o) {i : ℕ}
    (ht : tasks[i]? = some t)
    (hclaim : t.claimsNow cfg.toSettings s.host turn = true →
      toSave cfg.workspaceId s.host.db = false)
    (hstep : retireTaskStep cfg s turn t = some (s', t')) :
    ∀ o ∈ incompleteOperations s'.host.db, s'.Driven cfg.workspaceId (tasks.set i t') o := by
  have hserves := retireTaskStep_serves h hstep
  intro o ho
  obtain ⟨hlt, -⟩ := List.getElem?_eq_some_iff.mp ht
  rcases hserves.settles o ho with hd | hd | ⟨hold, hnot⟩
  · exact .inl hd
  · exact .inr (.inr ⟨t', List.mem_set hlt t', hd⟩)
  rcases hdriven o hold with hd | ⟨c, hc, hid⟩ | ⟨u, hu, hd⟩
  · exact .inl ((hserves.holds o hd).resolve_right hnot)
  · -- the lock is not free
    have hb := retireTaskStep_beside h (by rw [hc]; exact Option.some_ne_none c) hstep
    exact .inr (.inl ⟨c, hb.holder.trans hc, hid⟩)
  · obtain ⟨j, hj⟩ := List.mem_iff_getElem?.mp hu
    by_cases hji : i = j
    · -- the coroutine itself, which goes on with the lock
      subst hji
      obtain rfl := Option.some.inj (ht.symm.trans hj)
      cases t with
      | backend t =>
        cases t with
        | restoreLock operationId =>
          obtain rfl : o.id = operationId := hd
          exact .inr (.inl (restoreLock_requested h hold hstep))
        | _ => exact absurd hd hnot
      | _ => exact hd.elim
    · refine .inr (.inr ⟨u, List.mem_iff_getElem?.mpr ⟨j, ?_⟩,
        hd.stable (retireTaskStep_dirty h hclaim hstep) fun hacts => ?_⟩)
      · rw [List.getElem?_set_ne hji, hj]
      · exact hacts.elim hnot fun hnone => hnone hold

/-- **An event leaves no record behind.** -/
theorem retireEventStep_driven (h : RetirementOk cfg.workspaceId s)
    (hdriven : ∀ o ∈ incompleteOperations s.host.db, s.Driven cfg.workspaceId tasks o)
    {e : RetireEvent} (hleaves : ∀ turn, e = .backend (.holder turn) →
      ∀ c, s.host.holder = some c → c.leaves s.host turn = false)
    (hstep : retireEventStep cfg s e = some (s', ts)) :
    ∀ o ∈ incompleteOperations s'.host.db, s'.Driven cfg.workspaceId (tasks ++ ts) o := by
  have hserves := retireEventStep_serves h hstep
  intro o ho
  rcases hserves.settles o ho with hd | ⟨t, ht, hd⟩ | ⟨hold, hnot⟩
  · exact .inl hd
  · exact .inr (.inr ⟨t, List.mem_append_right _ ht, hd⟩)
  rcases hdriven o hold with hd | ⟨c, hc, hid⟩ | ⟨u, hu, hd⟩
  · exact .inl ((hserves.holds o hd).resolve_right hnot)
  · by_cases hown : ∃ turn, e = .backend (.holder turn)
    · obtain ⟨turn, rfl⟩ := hown
      obtain ⟨r, hr, heq⟩ := Option.map_eq_some_iff.mp hstep
      obtain ⟨rfl, -⟩ := Prod.mk.inj heq
      obtain ⟨c', hc', hr⟩ := Option.bind_eq_some_iff.mp hr
      obtain rfl := Option.some.inj (hc.symm.trans hc')
      have hleft := hleaves turn rfl c hc
      have hawaited : Awaited r.1 o.id := criticalStep_awaited hid
        (fun hreturns p hp hpid => by
          rw [Critical.leaves, hreturns, Bool.true_and, List.any_eq_false] at hleft
          exact hleft p hp (decide_eq_true (hpid ▸ hid))) hr
      exact .inr (.inl (hawaited.resolve_right fun hended => hended o ho rfl))
    · have hb := retireEventStep_beside h (by rw [hc]; exact Option.some_ne_none c)
        (fun turn he => hown ⟨turn, he⟩) hstep
      exact .inr (.inl ⟨c, hb.holder.trans hc, hid⟩)
  · exact .inr (.inr ⟨u, List.mem_append_left _ hu, hd.stable (hserves.dirty id) hnot⟩)

end Driven

/-! ## Runs -/

/-- A record is left behind in this step. -/
def Life.leaves (cfg : RetireSettings) (w : Life) : LifeAction → Bool
  | .serve (.task i turn) => w.pool.tasks[i]?.any fun t =>
      t.claimsNow cfg.toSettings w.pool.shared.host turn &&
        toSave cfg.workspaceId w.pool.shared.host.db
  | .serve (.env (.backend (.holder turn))) =>
      w.pool.shared.host.holder.any fun c => c.leaves w.pool.shared.host turn
  | _ => false

/-- **Every record that is left to do is driven**, and none is once a startup has ended them. -/
def Life.Driven (workspaceId : String) (w : Life) : Prop :=
  match w.booting with
  | none => ∀ o ∈ incompleteOperations w.pool.shared.host.db,
      w.pool.shared.Driven workspaceId w.pool.tasks o
  | some .reconcile | some .operations => True
  | some _ => incompleteOperations w.pool.shared.host.db = []

/-- The coroutines of the operations, by what they wait for. -/
def RetireTask.background : RetireTask → Bool
  | .backend (.restoreRequested _) | .backend (.restoreLock _) | .backend .checkpointLock
  | .retireLock => true
  | _ => false

/-- The holder of the lock works on an operation, or was started for one. -/
def Critical.background : Critical → Bool
  | .prepareExists caller _ | .prepareDecide caller _ _ | .prepareEnsure caller
  | .restoreExists caller _ | .restoreRemove caller _ | .restoreEnsure caller _
  | .restoreBegin caller _ => caller.operationId.isSome
  | .cleanupRemove | .cleanupRemoved => false
  | _ => true

/-- No coroutine of an operation is left. -/
def Life.quiet (w : Life) : Bool :=
  w.booting = none && w.pool.shared.retiring.isNone &&
    w.pool.shared.host.holder.all (fun c => !c.background) &&
    w.pool.tasks.all fun t => !t.background

/-- What `cleanup_candidates` asks of the row. -/
def cleanupDue (row : WorkspaceRecord) (updatedBefore : ℤ) : Bool :=
  row.kind = .recoverable && row.status = .detachedClean && row.headRevision.isSome &&
    row.activeSandboxId.isNone && row.updatedAt ≤ updatedBefore

/-- `cleanup_candidates` -/
def isCleanupCandidate (db : Tables) (row : WorkspaceRecord) (updatedBefore : ℤ) : Bool :=
  cleanupDue row updatedBefore &&
    !(incompleteOperations db).any fun operation => operation.workspaceId = row.id

section Runs

variable {cfg : RetireSettings} {w w' : Life}

theorem Life.Driven.of_settled (h : incompleteOperations w.pool.shared.host.db = []) :
    w.Driven cfg.workspaceId := by
  rw [Life.Driven]
  split
  · rw [h]
    exact fun o ho => by cases ho
  · trivial
  · trivial
  · exact h

/-- The startup goes on only when all records are ended. -/
theorem bootStep_driven {s s' : Retirement} {turn : Turn} {stage : BootStage}
    {booting : Option BootStage} {tasks tasks' : List RetireTask}
    (hl : Ledger cfg.workspaceId s.host.db)
    (h : Life.Driven cfg.workspaceId ⟨⟨s, tasks⟩, some stage⟩)
    (hstep : bootStep cfg s turn stage = some (s', booting)) :
    Life.Driven cfg.workspaceId ⟨⟨s', tasks'⟩, booting⟩ := by
  have hkept (hsettled : incompleteOperations s.host.db = []) :
      Life.Driven cfg.workspaceId ⟨⟨s', tasks'⟩, booting⟩ := by
    refine .of_settled (List.eq_nil_iff_forall_not_mem.mpr fun o ho => ?_)
    have hold := (bootStep_boots hl hstep).settles o ho
    rw [hsettled] at hold
    cases hold
  cases stage with
  | reconcile =>
    rw [bootStep] at hstep
    split at hstep
    · obtain ⟨-, rfl⟩ := Prod.mk.inj (Option.some.inj hstep)
      trivial
    · obtain ⟨m, -, heq⟩ := Option.map_eq_some_iff.mp hstep
      obtain ⟨-, rfl⟩ := Prod.mk.inj heq
      trivial
  | operations =>
    have hbegin := hstep
    rw [bootStep] at hstep
    split at hstep
    · rename_i hsettled
      exact hkept hsettled
    · obtain ⟨db, -, heq⟩ := Option.map_eq_some_iff.mp hstep
      obtain ⟨-, rfl⟩ := Prod.mk.inj heq
      trivial
  | checkpointing | restoring | restored => exact hkept h

/-- **A step leaves no record behind**, but for those that the condition names. -/
theorem Life.Driven.step (hok : LifeOk cfg.workspaceId w) (h : w.Driven cfg.workspaceId)
    {a : LifeAction} (hleaves : w.leaves cfg a = false) (hstep : w.step cfg a = some w') :
    w'.Driven cfg.workspaceId := by
  cases a with
  | serve a =>
    rw [Life.step] at hstep
    split at hstep
    · rename_i hserved
      obtain ⟨pool, hpool, rfl⟩ := Option.map_eq_some_iff.mp hstep
      rw [Life.Driven, hserved] at h
      cases a with
      | task i turn =>
        obtain ⟨t, s, t', ht, hact, rfl⟩ := Pool.step_task.mp hpool
        refine retireTaskStep_driven hok.served h ht (fun hclaims => ?_) hact
        rw [Life.leaves, ht, Option.any_some, hclaims, Bool.true_and] at hleaves
        exact hleaves
      | env e =>
        obtain ⟨s, ts, henv, rfl⟩ := Pool.step_env.mp hpool
        refine retireEventStep_driven hok.served h (fun turn he c hc => ?_) henv
        rw [he, Life.leaves, hc, Option.any_some] at hleaves
        exact hleaves
    · cases hstep
  | crash taken kept =>
    obtain rfl := Option.some.inj hstep
    trivial
  | write changes =>
    rw [Life.step] at hstep
    split at hstep
    · obtain rfl := Option.some.inj hstep
      exact h
    · cases hstep
  | boot turn =>
    obtain ⟨stage, hstage, hmap⟩ := Option.bind_eq_some_iff.mp hstep
    obtain ⟨r, hr, rfl⟩ := Option.map_eq_some_iff.mp hmap
    obtain ⟨pool, booting⟩ := w
    obtain rfl : booting = some stage := hstage
    exact bootStep_driven hok.served.host.ledger h hr

theorem life_driven (clock : ℤ) (as : List LifeAction)
    (hmeets : Machine.Meets (Life.step cfg) (fun w a => w.leaves cfg a = false) (Life.init clock) as)
    (hrun : Machine.run (Life.step cfg) (Life.init clock) as = some w) :
    LifeOk cfg.workspaceId w ∧ w.Driven cfg.workspaceId := by
  have hkeeps : ∀ v a v', v.leaves cfg a = false →
      LifeOk cfg.workspaceId v ∧ v.Driven cfg.workspaceId → Life.step cfg v a = some v' →
      LifeOk cfg.workspaceId v' ∧ v'.Driven cfg.workspaceId :=
    fun _ _ _ hleaves hv hstep => ⟨hv.1.step hstep, hv.2.step hv.1 hleaves hstep⟩
  exact Machine.run_invariant hkeeps hmeets hrun ⟨lifeOk_init clock, .of_settled rfl⟩

theorem Critical.Drives.background {ws : String} {c : Critical} {o : Operation}
    (h : c.Drives ws o) : c.background = true := by
  have hasks {caller : Caller} (h : caller.Asks o.id) : caller.operationId.isSome = true := by
    cases caller with
    | create sandboxId => exact h.elim
    | restoreRequested id => rfl
  cases c with
  | prepareExists _ _ | prepareDecide _ _ _ | restoreExists _ _ | restoreRemove _ _
  | restoreEnsure _ _ | restoreBegin _ _ => exact hasks h.1
  | prepareEnsure _ | cleanupRemove | cleanupRemoved => exact h.elim
  | _ => rfl

theorem Critical.requested_background {c : Critical} {operationId : String}
    (h : c.requested = some operationId) : c.background = true := by
  cases c with
  | prepareExists _ _ | prepareDecide _ _ _ | prepareEnsure _ | restoreExists _ _
  | restoreRemove _ _ | restoreEnsure _ _ | restoreBegin _ _ =>
    exact Option.isSome_iff_exists.mpr ⟨operationId, h⟩
  | cleanupRemove | cleanupRemoved => cases h
  | _ => rfl

theorem RetireTask.Drives.background {ws : String} {s : Retirement} {t : RetireTask} {o : Operation}
    (h : t.Drives ws s o) : t.background = true := by
  cases t with
  | backend t =>
    cases t with
    | restoreRequested _ | restoreLock _ | checkpointLock => rfl
    | _ => exact h.elim
  | _ => exact h.elim

/-- Where no coroutine of an operation is left, no record is. -/
theorem Life.Driven.settled (h : w.Driven cfg.workspaceId) (hquiet : w.quiet = true) :
    incompleteOperations w.pool.shared.host.db = [] := by
  simp only [Life.quiet, Bool.and_eq_true, decide_eq_true_eq, Option.isNone_iff_eq_none,
    List.all_eq_true, Bool.not_eq_true', Option.all_eq_true] at hquiet
  obtain ⟨⟨⟨hserved, hretiring⟩, hholder⟩, htasks⟩ := hquiet
  rw [Life.Driven, hserved] at h
  refine List.eq_nil_iff_forall_not_mem.mpr fun o ho => ?_
  have hheld {c : Critical} (hc : w.pool.shared.host.holder = some c) (hb : c.background = true) :
      False := by
    rw [hholder c hc] at hb
    cases hb
  rcases h o ho with (⟨c, hc, hd⟩ | ⟨stage, hstage, -⟩) | ⟨c, hc, hid⟩ | ⟨t, ht, hd⟩
  · exact hheld hc hd.background
  · rw [hretiring] at hstage
    cases hstage
  · exact hheld hc (Critical.requested_background hid)
  · have hb := hd.background
    rw [htasks t ht] at hb
    cases hb

end Runs

/-- **Where no record is left behind, the Workspace without coroutines has none**, so that it is
cleaned up and retired as soon as it is due. -/
theorem operations_settled (cfg : RetireSettings) (clock : ℤ) (as : List LifeAction) (w : Life)
    (hmeets : Machine.Meets (Life.step cfg) (fun w a => w.leaves cfg a = false) (Life.init clock) as)
    (hrun : Machine.run (Life.step cfg) (Life.init clock) as = some w) (hquiet : w.quiet = true) :
    incompleteOperations w.pool.shared.host.db = [] ∧ ∀ row now,
      isCleanupCandidate w.pool.shared.host.db row now = cleanupDue row now ∧
      isRetireCandidate w.pool.shared.host.db row now =
        (row.kind = .recoverable && retireDue row now) := by
  have hsettled := (life_driven clock as hmeets hrun).2.settled hquiet
  refine ⟨hsettled, fun row now => ?_⟩
  rw [isCleanupCandidate, isRetireCandidate, hsettled]
  simp

theorem operations_settled_interrupted : ∃ w,
    Machine.run (Life.step sampleRetireSettings) (Life.init 0) interruptedCheckpoint = some w ∧
      w.quiet = true ∧ incompleteOperations w.pool.shared.host.db = [] := by
  obtain ⟨w, hw, hquiet⟩ := (Option.any_eq_true _ _).mp
    (show (Machine.run (Life.step sampleRetireSettings) (Life.init 0) interruptedCheckpoint).any
      (·.quiet) = true by decide +kernel)
  exact ⟨w, hw, hquiet, (operations_settled sampleRetireSettings 0 interruptedCheckpoint w
    (by decide +kernel) hw hquiet).1⟩

/-- The checkpoint of the first Sandbox fails, and the second is being prepared.  The third has the
lock when a checkpoint is asked for, which waits for it, and the second claims the Workspace. -/
def overtakenCheckpoint : List (Pool.Action Turn Event) :=
  firstSession.take 15 ++
    [.env (.holder ⟨false, none, "storage is unavailable", 10⟩), .env (.holder (succeeds "" 10))] ++
    preparing 3 2 "sandbox_b" ++
    [.env (.create "sandbox_c"), .task 5 (succeeds "" 20),
      .env (.requestCheckpoint (succeeds "2" 20))] ++
    List.replicate 2 (.task 4 (succeeds "" 20)) ++
    List.replicate 2 (.env (.holder (succeeds "" 20))) ++
    [.task 6 (succeeds "3" 20)] ++ List.replicate 3 (.task 4 (succeeds "" 20)) ++
    List.replicate 2 (.task 7 (succeeds "" 20))

/-- **The record of a checkpoint that comes too late is left behind.** -/
theorem operations_settled_overtaken : ¬ ∀ (cfg : RetireSettings) (clock : ℤ)
    (as : List LifeAction) (w : Life),
    Machine.run (Life.step cfg) (Life.init clock) as = some w → w.quiet = true →
      incompleteOperations w.pool.shared.host.db = [] := by
  intro h
  obtain ⟨w, hw, htest⟩ := (Option.any_eq_true _ _).mp
    (show (Machine.run (Life.step sampleRetireSettings) (Life.init 0)
      (.serve (.env (.createWorkspace "agent-workspace-1")) ::
        overtakenCheckpoint.map fun a => .serve (beside a))).any
          (fun w => w.quiet && !(incompleteOperations w.pool.shared.host.db).isEmpty) = true
      by decide +kernel)
  rw [Bool.and_eq_true] at htest
  have hleft := htest.2
  rw [h sampleRetireSettings 0 _ w hw htest.1] at hleft
  cases hleft

end CodexGateway.Manager
