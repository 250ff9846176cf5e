import CodexGateway.Manager.Lifetime

/-!
# Manager/Exclusive — what a checkpoint under way keeps out

From the turn in which `_checkpoint_workspace` moves the Workspace to `checkpointing` until the
one that commits or rolls back, the status keeps out the claims, which do not take the lock, and
the lock keeps out everything else that would move the row.  So the guard of `commit_revision`
holds whenever it is reached.
-/

namespace CodexGateway.Manager

/-! ## The commit as a transaction -/

namespace Sql

variable {store store' : Store OperationInput OperationResult}
  {workspaceId operationId revisionId : String} {generation : ℕ} {result : OperationResult} {now : ℤ}

/-- What a commit has written. -/
structure Committed (workspaceId operationId revisionId : String)
    (store : Store OperationInput OperationResult) : Prop where
  workspace : ∃ row, store.workspaces workspaceId = some row ∧
    row.headRevision = some revisionId ∧ row.status = .detachedClean
  revision : ∃ r ∈ store.revisions, r.workspaceId = workspaceId ∧ r.snapshotId = revisionId
  operation : ∃ o ∈ store.operations, o.id = operationId ∧ o.status = .succeeded

theorem insertRevision_mem {row : RevisionRecord} {u : Unit}
    (h : insertRevision row store = .ok u store') :
    ∃ r ∈ store'.revisions, r.workspaceId = row.workspaceId ∧ r.snapshotId = row.snapshotId := by
  rw [insertRevision] at h
  split_ifs at h with hthere
  · cases h
    obtain ⟨r, hr, hsame⟩ := List.any_eq_true.mp hthere
    exact ⟨r, hr, by simpa using hsame⟩
  · cases h
    exact ⟨row, List.mem_append_right _ (List.mem_singleton_self row), rfl, rfl⟩

/-- The tables of the revisions are written by the insertion alone. -/
theorem commitRevision_revision {r : WorkspaceRecord × Operation}
    (h : commitRevision workspaceId operationId revisionId generation result now store =
      .ok r store') :
    ∃ r ∈ store'.revisions, r.workspaceId = workspaceId ∧ r.snapshotId = revisionId := by
  obtain ⟨row?, mid, hselect, h⟩ := bind_ok (transaction_ok h)
  cases hselect
  cases hrow : store.workspaces workspaceId with
  | none =>
    rw [hrow] at h
    cases h
  | some row =>
    rw [hrow] at h
    obtain ⟨-, h⟩ := unless_ok h
    obtain ⟨_, mid, hinsert, h⟩ := bind_ok h
    obtain ⟨n, mid', hupdate, h⟩ := bind_ok h
    obtain ⟨n', last, hoperation, h⟩ := bind_ok h
    obtain ⟨row', mid'', hfetch, h⟩ := bind_ok h
    obtain ⟨-, rfl⟩ := require_ok hfetch
    obtain ⟨operation, mid'', hfetch', h⟩ := bind_ok h
    obtain ⟨-, rfl⟩ := require_ok hfetch'
    cases h
    have hworkspace : mid'.revisions = mid.revisions := by
      rcases updateWorkspace_ok hupdate with ⟨-, -, rfl⟩ | ⟨-, -, -, -, rfl⟩ <;> rfl
    have hlast : store'.revisions = mid'.revisions := by
      rcases updateOperations_ok hoperation with ⟨-, -, rfl⟩ | ⟨-, -, rfl⟩ <;> rfl
    rw [hlast, hworkspace]
    exact insertRevision_mem hinsert

/-- **The head, the status, the revision and the operation change together, or not at all.** -/
theorem commitRevision_atomic (store : Store OperationInput OperationResult)
    (workspaceId operationId revisionId : String) (generation : ℕ) (result : OperationResult)
    (now : ℤ) :
    match commitRevision workspaceId operationId revisionId generation result now store with
    | .ok _ store' => Committed workspaceId operationId revisionId store'
    | .error _ store' => store' = store := by
  cases h : commitRevision workspaceId operationId revisionId generation result now store with
  | error e store' => exact transaction_error h
  | ok r store' =>
    have hok := commitRevision_ok h
    have hu := commitRevision_updated hok
    obtain ⟨row, hrow, -, -, -, hr, -, hworkspaces⟩ := Manager.commitRevision_ok hok
    refine ⟨⟨r.1, ?_, by rw [hr]; rfl, by rw [hr]; rfl⟩, commitRevision_revision h, ?_⟩
    · rw [hworkspaces]
      exact Db.putWorkspace_workspaces ..
    · -- the operation is there
      have hfound : (findOperation store.toDb operationId).isSome := by
        rw [Manager.commitRevision, hrow] at hok
        dsimp only at hok
        split_ifs at hok with hchanged hnone
        simpa [Option.isSome_iff_ne_none] using hnone
      obtain ⟨o, ho, hid⟩ := List.find?_isSome.mp hfound
      obtain ⟨f, hf, hsame, -, hstatus⟩ := hu.operations
      have hid' : o.id = operationId := of_decide_eq_true hid
      exact ⟨f o, hf ▸ List.mem_map_of_mem ho, (hsame o).id.trans hid', hstatus o hid'⟩

theorem bind_returns {α β : Type} {body : Sql OperationInput OperationResult α}
    {f : α → Sql OperationInput OperationResult β} {a : α} {b : β}
    {mid : Store OperationInput OperationResult} (h : body store = .ok a mid)
    (hf : f a mid = .ok b store') : (body >>= f) store = .ok b store' := by
  simp only [bind, EStateM.bind, h, hf]

theorem transaction_returns {α : Type} {body : Sql OperationInput OperationResult α} {a : α}
    (h : body store = .ok a store') : transaction body store = .ok a store' := by
  rw [transaction, h]

/-- **A commit that the tables allow is not turned away**, unless another Workspace has a revision
with the same id. -/
theorem commitRevision_returns {db : Tables} {row : WorkspaceRecord}
    (h : Manager.commitRevision store.toDb workspaceId operationId revisionId generation result now =
      .ok (db, row))
    (hunique : ∀ r ∈ store.revisions, r.id = revisionId →
      r.workspaceId = workspaceId ∧ r.snapshotId = revisionId) :
    ∃ operation store', commitRevision workspaceId operationId revisionId generation result now
      store = .ok (row, operation) store' ∧ store'.toDb = db := by
  rw [Manager.commitRevision] at h
  cases hrow : store.workspaces workspaceId with
  | none =>
    rw [hrow] at h
    cases h
  | some old =>
    rw [hrow] at h
    dsimp only at h
    split_ifs at h with hchanged hnone
    obtain ⟨hdb, rfl⟩ := Prod.mk.inj (Except.ok.inj h)
    obtain ⟨revisions, hinsert⟩ : ∃ revisions, insertRevision
        ⟨revisionId, workspaceId, revisionId, now⟩ store = .ok () ⟨store.toDb, revisions⟩ := by
      rw [insertRevision]
      split_ifs with hthere hid
      · exact ⟨_, rfl⟩
      · obtain ⟨r, hr, he⟩ := List.any_eq_true.mp hid
        obtain ⟨hw, hs⟩ := hunique r hr (of_decide_eq_true he)
        exact absurd (List.any_eq_true.mpr ⟨r, hr, by simp [hw, hs]⟩) hthere
      · exact ⟨_, rfl⟩
    have hupdate : updateWorkspace workspaceId (fun _ => true) (fun row => row.commit revisionId now)
        ⟨store.toDb, revisions⟩ =
          .ok 1 ⟨store.putWorkspace workspaceId (old.commit revisionId now), revisions⟩ := by
      have hall : (store.workspaces workspaceId).filter (fun _ => true) = some old := by
        rw [hrow]
        rfl
      rw [updateWorkspace, hall]
      rfl
    have hupdate' : updateOperations operationId (fun operation =>
        operation.update .succeeded operation.phase (some result) none now)
          ⟨store.putWorkspace workspaceId (old.commit revisionId now), revisions⟩ =
          .ok 1 ⟨db, revisions⟩ := by
      rw [updateOperations, ← hdb]
      exact if_neg hnone
    have hfetch : fetchWorkspace workspaceId ⟨db, revisions⟩ =
        .ok (old.commit revisionId now) (⟨db, revisions⟩ : Store OperationInput OperationResult) := by
      rw [fetchWorkspace, ← hdb]
      exact congrArg (require · _) (Db.putWorkspace_workspaces ..)
    obtain ⟨operation, hfound⟩ : ∃ operation, findOperation db operationId = some operation := by
      have hsome : (findOperation store.toDb operationId).isSome := by
        simpa [Option.isSome_iff_ne_none] using hnone
      obtain ⟨o, ho, hid⟩ := List.find?_isSome.mp hsome
      rw [← hdb]
      refine Option.isSome_iff_exists.mp (List.find?_isSome.mpr ⟨_, List.mem_map_of_mem ho, ?_⟩)
      simp [of_decide_eq_true hid, OperationRecord.update]
    have hfetch' : fetchOperation operationId ⟨db, revisions⟩ =
        .ok operation (⟨db, revisions⟩ : Store OperationInput OperationResult) := by
      rw [fetchOperation, hfound]
      rfl
    refine ⟨operation, ⟨db, revisions⟩, ?_, rfl⟩
    refine transaction_returns (bind_returns (show selectWorkspace workspaceId store =
      .ok (some old) store from congrArg (EStateM.Result.ok · store) hrow) ?_)
    dsimp only
    rw [if_neg hchanged]
    exact bind_returns hinsert (bind_returns hupdate (bind_returns hupdate' (bind_returns hfetch
      (bind_returns hfetch' rfl))))

end Sql

/-! ## While a checkpoint is under way -/

/-- The checkpoint that the coroutine is in, by its operation. -/
def Critical.checkpoints : Critical → Option String
  | .checkpointRun operationId _ | .checkpointDone operationId _ _ | .checkpointFail operationId _ =>
    some operationId
  | _ => none

/-- A checkpoint of the generation is under way. -/
structure Checkpointing (workspaceId operationId : String) (generation : ℕ) (w : Life) : Prop where
  held : ∃ c, w.pool.shared.host.holder = some c ∧ c.checkpoints = some operationId
  served : w.booting = none
  row : ∃ row, w.pool.shared.host.db.workspaces workspaceId = some row ∧
    row.status = .checkpointing ∧ row.activeSandboxId = none ∧ row.generation = generation

/-- The row of the Workspace is committed with the revision, and the operation succeeds. -/
structure Commits (workspaceId operationId revisionId : String) (now : ℤ) (w w' : Life) : Prop where
  row : ∃ row, w.pool.shared.host.db.workspaces workspaceId = some row ∧
    w'.pool.shared.host.db.workspaces workspaceId = some (row.commit revisionId now)
  operation : ∃ o ∈ w'.pool.shared.host.db.operations, o.id = operationId ∧ o.status = .succeeded

/-- How a checkpoint ends. -/
inductive Ended (workspaceId operationId : String) (w w' : Life) : LifeAction → Prop
  | committed (a : LifeAction) (revisionId : String) (now : ℤ)
      (hcommits : Commits workspaceId operationId revisionId now w w') :
      Ended workspaceId operationId w w' a
  | rolledBack (a : LifeAction) (row : WorkspaceRecord) (now : ℤ)
      (hrow : w.pool.shared.host.db.workspaces workspaceId = some row)
      (hrow' : w'.pool.shared.host.db.workspaces workspaceId = some (row.move .detachedDirty now))
      (hoperation : ∃ o ∈ w'.pool.shared.host.db.operations,
        o.id = operationId ∧ o.status = .failed) : Ended workspaceId operationId w w' a
  | crashed (taken : Bool) (kept : List String) :
      Ended workspaceId operationId w w' (.crash taken kept)

/-- The coroutines that wait for the lock of the Workspace. -/
def RetireTask.locks : RetireTask → Bool
  | .backend t => t.locks
  | .retireLock => true
  | _ => false

/-- **What a checkpoint under way keeps out**, and that its commit is not turned away: the turn of the
holder that commits leaves the Workspace at the revision (`ends`), as does the transaction itself
(`commits`). -/
structure Undisturbed (cfg : RetireSettings) (operationId : String) (generation : ℕ) (w : Life) :
    Prop extends Checkpointing cfg.workspaceId operationId generation w where
  unclaimed : ∀ sandboxId workerHost containerName createdAt expiresAt r,
    claimWorkspace w.pool.shared.host.db cfg.workspaceId sandboxId workerHost containerName createdAt
      expiresAt ≠ .ok r
  exclusive : ∀ (t : RetireTask) turn, t.locks = true →
    retireTaskStep cfg w.pool.shared turn t = none
  commits : ∀ generation' revisionId,
    w.pool.shared.host.holder = some (.checkpointDone operationId generation' revisionId) →
    ∀ (store : Store OperationInput OperationResult) now, store.toDb = w.pool.shared.host.db →
    (∀ r ∈ store.revisions, r.id = revisionId →
      r.workspaceId = cfg.workspaceId ∧ r.snapshotId = revisionId) →
    ∃ r store', Sql.commitRevision cfg.workspaceId operationId revisionId generation'
      (.revision revisionId) now store = .ok r store' ∧
        Sql.Committed cfg.workspaceId operationId revisionId store'
  ends : ∀ generation' revisionId,
    w.pool.shared.host.holder = some (.checkpointDone operationId generation' revisionId) →
    ∀ turn w', Life.step cfg w (.serve (.env (.backend (.holder turn)))) = some w' →
      Commits cfg.workspaceId operationId revisionId turn.now w w'

section Checkpointing

variable {cfg : RetireSettings} {ws operationId : String} {generation : ℕ} {claims : Prop}
  {s s' : Retirement} {w w' : Life} {turn : Turn}

/-- The coroutines beside the holder of the lock. -/
theorem retireTaskStep_beside (h : RetirementOk cfg.workspaceId s) (hheld : s.host.holder ≠ none)
    {t t' : RetireTask} (hstep : retireTaskStep cfg s turn t = some (s', t')) :
    Beside cfg.workspaceId True s.host s'.host := by
  have hworks {t : Task} {r : Host × Task} (hlocks : t.locks = false)
      (hr : taskStep cfg.toSettings s.host turn t = some r) : Beside cfg.workspaceId True s.host r.1 :=
    (taskStep_works h.host hlocks hr).toBeside.mono fun _ => trivial
  cases t with
  | backend t =>
    rw [retireTaskStep] at hstep
    split at hstep
    · cases hstep
    · obtain ⟨r, hr, heq⟩ := Option.map_eq_some_iff.mp hstep
      obtain ⟨rfl, -⟩ := Prod.mk.inj heq
      cases hlocks : t.locks with
      | true => exact absurd (lockStep_advances h.host hlocks hr).1 hheld
      | false => exact hworks hlocks hr
  | releaseRemove sandboxId =>
    obtain ⟨r, hr, heq⟩ := Option.map_eq_some_iff.mp hstep
    obtain ⟨rfl, -⟩ := Prod.mk.inj heq
    exact hworks rfl hr
  | releaseRemoved sandboxId =>
    rw [retireTaskStep] at hstep
    obtain ⟨r, hr, heq⟩ := Option.map_eq_some_iff.mp hstep
    obtain ⟨rfl, -⟩ := Prod.mk.inj heq
    have hw : Works cfg.workspaceId False (fun _ => False) (fun _ => False) s.host r.1 :=
      (taskStep_works h.host rfl hr).idle fun he => he rfl
    obtain ⟨hb, hsame, -⟩ := release_beside cfg False (s := { s with host := r.1 }) hw.ledger
    exact (hw.trans_beside hb hsame).toBeside.mono False.elim
  | retireLock =>
    rw [retireTaskStep] at hstep
    split at hstep
    · cases hstep
    · rename_i hfree
      exact absurd hfree (by simp [Option.isSome_iff_ne_none, hheld])

/-- The events beside the holder of the lock. -/
theorem retireEventStep_beside (h : RetirementOk cfg.workspaceId s) (hheld : s.host.holder ≠ none)
    {e : RetireEvent} (hother : ∀ turn, e ≠ .backend (.holder turn)) {ts : List RetireTask}
    (hstep : retireEventStep cfg s e = some (s', ts)) :
    Beside cfg.workspaceId True s.host s'.host := by
  have hkeep : Beside cfg.workspaceId True s.host s.host :=
    .of_db h.host.ledger rfl rfl (fun _ h => h) rfl rfl
  cases e with
  | backend e =>
    obtain ⟨r, hr, heq⟩ := Option.map_eq_some_iff.mp hstep
    obtain ⟨rfl, -⟩ := Prod.mk.inj heq
    exact (eventStep_begins h.host
      (fun turn he => hother turn (congrArg _ he)) hr).toBeside.mono fun _ => trivial
  | createWorkspace volumeName =>
    rw [retireEventStep] at hstep
    split at hstep
    · cases hstep
    · rename_i db row hcreate
      obtain ⟨rfl, -⟩ := Prod.mk.inj (Option.some.inj hstep)
      exact createWorkspace_beside h.host.ledger hcreate
  | release =>
    rw [retireEventStep] at hstep
    split at hstep
    · cases hstep
    · split at hstep
      · obtain ⟨rfl, -⟩ := Prod.mk.inj (Option.some.inj hstep)
        exact (release_beside cfg True h.host.ledger).1
      · split_ifs at hstep
        obtain ⟨rfl, -⟩ := Prod.mk.inj (Option.some.inj hstep)
        exact hkeep
  | retire =>
    obtain ⟨row, -, hr⟩ := Option.bind_eq_some_iff.mp hstep
    split at hr
    · obtain ⟨rfl, -⟩ := Prod.mk.inj (Option.some.inj hr)
      exact hkeep
    · cases hr
  | retirer turn =>
    obtain ⟨stage, hstage, -⟩ := Option.map_eq_some_iff.mp hstep
    exact absurd (h.retiring stage hstage).1 hheld
  | tick now =>
    rw [retireEventStep] at hstep
    split at hstep
    · obtain ⟨rfl, -⟩ := Prod.mk.inj (Option.some.inj hstep)
      exact hkeep
    · cases hstep

theorem Checkpointing.beside (h : Checkpointing ws operationId generation w)
    (hl : Ledger ws w'.pool.shared.host.db)
    (hb : Beside ws claims w.pool.shared.host w'.pool.shared.host) (hserved : w'.booting = none) :
    Checkpointing ws operationId generation w' := by
  obtain ⟨c, hc, hid⟩ := h.held
  obtain ⟨row, hrow, hstatus, -, hgeneration⟩ := h.row
  obtain ⟨row', hrow', hr⟩ := hb.row row hrow
  obtain ⟨hstatus', hgeneration'⟩ := hr.busy (by rw [hstatus]; rfl)
  refine ⟨⟨c, hb.holder.trans hc, hid⟩, hserved, row', hrow', hstatus'.trans hstatus,
    hl.idle hrow' (by rw [hstatus', hstatus]; decide), hgeneration'.trans hgeneration⟩

/-- **The turn that commits is not turned away**: its Workspace is committed with the revision. -/
theorem Checkpointing.commits (hok : LifeOk cfg.workspaceId w)
    (h : Checkpointing cfg.workspaceId operationId generation w) {g : ℕ} {revisionId : String}
    {now : ℤ}
    (hc : w.pool.shared.host.holder = some (.checkpointDone operationId g revisionId))
    (hhost : w'.pool.shared.host =
      checkpointDone cfg.toSettings w.pool.shared.host operationId g revisionId now) :
    Commits cfg.workspaceId operationId revisionId now w w' := by
  obtain ⟨row, hrow, hstatus, -, -⟩ := h.row
  obtain ⟨row', hrow', -, hg, hhas, -⟩ := hok.served.host.holds _ hc
  obtain rfl := Option.some.inj (hrow.symm.trans hrow')
  obtain ⟨db, hcommit⟩ := commitRevision_succeeds hok.served.host.ledger hrow hstatus hg hhas
    revisionId (.revision revisionId) now
  have hdb : w'.pool.shared.host.db = db := by rw [hhost, checkpointDone, hcommit]
  have hu := commitRevision_updated hcommit
  obtain ⟨o, ho, hoid, -⟩ := hhas
  obtain ⟨f, hf, hsame, -, hsucceeded⟩ := hu.operations
  refine ⟨⟨row, hrow, ?_⟩, ⟨f o, ?_, (hsame o).id.trans hoid, hsucceeded o hoid⟩⟩
  · rw [hdb, hu.workspaces]
    exact Db.putWorkspace_workspaces ..
  · rw [hdb, hf]
    exact List.mem_map_of_mem ho

/-- **A turn of the checkpoint itself**: it goes on, commits or rolls back. -/
theorem Checkpointing.own (hok : LifeOk cfg.workspaceId w)
    (h : Checkpointing cfg.workspaceId operationId generation w) {host : Host} {ts : List Task}
    (hstep : eventStep cfg.toSettings w.pool.shared.host (.holder turn) = some (host, ts))
    (hhost : w'.pool.shared.host = host) (hserved : w'.booting = none) (a : LifeAction) :
    Checkpointing cfg.workspaceId operationId generation w' ∨
      Ended cfg.workspaceId operationId w w' a := by
  obtain ⟨c, hc, hid⟩ := h.held
  obtain ⟨row, hrow, hstatus, hidle, hgeneration⟩ := h.row
  obtain ⟨c', hc', hstep⟩ := Option.bind_eq_some_iff.mp hstep
  obtain rfl := Option.some.inj (hc.symm.trans hc')
  obtain ⟨row', hrow', hcok⟩ := hok.served.host.holds c hc
  obtain rfl := Option.some.inj (hrow.symm.trans hrow')
  cases c with
  | checkpointRun id g =>
    obtain rfl : id = operationId := Option.some.inj hid
    obtain ⟨m, hm, heq⟩ := Option.map_eq_some_iff.mp hstep
    obtain ⟨rfl, -⟩ := Prod.mk.inj heq
    have hnext : m.db = w.pool.shared.host.db ∧ ∃ c, m.holder = some c ∧ c.checkpoints = some id := by
      rw [checkpointRun] at hm
      split_ifs at hm
      all_goals
        obtain rfl := Option.some.inj hm
        exact ⟨rfl, _, rfl, rfl⟩
    exact .inl ⟨hhost ▸ hnext.2, hserved, row, by rw [hhost, hnext.1, hrow], hstatus, hidle,
      hgeneration⟩
  | checkpointDone id g revisionId =>
    obtain rfl : id = operationId := Option.some.inj hid
    obtain ⟨rfl, -⟩ := Prod.mk.inj (Option.some.inj hstep)
    exact .inr (.committed a revisionId turn.now (h.commits hok hc hhost))
  | checkpointFail id error =>
    obtain rfl : id = operationId := Option.some.inj hid
    obtain ⟨-, o, ho, hoid, -⟩ := hcok
    obtain ⟨rfl, -⟩ := Prod.mk.inj (Option.some.inj hstep)
    have hu := endOperation_updated w.pool.shared.host.db id .failed none (some error) turn.now
    have hl := hok.served.host.ledger.updated hu fun he => (by cases he)
    have hrow₁ := (congrFun hu.workspaces cfg.workspaceId).trans hrow
    have hmove := transitionWorkspace_eq hrow₁ (show row.status ∈ [.checkpointing] from
      List.mem_singleton.mpr hstatus) hidle .detachedDirty turn.now
    have hdb : w'.pool.shared.host.db = (endOperation w.pool.shared.host.db id .failed none
        (some error) turn.now).putWorkspace cfg.workspaceId (row.move .detachedDirty turn.now) := by
      rw [hhost, checkpointFail]
      simp only [transitionOrKeep, hmove, Except.map, suppress]
    obtain ⟨f, hf, hsame, -, hfailed⟩ := hu.operations
    refine .inr (.rolledBack a row turn.now hrow (by rw [hdb]; exact Db.putWorkspace_workspaces ..)
      ⟨f o, ?_, (hsame o).id.trans hoid, hfailed o hoid⟩)
    rw [hdb]
    exact hf ▸ List.mem_map_of_mem ho
  | _ => cases hid

/-- **A step while a checkpoint is under way.** -/
theorem Checkpointing.step (hok : LifeOk cfg.workspaceId w)
    (h : Checkpointing cfg.workspaceId operationId generation w) {a : LifeAction}
    (hstep : w.step cfg a = some w') : Checkpointing cfg.workspaceId operationId generation w' ∨
      Ended cfg.workspaceId operationId w w' a := by
  have hok' := hok.step hstep
  have hheld : w.pool.shared.host.holder ≠ none := by
    obtain ⟨c, hc, -⟩ := h.held
    rw [hc]
    exact Option.some_ne_none c
  cases a with
  | serve a =>
    rw [Life.step, if_pos h.served] at hstep
    obtain ⟨pool, hpool, rfl⟩ := Option.map_eq_some_iff.mp hstep
    cases a with
    | task i turn =>
      obtain ⟨t, s, t', -, hact, rfl⟩ := Pool.step_task.mp hpool
      exact .inl (h.beside hok'.served.host.ledger (retireTaskStep_beside hok.served hheld hact) rfl)
    | env e =>
      obtain ⟨s, ts, henv, rfl⟩ := Pool.step_env.mp hpool
      by_cases hown : ∃ turn, e = .backend (.holder turn)
      · obtain ⟨turn, rfl⟩ := hown
        obtain ⟨r, hr, heq⟩ := Option.map_eq_some_iff.mp henv
        obtain ⟨rfl, -⟩ := Prod.mk.inj heq
        exact h.own hok hr rfl rfl _
      · exact .inl (h.beside hok'.served.host.ledger (retireEventStep_beside hok.served hheld
          (fun turn he => hown ⟨turn, he⟩) henv) rfl)
  | crash taken kept => exact .inr (.crashed taken kept)
  | write changes =>
    rw [Life.step, Life.mounted, h.served] at hstep
    cases hstep
  | boot turn =>
    rw [Life.step, h.served] at hstep
    cases hstep

theorem Checkpointing.undisturbed (hok : LifeOk cfg.workspaceId w)
    (h : Checkpointing cfg.workspaceId operationId generation w) :
    Undisturbed cfg operationId generation w := by
  obtain ⟨row, hrow, hstatus, hidle, hgeneration⟩ := h.row
  obtain ⟨c, hc, hid⟩ := h.held
  refine ⟨h, fun sandboxId workerHost containerName createdAt expiresAt r hclaim => ?_,
    fun t turn hlocks => ?_, fun g revisionId hdone store now hdb hunique => ?_,
    fun g revisionId hdone turn w' hstep => ?_⟩
  · obtain ⟨db', row', sandbox⟩ := r
    obtain ⟨r, hr, -, hmountable, -⟩ := claimWorkspace_ok hclaim
    obtain rfl := Option.some.inj (hrow.symm.trans hr)
    rw [hstatus] at hmountable
    cases hmountable
  · by_contra hne
    obtain ⟨r, hr⟩ := Option.ne_none_iff_exists'.mp hne
    cases t with
    | backend t =>
      rw [retireTaskStep] at hr
      split at hr
      · cases hr
      · obtain ⟨r', hr', -⟩ := Option.map_eq_some_iff.mp hr
        have hfree := (lockStep_advances hok.served.host hlocks hr').1
        rw [hc] at hfree
        cases hfree
    | retireLock =>
      rw [retireTaskStep, hc] at hr
      simp at hr
    | releaseRemove sandboxId => cases hlocks
    | releaseRemoved sandboxId => cases hlocks
  · obtain ⟨row', hrow', -, hg, hhas, -⟩ := hok.served.host.holds _ hdone
    obtain rfl := Option.some.inj (hrow.symm.trans hrow')
    obtain ⟨db, hcommit⟩ := commitRevision_succeeds hok.served.host.ledger hrow hstatus hg hhas
      revisionId (.revision revisionId) now
    rw [← hdb] at hcommit
    obtain ⟨operation, store', hreturns, -⟩ := Sql.commitRevision_returns hcommit hunique
    refine ⟨_, store', hreturns, ?_⟩
    have hatomic := Sql.commitRevision_atomic store cfg.workspaceId operationId revisionId g
      (.revision revisionId) now
    rw [hreturns] at hatomic
    exact hatomic
  · rw [Life.step, if_pos h.served] at hstep
    obtain ⟨pool, hpool, rfl⟩ := Option.map_eq_some_iff.mp hstep
    obtain ⟨s, ts, henv, rfl⟩ := Pool.step_env.mp hpool
    obtain ⟨r, hr, heq⟩ := Option.map_eq_some_iff.mp henv
    obtain ⟨rfl, -⟩ := Prod.mk.inj heq
    obtain ⟨c', hc', hturn⟩ := Option.bind_eq_some_iff.mp hr
    obtain rfl := Option.some.inj (hdone.symm.trans hc')
    exact h.commits hok hdone (congrArg Prod.fst (Option.some.inj hturn)).symm

/-- **A run while a checkpoint is under way.** -/
theorem Checkpointing.run (hok : LifeOk cfg.workspaceId w)
    (h : Checkpointing cfg.workspaceId operationId generation w) (as : List LifeAction)
    (hrun : Machine.run (Life.step cfg) w as = some w') :
    Undisturbed cfg operationId generation w' ∨ ∃ xs a ys m m', as = xs ++ a :: ys ∧
      Machine.run (Life.step cfg) w xs = some m ∧ Undisturbed cfg operationId generation m ∧
        Life.step cfg m a = some m' ∧ Ended cfg.workspaceId operationId m m' a := by
  induction as generalizing w with
  | nil =>
    obtain rfl := Option.some.inj hrun
    exact .inl (h.undisturbed hok)
  | cons a as ih =>
    obtain ⟨m, hstep, hrest⟩ := Machine.run_cons.mp hrun
    rcases h.step hok hstep with hnext | hended
    · refine (ih (hok.step hstep) hnext hrest).imp_right fun hlater => ?_
      obtain ⟨xs, b, ys, n, n', rfl, hxs, hn, hb, hended⟩ := hlater
      exact ⟨a :: xs, b, ys, n, n', rfl, Machine.run_cons.mpr ⟨m, hstep, hxs⟩, hn, hb, hended⟩
    · exact .inr ⟨[], a, as, w, m, rfl, rfl, h.undisturbed hok, hstep, hended⟩

/-- A checkpoint that is rolled back is over. -/
theorem checkpointFail_over {cfg : Settings} {s : Host} {row row' : WorkspaceRecord}
    (hrow : s.db.workspaces cfg.workspaceId = some row) (hidle : row.activeSandboxId = none)
    {operationId error : String} {now : ℤ}
    (hrow' : (checkpointFail cfg s operationId error now).db.workspaces cfg.workspaceId = some row') :
    row'.status ≠ .checkpointing := by
  have hrow₁ := (congrFun (endOperation_updated s.db operationId .failed none (some error)
    now).workspaces cfg.workspaceId).trans hrow
  rw [checkpointFail] at hrow'
  dsimp only at hrow'
  by_cases hstatus : row.status = .checkpointing
  · have hmovable : row.status ∈ [.checkpointing] := List.mem_singleton.mpr hstatus
    rw [transitionOrKeep, transitionWorkspace_eq hrow₁ hmovable hidle] at hrow'
    obtain rfl := Option.some.inj ((Db.putWorkspace_workspaces ..).symm.trans hrow')
    exact fun he => by cases he
  · have hkept : transitionOrKeep cfg (endOperation s.db operationId .failed none (some error) now)
        [.checkpointing] .detachedDirty now =
          endOperation s.db operationId .failed none (some error) now := by
      rw [transitionOrKeep, transitionWorkspace, hrow₁]
      simp [hstatus, Except.map, suppress]
    rw [hkept] at hrow'
    obtain rfl := Option.some.inj (hrow₁.symm.trans hrow')
    exact hstatus

/-- A turn of `_checkpoint_workspace` that moves the row. -/
theorem checkpointBegin_held {cfg : Settings} {s : Host} {row row' : WorkspaceRecord}
    (hrow : s.db.workspaces cfg.workspaceId = some row)
    (hrow' : (checkpointBegin cfg s row turn).db.workspaces cfg.workspaceId = some row')
    (hwas : row.status ≠ .checkpointing) (hstatus : row'.status = .checkpointing) :
    ∃ operationId, (checkpointBegin cfg s row turn).holder =
      some (.checkpointRun operationId row.generation) := by
  have hkept {db : Tables} (h : db.workspaces cfg.workspaceId = some row)
      (h' : db.workspaces cfg.workspaceId = some row') : False := by
    obtain rfl := Option.some.inj (h.symm.trans h')
    exact hwas hstatus
  have hbegin := hrow'
  rw [checkpointBegin] at hrow'
  split at hrow'
  · exact (hkept hrow hrow').elim
  · rename_i hgo
    have hidle := of_not_not (not_or.mp hgo).1
    split at hrow'
    · exact (hkept hrow hrow').elim
    · rename_i db operation created hcreate
      have hrow₁ : db.workspaces cfg.workspaceId = some row := by
        rw [← hrow]
        exact congrFun (createOperation_frame hcreate).1 cfg.workspaceId
      split at hrow'
      · exact (hkept hrow₁ hrow').elim
      · rename_i hrun
        split at hrow'
        · exact absurd hstatus (checkpointFail_over (s := { s with db := db }) hrow₁ hidle hrow')
        · rename_i db₁ row₁ hmove
          obtain ⟨r, hr, -, -, rfl, rfl⟩ := transitionWorkspace_ok hmove
          obtain rfl := Option.some.inj (hrow₁.symm.trans hr)
          have hrow₂ : (db.putWorkspace cfg.workspaceId (row.move .checkpointing turn.now)).workspaces
              cfg.workspaceId = some (row.move .checkpointing turn.now) :=
            Db.putWorkspace_workspaces ..
          have hidle₂ : (row.move .checkpointing turn.now).activeSandboxId = none := hidle
          split at hrow'
          · exact absurd hstatus (checkpointFail_over hrow₂ hidle₂ hrow')
          · rename_i db₂ hupdate
            refine ⟨operation.id, ?_⟩
            rw [checkpointBegin, if_neg hgo, hcreate]
            dsimp only
            rw [if_neg hrun, hmove]
            dsimp only
            rw [hupdate]
            rfl

/-- **From the turn in which a Workspace gets to be checkpointed until it is committed or rolled
back, or the process ends, nothing claims it and nothing else takes its lock, its generation stays,
and the turn that commits the snapshot's revision does; and a commit writes everything or
nothing.** -/
theorem checkpoint_undisturbed (cfg : RetireSettings) (clock : ℤ) (as : List LifeAction) (w : Life)
    (hrun : Machine.run (Life.step cfg) (Life.init clock) as = some w) :
    (∀ i turn w', w.pool.tasks[i]? = some (.backend .checkpointLock) →
      Life.step cfg w (.serve (.task i turn)) = some w' → ∀ row row',
      w.pool.shared.host.db.workspaces cfg.workspaceId = some row →
      row.status ≠ .checkpointing →
      w'.pool.shared.host.db.workspaces cfg.workspaceId = some row' →
      row'.status = .checkpointing → ∃ c operationId,
        w'.pool.shared.host.holder = some c ∧ c.checkpoints = some operationId) ∧
    (∀ c operationId, w.pool.shared.host.holder = some c → c.checkpoints = some operationId →
      ∃ generation, ∀ bs w', Machine.run (Life.step cfg) w bs = some w' →
        Undisturbed cfg operationId generation w' ∨ ∃ xs a ys m m', bs = xs ++ a :: ys ∧
          Machine.run (Life.step cfg) w xs = some m ∧ Undisturbed cfg operationId generation m ∧
            Life.step cfg m a = some m' ∧ Ended cfg.workspaceId operationId m m' a) ∧
    ∀ (store : Store OperationInput OperationResult) operationId revisionId generation result now,
      match Sql.commitRevision cfg.workspaceId operationId revisionId generation result now store with
      | .ok _ store' => Sql.Committed cfg.workspaceId operationId revisionId store'
      | .error _ store' => store' = store := by
  have hok := lifeOk_run hrun
  refine ⟨fun i turn w' ht hstep row row' hrow hwas hrow' hstatus => ?_,
    fun c operationId hc hid => ?_, fun store operationId revisionId generation result now =>
    Sql.commitRevision_atomic ..⟩
  · rw [Life.step] at hstep
    split at hstep
    · obtain ⟨pool, hpool, rfl⟩ := Option.map_eq_some_iff.mp hstep
      obtain ⟨t, s, t', ht', hact, rfl⟩ := Pool.step_task.mp hpool
      obtain rfl := Option.some.inj (ht.symm.trans ht')
      have hact : retireTaskStep cfg w.pool.shared turn (.backend .checkpointLock) = some (s, t') :=
        hact
      rw [retireTaskStep] at hact
      split at hact
      · cases hact
      · obtain ⟨r, hr, heq⟩ := Option.map_eq_some_iff.mp hact
        obtain ⟨rfl, -⟩ := Prod.mk.inj heq
        obtain ⟨m, hm, rfl⟩ := Option.map_eq_some_iff.mp hr
        obtain ⟨-, ⟨hnone, -⟩ | ⟨row₁, hrow₁, rfl⟩⟩ := takeLock_cases hm
        · rw [hrow] at hnone
          cases hnone
        · obtain rfl := Option.some.inj (hrow.symm.trans hrow₁)
          obtain ⟨operationId, hheld⟩ := checkpointBegin_held hrow hrow' hwas hstatus
          exact ⟨_, operationId, hheld, rfl⟩
    · cases hstep
  · obtain ⟨row, hrow, hstatus⟩ : ∃ row, w.pool.shared.host.db.workspaces cfg.workspaceId = some row ∧
        row.status = .checkpointing := by
      obtain ⟨row, hrow, hcok⟩ := hok.served.host.holds c hc
      cases c with
      | checkpointRun _ _ | checkpointDone _ _ _ | checkpointFail _ _ => exact ⟨row, hrow, hcok.1⟩
      | _ => cases hid
    have hserved : w.booting = none := by
      by_contra hne
      rw [(hok.alone hne).1] at hc
      cases hc
    exact ⟨row.generation, fun bs w' hrun' => Checkpointing.run hok ⟨⟨c, hc, hid⟩, hserved, row, hrow,
      hstatus, hok.served.host.ledger.idle hrow (by rw [hstatus]; decide), rfl⟩ bs hrun'⟩

end Checkpointing

/-- The first checkpoint, up to the turn that commits. -/
def snapshotTaken : List LifeAction :=
  .serve (.env (.createWorkspace "agent-workspace-1")) ::
    (firstSession.take 16).map (fun a => .serve (beside a))

/-- The snapshot has been taken, with this revision. -/
def Critical.taken (revisionId : String) : Critical → Bool
  | .checkpointDone _ _ taken => taken = revisionId
  | _ => false

theorem eq_checkpointDone {c : Critical} {revisionId : String} (h : c.taken revisionId = true) :
    ∃ operationId generation, c = .checkpointDone operationId generation revisionId := by
  cases c with
  | checkpointDone operationId generation taken =>
    exact ⟨operationId, generation, by rw [of_decide_eq_true h]⟩
  | _ => cases h

theorem checkpoint_undisturbed_first : ∃ w w' operationId generation,
    Machine.run (Life.step sampleRetireSettings) (Life.init 0) snapshotTaken = some w ∧
    Undisturbed sampleRetireSettings operationId generation w ∧
    Life.step sampleRetireSettings w (.serve (.env (.backend (.holder (succeeds "" 10))))) =
      some w' ∧ Commits "workspace_1" operationId "rev_1" 10 w w' := by
  obtain ⟨w, hw, htest⟩ := (Option.any_eq_true _ _).mp
    (show (Machine.run (Life.step sampleRetireSettings) (Life.init 0) snapshotTaken).any (fun w =>
      w.pool.shared.host.holder.any (Critical.taken "rev_1") &&
        (Life.step sampleRetireSettings w
          (.serve (.env (.backend (.holder (succeeds "" 10)))))).isSome) = true by decide +kernel)
  obtain ⟨htaken, hturn⟩ := Bool.and_eq_true_iff.mp htest
  obtain ⟨c, hc, hrevision⟩ := (Option.any_eq_true _ _).mp htaken
  obtain ⟨operationId, g, rfl⟩ := eq_checkpointDone hrevision
  obtain ⟨w', hw'⟩ := Option.isSome_iff_exists.mp hturn
  obtain ⟨generation, hbs⟩ := (checkpoint_undisturbed sampleRetireSettings 0 snapshotTaken w hw).2.1
    _ operationId hc rfl
  have hundisturbed : Undisturbed sampleRetireSettings operationId generation w := by
    refine (hbs [] w rfl).resolve_right fun hlater => ?_
    obtain ⟨xs, a, ys, -, -, hnil, -⟩ := hlater
    exact absurd hnil.symm (by simp)
  exact ⟨w, w', operationId, generation, hw, hundisturbed, hw',
    hundisturbed.ends g "rev_1" hc _ w' hw'⟩

end CodexGateway.Manager
