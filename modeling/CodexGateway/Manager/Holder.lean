import CodexGateway.Manager.Ledger

/-!
# Manager/Holder — what a turn under the lock of the Workspace does

`Critical.Ok` is what the coroutine that holds the lock relies on while the others run, `Drives`
the operation that it is going to end.  `Advances` is what one of its turns does: the ledger is
kept, an operation that it drives is ended or still driven, and a restore succeeds only where the
volume has the revision.
-/

namespace CodexGateway.Manager

/-! ## What the holder relies on -/

/-- The operation of the key has this id. -/
def HasOp (workspaceId : String) (db : Tables) (operationId : String) (k : OpKey) : Prop :=
  ∃ o ∈ db.operations, o.id = operationId ∧ Keyed workspaceId o k

/-- The volume has the content of the revision. -/
def HasRevision (s : Host) (revisionId : String) : Prop :=
  ∃ content, s.snapshots revisionId = some content ∧ s.Contains content

/-- What the coroutine with the lock relies on. -/
def Critical.Ok (workspaceId : String) (s : Host) (row : WorkspaceRecord) : Critical → Prop
  | .prepareExists _ current | .prepareDecide _ current _ =>
      current.headRevision = row.headRevision ∧
        (current.status = .remoteOnly → row.status ≠ .detachedClean)
  | .prepareEnsure _ => True
  | .restoreExists _ revisionId | .restoreRemove _ revisionId | .restoreEnsure _ revisionId
  | .restoreBegin _ revisionId =>
      row.headRevision = some revisionId ∧ row.status ≠ .detachedClean
  | .restoreRun _ operationId revisionId =>
      row.status = .restoring ∧ row.headRevision = some revisionId ∧
        HasOp workspaceId s.db operationId (.restore revisionId)
  | .restoreDone _ operationId revisionId =>
      row.status = .restoring ∧ row.headRevision = some revisionId ∧
        HasOp workspaceId s.db operationId (.restore revisionId) ∧ HasRevision s revisionId
  | .restoreUndo _ _ _ | .restoreFail _ _ _ => row.status ≠ .detachedClean
  | .checkpointRun operationId generation =>
      row.status = .checkpointing ∧ row.generation = generation ∧
        HasOp workspaceId s.db operationId (.checkpoint generation)
  | .checkpointDone operationId generation revisionId =>
      row.status = .checkpointing ∧ row.generation = generation ∧
        HasOp workspaceId s.db operationId (.checkpoint generation) ∧ HasRevision s revisionId
  | .checkpointFail operationId _ =>
      row.status = .checkpointing ∧
        HasOp workspaceId s.db operationId (.checkpoint row.generation)
  | .cleanupRemove | .cleanupRemoved => True

/-- The caller has asked for the operation. -/
def Caller.Asks (operationId : String) : Caller → Prop
  | .create _ => False
  | .restoreRequested id => operationId = id

/-- **The coroutine with the lock is going to end the operation.**  A requested restore is driven by
its own coroutine only while that is on its way to the revision that was asked for. -/
def Critical.Drives (workspaceId : String) (o : Operation) : Critical → Prop
  | .prepareExists caller current | .prepareDecide caller current _ =>
      caller.Asks o.id ∧ current.status = .remoteOnly ∧
        ∃ revisionId, current.headRevision = some revisionId ∧
          Keyed workspaceId o (.restore revisionId)
  | .restoreExists caller revisionId | .restoreRemove caller revisionId
  | .restoreEnsure caller revisionId | .restoreBegin caller revisionId =>
      caller.Asks o.id ∧ Keyed workspaceId o (.restore revisionId)
  | .restoreRun _ operationId _ | .restoreDone _ operationId _ | .restoreUndo _ operationId _
  | .restoreFail _ operationId _ | .checkpointRun operationId _ | .checkpointDone operationId _ _
  | .checkpointFail operationId _ => o.id = operationId
  | .prepareEnsure _ | .cleanupRemove | .cleanupRemoved => False

/-- The holder of the lock is at work on the operation. -/
def Host.Drives (workspaceId : String) (s : Host) (o : Operation) : Prop :=
  ∃ c, s.holder = some c ∧ c.Drives workspaceId o

/-- **The invariant of a host**: the ledger, and what the holder of the lock relies on. -/
structure HostOk (workspaceId : String) (s : Host) : Prop where
  ledger : Ledger workspaceId s.db
  holds : ∀ c, s.holder = some c → ∃ row, s.db.workspaces workspaceId = some row ∧
    c.Ok workspaceId s row

/-- The volume of a clean Workspace has the head, unless it is being removed. -/
def Clean (workspaceId : String) (s : Host) : Prop :=
  ∀ row, s.db.workspaces workspaceId = some row → row.status = .detachedClean →
    s.holder ≠ some .cleanupRemoved → ∀ revisionId, row.headRevision = some revisionId →
      HasRevision s revisionId

/-- The volume of the detached or running Workspace has the revision. -/
def Materialised (workspaceId : String) (s : Host) (revisionId : String) : Prop :=
  ∃ row, s.db.workspaces workspaceId = some row ∧
    (row.status = .detachedClean ∨ row.status = .running) ∧ HasRevision s revisionId

/-- A dirty Workspace stays so, or the operation that saves it is driven. -/
def StaysDirty (workspaceId : String) (drives : Operation → Prop) (s s' : Host) : Prop :=
  ∀ row, s.db.workspaces workspaceId = some row → row.status = .detachedDirty →
    (∃ row', s'.db.workspaces workspaceId = some row' ∧ row'.status = .detachedDirty ∧
      row'.generation = row.generation) ∨
    ∀ o, Keyed workspaceId o (.checkpoint row.generation) → drives o

/-- **What a turn does**, of a coroutine that drives some operations. -/
structure Advances (workspaceId : String) (drives : Operation → Prop) (s s' : Host) : Prop where
  ok : HostOk workspaceId s'
  persists : Persists s.db s'.db
  clean : Clean workspaceId s → Clean workspaceId s'
  dirty : StaysDirty workspaceId drives s s'
  settles : ∀ o ∈ incompleteOperations s'.db, s'.Drives workspaceId o ∨
    o ∈ incompleteOperations s.db ∧ ¬ drives o
  restores : ∀ o' ∈ s'.db.operations, o'.status = .succeeded → ∀ revisionId,
    Keyed workspaceId o' (.restore revisionId) → Materialised workspaceId s' revisionId ∨
      ∃ o ∈ s.db.operations, o.status = .succeeded ∧ SameOp o o'

section Advances

variable {ws : String} {s m s' : Host} {row : WorkspaceRecord}

theorem HasOp.persists {db db' : Tables} {operationId : String} {k : OpKey}
    (h : HasOp ws db operationId k) (hp : Persists db db') : HasOp ws db' operationId k := by
  obtain ⟨o, ho, hid, hk⟩ := h
  obtain ⟨o', ho', hsame⟩ := hp o ho
  exact ⟨o', ho', hsame.id.trans hid, (hsame.keyed_iff k).mpr hk⟩

theorem HasOp.keyed {db : Tables} {operationId : String} {k : OpKey}
    (h : HasOp ws db operationId k) (hl : Ledger ws db) {o : Operation} (ho : o ∈ db.operations)
    (hid : o.id = operationId) : Keyed ws o k := by
  obtain ⟨p, hp, hpid, hk⟩ := h
  exact hl.unique_id hp ho (hpid.trans hid.symm) ▸ hk

theorem HasRevision.grow {revisionId : String} (h : HasRevision s revisionId) (hgrows : Grows s s')
    (hsnapshots : s'.snapshots = s.snapshots) : HasRevision s' revisionId := by
  obtain ⟨content, hcontent, hcontains⟩ := h
  exact ⟨content, hsnapshots ▸ hcontent, hgrows content hcontains⟩

theorem StaysDirty.same {drives : Operation → Prop}
    (h : s'.db.workspaces ws = s.db.workspaces ws) : StaysDirty ws drives s s' :=
  fun row hrow hdirty => .inl ⟨row, h.trans hrow, hdirty, rfl⟩

/-- A Workspace that is not dirty. -/
theorem StaysDirty.of_status {drives : Operation → Prop} (hrow : s.db.workspaces ws = some row)
    (hstatus : row.status ≠ .detachedDirty) : StaysDirty ws drives s s' := by
  intro r hr hdirty
  obtain rfl := Option.some.inj (hrow.symm.trans hr)
  exact absurd hdirty hstatus

/-- The tables are as they were. -/
theorem Advances.same_db {drives : Operation → Prop} (hl : Ledger ws s.db) (hdb : s'.db = s.db)
    (hholds : ∀ c, s'.holder = some c → ∃ row, s.db.workspaces ws = some row ∧ c.Ok ws s' row)
    (hclean : Clean ws s → Clean ws s') (hdrives : ∀ o, drives o → s'.Drives ws o) :
    Advances ws drives s s' where
  ok := ⟨hdb ▸ hl, hdb ▸ hholds⟩
  persists := .of_eq (by rw [hdb])
  clean := hclean
  dirty := .same (by rw [hdb])
  settles := fun o ho => by
    by_cases hd : drives o
    · exact .inl (hdrives o hd)
    · exact .inr ⟨hdb ▸ ho, hd⟩
  restores := fun o' ho' hsucceeded r _ => .inr ⟨o', hdb ▸ ho', hsucceeded, .refl o'⟩

/-- The rows are written first; the operations are as they were. -/
theorem Advances.of_rows {drives : Operation → Prop} (h : Advances ws drives m s')
    (hoperations : m.db.operations = s.db.operations) (hclean : Clean ws s → Clean ws m)
    (hdirty : StaysDirty ws drives s s') : Advances ws drives s s' where
  ok := h.ok
  persists := (Persists.of_eq hoperations).trans h.persists
  clean := fun hc => h.clean (hclean hc)
  dirty := hdirty
  settles := fun o ho => (h.settles o ho).imp_right fun ho' => by
    rwa [incompleteOperations, hoperations] at ho'
  restores := fun o' ho' hsucceeded r hr => (h.restores o' ho' hsucceeded r hr).imp_right
    fun hold => hoperations ▸ hold

/-- A Workspace that is not clean need not have its head in the volume. -/
theorem clean_of_status (hrow : s.db.workspaces ws = some row)
    (hstatus : row.status ≠ .detachedClean) : Clean ws s := by
  intro r hr hclean
  obtain rfl := Option.some.inj (hrow.symm.trans hr)
  exact absurd hclean hstatus

/-- The volume of a clean Workspace is left alone. -/
theorem Clean.congr (h : Clean ws s) (hworkspaces : s'.db.workspaces = s.db.workspaces)
    (hgrows : Grows s s') (hsnapshots : s'.snapshots = s.snapshots)
    (hholder : s.holder ≠ some .cleanupRemoved ∨ s'.holder = s.holder) : Clean ws s' := by
  intro r hr hclean hremoved revisionId hrev
  refine (h r (hworkspaces ▸ hr) hclean ?_ revisionId hrev).grow hgrows hsnapshots
  exact hholder.elim id fun he => he ▸ hremoved

/-- The coroutine waits again, and the tables are as they were. -/
theorem HostOk.hold {c c' : Critical} (h : HostOk ws s) (hheld : s.holder = some c)
    (hdb : m.db = s.db) (hok : ∀ row, s.db.workspaces ws = some row → c.Ok ws s row →
      c'.Ok ws m row)
    (hclean : Clean ws s → Clean ws (m.hold c')) (hdrives : ∀ o, c.Drives ws o → c'.Drives ws o) :
    Advances ws (c.Drives ws) s (m.hold c') := by
  refine .same_db h.ledger hdb (fun c'' hc'' => ?_) hclean fun o ho => ⟨c', rfl, hdrives o ho⟩
  obtain rfl : c' = c'' := Option.some.inj hc''
  obtain ⟨row, hrow, hc⟩ := h.holds c hheld
  refine ⟨row, hrow, ?_⟩
  have hok' := hok row hrow hc
  cases c' <;> exact hok'

end Advances

/-! ## Rows -/

section Rows

variable {cfg : Settings} {db db' : Tables} {row row' : WorkspaceRecord} {now : ℤ}

theorem Ledger.transition {ws : String} {expected : List WorkspaceStatus} {status : WorkspaceStatus}
    (h : Ledger ws db) (hrunning : status ≠ .running)
    (hsaved : ∀ e ∈ expected, e.saved = true → status.saved = true)
    (hok : transitionWorkspace db ws expected status now = .ok (db', row')) : Ledger ws db' := by
  obtain ⟨row, hrow, hstatus, hidle, rfl, rfl⟩ := transitionWorkspace_ok hok
  have hnone : row.activeSandboxId = none := hidle.resolve_right hrunning
  refine h.put hrow ⟨?_, Nat.le_refl _, fun _ hs => hsaved _ hstatus hs⟩
  simp [WorkspaceRecord.move, hnone, hrunning]

theorem Ledger.transitionOrKeep {expected : List WorkspaceStatus} {status : WorkspaceStatus}
    (h : Ledger cfg.workspaceId db) (hrunning : status ≠ .running)
    (hsaved : ∀ e ∈ expected, e.saved = true → status.saved = true) (now : ℤ) :
    Ledger cfg.workspaceId (transitionOrKeep cfg db expected status now) := by
  rw [Manager.transitionOrKeep]
  cases hok : transitionWorkspace db cfg.workspaceId expected status now with
  | error e => exact h
  | ok r => exact h.transition hrunning hsaved hok

/-- A transition writes one row and no operation. -/
theorem transitionWorkspace_operations {ws : String} {expected : List WorkspaceStatus}
    {status : WorkspaceStatus}
    (hok : transitionWorkspace db ws expected status now = .ok (db', row')) :
    db'.operations = db.operations := by
  obtain ⟨-, -, -, -, -, rfl⟩ := transitionWorkspace_ok hok
  rfl

theorem transitionOrKeep_operations (cfg : Settings) (db : Tables) (expected : List WorkspaceStatus)
    (status : WorkspaceStatus) (now : ℤ) :
    (transitionOrKeep cfg db expected status now).operations = db.operations := by
  rw [transitionOrKeep]
  cases hok : transitionWorkspace db cfg.workspaceId expected status now with
  | error e => rfl
  | ok r => exact transitionWorkspace_operations hok

/-- The row is in the new status, or it was in no expected one. -/
theorem transitionOrKeep_row (h : Ledger cfg.workspaceId db) {expected : List WorkspaceStatus}
    (hrow : db.workspaces cfg.workspaceId = some row) (hrunning : .running ∉ expected)
    (status : WorkspaceStatus) (now : ℤ) :
    row.status ∈ expected ∧ (transitionOrKeep cfg db expected status now).workspaces cfg.workspaceId =
        some (row.move status now) ∨
      row.status ∉ expected ∧ transitionOrKeep cfg db expected status now = db := by
  by_cases hstatus : row.status ∈ expected
  · have hidle : row.activeSandboxId = none := h.idle hrow fun he => hrunning (he ▸ hstatus)
    rw [transitionOrKeep, transitionWorkspace_eq hrow hstatus hidle]
    exact .inl ⟨hstatus, Db.putWorkspace_workspaces ..⟩
  · rw [transitionOrKeep, transitionWorkspace, hrow]
    exact .inr ⟨hstatus, by simp [hstatus, Except.map, suppress]⟩

/-- A dirty Workspace is in no expected status. -/
theorem transitionOrKeep_dirty (h : Ledger cfg.workspaceId db) {expected : List WorkspaceStatus}
    (hrow : db.workspaces cfg.workspaceId = some row) (hdirty : row.status = .detachedDirty)
    (hexpected : .detachedDirty ∉ expected) (hrunning : .running ∉ expected)
    (status : WorkspaceStatus) (now : ℤ) :
    (transitionOrKeep cfg db expected status now).workspaces cfg.workspaceId = some row := by
  rcases transitionOrKeep_row h hrow hrunning status now with ⟨hwas, -⟩ | ⟨-, hkept⟩
  · exact absurd (hdirty ▸ hwas) hexpected
  · rw [hkept, hrow]

end Rows

/-! ## The turns of `_prepare_workspace` -/

section Prepare

variable {cfg : Settings} {s : Host} {row : WorkspaceRecord} {drives : Operation → Prop}

theorem prepareReturn_advances (hl : Ledger cfg.workspaceId s.db) (caller : Caller)
    (hdrives : ∀ o, ¬ drives o) (hholder : s.holder ≠ some .cleanupRemoved) :
    Advances cfg.workspaceId drives s (prepareReturn cfg s caller).1 := by
  cases caller
  all_goals
    exact .same_db hl rfl (fun c hc => by cases hc)
      (fun hc => hc.congr rfl (fun _ h => h) rfl (.inl hholder)) fun o ho => absurd ho (hdrives o)

theorem prepareRaise_advances (hl : Ledger cfg.workspaceId s.db) (error : String) (now : ℤ)
    (caller : Caller) (hdrives : ∀ o, drives o → caller.Asks o.id)
    (hholder : s.holder ≠ some .cleanupRemoved) :
    Advances cfg.workspaceId drives s (prepareRaise s error now caller).1 := by
  cases caller with
  | create sandboxId =>
    exact .same_db hl rfl (fun c hc => by cases hc)
      (fun hc => hc.congr rfl (fun _ h => h) rfl (.inl hholder)) fun o ho => absurd (hdrives o ho) id
  | restoreRequested operationId =>
    have hu := endOperation_updated s.db operationId .failed none (some error) now
    refine ⟨⟨hl.updated hu fun he => (by cases he), fun c hc => by cases hc⟩, hu.persists,
      fun hc => hc.congr hu.workspaces (fun _ h => h) rfl (.inl hholder),
      .same (congrFun hu.workspaces _), fun o ho => ?_, fun o' ho' hsucceeded r _ => ?_⟩
    · rcases hu.incomplete ho with ⟨hold, hid⟩ | ⟨-, hfailed⟩
      · exact .inr ⟨hold, fun hd => hid (hdrives o hd)⟩
      · cases hfailed
    · rcases hu.succeeded ho' hsucceeded with hold | ⟨-, hfailed⟩
      · exact .inr hold
      · cases hfailed

theorem prepareRemote_advances (hl : Ledger cfg.workspaceId s.db) {current : WorkspaceRecord}
    (hrow : s.db.workspaces cfg.workspaceId = some row) (hstatus : row.status ≠ .detachedClean)
    (hhead : current.headRevision = row.headRevision) (caller : Caller) (now : ℤ)
    (hdrives : ∀ o, drives o → caller.Asks o.id ∧
      ∃ r, current.headRevision = some r ∧ Keyed cfg.workspaceId o (.restore r))
    (hholder : s.holder ≠ some .cleanupRemoved) :
    Advances cfg.workspaceId drives s (prepareRemote cfg s caller current now).1 := by
  have hraise (error : String) : Advances cfg.workspaceId drives s
      (prepareRaise s error now caller).1 :=
    prepareRaise_advances hl error now caller (fun o ho => (hdrives o ho).1) hholder
  rw [prepareRemote]
  split
  · rename_i revisionId hrev
    split
    · refine .same_db hl rfl (fun c hc => ?_) (fun _ => clean_of_status hrow hstatus) fun o ho => ?_
      · obtain rfl := Option.some.inj hc
        exact ⟨row, hrow, hhead.symm.trans hrev, hstatus⟩
      · obtain ⟨hasks, r, hr, hkeyed⟩ := hdrives o ho
        obtain rfl := Option.some.inj (hrev.symm.trans hr)
        exact ⟨_, rfl, hasks, hkeyed⟩
    · exact hraise _
  · exact hraise _

theorem prepareDecide_advances (h : HostOk cfg.workspaceId s) {caller : Caller}
    {current : WorkspaceRecord} {volumeExists : Bool}
    (hheld : s.holder = some (.prepareDecide caller current volumeExists)) (now : ℤ) :
    Advances cfg.workspaceId
      ((Critical.prepareDecide caller current volumeExists).Drives cfg.workspaceId) s
      (prepareDecide cfg s caller current volumeExists now).1 := by
  obtain ⟨row, hrow, hhead, hremote⟩ := h.holds _ hheld
  have hholder : s.holder ≠ some .cleanupRemoved := by
    rw [hheld]
    exact fun he => by cases he
  rw [prepareDecide]
  by_cases hstatus : current.status = .remoteOnly
  · simp only [hstatus, ne_eq, not_true_eq_false, false_and, if_false]
    exact prepareRemote_advances h.ledger hrow (hremote hstatus) hhead caller now
      (fun o ho => ⟨ho.1, ho.2.2⟩) hholder
  · have hnone (o : Operation) : ¬ (Critical.prepareDecide caller current volumeExists).Drives
        cfg.workspaceId o := fun ho => hstatus ho.2.1
    have hraise (error : String) := prepareRaise_advances h.ledger error now caller
      (fun o ho => absurd ho (hnone o)) hholder
    simp only [ne_eq, hstatus, not_false_eq_true, true_and, if_true]
    split_ifs
    · split
      · exact hraise _
      · rename_i db current' htransition
        obtain ⟨r, hr, hwas, -, rfl, rfl⟩ := transitionWorkspace_ok htransition
        obtain rfl := Option.some.inj (hrow.symm.trans hr)
        have hrow' := Db.putWorkspace_workspaces s.db cfg.workspaceId (row.move .remoteOnly now)
        have hmoved := prepareRemote_advances (s := { s with db := _ })
          (h.ledger.transition (by decide) (by decide) htransition) hrow' (by simp
          [WorkspaceRecord.move]) rfl caller now (fun o ho => absurd ho (hnone o)) hholder
        refine hmoved.of_rows rfl (fun _ => clean_of_status hrow' (by simp [WorkspaceRecord.move]))
          (.of_status hrow ?_)
        rw [List.mem_singleton.mp hwas]
        decide
    · exact hraise _
    · refine .same_db h.ledger rfl (fun c hc => ?_)
        (fun hc => hc.congr rfl (fun _ h => h) rfl (.inl hholder)) fun o ho => absurd ho (hnone o)
      obtain rfl := Option.some.inj hc
      exact ⟨row, hrow, trivial⟩
    · exact prepareReturn_advances h.ledger caller hnone hholder

/-! ## A restore -/

section Created

variable {ws operationId : String} {db db' : Tables} {k : OpKey} {operation : Operation}
  {created : Bool} {now : ℤ}

/-- What is driven under a key is the operation that has been found or created for it. -/
theorem created_incomplete (hl : Ledger ws db)
    (hok : createOperation db operationId k.kind ws none (k.text ws) k.input now =
      .ok (db', operation, created)) (hdrives : ∀ o, drives o → Keyed ws o k) {o : Operation}
    (ho : o ∈ incompleteOperations db') :
    o.id = operation.id ∨ o ∈ incompleteOperations db ∧ ¬ drives o := by
  obtain ⟨hmem, hincomplete⟩ := mem_incompleteOperations.mp ho
  obtain ⟨-, hoperation, ⟨hsame, hkey, -⟩ | ⟨hnew, -, -, -, -, hadded⟩⟩ := createOperation_cases hok
  · rw [hsame] at hmem hoperation
    by_cases hd : drives o
    · exact .inl (congrArg _ (hl.unique hmem hoperation ((hdrives o hd).key.trans hkey.symm)))
    · exact .inr ⟨mem_incompleteOperations.mpr ⟨hmem, hincomplete⟩, hd⟩
  · rw [hadded] at hmem
    rcases List.mem_append.mp hmem with hmem | hmem
    · exact .inr ⟨mem_incompleteOperations.mpr ⟨hmem, hincomplete⟩,
        fun hd => (hnew o hmem).1 (hdrives o hd).key⟩
    · exact .inl (congrArg _ (List.mem_singleton.mp hmem))

theorem created_succeeded
    (hok : createOperation db operationId k.kind ws none (k.text ws) k.input now =
      .ok (db', operation, created)) {o : Operation} (ho : o ∈ db'.operations)
    (hsucceeded : o.status = .succeeded) : o ∈ db.operations := by
  obtain ⟨-, -, ⟨hsame, -⟩ | ⟨-, -, -, hpending, -, hadded⟩⟩ := createOperation_cases hok
  · exact hsame ▸ ho
  · rw [hadded] at ho
    rcases List.mem_append.mp ho with ho | ho
    · exact ho
    · obtain rfl := List.mem_singleton.mp ho
      exact absurd (hpending.symm.trans hsucceeded) (by decide)

end Created

theorem restoreBegin_advances (h : HostOk cfg.workspaceId s) {caller : Caller} {revisionId : String}
    (hheld : s.holder = some (.restoreBegin caller revisionId)) (turn : Turn) :
    Advances cfg.workspaceId ((Critical.restoreBegin caller revisionId).Drives cfg.workspaceId) s
      (restoreBegin cfg s caller revisionId turn).1 := by
  obtain ⟨row, hrow, hhead, hstatus⟩ := h.holds _ hheld
  have hholder : s.holder ≠ some .cleanupRemoved := by
    rw [hheld]
    exact fun he => by cases he
  simp only [restoreBegin]
  split
  · exact prepareRaise_advances h.ledger _ turn.now caller (fun o ho => ho.1) hholder
  · rename_i db operation created hcreate
    obtain ⟨hl, hkeyed, hpersists⟩ := h.ledger.create (k := .restore revisionId)
      (fun g hg => by cases hg) hcreate
    have hworkspaces := (createOperation_frame hcreate).1
    have hoperation := (createOperation_cases (k := .restore revisionId) hcreate).2.1
    have hincomplete {o : Operation} (ho : o ∈ incompleteOperations db) := created_incomplete
      (k := .restore revisionId) h.ledger hcreate
      (fun o (ho : (Critical.restoreBegin caller revisionId).Drives cfg.workspaceId o) => ho.2) ho
    have hsucceeded {o : Operation} (ho : o ∈ db.operations) (hs : o.status = .succeeded) :
        ∃ p ∈ s.db.operations, p.status = .succeeded ∧ SameOp p o :=
      ⟨o, created_succeeded (k := .restore revisionId) hcreate ho hs, hs, .refl o⟩
    -- whatever comes next is undone
    have hundo (db' : Tables) (row' : WorkspaceRecord) (error : String)
        (hl' : Ledger cfg.workspaceId db') (hsame : db'.operations = db.operations)
        (hrow' : db'.workspaces cfg.workspaceId = some row')
        (hstatus' : row'.status ≠ .detachedClean)
        (hdirty : row' = row ∨ row.status = .remoteOnly) : Advances cfg.workspaceId
          ((Critical.restoreBegin caller revisionId).Drives cfg.workspaceId) s
          ({ s with db := db' }.hold (.restoreUndo caller operation.id error)) := by
      refine ⟨⟨hl', fun c hc => ?_⟩, hpersists.trans (.of_eq hsame), fun _ =>
        clean_of_status hrow' hstatus', ?_, fun o ho => ?_, fun o ho hs r _ => .inr ?_⟩
      · obtain rfl := Option.some.inj hc
        exact ⟨row', hrow', hstatus'⟩
      · rcases hdirty with rfl | hremote
        · exact .same (hrow'.trans hrow.symm)
        · exact .of_status hrow (by rw [hremote]; decide)
      · have ho' : o ∈ incompleteOperations db := by rwa [incompleteOperations, ← hsame]
        exact (hincomplete ho').imp_left fun hid => ⟨_, rfl, hid⟩
      · exact hsucceeded (hsame ▸ ho) hs
    split
    · exact hundo db row _ hl rfl (hworkspaces ▸ hrow) hstatus (.inl rfl)
    · rename_i db' row' htransition
      have hl' := hl.transition (by decide) (by decide) htransition
      obtain ⟨r, hr, hwas, -, rfl, rfl⟩ := transitionWorkspace_ok htransition
      obtain rfl := Option.some.inj ((hworkspaces ▸ hrow).symm.trans hr)
      have hremote : row.status = .remoteOnly := List.mem_singleton.mp hwas
      have hrow' := Db.putWorkspace_workspaces db cfg.workspaceId (row.move .restoring turn.now)
      split
      · exact hundo _ _ _ hl' rfl hrow' (by simp [WorkspaceRecord.move]) (.inr hremote)
      · rename_i db'' hupdate
        have hu := updateOperation_updated hupdate
        have hrow'' := (congrFun hu.workspaces cfg.workspaceId).trans hrow'
        refine ⟨⟨hl'.updated hu fun he => (by cases he), fun c hc => ?_⟩,
          hpersists.trans hu.persists, fun _ => clean_of_status hrow'' (by
          simp [WorkspaceRecord.move]), .of_status hrow (by rw [hremote]; decide), fun o ho => ?_,
          fun o ho hs r _ => .inr ?_⟩
        · obtain rfl := Option.some.inj hc
          exact ⟨_, hrow'', rfl, hhead,
            HasOp.persists ⟨operation, hoperation, rfl, hkeyed⟩ hu.persists⟩
        · rcases hu.incomplete ho with ⟨ho', -⟩ | ⟨hid, -⟩
          · exact (hincomplete ho').imp_left fun hid => ⟨_, rfl, hid⟩
          · exact .inl ⟨_, rfl, hid⟩
        · rcases hu.succeeded ho hs with ⟨p, hp, hps, hsame⟩ | ⟨-, hrunning⟩
          · obtain ⟨q, hq, hqs, hsame'⟩ := hsucceeded hp hps
            exact ⟨q, hq, hqs, hsame'.trans hsame⟩
          · cases hrunning

theorem restoreRun_advances (h : HostOk cfg.workspaceId s) {caller : Caller}
    {operationId revisionId : String}
    (hheld : s.holder = some (.restoreRun caller operationId revisionId)) (turn : Turn) :
    Advances cfg.workspaceId ((Critical.restoreRun caller operationId revisionId).Drives
      cfg.workspaceId) s (restoreRun s caller operationId revisionId turn) := by
  obtain ⟨row, hrow, hstatus, -⟩ := h.holds _ hheld
  have hclean : row.status ≠ .detachedClean := by rw [hstatus]; decide
  have hundo (m : Host) (error : String) (hdb : m.db = s.db) : Advances cfg.workspaceId
      ((Critical.restoreRun caller operationId revisionId).Drives cfg.workspaceId) s
      (m.hold (.restoreUndo caller operationId error)) :=
    h.hold hheld hdb (fun r hr _ => by
      obtain rfl := Option.some.inj (hrow.symm.trans hr)
      exact hclean) (fun _ => clean_of_status (s := m.hold _) (by
      rw [← hrow, ← hdb]; rfl) hclean) fun _ ho => ho
  rw [restoreRun]
  split
  · exact hundo s _ rfl
  · rename_i hempty
    split
    · rename_i content hok hcontent
      refine h.hold hheld rfl (fun r hr hc => ⟨hc.1, hc.2.1, hc.2.2, ?_⟩)
        (fun _ => clean_of_status hrow hclean) fun _ ho => ho
      exact ⟨content, hcontent, content, by simp [Host.write, not_not.mp hempty], List.suffix_rfl⟩
    · refine hundo _ _ ?_
      cases turn.written <;> rfl

theorem restoreDone_advances (h : HostOk cfg.workspaceId s) {caller : Caller}
    {operationId revisionId : String}
    (hheld : s.holder = some (.restoreDone caller operationId revisionId)) (now : ℤ) :
    Advances cfg.workspaceId ((Critical.restoreDone caller operationId revisionId).Drives
      cfg.workspaceId) s (restoreDone cfg s caller operationId revisionId now).1 := by
  obtain ⟨row, hrow, hstatus, hhead, hhas, hrevision⟩ := h.holds _ hheld
  rw [restoreDone]
  split
  · refine h.hold hheld rfl (fun r hr hc => ?_) (fun _ => clean_of_status hrow (by
      rw [hstatus]; decide)) fun _ ho => ho
    rw [Critical.Ok, hc.1]
    decide
  · rename_i db hupdate
    have hu := updateOperation_updated hupdate
    have hl := h.ledger.updated hu fun _ r hr => by
      obtain rfl := Option.some.inj (hrow.symm.trans hr)
      rw [hstatus]
      rfl
    have hrow' := (congrFun hu.workspaces cfg.workspaceId).trans hrow
    have hidle := hl.idle hrow' (by rw [hstatus]; decide)
    rw [transitionWorkspace_eq hrow' (List.mem_singleton.mpr hstatus) hidle]
    have hl' := hl.transition (by decide) (by decide)
      (transitionWorkspace_eq hrow' (List.mem_singleton.mpr hstatus) hidle .detachedClean now)
    have hrow'' := Db.putWorkspace_workspaces db cfg.workspaceId (row.move .detachedClean now)
    have hat (s' : Host) (hdb : s'.db = db.putWorkspace cfg.workspaceId (row.move .detachedClean now))
        (hvolume : s'.volume = s.volume) (hsnapshots : s'.snapshots = s.snapshots)
        (hholder : s'.holder = none) : Advances cfg.workspaceId ((Critical.restoreDone caller
          operationId revisionId).Drives cfg.workspaceId) s s' := by
      have hrevision' : HasRevision s' revisionId :=
        hrevision.grow (fun content hc => by rwa [Host.Contains, hvolume]) hsnapshots
      refine ⟨⟨hdb ▸ hl', fun c hc => by rw [hholder] at hc; cases hc⟩, ?_, fun _ => ?_,
        .of_status hrow (by rw [hstatus]; decide), fun o ho => ?_, fun o ho hs r hr => ?_⟩
      · exact hu.persists.trans (.of_eq (by rw [hdb]; rfl))
      · intro r hr _ _ id hid
        obtain rfl := Option.some.inj ((hdb ▸ hrow'').symm.trans hr)
        obtain rfl := Option.some.inj (hhead.symm.trans hid)
        exact hrevision'
      · have ho' : o ∈ incompleteOperations db := by
          rw [hdb] at ho
          exact ho
        rcases hu.incomplete ho' with ⟨hold, hid⟩ | ⟨-, hs⟩
        · exact .inr ⟨hold, hid⟩
        · cases hs
      · have ho' : o ∈ db.operations := by
          rw [hdb] at ho
          exact ho
        rcases hu.succeeded ho' hs with hold | ⟨hid, -⟩
        · exact .inr hold
        · have hkeyed := (hhas.persists hu.persists).keyed hl ho' hid
          have heq : OpKey.restore r = .restore revisionId := hr.unique hkeyed
          obtain rfl := OpKey.restore.inj heq
          exact .inl ⟨_, hdb ▸ hrow'', .inl rfl, hrevision'⟩
    cases caller
    all_goals exact hat _ rfl rfl rfl rfl

theorem restoreFail_advances (h : HostOk cfg.workspaceId s) {caller : Caller}
    {operationId error : String}
    (hheld : s.holder = some (.restoreFail caller operationId error)) (now : ℤ) :
    Advances cfg.workspaceId ((Critical.restoreFail caller operationId error).Drives
      cfg.workspaceId) s (restoreFail cfg s caller operationId error now).1 := by
  obtain ⟨row, hrow, hstatus⟩ := h.holds _ hheld
  have hu := endOperation_updated s.db operationId .failed none (some error) now
  have hl := h.ledger.updated hu fun he => (by cases he)
  have hrow' := (congrFun hu.workspaces cfg.workspaceId).trans hrow
  have hl' : Ledger cfg.workspaceId (transitionOrKeep cfg (endOperation s.db operationId .failed none
      (some error) now) [.restoring] .remoteOnly now) :=
    hl.transitionOrKeep (by decide) (by decide) now
  have hsame := transitionOrKeep_operations cfg (endOperation s.db operationId .failed none
    (some error) now) [.restoring] .remoteOnly now
  obtain ⟨row', hrow'', hstatus', hdirty⟩ : ∃ row', (transitionOrKeep cfg (endOperation s.db
      operationId .failed none (some error) now) [.restoring] .remoteOnly now).workspaces
        cfg.workspaceId = some row' ∧ row'.status ≠ .detachedClean ∧
          (row.status = .detachedDirty → row' = row) := by
    have hrunning : WorkspaceStatus.running ∉ [WorkspaceStatus.restoring] := by decide
    rcases transitionOrKeep_row hl hrow' hrunning .remoteOnly now with ⟨hwas, hmoved⟩ | ⟨-, hkept⟩
    · refine ⟨_, hmoved, by simp [WorkspaceRecord.move], fun hd => ?_⟩
      rw [hd] at hwas
      exact absurd hwas (by decide)
    · exact ⟨row, (congrArg (·.workspaces cfg.workspaceId) hkept).trans hrow', hstatus, fun _ => rfl⟩
  simp only [restoreFail]
  generalize transitionOrKeep cfg (endOperation s.db operationId .failed none (some error) now)
    [.restoring] .remoteOnly now = db at hl' hsame hrow'' ⊢
  have hraised := fun error => prepareRaise_advances (s := { s with db := db }) hl' error now caller
    (fun o (ho : False) => ho.elim) (by
    rw [hheld]; exact fun he => by cases he)
  generalize s!"Failed to restore Workspace '{cfg.workspaceId}': {error}" = message
  have hadv := hraised message
  refine ⟨hadv.ok, (hu.persists.trans (.of_eq hsame)).trans hadv.persists, fun _ => hadv.clean
    (clean_of_status (s := { s with db := db }) hrow'' hstatus'), ?_, fun o ho => ?_,
    fun o ho hs r hr => ?_⟩
  · intro r hr hd
    obtain rfl := Option.some.inj (hrow.symm.trans hr)
    obtain rfl := hdirty hd
    exact (hadv.dirty row' hrow'' hd).imp_right fun hnone o ho => (hnone o ho).elim
  · refine (hadv.settles o ho).imp_right fun hold => ?_
    replace hold := hold.1
    have hold' : o ∈ incompleteOperations (endOperation s.db operationId .failed none (some error)
        now) := by rwa [incompleteOperations, ← hsame]
    rcases hu.incomplete hold' with ⟨hold, hid⟩ | ⟨-, hfailed⟩
    · exact ⟨hold, hid⟩
    · cases hfailed
  · refine (hadv.restores o ho hs r hr).imp_right fun hold => ?_
    obtain ⟨p, hp, hps, hpo⟩ := hold
    rcases hu.succeeded (hsame ▸ hp) hps with ⟨q, hq, hqs, hqp⟩ | ⟨-, hfailed⟩
    · exact ⟨q, hq, hqs, hqp.trans hpo⟩
    · cases hfailed

end Prepare

/-! ## The turns of `_checkpoint_workspace` and `_cleanup_local_workspace` -/

section Checkpoint

variable {cfg : Settings} {s s' : Host} {row : WorkspaceRecord} {drives : Operation → Prop}

theorem checkpointFail_advances (hl : Ledger cfg.workspaceId s.db)
    (hrow : s.db.workspaces cfg.workspaceId = some row) (hstatus : row.status ≠ .detachedClean)
    {operationId : String} (hdrives : ∀ o, drives o → o.id = operationId) (error : String)
    (now : ℤ) : Advances cfg.workspaceId drives s (checkpointFail cfg s operationId error now) := by
  have hu := endOperation_updated s.db operationId .failed none (some error) now
  have hl₁ := hl.updated hu fun he => (by cases he)
  have hrow₁ := (congrFun hu.workspaces cfg.workspaceId).trans hrow
  have hsame := transitionOrKeep_operations cfg (endOperation s.db operationId .failed none
    (some error) now) [.checkpointing] .detachedDirty now
  refine ⟨⟨hl₁.transitionOrKeep (by decide) (by decide) now, fun c hc => by cases hc⟩,
    hu.persists.trans (.of_eq hsame), fun _ => ?_, ?_, fun o ho => .inr ?_,
    fun o ho hs r _ => .inr ?_⟩
  · have hrunning : WorkspaceStatus.running ∉ [WorkspaceStatus.checkpointing] := by decide
    rcases transitionOrKeep_row hl₁ hrow₁ hrunning .detachedDirty now with
      ⟨-, hmoved⟩ | ⟨-, hkept⟩
    · exact clean_of_status hmoved (by simp [WorkspaceRecord.move])
    · exact clean_of_status ((congrArg (·.workspaces cfg.workspaceId) hkept).trans hrow₁) hstatus
  · intro r hr hd
    have hr₁ := (congrFun hu.workspaces cfg.workspaceId).trans hr
    exact .inl ⟨r, transitionOrKeep_dirty hl₁ hr₁ hd (by decide) (by decide) .detachedDirty now, hd,
      rfl⟩
  · have ho' : o ∈ incompleteOperations (endOperation s.db operationId .failed none (some error)
        now) := by
      rw [incompleteOperations, ← hsame]
      exact ho
    rcases hu.incomplete ho' with ⟨hold, hid⟩ | ⟨-, hfailed⟩
    · exact ⟨hold, fun hd => hid (hdrives o hd)⟩
    · cases hfailed
  · have ho' : o ∈ (endOperation s.db operationId .failed none (some error) now).operations := by
      rw [← hsame]
      exact ho
    rcases hu.succeeded ho' hs with hold | ⟨-, hfailed⟩
    · exact hold
    · cases hfailed

/-- What `_checkpoint_workspace` is going to do something about. -/
def ToCheckpoint (workspaceId : String) (row : WorkspaceRecord) (o : Operation) : Prop :=
  row.status = .detachedDirty ∧ Keyed workspaceId o (.checkpoint row.generation)

/-- **A checkpoint that has the lock drives the operation of a dirty Workspace, or ends it.** -/
theorem checkpointBegin_advances (h : HostOk cfg.workspaceId s) (hfree : s.holder = none)
    (hrow : s.db.workspaces cfg.workspaceId = some row) (turn : Turn) :
    Advances cfg.workspaceId (ToCheckpoint cfg.workspaceId row) s
      (checkpointBegin cfg s row turn) := by
  have hkeep (hdrives : ∀ o ∈ s.db.operations, o.status.incomplete = true →
      ¬ ToCheckpoint cfg.workspaceId row o) :
      Advances cfg.workspaceId (ToCheckpoint cfg.workspaceId row) s s := by
    refine ⟨h, .refl _, id, .same rfl, fun o ho => .inr ⟨ho, ?_⟩,
      fun o ho hs r _ => .inr ⟨o, ho, hs, .refl o⟩⟩
    exact hdrives o (mem_incompleteOperations.mp ho).1 (mem_incompleteOperations.mp ho).2
  rw [checkpointBegin]
  split
  · rename_i hskip
    refine hkeep fun o _ _ hd => ?_
    have hidle := h.ledger.idle hrow (by rw [hd.1]; decide)
    exact hskip.elim (fun hactive => hactive hidle) fun hdirty => hdirty hd.1
  · rename_i hgo
    obtain ⟨-, hdirty⟩ := not_or.mp hgo
    rw [not_not] at hdirty
    have hclean : row.status ≠ .detachedClean := by rw [hdirty]; decide
    split
    · rename_i e hcreate
      -- a new operation that has an id of the table
      refine hkeep fun o ho _ hd => ?_
      rw [createOperation] at hcreate
      split at hcreate
      · cases hcreate
      · rename_i hnone
        exact List.find?_eq_none.mp hnone o ho (decide_eq_true hd.2.key)
    · rename_i db operation created hcreate
      obtain ⟨hl, hkeyed, hpersists⟩ := h.ledger.create (k := .checkpoint row.generation)
        (fun g hg r hr => by
          obtain rfl := Option.some.inj (hrow.symm.trans hr)
          exact Nat.le_of_eq (OpKey.checkpoint.inj hg).symm) hcreate
      have hworkspaces := (createOperation_frame hcreate).1
      have hcases := createOperation_cases (k := .checkpoint row.generation) hcreate
      have hincomplete {o : Operation} (ho : o ∈ incompleteOperations db) := created_incomplete
        (k := .checkpoint row.generation) h.ledger hcreate
        (fun o (ho : ToCheckpoint cfg.workspaceId row o) => ho.2) ho
      have hsucceeded {o : Operation} (ho : o ∈ db.operations) (hs : o.status = .succeeded) :
          ∃ p ∈ s.db.operations, p.status = .succeeded ∧ SameOp p o :=
        ⟨o, created_succeeded (k := .checkpoint row.generation) hcreate ho hs, hs, .refl o⟩
      have hrow₁ : db.workspaces cfg.workspaceId = some row := hworkspaces ▸ hrow
      have hdriven (m : Host) : StaysDirty cfg.workspaceId (ToCheckpoint cfg.workspaceId row) s m := by
        intro r hr hd
        obtain rfl := Option.some.inj (hrow.symm.trans hr)
        exact .inr fun o ho => ⟨hd, ho⟩
      -- whatever raises is undone
      have hfail (db' : Tables) (row' : WorkspaceRecord) (error : String)
          (hl' : Ledger cfg.workspaceId db') (hsame : db'.operations = db.operations)
          (hrow' : db'.workspaces cfg.workspaceId = some row')
          (hstatus' : row'.status ≠ .detachedClean) : Advances cfg.workspaceId
            (ToCheckpoint cfg.workspaceId row) s
            (checkpointFail cfg { s with db := db' } operation.id error turn.now) := by
        have hadv := checkpointFail_advances (s := { s with db := db' }) hl' hrow' hstatus'
          (fun o (ho : o.id = operation.id) => ho) error turn.now
        refine ⟨hadv.ok, (hpersists.trans (.of_eq hsame)).trans hadv.persists, fun _ =>
          hadv.clean (clean_of_status (s := { s with db := db' }) hrow' hstatus'), hdriven _,
          fun o ho => ?_, fun o ho hs r hr => ?_⟩
        · refine (hadv.settles o ho).imp_right fun hold => ?_
          have ho' : o ∈ incompleteOperations db := by
            rw [incompleteOperations, ← hsame]
            exact hold.1
          exact (hincomplete ho').resolve_left hold.2
        · refine (hadv.restores o ho hs r hr).imp_right fun hold => ?_
          obtain ⟨p, hp, hps, hpo⟩ := hold
          obtain ⟨q, hq, hqs, hqp⟩ := hsucceeded (hsame ▸ hp) hps
          exact ⟨q, hq, hqs, hqp.trans hpo⟩
      split
      · rename_i hdone
        refine ⟨⟨hl, fun c hc => ?_⟩, hpersists, fun _ => clean_of_status hrow₁ hclean, hdriven _,
          fun o ho => .inr ?_, fun o ho hs r _ => .inr (hsucceeded ho hs)⟩
        · rw [show ({ s with db := db } : Host).holder = s.holder from rfl, hfree] at hc
          cases hc
        · refine (hincomplete ho).resolve_left fun hid => ?_
          obtain ⟨hmem, hleft⟩ := mem_incompleteOperations.mp ho
          rw [hl.unique_id hmem hcases.2.1 hid, hdone] at hleft
          cases hleft
      · split
        · exact hfail db row _ hl rfl hrow₁ hclean
        · rename_i db' row' htransition
          have hl' := hl.transition (by decide) (by decide) htransition
          obtain ⟨r, hr, -, -, rfl, rfl⟩ := transitionWorkspace_ok htransition
          obtain rfl := Option.some.inj (hrow₁.symm.trans hr)
          have hrow' := Db.putWorkspace_workspaces db cfg.workspaceId
            (row.move .checkpointing turn.now)
          split
          · exact hfail _ _ _ hl' rfl hrow' (by simp [WorkspaceRecord.move])
          · rename_i db'' hupdate
            have hu := updateOperation_updated hupdate
            have hrow'' := (congrFun hu.workspaces cfg.workspaceId).trans hrow'
            refine ⟨⟨hl'.updated hu fun he => (by cases he), fun c hc => ?_⟩,
              hpersists.trans hu.persists, fun _ => clean_of_status hrow'' (by
              simp [WorkspaceRecord.move]), hdriven _, fun o ho => ?_, fun o ho hs r _ => .inr ?_⟩
            · obtain rfl := Option.some.inj hc
              exact ⟨_, hrow'', rfl, rfl,
                HasOp.persists ⟨operation, hcases.2.1, rfl, hkeyed⟩ hu.persists⟩
            · rcases hu.incomplete ho with ⟨ho', -⟩ | ⟨hid, -⟩
              · exact (hincomplete ho').imp_left fun hid => ⟨_, rfl, hid⟩
              · exact .inl ⟨_, rfl, hid⟩
            · rcases hu.succeeded ho hs with ⟨p, hp, hps, hsame⟩ | ⟨-, hrunning⟩
              · obtain ⟨q, hq, hqs, hsame'⟩ := hsucceeded hp hps
                exact ⟨q, hq, hqs, hsame'.trans hsame⟩
              · cases hrunning

theorem checkpointRun_advances (h : HostOk cfg.workspaceId s) {operationId : String}
    {generation : ℕ} (hheld : s.holder = some (.checkpointRun operationId generation)) {turn : Turn}
    (hstep : checkpointRun s operationId generation turn = some s') :
    Advances cfg.workspaceId ((Critical.checkpointRun operationId generation).Drives
      cfg.workspaceId) s s' := by
  obtain ⟨row, hrow, hstatus, -⟩ := h.holds _ hheld
  have hclean (m : Host) (hdb : m.db = s.db) : Clean cfg.workspaceId m :=
    clean_of_status (show m.db.workspaces cfg.workspaceId = some row by rw [hdb, hrow])
      (by rw [hstatus]; decide)
  have hfail (m : Host) (error : String) (hdb : m.db = s.db) : Advances cfg.workspaceId
      ((Critical.checkpointRun operationId generation).Drives cfg.workspaceId) s
      (m.hold (.checkpointFail operationId error)) :=
    h.hold hheld hdb (fun r _ hc => ⟨hc.1, hc.2.1 ▸ hdb ▸ hc.2.2⟩) (fun _ => hclean _ hdb)
      fun _ ho => ho
  rw [checkpointRun] at hstep
  split_ifs at hstep
  · obtain rfl := Option.some.inj hstep
    exact hfail _ _ rfl
  · obtain rfl := Option.some.inj hstep
    refine h.hold hheld rfl (fun r _ hc => ⟨hc.1, hc.2.1, hc.2.2, ?_⟩) (fun _ => hclean _ rfl)
      fun _ ho => ho
    exact ⟨_, Function.update_self .., s.volume.getD [], rfl, List.suffix_rfl⟩
  · obtain rfl := Option.some.inj hstep
    exact hfail _ _ rfl
  · obtain rfl := Option.some.inj hstep
    exact hfail _ _ rfl

/-- **The commit of a checkpoint succeeds.** -/
theorem commitRevision_succeeds {ws : String} {db : Tables} {operationId : String} {generation : ℕ}
    (hl : Ledger ws db) (hrow : db.workspaces ws = some row) (hstatus : row.status = .checkpointing)
    (hgeneration : row.generation = generation)
    (hhas : HasOp ws db operationId (.checkpoint generation)) (revisionId : String)
    (result : OperationResult) (now : ℤ) : ∃ db', commitRevision db ws operationId revisionId
      generation result now = .ok (db', row.commit revisionId now) := by
  have hidle := hl.idle hrow (by rw [hstatus]; decide)
  obtain ⟨o, ho, hid, -⟩ := hhas
  have hfound : (findOperation db operationId).isNone = false := by
    rw [Option.isNone_eq_false_iff, findOperation, List.find?_isSome]
    exact ⟨o, ho, decide_eq_true hid⟩
  rw [commitRevision, hrow]
  simp [hstatus, hidle, hgeneration, hfound]

theorem checkpointDone_advances (h : HostOk cfg.workspaceId s) {operationId revisionId : String}
    {generation : ℕ}
    (hheld : s.holder = some (.checkpointDone operationId generation revisionId)) (now : ℤ) :
    Advances cfg.workspaceId ((Critical.checkpointDone operationId generation revisionId).Drives
      cfg.workspaceId) s (checkpointDone cfg s operationId generation revisionId now) := by
  obtain ⟨row, hrow, hstatus, hgeneration, hhas, hrevision⟩ := h.holds _ hheld
  obtain ⟨db, hcommit⟩ := commitRevision_succeeds h.ledger hrow hstatus hgeneration hhas revisionId
    (.revision revisionId) now
  have hidle := h.ledger.idle hrow (by rw [hstatus]; decide)
  have hu := commitRevision_updated hcommit
  have hput : Ledger cfg.workspaceId (s.db.putWorkspace cfg.workspaceId (row.commit revisionId now)) :=
    h.ledger.put hrow ⟨by simp [WorkspaceRecord.commit, hidle], Nat.le_refl _, fun _ _ => rfl⟩
  have hrow' := Db.putWorkspace_workspaces s.db cfg.workspaceId (row.commit revisionId now)
  have hl := hput.updated hu fun _ r hr => by
    obtain rfl := Option.some.inj (hrow'.symm.trans hr)
    rfl
  have hrow'' := (congrFun hu.workspaces cfg.workspaceId).trans hrow'
  rw [checkpointDone, hcommit]
  refine ⟨⟨hl, fun c hc => by cases hc⟩, hu.persists, fun _ => ?_,
    .of_status hrow (by rw [hstatus]; decide), fun o ho => .inr ?_, fun o ho hs r hr => ?_⟩
  · intro r hr _ _ id hid
    obtain rfl := Option.some.inj (hrow''.symm.trans hr)
    obtain rfl : revisionId = id := Option.some.inj hid
    exact hrevision
  · rcases hu.incomplete ho with hold | ⟨-, hs⟩
    · exact hold
    · cases hs
  · rcases hu.succeeded ho hs with hold | ⟨hid, -⟩
    · exact .inr hold
    · have hkeyed := (hhas.persists hu.persists).keyed hl ho hid
      exact absurd (hr.unique hkeyed) fun he => by cases he

theorem cleanupBegin_advances (h : HostOk cfg.workspaceId s)
    (hrow : s.db.workspaces cfg.workspaceId = some row) (hfree : s.holder = none) (now : ℤ) :
    Advances cfg.workspaceId (fun _ => False) s (cleanupBegin cfg s row now) := by
  rw [cleanupBegin]
  split
  · exact .same_db h.ledger rfl h.holds id fun _ ho => ho.elim
  · refine .same_db h.ledger rfl (fun c hc => ?_) (fun hc => hc.congr rfl (fun _ h => h) rfl ?_)
      fun _ ho => ho.elim
    · obtain rfl := Option.some.inj hc
      exact ⟨row, hrow, trivial⟩
    · exact .inl (by rw [hfree]; exact fun he => by cases he)

end Checkpoint

/-! ## Any turn under the lock -/

/-- **Every turn of the coroutine that holds the lock advances.** -/
theorem criticalStep_advances {cfg : Settings} {s s' : Host} {c : Critical} {turn : Turn}
    {ts : List Task} (h : HostOk cfg.workspaceId s) (hheld : s.holder = some c)
    (hstep : criticalStep cfg s turn c = some (s', ts)) :
    Advances cfg.workspaceId (c.Drives cfg.workspaceId) s s' := by
  have of_eq : ∀ r : Host × List Task, some r = some (s', ts) → s' = r.1 := fun r heq =>
    (congrArg Prod.fst (Option.some.inj heq)).symm
  obtain ⟨row, hrow, hok⟩ := h.holds c hheld
  have hraise (error : String) (now : ℤ) (caller : Caller)
      (hasks : ∀ o, c.Drives cfg.workspaceId o → caller.Asks o.id) (hc : c ≠ .cleanupRemoved) :
      Advances cfg.workspaceId (c.Drives cfg.workspaceId) s (prepareRaise s error now caller).1 :=
    prepareRaise_advances h.ledger error now caller hasks (by
      rw [hheld]
      exact fun he => hc (Option.some.inj he))
  have hclean (m : Host) (hdb : m.db = s.db) (hstatus : row.status ≠ .detachedClean) :
      Clean cfg.workspaceId m := clean_of_status (by rw [hdb, hrow]) hstatus
  cases c with
  | prepareExists caller current =>
    simp only [criticalStep] at hstep
    split at hstep
    · obtain rfl := of_eq _ hstep
      refine h.hold hheld rfl (fun _ _ hc => hc) (fun hc => hc.congr rfl (fun _ h => h) rfl
        (.inl ?_)) fun _ ho => ho
      rw [hheld]
      exact fun he => by cases he
    · obtain rfl := of_eq _ hstep
      exact hraise _ _ _ (fun _ ho => ho.1) fun he => by cases he
  | prepareDecide caller current volumeExists =>
    obtain rfl := of_eq _ hstep
    exact prepareDecide_advances h hheld turn.now
  | prepareEnsure caller =>
    simp only [criticalStep] at hstep
    split at hstep
    · obtain rfl := of_eq _ hstep
      refine .same_db h.ledger ?_ ?_ ?_ fun _ ho => ho.elim
      · cases caller <;> rfl
      · cases caller <;> exact fun c hc => by cases hc
      · intro hc
        refine hc.congr ?_ (fun content hcontains => ?_) ?_ (.inl ?_)
        · cases caller <;> rfl
        · cases caller <;> exact hcontains.ensureVolume
        · cases caller <;> rfl
        · rw [hheld]
          exact fun he => by cases he
    · obtain rfl := of_eq _ hstep
      exact hraise _ _ _ (fun _ ho => ho.elim) fun he => by cases he
  | restoreExists caller r =>
    simp only [criticalStep] at hstep
    split_ifs at hstep
    · obtain rfl := of_eq _ hstep
      exact h.hold hheld rfl (fun _ _ hc => hc) (fun _ => hclean _ rfl hok.2)
        fun _ ho => ho
    · obtain rfl := of_eq _ hstep
      exact h.hold hheld rfl (fun _ _ hc => hc) (fun _ => hclean _ rfl hok.2)
        fun _ ho => ho
    · obtain rfl := of_eq _ hstep
      exact hraise _ _ _ (fun _ ho => ho.1) fun he => by cases he
  | restoreRemove caller r =>
    obtain rfl := of_eq _ hstep
    exact h.hold hheld rfl (fun _ _ hc => hc) (fun _ => hclean _ rfl hok.2)
      fun _ ho => ho
  | restoreEnsure caller r =>
    simp only [criticalStep] at hstep
    split at hstep
    · obtain rfl := of_eq _ hstep
      exact h.hold hheld rfl (fun _ _ hc => hc) (fun _ => hclean _ rfl hok.2)
        fun _ ho => ho
    · obtain rfl := of_eq _ hstep
      exact hraise _ _ _ (fun _ ho => ho.1) fun he => by cases he
  | restoreBegin caller r =>
    obtain rfl := of_eq _ hstep
    exact restoreBegin_advances h hheld turn
  | restoreRun caller operationId r =>
    obtain rfl := of_eq _ hstep
    exact restoreRun_advances h hheld turn
  | restoreDone caller operationId r =>
    obtain rfl := of_eq _ hstep
    exact restoreDone_advances h hheld turn.now
  | restoreUndo caller operationId error =>
    obtain rfl := of_eq _ hstep
    exact h.hold hheld rfl (fun _ _ hc => hc) (fun _ => hclean _ rfl hok)
      fun _ ho => ho
  | restoreFail caller operationId error =>
    obtain rfl := of_eq _ hstep
    exact restoreFail_advances h hheld turn.now
  | checkpointRun operationId generation =>
    obtain ⟨m, hm, hr⟩ := Option.map_eq_some_iff.mp hstep
    obtain ⟨rfl, -⟩ := Prod.mk.inj hr
    exact checkpointRun_advances h hheld hm
  | checkpointDone operationId generation r =>
    obtain rfl := of_eq _ hstep
    exact checkpointDone_advances h hheld turn.now
  | checkpointFail operationId error =>
    obtain rfl := of_eq _ hstep
    refine checkpointFail_advances h.ledger hrow ?_ (fun _ ho => ho) error turn.now
    rw [hok.1]
    decide
  | cleanupRemove =>
    simp only [criticalStep] at hstep
    split at hstep
    · obtain rfl := of_eq _ hstep
      refine h.hold hheld rfl (fun _ _ _ => trivial) (fun _ => ?_) fun _ ho => ho
      exact fun _ _ _ hne => absurd rfl hne
    · obtain rfl := of_eq _ hstep
      refine .same_db h.ledger rfl (fun c hc => by cases hc) (fun hc => hc.congr rfl
        (fun _ h => h) rfl (.inl ?_)) fun _ ho => ho.elim
      rw [hheld]
      exact fun he => by cases he
  | cleanupRemoved =>
    obtain rfl := of_eq _ hstep
    refine ⟨⟨h.ledger.transitionOrKeep (by decide) (by decide) turn.now,
      fun c hc => by cases hc⟩, .of_eq (transitionOrKeep_operations ..), fun _ => ?_,
      fun r hr hd => .inl ⟨r, transitionOrKeep_dirty h.ledger hr hd (by decide) (by decide)
        .remoteOnly turn.now, hd, rfl⟩, fun o ho => .inr ⟨?_, id⟩,
      fun o ho hs r _ => .inr ⟨o, ?_, hs, .refl o⟩⟩
    · have hrunning : WorkspaceStatus.running ∉ [WorkspaceStatus.detachedClean] := by decide
      rcases transitionOrKeep_row h.ledger hrow hrunning .remoteOnly turn.now with
        ⟨-, hmoved⟩ | ⟨hstatus, hkept⟩
      · exact clean_of_status hmoved (by simp [WorkspaceRecord.move])
      · refine clean_of_status ?_ (show row.status ≠ .detachedClean by simpa using hstatus)
        exact (congrArg (·.workspaces cfg.workspaceId) hkept).trans hrow
    · rw [incompleteOperations, ← transitionOrKeep_operations cfg s.db [.detachedClean]
        .remoteOnly turn.now]
      exact ho
    · rw [← transitionOrKeep_operations cfg s.db [.detachedClean] .remoteOnly turn.now]
      exact ho

end CodexGateway.Manager
