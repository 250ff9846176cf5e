import CodexGateway.Manager.Beside

/-!
# Manager/Serving — the coroutines and the requests, by the operations that they drive

A coroutine that does not wait for the lock `Works`, one that takes it `Advances`, and a request
`Begins` some coroutines.  Each says what becomes of the operations: none that is left to do is
lost by the coroutine that drives it, but for a requested restore that comes too late.
-/

namespace CodexGateway.Manager

/-! ## The coroutines -/

/-- The operations that a coroutine without the lock is going to do something about. -/
def Task.Drives (workspaceId : String) (s : Host) (o : Operation) : Task → Prop
  | .restoreRequested operationId | .restoreLock operationId => o.id = operationId
  | .checkpointLock => ∃ row, s.db.workspaces workspaceId = some row ∧ ToCheckpoint workspaceId row o
  | _ => False

/-- The operations that a coroutine still drives when it takes the lock.  A requested restore goes
on only where the Workspace is `remote_only`, with the revision that was asked for. -/
def Task.Takes (workspaceId : String) (s : Host) (o : Operation) : Task → Prop
  | .restoreLock operationId => o.id = operationId ∧ ∃ row revisionId,
      s.db.workspaces workspaceId = some row ∧ row.status = .remoteOnly ∧
        row.headRevision = some revisionId ∧ Keyed workspaceId o (.restore revisionId)
  | .checkpointLock => ∃ row, s.db.workspaces workspaceId = some row ∧ ToCheckpoint workspaceId row o
  | _ => False

/-- **What a turn without the lock does**, of a coroutine that drives some operations before and
some after it. -/
structure Works (workspaceId : String) (claims : Prop) (drives drives' : Operation → Prop)
    (s s' : Host) : Prop extends Beside workspaceId claims s s' where
  settles : ∀ o ∈ incompleteOperations s'.db,
    o ∈ incompleteOperations s.db ∧ (drives o → drives' o)
  restores : ∀ o' ∈ s'.db.operations, o'.status = .succeeded →
    (∃ o ∈ s.db.operations, o.status = .succeeded ∧ SameOp o o') ∨
      drives o' ∧ ∃ row, s.db.workspaces workspaceId = some row ∧ row.status = .detachedClean

section Tasks

variable {cfg : Settings} {ws : String} {claims : Prop} {s s' : Host} {turn : Turn} {t t' : Task}
  {drives drives' : Operation → Prop}

theorem Beside.works (h : Beside ws claims s s') (hsame : s'.db.operations = s.db.operations)
    (hdrives : ∀ o, drives o → drives' o) : Works ws claims drives drives' s s' where
  toBeside := h
  settles := fun o ho => ⟨by rwa [incompleteOperations, hsame] at ho, hdrives o⟩
  restores := fun o' ho' hs => .inl ⟨o', hsame ▸ ho', hs, .refl o'⟩

/-- A coroutine ends the operation that it drives. -/
theorem Updated.works {db : Tables} {operationId : String} {status : OperationStatus}
    (hl : Ledger ws s.db) (hu : Updated operationId status s.db db)
    (hended : status.incomplete = false)
    (hclean : status = .succeeded →
      ∃ row, s.db.workspaces ws = some row ∧ row.status = .detachedClean) :
    Works ws claims (·.id = operationId) drives' s { s with db := db } where
  toBeside := .of_updated hl hu fun hs row hrow => by
    obtain ⟨r, hr, hstatus⟩ := hclean hs
    obtain rfl := Option.some.inj (hrow.symm.trans hr)
    rw [hstatus]
    rfl
  settles := fun o ho => by
    rcases hu.incomplete ho with ⟨hold, hid⟩ | ⟨-, hs⟩
    · exact ⟨hold, fun hd => absurd hd hid⟩
    · rw [hended] at hs
      cases hs
  restores := fun o' ho' hs => (hu.succeeded ho' hs).imp_right fun hnew => ⟨hnew.1, hclean hnew.2⟩

theorem getWorkspace_ok {db : Tables} {row : WorkspaceRecord} (h : getWorkspace db ws = .ok row) :
    db.workspaces ws = some row := by
  rw [getWorkspace] at h
  split at h
  · cases h
  · rename_i r hr
    exact hr.trans (congrArg some (Except.ok.inj h))

/-- **The turns of the coroutines that do not wait for the lock.** -/
theorem taskStep_works (h : HostOk cfg.workspaceId s) (hlocks : t.locks = false)
    (hstep : taskStep cfg s turn t = some (s', t')) :
    Works cfg.workspaceId (t.claims ≠ none) (fun o => t.Drives cfg.workspaceId s o)
      (fun o => t'.Drives cfg.workspaceId s' o) s s' := by
  have of_eq : ∀ r : Host × Task, some r = some (s', t') → s' = r.1 ∧ t' = r.2 := by
    intro r heq
    obtain rfl := Option.some.inj heq
    exact ⟨rfl, rfl⟩
  have hkeep : Beside cfg.workspaceId (t.claims ≠ none) s s :=
    .of_db h.ledger rfl rfl (fun _ h => h) rfl rfl
  have hrecords (records : List String) : Beside cfg.workspaceId (t.claims ≠ none) s
      { s with records := records } := .of_db h.ledger rfl rfl (fun _ h => h) rfl rfl
  have hmount (written : Option Content) : Beside cfg.workspaceId (t.claims ≠ none) s
      (s.mount written) := by
    refine .of_db h.ledger ?_ ?_ (grows_mount s written) ?_ ?_
    all_goals cases written <;> rfl
  cases t with
  | createLock sandboxId => cases hlocks
  | restoreLock operationId => cases hlocks
  | checkpointLock => cases hlocks
  | cleanupLock => cases hlocks
  | createPrepare sandboxId =>
    simp only [taskStep] at hstep
    split at hstep
    · obtain ⟨rfl, rfl⟩ := of_eq _ hstep
      exact (hmount (some _)).works rfl fun _ ho => ho.elim
    · obtain ⟨rfl, rfl⟩ := of_eq _ hstep
      refine (hmount _).works ?_ fun _ ho => ho.elim
      cases turn.written <;> rfl
  | createClaim sandboxId =>
    simp only [taskStep] at hstep
    split at hstep
    · obtain ⟨rfl, rfl⟩ := of_eq _ hstep
      exact hkeep.works rfl fun _ ho => ho.elim
    · rename_i db row sandbox hclaim
      obtain ⟨rfl, rfl⟩ := of_eq _ hstep
      have hsame : db.operations = s.db.operations := by
        obtain ⟨-, -, -, -, -, -, -, rfl⟩ := claimWorkspace_ok hclaim
        rfl
      have hb := claim_beside h.ledger hclaim
      rw [eq_true (show (Task.createClaim sandboxId).claims ≠ none from Option.some_ne_none _)]
      exact hb.works hsame fun _ ho => ho.elim
  | createContainer sandboxId =>
    simp only [taskStep] at hstep
    split at hstep
    · obtain ⟨rfl, rfl⟩ := of_eq _ hstep
      exact Beside.works (.of_db h.ledger rfl rfl (fun _ hc => hc.ensureVolume) rfl rfl) rfl
        fun _ ho => ho.elim
    · obtain ⟨rfl, rfl⟩ := of_eq _ hstep
      exact hkeep.works rfl fun _ ho => ho.elim
  | createStart sandboxId =>
    obtain ⟨rfl, rfl⟩ := of_eq _ hstep
    exact hkeep.works rfl fun _ ho => ho.elim
  | createStarted sandboxId =>
    simp only [taskStep] at hstep
    split at hstep
    · obtain ⟨rfl, rfl⟩ := of_eq _ hstep
      exact hkeep.works rfl fun _ ho => ho.elim
    · rename_i db hmark
      obtain ⟨rfl, rfl⟩ := of_eq _ hstep
      have hb : Beside cfg.workspaceId ((Task.createStarted sandboxId).claims ≠ none) s
          { s with db := db } := markSandboxRunning_beside h.ledger hmark
      have hb' : Beside cfg.workspaceId ((Task.createStarted sandboxId).claims ≠ none) s
          { s with db := db, records := sandboxId :: s.records } := { hb with }
      exact hb'.works (markSandboxRunning_operations hmark) fun _ ho => ho.elim
  | createRemove sandboxId =>
    simp only [taskStep] at hstep
    split at hstep
    · obtain ⟨rfl, rfl⟩ := of_eq _ hstep
      exact hkeep.works rfl fun _ ho => ho.elim
    · obtain ⟨rfl, rfl⟩ := of_eq _ hstep
      exact (hrecords _).works rfl fun _ ho => ho.elim
  | createFailed sandboxId =>
    obtain ⟨rfl, rfl⟩ := of_eq _ hstep
    exact (endSandbox_beside h.ledger sandboxId .failed turn.now).works (endSandbox_operations ..)
      fun _ ho => ho.elim
  | terminateRemove sandboxId =>
    simp only [taskStep] at hstep
    split at hstep
    · obtain ⟨rfl, rfl⟩ := of_eq _ hstep
      exact (hrecords _).works rfl fun _ ho => ho.elim
    · obtain ⟨rfl, rfl⟩ := of_eq _ hstep
      exact hkeep.works rfl fun _ ho => ho.elim
  | terminateRemoved sandboxId =>
    obtain ⟨rfl, rfl⟩ := of_eq _ hstep
    exact (endSandbox_beside h.ledger sandboxId .terminated turn.now).works
      (endSandbox_operations ..) fun _ ho => ho.elim
  | restoreRequested operationId =>
    simp only [taskStep] at hstep
    split at hstep
    · obtain ⟨rfl, rfl⟩ := of_eq _ hstep
      exact Updated.works h.ledger (endOperation_updated ..) rfl fun he => by cases he
    · rename_i row hget
      split_ifs at hstep with hclean hremote
      · obtain ⟨rfl, rfl⟩ := of_eq _ hstep
        exact Updated.works h.ledger (endOperation_updated ..) rfl fun _ =>
          ⟨row, getWorkspace_ok hget, hclean⟩
      · obtain ⟨rfl, rfl⟩ := of_eq _ hstep
        exact Updated.works h.ledger (endOperation_updated ..) rfl fun he => by cases he
      · obtain ⟨rfl, rfl⟩ := of_eq _ hstep
        exact hkeep.works rfl fun _ ho => ho
  | finished => simp [taskStep] at hstep

/-- The lock is taken where it is free. -/
theorem takeLock_cases {begin : WorkspaceRecord → Host} (h : takeLock cfg s begin = some s') :
    s.holder = none ∧ (s.db.workspaces cfg.workspaceId = none ∧ s' = s ∨
      ∃ row, s.db.workspaces cfg.workspaceId = some row ∧ s' = begin row) := by
  rw [takeLock] at h
  split_ifs at h with hfree
  refine ⟨hfree, ?_⟩
  rw [getWorkspace] at h
  cases hrow : s.db.workspaces cfg.workspaceId with
  | none =>
    rw [hrow] at h
    exact .inl ⟨rfl, (Option.some.inj h).symm⟩
  | some row =>
    rw [hrow] at h
    exact .inr ⟨row, rfl, (Option.some.inj h).symm⟩

/-- **A coroutine that takes the lock advances.** -/
theorem lockStep_advances (h : HostOk cfg.workspaceId s) (hlocks : t.locks = true)
    (hstep : taskStep cfg s turn t = some (s', t')) :
    s.holder = none ∧ Advances cfg.workspaceId (fun o => t.Takes cfg.workspaceId s o) s s' := by
  have hnone (hrow : s.db.workspaces cfg.workspaceId = none) :
      Advances cfg.workspaceId (fun o => t.Takes cfg.workspaceId s o) s s := by
    refine ⟨h, .refl _, id, .same rfl, fun o ho => ?_,
      fun o ho hs r _ => .inr ⟨o, ho, hs, .refl o⟩⟩
    rw [incompleteOperations, h.ledger.gone hrow] at ho
    cases ho
  have htake (begin : WorkspaceRecord → Host)
      (hbegin : ∀ row, s.holder = none → s.db.workspaces cfg.workspaceId = some row →
        Advances cfg.workspaceId (fun o => t.Takes cfg.workspaceId s o) s (begin row))
      (hstep : ((takeLock cfg s begin).map fun s' => (s', Task.finished)) = some (s', t')) :
      s.holder = none ∧ Advances cfg.workspaceId (fun o => t.Takes cfg.workspaceId s o) s s' := by
    obtain ⟨m, hm, heq⟩ := Option.map_eq_some_iff.mp hstep
    obtain ⟨rfl, -⟩ := Prod.mk.inj heq
    obtain ⟨hfree, ⟨hrow, rfl⟩ | ⟨row, hrow, rfl⟩⟩ := takeLock_cases hm
    · exact ⟨hfree, hnone hrow⟩
    · exact ⟨hfree, hbegin row hfree hrow⟩
  have hprepare (caller : Caller) (row : WorkspaceRecord) (hfree : s.holder = none)
      (hrow : s.db.workspaces cfg.workspaceId = some row)
      (hdrives : ∀ o, t.Takes cfg.workspaceId s o →
        (Critical.prepareExists caller row).Drives cfg.workspaceId o) :
      Advances cfg.workspaceId (fun o => t.Takes cfg.workspaceId s o) s
        (s.hold (.prepareExists caller row)) := by
    refine .same_db h.ledger rfl (fun c hc => ?_) (fun hc => hc.congr rfl (fun _ h => h) rfl ?_)
      fun o ho => ⟨_, rfl, hdrives o ho⟩
    · obtain rfl := Option.some.inj hc
      exact ⟨row, hrow, rfl, fun hremote => by rw [hremote]; decide⟩
    · exact .inl (by rw [hfree]; exact fun he => by cases he)
  cases t with
  | createLock sandboxId =>
    exact htake (fun row => s.hold (.prepareExists (.create sandboxId) row)) (fun row hfree hrow =>
      hprepare _ row hfree hrow fun _ ho => ho.elim) hstep
  | restoreLock operationId =>
    refine htake (fun row => s.hold (.prepareExists (.restoreRequested operationId) row))
      (fun row hfree hrow => hprepare _ row hfree hrow fun o ho => ?_) hstep
    obtain ⟨hid, r, revisionId, hr, hremote, hhead, hkeyed⟩ := ho
    obtain rfl := Option.some.inj (hrow.symm.trans hr)
    exact ⟨hid, hremote, revisionId, hhead, hkeyed⟩
  | checkpointLock =>
    refine htake (fun row => checkpointBegin cfg s row turn) (fun row hfree hrow => ?_) hstep
    have hadv := checkpointBegin_advances h hfree hrow turn
    refine { hadv with
      dirty := fun r hr hd => (hadv.dirty r hr hd).imp_right fun hall o ho => ⟨row, hrow, hall o ho⟩
      settles := fun o ho => (hadv.settles o ho).imp_right fun hold => ⟨hold.1, fun ht => ?_⟩ }
    obtain ⟨r, hr, hto⟩ := ht
    obtain rfl := Option.some.inj (hrow.symm.trans hr)
    exact hold.2 hto
  | cleanupLock =>
    exact htake (fun row => cleanupBegin cfg s row turn.now) (fun row hfree hrow =>
      cleanupBegin_advances h hrow hfree turn.now) hstep
  | createPrepare sandboxId | createClaim sandboxId | createContainer sandboxId
  | createStart sandboxId | createStarted sandboxId | createRemove sandboxId
  | createFailed sandboxId | terminateRemove sandboxId | terminateRemoved sandboxId
  | restoreRequested operationId | finished => cases hlocks

end Tasks

/-! ## Requests -/

/-- **What a request does**, which starts some coroutines. -/
structure Begins (workspaceId : String) (ts : List Task) (s s' : Host) : Prop
    extends Beside workspaceId False s s' where
  settles : ∀ o ∈ incompleteOperations s'.db, o ∈ incompleteOperations s.db ∨
    ∃ t ∈ ts, t.Drives workspaceId s' o
  restores : ∀ o' ∈ s'.db.operations, o'.status = .succeeded → ∀ revisionId,
    Keyed workspaceId o' (.restore revisionId) →
      ∃ o ∈ s.db.operations, o.status = .succeeded ∧ SameOp o o'

section Requests

variable {cfg : Settings} {ws : String} {s s' : Host} {turn : Turn} {row : WorkspaceRecord}
  {ts : List Task}

theorem Beside.begins (h : Beside ws False s s') (hsame : s'.db.operations = s.db.operations) :
    Begins ws ts s s' where
  toBeside := h
  settles := fun o ho => .inl (by rwa [incompleteOperations, hsame] at ho)
  restores := fun o' ho' hs _ _ => ⟨o', hsame ▸ ho', hs, .refl o'⟩

theorem bindOperation_created {db db' : Tables} {operationId : String} {k : OpKey}
    {record : Operation} {created : Bool} {now : ℤ}
    (h : bindOperation db operationId k.kind ws none (k.text ws) k.input now =
      .ok (db', record, created)) :
    createOperation db operationId k.kind ws none (k.text ws) k.input now =
      .ok (db', record, created) := by
  rw [bindOperation] at h
  split at h
  · cases h
  · rename_i db₁ record₁ created₁ hcreate
    split_ifs at h
    rw [hcreate, h]

/-- An operation is created, or found by its key, and updated if at all. -/
theorem begins_of_created (hl : Ledger ws s.db) {k : OpKey} {operationId : String} {db : Tables}
    {record : Operation} {created : Bool} {now : ℤ}
    (hpast : ∀ g, k = .checkpoint g → ∀ row, s.db.workspaces ws = some row → g ≤ row.generation)
    (hcreate : createOperation s.db operationId k.kind ws none (k.text ws) k.input now =
      .ok (db, record, created)) :
    Beside ws False s { s with db := db } ∧
      (∀ o ∈ incompleteOperations db, o ∈ incompleteOperations s.db ∨
        created = true ∧ o.id = record.id) := by
  obtain ⟨hl', -, hpersists⟩ := hl.create hpast hcreate
  have hworkspaces := (createOperation_frame hcreate).1
  refine ⟨⟨hl', hpersists, fun row hrow => ⟨row, ?_, .refl row⟩, fun hnone row' hrow' => ?_,
    fun _ h => h, rfl, rfl⟩, fun o ho => ?_⟩
  · rw [← hrow]
    exact congrFun hworkspaces ws
  · rw [show ({ s with db := db } : Host).db.workspaces = s.db.workspaces from hworkspaces,
      hnone] at hrow'
    cases hrow'
  · obtain ⟨hmem, hincomplete⟩ := mem_incompleteOperations.mp ho
    obtain ⟨-, -, ⟨hsame, -⟩ | ⟨-, -, -, -, hnew, hadded⟩⟩ := createOperation_cases hcreate
    · exact .inl (mem_incompleteOperations.mpr ⟨hsame ▸ hmem, hincomplete⟩)
    · rw [hadded] at hmem
      rcases List.mem_append.mp hmem with hmem | hmem
      · exact .inl (mem_incompleteOperations.mpr ⟨hmem, hincomplete⟩)
      · exact .inr ⟨hnew, congrArg _ (List.mem_singleton.mp hmem)⟩

/-- **A coroutine is started for what the request has left to do.** -/
theorem startOperation_begins (hl : Ledger ws s.db) {k : OpKey} {operationId : String} {db : Tables}
    {record : Operation} {created : Bool} {task : Task} {now : ℤ}
    (hpast : ∀ g, k = .checkpoint g → ∀ row, s.db.workspaces ws = some row → g ≤ row.generation)
    (hcreate : createOperation s.db operationId k.kind ws none (k.text ws) k.input now =
      .ok (db, record, created))
    (hstart : startOperation { s with db := db } record created task now = some (s', ts))
    (htask : ∀ o ∈ s'.db.operations, o.id = record.id → Keyed ws o k → task.Drives ws s' o) :
    Begins ws ts s s' := by
  obtain ⟨hb, hincomplete⟩ := begins_of_created hl hpast hcreate
  have hrecord := (createOperation_cases hcreate).2.1
  have hkeyed := (hl.create hpast hcreate).2.1
  rw [startOperation] at hstart
  split at hstart
  · cases hstart
  · rename_i db' record' scheduled hschedule
    obtain ⟨rfl, rfl⟩ := Prod.mk.inj (Option.some.inj hstart)
    rw [scheduleOperation] at hschedule
    split_ifs at hschedule with hcreated hfailed
    · obtain ⟨rfl, hr⟩ := Prod.mk.inj (Except.ok.inj hschedule)
      obtain ⟨-, rfl⟩ := Prod.mk.inj hr
      refine ⟨hb, fun o ho => (hincomplete o ho).imp_right fun hnew => ?_, fun o' ho' hs _ _ =>
        ⟨o', created_succeeded hcreate ho' hs, hs, .refl o'⟩⟩
      have hmem := (mem_incompleteOperations.mp ho).1
      refine ⟨task, by simp, htask o hmem hnew.2 ?_⟩
      rwa [hb.ledger.unique_id hmem hrecord hnew.2]
    · split at hschedule
      · cases hschedule
      · rename_i db₁ hupdate
        obtain ⟨rfl, hr⟩ := Prod.mk.inj (Except.ok.inj hschedule)
        obtain ⟨-, rfl⟩ := Prod.mk.inj hr
        have hu := updateOperation_updated hupdate
        have hb' : Beside ws False { s with db := db } { s with db := db₁ } :=
          .of_updated hb.ledger hu fun he => by cases he
        refine ⟨⟨hb'.ledger, hb.persists.trans hb'.persists, fun row hrow => ?_,
          fun hnone row' hrow' => hb.fresh hnone row' ((congrFun hu.workspaces ws) ▸ hrow'), fun _ h => h, rfl, rfl⟩,
          fun o ho => ?_, fun o' ho' hs _ _ => ?_⟩
        · obtain ⟨row', hrow', hr⟩ := hb.row row hrow
          exact ⟨row', (congrFun hu.workspaces ws).trans hrow', hr⟩
        · rcases hu.incomplete ho with ⟨hold, -⟩ | ⟨hid, -⟩
          · refine .inl ((hincomplete o hold).resolve_right fun hnew => hcreated hnew.1)
          · refine .inr ⟨task, by simp, htask o (mem_incompleteOperations.mp ho).1 hid ?_⟩
            exact HasOp.keyed (HasOp.persists ⟨record, hrecord, rfl, hkeyed⟩ hu.persists) hb'.ledger
              (mem_incompleteOperations.mp ho).1 hid
        · rcases hu.succeeded ho' hs with ⟨o, ho, hos, hsame⟩ | ⟨-, hpending⟩
          · exact ⟨o, created_succeeded hcreate ho hos, hos, hsame⟩
          · cases hpending
    · obtain ⟨rfl, hr⟩ := Prod.mk.inj (Except.ok.inj hschedule)
      obtain ⟨-, rfl⟩ := Prod.mk.inj hr
      refine ⟨hb, fun o ho => .inl ((hincomplete o ho).resolve_right fun hnew => hcreated hnew.1),
        fun o' ho' hs _ _ => ⟨o', created_succeeded hcreate ho' hs, hs, .refl o'⟩⟩

theorem requestCheckpoint_begins (hl : Ledger cfg.workspaceId s.db)
    (hrow : s.db.workspaces cfg.workspaceId = some row)
    (h : requestCheckpoint cfg s row turn = some (s', ts)) : Begins cfg.workspaceId ts s s' := by
  have hgo : ¬ (row.activeSandboxId ≠ none ∨
      row.status ∉ [WorkspaceStatus.detachedDirty, .detachedClean]) := by
    intro hrefused
    rw [requestCheckpoint, if_pos hrefused] at h
    cases h
  rw [requestCheckpoint, if_neg hgo] at h
  obtain ⟨-, hstatus⟩ := not_or.mp hgo
  split at h
  · cases h
  · rename_i db record created hbind
    have hcreate := bindOperation_created (k := .checkpoint row.generation) hbind
    have hpast : ∀ g, OpKey.checkpoint row.generation = .checkpoint g → ∀ r,
        s.db.workspaces cfg.workspaceId = some r → g ≤ r.generation := by
      intro g hg r hr
      obtain rfl := Option.some.inj (hrow.symm.trans hr)
      exact Nat.le_of_eq (OpKey.checkpoint.inj hg).symm
    obtain ⟨hb, hincomplete⟩ := begins_of_created hl hpast hcreate
    have hrow₁ : db.workspaces cfg.workspaceId = some row := by
      rw [← hrow]
      exact congrFun (createOperation_frame hcreate).1 cfg.workspaceId
    split at h
    · rename_i hclean
      split at h
      · cases h
      · rename_i db' hupdate
        obtain ⟨rfl, rfl⟩ := Prod.mk.inj (Option.some.inj h)
        have hu := updateOperation_updated hupdate
        have hb' : Beside cfg.workspaceId False { s with db := db } { s with db := db' } :=
          .of_updated hb.ledger hu fun _ r hr => by
            obtain rfl := Option.some.inj (hrow₁.symm.trans hr)
            rw [hclean]
            rfl
        have hhas : HasOp cfg.workspaceId db record.id (.checkpoint row.generation) :=
          ⟨record, (createOperation_cases hcreate).2.1, rfl, (hl.create hpast hcreate).2.1⟩
        refine ⟨⟨hb'.ledger, hb.persists.trans hb'.persists, fun r hr => ⟨r, ?_, .refl r⟩,
          fun hnone => ?_, fun _ h => h, rfl, rfl⟩, fun o ho => .inl ?_, fun o' ho' hs r hr => ?_⟩
        · obtain rfl := Option.some.inj (hrow.symm.trans hr)
          exact (congrFun hu.workspaces _).trans hrow₁
        · rw [hrow] at hnone
          cases hnone
        · rcases hu.incomplete ho with ⟨hold, hid⟩ | ⟨-, hs⟩
          · exact (hincomplete o hold).resolve_right fun hnew => hid hnew.2
          · cases hs
        · rcases hu.succeeded ho' hs with ⟨o, ho, hos, hsame⟩ | ⟨hid, -⟩
          · exact ⟨o, created_succeeded hcreate ho hos, hos, hsame⟩
          · have hkeyed := (hhas.persists hu.persists).keyed hb'.ledger ho' hid
            exact absurd (hr.unique hkeyed) fun he => by cases he
    · rename_i hclean
      have hdirty : row.status = .detachedDirty := by
        simp only [List.mem_cons, List.not_mem_nil, or_false, not_not] at hstatus
        exact hstatus.resolve_right hclean
      refine startOperation_begins hl hpast hcreate h fun o _ _ ho => ⟨row, ?_, hdirty, ho⟩
      -- the start leaves the rows alone
      rw [startOperation] at h
      split at h
      · cases h
      · rename_i db' record' scheduled hschedule
        obtain ⟨rfl, -⟩ := Prod.mk.inj (Option.some.inj h)
        rw [← hrow₁]
        exact congrFun (scheduleOperation_frame hschedule).1 cfg.workspaceId

theorem requestRestore_begins (hl : Ledger cfg.workspaceId s.db)
    (h : requestRestore cfg s row turn = some (s', ts)) : Begins cfg.workspaceId ts s s' := by
  rw [requestRestore] at h
  split at h
  · cases h
  · rename_i revisionId hhead
    split_ifs at h
    dsimp only at h
    split at h
    · cases h
    · rename_i db record created hbind
      exact startOperation_begins (k := .restore revisionId) hl (fun g hg => by cases hg)
        (bindOperation_created (k := .restore revisionId) hbind) h fun o _ hid _ => hid

/-- **The events that do not come from the holder of the lock.** -/
theorem eventStep_begins {e : Event} (h : HostOk cfg.workspaceId s)
    (hholder : ∀ turn, e ≠ .holder turn)
    (hstep : eventStep cfg s e = some (s', ts)) : Begins cfg.workspaceId ts s s' := by
  have hkeep : Beside cfg.workspaceId False s s := .of_db h.ledger rfl rfl (fun _ h => h) rfl rfl
  cases e with
  | holder turn => exact absurd rfl (hholder turn)
  | create sandboxId =>
    obtain ⟨rfl, -⟩ := Prod.mk.inj (Option.some.inj hstep)
    exact hkeep.begins rfl
  | terminate sandboxId | checkpoint | cleanup =>
    simp only [eventStep] at hstep
    split at hstep
    · obtain ⟨rfl, -⟩ := Prod.mk.inj (Option.some.inj hstep)
      exact hkeep.begins rfl
    · cases hstep
  | requestCheckpoint turn =>
    simp only [eventStep] at hstep
    split at hstep
    · obtain ⟨r, hr, heq⟩ := Option.bind_eq_some_iff.mp hstep
      exact requestCheckpoint_begins h.ledger hr heq
    · cases hstep
  | requestRestore turn =>
    simp only [eventStep] at hstep
    split at hstep
    · obtain ⟨r, -, heq⟩ := Option.bind_eq_some_iff.mp hstep
      exact requestRestore_begins h.ledger heq
    · cases hstep
  | ensureVolume =>
    obtain ⟨rfl, -⟩ := Prod.mk.inj (Option.some.inj hstep)
    exact Beside.begins (.of_db h.ledger rfl rfl (fun _ hc => hc.ensureVolume) rfl rfl) rfl
  | agentWrite changes =>
    obtain ⟨r, -, heq⟩ := Option.bind_eq_some_iff.mp hstep
    split at heq
    · obtain ⟨content, hcontent, heq⟩ := Option.map_eq_some_iff.mp heq
      obtain ⟨rfl, -⟩ := Prod.mk.inj heq
      refine Beside.begins (.of_db h.ledger rfl rfl (fun c hc => ?_) rfl rfl) rfl
      obtain ⟨v, hv, hsuffix⟩ := hc
      obtain rfl := Option.some.inj (hcontent.symm.trans hv)
      exact ⟨changes ++ content, rfl, hsuffix.trans (List.suffix_append _ _)⟩
    · cases heq

end Requests

end CodexGateway.Manager
