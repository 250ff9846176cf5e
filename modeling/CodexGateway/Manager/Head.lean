import CodexGateway.Manager.Workspace

/-!
# Manager/Head — the volume of a running Workspace has the work of its head

The status says where the work of the head is: in the volume while the Workspace is detached,
running or being checkpointed, only in the object store once it is `remote_only`.  The coroutine
that holds the lock may be between the two, and `Phase` says how far it is.  A claim that comes
while the work is not in the volume breaks this; no other step does.
-/

namespace CodexGateway.Manager

variable {cfg : Settings}

/-! ## The invariant -/

/-- The volume is `content` or derived from it. -/
def Host.Contains (s : Host) (content : Content) : Prop :=
  ∃ v, s.volume = some v ∧ content <:+ v

/-- **The volume is the head or derived from it.** -/
def Covered (s : Host) (row : WorkspaceRecord) : Prop :=
  ∀ revisionId, row.headRevision = some revisionId →
    ∃ content, s.snapshots revisionId = some content ∧ s.Contains content

/-- No coroutine has taken the Workspace away. -/
def WorkspaceStatus.isOpen : WorkspaceStatus → Bool
  | .detachedClean | .detachedDirty | .running | .remoteOnly => true
  | _ => false

/-- What holds of a Workspace whose lock is free. -/
structure Free (s : Host) (row : WorkspaceRecord) : Prop where
  isOpen : row.status.isOpen = true
  covered : row.status ≠ .remoteOnly → Covered s row

/-- What `_prepare_workspace` has read is still true. -/
structure Reads (current row : WorkspaceRecord) : Prop where
  head : current.headRevision = row.headRevision
  remote : current.status = .remoteOnly ↔ row.status = .remoteOnly

/-- What holds while a coroutine with the lock waits. -/
def Phase (s : Host) (row : WorkspaceRecord) : Option Critical → Prop
  | none => Free s row
  | some (.prepareExists _ current) => Free s row ∧ Reads current row
  | some (.prepareDecide _ current volumeExists) => Free s row ∧ Reads current row ∧
      (volumeExists = false → row.status ≠ .remoteOnly → row.headRevision = none)
  | some (.prepareEnsure _) => Free s row
  | some (.restoreExists _ revisionId) | some (.restoreRemove _ revisionId)
  | some (.restoreEnsure _ revisionId) | some (.restoreBegin _ revisionId) =>
      row.status = .remoteOnly ∧ row.headRevision = some revisionId
  | some (.restoreRun _ _ revisionId) =>
      row.status = .restoring ∧ row.headRevision = some revisionId
  | some (.restoreDone _ _ _) => row.status = .restoring ∧ Covered s row
  | some (.restoreUndo _ _ _) | some (.restoreFail _ _ _) => row.status = .restoring
  | some (.checkpointRun _ _) | some (.checkpointFail _ _) =>
      row.status = .checkpointing ∧ Covered s row
  | some (.checkpointDone _ _ revisionId) => row.status = .checkpointing ∧ Covered s row ∧
      ∃ new, s.snapshots revisionId = some new ∧ s.Contains new ∧
        ∀ head old, row.headRevision = some head → s.snapshots head = some old → old <:+ new
  | some .cleanupRemove => row.status = .detachedClean ∧ Covered s row
  | some .cleanupRemoved => row.status = .detachedClean

/-- The tables of a host that has the row: only a running Workspace has a Sandbox, the head has a
snapshot, and every Sandbox is one of this Workspace. -/
structure At (cfg : Settings) (s : Host) (row : WorkspaceRecord) : Prop where
  stored : s.db.workspaces cfg.workspaceId = some row
  active : row.activeSandboxId ≠ none ↔ row.status = .running
  saved : ∀ revisionId, row.headRevision = some revisionId → (s.snapshots revisionId).isSome
  sandboxes : ∀ id sandbox, s.db.sandboxes id = some sandbox →
    sandbox.workspaceId = cfg.workspaceId

/-- The invariant of a host. -/
def Good (cfg : Settings) (s : Host) : Prop := ∃ row, At cfg s row ∧ Phase s row s.holder

/-- The head of a host and its content. -/
def HasHead (cfg : Settings) (s : Host) (content : Content) : Prop :=
  ∃ row revisionId, s.db.workspaces cfg.workspaceId = some row ∧
    row.headRevision = some revisionId ∧ s.snapshots revisionId = some content

/-- **A later head contains the earlier one.** -/
def HeadKept (cfg : Settings) (s s' : Host) : Prop :=
  ∀ old, HasHead cfg s old → ∃ new, HasHead cfg s' new ∧ old <:+ new

/-- Nothing changes. -/
theorem HeadKept.refl (s : Host) : HeadKept cfg s s := fun old h => ⟨old, h, List.suffix_rfl⟩

/-- What two steps in a row keep is kept. -/
theorem HeadKept.trans {s m s' : Host} (h : HeadKept cfg s m) (h' : HeadKept cfg m s') :
    HeadKept cfg s s' := fun old hold => by
  obtain ⟨mid, hmid, hsuffix⟩ := h old hold
  obtain ⟨new, hnew, hsuffix'⟩ := h' mid hmid
  exact ⟨new, hnew, hsuffix.trans hsuffix'⟩

/-- What a step has to keep. -/
def Keeps (cfg : Settings) (s s' : Host) : Prop := Good cfg s' ∧ HeadKept cfg s s'

/-- The host is good, with this head and these snapshots. -/
def Leads (cfg : Settings) (head : Option String) (snapshots : String → Option Content)
    (s : Host) : Prop :=
  ∃ row, At cfg s row ∧ row.headRevision = head ∧ s.snapshots = snapshots ∧ Phase s row s.holder

/-- A step that leads somewhere keeps the heads. -/
theorem Leads.keeps {s s' : Host} {row : WorkspaceRecord}
    (h : Leads cfg row.headRevision s.snapshots s') (hat : At cfg s row) : Keeps cfg s s' := by
  obtain ⟨row', hat', hhead, hsnapshots, hphase⟩ := h
  refine ⟨⟨row', hat', hphase⟩, fun old hold => ?_⟩
  obtain ⟨r, revisionId, hr, hrev, hold⟩ := hold
  obtain rfl := Option.some.inj (hat.stored.symm.trans hr)
  exact ⟨old, ⟨row', revisionId, hat'.stored, hhead.trans hrev, hsnapshots ▸ hold⟩, List.suffix_rfl⟩

/-! ## What the volume may do -/

/-- A volume that has to be there has what it had. -/
theorem Host.Contains.ensureVolume {s : Host} {content : Content} (h : s.Contains content) :
    s.ensureVolume.Contains content := by
  obtain ⟨v, hv, hsuffix⟩ := h
  exact ⟨v, by simp [Host.ensureVolume, hv], hsuffix⟩

/-- What is written besides stays beside it. -/
theorem Host.Contains.write {s : Host} {content : Content} (changes : Content)
    (h : s.Contains content) : (s.write changes).Contains content := by
  obtain ⟨v, hv, hsuffix⟩ := h
  exact ⟨changes ++ v, by simp [Host.write, hv], hsuffix.trans (List.suffix_append _ _)⟩

/-- What a volume contains it still contains. -/
def Grows (s s' : Host) : Prop := ∀ content, s.Contains content → s'.Contains content

/-- A mount adds to the volume. -/
theorem grows_mount (s : Host) (written : Option Content) : Grows s (s.mount written) := by
  intro content h
  cases written with
  | none => exact h
  | some changes => exact h.write changes

/-- What covers the head covers it in a volume that has grown. -/
theorem Covered.grow {s s' : Host} {row row' : WorkspaceRecord} (h : Covered s row)
    (hgrows : Grows s s') (hsnapshots : s'.snapshots = s.snapshots)
    (hhead : row'.headRevision = row.headRevision) : Covered s' row' := fun revisionId hrev => by
  obtain ⟨content, hcontent, hcontains⟩ := h revisionId (hhead ▸ hrev)
  exact ⟨content, hsnapshots ▸ hcontent, hgrows content hcontains⟩

/-- A free Workspace stays so in a volume that has grown. -/
theorem Free.grow {s s' : Host} {row row' : WorkspaceRecord} (h : Free s row)
    (hgrows : Grows s s') (hsnapshots : s'.snapshots = s.snapshots)
    (hhead : row'.headRevision = row.headRevision) (hstatus : row'.status = row.status) :
    Free s' row' :=
  ⟨hstatus ▸ h.isOpen, fun hremote =>
    (h.covered (hstatus ▸ hremote)).grow hgrows hsnapshots hhead⟩

/-- A row that was read is still as it was where the head has not moved. -/
theorem Reads.congr {current row row' : WorkspaceRecord} (h : Reads current row)
    (hhead : row'.headRevision = row.headRevision)
    (hremote : row'.status = .remoteOnly ↔ row.status = .remoteOnly) : Reads current row' :=
  ⟨h.head.trans hhead.symm, h.remote.trans hremote.symm⟩

/-- **A phase outlasts what other coroutines write to the volume.** -/
theorem Phase.grow {s s' : Host} {row row' : WorkspaceRecord} {c : Option Critical}
    (h : Phase s row c) (hgrows : Grows s s') (hsnapshots : s'.snapshots = s.snapshots)
    (hhead : row'.headRevision = row.headRevision) (hstatus : row'.status = row.status) :
    Phase s' row' c := by
  have hcovered : Covered s row → Covered s' row' := fun h => h.grow hgrows hsnapshots hhead
  have hfree : Free s row → Free s' row' := fun h => h.grow hgrows hsnapshots hhead hstatus
  cases c with
  | none => exact hfree h
  | some c =>
    cases c with
    | prepareExists caller current =>
      exact ⟨hfree h.1, h.2.congr hhead (by rw [hstatus])⟩
    | prepareDecide caller current volumeExists =>
      exact ⟨hfree h.1, h.2.1.congr hhead (by rw [hstatus]),
        fun hexists hremote => hhead.trans (h.2.2 hexists (hstatus ▸ hremote))⟩
    | prepareEnsure caller => exact hfree h
    | restoreExists caller r | restoreRemove caller r | restoreEnsure caller r
    | restoreBegin caller r | restoreRun caller operationId r =>
      exact ⟨hstatus.trans h.1, hhead.trans h.2⟩
    | restoreDone caller operationId r => exact ⟨hstatus.trans h.1, hcovered h.2⟩
    | restoreUndo caller operationId error | restoreFail caller operationId error =>
      exact hstatus.trans h
    | checkpointRun operationId generation | checkpointFail operationId error =>
      exact ⟨hstatus.trans h.1, hcovered h.2⟩
    | checkpointDone operationId generation r =>
      obtain ⟨hrow, hcov, new, hnew, hcontains, hlater⟩ := h
      refine ⟨hstatus.trans hrow, hcovered hcov, new, hsnapshots ▸ hnew, hgrows new hcontains,
        fun head old hrev hold => hlater head old (hhead ▸ hrev) (hsnapshots ▸ hold)⟩
    | cleanupRemove => exact ⟨hstatus.trans h.1, hcovered h.2⟩
    | cleanupRemoved => exact hstatus.trans h

/-- What a claim needs: the work of the head is in the volume and stays there. -/
structure Mountable (row : WorkspaceRecord) (c : Option Critical) : Prop where
  mountable : row.status.notMountable = false
  isLocal : row.status ≠ .remoteOnly
  noCleanup : c ≠ some .cleanupRemove ∧ c ≠ some .cleanupRemoved

/-- **A claim, and the end of a Sandbox, leave the holder of the lock where it is.** -/
theorem Phase.reopen {s s' : Host} {row row' : WorkspaceRecord} {c : Option Critical}
    (h : Phase s row c) (hm : Mountable row c) (hgrows : Grows s s')
    (hsnapshots : s'.snapshots = s.snapshots) (hhead : row'.headRevision = row.headRevision)
    (hopen : row'.status.isOpen = true) (hlocal : row'.status ≠ .remoteOnly) :
    Phase s' row' c := by
  have hfree : Free s row → Free s' row' := fun h =>
    ⟨hopen, fun _ => (h.covered hm.isLocal).grow hgrows hsnapshots hhead⟩
  have hremote : row'.status = .remoteOnly ↔ row.status = .remoteOnly := by
    simp [hm.isLocal, hlocal]
  have hbusy : row.status ≠ .restoring ∧ row.status ≠ .checkpointing := by
    have hmount := hm.mountable
    constructor <;> intro he <;> simp [he, WorkspaceStatus.notMountable] at hmount
  cases c with
  | none => exact hfree h
  | some c =>
    cases c with
    | prepareExists caller current => exact ⟨hfree h.1, h.2.congr hhead hremote⟩
    | prepareDecide caller current volumeExists =>
      exact ⟨hfree h.1, h.2.1.congr hhead hremote,
        fun hexists _ => hhead.trans (h.2.2 hexists hm.isLocal)⟩
    | prepareEnsure caller => exact hfree h
    | restoreExists caller r | restoreRemove caller r | restoreEnsure caller r
    | restoreBegin caller r => exact absurd h.1 hm.isLocal
    | restoreRun caller operationId r | restoreDone caller operationId r => exact absurd h.1 hbusy.1
    | restoreUndo caller operationId error | restoreFail caller operationId error =>
      exact absurd h hbusy.1
    | checkpointRun operationId generation | checkpointFail operationId error =>
      exact absurd h.1 hbusy.2
    | checkpointDone operationId generation r => exact absurd h.1 hbusy.2
    | cleanupRemove => exact absurd rfl hm.noCleanup.1
    | cleanupRemoved => exact absurd rfl hm.noCleanup.2

/-! ## Transactions -/

/-- The end of an operation changes no Workspace. -/
@[simp] theorem endOperation_workspaces (db : Tables) (operationId : String)
    (status : OperationStatus) (result : Option OperationResult) (error : Option String) (now : ℤ) :
    (endOperation db operationId status result error now).workspaces = db.workspaces := by
  rw [endOperation]
  cases h : updateOperation db operationId status none result error now with
  | error e => rfl
  | ok db' => exact (updateOperation_frame h).1

/-- The end of an operation changes no Sandbox. -/
@[simp] theorem endOperation_sandboxes (db : Tables) (operationId : String)
    (status : OperationStatus) (result : Option OperationResult) (error : Option String) (now : ℤ) :
    (endOperation db operationId status result error now).sandboxes = db.sandboxes := by
  rw [endOperation]
  cases h : updateOperation db operationId status none result error now with
  | error e => rfl
  | ok db' => exact (updateOperation_frame h).2

/-- Only the tables of Workspaces and Sandboxes, and the snapshots, are looked at. -/
theorem At.congr {s s' : Host} {row : WorkspaceRecord} (h : At cfg s row)
    (hworkspaces : s'.db.workspaces = s.db.workspaces) (hsandboxes : s'.db.sandboxes = s.db.sandboxes)
    (hsnapshots : s'.snapshots = s.snapshots) : At cfg s' row :=
  ⟨hworkspaces ▸ h.stored, h.active, hsnapshots ▸ h.saved, hsandboxes ▸ h.sandboxes⟩

/-- A Workspace that does not run has no active Sandbox. -/
theorem At.idle {s : Host} {row : WorkspaceRecord} (h : At cfg s row)
    (hstatus : row.status ≠ .running) : row.activeSandboxId = none := by
  by_contra hne
  exact hstatus (h.active.mp hne)

/-- A transition of a Workspace without a Sandbox. -/
theorem At.move {s : Host} {row : WorkspaceRecord} (h : At cfg s row)
    (hidle : row.activeSandboxId = none) (status : WorkspaceStatus) (hstatus : status ≠ .running)
    (now : ℤ) : At cfg { s with db := s.db.putWorkspace cfg.workspaceId (row.move status now) }
      (row.move status now) where
  stored := Db.putWorkspace_workspaces ..
  active := by simp [WorkspaceRecord.move, hidle, hstatus]
  saved := h.saved
  sandboxes := h.sandboxes

/-- A transition from the status the row has is made. -/
theorem transitionOrKeep_eq {s : Host} {row : WorkspaceRecord} (h : At cfg s row)
    {expected : List WorkspaceStatus} (hstatus : row.status ∈ expected)
    (hidle : row.activeSandboxId = none) (status : WorkspaceStatus) (now : ℤ) :
    transitionOrKeep cfg s.db expected status now =
      s.db.putWorkspace cfg.workspaceId (row.move status now) := by
  rw [transitionOrKeep, transitionWorkspace_eq h.stored hstatus hidle]
  rfl

/-! ## The turns of `_prepare_workspace` -/

section Prepare

variable {s : Host} {row : WorkspaceRecord}

/-- The holder of the lock goes on to its next call. -/
theorem hold_leads (hat : At cfg s row) (c : Critical) (hphase : Phase s row (some c)) :
    Leads cfg row.headRevision s.snapshots (s.hold c) :=
  ⟨row, hat.congr rfl rfl rfl, rfl, rfl, hphase.grow (fun _ h => h) rfl rfl rfl⟩

/-- The preparation is over, and a free Workspace is returned. -/
theorem prepareReturn_leads (hat : At cfg s row) (hfree : Free s row) (caller : Caller) :
    Leads cfg row.headRevision s.snapshots (prepareReturn cfg s caller).1 := by
  cases caller
  all_goals exact ⟨row, hat.congr rfl rfl rfl, rfl, rfl, hfree.grow (fun _ h => h) rfl rfl rfl⟩

/-- The preparation fails, and a free Workspace stays one. -/
theorem prepareRaise_leads (hat : At cfg s row) (hfree : Free s row) (error : String) (now : ℤ)
    (caller : Caller) :
    Leads cfg row.headRevision s.snapshots (prepareRaise s error now caller).1 := by
  cases caller with
  | create sandboxId =>
    exact ⟨row, hat.congr rfl rfl rfl, rfl, rfl, hfree.grow (fun _ h => h) rfl rfl rfl⟩
  | restoreRequested operationId =>
    exact ⟨row, hat.congr (endOperation_workspaces ..) (endOperation_sandboxes ..) rfl, rfl, rfl,
      hfree.grow (fun _ h => h) rfl rfl rfl⟩

/-- A Workspace that is only remote is free: its volume is not read. -/
theorem free_of_remoteOnly (h : row.status = .remoteOnly) : Free s row :=
  ⟨by rw [h]; rfl, fun hne => absurd h hne⟩

/-- A Workspace that is only remote is prepared by a restore. -/
theorem prepareRemote_leads (hat : At cfg s row) (hremote : row.status = .remoteOnly)
    {current : WorkspaceRecord} (hhead : current.headRevision = row.headRevision) (now : ℤ)
    (caller : Caller) :
    Leads cfg row.headRevision s.snapshots (prepareRemote cfg s caller current now).1 := by
  rw [prepareRemote]
  split
  · rename_i revisionId hrev
    split
    · exact hold_leads hat (.restoreExists caller revisionId) ⟨hremote, hhead.symm.trans hrev⟩
    · exact prepareRaise_leads hat (free_of_remoteOnly hremote) _ _ _
  · exact prepareRaise_leads hat (free_of_remoteOnly hremote) _ _ _

/-- The preparation decides by what it has read of the row and the volume. -/
theorem prepareDecide_leads (hat : At cfg s row) {caller : Caller} {current : WorkspaceRecord}
    {volumeExists : Bool} (hphase : Phase s row (some (.prepareDecide caller current volumeExists)))
    (now : ℤ) : Leads cfg row.headRevision s.snapshots
      (prepareDecide cfg s caller current volumeExists now).1 := by
  obtain ⟨hfree, hreads, habsent⟩ := hphase
  rw [prepareDecide]
  by_cases hremote : current.status = .remoteOnly
  · simp only [hremote, ne_eq, not_true_eq_false, false_and, if_false]
    exact prepareRemote_leads hat (hreads.remote.mp hremote) hreads.head _ _
  · have hlocal : row.status ≠ .remoteOnly := mt hreads.remote.mpr hremote
    cases volumeExists with
    | true =>
      simp only [hremote, ne_eq, not_false_eq_true, and_false, Bool.true_eq_false, if_false, if_true]
      exact prepareReturn_leads hat hfree caller
    | false =>
      have hhead : current.headRevision = none := hreads.head.trans (habsent rfl hlocal)
      simp only [hremote, hhead, ne_eq, not_false_eq_true, and_self, not_true_eq_false, false_and,
        if_false, if_true]
      split
      · exact prepareRaise_leads hat hfree _ _ _
      · exact hold_leads hat (.prepareEnsure caller) hfree

/-- A restore begins for the head. -/
theorem restoreBegin_leads (hat : At cfg s row) {revisionId : String}
    (hremote : row.status = .remoteOnly) (hhead : row.headRevision = some revisionId)
    (caller : Caller) (turn : Turn) : Leads cfg row.headRevision s.snapshots
      (restoreBegin cfg s caller revisionId turn).1 := by
  simp only [restoreBegin]
  split
  · exact prepareRaise_leads hat (free_of_remoteOnly hremote) _ _ _
  · rename_i db operation created hcreate
    obtain ⟨hw, hs⟩ := createOperation_frame hcreate
    have hat₁ : At cfg { s with db := db } row := hat.congr hw hs rfl
    have hidle : row.activeSandboxId = none := hat.idle (by simp [hremote])
    rw [transitionWorkspace_eq hat₁.stored (List.mem_singleton.mpr hremote) hidle]
    have hat₂ := hat₁.move hidle .restoring (by simp) turn.now
    dsimp only
    split
    · exact hold_leads hat₂ (.restoreUndo caller operation.id _) rfl
    · rename_i db' hupdate
      obtain ⟨hw', hs'⟩ := updateOperation_frame hupdate
      have hat₃ : At cfg { s with db := db' } (row.move .restoring turn.now) :=
        hat₂.congr hw' hs' rfl
      exact hold_leads hat₃ (.restoreRun caller operation.id revisionId) ⟨rfl, hhead⟩

/-- A restore writes the content of the head's snapshot. -/
theorem restoreRun_leads (hat : At cfg s row) {caller : Caller} {operationId revisionId : String}
    (hrestoring : row.status = .restoring) (hhead : row.headRevision = some revisionId)
    (turn : Turn) : Leads cfg row.headRevision s.snapshots
      (restoreRun s caller operationId revisionId turn) := by
  rw [restoreRun]
  split
  · exact hold_leads hat (.restoreUndo caller operationId _) hrestoring
  · rename_i hempty
    split
    · rename_i content hok hcontent
      have hat' : At cfg (s.write content) row := hat.congr rfl rfl rfl
      refine hold_leads hat' (.restoreDone caller operationId revisionId) ⟨hrestoring, ?_⟩
      intro r hr
      obtain rfl := Option.some.inj (hhead.symm.trans hr)
      exact ⟨content, hcontent, content, by simp [Host.write, not_not.mp hempty], List.suffix_rfl⟩
    · have hat' : At cfg (s.mount turn.written) row := by
        cases turn.written <;> exact hat.congr rfl rfl rfl
      have hsnapshots : (s.mount turn.written).snapshots = s.snapshots := by
        cases turn.written <;> rfl
      exact hsnapshots ▸ hold_leads hat' (.restoreUndo caller operationId turn.text) hrestoring

/-- A restore that has run leaves the volume with the head. -/
theorem restoreDone_leads (hat : At cfg s row) {operationId revisionId : String}
    (hrestoring : row.status = .restoring) (hcovered : Covered s row) (caller : Caller) (now : ℤ) :
    Leads cfg row.headRevision s.snapshots
      (restoreDone cfg s caller operationId revisionId now).1 := by
  rw [restoreDone]
  split
  · exact hold_leads hat (.restoreUndo caller operationId _) hrestoring
  · rename_i db hupdate
    obtain ⟨hw, hs⟩ := updateOperation_frame hupdate
    have hat₁ : At cfg { s with db := db } row := hat.congr hw hs rfl
    have hidle : row.activeSandboxId = none := hat.idle (by simp [hrestoring])
    rw [transitionWorkspace_eq hat₁.stored (List.mem_singleton.mpr hrestoring) hidle]
    exact prepareReturn_leads (hat₁.move hidle _ (by simp) now) ⟨rfl, fun _ => hcovered⟩ caller

/-- A restore that fails leaves the Workspace remote. -/
theorem restoreFail_leads (hat : At cfg s row) (hrestoring : row.status = .restoring)
    (caller : Caller) (operationId error : String) (now : ℤ) :
    Leads cfg row.headRevision s.snapshots
      (restoreFail cfg s caller operationId error now).1 := by
  have hidle : row.activeSandboxId = none := hat.idle (by simp [hrestoring])
  have hat₁ : At cfg { s with db := endOperation s.db operationId .failed none (some error) now }
      row := hat.congr (endOperation_workspaces ..) (endOperation_sandboxes ..) rfl
  simp only [restoreFail]
  rw [transitionOrKeep_eq hat₁ (List.mem_singleton.mpr hrestoring) hidle]
  exact prepareRaise_leads (hat₁.move hidle _ (by simp) now) (free_of_remoteOnly rfl) _ _ _

end Prepare

/-! ## The turns of `_checkpoint_workspace` and `_cleanup_local_workspace` -/

section Checkpoint

variable {s : Host} {row : WorkspaceRecord}

/-- The lock of a free Workspace is given back. -/
theorem unlock_leads (hat : At cfg s row) (hfree : Free s row) :
    Leads cfg row.headRevision s.snapshots s.unlock :=
  ⟨row, hat.congr rfl rfl rfl, rfl, rfl, hfree.grow (fun _ h => h) rfl rfl rfl⟩

/-- A checkpoint that fails leaves the head where it was. -/
theorem checkpointFail_leads (hat : At cfg s row) (hstatus : row.status = .checkpointing)
    (hcovered : Covered s row) (operationId error : String) (now : ℤ) :
    Leads cfg row.headRevision s.snapshots (checkpointFail cfg s operationId error now) := by
  have hidle : row.activeSandboxId = none := hat.idle (by simp [hstatus])
  have hat₁ : At cfg { s with db := endOperation s.db operationId .failed none (some error) now }
      row := hat.congr (endOperation_workspaces ..) (endOperation_sandboxes ..) rfl
  simp only [checkpointFail]
  rw [transitionOrKeep_eq hat₁ (List.mem_singleton.mpr hstatus) hidle]
  exact unlock_leads (hat₁.move hidle _ (by simp) now) ⟨rfl, fun _ => hcovered⟩

/-- A checkpoint begins for an idle Workspace with changes. -/
theorem checkpointBegin_leads (hat : At cfg s row) (hholder : s.holder = none)
    (hfree : Free s row) (turn : Turn) :
    Leads cfg row.headRevision s.snapshots (checkpointBegin cfg s row turn) := by
  have hstays : ∀ db : Tables, db.workspaces = s.db.workspaces → db.sandboxes = s.db.sandboxes →
      Leads cfg row.headRevision s.snapshots { s with db := db } := fun db hw hs => by
    refine ⟨row, hat.congr hw hs rfl, rfl, rfl, ?_⟩
    rw [show ({ s with db := db } : Host).holder = none from hholder]
    exact hfree.grow (fun _ h => h) rfl rfl rfl
  rw [checkpointBegin]
  split
  · exact hstays s.db rfl rfl
  · rename_i hopen
    obtain ⟨hidle, hdirty⟩ := not_or.mp hopen
    have hidle : row.activeSandboxId = none := not_not.mp hidle
    have hdirty : row.status = .detachedDirty := not_not.mp hdirty
    split
    · exact hstays s.db rfl rfl
    · rename_i db operation created hcreate
      obtain ⟨hw, hs⟩ := createOperation_frame hcreate
      split
      · exact hstays db hw hs
      · have hat₁ : At cfg { s with db := db } row := hat.congr hw hs rfl
        have hat₂ := hat₁.move hidle .checkpointing (by simp) turn.now
        have hcovered := hfree.covered (by simp [hdirty])
        rw [transitionWorkspace_eq hat₁.stored (List.mem_singleton.mpr hdirty) hidle]
        dsimp only
        split
        · exact checkpointFail_leads hat₂ rfl hcovered _ _ _
        · rename_i db' hupdate
          obtain ⟨hw', hs'⟩ := updateOperation_frame hupdate
          have hat₃ : At cfg { s with db := db' } (row.move .checkpointing turn.now) :=
            hat₂.congr hw' hs' rfl
          exact hold_leads hat₃ (.checkpointRun operation.id row.generation) ⟨rfl, hcovered⟩

/-- **The new snapshot is of the whole volume**, so it contains the head's. -/
theorem checkpointRun_keeps (hat : At cfg s row) (hstatus : row.status = .checkpointing)
    (hcovered : Covered s row) {operationId : String} {generation : ℕ} {turn : Turn} {s' : Host}
    (h : checkpointRun s operationId generation turn = some s') : Keeps cfg s s' := by
  have hensure : Covered s.ensureVolume row :=
    hcovered.grow (fun _ h => h.ensureVolume) rfl rfl
  have hat' : At cfg s.ensureVolume row := hat.congr rfl rfl rfl
  rw [checkpointRun] at h
  split_ifs at h with hok htext hfresh hmounted
  · obtain rfl := Option.some.inj h
    refine Leads.keeps ?_ hat
    exact hold_leads hat' (.checkpointFail operationId _) ⟨hstatus, hensure⟩
  · obtain rfl := Option.some.inj h
    have hold : ∀ revisionId content, s.snapshots revisionId = some content →
        Function.update s.snapshots turn.text (some (s.volume.getD [])) revisionId =
          some content := fun revisionId content hcontent => by
      rw [Function.update_of_ne ?_, hcontent]
      rintro rfl
      simp [hcontent] at hfresh
    have hvolume : ∀ content, s.Contains content → content <:+ s.volume.getD [] := by
      rintro content ⟨v, hv, hsuffix⟩
      simpa [hv] using hsuffix
    refine ⟨⟨row, ⟨hat.stored, hat.active, fun r hr => ?_, hat.sandboxes⟩, hstatus, ?_,
      s.volume.getD [], Function.update_self .., ⟨_, rfl, List.suffix_rfl⟩, ?_⟩, ?_⟩
    · obtain ⟨content, hcontent⟩ := Option.isSome_iff_exists.mp (hat.saved r hr)
      exact Option.isSome_iff_exists.mpr ⟨content, hold r content hcontent⟩
    · intro r hr
      obtain ⟨content, hcontent, hcontains⟩ := hensure r hr
      exact ⟨content, hold r content hcontent, hcontains⟩
    · intro r old hr hsaved
      obtain ⟨content, hcontent, hcontains⟩ := hcovered r hr
      obtain rfl := Option.some.inj ((hold r content hcontent).symm.trans hsaved)
      exact hvolume content hcontains
    · rintro old ⟨r, revisionId, hr, hrev, hsaved⟩
      exact ⟨old, ⟨r, revisionId, hr, hrev, hold revisionId old hsaved⟩, List.suffix_rfl⟩
  · obtain rfl := Option.some.inj h
    refine Leads.keeps ?_ hat
    exact hold_leads hat' (.checkpointFail operationId turn.text) ⟨hstatus, hensure⟩
  · obtain rfl := Option.some.inj h
    exact (hold_leads hat (.checkpointFail operationId turn.text) ⟨hstatus, hcovered⟩).keeps hat

/-- **The head moves to a snapshot that contains it.** -/
theorem checkpointDone_keeps (hat : At cfg s row) {operationId revisionId : String}
    {generation : ℕ}
    (hphase : Phase s row (some (.checkpointDone operationId generation revisionId))) (now : ℤ) :
    Keeps cfg s (checkpointDone cfg s operationId generation revisionId now) := by
  obtain ⟨hstatus, hcovered, new, hnew, hcontains, hlater⟩ := hphase
  rw [checkpointDone]
  split
  · exact (checkpointFail_leads hat hstatus hcovered _ _ _).keeps hat
  · rename_i db row' hcommit
    obtain ⟨r, hr, -, hidle, -, rfl, hs, hw⟩ := commitRevision_ok hcommit
    obtain rfl := Option.some.inj (hat.stored.symm.trans hr)
    have hstored : db.workspaces cfg.workspaceId = some (row.commit revisionId now) := by
      rw [hw, Db.putWorkspace_workspaces]
    have hhead : ∀ rev, (row.commit revisionId now).headRevision = some rev → rev = revisionId :=
      fun rev hrev => (Option.some.inj hrev).symm
    have hcovers : Covered { s.unlock with db := db } (row.commit revisionId now) := by
      intro rev hrev
      obtain rfl := hhead rev hrev
      exact ⟨new, hnew, hcontains⟩
    refine ⟨⟨row.commit revisionId now, ⟨hstored, ?_, fun rev hrev => ?_, ?_⟩, rfl,
      fun _ => hcovers⟩, ?_⟩
    · simp [WorkspaceRecord.commit, hidle]
    · obtain rfl := hhead rev hrev
      exact Option.isSome_iff_exists.mpr ⟨new, hnew⟩
    · exact fun id sandbox hsandbox => hat.sandboxes id sandbox (hs ▸ hsandbox)
    · rintro old ⟨r, rev, hr, hrev, hsaved⟩
      obtain rfl := Option.some.inj (hat.stored.symm.trans hr)
      exact ⟨new, ⟨_, revisionId, hstored, rfl, hnew⟩, hlater rev old hrev hsaved⟩

/-- A clean Workspace whose volume is thrown away is remote. -/
theorem cleanupRemoved_leads (hat : At cfg s row) (hclean : row.status = .detachedClean)
    (now : ℤ) : Leads cfg row.headRevision s.snapshots
      { s.unlock with db := transitionOrKeep cfg s.db [.detachedClean] .remoteOnly now } := by
  have hidle : row.activeSandboxId = none := hat.idle (by simp [hclean])
  rw [transitionOrKeep_eq hat (List.mem_singleton.mpr hclean) hidle]
  exact unlock_leads (hat.move hidle _ (by simp) now) (free_of_remoteOnly rfl)

end Checkpoint

/-- **Every turn of the coroutine that holds the lock keeps the invariant.** -/
theorem criticalStep_keeps {s s' : Host} {turn : Turn} {c : Critical} {ts : List Task}
    (hs : Good cfg s) (hholder : s.holder = some c)
    (h : criticalStep cfg s turn c = some (s', ts)) : Keeps cfg s s' := by
  obtain ⟨row, hat, hphase⟩ := hs
  rw [hholder] at hphase
  have of_leads : ∀ r : Host × List Task,
      Leads cfg row.headRevision s.snapshots r.1 → some r = some (s', ts) → Keeps cfg s s' := by
    intro r hleads hr
    obtain rfl := Option.some.inj hr
    exact hleads.keeps hat
  cases c with
  | prepareExists caller current =>
    obtain ⟨hfree, hreads⟩ := hphase
    have habsent : s.volume.isSome = false → row.status ≠ .remoteOnly → row.headRevision = none := by
      intro habsent hlocal
      by_contra hne
      obtain ⟨revisionId, hrev⟩ := Option.ne_none_iff_exists'.mp hne
      obtain ⟨content, -, v, hv, -⟩ := hfree.covered hlocal revisionId hrev
      simp [hv] at habsent
    simp only [criticalStep] at h
    split at h
    · exact of_leads _ (hold_leads hat (.prepareDecide caller current s.volume.isSome)
        ⟨hfree, hreads, habsent⟩) h
    · exact of_leads _ (prepareRaise_leads hat hfree _ _ _) h
  | prepareDecide caller current volumeExists =>
    exact of_leads _ (prepareDecide_leads hat hphase _) h
  | prepareEnsure caller =>
    have hat' : At cfg s.ensureVolume row := hat.congr rfl rfl rfl
    have hfree : Free s.ensureVolume row := Free.grow hphase (fun _ h => h.ensureVolume) rfl rfl rfl
    simp only [criticalStep] at h
    split at h
    · exact of_leads _ (prepareReturn_leads hat' hfree caller) h
    · exact of_leads _ (prepareRaise_leads hat hphase _ _ _) h
  | restoreExists caller r =>
    simp only [criticalStep] at h
    split at h
    · split at h
      · exact of_leads _ (hold_leads hat (.restoreRemove caller r) hphase) h
      · exact of_leads _ (hold_leads hat (.restoreEnsure caller r) hphase) h
    · exact of_leads _ (prepareRaise_leads hat (free_of_remoteOnly hphase.1) _ _ _) h
  | restoreRemove caller r =>
    have hat' : At cfg (s.removeVolume turn.ok) row := hat.congr rfl rfl rfl
    refine of_leads _ ?_ h
    exact hold_leads hat' (.restoreEnsure caller r) hphase
  | restoreEnsure caller r =>
    have hat' : At cfg s.ensureVolume row := hat.congr rfl rfl rfl
    simp only [criticalStep] at h
    split at h
    · refine of_leads _ ?_ h
      exact hold_leads hat' (.restoreBegin caller r) hphase
    · exact of_leads _ (prepareRaise_leads hat (free_of_remoteOnly hphase.1) _ _ _) h
  | restoreBegin caller r => exact of_leads _ (restoreBegin_leads hat hphase.1 hphase.2 _ _) h
  | restoreRun caller operationId r => exact of_leads _ (restoreRun_leads hat hphase.1 hphase.2 _) h
  | restoreDone caller operationId r =>
    exact of_leads _ (restoreDone_leads hat hphase.1 hphase.2 _ _) h
  | restoreUndo caller operationId error =>
    have hat' : At cfg (s.removeVolume turn.ok) row := hat.congr rfl rfl rfl
    refine of_leads _ ?_ h
    exact hold_leads hat' (.restoreFail caller operationId error) hphase
  | restoreFail caller operationId error =>
    exact of_leads _ (restoreFail_leads hat hphase _ _ _ _) h
  | checkpointRun operationId generation =>
    obtain ⟨m, hm, hr⟩ := Option.map_eq_some_iff.mp h
    obtain ⟨rfl, -⟩ := Prod.mk.inj hr
    exact checkpointRun_keeps hat hphase.1 hphase.2 hm
  | checkpointDone operationId generation r =>
    obtain ⟨rfl, -⟩ := Prod.mk.inj (Option.some.inj h)
    exact checkpointDone_keeps hat hphase _
  | checkpointFail operationId error =>
    exact of_leads _ (checkpointFail_leads hat hphase.1 hphase.2 _ _ _) h
  | cleanupRemove =>
    have hat' : At cfg { s with volume := none } row := hat.congr rfl rfl rfl
    have hfree : Free s row := ⟨by rw [hphase.1]; rfl, fun _ => hphase.2⟩
    simp only [criticalStep] at h
    split at h
    · exact of_leads _ (hold_leads hat' .cleanupRemoved hphase.1) h
    · exact of_leads _ (unlock_leads hat hfree) h
  | cleanupRemoved => exact of_leads _ (cleanupRemoved_leads hat hphase _) h

/-! ## The turns without the lock -/

section Unlocked

variable {s s' : Host} {row : WorkspaceRecord}

/-- **A turn that only lets the volume grow.** -/
theorem quiet_leads (hphase : Phase s row s.holder) {row' : WorkspaceRecord} (hat' : At cfg s' row')
    (hgrows : Grows s s') (hsnapshots : s'.snapshots = s.snapshots) (hholder : s'.holder = s.holder)
    (hhead : row'.headRevision = row.headRevision) (hstatus : row'.status = row.status) :
    Leads cfg row.headRevision s.snapshots s' :=
  ⟨row', hat', hhead, hsnapshots, hholder ▸ hphase.grow hgrows hsnapshots hhead hstatus⟩

/-- A turn that changes no table but that of the operations. -/
theorem operations_leads (hat : At cfg s row) (hphase : Phase s row s.holder) {db : Tables}
    (hworkspaces : db.workspaces = s.db.workspaces) (hsandboxes : db.sandboxes = s.db.sandboxes) :
    Leads cfg row.headRevision s.snapshots { s with db := db } := by
  have hat' : At cfg { s with db := db } row := hat.congr hworkspaces hsandboxes rfl
  exact quiet_leads hphase hat' (fun _ h => h) rfl rfl rfl rfl

/-- The tables after a Sandbox has changed and the row of the Workspace has followed. -/
theorem At.putSandbox (hat : At cfg s row) {sandboxId : String} {sandbox : SandboxRecord}
    (hsandbox : sandbox.workspaceId = cfg.workspaceId) {row' : WorkspaceRecord}
    (hhead : row'.headRevision = row.headRevision)
    (hactive : row'.activeSandboxId ≠ none ↔ row'.status = .running) :
    At cfg { s with
      db := (s.db.putSandbox sandboxId sandbox).putWorkspace cfg.workspaceId row' } row' where
  stored := Db.putWorkspace_workspaces ..
  active := hactive
  saved := fun revisionId hrev => hat.saved revisionId (hhead ▸ hrev)
  sandboxes := fun id other hother => by
    rcases Db.putSandbox_sandboxes hother with rfl | hother
    · exact hsandbox
    · exact hat.sandboxes id other hother

/-- A Sandbox that ends leaves what it has written. -/
theorem endSandbox_leads (hat : At cfg s row) (hphase : Phase s row s.holder) (sandboxId : String)
    (status : SandboxStatus) (now : ℤ) :
    Leads cfg row.headRevision s.snapshots { s with db := endSandbox s.db sandboxId status now } := by
  rw [endSandbox]
  cases h : finishSandbox s.db sandboxId status .detachedDirty now with
  | error e => exact operations_leads hat hphase rfl rfl
  | ok r =>
    obtain ⟨db, row'⟩ := r
    obtain ⟨sandbox, ended, r, hsandbox, hr, hended, hrow', rfl⟩ := finishSandbox_ok h
    have howner := hat.sandboxes sandboxId sandbox hsandbox
    rw [howner] at hr hended ⊢
    obtain rfl := Option.some.inj (hat.stored.symm.trans hr)
    rcases hrow' with ⟨hholds, rfl⟩ | rfl
    · have hrunning : row.status = .running := hat.active.mp (by simp [hholds])
      have hmountable : Mountable row s.holder :=
        ⟨by rw [hrunning]; rfl, by simp [hrunning], by
          constructor <;> intro hc <;> simp [hc, Phase, hrunning] at hphase⟩
      exact ⟨row.release .detachedDirty now, hat.putSandbox hended rfl
        (by simp [WorkspaceRecord.release]), rfl, rfl,
        hphase.reopen hmountable (fun _ h => h) rfl rfl rfl (by simp [WorkspaceRecord.release])⟩
    · exact quiet_leads hphase (hat.putSandbox hended rfl hat.active) (fun _ h => h) rfl rfl rfl rfl

/-- A claim leaves the volume as it is. -/
theorem claim_leads (hat : At cfg s row) (hphase : Phase s row s.holder)
    (hmountable : Mountable row s.holder) {sandboxId : String} {sandbox : SandboxRecord}
    (hsandbox : sandbox.workspaceId = cfg.workspaceId) (now : ℤ) :
    Leads cfg row.headRevision s.snapshots { s with
      db := (s.db.putSandbox sandboxId sandbox).putWorkspace cfg.workspaceId
        (row.claim sandboxId now) } :=
  ⟨_, hat.putSandbox hsandbox rfl (by simp [WorkspaceRecord.claim]), rfl, rfl,
    hphase.reopen hmountable (fun _ h => h) rfl rfl rfl (by simp [WorkspaceRecord.claim])⟩

/-- A Sandbox that is marked running leaves the volume as it is. -/
theorem markSandboxRunning_leads (hat : At cfg s row) (hphase : Phase s row s.holder)
    {sandboxId : String} {now : ℤ} {db : Tables}
    (h : markSandboxRunning s.db sandboxId now = .ok db) (records : List String) :
    Leads cfg row.headRevision s.snapshots { s with db := db, records := records } := by
  obtain ⟨sandbox, hsandbox, hs, hw⟩ := markSandboxRunning_ok h
  have hsandboxes : ∀ id other, db.sandboxes id = some other →
      other.workspaceId = cfg.workspaceId := fun id other hother => by
    rw [hs] at hother
    rcases Db.putSandbox_sandboxes hother with rfl | hother
    · exact hat.sandboxes sandboxId sandbox hsandbox
    · exact hat.sandboxes id other hother
  rcases hw cfg.workspaceId row hat.stored with hstored | hstored
  · have hat' : At cfg { s with db := db, records := records } row :=
      ⟨hstored, hat.active, hat.saved, hsandboxes⟩
    exact quiet_leads hphase hat' (fun _ h => h) rfl rfl rfl rfl
  · have hat' : At cfg { s with db := db, records := records } (row.move row.status now) :=
      ⟨hstored, hat.active, hat.saved, hsandboxes⟩
    exact quiet_leads hphase hat' (fun _ h => h) rfl rfl rfl rfl

/-- Who takes the lock finds the Workspace free. -/
theorem takeLock_leads (hat : At cfg s row) (hphase : Phase s row s.holder)
    {begin : WorkspaceRecord → Host}
    (hbegin : s.holder = none → Free s row → Leads cfg row.headRevision s.snapshots (begin row))
    (h : takeLock cfg s begin = some s') : Leads cfg row.headRevision s.snapshots s' := by
  rw [takeLock] at h
  split_ifs at h with hholder
  rw [hholder] at hphase
  simp only [getWorkspace, hat.stored, Option.some.injEq] at h
  exact h ▸ hbegin hholder hphase

/-- The preparation starts from a free Workspace. -/
theorem prepareExists_leads (hat : At cfg s row) (hfree : Free s row) (caller : Caller) :
    Leads cfg row.headRevision s.snapshots (s.hold (.prepareExists caller row)) :=
  hold_leads hat (.prepareExists caller row) ⟨hfree, rfl, Iff.rfl⟩

end Unlocked

/-- The Sandbox that the next turn of a coroutine claims the Workspace for. -/
def Task.claims : Task → Option String
  | .createClaim sandboxId => some sandboxId
  | _ => none

/-- A claim of a new Sandbox comes while the Workspace is not `remote_only` and no clean-up that has
looked at the status holds the lock. -/
def ClaimsLocal (cfg : Settings) (s : Host) (t : Task) (_ : Turn) : Prop :=
  ∀ sandboxId ∈ t.claims, s.db.sandboxes sandboxId = none →
    (∀ row ∈ s.db.workspaces cfg.workspaceId, row.status ≠ .remoteOnly) ∧
      s.holder ≠ some .cleanupRemove ∧ s.holder ≠ some .cleanupRemoved

instance (cfg : Settings) (s : Host) (t : Task) (turn : Turn) :
    Decidable (ClaimsLocal cfg s t turn) :=
  inferInstanceAs (Decidable (∀ _ ∈ _, _))

/-- **Every turn of the other coroutines keeps the invariant, a claim where it is local.** -/
theorem taskStep_keeps {s s' : Host} {turn : Turn} {t t' : Task} (hs : Good cfg s)
    (hclaim : ClaimsLocal cfg s t turn) (h : taskStep cfg s turn t = some (s', t')) :
    Keeps cfg s s' := by
  obtain ⟨row, hat, hphase⟩ := hs
  have hsame : Leads cfg row.headRevision s.snapshots s :=
    quiet_leads hphase hat (fun _ h => h) rfl rfl rfl rfl
  have of_leads : ∀ r : Host × Task,
      Leads cfg row.headRevision s.snapshots r.1 → some r = some (s', t') → Keeps cfg s s' := by
    intro r hleads hr
    obtain rfl := Option.some.inj hr
    exact hleads.keeps hat
  have of_lock : ∀ begin : WorkspaceRecord → Host,
      (s.holder = none → Free s row → Leads cfg row.headRevision s.snapshots (begin row)) →
      ((takeLock cfg s begin).map fun s' => (s', Task.finished)) = some (s', t') →
        Keeps cfg s s' := by
    intro begin hbegin hr
    obtain ⟨m, hm, hr⟩ := Option.map_eq_some_iff.mp hr
    obtain ⟨rfl, -⟩ := Prod.mk.inj hr
    exact (takeLock_leads hat hphase hbegin hm).keeps hat
  cases t with
  | createLock sandboxId =>
    exact of_lock _ (fun _ hfree => prepareExists_leads hat hfree _) h
  | restoreLock operationId =>
    exact of_lock _ (fun _ hfree => prepareExists_leads hat hfree _) h
  | checkpointLock =>
    exact of_lock _ (fun hholder hfree => checkpointBegin_leads hat hholder hfree turn) h
  | cleanupLock =>
    refine of_lock _ (fun hholder hfree => ?_) h
    rw [cleanupBegin]
    split
    · exact hsame
    · rename_i hclean
      have hclean : row.status = .detachedClean := not_not.mp (not_or.mp hclean).1
      exact hold_leads hat .cleanupRemove ⟨hclean, hfree.covered (by simp [hclean])⟩
  | createPrepare sandboxId =>
    simp only [taskStep] at h
    split at h
    · exact of_leads _ (quiet_leads hphase (hat.congr rfl rfl rfl) (fun _ h => h.write _) rfl rfl rfl
        rfl) h
    · refine of_leads _ (quiet_leads hphase ?_ (grows_mount s turn.written) ?_ ?_ rfl rfl) h
      · cases turn.written <;> exact hat.congr rfl rfl rfl
      · cases turn.written <;> rfl
      · cases turn.written <;> rfl
  | createClaim sandboxId =>
    simp only [taskStep] at h
    split at h
    · exact of_leads _ hsame h
    · rename_i db row' sandbox hok
      obtain ⟨r, hr, -, hmount, hnew, rfl, hsandbox, rfl⟩ := claimWorkspace_ok hok
      obtain rfl := Option.some.inj (hat.stored.symm.trans hr)
      obtain ⟨hlocal, hcleanup⟩ := hclaim sandboxId rfl hnew
      exact of_leads _ (claim_leads hat hphase ⟨hmount, hlocal row hat.stored, hcleanup⟩ hsandbox _) h
  | createContainer sandboxId =>
    simp only [taskStep] at h
    split at h
    · exact of_leads _ (quiet_leads hphase (hat.congr rfl rfl rfl) (fun _ h => h.ensureVolume) rfl
        rfl rfl rfl) h
    · exact of_leads _ hsame h
  | createStart sandboxId => exact of_leads _ hsame h
  | createStarted sandboxId =>
    simp only [taskStep] at h
    split at h
    · exact of_leads _ hsame h
    · rename_i db hok
      exact of_leads _ (markSandboxRunning_leads hat hphase hok _) h
  | createRemove sandboxId =>
    simp only [taskStep] at h
    split at h
    · exact of_leads _ hsame h
    · exact of_leads _ (quiet_leads hphase (hat.congr rfl rfl rfl) (fun _ h => h) rfl rfl rfl rfl) h
  | createFailed sandboxId => exact of_leads _ (endSandbox_leads hat hphase _ _ _) h
  | terminateRemove sandboxId =>
    simp only [taskStep] at h
    split at h
    · exact of_leads _ (quiet_leads hphase (hat.congr rfl rfl rfl) (fun _ h => h) rfl rfl rfl rfl) h
    · exact of_leads _ hsame h
  | terminateRemoved sandboxId => exact of_leads _ (endSandbox_leads hat hphase _ _ _) h
  | restoreRequested operationId =>
    have hend : ∀ status result error, Leads cfg row.headRevision s.snapshots
        { s with db := endOperation s.db operationId status result error turn.now } :=
      fun status result error => operations_leads hat hphase (endOperation_workspaces ..)
        (endOperation_sandboxes ..)
    simp only [taskStep, getWorkspace, hat.stored] at h
    split at h
    · exact of_leads _ (hend _ _ _) h
    · split at h
      · exact of_leads _ (hend _ _ _) h
      · exact of_leads _ hsame h
  | finished => simp [taskStep] at h

/-! ## Events -/

/-- A host whose table of operations alone has changed. -/
def SameRows (s s' : Host) : Prop :=
  ∃ db, s' = { s with db := db } ∧ db.workspaces = s.db.workspaces ∧ db.sandboxes = s.db.sandboxes

/-- An operation that starts leaves the rows as they are. -/
theorem startOperation_rows {s s' : Host} {created : Bool} {task : Task} {now : ℤ}
    {record : OperationRecord OperationInput OperationResult} {ts : List Task}
    (h : startOperation s record created task now = some (s', ts)) : SameRows s s' := by
  rw [startOperation] at h
  split at h
  · cases h
  · rename_i db r scheduled hschedule
    exact ⟨db, (Prod.mk.inj (Option.some.inj h)).1.symm, scheduleOperation_frame hschedule⟩

/-- A request for a checkpoint leaves the rows as they are. -/
theorem requestCheckpoint_rows {s s' : Host} {row : WorkspaceRecord} {turn : Turn} {ts : List Task}
    (h : requestCheckpoint cfg s row turn = some (s', ts)) : SameRows s s' := by
  rw [requestCheckpoint] at h
  split at h
  · cases h
  · split at h
    · cases h
    · rename_i db record created hbind
      obtain ⟨hw, hs⟩ := bindOperation_frame hbind
      split at h
      · split at h
        · cases h
        · rename_i db' hupdate
          obtain ⟨hw', hs'⟩ := updateOperation_frame hupdate
          exact ⟨db', (Prod.mk.inj (Option.some.inj h)).1.symm, hw'.trans hw, hs'.trans hs⟩
      · obtain ⟨db', hdb, hw', hs'⟩ := startOperation_rows h
        exact ⟨db', hdb, hw'.trans hw, hs'.trans hs⟩

/-- A request for a restore leaves the rows as they are. -/
theorem requestRestore_rows {s s' : Host} {row : WorkspaceRecord} {turn : Turn} {ts : List Task}
    (h : requestRestore cfg s row turn = some (s', ts)) : SameRows s s' := by
  rw [requestRestore] at h
  split at h
  · cases h
  · split at h
    · cases h
    · dsimp only at h
      split at h
      · cases h
      · rename_i db record created hbind
        obtain ⟨hw, hs⟩ := bindOperation_frame hbind
        obtain ⟨db', hdb, hw', hs'⟩ := startOperation_rows h
        exact ⟨db', hdb, hw'.trans hw, hs'.trans hs⟩

/-- What comes from outside keeps the heads. -/
theorem eventStep_keeps {s s' : Host} {e : Event} {ts : List Task} (hs : Good cfg s)
    (h : eventStep cfg s e = some (s', ts)) : Keeps cfg s s' := by
  have hgood := hs
  obtain ⟨row, hat, hphase⟩ := hs
  have hsame : Keeps cfg s s := ⟨hgood, HeadKept.refl s⟩
  have of_rows : SameRows s s' → Keeps cfg s s' := by
    rintro ⟨db, rfl, hw, hsb⟩
    exact (operations_leads hat hphase hw hsb).keeps hat
  have of_volume : ∀ r : Host, r.db = s.db → r.snapshots = s.snapshots → r.holder = s.holder →
      Grows s r → Keeps cfg s r := by
    intro r hdb hsnapshots hholder hgrows
    refine (quiet_leads hphase (hat.congr ?_ ?_ hsnapshots) hgrows hsnapshots hholder rfl rfl).keeps
      hat
    · rw [hdb]
    · rw [hdb]
  cases e with
  | holder turn =>
    obtain ⟨c, hholder, hstep⟩ := Option.bind_eq_some_iff.mp h
    exact criticalStep_keeps hgood hholder hstep
  | create sandboxId =>
    obtain ⟨rfl, -⟩ := Prod.mk.inj (Option.some.inj h)
    exact hsame
  | terminate sandboxId =>
    simp only [eventStep] at h
    split at h
    · obtain ⟨rfl, -⟩ := Prod.mk.inj (Option.some.inj h)
      exact hsame
    · cases h
  | checkpoint | cleanup =>
    simp only [eventStep] at h
    split at h
    · obtain ⟨rfl, -⟩ := Prod.mk.inj (Option.some.inj h)
      exact hsame
    · cases h
  | requestCheckpoint turn =>
    simp only [eventStep] at h
    split at h
    · obtain ⟨r, -, hr⟩ := Option.bind_eq_some_iff.mp h
      exact of_rows (requestCheckpoint_rows hr)
    · cases h
  | requestRestore turn =>
    simp only [eventStep] at h
    split at h
    · obtain ⟨r, -, hr⟩ := Option.bind_eq_some_iff.mp h
      exact of_rows (requestRestore_rows hr)
    · cases h
  | ensureVolume =>
    obtain ⟨rfl, -⟩ := Prod.mk.inj (Option.some.inj h)
    exact of_volume _ rfl rfl rfl fun _ h => h.ensureVolume
  | agentWrite changes =>
    obtain ⟨r, -, hr⟩ := Option.bind_eq_some_iff.mp h
    split at hr
    · obtain ⟨content, hcontent, hr⟩ := Option.map_eq_some_iff.mp hr
      obtain ⟨rfl, -⟩ := Prod.mk.inj hr
      refine of_volume _ rfl rfl rfl fun old hold => ?_
      obtain ⟨v, hv, hsuffix⟩ := hold
      obtain rfl := Option.some.inj (hcontent.symm.trans hv)
      exact ⟨_, rfl, hsuffix.trans (List.suffix_append _ _)⟩
    · cases hr

/-! ## Runs -/

/-- **The invariant of the heads**: what the shared state keeps in every run whose claims are local.
-/
theorem certificate (cfg : Settings) : Pool.Certificate (backend cfg) (ClaimsLocal cfg)
    (fun _ _ => True) (Good cfg) (fun _ _ => True) (HeadKept cfg) where
  act := fun _ _ _ _ _ hclaim hs _ h =>
    have hkeeps := taskStep_keeps hs hclaim h
    ⟨hkeeps.1, trivial, hkeeps.2⟩
  env := fun _ _ _ _ _ hs h =>
    have hkeeps := eventStep_keeps hs h
    ⟨hkeeps.1, fun _ _ => trivial, hkeeps.2⟩
  stable := fun _ _ _ _ _ _ _ => trivial

/-- The invariant holds before the first step. -/
theorem holds_init (cfg : Settings) (volumeName : String) (now : ℤ) :
    Pool.Holds (Good cfg) (fun _ _ => True) (Backend.init cfg volumeName now) := by
  refine ⟨⟨⟨cfg.workspaceId, .recoverable, .detachedClean, volumeName, 0, none, none, now, now,
    none⟩, ⟨?_, by simp, by simp, fun id sandbox h => ?_⟩, rfl, fun _ revisionId h => ?_⟩,
    fun _ _ => trivial⟩
  · exact Db.putWorkspace_workspaces ..
  · cases h
  · cases h

/-- A Workspace that runs has the content of its head in the volume. -/
theorem Good.covered {s : Host} {row : WorkspaceRecord} (h : Good cfg s)
    (hrow : s.db.workspaces cfg.workspaceId = some row) (hrunning : row.status = .running) :
    Covered s row := by
  obtain ⟨r, hat, hphase⟩ := h
  obtain rfl := Option.some.inj (hat.stored.symm.trans hrow)
  have of_free : Free s r → Covered s r := fun hfree => hfree.covered (by simp [hrunning])
  generalize s.holder = holder at hphase
  cases holder with
  | none => exact of_free hphase
  | some c =>
    cases c with
    | prepareExists caller current | prepareDecide caller current volumeExists =>
      exact of_free hphase.1
    | prepareEnsure caller => exact of_free hphase
    | _ => simp [Phase, hrunning] at hphase

/-- **In every run whose claims are local, the volume of a running Workspace has the work of its
head, and every later head contains the earlier ones.** -/
theorem running_covered (cfg : Settings) (volumeName : String) (now : ℤ)
    (as bs : List (Pool.Action Turn Event)) (w w' : Backend)
    (hmeets : Machine.Meets (Pool.step (backend cfg))
      (Pool.stepCond (ClaimsLocal cfg) fun _ _ => True) (Backend.init cfg volumeName now) (as ++ bs))
    (has : Machine.run (Pool.step (backend cfg)) (Backend.init cfg volumeName now) as = some w)
    (hbs : Machine.run (Pool.step (backend cfg)) w bs = some w') :
    (∀ row, w.shared.db.workspaces cfg.workspaceId = some row → row.status = .running →
        Covered w.shared row) ∧ HeadKept cfg w.shared w'.shared := by
  obtain ⟨hmeets₁, hmeets₂⟩ := Machine.meets_append hmeets
  have hgood := (certificate cfg).run hmeets₁ has (holds_init cfg volumeName now)
  refine ⟨fun row hrow hrunning => hgood.shared.covered hrow hrunning, ?_⟩
  exact (certificate cfg).run_rel HeadKept.refl (fun _ _ _ h h' => h.trans h') (hmeets₂ w has) hbs
    hgood

/-! ## A clean-up between the preparation and the claim -/

/-- The settings of a Workspace that is kept for a day. -/
def sampleSettings : Settings := ⟨"workspace_1", true, 3600, 86400⟩

/-- A turn at `now` whose awaited call succeeds and returns `text`. -/
def succeeds (text : String) (now : ℤ) : Turn := ⟨true, some [], text, now⟩

/-- `create` up to the return of `_prepare_workspace`, which waits `n` times. -/
def preparing (lock n : ℕ) (sandboxId : String) : List (Pool.Action Turn Event) :=
  [.env (.create sandboxId), .task lock (succeeds "" 0)] ++
    List.replicate n (.env (.holder (succeeds "" 0)))

/-- The first Sandbox writes a report, ends, and is checkpointed. -/
def firstSession : List (Pool.Action Turn Event) :=
  preparing 0 3 "sandbox_a" ++ List.replicate 5 (.task 1 (succeeds "" 0)) ++
    [.env (.agentWrite ["report"]), .env (.terminate "sandbox_a"), .task 2 (succeeds "" 10),
      .task 2 (succeeds "" 10), .task 2 (succeeds "1" 10), .env (.holder (succeeds "rev_1" 10)),
      .env (.holder (succeeds "" 10))]

/-- A second Sandbox is prepared and claims the Workspace. -/
def secondSession : List (Pool.Action Turn Event) :=
  preparing 3 2 "sandbox_b" ++ List.replicate 2 (.task 4 (succeeds "" 20))

/-- A second session works on what the first has left. -/
theorem running_covered_secondSession :
    ∃ w, Machine.run (Pool.step (backend sampleSettings))
        (Backend.init sampleSettings "agent-workspace-1" 0) (firstSession ++ secondSession) = some w ∧
      ∀ row, w.shared.db.workspaces "workspace_1" = some row → row.status = .running →
        Covered w.shared row := by
  have hsome : (Machine.run (Pool.step (backend sampleSettings))
      (Backend.init sampleSettings "agent-workspace-1" 0) (firstSession ++ secondSession)).isSome := by
    decide +kernel
  obtain ⟨w, hw⟩ := Option.isSome_iff_exists.mp hsome
  exact ⟨w, hw, (running_covered sampleSettings "agent-workspace-1" 0 (firstSession ++ secondSession)
    [] w w (by decide +kernel) hw rfl).1⟩

/-- The clean-up takes the lock after the preparation has returned, and removes the volume. -/
def cleanedSession : List (Pool.Action Turn Event) :=
  preparing 3 2 "sandbox_b" ++ [.env .cleanup, .task 5 (succeeds "" 100000)] ++
    List.replicate 2 (.env (.holder (succeeds "" 100000))) ++
    List.replicate 2 (.task 4 (succeeds "" 100000))

/-- The head of the Workspace and its volume, where the Workspace is running. -/
def headAndVolume (w : Backend) : Option (Option String × Option Content × Option Content) :=
  (w.shared.db.workspaces "workspace_1").bind fun row =>
    if row.status = .running then
      some (row.headRevision, row.headRevision.bind w.shared.snapshots, w.shared.volume)
    else none

/-- Without the condition: a cleanup takes the volume from under a claim. -/
theorem running_covered_cleaned : ¬ ∀ (cfg : Settings) (volumeName : String) (now : ℤ)
    (as : List (Pool.Action Turn Event)) (w : Backend),
    Machine.run (Pool.step (backend cfg)) (Backend.init cfg volumeName now) as = some w →
      ∀ row, w.shared.db.workspaces cfg.workspaceId = some row → row.status = .running →
        Covered w.shared row := by
  intro h
  have hlost : (Machine.run (Pool.step (backend sampleSettings))
      (Backend.init sampleSettings "agent-workspace-1" 0) (firstSession ++ cleanedSession)).bind
        headAndVolume = some (some "rev_1", some ["report"], some []) := by decide +kernel
  obtain ⟨w, hw, hview⟩ := Option.bind_eq_some_iff.mp hlost
  obtain ⟨row, hrow, hview⟩ := Option.bind_eq_some_iff.mp hview
  split_ifs at hview with hrunning
  simp only [Option.some.injEq, Prod.mk.injEq] at hview
  obtain ⟨hhead, hsnapshot, hvolume⟩ := hview
  obtain ⟨content, hcontent, v, hv, hsuffix⟩ :=
    h sampleSettings _ _ _ w hw row hrow hrunning "rev_1" hhead
  rw [hhead, Option.bind_some, hcontent] at hsnapshot
  obtain rfl := Option.some.inj hsnapshot
  obtain rfl := Option.some.inj (hv.symm.trans hvolume)
  exact absurd (List.suffix_nil.mp hsuffix) (by simp)

end CodexGateway.Manager
