import CodexGateway.Library.JsonDict
import CodexGateway.Library.Pool
import CodexGateway.Manager.Publish

/-!
# Manager/FileOperation — the requests and the tasks of one file operation

All requests carry the idempotency key of one checkout or publish; each may start a task
`_execute_file_operation`, and the tasks and further requests are interleaved where a task waits for
the Workspace lock or for the operation runner.

Whether a request starts a task is decided from the status and the phase of the row.  `RowAt` says
what the row holds at each stage of a task; nothing of it looks like an operation to be taken up
again before the task is done.  So the row goes from one task to the next, and they never meet.
-/

namespace CodexGateway.Manager

open PyJson

/-- The row of a file operation, whose result is what the task has printed. -/
abbrev FileRecord (I : Type) := OperationRecord I Members

/-- The tables, with such results. -/
abbrev FileDb (I : Type) := Db I Members

/-- The file operations that a Sandbox asks for. -/
inductive FileOperation where
  | checkout
  | publish
deriving DecidableEq

/-- The kind that the row of a file operation has. -/
def FileOperation.kind : FileOperation → OperationKind
  | .checkout => .checkout
  | .publish => .publish

/-- Where `_execute_file_operation` waits. -/
inductive FileStage where
  | start
  | locking
  | checkingOut
  | capturing
  | uploading (capture : Members) (artifactId : String)
  | done

/-- A task is on its way until it is done. -/
def FileStage.isLive : FileStage → Bool
  | .done => false
  | _ => true

/-- The task, with the record and the upload target it was given. -/
structure FileTask (I : Type) where
  record : FileRecord I
  target : Option Target
  stage : FileStage

/-- The task goes on, or the runner's call returns or raises; `error` is what `_operation_error`
makes of the exception. -/
inductive FileAct where
  | go (now : ℤ)
  | returned (result : Members) (now : ℤ)
  | raised (error : String) (now : ℤ)

/-- An admitted `create_operation`. -/
structure FileRequest (I : Type) where
  operation : FileOperation
  workspaceId : String
  sandboxId : String
  input : I
  target : Option Target
  token : String
  now : ℤ

variable {I : Type}

/-- `operation.result["capture"]`, where it is an object. -/
def captureResult (record : FileRecord I) : Option Members :=
  record.result.bind fun result =>
    match Members.get result "capture" with
    | .obj capture => some capture
    | _ => none

/-- `value != text` -/
def differs (value : Json) (text : String) : Bool :=
  match value with
  | .str s => s ≠ text
  | _ => true

/-- `existing_target` -/
def existingTarget (record : FileRecord I) : Json :=
  match record.result with
  | some result => Members.get result "target_artifact_id"
  | none => .null

/-- The record is bound to another Artifact. -/
def boundElsewhere (record : FileRecord I) (artifactId : String) : Bool :=
  match existingTarget record with
  | .null => false
  | target => differs target artifactId

namespace FileTask

/-- A task goes on. -/
def toStage (t : FileTask I) (stage : FileStage) : FileTask I := { t with stage := stage }

/-- The task records a failure and is done. -/
def fail (db : FileDb I) (t : FileTask I) (phase : Option OperationPhase)
    (result : Option Members) (error : String) (now : ℤ) : FileDb I × FileTask I :=
  (suppress db (updateOperation db t.record.id .failed phase result (some error) now),
    t.toStage .done)

/-- The `except` of a publish; `capture` is what `capture_result` is bound to. -/
def failPublish (db : FileDb I) (t : FileTask I) (capture : Option Members) (error : String)
    (now : ℤ) : FileDb I × FileTask I :=
  t.fail db (some (if capture.isSome then .captured else .capturing))
    (capture.map fun m => ("capture", .obj m) ::
      (t.target.map fun target => ("target_artifact_id", Json.str target.artifactId)).toList)
    error now

/-- Up to the Workspace lock. -/
def enter (runner : Bool) (db : FileDb I) (t : FileTask I) (now : ℤ) : FileDb I × FileTask I :=
  if runner = false then t.fail db none none "storage operations are disabled" now
  else
    match getWorkspace db t.record.workspaceId with
    | .error _ => (db, t.toStage .done)
    | .ok _ =>
      if t.record.operation = .checkout then
        match updateOperation db t.record.id .running none none none now with
        | .error e => t.fail db none none e.message now
        | .ok db => (db, t.toStage .locking)
      else (db, t.toStage .locking)

/-- The task has the lock and calls the runner. -/
def locked (db : FileDb I) (t : FileTask I) (now : ℤ) : FileDb I × FileTask I :=
  if t.record.operation = .checkout then (db, t.toStage .checkingOut)
  else
    match updateOperation db t.record.id .running (some .capturing)
        ((captureResult t.record).map fun m => [("capture", .obj m)]) none now with
    | .error e => t.failPublish db (captureResult t.record) e.message now
    | .ok db => (db, t.toStage .capturing)

/-- The checkout has run, and its result is recorded. -/
def checkedOut (db : FileDb I) (t : FileTask I) (result : Members) (now : ℤ) :
    FileDb I × FileTask I :=
  match updateOperation db t.record.id .succeeded none (some result) none now with
  | .error e => t.fail db none none e.message now
  | .ok db => (db, t.toStage .done)

/-- The capture is recorded, and without waiting again the task goes on to its upload, if it has
any. -/
def captured (db : FileDb I) (t : FileTask I) (capture : Members) (now : ℤ) :
    FileDb I × FileTask I :=
  match updateOperation db t.record.id .running (some .captured) (some [("capture", .obj capture)])
      none now with
  | .error e => t.failPublish db (some capture) e.message now
  | .ok db =>
    match t.target with
    | none => (db, t.toStage .done)
    | some target =>
      if boundElsewhere t.record target.artifactId then
        t.failPublish db (some capture) "Publish operation Artifact binding changed" now
      else
        match updateOperation db t.record.id .running (some .uploading)
            (some [("capture", .obj capture), ("target_artifact_id", .str target.artifactId)]) none
            now with
        | .error e => t.failPublish db (some capture) e.message now
        | .ok db => (db, t.toStage (.uploading capture target.artifactId))

/-- The upload has run: its result is recorded, where it is of the Artifact asked for. -/
def uploaded (db : FileDb I) (t : FileTask I) (capture : Members) (artifactId : String)
    (result : Members) (now : ℤ) : FileDb I × FileTask I :=
  if differs (Members.get result "artifact_id") artifactId then
    t.failPublish db (some capture) "Artifact upload returned another artifact_id" now
  else
    match updateOperation db t.record.id .succeeded (some .uploading)
        (some [("capture", .obj capture), ("target_artifact_id", .str artifactId),
          ("artifact", .obj result)]) none now with
    | .error e => t.failPublish db (some capture) e.message now
    | .ok db => (db, t.toStage .done)

/-- `_execute_file_operation`, from one point where it waits to the next. -/
def act (runner : Bool) (db : FileDb I) (t : FileTask I) : FileAct → Option (FileDb I × FileTask I)
  | .go now =>
    match t.stage with
    | .start => some (t.enter runner db now)
    | .locking => some (t.locked db now)
    | _ => none
  | .returned result now =>
    match t.stage with
    | .checkingOut => some (t.checkedOut db result now)
    | .capturing => some (t.captured db result now)
    | .uploading capture artifactId => some (t.uploaded db capture artifactId result now)
    | _ => none
  | .raised error now =>
    match t.stage with
    | .checkingOut => some (t.fail db none none error now)
    | .capturing => some (t.failPublish db (captureResult t.record) error now)
    | .uploading capture _ => some (t.failPublish db (some capture) error now)
    | _ => none

end FileTask

section Request

variable [DecidableEq I] (runner : Bool) (key : String)

/-- `resume_captured_publish` -/
def resumesPublish (record : FileRecord I) (r : FileRequest I) : Bool :=
  r.operation = .publish && record.status = .running && record.phase = some .captured &&
    r.target.isSome

/-- `create_operation`, which may start a task. -/
def requestFile (db : FileDb I) (r : FileRequest I) : FileDb I × List (FileTask I) :=
  match bindOperation db s!"operation_{r.token}" r.operation.kind r.workspaceId (some r.sandboxId)
      key r.input r.now with
  | .error _ => (db, [])
  | .ok (db, record, created) =>
    match scheduleOperation db record created (resumesPublish record r) r.now with
    | .error _ => (db, [])
    | .ok (db, record, scheduled) =>
      (db, if scheduled then [⟨record, r.target, .start⟩] else [])

/-- The tasks of one key over the control tables. -/
def fileProgram : Pool.Program (FileDb I) (FileTask I) FileAct (FileRequest I) where
  act := fun db t => t.act runner db
  env := fun db r => some (requestFile key db r)

end Request

/-! ## The row -/

/-- Nothing is at work, or needs to be: the operation has ended, or its capture waits for a
target. -/
def OperationRecord.AtRest {R : Type} (op : OperationRecord I R) : Prop :=
  op.status = .succeeded ∨ op.status = .failed ∨
    op.operation = .publish ∧ op.status = .running ∧ op.phase = some .captured

/-- What the row says while its task is at a stage. -/
def RowAt (op : FileRecord I) : FileStage → Prop
  | .start => op.status = .pending
  | .locking => op.operation = .checkout ∧ op.status = .running ∨
      op.operation = .publish ∧ op.status = .pending
  | .checkingOut => op.operation = .checkout ∧ op.status = .running
  | .capturing => op.operation = .publish ∧ op.status = .running ∧ op.phase = some .capturing
  | .uploading _ _ => op.operation = .publish ∧ op.status = .running ∧ op.phase = some .uploading
  | .done => op.AtRest

/-- The row of the key is the last of the table. -/
structure LastRow (db₀ : FileDb I) (key : String) (db : FileDb I) (op : FileRecord I) : Prop where
  operations : db.operations = db₀.operations ++ [op]
  workspaces : db.workspaces = db₀.workspaces
  fresh : ∀ old ∈ db₀.operations, old.id ≠ op.id
  key : op.idempotencyKey = key
  operation : op.operation = .checkout ∨ op.operation = .publish
  workspace : (db₀.workspaces op.workspaceId).isSome

/-- The task works on the row. -/
structure WorksOn (op : FileRecord I) (t : FileTask I) : Prop where
  id : t.record.id = op.id
  operation : t.record.operation = op.operation
  workspaceId : t.record.workspaceId = op.workspaceId
  row : RowAt op t.stage

section Row

variable {db₀ db : FileDb I} {key : String} {op : FileRecord I} {t : FileTask I}

theorem LastRow.findOperation (h : LastRow db₀ key db op) : findOperation db op.id = some op := by
  rw [Manager.findOperation, h.operations, List.find?_append, List.find?_eq_none.mpr]
  · simp
  · exact fun old hold => by simpa using h.fresh old hold

/-- An update of the row succeeds, and changes the row alone. -/
theorem LastRow.update (h : LastRow db₀ key db op) {operationId : String}
    (hid : operationId = op.id) (status : OperationStatus) (phase : Option OperationPhase)
    (result : Option Members) (error : Option String) (now : ℤ) :
    ∃ db', updateOperation db operationId status phase result error now = .ok db' ∧
      LastRow db₀ key db' (op.update status phase result error now) := by
  subst hid
  have hmap : db.operations.map (fun operation => if operation.id = op.id then
      operation.update status phase result error now else operation) =
        db₀.operations ++ [op.update status phase result error now] := by
    rw [h.operations, List.map_append, List.map_singleton, if_pos rfl]
    congr 1
    refine (List.map_congr_left fun old hold => ?_).trans (List.map_id _)
    exact if_neg (h.fresh old hold)
  refine ⟨_, by rw [updateOperation, h.findOperation]; rfl, ?_⟩
  exact ⟨hmap, h.workspaces, h.fresh, h.key, h.operation, h.workspace⟩

theorem WorksOn.moved (h : WorksOn op t) {stage : FileStage} (hrow : RowAt op stage) :
    WorksOn op (t.toStage stage) := ⟨h.id, h.operation, h.workspaceId, hrow⟩

theorem WorksOn.wrote (h : WorksOn op t) {status : OperationStatus} {phase : Option OperationPhase}
    {result : Option Members} {error : Option String} {now : ℤ} {stage : FileStage}
    (hrow : RowAt (op.update status phase result error now) stage) :
    WorksOn (op.update status phase result error now) (t.toStage stage) :=
  ⟨h.id, h.operation, h.workspaceId, hrow⟩

end Row

/-! ## A step of a task -/

/-- The row and the task after a step. -/
def Continues (db₀ : FileDb I) (key : String) (r : FileDb I × FileTask I) : Prop :=
  ∃ op, LastRow db₀ key r.1 op ∧ WorksOn op r.2

section Step

variable {db₀ db : FileDb I} {key : String} {op : FileRecord I} {t : FileTask I}

theorem LastRow.fail (h : LastRow db₀ key db op) (ht : WorksOn op t)
    (phase : Option OperationPhase) (result : Option Members) (error : String) (now : ℤ) :
    Continues db₀ key (t.fail db phase result error now) := by
  obtain ⟨db', hupdate, hrow⟩ := h.update ht.id .failed phase result (some error) now
  have hfail : t.fail db phase result error now = (db', t.toStage .done) := by
    rw [FileTask.fail, hupdate]
    rfl
  rw [hfail]
  exact ⟨_, hrow, ht.wrote (.inr (.inl rfl))⟩

theorem LastRow.failPublish (h : LastRow db₀ key db op) (ht : WorksOn op t)
    (capture : Option Members) (error : String) (now : ℤ) :
    Continues db₀ key (t.failPublish db capture error now) :=
  h.fail ht _ _ error now

theorem WorksOn.publish (ht : WorksOn op t) (hoperation : op.operation = .publish) :
    t.record.operation ≠ .checkout := by
  rw [ht.operation, hoperation]
  decide

theorem LastRow.enter (h : LastRow db₀ key db op) (ht : WorksOn op t) (hstage : t.stage = .start)
    (runner : Bool) (now : ℤ) : Continues db₀ key (t.enter runner db now) := by
  have hpending : op.status = .pending := by
    have := ht.row
    rwa [hstage] at this
  obtain ⟨row, hworkspace⟩ := Option.isSome_iff_exists.mp h.workspace
  have hget : getWorkspace db t.record.workspaceId = .ok row := by
    rw [getWorkspace, h.workspaces, ht.workspaceId, hworkspace]
  rw [FileTask.enter, hget]
  split_ifs with hrunner hoperation
  · exact h.fail ht _ _ _ now
  · obtain ⟨db', hupdate, hrow⟩ := h.update ht.id .running none none none now
    rw [hupdate]
    exact ⟨_, hrow, ht.wrote (.inl ⟨ht.operation.symm.trans hoperation, rfl⟩)⟩
  · have hpublish : op.operation = .publish :=
      h.operation.resolve_left fun hcheckout => hoperation (ht.operation.trans hcheckout)
    exact ⟨op, h, ht.moved (.inr ⟨hpublish, hpending⟩)⟩

theorem LastRow.locked (h : LastRow db₀ key db op) (ht : WorksOn op t) (hstage : t.stage = .locking)
    (now : ℤ) : Continues db₀ key (t.locked db now) := by
  have hat := ht.row
  rw [hstage] at hat
  rw [FileTask.locked]
  rcases hat with ⟨hcheckout, hrunning⟩ | ⟨hpublish, -⟩
  · rw [if_pos (ht.operation.trans hcheckout)]
    exact ⟨op, h, ht.moved ⟨hcheckout, hrunning⟩⟩
  · rw [if_neg (ht.publish hpublish)]
    obtain ⟨db', hupdate, hrow⟩ := h.update ht.id .running (some .capturing)
      ((captureResult t.record).map fun m => [("capture", .obj m)]) none now
    rw [hupdate]
    exact ⟨_, hrow, ht.wrote ⟨hpublish, rfl, rfl⟩⟩

theorem LastRow.checkedOut (h : LastRow db₀ key db op) (ht : WorksOn op t) (result : Members)
    (now : ℤ) : Continues db₀ key (t.checkedOut db result now) := by
  obtain ⟨db', hupdate, hrow⟩ := h.update ht.id .succeeded none (some result) none now
  rw [FileTask.checkedOut, hupdate]
  exact ⟨_, hrow, ht.wrote (.inl rfl)⟩

theorem LastRow.captured (h : LastRow db₀ key db op) (ht : WorksOn op t)
    (hstage : t.stage = .capturing) (capture : Members) (now : ℤ) :
    Continues db₀ key (t.captured db capture now) := by
  have hat := ht.row
  rw [hstage] at hat
  obtain ⟨db', hupdate, hrow⟩ := h.update ht.id .running (some .captured)
    (some [("capture", .obj capture)]) none now
  have ht' : WorksOn (op.update .running (some .captured) (some [("capture", .obj capture)]) none
      now) (t.toStage .done) := ht.wrote (.inr (.inr ⟨hat.1, rfl, rfl⟩))
  rw [FileTask.captured, hupdate]
  cases t.target with
  | none => exact ⟨_, hrow, ht'⟩
  | some target =>
    dsimp only
    split_ifs
    · exact hrow.failPublish ht' _ _ now
    · obtain ⟨db'', hupload, hrow'⟩ := hrow.update ht'.id .running (some .uploading)
        (some [("capture", .obj capture), ("target_artifact_id", .str target.artifactId)]) none now
      have hid : t.record.id = (t.toStage .done).record.id := rfl
      rw [hid, hupload]
      exact ⟨_, hrow', ht'.wrote (t := t.toStage .done) ⟨hat.1, rfl, rfl⟩⟩

theorem LastRow.uploaded (h : LastRow db₀ key db op) (ht : WorksOn op t) (capture : Members)
    (artifactId : String) (result : Members) (now : ℤ) :
    Continues db₀ key (t.uploaded db capture artifactId result now) := by
  rw [FileTask.uploaded]
  split_ifs
  · exact h.failPublish ht _ _ now
  · obtain ⟨db', hupdate, hrow⟩ := h.update ht.id .succeeded (some .uploading)
      (some [("capture", .obj capture), ("target_artifact_id", .str artifactId),
        ("artifact", .obj result)]) none now
    rw [hupdate]
    exact ⟨_, hrow, ht.wrote (.inl rfl)⟩

/-- **A task leaves the row as its next stage wants it.** -/
theorem LastRow.act (h : LastRow db₀ key db op) (ht : WorksOn op t) {runner : Bool} {a : FileAct}
    {r : FileDb I × FileTask I} (hact : t.act runner db a = some r) : Continues db₀ key r := by
  cases a with
  | go now =>
    rw [FileTask.act] at hact
    split at hact
    · rename_i hstage
      obtain rfl := Option.some.inj hact
      exact h.enter ht hstage runner now
    · rename_i hstage
      obtain rfl := Option.some.inj hact
      exact h.locked ht hstage now
    · cases hact
  | returned result now =>
    rw [FileTask.act] at hact
    split at hact
    · obtain rfl := Option.some.inj hact
      exact h.checkedOut ht result now
    · rename_i hstage
      obtain rfl := Option.some.inj hact
      exact h.captured ht hstage result now
    · obtain rfl := Option.some.inj hact
      exact h.uploaded ht _ _ result now
    · cases hact
  | raised error now =>
    rw [FileTask.act] at hact
    split at hact
    · obtain rfl := Option.some.inj hact
      exact h.fail ht _ _ error now
    · obtain rfl := Option.some.inj hact
      exact h.failPublish ht _ error now
    · obtain rfl := Option.some.inj hact
      exact h.failPublish ht _ error now
    · cases hact

end Step

/-! ## A request -/

section Asked

variable [DecidableEq I] {db₀ db : FileDb I} {key : String} {op : FileRecord I} {r : FileRequest I}

/-- The row that the first request makes. -/
def FileRequest.row (r : FileRequest I) (key : String) : FileRecord I :=
  ⟨s!"operation_{r.token}", r.operation.kind, .pending, none, r.workspaceId, some r.sandboxId, key,
    r.input, none, none, r.now, r.now⟩

/-- The request starts no task and changes nothing, or starts one where the operation is at rest. -/
inductive Starts (db₀ : FileDb I) (key : String) (db : FileDb I) (rests : Prop) :
    FileDb I × List (FileTask I) → Prop
  | nothing : Starts db₀ key db rests (db, [])
  | task (db' : FileDb I) (t : FileTask I) (hrests : rests) (hstage : t.stage = .start)
      (hcontinues : Continues db₀ key (db', t)) : Starts db₀ key db rests (db', [t])

theorem starts_fresh (hfresh : ∀ old ∈ db₀.operations, old.idempotencyKey ≠ key) :
    Starts db₀ key db₀ True (requestFile key db₀ r) := by
  have hfind : (db₀.operations.find? fun old => old.idempotencyKey = key) = none :=
    List.find?_eq_none.mpr fun old hold => by simpa using hfresh old hold
  rw [requestFile, bindOperation, createOperation, hfind]
  by_cases hid : (findOperation db₀ s!"operation_{r.token}").isSome
  · simp only [if_pos hid]
    exact .nothing
  · by_cases hworkspace : (db₀.workspaces r.workspaceId).isNone
    · simp only [if_neg hid, if_pos hworkspace]
      exact .nothing
    · simp only [if_neg hid, if_neg hworkspace, ne_eq, not_true_eq_false, or_self, if_false,
        scheduleOperation, if_true]
      refine .task _ _ trivial rfl ⟨r.row key, ⟨rfl, rfl, ?_, rfl, ?_, ?_⟩, ⟨rfl, rfl, rfl, rfl⟩⟩
      · intro old hold heq
        exact hid (List.find?_isSome.mpr ⟨old, hold, decide_eq_true heq⟩)
      · cases hop : r.operation with
        | checkout => exact .inl (by rw [FileRequest.row, hop]; rfl)
        | publish => exact .inr (by rw [FileRequest.row, hop]; rfl)
      · exact Option.isSome_iff_ne_none.mpr fun hnone =>
          hworkspace (Option.isNone_iff_eq_none.mpr hnone)

theorem LastRow.starts (h : LastRow db₀ key db op)
    (hfresh : ∀ old ∈ db₀.operations, old.idempotencyKey ≠ key) :
    Starts db₀ key db op.AtRest (requestFile key db r) := by
  have hfind : (db.operations.find? fun old => old.idempotencyKey = key) = some op := by
    rw [h.operations, List.find?_append, List.find?_eq_none.mpr]
    · simp [h.key]
    · exact fun old hold => by simpa using hfresh old hold
  rw [requestFile, bindOperation, createOperation, hfind]
  dsimp only
  split_ifs with hother
  · exact .nothing
  · simp only [not_or, not_not] at hother
    simp only [scheduleOperation, Bool.false_eq_true, if_false]
    split_ifs with hagain
    · obtain ⟨db', hupdate, hrow⟩ := h.update rfl .pending op.phase op.result none r.now
      rw [hupdate]
      refine .task db' _ ?_ rfl ⟨_, hrow, ⟨rfl, rfl, rfl, rfl⟩⟩
      rcases hagain with hfailed | hresumes
      · exact .inr (.inl hfailed)
      · simp only [resumesPublish, Bool.and_eq_true, decide_eq_true_eq] at hresumes
        obtain ⟨⟨⟨hpublish, hrunning⟩, hcaptured⟩, -⟩ := hresumes
        exact .inr (.inr ⟨by rw [hother.1, hpublish]; rfl, hrunning, hcaptured⟩)
    · exact .nothing

end Asked

/-! ## One task at a time -/

section Runs

variable [DecidableEq I] {db₀ : FileDb I} {key : String} {w w' : Pool (FileDb I) (FileTask I)}

/-- Nothing has been asked for, or the operation is at rest, or one task works on it. -/
inductive Supervised (db₀ : FileDb I) (key : String) (w : Pool (FileDb I) (FileTask I)) : Prop
  | unasked (hdb : w.shared = db₀) (htasks : w.tasks = [])
  | atRest (op : FileRecord I) (hrow : LastRow db₀ key w.shared op) (hrests : op.AtRest)
      (hdone : ∀ u ∈ w.tasks, u.stage = .done)
  | working (op : FileRecord I) (i : ℕ) (t : FileTask I) (hrow : LastRow db₀ key w.shared op)
      (hi : w.tasks[i]? = some t) (hlive : t.stage ≠ .done) (hworks : WorksOn op t)
      (hothers : ∀ j u, w.tasks[j]? = some u → j ≠ i → u.stage = .done)

omit [DecidableEq I] in
theorem FileTask.act_done {runner : Bool} {db : FileDb I} {t : FileTask I} {a : FileAct}
    (hdone : t.stage = .done) : t.act runner db a = none := by
  cases a <;> simp [FileTask.act, hdone]

omit [DecidableEq I] in
/-- A row that a task works on is not at rest. -/
theorem WorksOn.not_atRest {op : FileRecord I} {t : FileTask I} (h : WorksOn op t)
    (hlive : t.stage ≠ .done) : ¬ op.AtRest := by
  have hrow := h.row
  rintro (hstatus | hstatus | ⟨hpublish, hstatus, hphase⟩)
  all_goals
    revert hrow hlive
    cases t.stage <;> simp [RowAt, *]

omit [DecidableEq I] in
theorem Supervised.act {runner : Bool} {i : ℕ} {t : FileTask I} {a : FileAct} {s : FileDb I}
    {t' : FileTask I} (h : Supervised db₀ key w) (hi : w.tasks[i]? = some t)
    (hact : t.act runner w.shared a = some (s, t')) :
    Supervised db₀ key ⟨s, w.tasks.set i t'⟩ := by
  have hlive : t.stage ≠ .done := fun hdone => by
    rw [FileTask.act_done hdone] at hact
    cases hact
  cases h with
  | unasked hdb htasks => simp [htasks] at hi
  | atRest op hrow hrests hdone => exact absurd (hdone t (List.mem_of_getElem? hi)) hlive
  | working op k u hrow hk hu hworks hothers =>
    obtain rfl : i = k := by
      by_contra hne
      exact hlive (hothers i t hi hne)
    obtain rfl : t = u := Option.some.inj (hi.symm.trans hk)
    obtain ⟨op', hrow', hworks'⟩ := hrow.act hworks hact
    have hset : (w.tasks.set i t')[i]? = some t' := by
      rw [List.getElem?_set_self (List.getElem?_eq_some_iff.mp hi).1]
    have hothers' : ∀ j u, (w.tasks.set i t')[j]? = some u → j ≠ i → u.stage = .done := by
      intro j u hj hne
      rw [List.getElem?_set_ne hne.symm] at hj
      exact hothers j u hj hne
    by_cases hdone : t'.stage = .done
    · refine .atRest op' hrow' ?_ fun u hu => ?_
      · have := hworks'.row
        rwa [hdone] at this
      · obtain ⟨j, hj⟩ := List.mem_iff_getElem?.mp hu
        by_cases hji : j = i
        · subst hji
          obtain rfl := Option.some.inj (hset.symm.trans hj)
          exact hdone
        · exact hothers' j u hj hji
    · exact .working op' i t' hrow' hset hdone hworks' hothers'

omit [DecidableEq I] in
theorem Supervised.start {op : FileRecord I} {t : FileTask I} {s : FileDb I}
    (hdone : ∀ u ∈ w.tasks, u.stage = .done) (hstage : t.stage = .start)
    (hrow : LastRow db₀ key s op) (hworks : WorksOn op t) :
    Supervised db₀ key ⟨s, w.tasks ++ [t]⟩ := by
  refine .working op w.tasks.length t hrow (by simp) (by simp [hstage]) hworks
    fun j u hj hne => ?_
  rcases Nat.lt_or_ge j w.tasks.length with hlt | hge
  · rw [List.getElem?_append_left hlt] at hj
    exact hdone u (List.mem_of_getElem? hj)
  · have hnone : (w.tasks ++ [t])[j]? = none :=
      List.getElem?_eq_none (by simp only [List.length_append, List.length_singleton]; omega)
    exact nomatch hnone.symm.trans hj

theorem Supervised.request (hfresh : ∀ old ∈ db₀.operations, old.idempotencyKey ≠ key)
    (h : Supervised db₀ key w) (r : FileRequest I) :
    Supervised db₀ key
      ⟨(requestFile key w.shared r).1, w.tasks ++ (requestFile key w.shared r).2⟩ := by
  have hafter {rests : Prop} (hstarts : Starts db₀ key w.shared rests (requestFile key w.shared r))
      (hdone : rests → ∀ u ∈ w.tasks, u.stage = .done) : Supervised db₀ key
        ⟨(requestFile key w.shared r).1, w.tasks ++ (requestFile key w.shared r).2⟩ := by
    generalize requestFile key w.shared r = result at hstarts
    cases hstarts with
    | nothing => simpa using h
    | task db' t hrests hstage hcontinues =>
      obtain ⟨op, hrow, hworks⟩ := hcontinues
      exact .start (hdone hrests) hstage hrow hworks
  cases h with
  | unasked hdb htasks =>
    subst hdb
    exact hafter (starts_fresh hfresh) fun _ u hu => by simp [htasks] at hu
  | atRest op hrow hrests hdone => exact hafter (hrow.starts hfresh) fun _ => hdone
  | working op i t hrow hi hlive hworks hothers =>
    exact hafter (hrow.starts hfresh) fun hrests => absurd hrests (hworks.not_atRest hlive)

theorem Supervised.run (hfresh : ∀ old ∈ db₀.operations, old.idempotencyKey ≠ key) {runner : Bool}
    {as : List (Pool.Action FileAct (FileRequest I))}
    (hrun : Machine.run (Pool.step (fileProgram runner key)) w as = some w')
    (h : Supervised db₀ key w) : Supervised db₀ key w' := by
  refine Machine.run_keeps (fun v a v' hv hstep => ?_) hrun h
  cases a with
  | task i a =>
    obtain ⟨t, s, t', hi, hact, rfl⟩ := Pool.step_task.mp hstep
    exact hv.act hi hact
  | env r =>
    obtain ⟨s, ts, henv, rfl⟩ := Pool.step_env.mp hstep
    have hrequest := hv.request hfresh r
    rwa [Option.some.inj henv] at hrequest

/-- **At most one task of the key is live, and while none is, the operation is at rest.** -/
theorem fileOperation_single {runner : Bool} {as : List (Pool.Action FileAct (FileRequest I))}
    (hfresh : ∀ old ∈ db₀.operations, old.idempotencyKey ≠ key)
    (hrun : Machine.run (Pool.step (fileProgram runner key)) ⟨db₀, []⟩ as = some w) :
    (∀ (i j : ℕ) (t u : FileTask I), w.tasks[i]? = some t → w.tasks[j]? = some u →
      t.stage ≠ .done → u.stage ≠ .done → i = j) ∧
    ((∀ t ∈ w.tasks, t.stage = .done) →
      ∀ op ∈ w.shared.operations, op.idempotencyKey = key → op.AtRest) := by
  have hrow_of {op : FileRecord I} (hrow : LastRow db₀ key w.shared op) {op' : FileRecord I}
      (hop : op' ∈ w.shared.operations) (hkey : op'.idempotencyKey = key) : op' = op := by
    rw [hrow.operations, List.mem_append, List.mem_singleton] at hop
    exact hop.resolve_left fun hold => hfresh op' hold hkey
  cases Supervised.run hfresh hrun (.unasked rfl rfl) with
  | unasked hdb htasks =>
    refine ⟨fun i j t u hi => by simp [htasks] at hi, fun _ op hop hkey => ?_⟩
    exact absurd hkey (hfresh op (hdb ▸ hop))
  | atRest op hrow hrests hdone =>
    refine ⟨fun i j t u hi hj hlive => ?_, fun _ op' hop hkey => ?_⟩
    · exact absurd (hdone t (List.mem_of_getElem? hi)) hlive
    · exact hrow_of hrow hop hkey ▸ hrests
  | working op k t hrow hk hlive hworks hothers =>
    refine ⟨fun i j u v hi hj hu hv => ?_, fun hdone => ?_⟩
    · have hik : i = k := by_contra fun hne => hu (hothers i u hi hne)
      have hjk : j = k := by_contra fun hne => hv (hothers j v hj hne)
      exact hik.trans hjk.symm
    · exact absurd (hdone t (List.mem_of_getElem? hk)) hlive

end Runs

/-- A request for the publish of a file. -/
def sampleFileRequest (target : Option Target) (token : String) : FileRequest PublishInput :=
  ⟨.publish, sampleRequest.workspaceId, sampleRequest.sandboxId, sampleRequest.input, target, token,
    1⟩

/-- A capture without a target, and a retry that is given one while further requests come in. -/
def sampleFileRun : List (Pool.Action FileAct (FileRequest PublishInput)) :=
  [.env (sampleFileRequest none "a"), .task 0 (.go 2), .env (sampleFileRequest none "b"),
    .task 0 (.go 3), .task 0 (.returned [("size", .int 2)] 4),
    .env (sampleFileRequest (some (sampleTarget "artifact_1")) "c"), .task 1 (.go 5),
    .task 1 (.go 6), .task 1 (.returned [("size", .int 2)] 7),
    .env (sampleFileRequest (some (sampleTarget "artifact_1")) "d")]

theorem fileOperation_single_sample : ∃ w,
    Machine.run (Pool.step (fileProgram true sampleRequest.idempotencyKey))
      ⟨Db.empty.putWorkspace sampleRequest.workspaceId sampleRow, []⟩ sampleFileRun = some w ∧
    (w.tasks.length = 2 ∧ ∃ t ∈ w.tasks, t.stage ≠ .done) ∧
    ∀ (i j : ℕ) (t u : FileTask PublishInput), w.tasks[i]? = some t → w.tasks[j]? = some u →
      t.stage ≠ .done → u.stage ≠ .done → i = j := by
  have hrun : (Machine.run (Pool.step (fileProgram true sampleRequest.idempotencyKey))
      ⟨Db.empty.putWorkspace sampleRequest.workspaceId sampleRow, []⟩ sampleFileRun).any
        (fun w => w.tasks.length = 2 ∧ w.tasks.any (·.stage.isLive)) = true := by decide +kernel
  obtain ⟨w, hw, htest⟩ := (Option.any_eq_true _ _).mp hrun
  simp only [decide_eq_true_eq, List.any_eq_true] at htest
  refine ⟨w, hw, ⟨htest.1, ?_⟩, (fileOperation_single (fun old hold => by cases hold) hw).1⟩
  obtain ⟨t, ht, hlive⟩ := htest.2
  exact ⟨t, ht, fun hdone => by simp [hdone, FileStage.isLive] at hlive⟩

end CodexGateway.Manager
