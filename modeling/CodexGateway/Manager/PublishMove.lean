import CodexGateway.Manager.Publish

/-!
# Manager/PublishMove — what a step of a publish can do

The table of operations holds nothing or the one row of the publish, and the coroutine works on that
row.  So no transaction fails, and a step is one of the few moves of `Move`; every invariant of a
publish is proved of these.
-/

namespace CodexGateway.Manager

open StorageOps

variable {H : Type}

/-! ## The one row -/

section Row

variable {I R : Type} {db : Db I R} {op : OperationRecord I R}

theorem findOperation_singleton (h : db.operations = [op]) : findOperation db op.id = some op := by
  simp [findOperation, h]

theorem updateOperation_singleton (h : db.operations = [op]) {operationId : String}
    (hid : operationId = op.id) (status : OperationStatus) (phase : Option OperationPhase)
    (result : Option R) (error : Option String) (now : ℤ) :
    updateOperation db operationId status phase result error now =
      .ok { db with operations := [op.update status phase result error now] } := by
  subst hid
  simp [updateOperation, findOperation_singleton h, h]

end Row

/-- The row is the one of this publish. -/
structure Ours (cfg : PublishRequest) (op : PublishRecord H) : Prop where
  operation : op.operation = .publish
  workspaceId : op.workspaceId = cfg.workspaceId
  sandboxId : op.sandboxId = some cfg.sandboxId
  idempotencyKey : op.idempotencyKey = cfg.idempotencyKey
  input : op.input = cfg.input

namespace Publication

/-- The row of the publish. -/
def row (s : Publication H) : Option (PublishRecord H) := s.db.operations.head?

/-- The row has been written. -/
def setRow (s : Publication H) (op : PublishRecord H) : Publication H :=
  { s with db := { s.db with operations := [op] } }

/-- The coroutine has ended, and its task with it. -/
def endAttempt (s : Publication H) (op : PublishRecord H) : Publication H :=
  { s.setRow op with attempt := none, task := none }

@[simp] theorem row_setRow (s : Publication H) (op : PublishRecord H) :
    (s.setRow op).row = some op := rfl

@[simp] theorem row_endAttempt (s : Publication H) (op : PublishRecord H) :
    (s.endAttempt op).row = some op := rfl

end Publication

open Publication

/-- The row that the `except` of the coroutine writes. -/
def failedRow (op : PublishRecord H) (target : Option Target) (capture : Option (Manifest H))
    (error : String) (now : ℤ) : PublishRecord H :=
  op.update .failed (some (if capture.isSome then .captured else .capturing))
    (capture.map fun m => ⟨some m, target.map Target.artifactId, none⟩) (some error) now

theorem targetOf_failedRow (op : PublishRecord H) (target : Option Target)
    (capture : Option (Manifest H)) (error : String) (now : ℤ) :
    targetOf (failedRow op target capture error now) =
      capture.bind fun _ => target.map Target.artifactId := by
  cases capture <;> rfl

/-- The update that starts a capture drops the target. -/
theorem targetOf_startCapture (op : PublishRecord H) (capture : Option (Manifest H)) (now : ℤ) :
    targetOf (op.update .running (some .capturing)
      (capture.map fun m => ⟨some m, none, none⟩) none now) = none := by
  cases capture <;> rfl

/-- The row says where the coroutine is. -/
def InStage (op : PublishRecord H) (task : Option (Stage H)) : AttemptStage H → Prop
  | .start => op.status = .pending ∧ task = none
  | .capturing => op.status = .running ∧ op.phase = some .capturing
  | .uploading _ _ => op.status = .running ∧ op.phase = some .uploading

/-- The table has at most one row, the coroutine works on it, and without a coroutine the Manager
runs no task. -/
structure Bound (cfg : PublishRequest) (s : Publication H) : Prop where
  workspace : (s.db.workspaces cfg.workspaceId).isSome
  rows : s.db.operations = [] ∧ s.attempt = none ∨
    ∃ op, s.db.operations = [op] ∧ Ours cfg op ∧
      ∀ a ∈ s.attempt, a.record.id = op.id ∧ InStage op s.task a.stage
  down : s.up = false → s.attempt = none
  idle : s.up = true → s.attempt = none → s.task = none

/-- Once the coroutine waits for a task, the row does not look at it. -/
theorem InStage.task {op : PublishRecord H} {t : Stage H} {task : Option (Stage H)}
    {stage : AttemptStage H} (h : InStage op (some t) stage) : InStage op task stage := by
  cases stage with
  | start => cases h.2
  | capturing => exact h
  | uploading m A => exact h

theorem Ours.update {cfg : PublishRequest} {op : PublishRecord H} (h : Ours cfg op)
    (status : OperationStatus) (phase : Option OperationPhase) (result : Option (PublishResult H))
    (error : Option String) (now : ℤ) : Ours cfg (op.update status phase result error now) :=
  ⟨h.operation, h.workspaceId, h.sandboxId, h.idempotencyKey, h.input⟩

theorem Bound.ours {cfg : PublishRequest} {s : Publication H} (h : Bound cfg s)
    {op : PublishRecord H} (hop : s.db.operations = [op]) : Ours cfg op := by
  rcases h.rows with ⟨hempty, -⟩ | ⟨op', hop', hours, -⟩
  · simp [hempty] at hop
  · obtain rfl : op' = op := by simpa [hop'] using hop
    exact hours

theorem Bound.working {cfg : PublishRequest} {s : Publication H} (h : Bound cfg s)
    {op : PublishRecord H} (hop : s.db.operations = [op]) {a : Attempt H} (ha : s.attempt = some a) :
    a.record.id = op.id ∧ InStage op s.task a.stage := by
  rcases h.rows with ⟨hempty, -⟩ | ⟨op', hop', -, hworking⟩
  · simp [hempty] at hop
  · obtain rfl : op' = op := by simpa [hop'] using hop
    exact hworking a ha

theorem Bound.attempt_none {cfg : PublishRequest} {s : Publication H} (h : Bound cfg s)
    (hempty : s.db.operations = []) : s.attempt = none := by
  rcases h.rows with ⟨-, hnone⟩ | ⟨op, hop, -⟩
  · exact hnone
  · simp [hempty] at hop

theorem Bound.stored {cfg : PublishRequest} {s : Publication H} (h : Bound cfg s) {a : Attempt H}
    (ha : s.attempt = some a) : ∃ op, s.db.operations = [op] ∧ a.record.id = op.id := by
  rcases h.rows with ⟨-, hnone⟩ | ⟨op, hop, -, hworking⟩
  · simp [hnone] at ha
  · exact ⟨op, hop, (hworking a ha).1⟩

/-! ## The moves -/

variable [DecidableEq H] {cfg : PublishRequest} {sha256 : Bytes → H}

/-- The coroutine can go on. -/
def Attempt.ready (a : Attempt H) (task : Option (Stage H)) : Bool :=
  match a.stage, task with
  | .start, _ => true
  | .capturing, some (.captured _) => true
  | .uploading _ _, some (.uploaded _) => true
  | _, some (.failed _) => true
  | _, _ => false

/-- What a step may do, with the row `op` it finds. -/
inductive Move (cfg : PublishRequest) (sha256 : Bytes → H) (s : Publication H) :
    PublishAction → Publication H → Prop where
  /-- the first request -/
  | created {target token now op} (hempty : s.db.operations = []) (hup : s.up = true)
      (hours : Ours cfg op) (hstatus : op.status = .pending) (hresult : op.result = none) :
      Move cfg sha256 s (.request target token now)
        { s.setRow op with attempt := some ⟨op, target, .start⟩ }
  /-- a request that starts an attempt on the row that is there -/
  | scheduled {target token now op} (hop : s.db.operations = [op]) (hup : s.up = true)
      (hagain : op.status = .failed ∨ resumesCaptured op target = true) :
      Move cfg sha256 s (.request target token now)
        { s.setRow (op.update .pending op.phase op.result none now) with
          attempt := some ⟨op.update .pending op.phase op.result none now, target, .start⟩ }
  /-- a request that finds the operation at work or done -/
  | joined {target token now op} (hop : s.db.operations = [op]) (hstatus : op.status ≠ .failed)
      (hresume : resumesCaptured op target = false) : Move cfg sha256 s (.request target token now) s
  | task {contentFirst now stage} (htask : s.task = some stage) (hopen : stage.ended = false) :
      Move cfg sha256 s (.go contentFirst now)
        { s with
          storage := (StorageOps.taskStep sha256 cfg.taskInput s.storage contentFirst stage).1
          task := some (StorageOps.taskStep sha256 cfg.taskInput s.storage contentFirst stage).2 }
  | startCapture {contentFirst now op a} (hop : s.db.operations = [op]) (ha : s.attempt = some a)
      (hstage : a.stage = .start) :
      Move cfg sha256 s (.go contentFirst now)
        { s.setRow (op.update .running (some .capturing)
            ((captureOf a.record).map fun m => ⟨some m, none, none⟩) none now) with
          attempt := some { a with stage := .capturing }
          task := some .captureCheck }
  /-- the request was for a capture only -/
  | captureOnly {contentFirst now op a m} (hop : s.db.operations = [op]) (ha : s.attempt = some a)
      (hstage : a.stage = .capturing) (htask : s.task = some (.captured m))
      (htarget : a.target = none) :
      Move cfg sha256 s (.go contentFirst now)
        (s.endAttempt (op.update .running (some .captured) (some ⟨some m, none, none⟩) none now))
  | startUpload {contentFirst now op a m t} (hop : s.db.operations = [op]) (ha : s.attempt = some a)
      (hstage : a.stage = .capturing) (htask : s.task = some (.captured m))
      (htarget : a.target = some t) (hagrees : ∀ A ∈ targetOf a.record, A = t.artifactId) :
      Move cfg sha256 s (.go contentFirst now)
        { s.setRow (op.update .running (some .uploading)
            (some ⟨some m, some t.artifactId, none⟩) none now) with
          attempt := some { a with stage := .uploading m t.artifactId }
          task := some (.uploadVerify t.artifactId)
          uploadCalls := s.uploadCalls ++ [t.artifactId] }
  /-- the target of the request is not the one in the record -/
  | rebound {contentFirst now op a m t A error} (hop : s.db.operations = [op])
      (ha : s.attempt = some a) (hstage : a.stage = .capturing)
      (htask : s.task = some (.captured m)) (htarget : a.target = some t)
      (hA : targetOf a.record = some A) (hdiffers : A ≠ t.artifactId) :
      Move cfg sha256 s (.go contentFirst now)
        (s.endAttempt (failedRow op a.target (some m) error now))
  | taskFailed {contentFirst now op a e} (hop : s.db.operations = [op]) (ha : s.attempt = some a)
      (hstage : a.stage ≠ .start) (htask : s.task = some (.failed e)) :
      Move cfg sha256 s (.go contentFirst now)
        (s.endAttempt (failedRow op a.target (boundCapture a) e now))
  | otherArtifact {contentFirst now op a m A info error} (hop : s.db.operations = [op])
      (ha : s.attempt = some a) (hstage : a.stage = .uploading m A)
      (htask : s.task = some (.uploaded info)) (hdiffers : info.artifactId ≠ A) :
      Move cfg sha256 s (.go contentFirst now)
        (s.endAttempt (failedRow op a.target (some m) error now))
  | succeeded {contentFirst now op a m A info} (hop : s.db.operations = [op])
      (ha : s.attempt = some a) (hstage : a.stage = .uploading m A)
      (htask : s.task = some (.uploaded info)) (hsame : info.artifactId = A) :
      Move cfg sha256 s (.go contentFirst now)
        (s.endAttempt (op.update .succeeded (some .uploading) (some ⟨some m, some A, some info⟩) none
          now))
  /-- there is nothing that could go on -/
  | idle {contentFirst now} (hended : ∀ t ∈ s.task, t.ended = true)
      (hready : ∀ a ∈ s.attempt, a.ready s.task = false) : Move cfg sha256 s (.go contentFirst now) s
  | taskFail {applied error stage} (htask : s.task = some stage) (hopen : stage.ended = false) :
      Move cfg sha256 s (.taskFail applied error)
        { s with
          storage := (taskFail sha256 s.storage applied error stage).1
          task := some (taskFail sha256 s.storage applied error stage).2 }
  | managerFail {op a error now} (hop : s.db.operations = [op]) (ha : s.attempt = some a)
      (htask : s.task.isSome) :
      Move cfg sha256 s (.managerFail error now)
        (s.endAttempt (failedRow op a.target (boundCapture a) error now))
  | crash (hup : s.up = true) : Move cfg sha256 s .crash { s with up := false, attempt := none }
  /-- a new Manager finds no operation at work -/
  | restart {now} (hdown : s.up = false)
      (hcomplete : ∀ op, s.db.operations = [op] → op.status ≠ .pending ∧ op.status ≠ .running) :
      Move cfg sha256 s (.restart now) { s with up := true, task := none }
  /-- a new Manager marks the operation failed -/
  | recovered {now op phase error} (hop : s.db.operations = [op]) (hdown : s.up = false)
      (hincomplete : op.status = .pending ∨ op.status = .running) :
      Move cfg sha256 s (.restart now)
        { s.setRow (op.update .failed phase op.result error now) with up := true, task := none }
  | agentWrite {file} :
      Move cfg sha256 s (.agentWrite file) { s with storage := { s.storage with source := file } }

/-! ## Every step is a move -/

section Steps

variable {s s' : Publication H} {op : PublishRecord H} {a : Attempt H}

omit [DecidableEq H] in
theorem failAttempt_eq (hop : s.db.operations = [op]) (hid : a.record.id = op.id)
    (capture : Option (Manifest H)) (error : String) (now : ℤ) :
    s.failAttempt a capture error now =
      s.endAttempt (failedRow op a.target capture error now) := by
  rw [failAttempt, updateOperation_singleton hop hid]
  rfl

theorem recordCapture_move (hop : s.db.operations = [op]) (ha : s.attempt = some a)
    (hid : a.record.id = op.id) (hstage : a.stage = .capturing) {m : Manifest H}
    (htask : s.task = some (.captured m)) (b : Bool) (now : ℤ) :
    Move cfg sha256 s (.go b now) (s.recordCapture a m now) := by
  rw [recordCapture, updateOperation_singleton hop hid]
  generalize hop₁ : op.update .running (some .captured) (some ⟨some m, none, none⟩) none now = op₁
  have hdb₁ : ({ s.db with operations := [op₁] } : Db _ _).operations = [op₁] := rfl
  have hid₁ : a.record.id = op₁.id := hop₁ ▸ hid
  dsimp only
  split
  · rename_i htarget
    subst hop₁
    exact .captureOnly hop ha hstage htask htarget
  · rename_i t htarget
    split
    · rename_i hdiffers
      obtain ⟨A, hA⟩ := Option.ne_none_iff_exists'.mp hdiffers.1
      rw [failAttempt_eq hdb₁ hid₁]
      subst hop₁
      change Move cfg sha256 s _ (s.endAttempt (failedRow op a.target (some m) _ now))
      exact .rebound hop ha hstage htask htarget hA fun he => hdiffers.2 (he ▸ hA)
    · rename_i hagrees
      rw [updateOperation_singleton hdb₁ hid₁]
      subst hop₁
      have hmove : (∀ A ∈ targetOf a.record, A = t.artifactId) → Move cfg sha256 s (.go b now)
          { s.setRow (op.update .running (some .uploading)
              (some ⟨some m, some t.artifactId, none⟩) none now) with
            attempt := some { a with stage := .uploading m t.artifactId }
            task := some (.uploadVerify t.artifactId)
            uploadCalls := s.uploadCalls ++ [t.artifactId] } :=
        fun hagrees => .startUpload hop ha hstage htask htarget hagrees
      refine hmove fun A hA => ?_
      have hA : targetOf a.record = some A := hA
      by_contra hne
      exact hagrees ⟨by simp [hA], fun he => hne (Option.some.inj (hA.symm.trans he))⟩

theorem recordUpload_move (hop : s.db.operations = [op]) (ha : s.attempt = some a)
    (hid : a.record.id = op.id) {m : Manifest H} {A : String} (hstage : a.stage = .uploading m A)
    {info : ArtifactInfo H} (htask : s.task = some (.uploaded info)) (b : Bool) (now : ℤ) :
    Move cfg sha256 s (.go b now) (s.recordUpload a m A info now) := by
  rw [recordUpload]
  split
  · rename_i hdiffers
    rw [failAttempt_eq hop hid]
    exact .otherArtifact hop ha hstage htask hdiffers
  · rename_i hsame
    rw [updateOperation_singleton hop hid]
    exact .succeeded hop ha hstage htask (not_not.mp hsame)

theorem attemptStep_move (hop : s.db.operations = [op]) (ha : s.attempt = some a)
    (hid : a.record.id = op.id) (hended : ∀ t ∈ s.task, t.ended = true) (b : Bool) (now : ℤ) :
    Move cfg sha256 s (.go b now) (s.attemptStep a now) := by
  rw [attemptStep]
  split
  · rename_i hstage
    rw [Publication.startCapture, updateOperation_singleton hop hid]
    exact .startCapture hop ha hstage
  · rename_i m hstage htask
    exact recordCapture_move hop ha hid hstage htask b now
  · rename_i m A info hstage htask
    exact recordUpload_move hop ha hid hstage htask b now
  · rename_i e htask hstart
    rw [failAttempt_eq hop hid]
    exact .taskFailed hop ha (fun he => hstart he) htask
  · rename_i hstart hfailed hcaptured huploaded
    refine .idle hended fun a' ha' => ?_
    obtain rfl := Option.some.inj (ha.symm.trans ha')
    unfold Attempt.ready
    cases hstage : a.stage with
    | start => exact absurd hstage hstart
    | capturing =>
      cases htask : s.task with
      | none => rfl
      | some t =>
        cases t with
        | captured m => exact (hcaptured m hstage htask).elim
        | failed e => exact (hfailed e htask).elim
        | _ => rfl
    | uploading m A =>
      cases htask : s.task with
      | none => rfl
      | some t =>
        cases t with
        | uploaded info => exact (huploaded m A info hstage htask).elim
        | failed e => exact (hfailed e htask).elim
        | _ => rfl

variable (sha256) in
/-- A request of this publish is never refused. -/
theorem requestPublish_move (hs : Bound cfg s) (hup : s.up = true) (target : Option Target)
    (token : String) (now : ℤ) : ∃ s', requestPublish cfg s target token now = some s' ∧
      Move cfg sha256 s (.request target token now) s' := by
  rw [requestPublish, bindOperation, createOperation]
  rcases hs.rows with ⟨hempty, -⟩ | ⟨op, hop, hours, -⟩
  · have hworkspace : (s.db.workspaces cfg.workspaceId).isNone = false := by
      simpa using hs.workspace
    simp only [hempty, findOperation, hworkspace, scheduleOperation, List.find?_nil,
      Option.isSome_none, Bool.false_eq_true, if_false, ne_eq, not_true_eq_false, or_self, if_true]
    refine ⟨_, rfl, ?_⟩
    exact .created hempty hup ⟨rfl, rfl, rfl, rfl, rfl⟩ rfl rfl
  · simp only [hop, List.find?_cons, hours.idempotencyKey, decide_true, hours.operation,
      hours.workspaceId, hours.sandboxId, hours.input, ne_eq, not_true_eq_false, or_self,
      if_false, scheduleOperation, Bool.false_eq_true]
    split_ifs with hagain
    · rw [updateOperation_singleton hop rfl]
      exact ⟨_, rfl, .scheduled hop hup hagain⟩
    · obtain ⟨hstatus, hresume⟩ := not_or.mp hagain
      exact ⟨_, rfl, .joined hop hstatus (by simpa using hresume)⟩

theorem restart_move (hs : Bound cfg s) (hdown : s.up = false) (now : ℤ) :
    Move cfg sha256 s (.restart now)
      { s with up := true, task := none, db := Publication.recoverIncompleteOperations s.db now } := by
  rcases hs.rows with ⟨hempty, -⟩ | ⟨op, hop, -, -⟩
  · have hrecover : Publication.recoverIncompleteOperations s.db now = s.db := by
      simp [Publication.recoverIncompleteOperations, incompleteOperations, hempty]
    rw [hrecover]
    exact .restart hdown fun op hop => by simp [hempty] at hop
  · by_cases hincomplete : op.status = .pending ∨ op.status = .running
    · have hfold : incompleteOperations s.db = [op] := by
        simpa [incompleteOperations, hop] using hincomplete
      rw [Publication.recoverIncompleteOperations, hfold, List.foldl_cons, List.foldl_nil,
        updateOperation_singleton hop rfl]
      exact .recovered hop hdown hincomplete
    · have hfold : incompleteOperations s.db = [] := by
        simpa [incompleteOperations, hop] using hincomplete
      rw [Publication.recoverIncompleteOperations, hfold, List.foldl_nil]
      refine .restart hdown fun op' hop' => ?_
      obtain rfl : op = op' := by simpa [hop] using hop'
      exact not_or.mp hincomplete

/-- **Every step is a move.** -/
theorem publishStep_move (hs : Bound cfg s) {action : PublishAction}
    (h : publishStep cfg sha256 s action = some s') : Move cfg sha256 s action s' := by
  cases action with
  | request target token now =>
    simp only [publishStep] at h
    split_ifs at h with hup
    obtain ⟨m, hm, hmove⟩ := requestPublish_move sha256 hs hup target token now
    obtain rfl := Option.some.inj (hm.symm.trans h)
    exact hmove
  | go b now =>
    obtain rfl := Option.some.inj h
    have hgo : (∀ t ∈ s.task, t.ended = true) → ∀ a, s.attempt = some a →
        Move cfg sha256 s (.go b now) (s.attemptStep a now) := by
      intro hended a ha
      obtain ⟨op, hop, hid⟩ := hs.stored ha
      exact attemptStep_move hop ha hid hended b now
    have hidle : (∀ t ∈ s.task, t.ended = true) → s.attempt = none →
        Move cfg sha256 s (.go b now) s := fun hended hnone => .idle hended (by simp [hnone])
    rw [Publication.go]
    split
    · rename_i stage htask
      split
      · rename_i hended
        have hended : ∀ t ∈ s.task, t.ended = true := by simp [htask, hended]
        split
        · exact hgo hended _ ‹_›
        · exact hidle hended ‹_›
      · rename_i hopen
        exact .task htask (by simpa using hopen)
    · rename_i htask
      have hended : ∀ t ∈ s.task, t.ended = true := by simp [htask]
      split
      · exact hgo hended _ ‹_›
      · exact hidle hended ‹_›
  | taskFail applied error =>
    simp only [publishStep] at h
    split at h
    · rename_i stage htask
      split_ifs at h with hopen
      obtain rfl := Option.some.inj h
      exact .taskFail htask (by simpa using hopen)
    · cases h
  | managerFail error now =>
    simp only [publishStep] at h
    split at h
    · rename_i a ha
      split_ifs at h with htask
      obtain rfl := Option.some.inj h
      obtain ⟨op, hop, hid⟩ := hs.stored ha
      rw [failAttempt_eq hop hid]
      exact .managerFail hop ha htask
    · cases h
  | crash =>
    simp only [publishStep] at h
    split_ifs at h with hup
    obtain rfl := Option.some.inj h
    exact .crash hup
  | restart now =>
    simp only [publishStep] at h
    split_ifs at h with hup
    have hdown : s.up = false := by simpa using hup
    obtain rfl := Option.some.inj h
    exact restart_move hs hdown now
  | agentWrite file =>
    obtain rfl := Option.some.inj h
    exact .agentWrite

omit [DecidableEq H] in
/-- The task of a coroutine goes on. -/
theorem Bound.setTask (hs : Bound cfg s) {t t' : Stage H} (htask : s.task = some t)
    (storage : Storage H) : Bound cfg { s with storage := storage, task := some t' } where
  workspace := hs.workspace
  rows := hs.rows.imp_right fun ⟨op, hop, hours, hworking⟩ =>
    ⟨op, hop, hours, fun a ha => ⟨(hworking a ha).1, (htask ▸ (hworking a ha).2).task⟩⟩
  down := hs.down
  idle := fun hup hnone => by simpa [htask] using hs.idle hup hnone

omit [DecidableEq H] in
/-- The coroutine has written its row and waits for another task. -/
theorem Bound.setStage (hs : Bound cfg s) (hop : s.db.operations = [op]) (ha : s.attempt = some a)
    {op' : PublishRecord H} (hours : Ours cfg op') (hid : op'.id = op.id) {stage : AttemptStage H}
    {task : Option (Stage H)} (hstage : InStage op' task stage) (calls : List String) :
    Bound cfg { s.setRow op' with
      attempt := some { a with stage := stage }
      task := task
      uploadCalls := calls } where
  workspace := hs.workspace
  rows := by
    refine .inr ⟨op', rfl, hours, fun a' ha' => ?_⟩
    obtain rfl := Option.some.inj ha'
    exact ⟨(hs.working hop ha).1.trans hid.symm, hstage⟩
  down := fun hdown => by simpa [ha] using hs.down hdown
  idle := fun _ h => by simp at h

omit [DecidableEq H] in
/-- A row that could be scheduled has no coroutine. -/
theorem Bound.unscheduled (hs : Bound cfg s) (hop : s.db.operations = [op])
    {target : Option Target} (hagain : op.status = .failed ∨ resumesCaptured op target = true) :
    s.attempt = none := by
  by_contra hne
  obtain ⟨a, ha⟩ := Option.ne_none_iff_exists'.mp hne
  obtain ⟨-, hstage⟩ := hs.working hop ha
  cases hst : a.stage <;> simp [hst, InStage] at hstage <;>
    simp [hstage, resumesCaptured] at hagain

omit [DecidableEq H] in
theorem Bound.endAttempt (hs : Bound cfg s) (hop : s.db.operations = [op]) {op' : PublishRecord H}
    (hours : Ours cfg op → Ours cfg op') : Bound cfg (s.endAttempt op') where
  workspace := hs.workspace
  rows := .inr ⟨op', rfl, hours (hs.ours hop), by simp [Publication.endAttempt]⟩
  down := fun _ => rfl
  idle := fun _ _ => rfl

/-- **A move keeps the table and the coroutine together.** -/
theorem Move.bound {action : PublishAction} (h : Move cfg sha256 s action s') (hs : Bound cfg s) :
    Bound cfg s' := by
  cases h with
  | created hempty hup hours hstatus hresult =>
    have htask : s.task = none := hs.idle hup (hs.attempt_none hempty)
    refine ⟨hs.workspace, .inr ⟨_, rfl, hours, fun a ha => ?_⟩, fun hdown => ?_, fun _ h => ?_⟩
    · obtain rfl := Option.some.inj ha
      exact ⟨rfl, hstatus, htask⟩
    · simp [Publication.setRow, hup] at hdown
    · simp at h
  | scheduled hop hup hagain =>
    have htask : s.task = none := hs.idle hup (hs.unscheduled hop hagain)
    refine ⟨hs.workspace, .inr ⟨_, rfl, (hs.ours hop).update .., fun a ha => ?_⟩, fun hdown => ?_,
      fun _ h => ?_⟩
    · obtain rfl := Option.some.inj ha
      exact ⟨rfl, rfl, htask⟩
    · simp [Publication.setRow, hup] at hdown
    · simp at h
  | joined hop hstatus hresume => exact hs
  | task htask hopen => exact hs.setTask htask _
  | startCapture hop ha hstage =>
    refine hs.setStage hop ha ?_ ?_ ?_ _
    · exact (hs.ours hop).update ..
    · rfl
    · exact ⟨rfl, rfl⟩
  | startUpload hop ha hstage htask htarget hagrees =>
    refine hs.setStage hop ha ?_ ?_ ?_ _
    · exact (hs.ours hop).update ..
    · rfl
    · exact ⟨rfl, rfl⟩
  | captureOnly hop ha hstage htask htarget => exact hs.endAttempt hop fun h => h.update ..
  | rebound hop ha hstage htask htarget hA hdiffers => exact hs.endAttempt hop fun h => h.update ..
  | taskFailed hop ha hstage htask => exact hs.endAttempt hop fun h => h.update ..
  | otherArtifact hop ha hstage htask hdiffers => exact hs.endAttempt hop fun h => h.update ..
  | succeeded hop ha hstage htask hsame => exact hs.endAttempt hop fun h => h.update ..
  | managerFail hop ha htask => exact hs.endAttempt hop fun h => h.update ..
  | idle hended hready => exact hs
  | taskFail htask hopen => exact hs.setTask htask _
  | crash hup =>
    refine ⟨hs.workspace, ?_, fun _ => rfl, fun h => by simp at h⟩
    exact hs.rows.imp (fun ⟨hempty, _⟩ => ⟨hempty, rfl⟩) fun ⟨op, hop, hours, _⟩ =>
      ⟨op, hop, hours, by simp⟩
  | restart hdown hcomplete =>
    have hnone := hs.down hdown
    refine ⟨hs.workspace, ?_, fun _ => hnone, fun _ _ => rfl⟩
    exact hs.rows.imp_right fun ⟨op, hop, hours, _⟩ => ⟨op, hop, hours, by simp [hnone]⟩
  | recovered hop hdown hincomplete =>
    have hnone := hs.down hdown
    exact ⟨hs.workspace, .inr ⟨_, rfl, (hs.ours hop).update .., by simp [Publication.setRow, hnone]⟩,
      fun _ => hnone, fun _ _ => rfl⟩
  | agentWrite => exact ⟨hs.workspace, hs.rows, hs.down, hs.idle⟩

omit [DecidableEq H] in
theorem bound_init (cfg : PublishRequest) (row : WorkspaceRecord) (file : Option Bytes) :
    Bound cfg (Publication.init (H := H) cfg row file) where
  workspace := by simp [Publication.init, Db.putWorkspace]
  rows := .inl ⟨rfl, rfl⟩
  down := fun _ => rfl
  idle := fun _ _ => rfl

theorem bound_run (hs : Bound cfg s) {actions : List PublishAction}
    (hrun : Machine.run (publishStep cfg sha256) s actions = some s') : Bound cfg s' :=
  Machine.run_keeps (fun _ _ _ hbound hstep => (publishStep_move hbound hstep).bound hbound) hrun hs

end Steps

end CodexGateway.Manager
