import CodexGateway.Manager.PublishMove
import CodexGateway.StorageOps.FirstCapture

/-!
# Manager/PublishRetry — what a retry of a publish comes to

The tasks keep the first capture until `upload-capture` removes the directory, and the row says
`succeeded` only a few steps later.  In between nothing but the coroutine knows that the publish is
done.  As long as nothing fails there, every body sent is the first capture, and once the Artifact
Service has committed it a retry that is left alone ends with the committed descriptor.
-/

namespace CodexGateway.Manager

open StorageOps Publication

variable {H : Type}

/-! ## The requests and the faults -/

/-- Every request is for the same Artifact, or for a capture only. -/
def SameArtifact (artifactId : String) : PublishAction → Prop
  | .request target _ _ => ∀ t ∈ target, t.artifactId = artifactId
  | _ => True

/-- Nothing fails while a directory is being removed that the row does not yet count as uploaded,
and a task that has outlived its Manager does not begin with it. -/
def RemovesInPeace (s : Publication H) : PublishAction → Prop
  | .taskFail _ _ | .managerFail _ _ | .crash => ∀ t ∈ s.task, t.removing = false
  | .go _ _ => s.attempt = none → ∀ t ∈ s.task, t.removes = false
  | _ => True

instance (s : Publication H) : ∀ action, Decidable (RemovesInPeace s action)
  | .taskFail _ _ | .managerFail _ _ | .crash =>
    inferInstanceAs (Decidable (∀ t ∈ s.task, t.removing = false))
  | .go _ _ => inferInstanceAs (Decidable (s.attempt = none → ∀ t ∈ s.task, t.removes = false))
  | .request _ _ _ | .restart _ | .agentWrite _ => .isTrue trivial

/-- Nothing fails. -/
def FaultFree : PublishAction → Bool
  | .request _ _ _ | .go _ _ | .agentWrite _ => true
  | _ => false

/-- How often a task or the coroutine goes on. -/
def gos : List PublishAction → ℕ
  | [] => 0
  | .go _ _ :: actions => gos actions + 1
  | _ :: actions => gos actions

/-! ## The invariant -/

section Safe

variable (sha256 : Bytes → H) (cfg : PublishRequest) (artifactId : String)

/-- The first capture is not needed any more, or is about to be. -/
def Publication.removed (s : Publication H) : Prop :=
  match s.task with
  | some t => t.removing = true
  | none => ∃ op ∈ s.row, op.status = .succeeded

/-- The coroutine waits for the task that it has started. -/
def AttemptStage.waitsFor (task : Option (Stage H)) : AttemptStage H → Prop
  | .start => True
  | .capturing => ∃ t, task = some t ∧ t.ofCapture = true
  | .uploading _ A => A = artifactId ∧ ∃ t, task = some t ∧ t.ofUpload = true

/-- A row that may be without a coroutine. -/
def OperationRecord.Resting {I R : Type} (op : OperationRecord I R) : Prop :=
  op.status = .failed ∨ op.status = .succeeded ∨ op.status = .running ∧ op.phase = some .captured

/-- The first capture is kept, and everything that names an Artifact names this one. -/
structure Safe (s : Publication H) : Prop where
  storage : s.storage.Kept sha256 cfg.taskInput artifactId s.removed
  task : ∀ t ∈ s.task, t.Sound sha256 cfg.taskInput artifactId s.storage
  down : s.up = false → ∀ t ∈ s.task, t.removing = false
  attempt : ∀ a ∈ s.attempt, (∀ t ∈ a.target, t.artifactId = artifactId) ∧
    (∀ B ∈ targetOf a.record, B = artifactId) ∧ a.stage.waitsFor artifactId s.task
  target : ∀ op, s.db.operations = [op] → ∀ B ∈ targetOf op, B = artifactId
  resting : s.up = true → s.attempt = none → ∀ op, s.db.operations = [op] → op.Resting
  succeeded : ∀ op, s.db.operations = [op] → op.status = .succeeded →
    s.task = none ∧ ∃ d, s.storage.artifacts artifactId = some d ∧
      op.result.bind PublishResult.artifact = some d

end Safe

section Removed

variable {s : Publication H} {op : PublishRecord H}

theorem removed_of_task {t : Stage H} (h : s.task = some t) :
    s.removed ↔ t.removing = true := by
  rw [Publication.removed, h]

theorem removed_of_idle (h : s.task = none) (hop : s.db.operations = [op]) :
    s.removed ↔ op.status = .succeeded := by
  rw [Publication.removed, h]
  simp [row, hop]

end Removed

section Moves

variable {sha256 : Bytes → H} {cfg : PublishRequest} {artifactId : String}
variable {s s' : Publication H} {op : PublishRecord H}

/-- A coroutine that has ended leaves its row. -/
theorem Safe.endAttempt (hs : Safe sha256 cfg artifactId s)
    (hremoved : s.removed → op.status = .succeeded) (htarget : ∀ B ∈ targetOf op, B = artifactId)
    (hresting : op.Resting)
    (hsucceeded : op.status = .succeeded → ∃ d, s.storage.artifacts artifactId = some d ∧
      op.result.bind PublishResult.artifact = some d) :
    Safe sha256 cfg artifactId (s.endAttempt op) where
  storage := hs.storage.mono fun h => (removed_of_idle rfl rfl).mpr (hremoved h)
  task := fun _ h => by cases h
  down := fun _ _ h => by cases h
  attempt := fun _ h => by cases h
  target := fun op' hop' => by
    obtain rfl := List.singleton_inj.mp hop'
    exact htarget
  resting := fun _ _ op' hop' => by
    obtain rfl := List.singleton_inj.mp hop'
    exact hresting
  succeeded := fun op' hop' hstatus => by
    obtain rfl := List.singleton_inj.mp hop'
    exact ⟨rfl, hsucceeded hstatus⟩

/-- A failed attempt leaves what was captured. -/
theorem Safe.failed (hs : Safe sha256 cfg artifactId s) {a : Attempt H} (ha : s.attempt = some a)
    (hthere : ¬ s.removed) (capture : Option (Manifest H)) (error : String) (now : ℤ) :
    Safe sha256 cfg artifactId (s.endAttempt (failedRow op a.target capture error now)) := by
  refine hs.endAttempt (fun h => (hthere h).elim) (fun B hB => ?_) (.inl rfl) fun h => ?_
  · rw [targetOf_failedRow] at hB
    obtain ⟨m, -, hB⟩ := Option.bind_eq_some_iff.mp hB
    obtain ⟨t, ht, rfl⟩ := Option.map_eq_some_iff.mp hB
    exact (hs.attempt a ha).1 t ht
  · cases h

/-- A coroutine has started. -/
theorem Safe.started (hs : Safe sha256 cfg artifactId s) (hup : s.up = true)
    (hthere : ¬ s.removed) (hstatus : op.status = .pending)
    (htarget : ∀ B ∈ targetOf op, B = artifactId) {target : Option Target}
    (hrequest : ∀ t ∈ target, t.artifactId = artifactId) :
    Safe sha256 cfg artifactId { s.setRow op with attempt := some ⟨op, target, .start⟩ } where
  storage := hs.storage.mono fun h => (hthere h).elim
  task := hs.task
  down := fun hdown => by simp [setRow, hup] at hdown
  attempt := by
    rintro a ⟨⟩
    exact ⟨hrequest, htarget, trivial⟩
  target := fun op' hop' => by
    obtain rfl := List.singleton_inj.mp hop'
    exact htarget
  resting := fun _ h => by cases h
  succeeded := fun op' hop' h => by
    obtain rfl := List.singleton_inj.mp hop'
    simp [hstatus] at h

theorem AttemptStage.waitsFor.task {stage : AttemptStage H} {t t' : Stage H}
    (h : stage.waitsFor artifactId (some t)) (hcapture : t.ofCapture = true → t'.ofCapture = true)
    (hupload : t.ofUpload = true → t'.ofUpload = true) :
    stage.waitsFor artifactId (some t') := by
  cases stage with
  | start => trivial
  | capturing =>
    obtain ⟨_, ⟨⟩, ht⟩ := h
    exact ⟨t', rfl, hcapture ht⟩
  | uploading m A =>
    obtain ⟨hA, _, ⟨⟩, ht⟩ := h
    exact ⟨hA, t', rfl, hupload ht⟩

/-- A task has gone on, or has failed. -/
theorem Safe.setTask (hs : Safe sha256 cfg artifactId s) (hbound : Bound cfg s) {t t' : Stage H}
    (htask : s.task = some t) {storage : Storage H}
    (hkept : storage.Kept sha256 cfg.taskInput artifactId (t'.removing = true))
    (hsound : t'.Sound sha256 cfg.taskInput artifactId storage)
    (hdown : s.up = false → t'.removing = false) (hcapture : t.ofCapture = true → t'.ofCapture = true)
    (hupload : t.ofUpload = true → t'.ofUpload = true) :
    Safe sha256 cfg artifactId { s with storage := storage, task := some t' } where
  storage := hkept
  task := by
    rintro t ⟨⟩
    exact hsound
  down := by
    rintro h t ⟨⟩
    exact hdown h
  attempt := fun a ha => by
    obtain ⟨htarget, hrecord, hwaits⟩ := hs.attempt a ha
    rw [htask] at hwaits
    exact ⟨htarget, hrecord, hwaits.task hcapture hupload⟩
  target := hs.target
  resting := fun hup hnone => by simpa [htask] using hbound.idle hup hnone
  succeeded := fun op hop hstatus => by simpa [htask] using (hs.succeeded op hop hstatus).1

/-- The coroutine has written a row that says `running`, and waits for a task that is no removal. -/
theorem Safe.waiting (hs : Safe sha256 cfg artifactId s) {a : Attempt H} (ha : s.attempt = some a)
    (hup : s.up = true) (hthere : ¬ s.removed) (hstatus : op.status = .running)
    (htarget : ∀ B ∈ targetOf op, B = artifactId) {stage : AttemptStage H} {t : Stage H}
    (hwaits : stage.waitsFor artifactId (some t))
    (hsound : t.Sound sha256 cfg.taskInput artifactId s.storage) (calls : List String) :
    Safe sha256 cfg artifactId { s.setRow op with
      attempt := some { a with stage := stage }
      task := some t
      uploadCalls := calls } where
  storage := hs.storage.mono fun h => (hthere h).elim
  task := by
    rintro t ⟨⟩
    exact hsound
  down := fun hdown => by simp [setRow, hup] at hdown
  attempt := by
    rintro a' ⟨⟩
    exact ⟨(hs.attempt a ha).1, (hs.attempt a ha).2.1, hwaits⟩
  target := fun op' hop' => by
    obtain rfl := List.singleton_inj.mp hop'
    exact htarget
  resting := fun _ h => by cases h
  succeeded := fun op' hop' h => by
    obtain rfl := List.singleton_inj.mp hop'
    simp [hstatus] at h

/-- An upload returns the Artifact it was for. -/
theorem Safe.uploaded_artifactId (hs : Safe sha256 cfg artifactId s) {a : Attempt H}
    (ha : s.attempt = some a) {m : Manifest H} {A : String} (hstage : a.stage = .uploading m A)
    {info : ArtifactInfo H} (htask : s.task = some (.uploaded info)) : info.artifactId = A := by
  obtain ⟨content, -, rfl⟩ := hs.storage.of_artifact (hs.task _ htask)
  have hwaits := (hs.attempt _ ha).2.2
  rw [hstage] at hwaits
  exact hwaits.1.symm

variable [DecidableEq H]

/-- **A move that disturbs no removal keeps the first capture.** -/
theorem Move.safe {action : PublishAction} (hbound : Bound cfg s)
    (hs : Safe sha256 cfg artifactId s) (hrequest : SameArtifact artifactId action)
    (hcond : RemovesInPeace s action) (h : Move cfg sha256 s action s') :
    Safe sha256 cfg artifactId s' := by
  have hup : ∀ {a}, s.attempt = some a → s.up = true := by
    intro a ha
    by_contra hdown
    simpa [ha] using hbound.down (by simpa using hdown)
  have hgone : ∀ {t : Stage H}, s.task = some t → t.removing = false → ¬ s.removed := by
    intro t ht hthere hremoved
    rw [removed_of_task ht, hthere] at hremoved
    cases hremoved
  have hworking : ∀ {op a t}, s.db.operations = [op] → s.attempt = some a → s.task = some t →
      op.status ≠ .succeeded := by
    intro op a t hop ha ht hstatus
    simp [(hs.succeeded op hop hstatus).1] at ht
  cases h with
  | created hempty hup hours hstatus hresult =>
    have hidle : s.task = none := hbound.idle hup (hbound.attempt_none hempty)
    refine hs.started hup (fun hremoved => ?_) hstatus (by simp [targetOf, hresult]) hrequest
    simp [Publication.removed, hidle, row, hempty] at hremoved
  | scheduled hop hup hagain =>
    have hidle : s.task = none := hbound.idle hup (hbound.unscheduled hop hagain)
    have htarget := hs.target _ hop
    refine hs.started hup (fun hremoved => ?_) ?_ ?_ hrequest
    · rw [removed_of_idle hidle hop] at hremoved
      simp [hremoved, resumesCaptured] at hagain
    · rfl
    · exact htarget
  | joined hop hstatus hresume => exact hs
  | task htask hopen =>
    rename_i contentFirst now stage
    have hstorage := hs.storage.mono (removed_of_task htask).mp
    obtain ⟨hkept, hsound⟩ := taskStep_kept hstorage (hs.task _ htask) contentFirst
    obtain ⟨hcapture, hupload⟩ := taskStep_of sha256 cfg.taskInput s.storage stage contentFirst
    refine hs.setTask hbound htask hkept hsound (fun hdown => ?_) hcapture hupload
    have hremoves := hcond (hbound.down hdown) stage htask
    exact taskStep_removing (hs.down hdown stage htask) hremoves contentFirst
  | startCapture hop ha hstage =>
    rename_i contentFirst now op a
    have hstart := (hbound.working hop ha).2
    rw [hstage] at hstart
    refine hs.waiting ha (hup ha) (fun hremoved => ?_) ?_ (fun B hB => ?_) ?_ ?_ _
    · rw [removed_of_idle hstart.2 hop, hstart.1] at hremoved
      cases hremoved
    · rfl
    · rw [targetOf_startCapture] at hB
      cases hB
    · exact ⟨_, rfl, rfl⟩
    · trivial
  | startUpload hop ha hstage htask htarget hagrees =>
    rename_i contentFirst now op a m t
    have ht : t.artifactId = artifactId := (hs.attempt a ha).1 t htarget
    refine hs.waiting ha (hup ha) (hgone htask rfl) ?_ (fun B hB => ?_) ?_ ?_ _
    · rfl
    · exact (Option.some.inj hB).symm.trans ht
    · exact ⟨ht, _, rfl, rfl⟩
    · exact ht
  | captureOnly hop ha hstage htask htarget =>
    exact hs.endAttempt (fun h => (hgone htask rfl h).elim) (fun B hB => by cases hB)
      (.inr (.inr ⟨rfl, rfl⟩)) fun h => by cases h
  | rebound hop ha hstage htask htarget hA hdiffers => exact hs.failed ha (hgone htask rfl) _ _ _
  | taskFailed hop ha hstage htask => exact hs.failed ha (hgone htask rfl) _ _ _
  | otherArtifact hop ha hstage htask hdiffers =>
    exact absurd (hs.uploaded_artifactId ha hstage htask) hdiffers
  | succeeded hop ha hstage htask hinfo =>
    have hwaits := (hs.attempt _ ha).2.2
    rw [hstage] at hwaits
    refine hs.endAttempt (fun _ => rfl) (fun B hB => ?_) (.inr (.inl rfl)) fun _ => ?_
    · exact (Option.some.inj hB).symm.trans hwaits.1
    · exact ⟨_, hs.task _ htask, rfl⟩
  | idle hended hready => exact hs
  | taskFail htask hopen =>
    rename_i applied error stage
    have hstorage := hs.storage.mono (removed_of_task htask).mp
    obtain ⟨hkept, hfailed⟩ := taskFail_kept hstorage (hs.task _ htask) (hcond stage htask) applied
      error
    rw [hfailed]
    exact hs.setTask hbound htask (hkept.mono fun h => h.elim) trivial (fun _ => rfl) (fun _ => rfl)
      fun _ => rfl
  | managerFail hop ha htask =>
    obtain ⟨t, ht⟩ := Option.isSome_iff_exists.mp htask
    exact hs.failed ha (hgone ht (hcond t ht)) _ _ _
  | crash hup =>
    exact ⟨hs.storage, hs.task, fun _ => hcond, fun _ h => (by cases h), hs.target,
      fun h => (by cases h), hs.succeeded⟩
  | restart hdown hcomplete =>
    have hnone := hbound.down hdown
    refine ⟨hs.storage.mono fun hremoved => ?_, fun _ h => (by cases h), fun h => (by cases h),
      fun _ h => ?_, hs.target, fun _ _ op hop => ?_, fun op hop hstatus => ?_⟩
    · cases htask : s.task with
      | none =>
        rw [Publication.removed, htask] at hremoved
        exact hremoved
      | some t => exact (hgone htask (hs.down hdown t htask) hremoved).elim
    · simp [hnone] at h
    · obtain ⟨hpending, hrunning⟩ := hcomplete op hop
      cases hstatus : op.status with
      | pending => exact absurd hstatus hpending
      | running => exact absurd hstatus hrunning
      | succeeded => exact .inr (.inl hstatus)
      | failed => exact .inl hstatus
    · exact ⟨rfl, (hs.succeeded op hop hstatus).2⟩
  | recovered hop hdown hincomplete =>
    rename_i now op phase error
    have hnone := hbound.down hdown
    refine ⟨hs.storage.mono fun hremoved => ?_, fun _ h => (by cases h), fun h => (by cases h),
      fun _ h => ?_, fun op' hop' => ?_, fun _ _ op' hop' => ?_, fun op' hop' hstatus => ?_⟩
    · cases htask : s.task with
      | none =>
        rw [removed_of_idle htask hop] at hremoved
        simp [hremoved] at hincomplete
      | some t => exact (hgone htask (hs.down hdown t htask) hremoved).elim
    · simp [setRow, hnone] at h
    · obtain rfl := List.singleton_inj.mp hop'
      exact hs.target op hop
    · obtain rfl := List.singleton_inj.mp hop'
      exact .inl rfl
    · obtain rfl := List.singleton_inj.mp hop'
      cases hstatus
  | agentWrite =>
    refine ⟨hs.storage.frame rfl rfl rfl rfl (.inr rfl), fun t ht => ?_, hs.down, hs.attempt,
      hs.target, hs.resting, hs.succeeded⟩
    have hsound := hs.task t ht
    cases t <;> exact hsound

end Moves

/-! ## A retry that is left alone -/

section Retry

variable {sha256 : Bytes → H} {cfg : PublishRequest} {artifactId : String}
variable {s s' : Publication H} {op : PublishRecord H}

/-- How far the coroutine is from its success. -/
def AttemptStage.left (task : Option (Stage H)) : AttemptStage H → Option ℕ
  | .start => some 10
  | _ => task.bind Stage.left

/-- The publish is done, or a coroutine is at most `n` steps from its success. -/
structure OnCourse (sha256 : Bytes → H) (cfg : PublishRequest) (artifactId : String)
    (d : ArtifactInfo H) (n : ℕ) (s : Publication H) : Prop where
  bound : Bound cfg s
  safe : Safe sha256 cfg artifactId s
  up : s.up = true
  artifact : s.storage.artifacts artifactId = some d
  course : (∃ op, s.db.operations = [op] ∧ op.status = .succeeded) ∨
    ∃ a k, s.attempt = some a ∧ a.target.isSome ∧ a.stage.left s.task = some k ∧ k ≤ n

theorem Stage.left_pos {t : Stage H} : t.left ≠ some 0 := by
  cases t <;> simp [Stage.left]

theorem OnCourse.zero {d : ArtifactInfo H} (h : OnCourse sha256 cfg artifactId d 0 s) :
    ∃ op, s.db.operations = [op] ∧ op.status = .succeeded := by
  refine h.course.resolve_right ?_
  rintro ⟨a, k, ha, -, hk, hk0⟩
  obtain rfl := Nat.le_zero.mp hk0
  cases hstage : a.stage with
  | start => simp [hstage, AttemptStage.left] at hk
  | _ =>
    rw [hstage] at hk
    obtain ⟨t, -, ht⟩ := Option.bind_eq_some_iff.mp hk
    exact Stage.left_pos ht

theorem left_of_task {stage : AttemptStage H} {task : Option (Stage H)} {t : Stage H}
    (hstart : stage ≠ .start) (htask : task = some t) : stage.left task = t.left := by
  subst htask
  cases stage with
  | start => exact absurd rfl hstart
  | _ => rfl

/-- A coroutine whose task has ended, and that is on its way, goes on. -/
theorem ready_of_left {a : Attempt H} {task : Option (Stage H)} {k : ℕ}
    (hk : a.stage.left task = some k) (hended : ∀ t ∈ task, t.ended = true)
    (hwaits : a.stage.waitsFor artifactId task) : a.ready task = true := by
  cases hstage : a.stage with
  | start => simp [Attempt.ready, hstage]
  | capturing =>
    rw [hstage] at hwaits hk
    obtain ⟨t, rfl, ht⟩ := hwaits
    have htleft : t.left = some k := hk
    have htended := hended t rfl
    cases t with
    | captured m => simp [Attempt.ready, hstage]
    | uploaded info => cases ht
    | failed e => cases htleft
    | _ => cases htended
  | uploading m A =>
    rw [hstage] at hwaits hk
    obtain ⟨-, t, rfl, ht⟩ := hwaits
    have htleft : t.left = some k := hk
    have htended := hended t rfl
    cases t with
    | uploaded info => simp [Attempt.ready, hstage]
    | captured m => cases ht
    | failed e => cases htleft
    | _ => cases htended

/-- Nothing that is done has a coroutine. -/
theorem Bound.not_succeeded (hs : Bound cfg s) (hop : s.db.operations = [op]) {a : Attempt H}
    (ha : s.attempt = some a) : op.status ≠ .succeeded := by
  intro hstatus
  obtain ⟨-, hstage⟩ := hs.working hop ha
  cases hst : a.stage <;> simp [hst, InStage, hstatus] at hstage

variable [DecidableEq H]

/-- **A step without a fault brings a retry nearer to its success**, unless it is there. -/
theorem OnCourse.move {d : ArtifactInfo H} {n : ℕ} {action : PublishAction}
    (hs : OnCourse sha256 cfg artifactId d n s) (hrequest : SameArtifact artifactId action)
    (hfree : FaultFree action = true) (h : Move cfg sha256 s action s') :
    OnCourse sha256 cfg artifactId d (n - gos [action]) s' := by
  have hcond : RemovesInPeace s action := by
    cases action with
    | go contentFirst now =>
      intro hnone t ht
      simp [hs.bound.idle hs.up hnone] at ht
    | request | agentWrite => trivial
    | _ => cases hfree
  have hbound := h.bound hs.bound
  have hsafe := h.safe hs.bound hs.safe hrequest hcond
  have hcourse : ∀ {a}, s.attempt = some a →
      ∃ k, a.target.isSome ∧ a.stage.left s.task = some k ∧ k ≤ n := by
    intro a ha
    rcases hs.course with ⟨op, hop, hstatus⟩ | ⟨a', k, ha', hk⟩
    · exact absurd hstatus (hs.bound.not_succeeded hop ha)
    · obtain rfl := Option.some.inj (ha.symm.trans ha')
      exact ⟨k, hk⟩
  cases h with
  | created hempty hup hours hstatus hresult =>
    rcases hs.course with ⟨op, hop, -⟩ | ⟨a, k, ha, -⟩
    · simp [hempty] at hop
    · simp [hs.bound.attempt_none hempty] at ha
  | scheduled hop hup hagain =>
    rcases hs.course with ⟨op, hop', hstatus⟩ | ⟨a, k, ha, -⟩
    · obtain rfl := List.singleton_inj.mp (hop.symm.trans hop')
      simp [hstatus, resumesCaptured] at hagain
    · simp [hs.bound.unscheduled hop hagain] at ha
  | joined hop hstatus hresume => exact hs
  | agentWrite => exact ⟨hbound, hsafe, hs.up, hs.artifact, hs.course⟩
  | idle hended hready =>
    refine ⟨hbound, hsafe, hs.up, hs.artifact, hs.course.imp_right ?_⟩
    rintro ⟨a, k, ha, -, hk, -⟩
    have hgoes := ready_of_left hk hended (hs.safe.attempt a ha).2.2
    rw [hready a ha] at hgoes
    cases hgoes
  | task htask hopen =>
    rename_i contentFirst now stage
    refine ⟨hbound, hsafe, hs.up, taskStep_artifacts contentFirst hs.artifact, ?_⟩
    refine hs.course.imp (fun h => h) ?_
    rintro ⟨a, k, ha, htarget, hk, hkn⟩
    have hstart : a.stage ≠ .start := by
      intro hstart
      obtain ⟨op, hop, -⟩ := hs.bound.stored ha
      have hstage := (hs.bound.working hop ha).2
      rw [hstart] at hstage
      simp [hstage.2] at htask
    rw [left_of_task hstart htask] at hk
    refine ⟨a, k - 1, ha, htarget, ?_, Nat.sub_le_sub_right hkn 1⟩
    rw [left_of_task hstart rfl, taskStep_left (hs.safe.storage.mono (removed_of_task htask).mp)
      (hs.safe.task _ htask) hs.artifact (by simp [hk]) hopen, hk]
    rfl
  | startCapture hop ha hstage =>
    obtain ⟨k, htarget, hk, hkn⟩ := hcourse ha
    rw [hstage] at hk
    obtain rfl := Option.some.inj hk
    exact ⟨hbound, hsafe, hs.up, hs.artifact,
      .inr ⟨_, 9, rfl, htarget, rfl, Nat.sub_le_sub_right hkn 1⟩⟩
  | startUpload hop ha hstage htask htarget hagrees =>
    obtain ⟨k, -, hk, hkn⟩ := hcourse ha
    rw [left_of_task (by simp [hstage]) htask] at hk
    obtain rfl := Option.some.inj hk
    exact ⟨hbound, hsafe, hs.up, hs.artifact,
      .inr ⟨_, 7, rfl, by simp [htarget], rfl, Nat.sub_le_sub_right hkn 1⟩⟩
  | captureOnly hop ha hstage htask htarget =>
    obtain ⟨k, hsome, -⟩ := hcourse ha
    simp [htarget] at hsome
  | rebound hop ha hstage htask htarget hA hdiffers =>
    obtain ⟨hsame, hrecord, -⟩ := hs.safe.attempt _ ha
    exact absurd ((hrecord _ hA).trans (hsame _ htarget).symm) hdiffers
  | taskFailed hop ha hstage htask =>
    obtain ⟨k, -, hk, -⟩ := hcourse ha
    rw [left_of_task hstage htask] at hk
    cases hk
  | otherArtifact hop ha hstage htask hdiffers =>
    exact absurd (hs.safe.uploaded_artifactId ha hstage htask) hdiffers
  | succeeded hop ha hstage htask hinfo =>
    exact ⟨hbound, hsafe, hs.up, hs.artifact, .inl ⟨_, rfl, rfl⟩⟩
  | taskFail | managerFail | crash | restart | recovered => cases hfree

variable (sha256) in
/-- A step without a fault can be taken. -/
theorem publishStep_faultFree {action : PublishAction} (hs : Bound cfg s) (hup : s.up = true)
    (hfree : FaultFree action = true) : ∃ s', publishStep cfg sha256 s action = some s' := by
  cases action with
  | request target token now =>
    obtain ⟨s', hs', -⟩ := requestPublish_move sha256 hs hup target token now
    exact ⟨s', by rw [publishStep, if_pos hup, hs']⟩
  | go | agentWrite => exact ⟨_, rfl⟩
  | _ => cases hfree

theorem gos_cons (action : PublishAction) (actions : List PublishAction) :
    gos (action :: actions) = gos [action] + gos actions := by
  cases action <;> simp [gos, Nat.add_comm]

/-- **A retry that is left alone comes to its success.** -/
theorem OnCourse.run {d : ArtifactInfo H} {n : ℕ} {actions : List PublishAction}
    (hs : OnCourse sha256 cfg artifactId d n s)
    (hactions : ∀ action ∈ actions, SameArtifact artifactId action ∧ FaultFree action = true) :
    ∃ w, Machine.run (publishStep cfg sha256) s actions = some w ∧
      OnCourse sha256 cfg artifactId d (n - gos actions) w := by
  induction actions generalizing n s with
  | nil => exact ⟨s, rfl, hs⟩
  | cons action actions ih =>
    obtain ⟨hrequest, hfree⟩ := hactions action List.mem_cons_self
    obtain ⟨m, hm⟩ := publishStep_faultFree sha256 hs.bound hs.up hfree
    have hmove := publishStep_move hs.bound hm
    obtain ⟨w, hw, hcourse⟩ := ih (hs.move hrequest hfree hmove) fun action h =>
      hactions action (List.mem_cons_of_mem _ h)
    rw [Nat.sub_sub, ← gos_cons] at hcourse
    exact ⟨w, Machine.run_cons.mpr ⟨m, hm, hw⟩, hcourse⟩

/-- A request starts a retry where none is at work. -/
theorem Move.retry {d : ArtifactInfo H} {t : Target} {token : String} {now : ℤ}
    (hbound : Bound cfg s) (hs : Safe sha256 cfg artifactId s) (hup : s.up = true)
    (hidle : s.attempt = none) (hd : s.storage.artifacts artifactId = some d)
    (ht : t.artifactId = artifactId) (h : Move cfg sha256 s (.request (some t) token now) s') :
    OnCourse sha256 cfg artifactId d 10 s' := by
  have hbound' := h.bound hbound
  have hrequest : SameArtifact artifactId (.request (some t) token now) := by
    simpa [SameArtifact] using ht
  have hs' := h.safe hbound hs hrequest trivial
  cases h with
  | created hempty hup' hours hstatus hresult =>
    exact ⟨hbound', hs', hup, hd, .inr ⟨_, 10, rfl, rfl, rfl, Nat.le_refl _⟩⟩
  | scheduled hop hup' hagain =>
    exact ⟨hbound', hs', hup, hd, .inr ⟨_, 10, rfl, rfl, rfl, Nat.le_refl _⟩⟩
  | joined hop hstatus hresume =>
    refine ⟨hbound, hs, hup, hd, .inl ⟨_, hop, ?_⟩⟩
    rcases hs.resting hup hidle _ hop with hfailed | hsucceeded | ⟨hrunning, hphase⟩
    · exact absurd hfailed hstatus
    · exact hsucceeded
    · simp [resumesCaptured, hrunning, hphase] at hresume

/-- The descriptor of an Artifact that is committed stays. -/
theorem Move.artifacts {action : PublishAction} {d : ArtifactInfo H}
    (hd : s.storage.artifacts artifactId = some d) (h : Move cfg sha256 s action s') :
    s'.storage.artifacts artifactId = some d := by
  cases h with
  | task htask hopen => exact taskStep_artifacts _ hd
  | taskFail htask hopen => exact taskFail_artifacts _ _ hd
  | _ => exact hd

omit [DecidableEq H] in
theorem safe_init (row : WorkspaceRecord) (file : Option Bytes) :
    Safe sha256 cfg artifactId (Publication.init cfg row file) where
  storage := .fresh rfl rfl rfl rfl
  task := fun _ h => by cases h
  down := fun h => by cases h
  attempt := fun _ h => by cases h
  target := fun _ h => by cases h
  resting := fun _ _ _ h => by cases h
  succeeded := fun _ h => by cases h

end Retry

/-- A retry by which nothing fails succeeds with the descriptor. -/
def RetrySucceeds [DecidableEq H] (sha256 : Bytes → H) (cfg : PublishRequest) (artifactId : String)
    (d : ArtifactInfo H) (s : Publication H) : Prop :=
  ∀ t token now actions, t.artifactId = artifactId →
    (∀ action ∈ actions, SameArtifact artifactId action ∧ FaultFree action = true) →
    10 ≤ gos actions →
      ∃ w op, Machine.run (publishStep cfg sha256) s (.request (some t) token now :: actions) =
          some w ∧
        w.row = some op ∧ op.status = .succeeded ∧ op.result.bind PublishResult.artifact = some d

/-- **In every run that removes a directory in peace, all that is uploaded is the first capture, and
once its Artifact is committed every retry without a fault succeeds with the same descriptor.** -/
theorem retries_converge [DecidableEq H] (sha256 : Bytes → H) (cfg : PublishRequest)
    (artifactId : String) (row : WorkspaceRecord) (file : Option Bytes)
    (xs ys : List PublishAction) (v w : Publication H)
    (hrequests : ∀ action ∈ xs ++ ys, SameArtifact artifactId action)
    (hmeets : Machine.Meets (publishStep cfg sha256) RemovesInPeace (Publication.init cfg row file)
      (xs ++ ys))
    (hxs : Machine.run (publishStep cfg sha256) (Publication.init cfg row file) xs = some v)
    (hys : Machine.run (publishStep cfg sha256) v ys = some w) :
    (∀ body ∈ w.storage.uploads, w.storage.captures.head? = some body) ∧
      ∀ d, v.storage.artifacts artifactId = some d → w.up = true → w.attempt = none →
        RetrySucceeds sha256 cfg artifactId d w := by
  have hv : Bound cfg v := bound_run (bound_init cfg row file) hxs
  have hw : Bound cfg w := bound_run hv hys
  have hstep : ∀ s action s', (RemovesInPeace s action ∧ SameArtifact artifactId action) →
      Bound cfg s ∧ Safe sha256 cfg artifactId s → publishStep cfg sha256 s action = some s' →
        Bound cfg s' ∧ Safe sha256 cfg artifactId s' := by
    rintro s action s' ⟨hcond, hrequest⟩ ⟨hbound, hsafe⟩ h
    have hmove := publishStep_move hbound h
    exact ⟨hmove.bound hbound, hmove.safe hbound hsafe hrequest hcond⟩
  have hrun : Machine.run (publishStep cfg sha256) (Publication.init cfg row file) (xs ++ ys) =
      some w := by
    rw [Machine.run_append, hxs]
    exact hys
  obtain ⟨-, hsafe⟩ := Machine.run_invariant hstep
    (hmeets.and (Machine.meets_of_forall _ hrequests)) hrun
    ⟨bound_init cfg row file, safe_init row file⟩
  refine ⟨fun body hbody => ?_, fun d hd hup hidle t token now actions ht hactions hgos => ?_⟩
  · cases hsafe.storage with
    | fresh captures uploads => simp [uploads] at hbody
    | captured content captures allowed uploads => simp [captures, uploads body hbody]
  · have hkeeps : ∀ s action s', (Bound cfg s ∧ s.storage.artifacts artifactId = some d) →
        publishStep cfg sha256 s action = some s' →
          Bound cfg s' ∧ s'.storage.artifacts artifactId = some d := by
      rintro s action s' ⟨hbound, hd⟩ h
      have hmove := publishStep_move hbound h
      exact ⟨hmove.bound hbound, hmove.artifacts hd⟩
    have hd' := Machine.run_keeps hkeeps hys ⟨hv, hd⟩
    obtain ⟨m, hm⟩ := publishStep_faultFree sha256 hw hup
      (show FaultFree (.request (some t) token now) = true from rfl)
    have hcourse := (publishStep_move hw hm).retry hw hsafe hup hidle hd'.2 ht
    obtain ⟨z, hz, hend⟩ := hcourse.run hactions
    rw [Nat.sub_eq_zero_of_le hgos] at hend
    obtain ⟨op, hop, hstatus⟩ := hend.zero
    obtain ⟨-, d', hd', hresult⟩ := hend.safe.succeeded op hop hstatus
    obtain rfl := Option.some.inj (hend.artifact.symm.trans hd')
    exact ⟨z, op, Machine.run_cons.mpr ⟨m, hm, hz⟩, by simp [Publication.row, hop], hstatus, hresult⟩

/-- The Artifact is committed, and its upload not yet checked. -/
def committedRun : List PublishAction :=
  .request (some (sampleTarget "A")) "1" 0 :: .replicate 11 (.go true 0)

/-- The Manager dies before the directory goes, and the source is deleted. -/
theorem retries_converge_crash : ∃ w, Machine.run (publishStep sampleRequest List.length)
      (Publication.init sampleRequest sampleRow (some [1, 2]))
      (committedRun ++ [.crash, .restart 0, .agentWrite none]) = some w ∧
    RetrySucceeds List.length sampleRequest "A" ⟨"A", 2, 2⟩ w := by
  have hfirst : ((Machine.run (publishStep sampleRequest List.length)
      (Publication.init sampleRequest sampleRow (some [1, 2])) committedRun).bind fun v =>
        (Machine.run (publishStep sampleRequest List.length) v
          [.crash, .restart 0, .agentWrite none]).map fun w =>
            (v.storage.artifacts "A", w.up, w.attempt.isNone)) =
      some (some ⟨"A", 2, 2⟩, true, true) := by decide +kernel
  obtain ⟨v, hv, hrest⟩ := Option.bind_eq_some_iff.mp hfirst
  obtain ⟨w, hw, hstate⟩ := Option.map_eq_some_iff.mp hrest
  obtain ⟨hd, hup, hidle⟩ : _ ∧ _ ∧ _ := by simpa using hstate
  have hrequests : ∀ action ∈ committedRun ++ [.crash, .restart 0, .agentWrite none],
      SameArtifact "A" action := by simp [committedRun, SameArtifact, sampleTarget]
  refine ⟨w, by rw [Machine.run_append, hv]; exact hw, ?_⟩
  exact (retries_converge List.length sampleRequest "A" sampleRow (some [1, 2]) committedRun _ v w
    hrequests (by decide +kernel) hv hw).2 _ hd hup (by simpa using hidle)

/-- The Manager dies when the copy is gone, and the source has been deleted. -/
theorem retries_converge_removed : ¬ ∀ (xs ys : List PublishAction) (v w : Publication ℕ),
    (∀ action ∈ xs ++ ys, SameArtifact "A" action) →
    Machine.run (publishStep sampleRequest List.length)
      (Publication.init sampleRequest sampleRow (some [1, 2])) xs = some v →
    Machine.run (publishStep sampleRequest List.length) v ys = some w →
      ∀ d, v.storage.artifacts "A" = some d → w.up = true → w.attempt = none →
        RetrySucceeds List.length sampleRequest "A" d w := by
  intro h
  have hlost : ((Machine.run (publishStep sampleRequest List.length)
      (Publication.init sampleRequest sampleRow (some [1, 2])) committedRun).bind fun v =>
        (Machine.run (publishStep sampleRequest List.length) v
          [.go true 0, .go true 0, .crash, .restart 0, .agentWrite none]).bind fun w =>
            (Machine.run (publishStep sampleRequest List.length) w
              (.request (some (sampleTarget "A")) "2" 0 :: .replicate 10 (.go true 0))).map fun z =>
                ((v.storage.artifacts "A").isSome, w.up, w.attempt.isNone,
                  z.row.map OperationRecord.status)) =
      some (true, true, true, some .failed) := by decide +kernel
  obtain ⟨v, hv, hrest⟩ := Option.bind_eq_some_iff.mp hlost
  obtain ⟨w, hw, hrest⟩ := Option.bind_eq_some_iff.mp hrest
  obtain ⟨z, hz, hstate⟩ := Option.map_eq_some_iff.mp hrest
  obtain ⟨hd, hup, hidle, hfailed⟩ : _ ∧ _ ∧ _ ∧ _ := by simpa using hstate
  obtain ⟨d, hd⟩ := Option.isSome_iff_exists.mp (by simpa using hd)
  obtain ⟨z', op, hz', hop, hstatus, -⟩ := h committedRun _ v w
    (by simp [committedRun, SameArtifact, sampleTarget]) hv hw d hd hup (by simpa using hidle)
    (sampleTarget "A") "2" 0 (.replicate 10 (.go true 0)) rfl
    (by simp [SameArtifact, FaultFree]) (by decide)
  obtain rfl := Option.some.inj (hz.symm.trans hz')
  simp [hop, hstatus] at hfailed

end CodexGateway.Manager
