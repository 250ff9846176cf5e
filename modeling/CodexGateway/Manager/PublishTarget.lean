import CodexGateway.Manager.PublishMove

/-!
# Manager/PublishTarget — how long a publish keeps the Artifact it is bound to

The target in the row guards the upload, but the update that starts a capture leaves it out, and the
update of a failed attempt puts the target of the failed request in its place.  So the row keeps its
target exactly as long as no further attempt starts.  What a coroutine was given stands in for the
row while it captures; that much is kept if every request that starts an attempt names the target
and no Manager dies in the meantime.
-/

namespace CodexGateway.Manager

open StorageOps Publication

variable {H : Type}

/-! ## The recorded and the held target -/

/-- `target_artifact_id` in the row. -/
def Publication.recordedTarget (s : Publication H) : Option String := s.row.bind targetOf

/-- …or else in the record that the coroutine was given. -/
def Publication.heldTarget (s : Publication H) : Option String :=
  s.recordedTarget.or (s.attempt.bind fun a => targetOf a.record)

/-- An attempt that starts its capture finds no target in the row. -/
def StartsUnbound (s : Publication H) : PublishAction → Prop
  | .go _ _ => ∀ a ∈ s.attempt, a.stage = .start → s.recordedTarget = none
  | _ => True

/-- A request that starts an attempt names the target in the row, and the Manager does not die while
only its coroutine knows the target. -/
def NamesTarget (s : Publication H) : PublishAction → Prop
  | .request target _ _ => ∀ op ∈ s.row,
    op.status = .failed ∨ resumesCaptured op target = true →
      ∀ A ∈ targetOf op, target.map Target.artifactId = some A
  | .crash => s.heldTarget = s.recordedTarget
  | _ => True

section Targets

variable {s : Publication H} {op : PublishRecord H}

theorem recordedTarget_of (hop : s.db.operations = [op]) : s.recordedTarget = targetOf op := by
  simp [recordedTarget, row, hop]

/-- Every `upload_capture` so far was for the one target. -/
def CalledFor (target : Option String) (calls : List String) : Prop :=
  ∀ B ∈ calls, target = some B

/-- A target that is there stays. -/
def Stays (target target' : Option String) : Prop := ∀ A, target = some A → target' = some A

theorem Stays.of_none {target : Option String} : Stays none target := fun _ h => by cases h

theorem Stays.of_eq {target target' : Option String} (h : target' = target) :
    Stays target target' := fun _ hA => h.trans hA

theorem CalledFor.stays {target target' : Option String} {calls : List String}
    (h : CalledFor target calls) (hstays : Stays target target') : CalledFor target' calls :=
  fun B hB => hstays B (h B hB)

theorem CalledFor.append {target : Option String} {calls : List String} {A : String}
    (h : CalledFor target calls) (hA : target = some A) : CalledFor target (calls ++ [A]) := by
  intro B hB
  rcases List.mem_append.mp hB with hB | hB
  · exact h B hB
  · obtain rfl := List.mem_singleton.mp hB
    exact hA

end Targets

/-! ## The recorded target -/

section Recorded

variable {s s' : Publication H}

/-- The invariant of the recorded target. -/
structure RecordedOk (s : Publication H) : Prop where
  calls : CalledFor s.recordedTarget s.uploadCalls
  capturing : ∀ a ∈ s.attempt, a.stage = .capturing → s.recordedTarget = none
  uploading : ∀ a ∈ s.attempt, ∀ m A, a.stage = .uploading m A →
    s.recordedTarget = some A ∧ a.target.map Target.artifactId = some A

/-- What a move does to the recorded target. -/
def RecordedNext (s s' : Publication H) : Prop :=
  RecordedOk s' ∧ Stays s.recordedTarget s'.recordedTarget

/-- A coroutine that has ended leaves its row. -/
theorem RecordedOk.endAttempt (hs : RecordedOk s) {op : PublishRecord H}
    (hstays : Stays s.recordedTarget (targetOf op)) : RecordedNext s (s.endAttempt op) :=
  ⟨⟨hs.calls.stays hstays, fun _ h => (by cases h), fun _ h => (by cases h)⟩, hstays⟩

/-- A failed attempt writes its own target, which is the recorded one unless none is. -/
theorem RecordedOk.failed (hs : RecordedOk s) {op : PublishRecord H} {a : Attempt H}
    (ha : s.attempt = some a) (hstage : a.stage ≠ .start) (error : String) (now : ℤ) :
    RecordedNext s (s.endAttempt (failedRow op a.target (boundCapture a) error now)) := by
  refine hs.endAttempt ?_
  cases hst : a.stage with
  | start => exact absurd hst hstage
  | capturing =>
    rw [hs.capturing a ha hst]
    exact .of_none
  | uploading m B =>
    obtain ⟨hB, htarget⟩ := hs.uploading a ha m B hst
    refine .of_eq ?_
    rw [targetOf_failedRow, htarget, hB]
    simp [boundCapture, hst]

variable [DecidableEq H] {cfg : PublishRequest} {sha256 : Bytes → H}

/-- **As long as no attempt starts on a row with a target, the row keeps its target.** -/
theorem Move.recorded {action : PublishAction} (hbound : Bound cfg s) (hs : RecordedOk s)
    (hcond : StartsUnbound s action) (h : Move cfg sha256 s action s') : RecordedNext s s' := by
  have hsame : ∀ {t : Publication H}, t.recordedTarget = s.recordedTarget →
      t.attempt = s.attempt → t.uploadCalls = s.uploadCalls → RecordedNext s t := by
    intro t htarget hattempt hcalls
    refine ⟨⟨?_, ?_, ?_⟩, .of_eq htarget⟩
    · rw [htarget, hcalls]
      exact hs.calls
    · rw [htarget, hattempt]
      exact hs.capturing
    · rw [htarget, hattempt]
      exact hs.uploading
  have hstart : ∀ {op : PublishRecord H} {target : Option Target},
      Stays s.recordedTarget (targetOf op) →
        RecordedNext s { s.setRow op with attempt := some ⟨op, target, .start⟩ } := by
    intro op target hstays
    refine ⟨⟨hs.calls.stays hstays, ?_, ?_⟩, hstays⟩
    · rintro a ⟨⟩ hst
      cases hst
    · rintro a ⟨⟩ m A hst
      cases hst
  cases h with
  | created hempty hup hours hstatus hresult =>
    have hnone : s.recordedTarget = none := by simp [recordedTarget, row, hempty]
    exact hstart (by rw [hnone]; exact .of_none)
  | scheduled hop hup hagain => exact hstart (.of_eq (recordedTarget_of hop).symm)
  | startCapture hop ha hstage =>
    rename_i contentFirst now op a
    have hstays : ∀ target, Stays s.recordedTarget target := fun target => by
      rw [hcond a ha hstage]
      exact .of_none
    refine ⟨⟨hs.calls.stays (hstays _), fun _ _ _ => targetOf_startCapture .., ?_⟩, hstays _⟩
    rintro b ⟨⟩ m A hst
    cases hst
  | startUpload hop ha hstage htask htarget hagrees =>
    rename_i contentFirst now op a m t
    have hstays : Stays s.recordedTarget (some t.artifactId) := by
      rw [hs.capturing a ha hstage]
      exact .of_none
    refine ⟨⟨(hs.calls.stays hstays).append rfl, ?_, ?_⟩, hstays⟩
    · rintro b ⟨⟩ hst
      cases hst
    · rintro b ⟨⟩ m' A hst
      obtain ⟨-, rfl⟩ := AttemptStage.uploading.inj hst
      exact ⟨rfl, by simp [htarget]⟩
  | captureOnly hop ha hstage htask htarget =>
    refine hs.endAttempt ?_
    rw [hs.capturing _ ha hstage]
    exact .of_none
  | rebound hop ha hstage htask htarget hA hdiffers =>
    refine hs.endAttempt ?_
    rw [hs.capturing _ ha hstage]
    exact .of_none
  | taskFailed hop ha hstage htask => exact hs.failed ha hstage _ _
  | otherArtifact hop ha hstage htask hdiffers =>
    rename_i contentFirst now op a m A info error
    have hbound : boundCapture a = some m := by simp [boundCapture, hstage]
    have hnext : RecordedNext _ (s.endAttempt (failedRow op a.target (boundCapture a) error now)) :=
      hs.failed ha (by simp [hstage]) error now
    rwa [hbound] at hnext
  | succeeded hop ha hstage htask hinfo =>
    exact hs.endAttempt (.of_eq (hs.uploading _ ha _ _ hstage).1.symm)
  | managerFail hop ha htask =>
    refine hs.failed ha (fun hst => ?_) _ _
    have hstage := (hbound.working hop ha).2
    rw [hst] at hstage
    simp [hstage.2] at htask
  | crash hup =>
    exact ⟨⟨hs.calls, fun _ h => (by cases h), fun _ h => (by cases h)⟩, .of_eq rfl⟩
  | recovered hop hdown hincomplete =>
    refine hsame ?_ rfl rfl
    rw [recordedTarget_of hop]
    rfl
  | joined | task | idle | taskFail | restart | agentWrite => exact hsame rfl rfl rfl

end Recorded

/-! ## The held target -/

section Held

variable {s s' : Publication H}

/-- The invariant of the held target. -/
structure HeldOk (s : Publication H) : Prop where
  calls : CalledFor s.heldTarget s.uploadCalls
  captured : ∀ op, s.db.operations = [op] → (targetOf op).isSome → (captureOf op).isSome
  record : ∀ a ∈ s.attempt, ∀ A, targetOf a.record = some A →
    a.target.map Target.artifactId = some A ∧ (captureOf a.record).isSome
  start : ∀ a ∈ s.attempt, a.stage = .start → s.recordedTarget = targetOf a.record
  capturing : ∀ a ∈ s.attempt, a.stage = .capturing → s.recordedTarget = none
  uploading : ∀ a ∈ s.attempt, ∀ m A, a.stage = .uploading m A →
    s.recordedTarget = some A ∧ a.target.map Target.artifactId = some A

/-- What a move does to the held target. -/
def HeldNext (s s' : Publication H) : Prop := HeldOk s' ∧ Stays s.heldTarget s'.heldTarget

theorem captureOf_failedRow (op : PublishRecord H) (target : Option Target)
    (capture : Option (Manifest H)) (error : String) (now : ℤ) :
    captureOf (failedRow op target capture error now) = capture := by
  cases capture <;> rfl

theorem heldTarget_of_idle (hnone : s.attempt = none) : s.heldTarget = s.recordedTarget := by
  simp [heldTarget, hnone]

theorem HeldOk.held_start (hs : HeldOk s) {a : Attempt H} (ha : s.attempt = some a)
    (hstage : a.stage = .start) : s.heldTarget = targetOf a.record := by
  rw [heldTarget, hs.start a ha hstage, ha, Option.bind_some, Option.or_self]

theorem HeldOk.held_capturing (hs : HeldOk s) {a : Attempt H} (ha : s.attempt = some a)
    (hstage : a.stage = .capturing) : s.heldTarget = targetOf a.record := by
  rw [heldTarget, hs.capturing a ha hstage, ha]
  rfl

theorem HeldOk.held_uploading (hs : HeldOk s) {a : Attempt H} (ha : s.attempt = some a)
    {m : Manifest H} {A : String} (hstage : a.stage = .uploading m A) : s.heldTarget = some A := by
  rw [heldTarget, (hs.uploading a ha m A hstage).1]
  rfl

/-- A coroutine that has ended leaves its row. -/
theorem HeldOk.endAttempt (hs : HeldOk s) {op : PublishRecord H}
    (hstays : Stays s.heldTarget (targetOf op))
    (hcaptured : (targetOf op).isSome → (captureOf op).isSome) :
    HeldNext s (s.endAttempt op) := by
  have hheld : (s.endAttempt op).heldTarget = targetOf op := heldTarget_of_idle rfl
  rw [← hheld] at hstays
  refine ⟨⟨hs.calls.stays hstays, fun op' hop' => ?_, fun _ h => (by cases h),
    fun _ h => (by cases h), fun _ h => (by cases h), fun _ h => (by cases h)⟩, hstays⟩
  obtain rfl : op = op' := by simpa [Publication.endAttempt, setRow] using hop'
  exact hcaptured

/-- A failed attempt writes the target it holds. -/
theorem HeldOk.failed (hs : HeldOk s) {op : PublishRecord H} {a : Attempt H}
    (ha : s.attempt = some a) (hstage : a.stage ≠ .start) (error : String) (now : ℤ) :
    HeldNext s (s.endAttempt (failedRow op a.target (boundCapture a) error now)) := by
  refine hs.endAttempt ?_ fun htarget => ?_
  · rw [targetOf_failedRow]
    cases hst : a.stage with
    | start => exact absurd hst hstage
    | capturing =>
      intro A hA
      rw [hs.held_capturing ha hst] at hA
      obtain ⟨htarget, hcapture⟩ := hs.record a ha A hA
      obtain ⟨m, hm⟩ := Option.isSome_iff_exists.mp hcapture
      simp [boundCapture, hst, hm, htarget]
    | uploading m B =>
      intro A hA
      rw [hs.held_uploading ha hst] at hA
      simp [boundCapture, hst, (hs.uploading a ha m B hst).2, hA]
  · rw [targetOf_failedRow] at htarget
    rw [captureOf_failedRow]
    obtain ⟨A, hA⟩ := Option.isSome_iff_exists.mp htarget
    obtain ⟨m, hm, -⟩ := Option.bind_eq_some_iff.mp hA
    exact Option.isSome_iff_exists.mpr ⟨m, hm⟩

variable [DecidableEq H] {cfg : PublishRequest} {sha256 : Bytes → H}

/-- **As long as the requests name the target, the coroutine keeps what the row drops.** -/
theorem Move.held {action : PublishAction} (hbound : Bound cfg s) (hs : HeldOk s)
    (hcond : NamesTarget s action) (h : Move cfg sha256 s action s') : HeldNext s s' := by
  have hsame : ∀ {t : Publication H}, t.db = s.db → t.attempt = s.attempt →
      t.uploadCalls = s.uploadCalls → HeldNext s t := by
    intro t hdb hattempt hcalls
    have hrecorded : t.recordedTarget = s.recordedTarget := by rw [recordedTarget, row, hdb]; rfl
    have hheld : t.heldTarget = s.heldTarget := by rw [heldTarget, hrecorded, hattempt]; rfl
    refine ⟨⟨?_, ?_, ?_, ?_, ?_, ?_⟩, .of_eq hheld⟩
    · rw [hheld, hcalls]
      exact hs.calls
    · rw [hdb]
      exact hs.captured
    · rw [hattempt]
      exact hs.record
    · rw [hattempt, hrecorded]
      exact hs.start
    · rw [hattempt, hrecorded]
      exact hs.capturing
    · rw [hattempt, hrecorded]
      exact hs.uploading
  have hstart : ∀ {op : PublishRecord H} {target : Option Target},
      Stays s.heldTarget (targetOf op) → ((targetOf op).isSome → (captureOf op).isSome) →
      (∀ A, targetOf op = some A → target.map Target.artifactId = some A) →
        HeldNext s { s.setRow op with attempt := some ⟨op, target, .start⟩ } := by
    intro op target hstays hcaptured hnames
    have hheld : Publication.heldTarget { s.setRow op with
        attempt := some ⟨op, target, .start⟩ } = targetOf op := Option.or_self
    refine ⟨⟨hs.calls.stays (hheld ▸ hstays), fun op' hop' => ?_, ?_, ?_, ?_, ?_⟩,
      hheld ▸ hstays⟩
    · obtain rfl : op = op' := by simpa [setRow] using hop'
      exact hcaptured
    · rintro a ⟨⟩ A hA
      exact ⟨hnames A hA, hcaptured (Option.isSome_iff_exists.mpr ⟨A, hA⟩)⟩
    · rintro a ⟨⟩ -
      rfl
    · rintro a ⟨⟩ hst
      cases hst
    · rintro a ⟨⟩ m A hst
      cases hst
  cases h with
  | created hempty hup hours hstatus hresult =>
    rename_i target token now op
    have hattempt : s.attempt = none := hbound.attempt_none hempty
    have hnone : s.heldTarget = none := by
      rw [heldTarget_of_idle hattempt]
      simp [recordedTarget, row, hempty]
    have hresult' : targetOf op = none := by simp [targetOf, hresult]
    refine hstart ?_ (by simp [hresult']) (by simp [hresult'])
    rw [hnone]
    exact .of_none
  | scheduled hop hup hagain =>
    rename_i target token now op
    have hheld : s.heldTarget = targetOf op :=
      (heldTarget_of_idle (hbound.unscheduled hop hagain)).trans (recordedTarget_of hop)
    exact hstart (.of_eq hheld.symm) (hs.captured op hop)
      (hcond op (by simp [row, hop]) hagain)
  | startCapture hop ha hstage =>
    rename_i contentFirst now op a
    have hnone := targetOf_startCapture op (captureOf a.record) now
    have hstays : ∀ {target : Option String}, target = targetOf a.record →
        Stays s.heldTarget target := fun he => .of_eq (he.trans (hs.held_start ha hstage).symm)
    have hheld : ∀ {t : Publication H}, t.recordedTarget = none →
        t.attempt = some { a with stage := .capturing } → t.heldTarget = targetOf a.record := by
      intro t ht hattempt
      rw [heldTarget, ht, hattempt]
      rfl
    refine ⟨⟨hs.calls.stays (hstays (hheld hnone rfl)), fun op' hop' => ?_, ?_, ?_,
      fun _ _ _ => hnone, ?_⟩, hstays (hheld hnone rfl)⟩
    · obtain rfl := List.singleton_inj.mp hop'
      simp [hnone]
    · rintro b ⟨⟩
      exact hs.record a ha
    · rintro b ⟨⟩ hst
      cases hst
    · rintro b ⟨⟩ m A hst
      cases hst
  | startUpload hop ha hstage htask htarget hagrees =>
    rename_i contentFirst now op a m t
    have hstays : Stays s.heldTarget (some t.artifactId) := by
      intro A hA
      rw [hs.held_capturing ha hstage] at hA
      rw [hagrees A hA]
    refine ⟨⟨(hs.calls.stays hstays).append rfl, fun op' hop' => ?_, ?_, ?_, ?_, ?_⟩, hstays⟩
    · obtain rfl := List.singleton_inj.mp hop'
      exact fun _ => rfl
    · rintro b ⟨⟩
      exact hs.record a ha
    · rintro b ⟨⟩ hst
      cases hst
    · rintro b ⟨⟩ hst
      cases hst
    · rintro b ⟨⟩ m' A hst
      obtain ⟨-, rfl⟩ := AttemptStage.uploading.inj hst
      exact ⟨rfl, by simp [htarget]⟩
  | captureOnly hop ha hstage htask htarget =>
    refine hs.endAttempt ?_ fun h => by cases h
    rw [hs.held_capturing ha hstage]
    intro A hA
    simpa [htarget] using (hs.record _ ha A hA).1
  | rebound hop ha hstage htask htarget hA hdiffers =>
    have hA' := (hs.record _ ha _ hA).1
    rw [htarget] at hA'
    exact absurd (Option.some.inj hA').symm hdiffers
  | taskFailed hop ha hstage htask => exact hs.failed ha hstage _ _
  | otherArtifact hop ha hstage htask hdiffers =>
    rename_i contentFirst now op a m A info error
    have hbound : boundCapture a = some m := by simp [boundCapture, hstage]
    have hnext : HeldNext _ (s.endAttempt (failedRow op a.target (boundCapture a) error now)) :=
      hs.failed ha (by simp [hstage]) error now
    rwa [hbound] at hnext
  | succeeded hop ha hstage htask hinfo =>
    exact hs.endAttempt (.of_eq (hs.held_uploading ha hstage).symm) fun _ => rfl
  | managerFail hop ha htask =>
    refine hs.failed ha (fun hst => ?_) _ _
    have hstage := (hbound.working hop ha).2
    rw [hst] at hstage
    simp [hstage.2] at htask
  | crash hup =>
    have hstays : ∀ {t : Publication H}, t.attempt = none → t.db = s.db →
        Stays s.heldTarget t.heldTarget := by
      intro t hnone hdb
      refine .of_eq ?_
      rw [heldTarget_of_idle hnone, hcond, recordedTarget, row, hdb]
      rfl
    exact ⟨⟨hs.calls.stays (hstays rfl rfl), hs.captured, fun _ h => (by cases h),
      fun _ h => (by cases h), fun _ h => (by cases h), fun _ h => (by cases h)⟩, hstays rfl rfl⟩
  | recovered hop hdown hincomplete =>
    rename_i now op phase error
    have hnone := hbound.down hdown
    have hstays : ∀ {t : Publication H}, t.attempt = none →
        t.db.operations = [op.update .failed phase op.result error now] →
        Stays s.heldTarget t.heldTarget := by
      intro t hnone' hop'
      refine .of_eq ?_
      rw [heldTarget_of_idle hnone', heldTarget_of_idle hnone, recordedTarget_of hop',
        recordedTarget_of hop]
      rfl
    have hidle : ∀ {a : Attempt H}, a ∉ s.attempt := by simp [hnone]
    refine ⟨⟨hs.calls.stays (hstays hnone rfl), fun op' hop' => ?_, fun _ h => (hidle h).elim,
      fun _ h => (hidle h).elim, fun _ h => (hidle h).elim, fun _ h => (hidle h).elim⟩,
      hstays hnone rfl⟩
    obtain rfl := List.singleton_inj.mp hop'
    exact hs.captured op hop
  | joined | task | idle | taskFail | restart | agentWrite => exact hsame rfl rfl rfl

end Held

/-! ## Runs -/

section Runs

variable {s s' : Publication H}

theorem recordedOk_init (cfg : PublishRequest) (row : WorkspaceRecord) (file : Option Bytes) :
    RecordedOk (Publication.init (H := H) cfg row file) where
  calls := fun _ h => by cases h
  capturing := fun _ h => by cases h
  uploading := fun _ h => by cases h

theorem heldOk_init (cfg : PublishRequest) (row : WorkspaceRecord) (file : Option Bytes) :
    HeldOk (Publication.init (H := H) cfg row file) where
  calls := fun _ h => by cases h
  captured := fun _ h => by cases h
  record := fun _ h => by cases h
  start := fun _ h => by cases h
  capturing := fun _ h => by cases h
  uploading := fun _ h => by cases h

/-- The `upload_capture` calls since a state. -/
def Publication.callsSince (s' s : Publication H) : List String :=
  s'.uploadCalls.drop s.uploadCalls.length

/-- From any two states of a run, the earlier with a target: the target stays, and `upload_capture`
is called for no other. -/
def TargetKept [DecidableEq H] (cfg : PublishRequest) (sha256 : Bytes → H)
    (target : Publication H → Option String) (s : Publication H) (actions : List PublishAction) :
    Prop :=
  ∀ xs ys zs v w A, actions = xs ++ ys ++ zs → Machine.run (publishStep cfg sha256) s xs = some v →
    Machine.run (publishStep cfg sha256) v ys = some w → target v = some A →
      target w = some A ∧ ∀ B ∈ w.callsSince v, B = A

variable [DecidableEq H] {cfg : PublishRequest} {sha256 : Bytes → H}

/-- What every step keeps is kept between any two states of a run. -/
theorem targetKept_of_meets {target : Publication H → Option String}
    {cond : Publication H → PublishAction → Prop} {Inv : Publication H → Prop}
    (hcalls : ∀ s, Inv s → CalledFor (target s) s.uploadCalls)
    (hstep : ∀ s action s', cond s action → Bound cfg s ∧ Inv s →
      publishStep cfg sha256 s action = some s' → Inv s' ∧ Stays (target s) (target s'))
    (hbound : Bound cfg s) (hs : Inv s) {actions : List PublishAction}
    (hmeets : Machine.Meets (publishStep cfg sha256) cond s actions) :
    TargetKept cfg sha256 target s actions := by
  have hboth : ∀ s action s', cond s action → Bound cfg s ∧ Inv s →
      publishStep cfg sha256 s action = some s' →
        (Bound cfg s' ∧ Inv s') ∧ Stays (target s) (target s') := by
    intro s action s' hcond hinv hstep'
    obtain ⟨hinv', hstays⟩ := hstep s action s' hcond hinv hstep'
    exact ⟨⟨(publishStep_move hinv.1 hstep').bound hinv.1, hinv'⟩, hstays⟩
  have hinv : ∀ s action s', cond s action → Bound cfg s ∧ Inv s →
      publishStep cfg sha256 s action = some s' → Bound cfg s' ∧ Inv s' :=
    fun s action s' hcond hinv hstep' => (hboth s action s' hcond hinv hstep').1
  rintro xs ys zs v w A rfl hxs hys hA
  obtain ⟨hfirst, -⟩ := Machine.meets_append hmeets
  obtain ⟨hmeets_xs, hrest⟩ := Machine.meets_append hfirst
  have hv : Bound cfg v ∧ Inv v := Machine.run_invariant hinv hmeets_xs hxs ⟨hbound, hs⟩
  have hw : Bound cfg w ∧ Inv w := Machine.run_invariant hinv (hrest v hxs) hys hv
  have hstays : Stays (target v) (target w) :=
    Machine.run_rel (fun s => .of_eq rfl) (fun _ _ _ h h' A hA => h' A (h A hA)) hboth
      (hrest v hxs) hys hv
  refine ⟨hstays A hA, fun B hB => ?_⟩
  have hB' := hcalls w hw.2 B (List.mem_of_mem_drop hB)
  rw [hstays A hA] at hB'
  exact (Option.some.inj hB').symm

/-- The step in which an attempt starts its capture leaves no target. -/
theorem recordedTarget_go_start (hs : Bound cfg s) {a : Attempt H} (ha : s.attempt = some a)
    (hstage : a.stage = .start) (contentFirst : Bool) (now : ℤ) :
    (s.go cfg sha256 contentFirst now).recordedTarget = none := by
  obtain ⟨op, hop, hid⟩ := hs.stored ha
  have htask : s.task = none := by
    have hstart := (hs.working hop ha).2
    rw [hstage] at hstart
    exact hstart.2
  rw [go, htask]
  dsimp only
  rw [ha]
  dsimp only
  rw [attemptStep, hstage]
  dsimp only
  rw [Publication.startCapture, updateOperation_singleton hop hid]
  exact targetOf_startCapture ..

/-- **The recorded target stays exactly as long as no attempt starts on a row that has one; what the
coroutine holds stays as long as the requests name it.** -/
theorem recordedTarget_kept (cfg : PublishRequest) (sha256 : Bytes → H) (row : WorkspaceRecord)
    (file : Option Bytes) (actions : List PublishAction) :
    (TargetKept cfg sha256 recordedTarget (Publication.init cfg row file) actions ↔
      Machine.Meets (publishStep cfg sha256) StartsUnbound (Publication.init cfg row file)
        actions) ∧
    (Machine.Meets (publishStep cfg sha256) NamesTarget (Publication.init cfg row file) actions →
      TargetKept cfg sha256 heldTarget (Publication.init cfg row file) actions) := by
  refine ⟨⟨fun hkept => ?_, ?_⟩, ?_⟩
  · refine Machine.meets_iff.mpr fun xs action ys hactions v hv => ?_
    cases action with
    | go contentFirst now =>
      intro a ha hstage
      by_contra hne
      obtain ⟨A, hA⟩ := Option.ne_none_iff_exists'.mp hne
      have hstays := (hkept xs [.go contentFirst now] ys v (v.go cfg sha256 contentFirst now) A
        (by simpa using hactions) hv rfl hA).1
      have hv' : Bound cfg v := bound_run (bound_init cfg row file) hv
      rw [recordedTarget_go_start hv' ha hstage] at hstays
      cases hstays
    | _ => trivial
  · exact targetKept_of_meets (fun _ h => h.calls)
      (fun _ _ _ hcond hinv h => (publishStep_move hinv.1 h).recorded hinv.1 hinv.2 hcond)
      (bound_init cfg row file) (recordedOk_init cfg row file)
  · exact targetKept_of_meets (fun _ h => h.calls)
      (fun _ _ _ hcond hinv h => (publishStep_move hinv.1 h).held hinv.1 hinv.2 hcond)
      (bound_init cfg row file) (heldOk_init cfg row file)

end Runs

/-! ## A target that is replaced -/

/-- The first attempt starts its upload. -/
def boundRun : List PublishAction :=
  .request (some (sampleTarget "A")) "1" 0 :: .replicate 9 (.go true 0)

/-- The upload fails; a request for another Artifact is refused, and the next one is not. -/
def reboundRun : List PublishAction :=
  [.taskFail false "Connection reset", .go true 0, .request (some (sampleTarget "B")) "2" 0] ++
    .replicate 3 (.go true 0) ++ [.request (some (sampleTarget "B")) "3" 0] ++
    .replicate 3 (.go true 0)

theorem recordedTarget_replaced : ¬ ∀ actions, TargetKept sampleRequest List.length recordedTarget
    (Publication.init sampleRequest sampleRow (some [1, 2])) actions := by
  intro h
  have hfirst : (Machine.run (publishStep sampleRequest List.length)
      (Publication.init sampleRequest sampleRow (some [1, 2])) boundRun).bind
        (fun v => (Machine.run (publishStep sampleRequest List.length) v reboundRun).map fun w =>
          (recordedTarget v, w.callsSince v)) = some (some "A", ["B"]) := by decide +kernel
  obtain ⟨v, hv, hrest⟩ := Option.bind_eq_some_iff.mp hfirst
  obtain ⟨w, hw, hcalls⟩ := Option.map_eq_some_iff.mp hrest
  obtain ⟨hA, hB⟩ := Prod.mk.inj hcalls
  have hkept := (h (boundRun ++ reboundRun) boundRun reboundRun [] v w "A" (by simp) hv hw hA).2
  rw [hB] at hkept
  exact absurd (hkept "B" List.mem_cons_self) (by decide)

end CodexGateway.Manager
