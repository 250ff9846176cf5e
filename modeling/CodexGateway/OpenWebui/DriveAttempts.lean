import CodexGateway.OpenWebui.DriveIntent

/-!
# OpenWebui/DriveAttempts — an intent that keeps failing

An intent has a number of attempts, and it is `failed` once they are used up.  An attempt is counted
where the upload target is there, and nowhere else: of a drive whose capture is rejected, or that is
refused before its upload, nothing is counted, and the intent is tried again for ever
(`not_drive_gives_up`).

Where every failing drive has counted its attempt, or waits for an upload that has, there are as
many failures as attempts, and the intent is `failed` after the last (`drive_gives_up`).
-/

namespace CodexGateway.OpenWebui

open PyJson SandboxApi

/-! ## Failing drives -/

/-- A drive has failed, and writes what becomes of the intent. -/
def DrivePhase.isFailure : DrivePhase → Bool
  | .retry _ _ _ | .retryCapture _ | .work _ (.giveUp _) | .work _ (.retryUpload _ _) => true
  | _ => false

/-- The handler of a drive that has not counted its attempt, and does not wait for an upload. -/
def DrivePhase.isUncounted : DrivePhase → Bool
  | .retryCapture _ => true
  | .retry intent current _ =>
    decide (current.state ≠ .uploading) && decide (current.attempts ≤ intent.attempts)
  | _ => false

namespace DrivenIntent

variable (p : DrivenIntent)

/-- A drive that has failed has written what becomes of the intent, and is over. -/
def failsDrive (s : DriveState) (a : DriveAction) : Bool :=
  a.done && s.drive.any DrivePhase.isFailure && (p.act s a).any (·.drive.isNone)

/-- How many drives of a run have failed. -/
def failures (s : DriveState) (as : List DriveAction) : ℕ :=
  Machine.total p.act (fun s a => (p.failsDrive s a).toNat) s as

end DrivenIntent

/-- The handler writes for a drive that has failed before it counted its attempt. -/
def failsEarly (s : DriveState) (a : DriveAction) : Bool :=
  a.done && s.drive.any DrivePhase.isUncounted

/-! ## What is left to an intent -/

/-- The intent as the drive has read it. -/
def DrivePhase.intent? : DrivePhase → Option IntentRow
  | .work intent _ | .handle intent _ | .retry intent _ _ => some intent
  | .read | .retryCapture _ => none

/-- The drive is to read the row. -/
def DrivePhase.isRead : DrivePhase → Bool
  | .read => true
  | _ => false

/-- The drive has counted its attempt. -/
def counted (attempts : ℕ) (drive : Option DrivePhase) : Bool :=
  drive.any fun phase => phase.intent?.any fun intent => decide (intent.attempts < attempts)

namespace DrivenIntent

variable (p : DrivenIntent)

/-- How many failures are left: one for each attempt, with the one that is underway. -/
def left (state : IntentState) (attempts : ℕ) (drive : Option DrivePhase) : ℕ :=
  if state.recorded ∨ state = .failed ∧ drive.all DrivePhase.isRead then 0
  else max 1 (p.publishRetryLimit - attempts +
    if state = .uploading ∨ counted attempts drive = true then 1 else 0)

end DrivenIntent

/-- What a drive relies on: an attempt is left until it is counted, and counted from then on. -/
def DriveStep.Budgets (limit : ℕ) (row intent : IntentRow) : DriveStep → Prop
  | .user | .permission | .target | .count _ =>
    intent.attempts = row.attempts ∧ row.attempts < limit
  | .publish _ | .setUploading _ _ => intent.attempts < row.attempts
  | .waitUpload _ | .current _ => row.state = .uploading
  | .wait _ => row.state = .uploading ∧ intent.attempts = row.attempts
  | .retryUpload before _ => row.state = .uploading ∧ before.attempts = row.attempts
  | _ => True

/-- The attempts that a drive has read are the row's, and are within the limit. -/
def DrivePhase.Budgets (limit : ℕ) (row : IntentRow) : DrivePhase → Prop
  | .work intent step => step.Budgets limit row intent
  | .retry _ current _ => current.attempts = row.attempts ∧ current.state = row.state
  | .read | .handle _ _ | .retryCapture _ => True

section Budgets

variable {p : DrivenIntent} {s s' : DriveState} {intent current row : IntentRow} {step : DriveStep}
  {phase : DrivePhase} {operation answer : Members} {error : String}

theorem budgets_uploadIntent :
    (p.uploadIntent row).Budgets p.publishRetryLimit row := by
  rw [DrivenIntent.uploadIntent]
  split_ifs with hlimit
  · trivial
  · exact ⟨rfl, Nat.lt_of_not_le hlimit⟩

theorem budgets_dispatch : ∀ next ∈ p.dispatch row, next.Budgets p.publishRetryLimit row := by
  intro next hnext
  rw [DrivenIntent.dispatch] at hnext
  split at hnext
  · cases hnext
  · cases hnext
  · obtain rfl := Option.some.inj hnext
    trivial
  · obtain rfl := Option.some.inj hnext
    trivial
  · rename_i hstate
    obtain ⟨id, -, rfl⟩ := Option.map_eq_some_iff.mp hnext
    exact ⟨hstate, rfl⟩
  · obtain rfl := Option.some.inj hnext
    trivial
  · obtain rfl := Option.some.inj hnext
    exact budgets_uploadIntent
  · obtain rfl := Option.some.inj hnext
    exact budgets_uploadIntent

theorem budgets_captured {limit : ℕ} :
    (p.captured intent operation error).Budgets limit row := by
  rw [DrivenIntent.captured]
  split
  · trivial
  · split
    · trivial
    · trivial
    · trivial

theorem budgets_finish {limit : ℕ} (hstate : row.state = .uploading)
    (hcurrent : current.attempts = row.attempts) :
    (p.finish intent current operation error).Budgets limit row := by
  rw [DrivenIntent.finish]
  split_ifs
  · split
    · trivial
    · exact ⟨hstate, hcurrent⟩
    · trivial
  · split
    · exact ⟨hstate, hcurrent⟩
    · trivial

theorem budgets_nextStep (h : step.Budgets p.publishRetryLimit (p.row s) intent) (now : ℤ) :
    ∀ next ∈ p.nextStep s answer error intent step,
      next.Budgets p.publishRetryLimit (p.row (p.stepEffect s intent now step)) := by
  intro next hnext
  cases step with
  | capture =>
    obtain rfl := Option.some.inj hnext
    exact budgets_captured
  | setCaptured id =>
    obtain rfl := Option.some.inj hnext
    trivial
  | setOperation id failure =>
    cases failure with
    | none =>
      obtain rfl := Option.some.inj hnext
      trivial
    | some failure =>
      obtain rfl := Option.some.inj hnext
      trivial
  | captureFailed failure =>
    obtain rfl := Option.some.inj hnext
    trivial
  | reread =>
    rw [DrivenIntent.nextStep] at hnext
    split_ifs at hnext
    · obtain rfl := Option.some.inj hnext
      exact budgets_uploadIntent
    · cases hnext
  | user =>
    obtain rfl := Option.some.inj hnext
    cases s.owner
    · trivial
    · exact h
  | permission =>
    obtain rfl := Option.some.inj hnext
    exact h
  | target =>
    rw [DrivenIntent.nextStep] at hnext
    split at hnext
    · obtain rfl := Option.some.inj hnext
      trivial
    · obtain rfl := Option.some.inj hnext
      exact h
  | count target =>
    obtain rfl := Option.some.inj hnext
    exact Nat.lt_succ_self intent.attempts
  | publish target =>
    rw [DrivenIntent.nextStep] at hnext
    split at hnext
    · obtain rfl := Option.some.inj hnext
      trivial
    · obtain rfl := Option.some.inj hnext
      exact h
  | setUploading id operation =>
    rw [DrivenIntent.nextStep] at hnext
    split at hnext
    · obtain rfl := Option.some.inj hnext
      trivial
    · obtain rfl := Option.some.inj hnext
      exact state_setStatus _ _
    · obtain rfl := Option.some.inj hnext
      exact state_setStatus _ _
  | waitUpload id =>
    rw [DrivenIntent.nextStep] at hnext
    split at hnext
    · obtain rfl := Option.some.inj hnext
      trivial
    · obtain rfl := Option.some.inj hnext
      exact h
    · obtain rfl := Option.some.inj hnext
      exact h
  | current operation =>
    obtain rfl := Option.some.inj hnext
    exact budgets_finish h rfl
  | wait id =>
    rw [DrivenIntent.nextStep] at hnext
    split at hnext
    · obtain rfl := Option.some.inj hnext
      trivial
    · obtain rfl := Option.some.inj hnext
      exact h
    · obtain rfl := Option.some.inj hnext
      exact budgets_finish h.1 h.2
  | giveUp error => cases hnext
  | retryUpload current error => cases hnext
  | setUploaded descriptor =>
    obtain rfl := Option.some.inj hnext
    trivial
  | uploaded =>
    obtain rfl := Option.some.inj hnext
    trivial
  | bind current phase =>
    cases phase with
    | returned => cases hnext
    | retried => cases hnext
    | _ =>
      obtain rfl := Option.some.inj hnext
      trivial

theorem budgets_drive (h : phase.Budgets p.publishRetryLimit (p.row s)) (now : ℤ) :
    ∀ next ∈ p.next s answer error phase,
      next.Budgets p.publishRetryLimit (p.row (p.effect s now phase)) := by
  intro next hnext
  cases phase with
  | read => exact budgets_dispatch next hnext
  | work intent step => exact budgets_nextStep h now next hnext
  | handle intent error =>
    rw [DrivenIntent.next] at hnext
    split_ifs at hnext
    · obtain rfl := Option.some.inj hnext
      trivial
    · obtain rfl := Option.some.inj hnext
      exact ⟨rfl, rfl⟩
  | retry intent current error => cases hnext
  | retryCapture error => cases hnext

theorem budgets_caught {limit : ℕ} :
    ∀ next ∈ DrivenIntent.caught error phase, next.Budgets limit row := by
  intro next hnext
  cases phase with
  | work intent step =>
    obtain rfl := Option.some.inj hnext
    trivial
  | _ => cases hnext

/-! ## Who has counted -/

theorem intent_uploadIntent : (p.uploadIntent row).intent? = some row := by
  rw [DrivenIntent.uploadIntent]
  split_ifs
  · rfl
  · rfl

theorem intent_captured : (p.captured intent operation error).intent? = some intent := by
  rw [DrivenIntent.captured]
  split
  · rfl
  · split
    · rfl
    · rfl
    · rfl

theorem intent_finish : (p.finish intent current operation error).intent? = some intent := by
  rw [DrivenIntent.finish]
  split_ifs
  · split
    · rfl
    · rfl
    · rfl
  · split
    · rfl
    · rfl

theorem intent_dispatch : ∀ next ∈ p.dispatch row, next.intent? = some row := by
  intro next hnext
  rw [DrivenIntent.dispatch] at hnext
  split at hnext
  · cases hnext
  · cases hnext
  · obtain rfl := Option.some.inj hnext
    rfl
  · obtain rfl := Option.some.inj hnext
    rfl
  · obtain ⟨id, -, rfl⟩ := Option.map_eq_some_iff.mp hnext
    rfl
  · obtain rfl := Option.some.inj hnext
    rfl
  · obtain rfl := Option.some.inj hnext
    exact intent_uploadIntent
  · obtain rfl := Option.some.inj hnext
    exact intent_uploadIntent

/-- A drive goes on with the intent as it has read it, or reads it again. -/
theorem intent_nextStep : ∀ next ∈ p.nextStep s answer error intent step,
    next.intent? = some intent ∨ next.intent? = some (p.row s) := by
  intro next hnext
  cases step with
  | capture =>
    obtain rfl := Option.some.inj hnext
    exact .inl intent_captured
  | setOperation id failure =>
    cases failure with
    | none =>
      obtain rfl := Option.some.inj hnext
      exact .inl rfl
    | some failure =>
      obtain rfl := Option.some.inj hnext
      exact .inl rfl
  | reread =>
    rw [DrivenIntent.nextStep] at hnext
    split_ifs at hnext
    · obtain rfl := Option.some.inj hnext
      exact .inr intent_uploadIntent
    · cases hnext
  | target =>
    rw [DrivenIntent.nextStep] at hnext
    split at hnext
    · obtain rfl := Option.some.inj hnext
      exact .inl rfl
    · obtain rfl := Option.some.inj hnext
      exact .inl rfl
  | publish target =>
    rw [DrivenIntent.nextStep] at hnext
    split at hnext
    · obtain rfl := Option.some.inj hnext
      exact .inl rfl
    · obtain rfl := Option.some.inj hnext
      exact .inl rfl
  | setUploading id operation =>
    rw [DrivenIntent.nextStep] at hnext
    split at hnext
    all_goals
      obtain rfl := Option.some.inj hnext
      exact .inl rfl
  | waitUpload id =>
    rw [DrivenIntent.nextStep] at hnext
    split at hnext
    all_goals
      obtain rfl := Option.some.inj hnext
      exact .inl rfl
  | current operation =>
    obtain rfl := Option.some.inj hnext
    exact .inl intent_finish
  | wait id =>
    rw [DrivenIntent.nextStep] at hnext
    split at hnext
    · obtain rfl := Option.some.inj hnext
      exact .inl rfl
    · obtain rfl := Option.some.inj hnext
      exact .inl rfl
    · obtain rfl := Option.some.inj hnext
      exact .inl intent_finish
  | giveUp error => cases hnext
  | retryUpload current error => cases hnext
  | bind current phase =>
    cases phase with
    | returned => cases hnext
    | retried => cases hnext
    | _ =>
      obtain rfl := Option.some.inj hnext
      exact .inl rfl
  | _ =>
    obtain rfl := Option.some.inj hnext
    exact .inl rfl

theorem counted_of_intent {n : ℕ} {next : DrivePhase}
    (h : next.intent? = some intent ∨ next.intent? = some (p.row s) ∧ n = s.attempts)
    (hcounted : counted n (some next) = true) : intent.attempts < n := by
  rw [counted, Option.any_some] at hcounted
  rcases h with h | ⟨h, rfl⟩
  · rw [h, Option.any_some] at hcounted
    exact of_decide_eq_true hcounted
  · rw [h, Option.any_some] at hcounted
    exact absurd (of_decide_eq_true hcounted) (lt_irrefl s.attempts)

end Budgets

/-! ## What a step takes away -/

section Left

variable {p : DrivenIntent} {s s' : DriveState} {intent current row : IntentRow} {step : DriveStep}
  {phase : DrivePhase} {operation answer : Members} {error : String} {state state' : IntentState}
  {n : ℕ} {drive drive' : Option DrivePhase}

theorem left_le : p.left state n drive ≤ max 1 (p.publishRetryLimit - n + 1) := by
  rw [DrivenIntent.left]
  split_ifs
  all_goals omega

theorem left_le_limit (hstate : state ≠ .uploading) (hcounted : counted n drive = false) :
    p.left state n drive ≤ max 1 (p.publishRetryLimit - n) := by
  have hlast : ¬ (state = .uploading ∨ counted n drive = true) := by simp [hstate, hcounted]
  rw [DrivenIntent.left, if_neg hlast]
  split_ifs
  · exact Nat.zero_le _
  · exact le_refl _

theorem left_eq (hstate : state.recorded = false)
    (hrest : state = .failed → drive.all DrivePhase.isRead = false) :
    p.left state n drive = max 1 (p.publishRetryLimit - n +
      if state = .uploading ∨ counted n drive = true then 1 else 0) := by
  rw [DrivenIntent.left, if_neg]
  rintro (hrecorded | ⟨hfailed, hread⟩)
  · exact absurd hrecorded (by simp [hstate])
  · exact absurd hread (by simp [hrest hfailed])

/-- There is something left until the intent is failed, and its drive is over. -/
theorem left_pos (hstate : state.recorded = false)
    (hrest : state = .failed → drive.all DrivePhase.isRead = false) : 0 < p.left state n drive := by
  rw [left_eq hstate hrest]
  omega

/-- Nothing is added where no upload begins and no attempt is counted. -/
theorem left_mono (hstate : state.recorded = false)
    (hrest : state = .failed → drive.all DrivePhase.isRead = false)
    (huploading : state' = .uploading → state = .uploading)
    (hcounted : counted n drive' = true → counted n drive = true) :
    p.left state' n drive' ≤ p.left state n drive := by
  rw [left_eq hstate hrest]
  split_ifs with hlast
  · exact left_le
  · obtain ⟨hnot, huncounted⟩ := not_or.mp hlast
    exact left_le_limit (fun h => hnot (huploading h)) (Bool.eq_false_iff.mpr fun h =>
      huncounted (hcounted h))

/-- What is left in the last attempt is the most there can be. -/
theorem left_le_of_last (hstate : state.recorded = false)
    (hrest : state = .failed → drive.all DrivePhase.isRead = false)
    (hlast : state = .uploading ∨ counted n drive = true) :
    p.left state' n drive' ≤ p.left state n drive := by
  rw [left_eq hstate hrest, if_pos hlast]
  exact left_le

/-- What a drive may go on with. -/
def DrivenIntent.Follows (p : DrivenIntent) (s : DriveState) (phase : DrivePhase)
    (drive : Option DrivePhase) : Prop :=
  (∃ answer error, drive = p.next s answer error phase) ∨
    (∃ error, drive = DrivenIntent.caught error phase) ∨ drive = none

/-- No drive has counted an attempt but by counting it. -/
theorem counted_follows (h : p.Follows s phase drive) (hread : phase.isRead = false)
    (hcounted : counted s.attempts drive = true) : counted s.attempts (some phase) = true := by
  rcases h with ⟨answer, error, rfl⟩ | ⟨error, rfl⟩ | rfl
  · cases phase with
    | read => cases hread
    | work intent step =>
      cases hnext : p.next s answer error (.work intent step) with
      | none =>
        rw [hnext] at hcounted
        cases hcounted
      | some next =>
        rw [hnext] at hcounted
        have hintent := intent_nextStep (p := p) (s := s) next hnext
        exact decide_eq_true (counted_of_intent (hintent.imp_right fun h => ⟨h, rfl⟩) hcounted)
    | handle intent error =>
      rw [DrivenIntent.next] at hcounted
      split_ifs at hcounted
      · cases hcounted
      · exact hcounted
    | retry intent current error => cases hcounted
    | retryCapture error => cases hcounted
  · cases phase with
    | work intent step => exact hcounted
    | _ => cases hcounted
  · cases hcounted

/-- A drive that reads an intent has taken nothing away. -/
theorem left_dispatch (hstate : (p.row s).state.recorded = false) :
    p.left (p.row s).state s.attempts (p.dispatch (p.row s)) ≤
      p.left (p.row s).state s.attempts (some .read) := by
  by_cases hfailed : (p.row s).state = .failed
  · rw [DrivenIntent.dispatch, hfailed]
    exact le_refl (p.left .failed s.attempts none)
  · refine left_mono hstate (fun h => absurd h hfailed) (fun h => h) fun hcounted => ?_
    cases hnext : p.dispatch (p.row s) with
    | none =>
      rw [hnext] at hcounted
      cases hcounted
    | some next =>
      rw [hnext] at hcounted
      have hlt : (p.row s).attempts < s.attempts :=
        counted_of_intent (.inr ⟨intent_dispatch next hnext, rfl⟩) hcounted
      exact absurd hlt (lt_irrefl s.attempts)

/-- A handler writes in the last attempt that was counted. -/
theorem last_retry (hbudgets : (DrivePhase.retry intent current error).Budgets p.publishRetryLimit
      (p.row s)) (huncounted : (DrivePhase.retry intent current error).isUncounted = false) :
    (p.row s).state = .uploading ∨
      counted s.attempts (some (.retry intent current error)) = true := by
  obtain ⟨hattempts, hcurrent⟩ := hbudgets
  rw [DrivePhase.isUncounted, Bool.and_eq_false_iff] at huncounted
  rcases huncounted with huploading | hcounted
  · exact .inl (hcurrent ▸ not_not.mp (of_decide_eq_false huploading))
  · have hlt : intent.attempts < s.attempts :=
      lt_of_lt_of_eq (Nat.lt_of_not_le (of_decide_eq_false hcounted)) hattempts
    exact .inr (decide_eq_true hlt)

/-- **No awaited call adds to what is left**, where the drive has counted its attempt by the time
its handler writes. -/
theorem left_effect (hstate : (p.row s).state.recorded = false)
    (hholds : phase.Holds (p.row s).state) (hbudgets : phase.Budgets p.publishRetryLimit (p.row s))
    (hbind : phase.isBind = false) (huncounted : phase.isUncounted = false) (now : ℤ)
    (hfollows : p.Follows s phase drive) :
    p.left (p.row (p.effect s now phase)).state (p.effect s now phase).attempts drive ≤
      p.left (p.row s).state s.attempts (some phase) := by
  cases phase with
  | read =>
    rcases hfollows with ⟨answer, error, rfl⟩ | ⟨error, rfl⟩ | rfl
    · exact left_dispatch hstate
    · exact le_refl (p.left (p.row s).state s.attempts none)
    · exact le_refl (p.left (p.row s).state s.attempts none)
  | handle intent error =>
    exact left_mono hstate (fun _ => rfl) (fun h => h) (counted_follows hfollows rfl)
  | retry intent current error =>
    exact left_le_of_last hstate (fun _ => rfl) (last_retry hbudgets huncounted)
  | retryCapture error => cases huncounted
  | work intent step =>
    have hcounted := counted_follows hfollows rfl
    cases step with
    | count target =>
      obtain ⟨hsame, hunder⟩ := hbudgets
      have hle : p.left (p.row (p.effect s now (.work intent (.count target)))).state
          (intent.attempts + 1) drive ≤
          max 1 (p.publishRetryLimit - (intent.attempts + 1) + 1) := left_le
      have hlimit : max 1 (p.publishRetryLimit - s.attempts) ≤
          p.left (p.row s).state s.attempts (some (.work intent (.count target))) := by
        rw [left_eq hstate fun _ => rfl]
        omega
      refine hle.trans (le_trans ?_ hlimit)
      have hattempts : intent.attempts = s.attempts := hsame
      have hlt : s.attempts < p.publishRetryLimit := hunder
      omega
    | publish target =>
      exact left_le_of_last hstate (fun _ => rfl) (.inr (decide_eq_true hbudgets))
    | setUploading id operation =>
      exact left_le_of_last hstate (fun _ => rfl) (.inr (decide_eq_true hbudgets))
    | waitUpload id => exact left_le_of_last hstate (fun _ => rfl) (.inl hbudgets)
    | current operation => exact left_le_of_last hstate (fun _ => rfl) (.inl hbudgets)
    | wait id => exact left_le_of_last hstate (fun _ => rfl) (.inl hbudgets.1)
    | retryUpload current error =>
      exact left_le_of_last hstate (fun _ => rfl) (.inl hbudgets.1)
    | setCaptured id =>
      exact left_mono hstate (fun _ => rfl) (fun h => by cases (state_setStatus _ _).symm.trans h)
        hcounted
    | captureFailed failure =>
      exact left_mono hstate (fun _ => rfl) (fun h => by cases (state_setStatus _ _).symm.trans h)
        hcounted
    | giveUp failure =>
      exact left_mono hstate (fun _ => rfl) (fun h => by cases (state_setStatus _ _).symm.trans h)
        hcounted
    | setUploaded descriptor =>
      have hrecorded : (p.row (p.effect s now (.work intent (.setUploaded descriptor)))).state =
        .uploaded := state_setStatus _ _
      rw [hrecorded, DrivenIntent.left, if_pos (.inl rfl)]
      exact Nat.zero_le _
    | uploaded =>
      have huploaded : (p.row s).state = .uploaded := hholds
      rw [huploaded] at hstate
      cases hstate
    | bind current phase => cases hbind
    | _ => exact left_mono hstate (fun _ => rfl) (fun h => h) hcounted

/-- An intent whose last attempt has failed is failed, and another is tried again. -/
theorem left_retryIntent (hstate : (p.row s).state.recorded = false)
    (hrest : (p.row s).state = .failed → drive.all DrivePhase.isRead = false)
    (hattempts : current.attempts = s.attempts)
    (hlast : (p.row s).state = .uploading ∨ counted s.attempts drive = true) (now : ℤ) :
    p.left (p.retryIntent (p.uploadedIntent current) now error false).state s.attempts none + 1 ≤
      p.left (p.row s).state s.attempts drive := by
  rw [left_eq hstate hrest, if_pos hlast, state_retryIntent]
  split_ifs with hlimit
  · rw [DrivenIntent.left, if_pos (.inr ⟨rfl, rfl⟩)]
    omega
  · have hle : p.left .retryable s.attempts none ≤ max 1 (p.publishRetryLimit - s.attempts) :=
      left_le_limit (by decide) rfl
    have hunder : ¬ current.attempts ≥ p.publishRetryLimit := hlimit
    omega

/-- **A failed drive takes one away.** -/
theorem left_failure (hstate : (p.row s).state.recorded = false)
    (hbudgets : phase.Budgets p.publishRetryLimit (p.row s)) (hfailure : phase.isFailure = true)
    (huncounted : phase.isUncounted = false) (now : ℤ) :
    p.left (p.row (p.effect s now phase)).state (p.effect s now phase).attempts none + 1 ≤
      p.left (p.row s).state s.attempts (some phase) := by
  cases phase with
  | read => cases hfailure
  | handle intent error => cases hfailure
  | retryCapture error => cases huncounted
  | retry intent current error =>
    rw [DrivenIntent.effect, state_setStatus]
    exact left_retryIntent hstate (fun _ => rfl) hbudgets.1 (last_retry hbudgets huncounted) now
  | work intent step =>
    cases step with
    | giveUp failure =>
      have hfailed : (p.row (p.effect s now (.work intent (.giveUp failure)))).state = .failed :=
        state_setStatus _ _
      rw [hfailed, DrivenIntent.left, if_pos (.inr ⟨rfl, rfl⟩)]
      exact left_pos hstate fun _ => rfl
    | retryUpload current error =>
      rw [DrivenIntent.effect, DrivenIntent.stepEffect, state_setStatus]
      exact left_retryIntent hstate (fun _ => rfl) hbudgets.2 (.inl hbudgets.1) now
    | _ => cases hfailure

/-! ## A step -/

/-- What holds of the drive that has the lock, and of its attempt. -/
structure DrivenIntent.Sound (p : DrivenIntent) (s : DriveState) : Prop where
  consistent : p.Consistent s
  budgets : ∀ phase ∈ s.drive, phase.Budgets p.publishRetryLimit (p.row s)

/-- What is left to the intent in a state. -/
def DrivenIntent.leftIn (p : DrivenIntent) (s : DriveState) : ℕ :=
  p.left (p.row s).state (p.row s).attempts s.drive

theorem leftIn_eq (h : s.drive = drive) :
    p.leftIn s = p.left (p.row s).state s.attempts drive := by
  rw [DrivenIntent.leftIn, h]
  rfl

theorem leftIn_with : p.leftIn { s with drive := drive } =
    p.left (p.row s).state s.attempts drive := rfl

/-- Without a write, nothing is added. -/
theorem left_idle (hstate : (p.row s).state.recorded = false)
    (hfollows : (∃ error, drive = DrivenIntent.caught error phase) ∨ drive = none) :
    p.left (p.row s).state s.attempts drive ≤ p.left (p.row s).state s.attempts (some phase) := by
  cases phase with
  | read =>
    rcases hfollows with ⟨error, rfl⟩ | rfl
    · exact le_refl (p.left (p.row s).state s.attempts none)
    · exact le_refl (p.left (p.row s).state s.attempts none)
  | _ =>
    exact left_mono hstate (fun _ => rfl) (fun h => h)
      (counted_follows (p := p) (.inr hfollows) rfl)

/-- **A step takes away a failure where a drive has failed, and never adds one**, as long as the
Artifact is not recorded and no drive fails before it has counted its attempt. -/
theorem drive_left {a : DriveAction} (hs : p.Sound s) (hstate : (p.row s).state.recorded = false)
    (hearly : failsEarly s a = false) (h : p.act s a = some s') :
    p.Sound s' ∧ (p.failsDrive s a).toNat + p.leftIn s' ≤ p.leftIn s := by
  have hconsistent := (drive_step hs.consistent h).1
  have hfails : p.failsDrive s a =
      (a.done && s.drive.any DrivePhase.isFailure && s'.drive.isNone) := by
    rw [DrivenIntent.failsDrive, h, Option.any_some]
  rcases drive_cases h with ⟨hdone, hrow, -, hdrive⟩ |
    ⟨phase, hdrive, hbind, now, drive, rfl, hnext⟩ |
    ⟨intent, current, phase, hdrive, b, stores, t, hact, drive, rfl, hnext⟩
  · refine ⟨⟨hconsistent, fun phase hphase => ?_⟩, ?_⟩
    · rw [hrow]
      rcases hdrive with hdrive | ⟨-, hdrive⟩
      · exact hs.budgets phase (hdrive ▸ hphase)
      · rw [hdrive] at hphase
        obtain rfl := Option.some.inj hphase
        trivial
    · have hzero : (p.failsDrive s a).toNat = 0 := by simp [hfails, hdone]
      rw [hzero, Nat.zero_add, DrivenIntent.leftIn, DrivenIntent.leftIn, hrow]
      rcases hdrive with hdrive | ⟨hnone, hdrive⟩
      · rw [hdrive]
      · rw [hdrive, hnone]
        exact le_refl (p.left (p.row s).state s.attempts none)
  · have hbudgets := hs.budgets phase hdrive
    have hholds := hs.consistent phase hdrive
    by_cases hdone : a.done = true
    · rw [if_pos hdone] at hconsistent hfails ⊢
      have huncounted : phase.isUncounted = false := by
        rw [failsEarly, hdone, hdrive, Bool.true_and, Option.any_some] at hearly
        exact hearly
      have hfollows : p.Follows s phase drive := hnext.imp_left fun hnext => hnext.2
      refine ⟨⟨hconsistent, fun next hmem => ?_⟩, ?_⟩
      · rcases hfollows with ⟨answer, error, rfl⟩ | ⟨error, rfl⟩ | rfl
        · exact budgets_drive hbudgets now next hmem
        · exact budgets_caught next hmem
        · cases hmem
      · have hcost : p.failsDrive s a = (phase.isFailure && drive.isNone) := by
          rw [hfails, hdone, hdrive]
          rfl
        rw [leftIn_with, leftIn_eq hdrive, hcost]
        have hle := left_effect hstate hholds hbudgets hbind huncounted now hfollows
        cases hfailure : phase.isFailure
        · simpa using hle
        · cases drive with
          | none =>
            rw [Nat.add_comm]
            exact left_failure hstate hbudgets hfailure huncounted now
          | some next => simpa using hle
    · rw [if_neg hdone] at hconsistent hfails ⊢
      have hfollows := hnext.resolve_left fun hnext => hdone hnext.1
      refine ⟨⟨hconsistent, fun next hmem => ?_⟩, ?_⟩
      · rcases hfollows with ⟨error, rfl⟩ | rfl
        · exact budgets_caught next hmem
        · cases hmem
      · have hzero : (p.failsDrive s a).toNat = 0 := by simp [hfails, hdone]
        rw [hzero, Nat.zero_add, leftIn_with, leftIn_eq hdrive]
        exact left_idle hstate hfollows
  · have hphase : phase.Holds (s.stores.status (p.uploadedIntent current).id).state :=
      hs.consistent _ hdrive
    have hrecorded := (bind_act hphase hact).2.1
    exact absurd hrecorded (Bool.eq_false_iff.mp hstate)

end Left

/-! ## The main result -/

/-- **As many drives fail as there are attempts, and the intent is failed after the last**, where
every drive that fails has counted its attempt, or waited for an upload. -/
theorem drive_gives_up {p : DrivenIntent} {s w : DriveState} (hdrive : s.drive = none)
    (hpending : (p.row s).state = .pending) (hattempts : s.attempts = 0) {as : List DriveAction}
    (hrun : Machine.run p.act s as = some w)
    (hfresh : Machine.Meets p.act (fun s _ => (p.row s).state.recorded = false) s as)
    (hcounts : Machine.Meets p.act (fun s a => failsEarly s a = false) s as) :
    p.failures s as ≤ max 1 p.publishRetryLimit ∧
      (p.failures s as = max 1 p.publishRetryLimit →
        (p.row w).state = .failed ∨ (p.row w).state.recorded = true) := by
  have hsound : p.Sound s := by
    refine ⟨fun phase hphase => ?_, fun phase hphase => ?_⟩
    · rw [hdrive] at hphase
      cases hphase
    · rw [hdrive] at hphase
      cases hphase
  have hleft : p.leftIn s = max 1 p.publishRetryLimit := by
    rw [leftIn_eq hdrive, hpending, hattempts, left_eq rfl fun h => by cases h]
    simp [counted]
  have hstep : ∀ s a s', (p.row s).state.recorded = false ∧ failsEarly s a = false → p.Sound s →
      p.act s a = some s' → p.Sound s' ∧ (p.failsDrive s a).toNat + p.leftIn s' ≤ p.leftIn s :=
    fun s a s' hcond hs h => drive_left hs hcond.1 hcond.2 h
  have hpaid : p.failures s as + p.leftIn w ≤ max 1 p.publishRetryLimit :=
    hleft ▸ Machine.total_add_le hstep (hfresh.and hcounts) hrun hsound
  refine ⟨by omega, fun hall => ?_⟩
  by_contra hnot
  obtain ⟨hfailed, hrecorded⟩ := not_or.mp hnot
  have hpos : 0 < p.leftIn w :=
    left_pos (Bool.eq_false_iff.mpr hrecorded) fun h => absurd h hfailed
  omega

/-! ## Runs -/

/-- An intent with one attempt. -/
def oneAttempt : DrivenIntent := { drivenIntent with publishRetryLimit := 1 }

/-- The intent has been created. -/
def pendingState : DriveState :=
  { uploadedState with
    stores := { committedMessage with status := fun _ => ⟨.pending, 0, none⟩ }
    attempts := 0
    operationId := none
    artifactId := none
    descriptor := none
    asked := [] }

/-- The file is captured, and its upload is rejected. -/
def uploadRejected : List DriveAction :=
  [.start] ++ proceeds 1 ++
    [.proceed [("id", .str "op"), ("phase", .str "captured")] "" 0] ++ proceeds 4 ++
    [.proceed [("artifact_id", .str "a0"), ("url", .str "u"), ("token", .str "t0")] "" 0] ++
    proceeds 1 ++ [.fail "Workspace control rejected the request" 0 true] ++ proceeds 2

theorem drive_gives_up_oneAttempt : ∃ w,
    Machine.run oneAttempt.act pendingState uploadRejected = some w ∧
    oneAttempt.failures pendingState uploadRejected = 1 ∧
    ((oneAttempt.row w).state = .failed ∨ (oneAttempt.row w).state.recorded = true) := by
  have hover : (Machine.run oneAttempt.act pendingState uploadRejected).map (·.drive.isNone) =
      some true := by decide +kernel
  have hone : oneAttempt.failures pendingState uploadRejected = 1 := by decide +kernel
  obtain ⟨w, hrun, -⟩ := Option.map_eq_some_iff.mp hover
  exact ⟨w, hrun, hone, (drive_gives_up rfl rfl rfl hrun (by decide +kernel)
    (by decide +kernel)).2 hone⟩

/-- The Adapter rejects the request to capture the file. -/
def captureRejected : List DriveAction :=
  [.start, .proceed [] "" 0, .fail "Workspace control rejected the request" 0 true,
    .proceed [] "" 0, .proceed [] "" 0]

/-- Nothing comes of a rejected capture. -/
theorem run_captureRejected {p : DrivenIntent} {s : DriveState} (hdrive : s.drive = none)
    (hpending : (p.row s).state = .pending) : ∃ s',
    Machine.run p.act s captureRejected = some s' ∧ s'.drive = none ∧
    (p.row s').state = .pending ∧ p.failures s captureRejected = 1 := by
  let error := "Workspace control rejected the request"
  let asked : DriveState := { s with asked := s.asked ++ [none] }
  let written := p.effect asked 0 (.retryCapture error)
  have hstart : p.act s .start = some { s with drive := some .read } := by
    rw [DrivenIntent.act, hdrive]
  have hread : p.act { s with drive := some .read } (.proceed [] "" 0) =
      some { s with drive := some (.work (p.row s) .capture) } := by
    have hdispatch : p.dispatch (p.row s) = some (.work (p.row s) .capture) := by
      rw [DrivenIntent.dispatch, hpending]
    rw [← hdispatch]
    rfl
  have hreject : p.act { s with drive := some (.work (p.row s) .capture) } (.fail error 0 true) =
      some { asked with drive := some (.handle (p.row s) error) } := rfl
  have hhandle : p.act { asked with drive := some (.handle (p.row s) error) } (.proceed [] "" 0) =
      some { asked with drive := some (.retryCapture error) } := by
    have hnext : p.next asked [] "" (.handle (p.row s) error) = some (.retryCapture error) :=
      if_pos hpending
    rw [← hnext]
    rfl
  have hwrite : p.act { asked with drive := some (.retryCapture error) } (.proceed [] "" 0) =
      some { written with drive := none } := rfl
  have hstill : (p.row written).state = .pending := state_setStatus _ _
  refine ⟨{ written with drive := none }, ?_, rfl, hstill, ?_⟩
  · simp only [captureRejected, Machine.run]
    rw [hstart, Option.bind_some, hread, Option.bind_some, hreject, Option.bind_some, hhandle,
      Option.bind_some, hwrite, Option.bind_some]
  · simp only [DrivenIntent.failures, captureRejected, Machine.total]
    rw [hstart, Option.map_some, Option.getD_some, hread, Option.map_some, Option.getD_some,
      hreject, Option.map_some, Option.getD_some, hhandle, Option.map_some, Option.getD_some,
      hwrite, Option.map_some, Option.getD_some]
    simp [DrivenIntent.failsDrive, hdrive, hwrite, DriveAction.done, DrivePhase.isFailure]

theorem run_captureRejected_replicate {p : DrivenIntent} {s : DriveState} (hdrive : s.drive = none)
    (hpending : (p.row s).state = .pending) (n : ℕ) : ∃ s',
    Machine.run p.act s (List.replicate n captureRejected).flatten = some s' ∧ s'.drive = none ∧
    (p.row s').state = .pending ∧ p.failures s (List.replicate n captureRejected).flatten = n := by
  induction n generalizing s with
  | zero => exact ⟨s, rfl, hdrive, hpending, rfl⟩
  | succ n ih =>
    obtain ⟨m, hm, hmdrive, hmpending, hone⟩ := run_captureRejected hdrive hpending
    obtain ⟨s', hrun, hs'⟩ := ih hmdrive hmpending
    refine ⟨s', ?_, hs'.1, hs'.2.1, ?_⟩
    · rw [List.replicate_succ, List.flatten_cons, Machine.run_append, hm, Option.bind_some, hrun]
    · rw [List.replicate_succ, List.flatten_cons, DrivenIntent.failures, Machine.total_append hm]
      have hrest := hs'.2.2
      rw [DrivenIntent.failures] at hone hrest
      rw [hone, hrest, Nat.add_comm]

/-- **An intent whose captures are rejected stays pending**, however many they are. -/
theorem not_drive_gives_up : ¬ ∃ bound, ∀ as w,
    Machine.run drivenIntent.act pendingState as = some w →
    bound ≤ drivenIntent.failures pendingState as → (drivenIntent.row w).state ≠ .pending := by
  rintro ⟨bound, hbound⟩
  obtain ⟨w, hrun, -, hpending, hmany⟩ :=
    run_captureRejected_replicate (p := drivenIntent) (s := pendingState) rfl rfl bound
  exact hbound _ w hrun hmany.ge hpending

end CodexGateway.OpenWebui
