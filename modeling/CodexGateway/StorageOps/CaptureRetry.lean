import CodexGateway.Library.Machine
import CodexGateway.StorageOps.FirstCapture
import Mathlib.Logic.Function.Iterate

/-!
# StorageOps/CaptureRetry — a capture after captures that have failed

An attempt of `capture` may raise or be killed between any two of its file operations, and the next
one starts from what it has left in the spool.  Both files are written under a temporary name that
is opened for exclusive creation and never removed, so one attempt that dies over a temporary file
is the end of the operation: every later attempt finds the file there (`capture_retried_iff`).
-/

namespace CodexGateway.StorageOps

variable {H : Type} [DecidableEq H] (sha256 : Bytes → H) (input : TaskInput)

/-! ## The attempts of one operation -/

/-- The storage of an operation that is new. -/
def Storage.new : Storage H := ⟨none, Spool.empty, fun _ => none, [], []⟩

/-- What happens to the attempts. -/
inductive AttemptAction where
  /-- the Manager starts the task, with the file as it is now -/
  | begin (source : Option Bytes)
  | step
  /-- the task raises, is killed, or has come to its end -/
  | die

/-- What an action does, where it can happen. -/
def attemptStep (s : Storage H × Option (Stage H)) :
    AttemptAction → Option (Storage H × Option (Stage H))
  | .begin source =>
    if s.2.isNone then some ({ s.1 with source := source }, some .captureCheck) else none
  | .step => s.2.bind fun stage =>
    if stage.ended then none
    else some ((taskStep sha256 input s.1 false stage).1,
      some (taskStep sha256 input s.1 false stage).2)
  | .die => s.2.map fun _ => (s.1, none)

/-- `capture` from its beginning to its end. -/
def capture (st : Storage H) : Storage H × Stage H :=
  Nat.iterate (fun s : Storage H × Stage H => taskStep sha256 input s.1 false s.2) 8
    (st, .captureCheck)

/-- What the next attempt needs: that the one that has committed its manifest has captured the same
bytes, or that none has and no temporary file is left. -/
def Spool.retryable (spool : Spool H) (file : Bytes) : Prop :=
  match spool.manifest with
  | some manifest => manifest.size = file.length ∧ manifest.sha256 = sha256 file
  | none => spool.contentPart = none ∧ spool.manifestPart = none

/-- The capture succeeds with the size and the digest of the file. -/
def Yields (st : Storage H) (file : Bytes) : Prop :=
  ∃ result, (capture sha256 input { st with source := some file }).2 = .captured result ∧
    result.size = file.length ∧ result.sha256 = sha256 file

/-! ## What an attempt finds -/

/-- Every attempt keeps the capture of the first manifest. -/
def Attempted (s : Storage H × Option (Stage H)) : Prop :=
  match s.2 with
  | none => s.1.Kept sha256 input "" False
  | some stage => s.1.Kept sha256 input "" False ∧ stage.ofCapture = true ∧
      stage.Sound sha256 input "" s.1

variable {sha256 input}

omit [DecidableEq H] in
theorem not_removing {stage : Stage H} (h : stage.ofCapture = true) : stage.removing = false := by
  cases stage <;> first | rfl | cases h

theorem attempted_step {s s' : Storage H × Option (Stage H)} {a : AttemptAction}
    (hs : Attempted sha256 input s)
    (h : attemptStep sha256 input s a = some s') :
    Attempted sha256 input s' := by
  obtain ⟨st, stage?⟩ := s
  cases a with
  | begin source =>
    simp only [attemptStep] at h
    split_ifs at h with hidle
    cases h
    obtain rfl := Option.isNone_iff_eq_none.mp hidle
    have hs : st.Kept sha256 input "" False := hs
    exact ⟨hs.frame rfl rfl rfl rfl (.inr rfl), rfl, trivial⟩
  | step =>
    obtain ⟨stage, rfl, h⟩ := Option.bind_eq_some_iff.mp h
    split_ifs at h
    cases h
    obtain ⟨hkept, hcapture, hsound⟩ := hs
    have hremoving : stage.removing = true → False := by simp [not_removing hcapture]
    obtain ⟨hkept', hsound'⟩ := taskStep_kept (hkept.mono False.elim) hsound false
    have hcapture' := (taskStep_of sha256 input st stage false).1 hcapture
    exact ⟨hkept'.mono (by simp [not_removing hcapture']), hcapture', hsound'⟩
  | die =>
    obtain ⟨stage, rfl, h⟩ := Option.map_eq_some_iff.mp h
    cases h
    exact hs.1

theorem attempted_run {s : Storage H × Option (Stage H)} {as : List AttemptAction}
    (hrun : Machine.run (attemptStep sha256 input) (.new, none) as = some s) :
    Attempted sha256 input s :=
  Machine.run_keeps (fun _ _ _ => attempted_step) hrun
    (show Storage.Kept sha256 input "" False (.new : Storage H) from .fresh rfl rfl rfl rfl)

/-! ## The next attempt -/

section Capture

variable {st : Storage H} {file : Bytes}

/-- A capture that is there is returned. -/
theorem capture_of_manifest (hallowed : input.sourceAllowed = true) {content : Bytes}
    (hmanifest : st.spool.manifest = some (input.manifestOf sha256 content))
    (hcontent : st.spool.content = some content) :
    (capture sha256 input st).2 = .captured (input.manifestOf sha256 content) := by
  have hverify := verifyCaptureContent_manifestOf sha256 input content
  have hsource : (input.manifestOf sha256 content).source = input.source := rfl
  simp [capture, taskStep, hallowed, hmanifest, hcontent, hverify, hsource]

/-- Without a manifest the file is copied, where neither temporary file is in the way. -/
theorem capture_of_none (hallowed : input.sourceAllowed = true)
    (hlimit : file.length ≤ input.maxBytes) (hsource : st.source = some file)
    (hnone : st.spool.manifest = none) :
    (capture sha256 input st).2 =
      if st.spool.contentPart.isSome ∨ st.spool.manifestPart.isSome then .failed "File exists"
      else .captured (input.manifestOf sha256 file) := by
  have hlimit : ¬ input.maxBytes < file.length := Nat.not_lt.mpr hlimit
  cases hpart : st.spool.contentPart with
  | some bytes => simp [capture, taskStep, hallowed, hnone, hsource, hpart]
  | none =>
    cases hmanifest : st.spool.manifestPart with
    | some manifest => simp [capture, taskStep, hallowed, hnone, hsource, hpart, hmanifest, hlimit]
    | none => simp [capture, taskStep, hallowed, hnone, hsource, hpart, hmanifest, hlimit]

end Capture

/-- **A capture can be repeated** exactly as long as no attempt has died over a temporary file, and
the file is still the one whose capture has been committed, if one has. -/
theorem capture_retried_iff (sha256 : Bytes → H) (input : TaskInput)
    (hallowed : input.sourceAllowed = true) (as : List AttemptAction) (st : Storage H)
    (hrun : Machine.run (attemptStep sha256 input) (.new, none) as = some (st, none))
    (file : Bytes) (hlimit : file.length ≤ input.maxBytes) :
    Yields sha256 input st file ↔ st.spool.retryable sha256 file := by
  have hkept : st.Kept sha256 input "" False := attempted_run hrun
  cases hkept with
  | fresh captures uploads artifact manifest =>
    have hcapture : (capture sha256 input { st with source := some file }).2 = _ :=
      capture_of_none hallowed hlimit rfl manifest
    rw [Yields, hcapture, Spool.retryable, manifest]
    constructor
    · rintro ⟨result, hresult, -, -⟩
      split_ifs at hresult with hpart
      rw [not_or, Option.not_isSome_iff_eq_none, Option.not_isSome_iff_eq_none] at hpart
      exact hpart
    · rintro ⟨hcontent, hmanifest⟩
      exact ⟨_, if_neg (by simp [hcontent, hmanifest]), rfl, rfl⟩
  | captured content captures allowed uploads artifact spool =>
    obtain ⟨hmanifest, hcontent⟩ := spool id
    have hcapture : (capture sha256 input { st with source := some file }).2 = _ :=
      capture_of_manifest hallowed hmanifest hcontent
    rw [Yields, hcapture, Spool.retryable, hmanifest]
    constructor
    · rintro ⟨result, hresult, hsize, hsha256⟩
      cases hresult
      exact ⟨hsize, hsha256⟩
    · rintro ⟨hsize, hsha256⟩
      exact ⟨_, rfl, hsize, hsha256⟩

/-! ## An attempt that dies over its copy -/

/-- A file of three bytes, with the bytes as their own digest. -/
def sampleTask : TaskInput := ⟨"outputs/m1/report.txt", "report.txt", true, 8⟩

/-- The first attempt is killed before anything is written, the second once its copy is there. -/
def sampleAttempts : List AttemptAction :=
  [.begin (some [1, 2]), .step, .die, .begin (some [1, 2, 3]), .step, .step, .step, .step, .die]

/-- A content that has been copied. -/
def sampleCopied : Storage Bytes :=
  ⟨some [1, 2, 3], ⟨none, some [1, 2, 3], none, none⟩, fun _ => none, [], []⟩

theorem capture_retried_iff_sample : Yields id sampleTask sampleCopied [1, 2, 3] :=
  (capture_retried_iff id sampleTask rfl sampleAttempts sampleCopied rfl [1, 2, 3]
    (by decide)).mpr ⟨rfl, rfl⟩

/-- An attempt that is killed over its copy is the last one that had a chance. -/
theorem capture_retried_killed :
    ¬ ∀ (as : List AttemptAction) (st : Storage Bytes),
      Machine.run (attemptStep (id : Bytes → Bytes) sampleTask) (.new, none) as = some (st, none) →
      ∀ file : Bytes, file.length ≤ sampleTask.maxBytes → Yields id sampleTask st file := by
  intro h
  obtain ⟨result, hresult, -⟩ := h [.begin (some [1, 2, 3]), .step, .step, .die] _ rfl [1, 2, 3]
    (by decide)
  cases hresult

end CodexGateway.StorageOps
