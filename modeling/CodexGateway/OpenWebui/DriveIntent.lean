import CodexGateway.OpenWebui.BindPublished

/-!
# OpenWebui/DriveIntent — an uploaded intent is only bound

A drive takes an intent as far as it comes: the file is captured, then uploaded, then bound to its
message.  Whatever is raised on the way ends in one handler, which reads the intent again and writes
what is tried next: a `pending` intent stays so, and of any other the upload is tried once more.

The handler does not look whether the Artifact has been recorded by then.  An exception of the
binding, be it the emitter's after the intent is `ready`, takes the intent back to `retryable` or
`failed`, and it is uploaded again.  A run keeps every intent that was recorded just where no such
write is made (`drive_keeps_iff`).
-/

namespace CodexGateway.OpenWebui

open PyJson SandboxApi

/-! ## An intent -/

/-- An intent, with what is set for all of them. -/
structure DrivenIntent extends MessageIntents where
  id : String
  ownerUserId : String
  /-- `str` of a value -/
  str : Json → String

/-- What a drive reads of the row of an intent. -/
structure IntentRow where
  state : IntentState
  attempts : ℕ
  operationId : Option String
  artifactId : Option String
  descriptor : Option Descriptor

/-- An upload target of the Artifact Service. -/
structure UploadTarget where
  artifactId : String
  url : Json
  token : Json

/-! ## A drive -/

/-- What a drive awaits before anything is raised. -/
inductive DriveStep where
  | capture
  | setCaptured (operationId : String)
  | setOperation (operationId : String) (failure : Option String)
  | captureFailed (error : String)
  | reread
  | user
  | permission
  | target
  | count (target : UploadTarget)
  | publish (target : UploadTarget)
  | setUploading (operationId : String) (operation : Members)
  | waitUpload (operationId : String)
  | current (operation : Members)
  | wait (operationId : String)
  | giveUp (error : String)
  | retryUpload (current : IntentRow) (error : String)
  | setUploaded (descriptor : Descriptor)
  | uploaded
  | bind (current : IntentRow) (phase : BindPhase)

/-- The same with the intent as it was read, and what its handler awaits. -/
inductive DrivePhase where
  | read
  | work (intent : IntentRow) (step : DriveStep)
  | handle (intent : IntentRow) (error : String)
  | retry (intent current : IntentRow) (error : String)
  | retryCapture (error : String)

/-- The stores with the other columns of the intent, whether its owner exists, what the Adapter was
asked to publish, with a target where it is to be uploaded, and the drive that has the lock. -/
structure DriveState where
  stores : PublishState
  attempts : ℕ
  operationId : Option String
  artifactId : Option String
  descriptor : Option Descriptor
  owner : Bool
  asked : List (Option UploadTarget)
  drive : Option DrivePhase

/-- A drive gets the lock, the stores are written by others, what is awaited returns, with an answer
where it is asked for one, or raises, done or not, or the process stops. -/
inductive DriveAction where
  | start
  | others (stores : PublishState) (owner : Bool)
  | proceed (answer : Members) (error : String) (now : ℤ)
  | fail (error : String) (now : ℤ) (done : Bool)
  | cut (now : ℤ) (done : Bool)

/-- `value in names`, which raises where the value cannot be hashed. -/
def textIn (names : List String) : Json → Option Bool
  | .arr _ | .obj _ => none
  | .str s => some (decide (s ∈ names))
  | _ => some false

/-- `operation.get("status") in {"pending", "running"}` -/
def isRunning (operation : Members) : Option Bool :=
  textIn ["pending", "running"] (operation.get "status")

/-- `operation.get("phase") in {"captured", "uploading"}` -/
def isCaptured (operation : Members) : Option Bool :=
  textIn ["captured", "uploading"] (operation.get "phase")

/-- `error[:1000]` -/
def errorText (error : String) : String := String.ofList (error.toList.take 1000)

namespace DrivenIntent

variable (p : DrivenIntent)

/-- The intent's row, as the code reads it. -/
def row (s : DriveState) : IntentRow where
  state := (s.stores.status p.id).state
  attempts := s.attempts
  operationId := s.operationId
  artifactId := s.artifactId
  descriptor := s.descriptor

/-- What `_bind_published` reads of the row. -/
def uploadedIntent (current : IntentRow) : UploadedIntent :=
  ⟨p.id, p.ownerUserId, current.descriptor, current.attempts⟩

/-- `str(operation.get("error") or otherwise)` -/
def operationError (operation : Members) (otherwise : String) : String :=
  if truthy (operation.get "error") then p.str (operation.get "error") else otherwise

/-- `target["artifact_id"]`, `target["url"]` and `target["token"]` -/
def uploadTarget (target : Members) : Option UploadTarget := do
  let artifactId ← target.lookup "artifact_id"
  let url ← target.lookup "url"
  let token ← target.lookup "token"
  return ⟨p.str artifactId, url, token⟩

/-- The Artifact of an operation, where it is the one of the intent, which has one once it is
uploading. -/
def publishedArtifact (operation : Members) (artifactId : Option String) : Option Descriptor :=
  match operation.get "result" with
  | .obj result =>
    match Members.get result "artifact", artifactId with
    | .obj members, some artifactId =>
      match h : Members.get members "artifact_id" with
      | .str id => if id = artifactId then some ⟨members, id, h⟩ else none
      | _ => none
    | _, _ => none
  | _ => none

/-! ## What is awaited next -/

/-- `_upload_intent` -/
def uploadIntent (intent : IntentRow) : DrivePhase :=
  if intent.attempts ≥ p.publishRetryLimit then .work intent (.giveUp "Retry limit reached")
  else .work intent .user

/-- `_drive_intent`, once the intent is read. -/
def dispatch (intent : IntentRow) : Option DrivePhase :=
  match intent.state with
  | .ready | .failed => none
  | .uploaded | .bindingRetry => some (.work intent (.bind intent .lock))
  | .uploading => (intent.operationId.filter (· ≠ "")).map fun id => .work intent (.wait id)
  | .pending => some (.work intent .capture)
  | .captured | .retryable => some (p.uploadIntent intent)

/-- `_capture_intent`, with the answer of the Adapter. -/
def captured (intent : IntentRow) (operation : Members) (error : String) : DrivePhase :=
  match text? (operation.get "id") with
  | none => .handle intent "Publish operation has no id"
  | some id =>
    match isCaptured operation with
    | none => .handle intent error
    | some true => .work intent (.setCaptured id)
    | some false => .work intent (.setOperation id
        (if text? (operation.get "status") = some "failed" then
          some (p.operationError operation "Artifact capture failed")
        else none))

/-- `_finish_publish_operation` -/
def finish (intent current : IntentRow) (operation : Members) (error : String) : DrivePhase :=
  if text? (operation.get "status") ≠ some "succeeded" then
    match isCaptured operation with
    | none => .handle intent error
    | some true => .work intent
        (.retryUpload current (p.operationError operation "Artifact upload failed"))
    | some false => .work intent (.giveUp (p.operationError operation "Artifact capture failed"))
  else match publishedArtifact operation current.artifactId with
    | none => .work intent
        (.retryUpload current "Publish operation returned an invalid Artifact")
    | some descriptor => .work intent (.setUploaded descriptor)

/-- A drive goes on where `_bind_published` does. -/
def bound (intent current : IntentRow) (error : String) : BindPhase → Option DrivePhase
  | .returned | .retried => none
  | .raised => some (.handle intent error)
  | phase => some (.work intent (.bind current phase))

/-- What a drive awaits after what has returned; `error` is the text where it raises then. -/
def nextStep (s : DriveState) (answer : Members) (error : String) (intent : IntentRow) :
    DriveStep → Option DrivePhase
  | .capture => some (p.captured intent answer error)
  | .setCaptured _ => some (.work intent .reread)
  | .setOperation _ none => some (.work intent .reread)
  | .setOperation _ (some failure) => some (.work intent (.captureFailed failure))
  | .captureFailed _ => some (.work intent .reread)
  | .reread => if (p.row s).state = .captured then some (p.uploadIntent (p.row s)) else none
  | .user => some (.work intent (if s.owner then .permission else .giveUp "Owner no longer exists"))
  | .permission => some (.work intent .target)
  | .target =>
    match p.uploadTarget answer with
    | none => some (.handle intent error)
    | some target => some (.work intent (.count target))
  | .count target => some (.work intent (.publish target))
  | .publish _ =>
    match text? (answer.get "id") with
    | none => some (.handle intent "Publish operation has no id")
    | some id => some (.work intent (.setUploading id answer))
  | .setUploading id operation =>
    match isRunning operation with
    | none => some (.handle intent error)
    | some true => some (.work intent (.waitUpload id))
    | some false => some (.work intent (.current operation))
  | .waitUpload id =>
    match isRunning answer with
    | none => some (.handle intent error)
    | some true => some (.work intent (.waitUpload id))
    | some false => some (.work intent (.current answer))
  | .current operation => some (p.finish intent (p.row s) operation error)
  | .wait id =>
    match isRunning answer with
    | none => some (.handle intent error)
    | some true => some (.work intent (.wait id))
    | some false => some (p.finish intent intent answer error)
  | .giveUp _ | .retryUpload _ _ => none
  | .setUploaded _ => some (.work intent .uploaded)
  | .uploaded => some (.work intent (.bind (p.row s) .lock))
  | .bind current phase => bound intent current error phase

/-- The same with the handler. -/
def next (s : DriveState) (answer : Members) (error : String) : DrivePhase → Option DrivePhase
  | .read => p.dispatch (p.row s)
  | .work intent step => p.nextStep s answer error intent step
  | .handle intent error =>
    if (p.row s).state = .pending then some (.retryCapture error)
    else some (.retry intent (p.row s) error)
  | .retry _ _ _ | .retryCapture _ => none

/-! ## What is written -/

/-- The status of the intent is written. -/
def setStatus (s : DriveState) (f : IntentStatus → IntentStatus) : DriveState :=
  { s with stores := s.stores.updatePublishIntent p.id (f (s.stores.status p.id)) }

/-- What an awaited call does. -/
def stepEffect (s : DriveState) (intent : IntentRow) (now : ℤ) : DriveStep → DriveState
  | .capture => { s with asked := s.asked ++ [none] }
  | .setCaptured id =>
    p.setStatus { s with operationId := some id }
      fun status => { status with state := .captured, error := none }
  | .setOperation id _ => { s with operationId := some id }
  | .captureFailed error | .giveUp error =>
    p.setStatus s fun status => { status with state := .failed, error := some (errorText error) }
  | .count target =>
    p.setStatus { s with artifactId := some target.artifactId, attempts := intent.attempts + 1 }
      fun status =>
        { status with nextAttemptAt := now + p.publishReconcileSeconds, error := none }
  | .publish target => { s with asked := s.asked ++ [some target] }
  | .setUploading id _ =>
    p.setStatus { s with operationId := some id } fun status => { status with state := .uploading }
  | .retryUpload current error =>
    p.setStatus s fun _ => p.retryIntent (p.uploadedIntent current) now error false
  | .setUploaded descriptor =>
    p.setStatus { s with descriptor := some descriptor }
      fun status => { status with state := .uploaded, error := none }
  | _ => s

/-- The same with the handler: `_retry_intent` and `_retry_capture_intent`. -/
def effect (s : DriveState) (now : ℤ) : DrivePhase → DriveState
  | .work intent step => p.stepEffect s intent now step
  | .retry _ current error =>
    p.setStatus s fun _ => p.retryIntent (p.uploadedIntent current) now error false
  | .retryCapture error =>
    p.setStatus s fun _ =>
      ⟨.pending, now + p.publishReconcileSeconds, some (errorText error)⟩
  | _ => s

/-! ## A step -/

/-- What follows an exception: the handler, or the end where it is raised outside. -/
def caught (error : String) : DrivePhase → Option DrivePhase
  | .work intent _ => some (.handle intent error)
  | _ => none

/-- A step of `_bind_published` in a drive. -/
def bindStep (s : DriveState) (current : IntentRow) (phase : BindPhase) (a : BindAction)
    (f : BindPhase → Option DrivePhase) : Option DriveState :=
  (p.toMessageIntents.act s.stores ⟨p.uploadedIntent current, phase⟩ a).map fun result =>
    { s with stores := result.1, drive := f result.2.phase }

/-- What a drive does, where it can. -/
def act (s : DriveState) : DriveAction → Option DriveState
  | .start =>
    match s.drive with
    | none => some { s with drive := some .read }
    | some _ => none
  | .others stores owner => some { s with
      stores := { stores with
        status := Function.update stores.status p.id (s.stores.status p.id) }
      owner := owner }
  | .proceed answer error now =>
    match s.drive with
    | none => none
    | some (.work intent (.bind current phase)) =>
      p.bindStep s current phase (.proceed now) (bound intent current error)
    | some phase => some { p.effect s now phase with drive := p.next s answer error phase }
  | .fail error now done =>
    match s.drive with
    | none | some (.work _ (.bind _ .lock)) => none
    | some (.work intent (.bind current phase)) =>
      p.bindStep s current phase (.fail now done) fun _ => some (.handle intent error)
    | some phase =>
      some { (if done then p.effect s now phase else s) with drive := caught error phase }
  | .cut now done =>
    match s.drive with
    | none => none
    | some (.work _ (.bind current phase)) =>
      p.bindStep s current phase (.fail now done) fun _ => none
    | some phase => some { (if done then p.effect s now phase else s) with drive := none }

end DrivenIntent

/-! ## What a recorded intent may become -/

/-- The descriptor of the Artifact has been recorded. -/
def IntentState.recorded : IntentState → Bool
  | .uploaded | .bindingRetry | .ready => true
  | _ => false

/-- The targets the Adapter was asked to upload to. -/
def DriveState.uploads (s : DriveState) : List UploadTarget := s.asked.reduceOption

/-- A recorded intent stays recorded, a ready one stays ready, and neither is uploaded again. -/
structure DrivenIntent.Stays (p : DrivenIntent) (s s' : DriveState) : Prop where
  ready : (p.row s).state = .ready → (p.row s').state = .ready
  recorded : (p.row s).state.recorded → (p.row s').state.recorded
  uploads : (p.row s).state.recorded → s'.uploads = s.uploads

/-- So it is between any two states of a run. -/
def DrivenIntent.Keeps (p : DrivenIntent) (s : DriveState) (as : List DriveAction) : Prop :=
  ∀ xs ys zs, as = xs ++ ys ++ zs → ∀ m m', Machine.run p.act s xs = some m →
    Machine.run p.act m ys = some m' → p.Stays m m'

/-- What was awaited has been done. -/
def DriveAction.done : DriveAction → Bool
  | .start | .others _ _ => false
  | .proceed _ _ _ => true
  | .fail _ _ done | .cut _ done => done

/-- The handler is about to write `_retry_intent`. -/
def DrivePhase.isRetry : DrivePhase → Bool
  | .retry _ _ _ => true
  | _ => false

/-- The handler writes `_retry_intent` over an intent that has been recorded. -/
def DrivenIntent.overwrites (p : DrivenIntent) (s : DriveState) (a : DriveAction) : Bool :=
  s.drive.any DrivePhase.isRetry && a.done && (p.row s).state.recorded

/-! ## What a drive relies on -/

/-- The state of the intent while it is bound. -/
def BindPhase.Holds (state : IntentState) : BindPhase → Prop
  | .lock | .retry _ => state = .uploaded ∨ state = .bindingRetry
  | .work _ (.emitter _) | .work _ (.emit _) => state = .ready
  | .work _ _ => state = .uploaded ∨ state = .bindingRetry
  | .returned | .retried | .raised => True

/-- …and in each step: it is not recorded before its binding. -/
def DriveStep.Holds (state : IntentState) : DriveStep → Prop
  | .uploaded => state = .uploaded
  | .bind _ phase => phase.Holds state
  | _ => state.recorded = false

/-- The state in which a drive may be at a place. -/
def DrivePhase.Holds (state : IntentState) : DrivePhase → Prop
  | .work _ step => step.Holds state
  | .retryCapture _ => state = .pending
  | .read | .handle _ _ | .retry _ _ _ => True

/-- What holds of the drive that has the lock. -/
def DrivenIntent.Consistent (p : DrivenIntent) (s : DriveState) : Prop :=
  ∀ phase ∈ s.drive, phase.Holds (p.row s).state

/-- The state once a call of the binding has been made. -/
def BindPhase.writes (state : IntentState) : BindPhase → IntentState
  | .work _ (.ready _) => .ready
  | .retry _ => .bindingRetry
  | _ => state

section Binding

variable {p : MessageIntents} {s s' : PublishState} {intent : UploadedIntent} {t' : BindCall}
  {phase : BindPhase} {descriptor : Descriptor} {state : IntentState}

theorem holds_registered (h : state = .uploaded ∨ state = .bindingRetry) (files : List Json) :
    (MessageIntents.registered descriptor files).Holds state := by
  rw [MessageIntents.registered]
  split_ifs
  · exact h
  · cases descriptor.entry with
    | none => trivial
    | some entry => exact h

theorem holds_reread (h : state = .uploaded ∨ state = .bindingRetry) (message : Members) :
    (MessageIntents.reread descriptor message).Holds state := by
  rw [MessageIntents.reread]
  split
  · trivial
  · exact h
  · split
    · trivial
    · exact h

/-- What a call of the binding makes of the state. -/
theorem state_effect (now : ℤ) :
    ((p.effect s intent now phase).status intent.id).state =
      phase.writes (s.status intent.id).state := by
  cases phase with
  | work descriptor step =>
    cases step with
    | register files =>
      rw [MessageIntents.effect]
      cases hreg : s.registerArtifactFile descriptor.artifactId intent.ownerUserId descriptor with
      | none => rfl
      | some s' =>
        obtain ⟨files, artifacts, rfl⟩ := registerArtifactFile_eq hreg
        rfl
    | bind filename saved =>
      rw [MessageIntents.effect, PublishState.bindMessageArtifact]
      split_ifs
      · rfl
      · rfl
    | ready saved =>
      simp [MessageIntents.effect, PublishState.updatePublishIntent, BindPhase.writes]
    | _ => rfl
  | retry error =>
    simp [MessageIntents.effect, PublishState.updatePublishIntent, BindPhase.writes,
      MessageIntents.retryIntent]
  | _ => rfl

theorem holds_next (h : phase.Holds state) :
    (p.next s intent phase).Holds (phase.writes state) := by
  cases phase with
  | lock =>
    rw [MessageIntents.next]
    cases intent.descriptor with
    | none => exact h
    | some descriptor => exact h
  | work descriptor step =>
    cases step with
    | message =>
      rw [MessageIntents.next]
      cases s.requireMessage p.messageId with
      | error e => exact h
      | ok message => exact h
    | register files =>
      rw [MessageIntents.next]
      cases s.registerArtifactFile descriptor.artifactId intent.ownerUserId descriptor with
      | none => trivial
      | some s' => exact holds_registered h files
    | upsert files =>
      rw [MessageIntents.next]
      cases s.chat with
      | none => exact h
      | some chat => exact h
    | saved =>
      rw [MessageIntents.next]
      cases s.requireMessage p.messageId with
      | error e => trivial
      | ok message => exact holds_reread h message
    | bind filename saved => exact h
    | ready saved => exact rfl
    | emitter saved => exact h
    | emit saved => trivial
  | _ => trivial

/-- What is written while the intent is bound. -/
theorem recorded_writes (h : phase.Holds state) (hin : phase.inside = true) :
    (phase.writes state).recorded = true ∧ (state = .ready → phase.writes state = .ready) := by
  have hbinding : state = .uploaded ∨ state = .bindingRetry →
      state.recorded = true ∧ state ≠ .ready := by
    rintro (rfl | rfl)
    · decide
    · decide
  cases phase with
  | work descriptor step =>
    cases step with
    | ready saved => exact ⟨rfl, fun _ => rfl⟩
    | emitter saved =>
      obtain rfl : state = .ready := h
      exact ⟨rfl, fun _ => rfl⟩
    | emit saved =>
      obtain rfl : state = .ready := h
      exact ⟨rfl, fun _ => rfl⟩
    | _ => exact ⟨(hbinding h).1, fun hready => hready⟩
  | retry error => exact ⟨rfl, fun hready => absurd hready (hbinding h).2⟩
  | _ => cases hin

theorem recorded_of_holds (h : phase.Holds state) (hover : phase = .lock ∨ phase.inside = true) :
    state.recorded = true := by
  rcases hover with rfl | hin
  · rcases h with rfl | rfl
    · rfl
    · rfl
  · cases phase with
    | work descriptor step =>
      cases step with
      | emitter saved => exact (congrArg IntentState.recorded h).trans rfl
      | emit saved => exact (congrArg IntentState.recorded h).trans rfl
      | _ =>
        rcases h with rfl | rfl
        · rfl
        · rfl
    | retry error =>
      rcases h with rfl | rfl
      · rfl
      · rfl
    | _ => cases hin

/-- **A step of the binding keeps a recorded intent recorded, and a ready one ready.** -/
theorem bind_act {a : BindAction} (hphase : phase.Holds (s.status intent.id).state)
    (h : p.act s ⟨intent, phase⟩ a = some (s', t')) :
    t'.phase.Holds (s'.status intent.id).state ∧ (s.status intent.id).state.recorded = true ∧
      (s'.status intent.id).state.recorded = true ∧
      ((s.status intent.id).state = .ready → (s'.status intent.id).state = .ready) := by
  rcases act_cases h with ⟨hlock, -, hgoto⟩ | ⟨hlock, hraise⟩ | ⟨hin, now, hgoto⟩
  · obtain ⟨⟨lock, rfl⟩, -, rfl⟩ := goto_eq hgoto
    have hrecorded := recorded_of_holds hphase (.inl hlock)
    have hnext : (p.next s intent phase).Holds (phase.writes (s.status intent.id).state) :=
      holds_next hphase
    obtain rfl : phase = .lock := hlock
    exact ⟨hnext, hrecorded, hrecorded, fun hready => hready⟩
  · obtain ⟨rfl, rfl⟩ := Prod.mk.inj hraise
    have hrecorded := recorded_of_holds hphase (.inl hlock)
    exact ⟨trivial, hrecorded, hrecorded, fun hready => hready⟩
  · have hrecorded := recorded_of_holds hphase (.inr hin)
    have hwrites := recorded_writes hphase hin
    rw [← state_effect (p := p) now] at hwrites
    rcases hgoto with hgoto | hgoto | hgoto
    · obtain ⟨⟨lock, rfl⟩, -, rfl⟩ := goto_eq hgoto
      have hnext : (p.next s intent phase).Holds (phase.writes (s.status intent.id).state) :=
        holds_next hphase
      rw [← state_effect (p := p) now] at hnext
      exact ⟨hnext, hrecorded, hwrites⟩
    · obtain ⟨⟨lock, rfl⟩, -, rfl⟩ := goto_eq hgoto
      exact ⟨trivial, hrecorded, hwrites⟩
    · obtain ⟨⟨lock, rfl⟩, -, rfl⟩ := goto_eq hgoto
      exact ⟨trivial, hrecorded, hrecorded, fun hready => hready⟩

end Binding

/-! ## A drive -/

section Drive

variable {p : DrivenIntent} {s s' : DriveState} {intent current : IntentRow} {state : IntentState}
  {step : DriveStep} {operation answer : Members} {error : String}

@[simp]
theorem state_setStatus (s : DriveState) (f : IntentStatus → IntentStatus) :
    (p.row (p.setStatus s f)).state = (f (s.stores.status p.id)).state := by
  simp [DrivenIntent.row, DrivenIntent.setStatus, PublishState.updatePublishIntent]

/-- Without its binding, an intent is tried from its upload on, or not at all. -/
theorem state_retryIntent (m : MessageIntents) (intent : UploadedIntent) (now : ℤ)
    (error : String) : (m.retryIntent intent now error false).state =
      if intent.attempts ≥ m.publishRetryLimit then .failed else .retryable := by
  rw [MessageIntents.retryIntent]
  dsimp only
  rw [if_neg Bool.false_ne_true]

theorem recorded_retryIntent (m : MessageIntents) (intent : UploadedIntent) (now : ℤ)
    (error : String) : (m.retryIntent intent now error false).state.recorded = false := by
  rw [state_retryIntent]
  split_ifs
  · rfl
  · rfl

theorem stays_of_unrecorded (h : (p.row s).state.recorded = false) : p.Stays s s' where
  ready hready := by
    rw [hready] at h
    cases h
  recorded hrecorded := absurd hrecorded (by simp [h])
  uploads hrecorded := absurd hrecorded (by simp [h])

theorem stays_of_eq (hstate : (p.row s').state = (p.row s).state) (hasked : s'.asked = s.asked) :
    p.Stays s s' where
  ready hready := hstate.trans hready
  recorded hrecorded := by rwa [hstate]
  uploads _ := by rw [DriveState.uploads, hasked, DriveState.uploads]

theorem DrivenIntent.Stays.trans {m : DriveState} (h : p.Stays s m) (h' : p.Stays m s') :
    p.Stays s s' where
  ready hready := h'.ready (h.ready hready)
  recorded hrecorded := h'.recorded (h.recorded hrecorded)
  uploads hrecorded := (h'.uploads (h.recorded hrecorded)).trans (h.uploads hrecorded)

theorem holds_uploadIntent (h : state.recorded = false) : (p.uploadIntent intent).Holds state := by
  rw [DrivenIntent.uploadIntent]
  split_ifs
  · exact h
  · exact h

theorem holds_dispatch : ∀ phase ∈ p.dispatch intent, phase.Holds intent.state := by
  intro phase hphase
  rw [DrivenIntent.dispatch] at hphase
  split at hphase
  · cases hphase
  · cases hphase
  · rename_i hstate
    obtain rfl := Option.some.inj hphase
    exact .inl hstate
  · rename_i hstate
    obtain rfl := Option.some.inj hphase
    exact .inr hstate
  · rename_i hstate
    obtain ⟨id, -, rfl⟩ := Option.map_eq_some_iff.mp hphase
    exact (congrArg IntentState.recorded hstate).trans rfl
  · rename_i hstate
    obtain rfl := Option.some.inj hphase
    exact (congrArg IntentState.recorded hstate).trans rfl
  · rename_i hstate
    obtain rfl := Option.some.inj hphase
    exact holds_uploadIntent ((congrArg IntentState.recorded hstate).trans rfl)
  · rename_i hstate
    obtain rfl := Option.some.inj hphase
    exact holds_uploadIntent ((congrArg IntentState.recorded hstate).trans rfl)

theorem holds_captured (h : state.recorded = false) :
    (p.captured intent operation error).Holds state := by
  rw [DrivenIntent.captured]
  split
  · trivial
  · split
    · trivial
    · exact h
    · exact h

theorem holds_finish (h : state.recorded = false) :
    (p.finish intent current operation error).Holds state := by
  rw [DrivenIntent.finish]
  split_ifs
  · split
    · trivial
    · exact h
    · exact h
  · split
    · exact h
    · exact h

/-- A drive does not record the Artifact before the upload has succeeded. -/
theorem holds_nextStep (h : step.Holds (p.row s).state)
    (hbind : ∀ current phase, step ≠ .bind current phase) (now : ℤ) :
    ∀ phase ∈ p.nextStep s answer error intent step,
      phase.Holds (p.row (p.stepEffect s intent now step)).state := by
  intro phase hphase
  cases step with
  | capture =>
    obtain rfl := Option.some.inj hphase
    exact holds_captured h
  | setCaptured id =>
    obtain rfl := Option.some.inj hphase
    exact (congrArg IntentState.recorded (state_setStatus _ _)).trans rfl
  | setOperation id failure =>
    cases failure with
    | none =>
      obtain rfl := Option.some.inj hphase
      exact h
    | some failure =>
      obtain rfl := Option.some.inj hphase
      exact h
  | captureFailed failure =>
    obtain rfl := Option.some.inj hphase
    exact (congrArg IntentState.recorded (state_setStatus _ _)).trans rfl
  | reread =>
    rw [DrivenIntent.nextStep] at hphase
    split_ifs at hphase
    · obtain rfl := Option.some.inj hphase
      exact holds_uploadIntent h
    · cases hphase
  | user =>
    obtain rfl := Option.some.inj hphase
    cases s.owner
    · exact h
    · exact h
  | permission =>
    obtain rfl := Option.some.inj hphase
    exact h
  | target =>
    rw [DrivenIntent.nextStep] at hphase
    split at hphase
    · obtain rfl := Option.some.inj hphase
      trivial
    · obtain rfl := Option.some.inj hphase
      exact h
  | count target =>
    obtain rfl := Option.some.inj hphase
    exact (congrArg IntentState.recorded (state_setStatus _ _)).trans h
  | publish target =>
    rw [DrivenIntent.nextStep] at hphase
    split at hphase
    · obtain rfl := Option.some.inj hphase
      trivial
    · obtain rfl := Option.some.inj hphase
      exact h
  | setUploading id operation =>
    have huploading : (p.row (p.stepEffect s intent now (.setUploading id operation))).state =
      .uploading := state_setStatus _ _
    rw [huploading]
    rw [DrivenIntent.nextStep] at hphase
    split at hphase
    · obtain rfl := Option.some.inj hphase
      trivial
    · obtain rfl := Option.some.inj hphase
      exact rfl
    · obtain rfl := Option.some.inj hphase
      exact rfl
  | waitUpload id =>
    rw [DrivenIntent.nextStep] at hphase
    split at hphase
    · obtain rfl := Option.some.inj hphase
      trivial
    · obtain rfl := Option.some.inj hphase
      exact h
    · obtain rfl := Option.some.inj hphase
      exact h
  | current operation =>
    obtain rfl := Option.some.inj hphase
    exact holds_finish h
  | wait id =>
    rw [DrivenIntent.nextStep] at hphase
    split at hphase
    · obtain rfl := Option.some.inj hphase
      trivial
    · obtain rfl := Option.some.inj hphase
      exact h
    · obtain rfl := Option.some.inj hphase
      exact holds_finish h
  | giveUp error => cases hphase
  | retryUpload current error => cases hphase
  | setUploaded descriptor =>
    obtain rfl := Option.some.inj hphase
    exact state_setStatus _ _
  | uploaded =>
    obtain rfl := Option.some.inj hphase
    exact .inl h
  | bind current phase => exact absurd rfl (hbind current phase)

/-- The binding is what is awaited. -/
def DrivePhase.isBind : DrivePhase → Bool
  | .work _ (.bind _ _) => true
  | _ => false

/-- A drive gets the lock, or nothing but other columns is written, or an awaited call is over, or a
step of the binding is. -/
theorem drive_cases {a : DriveAction} (h : p.act s a = some s') :
    (a.done = false ∧ p.row s' = p.row s ∧ s'.asked = s.asked ∧
      (s'.drive = s.drive ∨ s.drive = none ∧ s'.drive = some .read)) ∨
    (∃ phase, s.drive = some phase ∧ phase.isBind = false ∧ ∃ now drive,
      s' = { (if a.done then p.effect s now phase else s) with drive := drive } ∧
      ((a.done = true ∧ ∃ answer error, drive = p.next s answer error phase) ∨
        (∃ error, drive = DrivenIntent.caught error phase) ∨ drive = none)) ∨
    ∃ intent current phase, s.drive = some (.work intent (.bind current phase)) ∧
      ∃ b stores t, p.toMessageIntents.act s.stores ⟨p.uploadedIntent current, phase⟩ b =
        some (stores, t) ∧ ∃ drive, s' = { s with stores := stores, drive := drive } ∧
        (drive = none ∨ ∃ error, drive = some (.handle intent error) ∨
          drive = DrivenIntent.bound intent current error t.phase) := by
  cases a with
  | start =>
    rw [DrivenIntent.act] at h
    split at h
    · rename_i hdrive
      obtain rfl := Option.some.inj h
      exact .inl ⟨rfl, rfl, rfl, .inr ⟨hdrive, rfl⟩⟩
    · cases h
  | others stores owner =>
    obtain rfl := Option.some.inj h
    exact .inl ⟨rfl, by simp [DrivenIntent.row], rfl, .inl rfl⟩
  | proceed answer error now =>
    rw [DrivenIntent.act] at h
    split at h
    · cases h
    · rename_i intent current phase hdrive
      obtain ⟨⟨stores, t⟩, hact, rfl⟩ := Option.map_eq_some_iff.mp h
      exact .inr (.inr ⟨intent, current, phase, hdrive, _, stores, t, hact, _, rfl,
        .inr ⟨error, .inr rfl⟩⟩)
    · rename_i phase hbind hdrive
      obtain rfl := Option.some.inj h
      refine .inr (.inl ⟨phase, hdrive, ?_, now, _, rfl, .inl ⟨rfl, answer, error, rfl⟩⟩)
      rw [DrivePhase.isBind]
      exact hbind
  | fail error now done =>
    rw [DrivenIntent.act] at h
    split at h
    · cases h
    · cases h
    · rename_i intent current phase _ hdrive
      obtain ⟨⟨stores, t⟩, hact, rfl⟩ := Option.map_eq_some_iff.mp h
      exact .inr (.inr ⟨intent, current, phase, hdrive, _, stores, t, hact, _, rfl,
        .inr ⟨error, .inl rfl⟩⟩)
    · rename_i phase _ hbind hdrive
      obtain rfl := Option.some.inj h
      refine .inr (.inl ⟨phase, hdrive, ?_, now, _, rfl, .inr (.inl ⟨error, rfl⟩)⟩)
      rw [DrivePhase.isBind]
      exact hbind
  | cut now done =>
    rw [DrivenIntent.act] at h
    split at h
    · cases h
    · rename_i intent current phase hdrive
      obtain ⟨⟨stores, t⟩, hact, rfl⟩ := Option.map_eq_some_iff.mp h
      exact .inr (.inr ⟨intent, current, phase, hdrive, _, stores, t, hact, _, rfl, .inl rfl⟩)
    · rename_i phase hbind hdrive
      obtain rfl := Option.some.inj h
      refine .inr (.inl ⟨phase, hdrive, ?_, now, _, rfl, .inr (.inr rfl)⟩)
      rw [DrivePhase.isBind]
      exact hbind

theorem holds_bound {phase : BindPhase} (h : phase.Holds state) :
    ∀ next ∈ DrivenIntent.bound intent current error phase, next.Holds state := by
  intro next hnext
  cases phase with
  | returned => cases hnext
  | retried => cases hnext
  | raised =>
    obtain rfl := Option.some.inj hnext
    trivial
  | lock =>
    obtain rfl := Option.some.inj hnext
    exact h
  | work descriptor step =>
    obtain rfl := Option.some.inj hnext
    exact h
  | retry error =>
    obtain rfl := Option.some.inj hnext
    exact h

/-- What a drive awaits next may rely on what has been done. -/
theorem holds_drive {phase : DrivePhase} (h : phase.Holds (p.row s).state)
    (hbind : phase.isBind = false) (now : ℤ) :
    ∀ next ∈ p.next s answer error phase, next.Holds (p.row (p.effect s now phase)).state := by
  intro next hnext
  cases phase with
  | read => exact holds_dispatch next hnext
  | work intent step =>
    refine holds_nextStep h ?_ now next hnext
    rintro current phase rfl
    cases hbind
  | handle intent error =>
    rw [DrivenIntent.next] at hnext
    split_ifs at hnext with hpending
    · obtain rfl := Option.some.inj hnext
      exact hpending
    · obtain rfl := Option.some.inj hnext
      trivial
  | retry intent current error => cases hnext
  | retryCapture error => cases hnext

/-- **Of all that is awaited outside the binding, only the handler takes an intent back.** -/
theorem stays_effect {phase : DrivePhase} (h : phase.Holds (p.row s).state)
    (hbind : phase.isBind = false) (now : ℤ) :
    p.Stays s (p.effect s now phase) ↔
      (phase.isRetry = true → (p.row s).state.recorded = false) := by
  cases phase with
  | read => exact iff_of_true (stays_of_eq rfl rfl) (by simp [DrivePhase.isRetry])
  | handle intent error => exact iff_of_true (stays_of_eq rfl rfl) (by simp [DrivePhase.isRetry])
  | retryCapture error =>
    have hpending : (p.row s).state = .pending := h
    exact iff_of_true (stays_of_unrecorded (by rw [hpending]; rfl)) (by simp [DrivePhase.isRetry])
  | work intent step =>
    refine iff_of_true ?_ (by simp [DrivePhase.isRetry])
    cases step with
    | uploaded => exact stays_of_eq rfl rfl
    | bind current phase => cases hbind
    | _ => exact stays_of_unrecorded h
  | retry intent current error =>
    refine ⟨fun hstays _ => Bool.eq_false_iff.mpr fun hrecorded => ?_,
      fun hretry => stays_of_unrecorded (hretry rfl)⟩
    have hstate := hstays.recorded hrecorded
    rw [DrivenIntent.effect, state_setStatus, recorded_retryIntent] at hstate
    cases hstate

/-- **A step keeps what was recorded just where the handler does not write over it.** -/
theorem drive_step {a : DriveAction} (hs : p.Consistent s) (h : p.act s a = some s') :
    p.Consistent s' ∧ (p.Stays s s' ↔ p.overwrites s a = false) := by
  rcases drive_cases h with ⟨hdone, hrow, hasked, hdrive⟩ |
    ⟨phase, hdrive, hbind, now, drive, rfl, hnext⟩ |
    ⟨intent, current, phase, hdrive, b, stores, t, hact, drive, rfl, hnext⟩
  · have hstate := congrArg IntentRow.state hrow
    refine ⟨fun phase hphase => ?_, iff_of_true (stays_of_eq hstate hasked) ?_⟩
    · rcases hdrive with hdrive | ⟨-, hdrive⟩
      · rw [hdrive] at hphase
        rw [hstate]
        exact hs phase hphase
      · rw [hdrive] at hphase
        obtain rfl := Option.some.inj hphase
        trivial
    · simp [DrivenIntent.overwrites, hdone]
  · have hphase := hs phase hdrive
    have hconsistent : a.done = true ∧ (∃ answer error, drive = p.next s answer error phase) ∨
        (∃ error, drive = DrivenIntent.caught error phase) ∨ drive = none →
        ∀ next ∈ drive, next.Holds
          (p.row (if a.done then p.effect s now phase else s)).state := by
      rintro (⟨hdone, answer, error, rfl⟩ | ⟨error, rfl⟩ | rfl) next hnext
      · rw [if_pos hdone]
        exact holds_drive hphase hbind now next hnext
      · cases phase with
        | work intent step =>
          obtain rfl := Option.some.inj hnext
          trivial
        | _ => cases hnext
      · cases hnext
    refine ⟨hconsistent hnext, ?_⟩
    have hover : p.overwrites s a = (phase.isRetry && a.done && (p.row s).state.recorded) := by
      rw [DrivenIntent.overwrites, hdrive, Option.any_some]
    rw [hover]
    by_cases hdone : a.done = true
    · have heffect := stays_effect hphase hbind now
      rw [hdone, if_pos rfl]
      have hsame : p.Stays s { p.effect s now phase with drive := drive } ↔
          p.Stays s (p.effect s now phase) :=
        ⟨fun h => ⟨h.ready, h.recorded, h.uploads⟩, fun h => ⟨h.ready, h.recorded, h.uploads⟩⟩
      rw [hsame, heffect]
      cases phase.isRetry
      · simp
      · simp
    · rw [if_neg hdone]
      exact iff_of_true (stays_of_eq rfl rfl) (by simp [hdone])
  · have hphase : phase.Holds (s.stores.status (p.uploadedIntent current).id).state :=
      hs _ hdrive
    obtain ⟨hholds, hrecorded, hrecorded', hready⟩ := bind_act hphase hact
    refine ⟨fun next hmem => ?_, iff_of_true ⟨hready, fun _ => hrecorded', fun _ => rfl⟩ ?_⟩
    · rcases hnext with rfl | ⟨error, rfl | rfl⟩
      · cases hmem
      · obtain rfl := Option.some.inj hmem
        trivial
      · exact holds_bound hholds next hmem
    · simp [DrivenIntent.overwrites, hdrive, DrivePhase.isRetry]

end Drive

/-! ## The main result -/

/-- **A run keeps what was recorded just where no handler writes `_retry_intent` over it.** -/
theorem drive_keeps_iff {p : DrivenIntent} {s w : DriveState} (hs : s.drive = none)
    {as : List DriveAction} (hrun : Machine.run p.act s as = some w) :
    p.Keeps s as ↔ Machine.Meets p.act (fun s a => p.overwrites s a = false) s as := by
  have hconsistent : p.Consistent s := fun phase hphase => by
    rw [hs] at hphase
    cases hphase
  have hstep : ∀ s a s', p.Consistent s → p.act s a = some s' →
      p.Consistent s' ∧ (p.Stays s s' ↔ p.overwrites s a = false) := fun s a s' => drive_step
  exact Machine.related_iff_meets (fun s => stays_of_eq rfl rfl)
    (fun s m s' => DrivenIntent.Stays.trans) hstep hrun hconsistent

/-! ## A run -/

/-- The first of two uploaded intents. -/
def drivenIntent : DrivenIntent where
  toMessageIntents := twoIntents
  id := "i0"
  ownerUserId := "owner"
  str
    | .str s => s
    | _ => ""

/-- The target of its upload. -/
def firstTarget : UploadTarget := ⟨"a0", .str "u", .str "t0"⟩

/-- The Artifact is uploaded, and its message is committed. -/
def uploadedState : DriveState where
  stores := committedMessage
  attempts := 1
  operationId := some "op"
  artifactId := some "a0"
  descriptor := (uploadedIntent "i0" "a0").descriptor
  owner := true
  asked := [none, some firstTarget]
  drive := none

/-- A drive of which nothing fails. -/
def proceeds (n : ℕ) : List DriveAction := List.replicate n (.proceed [] "" 0)

/-- The drive comes to the emitter once the intent is ready. -/
def untilReady : List DriveAction := .start :: proceeds 8

theorem drive_keeps_iff_bound : drivenIntent.Keeps uploadedState (untilReady ++ proceeds 2) := by
  have hready : (Machine.run drivenIntent.act uploadedState (untilReady ++ proceeds 2)).map
      (fun w => (drivenIntent.row w).state) = some .ready := by decide +kernel
  obtain ⟨w, hrun, -⟩ := Option.map_eq_some_iff.mp hready
  exact (drive_keeps_iff rfl hrun).mpr (by decide +kernel)

/-- The emitter raises, and the next drive uploads once more. -/
def emitterRaises : List DriveAction :=
  [.fail "emitter" 0 false] ++ proceeds 2 ++ [.start] ++ proceeds 3 ++
    [.proceed [("artifact_id", .str "a0"), ("url", .str "u"), ("token", .str "t1")] "" 0] ++
    proceeds 2

theorem not_drive_keeps : ∃ m w,
    Machine.run drivenIntent.act uploadedState untilReady = some m ∧
    (drivenIntent.row m).state = .ready ∧ m.uploads.length = 1 ∧
    Machine.run drivenIntent.act m emitterRaises = some w ∧
    (drivenIntent.row w).state = .retryable ∧ w.uploads.length = 2 ∧
    ¬ drivenIntent.Keeps uploadedState (untilReady ++ emitterRaises) := by
  have hready : (Machine.run drivenIntent.act uploadedState untilReady).map
      (fun m => ((drivenIntent.row m).state, m.uploads.length)) = some (.ready, 1) := by
    decide +kernel
  have hretryable : (Machine.run drivenIntent.act uploadedState (untilReady ++ emitterRaises)).map
      (fun w => ((drivenIntent.row w).state, w.uploads.length)) = some (.retryable, 2) := by
    decide +kernel
  obtain ⟨m, hm, hready⟩ := Option.map_eq_some_iff.mp hready
  obtain ⟨w, hw, hretryable⟩ := Option.map_eq_some_iff.mp hretryable
  rw [Machine.run_append, hm, Option.bind_some] at hw
  obtain ⟨hready, hone⟩ := Prod.mk.inj hready
  obtain ⟨hretryable, htwo⟩ := Prod.mk.inj hretryable
  refine ⟨m, w, hm, hready, hone, hw, hretryable, htwo, fun hkeeps => ?_⟩
  have hstays := (hkeeps _ _ [] (List.append_nil _).symm m w hm hw).ready hready
  rw [hretryable] at hstays
  cases hstays

end CodexGateway.OpenWebui
