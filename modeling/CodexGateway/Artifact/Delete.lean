import CodexGateway.Artifact.Commit

/-!
# Artifact/Delete — `delete` and `open_download` beside the uploads

An upload copies its content before it puts the manifest, so that the manifest is the mark of a
commit.  `delete` takes both away in one batch that the store may carry out in part, and takes away
the content of the manifest it has read, whoever needs that by now.  So does an upload that has lost
against another manifest.
-/

set_option linter.unusedSectionVars false

namespace CodexGateway.Artifact

variable {U H : Type} [DecidableEq U] [DecidableEq H]

/-! ## The calls -/

/-- The call that a delete is at. -/
inductive DeleteStage (H : Type) where
  | inspect
  | deleteObjects (descriptor : ArtifactDescriptor H)
  | returned (deleted : Bool)
  | raised
  | crashed

/-- The call that a download is at. -/
inductive DownloadStage (H : Type) where
  | inspect
  | getContent (descriptor : ArtifactDescriptor H)
  | opened (descriptor : ArtifactDescriptor H) (body : Bytes)
  /-- "Committed Artifact content is missing" -/
  | missing (descriptor : ArtifactDescriptor H)
  | raised
  | crashed

/-- A request that is under way. -/
inductive Client (U H : Type) where
  | upload (call : Call U H)
  | delete (stage : DeleteStage H)
  | download (stage : DownloadStage H)

/-- What an awaited call of a request does. -/
inductive ClientAction where
  | call (a : CallAction)
  /-- `delete_objects` is applied to these keys; it answers, or raises. -/
  | batch (manifest content answered : Bool)

/-- `delete_objects` as far as the store carries it out. -/
def Bucket.deleteObjects (b : Bucket U H) (descriptor : ArtifactDescriptor H)
    (manifest content : Bool) : Bucket U H :=
  { b with
    manifest := if manifest then none else b.manifest
    content := if content then Function.update b.content descriptor.sha256 none else b.content }

/-- A delete goes on to its next call. -/
def deleteAct (b : Bucket U H) : DeleteStage H → ClientAction → Option (Bucket U H × DeleteStage H)
  | .inspect, .call (.proceed _) =>
    match b.manifest with
    | none => some (b, .returned false)
    | some descriptor => some (b, .deleteObjects descriptor)
  | .inspect, .call (.fail _) => some (b, .raised)
  | .inspect, .call .crash => some (b, .crashed)
  | .deleteObjects descriptor, .batch manifest content answered =>
    some (b.deleteObjects descriptor manifest content,
      if answered ∧ manifest ∧ content then .returned true else .raised)
  | .deleteObjects _, .call .crash => some (b, .crashed)
  | _, _ => none

/-- A download goes on to its next call. -/
def downloadAct (b : Bucket U H) : DownloadStage H → CallAction → Option (DownloadStage H)
  | .inspect, .proceed _ =>
    match b.manifest with
    | none => some .raised
    | some descriptor => some (.getContent descriptor)
  | .inspect, .fail _ => some .raised
  | .inspect, .crash => some .crashed
  | .getContent descriptor, .proceed _ =>
    match b.content descriptor.sha256 with
    | none => some (.missing descriptor)
    | some body => some (.opened descriptor body)
  | .getContent _, .fail _ => some .raised
  | .getContent _, .crash => some .crashed
  | _, _ => none

/-- A request that starts a call. -/
inductive ClientRequest (U H : Type) where
  | put (request : PutRequest U H)
  | delete
  | get

/-- A request as it comes in. -/
def ClientRequest.start : ClientRequest U H → Client U H
  | .put request => .upload ⟨request, .inspect⟩
  | .delete => .delete .inspect
  | .get => .download .inspect

variable (sha256 : Bytes → H)

/-- A request goes on to its next call. -/
def clientAct (b : Bucket U H) : Client U H → ClientAction → Option (Bucket U H × Client U H)
  | .upload call, .call a => (act sha256 b call a).map fun r => (r.1, .upload r.2)
  | .upload _, .batch _ _ _ => none
  | .delete stage, a => (deleteAct b stage a).map fun r => (r.1, .delete r.2)
  | .download stage, .call a => (downloadAct b stage a).map fun stage => (b, .download stage)
  | .download _, .batch _ _ _ => none

/-- All calls on one Artifact. -/
def artifactService : Pool.Program (Bucket U H) (Client U H) ClientAction (ClientRequest U H) where
  act := clientAct sha256
  env b request := some (b, [request.start])

/-- The requests for an Artifact with the bucket they share. -/
abbrev Clients (U H : Type) := Pool (Bucket U H) (Client U H)

/-- The service before the first request. -/
def Clients.init : Clients U H := ⟨.empty, []⟩

/-! ## Who needs a content object -/

variable {sha256}

/-- The call has copied the content that its manifest is to name, or has read the manifest of the
content it is to get. -/
def Client.needs (s : H) : Client U H → Bool
  | .upload call =>
    match call.stage with
    | .putManifest descriptor => descriptor.sha256 = s
    | _ => false
  | .download (.getContent descriptor) => descriptor.sha256 = s
  | _ => false

/-- No call needs the content, and the manifest does not name it. -/
def unneeded (s : H) (manifest : Option (ArtifactDescriptor H)) (clients : List (Client U H)) :
    Bool :=
  (manifest.all fun descriptor => descriptor.sha256 ≠ s) && clients.all fun t => !t.needs s

/-- The content that a losing upload is about to delete. -/
def Stage.deletes : Stage H → Option H
  | .deleteContent descriptor => some descriptor.sha256
  | _ => none

/-- A step of a call removes a content object only where nobody needs it, and copies only what its
own call has staged. -/
def Client.RemovesUnneeded (w : Clients U H) : Client U H → ClientAction → Prop
  | .upload call, .call a => CopiesOwn w.shared call a ∧ (a.applies = true →
      ∀ s ∈ call.stage.deletes, unneeded s w.shared.manifest w.tasks = true)
  | .delete (.deleteObjects d), .batch manifest content _ => content = true →
      unneeded d.sha256 (w.shared.deleteObjects d manifest content).manifest w.tasks = true
  | _, _ => True

instance (w : Clients U H) : ∀ (t : Client U H) (a : ClientAction),
    Decidable (t.RemovesUnneeded w a)
  | .upload call, .call a => inferInstanceAs (Decidable (CopiesOwn w.shared call a ∧
      (a.applies = true → ∀ s ∈ call.stage.deletes, unneeded s w.shared.manifest w.tasks = true)))
  | .delete (.deleteObjects d), .batch manifest content _ =>
    inferInstanceAs (Decidable (content = true →
      unneeded d.sha256 (w.shared.deleteObjects d manifest content).manifest w.tasks = true))
  | .upload _, .batch _ _ _ | .download _, _ | .delete .inspect, _ | .delete (.returned _), _
  | .delete .raised, _ | .delete .crashed, _ | .delete (.deleteObjects _), .call _ => .isTrue trivial

/-- What every step of a run is to be. -/
def RemovesUnneeded (w : Clients U H) : Pool.Action ClientAction (ClientRequest U H) → Prop
  | .task i a => ∀ t ∈ w.tasks[i]?, t.RemovesUnneeded w a
  | .env _ => True

instance (w : Clients U H) : ∀ a, Decidable (RemovesUnneeded w a)
  | .task i a => inferInstanceAs (Decidable (∀ t ∈ w.tasks[i]?, t.RemovesUnneeded w a))
  | .env _ => .isTrue trivial

/-! ## What a call has received -/

/-- What a call has received and is to commit, whatever is in the bucket. -/
def StageBody (sha256 : Bytes → H) (body : Bytes) : Stage H → Prop
  | .receive _ chunks received _ _ | .uploadPart _ chunks received _ _ =>
    received ++ chunks.flatten = body
  | .uploadRest _ received _ _ | .complete _ received | .abortEmpty _ received
  | .putEmpty received => received = body
  | .commitInspect d | .copy d | .putManifest d | .inspectExisting d => Describes sha256 d body
  | _ => True

theorem stageBody_afterPart {body : Bytes} {multipart parts : ℕ} {chunks : List Bytes}
    {received buffer : Bytes} (h : received ++ chunks.flatten = body) :
    StageBody sha256 body (.afterPart multipart chunks received buffer parts) := by
  rw [Stage.afterPart]
  split <;> exact h

theorem stageBody_afterBody {request : PutRequest U H} {multipart parts : ℕ} {received : Bytes}
    (h : received = request.bytes) :
    StageBody sha256 request.bytes (.afterBody sha256 request multipart received parts) := by
  rw [Stage.afterBody]
  split
  · trivial
  · split <;> exact h

theorem stageBody_ofResult {body : Bytes} {result : Option (ArtifactDescriptor H)} :
    StageBody sha256 body (.ofResult result) := by
  cases result <;> trivial

/-- A call commits what it has received. -/
theorem proceed_stageBody {request : PutRequest U H} {now : ℤ} {b b' : Bucket U H}
    {stage stage' : Stage H} (h : proceed sha256 request now b stage = some (b', stage'))
    (hL : StageBody sha256 request.bytes stage) : StageBody sha256 request.bytes stage' := by
  cases stage with
  | receive multipart chunks received buffer parts =>
    cases chunks with
    | nil =>
      have hreceived : received = request.bytes := by simpa [StageBody] using hL
      obtain ⟨-, rfl⟩ := Prod.mk.inj (Option.some.inj h)
      split
      · exact hreceived
      · exact stageBody_afterBody hreceived
    | cons chunk chunks =>
      have hall : received ++ chunk ++ chunks.flatten = request.bytes := by
        simpa [StageBody] using hL
      obtain ⟨-, rfl⟩ := Prod.mk.inj (Option.some.inj h)
      split
      · rename_i hempty
        change received ++ chunks.flatten = request.bytes
        simpa [hempty] using hall
      · split
        · trivial
        · exact stageBody_afterPart hall
  | uploadPart multipart chunks received buffer parts =>
    obtain ⟨-, rfl⟩ := Prod.mk.inj (Option.some.inj h)
    exact stageBody_afterPart hL
  | uploadRest multipart received buffer parts =>
    obtain ⟨-, rfl⟩ := Prod.mk.inj (Option.some.inj h)
    exact stageBody_afterBody hL
  | complete multipart received | putEmpty received =>
    obtain ⟨-, rfl⟩ := Prod.mk.inj (Option.some.inj h)
    exact describes_descriptorOf hL
  | createMultipart =>
    obtain ⟨-, rfl⟩ := Prod.mk.inj (Option.some.inj h)
    exact List.nil_append _
  | abortEmpty multipart received =>
    obtain ⟨-, rfl⟩ := Prod.mk.inj (Option.some.inj h)
    exact hL
  | abortRaise multipart | deleteContent d =>
    obtain ⟨-, rfl⟩ := Prod.mk.inj (Option.some.inj h)
    trivial
  | deleteStaging result =>
    obtain ⟨-, rfl⟩ := Prod.mk.inj (Option.some.inj h)
    exact stageBody_ofResult
  | inspect | inspectExisting d =>
    simp only [proceed] at h
    split at h
    all_goals
      obtain ⟨-, rfl⟩ := Prod.mk.inj (Option.some.inj h)
      repeat' split
      all_goals trivial
  | commitInspect d | copy d | putManifest d =>
    simp only [proceed] at h
    split at h
    all_goals
      obtain ⟨-, rfl⟩ := Prod.mk.inj (Option.some.inj h)
      first | exact hL | trivial
  | returned d | raised | crashed => simp [proceed] at h

theorem onError_stageBody {body : Bytes} {stage stage' : Stage H}
    (h : stage.onError = some stage') : StageBody sha256 body stage' := by
  cases stage with
  | deleteStaging result =>
    obtain rfl := Option.some.inj h
    exact stageBody_ofResult
  | returned d | raised | crashed => simp [Stage.onError] at h
  | _ =>
    obtain rfl := Option.some.inj h
    trivial

/-- A call puts its manifest after it has copied its content. -/
theorem proceed_putManifest {request : PutRequest U H} {now : ℤ} {b b' : Bucket U H}
    {stage : Stage H} {d : ArtifactDescriptor H}
    (h : proceed sha256 request now b stage = some (b', .putManifest d)) :
    (b'.content d.sha256).isSome := by
  cases stage with
  | copy d' =>
    simp only [proceed] at h
    split at h
    · cases h
    · obtain ⟨rfl, hd⟩ := Prod.mk.inj (Option.some.inj h)
      obtain rfl := Stage.putManifest.inj hd
      simp [Bucket.putContent]
  | receive multipart chunks received buffer parts =>
    cases chunks <;> grind [proceed, Stage.afterPart, Stage.afterBody]
  | deleteStaging result => cases result <;> grind [proceed, Stage.ofResult]
  | _ => grind [proceed, Stage.afterPart, Stage.afterBody]

theorem onError_putManifest {stage : Stage H} {d : ArtifactDescriptor H} :
    stage.onError ≠ some (.putManifest d) := by
  cases stage with
  | deleteStaging result => cases result <;> simp [Stage.onError, Stage.ofResult]
  | _ => simp [Stage.onError]

/-! ## The invariant -/

/-- Every content object has its own digest, and the manifest has its content. -/
structure Present (sha256 : Bytes → H) (b : Bucket U H) : Prop where
  content : ∀ s bytes, b.content s = some bytes → sha256 bytes = s
  manifest : ∀ d, b.manifest = some d → (b.content d.sha256).isSome

/-- An upload commits its own body, and no download has found the content missing. -/
def Client.Sound (sha256 : Bytes → H) : Client U H → Prop
  | .upload call => StageBody sha256 call.request.bytes call.stage
  | .download (.missing _) => False
  | _ => True

/-- A content object that a call needs is there. -/
def ClientOk (sha256 : Bytes → H) (b : Bucket U H) (t : Client U H) : Prop :=
  (∀ s, t.needs s = true → (b.content s).isSome) ∧ t.Sound sha256

/-- Another call has taken away at most what nobody needs. -/
theorem ClientOk.stable {b b' : Bucket U H} {t : Client U H} (h : ClientOk sha256 b t)
    (hstays : ∀ s, t.needs s = true → (b.content s).isSome → (b'.content s).isSome) :
    ClientOk sha256 b' t :=
  ⟨fun s hs => hstays s hs (h.1 s hs), h.2⟩

theorem needs_upload {call : Call U H} {s : H} (h : (Client.upload call).needs s = true) :
    ∃ d, call.stage = .putManifest d ∧ d.sha256 = s := by
  cases hstage : call.stage with
  | putManifest d => exact ⟨d, rfl, by simpa [Client.needs, hstage] using h⟩
  | _ => simp [Client.needs, hstage] at h

theorem of_unneeded {s : H} {manifest : Option (ArtifactDescriptor H)}
    {clients : List (Client U H)} (h : unneeded s manifest clients = true) :
    (∀ d, manifest = some d → d.sha256 ≠ s) ∧ ∀ t ∈ clients, t.needs s = false := by
  obtain ⟨hmanifest, hclients⟩ := (Bool.and_eq_true _ _).mp h
  refine ⟨fun d hd => ?_, fun t ht => ?_⟩
  · subst hd
    simpa using hmanifest
  · simpa using List.all_eq_true.mp hclients t ht

section Steps

variable {w : Clients U H} {b' : Bucket U H}

/-- The content stays, and no manifest is put. -/
theorem Present.same (hw : Pool.Holds (Present sha256) (ClientOk sha256) w)
    (hcontent : b'.content = w.shared.content)
    (hmanifest : ∀ d, b'.manifest = some d → w.shared.manifest = some d) :
    Present sha256 b' ∧ ∀ t ∈ w.tasks, ClientOk sha256 b' t := by
  refine ⟨⟨?_, fun d hd => ?_⟩, fun t ht => (hw.tasks t ht).stable fun s _ h => ?_⟩
  · rw [hcontent]
    exact hw.shared.content
  · rw [hcontent]
    exact hw.shared.manifest d (hmanifest d hd)
  · rwa [hcontent]

/-- A content object that nobody needs is removed. -/
theorem Present.remove (hw : Pool.Holds (Present sha256) (ClientOk sha256) w) {s : H}
    (hcontent : b'.content = Function.update w.shared.content s none)
    (hmanifest : ∀ d, b'.manifest = some d → w.shared.manifest = some d)
    (hunneeded : unneeded s b'.manifest w.tasks = true) :
    Present sha256 b' ∧ ∀ t ∈ w.tasks, ClientOk sha256 b' t := by
  obtain ⟨hnamed, hneeds⟩ := of_unneeded hunneeded
  have hother : ∀ r, r ≠ s → b'.content r = w.shared.content r := fun r hr => by
    rw [hcontent, Function.update_of_ne hr]
  refine ⟨⟨fun r bytes hr => ?_, fun d hd => ?_⟩, fun t ht => (hw.tasks t ht).stable fun r hr h => ?_⟩
  · by_cases hrs : r = s
    · simp [hcontent, hrs] at hr
    · exact hw.shared.content r bytes ((hother r hrs).symm.trans hr)
  · rw [hother _ (hnamed d hd)]
    exact hw.shared.manifest d (hmanifest d hd)
  · have hrs : r ≠ s := by
      rintro rfl
      simp [hneeds t ht] at hr
    rwa [hother r hrs]

/-- A step of an upload keeps the content that is needed. -/
theorem upload_keeps {i : ℕ} {call call' : Call U H} {a : CallAction}
    (hcond : RemovesUnneeded w (.task i (.call a)))
    (hw : Pool.Holds (Present sha256) (ClientOk sha256) w)
    (hcall : w.tasks[i]? = some (.upload call))
    (h : act sha256 w.shared call a = some (b', call')) :
    Present sha256 b' ∧ ∀ t ∈ w.tasks, ClientOk sha256 b' t := by
  cases ha : a.applies with
  | false =>
    obtain rfl := act_of_not_applies ha h
    exact ⟨hw.shared, hw.tasks⟩
  | true =>
    obtain ⟨hcopies, hremoves⟩ := hcond _ hcall
    have hown := hcopies ha
    obtain ⟨hneeds, hbody⟩ := hw.tasks _ (List.mem_of_getElem? hcall)
    have heffect := act_effect h
    generalize hstage : call.stage = stage at heffect
    cases heffect with
    | none hm hc => exact Present.same hw hc fun d hd => hm.symm.trans hd
    | copy hstaged =>
      rename_i d bytes
      obtain rfl : bytes = call.request.bytes := by
        rw [ownStaging, hstage, hstaged] at hown
        simpa using hown
      have hdigest : sha256 call.request.bytes = d.sha256 := by
        have hbody' : StageBody sha256 call.request.bytes call.stage := hbody
        rw [hstage] at hbody'
        exact hbody'.2.symm
      have hmore : ∀ s, (w.shared.content s).isSome →
          ((w.shared.putContent d.sha256 call.request.bytes).content s).isSome := by
        intro s hs
        by_cases hsd : s = d.sha256
        · simp [Bucket.putContent, hsd]
        · simpa [Bucket.putContent, Function.update_of_ne hsd] using hs
      refine ⟨⟨fun s bytes hs => ?_, fun e he => hmore _ (hw.shared.manifest e he)⟩,
        fun t ht => (hw.tasks t ht).stable fun s _ hs => hmore s hs⟩
      by_cases hsd : s = d.sha256
      · obtain rfl : call.request.bytes = bytes := by simpa [Bucket.putContent, hsd] using hs
        exact hdigest.trans hsd.symm
      · exact hw.shared.content s bytes
          (by simpa [Bucket.putContent, Function.update_of_ne hsd] using hs)
    | publish habsent =>
      rename_i d
      refine ⟨⟨hw.shared.content, fun e he => ?_⟩, fun t ht => (hw.tasks t ht).stable fun _ _ h => h⟩
      obtain rfl : d = e := Option.some.inj he
      exact hneeds _ (by simp [Client.needs, hstage])
    | delete =>
      rename_i d
      exact Present.remove hw rfl (fun d hd => hd) (hremoves ha _ (by rw [hstage]; rfl))

/-- An upload that is about to put its manifest has its content. -/
theorem act_clientOk {b b' : Bucket U H} {call call' : Call U H} {a : CallAction}
    (hbody : StageBody sha256 call.request.bytes call.stage)
    (h : act sha256 b call a = some (b', call')) : ClientOk sha256 b' (.upload call') := by
  cases a with
  | proceed now =>
    obtain ⟨⟨b₁, stage⟩, hr, heq⟩ := Option.map_eq_some_iff.mp h
    obtain ⟨rfl, rfl⟩ := Prod.mk.inj heq
    refine ⟨fun s hs => ?_, proceed_stageBody hr hbody⟩
    obtain ⟨d, hd, rfl⟩ := needs_upload hs
    obtain rfl : stage = .putManifest d := hd
    exact proceed_putManifest hr
  | fail applied =>
    obtain ⟨stage, hstage, heq⟩ := Option.map_eq_some_iff.mp h
    obtain ⟨-, rfl⟩ := Prod.mk.inj heq
    refine ⟨fun s hs => ?_, onError_stageBody hstage⟩
    obtain ⟨d, hd, rfl⟩ := needs_upload hs
    obtain rfl : stage = .putManifest d := hd
    exact absurd hstage onError_putManifest
  | crash =>
    obtain ⟨stage, -, heq⟩ := Option.map_eq_some_iff.mp h
    obtain ⟨-, rfl⟩ := Prod.mk.inj heq
    exact ⟨fun s hs => by simp [Client.needs] at hs, trivial⟩

theorem delete_keeps {i : ℕ} {stage stage' : DeleteStage H} {a : ClientAction}
    (hcond : RemovesUnneeded w (.task i a))
    (hw : Pool.Holds (Present sha256) (ClientOk sha256) w)
    (ht : w.tasks[i]? = some (.delete stage))
    (h : deleteAct w.shared stage a = some (b', stage')) :
    Present sha256 b' ∧ ∀ t ∈ w.tasks, ClientOk sha256 b' t := by
  cases stage with
  | inspect =>
    have hsame : b' = w.shared := by
      cases a with
      | batch manifest content answered => simp [deleteAct] at h
      | call a => cases a <;> grind [deleteAct]
    subst hsame
    exact ⟨hw.shared, hw.tasks⟩
  | deleteObjects d =>
    cases a with
    | batch manifest content answered =>
      obtain ⟨rfl, -⟩ := Prod.mk.inj (Option.some.inj h)
      have hmanifest : ∀ e, (w.shared.deleteObjects d manifest content).manifest = some e →
          w.shared.manifest = some e := by
        intro e he
        cases manifest with
        | true => cases he
        | false => exact he
      cases content with
      | false => exact Present.same hw rfl hmanifest
      | true => exact Present.remove hw rfl hmanifest (hcond _ ht rfl)
    | call a =>
      have hsame : b' = w.shared := by cases a <;> grind [deleteAct]
      subst hsame
      exact ⟨hw.shared, hw.tasks⟩
  | _ => simp [deleteAct] at h

theorem download_clientOk {b : Bucket U H} {stage stage' : DownloadStage H} {a : CallAction}
    (hb : Present sha256 b) (hstage : ClientOk sha256 b (.download stage))
    (h : downloadAct b stage a = some stage') : ClientOk sha256 b (.download stage') := by
  have hrest : ∀ stage, (∀ s, Client.needs (U := U) s (.download stage) = false) →
      (∀ d, stage ≠ .missing d) → ClientOk sha256 b (.download stage) := by
    intro stage hneeds hfound
    refine ⟨fun s hs => by simp [hneeds s] at hs, ?_⟩
    cases stage with
    | missing d => exact hfound d rfl
    | _ => trivial
  cases stage with
  | inspect =>
    cases a with
    | proceed now =>
      simp only [downloadAct] at h
      split at h
      · obtain rfl := Option.some.inj h
        exact hrest _ (fun _ => rfl) (by simp)
      · rename_i d hd
        obtain rfl := Option.some.inj h
        refine ⟨fun s hs => ?_, trivial⟩
        obtain rfl : d.sha256 = s := by simpa [Client.needs] using hs
        exact hb.manifest d hd
    | fail | crash =>
      obtain rfl := Option.some.inj h
      exact hrest _ (fun _ => rfl) (by simp)
  | getContent d =>
    cases a with
    | proceed now =>
      have hcontent := hstage.1 d.sha256 (by simp [Client.needs])
      simp only [downloadAct] at h
      split at h
      · rename_i hnone
        simp [hnone] at hcontent
      · obtain rfl := Option.some.inj h
        exact hrest _ (fun _ => rfl) (by simp)
    | fail | crash =>
      obtain rfl := Option.some.inj h
      exact hrest _ (fun _ => rfl) (by simp)
  | _ => cases a <;> cases h

/-- **A step that removes only what nobody needs keeps the manifest's content.** -/
theorem clients_invariant (sha256 : Bytes → H) :
    Pool.Invariant (artifactService (U := U) sha256) RemovesUnneeded (Present sha256)
      (ClientOk sha256) where
  act := by
    intro w i t a b' t' hcond hw ht h
    have hok := hw.tasks t (List.mem_of_getElem? ht)
    cases t with
    | upload call =>
      cases a with
      | batch => cases h
      | call a =>
        obtain ⟨⟨b₁, call'⟩, hact, heq⟩ := Option.map_eq_some_iff.mp h
        obtain ⟨rfl, rfl⟩ := Prod.mk.inj heq
        obtain ⟨hpresent, hothers⟩ := upload_keeps hcond hw ht hact
        exact ⟨hpresent, act_clientOk hok.2 hact, hothers⟩
    | delete stage =>
      obtain ⟨⟨b₁, stage'⟩, hact, heq⟩ := Option.map_eq_some_iff.mp h
      obtain ⟨rfl, rfl⟩ := Prod.mk.inj heq
      obtain ⟨hpresent, hothers⟩ := delete_keeps hcond hw ht hact
      exact ⟨hpresent, ⟨fun s hs => by simp [Client.needs] at hs, trivial⟩, hothers⟩
    | download stage =>
      cases a with
      | batch => cases h
      | call a =>
        obtain ⟨stage', hact, heq⟩ := Option.map_eq_some_iff.mp h
        obtain ⟨rfl, rfl⟩ := Prod.mk.inj heq
        exact ⟨hw.shared, download_clientOk hw.shared hok hact, hw.tasks⟩
  env := by
    intro w request b' ts _ hw h
    obtain ⟨rfl, rfl⟩ := Prod.mk.inj (Option.some.inj h)
    refine ⟨hw.shared, fun t ht => ?_, hw.tasks⟩
    obtain rfl := List.mem_singleton.mp ht
    cases request with
    | put request => exact ⟨fun _ h => (by cases h), trivial⟩
    | delete => exact ⟨fun _ h => (by cases h), trivial⟩
    | get => exact ⟨fun _ h => (by cases h), trivial⟩

end Steps

theorem clients_init : Pool.Holds (Present sha256) (ClientOk sha256) (Clients.init : Clients U H) where
  shared := ⟨fun _ _ h => (by cases h), fun _ h => (by cases h)⟩
  tasks := fun _ h => by cases h

/-- **In every run that removes only what nobody needs, the content of a readable manifest is there
with its SHA-256, and no download finds it missing.** -/
theorem content_present (sha256 : Bytes → H)
    (as : List (Pool.Action ClientAction (ClientRequest U H))) (w : Clients U H)
    (hmeets : Machine.Meets (Pool.step (artifactService sha256)) RemovesUnneeded Clients.init as)
    (hrun : Machine.run (Pool.step (artifactService sha256)) Clients.init as = some w) :
    (∀ d, w.shared.manifest = some d →
      ∃ bytes, w.shared.content d.sha256 = some bytes ∧ sha256 bytes = d.sha256) ∧
      ∀ d, Client.download (.missing d) ∉ w.tasks := by
  obtain ⟨hpresent, hclients⟩ := (clients_invariant sha256).run hmeets hrun clients_init
  refine ⟨fun d hd => ?_, fun d hd => (hclients _ hd).2⟩
  obtain ⟨bytes, hbytes⟩ := Option.isSome_iff_exists.mp (hpresent.manifest d hd)
  exact ⟨bytes, hbytes, hpresent.content _ _ hbytes⟩

/-! ## A delete between a copy and its manifest -/

/-- The next `n` awaits of call `i` succeed. -/
def clientProceeds (i n : ℕ) : List (Pool.Action ClientAction (ClientRequest String String)) :=
  List.replicate n (.task i (.call (.proceed 0)))

/-- One body is uploaded, opened, deleted, and uploaded again. -/
def sampleClients : List (Pool.Action ClientAction (ClientRequest String String)) :=
  [.env (.put (sampleRequest 97)), .env .get, .env .delete, .env (.put (sampleRequest 97))] ++
    clientProceeds 0 10 ++ clientProceeds 1 2 ++ clientProceeds 2 1 ++
    [.task 2 (.batch true true true)] ++ clientProceeds 3 10

theorem content_present_again :
    ∃ w, Machine.run (Pool.step (artifactService sampleSha256)) Clients.init sampleClients = some w ∧
      w.shared.manifest.isSome ∧ ∀ d, w.shared.manifest = some d → ∃ bytes,
        w.shared.content d.sha256 = some bytes ∧ sampleSha256 bytes = d.sha256 := by
  have hsome : (Machine.run (Pool.step (artifactService sampleSha256)) Clients.init
      sampleClients).map (fun w => w.shared.manifest.isSome) = some true := by decide +kernel
  obtain ⟨w, hw, hmanifest⟩ := Option.map_eq_some_iff.mp hsome
  exact ⟨w, hw, hmanifest, (content_present sampleSha256 sampleClients w (by decide +kernel) hw).1⟩

/-- Two uploads of one body: the second has copied it when the first one's Artifact is deleted. -/
def deletedCopy : List (Pool.Action ClientAction (ClientRequest String String)) :=
  [.env (.put (sampleRequest 97)), .env (.put { sampleRequest 97 with uploadId := "v" }),
    .env .delete] ++
    clientProceeds 0 7 ++ clientProceeds 1 8 ++ clientProceeds 0 3 ++ clientProceeds 2 1 ++
    [.task 2 (.batch true true true)] ++ clientProceeds 1 1

theorem content_present_deletedCopy :
    ¬ ∀ (as : List (Pool.Action ClientAction (ClientRequest String String)))
      (w : Clients String String),
      Machine.run (Pool.step (artifactService sampleSha256)) Clients.init as = some w →
        ∀ d, w.shared.manifest = some d →
          ∃ bytes, w.shared.content d.sha256 = some bytes ∧ sampleSha256 bytes = d.sha256 := by
  intro h
  have hlost : (Machine.run (Pool.step (artifactService sampleSha256)) Clients.init
      deletedCopy).bind (fun w => w.shared.manifest.map fun d => w.shared.content d.sha256) =
        some none := by decide +kernel
  obtain ⟨w, hw, hmanifest⟩ := Option.bind_eq_some_iff.mp hlost
  obtain ⟨d, hd, hnone⟩ := Option.map_eq_some_iff.mp hmanifest
  obtain ⟨bytes, hbytes, -⟩ := h deletedCopy w hw d hd
  rw [hnone] at hbytes
  cases hbytes

end CodexGateway.Artifact
