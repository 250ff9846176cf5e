import CodexGateway.StorageOps.Capture

/-!
# StorageOps/FirstCapture — the tasks keep what the first manifest has captured

Once a manifest is there, `capture` finds it and `upload-capture` sends the copy beside it, so the
first capture stays the only one.  That ends where `upload-capture` removes the directory: from then
on only the answer of the Artifact Service is left.
-/

namespace CodexGateway.StorageOps

variable {H : Type}

/-- The directory of the operation has begun to go. -/
def Stage.removing : Stage H → Bool
  | .uploadRemoveRest _ | .uploadFsync _ | .uploaded _ => true
  | _ => false

/-- The directory goes next. -/
def Stage.removes : Stage H → Bool
  | .uploadRemove _ => true
  | _ => false

/-- A stage of `capture`. -/
def Stage.ofCapture : Stage H → Bool
  | .captureCheck | .captureOpen | .captureCopy _ | .captureReplace _ | .captureManifest _
  | .captureCommit _ | .captureFsync _ | .captured _ | .failed _ => true
  | _ => false

/-- A stage of `upload-capture`. -/
def Stage.ofUpload : Stage H → Bool
  | .uploadVerify _ | .uploadPut _ _ _ | .uploadCheck _ _ | .uploadRemove _ | .uploadRemoveRest _
  | .uploadFsync _ | .uploaded _ | .failed _ => true
  | _ => false

variable (sha256 : Bytes → H) (input : TaskInput) (artifactId : String)

/-- The descriptor of a body. -/
def describe (content : Bytes) : ArtifactInfo H := ⟨artifactId, content.length, sha256 content⟩

/-- There is no capture yet, or there is one, it is all that has been uploaded, and it is in the
spool unless it has been `removed`. -/
inductive Storage.Kept (removed : Prop) (st : Storage H) : Prop where
  | fresh (captures : st.captures = []) (uploads : st.uploads = [])
      (artifact : st.artifacts artifactId = none) (manifest : st.spool.manifest = none)
  | captured (content : Bytes) (captures : st.captures = [content])
      (allowed : input.sourceAllowed = true) (uploads : ∀ body ∈ st.uploads, body = content)
      (artifact : ∀ d ∈ st.artifacts artifactId, d = describe sha256 artifactId content)
      (spool : ¬ removed → st.spool.manifest = some (input.manifestOf sha256 content) ∧
        st.spool.content = some content)

/-- What a task has found out so far. -/
def Stage.Sound (st : Storage H) : Stage H → Prop
  | .captureCheck => True
  | .captureOpen | .captureCopy _ => st.captures = [] ∧ input.sourceAllowed = true
  | .captureReplace result => (st.captures = [] ∧ input.sourceAllowed = true) ∧
      ∃ file, st.spool.contentPart = some file ∧ result = input.manifestOf sha256 file
  | .captureManifest result => (st.captures = [] ∧ input.sourceAllowed = true) ∧
      ∃ file, st.spool.content = some file ∧ result = input.manifestOf sha256 file
  | .captureCommit result => (st.captures = [] ∧ input.sourceAllowed = true) ∧
      st.spool.manifestPart = some result ∧
      ∃ file, st.spool.content = some file ∧ result = input.manifestOf sha256 file
  | .captureFsync _ | .captured _ => True
  | .uploadVerify id => id = artifactId
  | .uploadPut id manifest content => id = artifactId ∧ st.captures = [content] ∧
      manifest = input.manifestOf sha256 content
  | .uploadCheck manifest result => st.artifacts artifactId = some result ∧
      ∃ content, st.captures = [content] ∧ manifest = input.manifestOf sha256 content
  | .uploadRemove result | .uploadRemoveRest result | .uploadFsync result | .uploaded result =>
    st.artifacts artifactId = some result
  | .failed _ => True

section Kept

variable {sha256 input artifactId} {removed removed' : Prop} {st st' : Storage H}

theorem Storage.Kept.mono (h : st.Kept sha256 input artifactId removed)
    (himp : removed → removed') : st.Kept sha256 input artifactId removed' := by
  cases h with
  | fresh captures uploads artifact manifest => exact .fresh captures uploads artifact manifest
  | captured content captures allowed uploads artifact spool =>
    exact .captured content captures allowed uploads artifact fun h => spool fun h' => h (himp h')

/-- As long as there is no capture, the spool has no manifest. -/
theorem Storage.Kept.manifest_none (h : st.Kept sha256 input artifactId removed)
    (hnone : st.captures = []) :
    st.uploads = [] ∧ st.artifacts artifactId = none ∧ st.spool.manifest = none := by
  cases h with
  | fresh captures uploads artifact manifest => exact ⟨uploads, artifact, manifest⟩
  | captured content captures => simp [hnone] at captures

theorem Storage.Kept.of_capture (h : st.Kept sha256 input artifactId removed) {content : Bytes}
    (hc : st.captures = [content]) :
    (∀ body ∈ st.uploads, body = content) ∧
      (∀ d ∈ st.artifacts artifactId, d = describe sha256 artifactId content) ∧
      input.sourceAllowed = true ∧ (¬ removed →
        st.spool.manifest = some (input.manifestOf sha256 content) ∧
          st.spool.content = some content) := by
  cases h with
  | fresh captures => simp [hc] at captures
  | captured content' captures allowed uploads artifact spool =>
    obtain rfl : content' = content := by simpa [hc] using captures.symm
    exact ⟨uploads, artifact, allowed, spool⟩

/-- Where the spool has a manifest, it is that of the capture beside it. -/
theorem Storage.Kept.of_manifest (h : st.Kept sha256 input artifactId removed) (hthere : ¬ removed)
    {manifest : Manifest H} {content : Bytes} (hmanifest : st.spool.manifest = some manifest)
    (hcontent : st.spool.content = some content) :
    st.captures = [content] ∧ manifest = input.manifestOf sha256 content := by
  cases h with
  | fresh captures uploads artifact hnone => simp [hnone] at hmanifest
  | captured content' captures allowed uploads artifact spool =>
    obtain ⟨hm, hc⟩ := spool hthere
    obtain rfl : content' = content := Option.some.inj (hc.symm.trans hcontent)
    exact ⟨captures, Option.some.inj (hmanifest.symm.trans hm)⟩

/-- Nothing but the source, and what no manifest speaks of, has changed. -/
theorem Storage.Kept.frame (h : st.Kept sha256 input artifactId removed)
    (hcaptures : st'.captures = st.captures) (huploads : st'.uploads = st.uploads)
    (hartifacts : st'.artifacts = st.artifacts) (hmanifest : st'.spool.manifest = st.spool.manifest)
    (hcontent : st.captures = [] ∨ st'.spool.content = st.spool.content) :
    st'.Kept sha256 input artifactId removed := by
  cases h with
  | fresh captures uploads artifact manifest =>
    exact .fresh (hcaptures.trans captures) (huploads.trans uploads)
      (by rw [hartifacts, artifact]) (hmanifest.trans manifest)
  | captured content captures allowed uploads artifact spool =>
    have hcontent' : st'.spool.content = st.spool.content :=
      hcontent.resolve_left fun h => by simp [h] at captures
    refine .captured content (hcaptures.trans captures) allowed (by rwa [huploads])
      (by rwa [hartifacts]) fun h => ?_
    rw [hmanifest, hcontent']
    exact spool h

/-- The body is sent again, or for the first time. -/
theorem Storage.Kept.put [DecidableEq H] (h : st.Kept sha256 input artifactId removed)
    {content : Bytes} (hc : st.captures = [content]) :
    (st.put sha256 artifactId content).1.Kept sha256 input artifactId removed ∧
      (st.put sha256 artifactId content).1.captures = st.captures ∧
      (st.put sha256 artifactId content).1.artifacts artifactId =
        some (st.put sha256 artifactId content).2 := by
  obtain ⟨huploads, hartifact, hallowed, hspool⟩ := h.of_capture hc
  have hbody : ∀ body ∈ st.uploads ++ [content], body = content := by
    intro body hbody
    rcases List.mem_append.mp hbody with hbody | hbody
    · exact huploads body hbody
    · exact List.mem_singleton.mp hbody
  rw [Storage.put]
  split
  · rename_i existing hexisting
    exact ⟨.captured content hc hallowed hbody hartifact hspool, rfl, hexisting⟩
  · refine ⟨.captured content hc hallowed hbody ?_ hspool, rfl, by simp⟩
    intro d hd
    simp only [Function.update_self, Option.mem_def, Option.some.injEq] at hd
    exact hd.symm

end Kept

/-! ## The steps of a task -/

section Steps

variable [DecidableEq H] {sha256 : Bytes → H} {input : TaskInput} {artifactId : String}
variable {st : Storage H} {stage : Stage H}

/-- **A task keeps the first capture**, and what it has found out stays true. -/
theorem taskStep_kept (h : st.Kept sha256 input artifactId (stage.removing = true))
    (hsound : stage.Sound sha256 input artifactId st) (contentFirst : Bool) :
    (taskStep sha256 input st contentFirst stage).1.Kept sha256 input artifactId
        ((taskStep sha256 input st contentFirst stage).2.removing = true) ∧
      (taskStep sha256 input st contentFirst stage).2.Sound sha256 input artifactId
        (taskStep sha256 input st contentFirst stage).1 := by
  cases stage with
  | captureCheck =>
    rw [taskStep]
    split_ifs with hallowed
    · exact ⟨h, trivial⟩
    have hallowed' : input.sourceAllowed = true := by simpa using hallowed
    split
    · split_ifs
      · exact ⟨h, trivial⟩
      · exact ⟨h, trivial⟩
      · exact ⟨h, trivial⟩
    · rename_i hmissing
      refine ⟨h, ?_, hallowed'⟩
      cases h with
      | fresh captures => exact captures
      | captured content captures allowed uploads artifact spool =>
        obtain ⟨hm, hc⟩ := spool Bool.false_ne_true
        exact (hmissing _ _ hm hc).elim
  | captureOpen =>
    rw [taskStep]
    split
    · exact ⟨h, trivial⟩
    · split_ifs
      · exact ⟨h, trivial⟩
      · exact ⟨h.frame rfl rfl rfl rfl (.inr rfl), hsound⟩
  | captureCopy file =>
    rw [taskStep]
    split_ifs
    · exact ⟨h, trivial⟩
    · exact ⟨h.frame rfl rfl rfl rfl (.inr rfl), hsound, file, rfl, rfl⟩
  | captureReplace result =>
    obtain ⟨hnone, file, hpart, hresult⟩ := hsound
    exact ⟨h.frame rfl rfl rfl rfl (.inl hnone.1), hnone, file, hpart, hresult⟩
  | captureManifest result =>
    obtain ⟨hnone, file, hcontent, hresult⟩ := hsound
    rw [taskStep]
    split_ifs
    · exact ⟨h, trivial⟩
    · exact ⟨h.frame rfl rfl rfl rfl (.inr rfl), hnone, rfl, file, hcontent, hresult⟩
  | captureCommit result =>
    obtain ⟨hnone, hpart, file, hcontent, hresult⟩ := hsound
    obtain ⟨huploads, hartifact, -⟩ := h.manifest_none hnone.1
    refine ⟨.captured file ?_ hnone.2 ?_ ?_ fun _ => ⟨?_, hcontent⟩, trivial⟩
    · simp [taskStep, hnone.1, hcontent]
    · simp [taskStep, huploads]
    · simp [taskStep, hartifact]
    · simp [taskStep, hpart, hresult]
  | captureFsync result => exact ⟨h, trivial⟩
  | uploadVerify id =>
    rw [taskStep]
    split
    · rename_i manifest content hmanifest hcontent
      split_ifs
      · exact ⟨h, hsound, h.of_manifest Bool.false_ne_true hmanifest hcontent⟩
      · exact ⟨h, trivial⟩
    · exact ⟨h, trivial⟩
    · exact ⟨h, trivial⟩
  | uploadPut id manifest content =>
    obtain ⟨rfl, hc, hmanifest⟩ := hsound
    obtain ⟨hkept, hcaptures, hartifact⟩ := h.put hc
    exact ⟨hkept, hartifact, content, hcaptures.trans hc, hmanifest⟩
  | uploadCheck manifest result =>
    rw [taskStep]
    split_ifs
    · exact ⟨h, trivial⟩
    · exact ⟨h, hsound.1⟩
  | uploadRemove result =>
    have hgone : ∀ {st' : Storage H}, st'.captures = st.captures → st'.uploads = st.uploads →
        st'.artifacts = st.artifacts → (st.spool.manifest = none → st'.spool.manifest = none) →
        st'.Kept sha256 input artifactId ((Stage.uploadRemoveRest result).removing = true) := by
      intro st' hcaptures huploads hartifacts hmanifest
      cases h with
      | fresh captures uploads artifact manifest =>
        exact .fresh (hcaptures.trans captures) (huploads.trans uploads) (by rw [hartifacts, artifact])
          (hmanifest manifest)
      | captured content captures allowed uploads artifact spool =>
        exact .captured content (hcaptures.trans captures) allowed (by rwa [huploads])
          (by rwa [hartifacts]) fun h => (h rfl).elim
    rw [taskStep]
    split_ifs
    · exact ⟨hgone rfl rfl rfl id, hsound⟩
    · exact ⟨hgone rfl rfl rfl fun _ => rfl, hsound⟩
  | uploadRemoveRest result =>
    refine ⟨?_, hsound⟩
    cases h with
    | fresh captures uploads artifact manifest => exact .fresh captures uploads artifact rfl
    | captured content captures allowed uploads artifact spool =>
      exact .captured content captures allowed uploads artifact fun h => (h rfl).elim
  | uploadFsync result => exact ⟨h, hsound⟩
  | captured result => exact ⟨h, trivial⟩
  | uploaded result => exact ⟨h, hsound⟩
  | failed error => exact ⟨h, trivial⟩

/-- A task that is killed before the directory begins to go keeps the first capture too. -/
theorem taskFail_kept (h : st.Kept sha256 input artifactId (stage.removing = true))
    (hsound : stage.Sound sha256 input artifactId st) (hthere : stage.removing = false)
    (applied : Bool) (error : String) :
    (taskFail sha256 st applied error stage).1.Kept sha256 input artifactId False ∧
      (taskFail sha256 st applied error stage).2 = .failed error := by
  have hkept : st.Kept sha256 input artifactId False := h.mono fun he => by simp [hthere] at he
  cases stage with
  | uploadPut id manifest content =>
    obtain ⟨rfl, hc, -⟩ := hsound
    refine ⟨?_, rfl⟩
    rw [taskFail]
    split_ifs
    · exact (hkept.put hc).1
    · exact hkept
  | _ => exact ⟨hkept, rfl⟩

variable (sha256 input st stage) in
/-- A stage of one task stays with it. -/
theorem taskStep_of (contentFirst : Bool) :
    (stage.ofCapture = true →
      (taskStep sha256 input st contentFirst stage).2.ofCapture = true) ∧
    (stage.ofUpload = true → (taskStep sha256 input st contentFirst stage).2.ofUpload = true) := by
  cases stage <;> simp only [taskStep, Stage.ofCapture, Stage.ofUpload] <;> grind

/-- A directory is removed by its own task. -/
theorem taskStep_removing (hremoving : stage.removing = false) (hremoves : stage.removes = false)
    (contentFirst : Bool) : (taskStep sha256 input st contentFirst stage).2.removing = false := by
  cases stage <;> simp only [taskStep, Stage.removing, Stage.removes] at * <;> grind

omit [DecidableEq H] in
/-- A committed descriptor stays. -/
theorem Storage.put_artifacts (content : Bytes) (id : String) {d : ArtifactInfo H}
    (hd : st.artifacts artifactId = some d) :
    (st.put sha256 id content).1.artifacts artifactId = some d := by
  rw [Storage.put]
  split
  · exact hd
  · rename_i hnone
    have hne : artifactId ≠ id := by
      rintro rfl
      simp [hnone] at hd
    simpa [Function.update_of_ne hne] using hd

theorem taskStep_artifacts (contentFirst : Bool) {d : ArtifactInfo H}
    (hd : st.artifacts artifactId = some d) :
    (taskStep sha256 input st contentFirst stage).1.artifacts artifactId = some d := by
  cases stage with
  | uploadPut id manifest content => exact st.put_artifacts content id hd
  | _ =>
    simp only [taskStep]
    grind

omit [DecidableEq H] in
theorem taskFail_artifacts (applied : Bool) (error : String) {d : ArtifactInfo H}
    (hd : st.artifacts artifactId = some d) :
    (taskFail sha256 st applied error stage).1.artifacts artifactId = some d := by
  cases stage with
  | uploadPut id manifest content =>
    rw [taskFail]
    split_ifs
    · exact st.put_artifacts content id hd
    · exact hd
  | _ => exact hd

/-! ## Once the descriptor is committed -/

/-- How far a task is from its success, in steps of the tasks and of the Manager. -/
def Stage.left : Stage H → Option ℕ
  | .captureCheck => some 9
  | .captured _ => some 8
  | .uploadVerify _ => some 7
  | .uploadPut _ _ _ => some 6
  | .uploadCheck _ _ => some 5
  | .uploadRemove _ => some 4
  | .uploadRemoveRest _ => some 3
  | .uploadFsync _ => some 2
  | .uploaded _ => some 1
  | _ => none

omit [DecidableEq H] in
theorem Storage.Kept.of_artifact {removed : Prop} (h : st.Kept sha256 input artifactId removed)
    {d : ArtifactInfo H} (hd : st.artifacts artifactId = some d) :
    ∃ content, st.captures = [content] ∧ d = describe sha256 artifactId content := by
  cases h with
  | fresh captures uploads artifact => simp [hd] at artifact
  | captured content captures allowed uploads artifact => exact ⟨content, captures, artifact d hd⟩

theorem verifyCaptureContent_manifestOf (sha256 : Bytes → H) (input : TaskInput) (content : Bytes) :
    verifyCaptureContent sha256 content (input.manifestOf sha256 content) = true := by
  simp [verifyCaptureContent, TaskInput.manifestOf]

/-- **Once the descriptor is committed, a task that is left alone comes to its success.** -/
theorem taskStep_left (h : st.Kept sha256 input artifactId (stage.removing = true))
    (hsound : stage.Sound sha256 input artifactId st) {d : ArtifactInfo H}
    (hd : st.artifacts artifactId = some d) (hleft : stage.left.isSome)
    (hopen : stage.ended = false) (contentFirst : Bool) :
    (taskStep sha256 input st contentFirst stage).2.left = stage.left.map Nat.pred := by
  obtain ⟨content, hc, rfl⟩ := h.of_artifact hd
  obtain ⟨-, -, hallowed, hspool⟩ := h.of_capture hc
  have hverify := verifyCaptureContent_manifestOf sha256 input content
  cases stage with
  | captureCheck =>
    obtain ⟨hm, hcontent⟩ := hspool Bool.false_ne_true
    have hsource : (input.manifestOf sha256 content).source = input.source := rfl
    simp [taskStep, hallowed, hm, hcontent, hverify, hsource, Stage.left]
  | uploadVerify id =>
    obtain ⟨hm, hcontent⟩ := hspool Bool.false_ne_true
    simp [taskStep, hm, hcontent, hverify, Stage.left]
  | uploadCheck manifest result =>
    obtain ⟨hresult, content', hc', rfl⟩ := hsound
    obtain rfl : content' = content := by simpa [hc] using hc'.symm
    obtain rfl := Option.some.inj (hresult.symm.trans hd)
    rw [taskStep, if_neg (by simp [describe, TaskInput.manifestOf])]
    rfl
  | uploadRemove result =>
    rw [taskStep]
    split_ifs <;> rfl
  | uploadPut id manifest content' => rfl
  | uploadRemoveRest result => rfl
  | uploadFsync result => rfl
  | captured result => cases hopen
  | uploaded result => cases hopen
  | _ => cases hleft

end Steps

end CodexGateway.StorageOps
