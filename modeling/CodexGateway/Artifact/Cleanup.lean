import CodexGateway.Artifact.Parts

/-!
# Artifact/Cleanup — what a failed `upload_and_commit` leaves in the bucket

The calls to the object store may fail without effect, one or many of them, and the body may break
off at any chunk.  A call that raises has then neither put a manifest nor touched the content that
one names, and has taken away its multipart upload and its staging object, unless it was the call
that takes it away that failed.
-/

set_option linter.unusedSectionVars false

namespace CodexGateway.Artifact

variable {U H : Type} [DecidableEq U] [DecidableEq H] {sha256 : Bytes → H}

/-- The awaited call succeeds, or it fails without effect. -/
def CallAction.failsClean : CallAction → Bool
  | .proceed _ => true
  | .fail applied => !applied
  | .crash => false

/-- The awaited call takes away what the call has put into the bucket. -/
def Stage.cleansUp : Stage H → Bool
  | .abortRaise _ | .deleteStaging _ => true
  | _ => false

/-- No call that cleans up fails. -/
def CleanupSucceeds (w : Alone U H) (a : CallAction) : Prop :=
  w.2.stage.cleansUp = true → a.succeeds = true

/-! ## The invariant -/

/-- Only the multipart upload that the call has opened may differ. -/
structure Opened (before b : Bucket U H) : Prop where
  absent : before.manifest = none
  manifest : b.manifest = none
  staging : b.staging = before.staging
  multiparts : ∀ k, k ≠ before.nextMultipart → b.multiparts k = before.multiparts k

/-- The multipart upload is closed, and only the staging object may differ. -/
structure Staged (before b : Bucket U H) (uploadId : U) : Prop where
  absent : before.manifest = none
  manifest : b.manifest = none
  staging : ∀ u, u ≠ uploadId → b.staging u = before.staging u
  multiparts : ∀ k, k ≠ before.nextMultipart → b.multiparts k = before.multiparts k
  closed : b.multiparts before.nextMultipart = none

/-- **Nothing of the call is left.** -/
structure CleanedUp (before b : Bucket U H) (uploadId : U) : Prop where
  staging : ∀ u, b.staging u = before.staging u ∨ u = uploadId ∧ b.staging u = none
  multiparts : ∀ k, b.multiparts k = before.multiparts k ∨
    k = before.nextMultipart ∧ b.multiparts k = none

/-- The manifest, and the content it names, are as they were. -/
structure Unchanged (before b : Bucket U H) : Prop where
  manifest : b.manifest = before.manifest
  content : ∀ d, before.manifest = some d → b.content d.sha256 = before.content d.sha256

/-- What a call has done to the bucket; `cleaned` is whether its cleanup succeeds. -/
def Tidy (cleaned : Prop) (before b : Bucket U H) (uploadId : U) : Stage H → Prop
  | .inspect => b = before
  | .createMultipart => b = before ∧ before.manifest = none
  | .receive multipart _ _ _ _ | .uploadPart multipart _ _ _ _ | .uploadRest multipart _ _ _
  | .complete multipart _ | .abortEmpty multipart _ | .abortRaise multipart =>
    multipart = before.nextMultipart ∧ Opened before b
  | .putEmpty _ => Opened before b ∧ b.multiparts before.nextMultipart = none
  | .commitInspect _ | .copy _ | .putManifest _ | .deleteStaging none => Staged before b uploadId
  | .raised => Unchanged before b ∧ (cleaned → CleanedUp before b uploadId)
  | .inspectExisting _ | .deleteContent _ => False
  | .deleteStaging (some _) | .returned _ | .crashed => True

section Tidy

variable {cleaned : Prop} {before b b' : Bucket U H} {uploadId : U} {multipart : ℕ}

theorem Unchanged.refl (b : Bucket U H) : Unchanged b b := ⟨rfl, fun _ _ => rfl⟩

theorem Opened.unchanged (h : Opened before b) : Unchanged before b :=
  ⟨h.manifest.trans h.absent.symm, fun d hd => by rw [h.absent] at hd; cases hd⟩

theorem Staged.unchanged (h : Staged before b uploadId) : Unchanged before b :=
  ⟨h.manifest.trans h.absent.symm, fun d hd => by rw [h.absent] at hd; cases hd⟩

/-- The multipart upload is the only thing that a call has in the bucket. -/
theorem Opened.close (h : Opened before b) (hclosed : b.multiparts before.nextMultipart = none) :
    CleanedUp before b uploadId where
  staging := fun u => .inl (congrFun h.staging u)
  multiparts := fun k => by
    by_cases hk : k = before.nextMultipart
    · subst hk
      exact .inr ⟨rfl, hclosed⟩
    · exact .inl (h.multiparts k hk)

theorem Staged.delete (h : Staged before b uploadId) :
    CleanedUp before (b.deleteStaging uploadId) uploadId where
  staging := fun u => by
    by_cases hu : u = uploadId
    · subst hu
      exact .inr ⟨rfl, by simp [Bucket.deleteStaging]⟩
    · exact .inl (by simpa [Bucket.deleteStaging, hu] using h.staging u hu)
  multiparts := fun k => by
    by_cases hk : k = before.nextMultipart
    · subst hk
      exact .inr ⟨rfl, h.closed⟩
    · exact .inl (h.multiparts k hk)

theorem Opened.uploadPart (h : Opened before b) (part : Bytes) :
    Opened before (b.uploadPart before.nextMultipart part) where
  absent := h.absent
  manifest := h.manifest
  staging := h.staging
  multiparts := fun k hk => by simpa [Bucket.uploadPart, hk] using h.multiparts k hk

theorem Opened.abort (h : Opened before b) :
    Opened before (b.abortMultipartUpload before.nextMultipart) where
  absent := h.absent
  manifest := h.manifest
  staging := h.staging
  multiparts := fun k hk => by simpa [Bucket.abortMultipartUpload, hk] using h.multiparts k hk

theorem Opened.complete (h : Opened before b) (uploadId : U) :
    Staged before (b.completeMultipartUpload uploadId before.nextMultipart) uploadId where
  absent := h.absent
  manifest := h.manifest
  staging := fun u hu => by
    simp [Bucket.completeMultipartUpload, hu, h.staging]
  multiparts := fun k hk => by
    simpa [Bucket.completeMultipartUpload, Bucket.abortMultipartUpload, hk] using h.multiparts k hk
  closed := by simp [Bucket.completeMultipartUpload, Bucket.abortMultipartUpload]

theorem Opened.putStaging (h : Opened before b) (hclosed : b.multiparts before.nextMultipart = none)
    (uploadId : U) : Staged before (b.putStaging uploadId []) uploadId where
  absent := h.absent
  manifest := h.manifest
  staging := fun u hu => by simp [Bucket.putStaging, hu, h.staging]
  multiparts := h.multiparts
  closed := hclosed

theorem tidy_afterPart {chunks : List Bytes} {received buffer : Bytes} {parts : ℕ}
    (h : Opened before b) : Tidy cleaned before b uploadId
      (.afterPart before.nextMultipart chunks received buffer parts) := by
  rw [Stage.afterPart]
  split <;> exact ⟨rfl, h⟩

theorem tidy_afterBody {request : PutRequest U H} {received : Bytes} {parts : ℕ}
    (h : Opened before b) : Tidy cleaned before b uploadId
      (.afterBody sha256 request before.nextMultipart received parts) := by
  rw [Stage.afterBody]
  split
  · exact ⟨rfl, h⟩
  · split <;> exact ⟨rfl, h⟩

end Tidy

/-! ## The steps of a call -/

section Step

variable {cleaned : Prop} {before b b' : Bucket U H} {request : PutRequest U H}
  {stage stage' : Stage H}

theorem tidy_proceed {now : ℤ} (hs : Tidy cleaned before b request.uploadId stage)
    (h : proceed sha256 request now b stage = some (b', stage')) :
    Tidy cleaned before b' request.uploadId stage' := by
  cases stage with
  | inspect =>
    obtain rfl : b = before := hs
    simp only [proceed] at h
    split at h
    · rename_i hnew
      cases h
      exact ⟨rfl, hnew⟩
    · cases h
      split
      · trivial
      · exact ⟨.refl b, fun _ => ⟨fun _ => .inl rfl, fun _ => .inl rfl⟩⟩
  | createMultipart =>
    obtain ⟨rfl, hnew⟩ := hs
    cases h
    refine ⟨rfl, hnew, hnew, rfl, fun k hk => ?_⟩
    simp [Bucket.createMultipartUpload, hk]
  | receive multipart chunks received buffer parts =>
    obtain ⟨rfl, hopened⟩ := hs
    cases chunks with
    | nil =>
      cases h
      split
      · exact ⟨rfl, hopened⟩
      · exact tidy_afterBody hopened
    | cons chunk chunks =>
      cases h
      split
      · exact ⟨rfl, hopened⟩
      · split
        · exact ⟨rfl, hopened⟩
        · exact tidy_afterPart hopened
  | uploadPart multipart chunks received buffer parts =>
    obtain ⟨rfl, hopened⟩ := hs
    cases h
    exact tidy_afterPart (hopened.uploadPart _)
  | uploadRest multipart received buffer parts =>
    obtain ⟨rfl, hopened⟩ := hs
    cases h
    exact tidy_afterBody (hopened.uploadPart _)
  | complete multipart received =>
    obtain ⟨rfl, hopened⟩ := hs
    cases h
    exact hopened.complete request.uploadId
  | abortEmpty multipart received =>
    obtain ⟨rfl, hopened⟩ := hs
    cases h
    exact ⟨hopened.abort, by simp [Bucket.abortMultipartUpload]⟩
  | abortRaise multipart =>
    obtain ⟨rfl, hopened⟩ := hs
    cases h
    exact ⟨hopened.abort.unchanged,
      fun _ => hopened.abort.close (by simp [Bucket.abortMultipartUpload])⟩
  | putEmpty received =>
    cases h
    exact hs.1.putStaging hs.2 request.uploadId
  | commitInspect d =>
    have hnew : b.manifest = none := Staged.manifest hs
    simp only [proceed, hnew] at h
    cases h
    exact hs
  | copy d =>
    simp only [proceed] at h
    split at h
    · cases h
      exact hs
    · cases h
      have hs : Staged before b request.uploadId := hs
      exact ⟨hs.absent, hs.manifest, hs.staging, hs.multiparts, hs.closed⟩
  | putManifest d =>
    have hnew : b.manifest = none := Staged.manifest hs
    simp only [proceed, hnew] at h
    cases h
    trivial
  | deleteStaging result =>
    cases h
    cases result with
    | none =>
      have hs : Staged before b request.uploadId := hs
      exact ⟨⟨hs.unchanged.manifest, hs.unchanged.content⟩, fun _ => hs.delete⟩
    | some d => trivial
  | inspectExisting d | deleteContent d => exact hs.elim
  | returned d | raised | crashed => cases h

/-- A call that fails without effect leaves what it has, and only the cleanup leaves it for good. -/
theorem tidy_onError (hs : Tidy cleaned before b request.uploadId stage)
    (hclean : cleaned → stage.cleansUp = false) (h : stage.onError = some stage') :
    Tidy cleaned before b request.uploadId stage' := by
  cases stage with
  | inspect =>
    obtain rfl : b = before := hs
    cases h
    exact ⟨.refl b, fun _ => ⟨fun _ => .inl rfl, fun _ => .inl rfl⟩⟩
  | createMultipart =>
    obtain ⟨rfl, -⟩ := hs
    cases h
    exact ⟨.refl b, fun _ => ⟨fun _ => .inl rfl, fun _ => .inl rfl⟩⟩
  | putEmpty received =>
    cases h
    exact ⟨hs.1.unchanged, fun _ => hs.1.close hs.2⟩
  | abortRaise multipart =>
    cases h
    exact ⟨hs.2.unchanged, fun hcleaned => by cases hclean hcleaned⟩
  | deleteStaging result =>
    cases h
    cases result with
    | none => exact ⟨Staged.unchanged hs, fun hcleaned => by cases hclean hcleaned⟩
    | some d => trivial
  | inspectExisting d | deleteContent d => exact hs.elim
  | returned d | raised | crashed => cases h
  | _ =>
    cases h
    exact hs

end Step

theorem tidy_step {cleaned : Prop} {before : Bucket U H} {w w' : Alone U H} {a : CallAction}
    (hclean : a.failsClean = true) (hcleanup : cleaned → CleanupSucceeds w a)
    (hs : Tidy cleaned before w.1 w.2.request.uploadId w.2.stage)
    (h : callStep sha256 w a = some w') :
    Tidy cleaned before w'.1 w'.2.request.uploadId w'.2.stage := by
  cases a with
  | proceed now =>
    obtain ⟨r, hr, rfl⟩ := Option.map_eq_some_iff.mp h
    exact tidy_proceed hs hr
  | fail applied =>
    obtain rfl : applied = false := by simpa [CallAction.failsClean] using hclean
    obtain ⟨stage, hstage, rfl⟩ := Option.map_eq_some_iff.mp h
    refine tidy_onError hs (fun hcleaned => ?_) hstage
    by_contra hup
    have := hcleanup hcleaned (by simpa using hup)
    cases this
  | crash => cases hclean

/-! ## A call that raises -/

theorem tidy_run (cleaned : Prop) {b : Bucket U H} {request : PutRequest U H} {w : Alone U H}
    {as : List CallAction} (hclean : ∀ a ∈ as, a.failsClean = true)
    (hcleanup : cleaned → Machine.Meets (callStep sha256) CleanupSucceeds (.start b request) as)
    (hrun : Machine.run (callStep sha256) (.start b request) as = some w) :
    Tidy cleaned b w.1 w.2.request.uploadId w.2.stage := by
  have hmeets : Machine.Meets (callStep sha256)
      (fun w a => a.failsClean = true ∧ (cleaned → CleanupSucceeds w a)) (.start b request) as := by
    refine (Machine.meets_of_forall _ hclean).and (Machine.meets_iff.mpr ?_)
    intro xs a ys has m hm hcleaned
    exact Machine.meets_iff.mp (hcleanup hcleaned) xs a ys has m hm
  exact Machine.run_invariant (fun _ _ _ hcond => tidy_step hcond.1 hcond.2) hmeets hrun
    (show Tidy cleaned b b request.uploadId .inspect from rfl)

/-- **A call that raises has changed nothing**, and leaves nothing behind unless its cleanup
fails. -/
theorem raised_cleanedUp (sha256 : Bytes → H) (b b' : Bucket U H) (request : PutRequest U H)
    (call : Call U H) (as : List CallAction) (hclean : ∀ a ∈ as, a.failsClean = true)
    (hrun : Machine.run (callStep sha256) (.start b request) as = some (b', call))
    (hraised : call.stage = .raised) :
    Unchanged b b' ∧
      (Machine.Meets (callStep sha256) CleanupSucceeds (.start b request) as →
        CleanedUp b b' request.uploadId) := by
  have hrequest : call.request = request := callRun_request hrun
  constructor
  · have htidy := tidy_run False hclean False.elim hrun
    rw [hraised] at htidy
    exact htidy.1
  · intro hcleanup
    have htidy := tidy_run True hclean (fun _ => hcleanup) hrun
    rw [hraised, hrequest] at htidy
    exact htidy.2 trivial

deriving instance DecidableEq for Stage

/-- The digest of the sample upload is another one than its caller declares. -/
def mismatchedUpload : PutRequest ℕ ℕ := { sampleUpload with expectedSha256 := some 0 }

theorem raised_cleanedUp_mismatch :
    ∃ b' call, Machine.run (callStep List.length) (.start Bucket.empty mismatchedUpload)
        (List.replicate 8 (.proceed 0)) = some (b', call) ∧
      Unchanged Bucket.empty b' ∧ CleanedUp Bucket.empty b' 0 := by
  have hraised : ((Machine.run (callStep List.length) (.start Bucket.empty mismatchedUpload)
      (List.replicate 8 (.proceed 0))).any fun w => w.2.stage = .raised) = true := by decide +kernel
  obtain ⟨⟨b', call⟩, hrun, hstage⟩ := (Option.any_eq_true _ _).mp hraised
  have h := raised_cleanedUp List.length Bucket.empty b' mismatchedUpload call
    (List.replicate 8 (.proceed 0)) (by decide) hrun (by simpa using hstage)
  refine ⟨b', call, hrun, h.1, h.2 (Machine.meets_iff.mpr ?_)⟩
  intro xs a ys has m hm hup
  have ha : a ∈ List.replicate 8 (CallAction.proceed 0) := by rw [has]; simp
  rw [List.eq_of_mem_replicate ha]
  rfl

end CodexGateway.Artifact
