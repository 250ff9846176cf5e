import Mathlib.Data.Set.Function
import CodexGateway.Artifact.Store

/-!
# Artifact/Commit — what the concurrent calls of one Artifact agree on

A manifest once put stays, and a call returns only the manifest that is there: both hold in every
run.  That the object at the content key is the one the manifest describes holds as long as every
copy reads what its own call staged.  Two calls with one upload id share the staging key, so the
second may replace the bytes of the first before they are copied.
-/

set_option linter.unusedSectionVars false

namespace CodexGateway.Artifact

variable {U H : Type} [DecidableEq U] [DecidableEq H] {sha256 : Bytes → H}

/-! ## The effect of a step -/

/-- What a step of a call at `stage` may do to the manifest and the content. -/
inductive Effect (b : Bucket U H) (uploadId : U) : Stage H → Bucket U H → Prop where
  | none {stage b'} (manifest : b'.manifest = b.manifest) (content : b'.content = b.content) :
      Effect b uploadId stage b'
  | copy {d bytes} (staged : b.staging uploadId = some bytes) :
      Effect b uploadId (.copy d) (b.putContent d.sha256 bytes)
  | publish {d} (absent : b.manifest = none) :
      Effect b uploadId (.putManifest d) (b.putManifest d)
  | delete {d} : Effect b uploadId (.deleteContent d) (b.deleteContent d.sha256)

theorem proceed_effect {request : PutRequest U H} {now : ℤ} {b b' : Bucket U H}
    {stage stage' : Stage H} (h : proceed sha256 request now b stage = some (b', stage')) :
    Effect b request.uploadId stage b' := by
  cases stage with
  | copy d =>
    simp only [proceed] at h
    split at h
    · obtain ⟨rfl, -⟩ := Prod.mk.inj (Option.some.inj h)
      exact .none rfl rfl
    · rename_i bytes hbytes
      obtain ⟨rfl, -⟩ := Prod.mk.inj (Option.some.inj h)
      exact .copy hbytes
  | putManifest d =>
    simp only [proceed] at h
    split at h
    · rename_i habsent
      obtain ⟨rfl, -⟩ := Prod.mk.inj (Option.some.inj h)
      exact .publish habsent
    · obtain ⟨rfl, -⟩ := Prod.mk.inj (Option.some.inj h)
      exact .none rfl rfl
  | deleteContent d =>
    obtain ⟨rfl, -⟩ := Prod.mk.inj (Option.some.inj h)
    exact .delete
  | inspect | commitInspect d | inspectExisting d =>
    simp only [proceed] at h
    split at h
    all_goals
      obtain ⟨rfl, -⟩ := Prod.mk.inj (Option.some.inj h)
      exact .none rfl rfl
  | receive multipart chunks received buffer parts =>
    cases chunks
    all_goals
      obtain ⟨rfl, -⟩ := Prod.mk.inj (Option.some.inj h)
      exact .none rfl rfl
  | returned d | raised | crashed => simp [proceed] at h
  | _ =>
    obtain ⟨rfl, -⟩ := Prod.mk.inj (Option.some.inj h)
    exact .none rfl rfl

theorem act_effect {b b' : Bucket U H} {call call' : Call U H} {a : CallAction}
    (h : act sha256 b call a = some (b', call')) :
    Effect b call.request.uploadId call.stage b' := by
  cases a with
  | proceed now =>
    obtain ⟨r, hr, heq⟩ := Option.map_eq_some_iff.mp h
    obtain ⟨rfl, -⟩ := Prod.mk.inj heq
    exact proceed_effect hr
  | fail applied =>
    obtain ⟨stage, -, heq⟩ := Option.map_eq_some_iff.mp h
    obtain ⟨rfl, -⟩ := Prod.mk.inj heq
    cases applied with
    | false => exact .none rfl rfl
    | true =>
      cases hr : proceed sha256 call.request 0 b call.stage with
      | none => exact .none rfl rfl
      | some r => exact proceed_effect hr
  | crash =>
    obtain ⟨stage, -, heq⟩ := Option.map_eq_some_iff.mp h
    obtain ⟨rfl, -⟩ := Prod.mk.inj heq
    exact .none rfl rfl

/-- What a call may rely on while others take their steps. -/
structure Rely (b b' : Bucket U H) : Prop where
  manifest : ∀ d, b.manifest = some d → b'.manifest = some d
  content : b'.manifest = none → ∀ s, (b.content s).isSome → (b'.content s).isSome

theorem Rely.refl (b : Bucket U H) : Rely b b := ⟨fun _ h => h, fun _ _ h => h⟩

/-- **A manifest stays.** -/
theorem Effect.manifest_stays {b b' : Bucket U H} {uploadId : U} {stage : Stage H}
    (h : Effect b uploadId stage b') {d : ArtifactDescriptor H} (hd : b.manifest = some d) :
    b'.manifest = some d := by
  cases h with
  | none hm _ => exact hm.trans hd
  | copy _ => exact hd
  | publish habsent => simp [habsent] at hd
  | delete => exact hd

/-! ## The invariant -/

/-- The descriptor is that of the bytes. -/
def Describes (sha256 : Bytes → H) (d : ArtifactDescriptor H) (bytes : Bytes) : Prop :=
  d.size = bytes.length ∧ d.sha256 = sha256 bytes

/-- The body a request uploads. -/
def PutRequest.bytes (request : PutRequest U H) : Bytes := request.body.flatten

/-- Every content object is a body in `B` under its own digest, and the manifest describes a body in
`B` and has its content. -/
structure Sound (sha256 : Bytes → H) (B : Set Bytes) (b : Bucket U H) : Prop where
  content : ∀ s bytes, b.content s = some bytes → bytes ∈ B ∧ sha256 bytes = s
  manifest : ∀ d, b.manifest = some d →
    (∃ bytes ∈ B, Describes sha256 d bytes) ∧ (b.content d.sha256).isSome

/-- What a call knows at a stage. -/
def StageOk (sha256 : Bytes → H) (body : Bytes) (b : Bucket U H) : Stage H → Prop
  | .receive _ chunks received _ _ => received ++ chunks.flatten = body
  | .uploadPart _ chunks received _ _ => received ++ chunks.flatten = body
  | .uploadRest _ received _ _ => received = body
  | .complete _ received => received = body
  | .abortEmpty _ received => received = body
  | .putEmpty received => received = body
  | .commitInspect d => Describes sha256 d body
  | .copy d => Describes sha256 d body
  -- The content is deleted only by a call that has seen the manifest of another.
  | .putManifest d => Describes sha256 d body ∧ (b.manifest = none → (b.content d.sha256).isSome)
  | .inspectExisting d => Describes sha256 d body
  | .deleteContent d => ∃ e, b.manifest = some e ∧ e.sha256 ≠ d.sha256
  | .deleteStaging result => ∀ d ∈ result, b.manifest = some d
  | .returned d => b.manifest = some d
  | _ => True

theorem StageOk.stable {body : Bytes} {b b' : Bucket U H} (hR : Rely b b') {stage : Stage H}
    (h : StageOk sha256 body b stage) : StageOk sha256 body b' stage := by
  cases stage with
  | putManifest d =>
    refine ⟨h.1, fun habsent => hR.content habsent _ (h.2 ?_)⟩
    by_contra hne
    obtain ⟨e, he⟩ := Option.ne_none_iff_exists'.mp hne
    rw [hR.manifest e he] at habsent
    simp at habsent
  | deleteContent d =>
    obtain ⟨e, he, hne⟩ := h
    exact ⟨e, hR.manifest e he, hne⟩
  | deleteStaging result => exact fun d hd => hR.manifest d (h d hd)
  | returned d => exact hR.manifest d h
  | _ => exact h

/-- If the call is at its copy, the staging object, where there is one, holds the body of this
call. -/
def ownStaging (b : Bucket U H) (call : Call U H) : Bool :=
  match call.stage with
  | .copy _ => b.staging call.request.uploadId = none ||
      b.staging call.request.uploadId = some call.request.bytes
  | _ => true

/-- The store carries out the awaited call. -/
def CallAction.applies : CallAction → Bool
  | .proceed _ => true
  | .fail applied => applied
  | .crash => false

theorem act_of_not_applies {b b' : Bucket U H} {call call' : Call U H} {a : CallAction}
    (ha : a.applies = false) (h : act sha256 b call a = some (b', call')) : b' = b := by
  cases a with
  | proceed now => simp [CallAction.applies] at ha
  | fail applied =>
    obtain rfl : applied = false := ha
    obtain ⟨stage, -, heq⟩ := Option.map_eq_some_iff.mp h
    exact (Prod.mk.inj heq).1.symm
  | crash =>
    obtain ⟨stage, -, heq⟩ := Option.map_eq_some_iff.mp h
    exact (Prod.mk.inj heq).1.symm

theorem sound_effect {B : Set Bytes} {b b' : Bucket U H} {call : Call U H}
    (h : Effect b call.request.uploadId call.stage b') (hown : ownStaging b call = true)
    (hB : call.request.bytes ∈ B) (hG : Sound sha256 B b)
    (hL : StageOk sha256 call.request.bytes b call.stage) : Sound sha256 B b' ∧ Rely b b' := by
  generalize hstage : call.stage = stage at h hL
  cases h with
  | none hm hc =>
    refine ⟨⟨fun s bytes hs => hG.content s bytes (hc ▸ hs), fun d hd => ?_⟩,
      ⟨fun d hd => hm.trans hd, fun _ s hs => hc ▸ hs⟩⟩
    exact hc ▸ hG.manifest d (hm.symm.trans hd)
  | copy hstaged =>
    rename_i d bytes
    obtain rfl : bytes = call.request.bytes := by
      rw [ownStaging, hstage, hstaged] at hown
      simpa using hown
    have hput : ∀ s, ((b.putContent d.sha256 call.request.bytes).content s).isSome ↔
        s = d.sha256 ∨ (b.content s).isSome := fun s => by
      by_cases hs : s = d.sha256
      · simp [Bucket.putContent, hs]
      · simp [Bucket.putContent, hs]
    refine ⟨⟨fun s bytes hs => ?_, fun e he => ?_⟩, ⟨fun e he => he, fun _ s hs => (hput s).mpr (.inr hs)⟩⟩
    · by_cases hsd : s = d.sha256
      · subst hsd
        obtain rfl : call.request.bytes = bytes := by simpa [Bucket.putContent] using hs
        exact ⟨hB, hL.2.symm⟩
      · exact hG.content s bytes (by simpa [Bucket.putContent, Function.update_of_ne hsd] using hs)
    · exact ⟨(hG.manifest e he).1, (hput _).mpr (.inr (hG.manifest e he).2)⟩
  | publish habsent =>
    rename_i d
    refine ⟨⟨hG.content, fun e he => ?_⟩, ⟨fun e he => ?_, fun _ s hs => hs⟩⟩
    · obtain rfl : d = e := Option.some.inj he
      exact ⟨⟨_, hB, hL.1⟩, hL.2 habsent⟩
    · rw [habsent] at he
      simp at he
  | delete =>
    rename_i d
    obtain ⟨e, he, hne⟩ := hL
    have hdel : ∀ s, s ≠ d.sha256 → (b.deleteContent d.sha256).content s = b.content s :=
      fun s hs => Function.update_of_ne hs _ _
    refine ⟨⟨fun s bytes hs => ?_, fun e' he' => ?_⟩, ⟨fun e' he' => he', fun habsent => ?_⟩⟩
    · by_cases hsd : s = d.sha256
      · subst hsd
        simp [Bucket.deleteContent] at hs
      · exact hG.content s bytes ((hdel s hsd).symm.trans hs)
    · obtain rfl : e = e' := Option.some.inj (he.symm.trans he')
      rw [hdel _ hne]
      exact hG.manifest e he
    · exact absurd (he.symm.trans habsent) (by simp)

theorem stageOk_afterPart {body : Bytes} {b : Bucket U H} {multipart parts : ℕ} {chunks : List Bytes}
    {received buffer : Bytes} (h : received ++ chunks.flatten = body) :
    StageOk sha256 body b (.afterPart multipart chunks received buffer parts) := by
  rw [Stage.afterPart]
  split <;> exact h

theorem stageOk_afterBody {b : Bucket U H} {request : PutRequest U H} {multipart parts : ℕ}
    {received : Bytes} (h : received = request.bytes) :
    StageOk sha256 request.bytes b (.afterBody sha256 request multipart received parts) := by
  rw [Stage.afterBody]
  split
  · trivial
  · split <;> exact h

theorem stageOk_ofResult {body : Bytes} {b : Bucket U H} {result : Option (ArtifactDescriptor H)}
    (h : ∀ d ∈ result, b.manifest = some d) : StageOk sha256 body b (.ofResult result) := by
  cases result with
  | none => trivial
  | some d => exact h d rfl

theorem describes_descriptorOf {request : PutRequest U H} {received body : Bytes} {now : ℤ}
    (h : received = body) : Describes sha256 (descriptorOf sha256 request received now) body := by
  subst h
  exact ⟨rfl, rfl⟩

theorem proceed_stageOk {request : PutRequest U H} {now : ℤ} {b b' : Bucket U H}
    {stage stage' : Stage H} (h : proceed sha256 request now b stage = some (b', stage'))
    (hL : StageOk sha256 request.bytes b stage) : StageOk sha256 request.bytes b' stage' := by
  cases stage with
  | inspect =>
    simp only [proceed] at h
    split at h
    · obtain ⟨rfl, rfl⟩ := Prod.mk.inj (Option.some.inj h)
      trivial
    · rename_i existing hexisting
      obtain ⟨rfl, rfl⟩ := Prod.mk.inj (Option.some.inj h)
      split
      · exact hexisting
      · trivial
  | createMultipart =>
    obtain ⟨rfl, rfl⟩ := Prod.mk.inj (Option.some.inj h)
    exact List.nil_append _
  | receive multipart chunks received buffer parts =>
    cases chunks with
    | nil =>
      have hreceived : received = request.bytes := by simpa [StageOk] using hL
      obtain ⟨rfl, rfl⟩ := Prod.mk.inj (Option.some.inj h)
      split
      · exact hreceived
      · exact stageOk_afterBody hreceived
    | cons chunk chunks =>
      have hall : received ++ chunk ++ chunks.flatten = request.bytes := by simpa [StageOk] using hL
      obtain ⟨rfl, rfl⟩ := Prod.mk.inj (Option.some.inj h)
      split
      · rename_i hempty
        show received ++ chunks.flatten = request.bytes
        simpa [hempty] using hall
      · split
        · trivial
        · exact stageOk_afterPart hall
  | uploadPart multipart chunks received buffer parts =>
    obtain ⟨rfl, rfl⟩ := Prod.mk.inj (Option.some.inj h)
    exact stageOk_afterPart hL
  | uploadRest multipart received buffer parts =>
    obtain ⟨rfl, rfl⟩ := Prod.mk.inj (Option.some.inj h)
    exact stageOk_afterBody hL
  | complete multipart received =>
    obtain ⟨rfl, rfl⟩ := Prod.mk.inj (Option.some.inj h)
    exact describes_descriptorOf hL
  | abortEmpty multipart received =>
    obtain ⟨rfl, rfl⟩ := Prod.mk.inj (Option.some.inj h)
    exact hL
  | putEmpty received =>
    obtain ⟨rfl, rfl⟩ := Prod.mk.inj (Option.some.inj h)
    exact describes_descriptorOf hL
  | abortRaise multipart =>
    obtain ⟨rfl, rfl⟩ := Prod.mk.inj (Option.some.inj h)
    trivial
  | commitInspect d =>
    simp only [proceed] at h
    split at h
    · obtain ⟨rfl, rfl⟩ := Prod.mk.inj (Option.some.inj h)
      exact hL
    · rename_i existing hexisting
      obtain ⟨rfl, rfl⟩ := Prod.mk.inj (Option.some.inj h)
      intro e he
      split at he
      · exact Option.some.inj he ▸ hexisting
      · simp at he
  | copy d =>
    simp only [proceed] at h
    split at h
    · obtain ⟨rfl, rfl⟩ := Prod.mk.inj (Option.some.inj h)
      simp [StageOk]
    · obtain ⟨rfl, rfl⟩ := Prod.mk.inj (Option.some.inj h)
      exact ⟨hL, fun _ => by simp [Bucket.putContent]⟩
  | putManifest d =>
    simp only [proceed] at h
    split at h
    · obtain ⟨rfl, rfl⟩ := Prod.mk.inj (Option.some.inj h)
      intro e he
      exact he
    · obtain ⟨rfl, rfl⟩ := Prod.mk.inj (Option.some.inj h)
      exact hL.1
  | inspectExisting d =>
    simp only [proceed] at h
    split at h
    · obtain ⟨rfl, rfl⟩ := Prod.mk.inj (Option.some.inj h)
      simp [StageOk]
    · rename_i existing hexisting
      obtain ⟨rfl, rfl⟩ := Prod.mk.inj (Option.some.inj h)
      split
      · exact fun e he => Option.some.inj he ▸ hexisting
      · split
        · rename_i hne
          exact ⟨existing, hexisting, hne⟩
        · simp [StageOk]
  | deleteContent d =>
    obtain ⟨rfl, rfl⟩ := Prod.mk.inj (Option.some.inj h)
    simp [StageOk]
  | deleteStaging result =>
    obtain ⟨rfl, rfl⟩ := Prod.mk.inj (Option.some.inj h)
    exact stageOk_ofResult hL
  | returned d | raised | crashed => simp [proceed] at h

/-- After an exception a call relies on nothing but a result it already had. -/
theorem onError_stageOk {body : Bytes} {b : Bucket U H} {stage stage' : Stage H}
    (h : stage.onError = some stage') (hL : StageOk sha256 body b stage) :
    StageOk sha256 body b stage' := by
  cases stage with
  | deleteStaging result =>
    obtain rfl := Option.some.inj h
    exact stageOk_ofResult hL
  | commitInspect d | copy d | putManifest d | inspectExisting d | deleteContent d =>
    obtain rfl := Option.some.inj h
    simp [StageOk]
  | returned d | raised | crashed => simp [Stage.onError] at h
  | _ =>
    obtain rfl := Option.some.inj h
    trivial

/-- A call uploads a body in `B` and knows what its stage says. -/
def CallOk (sha256 : Bytes → H) (B : Set Bytes) (b : Bucket U H) (call : Call U H) : Prop :=
  call.request.bytes ∈ B ∧ StageOk sha256 call.request.bytes b call.stage

/-- A copy that the store carries out reads the body of its own call. -/
def CopiesOwn (b : Bucket U H) (call : Call U H) (a : CallAction) : Prop :=
  a.applies = true → ownStaging b call = true

instance (b : Bucket U H) (call : Call U H) (a : CallAction) : Decidable (CopiesOwn b call a) :=
  inferInstanceAs (Decidable (_ → _))

theorem certificate (sha256 : Bytes → H) (B : Set Bytes) :
    Pool.Certificate (service (U := U) sha256) CopiesOwn
      (fun _ request => request.bytes ∈ B) (Sound sha256 B) (CallOk sha256 B) Rely where
  act := by
    intro b call a b' call' hown hG hL h
    have hshared : Sound sha256 B b' ∧ Rely b b' := by
      cases ha : a.applies with
      | true => exact sound_effect (act_effect h) (hown ha) hL.1 hG hL.2
      | false =>
        obtain rfl := act_of_not_applies ha h
        exact ⟨hG, Rely.refl b'⟩
    obtain ⟨hsound, hrely⟩ := hshared
    refine ⟨hsound, ?_, hrely⟩
    cases a with
    | proceed now =>
      obtain ⟨r, hr, heq⟩ := Option.map_eq_some_iff.mp h
      obtain ⟨rfl, rfl⟩ := Prod.mk.inj heq
      exact ⟨hL.1, proceed_stageOk hr hL.2⟩
    | fail applied =>
      obtain ⟨stage, hstage, heq⟩ := Option.map_eq_some_iff.mp h
      obtain ⟨-, rfl⟩ := Prod.mk.inj heq
      exact ⟨hL.1, (onError_stageOk hstage hL.2).stable hrely⟩
    | crash =>
      obtain ⟨stage, -, heq⟩ := Option.map_eq_some_iff.mp h
      obtain ⟨-, rfl⟩ := Prod.mk.inj heq
      exact ⟨hL.1, trivial⟩
  env := by
    intro b request b' calls hB hG h
    obtain ⟨rfl, rfl⟩ := Prod.mk.inj (Option.some.inj h)
    refine ⟨hG, fun call hcall => ?_, Rely.refl b⟩
    obtain rfl := List.mem_singleton.mp hcall
    exact ⟨hB, trivial⟩
  stable := fun _ _ _ _ _ hR hL => ⟨hL.1, hL.2.stable hR⟩

/-! ## Runs -/

/-- The bodies of the calls a run starts. -/
def bodies (as : List (Pool.Action CallAction (PutRequest U H))) : Set Bytes :=
  {bytes | ∃ request, .env request ∈ as ∧ request.bytes = bytes}

/-- **A manifest never changes**, whatever the calls do. -/
theorem manifest_stays {w w' : Service U H} {as : List (Pool.Action CallAction (PutRequest U H))}
    (hrun : Machine.run (Pool.step (service sha256)) w as = some w') {d : ArtifactDescriptor H}
    (hd : w.shared.manifest = some d) : w'.shared.manifest = some d := by
  have hstep : ∀ (v : Service U H) a v', v.shared.manifest = some d →
      Pool.step (service sha256) v a = some v' → v'.shared.manifest = some d := by
    intro v a v' hv h
    cases a with
    | task i a =>
      obtain ⟨call, b, call', -, hact, rfl⟩ := Pool.step_task.mp h
      exact (act_effect hact).manifest_stays hv
    | env request =>
      obtain ⟨b, calls, henv, rfl⟩ := Pool.step_env.mp h
      obtain ⟨rfl, -⟩ := Prod.mk.inj (Option.some.inj henv)
      exact hv
  exact Machine.run_keeps hstep hrun hd

theorem holds_init (B : Set Bytes) :
    Pool.Holds (Sound sha256 B) (CallOk sha256 B) (Service.init : Service U H) where
  shared := ⟨fun _ _ h => by simp [Service.init, Bucket.empty] at h,
    fun _ h => by simp [Service.init, Bucket.empty] at h⟩
  tasks := fun _ h => by simp [Service.init] at h

/-- **In every run whose copies read what their own call staged, the manifest is stable, every
success returns it, and its content is the bytes it describes** — for bodies on which the digest has
no collision. -/
theorem committed_content (as : List (Pool.Action CallAction (PutRequest U H))) (w : Service U H)
    (hmeets : Machine.Meets (Pool.step (service sha256)) (Pool.stepCond CopiesOwn fun _ _ => True)
      Service.init as)
    (hrun : Machine.run (Pool.step (service sha256)) Service.init as = some w)
    (hsha : Set.InjOn sha256 (bodies as)) :
    (∀ bs w' d, Machine.run (Pool.step (service sha256)) w bs = some w' →
        w.shared.manifest = some d → w'.shared.manifest = some d) ∧
      (∀ call ∈ w.tasks, ∀ d, call.stage = .returned d → w.shared.manifest = some d) ∧
      ∀ d, w.shared.manifest = some d → ∃ bytes, w.shared.content d.sha256 = some bytes ∧
        bytes.length = d.size ∧ sha256 bytes = d.sha256 := by
  have hbodies : ∀ a ∈ as, ∀ request, a = .env request → request.bytes ∈ bodies as :=
    fun a ha request he => ⟨request, he ▸ ha, rfl⟩
  have hcond : Machine.Meets (Pool.step (service sha256))
      (Pool.stepCond CopiesOwn fun _ request => request.bytes ∈ bodies as) Service.init as := by
    refine (hmeets.and (Machine.meets_of_forall _ hbodies)).mono fun v a hv => ?_
    cases a with
    | task i a => exact hv.1
    | env request => exact hv.2 request rfl
  obtain ⟨hsound, hcalls⟩ := (certificate sha256 (bodies as)).run hcond hrun (holds_init _)
  refine ⟨fun bs w' d hbs hd => manifest_stays hbs hd, fun call hcall d hd => ?_, fun d hd => ?_⟩
  · have hstage := (hcalls call hcall).2
    rwa [hd] at hstage
  · obtain ⟨⟨bytes, hB, hsize, hdigest⟩, hcontent⟩ := hsound.manifest d hd
    obtain ⟨stored, hstored⟩ := Option.isSome_iff_exists.mp hcontent
    obtain ⟨hstoredB, hstoredSha⟩ := hsound.content _ _ hstored
    obtain rfl := hsha hstoredB hB (hstoredSha.trans hdigest)
    exact ⟨stored, hstored, hsize.symm, hstoredSha⟩

/-! ## Two uploads with one capability -/

/-- A request of one byte under the upload id `u`. -/
def sampleRequest (byte : UInt8) : PutRequest String String :=
  ⟨"u", [[byte]], "owner", "a.txt", "text/plain", 1024, none⟩

/-- The SHA-256 of the two bodies `a` and `b`. -/
def sampleSha256 (bytes : Bytes) : String :=
  if bytes = [97] then "ca978112ca1bbdcafac231b39a23dc4da786eff8147c4e72b9807785afee48bb"
  else if bytes = [98] then "3e23e8160039594a33894f6564e1b1348bbd7a0088d42c4acb73eeaed59c009d"
  else ""

/-- The next `n` awaits of call `i` succeed. -/
def proceeds (i n : ℕ) : List (Pool.Action CallAction (PutRequest String String)) :=
  List.replicate n (.task i (.proceed 0))

/-- Two calls with the same body, one after the other's bytes are staged. -/
def sameBody : List (Pool.Action CallAction (PutRequest String String)) :=
  [.env (sampleRequest 97), .env (sampleRequest 97)] ++ proceeds 0 6 ++ proceeds 1 6 ++
    proceeds 0 4 ++ proceeds 1 2

theorem committed_content_sameBody :
    ∃ w, Machine.run (Pool.step (service sampleSha256)) Service.init sameBody = some w ∧
      ∀ d, w.shared.manifest = some d → ∃ bytes, w.shared.content d.sha256 = some bytes ∧
        bytes.length = d.size ∧ sampleSha256 bytes = d.sha256 := by
  have hsome : (Machine.run (Pool.step (service sampleSha256)) Service.init sameBody).isSome := by
    decide +kernel
  obtain ⟨w, hw⟩ := Option.isSome_iff_exists.mp hsome
  have hbodies : ∀ bytes ∈ bodies sameBody, bytes = [97] := by
    rintro bytes ⟨request, hrequest, rfl⟩
    simp [sameBody, proceeds] at hrequest
    exact hrequest ▸ rfl
  have hsha : Set.InjOn sampleSha256 (bodies sameBody) := fun x hx y hy _ =>
    (hbodies x hx).trans (hbodies y hy).symm
  exact ⟨w, hw, (committed_content sameBody w (by decide +kernel) hw hsha).2.2⟩

/-- The second body is staged between the first one's upload and its copy. -/
def stolenStaging : List (Pool.Action CallAction (PutRequest String String)) :=
  [.env (sampleRequest 97), .env (sampleRequest 98)] ++ proceeds 0 6 ++ proceeds 1 6 ++ proceeds 0 4

theorem committed_content_stolen : ¬ ∀ (as : List (Pool.Action CallAction
    (PutRequest String String))) (w : Service String String),
    Machine.run (Pool.step (service sampleSha256)) Service.init as = some w →
      ∀ d bytes, w.shared.openDownload = some (d, bytes) → sampleSha256 bytes = d.sha256 := by
  intro h
  have hdownload : (Machine.run (Pool.step (service sampleSha256)) Service.init
      stolenStaging).bind (fun w => w.shared.openDownload) =
        some (descriptorOf sampleSha256 (sampleRequest 97) [97] 0, [98]) := by decide +kernel
  obtain ⟨w, hw, hopen⟩ := Option.bind_eq_some_iff.mp hdownload
  exact absurd (h stolenStaging w hw _ _ hopen) (by decide +kernel)

end CodexGateway.Artifact
