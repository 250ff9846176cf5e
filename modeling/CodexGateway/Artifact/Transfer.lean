import CodexGateway.Artifact.Capability
import CodexGateway.Artifact.Delete

/-!
# Artifact/Transfer — the Artifact Service as a whole

The BFF, which has the API key, asks for capabilities and deletes; whoever presents a capability
uploads or downloads.  Each request that is let through starts a call on its Artifact, and the calls
take their steps in any order, beside each other and beside further requests.

**What is committed was asked for** (`committed_asked`): in every run in which a token that is
signed is one that was given out, each manifest has the owner, the filename and the media type of an
upload that was asked for under that artifact id, keeps to its limit and has the digest it
expected.
-/

set_option linter.unusedSectionVars false

namespace CodexGateway.Artifact

open PyJson SandboxApi

/-! ## The service -/

/-- A capability that was given out. -/
structure GivenOut where
  capability : Capability
  issuedAt : ℤ
  uuid : Hex

/-- The terms of a capability that was given out. -/
def GivenOut.terms (settings : ArtifactSettings) (g : GivenOut) : GrantTerms :=
  g.capability.terms settings g.issuedAt g.uuid

/-- The service, with what it has given out so far. -/
structure Transfers where
  now : ℤ
  givenOut : List GivenOut
  artifacts : String → Clients String String

/-- The service before its first request. -/
def Transfers.init (now : ℤ) : Transfers := ⟨now, [], fun _ => Clients.init⟩

/-- What reaches the service. -/
inductive TransferAction where
  | wait (seconds : ℕ)
  | createUpload (authorization : List Char) (body : CreateUploadRequest)
      (artifactHex uploadHex : String) (uuid : Hex)
  | upload (artifactId uploadId : String) (authorization : List Char)
      (contentLength : ContentLength) (stream : List Bytes)
  | createDownload (authorization : List Char) (artifactId : String)
      (body : CreateDownloadRequest) (uuid : Hex)
  | download (artifactId : String) (authorization : List Char)
  | delete (authorization : List Char) (artifactId : String)
  /-- A call on the Artifact takes a step. -/
  | call (artifactId : String) (i : ℕ) (a : ClientAction)

section Service

variable (settings : ArtifactSettings) (other : List UInt8 → Option (List Char))
  (sha256 : Bytes → String)

/-- A step of the calls on one Artifact. -/
def Transfers.onArtifact (w : Transfers) (artifactId : String)
    (a : Pool.Action ClientAction (ClientRequest String String)) : Option Transfers :=
  (Pool.step (artifactService sha256) (w.artifacts artifactId) a).map fun clients =>
    { w with artifacts := Function.update w.artifacts artifactId clients }

/-- A capability is given out. -/
def Transfers.give (w : Transfers) (capability : Capability) (uuid : Hex) : Transfers :=
  { w with givenOut := ⟨capability, w.now, uuid⟩ :: w.givenOut }

/-- A request that is refused leaves the service as it is. -/
def transferStep (w : Transfers) : TransferAction → Option Transfers
  | .wait seconds => some { w with now := w.now + seconds }
  | .createUpload authorization body artifactHex uploadHex uuid =>
    if authenticate settings authorization then
      match createUpload settings other body artifactHex uploadHex uuid w.now with
      | .error _ => some w
      | .ok target => some (w.give (.upload body target.artifactId target.uploadId) uuid)
    else some w
  | .upload artifactId uploadId authorization contentLength stream =>
    match uploadRequest settings other artifactId uploadId authorization contentLength stream
      w.now with
    | .error _ => some w
    | .ok request => w.onArtifact sha256 artifactId (.env (.put request))
  | .createDownload authorization artifactId body uuid =>
    if authenticate settings authorization then
      match (w.artifacts artifactId).shared.manifest with
      | none => some w
      | some d =>
        match createDownload settings other artifactId (some d) body uuid w.now with
        | .error _ => some w
        | .ok _ => some (w.give (.download body artifactId d.size) uuid)
    else some w
  | .download artifactId authorization =>
    match downloadAllowed settings other artifactId authorization w.now with
    | .error _ => some w
    | .ok _ => w.onArtifact sha256 artifactId (.env .get)
  | .delete authorization artifactId =>
    if authenticate settings authorization then w.onArtifact sha256 artifactId (.env .delete)
    else some w
  | .call artifactId i a => w.onArtifact sha256 artifactId (.task i a)

/-- A token with a right signature is of a capability that was given out. -/
def Signed (w : Transfers) (authorization : List Char) : Prop :=
  ∀ token payload, bearer? authorization = some token →
    readGrant (settings.key other) token = .ok payload →
      ∃ g ∈ w.givenOut, payloadPart token = (g.terms settings).encoded

/-- Capabilities are not forged. -/
def Authentic (w : Transfers) : TransferAction → Prop
  | .upload _ _ authorization _ _ | .download _ authorization =>
    Signed settings other w authorization
  | _ => True

end Service

/-! ## What was asked for -/

section Asked

variable {H U : Type}

/-- The descriptor is of an upload that keeps to the request. -/
structure PutRequest.Allows (request : PutRequest U H) (d : ArtifactDescriptor H) : Prop where
  ownerId : d.ownerId = request.ownerId
  filename : d.filename = request.filename
  mediaType : d.mediaType = request.mediaType
  size : d.size ≤ request.maxBytes
  sha256 : ∀ s ∈ request.expectedSha256, d.sha256 = s

/-- What has been received is within the limit. -/
def PutRequest.Fits (request : PutRequest U H) (received : Bytes) : Prop :=
  received.length ≤ request.maxBytes

/-- What has been received is what the caller expected. -/
def PutRequest.Matches (sha256 : Bytes → H) (request : PutRequest U H) (received : Bytes) : Prop :=
  request.Fits received ∧ ∀ s ∈ request.expectedSha256, sha256 received = s

/-- What a call has of an upload keeps to its request, and what it answers is in `P`. -/
def StageKeeps (sha256 : Bytes → H) (P : ArtifactDescriptor H → Prop) (request : PutRequest U H) :
    Stage H → Prop
  | .receive _ _ received _ _ | .uploadPart _ _ received _ _ | .uploadRest _ received _ _ =>
    request.Fits received
  | .complete _ received | .abortEmpty _ received | .putEmpty received =>
    request.Matches sha256 received
  | .commitInspect d | .copy d | .putManifest d | .inspectExisting d => request.Allows d
  | .deleteStaging result => ∀ d ∈ result, P d
  | .returned d => P d
  | .inspect | .createMultipart | .abortRaise _ | .deleteContent _ | .raised | .crashed => True

variable [DecidableEq H] [DecidableEq U] {sha256 : Bytes → H} {P : ArtifactDescriptor H → Prop}
  {request : PutRequest U H}

theorem stageKeeps_afterPart {multipart parts : ℕ} {chunks : List Bytes} {received buffer : Bytes}
    (h : request.Fits received) :
    StageKeeps sha256 P request (.afterPart multipart chunks received buffer parts) := by
  rw [Stage.afterPart]
  split <;> exact h

/-- The digest of the body is checked at its end. -/
theorem stageKeeps_afterBody {multipart parts : ℕ} {received : Bytes} (h : request.Fits received) :
    StageKeeps sha256 P request (.afterBody sha256 request multipart received parts) := by
  rw [Stage.afterBody]
  split
  · trivial
  · rename_i hmatch
    have hmatches : request.Matches sha256 received := by
      refine ⟨h, fun s hs => ?_⟩
      rw [Option.mem_def] at hs
      by_contra hne
      refine hmatch ⟨hs ▸ rfl, fun heq => hne ?_⟩
      exact (Option.some.inj (hs.symm.trans heq)).symm
    split <;> exact hmatches

theorem stageKeeps_ofResult {result : Option (ArtifactDescriptor H)} (h : ∀ d ∈ result, P d) :
    StageKeeps sha256 P request (.ofResult result) := by
  cases result with
  | none => trivial
  | some d => exact h d rfl

/-- A call that raises answers nothing. -/
theorem keeps_none : ∀ d ∈ (none : Option (ArtifactDescriptor H)), P d :=
  fun d hd => absurd hd (Option.not_mem_none d)

theorem allows_descriptorOf {received : Bytes} {now : ℤ} (h : request.Matches sha256 received) :
    request.Allows (descriptorOf sha256 request received now) :=
  ⟨rfl, rfl, rfl, h.1, h.2⟩

/-- **A manifest that a step puts keeps to the request of its call.** -/
theorem manifest_keeps {b b' : Bucket U H} {uploadId : U} {stage : Stage H}
    (heffect : Effect b uploadId stage b') (hP : ∀ d, request.Allows d → P d)
    (hb : ∀ d, b.manifest = some d → P d) (hs : StageKeeps sha256 P request stage) :
    ∀ d, b'.manifest = some d → P d := by
  cases heffect with
  | none hmanifest _ => exact fun d hd => hb d (hmanifest.symm.trans hd)
  | copy _ => exact hb
  | publish _ =>
    rintro d ⟨rfl⟩
    exact hP _ hs
  | delete => exact hb

theorem proceed_keeps {b b' : Bucket U H} {stage stage' : Stage H} {now : ℤ}
    (hP : ∀ d, request.Allows d → P d) (hb : ∀ d, b.manifest = some d → P d)
    (hs : StageKeeps sha256 P request stage)
    (h : proceed sha256 request now b stage = some (b', stage')) :
    StageKeeps sha256 P request stage' := by
  have hexisting (test : Prop) [Decidable test] (existing : ArtifactDescriptor H)
      (hmem : b.manifest = some existing) : ∀ d ∈ if test then some existing else none, P d := by
    intro d hd
    split_ifs at hd
    · exact hb d (hmem.trans hd)
    · cases hd
  cases stage with
  | inspect =>
    simp only [proceed] at h
    split at h
    · obtain ⟨-, rfl⟩ := Prod.mk.inj (Option.some.inj h)
      trivial
    · rename_i existing hmem
      obtain ⟨-, rfl⟩ := Prod.mk.inj (Option.some.inj h)
      split
      · exact hb existing hmem
      · trivial
  | createMultipart =>
    obtain ⟨-, rfl⟩ := Prod.mk.inj (Option.some.inj h)
    exact Nat.zero_le _
  | receive multipart chunks received buffer parts =>
    cases chunks with
    | nil =>
      obtain ⟨-, rfl⟩ := Prod.mk.inj (Option.some.inj h)
      split
      · exact hs
      · exact stageKeeps_afterBody hs
    | cons chunk chunks =>
      obtain ⟨-, rfl⟩ := Prod.mk.inj (Option.some.inj h)
      split
      · exact hs
      · split
        · trivial
        · rename_i hwithin
          exact stageKeeps_afterPart (not_lt.mp hwithin)
  | uploadPart multipart chunks received buffer parts =>
    obtain ⟨-, rfl⟩ := Prod.mk.inj (Option.some.inj h)
    exact stageKeeps_afterPart hs
  | uploadRest multipart received buffer parts =>
    obtain ⟨-, rfl⟩ := Prod.mk.inj (Option.some.inj h)
    exact stageKeeps_afterBody hs
  | complete multipart received | putEmpty received =>
    obtain ⟨-, rfl⟩ := Prod.mk.inj (Option.some.inj h)
    exact allows_descriptorOf hs
  | abortEmpty multipart received =>
    obtain ⟨-, rfl⟩ := Prod.mk.inj (Option.some.inj h)
    exact hs
  | abortRaise multipart =>
    obtain ⟨-, rfl⟩ := Prod.mk.inj (Option.some.inj h)
    trivial
  | commitInspect d =>
    simp only [proceed] at h
    split at h
    · obtain ⟨-, rfl⟩ := Prod.mk.inj (Option.some.inj h)
      exact hs
    · rename_i existing hmem
      obtain ⟨-, rfl⟩ := Prod.mk.inj (Option.some.inj h)
      exact hexisting _ existing hmem
  | copy d =>
    simp only [proceed] at h
    split at h
    · obtain ⟨-, rfl⟩ := Prod.mk.inj (Option.some.inj h)
      exact keeps_none
    · obtain ⟨-, rfl⟩ := Prod.mk.inj (Option.some.inj h)
      exact hs
  | putManifest d =>
    simp only [proceed] at h
    split at h
    · obtain ⟨-, rfl⟩ := Prod.mk.inj (Option.some.inj h)
      rintro _ ⟨rfl⟩
      exact hP d hs
    · obtain ⟨-, rfl⟩ := Prod.mk.inj (Option.some.inj h)
      exact hs
  | inspectExisting d =>
    simp only [proceed] at h
    split at h
    · obtain ⟨-, rfl⟩ := Prod.mk.inj (Option.some.inj h)
      exact keeps_none
    · rename_i existing hmem
      obtain ⟨-, rfl⟩ := Prod.mk.inj (Option.some.inj h)
      split
      · rintro _ ⟨rfl⟩
        exact hb existing hmem
      · split
        · trivial
        · exact keeps_none
  | deleteContent d =>
    obtain ⟨-, rfl⟩ := Prod.mk.inj (Option.some.inj h)
    exact keeps_none
  | deleteStaging result =>
    obtain ⟨-, rfl⟩ := Prod.mk.inj (Option.some.inj h)
    exact stageKeeps_ofResult hs
  | returned d | raised | crashed => simp [proceed] at h

theorem onError_keeps {stage stage' : Stage H} (hs : StageKeeps sha256 P request stage)
    (h : stage.onError = some stage') : StageKeeps sha256 P request stage' := by
  cases stage with
  | deleteStaging result =>
    obtain rfl := Option.some.inj h
    exact stageKeeps_ofResult hs
  | commitInspect d | copy d | putManifest d | inspectExisting d | deleteContent d =>
    obtain rfl := Option.some.inj h
    exact keeps_none
  | returned d | raised | crashed => simp [Stage.onError] at h
  | _ =>
    obtain rfl := Option.some.inj h
    trivial

/-- What one step of a call keeps. -/
theorem act_keeps {b b' : Bucket U H} {call call' : Call U H} {a : CallAction}
    (hP : ∀ d, call.request.Allows d → P d) (hb : ∀ d, b.manifest = some d → P d)
    (hs : StageKeeps sha256 P call.request call.stage)
    (h : act sha256 b call a = some (b', call')) :
    call'.request = call.request ∧ StageKeeps sha256 P call.request call'.stage ∧
      ∀ d, b'.manifest = some d → P d := by
  have hmanifest := manifest_keeps (act_effect h) hP hb hs
  cases a with
  | proceed now =>
    obtain ⟨r, hr, heq⟩ := Option.map_eq_some_iff.mp h
    obtain ⟨-, rfl⟩ := Prod.mk.inj heq
    exact ⟨rfl, proceed_keeps hP hb hs hr, hmanifest⟩
  | fail applied =>
    obtain ⟨stage, hstage, heq⟩ := Option.map_eq_some_iff.mp h
    obtain ⟨-, rfl⟩ := Prod.mk.inj heq
    exact ⟨rfl, onError_keeps hs hstage, hmanifest⟩
  | crash =>
    obtain ⟨stage, -, heq⟩ := Option.map_eq_some_iff.mp h
    obtain ⟨-, rfl⟩ := Prod.mk.inj heq
    exact ⟨rfl, trivial, hmanifest⟩

end Asked

/-! ## The calls on one Artifact -/

section Calls

/-- The service has given out the capability. -/
def Given (givenOut : List GivenOut) (c : Capability) : Prop := ∃ g ∈ givenOut, g.capability = c

/-- The descriptor keeps to an upload that was asked for. -/
def AskedFor (givenOut : List GivenOut) (artifactId : String) (d : ArtifactDescriptor String) :
    Prop :=
  ∃ body uploadId, Given givenOut (.upload body artifactId uploadId) ∧
    (body.putRequest uploadId []).Allows d

/-- What a download has read of the manifest. -/
def DownloadStage.descriptor? {H : Type} : DownloadStage H → Option (ArtifactDescriptor H)
  | .getContent d | .opened d _ | .missing d => some d
  | .inspect | .raised | .crashed => none

/-- A call was started by a capability, and keeps to what was asked for. -/
def Client.Asked (sha256 : Bytes → String) (givenOut : List GivenOut) (artifactId : String) :
    Client String String → Prop
  | .upload call =>
    (∃ body uploadId stream, Given givenOut (.upload body artifactId uploadId) ∧
      call.request = body.putRequest uploadId stream) ∧
    StageKeeps sha256 (AskedFor givenOut artifactId) call.request call.stage
  | .download stage =>
    (∃ body maxBytes, Given givenOut (.download body artifactId maxBytes)) ∧
      ∀ d ∈ stage.descriptor?, AskedFor givenOut artifactId d
  | .delete _ => True

/-- The manifest keeps to what was asked for. -/
def Published (givenOut : List GivenOut) (artifactId : String) (b : Bucket String String) : Prop :=
  ∀ d, b.manifest = some d → AskedFor givenOut artifactId d

variable {sha256 : Bytes → String} {givenOut givenOut' : List GivenOut} {artifactId : String}

theorem Given.mono (hsub : ∀ g ∈ givenOut, g ∈ givenOut') {c : Capability}
    (h : Given givenOut c) : Given givenOut' c := by
  obtain ⟨g, hg, hc⟩ := h
  exact ⟨g, hsub g hg, hc⟩

theorem AskedFor.mono (hsub : ∀ g ∈ givenOut, g ∈ givenOut') {d : ArtifactDescriptor String}
    (h : AskedFor givenOut artifactId d) : AskedFor givenOut' artifactId d := by
  obtain ⟨body, uploadId, hgiven, hallows⟩ := h
  exact ⟨body, uploadId, hgiven.mono hsub, hallows⟩

theorem StageKeeps.mono {H U : Type} {sha256 : Bytes → H} {P Q : ArtifactDescriptor H → Prop}
    {request : PutRequest U H} (hPQ : ∀ d, P d → Q d) {stage : Stage H}
    (h : StageKeeps sha256 P request stage) : StageKeeps sha256 Q request stage := by
  cases stage with
  | deleteStaging result => exact fun d hd => hPQ d (h d hd)
  | returned d => exact hPQ d h
  | _ => exact h

theorem Client.Asked.mono (hsub : ∀ g ∈ givenOut, g ∈ givenOut') {t : Client String String}
    (h : t.Asked sha256 givenOut artifactId) : t.Asked sha256 givenOut' artifactId := by
  cases t with
  | upload call =>
    obtain ⟨⟨body, uploadId, stream, hgiven, hrequest⟩, hstage⟩ := h
    exact ⟨⟨body, uploadId, stream, hgiven.mono hsub, hrequest⟩, hstage.mono fun _ => .mono hsub⟩
  | download stage =>
    obtain ⟨⟨body, maxBytes, hgiven⟩, hdescriptor⟩ := h
    exact ⟨⟨body, maxBytes, hgiven.mono hsub⟩, fun d hd => (hdescriptor d hd).mono hsub⟩
  | delete stage => trivial

theorem downloadAct_asked {b : Bucket String String} {stage stage' : DownloadStage String}
    {a : CallAction} (hb : Published givenOut artifactId b)
    (hs : ∀ d ∈ stage.descriptor?, AskedFor givenOut artifactId d)
    (h : downloadAct b stage a = some stage') :
    ∀ d ∈ stage'.descriptor?, AskedFor givenOut artifactId d := by
  unfold downloadAct at h
  split at h
  · split at h
    · obtain rfl := Option.some.inj h
      exact fun _ hd => absurd hd (Option.not_mem_none _)
    · rename_i d hmanifest
      obtain rfl := Option.some.inj h
      rintro _ ⟨rfl⟩
      exact hb d hmanifest
  · obtain rfl := Option.some.inj h
    exact fun _ hd => absurd hd (Option.not_mem_none _)
  · obtain rfl := Option.some.inj h
    exact fun _ hd => absurd hd (Option.not_mem_none _)
  · split at h <;>
    · obtain rfl := Option.some.inj h
      exact hs
  · obtain rfl := Option.some.inj h
    exact fun _ hd => absurd hd (Option.not_mem_none _)
  · obtain rfl := Option.some.inj h
    exact fun _ hd => absurd hd (Option.not_mem_none _)
  · cases h

/-- A deletion puts no manifest. -/
theorem deleteAct_manifest {b b' : Bucket String String} {stage stage' : DeleteStage String}
    {a : ClientAction} (h : deleteAct b stage a = some (b', stage')) {d : ArtifactDescriptor String}
    (hd : b'.manifest = some d) : b.manifest = some d := by
  unfold deleteAct at h
  split at h
  · split at h <;>
    · obtain ⟨rfl, -⟩ := Prod.mk.inj (Option.some.inj h)
      exact hd
  · obtain ⟨rfl, -⟩ := Prod.mk.inj (Option.some.inj h)
    exact hd
  · obtain ⟨rfl, -⟩ := Prod.mk.inj (Option.some.inj h)
    exact hd
  · obtain ⟨rfl, -⟩ := Prod.mk.inj (Option.some.inj h)
    simp only [Bucket.deleteObjects] at hd
    split_ifs at hd
    exact hd
  · obtain ⟨rfl, -⟩ := Prod.mk.inj (Option.some.inj h)
    exact hd
  · cases h

/-- **Each call keeps to what was asked for**, whatever the others do. -/
theorem asked_certificate (sha256 : Bytes → String) (givenOut : List GivenOut)
    (artifactId : String) : Pool.Certificate (artifactService sha256) (fun _ _ _ => True)
      (fun _ request => request.start.Asked sha256 givenOut artifactId)
      (Published givenOut artifactId) (fun _ t => t.Asked sha256 givenOut artifactId)
      (fun _ _ => True) where
  act := by
    intro b t a b' t' _ hb ht h
    cases t with
    | upload call =>
      cases a with
      | batch manifest content answered => cases h
      | call a =>
        obtain ⟨r, hr, heq⟩ := Option.map_eq_some_iff.mp h
        obtain ⟨rfl, rfl⟩ := Prod.mk.inj heq
        obtain ⟨⟨body, uploadId, stream, hgiven, hrequest⟩, hstage⟩ := ht
        have hallows : ∀ d, call.request.Allows d → AskedFor givenOut artifactId d := by
          intro d hd
          rw [hrequest] at hd
          exact ⟨body, uploadId, hgiven,
            ⟨hd.ownerId, hd.filename, hd.mediaType, hd.size, hd.sha256⟩⟩
        obtain ⟨hsame, hstage', hmanifest⟩ := act_keeps hallows hb hstage hr
        refine ⟨hmanifest, ⟨⟨body, uploadId, stream, hgiven, hsame.trans hrequest⟩, ?_⟩, trivial⟩
        rw [hsame]
        exact hstage'
    | download stage =>
      cases a with
      | batch manifest content answered => cases h
      | call a =>
        obtain ⟨stage', hstage', heq⟩ := Option.map_eq_some_iff.mp h
        obtain ⟨rfl, rfl⟩ := Prod.mk.inj heq
        exact ⟨hb, ⟨ht.1, downloadAct_asked hb ht.2 hstage'⟩, trivial⟩
    | delete stage =>
      obtain ⟨r, hr, heq⟩ := Option.map_eq_some_iff.mp h
      obtain ⟨rfl, rfl⟩ := Prod.mk.inj heq
      exact ⟨fun d hd => hb d (deleteAct_manifest hr hd), trivial, trivial⟩
  env := by
    intro b request b' ts hrequest hb h
    obtain ⟨rfl, rfl⟩ := Prod.mk.inj (Option.some.inj h)
    refine ⟨hb, fun t ht => ?_, trivial⟩
    obtain rfl := List.mem_singleton.mp ht
    exact hrequest
  stable := fun _ _ _ _ _ _ h => h

end Calls

/-! ## Every run -/

section Runs

variable {settings : ArtifactSettings} {other : List UInt8 → Option (List Char)}
  {sha256 : Bytes → String}

/-- Everything there is was asked for. -/
structure Transfers.Ok (settings : ArtifactSettings) (sha256 : Bytes → String) (w : Transfers) :
    Prop where
  limits : ∀ body artifactId uploadId, Given w.givenOut (.upload body artifactId uploadId) →
    body.maxBytes ≤ settings.maxFileBytes
  downloads : ∀ body artifactId maxBytes, Given w.givenOut (.download body artifactId maxBytes) →
    ∃ d, AskedFor w.givenOut artifactId d ∧ d.size = maxBytes
  artifacts : ∀ artifactId, Pool.Holds (Published w.givenOut artifactId)
    (fun _ t => t.Asked sha256 w.givenOut artifactId) (w.artifacts artifactId)

theorem Transfers.ok_init (now : ℤ) : (Transfers.init now).Ok settings sha256 where
  limits := fun _ _ _ ⟨_, hg, _⟩ => absurd hg (List.not_mem_nil)
  downloads := fun _ _ _ ⟨_, hg, _⟩ => absurd hg (List.not_mem_nil)
  artifacts := fun _ => ⟨fun _ hd => (by cases hd), fun _ ht => absurd ht (List.not_mem_nil)⟩

theorem Transfers.Ok.onArtifact {w w' : Transfers} (h : w.Ok settings sha256) {artifactId : String}
    {a : Pool.Action ClientAction (ClientRequest String String)}
    (hasked : ∀ request, a = .env request → request.start.Asked sha256 w.givenOut artifactId)
    (hstep : w.onArtifact sha256 artifactId a = some w') : w'.Ok settings sha256 := by
  obtain ⟨clients, hclients, rfl⟩ := Option.map_eq_some_iff.mp hstep
  have hcond : Pool.stepCond (fun _ _ _ => True)
      (fun _ request => request.start.Asked sha256 w.givenOut artifactId)
      (w.artifacts artifactId) a := by
    cases a with
    | task i a => exact fun _ _ => trivial
    | env request => exact hasked request rfl
  obtain ⟨hholds, -⟩ := (asked_certificate sha256 w.givenOut artifactId).step hcond
    (h.artifacts artifactId) hclients
  refine ⟨h.limits, h.downloads, fun artifactId' => ?_⟩
  by_cases heq : artifactId' = artifactId
  · subst heq
    simpa using hholds
  · simpa [Function.update_of_ne heq] using h.artifacts artifactId'

/-- A capability that keeps to the limit, or is for something that was asked for, may be given
out. -/
theorem Transfers.Ok.give {w : Transfers} (h : w.Ok settings sha256) {c : Capability} {uuid : Hex}
    (hlimit : ∀ body artifactId uploadId, c = .upload body artifactId uploadId →
      body.maxBytes ≤ settings.maxFileBytes)
    (hdownload : ∀ body artifactId maxBytes, c = .download body artifactId maxBytes →
      ∃ d, AskedFor w.givenOut artifactId d ∧ d.size = maxBytes) :
    (w.give c uuid).Ok settings sha256 := by
  have hsub : ∀ g ∈ w.givenOut, g ∈ (w.give c uuid).givenOut := fun g hg => .tail _ hg
  have hgiven {c' : Capability} (hc : Given (w.give c uuid).givenOut c') :
      c = c' ∨ Given w.givenOut c' := by
    obtain ⟨g, hg, rfl⟩ := hc
    rcases List.mem_cons.mp hg with rfl | hg
    · exact .inl rfl
    · exact .inr ⟨g, hg, rfl⟩
  refine ⟨fun body artifactId uploadId hc => ?_, fun body artifactId maxBytes hc => ?_,
    fun artifactId => ⟨fun d hd => ((h.artifacts artifactId).shared d hd).mono hsub,
      fun t ht => ((h.artifacts artifactId).tasks t ht).mono hsub⟩⟩
  · rcases hgiven hc with hc | hc
    · exact hlimit _ _ _ hc
    · exact h.limits _ _ _ hc
  · obtain ⟨d, hd, hsize⟩ : ∃ d, AskedFor w.givenOut artifactId d ∧ d.size = maxBytes := by
      rcases hgiven hc with hc | hc
      · exact hdownload _ _ _ hc
      · exact h.downloads _ _ _ hc
    exact ⟨d, hd.mono hsub, hsize⟩

/-- **An accepted token is of a capability that was given out for the operation.** -/
theorem given_of_capability {w : Transfers} {authorization : List Char} {operation : String}
    {claims : Claims} {now : ℤ} (hsigned : Signed settings other w authorization)
    (hok : capability settings other authorization operation now = .ok claims) :
    ∃ g ∈ w.givenOut, g.capability.operation = operation ∧
      claims.payload = sortedMembers (g.terms settings).payload := by
  obtain ⟨token, htoken, hverify, -⟩ := capability_ok.mp hok
  obtain ⟨g, hg, hpart⟩ := hsigned token _ htoken (verifyGrant_ok hverify).read
  have hpayload : claims.payload = sortedMembers (g.terms settings).payload :=
    payload_of_encoded g.capability.fresh_terms hpart hverify
  exact ⟨g, hg, operation_of_capability hpayload hok, hpayload⟩

theorem asked_of_uploadRequest {w : Transfers} {artifactId uploadId : String}
    {authorization : List Char} {contentLength : ContentLength} {stream : List Bytes}
    {request : PutRequest String String} {now : ℤ} (hsigned : Signed settings other w authorization)
    (h : uploadRequest settings other artifactId uploadId authorization contentLength stream now =
      .ok request) :
    (ClientRequest.put request).start.Asked sha256 w.givenOut artifactId := by
  obtain ⟨claims, hclaims⟩ := capability_of_uploadRequest h
  obtain ⟨⟨c, issuedAt, uuid⟩, hg, hoperation, hpayload⟩ := given_of_capability hsigned hclaims
  cases c with
  | download body artifactId' maxBytes =>
    exact absurd hoperation.symm artifact_upload_ne
  | upload body artifactId' uploadId' =>
    obtain ⟨⟨rfl, rfl⟩, -, rfl⟩ := (uploadRequest_ok hpayload hclaims).mp h
    exact ⟨⟨body, uploadId, stream, ⟨_, hg, rfl⟩, rfl⟩, trivial⟩

theorem asked_of_downloadAllowed {w : Transfers} {artifactId : String} {authorization : List Char}
    {now : ℤ} (hsigned : Signed settings other w authorization)
    (h : downloadAllowed settings other artifactId authorization now = .ok ()) :
    ClientRequest.get.start.Asked sha256 w.givenOut artifactId := by
  obtain ⟨claims, hclaims⟩ := capability_of_downloadAllowed h
  obtain ⟨⟨c, issuedAt, uuid⟩, hg, hoperation, hpayload⟩ := given_of_capability hsigned hclaims
  cases c with
  | upload body artifactId' uploadId' =>
    exact absurd hoperation artifact_upload_ne
  | download body artifactId' maxBytes =>
    obtain rfl := (downloadAllowed_ok hpayload hclaims).mp h
    exact ⟨⟨body, maxBytes, _, hg, rfl⟩, fun d hd => absurd hd (Option.not_mem_none d)⟩

theorem transferStep_ok {w w' : Transfers} {a : TransferAction}
    (hauthentic : Authentic settings other w a) (h : w.Ok settings sha256)
    (hstep : transferStep settings other sha256 w a = some w') : w'.Ok settings sha256 := by
  have hsame (he : some w = some w') : w'.Ok settings sha256 := Option.some.inj he ▸ h
  cases a with
  | wait seconds =>
    obtain rfl := Option.some.inj hstep
    exact ⟨h.limits, h.downloads, h.artifacts⟩
  | createUpload authorization body artifactHex uploadHex uuid =>
    simp only [transferStep] at hstep
    split at hstep
    · split at hstep
      · exact hsame hstep
      · rename_i target htarget
        obtain rfl := Option.some.inj hstep
        exact h.give (fun _ _ _ hc => by cases hc; exact (createUpload_ok htarget).limit)
          fun _ _ _ hc => by cases hc
    · exact hsame hstep
  | upload artifactId uploadId authorization contentLength stream =>
    simp only [transferStep] at hstep
    split at hstep
    · exact hsame hstep
    · rename_i request hrequest
      refine h.onArtifact (fun _ hput => ?_) hstep
      cases hput
      exact asked_of_uploadRequest hauthentic hrequest
  | createDownload authorization artifactId body uuid =>
    simp only [transferStep] at hstep
    split at hstep
    · split at hstep
      · exact hsame hstep
      · rename_i d hd
        split at hstep
        · exact hsame hstep
        · obtain rfl := Option.some.inj hstep
          refine h.give (fun _ _ _ hc => by cases hc) fun _ _ _ hc => ?_
          cases hc
          exact ⟨d, (h.artifacts artifactId).shared d hd, rfl⟩
    · exact hsame hstep
  | download artifactId authorization =>
    simp only [transferStep] at hstep
    split at hstep
    · exact hsame hstep
    · rename_i hallowed
      refine h.onArtifact (fun _ hget => ?_) hstep
      cases hget
      exact asked_of_downloadAllowed hauthentic hallowed
  | delete authorization artifactId =>
    simp only [transferStep] at hstep
    split at hstep
    · refine h.onArtifact (fun _ hdelete => ?_) hstep
      cases hdelete
      trivial
    · exact hsame hstep
  | call artifactId i a => exact h.onArtifact (fun _ htask => by cases htask) hstep

theorem transfers_ok {now : ℤ} {w : Transfers} {as : List TransferAction}
    (hauthentic : Machine.Meets (transferStep settings other sha256) (Authentic settings other)
      (.init now) as)
    (hrun : Machine.run (transferStep settings other sha256) (.init now) as = some w) :
    w.Ok settings sha256 :=
  Machine.run_invariant (fun _ _ _ hcond h hstep => transferStep_ok hcond h hstep) hauthentic hrun
    (Transfers.ok_init now)

/-- **What is committed was asked for.**  In every run without forged capabilities: each manifest,
and each descriptor that an upload or a download answers with, has the owner, the filename and the
media type of an upload that was asked for under its artifact id, keeps to the limit of that and to
the limit of the service, and has the digest that was expected; and each download was started by a
capability for its Artifact, given out with the size of such a descriptor. -/
theorem committed_asked {now : ℤ} {w : Transfers} {as : List TransferAction}
    (hauthentic : Machine.Meets (transferStep settings other sha256) (Authentic settings other)
      (.init now) as)
    (hrun : Machine.run (transferStep settings other sha256) (.init now) as = some w)
    (artifactId : String) :
    (∀ d, ((w.artifacts artifactId).shared.manifest = some d ∨
        (∃ request, .upload ⟨request, .returned d⟩ ∈ (w.artifacts artifactId).tasks) ∨
        ∃ bytes, .download (.opened d bytes) ∈ (w.artifacts artifactId).tasks) →
      AskedFor w.givenOut artifactId d ∧ d.size ≤ settings.maxFileBytes) ∧
    ∀ stage, .download stage ∈ (w.artifacts artifactId).tasks →
      ∃ body d, AskedFor w.givenOut artifactId d ∧
        Given w.givenOut (.download body artifactId d.size) := by
  have hok := transfers_ok hauthentic hrun
  have hartifact := hok.artifacts artifactId
  refine ⟨fun d hd => ?_, fun stage hstage => ?_⟩
  · have hasked : AskedFor w.givenOut artifactId d := by
      rcases hd with hmanifest | ⟨request, hupload⟩ | ⟨bytes, hdownload⟩
      · exact hartifact.shared d hmanifest
      · exact (hartifact.tasks _ hupload).2
      · exact (hartifact.tasks _ hdownload).2 d rfl
    obtain ⟨body, uploadId, hgiven, hallows⟩ := hasked
    exact ⟨⟨body, uploadId, hgiven, hallows⟩, hallows.size.trans (hok.limits _ _ _ hgiven)⟩
  · obtain ⟨⟨body, maxBytes, hgiven⟩, -⟩ := hartifact.tasks _ hstage
    obtain ⟨d, hasked, rfl⟩ := hok.downloads _ _ _ hgiven
    exact ⟨body, d, hasked, hgiven⟩

end Runs

/-! ## A report that is uploaded -/

/-- The BFF asks for the upload, and the body is put. -/
def reportRun : List TransferAction :=
  .createUpload (bearer ++ reportSettings.apiKey.toList) reportUpload "a1" "b2" reportHex ::
  .upload "artifact_a1" "upload_b2" (bearer ++ reportTarget.token) (.declared 3) [[1, 2], [3]] ::
  List.replicate 11 (.call "artifact_a1" 0 (.call (.proceed 107)))

/-- The report as it is committed. -/
def reportDescriptor : ArtifactDescriptor String where
  ownerId := "owner_1"
  filename := "report.txt"
  mediaType := "text/plain"
  size := 3
  sha256 := "digest"
  createdAt := 107

/-- The service where the capability has been given out and presented. -/
def reportPut : Transfers where
  now := 100
  givenOut := [⟨.upload reportUpload "artifact_a1" "upload_b2", 100, reportHex⟩]
  artifacts := Function.update (fun _ => Clients.init) "artifact_a1"
    (⟨.empty, [.upload ⟨reportUpload.putRequest "upload_b2" [[1, 2], [3]], .inspect⟩]⟩)

theorem committed_asked_report : ∃ w,
    Machine.run (transferStep reportSettings (fun _ => none) fun _ => "digest") (.init 100)
      reportRun = some w ∧
    (w.artifacts "artifact_a1").shared.manifest = some reportDescriptor ∧
    AskedFor w.givenOut "artifact_a1" reportDescriptor := by
  let w₁ := (Transfers.init 100).give (.upload reportUpload "artifact_a1" "upload_b2") reportHex
  have hgive : transferStep reportSettings (fun _ => none) (fun _ => "digest") (.init 100)
      (.createUpload (bearer ++ reportSettings.apiKey.toList) reportUpload "a1" "b2" reportHex) =
        some w₁ := by
    have hauth : authenticate reportSettings (bearer ++ reportSettings.apiKey.toList) = true := by
      rw [authenticate, bearer?_append, decide_eq_true rfl]
    have hcreated : createUpload reportSettings (fun _ => none) reportUpload "a1" "b2" reportHex
        (Transfers.init 100).now = .ok reportTarget := createUpload_report
    simp only [transferStep, if_pos hauth, hcreated]
    rfl
  have hput : transferStep reportSettings (fun _ => none) (fun _ => "digest") w₁
      (.upload "artifact_a1" "upload_b2" (bearer ++ reportTarget.token) (.declared 3)
        [[1, 2], [3]]) = some reportPut := by
    have hrequest : uploadRequest reportSettings (fun _ => none) "artifact_a1" "upload_b2"
        (bearer ++ reportTarget.token) (.declared 3) [[1, 2], [3]] w₁.now =
          .ok (reportUpload.putRequest "upload_b2" [[1, 2], [3]]) :=
      (createUpload_ok createUpload_report).uploadRequest_iff.mpr
        ⟨⟨rfl, rfl⟩, by decide, rfl, rfl⟩
    simp only [transferStep, hrequest]
    rfl
  have hcalls : ((Machine.run (transferStep reportSettings (fun _ => none) fun _ => "digest")
      reportPut (List.replicate 11 (.call "artifact_a1" 0 (.call (.proceed 107))))).bind fun w =>
        (w.artifacts "artifact_a1").shared.manifest) = some reportDescriptor := by
    decide +kernel
  obtain ⟨w, hw, hmanifest⟩ := Option.bind_eq_some_iff.mp hcalls
  have hrun : Machine.run (transferStep reportSettings (fun _ => none) fun _ => "digest")
      (.init 100) reportRun = some w :=
    Machine.run_cons.mpr ⟨w₁, hgive, Machine.run_cons.mpr ⟨reportPut, hput, hw⟩⟩
  have hsigned : Signed reportSettings (fun _ => none) w₁ (bearer ++ reportTarget.token) := by
    intro token payload htoken _
    obtain rfl := Option.some.inj ((bearer?_append _).symm.trans htoken)
    exact ⟨_, .head _, payloadPart_issueGrant⟩
  have hauthentic : Machine.Meets
      (transferStep reportSettings (fun _ => none) fun _ => "digest")
      (Authentic reportSettings fun _ => none) (.init 100) reportRun := by
    refine (Machine.meets_cons_of_some hgive).mpr ⟨trivial,
      (Machine.meets_cons_of_some hput).mpr ⟨hsigned, ?_⟩⟩
    refine (Machine.meets_of_forall (p := fun a => a = .call "artifact_a1" 0 (.call (.proceed 107)))
      reportPut fun a ha => List.eq_of_mem_replicate ha).mono fun _ _ ha => ?_
    rw [ha]
    trivial
  have hasked := (committed_asked hauthentic hrun "artifact_a1").1 _ (.inl hmanifest)
  exact ⟨w, hrun, hmanifest, hasked.1⟩

end CodexGateway.Artifact
