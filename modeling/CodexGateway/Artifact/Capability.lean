import CodexGateway.Artifact.Store
import CodexGateway.SandboxApi.IssueGrant

/-!
# Artifact/Capability — the capabilities that the Artifact Service gives out

`create_upload` and `create_download` answer with a signed grant, and a transfer is served to
whoever presents one: of the upload, the owner, the filename, the media type, the limit and the
expected digest are read from the grant, and only the body from the request.

**A capability allows what was asked for when it was given out** (`upload_of_createUpload`,
`download_of_createDownload`): at its own URL, until it expires, and neither opens what the other is
for.
-/

namespace CodexGateway.Artifact

open PyJson SandboxApi

/-- What the routes read of the settings; `mac` is the HMAC under `capability_secret`. -/
structure ArtifactSettings where
  apiKey : String
  mac : Mac
  capabilityTtlSeconds : ℤ
  maxFileBytes : ℕ
  transferBaseUrl : String
  apiKey_length : 32 ≤ apiKey.length
  capabilityTtlSeconds_range : 30 ≤ capabilityTtlSeconds ∧ capabilityTtlSeconds ≤ 900
  maxFileBytes_range : 0 < maxFileBytes ∧ maxFileBytes ≤ 10 * 1024 ^ 3

/-- What FastAPI answers with an error. -/
structure HttpException where
  statusCode : ℕ
  detail : String
deriving DecidableEq, Repr

/-- The model of `create_upload`, whose texts have a least length. -/
structure CreateUploadRequest where
  ownerId : String
  filename : String
  mediaType : String
  maxBytes : ℕ
  expectedSha256 : Option String
  artifactId : Option String
  subjectId : Option String
  appId : Option String
  ownerId_ne : ownerId ≠ ""
  filename_ne : filename ≠ ""
  mediaType_ne : mediaType ≠ ""
  maxBytes_pos : 0 < maxBytes

/-- What a download is asked for with. -/
structure CreateDownloadRequest where
  subjectId : String
  appId : Option String

/-- Where to `PUT` the body, and with which token. -/
structure UploadTarget where
  artifactId : String
  uploadId : String
  url : String
  token : List Char
  expiresAt : ℤ

/-- Where to `GET` the content, and with which token. -/
structure DownloadTarget where
  artifactId : String
  url : String
  token : List Char
  expiresAt : ℤ

/-- What `int()` makes of the header `content-length`. -/
inductive ContentLength where
  | absent
  | invalid
  | declared (length : ℤ)

/-- `uuid.uuid4().hex` -/
abbrev Hex := {hex : String // hex ≠ ""}

/-! ## The capabilities -/

/-- What a grant of the service is for. -/
inductive Capability where
  | upload (body : CreateUploadRequest) (artifactId uploadId : String)
  | download (body : CreateDownloadRequest) (artifactId : String) (maxBytes : ℕ)

/-- A text, or `null`. -/
def optional : Option String → Json
  | none => .null
  | some text => .str text

theorem wellFormed_optional (text : Option String) : WellFormed (optional text) := by
  cases text <;> trivial

namespace Capability

/-- The operation that a capability is for. -/
def operation : Capability → String
  | .upload _ _ _ => "artifact_upload"
  | .download _ _ _ => "artifact_download"

/-- The claims of a capability. -/
def claims : Capability → Dict
  | .upload body artifactId uploadId =>
    ⟨[("artifact_id", .str artifactId), ("upload_id", .str uploadId),
      ("owner_id", .str body.ownerId), ("filename", .str body.filename),
      ("media_type", .str body.mediaType), ("max_bytes", .int body.maxBytes),
      ("expected_sha256", optional body.expectedSha256), ("subject_id", optional body.subjectId),
      ("app_id", optional body.appId)],
      by simp [WellFormed, WellFormedMembers, wellFormed_optional]⟩
  | .download body artifactId maxBytes =>
    ⟨[("artifact_id", .str artifactId), ("subject_id", .str body.subjectId),
      ("app_id", optional body.appId), ("max_bytes", .int maxBytes)],
      by simp [WellFormed, WellFormedMembers, wellFormed_optional]⟩

/-- The arguments of `issue_grant`. -/
def terms (settings : ArtifactSettings) (c : Capability) (now : ℤ) (uuid : Hex) : GrantTerms where
  issuer := "artifact-service"
  audience := "artifact-transfer"
  operation := c.operation
  issuedAt := now
  expiresIn := settings.capabilityTtlSeconds
  nonce := none
  uuid := uuid
  claims := c.claims

variable {settings : ArtifactSettings} {now : ℤ} {uuid : Hex}

theorem fresh_terms (c : Capability) : (c.terms settings now uuid).Fresh := by
  unfold GrantTerms.Fresh
  cases c <;> simp only [terms, claims, List.map_cons, List.map_nil] <;> decide

end Capability

/-! ## The routes -/

section Routes

variable (settings : ArtifactSettings) (other : List UInt8 → Option (List Char))

/-- The key of the service's grants. -/
def ArtifactSettings.key : GrantKey := grantKey settings.mac other

/-- `"Bearer "` -/
def bearer : List Char := ['B', 'e', 'a', 'r', 'e', 'r', ' ']

/-- What follows `Bearer ` in the header `authorization`. -/
def bearer? (authorization : List Char) : Option (List Char) :=
  if bearer.isPrefixOf authorization then some (authorization.drop bearer.length) else none

/-- `authenticate` of a path that is not a transfer. -/
def authenticate (authorization : List Char) : Bool :=
  bearer? authorization = some settings.apiKey.toList

/-- `create_upload`; an exception of its own `verify_grant` is not handled. -/
def createUpload (body : CreateUploadRequest) (artifactHex uploadHex : String) (uuid : Hex)
    (now : ℤ) : Except HttpException UploadTarget :=
  if settings.maxFileBytes < body.maxBytes then .error ⟨413, "Artifact exceeds the service limit"⟩
  else
    let artifactId := (body.artifactId.filter (· ≠ "")).getD ("artifact_" ++ artifactHex)
    let uploadId := "upload_" ++ uploadHex
    let capability := Capability.upload body artifactId uploadId
    let token := issueGrant settings.mac (capability.terms settings now uuid)
    match verifyGrant (settings.key other) token "artifact-transfer" (some "artifact_upload") 900
      now with
    | .error _ => .error ⟨500, "Internal Server Error"⟩
    | .ok claims => .ok
      { artifactId := artifactId
        uploadId := uploadId
        url := settings.transferBaseUrl ++ "/v1/transfers/uploads/" ++ artifactId ++ "/" ++ uploadId
        token := token
        expiresAt := claims.expiresAt }

/-- `create_download`, where `inspect` has found the descriptor. -/
def createDownload {H : Type} (artifactId : String) (inspected : Option (ArtifactDescriptor H))
    (body : CreateDownloadRequest) (uuid : Hex) (now : ℤ) : Except HttpException DownloadTarget :=
  match inspected with
  | none => .error ⟨404, "Artifact not found"⟩
  | some descriptor =>
    let capability := Capability.download body artifactId descriptor.size
    let token := issueGrant settings.mac (capability.terms settings now uuid)
    match verifyGrant (settings.key other) token "artifact-transfer" (some "artifact_download") 900
      now with
    | .error _ => .error ⟨500, "Internal Server Error"⟩
    | .ok claims => .ok
      { artifactId := artifactId
        url := settings.transferBaseUrl ++ "/v1/transfers/downloads/" ++ artifactId
        token := token
        expiresAt := claims.expiresAt }

/-- `_capability` -/
def capability (authorization : List Char) (operation : String) (now : ℤ) :
    Except HttpException Claims :=
  match bearer? authorization with
  | none => .error ⟨401, "Unauthorized"⟩
  | some token =>
    match verifyGrant (settings.key other) token "artifact-transfer" (some operation) 900 now with
    | .error _ => .error ⟨403, "Artifact capability is invalid"⟩
    | .ok claims =>
      if claims.issuer ≠ "artifact-service" ∨ claims.expiresAt ≤ now then
        .error ⟨403, "Artifact capability is invalid"⟩
      else .ok claims

/-- `_claim_string` -/
def claimString (claims : Claims) (name : String) : Except HttpException String :=
  match (text? (claims.payload.get name)).filter (· ≠ "") with
  | none => .error ⟨403, "Artifact capability " ++ name ++ " is invalid"⟩
  | some value => .ok value

/-- The declared length of the body, where there is one. -/
def ContentLength.check (maxBytes : ℤ) : ContentLength → Except HttpException Unit
  | .absent => .ok ()
  | .invalid => .error ⟨400, "Content-Length is invalid"⟩
  | .declared length =>
    if length < 0 then .error ⟨400, "Content-Length is invalid"⟩
    else if maxBytes < length then .error ⟨413, "Artifact exceeds the upload limit"⟩
    else .ok ()

/-- `upload` up to its call of `upload_and_commit`, as the arguments of that. -/
def uploadRequest (artifactId uploadId : String) (authorization : List Char)
    (contentLength : ContentLength) (stream : List Bytes) (now : ℤ) :
    Except HttpException (PutRequest String String) := do
  let claims ← capability settings other authorization "artifact_upload" now
  if text? (claims.payload.get "artifact_id") ≠ some artifactId ∨
      text? (claims.payload.get "upload_id") ≠ some uploadId then
    throw ⟨403, "Upload capability binding does not match"⟩
  match (int? (claims.payload.get "max_bytes")).filter (0 < ·) with
  | none => throw ⟨403, "Upload capability limit is invalid"⟩
  | some maxBytes =>
    contentLength.check maxBytes
    let ownerId ← claimString claims "owner_id"
    let filename ← claimString claims "filename"
    let mediaType ← claimString claims "media_type"
    return { uploadId, body := stream, ownerId, filename, mediaType, maxBytes := maxBytes.toNat,
             expectedSha256 := text? (claims.payload.get "expected_sha256") }

/-- `download` up to its call of `open_download`. -/
def downloadAllowed (artifactId : String) (authorization : List Char) (now : ℤ) :
    Except HttpException Unit := do
  let claims ← capability settings other authorization "artifact_download" now
  if text? (claims.payload.get "artifact_id") ≠ some artifactId then
    throw ⟨403, "Download capability binding does not match"⟩

end Routes

/-- The upload that a body asks for. -/
def CreateUploadRequest.putRequest (body : CreateUploadRequest) (uploadId : String)
    (stream : List Bytes) : PutRequest String String where
  uploadId := uploadId
  body := stream
  ownerId := body.ownerId
  filename := body.filename
  mediaType := body.mediaType
  maxBytes := body.maxBytes
  expectedSha256 := body.expectedSha256

section Presented

variable {settings : ArtifactSettings} {other : List UInt8 → Option (List Char)}
  {authorization : List Char} {operation : String} {issuedAt now : ℤ} {uuid : Hex}
  {claims : Claims} {c : Capability}

/-! ## What a presented capability says -/

theorem bearer?_append (token : List Char) : bearer? (bearer ++ token) = some token := by
  rw [bearer?, if_pos (List.isPrefixOf_iff_prefix.mpr (List.prefix_append _ _)), List.drop_left]

/-- The second look at `exp` refuses nothing. -/
theorem capability_ok : capability settings other authorization operation now = .ok claims ↔
    ∃ token, bearer? authorization = some token ∧
      verifyGrant (settings.key other) token "artifact-transfer" (some operation) 900 now =
        .ok claims ∧ claims.issuer = "artifact-service" := by
  cases hbearer : bearer? authorization with
  | none => simp [capability, hbearer]
  | some token =>
    simp only [capability, hbearer, Option.some.injEq, exists_eq_left']
    cases hverify : verifyGrant (settings.key other) token "artifact-transfer" (some operation) 900
        now with
    | error e => simp
    | ok claims' =>
      have hactive := (verifyGrant_ok hverify).active
      have hrefused : (claims'.issuer ≠ "artifact-service" ∨ claims'.expiresAt ≤ now) ↔
          claims'.issuer ≠ "artifact-service" := or_iff_left (by omega)
      simp only [hrefused]
      constructor
      · intro h
        split_ifs at h with hissuer
        obtain rfl := Except.ok.inj h
        exact ⟨rfl, not_not.mp hissuer⟩
      · rintro ⟨h, hissuer⟩
        obtain rfl := Except.ok.inj h
        rw [if_neg (not_not.mpr hissuer)]

/-- A capability that is given out can be read for its operation, until it expires. -/
theorem verifyGrant_terms
    (hlength : (issueGrant settings.mac (c.terms settings issuedAt uuid)).length ≤ 64 * 1024)
    (hwindow : issuedAt - 30 ≤ now ∧ now < issuedAt + settings.capabilityTtlSeconds) :
    verifyGrant (settings.key other) (issueGrant settings.mac (c.terms settings issuedAt uuid))
        "artifact-transfer" (some c.operation) 900 now =
      .ok (c.terms settings issuedAt uuid).verified := by
  obtain ⟨httl, hmax⟩ := settings.capabilityTtlSeconds_range
  have hadmits : (c.terms settings issuedAt uuid).Admits "artifact-transfer" (some c.operation)
      now := ⟨rfl, fun _ hname => Option.some.inj hname, hwindow.1, hwindow.2⟩
  have hspan : (c.terms settings issuedAt uuid).verified.issuedAt <
      (c.terms settings issuedAt uuid).verified.expiresAt :=
    lt_add_of_pos_right _ (show (0 : ℤ) < settings.capabilityTtlSeconds by omega)
  exact (verified_issueGrant c.fresh_terms hlength hmax hadmits).verifyGrant hspan

/-- **A capability that is given out is accepted for its operation, until it expires.** -/
theorem capability_issued
    (hlength : (issueGrant settings.mac (c.terms settings issuedAt uuid)).length ≤ 64 * 1024) :
    capability settings other
        (bearer ++ issueGrant settings.mac (c.terms settings issuedAt uuid)) operation now =
      .ok claims ↔ c.operation = operation ∧
        (issuedAt - 30 ≤ now ∧ now < issuedAt + settings.capabilityTtlSeconds) ∧
        claims = (c.terms settings issuedAt uuid).verified := by
  rw [capability_ok, bearer?_append]
  constructor
  · rintro ⟨_, ⟨rfl⟩, hok, -⟩
    obtain ⟨hadmits, -⟩ := admits_of_verified c.fresh_terms hlength hok
    have hwindow : issuedAt - 30 ≤ now ∧ now < issuedAt + settings.capabilityTtlSeconds :=
      ⟨hadmits.notBefore, hadmits.expires⟩
    obtain rfl : c.operation = operation := hadmits.operation operation rfl
    exact ⟨rfl, hwindow, Except.ok.inj (hok.symm.trans (verifyGrant_terms hlength hwindow))⟩
  · rintro ⟨rfl, hwindow, rfl⟩
    exact ⟨_, rfl, verifyGrant_terms hlength hwindow, rfl⟩

theorem payloadPart_issueGrant {mac : Mac} {t : GrantTerms} :
    payloadPart (issueGrant mac t) = t.encoded := by
  have hchars : ∀ c ∈ t.encoded, decide (c ≠ '.') = true := fun c hc =>
    decide_eq_true (ne_of_mem_of_not_mem hc (encodeText_no_dot _))
  rw [payloadPart, issueGrant, List.takeWhile_append_of_pos hchars]
  simp

theorem payload_verified (t : GrantTerms) : t.verified.payload = sortedMembers t.payload := rfl

/-- A claim of a capability, as it is read. -/
theorem get_claim
    (hpayload : claims.payload = sortedMembers (c.terms settings issuedAt uuid).payload)
    (key : String) : claims.payload.get key = sortKeys (Members.get
      ((c.terms settings issuedAt uuid).reserved ++ c.claims.members) key) := by
  rw [hpayload]
  exact GrantTerms.get_payload c.fresh_terms key

theorem operation_of_capability
    (hpayload : claims.payload = sortedMembers (c.terms settings issuedAt uuid).payload)
    (hok : capability settings other authorization operation now = .ok claims) :
    c.operation = operation := by
  obtain ⟨token, -, hverify, -⟩ := capability_ok.mp hok
  have hoperation := (verifyGrant_ok hverify).operation rfl
  rw [get_claim hpayload] at hoperation
  exact Option.some.inj hoperation

theorem claimString_ok {name value : String} (hvalue : claims.payload.get name = .str value)
    (hne : value ≠ "") : claimString claims name = .ok value := by
  have hfilter : (text? (claims.payload.get name)).filter (· ≠ "") = some value := by
    rw [hvalue]
    simpa [text?] using hne
  rw [claimString, hfilter]

/-- The two operations are apart. -/
theorem artifact_upload_ne : ("artifact_upload" : String) ≠ "artifact_download" := by decide

theorem ok_of_bind_ok {ε α β : Type} {x : Except ε α} {f : α → Except ε β} {b : β}
    (h : (x >>= f) = .ok b) : ∃ a, x = .ok a := by
  cases x with
  | error e => cases h
  | ok a => exact ⟨a, rfl⟩

theorem capability_of_uploadRequest {artifactId uploadId : String} {contentLength : ContentLength}
    {stream : List Bytes} {request : PutRequest String String}
    (h : uploadRequest settings other artifactId uploadId authorization contentLength stream now =
      .ok request) :
    ∃ claims, capability settings other authorization "artifact_upload" now = .ok claims := by
  unfold uploadRequest at h
  exact ok_of_bind_ok h

theorem capability_of_downloadAllowed {artifactId : String}
    (h : downloadAllowed settings other artifactId authorization now = .ok ()) :
    ∃ claims, capability settings other authorization "artifact_download" now = .ok claims := by
  unfold downloadAllowed at h
  exact ok_of_bind_ok h

/-- **What an upload under a capability is**, whatever the request says of it. -/
theorem uploadRequest_ok {body : CreateUploadRequest} {artifactId uploadId artifactId' uploadId' :
      String} {contentLength : ContentLength} {stream : List Bytes}
    {request : PutRequest String String}
    (hpayload : claims.payload = sortedMembers
      ((Capability.upload body artifactId uploadId).terms settings issuedAt uuid).payload)
    (hok : capability settings other authorization "artifact_upload" now = .ok claims) :
    uploadRequest settings other artifactId' uploadId' authorization contentLength stream now =
        .ok request ↔
      (artifactId' = artifactId ∧ uploadId' = uploadId) ∧
        contentLength.check body.maxBytes = .ok () ∧ request = body.putRequest uploadId stream := by
  have hartifact : claims.payload.get "artifact_id" = .str artifactId := get_claim hpayload _
  have hupload : claims.payload.get "upload_id" = .str uploadId := get_claim hpayload _
  have hmax : claims.payload.get "max_bytes" = .int body.maxBytes := get_claim hpayload _
  have hsha256 : text? (claims.payload.get "expected_sha256") = body.expectedSha256 := by
    have hget : claims.payload.get "expected_sha256" = sortKeys (optional body.expectedSha256) :=
      get_claim hpayload _
    rw [hget]
    cases body.expectedSha256 <;> rfl
  have howner := claimString_ok (get_claim hpayload "owner_id") body.ownerId_ne
  have hfilename := claimString_ok (get_claim hpayload "filename") body.filename_ne
  have hmedia := claimString_ok (get_claim hpayload "media_type") body.mediaType_ne
  have hpos : (0 : ℤ) < body.maxBytes := by exact_mod_cast body.maxBytes_pos
  have hlimit : (int? (.int body.maxBytes)).filter (0 < ·) = some (body.maxBytes : ℤ) := by
    simpa [int?] using hpos
  unfold uploadRequest
  rw [hok]
  simp only [bind, Except.bind, hartifact, hupload, hmax, hlimit, hsha256, howner, hfilename,
    hmedia]
  by_cases hbinding : artifactId' = artifactId ∧ uploadId' = uploadId
  · obtain ⟨rfl, rfl⟩ := hbinding
    cases hlength : contentLength.check body.maxBytes with
    | error e => simp [text?]
    | ok _ =>
      simp only [text?, ne_eq, not_true_eq_false, or_self, if_false, and_self, true_and]
      exact ⟨fun h => (Except.ok.inj h).symm, fun h => congrArg Except.ok h.symm⟩
  · have hrefused : text? (.str artifactId) ≠ some artifactId' ∨
        text? (.str uploadId) ≠ some uploadId' := by
      by_contra hnone
      obtain ⟨hartifact', hupload'⟩ := not_or.mp hnone
      exact hbinding ⟨(Option.some.inj (not_not.mp hartifact')).symm,
        (Option.some.inj (not_not.mp hupload')).symm⟩
    rw [if_pos hrefused]
    exact ⟨fun h => (by cases h), fun h => absurd h.1 hbinding⟩

/-- What a download under a capability needs. -/
theorem downloadAllowed_ok {body : CreateDownloadRequest} {artifactId artifactId' : String}
    {maxBytes : ℕ} (hpayload : claims.payload = sortedMembers
      ((Capability.download body artifactId maxBytes).terms settings issuedAt uuid).payload)
    (hok : capability settings other authorization "artifact_download" now = .ok claims) :
    downloadAllowed settings other artifactId' authorization now = .ok () ↔
      artifactId' = artifactId := by
  have hartifact : claims.payload.get "artifact_id" = .str artifactId := get_claim hpayload _
  unfold downloadAllowed
  rw [hok]
  simp only [bind, Except.bind, hartifact]
  by_cases hbinding : artifactId' = artifactId
  · subst hbinding
    simp [text?]
    rfl
  · have hrefused : text? (.str artifactId) ≠ some artifactId' := fun h =>
      hbinding (Option.some.inj h).symm
    rw [if_pos hrefused]
    exact ⟨fun h => (by cases h), fun h => absurd h hbinding⟩

end Presented

/-! ## What is given out -/

section Issued

variable {settings : ArtifactSettings} {other : List UInt8 → Option (List Char)}
  {issuedAt : ℤ} {uuid : Hex}

theorem length_of_readGrant {key : GrantKey} {token : List Char} {payload : Members}
    (h : readGrant key token = .ok payload) : token.length ≤ 64 * 1024 := by
  unfold readGrant at h
  split_ifs at h with hrefused
  exact not_lt.mp fun hlong => hrefused (.inr hlong)

/-- The service has read its own token. -/
theorem length_of_issued {c : Capability} {claims : Claims} {operation : Option String}
    (h : verifyGrant (settings.key other) (issueGrant settings.mac (c.terms settings issuedAt uuid))
      "artifact-transfer" operation 900 issuedAt = .ok claims) :
    (issueGrant settings.mac (c.terms settings issuedAt uuid)).length ≤ 64 * 1024 ∧
      claims.expiresAt = issuedAt + settings.capabilityTtlSeconds := by
  have hlength := length_of_readGrant (verifyGrant_ok h).read
  obtain ⟨-, hpayload⟩ := admits_of_verified c.fresh_terms hlength h
  have hexpires := (verifyGrant_ok h).expiresAt
  rw [get_claim hpayload] at hexpires
  exact ⟨hlength, (Option.some.inj hexpires).symm⟩

/-- The target of an upload that the service has agreed to. -/
structure UploadTarget.For (settings : ArtifactSettings) (body : CreateUploadRequest)
    (issuedAt : ℤ) (uuid : Hex) (target : UploadTarget) : Prop where
  limit : body.maxBytes ≤ settings.maxFileBytes
  token : target.token = issueGrant settings.mac
    ((Capability.upload body target.artifactId target.uploadId).terms settings issuedAt uuid)
  length : target.token.length ≤ 64 * 1024
  expiresAt : target.expiresAt = issuedAt + settings.capabilityTtlSeconds

theorem createUpload_ok {body : CreateUploadRequest} {artifactHex uploadHex : String}
    {target : UploadTarget}
    (h : createUpload settings other body artifactHex uploadHex uuid issuedAt = .ok target) :
    target.For settings body issuedAt uuid := by
  unfold createUpload at h
  split_ifs at h with hlimit
  dsimp only at h
  split at h
  · cases h
  · rename_i claims hclaims
    obtain ⟨hlength, hexpires⟩ := length_of_issued hclaims
    cases h
    exact ⟨not_lt.mp hlimit, rfl, hlength, hexpires⟩

/-- The target is the one that the service gives out for the request. -/
structure DownloadTarget.For (settings : ArtifactSettings) (body : CreateDownloadRequest)
    (maxBytes : ℕ) (issuedAt : ℤ) (uuid : Hex) (target : DownloadTarget) : Prop where
  token : target.token = issueGrant settings.mac
    ((Capability.download body target.artifactId maxBytes).terms settings issuedAt uuid)
  length : target.token.length ≤ 64 * 1024
  expiresAt : target.expiresAt = issuedAt + settings.capabilityTtlSeconds

theorem createDownload_ok {H : Type} {artifactId : String}
    {inspected : Option (ArtifactDescriptor H)} {body : CreateDownloadRequest}
    {target : DownloadTarget}
    (h : createDownload settings other artifactId inspected body uuid issuedAt = .ok target) :
    ∃ d, inspected = some d ∧ target.artifactId = artifactId ∧
      target.For settings body d.size issuedAt uuid := by
  unfold createDownload at h
  split at h
  · cases h
  · rename_i d
    dsimp only at h
    split at h
    · cases h
    · rename_i claims hclaims
      obtain ⟨hlength, hexpires⟩ := length_of_issued hclaims
      cases h
      exact ⟨d, rfl, rfl, rfl, hlength, hexpires⟩

/-- Where the service can read its token, it gives it out. -/
theorem createUpload_gives {body : CreateUploadRequest} {artifactHex uploadHex artifactId uploadId :
      String} (hlimit : body.maxBytes ≤ settings.maxFileBytes)
    (hartifact : artifactId = (body.artifactId.filter (· ≠ "")).getD ("artifact_" ++ artifactHex))
    (hupload : uploadId = "upload_" ++ uploadHex)
    (hlength : (issueGrant settings.mac ((Capability.upload body artifactId uploadId).terms settings
      issuedAt uuid)).length ≤ 64 * 1024) :
    createUpload settings other body artifactHex uploadHex uuid issuedAt = .ok
      { artifactId := artifactId
        uploadId := uploadId
        url := settings.transferBaseUrl ++ "/v1/transfers/uploads/" ++ artifactId ++ "/" ++ uploadId
        token := issueGrant settings.mac
          ((Capability.upload body artifactId uploadId).terms settings issuedAt uuid)
        expiresAt := issuedAt + settings.capabilityTtlSeconds } := by
  have httl := settings.capabilityTtlSeconds_range.1
  have hverify : verifyGrant (settings.key other) (issueGrant settings.mac ((Capability.upload body
      artifactId uploadId).terms settings issuedAt uuid)) "artifact-transfer"
      (some "artifact_upload") 900 issuedAt = .ok ((Capability.upload body artifactId
        uploadId).terms settings issuedAt uuid).verified :=
    verifyGrant_terms hlength ⟨by omega, by omega⟩
  rw [createUpload, if_neg (not_lt.mpr hlimit), ← hartifact, ← hupload]
  simp only [hverify]
  rfl

theorem UploadTarget.For.uploadRequest_iff {body : CreateUploadRequest} {target : UploadTarget}
    (h : target.For settings body issuedAt uuid) {artifactId uploadId : String}
    {contentLength : ContentLength} {stream : List Bytes} {request : PutRequest String String}
    {now : ℤ} :
    uploadRequest settings other artifactId uploadId (bearer ++ target.token) contentLength stream
        now = .ok request ↔
      (artifactId = target.artifactId ∧ uploadId = target.uploadId) ∧
        (issuedAt - 30 ≤ now ∧ now < target.expiresAt) ∧
        contentLength.check body.maxBytes = .ok () ∧
        request = body.putRequest target.uploadId stream := by
  obtain ⟨-, htoken, hlength, hexpires⟩ := h
  rw [htoken] at hlength
  rw [htoken, hexpires]
  have hpayload := payload_verified
    ((Capability.upload body target.artifactId target.uploadId).terms settings issuedAt uuid)
  constructor
  · intro hrequest
    obtain ⟨claims, hclaims⟩ := capability_of_uploadRequest hrequest
    obtain ⟨-, hwindow, rfl⟩ := (capability_issued hlength).mp hclaims
    obtain ⟨hurl, hbody, rfl⟩ := (uploadRequest_ok hpayload hclaims).mp hrequest
    exact ⟨hurl, hwindow, hbody, rfl⟩
  · rintro ⟨hurl, hwindow, hbody, rfl⟩
    exact (uploadRequest_ok hpayload ((capability_issued hlength).mpr ⟨rfl, hwindow, rfl⟩)).mpr
      ⟨hurl, hbody, rfl⟩

/-- **An upload capability starts the upload that was asked for**, at the URL of its target, until
it expires, and with a body that does not declare more than the limit; it opens no download. -/
theorem upload_of_createUpload {body : CreateUploadRequest} {artifactHex uploadHex : String}
    {target : UploadTarget}
    (hcreated : createUpload settings other body artifactHex uploadHex uuid issuedAt = .ok target)
    (artifactId uploadId : String) (contentLength : ContentLength) (stream : List Bytes)
    (now : ℤ) :
    (∀ request, uploadRequest settings other artifactId uploadId (bearer ++ target.token)
        contentLength stream now = .ok request ↔
      (artifactId = target.artifactId ∧ uploadId = target.uploadId) ∧
        (issuedAt - 30 ≤ now ∧ now < target.expiresAt) ∧
        contentLength.check body.maxBytes = .ok () ∧
        request = body.putRequest target.uploadId stream) ∧
    downloadAllowed settings other artifactId (bearer ++ target.token) now ≠ .ok () := by
  have hfor := createUpload_ok hcreated
  refine ⟨fun request => hfor.uploadRequest_iff, fun hallowed => ?_⟩
  obtain ⟨-, htoken, hlength, -⟩ := hfor
  rw [htoken] at hlength hallowed
  obtain ⟨claims, hclaims⟩ := capability_of_downloadAllowed hallowed
  obtain ⟨hoperation, -⟩ := (capability_issued hlength).mp hclaims
  exact artifact_upload_ne hoperation

/-- **A download capability opens the Artifact it was given out for**, until it expires, and starts
no upload. -/
theorem download_of_createDownload {H : Type} {artifactId : String}
    {inspected : Option (ArtifactDescriptor H)} {body : CreateDownloadRequest}
    {target : DownloadTarget}
    (hcreated : createDownload settings other artifactId inspected body uuid issuedAt = .ok target)
    (artifactId' uploadId : String) (contentLength : ContentLength) (stream : List Bytes)
    (now : ℤ) :
    (downloadAllowed settings other artifactId' (bearer ++ target.token) now = .ok () ↔
      artifactId' = artifactId ∧ issuedAt - 30 ≤ now ∧ now < target.expiresAt) ∧
    ∀ request, uploadRequest settings other artifactId' uploadId (bearer ++ target.token)
      contentLength stream now ≠ .ok request := by
  obtain ⟨d, -, hartifact, htoken, hlength, hexpires⟩ := createDownload_ok hcreated
  rw [htoken] at hlength
  rw [htoken, hexpires, ← hartifact]
  have hpayload := payload_verified
    ((Capability.download body target.artifactId d.size).terms settings issuedAt uuid)
  refine ⟨⟨fun hallowed => ?_, fun ⟨hurl, hwindow⟩ => ?_⟩, fun request hrequest => ?_⟩
  · obtain ⟨claims, hclaims⟩ := capability_of_downloadAllowed hallowed
    obtain ⟨-, hwindow, rfl⟩ := (capability_issued hlength).mp hclaims
    exact ⟨(downloadAllowed_ok hpayload hclaims).mp hallowed, hwindow⟩
  · refine (downloadAllowed_ok hpayload ?_).mpr hurl
    exact (capability_issued hlength).mpr ⟨rfl, hwindow, rfl⟩
  · obtain ⟨claims, hclaims⟩ := capability_of_uploadRequest hrequest
    obtain ⟨hoperation, -⟩ := (capability_issued hlength).mp hclaims
    exact artifact_upload_ne hoperation.symm

end Issued

/-! ## An upload and a download -/

/-- Settings with a limit of a kilobyte. -/
def reportSettings : ArtifactSettings where
  apiKey := "0123456789abcdef0123456789abcdef"
  mac := sampleMac
  capabilityTtlSeconds := 300
  maxFileBytes := 1024
  transferBaseUrl := "http://artifact-service:8093"
  apiKey_length := by decide
  capabilityTtlSeconds_range := by decide
  maxFileBytes_range := by decide

/-- A request for the upload of a text. -/
def reportUpload : CreateUploadRequest where
  ownerId := "owner_1"
  filename := "report.txt"
  mediaType := "text/plain"
  maxBytes := 16
  expectedSha256 := none
  artifactId := none
  subjectId := some "user_1"
  appId := none
  ownerId_ne := by decide
  filename_ne := by decide
  mediaType_ne := by decide
  maxBytes_pos := by decide

/-- The nonce of a capability. -/
def reportHex : Hex := ⟨"c3", by decide⟩

/-- What the service gives out for it. -/
def reportTarget : UploadTarget where
  artifactId := "artifact_a1"
  uploadId := "upload_b2"
  url := "http://artifact-service:8093/v1/transfers/uploads/artifact_a1/upload_b2"
  token := issueGrant sampleMac
    ((Capability.upload reportUpload "artifact_a1" "upload_b2").terms reportSettings 100 reportHex)
  expiresAt := 400

theorem length_reportTarget : reportTarget.token.length ≤ 64 * 1024 := by
  have hencoded : ((Capability.upload reportUpload "artifact_a1" "upload_b2").terms reportSettings
    100 reportHex).encoded.length ≤ 1000 := by decide +kernel
  have := length_issueGrant_le sampleMac
    ((Capability.upload reportUpload "artifact_a1" "upload_b2").terms reportSettings 100 reportHex)
  exact this.trans (by omega)

theorem createUpload_report : createUpload reportSettings (fun _ => none) reportUpload "a1" "b2"
    reportHex 100 = .ok reportTarget :=
  createUpload_gives (by decide) (by decide) (by decide) length_reportTarget

/-- The report is put, and got with a capability of its own. -/
theorem upload_of_createUpload_report :
    uploadRequest reportSettings (fun _ => none) "artifact_a1" "upload_b2"
      (bearer ++ reportTarget.token) (.declared 3) [[1, 2], [3]] 200 =
        .ok (reportUpload.putRequest "upload_b2" [[1, 2], [3]]) :=
  ((upload_of_createUpload createUpload_report _ _ _ _ 200).1 _).mpr
    ⟨⟨rfl, rfl⟩, by decide, rfl, rfl⟩

end CodexGateway.Artifact
