import Mathlib.Data.Int.Notation
import Mathlib.Logic.Function.Basic
import CodexGateway.Library.Pool

/-!
# Artifact/Store — `upload_and_commit` against an object store

The calls are those on one `artifact_id`: a body is staged under the key of its upload, copied to
the key of its digest and published by a manifest that is put only where there is none.  Each
`await` of the code is one step of a call, taken between any steps of the others; it may succeed,
raise with or without its effect on the store, or never return because the process is gone.

`H` is the type of digests and `sha256` the digest of `hashlib`; `U` is the type of upload ids.
-/

namespace CodexGateway.Artifact

/-- The content of an object. -/
abbrev Bytes := List UInt8

/-- `_PART_SIZE` -/
def partSize : ℕ := 8 * 1024 * 1024

/-- What a manifest says of an Artifact. -/
structure ArtifactDescriptor (H : Type) where
  ownerId : String
  filename : String
  mediaType : String
  size : ℕ
  sha256 : H
  createdAt : ℤ
deriving DecidableEq

/-- The arguments of `upload_and_commit`; the body is the chunks of the request stream. -/
structure PutRequest (U H : Type) where
  uploadId : U
  body : List Bytes
  ownerId : String
  filename : String
  mediaType : String
  maxBytes : ℕ
  expectedSha256 : Option H

/-- The objects of one Artifact in the bucket, and the multipart uploads still open. -/
structure Bucket (U H : Type) where
  manifest : Option (ArtifactDescriptor H)
  content : H → Option Bytes
  staging : U → Option Bytes
  multiparts : ℕ → Option (List Bytes)
  nextMultipart : ℕ

variable {U H : Type} [DecidableEq U] [DecidableEq H]

namespace Bucket

/-- The bucket before the first transfer. -/
def empty : Bucket U H := ⟨none, fun _ => none, fun _ => none, fun _ => none, 0⟩

/-- A multipart upload starts. -/
def createMultipartUpload (b : Bucket U H) : Bucket U H × ℕ :=
  ({ b with
      multiparts := Function.update b.multiparts b.nextMultipart (some [])
      nextMultipart := b.nextMultipart + 1 }, b.nextMultipart)

/-- A part is sent to a multipart upload. -/
def uploadPart (b : Bucket U H) (multipart : ℕ) (part : Bytes) : Bucket U H :=
  { b with
    multiparts := Function.update b.multiparts multipart
      ((b.multiparts multipart).map fun parts => parts ++ [part]) }

/-- A multipart upload is given up. -/
def abortMultipartUpload (b : Bucket U H) (multipart : ℕ) : Bucket U H :=
  { b with multiparts := Function.update b.multiparts multipart none }

/-- The parts become the object under the staging key. -/
def completeMultipartUpload (b : Bucket U H) (uploadId : U) (multipart : ℕ) : Bucket U H :=
  { b.abortMultipartUpload multipart with
    staging := Function.update b.staging uploadId ((b.multiparts multipart).map List.flatten) }

/-- The staged object of a transfer is written. -/
def putStaging (b : Bucket U H) (uploadId : U) (bytes : Bytes) : Bucket U H :=
  { b with staging := Function.update b.staging uploadId (some bytes) }

/-- The staged object of a transfer goes. -/
def deleteStaging (b : Bucket U H) (uploadId : U) : Bucket U H :=
  { b with staging := Function.update b.staging uploadId none }

/-- The object of a digest is written. -/
def putContent (b : Bucket U H) (sha256 : H) (bytes : Bytes) : Bucket U H :=
  { b with content := Function.update b.content sha256 (some bytes) }

/-- The object of a digest goes. -/
def deleteContent (b : Bucket U H) (sha256 : H) : Bucket U H :=
  { b with content := Function.update b.content sha256 none }

/-- The manifest is written. -/
def putManifest (b : Bucket U H) (descriptor : ArtifactDescriptor H) : Bucket U H :=
  { b with manifest := some descriptor }

/-- `open_download`: the manifest and the object at its content key. -/
def openDownload (b : Bucket U H) : Option (ArtifactDescriptor H × Bytes) :=
  b.manifest.bind fun descriptor => (b.content descriptor.sha256).map fun bytes => (descriptor, bytes)

end Bucket

/-- `_match_existing`, as the test that it does not raise. -/
def matchExisting (descriptor : ArtifactDescriptor H) (request : PutRequest U H)
    (expectedSha256 : Option H) : Bool :=
  descriptor.ownerId = request.ownerId && descriptor.filename = request.filename &&
    descriptor.mediaType = request.mediaType &&
    (expectedSha256.isNone || some descriptor.sha256 = expectedSha256)

/-! ## The stages of a call -/

/-- Where a call awaits.  `received` is what the digest has seen of the body, `buffer` the end of it
that is not yet in a part, `parts` the number of parts sent. -/
inductive Stage (H : Type) where
  | inspect
  | createMultipart
  | receive (multipart : ℕ) (chunks : List Bytes) (received buffer : Bytes) (parts : ℕ)
  | uploadPart (multipart : ℕ) (chunks : List Bytes) (received buffer : Bytes) (parts : ℕ)
  | uploadRest (multipart : ℕ) (received buffer : Bytes) (parts : ℕ)
  | complete (multipart : ℕ) (received : Bytes)
  | abortEmpty (multipart : ℕ) (received : Bytes)
  | putEmpty (received : Bytes)
  | abortRaise (multipart : ℕ)
  | commitInspect (descriptor : ArtifactDescriptor H)
  | copy (descriptor : ArtifactDescriptor H)
  | putManifest (descriptor : ArtifactDescriptor H)
  | inspectExisting (descriptor : ArtifactDescriptor H)
  | deleteContent (descriptor : ArtifactDescriptor H)
  /-- The `finally` of the commit, with what the call is about to return or raise. -/
  | deleteStaging (result : Option (ArtifactDescriptor H))
  | returned (descriptor : ArtifactDescriptor H)
  | raised
  | crashed

/-- A PUT that is under way. -/
structure Call (U H : Type) where
  request : PutRequest U H
  stage : Stage H

/-- What an outcome of the `finally` block ends as. -/
def Stage.ofResult : Option (ArtifactDescriptor H) → Stage H
  | some descriptor => .returned descriptor
  | none => .raised

variable (sha256 : Bytes → H)

/-- `while len(buffer) >= _PART_SIZE`, and the next chunk when it is done. -/
def Stage.afterPart (multipart : ℕ) (chunks : List Bytes) (received buffer : Bytes) (parts : ℕ) :
    Stage H :=
  if partSize ≤ buffer.length then .uploadPart multipart chunks received buffer parts
  else .receive multipart chunks received buffer parts

/-- What follows the last byte of the body: the digest is checked, then the upload is completed, or
replaced by an empty object if it has no part. -/
def Stage.afterBody (request : PutRequest U H) (multipart : ℕ) (received : Bytes) (parts : ℕ) :
    Stage H :=
  if request.expectedSha256.isSome ∧ request.expectedSha256 ≠ some (sha256 received) then
    .abortRaise multipart
  else if parts ≠ 0 then .complete multipart received
  else .abortEmpty multipart received

/-- The descriptor that is committed for what a transfer has received. -/
def descriptorOf (request : PutRequest U H) (received : Bytes) (now : ℤ) : ArtifactDescriptor H where
  ownerId := request.ownerId
  filename := request.filename
  mediaType := request.mediaType
  size := received.length
  sha256 := sha256 received
  createdAt := now

/-- The awaited call succeeds, at time `now`. -/
def proceed (request : PutRequest U H) (now : ℤ) (b : Bucket U H) :
    Stage H → Option (Bucket U H × Stage H)
  | .inspect =>
    match b.manifest with
    | none => some (b, .createMultipart)
    | some existing =>
      some (b, if matchExisting existing request request.expectedSha256 then .returned existing
        else .raised)
  | .createMultipart =>
    some (b.createMultipartUpload.1, .receive b.createMultipartUpload.2 request.body [] [] 0)
  | .receive multipart [] received buffer parts =>
    some (b, if buffer ≠ [] then .uploadRest multipart received buffer parts
      else .afterBody sha256 request multipart received parts)
  | .receive multipart (chunk :: chunks) received buffer parts =>
    some (b, if chunk = [] then .receive multipart chunks received buffer parts
      else if request.maxBytes < (received ++ chunk).length then .abortRaise multipart
      else .afterPart multipart chunks (received ++ chunk) (buffer ++ chunk) parts)
  | .uploadPart multipart chunks received buffer parts =>
    some (b.uploadPart multipart (buffer.take partSize),
      .afterPart multipart chunks received (buffer.drop partSize) (parts + 1))
  | .uploadRest multipart received buffer parts =>
    some (b.uploadPart multipart buffer, .afterBody sha256 request multipart received (parts + 1))
  | .complete multipart received =>
    some (b.completeMultipartUpload request.uploadId multipart,
      .commitInspect (descriptorOf sha256 request received now))
  | .abortEmpty multipart received => some (b.abortMultipartUpload multipart, .putEmpty received)
  | .putEmpty received =>
    some (b.putStaging request.uploadId [],
      .commitInspect (descriptorOf sha256 request received now))
  | .abortRaise multipart => some (b.abortMultipartUpload multipart, .raised)
  | .commitInspect descriptor =>
    match b.manifest with
    | none => some (b, .copy descriptor)
    | some existing =>
      some (b, .deleteStaging
        (if matchExisting existing request (some descriptor.sha256) then some existing else none))
  | .copy descriptor =>
    match b.staging request.uploadId with
    | none => some (b, .deleteStaging none)
    | some bytes => some (b.putContent descriptor.sha256 bytes, .putManifest descriptor)
  | .putManifest descriptor =>
    -- `IfNoneMatch="*"`
    match b.manifest with
    | none => some (b.putManifest descriptor, .deleteStaging (some descriptor))
    | some _ => some (b, .inspectExisting descriptor)
  | .inspectExisting descriptor =>
    match b.manifest with
    | none => some (b, .deleteStaging none)
    | some existing =>
      some (b, if matchExisting existing request (some descriptor.sha256) then
          .deleteStaging (some existing)
        else if existing.sha256 ≠ descriptor.sha256 then .deleteContent descriptor
        else .deleteStaging none)
  | .deleteContent descriptor => some (b.deleteContent descriptor.sha256, .deleteStaging none)
  | .deleteStaging result => some (b.deleteStaging request.uploadId, .ofResult result)
  | .returned _ => none
  | .raised => none
  | .crashed => none

/-- What an exception from the awaited call leads to: an open multipart upload is aborted, a commit
runs its `finally` block, and the two deletions are suppressed.  A call that is over awaits
nothing. -/
def Stage.onError : Stage H → Option (Stage H)
  | .inspect => some .raised
  | .createMultipart => some .raised
  | .receive multipart _ _ _ _ => some (.abortRaise multipart)
  | .uploadPart multipart _ _ _ _ => some (.abortRaise multipart)
  | .uploadRest multipart _ _ _ => some (.abortRaise multipart)
  | .complete multipart _ => some (.abortRaise multipart)
  | .abortEmpty multipart _ => some (.abortRaise multipart)
  | .putEmpty _ => some .raised
  | .abortRaise _ => some .raised
  | .commitInspect _ => some (.deleteStaging none)
  | .copy _ => some (.deleteStaging none)
  | .putManifest _ => some (.deleteStaging none)
  | .inspectExisting _ => some (.deleteStaging none)
  | .deleteContent _ => some (.deleteStaging none)
  | .deleteStaging result => some (.ofResult result)
  | .returned _ => none
  | .raised => none
  | .crashed => none

/-- What an awaited call of a transfer does: it returns, it raises, or the process ends. -/
inductive CallAction where
  | proceed (now : ℤ)
  /-- The awaited call raises; `applied` says whether the store has carried it out. -/
  | fail (applied : Bool)
  | crash

/-- The awaited call, with the code up to the next one. -/
def act (b : Bucket U H) (call : Call U H) : CallAction → Option (Bucket U H × Call U H)
  | .proceed now =>
    (proceed sha256 call.request now b call.stage).map fun r => (r.1, { call with stage := r.2 })
  | .fail applied =>
    call.stage.onError.map fun stage =>
      (if applied then ((proceed sha256 call.request 0 b call.stage).map Prod.fst).getD b else b,
        { call with stage := stage })
  | .crash => call.stage.onError.map fun _ => (b, { call with stage := .crashed })

/-- The calls of `upload_and_commit` on one Artifact; the environment starts them. -/
def service : Pool.Program (Bucket U H) (Call U H) CallAction (PutRequest U H) where
  act := act sha256
  env b request := some (b, [⟨request, .inspect⟩])

/-- The transfers of an Artifact with the bucket they share. -/
abbrev Service (U H : Type) := Pool (Bucket U H) (Call U H)

/-- The service before any call. -/
def Service.init : Service U H := ⟨.empty, []⟩

end CodexGateway.Artifact
