import Mathlib.Data.List.Basic
import Mathlib.Logic.Function.Basic
import Mathlib.Tactic.Common

/-!
# StorageOps/Capture — the one-shot tasks `capture` and `upload-capture`

`capture` copies a file of the Workspace to the spool directory of its operation, and a manifest
makes the copy the capture; `upload-capture` sends the copy to the Artifact Service and removes the
directory.  A stage is a point between two file or network operations, where a task may be killed.

What is read through an open descriptor is the file as it was when it was opened, or the check of
its identity fails: the Agent may change the file at any time.
-/

namespace CodexGateway.StorageOps

/-- The content of a file. -/
abbrev Bytes := List UInt8

/-- The JSON object of `manifest.json`. -/
structure Manifest (H : Type) where
  source : String
  filename : String
  size : ℕ
  sha256 : H
deriving DecidableEq

/-- The descriptor that the Artifact Service answers with. -/
structure ArtifactInfo (H : Type) where
  artifactId : String
  size : ℕ
  sha256 : H
deriving DecidableEq

/-- The files of one operation in the spool. -/
structure Spool (H : Type) where
  contentPart : Option Bytes
  content : Option Bytes
  manifestPart : Option (Manifest H)
  manifest : Option (Manifest H)

/-- A spool without a capture. -/
def Spool.empty {H : Type} : Spool H := ⟨none, none, none, none⟩

/-- What the tasks work on.  `captures` and `uploads` are the captures that a manifest has made, and
the bodies that have been sent, the latest last. -/
structure Storage (H : Type) where
  source : Option Bytes
  spool : Spool H
  artifacts : String → Option (ArtifactInfo H)
  captures : List Bytes
  uploads : List Bytes

/-- The arguments of the tasks.  `sourceAllowed` is the check of the path, `filename` its end. -/
structure TaskInput where
  source : String
  filename : String
  sourceAllowed : Bool
  maxBytes : ℕ

/-- The call that a task is at. -/
inductive Stage (H : Type) where
  | captureCheck
  | captureOpen
  | captureCopy (file : Bytes)
  | captureReplace (result : Manifest H)
  | captureManifest (result : Manifest H)
  | captureCommit (result : Manifest H)
  | captureFsync (result : Manifest H)
  | captured (result : Manifest H)
  | uploadVerify (artifactId : String)
  | uploadPut (artifactId : String) (manifest : Manifest H) (content : Bytes)
  | uploadCheck (manifest : Manifest H) (result : ArtifactInfo H)
  | uploadRemove (result : ArtifactInfo H)
  | uploadRemoveRest (result : ArtifactInfo H)
  | uploadFsync (result : ArtifactInfo H)
  | uploaded (result : ArtifactInfo H)
  | failed (error : String)

/-- The task has come to its end. -/
def Stage.ended {H : Type} : Stage H → Bool
  | .captured _ | .uploaded _ | .failed _ => true
  | _ => false

variable {H : Type} [DecidableEq H] (sha256 : Bytes → H)

/-- `_verify_capture_content`, as the test that it does not raise. -/
def verifyCaptureContent (content : Bytes) (manifest : Manifest H) : Bool :=
  content.length = manifest.size && sha256 content = manifest.sha256

/-- What `_verify_capture_content` raises where it does. -/
def captureMismatch (content : Bytes) (manifest : Manifest H) : String :=
  if content.length ≠ manifest.size then "Captured content does not match its manifest"
  else "Captured content digest changed"

/-- The manifest of a copy. -/
def TaskInput.manifestOf (input : TaskInput) (content : Bytes) : Manifest H :=
  ⟨input.source, input.filename, content.length, sha256 content⟩

/-- The Artifact Service takes a body under an `artifact_id`: the first one is committed, and later
ones are answered with the descriptor that is there. -/
def Storage.put (st : Storage H) (artifactId : String) (body : Bytes) :
    Storage H × ArtifactInfo H :=
  match st.artifacts artifactId with
  | some existing => ({ st with uploads := st.uploads ++ [body] }, existing)
  | none =>
    let info := ⟨artifactId, body.length, sha256 body⟩
    ({ st with
        uploads := st.uploads ++ [body]
        artifacts := Function.update st.artifacts artifactId (some info) }, info)

/-- The next operation of a task; `contentFirst` is the order in which `rmtree` meets the files.  Of
an `OSError` the text is its `strerror`. -/
def taskStep (input : TaskInput) (st : Storage H) (contentFirst : Bool) :
    Stage H → Storage H × Stage H
  | .captureCheck =>
    if input.sourceAllowed = false then
      (st, .failed "Published path is outside an assistant output directory")
    else
      match st.spool.manifest, st.spool.content with
      | some existing, some content =>
        if existing.source ≠ input.source then
          (st, .failed "Capture operation is bound to another source")
        else if verifyCaptureContent sha256 content existing then (st, .captured existing)
        else (st, .failed (captureMismatch content existing))
      | _, _ => (st, .captureOpen)
  | .captureOpen =>
    match st.source with
    | none => (st, .failed "Published path cannot be opened safely")
    | some file =>
      -- `temporary.open("xb")` does not open a file that a killed capture has left.
      if st.spool.contentPart.isSome then (st, .failed "File exists")
      else ({ st with spool := { st.spool with contentPart := some [] } }, .captureCopy file)
  | .captureCopy file =>
    if file.length > input.maxBytes then
      (st, .failed "Published file exceeds the operation limit")
    else
      ({ st with spool := { st.spool with contentPart := some file } },
        .captureReplace (input.manifestOf sha256 file))
  | .captureReplace result =>
    ({ st with spool := { st.spool with content := st.spool.contentPart, contentPart := none } },
      .captureManifest result)
  | .captureManifest result =>
    if st.spool.manifestPart.isSome then (st, .failed "File exists")
    else
      ({ st with spool := { st.spool with manifestPart := some result } }, .captureCommit result)
  | .captureCommit result =>
    ({ st with
        spool := { st.spool with manifest := st.spool.manifestPart, manifestPart := none }
        captures := st.captures ++ st.spool.content.toList }, .captureFsync result)
  | .captureFsync result => (st, .captured result)
  | .uploadVerify artifactId =>
    match st.spool.manifest, st.spool.content with
    | some manifest, some content =>
      if verifyCaptureContent sha256 content manifest then
        (st, .uploadPut artifactId manifest content)
      else (st, .failed (captureMismatch content manifest))
    | some _, none => (st, .failed "No such file or directory")
    | none, _ => (st, .failed "Operation manifest is missing or invalid")
  | .uploadPut artifactId manifest content =>
    ((st.put sha256 artifactId content).1,
      .uploadCheck manifest (st.put sha256 artifactId content).2)
  | .uploadCheck manifest result =>
    if result.sha256 ≠ manifest.sha256 ∨ result.size ≠ manifest.size then
      (st, .failed "Artifact upload returned an invalid descriptor")
    else (st, .uploadRemove result)
  | .uploadRemove result =>
    if contentFirst then
      ({ st with spool := { st.spool with content := none } }, .uploadRemoveRest result)
    else ({ st with spool := { st.spool with manifest := none } }, .uploadRemoveRest result)
  | .uploadRemoveRest result => ({ st with spool := Spool.empty }, .uploadFsync result)
  | .uploadFsync result => (st, .uploaded result)
  | .captured result => (st, .captured result)
  | .uploaded result => (st, .uploaded result)
  | .failed error => (st, .failed error)

/-- A task is killed or raises.  Its PUT may already have reached the Artifact Service. -/
def taskFail (st : Storage H) (applied : Bool) (error : String) :
    Stage H → Storage H × Stage H
  | .uploadPut artifactId _ content =>
    (if applied then (st.put sha256 artifactId content).1 else st, .failed error)
  | _ => (st, .failed error)

end CodexGateway.StorageOps
