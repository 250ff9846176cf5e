import CodexGateway.Library.Argparse
import CodexGateway.Library.JsonAscii
import CodexGateway.Library.JsonSorted

/-!
# StorageOps/CommandLine — the command line of a storage task

A task is a process: `main` reads its operation and the arguments from the command line, calls the
function of the operation, and prints the result as one line of JSON.  An error goes to stderr and
into the exit status.
-/

namespace CodexGateway.StorageOps.CommandLine

open PyJson Argparse

/-! ## The parser -/

/-- The subcommands. -/
inductive Command where
  | checkpoint
  | restore
  | retire
  | checkout
  | checkoutBatch
  | prepare
  | capture
  | uploadCapture
  | publish
  deriving DecidableEq

/-- The name a subcommand is called by. -/
def Command.name : Command → String
  | .checkpoint => "checkpoint"
  | .restore => "restore"
  | .retire => "retire"
  | .checkout => "checkout"
  | .checkoutBatch => "checkout-batch"
  | .prepare => "prepare"
  | .capture => "capture"
  | .uploadCapture => "upload-capture"
  | .publish => "publish"

/-- The mounted Workspace. -/
def workspaceFlag : Flag := ⟨"--workspace", .text, false, .text "/workspace", by decide⟩

/-- The Workspace an operation is for. -/
def workspaceIdFlag : Flag := ⟨"--workspace-id", .text, true, .none, by decide⟩

/-- The revision that is saved or restored. -/
def revisionFlag : Flag := ⟨"--revision", .text, true, .none, by decide⟩

/-- Where a restore puts the files of a revision. -/
def targetFlag : Flag := ⟨"--target", .text, false, .text "/restore", by decide⟩

/-- The S3 service of the repository. -/
def endpointFlag : Flag := ⟨"--endpoint", .text, true, .none, by decide⟩

/-- The bucket of the repository. -/
def bucketFlag : Flag := ⟨"--bucket", .text, true, .none, by decide⟩

/-- The path of the repository in its bucket. -/
def prefixFlag : Flag := ⟨"--prefix", .text, true, .none, by decide⟩

/-- The file of the Workspace that a download replaces. -/
def destinationFlag : Flag := ⟨"--destination", .text, true, .none, by decide⟩

/-- Where the content of an Artifact is fetched or sent. -/
def urlFlag : Flag := ⟨"--url", .text, true, .none, by decide⟩

/-- The capability for the content of an Artifact. -/
def tokenFlag : Flag := ⟨"--token", .text, true, .none, by decide⟩

/-- The bound on the size of a content. -/
def maxBytesFlag : Flag := ⟨"--max-bytes", .int, true, .none, by decide⟩

/-- The digest a content must have, where it is known. -/
def sha256Flag : Flag := ⟨"--sha256", .text, false, .none, by decide⟩

/-- The operation that a batch of downloads is for. -/
def operationIdFlag : Flag := ⟨"--operation-id", .text, true, .none, by decide⟩

/-- The user's message of the turn. -/
def userMessageIdFlag : Flag := ⟨"--user-message-id", .text, true, .none, by decide⟩

/-- The Agent's message of the turn. -/
def assistantMessageIdFlag : Flag := ⟨"--assistant-message-id", .text, true, .none, by decide⟩

/-- The Artifacts of a batch, as JSON. -/
def artifactsFlag : Flag := ⟨"--artifacts", .text, true, .none, by decide⟩

/-- The user who is to own what is written. -/
def agentUidFlag : Flag := ⟨"--agent-uid", .int, false, .int 10001, by decide⟩

/-- The group that is to own what is written. -/
def agentGidFlag : Flag := ⟨"--agent-gid", .int, false, .int 10001, by decide⟩

/-- The mounted spool of captured contents. -/
def spoolFlag : Flag := ⟨"--spool", .text, false, .text "/spool", by decide⟩

/-- The path of the Workspace that is published. -/
def sourceFlag : Flag := ⟨"--source", .text, true, .none, by decide⟩

/-- The options of a command, as `_parser` adds them. -/
def Command.flags : Command → List Flag
  | .checkpoint => [workspaceFlag, workspaceIdFlag]
  | .restore => [revisionFlag, targetFlag]
  | .retire => [endpointFlag, bucketFlag, prefixFlag]
  | .checkout => [workspaceFlag, destinationFlag, urlFlag, tokenFlag, maxBytesFlag, sha256Flag]
  | .checkoutBatch => [workspaceFlag, operationIdFlag, userMessageIdFlag, assistantMessageIdFlag,
      artifactsFlag, agentUidFlag, agentGidFlag]
  | .prepare => [workspaceFlag, agentUidFlag, agentGidFlag]
  | .capture => [workspaceFlag, spoolFlag, operationIdFlag, sourceFlag, maxBytesFlag]
  | .uploadCapture => [spoolFlag, operationIdFlag, urlFlag, tokenFlag]
  | .publish => [workspaceFlag, sourceFlag, urlFlag, tokenFlag, maxBytesFlag]

/-- Every subcommand, in the order in which the parser lists them. -/
def Command.all : List Command :=
  [.checkpoint, .restore, .retire, .checkout, .checkoutBatch, .prepare, .capture, .uploadCapture,
    .publish]

/-- The subcommand of a name. -/
def Command.ofName? (name : String) : Option Command := Command.all.find? (·.name = name)

theorem ofName?_name (c : Command) : Command.ofName? c.name = some c := by
  cases c <;> decide

/-- `parser.parse_args(argv)`, where the command comes first. -/
def parseArgs : List String → Except ArgError (Command × Namespace)
  | [] => .error (.required "operation")
  | name :: args =>
    if isOptional (optionStrings []) name then .error .usage
    else
      match Command.ofName? name with
      | none => .error .usage
      | some c => (parse c.flags args).map fun values => (c, values)

theorem parseArgs_name (c : Command) (args : List String) :
    parseArgs (c.name :: args) = (parse c.flags args).map fun values => (c, values) := by
  have hplain : isOptional (optionStrings []) c.name = false := by
    cases c <;> rfl
  rw [parseArgs, if_neg (by rw [hplain]; exact Bool.false_ne_true), ofName?_name]

/-! ## The task -/

/-- The functions of the operations: each returns a dictionary or raises with a text. -/
structure Operations where
  checkpoint (workspace workspaceId : String) : Except String Dict
  restore (revision target : String) : Except String Dict
  retireRepository (endpoint bucket keyPrefix : String) : Except String Dict
  checkout (workspace destination url token : String) (maxBytes : ℤ) (sha256 : Option String) :
    Except String Dict
  checkoutBatch (workspace userMessageId assistantMessageId : String) (artifacts : List Members)
    (operationId : String) (agentUid agentGid : ℤ) : Except String Dict
  prepareWorkspace (workspace : String) (agentUid agentGid : ℤ) : Except String Dict
  capture (workspace spool operationId source : String) (maxBytes : ℤ) : Except String Dict
  uploadCapture (spool operationId url token : String) : Except String Dict
  publish (workspace source url token : String) (maxBytes : ℤ) : Except String Dict

/-- The text an option has, which the parser has seen to. -/
def textOf (args : Namespace) (flag : Flag) : String :=
  match args flag.name with
  | .text text => text
  | _ => ""

/-- An argument that is a text. -/
def textOf? (args : Namespace) (flag : Flag) : Option String :=
  match args flag.name with
  | .text text => some text
  | _ => none

/-- An argument that is a number. -/
def intOf (args : Namespace) (flag : Flag) : ℤ :=
  match args flag.name with
  | .int i => i
  | _ => 0

/-- What a list of Artifacts is refused with. -/
def invalidArtifacts : String := "Operation Artifact list is invalid"

/-- The items of a list, where each is a dictionary. -/
def dictItems : List Json → Except String (List Members)
  | [] => .ok []
  | .obj ms :: items => (dictItems items).map (ms :: ·)
  | _ :: _ => .error invalidArtifacts

/-- `_json_list` -/
def jsonList (value : String) : Except String (List Members) :=
  match loads value.toList with
  | some (.arr items) => dictItems items
  | _ => .error invalidArtifacts

/-- The function of the operation, with its arguments. -/
def perform (ops : Operations) (c : Command) (args : Namespace) : Except String Dict :=
  match c with
  | .checkpoint => ops.checkpoint (textOf args workspaceFlag) (textOf args workspaceIdFlag)
  | .restore => ops.restore (textOf args revisionFlag) (textOf args targetFlag)
  | .retire =>
    ops.retireRepository (textOf args endpointFlag) (textOf args bucketFlag)
      (textOf args prefixFlag)
  | .checkout =>
    ops.checkout (textOf args workspaceFlag) (textOf args destinationFlag) (textOf args urlFlag)
      (textOf args tokenFlag) (intOf args maxBytesFlag) (textOf? args sha256Flag)
  | .checkoutBatch => do
    let artifacts ← jsonList (textOf args artifactsFlag)
    ops.checkoutBatch (textOf args workspaceFlag) (textOf args userMessageIdFlag)
      (textOf args assistantMessageIdFlag) artifacts (textOf args operationIdFlag)
      (intOf args agentUidFlag) (intOf args agentGidFlag)
  | .prepare =>
    ops.prepareWorkspace (textOf args workspaceFlag) (intOf args agentUidFlag)
      (intOf args agentGidFlag)
  | .capture =>
    ops.capture (textOf args workspaceFlag) (textOf args spoolFlag) (textOf args operationIdFlag)
      (textOf args sourceFlag) (intOf args maxBytesFlag)
  | .uploadCapture =>
    ops.uploadCapture (textOf args spoolFlag) (textOf args operationIdFlag) (textOf args urlFlag)
      (textOf args tokenFlag)
  | .publish =>
    ops.publish (textOf args workspaceFlag) (textOf args sourceFlag) (textOf args urlFlag)
      (textOf args tokenFlag) (intOf args maxBytesFlag)

/-- The exit status of a process, and what it has printed. -/
structure Printed where
  status : ℤ
  stdout : List Char
  stderr : List Char

/-- `json.dumps(result, sort_keys=True, separators=(",", ":"))` -/
def dumpsSorted (value : Json) : List Char := dumpsBy escapeAscii (sortKeys value)

/-- `main`; `usage` is what `argparse` prints where it exits. -/
def main (ops : Operations) (usage : ArgError → List Char) (argv : List String) :
    Printed :=
  match parseArgs argv with
  | .error .help => ⟨0, usage .help, []⟩
  | .error e => ⟨2, [], usage e⟩
  | .ok (c, args) =>
    match perform ops c args with
    | .error text => ⟨1, [], text.toList ++ ['\n']⟩
    | .ok result => ⟨0, dumpsSorted result.toJson ++ ['\n'], []⟩

/-! ## Dictionaries that are printed and read -/

theorem dictItems_map (ds : List Members) : dictItems (ds.map Json.obj) = .ok ds := by
  induction ds with
  | nil => rfl
  | cons d ds ih =>
    rw [List.map_cons, dictItems, ih]
    rfl

theorem sortKeysList_map (ds : List Dict) :
    sortKeysList (ds.map Dict.toJson) = (ds.map fun d => sortedMembers d.members).map Json.obj := by
  induction ds with
  | nil => rfl
  | cons d ds ih =>
    rw [List.map_cons, sortKeysList, ih]
    rfl

theorem wellFormedList_map (ds : List Dict) : WellFormedList (ds.map Dict.toJson) := by
  induction ds with
  | nil => trivial
  | cons d ds ih => exact ⟨d.wellFormed, ih⟩

theorem loads_dumpsSorted {v : Json} (h : WellFormed v) :
    loads (dumpsSorted v) = some (sortKeys v) :=
  loads_dumpsBy readsBack_escapeAscii (wellFormed_sortKeys h)

/-- **A list of dictionaries is read as it was printed**, with the keys in order. -/
theorem jsonList_dumpsSorted (ds : List Dict) :
    jsonList (String.ofList (dumpsSorted (.arr (ds.map Dict.toJson)))) =
      .ok (ds.map fun d => sortedMembers d.members) := by
  have hloads : loads (dumpsSorted (.arr (ds.map Dict.toJson))) =
      some (.arr ((ds.map fun d => sortedMembers d.members).map Json.obj)) := by
    have hwell : WellFormed (.arr (ds.map Dict.toJson)) := wellFormedList_map ds
    rw [loads_dumpsSorted hwell, sortKeys, sortKeysList_map]
  rw [jsonList, String.toList_ofList, hloads]
  exact dictItems_map _

end CodexGateway.StorageOps.CommandLine
