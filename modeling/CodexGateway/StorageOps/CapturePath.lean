import CodexGateway.StorageOps.CaptureRetry
import CodexGateway.StorageOps.Checkout

/-!
# StorageOps/CapturePath — what `capture` opens in a Workspace that the Agent has made

The components of the source are opened one below the other, without following a link, and only then
is the descriptor inspected.  The last component is opened without `O_NONBLOCK`, so a FIFO that has
no writer, or a device whose open waits, keeps the task for ever; it is safe otherwise
(`capture_safe_iff`).
-/

namespace CodexGateway.StorageOps

open SandboxApi

/-! ## The tree -/

/-- What opening a device for reading does. -/
inductive DeviceOpen where
  | opens
  | refuses
  | waits
deriving DecidableEq

/-- A node of the Workspace.  Of a FIFO it matters whether a writer has it open. -/
inductive Node where
  | dir (entries : Text → Option Node)
  | file (bytes : Bytes)
  | symlink (target : Text)
  | fifo (writer : Bool)
  | socket
  | device (open_ : DeviceOpen)

/-- The entries of a directory. -/
abbrev Entries := Text → Option Node

/-- Opening the node for reading does not return. -/
def Node.waits : Node → Bool
  | .fifo writer => !writer
  | .device open_ => open_ = .waits
  | _ => false

/-- What `os.open` comes to. -/
inductive Opened where
  | descriptor (node : Node)
  | error (error : String)
  | waits

/-- The refusal of a path that cannot be opened. -/
def notOpened : String := "Published path cannot be opened safely"

/-- `os.open(part, O_RDONLY | O_NOFOLLOW, dir_fd=parent)` -/
def openFile : Option Node → Opened
  | some (.fifo false) | some (.device .waits) => .waits
  | none | some (.symlink _) | some .socket | some (.device .refuses) => .error notOpened
  | some node => .descriptor node

/-- `_open_workspace_file`, below a directory. -/
def openWorkspaceFile : Entries → List Text → Opened
  | _, [] => .error notOpened
  | entries, [part] =>
    if '\x00' ∈ part then .error "embedded null byte" else openFile (entries part)
  | entries, part :: next :: parts =>
    if '\x00' ∈ part then .error "embedded null byte"
    else
      -- `O_DIRECTORY` refuses everything else before it is opened.
      match entries part with
      | some (.dir below) => openWorkspaceFile below (next :: parts)
      | _ => .error notOpened

/-- **The components lead to the node**, each but the last one a directory and none a link. -/
def Leads : Entries → List Text → Node → Prop
  | _, [], _ => False
  | entries, [part], node => '\x00' ∉ part ∧ entries part = some node
  | entries, part :: parts, node =>
    '\x00' ∉ part ∧ ∃ below, entries part = some (.dir below) ∧ Leads below parts node

/-! ## The task -/

/-- The arguments of the task. -/
def TaskInput.ofSource (source : String) (maxBytes : ℕ) : TaskInput where
  source := source
  filename := String.ofList ((pathParts source.toList).getLastD [])
  sourceAllowed := (captureParts source.toList).isOk
  maxBytes := maxBytes

variable {H : Type} [DecidableEq H] (sha256 : Bytes → H)

/-- `capture` once it has its descriptor. -/
def captureDescriptor (input : TaskInput) (st : Storage H) : Node → Storage H × Stage H
  | .file bytes =>
    Nat.iterate (fun s : Storage H × Stage H => taskStep sha256 input s.1 false s.2) 7
      ({ st with source := some bytes }, .captureOpen)
  | _ => (st, .failed "Published path must be a regular file")

/-- `capture` on a tree, from its beginning to its end, or `none` where it waits. -/
def captureTree (root : Entries) (st : Storage H) (operationId source : String) (maxBytes : ℕ) :
    Option (Storage H × Stage H) :=
  let input := TaskInput.ofSource source maxBytes
  match captureParts source.toList, Checkout.safeOperationId operationId with
  | .error error, _ => some (st, .failed error.message)
  | .ok _, .error error => some (st, .failed error)
  | .ok parts, .ok _ =>
    match taskStep sha256 input st false .captureCheck with
    | (st, .captureOpen) =>
      match openWorkspaceFile root parts with
      | .descriptor node => some (captureDescriptor sha256 input st node)
      | .error error => some (st, .failed error)
      | .waits => none
    | ended => some ended

/-- A capture that has been made, of the file the source names. -/
structure NewCapture (root : Entries) (source : String) (maxBytes : ℕ) (bytes : Bytes)
    (st : Storage H) (stage : Stage H) : Prop where
  path : ∃ id name rest, pathParts source.toList = outputs :: id :: name :: rest ∧
    validMessageId id = true ∧ (pathParts source.toList).any dotPart = false
  leads : Leads root (pathParts source.toList) (.file bytes)
  size : bytes.length ≤ maxBytes
  content : st.spool.content = some bytes
  manifest : st.spool.manifest =
    some ((TaskInput.ofSource source maxBytes).manifestOf sha256 bytes)
  returned : stage = .captured ((TaskInput.ofSource source maxBytes).manifestOf sha256 bytes)

/-- The task returns: it has made the capture, it raises without a manifest, or the operation has
its capture already. -/
def CaptureSafe (root : Entries) (st : Storage H) (operationId source : String) (maxBytes : ℕ) :
    Prop :=
  ∃ st' stage, captureTree sha256 root st operationId source maxBytes = some (st', stage) ∧
    ((∃ bytes, NewCapture sha256 root source maxBytes bytes st' stage) ∨
      st'.spool.manifest = st.spool.manifest ∧ (∃ error, stage = .failed error) ∨
      st' = st ∧ ∃ manifest, stage = .captured manifest ∧ st.spool.manifest = some manifest)

/-- The task comes to open a node whose open does not return. -/
structure CaptureWaits (root : Entries) (st : Storage H) (operationId source : String) : Prop where
  allowed : (captureParts source.toList).isOk = true
  operation : (Checkout.safeOperationId operationId).isOk = true
  missing : st.spool.manifest = none ∨ st.spool.content = none
  node : ∃ node, Leads root (pathParts source.toList) node ∧ node.waits = true

/-! ## What is opened -/

omit [DecidableEq H] in
/-- Either the components lead to a node, and it is opened, or nothing is. -/
theorem openWorkspaceFile_cases (parts : List Text) : ∀ entries : Entries,
    (∃ node, Leads entries parts node ∧ openWorkspaceFile entries parts = openFile (some node)) ∨
      ∃ error, openWorkspaceFile entries parts = .error error ∧
        ∀ node, ¬ Leads entries parts node := by
  induction parts with
  | nil => exact fun entries => .inr ⟨_, rfl, fun node => id⟩
  | cons part parts ih =>
    intro entries
    by_cases hnul : '\x00' ∈ part
    · refine .inr ⟨"embedded null byte", ?_, fun node hleads => ?_⟩
      · cases parts <;> rw [openWorkspaceFile, if_pos hnul]
      · cases parts <;> exact hleads.1 hnul
    cases parts with
    | nil =>
      rw [openWorkspaceFile, if_neg hnul]
      cases hnode : entries part with
      | some node => exact .inl ⟨node, ⟨hnul, hnode⟩, rfl⟩
      | none =>
        exact .inr ⟨_, rfl, fun node hleads => by simp [hleads.2] at hnode⟩
    | cons next parts =>
      rw [openWorkspaceFile, if_neg hnul]
      split
      · rename_i below hbelow
        rcases ih below with ⟨node, hleads, hopen⟩ | ⟨error, hopen, hnone⟩
        · exact .inl ⟨node, ⟨hnul, below, hbelow, hleads⟩, hopen⟩
        · refine .inr ⟨error, hopen, fun node hleads => ?_⟩
          obtain ⟨-, below', hbelow', hleads⟩ := hleads
          cases hbelow.symm.trans hbelow'
          exact hnone node hleads
      · rename_i hother
        refine .inr ⟨_, rfl, fun node hleads => ?_⟩
        obtain ⟨-, below, hbelow, -⟩ := hleads
        exact hother below hbelow

theorem Leads.unique {parts : List Text} : ∀ {entries : Entries} {node node' : Node},
    Leads entries parts node → Leads entries parts node' → node = node' := by
  induction parts with
  | nil => exact fun h => h.elim
  | cons part parts ih =>
    intro entries node node' h h'
    cases parts with
    | nil => exact Option.some.inj (h.2.symm.trans h'.2)
    | cons next parts =>
      obtain ⟨-, below, hbelow, h⟩ := h
      obtain ⟨-, below', hbelow', h'⟩ := h'
      cases hbelow.symm.trans hbelow'
      exact ih h h'

/-- Opening a node waits, fails, or gives the node. -/
theorem openFile_some (node : Node) :
    (openFile (some node) = .waits ∧ node.waits = true) ∨ node.waits = false ∧
      (openFile (some node) = .descriptor node ∨ openFile (some node) = .error notOpened) := by
  cases node with
  | fifo writer => cases writer <;> simp [openFile, Node.waits]
  | device open_ => cases open_ <;> simp [openFile, Node.waits]
  | _ => simp [openFile, Node.waits]

theorem captureParts_ok {source : Text} {parts : List Text} (h : captureParts source = .ok parts) :
    parts = pathParts source ∧ ∃ id name rest, pathParts source = outputs :: id :: name :: rest ∧
      validMessageId id = true ∧ (pathParts source).any dotPart = false := by
  unfold captureParts at h
  split at h
  · rename_i root id name rest hparts
    split_ifs at h with hcheck
    cases h
    rw [not_or, not_or, not_not, Bool.not_eq_false, Bool.not_eq_true] at hcheck
    obtain ⟨rfl, hid, hdots⟩ := hcheck
    exact ⟨hparts.symm, id, name, rest, hparts, hid, hparts ▸ hdots⟩
  · cases h

/-! ## The capture of a regular file -/

section Capture

variable {sha256} {input : TaskInput} {st : Storage H}

/-- A regular file is captured, or the task raises without a manifest. -/
theorem captureDescriptor_file (sha256 : Bytes → H) (input : TaskInput) (st : Storage H)
    (bytes : Bytes) :
    (bytes.length ≤ input.maxBytes ∧
      (captureDescriptor sha256 input st (.file bytes)).1.spool.content = some bytes ∧
      (captureDescriptor sha256 input st (.file bytes)).1.spool.manifest =
        some (input.manifestOf sha256 bytes) ∧
      (captureDescriptor sha256 input st (.file bytes)).2 =
        .captured (input.manifestOf sha256 bytes)) ∨
    (captureDescriptor sha256 input st (.file bytes)).1.spool.manifest = st.spool.manifest ∧
      ∃ error, (captureDescriptor sha256 input st (.file bytes)).2 = .failed error := by
  cases hpart : st.spool.contentPart with
  | some _ => simp [captureDescriptor, taskStep, hpart]
  | none =>
    by_cases hlimit : input.maxBytes < bytes.length
    · simp [captureDescriptor, taskStep, hpart, hlimit]
    · cases hmanifest : st.spool.manifestPart with
      | some _ => simp [captureDescriptor, taskStep, hpart, hlimit, hmanifest]
      | none =>
        simp [captureDescriptor, taskStep, hpart, hlimit, hmanifest, Nat.not_lt.mp hlimit]

/-- A node that is no regular file. -/
theorem captureDescriptor_raises (node : Node) (hnode : ∀ bytes, node ≠ .file bytes) :
    captureDescriptor sha256 input st node =
      (st, .failed "Published path must be a regular file") := by
  cases node with
  | file bytes => exact (hnode bytes rfl).elim
  | _ => rfl

end Capture

/-! ## The task on a tree -/

section Tree

variable {sha256}

/-- The check at the beginning of the task returns, or nothing is there that it could return. -/
theorem captureCheck_cases (sha256 : Bytes → H) {input : TaskInput}
    (hallowed : input.sourceAllowed = true) (st : Storage H) :
    (taskStep sha256 input st false .captureCheck = (st, .captureOpen) ∧
      (st.spool.manifest = none ∨ st.spool.content = none)) ∨
    (∃ stage, taskStep sha256 input st false .captureCheck = (st, stage) ∧
      ((∃ error, stage = .failed error) ∨
        ∃ manifest, stage = .captured manifest ∧ st.spool.manifest = some manifest) ∧
      st.spool.manifest ≠ none ∧ st.spool.content ≠ none) := by
  cases hmanifest : st.spool.manifest with
  | none => exact .inl ⟨by simp [taskStep, hallowed, hmanifest], .inl rfl⟩
  | some manifest =>
    cases hcontent : st.spool.content with
    | none => exact .inl ⟨by simp [taskStep, hallowed, hmanifest, hcontent], .inr rfl⟩
    | some content =>
      refine .inr ⟨(taskStep sha256 input st false .captureCheck).2, ?_, ?_, by simp, by simp⟩
      · simp only [taskStep, hallowed, hmanifest, hcontent]
        split_ifs <;> rfl
      · simp only [taskStep, hallowed, hmanifest, hcontent]
        split_ifs <;> simp

/-- The task comes to open what the components lead to. -/
theorem captureTree_opens {root : Entries} {st : Storage H} {operationId source operation : String}
    {maxBytes : ℕ} (hparts : captureParts source.toList = .ok (pathParts source.toList))
    (hoperation : Checkout.safeOperationId operationId = .ok operation)
    (hcheck : taskStep sha256 (.ofSource source maxBytes) st false .captureCheck =
      (st, .captureOpen))
    (hmissing : st.spool.manifest = none ∨ st.spool.content = none)
    (hpath : ∃ id name rest, pathParts source.toList = outputs :: id :: name :: rest ∧
      validMessageId id = true ∧ (pathParts source.toList).any dotPart = false) :
    CaptureSafe sha256 root st operationId source maxBytes ↔
      ¬ CaptureWaits root st operationId source := by
  have htree : captureTree sha256 root st operationId source maxBytes =
      match openWorkspaceFile root (pathParts source.toList) with
      | .descriptor node =>
        some (captureDescriptor sha256 (.ofSource source maxBytes) st node)
      | .error error => some (st, .failed error)
      | .waits => none := by
    simp only [captureTree, hparts, hoperation, hcheck]
  rcases openWorkspaceFile_cases (pathParts source.toList) root with
    ⟨node, hleads, hopen⟩ | ⟨error, hopen, hnone⟩
  · rcases openFile_some node with ⟨hfile, hwaits⟩ | ⟨hwaits, hfile⟩
    · rw [hopen, hfile] at htree
      have hwaiting : CaptureWaits root st operationId source :=
        ⟨by rw [hparts]; rfl, by rw [hoperation]; rfl, hmissing, node, hleads, hwaits⟩
      refine ⟨fun ⟨st', stage, hend, _⟩ => ?_, fun h => (h hwaiting).elim⟩
      rw [htree] at hend
      cases hend
    · have hdenied : ¬ CaptureWaits root st operationId source := by
        rintro ⟨-, -, -, node', hleads', hwaits'⟩
        rw [hleads'.unique hleads, hwaits] at hwaits'
        cases hwaits'
      refine ⟨fun _ => hdenied, fun _ => ?_⟩
      rcases hfile with hfile | hfile
      · have hend : captureTree sha256 root st operationId source maxBytes =
            some (captureDescriptor sha256 (.ofSource source maxBytes) st node) := by
          rw [htree, hopen, hfile]
        by_cases hregular : ∃ bytes, node = .file bytes
        · obtain ⟨bytes, rfl⟩ := hregular
          rcases captureDescriptor_file sha256 (.ofSource source maxBytes) st bytes with
            ⟨hsize, hcontent, hmanifest, hreturned⟩ | hraised
          · exact ⟨_, _, hend, .inl ⟨bytes, hpath, hleads, hsize, hcontent, hmanifest, hreturned⟩⟩
          · exact ⟨_, _, hend, .inr (.inl hraised)⟩
        · rw [captureDescriptor_raises node fun bytes hnode => hregular ⟨bytes, hnode⟩] at hend
          exact ⟨_, _, hend, .inr (.inl ⟨rfl, _, rfl⟩)⟩
      · rw [hopen, hfile] at htree
        exact ⟨_, _, htree, .inr (.inl ⟨rfl, _, rfl⟩)⟩
  · have hdenied : ¬ CaptureWaits root st operationId source := fun h => by
      obtain ⟨node, hleads, -⟩ := h.node
      exact hnone node hleads
    rw [hopen] at htree
    exact ⟨fun _ => hdenied, fun _ => ⟨_, _, htree, .inr (.inl ⟨rfl, _, rfl⟩)⟩⟩

end Tree

/-- **A capture is safe exactly where it does not come to open what keeps it waiting**: a FIFO
without a writer, or a device of that kind. -/
theorem capture_safe_iff (sha256 : Bytes → H) (root : Entries) (st : Storage H)
    (operationId source : String) (maxBytes : ℕ) :
    CaptureSafe sha256 root st operationId source maxBytes ↔
      ¬ CaptureWaits root st operationId source := by
  cases hparts : captureParts source.toList with
  | error error =>
    have hdenied : ¬ CaptureWaits root st operationId source := fun h => by
      simpa [hparts, Except.isOk, Except.toBool] using h.allowed
    exact ⟨fun _ => hdenied, fun _ =>
      ⟨st, .failed error.message, by simp only [captureTree, hparts], .inr (.inl ⟨rfl, _, rfl⟩)⟩⟩
  | ok parts =>
    obtain ⟨rfl, hpath⟩ := captureParts_ok hparts
    have hallowed : (TaskInput.ofSource source maxBytes).sourceAllowed = true := by
      simp [TaskInput.ofSource, hparts, Except.isOk, Except.toBool]
    cases hoperation : Checkout.safeOperationId operationId with
    | error error =>
      have hdenied : ¬ CaptureWaits root st operationId source := fun h => by
        simpa [hoperation, Except.isOk, Except.toBool] using h.operation
      exact ⟨fun _ => hdenied, fun _ =>
        ⟨st, .failed error, by simp only [captureTree, hparts, hoperation],
          .inr (.inl ⟨rfl, _, rfl⟩)⟩⟩
    | ok operation =>
      rcases captureCheck_cases sha256 hallowed st with
        ⟨hcheck, hmissing⟩ | ⟨stage, hcheck, hend, hmanifest, hcontent⟩
      · exact captureTree_opens hparts hoperation hcheck hmissing hpath
      · have hdenied : ¬ CaptureWaits root st operationId source := fun h =>
          h.missing.elim hmanifest hcontent
        refine ⟨fun _ => hdenied, fun _ => ⟨st, stage, ?_, ?_⟩⟩
        · simp only [captureTree, hparts, hoperation, hcheck]
          rcases hend with ⟨error, rfl⟩ | ⟨manifest, rfl, -⟩ <;> rfl
        · rcases hend with hend | hend
          · exact .inr (.inl ⟨rfl, hend⟩)
          · exact .inr (.inr ⟨rfl, hend⟩)

/-! ## A FIFO -/

/-- A directory with one entry. -/
def Node.single (name : Text) (node : Node) : Node :=
  .dir fun part => if part = name then some node else none

/-- `outputs/m1/pipe`, a FIFO that nobody writes to. -/
def fifoTree : Entries := fun part =>
  if part = outputs then some (.single ['m', '1'] (.single ['p', 'i', 'p', 'e'] (.fifo false)))
  else none

/-- Nothing has to be written to a FIFO that `capture` opens. -/
theorem not_capture_safe_fifo :
    ¬ ∀ (root : Entries) (st : Storage Bytes) (operationId source : String) (maxBytes : ℕ),
      CaptureSafe (id : Bytes → Bytes) root st operationId source maxBytes := by
  intro h
  obtain ⟨st', stage, hend, -⟩ :=
    h fifoTree .new "operation_00000000000000000000000000000001" "outputs/m1/pipe" 8
  have hwaits : (captureTree (id : Bytes → Bytes) fifoTree .new
      "operation_00000000000000000000000000000001" "outputs/m1/pipe" 8).isNone = true := by
    decide +kernel
  rw [hend] at hwaits
  cases hwaits

end CodexGateway.StorageOps
