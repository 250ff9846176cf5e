import CodexGateway.Library.Lines
import CodexGateway.StorageOps.Checkout
import CodexGateway.StorageOps.CommandLine

/-!
# Manager/OperationRunner — a storage operation runs in a container of its own

The Manager calls a storage operation by running a container: what it passes goes onto the command
line of a task, and what it gets back is the last JSON object in the logs of the container, where
the output of the task stands between whatever else was printed.

**The call through the container is the call of the function** (`run_call`), with the same arguments,
in the directories that the container mounts, and with the same result or a failure, as long as no
text that is passed looks like an option.  One that does is refused by the parser of the task, and a
message id may be one (`checkout_refused`).
-/

namespace CodexGateway.Manager

open PyJson PyLines Argparse StorageOps.CommandLine

/-! ## The calls -/

/-- What the runner reads of the settings. -/
structure RunnerSettings where
  agentUid : ℤ
  agentGid : ℤ
  publishSpoolVolume : String

/-- A call of `DockerOperationRunner`, with what it passes to the task. -/
inductive RunnerCall where
  | checkpoint (workspaceId : String)
  | restore (revisionId : String)
  | retire (endpoint bucket keyPrefix : String)
  | checkout (operationId userMessageId assistantMessageId : String) (artifacts : List Dict)
  | prepare
  | capture (operationId source : String) (maxBytes : ℤ)
  | uploadCapture (operationId url token : String)

namespace RunnerCall

variable (settings : RunnerSettings)

/-- The subcommand of a call. -/
def command : RunnerCall → Command
  | .checkpoint _ => .checkpoint
  | .restore _ => .restore
  | .retire _ _ _ => .retire
  | .checkout _ _ _ _ => .checkoutBatch
  | .prepare => .prepare
  | .capture _ _ _ => .capture
  | .uploadCapture _ _ _ => .uploadCapture

/-- `str(i)` -/
def strInt (i : ℤ) : String := String.ofList (dumpsInt i)

/-- `json.dumps(artifacts, sort_keys=True, separators=(",", ":"))` -/
def dumpsArtifacts (artifacts : List Dict) : String :=
  String.ofList (dumpsSorted (.arr (artifacts.map Dict.toJson)))

/-- The command of the container. -/
def argv : RunnerCall → List String
  | .checkpoint workspaceId => ["checkpoint", "--workspace-id", workspaceId]
  | .restore revisionId => ["restore", "--revision", revisionId]
  | .retire endpoint bucket keyPrefix =>
    ["retire", "--endpoint", endpoint, "--bucket", bucket, "--prefix", keyPrefix]
  | .checkout operationId userMessageId assistantMessageId artifacts =>
    ["checkout-batch", "--operation-id", operationId, "--user-message-id", userMessageId,
      "--assistant-message-id", assistantMessageId, "--artifacts", dumpsArtifacts artifacts,
      "--agent-uid", strInt settings.agentUid, "--agent-gid", strInt settings.agentGid]
  | .prepare =>
    ["prepare", "--agent-uid", strInt settings.agentUid, "--agent-gid", strInt settings.agentGid]
  | .capture operationId source maxBytes =>
    ["capture", "--operation-id", operationId, "--source", source, "--max-bytes", strInt maxBytes]
  | .uploadCapture operationId url token =>
    ["upload-capture", "--operation-id", operationId, "--url", url, "--token", token]

/-- The texts that are passed as they are. -/
def texts : RunnerCall → List String
  | .checkpoint workspaceId => [workspaceId]
  | .restore revisionId => [revisionId]
  | .retire endpoint bucket keyPrefix => [endpoint, bucket, keyPrefix]
  | .checkout operationId userMessageId assistantMessageId _ =>
    [operationId, userMessageId, assistantMessageId]
  | .prepare => []
  | .capture operationId source _ => [operationId, source]
  | .uploadCapture operationId url token => [operationId, url, token]

/-- The call of the function itself, in the directories that the container mounts. -/
def call (ops : Operations) : RunnerCall → Except String Dict
  | .checkpoint workspaceId => ops.checkpoint "/workspace" workspaceId
  | .restore revisionId => ops.restore revisionId "/restore"
  | .retire endpoint bucket keyPrefix => ops.retireRepository endpoint bucket keyPrefix
  | .checkout operationId userMessageId assistantMessageId artifacts =>
    ops.checkoutBatch "/workspace" userMessageId assistantMessageId
      (artifacts.map fun artifact => sortedMembers artifact.members) operationId settings.agentUid
      settings.agentGid
  | .prepare => ops.prepareWorkspace "/workspace" settings.agentUid settings.agentGid
  | .capture operationId source maxBytes =>
    ops.capture "/workspace" "/spool" operationId source maxBytes
  | .uploadCapture operationId url token => ops.uploadCapture "/spool" operationId url token

/-- The volumes of the container, by the path at which they are mounted, and whether it may write
to them. -/
def volumes (workspaceVolume : String) : RunnerCall → List (String × String × Bool)
  | .checkpoint _ => [(workspaceVolume, "/workspace", false)]
  | .restore _ => [(workspaceVolume, "/restore", true)]
  | .retire _ _ _ => []
  | .checkout _ _ _ _ => [(workspaceVolume, "/workspace", true)]
  | .prepare => [(workspaceVolume, "/workspace", true)]
  | .capture _ _ _ =>
    [(settings.publishSpoolVolume, "/spool", true), (workspaceVolume, "/workspace", false)]
  | .uploadCapture _ _ _ => [(settings.publishSpoolVolume, "/spool", true)]

end RunnerCall

/-! ## The container -/

/-- How `_run` sees the end of a container; its logs are what it has printed on both streams. -/
inductive ContainerEnd where
  | exited (statusCode : Option ℤ) (logs : List Char)
  | timedOut
  | raised (text : String)

/-- The dictionary a line is. -/
def objectOf? (line : List Char) : Option Members :=
  match loads line with
  | some (.obj ms) => some ms
  | _ => none

/-- `_last_json_object` -/
def lastJsonObject (output : List Char) : Except String Members :=
  match (splitlines output).reverse.findSome? objectOf? with
  | some value => .ok value
  | none => .error "operation did not return a JSON result"

/-- The text of the error where the status is not zero. -/
def failureDetail (statusCode : Option ℤ) (output : List Char) : String :=
  match (splitlines (strip output)).getLast? with
  | some line => String.ofList (line.take 1000)
  | none =>
    "operation exited with " ++ match statusCode with
      | some status => RunnerCall.strInt status
      | none => "None"

/-- What `_run` returns, or the text of its `OperationExecutionError`. -/
def runResult : ContainerEnd → Except String Members
  | .exited statusCode logs =>
    if statusCode = some 0 then lastJsonObject logs else .error (failureDetail statusCode logs)
  | .timedOut => .error "operation timed out"
  | .raised text => .error ("operation failed: " ++ text)

/-- The container of a call: the task runs to its end, between what else is printed. -/
def ranContainer (ops : Operations) (usage : ArgError → List Char)
    (settings : RunnerSettings) (c : RunnerCall) (before after : List Char) : ContainerEnd :=
  let printed := main ops usage (c.argv settings)
  .exited (some printed.status) (before ++ (printed.stdout ++ (printed.stderr ++ after)))

/-! ## The logs -/

/-- What is printed before the task's own line ends with a line. -/
def WholeLines (text : List Char) : Prop := text = [] ∨ ∃ lines, text = lines ++ ['\n']

theorem splitlines_append {before : List Char} (h : WholeLines before) (s : List Char) :
    splitlines (before ++ s) = splitlines before ++ splitlines s := by
  rcases h with rfl | ⟨lines, rfl⟩
  · rfl
  · rw [List.append_assoc, List.singleton_append]
    exact splitlines_append_newline lines s

theorem not_isBreak_dumpsSorted (v : Json) : ∀ x ∈ dumpsSorted v, isBreak x = false :=
  fun x hx => isBreak_of_isAscii (ascii_dumpsBy ascii_escapeAscii (sortKeys v) x hx)

theorem objectOf?_dumpsSorted (d : Dict) :
    objectOf? (dumpsSorted d.toJson) = some (sortedMembers d.members) := by
  have hloads : loads (dumpsSorted d.toJson) = some (.obj (sortedMembers d.members)) :=
    loads_dumpsSorted d.wellFormed
  rw [objectOf?, hloads]

/-- **The result of a task is found in the logs**, whatever stands before it, where no later line is
an object. -/
theorem lastJsonObject_result {before after : List Char} (hbefore : WholeLines before)
    (hafter : ∀ line ∈ splitlines after, objectOf? line = none) (d : Dict) :
    lastJsonObject (before ++ (dumpsSorted d.toJson ++ '\n' :: after)) =
      .ok (sortedMembers d.members) := by
  have hlines : splitlines (before ++ (dumpsSorted d.toJson ++ '\n' :: after)) =
      splitlines before ++ dumpsSorted d.toJson :: splitlines after := by
    rw [splitlines_append hbefore, splitlines_line (not_isBreak_dumpsSorted _)]
  have hlater : (splitlines after).reverse.findSome? objectOf? = none :=
    List.findSome?_eq_none_iff.mpr fun line hline => hafter line (List.mem_reverse.mp hline)
  rw [lastJsonObject, hlines, List.reverse_append, List.reverse_cons, List.append_assoc,
    List.findSome?_append, hlater, Option.none_or, List.singleton_append, List.findSome?_cons,
    objectOf?_dumpsSorted]

/-! ## The arguments -/

namespace RunnerCall

variable {settings : RunnerSettings} {c : RunnerCall}

/-- The options that a call gives, with their values. -/
def given (settings : RunnerSettings) : RunnerCall → List (Flag × Value)
  | .checkpoint workspaceId => [(workspaceIdFlag, .text workspaceId)]
  | .restore revisionId => [(revisionFlag, .text revisionId)]
  | .retire endpoint bucket keyPrefix =>
    [(endpointFlag, .text endpoint), (bucketFlag, .text bucket), (prefixFlag, .text keyPrefix)]
  | .checkout operationId userMessageId assistantMessageId artifacts =>
    [(operationIdFlag, .text operationId), (userMessageIdFlag, .text userMessageId),
      (assistantMessageIdFlag, .text assistantMessageId),
      (artifactsFlag, .text (dumpsArtifacts artifacts)), (agentUidFlag, .int settings.agentUid),
      (agentGidFlag, .int settings.agentGid)]
  | .prepare => [(agentUidFlag, .int settings.agentUid), (agentGidFlag, .int settings.agentGid)]
  | .capture operationId source maxBytes =>
    [(operationIdFlag, .text operationId), (sourceFlag, .text source),
      (maxBytesFlag, .int maxBytes)]
  | .uploadCapture operationId url token =>
    [(operationIdFlag, .text operationId), (urlFlag, .text url), (tokenFlag, .text token)]

theorem argv_eq (c : RunnerCall) :
    c.argv settings = c.command.name :: render (c.given settings) := by
  cases c <;> rfl

theorem find?_flag (c : Command) : ∀ flag ∈ c.flags,
    c.flags.find? (·.name = flag.name) = some flag := by
  cases c <;> decide

theorem fits_flag {c : Command} {flag : Flag} {value : Value} (hflag : flag ∈ c.flags)
    (hkind : match value with
      | .none => False
      | .text _ => flag.kind = .text
      | .int _ => flag.kind = .int) : Fits c.flags (flag, value) :=
  ⟨find?_flag c flag hflag, hkind⟩

theorem fits (c : RunnerCall) : ∀ g ∈ c.given settings, Fits c.command.flags g := by
  cases c <;> simp only [given, command, List.forall_mem_cons, List.not_mem_nil, false_imp_iff,
    implies_true, and_true]
  case checkpoint => exact fits_flag (by decide) rfl
  case restore => exact fits_flag (by decide) rfl
  case retire =>
    exact ⟨fits_flag (by decide) rfl, fits_flag (by decide) rfl, fits_flag (by decide) rfl⟩
  case checkout =>
    exact ⟨fits_flag (by decide) rfl, fits_flag (by decide) rfl, fits_flag (by decide) rfl,
      fits_flag (by decide) rfl, fits_flag (by decide) rfl, fits_flag (by decide) rfl⟩
  case prepare => exact ⟨fits_flag (by decide) rfl, fits_flag (by decide) rfl⟩
  case capture =>
    exact ⟨fits_flag (by decide) rfl, fits_flag (by decide) rfl, fits_flag (by decide) rfl⟩
  case uploadCapture =>
    exact ⟨fits_flag (by decide) rfl, fits_flag (by decide) rfl, fits_flag (by decide) rfl⟩

/-- A call gives every option that is required. -/
theorem gives_required (c : RunnerCall) : ∀ flag ∈ c.command.flags, flag.required = true →
    ∃ g ∈ c.given settings, g.1.name = flag.name := by
  have hnames : ∀ flag ∈ c.command.flags, flag.required = true →
      flag.name ∈ (c.given settings).map fun g => g.1.name := by
    cases c <;> simp only [given, command, List.map_cons, List.map_nil] <;> decide
  intro flag hflag hrequired
  obtain ⟨g, hmem, hname⟩ := List.mem_map.mp (hnames flag hflag hrequired)
  exact ⟨g, hmem, hname⟩

theorem isArgument_artifacts {flags : List Flag} (artifacts : List Dict) :
    isArgument flags (dumpsArtifacts artifacts) = true := by
  refine isArgument_of_head ?_
  rw [dumpsArtifacts, String.toList_ofList, dumpsSorted, sortKeys]
  cases hitems : sortKeysList (artifacts.map Dict.toJson) with
  | nil => simp [dumpsBy]
  | cons x xs => simp [dumpsBy]

/-- Only a text that is passed as it is can look like an option. -/
theorem isArgument_given {flags : List Flag} (c : RunnerCall) :
    (∀ g ∈ c.given settings, isArgument flags g.2.render = true) ↔
      ∀ text ∈ c.texts, isArgument flags text = true := by
  cases c <;> simp only [given, texts, List.forall_mem_cons, List.not_mem_nil, false_imp_iff,
    implies_true, and_true, isArgument_int, isArgument_artifacts, Value.render]

/-- **What a task calls is the function of the call**, with the same arguments. -/
theorem perform_given (ops : Operations) (c : RunnerCall) :
    perform ops c.command (namespaceOf c.command.flags (c.given settings)) =
      c.call settings ops := by
  cases c with
  | checkout operationId userMessageId assistantMessageId artifacts =>
    have hitems : jsonList (textOf (namespaceOf Command.checkoutBatch.flags
        ((checkout operationId userMessageId assistantMessageId artifacts).given settings))
        artifactsFlag) = .ok (artifacts.map fun artifact => sortedMembers artifact.members) :=
      jsonList_dumpsSorted artifacts
    simp only [command, perform, hitems]
    rfl
  | _ => rfl

/-- **The container mounts the directories in which the task works**, at the paths that the parser
of the task takes where none is given. -/
theorem mounted (workspaceVolume : String) : ∀ flag ∈ [workspaceFlag, targetFlag, spoolFlag],
    flag ∈ c.command.flags → ∃ volume ∈ c.volumes settings workspaceVolume,
      namespaceOf c.command.flags (c.given settings) flag.name = .text volume.2.1 := by
  simp only [List.forall_mem_cons, List.not_mem_nil, false_imp_iff, implies_true, and_true]
  have habsent {C : Command} {flag : Flag} {P : Prop} (h : flag ∉ C.flags) : flag ∈ C.flags → P :=
    fun hmem => absurd hmem h
  cases c <;> simp only [command]
  case checkpoint => exact ⟨fun _ => ⟨_, .head _, rfl⟩, habsent (by decide), habsent (by decide)⟩
  case restore => exact ⟨habsent (by decide), fun _ => ⟨_, .head _, rfl⟩, habsent (by decide)⟩
  case retire => exact ⟨habsent (by decide), habsent (by decide), habsent (by decide)⟩
  case checkout => exact ⟨fun _ => ⟨_, .head _, rfl⟩, habsent (by decide), habsent (by decide)⟩
  case prepare => exact ⟨fun _ => ⟨_, .head _, rfl⟩, habsent (by decide), habsent (by decide)⟩
  case capture =>
    exact ⟨fun _ => ⟨_, .tail _ (.head _), rfl⟩, habsent (by decide), fun _ => ⟨_, .head _, rfl⟩⟩
  case uploadCapture =>
    exact ⟨habsent (by decide), habsent (by decide), fun _ => ⟨_, .head _, rfl⟩⟩

end RunnerCall

section Call

variable (ops : Operations) (usage : ArgError → List Char)
  (settings : RunnerSettings) (c : RunnerCall)

/-- What the task prints, and its status, where its arguments are read. -/
theorem main_call (hargs : ∀ text ∈ c.texts, isArgument c.command.flags text = true) :
    main ops usage (c.argv settings) =
      match c.call settings ops with
      | .error text => ⟨1, [], text.toList ++ ['\n']⟩
      | .ok result => ⟨0, dumpsSorted result.toJson ++ ['\n'], []⟩ := by
  have hparse := (parse_render (RunnerCall.fits c)
    (@RunnerCall.gives_required settings c)).1 ((RunnerCall.isArgument_given c).mpr hargs)
  rw [main, RunnerCall.argv_eq, parseArgs_name, hparse]
  cases hcall : c.call settings ops with
  | error text => simp only [Except.map, RunnerCall.perform_given, hcall]
  | ok result => simp only [Except.map, RunnerCall.perform_given, hcall]

/-- **The task reads its command line as the call that was made, and works where the container
mounts a volume.** -/
theorem parseArgs_call (workspaceVolume : String)
    (hargs : ∀ text ∈ c.texts, isArgument c.command.flags text = true) :
    ∃ args, parseArgs (c.argv settings) = .ok (c.command, args) ∧
      ∀ flag ∈ [workspaceFlag, targetFlag, spoolFlag], flag ∈ c.command.flags →
        ∃ volume ∈ c.volumes settings workspaceVolume, args flag.name = .text volume.2.1 := by
  have hparse := (parse_render (RunnerCall.fits c)
    (@RunnerCall.gives_required settings c)).1 ((RunnerCall.isArgument_given c).mpr hargs)
  refine ⟨namespaceOf c.command.flags (c.given settings), ?_, RunnerCall.mounted workspaceVolume⟩
  rw [RunnerCall.argv_eq, parseArgs_name, hparse]
  rfl

/-- A text that looks like an option is refused. -/
theorem main_refused (hargs : ∃ text ∈ c.texts, isArgument c.command.flags text = false) :
    ∃ name, main ops usage (c.argv settings) = ⟨2, [], usage (.expectedOne name)⟩ := by
  have hgiven : ∃ g ∈ c.given settings, isArgument c.command.flags g.2.render = false := by
    by_contra hnone
    have hall : ∀ g ∈ c.given settings, isArgument c.command.flags g.2.render = true :=
      fun g hg => by
        by_contra hfalse
        exact hnone ⟨g, hg, Bool.eq_false_iff.mpr hfalse⟩
    obtain ⟨text, hmem, htext⟩ := hargs
    rw [(RunnerCall.isArgument_given c).mp hall text hmem] at htext
    cases htext
  obtain ⟨name, hname⟩ := (parse_render (RunnerCall.fits c)
    (@RunnerCall.gives_required settings c)).2 hgiven
  refine ⟨name, ?_⟩
  rw [main, RunnerCall.argv_eq, parseArgs_name, hname]
  rfl

theorem run_refused (before after : List Char)
    (hargs : ∃ text ∈ c.texts, isArgument c.command.flags text = false) :
    ∃ e, runResult (ranContainer ops usage settings c before after) = .error e := by
  obtain ⟨name, hmain⟩ := main_refused ops usage settings c hargs
  have htwo : ¬ (some 2 : Option ℤ) = some 0 := by decide
  rw [ranContainer, hmain]
  simp only [runResult, if_neg htwo]
  exact ⟨_, rfl⟩

end Call

/-! ## The text of an error -/

/-- A text of one line, without blanks around it. -/
structure OneLine (text : List Char) : Prop where
  plain : ∀ c ∈ text, isBreak c = false
  head : ∃ c s, text = c :: s ∧ PyLines.isSpace c = false
  last : ∃ s c, text = s ++ [c] ∧ PyLines.isSpace c = false

theorem splitlines_oneLine : ∀ {text : List Char}, (∀ c ∈ text, isBreak c = false) → text ≠ [] →
    splitlines text = [text]
  | [], _, h => absurd rfl h
  | [c], h, _ => by rw [splitlines_cons (h c List.mem_cons_self)]; rfl
  | c :: d :: text, h, _ => by
      have hrest := splitlines_oneLine (fun x hx => h x (List.mem_cons_of_mem _ hx))
        (List.cons_ne_nil d text)
      rw [splitlines_cons (h c List.mem_cons_self), hrest]
      rfl

/-- What is left of whole lines without the blanks in front is whole lines. -/
theorem wholeLines_lstrip {before : List Char} (h : WholeLines before) :
    WholeLines (lstrip before) := by
  rcases h with rfl | ⟨lines, rfl⟩
  · exact .inl rfl
  · rw [lstrip, List.dropWhile_append]
    split
    · exact .inl rfl
    · exact .inr ⟨_, rfl⟩

theorem strip_error {before text : List Char} (htext : OneLine text) :
    strip (before ++ (text ++ ['\n'])) = lstrip before ++ text := by
  obtain ⟨c, s, hcons, hc⟩ := htext.head
  obtain ⟨r, d, hlast, hd⟩ := htext.last
  have hfront : lstrip (before ++ (text ++ ['\n'])) = lstrip before ++ (text ++ ['\n']) := by
    have hstays : (text ++ ['\n']).dropWhile PyLines.isSpace = text ++ ['\n'] := by
      rw [hcons, List.cons_append, List.dropWhile_cons_of_neg (by rw [hc]; decide)]
    rw [lstrip, List.dropWhile_append, hstays]
    split
    · rename_i hempty
      rw [lstrip, List.isEmpty_iff.mp hempty, List.nil_append]
    · rfl
  have hback : (lstrip before ++ (text ++ ['\n'])).reverse =
      '\n' :: d :: (r.reverse ++ (lstrip before).reverse) := by
    rw [hlast]
    simp
  rw [strip, hfront, hback, List.dropWhile_cons_of_pos (by decide),
    List.dropWhile_cons_of_neg (by rw [hd]; decide), hlast]
  simp

/-- **An error of one line is reported as it is**, cut at 1000 characters. -/
theorem failureDetail_oneLine {before text : List Char} (hbefore : WholeLines before)
    (htext : OneLine text) (statusCode : Option ℤ) :
    failureDetail statusCode (before ++ (text ++ ['\n'])) = String.ofList (text.take 1000) := by
  obtain ⟨c, s, hcons, -⟩ := htext.head
  have hne : text ≠ [] := hcons ▸ List.cons_ne_nil c s
  have hlines : splitlines (strip (before ++ (text ++ ['\n']))) =
      splitlines (lstrip before) ++ [text] := by
    rw [strip_error htext, splitlines_append (wholeLines_lstrip hbefore),
      splitlines_oneLine htext.plain hne]
  simp only [failureDetail, hlines, List.getLast?_concat]

/-! ## The main result -/

/-- **A call through the container is the call of the function**: where no text that it passes looks
like an option, the task works in the directories that are mounted, and the call gives the same
dictionary, or fails where the function raises; with the same error, where that is the last line.
Where a text looks like an option the call fails, whatever the function does. -/
theorem run_call (ops : Operations) (usage : ArgError → List Char) (settings : RunnerSettings)
    (c : RunnerCall) (workspaceVolume : String) {before after : List Char}
    (hbefore : WholeLines before) (hafter : ∀ line ∈ splitlines after, objectOf? line = none) :
    ((∀ text ∈ c.texts, isArgument c.command.flags text = true) →
      (∃ args, parseArgs (c.argv settings) = .ok (c.command, args) ∧
        ∀ flag ∈ [workspaceFlag, targetFlag, spoolFlag], flag ∈ c.command.flags →
          ∃ volume ∈ c.volumes settings workspaceVolume, args flag.name = .text volume.2.1) ∧
      (∀ result, c.call settings ops = .ok result →
        runResult (ranContainer ops usage settings c before after) =
          .ok (sortedMembers result.members)) ∧
      ∀ text, c.call settings ops = .error text →
        (∃ e, runResult (ranContainer ops usage settings c before after) = .error e) ∧
          (after = [] → OneLine text.toList →
            runResult (ranContainer ops usage settings c before after) =
              .error (String.ofList (text.toList.take 1000)))) ∧
    ((∃ text ∈ c.texts, isArgument c.command.flags text = false) →
      ∃ e, runResult (ranContainer ops usage settings c before after) = .error e) := by
  refine ⟨fun hargs => ⟨parseArgs_call settings c workspaceVolume hargs, fun result hcall => ?_,
    fun text hcall => ?_⟩, fun hargs => ?_⟩
  · rw [ranContainer, main_call ops usage settings c hargs, hcall]
    simp only [runResult, if_true, List.nil_append, List.append_assoc, List.singleton_append]
    exact lastJsonObject_result hbefore hafter result
  · have hone : ¬ (some 1 : Option ℤ) = some 0 := by decide
    rw [ranContainer, main_call ops usage settings c hargs, hcall]
    simp only [runResult, if_neg hone, List.nil_append]
    refine ⟨⟨_, rfl⟩, fun hquiet htext => ?_⟩
    rw [hquiet, List.append_nil, failureDetail_oneLine hbefore htext]
  · exact run_refused ops usage settings c before after hargs

/-! ## A message id that looks like an option -/

/-- **A checkout whose user message id begins with a dash and goes on fails**, unless the id looks
like a negative number, though every check of the id accepts it. -/
theorem checkout_refused (ops : Operations) (usage : ArgError → List Char)
    (settings : RunnerSettings) {userMessageId : String} {c : Char} {s : List Char}
    (hvalid : StorageOps.Checkout.messageId userMessageId = .ok userMessageId)
    (hdash : userMessageId.toList = '-' :: c :: s)
    (hnumber : PyNumerals.isNegativeNumber userMessageId.toList = false)
    (operationId assistantMessageId : String) (artifacts : List Dict) (before after : List Char) :
    ∃ e, runResult (ranContainer ops usage settings
      (.checkout operationId userMessageId assistantMessageId artifacts) before after) =
        .error e := by
  refine run_refused ops usage settings _ before after ⟨userMessageId, ?_, ?_⟩
  · exact List.mem_cons_of_mem _ List.mem_cons_self
  have hchars : ∀ x ∈ userMessageId.toList, SandboxApi.messageIdChar x = true := by
    rw [StorageOps.Checkout.messageId] at hvalid
    split_ifs at hvalid with hcheck
    exact fun x hx => List.all_eq_true.mp (Bool.and_eq_true_iff.mp hcheck).2 x hx
  have hblank : (c :: s).contains ' ' = false := by
    refine Bool.eq_false_iff.mpr fun hmem => ?_
    have hspace := hchars ' ' (hdash ▸ List.mem_cons_of_mem _ (List.contains_iff_mem.mp hmem))
    exact absurd hspace (by decide)
  have hoption : isOptional (optionStrings Command.checkoutBatch.flags) userMessageId = true := by
    rw [hdash] at hnumber
    rw [isOptional, hdash]
    simp only [hnumber, hblank, Bool.or_self, Bool.not_false, Bool.or_true]
  show isArgument Command.checkoutBatch.flags userMessageId = false
  rw [isArgument, hoption, Bool.not_true, Bool.and_false]

/-! ## Two calls -/

/-- A task that only captures, and returns what it is given. -/
def echoOperations : Operations where
  checkpoint _ _ := .error "unused"
  restore _ _ := .error "unused"
  retireRepository _ _ _ := .error "unused"
  checkout _ _ _ _ _ _ := .error "unused"
  checkoutBatch _ _ _ _ _ _ _ := .error "unused"
  prepareWorkspace _ _ _ := .error "unused"
  capture workspace spool _ source maxBytes := .ok
    ⟨[("workspace", .str workspace), ("spool", .str spool), ("source", .str source),
      ("max_bytes", .int maxBytes)],
      show ["workspace", "spool", "source", "max_bytes"].Nodup by decide,
      trivial, trivial, trivial, trivial, trivial⟩
  uploadCapture _ _ _ _ := .error "unused"
  publish _ _ _ _ _ := .error "unused"

/-- The settings of a default installation. -/
def echoSettings : RunnerSettings := ⟨10001, 10001, "agent-publish-spool"⟩

/-- A capture, an operation that raises, and one whose Workspace id looks like an option. -/
theorem run_call_capture :
    (∃ args, parseArgs (RunnerCall.argv echoSettings (.capture "operation_1" "outputs/m1/a" 10)) =
        .ok (.capture, args) ∧
      ∀ flag ∈ [workspaceFlag, spoolFlag], ∃ volume ∈
        [("agent-publish-spool", "/spool", true), ("workspace-w1", "/workspace", false)],
        args flag.name = .text volume.2.1) ∧
    runResult (ranContainer echoOperations (fun _ => []) echoSettings
      (.capture "operation_1" "outputs/m1/a" 10) "slow disk\n".toList "bye\n".toList) =
      .ok [("max_bytes", .int 10), ("source", .str "outputs/m1/a"), ("spool", .str "/spool"),
        ("workspace", .str "/workspace")] ∧
    runResult (ranContainer echoOperations (fun _ => []) echoSettings (.checkpoint "w1")
      "slow disk\n".toList []) = .error "unused" ∧
    ∃ e, runResult (ranContainer echoOperations (fun _ => []) echoSettings (.checkpoint "-w")
      "slow disk\n".toList []) = .error e := by
  have hbefore : WholeLines "slow disk\n".toList := .inr ⟨"slow disk".toList, rfl⟩
  have hafter : ∀ line ∈ splitlines "bye\n".toList, objectOf? line = none := by
    intro line hline
    obtain rfl : line = "bye".toList := List.mem_singleton.mp hline
    rfl
  have hquiet : ∀ line ∈ splitlines [], objectOf? line = none :=
    fun _ hline => absurd hline List.not_mem_nil
  have hcapture := (run_call echoOperations (fun _ => []) echoSettings
    (.capture "operation_1" "outputs/m1/a" 10) "workspace-w1" hbefore hafter).1 (by decide)
  have hraised := (run_call echoOperations (fun _ => []) echoSettings (.checkpoint "w1")
    "workspace-w1" hbefore hquiet).1 (by decide)
  have hrefused := (run_call echoOperations (fun _ => []) echoSettings (.checkpoint "-w")
    "workspace-w1" hbefore hquiet).2
  obtain ⟨args, hparse, hmounted⟩ := hcapture.1
  have hflags : ∀ flag ∈ [workspaceFlag, spoolFlag],
      flag ∈ [workspaceFlag, targetFlag, spoolFlag] ∧ flag ∈ Command.capture.flags := by decide
  refine ⟨⟨args, hparse, fun flag hflag => ?_⟩, hcapture.2.1 _ rfl, ?_, hrefused (by decide)⟩
  · exact hmounted flag (hflags flag hflag).1 (hflags flag hflag).2
  · have hplain : "unused".toList.all (fun c => !isBreak c) = true := rfl
    have hline : OneLine "unused".toList :=
      ⟨by simpa only [List.all_eq_true, Bool.not_eq_true'] using hplain, ⟨_, _, rfl, rfl⟩,
        ⟨"unuse".toList, 'd', rfl, rfl⟩⟩
    exact (hraised.2.2 "unused" rfl).2 rfl hline

theorem checkout_refused_dash :
    ∃ e, runResult (ranContainer echoOperations (fun _ => []) echoSettings
      (.checkout "operation_1" "-a" "m2" []) [] []) = .error e :=
  checkout_refused echoOperations (fun _ => []) echoSettings
    (c := 'a') (s := []) (by decide) rfl (by decide) "operation_1" "m2" [] [] []

end CodexGateway.Manager
