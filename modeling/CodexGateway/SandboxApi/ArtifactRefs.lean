import CodexGateway.Library.Lines
import Mathlib.Data.List.Basic
import Mathlib.Tactic.Common

/-!
# SandboxApi/ArtifactRefs — the files an answer names, and the services that read their paths

An answer names its files as `sandbox:/workspace/outputs/<message id>/<path>`.  Four services read
the path one after the other: the bridge finds the candidates of an answer and cuts the path out of a
URI again, the Manager checks it in a grant, the capture task splits it into the components it opens,
and the Artifact service takes the last one as a file name.

The later checks refuse more than the first: a candidate passes all of them exactly when it is
`Publishable` — not too long, without NUL, its last component without backslash or control character
(`candidate_accepted_iff`).
-/

namespace CodexGateway.SandboxApi

/-- A text as the functions scan it. -/
abbrev Text := List Char

/-- `text.split("/")` -/
def parts (text : Text) : List Text := text.splitOn '/'

/-- The components no path may have. -/
def dotPart (part : Text) : Bool := part = [] || part = ['.'] || part = ['.', '.']

/-! ## The candidates of an answer -/

/-- What a link to an output starts with. -/
def outputsUri : String := "sandbox:/workspace/outputs/"

/-- `[A-Za-z0-9_-]` -/
def messageIdChar (c : Char) : Bool :=
  ('A' ≤ c && c ≤ 'Z') || ('a' ≤ c && c ≤ 'z') || ('0' ≤ c && c ≤ '9') || c = '_' || c = '-'

/-- `[^\s<>"'\]]` -/
def pathChar (c : Char) : Bool :=
  !PyLines.isSpace c && c ≠ '<' && c ≠ '>' && c ≠ '"' && c ≠ '\'' && c ≠ ']'

/-- `[A-Za-z0-9_-]{1,128}`, as a whole. -/
def validMessageId (value : Text) : Bool :=
  1 ≤ value.length && value.length ≤ 128 && value.all messageIdChar

/-- A match of `_SANDBOX_URI` where the text begins: its two groups and what follows.  No character
of the first group is a slash and the second has no end of its own, so nothing is tried again. -/
def matchUri (text : Text) : Option (Text × Text × Text) :=
  if outputsUri.toList.isPrefixOf text then
    let rest := text.drop outputsUri.toList.length
    let id := rest.takeWhile messageIdChar
    match rest.dropWhile messageIdChar with
    | '/' :: rest =>
      let path := rest.takeWhile pathChar
      if validMessageId id ∧ path ≠ [] then some (id, path, rest.dropWhile pathChar) else none
    | _ => none
  else none

/-- `_SANDBOX_URI.finditer(text)`: the groups of the matches, left to right.  The fuel is the length
of the text. -/
def finditer : ℕ → Text → List (Text × Text)
  | 0, _ => []
  | fuel + 1, text =>
    match matchUri text with
    | some (id, path, rest) => (id, path) :: finditer fuel rest
    | none => finditer fuel text.tail

/-- `.rstrip(".,;:!?)}")` -/
def rstripPunctuation (text : Text) : Text :=
  (text.reverse.dropWhile (['.', ',', ';', ':', '!', '?', ')', '}'].contains ·)).reverse

/-- One round of the loop over the matches. -/
def addCandidate (assistantMessageId : Text) (candidates : List Text) (m : Text × Text) :
    List Text :=
  if m.1 ≠ assistantMessageId then candidates
  else
    let relative := rstripPunctuation m.2
    if relative ≠ [] ∧ relative.head? ≠ some '/' ∧ (parts relative).all (!dotPart ·) ∧
        relative ∉ candidates then candidates ++ [relative]
    else candidates

/-- `sandbox_candidates`: what the text links to, each once. -/
def sandboxCandidates (text assistantMessageId : Text) : List Text :=
  (finditer text.length text).foldl (addCandidate assistantMessageId) []

/-! ## The later checks -/

/-- The checks of a path, with the message each fails with. -/
inductive PathError where
  | outsideOutputs | candidateInvalid | claimInvalid | relativeInvalid | outsideAssistant
  deriving DecidableEq, Repr

/-- The message of each refusal. -/
def PathError.message : PathError → String
  | .outsideOutputs => "Candidate path is outside the current output directory"
  | .candidateInvalid => "Candidate path is invalid"
  | .claimInvalid => "Operation output_relative_path is invalid"
  | .relativeInvalid => "Operation output_relative_path is invalid"
  | .outsideAssistant => "Published path is outside an assistant output directory"

/-- The directory of the outputs. -/
def outputs : Text := ['o', 'u', 't', 'p', 'u', 't', 's']

/-- Where the Workspace is mounted. -/
def workspaceRoot : String := "/workspace/"

/-- The directory of the outputs of a message. -/
def outputsDirectory (assistantMessageId : Text) : Text :=
  outputs ++ '/' :: (assistantMessageId ++ ['/'])

/-- The `sandbox:` URI of a path. -/
def sandboxUri (assistantMessageId relative : Text) : Text :=
  outputsUri.toList ++ (assistantMessageId ++ '/' :: relative)

/-- `value.removeprefix(head)`, where the value begins with it. -/
def removePrefix? (head value : Text) : Option Text :=
  if head.isPrefixOf value then some (value.drop head.length) else none

/-- `_candidate_relative` of the bridge. -/
def candidateRelative (value assistantMessageId : Text) : Except PathError Text :=
  match [outputsUri.toList ++ (assistantMessageId ++ ['/']),
      workspaceRoot.toList ++ outputsDirectory assistantMessageId,
      outputsDirectory assistantMessageId].findSome? (removePrefix? · value) with
  | none => .error .outsideOutputs
  | some relative =>
    if relative = [] ∨ (parts relative).any dotPart then .error .candidateInvalid
    else .ok relative

/-- `_required_claim` of the Manager, for a claim that is a string. -/
def requiredClaim (value : Text) : Except PathError Text :=
  if value = [] ∨ 8192 < value.length then .error .claimInvalid else .ok value

/-- `_safe_output_relative` of the Manager. -/
def safeOutputRelative (value : Text) : Except PathError Text :=
  if value.head? = some '/' ∨ (parts value).any dotPart ∨ '\x00' ∈ value then
    .error .relativeInvalid
  else .ok (['/'].intercalate (parts value))

/-- `Path(source).parts`: the root, when there is one, and the components but the empty ones and
the dots. -/
def pathParts (source : Text) : List Text :=
  let components := (parts source).filter fun part => part ≠ [] && part ≠ ['.']
  match source with
  | '/' :: '/' :: '/' :: _ => ['/'] :: components
  | '/' :: '/' :: _ => ['/', '/'] :: components
  | '/' :: _ => ['/'] :: components
  | _ => components

/-- The check `capture` begins with: the components it opens. -/
def captureParts (source : Text) : Except PathError (List Text) :=
  match pathParts source with
  | root :: id :: name :: rest =>
    if root ≠ outputs ∨ validMessageId id = false ∨
        (root :: id :: name :: rest).any dotPart then .error .outsideAssistant
    else .ok (root :: id :: name :: rest)
  | _ => .error .outsideAssistant

/-- `[^/\\\x00-\x1f\x7f]` -/
def filenameChar (c : Char) : Bool :=
  c ≠ '/' && c ≠ '\\' && 0x20 ≤ c.toNat && c.toNat ≠ 0x7f

/-- The length and the pattern of the file name of an upload.  Its ends are no spaces either. -/
def uploadFilename (name : Text) : Bool :=
  1 ≤ name.length && name.length ≤ 512 && name.all filenameChar && name.head? ≠ some ' ' &&
    name.getLast? ≠ some ' '

/-- `Path(relative).name`, of a path without a last slash. -/
def lastPart (relative : Text) : Text := (parts relative).getLastD []

/-- Every later stage takes the path as it is. -/
structure Accepted (assistantMessageId relative : Text) : Prop where
  bridge : candidateRelative (sandboxUri assistantMessageId relative) assistantMessageId =
    .ok relative
  claim : requiredClaim relative = .ok relative
  manager : safeOutputRelative relative = .ok relative
  capture : captureParts (outputsDirectory assistantMessageId ++ relative) =
    .ok (outputs :: assistantMessageId :: parts relative)
  upload : uploadFilename (lastPart relative) = true

/-- What the later stages ask of a candidate beyond what made it one. -/
structure Publishable (relative : Text) : Prop where
  length : relative.length ≤ 8192
  noNul : '\x00' ∉ relative
  name : (lastPart relative).length ≤ 512
  chars : ∀ c ∈ lastPart relative, c ≠ '\\' ∧ 0x20 ≤ c.toNat ∧ c.toNat ≠ 0x7f

/-! ## What a candidate is -/

/-- What `sandboxCandidates` checks. -/
structure Candidate (assistantMessageId relative : Text) : Prop where
  id : validMessageId assistantMessageId = true
  ne_nil : relative ≠ []
  dots : (parts relative).all (!dotPart ·) = true
  chars : ∀ c ∈ relative, pathChar c = true

theorem matchUri_groups {text id path rest : Text} (h : matchUri text = some (id, path, rest)) :
    validMessageId id = true ∧ ∀ c ∈ path, pathChar c = true := by
  unfold matchUri at h
  split at h
  · dsimp only at h
    split at h
    · split_ifs at h with hvalid
      obtain ⟨rfl, rfl, -⟩ := by simpa using h
      exact ⟨hvalid.1, fun c hc => List.all_eq_true.mp List.all_takeWhile c hc⟩
    · cases h
  · cases h

theorem finditer_groups {fuel : ℕ} {text : Text} : ∀ m ∈ finditer fuel text,
    validMessageId m.1 = true ∧ ∀ c ∈ m.2, pathChar c = true := by
  induction fuel generalizing text with
  | zero => exact fun _ hm => absurd hm List.not_mem_nil
  | succ fuel ih =>
    rw [finditer]
    split
    · rename_i hmatch
      rintro m (_ | ⟨_, hm⟩)
      · exact matchUri_groups hmatch
      · exact ih m hm
    · exact ih

theorem mem_rstripPunctuation {text : Text} {c : Char} (h : c ∈ rstripPunctuation text) :
    c ∈ text :=
  List.mem_reverse.mp ((List.dropWhile_suffix _).subset (List.mem_reverse.mp h))

theorem candidate_addCandidate {id : Text} {candidates : List Text} {m : Text × Text}
    (h : ∀ relative ∈ candidates, Candidate id relative) (hid : validMessageId m.1 = true)
    (hpath : ∀ c ∈ m.2, pathChar c = true) :
    ∀ relative ∈ addCandidate id candidates m, Candidate id relative := by
  unfold addCandidate
  split_ifs with hother
  · exact h
  · dsimp only
    split_ifs with hcandidate
    · intro relative hmem
      rcases List.mem_append.mp hmem with hmem | hmem
      · exact h relative hmem
      · obtain rfl := List.mem_singleton.mp hmem
        exact ⟨not_not.mp hother ▸ hid, hcandidate.1, hcandidate.2.2.1,
          fun c hc => hpath c (mem_rstripPunctuation hc)⟩
    · exact h

/-- **What makes a candidate.** -/
theorem candidate_of_mem {text id relative : Text} (h : relative ∈ sandboxCandidates text id) :
    Candidate id relative := by
  have hfold : ∀ (ms : List (Text × Text)) (candidates : List Text),
      (∀ m ∈ ms, validMessageId m.1 = true ∧ ∀ c ∈ m.2, pathChar c = true) →
      (∀ relative ∈ candidates, Candidate id relative) →
      ∀ relative ∈ ms.foldl (addCandidate id) candidates, Candidate id relative := by
    intro ms
    induction ms with
    | nil => exact fun _ _ h => h
    | cons m ms ih =>
      intro candidates hms h
      obtain ⟨hid, hpath⟩ := hms m List.mem_cons_self
      exact ih _ (fun m hm => hms m (List.mem_cons_of_mem _ hm))
        (candidate_addCandidate h hid hpath)
  exact hfold _ [] finditer_groups (fun _ h => absurd h List.not_mem_nil) relative h

/-! ## The stages on a candidate -/

section Stages

variable {id relative : Text}

theorem messageIdChar_not_slash {c : Char} (h : messageIdChar c = true) : c ≠ '/' := by
  rintro rfl
  exact absurd h (by decide)

theorem no_slash_of_valid (h : validMessageId id = true) : '/' ∉ id := fun hmem => by
  simp only [validMessageId, Bool.and_eq_true] at h
  exact messageIdChar_not_slash (List.all_eq_true.mp h.2 _ hmem) rfl

theorem not_dotPart_of_valid (h : validMessageId id = true) : dotPart id = false := by
  simp only [validMessageId, Bool.and_eq_true, List.all_eq_true] at h
  have hne : id ≠ [] := by
    rintro rfl
    exact absurd h.1.1 (by decide)
  have hdot : '.' ∉ id := fun hmem => absurd (h.2 _ hmem) (by decide)
  simp only [dotPart, Bool.or_eq_false_iff, decide_eq_false_iff_not]
  exact ⟨⟨hne, fun heq => hdot (by rw [heq]; exact List.mem_cons_self)⟩,
    fun heq => hdot (by rw [heq]; exact List.mem_cons_self)⟩

theorem Candidate.no_dots (h : Candidate id relative) : (parts relative).any dotPart = false := by
  rw [List.any_eq_false]
  exact fun part hpart => by simpa using List.all_eq_true.mp h.dots part hpart

theorem Candidate.head (h : Candidate id relative) : relative.head? ≠ some '/' := fun hhead => by
  obtain ⟨rest, rfl⟩ := List.head?_eq_some_iff.mp hhead
  have hempty : [] ∈ parts ('/' :: rest) := by
    rw [parts, List.splitOn_cons_eq_if_modifyHead]
    exact List.mem_cons_self
  exact absurd (List.all_eq_true.mp h.dots _ hempty) (by decide)

theorem removePrefix?_append (head value : Text) : removePrefix? head (head ++ value) = some value := by
  rw [removePrefix?, if_pos (List.isPrefixOf_iff_prefix.mpr (List.prefix_append _ _)),
    List.drop_left]

theorem Candidate.bridge (h : Candidate id relative) :
    candidateRelative (sandboxUri id relative) id = .ok relative := by
  have hcut : sandboxUri id relative = outputsUri.toList ++ (id ++ ['/']) ++ relative := by
    simp [sandboxUri]
  simp only [candidateRelative, List.findSome?_cons, hcut, removePrefix?_append]
  rw [if_neg (by simp [h.ne_nil, h.no_dots])]

theorem requiredClaim_iff (h : Candidate id relative) :
    requiredClaim relative = .ok relative ↔ relative.length ≤ 8192 := by
  simp [requiredClaim, h.ne_nil]

theorem safeOutputRelative_iff (h : Candidate id relative) :
    safeOutputRelative relative = .ok relative ↔ '\x00' ∉ relative := by
  have hdots : ¬ (parts relative).any dotPart = true := by simp [h.no_dots]
  have hjoin : ['/'].intercalate (parts relative) = relative := List.intercalate_splitOn '/'
  by_cases hnul : '\x00' ∈ relative
  · simp [safeOutputRelative, hnul]
  · rw [safeOutputRelative, if_neg (by simpa [h.head, hnul] using hdots), hjoin]
    exact iff_of_true rfl hnul

theorem outputsDirectory_append (id relative : Text) :
    outputsDirectory id ++ relative = outputs ++ '/' :: (id ++ '/' :: relative) := by
  simp [outputsDirectory]

theorem parts_outputsDirectory (hid : validMessageId id = true) (relative : Text) :
    parts (outputsDirectory id ++ relative) = outputs :: id :: parts relative := by
  rw [parts, outputsDirectory_append, List.splitOn_append_cons_self_of_not_mem (by decide),
    List.splitOn_append_cons_self_of_not_mem (no_slash_of_valid hid)]
  rfl

theorem pathParts_relative {source : Text} (hhead : source.head? ≠ some '/')
    (hdots : (parts source).any dotPart = false) : pathParts source = parts source := by
  have hfilter : (parts source).filter (fun part => part ≠ [] && part ≠ ['.']) = parts source := by
    refine List.filter_eq_self.mpr fun part hpart => ?_
    have hpart := List.any_eq_false.mp hdots part hpart
    simp only [dotPart, Bool.or_eq_true, decide_eq_true_eq, not_or] at hpart
    simp [hpart.1.1, hpart.1.2]
  unfold pathParts
  rw [hfilter]
  cases source with
  | nil => rfl
  | cons c source =>
    have hc : c ≠ '/' := fun hc => hhead (by rw [hc]; rfl)
    split <;> simp_all

theorem Candidate.capture (h : Candidate id relative) :
    captureParts (outputsDirectory id ++ relative) = .ok (outputs :: id :: parts relative) := by
  have hdots : (outputs :: id :: parts relative).any dotPart = false := by
    rw [List.any_cons, List.any_cons, h.no_dots, not_dotPart_of_valid h.id]
    decide
  have hparts : pathParts (outputsDirectory id ++ relative) = outputs :: id :: parts relative := by
    rw [pathParts_relative, parts_outputsDirectory h.id]
    · rw [outputsDirectory_append]
      exact fun hhead => absurd (Option.some.inj hhead) (by decide)
    · rwa [parts_outputsDirectory h.id]
  obtain ⟨name, rest, hname⟩ :=
    List.exists_cons_of_ne_nil (show parts relative ≠ [] from List.splitOn_ne_nil '/' relative)
  rw [hname] at hdots
  rw [captureParts, hparts, hname]
  simp only [hdots, h.id, ne_eq, not_true_eq_false, Bool.true_eq_false, Bool.false_eq_true,
    or_self, if_false]

/-- The characters of a component are those of the path, but the slash. -/
theorem mem_of_mem_parts {part : Text} (hpart : part ∈ parts relative) :
    ∀ c ∈ part, c ∈ relative ∧ c ≠ '/' := by
  induction relative generalizing part with
  | nil =>
    obtain rfl : part = [] := List.mem_singleton.mp hpart
    exact fun _ hc => absurd hc List.not_mem_nil
  | cons d relative ih =>
    intro c hc
    rw [parts, List.splitOn_cons_eq_if_modifyHead] at hpart
    split_ifs at hpart with hslash
    · rcases List.mem_cons.mp hpart with rfl | hpart
      · exact absurd hc List.not_mem_nil
      · exact (ih hpart c hc).imp_left (List.mem_cons_of_mem _)
    · obtain ⟨first, others, hsplit⟩ :=
        List.exists_cons_of_ne_nil (List.splitOn_ne_nil '/' relative)
      have hparts : parts relative = first :: others := hsplit
      rw [hsplit, List.modifyHead_cons] at hpart
      rcases List.mem_cons.mp hpart with rfl | hpart
      · rcases List.mem_cons.mp hc with rfl | hc
        · exact ⟨List.mem_cons_self, by simpa using hslash⟩
        · exact (ih (hparts ▸ List.mem_cons_self) c hc).imp_left (List.mem_cons_of_mem _)
      · exact (ih (hparts ▸ List.mem_cons_of_mem _ hpart) c hc).imp_left (List.mem_cons_of_mem _)

theorem lastPart_mem (relative : Text) : lastPart relative ∈ parts relative := by
  have hne : parts relative ≠ [] := List.splitOn_ne_nil '/' relative
  rw [lastPart, List.getLastD_eq_getLast?, List.getLast?_eq_some_getLast hne]
  exact List.getLast_mem hne

/-- The file name of a candidate begins and ends with no space, and is not empty. -/
theorem uploadFilename_iff (h : Candidate id relative) :
    uploadFilename (lastPart relative) = true ↔ (lastPart relative).length ≤ 512 ∧
      ∀ c ∈ lastPart relative, c ≠ '\\' ∧ 0x20 ≤ c.toNat ∧ c.toNat ≠ 0x7f := by
  have hmem := mem_of_mem_parts (lastPart_mem relative)
  have hne : lastPart relative ≠ [] := fun heq =>
    absurd (List.all_eq_true.mp h.dots _ (lastPart_mem relative)) (by rw [heq]; decide)
  have hspace : ' ' ∉ lastPart relative := fun hc =>
    absurd (h.chars _ (hmem _ hc).1) (by decide)
  have hhead : (lastPart relative).head? ≠ some ' ' := fun hc =>
    hspace (List.mem_of_mem_head? hc)
  have hlast : (lastPart relative).getLast? ≠ some ' ' := fun hc =>
    hspace (List.mem_of_mem_getLast? hc)
  have hlength : 1 ≤ (lastPart relative).length := List.length_pos_iff.mpr hne
  simp only [uploadFilename, hlength, hhead, hlast, decide_true, Bool.true_and, Bool.and_true,
    Bool.and_eq_true, decide_eq_true_eq, List.all_eq_true, filenameChar, ne_eq, not_false_eq_true]
  refine and_congr_right fun _ => forall₂_congr fun c hc => ?_
  have hslash := (hmem c hc).2
  tauto

end Stages

/-- **A candidate passes every later stage exactly when it is publishable.** -/
theorem candidate_accepted_iff {text id relative : Text}
    (h : relative ∈ sandboxCandidates text id) : Accepted id relative ↔ Publishable relative := by
  have hc := candidate_of_mem h
  constructor
  · intro ha
    have hname := (uploadFilename_iff hc).mp ha.upload
    exact ⟨(requiredClaim_iff hc).mp ha.claim, (safeOutputRelative_iff hc).mp ha.manager, hname.1,
      hname.2⟩
  · intro hp
    exact ⟨hc.bridge, (requiredClaim_iff hc).mpr hp.length,
      (safeOutputRelative_iff hc).mpr hp.noNul, hc.capture,
      (uploadFilename_iff hc).mpr ⟨hp.name, hp.chars⟩⟩

/-- An answer with a link at the end of a sentence. -/
def plainAnswer : String := "See sandbox:/workspace/outputs/m1/report/a.txt)."

/-- An answer with a backslash in its link. -/
def backslashAnswer : String := "See sandbox:/workspace/outputs/m1/a\\b.txt"

theorem candidate_accepted_plain :
    "report/a.txt".toList ∈ sandboxCandidates plainAnswer.toList "m1".toList ∧
      Accepted "m1".toList "report/a.txt".toList := by
  have h : "report/a.txt".toList ∈ sandboxCandidates plainAnswer.toList "m1".toList := by
    decide +kernel
  have hlast : lastPart "report/a.txt".toList = ['a', '.', 't', 'x', 't'] := by decide +kernel
  have hchars : ∀ c ∈ lastPart "report/a.txt".toList,
      c ≠ '\\' ∧ 0x20 ≤ c.toNat ∧ c.toNat ≠ 0x7f := by
    rw [hlast]
    simp
  exact ⟨h, (candidate_accepted_iff h).mpr
    ⟨by decide +kernel, by decide +kernel, by rw [hlast]; decide, hchars⟩⟩

/-- A path whose last component has a backslash is a candidate, and no name of an upload. -/
theorem candidate_refused_backslash :
    "a\\b.txt".toList ∈ sandboxCandidates backslashAnswer.toList "m1".toList ∧
      ¬ Accepted "m1".toList "a\\b.txt".toList :=
  ⟨by decide +kernel, fun h => absurd h.upload (by decide +kernel)⟩

end CodexGateway.SandboxApi
