import Mathlib.Data.List.Induction
import CodexGateway.Artifact.Commit
import CodexGateway.Library.Blocks

/-!
# Artifact/Parts — the parts of an upload are its body

`upload_and_commit` buffers the chunks of the body and sends every full part.  However the body is
cut, the parts are numbered from one, are together the body, and only the last may be short; a body
over the limit is given up before its upload is completed.
-/

set_option linter.unusedSectionVars false

namespace CodexGateway.Artifact

open Blocks

variable {U H : Type} [DecidableEq U] [DecidableEq H] (sha256 : Bytes → H)

/-! ## A call alone on its Artifact -/

/-- A bucket with the one call that works on it. -/
abbrev Alone (U H : Type) := Bucket U H × Call U H

/-- A call of a transfer that is alone. -/
def callStep (w : Alone U H) (a : CallAction) : Option (Alone U H) := act sha256 w.1 w.2 a

/-- `upload_and_commit` is called. -/
def Alone.start (b : Bucket U H) (request : PutRequest U H) : Alone U H := (b, ⟨request, .inspect⟩)

/-- The `PartNumber` and the `Body` of the `upload_part` that a call awaits. -/
def Stage.part? : Stage H → Option (ℕ × Bytes)
  | .uploadPart _ _ _ buffer parts => some (parts + 1, buffer.take partSize)
  | .uploadRest _ _ buffer parts => some (parts + 1, buffer)
  | _ => none

/-- The parts sent in a run of a call. -/
def sentParts : Alone U H → List CallAction → List (ℕ × Bytes)
  | _, [] => []
  | w, a :: as => w.2.stage.part?.toList ++
    match callStep sha256 w a with
    | none => []
    | some w' => sentParts w' as

/-- The awaited call succeeds. -/
def CallAction.succeeds : CallAction → Bool
  | .proceed _ => true
  | _ => false

/-- The body has been read and sent. -/
def Stage.bodySent : Stage H → Bool
  | .inspect | .createMultipart | .receive _ _ _ _ _ | .uploadPart _ _ _ _ _
  | .uploadRest _ _ _ _ => false
  | _ => true

/-- The staging object is about to be there. -/
def Stage.completes : Stage H → Bool
  | .complete _ _ | .putEmpty _ => true
  | _ => false

/-- What `hashlib` finds of the body is not what the caller has declared. -/
def PutRequest.mismatch (request : PutRequest U H) : Prop :=
  request.expectedSha256.isSome ∧ request.expectedSha256 ≠ some (sha256 request.bytes)

variable {sha256}

theorem sentParts_concat {w m : Alone U H} {as : List CallAction}
    (h : Machine.run (callStep sha256) w as = some m) (a : CallAction) :
    sentParts sha256 w (as ++ [a]) = sentParts sha256 w as ++ m.2.stage.part?.toList := by
  induction as generalizing w with
  | nil =>
    obtain rfl := Option.some.inj h
    rw [List.nil_append, sentParts, sentParts]
    cases callStep sha256 w a <;> simp [sentParts]
  | cons b as ih =>
    obtain ⟨n, hn, hrun⟩ := Machine.run_cons.mp h
    rw [List.cons_append, sentParts, sentParts, hn]
    dsimp only
    rw [ih hrun, List.append_assoc]

/-! ## The buffer -/

/-- What a call has read and sent of the body. -/
structure Receives (request : PutRequest U H) (sent : List (ℕ × Bytes)) (chunks : List Bytes)
    (received buffer : Bytes) (parts : ℕ) : Prop where
  body : received ++ chunks.flatten = request.bytes
  parts : parts = sent.length
  buffered : Buffered partSize received sent buffer

/-- What a call that is not disturbed has sent. -/
def Sends (sha256 : Bytes → H) (request : PutRequest U H) (sent : List (ℕ × Bytes))
    (b : Bucket U H) : Stage H → Prop
  | .inspect | .createMultipart => sent = [] ∧ b.manifest = none
  | .receive multipart chunks received buffer parts => b.manifest = none ∧
      (b.multiparts multipart).isSome ∧ Receives request sent chunks received buffer parts ∧
      buffer.length < partSize
  | .uploadPart multipart chunks received buffer parts => b.manifest = none ∧
      (b.multiparts multipart).isSome ∧ Receives request sent chunks received buffer parts ∧
      partSize ≤ buffer.length
  | .uploadRest multipart received buffer parts => b.manifest = none ∧
      (b.multiparts multipart).isSome ∧ Receives request sent [] received buffer parts ∧
      buffer ≠ [] ∧ buffer.length < partSize
  | .complete multipart received => b.manifest = none ∧ (b.multiparts multipart).isSome ∧
      received = request.bytes ∧ Complete partSize request.bytes sent ∧ ¬ request.mismatch sha256
  | .abortEmpty _ received | .putEmpty received => b.manifest = none ∧
      received = request.bytes ∧ Complete partSize request.bytes sent ∧ ¬ request.mismatch sha256
  | .commitInspect d | .copy d => b.manifest = none ∧ (b.staging request.uploadId).isSome ∧
      (d.size = request.bytes.length ∧ d.sha256 = sha256 request.bytes) ∧
      Complete partSize request.bytes sent ∧ ¬ request.mismatch sha256
  | .putManifest d => b.manifest = none ∧
      (d.size = request.bytes.length ∧ d.sha256 = sha256 request.bytes) ∧
      Complete partSize request.bytes sent ∧ ¬ request.mismatch sha256
  | .deleteStaging result => ∃ d, result = some d ∧
      (d.size = request.bytes.length ∧ d.sha256 = sha256 request.bytes) ∧
      Complete partSize request.bytes sent ∧ ¬ request.mismatch sha256
  | .returned d => (d.size = request.bytes.length ∧ d.sha256 = sha256 request.bytes) ∧
      Complete partSize request.bytes sent ∧ ¬ request.mismatch sha256
  | .abortRaise _ | .raised => request.mismatch sha256 ∧ Complete partSize request.bytes sent
  | .inspectExisting _ | .deleteContent _ | .crashed => False

section Buffer

variable {request : PutRequest U H} {sent : List (ℕ × Bytes)} {b : Bucket U H} {multipart : ℕ}
  {chunks : List Bytes} {received buffer : Bytes} {parts : ℕ}

/-- The buffer is cut as long as it has a full part. -/
theorem sends_afterPart (hnew : b.manifest = none) (hopen : (b.multiparts multipart).isSome)
    (h : Receives request sent chunks received buffer parts) :
    Sends sha256 request sent b (.afterPart multipart chunks received buffer parts) := by
  rw [Stage.afterPart]
  split
  · rename_i hfull
    exact ⟨hnew, hopen, h, hfull⟩
  · rename_i hshort
    exact ⟨hnew, hopen, h, Nat.lt_of_not_le hshort⟩

theorem sends_afterBody (hnew : b.manifest = none) (hopen : (b.multiparts multipart).isSome)
    (hbody : received = request.bytes) (hcomplete : Complete partSize request.bytes sent) :
    Sends sha256 request sent b (.afterBody sha256 request multipart received parts) := by
  subst hbody
  rw [Stage.afterBody]
  split
  · rename_i hmismatch
    exact ⟨hmismatch, hcomplete⟩
  · rename_i hmatch
    split
    · exact ⟨hnew, hopen, rfl, hcomplete, hmatch⟩
    · exact ⟨hnew, rfl, hcomplete, hmatch⟩

/-- A chunk within the limit goes to the buffer. -/
theorem sends_chunk {chunk : Bytes} (hlimit : request.bytes.length ≤ request.maxBytes)
    (hnew : b.manifest = none) (hopen : (b.multiparts multipart).isSome)
    (h : Receives request sent (chunk :: chunks) received buffer parts)
    (hshort : buffer.length < partSize) :
    Sends sha256 request sent b
      (if chunk = [] then .receive multipart chunks received buffer parts
        else if request.maxBytes < (received ++ chunk).length then .abortRaise multipart
        else .afterPart multipart chunks (received ++ chunk) (buffer ++ chunk) parts) := by
  obtain ⟨hbody, hparts, hbuffered⟩ := h
  have hbody' : received ++ chunk ++ chunks.flatten = request.bytes := by
    rw [← hbody, List.flatten_cons, List.append_assoc]
  have hwithin : ¬ request.maxBytes < (received ++ chunk).length := by
    have := congrArg List.length hbody'
    rw [List.length_append] at this
    omega
  by_cases hempty : chunk = []
  · rw [if_pos hempty]
    rw [hempty, List.append_nil] at hbody'
    exact ⟨hnew, hopen, ⟨hbody', hparts, hbuffered⟩, hshort⟩
  · rw [if_neg hempty, if_neg hwithin]
    exact sends_afterPart hnew hopen ⟨hbody', hparts, hbuffered.feed chunk⟩

/-- The body is over: what is left in the buffer is the last part. -/
theorem sends_end (hnew : b.manifest = none) (hopen : (b.multiparts multipart).isSome)
    (h : Receives request sent [] received buffer parts) (hshort : buffer.length < partSize) :
    Sends sha256 request sent b
      (if buffer ≠ [] then .uploadRest multipart received buffer parts
        else .afterBody sha256 request multipart received parts) := by
  have hbody : received = request.bytes := by rw [← h.body, List.flatten_nil, List.append_nil]
  split
  · rename_i hne
    exact ⟨hnew, hopen, h, hne, hshort⟩
  · rename_i hempty
    obtain rfl := not_not.mp hempty
    exact sends_afterBody hnew hopen hbody (hbody ▸ h.buffered.complete (by decide))

end Buffer

/-- The part that a step sends is added to those sent. -/
theorem sends_proceed {request : PutRequest U H} {sent : List (ℕ × Bytes)} {b b' : Bucket U H}
    {stage stage' : Stage H} {now : ℤ} (hlimit : request.bytes.length ≤ request.maxBytes)
    (hs : Sends sha256 request sent b stage)
    (h : proceed sha256 request now b stage = some (b', stage')) :
    Sends sha256 request (sent ++ stage.part?.toList) b' stage' := by
  have hquiet : stage.part? = none → sent ++ stage.part?.toList = sent := fun hnone => by
    rw [hnone]
    exact List.append_nil sent
  have hopen_part : ∀ multipart part, (b.multiparts multipart).isSome →
      ((b.uploadPart multipart part).multiparts multipart).isSome := by
    intro multipart part hopen
    simpa [Bucket.uploadPart] using hopen
  cases stage with
  | inspect =>
    obtain ⟨rfl, hnew⟩ := hs
    simp only [proceed, hnew] at h
    cases h
    exact ⟨rfl, hnew⟩
  | createMultipart =>
    obtain ⟨rfl, hnew⟩ := hs
    cases h
    refine ⟨hnew, ?_, ⟨rfl, rfl, buffered_nil⟩, by decide⟩
    simp [Bucket.createMultipartUpload]
  | receive multipart chunks received buffer parts =>
    obtain ⟨hnew, hopen, hreceives, hshort⟩ := hs
    rw [hquiet rfl]
    cases chunks with
    | nil =>
      cases h
      exact sends_end hnew hopen hreceives hshort
    | cons chunk chunks =>
      cases h
      exact sends_chunk hlimit hnew hopen hreceives hshort
  | uploadPart multipart chunks received buffer parts =>
    obtain ⟨hnew, hopen, ⟨hbody, hparts, hbuffered⟩, hfull⟩ := hs
    cases h
    refine sends_afterPart hnew (hopen_part _ _ hopen) ⟨hbody, ?_, ?_⟩
    · simp [Stage.part?, hparts]
    · rw [hparts]
      exact hbuffered.send hfull
  | uploadRest multipart received buffer parts =>
    obtain ⟨hnew, hopen, ⟨hbody, hparts, hbuffered⟩, hne, hshort⟩ := hs
    have hbody : received = request.bytes := by rw [← hbody, List.flatten_nil, List.append_nil]
    cases h
    refine sends_afterBody hnew (hopen_part _ _ hopen) hbody ?_
    rw [hparts, ← hbody]
    exact hbuffered.rest hne hshort
  | complete multipart received =>
    obtain ⟨hnew, hopen, rfl, hcomplete, hmatch⟩ := hs
    rw [hquiet rfl]
    cases h
    refine ⟨hnew, ?_, ⟨rfl, rfl⟩, hcomplete, hmatch⟩
    simpa [Bucket.completeMultipartUpload] using hopen
  | abortEmpty multipart received =>
    obtain ⟨hnew, rfl, hcomplete, hmatch⟩ := hs
    rw [hquiet rfl]
    cases h
    exact ⟨hnew, rfl, hcomplete, hmatch⟩
  | putEmpty received =>
    obtain ⟨hnew, rfl, hcomplete, hmatch⟩ := hs
    rw [hquiet rfl]
    cases h
    exact ⟨hnew, by simp [Bucket.putStaging], ⟨rfl, rfl⟩, hcomplete, hmatch⟩
  | abortRaise multipart =>
    rw [hquiet rfl]
    cases h
    exact hs
  | commitInspect d =>
    obtain ⟨hnew, hrest⟩ := hs
    rw [hquiet rfl]
    simp only [proceed, hnew] at h
    cases h
    exact ⟨hnew, hrest⟩
  | copy d =>
    obtain ⟨hnew, hstaged, hrest⟩ := hs
    obtain ⟨bytes, hbytes⟩ := Option.isSome_iff_exists.mp hstaged
    rw [hquiet rfl]
    simp only [proceed, hbytes] at h
    cases h
    exact ⟨hnew, hrest⟩
  | putManifest d =>
    obtain ⟨hnew, hrest⟩ := hs
    rw [hquiet rfl]
    simp only [proceed, hnew] at h
    cases h
    exact ⟨d, rfl, hrest⟩
  | deleteStaging result =>
    obtain ⟨d, rfl, hrest⟩ := hs
    rw [hquiet rfl]
    cases h
    exact hrest
  | inspectExisting d | deleteContent d | crashed => exact hs.elim
  | returned d | raised => cases h

/-- Once the body is over, all of it has been sent. -/
theorem Sends.complete {request : PutRequest U H} {sent : List (ℕ × Bytes)} {b : Bucket U H}
    {stage : Stage H} (h : Sends sha256 request sent b stage) (hsent : stage.bodySent = true) :
    Complete partSize request.bytes sent := by
  cases stage with
  | complete multipart received => exact h.2.2.2.1
  | abortEmpty multipart received | putEmpty received => exact h.2.2.1
  | commitInspect d | copy d => exact h.2.2.2.1
  | putManifest d => exact h.2.2.1
  | deleteStaging result =>
    obtain ⟨d, -, -, hcomplete, -⟩ := h
    exact hcomplete
  | returned d => exact h.2.1
  | abortRaise multipart | raised => exact h.2
  | inspectExisting d | deleteContent d | crashed => exact h.elim
  | _ => cases hsent

/-- **What an undisturbed call has sent**, at every point of its run. -/
theorem sends_run {request : PutRequest U H} {b b' : Bucket U H} {call : Call U H}
    {as : List CallAction} (hlimit : request.bytes.length ≤ request.maxBytes)
    (hnew : b.manifest = none) (has : ∀ a ∈ as, a.succeeds = true)
    (hrun : Machine.run (callStep sha256) (.start b request) as = some (b', call)) :
    call.request = request ∧
      Sends sha256 request (sentParts sha256 (.start b request) as) b' call.stage := by
  induction as using List.reverseRecOn generalizing b' call with
  | nil =>
    cases hrun
    exact ⟨rfl, rfl, hnew⟩
  | append_singleton as a ih =>
    obtain ⟨⟨m, mcall⟩, hm, hstep⟩ := Machine.run_concat.mp hrun
    obtain ⟨hrequest, hsends⟩ :=
      ih (fun a ha => has a (List.mem_append_left _ ha)) hm
    have ha := has a (by simp)
    cases a with
    | proceed now =>
      obtain ⟨⟨b'', stage⟩, hproceed, heq⟩ := Option.map_eq_some_iff.mp hstep
      cases heq
      rw [sentParts_concat hm]
      dsimp only at hproceed hrequest
      rw [hrequest] at hproceed
      exact ⟨hrequest, sends_proceed hlimit hsends hproceed⟩
    | fail applied | crash => cases ha

/-! ## The end of a run -/

/-- What is left to be done by a call. -/
def Stage.remaining (request : PutRequest U H) : Stage H → ℕ
  | .inspect => 14 + 2 * request.body.flatten.length + request.body.length
  | .createMultipart => 13 + 2 * request.body.flatten.length + request.body.length
  | .receive _ chunks _ buffer _ | .uploadPart _ chunks _ buffer _ =>
    12 + 2 * (buffer.length + chunks.flatten.length) + chunks.length
  | .uploadRest _ _ _ _ => 11
  | .complete _ _ | .abortEmpty _ _ => 10
  | .putEmpty _ => 9
  | .commitInspect _ => 8
  | .copy _ => 7
  | .putManifest _ => 6
  | .inspectExisting _ => 5
  | .deleteContent _ => 4
  | .deleteStaging _ => 3
  | .abortRaise _ => 1
  | .returned _ | .raised | .crashed => 0

/-- The process is there, and a part is sent only where the buffer has one. -/
def Stage.full : Stage H → Prop
  | .uploadPart _ _ _ buffer _ => partSize ≤ buffer.length
  | .crashed => False
  | _ => True

section Remaining

variable {request : PutRequest U H} {multipart : ℕ} {chunks : List Bytes} {received buffer : Bytes}
  {parts : ℕ}

theorem afterPart_full :
    (Stage.afterPart multipart chunks received buffer parts : Stage H).full := by
  rw [Stage.afterPart]
  split
  · assumption
  · trivial

theorem remaining_afterPart :
    (Stage.afterPart multipart chunks received buffer parts : Stage H).remaining request =
      12 + 2 * (buffer.length + chunks.flatten.length) + chunks.length := by
  rw [Stage.afterPart]
  split <;> rfl

theorem afterBody_full : (Stage.afterBody sha256 request multipart received parts).full := by
  rw [Stage.afterBody]
  split
  · trivial
  · split <;> trivial

theorem remaining_afterBody :
    (Stage.afterBody sha256 request multipart received parts).remaining request ≤ 10 := by
  rw [Stage.afterBody]
  split
  · exact Nat.le_of_lt (by decide : 1 < 10)
  · split <;> exact Nat.le_refl 10

end Remaining

/-- **An undisturbed call comes to its end.** -/
theorem proceed_remaining {request : PutRequest U H} {b b' : Bucket U H} {stage stage' : Stage H}
    {now : ℤ} (hfull : stage.full) (h : proceed sha256 request now b stage = some (b', stage')) :
    stage'.full ∧ stage'.remaining request < stage.remaining request := by
  cases stage with
  | receive multipart chunks received buffer parts =>
    cases chunks with
    | nil =>
      cases h
      split
      · exact ⟨trivial, by simp only [Stage.remaining]; omega⟩
      · exact ⟨afterBody_full, Nat.lt_of_le_of_lt remaining_afterBody
          (by simp only [Stage.remaining]; omega)⟩
    | cons chunk chunks =>
      cases h
      split
      · rename_i hempty
        refine ⟨trivial, ?_⟩
        simp only [Stage.remaining, hempty, List.flatten_cons, List.nil_append, List.length_cons]
        omega
      · split
        · exact ⟨trivial, by simp only [Stage.remaining]; omega⟩
        · refine ⟨afterPart_full, ?_⟩
          rw [remaining_afterPart]
          simp only [Stage.remaining, List.flatten_cons, List.length_cons, List.length_append]
          omega
  | uploadPart multipart chunks received buffer parts =>
    have hfull : partSize ≤ buffer.length := hfull
    have hpos : 0 < partSize := by decide
    cases h
    refine ⟨afterPart_full, ?_⟩
    rw [remaining_afterPart]
    simp only [Stage.remaining, List.length_drop]
    omega
  | uploadRest multipart received buffer parts =>
    cases h
    exact ⟨afterBody_full, Nat.lt_succ_of_le remaining_afterBody⟩
  | createMultipart =>
    cases h
    refine ⟨trivial, ?_⟩
    simp only [Stage.remaining, List.length_nil]
    omega
  | inspect =>
    simp only [proceed] at h
    split at h
    · cases h
      exact ⟨trivial, by simp only [Stage.remaining]; omega⟩
    · cases h
      split <;> exact ⟨trivial, by simp only [Stage.remaining]; omega⟩
  | commitInspect d | copy d | putManifest d =>
    simp only [proceed] at h
    split at h
    all_goals
      cases h
      exact ⟨trivial, by simp only [Stage.remaining]; omega⟩
  | inspectExisting d =>
    simp only [proceed] at h
    split at h
    · cases h
      exact ⟨trivial, by simp only [Stage.remaining]; omega⟩
    · cases h
      split
      · exact ⟨trivial, by simp only [Stage.remaining]; omega⟩
      · split <;> exact ⟨trivial, by simp only [Stage.remaining]; omega⟩
  | deleteStaging result =>
    cases h
    cases result <;> exact ⟨trivial, by simp only [Stage.ofResult, Stage.remaining]; omega⟩
  | returned d | raised | crashed => cases h
  | complete multipart received | abortEmpty multipart received | putEmpty received
  | abortRaise multipart | deleteContent d =>
    cases h
    exact ⟨trivial, by simp only [Stage.remaining]; omega⟩

/-- A call that awaits nothing is over. -/
theorem proceed_none {request : PutRequest U H} {b : Bucket U H} {stage : Stage H} {now : ℤ}
    (hfull : stage.full) (h : proceed sha256 request now b stage = none) :
    stage = .raised ∨ ∃ d, stage = .returned d := by
  cases stage with
  | returned d => exact .inr ⟨d, rfl⟩
  | raised => exact .inl rfl
  | crashed => exact hfull.elim
  | receive multipart chunks received buffer parts => cases chunks <;> cases h
  | inspect | commitInspect d | copy d | putManifest d | inspectExisting d =>
    simp only [proceed] at h
    split at h <;> cases h
  | _ => cases h

/-- The successes of a call lead to its end. -/
theorem call_ends (sha256 : Bytes → H) (b : Bucket U H) (request : PutRequest U H) (now : ℤ) :
    ∃ n b' call, Machine.run (callStep sha256) (.start b request)
        (List.replicate n (.proceed now)) = some (b', call) ∧
      (call.stage = .raised ∨ ∃ d, call.stage = .returned d) := by
  have hstep : ∀ w w' : Alone U H, w.2.request = request ∧ w.2.stage.full →
      callStep sha256 w (.proceed now) = some w' →
      (w'.2.request = request ∧ w'.2.stage.full) ∧
        w'.2.stage.remaining request < w.2.stage.remaining request := by
    rintro ⟨b, call⟩ w' ⟨rfl, hfull⟩ h
    obtain ⟨⟨b', stage⟩, hproceed, rfl⟩ := Option.map_eq_some_iff.mp h
    obtain ⟨hfull', hlt⟩ := proceed_remaining hfull hproceed
    exact ⟨⟨rfl, hfull'⟩, hlt⟩
  obtain ⟨n, ⟨b', call⟩, hrun, ⟨-, hfull⟩, hfinal⟩ :=
    Machine.exists_final hstep (s := .start b request) ⟨rfl, trivial⟩
  exact ⟨n, b', call, hrun, proceed_none hfull (Option.map_eq_none_iff.mp hfinal)⟩

/-! ## A body over the limit -/

/-- What a call knows of the length of the body. -/
def Within (request : PutRequest U H) (b : Bucket U H) : Stage H → Prop
  | .inspect => b.manifest = none
  | .receive _ chunks received _ _ | .uploadPart _ chunks received _ _ =>
    received ++ chunks.flatten = request.bytes ∧ received.length ≤ request.maxBytes
  | .createMultipart | .abortRaise _ | .raised | .crashed => True
  | .uploadRest _ _ _ _ | .complete _ _ | .abortEmpty _ _ | .putEmpty _ | .commitInspect _
  | .copy _ | .putManifest _ | .inspectExisting _ | .deleteContent _ | .deleteStaging _
  | .returned _ => request.bytes.length ≤ request.maxBytes

theorem within_afterPart {request : PutRequest U H} {b : Bucket U H} {multipart : ℕ}
    {chunks : List Bytes} {received buffer : Bytes} {parts : ℕ}
    (h : received ++ chunks.flatten = request.bytes ∧ received.length ≤ request.maxBytes) :
    Within request b (.afterPart multipart chunks received buffer parts) := by
  rw [Stage.afterPart]
  split <;> exact h

theorem within_afterBody {request : PutRequest U H} {b : Bucket U H} {multipart : ℕ}
    {received : Bytes} {parts : ℕ} (h : request.bytes.length ≤ request.maxBytes) :
    Within request b (.afterBody sha256 request multipart received parts) := by
  rw [Stage.afterBody]
  split
  · trivial
  · split <;> exact h

theorem within_proceed {request : PutRequest U H} {b b' : Bucket U H} {stage stage' : Stage H}
    {now : ℤ} (hs : Within request b stage)
    (h : proceed sha256 request now b stage = some (b', stage')) : Within request b' stage' := by
  cases stage with
  | inspect =>
    have hs : b.manifest = none := hs
    simp only [proceed, hs] at h
    cases h
    trivial
  | createMultipart =>
    cases h
    exact ⟨rfl, Nat.zero_le _⟩
  | receive multipart chunks received buffer parts =>
    obtain ⟨hbody, hlength⟩ := hs
    cases chunks with
    | nil =>
      cases h
      rw [List.flatten_nil, List.append_nil] at hbody
      rw [hbody] at hlength
      split
      · exact hlength
      · exact within_afterBody hlength
    | cons chunk chunks =>
      cases h
      rw [List.flatten_cons, ← List.append_assoc] at hbody
      split
      · rename_i hempty
        rw [hempty, List.append_nil] at hbody
        exact ⟨hbody, hlength⟩
      · split
        · trivial
        · rename_i hwithin
          exact within_afterPart ⟨hbody, Nat.le_of_not_lt hwithin⟩
  | uploadPart multipart chunks received buffer parts =>
    cases h
    exact within_afterPart hs
  | uploadRest multipart received buffer parts =>
    cases h
    exact within_afterBody hs
  | commitInspect d | copy d | putManifest d =>
    simp only [proceed] at h
    split at h <;> cases h <;> exact hs
  | inspectExisting d =>
    simp only [proceed] at h
    split at h
    · cases h
      exact hs
    · cases h
      split
      · exact hs
      · split <;> exact hs
  | deleteStaging result =>
    cases h
    cases result
    · trivial
    · exact hs
  | returned d | raised | crashed => cases h
  | complete multipart received | abortEmpty multipart received | putEmpty received
  | abortRaise multipart | deleteContent d =>
    cases h
    exact hs

/-- A call that is disturbed completes nothing either. -/
theorem within_onError {request : PutRequest U H} {b b' : Bucket U H} {stage stage' : Stage H}
    (hs : Within request b stage) (h : stage.onError = some stage') :
    Within request b' stage' := by
  cases stage with
  | deleteStaging result =>
    cases h
    cases result
    · trivial
    · exact hs
  | returned d | raised | crashed => cases h
  | commitInspect d | copy d | putManifest d | inspectExisting d | deleteContent d =>
    cases h
    exact hs
  | _ =>
    cases h
    trivial

theorem within_step {w w' : Alone U H} {a : CallAction} (hs : Within w.2.request w.1 w.2.stage)
    (h : callStep sha256 w a = some w') : Within w'.2.request w'.1 w'.2.stage := by
  cases a with
  | proceed now =>
    obtain ⟨r, hr, rfl⟩ := Option.map_eq_some_iff.mp h
    exact within_proceed hs hr
  | fail applied =>
    obtain ⟨stage, hstage, rfl⟩ := Option.map_eq_some_iff.mp h
    exact within_onError hs hstage
  | crash =>
    obtain ⟨stage, hstage, rfl⟩ := Option.map_eq_some_iff.mp h
    trivial

theorem within_run {request : PutRequest U H} {b : Bucket U H} {w : Alone U H}
    {as : List CallAction} (hnew : b.manifest = none)
    (hrun : Machine.run (callStep sha256) (.start b request) as = some w) :
    Within w.2.request w.1 w.2.stage :=
  Machine.run_keeps (fun _ _ _ => within_step) hrun hnew

theorem callStep_request {w w' : Alone U H} {a : CallAction} (h : callStep sha256 w a = some w') :
    w'.2.request = w.2.request := by
  cases a <;> obtain ⟨r, -, rfl⟩ := Option.map_eq_some_iff.mp h <;> rfl

theorem callRun_request {request : PutRequest U H} {b : Bucket U H} {w : Alone U H}
    {as : List CallAction} (hrun : Machine.run (callStep sha256) (.start b request) as = some w) :
    w.2.request = request := by
  have hkeeps : ∀ v a v', v.2.request = request → callStep sha256 v a = some v' →
      v'.2.request = request := fun _ _ _ h hstep => (callStep_request hstep).trans h
  exact Machine.run_keeps hkeeps hrun rfl

/-! ## Any body, cut in any way -/

/-- **The parts of an upload are its body**, as are the size and the digest it is committed with;
an upload over the limit is never completed. -/
theorem upload_parts (sha256 : Bytes → H) (request : PutRequest U H) (b : Bucket U H)
    (hnew : b.manifest = none) (now : ℤ) :
    (request.bytes.length ≤ request.maxBytes →
      (∀ as b' call, (∀ a ∈ as, a.succeeds = true) →
        Machine.run (callStep sha256) (.start b request) as = some (b', call) →
          (call.stage.bodySent = true →
            Complete partSize request.bytes (sentParts sha256 (.start b request) as)) ∧
          ∀ d, call.stage = .returned d →
            d.size = request.bytes.length ∧ d.sha256 = sha256 request.bytes) ∧
      ∃ n b' call, Machine.run (callStep sha256) (.start b request)
          (List.replicate n (.proceed now)) = some (b', call) ∧
        (call.stage = .raised ∧ request.mismatch sha256 ∨
          ∃ d, call.stage = .returned d ∧ ¬ request.mismatch sha256)) ∧
    (request.maxBytes < request.bytes.length →
      (∀ as b' call, Machine.run (callStep sha256) (.start b request) as = some (b', call) →
        call.stage.completes = false) ∧
      ∃ n b' call, Machine.run (callStep sha256) (.start b request)
        (List.replicate n (.proceed now)) = some (b', call) ∧ call.stage = .raised) := by
  have hproceed : ∀ n, ∀ a ∈ List.replicate n (CallAction.proceed now), a.succeeds = true :=
    fun n a ha => by rw [List.eq_of_mem_replicate ha]; rfl
  obtain ⟨n, b', call, hends, hend⟩ := call_ends sha256 b request now
  refine ⟨fun hlimit => ⟨fun as b' call has hrun => ?_, n, b', call, hends, ?_⟩,
    fun hover => ⟨fun as b' call hrun => ?_, n, b', call, hends, ?_⟩⟩
  · obtain ⟨-, hsends⟩ := sends_run hlimit hnew has hrun
    refine ⟨hsends.complete, fun d hd => ?_⟩
    rw [hd] at hsends
    exact hsends.1
  · obtain ⟨-, hsends⟩ := sends_run hlimit hnew (hproceed n) hends
    rcases hend with hraised | ⟨d, hd⟩
    · rw [hraised] at hsends
      exact .inl ⟨hraised, hsends.1⟩
    · rw [hd] at hsends
      exact .inr ⟨d, hd, hsends.2.2⟩
  · have hwithin := within_run hnew hrun
    rw [callRun_request hrun] at hwithin
    dsimp only at hwithin
    generalize call.stage = stage at hwithin
    cases stage with
    | complete multipart received | putEmpty received => exact absurd hover (Nat.not_lt.mpr hwithin)
    | _ => rfl
  · rcases hend with hraised | ⟨d, hd⟩
    · exact hraised
    · have hwithin := within_run hnew hends
      rw [callRun_request hends] at hwithin
      dsimp only at hwithin
      rw [hd] at hwithin
      exact absurd hover (Nat.not_lt.mpr hwithin)

/-- A body in three chunks, one of them empty. -/
def sampleUpload : PutRequest ℕ ℕ where
  uploadId := 0
  body := [[1], [], [2, 3]]
  ownerId := "owner"
  filename := "report"
  mediaType := "text/plain"
  maxBytes := 3
  expectedSha256 := none

theorem upload_parts_sample :
    ∃ n b' call, Machine.run (callStep List.length) (.start Bucket.empty sampleUpload)
        (List.replicate n (.proceed 0)) = some (b', call) ∧ ∃ d, call.stage = .returned d := by
  obtain ⟨-, n, b', call, hrun, hend⟩ :=
    (upload_parts List.length sampleUpload Bucket.empty rfl 0).1 (by decide)
  rcases hend with ⟨-, hmismatch⟩ | ⟨d, hd, -⟩
  · exact absurd hmismatch.1 (by decide)
  · exact ⟨n, b', call, hrun, d, hd⟩

end CodexGateway.Artifact
