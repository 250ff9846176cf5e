import CodexGateway.Adapter.OutputItems

/-!
# Adapter/Sequence — the numbers and the last event of what the builder emits

Every method numbers its events from the number of the builder on, without a gap.  Before the
Response ends it leaves the status alone (`Plain`); a method that ends it emits one terminal event,
as its last, which tells the status of the record (`Ending`).
-/

namespace CodexGateway.Adapter

open PyJson ResponsesEventBuilder

/-- The status a terminal event tells. -/
def EventBody.outcome? : EventBody → Option ResponseStatus
  | .responseCompleted _ => some .completed
  | .responseFailed _ => some .failed
  | .responseIncomplete _ => some .incomplete
  | _ => none

/-- The events are numbered from `n` on. -/
def NumberedFrom (n : ℕ) (events : List Event) : Prop :=
  events.map Event.sequenceNumber = List.range' n events.length

/-- The events end with the only terminal one, which tells the status. -/
def EndsWith (status : ResponseStatus) (events : List Event) : Prop :=
  ∃ es e, events = es ++ [e] ∧ (∀ e ∈ es, e.body.outcome? = none) ∧ e.body.outcome? = some status

/-- What is emitted before the Response ends. -/
structure Plain (b : ResponsesEventBuilder) (r : List Event × ResponsesEventBuilder) : Prop where
  numbers : NumberedFrom b.sequenceNumber r.1
  next : r.2.sequenceNumber = b.sequenceNumber + r.1.length
  silent : ∀ e ∈ r.1, e.body.outcome? = none
  terminal : r.2.terminal = b.terminal
  status : r.2.record.status = b.record.status

/-- What is emitted when the Response ends. -/
structure Ending (b : ResponsesEventBuilder) (r : List Event × ResponsesEventBuilder) : Prop where
  numbers : NumberedFrom b.sequenceNumber r.1
  next : r.2.sequenceNumber = b.sequenceNumber + r.1.length
  last : EndsWith r.2.record.status r.1
  terminal : r.2.terminal = true

variable {b : ResponsesEventBuilder} {r r' : List Event × ResponsesEventBuilder}

/-- Events that go on counting are counted as one. -/
theorem NumberedFrom.append {n : ℕ} {es fs : List Event} (hes : NumberedFrom n es)
    (hfs : NumberedFrom (n + es.length) fs) : NumberedFrom n (es ++ fs) := by
  rw [NumberedFrom] at hes hfs ⊢
  rw [List.map_append, hes, hfs, List.length_append, List.range'_append_1]

/-- What comes after some events counts on from them. -/
theorem NumberedFrom.right {n : ℕ} {es fs : List Event} (h : NumberedFrom n (es ++ fs)) :
    NumberedFrom (n + es.length) fs := by
  rw [NumberedFrom, List.map_append, List.length_append, ← List.range'_append_1] at h
  exact List.append_inj_right h (by simp)

/-- Doing nothing is plain. -/
theorem Plain.nil (b : ResponsesEventBuilder) : Plain b ([], b) :=
  ⟨rfl, rfl, fun _ h => (by cases h), rfl, rfl⟩

/-- Two plain steps are plain. -/
theorem Plain.append (h : Plain b r) (h' : Plain r.2 r') : Plain b (r.1 ++ r'.1, r'.2) where
  numbers := h.numbers.append (h.next ▸ h'.numbers)
  next := by
    rw [h'.next, h.next, List.length_append]
    omega
  silent := fun e he => (List.mem_append.mp he).elim (h.silent e) (h'.silent e)
  terminal := h'.terminal.trans h.terminal
  status := h'.status.trans h.status

/-- A plain step before an ending is part of it. -/
theorem Plain.end (h : Plain b r) (h' : Ending r.2 r') : Ending b (r.1 ++ r'.1, r'.2) where
  numbers := h.numbers.append (h.next ▸ h'.numbers)
  next := by
    rw [h'.next, h.next, List.length_append]
    omega
  last := by
    obtain ⟨es, e, heq, hsilent, he⟩ := h'.last
    refine ⟨r.1 ++ es, e, ?_, fun e he => ?_, he⟩
    · show r.1 ++ r'.1 = r.1 ++ es ++ [e]
      rw [heq, List.append_assoc]
    · exact (List.mem_append.mp he).elim (h.silent e) (hsilent e)
  terminal := h'.terminal

/-- A change of the record that leaves its status alone. -/
theorem Plain.withRecord (h : Plain b r) {record : ResponseRecord}
    (hstatus : record.status = r.2.record.status) : Plain b (r.1, { r.2 with record := record }) :=
  ⟨h.numbers, h.next, h.silent, h.terminal, hstatus.trans h.status⟩

/-! ## The status of the record -/

/-- An item does not change the status. -/
@[simp] theorem ResponseRecord.addOutputItem_status (record : ResponseRecord) (item : OutputItem) :
    (record.addOutputItem item).1.status = record.status := by
  rw [addOutputItem]
  split <;> rfl

/-- The message brought up to date does not change the status. -/
@[simp] theorem ResponseRecord.syncMessageItem_status (record : ResponseRecord) :
    record.syncMessageItem.status = record.status := by rw [syncMessageItem_frame]

/-- The place of the message does not change the status. -/
@[simp] theorem ResponseRecord.ensureMessage_status (record : ResponseRecord)
    (itemId : Option String) : (record.ensureMessage itemId).1.status = record.status := by
  rw [ensureMessage.eq_def]
  split
  · rfl
  · simp

/-- The item of a call is plain. -/
theorem mcpCallItem_plain (source : Members) (completed : Bool) (b : ResponsesEventBuilder) :
    Plain b ([], (mcpCallItem source completed b).2) := by
  have hmeta : ∀ callId server tool,
      (mcpMeta b.record source callId server tool).1.status = b.record.status := by
    intro callId server tool
    simp only [mcpMeta]
    split <;> rfl
  exact (Plain.nil b).withRecord (hmeta _ _ _)

/-! ## The methods before the end -/

/-- Events numbered one after the other. -/
def enumerate (n : ℕ) : List EventBody → List Event
  | [] => []
  | body :: bodies => ⟨n, body⟩ :: enumerate (n + 1) bodies

/-- Events that are enumerated are counted. -/
theorem numberedFrom_enumerate (bodies : List EventBody) (n : ℕ) :
    NumberedFrom n (enumerate n bodies) := by
  induction bodies generalizing n with
  | nil => rfl
  | cons body bodies ih => exact congrArg (n :: ·) (ih (n + 1))

/-- No event is lost in counting. -/
theorem length_enumerate (bodies : List EventBody) (n : ℕ) :
    (enumerate n bodies).length = bodies.length := by
  induction bodies generalizing n with
  | nil => rfl
  | cons body bodies ih => exact congrArg (· + 1) (ih (n + 1))

/-- An enumerated event is one of those given. -/
theorem body_enumerate {bodies : List EventBody} {n : ℕ} {e : Event} (he : e ∈ enumerate n bodies) :
    e.body ∈ bodies := by
  induction bodies generalizing n with
  | nil => cases he
  | cons body bodies ih =>
    rcases List.mem_cons.mp he with rfl | he
    · exact List.mem_cons_self
    · exact List.mem_cons_of_mem body (ih he)

/-- The builder emits events, none of them terminal, and changes its record otherwise. -/
theorem Plain.emit (h : Plain b r) (bodies : List EventBody)
    (hsilent : ∀ body ∈ bodies, body.outcome? = none) {record : ResponseRecord}
    (hstatus : record.status = r.2.record.status) (completed : List String) :
    Plain b (r.1 ++ enumerate r.2.sequenceNumber bodies,
      ⟨record, r.2.sequenceNumber + bodies.length, r.2.terminal, completed⟩) := by
  have hnew : Plain r.2 (enumerate r.2.sequenceNumber bodies,
      ⟨record, r.2.sequenceNumber + bodies.length, r.2.terminal, completed⟩) := by
    refine ⟨numberedFrom_enumerate bodies _, ?_, fun e he => hsilent _ (body_enumerate he), rfl,
      hstatus⟩
    rw [length_enumerate]
  exact h.append hnew

/-- The start of a call is plain. -/
theorem startMcpCall_plain (source : Members) (b : ResponsesEventBuilder) :
    Plain b (startMcpCall source b) := by
  cases hid : string? (source.get "id") with
  | none =>
    unfold startMcpCall
    rw [hid]
    exact Plain.nil b
  | some callId =>
    cases hindex : b.record.outputIndex callId with
    | some i =>
      rw [startMcpCall_known hid (by simp [hindex])]
      exact Plain.nil b
    | none =>
      rw [startMcpCall_new hid hindex]
      let r := mcpCallItem source false b
      let added := r.2.record.addOutputItem (.mcpCall r.1)
      exact (mcpCallItem_plain source false b).emit
        [.outputItemAdded added.2 (.mcpCall r.1),
          .mcpCallArgumentsDone callId added.2 r.1.arguments, .mcpCallInProgress callId added.2]
        (by simp [EventBody.outcome?]) (r.2.record.addOutputItem_status _) _

/-- The end of a call is plain. -/
theorem endMcpCall_plain (source : Members) (callId : String) (b : ResponsesEventBuilder) :
    Plain b (endMcpCall source callId b) := by
  rw [endMcpCall_eq]
  let r := mcpCallItem source true b
  let added := r.2.record.addOutputItem (.mcpCall r.1)
  refine (mcpCallItem_plain source true b).emit
    [if r.1.status = .failed then .mcpCallFailed callId added.2 else .mcpCallCompleted callId added.2,
      .outputItemDone added.2 (.mcpCall r.1)] (fun body hbody => ?_)
    (r.2.record.addOutputItem_status _) _
  rcases List.mem_pair.mp hbody with rfl | rfl
  · split <;> rfl
  · rfl

/-- A call that is completed is plain. -/
theorem completeMcpCall_plain (source : Members) (b : ResponsesEventBuilder) :
    Plain b (completeMcpCall source b) := by
  unfold completeMcpCall
  cases string? (source.get "id") with
  | none => exact Plain.nil b
  | some callId =>
    simp only [getBuilder_bind]
    by_cases hdone : callId.val ∈ b.completedMcpCalls
    · rw [if_pos hdone]
      exact Plain.nil b
    · rw [if_neg hdone]
      by_cases hknown : (b.record.outputIndex callId).isNone = true
      · simp only [getRecord_bind, if_pos hknown]
        exact (startMcpCall_plain source b).append (endMcpCall_plain source callId _)
      · simp only [getRecord_bind, if_neg hknown]
        exact (Plain.nil b).append (endMcpCall_plain source callId b)

/-- The calls of a turn are plain. -/
theorem completeMcpCalls_plain : ∀ (items : List Json) (b : ResponsesEventBuilder),
    Plain b (completeMcpCalls items b)
  | [], b => Plain.nil b
  | item :: items, b => by
      rw [completeMcpCalls]
      cases (dict? item).filter fun ms => hasType ms "mcpToolCall" with
      | none => exact (Plain.nil b).append (completeMcpCalls_plain items b)
      | some call =>
        exact (completeMcpCall_plain call b).append (completeMcpCalls_plain items _)

/-- The start of a message is plain. -/
theorem startMessage_plain (itemId : Option String) (b : ResponsesEventBuilder) :
    Plain b (startMessage itemId b) := by
  cases hs : b.record.messageStarted with
  | true =>
    unfold startMessage
    simp only [getRecord_bind, hs]
    exact Plain.nil b
  | false =>
    rw [startMessage_new hs]
    let r := b.record.ensureMessage itemId
    exact (Plain.nil b).emit
      [.outputItemAdded r.2 r.1.messageItem, .contentPartAdded r.1.messageId r.2 0 ""]
      (by simp [EventBody.outcome?]) (b.record.ensureMessage_status itemId) _

/-- A text that is set is plain. -/
theorem setOutputText_plain (text : String) (b : ResponsesEventBuilder) :
    Plain b ([], (setOutputText text b).2) :=
  (Plain.nil b).withRecord (ResponseRecord.syncMessageItem_status { b.record with outputText := text })

/-- The text of the message grows, and the growth is shown. -/
theorem showText_plain (text delta : String) (b : ResponsesEventBuilder) :
    Plain b ([(textDelta delta (setOutputText text b).2).1],
      (textDelta delta (setOutputText text b).2).2) :=
  (setOutputText_plain text b).emit [(textDelta delta (setOutputText text b).2).1.body]
    (fun _ hbody => List.mem_singleton.mp hbody ▸ rfl) rfl _

/-- A text that is appended is plain. -/
theorem appendText_plain (delta : String) (itemId : Option String) (b : ResponsesEventBuilder) :
    Plain b (appendText delta itemId b) :=
  (startMessage_plain itemId b).append (showText_plain _ delta _)

/-- A completed message is plain. -/
theorem syncCompletedMessage_plain (text : String) (itemId : Option String)
    (b : ResponsesEventBuilder) : Plain b (syncCompletedMessage text itemId b) := by
  have hstart := startMessage_plain itemId b
  simp only [syncCompletedMessage]
  rw [bind_apply, getRecord_bind]
  split_ifs
  · exact hstart
  · exact hstart
  · exact hstart.append (showText_plain _ _ _)
  · exact hstart.withRecord (ResponseRecord.syncMessageItem_status _)

/-- The end of a message is plain. -/
theorem finishMessage_plain (b : ResponsesEventBuilder) : Plain b (finishMessage b) := by
  unfold finishMessage
  rw [getRecord_bind]
  split_ifs
  · exact Plain.nil b
  · refine (Plain.nil b).emit ((completeMessage b).1.map Event.body) (fun body hbody => ?_)
      (ResponseRecord.syncMessageItem_status { b.record with messageCompleted := true }) _
    have hmem : body.outcome? ∈ [none, none, none] := List.mem_map_of_mem hbody
    simpa using hmem

/-! ## The methods that end the Response -/

/-- The terminal event is the ending. -/
theorem terminate_ending {update : ResponseRecord → ResponseRecord} {body : Response → EventBody}
    {status : ResponseStatus} (hbody : ∀ r, (body r).outcome? = some status)
    (hupdate : ∀ r, (update r).status = status) (b : ResponsesEventBuilder) :
    Ending b ([(terminate update body b).1], (terminate update body b).2) where
  numbers := rfl
  next := rfl
  last := by
    refine ⟨[], _, rfl, fun _ h => (by cases h), (hbody _).trans (congrArg some ?_)⟩
    exact ((ResponseRecord.syncMessageItem_status _).trans (hupdate _)).symm
  terminal := rfl

/-- A failure ends the stream. -/
theorem fail_ending (hopen : b.terminal = false) (message : String) : Ending b (fail message b) := by
  unfold fail
  rw [getBuilder_bind, if_neg (by simp [hopen])]
  let update : ResponseRecord → ResponseRecord := fun r =>
    { r with status := .failed, error := some ⟨"codex_execution_failed", message⟩ }
  exact (finishMessage_plain b).end
    (@terminate_ending update .responseFailed .failed (fun _ => rfl) (fun _ => rfl) _)

/-- An incomplete Response ends the stream. -/
theorem incomplete_ending (hopen : b.terminal = false) (reason : String) :
    Ending b (incomplete reason b) := by
  unfold incomplete
  rw [getBuilder_bind, if_neg (by simp [hopen])]
  let update : ResponseRecord → ResponseRecord := fun r =>
    { r with status := .incomplete, incompleteDetails := some reason }
  exact (finishMessage_plain b).end
    (@terminate_ending update .responseIncomplete .incomplete (fun _ => rfl) (fun _ => rfl) _)

/-- The outcome of a turn ends the stream. -/
theorem endTurn_ending (turn : Members) (b : ResponsesEventBuilder) :
    Ending b ([(endTurn turn b).1], (endTurn turn b).2) := by
  simp only [endTurn]
  split_ifs
  · exact @terminate_ending _ _ .completed (fun _ => rfl) (fun _ => rfl) b
  · exact @terminate_ending _ _ .incomplete (fun _ => rfl) (fun _ => rfl) b
  · exact @terminate_ending _ _ .failed (fun _ => rfl) (fun _ => rfl) b

/-- The final text is plain. -/
theorem syncFinalText_plain (turn : Members) (b : ResponsesEventBuilder) :
    Plain b (syncFinalText turn b) := by
  simp only [syncFinalText]
  split_ifs
  · exact Plain.nil b
  · exact syncCompletedMessage_plain _ _ b

/-- The end of a turn ends the stream. -/
theorem completeTurn_ending (hopen : b.terminal = false) (turn : Members) :
    Ending b (completeTurn turn b) := by
  unfold completeTurn
  rw [getBuilder_bind, if_neg (by simp [hopen])]
  have hcalls := completeMcpCalls_plain ((list? (turn.get "items")).getD []) b
  have hsynced := hcalls.append (syncFinalText_plain turn _)
  have hfinished := hsynced.append (finishMessage_plain _)
  have husage := @Plain.withRecord _ _ hfinished
    { (finishMessage _).2.record with usage := usageFromTurn turn } rfl
  exact husage.end (endTurn_ending turn _)

/-- **A notification before the end is plain, or ends the Response.** -/
theorem consume_emission (hopen : b.terminal = false) (notification : Members) :
    Plain b (consume notification b) ∨ Ending b (consume notification b) := by
  unfold consume
  cases str? (notification.get "method") with
  | none => exact .inl (Plain.nil b)
  | some method =>
  cases dict? (notification.get "params") with
  | none => exact .inl (Plain.nil b)
  | some params =>
  simp only
  by_cases h1 : method = "item/started"
  · rw [if_pos h1]
    unfold consumeItemStarted
    cases (dict? (params.get "item")).filter fun ms => hasType ms "mcpToolCall" with
    | none => exact .inl (Plain.nil b)
    | some item => exact .inl (startMcpCall_plain item b)
  rw [if_neg h1]
  by_cases h2 : method = "item/agentMessage/delta"
  · rw [if_pos h2]
    unfold consumeDelta
    cases string? (params.get "delta") with
    | none => exact .inl (Plain.nil b)
    | some delta => exact .inl (appendText_plain delta _ b)
  rw [if_neg h2]
  by_cases h3 : method = "item/completed"
  · rw [if_pos h3]
    unfold consumeItemCompleted
    cases dict? (params.get "item") with
    | none => exact .inl (Plain.nil b)
    | some item =>
      simp only
      split_ifs
      · exact .inl (syncCompletedMessage_plain _ _ b)
      · exact .inl (completeMcpCall_plain item b)
      · exact .inl (Plain.nil b)
  rw [if_neg h3]
  by_cases h4 : method = "turn/completed"
  · rw [if_pos h4]
    exact .inr (completeTurn_ending hopen _)
  rw [if_neg h4]
  by_cases h5 : method = "error" ∨ method = "turn/error"
  · rw [if_pos h5]
    unfold consumeError
    split_ifs
    · exact .inl (Plain.nil b)
    · exact .inr (fail_ending hopen _)
  · rw [if_neg h5]
    exact .inl (Plain.nil b)

/-- The first events are plain. -/
theorem initialEvents_plain (b : ResponsesEventBuilder) : Plain b (initialEvents b) :=
  (Plain.nil b).emit ((initialEvents b).1.map Event.body)
    (fun body hbody => by
      have hmem : body.outcome? ∈ [none, none] := List.mem_map_of_mem hbody
      simpa using hmem)
    ((ResponseRecord.syncMessageItem_status _).trans (ResponseRecord.syncMessageItem_status _)) _

end CodexGateway.Adapter
