import CodexGateway.Adapter.Events

/-!
# Adapter/EventText — the text a Response shows while it runs, and the text it ends with

A client that follows the stream sees the text of the deltas; the `done` event, the terminal
response and the record carry the text the builder has kept.  Both grow together, except when a
completion brings a text that does not extend the kept one: then the kept text is replaced and
nothing is shown (`syncCompletedMessage`).
-/

namespace CodexGateway.Adapter

open PyJson ResponsesEventBuilder

/-! ## The texts of a stream -/

/-- What an event adds to the text shown. -/
def EventBody.delta : EventBody → String
  | .outputTextDelta _ _ _ delta => delta
  | _ => ""

/-- The final text of the message. -/
def EventBody.doneText? : EventBody → Option String
  | .outputTextDone _ _ _ text => some text
  | _ => none

/-- The response of a terminal event. -/
def EventBody.terminal? : EventBody → Option Response
  | .responseCompleted response => some response
  | .responseFailed response => some response
  | .responseIncomplete response => some response
  | _ => none

/-- The message texts in the response of a terminal event. -/
def EventBody.responseTexts (body : EventBody) : List String :=
  (body.terminal?.map fun response => response.output.filterMap OutputItem.messageText?).getD []

/-- The concatenated deltas. -/
def shownText : List Event → String
  | [] => ""
  | e :: es => e.body.delta ++ shownText es

/-- The texts of the events that say a text is done. -/
def doneTexts (events : List Event) : List String := events.filterMap fun e => e.body.doneText?

/-- The texts of the Responses in the events. -/
def responseTexts (events : List Event) : List String := events.flatMap fun e => e.body.responseTexts

/-- The deltas of the parts are shown one after the other. -/
@[simp] theorem shownText_append (es fs : List Event) :
    shownText (es ++ fs) = shownText es ++ shownText fs := by
  induction es with
  | nil => simp [shownText]
  | cons e es ih => simp [shownText, ih, String.append_assoc]

/-- The texts that are done come in order. -/
@[simp] theorem doneTexts_append (es fs : List Event) :
    doneTexts (es ++ fs) = doneTexts es ++ doneTexts fs := List.filterMap_append

/-- The texts of the Responses come in order. -/
@[simp] theorem responseTexts_append (es fs : List Event) :
    responseTexts (es ++ fs) = responseTexts es ++ responseTexts fs := List.flatMap_append

/-- The events carry no text of the message. -/
structure Silent (events : List Event) : Prop where
  shown : shownText events = ""
  done : doneTexts events = []
  response : responseTexts events = []

/-- No events say nothing. -/
theorem Silent.nil : Silent [] := ⟨rfl, rfl, rfl⟩

/-- Two silences are one. -/
theorem Silent.append {es fs : List Event} (he : Silent es) (hf : Silent fs) : Silent (es ++ fs) where
  shown := by simp [he.shown, hf.shown]
  done := by simp [he.done, hf.done]
  response := by simp [he.response, hf.response]

/-! ## Steps that leave the text alone -/

/-- The kept text and the state of the message are the same, and the message still has its place. -/
structure SameText (b b' : ResponsesEventBuilder) : Prop where
  text : b'.record.outputText = b.record.outputText
  started : b'.record.messageStarted = b.record.messageStarted
  completed : b'.record.messageCompleted = b.record.messageCompleted
  terminal : b'.terminal = b.terminal
  placed : b.record.Placed → b'.record.Placed

/-- A builder has its own text. -/
theorem SameText.refl (b : ResponsesEventBuilder) : SameText b b := ⟨rfl, rfl, rfl, rfl, id⟩

/-- Two steps that leave the text alone leave it alone. -/
theorem SameText.trans {b c d : ResponsesEventBuilder} (h : SameText b c) (h' : SameText c d) :
    SameText b d where
  text := h'.text.trans h.text
  started := h'.started.trans h.started
  completed := h'.completed.trans h.completed
  terminal := h'.terminal.trans h.terminal
  placed := h'.placed ∘ h.placed

/-- A step, then what comes after it. -/
theorem bind_apply {α β : Type} (m : Build α) (f : α → Build β) (b : ResponsesEventBuilder) :
    (m >>= f) b = f (m b).1 (m b).2 := rfl

/-- The builder is read. -/
theorem getBuilder_bind {α : Type} (f : ResponsesEventBuilder → Build α) (b : ResponsesEventBuilder) :
    (getBuilder >>= f) b = f b b := rfl

/-- The record is read. -/
theorem getRecord_bind {α : Type} (f : ResponseRecord → Build α) (b : ResponsesEventBuilder) :
    (getRecord >>= f) b = f b.record b := rfl

/-- The item of a call leaves the text alone. -/
theorem mcpCallItem_sameText (source : Members) (completed : Bool) (b : ResponsesEventBuilder) :
    SameText b (mcpCallItem source completed b).2 := by
  have hmeta : ∀ callId server tool, SameText b
      { b with record := (mcpMeta b.record source callId server tool).1 } := by
    intro callId server tool
    simp only [mcpMeta]
    split
    · exact SameText.refl b
    · exact ⟨rfl, rfl, rfl, rfl, fun h => ⟨h.index_lt, h.message_at, h.started⟩⟩
  exact hmeta _ _ _

/-- An item that is added leaves the text alone. -/
theorem addOutputItem_sameText (call : McpCallItem) (b : ResponsesEventBuilder) :
    SameText b (ResponsesEventBuilder.addOutputItem (.mcpCall call) b).2 := by
  have hplaced := fun h : b.record.Placed => h.addMcpCall call
  have hrecord : (ResponsesEventBuilder.addOutputItem (.mcpCall call) b).2 =
      { b with record := (b.record.addOutputItem (.mcpCall call)).1 } := rfl
  rw [hrecord]
  cases hi : b.record.outputIndex (OutputItem.mcpCall call).id with
  | some i =>
    rw [ResponseRecord.addOutputItem_of_some hi] at hplaced ⊢
    exact ⟨rfl, rfl, rfl, rfl, hplaced⟩
  | none =>
    rw [ResponseRecord.addOutputItem_of_none hi] at hplaced ⊢
    exact ⟨rfl, rfl, rfl, rfl, hplaced⟩

/-- A method that leaves the text alone and emits none of it. -/
def Quiet (m : Build (List Event)) : Prop := ∀ b, SameText b (m b).2 ∧ Silent (m b).1

/-- Doing nothing is quiet. -/
theorem Quiet.pure_nil : Quiet (pure []) := fun b => ⟨SameText.refl b, Silent.nil⟩

/-- Two quiet steps are quiet. -/
theorem Quiet.append {m n : Build (List Event)} (hm : Quiet m) (hn : Quiet n) :
    Quiet (do let es ← m; return es ++ (← n)) := fun b =>
  ⟨(hm b).1.trans (hn _).1, (hm b).2.append (hn _).2⟩

/-- A choice between quiet steps is quiet. -/
theorem Quiet.ite {p : Prop} [Decidable p] {m n : Build (List Event)} (hm : Quiet m)
    (hn : Quiet n) : Quiet (if p then m else n) := by
  split
  · exact hm
  · exact hn

/-- The start of a call is quiet. -/
theorem startMcpCall_quiet (source : Members) : Quiet (startMcpCall source) := by
  intro b
  unfold startMcpCall
  cases string? (source.get "id") with
  | none => exact Quiet.pure_nil b
  | some callId =>
    simp only [getRecord_bind]
    by_cases hknown : (b.record.outputIndex callId).isSome = true
    · rw [if_pos hknown]
      exact Quiet.pure_nil b
    · rw [if_neg hknown]
      have hitem := mcpCallItem_sameText source false b
      have hadd := addOutputItem_sameText (mcpCallItem source false b).1 (mcpCallItem source false b).2
      exact ⟨(hitem.trans hadd).trans ⟨rfl, rfl, rfl, rfl, id⟩, rfl, rfl, rfl⟩

/-- The end of a call is quiet. -/
theorem endMcpCall_quiet (source : Members) (callId : String) :
    Quiet (endMcpCall source callId) := by
  intro b
  have hitem := mcpCallItem_sameText source true b
  have hadd := addOutputItem_sameText (mcpCallItem source true b).1 (mcpCallItem source true b).2
  refine ⟨(hitem.trans hadd).trans ⟨rfl, rfl, rfl, rfl, id⟩, ?_⟩
  unfold endMcpCall
  simp only [bind_apply]
  by_cases hfailed : (mcpCallItem source true b).1.status = .failed
  · rw [if_pos hfailed]
    exact ⟨rfl, rfl, rfl⟩
  · rw [if_neg hfailed]
    exact ⟨rfl, rfl, rfl⟩

/-- A call that is completed is quiet. -/
theorem completeMcpCall_quiet (source : Members) : Quiet (completeMcpCall source) := by
  intro b
  unfold completeMcpCall
  cases string? (source.get "id") with
  | none => exact Quiet.pure_nil b
  | some callId =>
    simp only [getBuilder_bind]
    by_cases hdone : callId.val ∈ b.completedMcpCalls
    · rw [if_pos hdone]
      exact Quiet.pure_nil b
    · rw [if_neg hdone]
      have hend := endMcpCall_quiet source callId
      by_cases hknown : (b.record.outputIndex callId).isNone = true
      · simp only [getRecord_bind, if_pos hknown]
        exact (startMcpCall_quiet source).append hend b
      · simp only [getRecord_bind, if_neg hknown]
        exact Quiet.pure_nil.append hend b

/-- The calls of a turn are quiet. -/
theorem completeMcpCalls_quiet (items : List Json) : Quiet (completeMcpCalls items) := by
  induction items with
  | nil => exact Quiet.pure_nil
  | cons item items ih =>
    rw [completeMcpCalls]
    cases (dict? item).filter fun ms => hasType ms "mcpToolCall" with
    | none => exact Quiet.pure_nil.append ih
    | some call => exact (completeMcpCall_quiet call).append ih

/-! ## Steps of the message -/

/-- The message has started and its kept text is `text`; it is as finished as it was. -/
structure Kept (b : ResponsesEventBuilder) (text : String) (b' : ResponsesEventBuilder) : Prop where
  text : b'.record.outputText = text
  started : b'.record.messageStarted = true
  completed : b'.record.messageCompleted = b.record.messageCompleted
  terminal : b'.terminal = b.terminal
  placed : b'.record.Placed

/-- The start of a message keeps the text and says nothing. -/
theorem startMessage_spec {b : ResponsesEventBuilder} (h : b.record.Placed) (itemId : Option String) :
    Kept b b.record.outputText (startMessage itemId b).2 ∧ Silent (startMessage itemId b).1 := by
  unfold startMessage
  rw [getRecord_bind]
  cases hs : b.record.messageStarted with
  | true =>
    rw [if_pos rfl]
    exact ⟨⟨rfl, hs, rfl, rfl, h⟩, Silent.nil⟩
  | false =>
    obtain ⟨hplaced, hstarted, htext, hcompleted⟩ := ResponseRecord.ensureMessage_spec h hs itemId
    rw [if_neg (by simp)]
    exact ⟨⟨htext, hstarted, hcompleted, rfl, hplaced⟩, rfl, rfl, rfl⟩

/-- A text that is set is kept. -/
theorem setOutputText_spec {b c : ResponsesEventBuilder} {old : String} (h : Kept b old c)
    (text : String) : Kept b text (setOutputText text c).2 := by
  let record : ResponseRecord := { c.record with outputText := text }
  have hplaced : record.Placed := ⟨h.placed.index_lt, h.placed.message_at, h.placed.started⟩
  exact
    { text := record.syncMessageItem_outputText
      started := record.syncMessageItem_messageStarted.trans h.started
      completed := record.syncMessageItem_messageCompleted.trans h.completed
      terminal := h.terminal
      placed := hplaced.sync.1 }

/-- A delta says itself and leaves the text alone. -/
theorem textDelta_spec {b c : ResponsesEventBuilder} {text : String} (h : Kept b text c)
    (delta : String) : Kept b text (textDelta delta c).2 ∧
      (textDelta delta c).1.body.delta = delta ∧ doneTexts [(textDelta delta c).1] = [] ∧
        responseTexts [(textDelta delta c).1] = [] :=
  ⟨⟨h.text, h.started, h.completed, h.terminal, h.placed⟩, rfl, rfl, rfl⟩

/-- What a method of the message does: the kept text, and the text shown on the way. -/
structure Spoken (b : ResponsesEventBuilder) (kept shown : String)
    (r : List Event × ResponsesEventBuilder) : Prop where
  kept : Kept b kept r.2
  shown : shownText r.1 = shown
  done : doneTexts r.1 = []
  response : responseTexts r.1 = []

/-- A silence, then a delta with its text: the delta is spoken. -/
theorem spoken_delta {b c : ResponsesEventBuilder} {es : List Event} {old : String}
    (hs : Silent es) (h : Kept b old c) (text delta : String) :
    Spoken b text delta (es ++ [(textDelta delta (setOutputText text c).2).1],
      (textDelta delta (setOutputText text c).2).2) := by
  obtain ⟨hkept, hdelta, hdone, hresponse⟩ := textDelta_spec (setOutputText_spec h text) delta
  exact
    { kept := hkept
      shown := by simp [hs.shown, shownText, hdelta]
      done := by rw [doneTexts_append, hs.done, hdone]; rfl
      response := by rw [responseTexts_append, hs.response, hresponse]; rfl }

/-- What is appended is spoken. -/
theorem appendText_spec {b : ResponsesEventBuilder} (h : b.record.Placed) (delta : String)
    (itemId : Option String) :
    Spoken b (b.record.outputText ++ delta) delta (appendText delta itemId b) := by
  obtain ⟨hkept, hsilent⟩ := startMessage_spec h itemId
  have := spoken_delta hsilent hkept (b.record.outputText ++ delta) delta
  rw [← hkept.text] at this ⊢
  exact this

/-- The kept text after a completion. -/
def keptAfter (kept text : String) : String := if text = "" then kept else text

/-- The text a completion shows: what it adds to the kept text, if it extends it. -/
def shownBy (kept text : String) : String :=
  if kept.toList <+: text.toList then String.ofList (text.toList.drop kept.length) else ""

/-- A text that is there is not shown again. -/
theorem shownBy_self (kept : String) : shownBy kept kept = "" := by
  rw [shownBy, if_pos (List.prefix_refl _), ← String.length_toList, List.drop_length]

/-- What is kept with what is shown is the text, where that goes on from what is kept. -/
theorem append_shownBy {kept text : String} (h : kept.toList <+: text.toList) :
    kept ++ shownBy kept text = text := by
  obtain ⟨t, ht⟩ := h
  have hdrop : text.toList.drop kept.length = t := by
    rw [← ht, ← String.length_toList, List.drop_left]
  rw [shownBy, if_pos ⟨t, ht⟩, hdrop]
  exact String.toList_inj.mp (by simpa using ht)

/-- No text shows nothing. -/
theorem shownBy_empty (kept : String) : shownBy kept "" = "" := by
  rw [shownBy]
  split
  · simp
  · rfl

/-- **A completed message** is kept, and as much of it is shown as goes on from the deltas. -/
theorem syncCompletedMessage_spec {b : ResponsesEventBuilder} (h : b.record.Placed) (text : String)
    (itemId : Option String) :
    Spoken b (keptAfter b.record.outputText text) (shownBy b.record.outputText text)
      (syncCompletedMessage text itemId b) := by
  obtain ⟨hkept, hsilent⟩ := startMessage_spec h itemId
  simp only [syncCompletedMessage]
  rw [bind_apply, getRecord_bind, hkept.text]
  by_cases hsame : text = "" ∨ text = b.record.outputText
  · rw [if_pos hsame]
    have hold : keptAfter b.record.outputText text = b.record.outputText ∧
        shownBy b.record.outputText text = "" := by
      rcases hsame with rfl | rfl
      · exact ⟨if_pos rfl, shownBy_empty _⟩
      · exact ⟨ite_self _, shownBy_self _⟩
    rw [hold.1, hold.2]
    exact ⟨hkept, hsilent.shown, hsilent.done, hsilent.response⟩
  rw [if_neg hsame]
  rw [not_or] at hsame
  rw [keptAfter, if_neg hsame.1]
  by_cases hext : b.record.outputText.toList <+: text.toList
  · -- The missing end of the text is shown, and is not empty.
    have hmissing : shownBy b.record.outputText text =
        String.ofList (text.toList.drop b.record.outputText.length) := if_pos hext
    have hext' := append_shownBy hext
    have hne : shownBy b.record.outputText text ≠ "" := fun he => by
      rw [he, String.append_empty] at hext'
      exact hsame.2 hext'.symm
    rw [if_pos hext, ← hmissing, if_neg hne, hext']
    exact spoken_delta hsilent hkept text (shownBy b.record.outputText text)
  · rw [if_neg hext, shownBy, if_neg hext]
    exact ⟨setOutputText_spec hkept text, hsilent.shown, hsilent.done, hsilent.response⟩

/-! ## The end of the message -/

/-- A builder before its terminal event. -/
structure Ready (b : ResponsesEventBuilder) : Prop where
  placed : b.record.Placed
  completed : b.record.messageCompleted = false
  terminal : b.terminal = false
  unstarted : b.record.messageStarted = false → b.record.outputText = ""

/-- The builder and the events of a method that ends the Response: every final text is the kept one,
and there is one if the message has started. -/
structure Ended (kept shown : String) (r : List Event × ResponsesEventBuilder) : Prop where
  text : r.2.record.outputText = kept
  shown : shownText r.1 = shown
  terminal : r.2.terminal = true
  texts : ∀ t ∈ doneTexts r.1 ++ responseTexts r.1, t = kept
  present : kept ≠ "" → doneTexts r.1 ≠ [] ∧ responseTexts r.1 ≠ []

/-- The end of a message says its text as it is kept. -/
theorem finishMessage_spec {b : ResponsesEventBuilder} (h : Ready b) :
    (finishMessage b).2.record.Placed ∧
      (finishMessage b).2.record.outputText = b.record.outputText ∧
      (finishMessage b).2.record.messageStarted = b.record.messageStarted ∧
      shownText (finishMessage b).1 = "" ∧ responseTexts (finishMessage b).1 = [] ∧
      doneTexts (finishMessage b).1 = if b.record.messageStarted then [b.record.outputText] else [] := by
  unfold finishMessage
  rw [getRecord_bind, h.completed]
  by_cases hs : b.record.messageStarted = true
  · let record : ResponseRecord := { b.record with messageCompleted := true }
    have hplaced : record.Placed := ⟨h.placed.index_lt, h.placed.message_at, h.placed.started⟩
    have htext : record.syncMessageItem.outputText = b.record.outputText :=
      record.syncMessageItem_outputText
    rw [if_neg (by simp [hs]), if_pos hs]
    refine ⟨hplaced.sync.1, htext, record.syncMessageItem_messageStarted, rfl, rfl, ?_⟩
    rw [← htext]
    rfl
  · rw [if_pos (by simp [hs]), if_neg hs]
    exact ⟨h.placed, rfl, rfl, rfl, rfl, rfl⟩

/-- A terminal event carries the response with the kept text. -/
theorem terminate_spec {b : ResponsesEventBuilder} {update : ResponseRecord → ResponseRecord}
    {body : Response → EventBody} (hbody : ∀ r, (body r).terminal? = some r)
    (hplaced : (update b.record).Placed)
    (htext : (update b.record).outputText = b.record.outputText)
    (hstarted : (update b.record).messageStarted = b.record.messageStarted) :
    (terminate update body b).2.terminal = true ∧
      (terminate update body b).2.record.outputText = b.record.outputText ∧
      (∀ t ∈ (terminate update body b).1.body.responseTexts, t = b.record.outputText) ∧
      (b.record.messageStarted = true → (terminate update body b).1.body.responseTexts ≠ []) := by
  obtain ⟨-, honly, hmem⟩ := hplaced.sync
  have hevent : (terminate update body b).1.body = body (update b.record).syncMessageItem.response :=
    rfl
  have hresponse : (terminate update body b).1.body.responseTexts =
      (update b.record).syncMessageItem.outputItems.filterMap OutputItem.messageText? := by
    rw [hevent, EventBody.responseTexts, hbody]
    rfl
  refine ⟨rfl, (update b.record).syncMessageItem_outputText.trans htext, fun t ht => ?_,
    fun hs => ?_⟩
  · rw [hresponse] at ht
    obtain ⟨item, hitem, hitemText⟩ := List.mem_filterMap.mp ht
    rw [honly item hitem (by simp [hitemText])] at hitemText
    exact (Option.some.inj hitemText).symm.trans htext
  · rw [hresponse]
    exact List.ne_nil_of_mem (List.mem_filterMap.mpr ⟨_, hmem (hstarted.trans hs), rfl⟩)

/-- What changes a record without touching its message. -/
structure KeepsMessage (update : ResponseRecord → ResponseRecord) : Prop where
  placed : ∀ record, record.Placed → (update record).Placed
  text : ∀ record, (update record).outputText = record.outputText
  started : ∀ record, (update record).messageStarted = record.messageStarted

/-- What changes nothing of the output. -/
def KeepsOutput (update : ResponseRecord → ResponseRecord) : Prop :=
  ∀ record, ∃ status error details usage, update record = { record with
    status := status, error := error, incompleteDetails := details, usage := usage }

/-- What keeps the output keeps the message. -/
theorem KeepsOutput.keepsMessage {update : ResponseRecord → ResponseRecord}
    (h : KeepsOutput update) : KeepsMessage update where
  placed := fun record hp => by
    obtain ⟨status, error, details, usage, heq⟩ := h record
    rw [heq]
    exact ⟨hp.index_lt, hp.message_at, hp.started⟩
  text := fun record => by
    obtain ⟨status, error, details, usage, heq⟩ := h record
    rw [heq]
  started := fun record => by
    obtain ⟨status, error, details, usage, heq⟩ := h record
    rw [heq]

/-- Finishing the message and emitting the terminal event, after events `es` that show `shown`. -/
theorem ended_finish {b : ResponsesEventBuilder} (h : Ready b) (es : List Event) {shown : String}
    (hshown : shownText es = shown) (hdone : doneTexts es = []) (hresponse : responseTexts es = [])
    {before update : ResponseRecord → ResponseRecord} {body : Response → EventBody}
    (hbefore : KeepsMessage before) (hupdate : KeepsMessage update)
    (hbody : ∀ r, (body r).terminal? = some r) :
    Ended b.record.outputText shown
      ((do
        let finished ← finishMessage
        setRecord (before (← getRecord))
        let ended ← terminate update body
        return es ++ finished ++ [ended]) b) := by
  obtain ⟨hplaced, htext, hstarted, hf1, hf2, hf3⟩ := finishMessage_spec h
  let c : ResponsesEventBuilder :=
    { (finishMessage b).2 with record := before (finishMessage b).2.record }
  obtain ⟨hterm, hctext, hcresponse, hcpresent⟩ := terminate_spec (b := c) hbody
    (hupdate.placed _ (hbefore.placed _ hplaced)) (hupdate.text _) (hupdate.started _)
  have hkept : c.record.outputText = b.record.outputText := (hbefore.text _).trans htext
  have hcstarted : c.record.messageStarted = b.record.messageStarted :=
    (hbefore.started _).trans hstarted
  have hbodyTerm : ∀ r, (body r).delta = "" ∧ (body r).doneText? = none := fun r => by
    have := hbody r
    cases hr : body r <;> simp_all [EventBody.terminal?, EventBody.delta, EventBody.doneText?]
  have hended : (terminate update body c).1.body.delta = "" ∧
      (terminate update body c).1.body.doneText? = none := hbodyTerm _
  have hended' : responseTexts [(terminate update body c).1] =
      (terminate update body c).1.body.responseTexts := List.flatMap_singleton ..
  have hdone' : doneTexts [(terminate update body c).1] = [] := by simp [doneTexts, hended.2]
  refine
    { text := hctext.trans hkept
      shown := ?_
      terminal := hterm
      texts := fun t ht => ?_
      present := fun hne => ?_ }
  · show shownText (es ++ (finishMessage b).1 ++ [(terminate update body c).1]) = shown
    simp [hshown, hf1, shownText, hended.1]
  · change t ∈ doneTexts (es ++ (finishMessage b).1 ++ [(terminate update body c).1]) ++
      responseTexts (es ++ (finishMessage b).1 ++ [(terminate update body c).1]) at ht
    simp only [doneTexts_append, responseTexts_append, hdone, hresponse, hf2, hf3, hdone', hended',
      List.nil_append, List.append_nil, List.mem_append] at ht
    rcases ht with ht | ht
    · split at ht
      · simpa using ht
      · simp at ht
    · exact (hcresponse t ht).trans hkept
  · have hs : b.record.messageStarted = true := by
      by_contra hs
      exact hne (h.unstarted (by simpa using hs))
    change doneTexts (es ++ (finishMessage b).1 ++ [(terminate update body c).1]) ≠ [] ∧
      responseTexts (es ++ (finishMessage b).1 ++ [(terminate update body c).1]) ≠ []
    rw [doneTexts_append, doneTexts_append, responseTexts_append, hf3, if_pos hs, hended']
    exact ⟨by simp, List.append_ne_nil_of_right_ne_nil _ (hcpresent (hcstarted.trans hs))⟩

/-- A failure says the text that is kept. -/
theorem fail_spec {b : ResponsesEventBuilder} (h : Ready b) (message : String) :
    Ended b.record.outputText "" (fail message b) := by
  unfold fail
  rw [getBuilder_bind, if_neg (by simp [h.terminal])]
  have hbefore : KeepsMessage id := ⟨fun _ h => h, fun _ => rfl, fun _ => rfl⟩
  have hupdate : KeepsOutput fun r =>
      { r with status := .failed, error := some ⟨"codex_execution_failed", message⟩ } :=
    fun r => ⟨_, _, r.incompleteDetails, r.usage, rfl⟩
  have hbody : ∀ r, (EventBody.responseFailed r).terminal? = some r := fun _ => rfl
  exact ended_finish h [] rfl rfl rfl hbefore hupdate.keepsMessage hbody

/-- However a turn ends, its terminal event is one of the three. -/
theorem endTurn_eq (turn : Members) : ∃ update body, endTurn turn = terminate update body ∧
    KeepsOutput update ∧ ∀ r, (body r).terminal? = some r := by
  simp only [endTurn]
  split_ifs
  · exact ⟨_, _, rfl, fun r => ⟨_, r.error, r.incompleteDetails, r.usage, rfl⟩, fun _ => rfl⟩
  · exact ⟨_, _, rfl, fun r => ⟨_, r.error, _, r.usage, rfl⟩, fun _ => rfl⟩
  · exact ⟨_, _, rfl, fun r => ⟨_, _, r.incompleteDetails, r.usage, rfl⟩, fun _ => rfl⟩

/-- A step that leaves the text alone leaves the builder ready. -/
theorem Ready.sameText {b c : ResponsesEventBuilder} (h : Ready b) (hbc : SameText b c) : Ready c where
  placed := hbc.placed h.placed
  completed := hbc.completed.trans h.completed
  terminal := hbc.terminal.trans h.terminal
  unstarted := fun hs => hbc.text.trans (h.unstarted (hbc.started.symm.trans hs))

/-- A step that keeps the message in its place leaves the builder ready. -/
theorem Ready.kept {b c : ResponsesEventBuilder} {text : String} (h : Ready b) (hbc : Kept b text c) :
    Ready c where
  placed := hbc.placed
  completed := hbc.completed.trans h.completed
  terminal := hbc.terminal.trans h.terminal
  unstarted := fun hs => by simp [hbc.started] at hs

/-- The final text of a turn is kept as a completed message is. -/
theorem syncFinalText_spec {b : ResponsesEventBuilder} (h : Ready b) (turn : Members) :
    Ready (syncFinalText turn b).2 ∧
      (syncFinalText turn b).2.record.outputText =
        keptAfter b.record.outputText (lastAgentMessage turn).1 ∧
      shownText (syncFinalText turn b).1 = shownBy b.record.outputText (lastAgentMessage turn).1 ∧
      doneTexts (syncFinalText turn b).1 = [] ∧ responseTexts (syncFinalText turn b).1 = [] := by
  simp only [syncFinalText]
  by_cases hempty : (lastAgentMessage turn).1 = ""
  · rw [if_pos hempty, hempty, keptAfter, if_pos rfl, shownBy_empty]
    exact ⟨h, rfl, rfl, rfl, rfl⟩
  · rw [if_neg hempty]
    have hsync := syncCompletedMessage_spec h.placed (lastAgentMessage turn).1 (lastAgentMessage turn).2
    exact ⟨h.kept hsync.kept, hsync.kept.text, hsync.shown, hsync.done, hsync.response⟩

/-- The end of a turn says the final text. -/
theorem completeTurn_spec {b : ResponsesEventBuilder} (h : Ready b) (turn : Members) :
    Ended (keptAfter b.record.outputText (lastAgentMessage turn).1)
      (shownBy b.record.outputText (lastAgentMessage turn).1) (completeTurn turn b) := by
  obtain ⟨hsame, hsilent⟩ := completeMcpCalls_quiet ((list? (turn.get "items")).getD []) b
  obtain ⟨hready, htext, hshown, hdone, hresponse⟩ := syncFinalText_spec (h.sameText hsame) turn
  obtain ⟨update, body, hend, hupdate, hbody⟩ := endTurn_eq turn
  have husage : KeepsOutput fun r => { r with usage := usageFromTurn turn } :=
    fun r => ⟨r.status, r.error, r.incompleteDetails, _, rfl⟩
  rw [hsame.text] at htext hshown
  unfold completeTurn
  rw [getBuilder_bind, if_neg (by simp [h.terminal]), hend, bind_apply, bind_apply, ← htext]
  exact ended_finish hready _ (by rw [shownText_append, hsilent.shown, hshown, String.empty_append])
    (by rw [doneTexts_append, hsilent.done, hdone]; rfl)
    (by rw [responseTexts_append, hsilent.response, hresponse]; rfl) husage.keepsMessage
    hupdate.keepsMessage hbody

/-! ## One notification -/

/-- The text a notification brings. -/
inductive TextEffect where
  | none
  | delta (text : String)
  | completion (text : String)

/-- A delta, the text of a completed `agentMessage`, or the last one of a completed turn. -/
def textEffect (notification : Members) : TextEffect :=
  match str? (notification.get "method"), dict? (notification.get "params") with
  | some method, some params =>
    if method = "item/agentMessage/delta" then
      match string? (params.get "delta") with
      | some delta => .delta delta
      | none => .none
    else if method = "item/completed" then
      match (dict? (params.get "item")).filter fun ms => hasType ms "agentMessage" with
      | some item => .completion (agentMessage item).1
      | none => .none
    else if method = "turn/completed" then
      .completion (lastAgentMessage ((dict? (params.get "turn")).getD [])).1
    else .none
  | _, _ => .none

/-- The text that the record keeps. -/
def TextEffect.kept (old : String) : TextEffect → String
  | .none => old
  | .delta text => old ++ text
  | .completion text => keptAfter old text

/-- The text that is shown. -/
def TextEffect.shown (old : String) : TextEffect → String
  | .none => ""
  | .delta text => text
  | .completion text => shownBy old text

/-- The builder and the events of a method that does not end the Response. -/
structure Ongoing (kept shown : String) (r : List Event × ResponsesEventBuilder) : Prop where
  ready : Ready r.2
  text : r.2.record.outputText = kept
  shown : shownText r.1 = shown
  done : doneTexts r.1 = []
  response : responseTexts r.1 = []

/-- A quiet step shows nothing. -/
theorem Quiet.ongoing {m : Build (List Event)} (hm : Quiet m) {b : ResponsesEventBuilder}
    (h : Ready b) : Ongoing b.record.outputText "" (m b) :=
  ⟨h.sameText (hm b).1, (hm b).1.text, (hm b).2.shown, (hm b).2.done, (hm b).2.response⟩

/-- A step that has spoken goes on. -/
theorem Spoken.ongoing {b : ResponsesEventBuilder} {kept shown : String}
    {r : List Event × ResponsesEventBuilder} (h : Ready b) (hr : Spoken b kept shown r) :
    Ongoing kept shown r :=
  ⟨h.kept hr.kept, hr.kept.text, hr.shown, hr.done, hr.response⟩

/-- Doing nothing goes on. -/
theorem ongoing_nil {b : ResponsesEventBuilder} (h : Ready b) :
    Ongoing b.record.outputText "" ((pure [] : Build (List Event)) b) := Quiet.pure_nil.ongoing h

/-- **What one notification does to the two texts.** -/
theorem consume_spec {b : ResponsesEventBuilder} (h : Ready b) (notification : Members) :
    Ongoing ((textEffect notification).kept b.record.outputText)
        ((textEffect notification).shown b.record.outputText) (consume notification b) ∨
      Ended ((textEffect notification).kept b.record.outputText)
        ((textEffect notification).shown b.record.outputText) (consume notification b) := by
  unfold consume textEffect
  cases str? (notification.get "method") with
  | none => exact .inl (ongoing_nil h)
  | some method =>
  cases dict? (notification.get "params") with
  | none => exact .inl (ongoing_nil h)
  | some params =>
  simp only
  by_cases h1 : method = "item/started"
  · subst h1
    rw [if_pos rfl, if_neg (by decide), if_neg (by decide), if_neg (by decide)]
    unfold consumeItemStarted
    cases (dict? (params.get "item")).filter fun ms => hasType ms "mcpToolCall" with
    | none => exact .inl (ongoing_nil h)
    | some item => exact .inl ((startMcpCall_quiet item).ongoing h)
  rw [if_neg h1]
  by_cases h2 : method = "item/agentMessage/delta"
  · rw [if_pos h2, if_pos h2]
    unfold consumeDelta
    cases string? (params.get "delta") with
    | none => exact .inl (ongoing_nil h)
    | some delta => exact .inl ((appendText_spec h.placed delta _).ongoing h)
  rw [if_neg h2, if_neg h2]
  by_cases h3 : method = "item/completed"
  · rw [if_pos h3, if_pos h3]
    unfold consumeItemCompleted
    cases dict? (params.get "item") with
    | none => exact .inl (ongoing_nil h)
    | some item =>
      simp only [Option.filter_some]
      by_cases hmessage : hasType item "agentMessage" = true
      · rw [if_pos hmessage, if_pos hmessage]
        exact .inl ((syncCompletedMessage_spec h.placed _ _).ongoing h)
      · rw [if_neg hmessage, if_neg hmessage]
        exact .inl (((completeMcpCall_quiet item).ite Quiet.pure_nil).ongoing h)
  rw [if_neg h3, if_neg h3]
  by_cases h4 : method = "turn/completed"
  · rw [if_pos h4, if_pos h4]
    exact .inr (completeTurn_spec h _)
  rw [if_neg h4, if_neg h4]
  by_cases h5 : method = "error" ∨ method = "turn/error"
  · rw [if_pos h5]
    unfold consumeError
    by_cases hretry : isTrue (params.get "willRetry") = true
    · rw [if_pos hretry]
      exact .inl (ongoing_nil h)
    · rw [if_neg hretry]
      exact .inr (fail_spec h _)
  · rw [if_neg h5]
    exact .inl (ongoing_nil h)

/-! ## A run -/

/-- A builder that is fed notifications, the events it has emitted, and the last completion that
replaced the kept text, with the text shown before it. -/
structure Progress where
  builder : ResponsesEventBuilder
  events : List Event
  replaced : Option (String × String)

/-- The text of a completion that does not extend the kept text. -/
def replacement? (kept : String) : TextEffect → Option String
  | .completion text => if text ≠ "" ∧ ¬ kept.toList <+: text.toList then some text else none
  | _ => none

/-- One notification; the driver feeds none after the terminal event. -/
def Progress.feed (p : Progress) (notification : Members) : Progress :=
  if p.builder.terminal then p
  else
    { builder := (consume notification p.builder).2
      events := p.events ++ (consume notification p.builder).1
      replaced := ((replacement? p.builder.record.outputText (textEffect notification)).map
        fun text => (text, shownText p.events)).or p.replaced }

/-- A fresh builder fed a sequence of notifications. -/
def run (record : ResponseRecord) (notifications : List Members) : Progress :=
  notifications.foldl Progress.feed ⟨.init record, [], none⟩

/-- **The texts a client can see agree**: the deltas, the `done` event, the terminal response and
the record. -/
structure TextAgrees (p : Progress) : Prop where
  record : p.builder.record.outputText = shownText p.events
  done : ∀ t ∈ doneTexts p.events, t = shownText p.events
  response : ∀ t ∈ responseTexts p.events, t = shownText p.events
  present : shownText p.events ≠ "" → doneTexts p.events ≠ [] ∧ responseTexts p.events ≠ []

/-- What every run keeps: the two texts share all that came after the last replacement. -/
structure Traced (p : Progress) : Prop where
  texts : match p.replaced with
    | none => p.builder.record.outputText = shownText p.events
    | some (text, shown) => ∃ s, p.builder.record.outputText = text ++ s ∧
        shownText p.events = shown ++ s
  ongoing : p.builder.terminal = false →
    Ready p.builder ∧ doneTexts p.events = [] ∧ responseTexts p.events = []
  ended : p.builder.terminal = true →
    (∀ t ∈ doneTexts p.events ++ responseTexts p.events, t = p.builder.record.outputText) ∧
      (p.builder.record.outputText ≠ "" → doneTexts p.events ≠ [] ∧ responseTexts p.events ≠ [])

/-- A notification that replaces nothing adds the same text on both sides. -/
theorem kept_eq_append_shown {kept : String} {effect : TextEffect}
    (h : replacement? kept effect = none) : effect.kept kept = kept ++ effect.shown kept := by
  cases effect with
  | none => simp [TextEffect.kept, TextEffect.shown]
  | delta text => rfl
  | completion text =>
    simp only [replacement?] at h
    by_cases hempty : text = ""
    · simp [TextEffect.kept, TextEffect.shown, keptAfter, hempty, shownBy_empty]
    · by_cases hext : kept.toList <+: text.toList
      · rw [TextEffect.kept, TextEffect.shown, keptAfter, if_neg hempty, append_shownBy hext]
      · rw [if_pos ⟨hempty, hext⟩] at h
        simp at h

/-- A notification that replaces the text shows nothing. -/
theorem kept_of_replacement {kept text : String} {effect : TextEffect}
    (h : replacement? kept effect = some text) :
    effect.kept kept = text ∧ effect.shown kept = "" := by
  cases effect with
  | none => simp [replacement?] at h
  | delta text => simp [replacement?] at h
  | completion t =>
    simp only [replacement?] at h
    split at h
    · rename_i hrep
      obtain rfl := Option.some.inj h
      exact ⟨if_neg hrep.1, if_neg hrep.2⟩
    · simp at h

/-- **One notification** keeps the trace of the texts. -/
theorem traced_feed {p : Progress} (h : Traced p) (notification : Members) :
    Traced (p.feed notification) := by
  rw [Progress.feed]
  cases hterm : p.builder.terminal with
  | true => simpa using h
  | false =>
    obtain ⟨hready, hdone, hresponse⟩ := h.ongoing hterm
    have hspec := consume_spec hready notification
    generalize consume notification p.builder = r at hspec ⊢
    generalize textEffect notification = effect at hspec ⊢
    have htext : r.2.record.outputText = effect.kept p.builder.record.outputText :=
      hspec.elim Ongoing.text Ended.text
    have hshown : shownText r.1 = effect.shown p.builder.record.outputText :=
      hspec.elim Ongoing.shown Ended.shown
    rw [if_neg (by simp)]
    refine ⟨?_, fun hr => ?_, fun hr => ?_⟩
    · simp only [shownText_append, hshown, htext]
      cases hrep : replacement? p.builder.record.outputText effect with
      | some text =>
        obtain ⟨hkept, hnone⟩ := kept_of_replacement hrep
        exact ⟨"", by simp [hkept], by simp [hnone]⟩
      | none =>
        have happend := kept_eq_append_shown hrep
        have htexts := h.texts
        simp only [Option.map_none, Option.none_or]
        cases hreplaced : p.replaced with
        | none =>
          rw [hreplaced] at htexts
          simp only at htexts ⊢
          rw [happend, htexts]
        | some q =>
          rw [hreplaced] at htexts
          obtain ⟨s, hs, hs'⟩ := htexts
          refine ⟨s ++ effect.shown p.builder.record.outputText, ?_, ?_⟩
          · rw [happend, ← String.append_assoc, ← hs]
          · rw [hs', String.append_assoc]
    · rcases hspec with hspec | hspec
      · exact ⟨hspec.ready, by simp [hdone, hspec.done], by simp [hresponse, hspec.response]⟩
      · exact absurd hspec.terminal (by simpa using hr)
    · rcases hspec with hspec | hspec
      · exact absurd hspec.ready.terminal (by simpa using hr)
      · simp only [doneTexts_append, responseTexts_append, hdone, hresponse, List.nil_append]
        rw [hspec.text]
        exact ⟨hspec.texts, hspec.present⟩

/-- Every sequence of notifications has its trace. -/
theorem traced_run (fresh : Fresh) (request : CreateResponseRequest) (inputItems : List Members)
    (mcpAppsBaseUrl : String) (notifications : List Members) :
    Traced (run (.create fresh request inputItems mcpAppsBaseUrl) notifications) := by
  have hplaced := ResponseRecord.placed_create fresh request inputItems mcpAppsBaseUrl
  have hinit : Traced ⟨.init (.create fresh request inputItems mcpAppsBaseUrl), [], none⟩ :=
    ⟨rfl, fun _ => ⟨⟨hplaced, rfl, rfl, fun _ => rfl⟩, rfl, rfl⟩, fun h => by simp [init] at h⟩
  rw [run]
  generalize (⟨.init (.create fresh request inputItems mcpAppsBaseUrl), [], none⟩ : Progress) = p
    at hinit
  induction notifications generalizing p with
  | nil => exact hinit
  | cons notification rest ih => exact ih _ (traced_feed hinit notification)

/-- **The texts agree exactly when the last completion that replaced the kept text brought the text
already shown**, or none did. -/
theorem textAgrees_iff (fresh : Fresh) (request : CreateResponseRequest) (inputItems : List Members)
    (mcpAppsBaseUrl : String) (notifications : List Members)
    (hterm : (run (.create fresh request inputItems mcpAppsBaseUrl) notifications).builder.terminal) :
    TextAgrees (run (.create fresh request inputItems mcpAppsBaseUrl) notifications) ↔
      ∀ q ∈ (run (.create fresh request inputItems mcpAppsBaseUrl) notifications).replaced,
        q.1 = q.2 := by
  have htraced := traced_run fresh request inputItems mcpAppsBaseUrl notifications
  generalize run (.create fresh request inputItems mcpAppsBaseUrl) notifications = p at htraced hterm ⊢
  obtain ⟨hfinal, hpresent⟩ := htraced.ended hterm
  have htexts := htraced.texts
  have hrecord : TextAgrees p ↔ p.builder.record.outputText = shownText p.events := by
    refine ⟨TextAgrees.record, fun h => ⟨h, fun t ht => ?_, fun t ht => ?_, h ▸ hpresent⟩⟩
    · exact (hfinal t (List.mem_append_left _ ht)).trans h
    · exact (hfinal t (List.mem_append_right _ ht)).trans h
  rw [hrecord]
  cases hreplaced : p.replaced with
  | none =>
    rw [hreplaced] at htexts
    exact ⟨fun _ q hq => by simp at hq, fun _ => htexts⟩
  | some q =>
    rw [hreplaced] at htexts
    obtain ⟨s, hs, hs'⟩ := htexts
    rw [hs, hs']
    refine ⟨fun h q' hq' => ?_, fun h => by rw [h q rfl]⟩
    obtain rfl := Option.some.inj hq'
    exact String.append_left_inj s |>.mp h

/-- `item/completed` of an `agentMessage`. -/
def messageCompleted (id text : String) : Members :=
  [("method", .str "item/completed"), ("params", .obj [("item", .obj
    [("id", .str id), ("type", .str "agentMessage"), ("text", .str text)])])]

/-- `item/agentMessage/delta` -/
def messageDelta (id text : String) : Members :=
  [("method", .str "item/agentMessage/delta"),
    ("params", .obj [("itemId", .str id), ("delta", .str text)])]

/-- The notification of the end of a turn. -/
def turnCompleted : Members :=
  [("method", .str "turn/completed"), ("params", .obj [("turn", .obj
    [("id", .str "turn_1"), ("status", .str "completed")])])]

/-- The record of a request. -/
def sampleRecord : ResponseRecord :=
  .create ⟨"resp_1", ⟨"msg_1", by decide⟩, 0⟩ ⟨"gpt", none, none, true, none, none, none, none⟩ [] ""

/-- A message whose completion extends its delta. -/
theorem textAgrees_delta_completed : TextAgrees
    (run sampleRecord [messageDelta "m1" "hel", messageCompleted "m1" "hello", turnCompleted]) :=
  (textAgrees_iff _ _ _ _ _ (by decide +kernel)).mpr (by decide +kernel)

/-- Two messages in one turn: the second completion replaces the first text and shows nothing. -/
theorem not_textAgrees_two_messages : ¬ ∀ (fresh : Fresh) (request : CreateResponseRequest)
    (inputItems : List Members) (mcpAppsBaseUrl : String) (notifications : List Members),
    (run (.create fresh request inputItems mcpAppsBaseUrl) notifications).builder.terminal →
      TextAgrees (run (.create fresh request inputItems mcpAppsBaseUrl) notifications) := by
  intro h
  have hagrees := h ⟨"resp_1", ⟨"msg_1", by decide⟩, 0⟩
    ⟨"gpt", none, none, true, none, none, none, none⟩ [] ""
    [messageCompleted "m1" "a", messageCompleted "m2" "b", turnCompleted] (by decide +kernel)
  exact absurd hagrees.record (by decide +kernel)

end CodexGateway.Adapter
