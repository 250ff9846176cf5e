import CodexGateway.Library.ItemStream
import CodexGateway.Adapter.EventText

/-!
# Adapter/OutputItems — the output items of a stream, opened and used

Every event of an item bears its output index, and the index of an item is where it stands in the
output.  The builder keeps of each item whether its last event has been emitted: of the message in
the record, of the MCP calls by their ids.  `Emits` says what a method does to the items before the
Response ends.
-/

namespace CodexGateway.Adapter

open PyJson ResponsesEventBuilder ItemStream

/-! ## The marks of an event -/

/-- What an event does to an output item. -/
def EventBody.mark : EventBody → Mark
  | .outputItemAdded i _ => .opened i
  | .outputItemDone i _ => .closed i
  | .mcpCallArgumentsDone _ i _ | .mcpCallInProgress _ i | .mcpCallCompleted _ i
  | .mcpCallFailed _ i | .contentPartAdded _ i _ _ | .outputTextDelta _ i _ _
  | .outputTextDone _ i _ _ | .contentPartDone _ i _ _ => .used i
  | _ => .none

/-- What the events say of the items. -/
def marks (events : List Event) : List Mark := events.map fun e => e.body.mark

/-- The status of an item. -/
def OutputItem.status : OutputItem → ItemStatus
  | .message _ status _ => status
  | .mcpCall call => call.status

theorem getElem?_concat {α : Type} {xs : List α} {x y : α} {i : ℕ} :
    (xs ++ [x])[i]? = some y ↔ xs[i]? = some y ∨ i = xs.length ∧ x = y := by
  grind

/-! ## The index of an item -/

namespace ResponseRecord

/-- The id under which an item stands at an index. -/
def idAt (record : ResponseRecord) (i : ℕ) : Option String :=
  record.outputItems[i]?.map fun item => item.id.val

/-- The index of an id is where its item stands. -/
def Listed (record : ResponseRecord) : Prop :=
  ∀ id i, record.outputIndex id = some i ↔ record.idAt i = some id

variable {record : ResponseRecord} {item : OutputItem}

theorem Listed.unique (h : record.Listed) {id : String} {i j : ℕ} (hi : record.idAt i = some id)
    (hj : record.idAt j = some id) : i = j :=
  Option.some.inj (((h id i).mpr hi).symm.trans ((h id j).mpr hj))

theorem idAt_set {i j : ℕ} (hi : record.idAt i = some item.id.val) :
    ({ record with outputItems := record.outputItems.set i item }).idAt j = record.idAt j := by
  by_cases hij : i = j
  · subst hij
    obtain ⟨x, hx, -⟩ := Option.map_eq_some_iff.mp hi
    have hlt := (List.getElem?_eq_some_iff.mp hx).1
    rw [hi]
    simp [idAt, hlt]
  · simp [idAt, List.getElem?_set_ne hij]

/-- An item that is there is replaced in its place. -/
theorem Listed.replace (h : record.Listed) {i : ℕ} (hi : record.idAt i = some item.id.val) :
    (record.addOutputItem item).1.outputItems = record.outputItems.set i item ∧
      (record.addOutputItem item).2 = i ∧ (record.addOutputItem item).1.Listed := by
  rw [addOutputItem_of_some ((h item.id i).mpr hi)]
  refine ⟨rfl, rfl, fun id j => ?_⟩
  rw [idAt_set hi]
  exact h id j

theorem idAt_append (indexes : List (String × ℕ)) (j : ℕ) :
    ({ record with
        outputIndexes := indexes
        outputItems := record.outputItems ++ [item] }).idAt j =
      if j = record.outputItems.length then some item.id.val else record.idAt j := by
  simp only [idAt]
  split_ifs with hj
  · simp [hj]
  · rcases Nat.lt_or_gt_of_ne hj with hlt | hgt
    · rw [List.getElem?_append_left hlt]
    · rw [List.getElem?_eq_none (by simp; omega), List.getElem?_eq_none (by omega)]

theorem idAt_length : record.idAt record.outputItems.length = none := by simp [idAt]

/-- An item that is not there comes last. -/
theorem Listed.append (h : record.Listed) (hnew : ∀ i, record.idAt i ≠ some item.id.val) :
    (record.addOutputItem item).1.outputItems = record.outputItems ++ [item] ∧
      (record.addOutputItem item).2 = record.outputItems.length ∧
      (record.addOutputItem item).1.Listed := by
  have hnone : record.outputIndex item.id = none := by
    by_contra hne
    obtain ⟨i, hi⟩ := Option.ne_none_iff_exists'.mp hne
    exact hnew i ((h item.id i).mp hi)
  rw [addOutputItem_of_none hnone]
  refine ⟨rfl, rfl, fun id j => ?_⟩
  have hlookup : List.lookup id (record.outputIndexes ++
      [(item.id.val, record.outputItems.length)]) = (record.outputIndex id).or
        (List.lookup id [(item.id.val, record.outputItems.length)]) := List.lookup_append
  rw [idAt_append, outputIndex, hlookup]
  have hid := h id j
  by_cases hitem : id = item.id.val
  · subst hitem
    have hj := hnew j
    rw [hnone] at hid ⊢
    simp only [List.lookup_cons, beq_self_eq_true, Option.none_or, Option.some.injEq]
    split_ifs with hlast
    · simp [hlast]
    · simp [hj, Ne.symm hlast]
  · have hbeq : (id == item.id.val) = false := by simpa using hitem
    have hlast : record.idAt record.outputItems.length = none := idAt_length
    simp only [List.lookup_cons, List.lookup_nil, hbeq, Option.or_none, hid]
    split_ifs with hj
    · simp [hj, hlast, Ne.symm hitem]
    · rfl

/-- An item stands in the output under this id. -/
def HasItem (record : ResponseRecord) (id : String) : Prop := ∃ i, record.idAt i = some id

theorem hasItem_append {record' : ResponseRecord}
    (hitems : record'.outputItems = record.outputItems ++ [item]) (id : String) :
    record'.HasItem id ↔ record.HasItem id ∨ id = item.id.val := by
  simp only [HasItem, idAt, hitems, Option.map_eq_some_iff, getElem?_concat]
  constructor
  · rintro ⟨j, x, hj | ⟨-, rfl⟩, rfl⟩
    · exact .inl ⟨j, x, hj, rfl⟩
    · exact .inr rfl
  · rintro (⟨j, x, hj, rfl⟩ | rfl)
    · exact ⟨j, x, .inl hj, rfl⟩
    · exact ⟨_, item, .inr ⟨rfl, rfl⟩, rfl⟩

theorem hasItem_set {record' : ResponseRecord} {i : ℕ} (hi : record.idAt i = some item.id.val)
    (hitems : record'.outputItems = record.outputItems.set i item) (id : String) :
    record'.HasItem id ↔ record.HasItem id := by
  have hidAt : ∀ j, record'.idAt j = record.idAt j := fun j => by
    rw [idAt, hitems]
    exact idAt_set hi
  simp only [HasItem, hidAt]

/-- Adding an item leaves the message alone. -/
theorem addOutputItem_message (record : ResponseRecord) (item : OutputItem) :
    (record.addOutputItem item).1.messageId = record.messageId ∧
      (record.addOutputItem item).1.messageOutputIndex = record.messageOutputIndex ∧
      (record.addOutputItem item).1.messageStarted = record.messageStarted ∧
      (record.addOutputItem item).1.messageCompleted = record.messageCompleted ∧
      (record.addOutputItem item).1.outputText = record.outputText := by
  cases hi : record.outputIndex item.id with
  | some i =>
    rw [addOutputItem_of_some hi]
    exact ⟨rfl, rfl, rfl, rfl, rfl⟩
  | none =>
    rw [addOutputItem_of_none hi]
    exact ⟨rfl, rfl, rfl, rfl, rfl⟩

end ResponseRecord

/-! ## The builder and its items -/

namespace ResponsesEventBuilder

/-- The `done` event of the item has been emitted. -/
def isClosed (b : ResponsesEventBuilder) : OutputItem → Bool
  | .message _ _ _ => b.record.messageCompleted
  | .mcpCall call => call.id.val ∈ b.completedMcpCalls

/-- For each item of the output, whether it is done. -/
def ledger (b : ResponsesEventBuilder) : List Bool := b.record.outputItems.map b.isClosed

end ResponsesEventBuilder

section Grammar

variable (isCall : String → Prop)

/-- The message and the calls stand where they should, and a call that is closed has ended. -/
structure InOrder (b : ResponsesEventBuilder) : Prop where
  listed : b.record.Listed
  named : ¬ isCall b.record.messageId
  call : ∀ call, .mcpCall call ∈ b.record.outputItems → isCall call.id ∧
    (call.id.val ∈ b.completedMcpCalls → call.status ≠ .inProgress)
  message : ∀ i item, b.record.outputItems[i]? = some item → item.messageText?.isSome →
    b.record.messageStarted = true ∧ b.record.messageOutputIndex = some i ∧
      item.id = b.record.messageId
  started : b.record.messageStarted = true → ∃ i item, b.record.messageOutputIndex = some i ∧
    b.record.outputItems[i]? = some item ∧ item.messageText?.isSome
  unstarted : b.record.messageStarted = false → b.record.messageCompleted = false
  completed : ∀ id ∈ b.completedMcpCalls, b.record.HasItem id

/-- What a method emits before the terminal event: the calls `S` have their item now, and the calls
`D` are closed. -/
structure Emits (S D : List String) (b : ResponsesEventBuilder)
    (r : List Event × ResponsesEventBuilder) : Prop where
  inOrder : InOrder isCall r.2
  marks : Machine.run mark b.ledger (marks r.1) = some r.2.ledger
  silent : ∀ e ∈ r.1, e.body.terminal? = none
  items : ∀ id, isCall id → (r.2.record.HasItem id ↔ b.record.HasItem id ∨ id ∈ S)
  calls : ∀ id, id ∈ r.2.completedMcpCalls ↔ id ∈ b.completedMcpCalls ∨ id ∈ D
  completed : r.2.record.messageCompleted = b.record.messageCompleted
  terminal : r.2.terminal = b.terminal

variable {isCall} {S D S' D' : List String} {b c : ResponsesEventBuilder}
variable {r r' : List Event × ResponsesEventBuilder}

theorem ledger_length (b : ResponsesEventBuilder) : b.ledger.length = b.record.outputItems.length :=
  List.length_map _

/-- The message and the closed calls are the same. -/
structure SameMessage (b c : ResponsesEventBuilder) : Prop where
  messageId : c.record.messageId = b.record.messageId
  messageOutputIndex : c.record.messageOutputIndex = b.record.messageOutputIndex
  messageStarted : c.record.messageStarted = b.record.messageStarted
  messageCompleted : c.record.messageCompleted = b.record.messageCompleted
  completedMcpCalls : c.completedMcpCalls = b.completedMcpCalls
  terminal : c.terminal = b.terminal

theorem SameMessage.isClosed (h : SameMessage b c) :
    c.isClosed = b.isClosed := by
  funext item
  cases item <;> simp [ResponsesEventBuilder.isClosed, h.messageCompleted, h.completedMcpCalls]

/-- Nothing is emitted for calls that are where they should be. -/
theorem Emits.nothing (h : InOrder isCall b) (hS : ∀ id ∈ S, b.record.HasItem id)
    (hD : ∀ id ∈ D, id ∈ b.completedMcpCalls) : Emits isCall S D b ([], b) where
  inOrder := h
  marks := rfl
  silent := fun _ h => by cases h
  items := fun id _ => ⟨.inl, fun h => h.elim (fun h => h) (hS id)⟩
  calls := fun id => ⟨.inl, fun h => h.elim (fun h => h) (hD id)⟩
  completed := rfl
  terminal := rfl

theorem Emits.nil (h : InOrder isCall b) : Emits isCall [] [] b ([], b) :=
  .nothing h (fun _ h => by cases h) (fun _ h => by cases h)

theorem Emits.congr (h : Emits isCall S D b r) (hS : ∀ id, id ∈ S ↔ id ∈ S')
    (hD : ∀ id, id ∈ D ↔ id ∈ D') : Emits isCall S' D' b r where
  inOrder := h.inOrder
  marks := h.marks
  silent := h.silent
  items := fun id hid => by rw [h.items id hid, hS]
  calls := fun id => by rw [h.calls id, hD]
  completed := h.completed
  terminal := h.terminal

theorem Emits.append (h : Emits isCall S D b r) (h' : Emits isCall S' D' r.2 r') :
    Emits isCall (S ++ S') (D ++ D') b (r.1 ++ r'.1, r'.2) where
  inOrder := h'.inOrder
  marks := by
    rw [Adapter.marks, List.map_append, Machine.run_append]
    exact (congrArg (Option.bind · _) h.marks).trans h'.marks
  silent := fun e he => (List.mem_append.mp he).elim (h.silent e) (h'.silent e)
  items := fun id hid => by rw [h'.items id hid, h.items id hid, List.mem_append, or_assoc]
  calls := fun id => by rw [h'.calls id, h.calls id, List.mem_append, or_assoc]
  completed := h'.completed.trans h.completed
  terminal := h'.terminal.trans h.terminal

/-! ## The MCP calls -/

theorem InOrder.call_at (h : InOrder isCall b) {i : ℕ} {id : String} (hid : isCall id)
    (hi : b.record.idAt i = some id) :
    ∃ call, b.record.outputItems[i]? = some (.mcpCall call) ∧ call.id.val = id := by
  obtain ⟨item, hitem, rfl⟩ := Option.map_eq_some_iff.mp hi
  cases item with
  | mcpCall call => exact ⟨call, hitem, rfl⟩
  | message mid status text =>
    have hname := (h.message i _ hitem rfl).2.2
    rw [hname] at hid
    exact absurd hid h.named

/-- A call that is new to the output. -/
theorem InOrder.push (h : InOrder isCall b) (hsame : SameMessage b c) {call : McpCallItem}
    (hid : isCall call.id) (hnew : ∀ i, b.record.idAt i ≠ some call.id.val)
    (hitems : c.record.outputItems = b.record.outputItems ++ [.mcpCall call])
    (hlisted : c.record.Listed) : InOrder isCall c ∧ c.ledger = b.ledger ++ [false] := by
  have hopen : call.id.val ∉ b.completedMcpCalls := fun hc => by
    obtain ⟨i, hi⟩ := h.completed _ hc
    exact hnew i hi
  refine ⟨⟨hlisted, ?_, fun call' hmem => ?_, fun i item hi ht => ?_, fun hs => ?_, fun hs => ?_,
    fun id hc => ?_⟩, ?_⟩
  · rw [hsame.messageId]
    exact h.named
  · rw [hsame.completedMcpCalls]
    rw [hitems] at hmem
    rcases List.mem_append.mp hmem with hmem | hmem
    · exact h.call call' hmem
    · obtain rfl := OutputItem.mcpCall.inj (List.mem_singleton.mp hmem)
      exact ⟨hid, fun hc => absurd hc hopen⟩
  · rw [hitems] at hi
    rw [hsame.messageStarted, hsame.messageOutputIndex, hsame.messageId]
    rcases getElem?_concat.mp hi with hi | ⟨-, rfl⟩
    · exact h.message i item hi ht
    · cases ht
  · obtain ⟨i, item, hindex, hi, ht⟩ := h.started (hsame.messageStarted ▸ hs)
    refine ⟨i, item, hsame.messageOutputIndex.trans hindex, ?_, ht⟩
    rw [hitems]
    exact getElem?_concat.mpr (.inl hi)
  · exact hsame.messageCompleted.trans (h.unstarted (hsame.messageStarted ▸ hs))
  · exact (ResponseRecord.hasItem_append hitems id).mpr
      (.inl (h.completed id (hsame.completedMcpCalls ▸ hc)))
  · have hclosed : b.isClosed (.mcpCall call) = false := by
      simpa [ResponsesEventBuilder.isClosed] using hopen
    rw [ledger, hitems, hsame.isClosed, List.map_append, List.map_singleton, hclosed]
    rfl

/-- A call that takes the place it has. -/
theorem InOrder.put (h : InOrder isCall b) (hsame : SameMessage b c) {call : McpCallItem} {i : ℕ}
    (hid : isCall call.id) (hi : b.record.idAt i = some call.id.val)
    (hitems : c.record.outputItems = b.record.outputItems.set i (.mcpCall call))
    (hlisted : c.record.Listed)
    (hended : call.id.val ∈ b.completedMcpCalls → call.status ≠ .inProgress) :
    InOrder isCall c ∧ c.ledger = b.ledger := by
  obtain ⟨old, hold, hsameId⟩ := h.call_at hid hi
  have hlt := (List.getElem?_eq_some_iff.mp hold).1
  have hother : ∀ j item, c.record.outputItems[j]? = some item →
      j = i ∧ item = .mcpCall call ∨ b.record.outputItems[j]? = some item := by
    intro j item hj
    rw [hitems] at hj
    by_cases hji : j = i
    · subst hji
      rw [List.getElem?_set_self hlt] at hj
      exact .inl ⟨rfl, (Option.some.inj hj).symm⟩
    · rw [List.getElem?_set_ne (Ne.symm hji)] at hj
      exact .inr hj
  refine ⟨⟨hlisted, ?_, fun call' hmem => ?_, fun j item hj ht => ?_, fun hs => ?_, fun hs => ?_,
    fun id hc => ?_⟩, ?_⟩
  · rw [hsame.messageId]
    exact h.named
  · rw [hsame.completedMcpCalls]
    obtain ⟨j, hj⟩ := List.getElem?_of_mem hmem
    rcases hother j _ hj with ⟨-, heq⟩ | hj
    · obtain rfl := OutputItem.mcpCall.inj heq
      exact ⟨hid, hended⟩
    · exact h.call call' (List.mem_of_getElem? hj)
  · rw [hsame.messageStarted, hsame.messageOutputIndex, hsame.messageId]
    rcases hother j item hj with ⟨-, rfl⟩ | hj
    · cases ht
    · exact h.message j item hj ht
  · obtain ⟨j, item, hindex, hj, ht⟩ := h.started (hsame.messageStarted ▸ hs)
    have hji : i ≠ j := by
      rintro rfl
      obtain rfl := Option.some.inj (hold.symm.trans hj)
      cases ht
    refine ⟨j, item, hsame.messageOutputIndex.trans hindex, ?_, ht⟩
    rw [hitems, List.getElem?_set_ne hji]
    exact hj
  · exact hsame.messageCompleted.trans (h.unstarted (hsame.messageStarted ▸ hs))
  · exact (@ResponseRecord.hasItem_set _ (.mcpCall call) _ _ hi hitems id).mpr
      (h.completed id (hsame.completedMcpCalls ▸ hc))
  · refine List.ext_getElem? fun j => ?_
    simp only [ledger, List.getElem?_map, hsame.isClosed, hitems]
    by_cases hji : j = i
    · subst hji
      rw [List.getElem?_set_self hlt, hold]
      simp [isClosed, hsameId]
    · rw [List.getElem?_set_ne (Ne.symm hji)]

/-- The call is marked as completed. -/
theorem InOrder.close (h : InOrder isCall b) {call : McpCallItem} {i : ℕ}
    (hi : b.record.outputItems[i]? = some (.mcpCall call)) (hended : call.status ≠ .inProgress)
    (hrecord : c.record = b.record)
    (hcompleted : c.completedMcpCalls = call.id.val :: b.completedMcpCalls) :
    InOrder isCall c ∧ c.ledger = b.ledger.set i true := by
  obtain ⟨record, n, terminal, calls⟩ := c
  obtain rfl : record = b.record := hrecord
  obtain rfl : calls = call.id.val :: b.completedMcpCalls := hcompleted
  have hidAt : b.record.idAt i = some call.id.val := by simp [ResponseRecord.idAt, hi, OutputItem.id]
  have hsame : ∀ j call', b.record.outputItems[j]? = some (.mcpCall call') →
      call'.id.val = call.id.val → j = i := by
    intro j call' hj hid
    exact h.listed.unique (by simp [ResponseRecord.idAt, hj, OutputItem.id, hid]) hidAt
  refine ⟨⟨h.listed, h.named, fun call' hmem => ⟨(h.call call' hmem).1, fun hc => ?_⟩, h.message,
    h.started, h.unstarted, fun id hc => ?_⟩, ?_⟩
  · rcases List.mem_cons.mp hc with hid | hc
    · obtain ⟨j, hj⟩ := List.getElem?_of_mem hmem
      obtain rfl := hsame j call' hj hid
      obtain rfl := OutputItem.mcpCall.inj (Option.some.inj (hi.symm.trans hj))
      exact hended
    · exact (h.call call' hmem).2 hc
  · rcases List.mem_cons.mp hc with rfl | hc
    · exact ⟨i, hidAt⟩
    · exact h.completed id hc
  · refine List.ext_getElem? fun j => ?_
    by_cases hji : j = i
    · subst hji
      rw [List.getElem?_set_self (by simpa [ledger] using (List.getElem?_eq_some_iff.mp hi).1)]
      simp [ledger, hi, isClosed]
    · rw [List.getElem?_set_ne (Ne.symm hji)]
      simp only [ledger, List.getElem?_map]
      cases hj : b.record.outputItems[j]? with
      | none => rfl
      | some item =>
        cases item with
        | message => rfl
        | mcpCall call' =>
          have hne : call'.id.val ≠ call.id.val := fun hid => hji (hsame j call' hj hid)
          simp [isClosed, hne]

/-- Reading a call touches nothing of the output. -/
theorem mcpCallItem_frame (source : Members) (completed : Bool) (b : ResponsesEventBuilder) :
    ∃ targets, (mcpCallItem source completed b).2 =
      { b with record := { b.record with mcpAppTargets := targets } } := by
  have hmeta : ∀ callId server tool, ∃ targets, (mcpMeta b.record source callId server tool).1 =
      { b.record with mcpAppTargets := targets } := by
    intro callId server tool
    simp only [mcpMeta]
    split
    · exact ⟨_, rfl⟩
    · exact ⟨_, rfl⟩
  obtain ⟨targets, htargets⟩ := hmeta
    ((string? (source.get "id")).getD ⟨"mcp_unknown", by decide⟩)
    (((string? (source.get "server")).map Subtype.val).getD "unknown")
    (((string? (source.get "tool")).map Subtype.val).getD "unknown")
  exact ⟨targets, congrArg (fun record => { b with record := record }) htargets⟩

theorem mcpCallItem_id {source : Members} {callId : NonemptyString}
    (hid : string? (source.get "id") = some callId) (completed : Bool) (b : ResponsesEventBuilder) :
    (mcpCallItem source completed b).1.id = callId := by
  simp only [mcpCallItem, hid]
  rfl

theorem mcpCallItem_ended (source : Members) (b : ResponsesEventBuilder) :
    (mcpCallItem source true b).1.status ≠ .inProgress := by
  simp only [mcpCallItem, bind_apply]
  change (if _ then ItemStatus.failed else if true = true then .completed else .inProgress) ≠ _
  split_ifs with hfailed htrue
  · simp
  · simp
  · exact absurd rfl htrue

/-- What `_start_mcp_call` does with a call that it does not know. -/
theorem startMcpCall_new {source : Members} {callId : NonemptyString} {b : ResponsesEventBuilder}
    (hid : string? (source.get "id") = some callId) (hnew : b.record.outputIndex callId = none) :
    startMcpCall source b =
      let r := mcpCallItem source false b
      let added := r.2.record.addOutputItem (.mcpCall r.1)
      let n := r.2.sequenceNumber
      ([⟨n, .outputItemAdded added.2 (.mcpCall r.1)⟩,
          ⟨n + 1, .mcpCallArgumentsDone callId added.2 r.1.arguments⟩,
          ⟨n + 2, .mcpCallInProgress callId added.2⟩],
        { r.2 with record := added.1, sequenceNumber := n + 3 }) := by
  unfold startMcpCall
  rw [hid]
  simp only [getRecord_bind]
  rw [if_neg (by simp [hnew])]
  rfl

theorem startMcpCall_known {source : Members} {callId : NonemptyString} {b : ResponsesEventBuilder}
    (hid : string? (source.get "id") = some callId) (hknown : (b.record.outputIndex callId).isSome) :
    startMcpCall source b = ([], b) := by
  unfold startMcpCall
  rw [hid]
  simp only [getRecord_bind]
  rw [if_pos hknown]
  rfl

theorem endMcpCall_eq (source : Members) (callId : String) (b : ResponsesEventBuilder) :
    endMcpCall source callId b =
      let r := mcpCallItem source true b
      let added := r.2.record.addOutputItem (.mcpCall r.1)
      let n := r.2.sequenceNumber
      ([⟨n, if r.1.status = .failed then .mcpCallFailed callId added.2
            else .mcpCallCompleted callId added.2⟩,
          ⟨n + 1, .outputItemDone added.2 (.mcpCall r.1)⟩],
        { r.2 with
          record := added.1
          sequenceNumber := n + 2
          completedMcpCalls := callId :: r.2.completedMcpCalls }) := rfl

theorem run_used {l : List Bool} {i : ℕ} (hi : l[i]? = some false) :
    ∀ k, Machine.run mark l (List.replicate k (.used i)) = some l
  | 0 => rfl
  | k + 1 => by
      rw [List.replicate_succ, Machine.run, mark, if_pos hi]
      exact run_used hi k

/-- An item is added, and used. -/
theorem run_opened (l : List Bool) (k : ℕ) :
    Machine.run mark l (.opened l.length :: List.replicate k (.used l.length)) =
      some (l ++ [false]) := by
  rw [Machine.run, mark, if_pos rfl]
  exact run_used (by simp) k

/-- An item is used, and closed. -/
theorem run_closed {l : List Bool} {i : ℕ} (hi : l[i]? = some false) (k : ℕ) :
    Machine.run mark l (List.replicate k (.used i) ++ [.closed i]) = some (l.set i true) := by
  rw [Machine.run_append, run_used hi]
  simp [Machine.run, mark, hi]

/-- An item is put into the output of the builder. -/
theorem sameMessage_added (b : ResponsesEventBuilder) (targets : List (String × McpAppDescriptor))
    (item : OutputItem) (n : ℕ) : SameMessage b { b with
      record := (ResponseRecord.addOutputItem { b.record with mcpAppTargets := targets } item).1
      sequenceNumber := n } := by
  obtain ⟨hid, hindex, hstarted, hcompleted, -⟩ :=
    ResponseRecord.addOutputItem_message { b.record with mcpAppTargets := targets } item
  exact ⟨hid, hindex, hstarted, hcompleted, rfl, rfl⟩

theorem startMcpCall_emits (h : InOrder isCall b) {source : Members} {callId : NonemptyString}
    (hid : string? (source.get "id") = some callId) (hcall : isCall callId) :
    Emits isCall [callId.val] [] b (startMcpCall source b) := by
  cases hknown : b.record.outputIndex callId with
  | some i =>
    have hitem : b.record.HasItem callId := ⟨i, (h.listed _ i).mp hknown⟩
    rw [startMcpCall_known hid (by simp [hknown])]
    refine .nothing h (fun id hmem => ?_) fun _ h => by cases h
    obtain rfl := List.mem_singleton.mp hmem
    exact hitem
  | none =>
    obtain ⟨targets, hframe⟩ := mcpCallItem_frame source false b
    have hidItem := mcpCallItem_id hid false b
    rw [startMcpCall_new hid hknown]
    generalize mcpCallItem source false b = r at hframe hidItem ⊢
    obtain ⟨call, c⟩ := r
    obtain rfl : c = _ := hframe
    obtain rfl : call.id = callId := hidItem
    have hnew : ∀ i, b.record.idAt i ≠ some call.id.val := fun i hi => by
      simp [(h.listed _ i).mpr hi] at hknown
    obtain ⟨hitems, hindex, hlisted⟩ := @ResponseRecord.Listed.append
      { b.record with mcpAppTargets := targets } (.mcpCall call) h.listed hnew
    have hsame := sameMessage_added b targets (.mcpCall call) (b.sequenceNumber + 3)
    dsimp only
    generalize ResponseRecord.addOutputItem { b.record with mcpAppTargets := targets }
      (.mcpCall call) = added at hitems hindex hlisted hsame ⊢
    obtain ⟨record, index⟩ := added
    obtain rfl : index = b.record.outputItems.length := hindex
    obtain ⟨hinOrder, hledger⟩ := h.push hsame hcall hnew hitems hlisted
    have hrun := run_opened b.ledger 2
    rw [← hledger, ledger_length] at hrun
    refine ⟨hinOrder, hrun, fun e he => ?_, fun id _ => ?_, fun id => (by simp),
      hsame.messageCompleted, rfl⟩
    · simp only [List.mem_cons, List.not_mem_nil, or_false] at he
      rcases he with rfl | rfl | rfl <;> rfl
    · rw [List.mem_singleton]
      exact @ResponseRecord.hasItem_append b.record _ _ hitems id

theorem endMcpCall_emits (h : InOrder isCall b) {source : Members} {callId : NonemptyString}
    (hid : string? (source.get "id") = some callId) (hcall : isCall callId)
    (hknown : b.record.HasItem callId) (hopen : callId.val ∉ b.completedMcpCalls) :
    Emits isCall [callId.val] [callId.val] b (endMcpCall source callId b) := by
  obtain ⟨targets, hframe⟩ := mcpCallItem_frame source true b
  have hidItem := mcpCallItem_id hid true b
  have hended := mcpCallItem_ended source b
  rw [endMcpCall_eq]
  generalize mcpCallItem source true b = r at hframe hidItem hended ⊢
  obtain ⟨call, c⟩ := r
  obtain rfl : c = _ := hframe
  obtain rfl : call.id = callId := hidItem
  obtain ⟨i, hi⟩ := hknown
  obtain ⟨hitems, hindex, hlisted⟩ := @ResponseRecord.Listed.replace
    { b.record with mcpAppTargets := targets } (.mcpCall call) h.listed _ hi
  have hsame := sameMessage_added b targets (.mcpCall call) (b.sequenceNumber + 2)
  dsimp only
  generalize ResponseRecord.addOutputItem { b.record with mcpAppTargets := targets }
    (.mcpCall call) = added at hitems hindex hlisted hsame ⊢
  obtain ⟨record, index⟩ := added
  obtain rfl : index = i := hindex
  obtain ⟨hput, hledger⟩ := h.put hsame hcall hi hitems hlisted fun hc => absurd hc hopen
  obtain ⟨old, hold, -⟩ := h.call_at hcall hi
  have hat : record.outputItems[index]? = some (.mcpCall call) := by
    rw [hitems, List.getElem?_set_self (List.getElem?_eq_some_iff.mp hold).1]
  have hledgerAt : b.ledger[index]? = some false := by
    rw [← hledger, ledger, List.getElem?_map, hat]
    simpa [isClosed] using hopen
  obtain ⟨hclose, hledger'⟩ := hput.close hat hended
    (c := ⟨record, b.sequenceNumber + 2, b.terminal, call.id.val :: b.completedMcpCalls⟩) rfl rfl
  rw [hledger] at hledger'
  have hrun := run_closed hledgerAt 1
  rw [← hledger'] at hrun
  refine ⟨hclose, ?_, fun e he => ?_, fun id _ => ?_, fun id => ?_, hsame.messageCompleted, rfl⟩
  · rw [← hrun, Adapter.marks]
    split_ifs <;> rfl
  · simp only [List.mem_cons, List.not_mem_nil, or_false] at he
    rcases he with rfl | rfl
    · dsimp only
      split_ifs <;> rfl
    · rfl
  · have hset := @ResponseRecord.hasItem_set b.record (.mcpCall call) _ _ hi hitems id
    refine ⟨fun h => .inl (hset.mp h), fun h => hset.mpr (h.elim (fun h => h) fun hmem => ?_)⟩
    obtain rfl := List.mem_singleton.mp hmem
    exact ⟨index, hi⟩
  · simp [or_comm]

/-- The call of an item, if it has an id. -/
def callId (source : Members) : List String :=
  ((string? (source.get "id")).map Subtype.val).toList

theorem completeMcpCall_emits (h : InOrder isCall b) {source : Members}
    (hcall : ∀ id ∈ callId source, isCall id) :
    Emits isCall (callId source) (callId source) b (completeMcpCall source b) := by
  unfold completeMcpCall
  cases hid : string? (source.get "id") with
  | none =>
    rw [callId, hid]
    exact .nil h
  | some id =>
    have hcall' : isCall id := hcall id (by simp [callId, hid])
    have hids : callId source = [id.val] := by simp [callId, hid]
    rw [hids]
    simp only [getBuilder_bind]
    by_cases hdone : id.val ∈ b.completedMcpCalls
    · rw [if_pos hdone]
      refine .nothing h (fun id' hmem => ?_) fun id' hmem => ?_
      · obtain rfl := List.mem_singleton.mp hmem
        exact h.completed _ hdone
      · obtain rfl := List.mem_singleton.mp hmem
        exact hdone
    · rw [if_neg hdone]
      simp only [getRecord_bind]
      by_cases hknown : (b.record.outputIndex id).isNone = true
      · rw [if_pos hknown]
        have hstart := startMcpCall_emits h hid hcall'
        have hend := endMcpCall_emits hstart.inOrder hid hcall'
          ((hstart.items id hcall').mpr (.inr (by simp)))
          fun hmem => hdone (by simpa using (hstart.calls id).mp hmem)
        exact (hstart.append hend).congr (fun id' => by simp) fun id' => by simp
      · rw [if_neg hknown]
        obtain ⟨i, hi⟩ := Option.ne_none_iff_exists'.mp (by simpa using hknown)
        have hend := endMcpCall_emits h hid hcall' ⟨i, (h.listed _ i).mp hi⟩ hdone
        exact (Emits.nil h).append hend

/-- The calls among the items of a turn. -/
def callIds (items : List Json) : List String :=
  items.flatMap fun item =>
    match (dict? item).filter fun ms => hasType ms "mcpToolCall" with
    | some source => callId source
    | none => []

theorem completeMcpCalls_emits (h : InOrder isCall b) (items : List Json)
    (hcalls : ∀ id ∈ callIds items, isCall id) :
    Emits isCall (callIds items) (callIds items) b (completeMcpCalls items b) := by
  induction items generalizing b with
  | nil => exact .nil h
  | cons item items ih =>
    rw [completeMcpCalls]
    rw [callIds, List.flatMap_cons] at hcalls ⊢
    cases hitem : (dict? item).filter fun ms => hasType ms "mcpToolCall" with
    | none =>
      rw [hitem] at hcalls
      exact (Emits.nil h).append (ih h hcalls)
    | some source =>
      rw [hitem] at hcalls
      have hfirst := completeMcpCall_emits h fun id hid =>
        hcalls id (List.mem_append_left _ hid)
      exact hfirst.append (ih hfirst.inOrder fun id hid => hcalls id (List.mem_append_right _ hid))

/-! ## The message -/

/-- Where the message stands. -/
theorem InOrder.message_at (h : InOrder isCall b) (hs : b.record.messageStarted = true) :
    ∃ i item, b.record.messageOutputIndex = some i ∧ b.record.outputItems[i]? = some item ∧
      item.messageText?.isSome ∧ b.record.idAt i = some b.record.messageId.val := by
  obtain ⟨i, item, hindex, hi, ht⟩ := h.started hs
  refine ⟨i, item, hindex, hi, ht, ?_⟩
  rw [ResponseRecord.idAt, hi, Option.map_some, (h.message i item hi ht).2.2]

/-- The message item is brought up to date. -/
theorem InOrder.sync (h : InOrder isCall b) {i : ℕ}
    (hindex : b.record.messageOutputIndex = some i)
    (hi : b.record.idAt i = some b.record.messageId.val)
    (hold : ∃ item, b.record.outputItems[i]? = some item ∧ item.messageText?.isSome)
    (hid : c.record.messageId = b.record.messageId)
    (hindex' : c.record.messageOutputIndex = b.record.messageOutputIndex)
    (hstarted : c.record.messageStarted = true)
    (hcompleted : c.completedMcpCalls = b.completedMcpCalls)
    (hitems : c.record.outputItems = b.record.outputItems.set i c.record.messageItem)
    (hlisted : c.record.Listed) :
    InOrder isCall c ∧ c.ledger = b.ledger.set i c.record.messageCompleted ∧
      ∀ id, c.record.HasItem id ↔ b.record.HasItem id := by
  obtain ⟨old, hat, holdText⟩ := hold
  have hlt := (List.getElem?_eq_some_iff.mp hat).1
  have hnew : c.record.messageItem.id = b.record.messageId := hid
  have hself : c.record.outputItems[i]? = some c.record.messageItem := by
    rw [hitems, List.getElem?_set_self hlt]
  have hother : ∀ j ≠ i, c.record.outputItems[j]? = b.record.outputItems[j]? := fun j hj => by
    rw [hitems, List.getElem?_set_ne (Ne.symm hj)]
  have hhas : ∀ id, c.record.HasItem id ↔ b.record.HasItem id :=
    @ResponseRecord.hasItem_set _ c.record.messageItem _ _ (hnew ▸ hi) hitems
  refine ⟨⟨hlisted, ?_, fun call hmem => ?_, fun j item hj ht => ?_, fun _ => ?_, fun hs => ?_,
    fun id hc => ?_⟩, ?_, hhas⟩
  · rw [hid]
    exact h.named
  · rw [hcompleted]
    obtain ⟨j, hj⟩ := List.getElem?_of_mem hmem
    by_cases hji : j = i
    · rw [hji, hself] at hj
      cases hj
    · exact h.call call (List.mem_of_getElem? ((hother j hji).symm.trans hj))
  · rw [hid, hindex', hstarted]
    by_cases hji : j = i
    · subst hji
      rw [hself] at hj
      obtain rfl := Option.some.inj hj
      exact ⟨rfl, hindex, hnew⟩
    · exact ⟨rfl, (h.message j item ((hother j hji).symm.trans hj) ht).2⟩
  · exact ⟨i, c.record.messageItem, hindex'.trans hindex, hself, rfl⟩
  · simp [hstarted] at hs
  · exact (hhas id).mpr (h.completed id (hcompleted ▸ hc))
  · refine List.ext_getElem? fun j => ?_
    by_cases hji : j = i
    · subst hji
      rw [List.getElem?_set_self (by simpa [ledger] using hlt), ledger, List.getElem?_map, hself]
      rfl
    · rw [List.getElem?_set_ne (Ne.symm hji), ledger, ledger, List.getElem?_map, List.getElem?_map,
        hother j hji]
      cases hj : b.record.outputItems[j]? with
      | none => rfl
      | some item =>
        cases item with
        | mcpCall call => simp [isClosed, hcompleted]
        | message id status text =>
          have hindex'' := (h.message j _ hj rfl).2.1
          exact absurd (Option.some.inj (hindex''.symm.trans hindex)) hji

/-- What `sync_message_item` does once the message has started. -/
theorem syncMessageItem_output {record : ResponseRecord} (h : record.Listed)
    (hs : record.messageStarted = true) {i : ℕ} (hi : record.idAt i = some record.messageId.val) :
    record.syncMessageItem.outputItems = record.outputItems.set i record.messageItem ∧
      record.syncMessageItem.Listed ∧ record.syncMessageItem.messageItem = record.messageItem ∧
      record.syncMessageItem.messageId = record.messageId ∧
      record.syncMessageItem.messageOutputIndex = record.messageOutputIndex ∧
      record.syncMessageItem.messageStarted = true := by
  rw [ResponseRecord.syncMessageItem, if_pos hs, ResponseRecord.updateOutputItem]
  obtain ⟨hitems, -, hlisted⟩ := @ResponseRecord.Listed.replace _ record.messageItem h _ hi
  obtain ⟨hid, hindex, hstarted, hcompleted, htext⟩ :=
    record.addOutputItem_message record.messageItem
  refine ⟨hitems, hlisted, ?_, hid, hindex, hstarted.trans hs⟩
  rw [ResponseRecord.messageItem, hid, hcompleted, htext]
  rfl

/-- The message of a builder whose record has changed in its text or its completion is brought up to
date. -/
theorem InOrder.syncRecord (h : InOrder isCall b) (hs : b.record.messageStarted = true)
    (text : String) (completed : Bool) :
    let record : ResponseRecord :=
      { b.record with outputText := text, messageCompleted := completed }
    let c := { b with record := record.syncMessageItem }
    InOrder isCall c ∧ c.record.messageStarted = true ∧ c.record.messageCompleted = completed ∧
      (∀ i, b.record.messageOutputIndex = some i → c.ledger = b.ledger.set i completed) ∧
      c.record.messageOutputIndex = b.record.messageOutputIndex ∧
      ∀ id, c.record.HasItem id ↔ b.record.HasItem id := by
  intro record c
  obtain ⟨i, item, hindex, hat, ht, hi⟩ := h.message_at hs
  obtain ⟨hitems, hlisted, hmessage, hid, hindex', hstarted⟩ :=
    @syncMessageItem_output record h.listed hs _ hi
  have hcompleted : c.record.messageCompleted = completed :=
    ResponseRecord.syncMessageItem_messageCompleted record
  obtain ⟨hinOrder, hledger, hhas⟩ := h.sync (c := c) hindex hi ⟨item, hat, ht⟩ hid hindex' hstarted
    rfl (by rw [hitems, hmessage]) hlisted
  refine ⟨hinOrder, hstarted, hcompleted, fun j hj => ?_, hindex', hhas⟩
  obtain rfl := Option.some.inj (hindex.symm.trans hj)
  rw [hledger, hcompleted]

/-- What `_start_message` does before there is a message. -/
theorem startMessage_new {b : ResponsesEventBuilder} (hs : b.record.messageStarted = false)
    (itemId : Option String) :
    startMessage itemId b =
      let r := b.record.ensureMessage itemId
      let n := b.sequenceNumber
      ([⟨n, .outputItemAdded r.2 r.1.messageItem⟩, ⟨n + 1, .contentPartAdded r.1.messageId r.2 0 ""⟩],
        { b with record := r.1, sequenceNumber := n + 2 }) := by
  unfold startMessage
  simp only [getRecord_bind, hs]
  rfl

theorem startMessage_emits (h : InOrder isCall b) {itemId : Option String}
    (hname : ∀ id ∈ itemId.bind nonempty?, ¬ isCall id) :
    Emits isCall [] [] b (startMessage itemId b) ∧
      (startMessage itemId b).2.record.messageStarted = true := by
  cases hs : b.record.messageStarted with
  | true =>
    have heq : startMessage itemId b = ([], b) := by
      unfold startMessage
      simp only [getRecord_bind, hs]
      rfl
    rw [heq]
    exact ⟨.nil h, hs⟩
  | false =>
    let named : ResponseRecord := { b.record with
      messageId := (itemId.bind nonempty?).getD b.record.messageId
      messageStarted := true }
    have hensure : b.record.ensureMessage itemId =
        ({ (named.addOutputItem named.messageItem).1 with
            messageOutputIndex := some (named.addOutputItem named.messageItem).2 },
          (named.addOutputItem named.messageItem).2) := by
      rw [ResponseRecord.ensureMessage, hs]
    have hnamed : ¬ isCall named.messageId := by
      cases hid : itemId.bind nonempty? with
      | none => simpa [named, hid] using h.named
      | some id => simpa [named, hid] using hname id hid
    have hcall : ∀ (i : ℕ) (item : OutputItem), b.record.outputItems[i]? = some item →
        ∃ call, item = OutputItem.mcpCall call := by
      intro i item hi
      cases item with
      | mcpCall call => exact ⟨call, rfl⟩
      | message id status text =>
        have hstarted := (h.message i _ hi rfl).1
        rw [hs] at hstarted
        cases hstarted
    have hnew : ∀ i, named.idAt i ≠ some named.messageItem.id.val := by
      intro i hi
      obtain ⟨item, hitem, hid⟩ := Option.map_eq_some_iff.mp hi
      obtain ⟨call, rfl⟩ := hcall i item hitem
      have hisCall := (h.call call (List.mem_of_getElem? hitem)).1
      change call.id.val = named.messageId.val at hid
      rw [hid] at hisCall
      exact hnamed hisCall
    obtain ⟨hitems, hindex, hlisted⟩ :=
      @ResponseRecord.Listed.append named named.messageItem h.listed hnew
    obtain ⟨hid, -, hstarted, hcompleted, -⟩ := named.addOutputItem_message named.messageItem
    rw [startMessage_new hs, hensure]
    dsimp only
    generalize named.addOutputItem named.messageItem = r at hitems hindex hlisted hid hstarted hcompleted ⊢
    obtain ⟨record, index⟩ := r
    obtain rfl : index = b.record.outputItems.length := hindex
    have hopen : record.messageCompleted = false := hcompleted.trans (h.unstarted hs)
    have hlast : record.outputItems[b.record.outputItems.length]? = some named.messageItem :=
      hitems ▸ getElem?_concat.mpr (.inr ⟨rfl, rfl⟩)
    have hat : ∀ (i : ℕ) (item : OutputItem), record.outputItems[i]? = some item →
        item.messageText?.isSome → i = b.record.outputItems.length ∧ item.id = record.messageId := by
      intro i item hi ht
      rw [hitems] at hi
      rcases getElem?_concat.mp hi with hi | ⟨rfl, rfl⟩
      · obtain ⟨call, rfl⟩ := hcall i item hi
        cases ht
      · exact ⟨rfl, hid.symm⟩
    let c : ResponsesEventBuilder := { b with
      record := { record with messageOutputIndex := some b.record.outputItems.length }
      sequenceNumber := b.sequenceNumber + 2 }
    have hhas : ∀ id, c.record.HasItem id ↔ b.record.HasItem id ∨ id = named.messageId.val :=
      @ResponseRecord.hasItem_append b.record named.messageItem _ hitems
    have hledger : c.ledger = b.ledger ++ [false] := by
      have hsame : c.isClosed = b.isClosed := by
        funext item
        cases item with
        | message => exact hcompleted
        | mcpCall => rfl
      have hnew : b.isClosed named.messageItem = false := h.unstarted hs
      have houtput : c.record.outputItems = b.record.outputItems ++ [named.messageItem] := hitems
      rw [ledger, hsame, houtput, List.map_append, List.map_singleton, hnew]
      rfl
    have hinOrder : InOrder isCall c := by
      refine ⟨hlisted, ?_, fun call hmem => ?_, fun i item hi ht => ?_, fun _ => ?_, fun hs' => ?_,
        fun id hc => (hhas id).mpr (.inl (h.completed id hc))⟩
      · exact hid ▸ hnamed
      · have hmem' : OutputItem.mcpCall call ∈ b.record.outputItems ++ [named.messageItem] :=
          hitems ▸ hmem
        rcases List.mem_append.mp hmem' with hmem' | hmem'
        · exact h.call call hmem'
        · cases List.mem_singleton.mp hmem'
      · obtain ⟨rfl, hname⟩ := hat i item hi ht
        exact ⟨hstarted, rfl, hname⟩
      · exact ⟨_, named.messageItem, rfl, hlast, rfl⟩
      · exact absurd (hstarted.symm.trans hs') (by simp)
    have hrun := run_opened b.ledger 1
    rw [← hledger, ledger_length] at hrun
    refine ⟨⟨hinOrder, hrun, fun e he => ?_, fun id hcallId => ?_, fun id => (by simp), hcompleted,
      rfl⟩, hstarted⟩
    · simp only [List.mem_cons, List.not_mem_nil, or_false] at he
      rcases he with rfl | rfl <;> rfl
    · rw [hhas]
      refine or_congr_right ⟨fun hid => ?_, fun h => by cases h⟩
      rw [hid] at hcallId
      exact absurd hcallId hnamed

/-- The ledger says of the message whether it is completed. -/
theorem InOrder.ledger_message (h : InOrder isCall b) (hs : b.record.messageStarted = true) :
    ∃ i, b.record.messageOutputIndex = some i ∧
      b.ledger[i]? = some b.record.messageCompleted := by
  obtain ⟨i, item, hindex, hi, ht, -⟩ := h.message_at hs
  refine ⟨i, hindex, ?_⟩
  rw [ledger, List.getElem?_map, hi]
  cases item with
  | message => rfl
  | mcpCall => cases ht

theorem set_self {l : List Bool} {i : ℕ} {x : Bool} (h : l[i]? = some x) : l.set i x = l := by
  obtain ⟨hi, rfl⟩ := List.getElem?_eq_some_iff.mp h
  exact List.set_getElem_self hi

/-- The text of the message is replaced. -/
theorem setOutputText_emits (h : InOrder isCall b) (hs : b.record.messageStarted = true)
    (text : String) : Emits isCall [] [] b ([], (setOutputText text b).2) ∧
      (setOutputText text b).2.record.messageStarted = true := by
  obtain ⟨i, hindex, hat⟩ := h.ledger_message hs
  obtain ⟨hinOrder, hstarted, hcompleted, hledger, -, hhas⟩ :=
    h.syncRecord hs text b.record.messageCompleted
  have hmarks := (hledger i hindex).trans (set_self hat)
  refine ⟨⟨hinOrder, ?_, fun _ h => (by cases h), fun id _ => ?_, fun id => ?_, hcompleted, rfl⟩,
    hstarted⟩
  · exact congrArg some hmarks.symm
  · exact (hhas id).trans (by simp)
  · exact (or_iff_left (by simp)).symm

theorem textDelta_emits (h : InOrder isCall b) (hs : b.record.messageStarted = true)
    (hopen : b.record.messageCompleted = false) (delta : String) :
    Emits isCall [] [] b ([(textDelta delta b).1], (textDelta delta b).2) := by
  obtain ⟨i, hindex, hat⟩ := h.ledger_message hs
  rw [hopen] at hat
  have hmark : (textDelta delta b).1.body.mark = .used i := congrArg Mark.used (by rw [hindex]; rfl)
  refine ⟨⟨h.listed, h.named, h.call, h.message, h.started, h.unstarted, h.completed⟩, ?_,
    fun e he => ?_, fun id _ => (by simp; rfl), fun id => (by simp; rfl), rfl, rfl⟩
  · rw [marks, List.map_singleton, hmark]
    exact run_used hat 1
  · obtain rfl := List.mem_singleton.mp he
    rfl

/-- The text of the message grows, and the growth is shown. -/
theorem showText_emits (h : InOrder isCall b) (hs : b.record.messageStarted = true)
    (hopen : b.record.messageCompleted = false) (text delta : String) :
    Emits isCall [] [] b ([(textDelta delta (setOutputText text b).2).1],
      (textDelta delta (setOutputText text b).2).2) := by
  obtain ⟨hset, hstarted⟩ := setOutputText_emits h hs text
  exact hset.append (textDelta_emits hset.inOrder hstarted (hset.completed.trans hopen) delta)

theorem appendText_emits (h : InOrder isCall b) (hopen : b.record.messageCompleted = false)
    (delta : String) {itemId : Option String} (hname : ∀ id ∈ itemId.bind nonempty?, ¬ isCall id) :
    Emits isCall [] [] b (appendText delta itemId b) := by
  obtain ⟨hstart, hstarted⟩ := startMessage_emits h hname
  exact hstart.append (showText_emits hstart.inOrder hstarted (hstart.completed.trans hopen) _ delta)

theorem syncCompletedMessage_emits (h : InOrder isCall b)
    (hopen : b.record.messageCompleted = false) (text : String) {itemId : Option String}
    (hname : ∀ id ∈ itemId.bind nonempty?, ¬ isCall id) :
    Emits isCall [] [] b (syncCompletedMessage text itemId b) := by
  obtain ⟨hstart, hstarted⟩ := startMessage_emits h hname
  simp only [syncCompletedMessage]
  rw [bind_apply, getRecord_bind]
  split_ifs
  · exact hstart
  · exact hstart
  · exact hstart.append
      (showText_emits hstart.inOrder hstarted (hstart.completed.trans hopen) _ _)
  · have hset := (setOutputText_emits hstart.inOrder hstarted text).1
    have happend := hstart.append hset
    simp only [List.append_nil] at happend
    exact happend

end Grammar

end CodexGateway.Adapter
