import CodexGateway.Adapter.AppTargets
import CodexGateway.Adapter.Sequence

/-!
# Adapter/BatchItems — the calls of a batch, and the record they are written to again

The events of a batch carry copies of the items that the builder has put into the record, and the
service writes those of them that tell of an App to the record once more, one after the other.  The
last copy of a call is what the record has: unless a copy was changed on its way, the record reads
as before afterwards (`retrieve_rebind`).

A message may bear the id of a call; then it covers the call, since the message is brought up to
date before the record is read.
-/

namespace CodexGateway.Adapter

open PyJson ResponsesEventBuilder
open Driver (sideCall)

namespace ResponseRecord

variable {record record' record'' : ResponseRecord} {call : McpCallItem}

/-! ## Reading a record -/

/-- `retrieve` -/
def retrieve (record : ResponseRecord) : Response := record.toResponse.2

/-- The message has this id. -/
def Covers (record : ResponseRecord) (id : String) : Prop :=
  record.messageStarted = true ∧ record.messageId.val = id

instance (record : ResponseRecord) (id : String) : Decidable (record.Covers id) := by
  unfold Covers
  infer_instance

/-- The output has this item of the call, or the message covers it. -/
def Keeps (record : ResponseRecord) (call : McpCallItem) : Prop :=
  (∃ i, record.outputIndex call.id = some i ∧ record.outputItems[i]? = some (.mcpCall call)) ∨
    record.Covers call.id

/-- An index is inside the output, and is the index of one id. -/
structure Indexed (record : ResponseRecord) : Prop where
  lt : ∀ id i, record.outputIndex id = some i → i < record.outputItems.length
  unique : ∀ id id' i, record.outputIndex id = some i → record.outputIndex id' = some i → id = id'

/-- The record of a request has its indexes. -/
theorem indexed_create (fresh : Fresh) (request : CreateResponseRequest) (inputItems : List Members)
    (mcpAppsBaseUrl : String) : (create fresh request inputItems mcpAppsBaseUrl).Indexed where
  lt _ _ h := by simp [create, outputIndex] at h
  unique _ _ _ h := by simp [create, outputIndex] at h

/-- An item that is put into the output once more is there already. -/
theorem addOutputItem_again (record : ResponseRecord) (item : OutputItem) :
    ((record.addOutputItem item).1.addOutputItem item).1 = (record.addOutputItem item).1 := by
  cases hi : record.outputIndex item.id with
  | some i =>
    have hsame : (record.addOutputItem item).1.outputIndex item.id = some i :=
      outputIndex_addOutputItem item hi
    rw [addOutputItem_of_some hsame, addOutputItem_of_some hi]
    simp
  | none =>
    have hlast : (record.addOutputItem item).1.outputIndex item.id =
        some record.outputItems.length := by
      rw [addOutputItem_of_none hi]
      show List.lookup _ (record.outputIndexes ++ _) = _
      rw [List.lookup_append, show List.lookup _ record.outputIndexes = none from hi]
      simp
    rw [addOutputItem_of_some hlast, addOutputItem_of_none hi]
    simp

/-- Once the message is up to date, it stays so. -/
theorem syncMessageItem_again (record : ResponseRecord) :
    record.syncMessageItem.syncMessageItem = record.syncMessageItem := by
  have hsame : record.syncMessageItem.messageItem = record.messageItem := by
    rw [syncMessageItem_frame]
    rfl
  rw [syncMessageItem, syncMessageItem_messageStarted]
  split_ifs with hs
  · rw [hsame, syncMessageItem, if_pos hs]
    exact addOutputItem_again record _
  · rfl

/-- Reading a record changes nothing of what is read. -/
theorem retrieve_sync (record : ResponseRecord) :
    record.syncMessageItem.retrieve = record.syncMessageItem.response := by
  rw [retrieve, toResponse, syncMessageItem_again]

/-! ## An item is put into the output -/

/-- An item is added with its index. -/
theorem Indexed.add (h : record.Indexed) (item : OutputItem) :
    (record.addOutputItem item).1.Indexed := by
  refine ⟨(added_addOutputItem record item h.lt).index_lt, fun id id' i hid hid' => ?_⟩
  cases hitem : record.outputIndex item.id with
  | some j =>
    rw [addOutputItem_of_some hitem] at hid hid'
    exact h.unique id id' i hid hid'
  | none =>
    rw [addOutputItem_of_none hitem] at hid hid'
    -- The new index is the length of the output, where no id was before.
    have hcases {k : String} (hk : List.lookup k (record.outputIndexes ++
        [(item.id.val, record.outputItems.length)]) = some i) :
        record.outputIndex k = some i ∨ k = item.id.val ∧ i = record.outputItems.length := by
      rw [List.lookup_append] at hk
      cases hold : record.outputIndexes.lookup k with
      | some j =>
        rw [hold] at hk
        exact .inl (hold.trans hk)
      | none =>
        rw [hold, Option.none_or, List.lookup_cons] at hk
        split at hk
        · rename_i heq
          exact .inr ⟨by simpa using heq, (Option.some.inj hk).symm⟩
        · cases hk
    rcases hcases hid with hold | ⟨rfl, hlast⟩
    · rcases hcases hid' with hold' | ⟨-, hlast⟩
      · exact h.unique id id' i hold hold'
      · exact absurd hlast (h.lt id i hold).ne
    · rcases hcases hid' with hold' | ⟨rfl, -⟩
      · exact absurd hlast (h.lt id' i hold').ne
      · rfl

/-- The items that are covered are those of before. -/
theorem covers_add (item : OutputItem) (id : String) :
    (record.addOutputItem item).1.Covers id ↔ record.Covers id := by
  obtain ⟨hid, -, hs, -⟩ := addOutputItem_message record item
  rw [Covers, Covers, hid, hs]

/-- An item keeps its index. -/
theorem isSome_index_add (item : OutputItem) {id : String} (h : (record.outputIndex id).isSome) :
    ((record.addOutputItem item).1.outputIndex id).isSome := by
  obtain ⟨i, hi⟩ := Option.isSome_iff_exists.mp h
  rw [outputIndex_addOutputItem item hi]
  rfl

/-- The item of another call stays. -/
theorem Keeps.add (h : record.Keeps call) (hindexed : record.Indexed) {item : OutputItem}
    (hne : call.id ≠ item.id) : (record.addOutputItem item).1.Keeps call := by
  rcases h with ⟨i, hi, hat⟩ | hcovers
  · refine .inl ⟨i, outputIndex_addOutputItem item hi, ?_⟩
    cases hitem : record.outputIndex item.id with
    | some j =>
      have hij : j ≠ i := by
        rintro rfl
        exact hne (Subtype.ext (hindexed.unique _ _ _ hi hitem))
      rw [addOutputItem_of_some hitem]
      exact (List.getElem?_set_ne hij).trans hat
    | none =>
      rw [addOutputItem_of_none hitem]
      exact (List.getElem?_append_left (hindexed.lt _ _ hi)).trans hat
  · exact .inr ((covers_add item call.id).mpr hcovers)

/-- The item of a call is kept as it was added. -/
theorem keeps_add (hindexed : record.Indexed) (call : McpCallItem) :
    (record.addOutputItem (.mcpCall call)).1.Keeps call := by
  have hadded := added_addOutputItem record (.mcpCall call) hindexed.lt
  exact .inl ⟨_, hadded.index, hadded.item_at⟩

/-! ## Two records that differ where something is written anyway -/

/-- The records have the same output, but for the places of some ids. -/
structure Agrees (dirty : String → Prop) (record record' : ResponseRecord) : Prop where
  frame : record' = { record with
    outputItems := record'.outputItems
    mcpAppTargets := record'.mcpAppTargets }
  length : record'.outputItems.length = record.outputItems.length
  items : ∀ i, (∀ id, dirty id → record.outputIndex id ≠ some i) →
    record'.outputItems[i]? = record.outputItems[i]?

variable {dirty : String → Prop}

/-- A record agrees with itself. -/
theorem agrees_refl (record : ResponseRecord) : Agrees dirty record record :=
  ⟨rfl, rfl, fun _ _ => rfl⟩

/-- Records that agree have the same indexes. -/
theorem Agrees.outputIndex (h : Agrees dirty record record') (id : String) :
    record'.outputIndex id = record.outputIndex id := by rw [h.frame]; rfl

/-- Records that agree have the same message. -/
theorem Agrees.messageItem (h : Agrees dirty record record') :
    record'.messageItem = record.messageItem := by rw [h.frame]; rfl

/-- **What the message covers is not read.** -/
theorem Agrees.retrieve (h : Agrees record.Covers record record') :
    record'.retrieve = record.retrieve := by
  have hitems : record'.syncMessageItem.outputItems = record.syncMessageItem.outputItems := by
    have hstarted : record'.messageStarted = record.messageStarted := by rw [h.frame]
    rw [syncMessageItem, syncMessageItem, hstarted, h.messageItem]
    split_ifs with hs
    · rw [updateOutputItem, updateOutputItem]
      cases hi : record.outputIndex record.messageItem.id with
      | some i =>
        rw [addOutputItem_of_some hi, addOutputItem_of_some ((h.outputIndex _).trans hi)]
        refine List.ext_getElem? fun j => ?_
        rw [List.getElem?_set, List.getElem?_set, h.length]
        split_ifs with hij
        · rfl
        · rfl
        · refine h.items j fun id hid hj => hij ?_
          rw [← hid.2] at hj
          exact Option.some.inj (hi.symm.trans hj)
      | none =>
        rw [addOutputItem_of_none hi, addOutputItem_of_none ((h.outputIndex _).trans hi)]
        refine congrArg (· ++ [record.messageItem]) (List.ext_getElem? fun j => h.items j ?_)
        intro id hid hj
        rw [← hid.2, show record.outputIndex record.messageId = none from hi] at hj
        cases hj
    · exact List.ext_getElem? fun j => h.items j fun id hid _ => hs hid.1
  rw [ResponseRecord.retrieve, ResponseRecord.retrieve, toResponse, toResponse]
  dsimp only
  rw [syncMessageItem_frame record', syncMessageItem_frame record, hitems, h.frame]
  rfl

/-- More items may differ. -/
theorem Agrees.mono {dirty' : String → Prop} (h : Agrees dirty record record')
    (hdirty : ∀ id, dirty id → dirty' id) : Agrees dirty' record record' :=
  ⟨h.frame, h.length, fun i hi => h.items i fun id hid => hi id (hdirty id hid)⟩

/-- Two records take items of one id; the places where they differ may lose its own, if the items
are the same. -/
theorem Agrees.add {dirty' : String → Prop} (h : Agrees dirty record record')
    {item item' : OutputItem} (hid : item'.id = item.id)
    (hknown : (record.outputIndex item.id).isSome)
    (hdirty : ∀ id, dirty id → dirty' id ∨ id = item.id)
    (hitem : dirty' item.id ∨ item' = item) :
    Agrees dirty' (record.addOutputItem item).1 (record'.addOutputItem item').1 := by
  obtain ⟨i, hi⟩ := Option.isSome_iff_exists.mp hknown
  have hi' : record'.outputIndex item'.id = some i := by rw [hid, h.outputIndex, hi]
  rw [addOutputItem_of_some hi, addOutputItem_of_some hi']
  refine ⟨by rw [h.frame], by simp [h.length], fun j hj => ?_⟩
  have hkept : ∀ id, dirty' id → record.outputIndex id ≠ some j := hj
  show (record'.outputItems.set i item')[j]? = (record.outputItems.set i item)[j]?
  by_cases hij : i = j
  · subst hij
    rcases hitem with hdirty | rfl
    · exact absurd hi (hkept _ hdirty)
    · rw [List.getElem?_set, List.getElem?_set, h.length, if_pos rfl, if_pos rfl]
  · rw [List.getElem?_set_ne hij, List.getElem?_set_ne hij]
    refine h.items j fun id hid hidx => ?_
    rcases hdirty id hid with hdirty | rfl
    · exact hkept id hdirty hidx
    · exact hij (Option.some.inj (hi.symm.trans hidx))

/-! ## A batch is written to the record again -/

/-- The calls, put into the output one after the other. -/
def rebind (record : ResponseRecord) (calls : List McpCallItem) : ResponseRecord :=
  calls.foldl (fun record call => (record.addOutputItem (.mcpCall call)).1) record

/-- The items that are covered do not change with their contents. -/
theorem covers_rebind (calls : List McpCallItem) (id : String) :
    (record.rebind calls).Covers id ↔ record.Covers id := by
  induction calls generalizing record with
  | nil => rfl
  | cons call calls ih => exact ih.trans (covers_add _ id)

/-- All calls have their place in the output. -/
def Lists (record : ResponseRecord) (calls : List McpCallItem) : Prop :=
  ∀ call ∈ calls, (record.outputIndex call.id).isSome

/-- The last of the items of each call is what the record has. -/
def Replays (record : ResponseRecord) : List McpCallItem → Prop
  | [] => True
  | call :: calls =>
    ((∃ later ∈ calls, later.id = call.id) ∨ record.Keeps call) ∧ record.Replays calls

/-- The calls that are listed stay so. -/
theorem Lists.add {calls : List McpCallItem} (h : record.Lists calls) (item : OutputItem) :
    (record.addOutputItem item).1.Lists calls :=
  fun call hcall => isSome_index_add item (h call hcall)

/-- Records that agree list the same calls. -/
theorem Agrees.lists (h : Agrees dirty record record') {calls : List McpCallItem}
    (hlists : record.Lists calls) : record'.Lists calls := fun call hcall => by
  rw [h.outputIndex]
  exact hlists call hcall

/-- Records that agree still do once the calls are written over both. -/
theorem Agrees.rebind {calls : List McpCallItem} (hlists : record.Lists calls)
    (h : Agrees dirty record record') :
    Agrees dirty (record.rebind calls) (record'.rebind calls) := by
  induction calls generalizing record record' with
  | nil => exact h
  | cons call calls ih =>
    refine ih (Lists.add (fun later hlater => hlists later (List.mem_cons_of_mem _ hlater)) _) ?_
    exact h.add rfl (hlists call List.mem_cons_self) (fun _ hid => .inl hid) (.inr rfl)

/-- The record is written over by what it has. -/
theorem agrees_rebind {calls : List McpCallItem} (hlists : record.Lists calls)
    (hreplays : record.Replays calls)
    (h : Agrees (fun id => (∃ call ∈ calls, call.id.val = id) ∨ record.Covers id) record record') :
    Agrees record.Covers record (record'.rebind calls) := by
  induction calls generalizing record' with
  | nil => exact ⟨h.frame, h.length, fun i hi => h.items i fun id hid =>
      hi id (hid.resolve_left fun ⟨_, hmem, _⟩ => absurd hmem List.not_mem_nil)⟩
  | cons call calls ih =>
    refine ih (fun later hlater => hlists later (List.mem_cons_of_mem _ hlater)) hreplays.2 ?_
    obtain ⟨i, hi⟩ := Option.isSome_iff_exists.mp (hlists call List.mem_cons_self)
    have hi' : record'.outputIndex call.id = some i := by rw [h.outputIndex, hi]
    show Agrees _ record (record'.addOutputItem (.mcpCall call)).1
    rw [addOutputItem_of_some hi']
    refine ⟨by rw [h.frame], by simp [h.length], fun j hj => ?_⟩
    show (record'.outputItems.set i (.mcpCall call))[j]? = record.outputItems[j]?
    by_cases hij : i = j
    · subst hij
      rcases hreplays.1 with ⟨later, hlater, hid⟩ | ⟨k, hk, hat⟩ | hcovers
      · exact absurd hi (hj _ (.inl ⟨later, hlater, congrArg Subtype.val hid⟩))
      · obtain rfl := Option.some.inj (hi.symm.trans hk)
        have hlt := (List.getElem?_eq_some_iff.mp hat).1
        rw [hat, List.getElem?_set_self (h.length ▸ hlt)]
      · exact absurd hi (hj _ (.inr hcovers))
    · rw [List.getElem?_set_ne hij]
      refine h.items j fun id hid hidx => ?_
      rcases hid with ⟨later, hlater, rfl⟩ | hcovers
      · rcases List.mem_cons.mp hlater with rfl | hlater
        · exact hij (Option.some.inj (hi.symm.trans hidx))
        · exact hj _ (.inl ⟨later, hlater, rfl⟩) hidx
      · exact hj _ (.inr hcovers) hidx

/-- **The record reads as before, when a batch is written to it again.** -/
theorem retrieve_rebind {calls : List McpCallItem} (hlists : record.Lists calls)
    (hreplays : record.Replays calls) : (record.rebind calls).retrieve = record.retrieve :=
  (agrees_rebind hlists hreplays (agrees_refl record)).retrieve

/-! ## What a method of the builder leaves in the output -/

/-- Whatever the output has of a call, it has afterwards, or the message covers it. -/
structure Retains (record record' : ResponseRecord) : Prop where
  indexed : record.Indexed → record'.Indexed
  known : ∀ id, (record.outputIndex id).isSome → (record'.outputIndex id).isSome
  keeps : record.Indexed → ∀ call, record.Keeps call → record'.Keeps call

/-- What two steps retain is retained. -/
theorem Retains.trans (h : Retains record record') (h' : Retains record' record'') :
    Retains record record'' where
  indexed hindexed := h'.indexed (h.indexed hindexed)
  known id hid := h'.known id (h.known id hid)
  keeps hindexed call hcall := h'.keeps (h.indexed hindexed) call (h.keeps hindexed call hcall)

/-- Items and indexes that do not change are retained. -/
theorem retains_of_same (hitems : record'.outputItems = record.outputItems)
    (hindexes : record'.outputIndexes = record.outputIndexes)
    (hid : record'.messageId = record.messageId)
    (hs : record.messageStarted = true → record'.messageStarted = true) :
    Retains record record' where
  indexed h := ⟨fun id i hi => hitems ▸ h.lt id i (by rwa [outputIndex, ← hindexes]),
    fun id id' i hi hi' => h.unique id id' i (by rwa [outputIndex, ← hindexes])
      (by rwa [outputIndex, ← hindexes])⟩
  known id hknown := by rwa [outputIndex, hindexes]
  keeps _ call hcall := by
    rcases hcall with ⟨i, hi, hat⟩ | hcovers
    · exact .inl ⟨i, by rwa [outputIndex, hindexes], hitems ▸ hat⟩
    · exact .inr ⟨hs hcovers.1, hid ▸ hcovers.2⟩

/-- The message is written in its place. -/
theorem retains_messageItem (hs : record.messageStarted = true) :
    Retains record (record.addOutputItem record.messageItem).1 where
  indexed h := h.add _
  known _ h := isSome_index_add _ h
  keeps hindexed call hcall := by
    by_cases hid : call.id = record.messageId
    · exact .inr ((covers_add _ _).mpr ⟨hs, congrArg Subtype.val hid.symm⟩)
    · exact hcall.add hindexed hid

/-- The message is brought up to date in its place. -/
theorem retains_sync (record : ResponseRecord) : Retains record record.syncMessageItem := by
  rw [syncMessageItem]
  split_ifs with hs
  · exact retains_messageItem hs
  · exact retains_of_same rfl rfl rfl fun h => h

/-- The message gets its place. -/
theorem retains_ensureMessage (hs : record.messageStarted = false) (itemId : Option String) :
    Retains record (record.ensureMessage itemId).1 := by
  let named : ResponseRecord := { record with
    messageId := (itemId.bind nonempty?).getD record.messageId
    messageStarted := true }
  have hensure : (record.ensureMessage itemId).1 =
      { (named.addOutputItem named.messageItem).1 with
        messageOutputIndex := some (named.addOutputItem named.messageItem).2 } := by
    rw [ensureMessage, hs]
  -- The message has covered nothing so far, so its name may change.
  have hnamed : Retains record named :=
    ⟨fun h => ⟨h.lt, h.unique⟩, fun _ h => h, fun _ call hcall => .inl (hcall.resolve_right
      fun hcovers => absurd hcovers.1 (by simp [hs]))⟩
  rw [hensure]
  exact (hnamed.trans (retains_messageItem rfl)).trans (retains_of_same rfl rfl rfl fun h => h)

end ResponseRecord

/-- The calls that the events of a batch tell of as Apps. -/
def sideCalls (events : List Event) : List McpCallItem :=
  events.filterMap fun e => (sideCall e).map Prod.fst

/-- The calls beside the record are those of the parts. -/
theorem sideCalls_append (es fs : List Event) :
    sideCalls (es ++ fs) = sideCalls es ++ sideCalls fs := List.filterMap_append

variable {b : ResponsesEventBuilder} {r r' : List Event × ResponsesEventBuilder}

/-- A method that is about the message alone. -/
structure Mute (b : ResponsesEventBuilder) (r : List Event × ResponsesEventBuilder) : Prop where
  retains : b.record.Retains r.2.record
  completed : r.2.completedMcpCalls = b.completedMcpCalls
  silent : ∀ e ∈ r.1, sideCall e = none

/-- What two mute steps do is mute. -/
theorem Mute.append (h : Mute b r) (h' : Mute r.2 r') : Mute b (r.1 ++ r'.1, r'.2) where
  retains := h.retains.trans h'.retains
  completed := h'.completed.trans h.completed
  silent e he := (List.mem_append.mp he).elim (h.silent e) (h'.silent e)

/-- A method without sources tells of no App. -/
theorem Sourced.mute (h : Sourced [] b r) (hretains : b.record.Retains r.2.record)
    (hcompleted : r.2.completedMcpCalls = b.completedMcpCalls) : Mute b r where
  retains := hretains
  completed := hcompleted
  silent e he := by
    cases hside : sideCall e with
    | none => rfl
    | some x =>
      obtain ⟨source, hsource, -⟩ := h.events e he x hside
      exact absurd hsource List.not_mem_nil

/-- Doing nothing is mute. -/
theorem Mute.nil (b : ResponsesEventBuilder) : Mute b ([], b) :=
  (Sourced.nil b).mute (ResponseRecord.retains_of_same rfl rfl rfl fun h => h) rfl

/-- The start of a message is mute. -/
theorem startMessage_mute (itemId : Option String) (b : ResponsesEventBuilder) :
    Mute b (startMessage itemId b) := by
  have hsourced := startMessage_sourced itemId b
  cases hs : b.record.messageStarted with
  | false =>
    rw [startMessage_new hs] at hsourced ⊢
    exact hsourced.mute (ResponseRecord.retains_ensureMessage hs itemId) rfl
  | true =>
    unfold startMessage
    simp only [getRecord_bind, hs, if_true]
    exact .nil b

/-- A text that is set is mute. -/
theorem setOutputText_mute (text : String) (b : ResponsesEventBuilder) :
    Mute b ([], (setOutputText text b).2) := by
  have htext : b.record.Retains { b.record with outputText := text } :=
    ResponseRecord.retains_of_same rfl rfl rfl fun h => h
  exact (setOutputText_sourced text b).mute (htext.trans (ResponseRecord.retains_sync _)) rfl

/-- A text that is shown is mute. -/
theorem showText_mute (text delta : String) (b : ResponsesEventBuilder) :
    Mute b ([(textDelta delta (setOutputText text b).2).1],
      (textDelta delta (setOutputText text b).2).2) :=
  (showText_sourced text delta b).mute (setOutputText_mute text b).retains rfl

/-- A text that is appended is mute. -/
theorem appendText_mute (delta : String) (itemId : Option String) (b : ResponsesEventBuilder) :
    Mute b (appendText delta itemId b) :=
  (startMessage_mute itemId b).append (showText_mute _ delta _)

/-- A completed message is mute. -/
theorem syncCompletedMessage_mute (text : String) (itemId : Option String)
    (b : ResponsesEventBuilder) : Mute b (syncCompletedMessage text itemId b) := by
  have hstart := startMessage_mute itemId b
  simp only [syncCompletedMessage]
  rw [bind_apply, getRecord_bind]
  split_ifs
  · exact hstart
  · exact hstart
  · exact hstart.append (showText_mute _ _ _)
  · have happend := hstart.append (setOutputText_mute text _)
    simp only [List.append_nil] at happend
    exact happend

/-- The final text is mute. -/
theorem syncFinalText_mute (turn : Members) (b : ResponsesEventBuilder) :
    Mute b (syncFinalText turn b) := by
  simp only [syncFinalText]
  split_ifs
  · exact .nil b
  · exact syncCompletedMessage_mute _ _ b

/-- The end of a message is mute. -/
theorem finishMessage_mute (b : ResponsesEventBuilder) : Mute b (finishMessage b) := by
  have hsourced := finishMessage_sourced b
  unfold finishMessage at hsourced ⊢
  rw [getRecord_bind] at hsourced ⊢
  split_ifs at hsourced ⊢
  · exact .nil b
  · have hcompleted : b.record.Retains { b.record with messageCompleted := true } :=
      ResponseRecord.retains_of_same rfl rfl rfl fun h => h
    exact hsourced.mute (hcompleted.trans (ResponseRecord.retains_sync _)) rfl

/-- What keeps the output retains the record. -/
theorem KeepsOutput.retains {update : ResponseRecord → ResponseRecord} (h : KeepsOutput update)
    (record : ResponseRecord) : record.Retains (update record) := by
  obtain ⟨status, error, details, usage, heq⟩ := h record
  rw [heq]
  exact ResponseRecord.retains_of_same rfl rfl rfl fun h => h

/-- The terminal event is mute. -/
theorem terminate_mute {update : ResponseRecord → ResponseRecord} {body : Response → EventBody}
    (hupdate : KeepsOutput update) (hbody : ∀ r, (body r).terminal? = some r)
    (b : ResponsesEventBuilder) :
    Mute b ([(terminate update body b).1], (terminate update body b).2) :=
  (terminate_sourced hupdate hbody b).mute
    ((hupdate.retains b.record).trans (ResponseRecord.retains_sync _)) rfl

/-- The first events are mute. -/
theorem initialEvents_mute (b : ResponsesEventBuilder) : Mute b (initialEvents b) where
  retains := (ResponseRecord.retains_sync _).trans (ResponseRecord.retains_sync _)
  completed := rfl
  silent e he := by
    change e ∈ [_, _] at he
    simp only [List.mem_cons, List.not_mem_nil, or_false] at he
    rcases he with rfl | rfl <;> rfl

/-! ## The calls of a batch -/

/-- What a method leaves of the calls that its events tell of: the record lists them, the last item
of each is what it has, and they are over. -/
structure Carries (b : ResponsesEventBuilder) (r : List Event × ResponsesEventBuilder) : Prop where
  indexed : r.2.record.Indexed
  known : ∀ id, (b.record.outputIndex id).isSome → (r.2.record.outputIndex id).isSome
  completed : b.completedMcpCalls ⊆ r.2.completedMcpCalls
  keeps : ∀ call, call.id.val ∈ b.completedMcpCalls → b.record.Keeps call → r.2.record.Keeps call
  ended : ∀ call ∈ sideCalls r.1, call.id.val ∈ r.2.completedMcpCalls
  lists : r.2.record.Lists (sideCalls r.1)
  replays : r.2.record.Replays (sideCalls r.1)
  bare : ∀ e ∈ r.1, ∀ x, sideCall e = some x → x.2.2.allowedTools = []

/-- A mute step has no call beside the record. -/
theorem Mute.sideCalls (h : Mute b r) : sideCalls r.1 = [] :=
  List.filterMap_eq_nil_iff.mpr fun e he => by rw [h.silent e he]; rfl

/-- A mute step carries what is indexed. -/
theorem Mute.carries (h : Mute b r) (hindexed : b.record.Indexed) : Carries b r where
  indexed := h.retains.indexed hindexed
  known := h.retains.known
  completed := h.completed ▸ List.Subset.refl _
  keeps call _ hcall := h.retains.keeps hindexed call hcall
  ended call hcall := by
    rw [h.sideCalls] at hcall
    exact absurd hcall List.not_mem_nil
  lists call hcall := by
    rw [h.sideCalls] at hcall
    exact absurd hcall List.not_mem_nil
  replays := by
    rw [h.sideCalls]
    trivial
  bare e he x hx := by
    rw [h.silent e he] at hx
    cases hx

namespace ResponseRecord

variable {record record' : ResponseRecord}

/-- Calls that are kept are replayed as before. -/
theorem Replays.mono {calls : List McpCallItem} (h : record.Replays calls)
    (hkeeps : ∀ call ∈ calls, record.Keeps call → record'.Keeps call) : record'.Replays calls := by
  induction calls with
  | nil => trivial
  | cons call calls ih =>
    exact ⟨h.1.imp_right (hkeeps call List.mem_cons_self),
      ih h.2 fun later hlater => hkeeps later (List.mem_cons_of_mem _ hlater)⟩

/-- The calls of two lists are replayed together. -/
theorem Replays.append {calls calls' : List McpCallItem} (h : record.Replays calls)
    (h' : record.Replays calls') : record.Replays (calls ++ calls') := by
  induction calls with
  | nil => exact h'
  | cons call calls ih =>
    exact ⟨h.1.imp_left fun ⟨later, hlater, hid⟩ => ⟨later, List.mem_append_left _ hlater, hid⟩,
      ih h.2⟩

end ResponseRecord

/-- **A call that is over is not told of again.** -/
theorem Carries.append (h : Carries b r) (h' : Carries r.2 r') : Carries b (r.1 ++ r'.1, r'.2) where
  indexed := h'.indexed
  known id hid := h'.known id (h.known id hid)
  completed := List.Subset.trans h.completed h'.completed
  keeps call hover hcall := h'.keeps call (h.completed hover) (h.keeps call hover hcall)
  ended call hcall := by
    rw [sideCalls_append] at hcall
    exact (List.mem_append.mp hcall).elim (fun hcall => h'.completed (h.ended call hcall))
      (h'.ended call)
  lists call hcall := by
    rw [sideCalls_append] at hcall
    exact (List.mem_append.mp hcall).elim (fun hcall => h'.known _ (h.lists call hcall))
      (h'.lists call)
  replays := by
    rw [sideCalls_append]
    exact (h.replays.mono fun call hcall => h'.keeps call (h.ended call hcall)).append h'.replays
  bare e he := (List.mem_append.mp he).elim (h.bare e) (h'.bare e)

/-! ## One call -/

/-- The App that an item tells of. -/
abbrev McpCallItem.app (call : McpCallItem) : Option McpAppDescriptor :=
  call.itemMeta.bind (·.mcpApp)

/-- The call beside an item's event is the item's, where it has an App. -/
theorem sideCall_item (n i : ℕ) (call : McpCallItem) {body : EventBody}
    (hbody : body = .outputItemAdded i (.mcpCall call) ∨ body = .outputItemDone i (.mcpCall call)) :
    (sideCall ⟨n, body⟩).map Prod.fst = call.app.map fun _ => call := by
  have hside : sideCall ⟨n, body⟩ = (do
      let itemMeta ← call.itemMeta
      return (call, itemMeta, ← itemMeta.mcpApp)) := by
    rcases hbody with rfl | rfl <;> rfl
  rw [hside, McpCallItem.app]
  cases call.itemMeta with
  | none => rfl
  | some itemMeta => cases hiApp : itemMeta.mcpApp <;> simp [hiApp]

/-- An item tells of an App where its source names a resource, and the App has no tools yet. -/
theorem mcpCallItem_tools (source : Members) (completed : Bool) (b : ResponsesEventBuilder) :
    (mcpCallItem source completed b).1.app.isSome = (appResource source).isSome ∧
      ∀ descriptor ∈ (mcpCallItem source completed b).1.app, descriptor.allowedTools = [] := by
  have hmeta (callId server tool : String) :
      ((mcpMeta b.record source callId server tool).2.bind (·.mcpApp)).isSome =
        (appResource source).isSome ∧
      ∀ descriptor ∈ (mcpMeta b.record source callId server tool).2.bind (·.mcpApp),
        descriptor.allowedTools = [] := by
    simp only [mcpMeta]
    split
    · rename_i hnone
      have happ : appResource source = none := hnone
      rw [happ]
      split_ifs
      all_goals exact ⟨rfl, fun _ h => by cases h⟩
    · rename_i uri huri
      have happ : appResource source = some uri := huri
      rw [happ]
      refine ⟨rfl, fun descriptor hdescriptor => ?_⟩
      obtain rfl := Option.some.inj hdescriptor
      rfl
  obtain ⟨callId, server, tool, hitem⟩ : ∃ callId server tool,
      (mcpCallItem source completed b).1.itemMeta =
        addMcpResult (mcpMeta b.record source callId server tool).2 (source.get "result") :=
    ⟨_, _, _, rfl⟩
  rw [McpCallItem.app, hitem, addMcpResult_mcpApp]
  exact hmeta callId server tool

/-- A call of its own id, before it is over. -/
structure Opens (source : Members) (callId : NonemptyString) (b : ResponsesEventBuilder)
    (r : List Event × ResponsesEventBuilder) : Prop where
  indexed : r.2.record.Indexed
  known : ∀ id, (b.record.outputIndex id).isSome → (r.2.record.outputIndex id).isSome
  completed : r.2.completedMcpCalls = b.completedMcpCalls
  keeps : ∀ call, call.id ≠ callId → b.record.Keeps call → r.2.record.Keeps call
  calls : ∀ call ∈ sideCalls r.1, call.id = callId ∧ (appResource source).isSome
  bare : ∀ e ∈ r.1, ∀ x, sideCall e = some x → x.2.2.allowedTools = []

variable {source : Members} {callId : NonemptyString}

/-- Where nothing is emitted, nothing is opened. -/
theorem Opens.nil (h : b.record.Indexed) : Opens source callId b ([], b) :=
  ⟨h, fun _ h => h, rfl, fun _ _ h => h, fun _ h => absurd h List.not_mem_nil,
    fun _ h => absurd h List.not_mem_nil⟩

/-- Reading a call puts nothing into the output. -/
theorem mcpCallItem_retains (source : Members) (completed : Bool) (b : ResponsesEventBuilder) :
    b.record.Retains (mcpCallItem source completed b).2.record ∧
      (mcpCallItem source completed b).2.completedMcpCalls = b.completedMcpCalls := by
  obtain ⟨targets, hframe⟩ := mcpCallItem_frame source completed b
  rw [hframe]
  exact ⟨ResponseRecord.retains_of_same rfl rfl rfl fun h => h, rfl⟩

/-- An event that tells of the item of a call tells of the App its source names. -/
theorem sideCall_tools {e : Event} {x : McpCallItem × McpMeta × McpAppDescriptor}
    (hx : sideCall e = some x) {completed : Bool}
    (hitem : x.1 = (mcpCallItem source completed b).1) :
    (appResource source).isSome ∧ x.2.2.allowedTools = [] := by
  obtain ⟨happ, -⟩ := sideCall_call hx
  obtain ⟨hresource, hbare⟩ := mcpCallItem_tools source completed b
  rw [hitem] at happ
  exact ⟨by rw [← hresource, McpCallItem.app, happ]; rfl, hbare _ happ⟩

/-- A call that is emitted comes from one of the events. -/
theorem mem_sideCalls {events : List Event} {call : McpCallItem} (h : call ∈ sideCalls events) :
    ∃ e ∈ events, ∃ x, sideCall e = some x ∧ x.1 = call := by
  obtain ⟨e, he, hcall⟩ := List.mem_filterMap.mp h
  obtain ⟨x, hx, rfl⟩ := Option.map_eq_some_iff.mp hcall
  exact ⟨e, he, x, hx, rfl⟩

/-- A call that starts is opened under its id. -/
theorem startMcpCall_opens (h : b.record.Indexed) (hid : string? (source.get "id") = some callId) :
    Opens source callId b (startMcpCall source b) := by
  cases hindex : b.record.outputIndex callId with
  | some i =>
    rw [startMcpCall_known hid (by rw [hindex]; rfl)]
    exact .nil h
  | none =>
    obtain ⟨hretains, hcompleted⟩ := mcpCallItem_retains source false b
    have hitem : (mcpCallItem source false b).1.id = callId := mcpCallItem_id hid false b
    rw [startMcpCall_new hid hindex]
    exact
      { indexed := (hretains.indexed h).add _
        known := fun id hknown => ResponseRecord.isSome_index_add _ (hretains.known id hknown)
        completed := hcompleted
        keeps := fun call hne hcall => (hretains.keeps h call hcall).add (hretains.indexed h)
          (fun heq => hne (heq.trans hitem))
        calls := fun call hcall => by
          obtain ⟨e, he, x, hx, rfl⟩ := mem_sideCalls hcall
          have hcall := sideCall_started he hx
          exact ⟨hcall ▸ hitem, (sideCall_tools hx hcall).1⟩
        bare := fun e he x hx => (sideCall_tools hx (sideCall_started he hx)).2 }

/-- A call that starts leaves the record indexed. -/
theorem startMcpCall_indexed (h : b.record.Indexed) (source : Members) :
    (startMcpCall source b).2.record.Indexed := by
  cases hid : string? (source.get "id") with
  | none =>
    have heq : startMcpCall source = pure [] := by rw [startMcpCall, hid]
    rw [heq]
    exact h
  | some callId => exact (startMcpCall_opens h hid).indexed

/-- The last item of a call is in the output. -/
theorem replays_concat {record : ResponseRecord} {calls : List McpCallItem} {item : McpCallItem}
    (hids : ∀ call ∈ calls, call.id = item.id) (hitem : record.Keeps item) :
    record.Replays (calls ++ [item]) := by
  induction calls with
  | nil => exact ⟨.inr hitem, trivial⟩
  | cons call calls ih =>
    refine ⟨.inl ⟨item, List.mem_append_right _ List.mem_cons_self, ?_⟩,
      ih fun later hlater => hids later (List.mem_cons_of_mem _ hlater)⟩
    exact (hids call List.mem_cons_self).symm

/-- The events of a call's end carry it once. -/
theorem sideCalls_ended (n i : ℕ) (callId : String) (call : McpCallItem) :
    sideCalls [⟨n, if call.status = .failed then .mcpCallFailed callId i
      else .mcpCallCompleted callId i⟩, ⟨n + 1, .outputItemDone i (.mcpCall call)⟩] =
        (call.app.map fun _ => call).toList := by
  have hfirst : sideCall ⟨n, if call.status = .failed then .mcpCallFailed callId i
      else .mcpCallCompleted callId i⟩ = none := by split_ifs <;> rfl
  have hdone := sideCall_item (n + 1) i call (.inr rfl)
  rw [sideCalls, List.filterMap_cons, hfirst, Option.map_none, List.filterMap_cons, hdone]
  cases call.app <;> rfl

/-- A call that ends is emitted once, where it has an App. -/
theorem endMcpCall_calls (source : Members) (callId : String) (b : ResponsesEventBuilder) :
    sideCalls (endMcpCall source callId b).1 = ((mcpCallItem source true b).1.app.map
      fun _ => (mcpCallItem source true b).1).toList := by
  rw [endMcpCall_eq]
  exact sideCalls_ended _ _ _ _

/-- **The call is over**, and what its last event tells is in the record. -/
theorem Opens.end (h : Opens source callId b r) (hid : string? (source.get "id") = some callId)
    (hopen : callId.val ∉ b.completedMcpCalls) :
    Carries b (r.1 ++ (endMcpCall source callId r.2).1, (endMcpCall source callId r.2).2) := by
  obtain ⟨hretains, hcompleted⟩ := mcpCallItem_retains source true r.2
  have hindexed := hretains.indexed h.indexed
  have hitem : (mcpCallItem source true r.2).1.id = callId := mcpCallItem_id hid true r.2
  have hkeeps := ResponseRecord.keeps_add hindexed (mcpCallItem source true r.2).1
  have hover : (endMcpCall source callId r.2).2.completedMcpCalls =
      callId.val :: b.completedMcpCalls := by
    rw [← h.completed, ← hcompleted]
    rfl
  have hcalls : sideCalls (r.1 ++ (endMcpCall source callId r.2).1) =
      sideCalls r.1 ++ ((mcpCallItem source true r.2).1.app.map
        fun _ => (mcpCallItem source true r.2).1).toList := by
    rw [sideCalls_append, endMcpCall_calls]
  have hids : ∀ call ∈ sideCalls (r.1 ++ (endMcpCall source callId r.2).1), call.id = callId := by
    intro call hcall
    rw [hcalls] at hcall
    rcases List.mem_append.mp hcall with hcall | hcall
    · exact (h.calls call hcall).1
    · obtain ⟨-, -, rfl⟩ := Option.map_eq_some_iff.mp (Option.mem_toList.mp hcall)
      exact hitem
  refine ⟨hindexed.add _, fun id hknown => ?_, fun id hid => ?_, fun call hcall hkept => ?_,
    fun call hcall => ?_, fun call hcall => ?_, ?_, fun e he x hx => ?_⟩
  · exact ResponseRecord.isSome_index_add _ (hretains.known id (h.known id hknown))
  · rw [hover]
    exact List.mem_cons_of_mem _ hid
  · have hne : call.id ≠ callId := fun heq => hopen (heq ▸ hcall)
    exact (hretains.keeps h.indexed call (h.keeps call hne hkept)).add hindexed
      fun heq => hne (heq.trans hitem)
  · rw [hover, hids call hcall]
    exact List.mem_cons_self
  · rw [hids call hcall, ← hitem]
    have hadded := (ResponseRecord.added_addOutputItem (mcpCallItem source true r.2).2.record
      (.mcpCall (mcpCallItem source true r.2).1) hindexed.lt).index
    exact Option.isSome_iff_exists.mpr ⟨_, hadded⟩
  · rw [hcalls]
    obtain ⟨hresource, -⟩ := mcpCallItem_tools source true r.2
    cases happ : (mcpCallItem source true r.2).1.app with
    | some descriptor =>
      exact replays_concat (fun call hcall => ((h.calls call hcall).1.trans hitem.symm)) hkeeps
    | none =>
      -- The call names no resource, so no event of it tells of an App.
      have hnone : sideCalls r.1 = [] := List.eq_nil_iff_forall_not_mem.mpr fun call hcall => by
        rw [happ] at hresource
        exact absurd (h.calls call hcall).2 (by rw [← hresource]; decide)
      rw [hnone]
      trivial
  · rcases List.mem_append.mp he with he | he
    · exact h.bare e he x hx
    · exact (sideCall_tools hx (sideCall_ended he hx)).2

/-- A call that is completed carries its item. -/
theorem completeMcpCall_carries (h : b.record.Indexed) (source : Members) :
    Carries b (completeMcpCall source b) := by
  unfold completeMcpCall
  cases hid : string? (source.get "id") with
  | none => exact (Mute.nil b).carries h
  | some callId =>
    dsimp only
    rw [getBuilder_bind]
    split_ifs with hdone
    · exact (Mute.nil b).carries h
    · rw [getRecord_bind, bind_apply]
      split_ifs
      · exact (startMcpCall_opens h hid).end hid hdone
      · exact (Opens.nil h).end hid hdone

/-- The calls of a turn carry their items. -/
theorem completeMcpCalls_carries (h : b.record.Indexed) (items : List Json) :
    Carries b (completeMcpCalls items b) := by
  induction items generalizing b with
  | nil => exact (Mute.nil b).carries h
  | cons item items ih =>
    rw [completeMcpCalls]
    cases (dict? item).filter fun ms => hasType ms "mcpToolCall" with
    | none => exact ((Mute.nil b).carries h).append (ih h)
    | some source =>
      have hfirst := completeMcpCall_carries h source
      exact hfirst.append (ih hfirst.indexed)

/-! ## The end of a Response -/

/-- What a batch says of the Response's end is what the record says. -/
def Snapshot (r : List Event × ResponsesEventBuilder) : Prop :=
  ∀ e ∈ r.1, ∀ response ∈ e.body.terminal?, r.2.terminal = true ∧ r.2.record.retrieve = response

/-- An event without an outcome is not terminal. -/
theorem terminal?_of_outcome? {body : EventBody} (h : body.outcome? = none) :
    body.terminal? = none := by
  cases body <;> first | rfl | cases h

/-- What is plain is a snapshot. -/
theorem Plain.snapshot (h : Plain b r) : Snapshot r := fun e he response hresponse => by
  rw [terminal?_of_outcome? (h.silent e he)] at hresponse
  cases hresponse

/-- The last event has the response of the record, as it is read later. -/
theorem snapshot_terminate {events : List Event} (hsilent : ∀ e ∈ events, e.body.outcome? = none)
    {update : ResponseRecord → ResponseRecord} {body : Response → EventBody}
    (hbody : ∀ r, (body r).terminal? = some r) (b : ResponsesEventBuilder) :
    Snapshot (events ++ [(terminate update body b).1], (terminate update body b).2) := by
  intro e he response hresponse
  rcases List.mem_append.mp he with he | he
  · rw [terminal?_of_outcome? (hsilent e he)] at hresponse
    cases hresponse
  · obtain rfl := List.mem_singleton.mp he
    refine ⟨rfl, ?_⟩
    have hsame := (hbody (update b.record).syncMessageItem.response).symm.trans hresponse
    rw [← Option.some.inj hsame]
    exact ResponseRecord.retrieve_sync (update b.record)

/-- What a batch brings: the calls its events tell of, and the end of the Response. -/
structure Batch (b : ResponsesEventBuilder) (r : List Event × ResponsesEventBuilder) : Prop where
  carries : Carries b r
  snapshot : Snapshot r

/-- The record is brought to its end. -/
theorem Carries.ends (h : Carries b r) (hplain : Plain b r)
    {before update : ResponseRecord → ResponseRecord} {body : Response → EventBody}
    (hbefore : KeepsOutput before) (hupdate : KeepsOutput update)
    (hbody : ∀ r, (body r).terminal? = some r) :
    Batch b
      ((do
        let finished ← finishMessage
        setRecord (before (← getRecord))
        let ended ← terminate update body
        return r.1 ++ finished ++ [ended]) r.2) := by
  have hfinished : Mute r.2 ((finishMessage r.2).1,
      { (finishMessage r.2).2 with record := before (finishMessage r.2).2.record }) :=
    ⟨(finishMessage_mute r.2).retains.trans (hbefore.retains _), (finishMessage_mute r.2).completed,
      (finishMessage_mute r.2).silent⟩
  have hcarries := h.append (hfinished.carries h.indexed)
  refine ⟨hcarries.append ((terminate_mute hupdate hbody _).carries hcarries.indexed), ?_⟩
  exact snapshot_terminate (hplain.append (finishMessage_plain r.2)).silent hbody _

/-- A Response that ends with an error ends with its message. -/
theorem batch_error (h : b.record.Indexed) {update : ResponseRecord → ResponseRecord}
    {body : Response → EventBody} (hupdate : KeepsOutput update)
    (hbody : ∀ r, (body r).terminal? = some r) :
    Batch b
      ((do
        if (← getBuilder).terminal then return []
        let finished ← finishMessage
        let ended ← terminate update body
        return finished ++ [ended]) b) := by
  have hnothing : Batch b ([], b) := ⟨(Mute.nil b).carries h, (Plain.nil b).snapshot⟩
  rw [getBuilder_bind]
  split_ifs
  · exact hnothing
  · exact hnothing.carries.ends (Plain.nil b)
      (fun r => ⟨r.status, r.error, r.incompleteDetails, r.usage, rfl⟩) hupdate hbody

/-- A failure is a batch. -/
theorem fail_batch (h : b.record.Indexed) (message : String) :
    Batch b (ResponsesEventBuilder.fail message b) := by
  have hupdate : KeepsOutput fun r =>
      { r with status := .failed, error := some ⟨"codex_execution_failed", message⟩ } :=
    fun r => ⟨_, _, r.incompleteDetails, r.usage, rfl⟩
  have hbody : ∀ r, (EventBody.responseFailed r).terminal? = some r := fun _ => rfl
  exact batch_error h hupdate hbody

/-- An incomplete Response is a batch. -/
theorem incomplete_batch (h : b.record.Indexed) (reason : String) :
    Batch b (incomplete reason b) := by
  have hupdate : KeepsOutput fun r =>
      { r with status := .incomplete, incompleteDetails := some reason } :=
    fun r => ⟨_, r.error, _, r.usage, rfl⟩
  have hbody : ∀ r, (EventBody.responseIncomplete r).terminal? = some r := fun _ => rfl
  exact batch_error h hupdate hbody

/-- A turn's end is a batch. -/
theorem completeTurn_batch (h : b.record.Indexed) (turn : Members) :
    Batch b (completeTurn turn b) := by
  unfold completeTurn
  rw [getBuilder_bind]
  split_ifs
  · exact ⟨(Mute.nil b).carries h, (Plain.nil b).snapshot⟩
  · obtain ⟨update, body, hend, hupdate, hbody⟩ := endTurn_eq turn
    have hcalls := completeMcpCalls_carries h ((list? (turn.get "items")).getD [])
    have htext := hcalls.append ((syncFinalText_mute turn _).carries hcalls.indexed)
    have hplain := (completeMcpCalls_plain ((list? (turn.get "items")).getD []) b).append
      (syncFinalText_plain turn _)
    rw [hend, bind_apply, bind_apply]
    exact htext.ends hplain
      (fun r => ⟨r.status, r.error, r.incompleteDetails, usageFromTurn turn, rfl⟩) hupdate hbody

/-- **Every batch with the end of the Response brings the last items of its calls.** -/
theorem consume_batch (h : b.record.Indexed) (notification : Members) :
    (consume notification b).2.record.Indexed ∧
      ((∀ e ∈ (consume notification b).1, e.body.terminal? = none) ∨
        Batch b (consume notification b)) := by
  have hbatch {r : List Event × ResponsesEventBuilder} (h : Batch b r) :
      r.2.record.Indexed ∧ ((∀ e ∈ r.1, e.body.terminal? = none) ∨ Batch b r) :=
    ⟨h.carries.indexed, .inr h⟩
  have hplain {r : List Event × ResponsesEventBuilder} (h : r.2.record.Indexed) (hr : Plain b r) :
      r.2.record.Indexed ∧ ((∀ e ∈ r.1, e.body.terminal? = none) ∨ Batch b r) :=
    ⟨h, .inl fun e he => terminal?_of_outcome? (hr.silent e he)⟩
  have hnothing := hplain h (Plain.nil b)
  unfold consume
  cases str? (notification.get "method") with
  | none => exact hnothing
  | some method =>
  cases dict? (notification.get "params") with
  | none => exact hnothing
  | some params =>
  dsimp only
  by_cases h1 : method = "item/started"
  · rw [if_pos h1]
    unfold consumeItemStarted
    cases (dict? (params.get "item")).filter fun ms => hasType ms "mcpToolCall" with
    | none => exact hnothing
    | some item =>
      exact hplain (startMcpCall_indexed h item) (startMcpCall_plain item b)
  rw [if_neg h1]
  by_cases h2 : method = "item/agentMessage/delta"
  · rw [if_pos h2]
    unfold consumeDelta
    cases string? (params.get "delta") with
    | none => exact hnothing
    | some delta =>
      exact hplain ((appendText_mute delta _ b).retains.indexed h) (appendText_plain delta _ b)
  rw [if_neg h2]
  by_cases h3 : method = "item/completed"
  · rw [if_pos h3]
    unfold consumeItemCompleted
    cases dict? (params.get "item") with
    | none => exact hnothing
    | some item =>
      dsimp only
      split_ifs
      · exact hplain ((syncCompletedMessage_mute _ _ b).retains.indexed h)
          (syncCompletedMessage_plain _ _ b)
      · exact hplain (completeMcpCall_carries h item).indexed (completeMcpCall_plain item b)
      · exact hnothing
  rw [if_neg h3]
  by_cases h4 : method = "turn/completed"
  · rw [if_pos h4]
    exact hbatch (completeTurn_batch h _)
  rw [if_neg h4]
  split_ifs
  · unfold consumeError
    split_ifs
    · exact hnothing
    · exact hbatch (fail_batch h _)
  · exact hnothing

/-- The record reads the same after the batch has been written to it again. -/
theorem Batch.retrieve (h : Batch b r) : (r.2.record.rebind (sideCalls r.1)).retrieve =
    r.2.record.retrieve := ResponseRecord.retrieve_rebind h.carries.lists h.carries.replays

end CodexGateway.Adapter
