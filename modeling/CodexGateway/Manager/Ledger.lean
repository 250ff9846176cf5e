import CodexGateway.Manager.Recovery
import CodexGateway.Manager.Retire
import Mathlib.Data.List.Nodup

/-!
# Manager/Ledger — the operations of a Workspace, by their keys

An operation of a recoverable Workspace is found by its key: the generation that a checkpoint saves,
the revision that a restore brings back, the Workspace that a retire deletes.  `Ledger` says what the
table of operations and the row of the Workspace have to do with each other, and every transaction of
the Manager keeps it.
-/

namespace CodexGateway.Manager

/-! ## Keys -/

/-- What the key of an operation stands for. -/
inductive OpKey where
  | checkpoint (generation : ℕ)
  | restore (revisionId : String)
  | retire
deriving DecidableEq

namespace OpKey

/-- The kind of the operation that a key is for. -/
def kind : OpKey → OperationKind
  | .checkpoint _ => .checkpoint
  | .restore _ => .restore
  | .retire => .retire

/-- What the operation is asked for. -/
def input : OpKey → OperationInput
  | .checkpoint generation => .generation generation
  | .restore revisionId => .revision revisionId
  | .retire => .empty

/-- The key as it is written. -/
def text (workspaceId : String) : OpKey → String
  | .checkpoint generation => checkpointKey workspaceId generation
  | .restore revisionId => s!"restore:{workspaceId}:{revisionId}"
  | .retire => s!"retire:{workspaceId}"

theorem checkpointKey_injective {workspaceId : String} {g g' : ℕ}
    (h : checkpointKey workspaceId g = checkpointKey workspaceId g') : g = g' := by
  have hrepr : g.repr = g'.repr := by simpa [checkpointKey] using h
  have hdigits := congrArg String.toList hrepr
  rw [Nat.toList_repr, Nat.toList_repr] at hdigits
  rw [← Nat.ofDigitChars_ten_toDigits (n := g), hdigits, Nat.ofDigitChars_ten_toDigits]

/-- **A key stands for one thing only.** -/
theorem text_injective {workspaceId : String} {k k' : OpKey}
    (h : k.text workspaceId = k'.text workspaceId) : k = k' := by
  have hlist := congrArg String.toList h
  cases k <;> cases k'
  case checkpoint.checkpoint g g' => rw [checkpointKey_injective h]
  case restore.restore r r' =>
    have hrevision : r = r' := by simpa [text, toString] using h
    rw [hrevision]
  case retire.retire => rfl
  all_goals
    simp [text, checkpointKey, toString] at hlist

end OpKey

/-- A row of the operations of a Workspace. -/
abbrev Operation := OperationRecord OperationInput OperationResult

/-- The operation of a key. -/
structure Keyed (workspaceId : String) (operation : Operation) (k : OpKey) : Prop where
  key : operation.idempotencyKey = k.text workspaceId
  kind : operation.operation = k.kind
  owner : operation.workspaceId = workspaceId
  input : operation.input = k.input

theorem Keyed.unique {workspaceId : String} {operation : Operation} {k k' : OpKey}
    (h : Keyed workspaceId operation k) (h' : Keyed workspaceId operation k') : k = k' :=
  OpKey.text_injective (h.key.symm.trans h'.key)

/-- What an update leaves of an operation. -/
structure SameOp (operation operation' : Operation) : Prop where
  id : operation'.id = operation.id
  key : operation'.idempotencyKey = operation.idempotencyKey
  kind : operation'.operation = operation.operation
  owner : operation'.workspaceId = operation.workspaceId
  input : operation'.input = operation.input

theorem SameOp.refl (operation : Operation) : SameOp operation operation := ⟨rfl, rfl, rfl, rfl, rfl⟩

theorem SameOp.trans {o m o' : Operation} (h : SameOp o m) (h' : SameOp m o') : SameOp o o' :=
  ⟨h'.id.trans h.id, h'.key.trans h.key, h'.kind.trans h.kind, h'.owner.trans h.owner,
    h'.input.trans h.input⟩

theorem SameOp.keyed_iff {workspaceId : String} {o o' : Operation} (h : SameOp o o') (k : OpKey) :
    Keyed workspaceId o' k ↔ Keyed workspaceId o k := by
  constructor
  · exact fun hk => ⟨h.key ▸ hk.key, h.kind ▸ hk.kind, h.owner ▸ hk.owner, h.input ▸ hk.input⟩
  · exact fun hk => ⟨h.key.trans hk.key, h.kind.trans hk.kind, h.owner.trans hk.owner,
      h.input.trans hk.input⟩

theorem sameOp_update (operation : Operation) (status : OperationStatus)
    (phase : Option OperationPhase) (result : Option OperationResult) (error : Option String)
    (now : ℤ) : SameOp operation (operation.update status phase result error now) :=
  ⟨rfl, rfl, rfl, rfl, rfl⟩

/-- **Operations are added and updated, but none goes.** -/
def Persists (db db' : Tables) : Prop := ∀ o ∈ db.operations, ∃ o' ∈ db'.operations, SameOp o o'

theorem Persists.refl (db : Tables) : Persists db db := fun o ho => ⟨o, ho, .refl o⟩

theorem Persists.trans {db m db' : Tables} (h : Persists db m) (h' : Persists m db') :
    Persists db db' := by
  intro o ho
  obtain ⟨o₁, ho₁, hsame⟩ := h o ho
  obtain ⟨o₂, ho₂, hsame'⟩ := h' o₁ ho₁
  exact ⟨o₂, ho₂, hsame.trans hsame'⟩

theorem Persists.of_eq {db db' : Tables} (h : db'.operations = db.operations) :
    Persists db db' := fun o ho => ⟨o, h ▸ ho, .refl o⟩

/-! ## Updates -/

section Updated

variable {db db' : Tables} {operationId : String} {status : OperationStatus}

/-- The operation with the id has got the status; the others are as they were. -/
structure Updated (operationId : String) (status : OperationStatus) (db db' : Tables) : Prop where
  workspaces : db'.workspaces = db.workspaces
  operations : ∃ f : Operation → Operation, db'.operations = db.operations.map f ∧
    (∀ o, SameOp o (f o)) ∧ (∀ o, o.id ≠ operationId → f o = o) ∧
      ∀ o, o.id = operationId → (f o).status = status

theorem Updated.of_map {g : Operation → Operation} (hg : ∀ o, SameOp o (g o))
    (hstatus : ∀ o, (g o).status = status) (hworkspaces : db'.workspaces = db.workspaces)
    (hoperations : db'.operations =
      db.operations.map fun o => if o.id = operationId then g o else o) :
    Updated operationId status db db' := by
  refine ⟨hworkspaces, _, hoperations, fun o => ?_, fun o ho => if_neg ho, fun o ho => ?_⟩
  · by_cases ho : o.id = operationId
    · simpa only [if_pos ho] using hg o
    · simpa only [if_neg ho] using SameOp.refl o
  · exact (congrArg _ (if_pos ho)).trans (hstatus o)

theorem updateOperation_updated {phase : Option OperationPhase} {result : Option OperationResult}
    {error : Option String} {now : ℤ}
    (h : updateOperation db operationId status phase result error now = .ok db') :
    Updated operationId status db db' := by
  rw [updateOperation] at h
  split_ifs at h
  obtain rfl := Except.ok.inj h
  exact .of_map (fun o => sameOp_update o status phase result error now) (fun _ => rfl) rfl rfl

theorem endOperation_updated (db : Tables) (operationId : String) (status : OperationStatus)
    (result : Option OperationResult) (error : Option String) (now : ℤ) :
    Updated operationId status db (endOperation db operationId status result error now) := by
  rw [endOperation]
  cases h : updateOperation db operationId status none result error now with
  | ok db' => exact updateOperation_updated h
  | error e =>
    -- there is no such operation
    rw [updateOperation] at h
    split_ifs at h with hnone
    simp only [findOperation, Option.isNone_iff_eq_none, List.find?_eq_none,
      decide_eq_true_eq] at hnone
    refine .of_map (fun o => sameOp_update o status none result error now) (fun _ => rfl) rfl ?_
    rw [List.map_congr_left fun o ho => if_neg (hnone o ho), List.map_id']
    rfl

theorem commitRevision_updated {workspaceId revisionId : String} {generation : ℕ}
    {result : OperationResult} {now : ℤ} {row : WorkspaceRecord}
    (h : commitRevision db workspaceId operationId revisionId generation result now =
      .ok (db', row)) :
    Updated operationId .succeeded (db.putWorkspace workspaceId row) db' := by
  have hworkspaces : db'.workspaces = (db.putWorkspace workspaceId row).workspaces :=
    (commitRevision_ok h).choose_spec.2.2.2.2.2.2
  rw [commitRevision] at h
  split at h
  · cases h
  · split_ifs at h
    obtain ⟨rfl, -⟩ := Prod.mk.inj (Except.ok.inj h)
    exact .of_map (fun o => sameOp_update o .succeeded o.phase (some result) none now)
      (fun _ => rfl) hworkspaces rfl

theorem Updated.persists (h : Updated operationId status db db') : Persists db db' := by
  obtain ⟨f, hf, hsame, -⟩ := h.operations
  exact fun o ho => ⟨f o, hf ▸ List.mem_map_of_mem ho, hsame o⟩

/-- **An operation is as it was, or it is the one that has got the status.** -/
theorem Updated.mem (h : Updated operationId status db db') {o' : Operation}
    (ho' : o' ∈ db'.operations) : ∃ o ∈ db.operations, SameOp o o' ∧
      (o.id ≠ operationId ∧ o' = o ∨ o.id = operationId ∧ o'.status = status) := by
  obtain ⟨f, hf, hsame, hother, hstatus⟩ := h.operations
  rw [hf] at ho'
  obtain ⟨o, ho, rfl⟩ := List.mem_map.mp ho'
  refine ⟨o, ho, hsame o, ?_⟩
  by_cases hid : o.id = operationId
  · exact .inr ⟨hid, hstatus o hid⟩
  · exact .inl ⟨hid, hother o hid⟩

theorem Updated.map_eq (h : Updated operationId status db db') {p : Operation → String}
    (hp : ∀ o o', SameOp o o' → p o' = p o) : db'.operations.map p = db.operations.map p := by
  obtain ⟨f, hf, hsame, -⟩ := h.operations
  rw [hf, List.map_map]
  exact List.map_congr_left fun o _ => hp o _ (hsame o)

end Updated

/-! ## New operations -/

/-- **The operation of a key is found, or it is new.** -/
theorem createOperation_cases {db db' : Tables} {operationId workspaceId : String} {k : OpKey}
    {o : Operation} {created : Bool} {now : ℤ}
    (h : createOperation db operationId k.kind workspaceId none (k.text workspaceId) k.input now =
      .ok (db', o, created)) :
    db'.workspaces = db.workspaces ∧ o ∈ db'.operations ∧
      (db'.operations = db.operations ∧ o.idempotencyKey = k.text workspaceId ∧ created = false ∨
      (∀ p ∈ db.operations, p.idempotencyKey ≠ k.text workspaceId ∧ p.id ≠ o.id) ∧
        (db.workspaces workspaceId).isSome ∧ Keyed workspaceId o k ∧ o.status = .pending ∧
        created = true ∧ db'.operations = db.operations ++ [o]) := by
  rw [createOperation] at h
  split at h
  · rename_i existing hfind
    obtain ⟨rfl, he⟩ := Prod.mk.inj (Except.ok.inj h)
    obtain ⟨rfl, rfl⟩ := Prod.mk.inj he
    exact ⟨rfl, List.mem_of_find?_eq_some hfind,
      .inl ⟨rfl, by simpa using List.find?_some hfind, rfl⟩⟩
  · rename_i hfind
    split_ifs at h with hid hrow
    obtain ⟨rfl, he⟩ := Prod.mk.inj (Except.ok.inj h)
    obtain ⟨rfl, rfl⟩ := Prod.mk.inj he
    simp only [List.find?_eq_none, decide_eq_true_eq] at hfind
    simp only [findOperation, List.find?_isSome, decide_eq_true_eq, not_exists, not_and] at hid
    exact ⟨rfl, by simp, .inr ⟨fun p hp => ⟨hfind p hp, hid p hp⟩, by simpa [Option.isSome_iff_ne_none]
      using hrow, ⟨rfl, rfl, rfl, rfl⟩, rfl, rfl, rfl⟩⟩

/-! ## The ledger -/

/-- What the Workspace has had is in its head or in no volume any more. -/
def WorkspaceStatus.saved : WorkspaceStatus → Bool
  | .detachedDirty | .running | .checkpointing => false
  | _ => true

/-- **What the operations and the row have to do with each other.** -/
structure Ledger (workspaceId : String) (db : Tables) : Prop where
  keyed : ∀ o ∈ db.operations, ∃ k, Keyed workspaceId o k
  ids : (db.operations.map (·.id)).Nodup
  keys : (db.operations.map (·.idempotencyKey)).Nodup
  gone : db.workspaces workspaceId = none → db.operations = []
  running : ∀ row, db.workspaces workspaceId = some row →
    (row.activeSandboxId ≠ none ↔ row.status = .running)
  past : ∀ row, db.workspaces workspaceId = some row → ∀ o ∈ db.operations, ∀ g,
    o.idempotencyKey = checkpointKey workspaceId g → g ≤ row.generation
  unsaved : ∀ row, db.workspaces workspaceId = some row → ∀ o ∈ db.operations,
    o.idempotencyKey = checkpointKey workspaceId row.generation → o.status = .succeeded →
      row.status.saved = true

/-- What a transaction does to the row. -/
structure Moves (row row' : WorkspaceRecord) : Prop where
  running : row'.activeSandboxId ≠ none ↔ row'.status = .running
  later : row.generation ≤ row'.generation
  saved : row'.generation = row.generation → row.status.saved = true → row'.status.saved = true

section Ledger

variable {ws : String} {db db' : Tables} {row row' : WorkspaceRecord} {now : ℤ}

theorem ledger_empty : Ledger ws Db.empty where
  keyed := fun _ h => by cases h
  ids := .nil
  keys := .nil
  gone := fun _ => rfl
  running := fun _ h => by cases h
  past := fun _ h => by cases h
  unsaved := fun _ h => by cases h

/-- Two operations with one key are one. -/
theorem Ledger.unique (h : Ledger ws db) {o p : Operation} (ho : o ∈ db.operations)
    (hp : p ∈ db.operations) (hkey : o.idempotencyKey = p.idempotencyKey) : o = p :=
  List.inj_on_of_nodup_map h.keys ho hp hkey

theorem Ledger.unique_id (h : Ledger ws db) {o p : Operation} (ho : o ∈ db.operations)
    (hp : p ∈ db.operations) (hid : o.id = p.id) : o = p :=
  List.inj_on_of_nodup_map h.ids ho hp hid

/-- The operation that is found by a key is the operation of that key. -/
theorem Ledger.keyed_of_key (h : Ledger ws db) {o : Operation} (ho : o ∈ db.operations) {k : OpKey}
    (hkey : o.idempotencyKey = k.text ws) : Keyed ws o k := by
  obtain ⟨k', hk'⟩ := h.keyed o ho
  rwa [OpKey.text_injective (hkey.symm.trans hk'.key)]

theorem Ledger.idle (h : Ledger ws db) (hrow : db.workspaces ws = some row)
    (hstatus : row.status ≠ .running) : row.activeSandboxId = none := by
  by_contra hactive
  exact hstatus ((h.running row hrow).mp hactive)

/-- Only the operations of the Workspace and its row are looked at. -/
theorem Ledger.congr (h : Ledger ws db) (hworkspaces : db'.workspaces ws = db.workspaces ws)
    (hoperations : db'.operations = db.operations) : Ledger ws db' where
  keyed := hoperations ▸ h.keyed
  ids := hoperations ▸ h.ids
  keys := hoperations ▸ h.keys
  gone := fun hnone => hoperations.trans (h.gone (hworkspaces.symm.trans hnone))
  running := fun row hrow => h.running row (hworkspaces.symm.trans hrow)
  past := fun row hrow => hoperations ▸ h.past row (hworkspaces.symm.trans hrow)
  unsaved := fun row hrow => hoperations ▸ h.unsaved row (hworkspaces.symm.trans hrow)

/-- **An operation succeeds where what it has saved is saved.** -/
theorem Ledger.updated (h : Ledger ws db) {operationId : String} {status : OperationStatus}
    (hu : Updated operationId status db db')
    (hsaved : status = .succeeded → ∀ row, db.workspaces ws = some row → row.status.saved = true) :
    Ledger ws db' where
  keyed := fun o' ho' => by
    obtain ⟨o, ho, hsame, -⟩ := hu.mem ho'
    obtain ⟨k, hk⟩ := h.keyed o ho
    exact ⟨k, (hsame.keyed_iff k).mpr hk⟩
  ids := by rw [hu.map_eq fun _ _ hsame => hsame.id]; exact h.ids
  keys := by rw [hu.map_eq fun _ _ hsame => hsame.key]; exact h.keys
  gone := fun hnone => by
    obtain ⟨f, hf, -⟩ := hu.operations
    rw [hf, h.gone (hu.workspaces ▸ hnone)]
    rfl
  running := fun row hrow => h.running row (hu.workspaces ▸ hrow)
  past := fun row hrow o' ho' g hkey => by
    obtain ⟨o, ho, hsame, -⟩ := hu.mem ho'
    exact h.past row (hu.workspaces ▸ hrow) o ho g (hsame.key ▸ hkey)
  unsaved := fun row hrow o' ho' hkey hsucceeded => by
    obtain ⟨o, ho, hsame, ⟨-, rfl⟩ | ⟨-, hstatus⟩⟩ := hu.mem ho'
    · exact h.unsaved row (hu.workspaces ▸ hrow) o' ho hkey hsucceeded
    · exact hsaved (hstatus.symm.trans hsucceeded) row (hu.workspaces ▸ hrow)

/-- The row is written. -/
theorem Ledger.put (h : Ledger ws db) (hrow : db.workspaces ws = some row) (hm : Moves row row') :
    Ledger ws (db.putWorkspace ws row') := by
  have hput {r : WorkspaceRecord} (hr : (db.putWorkspace ws row').workspaces ws = some r) :
      row' = r := Option.some.inj ((Db.putWorkspace_workspaces ..).symm.trans hr)
  refine ⟨h.keyed, h.ids, h.keys, fun hnone => ?_, fun r hr => ?_, fun r hr o ho g hkey => ?_,
    fun r hr o ho hkey hsucceeded => ?_⟩
  · rw [Db.putWorkspace_workspaces] at hnone
    cases hnone
  · obtain rfl := hput hr
    exact hm.running
  · obtain rfl := hput hr
    exact Nat.le_trans (h.past row hrow o ho g hkey) hm.later
  · obtain rfl := hput hr
    have hsame : row'.generation = row.generation :=
      Nat.le_antisymm (h.past row hrow o ho _ hkey) hm.later
    exact hm.saved hsame (h.unsaved row hrow o ho (hsame ▸ hkey) hsucceeded)

/-- **An operation is created for what is at hand.** -/
theorem Ledger.create (h : Ledger ws db) {operationId : String} {k : OpKey} {o : Operation}
    {created : Bool} (hpast : ∀ g, k = .checkpoint g → ∀ row, db.workspaces ws = some row →
      g ≤ row.generation)
    (hok : createOperation db operationId k.kind ws none (k.text ws) k.input now =
      .ok (db', o, created)) : Ledger ws db' ∧ Keyed ws o k ∧ Persists db db' := by
  obtain ⟨hworkspaces, ho, ⟨hoperations, hkey, -⟩ |
    ⟨hnew, hsome, hkeyed, hpending, -, hoperations⟩⟩ :=
    createOperation_cases hok
  · exact ⟨h.congr (congrFun hworkspaces ws) hoperations,
      h.keyed_of_key (hoperations ▸ ho) hkey, .of_eq hoperations⟩
  · refine ⟨⟨?_, ?_, ?_, ?_, ?_, ?_, ?_⟩, hkeyed, ?_⟩
    · rw [hoperations]
      intro p hp
      rcases List.mem_append.mp hp with hp | hp
      · exact h.keyed p hp
      · exact List.mem_singleton.mp hp ▸ ⟨k, hkeyed⟩
    · rw [hoperations, List.map_append, List.nodup_append]
      refine ⟨h.ids, List.nodup_singleton _, ?_⟩
      rintro x hx y hy rfl
      obtain ⟨p, hp, rfl⟩ := List.mem_map.mp hx
      exact (hnew p hp).2 (List.mem_singleton.mp hy)
    · rw [hoperations, List.map_append, List.nodup_append]
      refine ⟨h.keys, List.nodup_singleton _, ?_⟩
      rintro x hx y hy rfl
      obtain ⟨p, hp, rfl⟩ := List.mem_map.mp hx
      exact (hnew p hp).1 ((List.mem_singleton.mp hy).trans hkeyed.key)
    · intro hnone
      rw [← hworkspaces, hnone] at hsome
      cases hsome
    · exact fun row hrow => h.running row (hworkspaces ▸ hrow)
    · rw [hoperations]
      intro row hrow p hp g hkey
      rcases List.mem_append.mp hp with hp | hp
      · exact h.past row (hworkspaces ▸ hrow) p hp g hkey
      · obtain rfl := List.mem_singleton.mp hp
        exact hpast g (OpKey.text_injective (hkeyed.key.symm.trans hkey)) row (hworkspaces ▸ hrow)
    · rw [hoperations]
      intro row hrow p hp hkey hsucceeded
      rcases List.mem_append.mp hp with hp | hp
      · exact h.unsaved row (hworkspaces ▸ hrow) p hp hkey hsucceeded
      · obtain rfl := List.mem_singleton.mp hp
        exact absurd (hpending.symm.trans hsucceeded) (by decide)
    · exact fun p hp => ⟨p, hoperations ▸ List.mem_append_left _ hp, .refl p⟩

end Ledger

/-! ## What is left to do -/

section Incomplete

variable {db db' : Tables} {operationId : String} {status : OperationStatus}

/-- An update leaves the other operations to do, and its own where it does not end it. -/
theorem Updated.incomplete (h : Updated operationId status db db') {o : Operation}
    (ho : o ∈ incompleteOperations db') :
    o ∈ incompleteOperations db ∧ o.id ≠ operationId ∨
      o.id = operationId ∧ status.incomplete = true := by
  obtain ⟨hmem, hincomplete⟩ := mem_incompleteOperations.mp ho
  obtain ⟨p, hp, hsame, ⟨hid, rfl⟩ | ⟨hid, hstatus⟩⟩ := h.mem hmem
  · exact .inl ⟨mem_incompleteOperations.mpr ⟨hp, hincomplete⟩, hid⟩
  · exact .inr ⟨hsame.id.trans hid, hstatus ▸ hincomplete⟩

/-- An operation that has succeeded had done so, or it is the one that has got the status. -/
theorem Updated.succeeded (h : Updated operationId status db db') {o' : Operation}
    (ho' : o' ∈ db'.operations) (hsucceeded : o'.status = .succeeded) :
    (∃ o ∈ db.operations, o.status = .succeeded ∧ SameOp o o') ∨
      o'.id = operationId ∧ status = .succeeded := by
  obtain ⟨o, ho, hsame, ⟨-, rfl⟩ | ⟨hid, hstatus⟩⟩ := h.mem ho'
  · exact .inl ⟨o', ho, hsucceeded, hsame⟩
  · exact .inr ⟨hsame.id.trans hid, hstatus.symm.trans hsucceeded⟩

end Incomplete

end CodexGateway.Manager
