import CodexGateway.Manager.State

/-!
# Manager/Operation — how `create_operation` binds and schedules an operation

What an operation is asked to do is fixed by its first request; a later request with its key is
turned away unless it asks for the same.  A request starts a coroutine where the operation is new or
has failed, and for a publish that has been captured and is now given an upload target.
-/

namespace CodexGateway.Manager

variable {I R : Type} [DecidableEq I]

/-- The operation of the key, which must be the one that is asked for. -/
def bindOperation (db : Db I R) (operationId : String) (operation : OperationKind)
    (workspaceId : String) (sandboxId : Option String) (idempotencyKey : String) (input : I)
    (now : ℤ) : Except StateError (Db I R × OperationRecord I R × Bool) :=
  match createOperation db operationId operation workspaceId sandboxId idempotencyKey input now with
  | .error e => .error e
  | .ok (db, record, created) =>
    if record.operation ≠ operation ∨ record.workspaceId ≠ workspaceId ∨
        record.sandboxId ≠ sandboxId ∨ record.input ≠ input then
      .error (.conflict "Operation idempotency key is bound to another request")
    else .ok (db, record, created)

/-- Whether a coroutine is to be started, with the record it is given. -/
def scheduleOperation (db : Db I R) (record : OperationRecord I R) (created resume : Bool)
    (now : ℤ) : Except StateError (Db I R × OperationRecord I R × Bool) :=
  if created then .ok (db, record, true)
  else if record.status = .failed ∨ resume = true then
    match updateOperation db record.id .pending record.phase record.result none now with
    | .error e => .error e
    | .ok db => .ok (db, record.update .pending record.phase record.result none now, true)
  else .ok (db, record, false)

section Frame

variable {db db' : Db I R} {r : OperationRecord I R × Bool}

theorem bindOperation_frame {operationId workspaceId idempotencyKey : String}
    {operation : OperationKind} {sandboxId : Option String} {input : I} {now : ℤ}
    (h : bindOperation db operationId operation workspaceId sandboxId idempotencyKey input now =
      .ok (db', r)) : db'.workspaces = db.workspaces ∧ db'.sandboxes = db.sandboxes := by
  rw [bindOperation] at h
  split at h
  · cases h
  · rename_i db₁ record created hcreate
    split_ifs at h
    obtain ⟨rfl, -⟩ := Prod.mk.inj (Except.ok.inj h)
    exact createOperation_frame hcreate

omit [DecidableEq I] in
theorem scheduleOperation_frame {record : OperationRecord I R} {created resume : Bool} {now : ℤ}
    (h : scheduleOperation db record created resume now = .ok (db', r)) :
    db'.workspaces = db.workspaces ∧ db'.sandboxes = db.sandboxes := by
  rw [scheduleOperation] at h
  split_ifs at h
  · obtain ⟨rfl, -⟩ := Prod.mk.inj (Except.ok.inj h)
    exact ⟨rfl, rfl⟩
  · split at h
    · cases h
    · rename_i db₁ hupdate
      obtain ⟨rfl, -⟩ := Prod.mk.inj (Except.ok.inj h)
      exact updateOperation_frame hupdate
  · obtain ⟨rfl, -⟩ := Prod.mk.inj (Except.ok.inj h)
    exact ⟨rfl, rfl⟩

end Frame

end CodexGateway.Manager
