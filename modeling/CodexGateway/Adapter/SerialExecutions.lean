import CodexGateway.Adapter.Executions
import Mathlib.Data.List.Nodup

/-!
# Adapter/SerialExecutions — one execution per Sandbox

`_start` looks whether the Response it continues is active, and only that one: a Response that is
over can be continued by two requests, and the second one finds it over as well, whether the first
is still being prepared or runs already.  So both run on the one Sandbox.

Where a request finds no other execution on the Sandbox of the Response it continues, the
executions of a Sandbox are serial (`serial_of_exclusive`).
-/

namespace CodexGateway.Adapter

open Execution

/-- A request continues a Response only while no other execution is on its Sandbox, prepared or
running. -/
def Exclusive (w : Service) : Pool.Action Act ServiceEvent → Prop
  | .task i (.prepared _) =>
    ∀ t ∈ w.tasks[i]?, ∀ id ∈ t.request.previousResponseId, ∀ previous ∈ w.shared.get id,
      w.shared.getActive previous.id = none →
        ∀ u ∈ w.tasks, u.sandboxId? ≠ some previous.sandboxId
  | _ => True

instance (w : Service) : ∀ a, Decidable (Exclusive w a)
  | .task i (.prepared _) => by unfold Exclusive; infer_instance
  | .task _ .acquired | .task _ (.returned _) | .task _ (.raised _) | .task _ .unsubscribe
  | .env _ => Decidable.isTrue trivial

/-- The execution behind a row of the active table. -/
structure Execution.Serves (t : Execution) (entry : ActiveEntry) : Prop where
  stage : t.stage = .running
  recordId : t.recordId = some entry.responseId
  sandboxId : t.sandboxId? = some entry.sandboxId

/-- No two executions work with one Sandbox, and the active table lists executions. -/
structure Serial (w : Service) : Prop where
  apart : Pool.Apart sandboxId? w.tasks
  known : ∀ t ∈ w.tasks, ∀ k, t.sandboxId? = some k → k ∈ w.shared.sandboxes
  records : ∀ record ∈ w.shared.records, record.sandboxId ∈ w.shared.sandboxes
  keys : (w.shared.active.map (·.responseId)).Nodup
  active : ∀ entry ∈ w.shared.active, ∃ t ∈ w.tasks, t.Serves entry

variable {w w' : Service} {s' : Executions} {t t' : Execution} {i : ℕ}

theorem serial_create (settings : ExecutionSettings) : Serial (Service.create settings) :=
  ⟨Pool.apart_nil, fun _ ht => absurd ht List.not_mem_nil, fun _ h => absurd h List.not_mem_nil,
    List.nodup_nil, fun _ h => absurd h List.not_mem_nil⟩

theorem not_serves (h : t.stage ≠ .running) {entry : ActiveEntry} : ¬ t.Serves entry :=
  fun hserves => h hserves.stage

theorem sandboxId?_of_running (h : t.stage = .running) :
    t.sandboxId? = t.sandbox.map (·.id) := by
  unfold sandboxId?
  cases hphase : t.phase with
  | drive | lease | notify _ | lost => rfl
  | _ => simp [stage, hphase, ExecutionPhase.stage] at h

/-- A task takes a Sandbox that is its own already, or that no task has. -/
theorem Serial.set (h : Serial w) (hi : w.tasks[i]? = some t)
    (hsandboxes : ∀ k ∈ w.shared.sandboxes, k ∈ s'.sandboxes)
    (hheld : ∀ k, t'.sandboxId? = some k →
      t.sandboxId? = some k ∨ k ∈ s'.sandboxes ∧ ∀ u ∈ w.tasks, u.sandboxId? ≠ some k)
    (hrecords : ∀ record ∈ s'.records, record.sandboxId ∈ s'.sandboxes)
    (hkeys : (s'.active.map (·.responseId)).Nodup)
    (hactive : ∀ entry ∈ s'.active,
      t'.Serves entry ∨ entry ∈ w.shared.active ∧ ¬ t.Serves entry) :
    Serial ⟨s', w.tasks.set i t'⟩ := by
  refine ⟨h.apart.set hi fun k hk => (hheld k hk).imp_right (·.2), fun u hu k hk => ?_, hrecords,
    hkeys, fun entry hentry => ?_⟩
  · rcases List.mem_or_eq_of_mem_set hu with hu | rfl
    · exact hsandboxes k (h.known u hu k hk)
    · rcases hheld k hk with hold | hnew
      · exact hsandboxes k (h.known t (List.mem_of_getElem? hi) k hold)
      · exact hnew.1
  · rcases hactive entry hentry with hserves | ⟨hentry, hother⟩
    · exact ⟨t', List.mem_set (List.getElem?_eq_some_iff.mp hi).1 t', hserves⟩
    · obtain ⟨u, hu, hserves⟩ := h.active entry hentry
      obtain ⟨j, hj⟩ := List.mem_iff_getElem?.mp hu
      have hne : i ≠ j := by
        rintro rfl
        exact hother (Option.some.inj (hi.symm.trans hj) ▸ hserves)
      exact ⟨u, List.mem_iff_getElem?.mpr ⟨j, by rwa [List.getElem?_set_ne hne]⟩, hserves⟩

/-- …where the store stays as it is. -/
theorem Serial.move (h : Serial w) (hi : w.tasks[i]? = some t)
    (hsandboxes : ∀ k ∈ w.shared.sandboxes, k ∈ s'.sandboxes)
    (hrecords : s'.records = w.shared.records) (hactive : s'.active = w.shared.active)
    (hheld : ∀ k, t'.sandboxId? = some k →
      t.sandboxId? = some k ∨ k ∈ s'.sandboxes ∧ ∀ u ∈ w.tasks, u.sandboxId? ≠ some k)
    (hserves : ∀ entry, t.Serves entry → t'.Serves entry) :
    Serial ⟨s', w.tasks.set i t'⟩ := by
  refine h.set hi hsandboxes hheld (fun record hrecord => ?_) (hactive ▸ h.keys)
    fun entry hentry => ?_
  · exact hsandboxes _ (h.records record (hrecords ▸ hrecord))
  · by_cases hold : t.Serves entry
    · exact .inl (hserves entry hold)
    · exact .inr ⟨hactive ▸ hentry, hold⟩

/-- The code of `_start` goes on, with the Sandbox in hand. -/
theorem Serial.proceed (h : Serial w) (hi : w.tasks[i]? = some t) {s : Executions}
    {k : Option String} {r : Executions × Execution} (hproceeds : Proceeds s t' k r)
    (hstage : t.stage = .starting) (hsandboxes : ∀ k ∈ w.shared.sandboxes, k ∈ s.sandboxes)
    (hrecords : s.records = w.shared.records) (hactive : s.active = w.shared.active)
    (hheld : ∀ sandboxId, k = some sandboxId → t.sandboxId? = some sandboxId ∨
      sandboxId ∈ s.sandboxes ∧ ∀ u ∈ w.tasks, u.sandboxId? ≠ some sandboxId) :
    Serial ⟨r.1, w.tasks.set i r.2⟩ := by
  have hserves (t' : Execution) (entry : ActiveEntry) (hserves : t.Serves entry) :
      t'.Serves entry := absurd hserves (not_serves (by rw [hstage]; decide))
  cases hproceeds with
  | awaits _ _ _ hsandbox =>
    exact h.move hi hsandboxes hrecords hactive (fun k hk => hheld k (hsandbox k hk)) (hserves _)
  | refuses hphase =>
    refine h.move hi hsandboxes hrecords hactive (fun k hk => ?_) (hserves _)
    rw [sandboxId?, hphase] at hk
    cases hk

theorem Serial.register (h : Serial w) (hi : w.tasks[i]? = some t) (hphase : t.phase = .startTurn)
    {id : String} (hid : t.recordId = some id) {sandbox : SandboxInfo}
    (hsandbox : t.sandbox = some sandbox) :
    Serial ⟨(t.register id sandbox w.shared).1,
      w.tasks.set i (t.register id sandbox w.shared).2⟩ := by
  have hheld : t.sandboxId? = some sandbox.id := by
    rw [sandboxId?, hphase, hsandbox, Option.map_some]
  have hserves : (t.register id sandbox w.shared).2.Serves ⟨id, sandbox.id⟩ :=
    ⟨rfl, hid, by simp [sandboxId?, Execution.register, hsandbox]⟩
  refine h.set hi (fun _ hk => hk) (fun k hk => .inl ?_) (fun record hrecord => ?_) ?_
    fun entry hentry => ?_
  · rw [hheld, ← hk]
    exact hserves.sandboxId.symm
  · rcases List.mem_append.mp hrecord with hrecord | hrecord
    · exact h.records record (List.mem_of_mem_filter hrecord)
    · obtain rfl := List.mem_singleton.mp hrecord
      exact h.known t (List.mem_of_getElem? hi) _ hheld
  · change ((w.shared.active.filter _ ++ [_]).map _).Nodup
    rw [List.map_append, List.nodup_append]
    refine ⟨h.keys.sublist (List.filter_sublist.map _), List.nodup_singleton _, ?_⟩
    rintro _ hold _ hnew rfl
    obtain ⟨entry, hentry, heq⟩ := List.mem_map.mp hold
    have hne := (List.mem_filter.mp hentry).2
    simp_all
  · rcases List.mem_append.mp hentry with hentry | hentry
    · exact .inr ⟨List.mem_of_mem_filter hentry, not_serves (by rw [stage, hphase]; decide)⟩
    · obtain rfl := List.mem_singleton.mp hentry
      exact .inl hserves

/-- What comes from outside brings no Sandbox. -/
theorem Serial.event (h : Serial w) {event : ServiceEvent} {ts : List Execution}
    (henv : serviceEvent w.shared event = some (s', ts)) : Serial ⟨s', w.tasks ++ ts⟩ := by
  cases event with
  | create request =>
    cases henv
    refine ⟨h.apart.append fun t ht => ?_, fun t ht k hk => ?_, h.records, h.keys,
      fun entry hentry => ?_⟩
    · rw [List.mem_singleton.mp ht]
      rfl
    · rcases List.mem_append.mp ht with ht | ht
      · exact h.known t ht k hk
      · rw [List.mem_singleton.mp ht] at hk
        cases hk
    · obtain ⟨t, ht, hserves⟩ := h.active entry hentry
      exact ⟨t, List.mem_append_left _ ht, hserves⟩
  | delete id =>
    cases henv
    rw [List.append_nil]
    unfold Executions.delete
    split_ifs
    · exact h
    · exact ⟨h.apart, h.known, fun record hrecord => h.records record
        (List.mem_of_mem_filter hrecord), h.keys, h.active⟩

theorem Serial.step {settings : ExecutionSettings} (h : Serial w)
    {a : Pool.Action Act ServiceEvent} (hcond : Exclusive w a)
    (hstep : Pool.step (service settings) w a = some w') : Serial w' := by
  cases a with
  | env event =>
    obtain ⟨s, ts, henv, rfl⟩ := Pool.step_env.mp hstep
    exact h.event henv
  | task i a =>
    obtain ⟨t, s, t', hi, hact, rfl⟩ := Pool.step_task.mp hstep
    have hsame : ∀ k ∈ w.shared.sandboxes, k ∈ w.shared.sandboxes := fun _ hk => hk
    cases step_of_act hact with
    | acquired hphase =>
      refine h.move hi hsame rfl rfl (fun _ hk => by cases hk) fun entry hserves => ?_
      exact absurd hserves (not_serves (by rw [stage, hphase]; decide))
    | rejected hphase =>
      refine h.move hi hsame rfl rfl (fun _ hk => by cases hk) fun entry hserves => ?_
      exact absurd hserves (not_serves (by rw [stage, hphase]; decide))
    | prepared hphase hfresh hsandbox hproceeds =>
      refine h.proceed hi hproceeds (by rw [stage, hphase]; rfl) hsame rfl rfl fun k hk => .inr ?_
      obtain ⟨previous, ⟨⟨id, hid, hget⟩, hidle⟩, rfl⟩ := hsandbox k hk
      exact ⟨h.records previous (List.mem_of_find?_eq_some hget),
        hcond t hi id hid previous hget hidle⟩
    | created hphase hfresh hproceeds =>
      refine h.proceed hi hproceeds (by rw [stage, hphase]; rfl)
        (fun k hk => List.mem_cons_of_mem _ hk) rfl rfl fun k hk => .inr ?_
      obtain rfl := Option.some.inj hk
      exact ⟨List.mem_cons_self, fun u hu hheld => hfresh (h.known u hu _ hheld)⟩
    | proceeded hstage _ hproceeds =>
      exact h.proceed hi hproceeds hstage hsame rfl rfl fun k hk => .inl hk
    | stranded hphase =>
      refine h.move hi hsame rfl rfl (fun _ hk => by cases hk) fun entry hserves => ?_
      exact absurd hserves (not_serves (by rw [stage, hphase]; decide))
    | registered hphase hid hsandbox => exact h.register hi hphase hid hsandbox
    | ran hstage hstage' =>
      refine h.move hi hsame rfl rfl (fun k hk => .inl ?_) fun entry hserves =>
        ⟨hstage', hserves.recordId, ?_⟩
      · rw [sandboxId?_of_running hstage]
        rwa [sandboxId?_of_running hstage'] at hk
      · rw [sandboxId?_of_running hstage', ← hserves.sandboxId, sandboxId?_of_running hstage]
    | @finished _ id hstage hid =>
      refine h.set hi hsame (fun _ hk => by cases hk) h.records ?_ fun entry hentry => .inr ?_
      · exact h.keys.sublist (List.filter_sublist.map _)
      · obtain ⟨hentry, hne⟩ := List.mem_filter.mp hentry
        refine ⟨hentry, fun hserves => ?_⟩
        have := Option.some.inj (hid.symm.trans hserves.recordId)
        simp [this] at hne
    | unsubscribed hsub =>
      exact h.move hi hsame rfl rfl (fun k hk => .inl hk) fun entry hserves =>
        ⟨hserves.stage, hserves.recordId, hserves.sandboxId⟩

/-- The executions in the active table are on Sandboxes of their own. -/
theorem Serial.sandboxes_nodup (h : Serial w) : (w.shared.active.map (·.sandboxId)).Nodup := by
  refine List.Nodup.map_on (fun a ha b hb hab => ?_) (List.Nodup.of_map _ h.keys)
  obtain ⟨t, ht, htserves⟩ := h.active a ha
  obtain ⟨u, hu, huserves⟩ := h.active b hb
  obtain ⟨i, hi⟩ := List.mem_iff_getElem?.mp ht
  obtain ⟨j, hj⟩ := List.mem_iff_getElem?.mp hu
  obtain rfl := h.apart i j t u _ hi hj htserves.sandboxId (huserves.sandboxId.trans (by rw [hab]))
  obtain rfl := Option.some.inj (hi.symm.trans hj)
  exact List.inj_on_of_nodup_map h.keys ha hb
    (Option.some.inj (htserves.recordId.symm.trans huserves.recordId))

/-- **As long as a Response is continued only while no other execution is on its Sandbox, at most
one execution is active on each Sandbox.** -/
theorem serial_of_exclusive {settings : ExecutionSettings}
    {actions : List (Pool.Action Act ServiceEvent)}
    (hrun : Machine.run (Pool.step (service settings)) (Service.create settings) actions = some w)
    (hexclusive : Machine.Meets (Pool.step (service settings)) Exclusive (Service.create settings)
      actions) : (w.shared.active.map (·.sandboxId)).Nodup :=
  (Machine.run_invariant (fun _ _ _ hcond h hstep => Serial.step h hcond hstep) hexclusive hrun
    (serial_create settings)).sandboxes_nodup

/-! ## Two requests that continue one Response -/

/-- A service with several permits. -/
def roomySettings : ExecutionSettings := ⟨4, false, false⟩

/-- A request that names a previous Response, or none. -/
def askRequest (previousResponseId : Option String) : CreateRequest :=
  ⟨previousResponseId, false, false, false, false⟩

/-- A Sandbox with a worker. -/
def workerSandbox : SandboxInfo := ⟨"sandbox_1", .running, true, none, false⟩

/-- The first request of a conversation, up to its driver's end. -/
def askFirst : List (Pool.Action Act ServiceEvent) :=
  .env (.create (askRequest none)) ::
    ([.acquired, .prepared "resp_0", .returned (.sandbox workerSandbox), .returned .value,
      .returned .value, .returned .value, .returned .value,
      .returned .value] : List Act).map (.task 0)

/-- A request that continues the first one, up to its driver's start. -/
def askAgain (i : ℕ) (id : String) : List (Pool.Action Act ServiceEvent) :=
  .env (.create (askRequest (some "resp_0"))) ::
    ([.acquired, .prepared id, .returned (.sandbox workerSandbox),
      .returned (.sandbox workerSandbox), .returned .value, .returned .value,
      .returned .value] : List Act).map (.task i)

/-- The second continuation waits for the end of the first. -/
theorem serial_oneByOne : ∃ w, Machine.run (Pool.step (service roomySettings))
    (Service.create roomySettings) (askFirst ++ askAgain 1 "resp_1" ++
      [.task 1 (.returned .value), .task 1 (.returned .value)] ++ askAgain 2 "resp_2") = some w ∧
      w.shared.active.length = 1 ∧ (w.shared.active.map (·.sandboxId)).Nodup := by
  obtain ⟨w, hw, htest⟩ := (Option.any_eq_true _ _).mp (show (Machine.run
    (Pool.step (service roomySettings)) (Service.create roomySettings)
      (askFirst ++ askAgain 1 "resp_1" ++
        [.task 1 (.returned .value), .task 1 (.returned .value)] ++
          askAgain 2 "resp_2")).any (fun w => w.shared.active.length = 1) = true by decide +kernel)
  exact ⟨w, hw, of_decide_eq_true htest, serial_of_exclusive hw (by decide +kernel)⟩

/-- It does not, and two executions are active on one Sandbox. -/
theorem not_serial_fork : ∃ w, Machine.run (Pool.step (service roomySettings))
    (Service.create roomySettings)
      (askFirst ++ askAgain 1 "resp_1" ++ askAgain 2 "resp_2") = some w ∧
      ¬ (w.shared.active.map (·.sandboxId)).Nodup := by
  obtain ⟨w, hw, htest⟩ := (Option.any_eq_true _ _).mp (show (Machine.run
    (Pool.step (service roomySettings)) (Service.create roomySettings)
      (askFirst ++ askAgain 1 "resp_1" ++ askAgain 2 "resp_2")).any
        (fun w => ¬ (w.shared.active.map (·.sandboxId)).Nodup) = true by decide +kernel)
  exact ⟨w, hw, of_decide_eq_true htest⟩

end CodexGateway.Adapter
