import CodexGateway.Adapter.Executions
import Mathlib.Data.List.Nodup

/-!
# Adapter/Permits — every permit comes back

A permit is with a request that is being prepared, or with an execution of the active table, or
free.  It is lost in three places, all in code that runs when something else is over: `_start`'s
`except` block lets a `BaseException` of `terminate_sandbox` pass before the release, and the
driver's `finally` block comes to `_cleanup` only if the lease task does not raise and
`_notify_terminal` meets no exception but `httpx.HTTPError`.

Where the calls raise nothing else there, the permits add up in every state, and a driver that has
started ends its execution within `remaining` steps (`permits_released`).
-/

namespace CodexGateway.Adapter

open Execution

namespace Execution

/-- What the code around the release of a permit catches. -/
def Handled (t : Execution) : Act → Prop
  | .raised error =>
    match t.phase with
    | .terminateSandbox | .lease => error ≠ .base
    | .notify _ => error = .httpError
    | _ => True
  | _ => True

instance (t : Execution) : ∀ a, Decidable (t.Handled a)
  | .raised error => by unfold Handled; dsimp only; split <;> infer_instance
  | .acquired | .prepared _ | .returned _ | .unsubscribe => Decidable.isTrue trivial

/-- The permit of a request that is being prepared. -/
def startingPermit (t : Execution) : ℕ := if t.stage = .starting then 1 else 0

/-- The permit of an execution that runs. -/
def runningPermit (t : Execution) : ℕ := if t.stage = .running then 1 else 0

end Execution

/-- The ids of the active table. -/
def Executions.activeIds (s : Executions) : List String := s.active.map (·.responseId)

/-- The executions that are being prepared. -/
def Service.starting (w : Service) : ℕ := Pool.total startingPermit w.tasks

/-- The execution is out of the active table, and nobody waits for it. -/
structure Execution.Ended (s : Executions) (t : Execution) : Prop where
  removed : ∀ id, t.recordId = some id → id ∉ s.activeIds
  terminal : t.terminal = true
  subscribers : t.subscription ≠ .subscribed

/-- The permits add up, and the active table lists the executions that run. -/
structure Accounted (settings : ExecutionSettings) (w : Service) : Prop where
  permits : w.shared.permits + w.starting + Pool.total runningPermit w.tasks =
    settings.maxConcurrentExecutions
  active : w.shared.active.length = Pool.total runningPermit w.tasks
  keys : w.shared.activeIds.Nodup
  known : ∀ id ∈ w.shared.activeIds, id ∈ w.shared.responses
  apart : Pool.Apart (·.recordId) w.tasks
  used : ∀ t ∈ w.tasks, ∀ id, t.recordId = some id → id ∈ w.shared.responses
  listed : ∀ t ∈ w.tasks, ∀ id, t.recordId = some id →
    (id ∈ w.shared.activeIds ↔ t.stage = .running)
  named : ∀ t ∈ w.tasks, t.stage = .running → ∃ id, t.recordId = some id
  kept : ∀ t ∈ w.tasks, t.phase ≠ .lost
  finished : ∀ t ∈ w.tasks, t.phase = .finished → t.terminal = true ∧ t.subscription ≠ .subscribed

variable {settings : ExecutionSettings} {w w' : Service} {s' : Executions} {t t' : Execution}
  {i : ℕ}

theorem Accounted.ended (h : Accounted settings w) (ht : t ∈ w.tasks)
    (hphase : t.phase = .finished) : t.Ended w.shared := by
  obtain ⟨hterminal, hsubscription⟩ := h.finished t ht hphase
  refine ⟨fun id hid hmem => ?_, hterminal, hsubscription⟩
  have hstage : t.stage = .over := congrArg ExecutionPhase.stage hphase
  exact nomatch hstage.symm.trans ((h.listed t ht id hid).mp hmem)

/-- What a task's own step has to keep. -/
structure Balances (s : Executions) (t : Execution) (s' : Executions) (t' : Execution) : Prop where
  permits : s'.permits + t'.startingPermit + t'.runningPermit =
    s.permits + t.startingPermit + t.runningPermit
  active : s'.active.length + t.runningPermit = s.active.length + t'.runningPermit
  keys : s'.activeIds.Nodup
  known : ∀ id ∈ s'.activeIds, id ∈ s'.responses
  responses : ∀ id ∈ s.responses, id ∈ s'.responses
  recordId : t'.recordId = t.recordId ∨
    ∃ id, t'.recordId = some id ∧ id ∉ s.responses ∧ id ∈ s'.responses
  others : ∀ id, t.recordId ≠ some id → (id ∈ s'.activeIds ↔ id ∈ s.activeIds)
  listed : ∀ id, t'.recordId = some id → (id ∈ s'.activeIds ↔ t'.stage = .running)
  named : t'.stage = .running → ∃ id, t'.recordId = some id
  kept : t'.phase ≠ .lost
  finished : t'.phase = .finished → t'.terminal = true ∧ t'.subscription ≠ .subscribed

theorem Accounted.set (h : Accounted settings w) (hi : w.tasks[i]? = some t)
    (hb : Balances w.shared t s' t') : Accounted settings ⟨s', w.tasks.set i t'⟩ := by
  have ht := List.mem_of_getElem? hi
  have hstarting := Pool.total_set startingPermit hi t'
  have hrunning := Pool.total_set runningPermit hi t'
  have hpermits := h.permits
  have hactive := h.active
  have hforall {p : Execution → Prop} (hold : ∀ u ∈ w.tasks, p u) (hnew : p t') :
      ∀ u ∈ w.tasks.set i t', p u := fun u hu => by
    rcases List.mem_or_eq_of_mem_set hu with hu | rfl
    · exact hold u hu
    · exact hnew
  refine
    { permits := ?_
      active := ?_
      keys := hb.keys
      known := hb.known
      apart := h.apart.set hi fun id hid => ?_
      used := hforall (fun u hu id hid => hb.responses id (h.used u hu id hid)) fun id hid => ?_
      listed := ?_
      named := hforall h.named hb.named
      kept := hforall h.kept hb.kept
      finished := hforall h.finished hb.finished }
  · have := hb.permits
    simp only [Service.starting] at hpermits ⊢
    omega
  · have := hb.active
    simp only
    omega
  · rcases hb.recordId with hsame | ⟨fresh, heq, hfresh, -⟩
    · exact .inl (hsame ▸ hid)
    · obtain rfl := Option.some.inj (heq.symm.trans hid)
      exact .inr fun u hu hid => hfresh (h.used u hu _ hid)
  · rcases hb.recordId with hsame | ⟨fresh, heq, -, hresponses⟩
    · exact hb.responses id (h.used t ht id (hsame ▸ hid))
    · exact Option.some.inj (heq.symm.trans hid) ▸ hresponses
  · intro u hu id hid
    obtain ⟨j, hj⟩ := List.mem_iff_getElem?.mp hu
    rw [List.getElem?_set] at hj
    split_ifs at hj with hij hlt
    · obtain rfl := Option.some.inj hj
      exact hb.listed id hid
    · -- another task holds another id
      refine (hb.others id fun htid => hij ?_).trans (h.listed u (List.mem_of_getElem? hj) id hid)
      exact h.apart i j t u id hi hj htid hid

/-- The active table stays as it is. -/
theorem Accounted.balances (h : Accounted settings w) (ht : t ∈ w.tasks)
    (hactive : s'.active = w.shared.active) (hresponses : s'.responses = w.shared.responses)
    (hrecord : t'.recordId = t.recordId) (hrunning : t'.stage = .running ↔ t.stage = .running)
    (hpermits : s'.permits + t'.startingPermit = w.shared.permits + t.startingPermit)
    (hkept : t'.phase ≠ .lost)
    (hfinished : t'.phase = .finished → t'.terminal = true ∧ t'.subscription ≠ .subscribed) :
    Balances w.shared t s' t' := by
  have hids : s'.activeIds = w.shared.activeIds := by rw [Executions.activeIds, hactive]; rfl
  have hweight : t'.runningPermit = t.runningPermit := by simp only [runningPermit, hrunning]
  refine
    { permits := by omega
      active := by rw [hactive, hweight]
      keys := hids ▸ h.keys
      known := hids ▸ hresponses ▸ h.known
      responses := fun _ hid => hresponses ▸ hid
      recordId := .inl hrecord
      others := fun _ _ => by rw [hids]
      listed := fun id hid => by rw [hids, hrunning, h.listed t ht id (hrecord ▸ hid)]
      named := fun hstage => hrecord ▸ h.named t ht (hrunning.mp hstage)
      kept := hkept
      finished := hfinished }

theorem stage_of_phase {phase : ExecutionPhase} (h : t.phase = phase) : t.stage = phase.stage :=
  congrArg ExecutionPhase.stage h

theorem startingPermit_of (h : t.stage = .starting) : t.startingPermit = 1 := if_pos h

theorem startingPermit_of_ne (h : t.stage ≠ .starting) : t.startingPermit = 0 := if_neg h

theorem runningPermit_of (h : t.stage = .running) : t.runningPermit = 1 := if_pos h

theorem runningPermit_of_ne (h : t.stage ≠ .running) : t.runningPermit = 0 := if_neg h

/-- The code of `_start` goes on, under the record it has. -/
theorem Accounted.proceed (h : Accounted settings w) (ht : t ∈ w.tasks) {s : Executions}
    {k : Option String} {r : Executions × Execution} (hproceeds : Proceeds s t k r)
    (hstage : t.stage = .starting) (hpermits : s.permits = w.shared.permits)
    (hactive : s.active = w.shared.active) (hresponses : s.responses = w.shared.responses) :
    Balances w.shared t r.1 r.2 := by
  cases hproceeds with
  | awaits hstage' hrecord =>
    refine h.balances ht hactive hresponses hrecord (by simp [hstage, hstage']) ?_ ?_ ?_
    · rw [startingPermit_of hstage', startingPermit_of hstage, hpermits]
    · exact fun hlost => nomatch hstage'.symm.trans (stage_of_phase hlost)
    · exact fun hfinished => nomatch hstage'.symm.trans (stage_of_phase hfinished)
  | refuses hphase hrecord =>
    have hover := stage_of_phase hphase
    refine h.balances ht hactive hresponses hrecord (iff_of_false
      (fun hr => nomatch hover.symm.trans hr) fun hr => nomatch hstage.symm.trans hr) ?_
        (by simp [hphase]) (by simp [hphase])
    rw [startingPermit_of_ne (hover ▸ nofun), startingPermit_of hstage]
    simp [Executions.release, hpermits]

/-- A request that is being prepared gets its record. -/
theorem Accounted.prepare (h : Accounted settings w) {id : String} (hphase : t.phase = .prepare)
    (hfresh : id ∉ w.shared.responses) {k : Option String} {r : Executions × Execution}
    (hproceeds : Proceeds { w.shared with responses := id :: w.shared.responses }
      { t with recordId := some id } k r) : Balances w.shared t r.1 r.2 := by
  have hstage : t.stage = .starting := stage_of_phase hphase
  have hlisted (u : Execution) (hu : u.recordId = some id) (hstage' : u.stage ≠ .running)
      (id' : String) (hid' : u.recordId = some id') :
      id' ∈ w.shared.activeIds ↔ u.stage = .running := by
    obtain rfl := Option.some.inj (hu.symm.trans hid')
    exact iff_of_false (fun hid => hfresh (h.known id hid)) hstage'
  have hbalances (s : Executions) (u : Execution) (hu : u.recordId = some id)
      (hstage' : u.stage ≠ .running) (hactive : s.active = w.shared.active)
      (hresponses : s.responses = id :: w.shared.responses)
      (hpermits : s.permits + u.startingPermit = w.shared.permits + t.startingPermit)
      (hfinished : u.phase ≠ .finished) : Balances w.shared t s u := by
    have hids : s.activeIds = w.shared.activeIds := by rw [Executions.activeIds, hactive]; rfl
    refine
      { permits := by
          rw [runningPermit_of_ne hstage', runningPermit_of_ne (hstage ▸ nofun), hpermits]
        active := by
          rw [runningPermit_of_ne hstage', runningPermit_of_ne (hstage ▸ nofun), hactive]
        keys := hids ▸ h.keys
        known := fun id' hid' => hresponses ▸ List.mem_cons_of_mem _ (h.known id' (hids ▸ hid'))
        responses := fun _ hid' => hresponses ▸ List.mem_cons_of_mem _ hid'
        recordId := .inr ⟨id, hu, hfresh, hresponses ▸ List.mem_cons_self⟩
        others := fun _ _ => by rw [hids]
        listed := fun id' hid' => hids ▸ hlisted u hu hstage' id' hid'
        named := fun hr => absurd hr hstage'
        kept := fun hlost => hstage' (stage_of_phase hlost)
        finished := fun hf => absurd hf hfinished }
  cases hproceeds with
  | awaits hstage' hrecord =>
    refine hbalances _ _ hrecord (hstage' ▸ nofun) rfl rfl ?_ fun hf => ?_
    · rw [startingPermit_of hstage', startingPermit_of hstage]
    · exact nomatch hstage'.symm.trans (stage_of_phase hf)
  | @refuses t' hphase' hrecord =>
    have hover := stage_of_phase hphase'
    refine hbalances _ _ hrecord (fun hr => nomatch hover.symm.trans hr) rfl rfl ?_
      (by simp [hphase'])
    have hnew : t'.startingPermit = 0 := startingPermit_of_ne fun hs => nomatch hover.symm.trans hs
    have hold : t.startingPermit = 1 := startingPermit_of hstage
    rw [hold, hnew]
    rfl

/-- The permit goes over to the driver, with a row of the active table. -/
theorem Accounted.register (h : Accounted settings w) (ht : t ∈ w.tasks) {id : String}
    {sandbox : SandboxInfo} (hphase : t.phase = .startTurn) (hid : t.recordId = some id) :
    Balances w.shared t (t.register id sandbox w.shared).1 (t.register id sandbox w.shared).2 := by
  have hstage : t.stage = .starting := stage_of_phase hphase
  have hstarting : t.startingPermit = 1 := startingPermit_of hstage
  have hrunning : t.runningPermit = 0 := runningPermit_of_ne (hstage ▸ nofun)
  have hnew : id ∉ w.shared.activeIds := fun hmem =>
    nomatch hstage.symm.trans ((h.listed t ht id hid).mp hmem)
  have hactive : (t.register id sandbox w.shared).1.active =
      w.shared.active ++ [⟨id, sandbox.id⟩] := by
    refine congrArg (· ++ _) (List.filter_eq_self.mpr fun entry hentry => ?_)
    exact decide_eq_true fun heq => hnew (List.mem_map.mpr ⟨entry, hentry, heq⟩)
  have hids : (t.register id sandbox w.shared).1.activeIds = w.shared.activeIds ++ [id] := by
    rw [Executions.activeIds, hactive, List.map_append]
    rfl
  refine
    { permits := ?_
      active := ?_
      keys := ?_
      known := fun id' hid' => ?_
      responses := fun _ h => h
      recordId := .inl rfl
      others := fun id' hid' => ?_
      listed := fun id' hid' => ?_
      named := fun _ => ⟨id, hid⟩
      kept := nofun
      finished := nofun }
  · rw [hstarting, hrunning]
    rfl
  · rw [hactive, hrunning, List.length_append]
    rfl
  · rw [hids]
    exact List.nodup_append.mpr ⟨h.keys, List.nodup_cons.mpr ⟨List.not_mem_nil, List.nodup_nil⟩,
      fun a ha b hb hab => hnew (List.mem_singleton.mp hb ▸ hab ▸ ha)⟩
  · rw [hids] at hid'
    rcases List.mem_append.mp hid' with hid' | hid'
    · exact h.known id' hid'
    · exact List.mem_singleton.mp hid' ▸ h.used t ht id hid
  · rw [hids, List.mem_append, List.mem_singleton]
    exact or_iff_left fun heq => hid' (heq ▸ hid)
  · obtain rfl := Option.some.inj (hid.symm.trans hid')
    exact iff_of_true (hids ▸ List.mem_append_right _ (List.mem_singleton.mpr rfl)) rfl

/-- The driver's end takes both. -/
theorem Accounted.cleanup (h : Accounted settings w) (ht : t ∈ w.tasks) {id : String}
    (hstage : t.stage = .running) (hid : t.recordId = some id) :
    Balances w.shared t (t.cleanup id w.shared).1 (t.cleanup id w.shared).2 := by
  have hstarting : t.startingPermit = 0 := startingPermit_of_ne (hstage ▸ nofun)
  have hrunning : t.runningPermit = 1 := runningPermit_of hstage
  have hmem : id ∈ w.shared.activeIds := (h.listed t ht id hid).mpr hstage
  have hids : (t.cleanup id w.shared).1.activeIds = w.shared.activeIds.erase id := by
    rw [h.keys.erase_eq_filter, Executions.activeIds, Executions.activeIds, List.filter_map]
    congr 1
    refine List.filter_congr fun entry _ => ?_
    simp [bne, BEq.beq]
  have hlength : (t.cleanup id w.shared).1.active.length + 1 = w.shared.active.length := by
    have hlen (s : Executions) : s.active.length = s.activeIds.length := (List.length_map _).symm
    rw [hlen, hlen, hids, List.length_erase_of_mem hmem]
    exact Nat.sub_add_cancel (List.length_pos_of_mem hmem)
  refine
    { permits := ?_
      active := ?_
      keys := hids ▸ h.keys.erase id
      known := fun id' hid' => h.known id' (List.mem_of_mem_erase (hids ▸ hid'))
      responses := fun _ h => h
      recordId := .inl rfl
      others := fun id' hid' => ?_
      listed := fun id' hid' => ?_
      named := nofun
      kept := nofun
      finished := fun _ => ⟨rfl, ?_⟩ }
  · rw [hstarting, hrunning]
    rfl
  · rw [hrunning, hlength]
    rfl
  · rw [hids]
    exact List.mem_erase_of_ne fun heq => hid' (heq ▸ hid)
  · obtain rfl := Option.some.inj (hid.symm.trans hid')
    rw [hids]
    exact iff_of_false h.keys.not_mem_erase nofun
  · simp only [Execution.cleanup]
    split_ifs with hsub
    · exact nofun
    · exact hsub

/-- What comes from outside brings no permit. -/
theorem Accounted.event (h : Accounted settings w) {event : ServiceEvent} {ts : List Execution}
    (henv : serviceEvent w.shared event = some (s', ts)) :
    Accounted settings ⟨s', w.tasks ++ ts⟩ := by
  cases event with
  | create request =>
    cases henv
    have hforall {p : Execution → Prop} (hold : ∀ u ∈ w.tasks, p u)
        (hnew : p (Execution.create request)) : ∀ u ∈ w.tasks ++ [Execution.create request], p u :=
      fun u hu => (List.mem_append.mp hu).elim (hold u) fun hu => List.mem_singleton.mp hu ▸ hnew
    refine
      { permits := ?_
        active := ?_
        keys := h.keys
        known := h.known
        apart := h.apart.append fun u hu => List.mem_singleton.mp hu ▸ rfl
        used := hforall h.used nofun
        listed := hforall h.listed nofun
        named := hforall h.named nofun
        kept := hforall h.kept nofun
        finished := hforall h.finished nofun }
    · have hpermits := h.permits
      simp only [Service.starting, Pool.total_append] at hpermits ⊢
      exact hpermits
    · rw [Pool.total_append]
      exact h.active
  | delete id =>
    cases henv
    rw [List.append_nil]
    unfold Executions.delete
    split_ifs
    · exact h
    · exact ⟨h.permits, h.active, h.keys, h.known, h.apart, h.used, h.listed, h.named, h.kept,
        h.finished⟩

theorem Accounted.step (h : Accounted settings w) {a : Pool.Action Act ServiceEvent}
    (hcond : Pool.stepCond (fun _ t a => t.Handled a) (fun _ _ => True) w a)
    (hstep : Pool.step (service settings) w a = some w') : Accounted settings w' := by
  cases a with
  | env event =>
    obtain ⟨s, ts, henv, rfl⟩ := Pool.step_env.mp hstep
    exact h.event henv
  | task i a =>
    obtain ⟨t, s, t', hi, hact, rfl⟩ := Pool.step_task.mp hstep
    have ht := List.mem_of_getElem? hi
    refine h.set hi ?_
    cases step_of_act hact with
    | acquired hphase hpermits =>
      have hstage := stage_of_phase hphase
      refine h.balances ht rfl rfl rfl (iff_of_false nofun fun hr => nomatch hstage.symm.trans hr)
        ?_ nofun nofun
      rw [startingPermit_of_ne fun hs => nomatch hstage.symm.trans hs]
      exact Nat.sub_add_cancel hpermits
    | rejected hphase =>
      have hstage := stage_of_phase hphase
      refine h.balances ht rfl rfl rfl (iff_of_false nofun fun hr => nomatch hstage.symm.trans hr)
        ?_ nofun nofun
      rw [startingPermit_of_ne fun hs => nomatch hstage.symm.trans hs]
      rfl
    | prepared hphase hfresh _ hproceeds => exact h.prepare hphase hfresh hproceeds
    | created hphase _ hproceeds =>
      exact h.proceed ht hproceeds (stage_of_phase hphase) rfl rfl rfl
    | proceeded hstage _ hproceeds => exact h.proceed ht hproceeds hstage rfl rfl rfl
    | stranded hphase =>
      have := hcond t hi
      simp [Handled, hphase] at this
    | registered hphase hid _ => exact h.register ht hphase hid
    | ran hstage hstage' hlost =>
      refine h.balances ht rfl rfl rfl (iff_of_true hstage' hstage) ?_ (fun hphase => ?_)
        fun hf => ?_
      · simp [startingPermit, hstage, hstage']
      · obtain ⟨error, rfl, ⟨hlease, herror⟩ | ⟨attempt, hnotify, herror⟩⟩ := hlost hphase
        all_goals
          have := hcond t hi
          simp_all [Handled]
      · exact nomatch hstage'.symm.trans (congrArg ExecutionPhase.stage hf)
    | finished hstage hid => exact h.cleanup ht hstage hid
    | unsubscribed hsub =>
      refine h.balances ht rfl rfl rfl Iff.rfl rfl (h.kept t ht) fun hfinished => ?_
      exact ⟨(h.finished t ht hfinished).1, nofun⟩

/-! ## The driver comes to its end -/

namespace Execution

/-- The steps a driver has left, at most. -/
def remaining (t : Execution) : ℕ :=
  match t.phase with
  | .drive => 6
  | .lease => 5
  | .notify attempt => 4 - attempt
  | _ => 0

theorem remaining_notify {t : Execution} {attempt : Fin 3} (h : t.phase = .notify attempt) :
    t.remaining = 4 - attempt := by rw [remaining, h]

end Execution

theorem remaining_pos (hstage : t.stage = .running) (hlost : t.phase ≠ .lost) :
    0 < t.remaining := by
  cases hphase : t.phase with
  | drive | lease => rw [remaining, hphase]; decide
  | notify attempt =>
    rw [remaining_notify hphase]
    omega
  | lost => exact absurd hphase hlost
  | _ => cases hstage.symm.trans (stage_of_phase hphase)

end CodexGateway.Adapter
