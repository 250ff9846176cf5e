import CodexGateway.Adapter.Executions

/-!
# Adapter/TerminalTold — who is told of the end while a Response is active

The driver publishes the terminal event inside its loop and calls back to the BFF in its `finally`
block; both come before `_cleanup` takes the Response out of the active table, and `_start` and
`delete` look at that table.  So a client that has been told of the end may be refused because the
Response is in progress.

A Response is free for all who have been told exactly as long as whoever is told is told after the
cleanup (`told_free`).
-/

namespace CodexGateway.Adapter

open Execution

/-! ## The checks of a request -/

/-- What the checks raise: `ResponseNotFoundError` or `ResponseConflictError`. -/
inductive StoreError where
  | notFound (responseId : String)
  | conflict (message code : String)
deriving DecidableEq

/-- What a continuation of an active Response is refused with. -/
def previousInProgress : StoreError :=
  .conflict "previous_response_id is still in progress." "previous_response_in_progress"

/-- What the deletion of an active Response is refused with. -/
def deleteInProgress : StoreError :=
  .conflict "An in-progress response must be cancelled before deletion." "response_conflict"

namespace Executions

variable (s : Executions)

/-- The first checks of `_start`, where the request names a previous Response. -/
def checkPrevious (previousResponseId : String) : Except StoreError StoredResponse :=
  match s.get previousResponseId with
  | none => .error (.notFound previousResponseId)
  | some previous =>
    if (s.getActive previous.id).isSome then .error previousInProgress else .ok previous

/-- The checks of `delete`. -/
def checkDelete (responseId : String) : Except StoreError StoredResponse :=
  if (s.getActive responseId).isSome then .error deleteInProgress
  else
    match s.get responseId with
    | none => .error (.notFound responseId)
    | some record => .ok record

/-- Neither a continuation nor a deletion of the Response is refused because it is in progress. -/
def Free (responseId : String) : Prop :=
  s.checkPrevious responseId ≠ .error previousInProgress ∧
    s.checkDelete responseId ≠ .error deleteInProgress

variable {s} {id : String}

/-- What `_start` refuses is refused by its step. -/
theorem prepare_of_checkPrevious {t : Execution} (hid : t.request.previousResponseId = some id)
    (hne : id ≠ "") {error : StoreError} (h : s.checkPrevious id = .error error) :
    ∃ u : Execution, t.prepare s = u.unwind s := by
  have hfilter : t.request.previousResponseId.filter (· ≠ "") = some id := by simp [hid, hne]
  cases hget : s.get id with
  | none => exact ⟨t, by simp only [Execution.prepare, hfilter, hget]⟩
  | some previous =>
    simp only [checkPrevious, hget] at h
    split_ifs at h with hactive
    exact ⟨_, by simp only [Execution.prepare, hfilter, hget, if_pos hactive]; rfl⟩

/-- A deletion that is refused leaves the store as it is. -/
theorem delete_of_checkDelete {error : StoreError} (h : s.checkDelete id = .error error) :
    s.delete id = s := by
  rw [checkDelete] at h
  rw [delete]
  split_ifs at h with hactive
  · rw [if_pos hactive]
  · rw [if_neg hactive]
    split at h
    · rename_i hget
      have hnone : ∀ record ∈ s.records, decide (record.id ≠ id) = true := fun record hrecord => by
        simpa using List.find?_eq_none.mp hget record hrecord
      rw [List.filter_eq_self.mpr hnone]
    · cases h

theorem getActive_eq_none_iff :
    s.getActive id = none ↔ ∀ entry ∈ s.active, entry.responseId ≠ id := by
  rw [getActive, List.find?_eq_none]
  simp

/-- A Response that is out of the active table is free. -/
theorem free_of_getActive (h : s.getActive id = none) : s.Free id := by
  constructor
  · rw [checkPrevious]
    split
    · simp [previousInProgress]
    · rename_i previous hget
      obtain rfl : previous.id = id := by simpa using List.find?_some hget
      simp [h]
  · rw [checkDelete, h, Option.isSome_none, if_neg Bool.false_ne_true]
    split
    · simp [deleteInProgress]
    · simp

end Executions

/-! ## Who is told -/

/-- What has become of the terminal event of a Response: it is not published, was published without
a subscriber, is in a subscriber's queue, or was taken from it. -/
inductive TerminalEvent where
  | unpublished
  | unheard
  | queued
  | delivered
deriving DecidableEq

/-- The service; `told` are the Responses whose terminal event a subscriber was given, or whose
callback the BFF has received. -/
structure Audience where
  executions : Executions
  terminals : String → TerminalEvent
  told : List String

/-- A step of an execution, or of those who are told of its end. -/
inductive ToldAct where
  | step (a : Act)
  | publishTerminal
  | deliver
  | callback

namespace Audience

variable (settings : ExecutionSettings) (s : Audience)

/-- The terminal event of a Response goes from one hand to the next. -/
def setTerminal (id : String) (event : TerminalEvent) : Audience :=
  { s with terminals := Function.update s.terminals id event }

/-- `_publish_response_events` with the terminal event, unless that was published before. -/
def publishTerminal (id : String) (subscription : Subscription) : Audience :=
  if s.terminals id = .unpublished then
    s.setTerminal id (if subscription = .subscribed then .queued else .unheard)
  else s

/-- What the driver's loop has published when it ends: it returns after the terminal event, and an
`Exception` that it raises is published as one. -/
def endLoop (t : Execution) (a : Act) : Option Audience :=
  match t.phase, t.recordId, a with
  | .drive, some id, .returned _ => if s.terminals id = .unpublished then none else some s
  | .drive, some id, .raised error =>
    some (if error = .base then s else s.publishTerminal id t.subscription)
  | _, _, _ => some s

/-- Somebody is told of the end of a Response. -/
def tell (id : String) : Audience := { s with told := id :: s.told }

/-- A step of an execution, or somebody is told of its end: the subscriber takes the event from its
queue, or the BFF receives the callback, which may be answered or given up by then. -/
def act (s : Audience) (t : Execution) : ToldAct → Option (Audience × Execution)
  | .step a => (s.endLoop t a).bind fun s =>
      (t.act settings s.executions a).map fun r => ({ s with executions := r.1 }, r.2)
  | .publishTerminal =>
    match t.phase, t.recordId with
    | .drive, some id => some (s.publishTerminal id t.subscription, t)
    | _, _ => none
  | .deliver =>
    match t.recordId with
    | some id =>
      if s.terminals id = .queued ∧ t.subscription ≠ .unsubscribed then
        some ((s.setTerminal id .delivered).tell id, t)
      else none
    | none => none
  | .callback =>
    match t.phase, t.recordId with
    | .notify _, some id => some (s.tell id, t)
    | .finished, some id =>
      if t.request.publishGrant ∧ settings.publishCallbackUrl then some (s.tell id, t) else none
    | _, _ => none

/-- What reaches the service from outside tells nobody of an end. -/
def env (s : Audience) (event : ServiceEvent) : Option (Audience × List Execution) :=
  (serviceEvent s.executions event).map fun r => ({ s with executions := r.1 }, r.2)

end Audience

/-- The executions of a service, and who is told of their ends. -/
def toldService (settings : ExecutionSettings) :
    Pool.Program Audience Execution ToldAct ServiceEvent :=
  ⟨Audience.act settings, Audience.env⟩

/-- The service before its first request. -/
def toldCreate (settings : ExecutionSettings) : Pool Audience Execution :=
  ⟨⟨(Service.create settings).shared, fun _ => .unpublished, []⟩, []⟩

/-- Whoever is told of the end of a Response is told when its driver has come past the unregister of
`_cleanup`. -/
def ToldLate (w : Pool Audience Execution) : Pool.Action ToldAct ServiceEvent → Prop
  | .task n .deliver | .task n .callback => ∀ t ∈ w.tasks[n]?, t.phase = .finished
  | _ => True

instance (w : Pool Audience Execution) : ∀ a, Decidable (ToldLate w a)
  | .task n .deliver | .task n .callback => by unfold ToldLate; infer_instance
  | .task _ (.step _) | .task _ .publishTerminal | .env _ => Decidable.isTrue trivial

/-! ## What a step of an execution does to the active table -/

section Steps

variable {settings : ExecutionSettings} {s s' : Executions} {t t' : Execution} {a : Act}

/-- The driver of the execution has started. -/
def Execution.Past (t : Execution) : Prop := t.stage = .running ∨ t.phase = .finished

/-- The active table lists the execution as long as its driver runs. -/
def Executions.Lists (s : Executions) (t : Execution) : Prop :=
  ∀ id, t.recordId = some id → (s.getActive id = none ↔ t.stage ≠ .running)

/-- A row of another Response is not touched by an unregister. -/
theorem getActive_unregisterActive {id other : String} (hne : other ≠ id) :
    (s.unregisterActive id).getActive other = none ↔ s.getActive other = none := by
  simp only [Executions.getActive_eq_none_iff, Executions.unregisterActive, List.mem_filter,
    decide_eq_true_eq, and_imp]
  refine ⟨fun h entry hentry => ?_, fun h entry hentry _ => h entry hentry⟩
  by_cases hid : entry.responseId = id
  · exact fun hother => hne (hother.symm.trans hid)
  · exact h entry hentry hid

theorem getActive_registerActive {entry : ActiveEntry} {other : String}
    (hne : other ≠ entry.responseId) :
    (s.registerActive entry).getActive other = none ↔ s.getActive other = none := by
  refine Iff.trans ?_ (getActive_unregisterActive hne)
  simp only [Executions.getActive_eq_none_iff, Executions.registerActive,
    Executions.unregisterActive, List.mem_append, List.mem_singleton]
  refine ⟨fun h row hrow => h row (.inl hrow), fun h row hrow => ?_⟩
  rcases hrow with hrow | rfl
  · exact h row hrow
  · exact fun heq => hne heq.symm

/-- The code of `_start` up to an awaited call leaves the table as it is. -/
theorem proceeds_active {k : Option String} {r : Executions × Execution} (h : Proceeds s t k r) :
    r.1.active = s.active ∧ r.1.responses = s.responses ∧ r.2.recordId = t.recordId ∧
      r.2.stage ≠ .running := by
  cases h with
  | awaits hstage hid => exact ⟨rfl, rfl, hid, by rw [hstage]; decide⟩
  | refuses hphase hid => exact ⟨rfl, rfl, hid, by rw [stage, hphase]; decide⟩

/-- **What a step changes**: an execution gets a new id when it is prepared, enters the active table
when its driver starts, and leaves it when the driver is past `_cleanup`. -/
structure Changes (s : Executions) (t : Execution) (s' : Executions) (t' : Execution) : Prop where
  recordId : t'.recordId = t.recordId ∨
    ∃ id, t'.recordId = some id ∧ id ∉ s.responses ∧ id ∈ s'.responses
  responses : ∀ id ∈ s.responses, id ∈ s'.responses
  past : t.Past → t'.Past ∧ t'.recordId = t.recordId
  finished : t.phase = .finished → t'.phase = .finished
  others : ∀ id, t.recordId ≠ some id → (s'.getActive id = none ↔ s.getActive id = none)
  lists : s.Lists t → (∀ id ∉ s.responses, s.getActive id = none) → s'.Lists t'

theorem not_past_of (hstage : t.stage = .waiting ∨ t.stage = .starting) : ¬ t.Past := by
  rintro (hrunning | hphase)
  · rcases hstage with hstage | hstage
    all_goals exact absurd (hstage.symm.trans hrunning) (by decide)
  · have hover : t.stage = .over := by rw [stage, hphase]; rfl
    rcases hstage with hstage | hstage
    all_goals exact absurd (hstage.symm.trans hover) (by decide)

/-- A step before the driver leaves the table as it is. -/
theorem Changes.of_start (hstage : t.stage = .waiting ∨ t.stage = .starting)
    (hstage' : t'.stage ≠ .running) (hid : t'.recordId = t.recordId)
    (hactive : s'.active = s.active) (hresponses : s'.responses = s.responses) :
    Changes s t s' t' where
  recordId := .inl hid
  responses _ h := hresponses ▸ h
  past h := absurd h (not_past_of hstage)
  finished h := absurd (.inr h) (not_past_of hstage)
  others id _ := by rw [Executions.getActive, hactive]; rfl
  lists h _ id hid' := by
    have hrunning : t.stage ≠ .running := fun hr => not_past_of hstage (.inl hr)
    have hsame : s'.getActive id = s.getActive id := by rw [Executions.getActive, hactive]; rfl
    rw [hsame]
    exact iff_of_true ((h id (hid ▸ hid')).mpr hrunning) hstage'

theorem changes_register {id : String} (hid : t.recordId = some id)
    (hstage : t.stage = .starting) (sandbox : SandboxInfo) :
    Changes s t (t.register id sandbox s).1 (t.register id sandbox s).2 where
  recordId := .inl rfl
  responses _ h := h
  past h := absurd h (not_past_of (.inr hstage))
  finished h := absurd (.inr h) (not_past_of (.inr hstage))
  others other hother :=
    getActive_registerActive fun heq : other = id => hother (hid.trans (congrArg some heq.symm))
  lists _ _ other hother := by
    obtain rfl := Option.some.inj (hid.symm.trans hother)
    refine iff_of_false (fun hnone => ?_) fun hstage => hstage rfl
    exact Executions.getActive_eq_none_iff.mp hnone ⟨id, sandbox.id⟩
      (List.mem_append_right _ (List.mem_singleton_self _)) rfl

theorem changes_cleanup {id : String} (hid : t.recordId = some id) :
    Changes s t (t.cleanup id s).1 (t.cleanup id s).2 where
  recordId := .inl rfl
  responses _ h := h
  past _ := ⟨.inr rfl, rfl⟩
  finished _ := rfl
  others other hother := getActive_unregisterActive (s := s)
    fun heq => hother (hid.trans (congrArg some heq.symm))
  lists _ _ other hother := by
    obtain rfl := Option.some.inj (hid.symm.trans hother)
    refine iff_of_true ?_ (show ExecutionPhase.finished.stage ≠ .running by decide)
    refine Executions.getActive_eq_none_iff.mpr fun entry hentry => ?_
    exact of_decide_eq_true (List.mem_filter.mp hentry).2

theorem changes_of_step (h : Step s t a s' t') : Changes s t s' t' := by
  have hwaiting (hphase : t.phase = .acquire) : t.stage = .waiting ∨ t.stage = .starting :=
    .inl (by rw [stage, hphase]; rfl)
  have hstarting {phase : ExecutionPhase} (hphase : t.phase = phase)
      (hstage : phase.stage = .starting) : t.stage = .waiting ∨ t.stage = .starting :=
    .inr (by rw [stage, hphase, hstage])
  have hstage' {phase : ExecutionPhase} (hstage : phase.stage ≠ .running) :
      stage { t with phase := phase } ≠ .running := hstage
  cases h with
  | acquired hphase => exact .of_start (hwaiting hphase) (hstage' (by decide)) rfl rfl rfl
  | rejected hphase => exact .of_start (hwaiting hphase) (hstage' (by decide)) rfl rfl rfl
  | @prepared id _ _ hphase hfresh _ hproceeds =>
    obtain ⟨hactive, hresponses, hid, hrunning⟩ := proceeds_active hproceeds
    have hnot : ¬ t.Past := not_past_of (hstarting hphase rfl)
    refine ⟨.inr ⟨id, hid, hfresh, hresponses ▸ List.mem_cons_self⟩,
      fun _ h => hresponses ▸ List.mem_cons_of_mem _ h, fun h => absurd h hnot,
      fun h => absurd (.inr h) hnot, fun other _ => ?_, fun _ hknown other hother => ?_⟩
    · rw [Executions.getActive, hactive]
      rfl
    · obtain rfl := Option.some.inj (hid.symm.trans hother)
      rw [Executions.getActive, hactive]
      exact iff_of_true (hknown id hfresh) hrunning
  | created hphase _ hproceeds =>
    obtain ⟨hactive, hresponses, hid, hrunning⟩ := proceeds_active hproceeds
    exact .of_start (hstarting hphase rfl) hrunning hid hactive hresponses
  | proceeded hstage _ hproceeds =>
    obtain ⟨hactive, hresponses, hid, hrunning⟩ := proceeds_active hproceeds
    exact .of_start (.inr hstage) hrunning hid hactive hresponses
  | stranded hphase => exact .of_start (hstarting hphase rfl) (hstage' (by decide)) rfl rfl rfl
  | registered hphase hid =>
    exact changes_register hid (by rw [stage, hphase]; rfl) _
  | ran hstage hstage' =>
    refine ⟨.inl rfl, fun _ h => h, fun _ => ⟨.inl hstage', rfl⟩, fun h => ?_, fun _ _ => .rfl,
      fun h _ id hid => (h id hid).trans (iff_of_false (absurd hstage) (absurd hstage'))⟩
    rw [stage, h] at hstage
    cases hstage
  | finished _ hid => exact changes_cleanup hid
  | unsubscribed =>
    exact ⟨.inl rfl, fun _ h => h, fun h => ⟨h, rfl⟩, fun h => h, fun _ _ => .rfl, fun h _ => h⟩

theorem changes_refl (s : Executions) (t : Execution) : Changes s t s t :=
  ⟨.inl rfl, fun _ h => h, fun h => ⟨h, rfl⟩, fun h => h, fun _ _ => .rfl, fun h _ => h⟩

end Steps

/-! ## The run -/

/-- Who has been told of an end was told after the cleanup; the table lists the drivers that run. -/
structure Late (w : Pool Audience Execution) : Prop where
  apart : Pool.Apart (·.recordId) w.tasks
  known : ∀ t ∈ w.tasks, ∀ id, t.recordId = some id → id ∈ w.shared.executions.responses
  entered : ∀ id ∉ w.shared.executions.responses, w.shared.executions.getActive id = none
  lists : ∀ t ∈ w.tasks, w.shared.executions.Lists t
  ended : ∀ id, w.shared.terminals id ≠ .unpublished →
    ∃ t ∈ w.tasks, t.recordId = some id ∧ t.Past
  told : ∀ id ∈ w.shared.told, ∃ t ∈ w.tasks, t.recordId = some id ∧ t.phase = .finished

section Run

variable {settings : ExecutionSettings} {w w' : Pool Audience Execution} {t t' : Execution} {i : ℕ}

theorem late_create (settings : ExecutionSettings) : Late (toldCreate settings) :=
  ⟨Pool.apart_nil, fun _ h => absurd h List.not_mem_nil, fun _ _ => rfl,
    fun _ h => absurd h List.not_mem_nil, fun _ h => absurd rfl h,
    fun _ h => absurd h List.not_mem_nil⟩

/-- What holds of an execution of the Response, and is kept by its step, holds of one after it. -/
theorem exists_set {tasks : List Execution} {id : String} {q : Execution → Prop}
    (h : ∃ u ∈ tasks, u.recordId = some id ∧ q u) (hi : tasks[i]? = some t)
    (hkeep : q t → q t' ∧ t'.recordId = t.recordId) :
    ∃ u ∈ tasks.set i t', u.recordId = some id ∧ q u := by
  obtain ⟨u, hu, hid, hq⟩ := h
  obtain ⟨j, hj⟩ := List.mem_iff_getElem?.mp hu
  by_cases hij : i = j
  · subst hij
    obtain rfl := Option.some.inj (hi.symm.trans hj)
    exact ⟨t', List.mem_set (List.getElem?_eq_some_iff.mp hi).1 t', (hkeep hq).2.trans hid,
      (hkeep hq).1⟩
  · exact ⟨u, List.mem_iff_getElem?.mpr ⟨j, by rwa [List.getElem?_set_ne hij]⟩, hid, hq⟩

/-- A Response has one execution. -/
theorem Late.past (h : Late w) (hi : w.tasks[i]? = some t) {id : String}
    (hrecord : t.recordId = some id) (hend : w.shared.terminals id ≠ .unpublished) : t.Past := by
  obtain ⟨u, hu, hid, hpast⟩ := h.ended id hend
  obtain ⟨j, hj⟩ := List.mem_iff_getElem?.mp hu
  obtain rfl := h.apart i j t u id hi hj hrecord hid
  exact Option.some.inj (hi.symm.trans hj) ▸ hpast

/-- A Response whose driver has come past the unregister is out of the table. -/
theorem Late.getActive (h : Late w) {id : String}
    (hfinished : ∃ t ∈ w.tasks, t.recordId = some id ∧ t.phase = .finished) :
    w.shared.executions.getActive id = none := by
  obtain ⟨t, ht, hid, hphase⟩ := hfinished
  exact (h.lists t ht id hid).mpr (by rw [stage, hphase]; decide)

/-- What a task does to the events is about its own Response, once its driver has started, and who
is told of it is told when that is past the unregister. -/
theorem Late.set (h : Late w) (hi : w.tasks[i]? = some t) {s' : Audience}
    (hchanges : Changes w.shared.executions t s'.executions t')
    (hterminals : ∀ id, s'.terminals id ≠ .unpublished →
      w.shared.terminals id ≠ .unpublished ∨ t.recordId = some id ∧ t.Past)
    (htold : ∀ id ∈ s'.told, id ∈ w.shared.told ∨ t.recordId = some id ∧ t.phase = .finished) :
    Late ⟨s', w.tasks.set i t'⟩ := by
  have ht : t ∈ w.tasks := List.mem_of_getElem? hi
  have hfinished (hphase : t.phase = .finished) :
      t'.phase = .finished ∧ t'.recordId = t.recordId :=
    ⟨hchanges.finished hphase, (hchanges.past (.inr hphase)).2⟩
  refine ⟨h.apart.set hi fun id hid => ?_, fun u hu id hid => ?_, fun id hid => ?_,
    fun u hu => ?_, fun id hid => ?_, fun id hid => ?_⟩
  · rcases hchanges.recordId with hsame | ⟨new, hnew, hfresh, -⟩
    · exact .inl (hsame ▸ hid)
    · obtain rfl := Option.some.inj (hnew.symm.trans hid)
      exact .inr fun u hu hheld => hfresh (h.known u hu _ hheld)
  · rcases List.mem_or_eq_of_mem_set hu with hu | rfl
    · exact hchanges.responses id (h.known u hu id hid)
    · rcases hchanges.recordId with hsame | ⟨new, hnew, -, hmem⟩
      · exact hchanges.responses id (h.known t ht id (hsame ▸ hid))
      · rwa [← Option.some.inj (hnew.symm.trans hid)]
  · have hold : id ∉ w.shared.executions.responses := fun h => hid (hchanges.responses id h)
    exact (hchanges.others id fun hown => hold (h.known t ht id hown)).mpr (h.entered id hold)
  · obtain ⟨j, hj⟩ := List.mem_iff_getElem?.mp hu
    rw [List.getElem?_set] at hj
    split_ifs at hj with hij hlt
    · obtain rfl := Option.some.inj hj
      exact hchanges.lists (h.lists t ht) h.entered
    · -- another execution has another id
      intro id hid
      refine (hchanges.others id fun hown => hij ?_).trans
        (h.lists u (List.mem_of_getElem? hj) id hid)
      exact h.apart i j t u id hi hj hown hid
  · rcases hterminals id hid with hold | ⟨hrecord, hpast⟩
    · exact exists_set (h.ended id hold) hi hchanges.past
    · exact exists_set ⟨t, ht, hrecord, hpast⟩ hi hchanges.past
  · rcases htold id hid with hold | ⟨hrecord, hphase⟩
    · exact exists_set (h.told id hold) hi hfinished
    · exact exists_set ⟨t, ht, hrecord, hphase⟩ hi hfinished

namespace Audience

variable {s s' : Audience} {id : String}

theorem setTerminal_terminals (event : TerminalEvent) {other : String}
    (h : (s.setTerminal id event).terminals other ≠ .unpublished) :
    s.terminals other ≠ .unpublished ∨ other = id := by
  by_cases heq : other = id
  · exact .inr heq
  · exact .inl (by simpa only [setTerminal, Function.update_of_ne heq] using h)

theorem publishTerminal_spec (s : Audience) (id : String) (subscription : Subscription) :
    (s.publishTerminal id subscription).executions = s.executions ∧
      (s.publishTerminal id subscription).told = s.told ∧
        ∀ other, (s.publishTerminal id subscription).terminals other ≠ .unpublished →
          s.terminals other ≠ .unpublished ∨ other = id := by
  rw [publishTerminal]
  by_cases h : s.terminals id = .unpublished
  · rw [if_pos h]
    exact ⟨rfl, rfl, fun _ => setTerminal_terminals _⟩
  · rw [if_neg h]
    exact ⟨rfl, rfl, fun _ h => .inl h⟩

theorem endLoop_spec {a : Act} (h : s.endLoop t a = some s') :
    s'.executions = s.executions ∧ s'.told = s.told ∧
      ∀ id, s'.terminals id ≠ .unpublished →
        s.terminals id ≠ .unpublished ∨ t.recordId = some id ∧ t.phase = .drive := by
  rw [endLoop.eq_def] at h
  split at h
  · split_ifs at h
    obtain rfl := Option.some.inj h
    exact ⟨rfl, rfl, fun _ h => .inl h⟩
  · rename_i id error hphase hrecord
    obtain rfl := Option.some.inj h
    split_ifs
    · exact ⟨rfl, rfl, fun _ h => .inl h⟩
    · obtain ⟨hexecutions, htold, hterminals⟩ := publishTerminal_spec s id t.subscription
      refine ⟨hexecutions, htold, fun other h => (hterminals other h).imp_right fun heq => ?_⟩
      exact ⟨heq ▸ hrecord, hphase⟩
  · obtain rfl := Option.some.inj h
    exact ⟨rfl, rfl, fun _ h => .inl h⟩

end Audience

theorem past_of_drive (h : t.phase = .drive) : t.Past := .inl (by rw [stage, h]; rfl)

/-- Nothing that comes from outside is about the end of a Response. -/
theorem Late.event (h : Late w) {event : ServiceEvent} {s' : Audience} {ts : List Execution}
    (henv : w.shared.env event = some (s', ts)) : Late ⟨s', w.tasks ++ ts⟩ := by
  obtain ⟨r, hr, heq⟩ := Option.map_eq_some_iff.mp henv
  cases heq
  have hold {q : Execution → Prop} : (∃ t ∈ w.tasks, q t) → ∃ t ∈ w.tasks ++ r.2, q t :=
    fun ⟨t, ht, hq⟩ => ⟨t, List.mem_append_left _ ht, hq⟩
  obtain ⟨hactive, hresponses, hnew⟩ : r.1.active = w.shared.executions.active ∧
      r.1.responses = w.shared.executions.responses ∧ ∀ t ∈ r.2, t.recordId = none := by
    cases event with
    | create request =>
      cases hr
      exact ⟨rfl, rfl, fun t ht => by rw [List.mem_singleton.mp ht]; rfl⟩
    | delete id =>
      cases hr
      simp only [Executions.delete]
      split_ifs
      all_goals exact ⟨rfl, rfl, fun _ ht => absurd ht List.not_mem_nil⟩
  have hsame (id : String) : r.1.getActive id = w.shared.executions.getActive id := by
    rw [Executions.getActive, hactive]
    rfl
  refine ⟨h.apart.append hnew, fun t ht id hid => ?_, fun id hid => ?_, fun t ht id hid => ?_,
    fun id hid => hold (h.ended id hid), fun id hid => hold (h.told id hid)⟩
  · rcases List.mem_append.mp ht with ht | ht
    · exact hresponses ▸ h.known t ht id hid
    · rw [hnew t ht] at hid
      cases hid
  · rw [hsame]
    exact h.entered id (hresponses ▸ hid)
  · rcases List.mem_append.mp ht with ht | ht
    · rw [hsame]
      exact h.lists t ht id hid
    · rw [hnew t ht] at hid
      cases hid

/-- Who is told of the end of a Response, is told by its execution. -/
theorem Late.teller (h : Late w) {a : ToldAct} (ha : a = .deliver ∨ a = .callback)
    (hi : w.tasks[i]? = some t) {s' : Audience}
    (hact : w.shared.act settings t a = some (s', t')) :
    t' = t ∧ s'.executions = w.shared.executions ∧ t.Past ∧ ∃ id, t.recordId = some id ∧
      s'.told = id :: w.shared.told ∧
        ∀ other, s'.terminals other ≠ .unpublished →
          w.shared.terminals other ≠ .unpublished ∨ other = id := by
  rcases ha with rfl | rfl
  · simp only [Audience.act] at hact
    split at hact
    · rename_i id hrecord
      split_ifs at hact with hqueued
      cases hact
      refine ⟨rfl, rfl, h.past hi hrecord (by rw [hqueued.1]; decide), id, hrecord, rfl,
        fun other hother => Audience.setTerminal_terminals _ hother⟩
    · cases hact
  · simp only [Audience.act] at hact
    split at hact
    · rename_i attempt id hphase hrecord
      cases hact
      exact ⟨rfl, rfl, .inl (by rw [stage, hphase]; rfl), id, hrecord, rfl, fun _ => .inl⟩
    · rename_i id hphase hrecord
      split_ifs at hact
      cases hact
      exact ⟨rfl, rfl, .inr hphase, id, hrecord, rfl, fun _ => .inl⟩
    · cases hact

/-- **Told past the unregister is told out of the table.**  The condition on the driver's phase says
the same as one on the active table would. -/
theorem Late.toldLate_iff (h : Late w) {a : ToldAct} (ha : a = .deliver ∨ a = .callback)
    (hstep : Pool.step (toldService settings) w (.task i a) = some w') :
    ToldLate w (.task i a) ↔
      ∀ t ∈ w.tasks[i]?, ∀ id ∈ t.recordId, w.shared.executions.getActive id = none := by
  obtain ⟨t, s', t', hi, hact, -⟩ := Pool.step_task.mp hstep
  obtain ⟨-, -, hpast, id, hrecord, -⟩ := h.teller ha hi hact
  have ht : t ∈ w.tasks := List.mem_of_getElem? hi
  have hlate : ToldLate w (.task i a) ↔ t.phase = .finished := by
    rcases ha with rfl | rfl
    all_goals simp [ToldLate, hi]
  have hnone : (∀ t ∈ w.tasks[i]?, ∀ id ∈ t.recordId,
      w.shared.executions.getActive id = none) ↔ w.shared.executions.getActive id = none := by
    simp [hi, hrecord]
  rw [hlate, hnone]
  refine ⟨fun hphase => h.getActive ⟨t, ht, hrecord, hphase⟩, fun hnone => ?_⟩
  exact hpast.resolve_left ((h.lists t ht id hrecord).mp hnone)

theorem Late.step (h : Late w) {a : Pool.Action ToldAct ServiceEvent} (hcond : ToldLate w a)
    (hstep : Pool.step (toldService settings) w a = some w') : Late w' := by
  cases a with
  | env event =>
    obtain ⟨s', ts, henv, rfl⟩ := Pool.step_env.mp hstep
    exact h.event henv
  | task i a =>
    obtain ⟨t, s', t', hi, hact, rfl⟩ := Pool.step_task.mp hstep
    have htells (ha : a = .deliver ∨ a = .callback) (hphase : t.phase = .finished) :
        Late ⟨s', w.tasks.set i t'⟩ := by
      obtain ⟨rfl, hexecutions, hpast, id, hrecord, htold, hterminals⟩ := h.teller ha hi hact
      refine h.set hi (hexecutions ▸ changes_refl _ _) (fun other hother => ?_)
        fun other hother => ?_
      · exact (hterminals other hother).imp_right fun heq : other = id => ⟨heq ▸ hrecord, hpast⟩
      · rcases List.mem_cons.mp (htold ▸ hother) with rfl | hother
        · exact .inr ⟨hrecord, hphase⟩
        · exact .inl hother
    cases a with
    | step a =>
      obtain ⟨s₁, hend, hact⟩ := Option.bind_eq_some_iff.mp hact
      obtain ⟨r, hr, heq⟩ := Option.map_eq_some_iff.mp hact
      cases heq
      obtain ⟨hexecutions, htold, hterminals⟩ := Audience.endLoop_spec hend
      refine h.set hi (hexecutions ▸ changes_of_step (step_of_act hr)) (fun id hid => ?_)
        fun id hid => .inl (htold ▸ hid)
      exact (hterminals id hid).imp_right (And.imp_right past_of_drive)
    | publishTerminal =>
      simp only [toldService, Audience.act] at hact
      split at hact
      · rename_i id hphase hrecord
        cases hact
        obtain ⟨hexecutions, htold, hterminals⟩ :=
          Audience.publishTerminal_spec w.shared id t.subscription
        refine h.set hi (hexecutions ▸ changes_refl _ _) (fun other hother => ?_)
          fun other hother => .inl (htold ▸ hother)
        exact (hterminals other hother).imp_right
          fun heq : other = id => ⟨heq ▸ hrecord, past_of_drive hphase⟩
      · cases hact
    | deliver => exact htells (.inl rfl) (hcond t hi)
    | callback => exact htells (.inr rfl) (hcond t hi)

/-- **As long as whoever is told of the end of a Response is told after the cleanup, the Response is
free for all who have been told.** -/
theorem told_free {actions : List (Pool.Action ToldAct ServiceEvent)}
    (hrun : Machine.run (Pool.step (toldService settings)) (toldCreate settings) actions = some w)
    (hlate : Machine.Meets (Pool.step (toldService settings)) ToldLate (toldCreate settings)
      actions) : ∀ id ∈ w.shared.told, w.shared.executions.Free id := by
  have h : Late w := Machine.run_invariant (fun _ _ _ hcond h hstep => h.step hcond hstep) hlate
    hrun (late_create settings)
  exact fun id hid => Executions.free_of_getActive (h.getActive (h.told id hid))

end Run

/-! ## A client that is faster than the cleanup -/

/-- A service with one permit and a callback. -/
def tellingSettings : ExecutionSettings := ⟨1, true, false⟩

/-- A Sandbox with a worker. -/
def tellingSandbox : SandboxInfo := ⟨"sandbox_1", .running, true, none, false⟩

/-- A Response up to its terminal event. -/
def tellingRun (subscribe : Bool) : List (Pool.Action ToldAct ServiceEvent) :=
  .env (.create ⟨none, false, false, true, subscribe⟩) ::
    ([.step .acquired, .step (.prepared "resp_0"), .step (.returned (.sandbox tellingSandbox)),
      .step (.returned .value), .step (.returned .value), .step (.returned .value),
      .publishTerminal] : List ToldAct).map (.task 0)

/-- The driver's end, with its callback answered. -/
def tellingEnd : List (Pool.Action ToldAct ServiceEvent) :=
  List.replicate 3 (.task 0 (.step (.returned .value)))

/-- The subscriber takes the event from its queue after the cleanup. -/
theorem told_free_patient : ∃ w, Machine.run (Pool.step (toldService tellingSettings))
    (toldCreate tellingSettings) (tellingRun true ++ tellingEnd ++ [.task 0 .deliver]) = some w ∧
      w.shared.told = ["resp_0"] ∧ ∀ id ∈ w.shared.told, w.shared.executions.Free id :=
  have hlate : Machine.Meets (Pool.step (toldService tellingSettings)) ToldLate
      (toldCreate tellingSettings) (tellingRun true ++ tellingEnd ++ [.task 0 .deliver]) := by
    decide +kernel
  ⟨_, rfl, rfl, told_free rfl hlate⟩

/-- It takes it at once, or the BFF receives the callback: the Response is over for them, and still
in progress for the service. -/
theorem not_told_free : (∃ w, Machine.run (Pool.step (toldService tellingSettings))
    (toldCreate tellingSettings) (tellingRun true ++ [.task 0 .deliver]) = some w ∧
      "resp_0" ∈ w.shared.told ∧ ¬ w.shared.executions.Free "resp_0" ∧
        w.shared.executions.checkPrevious "resp_0" = .error previousInProgress ∧
          w.shared.executions.checkDelete "resp_0" = .error deleteInProgress) ∧
    ∃ w, Machine.run (Pool.step (toldService tellingSettings)) (toldCreate tellingSettings)
      (tellingRun false ++ tellingEnd.take 2 ++ [.task 0 .callback]) = some w ∧
        "resp_0" ∈ w.shared.told ∧ ¬ w.shared.executions.Free "resp_0" ∧
          w.shared.executions.checkPrevious "resp_0" = .error previousInProgress ∧
            w.shared.executions.checkDelete "resp_0" = .error deleteInProgress :=
  ⟨⟨_, rfl, List.mem_cons_self, fun h => h.1 rfl, rfl, rfl⟩,
    ⟨_, rfl, List.mem_cons_self, fun h => h.1 rfl, rfl, rfl⟩⟩

end CodexGateway.Adapter
