import CodexGateway.Adapter.McpApps
import CodexGateway.Library.Pool

/-!
# Adapter/Subscribers — the side events of a Response end

A subscriber asks for the events after its cursor, waits while there are none and the Response is
not closed, and is suspended at every event it yields.  Closing is a mark that `delete_response`
takes away: a subscriber that has not seen it by then waits for ever.  Where no closed Response is
deleted before its subscribers have seen that, each of them ends (`subscribers_end`).
-/

namespace CodexGateway.Adapter

open PyJson

/-! ## The tasks -/

/-- What `app_events` is at: an awaited call, where `since` counts the notifications when the wait
began, or a `yield`. -/
inductive SubscriberPhase where
  | get
  | call
  | waiting (since : ℕ)
  | keepAlive
  | yielding (rest : List AppEvent) (closed : Bool)
  | returned
  | raised

/-- A subscriber of the events of a Response. -/
structure Subscriber where
  responseId : String
  cursor : ℤ
  phase : SubscriberPhase

/-- A subscriber, or a deletion that has found no active execution. -/
inductive SideTask where
  | subscriber (t : Subscriber)
  | storeDelete (responseId : String)
  | deleteResponse (responseId : String)
  | deleted

/-- The Apps and the store; `seen` are the ids that were given out. -/
structure SideState where
  apps : McpAppsState
  records : String → Bool
  seen : String → Bool

/-- What happens to a task that waits. -/
inductive SideAction where
  | proceed
  | timeout
  | disconnect

/-- What reaches the stream from outside. -/
inductive SideEvent where
  | put (responseId : String)
  | publish (responseId type : String) (data : Json)
  | close (responseId : String)
  | subscribe (responseId : String) (after : ℤ)
  | delete (responseId : String)

namespace Subscriber

variable (t : Subscriber) (s : SideState)

/-- A subscriber goes on. -/
def enter (phase : SubscriberPhase) : Subscriber := { t with phase := phase }

/-- The loop of `app_events`, from the return of `wait_for_events` to the next `yield`. -/
def receive (events : List AppEvent) (closed : Bool) : Subscriber :=
  match events with
  | [] => t.enter (if closed then .returned else .keepAlive)
  | event :: rest =>
    { t with cursor := max t.cursor event.sequenceNumber, phase := .yielding rest closed }

/-- `wait_for_events`, up to its wait. -/
def waitForEvents (apps : McpAppsState) : Subscriber :=
  if apps.ready t.responseId t.cursor then
    t.receive (apps.eventsAfter t.responseId t.cursor) (apps.closedResponses t.responseId)
  else t.enter (.waiting apps.notifications)

/-- `app_events`, from one suspension to the next. -/
def proceed : Option Subscriber :=
  match t.phase with
  | .get => some (t.enter (if s.records t.responseId then .call else .raised))
  | .call => some (t.waitForEvents s.apps)
  | .waiting since =>
    if since < s.apps.notifications then some (t.waitForEvents s.apps) else none
  | .keepAlive => some (t.enter .call)
  | .yielding [] closed => some (t.enter (if closed then .returned else .call))
  | .yielding (event :: rest) closed => some (t.receive (event :: rest) closed)
  | .returned | .raised => none

/-- A wait may run out of time, and a client may leave at any suspension. -/
def act : SideAction → Option Subscriber
  | .proceed => t.proceed s
  | .timeout =>
    match t.phase with
    | .waiting _ => some (t.receive [] (s.apps.closedResponses t.responseId))
    | _ => none
  | .disconnect =>
    match t.phase with
    | .returned | .raised => none
    | _ => some (t.enter .returned)

end Subscriber

namespace SideState

/-- The state before the first Response. -/
def init (maxEventHistory : ℕ) : SideState where
  apps := .init maxEventHistory
  records := fun _ => false
  seen := fun _ => false

/-- A task goes on. -/
def act (s : SideState) (t : SideTask) (a : SideAction) : Option (SideState × SideTask) :=
  match t with
  | .subscriber t => (t.act s a).map fun t => (s, .subscriber t)
  | .storeDelete responseId =>
    if s.records responseId then
      some ({ s with records := Function.update s.records responseId false },
        .deleteResponse responseId)
    else some (s, .deleted)
  | .deleteResponse responseId =>
    some ({ s with apps := s.apps.deleteResponse responseId }, .deleted)
  | .deleted => none

/-- `uuid4` gives every Response an id of its own. -/
def env (s : SideState) : SideEvent → Option (SideState × List SideTask)
  | .put responseId =>
    if s.seen responseId then none
    else some ({ s with
      records := Function.update s.records responseId true
      seen := Function.update s.seen responseId true }, [])
  | .publish responseId type data =>
    some ({ s with apps := s.apps.publish responseId type data }, [])
  | .close responseId => some ({ s with apps := s.apps.closeResponse responseId }, [])
  | .subscribe responseId after => some (s, [.subscriber ⟨responseId, after, .get⟩])
  | .delete responseId => some (s, [.storeDelete responseId])

end SideState

/-- The subscribers and the deletions, among the events of the Responses. -/
def sidePool : Pool.Program SideState SideTask SideAction SideEvent :=
  ⟨SideState.act, SideState.env⟩

/-! ## What is meant -/

/-- The subscriber needs no mark any more: it has not begun, has ended, or has seen the mark. -/
def SubscriberPhase.Settled : SubscriberPhase → Prop
  | .get | .returned | .raised | .yielding _ true => True
  | .call | .waiting _ | .keepAlive | .yielding _ false => False

instance : DecidablePred SubscriberPhase.Settled
  | .get | .returned | .raised | .yielding _ true => .isTrue trivial
  | .call | .waiting _ | .keepAlive | .yielding _ false => .isFalse id

/-- The subscribers of the Response are settled. -/
def SideTask.SettledFor (responseId : String) : SideTask → Prop
  | .subscriber t => t.responseId = responseId → t.phase.Settled
  | _ => True

instance (responseId : String) : DecidablePred (SideTask.SettledFor responseId)
  | .subscriber t => inferInstanceAs (Decidable (t.responseId = responseId → t.phase.Settled))
  | .storeDelete _ | .deleteResponse _ | .deleted => .isTrue trivial

/-- The Response whose mark the next step of the task takes away. -/
def SideTask.dropping : SideTask → Option String
  | .deleteResponse responseId => some responseId
  | _ => none

/-- A closed Response is deleted when its subscribers are settled. -/
def DeletesSettled (w : Pool SideState SideTask) : Pool.Action SideAction SideEvent → Prop
  | .task n _ => ∀ responseId ∈ w.tasks[n]?.bind SideTask.dropping,
      w.shared.apps.closedResponses responseId = true → ∀ t ∈ w.tasks, t.SettledFor responseId
  | .env _ => True

instance (w : Pool SideState SideTask) :
    ∀ a : Pool.Action SideAction SideEvent, Decidable (DeletesSettled w a)
  | .task n _ => inferInstanceAs (Decidable (∀ responseId ∈ w.tasks[n]?.bind SideTask.dropping,
      w.shared.apps.closedResponses responseId = true → ∀ t ∈ w.tasks, t.SettledFor responseId))
  | .env _ => inferInstanceAs (Decidable True)

/-- The steps that a subscriber has before it once its Response is closed, at most. -/
def SubscriberPhase.rank (maxEventHistory : ℕ) : SubscriberPhase → ℕ
  | .get | .keepAlive => maxEventHistory + 3
  | .call => maxEventHistory + 2
  | .waiting _ => maxEventHistory + 2
  | .yielding rest true => rest.length + 1
  | .yielding rest false => rest.length + maxEventHistory + 4
  | .returned | .raised => 0

/-! ## Marks and notifications -/

namespace SideState

/-- The histories are bounded, and the ids of the store were given out. -/
structure Good (M : ℕ) (s : SideState) : Prop where
  maxEventHistory : s.apps.maxEventHistory = M
  bounded : ∀ responseId history, s.apps.events responseId = some history → history.length ≤ M
  seen : ∀ responseId, s.records responseId = true → s.seen responseId = true

/-- What every step does: a mark is set with a notification, and no id is given out again. -/
structure Rely (s s' : SideState) : Prop where
  notifications : s.apps.notifications ≤ s'.apps.notifications
  closed : ∀ responseId, s'.apps.closedResponses responseId = true →
    s.apps.closedResponses responseId = true ∨ s.apps.notifications < s'.apps.notifications
  gone : ∀ responseId, s.records responseId = false ∧ s.seen responseId = true →
    s'.records responseId = false ∧ s'.seen responseId = true

theorem Rely.refl (s : SideState) : s.Rely s := ⟨le_rfl, fun _ h => .inl h, fun _ h => h⟩

/-- The Response is closed, or it was and is deleted. -/
def Closed (responseId : String) (s : SideState) : Prop :=
  s.apps.closedResponses responseId = true ∨
    s.records responseId = false ∧ s.seen responseId = true

end SideState

/-- A wait for a Response that is closed has been notified; a deletion has taken the record. -/
def SideTask.Sound (s : SideState) : SideTask → Prop
  | .subscriber t => ∀ since, t.phase = .waiting since → since ≤ s.apps.notifications ∧
      (s.apps.closedResponses t.responseId = true → since < s.apps.notifications)
  | .deleteResponse responseId => s.records responseId = false ∧ s.seen responseId = true
  | _ => True

/-- A subscriber of the closed Response finds the mark, or is settled. -/
def SideTask.Ends (responseId : String) (s : SideState) : SideTask → Prop
  | .subscriber t => t.responseId = responseId → s.apps.closedResponses responseId = true ∨
      (s.records responseId = false ∧ s.seen responseId = true) ∧ t.phase.Settled
  | _ => True

section Steps

variable {M : ℕ} {s s' : SideState} {responseId : String} {t t' : Subscriber}

theorem SideTask.Sound.stable {t : SideTask} (ht : t.Sound s) (h : s.Rely s') : t.Sound s' := by
  cases t with
  | subscriber t =>
    intro since hphase
    obtain ⟨hle, hlt⟩ := ht since hphase
    refine ⟨hle.trans h.notifications, fun hclosed => ?_⟩
    rcases h.closed _ hclosed with hold | hnotified
    · exact (hlt hold).trans_le h.notifications
    · exact hle.trans_lt hnotified
  | deleteResponse responseId => exact h.gone responseId ht
  | storeDelete | deleted => trivial

theorem ready_of_closed {apps : McpAppsState} (h : apps.closedResponses responseId = true)
    (cursor : ℤ) : apps.ready responseId cursor = true := by
  simp [McpAppsState.ready, h]

theorem responseId_receive (events : List AppEvent) (closed : Bool) :
    (t.receive events closed).responseId = t.responseId := by
  cases events <;> rfl

/-- What a subscriber receives is no wait. -/
theorem phase_receive_ne (events : List AppEvent) (closed : Bool) (since : ℕ) :
    (t.receive events closed).phase ≠ .waiting since := by
  cases events with
  | nil => cases closed <;> simp [Subscriber.receive, Subscriber.enter]
  | cons => simp [Subscriber.receive]

/-- **A wait begins where the predicate is false**, and nothing was notified since. -/
theorem sound_waitForEvents : (SideTask.subscriber (t.waitForEvents s.apps)).Sound s := by
  intro since hphase
  rw [Subscriber.waitForEvents] at hphase ⊢
  split_ifs at hphase ⊢ with hready
  · exact absurd hphase (phase_receive_ne _ _ since)
  · obtain rfl : s.apps.notifications = since := by
      simpa [Subscriber.enter] using hphase
    refine ⟨le_rfl, fun hclosed => ?_⟩
    exact absurd (ready_of_closed hclosed t.cursor) hready

/-- What a step of a subscriber does, by the phase it is taken in. -/
inductive Subscriber.Step (s : SideState) (t : Subscriber) : Subscriber → Prop where
  | get (_ : t.phase = .get) :
      Step s t (t.enter (if s.records t.responseId then .call else .raised))
  | call (_ : t.phase = .call) : Step s t (t.waitForEvents s.apps)
  | woken (since : ℕ) (_ : t.phase = .waiting since) : Step s t (t.waitForEvents s.apps)
  | timeout (since : ℕ) (_ : t.phase = .waiting since) :
      Step s t (t.receive [] (s.apps.closedResponses t.responseId))
  | keepAlive (_ : t.phase = .keepAlive) : Step s t (t.enter .call)
  | last (closed : Bool) (_ : t.phase = .yielding [] closed) :
      Step s t (t.enter (if closed then .returned else .call))
  | next (event : AppEvent) (rest : List AppEvent) (closed : Bool)
      (_ : t.phase = .yielding (event :: rest) closed) : Step s t (t.receive (event :: rest) closed)
  | disconnect (_ : t.phase ≠ .returned) (_ : t.phase ≠ .raised) : Step s t (t.enter .returned)

theorem step_of_act {a : SideAction} (h : t.act s a = some t') : t.Step s t' := by
  cases a with
  | proceed =>
    simp only [Subscriber.act, Subscriber.proceed] at h
    split at h
    case h_1 hphase => exact Option.some.inj h ▸ .get hphase
    case h_2 hphase => exact Option.some.inj h ▸ .call hphase
    case h_3 since hphase =>
      split_ifs at h
      exact Option.some.inj h ▸ .woken since hphase
    case h_4 hphase => exact Option.some.inj h ▸ .keepAlive hphase
    case h_5 closed hphase => exact Option.some.inj h ▸ .last closed hphase
    case h_6 event rest closed hphase => exact Option.some.inj h ▸ .next event rest closed hphase
    case h_7 => cases h
    case h_8 => cases h
  | timeout =>
    simp only [Subscriber.act] at h
    split at h
    · rename_i since hphase
      exact Option.some.inj h ▸ .timeout since hphase
    · cases h
  | disconnect =>
    simp only [Subscriber.act] at h
    split at h
    · cases h
    · cases h
    · rename_i hreturned hraised
      exact Option.some.inj h ▸ .disconnect hreturned hraised

namespace Subscriber.Step

variable (h : t.Step s t')

include h

theorem responseId_eq : t'.responseId = t.responseId := by
  cases h with
  | call | woken =>
    rw [waitForEvents]
    split_ifs
    · exact responseId_receive ..
    · rfl
  | timeout | next => exact responseId_receive ..
  | get | keepAlive | last | disconnect => rfl

theorem sound : (SideTask.subscriber t').Sound s := by
  cases h with
  | call | woken => exact sound_waitForEvents
  | timeout | next => exact fun since hphase => absurd hphase (phase_receive_ne _ _ since)
  | get =>
    intro since hphase
    simp only [enter] at hphase
    split_ifs at hphase
  | last closed =>
    intro since hphase
    simp only [enter] at hphase
    split_ifs at hphase
  | keepAlive | disconnect => exact fun since hphase => by cases hphase

/-- **A settled subscriber of a Response that is gone stays settled.** -/
theorem settled (hgone : s.records t.responseId = false) (hsettled : t.phase.Settled) :
    t'.phase.Settled := by
  cases h with
  | get =>
    rw [hgone]
    trivial
  | call hphase | keepAlive hphase => exact absurd hsettled (hphase ▸ id)
  | woken since hphase | timeout since hphase => exact absurd hsettled (hphase ▸ id)
  | last closed hphase =>
    cases closed with
    | false => exact absurd hsettled (hphase ▸ id)
    | true => trivial
  | next event rest closed hphase =>
    cases closed with
    | false => exact absurd hsettled (hphase ▸ id)
    | true => trivial
  | disconnect => trivial

end Subscriber.Step

/-- What is received of a closed Response ends the loop. -/
theorem rank_receive_true (events : List AppEvent) :
    (t.receive events true).phase.rank M ≤ events.length := by
  cases events with
  | nil => exact le_rfl
  | cons event rest => exact le_rfl

/-- The events that are received are no more than the history has. -/
theorem length_eventsAfter_le (hs : s.Good M) (responseId : String) (after : ℤ) :
    (s.apps.eventsAfter responseId after).length ≤ M := by
  refine (List.length_filter_le ..).trans ?_
  cases hevents : s.apps.events responseId with
  | none => exact Nat.zero_le M
  | some history => exact hs.bounded responseId history hevents

theorem rank_waitForEvents (hs : s.Good M)
    (hclosed : s.apps.closedResponses t.responseId = true) :
    (t.waitForEvents s.apps).phase.rank M < M + 2 := by
  rw [Subscriber.waitForEvents, if_pos (ready_of_closed hclosed t.cursor), hclosed]
  have hrank := rank_receive_true (M := M) (t := t)
    (s.apps.eventsAfter t.responseId t.cursor)
  have hlength := length_eventsAfter_le hs t.responseId t.cursor
  omega

/-- **Each step of a subscriber takes it nearer to its end**, once its Response is closed. -/
theorem Subscriber.Step.rank_lt (h : t.Step s t') (hs : s.Good M)
    (hends : s.apps.closedResponses t.responseId = true ∨
      s.records t.responseId = false ∧ t.phase.Settled) :
    t'.phase.rank M < t.phase.rank M := by
  cases h with
  | get hphase =>
    rw [hphase, Subscriber.enter]
    split_ifs
    · exact Nat.lt_succ_self (M + 2)
    · exact Nat.succ_pos (M + 2)
  | call hphase =>
    rw [hphase]
    rcases hends with hclosed | ⟨-, hsettled⟩
    · exact rank_waitForEvents hs hclosed
    · exact absurd hsettled (hphase ▸ id)
  | woken since hphase =>
    rw [hphase]
    rcases hends with hclosed | ⟨-, hsettled⟩
    · exact rank_waitForEvents hs hclosed
    · exact absurd hsettled (hphase ▸ id)
  | timeout since hphase =>
    rw [hphase]
    rcases hends with hclosed | ⟨-, hsettled⟩
    · rw [hclosed]
      exact Nat.succ_pos (M + 1)
    · exact absurd hsettled (hphase ▸ id)
  | keepAlive hphase =>
    rw [hphase]
    exact Nat.lt_succ_self (M + 2)
  | last closed hphase =>
    rw [hphase]
    cases closed <;> simp [Subscriber.enter, SubscriberPhase.rank]
  | next event rest closed hphase =>
    rw [hphase]
    cases closed <;> simp [Subscriber.receive, SubscriberPhase.rank]
  | disconnect hreturned hraised =>
    cases hphase : t.phase with
    | returned => exact absurd hphase hreturned
    | raised => exact absurd hphase hraised
    | yielding rest closed => cases closed <;> simp [Subscriber.enter, SubscriberPhase.rank]
    | get | call | waiting | keepAlive => simp [Subscriber.enter, SubscriberPhase.rank]

/-- A subscriber that has not ended can take a step. -/
theorem exists_proceed (hsound : (SideTask.subscriber t).Sound s)
    (hends : s.apps.closedResponses t.responseId = true ∨ t.phase.Settled)
    (hreturned : t.phase ≠ .returned) (hraised : t.phase ≠ .raised) :
    ∃ t', t.act s .proceed = some t' := by
  simp only [Subscriber.act, Subscriber.proceed]
  split
  case h_3 since hphase =>
    rcases hends with hclosed | hsettled
    · exact ⟨_, if_pos ((hsound since hphase).2 hclosed)⟩
    · exact absurd hsettled (hphase ▸ id)
  case h_7 hphase => exact absurd hphase hreturned
  case h_8 hphase => exact absurd hphase hraised
  all_goals exact ⟨_, rfl⟩

/-! ## The steps of the Responses -/

theorem good_publish (hs : s.Good M) (other type : String) (data : Json) :
    SideState.Good M { s with apps := s.apps.publish other type data } where
  maxEventHistory := hs.maxEventHistory
  bounded := fun responseId history hhistory => by
    by_cases h : responseId = other
    · subst h
      simp only [McpAppsState.publish, McpAppsState.notifyAll, Function.update_self,
        Option.some.injEq] at hhistory
      rw [← hhistory, List.length_drop, hs.maxEventHistory]
      omega
    · simp only [McpAppsState.publish, McpAppsState.notifyAll, Function.update_of_ne h] at hhistory
      exact hs.bounded responseId history hhistory
  seen := hs.seen

theorem good_deleteResponse (hs : s.Good M) (other : String) :
    SideState.Good M { s with apps := s.apps.deleteResponse other } where
  maxEventHistory := hs.maxEventHistory
  bounded := fun responseId history hhistory => by
    by_cases h : responseId = other
    · simp [McpAppsState.deleteResponse, McpAppsState.notifyAll, h] at hhistory
    · simp only [McpAppsState.deleteResponse, McpAppsState.notifyAll,
        Function.update_of_ne h] at hhistory
      exact hs.bounded responseId history hhistory
  seen := hs.seen

/-- A mark is kept by the deletion of another Response, and set by none. -/
theorem closed_deleteResponse (apps : McpAppsState) (other : String) :
    (apps.deleteResponse other).closedResponses responseId =
      (decide (responseId ≠ other) && apps.closedResponses responseId) := by
  by_cases h : responseId = other
  · simp [McpAppsState.deleteResponse, McpAppsState.notifyAll, h]
  · simp [McpAppsState.deleteResponse, McpAppsState.notifyAll, h]

theorem rely_deleteResponse (other : String) :
    s.Rely { s with apps := s.apps.deleteResponse other } where
  notifications := Nat.le_succ _
  closed := fun _ _ => .inr (Nat.lt_succ_self _)
  gone := fun _ h => h

theorem sideEnv_good {e : SideEvent} {ts : List SideTask} (hs : s.Good M)
    (h : SideState.env s e = some (s', ts)) : s'.Good M ∧ s.Rely s' ∧ (∀ t ∈ ts, t.Sound s') ∧
      (∀ responseId, s.apps.closedResponses responseId = true →
        s'.apps.closedResponses responseId = true) ∧
      ∀ t, SideTask.subscriber t ∈ ts → t.phase = .get := by
  cases e with
  | put other =>
    simp only [SideState.env] at h
    split_ifs at h with hseen
    obtain ⟨rfl, rfl⟩ := Prod.mk.inj (Option.some.inj h)
    refine ⟨⟨hs.maxEventHistory, hs.bounded, fun responseId hrecord => ?_⟩,
      ⟨le_rfl, fun _ h => .inl h, fun responseId hgone => ?_⟩, by simp, fun _ h => h, by simp⟩
    · by_cases hne : responseId = other
      · simp [hne]
      · simp only [Function.update_of_ne hne] at hrecord ⊢
        exact hs.seen responseId hrecord
    · have hne : responseId ≠ other := by
        rintro rfl
        exact hseen hgone.2
      simpa only [Function.update_of_ne hne] using hgone
  | publish other type data =>
    obtain ⟨rfl, rfl⟩ := Prod.mk.inj (Option.some.inj h)
    exact ⟨good_publish hs other type data, ⟨Nat.le_succ _, fun _ h => .inl h, fun _ h => h⟩,
      by simp, fun _ h => h, by simp⟩
  | close other =>
    obtain ⟨rfl, rfl⟩ := Prod.mk.inj (Option.some.inj h)
    refine ⟨⟨hs.maxEventHistory, hs.bounded, hs.seen⟩,
      ⟨Nat.le_succ _, fun _ _ => .inr (Nat.lt_succ_self _), fun _ h => h⟩, by simp,
      fun responseId hclosed => ?_, by simp⟩
    by_cases hne : responseId = other
    · simp [McpAppsState.closeResponse, McpAppsState.notifyAll, hne]
    · simpa [McpAppsState.closeResponse, McpAppsState.notifyAll,
        Function.update_of_ne hne] using hclosed
  | subscribe other after =>
    obtain ⟨rfl, rfl⟩ := Prod.mk.inj (Option.some.inj h)
    refine ⟨hs, .refl s, fun t ht => ?_, fun _ h => h, fun t ht => ?_⟩
    · rw [List.mem_singleton.mp ht]
      exact fun since hphase => by cases hphase
    · rw [SideTask.subscriber.inj (List.mem_singleton.mp ht)]
  | delete other =>
    obtain ⟨rfl, rfl⟩ := Prod.mk.inj (Option.some.inj h)
    refine ⟨hs, .refl s, fun t ht => ?_, fun _ h => h, by simp⟩
    rw [List.mem_singleton.mp ht]
    trivial

/-- **One step of a task**, which drops no mark but that of a Response it deletes. -/
theorem sideAct_good {t t' : SideTask} {a : SideAction} (hs : s.Good M) (ht : t.Sound s)
    (h : SideState.act s t a = some (s', t')) : s'.Good M ∧ s.Rely s' ∧ t'.Sound s' ∧
      ∀ responseId, s.apps.closedResponses responseId = true → t.dropping ≠ some responseId →
        s'.apps.closedResponses responseId = true := by
  cases t with
  | subscriber t =>
    obtain ⟨u, hu, heq⟩ := Option.map_eq_some_iff.mp h
    obtain ⟨rfl, rfl⟩ := Prod.mk.inj heq
    exact ⟨hs, .refl s, (step_of_act hu).sound, fun _ h _ => h⟩
  | storeDelete other =>
    simp only [SideState.act] at h
    split_ifs at h with hrecord
    · obtain ⟨rfl, rfl⟩ := Prod.mk.inj (Option.some.inj h)
      refine ⟨⟨hs.maxEventHistory, hs.bounded, fun responseId hold => ?_⟩,
        ⟨le_rfl, fun _ h => .inl h, fun responseId hgone => ⟨?_, hgone.2⟩⟩,
        ⟨Function.update_self .., hs.seen other hrecord⟩, fun _ h _ => h⟩
      · by_cases hne : responseId = other
        · simp [hne] at hold
        · exact hs.seen responseId (by simpa [Function.update_of_ne hne] using hold)
      · by_cases hne : responseId = other
        · simp [hne]
        · simpa [Function.update_of_ne hne] using hgone.1
    · obtain ⟨rfl, rfl⟩ := Prod.mk.inj (Option.some.inj h)
      exact ⟨hs, .refl s, trivial, fun _ h _ => h⟩
  | deleteResponse other =>
    obtain ⟨rfl, rfl⟩ := Prod.mk.inj (Option.some.inj h)
    refine ⟨good_deleteResponse hs other, rely_deleteResponse other, trivial,
      fun responseId hclosed hne => ?_⟩
    have hother : responseId ≠ other := by
      rintro rfl
      exact hne rfl
    simp [closed_deleteResponse, hother, hclosed]
  | deleted => cases h

theorem SideTask.Ends.stable {u : SideTask} (hu : u.Ends responseId s) (h : s.Rely s')
    (hmark : s.apps.closedResponses responseId = true →
      s'.apps.closedResponses responseId = true) : u.Ends responseId s' := by
  cases u with
  | subscriber t => exact fun ht => (hu ht).imp hmark fun hgone => ⟨h.gone _ hgone.1, hgone.2⟩
  | storeDelete | deleteResponse | deleted => trivial

theorem SideState.Closed.stable (hs : s.Closed responseId) (h : s.Rely s')
    (hmark : s.apps.closedResponses responseId = true →
      s'.apps.closedResponses responseId = true) : s'.Closed responseId :=
  hs.imp hmark (h.gone responseId)

end Steps

/-! ## Runs -/

theorem sidePool_certificate (M : ℕ) : Pool.Certificate sidePool (fun _ _ _ => True)
    (fun _ _ => True) (SideState.Good M) SideTask.Sound SideState.Rely where
  act := fun _ _ _ _ _ _ hs ht h => by
    obtain ⟨hgood, hrely, hsound, -⟩ := sideAct_good hs ht h
    exact ⟨hgood, hsound, hrely⟩
  env := fun _ _ _ _ _ hs h => by
    obtain ⟨hgood, hrely, hsound, -⟩ := sideEnv_good hs h
    exact ⟨hgood, hsound, hrely⟩
  stable := fun _ _ _ _ _ hrely ht => ht.stable hrely

/-- **Once a Response is closed, its subscribers find the mark or are settled.** -/
theorem sidePool_closed (M : ℕ) (responseId : String) : Pool.Invariant sidePool DeletesSettled
    (fun s => s.Good M ∧ s.Closed responseId)
    fun s t => t.Sound s ∧ t.Ends responseId s where
  act := fun w n t a s' t' hcond hw ht h => by
    obtain ⟨hs, hclosed⟩ := hw.shared
    obtain ⟨hsound, hends⟩ := hw.tasks t (List.mem_of_getElem? ht)
    obtain ⟨hgood, hrely, hsound', hmark⟩ := sideAct_good hs hsound h
    by_cases hdrop : t.dropping = some responseId
    · -- the mark is taken away: the record is gone, and whoever would look for the mark is settled
      obtain rfl : t = .deleteResponse responseId := by
        cases t with
        | deleteResponse other => rw [Option.some.inj hdrop]
        | subscriber | storeDelete | deleted => cases hdrop
      obtain ⟨rfl, rfl⟩ := Prod.mk.inj (Option.some.inj h)
      refine ⟨⟨hgood, .inr hsound⟩, ⟨trivial, trivial⟩, fun u hu => ?_⟩
      obtain ⟨husound, huends⟩ := hw.tasks u hu
      refine ⟨husound.stable hrely, ?_⟩
      cases u with
      | subscriber u =>
        intro huid
        rcases huends huid with hold | ⟨-, hsettled⟩
        · exact .inr ⟨hsound, hcond responseId (by rw [ht]; rfl) hold _ hu huid⟩
        · exact .inr ⟨hsound, hsettled⟩
      | storeDelete | deleteResponse | deleted => trivial
    · have hkeeps := fun hold => hmark responseId hold hdrop
      refine ⟨⟨hgood, hclosed.stable hrely hkeeps⟩, ⟨hsound', ?_⟩, fun u hu =>
        ⟨(hw.tasks u hu).1.stable hrely, (hw.tasks u hu).2.stable hrely hkeeps⟩⟩
      cases t with
      | subscriber t =>
        obtain ⟨u, hu, heq⟩ := Option.map_eq_some_iff.mp h
        obtain ⟨rfl, rfl⟩ := Prod.mk.inj heq
        intro huid
        have hstep := step_of_act hu
        have hid := hstep.responseId_eq.symm.trans huid
        refine (hends hid).imp id fun hgone => ⟨hgone.1, ?_⟩
        exact hstep.settled (hid ▸ hgone.1.1) hgone.2
      | storeDelete other =>
        simp only [sidePool, SideState.act] at h
        split_ifs at h <;> obtain ⟨rfl, rfl⟩ := Prod.mk.inj (Option.some.inj h) <;> trivial
      | deleteResponse other =>
        obtain ⟨rfl, rfl⟩ := Prod.mk.inj (Option.some.inj h)
        trivial
      | deleted => cases h
  env := fun w e s' ts _ hw h => by
    obtain ⟨hs, hclosed⟩ := hw.shared
    obtain ⟨hgood, hrely, hsound, hmark, hget⟩ := sideEnv_good hs h
    have hclosed' := hclosed.stable hrely (hmark responseId)
    refine ⟨⟨hgood, hclosed'⟩, fun t ht => ⟨hsound t ht, ?_⟩, fun u hu =>
      ⟨(hw.tasks u hu).1.stable hrely, (hw.tasks u hu).2.stable hrely (hmark responseId)⟩⟩
    cases t with
    | subscriber t =>
      intro htid
      refine hclosed'.imp id fun hgone => ⟨hgone, ?_⟩
      rw [hget t ht]
      trivial
    | storeDelete | deleteResponse | deleted => trivial

/-- **The subscribers of a closed Response end**, in every run that deletes no closed Response
before its subscribers have seen that it is.  From the closing on, whoever waits waits on a
predicate that is true, and has been notified; whoever has not ended can take a step, and each of
its steps takes it nearer to its end. -/
theorem subscribers_end {M : ℕ} {as bs : List (Pool.Action SideAction SideEvent)}
    {m w : Pool SideState SideTask} {responseId : String}
    (hmeets : Machine.Meets (Pool.step sidePool) DeletesSettled ⟨.init M, []⟩ (as ++ bs))
    (hrun : Machine.run (Pool.step sidePool) ⟨.init M, []⟩ as = some m)
    (hclosed : m.shared.apps.closedResponses responseId = true)
    (hrun' : Machine.run (Pool.step sidePool) m bs = some w) {n : ℕ} {t : Subscriber}
    (ht : w.tasks[n]? = some (.subscriber t)) (hid : t.responseId = responseId) :
    (∀ since, t.phase = .waiting since → w.shared.apps.ready responseId t.cursor = true ∧
      since < w.shared.apps.notifications) ∧
    (t.phase ≠ .returned → t.phase ≠ .raised →
      ∃ w', Pool.step sidePool w (.task n .proceed) = some w') ∧
    ∀ a w', Pool.step sidePool w (.task n a) = some w' →
      ∃ t', w'.tasks[n]? = some (.subscriber t') ∧ t'.phase.rank M < t.phase.rank M := by
  subst hid
  have hinit : Pool.Holds (SideState.Good M) SideTask.Sound
      (⟨.init M, []⟩ : Pool SideState SideTask) := by
    refine ⟨⟨rfl, fun _ _ h => ?_, fun _ h => ?_⟩, by simp⟩
    · cases h
    · cases h
  have hm := (sidePool_certificate M).run (Pool.meets_stepCond_true _ as) hrun hinit
  have hends (u : SideTask) : u.Ends t.responseId m.shared := by
    cases u with
    | subscriber u => exact fun _ => .inl hclosed
    | storeDelete | deleteResponse | deleted => trivial
  have hw := (sidePool_closed M t.responseId).run ((Machine.meets_append hmeets).2 m hrun) hrun'
    ⟨⟨hm.shared, .inl hclosed⟩, fun u hu => ⟨hm.tasks u hu, hends u⟩⟩
  obtain ⟨hsound, hend⟩ := hw.tasks _ (List.mem_of_getElem? ht)
  have hfound := hend rfl
  refine ⟨fun since hphase => ?_, fun hreturned hraised => ?_, fun a w' hstep => ?_⟩
  · rcases hfound with hmark | ⟨-, hsettled⟩
    · exact ⟨ready_of_closed hmark t.cursor, (hsound since hphase).2 hmark⟩
    · exact absurd hsettled (hphase ▸ id)
  · obtain ⟨t', hact⟩ := exists_proceed hsound (hfound.imp id And.right) hreturned hraised
    have htask : sidePool.act w.shared (.subscriber t) .proceed =
        some (w.shared, .subscriber t') := by
      change (t.act w.shared .proceed).map _ = _
      rw [hact]
      rfl
    exact ⟨_, Pool.step_task.mpr ⟨_, _, _, ht, htask, rfl⟩⟩
  · obtain ⟨u, s, u', hu, hact, rfl⟩ := Pool.step_task.mp hstep
    obtain rfl := Option.some.inj (ht.symm.trans hu)
    obtain ⟨t', ht', heq⟩ := Option.map_eq_some_iff.mp hact
    obtain ⟨rfl, rfl⟩ := Prod.mk.inj heq
    have hlt : n < w.tasks.length := (List.getElem?_eq_some_iff.mp ht).1
    refine ⟨t', by simp [hlt], (step_of_act ht').rank_lt hw.shared.1 ?_⟩
    exact hfound.imp id fun hgone => ⟨hgone.1.1, hgone.2⟩

/-- A subscriber that waits when the Response is closed: it is woken and returns, and then the
Response is deleted. -/
theorem subscribers_end_sample :
    let as : List (Pool.Action SideAction SideEvent) :=
      [.env (.put "resp_1"), .env (.subscribe "resp_1" (-1)), .task 0 .proceed, .task 0 .proceed,
        .env (.publish "resp_1" "mcp_app.response.closed" .null), .env (.close "resp_1")]
    let bs : List (Pool.Action SideAction SideEvent) :=
      [.task 0 .proceed, .env (.delete "resp_1"), .task 1 .proceed, .task 1 .proceed]
    ∃ m w, Machine.run (Pool.step sidePool) ⟨.init 512, []⟩ as = some m ∧
      Machine.run (Pool.step sidePool) m bs = some w ∧
      ∃ w', Pool.step sidePool w (.task 0 .proceed) = some w' := by
  intro as bs
  have hrun : ∃ m w t, Machine.run (Pool.step sidePool) ⟨.init 512, []⟩ as = some m ∧
      Machine.run (Pool.step sidePool) m bs = some w ∧
      m.shared.apps.closedResponses "resp_1" = true ∧ w.tasks[0]? = some (.subscriber t) ∧
      t.responseId = "resp_1" ∧ t.phase = .yielding [] true :=
    ⟨_, _, _, rfl, rfl, rfl, rfl, rfl, rfl⟩
  obtain ⟨m, w, t, hrun, hrun', hclosed, ht, hid, hphase⟩ := hrun
  have hmeets : Machine.Meets (Pool.step sidePool) DeletesSettled ⟨.init 512, []⟩ (as ++ bs) := by
    decide +kernel
  obtain ⟨-, hproceed, -⟩ := subscribers_end hmeets hrun hclosed hrun' ht hid
  exact ⟨m, w, hrun, hrun', hproceed (by simp [hphase]) (by simp [hphase])⟩

/-- The Response is closed and deleted while its subscriber is at a keep-alive: the subscriber then
waits for a mark that is gone. -/
theorem subscribers_end_deleted : ¬ ∀ (M : ℕ) (as bs : List (Pool.Action SideAction SideEvent))
    (m w : Pool SideState SideTask) (responseId : String),
      Machine.run (Pool.step sidePool) ⟨.init M, []⟩ as = some m →
      m.shared.apps.closedResponses responseId = true →
      Machine.run (Pool.step sidePool) m bs = some w →
      ∀ (n : ℕ) (t : Subscriber), w.tasks[n]? = some (.subscriber t) →
        t.responseId = responseId → ∀ since, t.phase = .waiting since →
          w.shared.apps.ready responseId t.cursor = true := by
  intro h
  have hrun : ∃ m w t since, Machine.run (Pool.step sidePool) ⟨.init 512, []⟩
      [.env (.put "resp_1"), .env (.subscribe "resp_1" (-1)), .task 0 .proceed, .task 0 .proceed,
        .task 0 .timeout, .env (.close "resp_1")] = some m ∧
      m.shared.apps.closedResponses "resp_1" = true ∧
      Machine.run (Pool.step sidePool) m [.env (.delete "resp_1"), .task 1 .proceed,
        .task 1 .proceed, .task 0 .proceed, .task 0 .proceed] = some w ∧
      w.tasks[0]? = some (.subscriber t) ∧ t.responseId = "resp_1" ∧
      t.phase = .waiting since ∧ w.shared.apps.ready "resp_1" t.cursor = false :=
    ⟨_, _, _, _, rfl, rfl, rfl, rfl, rfl, rfl, rfl⟩
  obtain ⟨m, w, t, since, hrun, hclosed, hrun', ht, hid, hphase, hready⟩ := hrun
  have htrue := h 512 _ _ m w "resp_1" hrun hclosed hrun' 0 t ht hid since hphase
  rw [hready] at htrue
  cases htrue

end CodexGateway.Adapter
