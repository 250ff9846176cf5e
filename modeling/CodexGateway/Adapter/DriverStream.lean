import CodexGateway.Adapter.Sequence
import CodexGateway.Adapter.DriverFollow

/-!
# Adapter/DriverStream — what a subscriber of an execution is told

The builder numbers a batch of events and may end the Response before the batch is published; in
between the driver awaits `app/read` for every App in it.  A deadline that falls into such an await
loses the batch: the numbers that follow leave a gap, or, where the batch ended the Response, no
terminal event follows at all.  Nothing else harms the stream (`goodStream_iff`).
-/

namespace CodexGateway.Adapter

open PyJson Worker ResponsesEventBuilder

/-- The events are all the builder has emitted: the last of them ends the Response, if it has
ended. -/
structure Told (b : ResponsesEventBuilder) (events : List Event) : Prop where
  numbers : NumberedFrom 0 events
  next : b.sequenceNumber = events.length
  silent : b.terminal = false → ∀ e ∈ events, e.body.outcome? = none
  last : b.terminal = true → EndsWith b.record.status events

theorem told_init (record : ResponseRecord) : Told (.init record) [] where
  numbers := rfl
  next := rfl
  silent := fun _ _ h => by cases h
  last := fun h => by cases h

theorem Told.plain {b : ResponsesEventBuilder} {events : List Event}
    {r : List Event × ResponsesEventBuilder} (h : Told b events) (hopen : b.terminal = false)
    (hr : Plain b r) : Told r.2 (events ++ r.1) where
  numbers := h.numbers.append (by rw [Nat.zero_add, ← h.next]; exact hr.numbers)
  next := by rw [hr.next, h.next, List.length_append]
  silent := fun _ e he => (List.mem_append.mp he).elim (h.silent hopen e) (hr.silent e)
  last := fun hterminal => by
    rw [hr.terminal, hopen] at hterminal
    cases hterminal

theorem Told.ending {b : ResponsesEventBuilder} {events : List Event}
    {r : List Event × ResponsesEventBuilder} (h : Told b events) (hopen : b.terminal = false)
    (hr : Ending b r) : Told r.2 (events ++ r.1) where
  numbers := h.numbers.append (by rw [Nat.zero_add, ← h.next]; exact hr.numbers)
  next := by rw [hr.next, h.next, List.length_append]
  silent := fun hterminal => by
    rw [hr.terminal] at hterminal
    cases hterminal
  last := fun _ => by
    obtain ⟨es, e, heq, hsilent, he⟩ := hr.last
    refine ⟨events ++ es, e, by rw [heq, List.append_assoc], fun e he => ?_, he⟩
    exact (List.mem_append.mp he).elim (h.silent hopen e) (hsilent e)

theorem fail_terminal {b : ResponsesEventBuilder} (hterminal : b.terminal = true) (message : String) :
    ResponsesEventBuilder.fail message b = ([], b) := by
  unfold ResponsesEventBuilder.fail
  rw [getBuilder_bind, if_pos hterminal]
  rfl

theorem incomplete_terminal {b : ResponsesEventBuilder} (hterminal : b.terminal = true)
    (reason : String) : incomplete reason b = ([], b) := by
  unfold incomplete
  rw [getBuilder_bind, if_pos hterminal]
  rfl

namespace Driver

variable {s s' : Driver} {event : AgentEvent} {published : List Event}

/-- The events of a batch that wait for their App sessions. -/
def pendingEvents (s : Driver) : List Event :=
  match s.phase with
  | .binding _ bound current todo => bound ++ current :: todo
  | _ => []

/-- What the subscriber has been told. -/
def Tells (s : Driver) (published : List Event) : Prop :=
  s.queue = published.map some ∧ Told s.builder published

/-- **The stream of an execution is whole**: but for a batch that waits, the queue holds all that the
builder has emitted, and its end after the last event. -/
structure Streams (s : Driver) : Prop where
  told : ∃ published, s.queue = published.map some ++ (if s.isClosed then [none] else []) ∧
    Told s.builder (published ++ s.pendingEvents)
  ended : s.phase = .closing ∨ s.phase = .closed → s.builder.terminal = true

/-- An error ends the Response, once. -/
theorem lastEvents_ending (s : Driver) (error : DriverError) {b : ResponsesEventBuilder}
    (hopen : b.terminal = false) : Ending b (s.lastEvents error b) := by
  rw [lastEvents]
  split
  · exact incomplete_ending hopen _
  · exact fail_ending hopen _

theorem lastEvents_terminal (s : Driver) (error : DriverError) {b : ResponsesEventBuilder}
    (hterminal : b.terminal = true) : s.lastEvents error b = ([], b) := by
  rw [lastEvents]
  split
  · exact incomplete_terminal hterminal _
  · exact fail_terminal hterminal _

/-- A driver that works on no batch. -/
theorem Tells.streams (h : s.Tells published) (hpending : s.pendingEvents = [])
    (hended : ¬ (s.phase = .closing ∨ s.phase = .closed)) : s.Streams := by
  have hclosed : s.isClosed = false := by
    cases hphase : s.phase <;> simp_all [isClosed]
  exact ⟨⟨published, by simpa [hclosed] using h.1, by simpa [hpending] using h.2⟩,
    fun hphase => absurd hphase hended⟩

/-- A driver that has ended its loop. -/
theorem Tells.closing (h : s.Tells published) (hphase : s.phase = .closing)
    (hterminal : s.builder.terminal = true) : s.Streams :=
  ⟨⟨published, by simpa [isClosed, hphase] using h.1, by simpa [pendingEvents, hphase] using h.2⟩,
    fun _ => hterminal⟩

/-- The handler of an error tells of it, if nothing did before. -/
theorem Tells.fail (h : s.Tells published) (error : DriverError) : (s.fail error).Streams := by
  have hqueue : (s.fail error).queue = s.queue ++ (s.lastEvents error s.builder).1.map some := rfl
  have hbuilder : (s.fail error).builder = (s.lastEvents error s.builder).2 := rfl
  cases hterminal : s.builder.terminal with
  | false =>
    have hending := s.lastEvents_ending error hterminal
    have htells : (s.fail error).Tells (published ++ (s.lastEvents error s.builder).1) :=
      ⟨by rw [hqueue, h.1, List.map_append], h.2.ending hterminal hending⟩
    exact htells.closing rfl (by rw [hbuilder]; exact hending.terminal)
  | true =>
    have hnothing := s.lastEvents_terminal error hterminal
    rw [hnothing] at hqueue hbuilder
    have htells : (s.fail error).Tells published :=
      ⟨by rw [hqueue, h.1, List.map_nil, List.append_nil], by rw [hbuilder]; exact h.2⟩
    exact htells.closing rfl (by rw [hbuilder]; exact hterminal)

theorem Tells.raise (h : s.Tells published) (error : DriverError) : (s.raise error).Streams := by
  cases error with
  | timeout =>
    have htells : (s.raise .timeout).Tells published := h
    exact htells.streams rfl (by simp [Driver.raise])
  | terminal message => exact h.fail _
  | upstream message => exact h.fail _
  | other => exact h.fail _

theorem Tells.raiseInner (h : s.Tells published) (error : DriverError) :
    (s.raiseInner error).Streams := by
  cases error with
  | upstream message =>
    simp only [Driver.raiseInner]
    split
    · exact h.raise _
    · split_ifs
      · exact h.raise _
      · have htells : { s with phase := .reconnecting (.upstream message) }.Tells published := h
        exact htells.streams rfl (by simp)
  | terminal message => exact h.raise (.terminal message)
  | timeout => exact h.raise .timeout
  | other => exact h.raise .other

theorem Tells.advance (h : s.Tells published) (event : AgentEvent) : (s.advance event).Streams := by
  have htells : (s.advance event).Tells published := h
  cases hterminal : s.builder.terminal with
  | false =>
    exact htells.streams (by simp [Driver.advance, pendingEvents, hterminal])
      (by simp [Driver.advance, hterminal])
  | true => exact htells.closing (by simp [Driver.advance, hterminal]) hterminal

theorem Tells.loop (h : s.Tells published) : s.loop.Streams := by
  have htells : s.loop.Tells published := h
  cases hterminal : s.builder.terminal with
  | false =>
    exact htells.streams (by simp [Driver.loop, pendingEvents, hterminal])
      (by simp [Driver.loop, hterminal])
  | true => exact htells.closing (by simp [Driver.loop, hterminal]) hterminal

/-- A batch is published, or waits. -/
theorem streams_publishResponseEvents (event : AgentEvent) (todo : List Event) (s : Driver)
    (bound : List Event) (hqueue : s.queue = published.map some)
    (htold : Told s.builder (published ++ (bound ++ todo))) :
    (s.publishResponseEvents event bound todo).Streams := by
  induction todo generalizing bound with
  | nil =>
    rw [List.append_nil] at htold
    have htells : { s with queue := s.queue ++ bound.map some }.Tells (published ++ bound) :=
      ⟨by simp [hqueue], htold⟩
    simp only [publishResponseEvents]
    split_ifs
    · have htells' : { s with
          queue := s.queue ++ bound.map some, phase := .announcing event }.Tells (published ++ bound) :=
        htells
      exact htells'.streams rfl (by simp)
    · exact htells.advance event
  | cons current todo ih =>
    simp only [publishResponseEvents]
    split_ifs
    · exact ⟨⟨published, by simpa [isClosed] using hqueue, htold⟩, by simp⟩
    · refine ih (bound ++ [current]) ?_
      simpa using htold

/-! ## The App sessions of a batch -/

/-- The number of an event and the status it tells. -/
def tag (e : Event) : ℕ × Option ResponseStatus := (e.sequenceNumber, e.body.outcome?)

theorem endsWith_congr {status : ResponseStatus} {events events' : List Event}
    (h : EndsWith status events) (htags : events'.map tag = events.map tag) :
    EndsWith status events' := by
  obtain ⟨es, e, rfl, hsilent, he⟩ := h
  rw [List.map_append, List.map_singleton] at htags
  obtain ⟨es', last, rfl, hes, hlast⟩ := List.map_eq_append_iff.mp htags
  obtain ⟨e', rfl, htag⟩ := List.map_eq_singleton_iff.mp hlast
  have houtcome : e'.body.outcome? = e.body.outcome? := (congrArg Prod.snd htag :)
  refine ⟨es', e', rfl, fun d hd => ?_, houtcome.trans he⟩
  obtain ⟨d', hd', htag⟩ := List.mem_map.mp (hes ▸ List.mem_map_of_mem hd)
  exact (congrArg Prod.snd htag).symm.trans (hsilent d' hd')

/-- The events of a batch may change, but for their tags. -/
theorem told_congr {b b' : ResponsesEventBuilder} {events events' : List Event} (h : Told b events)
    (htags : events'.map tag = events.map tag) (hnext : b'.sequenceNumber = b.sequenceNumber)
    (hterminal : b'.terminal = b.terminal) (hstatus : b'.record.status = b.record.status) :
    Told b' events' := by
  have hlength : events'.length = events.length := by
    simpa using congrArg List.length htags
  have hnumbers : events'.map Event.sequenceNumber = events.map Event.sequenceNumber := by
    simpa [Function.comp_def, tag] using congrArg (List.map Prod.fst) htags
  refine ⟨?_, by rw [hnext, h.next, hlength], fun hopen e he => ?_, fun hended => ?_⟩
  · rw [NumberedFrom, hnumbers, hlength]
    exact h.numbers
  · obtain ⟨e', he', htag⟩ := List.mem_map.mp (htags ▸ List.mem_map_of_mem he)
    exact (congrArg Prod.snd htag).symm.trans (h.silent (hterminal ▸ hopen) e' he')
  · rw [hstatus]
    exact endsWith_congr (h.last (hterminal ▸ hended)) htags

theorem tag_withItem (e : Event) (item : OutputItem) : tag (withItem e item) = tag e := by
  obtain ⟨n, body⟩ := e
  cases body <;> rfl

/-- **A bound event keeps its number**, and binding leaves the end of the Response alone. -/
theorem bindAppSession_spec (s : Driver) (current : Event) (tools : List String) :
    tag (s.bindAppSession current tools).1 = tag current ∧
      (s.bindAppSession current tools).2.queue = s.queue ∧
      (s.bindAppSession current tools).2.builder.sequenceNumber = s.builder.sequenceNumber ∧
      (s.bindAppSession current tools).2.builder.terminal = s.builder.terminal ∧
      (s.bindAppSession current tools).2.builder.record.status = s.builder.record.status := by
  rw [bindAppSession]
  split
  · exact ⟨rfl, rfl, rfl, rfl, rfl⟩
  · exact ⟨tag_withItem _ _, rfl, rfl, rfl, ResponseRecord.addOutputItem_status _ _⟩

/-! ## What one step does to the stream -/

theorem Tells.handleAgentServerRequest (h : s.Tells published) (event : AgentEvent) :
    (s.handleAgentServerRequest event).Streams := by
  have hphase : ∀ requestId reply, { s with phase := .resolving event requestId reply }.Streams := by
    intro requestId reply
    have htells : { s with phase := .resolving event requestId reply }.Tells published := h
    exact htells.streams rfl (by simp)
  simp only [Driver.handleAgentServerRequest]
  split
  next requestId method _ _ =>
    split_ifs
    · exact hphase _ _
    · split
      · exact hphase _ _
      · have htells : { s with
            interactions := s.interactions ++ [event.id]
            phase := .interacting event requestId }.Tells published := h
        exact htells.streams rfl (by simp)
  next => exact h.raiseInner _

theorem Tells.handleNotification (h : s.Tells published) (hlive : s.builder.terminal = false)
    (event : AgentEvent) : (s.handleNotification event).Streams := by
  simp only [Driver.handleNotification]
  split_ifs
  · have htold : Told (consume event.data.members s.builder).2
        (published ++ (consume event.data.members s.builder).1) :=
      (consume_emission hlive _).elim (h.2.plain hlive) (h.2.ending hlive)
    exact streams_publishResponseEvents event _ _ [] h.1 htold
  · exact h.advance event

theorem Tells.handle (h : s.Tells published) (hlive : s.builder.terminal = false)
    (event : AgentEvent) : (s.handle event).Streams := by
  simp only [Driver.handle]
  split
  · exact h.raise _
  · split_ifs
    · exact h.raise _
    · cases event.type with
      | serverRequest => exact h.handleAgentServerRequest event
      | sessionFailed => exact h.raise _
      | notification => exact h.handleNotification hlive event

/-- The deadline ends an await for an App session. -/
def InterruptsBinding (s : Driver) : Action → Bool
  | .interrupt => match s.phase with
    | .binding .. => true
    | _ => false
  | _ => false

/-- Where nothing waits, the queue holds all. -/
theorem Streams.tells (h : s.Streams) (hopen : s.isClosed = false) (hnone : s.pendingEvents = []) :
    ∃ published, s.Tells published := by
  obtain ⟨published, hqueue, htold⟩ := h.told
  exact ⟨published, by simpa [hopen] using hqueue, by simpa [hnone] using htold⟩

theorem Streams.tells_of_phase {phase : Phase} (h : s.Streams) (hphase : s.phase = phase)
    (hbinding : ∀ event bound current todo, phase ≠ .binding event bound current todo)
    (hopen : phase ≠ .closed) : ∃ published, s.Tells published := by
  refine h.tells ?_ ?_
  · rw [isClosed, hphase]
    cases phase with
    | closed => exact absurd rfl hopen
    | _ => rfl
  · rw [pendingEvents, hphase]
    cases phase with
    | binding event bound current todo => exact absurd rfl (hbinding event bound current todo)
    | _ => rfl

/-- A change that the stream does not see. -/
theorem Streams.frame (h : s.Streams) (hqueue : s'.queue = s.queue) (hbuilder : s'.builder = s.builder)
    (hphase : s'.phase = s.phase) : s'.Streams := by
  obtain ⟨⟨published, hpublished, htold⟩, hended⟩ := h
  refine ⟨⟨published, ?_, ?_⟩, ?_⟩
  · rw [hqueue, isClosed, hphase]
    exact hpublished
  · rw [hbuilder, pendingEvents, hphase]
    exact htold
  · rw [hbuilder, hphase]
    exact hended

/-- **Every other step keeps the stream whole.** -/
theorem streams_step {action : Action} (h : s.Streams) (hlive : s.Live)
    (hcond : s.InterruptsBinding action = false) (hstep : Step s action s') : s'.Streams := by
  cases hstep with
  | worker hworker => exact h.frame rfl rfl rfl
  | failLease error => exact h.frame rfl rfl rfl
  | cancel => exact h.frame rfl rfl rfl
  | expire => exact h.frame rfl rfl rfl
  | send hstreaming => exact h.frame rfl rfl rfl
  | readCursor hphase =>
    obtain ⟨published, htells⟩ := h.tells_of_phase hphase (by simp) (by simp)
    have htells' : { s with
        eventCursor := s.runtime.events.lastEventId
        startCursor := s.runtime.events.lastEventId
        phase := .starting }.Tells published := htells
    exact htells'.streams rfl (by simp)
  | startTurn hphase =>
    obtain ⟨published, htells⟩ := h.tells_of_phase hphase (by simp) (by simp)
    have hopen := hlive.not_terminal hphase trivial
    have htells' : { s with
        builder := (initialEvents s.builder).2
        queue := s.queue ++ (initialEvents s.builder).1.map some }.Tells
          (published ++ (initialEvents s.builder).1) :=
      ⟨by simp [htells.1], htells.2.plain hopen (initialEvents_plain _)⟩
    exact htells'.loop
  | connect hphase =>
    obtain ⟨published, htells⟩ := h.tells_of_phase hphase (by simp) (by simp)
    have htells' : { s with stream := [], streamCursor := s.eventCursor, phase := .reading }.Tells
      published := htells
    exact htells'.streams rfl (by simp)
  | @deliver event rest hphase hstream =>
    obtain ⟨published, htells⟩ := h.tells_of_phase hphase (by simp) (by simp)
    have htells' : { s with stream := rest }.Tells published := htells
    exact htells'.handle (hlive.not_terminal hphase trivial) event
  | endStream hphase =>
    obtain ⟨published, htells⟩ := h.tells_of_phase hphase (by simp) (by simp)
    exact htells.raiseInner _
  | breakStream error hphase =>
    obtain ⟨published, htells⟩ : ∃ published, s.Tells published := by
      rcases hphase with hphase | hphase
      · exact h.tells_of_phase hphase (by simp) (by simp)
      · exact h.tells_of_phase hphase (by simp) (by simp)
    exact htells.raiseInner error
  | @answer event requestId reply hphase =>
    obtain ⟨published, htells⟩ := h.tells_of_phase hphase (by simp) (by simp)
    have htells' : { s with phase := .resolving event requestId reply }.Tells published := htells
    exact htells'.streams rfl (by simp)
  | @resolve event requestId reply runtime hphase hresolve =>
    obtain ⟨published, htells⟩ := h.tells_of_phase hphase (by simp) (by simp)
    have htells' : { s with runtime := runtime, phase := .replying event true }.Tells published :=
      htells
    exact htells'.streams rfl (by simp)
  | @reject event requestId reply hphase hreject =>
    obtain ⟨published, htells⟩ := h.tells_of_phase hphase (by simp) (by simp)
    have htells' : { s with phase := .replying event false }.Tells published := htells
    exact htells'.streams rfl (by simp)
  | @accepted event hphase =>
    obtain ⟨published, htells⟩ := h.tells_of_phase hphase (by simp) (by simp)
    have htells' : { s with resolved := s.resolved ++ [event.id] }.Tells published := htells
    exact htells'.advance event
  | @rejected event hphase =>
    obtain ⟨published, htells⟩ := h.tells_of_phase hphase (by simp) (by simp)
    have htells' : { s with resolved := s.resolved ++ [event.id] }.Tells published := htells
    exact htells'.raiseInner _
  | @loseReply event error hphase =>
    obtain ⟨published, htells⟩ : ∃ published, s.Tells published := by
      rcases hphase with ⟨requestId, reply, hphase⟩ | ⟨accepted, hphase⟩
      · exact h.tells_of_phase hphase (by simp) (by simp)
      · exact h.tells_of_phase hphase (by simp) (by simp)
    have htells' : { s with resolved := s.resolved ++ [event.id] }.Tells published := htells
    exact htells'.raiseInner error
  | @bind event bound current todo tools hphase =>
    obtain ⟨⟨published, hqueue, htold⟩, -⟩ := h
    obtain ⟨htag, hqueue', hnext, hterminal, hstatus⟩ := s.bindAppSession_spec current tools
    simp only [isClosed, pendingEvents, hphase, Bool.false_eq_true, if_false, List.append_nil]
      at hqueue htold
    refine streams_publishResponseEvents event todo _ _ (hqueue'.trans hqueue) ?_
    exact told_congr htold (by simp [htag]) hnext hterminal hstatus
  | announce hphase =>
    obtain ⟨published, htells⟩ := h.tells_of_phase hphase (by simp) (by simp)
    exact htells.advance _
  | renewed hphase =>
    obtain ⟨published, htells⟩ := h.tells_of_phase hphase (by simp) (by simp)
    exact htells.loop
  | reconnectRaises error' hphase houtcome =>
    obtain ⟨published, htells⟩ := h.tells_of_phase hphase (by simp) (by simp)
    exact htells.raise error'
  | interrupt hdeadline =>
    obtain ⟨published, htells⟩ : ∃ published, s.Tells published := by
      cases hphase : s.phase <;>
        simp [InterruptsBinding, underDeadline, hphase] at hcond hdeadline
      all_goals exact h.tells_of_phase hphase (by simp) (by simp)
    exact htells.raise .timeout
  | interrupted hphase =>
    obtain ⟨published, htells⟩ := h.tells_of_phase hphase (by simp) (by simp)
    exact htells.fail _
  | finish hphase =>
    obtain ⟨⟨published, hqueue, htold⟩, hended⟩ := h
    simp only [isClosed, pendingEvents, hphase, Bool.false_eq_true, if_false, List.append_nil]
      at hqueue htold
    refine ⟨⟨published, ?_, ?_⟩, fun _ => hended (.inl hphase)⟩
    · simp [isClosed, hqueue]
    · simpa [pendingEvents] using htold

/-! ## A lost batch -/

/-- Some events were numbered and never published: what is published ends neither before nor after
them as it should. -/
def Broken (s : Driver) : Prop :=
  ∃ published, s.queue = published.map some ++ (if s.isClosed then [none] else []) ∧
    ((s.phase = .interrupting ∧ published.length < s.builder.sequenceNumber ∧
        ∀ e ∈ published, e.body.outcome? = none) ∨
      ((s.phase = .closing ∨ s.phase = .closed) ∧
        ¬ (NumberedFrom 0 published ∧ EndsWith s.builder.record.status published)))

theorem not_endsWith_of_silent {status : ResponseStatus} {events : List Event}
    (hsilent : ∀ e ∈ events, e.body.outcome? = none) : ¬ EndsWith status events := by
  rintro ⟨es, e, rfl, -, he⟩
  rw [hsilent e (by simp)] at he
  cases he

/-- **The deadline in the await of a batch loses it.** -/
theorem broken_of_interrupts {action : Action} (h : s.Streams)
    (hcond : s.InterruptsBinding action = true) (hstep : Step s action s') : s'.Broken := by
  obtain ⟨⟨published, hqueue, htold⟩, -⟩ := h
  cases action with
  | interrupt =>
    simp only [InterruptsBinding] at hcond
    split at hcond
    next event bound current todo hphase =>
      cases hstep with
      | interrupt hdeadline =>
        simp only [isClosed, pendingEvents, hphase, Bool.false_eq_true, if_false, List.append_nil]
          at hqueue htold
        refine ⟨published, by simpa [Driver.raise, isClosed] using hqueue, .inl ⟨rfl, ?_, ?_⟩⟩
        · show published.length < s.builder.sequenceNumber
          rw [htold.next, List.length_append, List.length_append, List.length_cons]
          omega
        · intro e he
          cases hterminal : s.builder.terminal with
          | false => exact htold.silent hterminal e (List.mem_append_left _ he)
          | true =>
            obtain ⟨es, last, heq, hsilent, -⟩ := htold.last hterminal
            -- The last event of all is one of the batch.
            have hlength := congrArg List.length heq
            simp only [List.length_append, List.length_cons, List.length_nil] at hlength
            have hfront : published <+: es :=
              List.prefix_of_prefix_length_le (heq ▸ List.prefix_append _ _)
                (List.prefix_append es [last]) (by omega)
            exact hsilent e (hfront.subset he)
    next => cases hcond
  | _ => cases hcond

/-- The handler of the timeout does not repair it. -/
theorem broken_fail (hphase : s.phase = .interrupting) (h : s.Broken) (error : DriverError) :
    (s.fail error).Broken := by
  obtain ⟨published, hqueue, hbroken⟩ := h
  rcases hbroken with ⟨-, hlt, hsilent⟩ | ⟨hended, -⟩
  · simp only [isClosed, hphase, Bool.false_eq_true, if_false, List.append_nil] at hqueue
    have hqueue' : (s.fail error).queue = s.queue ++ (s.lastEvents error s.builder).1.map some := rfl
    have hbuilder : (s.fail error).builder = (s.lastEvents error s.builder).2 := rfl
    cases hterminal : s.builder.terminal with
    | false =>
      have hending := s.lastEvents_ending error hterminal
      refine ⟨published ++ (s.lastEvents error s.builder).1, ?_, .inr ⟨.inl rfl, ?_⟩⟩
      · rw [hqueue', hqueue, List.map_append]
        exact (List.append_nil _).symm
      · rintro ⟨hnumbers, -⟩
        obtain ⟨es, last, heq, -⟩ := hending.last
        have hright := hnumbers.right
        have hnumbered := hending.numbers
        rw [NumberedFrom, Nat.zero_add] at hright
        rw [NumberedFrom, hright, heq, List.length_append, List.length_singleton, List.range'_succ,
          List.range'_succ] at hnumbered
        exact absurd (List.cons.inj hnumbered).1 hlt.ne
    | true =>
      rw [s.lastEvents_terminal error hterminal] at hqueue' hbuilder
      refine ⟨published, ?_, .inr ⟨.inl rfl, fun h => not_endsWith_of_silent hsilent h.2⟩⟩
      rw [hqueue', hqueue]
      exact congrArg _ rfl
  · simp [hphase] at hended

theorem broken_step {action : Action} (h : s.Broken) (hstep : Step s action s') : s'.Broken := by
  have hover : s.phase.holding = .over := by
    obtain ⟨published, -, ⟨hphase, -⟩ | ⟨hphase | hphase, -⟩⟩ := h <;> rw [hphase, Phase.holding]
  rcases over_step hover hstep with ⟨hphase, -, hqueue, hbuilder⟩ | ⟨hphase, error, rfl⟩ |
    ⟨hclosing, hclosed, -, hqueue, hbuilder⟩
  · obtain ⟨published, hpublished, hbroken⟩ := h
    refine ⟨published, ?_, ?_⟩
    · rw [hqueue, isClosed, hphase]
      exact hpublished
    · rw [hphase, hbuilder]
      exact hbroken
  · exact broken_fail hphase h error
  · obtain ⟨published, hpublished, hbroken⟩ := h
    rcases hbroken with ⟨hphase, -⟩ | ⟨-, hbroken⟩
    · simp [hphase] at hclosing
    · refine ⟨published, ?_, .inr ⟨.inr hclosed, by rw [hbuilder]; exact hbroken⟩⟩
      simp only [isClosed, hclosing, Bool.false_eq_true, if_false, List.append_nil] at hpublished
      simp [hqueue, hpublished, isClosed, hclosed]

/-! ## A run -/

/-- **What a subscriber should be told**: events numbered `0, 1, 2, …`, the last of them the only
terminal one and true of the record, and then the end. -/
def GoodStream (s : Driver) : Prop :=
  ∃ events, s.queue = events.map some ++ [none] ∧
    events.map Event.sequenceNumber = List.range events.length ∧
    EndsWith s.builder.record.status events

theorem streams_run {actions : List Action} (h : s.Streams) (hlive : s.Live)
    (hmeets : Machine.Meets driverStep (fun s a => s.InterruptsBinding a = false) s actions)
    (hrun : Machine.run driverStep s actions = some s') : s'.Streams := by
  have hkeep : ∀ s a s', s.InterruptsBinding a = false → s.Streams ∧ s.Live →
      driverStep s a = some s' → s'.Streams ∧ s'.Live := by
    rintro s a s' hcond ⟨h, hlive⟩ hstep
    have hstep := step_of_driverStep hstep
    exact ⟨streams_step h hlive hcond hstep, live_step hlive hstep⟩
  exact (Machine.run_invariant hkeep hmeets hrun ⟨h, hlive⟩).1

theorem streams_or_broken {actions : List Action} (h : s.Streams) (hlive : s.Live)
    (hrun : Machine.run driverStep s actions = some s') : s'.Streams ∨ s'.Broken := by
  have hkeep : ∀ s a s', (s.Streams ∧ s.Live) ∨ s.Broken → driverStep s a = some s' →
      (s'.Streams ∧ s'.Live) ∨ s'.Broken := by
    rintro s a s' (⟨h, hlive⟩ | h) hstep
    · have hstep := step_of_driverStep hstep
      cases hcond : s.InterruptsBinding a with
      | false => exact .inl ⟨streams_step h hlive hcond hstep, live_step hlive hstep⟩
      | true => exact .inr (broken_of_interrupts h hcond hstep)
    · exact .inr (broken_step h (step_of_driverStep hstep))
  exact (Machine.run_keeps hkeep hrun (.inl ⟨h, hlive⟩)).imp_left And.left

theorem broken_run {actions : List Action} (h : s.Broken)
    (hrun : Machine.run driverStep s actions = some s') : s'.Broken :=
  Machine.run_keeps (fun _ _ _ h hstep => broken_step h (step_of_driverStep hstep)) hrun h

theorem Streams.goodStream (h : s.Streams) (hphase : s.phase = .closed) : s.GoodStream := by
  obtain ⟨⟨published, hqueue, htold⟩, hended⟩ := h
  simp only [isClosed, pendingEvents, hphase, if_true, List.append_nil] at hqueue htold
  refine ⟨published, hqueue, ?_, htold.last (hended (.inr hphase))⟩
  rw [List.range_eq_range']
  exact htold.numbers

theorem Broken.not_goodStream (h : s.Broken) (hphase : s.phase = .closed) : ¬ s.GoodStream := by
  rintro ⟨events, hevents, hnumbers, hlast⟩
  obtain ⟨published, hqueue, ⟨hinterrupting, -⟩ | ⟨-, hbroken⟩⟩ := h
  · simp [hphase] at hinterrupting
  · simp only [isClosed, hphase, if_true] at hqueue
    have hsame : events = published :=
      List.map_injective_iff.mpr (Option.some_injective _)
        (List.append_cancel_right (hevents.symm.trans hqueue))
    subst hsame
    rw [List.range_eq_range'] at hnumbers
    exact hbroken ⟨hnumbers, hlast⟩

/-- A driver that binds a batch has lost none. -/
theorem not_broken_of_interrupts {action : Action} (hcond : s.InterruptsBinding action = true) :
    ¬ s.Broken := by
  rintro ⟨published, -, hbroken⟩
  cases action with
  | interrupt =>
    simp only [InterruptsBinding] at hcond
    split at hcond
    next hphase => simp [hphase] at hbroken
    next => cases hcond
  | _ => cases hcond

/-- **A subscriber is told the whole of an execution exactly where the deadline never falls into the
await of a batch.** -/
theorem goodStream_iff (maxHistory : ℕ) (mcpAppsEnabled : Bool) (threadId turnId : String)
    (record : ResponseRecord) (actions : List Action) (s : Driver)
    (hrun : Machine.run driverStep (create maxHistory mcpAppsEnabled threadId turnId record)
      actions = some s) (hphase : s.phase = .closed) :
    s.GoodStream ↔ Machine.Meets driverStep (fun s a => s.InterruptsBinding a = false)
      (create maxHistory mcpAppsEnabled threadId turnId record) actions := by
  have hstreams : (create maxHistory mcpAppsEnabled threadId turnId record).Streams :=
    ⟨⟨[], rfl, told_init record⟩, by simp [create]⟩
  have hlive : (create maxHistory mcpAppsEnabled threadId turnId record).Live := fun _ => rfl
  constructor
  · intro hgood
    refine Machine.meets_iff.mpr fun xs a ys hsplit m hm => ?_
    by_contra hcond
    rw [Bool.not_eq_false] at hcond
    rw [hsplit, Machine.run_append, hm] at hrun
    obtain ⟨m', hstep, hrest⟩ := Machine.run_cons.mp hrun
    have hwhole := (streams_or_broken hstreams hlive hm).resolve_right (not_broken_of_interrupts hcond)
    have hbroken := broken_of_interrupts hwhole hcond (step_of_driverStep hstep)
    exact (broken_run hbroken hrest).not_goodStream hphase hgood
  · intro hmeets
    exact (streams_run hstreams hlive hmeets hrun).goodStream hphase

/-- The deadline passes while the turn is still under way. -/
def outOfTime : List Action := [.expire, .interrupt, .interrupted, .finish]

/-- The driver reads a notification. -/
def reads (notification : Dict) : List Action :=
  [.readCursor, .startTurn, .connect, .worker (.notify notification), .send, .deliver]

theorem phase_of_isClosed (h : s.isClosed = true) : s.phase = .closed := by
  rw [isClosed] at h
  split at h
  · assumption
  · cases h

/-- The first text of a message. -/
def firstDelta : Dict where
  members := messageDelta "m1" "hel"
  wellFormed := ⟨by decide, by simp [messageDelta, WellFormedMembers, WellFormed]⟩

/-- A turn that runs out of time after its first text. -/
theorem goodStream_outOfTime : ∃ s, Machine.run driverStep
    (create 64 true "thread_1" "turn_1" sampleRecord) (reads firstDelta ++ outOfTime) = some s ∧
      s.GoodStream := by
  obtain ⟨s, hs, hclosed⟩ := (Option.any_eq_true _ _).mp (show (Machine.run driverStep
    (create 64 true "thread_1" "turn_1" sampleRecord) (reads firstDelta ++ outOfTime)).any
      isClosed = true by decide +kernel)
  exact ⟨s, hs, (goodStream_iff _ _ _ _ _ _ s hs (phase_of_isClosed hclosed)).mpr
    (by decide +kernel)⟩

/-- A call that belongs to an App. -/
def appCall : Dict where
  members := [("method", .str "item/started"), ("params", .obj [("item", .obj
    [("id", .str "c1"), ("type", .str "mcpToolCall"), ("server", .str "s"), ("tool", .str "t"),
      ("mcpAppResourceUri", .str "ui://app")])])]
  wellFormed := ⟨by decide, by simp [WellFormedMembers, WellFormed]⟩

/-- The turn runs out of time while `app/read` is awaited: the numbers of the stream have a gap. -/
theorem not_goodStream_appCall : ¬ ∀ (maxHistory : ℕ) (mcpAppsEnabled : Bool)
    (threadId turnId : String) (record : ResponseRecord) (actions : List Action) (s : Driver),
    64 ≤ maxHistory →
    Machine.run driverStep (create maxHistory mcpAppsEnabled threadId turnId record) actions = some s →
    s.phase = .closed → s.GoodStream := by
  intro h
  obtain ⟨s, hs, htest⟩ := (Option.any_eq_true _ _).mp (show (Machine.run driverStep
    (create 64 true "thread_1" "turn_1" sampleRecord) (reads appCall ++ outOfTime)).any (fun s =>
      s.isClosed && (s.queue.map fun e => e.map Event.sequenceNumber) = [some 0, some 1, some 5, none]) =
        true by decide +kernel)
  rw [Bool.and_eq_true, decide_eq_true_eq] at htest
  obtain ⟨events, hqueue, hnumbers, -⟩ := h 64 true _ _ _ _ s le_rfl hs (phase_of_isClosed htest.1)
  have hmap := htest.2
  have hmap' : (events.map Event.sequenceNumber).map some ++ [none] =
      [some 0, some 1, some 5, none] := by
    rw [← hmap, hqueue]
    simp
  have hlength : events.length = 3 := by simpa using congrArg List.length hmap'
  rw [hnumbers, hlength] at hmap'
  exact absurd hmap' (by decide)

end Driver

end CodexGateway.Adapter
