import CodexGateway.Library.Follower
import CodexGateway.Adapter.EventText
import CodexGateway.Adapter.Driver

/-!
# Adapter/DriverFollow — the driver follows the Worker's events

The driver is a follower of the Worker's log: `moves_of_step` maps each of its steps to moves of
`Follower`, whose invariants are then the driver's.  A `notification` is consumed at most once and
in order, and no event is passed over: one that was evicted before it was read stops the execution
(`drive_follows`).
-/

namespace CodexGateway.Adapter

open PyJson Worker Follower

/-! ## The driver as a follower -/

/-- What the driver is at, by its phase. -/
def Phase.holding : Phase → Holding AgentEvent
  | .preparing | .starting => .before
  | .connecting | .reconnecting _ => .apart
  | .reading => .ready
  | .interacting event _ | .resolving event _ _ | .replying event _ => .request event
  | .binding event _ _ _ | .announcing event => .batch event
  | .interrupting | .closing | .closed => .over

namespace Driver

/-- What the worker keeps and the driver has seen, as a feed. -/
def feed (s : Driver) : Feed AgentEvent where
  log := s.runtime.events.events
  next := s.runtime.events.nextId
  history := s.history
  stream := s.stream
  sent := s.streamCursor
  cursor := s.eventCursor
  start := s.startCursor
  consumed := s.consumed
  processed := s.processed
  surfaced := s.interactions
  resolved := s.resolved

/-- The feed with what the driver holds. -/
def view (s : Driver) : Feed AgentEvent × Holding AgentEvent := (s.feed, s.phase.holding)

/-- What the builder consumes. -/
def IsNotification (event : AgentEvent) : Prop := event.type = .notification

/-- The call that resolves a server request ends without its reply, or is rejected. -/
def unresolved (s : Driver) : Action → Bool
  | .loseReply _ => true
  | .returnReply => match s.phase with
    | .replying _ accepted => !accepted
    | _ => false
  | _ => false

variable {s s' : Driver} {event : AgentEvent}

/-- A driver whose error has been raised is at its end, with nothing else changed. -/
theorem raise_view (s : Driver) (error : DriverError) : (s.raise error).view = (s.feed, .over) := by
  cases error <;> rfl

theorem raiseInner_view (s : Driver) (error : DriverError) :
    (s.raiseInner error).view = (s.feed, .apart) ∨ (s.raiseInner error).view = (s.feed, .over) := by
  cases error with
  | upstream message =>
    simp only [raiseInner]
    split
    · exact .inr (raise_view s _)
    · split_ifs
      · exact .inr (raise_view s _)
      · exact .inl rfl
  | terminal message => exact .inr (raise_view s _)
  | timeout => exact .inr (raise_view s _)
  | other => exact .inr (raise_view s _)

/-- The moves of a driver; only a lossy one leaves a request without its reply. -/
abbrev Reaches (lossy : Prop) := Moves AgentEvent.id IsNotification lossy

variable {lossy : Prop} {f : Feed AgentEvent} {h : Holding AgentEvent}

theorem reaches_over (f : Feed AgentEvent) (h : Holding AgentEvent) :
    Reaches lossy (f, h) (f, .over) := .single (.stop f h)

theorem reaches_raise (s : Driver) (error : DriverError) (h : Holding AgentEvent) :
    Reaches lossy (s.feed, h) (s.raise error).view := by
  rw [raise_view]
  exact reaches_over s.feed h

/-- An error of a subscription ends it, if not the execution. -/
theorem reaches_raiseInner (s : Driver) (error : DriverError)
    (hleave : Reaches lossy (f, h) (s.feed, .apart)) :
    Reaches lossy (f, h) (s.raiseInner error).view := by
  rcases raiseInner_view s error with hview | hview
  · rw [hview]
    exact hleave
  · rw [hview]
    exact hleave.tail (.stop s.feed .apart)

/-- Done with an event, the driver reads on unless the Response has ended. -/
theorem reaches_advance (s : Driver) (event : AgentEvent)
    (hmove : Reaches lossy (f, h) (s.feed.advance AgentEvent.id event, .ready)) :
    Reaches lossy (f, h) (s.advance event).view := by
  cases hterminal : s.builder.terminal with
  | false =>
    have hview : (s.advance event).view = (s.feed.advance AgentEvent.id event, .ready) := by
      simp [advance, view, feed, Feed.advance, hterminal, Phase.holding]
    rw [hview]
    exact hmove
  | true =>
    have hview : (s.advance event).view = (s.feed.advance AgentEvent.id event, .over) := by
      simp [advance, view, feed, Feed.advance, hterminal, Phase.holding]
    rw [hview]
    exact hmove.tail (.stop _ _)

theorem reaches_publishResponseEvents (event : AgentEvent) (todo : List Event) (s : Driver)
    (bound : List Event) (hbatch : Reaches lossy (f, h) (s.feed, .batch event)) :
    Reaches lossy (f, h) (s.publishResponseEvents event bound todo).view := by
  induction todo generalizing bound with
  | nil =>
    simp only [publishResponseEvents]
    split_ifs
    · exact hbatch
    · exact reaches_advance _ event (hbatch.tail (.advance s.feed event))
  | cons current todo ih =>
    simp only [publishResponseEvents]
    split_ifs
    · exact hbatch
    · exact ih (bound ++ [current])

/-- The driver takes a server request, and surfaces it or not. -/
theorem reaches_handleAgentServerRequest {rest : List AgentEvent} (hstream : s.stream = event :: rest)
    (hnext : (event.id : ℤ) ≤ s.eventCursor + 1) : Reaches lossy (s.feed, .ready)
      ({ s with stream := rest }.handleAgentServerRequest event).view := by
  have htake : Reaches lossy (s.feed, .ready) ({ s.feed with stream := rest }, .request event) :=
    .single (.take s.feed event rest hstream hnext)
  simp only [handleAgentServerRequest]
  split
  · split_ifs
    · exact htake
    · split
      · exact htake
      · exact .single (.surface s.feed event rest hstream hnext)
  · exact reaches_raiseInner _ _ (.single (.refuse s.feed event rest hstream))

theorem reaches_handleNotification {rest : List AgentEvent} (hstream : s.stream = event :: rest)
    (hnext : (event.id : ℤ) ≤ s.eventCursor + 1) (htype : event.type = .notification) :
    Reaches lossy (s.feed, .ready) ({ s with stream := rest }.handleNotification event).view := by
  simp only [handleNotification]
  split_ifs
  · exact reaches_publishResponseEvents event _ _ []
      (.single (.consume s.feed event rest hstream hnext htype))
  · exact reaches_advance _ event
      (.tail (.single (.pass s.feed event rest hstream hnext)) (.advance _ event))

theorem reaches_handle {rest : List AgentEvent} (hstream : s.stream = event :: rest) :
    Reaches lossy (s.feed, .ready) ({ s with stream := rest }.handle event).view := by
  have hraise : ∀ error, Reaches lossy (s.feed, .ready) ({ s with stream := rest }.raise error).view :=
    fun error =>
      .head (.refuse s.feed event rest hstream) (reaches_raise { s with stream := rest } error _)
  simp only [handle]
  split
  · exact hraise _
  · split_ifs with hgap
    · exact hraise _
    · rw [not_lt] at hgap
      cases htype : event.type with
      | serverRequest => exact reaches_handleAgentServerRequest hstream hgap
      | sessionFailed => exact hraise _
      | notification => exact reaches_handleNotification hstream hgap htype

/-- `while not builder.terminal` -/
theorem reaches_loop (s : Driver) (hmove : Reaches lossy (f, h) (s.feed, .apart)) :
    Reaches lossy (f, h) s.loop.view := by
  cases hterminal : s.builder.terminal with
  | false =>
    have hview : s.loop.view = (s.feed, .apart) := by
      simp [loop, view, feed, hterminal, Phase.holding]
    rw [hview]
    exact hmove
  | true =>
    have hview : s.loop.view = (s.feed, .over) := by
      simp [loop, view, feed, hterminal, Phase.holding]
    rw [hview]
    exact hmove.tail (.stop _ _)

theorem bindAppSession_feed (s : Driver) (current : Event) (tools : List String) :
    (s.bindAppSession current tools).2.feed = s.feed := by
  rw [bindAppSession]
  split <;> rfl

/-- A step of the Worker appends to the log, or leaves it alone. -/
theorem reaches_worker {runtime : WorkerRuntime} {published : List AgentEvent} {action : WorkerAction}
    (hstep : s.runtime.step action = some (runtime, published)) :
    Reaches lossy s.view { s with runtime := runtime, history := s.history ++ published }.view := by
  rcases WorkerRuntime.step_events hstep with ⟨event, hid, hlog, hnext, rfl⟩ | ⟨hlog, hnext, rfl⟩
  · simp only [view, feed, hnext]
    exact .single (.append s.feed s.phase.holding event runtime.events.events hid hlog)
  · simp only [view, feed, hlog, hnext, List.append_nil]
    exact .refl

theorem subscribed_of_streaming (h : s.streaming = true) : s.phase.holding.Subscribed := by
  rw [streaming] at h
  cases hphase : s.phase <;> simp_all [Phase.event?, Phase.holding, Holding.Subscribed]

/-- **Every step of the driver is a number of moves of a follower.** -/
theorem moves_of_step {action : Action} (hstep : Step s action s') :
    Reaches (s.unresolved action) s.view s'.view := by
  cases hstep with
  | worker hworker => exact reaches_worker hworker
  | failLease error => exact .refl
  | cancel => exact .refl
  | expire => exact .refl
  | readCursor hphase =>
    rw [view, hphase]
    exact .single (.readCursor s.feed)
  | startTurn hphase =>
    rw [view, hphase]
    exact reaches_loop _ (.single (.begin s.feed))
  | connect hphase =>
    rw [view, hphase]
    exact .single (.connect s.feed)
  | send hstreaming => exact .single (.send s.feed _ (subscribed_of_streaming hstreaming))
  | deliver hphase hstream =>
    have hready : s.view = (s.feed, .ready) := by rw [view, hphase, Phase.holding]
    rw [hready]
    exact reaches_handle hstream
  | endStream hphase =>
    rw [view, hphase]
    exact reaches_raiseInner s _ (.single (.leave s.feed))
  | breakStream error hphase =>
    rcases hphase with hphase | hphase
    · rw [view, hphase]
      exact reaches_raiseInner s _ .refl
    · rw [view, hphase]
      exact reaches_raiseInner s _ (.single (.leave s.feed))
  | answer reply hphase =>
    rw [view, hphase]
    exact .refl
  | resolve hphase hresolve =>
    have hevents := WorkerRuntime.resolveServerRequest_events hresolve
    simp only [view, feed, hevents, hphase]
    exact .refl
  | reject hphase hreject =>
    rw [view, hphase]
    exact .refl
  | accepted hphase =>
    rw [view, hphase]
    exact reaches_advance _ _ (.single (.settle s.feed _))
  | rejected hphase =>
    rw [view, hphase]
    refine reaches_raiseInner _ _ (.single ?_)
    exact .abandon s.feed _ (by simp [unresolved, hphase])
  | loseReply error hphase =>
    refine reaches_raiseInner _ _ (.single ?_)
    rcases hphase with ⟨requestId, reply, hphase⟩ | ⟨accepted, hphase⟩
    · rw [hphase]
      exact .abandon s.feed _ rfl
    · rw [hphase]
      exact .abandon s.feed _ rfl
  | bind tools hphase =>
    rw [view, hphase, ← s.bindAppSession_feed _ tools]
    exact reaches_publishResponseEvents _ _ _ _ .refl
  | announce hphase =>
    rw [view, hphase]
    exact reaches_advance s _ (.single (.advance s.feed _))
  | renewed hphase =>
    rw [view, hphase]
    exact reaches_loop s .refl
  | reconnectRaises error' hphase houtcome => exact reaches_raise s error' _
  | interrupt hdeadline => exact reaches_raise s .timeout _
  | interrupted hphase =>
    rw [view, hphase]
    exact .refl
  | finish hphase =>
    rw [view, hphase]
    exact .refl

/-! ## Runs -/

variable {actions : List Action} {lost : AgentEvent}

theorem reaches_of_run (hrun : Machine.run driverStep s actions = some s') :
    Reaches True s.view s'.view :=
  Machine.run_rel (R := fun s s' => Reaches True s.view s'.view) (fun _ => .refl)
    (fun s m s' (h : Reaches True s.view m.view) (h' : Reaches True m.view s'.view) => h.trans h')
    (fun _ _ _ (_ : True) (_ : True) hstep =>
      ⟨trivial, Moves.mono (fun _ => trivial) (moves_of_step (step_of_driverStep hstep))⟩)
    (Machine.meets_of_forall s fun _ _ => trivial) hrun trivial

section Execution

variable {maxHistory : ℕ} {mcpAppsEnabled : Bool} {threadId turnId : String}
  {record : ResponseRecord}

theorem follows_of_run (hrun : Machine.run driverStep
    (create maxHistory mcpAppsEnabled threadId turnId record) actions = some s) :
    Follows AgentEvent.id IsNotification s.view := by
  have hinit : (create maxHistory mcpAppsEnabled threadId turnId record).view =
    (Feed.init, .before) := rfl
  exact follows_init.moves (hinit ▸ reaches_of_run hrun)

end Execution

/-! ## The end of a stalled execution -/

/-- The driver follows a Response that has not ended. -/
def Live (s : Driver) : Prop := s.phase.holding.Settled → s.builder.terminal = false

theorem live_of_view {f : Feed AgentEvent} (hview : s.view = (f, .over)) : Live s := by
  intro hsettled
  rw [(Prod.mk.inj hview).2] at hsettled
  exact hsettled.elim

theorem live_raiseInner (h : s.builder.terminal = false) (error : DriverError) :
    (s.raiseInner error).Live := by
  cases error with
  | upstream message =>
    simp only [raiseInner]
    split
    · exact live_of_view (raise_view s _)
    · split_ifs
      · exact live_of_view (raise_view s _)
      · exact fun _ => h
  | terminal message => exact live_of_view (raise_view s _)
  | timeout => exact live_of_view (raise_view s _)
  | other => exact live_of_view (raise_view s _)

theorem live_advance (s : Driver) (event : AgentEvent) : (s.advance event).Live := by
  intro hsettled
  cases hterminal : s.builder.terminal with
  | false => exact hterminal
  | true => simp [advance, hterminal, Phase.holding, Holding.Settled] at hsettled

theorem live_loop (s : Driver) : s.loop.Live := by
  intro hsettled
  cases hterminal : s.builder.terminal with
  | false => exact hterminal
  | true => simp [loop, hterminal, Phase.holding, Holding.Settled] at hsettled

theorem live_publishResponseEvents (event : AgentEvent) (todo : List Event) (s : Driver)
    (bound : List Event) : (s.publishResponseEvents event bound todo).Live := by
  induction todo generalizing bound with
  | nil =>
    simp only [publishResponseEvents]
    split_ifs
    · exact fun hsettled => hsettled.elim
    · exact live_advance _ event
  | cons current todo ih =>
    simp only [publishResponseEvents]
    split_ifs
    · exact fun hsettled => hsettled.elim
    · exact ih (bound ++ [current])

theorem live_handle (h : s.builder.terminal = false) (event : AgentEvent) : (s.handle event).Live := by
  simp only [handle]
  split
  · exact live_of_view (raise_view s _)
  · split_ifs
    · exact live_of_view (raise_view s _)
    · cases event.type with
      | serverRequest =>
        simp only [handleAgentServerRequest]
        split
        · split_ifs
          · exact fun _ => h
          · split
            · exact fun _ => h
            · exact fun _ => h
        · exact live_raiseInner h _
      | sessionFailed => exact live_of_view (raise_view s _)
      | notification =>
        simp only [handleNotification]
        split_ifs
        · exact live_publishResponseEvents event _ _ _
        · exact live_advance s event

/-- In a phase in which nothing is under way, the Response has not ended. -/
theorem Live.not_terminal {phase : Phase} (h : s.Live) (hphase : s.phase = phase)
    (hsettled : phase.holding.Settled) : s.builder.terminal = false := h (hphase ▸ hsettled)

/-- **As long as the driver reads on, the Response has not ended.** -/
theorem live_step {action : Action} (h : s.Live) (hstep : Step s action s') : s'.Live := by
  cases hstep with
  | worker hworker => exact h
  | failLease error => exact h
  | cancel => exact h
  | expire => exact h
  | readCursor hphase => exact fun _ => h.not_terminal hphase trivial
  | startTurn hphase => exact live_loop _
  | connect hphase => exact fun _ => h.not_terminal hphase trivial
  | send hstreaming => exact h
  | @deliver event rest hphase hstream =>
    exact @live_handle { s with stream := rest } (h.not_terminal hphase trivial) event
  | endStream hphase => exact live_raiseInner (h.not_terminal hphase trivial) _
  | breakStream error hphase =>
    refine live_raiseInner ?_ error
    exact hphase.elim (h.not_terminal · trivial) (h.not_terminal · trivial)
  | answer reply hphase => exact fun _ => h.not_terminal hphase trivial
  | resolve hphase hresolve => exact fun _ => h.not_terminal hphase trivial
  | reject hphase hreject => exact fun _ => h.not_terminal hphase trivial
  | accepted hphase => exact live_advance _ _
  | @rejected event hphase =>
    exact @live_raiseInner { s with resolved := s.resolved ++ [event.id] }
      (h.not_terminal hphase trivial) _
  | @loseReply event error hphase =>
    refine @live_raiseInner { s with resolved := s.resolved ++ [event.id] } ?_ error
    rcases hphase with ⟨requestId, reply, hphase⟩ | ⟨accepted, hphase⟩
    · exact h.not_terminal hphase trivial
    · exact h.not_terminal hphase trivial
  | bind tools hphase => exact live_publishResponseEvents _ _ _ _
  | announce hphase => exact live_advance s _
  | renewed hphase => exact live_loop s
  | reconnectRaises error' hphase houtcome => exact live_of_view (raise_view s error')
  | interrupt hdeadline => exact live_of_view (raise_view s .timeout)
  | interrupted hphase => exact fun hsettled => hsettled.elim
  | finish hphase => exact fun hsettled => hsettled.elim

/-- The execution has come to its end with this error. -/
def FailedWith (s : Driver) (error : DriverError) : Prop :=
  (s.phase = .closing ∨ s.phase = .closed) ∧ s.driverError = some error

/-- The execution has failed, or is about to. -/
def Failing (s : Driver) : Prop := s.phase = .interrupting ∨ ∃ error, s.FailedWith error

theorem failing_raise (s : Driver) (error : DriverError) : (s.raise error).Failing := by
  cases error with
  | timeout => exact .inl rfl
  | terminal message => exact .inr ⟨.terminal message, .inl rfl, rfl⟩
  | upstream message => exact .inr ⟨.upstream message, .inl rfl, rfl⟩
  | other => exact .inr ⟨.other, .inl rfl, rfl⟩

theorem failing_raiseInner (s : Driver) (error : DriverError) :
    (s.raiseInner error).phase.holding ≠ .over ∨ (s.raiseInner error).Failing := by
  cases error with
  | upstream message =>
    simp only [raiseInner]
    split
    · exact .inr (failing_raise s _)
    · split_ifs
      · exact .inr (failing_raise s _)
      · exact .inl (by simp [Phase.holding])
  | terminal message => exact .inr (failing_raise s _)
  | timeout => exact .inr (failing_raise s _)
  | other => exact .inr (failing_raise s _)

/-- What can still happen at the end of an execution. -/
theorem over_step {action : Action} (h : s.phase.holding = .over) (hstep : Step s action s') :
    (s'.phase = s.phase ∧ s'.driverError = s.driverError ∧ s'.queue = s.queue ∧
      s'.builder = s.builder) ∨
    (s.phase = .interrupting ∧ ∃ error, s' = s.fail error) ∨
    (s.phase = .closing ∧ s'.phase = .closed ∧ s'.driverError = s.driverError ∧
      s'.queue = s.queue ++ [none] ∧ s'.builder = s.builder) := by
  cases hstep with
  | worker hworker => exact .inl ⟨rfl, rfl, rfl, rfl⟩
  | failLease error => exact .inl ⟨rfl, rfl, rfl, rfl⟩
  | cancel => exact .inl ⟨rfl, rfl, rfl, rfl⟩
  | expire => exact .inl ⟨rfl, rfl, rfl, rfl⟩
  | interrupted hphase => exact .inr (.inl ⟨hphase, _, rfl⟩)
  | finish hphase => exact .inr (.inr ⟨hphase, rfl, rfl, rfl, rfl⟩)
  | send hstreaming =>
    have hsub := subscribed_of_streaming hstreaming
    rw [h] at hsub
    exact hsub.elim
  | interrupt hdeadline =>
    cases hphase : s.phase <;> simp [hphase, underDeadline, Phase.holding] at h hdeadline
  | breakStream error hphase =>
    rcases hphase with hphase | hphase <;> simp [hphase, Phase.holding] at h
  | loseReply error hphase =>
    rcases hphase with ⟨requestId, reply, hphase⟩ | ⟨accepted, hphase⟩ <;>
      simp [hphase, Phase.holding] at h
  | readCursor hphase => simp [hphase, Phase.holding] at h
  | startTurn hphase => simp [hphase, Phase.holding] at h
  | connect hphase => simp [hphase, Phase.holding] at h
  | deliver hphase => simp [hphase, Phase.holding] at h
  | endStream hphase => simp [hphase, Phase.holding] at h
  | answer reply hphase => simp [hphase, Phase.holding] at h
  | resolve hphase => simp [hphase, Phase.holding] at h
  | reject hphase => simp [hphase, Phase.holding] at h
  | accepted hphase => simp [hphase, Phase.holding] at h
  | rejected hphase => simp [hphase, Phase.holding] at h
  | bind tools hphase => simp [hphase, Phase.holding] at h
  | announce hphase => simp [hphase, Phase.holding] at h
  | renewed hphase => simp [hphase, Phase.holding] at h
  | reconnectRaises error' hphase => simp [hphase, Phase.holding] at h

/-- **An execution that has failed keeps its error.** -/
theorem failedWith_step {action : Action} {error : DriverError} (h : s.FailedWith error)
    (hstep : Step s action s') : s'.FailedWith error := by
  obtain ⟨hended, herror⟩ := h
  have hover : s.phase.holding = .over := by
    rcases hended with hphase | hphase <;> rw [hphase, Phase.holding]
  rcases over_step hover hstep with ⟨hphase, hsame, -⟩ | ⟨hphase, -⟩ | ⟨-, hphase, hsame, -⟩
  · exact ⟨hphase ▸ hended, hsame.trans herror⟩
  · simp [hphase] at hended
  · exact ⟨.inr hphase, hsame.trans herror⟩

theorem failing_step {action : Action} (h : s.Failing) (hstep : Step s action s') : s'.Failing := by
  rcases h with hphase | ⟨error, herror⟩
  · have hover : s.phase.holding = .over := by rw [hphase, Phase.holding]
    rcases over_step hover hstep with ⟨hsame, -⟩ | ⟨-, error, rfl⟩ | ⟨hclosing, -⟩
    · exact .inl (hsame.trans hphase)
    · exact .inr ⟨error, .inl rfl, rfl⟩
    · simp [hphase] at hclosing
  · exact .inr ⟨error, failedWith_step herror hstep⟩

/-- An event beyond the next one is refused. -/
theorem handle_gap (hgap : s.eventCursor + 1 < event.id) :
    s.handle event = s.raise (s.leaseError.getD gapError) := by
  rw [handle]
  cases s.leaseError with
  | none => rw [if_pos hgap]; rfl
  | some error => rfl

/-- **An execution whose next event was evicted unread does not come to a good end.** -/
theorem stalled_step {action : Action} (hstalled : Stalled AgentEvent.id lost s.view)
    (hfollows : Follows AgentEvent.id IsNotification s.view) (hlive : s.Live)
    (h : s.phase.holding ≠ .over ∨ s.Failing) (hstep : Step s action s') :
    s'.phase.holding ≠ .over ∨ s'.Failing := by
  rcases h with h | h
  · have hidle : s.phase.holding = .apart ∨ s.phase.holding = .ready :=
      hstalled.idle.imp_right fun hidle => hidle.resolve_right h
    cases hstep with
    | worker hworker => exact .inl h
    | failLease error => exact .inl h
    | cancel => exact .inl h
    | expire => exact .inl h
    | send hstreaming => exact .inl h
    | connect hphase => exact .inl (by simp [Phase.holding])
    | @deliver event rest hphase hstream =>
      have hready : s.view = (s.feed, .ready) := by rw [view, hphase, Phase.holding]
      rw [hready] at hstalled hfollows
      have hgap : s.eventCursor + 1 < event.id := hstalled.gap hfollows hstream
      rw [@handle_gap { s with stream := rest } event hgap]
      exact .inr (failing_raise _ _)
    | endStream hphase => exact failing_raiseInner s _
    | breakStream error hphase => exact failing_raiseInner s error
    | renewed hphase =>
      have hterminal := hlive.not_terminal hphase trivial
      exact .inl (by simp [loop, hterminal, Phase.holding])
    | reconnectRaises error' hphase houtcome => exact .inr (failing_raise s error')
    | interrupt hdeadline => exact .inr (failing_raise s .timeout)
    | loseReply error hphase =>
      rcases hphase with ⟨requestId, reply, hphase⟩ | ⟨accepted, hphase⟩ <;>
        simp [hphase, Phase.holding] at hidle
    | readCursor hphase => simp [hphase, Phase.holding] at hidle
    | startTurn hphase => simp [hphase, Phase.holding] at hidle
    | answer reply hphase => simp [hphase, Phase.holding] at hidle
    | resolve hphase => simp [hphase, Phase.holding] at hidle
    | reject hphase => simp [hphase, Phase.holding] at hidle
    | accepted hphase => simp [hphase, Phase.holding] at hidle
    | rejected hphase => simp [hphase, Phase.holding] at hidle
    | bind tools hphase => simp [hphase, Phase.holding] at hidle
    | announce hphase => simp [hphase, Phase.holding] at hidle
    | interrupted hphase => simp [hphase, Phase.holding] at hidle
    | finish hphase => simp [hphase, Phase.holding] at hidle
  · exact .inr (failing_step h hstep)

/-! ## The events of an execution -/

/-- **The notifications are consumed in order**, each once, and behind each lies everything before
it. -/
def ConsumesInOrder (s : Driver) : Prop :=
  s.consumed.Pairwise (· < ·) ∧ ∀ i ∈ s.consumed, s.startCursor < i ∧
    (∃ event ∈ s.history, event.id = i ∧ event.type = .notification) ∧
    ∀ j : ℕ, s.startCursor < j → j < i → j ∈ s.processed

/-- The event was evicted before the driver has read it. -/
def EvictedUnread (s : Driver) (lost : AgentEvent) : Prop := Unread AgentEvent.id lost s.view

/-- The driver waits for its next event, or for a stream to bring it. -/
def AwaitsNext (s : Driver) : Prop := s.phase.holding = .apart ∨ s.phase.holding = .ready

theorem consumesInOrder_of_follows (h : Follows AgentEvent.id IsNotification s.view) :
    s.ConsumesInOrder := by
  refine ⟨h.consumed_sorted, fun i hi => ?_⟩
  obtain ⟨hstart, hle, hmem⟩ := h.consumed_mem i hi
  exact ⟨hstart, hmem, fun j hj hlt => h.processed j hj (by omega)⟩

/-- What a run keeps of a stalled execution. -/
theorem stalled_run (hstalled : Stalled AgentEvent.id lost s.view)
    (hfollows : Follows AgentEvent.id IsNotification s.view) (hlive : s.Live)
    (hidle : s.AwaitsNext) (hrun : Machine.run driverStep s actions = some s') :
    s'.phase.holding ≠ .over ∨ s'.Failing := by
  let Inv : Driver → Prop := fun s => Stalled AgentEvent.id lost s.view ∧
    Follows AgentEvent.id IsNotification s.view ∧ s.Live ∧ (s.phase.holding ≠ .over ∨ s.Failing)
  have hkeep : ∀ s a s', Inv s → driverStep s a = some s' → Inv s' := by
    rintro s a s' ⟨hstalled, hfollows, hlive, hgood⟩ hstep
    have hstep := step_of_driverStep hstep
    have hmoves := moves_of_step hstep
    exact ⟨hstalled.moves hfollows hmoves, hfollows.moves hmoves, live_step hlive hstep,
      stalled_step hstalled hfollows hlive hgood hstep⟩
  refine (Machine.run_keeps hkeep hrun ⟨hstalled, hfollows, hlive, .inl ?_⟩).2.2.2
  rcases hidle with hidle | hidle <;> simp [hidle]

theorem live_run (hlive : s.Live) (hrun : Machine.run driverStep s actions = some s') : s'.Live :=
  Machine.run_keeps (fun _ _ _ h hstep => live_step h (step_of_driverStep hstep)) hrun hlive

/-- An event that is delivered from beyond a gap fails the execution, for good. -/
theorem failedWith_gap {rest : List AgentEvent} (hlost : s.EvictedUnread lost)
    (hstream : s.stream = event :: rest) (hbeyond : lost.id < event.id)
    (hlease : s.leaseError = none)
    (hrun : Machine.run driverStep s (.deliver :: actions) = some s') : s'.FailedWith gapError := by
  obtain ⟨m, hm, hrest⟩ := Machine.run_cons.mp hrun
  refine Machine.run_keeps (fun _ _ _ h hstep => failedWith_step h (step_of_driverStep hstep))
    hrest ?_
  cases step_of_driverStep hm with
  | deliver hphase hstream' =>
    obtain ⟨rfl, rfl⟩ := List.cons.inj (hstream.symm.trans hstream')
    have hcursor : s.eventCursor < lost.id := hlost.cursor
    rw [@handle_gap { s with stream := rest } event (by dsimp only; omega)]
    dsimp only
    rw [hlease]
    exact ⟨.inl rfl, rfl⟩

/-- **The driver follows the Worker's log and skips nothing.**  An event that was evicted before it
was read is not passed: nothing from it on is consumed, once it is next the execution only fails,
and a later event fails it with the gap error. -/
theorem drive_follows (maxHistory : ℕ) (mcpAppsEnabled : Bool) (threadId turnId : String)
    (record : ResponseRecord) (actions : List Action) (s : Driver)
    (hrun : Machine.run driverStep (create maxHistory mcpAppsEnabled threadId turnId record)
      actions = some s) :
    s.ConsumesInOrder ∧
    ∀ xs ys m lost, actions = xs ++ ys →
      Machine.run driverStep (create maxHistory mcpAppsEnabled threadId turnId record) xs = some m →
      m.EvictedUnread lost →
        (∀ i ∈ s.consumed, i < lost.id) ∧
        (m.AwaitsNext → (lost.id : ℤ) = m.eventCursor + 1 →
          s.phase.holding ≠ .over ∨ s.Failing) ∧
        (∀ zs event rest, ys = .deliver :: zs → m.stream = event :: rest → lost.id < event.id →
          m.leaseError = none → s.FailedWith gapError) := by
  have hfollows := follows_of_run hrun
  refine ⟨consumesInOrder_of_follows hfollows, fun xs ys m lost hsplit hm hlost => ?_⟩
  have hrest : Machine.run driverStep m ys = some s := by
    rw [hsplit, Machine.run_append, hm] at hrun
    exact hrun
  have hfollows' := follows_of_run hm
  refine ⟨hfollows.consumed_lt_unread (hlost.moves hfollows' (reaches_of_run hrest)),
    fun hidle hnext => ?_, fun zs event rest hys hstream hbeyond hlease => ?_⟩
  · have hlive : m.Live := live_run (fun _ => rfl) hm
    exact stalled_run ⟨hlost, hnext, hidle.imp_right .inl⟩ hfollows' hlive hidle hrest
  · subst hys
    exact failedWith_gap hlost hstream hbeyond hlease hrest

/-- A test for `EvictedUnread`, by the id of the event. -/
def evictedUnreadId (s : Driver) (i : ℕ) : Bool :=
  s.underDeadline && s.history.any (·.id = i) && s.runtime.events.events.all (·.id ≠ i) &&
    s.stream.all (·.id ≠ i) && s.eventCursor < i && s.phase.event?.all (·.id ≠ i) && i ∉ s.consumed

theorem exists_evictedUnread {i : ℕ} (h : s.evictedUnreadId i = true) :
    ∃ lost, lost.id = i ∧ s.EvictedUnread lost := by
  simp only [evictedUnreadId, Bool.and_eq_true, List.any_eq_true, List.all_eq_true,
    decide_eq_true_eq] at h
  obtain ⟨⟨⟨⟨⟨⟨hdeadline, lost, hmem, rfl⟩, hlog⟩, hstream⟩, hcursor⟩, hheld⟩, hconsumed⟩ := h
  refine ⟨lost, rfl, ?_, hmem, fun hin => hlog lost hin rfl, fun hin => hstream lost hin rfl, hcursor,
    fun hlost => ?_, hconsumed⟩
  · cases hphase : s.phase <;> simp [hphase, underDeadline, view, Phase.holding] at hdeadline ⊢
  · cases hphase : s.phase <;>
      simp_all [view, Phase.holding, Holding.element?, Phase.event?]

/-- The Worker publishes one notification more than it keeps, before the driver reads the first. -/
def flood : List Action :=
  [.readCursor, .startTurn, .connect] ++
    List.replicate 65 (.worker (.notify ⟨[], List.nodup_nil, trivial⟩))

/-- The driver is over. -/
def isClosed (s : Driver) : Bool := match s.phase with
  | .closed => true
  | _ => false

/-- An execution that reads on from the flood fails with the gap error. -/
theorem drive_follows_flood : ∃ s, Machine.run driverStep
    (create 64 true "thread_1" "turn_1" sampleRecord) (flood ++ [.send] ++ [.deliver]) = some s ∧
      s.FailedWith gapError := by
  obtain ⟨m, hm, htest⟩ := (Option.any_eq_true _ _).mp (show (Machine.run driverStep
    (create 64 true "thread_1" "turn_1" sampleRecord) (flood ++ [.send])).any (fun s =>
      s.evictedUnreadId 0 && (s.stream.head?.any fun event => 0 < event.id) &&
        s.leaseError.isNone) = true by decide +kernel)
  obtain ⟨s, hs, -⟩ := (Option.any_eq_true _ _).mp (show (Machine.run driverStep
    (create 64 true "thread_1" "turn_1" sampleRecord) (flood ++ [.send] ++ [.deliver])).any
      (fun _ => true) = true by decide +kernel)
  simp only [Bool.and_eq_true, Option.any_eq_true] at htest
  obtain ⟨⟨hlost, event, hhead, hbeyond⟩, hlease⟩ := htest
  obtain ⟨lost, hid, hlost⟩ := exists_evictedUnread hlost
  obtain ⟨rest, hstream⟩ := List.head?_eq_some_iff.mp hhead
  refine ⟨s, hs, ?_⟩
  have hfollows := (drive_follows _ _ _ _ _ _ s hs).2 (flood ++ [.send]) [.deliver] m lost rfl hm hlost
  exact hfollows.2.2 [] event rest rfl hstream (by rw [hid]; exact of_decide_eq_true hbeyond)
    (by simpa using hlease)

/-- The subscription breaks and the Sandbox has gone: the execution fails, but not with the gap
error. -/
theorem not_gapError_unavailable : ¬ ∀ (maxHistory : ℕ) (mcpAppsEnabled : Bool)
    (threadId turnId : String) (record : ResponseRecord) (xs ys : List Action) (m s : Driver)
    (lost : AgentEvent), 64 ≤ maxHistory →
    Machine.run driverStep (create maxHistory mcpAppsEnabled threadId turnId record) xs = some m →
    m.EvictedUnread lost → Machine.run driverStep m ys = some s → s.phase = .closed →
      s.driverError = some gapError := by
  intro h
  let broken : List Action :=
    [.breakStream (.upstream "Sandbox Worker event stream failed"), .reconnect .unavailable, .finish]
  obtain ⟨m, hm, htest⟩ := (Option.any_eq_true _ _).mp (show (Machine.run driverStep
    (create 64 true "thread_1" "turn_1" sampleRecord) flood).any (·.evictedUnreadId 0) = true by
      decide +kernel)
  obtain ⟨lost, -, hlost⟩ := exists_evictedUnread htest
  obtain ⟨s, hs, hend⟩ := (Option.any_eq_true _ _).mp (show (Machine.run driverStep
    (create 64 true "thread_1" "turn_1" sampleRecord) (flood ++ broken)).any (fun s =>
      s.isClosed && s.driverError ≠ some gapError) = true by decide +kernel)
  rw [Machine.run_append, hm] at hs
  rw [Bool.and_eq_true, decide_eq_true_eq] at hend
  have hclosed : s.phase = .closed := by
    have hphase := hend.1
    rw [isClosed] at hphase
    split at hphase
    · assumption
    · cases hphase
  exact hend.2 (h 64 true _ _ _ flood broken m s lost le_rfl hm hlost hs hclosed)

end Driver

end CodexGateway.Adapter
