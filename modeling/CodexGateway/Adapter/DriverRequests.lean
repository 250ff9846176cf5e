import CodexGateway.Adapter.DriverFollow

/-!
# Adapter/DriverRequests — the server requests of an execution

A server request is surfaced as an interaction and resolved at the Worker; only then does the cursor
pass its event.  A call that fails leaves the cursor where it is, and the event is read again: the
interaction is surfaced a second time, while the Worker has already forgotten the request.  Where no
call fails, a request is surfaced once and the driver reads on behind it (`requests_surface_once`).
-/

namespace CodexGateway.Adapter

open PyJson Worker Follower

namespace Driver

variable {s s' : Driver} {actions : List Action}

/-- Neither is the call rejected that resolves a server request, nor its reply lost. -/
abbrev Resolves (s : Driver) (action : Action) : Prop := ¬ s.unresolved action

/-- **A request is one interaction**, and the cursor passes what was resolved. -/
def SurfacesOnce (s : Driver) : Prop :=
  s.interactions.Nodup ∧ ∀ i ∈ s.resolved, (i : ℤ) ≤ s.eventCursor

theorem surfaced_run (hs : Surfaced AgentEvent.id s.view)
    (hfollows : Follows AgentEvent.id IsNotification s.view)
    (hmeets : Machine.Meets driverStep Resolves s actions)
    (hrun : Machine.run driverStep s actions = some s') : Surfaced AgentEvent.id s'.view := by
  let Inv : Driver → Prop := fun s =>
    Surfaced AgentEvent.id s.view ∧ Follows AgentEvent.id IsNotification s.view
  have hkeep : ∀ s a s', s.Resolves a → Inv s → driverStep s a = some s' → Inv s' := by
    rintro s a s' hresolves ⟨hs, hfollows⟩ hstep
    have hmoves : Reaches False s.view s'.view :=
      Moves.mono hresolves (moves_of_step (step_of_driverStep hstep))
    exact ⟨hs.moves hfollows hmoves, hfollows.moves hmoves⟩
  exact (Machine.run_invariant hkeep hmeets hrun ⟨hs, hfollows⟩).1

/-- With the reply to its call, the driver reads on. -/
theorem returnReply_step {event : AgentEvent} {accepted : Bool} (hlive : s.Live)
    (hresolves : s.Resolves .returnReply) (hphase : s.phase = .replying event accepted)
    (hstep : driverStep s .returnReply = some s') :
    s'.phase = .reading ∧ s'.stream = s.stream ∧ s'.eventCursor = event.id := by
  have hterminal := hlive.not_terminal hphase trivial
  cases step_of_driverStep hstep with
  | accepted hphase' =>
    obtain ⟨rfl, -⟩ := Phase.replying.inj (hphase.symm.trans hphase')
    exact ⟨by simp [advance, hterminal], rfl, rfl⟩
  | rejected hphase' => exact absurd (by simp [unresolved, hphase']) hresolves

/-- **Where every call gets its reply, each request is surfaced once** and the driver reads on behind
it. -/
theorem requests_surface_once (maxHistory : ℕ) (mcpAppsEnabled : Bool) (threadId turnId : String)
    (record : ResponseRecord) (actions : List Action) (s : Driver)
    (hmeets : Machine.Meets driverStep Resolves
      (create maxHistory mcpAppsEnabled threadId turnId record) actions)
    (hrun : Machine.run driverStep (create maxHistory mcpAppsEnabled threadId turnId record)
      actions = some s) :
    s.SurfacesOnce ∧
    ∀ xs ys m m' event accepted, actions = xs ++ .returnReply :: ys →
      Machine.run driverStep (create maxHistory mcpAppsEnabled threadId turnId record) xs = some m →
      m.phase = .replying event accepted → driverStep m .returnReply = some m' →
        m'.phase = .reading ∧ m'.stream = m.stream ∧ m'.eventCursor = event.id := by
  constructor
  · have hsurfaced := surfaced_run surfaced_init follows_init hmeets hrun
    exact ⟨hsurfaced.nodup, hsurfaced.resolved⟩
  · intro xs ys m m' event accepted hsplit hm hphase hstep
    have hlive : m.Live := live_run (fun _ => rfl) hm
    exact returnReply_step hlive (Machine.meets_iff.mp hmeets xs _ ys hsplit m hm) hphase hstep

/-- A server request of the turn, surfaced and answered. -/
def elicitation : List Action :=
  [.readCursor, .startTurn, .connect,
    .worker (.serverRequest "7" ⟨[("threadId", .str "thread_1")],
      show ["threadId"].Nodup by decide, trivial, trivial⟩),
    .send, .deliver, .answer cancelReply, .resolve]

/-- The driver awaits the reply of a call that resolves a request. -/
def awaitsReply (s : Driver) : Bool :=
  match s.phase with
  | .replying _ _ => true
  | _ => false

/-- The interaction is answered and its reply gets through: the driver reads on behind its event. -/
theorem requests_surface_once_elicitation : ∃ m s event accepted,
    Machine.run driverStep (create 64 true "thread_1" "turn_1" sampleRecord) elicitation = some m ∧
    m.phase = .replying event accepted ∧ driverStep m .returnReply = some s ∧
      s.SurfacesOnce ∧ s.interactions = [0] ∧
      s.phase = .reading ∧ s.stream = m.stream ∧ s.eventCursor = event.id := by
  obtain ⟨s, hs, htest⟩ := (Option.any_eq_true _ _).mp (show (Machine.run driverStep
    (create 64 true "thread_1" "turn_1" sampleRecord) (elicitation ++ [.returnReply])).any
      (fun s => s.interactions = [0]) = true by decide +kernel)
  have hreplying : (Machine.run driverStep (create 64 true "thread_1" "turn_1" sampleRecord)
      elicitation).all awaitsReply = true := by decide +kernel
  obtain ⟨m, hm, hstep⟩ := Machine.run_concat.mp hs
  rw [hm, Option.all_some, awaitsReply] at hreplying
  obtain ⟨honce, hbehind⟩ := requests_surface_once 64 true "thread_1" "turn_1" sampleRecord
    (elicitation ++ [.returnReply]) s (by decide +kernel) hs
  split at hreplying
  · rename_i event accepted hphase
    exact ⟨m, s, event, accepted, hm, hphase, hstep, honce, of_decide_eq_true htest,
      hbehind elicitation [] m s event accepted rfl hm hphase hstep⟩
  · cases hreplying

/-- The reply is lost and the driver subscribes again: the request is surfaced a second time. -/
theorem not_surfacesOnce_lostReply : ¬ ∀ (maxHistory : ℕ) (mcpAppsEnabled : Bool)
    (threadId turnId : String) (record : ResponseRecord) (actions : List Action) (s : Driver),
    64 ≤ maxHistory →
    Machine.run driverStep (create maxHistory mcpAppsEnabled threadId turnId record) actions = some s →
      s.SurfacesOnce := by
  intro h
  let again : List Action :=
    [.worker (.forget "7"), .loseReply (.upstream "Sandbox Worker request failed"),
      .reconnect .renewed, .connect, .send, .deliver]
  obtain ⟨s, hs, htest⟩ := (Option.any_eq_true _ _).mp (show (Machine.run driverStep
    (create 64 true "thread_1" "turn_1" sampleRecord) (elicitation ++ again)).any
      (fun s => s.interactions = [0, 0]) = true by decide +kernel)
  have hnodup := (h 64 true _ _ _ _ s le_rfl hs).1
  rw [of_decide_eq_true htest] at hnodup
  exact absurd hnodup (by decide)

end Driver

end CodexGateway.Adapter
