import CodexGateway.Worker.RpcEnd

/-!
# Worker/RpcServer — the requests of the app server

Each request of the app server gets a task, which answers it once with its id, where no write fails
and the session is not closed (`server_request_answered`).

`close` cancels the tasks there are and waits for them.  Where no request is read from then on, that
is the end of all tasks (`close_quiet`); but the reader goes on until the process has ended, and a
request that it reads then is handled after the session is closed (`close_leaves_task`).
-/

namespace CodexGateway.Worker

open PyJson SandboxApi

/-! ## The requests of the app server are answered -/

/-- What a task is for. -/
def ServerTask.request (t : ServerTask) : Json × String × Members := (t.id, t.method, t.params)

/-- A task that runs has not answered, and one that is over has answered once, with the id of its
request. -/
def ServerTask.Answers (t : ServerTask) : Prop :=
  t.cancelled = false ∧
    match t.phase with
    | .start | .handler => t.answers = []
    | .write answer _ => t.answers = [] ∧ Members.get answer "id" = t.id
    | .ended => ∃ answer, t.answers = [answer] ∧ Members.get answer "id" = t.id

/-- The session is closed, or an answer cannot be written. -/
def RpcAction.disturbs : RpcAction → Bool
  | .close | .server _ (.writeFails _ _) => true
  | _ => false

section Tasks

variable {s s' w : RpcSession} {t t' : ServerTask} {a : RpcAction} {b : ServerTaskAction}
  {hasHandler closed : Bool} {message : Members}

theorem phase_of_isOver (h : t.isOver = true) : t.phase = .ended := by
  rw [ServerTask.isOver] at h
  split at h
  · assumption
  · cases h

theorem act_of_isOver (h : t.isOver = true) : t.act hasHandler closed b = none := by
  have hover := phase_of_isOver h
  rw [ServerTask.act.eq_def]
  simp only [hover]
  cases t.cancelled
  · rfl
  · rfl

theorem answers_answer {answer : Members} {last : Bool} (h : t.cancelled = false)
    (hnone : t.answers = []) (hid : Members.get answer "id" = t.id) :
    (t.answer false answer last).Answers := ⟨h, hnone, hid⟩

/-- A task stays the one of its request, and answers it once where nothing fails. -/
theorem act_request (h : t.act hasHandler closed b = some t') :
    t'.request = t.request ∧ (t.Answers → closed = false →
      (∀ done text, b ≠ .writeFails done text) → t'.Answers) := by
  rw [ServerTask.act.eq_def] at h
  split at h
  · rename_i hrunning hphase
    split_ifs at h
    · obtain rfl := Option.some.inj h
      refine ⟨rfl, fun hanswers _ _ => ⟨hrunning, ?_⟩⟩
      have hnone := hanswers.2
      rwa [hphase] at hnone
    · obtain rfl := Option.some.inj h
      refine ⟨rfl, fun hanswers _ _ => ⟨hrunning, ?_, rfl⟩⟩
      have hnone := hanswers.2
      rwa [hphase] at hnone
  · rename_i result hrunning hphase
    obtain rfl := Option.some.inj h
    refine ⟨rfl, fun hanswers hopen _ => ?_⟩
    have hnone := hanswers.2
    rw [hphase] at hnone
    rw [hopen]
    exact answers_answer hrunning hnone rfl
  · rename_i text hrunning hphase
    obtain rfl := Option.some.inj h
    refine ⟨rfl, fun hanswers hopen _ => ?_⟩
    have hnone := hanswers.2
    rw [hphase] at hnone
    rw [hopen]
    exact answers_answer hrunning hnone rfl
  · rename_i hrunning hphase
    obtain rfl := Option.some.inj h
    refine ⟨rfl, fun hanswers hopen _ => ?_⟩
    have hnone := hanswers.2
    rw [hphase] at hnone
    rw [hopen]
    exact answers_answer hrunning hnone rfl
  · rename_i answer last hrunning hphase
    obtain rfl := Option.some.inj h
    refine ⟨rfl, fun hanswers _ _ => ⟨hrunning, answer, ?_, ?_⟩⟩
    · have hnone := hanswers.2
      rw [hphase] at hnone
      simp [ServerTask.wrote, hnone.1]
    · have hid := hanswers.2
      rw [hphase] at hid
      exact hid.2
  · rename_i answer done text hrunning hphase
    obtain rfl := Option.some.inj h
    cases text with
    | none => exact ⟨rfl, fun _ _ hwrites => absurd rfl (hwrites done none)⟩
    | some message => exact ⟨rfl, fun _ _ hwrites => absurd rfl (hwrites done (some message))⟩
  · rename_i answer done text hrunning hphase
    obtain rfl := Option.some.inj h
    exact ⟨rfl, fun _ _ hwrites => absurd rfl (hwrites done text)⟩
  · rename_i answer last done hcancelled hphase
    obtain rfl := Option.some.inj h
    exact ⟨rfl, fun hanswers _ _ => absurd hanswers.1 (by simp [hcancelled])⟩
  · rename_i done hcancelled hphase
    obtain rfl := Option.some.inj h
    exact ⟨rfl, fun hanswers _ _ => absurd hanswers.1 (by simp [hcancelled])⟩
  · rename_i done hcancelled hphase
    obtain rfl := Option.some.inj h
    exact ⟨rfl, fun hanswers _ _ => absurd hanswers.1 (by simp [hcancelled])⟩
  · cases h

theorem answers_serverTask (h : t ∈ RpcSession.serverTask message) : t.Answers := by
  rw [RpcSession.serverTask] at h
  split_ifs at h
  · cases h
  · obtain ⟨method, -, rfl⟩ := Option.map_eq_some_iff.mp h
    exact ⟨rfl, rfl⟩
  · cases h

/-- What holds of the tasks while nothing is closed. -/
structure RpcSession.Tasked (s : RpcSession) : Prop where
  opened : s.closing = .unclosed
  requests : s.tasks.map ServerTask.request =
    (s.calls.heard.filterMap RpcSession.serverTask).map ServerTask.request
  answers : ∀ t ∈ s.tasks, t.Answers

theorem tasked_step (hcond : a.disturbs = false) (hs : s.Tasked)
    (h : s.act hasHandler a = some s') : s'.Tasked := by
  rcases act_cases h with hbeside | ⟨message, -, hreader, rfl⟩ | hends |
    ⟨k, b, t, t', rfl, ht, hact, rfl⟩ | ⟨-, hclose⟩
  · refine ⟨hbeside.closing.trans hs.opened, ?_, ?_⟩
    · rw [hbeside.tasks, hbeside.heard, hs.requests]
    · rw [hbeside.tasks]
      exact hs.answers
  · refine ⟨hs.opened, ?_, fun t ht => ?_⟩
    · rw [RpcSession.dispatch, List.map_append, hs.requests, Calls.heard_hear,
        List.filterMap_append, List.map_append]
      cases hserver : RpcSession.serverTask message with
      | none => simp [hserver]
      | some t => simp [hserver]
    · rcases List.mem_append.mp ht with hold | hnew
      · exact hs.answers t hold
      · exact answers_serverTask (Option.mem_toList.mp hnew)
  · refine ⟨hends.closing.trans hs.opened, ?_, ?_⟩
    · rw [hends.tasks, hends.heard, hs.requests]
    · rw [hends.tasks]
      exact hs.answers
  · obtain ⟨hrequest, hanswers⟩ := act_request hact
    have hwrites : ∀ done text, b ≠ .writeFails done text := by
      rintro done text rfl
      cases hcond
    have hopen : s.closed = false := by
      rw [RpcSession.closed, hs.opened]
      rfl
    refine ⟨hs.opened, ?_, fun u hu => ?_⟩
    · have hsame : (s.tasks.set k t').map ServerTask.request =
          s.tasks.map ServerTask.request := by
        obtain ⟨hk, hget⟩ := List.getElem?_eq_some_iff.mp ht
        have hlt : k < (s.tasks.map ServerTask.request).length := by rwa [List.length_map]
        have hold : (s.tasks.map ServerTask.request)[k] = t.request := by
          rw [List.getElem_map, hget]
        rw [List.map_set, hrequest, ← hold]
        exact List.set_getElem_self _
      exact hsame.trans hs.requests
    · rcases List.mem_or_eq_of_mem_set hu with hold | rfl
      · exact hs.answers u hold
      · exact hanswers (hs.answers t (List.mem_of_getElem? ht)) hopen hwrites
  · rw [hclose hs.opened] at hcond
    cases hcond

/-- **Every request of the app server has its task, and is answered once when that is over.** -/
theorem server_request_answered {as : List RpcAction}
    (hmeets : Machine.Meets (RpcSession.act · hasHandler) (fun _ a => a.disturbs = false)
      rpcStart as)
    (hrun : Machine.run (RpcSession.act · hasHandler) rpcStart as = some w) :
    w.tasks.map ServerTask.request =
        (w.calls.heard.filterMap RpcSession.serverTask).map ServerTask.request ∧
      ∀ t ∈ w.tasks, t.isOver = true → ∃ answer, t.answers = [answer] ∧
        Members.get answer "id" = t.id := by
  have hstart : rpcStart.Tasked := ⟨rfl, rfl, fun t ht => absurd ht List.not_mem_nil⟩
  have htasked := Machine.run_invariant (fun _ _ _ => tasked_step) hmeets hrun hstart
  refine ⟨htasked.requests, fun t ht hover => ?_⟩
  have hanswers := (htasked.answers t ht).2
  rwa [phase_of_isOver hover] at hanswers

end Tasks

/-! ## A session that is closed is left alone -/

/-- A request of the app server is read while the session closes. -/
def RpcSession.readsLate (s : RpcSession) : RpcAction → Bool
  | .read message => s.closed && (serverTask message).isSome
  | _ => false

/-- The tasks that `close` waits for are all there are, and once it goes on they are over. -/
def RpcSession.Quiet (s : RpcSession) : Prop :=
  match s.closing with
  | .unclosed => True
  | .tasks count => count = s.tasks.length
  | _ => ∀ t ∈ s.tasks, t.isOver = true

section Quiet

variable {s s' w : RpcSession} {a : RpcAction} {hasHandler : Bool}

theorem quiet_of_eq (hs : s.Quiet) (hclosing : s'.closing = s.closing)
    (htasks : s'.tasks = s.tasks) : s'.Quiet := by
  rwa [RpcSession.Quiet, hclosing, htasks]

theorem quiet_step (hcond : s.readsLate a = false) (hs : s.Quiet)
    (h : s.act hasHandler a = some s') : s'.Quiet := by
  rcases act_cases h with hbeside | ⟨message, rfl, -, rfl⟩ | hends |
    ⟨k, b, t, t', -, ht, hact, rfl⟩ | ⟨hcloses, -⟩
  · exact quiet_of_eq hs hbeside.closing hbeside.tasks
  · cases hclosing : s.closing with
    | unclosed =>
      rw [RpcSession.Quiet, RpcSession.dispatch, hclosing]
      trivial
    | _ =>
      have hnone : RpcSession.serverTask message = none := by
        simpa [RpcSession.readsLate, RpcSession.closed, hclosing] using hcond
      exact quiet_of_eq hs rfl (by rw [RpcSession.dispatch, hnone]; exact List.append_nil _)
  · exact quiet_of_eq hs hends.closing hends.tasks
  · rw [RpcSession.Quiet] at hs ⊢
    have hover (hall : ∀ t ∈ s.tasks, t.isOver = true) :
        ∀ u ∈ s.tasks.set k t', u.isOver = true := by
      rw [act_of_isOver (hall t (List.mem_of_getElem? ht))] at hact
      cases hact
    cases hclosing : s.closing <;> simp only [hclosing] at hs ⊢
    case tasks => rw [hs, List.length_set]
    all_goals exact hover hs
  · rw [RpcSession.Quiet] at hs ⊢
    rcases hcloses.closing with ⟨-, hclosing, htasks⟩ |
      ⟨count, hclosing, hclosing', htasks, hover⟩ | ⟨hclosing, htasks, hclosing'⟩
    · rw [hclosing, htasks]
      exact (List.length_map _).symm
    · rw [hclosing', htasks]
      simp only [hclosing] at hs
      rw [hs, List.take_length] at hover
      exact fun t ht => List.all_eq_true.mp hover t ht
    · have hall : ∀ t ∈ s.tasks, t.isOver = true := by
        rcases hclosing with hclosing | hclosing
        · simpa only [hclosing] using hs
        · simpa only [hclosing] using hs
      rw [htasks]
      rcases hclosing' with hclosing' | hclosing' | ⟨hclosing', -⟩
      · rw [hclosing']
        exact hall
      · rw [hclosing']
        exact hall
      · rw [hclosing']
        exact hall

/-- **Where no request of the app server is read while the session closes**, no task goes on once
`close` has waited for them, also where `close` then fails. -/
theorem close_quiet {as : List RpcAction}
    (hmeets : Machine.Meets (RpcSession.act · hasHandler) (fun s a => s.readsLate a = false)
      rpcStart as)
    (hrun : Machine.run (RpcSession.act · hasHandler) rpcStart as = some w)
    (hclosed : w.closing = .process ∨ w.closing = .reader ∨ w.closing = .done ∨
      w.closing = .aborted) (k : ℕ) (b : ServerTaskAction) :
    w.act hasHandler (.server k b) = none := by
  have hquiet := Machine.run_invariant (fun _ _ _ => quiet_step) hmeets hrun
    (show rpcStart.Quiet from trivial)
  have hall : ∀ t ∈ w.tasks, t.isOver = true := by
    rw [RpcSession.Quiet] at hquiet
    rcases hclosed with hclosing | hclosing | hclosing | hclosing
    · simpa only [hclosing] using hquiet
    · simpa only [hclosing] using hquiet
    · simpa only [hclosing] using hquiet
    · simpa only [hclosing] using hquiet
  rw [RpcSession.act]
  cases ht : w.tasks[k]? with
  | none => rfl
  | some t => simp only [act_of_isOver (hall t (List.mem_of_getElem? ht)), Option.map_none]

end Quiet

/-! ## Two sessions -/

/-- The app server asks something, and is answered. -/
def askedRun : List RpcAction :=
  [.read [("id", .str "q"), ("method", .str "ask")], .server 0 .run,
    .server 0 (.returns (.str "yes")), .server 0 .written]

theorem server_request_answered_asked : ∃ w,
    Machine.run (RpcSession.act · true) rpcStart askedRun = some w ∧ w.tasks.length = 1 ∧
      ∀ t ∈ w.tasks, ∃ answer, t.answers = [answer] ∧ Members.get answer "id" = t.id := by
  have hover : (Machine.run (RpcSession.act · true) rpcStart askedRun).map
      (fun w => (w.tasks.length, w.tasks.all ServerTask.isOver)) = some (1, true) := by
    decide +kernel
  obtain ⟨w, hrun, hover⟩ := Option.map_eq_some_iff.mp hover
  obtain ⟨hlength, hover⟩ := Prod.mk.inj hover
  have hanswered := (server_request_answered (by decide +kernel) hrun).2
  exact ⟨w, hrun, hlength, fun t ht => hanswered t ht (List.all_eq_true.mp hover t ht)⟩

/-- The session is closed while a handler answers what the app server asks: `close` stops it. -/
def stoppedRun : List RpcAction :=
  [.read [("id", .str "q"), ("method", .str "ask")], .server 0 .run, .close]

theorem close_quiet_asked : ∃ s w,
    Machine.run (RpcSession.act · true) rpcStart stoppedRun = some s ∧
      s.tasks.map ServerTask.isOver = [false] ∧
      Machine.run (RpcSession.act · true) rpcStart
        (stoppedRun ++ [.server 0 (.stop false), .closeTasks, .closeFails]) = some w ∧
      ∀ k b, w.act true (.server k b) = none := by
  have hrunning : (Machine.run (RpcSession.act · true) rpcStart stoppedRun).map
      (fun s => s.tasks.map ServerTask.isOver) = some [false] := by decide +kernel
  obtain ⟨s, hbefore, hrunning⟩ := Option.map_eq_some_iff.mp hrunning
  have hclosing : (Machine.run (RpcSession.act · true) rpcStart
      (stoppedRun ++ [.server 0 (.stop false), .closeTasks, .closeFails])).map
        RpcSession.closing = some .aborted := by
    decide +kernel
  obtain ⟨w, hrun, hclosing⟩ := Option.map_eq_some_iff.mp hclosing
  have hquiet := close_quiet (by decide +kernel) hrun (.inr (.inr (.inr hclosing)))
  exact ⟨s, w, hbefore, hrunning, hrun, hquiet⟩

/-- The app server asks something while the session waits for its process. -/
def lateRun : List RpcAction :=
  [.close, .closeTasks, .read [("id", .str "q"), ("method", .str "ask")], .closeProcess,
    .readerCancelled, .closeReader]

/-- The handler is called once the session is closed. -/
theorem close_leaves_task : ∃ w w',
    Machine.run (RpcSession.act · true) rpcStart lateRun = some w ∧ w.closing = .done ∧
      w.act true (.server 0 .run) = some w' := by
  have hruns : ((Machine.run (RpcSession.act · true) rpcStart lateRun).bind fun w =>
      (w.act true (.server 0 .run)).map fun _ => w.closing) = some .done := by decide +kernel
  obtain ⟨w, hrun, hruns⟩ := Option.bind_eq_some_iff.mp hruns
  obtain ⟨w', hact, hclosing⟩ := Option.map_eq_some_iff.mp hruns
  exact ⟨w, w', hrun, hclosing, hact⟩

end CodexGateway.Worker
