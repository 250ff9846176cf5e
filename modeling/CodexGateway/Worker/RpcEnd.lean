import CodexGateway.Worker.RpcSession

/-!
# Worker/RpcEnd — what a session tells, and how it ends

`act_cases` says what a step does besides the request it is about.  From it: no id is sent twice
(`sent_nodup`), no request is left waiting once the session is closed or the app server has exited
(`close_settles`, `exited_settles`), and the notifications are queued in the order they are read,
with the notice of the end last (`notifications_eq`).
-/

namespace CodexGateway.Worker

open PyJson SandboxApi

/-! ## What a step does to the rest -/

/-- Nothing is sent for the request any more. -/
def RequestPhase.begun : RequestPhase → Bool
  | .unmade | .write => false
  | _ => true

/-- The app server is not heard of, and nothing is closed; one request may be sent. -/
structure Beside (s s' : RpcSession) : Prop where
  begun : ∀ n < s.calls.calls.length, (s.phase n).begun = true → (s'.phase n).begun = true
  sent : s'.sent = s.sent ∨ ∃ n, ∃ r : RpcRequest, n < s.calls.calls.length ∧
    (s.phase n).begun = false ∧ (s'.phase n).begun = true ∧ s'.sent = s.sent ++ [r.message n]
  heard : s'.calls.heard = s.calls.heard
  reader : s'.reader = s.reader
  closing : s'.closing = s.closing
  tasks : s'.tasks = s.tasks
  notifications : s'.notifications = s.notifications

/-- The reader ends, or goes on to the end. -/
structure ReaderEnds (s s' : RpcSession) : Prop where
  phase : s'.phase = s.phase
  sent : s'.sent = s.sent
  heard : s'.calls.heard = s.calls.heard
  reader : s.reader = .reading ∧ s'.reader ≠ .reading ∨ s.reader = .exiting ∧ s'.reader = .ended
  closing : s'.closing = s.closing
  tasks : s'.tasks = s.tasks
  notifications : ∃ notice : Option Json,
    s'.notifications = s.notifications ++ (notice.map closedNotice).toList

/-- `close` goes on. -/
structure Closes (s s' : RpcSession) : Prop where
  phase : s'.phase = s.phase
  sent : s'.sent = s.sent
  heard : s'.calls.heard = s.calls.heard
  reader : s'.reader = s.reader
  notifications : s'.notifications = s.notifications
  closing :
    s.closing = .unclosed ∧ s'.closing = .tasks s.tasks.length ∧
      s'.tasks = s.tasks.map (fun t => { t with cancelled := !t.isOver }) ∨
    (∃ count, s.closing = .tasks count ∧ s'.closing = .process ∧ s'.tasks = s.tasks ∧
      (s.tasks.take count).all ServerTask.isOver = true) ∨
    (s.closing = .process ∨ s.closing = .reader) ∧ s'.tasks = s.tasks ∧
      (s'.closing = .reader ∨ s'.closing = .aborted ∨
        s'.closing = .done ∧ ∃ failure, s'.calls = s.calls.failAll failure)

section Cases

variable {s s' : RpcSession} {a : RpcAction} {hasHandler : Bool} {n : ℕ}

theorem begun_update {phase : RequestPhase} (h : phase.begun = true ∨ n = s.calls.calls.length) :
    ∀ k < s.calls.calls.length, (s.phase k).begun = true →
      (Function.update s.phase n phase k).begun = true := by
  intro k hk hbegun
  by_cases hkn : k = n
  · obtain rfl := hkn
    rw [Function.update_self]
    exact h.resolve_right (Nat.ne_of_lt hk)
  · rwa [Function.update_of_ne hkn]

theorem beside_onWrite {done : Bool} {phase : RequestPhase} (hbegun : phase.begun = true)
    (h : s.onWrite n done phase = some s') : Beside s s' := by
  rw [RpcSession.onWrite] at h
  split at h
  · rename_i call hphase hcall
    obtain rfl := Option.some.inj h
    refine ⟨begun_update (.inl hbegun), ?_, rfl, rfl, rfl, rfl, rfl⟩
    cases done with
    | false => exact .inl (List.append_nil _)
    | true =>
      have hlt := (List.getElem?_eq_some_iff.mp hcall).1
      refine .inr ⟨n, call.tag, hlt, by rw [hphase]; rfl, ?_, rfl⟩
      exact (congrArg RequestPhase.begun (Function.update_self ..)).trans hbegun
  · cases h

/-- A request that waits goes on, and nothing is sent. -/
theorem beside_phase {phase : RequestPhase} {calls : Requests} (hbegun : phase.begun = true)
    (hheard : calls.heard = s.calls.heard) : Beside s { s.setPhase n phase with calls := calls } :=
  ⟨begun_update (.inl hbegun), .inl rfl, hheard, rfl, rfl, rfl, rfl⟩

theorem begun_outcome {call : Call RpcRequest Members FutureFailure} {phase : RequestPhase}
    (h : RpcSession.outcome call = some phase) : phase.begun = true := by
  rw [RpcSession.outcome] at h
  split at h
  · cases h
  · obtain rfl := Option.some.inj h
    rfl
  · obtain rfl := Option.some.inj h
    split
    · rfl
    · rfl

/-- A step is one of a request or of the reader, reads a message, or is one of a task or of
`close`. -/
theorem act_cases (h : s.act hasHandler a = some s') :
    Beside s s' ∨
    (∃ message, a = .read message ∧ s.reader = .reading ∧ s' = s.dispatch message) ∨
    ReaderEnds s s' ∨
    (∃ k b t t', a = .server k b ∧ s.tasks[k]? = some t ∧ t.act hasHandler s.closed b = some t' ∧
      s' = { s with tasks := s.tasks.set k t' }) ∨
    Closes s s' ∧ (s.closing = .unclosed → a = .close) := by
  cases a with
  | request r =>
    rw [RpcSession.act] at h
    split_ifs at h
    · obtain rfl := Option.some.inj h
      exact .inl ⟨fun _ _ h => h, .inl rfl, rfl, rfl, rfl, rfl, rfl⟩
    · obtain rfl := Option.some.inj h
      exact .inl ⟨begun_update (.inr rfl), .inl rfl, rfl, rfl, rfl, rfl, rfl⟩
  | written n => exact .inl (beside_onWrite rfl h)
  | writeFails n done failure => exact .inl (beside_onWrite rfl h)
  | settled n =>
    obtain ⟨call, hcall, h⟩ := onWait_eq h
    obtain ⟨phase, hphase, rfl⟩ := Option.map_eq_some_iff.mp h
    exact .inl (beside_phase (begun_outcome hphase) rfl)
  | timeout n =>
    obtain ⟨call, -, h⟩ := onWait_eq h
    obtain rfl := Option.some.inj h
    exact .inl (beside_phase rfl rfl)
  | cancel n =>
    obtain ⟨call, -, h⟩ := onWait_eq h
    obtain rfl := Option.some.inj h
    exact .inl (beside_phase rfl rfl)
  | read message =>
    rw [RpcSession.act] at h
    split at h
    · rename_i hreader
      obtain rfl := Option.some.inj h
      exact .inr (.inl ⟨message, rfl, hreader, rfl⟩)
    · cases h
  | readerEnds failure =>
    rw [RpcSession.act] at h
    split at h
    · rename_i hreader
      obtain rfl := Option.some.inj h
      refine .inr (.inr (.inl ⟨rfl, rfl, rfl, .inl ⟨hreader, ?_⟩, rfl, rfl, failure.map .str, ?_⟩))
      · dsimp only
        split_ifs
        · simp
        · simp
      · rw [Option.map_map]
        rfl
    · cases h
  | exited error =>
    rw [RpcSession.act] at h
    split at h
    · rename_i hreader
      obtain rfl := Option.some.inj h
      refine .inr (.inr (.inl ⟨rfl, rfl, rfl, .inr ⟨hreader, rfl⟩, rfl, rfl, ?_⟩))
      exact ⟨some error, rfl⟩
    · cases h
  | readerCancelled =>
    rw [RpcSession.act] at h
    split at h
    · rename_i hreader
      obtain rfl := Option.some.inj h
      refine .inr (.inr (.inl ⟨rfl, rfl, rfl, .inl ⟨hreader, by simp⟩, rfl, rfl, none, ?_⟩))
      exact (List.append_nil _).symm
    · rename_i hreader
      obtain rfl := Option.some.inj h
      refine .inr (.inr (.inl ⟨rfl, rfl, rfl, .inr ⟨hreader, rfl⟩, rfl, rfl, none, ?_⟩))
      exact (List.append_nil _).symm
    · cases h
  | server k b =>
    rw [RpcSession.act] at h
    split at h
    · cases h
    · rename_i t ht
      obtain ⟨t', hact, rfl⟩ := Option.map_eq_some_iff.mp h
      exact .inr (.inr (.inr (.inl ⟨k, b, t, t', rfl, ht, hact, rfl⟩)))
  | close =>
    rw [RpcSession.act] at h
    split_ifs at h with hclosed
    · obtain rfl := Option.some.inj h
      exact .inl ⟨fun _ _ h => h, .inl rfl, rfl, rfl, rfl, rfl, rfl⟩
    · obtain rfl := Option.some.inj h
      have hopen : s.closing = .unclosed := by simpa [RpcSession.closed] using hclosed
      exact .inr (.inr (.inr (.inr
        ⟨⟨rfl, rfl, rfl, rfl, rfl, .inl ⟨hopen, rfl, rfl⟩⟩, fun _ => rfl⟩)))
  | closeTasks =>
    rw [RpcSession.act] at h
    split at h
    · rename_i count hclosing
      split_ifs at h with hover
      obtain rfl := Option.some.inj h
      refine .inr (.inr (.inr (.inr ⟨⟨rfl, rfl, rfl, rfl, rfl, .inr (.inl ?_)⟩, fun hopen => ?_⟩)))
      · exact ⟨count, hclosing, rfl, rfl, hover⟩
      · rw [hclosing] at hopen
        cases hopen
    · cases h
  | closeProcess =>
    rw [RpcSession.act] at h
    split at h
    · rename_i hclosing
      obtain rfl := Option.some.inj h
      refine .inr (.inr (.inr (.inr ⟨⟨rfl, rfl, rfl, rfl, rfl, .inr (.inr ?_)⟩, fun hopen => ?_⟩)))
      · exact ⟨.inl hclosing, rfl, .inl rfl⟩
      · rw [hclosing] at hopen
        cases hopen
    · cases h
  | closeReader =>
    rw [RpcSession.act] at h
    split at h
    · rename_i hclosing _
      obtain rfl := Option.some.inj h
      refine .inr (.inr (.inr (.inr ⟨⟨rfl, rfl, rfl, rfl, rfl, .inr (.inr ?_)⟩, fun hopen => ?_⟩)))
      · exact ⟨.inr hclosing, rfl, .inr (.inr ⟨rfl, _, rfl⟩)⟩
      · rw [hclosing] at hopen
        cases hopen
    · cases h
  | closeFails =>
    rw [RpcSession.act] at h
    split at h
    · rename_i hclosing
      obtain rfl := Option.some.inj h
      refine .inr (.inr (.inr (.inr ⟨⟨rfl, rfl, rfl, rfl, rfl, .inr (.inr ?_)⟩, fun hopen => ?_⟩)))
      · exact ⟨.inl hclosing, rfl, .inr (.inl rfl)⟩
      · rw [hclosing] at hopen
        cases hopen
    · cases h

end Cases

/-! ## Every request has an id of its own -/

/-- The requests that have been sent, by their places. -/
def RpcSession.Sent (s : RpcSession) : Prop :=
  ∃ places : List ℕ, places.Nodup ∧
    s.sent.map (Members.get · "id") = places.map (fun n : ℕ => Json.int (n + 1)) ∧
    ∀ n ∈ places, n < s.calls.calls.length ∧ (s.phase n).begun = true

section Sent

variable {s s' w : RpcSession} {a : RpcAction} {hasHandler : Bool}

theorem sent_of_eq (hs : s.Sent) (hgrows : Calls.Grows s.calls s'.calls)
    (hphase : s'.phase = s.phase) (hsent : s'.sent = s.sent) : s'.Sent := by
  obtain ⟨places, hnodup, hids, hplaces⟩ := hs
  refine ⟨places, hnodup, by rw [hsent, hids], fun n hn => ?_⟩
  rw [hphase]
  exact ⟨Nat.lt_of_lt_of_le (hplaces n hn).1 hgrows.length_le, (hplaces n hn).2⟩

theorem sent_step (hs : s.Sent) (h : s.act hasHandler a = some s') : s'.Sent := by
  have hgrows := (requestStep h).grows
  rcases act_cases h with hbeside | ⟨message, -, -, rfl⟩ | hends |
    ⟨k, b, t, t', -, -, -, rfl⟩ | ⟨hcloses, -⟩
  · obtain ⟨places, hnodup, hids, hplaces⟩ := hs
    have hkept : ∀ n ∈ places, n < s'.calls.calls.length ∧ (s'.phase n).begun = true := fun n hn =>
      ⟨Nat.lt_of_lt_of_le (hplaces n hn).1 hgrows.length_le,
        hbeside.begun n (hplaces n hn).1 (hplaces n hn).2⟩
    rcases hbeside.sent with hsent | ⟨n, r, hn, hunbegun, hbegun, hsent⟩
    · exact ⟨places, hnodup, by rw [hsent, hids], hkept⟩
    · have hfresh : n ∉ places := fun hmem => by
        rw [(hplaces n hmem).2] at hunbegun
        cases hunbegun
      refine ⟨places ++ [n], ?_, ?_, fun k hk => ?_⟩
      · exact List.nodup_append.mpr ⟨hnodup, List.nodup_singleton n, fun k hk m hm => by
          obtain rfl := List.mem_singleton.mp hm
          exact ne_of_mem_of_not_mem hk hfresh⟩
      · rw [hsent, List.map_append, hids, List.map_append]
        rfl
      · rcases List.mem_append.mp hk with hold | hnew
        · exact hkept k hold
        · obtain rfl := List.mem_singleton.mp hnew
          exact ⟨Nat.lt_of_lt_of_le hn hgrows.length_le, hbegun⟩
  · exact sent_of_eq hs hgrows rfl rfl
  · exact sent_of_eq hs hgrows hends.phase hends.sent
  · exact sent_of_eq hs hgrows rfl rfl
  · exact sent_of_eq hs hgrows hcloses.phase hcloses.sent

/-- **No id is sent twice.** -/
theorem sent_nodup {as : List RpcAction}
    (hrun : Machine.run (RpcSession.act · hasHandler) rpcStart as = some w) :
    (w.sent.map (Members.get · "id")).Nodup := by
  have hstart : rpcStart.Sent := ⟨[], List.nodup_nil, rfl, fun n hn => absurd hn List.not_mem_nil⟩
  obtain ⟨places, hnodup, hids, -⟩ := Machine.run_keeps (fun _ _ _ => sent_step) hrun hstart
  rw [hids]
  refine hnodup.map fun n m hnm => ?_
  have hint : (n : ℤ) + 1 = m + 1 := Json.int.inj hnm
  omega

end Sent

/-! ## No request is left waiting -/

section Settled

variable {s s' w : RpcSession} {a : RpcAction} {hasHandler : Bool} {n : ℕ} {calls calls' : Requests}

/-- Where all calls are settled and none is made, they stay so. -/
theorem AllSettled.grows (h : AllSettled calls) (hgrows : Calls.Grows calls calls')
    (hlength : calls'.calls.length = calls.calls.length) : AllSettled calls' := by
  intro n call hcall
  have hlt := (List.getElem?_eq_some_iff.mp hcall).1
  rw [hlength] at hlt
  obtain ⟨before, hbefore⟩ : ∃ before, calls.calls[n]? = some before :=
    ⟨_, List.getElem?_eq_getElem hlt⟩
  obtain ⟨after, hafter, -, hsame⟩ := hgrows.calls n before hbefore
  have hdone := h n before hbefore
  obtain rfl := hsame hdone
  exact Option.some.inj (hcall.symm.trans hafter) ▸ hdone

/-- A request that waits for a future that is settled goes on. -/
theorem settled_enabled (hs : s.Sound) (hwait : s.phase n = .wait)
    (hsettled : ∀ call, s.calls.calls[n]? = some call → call.future ≠ .pending) :
    ∃ w, s.act hasHandler (.settled n) = some w := by
  have hjustified := hs.phase n
  rw [hwait] at hjustified
  obtain ⟨call, hcall⟩ := hjustified
  have hdone := hsettled call hcall
  have houtcome : ∃ phase, RpcSession.outcome call = some phase := by
    rw [RpcSession.outcome]
    cases hfuture : call.future with
    | pending => exact absurd hfuture hdone
    | failed failure => exact ⟨_, rfl⟩
    | answered message => exact ⟨_, rfl⟩
  obtain ⟨phase, hphase⟩ := houtcome
  refine ⟨s.setPhase n phase, ?_⟩
  rw [RpcSession.act, RpcSession.onWait, hwait]
  simp only [hcall, Option.bind_some, hphase, Option.map_some]

/-- Once `close` is over, every future is settled. -/
def RpcSession.Closed (s : RpcSession) : Prop := s.closing = .done → AllSettled s.calls

theorem closed_step (hs : s.Sound) (hclosed : s.Closed) (h : s.act hasHandler a = some s') :
    s'.Closed := by
  have hstep := requestStep h
  -- What is closed already stays settled, as no request is made any more.
  have hkept (hsame : s'.closing = s.closing) : s'.Closed := fun hdone => by
    rw [hsame] at hdone
    have hmade := hstep.made (by rw [RpcSession.closed, hdone]; rfl)
    exact (hclosed hdone).grows hstep.grows hmade
  rcases act_cases h with hbeside | ⟨message, -, -, rfl⟩ | hends | ⟨k, b, t, t', -, -, -, rfl⟩ |
    ⟨hcloses, -⟩
  · exact hkept hbeside.closing
  · exact hkept rfl
  · exact hkept hends.closing
  · exact hkept rfl
  · intro hdone
    rcases hcloses.closing with ⟨-, htasks, -⟩ | ⟨count, -, hprocess, -⟩ |
      ⟨-, -, hreader | haborted | ⟨-, failure, hcalls⟩⟩
    · rw [htasks] at hdone
      cases hdone
    · rw [hprocess] at hdone
      cases hdone
    · rw [hreader] at hdone
      cases hdone
    · rw [haborted] at hdone
      cases hdone
    · rw [hcalls]
      exact fun n call hcall => hs.held.settled_failAll hcall

/-- **Once the call of `close` that closes the session has returned, every request that waits goes
on.**  A call that finds the session closed returns at once. -/
theorem close_settles {as : List RpcAction}
    (hrun : Machine.run (RpcSession.act · hasHandler) rpcStart as = some w)
    (hdone : w.closing = .done) (hwait : w.phase n = .wait) :
    ∃ w', w.act hasHandler (.settled n) = some w' := by
  have hstart : rpcStart.Sound ∧ rpcStart.Closed := ⟨sound_start, fun h => by cases h⟩
  have hstep : ∀ s a s', RpcSession.Sound s ∧ s.Closed → s.act hasHandler a = some s' →
      s'.Sound ∧ s'.Closed := fun s a s' hs h =>
    ⟨hs.1.step (requestStep h), closed_step hs.1 hs.2 h⟩
  obtain ⟨hsound, hclosed⟩ := Machine.run_keeps hstep hrun hstart
  exact settled_enabled hsound hwait fun call hcall => hclosed hdone n call hcall

/-- Calls stay through a run, and what is settled is so for good. -/
theorem grows_run {as : List RpcAction}
    (hrun : Machine.run (RpcSession.act · hasHandler) s as = some w) :
    Calls.Grows s.calls w.calls := by
  have hstep : ∀ s a s', True → True → RpcSession.act s hasHandler a = some s' →
      True ∧ Calls.Grows s.calls s'.calls := fun s a s' _ _ h => ⟨trivial, (requestStep h).grows⟩
  have hmeets : Machine.Meets (RpcSession.act · hasHandler) (fun _ _ => True) s as :=
    Machine.meets_of_forall s fun _ _ => trivial
  exact Machine.run_rel (R := fun s s' : RpcSession => Calls.Grows s.calls s'.calls)
    (fun s => Calls.grows_refl s.calls) (fun _ _ _ => Calls.Grows.trans) hstep hmeets hrun trivial

/-- **Once the app server has exited, every request that was made before goes on.** -/
theorem exited_settles {m : RpcSession} {as bs : List RpcAction} {error : Json}
    (hrun : Machine.run (RpcSession.act · hasHandler) rpcStart as = some s)
    (hexited : s.act hasHandler (.exited error) = some m)
    (hrest : Machine.run (RpcSession.act · hasHandler) m bs = some w)
    (hn : n < s.calls.calls.length) (hwait : w.phase n = .wait) :
    ∃ w', w.act hasHandler (.settled n) = some w' := by
  have hsound := sound_run hrun sound_start
  have hsound' := hsound.step (requestStep hexited)
  refine settled_enabled (sound_run hrest hsound') hwait fun call hcall => ?_
  have hcalls : m.calls = s.calls.failAll .exited := by
    rw [RpcSession.act] at hexited
    split at hexited
    · obtain rfl := Option.some.inj hexited
      rfl
    · cases hexited
  have hlength : m.calls.calls.length = s.calls.calls.length := by
    rw [hcalls, Calls.length_failAll]
  obtain ⟨before, hbefore⟩ : ∃ before, m.calls.calls[n]? = some before :=
    ⟨_, List.getElem?_eq_getElem (hlength ▸ hn)⟩
  have hdone : before.future ≠ .pending := by
    rw [hcalls] at hbefore
    exact hsound.held.settled_failAll hbefore
  obtain ⟨after, hafter, -, hsame⟩ := (grows_run hrest).calls n before hbefore
  obtain rfl := hsame hdone
  exact Option.some.inj (hcall.symm.trans hafter) ▸ hdone

end Settled

/-! ## The queue -/

/-- How often the end may have been told. -/
def ReaderPhase.notices : ReaderPhase → ℕ
  | .reading => 0
  | .exiting => 1
  | .ended => 2

/-- The notifications that were read, and after them the notices of the end. -/
def RpcSession.Queued (s : RpcSession) : Prop :=
  ∃ notices : List Json, notices.length ≤ s.reader.notices ∧
    s.notifications =
      s.calls.heard.filter RpcSession.isNotification ++ notices.map closedNotice

/-- What `_pump_notifications` publishes of a queue, until `next_notification` raises. -/
def pumped (queue : List Members) : List Members :=
  queue.takeWhile fun message => text? (message.get "method") ≠ some "$session/closed"

section Queue

variable {s s' w : RpcSession} {a : RpcAction} {hasHandler : Bool}

theorem queued_step (hs : s.Queued) (h : s.act hasHandler a = some s') : s'.Queued := by
  obtain ⟨notices, hlength, hqueue⟩ := hs
  rcases act_cases h with hbeside | ⟨message, -, hreader, rfl⟩ | hends |
    ⟨k, b, t, t', -, -, -, rfl⟩ | ⟨hcloses, -⟩
  · refine ⟨notices, ?_, ?_⟩
    · rwa [hbeside.reader]
    · rw [hbeside.notifications, hbeside.heard, hqueue]
  · -- What is read now comes before every notice, of which there is none yet.
    rw [hreader] at hlength
    obtain rfl := List.eq_nil_of_length_eq_zero (Nat.le_zero.mp hlength)
    refine ⟨[], Nat.zero_le _, ?_⟩
    rw [RpcSession.dispatch, hqueue, Calls.heard_hear, List.filter_append]
    simp [List.filter_cons]
  · obtain ⟨notice, hnotice⟩ := hends.notifications
    refine ⟨notices ++ notice.toList, ?_, ?_⟩
    · have hone : notice.toList.length ≤ 1 := by
        cases notice with
        | none => exact Nat.zero_le _
        | some error => exact Nat.le_refl _
      rw [List.length_append]
      rcases hends.reader with ⟨hreading, hover⟩ | ⟨hexiting, hover⟩
      · rw [hreading] at hlength
        simp only [ReaderPhase.notices] at hlength
        cases hreader : s'.reader with
        | reading => exact absurd hreader hover
        | exiting =>
          simp only [ReaderPhase.notices]
          omega
        | ended =>
          simp only [ReaderPhase.notices]
          omega
      · rw [hexiting] at hlength
        rw [hover]
        simp only [ReaderPhase.notices] at hlength ⊢
        omega
    · rw [hnotice, hends.heard, hqueue, List.append_assoc, List.map_append]
      cases notice with
      | none => rfl
      | some error => rfl
  · exact ⟨notices, hlength, hqueue⟩
  · refine ⟨notices, ?_, ?_⟩
    · rwa [hcloses.reader]
    · rw [hcloses.notifications, hcloses.heard, hqueue]

theorem pumped_append {queue notices : List Members}
    (hqueue : ∀ message ∈ queue, text? (Members.get message "method") ≠ some "$session/closed")
    (hnotices : ∀ notice ∈ notices, text? (Members.get notice "method") = some "$session/closed") :
    pumped (queue ++ notices) = queue := by
  have hnone : pumped notices = [] := by
    cases notices with
    | nil => rfl
    | cons notice notices =>
      have hnotice := hnotices notice List.mem_cons_self
      rw [pumped, List.takeWhile_cons, if_neg (by simp [hnotice])]
  rw [pumped, List.takeWhile_append_of_pos fun message hmem => by simpa using hqueue message hmem]
  rw [pumped] at hnone
  rw [hnone, List.append_nil]

/-- **The notifications are queued in the order they are read, and nothing after the notice of the
end**: what the Worker publishes of them is all that was read. -/
theorem notifications_eq {as : List RpcAction}
    (hrun : Machine.run (RpcSession.act · hasHandler) rpcStart as = some w)
    (hserver : ∀ message ∈ w.calls.heard,
      text? (Members.get message "method") ≠ some "$session/closed") :
    pumped w.notifications = w.calls.heard.filter RpcSession.isNotification ∧
      (w.reader = .reading → w.notifications = pumped w.notifications) := by
  have hstart : rpcStart.Queued := ⟨[], Nat.le_refl _, rfl⟩
  obtain ⟨notices, hlength, hqueue⟩ := Machine.run_keeps (fun _ _ _ => queued_step) hrun hstart
  have hpumped : pumped w.notifications = w.calls.heard.filter RpcSession.isNotification := by
    rw [hqueue]
    refine pumped_append (fun message hmem => hserver message (List.mem_filter.mp hmem).1) ?_
    intro notice hmem
    obtain ⟨error, -, rfl⟩ := List.mem_map.mp hmem
    rfl
  refine ⟨hpumped, fun hreading => ?_⟩
  rw [hreading] at hlength
  obtain rfl := List.eq_nil_of_length_eq_zero (Nat.le_zero.mp hlength)
  rw [hpumped, hqueue, List.map_nil, List.append_nil]

end Queue

/-! ## How sessions end -/

theorem sent_nodup_answered : ∃ w,
    Machine.run (RpcSession.act · true) rpcStart answeredRun = some w ∧
      (w.sent.map (Members.get · "id")).Nodup := by
  obtain ⟨w, hrun, -⟩ := run_answered
  exact ⟨w, hrun, sent_nodup hrun⟩

theorem notifications_eq_answered : ∃ w,
    Machine.run (RpcSession.act · true) rpcStart answeredRun = some w ∧
      pumped w.notifications = w.calls.heard.filter RpcSession.isNotification := by
  have hmethods : (Machine.run (RpcSession.act · true) rpcStart answeredRun).map
      (fun w => w.calls.heard.all fun message =>
        decide (SandboxApi.text? (Members.get message "method") ≠ some "$session/closed")) =
      some true := by decide +kernel
  obtain ⟨w, hrun, hmethods⟩ := Option.map_eq_some_iff.mp hmethods
  exact ⟨w, hrun, (notifications_eq hrun fun message hmem =>
    of_decide_eq_true (List.all_eq_true.mp hmethods message hmem)).1⟩

/-- The app server exits while a request waits, and the session is closed while another does. -/
def endingRun : List RpcAction := [.request ⟨"turn/start", []⟩, .written 0, .readerEnds none]

/-- A session that is closed with a request under way. -/
def closingRun : List RpcAction :=
  [.request ⟨"turn/start", []⟩, .written 0, .close, .closeTasks, .closeProcess, .readerCancelled,
    .closeReader]

/-- A request that waits. -/
def RequestPhase.waits : RequestPhase → Bool
  | .wait => true
  | _ => false

theorem eq_wait {phase : RequestPhase} (h : phase.waits = true) : phase = .wait := by
  cases phase with
  | wait => rfl
  | _ => cases h

theorem close_settles_waiting : ∃ w w',
    Machine.run (RpcSession.act · true) rpcStart closingRun = some w ∧
      w.phase 0 = .wait ∧ w.act true (.settled 0) = some w' := by
  have hwaits : (Machine.run (RpcSession.act · true) rpcStart closingRun).map
      (fun w => ((w.phase 0).waits, w.closing)) = some (true, .done) := by decide +kernel
  obtain ⟨w, hrun, hwaits⟩ := Option.map_eq_some_iff.mp hwaits
  obtain ⟨hwait, hdone⟩ := Prod.mk.inj hwaits
  obtain ⟨w', hact⟩ := close_settles hrun hdone (eq_wait hwait)
  exact ⟨w, w', hrun, eq_wait hwait, hact⟩

theorem exited_settles_waiting : ∃ s m w,
    Machine.run (RpcSession.act · true) rpcStart endingRun = some s ∧
      s.act true (.exited .null) = some m ∧ m.phase 0 = .wait ∧
      m.act true (.settled 0) = some w := by
  have hwaits : ((Machine.run (RpcSession.act · true) rpcStart endingRun).bind fun s =>
      (s.act true (.exited .null)).map fun m => (s.calls.calls.length, (m.phase 0).waits)) =
      some (1, true) := by decide +kernel
  obtain ⟨s, hrun, hwaits⟩ := Option.bind_eq_some_iff.mp hwaits
  obtain ⟨m, hexited, hwaits⟩ := Option.map_eq_some_iff.mp hwaits
  obtain ⟨hlength, hwait⟩ := Prod.mk.inj hwaits
  have hn : 0 < s.calls.calls.length := hlength ▸ Nat.one_pos
  have hrest : Machine.run (RpcSession.act · true) m [] = some m := rfl
  obtain ⟨w, hact⟩ := exited_settles hrun hexited hrest hn (eq_wait hwait)
  exact ⟨s, m, w, hrun, hexited, eq_wait hwait, hact⟩

end CodexGateway.Worker
