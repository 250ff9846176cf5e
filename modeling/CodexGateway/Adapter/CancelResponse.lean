import CodexGateway.Adapter.Record
import CodexGateway.Library.Pool

/-!
# Adapter/CancelResponse — a Response is cancelled once, however often it is asked for

`cancel` asks the app server to interrupt the turn, three times where that fails, and then has the
sandbox terminated.  The first call that finds the Response active marks it, before it awaits
anything more, and every later one leaves it at that.

**The mark is acted upon** (`cancel_delivered`): at most three interrupts and one termination are
sent for all calls together, and a Response that is marked is being interrupted, has been, or is
over, unless the call that marked it is itself cancelled: then no other call takes its place
(`not_cancel_delivered`).
-/

namespace CodexGateway.Adapter

/-- One Response in the store; `interrupts` has each interrupt that was sent, with what came of it:
nothing yet, an answer or a failure; and `terminations` counts the requests to terminate the sandbox
that were sent. -/
structure Cancellable where
  stored : Bool
  active : Bool
  status : ResponseStatus
  cancelRequested : Bool
  interrupts : List (Option Bool)
  terminations : ℕ
  deriving DecidableEq

/-- What a call of `cancel` awaits: the record, the interactions, the execution, the interrupt, the
pause after one that fails, and the request to terminate. -/
inductive CancelPhase where
  | record
  | interactions
  | execution
  | interrupt (attempt : ℕ)
  | pause (attempt : ℕ)
  | terminate
  | returned
  | raised
  deriving DecidableEq

/-- What is awaited returns, or raises; or the call is cancelled. -/
inductive CancelAction where
  | proceed
  | fail
  | cancelled
  deriving DecidableEq

/-- The turn ends, its execution is taken out of the store, and the Response may then be deleted. -/
inductive CancelEvent where
  | call
  | finish (status : ResponseStatus)
  | unregister
  | delete
  deriving DecidableEq

/-- An interrupt is sent. -/
def Cancellable.interrupt (s : Cancellable) : Cancellable :=
  { s with interrupts := s.interrupts ++ [none] }

/-- The last interrupt is answered, or fails. -/
def Cancellable.settle (s : Cancellable) (answered : Bool) : Cancellable :=
  { s with interrupts := s.interrupts.dropLast ++ [some answered] }

/-- The request to terminate is sent. -/
def Cancellable.terminate (s : Cancellable) : Cancellable :=
  { s with terminations := s.terminations + 1 }

namespace CancelPhase

variable (s : Cancellable)

/-- After an interrupt that failed. -/
def retry (attempt : ℕ) : Cancellable × CancelPhase :=
  if s.status ≠ .inProgress then (s, .returned)
  else if attempt < 2 then (s, .pause attempt)
  else (s.terminate, .terminate)

/-- `cancel`, from one awaited call to the next; what is awaited has been sent, also where the call
is cancelled then. -/
def act : CancelPhase → CancelAction → Option (Cancellable × CancelPhase)
  | .returned, _ | .raised, _ => none
  | _, .cancelled => some (s, .raised)
  | .record, .proceed => some (s, if s.stored then .interactions else .raised)
  | .interactions, .proceed => some (s, .execution)
  | .execution, .proceed =>
    if s.active = false ∨ s.cancelRequested = true then some (s, .returned)
    else some (Cancellable.interrupt { s with cancelRequested := true }, .interrupt 0)
  | .interrupt _, .proceed => some (s.settle true, .returned)
  | .interrupt attempt, .fail => some (retry (s.settle false) attempt)
  | .pause attempt, .proceed => some (s.interrupt, .interrupt (attempt + 1))
  -- `suppress(Exception)`
  | .terminate, .proceed | .terminate, .fail => some (s, .returned)
  | .record, .fail | .interactions, .fail | .execution, .fail | .pause _, .fail => none

/-- The call that has marked the Response, and is at work on it. -/
def Working : CancelPhase → Prop
  | .interrupt _ | .pause _ | .terminate => True
  | .record | .interactions | .execution | .returned | .raised => False

instance : DecidablePred Working
  | .interrupt _ | .pause _ | .terminate => .isTrue trivial
  | .record | .interactions | .execution | .returned | .raised => .isFalse not_false

end CancelPhase

/-- The calls of `cancel` for one Response, beside its driver. -/
def cancelResponse : Pool.Program Cancellable CancelPhase CancelAction CancelEvent where
  act := CancelPhase.act
  env s
    | .call => some (s, [.record])
    | .finish status =>
      if s.status = .inProgress then some ({ s with status := status }, []) else none
    | .unregister => some ({ s with active := false }, [])
    | .delete => if s.active then none else some ({ s with stored := false }, [])

/-- A Response that is in progress. -/
def running : Pool Cancellable CancelPhase := ⟨⟨true, true, .inProgress, false, [], 0⟩, []⟩

/-! ## What is meant -/

/-- The turn has been interrupted or is over, or its sandbox has been told to terminate. -/
def Delivered (s : Cancellable) : Prop :=
  some true ∈ s.interrupts ∨ s.status ≠ .inProgress ∨ s.terminations = 1

/-- What has been sent for all calls together. -/
structure Sent (s : Cancellable) : Prop where
  interrupts : s.interrupts.length ≤ 3
  terminations : s.terminations ≤ 1
  last : s.terminations = 1 → s.interrupts = [some false, some false, some false]

/-- What the call at work has sent, the last of it being awaited. -/
def CancelPhase.Fits (s : Cancellable) : CancelPhase → Prop
  | .interrupt attempt => s.cancelRequested = true ∧ attempt ≤ 2 ∧
      s.interrupts = List.replicate attempt (some false) ++ [none] ∧ s.terminations = 0
  | .pause attempt => s.cancelRequested = true ∧ attempt < 2 ∧
      s.interrupts = List.replicate (attempt + 1) (some false) ∧ s.terminations = 0
  | .terminate => s.cancelRequested = true ∧ s.interrupts = List.replicate 3 (some false) ∧
      s.terminations = 1
  | .record | .interactions | .execution | .returned | .raised => True

/-- The call at work is not cancelled. -/
def NotCancelled (_ : Cancellable) (p : CancelPhase) (a : CancelAction) : Prop :=
  p.Working → a ≠ .cancelled

instance (s : Cancellable) (p : CancelPhase) (a : CancelAction) : Decidable (NotCancelled s p a) :=
  inferInstanceAs (Decidable (p.Working → a ≠ .cancelled))

/-! ## A step of a call -/

section Steps

variable {s s' : Cancellable} {p p' : CancelPhase} {a : CancelAction}

theorem CancelPhase.fits_of_not_working (h : ¬ p.Working) : p.Fits s := by
  cases p with
  | interrupt attempt | pause attempt => exact absurd trivial h
  | terminate => exact absurd trivial h
  | _ => trivial

theorem CancelPhase.Fits.requested (h : p.Fits s) (hp : p.Working) : s.cancelRequested = true := by
  cases p with
  | interrupt attempt | pause attempt => exact h.1
  | terminate => exact h.1
  | _ => exact hp.elim

/-- A call that is not at work changes nothing, but for the mark that sets it to work, with the first
interrupt. -/
theorem act_of_not_working (hp : ¬ p.Working) (hact : p.act s a = some (s', p')) :
    s' = s ∧ ¬ p'.Working ∨
      p' = .interrupt 0 ∧ s.cancelRequested = false ∧
        s' = Cancellable.interrupt { s with cancelRequested := true } := by
  cases p with
  | interrupt attempt | pause attempt => exact absurd trivial hp
  | terminate => exact absurd trivial hp
  | returned | raised => cases a <;> cases hact
  | interactions =>
    cases a <;> cases hact
    all_goals exact .inl ⟨rfl, not_false⟩
  | record =>
    cases a with
    | proceed =>
      cases hact
      refine .inl ⟨rfl, ?_⟩
      split <;> exact not_false
    | fail => cases hact
    | cancelled =>
      cases hact
      exact .inl ⟨rfl, not_false⟩
  | execution =>
    cases a with
    | proceed =>
      simp only [CancelPhase.act] at hact
      split_ifs at hact with hgate
      · cases hact
        exact .inl ⟨rfl, not_false⟩
      · cases hact
        have hmark := (not_or.mp hgate).2
        exact .inr ⟨rfl, by simpa using hmark, rfl⟩
    | fail => cases hact
    | cancelled =>
      cases hact
      exact .inl ⟨rfl, not_false⟩

/-- What an interrupt that is awaited leaves when it is settled. -/
theorem settle_interrupts {attempt : ℕ} (h : s.interrupts =
    List.replicate attempt (some false) ++ [none]) (answered : Bool) :
    (s.settle answered).interrupts = List.replicate attempt (some false) ++ [some answered] := by
  rw [Cancellable.settle]
  simp only [h, List.dropLast_concat]

/-- What the call at work sends, and that it does not leave off before it is done. -/
theorem act_of_working (hp : p.Working) (hfits : p.Fits s) (hsent : Sent s)
    (hact : p.act s a = some (s', p')) :
    (s'.cancelRequested = s.cancelRequested ∧ p'.Fits s' ∧ Sent s') ∧
      (a ≠ .cancelled → p'.Working ∨ Delivered s') := by
  cases a with
  | cancelled =>
    have hstep : s' = s ∧ p' = .raised := by
      cases p <;> first | exact hp.elim | (cases hact; exact ⟨rfl, rfl⟩)
    obtain ⟨rfl, rfl⟩ := hstep
    exact ⟨⟨rfl, trivial, hsent⟩, fun h => absurd rfl h⟩
  | proceed =>
    cases p with
    | interrupt attempt =>
      obtain ⟨-, hattempt, hinterrupts, hterminations⟩ := hfits
      have hsettled := settle_interrupts hinterrupts true
      cases hact
      have hzero : (s.settle true).terminations = 0 := hterminations
      refine ⟨⟨rfl, trivial, ⟨?_, by omega, fun hone => by omega⟩⟩,
        fun _ => .inr (.inl (by simp [hsettled]))⟩
      rw [hsettled, List.length_append, List.length_replicate, List.length_singleton]
      omega
    | pause attempt =>
      obtain ⟨hmark, hattempt, hinterrupts, hterminations⟩ := hfits
      cases hact
      have hsending : s.interrupt.interrupts =
          List.replicate (attempt + 1) (some false) ++ [none] :=
        congrArg (· ++ [none]) hinterrupts
      have hzero : s.interrupt.terminations = 0 := hterminations
      refine ⟨⟨rfl, ⟨hmark, by omega, hsending, hzero⟩, ⟨?_, by omega, fun hone => by omega⟩⟩,
        fun _ => .inl trivial⟩
      rw [hsending, List.length_append, List.length_replicate, List.length_singleton]
      omega
    | terminate =>
      cases hact
      exact ⟨⟨rfl, trivial, hsent⟩, fun _ => .inr (.inr (.inr hfits.2.2))⟩
    | _ => exact hp.elim
  | fail =>
    cases p with
    | interrupt attempt =>
      obtain ⟨hmark, hattempt, hinterrupts, hterminations⟩ := hfits
      have hfailed : (s.settle false).interrupts = List.replicate (attempt + 1) (some false) := by
        rw [settle_interrupts hinterrupts, List.replicate_succ']
      have hzero : (s.settle false).terminations = 0 := hterminations
      have hsent' : Sent (s.settle false) := by
        refine ⟨?_, by omega, fun hone => by omega⟩
        rw [hfailed, List.length_replicate]
        omega
      replace hact := Option.some.inj hact
      unfold CancelPhase.retry at hact
      split_ifs at hact with hstatus hmore
      · cases hact
        exact ⟨⟨rfl, trivial, hsent'⟩, fun _ => .inr (.inr (.inl hstatus))⟩
      · cases hact
        exact ⟨⟨rfl, ⟨hmark, hmore, hfailed, hzero⟩, hsent'⟩, fun _ => .inl trivial⟩
      · obtain rfl : attempt = 2 := by omega
        cases hact
        have hone : (s.settle false).terminate.terminations = 1 :=
          congrArg (· + 1) hzero
        exact ⟨⟨rfl, ⟨hmark, hfailed, hone⟩, ⟨hsent'.interrupts, hone.le, fun _ => hfailed⟩⟩,
          fun _ => .inl trivial⟩
    | terminate =>
      cases hact
      exact ⟨⟨rfl, trivial, hsent⟩, fun _ => .inr (.inr (.inr hfits.2.2))⟩
    | pause attempt => cases hact
    | _ => exact hp.elim

end Steps

/-! ## All calls -/

/-- A call at work, as a key that at most one call holds. -/
def CancelPhase.key (p : CancelPhase) : Option Unit := if p.Working then some () else none

theorem CancelPhase.key_eq_some {p : CancelPhase} {k : Unit} : p.key = some k ↔ p.Working := by
  unfold CancelPhase.key
  split <;> simp [*]

/-- What holds of the Response and all calls; nothing is sent before the mark. -/
structure CancelsOnce (w : Pool Cancellable CancelPhase) : Prop where
  alone : Pool.Apart CancelPhase.key w.tasks
  fits : ∀ p ∈ w.tasks, p.Fits w.shared
  sent : Sent w.shared
  unmarked : w.shared.cancelRequested = false →
    w.shared.interrupts = [] ∧ w.shared.terminations = 0

/-- A mark is acted upon. -/
def ActedUpon (w : Pool Cancellable CancelPhase) : Prop :=
  w.shared.cancelRequested = true → (∃ p ∈ w.tasks, p.Working) ∨ Delivered w.shared

section Calls

variable {w w' : Pool Cancellable CancelPhase} {s' : Cancellable} {p p' u : CancelPhase} {i j : ℕ}

/-- While one call is at work, no other is. -/
theorem CancelsOnce.others (h : CancelsOnce w) (hi : w.tasks[i]? = some p) (hp : p.Working)
    (hj : w.tasks[j]? = some u) (hij : i ≠ j) : ¬ u.Working := fun hu =>
  hij (h.alone i j p u () hi hj (CancelPhase.key_eq_some.mpr hp) (CancelPhase.key_eq_some.mpr hu))

theorem CancelsOnce.idle (h : CancelsOnce w) (hmark : w.shared.cancelRequested = false)
    (hu : u ∈ w.tasks) : ¬ u.Working := fun hworking => by
  rw [(h.fits u hu).requested hworking] at hmark
  cases hmark

theorem fits_set (hj : ∀ j u, w.tasks[j]? = some u → i ≠ j → u.Fits s') (hp' : p'.Fits s') :
    ∀ u ∈ w.tasks.set i p', u.Fits s' := by
  intro u hu
  obtain ⟨j, hju⟩ := List.mem_iff_getElem?.mp hu
  rw [List.getElem?_set] at hju
  split_ifs at hju with hij
  · obtain rfl := Option.some.inj hju
    exact hp'
  · exact hj j u hju hij

theorem CancelsOnce.task (h : CancelsOnce w) {a : CancelAction} (hi : w.tasks[i]? = some p)
    (hact : p.act w.shared a = some (s', p')) :
    CancelsOnce ⟨s', w.tasks.set i p'⟩ ∧
      (NotCancelled w.shared p a → ActedUpon w → ActedUpon ⟨s', w.tasks.set i p'⟩) := by
  have hlt : i < w.tasks.length := (List.getElem?_eq_some_iff.mp hi).1
  have hmem : p ∈ w.tasks := List.mem_of_getElem? hi
  have hp' : p' ∈ w.tasks.set i p' := List.mem_set hlt p'
  by_cases hp : p.Working
  · have hfits := h.fits p hmem
    obtain ⟨⟨hmark, hfits', hsent'⟩, hdone⟩ := act_of_working hp hfits h.sent hact
    refine ⟨⟨h.alone.set hi fun k _ => .inl (CancelPhase.key_eq_some.mpr hp), ?_, hsent', ?_⟩, ?_⟩
    · exact fits_set (fun j u hj hij =>
        CancelPhase.fits_of_not_working (h.others hi hp hj hij)) hfits'
    · intro hunmarked
      rw [hmark, hfits.requested hp] at hunmarked
      cases hunmarked
    · intro hnot _ _
      exact (hdone (hnot hp)).imp_left fun hworking => ⟨p', hp', hworking⟩
  · rcases act_of_not_working hp hact with ⟨rfl, hidle⟩ | ⟨rfl, hmark, rfl⟩
    · refine ⟨⟨h.alone.set hi fun k hk => absurd (CancelPhase.key_eq_some.mp hk) hidle, ?_, h.sent,
        h.unmarked⟩, fun _ hacted hmark => (hacted hmark).imp_left fun ⟨u, hu, hworking⟩ => ?_⟩
      · exact fits_set (fun j u hj _ => h.fits u (List.mem_of_getElem? hj))
          (CancelPhase.fits_of_not_working hidle)
      · obtain ⟨j, hj⟩ := List.mem_iff_getElem?.mp hu
        have hij : i ≠ j := fun hij => by
          subst hij
          obtain rfl := Option.some.inj (hi.symm.trans hj)
          exact hp hworking
        exact ⟨u, List.mem_iff_getElem?.mpr ⟨j, (List.getElem?_set_ne hij).trans hj⟩, hworking⟩
    · -- the Response is marked, and the first interrupt sent
      obtain ⟨hnone, hzero⟩ := h.unmarked hmark
      have hfirst : (Cancellable.interrupt { w.shared with cancelRequested := true }).interrupts =
          [none] := congrArg (· ++ [none]) hnone
      have hzero' : (Cancellable.interrupt { w.shared with cancelRequested := true }).terminations =
          0 := hzero
      have hsent : Sent (Cancellable.interrupt { w.shared with cancelRequested := true }) :=
        ⟨by rw [hfirst]; decide, by omega, fun hone => by omega⟩
      refine ⟨⟨h.alone.set hi fun k _ => .inr fun u hu hk =>
        h.idle hmark hu (CancelPhase.key_eq_some.mp hk), ?_, hsent,
        fun hunmarked => by cases hunmarked⟩, fun _ _ _ => .inl ⟨_, hp', trivial⟩⟩
      exact fits_set (fun j u hj _ => CancelPhase.fits_of_not_working
        (h.idle hmark (List.mem_of_getElem? hj))) ⟨rfl, Nat.zero_le _, hfirst, hzero'⟩

/-- What happens to the Response beside the calls. -/
theorem CancelsOnce.env (h : CancelsOnce w) {e : CancelEvent} {ps : List CancelPhase}
    (henv : cancelResponse.env w.shared e = some (s', ps)) :
    CancelsOnce ⟨s', w.tasks ++ ps⟩ ∧ (ActedUpon w → ActedUpon ⟨s', w.tasks ++ ps⟩) := by
  have hsame : s'.interrupts = w.shared.interrupts ∧ s'.terminations = w.shared.terminations ∧
      s'.cancelRequested = w.shared.cancelRequested ∧
      (s'.status = w.shared.status ∨ w.shared.status = .inProgress) ∧ ∀ p ∈ ps, ¬ p.Working := by
    cases e with
    | call =>
      cases henv
      exact ⟨rfl, rfl, rfl, .inl rfl, fun p hp => List.mem_singleton.mp hp ▸ not_false⟩
    | finish status =>
      simp only [cancelResponse] at henv
      split_ifs at henv with hstatus
      cases henv
      exact ⟨rfl, rfl, rfl, .inr hstatus, fun p hp => absurd hp List.not_mem_nil⟩
    | unregister =>
      cases henv
      exact ⟨rfl, rfl, rfl, .inl rfl, fun p hp => absurd hp List.not_mem_nil⟩
    | delete =>
      simp only [cancelResponse] at henv
      split_ifs at henv
      cases henv
      exact ⟨rfl, rfl, rfl, .inl rfl, fun p hp => absurd hp List.not_mem_nil⟩
  obtain ⟨hinterrupts, hterminations, hmark, hstatus, hidle⟩ := hsame
  have hfits (p : CancelPhase) (hp : p.Fits w.shared) : p.Fits s' := by
    cases p with
    | interrupt attempt | pause attempt =>
      simpa only [CancelPhase.Fits, hmark, hinterrupts, hterminations] using hp
    | terminate => simpa only [CancelPhase.Fits, hmark, hinterrupts, hterminations] using hp
    | _ => trivial
  refine ⟨⟨h.alone.append fun p hp => if_neg (hidle p hp), fun p hp => ?_, ?_, ?_⟩,
    fun hacted hmarked => ?_⟩
  · rcases List.mem_append.mp hp with hp | hp
    · exact hfits p (h.fits p hp)
    · exact CancelPhase.fits_of_not_working (hidle p hp)
  · obtain ⟨hlength, hone, hlast⟩ := h.sent
    exact ⟨hinterrupts ▸ hlength, hterminations ▸ hone, fun hsent =>
      hinterrupts ▸ hlast (hterminations ▸ hsent)⟩
  · intro hunmarked
    rw [hinterrupts, hterminations]
    exact h.unmarked (hmark ▸ hunmarked)
  · rcases hacted (hmark ▸ hmarked) with ⟨p, hp, hworking⟩ | hdone
    · exact .inl ⟨p, List.mem_append_left _ hp, hworking⟩
    · refine .inr ?_
      rw [Delivered, hinterrupts, hterminations]
      rcases hstatus with hsame | hrunning
      · rwa [hsame]
      · exact hdone.imp_right fun hdone => hdone.elim (fun hover => absurd hrunning hover) .inr

theorem CancelsOnce.step (h : CancelsOnce w) {a : Pool.Action CancelAction CancelEvent}
    (hstep : Pool.step cancelResponse w a = some w') :
    CancelsOnce w' ∧ (Pool.stepCond NotCancelled (fun _ _ => True) w a → ActedUpon w →
      ActedUpon w') := by
  cases a with
  | task i a =>
    obtain ⟨p, s', p', hi, hact, rfl⟩ := Pool.step_task.mp hstep
    obtain ⟨hkeeps, hacted⟩ := h.task hi hact
    exact ⟨hkeeps, fun hcond => hacted (hcond p hi)⟩
  | env e =>
    obtain ⟨s', ps, henv, rfl⟩ := Pool.step_env.mp hstep
    exact ⟨(h.env henv).1, fun _ => (h.env henv).2⟩

theorem cancelsOnce_running : CancelsOnce running where
  alone := Pool.apart_nil
  fits _ hp := absurd hp List.not_mem_nil
  sent := ⟨Nat.zero_le _, Nat.zero_le _, fun h => by cases h⟩
  unmarked _ := ⟨rfl, rfl⟩

theorem cancelsOnce_of_run {as : List (Pool.Action CancelAction CancelEvent)}
    (hrun : Machine.run (Pool.step cancelResponse) running as = some w) : CancelsOnce w :=
  Machine.run_keeps (fun _ _ _ h hstep => (h.step hstep).1) hrun cancelsOnce_running

/-- **A cancellation is sent once, and is not lost.**  In every run of any number of calls beside
the end of the turn: for all calls together at most three interrupts are sent, those of a cancelled
call among them, and one request to terminate, which follows three interrupts that failed; one call
at most is at work; and in the runs in which that call is not cancelled, a Response that is marked
has a call at work on it, or has been interrupted, or is over, or its sandbox has been told to
terminate. -/
theorem cancel_delivered {as : List (Pool.Action CancelAction CancelEvent)}
    (hrun : Machine.run (Pool.step cancelResponse) running as = some w) :
    (w.shared.interrupts.length ≤ 3 ∧ w.shared.terminations ≤ 1 ∧
      (w.shared.terminations = 1 → w.shared.interrupts = [some false, some false, some false])) ∧
    (∀ (i j : ℕ) (p q : CancelPhase), w.tasks[i]? = some p → w.tasks[j]? = some q →
      p.Working → q.Working → i = j) ∧
    (Machine.Meets (Pool.step cancelResponse) (Pool.stepCond NotCancelled fun _ _ => True) running
        as → w.shared.cancelRequested = true →
      (∃ p ∈ w.tasks, p.Working) ∨ Delivered w.shared) := by
  have h := cancelsOnce_of_run hrun
  refine ⟨⟨h.sent.interrupts, h.sent.terminations, h.sent.last⟩, fun i j p q hi hj hp hq => ?_,
    fun hmeets => ?_⟩
  · by_contra hij
    exact h.others hi hp hj hij hq
  · have hstep : ∀ v a v', Pool.stepCond NotCancelled (fun _ _ => True) v a →
        CancelsOnce v ∧ ActedUpon v → Pool.step cancelResponse v a = some v' →
          CancelsOnce v' ∧ ActedUpon v' := fun _ _ _ hcond hv hstep =>
      ⟨(hv.1.step hstep).1, (hv.1.step hstep).2 hcond hv.2⟩
    exact (Machine.run_invariant hstep hmeets hrun
      ⟨cancelsOnce_running, fun hmark => by cases hmark⟩).2

end Calls

/-! ## Two runs -/

/-- Two calls; the first finds the Response active, and no interrupt of it is answered. -/
def unanswered : List (Pool.Action CancelAction CancelEvent) :=
  [.env .call, .env .call, .task 0 .proceed, .task 1 .proceed, .task 0 .proceed, .task 1 .proceed,
    .task 0 .proceed, .task 1 .proceed, .task 0 .fail, .task 0 .proceed, .task 0 .fail,
    .task 0 .proceed, .task 0 .fail, .task 0 .proceed]

theorem cancel_delivered_unanswered : ∃ w,
    Machine.run (Pool.step cancelResponse) running unanswered = some w ∧
    (w.shared.interrupts, w.shared.terminations) = ([some false, some false, some false], 1) ∧
    w.tasks = [.returned, .returned] ∧ Delivered w.shared := by
  have hmeets : Machine.Meets (Pool.step cancelResponse)
      (Pool.stepCond NotCancelled fun _ _ => True) running unanswered := by decide
  have hidle : ¬ ∃ p ∈ ([.returned, .returned] : List CancelPhase), p.Working := by decide
  exact ⟨_, rfl, rfl, rfl, ((cancel_delivered rfl).2.2 hmeets rfl).resolve_left hidle⟩

/-- The first call is cancelled while it interrupts the turn: the second does nothing, and the turn
goes on. -/
theorem not_cancel_delivered : ∃ w,
    Machine.run (Pool.step cancelResponse) running
      [.env .call, .task 0 .proceed, .task 0 .proceed, .task 0 .proceed, .task 0 .cancelled,
        .env .call, .task 1 .proceed, .task 1 .proceed, .task 1 .proceed] = some w ∧
    w.tasks = [.raised, .returned] ∧ w.shared.cancelRequested = true ∧ ¬ Delivered w.shared := by
  refine ⟨_, rfl, rfl, rfl, ?_⟩
  unfold Delivered
  decide

end CodexGateway.Adapter
