import Mathlib.Logic.Function.Basic
import CodexGateway.Library.Pool

/-!
# OpenWebui/ChatWorkspace — one chat gets one Workspace

A call of `ensure_chat_workspace` creates a Workspace at the Manager and then inserts it for the
chat.  The lock of the chat is one process's own: calls of two processes may both create, and the
one whose insert fails releases what it created and returns what the other inserted.

The mapping is written once, so that every call returns the same id.  A created Workspace is
mapped, released, or held by a call that is still at work, as long as no call fails in between: a
request that creates although it fails, an insert or a read that fails, or a release that is not
sent leaves a Workspace behind for good (`ensureChatWorkspace_iff`).
-/

namespace CodexGateway.OpenWebui

/-- The chat in the database and at the Manager; `seen` is what `uuid4` gave out, and `locks` are
the locks of the chat, one in each process. -/
structure WorkspaceState where
  mapping : Option String
  created : List String
  released : List String
  seen : List String
  locks : ℕ → Bool

/-- What a call awaits: the two reads and the lock before the Workspace has an id, then the request
that creates it, the insert, the read of the winner, and the request that releases it. -/
inductive CallPhase where
  | first
  | lock
  | again
  | create
  | insert
  | winner
  | release (winner : Option String)
  | returned (workspaceId : String)
  | raised
  deriving DecidableEq

/-- A call of `ensure_chat_workspace`. -/
structure WorkspaceCall where
  process : ℕ
  phase : CallPhase
  workspaceId : Option String

/-- What is awaited returns, where `create` is told what `uuid4` gives; or it raises or is
cancelled, done or not. -/
inductive CallAction where
  | proceed
  | create (workspaceId : String)
  | fail (done : Bool)

namespace WorkspaceCall

variable (s : WorkspaceState) (t : WorkspaceCall)

/-- A call goes on. -/
def goto (phase : CallPhase) : WorkspaceCall := { t with phase := phase }

/-- The end of a call that has the lock. -/
def leave (phase : CallPhase) : WorkspaceState × WorkspaceCall :=
  ({ s with locks := Function.update s.locks t.process false }, t.goto phase)

/-- What the awaited call does to the chat: the Manager creates or releases a Workspace, or a row is
inserted where there is none. -/
def effect : WorkspaceState :=
  match t.workspaceId, t.phase with
  | some id, .create => { s with created := s.created ++ [id] }
  | some id, .insert => { s with mapping := s.mapping.or (some id) }
  | some id, .release _ => { s with released := s.released ++ [id] }
  | _, _ => s

/-- `ensure_chat_workspace`, from one awaited call to the next. -/
def proceed : Option (WorkspaceState × WorkspaceCall) :=
  match t.phase with
  | .first =>
    match s.mapping with
    | some existing => some (s, t.goto (.returned existing))
    | none => some (s, t.goto .lock)
  | .lock =>
    if s.locks t.process then none
    else some ({ s with locks := Function.update s.locks t.process true }, t.goto .again)
  | .again => s.mapping.map fun existing => t.leave s (.returned existing)
  | .create => some (effect s t, t.goto .insert)
  | .insert =>
    match s.mapping, t.workspaceId with
    | none, some id => some (t.leave (effect s t) (.returned id))
    | _, _ => some (s, t.goto .winner)
  | .winner => some (s, t.goto (.release s.mapping))
  | .release winner =>
    some (t.leave (effect s t) (winner.elim .raised .returned))
  | .returned _ | .raised => none

/-- What a call does, where it can. -/
def act : CallAction → Option (WorkspaceState × WorkspaceCall)
  | .proceed => t.proceed s
  | .create id =>
    if t.phase = .again ∧ s.mapping = none ∧ id ∉ s.seen then
      some ({ s with seen := id :: s.seen },
        { t with phase := .create, workspaceId := some id })
    else none
  | .fail done =>
    match t.phase with
    | .returned _ | .raised => none
    | .first | .lock => some (s, t.goto .raised)
    | _ => some (t.leave (if done then effect s t else s) .raised)

/-- A new call, in some process. -/
def start (process : ℕ) : WorkspaceCall := ⟨process, .first, none⟩

end WorkspaceCall

/-- The calls for one chat, in any number of processes. -/
def ensureChatWorkspace : Pool.Program WorkspaceState WorkspaceCall CallAction ℕ where
  act := WorkspaceCall.act
  env s process := some (s, [.start process])

/-- A chat that has a Workspace, or has none. -/
def chatStart (mapping : Option String) : Pool WorkspaceState WorkspaceCall :=
  ⟨⟨mapping, mapping.toList, [], mapping.toList, fun _ => false⟩, []⟩

/-! ## What is meant -/

/-- The call has a Workspace that it is going to map or to release. -/
def CallPhase.Holds : CallPhase → Prop
  | .insert | .winner | .release _ => True
  | _ => False

/-- The call is over. -/
def CallPhase.Over : CallPhase → Prop
  | .returned _ | .raised => True
  | _ => False

/-- A call that fails in this phase, with what it awaits done or not, leaves no Workspace behind. -/
def CallPhase.mayFail (mapping : Option String) (done : Bool) : CallPhase → Bool
  | .create => !done
  | .insert => done && mapping.isNone
  | .winner => false
  | .release _ => done
  | _ => true

/-- What fails leaves no Workspace behind: the request that creates fails before it creates, the
insert and the release once they are done. -/
def LeavesNothing (s : WorkspaceState) (t : WorkspaceCall) : CallAction → Prop
  | .fail done => t.phase.mayFail s.mapping done = true
  | .proceed | .create _ => True

instance (s : WorkspaceState) (t : WorkspaceCall) : DecidablePred (LeavesNothing s t)
  | .fail done => inferInstanceAs (Decidable (t.phase.mayFail s.mapping done = true))
  | .proceed | .create _ => .isTrue trivial

/-- A run in which no call leaves a Workspace behind. -/
def Faultless (w : Pool WorkspaceState WorkspaceCall) (as : List (Pool.Action CallAction ℕ)) :
    Prop :=
  Machine.Meets (Pool.step ensureChatWorkspace)
    (Pool.stepCond LeavesNothing fun _ _ => True) w as

/-! ## What a call does, and to which Workspace -/

/-- Nothing happens to the Workspace. -/
structure Untouched (id : String) (s s' : WorkspaceState) : Prop where
  created : id ∈ s'.created ↔ id ∈ s.created
  mapping : s'.mapping = some id ↔ s.mapping = some id
  released : id ∈ s'.released ↔ id ∈ s.released

theorem Untouched.of_eq {id : String} {s s' : WorkspaceState} (hcreated : s'.created = s.created)
    (hmapping : s'.mapping = s.mapping) (hreleased : s'.released = s.released) :
    Untouched id s s' :=
  ⟨by rw [hcreated], by rw [hmapping], by rw [hreleased]⟩

/-- The Workspace is neither mapped nor released. -/
structure Unclaimed (s : WorkspaceState) (id : String) : Prop where
  mapping : s.mapping ≠ some id
  released : id ∉ s.released

/-- The id of the call is not created yet. -/
def WorkspaceCall.HasId (s : WorkspaceState) (t : WorkspaceCall) : Prop :=
  ∃ id, t.workspaceId = some id ∧ id ∉ s.created ∧ Unclaimed s id

/-- The call has created its Workspace. -/
def WorkspaceCall.HasWorkspace (s : WorkspaceState) (t : WorkspaceCall) : Prop :=
  ∃ id, t.workspaceId = some id ∧ id ∈ s.created ∧ Unclaimed s id

/-- What holds of a call in each of its phases. -/
def WorkspaceCall.Sound (s : WorkspaceState) (t : WorkspaceCall) : Prop :=
  match t.phase with
  | .first | .lock | .again => t.workspaceId = none
  | .create => t.HasId s
  | .insert => t.HasWorkspace s
  | .winner => t.HasWorkspace s
  | .release winner => t.HasWorkspace s ∧ ∀ id, winner = some id → s.mapping = some id
  | .returned id => s.mapping = some id
  | .raised => True

/-- A Workspace that was created for the call is mapped, released, or held by the call. -/
def WorkspaceCall.Accounts (s : WorkspaceState) (t : WorkspaceCall) : Prop :=
  ∀ id, t.workspaceId = some id → id ∈ s.created →
    s.mapping = some id ∨ id ∈ s.released ∨ t.phase.Holds

/-- What a step of a call does. -/
structure Steps (s : WorkspaceState) (t : WorkspaceCall) (s' : WorkspaceState)
    (t' : WorkspaceCall) : Prop where
  untouched : ∀ id, t'.workspaceId ≠ some id → Untouched id s s'
  workspaceId : t'.workspaceId = t.workspaceId ∧ s'.seen = s.seen ∨
    ∃ id, t.workspaceId = none ∧ t'.workspaceId = some id ∧ id ∉ s.seen ∧ s'.seen = id :: s.seen
  mapping : ∀ id, s.mapping = some id → s'.mapping = some id
  sound : t'.Sound s'

section Steps

variable {s s' : WorkspaceState} {t t' u : WorkspaceCall} {a : CallAction} {id : String}

theorem untouched_refl (id : String) (s : WorkspaceState) : Untouched id s s := .of_eq rfl rfl rfl

/-- Only the lock changes, and the phase. -/
theorem Steps.of_eq (hcreated : s'.created = s.created) (hmapping : s'.mapping = s.mapping)
    (hreleased : s'.released = s.released) (hseen : s'.seen = s.seen)
    (hid : t'.workspaceId = t.workspaceId) (hsound : t'.Sound s') : Steps s t s' t' where
  untouched _ _ := .of_eq hcreated hmapping hreleased
  workspaceId := .inl ⟨hid, hseen⟩
  mapping _ h := hmapping.trans h
  sound := hsound

/-- What is awaited is done to the Workspace of the call alone. -/
theorem untouched_effect (hid : t.workspaceId ≠ some id) : Untouched id s (t.effect s) := by
  unfold WorkspaceCall.effect
  split
  · rename_i own hown _
    have hne : id ≠ own := fun h => hid (h ▸ hown)
    exact ⟨by simp [hne], Iff.rfl, Iff.rfl⟩
  · rename_i own hown _
    have hne : own ≠ id := fun h => hid (h ▸ hown)
    refine ⟨Iff.rfl, ?_, Iff.rfl⟩
    cases hmapping : s.mapping with
    | none => simp [hne]
    | some other => rfl
  · rename_i own _ hown _
    have hne : id ≠ own := fun h => hid (h ▸ hown)
    exact ⟨Iff.rfl, Iff.rfl, by simp [hne]⟩
  · exact untouched_refl id s

theorem mapping_effect (h : s.mapping = some id) : (t.effect s).mapping = some id := by
  unfold WorkspaceCall.effect
  split <;> simp [h]

theorem seen_effect : (t.effect s).seen = s.seen := by
  unfold WorkspaceCall.effect
  split <;> rfl

theorem Unclaimed.untouched (h : Unclaimed s id) (hsame : Untouched id s s') : Unclaimed s' id :=
  ⟨mt hsame.mapping.mp h.mapping, mt hsame.released.mp h.released⟩

/-- What a call is sound for does not change while its Workspace is untouched. -/
theorem WorkspaceCall.Sound.stable (h : u.Sound s)
    (huntouched : ∀ id, u.workspaceId = some id → Untouched id s s')
    (hmapping : ∀ id, s.mapping = some id → s'.mapping = some id) : u.Sound s' := by
  have hid (h : u.HasId s) : u.HasId s' := by
    obtain ⟨id, hid, hcreated, hunclaimed⟩ := h
    have hsame := huntouched id hid
    exact ⟨id, hid, mt hsame.created.mp hcreated, hunclaimed.untouched hsame⟩
  have hworkspace (h : u.HasWorkspace s) : u.HasWorkspace s' := by
    obtain ⟨id, hid, hcreated, hunclaimed⟩ := h
    have hsame := huntouched id hid
    exact ⟨id, hid, hsame.created.mpr hcreated, hunclaimed.untouched hsame⟩
  unfold WorkspaceCall.Sound at h ⊢
  cases hphase : u.phase <;> simp only [hphase] at h ⊢
  case create => exact hid h
  case insert | winner => exact hworkspace h
  case release => exact ⟨hworkspace h.1, fun id hid => hmapping id (h.2 id hid)⟩
  case returned => exact hmapping _ h
  all_goals exact h

/-- What is awaited is done, and maybe the lock is left. -/
theorem Steps.of_effect (hcreated : s'.created = (t.effect s).created)
    (hmapping : s'.mapping = (t.effect s).mapping)
    (hreleased : s'.released = (t.effect s).released) (hseen : s'.seen = s.seen)
    (hid : t'.workspaceId = t.workspaceId) (hsound : t'.Sound s') : Steps s t s' t' where
  untouched id hne := by
    have heffect := @untouched_effect s t id (hid ▸ hne)
    exact ⟨by rw [hcreated, heffect.created], by rw [hmapping, heffect.mapping],
      by rw [hreleased, heffect.released]⟩
  workspaceId := .inl ⟨hid, hseen⟩
  mapping _ h := hmapping.trans (mapping_effect h)
  sound := hsound

/-- **Every step of a call keeps to its own Workspace.** -/
theorem steps_of_act (hsound : t.Sound s)
    (hknown : ∀ id, id ∈ s.created ∨ s.mapping = some id ∨ id ∈ s.released → id ∈ s.seen)
    (hact : t.act s a = some (s', t')) : Steps s t s' t' := by
  unfold WorkspaceCall.Sound at hsound
  cases a with
  | proceed =>
    simp only [WorkspaceCall.act, WorkspaceCall.proceed] at hact
    cases hphase : t.phase <;> simp only [hphase] at hact hsound
    case first =>
      split at hact
      · rename_i existing hmapping
        cases hact
        exact .of_eq rfl rfl rfl rfl rfl hmapping
      · cases hact
        exact .of_eq rfl rfl rfl rfl rfl hsound
    case lock =>
      split_ifs at hact
      cases hact
      exact .of_eq rfl rfl rfl rfl rfl hsound
    case again =>
      obtain ⟨existing, hmapping, hact⟩ := Option.map_eq_some_iff.mp hact
      cases hact
      exact .of_eq rfl rfl rfl rfl rfl hmapping
    case create =>
      cases hact
      obtain ⟨id, hid, -, hunclaimed⟩ := hsound
      refine .of_effect rfl rfl rfl seen_effect rfl ⟨id, hid, ?_, ?_⟩
      · simp [WorkspaceCall.effect, hid, hphase]
      · simpa [WorkspaceCall.effect, hid, hphase] using ⟨hunclaimed.mapping, hunclaimed.released⟩
    case insert =>
      split at hact
      · rename_i id hmapping hid
        cases hact
        refine .of_effect rfl rfl rfl seen_effect rfl ?_
        simp [WorkspaceCall.Sound, WorkspaceCall.goto, WorkspaceCall.effect, hid, hphase, hmapping]
      · cases hact
        exact .of_eq rfl rfl rfl rfl rfl hsound
    case winner =>
      cases hact
      exact .of_eq rfl rfl rfl rfl rfl ⟨hsound, fun id hid => hid⟩
    case release winner =>
      cases hact
      refine .of_effect rfl rfl rfl seen_effect rfl ?_
      cases winner with
      | none => trivial
      | some id => exact mapping_effect (hsound.2 id rfl)
    all_goals cases hact
  | create id =>
    rw [WorkspaceCall.act] at hact
    split_ifs at hact with hcond
    cases hact
    obtain ⟨hphase, hmapping, hfresh⟩ := hcond
    simp only [hphase] at hsound
    refine ⟨fun _ _ => .of_eq rfl rfl rfl, .inr ⟨id, hsound, rfl, hfresh, rfl⟩, fun _ h => h, ?_⟩
    refine ⟨id, rfl, fun h => hfresh (hknown id (.inl h)), ?_, ?_⟩
    · exact fun h => hfresh (hknown id (.inr (.inl h)))
    · exact fun h => hfresh (hknown id (.inr (.inr h)))
  | fail done =>
    have hleave : Steps s t (t.leave (if done then t.effect s else s) .raised).1
        (t.leave (if done then t.effect s else s) .raised).2 := by
      cases done with
      | false => exact .of_eq rfl rfl rfl rfl rfl trivial
      | true => exact .of_effect rfl rfl rfl seen_effect rfl trivial
    simp only [WorkspaceCall.act] at hact
    cases hphase : t.phase <;> simp only [hphase] at hact
    case first | lock =>
      cases hact
      exact .of_eq rfl rfl rfl rfl rfl trivial
    case returned | raised => cases hact
    all_goals
      cases hact
      exact hleave

theorem accounts_of_none (hid : t.workspaceId = none) : t.Accounts s := fun id h => by
  rw [hid] at h
  cases h

theorem accounts_of_hasId (h : t.HasId s) : t.Accounts s := fun id hid hcreated => by
  obtain ⟨own, hown, hfresh, -⟩ := h
  obtain rfl := Option.some.inj (hown.symm.trans hid)
  exact absurd hcreated hfresh

theorem accounts_of_holds (h : t.phase.Holds) : t.Accounts s := fun _ _ _ => .inr (.inr h)

/-- A call that does not hold its Workspace has mapped or released it. -/
theorem accounts_iff_of_created (hid : t.workspaceId = some id) (hcreated : id ∈ s.created)
    (hphase : ¬ t.phase.Holds) :
    t.Accounts s ↔ s.mapping = some id ∨ id ∈ s.released := by
  constructor
  · intro h
    rcases h id hid hcreated with hmapping | hreleased | hholds
    · exact .inl hmapping
    · exact .inr hreleased
    · exact absurd hholds hphase
  · intro h own hown _
    obtain rfl := Option.some.inj (hid.symm.trans hown)
    exact h.imp_right .inl

/-- A call with a Workspace raises: it is accounted for where it was mapped or released. -/
theorem accounts_raised_iff (hid : t.workspaceId = some id) (hcreated : id ∈ s.created) :
    (t.leave s .raised).2.Accounts (t.leave s .raised).1 ↔
      s.mapping = some id ∨ id ∈ s.released :=
  accounts_iff_of_created hid hcreated not_false

/-- A call that is at work accounts for its Workspace. -/
theorem accounts_of_sound (hsound : t.Sound s) (hover : ¬ t.phase.Over) : t.Accounts s := by
  unfold WorkspaceCall.Sound at hsound
  cases hphase : t.phase <;> simp only [hphase] at hsound hover
  case first | lock | again => exact accounts_of_none hsound
  case create => exact accounts_of_hasId hsound
  case insert | winner | release => exact accounts_of_holds (by rw [hphase]; trivial)
  all_goals exact absurd trivial hover

theorem not_over_of_act (hact : t.act s a = some (s', t')) : ¬ t.phase.Over := by
  intro hover
  cases hphase : t.phase <;> simp only [hphase, CallPhase.Over] at hover
  all_goals cases a <;> simp [WorkspaceCall.act, WorkspaceCall.proceed, hphase] at hact

/-- What a call does without a fault accounts for its Workspace. -/
theorem accounts_proceed (hsound : t.Sound s) (hact : t.proceed s = some (s', t')) :
    t'.Accounts s' := by
  unfold WorkspaceCall.Sound at hsound
  rw [WorkspaceCall.proceed] at hact
  cases hphase : t.phase <;> simp only [hphase] at hact hsound
  case first =>
    split at hact
    all_goals
      cases hact
      exact accounts_of_none hsound
  case lock =>
    split_ifs at hact
    cases hact
    exact accounts_of_none hsound
  case again =>
    obtain ⟨existing, -, hact⟩ := Option.map_eq_some_iff.mp hact
    cases hact
    exact accounts_of_none hsound
  case create =>
    cases hact
    exact accounts_of_holds trivial
  case insert =>
    split at hact
    · rename_i id hmapping hid
      cases hact
      intro own hown _
      obtain rfl := Option.some.inj (hid.symm.trans hown)
      exact .inl (by simp [WorkspaceCall.effect, hid, hphase, hmapping])
    · cases hact
      exact accounts_of_holds trivial
  case winner =>
    cases hact
    exact accounts_of_holds trivial
  case release winner =>
    cases hact
    intro own hown _
    have hid : t.workspaceId = some own := hown
    exact .inr (.inl (by simp [WorkspaceCall.effect, hid, hphase]))
  all_goals cases hact

/-- **A call that fails accounts for its Workspace exactly where it may fail.** -/
theorem accounts_fail {done : Bool} (hsound : t.Sound s)
    (hact : t.act s (.fail done) = some (s', t')) :
    t'.Accounts s' ↔ t.phase.mayFail s.mapping done = true := by
  unfold WorkspaceCall.Sound at hsound
  simp only [WorkspaceCall.act] at hact
  cases hphase : t.phase <;> simp only [hphase] at hact hsound
  case first | lock | again =>
    cases hact
    exact iff_of_true (accounts_of_none hsound) rfl
  case create =>
    cases hact
    obtain ⟨id, hid, hcreated, hunclaimed⟩ := hsound
    cases done with
    | false => exact iff_of_true (accounts_of_hasId
        ⟨id, hid, hcreated, hunclaimed.mapping, hunclaimed.released⟩) rfl
    | true =>
      refine (accounts_raised_iff hid ?_).trans (iff_of_false ?_ Bool.false_ne_true)
      · simp [WorkspaceCall.effect, hid, hphase]
      · simpa [WorkspaceCall.effect, hid, hphase] using ⟨hunclaimed.mapping, hunclaimed.released⟩
  case insert =>
    cases hact
    obtain ⟨id, hid, hcreated, hunclaimed⟩ := hsound
    have hlost : ¬ (s.mapping = some id ∨ id ∈ s.released) :=
      not_or.mpr ⟨hunclaimed.mapping, hunclaimed.released⟩
    cases done with
    | false =>
      exact (accounts_raised_iff hid hcreated).trans
        (iff_of_false hlost Bool.false_ne_true)
    | true =>
      refine (accounts_raised_iff (s := t.effect s) hid ?_).trans ?_
      · simpa [WorkspaceCall.effect, hid, hphase] using hcreated
      · cases hmapping : s.mapping with
        | none => simp [WorkspaceCall.effect, hid, hphase, hmapping, CallPhase.mayFail]
        | some other =>
          rw [hmapping] at hlost
          simpa [WorkspaceCall.effect, hid, hphase, hmapping, CallPhase.mayFail] using hlost
  case winner =>
    cases hact
    obtain ⟨id, hid, hcreated, hunclaimed⟩ := hsound
    have heffect : (if done then t.effect s else s) = s := by
      cases done <;> simp [WorkspaceCall.effect, hid, hphase]
    rw [heffect]
    exact (accounts_raised_iff hid hcreated).trans
      (iff_of_false (not_or.mpr ⟨hunclaimed.mapping, hunclaimed.released⟩) Bool.false_ne_true)
  case release winner =>
    cases hact
    obtain ⟨⟨id, hid, hcreated, hunclaimed⟩, -⟩ := hsound
    cases done with
    | false =>
      exact (accounts_raised_iff hid hcreated).trans
        (iff_of_false (not_or.mpr ⟨hunclaimed.mapping, hunclaimed.released⟩) Bool.false_ne_true)
    | true =>
      refine (accounts_raised_iff (s := t.effect s) hid ?_).trans (iff_of_true ?_ rfl)
      · simpa [WorkspaceCall.effect, hid, hphase] using hcreated
      · exact .inr (by simp [WorkspaceCall.effect, hid, hphase])
  all_goals cases hact

/-- **A step keeps account of the Workspace of its call exactly where it leaves nothing.** -/
theorem accounts_iff (hsound : t.Sound s)
    (hknown : ∀ id, id ∈ s.created ∨ s.mapping = some id ∨ id ∈ s.released → id ∈ s.seen)
    (hact : t.act s a = some (s', t')) :
    t'.Accounts s' ↔ t.Accounts s ∧ LeavesNothing s t a := by
  have hbefore := accounts_of_sound hsound (not_over_of_act hact)
  cases a with
  | proceed => exact iff_of_true (accounts_proceed hsound hact) ⟨hbefore, trivial⟩
  | create id =>
    have hsteps := steps_of_act hsound hknown hact
    refine iff_of_true (accounts_of_sound hsteps.sound ?_) ⟨hbefore, trivial⟩
    rw [WorkspaceCall.act] at hact
    split_ifs at hact
    cases hact
    exact not_false
  | fail done =>
    rw [accounts_fail hsound hact]
    exact ⟨fun h => ⟨hbefore, h⟩, fun h => h.2⟩

end Steps

/-! ## All calls -/

/-- What holds of the chat and all its calls. -/
structure Consistent (w : Pool WorkspaceState WorkspaceCall) : Prop where
  apart : Pool.Apart (·.workspaceId) w.tasks
  seen : ∀ t ∈ w.tasks, ∀ id, t.workspaceId = some id → id ∈ w.shared.seen
  known : ∀ id, id ∈ w.shared.created ∨ w.shared.mapping = some id ∨ id ∈ w.shared.released →
    id ∈ w.shared.seen
  sound : ∀ t ∈ w.tasks, t.Sound w.shared
  owned : ∀ id ∈ w.shared.created, w.shared.mapping = some id ∨
    ∃ t ∈ w.tasks, t.workspaceId = some id

theorem consistent_chatStart (mapping : Option String) : Consistent (chatStart mapping) where
  apart := Pool.apart_nil
  seen _ ht := absurd ht List.not_mem_nil
  known id h := by
    rcases h with h | h | h
    · exact h
    · exact Option.mem_toList.mpr h
    · exact absurd h List.not_mem_nil
  sound _ ht := absurd ht List.not_mem_nil
  owned _ h := .inl (Option.mem_toList.mp h)

section Calls

variable {w w' : Pool WorkspaceState WorkspaceCall} {s' : WorkspaceState} {t t' u : WorkspaceCall}
  {i j : ℕ} {id : String}

/-- Another call has another Workspace. -/
theorem Consistent.ne_workspaceId (h : Consistent w) (hi : w.tasks[i]? = some t)
    (hsteps : Steps w.shared t s' t') (hj : w.tasks[j]? = some u) (hij : i ≠ j)
    (hu : u.workspaceId = some id) : t'.workspaceId ≠ some id := by
  intro ht'
  rcases hsteps.workspaceId with ⟨hsame, -⟩ | ⟨fresh, -, hid, hfresh, -⟩
  · exact hij (h.apart i j t u id hi hj (hsame.symm.trans ht') hu)
  · obtain rfl := Option.some.inj (hid.symm.trans ht')
    exact hfresh (h.seen u (List.mem_of_getElem? hj) fresh hu)

theorem Steps.seen_subset (h : Steps w.shared t s' t') (hid : id ∈ w.shared.seen) :
    id ∈ s'.seen := by
  rcases h.workspaceId with ⟨-, hseen⟩ | ⟨fresh, -, -, -, hseen⟩
  · exact hseen ▸ hid
  · exact hseen ▸ List.mem_cons_of_mem _ hid

theorem Consistent.seen_own (h : Consistent w) (hi : w.tasks[i]? = some t)
    (hsteps : Steps w.shared t s' t') (hid : t'.workspaceId = some id) : id ∈ s'.seen := by
  rcases hsteps.workspaceId with ⟨hsame, hseen⟩ | ⟨fresh, -, hfresh, -, hseen⟩
  · exact hseen ▸ h.seen t (List.mem_of_getElem? hi) id (hsame ▸ hid)
  · obtain rfl := Option.some.inj (hfresh.symm.trans hid)
    exact hseen ▸ List.mem_cons_self

theorem Consistent.set (h : Consistent w) (hi : w.tasks[i]? = some t)
    (hsteps : Steps w.shared t s' t') : Consistent ⟨s', w.tasks.set i t'⟩ where
  apart := h.apart.set hi fun id hid => by
    rcases hsteps.workspaceId with ⟨hsame, -⟩ | ⟨fresh, -, hfresh, hunseen, -⟩
    · exact .inl (hsame.symm.trans hid)
    · obtain rfl := Option.some.inj (hfresh.symm.trans hid)
      exact .inr fun u hu hid => hunseen (h.seen u hu _ hid)
  seen u hu id hid := by
    rcases List.mem_or_eq_of_mem_set hu with hu | rfl
    · exact hsteps.seen_subset (h.seen u hu id hid)
    · exact h.seen_own hi hsteps hid
  known id hid := by
    by_cases hown : t'.workspaceId = some id
    · exact h.seen_own hi hsteps hown
    · have hsame := hsteps.untouched id hown
      rw [hsame.created, hsame.mapping, hsame.released] at hid
      exact hsteps.seen_subset (h.known id hid)
  sound u hu := by
    obtain ⟨j, hj⟩ := List.mem_iff_getElem?.mp hu
    rw [List.getElem?_set] at hj
    split_ifs at hj with hij
    · obtain rfl := Option.some.inj hj
      exact hsteps.sound
    · refine (h.sound u (List.mem_of_getElem? hj)).stable (fun id hid => ?_) hsteps.mapping
      exact hsteps.untouched id (h.ne_workspaceId hi hsteps hj hij hid)
  owned id hid := by
    have hlt : i < w.tasks.length := (List.getElem?_eq_some_iff.mp hi).1
    by_cases hown : t'.workspaceId = some id
    · exact .inr ⟨t', List.mem_set hlt t', hown⟩
    rcases h.owned id ((hsteps.untouched id hown).created.mp hid) with hmapping | ⟨u, hu, huid⟩
    · exact .inl (hsteps.mapping id hmapping)
    obtain ⟨j, hj⟩ := List.mem_iff_getElem?.mp hu
    by_cases hij : i = j
    · subst hij
      obtain rfl := Option.some.inj (hi.symm.trans hj)
      rcases hsteps.workspaceId with ⟨hsame, -⟩ | ⟨-, hnone, -⟩
      · exact absurd (hsame.trans huid) hown
      · exact absurd (hnone.symm.trans huid) (by simp)
    · refine .inr ⟨u, List.mem_iff_getElem?.mpr ⟨j, ?_⟩, huid⟩
      rw [List.getElem?_set_ne hij, hj]

theorem Consistent.append (h : Consistent w) (process : ℕ) :
    Consistent ⟨w.shared, w.tasks ++ [.start process]⟩ where
  apart := h.apart.append fun t ht => by
    obtain rfl := List.mem_singleton.mp ht
    rfl
  seen t ht id hid := by
    rcases List.mem_append.mp ht with ht | ht
    · exact h.seen t ht id hid
    · obtain rfl := List.mem_singleton.mp ht
      cases hid
  known := h.known
  sound t ht := by
    rcases List.mem_append.mp ht with ht | ht
    · exact h.sound t ht
    · obtain rfl := List.mem_singleton.mp ht
      rfl
  owned id hid := (h.owned id hid).imp_right fun ⟨t, ht, htid⟩ =>
    ⟨t, List.mem_append_left _ ht, htid⟩

/-- Every call accounts for its Workspace. -/
def AllAccount (w : Pool WorkspaceState WorkspaceCall) : Prop := ∀ t ∈ w.tasks, t.Accounts w.shared

theorem WorkspaceCall.Accounts.untouched_iff {s s' : WorkspaceState}
    (h : ∀ id, u.workspaceId = some id → Untouched id s s') : u.Accounts s' ↔ u.Accounts s := by
  refine forall_congr' fun id => forall_congr' fun hid => ?_
  rw [(h id hid).created, (h id hid).mapping, (h id hid).released]

/-- The other calls account for theirs as before. -/
theorem Consistent.allAccount_set (h : Consistent w) (hi : w.tasks[i]? = some t)
    (hsteps : Steps w.shared t s' t') {p : Prop}
    (hown : t'.Accounts s' ↔ t.Accounts w.shared ∧ p) :
    AllAccount ⟨s', w.tasks.set i t'⟩ ↔ AllAccount w ∧ p := by
  have hlt : i < w.tasks.length := (List.getElem?_eq_some_iff.mp hi).1
  have hother {j : ℕ} {u : WorkspaceCall} (hj : w.tasks[j]? = some u) (hij : i ≠ j) :
      u.Accounts s' ↔ u.Accounts w.shared :=
    WorkspaceCall.Accounts.untouched_iff fun id hid =>
      hsteps.untouched id (h.ne_workspaceId hi hsteps hj hij hid)
  constructor
  · intro hall
    have hnew := hown.mp (hall t' (List.mem_set hlt t'))
    refine ⟨fun u hu => ?_, hnew.2⟩
    obtain ⟨j, hj⟩ := List.mem_iff_getElem?.mp hu
    by_cases hij : i = j
    · subst hij
      obtain rfl := Option.some.inj (hi.symm.trans hj)
      exact hnew.1
    · refine (hother hj hij).mp (hall u (List.mem_iff_getElem?.mpr ⟨j, ?_⟩))
      rw [List.getElem?_set_ne hij, hj]
  · rintro ⟨hall, hp⟩ u hu
    obtain ⟨j, hj⟩ := List.mem_iff_getElem?.mp hu
    rw [List.getElem?_set] at hj
    split_ifs at hj with hij
    · obtain rfl := Option.some.inj hj
      exact hown.mpr ⟨hall t (List.mem_of_getElem? hi), hp⟩
    · exact (hother hj hij).mpr (hall u (List.mem_of_getElem? hj))

/-- **A step of the pool keeps account exactly where the call leaves nothing.** -/
theorem Consistent.step (h : Consistent w) {a : Pool.Action CallAction ℕ}
    (hstep : Pool.step ensureChatWorkspace w a = some w') :
    Consistent w' ∧
      (AllAccount w' ↔ AllAccount w ∧ Pool.stepCond LeavesNothing (fun _ _ => True) w a) := by
  cases a with
  | task i a =>
    obtain ⟨t, s', t', hi, hact, rfl⟩ := Pool.step_task.mp hstep
    have hsound := h.sound t (List.mem_of_getElem? hi)
    have hsteps := steps_of_act hsound h.known hact
    refine ⟨h.set hi hsteps, (h.allAccount_set hi hsteps (accounts_iff hsound h.known hact)).trans
      (and_congr_right fun _ => ?_)⟩
    exact ⟨fun hleaves u hu => Option.some.inj (hi.symm.trans hu) ▸ hleaves,
      fun hleaves => hleaves t hi⟩
  | env process =>
    obtain ⟨s, ts, henv, rfl⟩ := Pool.step_env.mp hstep
    cases henv
    refine ⟨h.append process, ⟨fun hall => ⟨fun t ht => hall t (List.mem_append_left _ ht),
      trivial⟩, fun hall t ht => ?_⟩⟩
    rcases List.mem_append.mp ht with ht | ht
    · exact hall.1 t ht
    · obtain rfl := List.mem_singleton.mp ht
      exact accounts_of_none rfl

theorem consistent_of_run {mapping : Option String} {as : List (Pool.Action CallAction ℕ)}
    (hrun : Machine.run (Pool.step ensureChatWorkspace) (chatStart mapping) as = some w) :
    Consistent w :=
  Machine.run_keeps (fun _ _ _ h hstep => (h.step hstep).1) hrun (consistent_chatStart mapping)

/-- **All calls that return give the Workspace that the database maps, and every other one that was
created has been released or is still held by a call, in exactly the runs in which no call leaves
one behind.** -/
theorem ensureChatWorkspace_iff {mapping : Option String} {as : List (Pool.Action CallAction ℕ)}
    (hrun : Machine.run (Pool.step ensureChatWorkspace) (chatStart mapping) as = some w) :
    (∀ t ∈ w.tasks, ∀ id, t.phase = .returned id → w.shared.mapping = some id) ∧
    ((∀ id ∈ w.shared.created, w.shared.mapping = some id ∨ id ∈ w.shared.released ∨
        ∃ t ∈ w.tasks, t.workspaceId = some id ∧ t.phase.Holds) ↔
      Faultless (chatStart mapping) as) ∧
    ((∀ t ∈ w.tasks, t.phase.Over) →
      ((∀ id ∈ w.shared.created, w.shared.mapping = some id ∨ id ∈ w.shared.released) ↔
        Faultless (chatStart mapping) as)) := by
  have h := consistent_of_run hrun
  have hfaultless : AllAccount w ↔ Faultless (chatStart mapping) as := by
    have hiff := Machine.run_iff_meets (fun _ _ _ h hstep => Consistent.step h hstep) hrun
      (consistent_chatStart mapping)
    exact hiff.trans ⟨fun hall => hall.2,
      fun hmeets => ⟨fun t ht => absurd ht List.not_mem_nil, hmeets⟩⟩
  have haccounts : (∀ id ∈ w.shared.created, w.shared.mapping = some id ∨ id ∈ w.shared.released ∨
      ∃ t ∈ w.tasks, t.workspaceId = some id ∧ t.phase.Holds) ↔ AllAccount w := by
    constructor
    · intro hall t ht id hid hcreated
      refine (hall id hcreated).imp_right (Or.imp_right fun ⟨u, hu, huid, hholds⟩ => ?_)
      obtain ⟨i, hi⟩ := List.mem_iff_getElem?.mp ht
      obtain ⟨j, hj⟩ := List.mem_iff_getElem?.mp hu
      obtain rfl := h.apart i j t u id hi hj hid huid
      exact Option.some.inj (hi.symm.trans hj) ▸ hholds
    · intro hall id hcreated
      rcases h.owned id hcreated with hmapping | ⟨t, ht, hid⟩
      · exact .inl hmapping
      · exact (hall t ht id hid hcreated).imp_right (Or.imp_right fun hholds =>
          ⟨t, ht, hid, hholds⟩)
  refine ⟨fun t ht id hphase => ?_, haccounts.trans hfaultless, fun hover => ?_⟩
  · have hsound := h.sound t ht
    rwa [WorkspaceCall.Sound, hphase] at hsound
  · refine Iff.trans (forall₂_congr fun id _ => ?_) (haccounts.trans hfaultless)
    refine or_congr_right ⟨.inl, fun hor => hor.resolve_right ?_⟩
    rintro ⟨t, ht, -, hholds⟩
    have hend := hover t ht
    cases hphase : t.phase <;> rw [hphase] at hholds hend
    all_goals first | exact hholds | exact hend

end Calls

/-! ## Two runs -/

/-- Two processes both create, and the second to insert releases what it created. -/
def twoProcesses : List (Pool.Action CallAction ℕ) :=
  [.env 0, .env 1, .task 0 .proceed, .task 1 .proceed, .task 0 .proceed, .task 1 .proceed,
    .task 0 (.create "w0"), .task 1 (.create "w1"), .task 0 .proceed, .task 1 .proceed,
    .task 1 .proceed, .task 0 .proceed, .task 0 .proceed, .task 0 .proceed]

theorem ensureChatWorkspace_iff_twoProcesses : ∃ w,
    Machine.run (Pool.step ensureChatWorkspace) (chatStart none) twoProcesses = some w ∧
    (w.shared.created, w.shared.mapping, w.shared.released) =
      (["w0", "w1"], some "w1", ["w0"]) ∧
    (∀ t ∈ w.tasks, ∀ id, t.phase = .returned id → w.shared.mapping = some id) ∧
    ∀ id ∈ w.shared.created, w.shared.mapping = some id ∨ id ∈ w.shared.released := by
  have hfaultless : Faultless (chatStart none) twoProcesses := by
    unfold Faultless
    decide +kernel
  refine ⟨_, rfl, by decide, (@ensureChatWorkspace_iff _ none twoProcesses rfl).1,
    ((@ensureChatWorkspace_iff _ none twoProcesses rfl).2.2 fun t ht => ?_).mpr hfaultless⟩
  rcases List.mem_cons.mp ht with rfl | ht
  · trivial
  · obtain rfl := List.mem_singleton.mp ht
    trivial

/-- The insert of the only call fails once the Manager has created the Workspace. -/
theorem not_ensureChatWorkspace_faultless : ∃ w,
    Machine.run (Pool.step ensureChatWorkspace) (chatStart none)
      [.env 0, .task 0 .proceed, .task 0 .proceed, .task 0 (.create "w0"), .task 0 .proceed,
        .task 0 (.fail false)] = some w ∧
    (∀ t ∈ w.tasks, t.phase.Over) ∧
    ¬ ∀ id ∈ w.shared.created, w.shared.mapping = some id ∨ id ∈ w.shared.released := by
  refine ⟨_, rfl, fun t ht => ?_, fun hall => ?_⟩
  · obtain rfl := List.mem_singleton.mp ht
    trivial
  · have hmapped := hall "w0" (List.mem_singleton_self _)
    revert hmapped
    decide

end CodexGateway.OpenWebui
