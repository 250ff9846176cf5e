import CodexGateway.OpenWebui.ChatWorkspace

/-!
# OpenWebui/DeletedChat — a chat is deleted while its Workspace is being ensured

`release_chat_workspace` reads the mapping of the chat, has the Workspace released, and deletes the
row if it still maps that Workspace.  The calls of `ensure_chat_workspace` do not know of it: they
may create while the row is being deleted, and insert where it was.

**The row goes after its Workspace** (`releaseChatWorkspace_iff`): a Workspace that was mapped is
mapped or released ever after, so that a deletion, wherever it is broken off, leaves none behind; it
is the calls that may, as before.  A row that maps a released Workspace is one whose deletion has
still to delete it, or was broken off before it did.
-/

namespace CodexGateway.OpenWebui

/-! ## The deletion -/

/-- What `release_chat_workspace` awaits: the read, the request that releases, and the delete;
`unfinished` is broken off between the last two. -/
inductive DeletionPhase where
  | read
  | release (workspaceId : String)
  | delete (workspaceId : String)
  | unfinished (workspaceId : String)
  | ended
  deriving DecidableEq

/-- What is awaited returns; or it raises or is cancelled, done or not. -/
inductive DeletionAction where
  | proceed
  | fail (done : Bool)

namespace DeletionPhase

variable (s : WorkspaceState)

/-- What the awaited call does to the chat; the delete is of the row of this Workspace. -/
def effect : DeletionPhase → WorkspaceState
  | .release id => { s with released := s.released ++ [id] }
  | .delete id => { s with mapping := if s.mapping = some id then none else s.mapping }
  | .read | .unfinished _ | .ended => s

/-- `release_chat_workspace`, from one awaited call to the next. -/
def act (p : DeletionPhase) : DeletionAction → Option (WorkspaceState × DeletionPhase)
  | .proceed =>
    match p with
    | .read => some (s, s.mapping.elim .ended .release)
    | .release id => some (p.effect s, .delete id)
    | .delete _ => some (p.effect s, .ended)
    | .unfinished _ | .ended => none
  | .fail done =>
    match p with
    | .read => some (s, .ended)
    | .release id => some (if done then (p.effect s, .unfinished id) else (s, .ended))
    | .delete id => some (if done then (p.effect s, .ended) else (s, .unfinished id))
    | .unfinished _ | .ended => none

end DeletionPhase

/-- What works on the chat. -/
inductive ChatTask where
  | ensure (call : WorkspaceCall)
  | deletion (phase : DeletionPhase)

/-- What a call or a deletion does. -/
inductive ChatAction where
  | ensure (a : CallAction)
  | deletion (a : DeletionAction)

/-- What reaches the bridge from outside. -/
inductive ChatRequest where
  | ensure (process : ℕ)
  | delete

namespace ChatTask

/-- A task goes on. -/
def act (s : WorkspaceState) : ChatTask → ChatAction → Option (WorkspaceState × ChatTask)
  | .ensure t, .ensure a => (t.act s a).map fun r => (r.1, .ensure r.2)
  | .deletion p, .deletion a => (p.act s a).map fun r => (r.1, .deletion r.2)
  | .ensure _, .deletion _ | .deletion _, .ensure _ => none

/-- A task as it starts. -/
def start : ChatRequest → ChatTask
  | .ensure process => .ensure (.start process)
  | .delete => .deletion .read

/-- The id that the task has given out. -/
def workspaceId : ChatTask → Option String
  | .ensure t => t.workspaceId
  | .deletion _ => none

end ChatTask

/-- The calls and the deletions of one chat, in any number of processes. -/
def releaseChatWorkspace : Pool.Program WorkspaceState ChatTask ChatAction ChatRequest where
  act := ChatTask.act
  env s request := some (s, [.start request])

/-- A chat that has a Workspace, or has none. -/
def savedChat (mapping : Option String) : Pool WorkspaceState ChatTask :=
  ⟨(chatStart mapping).shared, []⟩

/-! ## What is meant -/

/-- The Workspace is mapped, or released. -/
def Claimed (s : WorkspaceState) (id : String) : Prop := s.mapping = some id ∨ id ∈ s.released

/-- The deletion has had the Workspace released, and its row is not deleted. -/
def DeletionPhase.Pending (id : String) : DeletionPhase → Prop
  | .delete own | .unfinished own => own = id
  | .read | .release _ | .ended => False

/-- The deletion of the Workspace is still to come. -/
def ChatTask.Pending (id : String) : ChatTask → Prop
  | .ensure _ => False
  | .deletion p => p.Pending id

/-- A call leaves no Workspace behind; a deletion may fail anywhere. -/
def LeavesNoWorkspace (s : WorkspaceState) : ChatTask → ChatAction → Prop
  | .ensure t, .ensure a => LeavesNothing s t a
  | _, _ => True

instance (s : WorkspaceState) : ∀ (t : ChatTask) (a : ChatAction),
    Decidable (LeavesNoWorkspace s t a)
  | .ensure t, .ensure a => inferInstanceAs (Decidable (LeavesNothing s t a))
  | .ensure _, .deletion _ | .deletion _, .ensure _ | .deletion _, .deletion _ => .isTrue trivial

/-- What holds of a call in each of its phases. -/
def WorkspaceCall.Fits (s : WorkspaceState) (t : WorkspaceCall) : Prop :=
  match t.phase with
  | .first | .lock | .again => t.workspaceId = none
  | .create => ∃ id, t.workspaceId = some id ∧ id ∉ s.created ∧ ¬ Claimed s id
  | .insert | .winner => ∃ id, t.workspaceId = some id ∧ id ∈ s.created ∧ ¬ Claimed s id
  | .release winner => (∃ id, t.workspaceId = some id ∧ id ∈ s.created ∧ ¬ Claimed s id) ∧
      ∀ id, winner = some id → Claimed s id
  | .returned id => Claimed s id
  | .raised => True

/-- …and of a deletion. -/
def DeletionPhase.Fits (s : WorkspaceState) : DeletionPhase → Prop
  | .release id => Claimed s id
  | .delete id | .unfinished id => id ∈ s.released
  | .read | .ended => True

/-- What a task holds is as the stores have it. -/
def ChatTask.Fits (s : WorkspaceState) : ChatTask → Prop
  | .ensure t => t.Fits s
  | .deletion p => p.Fits s

/-- A Workspace that was created for the task is mapped, released, or held by the task. -/
def ChatTask.Accounts (s : WorkspaceState) : ChatTask → Prop
  | .ensure t => t.Accounts s
  | .deletion _ => True

/-- The Workspace is created, and is claimed, where it was. -/
structure Kept (id : String) (s s' : WorkspaceState) : Prop where
  created : id ∈ s'.created ↔ id ∈ s.created
  claimed : Claimed s' id ↔ Claimed s id

/-- What a step of a task does. -/
structure ChatSteps (s : WorkspaceState) (t : ChatTask) (s' : WorkspaceState) (t' : ChatTask) :
    Prop where
  kept : ∀ id, t'.workspaceId ≠ some id → Kept id s s'
  workspaceId : t'.workspaceId = t.workspaceId ∧ s'.seen = s.seen ∨
    ∃ id, t.workspaceId = none ∧ t'.workspaceId = some id ∧ id ∉ s.seen ∧ s'.seen = id :: s.seen
  claimed : ∀ id, Claimed s id → Claimed s' id
  released : ∀ id ∈ s.released, id ∈ s'.released
  fits : t'.Fits s'
  stale : ∀ id, s'.mapping = some id → id ∈ s'.released →
    t'.Pending id ∨ s.mapping = some id ∧ id ∈ s.released ∧ ¬ t.Pending id

/-! ## A step of a call -/

section Ensure

variable {s s' : WorkspaceState} {t t' : WorkspaceCall} {a : CallAction} {id : String}

theorem unclaimed_iff : Unclaimed s id ↔ ¬ Claimed s id :=
  ⟨fun h => not_or.mpr ⟨h.mapping, h.released⟩, fun h => ⟨(not_or.mp h).1, (not_or.mp h).2⟩⟩

theorem Untouched.claimed (h : Untouched id s s') : Claimed s' id ↔ Claimed s id :=
  or_congr h.mapping h.released

/-- The call is about to have its own Workspace released, because the chat has another. -/
def CallPhase.Releases : CallPhase → Prop
  | .release _ => True
  | _ => False

theorem WorkspaceCall.Fits.sound (h : t.Fits s) (hphase : ¬ t.phase.Releases)
    (hover : ¬ t.phase.Over) : t.Sound s := by
  unfold WorkspaceCall.Fits at h
  unfold WorkspaceCall.Sound
  cases hp : t.phase <;> simp only [hp] at h hphase hover ⊢
  case first | lock | again => exact h
  case create | insert | winner =>
    obtain ⟨id, hid, hcreated, hunclaimed⟩ := h
    exact ⟨id, hid, hcreated, unclaimed_iff.mpr hunclaimed⟩
  case release => exact absurd trivial hphase
  case returned => exact absurd trivial hover

theorem WorkspaceCall.Sound.fits (h : t.Sound s) : t.Fits s := by
  unfold WorkspaceCall.Sound at h
  unfold WorkspaceCall.Fits
  cases hp : t.phase <;> simp only [hp] at h ⊢
  case first | lock | again => exact h
  case create | insert | winner =>
    obtain ⟨id, hid, hcreated, hunclaimed⟩ := h
    exact ⟨id, hid, hcreated, unclaimed_iff.mp hunclaimed⟩
  case release =>
    obtain ⟨⟨id, hid, hcreated, hunclaimed⟩, hwinner⟩ := h
    exact ⟨⟨id, hid, hcreated, unclaimed_iff.mp hunclaimed⟩, fun id hid => .inl (hwinner id hid)⟩
  case returned => exact .inl h

/-- A step leaves the chat as it is, or does what was awaited. -/
theorem act_effect (hact : t.act s a = some (s', t')) :
    (s'.created = s.created ∧ s'.mapping = s.mapping ∧ s'.released = s.released) ∨
    (s'.created = (t.effect s).created ∧ s'.mapping = (t.effect s).mapping ∧
      s'.released = (t.effect s).released) := by
  cases a with
  | proceed =>
    simp only [WorkspaceCall.act, WorkspaceCall.proceed] at hact
    cases hphase : t.phase <;> simp only [hphase] at hact
    case first | insert =>
      split at hact <;> cases hact
      all_goals first | exact .inl ⟨rfl, rfl, rfl⟩ | exact .inr ⟨rfl, rfl, rfl⟩
    case lock =>
      split_ifs at hact
      cases hact
      exact .inl ⟨rfl, rfl, rfl⟩
    case again =>
      obtain ⟨existing, -, hact⟩ := Option.map_eq_some_iff.mp hact
      cases hact
      exact .inl ⟨rfl, rfl, rfl⟩
    case create | release =>
      cases hact
      exact .inr ⟨rfl, rfl, rfl⟩
    case winner =>
      cases hact
      exact .inl ⟨rfl, rfl, rfl⟩
    all_goals cases hact
  | create id =>
    rw [WorkspaceCall.act] at hact
    split_ifs at hact
    cases hact
    exact .inl ⟨rfl, rfl, rfl⟩
  | fail done =>
    simp only [WorkspaceCall.act] at hact
    cases hphase : t.phase <;> simp only [hphase] at hact
    case returned | raised => cases hact
    case first | lock =>
      cases hact
      exact .inl ⟨rfl, rfl, rfl⟩
    all_goals
      cases hact
      cases done
      · exact .inl ⟨rfl, rfl, rfl⟩
      · exact .inr ⟨rfl, rfl, rfl⟩

/-- **A Workspace is mapped or released ever after.** -/
theorem claimed_effect (h : Claimed s id) : Claimed (t.effect s) id := by
  unfold WorkspaceCall.effect
  split
  · exact h
  · refine h.imp_left fun hmapping => ?_
    simp [hmapping]
  · exact h.imp_right fun hreleased => List.mem_append_left _ hreleased
  · exact h

theorem released_effect (h : id ∈ s.released) : id ∈ (t.effect s).released := by
  unfold WorkspaceCall.effect
  split
  · exact h
  · exact h
  · exact List.mem_append_left _ h
  · exact h

/-- A Workspace that a call maps has not been released, nor is one mapped that it has released. -/
theorem stale_effect (hfits : t.Fits s) (hmapping : (t.effect s).mapping = some id)
    (hreleased : id ∈ (t.effect s).released) : s.mapping = some id ∧ id ∈ s.released := by
  unfold WorkspaceCall.Fits at hfits
  unfold WorkspaceCall.effect at hmapping hreleased
  split at hmapping
  · rename_i own hid hphase
    exact ⟨hmapping, by simpa [hid, hphase] using hreleased⟩
  · rename_i own hid hphase
    rw [hphase] at hfits
    obtain ⟨own', hown, -, hunclaimed⟩ := hfits
    obtain rfl := Option.some.inj (hid.symm.trans hown)
    refine ⟨?_, by simpa [hid, hphase] using hreleased⟩
    cases hcase : s.mapping with
    | some other => simpa [hcase] using hmapping
    | none =>
      obtain rfl : own = id := by simpa [hcase] using hmapping
      exact absurd (.inr (by simpa [hid, hphase] using hreleased)) hunclaimed
  · rename_i own winner hid hphase
    rw [hphase] at hfits
    obtain ⟨⟨own', hown, -, hunclaimed⟩, -⟩ := hfits
    obtain rfl := Option.some.inj (hid.symm.trans hown)
    refine ⟨hmapping, ?_⟩
    have hmem : id ∈ s.released ∨ id = own := by simpa [hid, hphase] using hreleased
    rcases hmem with hmem | rfl
    · exact hmem
    · exact absurd (.inl hmapping) hunclaimed
  · rename_i hcreate hinsert hrelease
    refine ⟨hmapping, ?_⟩
    split at hreleased
    · exact hreleased
    · exact hreleased
    · rename_i own winner hid hphase
      exact absurd hphase (hrelease own winner hid)
    · exact hreleased

/-- What does not depend on the phase. -/
theorem claimed_act (hact : t.act s a = some (s', t')) (h : Claimed s id) : Claimed s' id := by
  rcases act_effect hact with ⟨-, hmapping, hreleased⟩ | ⟨-, hmapping, hreleased⟩
  · rwa [Claimed, hmapping, hreleased]
  · rw [Claimed, hmapping, hreleased]
    exact claimed_effect h

theorem kept_act (hact : t.act s a = some (s', t')) (hid : t.workspaceId ≠ some id) :
    Kept id s s' := by
  have huntouched : Untouched id s s' := by
    rcases act_effect hact with ⟨hcreated, hmapping, hreleased⟩ | ⟨hcreated, hmapping, hreleased⟩
    · exact .of_eq hcreated hmapping hreleased
    · have heffect := untouched_effect (s := s) hid
      exact ⟨by rw [hcreated, heffect.created], by rw [hmapping, heffect.mapping],
        by rw [hreleased, heffect.released]⟩
  exact ⟨huntouched.created, huntouched.claimed⟩

/-- A call that releases returns the Workspace that it has found mapped. -/
theorem release_act {winner : Option String} (hphase : t.phase = .release winner)
    (hwinner : ∀ id, winner = some id → Claimed s id) (hact : t.act s a = some (s', t')) :
    (t'.workspaceId = t.workspaceId ∧ s'.seen = s.seen) ∧ t'.Fits s' := by
  have hclaimed := fun id (h : Claimed s id) => claimed_act hact h
  cases a with
  | proceed =>
    simp only [WorkspaceCall.act, WorkspaceCall.proceed, hphase] at hact
    cases hact
    refine ⟨⟨rfl, seen_effect⟩, ?_⟩
    cases winner with
    | none => trivial
    | some id => exact hclaimed id (hwinner id rfl)
  | create id =>
    rw [WorkspaceCall.act, if_neg (by simp [hphase])] at hact
    cases hact
  | fail done =>
    simp only [WorkspaceCall.act, hphase] at hact
    cases hact
    refine ⟨⟨rfl, ?_⟩, trivial⟩
    cases done
    · rfl
    · exact seen_effect

/-- **A step of a call keeps to its own Workspace**, whatever has been deleted. -/
theorem ensure_steps (hfits : t.Fits s)
    (hknown : ∀ id, id ∈ s.created ∨ Claimed s id → id ∈ s.seen)
    (hact : t.act s a = some (s', t')) : ChatSteps s (.ensure t) s' (.ensure t') := by
  have hreleased : ∀ id ∈ s.released, id ∈ s'.released := by
    intro id hid
    rcases act_effect hact with ⟨-, -, hreleased⟩ | ⟨-, -, hreleased⟩
    · rwa [hreleased]
    · rw [hreleased]
      exact released_effect hid
  have hstale : ∀ id, s'.mapping = some id → id ∈ s'.released →
      s.mapping = some id ∧ id ∈ s.released := by
    intro id hmap hrel
    rcases act_effect hact with ⟨-, hmapping, hreleased⟩ | ⟨-, hmapping, hreleased⟩
    · exact ⟨hmapping ▸ hmap, hreleased ▸ hrel⟩
    · exact stale_effect hfits (hmapping ▸ hmap) (hreleased ▸ hrel)
  have hown : (t'.workspaceId = t.workspaceId ∧ s'.seen = s.seen ∨ ∃ id, t.workspaceId = none ∧
      t'.workspaceId = some id ∧ id ∉ s.seen ∧ s'.seen = id :: s.seen) ∧ t'.Fits s' := by
    by_cases hreleases : t.phase.Releases
    · cases hphase : t.phase with
      | release winner =>
        rw [WorkspaceCall.Fits, hphase] at hfits
        obtain ⟨hsame, hfits'⟩ := release_act hphase hfits.2 hact
        exact ⟨.inl hsame, hfits'⟩
      | _ =>
        rw [hphase] at hreleases
        exact hreleases.elim
    · have hsteps := steps_of_act (hfits.sound hreleases (not_over_of_act hact)) hknown hact
      exact ⟨hsteps.workspaceId, hsteps.sound.fits⟩
  have hkept : ∀ id, t'.workspaceId ≠ some id → Kept id s s' := by
    intro id hid
    by_cases hnone : t.workspaceId = some id
    · rcases hown.1 with ⟨hsame, -⟩ | ⟨_, hfirst, -⟩
      · exact absurd (hsame.trans hnone) hid
      · exact absurd (hfirst.symm.trans hnone) (by simp)
    · exact kept_act hact hnone
  refine ⟨hkept, hown.1, fun id => claimed_act hact, hreleased, hown.2, fun id hmap hrel => ?_⟩
  obtain ⟨hmapping, hold⟩ := hstale id hmap hrel
  exact .inr ⟨hmapping, hold, not_false⟩

/-- **A call accounts for its Workspace exactly where it leaves none behind.** -/
theorem ensure_accounts_iff (hfits : t.Fits s)
    (hknown : ∀ id, id ∈ s.created ∨ Claimed s id → id ∈ s.seen)
    (hact : t.act s a = some (s', t')) :
    t'.Accounts s' ↔ t.Accounts s ∧ LeavesNothing s t a := by
  by_cases hreleases : t.phase.Releases
  · cases hphase : t.phase with
    | release winner =>
      rw [WorkspaceCall.Fits, hphase] at hfits
      obtain ⟨⟨id, hid, hcreated, hunclaimed⟩, -⟩ := hfits
      have hbefore : t.Accounts s := accounts_of_holds (by rw [hphase]; trivial)
      cases a with
      | proceed =>
        simp only [WorkspaceCall.act, WorkspaceCall.proceed, hphase] at hact
        cases hact
        refine iff_of_true (fun own hown _ => .inr (.inl ?_)) ⟨hbefore, trivial⟩
        have hid : t.workspaceId = some own := hown
        simp [WorkspaceCall.effect, hid, hphase]
      | create id =>
        rw [WorkspaceCall.act, if_neg (by simp [hphase])] at hact
        cases hact
      | fail done =>
        simp only [WorkspaceCall.act, hphase] at hact
        cases hact
        rw [LeavesNothing, hphase]
        cases done with
        | false =>
          exact (accounts_raised_iff hid hcreated).trans
            (iff_of_false hunclaimed fun h => Bool.false_ne_true h.2)
        | true =>
          refine (accounts_raised_iff (s := t.effect s) hid ?_).trans
            (iff_of_true ?_ ⟨hbefore, rfl⟩)
          · simpa [WorkspaceCall.effect, hid, hphase] using hcreated
          · exact .inr (by simp [WorkspaceCall.effect, hid, hphase])
    | _ =>
      rw [hphase] at hreleases
      exact hreleases.elim
  · exact accounts_iff (hfits.sound hreleases (not_over_of_act hact)) hknown hact

end Ensure

/-! ## A step of a deletion -/

section Deletion

variable {s s' : WorkspaceState} {p p' : DeletionPhase} {a : DeletionAction} {id : String}

/-- A Workspace that was mapped is released. -/
theorem claimed_release {own : String} (h : Claimed s own) :
    Claimed (DeletionPhase.effect s (.release own)) id ↔ Claimed s id := by
  have hmem : id ∈ s.released ++ [own] ↔ id ∈ s.released ∨ id = own := by simp
  refine (or_congr_right hmem).trans ⟨?_, fun h => h.imp_right .inl⟩
  rintro (hmapping | hreleased | rfl)
  · exact .inl hmapping
  · exact .inr hreleased
  · exact h

/-- The row of a Workspace that was released is deleted. -/
theorem claimed_delete {own : String} (h : own ∈ s.released) :
    Claimed (DeletionPhase.effect s (.delete own)) id ↔ Claimed s id := by
  have hmapping : (if s.mapping = some own then none else s.mapping) = some id ↔
      s.mapping = some id ∧ own ≠ id := by
    split_ifs with hown
    · simp only [false_iff, not_and, not_not, hown, Option.some.injEq]
      exact fun h => h
    · refine (and_iff_left_of_imp fun hid he => hown ?_).symm
      rw [he, hid]
  refine (or_congr_left hmapping).trans ⟨fun h => h.imp_left And.left, ?_⟩
  rintro (hid | hreleased)
  · by_cases he : own = id
    · exact .inr (he ▸ h)
    · exact .inl ⟨hid, he⟩
  · exact .inr hreleased

/-- **A deletion takes no Workspace from a call**: it releases what is mapped, and then deletes its
row. -/
theorem deletion_steps (hfits : p.Fits s) (hact : p.act s a = some (s', p')) :
    ChatSteps s (.deletion p) s' (.deletion p') := by
  have hsame {p' : DeletionPhase} (hfits' : p'.Fits s)
      (hpending : ∀ id, p.Pending id → p'.Pending id) :
      ChatSteps s (.deletion p) s (.deletion p') := by
    refine ⟨fun _ _ => ⟨Iff.rfl, Iff.rfl⟩, .inl ⟨rfl, rfl⟩, fun _ h => h, fun _ h => h, hfits',
      fun id hmapping hreleased => ?_⟩
    by_cases hp : p.Pending id
    · exact .inl (hpending id hp)
    · exact .inr ⟨hmapping, hreleased, hp⟩
  cases p with
  | read =>
    cases a with
    | proceed =>
      cases hact
      refine hsame ?_ fun _ h => h.elim
      cases hmapping : s.mapping with
      | none => trivial
      | some id => exact .inl hmapping
    | fail done =>
      cases hact
      exact hsame trivial fun _ h => h.elim
  | release own =>
    have hdone {p' : DeletionPhase} (hp' : p' = .delete own ∨ p' = .unfinished own) :
        ChatSteps s (.deletion (.release own)) (DeletionPhase.effect s (.release own))
          (.deletion p') := by
      refine ⟨fun _ _ => ⟨Iff.rfl, claimed_release hfits⟩, .inl ⟨rfl, rfl⟩,
        fun _ => (claimed_release hfits).mpr, fun _ h => List.mem_append_left _ h, ?_,
        fun id hmapping hreleased => ?_⟩
      · rcases hp' with rfl | rfl
        all_goals exact List.mem_append_right _ (List.mem_singleton_self own)
      · rcases List.mem_append.mp hreleased with hold | hnew
        · exact .inr ⟨hmapping, hold, not_false⟩
        · obtain rfl := List.mem_singleton.mp hnew
          rcases hp' with rfl | rfl
          all_goals exact .inl rfl
    cases a with
    | proceed =>
      cases hact
      exact hdone (.inl rfl)
    | fail done =>
      cases done with
      | false =>
        cases hact
        exact hsame trivial fun _ h => h.elim
      | true =>
        cases hact
        exact hdone (.inr rfl)
  | delete own =>
    have hdone : ChatSteps s (.deletion (.delete own)) (DeletionPhase.effect s (.delete own))
        (.deletion .ended) := by
      refine ⟨fun _ _ => ⟨Iff.rfl, claimed_delete hfits⟩, .inl ⟨rfl, rfl⟩,
        fun _ => (claimed_delete hfits).mpr, fun _ h => h, trivial,
        fun id hmapping hreleased => .inr ?_⟩
      simp only [DeletionPhase.effect] at hmapping
      split_ifs at hmapping with hown
      exact ⟨hmapping, hreleased, fun he => hown (hmapping.trans (congrArg some he.symm))⟩
    cases a with
    | proceed =>
      cases hact
      exact hdone
    | fail done =>
      cases done with
      | false =>
        cases hact
        exact hsame hfits fun _ h => h
      | true =>
        cases hact
        exact hdone
  | unfinished own => cases a <;> cases hact
  | ended => cases a <;> cases hact

end Deletion

/-! ## All tasks -/

/-- What holds of the chat and all that works on it. -/
structure SavedChat (w : Pool WorkspaceState ChatTask) : Prop where
  apart : Pool.Apart ChatTask.workspaceId w.tasks
  seen : ∀ t ∈ w.tasks, ∀ id, t.workspaceId = some id → id ∈ w.shared.seen
  known : ∀ id, id ∈ w.shared.created ∨ Claimed w.shared id → id ∈ w.shared.seen
  fits : ∀ t ∈ w.tasks, t.Fits w.shared
  owned : ∀ id ∈ w.shared.created, Claimed w.shared id ∨ ∃ t ∈ w.tasks, t.workspaceId = some id
  stale : ∀ id, w.shared.mapping = some id → id ∈ w.shared.released → ∃ t ∈ w.tasks, t.Pending id

theorem savedChat_start (mapping : Option String) : SavedChat (savedChat mapping) where
  apart := Pool.apart_nil
  seen _ ht := absurd ht List.not_mem_nil
  known id h := by
    rcases h with h | h | h
    · exact h
    · exact Option.mem_toList.mpr h
    · exact absurd h List.not_mem_nil
  fits _ ht := absurd ht List.not_mem_nil
  owned _ h := .inl (.inl (Option.mem_toList.mp h))
  stale _ _ h := absurd h List.not_mem_nil

section Tasks

variable {w w' : Pool WorkspaceState ChatTask} {s s' : WorkspaceState} {t t' u : ChatTask}
  {i j : ℕ} {id : String}

/-- What a task is fit for does not change while its Workspace is kept. -/
theorem ChatTask.Fits.stable (h : u.Fits s) (hkept : ∀ id, u.workspaceId = some id → Kept id s s')
    (hclaimed : ∀ id, Claimed s id → Claimed s' id)
    (hreleased : ∀ id ∈ s.released, id ∈ s'.released) : u.Fits s' := by
  cases u with
  | deletion p =>
    cases p with
    | release id => exact hclaimed id h
    | delete id | unfinished id => exact hreleased id h
    | read | ended => trivial
  | ensure u =>
    have hworkspace (h : ∃ id, u.workspaceId = some id ∧ id ∈ s.created ∧ ¬ Claimed s id) :
        ∃ id, u.workspaceId = some id ∧ id ∈ s'.created ∧ ¬ Claimed s' id := by
      obtain ⟨id, hid, hcreated, hunclaimed⟩ := h
      have hsame := hkept id hid
      exact ⟨id, hid, hsame.created.mpr hcreated, mt hsame.claimed.mp hunclaimed⟩
    change WorkspaceCall.Fits s u at h
    change WorkspaceCall.Fits s' u
    unfold WorkspaceCall.Fits at h ⊢
    cases hphase : u.phase <;> simp only [hphase] at h ⊢
    case create =>
      obtain ⟨id, hid, hcreated, hunclaimed⟩ := h
      have hsame := hkept id hid
      exact ⟨id, hid, mt hsame.created.mp hcreated, mt hsame.claimed.mp hunclaimed⟩
    case insert | winner => exact hworkspace h
    case release => exact ⟨hworkspace h.1, fun id hid => hclaimed id (h.2 id hid)⟩
    case returned => exact hclaimed _ h
    all_goals exact h

theorem ChatTask.Accounts.kept_iff (h : ∀ id, u.workspaceId = some id → Kept id s s') :
    u.Accounts s' ↔ u.Accounts s := by
  cases u with
  | deletion p => exact Iff.rfl
  | ensure u =>
    refine forall_congr' fun id => forall_congr' fun hid => ?_
    have hsame := h id hid
    refine imp_congr hsame.created ?_
    rw [← or_assoc, ← or_assoc]
    exact or_congr_left hsame.claimed

/-- A step of a task of the chat, and when it keeps account. -/
theorem chatSteps_of_act {a : ChatAction} (hfits : t.Fits s)
    (hknown : ∀ id, id ∈ s.created ∨ Claimed s id → id ∈ s.seen)
    (hact : t.act s a = some (s', t')) :
    ChatSteps s t s' t' ∧ (t'.Accounts s' ↔ t.Accounts s ∧ LeavesNoWorkspace s t a) := by
  cases t with
  | ensure t =>
    cases a with
    | deletion a => cases hact
    | ensure a =>
      obtain ⟨r, hr, heq⟩ := Option.map_eq_some_iff.mp hact
      obtain ⟨rfl, rfl⟩ := Prod.mk.inj heq
      exact ⟨ensure_steps hfits hknown hr, ensure_accounts_iff hfits hknown hr⟩
  | deletion p =>
    cases a with
    | ensure a => cases hact
    | deletion a =>
      obtain ⟨r, hr, heq⟩ := Option.map_eq_some_iff.mp hact
      obtain ⟨rfl, rfl⟩ := Prod.mk.inj heq
      exact ⟨deletion_steps hfits hr, iff_of_true trivial ⟨trivial, trivial⟩⟩

/-- Another task has another Workspace. -/
theorem SavedChat.ne_workspaceId (h : SavedChat w) (hi : w.tasks[i]? = some t)
    (hsteps : ChatSteps w.shared t s' t') (hj : w.tasks[j]? = some u) (hij : i ≠ j)
    (hu : u.workspaceId = some id) : t'.workspaceId ≠ some id := by
  intro ht'
  rcases hsteps.workspaceId with ⟨hsame, -⟩ | ⟨fresh, -, hid, hfresh, -⟩
  · exact hij (h.apart i j t u id hi hj (hsame.symm.trans ht') hu)
  · obtain rfl := Option.some.inj (hid.symm.trans ht')
    exact hfresh (h.seen u (List.mem_of_getElem? hj) fresh hu)

theorem ChatSteps.seen_subset (h : ChatSteps w.shared t s' t') (hid : id ∈ w.shared.seen) :
    id ∈ s'.seen := by
  rcases h.workspaceId with ⟨-, hseen⟩ | ⟨fresh, -, -, -, hseen⟩
  · exact hseen ▸ hid
  · exact hseen ▸ List.mem_cons_of_mem _ hid

theorem SavedChat.seen_own (h : SavedChat w) (hi : w.tasks[i]? = some t)
    (hsteps : ChatSteps w.shared t s' t') (hid : t'.workspaceId = some id) : id ∈ s'.seen := by
  rcases hsteps.workspaceId with ⟨hsame, hseen⟩ | ⟨fresh, -, hfresh, -, hseen⟩
  · exact hseen ▸ h.seen t (List.mem_of_getElem? hi) id (hsame ▸ hid)
  · obtain rfl := Option.some.inj (hfresh.symm.trans hid)
    exact hseen ▸ List.mem_cons_self

/-- Every other task is where it was. -/
theorem mem_set_of_ne {u : ChatTask} (hj : w.tasks[j]? = some u) (hij : i ≠ j) :
    u ∈ w.tasks.set i t' :=
  List.mem_iff_getElem?.mpr ⟨j, (List.getElem?_set_ne hij).trans hj⟩

theorem SavedChat.set (h : SavedChat w) (hi : w.tasks[i]? = some t)
    (hsteps : ChatSteps w.shared t s' t') : SavedChat ⟨s', w.tasks.set i t'⟩ where
  apart := h.apart.set hi fun id hid => by
    rcases hsteps.workspaceId with ⟨hsame, -⟩ | ⟨fresh, -, hfresh, hunseen, -⟩
    · exact .inl (hsame.symm.trans hid)
    · obtain rfl := Option.some.inj (hfresh.symm.trans hid)
      exact .inr fun u hu hid => hunseen (h.seen u hu _ hid)
  seen u hu id hid := by
    rcases List.mem_or_eq_of_mem_set hu with hu | rfl
    · exact hsteps.seen_subset (h.seen u hu id hid)
    · exact h.seen_own hi hsteps hid
  known id hid := by
    by_cases hown : t'.workspaceId = some id
    · exact h.seen_own hi hsteps hown
    · have hsame := hsteps.kept id hown
      rw [hsame.created, hsame.claimed] at hid
      exact hsteps.seen_subset (h.known id hid)
  fits u hu := by
    obtain ⟨j, hj⟩ := List.mem_iff_getElem?.mp hu
    rw [List.getElem?_set] at hj
    split_ifs at hj with hij
    · obtain rfl := Option.some.inj hj
      exact hsteps.fits
    · refine (h.fits u (List.mem_of_getElem? hj)).stable (fun id hid => ?_) hsteps.claimed
        hsteps.released
      exact hsteps.kept id (h.ne_workspaceId hi hsteps hj hij hid)
  owned id hid := by
    have hlt : i < w.tasks.length := (List.getElem?_eq_some_iff.mp hi).1
    by_cases hown : t'.workspaceId = some id
    · exact .inr ⟨t', List.mem_set hlt t', hown⟩
    rcases h.owned id ((hsteps.kept id hown).created.mp hid) with hclaimed | ⟨u, hu, huid⟩
    · exact .inl (hsteps.claimed id hclaimed)
    obtain ⟨j, hj⟩ := List.mem_iff_getElem?.mp hu
    by_cases hij : i = j
    · subst hij
      obtain rfl := Option.some.inj (hi.symm.trans hj)
      rcases hsteps.workspaceId with ⟨hsame, -⟩ | ⟨-, hnone, -⟩
      · exact absurd (hsame.trans huid) hown
      · exact absurd (hnone.symm.trans huid) (by simp)
    · exact .inr ⟨u, mem_set_of_ne hj hij, huid⟩
  stale id hmapping hreleased := by
    have hlt : i < w.tasks.length := (List.getElem?_eq_some_iff.mp hi).1
    rcases hsteps.stale id hmapping hreleased with hpending | ⟨hmap, hrel, hnot⟩
    · exact ⟨t', List.mem_set hlt t', hpending⟩
    · obtain ⟨u, hu, hpending⟩ := h.stale id hmap hrel
      obtain ⟨j, hj⟩ := List.mem_iff_getElem?.mp hu
      have hij : i ≠ j := fun hij => by
        subst hij
        obtain rfl := Option.some.inj (hi.symm.trans hj)
        exact hnot hpending
      exact ⟨u, mem_set_of_ne hj hij, hpending⟩

theorem SavedChat.append (h : SavedChat w) (request : ChatRequest) :
    SavedChat ⟨w.shared, w.tasks ++ [.start request]⟩ where
  apart := h.apart.append fun t ht => by
    obtain rfl := List.mem_singleton.mp ht
    cases request <;> rfl
  seen t ht id hid := by
    rcases List.mem_append.mp ht with ht | ht
    · exact h.seen t ht id hid
    · obtain rfl := List.mem_singleton.mp ht
      cases request <;> cases hid
  known := h.known
  fits t ht := by
    rcases List.mem_append.mp ht with ht | ht
    · exact h.fits t ht
    · obtain rfl := List.mem_singleton.mp ht
      cases request with
      | ensure process => exact (rfl : (WorkspaceCall.start process).workspaceId = none)
      | delete => trivial
  owned id hid := (h.owned id hid).imp_right fun ⟨t, ht, htid⟩ =>
    ⟨t, List.mem_append_left _ ht, htid⟩
  stale id hmapping hreleased :=
    let ⟨t, ht, hpending⟩ := h.stale id hmapping hreleased
    ⟨t, List.mem_append_left _ ht, hpending⟩

/-- Every task accounts for its Workspace. -/
def TasksAccount (w : Pool WorkspaceState ChatTask) : Prop := ∀ t ∈ w.tasks, t.Accounts w.shared

/-- The other tasks account for theirs as before. -/
theorem SavedChat.tasksAccount_set (h : SavedChat w) (hi : w.tasks[i]? = some t)
    (hsteps : ChatSteps w.shared t s' t') {p : Prop}
    (hown : t'.Accounts s' ↔ t.Accounts w.shared ∧ p) :
    TasksAccount ⟨s', w.tasks.set i t'⟩ ↔ TasksAccount w ∧ p := by
  have hlt : i < w.tasks.length := (List.getElem?_eq_some_iff.mp hi).1
  have hother {j : ℕ} {u : ChatTask} (hj : w.tasks[j]? = some u) (hij : i ≠ j) :
      u.Accounts s' ↔ u.Accounts w.shared :=
    ChatTask.Accounts.kept_iff fun id hid =>
      hsteps.kept id (h.ne_workspaceId hi hsteps hj hij hid)
  constructor
  · intro hall
    have hnew := hown.mp (hall t' (List.mem_set hlt t'))
    refine ⟨fun u hu => ?_, hnew.2⟩
    obtain ⟨j, hj⟩ := List.mem_iff_getElem?.mp hu
    by_cases hij : i = j
    · subst hij
      obtain rfl := Option.some.inj (hi.symm.trans hj)
      exact hnew.1
    · exact (hother hj hij).mp (hall u (mem_set_of_ne hj hij))
  · rintro ⟨hall, hp⟩ u hu
    obtain ⟨j, hj⟩ := List.mem_iff_getElem?.mp hu
    rw [List.getElem?_set] at hj
    split_ifs at hj with hij
    · obtain rfl := Option.some.inj hj
      exact hown.mpr ⟨hall t (List.mem_of_getElem? hi), hp⟩
    · exact (hother hj hij).mpr (hall u (List.mem_of_getElem? hj))

/-- **A step keeps account exactly where a call leaves nothing behind.** -/
theorem SavedChat.step (h : SavedChat w) {a : Pool.Action ChatAction ChatRequest}
    (hstep : Pool.step releaseChatWorkspace w a = some w') :
    SavedChat w' ∧ (TasksAccount w' ↔
      TasksAccount w ∧ Pool.stepCond LeavesNoWorkspace (fun _ _ => True) w a) := by
  cases a with
  | task i a =>
    obtain ⟨t, s', t', hi, hact, rfl⟩ := Pool.step_task.mp hstep
    obtain ⟨hsteps, haccounts⟩ := chatSteps_of_act (h.fits t (List.mem_of_getElem? hi)) h.known hact
    refine ⟨h.set hi hsteps, (h.tasksAccount_set hi hsteps haccounts).trans
      (and_congr_right fun _ => ?_)⟩
    exact ⟨fun hleaves u hu => Option.some.inj (hi.symm.trans hu) ▸ hleaves,
      fun hleaves => hleaves t hi⟩
  | env request =>
    obtain ⟨s, ts, henv, rfl⟩ := Pool.step_env.mp hstep
    cases henv
    refine ⟨h.append request, ⟨fun hall => ⟨fun t ht => hall t (List.mem_append_left _ ht),
      trivial⟩, fun hall t ht => ?_⟩⟩
    rcases List.mem_append.mp ht with ht | ht
    · exact hall.1 t ht
    · obtain rfl := List.mem_singleton.mp ht
      cases request with
      | ensure process => exact accounts_of_none rfl
      | delete => trivial

/-- A run in which no call leaves a Workspace behind. -/
def NothingLeft (w : Pool WorkspaceState ChatTask)
    (as : List (Pool.Action ChatAction ChatRequest)) : Prop :=
  Machine.Meets (Pool.step releaseChatWorkspace)
    (Pool.stepCond LeavesNoWorkspace fun _ _ => True) w as

theorem savedChat_of_run {mapping : Option String}
    {as : List (Pool.Action ChatAction ChatRequest)}
    (hrun : Machine.run (Pool.step releaseChatWorkspace) (savedChat mapping) as = some w) :
    SavedChat w :=
  Machine.run_keeps (fun _ _ _ h hstep => (h.step hstep).1) hrun (savedChat_start mapping)

/-- **The row goes after its Workspace.**  In every run of calls and deletions, interleaved and
failing anywhere: a call returns a Workspace that is mapped or has been released since; a row maps
a released Workspace only where a deletion has still to delete it, or was broken off before it did;
and every Workspace that was created is mapped, released or held by a call exactly in the runs in
which no call leaves one behind, whatever the deletions do. -/
theorem releaseChatWorkspace_iff {mapping : Option String}
    {as : List (Pool.Action ChatAction ChatRequest)}
    (hrun : Machine.run (Pool.step releaseChatWorkspace) (savedChat mapping) as = some w) :
    (∀ t, .ensure t ∈ w.tasks → ∀ id, t.phase = .returned id →
      w.shared.mapping = some id ∨ id ∈ w.shared.released) ∧
    (∀ id, w.shared.mapping = some id → id ∈ w.shared.released →
      .deletion (.delete id) ∈ w.tasks ∨ .deletion (.unfinished id) ∈ w.tasks) ∧
    ((∀ id ∈ w.shared.created, w.shared.mapping = some id ∨ id ∈ w.shared.released ∨
        ∃ t, .ensure t ∈ w.tasks ∧ t.workspaceId = some id ∧ t.phase.Holds) ↔
      NothingLeft (savedChat mapping) as) := by
  have h := savedChat_of_run hrun
  have hnothing : TasksAccount w ↔ NothingLeft (savedChat mapping) as := by
    have hiff := Machine.run_iff_meets (fun _ _ _ h hstep => SavedChat.step h hstep) hrun
      (savedChat_start mapping)
    exact hiff.trans ⟨fun hall => hall.2,
      fun hmeets => ⟨fun t ht => absurd ht List.not_mem_nil, hmeets⟩⟩
  refine ⟨fun t ht id hphase => ?_, fun id hmapping hreleased => ?_, Iff.trans ⟨fun hall => ?_,
    fun hall id hcreated => ?_⟩ hnothing⟩
  · have hfits : t.Fits w.shared := h.fits _ ht
    rwa [WorkspaceCall.Fits, hphase] at hfits
  · obtain ⟨t, ht, hpending⟩ := h.stale id hmapping hreleased
    cases t with
    | ensure t => exact hpending.elim
    | deletion p =>
      cases p with
      | delete own =>
        obtain rfl : own = id := hpending
        exact .inl ht
      | unfinished own =>
        obtain rfl : own = id := hpending
        exact .inr ht
      | read | release _ | ended => exact hpending.elim
  · intro t ht
    cases t with
    | deletion p => trivial
    | ensure t =>
      intro id hid hcreated
      refine (hall id hcreated).imp_right (Or.imp_right fun ⟨u, hu, huid, hholds⟩ => ?_)
      obtain ⟨i, hi⟩ := List.mem_iff_getElem?.mp ht
      obtain ⟨j, hj⟩ := List.mem_iff_getElem?.mp hu
      obtain rfl := h.apart i j _ _ id hi hj hid huid
      obtain rfl := ChatTask.ensure.inj (Option.some.inj (hi.symm.trans hj))
      exact hholds
  · rcases h.owned id hcreated with hclaimed | ⟨t, ht, hid⟩
    · exact hclaimed.imp_right .inl
    · cases t with
      | deletion p => cases hid
      | ensure t =>
        exact (hall _ ht id hid hcreated).imp_right (Or.imp_right fun hholds =>
          ⟨t, ht, hid, hholds⟩)

end Tasks

/-! ## A run -/

/-- The chat is deleted while it has the Workspace `w0`, which a call still returns, and is then
given another. -/
def recreated : List (Pool.Action ChatAction ChatRequest) :=
  [.env (.ensure 0), .task 0 (.ensure .proceed), .task 0 (.ensure .proceed),
    .task 0 (.ensure (.create "w0")), .task 0 (.ensure .proceed), .task 0 (.ensure .proceed),
    .env .delete, .task 1 (.deletion .proceed), .task 1 (.deletion .proceed),
    .env (.ensure 1), .task 2 (.ensure .proceed), .task 1 (.deletion .proceed),
    .env (.ensure 0), .task 3 (.ensure .proceed), .task 3 (.ensure .proceed),
    .task 3 (.ensure (.create "w1")), .task 3 (.ensure .proceed), .task 3 (.ensure .proceed)]

theorem releaseChatWorkspace_iff_recreated : ∃ w,
    Machine.run (Pool.step releaseChatWorkspace) (savedChat none) recreated = some w ∧
    (w.shared.created, w.shared.mapping, w.shared.released) = (["w0", "w1"], some "w1", ["w0"]) ∧
    (∀ t, .ensure t ∈ w.tasks → ∀ id, t.phase = .returned id →
      w.shared.mapping = some id ∨ id ∈ w.shared.released) ∧
    (∀ id, w.shared.mapping = some id → id ∈ w.shared.released →
      .deletion (.delete id) ∈ w.tasks ∨ .deletion (.unfinished id) ∈ w.tasks) ∧
    ∀ id ∈ w.shared.created, w.shared.mapping = some id ∨ id ∈ w.shared.released ∨
      ∃ t, .ensure t ∈ w.tasks ∧ t.workspaceId = some id ∧ t.phase.Holds := by
  have hnothing : NothingLeft (savedChat none) recreated := by
    unfold NothingLeft
    decide +kernel
  have h := @releaseChatWorkspace_iff _ none recreated rfl
  exact ⟨_, rfl, by decide, h.1, h.2.1, h.2.2.mpr hnothing⟩

end CodexGateway.OpenWebui
