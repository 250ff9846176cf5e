import CodexGateway.OpenWebui.BindCall

/-!
# OpenWebui/BindPublished — uploaded files are attached to their message

An intent whose binding has failed is bound once more, so that an Artifact is in the files once
however far the earlier calls came.  A call of which nothing awaited fails returns, where nothing in
the stores stands in the way (`bindPublished_attaches`).
-/

namespace CodexGateway.OpenWebui

open PyJson SandboxApi

/-! ## A call without a fault

A call raises where an awaited call does, where the file's id is in use for something else, where
the descriptor lacks a field, and where an entry in front of the Artifact's is no dictionary. -/

/-- The descriptor has the fields that are read of it. -/
def Descriptor.Complete (descriptor : Descriptor) : Prop :=
  ∀ key ∈ ["sha256", "filename", "size", "media_type"], (descriptor.members.lookup key).isSome

instance (descriptor : Descriptor) : Decidable descriptor.Complete := by
  unfold Descriptor.Complete
  infer_instance

/-- The id of the Artifact is used by the Artifact only, and by its owner. -/
structure PublishState.Owns (s : PublishState) (artifactId ownerUserId : String) : Prop where
  rows : ∀ row ∈ s.artifacts, row.fileId = artifactId ↔ row.artifactId = artifactId
  files : ∀ file ∈ s.files, file.id = artifactId →
    file.userId = ownerUserId ∧ ∃ row ∈ s.artifacts, row.fileId = artifactId

/-- Nothing in the stores stands in the way of a binding. -/
structure MessageIntents.Bindable (p : MessageIntents) (s : PublishState) : Prop where
  committed : p.Committed s
  entries : ∀ item ∈ p.filesOf s, ∃ ms, item = .obj ms
  complete : ∀ intent ∈ p.intents, ∃ descriptor, intent.descriptor = some descriptor ∧
    descriptor.Complete ∧ s.Owns descriptor.artifactId intent.ownerUserId
  owners : ∀ intent ∈ p.intents, ∀ other ∈ p.intents, ∀ descriptor descriptor',
    intent.descriptor = some descriptor → other.descriptor = some descriptor' →
      descriptor.artifactId = descriptor'.artifactId → intent.ownerUserId = other.ownerUserId

section Unfailed

variable {p : MessageIntents} {committed : Prop} {before : List Json} {s s' : PublishState}
  {descriptor : Descriptor} {intent : UploadedIntent} {ownerUserId : String}

theorem Descriptor.Complete.lookup (h : descriptor.Complete) (key : String)
    (hkey : key ∈ ["sha256", "filename", "size", "media_type"]) :
    ∃ value, descriptor.members.lookup key = some value :=
  Option.isSome_iff_exists.mp (h key hkey)

theorem Descriptor.Complete.entry (h : descriptor.Complete) :
    ∃ ms, descriptor.entry = some (.obj ms) := by
  obtain ⟨filename, hfilename⟩ := h.lookup "filename" (by simp)
  obtain ⟨size, hsize⟩ := h.lookup "size" (by simp)
  exact ⟨_, by rw [Descriptor.entry, hfilename, hsize]; rfl⟩

/-- A complete descriptor is registered where its id is free or its own. -/
theorem PublishState.Owns.registers (h : s.Owns descriptor.artifactId ownerUserId)
    (hcomplete : descriptor.Complete) :
    ∃ s', s.registerArtifactFile descriptor.artifactId ownerUserId descriptor = some s' := by
  obtain ⟨hash, hhash⟩ := hcomplete.lookup "sha256" (by simp)
  obtain ⟨filename, hfilename⟩ := hcomplete.lookup "filename" (by simp)
  obtain ⟨size, hsize⟩ := hcomplete.lookup "size" (by simp)
  obtain ⟨mediaType, hmedia⟩ := hcomplete.lookup "media_type" (by simp)
  have hrow {row : FileArtifact}
      (hfind : s.artifacts.find? (·.fileId = descriptor.artifactId) = some row) :
      row.artifactId = descriptor.artifactId :=
    (h.rows row (List.mem_of_find?_eq_some hfind)).mp (by simpa using List.find?_some hfind)
  rw [PublishState.registerArtifactFile]
  split
  · rename_i file hfile hnone
    obtain ⟨-, row, hrow, hid⟩ := h.files file (List.mem_of_find?_eq_some hfile)
      (by simpa using List.find?_some hfile)
    exact absurd hid (by simpa using List.find?_eq_none.mp hnone row hrow)
  · rename_i file row hfile hfind
    have howner : file.userId = ownerUserId := (h.files file (List.mem_of_find?_eq_some hfile)
      (by simpa using List.find?_some hfile)).1
    rw [if_neg (not_or.mpr ⟨not_not.mpr (hrow hfind), not_not.mpr howner⟩)]
    exact ⟨s, rfl⟩
  · rename_i binding hfile
    simp only [hhash, hfilename, hsize, hmedia, Option.bind_eq_bind, Option.bind_some]
    cases hfind : s.artifacts.find? (·.fileId = descriptor.artifactId) with
    | none =>
      have hfree : s.artifacts.any (·.artifactId = descriptor.artifactId) = false := by
        refine List.any_eq_false.mpr fun row hmem hid => ?_
        exact absurd ((h.rows row hmem).mpr (of_decide_eq_true hid))
          (by simpa using List.find?_eq_none.mp hfind row hmem)
      simp [hfree]
    | some row => simp [hrow hfind]

/-- What a registration of one Artifact adds is of its owner. -/
theorem PublishState.Owns.register {artifactId other : String} (h : s.Owns artifactId ownerUserId)
    (hother : descriptor.artifactId = artifactId → other = ownerUserId)
    (hreg : s.registerArtifactFile descriptor.artifactId other descriptor = some s') :
    s'.Owns artifactId ownerUserId := by
  have hnew {file : WebUiFile} (hid : file.id = descriptor.artifactId)
      (howner : file.userId = other) {rows : List FileArtifact}
      (hrows : ∀ row ∈ rows, row.fileId = artifactId ↔ row.artifactId = artifactId)
      (hkept : s.artifacts ⊆ rows) (hmem : ∃ row ∈ rows, row.fileId = descriptor.artifactId) :
      PublishState.Owns { s with files := s.files ++ [file], artifacts := rows } artifactId
        ownerUserId := by
    refine ⟨hrows, fun old hold hartifact => ?_⟩
    rcases List.mem_append.mp hold with hold | hold
    · obtain ⟨howner, row, hrow, hfile⟩ := h.files old hold hartifact
      exact ⟨howner, row, hkept hrow, hfile⟩
    · obtain rfl := List.mem_singleton.mp hold
      have hsame : descriptor.artifactId = artifactId := hid.symm.trans hartifact
      exact ⟨howner.trans (hother hsame), hsame ▸ hmem⟩
  rw [PublishState.registerArtifactFile] at hreg
  split at hreg
  · cases hreg
  · split_ifs at hreg
    exact Option.some.inj hreg ▸ h
  · simp only [Option.bind_eq_bind, Option.bind_eq_some_iff] at hreg
    obtain ⟨hash, -, filename, -, size, -, mediaType, -, hreg⟩ := hreg
    split at hreg
    · split_ifs at hreg
      obtain rfl := Option.some.inj hreg
      refine hnew rfl rfl (fun row hrow => ?_) (List.subset_append_left _ _)
        ⟨_, List.mem_append_right _ (List.mem_singleton_self _), rfl⟩
      rcases List.mem_append.mp hrow with hrow | hrow
      · exact h.rows row hrow
      · rw [List.mem_singleton.mp hrow]
    · rename_i row hfind
      split_ifs at hreg
      obtain rfl := Option.some.inj hreg
      exact hnew rfl rfl h.rows (List.Subset.refl _)
        ⟨row, List.mem_of_find?_eq_some hfind, by simpa using List.find?_some hfind⟩

namespace MessageIntents

theorem Bindable.congr (h : p.Bindable s) (hchat : s'.chat = s.chat) (hfiles : s'.files = s.files)
    (hartifacts : s'.artifacts = s.artifacts) : p.Bindable s' := by
  have hmessage : p.message s' = p.message s := by rw [message, hchat]; rfl
  refine ⟨?_, ?_, fun intent hintent => ?_, h.owners⟩
  · rw [Committed, hchat, hmessage]
    exact h.committed
  · rw [filesOf, hmessage]
    exact h.entries
  · obtain ⟨descriptor, hsome, hcomplete, howns⟩ := h.complete intent hintent
    exact ⟨descriptor, hsome, hcomplete, by rw [hartifacts]; exact howns.rows,
      by rw [hfiles, hartifacts]; exact howns.files⟩

/-- A registration is in nobody's way: Artifacts that are the same have one owner. -/
theorem Bindable.register (h : p.Bindable s) (hintent : intent ∈ p.intents)
    (hsome : intent.descriptor = some descriptor)
    (hreg : s.registerArtifactFile descriptor.artifactId intent.ownerUserId descriptor = some s') :
    p.Bindable s' := by
  have howns {artifactId owner : String} (hold : s.Owns artifactId owner)
      (howner : descriptor.artifactId = artifactId → intent.ownerUserId = owner) :
      s'.Owns artifactId owner := hold.register howner hreg
  obtain ⟨files, artifacts, rfl⟩ := registerArtifactFile_eq hreg
  refine ⟨h.committed, h.entries, fun other hother => ?_, h.owners⟩
  obtain ⟨descriptor', hsome', hcomplete, hold⟩ := h.complete other hother
  exact ⟨descriptor', hsome', hcomplete, howns hold
    (h.owners intent hintent other hother descriptor descriptor' hsome hsome')⟩

/-- The entry of an Artifact is a dictionary. -/
theorem Bindable.upsert (h : p.Bindable s) (hcomplete : descriptor.Complete) {entry : Json}
    (hentry : descriptor.entry = some entry) :
    p.Bindable (s.upsertFiles p.messageId (p.filesOf s ++ [entry])) := by
  have hfiles : p.filesOf (s.upsertFiles p.messageId (p.filesOf s ++ [entry])) =
      p.filesOf s ++ [entry] := filesOf_upsertFiles h.committed.1
  refine ⟨committed_upsertFiles h.committed, fun item hitem => ?_, fun other hother => ?_,
    h.owners⟩
  · rw [hfiles] at hitem
    rcases List.mem_append.mp hitem with hitem | hitem
    · exact h.entries item hitem
    · obtain ⟨ms, hms⟩ := hcomplete.entry
      exact ⟨ms, (List.mem_singleton.mp hitem).trans (Option.some.inj (hentry.symm.trans hms))⟩
  · obtain ⟨descriptor', hsome', hcomplete, howns⟩ := h.complete other hother
    exact ⟨descriptor', hsome', hcomplete, howns.rows, howns.files⟩

/-- What a call awaits puts nothing in the way of another. -/
theorem Bindable.effect (h : p.Bindable s) (now : ℤ) (hintent : intent ∈ p.intents)
    {phase : BindPhase} (hphase : phase.Sound p committed s intent) :
    p.Bindable (p.effect s intent now phase) := by
  cases phase with
  | work descriptor step =>
    obtain ⟨hsome, hstep⟩ := hphase
    cases step with
    | register files =>
      rw [MessageIntents.effect]
      cases hreg : s.registerArtifactFile descriptor.artifactId intent.ownerUserId descriptor with
      | none => exact h
      | some s' => exact h.register hintent hsome hreg
    | upsert files =>
      obtain ⟨-, -, entry, hentry, rfl⟩ := hstep
      obtain ⟨descriptor', hsome', hcomplete, -⟩ := h.complete intent hintent
      obtain rfl := Option.some.inj (hsome.symm.trans hsome')
      exact h.upsert hcomplete hentry
    | bind filename saved =>
      rw [MessageIntents.effect, PublishState.bindMessageArtifact]
      split_ifs
      · exact h
      · exact h.congr rfl rfl rfl
    | _ => exact h.congr rfl rfl rfl
  | _ => exact h.congr rfl rfl rfl

end MessageIntents

/-- Where all entries are dictionaries, the look at them does not raise. -/
theorem anyArtifact_of_objects (artifactId : String) {items : List Json}
    (h : ∀ item ∈ items, ∃ ms, item = .obj ms) :
    ∃ found, anyArtifact artifactId items = some found := by
  induction items with
  | nil => exact ⟨false, rfl⟩
  | cons item items ih =>
    obtain ⟨ms, rfl⟩ := h item List.mem_cons_self
    rw [anyArtifact]
    split_ifs
    · exact ⟨true, rfl⟩
    · exact ih fun item hitem => h item (List.mem_cons_of_mem _ hitem)

/-- What is attached is in a list, which is what is read once more. -/
theorem savedFiles_of_attached {artifactId : String} (hat : p.Attached s artifactId) :
    savedFiles (p.message s) = .arr (p.filesOf s) := by
  have hget : (p.message s).get "files" = (List.lookup "files" (p.message s)).getD .null := rfl
  rw [MessageIntents.Attached, MessageIntents.filesOf, messageFiles, hget] at hat
  rw [MessageIntents.filesOf, messageFiles, hget, savedFiles]
  cases hlookup : List.lookup "files" (p.message s) with
  | none =>
    rw [hlookup] at hat
    cases hat
  | some files =>
    rw [hlookup, Option.getD_some] at hat
    rw [Option.getD_some, Option.getD_some]
    cases files with
    | arr files => rfl
    | _ => cases hat

/-- The second read of the message finds what was attached. -/
theorem MessageIntents.Bindable.reread (h : p.Bindable s) (hcomplete : descriptor.Complete)
    (hat : p.Attached s descriptor.artifactId) :
    MessageIntents.reread descriptor (p.message s) ≠ .raised := by
  obtain ⟨found, hfound⟩ := anyArtifact_of_objects descriptor.artifactId h.entries
  obtain ⟨filename, hfilename⟩ := hcomplete.lookup "filename" (by simp)
  rw [MessageIntents.reread, savedFiles_of_attached hat, anyArtifactOf, hfound]
  cases found
  · intro heq
    cases heq
  · rw [hfilename]
    intro heq
    cases heq

/-- **Where nothing stands in the way, a call goes on to its next step.** -/
theorem MessageIntents.Bindable.next (h : p.Bindable s) (hintent : intent ∈ p.intents)
    {phase : BindPhase} (hphase : phase.Sound p committed s intent) (hraised : phase ≠ .raised) :
    p.next s intent phase ≠ .raised := by
  obtain ⟨descriptor', hsome', hcomplete, howns⟩ := h.complete intent hintent
  cases phase with
  | lock =>
    rw [MessageIntents.next, hsome']
    intro heq
    cases heq
  | work descriptor step =>
    obtain ⟨hsome, hstep⟩ := hphase
    obtain rfl := Option.some.inj (hsome.symm.trans hsome')
    have hmessage : s.requireMessage p.messageId = .ok (p.message s) :=
      requireMessage_eq_ok.mpr ⟨h.committed, rfl⟩
    cases step with
    | message =>
      rw [MessageIntents.next, hmessage]
      intro heq
      cases heq
    | register files =>
      obtain ⟨s', hreg⟩ := howns.registers hcomplete
      obtain ⟨ms, hentry⟩ := hcomplete.entry
      rw [MessageIntents.next, hreg]
      simp only [MessageIntents.registered, hentry]
      split_ifs
      all_goals
        intro heq
        cases heq
    | upsert files =>
      obtain ⟨chat, hchat⟩ := Option.isSome_iff_exists.mp h.committed.1
      rw [MessageIntents.next, hchat]
      intro heq
      cases heq
    | saved =>
      rw [MessageIntents.next, hmessage]
      exact h.reread hcomplete hstep
    | _ =>
      intro heq
      cases heq
  | raised => exact absurd rfl hraised
  | _ =>
    intro heq
    cases heq

/-- One step of one call. -/
theorem MessageIntents.Bindable.act (h : p.Bindable s) {t t' : BindCall} {a : BindAction}
    (ht : t.Sound p committed s) (hact : p.act s t a = some (s', t')) : p.Bindable s' := by
  have honly {m : PublishState} (hm : p.Bindable m) (hlock : LockOnly m s') : p.Bindable s' := by
    obtain ⟨lock, rfl⟩ := hlock
    exact hm.congr rfl rfl rfl
  rcases act_cases hact with ⟨-, -, hgoto⟩ | ⟨-, hraise⟩ | ⟨-, now, hgoto⟩
  · exact honly h (goto_eq hgoto).1
  · obtain ⟨rfl, -⟩ := Prod.mk.inj hraise
    exact h
  · have heffect := h.effect now ht.mem ht.phase
    rcases hgoto with hgoto | hgoto | hgoto
    · exact honly heffect (goto_eq hgoto).1
    · exact honly heffect (goto_eq hgoto).1
    · exact honly h (goto_eq hgoto).1

/-- What a call does where nothing fails. -/
theorem proceed_phase {t t' : BindCall} {now : ℤ} (h : p.act s t (.proceed now) = some (s', t')) :
    t.phase ≠ .raised ∧ t'.phase = p.next s t.intent t.phase := by
  rw [MessageIntents.act] at h
  cases hphase : t.phase with
  | lock =>
    rw [hphase] at h
    simp only at h
    split_ifs at h
    exact ⟨by simp, congrArg (·.2.phase) (Option.some.inj h).symm⟩
  | work descriptor step =>
    rw [hphase] at h
    exact ⟨by simp, congrArg (·.2.phase) (Option.some.inj h).symm⟩
  | retry error =>
    rw [hphase] at h
    exact ⟨by simp, congrArg (·.2.phase) (Option.some.inj h).symm⟩
  | _ =>
    rw [hphase] at h
    cases h

end Unfailed

/-! ## The main result -/

/-- The call is over. -/
def BindPhase.Over : BindPhase → Prop
  | .returned | .retried | .raised => True
  | _ => False

instance : DecidablePred BindPhase.Over
  | .returned | .retried | .raised => Decidable.isTrue trivial
  | .lock | .work _ _ | .retry _ => Decidable.isFalse id

/-- A call of which nothing awaited has failed has not raised. -/
structure Unfailed (p : MessageIntents) (committed : Prop) (before : List Json) (i : ℕ)
    (w : Pool PublishState BindCall) : Prop where
  guarded : Pool.Guarded (·.lock = true) (·.phase.inside) (Publishing p committed before)
    (fun s t => t.Sound p committed s) w
  bindable : p.Bindable w.shared
  call : ∀ t, w.tasks[i]? = some t → t.phase ≠ .raised

theorem Unfailed.step {p : MessageIntents} {committed : Prop} {before : List Json} {i : ℕ}
    {w w' : Pool PublishState BindCall} {a : Pool.Action BindAction ℕ}
    (hfault : ∀ now done, a ≠ .task i (.fail now done)) (h : Unfailed p committed before i w)
    (hstep : Pool.step (bindPublished p) w a = some w') : Unfailed p committed before i w' := by
  refine ⟨(bindPublished_mutex p committed before).step h.guarded hstep, ?_, fun t ht => ?_⟩
  · cases a with
    | env j =>
      obtain ⟨s, ts, henv, rfl⟩ := Pool.step_env.mp hstep
      obtain ⟨intent, -, heq⟩ := Option.map_eq_some_iff.mp henv
      obtain ⟨rfl, rfl⟩ := Prod.mk.inj heq
      exact h.bindable
    | task j a =>
      obtain ⟨t, s, t', hj, hact, rfl⟩ := Pool.step_task.mp hstep
      exact h.bindable.act (h.guarded.holds.tasks t (List.mem_of_getElem? hj)) hact
  · cases a with
    | env j =>
      obtain ⟨s, ts, henv, rfl⟩ := Pool.step_env.mp hstep
      obtain ⟨intent, -, heq⟩ := Option.map_eq_some_iff.mp henv
      obtain ⟨rfl, rfl⟩ := Prod.mk.inj heq
      by_cases hi : i < w.tasks.length
      · exact h.call t (by rwa [List.getElem?_append_left hi] at ht)
      · rw [List.getElem?_append_right (not_lt.mp hi)] at ht
        rw [List.mem_singleton.mp (List.mem_of_getElem? ht)]
        intro heq
        cases heq
    | task j a =>
      obtain ⟨u, s, u', hj, hact, rfl⟩ := Pool.step_task.mp hstep
      rw [List.getElem?_set] at ht
      split_ifs at ht with hij hlt
      · subst hij
        obtain rfl := Option.some.inj ht
        have hsound := h.guarded.holds.tasks u (List.mem_of_getElem? hj)
        cases a with
        | proceed now =>
          obtain ⟨hnot, hnext⟩ := proceed_phase hact
          rw [hnext]
          exact h.bindable.next hsound.mem hsound.phase hnot
        | fail now done => exact absurd rfl (hfault now done)
      · exact h.call t ht

/-- **In every run of any number of calls, of which any may fail, the files that were there stay in
front and an Artifact is there once, or as often as it was there before; an intent is ready, and a
call returns, only once its Artifact is attached and bound.**  Where the message is committed and
the intents are uploaded, a call returns or raises, and it returns where nothing it awaits fails and
nothing in the stores stands in the way. -/
theorem bindPublished_attaches {p : MessageIntents} {s : PublishState}
    (hready : ∀ intent ∈ p.intents, (s.status intent.id).state ≠ .ready)
    {as : List (Pool.Action BindAction ℕ)} {w : Pool PublishState BindCall}
    (hrun : Machine.run (Pool.step (bindPublished p)) ⟨s, []⟩ as = some w) :
    p.filesOf s <+: p.filesOf w.shared ∧
    (∀ artifactId, countArtifact artifactId (p.filesOf w.shared) ≤
      max 1 (countArtifact artifactId (p.filesOf s))) ∧
    (∀ intent ∈ p.intents, (w.shared.status intent.id).state = .ready →
      ∃ descriptor, intent.descriptor = some descriptor ∧
        p.Published (p.filesOf s) w.shared descriptor.artifactId) ∧
    (∀ t ∈ w.tasks, t.phase = .returned → ∃ descriptor, t.intent.descriptor = some descriptor ∧
      p.Published (p.filesOf s) w.shared descriptor.artifactId) ∧
    (p.Committed s → (∀ intent ∈ p.intents, intent.descriptor ≠ none) →
      ∀ t ∈ w.tasks, t.phase.Over → t.phase = .returned ∨ t.phase = .raised) ∧
    (p.Bindable s → ∀ i t, (∀ now done, .task i (.fail now done) ∉ as) →
      w.tasks[i]? = some t → t.phase.Over → t.phase = .returned) := by
  have hstart : Publishing p (p.Committed s) (p.filesOf s) s :=
    ⟨fun h => h, List.prefix_refl _, fun _ => le_max_right _ _,
      fun intent hintent h => absurd h (hready intent hintent)⟩
  have hguarded := (bindPublished_mutex p _ _).run hrun (Pool.guarded_nil hstart)
  have hpub := hguarded.holds.shared
  have hover (hcommitted : p.Committed s) (huploaded : ∀ intent ∈ p.intents,
      intent.descriptor ≠ none) (t : BindCall) (ht : t ∈ w.tasks) (hover : t.phase.Over) :
      t.phase = .returned ∨ t.phase = .raised := by
    have hsound := (hguarded.holds.tasks t ht).phase
    have hsome := huploaded t.intent (hguarded.holds.tasks t ht).mem
    cases hphase : t.phase with
    | returned => exact .inl rfl
    | raised => exact .inr rfl
    | retried =>
      rw [hphase] at hsound
      exact absurd (hsound hcommitted) hsome
    | _ =>
      rw [hphase] at hover
      exact hover.elim
  refine ⟨hpub.kept, hpub.once, fun intent hintent hstate => ?_, fun t ht hphase => ?_, hover,
    fun hbindable i t hfault hi ht => ?_⟩
  · obtain ⟨descriptor, hsome, hat, hbinds⟩ := hpub.ready intent hintent hstate
    exact ⟨descriptor, hsome, hpub.published hat hbinds⟩
  · have hsound := (hguarded.holds.tasks t ht).phase
    rw [hphase] at hsound
    obtain ⟨descriptor, hsome, hat, hbinds⟩ := hsound
    exact ⟨descriptor, hsome, hpub.published hat hbinds⟩
  · have hmeets : Machine.Meets (Pool.step (bindPublished p))
        (fun _ a => ∀ now done, a ≠ .task i (.fail now done)) ⟨s, []⟩ as :=
      Machine.meets_of_forall _ fun a ha now done heq => hfault now done (heq ▸ ha)
    have hunfailed : Unfailed p (p.Committed s) (p.filesOf s) i w :=
      Machine.run_invariant (fun _ _ _ hcond h hstep => h.step hcond hstep) hmeets hrun
        ⟨Pool.guarded_nil hstart, hbindable, fun _ h => absurd (List.mem_of_getElem? h)
          List.not_mem_nil⟩
    refine (hover hbindable.committed (fun intent hintent => ?_) t (List.mem_of_getElem? hi)
      ht).resolve_right (hunfailed.call t hi)
    obtain ⟨descriptor, hsome, -⟩ := hbindable.complete intent hintent
    exact hsome ▸ Option.some_ne_none _

/-! ## A run -/

/-- An intent whose Artifact is uploaded. -/
def uploadedIntent (id artifactId : String) : UploadedIntent where
  id := id
  ownerUserId := "owner"
  descriptor := some {
    members := [("artifact_id", .str artifactId), ("filename", .str "data.csv"), ("size", .int 3),
      ("sha256", .str "00"), ("media_type", .str "text/csv")]
    artifactId := artifactId
    named := rfl }
  attempts := 1

/-- Two intents of a message. -/
def twoIntents : MessageIntents where
  messageId := "m"
  intents := [uploadedIntent "i0" "a0", uploadedIntent "i1" "a1"]
  distinct := by decide
  publishRetryLimit := 8
  publishReconcileSeconds := 15

/-- The message without files, and nothing else. -/
def committedMessage : PublishState where
  chat := some {
    message := fun id => if id = "m" then some [("role", .str "assistant")] else none
    ids := {"m"}
    mem_ids := fun id ms h _ => by
      split_ifs at h with hid
      exact Finset.mem_singleton.mpr hid }
  files := []
  artifacts := []
  bindings := []
  status := fun _ => ⟨.uploaded, 0, none⟩
  lock := false
  emitted := []

/-- The first call is cancelled once it has written the files, the second goes through, and then the
first intent is bound once more. -/
def cancelledOnce : List (Pool.Action BindAction ℕ) :=
  [.env 0, .env 1] ++ List.replicate 3 (.task 0 (.proceed 0)) ++ [.task 0 (.fail 0 true)] ++
    List.replicate 9 (.task 1 (.proceed 0)) ++ [.env 0] ++ List.replicate 8 (.task 2 (.proceed 0))

/-- Both Artifacts are new, and their descriptors are complete. -/
theorem bindable_committedMessage : twoIntents.Bindable committedMessage where
  committed := ⟨rfl, by decide, rfl⟩
  entries := fun _ h => absurd h List.not_mem_nil
  complete := fun intent hintent => by
    have hintent : intent = uploadedIntent "i0" "a0" ∨ intent = uploadedIntent "i1" "a1" := by
      simpa [twoIntents] using hintent
    rcases hintent with rfl | rfl
    all_goals
      exact ⟨_, rfl, by decide, fun _ h => absurd h List.not_mem_nil,
        fun _ h => absurd h List.not_mem_nil⟩
  owners := fun intent hintent other hother _ _ _ _ _ => by
    have howner {intent : UploadedIntent} (hintent : intent ∈ twoIntents.intents) :
        intent.ownerUserId = "owner" := by
      have hintent : intent = uploadedIntent "i0" "a0" ∨ intent = uploadedIntent "i1" "a1" := by
        simpa [twoIntents] using hintent
      rcases hintent with rfl | rfl
      all_goals rfl
    exact (howner hintent).trans (howner hother).symm

/-- The Artifact of the cancelled call is there once, and the call that binds it once more, of which
nothing fails, returns. -/
theorem bindPublished_attaches_cancelledOnce : ∃ w,
    Machine.run (Pool.step (bindPublished twoIntents)) ⟨committedMessage, []⟩ cancelledOnce =
      some w ∧
    (w.shared.status "i0").state = .ready ∧
    countArtifact "a0" (twoIntents.filesOf w.shared) = 1 ∧
    ∃ t, w.tasks[2]? = some t ∧ t.phase = .returned := by
  have hready : (Machine.run (Pool.step (bindPublished twoIntents)) ⟨committedMessage, []⟩
      cancelledOnce).map (fun w => ((w.shared.status "i0").state,
        w.tasks[2]?.map fun t => decide t.phase.Over)) = some (.ready, some true) := by
    decide +kernel
  obtain ⟨w, hrun, hstate⟩ := Option.map_eq_some_iff.mp hready
  obtain ⟨hstate, hover⟩ := Prod.mk.inj hstate
  obtain ⟨t, ht, hover⟩ := Option.map_eq_some_iff.mp hover
  obtain ⟨-, -, hpublished, -, -, hreturned⟩ := bindPublished_attaches
    (fun _ _ => by simp [committedMessage]) hrun
  obtain ⟨descriptor, hsome, hpublished⟩ :=
    hpublished (uploadedIntent "i0" "a0") List.mem_cons_self hstate
  obtain rfl := Option.some.inj hsome
  have hfault (now : ℤ) (fault : Bool) : .task 2 (.fail now fault) ∉ cancelledOnce := by
    simp [cancelledOnce]
  exact ⟨w, hrun, hstate, hpublished.count, t, ht,
    hreturned bindable_committedMessage 2 t hfault ht (of_decide_eq_true hover)⟩

end CodexGateway.OpenWebui
