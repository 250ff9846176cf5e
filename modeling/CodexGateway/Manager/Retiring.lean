import CodexGateway.Manager.Serving

/-!
# Manager/Retiring — every step of a Workspace that is served

The retire beside the other coroutines.  `RetirementOk` is the invariant, and `Serves` what any step
of `retirement` does to the operations.
-/

namespace CodexGateway.Manager

/-! ## The retire -/

/-- The operation of a retire. -/
def RetireStage.operationId : RetireStage → String
  | .repository operationId | .repositoryDeleted operationId _ | .volume operationId
  | .rows operationId | .failed operationId _ => operationId

/-- **The invariant of a Workspace that is served.** -/
structure RetirementOk (workspaceId : String) (s : Retirement) : Prop where
  host : HostOk workspaceId s.host
  retiring : ∀ stage, s.retiring = some stage → s.host.holder = none ∧
    HasOp workspaceId s.host.db stage.operationId .retire ∧
      ∃ row, s.host.db.workspaces workspaceId = some row ∧ row.status = .deleting

/-- The holder of the lock or the retire is going to end the operation. -/
def Retirement.Drives (workspaceId : String) (s : Retirement) (o : Operation) : Prop :=
  s.host.Drives workspaceId o ∨ ∃ stage, s.retiring = some stage ∧ o.id = stage.operationId

/-- **What a step of a Workspace does** that is served, of a coroutine that drives some operations
before and some after it. -/
structure Serves (workspaceId : String) (claims : Prop) (drives drives' : Operation → Prop)
    (s s' : Retirement) : Prop where
  ok : RetirementOk workspaceId s'
  clean : Clean workspaceId s.host → Clean workspaceId s'.host
  dirty : ¬ claims → StaysDirty workspaceId drives s.host s'.host
  holds : ∀ o, s.Drives workspaceId o → s'.Drives workspaceId o ∨ drives o
  settles : ∀ o ∈ incompleteOperations s'.host.db, s'.Drives workspaceId o ∨ drives' o ∨
    o ∈ incompleteOperations s.host.db ∧ ¬ drives o
  restores : ∀ o' ∈ s'.host.db.operations, o'.status = .succeeded → ∀ revisionId,
    Keyed workspaceId o' (.restore revisionId) → Materialised workspaceId s'.host revisionId ∨
      (∃ o ∈ s.host.db.operations, o.status = .succeeded ∧ SameOp o o') ∨
      drives o' ∧ ∃ row, s.host.db.workspaces workspaceId = some row ∧ row.status = .detachedClean

section Retire

variable {cfg : RetireSettings} {ws : String} {claims : Prop} {s m s' : Retirement} {host : Host}
  {drives drives' : Operation → Prop} {row : WorkspaceRecord}

theorem RetirementOk.beside (h : RetirementOk ws s) (hb : Beside ws claims s.host s'.host)
    (hretiring : s'.retiring = s.retiring) : RetirementOk ws s' := by
  refine ⟨h.host.beside hb, fun stage hstage => ?_⟩
  obtain ⟨hfree, hhas, row, hrow, hdeleting⟩ := h.retiring stage (hretiring ▸ hstage)
  obtain ⟨row', hrow', hr⟩ := hb.row row hrow
  exact ⟨hb.holder.trans hfree, hhas.persists hb.persists, row', hrow',
    (hr.busy (by rw [hdeleting]; rfl)).1.trans hdeleting⟩

/-- What the holder and the retire drive they still drive. -/
theorem Retirement.Drives.congr {o : Operation} (h : s.Drives ws o)
    (hholder : s'.host.holder = s.host.holder) (hretiring : s'.retiring = s.retiring) :
    s'.Drives ws o := by
  rcases h with ⟨c, hc, hd⟩ | ⟨stage, hstage, hid⟩
  · exact .inl ⟨c, hholder.trans hc, hd⟩
  · exact .inr ⟨stage, hretiring.trans hstage, hid⟩

theorem Beside.staysDirty {a b : Host} (h : Beside ws claims a b) (hclaims : ¬ claims) :
    StaysDirty ws drives a b := by
  intro r hr hd
  obtain ⟨r', hr', hrow⟩ := h.row r hr
  obtain ⟨hstatus, hgeneration⟩ := hrow.detached hclaims (by rw [hd]; decide)
  exact .inl ⟨r', hr', hstatus.trans hd, hgeneration⟩

theorem Works.serves (h : RetirementOk ws s) (hw : Works ws claims drives drives' s.host s'.host)
    (hretiring : s'.retiring = s.retiring) : Serves ws claims drives drives' s s' where
  ok := h.beside hw.toBeside hretiring
  clean := fun hc => hc.beside hw.toBeside
  dirty := hw.toBeside.staysDirty
  holds := fun _ ho => .inl (ho.congr hw.holder hretiring)
  settles := fun o ho => by
    obtain ⟨hold, hdrives⟩ := hw.settles o ho
    by_cases hd : drives o
    · exact .inr (.inl (hdrives hd))
    · exact .inr (.inr ⟨hold, hd⟩)
  restores := fun o' ho' hs _ _ => .inr (hw.restores o' ho' hs)

theorem Begins.serves {ts : List Task} (h : RetirementOk ws s) (hb : Begins ws ts s.host s'.host)
    (hretiring : s'.retiring = s.retiring) :
    Serves ws False (fun _ => False) (fun o => ∃ t ∈ ts, t.Drives ws s'.host o) s s' where
  ok := h.beside hb.toBeside hretiring
  clean := fun hc => hc.beside hb.toBeside
  dirty := hb.toBeside.staysDirty
  holds := fun _ ho => .inl (ho.congr hb.holder hretiring)
  settles := fun o ho => .inr ((hb.settles o ho).elim (fun hold => .inr ⟨hold, id⟩) .inl)
  restores := fun o' ho' hs r hr => .inr (.inl (hb.restores o' ho' hs r hr))

/-- The holder of the lock, or the coroutine that takes it, while no retire has it. -/
theorem Advances.serves (ha : Advances ws drives s.host s'.host) (hnone : s.retiring = none)
    (hretiring : s'.retiring = s.retiring) (hholder : ∀ o, s.host.Drives ws o → drives o) :
    Serves ws claims drives drives' s s' where
  ok := ⟨ha.ok, fun stage hstage => by rw [hretiring, hnone] at hstage; cases hstage⟩
  clean := ha.clean
  dirty := fun _ => ha.dirty
  holds := fun o ho => by
    rcases ho with hheld | ⟨stage, hstage, -⟩
    · exact .inr (hholder o hheld)
    · rw [hnone] at hstage
      cases hstage
  settles := fun o ho => (ha.settles o ho).elim (fun hd => .inl (.inl hd)) fun hold => .inr (.inr hold)
  restores := fun o' ho' hs r hr => (ha.restores o' ho' hs r hr).imp_right .inl

theorem Serves.refl (h : RetirementOk ws s) : Serves ws claims (fun _ => False) drives' s s where
  ok := h
  clean := id
  dirty := fun _ => .same rfl
  holds := fun _ ho => .inl ho
  settles := fun _ ho => .inr (.inr ⟨ho, id⟩)
  restores := fun o' ho' hs _ _ => .inr (.inl ⟨o', ho', hs, .refl o'⟩)

/-- A Workspace that is being deleted, and the operation of its retire. -/
structure Deleting (workspaceId : String) (s : Retirement) (operationId : String) : Prop where
  ok : HostOk workspaceId s.host
  free : s.host.holder = none
  has : HasOp workspaceId s.host.db operationId .retire
  row : ∃ row, s.host.db.workspaces workspaceId = some row ∧ row.status = .deleting
  stage : ∀ stage, s.retiring = some stage → stage.operationId = operationId

theorem RetirementOk.deleting (h : RetirementOk ws s) {stage : RetireStage}
    (hstage : s.retiring = some stage) : Deleting ws s stage.operationId := by
  obtain ⟨hfree, hhas, hrow⟩ := h.retiring stage hstage
  exact ⟨h.host, hfree, hhas, hrow, fun stage' h' =>
    congrArg _ (Option.some.inj (h'.symm.trans hstage))⟩

theorem Deleting.id_eq {operationId : String} (h : Deleting ws s operationId) {o : Operation}
    (ho : s.Drives ws o) : o.id = operationId := by
  rcases ho with ⟨c, hc, -⟩ | ⟨stage, hstage, hid⟩
  · rw [h.free] at hc
    cases hc
  · exact hid.trans (h.stage stage hstage)

/-- The retire has its operation still to end. -/
theorem Deleting.wait {operationId : String} (h : Deleting ws s operationId) {stage : RetireStage}
    (hdb : s'.host.db = s.host.db) (hholder : s'.host.holder = s.host.holder)
    (hretiring : s'.retiring = some stage) (hid : stage.operationId = operationId) :
    Serves ws claims (·.id = operationId) drives' s s' := by
  obtain ⟨row, hrow, hdeleting⟩ := h.row
  have hrow' : s'.host.db.workspaces ws = some row := hdb ▸ hrow
  have hfree := hholder.trans h.free
  refine ⟨⟨⟨hdb ▸ h.ok.ledger, fun c hc => ?_⟩, fun stage' hstage => ?_⟩, fun _ =>
    clean_of_status hrow' (by rw [hdeleting]; decide), fun _ =>
    .of_status hrow (by rw [hdeleting]; decide), fun o ho => .inr (h.id_eq ho), fun o ho => ?_,
    fun o' ho' hs _ _ => .inr (.inl ⟨o', hdb ▸ ho', hs, .refl o'⟩)⟩
  · rw [hfree] at hc
    cases hc
  · obtain rfl := Option.some.inj (hretiring.symm.trans hstage)
    exact ⟨hfree, hid ▸ hdb ▸ h.has, row, hrow', hdeleting⟩
  · by_cases hd : o.id = operationId
    · exact .inl (.inr ⟨stage, hretiring, hd.trans hid.symm⟩)
    · exact .inr (.inr ⟨hdb ▸ ho, hd⟩)

/-- **The operation of a retire ends.** -/
theorem Deleting.ended {operationId : String} (h : Deleting ws s operationId) {db : Tables}
    {status : OperationStatus} (hu : Updated operationId status s.host.db db)
    (hended : status.incomplete = false) (hhost : s'.host = { s.host with db := db })
    (hretiring : ∀ stage, s'.retiring = some stage → stage.operationId = operationId) :
    Serves ws claims (·.id = operationId) drives' s s' := by
  obtain ⟨row, hrow, hdeleting⟩ := h.row
  have hl := h.ok.ledger.updated hu fun _ r hr => by
    obtain rfl := Option.some.inj (hrow.symm.trans hr)
    rw [hdeleting]
    rfl
  have hrow' : s'.host.db.workspaces ws = some row := by
    rw [hhost]
    exact (congrFun hu.workspaces ws).trans hrow
  have hfree : s'.host.holder = none := by rw [hhost]; exact h.free
  have hdb : s'.host.db = db := by rw [hhost]
  refine ⟨⟨⟨hdb ▸ hl, fun c hc => ?_⟩, fun stage hstage => ?_⟩, fun _ =>
    clean_of_status hrow' (by rw [hdeleting]; decide), fun _ =>
    .of_status hrow (by rw [hdeleting]; decide), fun o ho => .inr (h.id_eq ho), fun o ho => ?_,
    fun o' ho' hs r hr => .inr (.inl ?_)⟩
  · rw [hfree] at hc
    cases hc
  · exact ⟨hfree, hretiring stage hstage ▸ hdb ▸ h.has.persists hu.persists, row, hrow', hdeleting⟩
  · rcases hu.incomplete (hdb ▸ ho) with hold | ⟨-, hs⟩
    · exact .inr (.inr hold)
    · rw [hended] at hs
      cases hs
  · rcases hu.succeeded (hdb ▸ ho') hs with hold | ⟨hid, -⟩
    · exact hold
    · have hkeyed := (h.has.persists hu.persists).keyed hl (hdb ▸ ho') hid
      exact absurd (hr.unique hkeyed) fun he => by cases he

theorem Deleting.giveUp {operationId : String} (h : Deleting ws s operationId) (error : String) :
    Serves ws claims (·.id = operationId) drives' s (s.giveUp operationId error) :=
  h.ended (endOperation_updated ..) rfl rfl fun _ hstage => by cases hstage

theorem Deleting.recordRetired {operationId : String} (h : Deleting ws s operationId) (objects : ℕ) :
    Serves ws claims (·.id = operationId) drives' s (recordRetired s operationId objects) := by
  rw [Manager.recordRetired]
  split
  · exact h.giveUp _
  · rename_i db hupdate
    refine h.ended (updateOperation_updated hupdate) rfl rfl fun stage hstage => ?_
    obtain rfl := Option.some.inj hstage
    rfl

/-- **A turn of the retire.** -/
theorem retireStep_serves (h : RetirementOk cfg.workspaceId s) {stage : RetireStage}
    (hstage : s.retiring = some stage) (turn : RetireTurn) :
    Serves cfg.workspaceId claims (·.id = stage.operationId) drives' s
      (retireStep cfg s turn stage) := by
  have hd := h.deleting hstage
  cases stage with
  | repository operationId =>
    rw [retireStep]
    split
    · exact hd.wait rfl rfl rfl rfl
    · exact hd.wait rfl rfl rfl rfl
  | repositoryDeleted operationId objects => exact hd.recordRetired objects
  | volume operationId =>
    rw [retireStep]
    split
    · exact hd.wait rfl rfl rfl rfl
    · exact hd.wait rfl rfl rfl rfl
  | failed operationId error => exact hd.giveUp error
  | rows operationId =>
    rw [retireStep]
    split
    · exact hd.giveUp _
    · rename_i db hdelete
      obtain ⟨row, hrow, hdeleting⟩ := hd.row
      obtain ⟨hnone, -⟩ | ⟨-, -, -, rfl⟩ := deleteWorkspace_eq hdelete
      · rw [hrow] at hnone
        cases hnone
      · -- every operation is one of the Workspace
        have hempty : (s.host.db.removeWorkspace cfg.workspaceId).operations = [] := by
          refine List.filter_eq_nil_iff.mpr fun o ho => ?_
          obtain ⟨k, hk⟩ := h.host.ledger.keyed o ho
          simp [hk.owner]
        have hgone : (s.host.db.removeWorkspace cfg.workspaceId).workspaces cfg.workspaceId = none :=
          Function.update_self ..
        have hl : Ledger cfg.workspaceId (s.host.db.removeWorkspace cfg.workspaceId) := by
          refine ⟨?_, ?_, ?_, fun _ => hempty, ?_, ?_, ?_⟩
          · rw [hempty]
            exact fun o ho => by cases ho
          · rw [hempty]
            exact .nil
          · rw [hempty]
            exact .nil
          all_goals
            intro r hr
            rw [hgone] at hr
            cases hr
        refine ⟨⟨⟨hl, fun c hc => ?_⟩, fun stage hs => by cases hs⟩, fun _ r hr => ?_, fun _ =>
          .of_status hrow (by rw [hdeleting]; decide), fun o ho => .inr (hd.id_eq ho),
          fun o ho => ?_, fun o' ho' => ?_⟩
        · rw [show (({ s.setDb (s.host.db.removeWorkspace cfg.workspaceId) with
            retiring := none, deleted := false } : Retirement)).host.holder = none from hd.free] at hc
          cases hc
        · rw [show (({ s.setDb (s.host.db.removeWorkspace cfg.workspaceId) with
            retiring := none, deleted := false } : Retirement)).host.db.workspaces cfg.workspaceId =
              none from hgone] at hr
          cases hr
        · have ho' := (mem_incompleteOperations.mp ho).1
          rw [show (({ s.setDb (s.host.db.removeWorkspace cfg.workspaceId) with
            retiring := none, deleted := false } : Retirement)).host.db.operations = [] from hempty]
            at ho'
          cases ho'
        · rw [show (({ s.setDb (s.host.db.removeWorkspace cfg.workspaceId) with
            retiring := none, deleted := false } : Retirement)).host.db.operations = [] from hempty]
            at ho'
          cases ho'

/-- **A retire that takes the lock.** -/
theorem retireBegin_serves (h : RetirementOk cfg.workspaceId s) (hretiring : s.retiring = none)
    (hfree : s.host.holder = none) (token : String) :
    Serves cfg.workspaceId claims (fun _ => False) drives' s (retireBegin cfg s token) := by
  rw [retireBegin]
  split
  · exact .refl h
  · rename_i row hget
    have hrow := getWorkspace_ok hget
    split
    · exact .refl h
    · rename_i hdue
      simp only [Bool.not_eq_false, retireDue, Bool.and_eq_true, Option.isNone_iff_eq_none,
        List.contains_iff_mem, List.mem_cons, List.not_mem_nil, or_false] at hdue
      obtain ⟨⟨-, hidle⟩, hstatus⟩ := hdue
      have hdirty : row.status ≠ .detachedDirty := by
        rcases hstatus with he | he | he
        all_goals
          rw [he]
          decide
      dsimp only
      split
      · exact .refl h
      · rename_i db operation created hcreate
        have hcreated := begins_of_created (k := .retire) h.host.ledger (fun g hg => by cases hg)
          hcreate
        obtain ⟨hb, hincomplete⟩ := hcreated
        have hhas : HasOp cfg.workspaceId db operation.id .retire :=
          ⟨operation, (createOperation_cases (k := .retire) hcreate).2.1, rfl,
            (h.host.ledger.create (k := .retire) (fun g hg => by cases hg) hcreate).2.1⟩
        have hrow₁ : db.workspaces cfg.workspaceId = some row := by
          rw [← hrow]
          exact congrFun (createOperation_frame hcreate).1 cfg.workspaceId
        -- the check has been made in this turn, so the Workspace gets to be deleted
        obtain ⟨db', row', hmoved, hl', hsame, hrow', hdeleting⟩ : ∃ db' row',
            (if row.status = .deleting then .ok (db, row) else transitionWorkspace db cfg.workspaceId
              [.detachedClean, .remoteOnly] .deleting s.clock) = .ok (db', row') ∧
            Ledger cfg.workspaceId db' ∧ db'.operations = db.operations ∧
            db'.workspaces cfg.workspaceId = some row' ∧ row'.status = .deleting := by
          split_ifs with hdeleting
          · exact ⟨db, row, rfl, hb.ledger, rfl, hrow₁, hdeleting⟩
          · have hmovable : row.status ∈ [.detachedClean, .remoteOnly] := by
              simpa [hdeleting] using hstatus
            have hmove := transitionWorkspace_eq hrow₁ hmovable hidle .deleting s.clock
            exact ⟨_, _, hmove, hb.ledger.transition (by decide) (by decide) hmove, rfl,
              Db.putWorkspace_workspaces .., rfl⟩
        rw [hmoved]
        -- what comes next starts with the new operation
        have hnext (m s' : Retirement) (hd : Deleting cfg.workspaceId m operation.id)
            (hm : ∀ o ∈ incompleteOperations m.host.db, o ∈ incompleteOperations s.host.db ∨
              o.id = operation.id)
            (hsucceeded : ∀ o ∈ m.host.db.operations, o.status = .succeeded →
              ∃ p ∈ s.host.db.operations, p.status = .succeeded ∧ SameOp p o)
            (hs' : Serves cfg.workspaceId claims (·.id = operation.id) drives' m s') :
            Serves cfg.workspaceId claims (fun _ => False) drives' s s' := by
          obtain ⟨r, hr, hstatus⟩ := hd.row
          refine ⟨hs'.ok, fun _ => hs'.clean (clean_of_status hr (by rw [hstatus]; decide)),
            fun _ => .of_status hrow hdirty, fun o ho => ?_, fun o ho => ?_,
            fun o' ho' hs r hr => ?_⟩
          · rcases ho with ⟨c, hc, -⟩ | ⟨stage, hstage, -⟩
            · rw [hfree] at hc
              cases hc
            · rw [hretiring] at hstage
              cases hstage
          · rcases hs'.settles o ho with hdriven | hdriven | ⟨hold, hid⟩
            · exact .inl hdriven
            · exact .inr (.inl hdriven)
            · exact .inr (.inr ⟨(hm o hold).resolve_right hid, id⟩)
          · rcases hs'.restores o' ho' hs r hr with hnew | ⟨o, ho, hos, hsame⟩ | ⟨-, r', hr', hclean⟩
            · exact .inl hnew
            · obtain ⟨p, hp, hps, hpo⟩ := hsucceeded o ho hos
              exact .inr (.inl ⟨p, hp, hps, hpo.trans hsame⟩)
            · obtain ⟨r'', hr'', hstatus'⟩ := hd.row
              obtain rfl := Option.some.inj (hr'.symm.trans hr'')
              rw [hstatus'] at hclean
              cases hclean
        have hmid (db₁ : Tables) (hl₁ : Ledger cfg.workspaceId db₁)
            (hp : Persists db db₁) (hw : db₁.workspaces cfg.workspaceId = some row') :
            Deleting cfg.workspaceId (s.setDb db₁) operation.id := by
          refine ⟨⟨hl₁, fun c hc => ?_⟩, hfree, hhas.persists hp, ⟨row', hw, hdeleting⟩,
            fun stage hstage => ?_⟩
          · rw [show (s.setDb db₁).host.holder = none from hfree] at hc
            cases hc
          · rw [show (s.setDb db₁).retiring = none from hretiring] at hstage
            cases hstage
        have hdb' : ∀ o ∈ incompleteOperations db', o ∈ incompleteOperations s.host.db ∨
            o.id = operation.id := fun o ho => by
          rw [incompleteOperations, hsame] at ho
          exact (hincomplete o ho).imp_right And.right
        have hdone (o : Operation) (ho : o ∈ db'.operations) (hs : o.status = .succeeded) :
            ∃ p ∈ s.host.db.operations, p.status = .succeeded ∧ SameOp p o :=
          ⟨o, created_succeeded (k := .retire) hcreate (hsame ▸ ho) hs, hs, .refl o⟩
        dsimp only
        split
        · have hd := hmid db' hl' (.of_eq hsame) hrow'
          exact hnext _ _ hd hdb' hdone (hd.giveUp _)
        · rename_i db'' hupdate
          have hu := updateOperation_updated hupdate
          have hd := hmid db'' (hl'.updated hu fun he => by cases he)
            ((Persists.of_eq hsame).trans hu.persists)
            ((congrFun hu.workspaces cfg.workspaceId).trans hrow')
          have hm : ∀ o ∈ incompleteOperations (s.setDb db'').host.db,
              o ∈ incompleteOperations s.host.db ∨ o.id = operation.id := fun o ho => by
            rcases hu.incomplete ho with ⟨hold, -⟩ | ⟨hid, -⟩
            · exact hdb' o hold
            · exact .inr hid
          have hdone' (o : Operation) (ho : o ∈ (s.setDb db'').host.db.operations)
              (hs : o.status = .succeeded) :
              ∃ p ∈ s.host.db.operations, p.status = .succeeded ∧ SameOp p o := by
            rcases hu.succeeded ho hs with ⟨p, hp, hps, hpo⟩ | ⟨-, hrunning⟩
            · obtain ⟨q, hq, hqs, hqp⟩ := hdone p hp hps
              exact ⟨q, hq, hqs, hqp.trans hpo⟩
            · cases hrunning
          split
          · exact hnext _ _ hd hm hdone' (hd.wait rfl rfl rfl rfl)
          · exact hnext _ _ hd hm hdone' (hd.recordRetired 0)

end Retire

/-! ## Every step -/

/-- The operations that a coroutine is going to do something about. -/
def RetireTask.Drives (workspaceId : String) (s : Retirement) (o : Operation) : RetireTask → Prop
  | .backend t => t.Drives workspaceId s.host o
  | _ => False

/-- The operations that a coroutine does something about in its next turn. -/
def RetireTask.Acts (workspaceId : String) (s : Retirement) (o : Operation) : RetireTask → Prop
  | .backend t => if t.locks then t.Takes workspaceId s.host o else t.Drives workspaceId s.host o
  | _ => False

/-- The task claims the Workspace. -/
def RetireTask.Claims : RetireTask → Prop
  | .backend t => t.claims ≠ none
  | _ => False

/-- The operations that the holder of the lock or the retire does something about in its next
turn. -/
def RetireEvent.Acts (workspaceId : String) (s : Retirement) (o : Operation) : RetireEvent → Prop
  | .backend (.holder _) => s.host.Drives workspaceId o
  | .retirer _ => ∃ stage, s.retiring = some stage ∧ o.id = stage.operationId
  | _ => False

section Steps

variable {cfg : RetireSettings} {ws : String} {claims : Prop} {s s' : Retirement}
  {drives drives' : Operation → Prop} {turn : Turn}

theorem RowBeside.trans {row mid row' : WorkspaceRecord} (h : RowBeside claims row mid)
    (h' : RowBeside claims mid row') : RowBeside claims row row' where
  head := h'.head.trans h.head
  clean := fun he => h.clean (h'.clean he)
  busy := fun hbusy => by
    obtain ⟨hstatus, hgeneration⟩ := h.busy hbusy
    obtain ⟨hstatus', hgeneration'⟩ := h'.busy (by rw [hstatus]; exact hbusy)
    exact ⟨hstatus'.trans hstatus, hgeneration'.trans hgeneration⟩
  detached := fun hclaims hne => by
    obtain ⟨hstatus, hgeneration⟩ := h.detached hclaims hne
    obtain ⟨hstatus', hgeneration'⟩ := h'.detached hclaims (by rw [hstatus]; exact hne)
    exact ⟨hstatus'.trans hstatus, hgeneration'.trans hgeneration⟩

/-- A coroutine that neither claims nor drives anything. -/
theorem Works.idle {a b : Host} (h : Works ws claims (fun _ => False) drives' a b)
    (hclaims : ¬ claims) : Works ws False (fun _ => False) drives a b where
  toBeside := h.toBeside.mono hclaims
  settles := fun o ho => ⟨(h.settles o ho).1, False.elim⟩
  restores := h.restores

/-- What comes after leaves the operations alone. -/
theorem Works.trans_beside {a b c : Host} (h : Works ws claims drives drives' a b)
    (hb : Beside ws claims b c) (hsame : c.db.operations = b.db.operations) :
    Works ws claims drives drives' a c where
  ledger := hb.ledger
  persists := h.persists.trans hb.persists
  row := fun row hr => by
    obtain ⟨mid, hmid, hm⟩ := h.row row hr
    obtain ⟨row', hrow', hr'⟩ := hb.row mid hmid
    exact ⟨row', hrow', hm.trans hr'⟩
  fresh := fun hnone row' hrow' => by
    cases hmid : b.db.workspaces ws with
    | none => exact hb.fresh hmid row' hrow'
    | some mid =>
      obtain ⟨row'', hrow'', hr⟩ := hb.row mid hmid
      obtain rfl := Option.some.inj (hrow'.symm.trans hrow'')
      exact hr.head.trans (h.fresh hnone mid hmid)
  volume := fun content hc => hb.volume content (h.volume content hc)
  snapshots := hb.snapshots.trans h.snapshots
  holder := hb.holder.trans h.holder
  settles := fun o ho => h.settles o (by rwa [incompleteOperations, hsame] at ho)
  restores := fun o' ho' hs => h.restores o' (hsame ▸ ho') hs

theorem release_beside (cfg : RetireSettings) (claims : Prop)
    (hl : Ledger cfg.workspaceId s.host.db) :
    Beside cfg.workspaceId claims s.host (scheduleDelete cfg s).host ∧
      (scheduleDelete cfg s).host.db.operations = s.host.db.operations ∧
      (scheduleDelete cfg s).retiring = s.retiring := by
  rw [scheduleDelete]
  cases hok : scheduleWorkspaceDelete s.host.db cfg.workspaceId
      (s.clock + cfg.workspaceDeleteGraceSeconds) s.clock with
  | error e => exact ⟨.of_db hl rfl rfl (fun _ h => h) rfl rfl, rfl, rfl⟩
  | ok r => exact ⟨scheduleDelete_beside hl hok, scheduleDelete_operations hok, rfl⟩

/-- **Every turn of a coroutine.** -/
theorem retireTaskStep_serves (h : RetirementOk cfg.workspaceId s) {t t' : RetireTask}
    (hstep : retireTaskStep cfg s turn t = some (s', t')) :
    Serves cfg.workspaceId t.Claims (fun o => t.Acts cfg.workspaceId s o)
      (fun o => t'.Drives cfg.workspaceId s' o) s s' := by
  cases t with
  | backend t =>
    rw [retireTaskStep] at hstep
    split at hstep
    · cases hstep
    · rename_i hfree
      obtain ⟨r, hr, heq⟩ := Option.map_eq_some_iff.mp hstep
      obtain ⟨rfl, rfl⟩ := Prod.mk.inj heq
      cases hlocks : t.locks with
      | true =>
        have hnone : s.retiring = none := by simpa [hlocks] using hfree
        obtain ⟨hheld, ha⟩ := lockStep_advances h.host hlocks hr
        have hacts : (fun o => (RetireTask.backend t).Acts cfg.workspaceId s o) =
            fun o => t.Takes cfg.workspaceId s.host o := by
          funext o
          simp [RetireTask.Acts, hlocks]
        rw [hacts]
        refine Advances.serves ha hnone rfl fun o ho => ?_
        obtain ⟨c, hc, -⟩ := ho
        rw [hheld] at hc
        cases hc
      | false =>
        have hw := taskStep_works h.host hlocks hr
        have hacts : (fun o => (RetireTask.backend t).Acts cfg.workspaceId s o) =
            fun o => t.Drives cfg.workspaceId s.host o := by
          funext o
          simp [RetireTask.Acts, hlocks]
        rw [hacts]
        exact Works.serves h hw rfl
  | releaseRemove sandboxId =>
    obtain ⟨r, hr, heq⟩ := Option.map_eq_some_iff.mp hstep
    obtain ⟨rfl, -⟩ := Prod.mk.inj heq
    have hw := taskStep_works h.host rfl hr
    exact Works.serves h (hw.idle fun he => he rfl) rfl
  | releaseRemoved sandboxId =>
    rw [retireTaskStep] at hstep
    obtain ⟨r, hr, heq⟩ := Option.map_eq_some_iff.mp hstep
    obtain ⟨rfl, rfl⟩ := Prod.mk.inj heq
    have hw := taskStep_works h.host rfl hr
    have hw' : Works cfg.workspaceId False (fun _ => False) (fun o => (RetireTask.backend r.2).Drives
        cfg.workspaceId (scheduleDelete cfg { s with host := r.1 }) o) s.host r.1 :=
      hw.idle fun he => he rfl
    obtain ⟨hb, hsame, hretiring⟩ := release_beside cfg False (s := { s with host := r.1 }) hw'.ledger
    exact Works.serves h (hw'.trans_beside hb hsame) hretiring
  | retireLock =>
    rw [retireTaskStep] at hstep
    split at hstep
    · cases hstep
    · rename_i hfree
      simp only [Bool.or_eq_true, not_or, Bool.not_eq_true, Option.isSome_eq_false_iff,
        Option.isNone_iff_eq_none] at hfree
      obtain ⟨rfl, -⟩ := Prod.mk.inj (Option.some.inj hstep)
      exact retireBegin_serves h hfree.1 hfree.2 turn.text

/-- **Every event.** -/
theorem retireEventStep_serves (h : RetirementOk cfg.workspaceId s) {e : RetireEvent}
    {ts : List RetireTask} (hstep : retireEventStep cfg s e = some (s', ts)) :
    Serves cfg.workspaceId False (fun o => e.Acts cfg.workspaceId s o)
      (fun o => ∃ t ∈ ts, t.Drives cfg.workspaceId s' o) s s' := by
  have hkeep (host : Host) (hb : Beside cfg.workspaceId False s.host host)
      (hsame : host.db.operations = s.host.db.operations) {m : Retirement} (hhost : m.host = host)
      (hretiring : m.retiring = s.retiring) :
      Serves cfg.workspaceId False (fun _ => False) (fun o => ∃ t ∈ ts, t.Drives cfg.workspaceId m o)
        s m := by
    subst hhost
    exact Works.serves h (hb.works hsame fun _ ho => ho.elim) hretiring
  have hsame (m : Retirement) (hhost : m.host = s.host) (hretiring : m.retiring = s.retiring) :=
    hkeep s.host (.of_db h.host.ledger rfl rfl (fun _ h => h) rfl rfl) rfl hhost hretiring
  cases e with
  | backend e =>
    obtain ⟨r, hr, heq⟩ := Option.map_eq_some_iff.mp hstep
    obtain ⟨rfl, rfl⟩ := Prod.mk.inj heq
    by_cases hholder : ∃ turn, e = .holder turn
    · obtain ⟨turn, rfl⟩ := hholder
      obtain ⟨c, hc, hstep'⟩ := Option.bind_eq_some_iff.mp hr
      have ha := criticalStep_advances h.host hc hstep'
      have hnone : s.retiring = none := by
        cases hretiring : s.retiring with
        | none => rfl
        | some stage =>
          rw [(h.retiring stage hretiring).1] at hc
          cases hc
      have hdrives : (fun o => (RetireEvent.backend (.holder turn)).Acts cfg.workspaceId s o) =
          fun o => c.Drives cfg.workspaceId o := by
        funext o
        refine propext ⟨fun ho => ?_, fun ho => ⟨c, hc, ho⟩⟩
        obtain ⟨c', hc', hd⟩ := ho
        exact Option.some.inj (hc'.symm.trans hc) ▸ hd
      rw [hdrives]
      refine Advances.serves ha hnone rfl fun o ho => ?_
      obtain ⟨c', hc', hd⟩ := ho
      exact Option.some.inj (hc'.symm.trans hc) ▸ hd
    · have hb := eventStep_begins h.host (fun turn he => hholder ⟨turn, he⟩) hr
      have hserves := Begins.serves h (show Begins cfg.workspaceId r.2 s.host
        ({ s with host := r.1 } : Retirement).host from hb) rfl
      have hacts : (fun o => (RetireEvent.backend e).Acts cfg.workspaceId s o) = fun _ => False := by
        funext o
        cases e with
        | holder turn => exact absurd ⟨turn, rfl⟩ hholder
        | _ => rfl
      rw [hacts]
      refine { hserves with settles := fun o ho => ?_ }
      rcases hserves.settles o ho with hd | ⟨t, ht, hd⟩ | hold
      · exact .inl hd
      · exact .inr (.inl ⟨.backend t, List.mem_map_of_mem ht, hd⟩)
      · exact .inr (.inr hold)
  | createWorkspace volumeName =>
    rw [retireEventStep] at hstep
    split at hstep
    · cases hstep
    · rename_i db row hcreate
      obtain ⟨rfl, rfl⟩ := Prod.mk.inj (Option.some.inj hstep)
      exact hkeep { s.host with db := db } (createWorkspace_beside h.host.ledger hcreate)
        (createWorkspace_operations hcreate) rfl rfl
  | release =>
    rw [retireEventStep] at hstep
    split at hstep
    · cases hstep
    · split at hstep
      · obtain ⟨rfl, rfl⟩ := Prod.mk.inj (Option.some.inj hstep)
        obtain ⟨hb, ho, hretiring⟩ := release_beside cfg False h.host.ledger
        exact hkeep _ hb ho rfl hretiring
      · split_ifs at hstep
        obtain ⟨rfl, rfl⟩ := Prod.mk.inj (Option.some.inj hstep)
        exact hsame s rfl rfl
  | retire =>
    obtain ⟨row, -, hr⟩ := Option.bind_eq_some_iff.mp hstep
    split at hr
    · obtain ⟨rfl, rfl⟩ := Prod.mk.inj (Option.some.inj hr)
      exact hsame s rfl rfl
    · cases hr
  | retirer turn =>
    obtain ⟨stage, hstage, heq⟩ := Option.map_eq_some_iff.mp hstep
    obtain ⟨rfl, rfl⟩ := Prod.mk.inj heq
    have hacts : (fun o => (RetireEvent.retirer turn).Acts cfg.workspaceId s o) =
        fun o => o.id = stage.operationId := by
      funext o
      refine propext ⟨fun ho => ?_, fun ho => ⟨stage, hstage, ho⟩⟩
      obtain ⟨stage', hstage', hid⟩ := ho
      exact Option.some.inj (hstage'.symm.trans hstage) ▸ hid
    rw [hacts]
    exact retireStep_serves h hstage turn
  | tick now =>
    rw [retireEventStep] at hstep
    split at hstep
    · obtain ⟨rfl, rfl⟩ := Prod.mk.inj (Option.some.inj hstep)
      exact hsame _ rfl rfl
    · cases hstep

end Steps

end CodexGateway.Manager
