import CodexGateway.Manager.Settled

/-!
# Manager/Restored — a restore that has succeeded had its revision in the volume

A restore puts the revision into the volume before its record succeeds.  The records that succeed
without one are those of a Workspace that is `detached_clean`, whose volume has the head unless a
clean-up has just removed it (`Clean`).  But the key of a restore comes back with every clean-up,
and the record of an older restore answers for the new one.
-/

namespace CodexGateway.Manager

/-! ## Restores that are taken for done -/

/-- The Workspace is clean, and its volume has not just been removed. -/
def Host.settledClean (s : Host) (row : WorkspaceRecord) : Bool :=
  row.status = .detachedClean && s.holder ≠ some .cleanupRemoved

/-- The record of an older restore would answer for the head. -/
def Host.answered (workspaceId : String) (s : Host) (row : WorkspaceRecord) : Bool :=
  row.headRevision.any fun revisionId => s.db.operations.any fun o =>
    o.idempotencyKey = (OpKey.restore revisionId).text workspaceId && o.status = .succeeded

/-- The restore is one of the head. -/
def Host.asksHead (s : Host) (row : WorkspaceRecord) (operationId : String) : Bool :=
  s.db.operations.all fun o =>
    o.id ≠ operationId || row.headRevision.any fun revisionId => o.input = .revision revisionId

/-- A requested restore that finds the Workspace clean is taken for done, although its revision is
no more the head or the volume is not there. -/
def RetireTask.presumes (workspaceId : String) (s : Host) : RetireTask → Bool
  | .backend (.restoreRequested operationId) => (s.db.workspaces workspaceId).any fun row =>
      row.status = .detachedClean && !(s.settledClean row && s.asksHead row operationId)
  | _ => false

/-- The process ends while the volume of a clean Workspace goes. -/
def Host.losesVolume (s : Host) (taken : Bool) : Bool :=
  s.holder = some .cleanupRemoved || taken && s.holder = some .cleanupRemove

/-- **A step takes a restore for done**, or loses the volume of a clean Workspace. -/
def Life.presumes (cfg : RetireSettings) (w : Life) : LifeAction → Bool
  | .serve (.env (.backend (.requestRestore _))) =>
      (w.pool.shared.host.db.workspaces cfg.workspaceId).any fun row =>
        w.pool.shared.host.answered cfg.workspaceId row && !w.pool.shared.host.settledClean row
  | .serve (.task i _) => w.pool.tasks[i]?.any fun t =>
      t.presumes cfg.workspaceId w.pool.shared.host
  | .crash taken _ => w.pool.shared.host.losesVolume taken
  | _ => false

section Restored

variable {cfg : RetireSettings} {ws : String} {s s' : Retirement} {w w' : Life} {turn : Turn}
  {revisionId : String} {o' : Operation}

/-! ## A clean Workspace has its head -/

/-- What the holder of the lock has an operation for is not clean. -/
theorem Critical.Ok.not_clean {host : Host} {row : WorkspaceRecord} {c : Critical} {o : Operation}
    (hok : c.Ok ws host row) (hd : c.Drives ws o) : row.status ≠ .detachedClean := by
  have of_eq {status : WorkspaceStatus} (h : row.status = status) (hne : status ≠ .detachedClean) :
      row.status ≠ .detachedClean := h ▸ hne
  cases c with
  | prepareExists _ current | prepareDecide _ current _ => exact hok.2 hd.2.1
  | restoreExists _ _ | restoreRemove _ _ | restoreEnsure _ _ | restoreBegin _ _ => exact hok.2
  | restoreRun _ _ _ | restoreDone _ _ _ => exact of_eq hok.1 (by decide)
  | restoreUndo _ _ _ | restoreFail _ _ _ => exact hok
  | checkpointRun _ _ | checkpointDone _ _ _ | checkpointFail _ _ => exact of_eq hok.1 (by decide)
  | prepareEnsure _ | cleanupRemove | cleanupRemoved => exact hd.elim

/-- The volume that a crash takes is that of a clean-up, or the Workspace is not clean. -/
theorem crash_clean (h : RetirementOk ws s) (hclean : Clean ws s.host) {taken : Bool}
    {kept : List String} (hkept : s.host.losesVolume taken = false) :
    Clean ws (s.crash taken kept).host := by
  intro row hrow hstatus _ r hhead
  have hrow : s.host.db.workspaces ws = some row := hrow
  rw [Host.losesVolume, Bool.or_eq_false_iff, decide_eq_false_iff_not] at hkept
  obtain ⟨hremoved, hremove⟩ := hkept
  have hidle : s.retiring = none := by
    cases hstage : s.retiring with
    | none => rfl
    | some stage =>
      obtain ⟨-, -, row', hrow', hdeleting⟩ := h.retiring stage hstage
      obtain rfl := Option.some.inj (hrow.symm.trans hrow')
      rw [hstatus] at hdeleting
      cases hdeleting
  have hstays : (taken && (s.host.holder.any (·.removes))) = false := by
    cases hheld : s.host.holder with
    | none => simp
    | some c =>
      obtain ⟨row', hrow', hcok⟩ := h.host.holds c hheld
      obtain rfl := Option.some.inj (hrow.symm.trans hrow')
      cases c with
      | restoreRemove _ _ => exact absurd hstatus hcok.2
      | restoreUndo _ _ _ => exact absurd hstatus hcok
      | cleanupRemove =>
        have htaken : taken = false := by simpa [hheld] using hremove
        rw [htaken]
        rfl
      | _ => simp [Critical.removes]
  obtain ⟨content, hcontent, hcontains⟩ := hclean row hrow hstatus hremoved r hhead
  refine ⟨content, ?_, ?_⟩
  · simp [Retirement.crash, hidle, hcontent]
  · simpa [Host.Contains, Retirement.crash, hidle, hstays] using hcontains

/-- **Every step keeps the head in the volume of a clean Workspace.** -/
theorem Life.step_clean (hok : LifeOk cfg.workspaceId w)
    (hclean : Clean cfg.workspaceId w.pool.shared.host) {a : LifeAction}
    (hkept : w.presumes cfg a = false) (hstep : w.step cfg a = some w') :
    Clean cfg.workspaceId w'.pool.shared.host := by
  cases a with
  | serve a =>
    rw [Life.step] at hstep
    split at hstep
    · obtain ⟨pool, hpool, rfl⟩ := Option.map_eq_some_iff.mp hstep
      cases a with
      | task i turn =>
        obtain ⟨t, s, t', -, hact, rfl⟩ := Pool.step_task.mp hpool
        exact (retireTaskStep_serves hok.served hact).clean hclean
      | env e =>
        obtain ⟨s, ts, henv, rfl⟩ := Pool.step_env.mp hpool
        exact (retireEventStep_serves hok.served henv).clean hclean
    · cases hstep
  | crash taken kept =>
    obtain rfl := Option.some.inj hstep
    exact crash_clean hok.served hclean hkept
  | write changes =>
    rw [Life.step] at hstep
    split at hstep
    · obtain rfl := Option.some.inj hstep
      have hb : Beside cfg.workspaceId False w.pool.shared.host
          (w.pool.shared.host.write changes) :=
        .of_db hok.served.host.ledger rfl rfl (fun _ hc => hc.write changes) rfl rfl
      exact hclean.beside hb
    · cases hstep
  | boot turn =>
    obtain ⟨stage, hstage, hmap⟩ := Option.bind_eq_some_iff.mp hstep
    obtain ⟨r, hr, rfl⟩ := Option.map_eq_some_iff.mp hmap
    exact (bootStep_boots hok.served.host.ledger hr).clean hclean

/-! ## What makes a restore succeed -/

/-- A restore that is asked for ends its record, and makes none. -/
theorem restoreRequested_mem {cfg : Settings} {host host' : Host} {operationId : String} {t' : Task}
    (hstep : taskStep cfg host turn (.restoreRequested operationId) = some (host', t')) :
    ∀ o' ∈ host'.db.operations, ∃ o ∈ host.db.operations, SameOp o o' := by
  have hended (status : OperationStatus) (result : Option OperationResult) (error : Option String) :
      ∀ o' ∈ (endOperation host.db operationId status result error turn.now).operations,
        ∃ o ∈ host.db.operations, SameOp o o' := by
    intro o' ho'
    obtain ⟨o, ho, hsame, -⟩ := (endOperation_updated ..).mem ho'
    exact ⟨o, ho, hsame⟩
  simp only [taskStep] at hstep
  split at hstep
  · obtain ⟨rfl, -⟩ := Prod.mk.inj (Option.some.inj hstep)
    exact hended _ _ _
  · split_ifs at hstep
    · obtain ⟨rfl, -⟩ := Prod.mk.inj (Option.some.inj hstep)
      exact hended _ _ _
    · obtain ⟨rfl, -⟩ := Prod.mk.inj (Option.some.inj hstep)
      exact hended _ _ _
    · obtain ⟨rfl, -⟩ := Prod.mk.inj (Option.some.inj hstep)
      exact fun o' ho' => ⟨o', ho', .refl o'⟩

/-- A clean Workspace that stays so has its head in the volume. -/
theorem Clean.materialised {host host' : Host} (hclean : Clean ws host)
    {row : WorkspaceRecord} (hrow : host.db.workspaces ws = some row)
    (hsettled : host.settledClean row = true) (hhead : row.headRevision = some revisionId)
    (hb : Beside ws False host host') : Materialised ws host' revisionId := by
  simp only [Host.settledClean, Bool.and_eq_true, decide_eq_true_eq] at hsettled
  obtain ⟨row', hrow', hr⟩ := hb.row row hrow
  have hstatus := (hr.detached id (by rw [hsettled.1]; decide)).1
  exact ⟨row', hrow', .inl (hstatus.trans hsettled.1),
    (hclean row hrow hsettled.1 hsettled.2 revisionId hhead).grow hb.volume hb.snapshots⟩

/-- **A turn of a coroutine that a restore succeeds in.** -/
theorem retireTaskStep_restores (h : RetirementOk cfg.workspaceId s)
    (hclean : Clean cfg.workspaceId s.host) {t t' : RetireTask}
    (hpresumes : t.presumes cfg.workspaceId s.host = false)
    (hstep : retireTaskStep cfg s turn t = some (s', t')) (ho' : o' ∈ s'.host.db.operations)
    (hs : o'.status = .succeeded) (hkeyed : Keyed cfg.workspaceId o' (.restore revisionId)) :
    Materialised cfg.workspaceId s'.host revisionId ∨
      ∃ o ∈ s.host.db.operations, o.status = .succeeded ∧ SameOp o o' := by
  rcases (retireTaskStep_serves h hstep).restores o' ho' hs revisionId hkeyed with
    hdone | hold | ⟨hacts, row, hrow, hstatus⟩
  · exact .inl hdone
  · exact .inr hold
  · cases t with
    | backend t =>
      cases t with
      | restoreRequested operationId =>
        have hid : o'.id = operationId := hacts
        simp only [retireTaskStep, Task.locks, Bool.and_false, Bool.false_eq_true, if_false] at hstep
        obtain ⟨r, hr, heq⟩ := Option.map_eq_some_iff.mp hstep
        obtain ⟨rfl, -⟩ := Prod.mk.inj heq
        obtain ⟨o, ho, hsame⟩ := restoreRequested_mem hr o' ho'
        simp only [RetireTask.presumes, hrow, Option.any_some, hstatus, decide_true, Bool.true_and,
          Bool.not_eq_false', Bool.and_eq_true] at hpresumes
        obtain ⟨hsettled, hasks⟩ := hpresumes
        have hhead : row.headRevision = some revisionId := by
          have ho := List.all_eq_true.mp hasks o ho
          simp only [hsame.id.symm.trans hid, ne_eq, not_true_eq_false, decide_false, Bool.false_or,
            Option.any_eq_true, decide_eq_true_eq] at ho
          obtain ⟨r, hr, hinput⟩ := ho
          rw [hr, OperationInput.revision.inj (hinput.symm.trans (hsame.input.symm.trans
            hkeyed.input))]
        have hw := taskStep_works h.host rfl hr
        exact .inl (hclean.materialised hrow hsettled hhead (hw.toBeside.mono fun he => he rfl))
      | restoreLock operationId =>
        obtain ⟨-, r, -, hr, hremote, -⟩ := (show Task.Takes cfg.workspaceId s.host o'
          (.restoreLock operationId) from hacts)
        obtain rfl := Option.some.inj (hrow.symm.trans hr)
        rw [hstatus] at hremote
        cases hremote
      | checkpointLock =>
        obtain ⟨r, hr, hdirty, -⟩ := (show Task.Takes cfg.workspaceId s.host o' .checkpointLock
          from hacts)
        obtain rfl := Option.some.inj (hrow.symm.trans hr)
        rw [hstatus] at hdirty
        cases hdirty
      | createLock sandboxId | cleanupLock => exact (show False from hacts).elim
      | _ => exact (show False from hacts).elim
    | _ => exact hacts.elim

/-- **An event that a restore succeeds in.** -/
theorem retireEventStep_restores (h : RetirementOk cfg.workspaceId s) {e : RetireEvent}
    {ts : List RetireTask} (hstep : retireEventStep cfg s e = some (s', ts))
    (ho' : o' ∈ s'.host.db.operations) (hs : o'.status = .succeeded)
    (hkeyed : Keyed cfg.workspaceId o' (.restore revisionId)) :
    Materialised cfg.workspaceId s'.host revisionId ∨
      ∃ o ∈ s.host.db.operations, o.status = .succeeded ∧ SameOp o o' := by
  rcases (retireEventStep_serves h hstep).restores o' ho' hs revisionId hkeyed with
    hdone | hold | ⟨hacts, row, hrow, hstatus⟩
  · exact .inl hdone
  · exact .inr hold
  · cases e with
    | backend e =>
      cases e with
      | holder turn =>
        obtain ⟨c, hc, hd⟩ := (show s.host.Drives cfg.workspaceId o' from hacts)
        obtain ⟨r, hr, hcok⟩ := h.host.holds c hc
        obtain rfl := Option.some.inj (hrow.symm.trans hr)
        exact absurd hstatus (hcok.not_clean hd)
      | _ => exact (show False from hacts).elim
    | retirer turn =>
      obtain ⟨stage, hstage, -⟩ := hacts
      obtain ⟨-, -, r, hr, hdeleting⟩ := h.retiring stage hstage
      obtain rfl := Option.some.inj (hrow.symm.trans hr)
      rw [hstatus] at hdeleting
      cases hdeleting
    | _ => exact (show False from hacts).elim

/-- **A step that a restore succeeds in.** -/
theorem Life.step_restores (hok : LifeOk cfg.workspaceId w)
    (hclean : Clean cfg.workspaceId w.pool.shared.host) {a : LifeAction}
    (hpresumes : w.presumes cfg a = false) (hstep : w.step cfg a = some w')
    (ho' : o' ∈ w'.pool.shared.host.db.operations) (hs : o'.status = .succeeded)
    (hkeyed : Keyed cfg.workspaceId o' (.restore revisionId)) :
    Materialised cfg.workspaceId w'.pool.shared.host revisionId ∨
      ∃ o ∈ w.pool.shared.host.db.operations, o.status = .succeeded ∧ SameOp o o' := by
  cases a with
  | serve a =>
    rw [Life.step] at hstep
    split at hstep
    · obtain ⟨pool, hpool, rfl⟩ := Option.map_eq_some_iff.mp hstep
      cases a with
      | task i turn =>
        obtain ⟨t, s, t', ht, hact, rfl⟩ := Pool.step_task.mp hpool
        rw [Life.presumes, ht, Option.any_some] at hpresumes
        exact retireTaskStep_restores hok.served hclean hpresumes hact ho' hs hkeyed
      | env e =>
        obtain ⟨s, ts, henv, rfl⟩ := Pool.step_env.mp hpool
        exact retireEventStep_restores hok.served henv ho' hs hkeyed
    · cases hstep
  | crash taken kept =>
    obtain rfl := Option.some.inj hstep
    exact .inr ⟨o', ho', hs, .refl o'⟩
  | write changes =>
    rw [Life.step] at hstep
    split at hstep
    · obtain rfl := Option.some.inj hstep
      exact .inr ⟨o', ho', hs, .refl o'⟩
    · cases hstep
  | boot turn =>
    obtain ⟨stage, hstage, hmap⟩ := Option.bind_eq_some_iff.mp hstep
    obtain ⟨r, hr, rfl⟩ := Option.map_eq_some_iff.mp hmap
    exact .inr ((bootStep_boots hok.served.host.ledger hr).restores o'
      ho' hs)

/-- **A run that a restore succeeds in.** -/
theorem restores_run (hok : LifeOk cfg.workspaceId w)
    (hclean : Clean cfg.workspaceId w.pool.shared.host) (as : List LifeAction)
    (hmeets : Machine.Meets (Life.step cfg) (fun w a => w.presumes cfg a = false) w as)
    (hrun : Machine.run (Life.step cfg) w as = some w')
    (ho' : o' ∈ w'.pool.shared.host.db.operations) (hs : o'.status = .succeeded)
    (hkeyed : Keyed cfg.workspaceId o' (.restore revisionId)) :
    (∃ o ∈ w.pool.shared.host.db.operations, o.status = .succeeded ∧ SameOp o o') ∨
      ∃ xs ys m, as = xs ++ ys ∧ Machine.run (Life.step cfg) w xs = some m ∧
        Materialised cfg.workspaceId m.pool.shared.host revisionId := by
  induction as generalizing w with
  | nil =>
    obtain rfl := Option.some.inj hrun
    exact .inl ⟨o', ho', hs, .refl o'⟩
  | cons a as ih =>
    obtain ⟨m, hstep, hrest⟩ := Machine.run_cons.mp hrun
    rcases ih (hok.step hstep) (Life.step_clean hok hclean hmeets.1 hstep) (hmeets.2 m hstep) hrest
      with ⟨o, ho, hos, hsame⟩ | ⟨xs, ys, n, rfl, hn, hdone⟩
    · rcases Life.step_restores hok hclean hmeets.1 hstep ho hos ((hsame.keyed_iff _).mp hkeyed)
        with hdone | ⟨p, hp, hps, hpo⟩
      · exact .inr ⟨[a], as, m, rfl, Machine.run_cons.mpr ⟨m, hstep, rfl⟩, hdone⟩
      · exact .inl ⟨p, hp, hps, hpo.trans hsame⟩
    · exact .inr ⟨a :: xs, ys, n, rfl, Machine.run_cons.mpr ⟨m, hstep, hn⟩, hdone⟩

theorem clean_run (clock : ℤ) (as : List LifeAction)
    (hmeets : Machine.Meets (Life.step cfg) (fun w a => w.presumes cfg a = false) (Life.init clock) as)
    (hrun : Machine.run (Life.step cfg) (Life.init clock) as = some w) :
    LifeOk cfg.workspaceId w ∧ Clean cfg.workspaceId w.pool.shared.host := by
  have hkeeps : ∀ v a v', v.presumes cfg a = false →
      LifeOk cfg.workspaceId v ∧ Clean cfg.workspaceId v.pool.shared.host →
      Life.step cfg v a = some v' →
      LifeOk cfg.workspaceId v' ∧ Clean cfg.workspaceId v'.pool.shared.host :=
    fun _ _ _ hkept hv hstep => ⟨hv.1.step hstep, Life.step_clean hv.1 hv.2 hkept hstep⟩
  exact Machine.run_invariant hkeeps hmeets hrun ⟨lifeOk_init clock, fun row hrow => by cases hrow⟩

/-! ## The request -/

/-- A restore is asked for. -/
def askRestore (turn : Turn) : LifeAction := .serve (.env (.backend (.requestRestore turn)))

theorem askRestore_cases (hstep : w.step cfg (askRestore turn) = some w') :
    ∃ row host ts, w.pool.shared.host.db.workspaces cfg.workspaceId = some row ∧
      requestRestore cfg.toSettings w.pool.shared.host row turn = some (host, ts) ∧
        w'.pool.shared.host = host := by
  rw [askRestore, Life.step] at hstep
  split at hstep
  · obtain ⟨pool, hpool, rfl⟩ := Option.map_eq_some_iff.mp hstep
    obtain ⟨s, ts, henv, rfl⟩ := Pool.step_env.mp hpool
    obtain ⟨r, hr, heq⟩ := Option.map_eq_some_iff.mp henv
    obtain ⟨rfl, -⟩ := Prod.mk.inj heq
    simp only [eventStep] at hr
    split at hr
    · obtain ⟨row, hrow, hr⟩ := Option.bind_eq_some_iff.mp hr
      exact ⟨row, r.1, r.2, hrow, hr, rfl⟩
    · cases hr
  · cases hstep

/-- The record that a request returns. -/
theorem requestRestore_record {cfg : Settings} {host host' : Host} {row : WorkspaceRecord}
    {ts : List Task} (hl : Ledger cfg.workspaceId host.db) (hhead : row.headRevision = some revisionId)
    (h : requestRestore cfg host row turn = some (host', ts)) :
    ∃ o ∈ host'.db.operations, Keyed cfg.workspaceId o (.restore revisionId) := by
  rw [requestRestore, hhead] at h
  dsimp only at h
  split_ifs at h
  split at h
  · cases h
  · rename_i db record created hbind
    have hcreate := bindOperation_created (k := .restore revisionId) hbind
    have hhas : HasOp cfg.workspaceId db record.id (.restore revisionId) :=
      ⟨record, (createOperation_cases hcreate).2.1, rfl,
        (hl.create (fun g hg => by cases hg) hcreate).2.1⟩
    rw [startOperation] at h
    split at h
    · cases h
    · rename_i db' record' scheduled hschedule
      obtain ⟨rfl, -⟩ := Prod.mk.inj (Option.some.inj h)
      have hpersists : Persists db db' := by
        rw [scheduleOperation] at hschedule
        split_ifs at hschedule
        · obtain ⟨rfl, -⟩ := Prod.mk.inj (Except.ok.inj hschedule)
          exact .refl _
        · split at hschedule
          · cases hschedule
          · rename_i db₁ hupdate
            obtain ⟨rfl, -⟩ := Prod.mk.inj (Except.ok.inj hschedule)
            exact (updateOperation_updated hupdate).persists
        · obtain ⟨rfl, -⟩ := Prod.mk.inj (Except.ok.inj hschedule)
          exact .refl _
      obtain ⟨o, ho, -, hkeyed⟩ := hhas.persists hpersists
      exact ⟨o, ho, hkeyed⟩

end Restored

/-- **Where no restore is taken for done, one that has succeeded had its revision in the volume of
the Workspace since it was asked for.** -/
theorem restore_materialised (cfg : RetireSettings) (clock : ℤ) (as bs : List LifeAction) (turn : Turn)
    (w w₁ w₂ : Life) (revisionId : String)
    (hmeets : Machine.Meets (Life.step cfg) (fun w a => w.presumes cfg a = false) (Life.init clock)
      (as ++ askRestore turn :: bs))
    (hrun : Machine.run (Life.step cfg) (Life.init clock) as = some w)
    (hask : w.step cfg (askRestore turn) = some w₁)
    (hhead : (w.pool.shared.host.db.workspaces cfg.workspaceId).bind (·.headRevision) =
      some revisionId)
    (hrest : Machine.run (Life.step cfg) w₁ bs = some w₂) :
    (∃ o ∈ w₁.pool.shared.host.db.operations,
      o.idempotencyKey = (OpKey.restore revisionId).text cfg.workspaceId) ∧
    ∀ o ∈ w₂.pool.shared.host.db.operations,
      o.idempotencyKey = (OpKey.restore revisionId).text cfg.workspaceId → o.status = .succeeded →
        ∃ xs ys m, bs = xs ++ ys ∧ Machine.run (Life.step cfg) w₁ xs = some m ∧
          Materialised cfg.workspaceId m.pool.shared.host revisionId := by
  obtain ⟨hbefore, hlater⟩ := Machine.meets_append hmeets
  obtain ⟨hasks, hafter⟩ := hlater w hrun
  obtain ⟨hok, hclean⟩ := clean_run clock as hbefore hrun
  obtain ⟨row, host, ts, hrow, hrequest, hhost⟩ := askRestore_cases hask
  rw [hrow, Option.bind_some] at hhead
  have hl := hok.served.host.ledger
  refine ⟨?_, fun o ho hkey hs => ?_⟩
  · obtain ⟨o, ho, hkeyed⟩ := requestRestore_record hl hhead hrequest
    exact ⟨o, hhost ▸ ho, hkeyed.key⟩
  · have hok₁ := hok.step hask
    have hok₂ : LifeOk cfg.workspaceId w₂ :=
      Machine.run_keeps (fun _ _ _ h hstep => h.step hstep) hrest hok₁
    have hkeyed := hok₂.served.host.ledger.keyed_of_key ho (k := .restore revisionId) hkey
    rcases restores_run hok₁ (Life.step_clean hok hclean hasks hask) bs (hafter w₁ hask) hrest ho hs
      hkeyed with ⟨p, hp, hps, hpo⟩ | hdone
    · -- it had succeeded when the request was answered
      have hpkeyed := (hpo.keyed_iff _).mp hkeyed
      have hb := requestRestore_begins hl hrequest
      obtain ⟨q, hq, hqs, hqp⟩ := hb.restores p (hhost ▸ hp) hps revisionId hpkeyed
      have hqkeyed := (hqp.keyed_iff _).mp hpkeyed
      have hanswered : w.pool.shared.host.answered cfg.workspaceId row = true := by
        rw [Host.answered, hhead, Option.any_some]
        exact List.any_eq_true.mpr ⟨q, hq, by simp [hqkeyed.key, hqs]⟩
      have hsettled : w.pool.shared.host.settledClean row = true := by
        simpa [Life.presumes, askRestore, hrow, hanswered] using hasks
      refine ⟨[], bs, w₁, rfl, rfl, ?_⟩
      rw [hhost]
      exact hclean.materialised hrow hsettled hhead hb.toBeside
    · exact hdone

/-- A clean-up of the Workspace, by a coroutine that waits for the lock. -/
def cleaning (lock : ℕ) (now : ℤ) : List (Pool.Action Turn Event) :=
  [.env .cleanup, .task lock (succeeds "" now)] ++ List.replicate 2 (.env (.holder (succeeds "" now)))

/-- The steps of the backend while no retire and no crash comes between. -/
def served (as : List (Pool.Action Turn Event)) : List LifeAction :=
  as.map fun a => .serve (beside a)

/-- The Workspace is checkpointed, and its volume is cleaned up. -/
def cleanedUp : List LifeAction :=
  .serve (.env (.createWorkspace "agent-workspace-1")) :: served (firstSession ++ cleaning 3 100000)

/-- A restore that was asked for, up to its end. -/
def restoring : List LifeAction :=
  served (List.replicate 2 (.task 4 (succeeds "" 100000)) ++
    List.replicate 7 (.env (.holder (succeeds "" 100000))))

theorem restore_materialised_first : ∃ w₁ w₂,
    Machine.run (Life.step sampleRetireSettings) (Life.init 0)
      (cleanedUp ++ [askRestore (succeeds "2" 100000)]) = some w₁ ∧
    Machine.run (Life.step sampleRetireSettings) w₁ restoring = some w₂ ∧
    (∃ o ∈ w₂.pool.shared.host.db.operations, o.status = .succeeded ∧
      o.idempotencyKey = (OpKey.restore "rev_1").text "workspace_1") ∧
    ∃ xs ys m, restoring = xs ++ ys ∧ Machine.run (Life.step sampleRetireSettings) w₁ xs = some m ∧
      Materialised "workspace_1" m.pool.shared.host "rev_1" := by
  obtain ⟨w, hw, htest⟩ := (Option.any_eq_true _ _).mp
    (show (Machine.run (Life.step sampleRetireSettings) (Life.init 0) cleanedUp).any (fun w =>
      (w.pool.shared.host.db.workspaces "workspace_1").bind (·.headRevision) = some "rev_1" &&
      (w.step sampleRetireSettings (askRestore (succeeds "2" 100000))).any fun w₁ =>
        (Machine.run (Life.step sampleRetireSettings) w₁ restoring).any fun w₂ =>
          w₂.pool.shared.host.db.operations.any fun o => o.status = .succeeded &&
            o.idempotencyKey = (OpKey.restore "rev_1").text "workspace_1") = true by decide +kernel)
  rw [Bool.and_eq_true, decide_eq_true_eq] at htest
  obtain ⟨hhead, htest⟩ := htest
  obtain ⟨w₁, hask, htest⟩ := (Option.any_eq_true _ _).mp htest
  obtain ⟨w₂, hrest, htest⟩ := (Option.any_eq_true _ _).mp htest
  obtain ⟨o, ho, hdone⟩ := List.any_eq_true.mp htest
  rw [Bool.and_eq_true, decide_eq_true_eq, decide_eq_true_eq] at hdone
  refine ⟨w₁, w₂, ?_, hrest, ⟨o, ho, hdone⟩, ?_⟩
  · rw [Machine.run_append, hw, Option.bind_some]
    exact Machine.run_cons.mpr ⟨w₁, hask, rfl⟩
  · exact (restore_materialised sampleRetireSettings 0 cleanedUp restoring (succeeds "2" 100000) w w₁
      w₂ "rev_1" (by decide +kernel) hw hask hhead hrest).2 o ho hdone.2 hdone.1

/-- **The record of an older restore answers for a Workspace that has been cleaned up again.** -/
theorem restore_materialised_again : ¬ ∀ (cfg : RetireSettings) (clock : ℤ)
    (as bs : List LifeAction) (turn : Turn) (w w₁ w₂ : Life) (revisionId : String),
    Machine.run (Life.step cfg) (Life.init clock) as = some w →
    w.step cfg (askRestore turn) = some w₁ →
    (w.pool.shared.host.db.workspaces cfg.workspaceId).bind (·.headRevision) = some revisionId →
    Machine.run (Life.step cfg) w₁ bs = some w₂ →
    ∀ o ∈ w₂.pool.shared.host.db.operations,
      o.idempotencyKey = (OpKey.restore revisionId).text cfg.workspaceId → o.status = .succeeded →
        ∃ xs ys m, bs = xs ++ ys ∧ Machine.run (Life.step cfg) w₁ xs = some m ∧
          Materialised cfg.workspaceId m.pool.shared.host revisionId := by
  intro h
  obtain ⟨w, hw, htest⟩ := (Option.any_eq_true _ _).mp
    (show (Machine.run (Life.step sampleRetireSettings) (Life.init 0)
      (cleanedUp ++ [askRestore (succeeds "2" 100000)] ++ restoring ++
        served (cleaning 5 300000))).any (fun w =>
      (w.pool.shared.host.db.workspaces "workspace_1").bind (·.headRevision) = some "rev_1" &&
      (w.step sampleRetireSettings (askRestore (succeeds "3" 300000))).any fun w₁ =>
        w₁.pool.shared.host.volume = none &&
          w₁.pool.shared.host.db.operations.any fun o => o.status = .succeeded &&
            o.idempotencyKey = (OpKey.restore "rev_1").text "workspace_1") = true by decide +kernel)
  rw [Bool.and_eq_true, decide_eq_true_eq] at htest
  obtain ⟨hhead, htest⟩ := htest
  obtain ⟨w₁, hask, htest⟩ := (Option.any_eq_true _ _).mp htest
  rw [Bool.and_eq_true, decide_eq_true_eq] at htest
  obtain ⟨hvolume, htest⟩ := htest
  obtain ⟨o, ho, hdone⟩ := List.any_eq_true.mp htest
  rw [Bool.and_eq_true, decide_eq_true_eq, decide_eq_true_eq] at hdone
  obtain ⟨xs, ys, m, hnil, hxs, -, -, -, content, -, hcontains⟩ :=
    h sampleRetireSettings 0 _ [] _ w w₁ w₁ "rev_1" hw hask hhead rfl o ho hdone.2 hdone.1
  cases xs with
  | nil =>
    obtain rfl := Option.some.inj hxs
    obtain ⟨v, hv, -⟩ := hcontains
    rw [hvolume] at hv
    cases hv
  | cons a xs => cases hnil

end CodexGateway.Manager
