import CodexGateway.Manager.Startup

/-!
# Manager/Reconcile — what the startup restores

Each Sandbox that was active at the crash is handled once: it is kept with its container, or given
up.  `Reconciled` is what holds in between, of the Sandboxes handled so far and of the Workspaces
that nobody wrote at the crash.
-/

namespace CodexGateway.Manager

variable {I R : Type}

/-- The Sandbox has a healthy container and a lease that has not expired. -/
def Valid (now : ℤ) (p : Process I R) (sandboxId : String) (sandbox : SandboxRecord) : Prop :=
  ∃ kind expiresAt, .worker sandboxId sandbox.workspaceId kind true ∈ p.containers ∧
    sandbox.expiresAt = some expiresAt ∧ now < expiresAt

/-- A container that was left over, by a Sandbox of the Workspace that is not active any more. -/
def Leftover (p : Process I R) (workspaceId : String) : Prop :=
  ∃ sandboxId healthy, .worker sandboxId workspaceId .ephemeral healthy ∈ p.containers ∧
    ∀ sandbox, ¬ Active p.store.toDb sandboxId sandbox

/-- The Workspace has gone, with its volume if Docker removes it. -/
def Gone (docker : Docker) (s : Boot I R) (workspaceId : String) : Prop :=
  s.db.workspaces workspaceId = none ∧
    (docker.removesVolume workspaceId = true → s.volumes workspaceId = false)

/-- A record in `_records` is of a Sandbox that was active at the crash, and is running now, with a
container that was found healthy and a lease that has not expired. -/
structure OnRecord (now : ℤ) (p : Process I R) (db : Db I R) (record : LiveRecord) : Prop where
  container : record.container ∈ p.containers
  labels : ∃ kind, record.container = .worker record.sandboxId record.workspaceId kind true
  lease : now < record.expiresAt
  row : ∃ sandbox, Active p.store.toDb record.sandboxId sandbox ∧
    sandbox.workspaceId = record.workspaceId ∧ sandbox.expiresAt = some record.expiresAt ∧
    db.sandboxes record.sandboxId = some { sandbox with status := .running }

/-- **What holds during the startup**, when the Sandboxes in `handled` have been kept or given up
and all containers but those in `todo` have been looked at. -/
structure Reconciled (kindOf : String → WorkspaceKind) (docker : Docker) (now : ℤ)
    (p : Process I R) (handled : List String) (todo : List Container) (s : Boot I R) : Prop where
  sound : SoundDb kindOf s.db
  untouched : ∀ sandboxId, sandboxId ∉ handled → ∀ sandbox,
    Active s.db sandboxId sandbox ↔ Active p.store.toDb sandboxId sandbox
  recorded : ∀ sandboxId ∈ handled, ∀ sandbox, Active s.db sandboxId sandbox →
    ∃ record ∈ s.records, record.sandboxId = sandboxId
  valid : ∀ sandboxId ∈ handled, ∀ sandbox, Active p.store.toDb sandboxId sandbox →
    Valid now p sandboxId sandbox → ∃ sandbox', Active s.db sandboxId sandbox' ∧
      sandbox'.workspaceId = sandbox.workspaceId
  looked : ∀ sandboxId workspaceId kind healthy,
    .worker sandboxId workspaceId kind healthy ∈ p.containers →
    .worker sandboxId workspaceId kind healthy ∉ todo →
    ∀ sandbox, Active p.store.toDb sandboxId sandbox → sandboxId ∈ handled
  onRecord : ∀ record ∈ s.records, record.sandboxId ∈ handled ∧ OnRecord now p s.db record
  idle : ∀ workspaceId row, p.store.workspaces workspaceId = some row →
    row.activeSandboxId = none → s.db.workspaces workspaceId = some row ∨
      kindOf workspaceId = .ephemeral ∧ row.status = .detachedClean ∧ Gone docker s workspaceId
  detached : ∀ workspaceId row, s.db.workspaces workspaceId = some row →
    row.activeSandboxId = none → p.store.workspaces workspaceId = some row ∨
      kindOf workspaceId = .recoverable ∧ row.status = .detachedDirty
  givenUp : ∀ sandboxId sandbox, Active p.store.toDb sandboxId sandbox →
    kindOf sandbox.workspaceId = .ephemeral → Gone docker s sandbox.workspaceId ∨
      ∃ sandbox', Active s.db sandboxId sandbox' ∧ sandbox'.workspaceId = sandbox.workspaceId
  leftovers : ∀ sandboxId workspaceId healthy,
    .worker sandboxId workspaceId .ephemeral healthy ∈ p.containers →
    .worker sandboxId workspaceId .ephemeral healthy ∉ todo →
    (∀ sandbox, ¬ Active p.store.toDb sandboxId sandbox) →
    docker.removesVolume workspaceId = true → s.volumes workspaceId = false
  volumes : ∀ workspaceId, s.volumes workspaceId = p.volumes workspaceId ∨
    s.volumes workspaceId = false ∧ docker.removesVolume workspaceId = true ∧
      kindOf workspaceId = .ephemeral ∧
        ((p.store.workspaces workspaceId).isSome ∨ Leftover p workspaceId)

variable {kindOf : String → WorkspaceKind} {docker : Docker} {now : ℤ} {p : Process I R}
variable {handled : List String} {todo : List Container} {s s' : Boot I R}
variable {sandboxId workspaceId : String} {sandbox : SandboxRecord}

/-- A Workspace that has gone stays so while no row appears and no volume does. -/
theorem Gone.mono (h : Gone docker s workspaceId)
    (hrow : s.db.workspaces workspaceId = none → s'.db.workspaces workspaceId = none)
    (hvolume : s.volumes workspaceId = false → s'.volumes workspaceId = false) :
    Gone docker s' workspaceId := ⟨hrow h.1, fun hr => hvolume (h.2 hr)⟩

theorem reconciled_start (hp : p.Sound kindOf) :
    Reconciled kindOf docker now p [] p.containers ⟨p.store.toDb, p.volumes, [], []⟩ where
  sound := ⟨hp.consistent, hp.rows⟩
  untouched := fun _ _ _ => .rfl
  recorded := fun _ h => by cases h
  valid := fun _ h => by cases h
  looked := fun _ _ _ _ hmem hdone => absurd hmem hdone
  onRecord := fun _ h => by cases h
  idle := fun _ _ hrow _ => .inl hrow
  detached := fun _ _ hrow _ => .inl hrow
  givenUp := fun _ sandbox h _ => .inr ⟨sandbox, h, rfl⟩
  leftovers := fun _ _ _ hmem hdone => absurd hmem hdone
  volumes := fun _ => .inl rfl

/-! ## A Sandbox is kept or given up -/

theorem Kept.active_iff {container : Container} (h : Kept sandboxId sandbox container s s')
    {id : String} {other : SandboxRecord} (hid : id ≠ sandboxId) :
    Active s'.db id other ↔ Active s.db id other := by
  simp [Active, h.sandboxes, Db.putSandbox, hid]

theorem Kept.active_self {container : Container} (h : Kept sandboxId sandbox container s s') :
    Active s'.db sandboxId { sandbox with status := .running } :=
  ⟨by simp [h.sandboxes, Db.putSandbox], rfl⟩

/-- The rows of Workspaces that nobody writes are left alone. -/
theorem Kept.idle_iff {container : Container} (h : Kept sandboxId sandbox container s s')
    {id : String} {row : WorkspaceRecord} (hrow : row.activeSandboxId ≠ some sandboxId) :
    s'.db.workspaces id = some row ↔ s.db.workspaces id = some row := by
  obtain ⟨touch, hother, hwriter, hworkspaces⟩ := h.workspaces
  rw [hworkspaces, Option.map_eq_some_iff]
  constructor
  · rintro ⟨old, hold, rfl⟩
    rwa [hother old (by rwa [hwriter] at hrow)]
  · exact fun hold => ⟨row, hold, hother row hrow⟩

theorem Kept.gone {container : Container} (h : Kept sandboxId sandbox container s s')
    (hgone : Gone docker s workspaceId) : Gone docker s' workspaceId := by
  obtain ⟨touch, -, -, hworkspaces⟩ := h.workspaces
  exact hgone.mono (fun hrow => by rw [hworkspaces, hrow]; rfl) fun hv => by rwa [h.volumes]

theorem OnRecord.mono {db db' : Db I R} {record : LiveRecord} (h : OnRecord now p db record)
    (hsame : db'.sandboxes record.sandboxId = db.sandboxes record.sandboxId) :
    OnRecord now p db' record := by
  obtain ⟨sandbox, hactive, hworkspace, hexpires, hrow⟩ := h.row
  exact { h with row := ⟨sandbox, hactive, hworkspace, hexpires, hsame.trans hrow⟩ }

theorem Reconciled.keep (h : Reconciled kindOf docker now p handled todo s)
    (hactive : Active p.store.toDb sandboxId sandbox) (hnew : sandboxId ∉ handled)
    {kind : WorkspaceKind} {expiresAt : ℤ}
    (hmem : .worker sandboxId sandbox.workspaceId kind true ∈ p.containers)
    (hexpires : sandbox.expiresAt = some expiresAt) (hlease : now < expiresAt)
    (hkeep : keepSandbox now s sandboxId sandbox
      (.worker sandboxId sandbox.workspaceId kind true) = some s') :
    Reconciled kindOf docker now p (sandboxId :: handled) todo s' := by
  have hkept := keepSandbox_kept ((h.untouched _ hnew _).mpr hactive) hkeep
  obtain ⟨expiresAt', hexpires', hrecords⟩ := hkept.records
  obtain rfl := Option.some.inj (hexpires.symm.trans hexpires')
  refine {
    sound := keepSandbox_sound h.sound hkeep
    untouched := fun id hid other => ?_
    recorded := fun id hid other hother => ?_
    valid := fun id hid other hother hvalid => ?_
    looked := fun id w k healthy hc hdone other hother =>
      List.mem_cons_of_mem _ (h.looked id w k healthy hc hdone other hother)
    onRecord := fun record hrecord => ?_
    idle := fun id row hrow hidle => ?_
    detached := fun id row hrow hidle => ?_
    givenUp := fun id other hother hkind => ?_
    leftovers := by rw [hkept.volumes]; exact h.leftovers
    volumes := by rw [hkept.volumes]; exact h.volumes }
  · obtain ⟨hne, hid⟩ := not_or.mp (List.mem_cons.not.mp hid)
    exact (hkept.active_iff hne).trans (h.untouched id hid other)
  · rw [hrecords]
    by_cases hne : id = sandboxId
    · exact ⟨_, List.mem_cons_self, hne.symm⟩
    · obtain ⟨record, hrecord, rfl⟩ := h.recorded id ((List.mem_cons.mp hid).resolve_left hne) other
        ((hkept.active_iff hne).mp hother)
      exact ⟨record, List.mem_cons_of_mem _ hrecord, rfl⟩
  · by_cases hne : id = sandboxId
    · subst hne
      obtain rfl := Option.some.inj (hactive.1.symm.trans hother.1)
      exact ⟨_, hkept.active_self, rfl⟩
    · obtain ⟨other', hother', hworkspace⟩ :=
        h.valid id ((List.mem_cons.mp hid).resolve_left hne) other hother hvalid
      exact ⟨other', (hkept.active_iff hne).mpr hother', hworkspace⟩
  · rw [hrecords] at hrecord
    rcases List.mem_cons.mp hrecord with rfl | hrecord
    · exact ⟨List.mem_cons_self, hmem, ⟨kind, rfl⟩, hlease, sandbox, hactive, rfl, hexpires,
        hkept.active_self.1⟩
    · obtain ⟨hhandled, hon⟩ := h.onRecord record hrecord
      have hne : record.sandboxId ≠ sandboxId := fun he => hnew (he ▸ hhandled)
      refine ⟨List.mem_cons_of_mem _ hhandled, hon.mono ?_⟩
      simp [hkept.sandboxes, Db.putSandbox, hne]
  · rcases h.idle id row hrow hidle with hsame | ⟨hkind, hclean, hgone⟩
    · exact .inl ((hkept.idle_iff (by simp [hidle])).mpr hsame)
    · exact .inr ⟨hkind, hclean, hkept.gone hgone⟩
  · exact h.detached id row ((hkept.idle_iff (by simp [hidle])).mp hrow) hidle
  · rcases h.givenUp id other hother hkind with hgone | ⟨other', hother', hworkspace⟩
    · exact .inl (hkept.gone hgone)
    · refine .inr ?_
      by_cases hne : id = sandboxId
      · subst hne
        obtain rfl := Option.some.inj (hactive.1.symm.trans hother.1)
        exact ⟨_, hkept.active_self, rfl⟩
      · exact ⟨other', (hkept.active_iff hne).mpr hother', hworkspace⟩

/-- A Workspace that had gone is still gone. -/
theorem GivenUp.gone {kind : WorkspaceKind} {id : String}
    (h : GivenUp docker sandboxId workspaceId kind s s') (hne : id ≠ workspaceId)
    (hgone : Gone docker s id) : Gone docker s' id := by
  obtain ⟨hrow, hvolume⟩ := h.others id hne
  exact hgone.mono hrow.trans hvolume.trans

/-- A volume stays as it is, or is removed with its ephemeral Workspace. -/
theorem GivenUp.volumes_eq {kind : WorkspaceKind}
    (h : GivenUp docker sandboxId workspaceId kind s s') (id : String) :
    s'.volumes id = s.volumes id ∨
      id = workspaceId ∧ kind = .ephemeral ∧ s'.volumes id = false ∧
        docker.removesVolume id = true := by
  by_cases hid : id = workspaceId
  · subst hid
    cases hkind : kind with
    | recoverable => exact .inl (h.recoverable hkind).1
    | ephemeral =>
      rw [(h.ephemeral hkind).2]
      cases hremoves : docker.removesVolume id with
      | true => exact .inr ⟨rfl, rfl, by simp, rfl⟩
      | false => exact .inl (by simp)
  · exact .inl (h.others id hid).2

theorem Reconciled.giveUp (h : Reconciled kindOf docker now p handled todo s)
    (hp : p.Sound kindOf) (hactive : Active p.store.toDb sandboxId sandbox)
    (hnew : sandboxId ∉ handled) (hinvalid : ¬ Valid now p sandboxId sandbox) :
    Reconciled kindOf docker now p (sandboxId :: handled) todo
      (finishReconciledSandbox docker now s sandboxId sandbox) := by
  have hcurrent := (h.untouched _ hnew _).mpr hactive
  obtain ⟨row, hrow, hwriter⟩ := hcurrent.writes h.sound.consistent
  have hkind := (h.sound.rows _ row hrow).kind
  have hgiven : GivenUp docker sandboxId sandbox.workspaceId row.kind s
      (finishReconciledSandbox docker now s sandboxId sandbox) :=
    finishReconciledSandbox_givenUp hcurrent h.sound.consistent hrow
  have hsound := finishReconciledSandbox_sound docker now h.sound hcurrent
  generalize finishReconciledSandbox docker now s sandboxId sandbox = s' at hgiven hsound ⊢
  -- A Workspace that had gone is not the one that the Sandbox wrote.
  have hother : ∀ {id}, Gone docker s id → id ≠ sandbox.workspaceId := by
    rintro id hgone rfl
    rw [hgone.1] at hrow
    cases hrow
  refine {
    sound := hsound
    untouched := fun id hid other => ?_
    recorded := fun id hid other hother => ?_
    valid := fun id hid other hother hvalid => ?_
    looked := fun id w k healthy hc hdone other hother =>
      List.mem_cons_of_mem _ (h.looked id w k healthy hc hdone other hother)
    onRecord := fun record hrecord => ?_
    idle := fun id old hold hidle => ?_
    detached := fun id new hnew hidle => ?_
    givenUp := fun id other hother hephemeral => ?_
    leftovers := fun id w healthy hmem hdone hfree hremoves => ?_
    volumes := fun id => ?_ }
  · obtain ⟨hne, hid⟩ := not_or.mp (List.mem_cons.not.mp hid)
    rw [hgiven.active, and_iff_left hne]
    exact h.untouched id hid other
  · obtain ⟨hother, hne⟩ := (hgiven.active id other).mp hother
    rw [hgiven.records]
    exact h.recorded id ((List.mem_cons.mp hid).resolve_left hne) other hother
  · have hne : id ≠ sandboxId := by
      rintro rfl
      obtain rfl := Option.some.inj (hactive.1.symm.trans hother.1)
      exact hinvalid hvalid
    obtain ⟨other', hother', hworkspace⟩ :=
      h.valid id ((List.mem_cons.mp hid).resolve_left hne) other hother hvalid
    exact ⟨other', (hgiven.active id other').mpr ⟨hother', hne⟩, hworkspace⟩
  · rw [hgiven.records] at hrecord
    obtain ⟨hhandled, hon⟩ := h.onRecord record hrecord
    have hne : record.sandboxId ≠ sandboxId := fun he => hnew (he ▸ hhandled)
    refine ⟨List.mem_cons_of_mem _ hhandled, hon.mono ?_⟩
    obtain ⟨kept, -, -, -, hsandbox⟩ := hon.row
    rw [hsandbox]
    exact ((hgiven.active _ _).mpr ⟨⟨hsandbox, rfl⟩, hne⟩).1
  · rcases h.idle id old hold hidle with hsame | ⟨hephemeral, hclean, hgone⟩
    · refine .inl ((hgiven.others id ?_).1.trans hsame)
      rintro rfl
      obtain rfl := Option.some.inj (hsame.symm.trans hrow)
      rw [hidle] at hwriter
      cases hwriter
    · exact .inr ⟨hephemeral, hclean, hgiven.gone (hother hgone) hgone⟩
  · by_cases hid : id = sandbox.workspaceId
    · subst hid
      cases hk : row.kind with
      | ephemeral =>
        rw [(hgiven.ephemeral hk).1] at hnew
        cases hnew
      | recoverable =>
        obtain ⟨-, new', hnew', hdirty, -⟩ := hgiven.recoverable hk
        obtain rfl := Option.some.inj (hnew.symm.trans hnew')
        exact .inr ⟨hkind.symm.trans hk, hdirty⟩
    · exact h.detached id new ((hgiven.others id hid).1.symm.trans hnew) hidle
  · by_cases hid : other.workspaceId = sandbox.workspaceId
    · rw [hid] at hephemeral ⊢
      obtain ⟨hgone, hvolume⟩ := hgiven.ephemeral (hkind.trans hephemeral)
      exact .inl ⟨hgone, fun hremoves => by rw [hvolume, hremoves, Bool.not_true, Bool.and_false]⟩
    · rcases h.givenUp id other hother hephemeral with hgone | ⟨other', hother', hworkspace⟩
      · exact .inl (hgiven.gone hid hgone)
      · refine .inr ⟨other', (hgiven.active _ _).mpr ⟨hother', ?_⟩, hworkspace⟩
        rintro rfl
        obtain rfl := Option.some.inj (hactive.1.symm.trans hother.1)
        exact hid rfl
  · rcases hgiven.volumes_eq w with hsame | ⟨-, -, hgone, -⟩
    · exact hsame.trans (h.leftovers id w healthy hmem hdone hfree hremoves)
    · exact hgone
  · rcases hgiven.volumes_eq id with hsame | ⟨rfl, hephemeral, hgone, hremoves⟩
    · rw [hsame]
      exact h.volumes id
    · refine .inr ⟨hgone, hremoves, hkind.symm.trans hephemeral, .inl ?_⟩
      obtain ⟨old, hold, -⟩ := Active.writes hactive hp.consistent
      rw [hold]
      rfl

/-- The volume of a container that is left over. -/
theorem Reconciled.removeLeftover (h : Reconciled kindOf docker now p handled todo s)
    (hleft : Leftover p workspaceId) (hkind : kindOf workspaceId = .ephemeral) :
    Reconciled kindOf docker now p handled todo (s.removeVolume docker workspaceId) := by
  refine { h with
    idle := fun id row hrow hidle => ?_
    givenUp := fun id other hother hephemeral => ?_
    leftovers := fun id w healthy hmem hdone hfree hremoves => ?_
    volumes := fun id => ?_ }
  · exact (h.idle id row hrow hidle).imp_right fun ⟨hephemeral, hclean, hgone⟩ =>
      ⟨hephemeral, hclean, hgone.mono (fun hrow => hrow) (removeVolume_mono docker s workspaceId)⟩
  · exact (h.givenUp id other hother hephemeral).imp_left fun hgone =>
      hgone.mono (fun hrow => hrow) (removeVolume_mono docker s workspaceId)
  · exact removeVolume_mono docker s workspaceId (h.leftovers id w healthy hmem hdone hfree hremoves)
  · rcases removeVolume_volumes docker s workspaceId id with hsame | ⟨rfl, hgone, hremoves⟩
    · rw [hsame]
      exact h.volumes id
    · exact .inr ⟨hgone, hremoves, hkind, .inr hleft⟩

/-! ## The loops of the startup -/

/-- A container that has been looked at. -/
theorem Reconciled.done {container : Container}
    (h : Reconciled kindOf docker now p handled (container :: todo) s)
    (hlooked : ∀ id w kind healthy, container = .worker id w kind healthy →
      ∀ sandbox, Active p.store.toDb id sandbox → id ∈ handled)
    (hleft : ∀ id w healthy, container = .worker id w .ephemeral healthy →
      (∀ sandbox, ¬ Active p.store.toDb id sandbox) →
      docker.removesVolume w = true → s.volumes w = false) :
    Reconciled kindOf docker now p handled todo s := by
  refine { h with
    looked := fun id w kind healthy hmem hdone sandbox hactive => ?_
    leftovers := fun id w healthy hmem hdone hfree hremoves => ?_ }
  · by_cases he : container = .worker id w kind healthy
    · exact hlooked id w kind healthy he sandbox hactive
    · refine h.looked id w kind healthy hmem (fun hin => ?_) sandbox hactive
      exact (List.mem_cons.mp hin).elim (fun heq => he heq.symm) hdone
  · by_cases he : container = .worker id w .ephemeral healthy
    · exact hleft id w healthy he hfree hremoves
    · refine h.leftovers id w healthy hmem (fun hin => ?_) hfree hremoves
      exact (List.mem_cons.mp hin).elim (fun heq => he heq.symm) hdone

theorem valid_iff {workspaceId : String} {healthy : Bool} :
    sandbox.valid now workspaceId healthy = true ↔
      workspaceId = sandbox.workspaceId ∧ healthy = true ∧
        ∃ expiresAt, sandbox.expiresAt = some expiresAt ∧ now < expiresAt := by
  cases hexpires : sandbox.expiresAt <;> simp [SandboxRecord.valid, hexpires, and_left_comm,
    and_comm]

/-- **One container**: its Sandbox is kept or given up, or it is left over. -/
theorem reconcileContainer_reconciled (hp : p.Sound kindOf) {container : Container}
    {active : List (String × SandboxRecord)}
    (hlookup : ∀ id sandbox, active.lookup id = some sandbox ↔ Active p.store.toDb id sandbox)
    (h : Reconciled kindOf docker now p s.seen (container :: todo) s)
    (hmem : container ∈ p.containers) (hnew : ∀ id ∈ s.seen, container.sandboxId? ≠ some id)
    (hstep : reconcileContainer docker now active s container = some s') :
    Reconciled kindOf docker now p s'.seen todo s' ∧
      ∀ id ∈ s'.seen, id ∈ s.seen ∨ container.sandboxId? = some id := by
  cases container with
  | operation operationId =>
    rw [reconcileContainer] at hstep
    split_ifs at hstep
    obtain rfl := Option.some.inj hstep
    exact ⟨h.done (fun id w kind healthy he => by cases he) (fun id w healthy he => by cases he),
      fun id hid => .inl hid⟩
  | worker sandboxId workspaceId kind healthy =>
    have hfresh : sandboxId ∉ s.seen := fun hin => hnew sandboxId hin rfl
    rw [reconcileContainer] at hstep
    cases hfound : active.lookup sandboxId with
    | some sandbox =>
      have hactive := (hlookup sandboxId sandbox).mp hfound
      have hdone : ∀ {t : Boot I R}, Reconciled kindOf docker now p (sandboxId :: s.seen)
          (.worker sandboxId workspaceId kind healthy :: todo) t →
          Reconciled kindOf docker now p (sandboxId :: s.seen) todo t := by
        refine fun ht => ht.done (fun id w k healthy' he other hother => ?_)
          fun id w healthy' he hfree => ?_
        · cases he
          exact List.mem_cons_self
        · cases he
          exact absurd hactive (hfree sandbox)
      rw [hfound] at hstep
      dsimp only at hstep
      split_ifs at hstep with hvalid hremoves
      · obtain ⟨rfl, rfl, expiresAt, hexpires, hlease⟩ := valid_iff.mp hvalid
        have hkept := keepSandbox_kept ((h.untouched _ hfresh _).mpr hactive) hstep
        rw [hkept.seen]
        refine ⟨hdone (h.keep hactive hfresh hmem hexpires hlease hstep), fun id hid => ?_⟩
        exact (List.mem_cons.mp hid).elim (fun he => .inr (congrArg some he.symm)) .inl
      · obtain rfl := Option.some.inj hstep
        have hinvalid : ¬ Valid now p sandboxId sandbox := by
          rintro ⟨kind', expiresAt, hmem', hlease⟩
          have he := hp.worker_unique hmem hmem'
          cases he
          exact hvalid (valid_iff.mpr ⟨rfl, rfl, expiresAt, hlease⟩)
        have hgiven := hdone (h.giveUp hp hactive hfresh hinvalid)
        dsimp only
        rw [finishReconciledSandbox_seen]
        refine ⟨{ hgiven with }, fun id hid => ?_⟩
        exact (List.mem_cons.mp hid).elim (fun he => .inr (congrArg some he.symm)) .inl
    | none =>
      have hfree : ∀ sandbox, ¬ Active p.store.toDb sandboxId sandbox := by
        intro sandbox hactive
        rw [(hlookup sandboxId sandbox).mpr hactive] at hfound
        cases hfound
      have hlooked : ∀ id w k healthy', Container.worker sandboxId workspaceId kind healthy =
          .worker id w k healthy' → ∀ other, Active p.store.toDb id other → id ∈ s.seen := by
        intro id w k healthy' he other hother
        cases he
        exact absurd hother (hfree other)
      rw [hfound] at hstep
      dsimp only at hstep
      split_ifs at hstep with hremoves hkind
      · obtain rfl := Option.some.inj hstep
        subst hkind
        have hleft : Leftover p workspaceId := ⟨sandboxId, healthy, hmem, hfree⟩
        have hkind := hp.labels sandboxId workspaceId .ephemeral healthy hmem
        refine ⟨(h.removeLeftover hleft hkind.symm).done hlooked fun id w healthy' he _ hremoves => ?_,
          fun id hid => .inl hid⟩
        cases he
        exact removeVolume_removed hremoves
      · obtain rfl := Option.some.inj hstep
        refine ⟨h.done hlooked fun id w healthy' he => ?_, fun id hid => .inl hid⟩
        cases he
        exact absurd rfl hkind

/-- What holds while the containers in `todo` are still to be looked at. -/
structure Looking (kindOf : String → WorkspaceKind) (docker : Docker) (now : ℤ) (p : Process I R)
    (todo : List Container) (s : Boot I R) : Prop where
  reconciled : Reconciled kindOf docker now p s.seen todo s
  mem : ∀ container ∈ todo, container ∈ p.containers
  nodup : (todo.filterMap Container.sandboxId?).Nodup
  unseen : ∀ container ∈ todo, ∀ id ∈ s.seen, container.sandboxId? ≠ some id

theorem looking_start (hp : p.Sound kindOf) :
    Looking kindOf docker now p p.containers ⟨p.store.toDb, p.volumes, [], []⟩ where
  reconciled := reconciled_start hp
  mem := fun _ hmem => hmem
  nodup := hp.nodup
  unseen := fun _ _ _ hid => by cases hid

theorem Looking.step (hp : p.Sound kindOf) {active : List (String × SandboxRecord)}
    (hlookup : ∀ id sandbox, active.lookup id = some sandbox ↔ Active p.store.toDb id sandbox)
    {container : Container} (h : Looking kindOf docker now p (container :: todo) s)
    (hstep : reconcileContainer docker now active s container = some s') :
    Looking kindOf docker now p todo s' := by
  obtain ⟨hreconciled, hseen⟩ := reconcileContainer_reconciled hp hlookup h.reconciled
    (h.mem container List.mem_cons_self) (h.unseen container List.mem_cons_self) hstep
  refine ⟨hreconciled, fun c hc => h.mem c (List.mem_cons_of_mem _ hc),
    h.nodup.sublist (List.Sublist.filterMap _ (List.sublist_cons_self ..)),
    fun c hc id hid hcid => ?_⟩
  rcases hseen id hid with hold | hself
  · exact h.unseen c (List.mem_cons_of_mem _ hc) id hold hcid
  · have hnodup := h.nodup
    rw [List.filterMap_cons_some hself, List.nodup_cons] at hnodup
    exact hnodup.1 (List.mem_filterMap.mpr ⟨c, hc, hcid⟩)

/-- **The Sandboxes without a container.** -/
theorem unseen_reconciled (hp : p.Sound kindOf) {pairs : List (String × SandboxRecord)}
    (h : Reconciled kindOf docker now p handled [] s)
    (hpairs : ∀ q ∈ pairs, Active p.store.toDb q.1 q.2) (hnodup : (pairs.map Prod.fst).Nodup)
    (hseen : ∀ id ∈ s.seen, id ∈ handled)
    (hnew : ∀ q ∈ pairs, q.1 ∉ s.seen → q.1 ∉ handled) :
    ∃ handled', Reconciled kindOf docker now p handled' [] (pairs.foldl (finishUnseen docker now) s) ∧
      (∀ id ∈ handled, id ∈ handled') ∧ ∀ q ∈ pairs, q.1 ∈ handled' := by
  induction pairs generalizing s handled with
  | nil => exact ⟨handled, h, fun _ hid => hid, fun _ hq => (by cases hq)⟩
  | cons q pairs ih =>
    obtain ⟨hq, hnodup⟩ := List.nodup_cons.mp hnodup
    have hpairs' := fun q' hq' => hpairs q' (List.mem_cons_of_mem q hq')
    rw [List.foldl_cons, finishUnseen]
    split_ifs with hin
    · obtain ⟨handled', hrec, hmono, hall⟩ := ih h hpairs' hnodup hseen
        fun q' hq' => hnew q' (List.mem_cons_of_mem q hq')
      refine ⟨handled', hrec, hmono, fun q' hq' => ?_⟩
      rcases List.mem_cons.mp hq' with rfl | hq'
      · exact hmono _ (hseen _ hin)
      · exact hall q' hq'
    · have hactive := hpairs q List.mem_cons_self
      have hfresh := hnew q List.mem_cons_self hin
      have hinvalid : ¬ Valid now p q.1 q.2 := fun ⟨kind, _, hmem, _⟩ =>
        hfresh (h.looked q.1 _ kind true hmem (by simp) q.2 hactive)
      have hgiven := h.giveUp hp hactive hfresh hinvalid
      obtain ⟨handled', hrec, hmono, hall⟩ := ih hgiven hpairs' hnodup
        (by
          rw [finishReconciledSandbox_seen]
          exact fun id hid => List.mem_cons_of_mem _ (hseen id hid))
        (by
          rw [finishReconciledSandbox_seen]
          intro q' hq' hnot hmem
          rcases List.mem_cons.mp hmem with he | hmem
          · exact hq (List.mem_map.mpr ⟨q', hq', he⟩)
          · exact hnew q' (List.mem_cons_of_mem q hq') hnot hmem)
      refine ⟨handled', hrec, fun id hid => hmono id (List.mem_cons_of_mem _ hid), fun q' hq' => ?_⟩
      rcases List.mem_cons.mp hq' with rfl | hq'
      · exact hmono _ List.mem_cons_self
      · exact hall q' hq'

theorem removeWorkspace_eq {row : WorkspaceRecord} (hrow : s.db.workspaces workspaceId = some row)
    (hidle : row.activeSandboxId = none) :
    s.removeWorkspace docker workspaceId =
      { s.removeVolume docker workspaceId with db := s.db.removeWorkspace workspaceId } := by
  have hdelete : deleteWorkspace s.db workspaceId = .ok (s.db.removeWorkspace workspaceId) := by
    simp [deleteWorkspace, hrow, hidle]
  rw [Boot.removeWorkspace]
  simp only [Boot.removeVolume]
  rw [hdelete]
  rfl

/-- **An orphaned Workspace.** -/
theorem Reconciled.cleanup (h : Reconciled kindOf docker now p handled [] s) {row : WorkspaceRecord}
    (hrow : s.db.workspaces workspaceId = some row) (hkind : kindOf workspaceId = .ephemeral)
    (hclean : row.status = .detachedClean) (hidle : row.activeSandboxId = none) :
    Reconciled kindOf docker now p handled [] (s.removeWorkspace docker workspaceId) := by
  have hsound := removeWorkspace_sound docker workspaceId h.sound
  rw [removeWorkspace_eq hrow hidle] at hsound ⊢
  have hold : p.store.workspaces workspaceId = some row := by
    refine (h.detached workspaceId row hrow hidle).resolve_right fun hdirty => ?_
    rw [hkind] at hdirty
    cases hdirty.1
  have hactive : ∀ id other, Active (s.db.removeWorkspace workspaceId) id other ↔
      Active s.db id other := by
    refine fun id other => active_removeWorkspace fun id other hother hworkspace => ?_
    obtain ⟨row', hrow', hwriter⟩ := hother.writes h.sound.consistent
    rw [hworkspace, hrow] at hrow'
    obtain rfl := Option.some.inj hrow'
    rw [hidle] at hwriter
    cases hwriter
  have hsandboxes : ∀ {id other}, s.db.sandboxes id = some other → other.status.active = true →
      (s.db.removeWorkspace workspaceId).sandboxes id = some other :=
    fun hother hstatus => ((hactive _ _).mpr ⟨hother, hstatus⟩).1
  have hgone : Gone docker { s.removeVolume docker workspaceId with
      db := s.db.removeWorkspace workspaceId } workspaceId :=
    ⟨by simp [Db.removeWorkspace], removeVolume_removed⟩
  have hothers : ∀ {id}, id ≠ workspaceId →
      (s.db.removeWorkspace workspaceId).workspaces id = s.db.workspaces id :=
    fun hid => by simp [Db.removeWorkspace, hid]
  have hstill : ∀ {id}, Gone docker s id → Gone docker { s.removeVolume docker workspaceId with
      db := s.db.removeWorkspace workspaceId } id := by
    refine fun {id} h => h.mono (fun hrow' => ?_) (removeVolume_mono docker s workspaceId)
    by_cases hid : id = workspaceId
    · exact hid ▸ hgone.1
    · exact (hothers hid).trans hrow'
  refine {
    sound := hsound
    untouched := fun id hid other => (hactive id other).trans (h.untouched id hid other)
    recorded := fun id hid other hother => h.recorded id hid other ((hactive id other).mp hother)
    valid := fun id hid other hother hvalid =>
      (h.valid id hid other hother hvalid).imp fun other' => And.imp_left (hactive id other').mpr
    looked := h.looked
    onRecord := fun record hrecord => ?_
    idle := fun id old hold' hidle' => ?_
    detached := fun id new hnew hidle' => ?_
    givenUp := fun id other hother hephemeral => ?_
    leftovers := fun id w healthy hmem hdone hfree hremoves =>
      removeVolume_mono docker s workspaceId (h.leftovers id w healthy hmem hdone hfree hremoves)
    volumes := fun id => ?_ }
  · obtain ⟨hhandled, hon⟩ := h.onRecord record hrecord
    obtain ⟨kept, -, -, -, hsandbox⟩ := hon.row
    refine ⟨hhandled, hon.mono ?_⟩
    rw [hsandbox]
    exact hsandboxes hsandbox rfl
  · by_cases hid : id = workspaceId
    · subst hid
      obtain rfl := Option.some.inj (hold.symm.trans hold')
      exact .inr ⟨hkind, hclean, hgone⟩
    · rcases h.idle id old hold' hidle' with hsame | ⟨he, hc, hg⟩
      · exact .inl ((hothers hid).trans hsame)
      · exact .inr ⟨he, hc, hstill hg⟩
  · by_cases hid : id = workspaceId
    · subst hid
      exact absurd (hgone.1.symm.trans hnew) (by simp)
    · exact h.detached id new ((hothers hid).symm.trans hnew) hidle'
  · rcases h.givenUp id other hother hephemeral with hg | ⟨other', hother', hworkspace⟩
    · exact .inl (hstill hg)
    · exact .inr ⟨other', (hactive id other').mpr hother', hworkspace⟩
  · rcases removeVolume_volumes docker s workspaceId id with hsame | ⟨rfl, hfalse, hremoves⟩
    · dsimp only
      rw [hsame]
      exact h.volumes id
    · exact .inr ⟨hfalse, hremoves, hkind, .inl (by rw [hold]; rfl)⟩

/-- **The ephemeral Workspaces without a Sandbox** go; no other row goes with them. -/
theorem cleanup_reconciled {pairs : List (String × WorkspaceRecord)}
    (h : Reconciled kindOf docker now p handled [] s)
    (hpairs : ∀ q ∈ pairs, s.db.workspaces q.1 = some q.2 ∧ q.2.status = .detachedClean)
    (hnodup : (pairs.map Prod.fst).Nodup) :
    Reconciled kindOf docker now p handled [] (pairs.foldl (cleanupOrphaned docker) s) ∧
      (∀ id row, (pairs.foldl (cleanupOrphaned docker) s).db.workspaces id = some row →
        s.db.workspaces id = some row) ∧
      ∀ q ∈ pairs, q.2.kind = .ephemeral →
        (pairs.foldl (cleanupOrphaned docker) s).db.workspaces q.1 = none := by
  induction pairs generalizing s with
  | nil => exact ⟨h, fun _ _ hrow => hrow, fun _ hq => (by cases hq)⟩
  | cons q pairs ih =>
    obtain ⟨hq, hnodup⟩ := List.nodup_cons.mp hnodup
    obtain ⟨hrow, hclean⟩ := hpairs q List.mem_cons_self
    have hpairs' := fun q' hq' => hpairs q' (List.mem_cons_of_mem q hq')
    have hidle : q.2.activeSandboxId = none := by
      by_contra hne
      have hrunning := (h.sound.consistent.running q.1 q.2 hrow).mp hne
      rw [hclean] at hrunning
      cases hrunning
    rw [List.foldl_cons]
    by_cases hkind : q.2.kind = .ephemeral
    · have hstep : cleanupOrphaned docker s q =
          { s.removeVolume docker q.1 with db := s.db.removeWorkspace q.1 } := by
        rw [cleanupOrphaned, if_neg (by simp [hkind, hidle]), removeWorkspace_eq hrow hidle]
      have hclean := h.cleanup hrow ((h.sound.rows _ _ hrow).kind.symm.trans hkind) hclean hidle
      rw [removeWorkspace_eq hrow hidle] at hclean
      rw [hstep]
      have hfirst : (s.db.removeWorkspace q.1).workspaces q.1 = none := by
        simp [Db.removeWorkspace]
      have hrest : ∀ q' ∈ pairs, (s.db.removeWorkspace q.1).workspaces q'.1 = some q'.2 ∧
          q'.2.status = .detachedClean := by
        intro q' hq'
        have hne : q'.1 ≠ q.1 := fun he => hq (List.mem_map.mpr ⟨q', hq', he⟩)
        obtain ⟨hrow', hclean'⟩ := hpairs' q' hq'
        exact ⟨by simpa [Db.removeWorkspace, hne] using hrow', hclean'⟩
      obtain ⟨hrec, hmono, hall⟩ := ih hclean hrest hnodup
      refine ⟨hrec, fun id row hid => ?_, fun q' hq' hk => ?_⟩
      · have hmid := hmono id row hid
        by_cases hne : id = q.1
        · rw [hne] at hmid
          exact absurd (hfirst.symm.trans hmid) (by simp)
        · simpa [Db.removeWorkspace, hne] using hmid
      · rcases List.mem_cons.mp hq' with rfl | hq'
        · by_contra hne
          obtain ⟨row, hrow'⟩ := Option.ne_none_iff_exists'.mp hne
          exact absurd (hfirst.symm.trans (hmono _ row hrow')) (by simp)
        · exact hall q' hq' hk
    · have hstep : cleanupOrphaned docker s q = s := by
        rw [cleanupOrphaned, if_pos (.inl hkind)]
      rw [hstep]
      obtain ⟨hrec, hmono, hall⟩ := ih h hpairs' hnodup
      refine ⟨hrec, hmono, fun q' hq' hk => ?_⟩
      rcases List.mem_cons.mp hq' with rfl | hq'
      · exact absurd hk hkind
      · exact hall q' hq' hk

/-- **Up to the operations**, the startup has handled every Sandbox and left no ephemeral Workspace
that is detached. -/
theorem startup_reconciled (hp : p.Sound kindOf) {rows : Rows p.store.toDb} {captured : R → Bool}
    (h : startup docker now captured p rows = some s') :
    ∃ handled mid, Reconciled kindOf docker now p handled [] mid ∧
      (∀ id sandbox, Active mid.db id sandbox → id ∈ handled) ∧
      (∀ id row, mid.db.workspaces id = some row → kindOf id = .ephemeral →
        row.status ≠ .detachedClean) ∧
      recoverIncompleteOperations docker now captured rows.workspaceIds mid = some s' := by
  rw [startup] at h
  obtain ⟨s, hcontainers, h⟩ := Option.bind_eq_some_iff.mp h
  have hlookup : ∀ id sandbox, (activeSandboxes p.store.toDb rows.sandboxIds).lookup id =
      some sandbox ↔ Active p.store.toDb id sandbox := fun _ _ => activeSandboxes_lookup rows
  have hs := (Machine.foldlM_invariant (fun _ _ _ _ => Looking.step hp hlookup)
    (looking_start hp) hcontainers).reconciled
  have hpairs : ∀ q ∈ activeSandboxes p.store.toDb rows.sandboxIds,
      Active p.store.toDb q.1 q.2 := fun q hq => (mem_activeSandboxes.mp hq).2
  obtain ⟨handled, hunseen, -, hall⟩ := unseen_reconciled hp hs hpairs
    (nodup_keys rows.nodupSandboxes) (fun _ hid => hid) fun _ _ hnot => hnot
  generalize (activeSandboxes p.store.toDb rows.sandboxIds).foldl (finishUnseen docker now) s = t
    at hunseen h
  have horphans : ∀ q ∈ workspacesWithStatus t.db rows.workspaceIds .detachedClean,
      t.db.workspaces q.1 = some q.2 ∧ q.2.status = .detachedClean :=
    fun q hq => (mem_workspacesWithStatus.mp hq).2
  obtain ⟨hclean, hmono, hgone⟩ := cleanup_reconciled hunseen horphans
    (nodup_keys rows.nodupWorkspaces)
  refine ⟨handled, _, hclean, fun id sandbox hactive => ?_, fun id row hrow hkind hstatus => ?_, h⟩
  · by_contra hnot
    have hold := (hclean.untouched id hnot sandbox).mp hactive
    exact hnot (hall (id, sandbox) (mem_activeSandboxes.mpr
      ⟨rows.sandboxes id (by rw [hold.1]; rfl), hold⟩))
  · have hrow' := hmono id row hrow
    have hidle : row.activeSandboxId = none := by
      by_contra hne
      rw [(hunseen.sound.consistent.running id row hrow').mp hne] at hstatus
      cases hstatus
    have hold : p.store.workspaces id = some row := by
      refine (hunseen.detached id row hrow' hidle).resolve_right fun hdirty => ?_
      rw [hkind] at hdirty
      cases hdirty.1
    have hq : (id, row) ∈ workspacesWithStatus t.db rows.workspaceIds .detachedClean :=
      mem_workspacesWithStatus.mpr ⟨rows.workspaces id (by rw [hold]; rfl), hrow', hstatus⟩
    have hnone := hgone (id, row) hq ((hunseen.sound.rows id row hrow').kind.trans hkind)
    exact absurd (hnone.symm.trans hrow) (by simp)

end CodexGateway.Manager
