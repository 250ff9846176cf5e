import CodexGateway.Library.Pool
import CodexGateway.Manager.State

/-!
# Manager/Reaper — a lease that is renewed while the reaper is at work

`_reaper` collects the Sandboxes whose lease has expired and then terminates them one by one,
waiting for Docker each time; it does not look at their leases again.  `renew` waits for Docker too,
and then extends the lease in the database and in the record, in one step.

So the lease that a `renew` returns is kept where no `renew` comes to its second half for a Sandbox
that the reaper has collected (`lease_kept`).
-/

namespace CodexGateway.Manager

/-- A `_SandboxRecord`. -/
structure Lease where
  workspaceId : String
  recoverable : Bool
  expiresAt : ℤ

/-- What the reaper waits for, and the Sandboxes it has still to terminate. -/
inductive ReaperStage where
  | asleep
  | removeContainer (sandboxId : String) (expired : List String)
  | containerRemoved (sandboxId : String) (expired : List String)
  | removeRuntime (sandboxId : String) (expired : List String)
  | removeWorkspace (sandboxId : String) (expired : List String)

/-- The Sandboxes that have been collected and whose records are still there. -/
def ReaperStage.collected : ReaperStage → List String
  | .asleep => []
  | .removeContainer sandboxId expired | .containerRemoved sandboxId expired =>
    sandboxId :: expired
  | .removeRuntime _ expired | .removeWorkspace _ expired => expired

/-- The loop of the reaper goes on with the Sandboxes that are left. -/
def reaperNext (records : List String) : List String → ReaperStage
  | [] => .asleep
  | sandboxId :: expired =>
    if sandboxId ∈ records then .removeContainer sandboxId expired else reaperNext records expired

/-- The backend and Docker.  `leases` are the record objects, `records` the ids of those in
`self._records`; `renewals` and `removals` are what the calls of `renew` have returned and when the
reaper has removed a container. -/
structure Leases (I R : Type) where
  db : Db I R
  leases : String → Lease
  records : List String
  containers : String → Bool
  reaper : ReaperStage
  clock : ℤ
  renewals : List (String × ℤ)
  removals : List (String × ℤ)

/-- The place of a renewal. -/
inductive RenewTask where
  | get (sandboxId : String)
  | reload (sandboxId : String)
  | reloaded (sandboxId : String) (running : Bool)
  | returned (running : Bool) (expiresAt : ℤ)
  | raised (error : String)

/-- The container is found healthy. -/
abbrev RenewTurn := Bool

/-- What reaches the Manager from outside. -/
inductive LeaseEvent where
  | renew (sandboxId : String)
  | tick (now : ℤ)
  /-- the reaper wakes up -/
  | wake
  /-- Docker has removed the container -/
  | removed
  /-- what the reaper waits for has succeeded, or has failed without effect -/
  | reaper (ok : Bool)

variable {I R : Type} (ttl : ℤ)

namespace Leases

/-- `record.expires_at = expires_at` -/
def extend (s : Leases I R) (sandboxId : String) (expiresAt : ℤ) : Leases I R :=
  let lease := { s.leases sandboxId with expiresAt := expiresAt }
  { s with leases := Function.update s.leases sandboxId lease }

/-- The Sandboxes whose lease has expired. -/
def expired (s : Leases I R) : List String :=
  s.records.filter fun sandboxId => (s.leases sandboxId).expiresAt ≤ s.clock

end Leases

/-- `renew` -/
def renewAct (s : Leases I R) (t : RenewTask) (healthy : RenewTurn) :
    Option (Leases I R × RenewTask) :=
  match t with
  | .get sandboxId =>
    some (s, if sandboxId ∈ s.records then .reload sandboxId else .raised sandboxId)
  | .reload sandboxId =>
    some (s, if s.containers sandboxId then .reloaded sandboxId healthy
      else .raised s!"No such container: {sandboxId}")
  | .reloaded sandboxId false => some (s, .returned false (s.leases sandboxId).expiresAt)
  | .reloaded sandboxId true =>
    match renewSandbox s.db sandboxId (s.clock + ttl) with
    | .error error => some (s, .raised error.message)
    | .ok (db, _) =>
      let s' : Leases I R := { s with db := db }
      let s' := if sandboxId ∈ s.records then s'.extend sandboxId (s.clock + ttl) else s'
      let expiresAt := (s'.leases sandboxId).expiresAt
      some ({ s' with renewals := s'.renewals ++ [(sandboxId, expiresAt)] },
        .returned true expiresAt)
  | .returned _ _ | .raised _ => none

/-- The reaper goes on; where `terminate` raises, with the next Sandbox. -/
def reaperStep (s : Leases I R) (ok : Bool) : Option (Leases I R) :=
  match s.reaper with
  | .asleep => none
  | .removeContainer _ expired =>
    if ok then none else some { s with reaper := reaperNext s.records expired }
  | .containerRemoved sandboxId expired => some { s with
      records := s.records.filter (· ≠ sandboxId)
      reaper := .removeRuntime sandboxId expired }
  | .removeRuntime sandboxId expired =>
    let lease := s.leases sandboxId
    if ok = false then some { s with reaper := reaperNext s.records expired }
    else
      let finished := finishSandbox s.db sandboxId .terminated
        (if lease.recoverable then .detachedDirty else .deleting) s.clock
      let s' : Leases I R := { s with db := suppress s.db (finished.map Prod.fst) }
      if lease.recoverable then some { s' with reaper := reaperNext s'.records expired }
      else some { s' with reaper := .removeWorkspace sandboxId expired }
  | .removeWorkspace sandboxId expired =>
    let s' : Leases I R := if ok then
        { s with db := suppress s.db (deleteWorkspace s.db (s.leases sandboxId).workspaceId) }
      else s
    some { s' with reaper := reaperNext s'.records expired }

/-- What comes from outside does at once. -/
def leaseEnv (s : Leases I R) : LeaseEvent → Option (Leases I R × List RenewTask)
  | .renew sandboxId => some (s, [.get sandboxId])
  | .tick now => if s.clock ≤ now then some ({ s with clock := now }, []) else none
  | .wake =>
    match s.reaper with
    | .asleep => some ({ s with reaper := reaperNext s.records s.expired }, [])
    | _ => none
  | .removed =>
    match s.reaper with
    | .removeContainer sandboxId expired => some ({ s with
        containers := Function.update s.containers sandboxId false
        reaper := .containerRemoved sandboxId expired
        removals := s.removals ++ [(sandboxId, s.clock)] }, [])
    | _ => none
  | .reaper ok => (reaperStep s ok).map fun s => (s, [])

/-- The renewals, beside the reaper. -/
def leaseProgram : Pool.Program (Leases I R) RenewTask RenewTurn LeaseEvent where
  act := renewAct ttl
  env := leaseEnv

/-- A `renew` does not come to its second half for a Sandbox that has been collected. -/
def NotCollected (s : Leases I R) (t : RenewTask) (_ : RenewTurn) : Prop :=
  match t with
  | .reloaded sandboxId true => sandboxId ∉ s.reaper.collected
  | _ => True

instance (s : Leases I R) (t : RenewTask) (turn : RenewTurn) :
    Decidable (NotCollected s t turn) :=
  match t with
  | .reloaded sandboxId true => inferInstanceAs (Decidable (sandboxId ∉ s.reaper.collected))
  | .reloaded _ false | .get _ | .reload _ | .returned _ _ | .raised _ => isTrue trivial

/-- **No container is removed before the time that a `renew` has returned.** -/
def LeaseKept (s : Leases I R) : Prop :=
  ∀ sandboxId expiresAt now, (sandboxId, expiresAt) ∈ s.renewals → (sandboxId, now) ∈ s.removals →
    expiresAt ≤ now

/-! ## The invariant -/

/-- What holds between two steps: only leases that have run out are collected, and a renewal that
was answered stands. -/
structure LeaseInv (ttl : ℤ) (s : Leases I R) : Prop where
  collected : ∀ sandboxId ∈ s.reaper.collected, (s.leases sandboxId).expiresAt ≤ s.clock
  renewed : ∀ sandboxId expiresAt, (sandboxId, expiresAt) ∈ s.renewals →
    expiresAt ≤ (s.leases sandboxId).expiresAt ∧
      (sandboxId ∈ s.records → expiresAt ≤ s.clock + ttl)
  removed : ∀ sandboxId now, (sandboxId, now) ∈ s.removals →
    (s.leases sandboxId).expiresAt ≤ now ∧
      (sandboxId ∈ s.records → ∃ expired, s.reaper = .containerRemoved sandboxId expired)

section Invariant

variable {ttl : ℤ} {s s' : Leases I R}

theorem LeaseInv.kept (h : LeaseInv ttl s) : LeaseKept s :=
  fun sandboxId expiresAt now hrenewal hremoval =>
    Int.le_trans (h.renewed sandboxId expiresAt hrenewal).1
      (h.removed sandboxId now hremoval).1

/-- What is collected next is part of what is left. -/
theorem reaperNext_collected (records expired : List String) :
    ∀ sandboxId ∈ (reaperNext records expired).collected, sandboxId ∈ expired := by
  induction expired with
  | nil => exact fun sandboxId h => by cases h
  | cons head expired ih =>
    intro sandboxId h
    rw [reaperNext] at h
    split_ifs at h with hhead
    · exact h
    · exact List.mem_cons_of_mem head (ih sandboxId h)

/-- The reaper goes on with what is left, while no removal waits for its record. -/
theorem LeaseInv.goOn (h : LeaseInv ttl s) {expired : List String}
    (hexpired : ∀ sandboxId ∈ expired, (s.leases sandboxId).expiresAt ≤ s.clock)
    (hreaper : ∀ sandboxId expired, s.reaper ≠ .containerRemoved sandboxId expired)
    (db : Db I R) : LeaseInv ttl { s with db := db, reaper := reaperNext s.records expired } where
  collected := fun sandboxId hmem =>
    hexpired sandboxId (reaperNext_collected s.records expired sandboxId hmem)
  renewed := h.renewed
  removed := fun sandboxId now hremoval => by
    obtain ⟨hle, hrecord⟩ := h.removed sandboxId now hremoval
    refine ⟨hle, fun hmem => ?_⟩
    obtain ⟨expired, hstage⟩ := hrecord hmem
    exact (hreaper sandboxId expired hstage).elim

theorem reaperStep_inv (h : LeaseInv ttl s) {ok : Bool} (hstep : reaperStep s ok = some s') :
    LeaseInv ttl s' := by
  rw [reaperStep] at hstep
  split at hstep
  · cases hstep
  · rename_i sandboxId expired hreaper
    split_ifs at hstep
    cases hstep
    refine h.goOn (fun id hid => h.collected id ?_) (by simp [hreaper]) s.db
    rw [hreaper]
    exact List.mem_cons_of_mem sandboxId hid
  · rename_i sandboxId expired hreaper
    cases hstep
    refine ⟨fun id hid => h.collected id ?_, fun id expiresAt hrenewal => ?_,
      fun id now hremoval => ?_⟩
    · rw [hreaper]
      exact List.mem_cons_of_mem sandboxId hid
    · obtain ⟨hle, hlisted⟩ := h.renewed id expiresAt hrenewal
      exact ⟨hle, fun hmem => hlisted (List.mem_of_mem_filter hmem)⟩
    · obtain ⟨hle, hlisted⟩ := h.removed id now hremoval
      refine ⟨hle, fun hmem => ?_⟩
      -- the record of the container that has just been removed is taken away
      obtain ⟨_, hstage⟩ := hlisted (List.mem_of_mem_filter hmem)
      rw [hreaper] at hstage
      cases hstage
      simp at hmem
  · rename_i sandboxId expired hreaper
    have hexpired : ∀ id ∈ expired, (s.leases id).expiresAt ≤ s.clock := fun id hid =>
      h.collected id (by rw [hreaper]; exact hid)
    cases ok with
    | false =>
      cases hstep
      exact h.goOn hexpired (by simp [hreaper]) s.db
    | true =>
      cases hrecoverable : (s.leases sandboxId).recoverable with
      | true =>
        simp only [hrecoverable] at hstep
        cases hstep
        exact h.goOn hexpired (by simp [hreaper]) _
      | false =>
        simp only [hrecoverable] at hstep
        cases hstep
        refine ⟨hexpired, h.renewed, fun id now hremoval => ?_⟩
        obtain ⟨hle, hlisted⟩ := h.removed id now hremoval
        refine ⟨hle, fun hmem => ?_⟩
        obtain ⟨_, hstage⟩ := hlisted hmem
        rw [hreaper] at hstage
        cases hstage
  · rename_i sandboxId expired hreaper
    have hexpired : ∀ id ∈ expired, (s.leases id).expiresAt ≤ s.clock := fun id hid =>
      h.collected id (by rw [hreaper]; exact hid)
    cases hstep
    cases ok
    · exact h.goOn hexpired (by simp [hreaper]) s.db
    · exact h.goOn hexpired (by simp [hreaper]) _

theorem leaseEnv_inv (h : LeaseInv ttl s) {e : LeaseEvent} {ts : List RenewTask}
    (henv : leaseEnv s e = some (s', ts)) : LeaseInv ttl s' := by
  cases e with
  | renew sandboxId =>
    cases henv
    exact h
  | tick now =>
    simp only [leaseEnv] at henv
    split_ifs at henv with hnow
    cases henv
    refine ⟨fun id hid => Int.le_trans (h.collected id hid) hnow, fun id expiresAt hrenewal => ?_,
      h.removed⟩
    obtain ⟨hle, hlisted⟩ := h.renewed id expiresAt hrenewal
    exact ⟨hle, fun hmem => Int.le_trans (hlisted hmem) (Int.add_le_add_right hnow ttl)⟩
  | wake =>
    simp only [leaseEnv] at henv
    split at henv
    · rename_i hreaper
      cases henv
      refine h.goOn (fun id hid => ?_) (by simp [hreaper]) s.db
      exact of_decide_eq_true (List.mem_filter.mp hid).2
    · cases henv
  | removed =>
    simp only [leaseEnv] at henv
    split at henv
    · rename_i sandboxId expired hreaper
      cases henv
      have hexpired := h.collected sandboxId (by rw [hreaper]; exact List.mem_cons_self)
      refine ⟨fun id hid => h.collected id (by rw [hreaper]; exact hid), h.renewed,
        fun id now hremoval => ?_⟩
      rcases List.mem_append.mp hremoval with hremoval | hremoval
      · obtain ⟨hle, hlisted⟩ := h.removed id now hremoval
        refine ⟨hle, fun hmem => ?_⟩
        obtain ⟨_, hstage⟩ := hlisted hmem
        rw [hreaper] at hstage
        cases hstage
      · cases List.mem_singleton.mp hremoval
        exact ⟨hexpired, fun _ => ⟨expired, rfl⟩⟩
    · cases henv
  | reaper ok =>
    obtain ⟨m, hstep, hm⟩ := Option.map_eq_some_iff.mp henv
    cases hm
    exact reaperStep_inv h hstep

/-- A lease that nobody has collected is extended. -/
theorem LeaseInv.extend (h : LeaseInv ttl s) {sandboxId : String}
    (hfree : sandboxId ∉ s.reaper.collected) (hmem : sandboxId ∈ s.records) :
    LeaseInv ttl (s.extend sandboxId (s.clock + ttl)) where
  collected := fun id hid => by
    have hne : id ≠ sandboxId := fun he => hfree (he ▸ hid)
    simpa [Leases.extend, hne] using h.collected id hid
  renewed := fun id expiresAt hrenewal => by
    obtain ⟨hle, hlisted⟩ := h.renewed id expiresAt hrenewal
    refine ⟨?_, hlisted⟩
    by_cases he : id = sandboxId
    · subst he
      simpa [Leases.extend] using hlisted hmem
    · simpa [Leases.extend, he] using hle
  removed := fun id now hremoval => by
    obtain ⟨hle, hlisted⟩ := h.removed id now hremoval
    refine ⟨?_, hlisted⟩
    have hne : id ≠ sandboxId := by
      rintro rfl
      obtain ⟨expired, hstage⟩ := hlisted hmem
      exact hfree (by rw [hstage]; exact List.mem_cons_self)
    simpa [Leases.extend, hne] using hle

/-- A lease is returned as it is in the record. -/
theorem LeaseInv.renewal (h : LeaseInv ttl s) {sandboxId : String}
    (hlisted : sandboxId ∈ s.records → (s.leases sandboxId).expiresAt ≤ s.clock + ttl) :
    LeaseInv ttl
      { s with renewals := s.renewals ++ [(sandboxId, (s.leases sandboxId).expiresAt)] } where
  collected := h.collected
  renewed := fun id expiresAt hrenewal => by
    rcases List.mem_append.mp hrenewal with hrenewal | hrenewal
    · exact h.renewed id expiresAt hrenewal
    · cases List.mem_singleton.mp hrenewal
      exact ⟨Int.le_refl _, hlisted⟩
  removed := h.removed

/-- The second half of a `renew`. -/
theorem renewAct_inv (h : LeaseInv ttl s) {t t' : RenewTask} {healthy : RenewTurn}
    (hcond : NotCollected s t healthy) (hact : renewAct ttl s t healthy = some (s', t')) :
    LeaseInv ttl s' := by
  cases t with
  | get sandboxId =>
    cases hact
    exact h
  | reload sandboxId =>
    cases hact
    exact h
  | reloaded sandboxId running =>
    cases running with
    | false =>
      cases hact
      exact h
    | true =>
      have hfree : sandboxId ∉ s.reaper.collected := hcond
      simp only [renewAct] at hact
      split at hact
      · cases hact
        exact h
      · rename_i db sandbox hok
        cases hact
        have hdb : LeaseInv ttl { s with db := db } := ⟨h.collected, h.renewed, h.removed⟩
        by_cases hmem : sandboxId ∈ s.records
        · rw [if_pos hmem]
          exact (hdb.extend hfree hmem).renewal fun _ => by simp [Leases.extend]
        · rw [if_neg hmem]
          exact hdb.renewal fun h => (hmem h).elim
  | returned running expiresAt => cases hact
  | raised error => cases hact

end Invariant

theorem lease_certificate (ttl : ℤ) : Pool.Certificate (leaseProgram (I := I) (R := R) ttl)
    NotCollected (fun _ _ => True) (LeaseInv ttl) (fun _ _ => True) (fun _ _ => True) where
  act := fun _ _ _ _ _ hcond h _ hact => ⟨renewAct_inv h hcond hact, trivial, trivial⟩
  env := fun _ _ _ _ _ h henv => ⟨leaseEnv_inv h henv, fun _ _ => trivial, trivial⟩
  stable := fun _ _ _ _ _ _ _ => trivial

/-- **A container is not removed before the time that a `renew` has returned**, in every run in
which no `renew` comes to its second half for a Sandbox that the reaper has collected. -/
theorem lease_kept (ttl : ℤ) (s : Leases I R) (hasleep : s.reaper = .asleep)
    (hrenewals : s.renewals = []) (hremovals : s.removals = [])
    (as : List (Pool.Action RenewTurn LeaseEvent)) (w : Pool (Leases I R) RenewTask)
    (hmeets : Machine.Meets (Pool.step (leaseProgram ttl))
      (Pool.stepCond NotCollected fun _ _ => True) ⟨s, []⟩ as)
    (hrun : Machine.run (Pool.step (leaseProgram ttl)) ⟨s, []⟩ as = some w) :
    LeaseKept w.shared := by
  have h : LeaseInv ttl s :=
    ⟨by simp [hasleep, ReaperStage.collected], by simp [hrenewals], by simp [hremovals]⟩
  exact ((lease_certificate ttl).run hmeets hrun ⟨h, fun t ht => by cases ht⟩).shared.kept

/-! ## A lease that is renewed too late -/

/-- A Manager with one running Sandbox. -/
def sampleLeases : Leases Unit Unit where
  db :=
    let row : WorkspaceRecord :=
      ⟨"workspace1", .recoverable, .running, "volume1", 1, none, some "sandbox1", 0, 0, none⟩
    let sandbox := ⟨"sandbox1", "workspace1", "host1", "host1", .running, 0, some 10⟩
    (Db.empty.putWorkspace "workspace1" row).putSandbox "sandbox1" sandbox
  leases := fun _ => ⟨"workspace1", true, 10⟩
  records := ["sandbox1"]
  containers := fun _ => true
  reaper := .asleep
  clock := 0
  renewals := []
  removals := []

/-- A lease of 10 is renewed at 5, for 60, and the Sandbox reaped at 70. -/
def sampleReaped : List (Pool.Action RenewTurn LeaseEvent) :=
  [.env (.tick 5), .env (.renew "sandbox1"), .task 0 true, .task 0 true, .task 0 true,
    .env (.tick 10), .env .wake, .env (.tick 70), .env .wake, .env .removed, .env (.reaper true),
    .env (.reaper true)]

theorem lease_kept_sample :
    ∃ w, Machine.run (Pool.step (leaseProgram 60)) ⟨sampleLeases, []⟩ sampleReaped = some w ∧
      w.shared.renewals = [("sandbox1", 65)] ∧ w.shared.removals = [("sandbox1", 70)] ∧
      LeaseKept w.shared := by
  refine ⟨_, rfl, rfl, rfl, ?_⟩
  exact lease_kept 60 sampleLeases rfl rfl rfl sampleReaped _ (by decide +kernel) rfl

/-- The lease is renewed between the collection and the removal. -/
theorem not_lease_kept_collected :
    ¬ ∀ (s : Leases Unit Unit), s.reaper = .asleep → s.renewals = [] → s.removals = [] →
      ∀ (as : List (Pool.Action RenewTurn LeaseEvent)) (w : Pool (Leases Unit Unit) RenewTask),
        Machine.run (Pool.step (leaseProgram 60)) ⟨s, []⟩ as = some w → LeaseKept w.shared := by
  intro h
  have hkept := h sampleLeases rfl rfl rfl [.env (.tick 10), .env .wake, .env (.renew "sandbox1"),
    .task 0 true, .task 0 true, .task 0 true, .env .removed] _ rfl
  exact absurd (hkept "sandbox1" 70 10 (List.mem_singleton_self _) (List.mem_singleton_self _))
    (by decide)

end CodexGateway.Manager
