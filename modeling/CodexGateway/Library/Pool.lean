import CodexGateway.Library.Machine

/-!
# Library/Pool — tasks that share a state and are interleaved step by step

A pool is a shared state with a list of tasks; a task keeps its position for ever.  A step is either
one atomic step of one task, or an event of the environment, which may start tasks.

`Certificate` is the rely–guarantee rule: `G` holds of the shared state, `L` of every task, and each
step respects `R`, under which `L` is stable.  So a task is only ever asked about its own steps.
`Invariant` is the same without `R`, for a condition that looks at all tasks.
-/

/-- A shared state and the tasks that work on it. -/
structure Pool (S T : Type) where
  shared : S
  tasks : List T

namespace Pool

/-- The atomic steps of a task, and the events of the environment with the tasks they start. -/
structure Program (S T A E : Type) where
  act : S → T → A → Option (S × T)
  env : S → E → Option (S × List T)

/-- A task does something, or something comes from outside. -/
inductive Action (A E : Type) where
  | task (i : ℕ) (a : A)
  | env (e : E)

variable {S T A E : Type} (P : Program S T A E)

/-- What an action does, where it can happen. -/
def step (w : Pool S T) : Action A E → Option (Pool S T)
  | .task i a =>
    match w.tasks[i]? with
    | none => none
    | some t => (P.act w.shared t a).map fun r => ⟨r.1, w.tasks.set i r.2⟩
  | .env e => (P.env w.shared e).map fun r => ⟨r.1, w.tasks ++ r.2⟩

variable {P}

theorem step_task {w w' : Pool S T} {i : ℕ} {a : A} :
    step P w (.task i a) = some w' ↔ ∃ t s t', w.tasks[i]? = some t ∧
      P.act w.shared t a = some (s, t') ∧ w' = ⟨s, w.tasks.set i t'⟩ := by
  rw [step]
  cases w.tasks[i]? with
  | none => simp
  | some t =>
    simp only [Option.map_eq_some_iff, Option.some.injEq]
    exact ⟨fun ⟨r, hr, hw⟩ => ⟨t, r.1, r.2, rfl, hr, hw.symm⟩,
      fun ⟨_, s, t', rfl, hr, hw⟩ => ⟨(s, t'), hr, hw.symm⟩⟩

theorem step_env {w w' : Pool S T} {e : E} :
    step P w (.env e) = some w' ↔ ∃ s ts, P.env w.shared e = some (s, ts) ∧
      w' = ⟨s, w.tasks ++ ts⟩ := by
  simp only [step, Option.map_eq_some_iff]
  exact ⟨fun ⟨r, hr, hw⟩ => ⟨r.1, r.2, hr, hw.symm⟩, fun ⟨s, ts, hr, hw⟩ => ⟨(s, ts), hr, hw.symm⟩⟩

/-- A condition on the steps of a pool, by what the step looks at. -/
def stepCond (actCond : S → T → A → Prop) (envCond : S → E → Prop) (w : Pool S T) :
    Action A E → Prop
  | .task i a => ∀ t, w.tasks[i]? = some t → actCond w.shared t a
  | .env e => envCond w.shared e

/-- A run meets no condition at all. -/
theorem meets_stepCond_true (w : Pool S T) (as : List (Action A E)) :
    Machine.Meets (step P) (stepCond (fun _ _ _ => True) fun _ _ => True) w as :=
  (Machine.meets_of_forall w (p := fun _ => True) fun _ _ => trivial).mono fun v a _ => by
    cases a with
    | task i a => exact fun _ _ => trivial
    | env e => trivial

instance decidableStepCond {actCond : S → T → A → Prop} {envCond : S → E → Prop}
    [hact : ∀ s t a, Decidable (actCond s t a)] [henv : ∀ s e, Decidable (envCond s e)]
    (w : Pool S T) : ∀ a : Action A E, Decidable (stepCond actCond envCond w a)
  | .task i a => Option.decidableForallMem (p := fun t => actCond w.shared t a) w.tasks[i]?
  | .env e => henv w.shared e

/-- The shared state satisfies `G` and every task satisfies `L`. -/
structure Holds (G : S → Prop) (L : S → T → Prop) (w : Pool S T) : Prop where
  shared : G w.shared
  tasks : ∀ t ∈ w.tasks, L w.shared t

/-- **The rely–guarantee rule.** -/
structure Certificate (P : Program S T A E) (actCond : S → T → A → Prop) (envCond : S → E → Prop)
    (G : S → Prop) (L : S → T → Prop) (R : S → S → Prop) : Prop where
  act : ∀ s t a s' t', actCond s t a → G s → L s t → P.act s t a = some (s', t') →
    G s' ∧ L s' t' ∧ R s s'
  env : ∀ s e s' ts, envCond s e → G s → P.env s e = some (s', ts) →
    G s' ∧ (∀ t ∈ ts, L s' t) ∧ R s s'
  stable : ∀ s s' t, G s → G s' → R s s' → L s t → L s' t

section Certificate

variable {actCond : S → T → A → Prop} {envCond : S → E → Prop} {G : S → Prop} {L : S → T → Prop}
  {R : S → S → Prop}

theorem Certificate.step (C : Certificate P actCond envCond G L R) {w w' : Pool S T}
    {a : Action A E} (hcond : stepCond actCond envCond w a) (hw : Holds G L w)
    (h : Pool.step P w a = some w') : Holds G L w' ∧ R w.shared w'.shared := by
  cases a with
  | task i a =>
    obtain ⟨t, s, t', ht, hact, rfl⟩ := step_task.mp h
    obtain ⟨hG, hL, hR⟩ := C.act _ _ _ _ _ (hcond t ht) hw.shared
      (hw.tasks t (List.mem_of_getElem? ht)) hact
    refine ⟨⟨hG, fun u hu => ?_⟩, hR⟩
    rcases List.mem_or_eq_of_mem_set hu with hu | rfl
    · exact C.stable _ _ _ hw.shared hG hR (hw.tasks u hu)
    · exact hL
  | env e =>
    obtain ⟨s, ts, henv, rfl⟩ := step_env.mp h
    obtain ⟨hG, hL, hR⟩ := C.env _ _ _ _ hcond hw.shared henv
    refine ⟨⟨hG, fun u hu => ?_⟩, hR⟩
    rcases List.mem_append.mp hu with hu | hu
    · exact C.stable _ _ _ hw.shared hG hR (hw.tasks u hu)
    · exact hL u hu

/-- What a certificate says of every state of a run. -/
theorem Certificate.run (C : Certificate P actCond envCond G L R) {w w' : Pool S T}
    {as : List (Action A E)} (hmeets : Machine.Meets (Pool.step P) (stepCond actCond envCond) w as)
    (hrun : Machine.run (Pool.step P) w as = some w') (hw : Holds G L w) : Holds G L w' := by
  have hstep : ∀ v a v', stepCond actCond envCond v a → Holds G L v → Pool.step P v a = some v' →
      Holds G L v' := fun _ _ _ hcond hv h => (C.step hcond hv h).1
  exact Machine.run_invariant hstep hmeets hrun hw

/-- …and of its two ends. -/
theorem Certificate.run_rel (C : Certificate P actCond envCond G L R) (hrefl : ∀ s, R s s)
    (htrans : ∀ s m s', R s m → R m s' → R s s') {w w' : Pool S T} {as : List (Action A E)}
    (hmeets : Machine.Meets (Pool.step P) (stepCond actCond envCond) w as)
    (hrun : Machine.run (Pool.step P) w as = some w') (hw : Holds G L w) :
    R w.shared w'.shared := by
  have hrel : ∀ v a v', stepCond actCond envCond v a → Holds G L v → Pool.step P v a = some v' →
      Holds G L v' ∧ R v.shared v'.shared := fun _ _ _ hcond hv h => C.step hcond hv h
  let Rel : Pool S T → Pool S T → Prop := fun v v' => R v.shared v'.shared
  exact Machine.run_rel (show ∀ v, Rel v v from fun v => hrefl v.shared)
    (fun _ _ _ => htrans _ _ _) hrel hmeets hrun hw

end Certificate

/-- The rule where a condition looks at all tasks: a step keeps what every other task relies on. -/
structure Invariant (P : Program S T A E) (cond : Pool S T → Action A E → Prop) (G : S → Prop)
    (L : S → T → Prop) : Prop where
  act : ∀ w i t a s' t', cond w (.task i a) → Holds G L w → w.tasks[i]? = some t →
    P.act w.shared t a = some (s', t') → G s' ∧ L s' t' ∧ ∀ u ∈ w.tasks, L s' u
  env : ∀ w e s' ts, cond w (.env e) → Holds G L w → P.env w.shared e = some (s', ts) →
    G s' ∧ (∀ t ∈ ts, L s' t) ∧ ∀ u ∈ w.tasks, L s' u

section Invariant

variable {cond : Pool S T → Action A E → Prop} {G : S → Prop} {L : S → T → Prop}

theorem Invariant.step (I : Invariant P cond G L) {w w' : Pool S T} {a : Action A E}
    (hcond : cond w a) (hw : Holds G L w) (h : Pool.step P w a = some w') : Holds G L w' := by
  cases a with
  | task i a =>
    obtain ⟨t, s, t', ht, hact, rfl⟩ := step_task.mp h
    obtain ⟨hG, hL, hothers⟩ := I.act w i t a s t' hcond hw ht hact
    refine ⟨hG, fun u hu => ?_⟩
    rcases List.mem_or_eq_of_mem_set hu with hu | rfl
    · exact hothers u hu
    · exact hL
  | env e =>
    obtain ⟨s, ts, henv, rfl⟩ := step_env.mp h
    obtain ⟨hG, hL, hothers⟩ := I.env w e s ts hcond hw henv
    refine ⟨hG, fun u hu => ?_⟩
    rcases List.mem_append.mp hu with hu | hu
    · exact hothers u hu
    · exact hL u hu

/-- What an invariant says of every state of a run. -/
theorem Invariant.run (I : Invariant P cond G L) {w w' : Pool S T} {as : List (Action A E)}
    (hmeets : Machine.Meets (Pool.step P) cond w as)
    (hrun : Machine.run (Pool.step P) w as = some w') (hw : Holds G L w) : Holds G L w' :=
  Machine.run_invariant (fun _ _ _ hcond hv h => I.step hcond hv h) hmeets hrun hw

end Invariant

/-! ## Keys that tasks hold apart, and weights that they sum to -/

section Apart

variable {K : Type} {key : T → Option K} {tasks : List T}

/-- No two tasks hold the same key. -/
def Apart (key : T → Option K) (tasks : List T) : Prop :=
  ∀ (i j : ℕ) (t u : T) (k : K), tasks[i]? = some t → tasks[j]? = some u → key t = some k →
    key u = some k → i = j

theorem apart_nil : Apart key ([] : List T) := fun _ _ _ _ _ h => by simp at h

/-- A task takes a key that it holds already, or that no task does. -/
theorem Apart.set (h : Apart key tasks) {i : ℕ} {t t' : T} (hi : tasks[i]? = some t)
    (hnew : ∀ k, key t' = some k → key t = some k ∨ ∀ u ∈ tasks, key u ≠ some k) :
    Apart key (tasks.set i t') := by
  intro a b u v k ha hb hu hv
  rw [List.getElem?_set] at ha hb
  split_ifs at ha hb with hia hlt hib hib
  · exact hia.symm.trans hib
  · obtain rfl := Option.some.inj ha
    rcases hnew k hu with hold | hfree
    · exact hia.symm.trans (h i b t v k hi hb hold hv)
    · exact absurd hv (hfree v (List.mem_of_getElem? hb))
  · obtain rfl := Option.some.inj hb
    rcases hnew k hv with hold | hfree
    · exact (h a i u t k ha hi hu hold).trans hib
    · exact absurd hu (hfree u (List.mem_of_getElem? ha))
  · exact h a b u v k ha hb hu hv

/-- New tasks hold nothing. -/
theorem Apart.append (h : Apart key tasks) {ts : List T} (hts : ∀ t ∈ ts, key t = none) :
    Apart key (tasks ++ ts) := by
  have hold (a : ℕ) (u : T) (k : K) (ha : (tasks ++ ts)[a]? = some u) (hu : key u = some k) :
      tasks[a]? = some u := by
    rcases Nat.lt_or_ge a tasks.length with hlt | hge
    · rwa [List.getElem?_append_left hlt] at ha
    · rw [List.getElem?_append_right hge] at ha
      rw [hts u (List.mem_of_getElem? ha)] at hu
      cases hu
  exact fun a b u v k ha hb hu hv => h a b u v k (hold a u k ha hu) (hold b v k hb hv) hu hv

/-- The sum of a weight over the tasks. -/
def total (weight : T → ℕ) : List T → ℕ
  | [] => 0
  | t :: tasks => weight t + total weight tasks

theorem total_append (weight : T → ℕ) (tasks ts : List T) :
    total weight (tasks ++ ts) = total weight tasks + total weight ts := by
  induction tasks with
  | nil => simp [total]
  | cons t tasks ih => simp only [List.cons_append, total, ih, Nat.add_assoc]

theorem total_set (weight : T → ℕ) {i : ℕ} {t : T} (hi : tasks[i]? = some t) (t' : T) :
    total weight (tasks.set i t') + weight t = total weight tasks + weight t' := by
  induction tasks generalizing i with
  | nil => simp at hi
  | cons u tasks ih =>
    cases i with
    | zero =>
      obtain rfl : u = t := by simpa using hi
      simp only [List.set_cons_zero, total]
      omega
    | succ i =>
      have := ih (by simpa using hi)
      simp only [total, List.set_cons_succ] at this ⊢
      omega

end Apart

end Pool
