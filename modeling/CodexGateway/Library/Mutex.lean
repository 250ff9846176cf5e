import CodexGateway.Library.Pool

/-!
# Library/Mutex — tasks that share a lock

At most one task of the pool is inside the lock.  The steps of the others leave what the lock guards
alone, so that what holds of the task inside is proved as if it ran by itself.
-/

namespace Pool

variable {S T A E : Type}

/-- **The rule of the lock.**  A step outside keeps what is guarded, which is `F`; a step inside
does no more than what those outside can bear, which is `R`. -/
structure Mutex (P : Program S T A E) (locked : S → Prop) (inside : T → Bool) (G : S → Prop)
    (L : S → T → Prop) (F R : S → S → Prop) : Prop where
  act : ∀ s t a s' t', G s → L s t → P.act s t a = some (s', t') →
    G s' ∧ L s' t' ∧ R s s' ∧ (inside t = true ∨ F s s')
  enter : ∀ s t a s' t', P.act s t a = some (s', t') → inside t' = true →
    locked s' ∧ (inside t = true ∨ ¬ locked s)
  outside : ∀ s t a s' t', P.act s t a = some (s', t') → inside t = false → locked s → locked s'
  env : ∀ s e s' ts, G s → P.env s e = some (s', ts) →
    G s' ∧ (∀ t ∈ ts, L s' t ∧ inside t = false) ∧ F s s' ∧ (locked s → locked s')
  frame : ∀ s s' t, F s s' → L s t → L s' t
  stable : ∀ s s' t, inside t = false → R s s' → L s t → L s' t

/-- What a task inside holds. -/
def mutexKey (inside : T → Bool) (t : T) : Option Unit := if inside t then some () else none

theorem mutexKey_eq_some {inside : T → Bool} {t : T} {k : Unit} :
    mutexKey inside t = some k ↔ inside t = true := by simp [mutexKey]

/-- What holds of a pool with a lock. -/
structure Guarded (locked : S → Prop) (inside : T → Bool) (G : S → Prop) (L : S → T → Prop)
    (w : Pool S T) : Prop where
  holds : Holds G L w
  apart : Apart (mutexKey inside) w.tasks
  locked : ∀ t ∈ w.tasks, inside t = true → locked w.shared

theorem guarded_nil {locked : S → Prop} {inside : T → Bool} {G : S → Prop} {L : S → T → Prop}
    {s : S} (hs : G s) : Guarded locked inside G L ⟨s, []⟩ where
  holds := ⟨hs, fun _ ht => absurd ht List.not_mem_nil⟩
  apart := apart_nil
  locked _ ht := absurd ht List.not_mem_nil

namespace Mutex

variable {P : Program S T A E} {locked : S → Prop} {inside : T → Bool} {G : S → Prop}
  {L : S → T → Prop} {F R : S → S → Prop} {w w' : Pool S T}

/-- Another task than the one inside is outside. -/
theorem outside_of_ne (hw : Guarded locked inside G L w) {i j : ℕ} {t u : T}
    (hi : w.tasks[i]? = some t) (hj : w.tasks[j]? = some u) (hij : i ≠ j)
    (hin : inside t = true) : inside u = false :=
  Bool.eq_false_iff.mpr fun hu =>
    hij (hw.apart i j t u () hi hj (mutexKey_eq_some.mpr hin) (mutexKey_eq_some.mpr hu))

theorem step_task (M : Mutex P locked inside G L F R) {i : ℕ} {a : A} {s' : S} {t t' : T}
    (hw : Guarded locked inside G L w) (hi : w.tasks[i]? = some t)
    (hact : P.act w.shared t a = some (s', t')) :
    Guarded locked inside G L ⟨s', w.tasks.set i t'⟩ := by
  have ht := List.mem_of_getElem? hi
  obtain ⟨hG, hL, hR, hframe⟩ := M.act _ _ _ _ _ hw.holds.shared (hw.holds.tasks t ht) hact
  refine ⟨⟨hG, fun u hu => ?_⟩, hw.apart.set hi fun k hk => ?_, fun u hu hin => ?_⟩
  · obtain ⟨j, hj⟩ := List.mem_iff_getElem?.mp hu
    rw [List.getElem?_set] at hj
    split_ifs at hj with hij
    · exact Option.some.inj hj ▸ hL
    · have hold := hw.holds.tasks u (List.mem_of_getElem? hj)
      rcases hframe with hin | hframe
      · exact M.stable _ _ _ (outside_of_ne hw hi hj hij hin) hR hold
      · exact M.frame _ _ _ hframe hold
  · rcases (M.enter _ _ _ _ _ hact (mutexKey_eq_some.mp hk)).2 with hin | hfree
    · exact .inl (mutexKey_eq_some.mpr hin)
    · exact .inr fun u hu hin => hfree (hw.locked u hu (mutexKey_eq_some.mp hin))
  · obtain ⟨j, hj⟩ := List.mem_iff_getElem?.mp hu
    rw [List.getElem?_set] at hj
    split_ifs at hj with hij
    · obtain rfl := Option.some.inj hj
      exact (M.enter _ _ _ _ _ hact hin).1
    · have hout : inside t = false := outside_of_ne hw hj hi (Ne.symm hij) hin
      exact M.outside _ _ _ _ _ hact hout (hw.locked u (List.mem_of_getElem? hj) hin)

theorem step (M : Mutex P locked inside G L F R) {a : Action A E}
    (hw : Guarded locked inside G L w) (h : Pool.step P w a = some w') :
    Guarded locked inside G L w' := by
  cases a with
  | task i a =>
    obtain ⟨t, s', t', hi, hact, rfl⟩ := Pool.step_task.mp h
    exact M.step_task hw hi hact
  | env e =>
    obtain ⟨s', ts, henv, rfl⟩ := Pool.step_env.mp h
    obtain ⟨hG, hnew, hframe, hlocked⟩ := M.env _ _ _ _ hw.holds.shared henv
    refine ⟨⟨hG, fun u hu => ?_⟩, hw.apart.append fun t ht => ?_, fun u hu hin => ?_⟩
    · rcases List.mem_append.mp hu with hu | hu
      · exact M.frame _ _ _ hframe (hw.holds.tasks u hu)
      · exact (hnew u hu).1
    · simp [mutexKey, (hnew t ht).2]
    · rcases List.mem_append.mp hu with hu | hu
      · exact hlocked (hw.locked u hu hin)
      · exact absurd hin (by simp [(hnew u hu).2])

/-- What the rule says of every state of a run. -/
theorem run (M : Mutex P locked inside G L F R) {as : List (Action A E)}
    (hrun : Machine.run (Pool.step P) w as = some w') (hw : Guarded locked inside G L w) :
    Guarded locked inside G L w' :=
  Machine.run_keeps (fun _ _ _ hv h => M.step hv h) hrun hw

end Mutex

end Pool
