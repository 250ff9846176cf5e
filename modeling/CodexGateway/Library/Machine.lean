import Mathlib.Data.List.Basic
import Mathlib.Tactic.Common

/-!
# Library/Machine — runs of a partial step function, and their invariants

A machine is a partial step function; a run follows a list of actions and is defined when every
step is.  `Meets` says that each step of a run is taken where a condition on its state and action
holds, and `run_invariant` carries a property along such a run.
-/

namespace Machine

variable {S A : Type} (step : S → A → Option S)

/-- The state a list of actions leads to. -/
def run (s : S) : List A → Option S
  | [] => some s
  | a :: as => (step s a).bind fun s' => run s' as

/-- Every step of the run is taken where `cond` holds. -/
def Meets (cond : S → A → Prop) (s : S) : List A → Prop
  | [] => True
  | a :: as => cond s a ∧ ∀ s', step s a = some s' → Meets cond s' as

/-- What the steps of a run cost. -/
def total (cost : S → A → ℕ) (s : S) : List A → ℕ
  | [] => 0
  | a :: as => cost s a + ((step s a).map fun s' => total cost s' as).getD 0

variable {step}

theorem run_cons {s s' : S} {a : A} {as : List A} :
    run step s (a :: as) = some s' ↔ ∃ m, step s a = some m ∧ run step m as = some s' :=
  Option.bind_eq_some_iff

theorem run_append (s : S) (as bs : List A) :
    run step s (as ++ bs) = (run step s as).bind fun m => run step m bs := by
  induction as generalizing s with
  | nil => rfl
  | cons a as ih =>
    rw [List.cons_append, run, run]
    cases step s a with
    | none => rfl
    | some m => exact ih m

theorem run_concat {s s' : S} {as : List A} {a : A} :
    run step s (as ++ [a]) = some s' ↔ ∃ m, run step s as = some m ∧ step m a = some s' := by
  rw [run_append, Option.bind_eq_some_iff]
  refine exists_congr fun m => and_congr_right fun _ => ?_
  rw [run_cons]
  exact ⟨fun ⟨n, hn, hs⟩ => by rwa [← Option.some.inj hs], fun h => ⟨s', h, rfl⟩⟩

theorem meets_append {cond : S → A → Prop} {s : S} {as bs : List A}
    (h : Meets step cond s (as ++ bs)) :
    Meets step cond s as ∧ ∀ m, run step s as = some m → Meets step cond m bs := by
  induction as generalizing s with
  | nil =>
    refine ⟨trivial, fun m hm => ?_⟩
    obtain rfl := Option.some.inj hm
    exact h
  | cons a as ih =>
    refine ⟨⟨h.1, fun m hm => (ih (h.2 m hm)).1⟩, fun m hm => ?_⟩
    obtain ⟨n, hn, hrun⟩ := run_cons.mp hm
    exact (ih (h.2 n hn)).2 m hrun

theorem meets_cons_of_none {cond : S → A → Prop} {s : S} {a : A} {as : List A}
    (h : step s a = none) : Meets step cond s (a :: as) ↔ cond s a := by simp [Meets, h]

theorem meets_cons_of_some {cond : S → A → Prop} {s m : S} {a : A} {as : List A}
    (h : step s a = some m) :
    Meets step cond s (a :: as) ↔ cond s a ∧ Meets step cond m as := by simp [Meets, h]

/-- Whether a concrete run meets a decidable condition can be computed. -/
instance decidableMeets {cond : S → A → Prop} [∀ s a, Decidable (cond s a)] :
    ∀ (s : S) (as : List A), Decidable (Meets step cond s as)
  | _, [] => isTrue trivial
  | s, a :: as =>
    match h : step s a with
    | none => decidable_of_iff _ (meets_cons_of_none h).symm
    | some m =>
      have : Decidable (Meets step cond m as) := decidableMeets m as
      decidable_of_iff _ (meets_cons_of_some h).symm

/-- **A condition is met by a run where it holds at each of its steps.** -/
theorem meets_iff {cond : S → A → Prop} {s : S} {as : List A} :
    Meets step cond s as ↔
      ∀ xs a ys, as = xs ++ a :: ys → ∀ m, run step s xs = some m → cond m a := by
  constructor
  · rintro h xs a ys rfl m hm
    exact ((meets_append h).2 m hm).1
  · induction as generalizing s with
    | nil => exact fun _ => trivial
    | cons a as ih =>
      refine fun h => ⟨h [] a as rfl s rfl, fun m hm => ih fun xs b ys he n hn => ?_⟩
      exact h (a :: xs) b ys (by rw [he, List.cons_append]) n (run_cons.mpr ⟨m, hm, hn⟩)

/-- A condition on the actions alone. -/
theorem meets_of_forall {p : A → Prop} (s : S) {as : List A} (h : ∀ a ∈ as, p a) :
    Meets step (fun _ a => p a) s as := by
  induction as generalizing s with
  | nil => trivial
  | cons a as ih =>
    exact ⟨h a List.mem_cons_self, fun m _ => ih m fun b hb => h b (List.mem_cons_of_mem a hb)⟩

theorem Meets.and {cond cond' : S → A → Prop} {s : S} {as : List A} (h : Meets step cond s as)
    (h' : Meets step cond' s as) : Meets step (fun s a => cond s a ∧ cond' s a) s as := by
  induction as generalizing s with
  | nil => trivial
  | cons a as ih => exact ⟨⟨h.1, h'.1⟩, fun m hm => ih (h.2 m hm) (h'.2 m hm)⟩

/-- A weaker condition is met too. -/
theorem Meets.mono {cond cond' : S → A → Prop} (himp : ∀ s a, cond s a → cond' s a) {s : S}
    {as : List A} (h : Meets step cond s as) : Meets step cond' s as := by
  induction as generalizing s with
  | nil => trivial
  | cons a as ih => exact ⟨himp _ _ h.1, fun m hm => ih (h.2 m hm)⟩

/-- **A property that every conditioned step keeps is kept by every conditioned run.** -/
theorem run_invariant {cond : S → A → Prop} {Inv : S → Prop}
    (hstep : ∀ s a s', cond s a → Inv s → step s a = some s' → Inv s') {s s' : S} {as : List A}
    (hmeets : Meets step cond s as) (hrun : run step s as = some s') (hs : Inv s) : Inv s' := by
  induction as generalizing s with
  | nil => exact Option.some.inj hrun ▸ hs
  | cons a as ih =>
    obtain ⟨m, hm, hrest⟩ := run_cons.mp hrun
    exact ih (hmeets.2 m hm) hrest (hstep s a m hmeets.1 hs hm)

/-- A property that every step keeps is kept by every run. -/
theorem run_keeps {Inv : S → Prop} (hstep : ∀ s a s', Inv s → step s a = some s' → Inv s')
    {s s' : S} {as : List A} (hrun : run step s as = some s') (hs : Inv s) : Inv s' :=
  run_invariant (fun s a s' (_ : True) => hstep s a s') (meets_of_forall s fun _ _ => trivial) hrun
    hs

/-- **A property that a step keeps exactly where a condition holds is kept by exactly the runs that
meet it.** -/
theorem run_iff_meets {cond : S → A → Prop} {Inv P : S → Prop}
    (hstep : ∀ s a s', Inv s → step s a = some s' → Inv s' ∧ (P s' ↔ P s ∧ cond s a)) {s s' : S}
    {as : List A} (hrun : run step s as = some s') (hs : Inv s) :
    P s' ↔ P s ∧ Meets step cond s as := by
  induction as generalizing s with
  | nil =>
    obtain rfl := Option.some.inj hrun
    exact ⟨fun h => ⟨h, trivial⟩, fun h => h.1⟩
  | cons a as ih =>
    obtain ⟨m, hm, hrest⟩ := run_cons.mp hrun
    obtain ⟨hinv, hkeeps⟩ := hstep s a m hs hm
    rw [ih hrest hinv, hkeeps, meets_cons_of_some hm, and_assoc]

/-- **A preorder that every step of an invariant run respects relates its two ends.** -/
theorem run_rel {cond : S → A → Prop} {Inv : S → Prop} {R : S → S → Prop}
    (hrefl : ∀ s, R s s) (htrans : ∀ s m s', R s m → R m s' → R s s')
    (hstep : ∀ s a s', cond s a → Inv s → step s a = some s' → Inv s' ∧ R s s') {s s' : S}
    {as : List A} (hmeets : Meets step cond s as) (hrun : run step s as = some s') (hs : Inv s) :
    R s s' := by
  induction as generalizing s with
  | nil => exact Option.some.inj hrun ▸ hrefl s
  | cons a as ih =>
    obtain ⟨m, hm, hrest⟩ := run_cons.mp hrun
    obtain ⟨hinv, hrel⟩ := hstep s a m hmeets.1 hs hm
    exact htrans s m s' hrel (ih (hmeets.2 m hm) hrest hinv)

/-- **Any two states of a run are related just where each of its steps relates its ends.** -/
theorem related_iff_meets {cond : S → A → Prop} {Inv : S → Prop} {R : S → S → Prop}
    (hrefl : ∀ s, R s s) (htrans : ∀ s m s', R s m → R m s' → R s s')
    (hstep : ∀ s a s', Inv s → step s a = some s' → Inv s' ∧ (R s s' ↔ cond s a)) {s w : S}
    {as : List A} (hrun : run step s as = some w) (hs : Inv s) :
    (∀ xs ys zs, as = xs ++ ys ++ zs → ∀ m m', run step s xs = some m →
      run step m ys = some m' → R m m') ↔ Meets step cond s as := by
  constructor
  · refine fun h => meets_iff.mpr fun xs a ys has m hm => ?_
    have hinv : Inv m := run_keeps (fun s a s' hs h => (hstep s a s' hs h).1) hm hs
    rw [has, run_append, hm, Option.bind_some] at hrun
    obtain ⟨m', hact, -⟩ := run_cons.mp hrun
    have hrel := h xs [a] ys (by rw [has, List.append_assoc, List.singleton_append]) m m' hm
      (run_cons.mpr ⟨m', hact, rfl⟩)
    exact (hstep m a m' hinv hact).2.mp hrel
  · rintro h xs ys zs rfl m m' hm hm'
    have hinv : Inv m := run_keeps (fun s a s' hs h => (hstep s a s' hs h).1) hm hs
    rw [List.append_assoc] at h
    have hmeets := (meets_append ((meets_append h).2 m hm)).1
    have hrel : ∀ s a s', cond s a → Inv s → step s a = some s' → Inv s' ∧ R s s' :=
      fun s a s' hcond hs h => ⟨(hstep s a s' hs h).1, (hstep s a s' hs h).2.mpr hcond⟩
    exact run_rel hrefl htrans hrel hmeets hm' hinv

/-- **A run of one action ends**, where it keeps an invariant under which a measure goes down. -/
theorem exists_final {Inv : S → Prop} {μ : S → ℕ} {a : A}
    (hstep : ∀ s s', Inv s → step s a = some s' → Inv s' ∧ μ s' < μ s) {s : S} (hs : Inv s) :
    ∃ n s', run step s (List.replicate n a) = some s' ∧ Inv s' ∧ step s' a = none := by
  induction hn : μ s using Nat.strongRecOn generalizing s with
  | ind k ih =>
    cases hm : step s a with
    | none => exact ⟨0, s, rfl, hs, hm⟩
    | some m =>
      obtain ⟨hinv, hlt⟩ := hstep s m hs hm
      obtain ⟨n, s', hrun, hs', hfinal⟩ := ih (μ m) (hn ▸ hlt) hinv rfl
      exact ⟨n + 1, s', run_cons.mpr ⟨m, hm, hrun⟩, hs', hfinal⟩

/-- A run is no longer than the measure that each of its steps takes down. -/
theorem run_length {Inv : S → Prop} {μ : S → ℕ}
    (hstep : ∀ s a s', Inv s → step s a = some s' → Inv s' ∧ μ s' < μ s) {s s' : S} {as : List A}
    (hrun : run step s as = some s') (hs : Inv s) : as.length + μ s' ≤ μ s := by
  induction as generalizing s with
  | nil => exact Option.some.inj hrun ▸ Nat.le_of_eq (Nat.zero_add _)
  | cons a as ih =>
    obtain ⟨m, hm, hrest⟩ := run_cons.mp hrun
    obtain ⟨hinv, hlt⟩ := hstep s a m hs hm
    have := ih hrest hinv
    rw [List.length_cons]
    omega

/-- **What a run costs is paid by a measure.** -/
theorem total_add_le {cond : S → A → Prop} {Inv : S → Prop} {μ : S → ℕ} {cost : S → A → ℕ}
    (hstep : ∀ s a s', cond s a → Inv s → step s a = some s' → Inv s' ∧ cost s a + μ s' ≤ μ s)
    {s s' : S} {as : List A} (hmeets : Meets step cond s as) (hrun : run step s as = some s')
    (hs : Inv s) : total step cost s as + μ s' ≤ μ s := by
  induction as generalizing s with
  | nil => exact Option.some.inj hrun ▸ Nat.le_of_eq (Nat.zero_add _)
  | cons a as ih =>
    obtain ⟨m, hm, hrest⟩ := run_cons.mp hrun
    obtain ⟨hinv, hle⟩ := hstep s a m hmeets.1 hs hm
    have := ih (hmeets.2 m hm) hrest hinv
    rw [total, hm, Option.map_some, Option.getD_some]
    omega

/-- The costs of two runs that follow each other. -/
theorem total_append {cost : S → A → ℕ} {s m : S} {as : List A} (hrun : run step s as = some m)
    (bs : List A) : total step cost s (as ++ bs) = total step cost s as + total step cost m bs := by
  induction as generalizing s with
  | nil =>
    obtain rfl := Option.some.inj hrun
    exact (Nat.zero_add _).symm
  | cons a as ih =>
    obtain ⟨n, hn, hrest⟩ := run_cons.mp hrun
    rw [List.cons_append, total, total, hn, Option.map_some, Option.map_some, Option.getD_some,
      Option.getD_some, ih hrest, Nat.add_assoc]

/-! ## Loops over a list -/

section Loop

variable {loop : S → A → Option S} {Inv : List A → S → Prop}

/-- **A loop invariant, which may speak of what is left of the list.** -/
theorem foldlM_invariant
    (hstep : ∀ s a as s', Inv (a :: as) s → loop s a = some s' → Inv as s') {s s' : S}
    {as : List A} (hs : Inv as s) (hrun : as.foldlM loop s = some s') : Inv [] s' := by
  induction as generalizing s with
  | nil => exact Option.some.inj hrun ▸ hs
  | cons a as ih =>
    rw [List.foldlM_cons] at hrun
    obtain ⟨m, hm, hrun⟩ := Option.bind_eq_some_iff.mp hrun
    exact ih (hstep s a as m hs hm) hrun

/-- A loop returns where its invariant lets every step be taken. -/
theorem foldlM_returns
    (hstep : ∀ s a as, Inv (a :: as) s → ∃ s', loop s a = some s' ∧ Inv as s') {s : S}
    {as : List A} (hs : Inv as s) : ∃ s', as.foldlM loop s = some s' := by
  induction as generalizing s with
  | nil => exact ⟨s, rfl⟩
  | cons a as ih =>
    obtain ⟨m, hm, hinv⟩ := hstep s a as hs
    obtain ⟨s', hrun⟩ := ih hinv
    exact ⟨s', by rw [List.foldlM_cons, hm]; exact hrun⟩

end Loop

end Machine
