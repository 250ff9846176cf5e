import Mathlib.Data.Set.Finite.Basic
import Mathlib.Logic.Function.Basic
import Mathlib.Tactic.Common
import CodexGateway.Library.Machine

/-!
# Library/Lease — resources with one writer at a time

A registry knows for each resource who writes it and how often it has been claimed, and for each
lease which resource it is for and whether it is still held.  A lease is used once; it may be ended
late, when its resource has long been claimed by another.
-/

namespace Lease

/-- `resources` gives the writer and the generation, `leases` the resource and whether it is held. -/
structure Registry (W S : Type) where
  resources : W → Option (Option S × ℕ)
  leases : S → Option (W × Bool)

/-- What happens to a resource. -/
inductive Event (W S : Type) where
  | create (w : W)
  | claim (w : W) (s : S)
  | finish (s : S)
  | delete (w : W)

variable {W S : Type} [DecidableEq W] [DecidableEq S]

/-- No resources. -/
def Registry.empty : Registry W S := ⟨fun _ => none, fun _ => none⟩

/-- A lease is ended; the resource is released where it is still the lease's. -/
def Registry.release (r : Registry W S) (w : W) (s : S) : Registry W S where
  resources := Function.update r.resources w
    ((r.resources w).map fun p => (if p.1 = some s then none else p.1, p.2))
  leases := Function.update r.leases s (some (w, false))

/-- What an event does, where it can happen. -/
def step (r : Registry W S) : Event W S → Option (Registry W S)
  | .create w =>
    match r.resources w with
    | none => some { r with resources := Function.update r.resources w (some (none, 0)) }
    | some _ => none
  | .claim w s =>
    match r.resources w, r.leases s with
    | some (none, generation), none => some
        { resources := Function.update r.resources w (some (some s, generation + 1))
          leases := Function.update r.leases s (some (w, true)) }
    | _, _ => none
  | .finish s => (r.leases s).map fun p => r.release p.1 s
  | .delete w =>
    match r.resources w with
    | some (none, _) => some
        { resources := Function.update r.resources w none
          leases := fun s => (r.leases s).filter fun p => p.1 ≠ w }
    | _ => none

/-- **A resource is written by whoever holds its lease, and by nobody else.** -/
structure Exclusive (r : Registry W S) : Prop where
  known : ∀ s w held, r.leases s = some (w, held) → (r.resources w).isSome
  writer : ∀ w s, (∃ generation, r.resources w = some (some s, generation)) ↔
    r.leases s = some (w, true)

variable {r r' : Registry W S} {e : Event W S}

omit [DecidableEq W] [DecidableEq S] in
theorem exclusive_empty : Exclusive (⟨fun _ => none, fun _ => none⟩ : Registry W S) :=
  ⟨fun _ _ _ h => (by cases h), fun _ _ => ⟨fun ⟨_, h⟩ => (by cases h), fun h => (by cases h)⟩⟩

omit [DecidableEq W] [DecidableEq S] in
/-- At most one lease of a resource is held. -/
theorem Exclusive.unique (h : Exclusive r) {w : W} {s s' : S} (hs : r.leases s = some (w, true))
    (hs' : r.leases s' = some (w, true)) : s = s' := by
  obtain ⟨g, hg⟩ := (h.writer w s).mpr hs
  obtain ⟨g', hg'⟩ := (h.writer w s').mpr hs'
  rw [hg] at hg'
  exact Option.some.inj (Prod.mk.inj (Option.some.inj hg')).1

omit [DecidableEq S] in
theorem Exclusive.create (h : Exclusive r) {w : W} (hw : r.resources w = none) :
    Exclusive { r with resources := Function.update r.resources w (some (none, 0)) } := by
  refine ⟨fun s v held hs => ?_, fun v s => ?_⟩
  · by_cases hv : v = w
    · simp [hv]
    · simpa [hv] using h.known s v held hs
  · by_cases hv : v = w
    · subst hv
      have hfree : r.leases s ≠ some (v, true) := fun hs => by
        simpa [hw] using h.known s v true hs
      simp [hfree]
    · simpa [hv] using h.writer v s

theorem Exclusive.claim (h : Exclusive r) {w : W} {s : S} {generation : ℕ}
    (hw : r.resources w = some (none, generation)) (hs : r.leases s = none) :
    Exclusive
      { resources := Function.update r.resources w (some (some s, generation + 1))
        leases := Function.update r.leases s (some (w, true)) } := by
  refine ⟨fun t v held ht => ?_, fun v t => ?_⟩
  · by_cases hv : v = w
    · simp [hv]
    · by_cases hts : t = s
      · subst hts
        simp only [Function.update_self, Option.some.injEq, Prod.mk.injEq] at ht
        exact absurd ht.1.symm hv
      · have ht' : r.leases t = some (v, held) := by simpa [hts] using ht
        simpa [hv] using h.known t v held ht'
  · by_cases hv : v = w
    · subst hv
      have hfree : r.leases t ≠ some (v, true) := fun ht => by
        simpa [hw] using (h.writer v t).mpr ht
      by_cases hts : t = s
      · simp [hts]
      · simp [hts, hfree, Ne.symm hts]
    · by_cases hts : t = s
      · subst hts
        have hnot : ∀ g, r.resources v ≠ some (some t, g) := fun g hg => by
          simpa [hs] using (h.writer v t).mp ⟨g, hg⟩
        simp [hv, hnot, Ne.symm hv]
      · simpa [hv, hts] using h.writer v t

theorem Exclusive.finish (h : Exclusive r) {w : W} {s : S} {held : Bool}
    (hs : r.leases s = some (w, held)) : Exclusive (r.release w s) := by
  obtain ⟨⟨writer, generation⟩, hw⟩ := Option.isSome_iff_exists.mp (h.known s w held hs)
  refine ⟨fun t v held' ht => ?_, fun v t => ?_⟩
  · by_cases hv : v = w
    · simp [Registry.release, hv, hw]
    · by_cases hts : t = s
      · subst hts
        simp only [Registry.release, Function.update_self, Option.some.injEq, Prod.mk.injEq] at ht
        exact absurd ht.1.symm hv
      · have ht' : r.leases t = some (v, held') := by simpa [Registry.release, hts] using ht
        simpa [Registry.release, hv] using h.known t v held' ht'
  · by_cases hv : v = w
    · subst hv
      have hwriter := h.writer v t
      rw [hw] at hwriter
      by_cases hts : t = s
      · subst hts
        simp only [Registry.release, Function.update_self, hw, Option.map_some, Option.some.injEq,
          Prod.mk.injEq, Bool.false_eq_true, and_false, iff_false, not_exists, not_and]
        intro g hwr
        split_ifs at hwr with heq
        exact absurd hwr heq
      · simp only [Registry.release, Function.update_self, hw, Option.map_some,
          Function.update_of_ne hts, ← hwriter, Option.some.injEq, Prod.mk.injEq]
        split_ifs with heq
        · simp [heq, Ne.symm hts]
        · rfl
    · by_cases hts : t = s
      · subst hts
        have hnot : ∀ g, r.resources v ≠ some (some t, g) := fun g hg => by
          have := (h.writer v t).mp ⟨g, hg⟩
          rw [hs, Option.some.injEq, Prod.mk.injEq] at this
          exact hv this.1.symm
        simp [Registry.release, hv, hnot]
      · simpa [Registry.release, hv, hts] using h.writer v t

omit [DecidableEq S] in
theorem Exclusive.delete (h : Exclusive r) (w : W) :
    Exclusive
      { resources := Function.update r.resources w none
        leases := fun s => (r.leases s).filter fun p => p.1 ≠ w } := by
  have hlease : ∀ s v held, (r.leases s).filter (fun p => p.1 ≠ w) = some (v, held) ↔
      r.leases s = some (v, held) ∧ v ≠ w := fun s v held => by
    simp [Option.filter_eq_some_iff]
  refine ⟨fun s v held hs => ?_, fun v s => ?_⟩
  · obtain ⟨hs, hv⟩ := (hlease s v held).mp hs
    simpa [hv] using h.known s v held hs
  · rw [hlease]
    by_cases hv : v = w
    · simp [hv]
    · simpa [hv] using h.writer v s

/-- **Every event keeps a registry exclusive.** -/
theorem step_exclusive (h : Exclusive r) (hstep : step r e = some r') : Exclusive r' := by
  cases e with
  | create w =>
    simp only [step] at hstep
    split at hstep
    · rename_i hw
      exact Option.some.inj hstep ▸ h.create hw
    · cases hstep
  | claim w s =>
    simp only [step] at hstep
    split at hstep
    · rename_i hw hs
      exact Option.some.inj hstep ▸ h.claim hw hs
    · cases hstep
  | finish s =>
    obtain ⟨⟨w, held⟩, hs, rfl⟩ := Option.map_eq_some_iff.mp hstep
    exact h.finish hs
  | delete w =>
    simp only [step] at hstep
    split at hstep
    · exact Option.some.inj hstep ▸ h.delete w
    · cases hstep

/-- **The generation of a resource grows in a claim, and nowhere else.** -/
theorem step_generation (hstep : step r e = some r') {w : W} {p p' : Option S × ℕ}
    (hw : r.resources w = some p) (hw' : r'.resources w = some p') :
    p'.2 = p.2 ∨ (∃ s, e = .claim w s) ∧ p'.2 = p.2 + 1 := by
  cases e with
  | create v =>
    simp only [step] at hstep
    split at hstep
    · rename_i hv
      obtain rfl := Option.some.inj hstep
      have hne : w ≠ v := by
        rintro rfl
        simp [hv] at hw
      dsimp only at hw'
      rw [Function.update_of_ne hne, hw] at hw'
      exact .inl (congrArg Prod.snd (Option.some.inj hw').symm)
    · cases hstep
  | claim v s =>
    simp only [step] at hstep
    split at hstep
    · rename_i generation hv hs
      obtain rfl := Option.some.inj hstep
      dsimp only at hw'
      by_cases hne : w = v
      · subst hne
        rw [hv] at hw
        rw [Function.update_self] at hw'
        obtain rfl := Option.some.inj hw
        obtain rfl := Option.some.inj hw'
        exact .inr ⟨⟨s, rfl⟩, rfl⟩
      · rw [Function.update_of_ne hne, hw] at hw'
        exact .inl (congrArg Prod.snd (Option.some.inj hw').symm)
    · cases hstep
  | finish s =>
    obtain ⟨⟨v, held⟩, hs, rfl⟩ := Option.map_eq_some_iff.mp hstep
    by_cases hne : w = v
    · subst hne
      simp only [Registry.release, Function.update_self, hw, Option.map_some,
        Option.some.injEq] at hw'
      exact .inl (congrArg Prod.snd hw').symm
    · simp only [Registry.release, Function.update_of_ne hne, hw, Option.some.injEq] at hw'
      exact .inl (congrArg Prod.snd hw').symm
  | delete v =>
    simp only [step] at hstep
    split at hstep
    · obtain rfl := Option.some.inj hstep
      dsimp only at hw'
      by_cases hne : w = v
      · simp [hne] at hw'
      · rw [Function.update_of_ne hne, hw] at hw'
        exact .inl (congrArg Prod.snd (Option.some.inj hw').symm)
    · cases hstep

/-! ## Finitely many rows -/

/-- The keys at which a table has a row. -/
def rowsOf {K V : Type} (table : K → Option V) : Set K := {k | (table k).isSome}

omit [DecidableEq W] [DecidableEq S] in
theorem rowsOf_update {K V : Type} [DecidableEq K] {table : K → Option V}
    (h : (rowsOf table).Finite) (k : K) (v : Option V) :
    (rowsOf (Function.update table k v)).Finite := by
  refine (h.insert k).subset fun k' hk' => ?_
  by_cases hne : k' = k
  · exact .inl hne
  · refine .inr ?_
    rwa [rowsOf, Set.mem_ofPred_eq, Function.update_of_ne hne] at hk'

/-- The registry has finitely many resources and leases. -/
structure Finite (r : Registry W S) : Prop where
  resources : (rowsOf r.resources).Finite
  leases : (rowsOf r.leases).Finite

omit [DecidableEq W] [DecidableEq S] in
theorem finite_empty : Finite (⟨fun _ => none, fun _ => none⟩ : Registry W S) := by
  have hempty : ∀ {K V : Type}, (rowsOf fun _ : K => (none : Option V)).Finite := by
    intro K V
    rw [rowsOf]
    simp
  exact ⟨hempty, hempty⟩

theorem step_finite (h : Finite r) (hstep : step r e = some r') : Finite r' := by
  cases e with
  | create w =>
    simp only [step] at hstep
    split at hstep
    · exact Option.some.inj hstep ▸ ⟨rowsOf_update h.resources w _, h.leases⟩
    · cases hstep
  | claim w s =>
    simp only [step] at hstep
    split at hstep
    · exact Option.some.inj hstep ▸ ⟨rowsOf_update h.resources w _, rowsOf_update h.leases s _⟩
    · cases hstep
  | finish s =>
    obtain ⟨p, -, rfl⟩ := Option.map_eq_some_iff.mp hstep
    exact ⟨rowsOf_update h.resources p.1 _, rowsOf_update h.leases s _⟩
  | delete w =>
    simp only [step] at hstep
    split at hstep
    · refine Option.some.inj hstep ▸ ⟨rowsOf_update h.resources w _, h.leases.subset fun s hs => ?_⟩
      obtain ⟨p, hp⟩ := Option.isSome_iff_exists.mp hs
      exact Option.isSome_iff_exists.mpr ⟨p, (Option.filter_eq_some_iff.mp hp).1⟩
    · cases hstep

end Lease
