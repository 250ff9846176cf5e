import Mathlib.Data.Finset.Card
import Mathlib.Data.Finset.Image
import Mathlib.Tactic.Common

/-!
# Library/Fresh — the first candidate that is not in use

The candidates are distinct and finitely many keys are in use, so that trying one candidate after
the other ends at one that is free.  `assign` gives out a key for each list of candidates, and the
keys it gives are distinct (`assign_nodup`).
-/

/-- Distinct candidates for a key. -/
structure Candidates (K : Type) where
  candidate : ℕ → K
  injective : Function.Injective candidate

namespace Candidates

variable {K : Type} [DecidableEq K]

/-- The first candidate from `i` on that is not in use. -/
def first (c : Candidates K) (used : Finset K) (i : ℕ) : ℕ :=
  if _hused : c.candidate i ∈ used then first c used (i + 1) else i
termination_by (used \ (Finset.range i).image c.candidate).card
decreasing_by
  refine Finset.card_lt_card (Finset.ssubset_iff_of_subset ?_ |>.mpr ⟨c.candidate i, ?_, ?_⟩)
  · refine Finset.sdiff_subset_sdiff (Finset.Subset.refl _)
      (Finset.image_subset_image fun j hj => ?_)
    exact Finset.mem_range.mpr (Nat.lt_succ_of_lt (Finset.mem_range.mp hj))
  · refine Finset.mem_sdiff.mpr ⟨_hused, fun himage => ?_⟩
    obtain ⟨j, hj, heq⟩ := Finset.mem_image.mp himage
    exact absurd (c.injective heq) (Finset.mem_range.mp hj).ne
  · refine fun hmem => (Finset.mem_sdiff.mp hmem).2 (Finset.mem_image_of_mem _ ?_)
    exact Finset.mem_range.mpr (Nat.lt_succ_self i)

variable (c : Candidates K) (used : Finset K) (i : ℕ)

/-- **The search ends at a candidate that is free.** -/
theorem first_notMem : c.candidate (c.first used i) ∉ used := by
  fun_induction first with
  | case1 i hused ih => exact ih
  | case2 i hfree => exact hfree

/-- Every candidate before it is in use. -/
theorem mem_of_lt_first {j : ℕ} (hij : i ≤ j) (hj : j < c.first used i) : c.candidate j ∈ used := by
  fun_induction first with
  | case1 i hused ih =>
    rcases hij.eq_or_lt with rfl | hlt
    · exact hused
    · exact ih hlt hj
  | case2 i hfree => omega

/-- The search takes no more steps than there are keys in use. -/
theorem first_le : c.first used 0 ≤ used.card := by
  have hsub : (Finset.range (c.first used 0)).image c.candidate ⊆ used := by
    intro k hk
    obtain ⟨j, hj, rfl⟩ := Finset.mem_image.mp hk
    exact c.mem_of_lt_first used 0 (Nat.zero_le j) (Finset.mem_range.mp hj)
  have hcard := Finset.card_le_card hsub
  rwa [Finset.card_image_of_injective _ c.injective, Finset.card_range] at hcard

/-- One key after the other is given out, each the first of its candidates that is free. -/
def assign : List (Candidates K) → Finset K → List K
  | [], _ => []
  | c :: cs, used =>
    let k := c.candidate (c.first used 0)
    k :: assign cs (insert k used)

variable {used}

theorem length_assign (cs : List (Candidates K)) : (assign cs used).length = cs.length := by
  induction cs generalizing used with
  | nil => rfl
  | cons c cs ih => exact congrArg (· + 1) ih

theorem assign_notMem {cs : List (Candidates K)} : ∀ k ∈ assign cs used, k ∉ used := by
  induction cs generalizing used with
  | nil => exact fun _ hk => absurd hk List.not_mem_nil
  | cons c cs ih =>
    intro k hk
    rcases List.mem_cons.mp hk with rfl | hk
    · exact c.first_notMem used 0
    · exact fun hused => ih k hk (Finset.mem_insert_of_mem hused)

/-- **The keys that are given out are distinct.** -/
theorem assign_nodup (cs : List (Candidates K)) : (assign cs used).Nodup := by
  induction cs generalizing used with
  | nil => exact List.nodup_nil
  | cons c cs ih =>
    exact List.nodup_cons.mpr
      ⟨fun hmem => assign_notMem _ hmem (Finset.mem_insert_self _ _), ih⟩

/-- Each is one of the first candidates of its list. -/
theorem exists_of_mem_assign {cs : List (Candidates K)} :
    ∀ k ∈ assign cs used, ∃ c ∈ cs, ∃ i ≤ used.card + cs.length, k = c.candidate i := by
  induction cs generalizing used with
  | nil => exact fun _ hk => absurd hk List.not_mem_nil
  | cons c cs ih =>
    intro k hk
    rcases List.mem_cons.mp hk with rfl | hk
    · exact ⟨c, List.mem_cons_self, _, (c.first_le used).trans (Nat.le_add_right _ _), rfl⟩
    · obtain ⟨d, hd, i, hi, rfl⟩ := ih k hk
      refine ⟨d, List.mem_cons_of_mem _ hd, i, hi.trans ?_, rfl⟩
      have hcard := Finset.card_insert_le (c.candidate (c.first used 0)) used
      rw [List.length_cons]
      omega

end Candidates
