import Mathlib.Data.Finset.Card
import Mathlib.Tactic.Common

/-!
# Library/Climb — following links from place to place until one answers

A link leads to a place or ends; a place answers or links on.  `climb` follows the links, counts
them, and turns back at a place it has been to.  Only finitely many places link on, so every climb
ends; one whose places are distinct is as long as its list of places (`climb_of_climbs`).
-/

/-- Places of type `K`, the links `L` between them, and the answers `R` they give. -/
structure Terrain (L K R : Type) where
  place : L → Option K
  visit : K → R ⊕ L
  places : Finset K
  mem_places : ∀ k l, visit k = .inr l → k ∈ places

namespace Terrain

/-- How a climb ends. -/
inductive Outcome (R : Type) where
  | ended
  | cycle
  | answer (r : R)
  deriving DecidableEq

variable {L K R : Type}

/-- The links lead from `l` through the places to `l'`. -/
def Climbs (T : Terrain L K R) : L → List K → L → Prop
  | l, [], l' => l = l'
  | l, k :: ks, l' => T.place l = some k ∧ ∃ m, T.visit k = .inr m ∧ Climbs T m ks l'

/-- The climb from a link, with the places it has been to and the links it has followed. -/
def climb [DecidableEq K] (T : Terrain L K R) (l : L) (seen : Finset K) (count : ℕ) :
    Outcome R × ℕ :=
  match T.place l with
  | none => (.ended, count)
  | some k =>
    if _hseen : k ∈ seen then (.cycle, count)
    else match hvisit : T.visit k with
      | .inl r => (.answer r, count)
      | .inr m => climb T m (insert k seen) (count + 1)
termination_by (T.places \ seen).card
decreasing_by
  refine Finset.card_lt_card (Finset.ssubset_iff_of_subset ?_ |>.mpr ⟨k, ?_, ?_⟩)
  · exact Finset.sdiff_subset_sdiff (Finset.Subset.refl _) (Finset.subset_insert k seen)
  · exact Finset.mem_sdiff.mpr ⟨T.mem_places k m hvisit, _hseen⟩
  · simp

variable {T : Terrain L K R} {l l' : L} {k : K} {ks : List K} {r : R}

/-! ## The places on the way -/

theorem Climbs.split {ks' : List K} {l'' : L} (h : T.Climbs l (ks ++ ks') l'') :
    ∃ l', T.Climbs l ks l' ∧ T.Climbs l' ks' l'' := by
  induction ks generalizing l with
  | nil => exact ⟨l, rfl, h⟩
  | cons k ks ih =>
    obtain ⟨hplace, m, hvisit, hrest⟩ := h
    obtain ⟨l', hfirst, hlast⟩ := ih hrest
    exact ⟨l', ⟨hplace, m, hvisit, hfirst⟩, hlast⟩

/-- Links lead one way: two climbs to a place that answers are as long. -/
theorem Climbs.length_eq {ks' : List K} (h : T.Climbs l ks l') (h' : T.Climbs l ks' l')
    (hplace : T.place l' = some k) (hvisit : T.visit k = .inl r) : ks.length = ks'.length := by
  induction ks generalizing l ks' with
  | nil =>
    obtain rfl : l = l' := h
    cases ks' with
    | nil => rfl
    | cons j ks' =>
      obtain ⟨hj, m, hm, -⟩ := h'
      obtain rfl : k = j := Option.some.inj (hplace.symm.trans hj)
      exact absurd (hvisit.symm.trans hm) (by simp)
  | cons i ks ih =>
    obtain ⟨hi, m, hm, hrest⟩ := h
    cases ks' with
    | nil =>
      obtain rfl : l = l' := h'
      obtain rfl : k = i := Option.some.inj (hplace.symm.trans hi)
      exact absurd (hvisit.symm.trans hm) (by simp)
    | cons j ks' =>
      obtain ⟨hj, m', hm', hrest'⟩ := h'
      obtain rfl : i = j := Option.some.inj (hi.symm.trans hj)
      obtain rfl : m = m' := Sum.inr.inj (hm.symm.trans hm')
      rw [List.length_cons, List.length_cons, ih hrest hrest']

/-- **The places of a climb to an answer are distinct**: one that came back would not get there. -/
theorem Climbs.nodup (h : T.Climbs l ks l') (hplace : T.place l' = some k)
    (hvisit : T.visit k = .inl r) : ks.Nodup := by
  induction ks generalizing l with
  | nil => exact List.nodup_nil
  | cons j ks ih =>
    obtain ⟨hj, m, hm, hrest⟩ := h
    refine List.nodup_cons.mpr ⟨fun hmem => ?_, ih hrest⟩
    obtain ⟨xs, ys, rfl⟩ := List.append_of_mem hmem
    obtain ⟨l'', -, hback⟩ := hrest.split
    obtain ⟨-, m', hm', hagain⟩ := hback
    obtain rfl : m = m' := Sum.inr.inj (hm.symm.trans hm')
    have hlength := hrest.length_eq hagain hplace hvisit
    simp only [List.length_append, List.length_cons] at hlength
    omega

theorem Climbs.links (h : T.Climbs l ks l') : ∀ j ∈ ks, ∃ m, T.visit j = .inr m := by
  induction ks generalizing l with
  | nil => simp
  | cons i ks ih =>
    obtain ⟨-, m, hm, hrest⟩ := h
    intro j hj
    rcases List.mem_cons.mp hj with rfl | hj
    · exact ⟨m, hm⟩
    · exact ih hrest j hj

/-! ## The climb -/

variable [DecidableEq K]

theorem climb_seen (h : T.place l = some k) {seen : Finset K} (hseen : k ∈ seen) (count : ℕ) :
    T.climb l seen count = (.cycle, count) := by
  rw [climb]
  split
  · rename_i hnone
    exact absurd (hnone.symm.trans h) (by simp)
  · rename_i j hj
    obtain rfl : k = j := Option.some.inj (h.symm.trans hj)
    rw [dif_pos hseen]

theorem climb_answer (h : T.place l = some k) {seen : Finset K} (hseen : k ∉ seen)
    (hvisit : T.visit k = .inl r) (count : ℕ) : T.climb l seen count = (.answer r, count) := by
  rw [climb]
  split
  · rename_i hnone
    exact absurd (hnone.symm.trans h) (by simp)
  · rename_i j hj
    obtain rfl : k = j := Option.some.inj (h.symm.trans hj)
    rw [dif_neg hseen]
    split
    · rename_i r' hr
      rw [Sum.inl.inj (hr.symm.trans hvisit)]
    · rename_i m hm
      exact absurd (hvisit.symm.trans hm) (by simp)

theorem climb_link (h : T.place l = some k) {seen : Finset K} (hseen : k ∉ seen)
    (hvisit : T.visit k = .inr l') (count : ℕ) :
    T.climb l seen count = T.climb l' (insert k seen) (count + 1) := by
  rw [climb]
  split
  · rename_i hnone
    exact absurd (hnone.symm.trans h) (by simp)
  · rename_i j hj
    obtain rfl : k = j := Option.some.inj (h.symm.trans hj)
    rw [dif_neg hseen]
    split
    · rename_i r hr
      exact absurd (hr.symm.trans hvisit) (by simp)
    · rename_i m hm
      rw [Sum.inr.inj (hm.symm.trans hvisit)]

/-- **A climb through distinct places counts them.** -/
theorem climb_of_climbs (h : T.Climbs l ks l') (hnodup : ks.Nodup) {seen : Finset K}
    (hseen : ∀ k ∈ ks, k ∉ seen) (count : ℕ) :
    T.climb l seen count = T.climb l' (seen ∪ ks.toFinset) (count + ks.length) := by
  induction ks generalizing l seen count with
  | nil =>
    obtain rfl : l = l' := h
    simp
  | cons k ks ih =>
    obtain ⟨hplace, m, hvisit, hrest⟩ := h
    obtain ⟨hk, hks⟩ := List.nodup_cons.mp hnodup
    have hfresh : ∀ j ∈ ks, j ∉ insert k seen := fun j hj hmem => by
      rcases Finset.mem_insert.mp hmem with rfl | hmem
      · exact hk hj
      · exact hseen j (List.mem_cons_of_mem k hj) hmem
    rw [climb_link hplace (hseen k List.mem_cons_self) hvisit, ih hrest hks hfresh]
    have hset : insert k seen ∪ ks.toFinset = seen ∪ (k :: ks).toFinset := by
      ext j
      simp only [Finset.mem_union, Finset.mem_insert, List.mem_toFinset, List.mem_cons]
      tauto
    rw [hset, List.length_cons, Nat.add_assoc, Nat.add_comm 1]

/-- **A climb that comes back to one of its places is a cycle.** -/
theorem climb_cycle (h : T.Climbs l ks l') (hnodup : ks.Nodup) (hplace : T.place l' = some k)
    (hk : k ∈ ks) (count : ℕ) : T.climb l ∅ count = (.cycle, count + ks.length) := by
  rw [climb_of_climbs h hnodup (fun _ _ => Finset.notMem_empty _) count]
  exact climb_seen hplace (by simpa using hk) _

/-- **A climb to a place that answers gives its answer**, and the number of places before it. -/
theorem climb_to_answer (h : T.Climbs l ks l') (hplace : T.place l' = some k)
    (hvisit : T.visit k = .inl r) (count : ℕ) :
    T.climb l ∅ count = (.answer r, count + ks.length) := by
  rw [climb_of_climbs h (h.nodup hplace hvisit) (fun _ _ => Finset.notMem_empty _) count]
  refine climb_answer hplace (fun hmem => ?_) hvisit _
  obtain ⟨m, hm⟩ := h.links k (by simpa using hmem)
  exact absurd (hvisit.symm.trans hm) (by simp)

end Terrain
