import Mathlib.Data.List.Induction
import CodexGateway.Library.Machine

/-!
# Library/ItemStream — items that are opened in order, used, and closed once

A stream opens items under the numbers `0, 1, 2, …`, uses them while they are open and closes each
once.  `mark` is the machine that reads such a stream; it keeps for every item whether it is closed.
What it accepts is well formed exactly when it has closed them all.
-/

namespace ItemStream

/-- What an event does to an item, if anything. -/
inductive Mark where
  | opened (i : ℕ)
  | used (i : ℕ)
  | closed (i : ℕ)
  | none
deriving DecidableEq

/-- The item the event is about. -/
def Mark.index? : Mark → Option ℕ
  | .opened i | .used i | .closed i => some i
  | .none => Option.none

/-- One event; the state says of each item whether it is closed. -/
def mark (l : List Bool) : Mark → Option (List Bool)
  | .opened i => if i = l.length then some (l ++ [false]) else Option.none
  | .used i => if l[i]? = some false then some l else Option.none
  | .closed i => if l[i]? = some false then some (l.set i true) else Option.none
  | .none => some l

/-- The numbers under which items are opened. -/
def openings (ms : List Mark) : List ℕ :=
  ms.filterMap fun
    | .opened i => some i
    | _ => Option.none

/-- **A well-formed stream of items.** -/
structure WellFormed (ms : List Mark) : Prop where
  /-- the numbers are dense, in the order of opening, and each item is opened once -/
  dense : openings ms = List.range (openings ms).length
  /-- an item is opened before anything else happens to it -/
  opened_first : ∀ xs m ys i, ms = xs ++ m :: ys → m.index? = some i → m ≠ .opened i →
    .opened i ∈ xs
  /-- nothing happens to an item that is closed -/
  closed_last : ∀ xs ys i, ms = xs ++ .closed i :: ys → ∀ m ∈ ys, m.index? ≠ some i
  closed : ∀ i, .opened i ∈ ms → .closed i ∈ ms

variable {l l' : List Bool} {m : Mark} {ms : List Mark}

/-- Nothing more happens to a closed item. -/
theorem mark_index {i : ℕ} (h : mark l m = some l') (hi : l[i]? = some true) :
    m.index? ≠ some i := by
  intro hm
  cases m <;> simp only [Mark.index?, Option.some.injEq, reduceCtorEq] at hm <;> subst hm <;>
    simp only [mark] at h <;> split_ifs at h <;> simp_all

/-- What a run has opened and closed is what its end says. -/
structure Read (ms : List Mark) (l : List Bool) : Prop where
  openings : openings ms = List.range l.length
  opened : ∀ i, .opened i ∈ ms ↔ i < l.length
  closed : ∀ i, .closed i ∈ ms ↔ l[i]? = some true

theorem openings_concat (ms : List Mark) (m : Mark) :
    openings (ms ++ [m]) = openings ms ++ openings [m] := List.filterMap_append

theorem read_of_run (h : Machine.run mark [] ms = some l) : Read ms l := by
  induction ms using List.reverseRecOn generalizing l with
  | nil =>
    obtain rfl := Option.some.inj h
    exact ⟨rfl, by simp, by simp⟩
  | append_singleton ms m ih =>
    obtain ⟨k, hk, hm⟩ := Machine.run_concat.mp h
    obtain ⟨hopenings, hopened, hclosed⟩ := ih hk
    cases m with
    | opened j =>
      simp only [mark] at hm
      split_ifs at hm with hj
      obtain rfl := Option.some.inj hm
      refine ⟨?_, fun i => ?_, fun i => ?_⟩
      · rw [openings_concat, hopenings, hj, List.length_append, List.length_singleton,
          List.range_succ]
        rfl
      · simp only [List.mem_append, hopened, List.mem_singleton, Mark.opened.injEq,
          List.length_append, List.length_singleton]
        omega
      · simp only [List.mem_append, hclosed, List.mem_singleton, reduceCtorEq, or_false]
        grind
    | used j =>
      simp only [mark] at hm
      split_ifs at hm with hj
      obtain rfl := Option.some.inj hm
      refine ⟨?_, fun i => ?_, fun i => ?_⟩
      · rw [openings_concat, hopenings]
        exact List.append_nil _
      · simpa using hopened i
      · simpa using hclosed i
    | closed j =>
      simp only [mark] at hm
      split_ifs at hm with hj
      obtain rfl := Option.some.inj hm
      refine ⟨?_, fun i => ?_, fun i => ?_⟩
      · rw [openings_concat, hopenings, List.length_set]
        exact List.append_nil _
      · simpa using hopened i
      · simp only [List.mem_append, hclosed, List.mem_singleton, Mark.closed.injEq]
        grind
    | none =>
      obtain rfl := Option.some.inj hm
      refine ⟨?_, fun i => ?_, fun i => ?_⟩
      · rw [openings_concat, hopenings]
        exact List.append_nil _
      · simpa using hopened i
      · simpa using hclosed i

/-- An item that an event other than its opening is about has been opened. -/
theorem index_lt (h : mark l m = some l') {i : ℕ} (hm : m.index? = some i) (hne : m ≠ .opened i) :
    i < l.length := by
  cases m with
  | opened j => exact absurd (congrArg Mark.opened (Option.some.inj hm)) hne
  | none => cases hm
  | used j | closed j =>
    obtain rfl := Option.some.inj hm
    simp only [mark] at h
    split_ifs at h with hj
    exact (List.getElem?_eq_some_iff.mp hj).1

/-- **A stream that the machine accepts is well formed exactly when all its items are closed.** -/
theorem wellFormed_iff (h : Machine.run mark [] ms = some l) :
    WellFormed ms ↔ ∀ i < l.length, l[i]? = some true := by
  obtain ⟨hopenings, hopened, hclosed⟩ := read_of_run h
  refine ⟨fun hw i hi => (hclosed i).mp (hw.closed i ((hopened i).mpr hi)), fun hall => ?_⟩
  refine ⟨by rw [hopenings, List.length_range], ?_, ?_, fun i hi => ?_⟩
  · rintro xs m ys i rfl hm hne
    rw [Machine.run_append] at h
    obtain ⟨k, hk, hrest⟩ := Option.bind_eq_some_iff.mp h
    obtain ⟨k', hk', -⟩ := Machine.run_cons.mp hrest
    exact ((read_of_run hk).opened i).mpr (index_lt hk' hm hne)
  · rintro xs ys i rfl m hmem
    obtain ⟨ys, zs, rfl⟩ := List.append_of_mem hmem
    rw [← List.cons_append, ← List.append_assoc, Machine.run_append] at h
    obtain ⟨k, hk, hrest⟩ := Option.bind_eq_some_iff.mp h
    obtain ⟨k', hk', -⟩ := Machine.run_cons.mp hrest
    exact mark_index hk' (((read_of_run hk).closed i).mp (by simp))
  · exact (hclosed i).mpr (hall i ((hopened i).mp hi))

end ItemStream
