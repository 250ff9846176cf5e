import CodexGateway.Library.JsonDict
import Mathlib.Data.List.Sort

/-!
# Library/JsonSorted — printing with sorted keys

`sortKeys` puts the members of every object in the order of their keys, as `sort_keys=True` does
before it prints.  The sorted value is the same `dict`: the same members (`sortedMembers_perm`), each
key with the same value (`get_sortedMembers`).
-/

namespace PyJson

/-- The order of two members, by their keys. -/
def keyLe (m m' : String × Json) : Prop := m.1 ≤ m'.1

instance : DecidableRel keyLe := fun _ _ => inferInstanceAs (Decidable (_ ≤ _))

mutual

/-- The value with the keys of every object in order. -/
def sortKeys : Json → Json
  | .arr xs => .arr (sortKeysList xs)
  | .obj ms => .obj ((sortKeysMembers ms).insertionSort keyLe)
  | v => v

/-- The elements of an array, with their keys sorted. -/
def sortKeysList : List Json → List Json
  | [] => []
  | x :: xs => sortKeys x :: sortKeysList xs

/-- The members of an object, with the keys of their values sorted. -/
def sortKeysMembers : List (String × Json) → List (String × Json)
  | [] => []
  | (k, v) :: ms => (k, sortKeys v) :: sortKeysMembers ms

end

/-- The members of an object in the order of their keys, at every level. -/
def sortedMembers (ms : Members) : Members := (sortKeysMembers ms).insertionSort keyLe

theorem sortKeysMembers_eq_map (ms : Members) :
    sortKeysMembers ms = ms.map fun m => (m.1, sortKeys m.2) := by
  induction ms with
  | nil => rfl
  | cons m ms ih => rw [sortKeysMembers, ih, List.map_cons]

/-- **A sorted object has the same members.** -/
theorem sortedMembers_perm (ms : Members) :
    (sortedMembers ms).Perm (ms.map fun m => (m.1, sortKeys m.2)) :=
  sortKeysMembers_eq_map ms ▸ List.perm_insertionSort keyLe _

theorem keys_sortedMembers (ms : Members) :
    ((sortedMembers ms).map Prod.fst).Perm (ms.map Prod.fst) := by
  have h := (sortedMembers_perm ms).map Prod.fst
  rwa [List.map_map, show Prod.fst ∘ (fun m : String × Json => (m.1, sortKeys m.2)) = Prod.fst from
    rfl] at h

mutual

theorem wellFormed_sortKeys : ∀ {v : Json}, WellFormed v → WellFormed (sortKeys v)
  | .null, h | .bool _, h | .int _, h | .float _, h | .nan, h | .infinity _, h | .str _, h => h
  | .arr xs, h => wellFormedList_sortKeys xs h
  | .obj ms, h => by
      have hkeys : ((sortedMembers ms).map Prod.fst).Nodup :=
        (keys_sortedMembers ms).nodup_iff.mpr h.1
      refine ⟨hkeys, (wellFormedMembers_iff _).mpr fun m hm => ?_⟩
      have hm : m ∈ sortKeysMembers ms := (List.perm_insertionSort keyLe _).mem_iff.mp hm
      exact (wellFormedMembers_iff _).mp (wellFormedMembers_sortKeys ms h.2) m hm

theorem wellFormedList_sortKeys : ∀ xs : List Json, WellFormedList xs →
    WellFormedList (sortKeysList xs)
  | [], _ => trivial
  | _ :: xs, h => ⟨wellFormed_sortKeys h.1, wellFormedList_sortKeys xs h.2⟩

theorem wellFormedMembers_sortKeys : ∀ ms : Members, WellFormedMembers ms →
    WellFormedMembers (sortKeysMembers ms)
  | [], _ => trivial
  | (_, _) :: ms, h => ⟨wellFormed_sortKeys h.1, wellFormedMembers_sortKeys ms h.2⟩

end

/-! ## Looking a key up -/

/-- With distinct keys, a pair is what its key is looked up as. -/
theorem lookup_eq_some_iff_mem {ms : Members} (h : (ms.map Prod.fst).Nodup) {k : String}
    {v : Json} : ms.lookup k = some v ↔ (k, v) ∈ ms := by
  induction ms with
  | nil => simp
  | cons m ms ih =>
    obtain ⟨k', v'⟩ := m
    rw [List.map_cons, List.nodup_cons] at h
    rw [List.lookup_cons, List.mem_cons]
    by_cases hk : k = k'
    · subst hk
      have hnot : (k, v) ∉ ms := fun hmem => h.1 (List.mem_map.mpr ⟨(k, v), hmem, rfl⟩)
      simp [hnot, eq_comm]
    · have hbeq : (k == k') = false := beq_false_of_ne hk
      simp [hbeq, ih h.2, hk]

/-- The order of the members does not matter. -/
theorem lookup_perm {ms ns : Members} (hp : ms.Perm ns) (h : (ms.map Prod.fst).Nodup)
    (k : String) : ms.lookup k = ns.lookup k :=
  Option.ext fun v => by
    rw [lookup_eq_some_iff_mem h, lookup_eq_some_iff_mem ((hp.map Prod.fst).nodup_iff.mp h),
      hp.mem_iff]

theorem lookup_map (f : Json → Json) (ms : Members) (k : String) :
    (ms.map fun m => (m.1, f m.2)).lookup k = (ms.lookup k).map f := by
  induction ms with
  | nil => rfl
  | cons m ms ih =>
    obtain ⟨k', v⟩ := m
    rw [List.map_cons, List.lookup_cons, List.lookup_cons, ih]
    cases k == k' <;> rfl

/-- **A key has its value, sorted.** -/
theorem get_sortedMembers {ms : Members} (h : (ms.map Prod.fst).Nodup) (k : String) :
    Members.get (sortedMembers ms) k = sortKeys (Members.get ms k) := by
  have hkeys : ((sortedMembers ms).map Prod.fst).Nodup := (keys_sortedMembers ms).nodup_iff.mpr h
  rw [Members.get, Members.get, lookup_perm (sortedMembers_perm ms) hkeys, lookup_map]
  cases ms.lookup k <;> rfl

end PyJson
