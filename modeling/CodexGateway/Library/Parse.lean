import Mathlib.Data.List.Basic
import Mathlib.Tactic.Common

/-!
# Library/Parse — a list that is parsed item by item, and the first item at fault

`parseAll` parses the items of a list one after the other, each with its place, and stops at the
first that is refused.  It returns where every item is accepted (`parseAll_ok_iff`), and what it
raises is raised for the first item that is not, which it names by its place (`parseAll_error_iff`).
-/

namespace Parse

variable {α β ε : Type} (f : ℕ → α → Except ε β)

/-- The items from the place `i` on. -/
def parseAll (i : ℕ) : List α → Except ε (List β)
  | [] => .ok []
  | x :: xs =>
    match f i x with
    | .error e => .error e
    | .ok y =>
      match parseAll (i + 1) xs with
      | .error e => .error e
      | .ok ys => .ok (y :: ys)

variable {f} {i : ℕ} {xs : List α} {ys : List β} {e : ε}

theorem parseAll_cons_ok {x : α} : parseAll f i (x :: xs) = .ok ys ↔
    ∃ y zs, f i x = .ok y ∧ parseAll f (i + 1) xs = .ok zs ∧ ys = y :: zs := by
  rw [parseAll]
  constructor
  · intro h
    split at h
    · cases h
    · rename_i y hy
      split at h
      · cases h
      · rename_i zs hzs
        exact ⟨y, zs, hy, hzs, (Except.ok.inj h).symm⟩
  · rintro ⟨y, zs, hy, hzs, rfl⟩
    simp only [hy, hzs]

/-- **A list is parsed where every item is accepted at its place**, to what each is parsed to. -/
theorem parseAll_ok_iff : parseAll f i xs = .ok ys ↔ xs.length = ys.length ∧
    ∀ n x y, xs[n]? = some x → ys[n]? = some y → f (i + n) x = .ok y := by
  induction xs generalizing i ys with
  | nil =>
    rw [parseAll]
    constructor
    · intro h
      obtain rfl := Except.ok.inj h
      exact ⟨rfl, fun n x y h => by simp at h⟩
    · rintro ⟨hlength, -⟩
      obtain rfl := List.length_eq_zero_iff.mp hlength.symm
      rfl
  | cons x xs ih =>
    rw [parseAll_cons_ok]
    constructor
    · rintro ⟨y, zs, hy, hzs, rfl⟩
      obtain ⟨hlength, hitems⟩ := ih.mp hzs
      refine ⟨by rw [List.length_cons, List.length_cons, hlength], fun n x' y' hx' hy' => ?_⟩
      cases n with
      | zero =>
        obtain rfl := Option.some.inj hx'
        obtain rfl := Option.some.inj hy'
        exact hy
      | succ n =>
        have hitem := hitems n x' y' hx' hy'
        rwa [Nat.add_assoc, Nat.add_comm 1 n] at hitem
    · rintro ⟨hlength, hitems⟩
      cases ys with
      | nil => cases hlength
      | cons y zs =>
        refine ⟨y, zs, hitems 0 x y rfl rfl, ih.mpr ⟨Nat.succ.inj hlength, ?_⟩, rfl⟩
        intro n x' y' hx' hy'
        have hitem := hitems (n + 1) x' y' hx' hy'
        rwa [Nat.add_comm n 1, ← Nat.add_assoc] at hitem

/-- **What is raised is raised for the first item that is refused.** -/
theorem parseAll_error_iff : parseAll f i xs = .error e ↔ ∃ before x after,
    xs = before ++ x :: after ∧ (∃ ys, parseAll f i before = .ok ys) ∧
      f (i + before.length) x = .error e := by
  induction xs generalizing i with
  | nil =>
    rw [parseAll]
    constructor
    · intro h
      cases h
    · rintro ⟨before, x, after, h, -⟩
      exact absurd h.symm (by simp)
  | cons x xs ih =>
    rw [parseAll]
    constructor
    · intro h
      split at h
      · rename_i hx
        obtain rfl := Except.error.inj h
        exact ⟨[], x, xs, rfl, ⟨[], rfl⟩, hx⟩
      · rename_i y hy
        split at h
        · rename_i hxs
          obtain rfl := Except.error.inj h
          obtain ⟨before, x', after, rfl, ⟨ys, hbefore⟩, hx'⟩ := ih.mp hxs
          refine ⟨x :: before, x', after, rfl, ⟨y :: ys, parseAll_cons_ok.mpr ?_⟩, ?_⟩
          · exact ⟨y, ys, hy, hbefore, rfl⟩
          · rwa [List.length_cons, Nat.add_comm before.length, ← Nat.add_assoc]
        · cases h
    · rintro ⟨before, x', after, heq, ⟨ys, hbefore⟩, hx'⟩
      cases before with
      | nil =>
        obtain ⟨rfl, rfl⟩ := List.cons.inj heq
        have hx : f i x = .error e := hx'
        simp only [hx]
      | cons z before =>
        obtain ⟨rfl, hxs⟩ := List.cons.inj heq
        have hxs : xs = before ++ x' :: after := hxs
        obtain ⟨y, zs, hy, hzs, -⟩ := parseAll_cons_ok.mp hbefore
        have hrest : parseAll f (i + 1) xs = .error e := by
          refine ih.mpr ⟨before, x', after, hxs, ⟨zs, hzs⟩, ?_⟩
          rwa [List.length_cons, Nat.add_comm before.length, ← Nat.add_assoc] at hx'
        simp only [hy, hrest]

/-- Every item of a list that is parsed is accepted. -/
theorem exists_of_parseAll (h : parseAll f i xs = .ok ys) {n : ℕ} {x : α} (hx : xs[n]? = some x) :
    ∃ y, f (i + n) x = .ok y := by
  obtain ⟨hlength, hitems⟩ := parseAll_ok_iff.mp h
  have hlt : n < ys.length := hlength ▸ (List.getElem?_eq_some_iff.mp hx).1
  exact ⟨ys[n], hitems n x ys[n] hx (List.getElem?_eq_getElem hlt)⟩

/-- Where every item is accepted, the list is parsed. -/
theorem parseAll_returns (h : ∀ n x, xs[n]? = some x → ∃ y, f (i + n) x = .ok y) :
    ∃ ys, parseAll f i xs = .ok ys := by
  cases hparse : parseAll f i xs with
  | ok ys => exact ⟨ys, rfl⟩
  | error e =>
    obtain ⟨before, x, after, rfl, -, hx⟩ := parseAll_error_iff.mp hparse
    obtain ⟨y, hy⟩ := h before.length x (by simp)
    rw [hx] at hy
    cases hy

/-- Where each item is replaced by one that is parsed the same, so is the list. -/
theorem parseAll_mapIdx {g : ℕ → α → α} (hsame : ∀ n, ∀ x ∈ xs, f n (g n x) = f n x) :
    parseAll f i (xs.mapIdx fun n x => g (i + n) x) = parseAll f i xs := by
  induction xs generalizing i with
  | nil => rfl
  | cons x xs ih =>
    have htail : (xs.mapIdx fun n x => g (i + (n + 1)) x) =
        xs.mapIdx fun n x => g (i + 1 + n) x := by
      refine congrArg (fun k => xs.mapIdx k) (funext fun n => funext fun x => ?_)
      rw [Nat.add_comm n 1, ← Nat.add_assoc]
    have hhead : f i (g (i + 0) x) = f i x := hsame i x List.mem_cons_self
    rw [List.mapIdx_cons, parseAll, parseAll, htail, hhead,
      ih fun n y hy => hsame n y (List.mem_cons_of_mem _ hy)]

end Parse
