import Mathlib.Data.List.Basic
import Mathlib.Tactic.Common

/-!
# Library/Oracle — what can be made of the answers of an unknown function

A strategy asks a function it does not know, one question after another, and makes a result of the
answers.  It cannot tell two functions apart that agree where it asked (`run_eq`): its result is the
same whatever the function is at the other places.
-/

namespace Oracle

/-- A strategy with questions in `Q`, answers in `A` and results in `R`. -/
inductive Strategy (Q A R : Type) where
  | done (r : R)
  | ask (q : Q) (next : A → Strategy Q A R)

namespace Strategy

variable {Q A R : Type} (f g : Q → A)

/-- The result against the function `f`. -/
def run : Strategy Q A R → R
  | done r => r
  | ask q next => run (next (f q))

/-- The questions asked against the function `f`. -/
def asked : Strategy Q A R → List Q
  | done _ => []
  | ask q next => q :: asked (next (f q))

variable {f g}

/-- **A strategy does not tell two functions apart that agree where it asked.** -/
theorem run_eq {s : Strategy Q A R} (h : ∀ q ∈ s.asked f, g q = f q) : s.run g = s.run f := by
  induction s with
  | done r => rfl
  | ask q next ih =>
    rw [asked, List.forall_mem_cons] at h
    rw [run, run, h.1]
    exact ih (f q) h.2

/-- The function with another answer to a question that was not asked. -/
theorem update_agrees [DecidableEq Q] {s : Strategy Q A R} {q : Q} (hq : q ∉ s.asked f) (a : A) :
    ∀ q' ∈ s.asked f, Function.update f q a q' = f q' := fun _ hq' =>
  Function.update_of_ne (ne_of_mem_of_not_mem hq' hq) a f

end Strategy

end Oracle
