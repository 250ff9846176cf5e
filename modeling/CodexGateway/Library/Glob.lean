import Mathlib.Data.List.Basic
import Mathlib.Data.List.Infix
import Mathlib.Tactic.Common

/-!
# Library/Glob — patterns with `*` and `?`

`like pattern text` is the matching of `StringLike`: `*` stands for any run of characters, `?` for
any one character, and every other character for itself.  A pattern that begins with plain
characters matches exactly the texts that begin with them and go on as the rest asks
(`like_append`), so a plain pattern matches one text, and a plain pattern with a `*` behind it the
texts it is a prefix of.
-/

namespace Glob

/-- The text is as the pattern says, whose `*` stands for any text and whose `?` for a character. -/
def like : List Char → List Char → Bool
  | [], text => text.isEmpty
  | c :: pattern, text =>
    if c = '*' then text.tails.any (like pattern)
    else match text with
      | [] => false
      | d :: text => (c = '?' || c = d) && like pattern text

/-- The characters stand for themselves. -/
def Plain (pattern : List Char) : Prop := ∀ c ∈ pattern, c ≠ '*' ∧ c ≠ '?'

instance (pattern : List Char) : Decidable (Plain pattern) :=
  List.decidableBAll (fun c => c ≠ '*' ∧ c ≠ '?') pattern

theorem Plain.append {p q : List Char} (hp : Plain p) (hq : Plain q) : Plain (p ++ q) :=
  fun c hc => (List.mem_append.mp hc).elim (hp c) (hq c)

theorem like_star (text : List Char) : like ['*'] text = true := by
  rw [like.eq_def]
  simp only [if_true, List.any_eq_true]
  exact ⟨[], (List.mem_tails _ _).mpr (List.nil_suffix), rfl⟩

/-- **The plain characters before a pattern are the first ones of what it matches.** -/
theorem like_append {plain : List Char} (hplain : Plain plain) {pattern text : List Char} :
    like (plain ++ pattern) text = true ↔ ∃ rest, text = plain ++ rest ∧ like pattern rest = true := by
  induction plain generalizing text with
  | nil => exact ⟨fun h => ⟨text, rfl, h⟩, fun ⟨_, htext, h⟩ => htext ▸ h⟩
  | cons c plain ih =>
    obtain ⟨hstar, hmark⟩ := hplain c List.mem_cons_self
    have ih := @ih fun d hd => hplain d (List.mem_cons_of_mem _ hd)
    rw [List.cons_append, like.eq_def]
    simp only [if_neg hstar]
    cases text with
    | nil => simp
    | cons d text =>
      simp only [hmark, decide_false, Bool.false_or, Bool.and_eq_true, decide_eq_true_eq, ih,
        List.cons_append, List.cons.injEq]
      exact ⟨fun ⟨hc, rest, htext, h⟩ => ⟨rest, ⟨hc.symm, htext⟩, h⟩,
        fun ⟨rest, ⟨hc, htext⟩, h⟩ => ⟨hc.symm, rest, htext, h⟩⟩

/-- A plain pattern matches itself alone. -/
theorem like_plain {plain : List Char} (hplain : Plain plain) {text : List Char} :
    like plain text = true ↔ text = plain := by
  have h := @like_append _ hplain [] text
  rw [List.append_nil] at h
  rw [h]
  exact ⟨fun ⟨rest, htext, hrest⟩ => by rw [htext, List.isEmpty_iff.mp hrest, List.append_nil],
    fun htext => ⟨[], by rw [htext, List.append_nil], rfl⟩⟩

/-- A plain pattern with a `*` behind it matches what it is a prefix of. -/
theorem like_below {plain : List Char} (hplain : Plain plain) {text : List Char} :
    like (plain ++ ['*']) text = true ↔ plain <+: text := by
  rw [like_append hplain]
  exact ⟨fun ⟨rest, htext, _⟩ => ⟨rest, htext.symm⟩,
    fun ⟨rest, htext⟩ => ⟨rest, htext.symm, like_star rest⟩⟩

end Glob
