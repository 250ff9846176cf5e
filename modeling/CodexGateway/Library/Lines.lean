import Mathlib.Data.List.Basic
import Mathlib.Data.List.TakeWhile
import Mathlib.Tactic.Common

/-!
# Library/Lines — text cut into lines as Python's `str.splitlines` cuts it

`splitlines` breaks at the ten characters of `isBreak`, of which a line-oriented protocol usually
writes only the line feed.  A line without such a character survives (`splitlines_line`); a text
with one loses everything from it on to the next line (`splitlines_cut`).
-/

namespace PyLines

/-- The characters `str.splitlines` breaks at. -/
def isBreak (c : Char) : Bool :=
  c = '\n' || c = '\r' || c = '\x0b' || c = '\x0c' || c = '\x1c' || c = '\x1d' || c = '\x1e' ||
    c = '\u0085' || c = '\u2028' || c = '\u2029'

/-- `str.splitlines()`: the line breaks are dropped, `\r\n` is one of them. -/
def splitlines : List Char → List (List Char)
  | [] => []
  | [c] => if isBreak c then [[]] else [[c]]
  | c :: d :: s =>
    if c = '\r' ∧ d = '\n' then [] :: splitlines s
    else if isBreak c then [] :: splitlines (d :: s)
    else
      match splitlines (d :: s) with
      | [] => [[c]]
      | l :: ls => (c :: l) :: ls

/-- The characters `str.lstrip` removes: those `str.isspace` holds of. -/
def isSpace (c : Char) : Bool :=
  (0x09 ≤ c.toNat && c.toNat ≤ 0x0d) || (0x1c ≤ c.toNat && c.toNat ≤ 0x20) || c.toNat = 0x85 ||
    c.toNat = 0xa0 || c.toNat = 0x1680 || (0x2000 ≤ c.toNat && c.toNat ≤ 0x200a) ||
    c.toNat = 0x2028 || c.toNat = 0x2029 || c.toNat = 0x202f || c.toNat = 0x205f || c.toNat = 0x3000

/-- `str.lstrip()`. -/
def lstrip (s : List Char) : List Char := s.dropWhile isSpace

/-- `str.strip()`. -/
def strip (s : List Char) : List Char := ((lstrip s).reverse.dropWhile isSpace).reverse

/-- What `strip` leaves stands in the text between white space. -/
theorem exists_strip (s : List Char) :
    ∃ a b, s = a ++ strip s ++ b ∧ (∀ c ∈ a, isSpace c) ∧ ∀ c ∈ b, isSpace c := by
  refine ⟨s.takeWhile isSpace, ((lstrip s).reverse.takeWhile isSpace).reverse, ?_,
    fun c hc => List.mem_takeWhile_imp hc,
    fun c hc => List.mem_takeWhile_imp (List.mem_reverse.mp hc)⟩
  rw [List.append_assoc, strip, ← List.reverse_append, List.takeWhile_append_dropWhile,
    List.reverse_reverse, lstrip, List.takeWhile_append_dropWhile]

/-! ## Lines of a text -/

theorem splitlines_cons {c : Char} (h : isBreak c = false) (s : List Char) :
    splitlines (c :: s) = (c :: (splitlines s).headD []) :: (splitlines s).tail := by
  have hr : c ≠ '\r' := by rintro rfl; exact absurd h (by decide)
  cases s with
  | nil => simp [splitlines, h]
  | cons d s =>
    simp only [splitlines, h, hr, false_and, if_false, Bool.false_eq_true]
    cases splitlines (d :: s) <;> rfl

theorem splitlines_break {c : Char} (h : isBreak c = true) (hr : c ≠ '\r') (s : List Char) :
    splitlines (c :: s) = [] :: splitlines s := by
  cases s with
  | nil => simp [splitlines, h]
  | cons d s => simp [splitlines, h, hr]

/-- **A line is what stands before the first break.** -/
theorem splitlines_cut {a : List Char} (ha : ∀ c ∈ a, isBreak c = false) {b : Char}
    (hb : isBreak b = true) (hr : b ≠ '\r') (s : List Char) :
    splitlines (a ++ b :: s) = a :: splitlines s := by
  induction a with
  | nil => exact splitlines_break hb hr s
  | cons c a ih =>
    have htail := ih fun d hd => ha d (List.mem_cons_of_mem _ hd)
    rw [List.cons_append, splitlines_cons (ha c List.mem_cons_self), htail]
    rfl

theorem splitlines_line {a : List Char} (ha : ∀ c ∈ a, isBreak c = false) (s : List Char) :
    splitlines (a ++ '\n' :: s) = a :: splitlines s :=
  splitlines_cut ha (by decide) (by decide) s

theorem splitlines_cons_ne_nil (c : Char) (s : List Char) : splitlines (c :: s) ≠ [] := by
  cases s with
  | nil =>
    rw [splitlines]
    split_ifs <;> exact List.cons_ne_nil _ _
  | cons d s =>
    rw [splitlines]
    split_ifs
    · exact List.cons_ne_nil _ _
    · exact List.cons_ne_nil _ _
    · split <;> exact List.cons_ne_nil _ _

/-- **A text that ends with a line feed is cut apart from what follows it.** -/
theorem splitlines_append_newline : ∀ a s : List Char,
    splitlines (a ++ '\n' :: s) = splitlines (a ++ ['\n']) ++ splitlines s
  | [], s => by
      rw [List.nil_append, List.nil_append, splitlines_break (by decide) (by decide),
        splitlines_break (by decide) (by decide)]
      rfl
  | [c], s => by
      by_cases hreturn : c = '\r'
      · subst hreturn
        rfl
      · have hline := splitlines_append_newline [] s
        rw [List.nil_append, List.nil_append] at hline
        by_cases hbreak : isBreak c = true
        · rw [List.singleton_append, List.singleton_append, splitlines_break hbreak hreturn,
            splitlines_break hbreak hreturn, hline]
          rfl
        · have hplain := Bool.eq_false_iff.mpr hbreak
          rw [List.singleton_append, List.singleton_append, splitlines_cons hplain,
            splitlines_cons hplain, splitlines_break (by decide) (by decide),
            splitlines_break (by decide) (by decide)]
          rfl
  | c :: d :: a, s => by
      have htail := splitlines_append_newline (d :: a) s
      have hrest := splitlines_append_newline a s
      by_cases hreturn : c = '\r' ∧ d = '\n'
      · simp only [List.cons_append, splitlines, if_pos hreturn, hrest]
      · by_cases hbreak : isBreak c = true
        · simp only [List.cons_append, splitlines, if_neg hreturn, if_pos hbreak]
          rw [List.cons_append] at htail
          rw [htail]
          rfl
        · simp only [List.cons_append, splitlines, if_neg hreturn, if_neg hbreak]
          rw [List.cons_append] at htail
          rw [htail, List.cons_append]
          cases hlines : splitlines (d :: (a ++ ['\n'])) with
          | nil => exact absurd hlines (splitlines_cons_ne_nil _ _)
          | cons l ls => rfl

end PyLines
