import Mathlib.Data.List.Basic
import Mathlib.Data.List.TakeWhile
import Mathlib.Tactic.Common

/-!
# Library/Tokens — a text cut into the words between its separators

`tokens p` keeps the nonempty pieces between the characters of which `p` holds.  A separator cuts
the words of a text in two (`tokens_append_cons`), and a word is found in the text with a separator
or an end at either side (`stands_of_mem_tokens`).
-/

namespace Tokens

variable {α : Type*} {p : α → Bool} {c : α} {a b s t : List α}

/-- The pieces hold no separator. -/
theorem of_mem_splitOnP (h : a ∈ s.splitOnP p) : ∀ d ∈ a, p d = false := by
  induction s generalizing a with
  | nil =>
    obtain rfl := List.mem_singleton.mp h
    exact fun _ hd => absurd hd List.not_mem_nil
  | cons e s ih =>
    rw [List.splitOnP_cons_eq_if_modifyHead] at h
    split_ifs at h with he
    · rcases List.mem_cons.mp h with rfl | h
      · exact fun _ hd => absurd hd List.not_mem_nil
      · exact ih h
    · cases hpieces : s.splitOnP p with
      | nil => exact absurd hpieces (List.splitOnP_ne_nil p s)
      | cons piece pieces =>
        rw [hpieces] at h ih
        rcases List.mem_cons.mp h with rfl | h
        · intro d hd
          rcases List.mem_cons.mp hd with rfl | hd
          · exact Bool.eq_false_iff.mpr he
          · exact ih List.mem_cons_self d hd
        · exact ih (List.mem_cons_of_mem _ h)

/-- The nonempty pieces of `s` between the elements of which `p` holds. -/
def tokens (p : α → Bool) (s : List α) : List (List α) := (s.splitOnP p).filter (!·.isEmpty)

@[simp] theorem tokens_nil : tokens p [] = [] := rfl

/-- **A separator cuts the words in two.** -/
theorem tokens_append_cons (hc : p c) : tokens p (a ++ c :: b) = tokens p a ++ tokens p b := by
  rw [tokens, List.splitOnP_append_cons a b hc, List.filter_append]
  rfl

theorem tokens_cons (hc : p c) : tokens p (c :: b) = tokens p b :=
  tokens_append_cons (a := []) hc

theorem tokens_word (ha : ∀ d ∈ a, p d = false) (hne : a ≠ []) : tokens p a = [a] := by
  rw [tokens, List.splitOnP_eq_singleton ha]
  simp [hne]

/-- Words that are joined by a separator. -/
theorem tokens_intercalate (hc : p c) : ∀ ws : List (List α),
    tokens p ([c].intercalate ws) = ws.flatMap (tokens p)
  | [] => rfl
  | [w] => by simp
  | w :: v :: ws => by
      have htail := tokens_intercalate hc (v :: ws)
      rw [List.intercalate_cons_cons, List.append_assoc, List.singleton_append,
        tokens_append_cons hc, htail]
      rfl

/-! ## A word in its text -/

/-- `t` stands in `s`: it holds no element of `p`, and at either side is an element of `q` or the
end of `s`. -/
def Stands (p q : α → Bool) (t s : List α) : Prop :=
  ∃ a b, s = a ++ t ++ b ∧ t ≠ [] ∧ (∀ c ∈ t, p c = false) ∧ (∀ c ∈ a.getLast?, q c) ∧
    ∀ c ∈ b.head?, q c

theorem exists_first (h : ¬ ∀ d ∈ s, p d = false) :
    ∃ a c b, s = a ++ c :: b ∧ p c ∧ ∀ d ∈ a, p d = false := by
  induction s with
  | nil => simp at h
  | cons d s ih =>
    cases hd : p d with
    | true => exact ⟨[], d, s, rfl, hd, by simp⟩
    | false =>
      obtain ⟨a, c, b, rfl, hc, ha⟩ := ih fun hs => h (List.forall_mem_cons.mpr ⟨hd, hs⟩)
      exact ⟨d :: a, c, b, rfl, hc, List.forall_mem_cons.mpr ⟨hd, ha⟩⟩

/-- **A word stands between separators.** -/
theorem stands_of_mem_tokens {q : α → Bool} (hpq : ∀ c, p c → q c) (h : t ∈ tokens p s) :
    Stands p q t s := by
  induction hn : s.length using Nat.strong_induction_on generalizing s with | _ n ih
  by_cases hs : ∀ d ∈ s, p d = false
  · have hne : s ≠ [] := by
      rintro rfl
      simp at h
    rw [tokens_word hs hne, List.mem_singleton] at h
    subst h
    exact ⟨[], [], by simp, hne, hs, by simp, by simp⟩
  · obtain ⟨a, c, b, rfl, hc, ha⟩ := exists_first hs
    rw [tokens_append_cons hc, List.mem_append] at h
    rcases h with h | h
    · have hne : a ≠ [] := by
        rintro rfl
        simp at h
      rw [tokens_word ha hne, List.mem_singleton] at h
      subst h
      exact ⟨[], c :: b, by simp, hne, ha, by simp, by simpa using hpq c hc⟩
    · obtain ⟨x, y, hb, hne, ht, hx, hy⟩ := ih b.length (by simp at hn; omega) h rfl
      refine ⟨a ++ c :: x, y, by simp [hb], hne, ht, ?_, hy⟩
      intro d hd
      rw [List.getLast?_append, List.getLast?_cons] at hd
      cases hl : x.getLast? with
      | none =>
        obtain rfl : c = d := by simpa [hl] using hd
        exact hpq c hc
      | some e =>
        obtain rfl : e = d := by simpa [hl] using hd
        exact hx e hl

/-- What is trimmed off a text leaves its words standing. -/
theorem Stands.trimmed {q : α → Bool} {x y : List α} (h : Stands p q t s) (hx : ∀ c ∈ x, q c)
    (hy : ∀ c ∈ y, q c) : Stands p q t (x ++ s ++ y) := by
  obtain ⟨a, b, rfl, hne, ht, ha, hb⟩ := h
  refine ⟨x ++ a, b ++ y, by simp, hne, ht, fun c hc => ?_, fun c hc => ?_⟩
  · rw [List.getLast?_append] at hc
    cases hl : a.getLast? with
    | none => exact hx c (List.mem_of_getLast? (by simpa [hl] using hc))
    | some e => exact ha c (by simpa [hl] using hc)
  · rw [List.head?_append] at hc
    cases hl : b.head? with
    | none => exact hy c (List.mem_of_head? (by simpa [hl] using hc))
    | some e => exact hb c (by simpa [hl] using hc)

/-! ## A list of texts -/

section Join

variable [BEq α] [LawfulBEq α] {sep : α}

/-- A blank before a piece changes no word of it. -/
theorem map_tokens_splitOn_cons (hc : p c) (hne : c ≠ sep) (s : List α) :
    ((c :: s).splitOn sep).map (tokens p) = (s.splitOn sep).map (tokens p) := by
  rw [List.splitOn_cons_eq_if_modifyHead, if_neg (by simpa using hne)]
  cases h : s.splitOn sep with
  | nil => rfl
  | cons w ws => simp [tokens_cons hc]

/-- **Texts that are joined by a separator and a blank are read back word by word.** -/
theorem map_tokens_join (hc : p c) (hne : c ≠ sep) : ∀ ws : List (List α), ws ≠ [] →
    (∀ w ∈ ws, sep ∉ w) →
      (([sep, c].intercalate ws ++ [sep]).splitOn sep).map (tokens p) = ws.map (tokens p) ++ [[]]
  | [], h, _ => absurd rfl h
  | [w], _, hw => by
      rw [List.intercalate_singleton,
        List.splitOn_append_cons_self_of_not_mem (hw w List.mem_cons_self)]
      simp
  | w :: v :: ws, _, hw => by
      have htail := map_tokens_join hc hne (v :: ws) (List.cons_ne_nil _ _) fun x hx =>
        hw x (List.mem_cons_of_mem _ hx)
      have hsplit : [sep, c].intercalate (w :: v :: ws) ++ [sep] =
          w ++ sep :: c :: ([sep, c].intercalate (v :: ws) ++ [sep]) := by
        simp [List.intercalate_cons_cons]
      rw [hsplit, List.splitOn_append_cons_self_of_not_mem (hw w List.mem_cons_self), List.map_cons,
        map_tokens_splitOn_cons hc hne, htail]
      rfl

end Join

theorem mem_intercalate (hc : c ∉ s) : ∀ ws : List (List α),
    c ∈ s.intercalate ws ↔ ∃ w ∈ ws, c ∈ w
  | [] => by simp
  | [w] => by simp
  | w :: v :: ws => by
      rw [List.intercalate_cons_cons, List.mem_append, List.mem_append,
        mem_intercalate hc (v :: ws)]
      simp [hc]

end Tokens
