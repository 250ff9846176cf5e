import CodexGateway.Library.JsonRoundTrip
import CodexGateway.Library.Lines

/-!
# Library/Numerals — the integers that Python reads from a text

`int(text)` reads a sign and decimal digits of any script, with white space around them and single
underscores between them.  What `str` prints of an integer is read back (`int_dumpsInt`).  The limit
that the interpreter puts on the length of such a text is left out.

Beside it stands the pattern by which `argparse` tells a negative number from an option; a printed
negative integer matches it (`isNegativeNumber_dumpsInt`).
-/

namespace PyNumerals

open PyJson
open PyLines (strip lstrip)

/-! ## Digits -/

/-- The characters that stand for zero: in each script the ten digits follow one another. -/
def decimalZeros : List ℕ :=
  [0x0030, 0x0660, 0x06f0, 0x07c0, 0x0966, 0x09e6, 0x0a66, 0x0ae6, 0x0b66, 0x0be6, 0x0c66, 0x0ce6,
   0x0d66, 0x0de6, 0x0e50, 0x0ed0, 0x0f20, 0x1040, 0x1090, 0x17e0, 0x1810, 0x1946, 0x19d0, 0x1a80,
   0x1a90, 0x1b50, 0x1bb0, 0x1c40, 0x1c50, 0xa620, 0xa8d0, 0xa900, 0xa9d0, 0xa9f0, 0xaa50, 0xabf0,
   0xff10, 0x104a0, 0x10d30, 0x11066, 0x110f0, 0x11136, 0x111d0, 0x112f0, 0x11450, 0x114d0, 0x11650,
   0x116c0, 0x11730, 0x118e0, 0x11950, 0x11c50, 0x11d50, 0x11da0, 0x16a60, 0x16ac0, 0x16b50,
   0x1d7ce, 0x1d7d8, 0x1d7e2, 0x1d7ec, 0x1d7f6, 0x1e140, 0x1e2f0, 0x1e950, 0x1fbf0]

/-- The digit a character stands for in its script: what `\d` matches. -/
def decimal? (c : Char) : Option (Fin 10) :=
  (decimalZeros.find? fun z => z ≤ c.toNat && c.toNat < z + 10).map fun z =>
    ⟨(c.toNat - z) % 10, Nat.mod_lt _ (Nat.succ_pos 9)⟩

theorem decimal?_digitChar : ∀ d : Fin 10, decimal? (digitChar d) = some d := by decide

/-- A digit of a printed number is neither a sign, a separator nor white space. -/
theorem digitChar_plain : ∀ d : Fin 10, digitChar d ≠ '-' ∧ digitChar d ≠ '+' ∧
    digitChar d ≠ '_' ∧ digitChar d ≠ '\n' ∧ PyLines.isSpace (digitChar d) = false := by decide

/-! ## `int` -/

/-- Digits, with at most one underscore between each two. -/
def readDigits : List Char → Option (List (Fin 10))
  | [] => none
  | [c] => (decimal? c).map fun d => [d]
  | c :: '_' :: s => do
    let d ← decimal? c
    let ds ← readDigits s
    some (d :: ds)
  | c :: s => do
    let d ← decimal? c
    let ds ← readDigits s
    some (d :: ds)

/-- `int(text)`; nothing where it raises. -/
def int (text : List Char) : Option ℤ :=
  match strip text with
  | '-' :: s => (readDigits s).map fun ds => -(ofDigits ds : ℤ)
  | '+' :: s => (readDigits s).map fun ds => (ofDigits ds : ℤ)
  | s => (readDigits s).map fun ds => (ofDigits ds : ℤ)

theorem readDigits_map : ∀ {ds : List (Fin 10)}, ds ≠ [] →
    readDigits (ds.map digitChar) = some ds
  | [], hne => absurd rfl hne
  | [d], _ => by
      rw [List.map_singleton, readDigits, decimal?_digitChar]
      rfl
  | d :: e :: ds, _ => by
      have hrest := readDigits_map (List.cons_ne_nil e ds)
      rw [List.map_cons, List.map_cons] at *
      rw [readDigits, decimal?_digitChar, hrest]
      · rfl
      · exact List.cons_ne_nil _ _
      · exact fun _ heq => (digitChar_plain e).2.2.1 (List.cons.inj heq).1

theorem readDigits_dumpsNat (n : ℕ) : readDigits (dumpsNat n) = some (natDigits n) :=
  readDigits_map (natDigits_ne_nil n)

/-- A text without white space at its ends is left as it is. -/
theorem strip_eq_self {s : List Char} (hhead : ∀ c ∈ s.head?, PyLines.isSpace c = false)
    (hlast : ∀ c ∈ s.getLast?, PyLines.isSpace c = false) : strip s = s := by
  have hdrop {t : List Char} (h : ∀ c ∈ t.head?, PyLines.isSpace c = false) :
      t.dropWhile PyLines.isSpace = t := by
    cases t with
    | nil => rfl
    | cons c t => exact List.dropWhile_cons_of_neg (by rw [h c rfl]; exact Bool.false_ne_true)
  have hback : s.reverse.dropWhile PyLines.isSpace = s.reverse := by
    refine hdrop ?_
    rwa [List.head?_reverse]
  rw [strip, lstrip, hdrop hhead, hback, List.reverse_reverse]

theorem strip_dumpsInt (i : ℤ) : strip (dumpsInt i) = dumpsInt i := by
  have hplain : ∀ c ∈ dumpsInt i, PyLines.isSpace c = false := by
    intro c hc
    rcases List.mem_append.mp hc with hsign | hdigit
    · rw [dumpsSign] at hsign
      split_ifs at hsign with hneg
      · obtain rfl := List.mem_singleton.mp hsign
        decide
      · exact absurd hsign List.not_mem_nil
    · obtain ⟨d, -, rfl⟩ := List.mem_map.mp hdigit
      exact (digitChar_plain d).2.2.2.2
  exact strip_eq_self (fun c hc => hplain c (List.mem_of_head? hc))
    fun c hc => hplain c (List.mem_of_getLast? hc)

/-- **A printed integer is read back.** -/
theorem int_dumpsInt (i : ℤ) : int (dumpsInt i) = some i := by
  by_cases hneg : i < 0
  · have hdumps : dumpsInt i = '-' :: dumpsNat i.natAbs := by
      rw [dumpsInt, decide_eq_true hneg]
      rfl
    rw [int, strip_dumpsInt, hdumps]
    simp only [readDigits_dumpsNat, Option.map_some, ofDigits_natDigits, Option.some.injEq]
    omega
  · obtain ⟨d, s, hdigits⟩ := exists_dumpsNat i.natAbs
    have hdumps : dumpsInt i = digitChar d :: s := by
      rw [dumpsInt, decide_eq_false hneg, ← hdigits]
      rfl
    rw [int, strip_dumpsInt, hdumps]
    split
    · rename_i t heq
      exact absurd (List.cons.inj heq).1 (digitChar_plain d).1
    · rename_i t heq
      exact absurd (List.cons.inj heq).1 (digitChar_plain d).2.1
    · rw [← hdigits, readDigits_dumpsNat, Option.map_some, ofDigits_natDigits]
      congr 1
      omega

/-! ## Negative numbers on a command line -/

/-- Without the line feed before which `$` also matches. -/
def chopNewline (s : List Char) : List Char :=
  if s.getLast? = some '\n' then s.dropLast else s

/-- One digit or more, and nothing else. -/
def allDecimal (s : List Char) : Bool := s ≠ [] && s.all fun c => (decimal? c).isSome

/-- `^-\d+$|^-\d*\.\d+$`, the pattern `argparse` matches. -/
def isNegativeNumber (arg : List Char) : Bool :=
  match chopNewline arg with
  | '-' :: s =>
    allDecimal s || match s.dropWhile fun c => (decimal? c).isSome with
      | '.' :: fraction => allDecimal fraction
      | _ => false
  | _ => false

theorem chopNewline_of_ne {s : List Char} (h : ∀ c ∈ s, c ≠ '\n') : chopNewline s = s :=
  if_neg fun hlast => h '\n' (List.mem_of_getLast? hlast) rfl

/-- **A printed negative integer matches.** -/
theorem isNegativeNumber_dumpsInt {i : ℤ} (hneg : i < 0) :
    isNegativeNumber (dumpsInt i) = true := by
  have hdumps : dumpsInt i = '-' :: dumpsNat i.natAbs := by
    rw [dumpsInt, decide_eq_true hneg]
    rfl
  have hchop : chopNewline (dumpsInt i) = dumpsInt i := by
    refine chopNewline_of_ne fun c hc => ?_
    rw [hdumps] at hc
    rcases List.mem_cons.mp hc with rfl | hdigit
    · decide
    · obtain ⟨d, -, rfl⟩ := List.mem_map.mp hdigit
      exact (digitChar_plain d).2.2.2.1
  have hall : allDecimal (dumpsNat i.natAbs) = true := by
    refine Bool.and_eq_true_iff.mpr ⟨decide_eq_true ?_, List.all_eq_true.mpr fun c hc => ?_⟩
    · exact List.map_eq_nil_iff.not.mpr (natDigits_ne_nil _)
    · obtain ⟨d, -, rfl⟩ := List.mem_map.mp hc
      rw [decimal?_digitChar]
      rfl
  rw [isNegativeNumber, hchop, hdumps]
  simp only [hall, Bool.true_or]

end PyNumerals
