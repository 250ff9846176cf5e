import Mathlib.Data.UInt
import Mathlib.Tactic.Common

/-!
# Library/Base64 — URL-safe base64, and decoding it the lenient way

`a2b` is `binascii.a2b_base64` without its strict mode: characters outside the alphabet are passed
over, and a pad sequence that completes a group ends the input.  Only a group that is left open is an
error.  What is encoded is read back, also without its pads (`urlsafeB64decode_stripPad`).
-/

namespace Base64

/-- The six bits a character stands for, in the plain alphabet or the URL-safe one. -/
def sextet (c : Char) : Option ℕ :=
  if 'A' ≤ c ∧ c ≤ 'Z' then some (c.toNat - 'A'.toNat)
  else if 'a' ≤ c ∧ c ≤ 'z' then some (c.toNat - 'a'.toNat + 26)
  else if '0' ≤ c ∧ c ≤ '9' then some (c.toNat - '0'.toNat + 52)
  else if c = '+' ∨ c = '-' then some 62
  else if c = '/' ∨ c = '_' then some 63
  else none

/-- `quad` characters of the group are read, `left` are the bits not yet put out, and `pads` pad
characters have followed. -/
def a2b (quad pads left : ℕ) : List Char → Option (List UInt8)
  | [] => if quad = 0 then some [] else none
  | c :: rest =>
    if c = '=' then
      if 2 ≤ quad ∧ 4 ≤ quad + (pads + 1) then some []
      else a2b quad (if 2 ≤ quad then pads + 1 else pads) left rest
    else match sextet c, quad with
      | none, _ => a2b quad pads left rest
      | some v, 0 => a2b 1 0 v rest
      | some v, 1 => (a2b 2 0 (v % 16) rest).map (UInt8.ofNat (left * 4 + v / 16) :: ·)
      | some v, 2 => (a2b 3 0 (v % 4) rest).map (UInt8.ofNat (left * 16 + v / 4) :: ·)
      | some v, _ => (a2b 0 0 0 rest).map (UInt8.ofNat (left * 64 + v) :: ·)

/-- `base64.urlsafe_b64decode(text)`, which takes ASCII text only. -/
def urlsafeB64decode (text : List Char) : Option (List UInt8) :=
  if text.all (·.toNat < 128) then a2b 0 0 0 text else none

/-! ## Encoding -/

/-- The character of six bits, in the URL-safe alphabet. -/
def letter (v : ℕ) : Char :=
  if v < 26 then Char.ofNat ('A'.toNat + v)
  else if v < 52 then Char.ofNat ('a'.toNat + (v - 26))
  else if v < 62 then Char.ofNat ('0'.toNat + (v - 52))
  else if v = 62 then '-'
  else '_'

/-- `base64.urlsafe_b64encode(value)`, as text. -/
def urlsafeB64encode : List UInt8 → List Char
  | [] => []
  | [a] => [letter (a.toNat / 4), letter (a.toNat % 4 * 16), '=', '=']
  | [a, b] =>
    [letter (a.toNat / 4), letter (a.toNat % 4 * 16 + b.toNat / 16), letter (b.toNat % 16 * 4), '=']
  | a :: b :: c :: value =>
    letter (a.toNat / 4) :: letter (a.toNat % 4 * 16 + b.toNat / 16) ::
      letter (b.toNat % 16 * 4 + c.toNat / 64) :: letter (c.toNat % 64) :: urlsafeB64encode value

/-- A letter is read as its six bits; it is ASCII, and neither a pad nor a dot. -/
theorem letter_spec : ∀ v < 64, sextet (letter v) = some v ∧ letter v ≠ '=' ∧ letter v ≠ '.' ∧
    (letter v).toNat < 128 := by decide

section Decode

variable {v left : ℕ} (hv : v < 64) (rest : List Char)

include hv

theorem a2b_zero : a2b 0 0 0 (letter v :: rest) = a2b 1 0 v rest := by
  obtain ⟨hsextet, hpad, -⟩ := letter_spec v hv
  rw [a2b.eq_def]
  simp only [if_neg hpad, hsextet]

theorem a2b_one : a2b 1 0 left (letter v :: rest) =
    (a2b 2 0 (v % 16) rest).map (UInt8.ofNat (left * 4 + v / 16) :: ·) := by
  obtain ⟨hsextet, hpad, -⟩ := letter_spec v hv
  rw [a2b.eq_def]
  simp only [if_neg hpad, hsextet]

theorem a2b_two : a2b 2 0 left (letter v :: rest) =
    (a2b 3 0 (v % 4) rest).map (UInt8.ofNat (left * 16 + v / 4) :: ·) := by
  obtain ⟨hsextet, hpad, -⟩ := letter_spec v hv
  rw [a2b.eq_def]
  simp only [if_neg hpad, hsextet]

theorem a2b_three : a2b 3 0 left (letter v :: rest) =
    (a2b 0 0 0 rest).map (UInt8.ofNat (left * 64 + v) :: ·) := by
  obtain ⟨hsextet, hpad, -⟩ := letter_spec v hv
  rw [a2b.eq_def]
  simp only [if_neg hpad, hsextet]

end Decode

theorem ofNat_eq {a : UInt8} {n : ℕ} (h : n = a.toNat) : UInt8.ofNat n = a := by
  rw [h, UInt8.ofNat_toNat]

/-- **What is encoded is read back.** -/
theorem a2b_urlsafeB64encode (value : List UInt8) : a2b 0 0 0 (urlsafeB64encode value) = some value := by
  induction value using urlsafeB64encode.induct with
  | case1 => rfl
  | case2 a =>
    have ha := a.toNat_lt
    rw [urlsafeB64encode, a2b_zero (by omega), a2b_one (by omega),
      ofNat_eq (show a.toNat / 4 * 4 + a.toNat % 4 * 16 / 16 = a.toNat by omega)]
    rfl
  | case3 a b =>
    have ha := a.toNat_lt
    have hb := b.toNat_lt
    rw [urlsafeB64encode, a2b_zero (by omega), a2b_one (by omega), a2b_two (by omega),
      ofNat_eq (show a.toNat / 4 * 4 + (a.toNat % 4 * 16 + b.toNat / 16) / 16 = a.toNat by omega),
      ofNat_eq (show (a.toNat % 4 * 16 + b.toNat / 16) % 16 * 16 + b.toNat % 16 * 4 / 4 = b.toNat by
        omega)]
    rfl
  | case4 a b c value ih =>
    have ha := a.toNat_lt
    have hb := b.toNat_lt
    have hc := c.toNat_lt
    rw [urlsafeB64encode, a2b_zero (by omega), a2b_one (by omega), a2b_two (by omega),
      a2b_three (by omega), ih,
      ofNat_eq (show a.toNat / 4 * 4 + (a.toNat % 4 * 16 + b.toNat / 16) / 16 = a.toNat by omega),
      ofNat_eq (show (a.toNat % 4 * 16 + b.toNat / 16) % 16 * 16 +
        (b.toNat % 16 * 4 + c.toNat / 64) / 4 = b.toNat by omega),
      ofNat_eq (show (b.toNat % 16 * 4 + c.toNat / 64) % 4 * 64 + c.toNat % 64 = c.toNat by omega)]
    rfl

theorem length_urlsafeB64encode (value : List UInt8) :
    (urlsafeB64encode value).length = 4 * ((value.length + 2) / 3) := by
  induction value using urlsafeB64encode.induct with
  | case1 | case2 | case3 => simp [urlsafeB64encode]
  | case4 a b c value ih =>
    simp only [urlsafeB64encode, List.length_cons, ih]
    omega

/-- `text.rstrip("=")` -/
def stripPad (text : List Char) : List Char := (text.reverse.dropWhile (· = '=')).reverse

theorem length_stripPad_le (text : List Char) : (stripPad text).length ≤ text.length := by
  rw [stripPad, List.length_reverse]
  exact (List.dropWhile_sublist _).length_le.trans_eq List.length_reverse

/-- The pads that fill up the last group. -/
def pads (text : List Char) : List Char := List.replicate ((4 - text.length % 4) % 4) '='

/-- `base64.b64decode(text, validate=True)`: the plain alphabet, filled up and with nothing after. -/
def b64decode (text : List Char) : Option (List UInt8) :=
  let data := text.takeWhile (· ≠ '=')
  if data.all (fun c => (sextet c).isSome ∧ c ≠ '-' ∧ c ≠ '_') ∧ text = data ++ pads data then
    a2b 0 0 0 text
  else none

/-- The characters of an encoded text but its pads. -/
def Plain (c : Char) : Prop := c ≠ '=' ∧ c ≠ '.' ∧ c.toNat < 128

theorem plain_letter {v : ℕ} (h : v < 64) : Plain (letter v) := (letter_spec v h).2

/-- **An encoded text is made of letters, and filled up.** -/
theorem exists_plain (value : List UInt8) :
    ∃ text, urlsafeB64encode value = text ++ pads text ∧ ∀ c ∈ text, Plain c := by
  induction value using urlsafeB64encode.induct with
  | case1 => exact ⟨[], rfl, by simp⟩
  | case2 a =>
    have ha := a.toNat_lt
    refine ⟨[letter (a.toNat / 4), letter (a.toNat % 4 * 16)], rfl, ?_⟩
    simp only [List.forall_mem_cons]
    exact ⟨plain_letter (by omega), plain_letter (by omega), by simp⟩
  | case3 a b =>
    have ha := a.toNat_lt
    have hb := b.toNat_lt
    refine ⟨[letter (a.toNat / 4), letter (a.toNat % 4 * 16 + b.toNat / 16),
      letter (b.toNat % 16 * 4)], rfl, ?_⟩
    simp only [List.forall_mem_cons]
    exact ⟨plain_letter (by omega), plain_letter (by omega), plain_letter (by omega), by simp⟩
  | case4 a b c value ih =>
    have ha := a.toNat_lt
    have hb := b.toNat_lt
    have hc := c.toNat_lt
    obtain ⟨text, htext, hplain⟩ := ih
    refine ⟨letter (a.toNat / 4) :: letter (a.toNat % 4 * 16 + b.toNat / 16) ::
      letter (b.toNat % 16 * 4 + c.toNat / 64) :: letter (c.toNat % 64) :: text, ?_, ?_⟩
    · have hmod : (text.length + 4) % 4 = text.length % 4 := Nat.add_mod_right ..
      simp only [urlsafeB64encode, htext, pads, List.length_cons, List.cons_append, hmod]
    · simp only [List.forall_mem_cons]
      exact ⟨plain_letter (by omega), plain_letter (by omega), plain_letter (by omega),
        plain_letter (by omega), hplain⟩

theorem stripPad_append {text : List Char} (h : ∀ c ∈ text, Plain c) (n : ℕ) :
    stripPad (text ++ List.replicate n '=') = text := by
  have hpads : ∀ c ∈ List.replicate n '=', decide (c = '=') = true := fun c hc =>
    decide_eq_true (List.eq_of_mem_replicate hc)
  have htext : text.reverse.dropWhile (· = '=') = text.reverse := by
    cases hr : text.reverse with
    | nil => rfl
    | cons c rest =>
      have hc : c ∈ text := List.mem_reverse.mp (hr ▸ List.mem_cons_self)
      exact List.dropWhile_cons_of_neg (by simpa using (h c hc).1)
  rw [stripPad, List.reverse_append, List.reverse_replicate,
    List.dropWhile_append_of_pos hpads, htext, List.reverse_reverse]

/-- **A text without its pads is read back with as many.** -/
theorem urlsafeB64decode_stripPad (value : List UInt8) :
    (∀ c ∈ stripPad (urlsafeB64encode value), Plain c) ∧
      urlsafeB64decode (stripPad (urlsafeB64encode value) ++
        pads (stripPad (urlsafeB64encode value))) = some value := by
  obtain ⟨text, htext, hplain⟩ := exists_plain value
  have hstrip : stripPad (urlsafeB64encode value) = text := by
    rw [htext]
    exact stripPad_append hplain _
  rw [hstrip]
  refine ⟨hplain, ?_⟩
  have hascii : (text ++ pads text).all (·.toNat < 128) = true := by
    refine List.all_eq_true.mpr fun c hc => decide_eq_true ?_
    rcases List.mem_append.mp hc with hc | hc
    · exact (hplain c hc).2.2
    · rw [List.eq_of_mem_replicate hc]
      decide
  rw [urlsafeB64decode, if_pos hascii, ← htext]
  exact a2b_urlsafeB64encode value

end Base64
