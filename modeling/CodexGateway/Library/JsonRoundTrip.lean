import CodexGateway.Library.Json
import Mathlib.Tactic.FinCases

/-!
# Library/JsonRoundTrip — reading a printed JSON value gives it back

`loads_dumps`: `loads` inverts `dumps` on the well-formed values.  `scanOnce_dumps` is the step
behind it, with the text after the value left over, and `scan_succ` says that the fuel only has to
be enough.
-/

namespace PyJson

/-! ## Numbers -/

theorem digitValue_digitChar : ∀ d : Fin 10, digitValue (digitChar d) = some d := by decide

/-- What may follow a number without changing how it is read. -/
def NumberEnd (r : List Char) : Prop :=
  ∀ c ∈ r.head?, digitValue c = none ∧ c ≠ '.' ∧ c ≠ 'e' ∧ c ≠ 'E'

theorem NumberEnd.nil : NumberEnd [] := by simp [NumberEnd]

theorem numberEnd_cons {c : Char} (r : List Char) (h : c = ',' ∨ c = ']' ∨ c = '}') :
    NumberEnd (c :: r) := by
  intro d hd
  obtain rfl : c = d := by simpa using hd
  rcases h with rfl | rfl | rfl <;> decide

theorem scanDigits_of_none {r : List Char} (hr : ∀ c ∈ r.head?, digitValue c = none) :
    scanDigits r = ([], r) := by
  cases r with
  | nil => rfl
  | cons c r => simp [scanDigits, hr c rfl]

theorem scanDigits_append {r : List Char} (hr : ∀ c ∈ r.head?, digitValue c = none) :
    ∀ ds : List (Fin 10), scanDigits (ds.map digitChar ++ r) = (ds, r)
  | [] => scanDigits_of_none hr
  | d :: ds => by
      simp only [List.map_cons, List.cons_append, scanDigits, digitValue_digitChar,
        scanDigits_append hr ds]

theorem natDigits_of_lt {n : ℕ} (h : n < 10) : natDigits n = [⟨n, h⟩] := by
  rw [natDigits, dif_pos h]

theorem natDigits_of_le {n : ℕ} (h : 10 ≤ n) :
    natDigits n = natDigits (n / 10) ++ [⟨n % 10, Nat.mod_lt _ (by decide)⟩] := by
  rw [natDigits, dif_neg (by omega)]

theorem natDigits_ne_nil (n : ℕ) : natDigits n ≠ [] := by
  rw [natDigits]
  split <;> simp

/-- **The digits of a number spell it.** -/
theorem ofDigits_natDigits (n : ℕ) : ofDigits (natDigits n) = n := by
  induction n using Nat.strong_induction_on with
  | _ n ih =>
    rcases Nat.lt_or_ge n 10 with h | h
    · simp [natDigits_of_lt h, ofDigits]
    · have hrec := ih (n / 10) (by omega)
      rw [natDigits_of_le h, ofDigits, List.foldl_append]
      rw [ofDigits] at hrec
      simp only [hrec, List.foldl_cons, List.foldl_nil]
      omega

/-- A positive number is printed without a leading zero. -/
theorem head_natDigits {n : ℕ} (hn : 0 < n) : ∀ d ∈ (natDigits n).head?, d ≠ 0 := by
  induction n using Nat.strong_induction_on with
  | _ n ih =>
    intro d hd
    rcases Nat.lt_or_ge n 10 with h | h
    · rw [natDigits_of_lt h] at hd
      obtain rfl : (⟨n, h⟩ : Fin 10) = d := by simpa using hd
      exact fun h0 => by simp [Fin.ext_iff] at h0; omega
    · rw [natDigits_of_le h, List.head?_append_of_ne_nil _ (natDigits_ne_nil _)] at hd
      exact ih (n / 10) (by omega) (by omega) d hd

theorem digitChar_ne_zero : ∀ d : Fin 10, d ≠ 0 → digitChar d ≠ '0' := by decide

theorem scanFrac_of_ne {r : List Char} (hr : ∀ c ∈ r.head?, c ≠ '.') : scanFrac r = ([], r) := by
  rw [scanFrac.eq_def]
  split
  · exact absurd rfl (hr '.' rfl)
  · rfl

theorem scanFrac_dumpsFrac (f : List (Fin 10)) {r : List Char}
    (hr : ∀ c ∈ r.head?, digitValue c = none ∧ c ≠ '.') :
    scanFrac (dumpsFrac f ++ r) = (f, r) := by
  rw [dumpsFrac]
  split
  · subst f
    exact scanFrac_of_ne fun c hc => (hr c hc).2
  · rename_i hf
    rw [List.cons_append, scanFrac, scanDigits_append (fun c hc => (hr c hc).1)]
    simp [hf]

theorem scanExp_of_ne {r : List Char} (hr : ∀ c ∈ r.head?, c ≠ 'e' ∧ c ≠ 'E') :
    scanExp r = (none, r) := by
  cases r with
  | nil => rfl
  | cons c r =>
    have := hr c rfl
    simp [scanExp, this.1, this.2]

theorem scanExp_dumpsExp (e : Option (Bool × List (Fin 10))) (he : ∀ x ∈ e, x.2 ≠ [])
    {r : List Char} (hr : NumberEnd r) : scanExp (dumpsExp e ++ r) = (e, r) := by
  match e with
  | none => exact scanExp_of_ne fun c hc => (hr c hc).2.2
  | some (neg, ds) =>
    have hne : ds ≠ [] := he (neg, ds) rfl
    have hds := scanDigits_append (fun c hc => (hr c hc).1) ds
    cases neg <;> simp [dumpsExp, scanExp, scanExpSign, hds, hne]

/-- The exponent of a printed float does not extend its fraction. -/
theorem dumpsExp_append_head (e : Option (Bool × List (Fin 10))) {r : List Char}
    (hr : NumberEnd r) : ∀ c ∈ (dumpsExp e ++ r).head?, digitValue c = none ∧ c ≠ '.' := by
  intro c hc
  match e with
  | none => exact ⟨(hr c hc).1, (hr c hc).2.1⟩
  | some (neg, ds) =>
    obtain rfl : 'e' = c := by simpa [dumpsExp] using hc
    decide

theorem dumpsFrac_append_head (f : List (Fin 10)) (e : Option (Bool × List (Fin 10)))
    {r : List Char} (hr : NumberEnd r) :
    ∀ c ∈ (dumpsFrac f ++ (dumpsExp e ++ r)).head?, digitValue c = none := by
  intro c hc
  rw [dumpsFrac] at hc
  split at hc
  · exact (dumpsExp_append_head e hr c hc).1
  · obtain rfl : '.' = c := by simpa using hc
    decide

theorem scanNat_dumpsNat (n : ℕ) {r : List Char}
    (hr : ∀ c ∈ r.head?, digitValue c = none) : scanNat (dumpsNat n ++ r) = some (n, r) := by
  have hds := scanDigits_append hr (natDigits n)
  rcases Nat.eq_zero_or_pos n with rfl | hn
  · have h0 : dumpsNat 0 = ['0'] := by rw [dumpsNat, natDigits_of_lt (by decide)]; rfl
    rw [h0]
    rfl
  · have hne := natDigits_ne_nil n
    rw [dumpsNat, scanNat.eq_def]
    split
    · rename_i s heq
      obtain ⟨d, ds, hcons⟩ := List.exists_cons_of_ne_nil hne
      rw [hcons] at heq
      obtain ⟨h1, -⟩ := List.cons.inj heq
      exact absurd h1 (digitChar_ne_zero d (head_natDigits hn d (by simp [hcons])))
    · rw [hds]
      simp only [hne, if_false, ofDigits_natDigits]

theorem scanUnsigned_int (neg : Bool) (n : ℕ) {r : List Char} (hr : NumberEnd r) :
    scanUnsigned neg (dumpsNat n ++ r) = some (.int (if neg then -n else n), r) := by
  rw [scanUnsigned, scanNat_dumpsNat n fun c hc => (hr c hc).1]
  have hf := scanFrac_of_ne (r := r) fun c hc => (hr c hc).2.1
  have he := scanExp_of_ne (r := r) fun c hc => (hr c hc).2.2
  simp [hf, he]

theorem scanUnsigned_decimal (d : Decimal) {r : List Char} (hr : NumberEnd r) :
    scanUnsigned d.neg (dumpsNat d.whole ++ (dumpsFrac d.frac ++ (dumpsExp d.exp ++ r)))
      = some (.float d, r) := by
  rw [scanUnsigned, scanNat_dumpsNat _ (dumpsFrac_append_head _ _ hr)]
  have hf := scanFrac_dumpsFrac d.frac (dumpsExp_append_head d.exp hr)
  have he := scanExp_dumpsExp d.exp d.exp_ne_nil hr
  simp only [hf, he, d.isFloat, dif_pos]

/-! ## Strings -/

theorem hex4_hexChar : ∀ n < 0x20, hex4 '0' '0' (hexChar (n / 16)) (hexChar (n % 16)) = some n := by
  decide +kernel

theorem charOf_toNat (c : Char) : charOf c.toNat = some c := by
  have h : c.toNat.isValidChar := c.valid
  rw [charOf, dif_pos h]
  rfl

/-- A character that needs no escape is read as itself. -/
theorem scanString_cons {c : Char} (h1 : c ≠ '"') (h2 : c ≠ '\\') (h3 : ¬ c.toNat < 0x20)
    (s : List Char) :
    scanString none (c :: s) = (scanString none s).map fun r => (c :: r.1, r.2) := by
  rw [scanString.eq_def]
  simp only [if_neg h1, if_neg h2, Option.isSome_none, Bool.false_eq_true, or_false, if_neg h3]

theorem scanString_quote (s : List Char) : scanString none ('"' :: s) = some ([], s) := by
  rw [scanString.eq_def]
  rfl

theorem scanString_unescape {e c : Char} (he : e ≠ 'u') (h : unescape e = some c)
    (s : List Char) :
    scanString none ('\\' :: e :: s) = (scanString none s).map fun r => (c :: r.1, r.2) := by
  rw [scanString.eq_def]
  simp [he, h]

theorem isHigh_of_lt {n : ℕ} (h : n < 0x20) : isHigh n = false := by
  have hn : ¬ 0xD800 ≤ n := fun hn => absurd (hn.trans_lt h) (by decide)
  simp only [isHigh, decide_eq_false hn, Bool.false_and]

theorem scanString_control {c : Char} (h : c.toNat < 0x20) (s : List Char) :
    scanString none (['\\', 'u', '0', '0', hexChar (c.toNat / 16), hexChar (c.toNat % 16)] ++ s)
      = (scanString none s).map fun r => (c :: r.1, r.2) := by
  simp [scanString, hex4_hexChar _ h, charOf_toNat, isHigh_of_lt h]

/-- **An escaped character is read as the character.** -/
theorem scanString_escape (c : Char) (s : List Char) :
    scanString none (escape c ++ s) = (scanString none s).map fun r => (c :: r.1, r.2) := by
  rw [escape]
  split_ifs with h1 h2 h3 h4 h5 h6 h7 h8
  · subst h1; exact scanString_unescape (by decide) rfl s
  · subst h2; exact scanString_unescape (by decide) rfl s
  · subst h3; exact scanString_unescape (by decide) rfl s
  · subst h4; exact scanString_unescape (by decide) rfl s
  · subst h5; exact scanString_unescape (by decide) rfl s
  · subst h6; exact scanString_unescape (by decide) rfl s
  · subst h7; exact scanString_unescape (by decide) rfl s
  · exact scanString_control h8 s
  · exact scanString_cons h1 h2 h8 s

/-- What `esc` writes is read as the character it is written for. -/
def ReadsBack (esc : Char → List Char) : Prop :=
  ∀ (c : Char) (s : List Char),
    scanString none (esc c ++ s) = (scanString none s).map fun r => (c :: r.1, r.2)

section Escape

variable {esc : Char → List Char} (hesc : ReadsBack esc)

include hesc in
theorem scanString_flatMap (r : List Char) :
    ∀ cs : List Char, scanString none (cs.flatMap esc ++ '"' :: r) = some (cs, r)
  | [] => scanString_quote r
  | c :: cs => by
      rw [List.flatMap_cons, List.append_assoc, hesc, scanString_flatMap r cs]
      rfl

theorem dumpsStringBy_append (s : String) (r : List Char) :
    dumpsStringBy esc s ++ r = '"' :: (s.toList.flatMap esc ++ '"' :: r) := by
  simp [dumpsStringBy]

end Escape

theorem scanString_flatMap_escape (r cs : List Char) :
    scanString none (cs.flatMap escape ++ '"' :: r) = some (cs, r) :=
  scanString_flatMap scanString_escape r cs

theorem dumpsString_append (s : String) (r : List Char) :
    dumpsString s ++ r = '"' :: (s.toList.flatMap escape ++ '"' :: r) :=
  dumpsStringBy_append s r

/-! ## The escapes of ASCII text -/

theorem hexValue_hexChar : ∀ d < 16, hexValue (hexChar d) = some d := by decide

/-- The digits of a code unit spell it. -/
theorem hex4_hexEscape {n : ℕ} (h : n < 0x10000) :
    hex4 (hexChar (n / 4096)) (hexChar (n / 256 % 16)) (hexChar (n / 16 % 16)) (hexChar (n % 16)) =
      some n := by
  have hdigits : ((n / 4096 * 16 + n / 256 % 16) * 16 + n / 16 % 16) * 16 + n % 16 = n := by omega
  simp only [hex4, hexValue_hexChar _ (show n / 4096 < 16 by omega),
    hexValue_hexChar _ (show n / 256 % 16 < 16 by omega),
    hexValue_hexChar _ (show n / 16 % 16 < 16 by omega),
    hexValue_hexChar _ (show n % 16 < 16 by omega), bind, Option.bind, pure, hdigits]

/-- A code unit that is no surrogate is its character. -/
theorem scanString_hexEscape {c : Char} (h : c.toNat < 0x10000) (s : List Char) :
    scanString none (hexEscape c.toNat ++ s) = (scanString none s).map fun r => (c :: r.1, r.2) := by
  have hhigh : isHigh c.toNat = false := by
    have hvalid : c.toNat < 0xD800 ∨ 0xDFFF < c.toNat ∧ c.toNat < 0x110000 := c.valid
    simp only [isHigh, Bool.and_eq_false_iff, decide_eq_false_iff_not]
    omega
  simp only [hexEscape, List.cons_append, List.nil_append]
  rw [scanString.eq_def]
  simp [hex4_hexEscape h, hhigh, charOf_toNat]

section Surrogates

variable {c : Char} (h : 0x10000 ≤ c.toNat) {hi lo : ℕ}
  (hhi : 0xD800 + (c.toNat - 0x10000) / 0x400 = hi)
  (hlo : 0xDC00 + (c.toNat - 0x10000) % 0x400 = lo)

include hhi in
theorem isHigh_surrogate : hi < 0x10000 ∧ isHigh hi = true := by
  have hvalid : c.toNat < 0xD800 ∨ 0xDFFF < c.toNat ∧ c.toNat < 0x110000 := c.valid
  simp only [isHigh, Bool.and_eq_true, decide_eq_true_eq]
  omega

include hlo in
theorem isLow_surrogate : lo < 0x10000 ∧ isLow lo = true := by
  simp only [isLow, Bool.and_eq_true, decide_eq_true_eq]
  omega

include h hhi hlo in
/-- A surrogate pair is the character it stands for. -/
theorem combine_surrogates : combine hi lo = some c := by
  have hunits : 0x10000 + (hi - 0xD800) * 0x400 + (lo - 0xDC00) = c.toNat := by omega
  unfold combine
  rw [hunits]
  exact charOf_toNat c

end Surrogates

theorem scanString_surrogates {hi lo : ℕ} {c : Char} (hhi : hi < 0x10000 ∧ isHigh hi = true)
    (hlo : lo < 0x10000 ∧ isLow lo = true) (hcombine : combine hi lo = some c) (s : List Char) :
    scanString none (hexEscape hi ++ hexEscape lo ++ s) =
      (scanString none s).map fun r => (c :: r.1, r.2) := by
  simp only [hexEscape, List.cons_append, List.nil_append]
  rw [scanString.eq_def]
  simp only [hex4_hexEscape hhi.1, hhi.2]
  rw [scanString.eq_def]
  simp [hex4_hexEscape hlo.1, hlo.2, hcombine]

/-- **ASCII text is read back.** -/
theorem readsBack_escapeAscii : ReadsBack escapeAscii := fun c s => by
  unfold escapeAscii
  split_ifs with hascii hunit
  · exact scanString_escape c s
  · exact scanString_hexEscape hunit s
  · exact scanString_surrogates (isHigh_surrogate rfl) (isLow_surrogate rfl)
      (combine_surrogates (not_lt.mp hunit) rfl rfl) s

mutual

/-- `dumps` is the printer with its own escape. -/
theorem dumpsBy_escape : ∀ v : Json, dumpsBy escape v = dumps v
  | .null | .bool true | .bool false | .int _ | .float _ | .nan | .infinity _ | .str _ | .arr []
  | .obj [] => rfl
  | .arr (x :: xs) => by rw [dumpsBy, dumps, dumpsBy_escape x, dumpsElementsBy_escape xs]
  | .obj ((k, v) :: ms) => by
      rw [dumpsBy, dumps, dumpsBy_escape v, dumpsMembersBy_escape ms]
      rfl

theorem dumpsElementsBy_escape : ∀ xs : List Json, dumpsElementsBy escape xs = dumpsElements xs
  | [] => rfl
  | x :: xs => by
      rw [dumpsElementsBy, dumpsElements, dumpsBy_escape x, dumpsElementsBy_escape xs]

theorem dumpsMembersBy_escape : ∀ ms : List (String × Json),
    dumpsMembersBy escape ms = dumpsMembers ms
  | [] => rfl
  | (k, v) :: ms => by
      rw [dumpsMembersBy, dumpsMembers, dumpsBy_escape v, dumpsMembersBy_escape ms]
      rfl

end

/-! ## Objects -/

theorem foldl_insertPair : ∀ ms acc : List (String × Json),
    ((acc ++ ms).map Prod.fst).Nodup →
      ms.foldl (fun d p => insertPair d p.1 p.2) acc = acc ++ ms
  | [], acc, _ => by simp
  | (k, v) :: ms, acc, h => by
      have hk : k ∉ acc.map Prod.fst := by
        rw [List.map_append, List.nodup_append] at h
        exact fun hmem => h.2.2 k hmem k (by simp) rfl
      have hins : insertPair acc k v = acc ++ [(k, v)] := if_neg hk
      rw [List.foldl_cons, hins, foldl_insertPair ms (acc ++ [(k, v)]) (by simpa using h)]
      simp

/-- Pairs with distinct keys are a `dict` already. -/
theorem dictOf_eq_self {ms : List (String × Json)} (h : (ms.map Prod.fst).Nodup) :
    dictOf ms = ms := foldl_insertPair ms [] (by simpa using h)

/-! ## The first character of a printed value -/

theorem digitChar_scalar : ∀ d : Fin 10, digitChar d ≠ '"' ∧ digitChar d ≠ '[' ∧ digitChar d ≠ '{' ∧
    digitChar d ≠ ']' ∧ digitChar d ≠ '}' ∧ isSpace (digitChar d) = false ∧
    (digitChar d).toNat < 0x80 := by decide

theorem exists_dumpsNat (n : ℕ) : ∃ d s, dumpsNat n = digitChar d :: s := by
  obtain ⟨d, ds, h⟩ := List.exists_cons_of_ne_nil (natDigits_ne_nil n)
  exact ⟨d, ds.map digitChar, by rw [dumpsNat, h, List.map_cons]⟩

/-- What a value may begin with: no white space, no closing bracket, nothing outside ASCII. -/
def ValueHead (c : Char) : Prop := isSpace c = false ∧ c ≠ ']' ∧ c ≠ '}' ∧ c.toNat < 0x80

instance (c : Char) : Decidable (ValueHead c) := inferInstanceAs (Decidable (_ ∧ _ ∧ _ ∧ _))

theorem valueHead_digitChar (d : Fin 10) : ValueHead (digitChar d) := by
  obtain ⟨-, -, -, h4, h5, h6, h7⟩ := digitChar_scalar d
  exact ⟨h6, h4, h5, h7⟩

theorem exists_dumpsSign_append {neg : Bool} {s : List Char}
    (h : ∃ c t, s = c :: t ∧ ValueHead c) : ∃ c t, dumpsSign neg ++ s = c :: t ∧ ValueHead c := by
  cases neg with
  | false => exact h
  | true => exact ⟨'-', s, rfl, by decide⟩

theorem exists_dumpsBy (esc : Char → List Char) (v : Json) :
    ∃ c s, dumpsBy esc v = c :: s ∧ ValueHead c := by
  match v with
  | .null => exact ⟨_, _, rfl, by decide⟩
  | .bool true => exact ⟨_, _, rfl, by decide⟩
  | .bool false => exact ⟨_, _, rfl, by decide⟩
  | .int i =>
    obtain ⟨d, s, h⟩ := exists_dumpsNat i.natAbs
    rw [dumpsBy, dumpsInt]
    exact exists_dumpsSign_append ⟨_, s, h, valueHead_digitChar d⟩
  | .float d =>
    obtain ⟨x, s, h⟩ := exists_dumpsNat d.whole
    simp only [dumpsBy, dumpsDecimal, List.append_assoc]
    exact exists_dumpsSign_append ⟨_, _, by rw [h, List.cons_append], valueHead_digitChar x⟩
  | .nan => exact ⟨_, _, rfl, by decide⟩
  | .infinity neg => exact exists_dumpsSign_append ⟨_, _, rfl, by decide⟩
  | .str s => exact ⟨_, _, rfl, by decide⟩
  | .arr [] => exact ⟨_, _, rfl, by decide⟩
  | .arr (x :: xs) => exact ⟨_, _, by rw [dumpsBy], by decide⟩
  | .obj [] => exact ⟨_, _, rfl, by decide⟩
  | .obj ((k, x) :: ms) => exact ⟨_, _, by rw [dumpsBy], by decide⟩

theorem exists_dumps (v : Json) : ∃ c s, dumps v = c :: s ∧ ValueHead c :=
  dumpsBy_escape v ▸ exists_dumpsBy escape v

theorem skipSpace_cons {c : Char} (h : isSpace c = false) (s : List Char) :
    skipSpace (c :: s) = c :: s := by simp [skipSpace, h]

theorem skipSpace_dumpsBy (esc : Char → List Char) (v : Json) (r : List Char) :
    skipSpace (dumpsBy esc v ++ r) = dumpsBy esc v ++ r := by
  obtain ⟨c, s, h, hc⟩ := exists_dumpsBy esc v
  rw [h, List.cons_append, skipSpace_cons hc.1]

theorem skipSpace_dumpsStringBy (esc : Char → List Char) (k : String) (r : List Char) :
    skipSpace (dumpsStringBy esc k ++ r) = dumpsStringBy esc k ++ r := skipSpace_cons (by decide) _

/-! ## The size of a value -/

mutual

/-- A bound on the fuel that reading the printed value takes. -/
def size : Json → ℕ
  | .arr xs => 1 + sizeList xs
  | .obj ms => 1 + sizeMembers ms
  | _ => 1

/-- The size of the elements of an array. -/
def sizeList : List Json → ℕ
  | [] => 0
  | x :: xs => 1 + size x + sizeList xs

/-- The size of the members of an object. -/
def sizeMembers : List (String × Json) → ℕ
  | [] => 0
  | m :: ms => 1 + size m.2 + sizeMembers ms

end

section Size

variable (esc : Char → List Char)

mutual

theorem size_le_length : ∀ v : Json, size v ≤ (dumpsBy esc v).length
  | .arr [] => by simp [size, sizeList, dumpsBy]
  | .arr (x :: xs) => by
      have hx := size_le_length x
      have hxs := sizeList_le_length xs
      simp only [size, sizeList, dumpsBy, List.length_cons, List.length_append]
      omega
  | .obj [] => by simp [size, sizeMembers, dumpsBy]
  | .obj ((k, v) :: ms) => by
      have hv := size_le_length v
      have hms := sizeMembers_le_length ms
      simp only [size, sizeMembers, dumpsBy, List.length_cons, List.length_append]
      omega
  | .null => by simp [size, dumpsBy]
  | .bool true => by simp [size, dumpsBy]
  | .bool false => by simp [size, dumpsBy]
  | .int i => by
      obtain ⟨c, s, h, -⟩ := exists_dumpsBy esc (.int i)
      simp [size, h]
  | .float d => by
      obtain ⟨c, s, h, -⟩ := exists_dumpsBy esc (.float d)
      simp [size, h]
  | .nan => by simp [size, dumpsBy]
  | .infinity neg => by
      obtain ⟨c, s, h, -⟩ := exists_dumpsBy esc (.infinity neg)
      simp [size, h]
  | .str s => by simp [size, dumpsBy, dumpsStringBy]

theorem sizeList_le_length : ∀ xs : List Json, sizeList xs + 1 ≤ (dumpsElementsBy esc xs).length
  | [] => by simp [sizeList, dumpsElementsBy]
  | x :: xs => by
      have hx := size_le_length x
      have hxs := sizeList_le_length xs
      simp only [sizeList, dumpsElementsBy, List.length_cons, List.length_append]
      omega

theorem sizeMembers_le_length : ∀ ms : List (String × Json),
    sizeMembers ms + 1 ≤ (dumpsMembersBy esc ms).length
  | [] => by simp [sizeMembers, dumpsMembersBy]
  | (k, v) :: ms => by
      have hv := size_le_length v
      have hms := sizeMembers_le_length ms
      simp only [sizeMembers, dumpsMembersBy, List.length_cons, List.length_append]
      omega

end

end Size

/-! ## Values -/

theorem scanScalar_of_digit {s : List Char} (h : ∃ d t, s = digitChar d :: t) :
    scanScalar s = scanUnsigned false s := by
  obtain ⟨d, t, rfl⟩ := h
  fin_cases d <;> rfl

theorem scanScalar_neg_of_digit {s : List Char} (h : ∃ d t, s = digitChar d :: t) :
    scanScalar ('-' :: s) = scanUnsigned true s := by
  obtain ⟨d, t, rfl⟩ := h
  fin_cases d <;> rfl

theorem scanOnce_of_scalar {c : Char} (h : c ≠ '"' ∧ c ≠ '[' ∧ c ≠ '{') (fuel : ℕ)
    (s : List Char) : scanOnce (fuel + 1) (c :: s) = scanScalar (c :: s) := by
  rw [scanOnce, if_neg h.1, if_neg h.2.1, if_neg h.2.2]

/-- A number, whose sign and first digit lead to `scanUnsigned`. -/
theorem scanOnce_number (fuel : ℕ) (neg : Bool) {s : List Char}
    (h : ∃ d t, s = digitChar d :: t) :
    scanOnce (fuel + 1) (dumpsSign neg ++ s) = scanUnsigned neg s := by
  cases neg with
  | false =>
    obtain ⟨d, t, rfl⟩ := h
    obtain ⟨h1, h2, h3, -⟩ := digitChar_scalar d
    exact (scanOnce_of_scalar ⟨h1, h2, h3⟩ fuel t).trans (scanScalar_of_digit ⟨d, t, rfl⟩)
  | true => exact (scanOnce_of_scalar (by decide) fuel s).trans (scanScalar_neg_of_digit h)

theorem int_sign_natAbs (i : ℤ) :
    (if decide (i < 0) = true then -(i.natAbs : ℤ) else (i.natAbs : ℤ)) = i := by
  split <;> rename_i h <;> simp only [decide_eq_true_eq] at h <;> omega

section Values

variable {esc : Char → List Char}

mutual

/-- **A printed value is read back**, with fuel for its size. -/
theorem scanOnce_dumpsBy (hesc : ReadsBack esc) : ∀ (v : Json) (fuel : ℕ) (r : List Char),
    WellFormed v → size v ≤ fuel → NumberEnd r → scanOnce fuel (dumpsBy esc v ++ r) = some (v, r)
  | v, 0, r, _, hf, _ => by cases v <;> simp [size] at hf
  | .null, fuel + 1, r, _, _, _ => rfl
  | .bool true, fuel + 1, r, _, _, _ => rfl
  | .bool false, fuel + 1, r, _, _, _ => rfl
  | .nan, fuel + 1, r, _, _, _ => rfl
  | .infinity true, fuel + 1, r, _, _, _ => rfl
  | .infinity false, fuel + 1, r, _, _, _ => rfl
  | .int i, fuel + 1, r, _, _, hr => by
      obtain ⟨d, s, h⟩ := exists_dumpsNat i.natAbs
      rw [dumpsBy, dumpsInt, List.append_assoc,
        scanOnce_number fuel _ ⟨d, s ++ r, by rw [h, List.cons_append]⟩, scanUnsigned_int _ _ hr,
        int_sign_natAbs]
  | .float d, fuel + 1, r, _, _, hr => by
      obtain ⟨x, s, h⟩ := exists_dumpsNat d.whole
      rw [dumpsBy, dumpsDecimal, List.append_assoc, List.append_assoc, List.append_assoc,
        scanOnce_number fuel _ ⟨x, _, by rw [h, List.cons_append]⟩, scanUnsigned_decimal d hr]
  | .str s, fuel + 1, r, _, _, _ => by
      rw [dumpsBy, dumpsStringBy_append, scanOnce.eq_def]
      simp only [if_true, scanString_flatMap hesc, Option.map_some, String.ofList_toList]
  | .arr [], fuel + 1, r, _, _, _ => rfl
  | .arr (x :: xs), fuel + 1, r, hw, hf, _ => by
      have hxs := scanElements_dumpsBy hesc x xs fuel r hw (by simp only [size] at hf; omega)
      obtain ⟨c, s, h, hc⟩ := exists_dumpsBy esc x
      rw [dumpsBy, List.cons_append, List.append_assoc, scanOnce.eq_def]
      simp only [if_neg (show '[' ≠ '"' by decide), if_true, skipSpace_dumpsBy]
      rw [h, List.cons_append] at hxs ⊢
      split
      · rename_i heq
        exact absurd (List.cons.inj heq).1 hc.2.1
      · rw [hxs, Option.map_some]
  | .obj [], fuel + 1, r, _, _, _ => rfl
  | .obj ((k, v) :: ms), fuel + 1, r, hw, hf, _ => by
      have hms := scanMembers_dumpsBy hesc k v ms fuel r hw.2 (by simp only [size] at hf; omega)
      rw [dumpsBy, List.cons_append, List.append_assoc, scanOnce.eq_def]
      simp only [if_neg (show '{' ≠ '"' by decide), if_neg (show '{' ≠ '[' by decide), if_true,
        skipSpace_dumpsStringBy]
      rw [dumpsStringBy_append] at hms ⊢
      split
      · rename_i heq
        exact absurd (List.cons.inj heq).1 (by decide)
      · rw [hms, Option.map_some, dictOf_eq_self hw.1]

theorem scanElements_dumpsBy (hesc : ReadsBack esc) :
    ∀ (x : Json) (xs : List Json) (fuel : ℕ) (r : List Char),
    WellFormedList (x :: xs) → sizeList (x :: xs) ≤ fuel →
      scanElements fuel (dumpsBy esc x ++ (dumpsElementsBy esc xs ++ r)) = some (x :: xs, r)
  | x, xs, 0, r, _, hf => by simp [sizeList] at hf
  | x, [], fuel + 1, r, hw, hf => by
      have hx := scanOnce_dumpsBy hesc x fuel (dumpsElementsBy esc [] ++ r) hw.1
        (by simp only [sizeList] at hf; omega) (numberEnd_cons _ (by decide))
      rw [scanElements, hx]
      rfl
  | x, y :: ys, fuel + 1, r, hw, hf => by
      have hx := scanOnce_dumpsBy hesc x fuel (dumpsElementsBy esc (y :: ys) ++ r) hw.1
        (by simp only [sizeList] at hf; omega) (numberEnd_cons _ (by decide))
      have hys := scanElements_dumpsBy hesc y ys fuel r hw.2
        (by simp only [sizeList] at hf ⊢; omega)
      rw [scanElements, hx, dumpsElementsBy, List.cons_append, List.append_assoc]
      simp only [skipSpace_cons (show isSpace ',' = false by decide), skipSpace_dumpsBy, hys,
        Option.map_some]

theorem scanMembers_dumpsBy (hesc : ReadsBack esc) :
    ∀ (k : String) (v : Json) (ms : List (String × Json)) (fuel : ℕ) (r : List Char),
      WellFormedMembers ((k, v) :: ms) → sizeMembers ((k, v) :: ms) ≤ fuel →
      scanMembers fuel (dumpsStringBy esc k ++ (':' :: (dumpsBy esc v ++ dumpsMembersBy esc ms) ++ r))
        = some ((k, v) :: ms, r)
  | k, v, ms, 0, r, _, hf => by simp [sizeMembers] at hf
  | k, v, [], fuel + 1, r, hw, hf => by
      have hv := scanOnce_dumpsBy hesc v fuel (dumpsMembersBy esc [] ++ r) hw.1
        (by simp only [sizeMembers] at hf; omega) (numberEnd_cons _ (by decide))
      rw [dumpsStringBy_append, scanMembers.eq_def]
      simp only [ne_eq, not_true_eq_false, if_false, scanString_flatMap hesc, List.cons_append,
        skipSpace_cons (show isSpace ':' = false by decide),
        List.append_assoc, skipSpace_dumpsBy, hv, String.ofList_toList]
      rfl
  | k, v, (k', v') :: ms, fuel + 1, r, hw, hf => by
      have hv := scanOnce_dumpsBy hesc v fuel (dumpsMembersBy esc ((k', v') :: ms) ++ r) hw.1
        (by simp only [sizeMembers] at hf; omega) (numberEnd_cons _ (by decide))
      have hms := scanMembers_dumpsBy hesc k' v' ms fuel r hw.2
        (by simp only [sizeMembers] at hf ⊢; omega)
      rw [dumpsStringBy_append, scanMembers.eq_def]
      simp only [ne_eq, not_true_eq_false, if_false, scanString_flatMap hesc, List.cons_append,
        skipSpace_cons (show isSpace ':' = false by decide),
        List.append_assoc, skipSpace_dumpsBy, hv, String.ofList_toList]
      simp only [dumpsMembersBy, List.cons_append, List.append_assoc,
        skipSpace_cons (show isSpace ',' = false by decide), skipSpace_dumpsStringBy]
      simp only [List.cons_append, List.append_assoc] at hms
      rw [hms, Option.map_some]

end

/-- **`loads` inverts the printer**, with any escape that is read back. -/
theorem loads_dumpsBy (hesc : ReadsBack esc) {v : Json} (hw : WellFormed v) :
    loads (dumpsBy esc v) = some v := by
  have h := scanOnce_dumpsBy hesc v ((dumpsBy esc v).length + 1) [] hw
    ((size_le_length esc v).trans (Nat.le_succ _)) NumberEnd.nil
  have hs := skipSpace_dumpsBy esc v []
  rw [List.append_nil] at h hs
  rw [loads, hs, h]
  rfl

end Values

theorem scanOnce_dumps (v : Json) (fuel : ℕ) (r : List Char) (hw : WellFormed v)
    (hf : size v ≤ fuel) (hr : NumberEnd r) : scanOnce fuel (dumps v ++ r) = some (v, r) :=
  dumpsBy_escape v ▸ scanOnce_dumpsBy scanString_escape v fuel r hw hf hr

/-- **`loads` inverts `dumps`.** -/
theorem loads_dumps {v : Json} (hw : WellFormed v) : loads (dumps v) = some v :=
  dumpsBy_escape v ▸ loads_dumpsBy scanString_escape hw

/-! ## Fuel -/

/-- **More fuel does not change a result.** -/
theorem scan_succ : ∀ fuel : ℕ,
    (∀ s q, scanOnce fuel s = some q → scanOnce (fuel + 1) s = some q) ∧
    (∀ s q, scanElements fuel s = some q → scanElements (fuel + 1) s = some q) ∧
    (∀ s q, scanMembers fuel s = some q → scanMembers (fuel + 1) s = some q)
  | 0 => by
      refine ⟨fun s q h => ?_, fun s q h => ?_, fun s q h => ?_⟩
      · simp [scanOnce] at h
      · simp [scanElements] at h
      · simp [scanMembers] at h
  | fuel + 1 => by
      obtain ⟨ihOnce, ihElements, ihMembers⟩ := scan_succ fuel
      refine ⟨fun s q h => ?_, fun s q h => ?_, fun s q h => ?_⟩
      · cases s with
        | nil => simp [scanOnce] at h
        | cons c s =>
          rw [scanOnce.eq_def] at h ⊢
          simp only at h ⊢
          split_ifs at h ⊢
          · exact h
          · split at h
            · exact h
            · obtain ⟨r, hr, rfl⟩ := Option.map_eq_some_iff.mp h
              rw [ihElements _ _ hr, Option.map_some]
          · split at h
            · exact h
            · obtain ⟨r, hr, rfl⟩ := Option.map_eq_some_iff.mp h
              rw [ihMembers _ _ hr, Option.map_some]
          · exact h
      · rw [scanElements.eq_def] at h ⊢
        simp only at h ⊢
        cases hx : scanOnce fuel s with
        | none => simp [hx] at h
        | some x =>
          rw [hx] at h
          rw [ihOnce _ _ hx]
          simp only at h ⊢
          split at h
          · obtain ⟨r, hr, rfl⟩ := Option.map_eq_some_iff.mp h
            rw [ihElements _ _ hr, Option.map_some]
          · exact h
          · exact h
      · cases s with
        | nil => simp [scanMembers] at h
        | cons c s =>
          rw [scanMembers.eq_def] at h ⊢
          simp only at h ⊢
          split_ifs at h ⊢
          cases hk : scanString none s with
          | none => simp [hk] at h
          | some k =>
            rw [hk] at h
            simp only at h ⊢
            split at h
            · rename_i s' _
              cases hx : scanOnce fuel (skipSpace s') with
              | none => simp [hx] at h
              | some x =>
                rw [hx] at h
                rw [ihOnce _ _ hx]
                simp only at h ⊢
                split at h
                · obtain ⟨r, hr, rfl⟩ := Option.map_eq_some_iff.mp h
                  rw [ihMembers _ _ hr, Option.map_some]
                · exact h
                · exact h
            · exact h

theorem scanOnce_add {fuel : ℕ} {s : List Char} {q : Json × List Char}
    (h : scanOnce fuel s = some q) : ∀ k, scanOnce (fuel + k) s = some q
  | 0 => h
  | k + 1 => (scan_succ (fuel + k)).1 s q (scanOnce_add h k)

/-- With any fuel, a printed value is read as itself or not at all. -/
theorem scanOnce_dumps_eq {v : Json} {fuel : ℕ} {r : List Char} {q : Json × List Char}
    (hw : WellFormed v) (hr : NumberEnd r) (h : scanOnce fuel (dumps v ++ r) = some q) :
    q = (v, r) := by
  have h1 := scanOnce_add h (size v)
  have h2 := scanOnce_dumps v (fuel + size v) r hw (Nat.le_add_left _ _) hr
  exact Option.some.inj (h1.symm.trans h2)

end PyJson
