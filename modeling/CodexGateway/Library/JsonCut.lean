import CodexGateway.Library.JsonRoundTrip

/-!
# Library/JsonCut — a printed JSON value cut inside one of its strings is not read

A line-oriented transport cuts the printed text before the first character of some class of line
separators.  `escape` leaves every character outside ASCII as it is, so when the class is one of
those, the cut falls inside a string: `loads_cut` says that what is left of the text is rejected,
whether it ends there or goes on with a line feed.
-/

namespace PyJson

/-! ## The characters of a printed text

Outside ASCII a printed text holds characters of the strings it prints and nothing else, and inside
ASCII it holds no control character. -/

/-- No control character, and either ASCII or a character of which `p` holds. -/
def Printed (p : Char → Prop) (x : Char) : Prop := 0x20 ≤ x.toNat ∧ (x.toNat < 0x80 ∨ p x)

section Printed

variable {p : Char → Prop}

theorem hexChar_ascii : ∀ n < 0x10, 0x20 ≤ (hexChar n).toNat ∧ (hexChar n).toNat < 0x80 := by
  decide

theorem printed_of_ascii {l : List Char}
    (h : l.all (fun y => 0x20 ≤ y.toNat ∧ y.toNat < 0x80) = true) : ∀ x ∈ l, Printed p x := by
  intro x hx
  obtain ⟨hlow, hhigh⟩ := of_decide_eq_true (List.all_eq_true.mp h x hx)
  exact ⟨hlow, .inl hhigh⟩

theorem printed_ascii {x : Char} (h : 0x20 ≤ x.toNat ∧ x.toNat < 0x80) : Printed p x :=
  ⟨h.1, .inl h.2⟩

theorem printed_escape {c : Char} (h : p c) : ∀ x ∈ escape c, Printed p x := by
  rw [escape]
  split_ifs with h1 h2 h3 h4 h5 h6 h7 h8
  · exact printed_of_ascii (by decide)
  · exact printed_of_ascii (by decide)
  · exact printed_of_ascii (by decide)
  · exact printed_of_ascii (by decide)
  · exact printed_of_ascii (by decide)
  · exact printed_of_ascii (by decide)
  · exact printed_of_ascii (by decide)
  · intro x hx
    simp only [List.mem_cons, List.not_mem_nil, or_false] at hx
    rcases hx with rfl | rfl | rfl | rfl | rfl | rfl
    · exact printed_ascii (by decide)
    · exact printed_ascii (by decide)
    · exact printed_ascii (by decide)
    · exact printed_ascii (by decide)
    · exact printed_ascii (hexChar_ascii _ (by omega))
    · exact printed_ascii (hexChar_ascii _ (by omega))
  · intro x hx
    obtain rfl : x = c := by simpa using hx
    exact ⟨by omega, .inr h⟩

theorem printed_dumpsString {s : String} (h : ∀ c ∈ s.toList, p c) :
    ∀ x ∈ dumpsString s, Printed p x := by
  intro x hx
  simp only [dumpsString, List.mem_cons, List.mem_append, List.mem_flatMap, List.not_mem_nil,
    or_false] at hx
  rcases hx with (rfl | ⟨c, hc, hx⟩) | rfl
  · exact printed_ascii (by decide)
  · exact printed_escape (h c hc) x hx
  · exact printed_ascii (by decide)

theorem digitChar_ascii : ∀ d : Fin 10, 0x20 ≤ (digitChar d).toNat ∧ (digitChar d).toNat < 0x80 := by
  decide

theorem printed_digits (ds : List (Fin 10)) : ∀ x ∈ ds.map digitChar, Printed p x := by
  intro x hx
  obtain ⟨d, -, rfl⟩ := List.mem_map.mp hx
  exact printed_ascii (digitChar_ascii d)

theorem printed_dumpsSign (neg : Bool) : ∀ x ∈ dumpsSign neg, Printed p x := by
  cases neg with
  | false => exact printed_of_ascii (by decide)
  | true => exact printed_of_ascii (by decide)

theorem printed_dumpsDecimal (d : Decimal) : ∀ x ∈ dumpsDecimal d, Printed p x := by
  intro x hx
  simp only [dumpsDecimal, List.mem_append] at hx
  rcases hx with ((hx | hx) | hx) | hx
  · exact printed_dumpsSign _ x hx
  · exact printed_digits _ x hx
  · rw [dumpsFrac] at hx
    split at hx
    · simp at hx
    · rcases List.mem_cons.mp hx with rfl | hx
      · exact printed_ascii (by decide)
      · exact printed_digits _ x hx
  · cases he : d.exp with
    | none => simp [he, dumpsExp] at hx
    | some e =>
      obtain ⟨neg, ds⟩ := e
      rw [he, dumpsExp] at hx
      simp only [List.mem_cons] at hx
      rcases hx with rfl | rfl | hx
      · exact printed_ascii (by decide)
      · cases neg <;> exact printed_ascii (by decide)
      · exact printed_digits _ x hx

mutual

/-- **A printed value holds printable ASCII and characters of its strings.** -/
theorem printed_dumps : ∀ v : Json, AllChars p v → ∀ x ∈ dumps v, Printed p x
  | .null, _, x, hx => printed_of_ascii (by decide) x hx
  | .bool true, _, x, hx => printed_of_ascii (by decide) x hx
  | .bool false, _, x, hx => printed_of_ascii (by decide) x hx
  | .nan, _, x, hx => printed_of_ascii (by decide) x hx
  | .infinity true, _, x, hx => printed_of_ascii (by decide) x hx
  | .infinity false, _, x, hx => printed_of_ascii (by decide) x hx
  | .int i, _, x, hx => by
      rw [dumps, dumpsInt] at hx
      rcases List.mem_append.mp hx with hx | hx
      · exact printed_dumpsSign _ x hx
      · exact printed_digits _ x hx
  | .float d, _, x, hx => printed_dumpsDecimal d x hx
  | .str s, h, x, hx => printed_dumpsString h x hx
  | .arr [], _, x, hx => printed_of_ascii (by decide) x hx
  | .arr (v :: vs), h, x, hx => by
      simp only [dumps, List.mem_cons, List.mem_append] at hx
      rcases hx with rfl | hx | hx
      · exact printed_ascii (by decide)
      · exact printed_dumps v h.1 x hx
      · exact printed_dumpsElements vs h.2 x hx
  | .obj [], _, x, hx => printed_of_ascii (by decide) x hx
  | .obj ((k, v) :: ms), h, x, hx => by
      simp only [dumps, List.mem_cons, List.mem_append] at hx
      rcases hx with rfl | hx | rfl | hx | hx
      · exact printed_ascii (by decide)
      · exact printed_dumpsString h.1 x hx
      · exact printed_ascii (by decide)
      · exact printed_dumps v h.2.1 x hx
      · exact printed_dumpsMembers ms h.2.2 x hx

theorem printed_dumpsElements : ∀ vs : List Json, AllCharsList p vs →
    ∀ x ∈ dumpsElements vs, Printed p x
  | [], _, x, hx => printed_of_ascii (by decide) x hx
  | v :: vs, h, x, hx => by
      simp only [dumpsElements, List.mem_cons, List.mem_append] at hx
      rcases hx with rfl | hx | hx
      · exact printed_ascii (by decide)
      · exact printed_dumps v h.1 x hx
      · exact printed_dumpsElements vs h.2 x hx

theorem printed_dumpsMembers : ∀ ms : List (String × Json), AllCharsMembers p ms →
    ∀ x ∈ dumpsMembers ms, Printed p x
  | [], _, x, hx => printed_of_ascii (by decide) x hx
  | (k, v) :: ms, h, x, hx => by
      simp only [dumpsMembers, List.mem_cons, List.mem_append] at hx
      rcases hx with rfl | hx | rfl | hx | hx
      · exact printed_ascii (by decide)
      · exact printed_dumpsString h.1 x hx
      · exact printed_ascii (by decide)
      · exact printed_dumps v h.2.1 x hx
      · exact printed_dumpsMembers ms h.2.2 x hx

end

end Printed

/-! ## What is left of a cut text -/

/-- What follows a cut text: nothing, or the line feed a line was joined with. -/
def CutTail (t : List Char) : Prop := t = [] ∨ ∃ s, t = '\n' :: s

theorem scanString_cutTail {t : List Char} (ht : CutTail t) : ∀ cs : List Char,
    scanString none (cs.flatMap escape ++ t) = none
  | [] => by
      rcases ht with rfl | ⟨s, rfl⟩
      · rfl
      · rw [scanString.eq_def]
        rfl
  | c :: cs => by
      rw [List.flatMap_cons, List.append_assoc, scanString_escape, scanString_cutTail ht cs]
      rfl

/-- A clean value in front of a comma is passed over. -/
theorem scanOnce_clean {v : Json} {fuel : ℕ} {r : List Char} {q : Json × List Char}
    (hw : WellFormed v) (h : scanOnce fuel (dumps v ++ ',' :: r) = some q) : q = (v, ',' :: r) :=
  scanOnce_dumps_eq hw (numberEnd_cons _ (by decide)) h

section Cut

variable {brk : Char → Bool} (hbrk : ∀ c, brk c = true → 0x80 ≤ c.toNat)

/-- The text before the first character of the class. -/
def cut (brk : Char → Bool) (s : List Char) : List Char := s.takeWhile fun c => !brk c

theorem cut_append {a : List Char} (h : ∀ c ∈ a, brk c = false) (b : List Char) :
    cut brk (a ++ b) = a ++ cut brk b :=
  List.takeWhile_append_of_pos fun c hc => by simp [h c hc]

theorem cut_cons {c : Char} (h : brk c = false) (b : List Char) :
    cut brk (c :: b) = c :: cut brk b := by simp [cut, h]

/-- A text with a character of the class goes on with one after the cut. -/
theorem exists_cut {s : List Char} (h : ∃ c ∈ s, brk c = true) :
    ∃ b t, s = cut brk s ++ b :: t ∧ brk b = true ∧ ∀ c ∈ cut brk s, brk c = false := by
  induction s with
  | nil => simp at h
  | cons c s ih =>
    cases hc : brk c with
    | true => exact ⟨c, s, by simp [cut, hc], hc, by simp [cut, hc]⟩
    | false =>
      obtain ⟨d, hd, hbd⟩ := h
      have hs : ∃ d ∈ s, brk d = true := by
        rcases List.mem_cons.mp hd with rfl | hd
        · simp [hc] at hbd
        · exact ⟨d, hd, hbd⟩
      obtain ⟨b, t, hst, hb, hclean⟩ := ih hs
      refine ⟨b, t, by rw [cut_cons hc, List.cons_append, ← hst], hb, fun x hx => ?_⟩
      rw [cut_cons hc] at hx
      rcases List.mem_cons.mp hx with rfl | hx
      · exact hc
      · exact hclean x hx

include hbrk

theorem brk_eq_false {c : Char} (h : c.toNat < 0x80) : brk c = false := by
  by_contra hc
  exact absurd (hbrk c (by simpa using hc)) (by omega)

theorem escape_of_brk {c : Char} (h : brk c = true) : escape c = [c] := by
  have hc := hbrk c h
  have hne : ∀ d : Char, d.toNat < 0x80 → c ≠ d := fun d hd he => by subst he; omega
  rw [escape, if_neg (hne _ (by decide)), if_neg (hne _ (by decide)), if_neg (hne _ (by decide)),
    if_neg (hne _ (by decide)), if_neg (hne _ (by decide)), if_neg (hne _ (by decide)),
    if_neg (hne _ (by decide)), if_neg (by omega)]

theorem brk_of_printed {x : Char} (h : Printed (brk · = false) x) : brk x = false :=
  h.2.elim (brk_eq_false hbrk) id

theorem brk_escape {c : Char} (h : brk c = false) : ∀ x ∈ escape c, brk x = false :=
  fun x hx => brk_of_printed hbrk (printed_escape h x hx)

theorem brk_dumpsString {s : String} (h : ∀ c ∈ s.toList, brk c = false) :
    ∀ x ∈ dumpsString s, brk x = false :=
  fun x hx => brk_of_printed hbrk (printed_dumpsString h x hx)

/-- **A value whose strings avoid the class is printed without it.** -/
theorem brk_dumps {v : Json} (h : AllChars (brk · = false) v) : ∀ x ∈ dumps v, brk x = false :=
  fun x hx => brk_of_printed hbrk (printed_dumps v h x hx)

/-- A string with a character of the class is cut open. -/
theorem cut_dumpsString {s : String} (h : ¬ ∀ c ∈ s.toList, brk c = false) (b : List Char) :
    cut brk (dumpsString s ++ b) = '"' :: (cut brk s.toList).flatMap escape := by
  rw [dumpsString_append, cut_cons (brk_eq_false hbrk (by decide))]
  congr 1
  generalize s.toList = cs at h
  induction cs with
  | nil => simp at h
  | cons c cs ih =>
    cases hc : brk c with
    | true =>
      rw [List.flatMap_cons, escape_of_brk hbrk hc]
      simp [cut, hc]
    | false =>
      have hcs : ¬ ∀ c ∈ cs, brk c = false := fun hcs => h fun d hd => by
        rcases List.mem_cons.mp hd with rfl | hd
        · exact hc
        · exact hcs d hd
      rw [List.flatMap_cons, List.append_assoc, cut_append (brk_escape hbrk hc), ih hcs,
        cut_cons hc, List.flatMap_cons]

theorem exists_cut_dumps (v : Json) (b t : List Char) :
    ∃ c s, cut brk (dumps v ++ b) ++ t = c :: s ∧ ValueHead c := by
  obtain ⟨c, s, h, hc⟩ := exists_dumps v
  rw [h, List.cons_append, cut_cons (brk_eq_false hbrk hc.2.2.2), List.cons_append]
  exact ⟨c, _, rfl, hc⟩

theorem skipSpace_cut_dumps (v : Json) (b t : List Char) :
    skipSpace (cut brk (dumps v ++ b) ++ t) = cut brk (dumps v ++ b) ++ t := by
  obtain ⟨c, s, h, hc⟩ := exists_cut_dumps hbrk v b t
  rw [h, skipSpace_cons hc.1]

theorem skipSpace_cut_dumpsString (k : String) (b t : List Char) :
    skipSpace (cut brk (dumpsString k ++ b) ++ t) = cut brk (dumpsString k ++ b) ++ t := by
  rw [dumpsString_append, cut_cons (brk_eq_false hbrk (by decide)), List.cons_append,
    skipSpace_cons (by decide)]

mutual

/-- **A value with a character of the class in one of its strings is not read from its cut
text**: the cut leaves that string open. -/
theorem scanOnce_cut {t : List Char} (ht : CutTail t) : ∀ (v : Json) (fuel : ℕ) (b : List Char),
    WellFormed v → ¬ AllChars (brk · = false) v → scanOnce fuel (cut brk (dumps v ++ b) ++ t) = none
  | _, 0, _, _, _ => rfl
  | .null, fuel + 1, _, _, h => absurd trivial h
  | .bool _, fuel + 1, _, _, h => absurd trivial h
  | .int _, fuel + 1, _, _, h => absurd trivial h
  | .float _, fuel + 1, _, _, h => absurd trivial h
  | .nan, fuel + 1, _, _, h => absurd trivial h
  | .infinity _, fuel + 1, _, _, h => absurd trivial h
  | .str s, fuel + 1, b, _, h => by
      rw [dumps, cut_dumpsString hbrk h, List.cons_append, scanOnce.eq_def]
      simp only [if_true, scanString_cutTail ht, Option.map_none]
  | .arr [], fuel + 1, _, _, h => absurd trivial h
  | .arr (x :: xs), fuel + 1, b, hw, h => by
      have hxs := scanElements_cut ht x xs fuel b hw h
      obtain ⟨c, s, hs, hc⟩ := exists_cut_dumps hbrk x (dumpsElements xs ++ b) t
      rw [dumps, List.cons_append, List.append_assoc, cut_cons (brk_eq_false hbrk (by decide)),
        List.cons_append, scanOnce.eq_def]
      simp only [if_neg (show '[' ≠ '"' by decide), if_true, skipSpace_cut_dumps hbrk]
      rw [hs] at hxs ⊢
      split
      · rename_i heq
        exact absurd (List.cons.inj heq).1 hc.2.1
      · rw [hxs, Option.map_none]
  | .obj [], fuel + 1, _, hw, h => absurd trivial h
  | .obj ((k, v) :: ms), fuel + 1, b, hw, h => by
      have hms := scanMembers_cut ht k v ms fuel b hw.2 h
      rw [dumps, List.cons_append, List.append_assoc, cut_cons (brk_eq_false hbrk (by decide)),
        List.cons_append, scanOnce.eq_def]
      simp only [if_neg (show '{' ≠ '"' by decide), if_neg (show '{' ≠ '[' by decide), if_true,
        skipSpace_cut_dumpsString hbrk]
      rw [dumpsString_append, cut_cons (brk_eq_false hbrk (by decide)), List.cons_append] at hms ⊢
      split
      · rename_i heq
        exact absurd (List.cons.inj heq).1 (by decide)
      · rw [hms, Option.map_none]

theorem scanElements_cut {t : List Char} (ht : CutTail t) : ∀ (x : Json) (xs : List Json)
    (fuel : ℕ) (b : List Char), WellFormedList (x :: xs) →
      ¬ AllCharsList (brk · = false) (x :: xs) →
        scanElements fuel (cut brk (dumps x ++ (dumpsElements xs ++ b)) ++ t) = none
  | _, _, 0, _, _, _ => rfl
  | x, [], fuel + 1, b, hw, h => by
      have hx := scanOnce_cut ht x fuel (dumpsElements [] ++ b) hw.1 fun hx => h ⟨hx, trivial⟩
      rw [scanElements.eq_def]
      simp only [hx]
  | x, y :: ys, fuel + 1, b, hw, h => by
      rw [scanElements.eq_def]
      by_cases hx : AllChars (brk · = false) x
      · have hys := scanElements_cut ht y ys fuel b hw.2 fun hys => h ⟨hx, hys⟩
        rw [dumpsElements, cut_append (brk_dumps hbrk hx), List.cons_append,
          cut_cons (brk_eq_false hbrk (by decide)), List.append_assoc, List.append_assoc,
          List.cons_append]
        simp only
        cases hq : scanOnce fuel (dumps x ++ ',' :: (cut brk (dumps y ++ (dumpsElements ys ++ b))
          ++ t)) with
        | none => rfl
        | some q =>
          obtain rfl := scanOnce_clean hw.1 hq
          simp only [skipSpace_cons (show isSpace ',' = false by decide),
            skipSpace_cut_dumps hbrk, hys, Option.map_none]
      · simp only [scanOnce_cut ht x fuel _ hw.1 hx]

theorem scanMembers_cut {t : List Char} (ht : CutTail t) : ∀ (k : String) (v : Json)
    (ms : List (String × Json)) (fuel : ℕ) (b : List Char), WellFormedMembers ((k, v) :: ms) →
      ¬ AllCharsMembers (brk · = false) ((k, v) :: ms) →
        scanMembers fuel
          (cut brk (dumpsString k ++ (':' :: (dumps v ++ dumpsMembers ms) ++ b)) ++ t) = none
  | _, _, _, 0, _, _, _ => rfl
  | k, v, ms, fuel + 1, b, hw, h => by
      by_cases hk : ∀ c ∈ k.toList, brk c = false
      · rw [cut_append (brk_dumpsString hbrk hk), List.cons_append,
          cut_cons (brk_eq_false hbrk (by decide)), List.append_assoc, List.append_assoc,
          dumpsString_append, scanMembers.eq_def]
        simp only [ne_eq, not_true_eq_false, if_false, scanString_flatMap_escape,
          List.cons_append, skipSpace_cons (show isSpace ':' = false by decide),
          skipSpace_cut_dumps hbrk]
        by_cases hv : AllChars (brk · = false) v
        · match ms with
          | [] => exact absurd ⟨hk, hv, trivial⟩ h
          | (k', v') :: ms =>
            have hms := scanMembers_cut ht k' v' ms fuel b hw.2 fun hms => h ⟨hk, hv, hms⟩
            rw [dumpsMembers, cut_append (brk_dumps hbrk hv), List.cons_append,
              cut_cons (brk_eq_false hbrk (by decide)), List.append_assoc, List.append_assoc,
              List.cons_append]
            cases hq : scanOnce fuel (dumps v ++ ',' :: (cut brk (dumpsString k' ++
              (':' :: (dumps v' ++ dumpsMembers ms) ++ b)) ++ t)) with
            | none => rfl
            | some q =>
              obtain rfl := scanOnce_clean hw.1 hq
              simp only [skipSpace_cons (show isSpace ',' = false by decide),
                skipSpace_cut_dumpsString hbrk, hms, Option.map_none]
        · simp only [scanOnce_cut ht v fuel _ hw.1 hv]
      · rw [cut_dumpsString hbrk hk, List.cons_append, scanMembers.eq_def]
        simp only [ne_eq, not_true_eq_false, if_false, scanString_cutTail ht]

end

/-- **`loads` rejects the cut text of such a value.** -/
theorem loads_cut {v : Json} (hw : WellFormed v) (h : ¬ AllChars (brk · = false) v)
    {t : List Char} (ht : CutTail t) : loads (cut brk (dumps v) ++ t) = none := by
  have hcut := fun fuel => scanOnce_cut hbrk ht v fuel [] hw h
  have hs := skipSpace_cut_dumps hbrk v [] t
  simp only [List.append_nil] at hcut hs
  rw [loads, hs, hcut]

end Cut

end PyJson
