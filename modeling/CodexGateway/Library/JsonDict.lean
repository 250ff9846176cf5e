import CodexGateway.Library.JsonRoundTrip

/-!
# Library/JsonDict — JSON objects as Python dictionaries

`Dict` is an object whose keys are distinct at every level, so that a value no program can hold is
not built.  `loads` reads no other (`wellFormed_loads`): a repeated key of the text has been merged
by `dictOf` before a caller sees it.
-/

namespace PyJson

/-! ## What is read is well formed -/

theorem wellFormedMembers_iff : ∀ ms : List (String × Json),
    WellFormedMembers ms ↔ ∀ m ∈ ms, WellFormed m.2
  | [] => by simp [WellFormedMembers]
  | m :: ms => by simp [WellFormedMembers, wellFormedMembers_iff ms]

theorem mem_insertPair {ms : List (String × Json)} {k : String} {v : Json} {m : String × Json}
    (h : m ∈ insertPair ms k v) : m ∈ ms ∨ m = (k, v) := by
  rw [insertPair] at h
  split at h
  · obtain ⟨p, hp, rfl⟩ := List.mem_map.mp h
    split
    · exact .inr rfl
    · exact .inl hp
  · simpa using h

theorem nodup_insertPair {ms : List (String × Json)} (h : (ms.map Prod.fst).Nodup) (k : String)
    (v : Json) : ((insertPair ms k v).map Prod.fst).Nodup := by
  rw [insertPair]
  split
  · have hkeys : (ms.map fun p => if p.1 = k then (k, v) else p).map Prod.fst =
        ms.map Prod.fst := by
      rw [List.map_map]
      refine List.map_congr_left fun p _ => ?_
      by_cases hp : p.1 = k
      · simp [hp]
      · simp [hp]
    rwa [hkeys]
  · rename_i hk
    rw [List.map_append, List.map_singleton, List.nodup_append]
    exact ⟨h, List.nodup_singleton k, fun a ha b hb => by
      obtain rfl : b = k := by simpa using hb
      rintro rfl
      exact hk ha⟩

theorem foldl_insertPair_wellFormed : ∀ (ms acc : List (String × Json)),
    WellFormed (.obj acc) → WellFormedMembers ms →
      WellFormed (.obj (ms.foldl (fun d p => insertPair d p.1 p.2) acc))
  | [], _, hacc, _ => hacc
  | (k, v) :: ms, acc, hacc, hms => by
      refine foldl_insertPair_wellFormed ms _ ⟨nodup_insertPair hacc.1 k v, ?_⟩ hms.2
      refine (wellFormedMembers_iff _).mpr fun m hm => ?_
      rcases mem_insertPair hm with hm | rfl
      · exact (wellFormedMembers_iff _).mp hacc.2 m hm
      · exact hms.1

/-- **`dict` of well-formed members is well formed.** -/
theorem wellFormed_dictOf {ms : List (String × Json)} (h : WellFormedMembers ms) :
    WellFormed (.obj (dictOf ms)) :=
  foldl_insertPair_wellFormed ms [] ⟨List.nodup_nil, trivial⟩ h

theorem wellFormed_scanUnsigned {neg : Bool} {s : List Char} {q : Json × List Char}
    (h : scanUnsigned neg s = some q) : WellFormed q.1 := by
  simp only [scanUnsigned] at h
  split at h
  · simp at h
  · split at h
    · obtain rfl := Option.some.inj h
      trivial
    · obtain rfl := Option.some.inj h
      trivial

theorem wellFormed_scanScalar {s : List Char} {q : Json × List Char}
    (h : scanScalar s = some q) : WellFormed q.1 := by
  rw [scanScalar.eq_def] at h
  split at h
  case h_7 => exact wellFormed_scanUnsigned h
  case h_8 => exact wellFormed_scanUnsigned h
  all_goals
    obtain rfl := Option.some.inj h
    trivial

mutual

theorem wellFormed_scanOnce : ∀ (fuel : ℕ) (s : List Char) (q : Json × List Char),
    scanOnce fuel s = some q → WellFormed q.1
  | 0, _, _, h => by simp [scanOnce] at h
  | fuel + 1, [], _, h => by simp [scanOnce] at h
  | fuel + 1, c :: s, q, h => by
      rw [scanOnce.eq_def] at h
      simp only at h
      split_ifs at h
      · obtain ⟨r, -, rfl⟩ := Option.map_eq_some_iff.mp h
        trivial
      · split at h
        · obtain rfl := Option.some.inj h
          trivial
        · obtain ⟨r, hr, rfl⟩ := Option.map_eq_some_iff.mp h
          exact wellFormed_scanElements fuel _ r hr
      · split at h
        · obtain rfl := Option.some.inj h
          exact ⟨List.nodup_nil, trivial⟩
        · obtain ⟨r, hr, rfl⟩ := Option.map_eq_some_iff.mp h
          exact wellFormed_dictOf (wellFormed_scanMembers fuel _ r hr)
      · exact wellFormed_scanScalar h

theorem wellFormed_scanElements : ∀ (fuel : ℕ) (s : List Char) (q : List Json × List Char),
    scanElements fuel s = some q → WellFormedList q.1
  | 0, _, _, h => by simp [scanElements] at h
  | fuel + 1, s, q, h => by
      rw [scanElements.eq_def] at h
      simp only at h
      split at h
      · simp at h
      · rename_i x s' hx
        have hxw := wellFormed_scanOnce fuel s _ hx
        split at h
        · obtain ⟨r, hr, rfl⟩ := Option.map_eq_some_iff.mp h
          exact ⟨hxw, wellFormed_scanElements fuel _ r hr⟩
        · obtain rfl := Option.some.inj h
          exact ⟨hxw, trivial⟩
        · simp at h

theorem wellFormed_scanMembers : ∀ (fuel : ℕ) (s : List Char)
    (q : List (String × Json) × List Char), scanMembers fuel s = some q → WellFormedMembers q.1
  | 0, _, _, h => by simp [scanMembers] at h
  | fuel + 1, [], _, h => by simp [scanMembers] at h
  | fuel + 1, c :: s, q, h => by
      rw [scanMembers.eq_def] at h
      simp only at h
      split at h
      · simp at h
      split at h
      · simp at h
      split at h
      · split at h
        · simp at h
        rename_i v s' hv
        have hvw := wellFormed_scanOnce fuel _ _ hv
        split at h
        · obtain ⟨r, hr, rfl⟩ := Option.map_eq_some_iff.mp h
          exact ⟨hvw, wellFormed_scanMembers fuel _ r hr⟩
        · obtain rfl := Option.some.inj h
          exact ⟨hvw, trivial⟩
        · simp at h
      · simp at h

end

/-- **What `loads` accepts is well formed.** -/
theorem wellFormed_loads {s : List Char} {v : Json} (h : loads s = some v) : WellFormed v := by
  simp only [loads] at h
  split at h
  · simp at h
  · rename_i w t hw
    split at h
    · obtain rfl := Option.some.inj h
      exact wellFormed_scanOnce _ _ _ hw
    · simp at h

/-! ## Dictionaries -/

/-- A Python dictionary of JSON values. -/
structure Dict where
  members : List (String × Json)
  wellFormed : WellFormed (.obj members)

theorem Dict.ext {d e : Dict} (h : d.members = e.members) : d = e := by
  cases d
  cases e
  cases h
  rfl

/-- The JSON object a dictionary is. -/
def Dict.toJson (d : Dict) : Json := .obj d.members

/-- `d.get(k)`. -/
def Dict.get? (d : Dict) (k : String) : Option Json := d.members.lookup k

theorem Dict.wellFormed_get? {d : Dict} {k : String} {v : Json} (h : d.get? k = some v) :
    WellFormed v := by
  obtain ⟨l₁, l₂, hl, -⟩ := List.lookup_eq_some_iff.mp h
  exact (wellFormedMembers_iff _).mp d.wellFormed.2 (k, v) (by simp [hl])

/-- `d.get(k)`, when a dictionary stands there. -/
def Dict.getDict? (d : Dict) (k : String) : Option Dict :=
  match h : d.get? k with
  | some (.obj ms) => some ⟨ms, Dict.wellFormed_get? h⟩
  | _ => none

theorem Dict.getDict?_eq_some {d e : Dict} {k : String} (h : d.get? k = some e.toJson) :
    d.getDict? k = some e := by
  unfold Dict.getDict?
  split
  · rename_i ms heq
    rw [h] at heq
    exact congrArg some (Dict.ext (by simpa [Dict.toJson] using heq.symm))
  · rename_i hne
    exact absurd h (hne _)

/-- `json.loads(text)`, where the text is to hold an object. -/
inductive Loaded where
  /-- The text is not JSON: `json.JSONDecodeError`. -/
  | error
  | dict (d : Dict)
  /-- A JSON value that is not an object. -/
  | other

/-- A text that is a dictionary, another value, or no JSON. -/
def loadDict (s : List Char) : Loaded :=
  match h : loads s with
  | none => .error
  | some (.obj ms) => .dict ⟨ms, wellFormed_loads h⟩
  | some _ => .other

theorem loadDict_dict {s : List Char} {d : Dict} (h : loads s = some d.toJson) :
    loadDict s = .dict d := by
  unfold loadDict
  split
  · rename_i heq
    simp [h] at heq
  · rename_i ms heq
    rw [h] at heq
    exact congrArg Loaded.dict (Dict.ext (by simpa [Dict.toJson] using heq.symm))
  · rename_i w hw heq
    rw [h] at heq
    exact absurd (Option.some.inj heq).symm (hw _)

theorem loadDict_error {s : List Char} (h : loads s = none) : loadDict s = .error := by
  unfold loadDict
  split
  · rfl
  · rename_i heq
    simp [h] at heq
  · rename_i heq
    simp [h] at heq

/-! ## Values as Python sees them -/

/-- The pairs of an object. -/
abbrev Members := List (String × Json)

/-- `ms.get(k)`: a key that is missing reads as `None`, as does `null`. -/
def Members.get (ms : Members) (k : String) : Json := (List.lookup k ms).getD .null

theorem lookup_pair (ms : Members) (i j : String) (w : Json) :
    List.lookup j ((i, w) :: ms) = if j = i then some w else List.lookup j ms := by
  rw [List.lookup_cons]
  by_cases h : j = i
  · simp [h]
  · rw [if_neg h, beq_false_of_ne h]

theorem lookup_map_replace (ms : Members) (k : String) (v : Json) (j : String) :
    List.lookup j (ms.map fun p => if p.1 = k then (k, v) else p) =
      if j = k then (List.lookup j ms).map fun _ => v else List.lookup j ms := by
  induction ms with
  | nil => simp
  | cons m ms ih =>
    obtain ⟨i, w⟩ := m
    rw [List.map_cons, lookup_pair]
    by_cases hi : i = k
    · subst hi
      rw [if_pos rfl, lookup_pair, ih]
      by_cases hj : j = i <;> simp [hj]
    · rw [if_neg hi, lookup_pair, ih]
      by_cases hj : j = i
      · subst hj
        simp [hi]
      · simp [hj]

/-- `ms[k] = v` is read back at `k`, and no other key changes. -/
theorem Members.get_insertPair (ms : Members) (k : String) (v : Json) (j : String) :
    Members.get (insertPair ms k v) j = if j = k then v else ms.get j := by
  rw [Members.get, Members.get, insertPair]
  split_ifs with hmem hj hj
  · obtain ⟨p, hp, rfl⟩ := List.mem_map.mp hmem
    have hsome : (List.lookup j ms).isSome :=
      List.lookup_isSome_iff.mpr ⟨p, hp, beq_iff_eq.mpr hj⟩
    obtain ⟨w, hw⟩ := Option.isSome_iff_exists.mp hsome
    rw [lookup_map_replace, if_pos hj, hw]
    rfl
  · rw [lookup_map_replace, if_neg hj]
  · have hnone : List.lookup j ms = none := List.lookup_eq_none_iff.mpr fun p hp =>
      bne_iff_ne.mpr fun h => hmem (hj ▸ h ▸ List.mem_map_of_mem hp)
    rw [List.lookup_append, hnone, Option.none_or, lookup_pair, if_pos hj]
    rfl
  · rw [List.lookup_append, lookup_pair, if_neg hj, List.lookup_nil, Option.or_none]

/-- The truth value of a JSON value. -/
def truthy : Json → Bool
  | .null => false
  | .bool b => b
  | .int i => i ≠ 0
  | .float d => d.whole ≠ 0 || d.frac.any (· ≠ 0)
  | .nan => true
  | .infinity _ => true
  | .str s => s ≠ ""
  | .arr xs => !xs.isEmpty
  | .obj ms => !ms.isEmpty

/-- `a or b` -/
def orElse (a b : Json) : Json := if truthy a then a else b

/-! ## The strings of a value -/

mutual

/-- Only the characters that occur matter. -/
theorem allChars_mono {p q : Char → Prop} (hpq : ∀ c, p c → q c) :
    ∀ v : Json, AllChars p v → AllChars q v
  | .null, _ => trivial
  | .bool _, _ => trivial
  | .int _, _ => trivial
  | .float _, _ => trivial
  | .nan, _ => trivial
  | .infinity _, _ => trivial
  | .str _, h => fun c hc => hpq c (h c hc)
  | .arr xs, h => allCharsList_mono hpq xs h
  | .obj ms, h => allCharsMembers_mono hpq ms h

theorem allCharsList_mono {p q : Char → Prop} (hpq : ∀ c, p c → q c) :
    ∀ xs : List Json, AllCharsList p xs → AllCharsList q xs
  | [], _ => trivial
  | x :: xs, h => ⟨allChars_mono hpq x h.1, allCharsList_mono hpq xs h.2⟩

theorem allCharsMembers_mono {p q : Char → Prop} (hpq : ∀ c, p c → q c) :
    ∀ ms : List (String × Json), AllCharsMembers p ms → AllCharsMembers q ms
  | [], _ => trivial
  | m :: ms, h => ⟨fun c hc => hpq c (h.1 c hc), allChars_mono hpq m.2 h.2.1,
      allCharsMembers_mono hpq ms h.2.2⟩

end

mutual

theorem allChars_of_forall {p : Char → Prop} (hp : ∀ c, p c) : ∀ v : Json, AllChars p v
  | .null => trivial
  | .bool _ => trivial
  | .int _ => trivial
  | .float _ => trivial
  | .nan => trivial
  | .infinity _ => trivial
  | .str _ => fun c _ => hp c
  | .arr xs => allCharsList_of_forall hp xs
  | .obj ms => allCharsMembers_of_forall hp ms

theorem allCharsList_of_forall {p : Char → Prop} (hp : ∀ c, p c) : ∀ xs : List Json,
    AllCharsList p xs
  | [] => trivial
  | x :: xs => ⟨allChars_of_forall hp x, allCharsList_of_forall hp xs⟩

theorem allCharsMembers_of_forall {p : Char → Prop} (hp : ∀ c, p c) :
    ∀ ms : List (String × Json), AllCharsMembers p ms
  | [] => trivial
  | m :: ms => ⟨fun c _ => hp c, allChars_of_forall hp m.2, allCharsMembers_of_forall hp ms⟩

end

end PyJson
