import Mathlib.Algebra.Group.Nat.Defs
import Mathlib.Data.List.DropRight
import CodexGateway.Library.Fresh
import CodexGateway.Library.Tokens
import CodexGateway.Manager.CheckoutArtifacts

/-!
# OpenWebui/CheckoutNames — the file names of the attachments

The display name of an attachment is cut down to letters, digits, `.`, `_` and `-`, and numbered
where the name is taken.  What is cut off may uncover a `.` or `_` at the end, but never at the
front, so that no name is hidden or reserved; a number makes a name longer by no more than its
digits, which a list that fits into memory keeps few (`checkoutNames_accepted`).
-/

namespace CodexGateway.OpenWebui

open PyJson SandboxApi StorageOps.Checkout Manager

/-! ## The names -/

/-- `[a-zA-Z0-9._-]` -/
def nameChar (c : Char) : Bool :=
  ('a' ≤ c && c ≤ 'z') || ('A' ≤ c && c ≤ 'Z') || ('0' ≤ c && c ≤ '9') || c = '.' || c = '_' ||
    c = '-'

/-- The characters of `strip("._")` -/
def dotOrUnderscore (c : Char) : Bool := c = '.' || c = '_'

/-- `_safe_name` -/
def safeName (value : Text) : Text :=
  let name := pathName (if value = [] then "file".toList else value)
  let normalized := ((name.map fun c => if nameChar c then c else '_').dropWhile
    dotOrUnderscore).rdropWhile dotOrUnderscore
  (if normalized = [] then "file".toList else normalized).take 160

/-- `text.rfind(c)`, where it is not `-1` -/
def rfind (c : Char) (text : Text) : Option ℕ :=
  if c ∈ text then some (text.length - 1 - text.reverse.idxOf c) else none

/-- Where the suffix of a name begins. -/
def suffixIndex (name : Text) : ℕ :=
  match rfind '.' name with
  | some i => if 0 < i ∧ i < name.length - 1 then i else name.length
  | none => name.length

/-- `Path(value).stem` -/
def pathStem (value : Text) : Text := (pathName value).take (suffixIndex (pathName value))

/-- `Path(value).suffix` -/
def pathSuffix (value : Text) : Text := (pathName value).drop (suffixIndex (pathName value))

/-- `candidate` of `_unique_name` after so many rounds of its loop -/
def candidate (name : Text) : ℕ → Text
  | 0 => name
  | round + 1 => pathStem name ++ ('-' :: dumpsNat (round + 2) ++ pathSuffix name)

example : [pathStem "a.tar.gz".toList, pathSuffix "a.tar.gz".toList, pathStem "a.".toList,
    pathSuffix ".a".toList] = ["a.tar".toList, ".gz".toList, "a.".toList, []] := by decide

/-! ## The candidates are distinct -/

theorem pathStem_append_pathSuffix (value : Text) :
    pathStem value ++ pathSuffix value = pathName value := List.take_append_drop _ _

theorem slash_notMem_pathName (value : Text) : '/' ∉ pathName value := by
  intro hmem
  rw [pathName] at hmem
  cases hparts : ((parts value).filter fun part => part ≠ [] && part ≠ ['.']) with
  | nil =>
    rw [hparts] at hmem
    exact absurd hmem List.not_mem_nil
  | cons part rest =>
    rw [hparts, List.getLastD_cons] at hmem
    have hlast : rest.getLastD part ∈ part :: rest := List.getLastD_mem_cons
    rw [← hparts] at hlast
    have hpart := (List.mem_filter.mp hlast).1
    rw [parts, List.splitOn_eq_splitOnP] at hpart
    exact absurd (Tokens.of_mem_splitOnP hpart '/' hmem) (by simp)

theorem dumpsNat_injective : Function.Injective dumpsNat := by
  intro m n h
  have hm := scanNat_dumpsNat m (r := []) (by simp)
  rw [h, scanNat_dumpsNat n (by simp)] at hm
  exact ((Prod.mk.inj (Option.some.inj hm)).1).symm

theorem length_natDigits_le {n d : ℕ} (h : n < 10 ^ (d + 1)) : (natDigits n).length ≤ d + 1 := by
  induction d generalizing n with
  | zero => rw [natDigits_of_lt (by simpa using h), List.length_singleton]
  | succ d ih =>
    rcases Nat.lt_or_ge n 10 with hlt | hge
    · rw [natDigits_of_lt hlt, List.length_singleton]
      omega
    · rw [natDigits_of_le hge, List.length_append, List.length_singleton]
      have hdiv : n / 10 < 10 ^ (d + 1) := Nat.div_lt_of_lt_mul (by rw [pow_succ] at h; omega)
      exact Nat.succ_le_succ (ih hdiv)

theorem nameChar_digitChar : ∀ d : Fin 10, nameChar (digitChar d) = true := by decide

theorem nameChar_dumpsNat {n : ℕ} : ∀ c ∈ dumpsNat n, nameChar c = true := by
  intro c hc
  obtain ⟨d, -, rfl⟩ := List.mem_map.mp hc
  exact nameChar_digitChar d

theorem slash_notMem_candidate (name : Text) (round : ℕ) :
    '/' ∉ candidate name (round + 1) := by
  have hname := slash_notMem_pathName name
  have hdigits : '/' ∉ dumpsNat (round + 2) := fun hmem =>
    absurd (nameChar_dumpsNat '/' hmem) (by decide)
  simp only [candidate, List.mem_append, List.mem_cons, not_or]
  exact ⟨fun hmem => hname (List.mem_of_mem_take hmem), ⟨by decide, hdigits⟩,
    fun hmem => hname (List.mem_of_mem_drop hmem)⟩

/-- A name is no candidate with a number of its own. -/
theorem candidate_succ_ne (name : Text) (round : ℕ) : candidate name (round + 1) ≠ name := by
  intro h
  have hslash : '/' ∉ name := by
    rw [← h]
    exact slash_notMem_candidate name round
  have hdash : '-' ∈ name := by
    rw [← h, candidate]
    simp
  have hname : pathName name = name := by
    refine pathName_eq hslash (List.ne_nil_of_mem hdash) ?_
    rintro rfl
    exact absurd hdash (by decide)
  have hlength := congrArg List.length h
  have happend := congrArg List.length (pathStem_append_pathSuffix name)
  rw [hname] at happend
  simp only [candidate, List.length_append, List.length_cons] at hlength happend
  omega

theorem candidate_injective (name : Text) : Function.Injective (candidate name) := by
  intro i j h
  cases i with
  | zero =>
    cases j with
    | zero => rfl
    | succ j => exact absurd h.symm (candidate_succ_ne name j)
  | succ i =>
    cases j with
    | zero => exact absurd h (candidate_succ_ne name i)
    | succ j =>
      have hnumber := List.append_cancel_right (List.cons.inj (List.append_cancel_left h)).2
      have := dumpsNat_injective hnumber
      omega

/-- The candidates of a name. -/
def nameCandidates (name : Text) : Candidates Text := ⟨candidate name, candidate_injective name⟩

/-- `_unique_name`, with `used` after it -/
def uniqueName (name : Text) (used : Finset Text) : Text × Finset Text :=
  let name := candidate name ((nameCandidates name).first used 0)
  (name, insert name used)

/-- The file names of the attachments, one after the other. -/
def checkoutNames : List Text → Finset Text → List Text
  | [], _ => []
  | value :: values, names =>
    let (filename, names) := uniqueName (safeName value) names
    filename :: checkoutNames values names

theorem checkoutNames_eq_assign (values : List Text) (names : Finset Text) :
    checkoutNames values names =
      Candidates.assign (values.map fun value => nameCandidates (safeName value)) names := by
  induction values generalizing names with
  | nil => rfl
  | cons value values ih => exact congrArg _ (ih _)

/-! ## What is given out -/

/-- A name of the permitted characters that is not hidden. -/
structure SafeText (name : Text) : Prop where
  ne_nil : name ≠ []
  chars : ∀ c ∈ name, nameChar c = true
  head : ∀ c ∈ name.head?, c ≠ '.'

theorem safeText_file : SafeText "file".toList where
  ne_nil := by decide
  chars := List.all_eq_true.mp (by decide : "file".toList.all nameChar = true)
  head c hc := by
    obtain rfl : 'f' = c := Option.some.inj hc
    decide

theorem SafeText.take {name : Text} (h : SafeText name) {n : ℕ} (hn : 0 < n) :
    SafeText (name.take n) where
  ne_nil hnil := by
    rcases List.take_eq_nil_iff.mp hnil with hzero | hname
    · omega
    · exact h.ne_nil hname
  chars c hc := h.chars c (List.mem_of_mem_take hc)
  head c hc := h.head c (by rwa [List.head?_take, if_neg (by omega)] at hc)

/-- What is left of the front after `strip` is no dot. -/
theorem safeText_strip {name : Text} (hchars : ∀ c ∈ name, nameChar c = true)
    (hne : (name.dropWhile dotOrUnderscore).rdropWhile dotOrUnderscore ≠ []) :
    SafeText ((name.dropWhile dotOrUnderscore).rdropWhile dotOrUnderscore) where
  ne_nil := hne
  chars c hc := hchars c ((List.dropWhile_suffix _).subset ((List.rdropWhile_prefix _ _).subset hc))
  head c hc := by
    obtain ⟨rest, hrest⟩ := List.rdropWhile_prefix dotOrUnderscore (name.dropWhile dotOrUnderscore)
    have hhead : (name.dropWhile dotOrUnderscore).head? = some c := by
      rw [← hrest, List.head?_append_of_ne_nil _ hne]
      exact hc
    have hnot := List.head?_dropWhile_not dotOrUnderscore name
    rw [hhead] at hnot
    rintro rfl
    exact absurd hnot (by decide)

theorem safeText_safeName (value : Text) : SafeText (safeName value) := by
  rw [safeName]
  refine SafeText.take ?_ (by decide)
  generalize (if value = [] then "file".toList else value) = path
  split_ifs with hnil
  · exact safeText_file
  · refine safeText_strip (fun c hc => ?_) hnil
    obtain ⟨d, -, rfl⟩ := List.mem_map.mp hc
    split_ifs with hd
    · exact hd
    · decide

theorem length_safeName_le (value : Text) : (safeName value).length ≤ 160 := by
  rw [safeName]
  exact List.length_take_le _ _

theorem suffixIndex_pos {name : Text} (h : name ≠ []) : 0 < suffixIndex name := by
  rw [suffixIndex]
  split
  · split_ifs with hinner
    · exact hinner.1
    · exact List.length_pos_iff.mpr h
  · exact List.length_pos_iff.mpr h

theorem SafeText.pathName_eq {name : Text} (h : SafeText name) : pathName name = name := by
  refine Manager.pathName_eq (fun hmem => ?_) h.ne_nil ?_
  · exact absurd (h.chars '/' hmem) (by decide)
  · rintro rfl
    exact h.head '.' rfl rfl

/-- **A number in front of the suffix keeps a name safe**, and makes it longer by its digits. -/
theorem SafeText.candidate {name : Text} (h : SafeText name) (round : ℕ) :
    SafeText (candidate name round) := by
  cases round with
  | zero => exact h
  | succ round =>
    have hstem : SafeText (pathStem name) := by
      rw [pathStem, h.pathName_eq]
      exact h.take (suffixIndex_pos h.ne_nil)
    refine ⟨List.append_ne_nil_of_left_ne_nil hstem.ne_nil _, fun c hc => ?_, fun c hc => ?_⟩
    · rcases List.mem_append.mp hc with hc | hc
      · exact hstem.chars c hc
      · rcases List.mem_append.mp hc with hc | hc
        · rcases List.mem_cons.mp hc with rfl | hc
          · decide
          · exact nameChar_dumpsNat c hc
        · rw [pathSuffix, h.pathName_eq] at hc
          exact h.chars c (List.mem_of_mem_drop hc)
    · rw [OpenWebui.candidate, List.head?_append_of_ne_nil _ hstem.ne_nil] at hc
      exact hstem.head c hc

theorem length_candidate_le {name : Text} (h : SafeText name) {round d : ℕ}
    (hround : round + 1 < 10 ^ (d + 1)) :
    (candidate name round).length ≤ name.length + d + 2 := by
  cases round with
  | zero =>
    rw [candidate]
    omega
  | succ round =>
    have hname := congrArg List.length (pathStem_append_pathSuffix name)
    rw [h.pathName_eq, List.length_append] at hname
    have hdigits : (dumpsNat (round + 2)).length ≤ d + 1 := by
      rw [dumpsNat, List.length_map]
      exact length_natDigits_le hround
    simp only [candidate, List.length_append, List.length_cons]
    omega

/-- A safe name of a length a file system takes is accepted everywhere, and is not reserved. -/
structure Accepted (name : Text) : Prop where
  claim : ∀ claims : Members, claims.get "filename" = .str (String.ofList name) →
    Manager.requiredClaim claims "filename" = .ok (String.ofList name)
  manager : invalidFilename (String.ofList name) = false
  task : safeFilename (String.ofList name) = .ok (String.ofList name)
  chars : ∀ c ∈ name, nameChar c = true
  manifest : String.ofList name ≠ checkoutName
  part : String.ofList name ≠ partName

theorem SafeText.ne_hidden {name : Text} (h : SafeText name) {hidden : String}
    (hdot : hidden.toList.head? = some '.') : String.ofList name ≠ hidden := by
  rintro rfl
  rw [String.toList_ofList] at hdot
  exact h.head '.' hdot rfl

theorem SafeText.accepted {name : Text} (h : SafeText name) (hlength : name.length ≤ 255) :
    Accepted name := by
  have hempty : String.ofList name ≠ "" := fun heq => h.ne_nil (by
    rw [← String.toList_ofList (l := name), heq]
    rfl)
  have hchar (c : Char) (hc : nameChar c = false) : c ∉ name := fun hmem =>
    absurd (h.chars c hmem) (by simp [hc])
  have hdot : String.ofList name ≠ "." := h.ne_hidden rfl
  have hdots : String.ofList name ≠ ".." := h.ne_hidden rfl
  have hlong : ¬ 255 < (String.ofList name).length := by
    rw [String.length_ofList]
    omega
  refine ⟨fun claims hclaim => ?_, ?_, ?_, h.chars, h.ne_hidden rfl, h.ne_hidden rfl⟩
  · rw [Manager.requiredClaim, hclaim]
    exact if_neg (not_or.mpr ⟨hempty, by omega⟩)
  · simp only [invalidFilename, String.toList_ofList, Bool.or_eq_false_iff, decide_eq_false_iff_not]
    exact ⟨⟨⟨⟨⟨hlong, hdot⟩, hdots⟩, hchar '/' (by decide)⟩, hchar '\\' (by decide)⟩,
      hchar '\x00' (by decide)⟩
  · rw [safeFilename, if_neg]
    simp only [not_or, not_not, String.toList_ofList]
    exact ⟨hempty, hlong, hdot, hdots, h.pathName_eq, hchar '\x00' (by decide)⟩

/-! ## The main result -/

/-- A list of Python has no more than `sys.maxsize` items. -/
abbrev PyList (α : Type) := { xs : List α // xs.length < 2 ^ 63 }

/-- The loop of `_unique_name` ends after at most as many rounds as there are names in use. -/
theorem uniqueName_eq (name : Text) (used : Finset Text) : ∃ rounds ≤ used.card,
    (∀ round < rounds, candidate name round ∈ used) ∧ candidate name rounds ∉ used ∧
      uniqueName name used = (candidate name rounds, insert (candidate name rounds) used) :=
  ⟨_, (nameCandidates name).first_le used,
    fun _ hround => (nameCandidates name).mem_of_lt_first used 0 (Nat.zero_le _) hround,
    (nameCandidates name).first_notMem used 0, rfl⟩

/-- **Every attachment gets a name of its own**, which the Manager and the task accept, and which is
none of the names that the task keeps to itself; the search for each of them ends. -/
theorem checkoutNames_accepted (values : PyList Text) :
    (∀ name used, ∃ rounds ≤ used.card, (∀ round < rounds, candidate name round ∈ used) ∧
      candidate name rounds ∉ used ∧
        uniqueName name used = (candidate name rounds, insert (candidate name rounds) used)) ∧
    (checkoutNames values.1 ∅).length = values.1.length ∧ (checkoutNames values.1 ∅).Nodup ∧
    ∀ name ∈ checkoutNames values.1 ∅, Accepted name := by
  rw [checkoutNames_eq_assign]
  refine ⟨uniqueName_eq, ?_, Candidates.assign_nodup _, fun name hname => ?_⟩
  · rw [Candidates.length_assign, List.length_map]
  · obtain ⟨c, hc, round, hround, rfl⟩ := Candidates.exists_of_mem_assign name hname
    obtain ⟨value, -, rfl⟩ := List.mem_map.mp hc
    have hsafe := safeText_safeName value
    have hrounds : round + 1 < 10 ^ (19 + 1) := by
      have := values.2
      rw [Finset.card_empty, List.length_map] at hround
      omega
    have hlength := length_candidate_le hsafe hrounds
    have hbase := length_safeName_le value
    exact (hsafe.candidate round).accepted (by omega)

end CodexGateway.OpenWebui
