import CodexGateway.Library.Numerals

/-!
# Library/Argparse — options with one value, as Python's `argparse` reads them

A parser has options `--name VALUE`, each kept in a namespace, and `-h`.  Whether an argument is an
option or a value is seen from the argument alone (`isOptional`), before any is consumed, so a value
that looks like an option is none.

What is printed as options with their values is read back where no value looks like an option, and
refused where one does (`parse_render`).  A number never does (`isArgument_int`).
-/

namespace Argparse

open PyJson PyNumerals

/-- The type of a flag's value. -/
inductive Kind where
  | text
  | int
  deriving DecidableEq

/-- A value of the namespace. -/
inductive Value where
  | none
  | text (text : String)
  | int (i : ℤ)
  deriving DecidableEq

/-- `add_argument(name, type=…, required=…, default=…)` -/
structure Flag where
  name : String
  kind : Kind
  required : Bool
  default : Value
  isLong : "--".toList.isPrefixOf name.toList = true ∧ name ≠ "--" := by decide
  deriving DecidableEq

/-- Why there is no namespace: the help is asked for, or the arguments are wrong. -/
inductive ArgError where
  | help
  | usage
  | expectedOne (name : String)
  | invalidInt (name : String)
  | required (name : String)
  | unrecognized
  deriving DecidableEq

/-! ## Options and values -/

/-- The option strings of a parser. -/
def optionStrings (flags : List Flag) : List String := "-h" :: "--help" :: flags.map Flag.name

/-- `_get_option_tuples` finds an option: the argument abbreviates it, or has its one letter. -/
def abbreviates (options : List String) (arg : List Char) : Bool :=
  if "--".toList.isPrefixOf arg then
    options.any fun o => (arg.takeWhile (· ≠ '=')).isPrefixOf o.toList
  else options.any fun o => o.toList = arg.take 2 || arg.isPrefixOf o.toList

/-- `_parse_optional`: the argument is taken for an option. -/
def isOptional (options : List String) (arg : String) : Bool :=
  match arg.toList with
  | '-' :: c :: s =>
    options.contains arg || abbreviates options ('-' :: c :: s) ||
      !(isNegativeNumber ('-' :: c :: s) || (c :: s).contains ' ')
  | _ => false

/-- An option can take it for its value. -/
def isArgument (flags : List Flag) (arg : String) : Bool :=
  arg ≠ "--" && !isOptional (optionStrings flags) arg

/-- What an option stands for. -/
inductive Meaning where
  | help
  | flag (flag : Flag) (value : Option String)
  | unknown
  | wrong

/-- The options that begin with a name; the help is `none`. -/
def candidates (flags : List Flag) (name : List Char) : List (Option Flag) :=
  (if name.isPrefixOf "--help".toList then [none] else []) ++
    (flags.filter fun flag => name.isPrefixOf flag.name.toList).map some

/-- What an argument is to the parser. -/
def meaning (flags : List Flag) (arg : String) : Meaning :=
  match flags.find? (·.name = arg) with
  | some flag => .flag flag none
  | none =>
    if "--".toList.isPrefixOf arg.toList then
      let name := arg.toList.takeWhile (· ≠ '=')
      let value := match arg.toList.dropWhile (· ≠ '=') with
        | [] => none
        | _ :: text => some (String.ofList text)
      match flags.find? (·.name.toList = name) with
      | some flag => .flag flag value
      | none =>
        match candidates flags name with
        | [] => .unknown
        | [some flag] => .flag flag value
        | [none] => if value.isNone then .help else .wrong
        | _ => .wrong
    else if arg.toList.take 2 = ['-', 'h'] then .help
    else .unknown

/-! ## The namespace -/

/-- `type(text)` -/
def Flag.convert (flag : Flag) (text : String) : Except ArgError Value :=
  match flag.kind with
  | .text => .ok (.text text)
  | .int =>
    match PyNumerals.int text.toList with
    | some i => .ok (.int i)
    | none => .error (.invalidInt flag.name)

/-- The values in the order in which they are given, and whether an argument is left over. -/
def collect (flags : List Flag) :
    List String → Except ArgError (List (Flag × Value) × Bool)
  | [] => .ok ([], false)
  | arg :: rest =>
    if arg = "--" then .ok ([], true)
    else if isOptional (optionStrings flags) arg then
      match meaning flags arg with
      | .help => .error .help
      | .wrong => .error .usage
      | .unknown => (collect flags rest).map fun r => (r.1, true)
      | .flag flag (some text) => do
        let value ← flag.convert text
        let r ← collect flags rest
        .ok ((flag, value) :: r.1, r.2)
      | .flag flag none =>
        match rest with
        | [] => .error (.expectedOne flag.name)
        | text :: rest =>
          if isArgument flags text then do
            let value ← flag.convert text
            let r ← collect flags rest
            .ok ((flag, value) :: r.1, r.2)
          else .error (.expectedOne flag.name)
    else (collect flags rest).map fun r => (r.1, true)

/-- A namespace, by the names of the options. -/
abbrev Namespace := String → Value

/-- The last value that is given for an option, or its default. -/
def namespaceOf (flags : List Flag) (given : List (Flag × Value)) : Namespace := fun name =>
  match given.reverse.find? (·.1.name = name) with
  | some g => g.2
  | none => ((flags.find? (·.name = name)).map Flag.default).getD .none

/-- `parse_args`, of the arguments after the command. -/
def parse (flags : List Flag) (args : List String) : Except ArgError Namespace := do
  let (given, left) ← collect flags args
  match flags.find? fun flag => flag.required && !given.any (·.1.name = flag.name) with
  | some flag => .error (.required flag.name)
  | none => if left then .error .unrecognized else .ok (namespaceOf flags given)

/-! ## What is printed is read back -/

section Render

variable {flags : List Flag} {given : List (Flag × Value)} {g : Flag × Value}

/-- The value as it stands on the command line. -/
def Value.render : Value → String
  | .none => ""
  | .text value => value
  | .int i => String.ofList (dumpsInt i)

/-- A command line that gives each flag its value in the next argument. -/
def render (given : List (Flag × Value)) : List String :=
  given.flatMap fun g => [g.1.name, g.2.render]

/-- The option is one of the parser, and the value of its type. -/
structure Fits (flags : List Flag) (g : Flag × Value) : Prop where
  mem : flags.find? (·.name = g.1.name) = some g.1
  kind : match g.2 with
    | .none => False
    | .text _ => g.1.kind = .text
    | .int _ => g.1.kind = .int

theorem meaning_of_find (h : flags.find? (·.name = g.1.name) = some g.1) :
    meaning flags g.1.name = .flag g.1 none := by
  rw [meaning, h]

theorem isOptional_name (h : flags.find? (·.name = g.1.name) = some g.1) :
    isOptional (optionStrings flags) g.1.name = true := by
  have hmem : (optionStrings flags).contains g.1.name = true := by
    refine List.contains_iff_mem.mpr (List.mem_cons_of_mem _ (List.mem_cons_of_mem _ ?_))
    exact List.mem_map_of_mem (List.mem_of_find?_eq_some h)
  obtain ⟨t, ht⟩ := List.isPrefixOf_iff_prefix.mp g.1.isLong.1
  have hname : g.1.name.toList = '-' :: '-' :: t := ht.symm
  rw [isOptional, hname]
  simp only [hmem, Bool.true_or]

theorem convert_render (h : Fits flags g) : g.1.convert g.2.render = .ok g.2 := by
  obtain ⟨flag, value⟩ := g
  have hkind := h.kind
  cases value with
  | none => exact hkind.elim
  | text text =>
    rw [Flag.convert, show flag.kind = .text from hkind]
    rfl
  | int i =>
    rw [Flag.convert, show flag.kind = .int from hkind, Value.render]
    simp only [String.toList_ofList, int_dumpsInt]

/-- One option with its value is read, and then the rest. -/
theorem collect_cons (h : Fits flags g) (rest : List String) :
    collect flags (g.1.name :: g.2.render :: rest) =
      if isArgument flags g.2.render then
        (collect flags rest).map fun r => (g :: r.1, r.2)
      else .error (.expectedOne g.1.name) := by
  rw [collect, if_neg g.1.isLong.2, if_pos (isOptional_name h.mem), meaning_of_find h.mem]
  by_cases harg : isArgument flags g.2.render = true
  · rw [if_pos harg]
    simp only [if_pos harg, convert_render h]
    cases collect flags rest <;> rfl
  · rw [if_neg harg]
    simp only [if_neg harg]

theorem collect_render (h : ∀ g ∈ given, Fits flags g)
    (hargs : ∀ g ∈ given, isArgument flags g.2.render = true) :
    collect flags (render given) = .ok (given, false) := by
  induction given with
  | nil => rfl
  | cons g given ih =>
    have hrest := ih (fun x hx => h x (List.mem_cons_of_mem _ hx))
      fun x hx => hargs x (List.mem_cons_of_mem _ hx)
    show collect flags (g.1.name :: g.2.render :: render given) = _
    rw [collect_cons (h g List.mem_cons_self), if_pos (hargs g List.mem_cons_self), hrest]
    rfl

theorem collect_render_error (h : ∀ g ∈ given, Fits flags g)
    (hargs : ∃ g ∈ given, isArgument flags g.2.render = false) :
    ∃ name, collect flags (render given) = .error (.expectedOne name) := by
  induction given with
  | nil =>
    obtain ⟨g, hmem, -⟩ := hargs
    exact absurd hmem List.not_mem_nil
  | cons g given ih =>
    show ∃ name, collect flags (g.1.name :: g.2.render :: render given) =
      .error (.expectedOne name)
    rw [collect_cons (h g List.mem_cons_self)]
    by_cases harg : isArgument flags g.2.render = true
    · have hrest : ∃ x ∈ given, isArgument flags x.2.render = false := by
        obtain ⟨x, hmem, hx⟩ := hargs
        rcases List.mem_cons.mp hmem with rfl | hmem
        · rw [harg] at hx
          cases hx
        · exact ⟨x, hmem, hx⟩
      obtain ⟨name, hname⟩ := ih (fun x hx => h x (List.mem_cons_of_mem _ hx)) hrest
      rw [if_pos harg, hname]
      exact ⟨name, rfl⟩
    · rw [if_neg harg]
      exact ⟨_, rfl⟩

/-- **Options with their values are read back just where no value looks like an option.** -/
theorem parse_render (h : ∀ g ∈ given, Fits flags g)
    (hrequired : ∀ flag ∈ flags, flag.required = true → ∃ g ∈ given, g.1.name = flag.name) :
    ((∀ g ∈ given, isArgument flags g.2.render = true) →
      parse flags (render given) = .ok (namespaceOf flags given)) ∧
    ((∃ g ∈ given, isArgument flags g.2.render = false) →
      ∃ name, parse flags (render given) = .error (.expectedOne name)) := by
  refine ⟨fun hargs => ?_, fun hargs => ?_⟩
  · have hnone : flags.find? (fun flag => flag.required && !given.any (·.1.name = flag.name)) =
        none := by
      refine List.find?_eq_none.mpr fun flag hflag hmissing => ?_
      obtain ⟨hneeded, hgiven⟩ := Bool.and_eq_true_iff.mp hmissing
      obtain ⟨g, hmem, hname⟩ := hrequired flag hflag hneeded
      have hany : given.any (·.1.name = flag.name) = true :=
        List.any_eq_true.mpr ⟨g, hmem, decide_eq_true hname⟩
      rw [hany] at hgiven
      cases hgiven
    rw [parse, collect_render h hargs]
    show (match flags.find? fun flag => flag.required && !given.any (·.1.name = flag.name) with
      | some flag => Except.error (ArgError.required flag.name)
      | none => if false = true then .error .unrecognized else .ok (namespaceOf flags given)) = _
    rw [hnone]
    rfl
  · obtain ⟨name, hname⟩ := collect_render_error h hargs
    exact ⟨name, by rw [parse, hname]; rfl⟩

end Render

/-! ## Values that are no options -/

section Argument

variable {flags : List Flag} {arg : String}

/-- **What does not begin with a dash is a value.** -/
theorem isArgument_of_head (h : arg.toList.head? ≠ some '-') : isArgument flags arg = true := by
  have hne : arg ≠ "--" := by
    rintro rfl
    exact h rfl
  have hnot : isOptional (optionStrings flags) arg = false := by
    rw [isOptional]
    split
    · rename_i c s harg
      rw [harg] at h
      exact absurd rfl h
    · rfl
  rw [isArgument, hnot]
  simpa using hne

/-- No option string goes on after its dash with a digit. -/
theorem not_abbreviates {options : List String} {c : Char} {s : List Char} (hdash : c ≠ '-')
    (hoptions : ∀ o ∈ options, ∀ d t, o.toList = '-' :: d :: t → d ≠ c) :
    abbreviates options ('-' :: c :: s) = false := by
  have hlong : "--".toList.isPrefixOf ('-' :: c :: s) = false := by
    simpa [List.isPrefixOf] using hdash.symm
  rw [abbreviates, if_neg (by rw [hlong]; exact Bool.false_ne_true)]
  refine List.any_eq_false.mpr fun o ho hmatch => ?_
  rcases Bool.or_eq_true_iff.mp hmatch with htake | hprefix
  · exact hoptions o ho c [] (of_decide_eq_true htake) rfl
  · obtain ⟨t, ht⟩ := List.isPrefixOf_iff_prefix.mp hprefix
    exact hoptions o ho c (s ++ t) ht.symm rfl

theorem digitChar_ne : ∀ d : Fin 10, digitChar d ≠ '-' ∧ digitChar d ≠ 'h' := by decide

/-- **A number is a value.** -/
theorem isArgument_int (i : ℤ) :
    isArgument flags (String.ofList (dumpsInt i)) = true := by
  by_cases hneg : i < 0
  · obtain ⟨d, s, hdigits⟩ := exists_dumpsNat i.natAbs
    have harg : dumpsInt i = '-' :: digitChar d :: s := by
      rw [dumpsInt, decide_eq_true hneg, hdigits]
      rfl
    have hdigit := digitChar_ne d
    have hoptions : ∀ o ∈ optionStrings flags, ∀ c t, o.toList = '-' :: c :: t →
        c ≠ digitChar d := by
      intro o ho c t hot
      rcases List.mem_cons.mp ho with rfl | ho
      · have hc : 'h' = c := (List.cons.inj (List.cons.inj hot).2).1
        exact hc ▸ hdigit.2.symm
      · rcases List.mem_cons.mp ho with rfl | ho
        · have hc : '-' = c := (List.cons.inj (List.cons.inj hot).2).1
          exact hc ▸ hdigit.1.symm
        · obtain ⟨flag, -, rfl⟩ := List.mem_map.mp ho
          obtain ⟨u, hu⟩ := List.isPrefixOf_iff_prefix.mp flag.isLong.1
          have hc : '-' = c := (List.cons.inj (List.cons.inj (hu.trans hot)).2).1
          exact hc ▸ hdigit.1.symm
    have hcontains : (optionStrings flags).contains (String.ofList (dumpsInt i)) = false := by
      refine Bool.eq_false_iff.mpr fun hmem => ?_
      exact hoptions _ (List.contains_iff_mem.mp hmem) _ s
        (by rw [String.toList_ofList, harg]) rfl
    have hne : String.ofList (dumpsInt i) ≠ "--" := by
      intro heq
      have hlist := congrArg String.toList heq
      rw [String.toList_ofList, harg] at hlist
      exact hdigit.1 (List.cons.inj (List.cons.inj hlist).2).1
    have hnot : isOptional (optionStrings flags) (String.ofList (dumpsInt i)) = false := by
      have hnegative := isNegativeNumber_dumpsInt hneg
      rw [isOptional]
      simp only [String.toList_ofList]
      rw [harg] at hnegative hcontains ⊢
      simp only [hcontains, not_abbreviates hdigit.1 hoptions, hnegative, Bool.true_or,
        Bool.not_true, Bool.or_false]
    rw [isArgument, hnot]
    simpa using hne
  · refine isArgument_of_head ?_
    obtain ⟨d, s, hdigits⟩ := exists_dumpsNat i.natAbs
    have hdigit := (digitChar_ne d).1
    rw [String.toList_ofList, dumpsInt, decide_eq_false hneg, hdigits]
    simpa [dumpsSign] using hdigit

end Argument

end Argparse
