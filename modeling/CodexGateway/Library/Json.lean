import Mathlib.Data.List.Basic
import Mathlib.Data.List.TakeWhile
import Mathlib.Data.Fintype.Basic
import Mathlib.Tactic.Common

/-!
# Library/Json — JSON values as Python's `json` module prints and reads them

`dumps` is `json.dumps(value, ensure_ascii=False, separators=(",", ":"))` and `loads` is
`json.loads`, the recursive-descent scanner of the standard library with its `strict` strings.
Text is a list of Unicode scalar values.

An object is an ordered list of pairs, as a Python `dict` is; `WellFormed` says that its keys are
distinct at every level.  A float is carried as the decimal literal `repr` prints for it, so that
reading a printed float back is the identity, as `float(repr(x)) == x` is.
-/

namespace PyJson

/-- A decimal literal with a fraction or an exponent: what `repr` prints for a finite float. -/
structure Decimal where
  neg : Bool
  whole : ℕ
  frac : List (Fin 10)
  /-- The sign and the digits of the exponent. -/
  exp : Option (Bool × List (Fin 10))
  isFloat : frac ≠ [] ∨ exp.isSome
  exp_ne_nil : ∀ e ∈ exp, e.2 ≠ []
deriving DecidableEq

/-- A JSON value. -/
inductive Json where
  | null
  | bool (b : Bool)
  | int (i : ℤ)
  | float (d : Decimal)
  | nan
  | infinity (neg : Bool)
  | str (s : String)
  | arr (xs : List Json)
  | obj (ms : List (String × Json))

/-! ## Printing -/

/-- The character of a digit. -/
def digitChar (d : Fin 10) : Char := Char.ofNat (48 + d)

/-- The decimal digits of a natural number, most significant first. -/
def natDigits (n : ℕ) : List (Fin 10) :=
  if h : n < 10 then [⟨n, h⟩] else natDigits (n / 10) ++ [⟨n % 10, Nat.mod_lt _ (by decide)⟩]
termination_by n
decreasing_by omega

/-- A natural number in decimal. -/
def dumpsNat (n : ℕ) : List Char := (natDigits n).map digitChar

/-- The sign of a number. -/
def dumpsSign (neg : Bool) : List Char := if neg then ['-'] else []

/-- An integer in decimal. -/
def dumpsInt (i : ℤ) : List Char := dumpsSign (i < 0) ++ dumpsNat i.natAbs

/-- The digits after the point. -/
def dumpsFrac (frac : List (Fin 10)) : List Char :=
  if frac = [] then [] else '.' :: frac.map digitChar

/-- The exponent of a number, if it has one. -/
def dumpsExp : Option (Bool × List (Fin 10)) → List Char
  | none => []
  | some (neg, ds) => 'e' :: (if neg then '-' else '+') :: ds.map digitChar

/-- A number that is written with a point or an exponent. -/
def dumpsDecimal (d : Decimal) : List Char :=
  dumpsSign d.neg ++ dumpsNat d.whole ++ dumpsFrac d.frac ++ dumpsExp d.exp

/-- The lower-case hexadecimal digit of a number below 16. -/
def hexChar (n : ℕ) : Char := if n < 10 then Char.ofNat (48 + n) else Char.ofNat (87 + n)

/-- How a character stands inside a printed string: `"`, `\` and the characters below U+0020 are
escaped, every other character stands for itself (`ensure_ascii=False`). -/
def escape (c : Char) : List Char :=
  if c = '"' then ['\\', '"']
  else if c = '\\' then ['\\', '\\']
  else if c = '\n' then ['\\', 'n']
  else if c = '\r' then ['\\', 'r']
  else if c = '\t' then ['\\', 't']
  else if c = '\x0c' then ['\\', 'f']
  else if c = '\x08' then ['\\', 'b']
  else if c.toNat < 0x20 then ['\\', 'u', '0', '0', hexChar (c.toNat / 16), hexChar (c.toNat % 16)]
  else [c]

/-- A string between quotes. -/
def dumpsString (s : String) : List Char := '"' :: s.toList.flatMap escape ++ ['"']

mutual

/-- `json.dumps(value, ensure_ascii=False, separators=(",", ":"))`. -/
def dumps : Json → List Char
  | .null => ['n', 'u', 'l', 'l']
  | .bool true => ['t', 'r', 'u', 'e']
  | .bool false => ['f', 'a', 'l', 's', 'e']
  | .int i => dumpsInt i
  | .float d => dumpsDecimal d
  | .nan => ['N', 'a', 'N']
  | .infinity neg => dumpsSign neg ++ ['I', 'n', 'f', 'i', 'n', 'i', 't', 'y']
  | .str s => dumpsString s
  | .arr [] => ['[', ']']
  | .arr (x :: xs) => '[' :: (dumps x ++ dumpsElements xs)
  | .obj [] => ['{', '}']
  | .obj ((k, v) :: ms) => '{' :: (dumpsString k ++ ':' :: (dumps v ++ dumpsMembers ms))

/-- The elements after the first, with the closing bracket. -/
def dumpsElements : List Json → List Char
  | [] => [']']
  | x :: xs => ',' :: (dumps x ++ dumpsElements xs)

/-- The members after the first, with the closing brace. -/
def dumpsMembers : List (String × Json) → List Char
  | [] => ['}']
  | (k, v) :: ms => ',' :: (dumpsString k ++ ':' :: (dumps v ++ dumpsMembers ms))

end

/-- The four hexadecimal digits of a UTF-16 code unit, after `\u`. -/
def hexEscape (n : ℕ) : List Char :=
  ['\\', 'u', hexChar (n / 4096), hexChar (n / 256 % 16), hexChar (n / 16 % 16), hexChar (n % 16)]

/-- `escape` with `ensure_ascii=True`: a character outside `' '`–`'~'` is written as its UTF-16 code
units. -/
def escapeAscii (c : Char) : List Char :=
  if c.toNat < 0x7f then escape c
  else if c.toNat < 0x10000 then hexEscape c.toNat
  else hexEscape (0xD800 + (c.toNat - 0x10000) / 0x400) ++
    hexEscape (0xDC00 + (c.toNat - 0x10000) % 0x400)

section

variable (esc : Char → List Char)

/-- A string between quotes, by the escapes given. -/
def dumpsStringBy (s : String) : List Char := '"' :: s.toList.flatMap esc ++ ['"']

mutual

/-- `dumps`, where `esc` writes the characters of a string. -/
def dumpsBy : Json → List Char
  | .null => ['n', 'u', 'l', 'l']
  | .bool true => ['t', 'r', 'u', 'e']
  | .bool false => ['f', 'a', 'l', 's', 'e']
  | .int i => dumpsInt i
  | .float d => dumpsDecimal d
  | .nan => ['N', 'a', 'N']
  | .infinity neg => dumpsSign neg ++ ['I', 'n', 'f', 'i', 'n', 'i', 't', 'y']
  | .str s => dumpsStringBy esc s
  | .arr [] => ['[', ']']
  | .arr (x :: xs) => '[' :: (dumpsBy x ++ dumpsElementsBy xs)
  | .obj [] => ['{', '}']
  | .obj ((k, v) :: ms) => '{' :: (dumpsStringBy esc k ++ ':' :: (dumpsBy v ++ dumpsMembersBy ms))

/-- The elements of an array after its first. -/
def dumpsElementsBy : List Json → List Char
  | [] => [']']
  | x :: xs => ',' :: (dumpsBy x ++ dumpsElementsBy xs)

/-- The members of an object after its first. -/
def dumpsMembersBy : List (String × Json) → List Char
  | [] => ['}']
  | (k, v) :: ms => ',' :: (dumpsStringBy esc k ++ ':' :: (dumpsBy v ++ dumpsMembersBy ms))

end

end

/-! ## Reading -/

/-- The white space of JSON. -/
def isSpace (c : Char) : Bool := c = ' ' || c = '\t' || c = '\n' || c = '\r'

/-- What comes after white space. -/
def skipSpace (s : List Char) : List Char := s.dropWhile isSpace

/-- The value of a hexadecimal digit, in either case. -/
def hexValue (c : Char) : Option ℕ :=
  if '0' ≤ c ∧ c ≤ '9' then some (c.toNat - 48)
  else if 'a' ≤ c ∧ c ≤ 'f' then some (c.toNat - 87)
  else if 'A' ≤ c ∧ c ≤ 'F' then some (c.toNat - 55)
  else none

/-- The four hexadecimal digits after `\u`. -/
def hex4 (a b c d : Char) : Option ℕ := do
  let a ← hexValue a
  let b ← hexValue b
  let c ← hexValue c
  let d ← hexValue d
  return ((a * 16 + b) * 16 + c) * 16 + d

/-- The character of a code point; a lone surrogate is no Unicode scalar value and has none. -/
def charOf (n : ℕ) : Option Char :=
  if h : n.isValidChar then some (Char.ofNatAux n h) else none

/-- The code points of a high surrogate. -/
def isHigh (n : ℕ) : Bool := 0xD800 ≤ n && n ≤ 0xDBFF

/-- The code points of a low surrogate. -/
def isLow (n : ℕ) : Bool := 0xDC00 ≤ n && n ≤ 0xDFFF

/-- The character a surrogate pair stands for. -/
def combine (hi lo : ℕ) : Option Char := charOf (0x10000 + (hi - 0xD800) * 0x400 + (lo - 0xDC00))

/-- The one-character escapes. -/
def unescape : Char → Option Char
  | '"' => some '"'
  | '\\' => some '\\'
  | '/' => some '/'
  | 'b' => some '\x08'
  | 'f' => some '\x0c'
  | 'n' => some '\n'
  | 'r' => some '\r'
  | 't' => some '\t'
  | _ => none

/-- The body of a string up to its closing quote.  A raw control character and the end of the text
are errors.  `pending` is the high surrogate just read from a `\u` escape, which only the escape of
a low surrogate may follow here. -/
def scanString : Option ℕ → List Char → Option (List Char × List Char)
  | _, [] => none
  | pending, c :: s =>
    if c = '"' then
      if pending.isSome then none else some ([], s)
    else if c = '\\' then
      match s with
      | [] => none
      | e :: s =>
        if e = 'u' then
          match s with
          | a :: b :: c :: d :: s =>
            match hex4 a b c d, pending with
            | none, _ => none
            | some lo, some hi =>
              match if isLow lo then combine hi lo else none with
              | none => none
              | some ch => (scanString none s).map fun r => (ch :: r.1, r.2)
            | some n, none =>
              if isHigh n then scanString (some n) s
              else
                match charOf n with
                | none => none
                | some ch => (scanString none s).map fun r => (ch :: r.1, r.2)
          | _ => none
        else
          match unescape e, pending with
          | some ch, none => (scanString none s).map fun r => (ch :: r.1, r.2)
          | _, _ => none
    else if c.toNat < 0x20 ∨ pending.isSome then none
    else (scanString none s).map fun r => (c :: r.1, r.2)

/-- The value of a decimal digit. -/
def digitValue (c : Char) : Option (Fin 10) :=
  if h : 48 ≤ c.toNat ∧ c.toNat < 58 then some ⟨c.toNat - 48, by omega⟩ else none

/-- The digits at the head of a text, and what follows them. -/
def scanDigits : List Char → List (Fin 10) × List Char
  | [] => ([], [])
  | c :: s =>
    match digitValue c with
    | none => ([], c :: s)
    | some d => (d :: (scanDigits s).1, (scanDigits s).2)

/-- The number a list of digits spells. -/
def ofDigits (ds : List (Fin 10)) : ℕ :=
  ds.foldl (fun (n : ℕ) (d : Fin 10) => 10 * n + d.val) 0

/-- `0|[1-9][0-9]*`: a leading zero stands alone. -/
def scanNat : List Char → Option (ℕ × List Char)
  | '0' :: s => some (0, s)
  | s => if (scanDigits s).1 = [] then none else some (ofDigits (scanDigits s).1, (scanDigits s).2)

/-- `(\.[0-9]+)?` -/
def scanFrac : List Char → List (Fin 10) × List Char
  | '.' :: s => if (scanDigits s).1 = [] then ([], '.' :: s) else scanDigits s
  | s => ([], s)

/-- The sign of an exponent, which may be missing. -/
def scanExpSign : List Char → Bool × List Char
  | '-' :: s => (true, s)
  | '+' :: s => (false, s)
  | s => (false, s)

/-- `([eE][-+]?[0-9]+)?` -/
def scanExp : List Char → Option (Bool × List (Fin 10)) × List Char
  | [] => (none, [])
  | c :: s =>
    if c = 'e' ∨ c = 'E' then
      let sign := scanExpSign s
      let ds := scanDigits sign.2
      if ds.1 = [] then (none, c :: s) else (some (sign.1, ds.1), ds.2)
    else (none, c :: s)

theorem scanExp_ne_nil (s : List Char) : ∀ e ∈ (scanExp s).1, e.2 ≠ [] := by
  intro e he
  cases s with
  | nil => simp [scanExp] at he
  | cons c s =>
    simp only [scanExp] at he
    split at he
    · split at he
      · simp at he
      · obtain rfl : _ = e := by simpa using he
        assumption
    · simp at he

/-- A number without its sign: an integer, or a float when it has a fraction or an exponent. -/
def scanUnsigned (neg : Bool) (s : List Char) : Option (Json × List Char) :=
  match scanNat s with
  | none => none
  | some (n, s) =>
    let frac := scanFrac s
    let exp := scanExp frac.2
    if h : frac.1 ≠ [] ∨ exp.1.isSome then
      some (.float ⟨neg, n, frac.1, exp.1, h, scanExp_ne_nil frac.2⟩, exp.2)
    else some (.int (if neg then -n else n), exp.2)

/-- A value that is neither a string nor a container. -/
def scanScalar : List Char → Option (Json × List Char)
  | 'n' :: 'u' :: 'l' :: 'l' :: s => some (.null, s)
  | 't' :: 'r' :: 'u' :: 'e' :: s => some (.bool true, s)
  | 'f' :: 'a' :: 'l' :: 's' :: 'e' :: s => some (.bool false, s)
  | 'N' :: 'a' :: 'N' :: s => some (.nan, s)
  | 'I' :: 'n' :: 'f' :: 'i' :: 'n' :: 'i' :: 't' :: 'y' :: s => some (.infinity false, s)
  | '-' :: 'I' :: 'n' :: 'f' :: 'i' :: 'n' :: 'i' :: 't' :: 'y' :: s => some (.infinity true, s)
  | '-' :: s => scanUnsigned true s
  | s => scanUnsigned false s

/-- `dict(pairs)`: a repeated key keeps its first place and takes the last value. -/
def insertPair (ms : List (String × Json)) (k : String) (v : Json) : List (String × Json) :=
  if k ∈ ms.map Prod.fst then ms.map fun p => if p.1 = k then (k, v) else p
  else ms ++ [(k, v)]

/-- What a reader keeps of members with repeated names: the last value at the first place. -/
def dictOf (ms : List (String × Json)) : List (String × Json) :=
  ms.foldl (fun d p => insertPair d p.1 p.2) []

mutual

/-- The scanner's `scan_once`.  `fuel` bounds the depth of the recursion. -/
def scanOnce : ℕ → List Char → Option (Json × List Char)
  | 0, _ => none
  | _ + 1, [] => none
  | fuel + 1, c :: s =>
    if c = '"' then (scanString none s).map fun r => (.str (String.ofList r.1), r.2)
    else if c = '[' then
      match skipSpace s with
      | ']' :: s' => some (.arr [], s')
      | s' => (scanElements fuel s').map fun r => (.arr r.1, r.2)
    else if c = '{' then
      match skipSpace s with
      | '}' :: s' => some (.obj [], s')
      | s' => (scanMembers fuel s').map fun r => (.obj (dictOf r.1), r.2)
    else scanScalar (c :: s)

/-- The elements of a non-empty array, up to its closing bracket. -/
def scanElements : ℕ → List Char → Option (List Json × List Char)
  | 0, _ => none
  | fuel + 1, s =>
    match scanOnce fuel s with
    | none => none
    | some (x, s) =>
      match skipSpace s with
      | ',' :: s => (scanElements fuel (skipSpace s)).map fun r => (x :: r.1, r.2)
      | ']' :: s => some ([x], s)
      | _ => none

/-- The members of a non-empty object, up to its closing brace. -/
def scanMembers : ℕ → List Char → Option (List (String × Json) × List Char)
  | 0, _ => none
  | _ + 1, [] => none
  | fuel + 1, c :: s =>
    if c ≠ '"' then none
    else
      match scanString none s with
      | none => none
      | some (k, s) =>
        match skipSpace s with
        | ':' :: s =>
          match scanOnce fuel (skipSpace s) with
          | none => none
          | some (v, s) =>
            match skipSpace s with
            | ',' :: s =>
              (scanMembers fuel (skipSpace s)).map fun r => ((String.ofList k, v) :: r.1, r.2)
            | '}' :: s => some ([(String.ofList k, v)], s)
            | _ => none
        | _ => none

end

/-- `json.loads`: one value, with nothing but white space around it. -/
def loads (s : List Char) : Option Json :=
  match scanOnce (s.length + 1) (skipSpace s) with
  | none => none
  | some (v, s) => if skipSpace s = [] then some v else none

/-! ## Well-formed values -/

mutual

/-- The keys of every object in the value are distinct, as the keys of a `dict` are. -/
def WellFormed : Json → Prop
  | .arr xs => WellFormedList xs
  | .obj ms => (ms.map Prod.fst).Nodup ∧ WellFormedMembers ms
  | _ => True

/-- The elements of an array are well formed. -/
def WellFormedList : List Json → Prop
  | [] => True
  | x :: xs => WellFormed x ∧ WellFormedList xs

/-- The members of an object are well formed. -/
def WellFormedMembers : List (String × Json) → Prop
  | [] => True
  | m :: ms => WellFormed m.2 ∧ WellFormedMembers ms

end

/-! ## The strings of a value -/

mutual

/-- `p` holds of every character of every string in the value, keys included. -/
def AllChars (p : Char → Prop) : Json → Prop
  | .str s => ∀ c ∈ s.toList, p c
  | .arr xs => AllCharsList p xs
  | .obj ms => AllCharsMembers p ms
  | _ => True

/-- The characters of the elements are as `p` says. -/
def AllCharsList (p : Char → Prop) : List Json → Prop
  | [] => True
  | x :: xs => AllChars p x ∧ AllCharsList p xs

/-- The characters of the members are as `p` says. -/
def AllCharsMembers (p : Char → Prop) : List (String × Json) → Prop
  | [] => True
  | m :: ms => (∀ c ∈ m.1.toList, p c) ∧ AllChars p m.2 ∧ AllCharsMembers p ms

end

end PyJson
