import CodexGateway.Adapter.AppScope
import CodexGateway.Library.Lines
import CodexGateway.Library.Parse
import CodexGateway.SandboxApi.Grants

/-!
# Adapter/InputMapping — the input of a Response, as the app server is given it

The items of a list are mapped in their order: the texts make one transcript, the images follow it,
and the messages of the system or the developer go to the instructions.  A list is accepted where
each of its items is well formed and something is left for the user.  Another is refused at its first
item that is not well formed, or, where all are, as a whole (`mapResponsesInput_list`).

The items are stored with the keys that were missing.  To map what has been stored gives the same
once more (`map_stored`).
-/

namespace CodexGateway.Adapter

open PyJson SandboxApi

/-! ## How Python writes a value -/

/-- Beyond ASCII, the characters that `repr` writes as they are: `str.isprintable`. -/
structure Printing where
  isPrintable : Char → Bool

/-- The last `digits` hexadecimal digits of a number. -/
def hexDigits (digits n : ℕ) : List Char :=
  (List.range digits).reverse.map fun i => hexChar (n / 16 ^ i % 16)

/-- A character in the `repr` of a text, between the quotes that are given. -/
def Printing.reprChar (p : Printing) (quote c : Char) : List Char :=
  if c = quote ∨ c = '\\' then ['\\', c]
  else if c = '\t' then ['\\', 't']
  else if c = '\n' then ['\\', 'n']
  else if c = '\r' then ['\\', 'r']
  else if c.toNat < 0x20 ∨ c.toNat = 0x7f then '\\' :: 'x' :: hexDigits 2 c.toNat
  else if c.toNat < 0x7f ∨ p.isPrintable c then [c]
  else if c.toNat < 0x100 then '\\' :: 'x' :: hexDigits 2 c.toNat
  else if c.toNat < 0x10000 then '\\' :: 'u' :: hexDigits 4 c.toNat
  else '\\' :: 'U' :: hexDigits 8 c.toNat

/-- The `repr` of a text, in double quotes where that saves an escape. -/
def Printing.reprText (p : Printing) (s : String) : List Char :=
  let quote := if '\'' ∈ s.toList ∧ '"' ∉ s.toList then '"' else '\''
  quote :: (s.toList.flatMap (p.reprChar quote) ++ [quote])

mutual

/-- `repr(value)`, as characters. -/
def Printing.reprChars (p : Printing) : Json → List Char
  | .null => "None".toList
  | .bool b => if b then "True".toList else "False".toList
  | .int i => dumpsInt i
  | .float d => dumpsDecimal d
  | .nan => "nan".toList
  | .infinity neg => dumpsSign neg ++ "inf".toList
  | .str s => p.reprText s
  | .arr [] => ['[', ']']
  | .arr (x :: xs) => '[' :: (p.reprChars x ++ p.reprElements xs)
  | .obj [] => ['\x7b', '\x7d']
  | .obj ((key, value) :: ms) =>
    '\x7b' :: (p.reprText key ++ ':' :: ' ' :: (p.reprChars value ++ p.reprMembers ms))

/-- The elements after the first, with the closing bracket. -/
def Printing.reprElements (p : Printing) : List Json → List Char
  | [] => [']']
  | x :: xs => ',' :: ' ' :: (p.reprChars x ++ p.reprElements xs)

/-- The members after the first, with the closing brace. -/
def Printing.reprMembers (p : Printing) : List (String × Json) → List Char
  | [] => ['\x7d']
  | (key, value) :: ms =>
    ',' :: ' ' :: (p.reprText key ++ ':' :: ' ' :: (p.reprChars value ++ p.reprMembers ms))

end

/-- `repr(value)` -/
def Printing.repr (p : Printing) (value : Json) : String := String.ofList (p.reprChars value)

/-- `str(value)`: a text is itself. -/
def Printing.text (p : Printing) : Json → String
  | .str s => s
  | value => p.repr value

example : (Printing.mk fun _ => true).repr (.arr [.null, .bool true, .str "it's \\ \u0007",
    .obj [("k", .arr []), ("\"'", .obj [])]]) =
    "[None, True, \"it's \\\\ \\x07\", \x7b'k': [], '\"\\'': \x7b\x7d\x7d]" := by decide

/-! ## What is raised, and what is returned -/

/-- What the mapping raises: an error of the request, or the `TypeError` of a value that cannot be
hashed. -/
inductive MappingError where
  | invalid (error : InvalidRequestError)
  | unhashable (value : Json)

/-- What the input of a Response is mapped to. -/
structure MappedInput where
  userInputs : List Members
  developerInstructions : Option String
  inputItems : List Members

/-- An input that is refused, with the parameter that is named. -/
def invalid (message param : String) (code : String) : MappingError :=
  .invalid ⟨message, some param, code⟩

/-! ## Texts -/

/-- `text.strip()` -/
def stripText (text : String) : String := String.ofList (PyLines.strip text.toList)

/-- `text.strip()` is not empty. -/
def nonblank (text : String) : Bool := stripText text ≠ ""

/-- `_join_nonempty` -/
def joinNonempty (parts : List String) : Option String :=
  let value := stripText ("\n\n".intercalate ((parts.filter nonblank).map stripText))
  if value = "" then none else some value

/-- `_text_input` -/
def textInput (text : String) : Members :=
  [("type", .str "text"), ("text", .str text), ("textElements", .arr [])]

/-- `_stringify_tool_output` -/
def stringifyToolOutput (p : Printing) : Json → String
  | .str s => s
  | value => p.repr value

/-! ## Items -/

/-- `part_type in {…}`, where the value can be hashed. -/
def typeIn (item : Members) (names : List String) : Bool :=
  (text? (item.get "type")).any (· ∈ names)

/-- `hash(value)` does not raise. -/
def hashable : Json → Bool
  | .arr _ | .obj _ => false
  | _ => true

/-- The types of a text in the input. -/
def textTypes : List String := ["input_text", "text"]

/-- The types of a text in the content of a message. -/
def partTextTypes : List String := ["input_text", "output_text", "text"]

/-- The types of an image. -/
def imageTypes : List String := ["input_image", "image_url"]

/-- The `raw_url` of `_parse_image`. -/
def rawUrl (item : Members) : Json :=
  match orElse (item.get "image_url") (item.get "url") with
  | .obj url => Members.get url "url"
  | url => url

/-- `_parse_image` -/
def parseImage (item : Members) (param : String) : Except MappingError Members :=
  match (text? (rawUrl item)).filter (· ≠ "") with
  | none =>
    if truthy (item.get "file_id") || truthy (item.get "fileId") then
      .error (invalid "Codex app-server adapter does not resolve OpenAI file IDs; provide image_url"
        param "unsupported_file_reference")
    else .error (invalid "image_url is required" param "invalid_request")
  | some url => .ok ([("type", .str "image"), ("url", .str url)] ++
      match item.get "detail" with
      | .str detail => [("detail", .str detail)]
      | _ => [])

/-- A part of a message that is kept. -/
inductive ContentPart where
  | text (text : String)
  | image (image : Members)

/-- `{param}[{index}]` -/
def indexed (param : String) (index : ℕ) : String := param ++ ("[" ++ (toString index ++ "]"))

/-- A part of the content of a message. -/
def parsePart (p : Printing) (param : String) (index : ℕ) : Json → Except MappingError ContentPart
  | .obj part =>
    let kind := Members.get part "type"
    if !hashable kind then .error (.unhashable kind)
    else if typeIn part partTextTypes then
      match Members.get part "text" with
      | .str text => .ok (.text text)
      | _ => .error (invalid (indexed param index ++ ".text must be a string")
          (indexed param index ++ ".text") "invalid_request")
    else if typeIn part imageTypes then
      match parseImage part (indexed param index) with
      | .error e => .error e
      | .ok image => .ok (.image image)
    else .error (invalid ("Unsupported message content type: " ++ p.repr kind)
      (indexed param index ++ ".type") "unsupported_content_part")
  | _ => .error (invalid (indexed param index ++ " must be an object") (indexed param index)
      "invalid_request")

/-- The text of a part. -/
def ContentPart.text? : ContentPart → Option String
  | .text s => some s
  | .image _ => none

/-- The image of a part. -/
def ContentPart.image? : ContentPart → Option Members
  | .text _ => none
  | .image ms => some ms

/-- `_parse_content` -/
def parseContent (p : Printing) (content : Json) (param : String) :
    Except MappingError (List ContentPart) :=
  match content with
  | .str text => .ok [.text text]
  | .null => .ok []
  | .arr parts => Parse.parseAll (parsePart p param) 0 parts
  | _ => .error (invalid "message content must be a string or list" param "invalid_request")

/-- What an item is mapped to. -/
structure Contribution where
  instructions : List String
  transcript : List String
  images : List Members

/-- `item_type == "message" or isinstance(role, str)` -/
def isMessage (item : Members) : Bool :=
  typeIn item ["message"] || (text? (item.get "role")).isSome

/-- The role of a message, where the default is the user's. -/
def messageRole (p : Printing) (item : Members) : String :=
  p.text (orElse (item.get "role") (.str "user"))

/-- The roles whose messages become instructions. -/
def instructionRoles : List String := ["system", "developer"]

/-- A message, whose content has been parsed. -/
def mapMessage (p : Printing) (item : Members) (param : String) (parts : List ContentPart) :
    Except MappingError Contribution :=
  let role := messageRole p item
  let texts := parts.filterMap ContentPart.text?
  let images := parts.filterMap ContentPart.image?
  let text := stripText ("\n".intercalate (texts.filter (· ≠ "")))
  if role ∈ instructionRoles then
    if images ≠ [] then
      .error (invalid (role ++ " messages cannot contain images") param "invalid_request")
    else .ok ⟨if text ≠ "" then [text] else [], [], []⟩
  else .ok ⟨[], if text ≠ "" then ["[" ++ role ++ "]\n" ++ text] else [], images⟩

/-- An item of the input. -/
def parseItem (p : Printing) (index : ℕ) : Json → Except MappingError Contribution
  | .obj item =>
    let param := indexed "input" index
    let kind := Members.get item "type"
    if isMessage item then
      match parseContent p (Members.get item "content") (param ++ ".content") with
      | .error e => .error e
      | .ok parts => mapMessage p item (param ++ ".content") parts
    else if !hashable kind then .error (.unhashable kind)
    else if typeIn item textTypes then
      match Members.get item "text" with
      | .str text => .ok ⟨[], [text], []⟩
      | _ => .error (invalid (param ++ ".text must be a string") (param ++ ".text")
          "invalid_request")
    else if typeIn item imageTypes then
      match parseImage item param with
      | .error e => .error e
      | .ok image => .ok ⟨[], [], [image]⟩
    else if typeIn item ["function_call_output"] then
      let callId := orElse (orElse (Members.get item "call_id") (Members.get item "callId"))
        (.str "unknown")
      .ok ⟨[], ["[tool output: " ++ p.text callId ++ "]\n" ++
        stringifyToolOutput p (Members.get item "output")], []⟩
    else .error (invalid ("Unsupported Responses input item type: " ++ p.repr kind)
      (param ++ ".type") "unsupported_input_item")
  | _ => .error (invalid (indexed "input" index ++ " must be an object") (indexed "input" index)
      "invalid_request")

/-! ## What is stored -/

/-- `dict.setdefault` -/
def setDefault (ms : Members) (key : String) (value : Json) : Members :=
  if (ms.lookup key).isSome then ms else ms ++ [(key, value)]

/-- `_stored_input_item` -/
def storedInputItem (uuid : String) (item : Members) : Members :=
  let stored := setDefault item "id" (.str ("item_" ++ uuid))
  if isMessage stored then
    setDefault (setDefault stored "type" (.str "message")) "status" (.str "completed")
  else stored

/-- `_input_message` -/
def inputMessage (uuid text : String) : Members :=
  [("id", .str ("msg_" ++ uuid)), ("type", .str "message"), ("status", .str "completed"),
    ("role", .str "user"),
    ("content", .arr [.obj [("type", .str "input_text"), ("text", .str text)]])]

/-- The members of an object. -/
def objOf : Json → Members
  | .obj ms => ms
  | _ => []

/-! ## The input -/

/-- The inputs of the user: the transcript, and the images after it. -/
def userInputs (contributions : List Contribution) : List Members :=
  let transcript := contributions.flatMap Contribution.transcript
  let joined := stripText ("\n\n".intercalate (transcript.filter nonblank))
  (if joined ≠ "" then [textInput joined] else []) ++ contributions.flatMap Contribution.images

/-- Nothing of the input is for the user. -/
def noContent : MappingError :=
  invalid "input contains no supported user content" "input" "invalid_request"

/-- `map_responses_input`, where `uuids` is what `uuid4` gives for each item. -/
def mapResponsesInput (p : Printing) (uuids : ℕ → String) (value : Json)
    (instructions : Option String) : Except MappingError MappedInput :=
  let given := (instructions.filter (· ≠ "")).toList.map stripText
  match value with
  | .str text =>
    let text := stripText text
    if text = "" then .error (invalid "input must not be empty" "input" "invalid_request")
    else .ok ⟨[textInput text], joinNonempty given, [inputMessage (uuids 0) text]⟩
  | .arr items =>
    match Parse.parseAll (parseItem p) 0 items with
    | .error e => .error e
    | .ok contributions =>
      if userInputs contributions = [] then .error noContent
      else .ok {
        userInputs := userInputs contributions
        developerInstructions :=
          joinNonempty (given ++ contributions.flatMap Contribution.instructions)
        inputItems := items.mapIdx fun i item => storedInputItem (uuids i) (objOf item) }
  | _ => .error (invalid "input must be a string or a list of Responses input items" "input"
      "invalid_request")

/-! ## What is meant -/

/-- An image with a URL. -/
def ImageOk (item : Members) : Prop := ∃ url, rawUrl item = .str url ∧ url ≠ ""

/-- A part of a message: a text, or an image with a URL. -/
def PartOk : Json → Prop
  | .obj part =>
    typeIn part partTextTypes = true ∧ (∃ text, Members.get part "text" = .str text) ∨
      typeIn part imageTypes = true ∧ ImageOk part
  | _ => False

/-- A part that is no image. -/
def NoImage : Json → Prop
  | .obj part => typeIn part imageTypes = false
  | _ => True

/-- The content of a message: a text, nothing, or a list of parts; without images where it goes to
the instructions. -/
def ContentOk (instruction : Bool) : Json → Prop
  | .str _ | .null => True
  | .arr parts => ∀ part ∈ parts, PartOk part ∧ (instruction = true → NoImage part)
  | _ => False

/-- An item of the input: a message, a text, an image with a URL, or the output of a tool. -/
def ItemOk (p : Printing) : Json → Prop
  | .obj item =>
    if isMessage item then
      ContentOk (decide (messageRole p item ∈ instructionRoles)) (Members.get item "content")
    else typeIn item textTypes = true ∧ (∃ text, Members.get item "text" = .str text) ∨
      typeIn item imageTypes = true ∧ ImageOk item ∨
      typeIn item ["function_call_output"] = true
  | _ => False

/-- A part with something for the user: an image, or a text that is not blank. -/
def PartForUser : Json → Prop
  | .obj part => typeIn part imageTypes = true ∨
      typeIn part partTextTypes = true ∧
        ∃ text, Members.get part "text" = .str text ∧ nonblank text = true
  | _ => False

/-- The content of a message has something for the user. -/
def ContentForUser : Json → Prop
  | .str text => nonblank text = true
  | .arr parts => ∃ part ∈ parts, PartForUser part
  | _ => False

/-- An item with something for the user, which a message to the instructions has not. -/
def ItemForUser (p : Printing) : Json → Prop
  | .obj item =>
    if isMessage item then
      messageRole p item ∉ instructionRoles ∧ ContentForUser (Members.get item "content")
    else typeIn item textTypes = true ∧
        (∃ text, Members.get item "text" = .str text ∧ nonblank text = true) ∨
      typeIn item imageTypes = true ∨ typeIn item ["function_call_output"] = true
  | _ => False

/-- The error names the place, or something in it. -/
def MappingError.Names (place : String) : MappingError → Prop
  | .invalid error => ∃ rest, error.param = some (place ++ rest)
  | .unhashable _ => True

/-! ## What is well formed is accepted, and nothing else -/

section Accepted

variable {p : Printing} {item : Members} {param place : String} {index : ℕ} {e : MappingError}

/-- A type that is one of some names is a text, and can be hashed. -/
theorem hashable_of_typeIn {names : List String} (h : typeIn item names = true) :
    hashable (item.get "type") = true := by
  rw [typeIn] at h
  cases htype : item.get "type" with
  | str s => rfl
  | arr xs => simp [htype, text?] at h
  | obj ms => simp [htype, text?] at h
  | _ => rfl

/-- The names of texts and of images are different. -/
theorem typeIn_disjoint {names names' : List String} (h : typeIn item names = true)
    (hdisjoint : ∀ name ∈ names, name ∉ names') : typeIn item names' = false := by
  rw [typeIn] at h ⊢
  cases hkind : text? (item.get "type") with
  | none => rfl
  | some kind =>
    rw [hkind] at h
    have hmem : kind ∈ names := of_decide_eq_true h
    exact decide_eq_false (hdisjoint kind hmem)

/-- What an image is read from. -/
theorem parseImage_ok_iff : (∃ image, parseImage item param = .ok image) ↔ ImageOk item := by
  rw [parseImage, ImageOk]
  constructor
  · rintro ⟨image, h⟩
    split at h
    · split_ifs at h
    · rename_i url hurl
      obtain ⟨hurl, hne⟩ := Option.filter_eq_some_iff.mp hurl
      refine ⟨url, ?_, of_decide_eq_true hne⟩
      cases hraw : rawUrl item with
      | str s =>
        rw [hraw] at hurl
        exact congrArg Json.str (Option.some.inj hurl)
      | _ =>
        rw [hraw] at hurl
        cases hurl
  · rintro ⟨url, hurl, hne⟩
    have hsome : (text? (rawUrl item)).filter (· ≠ "") = some url := by
      rw [hurl, text?, Option.filter_some, if_pos (decide_eq_true hne)]
    rw [hsome]
    exact ⟨_, rfl⟩

/-- An image that is refused is named. -/
theorem parseImage_error (h : parseImage item param = .error e) : e.Names param := by
  rw [parseImage] at h
  split at h
  · split_ifs at h
    · obtain rfl := Except.error.inj h
      exact ⟨"", by rw [String.append_empty]⟩
    · obtain rfl := Except.error.inj h
      exact ⟨"", by rw [String.append_empty]⟩
  · cases h

/-- A part that is read is well formed. -/
theorem parsePart_ok {part : Json} {y : ContentPart}
    (h : parsePart p param index part = .ok y) :
    PartOk part ∧ (y.image? = none ↔ NoImage part) := by
  cases part with
  | obj ms =>
    rw [parsePart] at h
    split_ifs at h with hhash htext himage
    · split at h
      · rename_i s hs
        obtain rfl := Except.ok.inj h
        exact ⟨.inl ⟨htext, s, hs⟩, iff_of_true rfl (typeIn_disjoint htext (by decide))⟩
      · cases h
    · split at h
      · cases h
      · rename_i image hparse
        obtain rfl := Except.ok.inj h
        refine ⟨.inr ⟨himage, parseImage_ok_iff.mp ⟨image, hparse⟩⟩,
          iff_of_false (by simp [ContentPart.image?]) ?_⟩
        rw [NoImage, himage]
        simp
  | _ => cases h

/-- A well-formed part is read. -/
theorem parsePart_returns {part : Json} (h : PartOk part) :
    ∃ y, parsePart p param index part = .ok y := by
  cases part with
  | obj ms =>
    rw [parsePart]
    rcases h with ⟨htext, s, hs⟩ | ⟨himage, hurl⟩
    · rw [hashable_of_typeIn htext, htext, hs]
      exact ⟨_, rfl⟩
    · obtain ⟨image, hparse⟩ := parseImage_ok_iff.mpr hurl
      rw [hashable_of_typeIn himage, typeIn_disjoint himage (by decide), himage, hparse]
      exact ⟨_, rfl⟩
  | _ => exact h.elim

/-- A part that is refused is named by its place. -/
theorem parsePart_error {part : Json} (h : parsePart p param index part = .error e) :
    e.Names (indexed param index) := by
  cases part with
  | obj ms =>
    rw [parsePart] at h
    split_ifs at h
    · obtain rfl := Except.error.inj h
      trivial
    · split at h
      · cases h
      · obtain rfl := Except.error.inj h
        exact ⟨".text", rfl⟩
    · split at h
      · rename_i hparse
        obtain rfl := Except.error.inj h
        exact parseImage_error hparse
      · cases h
    · obtain rfl := Except.error.inj h
      exact ⟨".type", rfl⟩
  | _ =>
    obtain rfl := Except.error.inj h
    exact ⟨"", by rw [String.append_empty]⟩

/-- What is named in a place is named in what holds it. -/
theorem MappingError.Names.within {rest : String} (h : e.Names (place ++ rest)) :
    e.Names place := by
  cases e with
  | invalid error =>
    obtain ⟨rest', h⟩ := h
    exact ⟨rest ++ rest', by rw [h, String.append_assoc]⟩
  | unhashable value => trivial

/-- Content that is read is well formed. -/
theorem parseContent_ok {content : Json} {parts : List ContentPart}
    (h : parseContent p content param = .ok parts) : ContentOk false content ∧
      (parts.filterMap ContentPart.image? = [] ↔ ContentOk true content) := by
  cases content with
  | str s =>
    obtain rfl := Except.ok.inj h
    exact ⟨trivial, iff_of_true rfl trivial⟩
  | null =>
    obtain rfl := Except.ok.inj h
    exact ⟨trivial, iff_of_true rfl trivial⟩
  | arr xs =>
    obtain ⟨hlength, hparts⟩ := Parse.parseAll_ok_iff.mp h
    have hok : ∀ part ∈ xs, PartOk part := by
      intro part hmem
      obtain ⟨n, hn⟩ := List.mem_iff_getElem?.mp hmem
      obtain ⟨y, hy⟩ := Parse.exists_of_parseAll h hn
      exact (parsePart_ok hy).1
    refine ⟨fun part hmem => ⟨hok part hmem, fun h => by cases h⟩, ?_⟩
    rw [List.filterMap_eq_nil_iff]
    constructor
    · intro hnone part hmem
      refine ⟨hok part hmem, fun _ => ?_⟩
      obtain ⟨n, hn⟩ := List.mem_iff_getElem?.mp hmem
      have hlt : n < parts.length := hlength ▸ (List.getElem?_eq_some_iff.mp hn).1
      have hy := hparts n part parts[n] hn (List.getElem?_eq_getElem hlt)
      exact (parsePart_ok hy).2.mp (hnone _ (List.getElem_mem hlt))
    · intro hall y hmem
      obtain ⟨n, hn⟩ := List.mem_iff_getElem?.mp hmem
      have hlt : n < xs.length := hlength ▸ (List.getElem?_eq_some_iff.mp hn).1
      have hy := hparts n xs[n] y (List.getElem?_eq_getElem hlt) hn
      exact (parsePart_ok hy).2.mpr ((hall _ (List.getElem_mem hlt)).2 rfl)
  | _ => cases h

/-- Well-formed content is read. -/
theorem parseContent_returns {content : Json} {b : Bool} (h : ContentOk b content) :
    ∃ parts, parseContent p content param = .ok parts := by
  cases content with
  | str s => exact ⟨_, rfl⟩
  | null => exact ⟨_, rfl⟩
  | arr xs =>
    refine Parse.parseAll_returns fun n part hn => parsePart_returns ?_
    exact (h part (List.mem_of_getElem? hn)).1
  | _ => exact h.elim

/-- Content that is refused is named. -/
theorem parseContent_error {content : Json} (h : parseContent p content param = .error e) :
    e.Names param := by
  cases content with
  | arr xs =>
    obtain ⟨before, part, after, -, -, herror⟩ := Parse.parseAll_error_iff.mp h
    exact (parsePart_error herror).within
  | str s => cases h
  | null => cases h
  | _ =>
    obtain rfl := Except.error.inj h
    exact ⟨"", by rw [String.append_empty]⟩

/-- A message that goes to the instructions may have no images. -/
theorem mapMessage_ok_iff {parts : List ContentPart} :
    (∃ y, mapMessage p item param parts = .ok y) ↔
      (messageRole p item ∈ instructionRoles → parts.filterMap ContentPart.image? = []) := by
  rw [mapMessage]
  by_cases hrole : messageRole p item ∈ instructionRoles
  · rw [if_pos hrole]
    by_cases hnone : parts.filterMap ContentPart.image? = []
    · rw [if_neg (not_not.mpr hnone)]
      exact iff_of_true ⟨_, rfl⟩ fun _ => hnone
    · rw [if_pos hnone]
      exact iff_of_false (fun ⟨y, h⟩ => by cases h) fun h => hnone (h hrole)
  · rw [if_neg hrole]
    exact iff_of_true ⟨_, rfl⟩ fun h => absurd h hrole

/-- A message that is refused is named. -/
theorem mapMessage_error {parts : List ContentPart}
    (h : mapMessage p item param parts = .error e) : e.Names param := by
  rw [mapMessage] at h
  split_ifs at h
  obtain rfl := Except.error.inj h
  exact ⟨"", by rw [String.append_empty]⟩

/-- **An item is accepted where it is well formed.** -/
theorem parseItem_ok_iff {value : Json} :
    (∃ y, parseItem p index value = .ok y) ↔ ItemOk p value := by
  cases value with
  | obj ms =>
    rw [parseItem, ItemOk]
    dsimp only
    by_cases hmessage : isMessage ms = true
    · rw [if_pos hmessage, if_pos hmessage]
      constructor
      · rintro ⟨y, h⟩
        split at h
        · cases h
        · rename_i parts hparts
          obtain ⟨hok, himages⟩ := parseContent_ok hparts
          have hnone := mapMessage_ok_iff.mp ⟨y, h⟩
          by_cases hrole : messageRole p ms ∈ instructionRoles
          · rw [decide_eq_true hrole]
            exact himages.mp (hnone hrole)
          · rw [decide_eq_false hrole]
            exact hok
      · intro h
        obtain ⟨parts, hparts⟩ := @parseContent_returns p (indexed "input" index ++ ".content")
          (Members.get ms "content") _ h
        rw [hparts]
        refine mapMessage_ok_iff.mpr fun hrole => ?_
        rw [decide_eq_true hrole] at h
        exact (parseContent_ok hparts).2.mpr h
    · rw [if_neg hmessage, if_neg hmessage]
      constructor
      · rintro ⟨y, h⟩
        split_ifs at h with hhash htext himage htool
        · split at h
          · rename_i s hs
            exact .inl ⟨htext, s, hs⟩
          · cases h
        · split at h
          · cases h
          · rename_i image hparse
            exact .inr (.inl ⟨himage, parseImage_ok_iff.mp ⟨image, hparse⟩⟩)
        · exact .inr (.inr htool)
      · rintro (⟨htext, s, hs⟩ | ⟨himage, hurl⟩ | htool)
        · rw [hashable_of_typeIn htext, htext, hs]
          exact ⟨_, rfl⟩
        · obtain ⟨image, hparse⟩ := parseImage_ok_iff.mpr hurl
          rw [hashable_of_typeIn himage, typeIn_disjoint himage (by decide), himage, hparse]
          exact ⟨_, rfl⟩
        · rw [hashable_of_typeIn htool, typeIn_disjoint htool (by decide),
            typeIn_disjoint htool (by decide), htool]
          exact ⟨_, rfl⟩
  | _ =>
    refine iff_of_false ?_ not_false
    rintro ⟨y, h⟩
    cases h

/-- An item that is refused is named by its place. -/
theorem parseItem_error {value : Json} (h : parseItem p index value = .error e) :
    e.Names (indexed "input" index) := by
  cases value with
  | obj ms =>
    rw [parseItem] at h
    dsimp only at h
    split_ifs at h
    · split at h
      · rename_i hcontent
        obtain rfl := Except.error.inj h
        exact (parseContent_error hcontent).within
      · exact (mapMessage_error h).within
    · obtain rfl := Except.error.inj h
      trivial
    · split at h
      · cases h
      · obtain rfl := Except.error.inj h
        exact ⟨".text", rfl⟩
    · split at h
      · rename_i hparse
        obtain rfl := Except.error.inj h
        exact parseImage_error hparse
      · cases h
    · obtain rfl := Except.error.inj h
      exact ⟨".type", rfl⟩
  | _ =>
    obtain rfl := Except.error.inj h
    exact ⟨"", by rw [String.append_empty]⟩

end Accepted

/-! ## What is left for the user -/

section ForUser

variable {p : Printing} {item : Members} {param : String} {index : ℕ}

/-- A text strips to nothing where it is all white space. -/
theorem strip_eq_nil_iff {text : List Char} :
    PyLines.strip text = [] ↔ ∀ c ∈ text, PyLines.isSpace c = true := by
  constructor
  · intro h c hc
    obtain ⟨a, b, htext, ha, hb⟩ := PyLines.exists_strip text
    rw [h, List.append_nil] at htext
    rw [htext] at hc
    rcases List.mem_append.mp hc with hmem | hmem
    · exact ha c hmem
    · exact hb c hmem
  · intro h
    rw [PyLines.strip, PyLines.lstrip, List.dropWhile_eq_nil_iff.mpr h]
    rfl

/-- A text is not blank where one of its characters is no white space. -/
theorem nonblank_iff {text : String} :
    nonblank text = true ↔ ∃ c ∈ text.toList, PyLines.isSpace c = false := by
  rw [nonblank, decide_eq_true_iff, stripText, ne_eq, String.ofList_eq_empty_iff,
    strip_eq_nil_iff]
  simp

/-- A text is blank where its parts are. -/
theorem nonblank_append {a b : String} :
    nonblank (a ++ b) = true ↔ nonblank a = true ∨ nonblank b = true := by
  simp only [nonblank_iff, String.toList_append, List.mem_append, or_and_right, exists_or]

/-- What is joined by white space is blank where everything is. -/
theorem nonblank_intercalate {sep : String} (hsep : nonblank sep = false) (texts : List String) :
    nonblank (sep.intercalate texts) = true ↔ ∃ text ∈ texts, nonblank text = true := by
  induction texts with
  | nil => simp [nonblank_iff]
  | cons text texts ih =>
    cases texts with
    | nil => simp
    | cons next rest =>
      rw [String.intercalate_cons_cons, nonblank_append, nonblank_append, hsep, ih,
        List.exists_mem_cons_iff]
      simp

/-- A parsed part with something for the user. -/
def ContentPart.ForUser : ContentPart → Prop
  | .text s => nonblank s = true
  | .image _ => True

/-- An item has something for the user. -/
def Contribution.ForUser (y : Contribution) : Prop :=
  (∃ text ∈ y.transcript, nonblank text = true) ∨ y.images ≠ []

/-- A part is for the user where it has a text or an image. -/
theorem parsePart_forUser {part : Json} {y : ContentPart}
    (h : parsePart p param index part = .ok y) : y.ForUser ↔ PartForUser part := by
  cases part with
  | obj ms =>
    rw [parsePart] at h
    split_ifs at h with hhash htext himage
    · split at h
      · rename_i s hs
        obtain rfl := Except.ok.inj h
        have hnoimage : typeIn ms imageTypes = false := typeIn_disjoint htext (by decide)
        simp [ContentPart.ForUser, PartForUser, hnoimage, htext, hs]
      · cases h
    · split at h
      · cases h
      · obtain rfl := Except.ok.inj h
        exact iff_of_true trivial (.inl himage)
  | _ => cases h

/-- Content is for the user where one of its parts is. -/
theorem parseContent_forUser {content : Json} {parts : List ContentPart}
    (h : parseContent p content param = .ok parts) :
    (∃ part ∈ parts, part.ForUser) ↔ ContentForUser content := by
  cases content with
  | str s =>
    obtain rfl := Except.ok.inj h
    simp [ContentPart.ForUser, ContentForUser]
  | null =>
    obtain rfl := Except.ok.inj h
    simp [ContentForUser]
  | arr xs =>
    obtain ⟨hlength, hparts⟩ := Parse.parseAll_ok_iff.mp h
    constructor
    · rintro ⟨y, hmem, hy⟩
      obtain ⟨n, hn⟩ := List.mem_iff_getElem?.mp hmem
      have hlt : n < xs.length := hlength ▸ (List.getElem?_eq_some_iff.mp hn).1
      have hparse := hparts n xs[n] y (List.getElem?_eq_getElem hlt) hn
      exact ⟨xs[n], List.getElem_mem hlt, (parsePart_forUser hparse).mp hy⟩
    · rintro ⟨part, hmem, hpart⟩
      obtain ⟨n, hn⟩ := List.mem_iff_getElem?.mp hmem
      have hlt : n < parts.length := hlength ▸ (List.getElem?_eq_some_iff.mp hn).1
      have hparse := hparts n part parts[n] hn (List.getElem?_eq_getElem hlt)
      exact ⟨parts[n], List.getElem_mem hlt, (parsePart_forUser hparse).mpr hpart⟩
  | _ => cases h

/-- The text of a message is empty where each of its texts is blank. -/
theorem messageText_ne_iff {texts : List String} :
    stripText ("\n".intercalate (texts.filter (· ≠ ""))) ≠ "" ↔
      ∃ text ∈ texts, nonblank text = true := by
  have hblank : nonblank "" = false := by decide
  have hstrip (text : String) : stripText text ≠ "" ↔ nonblank text = true := by
    rw [nonblank, decide_eq_true_iff]
  rw [hstrip, nonblank_intercalate (by decide)]
  constructor
  · rintro ⟨text, hmem, htext⟩
    exact ⟨text, (List.mem_filter.mp hmem).1, htext⟩
  · rintro ⟨text, hmem, htext⟩
    refine ⟨text, List.mem_filter.mpr ⟨hmem, decide_eq_true ?_⟩, htext⟩
    rintro rfl
    rw [hblank] at htext
    cases htext

/-- A part is for the user by its text or as an image. -/
theorem forUser_parts {parts : List ContentPart} : (∃ part ∈ parts, part.ForUser) ↔
    (∃ text ∈ parts.filterMap ContentPart.text?, nonblank text = true) ∨
      parts.filterMap ContentPart.image? ≠ [] := by
  induction parts with
  | nil => simp
  | cons part parts ih =>
    rw [List.exists_mem_cons_iff, ih]
    cases part with
    | text s => simp [ContentPart.ForUser, ContentPart.text?, ContentPart.image?, or_assoc]
    | image ms => simp [ContentPart.ForUser, ContentPart.text?, ContentPart.image?]

/-- A message is for the user unless it is an instruction or has nothing for one. -/
theorem mapMessage_forUser {parts : List ContentPart} {y : Contribution}
    (h : mapMessage p item param parts = .ok y) :
    y.ForUser ↔ messageRole p item ∉ instructionRoles ∧ ∃ part ∈ parts, part.ForUser := by
  rw [mapMessage] at h
  by_cases hrole : messageRole p item ∈ instructionRoles
  · rw [if_pos hrole] at h
    split_ifs at h
    · obtain rfl := Except.ok.inj h
      simp [Contribution.ForUser, hrole]
    · obtain rfl := Except.ok.inj h
      simp [Contribution.ForUser, hrole]
  · rw [if_neg hrole] at h
    rw [forUser_parts, ← messageText_ne_iff]
    generalize stripText ("\n".intercalate
      ((parts.filterMap ContentPart.text?).filter (· ≠ ""))) = text at h ⊢
    have htext : nonblank ("[" ++ messageRole p item ++ "]\n" ++ text) = true :=
      nonblank_append.mpr (.inl (nonblank_append.mpr (.inl (nonblank_append.mpr
        (.inl (by decide))))))
    obtain rfl := Except.ok.inj h
    split_ifs with hne
    · simp [Contribution.ForUser, hrole, hne, htext]
    · simp [Contribution.ForUser, hrole, not_not.mp hne]

/-- An item is for the user where its source is. -/
theorem parseItem_forUser {value : Json} {y : Contribution}
    (h : parseItem p index value = .ok y) : y.ForUser ↔ ItemForUser p value := by
  cases value with
  | obj ms =>
    rw [parseItem] at h
    rw [ItemForUser]
    dsimp only at h
    split_ifs at h ⊢ with hmessage hhash htext himage htool
    · split at h
      · cases h
      · rename_i parts hparts
        rw [mapMessage_forUser h, parseContent_forUser hparts]
    · split at h
      · rename_i s hs
        obtain rfl := Except.ok.inj h
        have hnoimage : typeIn ms imageTypes = false := typeIn_disjoint htext (by decide)
        have hnotool : typeIn ms ["function_call_output"] = false :=
          typeIn_disjoint htext (by decide)
        simp [Contribution.ForUser, htext, hs, hnoimage, hnotool]
      · cases h
    · split at h
      · cases h
      · obtain rfl := Except.ok.inj h
        exact iff_of_true (.inr (by simp)) (.inr (.inl himage))
    · obtain rfl := Except.ok.inj h
      refine iff_of_true (.inl ⟨_, List.mem_singleton_self _, ?_⟩) (.inr (.inr htool))
      exact nonblank_append.mpr (.inl (nonblank_append.mpr (.inl (nonblank_append.mpr
        (.inl (by decide))))))
  | _ => cases h

/-- Something is left for the user where an item has something. -/
theorem userInputs_ne_nil_iff {ys : List Contribution} :
    userInputs ys ≠ [] ↔ ∃ y ∈ ys, y.ForUser := by
  have hjoined : stripText ("\n\n".intercalate
      ((ys.flatMap Contribution.transcript).filter nonblank)) ≠ "" ↔
      ∃ y ∈ ys, ∃ text ∈ y.transcript, nonblank text = true := by
    have hstrip (text : String) : stripText text ≠ "" ↔ nonblank text = true := by
      rw [nonblank, decide_eq_true_iff]
    rw [hstrip, nonblank_intercalate (by decide)]
    constructor
    · rintro ⟨text, hmem, -⟩
      obtain ⟨hmem, htext⟩ := List.mem_filter.mp hmem
      obtain ⟨y, hy, hmem⟩ := List.mem_flatMap.mp hmem
      exact ⟨y, hy, text, hmem, htext⟩
    · rintro ⟨y, hy, text, hmem, htext⟩
      exact ⟨text, List.mem_filter.mpr ⟨List.mem_flatMap.mpr ⟨y, hy, hmem⟩, htext⟩, htext⟩
  have himages : ys.flatMap Contribution.images ≠ [] ↔ ∃ y ∈ ys, y.images ≠ [] := by
    rw [ne_eq, List.flatMap_eq_nil_iff]
    simp
  have hsplit : (∃ y ∈ ys, y.ForUser) ↔
      (∃ y ∈ ys, ∃ text ∈ y.transcript, nonblank text = true) ∨ ∃ y ∈ ys, y.images ≠ [] := by
    simp only [Contribution.ForUser, and_or_left, exists_or]
  rw [hsplit, ← hjoined, ← himages, userInputs]
  split_ifs with hne
  · simp [hne]
  · simp [hne]

end ForUser

/-! ## The main results -/

section Items

variable {p : Printing} {xs : List Json} {ys : List Contribution}

/-- Items that are read are well formed. -/
theorem itemOk_of_parseAll (h : Parse.parseAll (parseItem p) 0 xs = .ok ys) :
    ∀ item ∈ xs, ItemOk p item := by
  intro item hmem
  obtain ⟨n, hn⟩ := List.mem_iff_getElem?.mp hmem
  exact parseItem_ok_iff.mp (Parse.exists_of_parseAll h hn)

/-- Something for the user is mapped from an item that has something for the user. -/
theorem forUser_parseAll (h : Parse.parseAll (parseItem p) 0 xs = .ok ys) :
    (∃ y ∈ ys, y.ForUser) ↔ ∃ item ∈ xs, ItemForUser p item := by
  obtain ⟨hlength, hitems⟩ := Parse.parseAll_ok_iff.mp h
  constructor
  · rintro ⟨y, hmem, hy⟩
    obtain ⟨n, hn⟩ := List.mem_iff_getElem?.mp hmem
    have hlt : n < xs.length := hlength ▸ (List.getElem?_eq_some_iff.mp hn).1
    have hparse := hitems n xs[n] y (List.getElem?_eq_getElem hlt) hn
    exact ⟨xs[n], List.getElem_mem hlt, (parseItem_forUser hparse).mp hy⟩
  · rintro ⟨item, hmem, hitem⟩
    obtain ⟨n, hn⟩ := List.mem_iff_getElem?.mp hmem
    have hlt : n < ys.length := hlength ▸ (List.getElem?_eq_some_iff.mp hn).1
    have hparse := hitems n item ys[n] hn (List.getElem?_eq_getElem hlt)
    exact ⟨ys[n], List.getElem_mem hlt, (parseItem_forUser hparse).mpr hitem⟩

end Items

/-- **A list is accepted just where each of its items is well formed and one of them has something
for the user.  Another list is refused as a whole where its items are well formed, with an error that
names the input and no item; else it is refused for its first item that is not well formed, which the
error names, or with the `TypeError` of a type that cannot be hashed.** -/
theorem mapResponsesInput_list (p : Printing) (uuids : ℕ → String) (items : List Json)
    (instructions : Option String) :
    ((∃ r, mapResponsesInput p uuids (.arr items) instructions = .ok r) ↔
      (∀ item ∈ items, ItemOk p item) ∧ ∃ item ∈ items, ItemForUser p item) ∧
    ∀ e, mapResponsesInput p uuids (.arr items) instructions = .error e →
      ((∀ item ∈ items, ItemOk p item) ∧ (∀ item ∈ items, ¬ ItemForUser p item) ∧
        e = noContent) ∨
      ∃ before item after, items = before ++ item :: after ∧ (∀ other ∈ before, ItemOk p other) ∧
        ¬ ItemOk p item ∧ e.Names (indexed "input" before.length) := by
  rw [mapResponsesInput]
  cases hparse : Parse.parseAll (parseItem p) 0 items with
  | error e =>
    obtain ⟨before, item, after, rfl, ⟨ys, hbefore⟩, hitem⟩ := Parse.parseAll_error_iff.mp hparse
    rw [Nat.zero_add] at hitem
    have hbad : ¬ ItemOk p item := fun h => by
      obtain ⟨y, hy⟩ := @parseItem_ok_iff p before.length item |>.mpr h
      rw [hitem] at hy
      cases hy
    refine ⟨iff_of_false (fun ⟨r, h⟩ => by cases h) fun h => hbad (h.1 item (by simp)),
      fun e' h => .inr ⟨before, item, after, rfl, itemOk_of_parseAll hbefore, hbad, ?_⟩⟩
    obtain rfl := Except.error.inj h
    exact parseItem_error hitem
  | ok ys =>
    dsimp only
    have hok := itemOk_of_parseAll hparse
    have hnil := userInputs_ne_nil_iff.trans (forUser_parseAll hparse)
    split_ifs with hempty
    · refine ⟨iff_of_false (fun ⟨r, h⟩ => by cases h) fun h => hnil.mpr h.2 hempty,
        fun e h => .inl ⟨hok, fun item hmem hitem => ?_, (Except.error.inj h).symm⟩⟩
      exact hnil.mpr ⟨item, hmem, hitem⟩ hempty
    · exact ⟨iff_of_true ⟨_, rfl⟩ ⟨hok, hnil.mp hempty⟩, fun e h => by cases h⟩

/-! ## What has been stored is mapped the same -/

section Stored

variable {p : Printing} {ms : Members} {index : ℕ} {key : String}

/-- A default is of its own key. -/
theorem get_setDefault {value : Json} {other : String} (hne : other ≠ key) :
    Members.get (setDefault ms key value) other = ms.get other := by
  rw [setDefault]
  split_ifs
  · rfl
  · rw [Members.get, List.lookup_append, lookup_pair, if_neg hne, List.lookup_nil,
      Option.or_none, Members.get]

/-- A default gives the key a value. -/
theorem lookup_setDefault (ms : Members) (key : String) (value : Json) :
    ((setDefault ms key value).lookup key).isSome = true := by
  rw [setDefault]
  split_ifs with h
  · exact h
  · simp

/-- A default leaves a value alone. -/
theorem setDefault_of_isSome {value : Json} (h : (ms.lookup key).isSome = true) :
    setDefault ms key value = ms := by rw [setDefault, if_pos h]

/-- A default takes no value away. -/
theorem lookup_setDefault_mono {other : String} {value : Json}
    (h : (ms.lookup other).isSome = true) :
    ((setDefault ms key value).lookup other).isSome = true := by
  rw [setDefault]
  split_ifs
  · exact h
  · rw [List.lookup_append]
    obtain ⟨v, hv⟩ := Option.isSome_iff_exists.mp h
    simp [hv]

/-- Whether an item is a message depends on its type and role. -/
theorem isMessage_congr {ms' : Members} (htype : Members.get ms' "type" = ms.get "type")
    (hrole : Members.get ms' "role" = ms.get "role") : isMessage ms' = isMessage ms := by
  simp only [isMessage, typeIn, htype, hrole]

/-- A message stays one where its type is filled in. -/
theorem isMessage_setDefault (h : isMessage ms = true) :
    isMessage (setDefault ms "type" (.str "message")) = true := by
  by_cases htype : (ms.lookup "type").isSome = true
  · rwa [setDefault_of_isSome htype]
  · have hnull : ms.get "type" = .null := by
      rw [Members.get, Option.not_isSome_iff_eq_none.mp htype]
      rfl
    have hrole : (text? (ms.get "role")).isSome = true := by
      simpa [isMessage, typeIn, hnull, text?] using h
    rw [isMessage, get_setDefault (by decide), hrole, Bool.or_true]

section Item

variable (uuid : String)

/-- What is stored: the item, with the defaults of its kind. -/
theorem storedInputItem_eq (ms : Members) : storedInputItem uuid ms =
    if isMessage ms then setDefault (setDefault (setDefault ms "id" (.str ("item_" ++ uuid)))
      "type" (.str "message")) "status" (.str "completed")
    else setDefault ms "id" (.str ("item_" ++ uuid)) := by
  rw [storedInputItem, isMessage_congr (get_setDefault (by decide)) (get_setDefault (by decide))]

/-- The other fields are stored as they are. -/
theorem get_stored (hid : key ≠ "id") (htype : key ≠ "type") (hstatus : key ≠ "status") :
    Members.get (storedInputItem uuid ms) key = ms.get key := by
  rw [storedInputItem_eq]
  split_ifs
  · rw [get_setDefault hstatus, get_setDefault htype, get_setDefault hid]
  · rw [get_setDefault hid]

/-- The type of a call is stored as it is. -/
theorem type_stored (h : isMessage ms = false) :
    Members.get (storedInputItem uuid ms) "type" = ms.get "type" := by
  rw [storedInputItem_eq, if_neg (by simp [h]), get_setDefault (by decide)]

/-- A message is stored as one. -/
theorem isMessage_stored (ms : Members) : isMessage (storedInputItem uuid ms) = isMessage ms := by
  cases h : isMessage ms with
  | false =>
    rw [isMessage_congr (type_stored uuid h) (get_stored uuid (by decide) (by decide) (by decide)),
      h]
  | true =>
    rw [storedInputItem_eq, if_pos h,
      isMessage_congr (get_setDefault (by decide)) (get_setDefault (by decide))]
    refine isMessage_setDefault ?_
    rw [isMessage_congr (get_setDefault (by decide)) (get_setDefault (by decide)), h]

/-- What has been stored is stored as it is. -/
theorem stored_stored (uuid' : String) :
    storedInputItem uuid' (storedInputItem uuid ms) = storedInputItem uuid ms := by
  have hid : ((storedInputItem uuid ms).lookup "id").isSome = true := by
    rw [storedInputItem_eq]
    split_ifs
    · exact lookup_setDefault_mono (lookup_setDefault_mono (lookup_setDefault ..))
    · exact lookup_setDefault ..
  rw [storedInputItem_eq, isMessage_stored, setDefault_of_isSome hid]
  split_ifs with hmessage
  · have htype : ((storedInputItem uuid ms).lookup "type").isSome = true := by
      rw [storedInputItem_eq, if_pos hmessage]
      exact lookup_setDefault_mono (lookup_setDefault ..)
    have hstatus : ((storedInputItem uuid ms).lookup "status").isSome = true := by
      rw [storedInputItem_eq, if_pos hmessage]
      exact lookup_setDefault ..
    rw [setDefault_of_isSome htype, setDefault_of_isSome hstatus]
  · rfl

/-- What has been stored is mapped as it was. -/
theorem parseItem_stored (ms : Members) :
    parseItem p index (.obj (storedInputItem uuid ms)) = parseItem p index (.obj ms) := by
  have hget (key : String) (hkey : key ∈ ["role", "content", "text", "image_url", "url", "detail",
      "file_id", "fileId", "call_id", "callId", "output"]) :
      Members.get (storedInputItem uuid ms) key = Members.get ms key := by
    refine get_stored uuid ?_ ?_ ?_
    · rintro rfl
      exact absurd hkey (by decide)
    · rintro rfl
      exact absurd hkey (by decide)
    · rintro rfl
      exact absurd hkey (by decide)
  have hmap (param : String) (parts : List ContentPart) :
      mapMessage p (storedInputItem uuid ms) param parts = mapMessage p ms param parts := by
    rw [mapMessage, mapMessage, messageRole, messageRole, hget "role" (by decide)]
  have himage (param : String) :
      parseImage (storedInputItem uuid ms) param = parseImage ms param := by
    rw [parseImage, parseImage, rawUrl, rawUrl, hget "image_url" (by decide),
      hget "url" (by decide), hget "detail" (by decide), hget "file_id" (by decide),
      hget "fileId" (by decide)]
  rw [parseItem, parseItem, isMessage_stored]
  cases hmessage : isMessage ms with
  | true => simp only [hmap, hget "content" (by decide), if_true]
  | false =>
    have htype := type_stored uuid hmessage
    have htypeIn (names : List String) :
        typeIn (storedInputItem uuid ms) names = typeIn ms names := by
      rw [typeIn, typeIn, htype]
    simp only [htypeIn, htype, himage, hget "text" (by decide), hget "call_id" (by decide),
      hget "callId" (by decide), hget "output" (by decide), Bool.false_eq_true, if_false]

end Item

end Stored

/-- **To map what has been stored gives the same once more**, whatever ids would be given out. -/
theorem map_stored {p : Printing} {uuids : ℕ → String} {items : List Json}
    {instructions : Option String} {r : MappedInput}
    (h : mapResponsesInput p uuids (.arr items) instructions = .ok r) (uuids' : ℕ → String) :
    mapResponsesInput p uuids' (.arr (r.inputItems.map Json.obj)) instructions = .ok r := by
  rw [mapResponsesInput] at h
  split at h
  · cases h
  · rename_i ys hparse
    have hobj : ∀ item ∈ items, Json.obj (objOf item) = item := by
      intro item hmem
      have hitem := itemOk_of_parseAll hparse item hmem
      cases item with
      | obj ms => rfl
      | _ => exact hitem.elim
    split_ifs at h with hempty
    obtain rfl := Except.ok.inj h
    have hlist : (items.mapIdx fun i item => storedInputItem (uuids i) (objOf item)).map Json.obj =
        items.mapIdx fun i item => Json.obj (storedInputItem (uuids (0 + i)) (objOf item)) := by
      refine List.ext_getElem? fun n => ?_
      rw [List.getElem?_map, List.getElem?_mapIdx, List.getElem?_mapIdx, Option.map_map,
        Nat.zero_add]
      rfl
    have hparse' : Parse.parseAll (parseItem p) 0
        ((items.mapIdx fun i item => storedInputItem (uuids i) (objOf item)).map Json.obj) =
          .ok ys := by
      rw [hlist, ← hparse]
      refine Parse.parseAll_mapIdx
        (g := fun n item => Json.obj (storedInputItem (uuids n) (objOf item)))
        fun n item hmem => ?_
      rw [parseItem_stored, hobj item hmem]
    have hitems : ((items.mapIdx fun i item => storedInputItem (uuids i) (objOf item)).map
        Json.obj).mapIdx (fun i item => storedInputItem (uuids' i) (objOf item)) =
          items.mapIdx fun i item => storedInputItem (uuids i) (objOf item) := by
      refine List.ext_getElem? fun n => ?_
      rw [List.getElem?_mapIdx, List.getElem?_map, List.getElem?_mapIdx]
      cases items[n]? with
      | none => rfl
      | some item => exact congrArg some (stored_stored _ _)
    rw [mapResponsesInput]
    simp only [hparse', if_neg hempty, hitems]

/-! ## An input -/

/-- Only ASCII is written as it is. -/
def noPrinting : Printing := ⟨fun _ => false⟩

/-- A text, and a message with an image. -/
def sampleInput : List Json :=
  [.obj [("type", .str "input_text"), ("text", .str " hello ")],
    .obj [("role", .str "user"), ("content", .arr
      [.obj [("type", .str "input_image"), ("image_url", .str "data:,")]])]]

/-- Each item of a sample is stored and read again. -/
theorem map_stored_sample : ∃ r,
    mapResponsesInput noPrinting toString (.arr sampleInput) none = .ok r ∧
      mapResponsesInput noPrinting (fun _ => "") (.arr (r.inputItems.map Json.obj)) none =
        .ok r := by
  have hok : (mapResponsesInput noPrinting toString (.arr sampleInput) none).toOption.isSome :=
    by decide +kernel
  cases h : mapResponsesInput noPrinting toString (.arr sampleInput) none with
  | error e =>
    rw [h] at hok
    cases hok
  | ok r => exact ⟨r, rfl, map_stored h _⟩

end CodexGateway.Adapter
