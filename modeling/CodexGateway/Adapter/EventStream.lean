import Mathlib.Data.List.ReduceOption
import CodexGateway.Library.JsonCut
import CodexGateway.Library.Lines
import CodexGateway.Worker.AgentEvent

/-!
# Adapter/EventStream — the Worker's events as the Responses Adapter reads them

`sseJson` collects the `data:` lines of a frame and reads them as one JSON value; `events`
validates each value as an `AgentEvent`.  The lines are those of `str.splitlines`, so a frame is
whole only if the printed event holds none of its line breaks.  JSON escapes the ASCII ones and
leaves `Separator` as they are: a stream comes through exactly when no event has one of those in a
string (`events_eventSse_iff`).
-/

namespace CodexGateway.Adapter

open PyJson PyLines Worker

/-! ## The decoder -/

/-- What an asynchronous generator yields, and the exception that ends it, if one does. -/
structure Yielded (α ε : Type) where
  items : List α
  error : Option ε

/-- A value is yielded before the others. -/
def Yielded.cons {α ε : Type} (a : α) (y : Yielded α ε) : Yielded α ε := ⟨a :: y.items, y.error⟩

/-- What the stream raises. -/
inductive StreamError where
  | jsonDecodeError
  | validationError
deriving DecidableEq

/-- `line.removeprefix("data:").lstrip()`, for a line that starts with `data:`. -/
def dataField (line : List Char) : Option (List Char) :=
  if "data:".toList <+: line then some (lstrip (line.drop 5)) else none

/-- `_sse_json` over the lines still to come, with the `data_lines` collected so far.  A value that
is not an object is passed over. -/
def sseJson (dataLines : List (List Char)) : List (List Char) → Yielded Dict StreamError
  | [] =>
    if dataLines = [] then ⟨[], none⟩
    else
      match loadDict (['\n'].intercalate dataLines) with
      | .error => ⟨[], some .jsonDecodeError⟩
      | .dict value => ⟨[value], none⟩
      | .other => ⟨[], none⟩
  | line :: lines =>
    if line = [] then
      if dataLines = [] then sseJson [] lines
      else
        match loadDict (['\n'].intercalate dataLines) with
        | .error => ⟨[], some .jsonDecodeError⟩
        | .dict value => (sseJson [] lines).cons value
        | .other => sseJson [] lines
    else
      match dataField line with
      | some data => sseJson (dataLines ++ [data]) lines
      | none => sseJson dataLines lines

/-- `AgentEvent.model_validate` over the payloads of a stream that ends with `error`. -/
def validateAll (coerceId : Json → Option ℕ) (error : Option StreamError) :
    List Dict → Yielded AgentEvent StreamError
  | [] => ⟨[], error⟩
  | payload :: payloads =>
    match AgentEvent.modelValidate coerceId payload with
    | none => ⟨[], some .validationError⟩
    | some event => (validateAll coerceId error payloads).cons event

/-- `HttpSandboxClient.events`, for the text of a response. -/
def events (coerceId : Json → Option ℕ) (text : List Char) : Yielded AgentEvent StreamError :=
  let payloads := sseJson [] (splitlines text)
  validateAll coerceId payloads.error payloads.items

/-! ## Separators -/

/-- The line breaks of `str.splitlines` that JSON leaves unescaped. -/
def Separator (c : Char) : Prop := c = '\u0085' ∨ c = '\u2028' ∨ c = '\u2029'

instance : DecidablePred Separator := fun c => by unfold Separator; infer_instance

/-- No string of the event's data, key or value, at any depth, has a separator. -/
def Unbroken (event : AgentEvent) : Prop := AllChars (fun c => ¬ Separator c) event.data.toJson

theorem not_break_of_any {l : List Char} (h : l.any isBreak = false) :
    ∀ c ∈ l, isBreak c = false := fun c hc => Bool.eq_false_iff.mpr (List.any_eq_false.mp h c hc)

theorem not_separator_of_any {l : List Char} (h : l.any (fun c => decide (Separator c)) = false) :
    ∀ c ∈ l, ¬ Separator c := fun c hc => mt decide_eq_true (List.any_eq_false.mp h c hc)

theorem isBreak_of_separator {c : Char} (h : Separator c) : isBreak c = true ∧ c ≠ '\r' := by
  rcases h with rfl | rfl | rfl <;> decide

theorem separator_outside_ascii {c : Char} (h : decide (Separator c) = true) : 0x80 ≤ c.toNat := by
  rcases of_decide_eq_true h with rfl | rfl | rfl <;> decide

/-- Beyond the control characters the separators are the only line breaks. -/
theorem separator_of_isBreak {c : Char} (hc : 0x20 ≤ c.toNat) (h : isBreak c = true) :
    Separator c := by
  have hne : ∀ d : Char, d.toNat < 0x20 → c ≠ d := fun d hd he => by subst he; omega
  simp only [isBreak, Bool.or_eq_true, decide_eq_true_eq] at h
  rcases h with ((((((((( h | h) | h) | h) | h) | h) | h) | h) | h) | h)
  · exact absurd h (hne _ (by decide))
  · exact absurd h (hne _ (by decide))
  · exact absurd h (hne _ (by decide))
  · exact absurd h (hne _ (by decide))
  · exact absurd h (hne _ (by decide))
  · exact absurd h (hne _ (by decide))
  · exact absurd h (hne _ (by decide))
  · exact .inl h
  · exact .inr (.inl h)
  · exact .inr (.inr h)

theorem isBreak_of_ascii {c : Char} (h : 0x20 ≤ c.toNat ∧ c.toNat < 0x80) : isBreak c = false := by
  refine Bool.eq_false_iff.mpr fun hb => ?_
  have := separator_outside_ascii (decide_eq_true (separator_of_isBreak h.1 hb))
  omega

theorem isBreak_of_printed {c : Char} (h : Printed (fun c => ¬ Separator c) c) :
    isBreak c = false := by
  refine Bool.eq_false_iff.mpr fun hb => ?_
  have hs := separator_of_isBreak h.1 hb
  have hge := separator_outside_ascii (decide_eq_true hs)
  exact h.2.elim (fun hlt => by omega) fun hn => hn hs

/-! ## One frame -/

theorem dataField_data {c : Char} (h : PyLines.isSpace c = false) (s : List Char) :
    dataField ("data: ".toList ++ c :: s) = some (c :: s) := by
  have hpre : "data:".toList <+: "data: ".toList ++ c :: s := ⟨' ' :: c :: s, rfl⟩
  rw [dataField, if_pos hpre]
  have hspace : PyLines.isSpace ' ' = true := by decide
  exact congrArg some (show lstrip (' ' :: c :: s) = c :: s by simp [lstrip, h, hspace])

theorem sseJson_empty (lines : List (List Char)) : sseJson [] ([] :: lines) = sseJson [] lines := by
  simp [sseJson]

/-- A line that begins with neither `data:` nor a line break is passed over. -/
theorem sseJson_other {c : Char} (hc : c ≠ 'd') (s : List Char) (dataLines lines : List (List Char)) :
    sseJson dataLines ((c :: s) :: lines) = sseJson dataLines lines := by
  have hpre : ¬ "data:".toList <+: c :: s := by
    rintro ⟨t, ht⟩
    exact hc (List.cons.inj ht).1.symm
  simp only [sseJson, List.cons_ne_nil, if_false, dataField, if_neg hpre]

theorem frame_append (id type data s : List Char) :
    frame id type data ++ s =
      ("id: ".toList ++ id) ++ '\n' :: (("event: ".toList ++ type) ++ '\n' ::
        ("data: ".toList ++ (data ++ '\n' :: '\n' :: s))) := by
  simp only [frame, List.append_assoc, List.cons_append, List.nil_append]

theorem splitlines_frame (event : AgentEvent) (s : List Char) :
    splitlines (eventFrame (some event) ++ s) =
      ("id: ".toList ++ dumpsNat event.id) :: ("event: ".toList ++ event.type.value.toList) ::
        splitlines ("data: ".toList ++ (dumps event.modelDump.toJson ++ '\n' :: '\n' :: s)) := by
  have hlit : ∀ c ∈ "id: ".toList, isBreak c = false := not_break_of_any (by decide)
  have hid : ∀ c ∈ "id: ".toList ++ dumpsNat event.id, isBreak c = false := by
    intro c hc
    rcases List.mem_append.mp hc with hc | hc
    · exact hlit c hc
    · obtain ⟨d, -, rfl⟩ := List.mem_map.mp hc
      exact isBreak_of_ascii (digitChar_ascii d)
  have htype : ∀ c ∈ "event: ".toList ++ event.type.value.toList, isBreak c = false := by
    cases event.type <;> exact not_break_of_any (by decide)
  rw [eventFrame, frame_append, splitlines_line hid, splitlines_line htype]

/-- The data line of an event begins with the brace of its object. -/
theorem exists_dumps_modelDump (event : AgentEvent) :
    ∃ s, dumps event.modelDump.toJson = '{' :: s := ⟨_, rfl⟩

theorem wellFormed_modelDump (event : AgentEvent) : WellFormed event.modelDump.toJson :=
  event.modelDump.wellFormed

theorem allChars_modelDump {event : AgentEvent} :
    AllChars (fun c => ¬ Separator c) event.modelDump.toJson ↔ Unbroken event := by
  have hid : ∀ c ∈ "id".toList, ¬ Separator c := not_separator_of_any (by decide)
  have htypeKey : ∀ c ∈ "type".toList, ¬ Separator c := not_separator_of_any (by decide)
  have hdata : ∀ c ∈ "data".toList, ¬ Separator c := not_separator_of_any (by decide)
  have htype : ∀ c ∈ event.type.value.toList, ¬ Separator c := by
    cases event.type <;> exact not_separator_of_any (by decide)
  constructor
  · rintro ⟨-, -, -, -, -, h, -⟩
    exact h
  · exact fun h => ⟨hid, trivial, htypeKey, htype, hdata, h, trivial⟩

/-- The header lines of a frame are passed over. -/
theorem sseJson_header (event : AgentEvent) (s : List Char) :
    sseJson [] (splitlines (eventFrame (some event) ++ s)) = sseJson []
      (splitlines ("data: ".toList ++ (dumps event.modelDump.toJson ++ '\n' :: '\n' :: s))) := by
  rw [splitlines_frame]
  exact (sseJson_other (by decide) _ _ _).trans (sseJson_other (by decide) _ _ _)

theorem isBreak_data : ∀ c ∈ "data: ".toList, isBreak c = false := not_break_of_any (by decide)

/-- The data line adds its value to the collected lines. -/
theorem sseJson_data (j : List Char) (lines : List (List Char)) :
    sseJson [] (("data: ".toList ++ '{' :: j) :: lines) = sseJson ['{' :: j] lines := by
  rw [sseJson, if_neg (List.append_ne_nil_of_left_ne_nil (by decide) _),
    dataField_data (by decide)]
  rfl

/-- **An unbroken event is read back from its frame.** -/
theorem sseJson_frame {event : AgentEvent} (h : Unbroken event) (s : List Char) :
    sseJson [] (splitlines (eventFrame (some event) ++ s)) =
      (sseJson [] (splitlines s)).cons event.modelDump := by
  have hline : ∀ c ∈ "data: ".toList ++ dumps event.modelDump.toJson, isBreak c = false := by
    intro c hc
    rcases List.mem_append.mp hc with hc | hc
    · exact isBreak_data c hc
    · exact isBreak_of_printed (printed_dumps _ (allChars_modelDump.mpr h) c hc)
  have hload : loadDict (dumps event.modelDump.toJson) = .dict event.modelDump :=
    loadDict_dict (loads_dumps (wellFormed_modelDump event))
  obtain ⟨j, hj⟩ := exists_dumps_modelDump event
  rw [sseJson_header, ← List.append_assoc, splitlines_line hline,
    splitlines_break (by decide) (by decide)]
  rw [hj] at hload ⊢
  rw [sseJson_data]
  simp [sseJson, hload]

theorem sseJson_keepAlive (s : List Char) :
    sseJson [] (splitlines (eventFrame none ++ s)) = sseJson [] (splitlines s) := by
  have hline : ∀ c ∈ keepAlive.dropLast.dropLast, isBreak c = false := not_break_of_any (by decide)
  have hsplit : keepAlive ++ s = keepAlive.dropLast.dropLast ++ '\n' :: '\n' :: s := rfl
  rw [eventFrame, hsplit, splitlines_line hline, splitlines_break (by decide) (by decide)]
  exact (sseJson_other (by decide) _ _ _).trans (sseJson_empty _)

/-! ## A broken frame -/

theorem intercalate_cons (d : List Char) (ds : List (List Char)) :
    ∃ t, ['\n'].intercalate (d :: ds) = d ++ t ∧ CutTail t := by
  cases ds with
  | nil => exact ⟨[], by simp, .inl rfl⟩
  | cons e ds => exact ⟨'\n' :: ['\n'].intercalate (e :: ds), by simp, .inr ⟨_, rfl⟩⟩

/-- Once the first data line is the beginning of a broken value, no later line repairs it. -/
theorem sseJson_raises {d : List Char} (hd : ∀ t, CutTail t → loads (d ++ t) = none) :
    ∀ (lines ds : List (List Char)),
      sseJson (d :: ds) lines = ⟨[], some .jsonDecodeError⟩ := by
  have hload : ∀ ds, loadDict (['\n'].intercalate (d :: ds)) = .error := fun ds => by
    obtain ⟨t, ht, hcut⟩ := intercalate_cons d ds
    exact loadDict_error (ht ▸ hd t hcut)
  intro lines
  induction lines with
  | nil => exact fun ds => by simp [sseJson, hload]
  | cons line lines ih =>
    intro ds
    rw [sseJson]
    split
    · simp [hload]
    · split
      · exact ih (ds ++ [_])
      · exact ih ds

/-- **A separator in a string of the event ends the stream with an error.** -/
theorem sseJson_broken_frame {event : AgentEvent} (h : ¬ Unbroken event) (s : List Char) :
    sseJson [] (splitlines (eventFrame (some event) ++ s)) = ⟨[], some .jsonDecodeError⟩ := by
  let isSep : Char → Bool := fun c => decide (Separator c)
  let text := dumps event.modelDump.toJson
  have hclean : ¬ AllChars (isSep · = false) event.modelDump.toJson :=
    fun hall => h (allChars_modelDump.mp (allChars_mono (fun c => of_decide_eq_false) _ hall))
  have hcut : ∀ t, CutTail t → loads (cut isSep text ++ t) = none := fun t ht =>
    loads_cut (fun c => separator_outside_ascii) (wellFormed_modelDump event) hclean ht
  -- The printed event has a separator: otherwise its cut text is the whole text, which is read.
  have hsep : ∃ c ∈ text, isSep c = true := by
    by_contra hnone
    have hall : cut isSep text = text :=
      List.takeWhile_eq_self_iff.mpr fun c hc => by simpa using fun hs => hnone ⟨c, hc, hs⟩
    have hread := hcut [] (.inl rfl)
    rw [hall, List.append_nil, loads_dumps (wellFormed_modelDump event)] at hread
    exact Option.some_ne_none _ hread
  obtain ⟨b, rest, htext, hb, hbefore⟩ := exists_cut hsep
  obtain ⟨hbreak, hcr⟩ := isBreak_of_separator (of_decide_eq_true hb)
  have hline : ∀ c ∈ "data: ".toList ++ cut isSep text, isBreak c = false := by
    intro c hc
    rcases List.mem_append.mp hc with hc | hc
    · exact isBreak_data c hc
    · have hprinted : Printed (fun _ => True) c :=
        printed_dumps _ (allChars_of_forall (fun _ => trivial) _) c (by
          rw [show dumps event.modelDump.toJson = cut isSep text ++ b :: rest from htext]
          exact List.mem_append_left _ hc)
      exact isBreak_of_printed ⟨hprinted.1, .inr (of_decide_eq_false (hbefore c hc))⟩
  obtain ⟨j, hj⟩ : ∃ j, cut isSep text = '{' :: j := by
    obtain ⟨j, hj⟩ := exists_dumps_modelDump event
    exact ⟨cut isSep j, by rw [show text = '{' :: j from hj]; exact cut_cons (by decide) j⟩
  rw [sseJson_header, show dumps event.modelDump.toJson = cut isSep text ++ b :: rest from htext,
    List.append_assoc, ← List.append_assoc, List.cons_append, splitlines_cut hline hbreak hcr]
  rw [hj] at hcut ⊢
  rw [sseJson_data]
  exact sseJson_raises hcut _ []

/-! ## A stream -/

theorem eventSse_cons (event : Option AgentEvent) (stream : List (Option AgentEvent)) :
    eventSse (event :: stream) = eventFrame event ++ eventSse stream := List.flatMap_cons

/-- **An unbroken stream is read back**, its comments dropped. -/
theorem events_eventSse (coerceId : Json → Option ℕ) : ∀ stream : List (Option AgentEvent),
    (∀ event ∈ stream.reduceOption, Unbroken event) →
      events coerceId (eventSse stream) = ⟨stream.reduceOption, none⟩
  | [], _ => rfl
  | none :: stream, h => by
      rw [List.reduceOption_cons_of_none] at h ⊢
      rw [events, eventSse_cons, sseJson_keepAlive]
      exact events_eventSse coerceId stream h
  | some event :: stream, h => by
      rw [List.reduceOption_cons_of_some] at h ⊢
      have ih := events_eventSse coerceId stream fun e he => h e (List.mem_cons_of_mem _ he)
      rw [events] at ih
      rw [events, eventSse_cons, sseJson_frame (h event List.mem_cons_self)]
      simp only [Yielded.cons, validateAll, AgentEvent.modelValidate_modelDump, ih]

/-- A stream with a broken event ends in an error, after the events before it. -/
theorem error_eventSse : ∀ stream : List (Option AgentEvent),
    (∃ event ∈ stream.reduceOption, ¬ Unbroken event) →
      (sseJson [] (splitlines (eventSse stream))).error = some .jsonDecodeError
  | [], h => by simp at h
  | none :: stream, h => by
      rw [List.reduceOption_cons_of_none] at h
      rw [eventSse_cons, sseJson_keepAlive]
      exact error_eventSse stream h
  | some event :: stream, h => by
      rw [eventSse_cons]
      by_cases hevent : Unbroken event
      · rw [sseJson_frame hevent]
        refine error_eventSse stream ?_
        obtain ⟨e, he, hbroken⟩ := h
        rw [List.reduceOption_cons_of_some] at he
        rcases List.mem_cons.mp he with rfl | he
        · exact absurd hevent hbroken
        · exact ⟨e, he, hbroken⟩
      · rw [sseJson_broken_frame hevent]

theorem validateAll_error (coerceId : Json → Option ℕ) {error : StreamError} :
    ∀ payloads : List Dict, (validateAll coerceId (some error) payloads).error ≠ none
  | [] => Option.some_ne_none _
  | payload :: payloads => by
      rw [validateAll]
      split
      · exact Option.some_ne_none _
      · exact validateAll_error coerceId payloads

/-- **A stream comes through exactly when no event has a separator in a string**: then the reader
raises nothing and yields the events that were sent, in their order. -/
theorem events_eventSse_iff (coerceId : Json → Option ℕ) (stream : List (Option AgentEvent)) :
    events coerceId (eventSse stream) = ⟨stream.reduceOption, none⟩ ↔
      ∀ event ∈ stream.reduceOption, Unbroken event := by
  refine ⟨fun h => ?_, events_eventSse coerceId stream⟩
  by_contra hbroken
  push Not at hbroken
  have herror := congrArg Yielded.error h
  rw [events] at herror
  simp only [error_eventSse stream hbroken] at herror
  exact validateAll_error coerceId _ herror

/-- A notification whose text holds U+2028. -/
def brokenEvent : AgentEvent where
  id := 0
  type := .notification
  data := ⟨[("k", .str "\u2028")], List.nodup_singleton _, trivial, trivial⟩

theorem events_brokenEvent : ¬ ∀ (coerceId : Json → Option ℕ) (stream : List (Option AgentEvent)),
    events coerceId (eventSse stream) = ⟨stream.reduceOption, none⟩ := by
  intro h
  have herror := congrArg (fun y => y.error.isNone) (h (fun _ => none) [some brokenEvent])
  exact absurd herror (by decide +kernel)

end CodexGateway.Adapter
