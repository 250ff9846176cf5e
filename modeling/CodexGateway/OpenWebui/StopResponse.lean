import CodexGateway.Library.Machine
import CodexGateway.SandboxApi.Grants

/-!
# OpenWebui/StopResponse — a chat is stopped while its Response is being opened

A Response can be cancelled once its id is known, and the id is in one of the first events of the
stream.  So the request is opened by a task of its own, which reads ahead until it has the id and
keeps the lines it has read; who waits for it may be cancelled meanwhile.

A stop waits until the task is over, and so cancels the Response whenever there is one to cancel,
and no other (`stop_cancels`).  The consumer gets the lines that were read ahead and then the rest,
each line once and in order (`stream_whole`), where the request is not finished before the consumer
begins; if it is, what was read ahead is lost (`not_stream_whole`).
-/

namespace CodexGateway.OpenWebui

open PyJson SandboxApi

/-! ## The upstream -/

/-- What the gateway answers: a stream of lines, or else a body. -/
structure Upstream where
  status : ℕ
  eventStream : Bool
  lines : List (List Char)
  body : Json

/-- The event of a line, where it has one. -/
def lineEvent (line : List Char) : Option Json :=
  if "data:".toList.isPrefixOf line then loads (line.drop 5) else none

/-- `event.get("response", {}).get("id")`, which raises where one of them is no dictionary. -/
def eventResponseId : Json → Option Json
  | .obj event =>
    match event.lookup "response" with
    | none => some .null
    | some (.obj response) => some (Members.get response "id")
    | some _ => none
  | _ => none

/-- `body.get("id")` -/
def bodyId : Json → Option Json
  | .obj body => some (Members.get body "id")
  | _ => none

/-! ## The request -/

/-- `open`: it awaits the answer, then a line, or the body. -/
inductive OpeningPhase where
  | request
  | line
  | body
  | ended
  | raised
  deriving DecidableEq

/-- `cancel`: it awaits `open`, and then the request that cancels the Response. -/
inductive StopPhase where
  | idle
  | opening
  | post (id : String)
  | ended
  | raised
  deriving DecidableEq

/-- `stream_response`: it begins with the lines that were read ahead. -/
inductive StreamPhase where
  | idle
  | initial (count : ℕ)
  | rest
  | ended
  deriving DecidableEq

/-- `lines` are still to be read, and `initialLines` have been read ahead; `cancelled` are the ids
that were sent to be cancelled, and `yielded` is what the consumer has got. -/
structure ResponseRequest where
  opening : OpeningPhase
  hasResponse : Bool
  closed : Bool
  lines : List (List Char)
  initialLines : List (List Char)
  responseId : Json
  registered : Bool
  stop : StopPhase
  cancelled : List String
  stream : StreamPhase
  yielded : List (List Char)

/-- What `open` awaits returns or raises; the chat is stopped, and what the stop awaits returns, or
raises, done or not; the consumer begins, and gets a line or the end; the request is finished. -/
inductive ResponseAction where
  | opens
  | openFails
  | stop
  | stops
  | stopFails (done : Bool)
  | begin
  | yields
  | finish

/-- `request_response`, before the task of `open` has run. -/
def requested (u : Upstream) : ResponseRequest :=
  ⟨.request, false, false, u.lines, [], .null, true, .idle, [], .idle, []⟩

namespace ResponseRequest

variable (u : Upstream) (s : ResponseRequest)

/-- The `finally` of `cancel`. -/
def leave (phase : StopPhase) : ResponseRequest :=
  { s with stop := phase, closed := s.closed || s.hasResponse }

/-- A line that is read ahead. -/
def readLine (line : List Char) (rest : List (List Char)) : ResponseRequest :=
  let s := { s with lines := rest, initialLines := s.initialLines ++ [line] }
  match lineEvent line with
  | none => s
  | some event =>
    match eventResponseId event with
    | none => { s with opening := .raised }
    | some id => { s with
        responseId := id
        opening := if truthy id then .ended else .line }

/-- `open`, from one awaited call to the next. -/
def opens : Option ResponseRequest :=
  match s.opening with
  | .request => some { s with
      hasResponse := true
      opening := if u.status ≥ 400 then .ended else if u.eventStream then .line else .body }
  | .line =>
    if s.closed then none
    else match s.lines with
      | [] => some { s with opening := .ended }
      | line :: rest => some (s.readLine line rest)
  | .body =>
    match bodyId u.body with
    | none => some { s with opening := .raised }
    | some id => some { s with responseId := id, opening := .ended }
  | .ended | .raised => none

/-- `cancel`, likewise. -/
def stops : Option ResponseRequest :=
  match s.stop, s.opening with
  | .opening, .ended =>
    if truthy s.responseId then
      match s.responseId with
      | .str id => some { s with stop := .post id }
      -- `quote` raises
      | _ => some (s.leave .raised)
    else some (s.leave .ended)
  | .opening, .raised => some (s.leave .raised)
  | .post id, _ => some { s.leave .ended with cancelled := s.cancelled ++ [id] }
  | _, _ => none

/-- `stream_response`, likewise. -/
def yields : Option ResponseRequest :=
  match s.stream with
  | .initial count =>
    match s.initialLines[count]? with
    | some line => some { s with stream := .initial (count + 1), yielded := s.yielded ++ [line] }
    | none => some { s with stream := .rest, initialLines := [] }
  | .rest =>
    if s.closed then some { s with stream := .ended }
    else match s.lines with
      | [] => some { s with stream := .ended }
      | line :: rest => some { s with lines := rest, yielded := s.yielded ++ [line] }
  | .idle | .ended => none

/-- What an action does, where it can happen. -/
def act : ResponseAction → Option ResponseRequest
  | .opens => s.opens u
  | .openFails =>
    match s.opening with
    | .ended | .raised => none
    | _ => some { s with opening := .raised }
  | .stop =>
    match s.stop with
    | .opening | .post _ => none
    | _ => some (if s.registered then { s with stop := .opening } else s)
  | .stops => s.stops
  | .stopFails done =>
    match s.stop with
    | .post id => some { s.leave .raised with
        cancelled := s.cancelled ++ if done then [id] else [] }
    | _ => none
  | .begin =>
    match s.opening, s.stream with
    | .ended, .idle => some { s with stream := if s.registered then .initial 0 else .rest }
    | _, _ => none
  | .yields => s.yields
  | .finish => some { s with
      registered := false
      closed := s.closed || (s.registered && s.hasResponse) }

end ResponseRequest

/-! ## What is meant -/

/-- The id that the lines tell first; an event that cannot be read for it ends the request. -/
def firstId : List (List Char) → Json
  | [] => .null
  | line :: rest =>
    match lineEvent line with
    | none => firstId rest
    | some event =>
      match eventResponseId event with
      | none => .null
      | some id => if truthy id then id else firstId rest

/-- The id of the Response, where the gateway has accepted the request. -/
def Upstream.responseId (u : Upstream) : Json :=
  if u.status ≥ 400 then .null
  else if u.eventStream then firstId u.lines
  else (bodyId u.body).getD .null

/-- The request is finished before the consumer begins. -/
def beginsLate (s : ResponseRequest) (a : ResponseAction) : Bool :=
  match a with
  | .begin => !s.registered
  | _ => false

/-! ## What is known while the request is opened -/

/-- The consumer has not begun, and nothing is being cancelled. -/
def ResponseRequest.Idle (s : ResponseRequest) : Prop :=
  s.stream = .idle ∧ ∀ id, s.stop ≠ .post id

/-- Once the request is open, the id is the one that the upstream tells. -/
def ResponseRequest.Opened (u : Upstream) (s : ResponseRequest) : Prop :=
  match s.opening with
  | .request => s.Idle ∧ truthy s.responseId = false ∧ s.lines = u.lines
  | .line => s.Idle ∧ s.hasResponse = true ∧ truthy s.responseId = false ∧
      u.responseId = firstId s.lines
  | .body => s.Idle ∧ s.hasResponse = true ∧ u.responseId = (bodyId u.body).getD .null
  | .ended => s.hasResponse = true ∧ truthy s.responseId = truthy u.responseId ∧
      (truthy s.responseId = true → s.responseId = u.responseId)
  | .raised => s.Idle

/-- No id is cancelled but the one that the upstream tells. -/
structure ResponseRequest.Told (u : Upstream) (s : ResponseRequest) : Prop where
  opened : s.Opened u
  cancelled : ∀ id ∈ s.cancelled, u.responseId = .str id
  post : ∀ id, s.stop = .post id → u.responseId = .str id

section Opened

variable {u : Upstream} {s s' w : ResponseRequest} {a : ResponseAction} {id : String}

theorem told_requested (u : Upstream) : (requested u).Told u where
  opened := ⟨⟨rfl, fun id h => by cases h⟩, rfl, rfl⟩
  cancelled id h := absurd h List.not_mem_nil
  post id h := by cases h

/-- Nothing is read once the request is open. -/
theorem opened_over (h : s.Opened u) (hover : s.opening = .ended) : s.hasResponse = true ∧
    truthy s.responseId = truthy u.responseId ∧
      (truthy s.responseId = true → s.responseId = u.responseId) := by
  rw [ResponseRequest.Opened, hover] at h
  exact h

theorem idle_of_ne (h : s.Opened u) (hne : s.opening ≠ .ended) : s.Idle := by
  rw [ResponseRequest.Opened] at h
  cases hcase : s.opening <;> simp only [hcase] at h hne
  case request => exact h.1
  case line => exact h.1
  case body => exact h.1
  case ended => exact absurd rfl hne
  case raised => exact h

/-- A step that is not one of `open`. -/
theorem ResponseRequest.Opened.beside (h : s.Opened u) (hopening : s'.opening = s.opening)
    (hresponse : s'.hasResponse = s.hasResponse) (hid : s'.responseId = s.responseId)
    (hidle : s.opening ≠ .ended → s'.Idle ∧ s'.lines = s.lines) : s'.Opened u := by
  rw [ResponseRequest.Opened] at h ⊢
  rw [hopening, hresponse, hid]
  cases hcase : s.opening <;> simp only [hcase] at h hidle ⊢
  case request => exact ⟨(hidle (by simp)).1, h.2.1, (hidle (by simp)).2.trans h.2.2⟩
  case line =>
    refine ⟨(hidle (by simp)).1, h.2.1, h.2.2.1, ?_⟩
    rw [(hidle (by simp)).2]
    exact h.2.2.2
  case body => exact ⟨(hidle (by simp)).1, h.2⟩
  case ended => exact h
  case raised => exact (hidle (by simp)).1

/-- A line that is read ahead tells the id, or leaves it to the lines after it. -/
theorem opened_readLine {line : List Char} {rest : List (List Char)} (hidle : s.Idle)
    (hresponse : s.hasResponse = true) (hfalsy : truthy s.responseId = false)
    (hopening : s.opening = .line) (hid : u.responseId = firstId (line :: rest)) :
    (s.readLine line rest).Opened u := by
  rw [firstId] at hid
  rw [ResponseRequest.readLine]
  cases hevent : lineEvent line with
  | none =>
    simp only [hevent] at hid ⊢
    rw [ResponseRequest.Opened, hopening]
    exact ⟨hidle, hresponse, hfalsy, hid⟩
  | some event =>
    simp only [hevent] at hid ⊢
    cases hresponseId : eventResponseId event with
    | none => exact hidle
    | some id =>
      simp only [hresponseId] at hid ⊢
      cases htruthy : truthy id with
      | true =>
        rw [htruthy, if_pos rfl] at hid
        exact ⟨hresponse, by rw [hid], fun _ => hid.symm⟩
      | false =>
        rw [htruthy, if_neg Bool.false_ne_true] at hid
        exact ⟨hidle, hresponse, htruthy, hid⟩

/-- **A step of `open`.** -/
theorem opened_opens (h : s.Opened u) (hopens : s.opens u = some s') : s'.Opened u := by
  rw [ResponseRequest.Opened] at h
  rw [ResponseRequest.opens] at hopens
  cases hcase : s.opening with
  | request =>
    simp only [hcase] at h hopens
    obtain rfl := Option.some.inj hopens
    obtain ⟨hidle, hfalsy, hlines⟩ := h
    rw [ResponseRequest.Opened]
    split_ifs with hstatus hstream
    · have hnull : u.responseId = .null := if_pos hstatus
      exact ⟨rfl, by rw [hfalsy, hnull]; rfl, fun h => by rw [hfalsy] at h; cases h⟩
    · have hfirst : u.responseId = firstId u.lines := by
        rw [Upstream.responseId, if_neg hstatus, if_pos hstream]
      exact ⟨hidle, rfl, hfalsy, by rw [hfirst, hlines]⟩
    · have hbody : u.responseId = (bodyId u.body).getD .null := by
        rw [Upstream.responseId, if_neg hstatus, if_neg hstream]
      exact ⟨hidle, rfl, hbody⟩
  | line =>
    simp only [hcase] at h hopens
    obtain ⟨hidle, hresponse, hfalsy, hid⟩ := h
    split_ifs at hopens
    split at hopens
    · rename_i hnil
      obtain rfl := Option.some.inj hopens
      rw [hnil] at hid
      exact ⟨hresponse, by rw [hfalsy, hid]; rfl, fun h => by rw [hfalsy] at h; cases h⟩
    · rename_i line rest hlines
      obtain rfl := Option.some.inj hopens
      exact opened_readLine hidle hresponse hfalsy hcase (hlines ▸ hid)
  | body =>
    simp only [hcase] at h hopens
    obtain ⟨hidle, hresponse, hid⟩ := h
    split at hopens
    · obtain rfl := Option.some.inj hopens
      exact hidle
    · rename_i id hbody
      obtain rfl := Option.some.inj hopens
      rw [hbody] at hid
      exact ⟨hresponse, by rw [hid]; rfl, fun _ => hid.symm⟩
  | ended =>
    simp only [hcase] at hopens
    cases hopens
  | raised =>
    simp only [hcase] at hopens
    cases hopens

/-- `open` leaves the stop and the consumer as they are. -/
theorem stop_opens (hopens : s.opens u = some s') :
    s'.stop = s.stop ∧ s'.cancelled = s.cancelled ∧ s'.closed = s.closed := by
  rw [ResponseRequest.opens] at hopens
  split at hopens
  · obtain rfl := Option.some.inj hopens
    exact ⟨rfl, rfl, rfl⟩
  · split_ifs at hopens
    split at hopens
    · obtain rfl := Option.some.inj hopens
      exact ⟨rfl, rfl, rfl⟩
    · obtain rfl := Option.some.inj hopens
      rw [ResponseRequest.readLine]
      split
      · exact ⟨rfl, rfl, rfl⟩
      · split
        · exact ⟨rfl, rfl, rfl⟩
        · exact ⟨rfl, rfl, rfl⟩
  · split at hopens
    · obtain rfl := Option.some.inj hopens
      exact ⟨rfl, rfl, rfl⟩
    · obtain rfl := Option.some.inj hopens
      exact ⟨rfl, rfl, rfl⟩
  · cases hopens
  · cases hopens

/-- A stop cancels nothing, and a consumer does not begin, before the request is open. -/
theorem over_of_post (h : s.Opened u) (hpost : s.stop = .post id) : s.opening = .ended := by
  by_contra hne
  exact (idle_of_ne h hne).2 id hpost

theorem over_of_stream (h : s.Opened u) (hstream : s.stream ≠ .idle) : s.opening = .ended := by
  by_contra hne
  exact hstream (idle_of_ne h hne).1

/-- A step of the stop, which leaves the request as it is. -/
theorem opened_of_stop (h : s.Opened u) {phase : StopPhase} {cancelled : List String}
    {closed : Bool} (hphase : s.opening ≠ .ended → ∀ id, phase ≠ .post id) :
    ResponseRequest.Opened u
      { s with stop := phase, cancelled := cancelled, closed := closed } := by
  have hidle (hne : s.opening ≠ .ended) : ResponseRequest.Idle
      { s with stop := phase, cancelled := cancelled, closed := closed } :=
    ⟨(idle_of_ne h hne).1, hphase hne⟩
  exact ResponseRequest.Opened.beside h rfl rfl rfl fun hne => ⟨hidle hne, rfl⟩

/-- What a stop does next. -/
theorem stops_cases (hstops : s.stops = some s') :
    (s.stop = .opening ∧ s.opening = .ended ∧ truthy s.responseId = true ∧
      ∃ id, s.responseId = .str id ∧ s' = { s with stop := .post id }) ∨
    (s.stop = .opening ∧ s' = s.leave .raised) ∨
    (s.stop = .opening ∧ s.opening = .ended ∧ truthy s.responseId = false ∧ s' = s.leave .ended) ∨
    ∃ id, s.stop = .post id ∧ s' = { s.leave .ended with cancelled := s.cancelled ++ [id] } := by
  rw [ResponseRequest.stops] at hstops
  split at hstops
  · rename_i hstop hopening
    split_ifs at hstops with htruthy
    · split at hstops
      · rename_i id hid
        exact .inl ⟨hstop, hopening, htruthy, id, hid, (Option.some.inj hstops).symm⟩
      · exact .inr (.inl ⟨hstop, (Option.some.inj hstops).symm⟩)
    · exact .inr (.inr (.inl ⟨hstop, hopening, Bool.eq_false_iff.mpr htruthy,
        (Option.some.inj hstops).symm⟩))
  · rename_i hstop hopening
    exact .inr (.inl ⟨hstop, (Option.some.inj hstops).symm⟩)
  · rename_i id hstop
    exact .inr (.inr (.inr ⟨id, hstop, (Option.some.inj hstops).symm⟩))
  · cases hstops

/-- The consumer leaves the request and the stop as they are. -/
theorem kept_yields (hyields : s.yields = some s') : s'.opening = s.opening ∧
    s'.hasResponse = s.hasResponse ∧ s'.responseId = s.responseId ∧
    s'.cancelled = s.cancelled ∧ s'.stop = s.stop ∧ s'.closed = s.closed := by
  rw [ResponseRequest.yields] at hyields
  split at hyields
  · split at hyields
    · obtain rfl := Option.some.inj hyields
      exact ⟨rfl, rfl, rfl, rfl, rfl, rfl⟩
    · obtain rfl := Option.some.inj hyields
      exact ⟨rfl, rfl, rfl, rfl, rfl, rfl⟩
  · split_ifs at hyields
    · obtain rfl := Option.some.inj hyields
      exact ⟨rfl, rfl, rfl, rfl, rfl, rfl⟩
    · split at hyields
      · obtain rfl := Option.some.inj hyields
        exact ⟨rfl, rfl, rfl, rfl, rfl, rfl⟩
      · obtain rfl := Option.some.inj hyields
        exact ⟨rfl, rfl, rfl, rfl, rfl, rfl⟩
  · cases hyields
  · cases hyields

/-- **Every step keeps to the id that the upstream tells.** -/
theorem told_step (h : s.Told u) (hact : s.act u a = some s') : s'.Told u := by
  cases a with
  | opens =>
    obtain ⟨hstop, hcancelled, -⟩ := stop_opens hact
    exact ⟨opened_opens h.opened hact, hcancelled ▸ h.cancelled, hstop ▸ h.post⟩
  | openFails =>
    rw [ResponseRequest.act] at hact
    split at hact
    · cases hact
    · cases hact
    · rename_i hover _
      obtain rfl := Option.some.inj hact
      have hidle : s.Idle := idle_of_ne h.opened hover
      exact ⟨hidle, h.cancelled, h.post⟩
  | stop =>
    rw [ResponseRequest.act] at hact
    split at hact
    · cases hact
    · cases hact
    · obtain rfl := Option.some.inj hact
      split_ifs
      · exact ⟨opened_of_stop h.opened fun _ id => by simp, h.cancelled, fun id hpost => by
          cases hpost⟩
      · exact h
  | stops =>
    rcases stops_cases hact with ⟨-, hover, htruthy, id, hid, rfl⟩ | ⟨-, rfl⟩ | ⟨-, -, -, rfl⟩ |
      ⟨id, hpost, rfl⟩
    · refine ⟨opened_of_stop h.opened fun hne => absurd hover hne, h.cancelled, fun id' hpost => ?_⟩
      obtain rfl := StopPhase.post.inj hpost
      exact ((opened_over h.opened hover).2.2 htruthy).symm.trans hid
    · exact ⟨opened_of_stop h.opened fun _ id => by simp, h.cancelled, fun id hpost => by
        cases hpost⟩
    · exact ⟨opened_of_stop h.opened fun _ id => by simp, h.cancelled, fun id hpost => by
        cases hpost⟩
    · refine ⟨opened_of_stop h.opened fun _ id => by simp [ResponseRequest.leave],
        fun id' hmem => ?_, fun id hpost => by cases hpost⟩
      rcases List.mem_append.mp hmem with hold | hnew
      · exact h.cancelled id' hold
      · exact List.mem_singleton.mp hnew ▸ h.post id hpost
  | stopFails done =>
    rw [ResponseRequest.act] at hact
    split at hact
    · rename_i id hpost
      obtain rfl := Option.some.inj hact
      refine ⟨opened_of_stop h.opened fun _ id => by simp [ResponseRequest.leave],
        fun id' hmem => ?_, fun id hpost => by cases hpost⟩
      rcases List.mem_append.mp hmem with hold | hnew
      · exact h.cancelled id' hold
      · cases done with
        | false => exact absurd hnew List.not_mem_nil
        | true => exact List.mem_singleton.mp hnew ▸ h.post id hpost
    · cases hact
  | begin =>
    rw [ResponseRequest.act] at hact
    split at hact
    · rename_i hover _
      obtain rfl := Option.some.inj hact
      exact ⟨h.opened.beside rfl rfl rfl fun hne => absurd hover hne, h.cancelled, h.post⟩
    · cases hact
  | yields =>
    have hover : s.opening = .ended := by
      refine over_of_stream h.opened fun hidle => ?_
      rw [ResponseRequest.act, ResponseRequest.yields, hidle] at hact
      cases hact
    obtain ⟨hopening, hresponse, hid, hcancelled, hstop, -⟩ := kept_yields hact
    exact ⟨h.opened.beside hopening hresponse hid fun hne => absurd hover hne,
      hcancelled ▸ h.cancelled, hstop ▸ h.post⟩
  | finish =>
    obtain rfl := Option.some.inj hact
    have hidle (hne : s.opening ≠ .ended) := idle_of_ne h.opened hne
    exact ⟨h.opened.beside rfl rfl rfl fun hne => ⟨⟨(hidle hne).1, (hidle hne).2⟩, rfl⟩,
      h.cancelled, h.post⟩

/-- What a stop that is over has done. -/
structure ResponseRequest.Stopped (u : Upstream) (s : ResponseRequest) : Prop where
  closed : s.stop = .ended → s.closed = true
  cancelled : s.stop = .ended → ∀ id, u.responseId = .str id → id ≠ "" → id ∈ s.cancelled

theorem stopped_of_eq (h : s.Stopped u) (hstop : s'.stop = s.stop)
    (hclosed : s.closed = true → s'.closed = true) (hcancelled : s'.cancelled = s.cancelled) :
    s'.Stopped u where
  closed hover := hclosed (h.closed (hstop ▸ hover))
  cancelled hover := hcancelled ▸ h.cancelled (hstop ▸ hover)

theorem stopped_of_ne (hne : s'.stop ≠ .ended) : s'.Stopped u :=
  ⟨fun hover => absurd hover hne, fun hover => absurd hover hne⟩

theorem stopped_step (htold : s.Told u) (h : s.Stopped u) (hact : s.act u a = some s') :
    s'.Stopped u := by
  cases a with
  | opens =>
    obtain ⟨hstop, hcancelled, hclosed⟩ := stop_opens hact
    exact stopped_of_eq h hstop (fun hc => hclosed.trans hc) hcancelled
  | openFails =>
    rw [ResponseRequest.act] at hact
    split at hact
    · cases hact
    · cases hact
    · obtain rfl := Option.some.inj hact
      exact stopped_of_eq h rfl (fun hc => hc) rfl
  | stop =>
    rw [ResponseRequest.act] at hact
    split at hact
    · cases hact
    · cases hact
    · obtain rfl := Option.some.inj hact
      split_ifs
      · exact stopped_of_ne (by simp)
      · exact h
  | stops =>
    rcases stops_cases hact with ⟨-, -, -, id, -, rfl⟩ | ⟨-, rfl⟩ | ⟨-, hover, hfalsy, rfl⟩ |
      ⟨id, hpost, rfl⟩
    · exact stopped_of_ne (by simp)
    · exact stopped_of_ne (by simp [ResponseRequest.leave])
    · obtain ⟨hresponse, htruthy, -⟩ := opened_over htold.opened hover
      refine ⟨fun _ => by simp [ResponseRequest.leave, hresponse], fun _ id hid hne => ?_⟩
      rw [hfalsy, hid] at htruthy
      exact absurd htruthy (by simp [truthy, hne])
    · obtain ⟨hresponse, -, -⟩ := opened_over htold.opened (over_of_post htold.opened hpost)
      refine ⟨fun _ => by simp [ResponseRequest.leave, hresponse], fun _ id' hid _ => ?_⟩
      obtain rfl := Json.str.inj (hid.symm.trans (htold.post id hpost))
      exact List.mem_append_right _ (List.mem_singleton_self _)
  | stopFails done =>
    rw [ResponseRequest.act] at hact
    split at hact
    · obtain rfl := Option.some.inj hact
      exact stopped_of_ne (by simp [ResponseRequest.leave])
    · cases hact
  | begin =>
    rw [ResponseRequest.act] at hact
    split at hact
    · obtain rfl := Option.some.inj hact
      exact stopped_of_eq h rfl (fun hc => hc) rfl
    · cases hact
  | yields =>
    obtain ⟨-, -, -, hcancelled, hstop, hclosed⟩ := kept_yields hact
    exact stopped_of_eq h hstop (fun hc => hclosed.trans hc) hcancelled
  | finish =>
    obtain rfl := Option.some.inj hact
    exact stopped_of_eq h rfl (fun hc => by simp [hc]) rfl

/-- **A stop that is over has cancelled the Response that the upstream tells of, whenever it came**,
and nothing else is ever cancelled. -/
theorem stop_cancels {as : List ResponseAction}
    (hrun : Machine.run (ResponseRequest.act u) (requested u) as = some w) :
    (w.stop = .ended → w.closed = true ∧
      ∀ id, u.responseId = .str id → id ≠ "" → id ∈ w.cancelled) ∧
    ∀ id ∈ w.cancelled, u.responseId = .str id := by
  have hstart : (requested u).Told u ∧ (requested u).Stopped u :=
    ⟨told_requested u, stopped_of_ne (by simp [requested])⟩
  have hstep : ∀ s a s', ResponseRequest.Told u s ∧ s.Stopped u → s.act u a = some s' →
      s'.Told u ∧ s'.Stopped u := fun s a s' h hact =>
    ⟨told_step h.1 hact, stopped_step h.1 h.2 hact⟩
  obtain ⟨htold, hstopped⟩ := Machine.run_keeps hstep hrun hstart
  exact ⟨fun hover => ⟨hstopped.closed hover, hstopped.cancelled hover⟩, htold.cancelled⟩

end Opened

/-! ## The consumer gets every line -/

/-- What the consumer has got, with what was read ahead and what is still to be read. -/
def ResponseRequest.Streamed (u : Upstream) (s : ResponseRequest) : Prop :=
  match s.stream with
  | .idle => s.yielded = [] ∧ s.initialLines ++ s.lines = u.lines
  | .initial count => s.yielded = s.initialLines.take count ∧ s.initialLines ++ s.lines = u.lines
  | .rest => s.yielded ++ s.lines = u.lines
  | .ended => s.yielded ++ s.lines = u.lines ∧ (s.closed = false → s.lines = [])

section Streamed

variable {u : Upstream} {s s' w : ResponseRequest} {a : ResponseAction}

theorem streamed_of_eq (h : s.Streamed u) (hstream : s'.stream = s.stream)
    (hyielded : s'.yielded = s.yielded) (hinitial : s'.initialLines = s.initialLines)
    (hlines : s'.lines = s.lines) (hclosed : s.closed = true → s'.closed = true) :
    s'.Streamed u := by
  rw [ResponseRequest.Streamed] at h ⊢
  rw [hstream, hyielded, hinitial, hlines]
  cases hcase : s.stream <;> simp only [hcase] at h ⊢
  case idle => exact h
  case initial => exact h
  case rest => exact h
  case ended =>
    refine ⟨h.1, fun hopen => h.2 (Bool.eq_false_iff.mpr fun hc => ?_)⟩
    rw [hclosed hc] at hopen
    cases hopen

/-- Before the consumer begins, lines are only read ahead. -/
theorem streamed_opens (hidle : s.stream = .idle) (h : s.Streamed u)
    (hopens : s.opens u = some s') : s'.Streamed u := by
  rw [ResponseRequest.opens] at hopens
  split at hopens
  · obtain rfl := Option.some.inj hopens
    exact streamed_of_eq h rfl rfl rfl rfl fun hc => hc
  · split_ifs at hopens
    split at hopens
    · obtain rfl := Option.some.inj hopens
      exact streamed_of_eq h rfl rfl rfl rfl fun hc => hc
    · rename_i line rest hlines
      obtain rfl := Option.some.inj hopens
      rw [ResponseRequest.Streamed, hidle] at h
      have hread : (s.readLine line rest).stream = s.stream ∧
          (s.readLine line rest).yielded = s.yielded ∧
          (s.readLine line rest).initialLines = s.initialLines ++ [line] ∧
          (s.readLine line rest).lines = rest := by
        rw [ResponseRequest.readLine]
        split
        · exact ⟨rfl, rfl, rfl, rfl⟩
        · split
          · exact ⟨rfl, rfl, rfl, rfl⟩
          · exact ⟨rfl, rfl, rfl, rfl⟩
      obtain ⟨hstream, hyielded, hinitial, hrest⟩ := hread
      rw [ResponseRequest.Streamed, hstream, hidle]
      refine ⟨hyielded.trans h.1, ?_⟩
      rw [hinitial, hrest, List.append_assoc, List.singleton_append, ← hlines]
      exact h.2
  · split at hopens
    · obtain rfl := Option.some.inj hopens
      exact streamed_of_eq h rfl rfl rfl rfl fun hc => hc
    · obtain rfl := Option.some.inj hopens
      exact streamed_of_eq h rfl rfl rfl rfl fun hc => hc
  · cases hopens
  · cases hopens

/-- The consumer gets the next line. -/
theorem streamed_yields (h : s.Streamed u) (hyields : s.yields = some s') : s'.Streamed u := by
  rw [ResponseRequest.Streamed] at h
  rw [ResponseRequest.yields] at hyields
  split at hyields
  · rename_i count hstream
    simp only [hstream] at h
    obtain ⟨hyielded, hlines⟩ := h
    split at hyields
    · rename_i line hline
      obtain rfl := Option.some.inj hyields
      refine ⟨?_, hlines⟩
      rw [hyielded, List.take_add_one, hline]
      rfl
    · rename_i hend
      obtain rfl := Option.some.inj hyields
      have htake : s.initialLines.take count = s.initialLines :=
        List.take_of_length_le (List.getElem?_eq_none_iff.mp hend)
      show s.yielded ++ s.lines = u.lines
      rw [hyielded, htake, hlines]
  · rename_i hstream
    simp only [hstream] at h
    split_ifs at hyields with hclosed
    · obtain rfl := Option.some.inj hyields
      exact ⟨h, fun hopen => by rw [hclosed] at hopen; cases hopen⟩
    · split at hyields
      · rename_i hnil
        obtain rfl := Option.some.inj hyields
        exact ⟨h, fun _ => hnil⟩
      · rename_i line rest hlines
        obtain rfl := Option.some.inj hyields
        rw [ResponseRequest.Streamed]
        simp only [hstream]
        rw [List.append_assoc, List.singleton_append, ← hlines, h]
  · cases hyields
  · cases hyields

theorem streamed_step (hcond : beginsLate s a = false) (htold : s.Told u) (h : s.Streamed u)
    (hact : s.act u a = some s') : s'.Streamed u := by
  cases a with
  | opens =>
    have hne : s.opening ≠ .ended := fun hover => by
      rw [ResponseRequest.act, ResponseRequest.opens, hover] at hact
      cases hact
    exact streamed_opens (idle_of_ne htold.opened hne).1 h hact
  | openFails =>
    rw [ResponseRequest.act] at hact
    split at hact
    · cases hact
    · cases hact
    · obtain rfl := Option.some.inj hact
      exact streamed_of_eq h rfl rfl rfl rfl fun hc => hc
  | stop =>
    rw [ResponseRequest.act] at hact
    split at hact
    · cases hact
    · cases hact
    · obtain rfl := Option.some.inj hact
      split_ifs
      · exact streamed_of_eq h rfl rfl rfl rfl fun hc => hc
      · exact h
  | stops =>
    have hleave (phase : StopPhase) : (s.leave phase).Streamed u :=
      streamed_of_eq h rfl rfl rfl rfl fun hc => by simp [ResponseRequest.leave, hc]
    rcases stops_cases hact with ⟨-, -, -, id, -, rfl⟩ | ⟨-, rfl⟩ | ⟨-, -, -, rfl⟩ | ⟨id, -, rfl⟩
    · exact streamed_of_eq h rfl rfl rfl rfl fun hc => hc
    · exact hleave _
    · exact hleave _
    · exact streamed_of_eq (hleave .ended) rfl rfl rfl rfl fun hc => hc
  | stopFails done =>
    rw [ResponseRequest.act] at hact
    split at hact
    · obtain rfl := Option.some.inj hact
      exact streamed_of_eq h rfl rfl rfl rfl fun hc => by simp [ResponseRequest.leave, hc]
    · cases hact
  | begin =>
    rw [ResponseRequest.act] at hact
    split at hact
    · rename_i hidle
      obtain rfl := Option.some.inj hact
      have hregistered : s.registered = true := by simpa [beginsLate] using hcond
      rw [ResponseRequest.Streamed, hidle] at h
      rw [hregistered, if_pos rfl]
      exact ⟨h.1, h.2⟩
    · cases hact
  | yields => exact streamed_yields h hact
  | finish =>
    obtain rfl := Option.some.inj hact
    exact streamed_of_eq h rfl rfl rfl rfl fun hc => by simp [hc]

/-- **The consumer gets the lines of the upstream, each once and in order**, and all of them where
the response is not closed before, if the request is not finished before the consumer begins. -/
theorem stream_whole {as : List ResponseAction}
    (hmeets : Machine.Meets (ResponseRequest.act u) (fun s a => beginsLate s a = false)
      (requested u) as)
    (hrun : Machine.run (ResponseRequest.act u) (requested u) as = some w) :
    w.yielded <+: u.lines ∧ (w.stream = .ended → w.closed = false → w.yielded = u.lines) := by
  have hstart : (requested u).Told u ∧ (requested u).Streamed u := ⟨told_requested u, rfl, rfl⟩
  have hstep : ∀ s a s', beginsLate s a = false → s.Told u ∧ s.Streamed u →
      s.act u a = some s' → s'.Told u ∧ s'.Streamed u := fun s a s' hcond h hact =>
    ⟨told_step h.1 hact, streamed_step hcond h.1 h.2 hact⟩
  obtain ⟨-, hstreamed⟩ := Machine.run_invariant hstep hmeets hrun hstart
  rw [ResponseRequest.Streamed] at hstreamed
  cases hcase : w.stream <;> simp only [hcase] at hstreamed ⊢
  case idle => exact ⟨hstreamed.1 ▸ List.nil_prefix, fun h => by cases h⟩
  case initial count =>
    refine ⟨?_, fun h => by cases h⟩
    rw [hstreamed.1, ← hstreamed.2]
    exact (List.take_prefix _ _).trans (List.prefix_append _ _)
  case rest => exact ⟨⟨_, hstreamed⟩, fun h => by cases h⟩
  case ended =>
    refine ⟨⟨_, hstreamed.1⟩, fun _ hopen => ?_⟩
    rw [← hstreamed.1, hstreamed.2 hopen, List.append_nil]

end Streamed

/-! ## A chat that is stopped -/

/-- A comment, the event that tells the id, and one more line. -/
def sampleUpstream : Upstream where
  status := 200
  eventStream := true
  lines := [": keepalive".toList, "data: \x7b\"response\": \x7b\"id\": \"resp_1\"\x7d\x7d".toList,
    "data: [DONE]".toList]
  body := .null

/-- The chat is stopped before the gateway has answered. -/
def earlyStop : List ResponseAction := [.stop, .opens, .opens, .opens, .stops, .stops]

theorem stop_cancels_early : ∃ w,
    Machine.run (ResponseRequest.act sampleUpstream) (requested sampleUpstream) earlyStop =
        some w ∧ w.closed = true ∧ "resp_1" ∈ w.cancelled := by
  have hover : (Machine.run (ResponseRequest.act sampleUpstream) (requested sampleUpstream)
      earlyStop).map ResponseRequest.stop = some .ended := by decide +kernel
  have hid : text? sampleUpstream.responseId = some "resp_1" := by decide +kernel
  obtain ⟨w, hrun, hover⟩ := Option.map_eq_some_iff.mp hover
  obtain ⟨hclosed, hcancelled⟩ := (stop_cancels hrun).1 hover
  refine ⟨w, hrun, hclosed, hcancelled "resp_1" ?_ (by decide)⟩
  cases hjson : sampleUpstream.responseId with
  | str id =>
    rw [hjson] at hid
    exact congrArg Json.str (Option.some.inj hid)
  | _ =>
    rw [hjson] at hid
    cases hid

/-- A stream that has been opened. -/
def opened : List ResponseAction := [.opens, .opens, .opens]

/-- A stream that is read to its end. -/
def consumed : List ResponseAction := .begin :: List.replicate 5 .yields

theorem stream_whole_consumed : ∃ w,
    Machine.run (ResponseRequest.act sampleUpstream) (requested sampleUpstream)
      (opened ++ consumed) = some w ∧ w.yielded = sampleUpstream.lines := by
  have hover : (Machine.run (ResponseRequest.act sampleUpstream) (requested sampleUpstream)
      (opened ++ consumed)).map (fun w => (w.stream, w.closed)) = some (.ended, false) := by
    decide +kernel
  obtain ⟨w, hrun, hover⟩ := Option.map_eq_some_iff.mp hover
  obtain ⟨hover, hopen⟩ := Prod.mk.inj hover
  exact ⟨w, hrun, (stream_whole (by decide +kernel) hrun).2 hover hopen⟩

/-- What was read ahead is lost where the request is finished before the consumer begins. -/
theorem not_stream_whole : ∃ w,
    Machine.run (ResponseRequest.act sampleUpstream) (requested sampleUpstream)
      ([.opens, .opens, .opens, .finish] ++ [.begin, .yields]) = some w ∧ w.stream = .ended ∧
        w.yielded = [] := by
  have hover : (Machine.run (ResponseRequest.act sampleUpstream) (requested sampleUpstream)
      ([.opens, .opens, .opens, .finish] ++ [.begin, .yields])).map
        (fun w => (w.stream, w.yielded)) = some (.ended, []) := by decide +kernel
  obtain ⟨w, hrun, hover⟩ := Option.map_eq_some_iff.mp hover
  exact ⟨w, hrun, (Prod.mk.inj hover).1, (Prod.mk.inj hover).2⟩

end CodexGateway.OpenWebui
