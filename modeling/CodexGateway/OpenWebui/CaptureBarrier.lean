import CodexGateway.OpenWebui.DriveIntent

/-!
# OpenWebui/CaptureBarrier — the next turn waits for the files of the last one

A Response that is over is recorded in one transaction for its binding and one for each file it
names.  The next turn reads the binding, then the intents of its Workspace that are `pending`, and
waits until there are none, so that it does not write over a file that has not been captured.

Between the binding and the last intent there is nothing to wait for yet: a turn that reads the
binding then finds no barrier, and continues the Response while its files are still to be captured
(`not_turn_gated`).  A turn that reads the barriers only once all intents are there is held back as
it should be (`turn_gated`), since a drive never takes an intent back to `pending`.
-/

namespace CodexGateway.OpenWebui

open PyJson SandboxApi

namespace Services

variable (s : Services) (user : User) (metadata : Members) (ids : TurnIds) (workspaceId : String)

/-- The rest of `inject_workspace_context`, once the barriers are open. -/
def grantTurn (payload : Members) (pending : ℕ) : Except HttpException Members := do
  if truthy (payload.get "previous_response_id") then
    let (checkoutGrant, paths) ← s.checkoutGrant ids.chatId workspaceId none user metadata
      ids.userMessageId ids.assistantMessageId
    let workspaceGrant := s.grant "workspace_inspect" "sandbox-manager" none
      [("workspace_id", .str workspaceId)]
    return s.withGrants user ids workspaceId workspaceGrant checkoutGrant paths
      (cutInput payload pending)
  else
    let sandboxId := "sandbox_" ++ s.uuid
    let (checkoutGrant, paths) ← s.checkoutGrant ids.chatId workspaceId (some sandboxId) user
      metadata ids.userMessageId ids.assistantMessageId
    let workspaceGrant := s.grant "sandbox_create" "sandbox-manager" none
      [("workspace_id", .str workspaceId), ("sandbox_id", .str sandboxId)]
    return s.withGrants user ids workspaceId workspaceGrant checkoutGrant paths payload

theorem prepareTurn_eq (payload : Members) :
    s.prepareTurn user metadata ids workspaceId payload = (do
      let (payload, pending) ← s.continuation user metadata ids workspaceId payload
      s.awaitCaptureBarriers workspaceId
      s.grantTurn user metadata ids workspaceId payload pending) := rfl

end Services

/-! ## The handler and the turn -/

variable {settings : TransferSettings}

/-- A completed Response, and a request of the same chat; what the checks of the handler find. -/
structure NextTurn (settings : TransferSettings) where
  event : TerminalEvent settings
  completed : event.completed = true
  userFound : Bool
  chatWritable : Bool
  messageRole : Option String
  services : Services
  user : User
  metadata : Members
  ids : TurnIds
  workspaceId : String
  payload : Members
  request : Request services user metadata ids workspaceId
  sameChat : ids.chatId = event.claims.chatId

/-- `record_terminal_response`: its checks, and what is left to write. -/
inductive HandlerPhase where
  | checks
  | write (left : List Effect)
  | failed

/-- `inject_workspace_context`, from one read of the database to the next. -/
inductive TurnPhase where
  | start
  | walk (link : Json) (seen : Finset String) (pending : ℕ)
  | barrier (payload : Members) (pending : ℕ)
  | checkout (payload : Members) (pending : ℕ)
  | returned (result : Except HttpException Members)

/-- The database with the states of the intents, the handler and the turn. -/
structure BarrierState where
  db : BridgeDb
  state : PublishIntent → IntentState
  handler : HandlerPhase
  turn : TurnPhase

/-- What the handler or the turn awaits returns, or raises, done or not; others insert a binding or
an intent, and a drive takes an intent on. -/
inductive BarrierAction where
  | record
  | recordFails (done : Bool)
  | turn
  | turnFails (e : HttpException)
  | bindOther (binding : ResponseBinding)
  | createOther (intent : PublishIntent)
  | drive (intent : PublishIntent) (state : IntentState)

namespace BarrierState

variable (s : BarrierState)

/-- `create_publish_intent`: a new intent is `pending`. -/
def createIntent (intent : PublishIntent) : BarrierState :=
  if s.db.intents.any (·.sameCandidate intent) then s
  else { s with
    db := createPublishIntent s.db intent
    state := Function.update s.state intent .pending }

/-- `capture_barriers` -/
def captureBarriers (workspaceId : String) : List PublishIntent :=
  s.db.intents.filter fun intent =>
    decide (intent.workspaceId = workspaceId) && decide (s.state intent = .pending)

end BarrierState

namespace NextTurn

variable (m : NextTurn settings)

/-- The answers that the handler gets from others. -/
def answers : TerminalAnswers where
  workspaceId := m.services.getWorkspace m.event.claims.chatId
  userFound := m.userFound
  chatWritable := m.chatWritable
  messageRole := m.messageRole

/-- An effect of the event, where it does not fail. -/
def write (s : BarrierState) : Effect → Option BarrierState
  | .bind => (putResponseBinding s.db m.event.binding).map fun db => { s with db := db }
  | .publish path => some (s.createIntent (m.event.intent path))

/-- The turn, from one read of the database to the next. -/
def turnNext (s : BarrierState) : TurnPhase → TurnPhase
  | .start =>
    if truthy (m.payload.get "previous_response_id") then .barrier m.payload 1
    else match messageId? (parentLink m.metadata) with
      | none => .barrier m.payload 1
      | some _ => .walk (parentLink m.metadata) ∅ 1
  | .walk link seen pending =>
    match messageId? link with
    | none => .barrier m.payload pending
    | some id =>
      if id ∈ seen then .returned (.error ⟨409, "Chat message ancestry is invalid"⟩)
      else match Services.visit { m.services with bindings := s.db.bindings } m.ids.chatId id with
        | .inl (.error e) => .returned (.error e)
        | .inl (.ok none) => .barrier m.payload pending
        | .inl (.ok (some binding)) =>
          if binding.workspaceId ≠ m.workspaceId ∨ binding.ownerUserId ≠ m.user.id then
            .returned (.error ⟨409, "Previous Response binding changed"⟩)
          else .barrier (insertPair m.payload "previous_response_id" (.str binding.responseId))
            pending
        | .inr link => .walk link (insert id seen) (pending + 1)
  | .barrier payload pending =>
    if s.captureBarriers m.workspaceId = [] then .checkout payload pending
    else .barrier payload pending
  | .checkout payload pending =>
    .returned (m.services.grantTurn m.user m.metadata m.ids m.workspaceId payload pending)
  | .returned result => .returned result

/-- What an action does, where it can happen. -/
def act (s : BarrierState) : BarrierAction → Option BarrierState
  | .record =>
    match s.handler with
    | .checks => some { s with
        handler := if m.answers.pass m.event.claims then .write m.event.effects else .failed }
    | .write (effect :: left) =>
      match m.write s effect with
      | none => some { s with handler := .failed }
      | some s' => some { s' with handler := .write left }
    | .write [] | .failed => none
  | .recordFails done =>
    match s.handler with
    | .checks => some { s with handler := .failed }
    | .write (effect :: _) =>
      some { (if done then (m.write s effect).getD s else s) with handler := .failed }
    | .write [] | .failed => none
  | .turn =>
    match s.turn with
    | .returned _ => none
    | phase => some { s with turn := m.turnNext s phase }
  | .turnFails e =>
    match s.turn with
    | .returned _ => none
    | _ => some { s with turn := .returned (.error e) }
  | .bindOther binding => (putResponseBinding s.db binding).map fun db => { s with db := db }
  | .createOther intent =>
    -- An intent is of the Workspace of its chat.
    if m.services.getWorkspace intent.chatId = some intent.workspaceId then
      some (s.createIntent intent)
    else none
  | .drive intent state =>
    if s.state intent = .pending ∨ state ≠ .pending then
      some { s with state := Function.update s.state intent state }
    else none

/-! ## What is meant -/

/-- The files the Response names. -/
def candidates : List Text :=
  sandboxCandidates m.event.outputText m.event.claims.assistantMessageId.toList

/-- The request continues the Response. -/
def Continues (payload : Members) : Prop :=
  payload.get "previous_response_id" = .str m.event.responseId

/-- Every file the Response names has an intent, and is captured or has failed. -/
def Settled (s : BarrierState) : Prop :=
  ∀ path ∈ m.candidates, Present m.event s.db (.publish path) = true ∧
    ∀ intent ∈ s.db.intents, intent.sameCandidate (m.event.intent path) = true →
      s.state intent ≠ .pending

/-- A turn that continues the Response is granted only then. -/
def Gated (s : BarrierState) : Prop :=
  ∀ result, s.turn = .returned (.ok result) → m.Continues result → m.Settled s

/-- The turn passes the barriers, and the handler has not written everything. -/
def slips (s : BarrierState) (a : BarrierAction) : Bool :=
  match a, s.turn, s.handler with
  | .turn, .barrier _ _, .write [] => false
  | .turn, .barrier payload _, _ =>
    decide (text? (payload.get "previous_response_id") = some m.event.responseId) &&
      (s.captureBarriers m.workspaceId).isEmpty
  | _, _, _ => false

end NextTurn

/-! ## The intents -/

/-- Intents stay, and one that has been captured is not taken back; a new one is of a new file. -/
structure Onward (s s' : BarrierState) : Prop where
  kept : ∀ intent ∈ s.db.intents, intent ∈ s'.db.intents ∧
    (s.state intent ≠ .pending → s'.state intent ≠ .pending)
  new : ∀ intent ∈ s'.db.intents, intent ∈ s.db.intents ∨
    ∀ other ∈ s.db.intents, other.sameCandidate intent = false

section Intents

variable {m : NextTurn settings} {s s' : BarrierState} {intent other : PublishIntent} {path : Text}

theorem sameCandidate_iff : intent.sameCandidate other = true ↔ intent.chatId = other.chatId ∧
    intent.assistantMessageId = other.assistantMessageId ∧
    intent.outputRelativePath = other.outputRelativePath := by
  simp [PublishIntent.sameCandidate, and_assoc]

theorem sameCandidate_of_both {third : PublishIntent} (h : intent.sameCandidate third = true)
    (h' : other.sameCandidate third = true) : intent.sameCandidate other = true := by
  obtain ⟨hchat, hmessage, hpath⟩ := sameCandidate_iff.mp h
  obtain ⟨hchat', hmessage', hpath'⟩ := sameCandidate_iff.mp h'
  exact sameCandidate_iff.mpr ⟨hchat.trans hchat'.symm, hmessage.trans hmessage'.symm,
    hpath.trans hpath'.symm⟩

theorem Onward.of_eq (hintents : s'.db.intents = s.db.intents) (hstate : s'.state = s.state) :
    Onward s s' where
  kept _ hmem := ⟨hintents ▸ hmem, fun h => hstate ▸ h⟩
  new _ hmem := .inl (hintents ▸ hmem)

theorem onward_createIntent : Onward s (s.createIntent intent) := by
  rw [BarrierState.createIntent]
  split_ifs with hany
  · exact .of_eq rfl rfl
  · have hintents : (createPublishIntent s.db intent).intents = s.db.intents ++ [intent] := by
      rw [createPublishIntent, if_neg hany]
    have hother : ∀ other ∈ s.db.intents, other.sameCandidate intent = false := fun other hmem =>
      Bool.eq_false_iff.mpr fun h => hany (List.any_eq_true.mpr ⟨other, hmem, h⟩)
    refine ⟨fun other hmem => ⟨hintents ▸ List.mem_append_left _ hmem, fun h => ?_⟩,
      fun other hmem => ?_⟩
    · have hne : other ≠ intent := by
        rintro rfl
        have hsame : other.sameCandidate other = true := sameCandidate_iff.mpr ⟨rfl, rfl, rfl⟩
        exact absurd hsame (by simp [hother other hmem])
      dsimp only
      rwa [Function.update_of_ne hne]
    · rw [hintents] at hmem
      rcases List.mem_append.mp hmem with hold | hnew
      · exact .inl hold
      · exact .inr (List.mem_singleton.mp hnew ▸ hother)

theorem present_createIntent (path : Text) :
    Present m.event (s.createIntent (m.event.intent path)).db (.publish path) = true := by
  rw [BarrierState.createIntent]
  split_ifs with hany
  · exact hany
  · rw [createPublishIntent, if_neg hany]
    simp [Present, sameCandidate_iff]

/-- What an intent is kept for is kept. -/
theorem Onward.present (h : Onward s s')
    (hpresent : Present m.event s.db (.publish path) = true) :
    Present m.event s'.db (.publish path) = true := by
  obtain ⟨intent, hmem, hsame⟩ := List.any_eq_true.mp hpresent
  exact List.any_eq_true.mpr ⟨intent, (h.kept intent hmem).1, hsame⟩

theorem NextTurn.Settled.onward (hs : m.Settled s) (h : Onward s s') : m.Settled s' := by
  intro path hpath
  obtain ⟨hpresent, hcaptured⟩ := hs path hpath
  refine ⟨h.present hpresent, fun intent hmem hsame => ?_⟩
  rcases h.new intent hmem with hold | hnew
  · exact (h.kept intent hold).2 (hcaptured intent hold hsame)
  · obtain ⟨other, hother, hsame'⟩ := List.any_eq_true.mp hpresent
    have hboth := sameCandidate_of_both hsame' hsame
    exact absurd hboth (by simp [hnew other hother])

theorem intents_putResponseBinding {db db' : BridgeDb} {binding : ResponseBinding}
    (h : putResponseBinding db binding = some db') : db'.intents = db.intents := by
  rw [putResponseBinding] at h
  split at h
  · split_ifs at h
    obtain rfl := Option.some.inj h
    rfl
  · split_ifs at h
    obtain rfl := Option.some.inj h
    rfl

/-- The intents are of the Workspace of their chat. -/
def NextTurn.Homed (m : NextTurn settings) (s : BarrierState) : Prop :=
  ∀ intent ∈ s.db.intents, m.services.getWorkspace intent.chatId = some intent.workspaceId

theorem homed_createIntent (h : m.Homed s)
    (hhome : m.services.getWorkspace intent.chatId = some intent.workspaceId) :
    m.Homed (s.createIntent intent) := by
  intro other hmem
  rw [BarrierState.createIntent] at hmem
  split_ifs at hmem with hany
  · exact h other hmem
  · rw [createPublishIntent, if_neg hany] at hmem
    rcases List.mem_append.mp hmem with hold | hnew
    · exact h other hold
    · exact List.mem_singleton.mp hnew ▸ hhome

end Intents

/-! ## The barriers hold the turn back -/

/-- What holds of the handler, and of a turn that has passed the barriers. -/
structure NextTurn.Waiting (m : NextTurn settings) (s : BarrierState) : Prop where
  homed : m.Homed s
  handler : ∀ left, s.handler = .write left →
    m.services.getWorkspace m.event.claims.chatId = some m.event.claims.workspaceId ∧
      ∀ path ∈ m.candidates, .publish path ∈ left ∨
        Present m.event s.db (.publish path) = true
  checkout : ∀ payload pending, s.turn = .checkout payload pending → m.Continues payload →
    m.Settled s
  gated : m.Gated s

section Waiting

variable {m : NextTurn settings} {s s' : BarrierState} {a : BarrierAction} {payload : Members}
  {pending : ℕ}

theorem workspaceId_ne (event : TerminalEvent settings) : event.claims.workspaceId ≠ "" := by
  have hnamed := event.named
  intro hempty
  simp only [terminalClaims, Option.bind_eq_bind, Option.bind_eq_some_iff] at hnamed
  obtain ⟨chatId, -, workspaceId, hworkspace, userId, -, messageId, -, hclaims⟩ := hnamed
  obtain ⟨-, hne⟩ := Option.filter_eq_some_iff.mp hworkspace
  have hsame : workspaceId = event.claims.workspaceId :=
    congrArg TerminalClaims.workspaceId (Option.some.inj hclaims)
  exact absurd (hsame.trans hempty) (of_decide_eq_true hne)

/-- The turn is of the Workspace the handler writes for. -/
theorem workspaceId_eq (h : m.services.getWorkspace m.event.claims.chatId =
    some m.event.claims.workspaceId) : m.workspaceId = m.event.claims.workspaceId := by
  have hworkspace := m.request.workspace
  rw [Services.workspaceOf, m.sameChat, h, Option.filter_some,
    if_pos (decide_eq_true (workspaceId_ne m.event))] at hworkspace
  exact (Except.ok.inj hworkspace).symm

/-- **Where the handler has written everything and no intent is pending, the files are captured or
have failed.** -/
theorem settled_of_open (h : m.Waiting s) (hover : s.handler = .write [])
    (hopen : s.captureBarriers m.workspaceId = []) : m.Settled s := by
  obtain ⟨hworkspace, hwritten⟩ := h.handler [] hover
  intro path hpath
  refine ⟨(hwritten path hpath).resolve_left List.not_mem_nil, fun intent hmem hsame hpending => ?_⟩
  obtain ⟨hchat, -, -⟩ := sameCandidate_iff.mp hsame
  have hhome := h.homed intent hmem
  have hsame : intent.workspaceId = m.workspaceId := by
    rw [hchat] at hhome
    exact (Option.some.inj (hhome.symm.trans hworkspace)).trans (workspaceId_eq hworkspace).symm
  have hbarrier : intent ∈ s.captureBarriers m.workspaceId := by
    simp [BarrierState.captureBarriers, hmem, hsame, hpending]
  rw [hopen] at hbarrier
  exact List.not_mem_nil hbarrier

theorem get_grantTurn {result : Members} (h : m.services.grantTurn m.user m.metadata m.ids
      m.workspaceId payload pending = .ok result) :
    result.get "previous_response_id" = payload.get "previous_response_id" := by
  simp only [Services.grantTurn, bind, Except.bind] at h
  split_ifs at h
  · split at h
    · cases h
    · obtain rfl := Except.ok.inj h
      rw [get_withGrants (by decide) (by decide), get_cutInput_previous]
  · split at h
    · cases h
    · obtain rfl := Except.ok.inj h
      rw [get_withGrants (by decide) (by decide)]

/-- What is written elsewhere leaves a turn as far as it is. -/
theorem NextTurn.Waiting.onward (h : m.Waiting s) (hs : Onward s s') (hhomed : m.Homed s')
    (hturn : s'.turn = s.turn) (hhandler : ∀ left, s'.handler = .write left →
      m.services.getWorkspace m.event.claims.chatId = some m.event.claims.workspaceId ∧
        ∀ path ∈ m.candidates, .publish path ∈ left ∨
          Present m.event s'.db (.publish path) = true) : m.Waiting s' where
  homed := hhomed
  handler := hhandler
  checkout payload pending hcheckout hcontinues :=
    (h.checkout payload pending (hturn ▸ hcheckout) hcontinues).onward hs
  gated result hreturned hcontinues := (h.gated result (hturn ▸ hreturned) hcontinues).onward hs

/-- The same where the handler is as far as it was. -/
theorem NextTurn.Waiting.beside (h : m.Waiting s) (hs : Onward s s') (hhomed : m.Homed s')
    (hturn : s'.turn = s.turn) (hhandler : s'.handler = s.handler) : m.Waiting s' :=
  h.onward hs hhomed hturn fun left hleft => by
    obtain ⟨hworkspace, hwritten⟩ := h.handler left (hhandler ▸ hleft)
    exact ⟨hworkspace, fun path hpath => (hwritten path hpath).imp_right hs.present⟩

theorem turn_createIntent (intent : PublishIntent) :
    (s.createIntent intent).turn = s.turn ∧ (s.createIntent intent).handler = s.handler := by
  rw [BarrierState.createIntent]
  split_ifs
  · exact ⟨rfl, rfl⟩
  · exact ⟨rfl, rfl⟩

/-- What the handler writes. -/
theorem write_onward {effect : Effect} (hhomed : m.Homed s)
    (hworkspace : m.services.getWorkspace m.event.claims.chatId =
      some m.event.claims.workspaceId) (h : m.write s effect = some s') :
    Onward s s' ∧ m.Homed s' ∧ s'.turn = s.turn ∧
      ∀ path, effect = .publish path → Present m.event s'.db (.publish path) = true := by
  cases effect with
  | bind =>
    obtain ⟨db, hdb, rfl⟩ := Option.map_eq_some_iff.mp h
    have hintents := intents_putResponseBinding hdb
    refine ⟨.of_eq hintents rfl, fun intent hmem => hhomed intent (hintents ▸ hmem), rfl, ?_⟩
    intro path hpath
    cases hpath
  | publish path =>
    obtain rfl := Option.some.inj h
    refine ⟨onward_createIntent, homed_createIntent hhomed hworkspace, (turn_createIntent _).1, ?_⟩
    intro path' hpath
    obtain rfl := Effect.publish.inj hpath
    exact present_createIntent path

/-- **A step of the handler.** -/
theorem NextTurn.Waiting.record (h : m.Waiting s) (hact : m.act s .record = some s') :
    m.Waiting s' := by
  rw [NextTurn.act] at hact
  split at hact
  · obtain rfl := Option.some.inj hact
    refine h.onward (.of_eq rfl rfl) h.homed rfl fun left hleft => ?_
    dsimp only at hleft
    split_ifs at hleft with hpass
    obtain rfl := HandlerPhase.write.inj hleft
    have hworkspace : m.services.getWorkspace m.event.claims.chatId =
        some m.event.claims.workspaceId := by
      simp only [TerminalAnswers.pass, Bool.and_eq_true] at hpass
      exact of_decide_eq_true hpass.1.1.1
    refine ⟨hworkspace, fun path hpath => .inl ?_⟩
    rw [TerminalEvent.effects, if_pos m.completed]
    exact List.mem_cons_of_mem _ (List.mem_map_of_mem hpath)
  · rename_i effect left hwrite
    split at hact
    · obtain rfl := Option.some.inj hact
      exact h.onward (.of_eq rfl rfl) h.homed rfl fun left hleft => by cases hleft
    · rename_i written heffect
      obtain rfl := Option.some.inj hact
      obtain ⟨hworkspace, hleft⟩ := h.handler _ hwrite
      obtain ⟨honward, hhomed, hturn, hnow⟩ := write_onward h.homed hworkspace heffect
      refine h.onward ⟨honward.kept, honward.new⟩ hhomed hturn fun rest hrest => ?_
      obtain rfl := HandlerPhase.write.inj hrest
      refine ⟨hworkspace, fun path hpath => ?_⟩
      rcases hleft path hpath with hmem | hpresent
      · rcases List.mem_cons.mp hmem with heq | hmem
        · exact .inr (hnow path heq.symm)
        · exact .inl hmem
      · exact .inr (honward.present hpresent)
  · cases hact
  · cases hact

/-- The turn has not passed the barriers. -/
def TurnPhase.Held : TurnPhase → Prop
  | .checkout _ _ | .returned (.ok _) => False
  | _ => True

theorem held_start : (m.turnNext s .start).Held := by
  rw [NextTurn.turnNext]
  split_ifs
  · trivial
  · split
    · trivial
    · trivial

theorem held_walk (link : Json) (seen : Finset String) (pending : ℕ) :
    (m.turnNext s (.walk link seen pending)).Held := by
  rw [NextTurn.turnNext]
  split
  · trivial
  · split_ifs
    · trivial
    · split
      · trivial
      · trivial
      · split_ifs
        · trivial
        · trivial
      · trivial

/-- The reads of the turn leave the database and the handler as they are. -/
theorem NextTurn.Waiting.goto (h : m.Waiting s) {phase : TurnPhase}
    (hcheckout : ∀ payload pending, phase = .checkout payload pending → m.Continues payload →
      m.Settled s)
    (hgated : ∀ result, phase = .returned (.ok result) → m.Continues result → m.Settled s) :
    m.Waiting { s with turn := phase } :=
  ⟨h.homed, h.handler, hcheckout, hgated⟩

theorem NextTurn.Waiting.held (h : m.Waiting s) {phase : TurnPhase} (hheld : phase.Held) :
    m.Waiting { s with turn := phase } :=
  h.goto (fun payload pending heq => by rw [heq] at hheld; cases hheld)
    fun result heq => by rw [heq] at hheld; cases hheld

/-- A turn that goes on from the barriers finds them open, with the handler done. -/
theorem over_of_slips (hturn : s.turn = .barrier payload pending)
    (hslips : m.slips s .turn = false) (hcontinues : m.Continues payload)
    (hopen : s.captureBarriers m.workspaceId = []) : s.handler = .write [] := by
  by_contra hhandler
  have hslip : m.slips s .turn = true := by
    simp only [NextTurn.slips, hturn]
    rw [NextTurn.Continues] at hcontinues
    simp [hcontinues, hopen, text?]
  rw [hslip] at hslips
  cases hslips

/-- **A step of the turn**, where it does not slip through the barriers. -/
theorem NextTurn.Waiting.turn (h : m.Waiting s) (hslips : m.slips s .turn = false)
    (hact : m.act s .turn = some s') : m.Waiting s' := by
  rw [NextTurn.act] at hact
  split at hact
  · cases hact
  · rename_i hover
    obtain rfl := Option.some.inj hact
    cases hturn : s.turn with
    | start => exact h.held held_start
    | walk link seen pending => exact h.held (held_walk link seen pending)
    | barrier payload pending =>
      rw [NextTurn.turnNext]
      split_ifs with hopen
      · refine h.goto (fun payload' pending' heq hcontinues => ?_) fun result heq => by cases heq
        obtain ⟨rfl, rfl⟩ := TurnPhase.checkout.inj heq
        exact settled_of_open h (over_of_slips hturn hslips hcontinues hopen) hopen
      · exact h.held trivial
    | checkout payload pending =>
      refine h.goto (fun _ _ heq => by cases heq) fun result heq hcontinues => ?_
      refine h.checkout payload pending hturn ?_
      exact (get_grantTurn (TurnPhase.returned.inj heq)).symm.trans hcontinues
    | returned result =>
      exact absurd hturn (hover result)

/-- **A step that does not slip through the barriers.** -/
theorem NextTurn.Waiting.step (h : m.Waiting s) (hslips : m.slips s a = false)
    (hact : m.act s a = some s') : m.Waiting s' := by
  cases a with
  | record => exact h.record hact
  | recordFails done =>
    rw [NextTurn.act] at hact
    split at hact
    · obtain rfl := Option.some.inj hact
      exact h.onward (.of_eq rfl rfl) h.homed rfl fun left hleft => by cases hleft
    · rename_i effect left hwrite
      obtain rfl := Option.some.inj hact
      have hwritten : Onward s (if done then (m.write s effect).getD s else s) ∧
          m.Homed (if done then (m.write s effect).getD s else s) ∧
          (if done then (m.write s effect).getD s else s).turn = s.turn := by
        cases done
        · exact ⟨.of_eq rfl rfl, h.homed, rfl⟩
        · cases heffect : m.write s effect with
          | none => exact ⟨.of_eq rfl rfl, h.homed, rfl⟩
          | some written =>
            obtain ⟨honward, hhomed, hturn, -⟩ :=
              write_onward h.homed (h.handler _ hwrite).1 heffect
            exact ⟨honward, hhomed, hturn⟩
      obtain ⟨honward, hhomed, hturn⟩ := hwritten
      exact h.onward ⟨honward.kept, honward.new⟩ hhomed hturn fun left hleft => by cases hleft
    · cases hact
    · cases hact
  | turn => exact h.turn hslips hact
  | turnFails e =>
    rw [NextTurn.act] at hact
    split at hact
    · cases hact
    · obtain rfl := Option.some.inj hact
      refine ⟨h.homed, h.handler, fun payload pending hcheckout => ?_, fun result hreturned => ?_⟩
      · cases hcheckout
      · cases hreturned
  | bindOther binding =>
    obtain ⟨db, hdb, rfl⟩ := Option.map_eq_some_iff.mp hact
    have hintents := intents_putResponseBinding hdb
    exact h.beside (.of_eq hintents rfl) (fun intent hmem => h.homed intent (hintents ▸ hmem)) rfl
      rfl
  | createOther intent =>
    rw [NextTurn.act] at hact
    split_ifs at hact with hhome
    obtain rfl := Option.some.inj hact
    exact h.beside onward_createIntent (homed_createIntent h.homed hhome)
      (turn_createIntent intent).1 (turn_createIntent intent).2
  | drive intent state =>
    rw [NextTurn.act] at hact
    split_ifs at hact with hdrive
    obtain rfl := Option.some.inj hact
    refine h.beside ⟨fun other hmem => ⟨hmem, fun hne => ?_⟩, fun other hmem => .inl hmem⟩ h.homed
      rfl rfl
    dsimp only
    by_cases hsame : other = intent
    · rw [hsame, Function.update_self]
      exact hdrive.resolve_left (hsame ▸ hne)
    · rwa [Function.update_of_ne hsame]

end Waiting

/-! ## A drive leaves `pending` for good -/

section Drive

variable {m : NextTurn settings} {s : BarrierState} {p : DrivenIntent} {d d' : DriveState}
  {a : DriveAction}

theorem state_effect_ne {phase : DrivePhase} (h : phase.Holds (p.row d).state) (now : ℤ)
    (hne : (p.row d).state ≠ .pending) : (p.row (p.effect d now phase)).state ≠ .pending := by
  have hretry (m : MessageIntents) (intent : UploadedIntent) (error : String) :
      (m.retryIntent intent now error false).state ≠ .pending := by
    rw [state_retryIntent]
    split_ifs
    · decide
    · decide
  cases phase with
  | work intent step =>
    cases step with
    | setCaptured id => exact ne_of_eq_of_ne (state_setStatus _ _) (by simp)
    | captureFailed error => exact ne_of_eq_of_ne (state_setStatus _ _) (by simp)
    | giveUp error => exact ne_of_eq_of_ne (state_setStatus _ _) (by simp)
    | count target => exact ne_of_eq_of_ne (state_setStatus _ _) hne
    | setUploading id operation => exact ne_of_eq_of_ne (state_setStatus _ _) (by simp)
    | retryUpload current error =>
      exact ne_of_eq_of_ne (state_setStatus _ _) (hretry _ _ _)
    | setUploaded descriptor => exact ne_of_eq_of_ne (state_setStatus _ _) (by simp)
    | _ => exact hne
  | retry intent current error => exact ne_of_eq_of_ne (state_setStatus _ _) (hretry _ _ _)
  | retryCapture error => exact absurd h hne
  | read => exact hne
  | handle intent error => exact hne

/-- **An intent that is not `pending` any more does not become it again.** -/
theorem drive_leaves_pending (hs : p.Consistent d) (h : p.act d a = some d')
    (hne : (p.row d).state ≠ .pending) : (p.row d').state ≠ .pending := by
  rcases drive_cases h with ⟨-, hrow, -, -⟩ | ⟨phase, hdrive, -, now, drive, rfl, -⟩ |
    ⟨intent, current, phase, hdrive, b, stores, t, hact, drive, rfl, -⟩
  · rwa [hrow]
  · cases a.done
    · exact hne
    · exact state_effect_ne (hs phase hdrive) now hne
  · have hphase : phase.Holds (d.stores.status (p.uploadedIntent current).id).state := hs _ hdrive
    obtain ⟨-, -, hrecorded, -⟩ := bind_act hphase hact
    intro hpending
    have hstate : (stores.status p.id).state = .pending := hpending
    rw [DrivenIntent.uploadedIntent, hstate] at hrecorded
    cases hrecorded

/-- What a drive does to its intent is an action of the database. -/
theorem act_drive {intent : PublishIntent} (hs : p.Consistent d) (h : p.act d a = some d')
    (hstate : s.state intent = (p.row d).state) :
    ∃ s', m.act s (.drive intent (p.row d').state) = some s' ∧
      s'.state intent = (p.row d').state := by
  refine ⟨_, if_pos ?_, Function.update_self ..⟩
  by_cases hpending : s.state intent = .pending
  · exact .inl hpending
  · exact .inr (drive_leaves_pending hs h (hstate ▸ hpending))

end Drive

/-! ## The main result -/

/-- **A turn that continues a Response is granted once the files it names are captured, or have
failed**, in every run in which it does not pass the barriers before their intents are there. -/
theorem turn_gated {m : NextTurn settings} {s w : BarrierState} (hhomed : m.Homed s)
    (hchecks : s.handler = .checks) (hstart : s.turn = .start) {as : List BarrierAction}
    (hmeets : Machine.Meets m.act (fun s a => m.slips s a = false) s as)
    (hrun : Machine.run m.act s as = some w) : m.Gated w := by
  have hwaiting : m.Waiting s := by
    refine ⟨hhomed, fun left hleft => ?_, fun payload pending hcheckout => ?_,
      fun result hreturned => ?_⟩
    · rw [hchecks] at hleft
      cases hleft
    · rw [hstart] at hcheckout
      cases hcheckout
    · rw [hstart] at hreturned
      cases hreturned
  have hstep : ∀ s a s', m.slips s a = false → m.Waiting s → m.act s a = some s' →
      m.Waiting s' := fun s a s' hslips h hact => h.step hslips hact
  exact (Machine.run_invariant hstep hmeets hrun hwaiting).gated

/-! ## Two runs -/

/-- A chat whose first turn is answered. -/
def nextTurnServices : Services :=
  { services [("m0", questionMessage .null), ("m1", answerMessage "m0" [("content", .str "done")]),
      ("u2", questionMessage (.str "m1"))] [] with
    chatOwner := fun _ _ => some "u" }

/-- The message `u2` is under the answer of the Response. -/
def nextTurn : NextTurn transferSettings where
  event := sampleEvent
  completed := rfl
  userFound := true
  chatWritable := true
  messageRole := some "assistant"
  services := nextTurnServices
  user := ⟨"u", "user"⟩
  metadata := metadataOf "u2" "m1"
  ids := ⟨"c", "u2", "new"⟩
  workspaceId := "w"
  payload := []
  request := ⟨rfl, rfl, rfl, rfl, rfl, ⟨_, rfl⟩, rfl, rfl⟩
  sameChat := rfl

/-- A turn before its terminal event. -/
def barrierStart : BarrierState := ⟨⟨[], [], []⟩, fun _ => .pending, .checks, .start⟩

/-- The intent of the event's candidate. -/
def sampleIntent : PublishIntent := sampleEvent.intent "a.txt".toList

/-- What a turn that is granted continues. -/
def BarrierState.continued (s : BarrierState) : Option String :=
  match s.turn with
  | .returned (.ok result) => text? (Members.get result "previous_response_id")
  | _ => none

theorem eq_str_of_text? {value : Json} {id : String} (h : text? value = some id) :
    value = .str id := by
  cases value with
  | str => exact congrArg Json.str (Option.some.inj h)
  | _ => cases h

theorem exists_continued {s : BarrierState} {id : String} (h : s.continued = some id) :
    ∃ result, s.turn = .returned (.ok result) ∧
      Members.get result "previous_response_id" = .str id := by
  rw [BarrierState.continued] at h
  split at h
  · rename_i result hturn
    exact ⟨result, hturn, eq_str_of_text? h⟩
  · cases h

/-- The turn waits until the file is captured. -/
def heldTurn : List BarrierAction :=
  [.record, .record, .turn, .turn, .record, .turn, .drive sampleIntent .captured, .turn, .turn]

theorem turn_gated_held : ∃ w, Machine.run nextTurn.act barrierStart heldTurn = some w ∧
    w.continued = some "resp_0" ∧ nextTurn.Settled w := by
  have hcontinued : (Machine.run nextTurn.act barrierStart heldTurn).map
      BarrierState.continued = some (some "resp_0") := by decide +kernel
  obtain ⟨w, hrun, hcontinued⟩ := Option.map_eq_some_iff.mp hcontinued
  obtain ⟨result, hturn, hresult⟩ := exists_continued hcontinued
  have hgated : nextTurn.Gated w :=
    turn_gated (fun _ h => absurd h List.not_mem_nil) rfl rfl (by decide +kernel) hrun
  exact ⟨w, hrun, hcontinued, hgated result hturn hresult⟩

/-- The turn reads the barriers between the binding and the intent. -/
def slippingTurn : List BarrierAction :=
  [.record, .record, .turn, .turn, .turn, .turn, .record]

theorem not_turn_gated : ∃ w, Machine.run nextTurn.act barrierStart slippingTurn = some w ∧
    ¬ nextTurn.Gated w := by
  have hcontinued : (Machine.run nextTurn.act barrierStart slippingTurn).map
      (fun w => (w.continued, decide (sampleIntent ∈ w.captureBarriers "w"))) =
        some (some "resp_0", true) := by decide +kernel
  obtain ⟨w, hrun, hw⟩ := Option.map_eq_some_iff.mp hcontinued
  obtain ⟨hcontinued, hpending⟩ := Prod.mk.inj hw
  obtain ⟨result, hturn, hresult⟩ := exists_continued hcontinued
  obtain ⟨hmem, hstate⟩ := List.mem_filter.mp (of_decide_eq_true hpending)
  refine ⟨w, hrun, fun hgated => ?_⟩
  have hcandidate : "a.txt".toList ∈ nextTurn.candidates := by decide +kernel
  refine (hgated result hturn hresult _ hcandidate).2 sampleIntent hmem ?_ ?_
  · exact sameCandidate_iff.mpr ⟨rfl, rfl, rfl⟩
  · exact of_decide_eq_true (Bool.and_eq_true_iff.mp hstate).2

end CodexGateway.OpenWebui
