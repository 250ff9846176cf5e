import CodexGateway.Library.Ticket
import CodexGateway.SandboxApi.ArtifactRefs
import CodexGateway.SandboxApi.Grants

/-!
# OpenWebui/Terminal — the terminal event of a Response

When a Response ends, the Adapter posts its output to the bridge, up to three times until a reply
says it was taken.  The bridge consumes the nonce of the grant in a transaction of its own, then
checks the chat, and then writes the binding of the Response and an intent for each file the output
names, each in a transaction of its own.

Writing them once more is harmless, but a delivery after the nonce was consumed is refused before it
writes anything.  So what is recorded in the end is what was there before and what the deliveries
that consumed the nonce came to (`recorded_iff`): a delivery that is processed without a fault
completes nothing when an earlier one failed between the nonce and the last intent.
-/

namespace CodexGateway.OpenWebui

open PyJson SandboxApi

/-! ## The database of the bridge -/

/-- A row of the bindings of Responses to messages. -/
structure ResponseBinding where
  assistantMessageId : String
  chatId : String
  responseId : String
  workspaceId : String
  ownerUserId : String
  deriving DecidableEq

/-- An intent as it is created, in the state `pending`. -/
structure PublishIntent where
  chatId : String
  ownerUserId : String
  workspaceId : String
  assistantMessageId : String
  responseId : String
  outputRelativePath : Text
  deriving DecidableEq

/-- The tables of the bridge that the handler writes. -/
structure BridgeDb where
  nonces : List (Ticket.Row String)
  bindings : List ResponseBinding
  intents : List PublishIntent

/-- `put_response_binding`, which fails where the message or the Response is bound otherwise. -/
def putResponseBinding (db : BridgeDb) (binding : ResponseBinding) : Option BridgeDb :=
  match db.bindings.find? (·.assistantMessageId = binding.assistantMessageId) with
  | none =>
    if db.bindings.any (·.responseId = binding.responseId) then none
    else some { db with bindings := db.bindings ++ [binding] }
  | some existing =>
    if existing.responseId ≠ binding.responseId ∨ existing.chatId ≠ binding.chatId then none
    else some db

/-- The unique constraint of an intent. -/
def PublishIntent.sameCandidate (a b : PublishIntent) : Bool :=
  a.chatId = b.chatId && a.assistantMessageId = b.assistantMessageId &&
    a.outputRelativePath = b.outputRelativePath

/-- `create_publish_intent`, which leaves the intent of the candidate as it is. -/
def createPublishIntent (db : BridgeDb) (intent : PublishIntent) : BridgeDb :=
  if db.intents.any (·.sameCandidate intent) then db
  else { db with intents := db.intents ++ [intent] }

/-! ## The event and its grant -/

/-- The settings of the grants. -/
structure TransferSettings where
  key : GrantKey
  terminalGrantTtlSeconds : ℤ

/-- The claims of the grant that the handler reads. -/
structure TerminalClaims where
  chatId : String
  workspaceId : String
  userId : String
  assistantMessageId : String
  deriving DecidableEq

/-- `_claim_string` -/
def claimString (payload : Members) (name : String) : Option String :=
  (text? (payload.get name)).filter (· ≠ "")

/-- The claims of a terminal grant. -/
def terminalClaims (payload : Members) : Option TerminalClaims := do
  return {
    chatId := ← claimString payload "chat_id"
    workspaceId := ← claimString payload "workspace_id"
    userId := ← claimString payload "user_id"
    assistantMessageId := ← claimString payload "assistant_message_id" }

/-- The event of a Response: what the Adapter posts, with a grant the bridge issued for a message. -/
structure TerminalEvent (settings : TransferSettings) where
  responseId : String
  /-- Whether the status is `completed`. -/
  completed : Bool
  outputText : Text
  grant : List Char
  payload : Members
  read : readGrant settings.key grant = .ok payload
  claims : TerminalClaims
  named : terminalClaims payload = some claims

variable {settings : TransferSettings}

/-- The binding that an event asks for. -/
def TerminalEvent.binding (event : TerminalEvent settings) : ResponseBinding where
  assistantMessageId := event.claims.assistantMessageId
  chatId := event.claims.chatId
  responseId := event.responseId
  workspaceId := event.claims.workspaceId
  ownerUserId := event.claims.userId

/-- The intent for a candidate of an event. -/
def TerminalEvent.intent (event : TerminalEvent settings) (path : Text) : PublishIntent where
  chatId := event.claims.chatId
  ownerUserId := event.claims.userId
  workspaceId := event.claims.workspaceId
  assistantMessageId := event.claims.assistantMessageId
  responseId := event.responseId
  outputRelativePath := path

/-- What is written for an event, one transaction each. -/
inductive Effect where
  | bind
  | publish (path : Text)
  deriving DecidableEq

/-- What the handler does, in this order. -/
def TerminalEvent.effects (event : TerminalEvent settings) : List Effect :=
  .bind :: if event.completed then
    (sandboxCandidates event.outputText event.claims.assistantMessageId.toList).map .publish
  else []

/-- One effect, in its own transaction. -/
def perform (event : TerminalEvent settings) (db : BridgeDb) : Effect → Option BridgeDb
  | .bind => putResponseBinding db event.binding
  | .publish path => some (createPublishIntent db (event.intent path))

/-- The first `count` effects, and whether these were all; one that fails stops the handler. -/
def performAll (event : TerminalEvent settings) (db : BridgeDb) :
    List Effect → ℕ → BridgeDb × Bool
  | [], _ => (db, true)
  | _ :: _, 0 => (db, false)
  | effect :: effects, count + 1 =>
    match perform event db effect with
    | none => (db, false)
    | some db => performAll event db effects count

/-! ## Deliveries -/

/-- What the other services answer the handler. -/
structure TerminalAnswers where
  /-- The Workspace of the chat. -/
  workspaceId : Option String
  userFound : Bool
  /-- The user may write the chat. -/
  chatWritable : Bool
  /-- The role of the assistant message, when the message is there. -/
  messageRole : Option String

/-- The checks of `record_terminal_response` before it writes. -/
def TerminalAnswers.pass (answers : TerminalAnswers) (claims : TerminalClaims) : Bool :=
  answers.workspaceId = some claims.workspaceId && answers.userFound && answers.chatWritable &&
    answers.messageRole.all (· = "assistant")

/-- How far a request to the bridge comes. -/
inductive Fate where
  /-- The request does not reach the bridge. -/
  | lost
  /-- The handler fails before the nonce is committed. -/
  | raisedBefore
  /-- The handler fails after the nonce and the first `count` effects are committed. -/
  | raisedAfter (count : ℕ)
  /-- The handler meets no fault; its reply arrives or is lost. -/
  | processed (replied : Bool)
  deriving DecidableEq

/-- One post of the event: the readings of the clock by the grant's check and by the nonce's, the
answers the handler gets, and where it fails. -/
structure Delivery where
  now : ℤ
  now' : ℤ
  answers : TerminalAnswers
  fate : Fate

/-- How many effects a delivery comes to. -/
def Delivery.reach (d : Delivery) (effects : List Effect) : ℕ :=
  match d.fate with
  | .lost | .raisedBefore => 0
  | .raisedAfter count => count
  | .processed _ => effects.length

/-- The delivery reaches the bridge and is not stopped before the nonce is committed. -/
def Delivery.arrives (d : Delivery) : Bool := d.fate ≠ .lost && d.fate ≠ .raisedBefore

/-- `_transfer_claims` -/
def transferClaims (settings : TransferSettings) (nonces : List (Ticket.Row String))
    (token : List Char) (now now' : ℤ) :
    List (Ticket.Row String) × Except String Claims :=
  match verifyGrant settings.key token "open-webui-transfer" (some "response_terminal")
      settings.terminalGrantTtlSeconds now with
  | .error _ => (nonces, .error "Transfer grant is invalid")
  | .ok claims =>
    if claims.issuer ≠ "open-webui-bff" then (nonces, .error "Transfer issuer is invalid")
    else match Ticket.consume nonces claims.nonce claims.expiresAt now' with
      | (nonces, false) => (nonces, .error "Transfer grant was already used")
      | (nonces, true) => (nonces, .ok claims)

/-- The handler: the database afterwards, and whether the Adapter gets the reply that the event was
taken. -/
def responseTerminal (event : TerminalEvent settings) (db : BridgeDb) (d : Delivery) :
    BridgeDb × Bool :=
  if d.arrives = false then (db, false)
  else match transferClaims settings db.nonces event.grant d.now d.now' with
    | (nonces, .error _) => ({ db with nonces }, false)
    | (nonces, .ok claims) =>
      match terminalClaims claims.payload with
      | none => ({ db with nonces }, false)
      | some terminal =>
        if d.answers.pass terminal = false then ({ db with nonces }, false)
        else
          let r := performAll event { db with nonces } event.effects (d.reach event.effects)
          (r.1, r.2 && d.fate = .processed true)

/-- The deliveries, until one is answered. -/
def deliverAll (event : TerminalEvent settings) (db : BridgeDb) : List Delivery → BridgeDb
  | [] => db
  | d :: ds =>
    if (responseTerminal event db d).2 then (responseTerminal event db d).1
    else deliverAll event (responseTerminal event db d).1 ds

/-- `_notify_terminal`: at most three deliveries. -/
def notifyTerminal (event : TerminalEvent settings) (db : BridgeDb) (ds : List Delivery) :
    BridgeDb := deliverAll event db (ds.take 3)

/-! ## What is recorded -/

/-- The effect stands in the database. -/
def Present (event : TerminalEvent settings) (db : BridgeDb) : Effect → Bool
  | .bind => db.bindings.any fun b => b.assistantMessageId = event.binding.assistantMessageId &&
      b.responseId = event.responseId && b.chatId = event.claims.chatId
  | .publish path => db.intents.any (·.sameCandidate (event.intent path))

/-- The binding, and an intent for each candidate of the completed output. -/
def Recorded (event : TerminalEvent settings) (db : BridgeDb) : Bool :=
  event.effects.all (Present event db)

/-- The message or the Response is bound otherwise. -/
def Conflict (event : TerminalEvent settings) (db : BridgeDb) : Bool :=
  (putResponseBinding db event.binding).isNone

/-- The deliveries that consume the nonce of the grant: those that come to it while it is valid and
unused. -/
def accepted (event : TerminalEvent settings) (nonces : List (Ticket.Row String)) :
    List Delivery → List Delivery
  | [] => []
  | d :: ds =>
    if d.arrives = false then accepted event nonces ds
    else match transferClaims settings nonces event.grant d.now d.now' with
      | (nonces, .error _) => accepted event nonces ds
      | (nonces, .ok _) => d :: accepted event nonces ds

/-! ## What an effect does -/

variable {event : TerminalEvent settings} {db db' : BridgeDb}

theorem sameCandidate_intent (a b : Text) :
    (event.intent a).sameCandidate (event.intent b) = true ↔ a = b := by
  simp only [PublishIntent.sameCandidate, TerminalEvent.intent, decide_true, Bool.true_and]
  exact decide_eq_true_iff

/-- Whether the binding fails is read off the bindings. -/
theorem conflict_congr (h : db'.bindings = db.bindings) :
    Conflict event db' = Conflict event db := by
  simp only [Conflict, putResponseBinding, h]
  split <;> split_ifs <;> rfl

/-- The effect is there afterwards, and nothing else changes. -/
structure Performed (event : TerminalEvent settings) (db : BridgeDb) (effect : Effect)
    (db' : BridgeDb) : Prop where
  present : ∀ x, Present event db' x = true ↔ Present event db x = true ∨ x = effect
  nonces : db'.nonces = db.nonces
  noConflict : Conflict event db = false → Conflict event db' = false

theorem perform_bind (h : perform event db .bind = some db') : Performed event db .bind db' := by
  simp only [perform, putResponseBinding] at h
  split at h
  · rename_i hunbound
    split_ifs at h with hresponse
    obtain rfl := Option.some.inj h
    refine ⟨fun x => ?_, rfl, fun _ => ?_⟩
    · cases x <;> simp [Present, TerminalEvent.binding]
    · simp [Conflict, putResponseBinding, List.find?_append, hunbound]
  · rename_i existing hbound
    split_ifs at h with hother
    obtain rfl := Option.some.inj h
    refine ⟨fun x => ?_, rfl, id⟩
    obtain ⟨hresponse, hchat⟩ := not_or.mp hother
    have hpresent : Present event db .bind = true := by
      refine List.any_eq_true.mpr ⟨existing, List.mem_of_find?_eq_some hbound, ?_⟩
      have hmessage := List.find?_some hbound
      simpa [hmessage] using ⟨not_not.mp hresponse, not_not.mp hchat⟩
    exact ⟨.inl, fun hx => hx.elim id fun hx => hx ▸ hpresent⟩

theorem perform_publish {path : Text} (h : perform event db (.publish path) = some db') :
    Performed event db (.publish path) db' := by
  simp only [perform, createPublishIntent, Option.some.injEq] at h
  split_ifs at h with hexists
  · subst h
    exact ⟨fun x => ⟨.inl, fun hx => hx.elim id fun hx => hx ▸ hexists⟩, rfl, id⟩
  · subst h
    refine ⟨fun x => ?_, rfl, fun hfree => ?_⟩
    · cases x with
      | bind => simp [Present]
      | publish other =>
        simp only [Present, List.any_append, List.any_cons, List.any_nil, Bool.or_false,
          Bool.or_eq_true, sameCandidate_intent, Effect.publish.injEq]
        exact or_congr_right eq_comm
    · rw [← hfree]
      exact conflict_congr rfl

theorem perform_performed {effect : Effect} (h : perform event db effect = some db') :
    Performed event db effect db' := by
  cases effect with
  | bind => exact perform_bind h
  | publish path => exact perform_publish h

theorem exists_perform (hfree : Conflict event db = false) (effect : Effect) :
    ∃ db', perform event db effect = some db' := by
  cases effect with
  | bind =>
    have hsome : (putResponseBinding db event.binding).isSome := by
      simpa [Conflict, Option.isSome_iff_ne_none] using hfree
    exact Option.isSome_iff_exists.mp hsome
  | publish path => exact ⟨_, rfl⟩

/-- **Where nothing is bound otherwise, the effects come to be one after the other.** -/
theorem performAll_free (hfree : Conflict event db = false) (effects : List Effect) (count : ℕ) :
    (∀ x, Present event (performAll event db effects count).1 x = true ↔
      Present event db x = true ∨ x ∈ effects.take count) ∧
    (performAll event db effects count).1.nonces = db.nonces ∧
    Conflict event (performAll event db effects count).1 = false ∧
    ((performAll event db effects count).2 = true → effects.length ≤ count) := by
  induction effects generalizing db count with
  | nil => exact ⟨fun x => by simp [performAll], rfl, hfree, fun _ => Nat.zero_le _⟩
  | cons effect effects ih =>
    cases count with
    | zero => exact ⟨fun x => by simp [performAll], rfl, hfree, fun h => by cases h⟩
    | succ count =>
      obtain ⟨mid, hmid⟩ := exists_perform hfree effect
      have hperformed := perform_performed hmid
      obtain ⟨hpresent, hnonces, hkept, hall⟩ := ih (hperformed.noConflict hfree) count
      rw [performAll, hmid]
      refine ⟨fun x => ?_, hnonces.trans hperformed.nonces, hkept, fun h => ?_⟩
      · rw [hpresent, hperformed.present, List.take_succ_cons, List.mem_cons, or_assoc]
      · exact Nat.succ_le_succ (hall h)

/-- Where the message or the Response is bound otherwise, the first effect fails. -/
theorem performAll_conflict (hconflict : Conflict event db = true) (count : ℕ) :
    performAll event db event.effects count = (db, false) := by
  cases count with
  | zero => rfl
  | succ count =>
    have hnone : putResponseBinding db event.binding = none := Option.isNone_iff_eq_none.mp hconflict
    rw [TerminalEvent.effects, performAll, perform, hnone]

/-! ## What the deliveries record -/

theorem transferClaims_ok {nonces : List (Ticket.Row String)} {token : List Char} {now now' : ℤ}
    {r : List (Ticket.Row String)} {claims : Claims}
    (h : transferClaims settings nonces token now now' = (r, .ok claims)) :
    readGrant settings.key token = .ok claims.payload := by
  unfold transferClaims at h
  split at h
  · cases h
  · rename_i verified hverify
    split_ifs at h
    · cases h
    · split at h
      · cases h
      · cases h
        exact (verifyGrant_ok hverify).read

/-- A delivery whose nonce is consumed reads the claims of the event. -/
theorem TerminalEvent.claims_of_accepted (event : TerminalEvent settings)
    {nonces r : List (Ticket.Row String)} {now now' : ℤ} {claims : Claims}
    (h : transferClaims settings nonces event.grant now now' = (r, .ok claims)) :
    terminalClaims claims.payload = some event.claims := by
  rw [← Except.ok.inj (event.read.symm.trans (transferClaims_ok h))]
  exact event.named

/-- The table of nonces alone changes. -/
theorem present_nonces (nonces : List (Ticket.Row String)) (x : Effect) :
    Present event { db with nonces } x = Present event db x := by cases x <;> rfl

theorem conflict_nonces (nonces : List (Ticket.Row String)) :
    Conflict event { db with nonces } = Conflict event db := conflict_congr rfl

/-- The effect stands in the database, or a delivery that consumes the nonce comes to it. -/
def Reached (event : TerminalEvent settings) (db : BridgeDb) (ds : List Delivery)
    (x : Effect) : Prop :=
  Present event db x = true ∨ Conflict event db = false ∧
    ∃ d ∈ accepted event db.nonces ds, d.answers.pass event.claims = true ∧
      x ∈ event.effects.take (d.reach event.effects)

/-- **What the deliveries leave in the database.** -/
theorem recorded_deliverAll (ds : List Delivery) :
    Recorded event (deliverAll event db ds) = true ↔ ∀ x ∈ event.effects, Reached event db ds x := by
  induction ds generalizing db with
  | nil => simp [deliverAll, Recorded, Reached, accepted]
  | cons d ds ih =>
    rw [deliverAll]
    by_cases harrives : d.arrives = false
    · have hskip : responseTerminal event db d = (db, false) := if_pos harrives
      rw [hskip, if_neg (by simp), ih]
      simp only [Reached, accepted, if_pos harrives]
    · rcases hclaims : transferClaims settings db.nonces event.grant d.now d.now' with
        ⟨nonces, e | claims⟩
      · have hskip : responseTerminal event db d = ({ db with nonces }, false) := by
          rw [responseTerminal, if_neg harrives, hclaims]
        rw [hskip, if_neg (by simp), ih]
        simp only [Reached, accepted, if_neg harrives, hclaims, present_nonces, conflict_nonces]
      · have hnamed := event.claims_of_accepted hclaims
        have haccepted : accepted event db.nonces (d :: ds) = d :: accepted event nonces ds := by
          rw [accepted, if_neg harrives, hclaims]
        by_cases hpass : d.answers.pass event.claims = false
        · have hskip : responseTerminal event db d = ({ db with nonces }, false) := by
            simp only [responseTerminal, if_neg harrives, hclaims, hnamed, if_pos hpass]
          rw [hskip, if_neg (by simp), ih]
          simp [Reached, haccepted, present_nonces, conflict_nonces, hpass]
        · have hrun : responseTerminal event db d =
              ((performAll event { db with nonces } event.effects (d.reach event.effects)).1,
                (performAll event { db with nonces } event.effects (d.reach event.effects)).2 &&
                  d.fate = .processed true) := by
            simp only [responseTerminal, if_neg harrives, hclaims, hnamed, if_neg hpass]
          have hpass : d.answers.pass event.claims = true := by simpa using hpass
          rw [hrun]
          cases hconflict : Conflict event db with
          | true =>
            rw [performAll_conflict (by rw [conflict_nonces, hconflict]), if_neg (by simp), ih]
            simp [Reached, haccepted, present_nonces, conflict_nonces, hconflict]
          | false =>
            have hfree : Conflict event { db with nonces } = false := by
              rw [conflict_nonces, hconflict]
            obtain ⟨hpresent, hnonces, hfree, hall⟩ := performAll_free hfree event.effects
              (d.reach event.effects)
            simp only [present_nonces] at hpresent
            split_ifs with hdone
            · have hdone := (Bool.and_eq_true _ _).mp hdone
              refine iff_of_true (List.all_eq_true.mpr fun x hx => (hpresent x).mpr (.inr ?_))
                fun x hx => .inr ⟨hconflict, d, haccepted ▸ List.mem_cons_self, hpass, ?_⟩
              all_goals rwa [List.take_of_length_le (hall hdone.1)]
            · rw [ih]
              simp only [Reached, hpresent, hnonces, hfree, haccepted, hconflict, true_and,
                List.mem_cons, exists_eq_or_imp, hpass, or_assoc]

/-- A delivery reaches the bridge and is processed without a fault. -/
def FaultFree (event : TerminalEvent settings) (ds : List Delivery) : Prop :=
  ∃ d ∈ ds.take 3, d.answers.pass event.claims = true ∧
    (d.fate = .processed true ∨ d.fate = .processed false)

/-- **A fault-free delivery leaves the event recorded exactly when the deliveries that consume the
nonce come to everything that was not there.** -/
theorem recorded_iff (event : TerminalEvent settings) (db : BridgeDb) (ds : List Delivery) :
    (FaultFree event ds → Recorded event (notifyTerminal event db ds) = true) ↔
      (FaultFree event ds → ∀ x ∈ event.effects, Reached event db (ds.take 3) x) :=
  imp_congr_right fun _ => recorded_deliverAll _

/-! ## A delivery that fails after the nonce -/

/-- The object of a grant for the message `m1` of the chat `c`, encoded. -/
def sampleGrant : List Char :=
  ["eyJhc3Npc3RhbnRf", "bWVzc2FnZV9pZCI6", "Im0xIiwiYXVkIjoi", "b3Blbi13ZWJ1aS10",
   "cmFuc2ZlciIsImNo", "YXRfaWQiOiJjIiwi", "ZXhwIjo3MzAwLCJp", "YXQiOjEwMCwiaXNz",
   "Ijoib3Blbi13ZWJ1", "aS1iZmYiLCJub25j", "ZSI6Im4iLCJvcGVy", "YXRpb24iOiJyZXNw",
   "b25zZV90ZXJtaW5h", "bCIsInVzZXJfaWQi", "OiJ1IiwidXNlcl9t", "ZXNzYWdlX2lkIjoi",
   "bTAiLCJ3b3Jrc3Bh", "Y2VfaWQiOiJ3In0"].flatMap String.toList

/-- The HMAC-SHA256 of that text under the secret `secret`; the text of ASCII bytes. -/
def transferSettings : TransferSettings where
  terminalGrantTtlSeconds := 7200
  key :=
    { sign := fun text => if text = sampleGrant then
        [34, 240, 39, 199, 241, 62, 135, 1, 111, 187, 73, 56, 60, 153, 167, 126,
          142, 176, 223, 193, 181, 141, 200, 3, 108, 52, 235, 109, 212, 130, 199, 163]
        else []
      decode := fun bytes => some (bytes.map fun b => Char.ofNat b.toNat) }

/-- The grant of a turn, as it is issued. -/
def grantToken : List Char :=
  sampleGrant ++ [".IvAnx_E-hwFvu0k", "4PJmnfo6w38G1jcg", "DbDTrbdSCx6M"].flatMap String.toList

theorem eq_ok_get {ε α : Type} {x : Except ε α} (h : x.toOption.isSome) :
    x = .ok (x.toOption.get h) := by
  cases x with
  | error e => cases h
  | ok a => rfl

/-- The text of an answer that names one file. -/
def sampleOutput : String := "sandbox:/workspace/outputs/m1/a.txt"

/-- The event of a turn with one candidate. -/
def sampleEvent : TerminalEvent transferSettings where
  responseId := "resp_0"
  completed := true
  outputText := sampleOutput.toList
  grant := grantToken
  payload := (readGrant transferSettings.key grantToken).toOption.get (by decide +kernel)
  read := eq_ok_get _
  claims := ⟨"c", "w", "u", "m1"⟩
  named := by decide +kernel

/-- The first delivery fails between the nonce and the binding; the second one meets no fault. -/
def lateFault : List Delivery :=
  [⟨200, 200, ⟨some "w", true, true, none⟩, .raisedAfter 0⟩,
    ⟨201, 201, ⟨some "w", true, true, none⟩, .processed true⟩]

/-- A fault-free delivery is refused for the nonce, and nothing is recorded. -/
theorem not_recorded_lateFault : FaultFree sampleEvent lateFault ∧
    Recorded sampleEvent (notifyTerminal sampleEvent ⟨[], [], []⟩ lateFault) = false :=
  ⟨⟨_, List.mem_cons_of_mem _ List.mem_cons_self, by decide, .inl rfl⟩, by decide +kernel⟩

end CodexGateway.OpenWebui
