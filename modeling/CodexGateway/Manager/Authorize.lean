import CodexGateway.Library.Machine
import CodexGateway.Library.Ticket
import CodexGateway.SandboxApi.Grants

/-!
# Manager/Authorize — grants are used once

Every request with a grant begins with `_authorize`, which verifies the token and then consumes its
nonce in the durable table.  The two read the clock one after the other, and consuming drops what has
expired by then: when the token expires between the two readings, its own row is dropped and the
token is accepted once more.  Where no used token expires between the two readings, none is accepted
twice; and in every run a token is accepted in its time only (`grants_used_once`).
-/

namespace CodexGateway.Manager

open PyJson SandboxApi

/-- The settings `_authorize` reads. -/
structure GrantSettings where
  key : GrantKey
  operationGrantIssuer : String

/-- The table of used nonces. -/
abbrev Nonces := List (Ticket.Row String)

/-- `now` is the clock as `verify_grant` reads it, `now'` as `consume_nonce` does. -/
def authorize (settings : GrantSettings) (nonces : Nonces) (token : List Char)
    (operation workspaceId : Option String) (now now' : ℤ) : Nonces × Except String Claims :=
  match verifyGrant settings.key token "sandbox-manager" operation 900 now with
  | .error e => (nonces, .error e.message)
  | .ok claims =>
    if claims.issuer ≠ settings.operationGrantIssuer then
      (nonces, .error "Workspace grant issuer does not match")
    else if workspaceId.isSome ∧ text? (claims.payload.get "workspace_id") ≠ workspaceId then
      (nonces, .error "Workspace grant binding does not match")
    else match Ticket.consume nonces claims.nonce claims.expiresAt now' with
      | (nonces, false) => (nonces, .error "Workspace grant was already consumed")
      | (nonces, true) => (nonces, .ok claims)

/-! ## Runs of the Manager -/

/-- The requests that carry a grant. -/
inductive GrantRequest where
  | createWorkspace (workspaceId : String)
  | inspectWorkspace (workspaceId : String)
  | releaseWorkspace (workspaceId : String)
  | createOperation
  | createSandbox
  deriving DecidableEq, Repr

/-- The operation that a request needs a grant for, where one is fixed. -/
def GrantRequest.operation : GrantRequest → Option String
  | .createWorkspace _ => some "workspace_create"
  | .inspectWorkspace _ => some "workspace_inspect"
  | .releaseWorkspace _ => some "workspace_release"
  | .createOperation => none
  | .createSandbox => some "sandbox_create"

/-- The Workspace that a request names. -/
def GrantRequest.workspaceId : GrantRequest → Option String
  | .createWorkspace workspaceId | .inspectWorkspace workspaceId
  | .releaseWorkspace workspaceId => some workspaceId
  | .createOperation | .createSandbox => none

/-- A token that was accepted, and when its times were checked. -/
structure Acceptance where
  token : List Char
  time : ℤ

/-- The durable table, the clock as it was last read, and the tokens accepted so far. -/
structure GrantState where
  nonces : Nonces
  clock : ℤ
  accepted : List Acceptance

/-- The Manager before the first request. -/
def GrantState.start (clock : ℤ) : GrantState := ⟨[], clock, []⟩

/-- A request with its token and the two readings of the clock, or a restart. -/
inductive GrantAction where
  | request (request : GrantRequest) (token : List Char) (now now' : ℤ)
  /-- The Manager stops and starts again; the table is durable. -/
  | restart (now : ℤ)

/-- A step of the Manager.  The clock does not run backwards. -/
def grantStep (settings : GrantSettings) (s : GrantState) : GrantAction → Option GrantState
  | .request request token now now' =>
    if s.clock ≤ now ∧ now ≤ now' then
      match authorize settings s.nonces token request.operation request.workspaceId now now' with
      | (nonces, .error _) => some { s with nonces, clock := now' }
      | (nonces, .ok _) =>
        some { nonces, clock := now', accepted := ⟨token, now⟩ :: s.accepted }
    else none
  | .restart now => if s.clock ≤ now then some { s with clock := now } else none

/-- A token that was accepted before does not expire between the two readings of the clock: where
`verify_grant` reads a time before its expiry, so does `consume_nonce`. -/
def StillValid (settings : GrantSettings) (s : GrantState) : GrantAction → Prop
  | .request _ token now now' => token ∈ s.accepted.map Acceptance.token →
      ∀ times ∈ grantTimes settings.key token, now < times.2 → now' < times.2
  | .restart _ => True

instance (settings : GrantSettings) (s : GrantState) :
    ∀ action, Decidable (StillValid settings s action)
  | .request _ token now now' => inferInstanceAs (Decidable
      (token ∈ s.accepted.map Acceptance.token →
        ∀ times ∈ grantTimes settings.key token, now < times.2 → now' < times.2))
  | .restart _ => inferInstanceAs (Decidable True)

/-! ## What a request does -/

variable {settings : GrantSettings} {s s' : GrantState}

/-- **What `_authorize` does to the table**: nothing, or it consumes the nonce of verified claims. -/
theorem authorize_cases {nonces : Nonces} {token : List Char}
    {operation workspaceId : Option String} {now now' : ℤ} {r : Nonces × Except String Claims}
    (h : authorize settings nonces token operation workspaceId now now' = r) :
    (r.1 = nonces ∧ ∃ e, r.2 = .error e) ∨
      ∃ claims, Verified settings.key token "sandbox-manager" operation 900 now claims ∧
        r.1 = (Ticket.consume nonces claims.nonce claims.expiresAt now').1 ∧
        ((∃ e, r.2 = .error e) ∨ r.2 = .ok claims ∧
          (Ticket.consume nonces claims.nonce claims.expiresAt now').2 = true) := by
  subst h
  unfold authorize
  split
  · exact .inl ⟨rfl, _, rfl⟩
  · rename_i claims hverify
    split_ifs
    · exact .inl ⟨rfl, _, rfl⟩
    · exact .inl ⟨rfl, _, rfl⟩
    · refine .inr ⟨claims, verifyGrant_ok hverify, ?_⟩
      split
      · rename_i hconsume
        exact ⟨by rw [hconsume], .inl ⟨_, rfl⟩⟩
      · rename_i hconsume
        exact ⟨by rw [hconsume], .inr ⟨rfl, by rw [hconsume]⟩⟩

/-- **What a step does**: the table stays or consumes a nonce, and nothing is accepted; or the claims
of a verified token are consumed, which were not before, and the token is accepted. -/
theorem grantStep_cases {action : GrantAction} (hstep : grantStep settings s action = some s') :
    (s.clock ≤ s'.clock ∧ s'.accepted = s.accepted ∧
      (s'.nonces = s.nonces ∨ ∃ nonce expiresAt,
        s'.nonces = (Ticket.consume s.nonces nonce expiresAt s'.clock).1)) ∨
      ∃ request token now now', ∃ claims : Claims, action = .request request token now now' ∧
        s.clock ≤ now' ∧
        Verified settings.key token "sandbox-manager" request.operation 900 now claims ∧
        (Ticket.consume s.nonces claims.nonce claims.expiresAt now').2 = true ∧
        s' = ⟨(Ticket.consume s.nonces claims.nonce claims.expiresAt now').1, now',
          ⟨token, now⟩ :: s.accepted⟩ := by
  cases action with
  | restart now =>
    simp only [grantStep, Option.ite_none_right_eq_some, Option.some.injEq] at hstep
    obtain ⟨hle, rfl⟩ := hstep
    exact .inl ⟨hle, rfl, .inl rfl⟩
  | request request token now now' =>
    simp only [grantStep, Option.ite_none_right_eq_some] at hstep
    obtain ⟨⟨hle, hle'⟩, hstep⟩ := hstep
    have hclock := le_trans hle hle'
    rcases authorize_cases (r := authorize settings s.nonces token request.operation
      request.workspaceId now now') rfl with
      ⟨hnonces, e, herror⟩ | ⟨claims, hverified, hnonces, ⟨e, herror⟩ | ⟨hok, hunused⟩⟩
    · rw [show authorize settings s.nonces token request.operation request.workspaceId now now' =
        (s.nonces, .error e) from Prod.ext hnonces herror] at hstep
      obtain rfl := Option.some.inj hstep
      exact .inl ⟨hclock, rfl, .inl rfl⟩
    · rw [show authorize settings s.nonces token request.operation request.workspaceId now now' =
        (_, .error e) from Prod.ext hnonces herror] at hstep
      obtain rfl := Option.some.inj hstep
      exact .inl ⟨hclock, rfl, .inr ⟨_, _, rfl⟩⟩
    · rw [show authorize settings s.nonces token request.operation request.workspaceId now now' =
        (_, .ok claims) from Prod.ext hnonces hok] at hstep
      obtain rfl := Option.some.inj hstep
      exact .inr ⟨request, token, now, now', claims, rfl, hclock, hverified, hunused, rfl⟩

/-- What is accepted was in its time, and is spent. -/
structure InTime (settings : GrantSettings) (s : GrantState) : Prop where
  inTime : ∀ a ∈ s.accepted, ∃ issuedAt expiresAt,
    grantTimes settings.key a.token = some (issuedAt, expiresAt) ∧
      issuedAt - 30 ≤ a.time ∧ a.time < expiresAt
  spent : ∀ a ∈ s.accepted, ∃ claims : Claims, readGrant settings.key a.token = .ok claims.payload ∧
    int? (claims.payload.get "exp") = some claims.expiresAt ∧
    text? (claims.payload.get "nonce") = some claims.nonce ∧
    Ticket.Spent s.clock s.nonces claims.nonce claims.expiresAt

theorem inTime_start (clock : ℤ) : InTime settings (.start clock) :=
  ⟨fun _ h => absurd h List.not_mem_nil, fun _ h => absurd h List.not_mem_nil⟩

/-- What is spent stays so, whatever the table consumes. -/
theorem InTime.consumed (h : InTime settings s) {nonces : Nonces} {now : ℤ} (hle : s.clock ≤ now)
    (hnonces : nonces = s.nonces ∨ ∃ nonce expiresAt,
      nonces = (Ticket.consume s.nonces nonce expiresAt now).1) :
    InTime settings ⟨nonces, now, s.accepted⟩ where
  inTime := h.inTime
  spent a ha := by
    obtain ⟨claims, hread, hexp, hnonce, hspent⟩ := h.spent a ha
    refine ⟨claims, hread, hexp, hnonce, ?_⟩
    rcases hnonces with rfl | ⟨nonce, expiresAt, rfl⟩
    · exact hspent.mono hle
    · exact hspent.consume hle _ _

/-- The claims of a token accepted before are spent. -/
theorem InTime.spent_of_verified (h : InTime settings s) {token : List Char}
    {operation : Option String} {now : ℤ} {claims : Claims}
    (hverified : Verified settings.key token "sandbox-manager" operation 900 now claims)
    (hused : token ∈ s.accepted.map Acceptance.token) :
    Ticket.Spent s.clock s.nonces claims.nonce claims.expiresAt := by
  obtain ⟨a, ha, rfl⟩ := List.mem_map.mp hused
  obtain ⟨before, hread, hexp, hnonce, hspent⟩ := h.spent a ha
  have hpayload : before.payload = claims.payload :=
    Except.ok.inj (hread.symm.trans hverified.read)
  rw [hpayload] at hexp hnonce
  rwa [Option.some.inj (hexp.symm.trans hverified.expiresAt),
    Option.some.inj (hnonce.symm.trans hverified.nonce)] at hspent

theorem InTime.step {action : GrantAction} (h : InTime settings s)
    (hstep : grantStep settings s action = some s') : InTime settings s' := by
  rcases grantStep_cases hstep with ⟨hle, haccepted, hnonces⟩ |
    ⟨request, token, now, now', claims, rfl, hle, hverified, hunused, rfl⟩
  · have hkept := h.consumed hle hnonces
    rwa [← haccepted] at hkept
  · have hkept := h.consumed hle (.inr ⟨claims.nonce, claims.expiresAt, rfl⟩)
    constructor
    · rintro a (_ | ⟨_, ha⟩)
      · exact ⟨_, _, hverified.times, hverified.active⟩
      · exact h.inTime a ha
    · rintro a (_ | ⟨_, ha⟩)
      · exact ⟨claims, hverified.read, hverified.expiresAt, hverified.nonce,
          Ticket.spent_consume hunused⟩
      · exact hkept.spent a ha

/-- A step in which no used token expires accepts no token again. -/
theorem InTime.nodup {action : GrantAction} (h : InTime settings s)
    (hvalid : StillValid settings s action) (hnodup : (s.accepted.map Acceptance.token).Nodup)
    (hstep : grantStep settings s action = some s') :
    (s'.accepted.map Acceptance.token).Nodup := by
  rcases grantStep_cases hstep with ⟨_, haccepted, _⟩ |
    ⟨request, token, now, now', claims, rfl, hle, hverified, hunused, rfl⟩
  · rwa [haccepted]
  · refine List.nodup_cons.mpr ⟨fun hused => ?_, hnodup⟩
    have hbefore : now' < claims.expiresAt := hvalid hused _ hverified.times hverified.active.2
    rw [(h.spent_of_verified hverified hused).refused hle hbefore _] at hunused
    cases hunused

/-- **A grant is used once where no used one expires between the two readings of the clock, and it
is used only in its time.** -/
theorem grants_used_once {settings : GrantSettings} {clock : ℤ} {actions : List GrantAction}
    {s : GrantState} (hrun : Machine.run (grantStep settings) (.start clock) actions = some s) :
    (Machine.Meets (grantStep settings) (StillValid settings) (.start clock) actions →
      (s.accepted.map Acceptance.token).Nodup) ∧
      ∀ a ∈ s.accepted, ∃ issuedAt expiresAt,
        grantTimes settings.key a.token = some (issuedAt, expiresAt) ∧
          issuedAt - 30 ≤ a.time ∧ a.time < expiresAt := by
  refine ⟨fun hvalid => ?_, ?_⟩
  · have hinv : InTime settings s ∧ (s.accepted.map Acceptance.token).Nodup :=
      Machine.run_invariant
        (fun _ _ _ hcond (hinv : InTime settings _ ∧ _) hstep =>
          ⟨hinv.1.step hstep, hinv.1.nodup hcond hinv.2 hstep⟩)
        hvalid hrun ⟨inTime_start clock, List.nodup_nil⟩
    exact hinv.2
  · have hinv : InTime settings s :=
      Machine.run_keeps (fun _ _ _ hinv hstep => hinv.step hstep) hrun (inTime_start clock)
    exact hinv.inTime

/-! ## A token at its expiry -/

/-- The object `{"aud":"sandbox-manager","exp":200,"iat":100,"iss":"b","nonce":"n",
"operation":"workspace_inspect","workspace_id":"w"}`, encoded. -/
def sampleEncoded : List Char :=
  ["eyJhdWQiOiJzYW5k", "Ym94LW1hbmFnZXIi", "LCJleHAiOjIwMCwi", "aWF0IjoxMDAsImlz",
   "cyI6ImIiLCJub25j", "ZSI6Im4iLCJvcGVy", "YXRpb24iOiJ3b3Jr", "c3BhY2VfaW5zcGVj",
   "dCIsIndvcmtzcGFj", "ZV9pZCI6IncifQ"].flatMap String.toList

/-- The HMAC-SHA256 of that text under the secret `secret`; the text of ASCII bytes. -/
def sampleKey : GrantKey where
  sign text := if text = sampleEncoded then
      [231, 186, 235, 202, 162, 234, 108, 148, 141, 110, 28, 51, 198, 63, 44, 8,
        50, 83, 51, 127, 50, 2, 97, 239, 220, 157, 123, 237, 114, 46, 236, 220]
    else []
  decode bytes := some (bytes.map fun b => Char.ofNat b.toNat)

/-- The settings of the sample tokens. -/
def grantSettings : GrantSettings := ⟨sampleKey, "b"⟩

/-- A token of an operation. -/
def sampleToken : List Char :=
  sampleEncoded ++ [".57rryqLqbJSNbhw", "zxj8sCDJTM38yAmH", "v3J177XIu7Nw"].flatMap String.toList

/-- Sent again while it is valid, and once more after its expiry, when its row may be gone. -/
theorem grants_used_once_refused :
    ∃ s, Machine.run (grantStep grantSettings) (.start 0)
      [.request (.inspectWorkspace "w") sampleToken 100 100,
        .request (.inspectWorkspace "w") sampleToken 150 150, .restart 160,
        .request (.inspectWorkspace "w") sampleToken 250 250] = some s ∧
      s.accepted.length = 1 ∧ (s.accepted.map Acceptance.token).Nodup ∧
      ∀ a ∈ s.accepted, ∃ issuedAt expiresAt,
        grantTimes grantSettings.key a.token = some (issuedAt, expiresAt) ∧
          issuedAt - 30 ≤ a.time ∧ a.time < expiresAt := by
  obtain ⟨s, hrun, hlength⟩ := (Option.any_eq_true _ _).mp
    (show (Machine.run (grantStep grantSettings) (.start 0)
      [.request (.inspectWorkspace "w") sampleToken 100 100,
        .request (.inspectWorkspace "w") sampleToken 150 150, .restart 160,
        .request (.inspectWorkspace "w") sampleToken 250 250]).any
          (fun s => s.accepted.length = 1) = true by decide +kernel)
  have hused := grants_used_once hrun
  exact ⟨s, hrun, of_decide_eq_true hlength, hused.1 (by decide +kernel), hused.2⟩

/-- Checked at 199 and consumed at 200, the expiry of the token, a used one is accepted again. -/
theorem grant_used_twice :
    ∃ s, Machine.run (grantStep grantSettings) (.start 0)
      [.request (.inspectWorkspace "w") sampleToken 100 100,
        .request (.inspectWorkspace "w") sampleToken 199 200] = some s ∧
      ¬ (s.accepted.map Acceptance.token).Nodup := by
  obtain ⟨s, hrun, hnodup⟩ := (Option.any_eq_true _ _).mp
    (show (Machine.run (grantStep grantSettings) (.start 0)
      [.request (.inspectWorkspace "w") sampleToken 100 100,
        .request (.inspectWorkspace "w") sampleToken 199 200]).any
          (fun s => ¬ (s.accepted.map Acceptance.token).Nodup) = true by decide +kernel)
  exact ⟨s, hrun, of_decide_eq_true hnodup⟩

end CodexGateway.Manager
