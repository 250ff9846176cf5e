import CodexGateway.Library.Base64
import CodexGateway.Library.JsonDict

/-!
# SandboxApi/Grants — what a signed grant says, and when it holds

A grant is a signed JSON object.  `readGrant` checks the signature and reads the object, and
`verifyGrant` checks its times, its audience and its operation.  The signature of a text under the
shared secret and the text of a byte string are parameters; everything proved holds for each.
-/

namespace CodexGateway.SandboxApi

open PyJson

/-- `sign` is the HMAC of a text under the secret; `decode` the text `json.loads` reads from bytes. -/
structure GrantKey where
  sign : List Char → List UInt8
  decode : List UInt8 → Option (List Char)

/-- What is wrong with a token. -/
inductive GrantError where
  | invalidGrant
  | invalidSignature
  | invalidPayload
  | timestampsRequired
  | expiredOrNotActive
  | invalidLifetime
  | audienceMismatch
  | operationMismatch
  | invalidIdentity
  deriving DecidableEq, Repr

/-- The message of each refusal. -/
def GrantError.message : GrantError → String
  | .invalidGrant => "invalid grant"
  | .invalidSignature => "invalid grant signature"
  | .invalidPayload => "invalid grant payload"
  | .timestampsRequired => "grant timestamps are required"
  | .expiredOrNotActive => "grant is expired or not active"
  | .invalidLifetime => "grant lifetime is invalid"
  | .audienceMismatch => "grant audience does not match"
  | .operationMismatch => "grant operation does not match"
  | .invalidIdentity => "grant identity is invalid"

/-- `_decode`, which pads the text to whole groups. -/
def decodeText (value : List Char) : Option (List UInt8) :=
  Base64.urlsafeB64decode (value ++ List.replicate ((4 - value.length % 4) % 4) '=')

/-- `token.split(".", 1)` -/
def splitToken (token : List Char) : Option (List Char × List Char) :=
  match token.dropWhile (· ≠ '.') with
  | [] => none
  | _ :: signature => some (token.takeWhile (· ≠ '.'), signature)

/-- The object of a grant whose signature is right. -/
def readGrant (key : GrantKey) (token : List Char) : Except GrantError Members :=
  if token = [] ∨ 64 * 1024 < token.length then .error .invalidGrant
  else match splitToken token with
    | none => .error .invalidGrant
    | some (encoded, suppliedSignature) =>
      match decodeText suppliedSignature with
      | none => .error .invalidGrant
      | some signature =>
        if signature ≠ key.sign encoded then .error .invalidSignature
        else match ((decodeText encoded).bind key.decode).bind loads with
          | some (.obj payload) => .ok payload
          | _ => .error .invalidPayload

/-- `value if isinstance(value, int) else None`, of which a bool is one. -/
def int? : Json → Option ℤ
  | .int i => some i
  | .bool b => some (if b then 1 else 0)
  | _ => none

/-- A value that is a string. -/
def text? : Json → Option String
  | .str s => some s
  | _ => none

/-- The claims of a grant: its object, and the values that are checked in it. -/
structure Claims where
  payload : Members
  issuer : String
  issuedAt : ℤ
  expiresAt : ℤ
  nonce : String

/-- `verify_grant` -/
def verifyGrant (key : GrantKey) (token : List Char) (audience : String)
    (operation : Option String) (maxLifetime : ℤ) (current : ℤ) : Except GrantError Claims := do
  let payload ← readGrant key token
  match int? (payload.get "iat"), int? (payload.get "exp") with
  | some issuedAt, some expiresAt =>
    if issuedAt > current + 30 ∨ expiresAt ≤ current then throw .expiredOrNotActive
    if expiresAt - issuedAt ≤ 0 ∨ expiresAt - issuedAt > maxLifetime then throw .invalidLifetime
    if text? (payload.get "aud") ≠ some audience then throw .audienceMismatch
    if operation.isSome ∧ text? (payload.get "operation") ≠ operation then throw .operationMismatch
    match text? (payload.get "iss"), text? (payload.get "nonce") with
    | some issuer, some nonce =>
      if nonce = "" then throw .invalidIdentity
      return { payload, issuer, issuedAt, expiresAt, nonce }
    | _, _ => throw .invalidIdentity
  | _, _ => throw .timestampsRequired

/-! ## What a verified grant is -/

/-- The times a grant was issued at and expires at. -/
def grantTimes (key : GrantKey) (token : List Char) : Option (ℤ × ℤ) :=
  match readGrant key token with
  | .error _ => none
  | .ok payload => do return (← int? (payload.get "iat"), ← int? (payload.get "exp"))

/-- The claims are those of the token, and hold at the time they were checked. -/
structure Verified (key : GrantKey) (token : List Char) (audience : String)
    (operation : Option String) (maxLifetime current : ℤ) (claims : Claims) : Prop where
  read : readGrant key token = .ok claims.payload
  issuedAt : int? (claims.payload.get "iat") = some claims.issuedAt
  expiresAt : int? (claims.payload.get "exp") = some claims.expiresAt
  nonce : text? (claims.payload.get "nonce") = some claims.nonce
  issuer : text? (claims.payload.get "iss") = some claims.issuer
  audience : text? (claims.payload.get "aud") = some audience
  operation : operation.isSome → text? (claims.payload.get "operation") = operation
  active : claims.issuedAt - 30 ≤ current ∧ current < claims.expiresAt
  lifetime : claims.expiresAt - claims.issuedAt ≤ maxLifetime
  nonce_ne : claims.nonce ≠ ""

/-- **Everything an accepted grant was checked for.** -/
theorem verifyGrant_ok {key : GrantKey} {token : List Char} {audience : String}
    {operation : Option String} {maxLifetime current : ℤ} {claims : Claims}
    (h : verifyGrant key token audience operation maxLifetime current = .ok claims) :
    Verified key token audience operation maxLifetime current claims := by
  unfold verifyGrant at h
  cases hread : readGrant key token with
  | error e => simp [hread] at h; cases h
  | ok payload =>
    simp only [hread, bind, Except.bind] at h
    split at h
    · rename_i issuedAt expiresAt hissued hexpires
      split_ifs at h with hactive hlifetime haudience hoperation
      split at h
      · rename_i issuer nonce hissuer hnonce
        split_ifs at h with hempty
        cases h
        have hwindow : issuedAt - 30 ≤ current ∧ current < expiresAt := by omega
        have hspan : expiresAt - issuedAt ≤ maxLifetime := by omega
        exact ⟨hread, hissued, hexpires, hnonce, hissuer, not_not.mp haudience,
          fun hsome => not_not.mp fun hne => hoperation ⟨hsome, hne⟩, hwindow, hspan, hempty⟩
      · cases h
    · cases h

/-- **Nothing else is asked of a grant** but that it does not expire before it is issued. -/
theorem Verified.verifyGrant {key : GrantKey} {token : List Char} {audience : String}
    {operation : Option String} {maxLifetime current : ℤ} {claims : Claims}
    (h : Verified key token audience operation maxLifetime current claims)
    (hspan : claims.issuedAt < claims.expiresAt) :
    verifyGrant key token audience operation maxLifetime current = .ok claims := by
  have hactive : ¬ (claims.issuedAt > current + 30 ∨ claims.expiresAt ≤ current) := by
    have := h.active
    omega
  have hlifetime : ¬ (claims.expiresAt - claims.issuedAt ≤ 0 ∨
      claims.expiresAt - claims.issuedAt > maxLifetime) := by
    have := h.lifetime
    omega
  have hoperation : ¬ (operation.isSome ∧
      text? (claims.payload.get "operation") ≠ operation) := fun ⟨hsome, hne⟩ =>
    hne (h.operation hsome)
  unfold SandboxApi.verifyGrant
  rw [h.read]
  simp only [bind, Except.bind, h.issuedAt, h.expiresAt, if_neg hactive, if_neg hlifetime,
    if_neg (not_not.mpr h.audience), if_neg hoperation, h.issuer, h.nonce, if_neg h.nonce_ne]
  rfl

variable {key : GrantKey} {token : List Char} {audience audience' : String}
  {operation operation' : Option String} {maxLifetime maxLifetime' current current' : ℤ}
  {claims claims' : Claims}

theorem Verified.times (h : Verified key token audience operation maxLifetime current claims) :
    grantTimes key token = some (claims.issuedAt, claims.expiresAt) := by
  simp [grantTimes, h.read, h.issuedAt, h.expiresAt]

/-- **A token says the same whenever it is accepted.** -/
theorem Verified.unique (h : Verified key token audience operation maxLifetime current claims)
    (h' : Verified key token audience' operation' maxLifetime' current' claims') :
    claims = claims' := by
  have hpayload : claims.payload = claims'.payload := Except.ok.inj (h.read.symm.trans h'.read)
  obtain ⟨payload, issuer, issuedAt, expiresAt, nonce⟩ := claims
  obtain ⟨payload', issuer', issuedAt', expiresAt', nonce'⟩ := claims'
  obtain rfl : payload = payload' := hpayload
  obtain rfl : issuer = issuer' := Option.some.inj (h.issuer.symm.trans h'.issuer)
  obtain rfl : issuedAt = issuedAt' := Option.some.inj (h.issuedAt.symm.trans h'.issuedAt)
  obtain rfl : expiresAt = expiresAt' := Option.some.inj (h.expiresAt.symm.trans h'.expiresAt)
  obtain rfl : nonce = nonce' := Option.some.inj (h.nonce.symm.trans h'.nonce)
  rfl

end CodexGateway.SandboxApi
