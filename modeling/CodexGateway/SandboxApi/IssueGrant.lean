import CodexGateway.Library.JsonSorted
import CodexGateway.Library.Oracle
import CodexGateway.SandboxApi.Grants

/-!
# SandboxApi/IssueGrant — a grant is accepted as it was issued, and no other is

`issueGrant` prints the claims as canonical JSON, encodes them and signs the encoded text.  A token
is cut at its first dot, and the encoded text has none, so `verifyGrant` signs the same text and
reads the same claims.

The signature is an ideal function: a strategy that presents a token knows it only by its values at
the texts it had signed.  Where the token is accepted whatever the function is elsewhere, its payload
part is one of these texts (`grants_authentic`).
-/

namespace CodexGateway.SandboxApi

open PyJson

/-! ## Issuing -/

/-- `text.encode()` -/
def encodeUtf8 (text : List Char) : List UInt8 := text.flatMap String.utf8EncodeChar

/-- `_encode` -/
def encodeText (value : List UInt8) : List Char :=
  Base64.stripPad (Base64.urlsafeB64encode value)

/-- What `json.loads` takes for UTF-8 without a byte order mark. -/
def isUtf8 (bytes : List UInt8) : Bool :=
  ! [0xEF, 0xBB, 0xBF].isPrefixOf bytes && ! [0xFE, 0xFF].isPrefixOf bytes &&
    ! [0xFF, 0xFE].isPrefixOf bytes &&
    (bytes.length ≤ 1 || bytes.length = 3 || (bytes.take 2).all (· ≠ 0))

/-- The text `json.loads` reads from bytes; `other` decodes what is not UTF-8. -/
def jsonText (other : List UInt8 → Option (List Char)) (bytes : List UInt8) : Option (List Char) :=
  if isUtf8 bytes then bytes.toByteArray.utf8Decode?.map Array.toList else other bytes

/-- A SHA-256 digest. -/
abbrev Digest := {bytes : List UInt8 // bytes.length = 32}

/-- The HMAC under one secret, as a function of the text. -/
abbrev Mac := List Char → Digest

/-- The key of one who checks by the same function. -/
def grantKey (mac : Mac) (other : List UInt8 → Option (List Char)) : GrantKey :=
  ⟨fun text => (mac text).val, jsonText other⟩

/-- The arguments of `issue_grant` but the secret; `uuid` is `uuid.uuid4().hex`. -/
structure GrantTerms where
  issuer : String
  audience : String
  operation : String
  issuedAt : ℤ
  expiresIn : ℤ
  nonce : Option String
  uuid : {hex : String // hex ≠ ""}
  claims : Dict

namespace GrantTerms

variable (t : GrantTerms)

/-- `nonce or uuid.uuid4().hex` -/
def nonceOrUuid : String := (t.nonce.filter (· ≠ "")).getD t.uuid.val

/-- The claims that `issue_grant` sets itself. -/
def reserved : Members :=
  [("iss", .str t.issuer), ("aud", .str t.audience), ("operation", .str t.operation),
    ("iat", .int t.issuedAt), ("exp", .int (t.issuedAt + t.expiresIn)),
    ("nonce", .str t.nonceOrUuid)]

/-- `{"iss": …, **claims}` -/
def payload : Members :=
  t.claims.members.foldl (fun payload claim => insertPair payload claim.1 claim.2) t.reserved

/-- The payload part of the token. -/
def encoded : List Char :=
  encodeText (encodeUtf8 (dumpsBy escapeAscii (sortKeys (.obj t.payload))))

/-- No claim has a reserved name. -/
def Fresh : Prop :=
  ∀ key ∈ ["iss", "aud", "operation", "iat", "exp", "nonce"], key ∉ t.claims.members.map Prod.fst

/-- The arguments of `verify_grant` match, and the time is in the window. -/
structure Admits (audience : String) (operation : Option String) (current : ℤ) : Prop where
  audience : t.audience = audience
  operation : ∀ name ∈ operation, t.operation = name
  notBefore : t.issuedAt - 30 ≤ current
  expires : current < t.issuedAt + t.expiresIn

end GrantTerms

/-- `issue_grant` -/
def issueGrant (mac : Mac) (t : GrantTerms) : List Char :=
  t.encoded ++ '.' :: encodeText (mac t.encoded).val

/-- The text before the first dot. -/
def payloadPart (token : List Char) : List Char := token.takeWhile (· ≠ '.')

/-- A presenter: what it asks is signed, and what it makes of the answers is its token. -/
abbrev Presenter := Oracle.Strategy (List Char) Digest (List Char)

/-! ## What is issued can be read -/

section Text

variable {other : List UInt8 → Option (List Char)}

/-- The text of an object is read back. -/
theorem jsonText_encodeUtf8 (text : List Char) :
    jsonText other (encodeUtf8 ('{' :: '"' :: text)) = some ('{' :: '"' :: text) := by
  have hbytes : encodeUtf8 ('{' :: '"' :: text) = 0x7B :: 0x22 :: encodeUtf8 text := rfl
  have hutf8 : isUtf8 (encodeUtf8 ('{' :: '"' :: text)) = true := by
    rw [hbytes]
    simp [isUtf8, List.isPrefixOf]
  have hdecode : (encodeUtf8 ('{' :: '"' :: text)).toByteArray.utf8Decode? =
      some ('{' :: '"' :: text).toArray := List.utf8Decode?_utf8Encode
  rw [jsonText, if_pos hutf8, hdecode]
  rfl

theorem decodeText_encodeText (value : List UInt8) : decodeText (encodeText value) = some value :=
  (Base64.urlsafeB64decode_stripPad value).2

theorem encodeText_no_dot (value : List UInt8) : '.' ∉ encodeText value := fun h =>
  ((Base64.urlsafeB64decode_stripPad value).1 '.' h).2.1 rfl

theorem splitToken_append {encoded : List Char} (h : '.' ∉ encoded) (signature : List Char) :
    splitToken (encoded ++ '.' :: signature) = some (encoded, signature) := by
  have hchars : ∀ c ∈ encoded, decide (c ≠ '.') = true := fun c hc =>
    decide_eq_true (ne_of_mem_of_not_mem hc h)
  rw [splitToken, List.dropWhile_append_of_pos hchars, List.takeWhile_append_of_pos hchars]
  simp

/-- The dot and the signature of a token. -/
theorem length_issueGrant_le (mac : Mac) (t : GrantTerms) :
    (issueGrant mac t).length ≤ t.encoded.length + 45 := by
  have hsignature := Base64.length_stripPad_le (Base64.urlsafeB64encode (mac t.encoded).val)
  rw [Base64.length_urlsafeB64encode, (mac t.encoded).property] at hsignature
  simp only [issueGrant, List.length_append, List.length_cons, encodeText]
  omega

end Text

section Terms

variable {t : GrantTerms}

theorem GrantTerms.payload_eq (h : t.Fresh) : t.payload = t.reserved ++ t.claims.members := by
  refine foldl_insertPair _ _ ?_
  rw [List.map_append, List.nodup_append]
  refine ⟨(by simp [GrantTerms.reserved]), t.claims.wellFormed.1, fun key hkey key' hkey' he => ?_⟩
  exact h key hkey (he ▸ hkey')

theorem GrantTerms.wellFormed : WellFormed (.obj t.payload) :=
  foldl_insertPair_wellFormed t.claims.members t.reserved
    ⟨(by simp [GrantTerms.reserved]), (by simp [GrantTerms.reserved, WellFormedMembers, WellFormed])⟩
    t.claims.wellFormed.2

/-- The encoded text has no dot, and is read as the payload with its keys in order. -/
theorem GrantTerms.read_encoded (other : List UInt8 → Option (List Char)) (h : t.Fresh) :
    ((decodeText t.encoded).bind (jsonText other)).bind loads =
      some (.obj (sortedMembers t.payload)) := by
  have hloads : loads (dumpsBy escapeAscii (sortKeys (.obj t.payload))) =
      some (.obj (sortedMembers t.payload)) :=
    loads_dumpsBy readsBack_escapeAscii (wellFormed_sortKeys t.wellFormed)
  have hne : sortedMembers t.payload ≠ [] := fun hnil => by
    have hlength := (sortedMembers_perm t.payload).length_eq
    rw [hnil, List.length_map, t.payload_eq h] at hlength
    simp [GrantTerms.reserved] at hlength
  obtain ⟨⟨key, value⟩, rest, hsorted⟩ := List.exists_cons_of_ne_nil hne
  have hbegins : ∃ text, dumpsBy escapeAscii (sortKeys (.obj t.payload)) = '{' :: '"' :: text := by
    rw [show sortKeys (.obj t.payload) = .obj (sortedMembers t.payload) from rfl, hsorted, dumpsBy]
    exact ⟨_, rfl⟩
  obtain ⟨text, htext⟩ := hbegins
  rw [GrantTerms.encoded, decodeText_encodeText, Option.bind_some, htext, jsonText_encodeUtf8,
    Option.bind_some, ← htext, hloads]

theorem nonceOrUuid_ne (t : GrantTerms) : t.nonceOrUuid ≠ "" := by
  unfold GrantTerms.nonceOrUuid
  cases hn : t.nonce.filter (· ≠ "") with
  | none => exact t.uuid.property
  | some nonce =>
    have := (Option.filter_eq_some_iff.mp hn).2
    simpa using this

/-- A reserved member of the payload, as it is read. -/
theorem GrantTerms.get_payload (h : t.Fresh) (key : String) :
    Members.get (sortedMembers t.payload) key =
      sortKeys (Members.get (t.reserved ++ t.claims.members) key) := by
  rw [get_sortedMembers t.wellFormed.1, t.payload_eq h]

end Terms

section Issue

variable {mac : Mac} {other : List UInt8 → Option (List Char)} {t : GrantTerms}
  {audience : String} {operation : Option String} {maxLifetime current : ℤ}

/-- **The payload of an issued token is read back.** -/
theorem readGrant_issueGrant (h : t.Fresh) (hlength : (issueGrant mac t).length ≤ 64 * 1024) :
    readGrant (grantKey mac other) (issueGrant mac t) = .ok (sortedMembers t.payload) := by
  have hne : ¬ (issueGrant mac t = [] ∨ 64 * 1024 < (issueGrant mac t).length) := by
    rw [not_or]
    exact ⟨by simp [issueGrant], not_lt.mpr hlength⟩
  have hsplit : splitToken (issueGrant mac t) =
      some (t.encoded, encodeText (mac t.encoded).val) :=
    splitToken_append (encodeText_no_dot _) _
  have hread : ((decodeText t.encoded).bind (grantKey mac other).decode).bind loads =
      some (.obj (sortedMembers t.payload)) := t.read_encoded other h
  have hsigned : ¬ (mac t.encoded).val ≠ (grantKey mac other).sign t.encoded := not_not.mpr rfl
  rw [readGrant, if_neg hne, hsplit]
  simp only [decodeText_encodeText (mac t.encoded).val, if_neg hsigned, hread]

/-- The claims of an issued token. -/
def GrantTerms.verified (t : GrantTerms) : Claims where
  payload := sortedMembers t.payload
  issuer := t.issuer
  issuedAt := t.issuedAt
  expiresAt := t.issuedAt + t.expiresIn
  nonce := t.nonceOrUuid

theorem verified_issueGrant (h : t.Fresh) (hlength : (issueGrant mac t).length ≤ 64 * 1024)
    (hmax : t.expiresIn ≤ maxLifetime) (hadmits : t.Admits audience operation current) :
    Verified (grantKey mac other) (issueGrant mac t) audience operation maxLifetime current
      t.verified where
  read := readGrant_issueGrant h hlength
  issuedAt := congrArg int? (t.get_payload h "iat")
  expiresAt := congrArg int? (t.get_payload h "exp")
  nonce := congrArg text? (t.get_payload h "nonce")
  issuer := congrArg text? (t.get_payload h "iss")
  audience := hadmits.audience ▸ congrArg text? (t.get_payload h "aud")
  operation := fun hsome => by
    obtain ⟨name, rfl⟩ := Option.isSome_iff_exists.mp hsome
    exact hadmits.operation name rfl ▸ congrArg text? (t.get_payload h "operation")
  active := ⟨hadmits.notBefore, hadmits.expires⟩
  lifetime := by
    rw [show t.verified.expiresAt - t.verified.issuedAt = t.expiresIn from add_sub_cancel_left _ _]
    exact hmax
  nonce_ne := nonceOrUuid_ne t

/-- What `verify_grant` accepts of an issued token matches its terms, and is what was issued. -/
theorem admits_of_verified (h : t.Fresh) (hlength : (issueGrant mac t).length ≤ 64 * 1024)
    {claims : Claims} (hclaims : verifyGrant (grantKey mac other) (issueGrant mac t) audience
      operation maxLifetime current = .ok claims) :
    t.Admits audience operation current ∧ claims.payload = sortedMembers t.payload := by
  have hverified := verifyGrant_ok hclaims
  have hpayload : claims.payload = sortedMembers t.payload :=
    Except.ok.inj (hverified.read.symm.trans (readGrant_issueGrant h hlength))
  have hissued := hverified.issuedAt
  have hexpires := hverified.expiresAt
  have haudience := hverified.audience
  have hoperation := hverified.operation
  rw [hpayload, t.get_payload h] at hissued hexpires haudience hoperation
  have hiat : t.issuedAt = claims.issuedAt := Option.some.inj hissued
  have hexp : t.issuedAt + t.expiresIn = claims.expiresAt := Option.some.inj hexpires
  have hactive := hverified.active
  refine ⟨⟨Option.some.inj haudience, fun name hname => ?_, by omega, by omega⟩, hpayload⟩
  rw [Option.mem_def] at hname
  subst hname
  exact Option.some.inj (hoperation rfl)

/-- **An issued token is accepted when its terms match, in its window.** -/
theorem verifyGrant_issueGrant (h : t.Fresh) (hpos : 0 < t.expiresIn)
    (hmax : t.expiresIn ≤ maxLifetime) (hlength : (issueGrant mac t).length ≤ 64 * 1024) :
    (∃ claims, verifyGrant (grantKey mac other) (issueGrant mac t) audience operation maxLifetime
      current = .ok claims) ↔ t.Admits audience operation current := by
  refine ⟨fun ⟨claims, hclaims⟩ => (admits_of_verified h hlength hclaims).1, fun hadmits => ?_⟩
  have hspan : t.verified.issuedAt < t.verified.expiresAt := lt_add_of_pos_right _ hpos
  exact ⟨t.verified, (verified_issueGrant h hlength hmax hadmits).verifyGrant hspan⟩

end Issue

/-! ## What is accepted was signed -/

section Signed

variable {mac : Mac} {other : List UInt8 → Option (List Char)} {token : List Char}

/-- **The payload part of a readable token has the signature that the token brings.** -/
theorem readGrant_ok {key : GrantKey} {payload : Members}
    (h : readGrant key token = .ok payload) :
    ∃ signature, splitToken token = some (payloadPart token, signature) ∧
      decodeText signature = some (key.sign (payloadPart token)) ∧
      ((decodeText (payloadPart token)).bind key.decode).bind loads = some (.obj payload) := by
  unfold readGrant at h
  split_ifs at h
  split at h
  · cases h
  · rename_i encoded signature hsplit
    have hencoded : encoded = payloadPart token := by
      unfold splitToken at hsplit
      split at hsplit
      · cases hsplit
      · cases hsplit
        rfl
    subst hencoded
    split at h
    · cases h
    · rename_i supplied hdecode
      split_ifs at h with hsigned
      rw [not_not] at hsigned
      subst hsigned
      split at h
      · rename_i payload' hloads
        cases h
        exact ⟨signature, hsplit, hdecode, hloads⟩
      · cases h

variable {p : Presenter} {audience : String} {operation : Option String} {maxLifetime current : ℤ}

/-- The presenter's token is accepted, where the function has the digest `d` at its payload part. -/
def AcceptedWith (p : Presenter) (mac : Mac) (other : List UInt8 → Option (List Char))
    (audience : String) (operation : Option String) (maxLifetime current : ℤ) (d : Digest) : Prop :=
  let mac' := Function.update mac (payloadPart (p.run mac)) d
  ∃ claims, verifyGrant (grantKey mac' other) (p.run mac') audience operation maxLifetime current =
    .ok claims

/-- **A text that was not signed is accepted with one digest only.** -/
theorem acceptedWith_unique (hasked : payloadPart (p.run mac) ∉ p.asked mac) {d d' : Digest}
    (h : AcceptedWith p mac other audience operation maxLifetime current d)
    (h' : AcceptedWith p mac other audience operation maxLifetime current d') : d = d' := by
  obtain ⟨claims, hclaims⟩ := h
  obtain ⟨claims', hclaims'⟩ := h'
  -- the presenter is given the same answers, and so presents the same token
  rw [Oracle.Strategy.run_eq (Oracle.Strategy.update_agrees hasked d)] at hclaims
  rw [Oracle.Strategy.run_eq (Oracle.Strategy.update_agrees hasked d')] at hclaims'
  obtain ⟨signature, hsplit, hdecode, -⟩ := readGrant_ok (verifyGrant_ok hclaims).read
  obtain ⟨signature', hsplit', hdecode', -⟩ := readGrant_ok (verifyGrant_ok hclaims').read
  have hsame : signature' = signature :=
    (Prod.ext_iff.mp (Option.some.inj (hsplit'.symm.trans hsplit))).2
  rw [hsame] at hdecode'
  have hupdate (d : Digest) : (grantKey (Function.update mac (payloadPart (p.run mac)) d) other).sign
      (payloadPart (p.run mac)) = d.val := congrArg Subtype.val (Function.update_self ..)
  have hvalue := Option.some.inj (hdecode.symm.trans hdecode')
  rw [hupdate, hupdate] at hvalue
  exact Subtype.ext hvalue

/-- The presenter's token is accepted, whatever the function is where it was not asked. -/
def Prevails (p : Presenter) (mac : Mac) (other : List UInt8 → Option (List Char))
    (audience : String) (operation : Option String) (maxLifetime current : ℤ) : Prop :=
  ∀ mac' : Mac, (∀ text ∈ p.asked mac, mac' text = mac text) →
    ∃ claims, verifyGrant (grantKey mac' other) (p.run mac') audience operation maxLifetime
      current = .ok claims

/-- **What prevails was signed.** -/
theorem payloadPart_mem_asked (h : Prevails p mac other audience operation maxLifetime current) :
    payloadPart (p.run mac) ∈ p.asked mac := by
  by_contra hnot
  have haccepted (d : Digest) : AcceptedWith p mac other audience operation maxLifetime current d :=
    h _ (Oracle.Strategy.update_agrees hnot d)
  have hzero : (⟨List.replicate 32 0, rfl⟩ : Digest) = ⟨List.replicate 32 1, rfl⟩ :=
    acceptedWith_unique hnot (haccepted _) (haccepted _)
  exact absurd (congrArg Subtype.val hzero) (by decide)

/-- What is accepted of a text that was issued is what was issued. -/
theorem payload_of_encoded {t : GrantTerms} (ht : t.Fresh) (hpart : payloadPart token = t.encoded)
    {claims : Claims} (hclaims : verifyGrant (grantKey mac other) token audience operation
      maxLifetime current = .ok claims) : claims.payload = sortedMembers t.payload := by
  obtain ⟨signature, -, -, hloads⟩ := readGrant_ok (verifyGrant_ok hclaims).read
  rw [hpart] at hloads
  exact Json.obj.inj (Option.some.inj (hloads.symm.trans (t.read_encoded other ht)))

end Signed

/-- **Grants are accepted as they were issued, and no others.**  An issued token is accepted when its
terms match and the time is in its window, and is then read as its payload.  A presenter's token of a
text that was not signed is accepted with one digest of that text only; where it is accepted whatever
the function is at such texts, it is of a text that was signed, and of issued grants if only these
were signed. -/
theorem grants_authentic (other : List UInt8 → Option (List Char)) (audience : String)
    (operation : Option String) (maxLifetime current : ℤ) :
    (∀ (mac : Mac) (t : GrantTerms), t.Fresh → 0 < t.expiresIn → t.expiresIn ≤ maxLifetime →
      (issueGrant mac t).length ≤ 64 * 1024 →
      ((∃ claims, verifyGrant (grantKey mac other) (issueGrant mac t) audience operation maxLifetime
          current = .ok claims) ↔ t.Admits audience operation current) ∧
      ∀ claims, verifyGrant (grantKey mac other) (issueGrant mac t) audience operation maxLifetime
        current = .ok claims → claims.payload = sortedMembers t.payload) ∧
    ∀ (mac : Mac) (p : Presenter),
      (payloadPart (p.run mac) ∉ p.asked mac → ∀ d d',
        AcceptedWith p mac other audience operation maxLifetime current d →
        AcceptedWith p mac other audience operation maxLifetime current d' → d = d') ∧
      (Prevails p mac other audience operation maxLifetime current →
        payloadPart (p.run mac) ∈ p.asked mac ∧
        ∀ terms : List GrantTerms,
          (∀ text ∈ p.asked mac, ∃ t ∈ terms, t.Fresh ∧ text = t.encoded) →
          ∀ claims, verifyGrant (grantKey mac other) (p.run mac) audience operation maxLifetime
            current = .ok claims → ∃ t ∈ terms, claims.payload = sortedMembers t.payload) := by
  refine ⟨fun mac t ht hpos hmax hlength => ⟨verifyGrant_issueGrant ht hpos hmax hlength,
    fun claims hclaims => (admits_of_verified ht hlength hclaims).2⟩, fun mac p =>
    ⟨fun hnot d d' hd hd' => acceptedWith_unique hnot hd hd', fun hprevails => ?_⟩⟩
  have hasked := payloadPart_mem_asked hprevails
  refine ⟨hasked, fun terms hterms claims hclaims => ?_⟩
  obtain ⟨t, hmem, ht, hpart⟩ := hterms _ hasked
  exact ⟨t, hmem, payload_of_encoded ht hpart hclaims⟩

/-! ## A grant -/

/-- The terms of a grant. -/
def sampleTerms : GrantTerms where
  issuer := "open-webui-bff"
  audience := "sandbox-manager"
  operation := "sandbox_create"
  issuedAt := 100
  expiresIn := 60
  nonce := some "n-1"
  uuid := ⟨"0123456789abcdef0123456789abcdef", by decide⟩
  claims := ⟨[("workspace_id", .str "workspace_ä")], by simp [WellFormed, WellFormedMembers]⟩

/-- A function of the text. -/
def sampleMac : Mac := fun text =>
  ⟨List.replicate 32 (UInt8.ofNat (text.foldl (fun n c => 31 * n + c.toNat) 7)), List.length_replicate⟩

/-- It has the grant signed, and presents it. -/
def samplePresenter : Presenter :=
  .ask sampleTerms.encoded fun d => .done (sampleTerms.encoded ++ '.' :: encodeText d.val)

theorem sampleTerms_fresh : sampleTerms.Fresh := by
  unfold GrantTerms.Fresh sampleTerms
  decide

theorem grants_authentic_sample :
    (∃ claims, verifyGrant (grantKey sampleMac fun _ => none) (issueGrant sampleMac sampleTerms)
      "sandbox-manager" (some "sandbox_create") 900 120 = .ok claims) ∧
    payloadPart (samplePresenter.run sampleMac) ∈ samplePresenter.asked sampleMac := by
  have hauthentic := grants_authentic (fun _ => none) "sandbox-manager" (some "sandbox_create") 900 120
  have hencoded : sampleTerms.encoded.length ≤ 1000 := by decide +kernel
  have hlength (mac : Mac) : (issueGrant mac sampleTerms).length ≤ 64 * 1024 := by
    have := length_issueGrant_le mac sampleTerms
    omega
  have hadmits : sampleTerms.Admits "sandbox-manager" (some "sandbox_create") 120 :=
    ⟨rfl, fun name hname => (Option.some.inj hname), by decide, by decide⟩
  have haccepted (mac : Mac) := ((hauthentic.1 mac sampleTerms sampleTerms_fresh (by decide)
    (by decide) (hlength mac)).1).mpr hadmits
  exact ⟨haccepted sampleMac, ((hauthentic.2 sampleMac samplePresenter).2 fun mac _ =>
    haccepted mac).1⟩

end CodexGateway.SandboxApi
