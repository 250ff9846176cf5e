import Mathlib.Algebra.Group.Int.Defs
import CodexGateway.StorageOps.CheckoutCommit

/-!
# Manager/CheckoutArtifacts — a list of Artifacts, checked by the Manager and by its task

The Manager checks the Artifacts of a checkout when it admits the operation, and `checkout-batch`
checks the list it is given once more.  The two agree but at one bound: the Manager takes a
`max_bytes` of zero for an empty Artifact, the task does not (`checkoutArtifacts_taken`).
-/

namespace CodexGateway.Manager

open PyJson StorageOps StorageOps.Checkout

/-! ## The checks of the Manager -/

/-- An item of the returned list. -/
structure CheckoutArtifact where
  artifactId : String
  filename : String
  size : ℤ
  sha256 : String
  maxBytes : ℤ
  url : String
  token : String
deriving DecidableEq

/-- The item as the task is given it. -/
def CheckoutArtifact.members (artifact : CheckoutArtifact) : Members :=
  [("artifact_id", .str artifact.artifactId), ("filename", .str artifact.filename),
    ("size", .int artifact.size), ("sha256", .str artifact.sha256),
    ("max_bytes", .int artifact.maxBytes), ("url", .str artifact.url),
    ("token", .str artifact.token)]

/-- `_required_claim` -/
def requiredClaim (claims : Members) (name : String) : Except String String :=
  match claims.get name with
  | .str value =>
    if value = "" ∨ 8192 < value.length then .error ("Operation " ++ name ++ " is invalid")
    else .ok value
  | _ => .error ("Operation " ++ name ++ " is invalid")

/-- `isinstance(value, int) and not isinstance(value, bool)` -/
def plainInt (error : String) : Json → Except String ℤ
  | .int value => .ok value
  | _ => .error error

/-- The file names that are refused. -/
def invalidFilename (filename : String) : Bool :=
  255 < filename.length || filename = "." || filename = ".." || '/' ∈ filename.toList ||
    '\\' ∈ filename.toList || '\x00' ∈ filename.toList

/-- The checks of one item. -/
def checkoutArtifact (raw : Json) : Except String CheckoutArtifact :=
  match raw with
  | .obj raw => do
    let artifactId ← requiredClaim raw "artifact_id"
    let filename ← requiredClaim raw "filename"
    let sha256 := (← requiredClaim raw "sha256").toLower
    let url ← requiredClaim raw "url"
    let token ← requiredClaim raw "token"
    if hexText "artifact_".toList 32 artifactId.toList = false then
      throw "Operation artifact_id is invalid"
    if invalidFilename filename then throw "Operation Artifact filename is invalid"
    if hexText [] 64 sha256.toList = false then throw "Operation Artifact sha256 is invalid"
    let size ← plainInt "Operation Artifact size is invalid" (Members.get raw "size")
    if size < 0 then throw "Operation Artifact size is invalid"
    let maxBytes ← plainInt "Operation Artifact max_bytes is invalid" (Members.get raw "max_bytes")
    if maxBytes < size ∨ 10 * 1024 ^ 3 < maxBytes then
      throw "Operation Artifact max_bytes is invalid"
    return { artifactId, filename, size, sha256, maxBytes, url, token }
  | _ => .error "Operation Artifact is invalid"

/-- `validate_url`, which raises for the URLs it does not allow. -/
abbrev ValidateUrl := String → Except String Unit

/-- The loop of `_checkout_artifacts`, after `artifacts`. -/
def checkoutArtifactsAfter (validateUrl : ValidateUrl) (artifacts : List CheckoutArtifact) :
    List Json → Except String (List CheckoutArtifact)
  | [] => .ok artifacts
  | raw :: value => do
    let artifact ← checkoutArtifact raw
    if artifact.artifactId ∈ artifacts.map (·.artifactId) ∨
        artifact.filename ∈ artifacts.map (·.filename) then
      throw "Operation Artifact ids and filenames must be unique"
    let _ ← validateUrl artifact.url
    checkoutArtifactsAfter validateUrl (artifacts ++ [artifact]) value

/-- `_checkout_artifacts` -/
def checkoutArtifacts (validateUrl : ValidateUrl) (value : Json) :
    Except String (List CheckoutArtifact) :=
  match value with
  | .arr value =>
    if 32 < value.length then .error "Operation artifacts cannot contain more than 32 items"
    else checkoutArtifactsAfter validateUrl [] value
  | _ => .error "Operation artifacts cannot contain more than 32 items"

/-! ## What the task needs -/

/-- The chunks of a download, one after the other. -/
def receiveAll (operationId : String) (s : Workspace × Stage) (chunks : List Bytes) :
    Option (Workspace × Stage) :=
  chunks.foldlM (fun s chunk => receive operationId s.1 chunk s.2) s

/-- The download of an item: its URL, token and limit are accepted, and the declared bytes pass the
limit, in whatever chunks they come, and the checks at the end. -/
structure Fetches (artifacts : List Members) (item : PublicArtifact) (limit : ℕ) : Prop where
  source : downloadLimit artifacts item = .ok limit
  limit : ∀ operationId ws installed rest chunks, chunks.flatten.length = item.size →
    ∃ ws', receiveAll operationId (ws, .download installed item limit [] rest) chunks =
      some (ws', .download installed item limit chunks.flatten rest)
  size : ∀ (sha256 : Bytes → String) body, body.length = item.size → sha256 body = item.sha256 →
    downloaded sha256 artifacts item body = .ok item

/-- **The task takes the Artifacts**: its checks accept them, and each can be downloaded. -/
structure Takes (artifacts : List Members) : Prop where
  length : artifacts.length ≤ 32
  manifest : ∀ userMessageId assistantMessageId, ∃ pub,
    checkoutPublicManifest ⟨userMessageId, assistantMessageId, artifacts⟩ = .ok pub ∧
      ∀ item ∈ pub.artifacts, ∃ limit, Fetches artifacts item limit

/-- No item has a `max_bytes` of zero. -/
def DeclaresLimits (value : Json) : Prop :=
  ∀ items, value = .arr items → ∀ raw, .obj raw ∈ items → Members.get raw "max_bytes" ≠ .int 0

/-! ## What the Manager has checked -/

/-- What is known of an item the Manager has accepted. -/
structure CheckoutArtifact.Valid (artifact : CheckoutArtifact) : Prop where
  artifactId : hexText "artifact_".toList 32 artifact.artifactId.toList = true
  filename_ne : artifact.filename ≠ ""
  filename : invalidFilename artifact.filename = false
  sha256 : hexText [] 64 artifact.sha256.toList = true
  size : 0 ≤ artifact.size
  maxBytes : artifact.size ≤ artifact.maxBytes
  url : artifact.url ≠ ""
  token : artifact.token ≠ ""

theorem requiredClaim_ok {claims : Members} {name value : String}
    (h : requiredClaim claims name = .ok value) : value ≠ "" := by
  unfold requiredClaim at h
  split at h
  · split_ifs at h with hinvalid
    cases h
    exact (not_or.mp hinvalid).1
  · cases h

theorem plainInt_ok {error : String} {value : Json} {i : ℤ} (h : plainInt error value = .ok i) :
    value = .int i := by
  cases value <;> cases h
  rfl

theorem checkoutArtifact_ok {raw : Json} {artifact : CheckoutArtifact}
    (h : checkoutArtifact raw = .ok artifact) :
    artifact.Valid ∧ ∃ ms, raw = .obj ms ∧ Members.get ms "max_bytes" = .int artifact.maxBytes := by
  unfold checkoutArtifact at h
  split at h
  · rename_i ms
    obtain ⟨artifactId, -, h⟩ := bind_ok h
    obtain ⟨filename, hfilename, h⟩ := bind_ok h
    obtain ⟨sha256, -, h⟩ := bind_ok h
    obtain ⟨url, hurl, h⟩ := bind_ok h
    obtain ⟨token, htoken, h⟩ := bind_ok h
    obtain ⟨hid, h⟩ := guard_ok h
    obtain ⟨hname, h⟩ := guard_ok h
    obtain ⟨hdigest, h⟩ := guard_ok h
    obtain ⟨size, -, h⟩ := bind_ok h
    obtain ⟨hsize, h⟩ := guard_ok h
    obtain ⟨maxBytes, hmax, h⟩ := bind_ok h
    obtain ⟨hbounds, h⟩ := guard_ok h
    cases h
    refine ⟨⟨Bool.of_not_eq_false hid, requiredClaim_ok hfilename, Bool.of_not_eq_true hname,
      Bool.of_not_eq_false hdigest, not_lt.mp hsize, not_lt.mp (not_or.mp hbounds).1,
      requiredClaim_ok hurl, requiredClaim_ok htoken⟩, ms, rfl, plainInt_ok hmax⟩
  · cases h

/-- **The returned items, of a list of as many.** -/
theorem checkoutArtifactsAfter_ok {validateUrl : ValidateUrl} {value : List Json}
    {artifacts returned : List CheckoutArtifact}
    (h : checkoutArtifactsAfter validateUrl artifacts value = .ok returned)
    (hids : (artifacts.map (·.artifactId)).Nodup) (hnames : (artifacts.map (·.filename)).Nodup) :
    (returned.map (·.artifactId)).Nodup ∧ (returned.map (·.filename)).Nodup ∧
      ∃ rest, returned = artifacts ++ rest ∧
        List.Forall₂ (fun raw artifact => checkoutArtifact raw = .ok artifact) value rest := by
  induction value generalizing artifacts with
  | nil =>
    cases h
    exact ⟨hids, hnames, [], (List.append_nil _).symm, .nil⟩
  | cons raw value ih =>
    obtain ⟨artifact, hartifact, h⟩ := bind_ok h
    obtain ⟨hnew, h⟩ := guard_ok h
    obtain ⟨-, -, h⟩ := bind_ok h
    rw [not_or] at hnew
    obtain ⟨hids', hnames', rest, rfl, hrest⟩ := ih h
      (by simpa using List.nodup_append.mpr ⟨hids, List.nodup_singleton _, by simpa using hnew.1⟩)
      (by simpa using List.nodup_append.mpr ⟨hnames, List.nodup_singleton _, by simpa using hnew.2⟩)
    exact ⟨hids', hnames', artifact :: rest, by simp, .cons hartifact hrest⟩

/-! ## What the task makes of it -/

section Task

variable {artifact : CheckoutArtifact} {artifacts : List CheckoutArtifact}

theorem toLower_hexDigit {c : Char} (h : hexDigit c = true) : c.toLower = c := by
  unfold hexDigit at h
  unfold Char.toLower
  simp only [Bool.or_eq_true, Bool.and_eq_true, decide_eq_true_eq, Char.le_def,
    UInt32.le_iff_toNat_le] at h
  rw [dif_neg]
  simp only [ge_iff_le, UInt32.le_iff_toNat_le]
  have hval : c.val.toNat = c.toNat := rfl
  have hlow : 'A'.val.toNat = 65 := rfl
  have hhigh : 'Z'.val.toNat = 90 := rfl
  simp at h
  omega

/-- A digest is lower case already. -/
theorem toLower_digest {sha256 : String} (h : hexText [] 64 sha256.toList = true) :
    sha256.toLower = sha256 := by
  have hall : sha256.toList.all hexDigit = true := by
    simp only [hexText, Bool.and_eq_true] at h
    exact h.2
  refine String.toList_inj.mp ?_
  unfold String.toLower
  rw [String.toList_map]
  exact (List.map_congr_left fun c hc => toLower_hexDigit (List.all_eq_true.mp hall c hc)).trans
    (List.map_id _)

/-- The name of a path of one component. -/
theorem pathName_eq {name : List Char} (hslash : '/' ∉ name) (hnil : name ≠ [])
    (hdot : name ≠ ['.']) : pathName name = name := by
  have hparts : SandboxApi.parts name = [name] :=
    List.splitOnP_eq_singleton fun c hc => by
      have hne : c ≠ '/' := fun he => hslash (he ▸ hc)
      simpa using hne
  simp [pathName, hparts, hnil, hdot]

theorem toList_ne {s t : String} (h : s ≠ t) : s.toList ≠ t.toList := fun he =>
  h (String.toList_inj.mp he)

/-- **A file name that the Manager takes is safe.** -/
theorem CheckoutArtifact.Valid.safeFilename (h : artifact.Valid) :
    safeFilename artifact.filename = .ok artifact.filename := by
  have hname := h.filename
  simp only [invalidFilename, Bool.or_eq_false_iff, decide_eq_false_iff_not] at hname
  obtain ⟨⟨⟨⟨⟨hlength, hdot⟩, hdots⟩, hslash⟩, -⟩, hnul⟩ := hname
  have hpath : pathName artifact.filename.toList = artifact.filename.toList :=
    pathName_eq hslash (toList_ne h.filename_ne) (toList_ne hdot)
  rw [Checkout.safeFilename, if_neg]
  simp only [not_or, not_not]
  exact ⟨h.filename_ne, hlength, hdot, hdots, hpath, hnul⟩

/-- The item of the public manifest. -/
def CheckoutArtifact.toPublic (artifact : CheckoutArtifact) : PublicArtifact :=
  ⟨artifact.artifactId, artifact.filename, artifact.size.toNat, artifact.sha256⟩

theorem requiredText_str {value : Members} {name item : String} (h : value.get name = .str item)
    (hne : item ≠ "") : requiredText value name = .ok item := by
  rw [requiredText, h]
  exact if_neg hne

/-- A text of the pattern is not empty. -/
theorem ne_of_hexText {head : List Char} {n : ℕ} {value : String}
    (h : hexText head n value.toList = true) (hn : n ≠ 0) : value ≠ "" := by
  rintro rfl
  simp only [hexText, Bool.and_eq_true, decide_eq_true_eq] at h
  exact hn (by simpa using h.1.2.symm)

theorem CheckoutArtifact.Valid.publicArtifact (h : artifact.Valid) :
    publicArtifact artifact.members = .ok artifact.toPublic := by
  have hid : requiredText artifact.members "artifact_id" = .ok artifact.artifactId :=
    requiredText_str rfl (ne_of_hexText h.artifactId (by decide))
  have hname : requiredText artifact.members "filename" = .ok artifact.filename :=
    requiredText_str rfl h.filename_ne
  have hdigest : requiredText artifact.members "sha256" = .ok artifact.sha256 :=
    requiredText_str rfl (ne_of_hexText h.sha256 (by decide))
  have hsize : positiveInt artifact.members "size" true = .ok artifact.size.toNat :=
    if_neg (not_lt.mpr h.size)
  rw [Checkout.publicArtifact, hid, hname, hsize, hdigest]
  simp only [bind, Except.bind, h.safeFilename, toLower_digest h.sha256]
  rw [if_neg (Bool.not_eq_false _ ▸ h.artifactId), if_neg (Bool.not_eq_false _ ▸ h.sha256)]
  rfl

/-- **The task's loop takes every item.** -/
theorem publicArtifacts_members (hvalid : ∀ artifact ∈ artifacts, artifact.Valid)
    {pub : List PublicArtifact}
    (hids : ((pub ++ artifacts.map (·.toPublic)).map (·.artifactId)).Nodup)
    (hnames : ((pub ++ artifacts.map (·.toPublic)).map (·.filename)).Nodup) :
    publicArtifacts pub (artifacts.map (·.members)) = .ok (pub ++ artifacts.map (·.toPublic)) := by
  induction artifacts generalizing pub with
  | nil => simp [publicArtifacts]
  | cons artifact artifacts ih =>
    have hitem := (hvalid artifact List.mem_cons_self).publicArtifact
    have hnew : ¬ (artifact.toPublic.artifactId ∈ pub.map (·.artifactId) ∨
        artifact.toPublic.filename ∈ pub.map (·.filename)) := by
      simp only [List.map_append, List.map_cons, List.nodup_append] at hids hnames
      rintro (hmem | hmem)
      · exact hids.2.2 _ hmem _ List.mem_cons_self rfl
      · exact hnames.2.2 _ hmem _ List.mem_cons_self rfl
    have happend : pub ++ (artifact :: artifacts).map (·.toPublic) =
        pub ++ [artifact.toPublic] ++ artifacts.map (·.toPublic) := by simp
    rw [happend] at hids hnames ⊢
    have hrest := ih (fun a ha => hvalid a (List.mem_cons_of_mem _ ha)) hids hnames
    rw [List.map_cons, publicArtifacts, hitem, ← hrest]
    exact if_neg hnew

theorem artifactSource_members (hids : (artifacts.map (·.artifactId)).Nodup)
    (hmem : artifact ∈ artifacts) :
    artifactSource (artifacts.map (·.members)) artifact.artifactId = .ok artifact.members := by
  suffices hfind : (artifacts.map (·.members)).find? (describes artifact.artifactId) =
      some artifact.members by
    rw [artifactSource, hfind]
  induction artifacts with
  | nil => cases hmem
  | cons head artifacts ih =>
    rw [List.map_cons, List.nodup_cons] at hids
    have hdescribes (id : String) : describes id head.members = decide (head.artifactId = id) := rfl
    rcases List.mem_cons.mp hmem with rfl | hmem
    · exact List.find?_cons_of_pos (by simp [hdescribes])
    · have hne : head.artifactId ≠ artifact.artifactId := fun he =>
        hids.1 (he ▸ List.mem_map_of_mem hmem)
      rw [List.map_cons, List.find?_cons_of_neg (by simpa [hdescribes] using hne)]
      exact ih hids.2 hmem

/-- What the limit of a download is read from. -/
theorem downloadLimit_members (hids : (artifacts.map (·.artifactId)).Nodup)
    (hmem : artifact ∈ artifacts) (hvalid : artifact.Valid) :
    downloadLimit (artifacts.map (·.members)) artifact.toPublic =
      positiveInt artifact.members "max_bytes" false := by
  have hurl : requiredText artifact.members "url" = .ok artifact.url :=
    requiredText_str rfl hvalid.url
  have htoken : requiredText artifact.members "token" = .ok artifact.token :=
    requiredText_str rfl hvalid.token
  rw [downloadLimit, CheckoutArtifact.toPublic, artifactSource_members hids hmem]
  simp only [bind, Except.bind, hurl, htoken]

/-- No more than the limit comes through, in whatever chunks. -/
theorem receiveAll_le (operationId : String) (ws : Workspace) (installed : List PublicArtifact)
    (item : PublicArtifact) (limit : ℕ) (rest : List PublicArtifact) (chunks : List Bytes)
    (body : Bytes) (h : (body ++ chunks.flatten).length ≤ limit) :
    ∃ ws', receiveAll operationId (ws, .download installed item limit body rest) chunks =
      some (ws', .download installed item limit (body ++ chunks.flatten) rest) := by
  induction chunks generalizing ws body with
  | nil => exact ⟨ws, by simp [receiveAll]⟩
  | cons chunk chunks ih =>
    have hfits : (body ++ chunk).length ≤ limit := by
      simp only [List.flatten_cons, List.length_append] at h ⊢
      omega
    have hflatten : body ++ (chunk :: chunks).flatten = body ++ chunk ++ chunks.flatten := by simp
    rw [hflatten] at h ⊢
    obtain ⟨ws', hrun⟩ := ih (ws.stage operationId
      ((ws.staging operationId).map (·.write item.filename (.data (body ++ chunk))))) _ h
    refine ⟨ws', ?_⟩
    rw [receiveAll, List.foldlM_cons]
    simp only [receive, if_neg (not_lt.mpr hfits)]
    exact hrun

/-- **An item with a limit of at least one byte is downloaded.** -/
theorem CheckoutArtifact.Valid.fetches (hvalid : artifact.Valid)
    (hids : (artifacts.map (·.artifactId)).Nodup) (hmem : artifact ∈ artifacts)
    (hmax : 1 ≤ artifact.maxBytes) :
    Fetches (artifacts.map (·.members)) artifact.toPublic artifact.maxBytes.toNat where
  source := by
    rw [downloadLimit_members hids hmem hvalid]
    exact if_neg (not_lt.mpr hmax)
  limit := fun operationId ws installed rest chunks hsize => by
    have hmaxBytes := hvalid.maxBytes
    have hlength : ([] ++ chunks.flatten).length ≤ artifact.maxBytes.toNat := by
      rw [List.nil_append, hsize]
      exact Int.toNat_le_toNat hmaxBytes
    exact receiveAll_le operationId ws installed _ _ rest chunks [] hlength
  size := fun sha256 body hsize hdigest => by
    have hdiffers : digestDiffers artifact.members (sha256 body) = false := by
      have hget : Members.get artifact.members "sha256" = .str artifact.sha256 := rfl
      rw [digestDiffers, hget, hdigest]
      exact decide_eq_false (not_not.mpr (toLower_digest hvalid.sha256).symm)
    rw [downloaded, show artifact.toPublic.artifactId = artifact.artifactId from rfl,
      artifactSource_members hids hmem]
    simp only [bind, Except.bind, hdiffers]
    rw [if_neg Bool.false_ne_true, if_neg (not_not.mpr hsize), hsize, hdigest]
    rfl

/-- A limit of zero bytes is refused. -/
theorem CheckoutArtifact.Valid.not_fetches (hvalid : artifact.Valid)
    (hids : (artifacts.map (·.artifactId)).Nodup) (hmem : artifact ∈ artifacts)
    (hmax : artifact.maxBytes < 1) (limit : ℕ) :
    ¬ Fetches (artifacts.map (·.members)) artifact.toPublic limit := fun h => by
  have hsource := h.source
  have hrefused : positiveInt artifact.members "max_bytes" false =
      .error "Operation max_bytes is invalid" := if_pos hmax
  rw [downloadLimit_members hids hmem hvalid, hrefused] at hsource
  cases hsource

/-- **The task takes the returned items when each has a limit of at least one byte.** -/
theorem takes_members (hvalid : ∀ artifact ∈ artifacts, artifact.Valid)
    (hids : (artifacts.map (·.artifactId)).Nodup) (hnames : (artifacts.map (·.filename)).Nodup)
    (hlength : artifacts.length ≤ 32) :
    Takes (artifacts.map (·.members)) ↔ ∀ artifact ∈ artifacts, 1 ≤ artifact.maxBytes := by
  have hpublic (userMessageId assistantMessageId : String) :
      checkoutPublicManifest ⟨userMessageId, assistantMessageId, artifacts.map (·.members)⟩ =
        .ok ⟨userMessageId, assistantMessageId, artifacts.map (·.toPublic)⟩ := by
    have hitems : publicArtifacts [] (artifacts.map (·.members)) =
        .ok ([] ++ artifacts.map (·.toPublic)) :=
      publicArtifacts_members hvalid (by rw [List.nil_append, List.map_map]; exact hids)
        (by rw [List.nil_append, List.map_map]; exact hnames)
    rw [checkoutPublicManifest, hitems]
    rfl
  constructor
  · intro h artifact hmem
    obtain ⟨pub, hpub, hfetches⟩ := h.manifest "" ""
    rw [hpublic] at hpub
    cases hpub
    obtain ⟨limit, hfetch⟩ := hfetches artifact.toPublic (List.mem_map_of_mem hmem)
    by_contra hmax
    exact (hvalid artifact hmem).not_fetches hids hmem (not_le.mp hmax) limit hfetch
  · refine fun hmax => ⟨by simpa using hlength, fun userMessageId assistantMessageId =>
      ⟨_, hpublic userMessageId assistantMessageId, fun item hitem => ?_⟩⟩
    obtain ⟨artifact, hmem, rfl⟩ := List.mem_map.mp hitem
    exact ⟨_, (hvalid artifact hmem).fetches hids hmem (hmax artifact hmem)⟩

end Task

/-! ## The two checks -/

theorem checkoutArtifacts_ok {validateUrl : ValidateUrl} {value : Json}
    {artifacts : List CheckoutArtifact} (h : checkoutArtifacts validateUrl value = .ok artifacts) :
    ∃ items, value = .arr items ∧ items.length ≤ 32 ∧ (artifacts.map (·.artifactId)).Nodup ∧
      (artifacts.map (·.filename)).Nodup ∧
      List.Forall₂ (fun raw artifact => checkoutArtifact raw = .ok artifact) items artifacts := by
  unfold checkoutArtifacts at h
  split at h
  · rename_i items
    split_ifs at h with hlength
    obtain ⟨hids, hnames, rest, rfl, hrest⟩ :=
      checkoutArtifactsAfter_ok h List.nodup_nil List.nodup_nil
    exact ⟨items, rfl, not_lt.mp hlength, hids, hnames, hrest⟩
  · cases h

/-- Where every item of the value was accepted, every returned item is valid. -/
theorem valid_of_accepted {items : List Json} {artifacts : List CheckoutArtifact}
    (h : List.Forall₂ (fun raw artifact => checkoutArtifact raw = .ok artifact) items artifacts) :
    ∀ artifact ∈ artifacts, artifact.Valid := by
  induction h with
  | nil => exact fun _ hmem => (List.not_mem_nil hmem).elim
  | cons hitem _ ih => exact List.forall_mem_cons.mpr ⟨(checkoutArtifact_ok hitem).1, ih⟩

theorem CheckoutArtifact.Valid.limit_ne_zero {artifact : CheckoutArtifact}
    (h : artifact.Valid) : Json.int artifact.maxBytes ≠ .int 0 ↔ 1 ≤ artifact.maxBytes := by
  have hsize := h.size
  have hmax := h.maxBytes
  rw [Ne, Json.int.injEq]
  omega

/-- The limits of the returned items are those of the value. -/
theorem declaresLimits_iff {items : List Json} {artifacts : List CheckoutArtifact}
    (h : List.Forall₂ (fun raw artifact => checkoutArtifact raw = .ok artifact) items artifacts) :
    DeclaresLimits (.arr items) ↔ ∀ artifact ∈ artifacts, 1 ≤ artifact.maxBytes := by
  have hvalue : DeclaresLimits (.arr items) ↔
      ∀ raw, .obj raw ∈ items → Members.get raw "max_bytes" ≠ .int 0 :=
    ⟨fun h => h items rfl, fun h items' he => Json.arr.inj he ▸ h⟩
  rw [hvalue]
  clear hvalue
  induction h with
  | nil => simp
  | cons hitem _ ih =>
    obtain ⟨hvalid, ms, rfl, hmax⟩ := checkoutArtifact_ok hitem
    rw [List.forall_mem_cons, ← hvalid.limit_ne_zero, ← hmax]
    refine Iff.trans ⟨fun h => ⟨h ms List.mem_cons_self, fun raw hraw =>
      h raw (List.mem_cons_of_mem _ hraw)⟩, fun h raw hraw => ?_⟩ (and_congr_right' ih)
    rcases List.mem_cons.mp hraw with he | hraw
    · exact Json.obj.inj he ▸ h.1
    · exact h.2 raw hraw

/-- **The task takes what the Manager takes when no Artifact has a limit of zero bytes.** -/
theorem checkoutArtifacts_taken {validateUrl : ValidateUrl} {value : Json}
    {artifacts : List CheckoutArtifact} (h : checkoutArtifacts validateUrl value = .ok artifacts) :
    Takes (artifacts.map (·.members)) ↔ DeclaresLimits value := by
  obtain ⟨items, rfl, hlength, hids, hnames, hitems⟩ := checkoutArtifacts_ok h
  rw [declaresLimits_iff hitems]
  exact takes_members (valid_of_accepted hitems) hids hnames (hitems.length_eq ▸ hlength)

/-- An Artifact of a checkout. -/
def sampleCheckout (size maxBytes : ℤ) : CheckoutArtifact where
  artifactId := "artifact_0123456789abcdef0123456789abcdef"
  filename := "report.txt"
  size := size
  sha256 := "e3b0c44298fc1c149afbf4c8996fb92427ae41e4649b934ca495991b7852b855"
  maxBytes := maxBytes
  url := "http://artifacts/v1/artifacts/0123"
  token := "t"

theorem checkoutArtifacts_taken_sample :
    checkoutArtifacts (fun _ => .ok ()) (.arr [.obj (sampleCheckout 0 1).members]) =
        .ok [sampleCheckout 0 1] ∧
      Takes [(sampleCheckout 0 1).members] := by
  have h : checkoutArtifacts (fun _ => .ok ()) (.arr [.obj (sampleCheckout 0 1).members]) =
      .ok [sampleCheckout 0 1] := by decide +kernel
  refine ⟨h, (checkoutArtifacts_taken h).mpr fun items hitems raw hraw => ?_⟩
  obtain rfl := Json.arr.inj hitems
  obtain rfl := Json.obj.inj (List.mem_singleton.mp hraw)
  exact fun hzero => absurd (Json.int.inj hzero) (by decide)

/-- An empty Artifact with a limit of zero bytes. -/
theorem checkoutArtifacts_taken_zero :
    ∃ artifacts, checkoutArtifacts (fun _ => .ok ())
        (.arr [.obj (sampleCheckout 0 0).members]) = .ok artifacts ∧
      ¬ Takes (artifacts.map (·.members)) := by
  refine ⟨[sampleCheckout 0 0], by decide +kernel, fun h => ?_⟩
  obtain ⟨pub, hpub, hfetches⟩ := h.manifest "user1" "assistant1"
  have hmanifest : checkoutPublicManifest ⟨"user1", "assistant1", [(sampleCheckout 0 0).members]⟩ =
      .ok ⟨"user1", "assistant1", [(sampleCheckout 0 0).toPublic]⟩ := by decide +kernel
  obtain rfl := Except.ok.inj (hpub.symm.trans hmanifest)
  obtain ⟨limit, hfetch⟩ := hfetches _ List.mem_cons_self
  have hrefused : downloadLimit [(sampleCheckout 0 0).members] (sampleCheckout 0 0).toPublic =
      .error "Operation max_bytes is invalid" := by decide +kernel
  have hsource := hfetch.source
  rw [show [sampleCheckout 0 0].map (·.members) = [(sampleCheckout 0 0).members] from rfl,
    hrefused] at hsource
  cases hsource

end CodexGateway.Manager
