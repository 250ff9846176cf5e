import CodexGateway.Adapter.Csp
import CodexGateway.Library.Base64

/-!
# Adapter/McpResource — an MCP resource as an HTTP response

`render_mcp_resource` serves one content of the payload, and adds the policy of `build_mcp_app_csp`
when the media type begins with `text/html;profile=mcp-app`.  Such a type is HTML to a browser,
however its letters are cased; HTML that declares no profile is served without a policy
(`renderMcpResource_csp`).
-/

namespace CodexGateway.Adapter

open PyJson

/-- `MCP_APP_MIME_TYPE` -/
def mcpAppMimeType : String := "text/html;profile=mcp-app"

/-- What is raised: `ResourceNotFoundError` or `InvalidRequestError`. -/
inductive RenderError where
  | notFound (uri : String)
  | invalid (error : InvalidRequestError)
deriving DecidableEq

/-- The arguments of `Response(...)`. -/
structure ResourceResponse where
  content : List UInt8
  mediaType : String
  headers : List (String × String)
deriving DecidableEq

/-- The content for the URI, or else the first one that is a dictionary. -/
def selectContent (contents : List Json) (requestedUri : String) : Option Members :=
  let dicts := contents.filterMap dict?
  (dicts.find? fun content => str? (content.get "uri") = some requestedUri).or dicts.head?

/-- The content that is served. -/
def served (payload : Members) (requestedUri : String) : Option Members :=
  (list? (payload.get "contents")).bind (selectContent · requestedUri)

/-- The media type of a resource. -/
def mimeType (selected : Members) : String :=
  (str? (orElse (selected.get "mimeType") (selected.get "mime_type"))).getD
    "application/octet-stream"

/-- The bytes of a content: its text, or else its blob. -/
def rawContent (selected : Members) : Except InvalidRequestError (List UInt8) :=
  match str? (selected.get "text"), str? (selected.get "blob") with
  | some text, _ => .ok (text.toList.flatMap String.utf8EncodeChar)
  | none, some blob =>
    match Base64.b64decode blob.toList with
    | some raw => .ok raw
    | none => .error ⟨"MCP resource blob is not valid base64.", some "blob",
        "invalid_mcp_resource_blob"⟩
  | none, none => .error ⟨"MCP resource did not contain text or blob content.", none,
      "invalid_mcp_resource"⟩

/-- `mime_type.lower().startswith(MCP_APP_MIME_TYPE)`.  No character but an ASCII letter is lowered
to letters of the prefix alone. -/
def isMcpAppType (mimeType : String) : Bool :=
  mcpAppMimeType.toList.isPrefixOf (mimeType.toList.map Char.toLower)

/-- `render_mcp_resource` -/
def renderMcpResource (payload : Members) (requestedUri : String) (maxBytes : ℤ) :
    Except RenderError ResourceResponse :=
  match served payload requestedUri with
  | none => .error (.notFound requestedUri)
  | some selected =>
    match rawContent selected with
    | .error error => .error (.invalid error)
    | .ok raw =>
      if maxBytes < raw.length then
        .error (.invalid ⟨"MCP App resource exceeds the configured size limit.", none,
          "mcp_app_resource_too_large"⟩)
      else
        let mimeType := mimeType selected
        let headers := [("Cache-Control", "no-store"), ("X-Content-Type-Options", "nosniff"),
          ("Content-Disposition", "inline")]
        .ok ⟨raw, mimeType, if isMcpAppType mimeType then
          headers ++ [("Content-Security-Policy",
            String.ofList (buildMcpAppCsp (selected.get "_meta")))] else headers⟩

/-! ## How a browser reads a media type -/

/-- HTTP white space. -/
def isHttpSpace (c : Char) : Bool := c ∈ ['\t', '\n', '\r', ' ']

/-- The essence of a media type: its type and subtype, in lower case.  White space before the type
and after the subtype does not count. -/
def essence (mediaType : String) : Option (List Char) :=
  let text := mediaType.toList.dropWhile isHttpSpace
  match text.dropWhile (· ≠ '/') with
  | [] => none
  | _ :: rest =>
    let subtype := ((rest.takeWhile (· ≠ ';')).reverse.dropWhile isHttpSpace).reverse
    some ((text.takeWhile (· ≠ '/') ++ '/' :: subtype).map Char.toLower)

/-- The media type has a `profile` in it, in any letter case. -/
def namesProfile (mediaType : String) : Prop :=
  "profile".toList <:+: mediaType.toList.map Char.toLower

example : essence " Text/HTML ; charset=utf-8" = some "text/html".toList := by decide +kernel

/-- Only letters are lowered to letters. -/
theorem eq_of_toLower {c d : Char} (h : c.toLower = d) (hd : ¬ ('a' ≤ d ∧ d ≤ 'z')) : c = d := by
  unfold Char.toLower at h
  split at h
  · rename_i hupper
    refine absurd ?_ hd
    rw [← h, Char.le_def, Char.le_def]
    rw [ge_iff_le, UInt32.le_iff_toNat_le, UInt32.le_iff_toNat_le] at hupper
    rw [UInt32.le_iff_toNat_le, UInt32.le_iff_toNat_le, UInt32.toNat_add]
    have hA : 'A'.val.toNat = 65 := rfl
    have hZ : 'Z'.val.toNat = 90 := rfl
    have ha : 'a'.val.toNat = 97 := rfl
    have hz : 'z'.val.toNat = 122 := rfl
    have hgap : ('a'.val - 'A'.val).toNat = 32 := rfl
    omega
  · exact h

/-- The text of an MCP App's type: only the cases of its letters are free. -/
theorem exists_of_isMcpAppType {mediaType : String} (h : isMcpAppType mediaType) :
    ∃ w y z, mediaType.toList = w ++ '/' :: (y ++ ';' :: z) ∧
      w.map Char.toLower = "text".toList ∧ y.map Char.toLower = "html".toList ∧
      "profile=mcp-app".toList <+: z.map Char.toLower := by
  obtain ⟨rest, hrest⟩ := List.isPrefixOf_iff_prefix.mp h
  have hsplit : mcpAppMimeType.toList ++ rest =
      "text".toList ++ '/' :: ("html".toList ++ ';' :: ("profile=mcp-app".toList ++ rest)) := rfl
  rw [hsplit] at hrest
  obtain ⟨w, s, htext, hw, hs⟩ := List.map_eq_append_iff.mp hrest.symm
  obtain ⟨a, s, rfl, ha, hs⟩ := List.map_eq_cons_iff.mp hs
  obtain ⟨y, s, rfl, hy, hs⟩ := List.map_eq_append_iff.mp hs
  obtain ⟨b, z, rfl, hb, hz⟩ := List.map_eq_cons_iff.mp hs
  obtain rfl := eq_of_toLower ha (by decide)
  obtain rfl := eq_of_toLower hb (by decide)
  exact ⟨w, y, z, htext, hw, hy, ⟨rest, hz.symm⟩⟩

/-- A character that is not lowered into the word does not stand for it. -/
theorem not_mem_of_map_toLower {w word : List Char} (h : w.map Char.toLower = word)
    (others : List Char) (hothers : others.all fun d => d.toLower ∉ word) :
    ∀ c ∈ w, c ∉ others := fun c hc hmem =>
  of_decide_eq_true (List.all_eq_true.mp hothers c hmem) (h ▸ List.mem_map_of_mem hc)

/-- **An MCP App's type is HTML to a browser.** -/
theorem essence_of_isMcpAppType {mediaType : String} (h : isMcpAppType mediaType) :
    essence mediaType = some "text/html".toList := by
  obtain ⟨w, y, z, htext, hw, hy, -⟩ := exists_of_isMcpAppType h
  have hslash : ∀ c ∈ w, decide (c ≠ '/') = true := fun c hc => by
    simpa using not_mem_of_map_toLower hw ['/'] (by decide) c hc
  have hsemicolon : ∀ c ∈ y, decide (c ≠ ';') = true := fun c hc => by
    simpa using not_mem_of_map_toLower hy [';'] (by decide) c hc
  have hlead : (w ++ '/' :: (y ++ ';' :: z)).dropWhile isHttpSpace =
      w ++ '/' :: (y ++ ';' :: z) := by
    cases w with
    | nil => exact absurd hw (by decide)
    | cons c w =>
      refine List.dropWhile_cons_of_neg ?_
      simpa [isHttpSpace] using not_mem_of_map_toLower hw
        ['\t', '\n', '\r', ' '] (by decide) c List.mem_cons_self
  have htrail : (y.reverse.dropWhile isHttpSpace).reverse = y := by
    cases hr : y.reverse with
    | nil => rw [List.reverse_eq_nil_iff.mp hr]; rfl
    | cons c r =>
      rw [List.dropWhile_cons_of_neg, ← hr, List.reverse_reverse]
      simpa [isHttpSpace] using not_mem_of_map_toLower hy
        ['\t', '\n', '\r', ' '] (by decide) c
        (List.mem_reverse.mp (hr ▸ List.mem_cons_self))
  have htype : (w ++ '/' :: (y ++ ';' :: z)).takeWhile (· ≠ '/') = w := by
    rw [List.takeWhile_append_of_pos hslash, List.takeWhile_cons_of_neg (by simp), List.append_nil]
  have hrest : (w ++ '/' :: (y ++ ';' :: z)).dropWhile (· ≠ '/') = '/' :: (y ++ ';' :: z) := by
    rw [List.dropWhile_append_of_pos hslash, List.dropWhile_cons_of_neg (by simp)]
  have hsubtype : (y ++ ';' :: z).takeWhile (· ≠ ';') = y := by
    rw [List.takeWhile_append_of_pos hsemicolon, List.takeWhile_cons_of_neg (by simp),
      List.append_nil]
  simp only [essence, htext, hlead, hrest, htype, hsubtype, htrail, List.map_append, List.map_cons,
    hw, hy]
  rfl

theorem namesProfile_of_isMcpAppType {mediaType : String} (h : isMcpAppType mediaType) :
    namesProfile mediaType := by
  obtain ⟨rest, hrest⟩ := List.isPrefixOf_iff_prefix.mp h
  exact ⟨"text/html;".toList, "=mcp-app".toList ++ rest, by rw [← hrest]; rfl⟩

/-! ## The policy of what is served -/

/-- **An MCP App is served with the policy of its metadata**, and what is not HTML, or is HTML
without a profile, is served without one. -/
theorem renderMcpResource_csp {payload : Members} {requestedUri : String} {maxBytes : ℤ}
    {response : ResourceResponse}
    (h : renderMcpResource payload requestedUri maxBytes = .ok response) :
    ∃ content, served payload requestedUri = some content ∧
      response.mediaType = mimeType content ∧
      (isMcpAppType response.mediaType →
        essence response.mediaType = some "text/html".toList ∧
        response.headers.lookup "Content-Security-Policy" =
          some (String.ofList (buildMcpAppCsp (content.get "_meta")))) ∧
      (essence response.mediaType ≠ some "text/html".toList ∨
        ¬ namesProfile response.mediaType →
          response.headers.lookup "Content-Security-Policy" = none) := by
  rw [renderMcpResource] at h
  split at h
  · exact absurd h (by simp)
  · rename_i content hcontent
    split at h
    · exact absurd h (by simp)
    · split at h
      · exact absurd h (by simp)
      · obtain rfl := Except.ok.inj h
        refine ⟨content, hcontent, rfl, fun happ => ?_, fun hother => ?_⟩
        · exact ⟨essence_of_isMcpAppType happ, by simp only [happ]; rfl⟩
        · have hno : ¬ isMcpAppType (mimeType content) := by
            intro happ
            rcases hother with hother | hother
            · exact hother (essence_of_isMcpAppType happ)
            · exact hother (namesProfile_of_isMcpAppType happ)
          simp only [hno]
          rfl

/-- A content of the media type. -/
def page (mediaType : String) : Members :=
  [("uri", .str "ui://app"), ("mimeType", .str mediaType), ("text", .str "<p>hello</p>")]

/-- A resource with one page. -/
def pagePayload (mediaType : String) : Members := [("contents", .arr [.obj (page mediaType)])]

/-- An App whose type is cased otherwise is served with its policy. -/
theorem renderMcpResource_csp_page : ∃ response,
    renderMcpResource (pagePayload "Text/HTML;Profile=MCP-app; v=1") "ui://app" 4096 =
        .ok response ∧
      response.headers.lookup "Content-Security-Policy" =
        some (String.ofList (buildMcpAppCsp .null)) := by
  obtain ⟨response, hresponse⟩ : ∃ response,
      renderMcpResource (pagePayload "Text/HTML;Profile=MCP-app; v=1") "ui://app" 4096 =
        .ok response := ⟨_, rfl⟩
  refine ⟨response, hresponse, ?_⟩
  obtain ⟨content, hcontent, htype, happ, -⟩ := renderMcpResource_csp hresponse
  obtain rfl : page "Text/HTML;Profile=MCP-app; v=1" = content := Option.some.inj hcontent
  exact (happ (htype ▸ by decide +kernel)).2

/-- A page of plain HTML is served without a policy. -/
theorem renderMcpResource_csp_plain : ¬ ∀ (payload : Members) (requestedUri : String)
    (maxBytes : ℤ) (response : ResourceResponse),
      renderMcpResource payload requestedUri maxBytes = .ok response →
      essence response.mediaType = some "text/html".toList →
      ∃ content, served payload requestedUri = some content ∧
        response.headers.lookup "Content-Security-Policy" =
          some (String.ofList (buildMcpAppCsp (content.get "_meta"))) := by
  intro h
  have hrender : renderMcpResource (pagePayload "text/html") "ui://app" 4096 =
      .ok ⟨"<p>hello</p>".toList.flatMap String.utf8EncodeChar, "text/html",
        [("Cache-Control", "no-store"), ("X-Content-Type-Options", "nosniff"),
          ("Content-Disposition", "inline")]⟩ := rfl
  obtain ⟨content, -, hheader⟩ := h _ _ _ _ hrender (by decide +kernel)
  change none = some _ at hheader
  cases hheader

end CodexGateway.Adapter
