import CodexGateway.Adapter.AppScope
import CodexGateway.Library.Lines
import CodexGateway.Library.Tokens

/-!
# Adapter/Csp — the Content-Security-Policy of an MCP App

`build_mcp_app_csp` joins domains an MCP server lists into a header.  A listed string is trimmed and
passed over when it holds a semicolon or a line break; a comma stays, and a comma starts another
policy for whoever reads the header.  So the header is the policy that is meant exactly for metadata
that lists no domain with a comma (`buildMcpAppCsp_intended_iff`).
-/

namespace CodexGateway.Adapter

open PyJson PyLines Tokens

/-! ## The header -/

/-- The deprecated flat layout: `key` is taken from `flat` where `ui` does not have it. -/
def withFlat (metadata result : Members) (key flat : String) : Members :=
  if key ∉ result.map Prod.fst ∧ (dict? (metadata.get flat)).isSome then
    insertPair result key (metadata.get flat)
  else result

/-- `_ui_meta` -/
def uiMeta (metadata : Json) : Members :=
  match dict? metadata with
  | none => []
  | some ms =>
    withFlat ms (withFlat ms ((dict? (ms.get "ui")).getD []) "csp" "ui/csp") "permissions"
      "ui/permissions"

/-- One item of `_safe_sources`. -/
def safeSource (item : Json) : Option String :=
  match str? item with
  | none => none
  | some item =>
    let source := strip item.toList
    if source = [] ∨ [';', '\n', '\r'].any (· ∈ source) then none
    else some (String.ofList source)

/-- `_safe_sources` -/
def safeSources (value : Json) : List String := ((list? value).getD []).filterMap safeSource

/-- `_directive` -/
def directive (name : String) (sources : List String) : List Char :=
  name.toList ++ ' ' :: [' '].intercalate (sources.eraseDups.map String.toList)

/-- `ui_meta.get("csp")`, where it is a dictionary. -/
def rawCsp (metadata : Json) : Members := (dict? ((uiMeta metadata).get "csp")).getD []

/-- `domains or ["'none'"]` -/
def orNone (domains : List String) : List String := if domains = [] then ["'none'"] else domains

/-- The directives of `build_mcp_app_csp`. -/
def mcpAppDirectives (metadata : Json) : List (List Char) :=
  let csp := rawCsp metadata
  let resourceDomains := safeSources (csp.get "resourceDomains")
  let connectDomains := safeSources (csp.get "connectDomains")
  let frameDomains := safeSources (csp.get "frameDomains")
  let baseUriDomains := safeSources (csp.get "baseUriDomains")
  ["default-src 'none'".toList,
    directive "script-src" (["'self'", "'unsafe-inline'"] ++ resourceDomains),
    directive "style-src" (["'self'", "'unsafe-inline'"] ++ resourceDomains),
    directive "img-src" (["'self'", "data:", "blob:"] ++ resourceDomains),
    directive "font-src" (["'self'", "data:"] ++ resourceDomains),
    directive "media-src" (["'self'", "data:", "blob:"] ++ resourceDomains),
    directive "worker-src" (["'self'", "blob:"] ++ resourceDomains),
    directive "connect-src" (orNone connectDomains),
    directive "frame-src" (orNone frameDomains),
    directive "base-uri" (orNone baseUriDomains),
    "object-src 'none'".toList,
    "form-action 'none'".toList]

/-- `build_mcp_app_csp` -/
def buildMcpAppCsp (metadata : Json) : List Char :=
  [';', ' '].intercalate (mcpAppDirectives metadata) ++ [';']

/-! ## How the header is read -/

/-- ASCII white space. -/
def isAsciiSpace (c : Char) : Bool := c ∈ ['\t', '\n', '\x0c', '\r', ' ']

/-- The directives of a policy, each as its tokens; an empty directive is passed over. -/
def parsePolicy (policy : List Char) : List (List (List Char)) :=
  ((policy.splitOn ';').map (tokens isAsciiSpace)).filter (!·.isEmpty)

/-- The policies of a header. -/
def parseCsp (header : List Char) : List (List (List (List Char))) :=
  (header.splitOn ',').map parsePolicy

/-! ## What the header is to say -/

/-- A directive that is meant: its name, its fixed sources, and the field whose domains it may
admit beyond these. -/
structure DirectiveSpec where
  name : String
  fixed : List String
  field : Option String

/-- The directives in the order of the header. -/
def directiveSpecs : List DirectiveSpec :=
  [⟨"default-src", ["'none'"], none⟩,
    ⟨"script-src", ["'self'", "'unsafe-inline'"], some "resourceDomains"⟩,
    ⟨"style-src", ["'self'", "'unsafe-inline'"], some "resourceDomains"⟩,
    ⟨"img-src", ["'self'", "data:", "blob:"], some "resourceDomains"⟩,
    ⟨"font-src", ["'self'", "data:"], some "resourceDomains"⟩,
    ⟨"media-src", ["'self'", "data:", "blob:"], some "resourceDomains"⟩,
    ⟨"worker-src", ["'self'", "blob:"], some "resourceDomains"⟩,
    ⟨"connect-src", ["'none'"], some "connectDomains"⟩,
    ⟨"frame-src", ["'none'"], some "frameDomains"⟩,
    ⟨"base-uri", ["'none'"], some "baseUriDomains"⟩,
    ⟨"object-src", ["'none'"], none⟩,
    ⟨"form-action", ["'none'"], none⟩]

/-- The strings a field of the metadata lists. -/
def listed (metadata : Json) (field : String) : List String :=
  ((list? ((rawCsp metadata).get field)).getD []).filterMap str?

/-- A token of a listed string: no ASCII white space in it, and at either side white space of any
kind, which `str.strip` takes off too, or the end. -/
def IsToken (source : List Char) (item : String) : Prop :=
  Stands isAsciiSpace PyLines.isSpace source item.toList

/-- The directive as it is read has the name that is meant, and no source beyond its fixed ones but
tokens of what its field lists. -/
def Admits (metadata : Json) (spec : DirectiveSpec) (words : List (List Char)) : Prop :=
  ∃ sources, words = spec.name.toList :: sources ∧
    match spec.field with
    | none => sources = spec.fixed.map String.toList
    | some field => ∀ source ∈ sources, source ∈ spec.fixed.map String.toList ∨
        ∃ item ∈ listed metadata field, IsToken source item

/-- The header is one policy, with the directives that are meant and no other. -/
def Intended (metadata : Json) (header : List Char) : Prop :=
  ∃ policy, parseCsp header = [policy] ∧ List.Forall₂ (Admits metadata) directiveSpecs policy

/-! ## The sources that are accepted -/

theorem mem_safeSources {value : Json} {source : String} :
    source ∈ safeSources value ↔ ∃ item ∈ ((list? value).getD []).filterMap str?,
      source = String.ofList (strip item.toList) ∧ strip item.toList ≠ [] ∧
        ∀ c ∈ strip item.toList, c ∉ [';', '\n', '\r'] := by
  rw [safeSources, List.mem_filterMap]
  constructor
  · rintro ⟨value, hvalue, h⟩
    rw [safeSource] at h
    split at h
    · exact absurd h (by simp)
    · rename_i item hitem
      simp only [Option.ite_none_left_eq_some, Option.some.injEq, not_or] at h
      refine ⟨item, List.mem_filterMap.mpr ⟨value, hvalue, hitem⟩, h.2.symm, h.1.1, ?_⟩
      exact fun c hc hbad => h.1.2 (List.any_eq_true.mpr ⟨c, hbad, decide_eq_true hc⟩)
  · rintro ⟨item, hitem, rfl, hne, hsafe⟩
    obtain ⟨value, hvalue, hstr⟩ := List.mem_filterMap.mp hitem
    refine ⟨value, hvalue, ?_⟩
    simp only [safeSource, hstr]
    rw [if_neg]
    rintro (h | h)
    · exact hne h
    · obtain ⟨c, hbad, hc⟩ := List.any_eq_true.mp h
      exact hsafe c (of_decide_eq_true hc) hbad

theorem isSpace_of_isAsciiSpace {c : Char} (h : isAsciiSpace c) : PyLines.isSpace c := by
  simp only [isAsciiSpace, List.mem_cons, List.not_mem_nil, or_false, decide_eq_true_eq] at h
  rcases h with rfl | rfl | rfl | rfl | rfl <;> decide

theorem mem_of_mem_strip {c : Char} {s : List Char} (h : c ∈ strip s) : c ∈ s := by
  obtain ⟨a, b, hs, -, -⟩ := exists_strip s
  rw [hs]
  exact List.mem_append_left _ (List.mem_append_right _ h)

/-- A comma is no white space, so that trimming keeps it. -/
theorem comma_mem_strip {s : List Char} (h : ',' ∈ s) : ',' ∈ strip s := by
  obtain ⟨a, b, hs, ha, hb⟩ := exists_strip s
  rw [hs, List.mem_append, List.mem_append] at h
  rcases h with (h | h) | h
  · exact absurd (ha _ h) (by decide)
  · exact h
  · exact absurd (hb _ h) (by decide)

/-- **A token of an accepted source is a token of the string that was listed.** -/
theorem isToken_of_mem_tokens {metadata : Json} {field source : String} {t : List Char}
    (hsource : source ∈ safeSources ((rawCsp metadata).get field))
    (ht : t ∈ tokens isAsciiSpace source.toList) :
    ∃ item ∈ listed metadata field, IsToken t item := by
  obtain ⟨item, hitem, rfl, -, -⟩ := mem_safeSources.mp hsource
  refine ⟨item, hitem, ?_⟩
  obtain ⟨a, b, hs, ha, hb⟩ := exists_strip item.toList
  rw [String.toList_ofList] at ht
  have hstands := stands_of_mem_tokens (fun _ hc => isSpace_of_isAsciiSpace hc) ht
  rw [IsToken, hs]
  exact hstands.trimmed ha hb

/-! ## One directive -/

theorem tokens_directive {name : String} (hname : ∀ c ∈ name.toList, isAsciiSpace c = false)
    (hne : name.toList ≠ []) (sources : List String) :
    tokens isAsciiSpace (directive name sources) = name.toList ::
      sources.eraseDups.flatMap fun source => tokens isAsciiSpace source.toList := by
  rw [directive, tokens_append_cons (by decide), tokens_word hname hne,
    tokens_intercalate (by decide), List.flatMap_map]
  rfl

theorem mem_directive {c : Char} (hc : c ≠ ' ') {name : String} {sources : List String} :
    c ∈ directive name sources ↔ c ∈ name.toList ∨ ∃ source ∈ sources, c ∈ source.toList := by
  rw [directive, List.mem_append, List.mem_cons, mem_intercalate (by simpa using hc)]
  simp [hc, List.mem_eraseDups]

/-- The sources that are given to a directive: the fixed ones or accepted domains, and every
accepted domain. -/
def SourcesOf (metadata : Json) (spec : DirectiveSpec) (sources : List String) : Prop :=
  match spec.field with
  | none => sources = spec.fixed
  | some field =>
    (∀ source ∈ sources, source ∈ spec.fixed ∨
      source ∈ safeSources ((rawCsp metadata).get field)) ∧
    ∀ source ∈ safeSources ((rawCsp metadata).get field), source ∈ sources

theorem sourcesOf_append {metadata : Json} (name : String) (fixed : List String) (field : String) :
    SourcesOf metadata ⟨name, fixed, some field⟩
      (fixed ++ safeSources ((rawCsp metadata).get field)) :=
  ⟨fun _ h => List.mem_append.mp h, fun _ h => List.mem_append_right fixed h⟩

theorem sourcesOf_orNone {metadata : Json} (name field : String) :
    SourcesOf metadata ⟨name, ["'none'"], some field⟩
      (orNone (safeSources ((rawCsp metadata).get field))) := by
  rw [orNone]
  split
  · rename_i hnil
    exact ⟨fun _ h => .inl h, fun source h => by simp [hnil] at h⟩
  · exact ⟨fun _ h => .inr h, fun _ h => h⟩

/-- What the table's names and fixed sources are: words without a comma or a semicolon. -/
theorem directiveSpecs_words : ∀ spec ∈ directiveSpecs, ∀ text ∈ spec.name :: spec.fixed,
    text.toList ≠ [] ∧ ∀ c ∈ text.toList, isAsciiSpace c = false ∧ c ≠ ',' ∧ c ≠ ';' := by
  have hcheck : directiveSpecs.all (fun spec => (spec.name :: spec.fixed).all fun text =>
      decide (text.toList ≠ []) && text.toList.all fun c =>
        decide (isAsciiSpace c = false ∧ c ≠ ',' ∧ c ≠ ';')) = true := by decide +kernel
  intro spec hspec text htext
  have htext := List.all_eq_true.mp (List.all_eq_true.mp hcheck spec hspec) text htext
  rw [Bool.and_eq_true, decide_eq_true_iff, List.all_eq_true] at htext
  exact ⟨htext.1, fun c hc => of_decide_eq_true (htext.2 c hc)⟩

theorem directiveSpecs_none : ∀ spec ∈ directiveSpecs, spec.field = none →
    spec.fixed = ["'none'"] := by
  decide +kernel

theorem SourcesOf.mem {metadata : Json} {spec : DirectiveSpec} {sources : List String}
    (h : SourcesOf metadata spec sources) {source : String} (hsource : source ∈ sources) :
    source ∈ spec.fixed ∨ ∃ field ∈ spec.field,
      source ∈ safeSources ((rawCsp metadata).get field) := by
  rw [SourcesOf] at h
  cases hfield : spec.field with
  | none =>
    simp only [hfield] at h
    exact .inl (h ▸ hsource)
  | some field =>
    simp only [hfield] at h
    exact (h.1 source hsource).imp id fun hdomain => ⟨field, rfl, hdomain⟩

theorem SourcesOf.of_mem_domains {metadata : Json} {spec : DirectiveSpec} {sources : List String}
    (h : SourcesOf metadata spec sources) {field : String} (hfield : field ∈ spec.field)
    {source : String} (hsource : source ∈ safeSources ((rawCsp metadata).get field)) :
    source ∈ sources := by
  rw [SourcesOf, Option.mem_def.mp hfield] at h
  exact h.2 source hsource

section Directive

variable {metadata : Json} {spec : DirectiveSpec} (hspec : spec ∈ directiveSpecs)
  {sources : List String} (hsources : SourcesOf metadata spec sources)

include hspec hsources

/-- **A directive is read as it is meant.** -/
theorem admits_directive :
    Admits metadata spec (tokens isAsciiSpace (directive spec.name sources)) := by
  have hwords := directiveSpecs_words spec hspec
  have hname := hwords spec.name List.mem_cons_self
  have hfixed : ∀ text ∈ spec.fixed, tokens isAsciiSpace text.toList = [text.toList] := by
    intro text htext
    have htext := hwords text (List.mem_cons_of_mem _ htext)
    exact tokens_word (fun c hc => (htext.2 c hc).1) htext.1
  refine ⟨_, tokens_directive (fun c hc => (hname.2 c hc).1) hname.1 sources, ?_⟩
  cases hfield : spec.field with
  | none =>
    rw [SourcesOf, hfield] at hsources
    obtain rfl : sources = spec.fixed := hsources
    rw [directiveSpecs_none spec hspec hfield]
    change (["'none'"] : List String).eraseDups.flatMap (fun source =>
      tokens isAsciiSpace source.toList) = ["'none'"].map String.toList
    decide +kernel
  | some field =>
    intro t ht
    obtain ⟨source, hsource, ht⟩ := List.mem_flatMap.mp ht
    rcases hsources.mem (List.mem_eraseDups.mp hsource) with hfix | ⟨field', hfield', hdomain⟩
    · rw [hfixed source hfix, List.mem_singleton] at ht
      exact .inl (ht ▸ List.mem_map_of_mem hfix)
    · obtain rfl : field = field' := Option.some.inj (hfield.symm.trans hfield')
      exact .inr (isToken_of_mem_tokens hdomain ht)

theorem semicolon_not_mem_directive : ';' ∉ directive spec.name sources := by
  have hwords := directiveSpecs_words spec hspec
  rw [mem_directive (by decide)]
  rintro (hname | ⟨source, hsource, hc⟩)
  · exact ((hwords _ List.mem_cons_self).2 _ hname).2.2 rfl
  · rcases hsources.mem hsource with hfix | ⟨field, -, hdomain⟩
    · exact ((hwords _ (List.mem_cons_of_mem _ hfix)).2 _ hc).2.2 rfl
    · obtain ⟨item, -, rfl, -, hsafe⟩ := mem_safeSources.mp hdomain
      rw [String.toList_ofList] at hc
      exact hsafe _ hc (by decide)

/-- **A comma comes from an accepted domain.** -/
theorem comma_mem_directive : ',' ∈ directive spec.name sources ↔ ∃ field ∈ spec.field,
    ∃ source ∈ safeSources ((rawCsp metadata).get field), ',' ∈ source.toList := by
  have hwords := directiveSpecs_words spec hspec
  rw [mem_directive (by decide)]
  constructor
  · rintro (hname | ⟨source, hsource, hc⟩)
    · exact absurd rfl ((hwords _ List.mem_cons_self).2 _ hname).2.1
    · rcases hsources.mem hsource with hfix | ⟨field, hfield, hdomain⟩
      · exact absurd rfl ((hwords _ (List.mem_cons_of_mem _ hfix)).2 _ hc).2.1
      · exact ⟨field, hfield, source, hdomain, hc⟩
  · rintro ⟨field, hfield, source, hdomain, hc⟩
    exact .inr ⟨source, hsources.of_mem_domains hfield hdomain, hc⟩

end Directive

/-! ## The whole header -/

/-- The text of a directive: it is built from sources that the table grants it. -/
def Built (metadata : Json) (spec : DirectiveSpec) (text : List Char) : Prop :=
  ∃ sources, text = directive spec.name sources ∧ SourcesOf metadata spec sources

/-- The directives of the header are those of the table. -/
theorem forall₂_mcpAppDirectives (metadata : Json) :
    List.Forall₂ (Built metadata) directiveSpecs (mcpAppDirectives metadata) := by
  have hnone (name : String) (text : List Char) (h : text = directive name ["'none'"]) :
      Built metadata ⟨name, ["'none'"], none⟩ text := ⟨_, h, rfl⟩
  have happend (name : String) (fixed : List String) (field : String) :
      Built metadata ⟨name, fixed, some field⟩
        (directive name (fixed ++ safeSources ((rawCsp metadata).get field))) :=
    ⟨_, rfl, sourcesOf_append name fixed field⟩
  have horNone (name field : String) : Built metadata ⟨name, ["'none'"], some field⟩
      (directive name (orNone (safeSources ((rawCsp metadata).get field)))) :=
    ⟨_, rfl, sourcesOf_orNone name field⟩
  exact .cons (hnone _ _ (by decide +kernel)) (.cons (happend ..) (.cons (happend ..)
    (.cons (happend ..) (.cons (happend ..) (.cons (happend ..) (.cons (happend ..)
      (.cons (horNone ..) (.cons (horNone ..) (.cons (horNone ..)
        (.cons (hnone _ _ (by decide +kernel)) (.cons (hnone _ _ (by decide +kernel))
          .nil)))))))))))

theorem exists_mem_of_forall₂ {α β : Type} {R : α → β → Prop} {as : List α} {bs : List β}
    (h : List.Forall₂ R as bs) : ∀ b ∈ bs, ∃ a ∈ as, R a b := by
  induction h with
  | nil => simp
  | @cons a b as bs hab _ ih =>
    intro d hd
    rcases List.mem_cons.mp hd with rfl | hd
    · exact ⟨a, List.mem_cons_self, hab⟩
    · obtain ⟨c, hc, hcd⟩ := ih d hd
      exact ⟨c, List.mem_cons_of_mem _ hc, hcd⟩

theorem built_of_mem {metadata : Json} {text : List Char}
    (h : text ∈ mcpAppDirectives metadata) : ∃ spec ∈ directiveSpecs, Built metadata spec text :=
  exists_mem_of_forall₂ (forall₂_mcpAppDirectives metadata) text h

theorem exists_built (metadata : Json) {spec : DirectiveSpec} (h : spec ∈ directiveSpecs) :
    ∃ text ∈ mcpAppDirectives metadata, Built metadata spec text :=
  exists_mem_of_forall₂ (forall₂_mcpAppDirectives metadata).flip spec h

/-- The directives, each read as it is meant. -/
theorem forall₂_admits (metadata : Json) :
    List.Forall₂ (Admits metadata) directiveSpecs
      ((mcpAppDirectives metadata).map (tokens isAsciiSpace)) := by
  obtain ⟨hlength, hbuilt⟩ := List.forall₂_iff_zip.mp (forall₂_mcpAppDirectives metadata)
  refine List.forall₂_map_right_iff.mpr (List.forall₂_iff_zip.mpr ⟨hlength, ?_⟩)
  intro spec text hmem
  obtain ⟨sources, rfl, hsources⟩ := hbuilt hmem
  exact admits_directive (List.of_mem_zip hmem).1 hsources

/-- **Between commas, the header is its directives.** -/
theorem parsePolicy_buildMcpAppCsp (metadata : Json) :
    parsePolicy (buildMcpAppCsp metadata) =
      (mcpAppDirectives metadata).map (tokens isAsciiSpace) := by
  have hsemicolon : ∀ text ∈ mcpAppDirectives metadata, ';' ∉ text := by
    intro text htext
    obtain ⟨spec, hspec, sources, rfl, hsources⟩ := built_of_mem htext
    exact semicolon_not_mem_directive hspec hsources
  have hwords : ∀ words ∈ (mcpAppDirectives metadata).map (tokens isAsciiSpace),
      (!words.isEmpty) = true := by
    intro words hmem
    obtain ⟨text, htext, rfl⟩ := List.mem_map.mp hmem
    obtain ⟨spec, hspec, sources, rfl, hsources⟩ := built_of_mem htext
    obtain ⟨rest, hrest, -⟩ := admits_directive hspec hsources
    rw [hrest]
    rfl
  rw [parsePolicy, buildMcpAppCsp,
    map_tokens_join (by decide) (by decide) _ (by simp [mcpAppDirectives]) hsemicolon,
    List.filter_append, List.filter_eq_self.mpr hwords]
  simp

/-- A comma of the header stands in an accepted domain. -/
theorem comma_mem_buildMcpAppCsp (metadata : Json) : ',' ∈ buildMcpAppCsp metadata ↔
    ∃ spec ∈ directiveSpecs, ∃ field ∈ spec.field,
      ∃ source ∈ safeSources ((rawCsp metadata).get field), ',' ∈ source.toList := by
  rw [buildMcpAppCsp, List.mem_append, mem_intercalate (by decide)]
  constructor
  · rintro (⟨text, htext, hc⟩ | hc)
    · obtain ⟨spec, hspec, sources, rfl, hsources⟩ := built_of_mem htext
      exact ⟨spec, hspec, (comma_mem_directive hspec hsources).mp hc⟩
    · exact absurd hc (by decide)
  · rintro ⟨spec, hspec, h⟩
    obtain ⟨text, htext, sources, rfl, hsources⟩ := exists_built metadata hspec
    exact .inl ⟨_, htext, (comma_mem_directive hspec hsources).mpr h⟩

theorem not_singleton_of_comma {header : List Char} (h : ',' ∈ header)
    (policy : List (List (List Char))) : parseCsp header ≠ [policy] := by
  obtain ⟨a, b, rfl⟩ := List.append_of_mem h
  intro heq
  have hlength := congrArg List.length heq
  rw [parseCsp, List.splitOn_append_cons_self, List.map_append, List.length_append,
    List.length_map, List.length_map, List.length_singleton] at hlength
  have ha := List.length_pos_of_ne_nil (List.splitOn_ne_nil ',' a)
  have hb := List.length_pos_of_ne_nil (List.splitOn_ne_nil ',' b)
  omega

/-- The fields of the metadata that list domains. -/
def domainFields : List String := directiveSpecs.filterMap (·.field)

/-- **The header is the policy that is meant exactly where no domain with a comma is accepted**: one
that is listed is passed over only for a semicolon or a line break. -/
theorem buildMcpAppCsp_intended_iff (metadata : Json) :
    Intended metadata (buildMcpAppCsp metadata) ↔
      ∀ field ∈ domainFields, ∀ item ∈ listed metadata field, ',' ∈ item.toList →
        ∃ c ∈ strip item.toList, c ∈ [';', '\n', '\r'] := by
  have hcomma := comma_mem_buildMcpAppCsp metadata
  constructor
  · rintro ⟨policy, hpolicy, -⟩ field hfield item hitem hc
    by_contra hsafe
    push Not at hsafe
    obtain ⟨spec, hspec, hfield⟩ := List.mem_filterMap.mp hfield
    have hkept := comma_mem_strip hc
    refine not_singleton_of_comma (hcomma.mpr ⟨spec, hspec, field, hfield, _,
      mem_safeSources.mpr ⟨item, hitem, rfl, List.ne_nil_of_mem hkept, hsafe⟩, ?_⟩) policy hpolicy
    rwa [String.toList_ofList]
  · intro hlisted
    have hone : ',' ∉ buildMcpAppCsp metadata := by
      rw [hcomma]
      rintro ⟨spec, hspec, field, hfield, source, hsource, hc⟩
      obtain ⟨item, hitem, rfl, -, hsafe⟩ := mem_safeSources.mp hsource
      rw [String.toList_ofList] at hc
      obtain ⟨c, hmem, hbad⟩ := hlisted field (List.mem_filterMap.mpr ⟨spec, hspec, hfield⟩) item
        hitem (mem_of_mem_strip hc)
      exact hsafe c hmem hbad
    refine ⟨_, ?_, forall₂_admits metadata⟩
    rw [parseCsp, List.splitOn_eq_singleton hone, List.map_singleton,
      parsePolicy_buildMcpAppCsp]

/-- A domain with a comma: who reads the header finds two policies. -/
theorem buildMcpAppCsp_intended_comma :
    let metadata : Json := .obj [("ui", .obj [("csp", .obj [("connectDomains",
      .arr [.str "https://a.example,https://b.example"])])])]
    ¬ Intended metadata (buildMcpAppCsp metadata) ∧
      (parseCsp (buildMcpAppCsp metadata)).length = 2 := by
  intro metadata
  have hlength : (parseCsp (buildMcpAppCsp metadata)).length = 2 := by decide +kernel
  refine ⟨?_, hlength⟩
  rintro ⟨policy, hpolicy, -⟩
  rw [hpolicy] at hlength
  exact absurd hlength (by simp)

end CodexGateway.Adapter
