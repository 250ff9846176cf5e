import CodexGateway.Library.Glob

/-!
# Manager/SessionPolicy — the temporary credentials of one Workspace

For each storage task the Manager asks for credentials limited by `workspaceSessionPolicy` to the
repository of one Workspace.  The store decides a request by that policy: an action is allowed
where a statement names it, its resource pattern matches, and its condition holds.

The condition on `s3:prefix` also allows the bare repository prefix, and a listing returns every key
that begins with its prefix.  So the credentials of a Workspace stay out of the repository of
another one exactly when the id of the first is no prefix of the id of the second
(`isolated_iff`).
-/

namespace CodexGateway.Manager

open Glob

/-! ## The policy -/

/-- The S3 actions that the policies name. -/
inductive S3Action where
  | listBucket | getObject | putObject | deleteObject
  deriving DecidableEq, Repr

/-- What a file operation is to do in a repository. -/
inductive PolicyMode where
  | read | write | delete
  deriving DecidableEq, Repr

/-- A statement of effect `Allow`; `stringLike` are the values its condition allows `s3:prefix`. -/
structure PolicyStatement where
  actions : List S3Action
  resources : List (List Char)
  stringLike : Option (List (List Char))
  deriving DecidableEq

/-- A session policy, as STS takes it. -/
structure SessionPolicy where
  version : String
  statement : List PolicyStatement
  deriving DecidableEq

/-- `str.strip("/")`. -/
def stripSlashes (text : List Char) : List Char :=
  ((text.dropWhile (· = '/')).reverse.dropWhile (· = '/')).reverse

/-- What the name of an S3 resource starts with. -/
def arnPrefix : String := "arn:aws:s3:::"

/-- The name of a bucket, or of an object in one. -/
def arn (resource : List Char) : List Char := arnPrefix.toList ++ resource

/-- What each mode may do with the objects. -/
def objectActions : PolicyMode → List S3Action
  | .read => [.getObject]
  | .write => [.getObject, .putObject, .deleteObject]
  | .delete => [.deleteObject]

/-- `workspace_session_policy` -/
def workspaceSessionPolicy (bucket path : List Char) (mode : PolicyMode) : SessionPolicy :=
  let normalized := stripSlashes path
  { version := "2012-10-17"
    statement := [
      { actions := [.listBucket]
        resources := [arn bucket]
        stringLike := some [normalized, normalized ++ ['/', '*']] },
      { actions := objectActions mode
        resources := [arn (bucket ++ '/' :: (normalized ++ ['/', '*']))]
        stringLike := none }] }

/-! ## The Workspace and its repository -/

/-- The characters of an id after its prefix. -/
def idChar (c : Char) : Bool :=
  ('a' ≤ c && c ≤ 'z') || ('A' ≤ c && c ≤ 'Z') || ('0' ≤ c && c ≤ '9') || c = '_' || c = '-'

/-- The pattern `^workspace_[a-zA-Z0-9_-]{8,64}$` of a create request. -/
structure WorkspaceId where
  text : List Char
  valid : "workspace_".toList <+: text ∧ 18 ≤ text.length ∧ text.length ≤ 74 ∧
    text.all idChar = true

/-- The settings a repository is found by.  The name of a bucket has no characters but those the
store gives bucket names, and the prefix has no wildcards. -/
structure RepositorySettings where
  workspaceBucket : List Char
  workspacePrefix : List Char
  bucket_valid : workspaceBucket.all (fun c => idChar c || c = '.') = true
  plain : Plain workspacePrefix

variable (settings : RepositorySettings)

/-- The path `_repository_access` puts into the policy and the URL of the repository. -/
def repositoryPath (id : WorkspaceId) : List Char :=
  stripSlashes settings.workspacePrefix ++ '/' :: id.text

/-- The policy that the credentials of an operation on a Workspace come with. -/
def repositoryPolicy (id : WorkspaceId) (mode : PolicyMode) : SessionPolicy :=
  workspaceSessionPolicy settings.workspaceBucket (repositoryPath settings id) mode

/-- The keys below the repository of a Workspace. -/
def Below (id : WorkspaceId) (key : List Char) : Prop :=
  stripSlashes (repositoryPath settings id) ++ ['/'] <+: key

/-! ## What the store allows -/

/-- A request on a bucket.  A listing may leave its prefix out. -/
inductive S3Request where
  | list (bucket : List Char) (path : Option (List Char))
  | get (bucket key : List Char)
  | put (bucket key : List Char)
  | delete (bucket key : List Char)
  deriving DecidableEq

namespace S3Request

/-- The action that a request asks for. -/
def action : S3Request → S3Action
  | list _ _ => .listBucket
  | get _ _ => .getObject
  | put _ _ => .putObject
  | delete _ _ => .deleteObject

/-- The resource that a request is about. -/
def resource : S3Request → List Char
  | list bucket _ => arn bucket
  | get bucket key | put bucket key | delete bucket key => arn (bucket ++ '/' :: key)

/-- The value of the condition key `s3:prefix`. -/
def conditionPrefix : S3Request → Option (List Char)
  | list _ path => path
  | _ => none

/-- The request reads, writes, deletes or lists the key of that bucket. -/
def Touches (bucket key : List Char) : S3Request → Prop
  | list b path => b = bucket ∧ path.getD [] <+: key
  | get b k | put b k | delete b k => b = bucket ∧ k = key

end S3Request

/-- A statement allows a request whose action it lists, whose resource it matches, and whose prefix
meets its condition. -/
def PolicyStatement.allows (statement : PolicyStatement) (r : S3Request) : Bool :=
  statement.actions.contains r.action && statement.resources.any (like · r.resource) &&
    match statement.stringLike, r.conditionPrefix with
    | none, _ => true
    | some _, none => false
    | some values, some path => values.any (like · path)

/-- A request is permitted where a statement allows it, as no statement denies. -/
def SessionPolicy.permits (policy : SessionPolicy) (r : S3Request) : Bool :=
  policy.statement.any (·.allows r)

/-! ## The text of an id and of a path -/

theorem idChar_not_slash {c : Char} (h : idChar c = true) : c ≠ '/' := by
  rintro rfl
  exact absurd h (by decide)

theorem idChar_plain {c : Char} (h : idChar c = true) : c ≠ '*' ∧ c ≠ '?' := by
  constructor <;> · rintro rfl; exact absurd h (by decide)

theorem WorkspaceId.no_slash (id : WorkspaceId) : '/' ∉ id.text := fun h =>
  idChar_not_slash (List.all_eq_true.mp id.valid.2.2.2 _ h) rfl

theorem WorkspaceId.plain (id : WorkspaceId) : Plain id.text := fun _ hc =>
  idChar_plain (List.all_eq_true.mp id.valid.2.2.2 _ hc)

theorem WorkspaceId.ne_nil (id : WorkspaceId) : id.text ≠ [] := by
  intro h
  have := id.valid.2.1
  simp [h] at this

theorem WorkspaceId.ext {a b : WorkspaceId} (h : a.text = b.text) : a = b := by
  cases a
  cases b
  cases h
  rfl

theorem mem_stripSlashes {text : List Char} {c : Char} (h : c ∈ stripSlashes text) : c ∈ text := by
  have h := List.dropWhile_suffix _ |>.subset (List.mem_reverse.mp h)
  exact (List.dropWhile_suffix _).subset (List.mem_reverse.mp h)

theorem dropWhile_slash_append {text : List Char} (id : WorkspaceId) :
    (text ++ id.text).dropWhile (· = '/') = text.dropWhile (· = '/') ++ id.text := by
  induction text with
  | nil =>
    obtain ⟨c, rest, hid⟩ := List.exists_cons_of_ne_nil id.ne_nil
    have hc : c ≠ '/' := fun h => id.no_slash (by rw [hid, h]; exact List.mem_cons_self)
    simp [hid, hc]
  | cons c text ih =>
    by_cases hc : c = '/' <;> simp [hc, ih]

/-- The slashes at the end of a text stop at an id. -/
theorem stripSlashes_append (text : List Char) (id : WorkspaceId) :
    stripSlashes (text ++ id.text) = text.dropWhile (· = '/') ++ id.text := by
  rw [stripSlashes, dropWhile_slash_append, List.reverse_append]
  obtain ⟨c, rest, hid⟩ := List.exists_cons_of_ne_nil (List.reverse_ne_nil_iff.mpr id.ne_nil)
  have hc : c ≠ '/' := fun h => id.no_slash (by
    rw [← List.mem_reverse, hid, h]
    exact List.mem_cons_self)
  rw [hid, List.cons_append, List.dropWhile_cons_of_neg (by simpa using hc), ← List.cons_append,
    ← hid, List.reverse_append, List.reverse_reverse, List.reverse_reverse]

/-- What stands before the id in the path of every repository. -/
def repositoryBase : List Char :=
  (stripSlashes settings.workspacePrefix ++ ['/']).dropWhile (· = '/')

variable {settings}

theorem normalized_eq (id : WorkspaceId) :
    stripSlashes (repositoryPath settings id) = repositoryBase settings ++ id.text := by
  rw [repositoryPath, show stripSlashes settings.workspacePrefix ++ '/' :: id.text =
    stripSlashes settings.workspacePrefix ++ ['/'] ++ id.text by simp]
  exact stripSlashes_append _ id

theorem repositoryBase_plain : Plain (repositoryBase settings) := fun c hc => by
  have hc := (List.dropWhile_suffix _).subset hc
  rcases List.mem_append.mp hc with hc | hc
  · exact settings.plain c (mem_stripSlashes hc)
  · obtain rfl := List.mem_singleton.mp hc
    decide

theorem normalized_plain (id : WorkspaceId) : Plain (stripSlashes (repositoryPath settings id)) := by
  rw [normalized_eq]
  exact repositoryBase_plain.append id.plain

theorem bucket_plain : Plain settings.workspaceBucket := fun c hc => by
  have h := List.all_eq_true.mp settings.bucket_valid c hc
  rcases (Bool.or_eq_true _ _).mp h with h | h
  · exact idChar_plain h
  · obtain rfl := of_decide_eq_true h
    decide

/-- Two ids before a slash in one text are one id. -/
theorem eq_of_cut {a b rest : List Char} (ha : '/' ∉ a) (hb : '/' ∉ b)
    (h : a ++ ['/'] <+: b ++ '/' :: rest) : a = b := by
  induction a generalizing b with
  | nil =>
    cases b with
    | nil => rfl
    | cons d b =>
      obtain ⟨t, ht⟩ := h
      exact absurd (List.cons.inj ht).1.symm fun hd => hb (hd ▸ List.mem_cons_self)
  | cons c a ih =>
    cases b with
    | nil =>
      obtain ⟨t, ht⟩ := h
      exact absurd (List.cons.inj ht).1 fun hc => ha (hc ▸ List.mem_cons_self)
    | cons d b =>
      obtain ⟨hc, h⟩ := List.cons_prefix_cons.mp h
      rw [hc, ih (fun hs => ha (List.mem_cons_of_mem _ hs))
        (fun hs => hb (List.mem_cons_of_mem _ hs)) h]

/-- An id that a text begins with, and another id before a slash there. -/
theorem prefix_of_cut {a b rest : List Char} (ha : '/' ∉ a)
    (h : a <+: b ++ '/' :: rest) : a <+: b := by
  rcases List.prefix_or_prefix_of_prefix h (List.prefix_append b _) with h' | ⟨t, ht⟩
  · exact h'
  · cases t with
    | nil => exact ⟨[], by simpa using ht.symm⟩
    | cons c t =>
      have hc : c = '/' := by
        rw [← ht, List.prefix_append_right_inj] at h
        exact (List.cons_prefix_cons.mp h).1
      exact absurd (by rw [← ht, hc]; simp) ha

/-! ## What the policy permits -/

theorem arn_append (l r : List Char) : arn (l ++ r) = arn l ++ r := by
  rw [arn, arn, List.append_assoc]

theorem arn_inj {l r : List Char} : arn l = arn r ↔ l = r := by
  rw [arn, arn, List.append_right_inj]

theorem arn_plain {resource : List Char} (h : Plain resource) : Plain (arn resource) := by
  rw [arn]
  exact Plain.append (by simp [Plain, arnPrefix]) h

theorem slash_plain : Plain ['/'] := by simp [Plain]

/-- The pattern of what is below a path. -/
theorem below_pattern (path : List Char) : path ++ ['/', '*'] = path ++ ['/'] ++ ['*'] :=
  List.append_cons path '/' ['*']

/-- A listing is permitted for the bare prefix of the repository, and below it. -/
theorem permits_list_iff {id : WorkspaceId} {mode : PolicyMode} {bucket : List Char}
    {path : Option (List Char)} :
    (repositoryPolicy settings id mode).permits (.list bucket path) = true ↔
      bucket = settings.workspaceBucket ∧ ∃ p, path = some p ∧
        (p = stripSlashes (repositoryPath settings id) ∨ Below settings id p) := by
  have hmode : .listBucket ∉ objectActions mode := by cases mode <;> decide
  have harn : like (arn settings.workspaceBucket) (arn bucket) = true ↔
      bucket = settings.workspaceBucket := by
    rw [like_plain (arn_plain bucket_plain), arn_inj]
  have hbelow (p : List Char) :
      like (stripSlashes (repositoryPath settings id) ++ ['/', '*']) p = true ↔
        Below settings id p := by
    rw [Below, below_pattern, like_below ((normalized_plain id).append slash_plain)]
  cases path with
  | none =>
    simp [SessionPolicy.permits, repositoryPolicy, workspaceSessionPolicy,
      PolicyStatement.allows, S3Request.action, S3Request.conditionPrefix, hmode]
  | some p =>
    simp only [SessionPolicy.permits, repositoryPolicy, workspaceSessionPolicy,
      PolicyStatement.allows, S3Request.action, S3Request.conditionPrefix, S3Request.resource,
      List.any_cons, List.any_nil, Bool.or_false, Bool.and_eq_true, Bool.or_eq_true, harn, hbelow,
      like_plain (normalized_plain id)]
    simp [hmode]

/-- The other requests are permitted for keys below the repository only. -/
theorem below_of_permits {id : WorkspaceId} {mode : PolicyMode} {r : S3Request}
    {bucket key : List Char} (hr : r.action ≠ .listBucket)
    (hresource : r.resource = arn (bucket ++ '/' :: key))
    (hbucket : bucket = settings.workspaceBucket)
    (h : (repositoryPolicy settings id mode).permits r = true) : Below settings id key := by
  subst hbucket
  have hlist : [S3Action.listBucket].contains r.action = false := by
    simpa using hr
  simp only [SessionPolicy.permits, repositoryPolicy, workspaceSessionPolicy,
    PolicyStatement.allows, List.any_cons, List.any_nil, Bool.or_false, hlist, Bool.false_and,
    Bool.false_or, Bool.and_eq_true, hresource] at h
  have hlike := h.1.2
  have hpattern : arn (settings.workspaceBucket ++ '/' ::
      (stripSlashes (repositoryPath settings id) ++ ['/', '*'])) =
      arn settings.workspaceBucket ++ (['/'] ++ (stripSlashes (repositoryPath settings id) ++
        ['/'])) ++ ['*'] := by
    rw [below_pattern, arn_append]
    simp
  have hplain := (arn_plain (@bucket_plain settings)).append
    (slash_plain.append ((@normalized_plain settings id).append slash_plain))
  rw [hpattern, like_below hplain, arn_append, List.prefix_append_right_inj] at hlike
  exact (List.cons_prefix_cons.mp hlike).2

/-! ## Isolation -/

/-- No permitted request of the first Workspace reaches a key of the second one. -/
def Isolated (settings : RepositorySettings) (a b : WorkspaceId) (mode : PolicyMode) : Prop :=
  ∀ r, (repositoryPolicy settings a mode).permits r = true →
    ∀ key, Below settings b key → ¬ r.Touches settings.workspaceBucket key

theorem not_below_both {a b : WorkspaceId} (hne : a ≠ b) {p key : List Char}
    (ha : Below settings a p) (hp : p <+: key) : ¬ Below settings b key := by
  rintro ⟨rest, hb⟩
  have ha := ha.trans hp
  rw [← hb, normalized_eq, normalized_eq, List.append_assoc, List.append_assoc, List.append_assoc,
    List.prefix_append_right_inj] at ha
  exact hne (WorkspaceId.ext (eq_of_cut a.no_slash b.no_slash ha))

/-- **Credentials stay out of another repository exactly when the one id is no prefix of the
other.** -/
theorem isolated_iff (settings : RepositorySettings) {a b : WorkspaceId} (hne : a ≠ b)
    (mode : PolicyMode) : Isolated settings a b mode ↔ ¬ a.text <+: b.text := by
  constructor
  · intro h hid
    refine h (.list settings.workspaceBucket (some (stripSlashes (repositoryPath settings a))))
      (permits_list_iff.mpr ⟨rfl, _, rfl, .inl rfl⟩)
      (stripSlashes (repositoryPath settings b) ++ ['/']) (List.prefix_refl _) ⟨rfl, ?_⟩
    rw [Option.getD_some, normalized_eq, normalized_eq, List.append_assoc,
      List.prefix_append_right_inj]
    exact hid.trans (List.prefix_append _ _)
  · intro hid r hpermits key hb htouches
    cases r with
    | list bucket path =>
      obtain ⟨-, p, rfl, hp | hp⟩ := permits_list_iff.mp hpermits
      · obtain ⟨-, hkey⟩ := htouches
        obtain ⟨rest, hb⟩ := hb
        rw [Option.getD_some, hp, ← hb, normalized_eq, normalized_eq, List.append_assoc,
          List.append_assoc, List.prefix_append_right_inj] at hkey
        exact hid (prefix_of_cut a.no_slash hkey)
      · exact not_below_both hne hp htouches.2 hb
    | get bucket k | put bucket k | delete bucket k =>
      obtain ⟨hbucket, rfl⟩ := htouches
      exact not_below_both hne (below_of_permits (by simp [S3Request.action]) rfl hbucket hpermits)
        (List.prefix_refl _) hb

/-- A bucket and a repository prefix without slashes around them. -/
def plainSettings : RepositorySettings :=
  ⟨"agent".toList, "repositories".toList, by decide, by decide⟩

/-- An id. -/
def shortId : WorkspaceId := ⟨"workspace_aaaaaaaa".toList, by decide⟩

/-- An id that the short one is a prefix of. -/
def longerId : WorkspaceId := ⟨"workspace_aaaaaaaab".toList, by decide⟩

/-- The id of another Workspace. -/
def otherId : WorkspaceId := ⟨"workspace_bbbbbbbb".toList, by decide⟩

theorem isolated_other : otherId ≠ shortId ∧ Isolated plainSettings otherId shortId .write := by
  have hne : otherId ≠ shortId := fun h => absurd (congrArg WorkspaceId.text h) (by decide)
  exact ⟨hne, (isolated_iff plainSettings hne .write).mpr (by decide)⟩

/-- The credentials of a Workspace list the repository of one whose id is longer. -/
theorem not_isolated_longer : ¬ Isolated plainSettings shortId longerId .read := fun h =>
  h (.list "agent".toList (some "repositories/workspace_aaaaaaaa".toList)) (by decide +kernel)
    "repositories/workspace_aaaaaaaab/config".toList (List.isPrefixOf_iff_prefix.mp (by decide +kernel))
    ⟨rfl, List.isPrefixOf_iff_prefix.mp (by decide +kernel)⟩

end CodexGateway.Manager
