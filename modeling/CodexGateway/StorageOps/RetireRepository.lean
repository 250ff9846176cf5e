import CodexGateway.Library.JsonDict
import CodexGateway.Library.Machine
import Mathlib.Data.Finset.Card

/-!
# StorageOps/RetireRepository — the one-shot task `retire`

`retire_repository` lists the first page of a repository's keys and deletes it, until a listing is
empty.  What the object store answers is the action of a step: any page of the keys that are there,
a deletion with or without reported errors, or an exception.

Every listing that does not end the loop has a key, and its deletion takes it out of the bucket.  So
a run is over after at most two calls for each key, and what it has removed is what it counts
(`retireRepository_settles`).
-/

namespace CodexGateway.StorageOps.Retire

open PyJson

/-! ## The task -/

/-- What `urlsplit` makes of the endpoint. -/
structure Endpoint where
  scheme : String
  hostname : Option String

/-- `value.strip("/")` -/
def stripSlash (value : String) : String :=
  .ofList ((value.toList.dropWhile (· = '/')).reverse.dropWhile (· = '/')).reverse

/-- `f"{normalized}/"` -/
def keyPrefix (normalized : String) : String := normalized ++ "/"

/-- The key begins with the prefix. -/
def Under (normalized key : String) : Prop :=
  (keyPrefix normalized).toList <+: key.toList

instance (normalized key : String) : Decidable (Under normalized key) :=
  inferInstanceAs (Decidable (_ <+: _))

/-- `item["Key"]`, where the item is a dict and its key a string. -/
def itemKey : Json → Option String
  | .obj item =>
    match Members.get item "Key" with
    | .str key => some key
    | _ => none
  | _ => none

/-- The error of a deletion that reports errors. -/
def deleteError (errors : List Json) : String :=
  let code := match errors with
    | .obj error :: _ =>
      match Members.get error "Code" with
      | .str code => code
      | _ => ""
    | _ => ""
  "Object-store delete failed: " ++ if code = "" then "unknown error" else code

/-- The place of a retire. -/
inductive Phase where
  | listing
  | deleting (objects : List String)
  | returned (objectsDeleted : ℕ)
  | raised (error : String)
deriving DecidableEq

/-- A retire is over. -/
def Phase.ended : Phase → Bool
  | .returned _ | .raised _ => true
  | _ => false

/-- The keys that the call asks the object store to remove. -/
def Phase.objects : Phase → Finset String
  | .deleting objects => objects.toFinset
  | _ => ∅

/-- The keys of the bucket, the counter of the loop, and where the call is. -/
structure State where
  bucket : Finset String
  deleted : ℕ
  phase : Phase
deriving DecidableEq

/-- The checks before the loop. -/
def begin (endpoint : Endpoint) (bucketName pre : String) (bucket : Finset String) : State :=
  if (endpoint.scheme ≠ "http" ∧ endpoint.scheme ≠ "https") ∨ endpoint.hostname.getD "" = "" then
    ⟨bucket, 0, .raised "Object-store endpoint is invalid"⟩
  else if bucketName = "" ∨ stripSlash pre = "" then
    ⟨bucket, 0, .raised "Object-store bucket and prefix are required"⟩
  else ⟨bucket, 0, .listing⟩

/-- What the object store answers. -/
inductive Reply where
  | contents (contents : List Json)
  /-- The deletion reports no errors. -/
  | deleted
  /-- The deletion reports errors, and has removed some of the keys. -/
  | errors (errors : List Json) (removed : Finset String)
  /-- The call raises; a deletion may have removed some of the keys. -/
  | raises (error : String) (removed : Finset String)

/-- A page of a listing: keys of the bucket below the prefix, each once, and none only if there is
none. -/
structure IsPage (pageSize : ℕ) (normalized : String) (bucket : Finset String)
    (contents : List Json) : Prop where
  keys : ∀ item ∈ contents, itemKey item ≠ none
  nodup : (contents.filterMap itemKey).Nodup
  size : contents.length ≤ pageSize
  there : ∀ key ∈ contents.filterMap itemKey, key ∈ bucket ∧ Under normalized key
  empty : contents = [] → ∀ key ∈ bucket, ¬ Under normalized key

instance (pageSize : ℕ) (normalized : String) (bucket : Finset String) (contents : List Json) :
    Decidable (IsPage pageSize normalized bucket contents) :=
  decidable_of_iff (((∀ item ∈ contents, itemKey item ≠ none) ∧
      (contents.filterMap itemKey).Nodup) ∧ contents.length ≤ pageSize ∧
      (∀ key ∈ contents.filterMap itemKey, key ∈ bucket ∧ Under normalized key) ∧
      (contents.isEmpty = true → ∀ key ∈ bucket, ¬ Under normalized key))
    ⟨fun h => ⟨h.1.1, h.1.2, h.2.1, h.2.2.1, fun he => h.2.2.2 (List.isEmpty_iff.mpr he)⟩,
      fun h => ⟨⟨h.keys, h.nodup⟩, h.size, h.there, fun he => h.empty (List.isEmpty_iff.mp he)⟩⟩

/-- The loop of `retire_repository`, a call of the object store at a time. -/
def step (pageSize : ℕ) (normalized : String) (s : State) (reply : Reply) : Option State :=
  match s.phase, reply with
  | .listing, .contents contents =>
    if IsPage pageSize normalized s.bucket contents then
      match contents.filterMap itemKey with
      | [] => some { s with phase := if contents = [] then .returned s.deleted else .listing }
      | objects => some { s with phase := .deleting objects }
    else none
  | .deleting objects, .deleted =>
    some ⟨s.bucket \ objects.toFinset, s.deleted + objects.length, .listing⟩
  | .deleting objects, .errors errors removed =>
    if errors ≠ [] ∧ removed ⊆ objects.toFinset then
      some { s with bucket := s.bucket \ removed, phase := .raised (deleteError errors) }
    else none
  | phase, .raises error removed =>
    if phase.ended = false ∧ removed ⊆ phase.objects then
      some { s with bucket := s.bucket \ removed, phase := .raised error }
    else none
  | _, _ => none

/-- The call of the object store has done what it was asked. -/
def Reply.succeeds : Reply → Bool
  | .contents _ | .deleted => true
  | _ => false

/-! ## What a call keeps -/

/-- What has been done to a bucket that held `bucket`. -/
structure Inv (normalized : String) (bucket : Finset String) (s : State) : Prop where
  subset : s.bucket ⊆ bucket
  kept : ∀ key ∈ bucket, ¬ Under normalized key → key ∈ s.bucket
  count : (∀ error, s.phase ≠ .raised error) → s.deleted + s.bucket.card = bucket.card
  deleting : ∀ objects, s.phase = .deleting objects → objects ≠ [] ∧ objects.Nodup ∧
    ∀ key ∈ objects, key ∈ s.bucket ∧ Under normalized key
  returned : ∀ n, s.phase = .returned n → n = s.deleted ∧ ∀ key ∈ s.bucket, ¬ Under normalized key

/-- Two for each key that is left, and one for the listing that is to come. -/
def remaining (s : State) : ℕ :=
  match s.phase with
  | .listing => 2 * s.bucket.card + 1
  | .deleting _ => 2 * s.bucket.card
  | .returned _ | .raised _ => 0

section Step

variable {pageSize : ℕ} {normalized : String} {bucket : Finset String} {s s' : State}
  {reply : Reply}

/-- **What an answer does to the call.** -/
inductive Step (pageSize : ℕ) (normalized : String) (s : State) : Reply → State → Prop where
  | listed {contents : List Json} (hphase : s.phase = .listing)
      (hpage : IsPage pageSize normalized s.bucket contents) (hne : contents ≠ []) :
      Step pageSize normalized s (.contents contents)
        { s with phase := .deleting (contents.filterMap itemKey) }
  | done (hphase : s.phase = .listing) (hpage : IsPage pageSize normalized s.bucket []) :
      Step pageSize normalized s (.contents []) { s with phase := .returned s.deleted }
  | deleted {objects : List String} (hphase : s.phase = .deleting objects) :
      Step pageSize normalized s .deleted
        ⟨s.bucket \ objects.toFinset, s.deleted + objects.length, .listing⟩
  | stopped {reply : Reply} {removed : Finset String} {error : String}
      (hended : s.phase.ended = false)
      (hremoved : removed ⊆ s.phase.objects) :
      Step pageSize normalized s reply
        { s with bucket := s.bucket \ removed, phase := .raised error }

/-- Every item of a page has its key. -/
theorem IsPage.objects_ne {contents : List Json} (h : IsPage pageSize normalized bucket contents)
    (hne : contents ≠ []) : contents.filterMap itemKey ≠ [] := by
  obtain ⟨item, rest, rfl⟩ := List.exists_cons_of_ne_nil hne
  obtain ⟨key, hkey⟩ := Option.ne_none_iff_exists'.mp (h.keys item List.mem_cons_self)
  rw [List.filterMap_cons_some hkey]
  exact List.cons_ne_nil _ _

theorem step_cases (h : step pageSize normalized s reply = some s') :
    Step pageSize normalized s reply s' := by
  unfold step at h
  split at h
  · rename_i contents hphase
    by_cases hpage : IsPage pageSize normalized s.bucket contents
    · rw [if_pos hpage] at h
      by_cases hempty : contents = []
      · subst hempty
        cases h
        exact .done hphase hpage
      · have hlisted := Step.listed hphase hpage hempty
        obtain ⟨key, keys, hkeys⟩ := List.exists_cons_of_ne_nil (hpage.objects_ne hempty)
        rw [hkeys] at h hlisted
        cases h
        exact hlisted
    · rw [if_neg hpage] at h
      cases h
  · rename_i hphase
    cases h
    exact .deleted hphase
  · rename_i hphase
    split_ifs at h with hremoved
    cases h
    exact .stopped (by rw [hphase]; rfl) (by rw [hphase]; exact hremoved.2)
  · split_ifs at h with hremoved
    cases h
    exact .stopped hremoved.1 hremoved.2
  · cases h

/-- The keys that are asked for are there, and below the prefix. -/
theorem Inv.objects (h : Inv normalized bucket s) :
    ∀ key ∈ s.phase.objects, key ∈ s.bucket ∧ Under normalized key := fun key hkey => by
  cases hphase : s.phase with
  | deleting objects =>
    rw [hphase] at hkey
    exact (h.deleting objects hphase).2.2 key (List.mem_toFinset.mp hkey)
  | listing | returned | raised =>
    rw [hphase] at hkey
    exact (Finset.notMem_empty key hkey).elim

/-- The bucket without some of the keys that are asked for. -/
theorem Inv.remove (h : Inv normalized bucket s) {removed : Finset String}
    (hremoved : removed ⊆ s.phase.objects) :
    s.bucket \ removed ⊆ bucket ∧
      ∀ key ∈ bucket, ¬ Under normalized key → key ∈ s.bucket \ removed :=
  ⟨Finset.sdiff_subset.trans h.subset, fun key hkey hnot =>
    Finset.mem_sdiff.mpr ⟨h.kept key hkey hnot, fun hmem => hnot (h.objects key (hremoved hmem)).2⟩⟩

theorem remaining_pos (h : Inv normalized bucket s) (hended : s.phase.ended = false) :
    0 < remaining s := by
  cases hphase : s.phase with
  | listing => simp [remaining, hphase]
  | deleting objects =>
    obtain ⟨hne, -, hthere⟩ := h.deleting objects hphase
    obtain ⟨key, hkey⟩ := List.exists_mem_of_ne_nil objects hne
    have := Finset.card_pos.mpr ⟨key, (hthere key hkey).1⟩
    simp only [remaining, hphase]
    omega
  | returned | raised => simp [hphase, Phase.ended] at hended

/-- **A step keeps the invariant**, and takes down what remains. -/
theorem Inv.step (h : Inv normalized bucket s)
    (hstep : step pageSize normalized s reply = some s') :
    Inv normalized bucket s' ∧ remaining s' < remaining s := by
  cases step_cases hstep with
  | @listed contents hphase hpage hne =>
    refine ⟨⟨h.subset, h.kept, fun _ => h.count (by simp [hphase]), fun objects hobjects => ?_,
      fun n hn => (by cases hn)⟩, by simp [remaining, hphase]⟩
    cases hobjects
    exact ⟨hpage.objects_ne hne, hpage.nodup, hpage.there⟩
  | done hphase hpage =>
    refine ⟨⟨h.subset, h.kept, fun _ => h.count (by simp [hphase]), fun objects ho => (by cases ho),
      fun n hn => ?_⟩, by simp [remaining, hphase]⟩
    cases hn
    exact ⟨rfl, hpage.empty rfl⟩
  | @deleted objects hphase =>
    obtain ⟨hne, hnodup, hthere⟩ := h.deleting objects hphase
    have hcard : (s.bucket \ objects.toFinset).card + objects.length = s.bucket.card := by
      rw [← List.toFinset_card_of_nodup hnodup]
      exact Finset.card_sdiff_add_card_eq_card fun key hkey =>
        (hthere key (List.mem_toFinset.mp hkey)).1
    have hpos : 0 < objects.length := List.length_pos_of_ne_nil hne
    have hcount := h.count (by simp [hphase])
    have hremoved : objects.toFinset ⊆ s.phase.objects := by rw [hphase]; rfl
    obtain ⟨hsubset, hkept⟩ := h.remove hremoved
    refine ⟨⟨hsubset, hkept, fun _ => ?_, fun _ ho => (by cases ho), fun _ hn => (by cases hn)⟩, ?_⟩
    · dsimp only
      omega
    · simp only [remaining, hphase]
      omega
  | stopped hended hremoved =>
    obtain ⟨hsubset, hkept⟩ := h.remove hremoved
    exact ⟨⟨hsubset, hkept, fun hraised => absurd rfl (hraised _), fun _ ho => (by cases ho),
      fun _ hn => (by cases hn)⟩, remaining_pos h hended⟩

/-- The item of a key. -/
def pageItem (key : String) : Json := .obj [("Key", .str key)]

theorem filterMap_pageItem (keys : List String) : (keys.map pageItem).filterMap itemKey = keys := by
  induction keys with
  | nil => rfl
  | cons key keys ih =>
    rw [List.map_cons, List.filterMap_cons_some (rfl : itemKey (pageItem key) = some key), ih]

/-- There is a page of every size. -/
theorem exists_page (hsize : 0 < pageSize) (normalized : String) (bucket : Finset String) :
    ∃ contents, IsPage pageSize normalized bucket contents := by
  let below := (bucket.filter (Under normalized)).toList
  refine ⟨(below.take pageSize).map pageItem, fun item hitem => ?_, ?_, ?_, fun key hkey => ?_,
    fun hempty key hkey hunder => ?_⟩
  · obtain ⟨key, -, rfl⟩ := List.mem_map.mp hitem
    exact Option.some_ne_none key
  · rw [filterMap_pageItem]
    exact (Finset.nodup_toList _).sublist (List.take_sublist _ _)
  · rw [List.length_map]
    exact List.length_take_le _ _
  · rw [filterMap_pageItem] at hkey
    exact Finset.mem_filter.mp (Finset.mem_toList.mp (List.mem_of_mem_take hkey))
  · have hmem : key ∈ below := Finset.mem_toList.mpr (Finset.mem_filter.mpr ⟨hkey, hunder⟩)
    rw [List.map_eq_nil_iff, List.take_eq_nil_iff] at hempty
    rcases hempty with hzero | hnil
    · exact hsize.ne' hzero
    · rw [hnil] at hmem
      exact List.not_mem_nil hmem

/-- A call that has not ended goes on with what the object store answers. -/
theorem exists_step (hsize : 0 < pageSize) (hended : s.phase.ended = false) :
    ∃ reply s', reply.succeeds = true ∧ step pageSize normalized s reply = some s' := by
  suffices h : ∃ reply, reply.succeeds = true ∧ (step pageSize normalized s reply).isSome by
    obtain ⟨reply, hsucceeds, hsome⟩ := h
    obtain ⟨s', hs'⟩ := Option.isSome_iff_exists.mp hsome
    exact ⟨reply, s', hsucceeds, hs'⟩
  cases hphase : s.phase with
  | listing =>
    obtain ⟨contents, hpage⟩ := exists_page hsize normalized s.bucket
    refine ⟨.contents contents, rfl, ?_⟩
    simp only [step, hphase, if_pos hpage]
    cases contents.filterMap itemKey with
    | nil => rfl
    | cons key keys => rfl
  | deleting objects => exact ⟨.deleted, rfl, by simp [step, hphase]⟩
  | returned | raised => simp [hphase, Phase.ended] at hended

end Step

/-! ## What a call does -/

variable {pageSize : ℕ} {bucket : Finset String} {s : State}

/-- A call that ends after a bounded number of answers, and what it has removed by then. -/
structure Settles (pageSize : ℕ) (normalized : String) (bucket : Finset String)
    (replies : List Reply) (s : State) : Prop where
  length : replies.length ≤ 2 * bucket.card + 1
  goes_on : s.phase.ended = false →
    ∃ reply s', reply.succeeds = true ∧ step pageSize normalized s reply = some s'
  subset : s.bucket ⊆ bucket
  removed : ∀ key ∈ bucket \ s.bucket, normalized ≠ "" ∧ Under normalized key
  returned : ∀ n, s.phase = .returned n →
    s.bucket = bucket.filter (¬ Under normalized ·) ∧ n = (bucket \ s.bucket).card

/-- Without a prefix nothing is removed. -/
theorem bucket_of_refused {endpoint : Endpoint} {bucketName pre : String}
    (hpre : stripSlash pre = "") {replies : List Reply}
    (hrun : Machine.run (step pageSize (stripSlash pre)) (begin endpoint bucketName pre bucket)
      replies = some s) : s.bucket = bucket := by
  have hraised : ∃ error, begin endpoint bucketName pre bucket = ⟨bucket, 0, .raised error⟩ := by
    unfold begin
    split_ifs with hendpoint hname
    · exact ⟨_, rfl⟩
    · exact ⟨_, rfl⟩
    · exact absurd (Or.inr hpre) hname
  obtain ⟨error, hbegin⟩ := hraised
  rw [hbegin] at hrun
  cases replies with
  | nil => exact Option.some.inj hrun ▸ rfl
  | cons reply replies =>
    obtain ⟨m, hm, -⟩ := Machine.run_cons.mp hrun
    cases step_cases hm with
    | listed hphase | done hphase | deleted hphase => cases hphase
    | stopped hended => cases hended

theorem inv_begin (endpoint : Endpoint) (bucketName pre : String) (bucket : Finset String) :
    Inv (stripSlash pre) bucket (begin endpoint bucketName pre bucket) ∧
      remaining (begin endpoint bucketName pre bucket) ≤ 2 * bucket.card + 1 := by
  unfold begin
  split_ifs
  · exact ⟨⟨subset_rfl, fun _ hkey _ => hkey, fun h => absurd rfl (h _), fun _ h => (by cases h),
      fun _ h => (by cases h)⟩, Nat.zero_le _⟩
  · exact ⟨⟨subset_rfl, fun _ hkey _ => hkey, fun h => absurd rfl (h _), fun _ h => (by cases h),
      fun _ h => (by cases h)⟩, Nat.zero_le _⟩
  · exact ⟨⟨subset_rfl, fun _ hkey _ => hkey, fun _ => Nat.zero_add _, fun _ h => (by cases h),
      fun _ h => (by cases h)⟩, le_rfl⟩

/-- A key of a repository whose name extends another is not below that one. -/
theorem not_under_extends (normalized : String) {c : Char} (hc : c ≠ '/') (rest : List Char) :
    ¬ Under normalized (.ofList (normalized.toList ++ c :: rest)) := fun h => by
  rw [Under, keyPrefix, String.toList_append, String.toList_ofList (l := normalized.toList ++ _),
    List.prefix_append_right_inj, show "/".toList = ['/'] from rfl, List.cons_prefix_cons] at h
  exact hc h.1.symm

/-- **`retire_repository` ends, whatever the object store answers**, and removes the keys below the
prefix without its outer slashes: all of them where it returns, and no others. -/
theorem retireRepository_settles (hsize : 0 < pageSize) {endpoint : Endpoint}
    {bucketName pre : String} {replies : List Reply}
    (hrun : Machine.run (step pageSize (stripSlash pre)) (begin endpoint bucketName pre bucket)
      replies = some s) : Settles pageSize (stripSlash pre) bucket replies s := by
  obtain ⟨hbegin, hremaining⟩ := inv_begin endpoint bucketName pre bucket
  have h : Inv (stripSlash pre) bucket s :=
    Machine.run_keeps (fun _ _ _ hinv hstep => (hinv.step hstep).1) hrun hbegin
  have hlength := Machine.run_length (fun _ _ _ hinv hstep => hinv.step hstep) hrun hbegin
  refine ⟨by omega, exists_step hsize, h.subset, fun key hkey => ?_, fun n hn => ?_⟩
  · obtain ⟨hkey, hgone⟩ := Finset.mem_sdiff.mp hkey
    refine ⟨fun hpre => hgone (by rwa [bucket_of_refused hpre hrun]), ?_⟩
    by_contra hnot
    exact hgone (h.kept key hkey hnot)
  · obtain ⟨rfl, hnone⟩ := h.returned n hn
    have hcount := h.count (by simp [hn])
    refine ⟨Finset.ext fun key => ?_, ?_⟩
    · rw [Finset.mem_filter]
      exact ⟨fun hkey => ⟨h.subset hkey, hnone key hkey⟩, fun hkey => h.kept key hkey.1 hkey.2⟩
    · have := Finset.card_sdiff_add_card_eq_card h.subset
      omega

/-- The service of a repository. -/
def sampleEndpoint : Endpoint := ⟨"http", some "rustfs"⟩

/-- Two Workspaces, the name of the one a prefix of the other's. -/
def sampleBucket : Finset String := {"ws/a/config", "ws/a/data", "ws/ab/config"}

/-- What it answers: two pages with an object each, then none. -/
def sampleReplies : List Reply :=
  [.contents [pageItem "ws/a/config"], .deleted, .contents [pageItem "ws/a/data"], .deleted,
    .contents []]

theorem retireRepository_settles_sample :
    ∃ s, Machine.run (step 1 (stripSlash "ws/a")) (begin sampleEndpoint "b" "ws/a" sampleBucket)
        sampleReplies = some s ∧ s.phase = .returned 2 ∧ s.bucket = {"ws/ab/config"} ∧
      Settles 1 (stripSlash "ws/a") sampleBucket sampleReplies s := by
  obtain ⟨s, hrun, hs⟩ := (Option.any_eq_true _ _).mp
    (by decide +kernel : (Machine.run (step 1 (stripSlash "ws/a"))
      (begin sampleEndpoint "b" "ws/a" sampleBucket) sampleReplies).any
        (· = ⟨{"ws/ab/config"}, 2, .returned 2⟩) = true)
  obtain rfl := of_decide_eq_true hs
  exact ⟨_, hrun, rfl, rfl, retireRepository_settles Nat.one_pos hrun⟩

/-- A prefix with a slash before it: its keys stay, and those of the prefix without it go. -/
theorem retireRepository_settles_slash :
    ∃ s, Machine.run (step 1 (stripSlash "/a")) (begin sampleEndpoint "b" "/a" {"/a/x", "a/y"})
        [.contents [pageItem "a/y"], .deleted, .contents []] = some s ∧ s.phase = .returned 1 ∧
      "/a/x" ∈ s.bucket ∧ Under "/a" "/a/x" ∧ "a/y" ∉ s.bucket ∧ ¬ Under "/a" "a/y" := by
  obtain ⟨s, hrun, hs⟩ := (Option.any_eq_true _ _).mp
    (by decide +kernel : (Machine.run (step 1 (stripSlash "/a"))
      (begin sampleEndpoint "b" "/a" {"/a/x", "a/y"})
      [.contents [pageItem "a/y"], .deleted, .contents []]).any
        (· = ⟨{"/a/x"}, 1, .returned 1⟩) = true)
  obtain rfl := of_decide_eq_true hs
  exact ⟨_, hrun, rfl, by decide +kernel, by decide +kernel, by decide +kernel, by decide +kernel⟩

end CodexGateway.StorageOps.Retire
