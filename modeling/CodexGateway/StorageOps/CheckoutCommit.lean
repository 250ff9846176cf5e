import CodexGateway.StorageOps.Checkout

/-!
# StorageOps/CheckoutCommit — what a run of `checkout-batch` calls makes visible

The calls of one batch may fail and be killed at every operation, and come again under any
operation id.  Where no Artifact has the name of the manifest, the directory of the message is there
as a whole or not at all, and no call changes what an earlier one has made (`checkout_committed`).
-/

namespace CodexGateway.StorageOps.Checkout

open PyJson SandboxApi

/-! ## What the checks of a batch give -/

theorem bind_ok {α β : Type} {x : Except String α} {f : α → Except String β} {b : β}
    (h : (x >>= f) = .ok b) : ∃ a, x = .ok a ∧ f a = .ok b := by
  cases x with
  | error e => cases h
  | ok a => exact ⟨a, rfl, h⟩

/-- A guard that has not thrown. -/
theorem guard_ok {α : Type} {p : Prop} [Decidable p] {error : String} {k : Unit → Except String α}
    {a : α} (h : (if p then (throw error : Except String Unit) >>= k else k ()) = .ok a) :
    ¬ p ∧ k () = .ok a := by
  by_cases hp : p
  · rw [if_pos hp] at h
    cases h
  · rw [if_neg hp] at h
    exact ⟨hp, h⟩

theorem requiredText_ok {value : Members} {name item : String}
    (h : requiredText value name = .ok item) : value.get name = .str item := by
  unfold requiredText at h
  split at h
  · rename_i text htext
    split_ifs at h
    cases h
    exact htext
  · cases h

/-- An item is bound to the id and the digest of its source. -/
theorem publicArtifact_ok {source : Members} {item : PublicArtifact}
    (h : publicArtifact source = .ok item) : describes item.artifactId source = true ∧
      ∃ digest, source.get "sha256" = .str digest ∧ item.sha256 = digest.toLower := by
  obtain ⟨artifactId, hid, h⟩ := bind_ok h
  obtain ⟨text, -, h⟩ := bind_ok h
  obtain ⟨filename, -, h⟩ := bind_ok h
  obtain ⟨size, -, h⟩ := bind_ok h
  obtain ⟨digest, hdigest, h⟩ := bind_ok h
  obtain ⟨-, h⟩ := guard_ok h
  obtain ⟨-, h⟩ := guard_ok h
  cases h
  exact ⟨by simp [describes, requiredText_ok hid], digest, requiredText_ok hdigest, rfl⟩

theorem not_describes {source : Members} {id id' : String} (h : describes id source = true)
    (hne : id ≠ id') : describes id' source = false := by
  unfold describes at h ⊢
  split at h <;> simp_all

/-- **Every item has its own id, its own name and its own source.** -/
theorem publicArtifacts_ok {pub items : List PublicArtifact} {artifacts : List Members}
    (h : publicArtifacts pub artifacts = .ok items)
    (hids : (pub.map (·.artifactId)).Nodup) (hnames : (pub.map (·.filename)).Nodup) :
    (items.map (·.artifactId)).Nodup ∧ (items.map (·.filename)).Nodup ∧
      ∃ rest, items = pub ++ rest ∧
        List.Forall₂ (fun source item => publicArtifact source = .ok item) artifacts rest := by
  induction artifacts generalizing pub with
  | nil =>
    cases h
    exact ⟨hids, hnames, [], (List.append_nil _).symm, .nil⟩
  | cons source artifacts ih =>
    obtain ⟨item, hitem, h⟩ := bind_ok h
    obtain ⟨hnew, h⟩ := guard_ok h
    rw [not_or] at hnew
    obtain ⟨hids', hnames', rest, rfl, hrest⟩ := ih h
      (by simpa using List.nodup_append.mpr ⟨hids, List.nodup_singleton _, by simpa using hnew.1⟩)
      (by simpa using List.nodup_append.mpr ⟨hnames, List.nodup_singleton _, by simpa using hnew.2⟩)
    exact ⟨hids', hnames', item :: rest, by simp, .cons hitem hrest⟩

theorem artifactSource_ok {artifacts : List Members} {items : List PublicArtifact}
    (h : List.Forall₂ (fun source item => publicArtifact source = .ok item) artifacts items)
    (hids : (items.map (·.artifactId)).Nodup) {item : PublicArtifact} (hitem : item ∈ items) :
    ∃ source, artifactSource artifacts item.artifactId = .ok source ∧
      publicArtifact source = .ok item := by
  suffices hfind : ∃ source, artifacts.find? (describes item.artifactId) = some source ∧
      publicArtifact source = .ok item by
    obtain ⟨source, hsource, hpublic⟩ := hfind
    exact ⟨source, by rw [artifactSource, hsource], hpublic⟩
  induction h with
  | nil => cases hitem
  | cons hhead hrest ih =>
    rename_i source head artifacts rest
    obtain ⟨hdescribes, -⟩ := publicArtifact_ok hhead
    rw [List.map_cons, List.nodup_cons] at hids
    rcases List.mem_cons.mp hitem with rfl | hitem
    · exact ⟨source, List.find?_cons_of_pos hdescribes, hhead⟩
    · have hne : head.artifactId ≠ item.artifactId := fun he =>
        hids.1 (he ▸ List.mem_map_of_mem hitem)
      obtain ⟨source', hsource, hpublic⟩ := ih hids.2 hitem
      refine ⟨source', ?_, hpublic⟩
      rw [List.find?_cons_of_neg (by simp [not_describes hdescribes hne])]
      exact hsource

/-- What is known of an accepted batch. -/
structure Batch.Accepted (batch : Batch) (pub : PublicManifest) : Prop where
  distinct : (pub.artifacts.map (·.filename)).Nodup
  source : ∀ item ∈ pub.artifacts, ∃ source,
    artifactSource batch.artifacts item.artifactId = .ok source ∧ publicArtifact source = .ok item

theorem validate_ok {batch : Batch} {pub : PublicManifest} (h : batch.validate = .ok pub) :
    batch.Accepted pub := by
  obtain ⟨-, -, h⟩ := bind_ok h
  obtain ⟨-, -, h⟩ := bind_ok h
  obtain ⟨-, h⟩ := guard_ok h
  obtain ⟨items, hitems, h⟩ := bind_ok h
  cases h
  obtain ⟨hids, hnames, rest, rfl, hrest⟩ := publicArtifacts_ok hitems List.nodup_nil List.nodup_nil
  exact ⟨hnames, fun item hitem => artifactSource_ok hrest hids hitem⟩

/-- A download that passes its checks has the bytes of its item. -/
theorem downloaded_ok {sha256 : Bytes → String} {batch : Batch} {pub : PublicManifest}
    (haccepted : batch.Accepted pub) {item item' : PublicArtifact} (hitem : item ∈ pub.artifacts)
    {body : Bytes} (h : downloaded sha256 batch.artifacts item body = .ok item') :
    item' = item ∧ body.length = item.size ∧ sha256 body = item.sha256 := by
  obtain ⟨source, hsource, hpublic⟩ := haccepted.source item hitem
  obtain ⟨-, digest, hdigest, hlower⟩ := publicArtifact_ok hpublic
  obtain ⟨source', hsource', h⟩ := bind_ok h
  obtain rfl : source' = source := by simpa [hsource] using hsource'.symm
  obtain ⟨hdiffers, h⟩ := guard_ok h
  obtain ⟨hsize, h⟩ := guard_ok h
  cases h
  have hsha256 : sha256 body = item.sha256 := by
    simpa [digestDiffers, hdigest, ← hlower] using hdiffers
  rw [not_not] at hsize
  exact ⟨by rw [hsha256, hsize], hsize, hsha256⟩

/-! ## The directory of a message -/

/-- **The directory has the manifest, one file for each Artifact, and nothing else.** -/
structure Committed (sha256 : Bytes → String) (dumps : PublicManifest → Bytes)
    (pub : PublicManifest) (final : Directory) : Prop where
  manifest : final.files checkoutName = some (.json pub)
  distinct : (pub.artifacts.map (·.filename)).Nodup
  artifact : ∀ item ∈ pub.artifacts, ∃ file, final.files item.filename = some file ∧
    (file.bytes dumps).length = item.size ∧ sha256 (file.bytes dumps) = item.sha256
  only : ∀ name, final.files name ≠ none →
    name = checkoutName ∨ ∃ item ∈ pub.artifacts, item.filename = name

/-- The downloads of `installed` are complete, and `other` says which other files there are. -/
structure Staged (sha256 : Bytes → String) (installed : List PublicArtifact)
    (other : String → Prop) (dir : Directory) : Prop where
  artifact : ∀ item ∈ installed, ∃ bytes, dir.files item.filename = some (.data bytes) ∧
    bytes.length = item.size ∧ sha256 bytes = item.sha256
  only : ∀ name, dir.files name ≠ none → other name ∨ ∃ item ∈ installed, item.filename = name

section Staged

variable {sha256 : Bytes → String} {dumps : PublicManifest → Bytes} {pub : PublicManifest}
variable {installed : List PublicArtifact} {other other' : String → Prop} {dir : Directory}

theorem Staged.empty (mode : ℕ) : Staged sha256 [] other (.empty mode) :=
  ⟨fun _ hitem => (List.not_mem_nil hitem).elim, fun _ hname => (hname rfl).elim⟩

/-- A file whose name no download has is written. -/
theorem Staged.write (h : Staged sha256 installed other dir) {name : String}
    (hnew : ∀ item ∈ installed, item.filename ≠ name) (file : File)
    (hother : ∀ n, other n → other' n) (hname : other' name) :
    Staged sha256 installed other' (dir.write name file) where
  artifact := fun item hitem => by
    rw [dir.write_files_ne file (hnew item hitem)]
    exact h.artifact item hitem
  only := fun n hn => by
    by_cases he : n = name
    · exact .inl (he ▸ hname)
    · rw [dir.write_files_ne file he] at hn
      exact (h.only n hn).imp_left (hother n)

/-- The file that is being written is complete. -/
theorem Staged.install {item : PublicArtifact} {body : Bytes}
    (h : Staged sha256 installed (· = item.filename) dir)
    (hbody : dir.files item.filename = some (.data body)) (hsize : body.length = item.size)
    (hsha256 : sha256 body = item.sha256) :
    Staged sha256 (installed ++ [item]) (fun _ => False) dir where
  artifact := fun item' hitem' => by
    rcases List.mem_append.mp hitem' with hitem' | hitem'
    · exact h.artifact item' hitem'
    · obtain rfl := List.mem_singleton.mp hitem'
      exact ⟨body, hbody, hsize, hsha256⟩
  only := fun name hname => by
    rcases h.only name hname with rfl | ⟨item', hitem', hfilename⟩
    · exact .inr ⟨item, by simp, rfl⟩
    · exact .inr ⟨item', by simp [hitem'], hfilename⟩

/-- No download has the name of a file that is a manifest. -/
theorem Staged.ne_json (h : Staged sha256 installed other dir) {name : String}
    {manifest : PublicManifest} (hname : dir.files name = some (.json manifest)) :
    ∀ item ∈ installed, item.filename ≠ name := by
  rintro item hitem rfl
  obtain ⟨bytes, hbytes, -⟩ := h.artifact item hitem
  rw [hbytes] at hname
  cases hname

/-- The manifest gets its name. -/
theorem Staged.replace (h : Staged sha256 installed (· = partName) dir)
    (hpart : dir.files partName = some (.json pub))
    (hname : ∀ item ∈ installed, item.filename ≠ checkoutName) :
    Staged sha256 installed (· = checkoutName) (dir.replace partName checkoutName (.json pub)) where
  artifact := fun item hitem => by
    rw [Directory.replace, Directory.write_files_ne _ _ (hname item hitem),
      Directory.remove_files_ne _ (h.ne_json hpart item hitem)]
    exact h.artifact item hitem
  only := fun name hn => by
    by_cases he : name = checkoutName
    · exact .inl he
    · rw [Directory.replace, Directory.write_files_ne _ _ he] at hn
      by_cases hp : name = partName
      · subst hp
        exact (hn (dir.remove_files_self)).elim
      · rw [Directory.remove_files_ne _ hp] at hn
        exact .inr ((h.only name hn).resolve_left hp)

theorem Staged.committed (h : Staged sha256 pub.artifacts (· = checkoutName) dir)
    (hmanifest : dir.files checkoutName = some (.json pub))
    (hdistinct : (pub.artifacts.map (·.filename)).Nodup) : Committed sha256 dumps pub dir where
  manifest := hmanifest
  distinct := hdistinct
  artifact := fun item hitem => by
    obtain ⟨bytes, hbytes, hsize, hsha256⟩ := h.artifact item hitem
    exact ⟨.data bytes, hbytes, hsize, hsha256⟩
  only := h.only

theorem Committed.chmod {final : Directory} (h : Committed sha256 dumps pub final) (mode : ℕ) :
    Committed sha256 dumps pub { final with mode := mode } :=
  ⟨h.manifest, h.distinct, h.artifact, h.only⟩

theorem forM_ok {α : Type} {f : α → Except String Unit} :
    ∀ {l : List α}, (∀ a ∈ l, f a = .ok ()) → l.forM f = .ok ()
  | [], _ => rfl
  | a :: l, h => by
    rw [List.forM_eq_forM, List.forM_cons, h a List.mem_cons_self]
    exact forM_ok fun b hb => h b (List.mem_cons_of_mem a hb)

/-- The directory of the batch passes its check. -/
theorem Committed.verify {final : Directory} (h : Committed sha256 dumps pub final)
    (loads : Bytes → Option PublicManifest) :
    verifyCheckoutCommit dumps loads final pub = .ok () := by
  have hfiles : pub.artifacts.forM (verifyFile dumps final) = .ok () := forM_ok fun item hitem => by
    obtain ⟨file, hfile, hsize, -⟩ := h.artifact item hitem
    simp [verifyFile, hfile, hsize]
  simp [verifyCheckoutCommit, h.manifest, readJsonObject, bind, Except.bind, hfiles]

end Staged

/-! ## The invariant -/

/-- What the call has done to `uploads/`. -/
structure Attempt.Kept (userMessageId : String) (ws : Workspace) (a : Attempt) : Prop where
  unrenamed : a.renamed = false → ws.uploads = a.before
  renamed : a.renamed = true → a.before userMessageId = none ∧ ws.uploads userMessageId ≠ none

/-- The call has found no directory of the message, and made none. -/
def Attempt.Fresh (userMessageId : String) (a : Attempt) : Prop :=
  a.renamed = false ∧ a.before userMessageId = none

/-- The call has found the directory of the message. -/
def Attempt.Found (userMessageId : String) (a : Attempt) : Prop :=
  a.renamed = false ∧ a.before userMessageId ≠ none

/-- What the call has made so far. -/
def Attempt.Place (sha256 : Bytes → String) (dumps : PublicManifest → Bytes)
    (userMessageId : String) (pub : PublicManifest) (ws : Workspace) (a : Attempt) : Prop :=
  match a.stage with
  | .check => a.renamed = false
  | .verified => a.Found userMessageId
  | .clear | .mkdir => a.Fresh userMessageId
  | .openTarget installed rest => a.Fresh userMessageId ∧ installed ++ rest = pub.artifacts ∧
      ∃ dir, ws.staging a.operationId = some dir ∧ Staged sha256 installed (fun _ => False) dir
  | .download installed item _ body rest => a.Fresh userMessageId ∧
      installed ++ item :: rest = pub.artifacts ∧
      ∃ dir, ws.staging a.operationId = some dir ∧
        Staged sha256 installed (· = item.filename) dir ∧
        dir.files item.filename = some (.data body)
  | .openManifest installed => a.Fresh userMessageId ∧ installed = pub.artifacts ∧
      ∃ dir, ws.staging a.operationId = some dir ∧ Staged sha256 installed (fun _ => False) dir
  | .replaceManifest installed => a.Fresh userMessageId ∧ installed = pub.artifacts ∧
      ∃ dir, ws.staging a.operationId = some dir ∧ Staged sha256 installed (· = partName) dir ∧
        dir.files partName = some (.json pub)
  | .outputDirectory _ | .rename _ => a.Fresh userMessageId ∧
      ∃ dir, ws.staging a.operationId = some dir ∧ Committed sha256 dumps pub dir
  | .protect _ => a.renamed = true
  | .cleanup _ | .raised _ => True
  | .returned _ alreadyCommitted => alreadyCommitted = true ∧ a.Found userMessageId ∨
      alreadyCommitted = false ∧ a.renamed = true

/-- The state of the Workspace, and of the call that is under way. -/
structure Inv (sha256 : Bytes → String) (dumps : PublicManifest → Bytes) (userMessageId : String)
    (pub : PublicManifest) (s : State) : Prop where
  committed : ∀ final, s.1.uploads userMessageId = some final → Committed sha256 dumps pub final
  attempt : ∀ a, s.2 = some a →
    a.Kept userMessageId s.1 ∧ a.Place sha256 dumps userMessageId pub s.1

section Invariant

variable {sha256 : Bytes → String} {dumps : PublicManifest → Bytes}
  {loads : Bytes → Option PublicManifest}
variable {batch : Batch} {pub : PublicManifest} {ws : Workspace} {a : Attempt}

/-- An operation that renames nothing. -/
theorem Inv.next (h : Inv sha256 dumps batch.userMessageId pub (ws, some a))
    {next : Workspace × Stage} (huploads : next.1.uploads = ws.uploads)
    (hprotect : next.2.isProtect = false)
    (hplace : Attempt.Place sha256 dumps batch.userMessageId pub next.1
      { a with stage := next.2 }) :
    Inv sha256 dumps batch.userMessageId pub (a.next next) := by
  have hrenamed : (a.renamed || next.2.isProtect) = a.renamed := by rw [hprotect, Bool.or_false]
  refine ⟨fun final hfinal => h.committed final (huploads ▸ hfinal), fun a' ha' => ?_⟩
  cases ha'
  rw [hrenamed]
  obtain ⟨⟨hunrenamed, hren⟩, -⟩ := h.attempt a rfl
  refine ⟨⟨fun hr => huploads.trans (hunrenamed hr), fun hr => ?_⟩, hplace⟩
  obtain ⟨hbefore, hthere⟩ := hren hr
  exact ⟨hbefore, huploads ▸ hthere⟩

/-- The item that comes next has a name of its own. -/
theorem Batch.Accepted.new (h : batch.Accepted pub) {installed rest : List PublicArtifact}
    {item : PublicArtifact} (happend : installed ++ item :: rest = pub.artifacts) :
    ∀ item' ∈ installed, item'.filename ≠ item.filename := by
  have hdistinct := h.distinct
  rw [← happend, List.map_append, List.nodup_append] at hdistinct
  exact fun item' hitem' => hdistinct.2.2 _ (List.mem_map_of_mem hitem') _ (by simp)

theorem stage_self (ws : Workspace) (operationId : String) (dir : Option Directory) :
    (ws.stage operationId dir).staging operationId = dir := Function.update_self ..

/-- **An operation of the task.** -/
theorem taskStep_inv (haccepted : batch.Accepted pub)
    (hname : ∀ item ∈ pub.artifacts, item.filename ≠ checkoutName)
    (h : Inv sha256 dumps batch.userMessageId pub (ws, some a)) :
    Inv sha256 dumps batch.userMessageId pub
      (a.next (taskStep sha256 dumps loads batch pub a.operationId ws a.stage)) := by
  obtain ⟨operationId, stage, before, renamed⟩ := a
  obtain ⟨⟨hunrenamed, hren⟩, hplace⟩ := h.attempt _ rfl
  cases stage with
  | check =>
    have hbefore : ws.uploads = before := hunrenamed hplace
    rw [taskStep]
    cases hfinal : ws.uploads batch.userMessageId with
    | some final =>
      simp only [(h.committed final hfinal).verify loads]
      exact h.next rfl rfl ⟨hplace, by simp [← hbefore, hfinal]⟩
    | none =>
      cases safeOperationId operationId with
      | ok _ => exact h.next rfl rfl ⟨hplace, by simp [← hbefore, hfinal]⟩
      | error error => exact h.next rfl rfl trivial
  | verified => exact h.next rfl rfl (.inl ⟨rfl, hplace⟩)
  | clear => exact h.next rfl rfl hplace
  | mkdir =>
    exact h.next rfl rfl ⟨hplace, List.nil_append _, _, stage_self .., Staged.empty _⟩
  | openTarget installed rest =>
    obtain ⟨hfresh, happend, dir, (hdir : ws.staging operationId = some dir), hstaged⟩ := hplace
    cases rest with
    | nil => exact h.next rfl rfl ⟨hfresh, by simpa using happend, dir, hdir, hstaged⟩
    | cons item rest =>
      simp only [taskStep, hdir]
      split_ifs with hthere
      · exact h.next rfl rfl trivial
      · cases downloadLimit batch.artifacts item with
        | error error => exact h.next rfl rfl trivial
        | ok maxBytes =>
          exact h.next rfl rfl ⟨hfresh, happend, _, stage_self ..,
            hstaged.write (haccepted.new happend) _ (fun n => False.elim) rfl,
            Directory.write_files_self ..⟩
  | download installed item maxBytes body rest =>
    obtain ⟨hfresh, happend, dir, hdir, hstaged, hbody⟩ := hplace
    rw [taskStep]
    cases hend : downloaded sha256 batch.artifacts item body with
    | error error => exact h.next rfl rfl trivial
    | ok item' =>
      obtain ⟨rfl, hsize, hsha256⟩ := downloaded_ok haccepted (by simp [← happend]) hend
      exact h.next rfl rfl ⟨hfresh, by simpa using happend, dir, hdir,
        hstaged.install hbody hsize hsha256⟩
  | openManifest installed =>
    obtain ⟨hfresh, rfl, dir, (hdir : ws.staging operationId = some dir), hstaged⟩ := hplace
    simp only [taskStep, hdir]
    split_ifs with hthere
    · exact h.next rfl rfl trivial
    · have hnew : ∀ item ∈ pub.artifacts, item.filename ≠ partName := by
        rintro item hitem he
        obtain ⟨bytes, hbytes, -⟩ := hstaged.artifact item hitem
        rw [he] at hbytes
        simp [hbytes] at hthere
      exact h.next rfl rfl ⟨hfresh, rfl, _, stage_self ..,
        hstaged.write hnew _ (fun n => False.elim) rfl, Directory.write_files_self ..⟩
  | replaceManifest installed =>
    obtain ⟨hfresh, rfl, dir, (hdir : ws.staging operationId = some dir), hstaged, hpart⟩ := hplace
    simp only [taskStep, hdir, hpart]
    have hcommitted : Committed sha256 dumps pub _ := (hstaged.replace hpart hname).committed
      (Directory.write_files_self ..) haccepted.distinct
    exact h.next rfl rfl ⟨hfresh, _, stage_self .., hcommitted.chmod _⟩
  | outputDirectory installed =>
    exact h.next rfl rfl hplace
  | rename installed =>
    obtain ⟨⟨hr, hbefore⟩, dir, (hdir : ws.staging operationId = some dir), hcommitted⟩ := hplace
    have hnone : ws.uploads batch.userMessageId = none := by rw [hunrenamed hr, hbefore]
    simp only [taskStep, hdir, hnone]
    refine ⟨fun final hfinal => ?_, fun a' ha' => ?_⟩
    · obtain rfl : dir = final := by
        simpa [Attempt.next, Workspace.upload] using hfinal
      exact hcommitted
    · cases ha'
      exact ⟨⟨fun hr' => by simp [Stage.isProtect] at hr', fun _ => ⟨hbefore, by
        simp [Attempt.next, Workspace.upload]⟩⟩, by simp [Attempt.Place, Stage.isProtect]⟩
  | protect installed =>
    have hrenamed : renamed = true := hplace
    obtain ⟨hbefore, hthere⟩ := hren hrenamed
    obtain ⟨final, (hfinal : ws.uploads batch.userMessageId = some final)⟩ :=
      Option.ne_none_iff_exists'.mp hthere
    simp only [taskStep, hfinal, Option.map_some]
    refine ⟨fun final' hfinal' => ?_, fun a' ha' => ?_⟩
    · obtain rfl : { final with mode := 0o555 } = final' := by
        simpa [Attempt.next, hfinal] using hfinal'
      exact (h.committed final hfinal).chmod _
    · cases ha'
      exact ⟨⟨fun hr => by simp [hrenamed] at hr, fun _ => ⟨hbefore, by
        simp [Attempt.next]⟩⟩, .inr ⟨rfl, by simp [hrenamed]⟩⟩
  | cleanup error => exact h.next rfl rfl trivial
  | returned installed alreadyCommitted => exact h.next rfl rfl hplace
  | raised error => exact h.next rfl rfl trivial

/-- A call that raises goes to its cleanup, or is over. -/
theorem fail_inv (h : Inv sha256 dumps batch.userMessageId pub (ws, some a)) (error : String) :
    Inv sha256 dumps batch.userMessageId pub (a.next (fail ws error a.stage)) := by
  obtain ⟨operationId, stage, before, renamed⟩ := a
  cases stage <;> exact h.next rfl rfl trivial

theorem receive_inv (haccepted : batch.Accepted pub)
    (h : Inv sha256 dumps batch.userMessageId pub (ws, some a)) {chunk : Bytes}
    {next : Workspace × Stage} (hnext : receive a.operationId ws chunk a.stage = some next) :
    Inv sha256 dumps batch.userMessageId pub (a.next next) := by
  obtain ⟨operationId, stage, before, renamed⟩ := a
  obtain ⟨-, hplace⟩ := h.attempt _ rfl
  cases stage with
  | download installed item maxBytes body rest =>
    obtain ⟨hfresh, happend, dir, (hdir : ws.staging operationId = some dir), hstaged, hbody⟩ :=
      hplace
    simp only [receive, hdir, Option.map_some] at hnext
    split_ifs at hnext with hlimit
    · cases hnext
      exact h.next rfl rfl trivial
    · cases hnext
      exact h.next rfl rfl ⟨hfresh, happend, _, stage_self ..,
        hstaged.write (haccepted.new happend) _ (fun n => id) rfl, Directory.write_files_self ..⟩
  | _ => cases hnext

theorem unlink_inv (h : Inv sha256 dumps batch.userMessageId pub (ws, some a)) {name : String}
    {next : Workspace × Stage} (hnext : unlink a.operationId ws name a.stage = some next) :
    Inv sha256 dumps batch.userMessageId pub (a.next next) := by
  obtain ⟨operationId, stage, before, renamed⟩ := a
  obtain ⟨-, hplace⟩ := h.attempt _ rfl
  cases stage with
  | clear =>
    cases hnext
    exact h.next rfl rfl hplace
  | cleanup error =>
    cases hnext
    exact h.next rfl rfl trivial
  | _ => cases hnext

/-- **Every action keeps the invariant.** -/
theorem step_inv (haccepted : batch.Accepted pub)
    (hname : ∀ item ∈ pub.artifacts, item.filename ≠ checkoutName) {s s' : State} {action : Action}
    (h : Inv sha256 dumps batch.userMessageId pub s)
    (hstep : step sha256 dumps loads batch pub s action = some s') :
    Inv sha256 dumps batch.userMessageId pub s' := by
  obtain ⟨ws, a?⟩ := s
  cases action with
  | begin operationId =>
    rw [step] at hstep
    split_ifs at hstep
    cases hstep
    refine ⟨h.committed, fun a ha => ?_⟩
    cases ha
    exact ⟨⟨fun _ => rfl, fun hr => by cases hr⟩, rfl⟩
  | step =>
    obtain ⟨a, rfl, hstep⟩ := Option.bind_eq_some_iff.mp hstep
    split_ifs at hstep
    cases hstep
    exact taskStep_inv haccepted hname h
  | receive chunk =>
    obtain ⟨a, rfl, hstep⟩ := Option.bind_eq_some_iff.mp hstep
    obtain ⟨next, hnext, rfl⟩ := Option.map_eq_some_iff.mp hstep
    exact receive_inv haccepted h hnext
  | unlink name =>
    obtain ⟨a, rfl, hstep⟩ := Option.bind_eq_some_iff.mp hstep
    obtain ⟨next, hnext, rfl⟩ := Option.map_eq_some_iff.mp hstep
    exact unlink_inv h hnext
  | fail error =>
    obtain ⟨a, rfl, hstep⟩ := Option.bind_eq_some_iff.mp hstep
    split_ifs at hstep
    cases hstep
    exact fail_inv h error
  | die =>
    obtain ⟨a, rfl, hstep⟩ := Option.map_eq_some_iff.mp hstep
    cases hstep
    exact ⟨h.committed, fun a ha => by cases ha⟩

end Invariant

/-! ## What the calls make visible -/

/-- No call is under way. -/
def Idle (s : State) : Prop := ∀ a, s.2 = some a → a.stage.ended = true

/-- What is seen under `uploads/`, and what a call that is over has done to it. -/
structure Outcome (sha256 : Bytes → String) (dumps : PublicManifest → Bytes)
    (userMessageId : String) (pub : PublicManifest) (s : State) : Prop where
  whole : ∀ final, s.1.uploads userMessageId = some final → Committed sha256 dumps pub final
  returned : ∀ a installed alreadyCommitted, s.2 = some a →
    a.stage = .returned installed alreadyCommitted → s.1.uploads userMessageId ≠ none
  raised : ∀ a error, s.2 = some a → a.stage = .raised error → a.renamed = false →
    s.1.uploads = a.before
  repeated : ∀ a, s.2 = some a → a.before userMessageId ≠ none → s.1.uploads = a.before ∧
    ∀ installed alreadyCommitted, a.stage = .returned installed alreadyCommitted →
      alreadyCommitted = true

/-- A call after a successful one returns what that one has committed. -/
def Repeats (sha256 : Bytes → String) (dumps : PublicManifest → Bytes)
    (loads : Bytes → Option PublicManifest) (batch : Batch) (pub : PublicManifest) (s : State) :
    Prop :=
  Idle s → s.1.uploads batch.userMessageId ≠ none → ∀ operationId, ∃ ws,
    Machine.run (step sha256 dumps loads batch pub) s [.begin operationId, .step, .step] =
      some (ws, some ⟨operationId, .returned pub.artifacts true, s.1.uploads, false⟩) ∧
    ws.uploads = s.1.uploads

section Outcome

variable {sha256 : Bytes → String} {dumps : PublicManifest → Bytes}
variable {batch : Batch} {pub : PublicManifest} {s : State}

theorem Inv.outcome (h : Inv sha256 dumps batch.userMessageId pub s) :
    Outcome sha256 dumps batch.userMessageId pub s where
  whole := h.committed
  returned := fun a installed alreadyCommitted ha hstage => by
    obtain ⟨hkept, hplace⟩ := h.attempt a ha
    rw [Attempt.Place, hstage] at hplace
    rcases hplace with ⟨-, hr, hfound⟩ | ⟨-, hr⟩
    · rwa [hkept.unrenamed hr]
    · exact (hkept.renamed hr).2
  raised := fun a error ha _ hr => (h.attempt a ha).1.unrenamed hr
  repeated := fun a ha hbefore => by
    obtain ⟨hkept, hplace⟩ := h.attempt a ha
    have hr : a.renamed = false := by
      cases hr : a.renamed with
      | false => rfl
      | true => exact absurd (hkept.renamed hr).1 hbefore
    refine ⟨hkept.unrenamed hr, fun installed alreadyCommitted hstage => ?_⟩
    rw [Attempt.Place, hstage] at hplace
    rcases hplace with ⟨ht, -⟩ | ⟨-, hr'⟩
    · exact ht
    · simp [hr] at hr'

theorem Inv.repeats (h : Inv sha256 dumps batch.userMessageId pub s)
    (loads : Bytes → Option PublicManifest) : Repeats sha256 dumps loads batch pub s := by
  intro hidle hthere operationId
  obtain ⟨final, hfinal⟩ := Option.ne_none_iff_exists'.mp hthere
  have hover : s.2.any (!·.stage.ended) = false := by
    cases ha : s.2 with
    | none => rfl
    | some a => simp [hidle a ha]
  have hverify := (h.committed final hfinal).verify loads
  have hbegin : step sha256 dumps loads batch pub s (.begin operationId) =
      some (s.1, some ⟨operationId, .check, s.1.uploads, false⟩) := if_neg (by simp [hover])
  have hcheck : step sha256 dumps loads batch pub
      (s.1, some ⟨operationId, .check, s.1.uploads, false⟩) .step =
        some (s.1.prepare, some ⟨operationId, .verified, s.1.uploads, false⟩) := by
    simp only [step, Option.bind_some, taskStep, hfinal, hverify]
    rfl
  exact ⟨_, Machine.run_cons.mpr ⟨_, hbegin, Machine.run_cons.mpr ⟨_, hcheck, rfl⟩⟩, rfl⟩

end Outcome

/-- **The directory of a message is there as a whole or not at all**, whatever calls of the batch
have come, failed and been killed, where no Artifact has the name of the manifest. -/
theorem checkout_committed (sha256 : Bytes → String) (dumps : PublicManifest → Bytes)
    (loads : Bytes → Option PublicManifest) (batch : Batch) (pub : PublicManifest)
    (hvalid : batch.validate = .ok pub)
    (hname : ∀ item ∈ pub.artifacts, item.filename ≠ checkoutName) (ws : Workspace)
    (hnew : ws.uploads batch.userMessageId = none) (as : List Action) (s : State)
    (hrun : Machine.run (step sha256 dumps loads batch pub) (ws, none) as = some s) :
    Outcome sha256 dumps batch.userMessageId pub s ∧ Repeats sha256 dumps loads batch pub s := by
  have h : Inv sha256 dumps batch.userMessageId pub s :=
    Machine.run_keeps (fun _ _ _ h hstep => step_inv (validate_ok hvalid) hname h hstep) hrun
      ⟨fun final hfinal => by simp [hnew] at hfinal, fun a ha => by cases ha⟩
  exact ⟨h.outcome, h.repeats loads⟩

/-! ## A file with the name of the manifest -/

/-- The text of a manifest. -/
def manifestText (manifest : PublicManifest) : Bytes :=
  (dumps (.obj [
    ("artifacts", .arr (manifest.artifacts.map fun item => .obj [
      ("artifact_id", .str item.artifactId), ("filename", .str item.filename),
      ("sha256", .str item.sha256), ("size", .int item.size)])),
    ("assistant_message_id", .str manifest.assistantMessageId),
    ("user_message_id", .str manifest.userMessageId)])).map fun c => UInt8.ofNat c.toNat

/-- The digest of three bytes. -/
def sampleDigest : String := "039058c6f2c0cb492c533b0a4d14ef77cc0f78abccced5287d84a1a2011cfb81"

/-- The digests of three bytes, and of none. -/
def sampleSha256 (bytes : Bytes) : String :=
  if bytes = [1, 2, 3] then sampleDigest
  else "e3b0c44298fc1c149afbf4c8996fb92427ae41e4649b934ca495991b7852b855"

/-- The id of an Artifact. -/
def sampleArtifactId : String := "artifact_00000000000000000000000000000001"

/-- One Artifact of three bytes. -/
def sampleBatch (filename : String) : Batch :=
  ⟨"user1", "assistant1", [[("artifact_id", .str sampleArtifactId), ("filename", .str filename),
    ("size", .int 3), ("sha256", .str sampleDigest), ("max_bytes", .int 3),
    ("url", .str "https://artifacts/1"), ("token", .str "token")]]⟩

/-- A manifest with one Artifact of a name. -/
def samplePublic (filename : String) : PublicManifest :=
  ⟨"user1", "assistant1", [⟨sampleArtifactId, filename, 3, sampleDigest⟩]⟩

/-- A Workspace without uploads. -/
def sampleWorkspace : Workspace := ⟨fun _ => none, 0o555, fun _ => none, fun _ => none⟩

/-- The id of an operation. -/
def sampleOperation : String := "operation_00000000000000000000000000000001"

/-- A call that is killed over its download, and one that returns. -/
def sampleCalls : List Action :=
  [.begin sampleOperation, .step, .step, .step, .step, .receive [1], .die,
    .begin sampleOperation, .step, .unlink "report.txt", .step, .step, .step, .receive [1, 2, 3],
    .step, .step, .step, .step, .step, .step, .step]

/-- The call has returned and its directory has the bytes under the name. -/
def sampleCommitted (filename : String) (s : State) : Bool :=
  s.2.any (·.stage.ended) &&
    (s.1.uploads "user1").any fun final =>
      (final.files filename).any fun file => file.bytes manifestText = [1, 2, 3]

theorem checkout_committed_sample :
    (sampleBatch "report.txt").validate = .ok (samplePublic "report.txt") ∧
    ∃ s, Machine.run (step sampleSha256 manifestText (fun _ => none) (sampleBatch "report.txt")
        (samplePublic "report.txt")) (sampleWorkspace, none) sampleCalls = some s ∧
      sampleCommitted "report.txt" s = true ∧
      Outcome sampleSha256 manifestText "user1" (samplePublic "report.txt") s := by
  have hvalid : (sampleBatch "report.txt").validate = .ok (samplePublic "report.txt") := by
    decide +kernel
  refine ⟨hvalid, ?_⟩
  obtain ⟨s, hrun, hcommitted⟩ := (Option.any_eq_true _ _).mp
    (by decide +kernel : (Machine.run (step sampleSha256 manifestText (fun _ => none)
      (sampleBatch "report.txt") (samplePublic "report.txt")) (sampleWorkspace, none)
      sampleCalls).any (sampleCommitted "report.txt") = true)
  exact ⟨s, hrun, hcommitted, (checkout_committed _ _ _ _ _ hvalid (by decide) _ rfl _ _ hrun).1⟩

/-- The manifest takes the place of an Artifact of its name. -/
theorem not_checkout_committed_named :
    ¬ ∀ (batch : Batch) (pub : PublicManifest), batch.validate = .ok pub → ∀ (ws : Workspace),
      ws.uploads batch.userMessageId = none → ∀ (as : List Action) (s : State),
        Machine.run (step sampleSha256 manifestText (fun _ => none) batch pub) (ws, none) as =
          some s → Outcome sampleSha256 manifestText batch.userMessageId pub s := by
  intro h
  obtain ⟨s, hrun, hthere⟩ := (Option.any_eq_true _ _).mp
    (by decide +kernel : (Machine.run (step sampleSha256 manifestText (fun _ => none)
      (sampleBatch checkoutName) (samplePublic checkoutName)) (sampleWorkspace, none)
      sampleCalls).any (fun s => (s.1.uploads "user1").any fun final =>
        (final.files checkoutName).any fun file =>
          decide ((file.bytes manifestText).length ≠ 3)) = true)
  have hvalid : (sampleBatch checkoutName).validate = .ok (samplePublic checkoutName) := by
    decide +kernel
  have houtcome := h _ _ hvalid sampleWorkspace rfl sampleCalls s hrun
  obtain ⟨final, hfinal, hfile⟩ := (Option.any_eq_true _ _).mp hthere
  obtain ⟨file, hfile, hlength⟩ := (Option.any_eq_true _ _).mp hfile
  obtain ⟨file', hfile', hsize, -⟩ := (houtcome.whole final hfinal).artifact _
    (List.mem_singleton_self _)
  obtain rfl : file = file' := Option.some.inj (hfile.symm.trans hfile')
  exact of_decide_eq_true hlength hsize

end CodexGateway.StorageOps.Checkout
