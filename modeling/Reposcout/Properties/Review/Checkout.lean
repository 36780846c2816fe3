import Mathlib.Data.List.TakeWhile
import Reposcout.Properties.Review.Snapshot
import Reposcout.Properties.Findings.Compare
import Reposcout.Properties.Walk.Walker
import Reposcout.Review.Checkout

/-!
# The snapshots of a clean checkout

As long as no limit is hit, a loader keeps the text of every path that its filter lets through.  For
a clean checkout the three loaders agree exactly when nothing is let through that only some of them
see: a link, a file in a submodule or in the directory of the repository, or a name that is not
UTF-8.
-/

namespace KeyedList

open List KeyedList

variable {κ β : Type} [DecidableEq κ]

/-- The map with some entries inserted one after the other. -/
def insertAll (m entries : List (κ × β)) : List (κ × β) :=
  entries.foldl (fun m entry => alter entry.1 (fun _ => entry.2) m) m

lemma insertAll_eq_append {m entries : List (κ × β)} (h : (keys (m ++ entries)).Nodup) :
    insertAll m entries = m ++ entries := by
  induction entries generalizing m with
  | nil => simp [insertAll]
  | cons entry rest ih =>
    have hnew : entry.1 ∉ keys m := by
      intro hmem
      rw [keys, map_append, nodup_append] at h
      exact h.2.2 entry.1 hmem entry.1 (by simp) rfl
    have hinsert : alter entry.1 (fun _ => entry.2) m = m ++ [entry] :=
      alter_of_get?_eq_none (get?_eq_none_iff.mpr hnew) fun _ => entry.2
    rw [append_cons, ← ih (by rwa [← append_cons])]
    simp [insertAll, hinsert]

end KeyedList

namespace Reposcout.Review

open Walk List Option KeyedList

/-! ## What is loaded when no limit is hit -/

/-- No limit and no deadline has kept a source out. -/
structure SourceSnapshot.Unlimited (snapshot : SourceSnapshot) : Prop where
  oversizedFiles : snapshot.oversizedFiles = 0
  filesOmittedByLimit : snapshot.filesOmittedByLimit = 0
  durationLimitReached : snapshot.durationLimitReached = false

namespace SourceSnapshot

variable {snapshot : SourceSnapshot} {path : PathBuf} {content : String} {n : ℕ}

@[simp] lemma unlimited_insert : (snapshot.insert path content).Unlimited ↔ snapshot.Unlimited :=
  ⟨fun ⟨h₁, h₂, h₃⟩ => ⟨h₁, h₂, h₃⟩, fun ⟨h₁, h₂, h₃⟩ => ⟨h₁, h₂, h₃⟩⟩

@[simp] lemma unlimited_unreadable : snapshot.unreadable.Unlimited ↔ snapshot.Unlimited :=
  ⟨fun ⟨h₁, h₂, h₃⟩ => ⟨h₁, h₂, h₃⟩, fun ⟨h₁, h₂, h₃⟩ => ⟨h₁, h₂, h₃⟩⟩

@[simp] lemma not_unlimited_oversized : ¬ (snapshot.oversized n).Unlimited :=
  fun h => Nat.succ_ne_zero _ h.oversizedFiles

lemma not_unlimited_omitted (hn : n ≠ 0) : ¬ (snapshot.omitted n).Unlimited := by
  intro h
  have hfiles : snapshot.filesOmittedByLimit + n = 0 := h.filesOmittedByLimit
  omega

@[simp] lemma not_unlimited_outOfTime : ¬ (snapshot.outOfTime n).Unlimited :=
  fun h => Bool.noConfusion h.durationLimitReached

@[simp] lemma not_unlimited_abandoned : ¬ snapshot.abandoned.Unlimited :=
  fun h => Bool.noConfusion h.durationLimitReached

@[simp] lemma not_unlimited_tooManyFiles : ¬ snapshot.tooManyFiles.Unlimited :=
  fun h => Nat.succ_ne_zero _ h.filesOmittedByLimit

end SourceSnapshot

section

variable {limits : Limits} {filter : SnapshotFilter} {state : LoadState}

/-- The source that an entry gives if no limit keeps it out. -/
def readable (filter : SnapshotFilter) (entry : Option PathBuf × Blob) :
    Option (PathBuf × String) :=
  (entry.1.filter fun path => filter.allows path).bind fun path =>
    entry.2.text.map fun content => (path, content)

variable {path : PathBuf} {entry : Option PathBuf × Blob}

lemma readable_eq_some {content : String} : readable filter entry = some (path, content) ↔
      entry.1 = some path ∧ filter.allows path = true ∧ entry.2.text = some content := by
  simp only [readable, bind_eq_some_iff, filter_eq_some_iff, map_eq_some_iff, Prod.mk.injEq]
  constructor
  · rintro ⟨p, ⟨hpath, hallows⟩, text, htext, rfl, rfl⟩
    exact ⟨hpath, hallows, htext⟩
  · rintro ⟨hpath, hallows, htext⟩
    exact ⟨path, ⟨hpath, hallows⟩, content, htext, rfl, rfl⟩

variable {blob : Blob}

/-- What is not loaded although it is small enough has no text. -/
lemma text_of_loadBlobText_error {error : BlobTextError} {maxBytes : ℕ}
    (h : loadBlobText blob maxBytes = .error error) : blob.text = none := by
  cases hbytes : blob.bytes with
  | none => simp [Blob.text, hbytes]
  | some bytes =>
    cases hutf8 : fromUtf8 bytes with
    | none => simp [Blob.text, hbytes, hutf8]
    | some content =>
      simp only [loadBlobText, hbytes, hutf8] at h
      split at h
      · cases h
      · split at h <;> cases h

/-- What one step of a loader does as long as no limit is hit. -/
structure Inserts (state next : LoadState) (sources : List (PathBuf × String)) : Prop where
  unlimited : state.snapshot.Unlimited
  sources : next.snapshot.sources = KeyedList.insertAll state.snapshot.sources sources

open SourceSnapshot

lemma inserts_acceptText (h : (acceptText limits path blob state).snapshot.Unlimited) :
    Inserts state (acceptText limits path blob state)
      (blob.text.map fun content => (path, content)).toList := by
  unfold acceptText at h ⊢
  split at h
  · next content hload =>
    obtain ⟨htext, -⟩ := loadBlobText_eq_some hload
    split at h
    · exact absurd h (SourceSnapshot.not_unlimited_omitted (by decide))
    · next hfits =>
      rw [if_neg hfits]
      refine ⟨unlimited_insert.mp h, ?_⟩
      simp [htext, insertAll, LoadState.accept, LoadState.record, SourceSnapshot.insert]
  · exact absurd h not_unlimited_oversized
  · next error hload =>
    refine ⟨unlimited_unreadable.mp h, ?_⟩
    simp [text_of_loadBlobText_error hload, insertAll, LoadState.record,
      unreadable]

lemma inserts_loadEntry (h : (loadEntry limits path blob state).snapshot.Unlimited) :
    Inserts state (loadEntry limits path blob state)
      (blob.text.map fun content => (path, content)).toList := by
  unfold loadEntry at h ⊢
  split at h
  · exact inserts_acceptText h
  · split at h
    · exact absurd h not_unlimited_oversized
    · next hsize =>
      rw [if_neg hsize]
      split at h
      · exact absurd h (not_unlimited_omitted (by decide))
      · next htotal =>
        rw [if_neg htotal]
        exact inserts_acceptText h

lemma inserts_visitEntry {path : Option PathBuf}
    (h : (visitEntry limits filter path blob state).snapshot.Unlimited) :
    Inserts state (visitEntry limits filter path blob state)
      (readable filter (path, blob)).toList := by
  cases path with
  | none =>
    refine ⟨unlimited_unreadable.mp h, ?_⟩
    simp [visitEntry, readable, insertAll, LoadState.record, unreadable]
  | some path =>
    simp only [visitEntry] at h ⊢
    split at h
    · next hallows =>
      have hreadable : readable filter (some path, blob) =
          blob.text.map fun content => (path, content) := by
        simp [readable, filter_some, hallows]
      rw [if_pos hallows, hreadable]
      exact inserts_loadEntry h
    · next hallows =>
      exact ⟨h, by simp [readable, filter_some, hallows, insertAll]⟩

lemma Inserts.cons {next last : LoadState} {rest : List (Option PathBuf × Blob)}
    (hfirst : Inserts state next (readable filter entry).toList)
    (hrest : Inserts next last (rest.filterMap (readable filter))) :
    Inserts state last ((entry :: rest).filterMap (readable filter)) := by
  refine ⟨hfirst.unlimited, ?_⟩
  rw [hrest.sources, hfirst.sources, filterMap_cons]
  cases readable filter entry <;> rfl

/-- **The walk of the index** keeps the readable entries. -/
lemma inserts_walkIndex (entries : List IndexEntry) (state : LoadState) (deadline : Deadline)
    (h : (walkIndex limits filter entries state deadline).1.snapshot.Unlimited) :
    Inserts state (walkIndex limits filter entries state deadline).1
      ((entries.map IndexEntry.object).filterMap (readable filter)) := by
  induction entries generalizing state deadline with
  | nil => exact ⟨h, rfl⟩
  | cons entry rest ih =>
    rw [walkIndex] at h ⊢
    split at h
    · exact absurd h not_unlimited_outOfTime
    next hpassed =>
    rw [if_neg hpassed]
    dsimp only at h ⊢
    split at h
    · exact absurd h (not_unlimited_omitted (Nat.succ_ne_zero _))
    next hcount =>
    rw [if_neg hcount]
    have hrest := ih _ _ h
    have hfirst := inserts_visitEntry hrest.unlimited
    exact Inserts.cons ⟨hfirst.unlimited, hfirst.sources⟩ hrest

/-- **The walk of a tree** keeps the readable blobs. -/
lemma inserts_walkTree (entries : List TreeEntry) (state : LoadState) (deadline : Deadline)
    (h : (walkTree limits filter entries state deadline).1.1.snapshot.Unlimited) :
    Inserts state (walkTree limits filter entries state deadline).1.1
        ((treeObjects entries).filterMap (readable filter)) ∧
      (walkTree limits filter entries state deadline).1.2 = false := by
  induction entries generalizing state deadline with
  | nil => exact ⟨⟨h, rfl⟩, rfl⟩
  | cons entry rest ih =>
    rw [walkTree] at h ⊢
    split at h
    · exact absurd h not_unlimited_abandoned
    next hpassed =>
    rw [if_neg hpassed]
    split at h
    · next hblob =>
      have hrest : treeObjects (entry :: rest) = treeObjects rest := by
        simp [treeObjects, hblob]
      rw [if_pos hblob, hrest]
      exact ih _ _ h
    next hblob =>
    have hrest : treeObjects (entry :: rest) = (entry.path, entry.blob) :: treeObjects rest := by
      simp [treeObjects, Bool.not_eq_false _ ▸ hblob]
    rw [if_neg hblob, hrest]
    dsimp only at h ⊢
    split at h
    · exact absurd h not_unlimited_tooManyFiles
    next hcount =>
    rw [if_neg hcount]
    obtain ⟨hlater, hstopped⟩ := ih _ _ h
    have hfirst := inserts_visitEntry hlater.unlimited
    exact ⟨Inserts.cons ⟨hfirst.unlimited, hfirst.sources⟩ hlater, hstopped⟩

end

section

variable {discovery : Discovery}

def readableFile (discovery : Discovery) (file : WalkFile) : Option (PathBuf × String) :=
  if discovery.detect file.reportPath then
    match readTextBoundedUnderRoot file discovery.limits.maxFileBytes with
    | .content content => some (file.reportPath, content)
    | .oversized _ | .unreadable => none
  else none

/-- **Reading the discovered files** keeps the readable ones. -/
lemma inserts_readFiles (files : List WalkFile) (snapshot : SourceSnapshot)
    (deadline : Deadline) (h : (readFiles discovery files snapshot deadline).1.Unlimited) :
    snapshot.Unlimited ∧ (readFiles discovery files snapshot deadline).1.sources =
      insertAll snapshot.sources (files.filterMap (readableFile discovery)) := by
  induction files generalizing snapshot deadline with
  | nil => exact ⟨h, rfl⟩
  | cons file rest ih =>
    rw [readFiles] at h ⊢
    split at h
    · exact absurd h SourceSnapshot.not_unlimited_outOfTime
    next hpassed =>
    rw [if_neg hpassed]
    split at h
    · next hdetect =>
      rw [if_pos hdetect, filterMap_cons_none (by simp [readableFile, hdetect])]
      exact ih _ _ h
    next hdetect =>
    rw [if_neg hdetect]
    split at h
    · next content hread =>
      obtain ⟨hunlimited, hsources⟩ := ih _ _ h
      have hreadable : readableFile discovery file = some (file.reportPath, content) := by
        simp [readableFile, hdetect, hread]
      rw [filterMap_cons_some hreadable]
      exact ⟨SourceSnapshot.unlimited_insert.mp hunlimited, hsources⟩
    · exact absurd (ih _ _ h).1 SourceSnapshot.not_unlimited_oversized
    · next hread =>
      obtain ⟨hunlimited, hsources⟩ := ih _ _ h
      rw [filterMap_cons_none (by simp [readableFile, hdetect, hread])]
      exact ⟨SourceSnapshot.unlimited_unreadable.mp hunlimited, hsources⟩

end

/-! ## The sources of the three sides -/

/-- A path that the filters let through, where `identity` is what it resolves to. -/
structure LetsThrough (discovery : Discovery) (matcher : PathMatcher) (identity path : PathBuf) :
    Prop where
  detected : discovery.detect path = true
  notExcluded : identity ∉ discovery.exclusions
  notIgnored : matcher.matched path false = false

section

variable {checkout : Checkout} {discovery : Discovery} {matcher : PathMatcher} {rejected : ℕ}
  {deadline : Deadline} {path : PathBuf} {content : String}

lemma eq_of_mem_leaves {file file' : WorkFile} {path : List String}
    (h : (path, file) ∈ checkout.worktree.leaves)
    (h' : (path, file') ∈ checkout.worktree.leaves) : file = file' := by
  have hfirst := get?_of_mem checkout.files_nodup h
  have hsecond := get?_of_mem checkout.files_nodup h'
  exact some.inj (hfirst.symm.trans hsecond)

variable {tracked : Tracked}

lemma eq_of_mem_entries {tracked' : Tracked} {path : List String}
    (h : (path, tracked) ∈ checkout.entries) (h' : (path, tracked') ∈ checkout.entries) :
    tracked = tracked' := by
  have hfirst := get?_of_mem checkout.entries_nodup h
  have hsecond := get?_of_mem checkout.entries_nodup h'
  exact some.inj (hfirst.symm.trans hsecond)

open NamedTree

open Checkout

lemma mem_leaves_of_placed {file : WorkFile} {path : List String}
    (h : (path, tracked) ∈ checkout.entries) (hplaced : tracked.placed = .leaf file) :
    (path, file) ∈ checkout.worktree.leaves := by
  have hleaves : checkout.worktree.leaves =
      checkout.gitDirectory.leaves.map (under ".git") ++
        checkout.entries.flatMap (graftedLeaves Tracked.placed) := by
    rw [Checkout.worktree, checkedOut, leaves, leavesOf,
      leavesOf_graftOf]
    rfl
  rw [hleaves]
  refine mem_append_right _ (mem_flatMap.mpr ⟨_, h, ?_⟩)
  simp [graftedLeaves, hplaced, leaves]

lemma ne_nil_of_mem_leaves {file : WorkFile} {path : List String}
    (h : (path, file) ∈ checkout.worktree.leaves) : path ≠ [] := by
  exact ne_nil_of_mem_leavesOf h

def Tracked.identity (root path : PathBuf) : Tracked → PathBuf
  | .link _ resolved => resolved
  | .file _ | .submodule _ => root.join path

lemma identity_eq {root : PathBuf} {path : List String} (h : (path, tracked) ∈ checkout.entries) :
    checkout.identity root ⟨path⟩ = tracked.identity root ⟨path⟩ := by
  have hfind : checkout.entries.find? (fun entry => entry.1 = path) = some (path, tracked) := by
    cases hentry : checkout.entries.find? fun entry => entry.1 = path with
    | none => simpa using find?_eq_none.mp hentry _ h
    | some entry =>
      obtain ⟨other, tracked'⟩ := entry
      obtain rfl : other = path := by simpa using find?_some hentry
      rw [eq_of_mem_entries (mem_of_find?_eq_some hentry) h]
  rw [identity, hfind]
  cases tracked <;> rfl

lemma allows_iff {path : List String} (h : (path, tracked) ∈ checkout.entries) :
    (checkout.filter discovery matcher rejected).allows ⟨path⟩ = true ↔
      LetsThrough discovery matcher (tracked.identity matcher.root ⟨path⟩) ⟨path⟩ := by
  simp only [SnapshotFilter.allows, Checkout.filter, identity_eq h, Bool.and_eq_true,
    decide_eq_true_eq, Bool.not_eq_true']
  exact ⟨fun ⟨⟨h₁, h₂⟩, h₃⟩ => ⟨h₁, h₂, h₃⟩, fun ⟨h₁, h₂, h₃⟩ => ⟨⟨h₁, h₂⟩, h₃⟩⟩

/-! ### The working tree -/

lemma mem_passedFiles_iff {file : WalkFile} :
    file ∈ passedFiles discovery (walkItems matcher matcher.root ⟨[]⟩ checkout.worktree) ↔
      ∃ path bytes, (path, WorkFile.regular bytes) ∈ checkout.worktree.leaves ∧
        matcher.matched ⟨path⟩ false = false ∧ matcher.root.join ⟨path⟩ ∉ discovery.exclusions ∧
        file = regularFile matcher.root ⟨path⟩ bytes := by
  simp only [passedFiles, walkedFiles_walkItems, skipsPart_walkerSkips_root, mem_filter,
    mem_filterMap, decide_not, Bool.not_eq_true', decide_eq_false_iff_not]
  constructor
  · rintro ⟨⟨⟨⟨path, bytes | _⟩, ⟨hleaf, hmatched⟩, hfile⟩, hexcluded⟩, -⟩
    · cases hfile
      exact ⟨path, bytes, hleaf, hmatched, hexcluded, rfl⟩
    · cases hfile
  · rintro ⟨path, bytes, hleaf, hmatched, hexcluded, rfl⟩
    exact ⟨⟨⟨(path, .regular bytes), ⟨hleaf, hmatched⟩, rfl⟩, hexcluded⟩,
      by simp [passesOn, WalkFile.regular, regularFile]⟩

open KeyedList

lemma nodup_reportPaths :
    ((passedFiles discovery (walkItems matcher matcher.root ⟨[]⟩ checkout.worktree)).map
      fun file => file.reportPath.components).Nodup := by
  rw [passedFiles, walkedFiles_walkItems]
  refine Nodup.sublist ?_ checkout.files_nodup
  have hkeys : ∀ entries : List (List String × WorkFile),
      ((entries.filterMap (regularAt matcher.root ⟨[]⟩)).map
        fun file => file.reportPath.components).Sublist (keys entries) := by
    intro entries
    apply keys_filterMap_sublist
    rintro ⟨path, bytes | _⟩ - file hfile
    · cases hfile
      rfl
    · cases hfile
  refine ((filter_sublist.trans filter_sublist).map _).trans ?_
  exact (hkeys _).trans (filter_sublist.map _)

lemma files_perm {traversal : Traversal} (hwalk : checkout.Walked matcher traversal)
    (h : WalkWithinLimits discovery traversal deadline) :
    (discover discovery traversal deadline).1.files.Perm
      (passedFiles discovery (walkItems matcher matcher.root ⟨[]⟩ checkout.worktree)) :=
  (files_of_within h).trans ((hwalk.filterMap (WalkItem.file? discovery)).filter _)

lemma readableFile_regularFile {traversal : Traversal} {leaf : List String} {bytes : List UInt8}
    (hwalk : checkout.Walked matcher traversal) (hmax : discovery.limits.maxFileBytes ≤ u64Max)
    (h : WalkWithinLimits discovery traversal deadline)
    (hleaf : (leaf, WorkFile.regular bytes) ∈ checkout.worktree.leaves)
    (hlets : LetsThrough discovery matcher (matcher.root.join ⟨leaf⟩) ⟨leaf⟩) :
    readableFile discovery (regularFile matcher.root ⟨leaf⟩ bytes) =
      (fromUtf8 bytes).map fun text => (⟨leaf⟩, text) := by
  have hmem : regularFile matcher.root ⟨leaf⟩ bytes ∈ walkedFiles discovery traversal.items :=
    (hwalk.filterMap (WalkItem.file? discovery)).mem_iff.mpr (mem_filter.mp
      (mem_passedFiles_iff.mpr
        ⟨leaf, bytes, hleaf, hlets.notIgnored, hlets.notExcluded, rfl⟩)).1
  have hdetect : discovery.detect (regularFile matcher.root ⟨leaf⟩ bytes).reportPath = true :=
    hlets.detected
  have hsmall : bytes.length ≤ discovery.limits.maxFileBytes := by
    have hcounted := h.files.fileBytes _ hmem
    rwa [countedBytes, if_pos hdetect] at hcounted
  rw [readableFile, if_pos hdetect,
    readTextBoundedUnderRoot_regularFile (ne_nil_of_mem_leaves hleaf) hsmall hmax]
  cases fromUtf8 bytes <;> rfl

lemma path_of_readableFile {file : WalkFile} {source : PathBuf × String}
    (h : readableFile discovery file = some source) :
    source.1 = file.reportPath ∧ discovery.detect file.reportPath = true := by
  unfold readableFile at h
  split at h
  · next hdetect =>
    split at h
    · cases h
      exact ⟨rfl, hdetect⟩
    all_goals cases h
  · cases h

/-- Files at different paths give sources at different paths. -/
lemma nodup_keys_readableFiles (discovery : Discovery) {files : List WalkFile}
    (h : (files.map fun file => file.reportPath.components).Nodup) :
    (keys (files.filterMap (readableFile discovery))).Nodup := by
  have hkeyed : files.filterMap (readableFile discovery) =
      (files.map fun file => (file.reportPath, file)).filterMap fun entry =>
        readableFile discovery entry.2 := by
    rw [filterMap_map]
    rfl
  have hsublist : (keys (files.filterMap (readableFile discovery))).Sublist
      (keys (files.map fun file => (file.reportPath, file))) := by
    rw [hkeyed]
    apply keys_filterMap_sublist
    intro entry hentry source hsource
    obtain ⟨file, -, rfl⟩ := List.mem_map.mp hentry
    exact (path_of_readableFile hsource).1
  refine hsublist.nodup (Nodup.of_map PathBuf.components ?_)
  rwa [KeyedList.keys, List.map_map, List.map_map]

/-- **The sources of the working tree** are the regular files that are let through and are text. -/
lemma get?_worktree_eq_some_iff {traversal : Traversal}
    (hwalk : checkout.Walked matcher traversal) (hmax : discovery.limits.maxFileBytes ≤ u64Max)
    (h : (worktree discovery traversal deadline).1.Unlimited) :
    get? path (worktree discovery traversal deadline).1.sources = some content ↔
      ∃ bytes, (path.components, WorkFile.regular bytes) ∈ checkout.worktree.leaves ∧
        LetsThrough discovery matcher (matcher.root.join path) path ∧
        fromUtf8 bytes = some content := by
  simp only [worktree] at h ⊢
  obtain ⟨hdiscovered, hsources⟩ := inserts_readFiles _ _ _ h
  have hwithin : WalkWithinLimits discovery traversal deadline :=
    within_of_unlimited ⟨hdiscovered.oversizedFiles, hdiscovered.filesOmittedByLimit,
      hdiscovered.durationLimitReached⟩
  have hperm := files_perm hwalk hwithin
  have hnodup := nodup_keys_readableFiles discovery
    ((hperm.map fun file => file.reportPath.components).nodup_iff.mpr nodup_reportPaths)
  have hempty : (fromDiscovered (discover discovery traversal deadline).1).sources = [] := rfl
  rw [hsources, hempty, insertAll_eq_append (by simpa using hnodup), nil_append,
    get?_eq_some_iff hnodup, mem_filterMap]
  constructor
  · rintro ⟨file, hfile, hsource⟩
    obtain ⟨leaf, bytes, hleaf, hmatched, hexcluded, rfl⟩ :=
      mem_passedFiles_iff.mp (hperm.mem_iff.mp hfile)
    obtain ⟨rfl, hdetect⟩ := path_of_readableFile hsource
    have hlets : LetsThrough discovery matcher (matcher.root.join ⟨leaf⟩) ⟨leaf⟩ :=
      ⟨hdetect, hexcluded, hmatched⟩
    rw [readableFile_regularFile hwalk hmax hwithin hleaf hlets] at hsource
    obtain ⟨text, hutf8, heq⟩ := map_eq_some_iff.mp hsource
    obtain rfl := (Prod.mk.inj heq).2
    exact ⟨bytes, hleaf, hlets, hutf8⟩
  · rintro ⟨bytes, hleaf, hlets, hutf8⟩
    refine ⟨regularFile matcher.root path bytes, hperm.mem_iff.mpr (mem_passedFiles_iff.mpr
      ⟨path.components, bytes, hleaf, hlets.notIgnored, hlets.notExcluded, rfl⟩), ?_⟩
    rw [readableFile_regularFile hwalk hmax hwithin hleaf hlets, hutf8]
    rfl

/-! ### The index and the tree -/

/-- The sources of the entries of which `sourceOf` gives one. -/
lemma get?_entries_eq_some_iff {sourceOf : List String × Tracked → Option (PathBuf × String)}
    (hpath : ∀ entry source, sourceOf entry = some source → source.1 = ⟨entry.1⟩) :
    get? path (insertAll [] (checkout.entries.filterMap sourceOf)) = some content ↔
      ∃ tracked, (path.components, tracked) ∈ checkout.entries ∧
        sourceOf (path.components, tracked) = some (path, content) := by
  have hnodup : (keys (checkout.entries.filterMap sourceOf)).Nodup := by
    have hsublist : ((checkout.entries.filterMap sourceOf).map
        fun source => source.1.components).Sublist (keys checkout.entries) := by
      apply keys_filterMap_sublist
      intro entry _ source hsource
      rw [hpath entry source hsource]
    refine Nodup.of_map PathBuf.components ?_
    rw [KeyedList.keys, List.map_map]
    exact hsublist.nodup checkout.entries_nodup
  rw [insertAll_eq_append (by simpa using hnodup), nil_append,
    get?_eq_some_iff hnodup, mem_filterMap]
  constructor
  · rintro ⟨⟨leaf, tracked⟩, hentry, hsource⟩
    obtain rfl : path = ⟨leaf⟩ := hpath _ _ hsource
    exact ⟨tracked, hentry, hsource⟩
  · rintro ⟨tracked, hentry, hsource⟩
    exact ⟨_, hentry, hsource⟩

lemma unlimited_recordErrors {filter : SnapshotFilter} {snapshot : SourceSnapshot}
    (h : (filter.recordErrors snapshot).Unlimited) : snapshot.Unlimited :=
  ⟨h.oversizedFiles, h.filesOmittedByLimit, h.durationLimitReached⟩

/-- **The sources of the index** are the entries that are let through and have a text. -/
lemma get?_fromIndex_eq_some_iff
    (h : (fromIndex discovery.limits (checkout.index (checkout.filter discovery matcher rejected))
      deadline).1.Unlimited) :
    get? path (fromIndex discovery.limits
        (checkout.index (checkout.filter discovery matcher rejected)) deadline).1.sources =
        some content ↔
      ∃ tracked, (path.components, tracked) ∈ checkout.entries ∧
        LetsThrough discovery matcher (tracked.identity matcher.root path) path ∧
        tracked.object.text = some content := by
  have hinserts := inserts_walkIndex _ _ _ (unlimited_recordErrors h)
  have hsources : (fromIndex discovery.limits
      (checkout.index (checkout.filter discovery matcher rejected)) deadline).1.sources =
      insertAll [] (checkout.entries.filterMap fun entry =>
        readable (checkout.filter discovery matcher rejected) (some ⟨entry.1⟩, entry.2.object)) := by
    refine hinserts.sources.trans ?_
    simp only [index, List.map_map, filterMap_map]
    rfl
  rw [hsources, get?_entries_eq_some_iff fun entry source hsource =>
    (some.inj (readable_eq_some.mp hsource).1).symm]
  refine exists_congr fun tracked => and_congr_right fun hentry => ?_
  rw [readable_eq_some, allows_iff hentry]
  simp

/-- What the walk of the tree meets at the leaves are the entries. -/
lemma reached_visited : reached checkout.visited = checkout.entries := by
  have hnone : ∀ path : List String, skipsPart (fun _ _ => false) false path = false := by
    intro path
    rw [← Bool.not_eq_true, skipsPart_iff]
    rintro ⟨part, rest, -, -, hskip⟩
    exact Bool.noConfusion hskip
  rw [visited, reached_walkOf]
  simp [hnone, entries]

/-- **The sources of the tree** are the entries with a name in UTF-8 that are let through and have a
text; the walk succeeds if the directories have names in UTF-8. -/
lemma fromTree_eq_some {result : SourceSnapshot × Deadline}
    (hresult : fromTree discovery.limits
      (checkout.tree (checkout.filter discovery matcher rejected)) deadline = some result)
    (h : result.1.Unlimited) :
    (∀ entry ∈ checkout.visited, checkout.visitable entry.1 = true) ∧
      ∀ path content, get? path result.1.sources = some content ↔
        ∃ tracked, (path.components, tracked) ∈ checkout.entries ∧
          checkout.named path.components = some path ∧
          LetsThrough discovery matcher (tracked.identity matcher.root path) path ∧
          tracked.object.text = some content := by
  simp only [fromTree] at hresult
  split at hresult
  · cases hresult
  next hfails =>
  cases hresult
  obtain ⟨hinserts, hstopped⟩ := inserts_walkTree _ _ _ (unlimited_recordErrors h)
  have hvisitable : ∀ entry ∈ checkout.visited, checkout.visitable entry.1 = true := by
    rw [hstopped, Bool.not_false, Bool.and_true, tree] at hfails
    simpa using hfails
  refine ⟨hvisitable, fun path content => ?_⟩
  have hentries : (checkout.tree (checkout.filter discovery matcher rejected)).entries =
      checkout.visited.map checkout.treeEntry := by
    rw [tree, takeWhile_eq_self_iff.mpr hvisitable]
  have hsources : (checkout.filter discovery matcher rejected |>.recordErrors
      (walkTree discovery.limits (checkout.tree (checkout.filter discovery matcher rejected)).filter
        (checkout.tree (checkout.filter discovery matcher rejected)).entries {}
        deadline).1.1.snapshot).sources =
      insertAll [] (checkout.entries.filterMap fun entry =>
        readable (checkout.filter discovery matcher rejected)
          (checkout.named entry.1, entry.2.object)) := by
    refine hinserts.sources.trans ?_
    rw [hentries, treeObjects, ← reached_visited, reached, filterMap_filterMap,
      List.filter_map, List.map_map, filterMap_map, filterMap_filter]
    refine congrArg _ (filterMap_congr ?_)
    rintro ⟨leaf, _ | tracked⟩ -
    · rfl
    · cases tracked <;> simp [treeEntry, Tracked.isBlob, readable, Tracked.object,
        Tracked.absent, Blob.text, tree]
  have hnamed : ∀ {leaf : List String} {found : PathBuf},
      checkout.named leaf = some found → found = ⟨leaf⟩ := by
    intro leaf found hfound
    unfold named at hfound
    split at hfound
    · exact (some.inj hfound).symm
    · cases hfound
  refine Iff.trans (by rw [← hsources]; rfl) ((get?_entries_eq_some_iff fun entry source hsource =>
    hnamed (readable_eq_some.mp hsource).1).trans ?_)
  refine exists_congr fun tracked => and_congr_right fun hentry => ?_
  rw [readable_eq_some, allows_iff hentry]

/-! ## Agreement -/

variable (checkout discovery matcher rejected) in
/-- The three snapshots of a checkout, each with its own clock. -/
structure Taken (traversal : Traversal) (deadlines : Fin 3 → Deadline) : Prop where
  walked : checkout.Walked matcher traversal
  fileLimit : discovery.limits.maxFileBytes ≤ u64Max
  worktree : (worktree discovery traversal (deadlines 0)).1.Unlimited
  index : (fromIndex discovery.limits
    (checkout.index (checkout.filter discovery matcher rejected)) (deadlines 1)).1.Unlimited
  tree : ∀ result, fromTree discovery.limits
    (checkout.tree (checkout.filter discovery matcher rejected)) (deadlines 2) = some result →
      result.1.Unlimited

variable (checkout discovery matcher rejected) in
/-- The tree can be read, and the three snapshots hold the same text for every path. -/
def SnapshotsAgree (traversal : Traversal) (deadlines : Fin 3 → Deadline) : Prop :=
  ∃ result, fromTree discovery.limits
      (checkout.tree (checkout.filter discovery matcher rejected)) (deadlines 2) = some result ∧
    ∀ path, get? path (Review.worktree discovery traversal (deadlines 0)).1.sources =
        get? path (fromIndex discovery.limits
          (checkout.index (checkout.filter discovery matcher rejected)) (deadlines 1)).1.sources ∧
      get? path (fromIndex discovery.limits
          (checkout.index (checkout.filter discovery matcher rejected)) (deadlines 1)).1.sources =
        get? path result.1.sources

variable (checkout discovery matcher) in
/-- Nothing is let through that only some of the loaders take for a source: every text file of the
working tree is an entry, so that none is in a submodule or in the directory of the repository; no
link has a text for a target; and the names are UTF-8. -/
structure OnlyCommonSources : Prop where
  files : ∀ path bytes, (path, WorkFile.regular bytes) ∈ checkout.worktree.leaves →
    LetsThrough discovery matcher (matcher.root.join ⟨path⟩) ⟨path⟩ → (fromUtf8 bytes).isSome →
    (path, Tracked.file bytes) ∈ checkout.entries
  links : ∀ path target resolved, (path, Tracked.link target resolved) ∈ checkout.entries →
    LetsThrough discovery matcher resolved ⟨path⟩ → fromUtf8 target = none
  names : ∀ path bytes, (path, Tracked.file bytes) ∈ checkout.entries →
    LetsThrough discovery matcher (matcher.root.join ⟨path⟩) ⟨path⟩ → (fromUtf8 bytes).isSome →
    path.getLast?.all checkout.isUtf8 = true
  directories : ∀ entry ∈ checkout.visited, checkout.visitable entry.1 = true

lemma named_eq_some {path : List String} (h : path.getLast?.all checkout.isUtf8 = true) :
    checkout.named path = some ⟨path⟩ := if_pos h

lemma text_file (bytes : List UInt8) : (Tracked.file bytes).object.text = fromUtf8 bytes := rfl

lemma text_link (target : List UInt8) (resolved : PathBuf) :
    (Tracked.link target resolved).object.text = fromUtf8 target := rfl

section

variable {traversal : Traversal} {deadlines : Fin 3 → Deadline}
variable (h : Taken checkout discovery matcher rejected traversal deadlines)

include h

lemma onlyCommonSources_of_agree
    (hagree : SnapshotsAgree checkout discovery matcher rejected traversal deadlines) :
    OnlyCommonSources checkout discovery matcher := by
  obtain ⟨result, hresult, hequal⟩ := hagree
  obtain ⟨hvisitable, htree⟩ := fromTree_eq_some hresult (h.tree result hresult)
  have hworktree := @get?_worktree_eq_some_iff checkout discovery matcher (deadlines 0)
  have hindex := @get?_fromIndex_eq_some_iff checkout discovery matcher rejected (deadlines 1)
  refine ⟨?_, ?_, ?_, hvisitable⟩
  · intro path bytes hleaf hlets htext
    obtain ⟨content, hutf8⟩ := isSome_iff_exists.mp htext
    have hsource := (hworktree h.walked h.fileLimit h.worktree).mpr ⟨bytes, hleaf, hlets, hutf8⟩
    rw [(hequal _).1, hindex h.index] at hsource
    obtain ⟨tracked, hentry, -, hcontent⟩ := hsource
    cases tracked with
    | file bytes' =>
      obtain rfl := WorkFile.regular.inj
        (eq_of_mem_leaves hleaf (mem_leaves_of_placed hentry rfl))
      exact hentry
    | link target resolved =>
      cases eq_of_mem_leaves hleaf (mem_leaves_of_placed hentry rfl)
    | submodule files => cases hcontent
  · intro path target resolved hentry hlets
    by_contra htext
    obtain ⟨content, hutf8⟩ := ne_none_iff_exists'.mp htext
    have hsource := (hindex h.index).mpr ⟨_, hentry, hlets, hutf8⟩
    rw [← (hequal _).1, hworktree h.walked h.fileLimit h.worktree] at hsource
    obtain ⟨bytes, hleaf, -, -⟩ := hsource
    cases eq_of_mem_leaves hleaf (mem_leaves_of_placed hentry rfl)
  · intro path bytes hentry hlets htext
    obtain ⟨content, hutf8⟩ := isSome_iff_exists.mp htext
    have hsource := (hindex h.index).mpr ⟨_, hentry, hlets, hutf8⟩
    rw [(hequal _).2, htree] at hsource
    obtain ⟨-, -, hnamed, -⟩ := hsource
    unfold named at hnamed
    split at hnamed
    · assumption
    · cases hnamed

lemma agree_of_onlyCommonSources (hcommon : OnlyCommonSources checkout discovery matcher) :
    SnapshotsAgree checkout discovery matcher rejected traversal deadlines := by
  have hsome : ∃ result, fromTree discovery.limits
      (checkout.tree (checkout.filter discovery matcher rejected)) (deadlines 2) = some result := by
    have hfails : (checkout.tree (checkout.filter discovery matcher rejected)).walkFails = false := by
      rw [tree, Bool.not_eq_false', List.all_eq_true]
      exact hcommon.directories
    simp [fromTree, hfails]
  obtain ⟨result, hresult⟩ := hsome
  obtain ⟨-, htree⟩ := fromTree_eq_some hresult (h.tree result hresult)
  refine ⟨result, hresult, fun path => ⟨Option.ext fun content => ?_, Option.ext fun content => ?_⟩⟩
  · rw [get?_worktree_eq_some_iff h.walked h.fileLimit h.worktree, get?_fromIndex_eq_some_iff h.index]
    constructor
    · rintro ⟨bytes, hleaf, hlets, hutf8⟩
      have hentry := hcommon.files path.components bytes hleaf hlets (by simp [hutf8])
      exact ⟨_, hentry, hlets, hutf8⟩
    · rintro ⟨tracked, hentry, hlets, htext⟩
      cases tracked with
      | file bytes => exact ⟨bytes, mem_leaves_of_placed hentry rfl, hlets, htext⟩
      | link target resolved =>
        rw [text_link, hcommon.links path.components target resolved hentry hlets] at htext
        cases htext
      | submodule files => cases htext
  · rw [get?_fromIndex_eq_some_iff h.index, htree]
    refine exists_congr fun tracked => and_congr_right fun hentry => ?_
    refine ⟨fun h => ⟨?_, h⟩, And.right⟩
    obtain ⟨hlets, htext⟩ := h
    cases tracked with
    | file bytes =>
      rw [text_file] at htext
      exact named_eq_some (hcommon.names path.components bytes hentry hlets (by simp [htext]))
    | link target resolved =>
      rw [text_link, hcommon.links path.components target resolved hentry hlets] at htext
      cases htext
    | submodule files => cases htext

end

/-- **When the snapshots of a clean checkout agree.**  Then a comparison of what is found in the
tree with what is found in the working tree or in the index has no change. -/
theorem snapshots_agree_iff {traversal : Traversal} {deadlines : Fin 3 → Deadline}
    (h : Taken checkout discovery matcher rejected traversal deadlines) :
    (SnapshotsAgree checkout discovery matcher rejected traversal deadlines ↔
        OnlyCommonSources checkout discovery matcher) ∧
      (OnlyCommonSources checkout discovery matcher →
        ∀ catalog : (PathBuf → Option String) → Findings.FindingCatalog ℚ, ∀ result,
          fromTree discovery.limits (checkout.tree (checkout.filter discovery matcher rejected))
            (deadlines 2) = some result → ∀ current ∈
            [(Review.worktree discovery traversal (deadlines 0)).1,
              (fromIndex discovery.limits (checkout.index
                (checkout.filter discovery matcher rejected)) (deadlines 1)).1],
          (Findings.compare (catalog fun path => get? path result.1.sources)
            (catalog fun path => get? path current.sources)).changes = []) := by
  have hiff : SnapshotsAgree checkout discovery matcher rejected traversal deadlines ↔
      OnlyCommonSources checkout discovery matcher :=
    ⟨onlyCommonSources_of_agree h, agree_of_onlyCommonSources h⟩
  refine ⟨hiff, fun hcommon catalog result hresult current hcurrent => ?_⟩
  obtain ⟨result', hresult', hequal⟩ := hiff.mpr hcommon
  cases hresult.symm.trans hresult'
  have hsame : (fun path => get? path current.sources) =
      fun path => get? path result.1.sources := by
    funext path
    simp only [mem_cons, not_mem_nil, or_false] at hcurrent
    rcases hcurrent with rfl | rfl
    · exact (hequal path).1.trans (hequal path).2
    · exact (hequal path).2
  rw [hsame]
  by_cases hversion : (catalog fun path => get? path result.1.sources).version = 0
  · rw [Findings.compare, if_pos (.inr hversion)]
    rfl
  · exact Findings.compare_self _ hversion

/-! ### A link next to its target -/

/-- The bytes `pub`. -/
def sourceBytes : List UInt8 := [112, 117, 98]

/-- The bytes `lib.rs`. -/
def targetBytes : List UInt8 := [108, 105, 98, 46, 114, 115]

/-- A checkout of `lib.rs`, to which a link `mod.rs` may point. -/
def librarySources (linked : Bool) : Checkout where
  tracked := ("lib.rs", .leaf (.file sourceBytes)) ::
    if linked then [("mod.rs", .leaf (.link targetBytes ⟨["repo", "lib.rs"]⟩))] else []
  gitDirectory := .node [("HEAD", .leaf (.regular sourceBytes))]
  isUtf8 _ := true
  entries_nodup := by cases linked <;> decide
  files_nodup := by cases linked <;> decide

/-- Rust sources are recognized, and no limit is near. -/
def rustDiscovery : Discovery where
  limits := ⟨10, 100, 1000, 100⟩
  exclusions := []
  detect path := path.fileName.any fun name => name = "lib.rs" || name = "mod.rs"

/-- No ignore file says anything, and hidden files are ignored. -/
def plainMatcher : PathMatcher where
  root := ⟨["repo"]⟩
  policyRoot := ⟨["repo"]⟩
  overrides _ _ := none
  includeHidden := false
  repositoryIgnores := true
  directories _ :=
    { custom := fun _ _ => none, plain := fun _ _ => none, git := fun _ _ => none
      exclude := fun _ _ => none, gitBoundary := false, failed := false }
  global := none

def libraryWalk (linked : Bool) : Traversal where
  items := walkItems plainMatcher plainMatcher.root ⟨[]⟩ (librarySources linked).worktree
  rejected := 0

lemma taken_librarySources (linked : Bool) :
    Taken (librarySources linked) rustDiscovery plainMatcher 0 (libraryWalk linked)
      fun _ => .never := by
  refine ⟨Perm.refl _, by decide, ?_, ?_, ?_⟩
  · cases linked <;> exact ⟨by decide +kernel, by decide +kernel, by decide +kernel⟩
  · cases linked <;> exact ⟨by decide +kernel, by decide +kernel, by decide +kernel⟩
  · have hall : ∀ result ∈ fromTree rustDiscovery.limits ((librarySources linked).tree
        ((librarySources linked).filter rustDiscovery plainMatcher 0)) .never,
        result.1.oversizedFiles = 0 ∧ result.1.filesOmittedByLimit = 0 ∧
          result.1.durationLimitReached = false := by
      cases linked <;> decide +kernel
    intro result hresult
    obtain ⟨h₁, h₂, h₃⟩ := hall result hresult
    exact ⟨h₁, h₂, h₃⟩

theorem snapshots_agree_iff_unlinked :
    SnapshotsAgree (librarySources false) rustDiscovery plainMatcher 0 (libraryWalk false)
      fun _ => .never := by
  refine (snapshots_agree_iff (taken_librarySources false)).1.mpr ⟨?_, ?_, ?_, ?_⟩
  · intro path bytes hleaf hlets _
    have hleaves : (librarySources false).worktree.leaves =
        [([".git", "HEAD"], .regular sourceBytes), (["lib.rs"], .regular sourceBytes)] := rfl
    rw [hleaves] at hleaf
    simp only [mem_cons, Prod.mk.injEq, WorkFile.regular.injEq, not_mem_nil, or_false] at hleaf
    rcases hleaf with ⟨rfl, rfl⟩ | ⟨rfl, rfl⟩
    · exact absurd hlets.detected (by decide)
    · exact mem_singleton.mpr rfl
  · intro path target resolved hentry
    have hentries : (librarySources false).entries = [(["lib.rs"], .file sourceBytes)] := rfl
    rw [hentries] at hentry
    cases mem_singleton.mp hentry
  · intro path bytes _ _ _
    simp [librarySources]
  · intro entry _
    simp [librarySources, visitable]

/-- The index and the tree take the target of a link for a source. -/
theorem not_snapshots_agree :
    Taken (librarySources true) rustDiscovery plainMatcher 0 (libraryWalk true)
        (fun _ => .never) ∧
      ¬ SnapshotsAgree (librarySources true) rustDiscovery plainMatcher 0 (libraryWalk true)
        fun _ => .never := by
  refine ⟨taken_librarySources true, ?_⟩
  rintro ⟨result, -, hequal⟩
  have hworktree : get? ⟨["mod.rs"]⟩
      (Review.worktree rustDiscovery (libraryWalk true) .never).1.sources = none := by
    decide +kernel
  have hindex : get? ⟨["mod.rs"]⟩ (fromIndex rustDiscovery.limits
      ((librarySources true).index ((librarySources true).filter rustDiscovery plainMatcher 0))
      .never).1.sources = some "lib.rs" := by
    decide +kernel
  have hsame := (hequal ⟨["mod.rs"]⟩).1
  rw [hworktree, hindex] at hsame
  cases hsame

end

end Reposcout.Review
