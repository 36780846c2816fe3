import Reposcout.Properties.Walk.Discovery
import Reposcout.Walk.Walker

/-!
# What discovery passes on

As long as no limit is hit and the deadline has not passed, discovery passes on every file of the
walk that is not excluded.  For a walk of a working tree these are the regular files of which the
ignore policy matches neither the path nor a directory above it.
-/

namespace Reposcout.Walk

open List Option DiscoveryStats ReadBudget NamedTree

/-! ## Statistics of a walk without a limit -/

/-- No limit and no deadline has kept a file out. -/
structure DiscoveryStats.Unlimited (stats : DiscoveryStats) : Prop where
  oversizedFiles : stats.oversizedFiles = 0
  filesOmittedByLimit : stats.filesOmittedByLimit = 0
  durationLimitReached : stats.durationLimitReached = false

/-- Whatever the statistics flag is among their counts as well. -/
def DiscoveryStats.Counts (stats : DiscoveryStats) : Prop := stats.Unlimited → stats.Quiet

namespace DiscoveryStats

variable {stats : DiscoveryStats} {n : ℕ}

@[simp] lemma not_unlimited_oversized : ¬ (stats.oversized n).Unlimited :=
  fun h => Nat.succ_ne_zero _ h.oversizedFiles

@[simp] lemma not_unlimited_omitted : ¬ (stats.omitted n).Unlimited :=
  fun h => Nat.succ_ne_zero _ h.filesOmittedByLimit

@[simp] lemma not_unlimited_tooManyFiles : ¬ stats.tooManyFiles.Unlimited :=
  fun h => Nat.succ_ne_zero _ h.filesOmittedByLimit

@[simp] lemma not_unlimited_outOfTime : ¬ stats.outOfTime.Unlimited :=
  fun h => Bool.noConfusion h.durationLimitReached

lemma counts_default : ({} : DiscoveryStats).Counts := fun _ => quiet_default

lemma Counts.of_iff {next : DiscoveryStats} (h : stats.Counts)
    (hunlimited : next.Unlimited → stats.Unlimited) (hquiet : next.Quiet ↔ stats.Quiet) :
    next.Counts :=
  fun hnext => hquiet.mpr (h (hunlimited hnext))

lemma Counts.walkerError (h : stats.Counts) : stats.walkerError.Counts :=
  h.of_iff (fun ⟨h₁, h₂, h₃⟩ => ⟨h₁, h₂, h₃⟩) quiet_walkerError

lemma Counts.observe (h : stats.Counts) : stats.observe.Counts :=
  h.of_iff (fun ⟨h₁, h₂, h₃⟩ => ⟨h₁, h₂, h₃⟩) quiet_observe

lemma Counts.accept (h : stats.Counts) : (stats.accept n).Counts :=
  h.of_iff (fun ⟨h₁, h₂, h₃⟩ => ⟨h₁, h₂, h₃⟩) quiet_accept

end DiscoveryStats

section

variable {discovery : Discovery} {stats : DiscoveryStats}

lemma counts_acceptRecognizedFile (limits : Limits) (file : WalkFile)
    (h : stats.Counts) : (acceptRecognizedFile limits file stats).2.Counts := by
  unfold acceptRecognizedFile
  split
  · exact h.walkerError
  · split_ifs
    · exact fun hnot => absurd hnot not_unlimited_oversized
    · exact fun hnot => absurd hnot not_unlimited_omitted
    · exact h.accept

lemma counts_processFile (file : WalkFile) (files : List WalkFile)
    (h : stats.Counts) : (processFile discovery file files stats).2.2.Counts := by
  have haccept := counts_acceptRecognizedFile discovery.limits file h.observe
  unfold processFile
  split
  · exact h
  dsimp only
  split_ifs
  · exact fun hnot => absurd hnot not_unlimited_tooManyFiles
  · split
    · next heq => simpa only [heq] using haccept
    · next heq => simpa only [heq] using haccept
  · exact h.observe

lemma counts_stepItem (item : WalkItem) (files : List WalkFile)
    (h : stats.Counts) : (stepItem discovery item files stats).2.2.Counts := by
  match item with
  | .error => exact h.walkerError
  | .entry _ none => exact h
  | .entry _ (some file) => exact counts_processFile file files h

/-- **The statistics of a walk** count what they flag. -/
lemma counts_collectFiles (discovery : Discovery) (items : List WalkItem) (collected : Collected)
    (h : collected.stats.Counts) : (collectFiles discovery items collected).stats.Counts := by
  induction items generalizing collected with
  | nil => exact h
  | cons item rest ih =>
    obtain ⟨files, stats, deadline⟩ := collected
    by_cases hcovers : deadline.Covers item.questions
    · rw [collectFiles_cons hcovers]
      dsimp only
      split_ifs
      · exact counts_stepItem item files h
      · exact ih _ (counts_stepItem item files h)
    · rcases collectFiles_cons_late discovery rest files stats hcovers with ⟨_, heq⟩ | heq
      · rw [heq]
        exact ih _ h
      · rw [heq]
        exact fun hnot => absurd hnot not_unlimited_outOfTime

/-- A walk of which no limit and no deadline keeps a part out. -/
structure WalkWithinLimits (discovery : Discovery) (traversal : Traversal) (deadline : Deadline) :
    Prop where
  inTime : deadline.Covers (questions traversal.items + 1)
  files : FilesWithinLimits discovery traversal.items 0 0

lemma within_of_unlimited {traversal : Traversal} {deadline : Deadline}
    (h : (finishStats traversal.rejected
      (collectFiles discovery traversal.items { deadline })).Unlimited) :
    WalkWithinLimits discovery traversal deadline := by
  have hcounts := counts_collectFiles discovery traversal.items { deadline }
    counts_default
  unfold finishStats at h
  split at h
  · exact absurd h not_unlimited_outOfTime
  next hpassed =>
  have hunlimited : (collectFiles discovery traversal.items { deadline }).stats.Unlimited :=
    ⟨h.oversizedFiles, h.filesOmittedByLimit, h.durationLimitReached⟩
  obtain ⟨hcovers, hlimits⟩ := within_of_quiet traversal.items { deadline } (Nat.zero_le _)
    (Nat.zero_le _) (hcounts hunlimited) (Bool.not_eq_true _ ▸ hpassed)
  exact ⟨hcovers, hlimits⟩

lemma files_of_within {traversal : Traversal} {deadline : Deadline}
    (h : WalkWithinLimits discovery traversal deadline) :
    (discover discovery traversal deadline).1.files.Perm
      (passedFiles discovery traversal.items) := by
  obtain ⟨hfiles, -, -⟩ := collectFiles_of_within traversal.items { deadline }
    (Deadline.covers_add.mp h.inTime).1 h.files
  have hsorted := KeyedList.sortBy_perm fileOrder
    (collectFiles discovery traversal.items { deadline }).files
  simpa [discover, hfiles] using hsorted

end

/-! ## Reading a regular file -/

variable (bytes : List UInt8)

lemma openUnderRoot_openedComponents {path : List String} (h : path ≠ []) :
    openUnderRoot (openedComponents bytes path) =
      .ok ⟨some ⟨true, false, bytes.length⟩, some ⟨true, false, bytes.length⟩, some bytes⟩ := by
  induction path with
  | nil => exact absurd rfl h
  | cons name rest ih =>
    cases rest with
    | nil => rfl
    | cons next rest =>
      have hne : openedComponents bytes (next :: rest) ≠ [] := by
        cases rest <;> simp [openedComponents]
      rw [openedComponents, openUnderRoot, if_neg hne]
      exact ih (cons_ne_nil _ _)

lemma openedComponents_ne_nil {path : List String} (h : path ≠ []) :
    openedComponents bytes path ≠ [] := by
  rcases path with _ | ⟨name, _ | ⟨next, rest⟩⟩
  · exact absurd rfl h
  · simp [openedComponents]
  · simp [openedComponents]

lemma openedComponents_normal (path : List String) :
    ((openedComponents bytes path).any fun component => component.1 = .other) = false := by
  induction path with
  | nil => rfl
  | cons name rest ih =>
    cases rest with
    | nil => rfl
    | cons next rest =>
      rw [openedComponents, any_cons, ih]
      rfl

/-- A regular file that is small enough is read; the limit is a `u64`. -/
lemma readTextBoundedUnderRoot_regularFile {root path : PathBuf} {bytes : List UInt8}
    {maxBytes : ℕ} (hpath : path.components ≠ []) (hbytes : bytes.length ≤ maxBytes)
    (hmax : maxBytes ≤ u64Max) :
    readTextBoundedUnderRoot (regularFile root path bytes) maxBytes =
      match fromUtf8 bytes with
      | some content => .content content
      | none => .unreadable := by
  have hcap : bytes.length ≤ max maxBytes 1 := le_trans hbytes (le_max_left _ _)
  have htake : bytes.take (satAdd (max maxBytes 1) 1) = bytes := by
    apply take_of_length_le
    unfold satAdd
    omega
  have hread : (readFromRoot (new maxBytes maxBytes 1)
      ⟨openedComponents bytes path.components, false, false⟩).2 = decodeContent bytes := by
    have hstart : ¬ (openedComponents bytes path.components = [] ∨
        ((openedComponents bytes path.components).any fun component =>
          component.1 = .other) = true) := by
      simp [openedComponents_ne_nil bytes hpath, openedComponents_normal]
    have hbudget : ¬ ((new maxBytes maxBytes 1).remainingFiles = 0 ∨
        (new maxBytes maxBytes 1).remainingTotalBytes = 0) := by
      simp only [new]
      omega
    unfold readFromRoot
    rw [if_neg hstart, if_neg Bool.false_ne_true, if_neg hbudget,
      openUnderRoot_openedComponents bytes hpath]
    simp only [new, min_self, not_true_eq_false, if_false, gt_iff_lt,
      Nat.not_lt.mpr hcap, FileHandle.readToEnd, map_some, htake, Bool.false_eq_true]
  rw [readTextBoundedUnderRoot, regularFile]
  dsimp only
  rw [hread, decodeContent]
  cases fromUtf8 bytes <;> rfl

/-! ## The files of a working tree -/

/-- What discovery makes of a leaf of a working tree. -/
def regularAt (root target : PathBuf) : List String × WorkFile → Option WalkFile
  | (path, .regular bytes) => some (regularFile root (target.join ⟨path⟩) bytes)
  | (_, .other) => none

/-- **The files of a walk** of a working tree. -/
lemma walkedFiles_walkItems (discovery : Discovery) (matcher : PathMatcher)
    (root target : PathBuf) (tree : WorkTree) :
    walkedFiles discovery (walkItems matcher root target tree) =
      ((tree.leaves.filter fun entry =>
          !skipsPart (walkerSkips matcher root target) false entry.1).filterMap
        (regularAt root target)).filter fun file => file.absolutePath ∉ discovery.exclusions := by
  rw [← reached_walk, walkedFiles, walkItems, filterMap_map, reached,
    filterMap_filterMap, filter_filterMap]
  apply filterMap_congr
  rintro ⟨path, _ | ⟨bytes | _⟩⟩ -
  · rfl
  · simp only [Function.comp_apply, walkItem, WalkItem.file?, map_some, bind_some,
      regularAt, filter_some, decide_not, Bool.not_eq_true', decide_eq_false_iff_not]
    split_ifs <;> rfl
  · rfl

lemma skipsPart_walkerSkips_root (matcher : PathMatcher) (path : List String) :
    skipsPart (walkerSkips matcher matcher.root ⟨[]⟩) false path =
      matcher.matched ⟨path⟩ false := by
  have hskips : walkerSkips matcher matcher.root ⟨[]⟩ = fun part isDir =>
      skipsPart (matcher.stopsAt matcher.root) isDir part := by
    funext part isDir
    rw [walkerSkips, PathMatcher.matchedAbsolute_join, PathMatcher.matched_eq]
    rfl
  rw [hskips, skipsPart_skipsPart, PathMatcher.matched_eq]

end Reposcout.Walk
