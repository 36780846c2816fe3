import Reposcout.Properties.Review.Snapshot
import Reposcout.Review.Run

/-!
# What a review says about its snapshots

A deep review adds the counters of its two snapshots.  A review in the line mode reports none of
the counters of its only snapshot, and no snapshot of a working tree takes over the errors of the
walker.
-/

namespace Reposcout.Review

open Walk Findings Option

/-- The diagnostics do not say that a snapshot left something out. -/
structure ReviewDiagnostics.Quiet (diagnostics : ReviewDiagnostics) : Prop where
  unreadableFiles : diagnostics.unreadableFiles = 0
  oversizedFiles : diagnostics.oversizedFiles = 0
  oversizedBytes : diagnostics.oversizedBytes = 0
  filesOmittedByLimit : diagnostics.filesOmittedByLimit = 0
  filesOmittedCountIncomplete : diagnostics.filesOmittedCountIncomplete = false
  scanTruncated : diagnostics.scanTruncated = false
  durationLimitReached : diagnostics.durationLimitReached = false

lemma quiet_deepDiagnostics (base current : SourceSnapshot)
    (changedFiles : List ReviewChangedFile) :
    (deepDiagnostics base current changedFiles).Quiet ↔ base.Quiet ∧ current.Quiet := by
  constructor
  · rintro ⟨h₁, h₂, h₃, h₄, h₅, h₆, h₇⟩
    simp only [deepDiagnostics, Nat.add_eq_zero_iff, Bool.or_eq_false_iff] at h₁ h₂ h₃ h₄ h₅ h₆ h₇
    exact ⟨⟨h₁.1, h₂.1, h₃.1, h₄.1, h₅.1, h₆.1, h₇.1⟩, ⟨h₁.2, h₂.2, h₃.2, h₄.2, h₅.2, h₆.2, h₇.2⟩⟩
  · rintro ⟨hbase, hcurrent⟩
    constructor <;>
      simp [deepDiagnostics, hbase.unreadableFiles, hbase.oversizedFiles, hbase.oversizedBytes,
        hbase.filesOmittedByLimit, hbase.filesOmittedCountIncomplete, hbase.scanTruncated,
        hbase.durationLimitReached, hcurrent.unreadableFiles, hcurrent.oversizedFiles,
        hcurrent.oversizedBytes, hcurrent.filesOmittedByLimit,
        hcurrent.filesOmittedCountIncomplete, hcurrent.scanTruncated,
        hcurrent.durationLimitReached]

section

variable {K : Type}

/-- A review in the line mode is always quiet. -/
lemma quiet_filterLines (catalog : FindingCatalog K) (changedFiles : List ReviewChangedFile)
    (scope : DiffScope) : (filterLines catalog changedFiles scope).diagnostics.Quiet :=
  ⟨rfl, rfl, rfl, rfl, rfl, rfl, rfl⟩

/-! ## Whole snapshots -/

/-- No limit and no deadline keeps a part of the current state out of its snapshot. -/
def CurrentWithinLimits (input : ReviewInput K) : Prop :=
  if input.scope = .staged then
    ∀ source, input.repository.index = some source →
      IndexWithinLimits input.discovery.limits source input.deadline
  else
    ∀ traversal, input.repository.worktree = some traversal →
      WorktreeWithinLimits input.discovery traversal input.deadline

/-- Nothing of a reviewed working tree is lost to an error of the walker. -/
def CurrentWithoutErrors (input : ReviewInput K) : Prop :=
  input.scope ≠ .staged → ∀ traversal, input.repository.worktree = some traversal →
    NoWalkErrors input.discovery traversal

/-- How often the clock is asked for a current snapshot within the limits. -/
def currentQuestions (input : ReviewInput K) : ℕ :=
  if input.scope = .staged then
    input.repository.index.elim 0 fun source => source.entries.length
  else
    input.repository.worktree.elim 0 fun traversal =>
      questions traversal.items + 1 + (passedFiles input.discovery traversal.items).length

/-- No limit and no deadline keeps a part of the base out of its snapshot. -/
def BaseWithinLimits (input : ReviewInput K) : Prop :=
  ∀ source, input.repository.base = .tree source → TreeWithinLimits input.discovery.limits source
      (input.deadline.after (currentQuestions input))

/-- **No snapshot behind the review was truncated or skipped a file.** -/
structure SnapshotsWhole (input : ReviewInput K) : Prop where
  current : CurrentWithinLimits input
  errors : CurrentWithoutErrors input
  base : input.mode = some .deep → BaseWithinLimits input

variable {input : ReviewInput K}

lemma quiet_currentSnapshot_iff {current : SourceSnapshot}
    {deadline : Deadline}
    (h : currentSnapshot input.discovery input.repository input.scope input.deadline =
      some (current, deadline)) :
    (current.Quiet ↔ CurrentWithinLimits input) ∧
      (CurrentWithinLimits input → deadline = input.deadline.after (currentQuestions input)) := by
  unfold currentSnapshot at h
  unfold CurrentWithinLimits currentQuestions
  split at h
  · next hstaged =>
    rw [if_pos hstaged, if_pos hstaged]
    obtain ⟨source, hindex, hload⟩ := map_eq_some_iff.mp h
    have hquiet := quiet_fromIndex_iff input.discovery.limits source input.deadline
    have hafter : IndexWithinLimits input.discovery.limits source input.deadline →
        (fromIndex input.discovery.limits source input.deadline).2 =
          input.deadline.after source.entries.length := fun hlimits =>
      deadline_walkIndex source.entries {} input.deadline hlimits.inTime hlimits.objects
    rw [hload] at hquiet hafter
    simp only [hindex, some.injEq, forall_eq', elim_some]
    exact ⟨hquiet, hafter⟩
  · next hstaged =>
    rw [if_neg hstaged, if_neg hstaged]
    obtain ⟨traversal, hwalk, hload⟩ := map_eq_some_iff.mp h
    have hquiet := quiet_worktree_iff input.discovery traversal input.deadline
    have hafter : WorktreeWithinLimits input.discovery traversal input.deadline →
        (worktree input.discovery traversal input.deadline).2 =
          input.deadline.after (questions traversal.items + 1 +
            (passedFiles input.discovery traversal.items).length) := by
      intro hlimits
      obtain ⟨hperm, hdeadline⟩ := discover_of_within hlimits.discovered
      simp only [worktree]
      rw [deadline_readFiles _ _ _ (by rw [hdeadline, hperm.length_eq]; exact hlimits.inTime),
        hdeadline, hperm.length_eq, Deadline.after_after]
    rw [hload] at hquiet hafter
    simp only [hwalk, some.injEq, forall_eq', elim_some]
    exact ⟨hquiet, hafter⟩

lemma quiet_baseSnapshot_iff {result : SourceSnapshot × Deadline}
    (h : baseSnapshot input.discovery.limits input.repository
      (input.deadline.after (currentQuestions input)) = some result) :
    result.1.Quiet ↔ BaseWithinLimits input := by
  unfold baseSnapshot at h
  unfold BaseWithinLimits
  split at h
  · cases h
  · next hbase =>
    cases h
    simp [hbase, SourceSnapshot.quiet_default]
  · next source hbase =>
    rw [hbase, quiet_fromTree_iff h]
    simp

/-! ## The review -/

variable [Field K] [LinearOrder K] {xxh3_128 : List UInt8 → BitVec 128}

lemma quiet_run_deep {report : ReviewReport K}
    (h : run xxh3_128 input = some report) (hmode : input.mode = some .deep) :
    report.diagnostics.Quiet ↔ CurrentWithinLimits input ∧ BaseWithinLimits input := by
  simp only [run, hmode, bind_eq_bind, bind_eq_some_iff, if_true] at h
  obtain ⟨catalog, _, ⟨current, deadline⟩, hcurrent, ⟨base, deadline'⟩, hbase, hreport⟩ := h
  cases hreport
  obtain ⟨hquiet, hafter⟩ := quiet_currentSnapshot_iff hcurrent
  rw [quiet_deepDiagnostics, hquiet, and_comm]
  refine and_congr_right fun hlimits => ?_
  rw [hafter hlimits] at hbase
  exact quiet_baseSnapshot_iff hbase

lemma quiet_run_lines {report : ReviewReport K}
    (h : run xxh3_128 input = some report) (hmode : input.mode ≠ some .deep) :
    report.diagnostics.Quiet := by
  simp only [run, hmode, bind_eq_bind, bind_eq_some_iff, if_false] at h
  obtain ⟨catalog, _, ⟨current, deadline⟩, _, hreport⟩ := h
  cases hreport
  exact quiet_filterLines _ _ _

/-- The reviews whose diagnostics can be trusted: in the deep mode the walker meets no error, or a
limit that is reported cuts one of the snapshots short as well; in the line mode nothing is left
out. -/
def Accounted (input : ReviewInput K) : Prop :=
  if input.mode = some .deep then
    CurrentWithoutErrors input ∨ ¬ (CurrentWithinLimits input ∧ BaseWithinLimits input)
  else CurrentWithinLimits input ∧ CurrentWithoutErrors input

/-- **A review with quiet diagnostics has whole snapshots** exactly if it is accounted for. -/
theorem review_completeness_iff {input : ReviewInput K} {report : ReviewReport K}
    (h : run xxh3_128 input = some report) :
    (report.diagnostics.Quiet → SnapshotsWhole input) ↔ Accounted input := by
  unfold Accounted
  by_cases hmode : input.mode = some .deep
  · rw [if_pos hmode, quiet_run_deep h hmode]
    constructor
    · intro hwhole
      by_cases hlimits : CurrentWithinLimits input ∧ BaseWithinLimits input
      · exact .inl (hwhole hlimits).errors
      · exact .inr hlimits
    · rintro (herrors | hnot) hlimits
      · exact ⟨hlimits.1, herrors, fun _ => hlimits.2⟩
      · exact absurd hlimits hnot
  · rw [if_neg hmode]
    constructor
    · intro hwhole
      have hwhole := hwhole (quiet_run_lines h hmode)
      exact ⟨hwhole.current, hwhole.errors⟩
    · rintro ⟨hlimits, herrors⟩ _
      exact ⟨hlimits, herrors, fun hdeep => absurd hdeep hmode⟩

end

/-! ## A review that leaves out a large file -/

/-- A working tree with one file of five bytes, of which at most four may be read. -/
def largeFile : ReviewInput ℚ where
  mode := some .lines
  scope := .working
  discovery := { limits := ⟨10, 4, 100, 100⟩, exclusions := [], detect := fun _ => true }
  repository :=
    { worktree := some
        { items :=
            [.entry 0 none, .entry 1 (some
                { absolutePath := ⟨["repo", "large.rs"]⟩
                  reportPath := ⟨["large.rs"]⟩
                  metadata := some ⟨true, false, 5⟩
                  opened := none })]
          rejected := 0 }
      index := none
      base := .unborn }
  changedFiles := []
  deadline := .never
  catalog := some fun _ => ⟨1, []⟩

/-- The report of that review: no finding, and nothing left out. -/
def largeFileReport : ReviewReport ℚ := filterLines ⟨1, []⟩ [] .working

lemma run_largeFile : run (fun _ => 0) largeFile = some largeFileReport := rfl

lemma not_currentWithinLimits_largeFile : ¬ CurrentWithinLimits largeFile := by
  intro h
  have hcurrent : currentSnapshot largeFile.discovery largeFile.repository largeFile.scope
      largeFile.deadline = some (worktree largeFile.discovery _ .never) := rfl
  have hquiet := (quiet_currentSnapshot_iff hcurrent).1.mpr h
  cases hquiet.scanTruncated

theorem review_completeness_iff_largeFile :
    (largeFileReport.diagnostics.Quiet → SnapshotsWhole largeFile) ↔ Accounted largeFile :=
  review_completeness_iff run_largeFile

theorem not_review_completeness_largeFile :
    ∃ report, run (fun _ => 0) largeFile = some report ∧ report.diagnostics.Quiet ∧
      ¬ SnapshotsWhole largeFile :=
  ⟨largeFileReport, run_largeFile, quiet_filterLines _ _ _,
    fun h => not_currentWithinLimits_largeFile h.current⟩

end Reposcout.Review
