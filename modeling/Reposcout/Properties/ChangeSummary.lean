import Reposcout.ChangeSummary
import Reposcout.Properties.Graph.Impact

/-!
# What a change summary promises

The lists of a summary share one budget of paths, each is the front of its full list, and its
counters are exact.  High confidence means that the scans were complete, that the graph has no gap
and that it covers the changed files.
-/

namespace Reposcout.Change

open Context Graph List Evidence

/-! ## One budget -/

/-- What is listed is the front of the full list, and the counters say how much that is. -/
structure Shows {α : Type} (full listed : List α) (total shown omitted : ℕ) : Prop where
  front : listed <+: full
  total_eq : total = full.length
  shown_eq : shown = listed.length
  split : total = shown + omitted

lemma Shows.of_front {α : Type} {full listed : List α} (h : listed <+: full) :
    Shows full listed full.length listed.length (full.length - listed.length) where
  front := h
  total_eq := rfl
  shown_eq := rfl
  split := (Nat.add_sub_cancel' h.length_le).symm

lemma take_append_take_prefix {α : Type} {first second : List α} {m n : ℕ}
    (h : m < first.length → n = 0) : first.take m ++ second.take n <+: first ++ second := by
  by_cases hm : m < first.length
  · rw [h hm, take_zero, append_nil]
    exact (List.take_prefix m first).trans (prefix_append first second)
  · rw [take_of_length_le (Nat.le_of_not_lt hm), prefix_append_right_inj]
    exact take_prefix n second

/-- Grants that each fit in what the earlier ones left over fit in the budget together. -/
lemma grants_le {budget changed relevant tests direct reading transitive outside validations : ℕ}
    (hchanged : changed ≤ budget)
    (hrelevant : relevant ≤ budget - changed)
    (htests : tests ≤ budget - changed - relevant)
    (hdirect : direct ≤ budget - changed - relevant - tests)
    (hreading : reading ≤ budget - changed - relevant - tests - direct)
    (htransitive : transitive ≤ budget - changed - relevant - tests - direct - reading)
    (houtside : outside ≤ budget - changed - relevant - tests - direct - reading - transitive)
    (hvalidations : validations ≤
      budget - changed - relevant - tests - direct - reading - transitive - outside) :
    changed + (relevant + outside) + tests + (direct + transitive) + reading + validations ≤
      budget := by
  omega

def ChangeSummary.pathsShown (summary : ChangeSummary) : ℕ :=
  summary.changed.files.length + summary.coverage.gaps.length + summary.tests.files.length +
    summary.impact.files.length + summary.readingOrder.length + summary.validations.length

structure Within (summary : ChangeSummary) : Prop where
  paths : summary.pathsShown ≤ maxPathEntries
  gaps : summary.coverage.gaps.length ≤ maxGapEntries
  validations : summary.validations.length ≤ maxValidations

lemma within_project (evidence : Evidence) (scope : String) :
    Within (evidence.project scope) where
  paths := by
    simp only [ChangeSummary.pathsShown, project, length_append]
    apply grants_le
    · rw [length_map]
      exact length_take_le _ _
    · exact (length_take_le _ _).trans (min_le_right _ _)
    · exact length_take_le _ _
    · rw [length_map]
      exact length_take_le _ _
    · exact length_take_le _ _
    · rw [length_map]
      exact length_take_le _ _
    · exact (length_take_le _ _).trans (min_le_right _ _)
    · exact (length_take_le _ _).trans (min_le_right _ _)
  gaps := by
    simp only [project, length_append]
    have hfirst := fun room => (length_take_le (min maxGapEntries room)
      evidence.gaps.relevant).trans (min_le_left _ _)
    have hsecond := fun first room => (length_take_le (min (maxGapEntries - first) room)
      evidence.gaps.outside).trans (min_le_left _ _)
    exact (Nat.add_le_add_left (hsecond _ _) _).trans (Nat.add_sub_cancel' (hfirst _)).le
  validations := by
    simp only [project]
    exact (length_take_le _ _).trans (min_le_left _ _)

/-- Every list of a summary against the full list it is cut from. -/
structure Projects (evidence : Evidence) (summary : ChangeSummary) : Prop where
  changed : Shows (evidence.changedPaths.map evidence.changeFile) summary.changed.files
    summary.changed.total summary.changed.shown summary.changed.omitted
  gaps : Shows (evidence.gaps.relevant ++ evidence.gaps.outside) summary.coverage.gaps
    (evidence.gaps.relevant.length + evidence.gaps.outside.length) summary.coverage.gaps.length
    summary.coverage.gapsOmitted
  tests : Shows evidence.testFiles summary.tests.files summary.tests.total summary.tests.shown
    summary.tests.omitted
  impact : Shows
    (evidence.direct.map evidence.directFile ++ evidence.transitive.map evidence.transitiveFile)
    summary.impact.files (summary.impact.directTotal + summary.impact.transitiveTotal)
    summary.impact.shown summary.impact.omitted
  readingOrder : Shows evidence.contextEntries summary.readingOrder summary.readingOrderTotal
    summary.readingOrderShown summary.readingOrderOmitted
  validations : Shows evidence.allValidations summary.validations evidence.allValidations.length
    summary.validations.length summary.validationsOmitted

lemma gaps_front {relevant outside : List ChangeGap} {room later : ℕ}
    (hlater : later ≤ room - (relevant.take (min maxGapEntries room)).length) :
    relevant.take (min maxGapEntries room) ++ outside.take (min (maxGapEntries -
          (relevant.take (min maxGapEntries room)).length) later) <+:
      relevant ++ outside := by
  apply take_append_take_prefix
  intro hcut
  rw [length_take_of_le hcut.le] at hlater ⊢
  omega

lemma impact_front (evidence : Evidence) {room later : ℕ}
    (hlater : later ≤ room - ((evidence.direct.take room).map evidence.directFile).length) :
    (evidence.direct.take room).map evidence.directFile ++
        (evidence.transitive.take later).map evidence.transitiveFile <+:
      evidence.direct.map evidence.directFile ++
        evidence.transitive.map evidence.transitiveFile := by
  rw [length_map] at hlater
  rw [map_take, map_take]
  apply take_append_take_prefix
  intro hcut
  rw [length_map] at hcut
  rw [length_take_of_le hcut.le] at hlater
  omega

lemma projects_project (evidence : Evidence) (scope : String) :
    Projects evidence (evidence.project scope) where
  changed := by
    have hfront : (evidence.changedPaths.take maxPathEntries).map evidence.changeFile <+:
        evidence.changedPaths.map evidence.changeFile :=
      (List.take_prefix _ _).map _
    have h := Shows.of_front hfront
    rwa [length_map] at h
  gaps := by
    simp only [project]
    rw [← length_append]
    apply Shows.of_front
    apply gaps_front
    iterate 4 apply (Nat.sub_le _ _).trans
    exact le_rfl
  tests := by
    simp only [project]
    exact Shows.of_front (List.take_prefix _ _)
  impact := by
    simp only [project]
    have hlength : evidence.direct.length + evidence.transitive.length =
        (evidence.direct.map evidence.directFile ++
          evidence.transitive.map evidence.transitiveFile).length := by
      rw [length_append, length_map, length_map]
    rw [hlength]
    apply Shows.of_front
    apply impact_front
    exact Nat.sub_le _ _
  readingOrder := by
    simp only [project]
    exact Shows.of_front (List.take_prefix _ _)
  validations := by
    simp only [project]
    exact Shows.of_front (List.take_prefix _ _)

/-! ## Gaps of the graph -/

/-- Nothing is wrong with the file. -/
def GraphDiagnosticFact.Clean (fact : GraphDiagnosticFact) : Prop :=
  fact.unreadable = false ∧ fact.parseErrors = 0 ∧ fact.unresolvedImports = 0 ∧
    fact.configErrors = 0

def ChangeGap.Clean (gap : ChangeGap) : Prop :=
  gap.unreadable = false ∧ gap.parseErrors = 0 ∧ gap.unresolvedImports = 0 ∧ gap.configErrors = 0

lemma satAdd_eq_zero_iff {a b : ℕ} : satAdd a b = 0 ↔ a = 0 ∧ b = 0 := by
  have hmax : 0 < u64Max := by decide
  unfold satAdd
  omega

lemma isEmpty_iff {counts : ChangeGapCounts} :
    counts.isEmpty = true ↔ counts.unreadableFiles = 0 ∧ counts.parseErrors = 0 ∧
      counts.unresolvedImports = 0 ∧ counts.configErrors = 0 := by
  simp [ChangeGapCounts.isEmpty, and_assoc]

lemma isEmpty_addGapCounts_iff {counts : ChangeGapCounts} {gap : ChangeGap} :
    (addGapCounts counts gap).isEmpty = true ↔ counts.isEmpty = true ∧ gap.Clean := by
  have hflag : gap.unreadable.toNat = 0 ↔ gap.unreadable = false := by
    cases gap.unreadable <;> decide
  rw [isEmpty_iff, isEmpty_iff]
  simp only [addGapCounts, satAdd_eq_zero_iff, hflag, ChangeGap.Clean]
  tauto

def GapClasses.Empty (classes : GapClasses) : Prop :=
  classes.relevantCounts.isEmpty = true ∧ classes.outsideCounts.isEmpty = true

lemma empty_fileGap_iff {classes : GapClasses} {gap : ChangeGap} :
    (fileGap classes gap).Empty ↔ classes.Empty ∧ gap.Clean := by
  unfold fileGap GapClasses.Empty
  split <;> rw [isEmpty_addGapCounts_iff] <;> tauto

lemma empty_classifyGaps_iff {facts : List GraphDiagnosticFact}
    {changed knownImpact selectedContext : List String} :
    (classifyGaps facts changed knownImpact selectedContext).Empty ↔
      ∀ fact ∈ facts, fact.Clean := by
  have hfold : ∀ classes : GapClasses, (facts.foldl (fun classes fact =>
      fileGap classes (changeGap changed knownImpact selectedContext fact)) classes).Empty ↔
        classes.Empty ∧ ∀ fact ∈ facts, fact.Clean := by
    induction facts with
    | nil => simp
    | cons fact rest ih =>
      intro classes
      have hclean : (changeGap changed knownImpact selectedContext fact).Clean ↔ fact.Clean :=
        Iff.rfl
      rw [foldl_cons, ih, empty_fileGap_iff, hclean, forall_mem_cons, and_assoc]
  have hinitial : (⟨[], [], {}, {}⟩ : GapClasses).Empty := ⟨rfl, rfl⟩
  exact (hfold _).trans (and_iff_right hinitial)

/-! ## High confidence -/

/-- Neither truncated nor disturbed by errors of the walker. -/
def ScanDiagnostics.Complete (diagnostics : ScanDiagnostics) : Prop :=
  diagnostics.scanTruncated = false ∧ diagnostics.walkerErrors = 0

lemma diagnosticsIncomplete_eq_false_iff {diagnostics : ScanDiagnostics} :
    diagnosticsIncomplete diagnostics = false ↔ diagnostics.Complete := by
  unfold diagnosticsIncomplete ScanDiagnostics.Complete
  rw [Bool.or_eq_false_iff, decide_eq_false_iff_not, Nat.not_lt, Nat.le_zero]

/-- A verdict is high if none of the cases with another verdict applies. -/
lemma ite_high_iff {p : Prop} [Decidable p] {other rest : String} (hother : other ≠ "high") :
    (if p then other else rest) = "high" ↔ ¬p ∧ rest = "high" := by
  by_cases hp : p
  · rw [if_pos hp]
    exact ⟨fun h => absurd h hother, fun h => absurd hp h.1⟩
  · rw [if_neg hp]
    exact (and_iff_right hp).symm

lemma executive_high_iff {evidence : Evidence} :
    evidence.executive.confidence = "high" ↔ evidence.graphCovered ≠ [] ∧
      evidence.observedScopeConfidence = "high" ∧ evidence.discoveryCompleteness = "high" := by
  simp only [executive, executiveConfidence]
  rw [ite_high_iff (by decide), length_eq_zero_iff]
  refine and_congr_right fun _ => ?_
  split
  · exact ⟨fun _ => ‹_›, fun _ => rfl⟩
  · exact ⟨fun h => absurd h (by decide), fun h => absurd h ‹_›⟩

section

variable {classifier : PathClassifier} {sourceStem : String → String} {inputs : Inputs}

lemma observed_high_iff :
    (evidence classifier sourceStem inputs).observedScopeConfidence = "high" ↔
      (evidence classifier sourceStem inputs).graphEligible ≠ [] ∧
      (evidence classifier sourceStem inputs).graphCovered ≠ [] ∧
      (evidence classifier sourceStem inputs).graphEligible.length ≤
        (evidence classifier sourceStem inputs).graphCovered.length ∧
      (evidence classifier sourceStem inputs).gaps.relevantCounts.isEmpty = true := by
  simp only [evidence]
  rw [ite_high_iff (by decide), ite_high_iff (by decide), ite_high_iff (by decide), not_or,
    Nat.not_lt, Bool.not_not_eq]
  tauto

lemma discovery_high_iff :
    (evidence classifier sourceStem inputs).discoveryCompleteness = "high" ↔
      (evidence classifier sourceStem inputs).graphCovered ≠ [] ∧
      (evidence classifier sourceStem inputs).gaps.Empty ∧
      inputs.scanDiagnostics.Complete ∧ inputs.discoveryDiagnostics.Complete := by
  simp only [evidence, GapClasses.Empty, ← diagnosticsIncomplete_eq_false_iff]
  rw [ite_high_iff (by decide), ite_high_iff (by decide), not_or, not_or, Bool.not_not_eq,
    Bool.not_not_eq, Bool.not_eq_true, Bool.or_eq_false_iff]
  tauto

lemma mem_graphEligible_iff {name : String} :
    name ∈ (evidence classifier sourceStem inputs).graphEligible ↔
      (∃ path ∈ inputs.changed, path.key = name) ∧
        classifier.isFirstClass (PathBuf.ofString name) = true := by
  simp only [evidence]
  rw [mem_filter, KeyedList.mem_eraseReps, KeyedList.mem_sortBy, mem_map]

/-- The impact analysis covers the file. -/
def Inputs.Covers (inputs : Inputs) (name : String) : Prop :=
  ∃ impact ∈ inputs.impact, name ∈ impact.graphChangedFiles

lemma mem_graphCovered_iff {name : String} :
    name ∈ (evidence classifier sourceStem inputs).graphCovered ↔ inputs.Covers name := by
  simp only [evidence, Inputs.Covers]
  cases inputs.impact with
  | none => simp
  | some impact => simp

/-- The files that the impact analysis covers are changed files of a first-class language. -/
def ImpactOfChange (classifier : PathClassifier) (inputs : Inputs) : Prop :=
  ∀ name, inputs.Covers name → (∃ path ∈ inputs.changed, path.key = name) ∧
    classifier.isFirstClass (PathBuf.ofString name) = true

/-- As many covered files as eligible ones, all of them eligible, are all the eligible ones. -/
lemma covers_of_length_le (himpact : ImpactOfChange classifier inputs)
    (hlength : (evidence classifier sourceStem inputs).graphEligible.length ≤
      (evidence classifier sourceStem inputs).graphCovered.length) {path : PathBuf}
    (hpath : path ∈ inputs.changed)
    (hfirst : classifier.isFirstClass (PathBuf.ofString path.key) = true) :
    inputs.Covers path.key := by
  have hsubset : (evidence classifier sourceStem inputs).graphCovered ⊆
      (evidence classifier sourceStem inputs).graphEligible := fun name hname =>
    mem_graphEligible_iff.mpr (himpact name (mem_graphCovered_iff.mp hname))
  have hnodup : (evidence classifier sourceStem inputs).graphCovered.Nodup := nodup_dedup _
  have hperm := (subperm_of_subset hnodup hsubset).perm_of_length_le hlength
  have heligible : path.key ∈ (evidence classifier sourceStem inputs).graphEligible :=
    mem_graphEligible_iff.mpr ⟨⟨path, hpath, rfl⟩, hfirst⟩
  exact mem_graphCovered_iff.mp (hperm.mem_iff.mpr heligible)

/-- What high confidence stands for. -/
structure Assured (classifier : PathClassifier) (inputs : Inputs) : Prop where
  gapless : ∀ fact ∈ inputs.graphDiagnostics, fact.Clean
  scanned : inputs.scanDiagnostics.Complete
  discovered : inputs.discoveryDiagnostics.Complete
  /-- Coverage is decided from the number of covered files. -/
  covered : ImpactOfChange classifier inputs → ∀ path ∈ inputs.changed,
    classifier.isFirstClass (PathBuf.ofString path.key) = true → inputs.Covers path.key

lemma assured_of_high
    (h : (build classifier sourceStem inputs).executive.confidence = "high") :
    Assured classifier inputs := by
  obtain ⟨_, hobserved, hdiscovery⟩ := executive_high_iff.mp h
  obtain ⟨_, _, hlength, _⟩ := observed_high_iff.mp hobserved
  obtain ⟨_, hgaps, hscan, hplanned⟩ := discovery_high_iff.mp hdiscovery
  refine ⟨empty_classifyGaps_iff.mp hgaps, hscan, hplanned, ?_⟩
  intro himpact path hpath hfirst
  exact covers_of_length_le himpact hlength hpath hfirst

end

/-- **The summary of a change.**  The paths shown share one budget, with limits of their own for
gaps and validations; every list is the front of its full list with exact counters; and high
confidence means complete scans, a graph without gaps and, for an impact analysis of the change,
that every eligible changed file is covered. -/
theorem build_shares_budget (classifier : PathClassifier) (sourceStem : String → String)
    (inputs : Inputs) :
    Within (build classifier sourceStem inputs) ∧
    Projects (evidence classifier sourceStem inputs) (build classifier sourceStem inputs) ∧
    ((build classifier sourceStem inputs).executive.confidence = "high" →
      Assured classifier inputs) :=
  ⟨within_project _ _, projects_project _ _, assured_of_high⟩

/-! ## Sizes are compared, not sets -/

namespace OneFile

/-- Every file is source code of a first-class language, and none is a test. -/
def classifier : PathClassifier where
  isCode := fun _ => true
  isFirstClass := fun _ => true
  isTestFile := fun _ => false
  testStemKeys := fun _ => []
  isEntrypoint := fun _ => false

/-- One file has changed, and the impact analysis covers one file. -/
def inputs (covered : String) : Inputs where
  scope := "working"
  changed := [⟨["a.rs"]⟩]
  context := none
  files := []
  impact := some ⟨["a.rs"], [covered], [], [], 0, 0, 0, "high"⟩
  graphDiagnostics := []
  scanDiagnostics := ⟨false, 0⟩
  discoveryDiagnostics := ⟨false, 0⟩

end OneFile

/-- Confidence in a summary with every file covered can be high. -/
theorem assured_oneFile :
    ((build OneFile.classifier id (OneFile.inputs "a.rs")).executive.confidence = "high") ∧
      Assured OneFile.classifier (OneFile.inputs "a.rs") := by
  have hhigh : (build OneFile.classifier id (OneFile.inputs "a.rs")).executive.confidence =
      "high" := by
    decide +kernel
  exact ⟨hhigh, (build_shares_budget OneFile.classifier id (OneFile.inputs "a.rs")).2.2 hhigh⟩

/-- An impact analysis that covers another file than the changed one also gives high
confidence. -/
theorem not_covered_of_high :
    ¬ ∀ (classifier : PathClassifier) (sourceStem : String → String) (inputs : Inputs),
      (build classifier sourceStem inputs).executive.confidence = "high" →
        ∀ path ∈ inputs.changed, classifier.isFirstClass (PathBuf.ofString path.key) = true →
            inputs.Covers path.key := by
  intro h
  have hhigh : (build OneFile.classifier id (OneFile.inputs "other.rs")).executive.confidence =
      "high" := by
    decide +kernel
  obtain ⟨impact, himpact, hmem⟩ :=
    h OneFile.classifier id (OneFile.inputs "other.rs") hhigh ⟨["a.rs"]⟩ mem_cons_self rfl
  cases himpact
  exact nomatch hmem

end Reposcout.Change
