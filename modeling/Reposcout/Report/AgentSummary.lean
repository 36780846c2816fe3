import Reposcout.Context.Plan
import Reposcout.Framework.Trimming

/-!
# The agent summary

A hard-bounded projection of a scan report.  Each of its lists starts with at most a fixed number
of entries.  While the rendered text is too long, one entry is removed at a time, of the least
valuable list that still has one.

Facts of the report that the projection only copies are of a type `F`, records that it only passes
on of a type `E`.
-/

namespace Reposcout.Report

open Context List Option

def strategyVersion : ℕ := 1
def maxBytes : ℕ := 16 * 1024
def maxSignalEntries : ℕ := 3
def maxDirectContextEntries : ℕ := 5
def maxExpansionContextEntries : ℕ := 3
def maxOutlineOnlyEntries : ℕ := 3
def maxUnmatchedFocusEntries : ℕ := 3
def maxTaskDiagnosticEntries : ℕ := 3

/-! ## Bounded lists -/

structure BoundedList (α : Type) where
  available : ℕ
  shown : ℕ
  omitted : ℕ
  entries : List α
  deriving DecidableEq

structure ContextBoundedList (α : Type) where
  available : ℕ
  availableTokens : ℕ
  shown : ℕ
  shownTokens : ℕ
  omitted : ℕ
  omittedTokens : ℕ
  entries : List α
  deriving DecidableEq

class TokenCost (α : Type) where
  tokenCost : α → ℕ

export TokenCost (tokenCost)

/-- `sum_token_cost`, which saturates. -/
def sumTokenCost {α : Type} [TokenCost α] (entries : List α) : ℕ :=
  entries.foldl (fun total entry => satAdd total (tokenCost entry)) 0

namespace BoundedList

variable {α : Type}

def new (entries : List α) (maximum : ℕ) : BoundedList α where
  available := entries.length
  shown := (entries.take maximum).length
  omitted := entries.length - (entries.take maximum).length
  entries := entries.take maximum

/-- `remove_last`, absent if there is nothing to remove. -/
def removeLast (list : BoundedList α) : Option (BoundedList α) :=
  list.entries.getLast?.map fun _ =>
    { list with
      entries := list.entries.dropLast
      shown := list.shown - 1
      -- a number of entries does not saturate
      omitted := list.omitted + 1 }

end BoundedList

namespace ContextBoundedList

variable {α : Type} [TokenCost α]

def new (entries : List α) (maximum : ℕ) : ContextBoundedList α where
  available := entries.length
  availableTokens := sumTokenCost entries
  shown := (entries.take maximum).length
  shownTokens := sumTokenCost (entries.take maximum)
  omitted := entries.length - (entries.take maximum).length
  omittedTokens := sumTokenCost entries - sumTokenCost (entries.take maximum)
  entries := entries.take maximum

/-- `remove_last`, absent if there is nothing to remove. -/
def removeLast (list : ContextBoundedList α) : Option (ContextBoundedList α) :=
  list.entries.getLast?.map fun removed =>
    { list with
      entries := list.entries.dropLast
      shown := list.shown - 1
      shownTokens := list.shownTokens - tokenCost removed
      omitted := list.omitted + 1
      omittedTokens := satAdd list.omittedTokens (tokenCost removed) }

end ContextBoundedList

/-! ## The report -/

inductive TaskDiagnosticStatus where
  | resolved
  | outOfScope
  | unresolved
  deriving DecidableEq

structure TaskDiagnostic (E : Type) where
  status : TaskDiagnosticStatus
  record : E
  deriving DecidableEq

structure TaskDiagnosticEvidence (F E : Type) where
  facts : F
  diagnostics : List (TaskDiagnostic E)
  deriving DecidableEq

structure AnalyzerProfile where
  complexity : Bool
  imports : Bool
  duplication : Bool
  deriving DecidableEq

structure TestPresence (F E : Type) where
  facts : F
  frameworks : List E
  deriving DecidableEq

structure Summary (F E : Type) where
  complexity : F
  symbols : F
  duplication : F
  productionDuplication : Option F
  topDuplicates : List E
  topProductionDuplicates : List E
  testPresence : Option (TestPresence F E)
  topSourceTokenFiles : List E
  topRisks : List E
  complexityViolations : List E
  skipCandidates : List E
  deriving DecidableEq

structure ReportContext (F E : Type) where
  plan : ContextPlan
  taskEvidence : Option (TaskDiagnosticEvidence F E)
  deriving DecidableEq

/-- A scan report.  `facts` are its schema, paths and times, and what it says about its
interpretation, coverage, inventory and assessment. -/
structure ScanReport (F E : Type) where
  facts : F
  analyzers : Option AnalyzerProfile
  summary : Summary F E
  context : Option (ReportContext F E)

/-! ## The projection -/

structure ProjectionMetadata where
  strategyVersion : ℕ
  maxBytes : ℕ
  entriesOmitted : ℕ
  byteLimitReached : Bool
  deriving DecidableEq

structure DuplicationSignals (F E : Type) where
  facts : F
  production : Option F
  topBlockScope : String
  topBlocks : BoundedList E
  deriving DecidableEq

structure TestSignals (F E : Type) where
  facts : F
  frameworks : BoundedList E
  deriving DecidableEq

structure Signals (F E : Type) where
  complexity : Option F
  symbols : Option F
  duplication : Option (DuplicationSignals F E)
  tests : Option (TestSignals F E)
  topSourceFiles : BoundedList E
  topRisks : BoundedList E
  complexityViolations : Option (BoundedList E)
  skipCandidates : BoundedList E
  deriving DecidableEq

structure AgentTaskEvidence (F E : Type) where
  facts : F
  diagnostics : BoundedList (TaskDiagnostic E)
  deriving DecidableEq

structure ContextEvidenceSummary where
  seedFiles : ℕ
  graphEligibleSeedFiles : ℕ
  graphCoveredSeedFiles : ℕ
  directDependents : ℕ
  transitiveDependents : ℕ
  matchingTests : ℕ
  deriving DecidableEq

structure ContextBudget where
  budgetTokens : ℕ
  selectedFiles : ℕ
  selectedTokens : ℕ
  candidateFiles : ℕ
  planOmittedFiles : ℕ
  planOmittedTokens : ℕ
  skippedFiles : ℕ
  outlineOnlyFiles : ℕ
  outlineOnlyTokens : ℕ
  outlineSymbols : ℕ
  outlineOmittedSymbols : ℕ
  truncated : Bool
  deriving DecidableEq

structure ContextEntry where
  path : PathBuf
  tokens : ℕ
  evidence : List ContextEvidence
  reason : Option String
  deriving DecidableEq

instance : TokenCost ContextEntry := ⟨ContextEntry.tokens⟩

structure OutlineEntry where
  path : PathBuf
  sourceTokens : ℕ
  evidence : List ContextEvidence
  reason : String
  deriving DecidableEq

instance : TokenCost OutlineEntry := ⟨OutlineEntry.sourceTokens⟩

structure AgentContext (F E : Type) where
  strategyVersion : ℕ
  taskEvidence : Option (AgentTaskEvidence F E)
  budget : ContextBudget
  evidence : ContextEvidenceSummary
  focusFiles : ℕ
  changeScope : Option String
  unmatchedFocus : BoundedList PathBuf
  directEvidence : ContextBoundedList ContextEntry
  expandIfNeeded : ContextBoundedList ContextEntry
  outlineOnly : ContextBoundedList OutlineEntry
  deriving DecidableEq

structure AgentSummary (F E : Type) where
  facts : F
  projection : ProjectionMetadata
  signals : Signals F E
  context : Option (AgentContext F E)

/-! ## Building the projection -/

/-- `task_evidence`: what is not resolved comes first. -/
def orderedDiagnostics {E : Type} (diagnostics : List (TaskDiagnostic E)) :
    List (TaskDiagnostic E) :=
  diagnostics.filter (fun record => record.status ≠ .resolved) ++
    diagnostics.filter (fun record => record.status = .resolved)

def taskEvidence {F E : Type} (evidence : TaskDiagnosticEvidence F E) : AgentTaskEvidence F E where
  facts := evidence.facts
  diagnostics :=
    BoundedList.new (orderedDiagnostics evidence.diagnostics) maxTaskDiagnosticEntries

def isDirect (evidence : ContextEvidence) : Bool :=
  if evidence.role ∈ ["focus", "changed", "matching-test", "diagnostic"] then true
  else if evidence.role ∈ ["dependency", "dependent"] then
    evidence.distance.all fun distance => distance ≤ 1
  else false

def contextEntry (file : ContextFile) : ContextEntry where
  path := file.path
  tokens := file.tokens
  reason := if file.evidence = [] then file.reasons.head? else none
  evidence := file.evidence

def outlineEntry (file : ContextOutlineOnly) : OutlineEntry where
  path := file.path
  sourceTokens := file.sourceTokens
  evidence := file.evidence
  reason := file.reason

/-- The entries of a plan, those with direct evidence and the others. -/
def partitionedEntries (plan : ContextPlan) : List ContextEntry × List ContextEntry :=
  (plan.files.map contextEntry).partition fun entry => entry.evidence.any isDirect

def buildContext {F E : Type} (context : ReportContext F E) : AgentContext F E :=
  let plan := context.plan
  let (direct, expansion) := partitionedEntries plan
  { strategyVersion := plan.strategyVersion
    taskEvidence := context.taskEvidence.map taskEvidence
    budget :=
      { budgetTokens := plan.budgetTokens
        selectedFiles := plan.files.length
        selectedTokens := plan.selectedTokens
        candidateFiles := plan.candidateFiles
        planOmittedFiles := plan.omittedFiles
        planOmittedTokens := plan.omittedTokens
        skippedFiles := plan.skippedFiles
        outlineOnlyFiles := plan.outlineOnly.length
        outlineOnlyTokens := (plan.outlineOnly.map ContextOutlineOnly.sourceTokens).sum
        outlineSymbols := plan.outlineSymbols
        outlineOmittedSymbols := plan.outlineOmittedSymbols
        truncated := decide (plan.omittedFiles > 0 ∨ plan.outlineOmittedSymbols > 0) }
    evidence :=
      { seedFiles := plan.seedFiles
        graphEligibleSeedFiles := plan.graphEligibleSeedFiles
        graphCoveredSeedFiles := plan.graphCoveredSeedFiles
        directDependents := plan.directDependents
        transitiveDependents := plan.transitiveDependents
        matchingTests := plan.matchingTests }
    focusFiles := plan.focus.length
    changeScope := plan.changeScope
    unmatchedFocus := BoundedList.new plan.unmatchedFocus maxUnmatchedFocusEntries
    directEvidence := ContextBoundedList.new direct maxDirectContextEntries
    expandIfNeeded := ContextBoundedList.new expansion maxExpansionContextEntries
    outlineOnly :=
      ContextBoundedList.new (plan.outlineOnly.map outlineEntry) maxOutlineOnlyEntries }

section

variable {F E : Type}

/-- The scope and the blocks of the duplication signals. -/
def topBlocks (summary : Summary F E) : String × List E :=
  match summary.productionDuplication with
  | none => ("configured-health", summary.topDuplicates)
  | some _ => ("production-source", summary.topProductionDuplicates)

def buildSignals (analyzers : Option AnalyzerProfile) (summary : Summary F E) : Signals F E where
  complexity :=
    if analyzers.any AnalyzerProfile.complexity then some summary.complexity else none
  symbols :=
    if analyzers.any fun analyzers => analyzers.complexity || analyzers.imports then
      some summary.symbols
    else none
  duplication :=
    if analyzers.any AnalyzerProfile.duplication then
      some
        { facts := summary.duplication
          production := summary.productionDuplication
          topBlockScope := (topBlocks summary).1
          topBlocks := BoundedList.new (topBlocks summary).2 maxSignalEntries }
    else none
  tests := summary.testPresence.map fun tests =>
    { facts := tests.facts
      frameworks := BoundedList.new tests.frameworks maxSignalEntries }
  topSourceFiles := BoundedList.new summary.topSourceTokenFiles maxSignalEntries
  topRisks := BoundedList.new summary.topRisks maxSignalEntries
  complexityViolations :=
    if analyzers.any AnalyzerProfile.complexity then
      some (BoundedList.new summary.complexityViolations maxSignalEntries)
    else none
  skipCandidates := BoundedList.new summary.skipCandidates maxSignalEntries

namespace AgentSummary

def new (report : ScanReport F E) : AgentSummary F E where
  facts := report.facts
  projection :=
    { strategyVersion := Report.strategyVersion
      maxBytes := Report.maxBytes
      entriesOmitted := 0
      byteLimitReached := false }
  signals := buildSignals report.analyzers report.summary
  context := report.context.map buildContext

def signalsOmitted (signals : Signals F E) : ℕ :=
  signals.tests.elim 0 (fun tests => tests.frameworks.omitted) +
    signals.topSourceFiles.omitted + signals.topRisks.omitted +
    signals.complexityViolations.elim 0 BoundedList.omitted + signals.skipCandidates.omitted +
    signals.duplication.elim 0 (fun duplication => duplication.topBlocks.omitted)

def contextOmitted (context : AgentContext F E) : ℕ :=
  context.unmatchedFocus.omitted + context.directEvidence.omitted +
    context.expandIfNeeded.omitted + context.outlineOnly.omitted +
    context.taskEvidence.elim 0 fun evidence => evidence.diagnostics.omitted

def refreshProjectionOmissions (summary : AgentSummary F E) : AgentSummary F E :=
  { summary with
    projection :=
      { summary.projection with
        entriesOmitted :=
          signalsOmitted summary.signals + summary.context.elim 0 contextOmitted } }

/-! ### Removing one entry -/

def updateContext (summary : AgentSummary F E)
    (update : AgentContext F E → Option (AgentContext F E)) : Option (AgentSummary F E) :=
  (summary.context.bind update).map fun context => { summary with context := some context }

def updateSignals (summary : AgentSummary F E)
    (update : Signals F E → Option (Signals F E)) : Option (AgentSummary F E) :=
  (update summary.signals).map fun signals => { summary with signals }

def removeTaskDiagnostic (summary : AgentSummary F E) : Option (AgentSummary F E) :=
  summary.updateContext fun context =>
    context.taskEvidence.bind fun evidence =>
      evidence.diagnostics.removeLast.map fun diagnostics =>
        { context with taskEvidence := some { evidence with diagnostics } }

def removeFramework (summary : AgentSummary F E) : Option (AgentSummary F E) :=
  summary.updateSignals fun signals =>
    signals.tests.bind fun tests =>
      tests.frameworks.removeLast.map fun frameworks =>
        { signals with tests := some { tests with frameworks } }

def removeSkipCandidate (summary : AgentSummary F E) : Option (AgentSummary F E) :=
  summary.updateSignals fun signals =>
    signals.skipCandidates.removeLast.map fun skipCandidates => { signals with skipCandidates }

def removeTopBlock (summary : AgentSummary F E) : Option (AgentSummary F E) :=
  summary.updateSignals fun signals =>
    signals.duplication.bind fun duplication =>
      duplication.topBlocks.removeLast.map fun topBlocks =>
        { signals with duplication := some { duplication with topBlocks } }

def removeExpansion (summary : AgentSummary F E) : Option (AgentSummary F E) :=
  summary.updateContext fun context =>
    context.expandIfNeeded.removeLast.map fun expandIfNeeded => { context with expandIfNeeded }

def removeSourceFile (summary : AgentSummary F E) : Option (AgentSummary F E) :=
  summary.updateSignals fun signals =>
    signals.topSourceFiles.removeLast.map fun topSourceFiles => { signals with topSourceFiles }

def removeRisk (summary : AgentSummary F E) : Option (AgentSummary F E) :=
  summary.updateSignals fun signals =>
    signals.topRisks.removeLast.map fun topRisks => { signals with topRisks }

def removeComplexityViolation (summary : AgentSummary F E) : Option (AgentSummary F E) :=
  summary.updateSignals fun signals =>
    signals.complexityViolations.bind fun violations =>
      violations.removeLast.map fun violations =>
        { signals with complexityViolations := some violations }

def removeOutline (summary : AgentSummary F E) : Option (AgentSummary F E) :=
  summary.updateContext fun context =>
    context.outlineOnly.removeLast.map fun outlineOnly => { context with outlineOnly }

def removeUnmatchedFocus (summary : AgentSummary F E) : Option (AgentSummary F E) :=
  summary.updateContext fun context =>
    context.unmatchedFocus.removeLast.map fun unmatchedFocus => { context with unmatchedFocus }

def removeDirectEvidence (summary : AgentSummary F E) : Option (AgentSummary F E) :=
  summary.updateContext fun context =>
    context.directEvidence.removeLast.map fun directEvidence => { context with directEvidence }

/-- `trim_one`, absent if every list is empty. -/
def trimOne (summary : AgentSummary F E) : Option (AgentSummary F E) :=
  summary.removeTaskDiagnostic <|> summary.removeFramework <|> summary.removeSkipCandidate <|>
    summary.removeTopBlock <|> summary.removeExpansion <|> summary.removeSourceFile <|>
    summary.removeRisk <|> summary.removeComplexityViolation <|> summary.removeOutline <|>
    summary.removeUnmatchedFocus <|> summary.removeDirectEvidence

end AgentSummary

/-! ## The lists as a row of stacks -/

inductive Entry (E : Type) where
  | record (record : E)
  | diagnostic (diagnostic : TaskDiagnostic E)
  | focus (path : PathBuf)
  | context (entry : ContextEntry)
  | outline (entry : OutlineEntry)
  deriving DecidableEq

def Entry.tokens : Entry E → ℕ
  | .record _ | .diagnostic _ | .focus _ => 0
  | .context entry => tokenCost entry
  | .outline entry => tokenCost entry

structure TokenCounts where
  available : ℕ
  shown : ℕ
  omitted : ℕ
  deriving DecidableEq

/-- A list of either kind as it appears in the summary. -/
structure Shown (E : Type) where
  available : ℕ
  shown : ℕ
  omitted : ℕ
  tokens : Option TokenCounts
  entries : List (Entry E)

def Shown.removeLast (list : Shown E) : Option (Shown E) :=
  list.entries.getLast?.map fun removed =>
    { available := list.available
      shown := list.shown - 1
      omitted := list.omitted + 1
      tokens := list.tokens.map fun tokens =>
        { tokens with
          shown := tokens.shown - removed.tokens
          omitted := satAdd tokens.omitted removed.tokens }
      entries := list.entries.dropLast }

def BoundedList.toShown {α : Type} (entry : α → Entry E) (list : BoundedList α) : Shown E where
  available := list.available
  shown := list.shown
  omitted := list.omitted
  tokens := none
  entries := list.entries.map entry

def ContextBoundedList.toShown {α : Type} (entry : α → Entry E) (list : ContextBoundedList α) :
    Shown E where
  available := list.available
  shown := list.shown
  omitted := list.omitted
  tokens := some ⟨list.availableTokens, list.shownTokens, list.omittedTokens⟩
  entries := list.entries.map entry

/-- The lists of a summary in the order in which they are trimmed; some are absent. -/
def AgentSummary.lists (summary : AgentSummary F E) : List (Option (Shown E)) :=
  let signals := summary.signals
  [summary.context.bind fun context =>
      context.taskEvidence.map fun evidence => evidence.diagnostics.toShown .diagnostic,
    signals.tests.map fun tests => tests.frameworks.toShown .record,
    some (signals.skipCandidates.toShown .record),
    signals.duplication.map fun duplication => duplication.topBlocks.toShown .record,
    summary.context.map fun context => context.expandIfNeeded.toShown .context,
    some (signals.topSourceFiles.toShown .record),
    some (signals.topRisks.toShown .record),
    signals.complexityViolations.map (BoundedList.toShown .record),
    summary.context.map fun context => context.outlineOnly.toShown .outline,
    summary.context.map fun context => context.unmatchedFocus.toShown .focus,
    summary.context.map fun context => context.directEvidence.toShown .context]

/-- Take an entry from a list, if it is there. -/
def popShown (list : Option (Shown E)) : Option (Option (Shown E)) :=
  (list.bind Shown.removeLast).map some

open BoundedList

lemma BoundedList.removeLast_toShown {α : Type} (entry : α → Entry E) (list : BoundedList α) :
    (list.toShown entry).removeLast = list.removeLast.map (toShown entry) := by
  simp only [Shown.removeLast, removeLast, toShown, getLast?_map, Option.map_map]
  apply Option.map_congr
  intro removed _
  simp [toShown, map_dropLast]

open ContextBoundedList

lemma ContextBoundedList.removeLast_toShown {α : Type} [TokenCost α] (entry : α → Entry E)
    (htokens : ∀ x, (entry x).tokens = tokenCost x) (list : ContextBoundedList α) :
    (list.toShown entry).removeLast = list.removeLast.map (toShown entry) := by
  simp only [Shown.removeLast, removeLast, toShown, getLast?_map, Option.map_map]
  apply Option.map_congr
  intro removed _
  simp [toShown, map_dropLast, htokens]

open Trimming

/-- The first of several removals takes from the first list that has an entry. -/
lemma orElse_lists {α : Type} {first rest : Option α} {lists : α → List (Option (Shown E))}
    {around : List (Option (Shown E)) → List (Option (Shown E))} {list : Option (Shown E)}
    {later : List (Option (Shown E))}
    (hfirst : first.map lists = (popShown list).map fun next => around (next :: later))
    (hrest : rest.map lists =
      (popFirst popShown later).map fun next => around (list :: next)) :
    (first <|> rest).map lists = (popFirst popShown (list :: later)).map around := by
  cases first with
  | some _ =>
    obtain ⟨next, hnext, heq⟩ := map_eq_some_iff.mp hfirst.symm
    simp [popFirst, hnext, heq]
  | none =>
    have hnone : popShown list = none := map_eq_none_iff.mp hfirst.symm
    simp [popFirst, hnone, hrest, Function.comp_def]

namespace AgentSummary

variable (summary : AgentSummary F E)

/-- **`trim_one` takes one entry from the first list that has one.** -/
lemma lists_trimOne :
    summary.trimOne.map lists = popFirst popShown summary.lists := by
  have hmap : popFirst popShown summary.lists =
      (popFirst popShown summary.lists).map fun next => next := by simp
  rw [hmap]
  obtain ⟨facts, projection, signals, context⟩ := summary
  refine orElse_lists ?_ (orElse_lists ?_ (orElse_lists ?_ (orElse_lists ?_ (orElse_lists ?_
    (orElse_lists ?_ (orElse_lists ?_ (orElse_lists ?_ (orElse_lists ?_ (orElse_lists ?_ ?_)))))))))
  · rcases context with _ | context
    · simp [removeTaskDiagnostic, updateContext, popShown]
    · rcases hevidence : context.taskEvidence with _ | evidence
      · simp [removeTaskDiagnostic, updateContext, popShown, hevidence]
      · simp [removeTaskDiagnostic, updateContext, popShown, hevidence, lists,
          removeLast_toShown, Function.comp_def]
  · rcases htests : signals.tests with _ | tests
    · simp [removeFramework, updateSignals, popShown, htests]
    · simp [removeFramework, updateSignals, popShown, htests, lists,
        removeLast_toShown, Function.comp_def]
  · simp [removeSkipCandidate, updateSignals, popShown, lists, removeLast_toShown,
      Function.comp_def]
  · rcases hduplication : signals.duplication with _ | duplication
    · simp [removeTopBlock, updateSignals, popShown, hduplication]
    · simp [removeTopBlock, updateSignals, popShown, hduplication, lists,
        removeLast_toShown, Function.comp_def]
  · rcases context with _ | context
    · simp [removeExpansion, updateContext, popShown]
    · simp [removeExpansion, updateContext, popShown, lists,
        removeLast_toShown Entry.context fun _ => rfl, Function.comp_def]
  · simp [removeSourceFile, updateSignals, popShown, lists, removeLast_toShown,
      Function.comp_def]
  · simp [removeRisk, updateSignals, popShown, lists, removeLast_toShown,
      Function.comp_def]
  · rcases hviolations : signals.complexityViolations with _ | violations
    · simp [removeComplexityViolation, updateSignals, popShown, hviolations]
    · simp [removeComplexityViolation, updateSignals, popShown, hviolations, lists,
        removeLast_toShown, Function.comp_def]
  · rcases context with _ | context
    · simp [removeOutline, updateContext, popShown]
    · simp [removeOutline, updateContext, popShown, lists,
        removeLast_toShown Entry.outline fun _ => rfl, Function.comp_def]
  · rcases context with _ | context
    · simp [removeUnmatchedFocus, updateContext, popShown]
    · simp [removeUnmatchedFocus, updateContext, popShown, lists,
        removeLast_toShown, Function.comp_def]
  · rcases context with _ | context
    · simp [removeDirectEvidence, updateContext, popShown, popFirst]
    · simp [removeDirectEvidence, updateContext, popShown, lists, popFirst,
        removeLast_toShown Entry.context fun _ => rfl, Function.comp_def]

/-- The number of entries of all lists. -/
def entryCount (summary : AgentSummary F E) : ℕ :=
  (summary.lists.map fun list => list.elim 0 fun list => list.entries.length).sum

lemma entryCount_trimOne {summary next : AgentSummary F E} (h : summary.trimOne = some next) :
    summary.entryCount = next.entryCount + 1 := by
  have hsize : ∀ before after : Option (Shown E), popShown before = some after →
      (before.elim 0 fun list => list.entries.length) =
        (after.elim 0 fun list => list.entries.length) + 1 := by
    intro before after hpop
    obtain ⟨next, hnext, rfl⟩ := map_eq_some_iff.mp hpop
    obtain ⟨list, rfl, hremove⟩ := bind_eq_some_iff.mp hnext
    obtain ⟨removed, hlast, rfl⟩ := map_eq_some_iff.mp hremove
    have hpos : 0 < list.entries.length :=
      length_pos_of_mem (mem_of_getLast? hlast)
    simp only [elim_some, length_dropLast]
    omega
  have hpop : popFirst popShown summary.lists = some next.lists := by
    rw [← lists_trimOne, h]
    rfl
  exact sum_popFirst hsize hpop

@[simp] lemma entryCount_refresh :
    summary.refreshProjectionOmissions.entryCount = summary.entryCount := rfl

def reachByteLimit (summary : AgentSummary F E) : AgentSummary F E :=
  { summary with projection := { summary.projection with byteLimitReached := true } }

end AgentSummary

/-! ## The rendered summary -/

inductive SummaryError where
  | pretty
  | render
  | requiredFields

def SummaryError.message : SummaryError → String
  | .pretty => "agent-summary output is compact JSON and cannot be combined with --pretty"
  | .render => "failed to render agent-summary JSON"
  | .requiredFields =>
    "agent-summary required fields exceed the hard " ++ toString maxBytes ++ "-byte JSON limit"

/-- The loop of `json`, with the projection it renders.  `render` is `serde_json::to_string`, which
fails on what is not text. -/
def project (render : AgentSummary F E → Option String) (projection : AgentSummary F E) :
    Except SummaryError (AgentSummary F E × String) :=
  match render projection.refreshProjectionOmissions with
  | none => .error .render
  | some rendered =>
    if rendered.utf8ByteSize < maxBytes then .ok (projection.refreshProjectionOmissions, rendered)
    else if projection.projection.byteLimitReached = false then
      project render projection.refreshProjectionOmissions.reachByteLimit
    else
      match _htrim : projection.refreshProjectionOmissions.trimOne with
      | none => .error .requiredFields
      | some next => project render next
termination_by (projection.entryCount, if projection.projection.byteLimitReached then 0 else 1)
decreasing_by
  · next hreached =>
    simp only [hreached]
    exact Prod.Lex.right _ (by simp [AgentSummary.reachByteLimit])
  · have hcount := AgentSummary.entryCount_trimOne _htrim
    simp only [AgentSummary.entryCount_refresh] at hcount
    exact Prod.Lex.left _ _ (by omega)

def json (render : AgentSummary F E → Option String) (report : ScanReport F E) (pretty : Bool) :
    Except SummaryError String :=
  if pretty then .error .pretty
  else (project render (AgentSummary.new report)).map fun (_, rendered) => rendered ++ "\n"

end

end Reposcout.Report
