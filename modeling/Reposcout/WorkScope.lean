import Reposcout.Context.Plan
import Reposcout.Framework.Components

/-!
# The work scope

Compact evidence on the size of a piece of work, projected from analyses that have run: where it
starts, what it reaches, and into which components the dependency graph falls.  All lists of paths
share one budget, in the order in which they are projected.

Facts that are only copied (the inventory, the coverage of the scans) are left out.
-/

namespace Reposcout.Scope

open Context Graph KeyedList

def strategyVersion : Nat := 2
def maxPathEntries : Nat := 25
def maxComponents : Nat := 10

/-- `changed` without repetition, in the order in which the source's hash set yields the paths. -/
structure Inputs where
  context : Option ContextPlan
  graph : Option GraphSignals
  impact : Option ImpactAnalysis
  diffScope : Option String
  changed : List PathBuf

/-! ## Paths under a budget -/

structure PathBudget where
  remaining : Nat

/-- What is shown of some paths, and what is left of the budget. -/
def PathBudget.take (budget : PathBudget) (paths : List String) : List String × PathBudget :=
  let shown := paths.take budget.remaining
  (shown, ⟨budget.remaining - shown.length⟩)

def normalizedPaths (paths : List PathBuf) : List String :=
  (sortBy compare (paths.map PathBuf.key)).eraseReps

def matchesFocus (path focus : String) : Bool :=
  path = focus || (focus ++ "/").toList.isPrefixOf path.toList

/-! ## Seeds -/

structure WorkScopeFocus where
  total : Nat
  resolved : Nat
  unresolved : Nat
  shown : Nat
  omitted : Nat
  paths : List String
  unmatchedPaths : List String
  deriving DecidableEq

structure WorkScopeChanges where
  scope : String
  total : Nat
  shown : Nat
  omitted : Nat
  paths : List String
  deriving DecidableEq

structure WorkScopeSeeds where
  focus : Option WorkScopeFocus
  changes : Option WorkScopeChanges
  pathsOmitted : Nat
  deriving DecidableEq

/-- `project_focus` for a plan that has a focus. -/
def focusOf (context : ContextPlan) (budget : PathBudget) : WorkScopeFocus × PathBudget :=
  let resolved := normalizedPaths context.focus
  let unmatched := normalizedPaths context.unmatchedFocus
  let total := resolved.length + unmatched.length
  let (paths, budget) := budget.take resolved
  let (unmatchedPaths, budget) := budget.take unmatched
  let shown := paths.length + unmatchedPaths.length
  ({ total
     resolved := context.focus.length
     unresolved := context.unmatchedFocus.length
     shown
     omitted := total - shown
     paths, unmatchedPaths }, budget)

def projectFocus (context : Option ContextPlan) (budget : PathBudget) :
    Option WorkScopeFocus × PathBudget :=
  match context with
  | none => (none, budget)
  | some context =>
    if context.focus = [] ∧ context.unmatchedFocus = [] then (none, budget)
    else
      let (focus, budget) := focusOf context budget
      (some focus, budget)

def projectChanges (diffScope : Option String) (changed : List PathBuf) (budget : PathBudget) :
    Option WorkScopeChanges × PathBudget :=
  match diffScope with
  | none => (none, budget)
  | some scope =>
    let all := normalizedPaths changed
    let (paths, budget) := budget.take all
    (some {
      scope
      total := all.length
      shown := paths.length
      omitted := all.length - paths.length
      paths }, budget)

/-! ## Context and impact -/

structure WorkScopeContext where
  budgetTokens : Nat
  selectedFiles : Nat
  selectedTokens : Nat
  candidateFiles : Nat
  outlineOnlyFiles : Nat
  outlineOnlyTokens : Nat
  outlineSymbols : Nat
  outlineBytes : Nat
  outlineOmittedSymbols : Nat
  omittedFiles : Nat
  omittedTokens : Nat
  skippedFiles : Nat
  truncated : Bool
  deriving DecidableEq

structure WorkScopeImpact where
  seedFiles : Nat
  graphEligibleSeedFiles : Nat
  graphCoveredSeedFiles : Nat
  directDependents : Nat
  transitiveDependents : Nat
  matchingTests : Nat
  matchingTestsKnown : Bool
  deriving DecidableEq

def projectContext (context : ContextPlan) : WorkScopeContext where
  budgetTokens := context.budgetTokens
  selectedFiles := context.files.length
  selectedTokens := context.selectedTokens
  candidateFiles := context.candidateFiles
  outlineOnlyFiles := context.outlineOnly.length
  outlineOnlyTokens := (context.outlineOnly.map (·.sourceTokens)).sum
  outlineSymbols := context.outlineSymbols
  outlineBytes := context.outlineBytes
  outlineOmittedSymbols := context.outlineOmittedSymbols
  omittedFiles := context.omittedFiles
  omittedTokens := context.omittedTokens
  skippedFiles := context.skippedFiles
  truncated := context.omittedFiles > 0 || context.outlineOmittedSymbols > 0

def impactOfChange (classifier : PathClassifier) (changed : List PathBuf)
    (impact : ImpactAnalysis) : WorkScopeImpact where
  seedFiles := changed.length
  graphEligibleSeedFiles := changed.countP classifier.isFirstClass
  graphCoveredSeedFiles := impact.graphChangedFiles.length
  directDependents := impact.directDependents.length
  transitiveDependents := impact.transitiveDependents.length
  matchingTests := 0
  matchingTestsKnown := false

def impactOfSeeds (context : ContextPlan) : WorkScopeImpact where
  seedFiles := context.seedFiles
  graphEligibleSeedFiles := context.graphEligibleSeedFiles
  graphCoveredSeedFiles := context.graphCoveredSeedFiles
  directDependents := context.directDependents
  transitiveDependents := context.transitiveDependents
  matchingTests := context.matchingTests
  matchingTestsKnown := true

def projectImpact (classifier : PathClassifier) (context : Option ContextPlan)
    (impact : Option ImpactAnalysis) (changed : List PathBuf) : Option WorkScopeImpact :=
  match context.filter (·.seedFiles > 0) with
  | some context => some (impactOfSeeds context)
  | none => impact.map (impactOfChange classifier changed)

/-! ## Structure -/

structure WorkScopeComponent where
  files : Nat
  seedFiles : Nat
  representativePathsOmitted : Nat
  representativePaths : List String
  deriving DecidableEq

structure WorkScopeStructure where
  graphFiles : Nat
  components : Nat
  largestComponentFiles : Nat
  shown : Nat
  omitted : Nat
  entries : List WorkScopeComponent
  deriving DecidableEq

structure ComponentFacts where
  paths : List String
  seedPaths : List String

/-- The dependencies and dependents of a file that are files of the graph. -/
def neighbours (graph : GraphSignals) (path : String) : List String :=
  match get? path graph.files with
  | none => []
  | some signal =>
    (signal.dependencies ++ signal.dependents).filter fun neighbour =>
      (get? neighbour graph.files).isSome

def orderedPaths (graph : GraphSignals) : List String :=
  sortBy compare (KeyedList.keys graph.files)

def componentFacts (seeds : List String) (found : List String) : ComponentFacts :=
  let paths := sortBy compare found
  { paths, seedPaths := paths.filter (· ∈ seeds) }

/-- More seeds first, then more files. -/
def componentOrder (left right : ComponentFacts) : Ordering :=
  (compare right.seedPaths.length left.seedPaths.length).then <|
    (compare right.paths.length left.paths.length).then
      (compare left.paths.head? right.paths.head?)

def components (graph : GraphSignals) (seeds : List String) : List ComponentFacts :=
  sortBy componentOrder
    ((Components.components (neighbours graph) (orderedPaths graph)).map (componentFacts seeds))

def ComponentFacts.representatives (component : ComponentFacts) : List String :=
  if component.seedPaths = [] then component.paths.head?.toList else component.seedPaths

def projectComponent (budget : PathBudget) (component : ComponentFacts) :
    WorkScopeComponent × PathBudget :=
  let (shown, budget) := budget.take component.representatives
  ({ files := component.paths.length
     seedFiles := component.seedPaths.length
     representativePathsOmitted := component.representatives.length - shown.length
     representativePaths := shown }, budget)

def projectComponents (budget : PathBudget) : List ComponentFacts → List WorkScopeComponent
  | [] => []
  | component :: rest =>
    let (entry, budget) := projectComponent budget component
    entry :: projectComponents budget rest

def listedComponents (components : List ComponentFacts) : List ComponentFacts :=
  let hasSeeded := components.any (·.seedPaths ≠ [])
  (components.filter fun component => !hasSeeded || component.seedPaths ≠ []).take maxComponents

def projectStructure (graph : GraphSignals) (seeds : List String) (budget : PathBudget) :
    WorkScopeStructure :=
  let components := components graph seeds
  let entries := projectComponents budget (listedComponents components)
  { graphFiles := graph.files.length
    components := components.length
    largestComponentFiles := (components.map (·.paths.length)).max?.getD 0
    shown := entries.length
    omitted := components.length - entries.length
    entries }

def graphSeedPaths (context : Option ContextPlan) (changed : List PathBuf)
    (graph : Option GraphSignals) : List String :=
  match graph with
  | none => []
  | some graph =>
    let seeds := (changed.map PathBuf.key).filter fun path =>
      (get? path graph.files).isSome
    match context with
    | none => seeds
    | some context =>
      let focus := context.focus.map PathBuf.key
      seeds ++ (KeyedList.keys graph.files).filter fun path => focus.any (matchesFocus path)

/-! ## The scope -/

structure WorkScopeConfidence where
  graphUnresolvedImports : Nat
  graphParseErrors : Nat
  graphConfigErrors : Nat
  deriving DecidableEq

structure WorkScope where
  strategyVersion : Nat
  basis : List String
  diffScope : Option String
  seeds : Option WorkScopeSeeds
  context : Option WorkScopeContext
  impact : Option WorkScopeImpact
  structureFacts : Option WorkScopeStructure
  confidence : WorkScopeConfidence

def graphCounter (inputs : Inputs) (ofGraph : GraphSignals → Nat) (ofContext : ContextPlan → Nat)
    (ofImpact : ImpactAnalysis → Nat) : Nat :=
  match inputs.graph, inputs.context, inputs.impact with
  | some graph, _, _ => ofGraph graph
  | none, some context, _ => ofContext context
  | none, none, some impact => ofImpact impact
  | none, none, none => 0

def build (classifier : PathClassifier) (inputs : Inputs) : WorkScope :=
  let (focus, budget) := projectFocus inputs.context ⟨maxPathEntries⟩
  let (changes, budget) := projectChanges inputs.diffScope inputs.changed budget
  let pathsOmitted := (focus.map (·.omitted)).getD 0 + (changes.map (·.omitted)).getD 0
  let seeds :=
    if focus.isSome || changes.isSome then
      some ({ focus, changes, pathsOmitted } : WorkScopeSeeds)
    else none
  { strategyVersion
    basis := [if inputs.diffScope.isSome then "diff" else "repository"] ++
      if focus.isSome then ["focus"] else []
    diffScope := inputs.diffScope
    seeds
    context := inputs.context.map projectContext
    impact := projectImpact classifier inputs.context inputs.impact inputs.changed
    structureFacts := inputs.graph.map fun graph =>
      projectStructure graph (graphSeedPaths inputs.context inputs.changed inputs.graph) budget
    confidence :=
      { graphUnresolvedImports := graphCounter inputs (·.unresolvedImports)
          (·.graphUnresolvedImports) (·.unresolvedImports)
        graphParseErrors := graphCounter inputs (·.parseErrors) (·.graphParseErrors)
          (·.parseErrors)
        graphConfigErrors := graphCounter inputs (·.configErrors) (·.graphConfigErrors)
          (·.configErrors) } }

end Reposcout.Scope
