import Reposcout.Model.Definitions
import Reposcout.Model.Path

/-!
# Reports of a source query

One result for each requested target, the files they come from, and the delivered chunks of
source.  Results of one file share a chunk where their spans overlap.
-/

namespace Reposcout

inductive SourceQueryStatus where
  | complete
  | changed
  | unmapped
  | binary
  | conflict
  | outline
  | ambiguous
  | notFound
  | stale
  | excluded
  | unsupported
  | unavailable
  | parseError
  | invalidPath
  | ignoreError
  | unreadable
  | notRegularFile
  | oversized
  | inputBudgetExceeded
  | deadlineExceeded
  | budgetOmitted
  deriving DecidableEq

structure LineRange where
  start : ℕ
  stop : ℕ
  deriving DecidableEq

structure SourceQueryFile where
  id : ℕ
  path : PathBuf
  snapshot : SourceRevision
  status : Option SourceQueryStatus
  language : Option String
  sha256 : Option String
  extraction : Option DefinitionStatus
  declarations : Option ℕ
  sourceDefinitions : Option ℕ
  deriving DecidableEq, Inhabited

structure SourceQueryDefinition where
  name : String
  kind : String
  declarationSpan : SourceSpan
  sourceSpan : Option SourceSpan
  signature : Option String
  deriving DecidableEq

structure SourceQueryResult where
  target : ℕ
  file : Option ℕ
  status : SourceQueryStatus
  selection : Option String
  requestedRange : Option LineRange
  definition : Option SourceQueryDefinition
  source : Option ℕ
  candidates : List SourceQueryDefinition
  totalCandidates : ℕ
  omittedCandidates : ℕ
  deriving DecidableEq

/-- A delivered range of a file, shared by the results whose spans it covers. -/
structure SourceQueryChunk where
  id : ℕ
  file : ℕ
  span : SourceSpan
  content : String
  deriving DecidableEq

structure SourceQueryReport where
  kind : String
  schemaVersion : String
  root : Option String
  rootOmitted : Bool
  encoding : String
  mode : String
  tokenBudget : ℕ
  byteBudget : ℕ
  requestedTargets : ℕ
  omittedTargets : ℕ
  files : List SourceQueryFile
  results : List SourceQueryResult
  sources : List SourceQueryChunk
  deriving DecidableEq

def schemaVersion : String := "2.0"

end Reposcout

/-!
## Definition plans

The planning facts of a file give the token cost of its definitions and what else each needs.
A plan lists the definitions it selects and explains what it leaves out.
-/

namespace Reposcout

/-- A definition that another one needs. -/
structure DefinitionEnvironment where
  definition : ℕ
  reason : String
  deriving DecidableEq

structure DefinitionPlanningFact where
  definition : ℕ
  tokens : ℕ
  environment : List DefinitionEnvironment
  gaps : List String
  deriving DecidableEq

structure DefinitionPlanningFacts where
  sha256 : String
  encoding : String
  definitions : List DefinitionPlanningFact
  omittedDefinitions : ℕ
  deriving DecidableEq

structure DefinitionPlanFile where
  id : ℕ
  path : PathBuf
  snapshot : SourceRevision
  sha256 : String
  extraction : DefinitionStatus
  definitions : ℕ
  costedDefinitions : ℕ
  planningOmittedDefinitions : ℕ
  deriving DecidableEq

/-- A selected definition. `file` is the one-based position of its file. -/
structure PlannedDefinition where
  file : ℕ
  definition : ℕ
  name : String
  kind : String
  declarationSpan : SourceSpan
  sourceSpan : SourceSpan
  tokens : ℕ
  role : String
  reasons : List String
  environmentGaps : List String
  deriving DecidableEq

structure DefinitionPlanOmission where
  path : PathBuf
  name : Option String
  reason : String
  explicit : Bool
  deriving DecidableEq

structure DefinitionPlanReport where
  kind : String
  schemaVersion : String
  strategyVersion : ℕ
  encoding : String
  tokenBudget : ℕ
  contextBudget : ℕ
  byteBudget : ℕ
  maxFiles : ℕ
  maxDefinitions : ℕ
  candidateDefinitions : ℕ
  inputDefinitions : ℕ
  unresolvedSeeds : ℕ
  ambiguousSeeds : ℕ
  unavailableSeeds : ℕ
  inputFiles : ℕ
  unavailableFiles : ℕ
  discoveryIncomplete : Bool
  planningOmittedDefinitions : ℕ
  outputOmittedFiles : ℕ
  selectedTokens : ℕ
  selectedFiles : ℕ
  omittedDefinitions : ℕ
  outputOmitted : ℕ
  files : List DefinitionPlanFile
  selected : List PlannedDefinition
  omissions : List DefinitionPlanOmission
  omittedDetails : ℕ
  source : Option SourceQueryReport

end Reposcout
