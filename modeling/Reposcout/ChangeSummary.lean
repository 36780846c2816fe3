import Reposcout.Context.Plan
import Reposcout.Walk.Walker

/-!
# The change summary

A bounded account of a change: the changed files, the gaps of the dependency graph, the tests that
match, the files the change reaches, a reading order and suggested validations.  Every list of it
is cut from one budget of paths, which the lists use up in a fixed order; the details of the gaps
come in two instalments, the second of them last.

What the scanner knows of a path, and the stem under which tests look for a source file, are
parameters.
-/

namespace Reposcout.Change

open Context Graph KeyedList

def strategyVersion : Nat := 2
def maxPathEntries : Nat := 100
def maxGapEntries : Nat := 25
def maxValidations : Nat := 10

/-! ## What the summary reads -/

structure GraphDiagnosticFact where
  path : String
  unreadable : Bool
  parseErrors : Nat
  unresolvedImports : Nat
  configErrors : Nat
  deriving DecidableEq

/-- What the summary reads of the diagnostics of a scan. -/
structure ScanDiagnostics where
  scanTruncated : Bool
  walkerErrors : Nat
  deriving DecidableEq

/-- `changed` in the order in which the source's hash set yields the paths. -/
structure Inputs where
  scope : String
  changed : List PathBuf
  context : Option ContextPlan
  files : List FileReport
  impact : Option ImpactAnalysis
  graphDiagnostics : List GraphDiagnosticFact
  scanDiagnostics : ScanDiagnostics
  discoveryDiagnostics : ScanDiagnostics

/-! ## The summary -/

structure ChangeFile where
  path : String
  graphEligible : Bool
  graphCovered : Bool
  deriving DecidableEq

structure ChangeFileList where
  total : Nat
  shown : Nat
  omitted : Nat
  files : List ChangeFile
  deriving DecidableEq

structure ChangeReadingFile where
  path : String
  roles : List String := []
  confidence : String
  distance : Option Nat := none
  resolver : Option String := none
  deriving DecidableEq

structure ChangeImpactFile where
  path : String
  distance : Nat
  confidence : String
  resolver : Option String
  deriving DecidableEq

structure ChangeImpactSummary where
  directTotal : Nat
  transitiveTotal : Nat
  shown : Nat
  omitted : Nat
  files : List ChangeImpactFile
  deriving DecidableEq

structure ChangeTestFile where
  path : String
  matchedSources : List String
  confidence : String
  deriving DecidableEq

structure ChangeTestList where
  total : Nat
  shown : Nat
  omitted : Nat
  files : List ChangeTestFile
  deriving DecidableEq

inductive GapScope where
  | changed | knownImpact | selectedContext | outsideKnownScope
  deriving DecidableEq

/-- `gap_scope_rank`. -/
def GapScope.rank : GapScope → Nat
  | .changed => 0
  | .knownImpact => 1
  | .selectedContext => 2
  | .outsideKnownScope => 3

structure ChangeGap where
  path : String
  scope : GapScope
  unreadable : Bool
  parseErrors : Nat
  unresolvedImports : Nat
  configErrors : Nat
  deriving DecidableEq

structure ChangeGapCounts where
  unreadableFiles : Nat := 0
  parseErrors : Nat := 0
  unresolvedImports : Nat := 0
  configErrors : Nat := 0
  deriving DecidableEq

def ChangeGapCounts.isEmpty (counts : ChangeGapCounts) : Bool :=
  counts.unreadableFiles = 0 && counts.parseErrors = 0 && counts.unresolvedImports = 0 &&
    counts.configErrors = 0

structure ChangeCoverage where
  observedScopeConfidence : String
  discoveryCompleteness : String
  testMappingConfidence : String
  graphEligibleChanged : Nat
  graphCoveredChanged : Nat
  nonGraphChanged : Nat
  relevantGaps : ChangeGapCounts
  outsideKnownScopeGaps : ChangeGapCounts
  gaps : List ChangeGap
  gapsOmitted : Nat
  deriving DecidableEq

structure ChangeExecutive where
  changedFiles : Nat
  graphEligibleChangedFiles : Nat
  knownDirectDependents : Nat
  knownTransitiveDependents : Nat
  matchingTests : Nat
  confidence : String
  reasons : List String
  deriving DecidableEq

structure ChangeValidation where
  kind : String
  target : Option String
  reason : String
  confidence : String
  deriving DecidableEq

structure ChangeSummary where
  strategyVersion : Nat
  scope : String
  executive : ChangeExecutive
  changed : ChangeFileList
  readingOrder : List ChangeReadingFile
  readingOrderTotal : Nat
  readingOrderShown : Nat
  readingOrderOmitted : Nat
  impact : ChangeImpactSummary
  tests : ChangeTestList
  coverage : ChangeCoverage
  validationsOmitted : Nat
  validations : List ChangeValidation

/-! ## The reading order -/

def addRole (roles : List String) (role : String) : List String :=
  if role ∈ roles then roles else roles ++ [role]

def roleRank (role : String) : Nat :=
  match role with
  | "changed" => 0
  | "focus" => 1
  | "matching-test" => 2
  | "dependency" => 3
  | "dependent" => 4
  | "nearby" => 5
  | _ => 6

/-- `roles.sort_by_key(role_rank)`. -/
def sortRoles (roles : List String) : List String :=
  sortBy (fun left right => compare (roleRank left) (roleRank right)) roles

/-- Take over one piece of evidence. -/
def addEvidence (entry : ChangeReadingFile) (item : ContextEvidence) : ChangeReadingFile where
  path := entry.path
  roles := addRole entry.roles item.role
  confidence :=
    if item.role = "changed" ∨ item.role = "focus" then "high" else entry.confidence
  distance := if entry.distance.isNone then item.distance else entry.distance
  resolver := if entry.resolver.isNone then item.resolver else entry.resolver

abbrev ReadingEntries := List (String × ChangeReadingFile)

def mergeContextEntry (entries : ReadingEntries) (path : String)
    (evidence : List ContextEvidence) : ReadingEntries :=
  KeyedList.alter path (fun held =>
    let entry := evidence.foldl addEvidence
      (held.getD { path := path, confidence := "partial" })
    { entry with roles := (sortRoles entry.roles).eraseReps }) entries

def mergeChangedFile (entries : ReadingEntries) (path : String) : ReadingEntries :=
  KeyedList.alter path (fun held =>
    let entry := held.getD { path := path, confidence := "high" }
    { entry with roles := addRole entry.roles "changed", confidence := "high" }) entries

/-- Move the entry of a path behind those in order, unless the path has been seen. -/
def takeEntry (state : List String × ReadingEntries × List ChangeReadingFile) (path : String) :
    List String × ReadingEntries × List ChangeReadingFile :=
  let (seen, entries, ordered) := state
  if path ∈ seen then state
  else
    match get? path entries with
    | some entry => (path :: seen, entries.filter (·.1 ≠ path), ordered ++ [entry])
    | none => (path :: seen, entries, ordered)

def contextEntries (context : Option ContextPlan) : List ChangeReadingFile :=
  match context with
  | none => []
  | some context =>
    let entries := context.files.foldl
      (fun entries file => mergeContextEntry entries file.path.key file.evidence) []
    let entries := context.outlineOnly.foldl
      (fun entries file => mergeContextEntry entries file.path.key file.evidence) entries
    let entries := context.changedFiles.foldl
      (fun entries path => mergeChangedFile entries path.key) entries
    let order := context.files.map (·.path.key) ++ context.outlineOnly.map (·.path.key) ++
      context.changedFiles.map PathBuf.key
    let (_, entries, ordered) := order.foldl takeEntry ([], entries, [])
    ordered ++ (sortBy (fun left right => compare left.1 right.1) entries).map Prod.snd

def contextDistance (entries : List ChangeReadingFile) (path : String) : Option Nat :=
  (entries.find? (·.path = path)).bind (·.distance)

def contextResolver (entries : List ChangeReadingFile) (path : String) : Option String :=
  (entries.find? (·.path = path)).bind (·.resolver)

/-- Note that a path is a matching test, in its entry or in a new one at the end. -/
def mergeMatchingTest (entries : List ChangeReadingFile) (path : String) :
    List ChangeReadingFile :=
  if entries.any (·.path = path) then
    entries.modify (entries.findIdx (·.path = path)) fun entry =>
      { entry with roles := sortRoles (addRole entry.roles "matching-test") }
  else
    entries ++ [{ path := path, roles := ["matching-test"], confidence := "partial" }]

def mergeMatchingTests (entries : List ChangeReadingFile) (tests : List String) :
    List ChangeReadingFile :=
  tests.foldl mergeMatchingTest entries

/-! ## Gaps -/

/-- A configuration file governs the files below its directory. -/
def configGoverns (config path : String) : Bool :=
  let parent := ((PathBuf.ofString config).parent.map PathBuf.key).getD ""
  parent = "" || path = parent || (parent ++ "/").toList.isPrefixOf path.toList

def gapScope (changed knownImpact selectedContext : List String) (fact : GraphDiagnosticFact) :
    GapScope :=
  if fact.path ∈ changed then .changed
  else if fact.path ∈ knownImpact ||
      fact.configErrors > 0 && knownImpact.any (configGoverns fact.path) then .knownImpact
  else if fact.path ∈ selectedContext ||
      fact.configErrors > 0 && selectedContext.any (configGoverns fact.path) then .selectedContext
  else .outsideKnownScope

def changeGap (changed knownImpact selectedContext : List String) (fact : GraphDiagnosticFact) :
    ChangeGap where
  path := fact.path
  scope := gapScope changed knownImpact selectedContext fact
  unreadable := fact.unreadable
  parseErrors := fact.parseErrors
  unresolvedImports := fact.unresolvedImports
  configErrors := fact.configErrors

def addGapCounts (counts : ChangeGapCounts) (gap : ChangeGap) : ChangeGapCounts where
  unreadableFiles := satAdd counts.unreadableFiles gap.unreadable.toNat
  parseErrors := satAdd counts.parseErrors gap.parseErrors
  unresolvedImports := satAdd counts.unresolvedImports gap.unresolvedImports
  configErrors := satAdd counts.configErrors gap.configErrors

structure GapClasses where
  relevant : List ChangeGap
  outside : List ChangeGap
  relevantCounts : ChangeGapCounts
  outsideCounts : ChangeGapCounts
  deriving DecidableEq

def fileGap (classes : GapClasses) (gap : ChangeGap) : GapClasses :=
  if gap.scope = .outsideKnownScope then
    { classes with
      outsideCounts := addGapCounts classes.outsideCounts gap
      outside := classes.outside ++ [gap] }
  else
    { classes with
      relevantCounts := addGapCounts classes.relevantCounts gap
      relevant := classes.relevant ++ [gap] }

def relevantGapOrder (left right : ChangeGap) : Ordering :=
  (compare left.scope.rank right.scope.rank).then (compare left.path right.path)

def classifyGaps (facts : List GraphDiagnosticFact)
    (changed knownImpact selectedContext : List String) : GapClasses :=
  let classes := facts.foldl
    (fun classes fact => fileGap classes (changeGap changed knownImpact selectedContext fact))
    ⟨[], [], {}, {}⟩
  { classes with
    relevant := sortBy relevantGapOrder classes.relevant
    outside := sortBy (fun left right => compare left.path right.path) classes.outside }

/-! ## Confidence -/

def diagnosticsIncomplete (diagnostics : ScanDiagnostics) : Bool :=
  diagnostics.scanTruncated || diagnostics.walkerErrors > 0

def executiveConfidence (observed discovery testMapping : String)
    (graphEligible graphCovered : Nat) (relevant outside : ChangeGapCounts)
    (scanTruncated : Bool) : String × List String :=
  let reasons :=
    (if graphEligible = 0 then ["no-graph-eligible-changes"]
      else if graphCovered = 0 then ["no-graph-covered-changes"]
      else if graphCovered < graphEligible then ["changed-graph-coverage-incomplete"]
      else []) ++
    (if relevant.isEmpty then [] else ["relevant-graph-gaps"]) ++
    (if outside.isEmpty then [] else ["repository-graph-gaps"]) ++
    (if scanTruncated then ["scan-truncated"] else []) ++
    (if testMapping = "partial" then ["test-mapping-heuristic"]
      else if testMapping = "none" then ["no-matching-tests"]
      else [])
  let confidence :=
    if graphCovered = 0 then "none"
    else if observed = "high" ∧ discovery = "high" then "high"
    else "partial"
  (confidence, reasons)

/-! ## Validations -/

def isProjectConfiguration (path : String) : Bool :=
  let name := String.ofList (((PathBuf.ofString path).fileName.getD "").toList.map Char.toLower)
  name ∈ ["cargo.toml", "package.json", "composer.json", "go.mod", "makefile", "dockerfile",
    "compose.yml", "compose.yaml", "docker-compose.yml", "docker-compose.yaml", "tsconfig.json",
    "jsconfig.json"] ||
    ".config.js".toList.isSuffixOf name.toList || ".config.ts".toList.isSuffixOf name.toList

def testValidation (test : ChangeTestFile) : ChangeValidation where
  kind := "mapped-test"
  target := some test.path
  reason := "Existing test naming matches a changed source file; consider running it."
  confidence := "partial"

def changedValidation (graphEligible : List String) (path : String) : Option ChangeValidation :=
  if isProjectConfiguration path then
    some {
      kind := "project-configuration"
      target := some path
      reason :=
        "A changed manifest, build file, or tool configuration needs specialist validation."
      confidence := "high" }
  else if path ∉ graphEligible then
    some {
      kind := "inspect-non-graph-change"
      target := some path
      reason := "This changed file cannot participate in first-class dependency impact analysis."
      confidence := "high" }
  else none

def gapValidation (gap : ChangeGap) : ChangeValidation where
  kind := "specialist-review"
  target := some gap.path
  reason := "A relevant parser or resolver gap limits automated impact evidence."
  confidence := "partial"

def validationCandidates (changed graphEligible : List String) (tests : List ChangeTestFile)
    (gaps : List ChangeGap) : List ChangeValidation :=
  tests.map testValidation ++ changed.filterMap (changedValidation graphEligible) ++
    (gaps.filter (·.scope ≠ .outsideKnownScope)).map gapValidation

/-! ## Building the summary -/

section

variable (classifier : PathClassifier) (sourceStem : String → String)

def matchedSources (test : String) (changedSources : List String) : List String :=
  let keys := classifier.testStemKeys test
  changedSources.filter fun source => keys.any fun key => key = sourceStem source

def matchingTest (changedSources : List String) (path : String) : Option ChangeTestFile :=
  let sources := matchedSources classifier sourceStem path changedSources
  if sources ≠ [] then some ⟨path, sources, "partial"⟩ else none

def matchingTests (files : List FileReport) (changedSources : List String) :
    List ChangeTestFile :=
  if changedSources = [] then []
  else
    let tests := ((files.map (·.path.key)).filter classifier.isTestFile).filterMap
      (matchingTest classifier sourceStem changedSources)
    (sortBy (fun left right => compare left.path right.path) tests).eraseRepsBy
      fun left right => left.path = right.path

/-- The full lists, before any of them is cut, and the verdicts on them. -/
structure Evidence where
  changedPaths : List String
  graphEligible : List String
  graphCovered : List String
  direct : List String
  transitive : List String
  contextEntries : List ChangeReadingFile
  testFiles : List ChangeTestFile
  matchingTestPaths : List String
  gaps : GapClasses
  observedScopeConfidence : String
  discoveryCompleteness : String
  testMappingConfidence : String
  scanTruncated : Bool

/-- The first half of `build`. -/
def evidence (inputs : Inputs) : Evidence :=
  let changedPaths := (sortBy compare (inputs.changed.map PathBuf.key)).eraseReps
  let graphEligible := changedPaths.filter fun path =>
    classifier.isFirstClass (PathBuf.ofString path)
  let graphCovered := ((inputs.impact.map (·.graphChangedFiles)).getD []).dedup
  let direct := (inputs.impact.map (·.directDependents)).getD []
  let transitive := (inputs.impact.map (·.transitiveDependents)).getD []
  let entries := if changedPaths = [] then [] else contextEntries inputs.context
  let changedSources := changedPaths.filter fun path =>
    classifier.isCode (PathBuf.ofString path) && !classifier.isTestFile path
  let testFiles := matchingTests classifier sourceStem inputs.files changedSources
  let matchingTestPaths := (sortBy compare (testFiles.map (·.path))).eraseReps
  let entries := mergeMatchingTests entries matchingTestPaths
  let selectedContext := entries.map (·.path)
  let knownImpact := direct ++ transitive ++ graphCovered
  let gaps := classifyGaps inputs.graphDiagnostics changedPaths knownImpact selectedContext
  let scanTruncated := diagnosticsIncomplete inputs.scanDiagnostics ||
    diagnosticsIncomplete inputs.discoveryDiagnostics
  { changedPaths, graphEligible, graphCovered, direct, transitive
    contextEntries := entries
    testFiles, matchingTestPaths, gaps
    observedScopeConfidence :=
      if graphEligible = [] then "not-applicable"
      else if graphCovered = [] then "none"
      else if graphCovered.length < graphEligible.length ∨ !gaps.relevantCounts.isEmpty then
        "partial"
      else "high"
    discoveryCompleteness :=
      if graphCovered = [] then "none"
      else if !gaps.outsideCounts.isEmpty ∨ !gaps.relevantCounts.isEmpty ∨ scanTruncated then
        "partial"
      else "high"
    testMappingConfidence :=
      if changedSources = [] then "not-applicable"
      else if testFiles = [] then "none"
      else "partial"
    scanTruncated }

namespace Evidence

variable (evidence : Evidence)

def changeFile (path : String) : ChangeFile where
  path := path
  graphEligible := path ∈ evidence.graphEligible
  graphCovered := path ∈ evidence.graphCovered

def directFile (path : String) : ChangeImpactFile where
  path := path
  distance := 1
  confidence := "partial"
  resolver := contextResolver evidence.contextEntries path

def transitiveFile (path : String) : ChangeImpactFile where
  path := path
  distance := (contextDistance evidence.contextEntries path).getD 2
  confidence := "partial"
  resolver := contextResolver evidence.contextEntries path

def executive : ChangeExecutive :=
  let (confidence, reasons) := executiveConfidence evidence.observedScopeConfidence
    evidence.discoveryCompleteness evidence.testMappingConfidence evidence.graphEligible.length
    evidence.graphCovered.length evidence.gaps.relevantCounts evidence.gaps.outsideCounts
    evidence.scanTruncated
  { changedFiles := evidence.changedPaths.length
    graphEligibleChangedFiles := evidence.graphEligible.length
    knownDirectDependents := evidence.direct.length
    knownTransitiveDependents := evidence.transitive.length
    matchingTests := evidence.matchingTestPaths.length
    confidence, reasons }

def allValidations : List ChangeValidation :=
  validationCandidates evidence.changedPaths evidence.graphEligible evidence.testFiles
    evidence.gaps.relevant

/-- The second half of `build`: the lists use up one budget in turn. -/
def project (scope : String) : ChangeSummary :=
  let changedFiles := (evidence.changedPaths.take maxPathEntries).map evidence.changeFile
  let remaining := maxPathEntries - changedFiles.length
  let relevantDetails := evidence.gaps.relevant.take (min maxGapEntries remaining)
  let remaining := remaining - relevantDetails.length
  let shownTests := evidence.testFiles.take remaining
  let remaining := remaining - shownTests.length
  let directFiles := (evidence.direct.take remaining).map evidence.directFile
  let remaining := remaining - directFiles.length
  let readingOrder := evidence.contextEntries.take remaining
  let remaining := remaining - readingOrder.length
  let transitiveFiles := (evidence.transitive.take remaining).map evidence.transitiveFile
  let remaining := remaining - transitiveFiles.length
  -- the second instalment has what is left of both limits
  let outsideRoom := min (maxGapEntries - relevantDetails.length) remaining
  let outsideDetails := evidence.gaps.outside.take outsideRoom
  let remaining := remaining - outsideDetails.length
  let gapDetails := relevantDetails ++ outsideDetails
  let impactFiles := directFiles ++ transitiveFiles
  let validations := evidence.allValidations.take (min maxValidations remaining)
  { strategyVersion, scope
    executive := evidence.executive
    changed :=
      { total := evidence.changedPaths.length
        shown := changedFiles.length
        omitted := evidence.changedPaths.length - changedFiles.length
        files := changedFiles }
    readingOrder
    readingOrderTotal := evidence.contextEntries.length
    readingOrderShown := readingOrder.length
    readingOrderOmitted := evidence.contextEntries.length - readingOrder.length
    impact :=
      { directTotal := evidence.direct.length
        transitiveTotal := evidence.transitive.length
        shown := impactFiles.length
        omitted := evidence.direct.length + evidence.transitive.length - impactFiles.length
        files := impactFiles }
    tests :=
      { total := evidence.testFiles.length
        shown := shownTests.length
        omitted := evidence.testFiles.length - shownTests.length
        files := shownTests }
    coverage :=
      { observedScopeConfidence := evidence.observedScopeConfidence
        discoveryCompleteness := evidence.discoveryCompleteness
        testMappingConfidence := evidence.testMappingConfidence
        graphEligibleChanged := evidence.graphEligible.length
        graphCoveredChanged := evidence.graphCovered.length
        nonGraphChanged := evidence.changedPaths.length - evidence.graphEligible.length
        relevantGaps := evidence.gaps.relevantCounts
        outsideKnownScopeGaps := evidence.gaps.outsideCounts
        gaps := gapDetails
        gapsOmitted :=
          evidence.gaps.relevant.length + evidence.gaps.outside.length - gapDetails.length }
    validationsOmitted := evidence.allValidations.length - validations.length
    validations }

end Evidence

def build (inputs : Inputs) : ChangeSummary :=
  (evidence classifier sourceStem inputs).project inputs.scope

end

end Reposcout.Change
