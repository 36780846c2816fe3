import Reposcout.Findings.Build
import Reposcout.Graph.Topology

/-!
# Candidates of a context plan

Every scanned file is either skipped or rated as a candidate.  The rating adds up points for
focus, change, dependency, tests, neighbours and the signals of the file itself, and records a
reason and, for relations, evidence for each.

What the scanner knows of a path (its language, whether it is a test) is a parameter.  Scores are
exact rationals.
-/

/-!
## Dependents of the context seeds

The context planner rates a file by its distance from the seed files along reversed imports.
`dependentReach` computes these distances, and for each reached file the seed it was reached
from and, for a direct dependent, the resolver of the import.
-/

namespace Reposcout.Context

open Reposcout.Graph KeyedList

structure GraphReach where
  sourceSeed : String
  distance : Nat
  resolver : Option String
  deriving DecidableEq

/-- The maps that the search updates. -/
structure ReachState where
  distances : List (String × Nat)
  origins : List (String × String)
  reach : List (String × GraphReach)

def enterDependent (seeds : List String) (signal : GraphFileSignal) (path : String)
    (nextDistance : Nat) (s : ReachState) (dependent : String) : ReachState :=
  let sourceSeed := (get? path s.origins).getD path
  let found : GraphReach :=
    { sourceSeed
      distance := nextDistance
      resolver := if nextDistance = 1 then get? dependent signal.dependentResolvers
        else none }
  { distances := KeyedList.alter dependent (fun _ => nextDistance) s.distances
    origins := KeyedList.alter dependent (fun _ => sourceSeed) s.origins
    reach := if dependent ∈ seeds then s.reach
      else KeyedList.alter dependent (fun _ => found) s.reach }

/-- Pass one dependent of a path: it is entered if it is unknown or was farther away. -/
def relaxDependent (seeds : List String) (signal : GraphFileSignal) (path : String)
    (distance : Nat) (s : ReachState × List String) (dependent : String) :
    ReachState × List String :=
  let nextDistance := satAdd distance 1
  let shouldUpdate :=
    match get? dependent s.1.distances with
    | none => true
    | some known => decide (nextDistance < known)
  if shouldUpdate then
    (enterDependent seeds signal path nextDistance s.1 dependent, s.2 ++ [dependent])
  else s

def visitPath (graph : GraphSignals) (seeds : List String) (s : ReachState) (path : String) :
    ReachState × List String :=
  let distance := (get? path s.distances).getD 0
  match get? path graph.files with
  | none => (s, [])
  | some signal => signal.dependents.foldl (relaxDependent seeds signal path distance) (s, [])

/-- All dependents that a search can enter. -/
def allDependents (graph : GraphSignals) : List String :=
  graph.files.flatMap fun file => file.2.dependents

def reachSearch (graph : GraphSignals) (seeds : List String) : List String × ReachState :=
  let orderedSeeds := sortBy Ord.compare seeds
  let start : ReachState :=
    ⟨orderedSeeds.map (·, 0), orderedSeeds.map fun seed => (seed, seed), []⟩
  BreadthFirst.drain (visitPath graph seeds) (seeds.length + (allDependents graph).length)
    orderedSeeds start

/-- `dependent_reach` for a set of seeds. -/
def dependentReach (graph : Option GraphSignals) (seeds : List String) :
    List (String × GraphReach) :=
  match graph with
  | none => []
  | some graph => (reachSearch graph seeds).2.reach

open Findings

/-- What language detection and the test heuristics say about a path. -/
structure PathClassifier where
  isCode : PathBuf → Bool
  isFirstClass : PathBuf → Bool
  isTestFile : String → Bool
  testStemKeys : String → List String
  isEntrypoint : String → Bool

structure ComplexityReport where
  cyclomatic : Nat
  functions : List FunctionComplexity
  deriving DecidableEq

/-- What the planner reads of a file report; `churn` is the number of commits. -/
structure FileReport where
  path : PathBuf
  tokens : Nat
  skipHint : Option String
  churn : Option Nat
  complexity : Option ComplexityReport
  deriving DecidableEq

structure ContextEvidence where
  diagnosticIds : List String := []
  role : String
  confidence : String
  distance : Option Nat
  resolver : Option String
  deriving DecidableEq

inductive TaskDiagnosticSeverity where
  | error | warning | note | info | unknown
  deriving DecidableEq

def TaskDiagnosticSeverity.name : TaskDiagnosticSeverity → String
  | .error => "error"
  | .warning => "warning"
  | .note => "note"
  | .info => "info"
  | .unknown => "unknown"

structure DiagnosticSeed where
  confidence : String
  severity : TaskDiagnosticSeverity
  ids : List String
  count : Nat
  deriving DecidableEq

structure ChangeSeeds where
  scope : String
  paths : List PathBuf

/-- What focus, changes and diagnostics ask for; `diagnostics` in the order of the paths. -/
structure PlanningSeeds where
  diagnostics : List (String × DiagnosticSeed)
  diagnosticMode : Bool
  focus : List PathBuf
  unmatchedFocus : List PathBuf
  explicitFiles : List String
  changedFiles : List String
  seedFiles : List String
  focusDirectories : List String
  focusSourceStems : List String

structure Candidate where
  priority : Nat
  path : PathBuf
  pathKey : String
  tokens : Nat
  score : ℚ
  reasons : List String
  evidence : List ContextEvidence

structure CandidateScore where
  value : ℚ
  reasons : List String
  evidence : List ContextEvidence

/-! ## The graph around the seeds -/

structure GraphNeighborhood where
  dependencies : List (String × Option String)
  dependents : List (String × GraphReach)
  directDependents : Nat
  transitiveDependents : Nat
  graphEligibleSeedFiles : Nat
  graphCoveredSeedFiles : Nat

/-- The dependencies of the seeds with the resolver of the first seed that has them. -/
def seedDependencies (graph : GraphSignals) (seedFiles : List String) :
    List (String × Option String) :=
  (sortBy Ord.compare seedFiles).foldl (fun dependencies path =>
    match get? path graph.files with
    | none => dependencies
    | some signal => signal.dependencies.foldl (fun dependencies dependency =>
        KeyedList.alter dependency (fun existing =>
          existing.getD (get? dependency signal.dependencyResolvers)) dependencies)
        dependencies) []

def graphNeighborhood (classifier : PathClassifier) (graph : Option GraphSignals)
    (seedFiles : List String) : GraphNeighborhood :=
  let dependents := dependentReach graph seedFiles
  { dependencies := (graph.map (seedDependencies · seedFiles)).getD []
    dependents
    directDependents := dependents.countP (fun found => found.2.distance == 1)
    transitiveDependents := dependents.countP (fun found => found.2.distance > 1)
    graphEligibleSeedFiles :=
      seedFiles.countP (fun path => classifier.isFirstClass (PathBuf.ofString path))
    graphCoveredSeedFiles :=
      match graph with
      | none => 0
      | some graph => seedFiles.countP (fun path => (get? path graph.files).isSome) }

/-! ## Rating -/

/-- What is known of a candidate when it is rated. -/
structure CandidateFacts where
  path : String
  focused : Bool
  changed : Bool
  dependency : Option (Option String)
  dependent : Option GraphReach
  sharesFocusDirectory : Bool
  matchingTest : Bool
  support : Option (String × ℚ)
  risk : Option RiskEntry

def CandidateScore.addValue (score : CandidateScore) (points : ℚ) : CandidateScore :=
  { score with value := score.value + points }

def CandidateScore.addReason (score : CandidateScore) (reason : String) : CandidateScore :=
  { score with reasons := score.reasons ++ [reason] }

def CandidateScore.addEvidence (score : CandidateScore) (evidence : ContextEvidence) :
    CandidateScore :=
  { score with evidence := score.evidence ++ [evidence] }

def resolverIsPrecise (resolver : String) : Bool :=
  resolver ∈ ["relative", "python-relative", "tsconfig-paths", "tsconfig-base-url",
    "package-imports", "package-exports", "package-entrypoint", "composer-psr-4",
    "composer-psr-0", "php-include", "godot-resource", "godot-uid"]

def graphEvidence (role : String) (distance : Nat) (resolver : Option String) :
    ContextEvidence where
  role
  confidence := if distance == 1 && resolver.any resolverIsPrecise then "high" else "partial"
  distance := some distance
  resolver

def scoreSeed (file : FileReport) (facts : CandidateFacts) (changes : Option ChangeSeeds)
    (score : CandidateScore) : CandidateScore :=
  let score :=
    if facts.focused then
      let score := ((score.addValue 1200).addReason "focus path").addEvidence
        ⟨[], "focus", "high", some 0, none⟩
      match file.skipHint with
      | some hint => score.addReason ("focus overrides " ++ hint ++ " skip hint")
      | none => score
    else score
  if facts.changed then
    let changeScope := (changes.map ChangeSeeds.scope).getD "diff"
    let score := ((score.addValue 1100).addReason
      ("changed in " ++ changeScope ++ " scope")).addEvidence
      ⟨[], "changed", "high", some 0, none⟩
    match file.skipHint with
    | some hint => score.addReason ("change overrides " ++ hint ++ " skip hint")
    | none => score
  else score

def scoreDependents (facts : CandidateFacts) (changes : Option ChangeSeeds)
    (score : CandidateScore) : CandidateScore :=
  match facts.dependent with
  | none => score
  | some reach =>
    let score :=
      if reach.distance = 1 then
        (score.addValue 550).addReason
          (if changes.isSome then "direct dependent of change" else "direct dependent of focus")
      else
        (score.addValue (425 / reach.distance)).addReason
          ("transitive dependent of " ++ (if changes.isSome then "change" else "focus") ++ " ("
            ++ toString reach.distance ++ " hops)")
    score.addEvidence (graphEvidence "dependent" reach.distance reach.resolver)

def scoreNearbyAndTests (facts : CandidateFacts) (changes : Option ChangeSeeds)
    (score : CandidateScore) : CandidateScore :=
  let score :=
    if facts.matchingTest then
      ((score.addValue 500).addReason
        (if changes.isSome then "matching test for change"
          else "matching test for focus")).addEvidence
        ⟨[], "matching-test", "partial", none, none⟩
    else score
  if facts.sharesFocusDirectory then
    let elevatedNearbyRisk : Bool :=
      changes.isSome && facts.risk.any (fun risk => risk.score ≥ 4 / 10)
    ((score.addValue (if changes.isSome && !elevatedNearbyRisk then 75 else 250)).addReason
      (if elevatedNearbyRisk then "nearby elevated-risk code"
        else if changes.isSome then "shares changed-file directory"
        else "shares focus directory")).addEvidence
      ⟨[], "nearby", "partial", none, none⟩
  else score

def scoreRelationships (file : FileReport) (facts : CandidateFacts)
    (changes : Option ChangeSeeds) (score : CandidateScore) : CandidateScore :=
  let score := scoreSeed file facts changes score
  let score :=
    match facts.dependency with
    | none => score
    | some resolver =>
      ((score.addValue 600).addReason
        (if changes.isSome then "direct dependency of change"
          else "direct dependency of focus")).addEvidence
        (graphEvidence "dependency" 1 resolver)
  scoreNearbyAndTests facts changes (scoreDependents facts changes score)

def scoreGraphSignal (signal : GraphFileSignal) (score : CandidateScore) : CandidateScore :=
  let score :=
    if signal.fanIn > 0 then
      (score.addValue ((min signal.fanIn 20 * 18 : Nat) : ℚ)).addReason
        ("depended on by " ++ toString signal.fanIn ++ " graph files")
    else score
  if signal.fanOut > 0 then
    (score.addValue ((min signal.fanOut 20 * 5 : Nat) : ℚ)).addReason
      ("connects " ++ toString signal.fanOut ++ " internal dependencies")
  else score

def scoreRisk (risk : RiskEntry) (score : CandidateScore) : CandidateScore :=
  let score := score.addValue (risk.score * 200)
  if risk.score ≥ 7 / 10 then
    score.addReason ("high risk (" ++ formatTwoDecimals risk.score ++ ")")
  else if risk.score ≥ 4 / 10 then
    score.addReason ("elevated risk (" ++ formatTwoDecimals risk.score ++ ")")
  else score

def scoreFileSignals (classifier : PathClassifier) (file : FileReport) (facts : CandidateFacts)
    (graph : Option GraphSignals) (score : CandidateScore) : CandidateScore :=
  let score :=
    match facts.support with
    | none => score
    | some (role, weight) =>
      ((score.addValue weight).addValue
        (if '/' ∈ facts.path.toList then 0 else 100)).addReason role
  let score :=
    if classifier.isEntrypoint facts.path then (score.addValue 300).addReason "entrypoint"
    else score
  let score :=
    match graph.bind (fun graph => get? facts.path graph.files) with
    | none => score
    | some signal => scoreGraphSignal signal score
  let score :=
    match facts.risk with
    | none => score
    | some risk => scoreRisk risk score
  let score :=
    match file.churn with
    | none => score
    | some commits =>
      if commits ≥ 5 then
        (score.addValue ((min commits 20 : Nat) * 4)).addReason
          ("active history (" ++ toString commits ++ " commits)")
      else score
  match file.complexity with
  | none => score
  | some complexity =>
    if complexity.cyclomatic ≥ 10 then
      (score.addValue ((min complexity.cyclomatic 100 : Nat) * (3 / 2))).addReason
        ("complex control flow (" ++ toString complexity.cyclomatic ++ ")")
    else score

def supportRole (path : String) : Option (String × ℚ) :=
  let filename := String.ofList (((path.toList.splitOn '/').getLast?).getD path.toList)
  let lower := String.ofList (filename.toList.map Char.toLower)
  if lower ∈ ["agents.md", "claude.md", "gemini.md", "codex.md"] then
    some ("repository instructions", 700)
  else if lower = "handoff.md" then some ("repository handoff", 400)
  else if "readme".toList.isPrefixOf lower.toList ||
      "contributing".toList.isPrefixOf lower.toList then
    some ("project overview", 350)
  else if lower ∈ ["cargo.toml", "package.json", "pyproject.toml", "go.mod", "pom.xml",
      "build.gradle", "build.gradle.kts", "makefile", "justfile", "reposcout.toml",
      ".reposcout.toml"] || "tsconfig".toList.isPrefixOf lower.toList then
    some ("project manifest or build configuration", 325)
  else none

/-! ## Diagnostics -/

def diagnosticPriority (focused changed : Bool) (diagnostic : Option DiagnosticSeed) : Nat :=
  if focused then 5
  else if diagnostic.any (fun seed => seed.severity = .error) then 4
  else if changed then 3
  else
    match diagnostic.map DiagnosticSeed.severity with
    | some .warning => 2
    | some _ => 1
    | none => 0

/-- Add the ids of a seed to a proof, up to eight. -/
def extendDiagnosticIds (ids new : List String) : List String :=
  new.foldl (fun ids id =>
    if ids.length ≥ 8 ∨ id ∈ ids then ids else ids ++ [id]) ids

/-- The diagnostic ids that a piece of graph evidence is owed to. -/
def attachDiagnosticNeighbor (graph : GraphSignals) (seeds : PlanningSeeds)
    (neighborhood : GraphNeighborhood) (path : String) (proof : ContextEvidence) :
    ContextEvidence :=
  if proof.role = "dependent" ∧ proof.distance.any (fun distance => distance > 1) then
    match (get? path neighborhood.dependents).bind
        (fun reach => get? reach.sourceSeed seeds.diagnostics) with
    | some seed => { proof with diagnosticIds := seed.ids }
    | none => proof
  else if (proof.role = "dependency" ∨ proof.role = "dependent") ∧ proof.distance = some 1 then
    seeds.diagnostics.foldl (fun proof (seedPath, seed) =>
      match get? seedPath graph.files with
      | none => proof
      | some signal =>
        let neighbors :=
          if proof.role = "dependency" then signal.dependencies else signal.dependents
        if path ∈ neighbors then
          { proof with diagnosticIds := extendDiagnosticIds proof.diagnosticIds seed.ids }
        else proof) proof
  else proof

def attachDiagnosticNeighbors (graph : Option GraphSignals) (seeds : PlanningSeeds)
    (neighborhood : GraphNeighborhood) (path : String) (evidence : List ContextEvidence) :
    List ContextEvidence :=
  match graph with
  | none => evidence
  | some graph => evidence.map (attachDiagnosticNeighbor graph seeds neighborhood path)

def scoreDiagnostic (diagnostic : DiagnosticSeed) (score : CandidateScore) : CandidateScore :=
  ((score.addValue (10 * (min diagnostic.count 3 : Nat))).addReason
    ("resolved " ++ diagnostic.severity.name ++ " diagnostic")).addEvidence
    ⟨diagnostic.ids, "diagnostic", diagnostic.confidence, some 0, none⟩

/-! ## Candidates -/

/-- `(score * 100.0).round() / 100.0`; halves are rounded away from zero. -/
def roundScore (score : ℚ) : ℚ :=
  let scaled := score * 100
  (if scaled < 0 then -(((-scaled + 1 / 2).floor : Int) : ℚ) else ((scaled + 1 / 2).floor : ℚ))
    / 100

structure CandidateInputs where
  classifier : PathClassifier
  seeds : PlanningSeeds
  neighborhood : GraphNeighborhood
  graph : Option GraphSignals
  changes : Option ChangeSeeds
  riskByPath : List (String × RiskEntry)

def candidateFacts (file : FileReport) (inputs : CandidateInputs) : CandidateFacts :=
  let seeds := inputs.seeds
  let path := file.path.key
  let focused : Bool := path ∈ seeds.explicitFiles
  let changed : Bool := path ∈ seeds.changedFiles
  { path
    focused
    changed
    dependency := get? path inputs.neighborhood.dependencies
    dependent := get? path inputs.neighborhood.dependents
    sharesFocusDirectory := !focused && !changed &&
      (PathBuf.ofString path).parent.any (fun parent => parent.key ∈ seeds.focusDirectories)
    matchingTest := seeds.focusSourceStems ≠ [] && inputs.classifier.isTestFile path &&
      (inputs.classifier.testStemKeys path).any (fun key => key ∈ seeds.focusSourceStems)
    support := supportRole path
    risk := get? path inputs.riskByPath }

/-- A file without any tie to the plan is skipped. -/
def isSkipped (file : FileReport) (facts : CandidateFacts) (inputs : CandidateInputs) : Bool :=
  let diagnostic := get? facts.path inputs.seeds.diagnostics
  (file.skipHint.isSome && !facts.focused && !facts.changed && diagnostic.isNone) ||
  (!inputs.classifier.isCode file.path && facts.support.isNone && !facts.focused &&
    !facts.changed && diagnostic.isNone && facts.dependency.isNone && facts.dependent.isNone &&
    !facts.matchingTest)

def candidateScore (file : FileReport) (facts : CandidateFacts) (inputs : CandidateInputs) :
    CandidateScore :=
  let seeds := inputs.seeds
  let start : CandidateScore := ⟨if inputs.classifier.isCode file.path then 10 else 0, [], []⟩
  let score := scoreRelationships file facts inputs.changes start
  let score := scoreFileSignals inputs.classifier file facts inputs.graph score
  let score :=
    match get? facts.path seeds.diagnostics with
    | none => score
    | some diagnostic => scoreDiagnostic diagnostic score
  let evidence :=
    attachDiagnosticNeighbors inputs.graph seeds inputs.neighborhood facts.path score.evidence
  let reasons :=
    if seeds.diagnosticMode && seeds.explicitFiles.isEmpty && inputs.changes.isNone then
      score.reasons.map (fun reason => reason.replace "of focus" "of diagnostic")
    else score.reasons
  let reasons :=
    if reasons.isEmpty then
      [if inputs.classifier.isTestFile facts.path then "test source"
        else "representative source file"]
    else reasons
  { value := score.value, reasons, evidence }

/-- The candidate of a file, if it is not skipped, and whether it is a matching test. -/
def buildCandidate (file : FileReport) (inputs : CandidateInputs) : Option Candidate × Bool :=
  let facts := candidateFacts file inputs
  if isSkipped file facts inputs then (none, facts.matchingTest)
  else
    let score := candidateScore file facts inputs
    let diagnostic := get? facts.path inputs.seeds.diagnostics
    (some
      { priority :=
          if inputs.seeds.diagnosticMode then
            diagnosticPriority facts.focused facts.changed diagnostic
          else 0
        path := file.path
        pathKey := facts.path
        tokens := file.tokens
        score := roundScore score.value
        reasons := score.reasons
        evidence := score.evidence }, facts.matchingTest)

structure CandidateCollection where
  candidates : List Candidate
  skippedFiles : Nat
  matchingTests : Nat

def collectFile (inputs : CandidateInputs) (collection : CandidateCollection)
    (file : FileReport) : CandidateCollection :=
  let (candidate, matchingTest) := buildCandidate file inputs
  let matchingTests := satAdd collection.matchingTests (if matchingTest then 1 else 0)
  match candidate with
  | some candidate =>
    { collection with candidates := collection.candidates ++ [candidate], matchingTests }
  | none =>
    { collection with skippedFiles := satAdd collection.skippedFiles 1, matchingTests }

def collectCandidates (classifier : PathClassifier) (files : List FileReport)
    (risks : List RiskEntry) (graph : Option GraphSignals) (seeds : PlanningSeeds)
    (neighborhood : GraphNeighborhood) (changes : Option ChangeSeeds) : CandidateCollection :=
  let inputs : CandidateInputs :=
    { classifier, seeds, neighborhood, graph, changes
      riskByPath := (indexBy RiskEntry.path risks) }
  files.foldl (collectFile inputs) ⟨[], 0, 0⟩

end Reposcout.Context
