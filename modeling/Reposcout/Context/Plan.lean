import Reposcout.Context.Candidates

/-!
# Outlines and the context plan

Each selected file, and each omitted seed, is given an outline: the headers of its most telling
declarations, within bounds on the bytes and symbols of one file and on the bytes of the plan.

The number of bytes that the serializer needs for a symbol is a parameter.
-/

/-!
## Selecting the files of a context plan

The candidates are ranked and taken in rank order as long as the file limit and the token budget
allow.  A candidate that does not fit is omitted, and the next ones are still tried.  Omitted
seeds are kept aside for an outline.
-/

namespace Reposcout.Context

def maxOmissionDetails : Nat := 10

/-- What planning reads of the configuration. -/
structure Config where
  contextBudget : Nat
  contextMaxFiles : Nat
  maxComplexity : Nat

structure ContextFile where
  path : PathBuf
  tokens : Nat
  score : ℚ
  reasons : List String
  evidence : List ContextEvidence
  symbols : List SymbolOutline
  deriving DecidableEq

structure ContextOmission where
  path : PathBuf
  tokens : Nat
  reason : String
  deriving DecidableEq

structure CandidateSelection where
  selectedTokens : Nat
  selected : List ContextFile
  outlineOnly : List (ContextFile × String)
  omitted : List ContextOmission
  omittedFiles : Nat
  omittedTokens : Nat

/-- The rank order: priority and score descending, then tokens and path. -/
def candidateOrder (left right : Candidate) : Ordering :=
  (Ord.compare right.priority left.priority).then <| (Ord.compare right.score left.score).then <|
      (Ord.compare left.tokens right.tokens).then (Ord.compare left.pathKey right.pathKey)

def rankCandidates (candidates : List Candidate) : List Candidate :=
  KeyedList.sortBy candidateOrder candidates

def contextFile (candidate : Candidate) : ContextFile where
  path := candidate.path
  tokens := candidate.tokens
  score := candidate.score
  reasons := candidate.reasons
  evidence := candidate.evidence
  symbols := []

/-- Why a candidate is omitted at its turn. -/
def omissionReason (candidate : Candidate) (selection : CandidateSelection) (cfg : Config) :
    Option String :=
  if selection.selected.length ≥ cfg.contextMaxFiles then some "file limit reached"
  else if candidate.tokens > cfg.contextBudget then some "file exceeds total token budget"
  else if satAdd selection.selectedTokens candidate.tokens > cfg.contextBudget then
    some "does not fit remaining token budget"
  else none

def omitCandidate (seedFiles : List String) (selection : CandidateSelection)
    (candidate : Candidate) (reason : String) : CandidateSelection :=
  { selection with
    omittedFiles := satAdd selection.omittedFiles 1
    omittedTokens := satAdd selection.omittedTokens candidate.tokens
    outlineOnly :=
      if candidate.pathKey ∈ seedFiles then
        selection.outlineOnly ++ [(contextFile candidate, reason)]
      else selection.outlineOnly
    omitted :=
      if selection.omitted.length < maxOmissionDetails then
        selection.omitted ++ [⟨candidate.path, candidate.tokens, reason⟩]
      else selection.omitted }

def considerCandidate (cfg : Config) (seedFiles : List String) (selection : CandidateSelection)
    (candidate : Candidate) : CandidateSelection :=
  match omissionReason candidate selection cfg with
  | some reason => omitCandidate seedFiles selection candidate reason
  | none =>
    { selection with
      selectedTokens := satAdd selection.selectedTokens candidate.tokens
      selected := selection.selected ++ [contextFile candidate] }

def selectCandidates (candidates : List Candidate) (cfg : Config) (seedFiles : List String) :
    Nat × CandidateSelection :=
  (candidates.length,
    (rankCandidates candidates).foldl (considerCandidate cfg seedFiles) ⟨0, [], [], [], 0, 0⟩)

open Reposcout.Graph Findings KeyedList

def maxOutlineBytes : Nat := 16 * 1024

def maxOutlineBytesPerFile : Nat := 2 * 1024

def maxOutlineSymbolsPerFile : Nat := 16

def maxPrivateSymbolsPerFile : Nat := 4

structure OutlineStats where
  symbols : Nat := 0
  bytes : Nat := 0
  omittedSymbols : Nat := 0
  deriving DecidableEq

/-! ## The symbols of one file -/

/-- `name.rsplit('.').next()`. -/
def lastSegment (name : String) : String :=
  String.ofList (((name.toList.splitOn '.').getLast?).getD [])

def declaredFunction (report : Option FileReport) (symbol : SymbolOutline) :
    Option FunctionComplexity :=
  (report.bind FileReport.complexity).bind fun complexity =>
    complexity.functions.find? fun function =>
      function.line = symbol.line ∧ lastSegment symbol.name = function.name

/-- Add the reasons of a symbol: one for its visibility if it has none, and one for a complexity
finding on the function it declares. -/
def explainSymbol (report : Option FileReport) (maxComplexity : Nat) (symbol : SymbolOutline) :
    SymbolOutline :=
  let symbol :=
    if symbol.reasons = [] then
      { symbol with reasons :=
          [if symbol.exported then "exported/public declaration"
            else "representative file-local declaration"] }
    else symbol
  match declaredFunction report symbol with
  | none => symbol
  | some function =>
    if (symbol.kind = "function" ∨ symbol.kind = "method") ∧
        function.cyclomatic > maxComplexity then
      { symbol with reasons := symbol.reasons ++
          ["complexity finding (cyclomatic " ++ toString function.cyclomatic ++ ")"] }
    else symbol

def symbolHasFinding (symbol : SymbolOutline) : Bool :=
  symbol.reasons.any fun reason => "complexity finding".toList.isPrefixOf reason.toList

/-- Findings first, then exported symbols, then by line and name. -/
def symbolOrder (left right : SymbolOutline) : Ordering :=
  (Ord.compare (symbolHasFinding right) (symbolHasFinding left)).then <|
    (Ord.compare right.exported left.exported).then <|
      (Ord.compare left.line right.line).then (Ord.compare left.name right.name)

structure OutlineState where
  symbols : List SymbolOutline
  fileBytes : Nat
  privateSymbols : Nat
  stats : OutlineStats

def OutlineState.omitSymbol (s : OutlineState) : OutlineState :=
  { s with stats := { s.stats with omittedSymbols := s.stats.omittedSymbols + 1 } }

/-- The symbol and byte bounds leave no room for a symbol of this size. -/
def OutlineState.isFull (s : OutlineState) (bytes : Nat) : Bool :=
  s.symbols.length ≥ maxOutlineSymbolsPerFile ||
    satAdd s.fileBytes bytes > maxOutlineBytesPerFile ||
    satAdd s.stats.bytes bytes > maxOutlineBytes

/-- Add a symbol that has passed the bound on private symbols. -/
def OutlineState.addSymbol (payloadBytes : SymbolOutline → Nat) (s : OutlineState)
    (symbol : SymbolOutline) : OutlineState :=
  let bytes := payloadBytes symbol
  if s.isFull bytes then s.omitSymbol
  else
    { s with
      symbols := s.symbols ++ [symbol]
      fileBytes := s.fileBytes + bytes
      stats :=
        { s.stats with bytes := s.stats.bytes + bytes, symbols := s.stats.symbols + 1 } }

/-- The turn of a symbol.  A private symbol counts as one even if it is omitted for its size. -/
def considerSymbol (payloadBytes : SymbolOutline → Nat) (s : OutlineState)
    (symbol : SymbolOutline) : OutlineState :=
  if symbol.exported then s.addSymbol payloadBytes symbol
  else if s.privateSymbols ≥ maxPrivateSymbolsPerFile then s.omitSymbol
  else { s with privateSymbols := s.privateSymbols + 1 }.addSymbol payloadBytes symbol

/-! ## The outlines of all files -/

section

variable (payloadBytes : SymbolOutline → Nat) (files : List FileReport)
  (outlines : List (PathBuf × List SymbolOutline)) (maxComplexity : Nat)

def attachOutline (file : ContextFile) (stats : OutlineStats) : ContextFile × OutlineStats :=
  match get? file.path outlines with
  | none => (file, stats)
  | some source =>
    let report := get? file.path (indexBy FileReport.path files)
    let candidates :=
      sortBy symbolOrder (source.map (explainSymbol report maxComplexity))
    let outlined := candidates.foldl (considerSymbol payloadBytes) ⟨file.symbols, 0, 0, stats⟩
    ({ file with symbols := outlined.symbols }, outlined.stats)

/-- Outline files one after the other. -/
def attachOutlines : List ContextFile → OutlineStats → List ContextFile × OutlineStats
  | [], stats => ([], stats)
  | file :: rest, stats =>
    let (file, stats) := attachOutline payloadBytes files outlines maxComplexity file stats
    let (rest, stats) := attachOutlines rest stats
    (file :: rest, stats)

structure ContextOutlineOnly where
  path : PathBuf
  sourceTokens : Nat
  score : ℚ
  reason : String
  reasons : List String
  evidence : List ContextEvidence
  symbols : List SymbolOutline
  deriving DecidableEq

/-- An omitted seed is worth listing for its outline or for a diagnostic. -/
def outlineOnlyEntry (entry : (ContextFile × String) × ContextFile) : Option ContextOutlineOnly :=
  let ((source, reason), outlined) := entry
  if outlined.symbols ≠ [] ∨
      source.evidence.any (fun evidence => evidence.role = "diagnostic") then
    some
      { path := source.path
        sourceTokens := source.tokens
        score := source.score
        reason
        reasons := source.reasons
        evidence := source.evidence
        symbols := outlined.symbols }
  else none

/-- `attach_selection_outlines`: the outlined files, the listed seeds and the totals. -/
def attachSelectionOutlines (selection : CandidateSelection) :
    List ContextFile × List ContextOutlineOnly × OutlineStats :=
  let (selected, stats) :=
    attachOutlines payloadBytes files outlines maxComplexity selection.selected {}
  let (outlined, stats) := attachOutlines payloadBytes files outlines maxComplexity
    (selection.outlineOnly.map Prod.fst) stats
  (selected, (selection.outlineOnly.zip outlined).filterMap outlineOnlyEntry, stats)

end

/-! ## The plan -/

structure ContextPlan where
  strategyVersion : Nat
  budgetTokens : Nat
  selectedTokens : Nat
  candidateFiles : Nat
  omittedFiles : Nat
  omittedTokens : Nat
  skippedFiles : Nat
  seedFiles : Nat
  graphEligibleSeedFiles : Nat
  graphCoveredSeedFiles : Nat
  directDependents : Nat
  transitiveDependents : Nat
  matchingTests : Nat
  focus : List PathBuf
  unmatchedFocus : List PathBuf
  changeScope : Option String
  changedFiles : List PathBuf
  graphLanguages : List String
  graphUnresolvedImports : Nat
  graphParseErrors : Nat
  graphConfigErrors : Nat
  outlineSymbols : Nat
  outlineBytes : Nat
  outlineOmittedSymbols : Nat
  files : List ContextFile
  outlineOnly : List ContextOutlineOnly
  omitted : List ContextOmission
  deriving DecidableEq

/-- `build_for_target_with_diagnostics` after the seeds have been resolved. -/
def buildForTarget (classifier : PathClassifier) (payloadBytes : SymbolOutline → Nat)
    (files : List FileReport) (risks : List RiskEntry)
    (outlines : List (PathBuf × List SymbolOutline)) (graph : Option GraphSignals)
    (seeds : PlanningSeeds) (cfg : Config) (changes : Option ChangeSeeds) : ContextPlan :=
  let neighborhood := graphNeighborhood classifier graph seeds.seedFiles
  let collection := collectCandidates classifier files risks graph seeds neighborhood changes
  let (candidateFiles, selection) := selectCandidates collection.candidates cfg seeds.seedFiles
  let (selected, outlineOnly, stats) :=
    attachSelectionOutlines payloadBytes files outlines cfg.maxComplexity selection
  { strategyVersion := if seeds.diagnosticMode then 4 else 3
    budgetTokens := cfg.contextBudget
    selectedTokens := selection.selectedTokens
    candidateFiles
    omittedFiles := selection.omittedFiles
    omittedTokens := selection.omittedTokens
    skippedFiles := collection.skippedFiles
    seedFiles := seeds.seedFiles.length
    graphEligibleSeedFiles := neighborhood.graphEligibleSeedFiles
    graphCoveredSeedFiles := neighborhood.graphCoveredSeedFiles
    directDependents := neighborhood.directDependents
    transitiveDependents := neighborhood.transitiveDependents
    matchingTests := collection.matchingTests
    focus := seeds.focus
    unmatchedFocus := seeds.unmatchedFocus
    changeScope := changes.map ChangeSeeds.scope
    changedFiles := sortBy Ord.compare ((changes.map ChangeSeeds.paths).getD [])
    graphLanguages := (graph.map GraphSignals.languages).getD []
    graphUnresolvedImports := (graph.map GraphSignals.unresolvedImports).getD 0
    graphParseErrors := (graph.map GraphSignals.parseErrors).getD 0
    graphConfigErrors := (graph.map GraphSignals.configErrors).getD 0
    outlineSymbols := stats.symbols
    outlineBytes := stats.bytes
    outlineOmittedSymbols := stats.omittedSymbols
    files := selected
    outlineOnly
    omitted := selection.omitted }

end Reposcout.Context
