import Reposcout.Config
import Reposcout.Metrics.Markers

/-!
# The analysis of a file

`analyze_source_details`: the report of a file with the fact families that a caller requires.  What
the single analyzers compute is left to functions of exactly their arguments, so that a report shows
which settings it reads.

A path has a text that replaces what is no UTF-8, and only UTF-8 paths are known by their text.
`f64` ratios are exact.
-/

namespace Reposcout.Scan

open Metrics (SyntaxNode MarkerScan)
open Findings (MarkerOccurrence)

/-- The encodings of `TokenCounter`. -/
inductive TokenEncoding where
  | o200k
  | cl100k

structure LineStats where
  loc : ℕ
  sloc : ℕ
  commentLines : ℕ
  approximate : Bool

/-- The analyzers and libraries that the analysis of a file calls. -/
structure Analyzers where
  Path : Type
  toStringLossy : Path → String
  isUtf8 : Path → Bool
  eq_of_toStringLossy : ∀ path other, isUtf8 path → isUtf8 other →
    toStringLossy path = toStringLossy other → path = other
  Complexity : Type
  SymbolCounts : Type
  LexicalFacts : Type
  PlanningFacts : Type
  GraphFacts : Type
  detect : Path → Option LangInfo
  /-- A glob of the ignore crate, below the working directory. -/
  globCompiles : String → Bool
  globMatches : String → Path → Bool
  xxh3 : String → UInt64
  countTokens : TokenEncoding → String → ℕ
  isMinified : String → String → Bool
  isBundledPath : String → Bool
  isGenerated : String → String → Bool
  isVendored : String → Bool
  parse : SourceLanguage → String → Option SyntaxNode
  measureLines : LangInfo → String → Option SyntaxNode → LineStats
  analyzeComplexity : LangInfo → String → Option SyntaxNode → LineStats → Complexity × Bool
  extractImports : SourceLanguage → String → SyntaxNode → List String
  countSymbols : SourceLanguage → String → SyntaxNode → SymbolCounts
  declarations : SourceLanguage → String → SyntaxNode → List SymbolOutline × DefinitionFacts
  extractLexical : Path → String → String → Option SyntaxNode → DefinitionFacts → LexicalFacts
  extractPlanning : String → String → Option SyntaxNode → DefinitionFacts → TokenEncoding →
    PlanningFacts
  extractGraph : SourceLanguage → String → String → SyntaxNode → DefinitionFacts → GraphFacts
  graphParseError : GraphFacts
  hasInlineTests : String → SyntaxNode → Bool
  testRegions : String → SyntaxNode → List LineRange

variable (A : Analyzers)

/-! ## Settings -/

def toAsciiLowercase (text : String) : String := String.ofList (text.toList.map Char.toLower)

def TokenEncoding.new (encoding : String) : Option TokenEncoding :=
  let name := toAsciiLowercase encoding
  if name = "o200k_base" ∨ name = "o200k" then some .o200k
  else if name = "cl100k_base" ∨ name = "cl100k" then some .cl100k
  else none

structure HealthPolicy where
  scope : HealthScope
  includes : List HealthInclude
  excludes : List String

/-- `HealthPolicy::new`: absent if a glob does not compile. -/
def HealthPolicy.new (config : AnalysisConfig) : Option HealthPolicy :=
  if config.healthExcludes.all A.globCompiles then
    some ⟨config.healthScope, config.healthIncludes, config.healthExcludes⟩
  else none

def includedInHealth (info : LangInfo) (scope : HealthScope) (formats : List HealthInclude) :
    Bool :=
  scope = .all || info.isSource || formats.any fun format => format.languageName = info.name

/-- `HealthPolicy::includes`. -/
def HealthPolicy.eligible (policy : HealthPolicy) (path : A.Path) (info : LangInfo) : Bool :=
  includedInHealth info policy.scope policy.includes &&
    !policy.excludes.any fun pattern => A.globMatches pattern path

structure ArtifactRequirements where
  symbolOutlines : Bool := false
  lexicalFacts : Bool := false
  definitionPlans : Bool := false
  graphFacts : Bool := false

def ArtifactRequirements.needsDefinitions (requirements : ArtifactRequirements) : Bool :=
  requirements.symbolOutlines || requirements.lexicalFacts || requirements.definitionPlans ||
    requirements.graphFacts

/-! ## Classification -/

structure Classification where
  hint : Option String
  duplicationArtifact : Bool

def classify (relPath content : String) : Classification :=
  if A.isMinified relPath content then ⟨some "minified", true⟩
  else if A.isBundledPath relPath then ⟨some "bundled", true⟩
  else if A.isGenerated relPath content then ⟨some "generated", false⟩
  else if A.isVendored relPath then ⟨some "vendored", false⟩
  else ⟨none, false⟩

def hintIsDuplicationArtifact (hint : Option String) : Bool :=
  hint = some "minified" || hint = some "bundled"

/-! ## The report -/

/-- A report, without the history that is attached to it later. -/
structure FileReport where
  path : A.Path
  language : String
  bytes : ℕ
  tokens : ℕ
  loc : ℕ
  sloc : ℕ
  commentLines : ℕ
  commentRatio : ℚ
  lineMetricsApproximate : Bool
  complexity : Option A.Complexity
  imports : List String
  markers : List (String × ℕ)
  markerOccurrences : List MarkerOccurrence
  approximate : Bool
  symbols : Option A.SymbolCounts
  skipHint : Option String
  hasInlineTests : Bool

structure SourceAnalysis where
  report : FileReport A
  duplicationArtifact : Bool
  testRegions : List LineRange
  symbolOutlines : Option (List SymbolOutline)
  definitions : Option DefinitionFacts
  lexicalFacts : Option A.LexicalFacts
  definitionPlans : Option A.PlanningFacts
  graphFacts : Option A.GraphFacts

/-- `format!("{:016x}", hash)`. -/
def hex64 (value : UInt64) : String := String.ofList (Encoding.hexDigits 16 value.toNat)

def contextHash (text : String) : String := hex64 (A.xxh3 text)

def markerFacts (info : LangInfo) (content : String) (tree : Option SyntaxNode)
    (config : AnalysisConfig) (healthEligible : Bool) : MarkerScan :=
  if !config.enabled.markers || !healthEligible then .empty
  else
    match info.firstClass, tree with
    | some _, some tree =>
      Metrics.scanDetailedInTree (contextHash A) content.toList config.markers tree
    | _, _ => Metrics.scanDetailed (contextHash A) content.toList config.markers

def complexityFacts (info : LangInfo) (content : String) (tree : Option SyntaxNode)
    (lineStats : LineStats) (config : AnalysisConfig) (healthEligible : Bool) :
    Option A.Complexity × Bool :=
  if !config.enabled.complexity || !healthEligible || !info.isCode then (none, false)
  else
    let (complexity, approximate) := A.analyzeComplexity info content tree lineStats
    (some complexity, approximate)

def importFacts (info : LangInfo) (content : String) (tree : Option SyntaxNode)
    (config : AnalysisConfig) : List String :=
  if !config.enabled.imports then []
  else
    match info.firstClass, tree with
    | some language, some tree => A.extractImports language content tree
    | _, _ => []

def declarationFacts (firstClass : Option SourceLanguage) (content : String)
    (tree : Option SyntaxNode) : List SymbolOutline × DefinitionFacts :=
  match firstClass, tree with
  | some language, some tree => A.declarations language content tree
  | _, _ => ([], ⟨if firstClass.isSome then .unavailable else .unsupported, []⟩)

def symbolFacts (info : LangInfo) (content : String) (tree : Option SyntaxNode)
    (config : AnalysisConfig) (requirements : ArtifactRequirements) :
    Option A.SymbolCounts × Option (List SymbolOutline) × Option DefinitionFacts :=
  let needsCounts := config.enabled.complexity || config.enabled.imports
  if requirements.needsDefinitions then
    match info.firstClass, tree with
    | some language, some tree =>
      -- `symbols::analyze` counts with `symbols::count`
      let (outlines, definitions) := A.declarations language content tree
      (if needsCounts then some (A.countSymbols language content tree) else none, some outlines,
        some definitions)
    | _, _ =>
      let (outlines, definitions) := declarationFacts A info.firstClass content tree
      (none, some outlines, some definitions)
  else
    match info.firstClass, tree with
    | some language, some tree =>
      (if needsCounts then some (A.countSymbols language content tree) else none, none, none)
    | _, _ => (none, none, none)

def graphFacts (info : LangInfo) (relPath content : String) (tree : Option SyntaxNode)
    (requirements : ArtifactRequirements) (definitions : DefinitionFacts) :
    Option A.GraphFacts :=
  if !requirements.graphFacts then none
  else
    match info.firstClass, tree with
    | some language, some tree => some (A.extractGraph language relPath content tree definitions)
    | some _, none => some A.graphParseError
    | none, _ => none

def rustTestFacts (info : LangInfo) (content : String) (tree : Option SyntaxNode) :
    Bool × List LineRange :=
  if info.firstClass ≠ some .rust then (false, [])
  else
    let tree := tree.or (A.parse .rust content)
    (tree.any (A.hasInlineTests content), (tree.map (A.testRegions content)).getD [])

def percentageRatio (numerator denominator : ℕ) : ℚ :=
  if denominator = 0 then 0 else numerator / denominator

/-- `DefinitionFacts::default`. -/
def emptyDefinitions : DefinitionFacts := ⟨.unavailable, []⟩

def parseFile (info : LangInfo) (content : String) : Option SyntaxNode :=
  info.firstClass.bind fun language => A.parse language content

def analyzeSourceDetails (path : A.Path) (content : String) (config : AnalysisConfig)
    (policy : HealthPolicy) (counter : Option TokenEncoding)
    (requirements : ArtifactRequirements) : Option (SourceAnalysis A) :=
  (A.detect path).map fun info =>
    let healthEligible := policy.eligible A path info
    let relPath := A.toStringLossy path
    let classification := classify A relPath content
    let tree := parseFile A info content
    let lineStats := A.measureLines info content tree
    let markerScan := markerFacts A info content tree config healthEligible
    let (complexity, approximate) :=
      complexityFacts A info content tree lineStats config healthEligible
    let (symbols, symbolOutlines, definitions) :=
      symbolFacts A info content tree config requirements
    let definitionFacts := definitions.getD emptyDefinitions
    let testFacts := rustTestFacts A info content tree
    { report := {
        path
        language := info.name
        bytes := content.utf8ByteSize
        tokens := (counter.map fun counter => A.countTokens counter content).getD 0
        loc := lineStats.loc
        sloc := lineStats.sloc
        commentLines := lineStats.commentLines
        commentRatio := percentageRatio lineStats.commentLines lineStats.loc
        lineMetricsApproximate := lineStats.approximate
        complexity
        imports := importFacts A info content tree config
        markers := markerScan.counts
        markerOccurrences := markerScan.occurrences
        approximate
        symbols
        skipHint := classification.hint
        hasInlineTests := testFacts.1 }
      duplicationArtifact := classification.duplicationArtifact
      testRegions := testFacts.2
      symbolOutlines
      definitions
      lexicalFacts :=
        if requirements.lexicalFacts then
          some (A.extractLexical path info.name content tree definitionFacts)
        else none
      definitionPlans :=
        if requirements.definitionPlans then
          counter.map fun counter =>
            A.extractPlanning info.name content tree definitionFacts counter
        else none
      graphFacts := graphFacts A info relPath content tree requirements definitionFacts }

end Reposcout.Scan
