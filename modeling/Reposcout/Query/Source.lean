import Reposcout.Query.Source.Selection

/-!
# Source queries

The files of a query are described in the order of their paths, with the hash of their content.
The hash function is a parameter.
-/

/-!
## Admitting results within the output budget

Each resolved target is added to the report if the rendered report still fits.  A source that
overlaps chunks delivered before is merged with them.  A result that does not fit loses its
source, then its candidates one by one, then everything but its status.

What fits is a predicate on reports: the renderer and the token counter are not modelled.
-/

namespace Reposcout.Query

def appended (report : SourceQueryReport) (file : Option SourceQueryFile)
    (result : SourceQueryResult) : SourceQueryReport :=
  let files :=
    match file with
    | some file =>
      if report.files.any fun present => present.id = file.id then report.files
      else
        KeyedList.sortBy (fun left right => compare left.id right.id) (report.files ++ [file])
    | none => report.files
  let results := report.results ++ [result]
  { report with
    files := files
    results := results
    omittedTargets := report.requestedTargets - results.length }

/-- The report if it fits, also after leaving out the root. -/
def fitCandidate (fits : SourceQueryReport → Bool) (candidate : SourceQueryReport) :
    Option SourceQueryReport :=
  if fits candidate then some candidate
  else
    match candidate.root with
    | some _ =>
      let rootless := { candidate with root := none, rootOmitted := true }
      if fits rootless then some rootless else none
    | none => none

/-- The chunk shares bytes of the file with the span, or has the same span. -/
def overlaps (file : ℕ) (span : SourceSpan) (chunk : SourceQueryChunk) : Bool :=
  chunk.file = file && (chunk.span = span ||
      (chunk.span.startByte < span.endByte && chunk.span.endByte > span.startByte))

/-- The smallest span around two spans. -/
def joinSpans (left right : SourceSpan) : SourceSpan where
  startByte := min left.startByte right.startByte
  endByte := max left.endByte right.endByte
  startLine := min left.startLine right.startLine
  endLine := max left.endLine right.endLine

/-- The smallest span around a span and the chunks it is merged with. -/
def combinedSpan (span : SourceSpan) (chunks : List SourceQueryChunk) : SourceSpan :=
  chunks.foldl (fun combined chunk => joinSpans combined chunk.span) span

/-- The id of a merged chunk: the smallest of the merged ones, or a new one. -/
def mergedId (merged : List ℕ) (sources : List SourceQueryChunk) : ℕ :=
  merged.min?.getD (((sources.map (·.id)).max?.getD 0) + 1)

/-- A result of a merged chunk points to the new one. -/
def redirect (merged : List ℕ) (id : ℕ) (result : SourceQueryResult) : SourceQueryResult :=
  if result.source.any fun source => source ∈ merged then { result with source := some id }
  else result

/-- Add a span of a file to the delivered chunks. The result is the id of its chunk. -/
def mergeSource (report : SourceQueryReport) (file : ℕ) (content : String) (span : SourceSpan) :
    Except String (SourceQueryReport × ℕ) :=
  let merged := (report.sources.filter (overlaps file span)).map (·.id)
  let id := mergedId merged report.sources
  let combined := combinedSpan span (report.sources.filter fun chunk => chunk.id ∈ merged)
  match getBytes content combined.startByte combined.endByte with
  | none => .error "source span does not match the loaded content"
  | some selected =>
    .ok ({ report with
      results := report.results.map (redirect merged id)
      sources :=
        KeyedList.sortBy (fun left right => compare left.id right.id)
          ((report.sources.filter fun chunk => chunk.id ∉ merged) ++
            [⟨id, file, combined, selected⟩]) }, id)

def sourceLast (report : SourceQueryReport) (id : ℕ) : SourceQueryReport :=
  { report with
    results := report.results.modify (report.results.length - 1) fun result =>
      { result with source := some id } }

def withSource (report : SourceQueryReport) (resolved : ResolvedTarget) (content : String)
    (span : SourceSpan) : Except String SourceQueryReport :=
  match resolved.result.file with
  | none => .error "resolved source has no file identity"
  | some file =>
    (mergeSource (appended report resolved.file resolved.result) file content span).map
      fun merged => sourceLast merged.1 merged.2

/-- Try a result with fewer and fewer candidates. -/
def admitBare (fits : SourceQueryReport → Bool) (report : SourceQueryReport)
    (file : Option SourceQueryFile) : ℕ → SourceQueryResult → Option SourceQueryReport
  | count, result =>
    match fitCandidate fits (appended report file result), count with
    | some candidate, _ => some candidate
    | none, 0 => none
    | none, count + 1 =>
      admitBare fits report file count
        { result with
          candidates := result.candidates.dropLast
          omittedCandidates := result.totalCandidates - result.candidates.dropLast.length }

/-- What remains of a result that does not fit at all. -/
def budgetOmitted (result : SourceQueryResult) : SourceQueryResult :=
  { result with
    status := .budgetOmitted
    file := none
    selection := none
    requestedRange := none
    definition := none
    source := none
    candidates := []
    omittedCandidates :=
      if result.candidates = [] then result.omittedCandidates else result.totalCandidates }

def admitResult (fits : SourceQueryReport → Bool) (report : SourceQueryReport)
    (file : Option SourceQueryFile) (result : SourceQueryResult) : SourceQueryReport :=
  match admitBare fits report file result.candidates.length result with
  | some candidate => candidate
  | none => (fitCandidate fits (appended report none (budgetOmitted result))).getD report

def admitWithFit (byteBudget : ℕ) (fits : SourceQueryReport → Bool) (report : SourceQueryReport)
    (resolved : ResolvedTarget) : Except String SourceQueryReport :=
  let unsourced := { resolved.result with status := .budgetOmitted, source := none }
  match resolved.source with
  | none => .ok (admitResult fits report resolved.file resolved.result)
  | some (content, span) =>
    if span.endByte - span.startByte ≤ byteBudget then
      match withSource report resolved content span with
      | .error message => .error message
      | .ok candidate =>
        match fitCandidate fits candidate with
        | some candidate => .ok candidate
        | none => .ok (admitResult fits report resolved.file unsourced)
    else .ok (admitResult fits report resolved.file unsourced)

def admitAll (byteBudget : ℕ) (fits : SourceQueryReport → Bool) (report : SourceQueryReport)
    (targets : List ResolvedTarget) : Except String SourceQueryReport :=
  targets.foldlM (admitWithFit byteBudget fits) report

/-- The report of the caller after an attempt: an error leaves it as it is. -/
def attempt (byteBudget : ℕ) (fits : SourceQueryReport → Bool) (report : SourceQueryReport)
    (resolved : ResolvedTarget) : SourceQueryReport :=
  match admitWithFit byteBudget fits report resolved with
  | .ok next => next
  | .error _ => report

def attempts (byteBudget : ℕ) (fits : SourceQueryReport → Bool) (report : SourceQueryReport)
    (targets : List ResolvedTarget) : SourceQueryReport :=
  targets.foldl (attempt byteBudget fits) report

open KeyedList

structure SourceQueryOptions where
  targets : List SourceQueryTarget
  tokenBudget : ℕ
  byteBudget : ℕ

def describeFile (sourceHash : String → String) (batch : ExplicitSourceBatch) (path : PathBuf)
    (index : ℕ) : SourceQueryFile :=
  let loaded := get? path batch.files
  let available := loaded.filter fun file =>
    file.definitions.status = .available || file.definitions.status = .parseErrors
  { id := index + 1
    path := path
    snapshot := .worktree
    status := (get? path batch.failures).map failureStatus
    language := loaded.map (·.language)
    sha256 := loaded.map fun file => sourceHash file.content
    extraction := loaded.map (·.definitions.status)
    declarations := available.map (·.definitions.definitions.length)
    sourceDefinitions := available.map fun file =>
      file.definitions.definitions.countP fun definition => definition.sourceSpan.isSome }

def orderedPaths (paths : List PathBuf) : List PathBuf := sortBy compare paths.dedup

def describeFiles (sourceHash : String → String) (batch : ExplicitSourceBatch)
    (paths : List PathBuf) : List (PathBuf × SourceQueryFile) :=
  (orderedPaths paths).zipIdx.map fun item =>
    (item.1, describeFile sourceHash batch item.1 item.2)

/-- `empty_report`. The root is absent if it is not text. -/
def emptyReport (root : Option String) (options : SourceQueryOptions) (encoding : String) :
    SourceQueryReport where
  kind := "source_query"
  schemaVersion := schemaVersion
  root := root
  rootOmitted := root.isNone
  encoding := encoding
  mode :=
    if options.targets.head?.any fun target => target.selector = .outline then "outline"
    else "source"
  tokenBudget := options.tokenBudget
  byteBudget := options.byteBudget
  requestedTargets := options.targets.length
  omittedTargets := options.targets.length
  files := []
  results := []
  sources := []

end Reposcout.Query
