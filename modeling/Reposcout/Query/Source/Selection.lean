import Reposcout.Model.SourceQuery
import Reposcout.Model.Text

/-!
# Resolving a requested source

A target names a file of a snapshot and a selector.  It resolves to a result and, when the
selection is unique, to the text and span to deliver.
-/

namespace Reposcout.Query

open KeyedList

def maxCandidates : ℕ := 8

inductive SourceSelector where
  | symbol (name : String)
  | line (line : ℕ)
  | range (start stop : ℕ)
  | file
  | outline
  deriving DecidableEq

structure SourceQueryTarget where
  path : PathBuf
  selector : SourceSelector
  expectedHash : Option String
  snapshot : SourceRevision
  deriving DecidableEq

inductive ExplicitSourceFailure where
  | invalidPath
  | excluded
  | ignoreError
  | unsupported
  | unreadable
  | notRegularFile
  | oversized
  | budgetExceeded
  | deadlineExceeded
  | missing
  | binary
  | conflict
  deriving DecidableEq

/-- A captured file. `loc` is the line count of its report, when it has one. -/
structure ExplicitSourceFile where
  content : String
  language : String
  definitions : DefinitionFacts
  loc : Option ℕ
  deriving DecidableEq

structure ExplicitSourceBatch where
  files : List (PathBuf × ExplicitSourceFile)
  failures : List (PathBuf × ExplicitSourceFailure)

structure ResolvedTarget where
  file : Option SourceQueryFile
  result : SourceQueryResult
  source : Option (String × SourceSpan)

def failureStatus : ExplicitSourceFailure → SourceQueryStatus
  | .invalidPath => .invalidPath
  | .excluded => .excluded
  | .ignoreError => .ignoreError
  | .unsupported => .unsupported
  | .unreadable => .unreadable
  | .notRegularFile => .notRegularFile
  | .oversized => .oversized
  | .budgetExceeded => .inputBudgetExceeded
  | .deadlineExceeded => .deadlineExceeded
  | .missing => .notFound
  | .binary => .binary
  | .conflict => .conflict

def requestedRange : SourceSelector → Option LineRange
  | .range start stop => some ⟨start, stop⟩
  | _ => none

def emptyResult (target : ℕ) (file : Option ℕ) : SourceQueryResult where
  target := target
  file := file
  status := .unavailable
  selection := none
  requestedRange := none
  definition := none
  source := none
  candidates := []
  totalCandidates := 0
  omittedCandidates := 0

def describe (definition : DefinitionFact) (outline : Bool) : SourceQueryDefinition where
  name := definition.symbol.name
  kind := definition.symbol.kind
  declarationSpan := definition.declarationSpan
  sourceSpan := definition.sourceSpan
  signature := if outline then some definition.symbol.signature else none

def fileSpan (content : String) (lineCount : Option ℕ) : SourceSpan where
  startByte := 0
  endByte := utf8Length content.toList
  startLine := 1
  endLine := max (lineCount.getD (splitInclusive content.toList).length) 1

/-- The search of `line_range_span` from the line with number `line` on. -/
def lineRangeFrom (start stop : ℕ) : ℕ → ℕ → Option ℕ → List (List Char) → Option SourceSpan
  | _, _, _, [] => none
  | line, offset, startByte, chars :: rest =>
    let startByte := if line = start then some offset else startByte
    let offset := offset + utf8Length chars
    if line = stop then startByte.map fun first => ⟨first, offset, start, stop⟩
    else lineRangeFrom start stop (line + 1) offset startByte rest

def lineRangeSpan (content : String) (start stop : ℕ) : Option SourceSpan :=
  lineRangeFrom start stop 1 0 none (splitInclusive content.toList)

/-- The definitions a selector matches and the rule that matched them. -/
def select (definitions : List DefinitionFact) : SourceSelector → List DefinitionFact × String
  | .symbol name =>
    if (definitions.filter fun definition => definition.symbol.name = name) ≠ [] then
      (definitions.filter fun definition => definition.symbol.name = name, "exact-qualified-name")
    else
      (definitions.filter fun definition => simpleName definition.symbol.name = some name,
        "exact-simple-name")
  | .line line => ((innermost (lineMatches definitions line)).map Prod.fst, "innermost-line")
  | .outline => ([], "file-outline")
  | .file => ([], "file")
  | .range _ _ => ([], "range")

/-- The outcome of selecting definitions: unique, missing or ambiguous. -/
def resolveDefinition (resolved : ResolvedTarget) (content : String)
    (definitions : List DefinitionFact) (extraction : DefinitionStatus)
    (selector : SourceSelector) : ResolvedTarget :=
  let selected := select definitions selector
  let result :=
    { resolved.result with
      selection := some selected.2
      totalCandidates := selected.1.length }
  match selected.1 with
  | [] =>
    { resolved with
      result :=
        { result with status := if extraction = .parseErrors then .parseError else .notFound } }
  | [definition] =>
    match definition.sourceSpan with
    | some span =>
      if (getBytes content span.startByte span.endByte).isSome then
        { resolved with
          result := { result with
            definition := some (describe definition false), status := .complete }
          source := some (content, span) }
      else
        { resolved with
          result := { result with
            definition := some (describe definition false), status := .unavailable } }
    | none =>
      { resolved with
        result := { result with
          definition := some (describe definition false), status := .parseError } }
  | definitions =>
    let candidates := (definitions.take maxCandidates).map fun definition =>
      describe definition false
    { resolved with
      result :=
        { result with
          status := .ambiguous
          candidates := candidates
          omittedCandidates := definitions.length - candidates.length } }

/-- The outline of a file, as far as the remaining allowance goes. -/
def resolveOutline (resolved : ResolvedTarget) (definitions : List DefinitionFact)
    (outlineRemaining : ℕ) : ResolvedTarget × ℕ :=
  let candidates := (definitions.take outlineRemaining).map fun definition =>
    describe definition true
  ({ resolved with
      result :=
        { resolved.result with
          status := .outline
          selection := some "file-outline"
          totalCandidates := definitions.length
          candidates := candidates
          omittedCandidates := definitions.length - candidates.length } },
    outlineRemaining - candidates.length)

/-- The selection in a captured file whose hash is as expected. -/
def resolveLoaded (resolved : ResolvedTarget) (loaded : ExplicitSourceFile)
    (selector : SourceSelector) (outlineRemaining : ℕ) : ResolvedTarget × ℕ :=
  match selector with
  | .file =>
    ({ resolved with
        result := { resolved.result with status := .complete, selection := some "file" }
        source := some (loaded.content, fileSpan loaded.content loaded.loc) }, outlineRemaining)
  | .range start stop =>
    match lineRangeSpan loaded.content start stop with
    | some span =>
      ({ resolved with
          result := { resolved.result with status := .complete }
          source := some (loaded.content, span) }, outlineRemaining)
    | none =>
      ({ resolved with result := { resolved.result with status := .notFound } }, outlineRemaining)
  | selector =>
    match loaded.definitions.status with
    | .unsupported =>
      ({ resolved with result := { resolved.result with status := .unsupported } },
        outlineRemaining)
    | .unavailable =>
      ({ resolved with result := { resolved.result with status := .unavailable } },
        outlineRemaining)
    | status =>
      if selector = .outline then
        resolveOutline resolved loaded.definitions.definitions outlineRemaining
      else
        (resolveDefinition resolved loaded.content loaded.definitions.definitions status selector,
          outlineRemaining)

def hashMatches (file : Option SourceQueryFile) (expected : Option String) : Bool :=
  expected.all fun hash => (file.bind (·.sha256)).any fun actual => eqIgnoreAsciiCase actual hash

/-- `selection::resolve`, with the remaining allowance of outline entries. -/
def resolve (index : ℕ) (target : SourceQueryTarget) (path : Option PathBuf)
    (batch : ExplicitSourceBatch) (files : List (PathBuf × SourceQueryFile))
    (outlineRemaining : ℕ) : ResolvedTarget × ℕ :=
  let file := path.bind fun path => get? path files
  let range := requestedRange target.selector
  let resolved : ResolvedTarget :=
    { file := file
      result :=
        { emptyResult index (file.map (·.id)) with
          requestedRange := range
          selection := range.map fun _ => "range" }
      source := none }
  match path with
  | none =>
    ({ resolved with result := { resolved.result with status := .invalidPath } }, outlineRemaining)
  | some path =>
    match get? path batch.failures with
    | some failure =>
      ({ resolved with result := { resolved.result with status := failureStatus failure } },
        outlineRemaining)
    | none =>
      match get? path batch.files with
      | none => (resolved, outlineRemaining)
      | some loaded =>
        if hashMatches file target.expectedHash then
          resolveLoaded resolved loaded target.selector outlineRemaining
        else
          ({ resolved with result := { resolved.result with status := .stale } }, outlineRemaining)

end Reposcout.Query
