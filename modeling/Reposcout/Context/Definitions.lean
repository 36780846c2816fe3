import Mathlib.Data.Fintype.Prod
import Reposcout.Model.SourceQuery
import Reposcout.Model.Machine

/-!
# Planning definitions

A definition plan selects definitions of the input files within a token budget.  Without seeds
every definition is a candidate.  With seeds, the definitions they name are, and then what the
selected ones need from their own file.

The cost of a plan is the cost of the union of the selected source spans: a span inside another
selected one is free.
-/

namespace Reposcout.Context.Definitions

open KeyedList

structure DefinitionPlanInput where
  path : PathBuf
  snapshot : SourceRevision
  definitions : DefinitionFacts
  planning : DefinitionPlanningFacts
  deriving DecidableEq

inductive DefinitionSelector where
  | symbol (name : String)
  | line (line : ℕ)
  | file
  deriving DecidableEq

structure DefinitionSeed where
  path : PathBuf
  snapshot : SourceRevision
  selector : DefinitionSelector
  deriving DecidableEq

structure DefinitionPlanLimits where
  tokenBudget : ℕ
  byteBudget : ℕ
  maxFiles : ℕ
  maxDefinitions : ℕ

/-- A position in the input files and one in the definitions of that file. -/
abbrev Candidate (inputs : List DefinitionPlanInput) := Fin inputs.length × ℕ

/-- The state of planning. `selected` gives the position of a candidate in the report. -/
structure Planner (inputs : List DefinitionPlanInput) where
  report : DefinitionPlanReport
  candidates : Finset (Candidate inputs)
  selected : List (Candidate inputs × ℕ)
  failures : List (Candidate inputs × (String × Bool))

/-! ## Facts of the input files -/

/-- Why nothing of a file can be planned. -/
def unavailable (input : DefinitionPlanInput) : Option String :=
  match input.definitions.status with
  | .unsupported => some "unsupported-extraction"
  | .unavailable => some "unavailable-extraction"
  | .available | .parseErrors =>
    if input.planning.sha256 = "" then some "cost-unavailable" else none

def selectorName : DefinitionSelector → Option String
  | .symbol name => some name
  | .line line => some ("line:" ++ toString line)
  | .file => none

def select (facts : DefinitionFacts) : DefinitionSelector → List ℕ
  | .file => List.range facts.definitions.length
  | .symbol name => (namedMatches facts.definitions name).map Prod.snd
  | .line line => (innermost (lineMatches facts.definitions line)).map Prod.snd

def planFile (input : DefinitionPlanInput) (index : ℕ) : DefinitionPlanFile where
  id := index + 1
  path := input.path
  snapshot := input.snapshot
  sha256 := input.planning.sha256
  extraction := input.definitions.status
  definitions := input.definitions.definitions.length
  costedDefinitions := input.planning.definitions.length
  planningOmittedDefinitions := input.planning.omittedDefinitions

/-- The first encoding that a file was costed in. -/
def planEncoding (inputs : List DefinitionPlanInput) : String :=
  ((inputs.find? fun input => input.planning.encoding ≠ "").map
    fun input => input.planning.encoding).getD ""

/-! ## The cost of a selection -/

/-- The sweep order of `union_cost`. -/
def spanOrder (left right : PlannedDefinition) : Ordering :=
  (compare left.file right.file).then <|
    (compare left.sourceSpan.startByte right.sourceSpan.startByte).then
      (compare right.sourceSpan.endByte left.sourceSpan.endByte)

def countSpan (total : ℕ) (item : PlannedDefinition) :
    Except String (Option PlannedDefinition × ℕ) :=
  if total + item.tokens ≤ u64Max then .ok (some item, total + item.tokens)
  else .error "cost-overflow"

/-- One turn of the sweep, with the last outer definition and the total so far. -/
def unionStep (state : Option PlannedDefinition × ℕ) (item : PlannedDefinition) :
    Except String (Option PlannedDefinition × ℕ) :=
  match state.1.filter fun previous => previous.file = item.file with
  | none => countSpan state.2 item
  | some previous =>
    if previous.sourceSpan.Contains item.sourceSpan then
      if previous.sourceSpan = item.sourceSpan ∧ previous.tokens ≠ item.tokens then
        .error "inconsistent-span-cost"
      else .ok state
    else if previous.sourceSpan.endByte > item.sourceSpan.startByte then
      .error "crossing-source-spans"
    else countSpan state.2 item

def unionCost (items : List PlannedDefinition) : Except String ℕ :=
  ((sortBy spanOrder items).foldlM unionStep (none, 0)).map Prod.snd

/-! ## The planner -/

section

variable {inputs : List DefinitionPlanInput}

def cost (candidate : Candidate inputs) : Option DefinitionPlanningFact :=
  inputs[candidate.1].planning.definitions.find? fun fact => fact.definition = candidate.2

/-- The checks of `selection` that depend on what is selected already. -/
def admissible (report : DefinitionPlanReport) (item : PlannedDefinition) :
    Except String (PlannedDefinition × ℕ) :=
  let files := (report.selected.map fun planned => planned.file).toFinset
  if report.selected.length ≥ report.maxDefinitions then .error "definition-limit"
  else if item.file ∉ files ∧ files.card ≥ report.maxFiles then .error "file-limit"
  else
    match unionCost (report.selected ++ [item]) with
    | .error reason => .error reason
    | .ok total =>
      if total > report.tokenBudget then
        .error (if item.tokens > report.tokenBudget then "oversized-definition" else "token-budget")
      else .ok (item, total)

/-- The planned definition of a candidate and the new total, or why it cannot be selected. -/
def selection (report : DefinitionPlanReport) (candidate : Candidate inputs)
    (role reason : String) : Except String (PlannedDefinition × ℕ) :=
  let input := inputs[candidate.1]
  match unavailable input with
  | some failure => .error failure
  | none =>
    if input.planning.encoding ≠ report.encoding then .error "encoding-mismatch"
    else
      match input.definitions.definitions[candidate.2]? with
      | none => .error "invalid-environment"
      | some fact =>
        match fact.sourceSpan with
        | none => .error "source-unavailable"
        | some span =>
          if span.startByte ≥ span.endByte then .error "source-unavailable"
          else
            match cost candidate with
            | none => .error "cost-unavailable"
            | some planning =>
              admissible report
                { file := candidate.1 + 1
                  definition := candidate.2
                  name := fact.symbol.name
                  kind := fact.symbol.kind
                  declarationSpan := fact.declarationSpan
                  sourceSpan := span
                  tokens := planning.tokens
                  role := role
                  reasons := [reason]
                  environmentGaps := planning.gaps }

def addReason (reason : String) (item : PlannedDefinition) : PlannedDefinition :=
  if reason ∈ item.reasons then item else { item with reasons := item.reasons ++ [reason] }

def addGap (gap : String) (item : PlannedDefinition) : PlannedDefinition :=
  if gap ∈ item.environmentGaps then item
  else { item with environmentGaps := item.environmentGaps ++ [gap] }

/-- `DefinitionPlanReport` with the definition at a position of the selection changed. -/
def modifySelected (report : DefinitionPlanReport) (index : ℕ)
    (change : PlannedDefinition → PlannedDefinition) : DefinitionPlanReport :=
  { report with selected := report.selected.modify index change }

/-- The details of the first 32 omissions are listed, the others only counted. -/
def pushOmission (report : DefinitionPlanReport) (omission : DefinitionPlanOmission) :
    DefinitionPlanReport :=
  if report.omissions.length < 32 then
    { report with omissions := report.omissions ++ [omission] }
  else { report with omittedDetails := report.omittedDetails + 1 }

def fileOmission (file : Fin inputs.length) (name : Option String) (reason : String)
    (explicit : Bool) : DefinitionPlanOmission where
  path := inputs[file].path
  name := name
  reason := reason
  explicit := explicit

namespace Planner

def new (inputs : List DefinitionPlanInput) (limits : DefinitionPlanLimits) : Planner inputs where
  candidates := ∅
  selected := []
  failures := []
  report :=
    { kind := "definition_plan"
      schemaVersion := schemaVersion
      strategyVersion := 1
      encoding := planEncoding inputs
      tokenBudget := limits.tokenBudget
      contextBudget := limits.tokenBudget
      byteBudget := limits.byteBudget
      maxFiles := min limits.maxFiles 32
      maxDefinitions := min limits.maxDefinitions 32
      candidateDefinitions := 0
      inputDefinitions := (inputs.map fun input => input.definitions.definitions.length).sum
      unresolvedSeeds := 0
      ambiguousSeeds := 0
      unavailableSeeds := 0
      inputFiles := inputs.length
      unavailableFiles := inputs.countP fun input => (unavailable input).isSome
      discoveryIncomplete := false
      planningOmittedDefinitions := (inputs.map fun input => input.planning.omittedDefinitions).sum
      outputOmittedFiles := 0
      selectedTokens := 0
      selectedFiles := 0
      omittedDefinitions := 0
      outputOmitted := 0
      files := inputs.zipIdx.map fun item => planFile item.1 item.2
      selected := []
      omissions := []
      omittedDetails := 0
      source := none }

/-- `push_omission`. -/
def push (planner : Planner inputs) (omission : DefinitionPlanOmission) : Planner inputs :=
  { planner with report := pushOmission planner.report omission }

/-- Try to select a candidate. The result says whether it is selected afterwards. -/
def admitOne (planner : Planner inputs) (candidate : Candidate inputs) (role reason : String)
    (explicit : Bool) : Planner inputs × Bool :=
  let planner := { planner with candidates := insert candidate planner.candidates }
  match get? candidate planner.selected with
  | some index =>
    ({ planner with report := modifySelected planner.report index (addReason reason) }, true)
  | none =>
    match selection planner.report candidate role reason with
    | .ok (item, total) =>
      ({ planner with
          failures := planner.failures.filter fun entry => entry.1 ≠ candidate
          selected := KeyedList.alter candidate (fun _ => planner.report.selected.length)
            planner.selected
          report :=
            { planner.report with
              selected := planner.report.selected ++ [item]
              selectedTokens := total } }, true)
    | .error failure =>
      ({ planner with
          failures := KeyedList.alter candidate (fun entry => entry.getD (failure, explicit))
            planner.failures }, false)

def admitAll (planner : Planner inputs) (candidates : List (Candidate inputs))
    (role reason : String) (explicit : Bool) : Planner inputs :=
  candidates.foldl (fun planner candidate => (planner.admitOne candidate role reason explicit).1)
    planner

/-- A selector that matches several definitions selects none of them. -/
def ambiguous (planner : Planner inputs) (candidate : Candidate inputs) : Planner inputs :=
  { planner with
    candidates := insert candidate planner.candidates
    failures := KeyedList.alter candidate (fun _ => ("ambiguous-definition", true))
      planner.failures }

def countUnresolved (planner : Planner inputs) : Planner inputs :=
  { planner with
    report := { planner.report with unresolvedSeeds := planner.report.unresolvedSeeds + 1 } }

def countAmbiguous (planner : Planner inputs) : Planner inputs :=
  { planner with
    report := { planner.report with ambiguousSeeds := planner.report.ambiguousSeeds + 1 } }

def countUnavailable (planner : Planner inputs) : Planner inputs :=
  { planner with
    report := { planner.report with unavailableSeeds := planner.report.unavailableSeeds + 1 } }

def seedReason : DefinitionSelector → String
  | .symbol _ => "explicit-symbol"
  | .line _ => "explicit-line"
  | .file => "explicit-file"

def seedFile (planner : Planner inputs) (file : Fin inputs.length)
    (selector : DefinitionSelector) : Planner inputs :=
  match unavailable inputs[file] with
  | some reason =>
    planner.countUnavailable.push (fileOmission file (selectorName selector) reason true)
  | none =>
    let definitions := select inputs[file].definitions selector
    if definitions = [] then
      if inputs[file].definitions.status = .parseErrors then
        planner.countUnavailable.push (fileOmission file (selectorName selector) "parse-error" true)
      else
        planner.countUnresolved.push
          (fileOmission file (selectorName selector) "unresolved-definition" true)
    else if definitions.length > 1 ∧ selector ≠ .file then
      (definitions.map fun definition => (file, definition)).foldl ambiguous planner.countAmbiguous
    else
      planner.admitAll (definitions.map fun definition => (file, definition)) "direct"
        (seedReason selector) true

def seed (planner : Planner inputs) (seed : DefinitionSeed) : Planner inputs :=
  let matching := (List.finRange inputs.length).filter fun file =>
    inputs[file].path = seed.path ∧ inputs[file].snapshot = seed.snapshot
  match matching with
  | [file] => planner.seedFile file seed.selector
  | [] =>
    planner.countUnresolved.push
      ⟨seed.path, selectorName seed.selector, "unresolved-file", true⟩
  | _ :: _ :: _ =>
    planner.countAmbiguous.push ⟨seed.path, selectorName seed.selector, "ambiguous-file", true⟩

/-- Note what a selected definition needs and does not get. -/
def environmentGap (planner : Planner inputs) (candidate target : Candidate inputs)
    (reason : String) : Planner inputs :=
  match get? candidate planner.selected with
  | none => planner
  | some index =>
    let failure := ((get? target planner.failures).map Prod.fst).getD "unavailable"
    let gap := "environment:" ++ reason ++ ":" ++ failure
    { planner with report := modifySelected planner.report index (addGap gap) }

def need (candidate : Candidate inputs) (planner : Planner inputs)
    (environment : DefinitionEnvironment) : Planner inputs :=
  let target : Candidate inputs := (candidate.1, environment.definition)
  match planner.admitOne target "environment" environment.reason false with
  | (planner, true) => planner
  | (planner, false) => planner.environmentGap candidate target environment.reason

def environment (planner : Planner inputs) (candidate : Candidate inputs) : Planner inputs :=
  match cost candidate with
  | none => planner
  | some planning => planning.environment.foldl (need candidate) planner

/-- The failures of candidates that are not selected, in the order of the candidates. -/
def openFailures (planner : Planner inputs) : List (Candidate inputs × (String × Bool)) :=
  (sortBy (fun left right => (compare left.1.1 right.1.1).then
      (compare left.1.2 right.1.2)) planner.failures).filter
    fun entry => (get? entry.1 planner.selected).isNone

def failureOmission (entry : Candidate inputs × (String × Bool)) : DefinitionPlanOmission :=
  let fact := inputs[entry.1.1].definitions.definitions[entry.1.2]?
  fileOmission entry.1.1 (fact.map fun fact => fact.symbol.name) entry.2.1 entry.2.2

def finish (planner : Planner inputs) : DefinitionPlanReport :=
  let report := (planner.openFailures.map failureOmission).foldl pushOmission planner.report
  { report with
    candidateDefinitions := planner.candidates.card
    omittedDefinitions := planner.candidates.card - planner.selected.length
    selectedFiles := (report.selected.map fun item => item.file).toFinset.card }

/-- The files in the order in which a plan without seeds visits them. -/
def expansionOrder (inputs : List DefinitionPlanInput) : List (Fin inputs.length) :=
  sortBy
    (fun left right => (compare inputs[left].path inputs[right].path).then
      (compare inputs[left].snapshot inputs[right].snapshot))
    (List.finRange inputs.length)

def expand (planner : Planner inputs) (file : Fin inputs.length) : Planner inputs :=
  let planner :=
    match unavailable inputs[file] with
    | some reason => planner.push (fileOmission file none reason false)
    | none => planner
  planner.admitAll
    ((List.range inputs[file].definitions.definitions.length).map fun index => (file, index))
    "expansion" "generic-expansion" false

/-- The candidates selected so far, in the order of selection. -/
def direct (planner : Planner inputs) : List (Candidate inputs) :=
  planner.report.selected.filterMap fun item =>
    if h : item.file - 1 < inputs.length then some (⟨item.file - 1, h⟩, item.definition) else none

/-- The planner when all candidates have had their turn. -/
def run (inputs : List DefinitionPlanInput) (seeds : List DefinitionSeed)
    (limits : DefinitionPlanLimits) : Planner inputs :=
  if seeds = [] then (expansionOrder inputs).foldl expand (new inputs limits)
  else
    let seeded := seeds.foldl seed (new inputs limits)
    seeded.direct.foldl environment seeded

end Planner

end

def plan (inputs : List DefinitionPlanInput) (seeds : List DefinitionSeed)
    (limits : DefinitionPlanLimits) : DefinitionPlanReport :=
  (Planner.run inputs seeds limits).finish

end Reposcout.Context.Definitions
