import Reposcout.Context.Definitions
import Reposcout.Query.Source

/-!
# The plan query

A definition plan is projected to the output budget and, on request, delivered with its source.
The source is requested by file, hash and symbol name, read again, and admitted target by target.

Reading files and rendering reports are parameters.
-/

namespace Reposcout.Query

open Context.Definitions List Option

structure DefinitionPlanQueryOptions where
  targets : List SourceQueryTarget
  tokenBudget : ℕ
  contextBudget : ℕ
  byteBudget : ℕ
  maxFiles : ℕ
  maxDefinitions : ℕ
  includeSource : Bool

structure CapturedPlan where
  inputs : List DefinitionPlanInput
  seeds : List DefinitionSeed
  failures : List DefinitionPlanOmission
  unavailableFiles : ℕ
  incomplete : Bool

/-- Files requested from each snapshot. -/
abbrev SourceRequest := SourceRevision × List PathBuf

/-- What the query takes from outside: the name of the root and of the encoding, reading the
files of some snapshots, hashing a content, and whether a rendered report fits the output. -/
structure QueryContext where
  root : Option String
  encoding : String
  load : List SourceRequest → Except String (List (SourceRevision × ExplicitSourceBatch))
  sourceHash : String → String
  fits : DefinitionPlanReport → Bool

def sourceOptions (targets : List SourceQueryTarget) (options : DefinitionPlanQueryOptions) :
    SourceQueryOptions where
  targets := targets
  tokenBudget := options.tokenBudget
  byteBudget := options.byteBudget

/-! ## The report before projection -/

/-- A target that could not be captured is counted and listed. -/
def pushFailure (report : DefinitionPlanReport) (failure : DefinitionPlanOmission) :
    DefinitionPlanReport :=
  pushOmission
    (if failure.reason = "not-found" ∨ failure.reason = "invalid-path" then
      { report with unresolvedSeeds := report.unresolvedSeeds + 1 }
    else { report with unavailableSeeds := report.unavailableSeeds + 1 }) failure

/-- Nothing is planned if no explicit target could be captured. -/
def clearPlan (report : DefinitionPlanReport) : DefinitionPlanReport :=
  { report with
    selected := []
    selectedTokens := 0
    selectedFiles := 0
    candidateDefinitions := 0
    omittedDefinitions := 0
    omissions := []
    omittedDetails := 0 }

/-- The plan of the captured input, with what the query knows besides. -/
def queryReport (context : QueryContext) (options : DefinitionPlanQueryOptions)
    (captured : CapturedPlan) : DefinitionPlanReport :=
  let planned := plan captured.inputs captured.seeds
    ⟨options.contextBudget, options.byteBudget, options.maxFiles, options.maxDefinitions⟩
  let report :=
    if options.targets ≠ [] ∧ captured.seeds = [] then clearPlan planned else planned
  let report := captured.failures.foldl pushFailure
    { report with
      tokenBudget := options.tokenBudget
      discoveryIncomplete := captured.incomplete
      inputFiles := report.inputFiles + captured.unavailableFiles
      unavailableFiles := report.unavailableFiles + captured.unavailableFiles }
  { report with encoding := if report.encoding = "" then context.encoding else report.encoding }

/-! ## Projection to the output budget -/

/-- One turn of the projection: leave out the last omission, else the last definition, else the
files, else the root. -/
def shrink (report : DefinitionPlanReport) : Option DefinitionPlanReport :=
  if report.omissions ≠ [] then
    some { report with
      omissions := report.omissions.dropLast
      omittedDetails := report.omittedDetails + 1 }
  else
    let smaller : Option DefinitionPlanReport :=
      if report.selected ≠ [] then
        some { report with
          selected := report.selected.dropLast
          outputOmitted := report.outputOmitted + 1 }
      else if report.files ≠ [] then
        some { report with
          outputOmittedFiles := report.outputOmittedFiles + report.files.length
          files := [] }
      else
        match report.source with
        | some source =>
          if source.root.isSome then
            some { report with source := some { source with root := none, rootOmitted := true } }
          else none
        | none => none
    smaller.map fun report =>
      let files := report.files.filter fun file =>
        report.selected.any fun item => item.file = file.id
      { report with
        files := files
        outputOmittedFiles :=
          report.outputOmittedFiles + (report.files.length - files.length) }

/-- A bound on the number of turns that remain. -/
def shrinkSteps (report : DefinitionPlanReport) : ℕ :=
  report.omissions.length + report.selected.length + report.files.length +
    (report.source.elim 0 fun source => if source.root.isSome then 1 else 0)

lemma shrinkSteps_shrink {report smaller : DefinitionPlanReport}
    (h : shrink report = some smaller) : shrinkSteps smaller < shrinkSteps report := by
  have hfilter : ∀ (p : DefinitionPlanFile → Bool) (files : List DefinitionPlanFile),
      (files.filter p).length ≤ files.length := fun p files => length_filter_le p files
  unfold shrink at h
  split_ifs at h with homissions hselected hfiles
  · cases h
    have hlength := length_pos_iff.mpr homissions
    simp only [shrinkSteps, length_dropLast]
    omega
  · cases h
    have hlength := length_pos_iff.mpr hselected
    simp only [shrinkSteps, length_dropLast]
    have hle := hfilter (fun file => report.selected.dropLast.any fun item => item.file = file.id)
      report.files
    omega
  · cases h
    have hlength := length_pos_iff.mpr hfiles
    simp only [shrinkSteps, filter_nil, length_nil]
    omega
  · cases hsource : report.source with
    | none =>
      rw [hsource] at h
      cases h
    | some source =>
      rw [hsource] at h
      dsimp only at h
      split_ifs at h with hroot
      · cases h
        have hle := hfilter (fun file => report.selected.any fun item => item.file = file.id)
          report.files
        simp only [shrinkSteps, hsource, Option.elim, hroot, if_true, isSome_none]
        simp only [Bool.false_eq_true, if_false]
        omega
      · cases h

/-- `project`: shrink the report until it fits. -/
def project (fits : DefinitionPlanReport → Bool) (report : DefinitionPlanReport) :
    Except String DefinitionPlanReport :=
  if fits report then .ok report
  else
    match hshrink : shrink report with
    | none => .error "plan budget cannot fit the status envelope"
    | some smaller =>
      have : shrinkSteps smaller < shrinkSteps report := shrinkSteps_shrink hshrink
      project fits smaller
termination_by shrinkSteps report

lemma project_of_fits {fits : DefinitionPlanReport → Bool} {report : DefinitionPlanReport}
    (h : fits report = true) : project fits report = .ok report := by
  rw [project, if_pos h]

/-! ## Delivering the source -/

/-- The target of a planned definition: its file, by hash, and its name. -/
def planTarget (report : DefinitionPlanReport) (item : PlannedDefinition) :
    Except String SourceQueryTarget :=
  match report.files.find? fun file => file.id = item.file with
  | none => .error "planned definition has no file identity"
  | some file => .ok ⟨file.path, .symbol item.name, some file.sha256, file.snapshot⟩

def groupPaths (targets : List SourceQueryTarget) : List SourceRequest :=
  targets.foldl (fun requests target =>
    KeyedList.alter target.snapshot (fun paths => paths.getD [] ++ [target.path]) requests) []

/-- The paths requested from each snapshot, in the order of the snapshots. -/
def planRequests (targets : List SourceQueryTarget) : List SourceRequest :=
  KeyedList.sortBy (fun left right => compare left.1 right.1) (groupPaths targets)

/-- The described files of a batch, with ids after those of the batches before. -/
def describeBatch (sourceHash : String → String) (offset : ℕ)
    (batch : SourceRevision × ExplicitSourceBatch) (paths : List PathBuf) :
    List (PathBuf × SourceQueryFile) :=
  (describeFiles sourceHash batch.2 paths).map fun item =>
    (item.1, { item.2 with id := item.2.id + offset, snapshot := batch.1 })

def describeBatches (sourceHash : String → String) :
    ℕ → List (SourceRevision × ExplicitSourceBatch) → List SourceRequest →
      List (List (PathBuf × SourceQueryFile))
  | offset, batch :: batches, request :: requests =>
    let files := describeBatch sourceHash offset batch request.2
    files :: describeBatches sourceHash (offset + files.length) batches requests
  | _, _, _ => []

def resolvePlanned (requests : List SourceRequest)
    (batches : List (SourceRevision × ExplicitSourceBatch))
    (descriptions : List (List (PathBuf × SourceQueryFile))) (target : SourceQueryTarget)
    (index : ℕ) : Except String ResolvedTarget :=
  match requests.findIdx? fun request => request.1 = target.snapshot with
  | none => .error "planned source snapshot was not captured"
  | some group =>
    match batches[group]?, descriptions[group]? with
    | some batch, some files =>
      .ok (resolve (index + 1) target (some target.path) batch.2 files 0).1
    | _, _ => .error "planned source snapshot was not captured"

/-- The planned targets, resolved against the files read again. -/
def resolvePlan (context : QueryContext) (targets : List SourceQueryTarget) :
    Except String (List ResolvedTarget) := do
  let requests := planRequests targets
  let batches ← context.load requests
  let descriptions := describeBatches context.sourceHash 0 batches requests
  targets.zipIdx.mapM fun item => resolvePlanned requests batches descriptions item.1 item.2

def planSource (context : QueryContext) (options : DefinitionPlanQueryOptions) (count : ℕ) :
    SourceQueryReport :=
  { emptyReport context.root (sourceOptions [] options) context.encoding with
    requestedTargets := count
    omittedTargets := count }

/-- The source report in which the targets of a projected plan are admitted. -/
def sourceEnvelope (report : DefinitionPlanReport) (count : ℕ) : Except String SourceQueryReport :=
  match report.source with
  | none => .error "source envelope disappeared during plan projection"
  | some source => .ok { source with requestedTargets := count, omittedTargets := count }

def includeSource (context : QueryContext) (options : DefinitionPlanQueryOptions)
    (report : DefinitionPlanReport) : Except String DefinitionPlanReport := do
  let report ← project context.fits
    { report with source := some (planSource context options report.selected.length) }
  let targets ← report.selected.mapM (planTarget report)
  let source ← sourceEnvelope report targets.length
  let resolved ← resolvePlan context targets
  let source ← admitAll options.byteBudget
    (fun candidate => context.fits { report with source := some candidate }) source resolved
  return { report with source := some source }

/-- `plan_definitions`, from the captured input to the report that is rendered. -/
def planDefinitions (context : QueryContext) (options : DefinitionPlanQueryOptions)
    (captured : CapturedPlan) : Except String DefinitionPlanReport := do
  let report := queryReport context options captured
  let report ← if options.includeSource then includeSource context options report
    else project context.fits report
  if context.fits report then return report
  else throw "plan output exceeded the validated budget"

end Reposcout.Query
