import Reposcout.Findings.Build
import Reposcout.Review.Snapshot

/-!
# Changed-line reviews

In the line mode a review lists the findings of the current snapshot that touch a changed line.  In
the deep mode it compares the catalogs of the base and of the current snapshot, and lists the
changes that touch a changed line on either side.

What the analysis finds in a snapshot is a parameter.
-/

namespace Reposcout.Review

open Findings Walk

inductive ReviewMode where
  | lines
  | deep
  deriving DecidableEq

/-- The state of a reviewed finding: `current` in the line mode. -/
inductive ReviewState where
  | current
  | change (state : ChangeState)
  deriving DecidableEq

structure ReviewFinding (K : Type) where
  state : ReviewState
  finding : FindingRecord K
  before : Option (FindingRecord K)
  after : Option (FindingRecord K)
  deriving DecidableEq

structure ReviewCounts where
  current : Nat := 0
  new : Nat := 0
  resolved : Nat := 0
  worsened : Nat := 0
  improved : Nat := 0
  deriving DecidableEq

structure ReviewDiagnostics where
  binaryFiles : Nat := 0
  unreadableFiles : Nat := 0
  oversizedFiles : Nat := 0
  oversizedBytes : Nat := 0
  filesOmittedByLimit : Nat := 0
  filesOmittedCountIncomplete : Bool := false
  scanTruncated : Bool := false
  durationLimitReached : Bool := false
  deriving DecidableEq

structure ReviewReport (K : Type) where
  mode : ReviewMode
  scope : DiffScope
  changedFiles : List ReviewChangedFile
  counts : ReviewCounts
  findings : List (ReviewFinding K)
  diagnostics : ReviewDiagnostics

/-! ## Changed lines -/

def rangesOverlap (aStart aEnd bStart bEnd : Nat) : Bool := aStart ≤ bEnd && bStart ≤ aEnd

def touches (location : FindingLocation) (ranges : List LineRange) : Bool :=
  ranges.any fun range =>
    rangesOverlap location.startLine (max location.endLine location.startLine) range.start
      range.stop

def locationChanged (files : List ReviewChangedFile) (location : FindingLocation) : Bool :=
  files.any fun file => file.path = some location.path && touches location file.ranges

/-- A file change whose old ranges are compared with the locations at a path. -/
def comparedWith (path : PathBuf) (file : ReviewChangedFile) : Bool :=
  file.oldPath = some path || (file.status = "renamed" && file.path = some path)

def oldLocationChanged (files : List ReviewChangedFile) (location : FindingLocation) : Bool :=
  files.any fun file => comparedWith location.path file && touches location file.oldRanges

section

variable {K : Type}

def locations (finding : FindingRecord K) : List FindingLocation :=
  finding.primaryLocation :: finding.relatedLocations

def findingIntersects (finding : FindingRecord K) (files : List ReviewChangedFile) (old : Bool) :
    Bool :=
  (locations finding).any (if old then oldLocationChanged files else locationChanged files)

def changeIntersects (change : FindingChange K) (files : List ReviewChangedFile) : Bool :=
  change.after.any (fun finding => findingIntersects finding files false) ||
    change.before.any (fun finding => findingIntersects finding files true)

/-- `review_change`, absent for a change without a finding on either side. -/
def reviewChange (change : FindingChange K) : Option (ReviewFinding K) :=
  (changeFinding change).map fun finding =>
    { state := .change change.state
      finding
      before := change.before
      after := change.after }

/-! ## The line mode -/

def reviewOrder (a b : ReviewFinding K) : Ordering :=
  (Ord.compare a.finding.primaryLocation.path b.finding.primaryLocation.path).then <|
    (Ord.compare a.finding.primaryLocation.startLine b.finding.primaryLocation.startLine).then <|
      (Ord.compare a.finding.kind b.finding.kind).then
        (Ord.compare a.finding.fingerprint b.finding.fingerprint)

def binaryFiles (changedFiles : List ReviewChangedFile) : Nat :=
  (changedFiles.filter ReviewChangedFile.binary).length

def filterLines (catalog : FindingCatalog K) (changedFiles : List ReviewChangedFile)
    (scope : DiffScope) : ReviewReport K :=
  let findings := KeyedList.sortBy reviewOrder <|
    ((catalog.findings.filter fun finding => finding.kind ≠ "risk").filter fun finding =>
      findingIntersects finding changedFiles false).map fun finding =>
        { state := .current
          finding
          before := none
          after := some finding }
  { mode := .lines
    scope
    changedFiles
    counts := { current := findings.length }
    findings
    diagnostics := { binaryFiles := binaryFiles changedFiles, unreadableFiles := 0 } }

/-! ## The deep mode -/

def countReviewed (state : ChangeState) (findings : List (ReviewFinding K)) : Nat :=
  (findings.filter fun item => item.state = .change state).length

section

variable [Field K] [LinearOrder K] (xxh3_128 : List UInt8 → BitVec 128)

def deepFindings (before after : FindingCatalog K) (changedFiles : List ReviewChangedFile) :
    List (ReviewFinding K) :=
  let delta := compare (remapRenames xxh3_128 before changedFiles) after
  ((delta.changes.filter fun change =>
      (changeFinding change).any fun finding => finding.kind ≠ "risk").filter fun change =>
    changeIntersects change changedFiles).filterMap reviewChange

def deepDiagnostics (base current : SourceSnapshot) (changedFiles : List ReviewChangedFile) :
    ReviewDiagnostics where
  binaryFiles := binaryFiles changedFiles
  unreadableFiles := base.unreadableFiles + current.unreadableFiles
  oversizedFiles := base.oversizedFiles + current.oversizedFiles
  oversizedBytes := base.oversizedBytes + current.oversizedBytes
  filesOmittedByLimit := base.filesOmittedByLimit + current.filesOmittedByLimit
  filesOmittedCountIncomplete :=
    base.filesOmittedCountIncomplete || current.filesOmittedCountIncomplete
  scanTruncated := base.scanTruncated || current.scanTruncated
  durationLimitReached := base.durationLimitReached || current.durationLimitReached

/-- What a review is asked to do; `catalog` is absent if the health policy does not compile. -/
structure ReviewInput (K : Type) where
  mode : Option ReviewMode
  scope : DiffScope
  discovery : Discovery
  repository : RepositoryState
  changedFiles : List ReviewChangedFile
  deadline : Deadline
  catalog : Option (SourceSnapshot → FindingCatalog K)

def run (input : ReviewInput K) : Option (ReviewReport K) := do
  let catalog ← input.catalog
  let (current, deadline) ←
    currentSnapshot input.discovery input.repository input.scope input.deadline
  let currentCatalog := catalog current
  if input.mode = some .deep then
    let (base, _) ← baseSnapshot input.discovery.limits input.repository deadline
    let findings := deepFindings xxh3_128 (catalog base) currentCatalog input.changedFiles
    return {
      mode := .deep
      scope := input.scope
      changedFiles := input.changedFiles
      counts :=
        { new := countReviewed .new findings
          resolved := countReviewed .resolved findings
          worsened := countReviewed .worsened findings
          improved := countReviewed .improved findings }
      findings
      diagnostics := deepDiagnostics base current input.changedFiles }
  return filterLines currentCatalog input.changedFiles input.scope

end

end

end Reposcout.Review
