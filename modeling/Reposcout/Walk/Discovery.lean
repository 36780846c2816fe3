import Reposcout.FsBudget
import Reposcout.Framework.KeyedList
import Reposcout.Model.Path

/-!
# File discovery

The walker yields the entries below a target that the ignore policy lets through, and an error for
every directory or entry it could not read.  Discovery accepts the files among them until the
deadline or a limit stops it.

What the file system answers (the metadata of a file, the result of reading it) belongs to the
entry.  A deadline is known by how often the clock may still be asked before it has passed.
-/

namespace Reposcout

/-- `Option<Instant>`: how many more questions to the clock come in time. -/
structure Deadline where
  remaining : Option ℕ

namespace Deadline

def never : Deadline := ⟨none⟩

/-- `Instant::now() >= deadline`. -/
def passed (deadline : Deadline) : Bool := deadline.remaining == some 0

/-- One question later. -/
def next (deadline : Deadline) : Deadline := ⟨deadline.remaining.map fun n => n - 1⟩

end Deadline

structure Limits where
  maxFiles : ℕ
  maxFileBytes : ℕ
  maxTotalBytes : ℕ
  maxGitBlobBytes : ℕ

namespace Walk

/-- A file that the walker meets.  `opened` holds the components of its path below the root with
the answers to opening them, and is absent if the root itself cannot be opened. -/
structure WalkFile where
  absolutePath : PathBuf
  reportPath : PathBuf
  metadata : Option Metadata
  opened : Option (List (PathComponent × OpenResult))

/-- What the walker yields: an error, or an entry at a depth below the target, which may be a
file. -/
inductive WalkItem where
  | error
  | entry (depth : ℕ) (file : Option WalkFile)

/-- A walk of the target; `rejected` ignore files could not be used. -/
structure Traversal where
  items : List WalkItem
  rejected : ℕ

/-- What discovery is asked to do; `detect` says whether the language of a path is recognized. -/
structure Discovery where
  limits : Limits
  exclusions : List PathBuf
  detect : PathBuf → Bool

structure DiscoveryStats where
  observedFiles : ℕ := 0
  acceptedBytes : ℕ := 0
  walkerErrors : ℕ := 0
  oversizedFiles : ℕ := 0
  oversizedBytes : ℕ := 0
  filesOmittedByLimit : ℕ := 0
  filesOmittedCountIncomplete : Bool := false
  bytesOmittedByLimit : ℕ := 0
  scanTruncated : Bool := false
  durationLimitReached : Bool := false

namespace DiscoveryStats

def walkerError (stats : DiscoveryStats) : DiscoveryStats :=
  { stats with walkerErrors := stats.walkerErrors + 1 }

def oversized (stats : DiscoveryStats) (bytes : ℕ) : DiscoveryStats :=
  { stats with
    oversizedFiles := stats.oversizedFiles + 1
    oversizedBytes := stats.oversizedBytes + bytes
    scanTruncated := true }

/-- A file does not fit into the aggregate limit. -/
def omitted (stats : DiscoveryStats) (bytes : ℕ) : DiscoveryStats :=
  { stats with
    filesOmittedByLimit := stats.filesOmittedByLimit + 1
    bytesOmittedByLimit := stats.bytesOmittedByLimit + bytes
    scanTruncated := true }

/-- The walk stops at the file limit. -/
def tooManyFiles (stats : DiscoveryStats) : DiscoveryStats :=
  { stats with
    filesOmittedByLimit := stats.filesOmittedByLimit + 1
    filesOmittedCountIncomplete := true
    scanTruncated := true }

/-- The walk stops at the deadline. -/
def outOfTime (stats : DiscoveryStats) : DiscoveryStats :=
  { stats with
    durationLimitReached := true
    scanTruncated := true
    filesOmittedCountIncomplete := true }

def observe (stats : DiscoveryStats) : DiscoveryStats :=
  { stats with observedFiles := stats.observedFiles + 1 }

def accept (stats : DiscoveryStats) (bytes : ℕ) : DiscoveryStats :=
  { stats with acceptedBytes := stats.acceptedBytes + bytes }

end DiscoveryStats

/-- The length of a file that is a regular file, not a link, when its metadata is read. -/
def WalkFile.regular (file : WalkFile) : Option ℕ :=
  (file.metadata.filter fun metadata => metadata.isFile && !metadata.isSymlink).map Metadata.len

def acceptRecognizedFile (limits : Limits) (file : WalkFile) (stats : DiscoveryStats) :
    Bool × DiscoveryStats :=
  match file.regular with
  | none => (false, stats.walkerError)
  | some bytes =>
    if bytes > limits.maxFileBytes then (false, stats.oversized bytes)
    else if stats.acceptedBytes + bytes > limits.maxTotalBytes then (false, stats.omitted bytes)
    else (true, stats.accept bytes)

inductive WalkControl where
  | continue
  | stop
  deriving DecidableEq

/-- `process_file`, on the files accepted so far and the statistics. -/
def processFile (discovery : Discovery) (file : WalkFile) (files : List WalkFile)
    (stats : DiscoveryStats) : WalkControl × List WalkFile × DiscoveryStats :=
  if file.absolutePath ∈ discovery.exclusions then (.continue, files, stats)
  else
    let stats := stats.observe
    if stats.observedFiles > discovery.limits.maxFiles then (.stop, files, stats.tooManyFiles)
    else if discovery.detect file.reportPath then
      match acceptRecognizedFile discovery.limits file stats with
      | (true, stats) => (.continue, files ++ [file], stats)
      | (false, stats) => (.continue, files, stats)
    else (.continue, files ++ [file], stats)

/-- What a walk has collected, and the deadline after its questions to the clock. -/
structure Collected where
  files : List WalkFile := []
  stats : DiscoveryStats := {}
  deadline : Deadline

/-- Whether the filter of the walker asks the clock about an item. -/
def WalkItem.filtered : WalkItem → Bool
  | .error => false
  | .entry depth _ => depth ≠ 0

def WalkItem.afterFilter (item : WalkItem) (deadline : Deadline) : Deadline :=
  if item.filtered then deadline.next else deadline

def collectFiles (discovery : Discovery) : List WalkItem → Collected → Collected
  | [], collected => collected
  | item :: rest, ⟨files, stats, deadline⟩ =>
    if item.filtered && deadline.passed then
      -- the filter drops what it sees after the deadline
      collectFiles discovery rest ⟨files, stats, deadline.next⟩
    else
      let deadline := item.afterFilter deadline
      if deadline.passed then ⟨files, stats.outOfTime, deadline.next⟩
      else
        match item with
        | .error => collectFiles discovery rest ⟨files, stats.walkerError, deadline.next⟩
        | .entry _ none => collectFiles discovery rest ⟨files, stats, deadline.next⟩
        | .entry _ (some file) =>
          match processFile discovery file files stats with
          | (.stop, files, stats) => ⟨files, stats, deadline.next⟩
          | (.continue, files, stats) => collectFiles discovery rest ⟨files, stats, deadline.next⟩

structure Discovered where
  files : List WalkFile
  observedFiles : ℕ
  walkerErrors : ℕ
  ignoreFilesRejected : ℕ
  oversizedFiles : ℕ
  oversizedBytes : ℕ
  filesOmittedByLimit : ℕ
  filesOmittedCountIncomplete : Bool
  bytesOmittedByLimit : ℕ
  scanTruncated : Bool
  durationLimitReached : Bool

/-- The order of the discovered files. -/
def fileOrder (left right : WalkFile) : Ordering :=
  (Ord.compare left.reportPath right.reportPath).then
    (Ord.compare left.absolutePath right.absolutePath)

/-- The statistics once the rejected ignore files are known and the clock is asked for the last
time. -/
def finishStats (rejected : ℕ) (collected : Collected) : DiscoveryStats :=
  let stats := collected.stats
  let stats :=
    { stats with
      walkerErrors := stats.walkerErrors + rejected
      scanTruncated := stats.scanTruncated || decide (rejected > 0) }
  if collected.deadline.passed then stats.outOfTime else stats

/-- `discover_with_exclusions_until`, with the deadline after it. -/
def discover (discovery : Discovery) (traversal : Traversal) (deadline : Deadline) :
    Discovered × Deadline :=
  let collected := collectFiles discovery traversal.items { deadline }
  let stats := finishStats traversal.rejected collected
  ({ files := KeyedList.sortBy fileOrder collected.files
     observedFiles := stats.observedFiles
     walkerErrors := stats.walkerErrors
     ignoreFilesRejected := traversal.rejected
     oversizedFiles := stats.oversizedFiles
     oversizedBytes := stats.oversizedBytes
     filesOmittedByLimit := stats.filesOmittedByLimit
     filesOmittedCountIncomplete := stats.filesOmittedCountIncomplete
     bytesOmittedByLimit := stats.bytesOmittedByLimit
     scanTruncated := stats.scanTruncated
     durationLimitReached := stats.durationLimitReached },
   collected.deadline.next)

/-! ## Reading a discovered file -/

inductive BoundedText where
  | content (text : String)
  | oversized (bytes : ℕ)
  | unreadable

def boundedText : ReadOutcome → BoundedText
  | .content text => .content text
  | .oversized bytes => .oversized bytes
  | .notRegularFile | .unreadable | .budgetExceeded | .deadlineExceeded => .unreadable

/-- `read_text_bounded_under_root`: a budget for one file, without a deadline. -/
def readTextBoundedUnderRoot (file : WalkFile) (maxBytes : ℕ) : BoundedText :=
  match file.opened with
  | none => boundedText .unreadable
  | some components =>
    boundedText (readFromRoot (ReadBudget.new maxBytes maxBytes 1)
      { components, deadlinePassed := false, deadlinePassedAfter := false }).2

end Walk

end Reposcout
