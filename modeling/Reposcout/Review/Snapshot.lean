import Reposcout.Walk.Discovery

/-!
# Source snapshots

A review analyses one or two snapshots of the sources: the working tree as discovery finds it, the
index, or a committed tree.  Each loader keeps the texts it could read and counts what it left out.

The repository is input: the entries of a tree or of the index in the order in which they are
visited, what the object database answers for each, and what the ignore policy says about a path.
-/

namespace Reposcout.Review

open Walk

structure SourceSnapshot where
  sources : List (PathBuf × String) := []
  unreadableFiles : ℕ := 0
  oversizedFiles : ℕ := 0
  oversizedBytes : ℕ := 0
  filesOmittedByLimit : ℕ := 0
  filesOmittedCountIncomplete : Bool := false
  scanTruncated : Bool := false
  durationLimitReached : Bool := false

namespace SourceSnapshot

def insert (snapshot : SourceSnapshot) (path : PathBuf) (content : String) : SourceSnapshot :=
  { snapshot with sources := KeyedList.alter path (fun _ => content) snapshot.sources }

def unreadable (snapshot : SourceSnapshot) : SourceSnapshot :=
  { snapshot with unreadableFiles := snapshot.unreadableFiles + 1 }

def oversized (snapshot : SourceSnapshot) (bytes : ℕ) : SourceSnapshot :=
  { snapshot with
    oversizedFiles := snapshot.oversizedFiles + 1
    oversizedBytes := snapshot.oversizedBytes + bytes
    scanTruncated := true }

/-- Files are left out because of a limit. -/
def omitted (snapshot : SourceSnapshot) (files : ℕ) : SourceSnapshot :=
  { snapshot with
    filesOmittedByLimit := snapshot.filesOmittedByLimit + files
    scanTruncated := true }

/-- The deadline leaves out a known number of files. -/
def outOfTime (snapshot : SourceSnapshot) (files : ℕ) : SourceSnapshot :=
  { snapshot.omitted files with durationLimitReached := true }

/-- The deadline ends the walk of a tree. -/
def abandoned (snapshot : SourceSnapshot) : SourceSnapshot :=
  { snapshot with
    scanTruncated := true
    durationLimitReached := true
    filesOmittedCountIncomplete := true }

/-- The file limit ends the walk of a tree. -/
def tooManyFiles (snapshot : SourceSnapshot) : SourceSnapshot :=
  { snapshot.omitted 1 with filesOmittedCountIncomplete := true }

end SourceSnapshot

/-! ## The working tree -/

/-- The loop of `worktree` over the discovered files. -/
def readFiles (discovery : Discovery) :
    List WalkFile → SourceSnapshot → Deadline → SourceSnapshot × Deadline
  | [], snapshot, deadline => (snapshot, deadline)
  | file :: rest, snapshot, deadline =>
    if deadline.passed then (snapshot.outOfTime (rest.length + 1), deadline.next)
    else if discovery.detect file.reportPath = false then
      readFiles discovery rest snapshot deadline.next
    else
      match readTextBoundedUnderRoot file discovery.limits.maxFileBytes with
      | .content content =>
        readFiles discovery rest (snapshot.insert file.reportPath content) deadline.next
      | .oversized bytes => readFiles discovery rest (snapshot.oversized bytes) deadline.next
      | .unreadable => readFiles discovery rest snapshot.unreadable deadline.next

/-- What the snapshot takes over from discovery; the errors of the walker are not among it. -/
def fromDiscovered (discovered : Discovered) : SourceSnapshot where
  oversizedFiles := discovered.oversizedFiles
  oversizedBytes := discovered.oversizedBytes
  filesOmittedByLimit := discovered.filesOmittedByLimit
  filesOmittedCountIncomplete := discovered.filesOmittedCountIncomplete
  scanTruncated := discovered.scanTruncated
  durationLimitReached := discovered.durationLimitReached

def worktree (discovery : Discovery) (traversal : Traversal) (deadline : Deadline) :
    SourceSnapshot × Deadline :=
  let (discovered, deadline) := discover discovery traversal deadline
  readFiles discovery discovered.files (fromDiscovered discovered) deadline

/-! ## Blobs -/

/-- An object of the repository: whether its header tells its size, and its bytes if it is a
readable blob. -/
structure Blob where
  size : ℕ
  headerReadable : Bool
  bytes : Option (List UInt8)
  length_bytes : ∀ content, bytes = some content → content.length = size

/-- `blob_size_hint`. -/
def Blob.sizeHint (blob : Blob) : Option ℕ := if blob.headerReadable then some blob.size else none

inductive BlobTextError where
  | binary
  | unreadable

def loadBlobText (blob : Blob) (maxBytes : ℕ) : Except BlobTextError (Option String) :=
  if blob.sizeHint.any fun size => size > maxBytes then .ok none
  else
    match blob.bytes with
    | none => .error .unreadable
    | some bytes =>
      if bytes.length > maxBytes then .ok none
      else
        match fromUtf8 bytes with
        | some content => .ok (some content)
        | none => .error .binary

/-- `SnapshotFilter`: the recognized paths, the excluded identities and the ignored paths;
`rejected` ignore files could not be used. -/
structure SnapshotFilter where
  detect : PathBuf → Bool
  identity : PathBuf → PathBuf
  exclusions : List PathBuf
  ignored : PathBuf → Bool
  rejected : ℕ

namespace SnapshotFilter

def allows (filter : SnapshotFilter) (path : PathBuf) : Bool :=
  filter.detect path && decide (filter.identity path ∉ filter.exclusions) && !filter.ignored path

def recordErrors (filter : SnapshotFilter) (snapshot : SourceSnapshot) : SourceSnapshot :=
  { snapshot with
    unreadableFiles := snapshot.unreadableFiles + filter.rejected
    scanTruncated := snapshot.scanTruncated || decide (filter.rejected > 0) }

end SnapshotFilter

/-- The local variables of the two loaders of git objects. -/
structure LoadState where
  snapshot : SourceSnapshot := {}
  observedFiles : ℕ := 0
  acceptedBytes : ℕ := 0

namespace LoadState

def record (state : LoadState) (f : SourceSnapshot → SourceSnapshot) : LoadState :=
  { state with snapshot := f state.snapshot }

def observe (state : LoadState) : LoadState :=
  { state with observedFiles := state.observedFiles + 1 }

def accept (state : LoadState) (path : PathBuf) (content : String) : LoadState :=
  { state.record (fun snapshot => snapshot.insert path content) with
    acceptedBytes := state.acceptedBytes + content.utf8ByteSize }

end LoadState

/-- The end of the body of both loaders: the text of an entry is loaded. -/
def acceptText (limits : Limits) (path : PathBuf) (blob : Blob) (state : LoadState) : LoadState :=
  match loadBlobText blob limits.maxGitBlobBytes with
  | .ok (some content) =>
    if state.acceptedBytes + content.utf8ByteSize > limits.maxTotalBytes then
      state.record fun snapshot => snapshot.omitted 1
    else state.accept path content
  | .ok none => state.record fun snapshot => snapshot.oversized (blob.sizeHint.getD 0)
  | .error _ => state.record fun snapshot => snapshot.unreadable

/-- The body of both loaders for an allowed entry: the size hint decides before the text is
loaded. -/
def loadEntry (limits : Limits) (path : PathBuf) (blob : Blob) (state : LoadState) : LoadState :=
  match blob.sizeHint with
  | none => acceptText limits path blob state
  | some size =>
    if size > limits.maxGitBlobBytes then state.record fun snapshot => snapshot.oversized size
    else if state.acceptedBytes + size > limits.maxTotalBytes then
      state.record fun snapshot => snapshot.omitted 1
    else acceptText limits path blob state

/-- The body of both loaders once an entry counts as observed. -/
def visitEntry (limits : Limits) (filter : SnapshotFilter) (path : Option PathBuf) (blob : Blob)
    (state : LoadState) : LoadState :=
  match path with
  | none => state.record fun snapshot => snapshot.unreadable
  | some path => if filter.allows path then loadEntry limits path blob state else state

/-! ## Committed trees -/

/-- An entry of the walk of a tree; its path is absent if its name is not UTF-8. -/
structure TreeEntry where
  isBlob : Bool
  path : Option PathBuf
  blob : Blob

/-- The walk of a tree in `from_tree`, with whether it stopped at a limit. -/
def walkTree (limits : Limits) (filter : SnapshotFilter) :
    List TreeEntry → LoadState → Deadline → (LoadState × Bool) × Deadline
  | [], state, deadline => ((state, false), deadline)
  | entry :: rest, state, deadline =>
    if deadline.passed then ((state.record fun snapshot => snapshot.abandoned, true), deadline.next)
    else if entry.isBlob = false then walkTree limits filter rest state deadline.next
    else
      let state := state.observe
      if state.observedFiles > limits.maxFiles then
        ((state.record fun snapshot => snapshot.tooManyFiles, true), deadline.next)
      else
        walkTree limits filter rest (visitEntry limits filter entry.path entry.blob state)
          deadline.next

structure TreeSource where
  filter : SnapshotFilter
  entries : List TreeEntry
  walkFails : Bool

def fromTree (limits : Limits) (source : TreeSource) (deadline : Deadline) :
    Option (SourceSnapshot × Deadline) :=
  let ((state, stoppedAtLimit), deadline) :=
    walkTree limits source.filter source.entries {} deadline
  if source.walkFails && !stoppedAtLimit then none
  else some (source.filter.recordErrors state.snapshot, deadline)

/-! ## The index -/

structure IndexEntry where
  path : Option PathBuf
  blob : Blob

/-- The loop of `from_index`. -/
def walkIndex (limits : Limits) (filter : SnapshotFilter) :
    List IndexEntry → LoadState → Deadline → LoadState × Deadline
  | [], state, deadline => (state, deadline)
  | entry :: rest, state, deadline =>
    if deadline.passed then
      (state.record fun snapshot => snapshot.outOfTime (rest.length + 1), deadline.next)
    else
      let state := state.observe
      if state.observedFiles > limits.maxFiles then
        (state.record fun snapshot => snapshot.omitted (rest.length + 1), deadline.next)
      else
        walkIndex limits filter rest (visitEntry limits filter entry.path entry.blob state)
          deadline.next

structure IndexSource where
  filter : SnapshotFilter
  entries : List IndexEntry

def fromIndex (limits : Limits) (source : IndexSource) (deadline : Deadline) :
    SourceSnapshot × Deadline :=
  let (state, deadline) := walkIndex limits source.filter source.entries {} deadline
  (source.filter.recordErrors state.snapshot, deadline)

/-! ## The snapshots of a review -/

inductive DiffScope where
  | since (reference : String)
  | staged
  | working
  deriving DecidableEq

/-- The tree a deep review compares with: it cannot be found, there is no commit yet, or it is
read. -/
inductive BaseSource where
  | failed
  | unborn
  | tree (source : TreeSource)

/-- What the loaders read: the working tree and the index are absent if they cannot be opened. -/
structure RepositoryState where
  worktree : Option Traversal
  index : Option IndexSource
  base : BaseSource

/-- `SourceSnapshot::current`. -/
def currentSnapshot (discovery : Discovery) (repository : RepositoryState) (scope : DiffScope)
    (deadline : Deadline) : Option (SourceSnapshot × Deadline) :=
  if scope = .staged then
    repository.index.map fun source => fromIndex discovery.limits source deadline
  else repository.worktree.map fun traversal => worktree discovery traversal deadline

/-- `SourceSnapshot::base`. -/
def baseSnapshot (limits : Limits) (repository : RepositoryState) (deadline : Deadline) :
    Option (SourceSnapshot × Deadline) :=
  match repository.base with
  | .failed => none
  | .unborn => some ({}, deadline)
  | .tree source => fromTree limits source deadline

end Reposcout.Review
