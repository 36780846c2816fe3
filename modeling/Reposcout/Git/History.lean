import Reposcout.Git.ChurnCache
import Reposcout.Git.Following
import Reposcout.Git.NativeChurn

/-!
# Collecting churn

The history of the head is walked, the changes of each commit come from the cache, from the native
stream or from libgit2, and every commit is applied to the wanted files.  Several limits can cut
this short; then the result is partial, and nothing is added to the cache from that point on.

What libgit2 reads of a repository is an input, as are the answers of the clock and of the Git
process.
-/

namespace Reposcout.Git

/-! ## The repository -/

inductive Delta where
  | unmodified
  | added
  | deleted
  | modified
  | renamed
  | copied
  | ignored
  | untracked
  | typechange
  | unreadable
  | conflicted
  deriving DecidableEq

structure DiffDelta where
  status : Delta
  oldFile : Option PathBuf
  newFile : Option PathBuf

/-- A commit. The tree of its first parent is absent if it cannot be read. -/
structure Commit where
  author : Option String
  seconds : ℤ
  parentCount : ℕ
  tree : TreeId
  parentTree : Option TreeId

/-- What libgit2 reads of a repository: commits, the diff of a commit against its first parent, the
same diff after rename detection, and the commits of the history of a head. -/
structure Repository where
  findCommit : String → Option Commit
  diff : String → Option (List DiffDelta)
  findSimilar : String → Option (List DiffDelta)
  revwalk : String → Option (List (Option String))

structure CollectStats where
  isPartial : Bool
  deltasOmitted : ℕ
  totalDeltas : ℕ
  deriving DecidableEq

/-- Some deltas are left out because of a limit. -/
def CollectStats.omit (stats : CollectStats) (deltas : ℕ) : CollectStats :=
  { stats with isPartial := true, deltasOmitted := stats.deltasOmitted + deltas }

/-! ## The walk -/

structure HistoryWalk where
  oids : List String
  complete : Bool
  isPartial : Bool

/-- `walk_history_oids`. `deadline` answers whether the deadline has passed. -/
def walkHistoryOids (limits : ChurnLimits) (deadline : ℕ → Bool) :
    ℕ → List (Option String) → HistoryWalk → HistoryWalk
  | _, [], walk => walk
  | index, oid :: rest, walk =>
    if deadline index then { walk with complete := false, isPartial := true }
    else if limits.maxCommits > 0 ∧ walk.oids.length ≥ limits.maxCommits then walk
    else
      match oid with
      | some oid =>
        walkHistoryOids limits deadline (index + 1) rest { walk with oids := walk.oids ++ [oid] }
      | none => walkHistoryOids limits deadline (index + 1) rest { walk with complete := false }

def mergeCommitOids (repo : Repository) (oids : List String) : List String :=
  oids.filter fun oid => (repo.findCommit oid).any fun commit => commit.parentCount > 1

def uncachedEventOids (oids mergeOids : List String) (cache : ChurnCache) : List String :=
  oids.filter fun oid => oid ∉ mergeOids ∧ (cache.event oid).isNone

/-- `prepare_commits`: a commit without a parent is left to libgit2. -/
def prepareCommits (repo : Repository) : List String → Except String (List NativeCommit)
  | [] => .ok []
  | oid :: oids =>
    match repo.findCommit oid with
    | none => .error "commit not found"
    | some commit =>
      if commit.parentCount = 0 then prepareCommits repo oids
      else
        match commit.parentTree with
        | none => .error "parent not found"
        | some parentTree =>
          match prepareCommits repo oids with
          | .error message => .error message
          | .ok commits =>
            .ok
              ({ oid := oid
                 author := commit.author
                 seconds := commit.seconds
                 oldTree := parentTree
                 newTree := commit.tree } :: commits)

/-! ## Events -/

def commitEvent (commit : Commit) (oid : String) (deltas : List CachedDelta)
    (renamesResolved : Bool) : CommitEvent where
  oid := oid
  author := commit.author
  seconds := commit.seconds
  deltas := deltas
  renamesResolved := renamesResolved

def Delta.kind : Delta → DeltaKind
  | .added => .added
  | .deleted => .deleted
  | .renamed => .renamed
  | _ => .other

def DiffDelta.cached (delta : DiffDelta) : CachedDelta :=
  ⟨delta.status.kind, delta.oldFile, delta.newFile⟩

def pathTooLong (path : Option PathBuf) (maxPathBytes : ℕ) : Bool :=
  path.any fun path => path.toStringLossy.utf8ByteSize > maxPathBytes

/-- `cached_deltas`, with the deltas so far. -/
def cachedDeltas (limits : ChurnLimits) :
    List DiffDelta → CollectStats → List CachedDelta → CollectStats × List CachedDelta
  | [], stats, deltas => (stats, deltas)
  | delta :: diff, stats, deltas =>
    if deltas.length ≥ limits.maxDeltasPerCommit then
      cachedDeltas limits diff (stats.omit 1) deltas
    else if pathTooLong delta.oldFile limits.maxPathBytes ∨
        pathTooLong delta.newFile limits.maxPathBytes then
      cachedDeltas limits diff (stats.omit 1) deltas
    else cachedDeltas limits diff stats (deltas ++ [delta.cached])

def eventNeedsRenameResolution (deltas : List CachedDelta) (aliases : Aliases) : Bool :=
  (deltas.any fun delta => delta.kind = .deleted) &&
    deltas.any fun delta =>
      delta.kind = .added && delta.newPath.any fun path => (KeyedList.get? path aliases).isSome

def analyzeCommit (repo : Repository) (limits : ChurnLimits) (oid : String) (aliases : Aliases)
    (stats : CollectStats) : CollectStats × Option CommitEvent :=
  match repo.findCommit oid with
  | none => (stats, none)
  | some commit =>
    match repo.diff oid with
    | none => (stats, none)
    | some diff =>
      let raw := cachedDeltas limits diff stats []
      if ¬ raw.1.isPartial ∧ eventNeedsRenameResolution raw.2 aliases ∧
          raw.2.length ≤ limits.maxDeltasPerCommit then
        match repo.findSimilar oid with
        | some similar =>
          let resolved := cachedDeltas limits similar raw.1 []
          (resolved.1, some (commitEvent commit oid resolved.2 true))
        | none => (raw.1, some (commitEvent commit oid raw.2 false))
      else (raw.1, some (commitEvent commit oid raw.2 false))

def resolveCommitRenames (repo : Repository) (limits : ChurnLimits) (oid : String)
    (stats : CollectStats) : CollectStats × Option CommitEvent :=
  match repo.findCommit oid with
  | none => (stats, none)
  | some commit =>
    match repo.diff oid with
    | none => (stats, none)
    | some _ =>
      match repo.findSimilar oid with
      | none => (stats, none)
      | some similar =>
        let resolved := cachedDeltas limits similar stats []
        (resolved.1, some (commitEvent commit oid resolved.2 true))

/-! ## Limits -/

/-- The deltas of an event while the limits are applied. -/
structure LimitedDeltas where
  deltas : List CachedDelta
  stats : CollectStats
  complete : Bool

/-- The first limit of `enforce_event_limits`: deltas with long paths are removed. -/
def LimitedDeltas.dropLongPaths (limits : ChurnLimits) (state : LimitedDeltas) : LimitedDeltas :=
  let kept := state.deltas.filter fun delta =>
    ¬ pathTooLong delta.oldPath limits.maxPathBytes ∧ ¬ pathTooLong delta.newPath limits.maxPathBytes
  let removedPaths := state.deltas.length - kept.length
  if removedPaths > 0 then ⟨kept, state.stats.omit removedPaths, false⟩ else { state with deltas := kept }

/-- The other limits of `enforce_event_limits`: if there are too many deltas, only the first ones
are kept. -/
def LimitedDeltas.truncate (exceeded : Bool) (allowed : ℕ) (state : LimitedDeltas) :
    LimitedDeltas :=
  if exceeded then
    ⟨state.deltas.take allowed, state.stats.omit (state.deltas.length - allowed), false⟩
  else state

def enforceEventLimits (limits : ChurnLimits) (event : CommitEvent) (stats : CollectStats) :
    CommitEvent × CollectStats × Bool :=
  let paths := LimitedDeltas.dropLongPaths limits ⟨event.deltas, stats, true⟩
  let commit := paths.truncate (paths.deltas.length > limits.maxDeltasPerCommit)
    limits.maxDeltasPerCommit
  let total := commit.truncate
    (commit.stats.totalDeltas + commit.deltas.length > limits.maxTotalDeltas)
    (limits.maxTotalDeltas - commit.stats.totalDeltas)
  ({ event with deltas := total.deltas },
    { total.stats with totalDeltas := total.stats.totalDeltas + total.deltas.length },
    total.complete)

/-! ## Processing the history -/

/-- `HistoryProcessor`, its changing part. -/
structure HistoryProcessor where
  cache : ChurnCache
  streamedEvents : List (String × CommitEvent)
  aliases : Aliases
  acc : Accs
  stats : CollectStats
  complete : Bool

namespace HistoryProcessor

def markIncomplete (processor : HistoryProcessor) : HistoryProcessor :=
  { processor with complete := false }

def markPartial (processor : HistoryProcessor) : HistoryProcessor :=
  { processor with complete := false, stats := { processor.stats with isPartial := true } }

def eventFor (repo : Repository) (limits : ChurnLimits) (mergeOids : List String) (oid : String)
    (processor : HistoryProcessor) : HistoryProcessor × Option CommitEvent :=
  if oid ∈ mergeOids then
    match repo.findCommit oid with
    | none => (processor.markIncomplete, none)
    -- The commits of the branch carry the change; the merge would count it again.
    | some commit => (processor, some (commitEvent commit oid [] true))
  else
    match processor.cache.event oid with
    | some event => (processor, some event)
    | none =>
      match KeyedList.get? oid processor.streamedEvents with
      | some event =>
        ({ processor with
            streamedEvents := processor.streamedEvents.filter fun entry => entry.1 ≠ oid },
          some event)
      | none =>
        if limits.skipLibgit2Fallback then (processor.markPartial, none)
        else
          let analyzed := analyzeCommit repo limits oid processor.aliases processor.stats
          let next := { processor with stats := analyzed.1 }
          match analyzed.2 with
          | none => (next.markIncomplete, none)
          | some event => (next, some event)

def resolveRenames (repo : Repository) (limits : ChurnLimits) (oid : String)
    (processor : HistoryProcessor) (event : CommitEvent) : HistoryProcessor × CommitEvent :=
  if event.renamesResolved = false ∧ eventNeedsRenameResolution event.deltas processor.aliases then
    if limits.skipLibgit2Fallback ∨ processor.stats.isPartial then (processor.markPartial, event)
    else
      let resolved := resolveCommitRenames repo limits oid processor.stats
      ({ processor with stats := resolved.1 }, resolved.2.getD event)
  else (processor, event)

/-- The rest of an iteration of `process`: the limits, the cache and the counts. -/
def applyLimited (limits : ChurnLimits) (useEventCache : Bool) (processor : HistoryProcessor)
    (event : CommitEvent) : HistoryProcessor :=
  let limited := enforceEventLimits limits event processor.stats
  let applied := applyEvent (processor.aliases, processor.acc) limited.1
  { processor with
    cache :=
      if useEventCache ∧ ¬ limited.2.1.isPartial then processor.cache.putEvent limited.1
      else processor.cache
    aliases := applied.1
    acc := applied.2
    stats := limited.2.1
    complete := processor.complete && limited.2.2 }

/-- One iteration of `process`, and whether it is the last one. -/
def processOid (repo : Repository) (limits : ChurnLimits) (useEventCache : Bool)
    (mergeOids : List String) (deadline : Bool) (oid : String) (processor : HistoryProcessor) :
    HistoryProcessor × Bool :=
  if deadline ∨ processor.stats.totalDeltas ≥ limits.maxTotalDeltas then
    (processor.markPartial, true)
  else
    let found := processor.eventFor repo limits mergeOids oid
    match found.2 with
    | none => (found.1, false)
    | some event =>
      let resolved := found.1.resolveRenames repo limits oid event
      let next := resolved.1.applyLimited limits useEventCache resolved.2
      (next, next.stats.isPartial && next.stats.totalDeltas ≥ limits.maxTotalDeltas)

def process (repo : Repository) (limits : ChurnLimits) (useEventCache : Bool)
    (mergeOids : List String) (deadline : ℕ → Bool) :
    ℕ → List String → HistoryProcessor → HistoryProcessor
  | _, [], processor => processor
  | index, oid :: oids, processor =>
    match processor.processOid repo limits useEventCache mergeOids (deadline index) oid with
    | (next, true) => next
    | (next, false) =>
      next.process repo limits useEventCache mergeOids deadline (index + 1) oids

end HistoryProcessor

/-! ## Collecting -/

/-- A run of the collection: its arguments, the repository it finds, and the answers of the clock,
of the Git process and of the file system. The head is absent if the repository has none. -/
structure ChurnRun where
  files : List PathBuf
  limits : ChurnLimits
  useCache : Bool
  repository : Repository
  head : Option String
  historyState : String
  cacheable : Bool
  walkDeadline : ℕ → Bool
  processDeadline : ℕ → Bool
  startGit : List NativeCommit → Option GitProcess
  orders : CacheOrders
  eventsWritten : Bool
  viewsWritten : Bool

structure ChurnCollection where
  churn : List (PathBuf × Churn)
  isPartial : Bool
  deltasOmitted : ℕ
  deriving DecidableEq

namespace ChurnRun

def wanted (run : ChurnRun) : List PathBuf := run.files.dedup

def viewIdentity (run : ChurnRun) (head : String) : ViewIdentity :=
  ViewIdentity.new head run.historyState run.limits run.wanted

/-- `collect_streamed_events`, and whether the result is complete. -/
def collectStreamedEvents (pathFromGit : List UInt8 → PathBuf) (run : ChurnRun)
    (uncached : List String) (stats : CollectStats) :
    List (String × CommitEvent) × CollectStats × Bool :=
  if uncached.isEmpty then ([], stats, true)
  else
    match prepareCommits run.repository uncached with
    | .error _ => ([], { stats with isPartial := stats.isPartial || run.limits.skipLibgit2Fallback },
        ¬ run.limits.skipLibgit2Fallback)
    | .ok commits =>
      match collectEvents pathFromGit run.startGit run.limits commits with
      | .error _ => ([], { stats with isPartial := stats.isPartial || run.limits.skipLibgit2Fallback },
          ¬ run.limits.skipLibgit2Fallback)
      | .ok (events, stream) =>
        (events,
          { stats with
            isPartial := stats.isPartial || stream.isPartial
            deltasOmitted := stats.deltasOmitted + stream.deltasOmitted }, ¬ stream.isPartial)

/-- The state in which `process` starts. -/
def processor (pathFromGit : List UInt8 → PathBuf) (run : ChurnRun) (cache : ChurnCache)
    (walk : HistoryWalk) : HistoryProcessor :=
  let uncached := uncachedEventOids walk.oids (mergeCommitOids run.repository walk.oids) cache
  let streamed := run.collectStreamedEvents pathFromGit uncached ⟨walk.isPartial, 0, 0⟩
  { cache := cache
    streamedEvents := streamed.1
    aliases := initialAliases run.wanted
    acc := []
    stats := streamed.2.1
    complete := walk.complete && streamed.2.2 }

/-- The state in which `process` ends. -/
def processed (pathFromGit : List UInt8 → PathBuf) (run : ChurnRun) (cache : ChurnCache)
    (walk : HistoryWalk) : HistoryProcessor :=
  (run.processor pathFromGit cache walk).process run.repository run.limits run.cacheable
    (mergeCommitOids run.repository walk.oids) run.processDeadline 0 walk.oids

variable {codec : CacheCodec}

/-- The rest of `collect_impl`, once the history is processed. -/
def finish (toRfc3339 : ℤ → Option String) (run : ChurnRun) (head : String)
    (disk : CacheDisk codec) (final : HistoryProcessor) : CacheDisk codec × ChurnCollection :=
  let churn := finishChurn toRfc3339 final.acc
  let cache :=
    if run.cacheable ∧ final.complete ∧ ¬ final.stats.isPartial then
      final.cache.putView run.orders.results (run.viewIdentity head) churn
    else final.cache
  (if run.cacheable then
      (cache.save run.orders.events run.eventsWritten run.viewsWritten disk).2
    else disk,
    { churn := churn
      isPartial := final.stats.isPartial || !final.complete
      deltasOmitted := final.stats.deltasOmitted })

/-- `collect_impl` after a view was not found. -/
def collectHistory (pathFromGit : List UInt8 → PathBuf) (toRfc3339 : ℤ → Option String)
    (run : ChurnRun) (head : String) (disk : CacheDisk codec) (cache : ChurnCache) :
    CacheDisk codec × ChurnCollection :=
  let cache := if run.cacheable then cache.loadEvents codec disk run.historyState else cache
  match run.repository.revwalk head with
  | none => (disk, ⟨[], false, 0⟩)
  | some oids =>
    let walk := walkHistoryOids run.limits run.walkDeadline 0 oids ⟨[], true, false⟩
    run.finish toRfc3339 head disk (run.processed pathFromGit cache walk)

/-- `collect_impl` with the cache on disk, and the disk afterwards. -/
def collect (pathFromGit : List UInt8 → PathBuf) (toRfc3339 : ℤ → Option String) (run : ChurnRun)
    (disk : CacheDisk codec) : CacheDisk codec × ChurnCollection :=
  if run.wanted.isEmpty then (disk, ⟨[], false, 0⟩)
  else
    match run.head with
    | none => (disk, ⟨[], false, 0⟩)
    | some head =>
      let cache := ChurnCache.openAt codec disk run.useCache (max run.limits.maxCacheBytes 1)
      if run.cacheable then
        match cache.getView (run.viewIdentity head) with
        | (cache, some churn) =>
          ((cache.save run.orders.events run.eventsWritten run.viewsWritten disk).2,
            ⟨churn, false, 0⟩)
        | (cache, none) => run.collectHistory pathFromGit toRfc3339 head disk cache
      else run.collectHistory pathFromGit toRfc3339 head disk cache

end ChurnRun

end Reposcout.Git
