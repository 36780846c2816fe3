import Reposcout.Framework.Runs
import Reposcout.Walk.Walker

/-!
# The daemon

One task scans the target whenever its trigger channel holds a message, and publishes each
completed scan under the next revision.  The file watcher and the rescan requests put the message
into the channel, which has room for one.  Graph requests take their inputs out of the published
snapshot under one lock and build the graph under another.

Every task may run between two awaits of another.  A step is what one task does under its locks
without waiting; the scan, the graph of given inputs and the watcher's filter are parameters.
-/

namespace Reposcout.Daemon

variable {File Rest Facts Graph Event : Type}

/-! ## Snapshots -/

inductive DaemonStatus
  | starting
  | scanning
  | ready
  | error

/-- `ScanReport`: its root, its files, and everything else. -/
structure ScanReport (File Rest : Type) where
  root : String
  files : List File
  rest : Rest

/-- `GraphReadLimits` without the deadline, which the daemon never sets. -/
structure GraphReadLimits where
  maxFileBytes : ℕ
  maxTotalBytes : ℕ
  maxFiles : ℕ
  factsOnlySources : Bool

structure GraphInputs (Facts : Type) where
  sourceFacts : List (String × Facts)
  resolverConfigs : List (String × String)

/-- `DaemonSnapshot`.  The revision is a `u64` that a scan raises by one; no daemon lives to see its
end. -/
structure DaemonSnapshot (File Rest Facts : Type) where
  revision : ℕ
  status : DaemonStatus
  scanStartedAt : Option String
  scanFinishedAt : Option String
  error : Option String
  report : Option (ScanReport File Rest)
  graphFacts : List (String × Facts)
  resolverConfigs : List (String × String)
  graphLimits : GraphReadLimits

/-- `ScanArtifacts`, with the limits of the configuration that was scanned with. -/
structure Artifacts (File Rest Facts : Type) where
  report : ScanReport File Rest
  graphFacts : List (String × Facts)
  resolverConfigs : List (String × String)
  graphLimits : GraphReadLimits

inductive DaemonEventKind
  | started
  | completed
  | failed
  deriving DecidableEq

structure DaemonEvent where
  kind : DaemonEventKind
  revision : ℕ
  time : String
  error : Option String

/-! ## Tasks -/

inductive ScanLoop (File Rest Facts : Type)
  /-- In the `select!` of the loop. -/
  | waiting
  /-- A message was received. -/
  | debouncing
  /-- The debounce is over. -/
  | draining
  /-- `scan_once` was called. -/
  | starting
  /-- The snapshot says so, and the scan runs. -/
  | scanning
  /-- The scan has a result. -/
  | finishing (result : Except String (Artifacts File Rest Facts))
  /-- The task is over and its end of the channel is closed. -/
  | stopped

/-- What a graph request takes out of a snapshot. -/
structure Capture (File Facts : Type) where
  revision : ℕ
  root : String
  files : List File
  inputs : GraphInputs Facts
  limits : GraphReadLimits

/-- Where a graph request stands. -/
inductive GraphPhase (File Facts : Type)
  | received (expected : Option ℕ)
  /-- Waiting for the cache. -/
  | queued (expected : Option ℕ) (capture : Capture File Facts)
  /-- Holding the cache. -/
  | locked (expected : Option ℕ) (capture : Capture File Facts)
  /-- Holding the cache while the graph is built. -/
  | building (expected : Option ℕ) (capture : Capture File Facts)

structure CachedGraph (Graph : Type) where
  revision : ℕ
  graph : Graph

/-- The daemon: the shared state, and where each task stands. -/
structure DaemonState (File Rest Facts Graph : Type) where
  snapshot : DaemonSnapshot File Rest Facts
  graphCache : Option (CachedGraph Graph)
  /-- The request that holds the lock of the cache. -/
  graphCacheHolder : Option ℕ
  graphRequests : ℕ → Option (GraphPhase File Facts)
  /-- Whether the trigger channel holds its one message. -/
  triggered : Bool
  /-- Whether the initial scan was queued. -/
  serving : Bool
  lastRescan : Option ℕ
  /-- The rescan requests that passed the cooldown and did not send yet. -/
  sending : ℕ
  scanLoop : ScanLoop File Rest Facts
  events : List DaemonEvent

/-- The daemon before its first scan. -/
def DaemonState.start (limits : GraphReadLimits) : DaemonState File Rest Facts Graph where
  snapshot :=
    { revision := 0, status := .starting, scanStartedAt := none, scanFinishedAt := none
      error := none, report := none, graphFacts := [], resolverConfigs := []
      graphLimits := limits }
  graphCache := none
  graphCacheHolder := none
  graphRequests := fun _ => none
  triggered := false
  serving := false
  lastRescan := none
  sending := 0
  scanLoop := .waiting
  events := []

/-! ## Steps -/

inductive StatusCode
  | accepted
  | badRequest
  | tooManyRequests
  | serviceUnavailable
  | conflict
  | internalServerError

structure DaemonGraphResponse (Graph : Type) where
  revision : ℕ
  graph : Graph

/-- What a request is answered. -/
inductive Output (Graph : Type)
  | rescan (status : StatusCode)
  | graph (expected : Option ℕ)
      (response : Except (StatusCode × String) (DaemonGraphResponse Graph))

inductive Action (File Rest Facts Event : Type)
  /-- `serve` queues the initial scan. -/
  | queueInitial
  | watcherEvent (event : Event)
  /-- `rescan` up to its lock, at a time in milliseconds. -/
  | rescan (header : Option String) (now : ℕ)
  /-- The `try_send` of a `rescan`. -/
  | rescanSend
  /-- `recv`. -/
  | receive
  /-- The end of the debounce. -/
  | debounced
  /-- A `try_recv` that takes a message. -/
  | drain
  /-- A `try_recv` that takes none, and the call of `scan_once`. -/
  | startScan
  /-- The first lock of `scan_once`. -/
  | markScanning (now : String)
  /-- The result of the scan. -/
  | scanned (result : Except String (Artifacts File Rest Facts))
  /-- The second lock of `scan_once`, or `record_scan_error`. -/
  | record (now : String)
  /-- A shutdown, or the scan task is aborted. -/
  | stop
  | graphRequest (id : ℕ) (expected : Option ℕ)
  /-- The read lock of `repository_graph`. -/
  | readSnapshot (id : ℕ)
  | lockCache (id : ℕ)
  /-- The look into the cache. -/
  | checkCache (id : ℕ)
  /-- The end of the blocking task, or its failure. -/
  | built (id : ℕ) (failure : Option String)
  /-- The client is gone. -/
  | cancel (id : ℕ)

/-- `RESCAN_COOLDOWN`, in milliseconds. -/
def rescanCooldown : ℕ := 1000

/-- The answer of `try_send`. -/
inductive Sent
  | ok
  | full
  | closed

namespace DaemonState

def isStopped (daemon : DaemonState File Rest Facts Graph) : Bool :=
  match daemon.scanLoop with
  | .stopped => true
  | _ => false

/-- `try_send(())` on the trigger channel. -/
def trySend (daemon : DaemonState File Rest Facts Graph) : DaemonState File Rest Facts Graph × Sent :=
  if daemon.isStopped then (daemon, .closed)
  else if daemon.triggered then (daemon, .full)
  else ({ daemon with triggered := true }, .ok)

/-- A graph request goes on to another phase, or is over. -/
def setPhase (daemon : DaemonState File Rest Facts Graph) (id : ℕ)
    (phase : Option (GraphPhase File Facts)) : DaemonState File Rest Facts Graph :=
  { daemon with graphRequests := Function.update daemon.graphRequests id phase }

/-- The lock of the cache is given back. -/
def release (daemon : DaemonState File Rest Facts Graph) (id : ℕ) : DaemonState File Rest Facts Graph :=
  { daemon with
    graphCacheHolder := if daemon.graphCacheHolder = some id then none else daemon.graphCacheHolder }

end DaemonState

/-- The block of `repository_graph` under the read lock. -/
def capture (snapshot : DaemonSnapshot File Rest Facts) (expected : Option ℕ) :
    Except (StatusCode × String) (Capture File Facts) :=
  match expected.filter (· ≠ snapshot.revision) with
  | some expected =>
    .error (.conflict, s!"report revision changed from {expected} to {snapshot.revision}")
  | none =>
    match snapshot.report with
    | none => .error (.conflict, "no completed report is available")
    | some report =>
      .ok
        { revision := snapshot.revision
          root := report.root
          files := report.files
          inputs := ⟨snapshot.graphFacts, snapshot.resolverConfigs⟩
          limits := snapshot.graphLimits }

def DaemonSnapshot.started (snapshot : DaemonSnapshot File Rest Facts) (now : String) :
    DaemonSnapshot File Rest Facts :=
  { snapshot with status := .scanning, scanStartedAt := some now, error := none }

/-- The snapshot after a scan, where a failed one is recorded by `record_scan_error`. -/
def DaemonSnapshot.finished (snapshot : DaemonSnapshot File Rest Facts) (now : String) :
    Except String (Artifacts File Rest Facts) → DaemonSnapshot File Rest Facts
  | .ok artifacts =>
    { revision := snapshot.revision + 1
      status := .ready
      scanStartedAt := snapshot.scanStartedAt
      scanFinishedAt := some now
      error := none
      report := some artifacts.report
      graphFacts := artifacts.graphFacts
      resolverConfigs := artifacts.resolverConfigs
      graphLimits := artifacts.graphLimits }
  | .error error =>
    { snapshot with status := .error, scanFinishedAt := some now, error := some error }

/-- The event of a scan that is over. -/
def finishedEvent (revision : ℕ) (now : String) :
    Except String (Artifacts File Rest Facts) → DaemonEvent
  | .ok _ => ⟨.completed, revision, now, none⟩
  | .error error => ⟨.failed, revision, now, some error⟩

section

variable (buildWithInputs : List File → String → GraphReadLimits → GraphInputs Facts → Graph)
  (requiresRescan : Event → Bool)

/-- The graph of what a request took out of a snapshot. -/
def Capture.graph (capture : Capture File Facts) : Graph :=
  buildWithInputs capture.files capture.root capture.limits capture.inputs

def step (daemon : DaemonState File Rest Facts Graph) : Action File Rest Facts Event →
      Option (DaemonState File Rest Facts Graph × Option (Output Graph))
  | .queueInitial =>
    if daemon.serving then none
    else
      match daemon.trySend with
      | (sent, .ok) => some ({ sent with serving := true }, none)
      -- the daemon gives up
      | (sent, _) => some ({ sent with scanLoop := .stopped }, none)
  | .watcherEvent event =>
    some (if requiresRescan event then daemon.trySend.1 else daemon, none)
  | .rescan header now =>
    if !daemon.serving then none
    else if header ≠ some "rescan" then some (daemon, some (.rescan .badRequest))
    else if daemon.lastRescan.any fun previous => now - previous < rescanCooldown then
      some (daemon, some (.rescan .tooManyRequests))
    else some ({ daemon with lastRescan := some now, sending := daemon.sending + 1 }, none)
  | .rescanSend =>
    if daemon.sending = 0 then none
    else
      match { daemon with sending := daemon.sending - 1 }.trySend with
      | (sent, .closed) => some (sent, some (.rescan .serviceUnavailable))
      | (sent, _) => some (sent, some (.rescan .accepted))
  | .receive =>
    match daemon.scanLoop, daemon.triggered with
    | .waiting, true => some ({ daemon with triggered := false, scanLoop := .debouncing }, none)
    | _, _ => none
  | .debounced =>
    match daemon.scanLoop with
    | .debouncing => some ({ daemon with scanLoop := .draining }, none)
    | _ => none
  | .drain =>
    match daemon.scanLoop, daemon.triggered with
    | .draining, true => some ({ daemon with triggered := false }, none)
    | _, _ => none
  | .startScan =>
    match daemon.scanLoop, daemon.triggered with
    | .draining, false => some ({ daemon with scanLoop := .starting }, none)
    | _, _ => none
  | .markScanning now =>
    match daemon.scanLoop with
    | .starting =>
      some ({ daemon with
        snapshot := daemon.snapshot.started now
        scanLoop := .scanning
        events := daemon.events ++ [⟨.started, daemon.snapshot.revision, now, none⟩] }, none)
    | _ => none
  | .scanned result =>
    match daemon.scanLoop with
    | .scanning => some ({ daemon with scanLoop := .finishing result }, none)
    | _ => none
  | .record now =>
    match daemon.scanLoop with
    | .finishing result =>
      let snapshot := daemon.snapshot.finished now result
      some ({ daemon with
        snapshot
        scanLoop := .waiting
        events := daemon.events ++ [finishedEvent snapshot.revision now result] }, none)
    | _ => none
  | .stop => some ({ daemon with scanLoop := .stopped }, none)
  | .graphRequest id expected =>
    if daemon.serving && (daemon.graphRequests id).isNone then
      some (daemon.setPhase id (some (.received expected)), none)
    else none
  | .readSnapshot id =>
    match daemon.graphRequests id with
    | some (.received expected) =>
      match capture daemon.snapshot expected with
      | .error error => some (daemon.setPhase id none, some (.graph expected (.error error)))
      | .ok capture => some (daemon.setPhase id (some (.queued expected capture)), none)
    | _ => none
  | .lockCache id =>
    match daemon.graphRequests id, daemon.graphCacheHolder with
    | some (.queued expected capture), none =>
      some ({ daemon.setPhase id (some (.locked expected capture)) with
        graphCacheHolder := some id }, none)
    | _, _ => none
  | .checkCache id =>
    match daemon.graphRequests id with
    | some (.locked expected capture) =>
      match daemon.graphCache.filter (·.revision = capture.revision) with
      | some cached =>
        some ((daemon.setPhase id none).release id,
          some (.graph expected (.ok ⟨capture.revision, cached.graph⟩)))
      | none => some (daemon.setPhase id (some (.building expected capture)), none)
    | _ => none
  | .built id failure =>
    match daemon.graphRequests id with
    | some (.building expected capture) =>
      match failure with
      | some error =>
        some ((daemon.setPhase id none).release id, some (.graph expected
            (.error (.internalServerError, s!"graph analysis task failed: {error}"))))
      | none =>
        let graph := capture.graph buildWithInputs
        some ({ (daemon.setPhase id none).release id with
            graphCache := some ⟨capture.revision, graph⟩ },
          some (.graph expected (.ok ⟨capture.revision, graph⟩)))
    | _ => none
  | .cancel id =>
    if (daemon.graphRequests id).isSome then some ((daemon.setPhase id none).release id, none)
    else none

end

/-! ## The filter of the watcher -/

inductive ModifyKind
  | any
  | data
  | metadata
  | name
  | other

inductive EventKind
  | any
  | access
  | create
  | modify (kind : ModifyKind)
  | remove
  | other

/-- An event of the `notify` crate. -/
structure WatcherEvent where
  kind : EventKind
  paths : List PathBuf

def EventKind.changes : EventKind → Bool
  | .any | .create | .remove | .modify .any | .modify .data | .modify .name => true
  | _ => false

def watchBoundary (target : PathBuf) (isFile : Bool) : PathBuf :=
  if isFile then target.parent.getD target else target

def generatedNames : List String :=
  [".git", ".godot", "target", "node_modules", "dist", ".reposcout"]

/-- `isFile` says whether the target is a file when the event comes. -/
def eventRequiresRescan (event : WatcherEvent) (target : PathBuf) (isFile : Bool)
    (exclusions : List PathBuf) : Bool :=
  event.kind.changes && event.paths.any fun path =>
    match path.stripPrefix (watchBoundary target isFile) with
    | none => false
    | some relative =>
      (!isFile || path = target) && path ∉ exclusions &&
        !relative.components.any (· ∈ generatedNames)

end Reposcout.Daemon
