import Reposcout.Framework.KeyedList
import Reposcout.Model.Churn

/-!
# The native stream of commit events

A Git process prints, for each pair of trees it is given, a header line and the changed paths as
pairs of NUL-terminated fields.  The stream is read within limits on its bytes and its deltas, and
whatever is left out because of a limit makes the result partial.

The bytes of the stream, the outcome of the process and the answers of the clock are inputs, and so
is the path that some bytes name.
-/

namespace Reposcout.Git

open List

structure TreeId where
  text : List UInt8
  hexadecimal : ∀ byte ∈ text, (48 ≤ byte ∧ byte ≤ 57) ∨ (97 ≤ byte ∧ byte ≤ 102)

structure NativeCommit where
  oid : String
  author : Option String
  seconds : ℤ
  oldTree : TreeId
  newTree : TreeId

/-- The line that announces a commit. -/
def NativeCommit.header (commit : NativeCommit) : List UInt8 :=
  commit.oldTree.text ++ 32 :: (commit.newTree.text ++ [10])

structure NativeStreamStats where
  isPartial : Bool
  deltasOmitted : ℕ
  outputBytes : ℕ
  deriving DecidableEq

/-- The state of the parser. `rest` is what has not been read and `ticks` counts the questions to
the clock. -/
structure StreamState where
  rest : List UInt8
  stats : NativeStreamStats
  totalDeltas : ℕ
  ticks : ℕ

namespace StreamState

def new (output : List UInt8) : StreamState := ⟨output, ⟨false, 0, 0⟩, 0, 0⟩

def markPartial (state : StreamState) : StreamState :=
  { state with stats := { state.stats with isPartial := true } }

/-- `read` bytes have been read and `rest` is left. -/
def advance (state : StreamState) (rest : List UInt8) (read : ℕ) : StreamState :=
  { state with
    rest := rest
    stats := { state.stats with outputBytes := state.stats.outputBytes + read } }

def omitDelta (state : StreamState) : StreamState :=
  { state with
    stats := { state.stats with
      isPartial := true
      deltasOmitted := state.stats.deltasOmitted + 1 } }

def tick (state : StreamState) : StreamState := { state with ticks := state.ticks + 1 }

end StreamState

/-- What the parser reads from: whether reading on at the end of the bytes fails, and the clock. -/
structure StreamSource where
  failing : Bool
  timedOut : ℕ → Bool

/-- `read_until_budget`: the bytes up to the delimiter, at most a number of them, and the rest. -/
def readUntilBudget (failing : Bool) (delimiter : UInt8) :
    ℕ → List UInt8 → Except String (List UInt8 × List UInt8)
  | 0, bytes => .ok ([], bytes)
  | _ + 1, [] => if failing then .error "read error" else .ok ([], [])
  | budget + 1, byte :: rest =>
    if byte = delimiter then .ok ([byte], rest)
    else
      match readUntilBudget failing delimiter budget rest with
      | .error message => .error message
      | .ok (out, rest) => .ok (byte :: out, rest)

/-- `read_nul_field_budgeted`. -/
def readNulField (source : StreamSource) (limits : ChurnLimits) (state : StreamState) :
    Except String (StreamState × List UInt8) :=
  match readUntilBudget source.failing 0 (limits.maxOutputBytes - state.stats.outputBytes)
      state.rest with
  | .error message => .error message
  | .ok (field, rest) =>
    let next := state.advance rest field.length
    if field.length = 0 ∨ field.getLast? ≠ some 0 then
      if next.stats.outputBytes ≥ limits.maxOutputBytes then .ok (next.markPartial, [])
      else .error "native Git returned a truncated NUL-delimited field"
    else .ok (next, field.dropLast)

def isAsciiUppercase (byte : UInt8) : Bool := 65 ≤ byte && byte ≤ 90

/-- Whether another delta follows: the next byte is an uppercase letter. -/
def deltaFollows (source : StreamSource) (state : StreamState) : Except String Bool :=
  match state.rest with
  | [] => if source.failing then .error "read error" else .ok false
  | byte :: _ => .ok (isAsciiUppercase byte)

def deltaKind (status : List UInt8) : Except String DeltaKind :=
  match status.head? with
  | some 65 => .ok .added
  | some 68 => .ok .deleted
  | some 77 | some 84 | some 85 | some 88 | some 66 => .ok .other
  | _ => .error "native Git returned an unsupported status"

def nativeDelta (kind : DeltaKind) (path : PathBuf) : CachedDelta :=
  match kind with
  | .added => ⟨.added, none, some path⟩
  | .deleted => ⟨.deleted, some path, none⟩
  | kind => ⟨kind, some path, some path⟩

inductive DeltaRead where
  | done
  | skip
  | delta (delta : CachedDelta)

def readDelta (pathFromGit : List UInt8 → PathBuf) (source : StreamSource) (limits : ChurnLimits)
    (state : StreamState) : Except String (StreamState × DeltaRead) :=
  match deltaFollows source state with
  | .error message => .error message
  | .ok false => .ok (state, .done)
  | .ok true =>
    match readNulField source limits state with
    | .error message => .error message
    | .ok (state, status) =>
      if state.stats.isPartial then .ok (state, .done)
      else
        match readNulField source limits state with
        | .error message => .error message
        | .ok (state, pathBytes) =>
          if state.stats.isPartial then .ok (state, .done)
          else if pathBytes.length > limits.maxPathBytes then .ok (state.omitDelta, .skip)
          else
            match deltaKind status with
            | .error message => .error message
            | .ok kind => .ok (state, .delta (nativeDelta kind (pathFromGit pathBytes)))

/-! ## Reading consumes the stream -/

lemma readUntilBudget_length {failing : Bool} {delimiter : UInt8} {budget : ℕ}
    {bytes out rest : List UInt8}
    (h : readUntilBudget failing delimiter budget bytes = .ok (out, rest)) :
    out ++ rest = bytes ∧ out.length ≤ budget ∧ (0 < budget → bytes ≠ [] → out ≠ []) := by
  induction bytes generalizing budget out rest with
  | nil =>
    cases budget with
    | zero =>
      cases h
      simp
    | succ budget =>
      unfold readUntilBudget at h
      split_ifs at h
      cases h
      simp
  | cons byte bytes ih =>
    cases budget with
    | zero =>
      cases h
      simp
    | succ budget =>
      unfold readUntilBudget at h
      split_ifs at h with hdelimiter
      · cases h
        simp
      · cases hrest : readUntilBudget failing delimiter budget bytes with
        | error message =>
          rw [hrest] at h
          cases h
        | ok read =>
          rw [hrest] at h
          cases h
          obtain ⟨happend, hlength, _⟩ := ih hrest
          refine ⟨by rw [cons_append, happend], ?_, fun _ _ => cons_ne_nil _ _⟩
          rw [length_cons]
          omega

variable {source : StreamSource}

/-- A field that is read leaves less, if there is something to read within the budget. -/
lemma readNulField_rest {limits : ChurnLimits} {state next : StreamState} {field : List UInt8}
    (h : readNulField source limits state = .ok (next, field)) :
    next.rest.length ≤ state.rest.length ∧
      (state.stats.outputBytes < limits.maxOutputBytes → state.rest ≠ [] →
        next.rest.length < state.rest.length) := by
  unfold readNulField at h
  split at h
  · cases h
  · rename_i out rest hread
    obtain ⟨happend, _, hnonempty⟩ := readUntilBudget_length hread
    have hrest : next.rest = rest := by
      dsimp only at h
      split_ifs at h
      · cases h
        rfl
      · cases h
        rfl
    have hlength := congrArg List.length happend
    rw [length_append] at hlength
    rw [hrest]
    refine ⟨by omega, fun hbudget hne => ?_⟩
    have hout := length_pos_iff.mpr (hnonempty (by omega) hne)
    omega

lemma deltaFollows_ne_nil {state : StreamState} (h : deltaFollows source state = .ok true) :
    state.rest ≠ [] := by
  intro hnil
  unfold deltaFollows at h
  rw [hnil] at h
  split_ifs at h
  cases h

/-! ## The parser -/

/-- `drain_commit_deltas`: pass over the deltas that remain of a commit. -/
def drainCommitDeltas (source : StreamSource) (limits : ChurnLimits) (state : StreamState) :
    Except String (StreamState × Bool) :=
  if hlimit : state.stats.outputBytes ≥ limits.maxOutputBytes then .ok (state.markPartial, true)
  else
    match hfollows : deltaFollows source state with
    | .error message => .error message
    | .ok false => .ok (state, true)
    | .ok true =>
      match hstatus : readNulField source limits state with
      | .error message => .error message
      | .ok (afterStatus, _) =>
        match hpath : readNulField source limits afterStatus with
        | .error message => .error message
        | .ok (afterPath, _) =>
          have : afterPath.omitDelta.rest.length < state.rest.length := by
            have hstatusRest := (readNulField_rest hstatus).2 (by omega)
              (deltaFollows_ne_nil hfollows)
            have hpathRest := (readNulField_rest hpath).1
            exact lt_of_le_of_lt hpathRest hstatusRest
          if afterPath.omitDelta.stats.outputBytes ≥ limits.maxOutputBytes then
            .ok (afterPath.omitDelta, true)
          else drainCommitDeltas source limits afterPath.omitDelta
termination_by state.rest.length

/-- A delta that is read or passed over leaves less. -/
lemma readDelta_rest {pathFromGit : List UInt8 → PathBuf} {limits : ChurnLimits}
    {state next : StreamState} {read : DeltaRead}
    (hbudget : state.stats.outputBytes < limits.maxOutputBytes)
    (h : readDelta pathFromGit source limits state = .ok (next, read)) :
    read = .done ∨ next.rest.length < state.rest.length := by
  unfold readDelta at h
  split at h
  · cases h
  · cases h
    exact .inl rfl
  · rename_i hfollows
    split at h
    · cases h
    · rename_i afterStatus status hstatus
      have hstatusRest := (readNulField_rest hstatus).2 hbudget (deltaFollows_ne_nil hfollows)
      split_ifs at h
      · cases h
        exact .inl rfl
      · split at h
        · cases h
        · rename_i afterPath path hpath
          have hpathRest := (readNulField_rest hpath).1
          split_ifs at h
          · cases h
            exact .inl rfl
          · cases h
            exact .inr (lt_of_le_of_lt hpathRest hstatusRest)
          · split at h
            · cases h
            · cases h
              exact .inr (lt_of_le_of_lt hpathRest hstatusRest)

/-- `read_deltas`, with the deltas read so far. -/
def readDeltas (pathFromGit : List UInt8 → PathBuf) (source : StreamSource)
    (limits : ChurnLimits) (state : StreamState) (deltas : List CachedDelta) :
    Except String (StreamState × List CachedDelta) :=
  if source.timedOut state.ticks then .ok (state.tick.markPartial, deltas)
  else if hlimit : state.tick.stats.outputBytes ≥ limits.maxOutputBytes then
    .ok (state.tick.markPartial, deltas)
  else if state.totalDeltas + deltas.length ≥ limits.maxTotalDeltas ∨
      deltas.length ≥ limits.maxDeltasPerCommit then
    -- What remains of the commit is not retained.
    match drainCommitDeltas source limits state.tick with
    | .error message => .error message
    | .ok (state, true) => .ok (state, deltas)
    | .ok (state, false) => .ok (state.markPartial, deltas)
  else
    match hread : readDelta pathFromGit source limits state.tick with
    | .error message => .error message
    | .ok (state, .done) => .ok (state, deltas)
    | .ok (next, .skip) =>
      have : next.rest.length < state.rest.length := by
        simpa [StreamState.tick] using readDelta_rest (not_le.mp hlimit) hread
      readDeltas pathFromGit source limits next deltas
    | .ok (next, .delta delta) =>
      have : next.rest.length < state.rest.length := by
        simpa [StreamState.tick] using readDelta_rest (not_le.mp hlimit) hread
      readDeltas pathFromGit source limits next (deltas ++ [delta])
termination_by state.rest.length

def readEvent (pathFromGit : List UInt8 → PathBuf) (source : StreamSource) (limits : ChurnLimits)
    (commit : NativeCommit) (state : StreamState) :
    Except String (StreamState × Option CommitEvent) :=
  match readUntilBudget source.failing 10 (limits.maxOutputBytes - state.stats.outputBytes)
      state.rest with
  | .error message => .error message
  | .ok (header, rest) =>
    let next := state.advance rest header.length
    if header ≠ commit.header then
      if next.stats.outputBytes ≥ limits.maxOutputBytes then .ok (next.markPartial, none)
      else .error "native Git returned an unexpected diff header"
    else
      match readDeltas pathFromGit source limits next [] with
      | .error message => .error message
      | .ok (state, deltas) =>
        .ok ({ state with totalDeltas := state.totalDeltas + deltas.length }, some
            { oid := commit.oid
              author := commit.author
              seconds := commit.seconds
              deltas := deltas
              renamesResolved := false })

/-- `stop_before_commit`: a limit is reached before the next commit. -/
def stopBeforeCommit (source : StreamSource) (limits : ChurnLimits) (state : StreamState) :
    StreamState × Bool :=
  if source.timedOut state.ticks ∨ state.totalDeltas ≥ limits.maxTotalDeltas ∨
      state.stats.outputBytes ≥ limits.maxOutputBytes then (state.tick.markPartial, true)
  else (state.tick, false)

/-- The loop of `parse` over the commits. -/
def parseCommits (pathFromGit : List UInt8 → PathBuf) (source : StreamSource)
    (limits : ChurnLimits) :
    List NativeCommit → StreamState → Except String (StreamState × List CommitEvent)
  | [], state => .ok (state, [])
  | commit :: commits, state =>
    match stopBeforeCommit source limits state with
    | (state, true) => .ok (state, [])
    | (state, false) =>
      match readEvent pathFromGit source limits commit state with
      | .error message => .error message
      | .ok (state, none) => .ok (state, [])
      | .ok (state, some event) =>
        if state.stats.isPartial then .ok (state, [event])
        else
          match parseCommits pathFromGit source limits commits state with
          | .error message => .error message
          | .ok (state, events) => .ok (state, event :: events)

def parseStream (pathFromGit : List UInt8 → PathBuf) (source : StreamSource)
    (limits : ChurnLimits) (output : List UInt8) (commits : List NativeCommit) :
    Except String (List CommitEvent × NativeStreamStats) :=
  match parseCommits pathFromGit source limits commits (StreamState.new output) with
  | .error message => .error message
  | .ok (state, events) =>
    if state.stats.isPartial then .ok (events, state.stats)
    else
      match state.rest with
      | [] => if source.failing then .error "read error" else .ok (events, state.stats)
      | _ :: _ => .error "native Git returned trailing diff data"

/-! ## The process -/

/-- What a Git process does: the bytes it prints, whether the watchdog stopped it, and the outcomes
of waiting for it and for the thread that writes its input (absent if that failed). -/
structure GitProcess where
  output : List UInt8
  source : StreamSource
  timedOut : Bool
  exitSuccess : Option Bool
  inputWritten : Option Bool

/-- The end of `collect_events`: wait for the process, whose success only matters if nothing was
left out. -/
def GitProcess.finish (process : GitProcess) (events : List CommitEvent)
    (stats : NativeStreamStats) : Except String (List (String × CommitEvent) × NativeStreamStats) :=
  let stats := { stats with isPartial := stats.isPartial || process.timedOut }
  match process.exitSuccess with
  | none => .error "failed to wait for native Git"
  | some success =>
    match process.inputWritten with
    | none => .error "native Git input writer panicked"
    | some written =>
      if ¬ stats.isPartial ∧ ¬ success then .error "native Git exited with a failure"
      else if ¬ stats.isPartial ∧ ¬ written then .error "failed to stream revisions to native Git"
      else .ok (KeyedList.indexBy CommitEvent.oid events, stats)

/-- `collect_events` for prepared commits. The process is absent if it could not be started. -/
def collectEvents (pathFromGit : List UInt8 → PathBuf)
    (start : List NativeCommit → Option GitProcess) (limits : ChurnLimits)
    (commits : List NativeCommit) :
    Except String (List (String × CommitEvent) × NativeStreamStats) :=
  if commits.isEmpty then .ok ([], ⟨false, 0, 0⟩)
  else
    match start commits with
    | none => .error "failed to start git"
    | some process =>
      match parseStream pathFromGit process.source limits process.output commits with
      | .ok (events, stats) => process.finish events stats
      | .error message =>
        -- Stopping the process at the deadline can leave a truncated stream.
        if process.timedOut then process.finish [] ⟨false, 0, 0⟩ else .error message

end Reposcout.Git
