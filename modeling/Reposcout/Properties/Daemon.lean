import Reposcout.Daemon
import Reposcout.Properties.Walk.Discovery

/-!
# No trigger is lost, and graphs belong to their revision

A run is any interleaving of the steps of the daemon's tasks.  A trigger that is accepted is
followed by the start of a scan, because the channel is emptied only on the way to one.  A graph is
built from what one lock took out of one published snapshot, and the cache gives it to requests of
that revision only.
-/

namespace Reposcout.Daemon

open Runs List Option DaemonState Daemon

variable {File Rest Facts Graph Event : Type}
  {buildWithInputs : List File → String → GraphReadLimits → GraphInputs Facts → Graph}
  {requiresRescan : Event → Bool}

/-- An action of a run of the daemon. -/
abbrev DaemonEntry (File Rest Facts Graph Event : Type) :=
  Entry (DaemonState File Rest Facts Graph) (Action File Rest Facts Event) (Option (Output Graph))

/-! ## What steps leave alone -/

def Action.ofGraph : Action File Rest Facts Event → Bool
  | .graphRequest _ _ | .readSnapshot _ | .lockCache _ | .checkCache _ | .built _ _
  | .cancel _ => true
  | _ => false

/-- What the graph requests do not touch. -/
structure SameScan (daemon next : DaemonState File Rest Facts Graph) : Prop where
  snapshot : next.snapshot = daemon.snapshot
  triggered : next.triggered = daemon.triggered
  scanLoop : next.scanLoop = daemon.scanLoop

structure SameGraphs (daemon next : DaemonState File Rest Facts Graph) : Prop where
  requests : next.graphRequests = daemon.graphRequests
  cache : next.graphCache = daemon.graphCache

variable {action : Action File Rest Facts Event} {output : Option (Output Graph)}

lemma step_ofGraph {daemon next : DaemonState File Rest Facts Graph}
    (hgraph : action.ofGraph = true)
    (h : step buildWithInputs requiresRescan daemon action = some (next, output)) :
    SameScan daemon next ∧ ∀ status, output ≠ some (.rescan status) := by
  cases action with
  | graphRequest id expected | cancel id =>
    simp only [step] at h
    split_ifs at h
    cases h
    exact ⟨⟨rfl, rfl, rfl⟩, by simp⟩
  | lockCache id =>
    simp only [step] at h
    split at h
    · cases h
      exact ⟨⟨rfl, rfl, rfl⟩, by simp⟩
    · cases h
  | readSnapshot id | checkCache id | built id failure =>
    simp only [step] at h
    split at h
    · split at h <;>
      · cases h
        exact ⟨⟨rfl, rfl, rfl⟩, by simp⟩
    · cases h
  | _ => cases hgraph

lemma sameGraphs_trySend (daemon : DaemonState File Rest Facts Graph) :
    SameGraphs daemon daemon.trySend.1 := by
  unfold trySend
  split_ifs <;> exact ⟨rfl, rfl⟩

/-- Every other step leaves the graph requests and their cache alone. -/
lemma step_not_ofGraph {daemon next : DaemonState File Rest Facts Graph}
    (hgraph : action.ofGraph = false)
    (h : step buildWithInputs requiresRescan daemon action = some (next, output)) :
    SameGraphs daemon next ∧ ∀ expected response, output ≠ some (.graph expected response) := by
  have hsend := sameGraphs_trySend daemon
  cases action with
  | queueInitial =>
    simp only [step] at h
    split_ifs at h
    split at h <;>
    · rename_i heq
      cases h
      rw [heq] at hsend
      exact ⟨⟨hsend.requests, hsend.cache⟩, by simp⟩
  | watcherEvent event =>
    cases h
    refine ⟨?_, by simp⟩
    split_ifs
    · exact hsend
    · exact ⟨rfl, rfl⟩
  | rescan header now =>
    simp only [step] at h
    split_ifs at h <;>
    · cases h
      exact ⟨⟨rfl, rfl⟩, by simp⟩
  | rescanSend =>
    have hsend' := sameGraphs_trySend { daemon with sending := daemon.sending - 1 }
    simp only [step] at h
    split_ifs at h
    split at h <;>
    · rename_i heq
      cases h
      rw [heq] at hsend'
      exact ⟨⟨hsend'.requests, hsend'.cache⟩, by simp⟩
  | stop =>
    cases h
    exact ⟨⟨rfl, rfl⟩, by simp⟩
  | receive | debounced | drain | startScan | markScanning now | scanned result | record now =>
    simp only [step] at h
    split at h
    · cases h
      exact ⟨⟨rfl, rfl⟩, by simp⟩
    · cases h
  | _ => cases hgraph.symm

/-! ## Triggers -/

def AcceptsTrigger (requiresRescan : Event → Bool)
    (entry : DaemonEntry File Rest Facts Graph Event) : Prop :=
  (∃ event, entry.action = .watcherEvent event ∧ requiresRescan event = true) ∨
    entry.output = some (.rescan .accepted)

/-- `scan_once` is called. -/
def StartsScan (entry : DaemonEntry File Rest Facts Graph Event) : Prop :=
  entry.action = .startScan

def ScanAhead (daemon : DaemonState File Rest Facts Graph) : Prop :=
  daemon.triggered = true ∨
    match daemon.scanLoop with
    | .debouncing | .draining | .stopped => True
    | _ => False

/-- A message that is sent, or finds the channel full, leads to a scan. -/
lemma scanAhead_trySend (daemon : DaemonState File Rest Facts Graph) :
    ScanAhead daemon.trySend.1 := by
  unfold trySend isStopped
  split_ifs with hstopped htriggered
  · refine .inr ?_
    cases hloop : daemon.scanLoop <;> simp_all
  · exact .inl htriggered
  · exact .inl rfl

/-- The channel is emptied only on the way to a scan. -/
lemma scanAhead_step {daemon next : DaemonState File Rest Facts Graph}
    (h : step buildWithInputs requiresRescan daemon action = some (next, output)) :
    (AcceptsTrigger requiresRescan ⟨action, output, next⟩ → ScanAhead next) ∧
      (ScanAhead daemon → action ≠ .startScan → ScanAhead next) := by
  by_cases hgraph : action.ofGraph = true
  · obtain ⟨hsame, houtput⟩ := step_ofGraph hgraph h
    have hahead : ScanAhead next = ScanAhead daemon := by
      rw [ScanAhead, ScanAhead, hsame.triggered, hsame.scanLoop]
    refine ⟨?_, fun hdaemon _ => hahead ▸ hdaemon⟩
    rintro (⟨event, rfl, -⟩ | hrescan)
    · cases hgraph
    · exact absurd hrescan (houtput _)
  · cases action with
    | queueInitial =>
      have hsend := scanAhead_trySend daemon
      simp only [step] at h
      split_ifs at h
      split at h
      · rename_i heq
        cases h
        rw [heq] at hsend
        exact ⟨fun _ => hsend, fun _ _ => hsend⟩
      · cases h
        exact ⟨fun _ => .inr trivial, fun _ _ => .inr trivial⟩
    | watcherEvent event =>
      cases h
      by_cases hrequires : requiresRescan event = true
      · rw [if_pos hrequires]
        exact ⟨fun _ => scanAhead_trySend daemon, fun _ _ => scanAhead_trySend daemon⟩
      · rw [if_neg hrequires]
        refine ⟨?_, fun hdaemon _ => hdaemon⟩
        rintro (⟨other, haction, hother⟩ | hrescan)
        · exact absurd (Action.watcherEvent.inj haction ▸ hother) hrequires
        · cases hrescan
    | rescan header now =>
      simp only [step] at h
      split_ifs at h <;>
      · cases h
        exact ⟨by simp [AcceptsTrigger], fun hdaemon _ => hdaemon⟩
    | rescanSend =>
      have hsend := scanAhead_trySend { daemon with sending := daemon.sending - 1 }
      simp only [step] at h
      split_ifs at h
      split at h <;>
      · rename_i heq
        cases h
        rw [heq] at hsend
        exact ⟨fun _ => hsend, fun _ _ => hsend⟩
    | receive | debounced | drain =>
      simp only [step] at h
      split at h
      · cases h
        simp_all [ScanAhead]
      · cases h
    | startScan =>
      simp only [step] at h
      split at h
      · cases h
        exact ⟨by simp [AcceptsTrigger], fun _ hne => absurd rfl hne⟩
      · cases h
    | stop =>
      cases h
      exact ⟨fun _ => .inr trivial, fun _ _ => .inr trivial⟩
    | markScanning now | scanned result | record now =>
      simp only [step] at h
      split at h
      · rename_i hloop
        cases h
        refine ⟨by simp [AcceptsTrigger], fun hdaemon _ => .inl ?_⟩
        simpa [ScanAhead, hloop] using hdaemon
      · cases h
    | _ => exact absurd rfl hgraph

lemma scanAhead_of_owed {limits : GraphReadLimits}
    {history : List (DaemonEntry File Rest Facts Graph Event)}
    {daemon : DaemonState File Rest Facts Graph}
    (h : Run (step buildWithInputs requiresRescan) (start limits) history daemon) :
    Owed (AcceptsTrigger requiresRescan) StartsScan history → ScanAhead daemon := by
  refine h.invariant (I := fun history daemon =>
    Owed (AcceptsTrigger requiresRescan) StartsScan history → ScanAhead daemon) ?_ ?_
  · exact fun howed => absurd howed not_owed_nil
  · intro history daemon action next output ih hstep howed
    obtain ⟨haccepts, hkeeps⟩ := scanAhead_step hstep
    rcases owed_append.mp howed with hasks | ⟨hbefore, hstarts⟩
    · exact haccepts hasks
    · exact hkeeps (ih hbefore) hstarts

/-! ### A run -/

namespace FirstGraph

def report : ScanReport Unit Unit := ⟨"/work", [()], ()⟩

def limits : GraphReadLimits := ⟨10, 100, 10, false⟩

/-- The initial scan, a change while it runs, and a graph of its revision. -/
def actions : List (Action Unit Unit Unit Bool) :=
  [.queueInitial, .receive, .debounced, .startScan, .markScanning "1", .watcherEvent true,
    .scanned (.ok ⟨report, [], [], limits⟩), .record "2", .graphRequest 0 (some 1),
    .readSnapshot 0, .lockCache 0, .checkCache 0, .built 0 none,
    .receive, .debounced, .startScan, .markScanning "3", .scanned (.error "unreadable"),
    .record "4"]

def countFiles (files : List Unit) (_ : String) (_ : GraphReadLimits)
    (_ : GraphInputs Unit) : ℕ :=
  files.length

def history : List (DaemonEntry Unit Unit Unit ℕ Bool) :=
  ((play (step countFiles id) (DaemonState.start limits) actions).map Prod.fst).getD []

def daemon : DaemonState Unit Unit Unit ℕ :=
  ((play (step countFiles id) (DaemonState.start limits) actions).map Prod.snd).getD
    (DaemonState.start limits)

lemma run : Run (step countFiles id) (start limits) history daemon :=
  run_of_play actions rfl

end FirstGraph

/-- **No accepted trigger is lost.**  An accepted trigger that no scan started after is in the
channel, or the task is on its way to a scan; where the task waits with an empty channel, a scan
started after every accepted trigger. -/
theorem no_trigger_lost {limits : GraphReadLimits}
    {history : List (DaemonEntry File Rest Facts Graph Event)}
    {daemon : DaemonState File Rest Facts Graph}
    (h : Run (step buildWithInputs requiresRescan) (DaemonState.start limits) history daemon) :
    (Owed (AcceptsTrigger requiresRescan) StartsScan history →
      daemon.triggered = true ∨ daemon.scanLoop = .debouncing ∨ daemon.scanLoop = .draining ∨
        daemon.scanLoop = .stopped) ∧
    (daemon.scanLoop = .waiting → daemon.triggered = false →
      ∀ earlier entry later, history = earlier ++ entry :: later →
        AcceptsTrigger requiresRescan entry → ∃ other ∈ later, StartsScan other) := by
  have hahead := scanAhead_of_owed h
  refine ⟨fun howed => ?_, fun hwaiting hempty => not_owed_iff.mp fun howed => ?_⟩
  · rcases hahead howed with htriggered | hloop
    · exact .inl htriggered
    · refine .inr ?_
      cases heq : daemon.scanLoop <;> simp_all
  · rcases hahead howed with htriggered | hloop
    · exact absurd htriggered (by simp [hempty])
    · simp [hwaiting] at hloop

/-- The change while the first scan runs is followed by the second one. -/
theorem no_trigger_lost_during_scan : FirstGraph.history.length = 19 ∧
      ∃ other ∈ FirstGraph.history.drop 6, StartsScan other :=
  ⟨rfl, (no_trigger_lost FirstGraph.run).2 rfl rfl (FirstGraph.history.take 5) _
    (FirstGraph.history.drop 6) rfl (.inl ⟨true, rfl, rfl⟩)⟩

/-! ## Revisions -/

/-- What a revision is bound to. -/
structure SamePublished (left right : DaemonSnapshot File Rest Facts) : Prop where
  report : left.report = right.report
  graphFacts : left.graphFacts = right.graphFacts
  resolverConfigs : left.resolverConfigs = right.resolverConfigs
  graphLimits : left.graphLimits = right.graphLimits

namespace SamePublished

lemma refl (snapshot : DaemonSnapshot File Rest Facts) : SamePublished snapshot snapshot :=
  ⟨rfl, rfl, rfl, rfl⟩

lemma symm {left right : DaemonSnapshot File Rest Facts} (h : SamePublished left right) :
    SamePublished right left :=
  ⟨h.report.symm, h.graphFacts.symm, h.resolverConfigs.symm, h.graphLimits.symm⟩

lemma trans {left middle right : DaemonSnapshot File Rest Facts}
    (h : SamePublished left middle) (h' : SamePublished middle right) :
    SamePublished left right :=
  ⟨h.report.trans h'.report, h.graphFacts.trans h'.graphFacts,
    h.resolverConfigs.trans h'.resolverConfigs, h.graphLimits.trans h'.graphLimits⟩

end SamePublished

/-- A scan completes. -/
def Publishes (daemon : DaemonState File Rest Facts Graph)
    (action : Action File Rest Facts Event) (next : DaemonState File Rest Facts Graph) : Prop :=
  ∃ now artifacts, action = .record now ∧ daemon.scanLoop = .finishing (.ok artifacts) ∧
    next.snapshot = daemon.snapshot.finished now (.ok artifacts)

lemma step_snapshot {daemon next : DaemonState File Rest Facts Graph}
    {action : Action File Rest Facts Event} {output : Option (Output Graph)}
    (h : step buildWithInputs requiresRescan daemon action = some (next, output)) :
    Publishes daemon action next ∨ (next.snapshot.revision = daemon.snapshot.revision ∧
        SamePublished next.snapshot daemon.snapshot) := by
  by_cases hgraph : action.ofGraph = true
  · rw [(step_ofGraph hgraph h).1.snapshot]
    exact .inr ⟨rfl, .refl _⟩
  · have hsend (sender : DaemonState File Rest Facts Graph) :
        sender.trySend.1.snapshot = sender.snapshot := by
      unfold trySend
      split_ifs <;> rfl
    cases action with
    | queueInitial =>
      have hsend := hsend daemon
      simp only [step] at h
      split_ifs at h
      split at h <;>
      · rename_i heq
        cases h
        rw [heq] at hsend
        exact .inr ⟨congrArg DaemonSnapshot.revision hsend, hsend ▸ .refl _⟩
    | watcherEvent event =>
      cases h
      split_ifs
      · rw [hsend]
        exact .inr ⟨rfl, .refl _⟩
      · exact .inr ⟨rfl, .refl _⟩
    | rescan header now =>
      simp only [step] at h
      split_ifs at h <;>
      · cases h
        exact .inr ⟨rfl, .refl _⟩
    | rescanSend =>
      have hsend := hsend { daemon with sending := daemon.sending - 1 }
      simp only [step] at h
      split_ifs at h
      split at h <;>
      · rename_i heq
        cases h
        rw [heq] at hsend
        exact .inr ⟨congrArg DaemonSnapshot.revision hsend, hsend ▸ .refl _⟩
    | receive | debounced | drain | startScan | scanned result =>
      simp only [step] at h
      split at h
      · cases h
        exact .inr ⟨rfl, .refl _⟩
      · cases h
    | markScanning now =>
      simp only [step] at h
      split at h
      · cases h
        exact .inr ⟨rfl, rfl, rfl, rfl, rfl⟩
      · cases h
    | record now =>
      simp only [step] at h
      split at h
      · rename_i result hloop
        cases h
        cases result with
        | ok artifacts => exact .inl ⟨now, artifacts, rfl, hloop, rfl⟩
        | error error => exact .inr ⟨rfl, rfl, rfl, rfl, rfl⟩
      · cases h
    | stop =>
      cases h
      exact .inr ⟨rfl, .refl _⟩
    | _ => exact absurd rfl hgraph

lemma Publishes.revision {daemon next : DaemonState File Rest Facts Graph}
    {action : Action File Rest Facts Event} (h : Publishes daemon action next) :
    next.snapshot.revision = daemon.snapshot.revision + 1 := by
  obtain ⟨now, artifacts, -, -, hsnapshot⟩ := h
  rw [hsnapshot]
  rfl

structure BoundRevisions (past : List (DaemonState File Rest Facts Graph))
    (daemon : DaemonState File Rest Facts Graph) : Prop where
  mem : daemon ∈ past
  sorted : past.Pairwise fun earlier later => earlier.snapshot.revision ≤ later.snapshot.revision
  last : ∀ state ∈ past, state.snapshot.revision ≤ daemon.snapshot.revision
  bound : ∀ state ∈ past, ∀ other ∈ past, state.snapshot.revision = other.snapshot.revision →
    SamePublished state.snapshot other.snapshot

lemma BoundRevisions.step {past : List (DaemonState File Rest Facts Graph)}
    {daemon next : DaemonState File Rest Facts Graph} (h : BoundRevisions past daemon)
    (hstep : Publishes daemon action next ∨ (next.snapshot.revision = daemon.snapshot.revision ∧
        SamePublished next.snapshot daemon.snapshot)) :
    BoundRevisions (past ++ [next]) next := by
  have hle : daemon.snapshot.revision ≤ next.snapshot.revision := by
    rcases hstep with hpublishes | ⟨hsame, -⟩
    · exact hpublishes.revision ▸ Nat.le_succ _
    · exact Nat.le_of_eq hsame.symm
  -- the new state agrees with an earlier one of its revision
  have hnew : ∀ state ∈ past, state.snapshot.revision = next.snapshot.revision →
      SamePublished state.snapshot next.snapshot := by
    intro state hstate hrevision
    rcases hstep with hpublishes | ⟨hsame, hpublished⟩
    · have := h.last state hstate
      rw [hrevision, hpublishes.revision] at this
      omega
    · exact (h.bound state hstate daemon h.mem (hrevision.trans hsame)).trans hpublished.symm
  refine ⟨by simp, ?_, ?_, ?_⟩
  · refine pairwise_append.mpr ⟨h.sorted, pairwise_singleton _ _, ?_⟩
    intro state hstate other hother
    obtain rfl := mem_singleton.mp hother
    exact Nat.le_trans (h.last state hstate) hle
  · intro state hstate
    rcases mem_append.mp hstate with hpast | hlast
    · exact Nat.le_trans (h.last state hpast) hle
    · exact mem_singleton.mp hlast ▸ Nat.le_refl _
  · intro state hstate other hother hrevision
    rcases mem_append.mp hstate with hpast | hlast <;>
      rcases mem_append.mp hother with hpast' | hlast'
    · exact h.bound state hpast other hpast' hrevision
    · rw [mem_singleton.mp hlast'] at hrevision ⊢
      exact hnew state hpast hrevision
    · rw [mem_singleton.mp hlast] at hrevision ⊢
      exact (hnew other hpast' hrevision.symm).symm
    · rw [mem_singleton.mp hlast, mem_singleton.mp hlast']
      exact .refl _

/-! ## Graphs -/

/-- The capture is what a lock takes out of one of the states. -/
def TakenFrom (past : List (DaemonState File Rest Facts Graph)) (capture : Capture File Facts) :
    Prop :=
  ∃ state ∈ past, ∃ report, state.snapshot.report = some report ∧ capture =
      { revision := state.snapshot.revision
        root := report.root
        files := report.files
        inputs := ⟨state.snapshot.graphFacts, state.snapshot.resolverConfigs⟩
        limits := state.snapshot.graphLimits }

def Expects (expected : Option ℕ) (revision : ℕ) : Prop :=
  ∀ wanted, expected = some wanted → wanted = revision

/-- What a phase of a request holds. -/
def GraphPhase.Sound (past : List (DaemonState File Rest Facts Graph)) :
    GraphPhase File Facts → Prop
  | .received _ => True
  | .queued expected capture | .locked expected capture | .building expected capture =>
    TakenFrom past capture ∧ Expects expected capture.revision

def GraphOf (buildWithInputs : List File → String → GraphReadLimits → GraphInputs Facts → Graph)
    (past : List (DaemonState File Rest Facts Graph)) (revision : ℕ) (graph : Graph) : Prop :=
  ∃ capture, TakenFrom past capture ∧ capture.revision = revision ∧
    graph = capture.graph buildWithInputs

structure SoundGraphs
    (buildWithInputs : List File → String → GraphReadLimits → GraphInputs Facts → Graph)
    (past : List (DaemonState File Rest Facts Graph)) (daemon : DaemonState File Rest Facts Graph) :
    Prop where
  requests : ∀ id phase, daemon.graphRequests id = some phase → phase.Sound past
  cache : ∀ cached, daemon.graphCache = some cached →
    GraphOf buildWithInputs past cached.revision cached.graph

lemma capture_eq_ok {snapshot : DaemonSnapshot File Rest Facts} {expected : Option ℕ}
    {taken : Capture File Facts} (h : capture snapshot expected = .ok taken) :
    Expects expected snapshot.revision ∧ ∃ report, snapshot.report = some report ∧ taken =
        { revision := snapshot.revision
          root := report.root
          files := report.files
          inputs := ⟨snapshot.graphFacts, snapshot.resolverConfigs⟩
          limits := snapshot.graphLimits } := by
  unfold capture at h
  split at h
  · cases h
  · rename_i hexpected
    refine ⟨?_, ?_⟩
    · rintro wanted rfl
      by_contra hne
      simp [Option.filter, hne] at hexpected
    · split at h
      · cases h
      · rename_i report hreport
        exact ⟨report, hreport, (Except.ok.inj h).symm⟩

variable {past : List (DaemonState File Rest Facts Graph)}

lemma TakenFrom.append {capture : Capture File Facts} (h : TakenFrom past capture)
    (more : List (DaemonState File Rest Facts Graph)) : TakenFrom (past ++ more) capture := by
  obtain ⟨state, hstate, rest⟩ := h
  exact ⟨state, mem_append_left _ hstate, rest⟩

lemma SoundGraphs.append {daemon : DaemonState File Rest Facts Graph}
    (h : SoundGraphs buildWithInputs past daemon)
    (more : List (DaemonState File Rest Facts Graph)) :
    SoundGraphs buildWithInputs (past ++ more) daemon where
  requests id phase hphase := by
    have hsound := h.requests id phase hphase
    cases phase with
    | received expected => trivial
    | queued expected capture | locked expected capture | building expected capture =>
      exact ⟨hsound.1.append more, hsound.2⟩
  cache cached hcached := by
    obtain ⟨capture, htaken, rest⟩ := h.cache cached hcached
    exact ⟨capture, htaken.append more, rest⟩

lemma DaemonState.setPhase_self (daemon : DaemonState File Rest Facts Graph) (id : ℕ)
    (phase : Option (GraphPhase File Facts)) :
    (daemon.setPhase id phase).graphRequests id = phase := by
  simp [setPhase]

lemma DaemonState.setPhase_of_ne (daemon : DaemonState File Rest Facts Graph) {id other : ℕ}
    (h : other ≠ id) (phase : Option (GraphPhase File Facts)) :
    (daemon.setPhase id phase).graphRequests other = daemon.graphRequests other := by
  simp [setPhase, h]

lemma SoundGraphs.setPhase {daemon : DaemonState File Rest Facts Graph}
    (h : SoundGraphs buildWithInputs past daemon) (id : ℕ)
    (phase : Option (GraphPhase File Facts))
    (hphase : ∀ found, phase = some found → found.Sound past) :
    SoundGraphs buildWithInputs past (daemon.setPhase id phase) where
  requests other found hfound := by
    by_cases hother : other = id
    · subst hother
      rw [setPhase_self] at hfound
      exact hphase found hfound
    · rw [setPhase_of_ne daemon hother] at hfound
      exact h.requests other found hfound
  cache := h.cache

/-- What a graph request is answered. -/
def SoundOutput (buildWithInputs : List File → String → GraphReadLimits → GraphInputs Facts → Graph)
    (past : List (DaemonState File Rest Facts Graph)) (output : Option (Output Graph)) : Prop :=
  ∀ expected response, output = some (.graph expected (.ok response)) →
    Expects expected response.revision ∧
      GraphOf buildWithInputs past response.revision response.graph

lemma soundOutput_none {past : List (DaemonState File Rest Facts Graph)} :
    SoundOutput buildWithInputs past none := by
  simp [SoundOutput]

lemma SoundGraphs.step {past : List (DaemonState File Rest Facts Graph)}
    {daemon next : DaemonState File Rest Facts Graph} {action : Action File Rest Facts Event}
    {output : Option (Output Graph)} (hbound : BoundRevisions past daemon)
    (hsound : SoundGraphs buildWithInputs past daemon)
    (h : step buildWithInputs requiresRescan daemon action = some (next, output)) :
    SoundGraphs buildWithInputs past next ∧ SoundOutput buildWithInputs past output := by
  by_cases hgraph : action.ofGraph = true
  · cases action with
    | graphRequest id expected =>
      simp only [Daemon.step] at h
      split_ifs at h
      cases h
      refine ⟨hsound.setPhase id _ fun found hfound => ?_, soundOutput_none⟩
      exact some.inj hfound ▸ trivial
    | readSnapshot id =>
      simp only [Daemon.step] at h
      split at h
      · rename_i expected hphase
        split at h
        · cases h
          exact ⟨hsound.setPhase id _ fun _ hnone => absurd hnone (by simp),
            by simp [SoundOutput]⟩
        · rename_i taken htaken
          cases h
          refine ⟨hsound.setPhase id _ fun found hfound => ?_, soundOutput_none⟩
          obtain ⟨hexpects, report, hreport, rfl⟩ := capture_eq_ok htaken
          cases hfound
          exact ⟨⟨daemon, hbound.mem, report, hreport, rfl⟩, hexpects⟩
      · cases h
    | lockCache id =>
      simp only [Daemon.step] at h
      split at h
      · rename_i expected taken hphase _
        cases h
        have hqueued := hsound.requests id _ hphase
        have hnext := hsound.setPhase id (some (.locked expected taken))
          fun found hfound => some.inj hfound ▸ hqueued
        exact ⟨⟨hnext.requests, hnext.cache⟩, soundOutput_none⟩
      · cases h
    | checkCache id =>
      simp only [Daemon.step] at h
      split at h
      · rename_i expected taken hphase
        obtain ⟨htaken, hexpects⟩ := hsound.requests id _ hphase
        split at h
        · rename_i cached hcached
          obtain ⟨hcache, hrevision⟩ := filter_eq_some_iff.mp hcached
          have hrevision : cached.revision = taken.revision := of_decide_eq_true hrevision
          cases h
          have hnext := hsound.setPhase id none (by simp)
          refine ⟨⟨hnext.requests, hnext.cache⟩, fun expected' response hresponse => ?_⟩
          obtain ⟨rfl, rfl⟩ : expected = expected' ∧
              (⟨taken.revision, cached.graph⟩ : DaemonGraphResponse Graph) = response := by
            simpa using hresponse
          exact ⟨hexpects, hrevision ▸ hsound.cache cached hcache⟩
        · cases h
          refine ⟨hsound.setPhase id _ fun found hfound => ?_, soundOutput_none⟩
          exact some.inj hfound ▸ ⟨htaken, hexpects⟩
      · cases h
    | built id failure =>
      simp only [Daemon.step] at h
      split at h
      · rename_i expected taken hphase
        obtain ⟨htaken, hexpects⟩ := hsound.requests id _ hphase
        have hnext := hsound.setPhase id none (by simp)
        split at h
        · cases h
          exact ⟨⟨hnext.requests, hnext.cache⟩, by simp [SoundOutput]⟩
        · cases h
          have hgraph : GraphOf buildWithInputs past taken.revision
              (taken.graph buildWithInputs) := ⟨taken, htaken, rfl, rfl⟩
          refine ⟨⟨hnext.requests, fun cached hcached => ?_⟩,
            fun expected' response hresponse => ?_⟩
          · exact some.inj hcached ▸ hgraph
          · obtain ⟨rfl, rfl⟩ : expected = expected' ∧
                (⟨taken.revision, taken.graph buildWithInputs⟩ : DaemonGraphResponse Graph) =
                  response := by
              simpa using hresponse
            exact ⟨hexpects, hgraph⟩
      · cases h
    | cancel id =>
      simp only [Daemon.step] at h
      split_ifs at h
      cases h
      have hnext := hsound.setPhase id none (by simp)
      exact ⟨⟨hnext.requests, hnext.cache⟩, soundOutput_none⟩
    | _ => cases hgraph
  · obtain ⟨hsame, houtput⟩ := step_not_ofGraph (Bool.eq_false_iff.mpr hgraph) h
    refine ⟨⟨fun id phase hphase => ?_, fun cached hcached => ?_⟩, fun expected response hgraph' =>
      absurd hgraph' (houtput _ _)⟩
    · exact hsound.requests id phase (hsame.requests ▸ hphase)
    · exact hsound.cache cached (hsame.cache ▸ hcached)

lemma Expects.eq_none_or {expected : Option ℕ} {revision : ℕ} (h : Expects expected revision) :
    expected = none ∨ expected = some revision := by
  cases expected with
  | none => exact .inl rfl
  | some wanted => exact .inr (congrArg some (h wanted rfl))

lemma sound_of_run {limits : GraphReadLimits}
    {history : List (DaemonEntry File Rest Facts Graph Event)}
    {daemon : DaemonState File Rest Facts Graph}
    (h : Run (step buildWithInputs requiresRescan) (start limits) history daemon) :
    BoundRevisions (states (start limits) history) daemon ∧
      SoundGraphs buildWithInputs (states (start limits) history) daemon ∧
      ∀ earlier entry later, history = earlier ++ entry :: later →
        SoundOutput buildWithInputs (states (start limits) earlier) entry.output := by
  refine h.invariant (I := fun history daemon =>
    BoundRevisions (states (start limits) history) daemon ∧
      SoundGraphs buildWithInputs (states (start limits) history) daemon ∧
      ∀ earlier entry later, history = earlier ++ entry :: later →
        SoundOutput buildWithInputs (states (start limits) earlier) entry.output) ?_ ?_
  · refine ⟨⟨by simp [states], by simp [states], by simp [states], ?_⟩, ⟨?_, ?_⟩, ?_⟩
    · intro state hstate other hother _
      rw [mem_singleton.mp hstate, mem_singleton.mp hother]
      exact .refl _
    · intro id phase hphase
      cases hphase
    · intro cached hcached
      cases hcached
    · exact fun earlier entry later hnil => absurd hnil (by simp)
  · rintro history daemon action next output ⟨hbound, hsound, houtputs⟩ hstep
    obtain ⟨hnext, houtput⟩ := hsound.step hbound hstep
    rw [states_append]
    refine ⟨hbound.step (step_snapshot hstep), hnext.append _, ?_⟩
    intro earlier entry later hhistory
    rcases eq_nil_or_concat later with rfl | ⟨front, last, rfl⟩
    · obtain ⟨rfl, hentry⟩ := append_inj' hhistory rfl
      obtain rfl := singleton_inj.mp hentry
      exact houtput
    · rw [concat_eq_append, ← cons_append, ← append_assoc] at hhistory
      obtain ⟨rfl, -⟩ := append_inj' hhistory rfl
      exact houtputs earlier entry front rfl

/-- **Graph responses belong to their revision**: each is built from the snapshot that was published
under its revision, which is the expected one.  Revisions never fall, a completed scan gets one that
is higher than all before, each is bound to one report and its inputs, and any other step, so a scan
that fails, changes neither the revision nor what it is bound to. -/
theorem graph_responses_consistent {limits : GraphReadLimits}
    {history : List (DaemonEntry File Rest Facts Graph Event)}
    {daemon : DaemonState File Rest Facts Graph}
    (h : Run (step buildWithInputs requiresRescan) (DaemonState.start limits) history daemon) :
    (∀ earlier entry later expected response, history = earlier ++ entry :: later →
      entry.output = some (.graph expected (.ok response)) →
        (expected = none ∨ expected = some response.revision) ∧
        ∃ state ∈ states (DaemonState.start limits) earlier, ∃ report,
          state.snapshot.revision = response.revision ∧ state.snapshot.report = some report ∧
          response.graph = buildWithInputs report.files report.root state.snapshot.graphLimits
            ⟨state.snapshot.graphFacts, state.snapshot.resolverConfigs⟩) ∧
    ((states (DaemonState.start limits) history).Pairwise fun earlier later =>
      earlier.snapshot.revision ≤ later.snapshot.revision) ∧
    (∀ state ∈ states (DaemonState.start limits) history,
      ∀ other ∈ states (DaemonState.start limits) history,
        state.snapshot.revision = other.snapshot.revision →
          SamePublished state.snapshot other.snapshot) ∧
    (∀ before state entry, Taken (DaemonState.start limits) history before state entry →
      Publishes state entry.action entry.after →
        ∀ past ∈ before, past.snapshot.revision < entry.after.snapshot.revision) ∧
    (∀ before state entry, Taken (DaemonState.start limits) history before state entry →
      ¬ Publishes state entry.action entry.after →
        entry.after.snapshot.revision = state.snapshot.revision ∧
          SamePublished entry.after.snapshot state.snapshot) := by
  obtain ⟨hbound, -, houtputs⟩ := sound_of_run h
  refine ⟨?_, hbound.sorted, hbound.bound, ?_, ?_⟩
  · intro earlier entry later expected response hhistory houtput
    obtain ⟨hexpects, capture, ⟨state, hstate, report, hreport, rfl⟩, hrevision, hgraph⟩ :=
      houtputs earlier entry later hhistory expected response houtput
    exact ⟨hexpects.eq_none_or, state, hstate, report, hrevision, hreport, hgraph⟩
  · rintro before state entry ⟨earlier, later, hhistory, rfl, hlast⟩ hpublishes past hpast
    have hfront : ∃ middle, Run (step buildWithInputs requiresRescan)
        (DaemonState.start limits) earlier middle := (hhistory ▸ h).of_append
    obtain ⟨middle, hmiddle⟩ := hfront
    cases hmiddle.getLast?_states.symm.trans hlast
    have hle := (sound_of_run hmiddle).1.last past hpast
    rw [hpublishes.revision]
    omega
  · intro before state entry htaken hnot
    exact (step_snapshot (h.step_of_taken htaken)).resolve_left hnot

/-- The graph of the first revision. -/
theorem graph_responses_consistent_first :
    ∃ state ∈ states (DaemonState.start FirstGraph.limits) (FirstGraph.history.take 12),
      ∃ report : ScanReport Unit Unit, state.snapshot.revision = 1 ∧
        state.snapshot.report = some report ∧
        1 = FirstGraph.countFiles report.files report.root state.snapshot.graphLimits
          ⟨state.snapshot.graphFacts, state.snapshot.resolverConfigs⟩ :=
  ((graph_responses_consistent FirstGraph.run).1 (FirstGraph.history.take 12) _
    (FirstGraph.history.drop 13) (some 1) ⟨1, 1⟩ rfl rfl).2

/-! ## What the watcher sees -/

/-- **The watcher sees the files that discovery reports**, whatever is done to them, exactly if they
do not lie below the target under a name of generated files. -/
theorem watcher_sees_discovered (identity : PathBuf → PathBuf) {discovery : Walk.Discovery}
    {traversal : Walk.Traversal} {deadline : Deadline} {file : Walk.WalkFile}
    {target relative : PathBuf} {isFile : Bool} {exclusions : List PathBuf}
    (hfile : file ∈ (Walk.discover discovery traversal deadline).1.files)
    (hexclusions : ∀ path ∈ exclusions, identity path ∈ discovery.exclusions)
    (hidentity : identity file.absolutePath = file.absolutePath)
    (hpath : file.absolutePath = (watchBoundary target isFile).join relative)
    (htarget : isFile = true → file.absolutePath = target) :
    (∀ event : WatcherEvent, event.kind.changes = true → file.absolutePath ∈ event.paths →
      eventRequiresRescan event target isFile exclusions = true) ↔
      ∀ name ∈ relative.components, name ∉ generatedNames := by
  have hexcluded : file.absolutePath ∉ exclusions := fun hmem =>
    Walk.notMem_exclusions_of_discover hfile (hidentity ▸ hexclusions _ hmem)
  have hstrip : file.absolutePath.stripPrefix (watchBoundary target isFile) = some relative := by
    rw [hpath, PathBuf.stripPrefix_join]
  constructor
  · intro h
    have hcreate := h ⟨.create, [file.absolutePath]⟩ rfl mem_cons_self
    simp only [eventRequiresRescan, any_cons, hstrip] at hcreate
    have hnames := (Bool.and_eq_true_iff.mp hcreate).2
    simp only [any_nil, Bool.or_false, Bool.and_eq_true, Bool.not_eq_true', List.any_eq_false,
      decide_eq_true_eq] at hnames
    exact hnames.2
  · intro hnames event hkind hmem
    rw [eventRequiresRescan, hkind, Bool.true_and, List.any_eq_true]
    refine ⟨file.absolutePath, hmem, ?_⟩
    simp only [hstrip, Bool.and_eq_true, Bool.not_eq_true', List.any_eq_false, decide_eq_true_eq]
    refine ⟨⟨?_, hexcluded⟩, hnames⟩
    cases isFile with
    | false => rfl
    | true => exact decide_eq_true (htarget rfl)

namespace Generated

/-- A file of the repository, in one of its directories. -/
def file (directory : String) : Walk.WalkFile :=
  ⟨⟨["repo", directory, "app.js"]⟩, ⟨[directory, "app.js"]⟩, some ⟨true, false, 1⟩, none⟩

def discovery : Walk.Discovery := ⟨⟨1, 1, 1, 1⟩, [], fun _ => true⟩

lemma mem_discover (directory : String) : file directory ∈
    (Walk.discover discovery ⟨[.entry 2 (some (file directory))], 0⟩ .never).1.files :=
  show file directory ∈ [file directory] from mem_singleton_self _

end Generated

/-- A source file is seen. -/
theorem watcher_sees_discovered_source :
    (∀ event : WatcherEvent, event.kind.changes = true →
      (Generated.file "src").absolutePath ∈ event.paths →
        eventRequiresRescan event ⟨["repo"]⟩ false [] = true) ↔
      ∀ name ∈ (PathBuf.mk ["src", "app.js"]).components, name ∉ generatedNames :=
  watcher_sees_discovered id (Generated.mem_discover "src") (by simp) rfl rfl (by simp)

/-- Discovery reports a file in `dist`, and the watcher does not see it change. -/
theorem not_watcher_sees_discovered : ¬ ∀ (discovery : Walk.Discovery) (traversal : Walk.Traversal)
    (target : PathBuf) (event : WatcherEvent), event.kind.changes = true →
      ∀ file ∈ (Walk.discover discovery traversal .never).1.files,
        file.absolutePath.startsWith target = true → file.absolutePath ∈ event.paths →
          eventRequiresRescan event target false discovery.exclusions = true := by
  intro h
  have hrescan := h Generated.discovery ⟨[.entry 2 (some (Generated.file "dist"))], 0⟩ ⟨["repo"]⟩
    ⟨.create, [⟨["repo", "dist", "app.js"]⟩]⟩ rfl _ (Generated.mem_discover "dist") rfl
    mem_cons_self
  exact absurd hrescan (by decide)

end Reposcout.Daemon
