import Reposcout.Dup.Fuzzy.Candidates
import Reposcout.Dup.Fuzzy.Index

/-!
# The fuzzy detector

The two pipelines of the source over one pool (index, plan, search, suppress, materialize)
and over the corpus.  `detectPoolFast` and `detectPreparedWithLimits` run unobserved;
`detectPool` and `detectPreparedWithLimitsAndProgressInterval` report every phase.

The iteration order of the window index is a parameter of both.  It matters only when the
buckets are not planned rarest first.
-/

/-!
## Progress events of the fuzzy detector

The events handed to the progress callback, without the wall-clock fields, and the reporter
that hands them on.  When a periodic event is due depends on the clock, so a reporter is any
pair of functions on a state `σ` that may hold the callback, the clock and the time of the
last event.
-/

namespace Reposcout.Dup.Fuzzy

inductive Type2Progress (S : Type) where
  | started (poolsTotal filesTotal eligibleFiles tokensTotal windowsTotal minTokens : Nat)
      (minSimilarity : S)
      (maxSeedPairsPerPool maxMatchesPerPool maxOverlapChecksPerPool : Nat)
  | poolStarted (pool : String)
      (poolIndex poolsTotal filesTotal eligibleFiles tokensTotal windowsTotal : Nat)
  | indexing (pool : String) (poolIndex poolsTotal : Nat) (operation : String)
      (filesCompleted filesTotal : Nat) (currentFile : Option String)
      (currentUnitsCompleted currentUnitsTotal windowsIndexed windowsTotal
        fingerprintBuckets : Nat)
  | planningCandidates (pool : String) (poolIndex poolsTotal : Nat)
      (fingerprintBucketsCompleted fingerprintBucketsTotal : Nat) (plan : PlanDiagnostics)
      (seedPairsSkipped : Nat)
  | candidateSearch (pool : String) (poolIndex poolsTotal : Nat) (stats : CandidateStats)
      (bucketsTotal currentBucketOccurrences seedPairsTotal : Nat)
  | sortingMatches (pool : String) (poolIndex poolsTotal : Nat) (status : String)
      (matchesTotal : Nat)
  | suppressingOverlaps (pool : String) (poolIndex poolsTotal : Nat) (stats : SuppressionStats)
      (matchesTotal : Nat)
  | materializingGroups (pool : String)
      (poolIndex poolsTotal matchesCompleted matchesTotal groupsCreated : Nat)
  | poolFinished (pool : String) (poolIndex poolsTotal groupsCreated : Nat)
      (analysisPartial : Bool) (seedPairsSkipped : Nat)
      (matchLimitReached suppressionLimitReached : Bool) (matchesSkippedDuringSuppression : Nat)
  | sortingGroups (status : String) (groupsTotal : Nat)
  | finished (groupsTotal : Nat) (analysisPartial : Bool) (poolsTruncated seedPairsSkipped : Nat)
      (matchLimitReached suppressionLimitReached : Bool) (matchesSkippedDuringSuppression : Nat)

structure ProgressReporter (S σ : Type) where
  force : Type2Progress S → σ → σ
  periodic : Type2Progress S → σ → σ
  /-- Whether there is a callback. -/
  enabled : Bool

structure PoolScope where
  name : String
  index : Nat
  total : Nat

variable {S : Type}

def indexingProgress (scope : PoolScope) (operation : String) (filesCompleted filesTotal : Nat)
    (currentFile : Option String)
    (currentUnitsCompleted currentUnitsTotal windowsIndexed windowsTotal
      fingerprintBuckets : Nat) : Type2Progress S :=
  .indexing scope.name scope.index scope.total operation filesCompleted filesTotal currentFile
    currentUnitsCompleted currentUnitsTotal windowsIndexed windowsTotal fingerprintBuckets

def candidatePlanningProgress (scope : PoolScope) (completed total : Nat)
    (plan : PlanDiagnostics) : Type2Progress S :=
  .planningCandidates scope.name scope.index scope.total completed total plan
    plan.seedPairsSkipped

def candidateProgress (scope : PoolScope) (bucketsTotal currentBucketOccurrences
    seedPairsTotal : Nat) (stats : CandidateStats) : Type2Progress S :=
  .candidateSearch scope.name scope.index scope.total stats bucketsTotal
    currentBucketOccurrences seedPairsTotal

def suppressionProgress (scope : PoolScope) (matchesTotal : Nat) (stats : SuppressionStats) :
    Type2Progress S :=
  .suppressingOverlaps scope.name scope.index scope.total stats matchesTotal

def materializationProgress (scope : PoolScope)
    (matchesCompleted matchesTotal groupsCreated : Nat) : Type2Progress S :=
  .materializingGroups scope.name scope.index scope.total matchesCompleted matchesTotal
    groupsCreated

structure Type2Diagnostics where
  truncated : Bool := false
  poolsTruncated : Nat := 0
  candidateBucketsSkipped : Nat := 0
  candidateBucketsPartiallySelected : Nat := 0
  seedPairsSkipped : Nat := 0
  matchLimitReached : Bool := false
  suppressionLimitReached : Bool := false
  matchesSkippedDuringSuppression : Nat := 0

structure PoolOutcome where
  plan : PlanDiagnostics := {}
  seedPairsCompleted : Nat := 0
  matchLimitReached : Bool := false
  suppressionLimitReached : Bool := false
  matchesSkippedDuringSuppression : Nat := 0

def Type2Diagnostics.recordPool (d : Type2Diagnostics) (outcome : PoolOutcome) :
    Type2Diagnostics :=
  let seedPairsSkipped := outcome.plan.seedPairsTotal - outcome.seedPairsCompleted
  let truncated := decide (seedPairsSkipped > 0) || outcome.matchLimitReached
    || outcome.suppressionLimitReached
  { truncated := d.truncated || truncated
    poolsTruncated := d.poolsTruncated + truncated.toNat
    candidateBucketsSkipped := d.candidateBucketsSkipped + outcome.plan.candidateBucketsSkipped
    candidateBucketsPartiallySelected :=
      d.candidateBucketsPartiallySelected + outcome.plan.candidateBucketsPartiallySelected
    seedPairsSkipped := satAdd d.seedPairsSkipped seedPairsSkipped
    matchLimitReached := d.matchLimitReached || outcome.matchLimitReached
    suppressionLimitReached := d.suppressionLimitReached || outcome.suppressionLimitReached
    matchesSkippedDuringSuppression :=
      satAdd d.matchesSkippedDuringSuppression outcome.matchesSkippedDuringSuppression }

structure Type2Detection (S : Type) where
  groups : List (CloneGroup S)
  diagnostics : Type2Diagnostics

/-- What the pools of one run share: the groups so far and the regions matched so far. -/
structure Results (S : Type) where
  groups : List (CloneGroup S)
  seenRegions : List Region

/-- What the candidate search of one pool hands to the suppression. -/
structure PoolSearch (S : Type) where
  stores : Stores S
  plan : PlanDiagnostics
  seedPairsCompleted : Nat
  matchLimitReached : Bool

section

variable {S : Type} [Score S] (xxh3_64 : List UInt8 → UInt64)
variable (order : KeyedList.IterationOrder (Fingerprint × List Occurrence))
variable (inputs : List DupInput) (prepared : List PreparedFile)

/-- The group of one retained match, when both of its sides can be reported. -/
def materialize (pool : String) (candidate : CandidateMatch S) : Option (CloneGroup S) :=
  match cloneInstance inputs prepared candidate.firstFile candidate.firstStart candidate.len,
      cloneInstance inputs prepared candidate.secondFile candidate.secondStart candidate.len with
  | some left, some right =>
    some {
      lines := candidate.lines
      tokens := candidate.len
      similarity := candidate.similarity
      format := pool
      fingerprint := ""
      instances := [left, right] }
  | _, _ => none

/-! ## The unobserved pipeline -/

def indexFileFast (minTokens : Nat) (index : WindowIndex) (file : Nat) : WindowIndex :=
  let tokens := tokensOf prepared file
  if tokens.length < minTokens then index
  else
    let hashes := tokens.map (Token.shapeHash xxh3_64)
    let alphaHashes := alphaWindowHashes xxh3_64 tokens minTokens
    ((rolledHashes hashes minTokens).zip alphaHashes).zipIdx.foldl (insertWindow file) index

/-- The search of one bucket and its share of the seed pair counter. -/
def searchBucketFast (minTokens : Nat) (threshold : S) (matchLimit : Nat) (s : Stores S × Nat)
    (bucket : PlannedBucket) : (Stores S × Nat) × Option Unit :=
  let (st, run) := detectCandidatesFast prepared bucket.occurrences minTokens threshold s.1
    bucket.selectedPairs matchLimit
  ((st, satAdd s.2 run.seedPairsCompleted), if run.matchLimitReached then some () else none)

def searchPoolFast (files : List Nat) (minTokens : Nat) (threshold : S)
    (seenRegions : List Region) (limits : Type2Limits) : PoolSearch S :=
  let index := files.foldl (indexFileFast xxh3_64 prepared minTokens) []
  let plan := CandidatePlan.build order index limits.maxSeedPairsPerPool limits.rareFirst
  let (s, stopped) := Loop.run
    (searchBucketFast prepared minTokens threshold limits.maxMatchesPerPool) plan.buckets
    (⟨[], seenRegions, []⟩, 0)
  ⟨s.1, plan.diagnostics, s.2, stopped.isSome⟩

def detectPoolFast (pool : String) (files : List Nat) (minTokens : Nat) (threshold : S)
    (results : Results S) (limits : Type2Limits) : Results S × PoolOutcome :=
  if !files.any (fun file => (tokensOf prepared file).length ≥ minTokens) then (results, {})
  else
    let search := searchPoolFast xxh3_64 order prepared files minTokens threshold
      results.seenRegions limits
    let suppression :=
      suppressOverlappingMatchesWithLimit search.stores.found limits.maxOverlapChecksPerPool
    ({ groups := results.groups ++ suppression.retained.filterMap (materialize inputs prepared pool)
       seenRegions := search.stores.seenRegions },
      { plan := search.plan
        seedPairsCompleted := search.seedPairsCompleted
        matchLimitReached := search.matchLimitReached
        suppressionLimitReached := suppression.limitReached
        matchesSkippedDuringSuppression := suppression.matchesSkipped })

def groupSortKey (group : CloneGroup S) : String × Nat × Nat :=
  match group.instances.head? with
  | some i => (i.path.toStringLossy, i.startByte, i.endByte)
  | none => ("", 0, 0)

def groupOrder (a b : CloneGroup S) : Ordering :=
  (compare b.tokens a.tokens).then <| (Score.totalCmp b.similarity a.similarity).then <|
    (compare (groupSortKey a).1 (groupSortKey b).1).then <|
      (compare (groupSortKey a).2.1 (groupSortKey b).2.1).then
        (compare (groupSortKey a).2.2 (groupSortKey b).2.2)

def runPoolFast (minTokens : Nat) (threshold : S) (limits : Type2Limits)
    (acc : Results S × Type2Diagnostics) (pool : String × List Nat) :
    Results S × Type2Diagnostics :=
  let (results, outcome) := detectPoolFast xxh3_64 order inputs prepared pool.1 pool.2 minTokens
    threshold acc.1 limits
  (results, acc.2.recordPool outcome)

def detectPreparedWithLimits (minTokens : Nat) (minSimilarity : S) (limits : Type2Limits) :
    Type2Detection S :=
  if minTokens = 0 ∨ prepared = [] then ⟨[], {}⟩
  else
    let threshold := Score.normalizeThreshold minSimilarity
    let (results, diagnostics) := (poolsOf prepared).foldl
      (runPoolFast xxh3_64 order inputs prepared minTokens threshold limits) (⟨[], []⟩, {})
    ⟨KeyedList.sortBy groupOrder results.groups, diagnostics⟩

/-! ## The pipeline with progress -/

variable {σ : Type}

/-- The state of the indexing phase. -/
structure Indexing (σ : Type) where
  index : WindowIndex
  filesCompleted : Nat
  windowsIndexed : Nat
  observed : σ

def indexFile (reporter : ProgressReporter S σ) (scope : PoolScope) (minTokens filesTotal
    windowsTotal : Nat) (s : Indexing σ) (file : Nat) : Indexing σ :=
  let tokens := tokensOf prepared file
  if tokens.length < minTokens then { s with filesCompleted := s.filesCompleted + 1 }
  else
    let currentFile := (prepared[file]?).bind fun source =>
      (inputs[source.inputIndex]?).map (·.path.toStringLossy)
    let report := fun operation done total windowsIndexed buckets w =>
      reporter.periodic (indexingProgress scope operation s.filesCompleted filesTotal currentFile
        done total windowsIndexed windowsTotal buckets) w
    let (hashes, w) := tokens.zipIdx.foldl
      (observed (fun hashes entry => hashes ++ [Token.shapeHash xxh3_64 entry.1])
        (fun entry => entry.2 + 1)
        (fun done => report "hashing_shapes" done tokens.length s.windowsIndexed s.index.length))
      ([], s.observed)
    let (alphaHashes, w) := alphaWindowHashesWithProgress xxh3_64 tokens minTokens
      (fun operation done total w =>
        if reporter.enabled then
          report operation done total s.windowsIndexed s.index.length w
        else w) w
    let windows := hashes.length - minTokens + 1
    let (index, windowsIndexed, w) :=
      ((rolledHashes hashes minTokens).zip alphaHashes).zipIdx.foldl
        (fun acc entry =>
          let index := insertWindow file acc.1 entry
          let windowsIndexed := satAdd acc.2.1 1
          (index, windowsIndexed,
            if windowsIndexed % progressCheckEvery = 0 then
              report "inserting_windows" (entry.2 + 1) windows windowsIndexed index.length acc.2.2
            else acc.2.2))
        (s.index, s.windowsIndexed, w)
    let filesCompleted := s.filesCompleted + 1
    { index, filesCompleted, windowsIndexed
      observed := reporter.periodic (indexingProgress scope "file_completed" filesCompleted
        filesTotal currentFile windows windows windowsIndexed windowsTotal index.length) w }

def searchBucket (reporter : ProgressReporter S σ) (scope : PoolScope) (bucketsTotal
    seedPairsTotal minTokens : Nat) (threshold : S) (matchLimit : Nat) (s : CandidateState S σ)
    (bucket : PlannedBucket) : CandidateState S σ × Option Unit :=
  let report := fun stats w => reporter.periodic (candidateProgress scope bucketsTotal
    bucket.occurrences.length seedPairsTotal stats) w
  let (s, run) := detectCandidates report prepared bucket.occurrences minTokens threshold
    bucket.selectedPairs matchLimit s
  let stats := { s.stats with bucketsCompleted := s.stats.bucketsCompleted + 1 }
  ({ s with stats, observed := report stats s.observed },
    if run.matchLimitReached then some () else none)

/-- Indexing, planning and candidate search, with their phase events. -/
def searchPool (reporter : ProgressReporter S σ) (scope : PoolScope) (files : List Nat)
    (minTokens : Nat) (threshold : S) (seenRegions : List Region) (limits : Type2Limits)
    (w : σ) : PoolSearch S × σ :=
  let filesTotal := files.length
  let windowsTotal := files.foldl
    (fun sum file => satAdd sum (windowCount (tokensOf prepared file).length minTokens)) 0
  let w := reporter.force
    (indexingProgress scope "starting" 0 filesTotal none 0 0 0 windowsTotal 0) w
  let indexing := files.foldl
    (indexFile xxh3_64 inputs prepared reporter scope minTokens filesTotal windowsTotal)
    ⟨[], 0, 0, w⟩
  let index := indexing.index
  let w := reporter.force (indexingProgress scope "completed" indexing.filesCompleted filesTotal
    none 0 0 indexing.windowsIndexed windowsTotal index.length) indexing.observed
  let w := reporter.force (candidatePlanningProgress scope 0 index.length {}) w
  let plan := CandidatePlan.build order index limits.maxSeedPairsPerPool limits.rareFirst
  let w := reporter.force
    (candidatePlanningProgress scope index.length index.length plan.diagnostics) w
  let bucketsTotal := plan.diagnostics.candidateBucketsSelected
  let seedPairsTotal := plan.diagnostics.seedPairsSelected
  let w := reporter.force (candidateProgress scope bucketsTotal 0 seedPairsTotal {}) w
  let (s, stopped) := Loop.run
    (searchBucket prepared reporter scope bucketsTotal seedPairsTotal minTokens threshold
      limits.maxMatchesPerPool)
    plan.buckets ⟨⟨[], seenRegions, []⟩, {}, w⟩
  let w := reporter.force (candidateProgress scope bucketsTotal 0 seedPairsTotal s.stats)
    s.observed
  (⟨s.stores, plan.diagnostics, s.stats.seedPairsCompleted, stopped.isSome⟩, w)

/-- Sorting and suppression, with their phase events. -/
def suppressPool (reporter : ProgressReporter S σ) (scope : PoolScope)
    (found : List (CandidateMatch S)) (limits : Type2Limits) (w : σ) :
    SuppressionOutcome S × σ :=
  let w := reporter.force
    (.sortingMatches scope.name scope.index scope.total "started" found.length) w
  let found := sortCandidateMatches found
  let w := reporter.force
    (.sortingMatches scope.name scope.index scope.total "completed" found.length) w
  let matchesTotal := found.length
  let w := reporter.force (suppressionProgress scope matchesTotal {}) w
  let (suppression, w) := suppressSortedOverlappingMatches found limits.maxOverlapChecksPerPool
    (fun stats => reporter.periodic (suppressionProgress scope matchesTotal stats)) w
  (suppression, reporter.force (suppressionProgress scope matchesTotal suppression.stats) w)

/-- The state of the materialization phase. -/
structure Materializing (S σ : Type) where
  groups : List (CloneGroup S)
  matchesCompleted : Nat
  observed : σ

def materializeStep (reporter : ProgressReporter S σ) (scope : PoolScope)
    (retainedTotal groupsBefore : Nat) (s : Materializing S σ) (candidate : CandidateMatch S) :
    Materializing S σ :=
  let groups := match materialize inputs prepared scope.name candidate with
    | some group => s.groups ++ [group]
    | none => s.groups
  let matchesCompleted := s.matchesCompleted + 1
  { groups, matchesCompleted
    observed := if matchesCompleted % progressCheckEvery = 0 then
        reporter.periodic (materializationProgress scope matchesCompleted retainedTotal
          (groups.length - groupsBefore)) s.observed
      else s.observed }

def detectPool (reporter : ProgressReporter S σ) (scope : PoolScope) (files : List Nat)
    (minTokens : Nat) (threshold : S) (results : Results S) (limits : Type2Limits) (w : σ) :
    (Results S × PoolOutcome) × σ :=
  let groupsBefore := results.groups.length
  let eligibleFiles :=
    (files.filter (fun file => (tokensOf prepared file).length ≥ minTokens)).length
  let tokensTotal := files.foldl (fun sum file => satAdd sum (tokensOf prepared file).length) 0
  let windowsTotal := files.foldl
    (fun sum file => satAdd sum (windowCount (tokensOf prepared file).length minTokens)) 0
  let w := reporter.force (.poolStarted scope.name scope.index scope.total files.length
    eligibleFiles tokensTotal windowsTotal) w
  if eligibleFiles = 0 then
    ((results, {}),
      reporter.force (.poolFinished scope.name scope.index scope.total 0 false 0 false false 0) w)
  else
    let (search, w) := searchPool xxh3_64 order inputs prepared reporter scope files minTokens
      threshold results.seenRegions limits w
    let (suppression, w) := suppressPool reporter scope search.stores.found limits w
    let retainedTotal := suppression.retained.length
    let w := reporter.force (materializationProgress scope 0 retainedTotal 0) w
    let m := suppression.retained.foldl
      (materializeStep inputs prepared reporter scope retainedTotal groupsBefore)
      ⟨results.groups, 0, w⟩
    let w := reporter.force (materializationProgress scope m.matchesCompleted retainedTotal
      (m.groups.length - groupsBefore)) m.observed
    let seedPairsSkipped := search.plan.seedPairsTotal - search.seedPairsCompleted
    let w := reporter.force (.poolFinished scope.name scope.index scope.total
      (m.groups.length - groupsBefore)
      (decide (seedPairsSkipped > 0) || search.matchLimitReached || suppression.limitReached)
      seedPairsSkipped search.matchLimitReached suppression.limitReached
      suppression.matchesSkipped) w
    (({ groups := m.groups, seenRegions := search.stores.seenRegions },
      { plan := search.plan
        seedPairsCompleted := search.seedPairsCompleted
        matchLimitReached := search.matchLimitReached
        suppressionLimitReached := suppression.limitReached
        matchesSkippedDuringSuppression := suppression.matchesSkipped }), w)

def runPool (reporter : ProgressReporter S σ) (poolsTotal minTokens : Nat) (threshold : S)
    (limits : Type2Limits) (acc : (Results S × Type2Diagnostics) × σ)
    (entry : (String × List Nat) × Nat) : (Results S × Type2Diagnostics) × σ :=
  let (pool, poolOffset) := entry
  let ((results, outcome), w) := detectPool xxh3_64 order inputs prepared reporter
    ⟨pool.1, poolOffset + 1, poolsTotal⟩ pool.2 minTokens threshold acc.1.1 limits acc.2
  ((results, acc.1.2.recordPool outcome), w)

def detectPreparedWithLimitsAndProgressInterval (reporter : ProgressReporter S σ)
    (minTokens : Nat) (minSimilarity : S) (limits : Type2Limits) (w : σ) :
    Type2Detection S × σ :=
  let threshold := Score.normalizeThreshold minSimilarity
  let pools := poolsOf prepared
  let poolsTotal := pools.length
  let eligibleFiles :=
    (prepared.filter (fun file => minTokens > 0 && file.tokens.length ≥ minTokens)).length
  let tokensTotal := prepared.foldl (fun sum file => satAdd sum file.tokens.length) 0
  let windowsTotal :=
    prepared.foldl (fun sum file => satAdd sum (windowCount file.tokens.length minTokens)) 0
  let w := reporter.force (.started poolsTotal prepared.length eligibleFiles tokensTotal
    windowsTotal minTokens threshold limits.maxSeedPairsPerPool limits.maxMatchesPerPool
    limits.maxOverlapChecksPerPool) w
  if minTokens = 0 ∨ prepared = [] then
    (⟨[], {}⟩, reporter.force (.finished 0 false 0 0 false false 0) w)
  else
    let ((results, d), w) := pools.zipIdx.foldl
      (runPool xxh3_64 order inputs prepared reporter poolsTotal minTokens threshold limits)
      ((⟨[], []⟩, {}), w)
    let w := reporter.force (.sortingGroups "started" results.groups.length) w
    let groups := KeyedList.sortBy groupOrder results.groups
    let w := reporter.force (.sortingGroups "completed" groups.length) w
    let w := reporter.force (.finished groups.length d.truncated d.poolsTruncated
      d.seedPairsSkipped d.matchLimitReached d.suppressionLimitReached
      d.matchesSkippedDuringSuppression) w
    (⟨groups, d⟩, w)

end

end Reposcout.Dup.Fuzzy
