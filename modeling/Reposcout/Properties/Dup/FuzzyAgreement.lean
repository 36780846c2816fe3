import Reposcout.Dup.Corpus
import Reposcout.Properties.Dup.FuzzyObservers

/-!
# The detector with progress agrees with the unobserved one

The two pipelines are compared phase by phase: indexing, planning, candidate search,
suppression and materialization end in the same data whatever the reporter does.  The only
phase with an argument of its own is the search, where the plan's budget keeps the pair
counter of the observed pipeline from saturating.
-/

namespace Reposcout.Dup.Fuzzy

open List Loop PlannedBucket

variable {S σ : Type} [Score S]

/-! ## Suppression -/

/-- Two states of the suppression loop that differ in the observer state alone. -/
structure SameSuppression {σ τ : Type} (s : SuppressionState S σ) (t : SuppressionState S τ) :
    Prop where
  retained : s.retained = t.retained
  byPair : s.byPair = t.byPair
  stats : s.stats = t.stats

omit [Score S] in
lemma overlapStep_agrees {τ : Type} (maxOverlapChecks : Nat)
    (progress : SuppressionStats → σ → σ) (progress' : SuppressionStats → τ → τ)
    (retained : List (CandidateMatch S)) (candidate : CandidateMatch S)
    {s : SuppressionStats × σ} {t : SuppressionStats × τ} (h : s.1 = t.1) (index : Nat) :
    (overlapStep maxOverlapChecks progress retained candidate s index).2 =
        (overlapStep maxOverlapChecks progress' retained candidate t index).2 ∧
      (overlapStep maxOverlapChecks progress retained candidate s index).1.1 =
        (overlapStep maxOverlapChecks progress' retained candidate t index).1.1 := by
  obtain ⟨stats, w⟩ := s
  obtain ⟨stats', w'⟩ := t
  obtain rfl : stats = stats' := h
  unfold overlapStep
  dsimp only
  split_ifs <;> exact ⟨rfl, rfl⟩

omit [Score S] in
lemma suppressionStep_agrees {τ : Type} (maxOverlapChecks : Nat)
    (progress : SuppressionStats → σ → σ) (progress' : SuppressionStats → τ → τ)
    {s : SuppressionState S σ} {t : SuppressionState S τ} (h : SameSuppression s t)
    (candidate : CandidateMatch S) :
    (suppressionStep maxOverlapChecks progress s candidate).2 =
        (suppressionStep maxOverlapChecks progress' t candidate).2 ∧
      SameSuppression (suppressionStep maxOverlapChecks progress s candidate).1
        (suppressionStep maxOverlapChecks progress' t candidate).1 := by
  obtain ⟨retained, byPair, stats, w⟩ := s
  obtain ⟨retained', byPair', stats', w'⟩ := t
  obtain ⟨rfl : retained = retained', rfl : byPair = byPair', rfl : stats = stats'⟩ := h
  unfold suppressionStep
  dsimp only
  obtain ⟨hverdict, _, hstats⟩ := run_simulates
    (overlapStep maxOverlapChecks progress retained candidate)
    (overlapStep maxOverlapChecks progress' retained candidate)
    (R := fun _ (s : SuppressionStats × σ) (t : SuppressionStats × τ) => s.1 = t.1)
    (fun index _ _ _ h =>
      overlapStep_agrees maxOverlapChecks progress progress' retained candidate h index)
    (l := (KeyedList.get? (candidate.firstFile, candidate.secondFile) byPair).getD [])
    (s := (stats, w)) (t := (stats, w')) rfl
  revert hverdict hstats
  generalize run (overlapStep maxOverlapChecks progress retained candidate) _ (stats, w) = left
  generalize run (overlapStep maxOverlapChecks progress' retained candidate) _ (stats, w') =
    right
  intro hverdict hstats
  obtain ⟨⟨stats₁, w₁⟩, verdict⟩ := left
  obtain ⟨⟨stats₂, w₂⟩, verdict'⟩ := right
  obtain rfl : verdict = verdict' := hverdict
  obtain rfl : stats₁ = stats₂ := hstats
  cases verdict with
  | none => exact ⟨rfl, rfl, rfl, rfl⟩
  | some verdict => cases verdict <;> exact ⟨rfl, rfl, rfl, rfl⟩

omit [Score S] in
lemma suppressSortedOverlappingMatches_fst (found : List (CandidateMatch S))
    (maxOverlapChecks : Nat) (progress : SuppressionStats → σ → σ) (w : σ) :
    (suppressSortedOverlappingMatches found maxOverlapChecks progress w).1 =
      (suppressSortedOverlappingMatches found maxOverlapChecks (fun _ w => w) ()).1 := by
  obtain ⟨hresult, _, hsame⟩ := run_simulates
    (suppressionStep maxOverlapChecks progress) (suppressionStep maxOverlapChecks fun _ w => w)
    (R := fun _ => SameSuppression (S := S) (σ := σ) (τ := Unit))
    (fun candidate _ _ _ h =>
      suppressionStep_agrees maxOverlapChecks progress (fun _ w => w) h candidate)
    (l := found) (s := ⟨[], [], {}, w⟩) (t := ⟨[], [], {}, ()⟩) ⟨rfl, rfl, rfl⟩
  unfold suppressSortedOverlappingMatches
  revert hresult hsame
  generalize run (suppressionStep maxOverlapChecks progress) found ⟨[], [], {}, w⟩ = left
  generalize run (suppressionStep maxOverlapChecks fun _ w => w) found ⟨[], [], {}, ()⟩ = right
  intro hresult hsame
  obtain ⟨s, result⟩ := left
  obtain ⟨t, result'⟩ := right
  obtain rfl : result = result' := hresult
  obtain ⟨hretained, _, hstats⟩ := hsame
  dsimp only at hretained hstats
  cases result <;> simp only [hretained, hstats]

lemma suppressPool_fst (reporter : ProgressReporter S σ) (scope : PoolScope)
    (found : List (CandidateMatch S)) (limits : Type2Limits) (w : σ) :
    (suppressPool reporter scope found limits w).1 =
      suppressOverlappingMatchesWithLimit found limits.maxOverlapChecksPerPool :=
  suppressSortedOverlappingMatches_fst _ _ _ _

/-! ## Indexing -/

lemma foldl_observed_fst {α β : Type} (step : β → α → β) (count : α → Nat)
    (notify : Nat → σ → σ) (l : List α) (b : β) (w : σ) :
    (l.foldl (observed step count notify) (b, w)).1 = l.foldl step b :=
  (foldl_hom Prod.fst fun _ _ => rfl).symm

lemma alphaWindowHashesWithProgress_fst (xxh3_64 : List UInt8 → UInt64) (tokens : List Token)
    (window : Nat) (progress : String → Nat → Nat → σ → σ) (w : σ) :
    (alphaWindowHashesWithProgress xxh3_64 tokens window progress w).1 =
      alphaWindowHashes xxh3_64 tokens window := by
  unfold alphaWindowHashesWithProgress alphaWindowHashes
  split_ifs
  · rfl
  · dsimp only
    rw [foldl_observed_fst, foldl_observed_fst, foldl_observed_fst, foldl_observed_fst]

lemma foldl_append_map {α β : Type} (f : α → β) (l : List α) (k : Nat) (acc : List β) :
    (l.zipIdx k).foldl (fun acc entry => acc ++ [f entry.1]) acc = acc ++ l.map f := by
  induction l generalizing k acc with
  | nil => simp
  | cons a rest ih => simp [ih]

variable (xxh3_64 : List UInt8 → UInt64)
variable (order : KeyedList.IterationOrder (Fingerprint × List Occurrence))
variable (inputs : List DupInput) (prepared : List PreparedFile)

omit [Score S] in
lemma indexFile_index (reporter : ProgressReporter S σ) (scope : PoolScope)
    (minTokens filesTotal windowsTotal : Nat) (s : Indexing σ) (file : Nat) :
    (indexFile xxh3_64 inputs prepared reporter scope minTokens filesTotal windowsTotal s
      file).index = indexFileFast xxh3_64 prepared minTokens s.index file := by
  unfold indexFile indexFileFast
  by_cases hshort : (tokensOf prepared file).length < minTokens
  · rw [if_pos hshort, if_pos hshort]
  · rw [if_neg hshort, if_neg hshort]
    dsimp only
    rw [alphaWindowHashesWithProgress_fst, foldl_observed_fst,
      foldl_append_map (Token.shapeHash xxh3_64), nil_append]
    exact (foldl_hom (fun acc : WindowIndex × Nat × σ => acc.1) fun _ _ => rfl).symm

/-! ## The plan's budget -/

lemma planBucket_budget {maxSeedPairs : Nat} {p : Planning}
    (h : (p.plan.buckets.map selectedPairs).sum + p.remaining ≤ maxSeedPairs)
    (candidate : Fingerprint × List Occurrence) :
    ((planBucket p candidate).plan.buckets.map selectedPairs).sum +
      (planBucket p candidate).remaining ≤ maxSeedPairs := by
  unfold planBucket
  by_cases hnone : min (boundedSeedPairCount candidate.2.length) p.remaining = 0
  · rw [if_pos hnone]
    dsimp only
    omega
  · rw [if_neg hnone]
    simp only [map_append, sum_append, map_cons, map_nil, sum_singleton]
    omega

lemma build_budget (index : WindowIndex) (maxSeedPairs : Nat) (rareFirst : Bool) :
    ((CandidatePlan.build order index maxSeedPairs rareFirst).buckets.map
      selectedPairs).sum ≤ maxSeedPairs := by
  unfold CandidatePlan.build
  dsimp only
  generalize (if rareFirst then _ else _ : List (Fingerprint × List Occurrence)) = candidates
  have hfold := List.foldlRecOn
    (motive := fun p : Planning =>
      (p.plan.buckets.map selectedPairs).sum + p.remaining ≤ maxSeedPairs)
    candidates planBucket (b := ⟨maxSeedPairs, ⟨[], { candidateBuckets := candidates.length }⟩⟩)
    (by simp) (fun _ h candidate _ => planBucket_budget h candidate)
  omega

/-! ## Candidate search -/

/-- The bucket loops are in step, and the shared counter has room for all pairs to come. -/
structure SearchInStep (rest : List PlannedBucket) (fast : Stores S × Nat)
    (observed : CandidateState S σ) : Prop where
  stores : observed.stores = fast.1
  counter : observed.stats.seedPairsCompleted = fast.2
  room : fast.2 + (rest.map PlannedBucket.selectedPairs).sum ≤ u64Max

lemma searchBucket_agrees (reporter : ProgressReporter S σ) (scope : PoolScope)
    (bucketsTotal seedPairsTotal minTokens : Nat) (threshold : S) (matchLimit : Nat)
    (bucket : PlannedBucket) (rest : List PlannedBucket) {fast : Stores S × Nat}
    {observed : CandidateState S σ} (h : SearchInStep (bucket :: rest) fast observed) :
    (searchBucketFast prepared minTokens threshold matchLimit fast bucket).2 =
        (searchBucket prepared reporter scope bucketsTotal seedPairsTotal minTokens threshold
          matchLimit observed bucket).2 ∧
      SearchInStep rest (searchBucketFast prepared minTokens threshold matchLimit fast bucket).1
        (searchBucket prepared reporter scope bucketsTotal seedPairsTotal minTokens threshold
          matchLimit observed bucket).1 := by
  obtain ⟨hstores, hcounter, hroom⟩ := h
  simp only [map_cons, sum_cons] at hroom
  obtain ⟨hrun, hstores', hcounter', hbudget⟩ := detectCandidates_agrees prepared minTokens
    threshold bucket.selectedPairs matchLimit
    (fun stats w => reporter.periodic (candidateProgress scope bucketsTotal
      bucket.occurrences.length seedPairsTotal stats) w)
    bucket.occurrences observed (by omega)
  rw [hstores] at hrun hstores' hcounter' hbudget
  unfold searchBucketFast searchBucket
  dsimp only
  refine ⟨by rw [hrun], hstores', ?_, ?_⟩
  · dsimp only
    unfold satAdd
    omega
  · dsimp only
    unfold satAdd
    omega

lemma searchPool_fst (reporter : ProgressReporter S σ) (scope : PoolScope) (files : List Nat)
    (minTokens : Nat) (threshold : S) (seenRegions : List Region) (limits : Type2Limits)
    (w : σ) :
    (searchPool xxh3_64 order inputs prepared reporter scope files minTokens threshold
      seenRegions limits w).1 =
    searchPoolFast xxh3_64 order prepared files minTokens threshold seenRegions limits := by
  unfold searchPool searchPoolFast
  dsimp only
  -- Both pipelines plan over the same index.
  rw [show ∀ filesTotal windowsTotal w, (files.foldl
      (indexFile xxh3_64 inputs prepared reporter scope minTokens filesTotal windowsTotal)
      ⟨[], 0, 0, w⟩).index = files.foldl (indexFileFast xxh3_64 prepared minTokens) [] from
    fun filesTotal windowsTotal w => (foldl_hom Indexing.index fun s file =>
      (indexFile_index xxh3_64 inputs prepared reporter scope minTokens filesTotal windowsTotal s
        file).symm).symm]
  have hbudget := build_budget order (files.foldl (indexFileFast xxh3_64 prepared minTokens) [])
    limits.maxSeedPairsPerPool limits.rareFirst
  revert hbudget
  generalize CandidatePlan.build order _ limits.maxSeedPairsPerPool limits.rareFirst = plan
  generalize reporter.force (candidateProgress scope _ 0 _ {}) _ = w'
  intro hbudget
  obtain ⟨hstopped, _, hend⟩ := run_simulates
    (searchBucketFast prepared minTokens threshold limits.maxMatchesPerPool)
    (searchBucket prepared reporter scope plan.diagnostics.candidateBucketsSelected
      plan.diagnostics.seedPairsSelected minTokens threshold limits.maxMatchesPerPool)
    (R := SearchInStep (S := S) (σ := σ))
    (fun bucket rest _ _ h => searchBucket_agrees prepared reporter scope
      plan.diagnostics.candidateBucketsSelected plan.diagnostics.seedPairsSelected minTokens
      threshold limits.maxMatchesPerPool bucket rest h)
    (l := plan.buckets) (s := (⟨[], seenRegions, []⟩, 0)) (t := ⟨⟨[], seenRegions, []⟩, {}, w'⟩)
    ⟨rfl, rfl, by have := limits.seedPairs_u64; dsimp only; omega⟩
  rw [hend.stores, hend.counter, hstopped]

/-! ## Pools and corpus -/

omit [Score S] in
lemma materialize_groups (reporter : ProgressReporter S σ) (scope : PoolScope)
    (retainedTotal groupsBefore : Nat) (retained : List (CandidateMatch S))
    (m : Materializing S σ) :
    (retained.foldl (materializeStep inputs prepared reporter scope retainedTotal groupsBefore)
      m).groups =
    m.groups ++ retained.filterMap (materialize inputs prepared scope.name) := by
  induction retained generalizing m with
  | nil => simp
  | cons candidate rest ih =>
    rw [foldl_cons, ih, filterMap_cons]
    unfold materializeStep
    cases materialize inputs prepared scope.name candidate <;> simp

lemma detectPool_fst (reporter : ProgressReporter S σ) (scope : PoolScope) (files : List Nat)
    (minTokens : Nat) (threshold : S) (results : Results S) (limits : Type2Limits) (w : σ) :
    (detectPool xxh3_64 order inputs prepared reporter scope files minTokens threshold results
      limits w).1 =
    detectPoolFast xxh3_64 order inputs prepared scope.name files minTokens threshold results
      limits := by
  unfold detectPool detectPoolFast
  dsimp only
  have heligible : (files.filter
      (fun file => decide ((tokensOf prepared file).length ≥ minTokens))).length = 0 ↔
      (!files.any fun file => decide ((tokensOf prepared file).length ≥ minTokens)) = true := by
    simp
  by_cases hnone : (files.filter
      (fun file => decide ((tokensOf prepared file).length ≥ minTokens))).length = 0
  · rw [if_pos hnone, if_pos (heligible.mp hnone)]
  · rw [if_neg hnone, if_neg (fun h => hnone (heligible.mpr h))]
    rw [materialize_groups, suppressPool_fst, searchPool_fst]

lemma runPool_fst (reporter : ProgressReporter S σ) (poolsTotal minTokens : Nat)
    (threshold : S) (limits : Type2Limits) (acc : (Results S × Type2Diagnostics) × σ)
    (entry : (String × List Nat) × Nat) :
    (runPool xxh3_64 order inputs prepared reporter poolsTotal minTokens threshold limits acc
      entry).1 =
    runPoolFast xxh3_64 order inputs prepared minTokens threshold limits acc.1 entry.1 := by
  exact congrArg (fun r : Results S × PoolOutcome => (r.1, acc.1.2.recordPool r.2))
    (detectPool_fst xxh3_64 order inputs prepared reporter _ _ _ _ _ _ _)

lemma runPools_fst (reporter : ProgressReporter S σ) (poolsTotal minTokens : Nat)
    (threshold : S) (limits : Type2Limits) (pools : List (String × List Nat)) (offset : Nat)
    (acc : (Results S × Type2Diagnostics) × σ) :
    ((pools.zipIdx offset).foldl
      (runPool xxh3_64 order inputs prepared reporter poolsTotal minTokens threshold limits)
      acc).1 =
    pools.foldl (runPoolFast xxh3_64 order inputs prepared minTokens threshold limits) acc.1 := by
  induction pools generalizing offset acc with
  | nil => rfl
  | cons pool rest ih =>
    rw [zipIdx_cons, foldl_cons, foldl_cons, ih, runPool_fst]

lemma detectPrepared_fst (reporter : ProgressReporter S σ) (minTokens : Nat)
    (minSimilarity : S) (limits : Type2Limits) (w : σ) :
    (detectPreparedWithLimitsAndProgressInterval xxh3_64 order inputs prepared reporter
      minTokens minSimilarity limits w).1 =
    detectPreparedWithLimits xxh3_64 order inputs prepared minTokens minSimilarity limits := by
  unfold detectPreparedWithLimitsAndProgressInterval detectPreparedWithLimits
  dsimp only
  split_ifs
  · rfl
  · generalize reporter.force (.started _ _ _ _ _ _ _ _ _ _) w = w'
    exact congrArg
      (fun r : Results S × Type2Diagnostics =>
        (⟨KeyedList.sortBy groupOrder r.1.groups, r.2⟩ : Type2Detection S))
      (runPools_fst xxh3_64 order inputs prepared reporter (poolsOf prepared).length minTokens
        (Score.normalizeThreshold minSimilarity) limits (poolsOf prepared) 0 ((⟨[], []⟩, {}), w'))

/-! ## The agreement -/

/-- **The path with progress agrees with the fast path.**  For every reporter, every prepared
corpus and all limits: the two detectors return the same groups and diagnostics; so do the
two scans of a pool, from any groups and seen regions; the two candidate searches of a pool
find the same matches in the same order with the same plan, pair counter and limit flag, and
the two suppressions retain the same matches; and the two seed loops over one bucket end in
the same stores with the same outcome, as long as the shared counter of the observed one has
room for the bucket's budget. -/
theorem progress_agrees_with_fast (reporter : ProgressReporter S σ) (minTokens : Nat)
    (limits : Type2Limits) :
    (∀ minSimilarity w,
      (detectPreparedWithLimitsAndProgressInterval xxh3_64 order inputs prepared reporter
        minTokens minSimilarity limits w).1 =
      detectPreparedWithLimits xxh3_64 order inputs prepared minTokens minSimilarity limits) ∧
    (∀ scope files threshold results w,
      (detectPool xxh3_64 order inputs prepared reporter scope files minTokens threshold results
        limits w).1 =
      detectPoolFast xxh3_64 order inputs prepared scope.name files minTokens threshold results
        limits) ∧
    (∀ scope files threshold seenRegions w,
      (searchPool xxh3_64 order inputs prepared reporter scope files minTokens threshold
        seenRegions limits w).1 =
      searchPoolFast xxh3_64 order prepared files minTokens threshold seenRegions limits) ∧
    (∀ scope found w, (suppressPool reporter scope found limits w).1 =
      suppressOverlappingMatchesWithLimit found limits.maxOverlapChecksPerPool) ∧
    (∀ (progress : CandidateStats → σ → σ) occurrences threshold (s : CandidateState S σ)
      seedPairLimit matchLimit, s.stats.seedPairsCompleted + seedPairLimit ≤ u64Max →
      let observed := detectCandidates progress prepared occurrences minTokens threshold
        seedPairLimit matchLimit s
      let fast := detectCandidatesFast prepared occurrences minTokens threshold s.stores
        seedPairLimit matchLimit
      observed.2 = fast.2 ∧ observed.1.stores = fast.1) := by
  refine ⟨?_, ?_, ?_, ?_, ?_⟩
  · intro minSimilarity w
    exact detectPrepared_fst xxh3_64 order inputs prepared reporter minTokens minSimilarity
      limits w
  · intro scope files threshold results w
    exact detectPool_fst xxh3_64 order inputs prepared reporter scope files minTokens threshold
      results limits w
  · intro scope files threshold seenRegions w
    exact searchPool_fst xxh3_64 order inputs prepared reporter scope files minTokens threshold
      seenRegions limits w
  · intro scope found w
    exact suppressPool_fst reporter scope found limits w
  · intro progress occurrences threshold s seedPairLimit matchLimit hfit
    obtain ⟨hrun, hstores, _, _⟩ := detectCandidates_agrees prepared minTokens threshold
      seedPairLimit matchLimit progress occurrences s hfit
    exact ⟨hrun, hstores⟩

/-- Two one-line files that differ in their identifiers. -/
def renamedStatements : List DupInput :=
  [⟨⟨["a.rs"]⟩, "a=b;"⟩, ⟨⟨["b.rs"]⟩, "x=y;"⟩]

/-- The agreement at two renamed statements, with a reporter that counts events. -/
theorem progress_agrees_with_fast_renamedStatements :
    let prepared := prepare characterFrontend .exact renamedStatements
    let reporter : ProgressReporter ℚ Nat := ⟨fun _ n => n + 1, fun _ n => n + 1, true⟩
    let s : CandidateState ℚ Nat := ⟨⟨[], [], []⟩, {}, 0⟩
    (detectPreparedWithLimitsAndProgressInterval (fun _ => 0) (.insertion _) renamedStatements
        prepared reporter 4 (4 / 5) .default 0).1 =
      detectPreparedWithLimits (fun _ => 0) (.insertion _) renamedStatements prepared 4 (4 / 5)
        .default ∧
    (detectCandidates (fun _ n => n + 1) prepared [⟨0, 0⟩, ⟨1, 0⟩] 4 (4 / 5) 1 1 s).2 =
      (detectCandidatesFast prepared [⟨0, 0⟩, ⟨1, 0⟩] 4 (4 / 5) s.stores 1 1).2 := by
  intro prepared reporter s
  have h := progress_agrees_with_fast (fun _ => 0) (.insertion _) renamedStatements prepared
    reporter 4 .default
  exact ⟨h.1 (4 / 5) 0, (h.2.2.2.2 (fun _ n => n + 1) [⟨0, 0⟩, ⟨1, 0⟩] (4 / 5) s 1 1
    (by decide)).1⟩

end Reposcout.Dup.Fuzzy
