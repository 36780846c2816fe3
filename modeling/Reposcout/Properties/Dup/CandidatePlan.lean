import Mathlib.Algebra.Order.BigOperators.Group.List
import Reposcout.Properties.Dup.FuzzyAgreement
import Reposcout.Properties.Dup.Seeds

/-!
# The accounts of the candidate plan

The plan fills its budget with the pairs of the candidate buckets.  What the plan counts, what the
search of a pool counts and what the run adds up are the same pairs: those that are looked at and
those that are skipped are all pairs of all candidates.
-/

namespace Reposcout.Dup.Fuzzy

open List KeyedList Loop Type2Diagnostics

open Filling (fill Pass total)

/-- A bucket of the index. -/
abbrev Candidate := Fingerprint × List Occurrence

def Candidate.pairs (candidate : Candidate) : ℕ := (bucketSeeds candidate.2).length

/-- The buckets with a pair, in the order in which they are planned. -/
def planCandidates (order : KeyedList.IterationOrder Candidate) (index : WindowIndex)
    (rareFirst : Bool) : List Candidate :=
  let candidates := (order.arrange index).filter (fun bucket => bucket.2.length ≥ 2)
  if rareFirst then sortBy rareFirstOrder candidates else candidates

lemma planCandidates_perm (order : KeyedList.IterationOrder Candidate) (index : WindowIndex)
    (rareFirst : Bool) :
    (planCandidates order index rareFirst).Perm
      (index.filter fun bucket => bucket.2.length ≥ 2) := by
  have harrange := (order.perm index).filter (fun bucket : Candidate => bucket.2.length ≥ 2)
  unfold planCandidates
  split_ifs
  · exact (sortBy_perm rareFirstOrder _).trans harrange
  · exact harrange

lemma pairs_pos {order : KeyedList.IterationOrder Candidate} {index : WindowIndex}
    {rareFirst : Bool} {candidate : Candidate}
    (h : candidate ∈ planCandidates order index rareFirst) : 0 < candidate.pairs := by
  have hmem := (planCandidates_perm order index rareFirst).mem_iff.mp h
  exact bucketSeeds_pos (by simpa using (mem_filter.mp hmem).2)

/-! ## One candidate -/

def toPlanned (taken : Candidate × ℕ) : PlannedBucket := ⟨taken.1.2, taken.2⟩

/-- The plan so far is the filling so far, and its counters are those of the filling. -/
structure Planned (candidates : ℕ) (done : List Candidate) (pass : Pass Candidate)
    (p : Planning) : Prop where
  remaining : p.remaining = pass.remaining
  buckets : p.plan.buckets = pass.taken.map toPlanned
  candidates_eq : p.plan.diagnostics.candidateBuckets = candidates
  selected : p.plan.diagnostics.candidateBucketsSelected = pass.taken.length
  skipped : p.plan.diagnostics.candidateBucketsSkipped = pass.skipped
  cut : p.plan.diagnostics.candidateBucketsPartiallySelected =
    pass.taken.countP (fun taken => taken.2 < taken.1.pairs)
  pairsTotal : p.plan.diagnostics.seedPairsTotal = total Candidate.pairs done
  pairsSelected : p.plan.diagnostics.seedPairsSelected = (pass.taken.map Prod.snd).sum
  selected_le : (pass.taken.map Prod.snd).sum ≤ total Candidate.pairs done

open Candidate

open Filling

lemma Planned.planBucket {candidates : ℕ} {done : List Candidate} {pass : Pass Candidate}
    {p : Planning} (h : Planned candidates done pass p) (candidate : Candidate)
    (hfit : total pairs (done ++ [candidate]) ≤ u64Max) :
    Planned candidates (done ++ [candidate]) (pass.offer pairs candidate)
      (planBucket p candidate) := by
  rw [total_append, total_cons, total_nil, Nat.add_zero] at hfit
  have hpairs : boundedSeedPairCount candidate.2.length = candidate.pairs := by
    rw [boundedSeedPairCount_eq]
    exact Nat.min_eq_left (by unfold pairs at hfit; omega)
  have hle := h.selected_le
  have htotal : satAdd p.plan.diagnostics.seedPairsTotal candidate.pairs =
      total pairs (done ++ [candidate]) := by
    rw [h.pairsTotal, satAdd_eq hfit, total_append, total_cons, total_nil,
      Nat.add_zero]
  have hselected : satAdd p.plan.diagnostics.seedPairsSelected
      (min candidate.pairs pass.remaining) =
      (pass.taken.map Prod.snd).sum + min candidate.pairs pass.remaining := by
    rw [h.pairsSelected]
    exact satAdd_eq (by omega)
  unfold Fuzzy.planBucket Pass.offer
  rw [hpairs, h.remaining]
  by_cases hnone : min candidate.pairs pass.remaining = 0
  · rw [if_pos hnone, if_pos hnone]
    refine ⟨?_, h.buckets, h.candidates_eq, h.selected, ?_, h.cut, htotal, ?_, ?_⟩
    · dsimp only
      rw [hnone, Nat.sub_zero]
    · dsimp only
      rw [h.skipped]
    · dsimp only
      rw [hselected, hnone, Nat.add_zero]
    · rw [total_append]
      exact hle.trans (Nat.le_add_right _ _)
  · rw [if_neg hnone, if_neg hnone]
    constructor
    · rfl
    · dsimp only
      rw [h.buckets, map_append, map_singleton]
      rfl
    · dsimp only
      split_ifs
      · exact h.candidates_eq
      · exact h.candidates_eq
    · dsimp only
      rw [length_append, length_singleton, ← h.selected]
      split_ifs
      · rfl
      · rfl
    · dsimp only
      rw [← h.skipped]
      split_ifs
      · rfl
      · rfl
    · dsimp only
      rw [countP_append, ← h.cut, countP_singleton]
      by_cases hcut : min candidate.pairs pass.remaining < candidate.pairs
      · rw [if_pos hcut, if_pos (by simpa using hcut)]
      · rw [if_neg hcut, if_neg (by simpa using hcut)]
        rfl
    · dsimp only
      rw [← htotal]
      split_ifs
      · rfl
      · rfl
    · dsimp only
      rw [map_append, sum_append, map_singleton, sum_singleton, ← hselected]
      split_ifs
      · rfl
      · rfl
    · dsimp only
      rw [map_append, sum_append, map_singleton, sum_singleton, total_append,
        total_cons, total_nil]
      omega

lemma Planned.foldl {candidates : ℕ} {done : List Candidate} {pass : Pass Candidate}
    {p : Planning} (h : Planned candidates done pass p) (rest : List Candidate)
    (hfit : total pairs (done ++ rest) ≤ u64Max) :
    Planned candidates (done ++ rest) (rest.foldl (Pass.offer pairs) pass)
      (rest.foldl Fuzzy.planBucket p) := by
  induction rest generalizing done pass p with
  | nil =>
    rw [append_nil]
    exact h
  | cons candidate rest ih =>
    rw [append_cons] at hfit ⊢
    have hfirst : total pairs (done ++ [candidate]) ≤ u64Max := by
      rw [total_append] at hfit
      omega
    exact ih (h.planBucket candidate hfirst) hfit

/-! ## The plan -/

structure PlanAccounts (candidates : List Candidate) (budget : ℕ) (plan : CandidatePlan) :
    Prop where
  /-- The pairs of all candidates are counted. -/
  pairsTotal : plan.diagnostics.seedPairsTotal = total Candidate.pairs candidates
  pairsSelected : plan.diagnostics.seedPairsSelected = min (total Candidate.pairs candidates) budget
  /-- The pairs of the selected buckets are as many as the budget allows. -/
  sum_selected : (plan.buckets.map PlannedBucket.selectedPairs).sum =
    min (total Candidate.pairs candidates) budget
  pairsSkipped : plan.diagnostics.seedPairsSkipped +
    min (total Candidate.pairs candidates) budget = total Candidate.pairs candidates
  candidates_eq : plan.diagnostics.candidateBuckets = candidates.length
  selected : plan.diagnostics.candidateBucketsSelected = plan.buckets.length
  /-- Every candidate is selected or skipped. -/
  skipped : plan.diagnostics.candidateBucketsSelected +
    plan.diagnostics.candidateBucketsSkipped = candidates.length
  nonempty : ∀ bucket ∈ plan.buckets, 0 < bucket.selectedPairs ∧
    bucket.selectedPairs ≤ (bucketSeeds bucket.occurrences).length
  /-- At most one bucket is selected in part, and it is the last one. -/
  cut_le : plan.diagnostics.candidateBucketsPartiallySelected ≤ 1
  cut_eq : plan.diagnostics.candidateBucketsPartiallySelected =
    plan.buckets.countP (fun bucket =>
      bucket.selectedPairs < (bucketSeeds bucket.occurrences).length)
  whole : ∀ bucket ∈ plan.buckets.dropLast,
    bucket.selectedPairs = (bucketSeeds bucket.occurrences).length
  /-- The selected buckets are the first candidates. -/
  front : plan.buckets.map PlannedBucket.occurrences <+: candidates.map Prod.snd

lemma planAccounts (order : KeyedList.IterationOrder Candidate) (index : WindowIndex)
    (budget : ℕ) (rareFirst : Bool)
    (hfit : total pairs (planCandidates order index rareFirst) ≤ u64Max) :
    PlanAccounts (planCandidates order index rareFirst) budget
      (CandidatePlan.build order index budget rareFirst) := by
  let candidates := planCandidates order index rareFirst
  have hpos : ∀ candidate ∈ candidates, 0 < candidate.pairs := fun candidate h => pairs_pos h
  have hstart : Planned candidates.length [] ⟨budget, [], 0⟩
      ⟨budget, ⟨[], { candidateBuckets := candidates.length }⟩⟩ :=
    ⟨rfl, rfl, rfl, rfl, rfl, rfl, rfl, rfl, Nat.le_refl 0⟩
  have hplan := hstart.foldl candidates hfit
  obtain ⟨htaken, hskipped⟩ := Pass.foldl_offer hpos ⟨budget, [], 0⟩
  rw [nil_append] at htaken
  rw [Nat.zero_add] at hskipped
  let plan := CandidatePlan.build order index budget rareFirst
  have hbuckets : plan.buckets = (fill pairs budget candidates).map toPlanned := by
    rw [← htaken]
    exact hplan.buckets
  have hsum : ((fill pairs budget candidates).map Prod.snd).sum =
      min (total pairs candidates) budget := sum_fill budget candidates
  have htotal : plan.diagnostics.seedPairsTotal = total pairs candidates :=
    hplan.pairsTotal
  have hselected : plan.diagnostics.seedPairsSelected =
      min (total pairs candidates) budget := by
    rw [← hsum, ← htaken]
    exact hplan.pairsSelected
  have hcut : plan.diagnostics.candidateBucketsPartiallySelected =
      (fill pairs budget candidates).countP (fun taken => taken.2 < taken.1.pairs) := by
    rw [← htaken]
    exact hplan.cut
  have hlength : plan.diagnostics.candidateBucketsSelected =
      (fill pairs budget candidates).length := by
    rw [← htaken]
    exact hplan.selected
  change PlanAccounts candidates budget plan
  constructor
  · exact htotal
  · exact hselected
  · rw [hbuckets, map_map]
    exact hsum
  · rw [PlanDiagnostics.seedPairsSkipped, htotal, hselected]
    exact Nat.sub_add_cancel (Nat.min_le_left _ _)
  · exact hplan.candidates_eq
  · rw [hlength, hbuckets, length_map]
  · rw [hlength, Nat.add_comm, ← hskipped]
    exact congrArg (· + _) hplan.skipped
  · intro bucket hbucket
    rw [hbuckets] at hbucket
    obtain ⟨taken, hmem, rfl⟩ := mem_map.mp hbucket
    exact fill_pos hpos hmem
  · rw [hcut]
    exact countP_cut_le_one budget candidates
  · rw [hcut, hbuckets, countP_map]
    rfl
  · intro bucket hbucket
    rw [hbuckets, ← map_dropLast] at hbucket
    obtain ⟨taken, hmem, rfl⟩ := mem_map.mp hbucket
    exact whole_of_mem_dropLast budget candidates hmem
  · have hprefix := (Filling.fill_prefix pairs budget candidates).map Prod.snd
    rw [map_map] at hprefix
    rw [hbuckets, map_map]
    exact hprefix

instance : Std.TransCmp rareFirstOrder :=
  inferInstanceAs (Std.TransCmp (compareLex (compareOn fun c : Candidate => c.2.length)
    (compareLex (compareOn fun c : Candidate => c.1.1.toNat)
      (compareOn fun c : Candidate => c.1.2.toNat))))

/-- Rare buckets come first, when that is asked for. -/
lemma planCandidates_rareFirst (order : KeyedList.IterationOrder Candidate)
    (index : WindowIndex) :
    (planCandidates order index true).Pairwise fun a b => a.2.length ≤ b.2.length := by
  refine (pairwise_sortBy rareFirstOrder _).imp ?_
  intro a b hab
  by_contra hlt
  apply hab
  rw [rareFirstOrder, Nat.compare_eq_gt.mpr (not_le.mp hlt)]
  rfl

/-! ## The search of a pool -/

section

variable {S : Type} [Score S] (prepared : List PreparedFile) (minTokens : ℕ) (threshold : S)

/-- A seed is counted, unless the budget is spent. -/
lemma candidateStepFast_counts (seedPairLimit matchLimit : ℕ) (s : Stores S × ℕ)
    (seed : Occurrence × Occurrence) :
    match candidateStepFast prepared minTokens threshold seedPairLimit matchLimit s seed with
    | (s', none) => s.2 < seedPairLimit ∧ s'.2 = satAdd s.2 1
    | (_, some run) => run.matchLimitReached = false → seedPairLimit ≤ run.seedPairsCompleted := by
  obtain ⟨st, completed⟩ := s
  obtain ⟨a, b⟩ := seed
  unfold candidateStepFast
  dsimp only
  by_cases hspent : completed ≥ seedPairLimit
  · rw [if_pos hspent]
    exact fun _ => hspent
  · rw [if_neg hspent]
    by_cases hreject : (sameFileSeedOverlaps a b minTokens
        || (seedIsCovered noVerification st.coveredDiagonals a b minTokens ()).1) = true
    · rw [if_pos hreject]
      exact ⟨not_le.mp hspent, rfl⟩
    · rw [if_neg hreject]
      cases (maximalQualifiedMatch noVerification prepared a b minTokens threshold ()).1 with
      | none => exact ⟨not_le.mp hspent, rfl⟩
      | some m =>
        unfold recordMatchFast
        dsimp only
        by_cases hseen : canonicalRegionKey (m.region a b) ∈ st.seenRegions
        · rw [if_pos hseen]
          exact ⟨not_le.mp hspent, rfl⟩
        · rw [if_neg hseen]
          by_cases hexact : (originalsEqual noVerification prepared (m.region a b) ()).1 = true
          · rw [if_pos hexact]
            exact ⟨not_le.mp hspent, rfl⟩
          · rw [if_neg hexact]
            by_cases hfull :
                (st.enter prepared (m.region a b) m.similarity).found.length ≥ matchLimit
            · rw [if_pos hfull]
              intro hnot
              exact not_lt.mp (of_decide_eq_false hnot)
            · rw [if_neg hfull]
              exact ⟨not_le.mp hspent, rfl⟩

lemma run_candidateStepFast_counts {seedPairLimit : ℕ} (hlimit : seedPairLimit ≤ u64Max)
    (matchLimit : ℕ) (seeds : List (Occurrence × Occurrence)) :
    ∀ s : Stores S × ℕ, s.2 ≤ seedPairLimit →
      match run (candidateStepFast prepared minTokens threshold seedPairLimit matchLimit)
        seeds s with
      | (s', none) => s'.2 = s.2 + seeds.length ∧ s'.2 ≤ seedPairLimit
      | (_, some run) => run.matchLimitReached = false →
          seedPairLimit ≤ run.seedPairsCompleted := by
  induction seeds with
  | nil => exact fun s hle => ⟨rfl, hle⟩
  | cons seed rest ih =>
    intro s hle
    have hstep := candidateStepFast_counts prepared minTokens threshold seedPairLimit matchLimit s
      seed
    unfold run
    rcases hbody : candidateStepFast prepared minTokens threshold seedPairLimit matchLimit s seed
      with ⟨s', result⟩
    rw [hbody] at hstep
    cases result with
    | some run => exact hstep
    | none =>
      obtain ⟨hlt, hnext⟩ := hstep
      rw [satAdd_eq (by omega)] at hnext
      have hrest := ih s' (by omega)
      dsimp only
      rcases hrun : run (candidateStepFast prepared minTokens threshold seedPairLimit
        matchLimit) rest s' with ⟨s'', result⟩
      rw [hrun] at hrest
      cases result with
      | some run => exact hrest
      | none =>
        refine ⟨?_, hrest.2⟩
        rw [hrest.1, hnext, length_cons]
        omega

lemma detectCandidatesFast_completed (bucket : PlannedBucket)
    (hlimit : bucket.selectedPairs ≤ u64Max)
    (hle : bucket.selectedPairs ≤ (bucketSeeds bucket.occurrences).length) (st : Stores S)
    (matchLimit : ℕ) :
    let run := (detectCandidatesFast prepared bucket.occurrences minTokens threshold st
      bucket.selectedPairs matchLimit).2
    run.seedPairsCompleted ≤ bucket.selectedPairs ∧
      (run.matchLimitReached = false → run.seedPairsCompleted = bucket.selectedPairs) := by
  intro run
  have hupper : run.seedPairsCompleted ≤ bucket.selectedPairs :=
    (detectCandidates_agrees prepared minTokens threshold bucket.selectedPairs matchLimit
      (fun _ w => w) bucket.occurrences ⟨st, {}, ()⟩ (by rw [Nat.zero_add]; exact hlimit)).2.2.2
  refine ⟨hupper, fun hnot => Nat.le_antisymm hupper ?_⟩
  have hcounts := run_candidateStepFast_counts prepared minTokens threshold hlimit matchLimit
    (bucketSeeds bucket.occurrences) (st, 0) (Nat.zero_le _)
  simp only [run, detectCandidatesFast] at hnot ⊢
  by_cases hfull : st.found.length ≥ matchLimit
  · rw [if_pos hfull] at hnot
    exact absurd hnot Bool.noConfusion
  · rw [if_neg hfull] at hnot ⊢
    rcases hrun : Loop.run (candidateStepFast prepared minTokens threshold bucket.selectedPairs
      matchLimit) (bucketSeeds bucket.occurrences) (st, 0) with ⟨⟨st', completed⟩, result⟩
    rw [hrun] at hnot hcounts
    cases result with
    | none =>
      dsimp only at hcounts ⊢
      omega
    | some run => exact hcounts hnot

/-- The searches of the buckets add up what they have looked at. -/
lemma run_searchBucketFast_completed (matchLimit : ℕ) (buckets : List PlannedBucket)
    (hbuckets : ∀ bucket ∈ buckets,
      bucket.selectedPairs ≤ (bucketSeeds bucket.occurrences).length) :
    ∀ s : Stores S × ℕ, s.2 + (buckets.map PlannedBucket.selectedPairs).sum ≤ u64Max →
      (run (searchBucketFast prepared minTokens threshold matchLimit) buckets s).1.2 ≤
          s.2 + (buckets.map PlannedBucket.selectedPairs).sum ∧
        ((run (searchBucketFast prepared minTokens threshold matchLimit) buckets s).2 = none →
          (run (searchBucketFast prepared minTokens threshold matchLimit) buckets s).1.2 =
            s.2 + (buckets.map PlannedBucket.selectedPairs).sum) := by
  induction buckets with
  | nil => exact fun s _ => ⟨Nat.le_refl _, fun _ => rfl⟩
  | cons bucket rest ih =>
    intro s hfit
    rw [map_cons, sum_cons] at hfit ⊢
    have hbucket := detectCandidatesFast_completed prepared minTokens threshold bucket
      (by omega) (hbuckets bucket mem_cons_self) s.1 matchLimit
    unfold run
    simp only [searchBucketFast]
    rcases hrun : detectCandidatesFast prepared bucket.occurrences minTokens threshold s.1
      bucket.selectedPairs matchLimit with ⟨st, run⟩
    rw [hrun] at hbucket
    dsimp only at hbucket ⊢
    have hsum : satAdd s.2 run.seedPairsCompleted = s.2 + run.seedPairsCompleted :=
      satAdd_eq (by omega)
    by_cases hreached : run.matchLimitReached = true
    · rw [if_pos hreached]
      dsimp only
      exact ⟨by omega, fun h => nomatch h⟩
    · rw [if_neg hreached]
      have hall := hbucket.2 (Bool.eq_false_iff.mpr hreached)
      rw [hsum, hall]
      have hrest := ih (fun other hother => hbuckets other (mem_cons_of_mem bucket hother))
        (st, s.2 + bucket.selectedPairs) (by dsimp only; omega)
      rw [Nat.add_assoc] at hrest
      exact hrest

/-! ## The run -/

variable (xxh3_64 : List UInt8 → UInt64) (order : KeyedList.IterationOrder Candidate)
variable (inputs : List DupInput)

def poolIndex (files : List ℕ) : WindowIndex :=
  files.foldl (indexFileFast xxh3_64 prepared minTokens) []

/-- The seed pairs of a pool. A pool without a file of a window's length is not indexed. -/
def poolPairs (files : List ℕ) : ℕ :=
  if files.any fun file => (tokensOf prepared file).length ≥ minTokens then
    total Candidate.pairs
      ((poolIndex prepared minTokens xxh3_64 files).filter fun bucket => bucket.2.length ≥ 2)
  else 0

/-- **The search of a pool** looks at the pairs its plan selected, unless it reaches the limit of
matches. -/
lemma searchPoolFast_accounts (files : List ℕ) (seenRegions : List Region)
    (limits : Type2Limits)
    (hfit : total pairs (planCandidates order
      (poolIndex prepared minTokens xxh3_64 files) limits.rareFirst) ≤ u64Max) :
    let pairs := total pairs (planCandidates order
      (poolIndex prepared minTokens xxh3_64 files) limits.rareFirst)
    let search := searchPoolFast xxh3_64 order prepared files minTokens threshold seenRegions limits
    search.plan.seedPairsTotal = pairs ∧
      search.seedPairsCompleted ≤ min pairs limits.maxSeedPairsPerPool ∧
      (search.matchLimitReached = false →
        search.seedPairsCompleted = min pairs limits.maxSeedPairsPerPool) := by
  intro pairs search
  have hplan := planAccounts order (poolIndex prepared minTokens xxh3_64 files)
    limits.maxSeedPairsPerPool limits.rareFirst hfit
  have hsum := hplan.sum_selected
  have hrun := run_searchBucketFast_completed prepared minTokens threshold limits.maxMatchesPerPool
    _ (fun bucket hbucket => (hplan.nonempty bucket hbucket).2)
    ((⟨[], seenRegions, []⟩, 0) : Stores S × ℕ) (by dsimp only; omega)
  rw [hsum, Nat.zero_add] at hrun
  refine ⟨hplan.pairsTotal, hrun.1, fun hnot => hrun.2 ?_⟩
  exact Option.not_isSome_iff_eq_none.mp (Bool.eq_false_iff.mp hnot)

structure PoolAccounts (budget : ℕ) (files : List ℕ) (outcome : PoolOutcome) : Prop where
  total_eq : outcome.plan.seedPairsTotal = poolPairs prepared minTokens xxh3_64 files
  completed_le : outcome.seedPairsCompleted ≤
    min (poolPairs prepared minTokens xxh3_64 files) budget
  completed_eq : outcome.matchLimitReached = false → outcome.seedPairsCompleted =
    min (poolPairs prepared minTokens xxh3_64 files) budget

lemma detectPoolFast_accounts (pool : String) (files : List ℕ) (results : Results S)
    (limits : Type2Limits) (hfit : poolPairs prepared minTokens xxh3_64 files ≤ u64Max) :
    PoolAccounts prepared minTokens xxh3_64 limits.maxSeedPairsPerPool files
      (detectPoolFast xxh3_64 order inputs prepared pool files minTokens threshold results
        limits).2 := by
  unfold detectPoolFast
  by_cases hlong : files.any fun file => (tokensOf prepared file).length ≥ minTokens
  · have hpairs : poolPairs prepared minTokens xxh3_64 files = total pairs
        (planCandidates order (poolIndex prepared minTokens xxh3_64 files) limits.rareFirst) := by
      rw [poolPairs, if_pos hlong]
      exact (total_of_perm (planCandidates_perm order _ _)).symm
    rw [hpairs] at hfit
    obtain ⟨htotal, hle, heq⟩ := searchPoolFast_accounts prepared minTokens threshold xxh3_64 order
      files results.seenRegions limits hfit
    rw [hlong, Bool.not_true, if_neg Bool.false_ne_true]
    rw [← hpairs] at htotal hle heq
    exact ⟨htotal, hle, heq⟩
  · have hpairs : poolPairs prepared minTokens xxh3_64 files = 0 := by
      rw [poolPairs, if_neg hlong]
    rw [Bool.eq_false_iff.mpr hlong, Bool.not_false, if_pos rfl]
    constructor
    · rw [hpairs]
    · exact Nat.zero_le _
    · intro _
      rw [hpairs, Nat.zero_min]

def runOutcome (limits : Type2Limits) (acc : Results S × List PoolOutcome)
    (pool : String × List ℕ) : Results S × List PoolOutcome :=
  let (results, outcome) := detectPoolFast xxh3_64 order inputs prepared pool.1 pool.2 minTokens
    threshold acc.1 limits
  (results, acc.2 ++ [outcome])

def runPools : List (String × List ℕ) :=
  if minTokens = 0 ∨ prepared = [] then [] else poolsOf prepared

def runOutcomes (minSimilarity : S) (limits : Type2Limits) : List PoolOutcome :=
  ((runPools prepared minTokens).foldl
    (runOutcome prepared minTokens (Score.normalizeThreshold minSimilarity) xxh3_64 order inputs
      limits) (⟨[], []⟩, [])).2

lemma foldl_runPoolFast (limits : Type2Limits) (pools : List (String × List ℕ)) :
    ∀ (results : Results S) (outcomes : List PoolOutcome),
      (pools.foldl (runPoolFast xxh3_64 order inputs prepared minTokens threshold limits)
        (results, outcomes.foldl recordPool {})).2 =
      (pools.foldl (runOutcome prepared minTokens threshold xxh3_64 order inputs limits)
        (results, outcomes)).2.foldl recordPool {} := by
  induction pools with
  | nil => exact fun _ _ => rfl
  | cons pool rest ih =>
    intro results outcomes
    rw [foldl_cons, foldl_cons, runOutcome, ← ih]
    rw [runPoolFast, foldl_append]
    rfl

lemma foldl_runOutcome_accounts (limits : Type2Limits) (pools : List (String × List ℕ))
    (hfit : ∀ pool ∈ pools, poolPairs prepared minTokens xxh3_64 pool.2 ≤ u64Max) :
    ∀ (results : Results S) (outcomes : List PoolOutcome), ∃ later : List PoolOutcome,
      (pools.foldl (runOutcome prepared minTokens threshold xxh3_64 order inputs limits)
        (results, outcomes)).2 = outcomes ++ later ∧
      List.Forall₂ (fun pool outcome => PoolAccounts prepared minTokens xxh3_64
        limits.maxSeedPairsPerPool pool.2 outcome) pools later := by
  induction pools with
  | nil => exact fun _ outcomes => ⟨[], (append_nil outcomes).symm, Forall₂.nil⟩
  | cons pool rest ih =>
    intro results outcomes
    have hpool := detectPoolFast_accounts prepared minTokens threshold xxh3_64 order inputs pool.1
      pool.2 results limits (hfit pool mem_cons_self)
    obtain ⟨later, hlater, hall⟩ := ih
      (fun other hother => hfit other (mem_cons_of_mem pool hother))
      (runOutcome prepared minTokens threshold xxh3_64 order inputs limits (results, outcomes)
        pool).1
      (runOutcome prepared minTokens threshold xxh3_64 order inputs limits (results, outcomes)
        pool).2
    refine ⟨_ :: later, ?_, Forall₂.cons hpool hall⟩
    rw [foldl_cons, hlater, runOutcome, append_assoc]
    rfl

lemma foldl_recordPool_skipped (outcomes : List PoolOutcome)
    (hle : ∀ outcome ∈ outcomes, outcome.seedPairsCompleted ≤ outcome.plan.seedPairsTotal) :
    ∀ d : Type2Diagnostics,
      d.seedPairsSkipped + (outcomes.map fun outcome => outcome.plan.seedPairsTotal).sum ≤ u64Max →
      (outcomes.foldl recordPool d).seedPairsSkipped +
          (outcomes.map PoolOutcome.seedPairsCompleted).sum =
        d.seedPairsSkipped + (outcomes.map fun outcome => outcome.plan.seedPairsTotal).sum := by
  induction outcomes with
  | nil => exact fun d _ => rfl
  | cons outcome rest ih =>
    intro d hfit
    have hfirst := hle outcome mem_cons_self
    rw [map_cons, sum_cons] at hfit
    have hskipped : (d.recordPool outcome).seedPairsSkipped = d.seedPairsSkipped +
        (outcome.plan.seedPairsTotal - outcome.seedPairsCompleted) := satAdd_eq (by omega)
    have hrest := ih (fun other hother => hle other (mem_cons_of_mem outcome hother))
      (d.recordPool outcome) (by rw [hskipped]; omega)
    rw [foldl_cons, map_cons, sum_cons, map_cons, sum_cons]
    omega

lemma diagnostics_eq (minSimilarity : S) (limits : Type2Limits) :
    (detectPreparedWithLimits xxh3_64 order inputs prepared minTokens minSimilarity
      limits).diagnostics =
    (runOutcomes prepared minTokens xxh3_64 order inputs minSimilarity limits).foldl
      recordPool {} := by
  unfold detectPreparedWithLimits runOutcomes runPools
  by_cases hnone : minTokens = 0 ∨ prepared = []
  · rw [if_pos hnone, if_pos hnone]
    rfl
  · rw [if_neg hnone, if_neg hnone]
    exact foldl_runPoolFast prepared minTokens (Score.normalizeThreshold minSimilarity) xxh3_64
      order inputs limits (poolsOf prepared) ⟨[], []⟩ []

structure RunAccounts (minSimilarity : S) (limits : Type2Limits)
    (diagnostics : Type2Diagnostics) : Prop where
  pools : List.Forall₂ (fun pool outcome =>
      PoolAccounts prepared minTokens xxh3_64 limits.maxSeedPairsPerPool pool.2 outcome)
    (runPools prepared minTokens)
    (runOutcomes prepared minTokens xxh3_64 order inputs minSimilarity limits)
  /-- The pairs looked at and the pairs skipped are all pairs. -/
  skipped : ((runOutcomes prepared minTokens xxh3_64 order inputs minSimilarity limits).map
      PoolOutcome.seedPairsCompleted).sum + diagnostics.seedPairsSkipped =
    ((runPools prepared minTokens).map fun pool => poolPairs prepared minTokens xxh3_64 pool.2).sum

lemma sum_poolPairs {budget : ℕ} {pools : List (String × List ℕ)} {outcomes : List PoolOutcome}
    (h : List.Forall₂ (fun pool outcome =>
      PoolAccounts prepared minTokens xxh3_64 budget pool.2 outcome) pools outcomes) :
    (outcomes.map fun outcome => outcome.plan.seedPairsTotal).sum =
        (pools.map fun pool => poolPairs prepared minTokens xxh3_64 pool.2).sum ∧
      ∀ outcome ∈ outcomes, outcome.seedPairsCompleted ≤ outcome.plan.seedPairsTotal := by
  induction h with
  | nil => exact ⟨rfl, nofun⟩
  | cons hpool _ ih =>
    obtain ⟨hsum, hle⟩ := ih
    constructor
    · rw [map_cons, sum_cons, map_cons, sum_cons, hsum, hpool.total_eq]
    · intro outcome houtcome
      rcases mem_cons.mp houtcome with rfl | houtcome
      · rw [hpool.total_eq]
        exact hpool.completed_le.trans (Nat.min_le_left _ _)
      · exact hle outcome houtcome

/-- **The accounts of a run.** -/
lemma runAccounts (minSimilarity : S) (limits : Type2Limits)
    (hfit : ((runPools prepared minTokens).map fun pool =>
      poolPairs prepared minTokens xxh3_64 pool.2).sum ≤ u64Max) :
    RunAccounts prepared minTokens xxh3_64 order inputs minSimilarity limits
      (detectPreparedWithLimits xxh3_64 order inputs prepared minTokens minSimilarity
        limits).diagnostics := by
  have heach : ∀ pool ∈ runPools prepared minTokens,
      poolPairs prepared minTokens xxh3_64 pool.2 ≤ u64Max := by
    intro pool hpool
    exact (single_le_sum (fun _ _ => Nat.zero_le _) _ (mem_map_of_mem hpool)).trans hfit
  obtain ⟨later, hlater, hall⟩ := foldl_runOutcome_accounts prepared minTokens
    (Score.normalizeThreshold minSimilarity) xxh3_64 order inputs limits
    (runPools prepared minTokens) heach ⟨[], []⟩ []
  have houtcomes : runOutcomes prepared minTokens xxh3_64 order inputs minSimilarity limits =
      later := hlater
  obtain ⟨hsum, hle⟩ := sum_poolPairs prepared minTokens xxh3_64 hall
  have hskipped := foldl_recordPool_skipped later hle {} (by rw [hsum, Nat.zero_add]; exact hfit)
  constructor
  · rw [houtcomes]
    exact hall
  · rw [diagnostics_eq, houtcomes, Nat.add_comm, hskipped, hsum]
    exact Nat.zero_add _

end

/-! ## The accounts -/

/-- **The plan fills its budget and the run adds up.**  The pairs of the selected buckets are the
smaller of all pairs and the budget, every candidate is selected or skipped, only the last
selected one may be selected in part, and the candidates are taken rarest first when the limits
ask for that.  Over a run, observed or not, the pairs looked at and the pairs skipped are all
pairs. -/
theorem candidate_plan_accounts :
    (∀ (order : KeyedList.IterationOrder Candidate) (index : WindowIndex) (budget : ℕ)
        (rareFirst : Bool),
      total Candidate.pairs (planCandidates order index rareFirst) ≤ u64Max →
      (planCandidates order index rareFirst).Perm
          (index.filter fun bucket => bucket.2.length ≥ 2) ∧
        PlanAccounts (planCandidates order index rareFirst) budget
          (CandidatePlan.build order index budget rareFirst) ∧
        (rareFirst = true → (planCandidates order index rareFirst).Pairwise
          fun a b => a.2.length ≤ b.2.length)) ∧
      ∀ (S σ : Type) [Score S] (xxh3_64 : List UInt8 → UInt64)
        (order : KeyedList.IterationOrder Candidate) (inputs : List DupInput)
        (prepared : List PreparedFile) (reporter : ProgressReporter S σ) (minTokens : ℕ)
        (minSimilarity : S) (limits : Type2Limits) (w : σ),
      ((runPools prepared minTokens).map fun pool =>
        poolPairs prepared minTokens xxh3_64 pool.2).sum ≤ u64Max →
      RunAccounts prepared minTokens xxh3_64 order inputs minSimilarity limits
          (detectPreparedWithLimits xxh3_64 order inputs prepared minTokens minSimilarity
            limits).diagnostics ∧
        RunAccounts prepared minTokens xxh3_64 order inputs minSimilarity limits
          (detectPreparedWithLimitsAndProgressInterval xxh3_64 order inputs prepared reporter
            minTokens minSimilarity limits w).1.diagnostics := by
  constructor
  · intro order index budget rareFirst hfit
    refine ⟨planCandidates_perm order index rareFirst,
      planAccounts order index budget rareFirst hfit, ?_⟩
    rintro rfl
    exact planCandidates_rareFirst order index
  · intro S σ _ xxh3_64 order inputs prepared reporter minTokens minSimilarity limits w hfit
    have hrun := runAccounts prepared minTokens xxh3_64 order inputs minSimilarity limits hfit
    refine ⟨hrun, ?_⟩
    rw [detectPrepared_fst]
    exact hrun

/-- Two buckets, the more frequent one first. -/
def frequentFirst : WindowIndex :=
  [((0, 0), [⟨0, 0⟩, ⟨0, 9⟩, ⟨1, 0⟩]), ((1, 0), [⟨0, 1⟩, ⟨1, 1⟩])]

theorem candidate_plan_accounts_frequentFirst :
    ((CandidatePlan.build (.insertion _) frequentFirst 2 true).buckets.map
        PlannedBucket.selectedPairs).sum = 2 ∧
      RunAccounts (prepare characterFrontend .exact renamedStatements) 4 (fun _ => 0)
        (.insertion _) renamedStatements ((4 : ℚ) / 5) .default
        (detectPreparedWithLimits (fun _ => 0) (.insertion _) renamedStatements
          (prepare characterFrontend .exact renamedStatements) 4 ((4 : ℚ) / 5)
          .default).diagnostics := by
  constructor
  · have hplan := candidate_plan_accounts.1 (.insertion _) frequentFirst 2 true (by decide)
    exact hplan.2.1.sum_selected
  · exact (candidate_plan_accounts.2 ℚ ℕ (fun _ => 0) (.insertion _) renamedStatements
      (prepare characterFrontend .exact renamedStatements)
      ⟨fun _ n => n + 1, fun _ n => n + 1, true⟩ 4 (4 / 5) .default 0 (by decide +kernel)).1

/-- Without being asked for, the rare bucket is not taken first. -/
theorem not_rareFirst_frequentFirst :
    ¬∀ (order : KeyedList.IterationOrder Candidate) (index : WindowIndex) (budget : ℕ)
        (rareFirst : Bool),
      total Candidate.pairs (planCandidates order index rareFirst) ≤ u64Max →
      ((CandidatePlan.build order index budget rareFirst).buckets.map
        fun bucket => bucket.occurrences.length).Pairwise (· ≤ ·) := by
  intro h
  have hsorted := h (.insertion _) frequentFirst u64Max false (by decide)
  revert hsorted
  decide

end Reposcout.Dup.Fuzzy
