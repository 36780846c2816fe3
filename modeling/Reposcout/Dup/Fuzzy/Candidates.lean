import Reposcout.Framework.Loop
import Reposcout.Dup.Fuzzy.Verification

/-!
# Candidate search and overlap suppression

The seed pairs of one planned bucket are verified one after the other, within a budget of
pairs and of matches.  The source writes this loop twice: `detectCandidatesFast` for the
unobserved detector and `detectCandidates` for the detector with a progress callback, which
keeps its own counters and derives the spent budget from them.  Both are embedded as they
are written; the state `σ` stands for whatever the callback reads and changes.
-/

namespace Reposcout.Dup.Fuzzy

open KeyedList

/-! ## Covered diagonals -/

structure DiagonalKey where
  firstFile : Nat
  secondFile : Nat
  tokenDelta : Int
  deriving DecidableEq

def diagonalKey (aFile aStart bFile bStart : Nat) : DiagonalKey × Nat :=
  if aFile < bFile ∨ (aFile = bFile ∧ aStart ≤ bStart) then
    (⟨aFile, bFile, (bStart : Int) - aStart⟩, aStart)
  else (⟨bFile, aFile, (aStart : Int) - bStart⟩, bStart)

abbrev CoveredDiagonals := List (DiagonalKey × MergedIntervals)

def seedIsCovered {ω : Type} (verification : VerificationObserver ω)
    (covered : CoveredDiagonals) (a b : Occurrence) (len : Nat) (w : ω) : Bool × ω :=
  let (key, start) := diagonalKey a.file a.start b.file b.start
  match get? key covered with
  | some regions => (regions.covers start (satAdd start len), verification.compared w)
  | none => (false, w)

def rememberRegion (covered : CoveredDiagonals) (r : Region) : CoveredDiagonals :=
  let (key, start) := diagonalKey r.aFile r.aStart r.bFile r.bStart
  KeyedList.alter key
    (fun o => (o.getD MergedIntervals.empty).insert start (satAdd start r.len)) covered

/-! ## Matches -/

structure CandidateMatch (S : Type) where
  firstFile : Nat
  firstStart : Nat
  secondFile : Nat
  secondStart : Nat
  len : Nat
  lines : Nat
  similarity : S

def tokenLineSpan (prepared : List PreparedFile) (file start len : Nat) : Nat :=
  match (tokensOf prepared file)[start]?, (tokensOf prepared file)[start + len - 1]? with
  | some first, some last => Dup.tokenLineSpan first last
  | _, _ => 0

/-- The match of a region, with the smaller side first. -/
def candidateMatch {S : Type} (prepared : List PreparedFile) (r : Region) (similarity : S) :
    CandidateMatch S :=
  let c := canonicalRegionKey r
  { firstFile := c.aFile
    firstStart := c.aStart
    secondFile := c.bFile
    secondStart := c.bStart
    len := c.len
    lines := max (tokenLineSpan prepared c.aFile c.aStart c.len)
      (tokenLineSpan prepared c.bFile c.bStart c.len)
    similarity }

structure CandidateStats where
  bucketsCompleted : Nat := 0
  seedPairsCompleted : Nat := 0
  seedsVerified : Nat := 0
  seedsSkippedSameFileOverlap : Nat := 0
  seedsSkippedCovered : Nat := 0
  coveredRegionChecks : Nat := 0
  verificationTokensCompared : Nat := 0
  qualifiedMatches : Nat := 0
  duplicateRegionsRejected : Nat := 0
  exactMatchesRejected : Nat := 0
  matchesBuffered : Nat := 0

structure CandidateRun where
  seedPairsCompleted : Nat := 0
  matchLimitReached : Bool := false

/-- The stores that live across the buckets of a pool: the matches in the order in which they
were found, the regions matched in any pool, and the covered diagonals. -/
structure Stores (S : Type) where
  found : List (CandidateMatch S)
  seenRegions : List Region
  coveredDiagonals : CoveredDiagonals

section

variable {S σ : Type} [Score S]

def QualifiedMatch.region (m : QualifiedMatch S) (a b : Occurrence) : Region :=
  ⟨a.file, m.aStart, b.file, m.bStart, m.len⟩

def Stores.enter (st : Stores S) (prepared : List PreparedFile) (r : Region)
    (similarity : S) : Stores S where
  found := st.found ++ [candidateMatch prepared r similarity]
  seenRegions := canonicalRegionKey r :: st.seenRegions
  coveredDiagonals := rememberRegion st.coveredDiagonals r

def Stores.cover (st : Stores S) (r : Region) : Stores S :=
  { st with coveredDiagonals := rememberRegion st.coveredDiagonals r }

/-! ## The unobserved loop -/

/-- The end of the loop body, once a seed has qualified; the counter is
`seed_pairs_completed`. -/
def recordMatchFast (prepared : List PreparedFile) (seedPairLimit matchLimit : Nat)
    (s : Stores S × Nat) (region : Region) (similarity : S) :
    (Stores S × Nat) × Option CandidateRun :=
  let (st, seedPairsCompleted) := s
  if canonicalRegionKey region ∈ st.seenRegions then (s, none)
  else if (originalsEqual noVerification prepared region ()).1 then
    ((st.cover region, seedPairsCompleted), none)
  else
    let st := st.enter prepared region similarity
    if st.found.length ≥ matchLimit then
      ((st, seedPairsCompleted), some ⟨seedPairsCompleted, seedPairsCompleted < seedPairLimit⟩)
    else ((st, seedPairsCompleted), none)

/-- The body of the seed loop of `detect_candidates_fast`. -/
def candidateStepFast (prepared : List PreparedFile) (minTokens : Nat) (threshold : S)
    (seedPairLimit matchLimit : Nat) (s : Stores S × Nat) (seed : Occurrence × Occurrence) :
    (Stores S × Nat) × Option CandidateRun :=
  let (st, seedPairsCompleted) := s
  let (a, b) := seed
  if seedPairsCompleted ≥ seedPairLimit then (s, some ⟨seedPairsCompleted, false⟩)
  else
    let s := (st, satAdd seedPairsCompleted 1)
    if sameFileSeedOverlaps a b minTokens
        || (seedIsCovered noVerification st.coveredDiagonals a b minTokens ()).1 then
      (s, none)
    else
      match (maximalQualifiedMatch noVerification prepared a b minTokens threshold ()).1 with
      | none => (s, none)
      | some m =>
        recordMatchFast prepared seedPairLimit matchLimit s (m.region a b) m.similarity

def detectCandidatesFast (prepared : List PreparedFile) (occurrences : List Occurrence)
    (minTokens : Nat) (threshold : S) (st : Stores S) (seedPairLimit matchLimit : Nat) :
    Stores S × CandidateRun :=
  if st.found.length ≥ matchLimit then (st, { matchLimitReached := true })
  else
    match Loop.run (candidateStepFast prepared minTokens threshold seedPairLimit matchLimit)
        (bucketSeeds occurrences) (st, 0) with
    | ((st, _), some run) => (st, run)
    | ((st, seedPairsCompleted), none) => (st, ⟨seedPairsCompleted, false⟩)

/-! ## The loop with progress -/

/-- The state of `detect_candidates`. -/
structure CandidateState (S σ : Type) where
  stores : Stores S
  stats : CandidateStats
  observed : σ

/-- The end of the loop body of `detect_candidates`, once a seed has qualified. -/
def recordMatch (progress : CandidateStats → σ → σ) (prepared : List PreparedFile)
    (seedPairLimit matchLimit startingSeedPairs : Nat) (s : CandidateState S σ) (region : Region)
    (similarity : S) : CandidateState S σ × Option CandidateRun :=
  let ⟨st, stats, w⟩ := s
  if canonicalRegionKey region ∈ st.seenRegions then
    (⟨st, { stats with duplicateRegionsRejected := satAdd stats.duplicateRegionsRejected 1 }, w⟩,
      none)
  else
    let reportOriginals := fun verificationTokensCompared =>
      progress { stats with verificationTokensCompared }
    let (isExact, verificationTokensCompared, w) :=
      originalsEqual (countingVerification reportOriginals) prepared region
        (stats.verificationTokensCompared, w)
    let stats := { stats with verificationTokensCompared }
    if isExact then
      (⟨st.cover region,
        { stats with exactMatchesRejected := satAdd stats.exactMatchesRejected 1 }, w⟩, none)
    else
      let st := st.enter prepared region similarity
      let stats := { stats with matchesBuffered := st.found.length }
      if st.found.length ≥ matchLimit then
        let bucketSeedPairs := stats.seedPairsCompleted - startingSeedPairs
        (⟨st, stats, w⟩, some ⟨bucketSeedPairs, bucketSeedPairs < seedPairLimit⟩)
      else (⟨st, stats, w⟩, none)

/-- The middle of the loop body: verification of a seed that is not covered yet. -/
def verifySeed (progress : CandidateStats → σ → σ) (prepared : List PreparedFile)
    (minTokens : Nat) (threshold : S) (seedPairLimit matchLimit startingSeedPairs : Nat)
    (s : CandidateState S σ) (a b : Occurrence) : CandidateState S σ × Option CandidateRun :=
  let ⟨st, stats, w⟩ := s
  let stats := { stats with seedsVerified := satAdd stats.seedsVerified 1 }
  let reportVerification := fun verificationTokensCompared =>
    progress { stats with verificationTokensCompared }
  let (qualified, verificationTokensCompared, w) :=
    maximalQualifiedMatch (countingVerification reportVerification) prepared a b minTokens
      threshold (stats.verificationTokensCompared, w)
  let stats := { stats with verificationTokensCompared }
  match qualified with
  | none => (⟨st, stats, w⟩, none)
  | some m =>
    recordMatch progress prepared seedPairLimit matchLimit startingSeedPairs
      ⟨st, { stats with qualifiedMatches := satAdd stats.qualifiedMatches 1 }, w⟩
      (m.region a b) m.similarity

/-- The coverage check of the loop body, before the verification. -/
def checkCoverage (progress : CandidateStats → σ → σ) (prepared : List PreparedFile)
    (minTokens : Nat) (threshold : S) (seedPairLimit matchLimit startingSeedPairs : Nat)
    (s : CandidateState S σ) (a b : Occurrence) : CandidateState S σ × Option CandidateRun :=
  let ⟨st, stats, w⟩ := s
  let reportCoverage := fun coveredRegionChecks => progress { stats with coveredRegionChecks }
  let (covered, coveredRegionChecks, w) :=
    seedIsCovered (countingVerification reportCoverage) st.coveredDiagonals a b minTokens
      (stats.coveredRegionChecks, w)
  let stats := { stats with coveredRegionChecks }
  if covered then
    (⟨st, { stats with seedsSkippedCovered := satAdd stats.seedsSkippedCovered 1 }, w⟩, none)
  else
    verifySeed progress prepared minTokens threshold seedPairLimit matchLimit startingSeedPairs
      ⟨st, stats, w⟩ a b

/-- The body of the seed loop of `detect_candidates`. -/
def candidateStep (progress : CandidateStats → σ → σ) (prepared : List PreparedFile)
    (minTokens : Nat) (threshold : S) (seedPairLimit matchLimit startingSeedPairs : Nat)
    (s : CandidateState S σ) (seed : Occurrence × Occurrence) :
    CandidateState S σ × Option CandidateRun :=
  let ⟨st, stats, w⟩ := s
  let (a, b) := seed
  let bucketSeedPairs := stats.seedPairsCompleted - startingSeedPairs
  if bucketSeedPairs ≥ seedPairLimit then (s, some ⟨bucketSeedPairs, false⟩)
  else
    let stats := { stats with seedPairsCompleted := satAdd stats.seedPairsCompleted 1 }
    let w := if stats.seedPairsCompleted % progressCheckEvery = 0 then progress stats w else w
    if sameFileSeedOverlaps a b minTokens then
      (⟨st, { stats with
        seedsSkippedSameFileOverlap := satAdd stats.seedsSkippedSameFileOverlap 1 }, w⟩, none)
    else
      checkCoverage progress prepared minTokens threshold seedPairLimit matchLimit
        startingSeedPairs ⟨st, stats, w⟩ a b

def detectCandidates (progress : CandidateStats → σ → σ) (prepared : List PreparedFile)
    (occurrences : List Occurrence) (minTokens : Nat) (threshold : S)
    (seedPairLimit matchLimit : Nat) (s : CandidateState S σ) :
    CandidateState S σ × CandidateRun :=
  if s.stores.found.length ≥ matchLimit then (s, { matchLimitReached := true })
  else
    let startingSeedPairs := s.stats.seedPairsCompleted
    match Loop.run (candidateStep progress prepared minTokens threshold seedPairLimit matchLimit
        startingSeedPairs) (bucketSeeds occurrences) s with
    | (s, some run) => (s, run)
    | (s, none) => (s, ⟨s.stats.seedPairsCompleted - startingSeedPairs, false⟩)

/-! ## Suppression of shifted variants -/

structure SuppressionStats where
  matchesCompleted : Nat := 0
  overlapChecks : Nat := 0
  matchesKept : Nat := 0

structure SuppressionOutcome (S : Type) where
  retained : List (CandidateMatch S)
  stats : SuppressionStats
  limitReached : Bool
  matchesSkipped : Nat

def candidateMatchOrder (a b : CandidateMatch S) : Ordering :=
  (compare b.len a.len).then <| (compare b.lines a.lines).then <|
    (Score.totalCmp b.similarity a.similarity).then <|
      (compare a.firstFile b.firstFile).then <| (compare a.firstStart b.firstStart).then <|
        (compare a.secondFile b.secondFile).then (compare a.secondStart b.secondStart)

def sortCandidateMatches (found : List (CandidateMatch S)) : List (CandidateMatch S) :=
  sortBy candidateMatchOrder found

def tokenRangesOverlap (aStart aLen bStart bLen : Nat) : Bool :=
  aStart < bStart + bLen && bStart < aStart + aLen

def candidateMatchesOverlap (a b : CandidateMatch S) : Bool :=
  tokenRangesOverlap a.firstStart a.len b.firstStart b.len
    && tokenRangesOverlap a.secondStart a.len b.secondStart b.len

/-- Why the comparison of a candidate with the retained matches ended early. -/
inductive OverlapVerdict where
  | limitReached | redundant

def overlapStep (maxOverlapChecks : Nat) (progress : SuppressionStats → σ → σ)
    (retained : List (CandidateMatch S)) (candidate : CandidateMatch S)
    (s : SuppressionStats × σ) (index : Nat) :
    (SuppressionStats × σ) × Option OverlapVerdict :=
  let (stats, w) := s
  if stats.overlapChecks ≥ maxOverlapChecks then (s, some .limitReached)
  else
    let stats := { stats with overlapChecks := satAdd stats.overlapChecks 1 }
    let w := if stats.overlapChecks % progressCheckEvery = 0 then progress stats w else w
    let redundant := match retained[index]? with
      | some kept => candidateMatchesOverlap kept candidate
      | none => false
    ((stats, w), if redundant then some .redundant else none)

structure SuppressionState (S σ : Type) where
  retained : List (CandidateMatch S)
  byPair : List ((Nat × Nat) × List Nat)
  stats : SuppressionStats
  observed : σ

/-- The end of the suppression loop body: the candidate is done. -/
def SuppressionState.complete (s : SuppressionState S σ)
    (progress : SuppressionStats → σ → σ) : SuppressionState S σ :=
  let stats := { s.stats with matchesCompleted := satAdd s.stats.matchesCompleted 1 }
  { s with
    stats
    observed := if stats.matchesCompleted % progressCheckEvery = 0 then progress stats s.observed
      else s.observed }

/-- One candidate of the suppression loop; leaving the loop means that the limit of overlap
checks is reached. -/
def suppressionStep (maxOverlapChecks : Nat) (progress : SuppressionStats → σ → σ)
    (s : SuppressionState S σ) (candidate : CandidateMatch S) :
    SuppressionState S σ × Option Unit :=
  let pair := (candidate.firstFile, candidate.secondFile)
  let indices := (get? pair s.byPair).getD []
  match Loop.run (overlapStep maxOverlapChecks progress s.retained candidate) indices
      (s.stats, s.observed) with
  | ((stats, w), some .limitReached) => ({ s with stats, observed := w }, some ())
  | ((stats, w), some .redundant) =>
    (SuppressionState.complete { s with stats, observed := w } progress, none)
  | ((stats, w), none) =>
    let index := s.retained.length
    let retained := s.retained ++ [candidate]
    let byPair := KeyedList.alter pair (fun o => o.getD [] ++ [index]) s.byPair
    let stats := { stats with matchesKept := retained.length }
    (SuppressionState.complete ⟨retained, byPair, stats, w⟩ progress, none)

def suppressSortedOverlappingMatches (found : List (CandidateMatch S)) (maxOverlapChecks : Nat)
    (progress : SuppressionStats → σ → σ) (w : σ) : SuppressionOutcome S × σ :=
  match Loop.run (suppressionStep maxOverlapChecks progress) found ⟨[], [], {}, w⟩ with
  | (s, some ()) =>
    (⟨s.retained, s.stats, true, found.length - s.stats.matchesCompleted⟩, s.observed)
  | (s, none) => (⟨s.retained, s.stats, false, 0⟩, s.observed)

def suppressOverlappingMatchesWithLimit (found : List (CandidateMatch S))
    (maxOverlapChecks : Nat) : SuppressionOutcome S :=
  (suppressSortedOverlappingMatches (sortCandidateMatches found) maxOverlapChecks
    (fun _ w => w) ()).1

end

end Reposcout.Dup.Fuzzy
