import Mathlib.Data.List.Zip
import Reposcout.Properties.Dup.FuzzyAgreement
import Reposcout.Properties.Dup.FuzzyGrowth

/-!
# Soundness of fuzzy clone detection

Every near-duplicate group reports two ranges of one pool that are renamed consistently as a
whole, are not identical, and score what the group says.  The window index holds occurrences
that lie in their files, so every seed is one that `maximalQualifiedMatch_ok` speaks about;
the candidate search enters only verified regions, and suppression and materialization only
select among them.
-/

namespace Reposcout.Dup.Fuzzy

open List KeyedList

/-! ## Verified regions -/

lemma allExactEq_eq_all (v : VerificationObserver Unit) (pairs : List (Token × Token))
    (w : Unit) : (allExactEq v pairs w).1 = pairs.all (fun p => p.1.exactEq p.2) := by
  induction pairs generalizing w with
  | nil => rfl
  | cons pair rest ih =>
    unfold allExactEq
    rw [all_cons]
    split_ifs with hequal
    · rw [hequal, Bool.true_and, ih]
    · rw [Bool.eq_false_iff.mpr hequal, Bool.false_and]

lemma pairsAt_swap (left right : List Token) (aStart bStart len : Nat) :
    (pairsAt left right aStart bStart len).map Prod.swap =
      pairsAt right left bStart aStart len :=
  zip_swap _ _

lemma totalCredit_swap {pairs : List (Token × Token)}
    (h : ∀ p ∈ pairs, p.1.shapeEq p.2 = true) :
    totalCredit (pairs.map Prod.swap) = totalCredit pairs := by
  unfold totalCredit
  rw [map_map]
  exact congrArg sum (map_congr_left fun p hp => pairCredit_swap (h p hp))

/-- What holds of every region that the search enters with a similarity. -/
structure RegionOk (prepared : List PreparedFile) (files : List Nat) (minTokens : Nat)
    (threshold : ℚ) (r : Region) (similarity : ℚ) : Prop where
  a_mem : r.aFile ∈ files
  b_mem : r.bFile ∈ files
  isMatch : MatchOk (tokensOf prepared r.aFile) (tokensOf prepared r.bFile) threshold minTokens
    r.aStart r.bStart r.len similarity
  differs : ∃ p ∈ pairsAt (tokensOf prepared r.aFile) (tokensOf prepared r.bFile) r.aStart
    r.bStart r.len, p.1.exactEq p.2 = false
  apart : r.aFile = r.bFile → r.len ≤ absDiff r.aStart r.bStart

variable {prepared : List PreparedFile} {files : List Nat} {minTokens : Nat} {threshold : ℚ}

lemma RegionOk.swap {r : Region} {similarity : ℚ}
    (h : RegionOk prepared files minTokens threshold r similarity) :
    RegionOk prepared files minTokens threshold ⟨r.bFile, r.bStart, r.aFile, r.aStart, r.len⟩
      similarity where
  a_mem := h.b_mem
  b_mem := h.a_mem
  isMatch := by
    obtain ⟨hleft, hright, hseed, hrenamed, hsimilarity, hthreshold⟩ := h.isMatch
    refine ⟨hright, hleft, hseed, ?_, ?_, hthreshold⟩
    · rw [← pairsAt_swap]
      exact hrenamed.swap
    · rw [hsimilarity, ← totalCredit_swap hrenamed.shape, pairsAt_swap]
  differs := by
    obtain ⟨p, hp, hdiffers⟩ := h.differs
    refine ⟨p.swap, ?_, ?_⟩
    · rw [← pairsAt_swap]
      exact mem_map_of_mem hp
    · rw [Prod.fst_swap, Prod.snd_swap, Token.exactEq_comm]
      exact hdiffers
  apart := by
    intro hsame
    have := h.apart hsame.symm
    unfold absDiff at this ⊢
    dsimp only
    omega

lemma RegionOk.canonical {r : Region} {similarity : ℚ}
    (h : RegionOk prepared files minTokens threshold r similarity) :
    RegionOk prepared files minTokens threshold (canonicalRegionKey r) similarity := by
  unfold canonicalRegionKey
  split_ifs
  · exact h
  · exact h.swap

def CandidateMatch.region (m : CandidateMatch ℚ) : Region :=
  ⟨m.firstFile, m.firstStart, m.secondFile, m.secondStart, m.len⟩

def FoundOk (prepared : List PreparedFile) (files : List Nat) (minTokens : Nat) (threshold : ℚ)
    (found : List (CandidateMatch ℚ)) : Prop :=
  ∀ m ∈ found, RegionOk prepared files minTokens threshold m.region m.similarity

/-! ## The window index -/

/-- Occurrences lie in one of the files, with room for a window. -/
def OccurrencesOk (prepared : List PreparedFile) (files : List Nat) (minTokens : Nat)
    (occurrences : List Occurrence) : Prop :=
  ∀ o ∈ occurrences, o.file ∈ files ∧ o.start + minTokens ≤ (tokensOf prepared o.file).length

lemma length_rolledHashes (hashes : List UInt64) (window : Nat) :
    (rolledHashes hashes window).length = hashes.length - window + 1 := by
  unfold rolledHashes
  rw [length_scanl, length_zip, length_drop]
  omega

variable (xxh3_64 : List UInt8 → UInt64)

lemma indexFileFast_ok {index : WindowIndex}
    (h : ∀ entry ∈ index, OccurrencesOk prepared files minTokens entry.2) {file : Nat}
    (hfile : file ∈ files) : ∀ entry ∈ indexFileFast xxh3_64 prepared minTokens index file,
      OccurrencesOk prepared files minTokens entry.2 := by
  unfold indexFileFast
  dsimp only
  split_ifs with hshort
  · exact h
  · refine List.foldlRecOn
      (motive := fun index : WindowIndex =>
        ∀ entry ∈ index, OccurrencesOk prepared files minTokens entry.2) _ _ h ?_
    intro index hindex entry hentry
    have hstart : entry.2 + minTokens ≤ (tokensOf prepared file).length := by
      have hlt := (List.getElem?_eq_some_iff.mp (mem_zipIdx_iff_getElem?.mp hentry)).1
      rw [length_zip, length_rolledHashes, length_map] at hlt
      omega
    refine forall_mem_alter
      (P := fun _ os => OccurrencesOk prepared files minTokens os) hindex ?_ ?_
    · intro o ho
      obtain rfl : o = ⟨file, entry.2⟩ := by simpa using ho
      exact ⟨hfile, hstart⟩
    · intro os hos o ho
      rw [Option.getD_some, mem_append, mem_singleton] at ho
      rcases ho with ho | rfl
      · exact hos o ho
      · exact ⟨hfile, hstart⟩

variable (order : KeyedList.IterationOrder (Fingerprint × List Occurrence))

lemma mem_build {index : WindowIndex} {maxSeedPairs : Nat} {rareFirst : Bool}
    {bucket : PlannedBucket}
    (h : bucket ∈ (CandidatePlan.build order index maxSeedPairs rareFirst).buckets) :
    ∃ entry ∈ index, entry.2 = bucket.occurrences := by
  unfold CandidatePlan.build at h
  dsimp only at h
  revert h
  have hcandidates : ∀ candidate ∈ (if rareFirst then sortBy rareFirstOrder
      ((order.arrange index).filter (fun bucket => bucket.2.length ≥ 2))
      else (order.arrange index).filter (fun bucket => bucket.2.length ≥ 2)),
      candidate ∈ index := by
    intro candidate hcandidate
    split_ifs at hcandidate
    · exact order.mem_arrange.mp (mem_filter.mp (mem_sortBy.mp hcandidate)).1
    · exact order.mem_arrange.mp (mem_filter.mp hcandidate).1
  revert hcandidates
  generalize (if rareFirst then _ else _ : List (Fingerprint × List Occurrence)) = candidates
  intro hcandidates h
  refine foldlRecOn
    (motive := fun p : Planning =>
      ∀ bucket ∈ p.plan.buckets, ∃ entry ∈ index, entry.2 = bucket.occurrences)
    candidates planBucket (by simp) ?_ bucket h
  intro p hp candidate hcandidate
  unfold planBucket
  by_cases hnone : min (boundedSeedPairCount candidate.2.length) p.remaining = 0
  · rw [if_pos hnone]
    exact hp
  · rw [if_neg hnone]
    intro bucket hbucket
    rcases mem_append.mp hbucket with hbucket | hbucket
    · exact hp bucket hbucket
    · obtain rfl := mem_singleton.mp hbucket
      exact ⟨candidate, hcandidates candidate hcandidate, rfl⟩

/-! ## The candidate search -/

variable {seedPairLimit matchLimit : Nat}

/-- **One seed keeps the matches verified.** -/
lemma candidateStepFast_ok {seed : Occurrence × Occurrence}
    (ha : seed.1.file ∈ files ∧ seed.1.start + minTokens ≤ (tokensOf prepared seed.1.file).length)
    (hb : seed.2.file ∈ files ∧ seed.2.start + minTokens ≤ (tokensOf prepared seed.2.file).length)
    {s : Stores ℚ × Nat} (h : FoundOk prepared files minTokens threshold s.1.found) :
    FoundOk prepared files minTokens threshold
      (candidateStepFast prepared minTokens threshold seedPairLimit matchLimit s
        seed).1.1.found := by
  obtain ⟨a, b⟩ := seed
  unfold candidateStepFast
  dsimp only
  split_ifs
  · exact h
  · exact h
  split
  · exact h
  · next m hm =>
    obtain ⟨hmatch, hapart⟩ := maximalQualifiedMatch_ok ha.2 hb.2 hm
    unfold recordMatchFast
    dsimp only
    split_ifs with hseen hexact hfull
    · exact h
    · exact h
    all_goals
      have hregion : RegionOk prepared files minTokens threshold (m.region a b) m.similarity := by
        refine ⟨ha.1, hb.1, hmatch, ?_, hapart⟩
        unfold originalsEqual at hexact
        rw [allExactEq_eq_all, all_eq_true] at hexact
        by_contra hnone
        exact hexact fun p hp => by_contra fun hne => hnone ⟨p, hp, Bool.eq_false_iff.mpr hne⟩
      intro candidate hcandidate
      rcases mem_append.mp hcandidate with hcandidate | hcandidate
      · exact h candidate hcandidate
      · obtain rfl := mem_singleton.mp hcandidate
        exact hregion.canonical

lemma detectCandidatesFast_ok {occurrences : List Occurrence}
    (hoccurrences : OccurrencesOk prepared files minTokens occurrences) {st : Stores ℚ}
    (h : FoundOk prepared files minTokens threshold st.found) :
    FoundOk prepared files minTokens threshold
      (detectCandidatesFast prepared occurrences minTokens threshold st seedPairLimit
        matchLimit).1.found := by
  have hrun := Loop.run_invariant
    (candidateStepFast prepared minTokens threshold seedPairLimit matchLimit)
    (I := fun s => FoundOk prepared files minTokens threshold s.1.found)
    (l := bucketSeeds occurrences) (s := (st, 0))
    (fun seed hseed _ hs =>
      candidateStepFast_ok (hoccurrences _ (mem_of_mem_bucketSeeds hseed).1)
        (hoccurrences _ (mem_of_mem_bucketSeeds hseed).2) hs) h
  unfold detectCandidatesFast
  split_ifs
  · exact h
  · split <;> simp_all

lemma searchPoolFast_ok (prepared : List PreparedFile) (files : List Nat) (minTokens : Nat)
    (threshold : ℚ) (xxh3_64 : List UInt8 → UInt64)
    (order : KeyedList.IterationOrder (Fingerprint × List Occurrence))
    (seenRegions : List Region) (limits : Type2Limits) :
    FoundOk prepared files minTokens threshold
      (searchPoolFast xxh3_64 order prepared files minTokens threshold seenRegions
        limits).stores.found := by
  have hindex : ∀ entry ∈ files.foldl (indexFileFast xxh3_64 prepared minTokens) [],
      OccurrencesOk prepared files minTokens entry.2 :=
    foldlRecOn
      (motive := fun index : WindowIndex =>
        ∀ entry ∈ index, OccurrencesOk prepared files minTokens entry.2) files _ (by simp)
      (fun _ h _ hfile => indexFileFast_ok xxh3_64 h hfile)
  refine Loop.run_invariant _
    (I := fun s : Stores ℚ × Nat => FoundOk prepared files minTokens threshold s.1.found)
    ?_ (by simp [FoundOk])
  intro bucket hbucket s hs
  obtain ⟨entry, hentry, hocc⟩ := mem_build order hbucket
  exact detectCandidatesFast_ok (hocc ▸ hindex entry hentry) hs

/-! ## Suppression selects -/

variable {found : List (CandidateMatch ℚ)} {maxOverlapChecks : Nat}

lemma suppressionStep_retained {σ : Type} {progress : SuppressionStats → σ → σ}
    {s : SuppressionState ℚ σ} (h : ∀ m ∈ s.retained, m ∈ found) {candidate : CandidateMatch ℚ}
    (hcandidate : candidate ∈ found) :
    ∀ m ∈ (suppressionStep maxOverlapChecks progress s candidate).1.retained, m ∈ found := by
  unfold suppressionStep
  dsimp only
  split
  · exact h
  · exact h
  · intro m hm
    rcases mem_append.mp hm with hm | hm
    · exact h m hm
    · obtain rfl := mem_singleton.mp hm
      exact hcandidate

variable {m : CandidateMatch ℚ}

lemma mem_of_mem_retained
    (h : m ∈ (suppressOverlappingMatchesWithLimit found maxOverlapChecks).retained) :
    m ∈ found := by
  have hrun := Loop.run_invariant
    (suppressionStep maxOverlapChecks (fun _ (w : Unit) => w))
    (I := fun s : SuppressionState ℚ Unit => ∀ m ∈ s.retained, m ∈ sortCandidateMatches found)
    (l := sortCandidateMatches found) (s := ⟨[], [], {}, ()⟩)
    (fun _ hcandidate _ hs => suppressionStep_retained hs hcandidate) (by simp)
  unfold suppressOverlappingMatchesWithLimit suppressSortedOverlappingMatches at h
  refine mem_sortBy.mp (hrun m ?_)
  split at h <;> simp_all

/-! ## Groups -/

def coveredTokens (prepared : List PreparedFile) (file : Nat) (i : CloneInstance) : List Token :=
  ((tokensOf prepared file).drop (i.startToken - 1)).take (i.endToken + 1 - i.startToken)

/-- What a near-duplicate group reports about two files: both instances cover
`group.tokens` tokens of files of the group's pool; the covered tokens are renamed pairs and
not identical; in one file the instances are disjoint; the similarity is the average credit
of the pairs. -/
structure NearDuplicate (c : Corpus) (minTokens : Nat) (threshold : ℚ) (group : CloneGroup ℚ)
    (file other : Nat) (i j : CloneInstance) : Prop where
  instances : group.instances = [i, j]
  first : cloneInstance c.inputs c.prepared file (i.startToken - 1) group.tokens = some i
  second : cloneInstance c.inputs c.prepared other (j.startToken - 1) group.tokens = some j
  pool_first : c.poolOf file = some group.format
  pool_second : c.poolOf other = some group.format
  minTokens_le : minTokens ≤ group.tokens
  length_first : (coveredTokens c.prepared file i).length = group.tokens
  length_second : (coveredTokens c.prepared other j).length = group.tokens
  renamed : RenamedPairs ((coveredTokens c.prepared file i).zip (coveredTokens c.prepared other j))
  differs : ∃ p ∈ (coveredTokens c.prepared file i).zip (coveredTokens c.prepared other j),
    p.1.exactEq p.2 = false
  disjoint : i.path = j.path → i.endToken < j.startToken ∨ j.endToken < i.startToken
  similarity_eq : group.similarity =
    (((coveredTokens c.prepared file i).zip (coveredTokens c.prepared other j)).map
      pairCredit).sum / group.tokens
  threshold_le : threshold ≤ group.similarity

lemma coveredTokens_of_cloneInstance {inputs : List DupInput} {file start len : Nat}
    {i : CloneInstance} (h : cloneInstance inputs prepared file start len = some i) :
    i.startToken = start + 1 ∧ i.endToken = start + len ∧
      coveredTokens prepared file i = ((tokensOf prepared file).drop start).take len := by
  obtain ⟨_, _, _, _, _, _, _, _, rfl⟩ := cloneInstance_eq_some.mp h
  refine ⟨rfl, rfl, ?_⟩
  unfold coveredTokens
  rw [Nat.add_sub_cancel, show start + len + 1 - (start + 1) = len by omega]

lemma nearDuplicate_of_materialize (c : Corpus) {pool : String} {group : CloneGroup ℚ}
    (hmin : 1 ≤ minTokens) (hpool : ∀ file ∈ files, c.poolOf file = some pool)
    (hm : RegionOk c.prepared files minTokens threshold m.region m.similarity)
    (h : materialize c.inputs c.prepared pool m = some group) :
    ∃ file other i j, NearDuplicate c minTokens threshold group file other i j := by
  obtain ⟨hfirst, hsecond, hmatch, hdiffers, hapart⟩ := hm
  obtain ⟨hleft, hright, hseed, hrenamed, hsimilarity, hthreshold⟩ := hmatch
  unfold materialize at h
  split at h
  · next i j hi hj =>
    cases h
    obtain ⟨hstartI, hendI, hcoverI⟩ := coveredTokens_of_cloneInstance hi
    obtain ⟨hstartJ, hendJ, hcoverJ⟩ := coveredTokens_of_cloneInstance hj
    have hzip : (coveredTokens c.prepared m.firstFile i).zip
        (coveredTokens c.prepared m.secondFile j) =
        pairsAt (tokensOf c.prepared m.firstFile) (tokensOf c.prepared m.secondFile)
          m.firstStart m.secondStart m.len := by
      rw [hcoverI, hcoverJ]
      rfl
    refine ⟨m.firstFile, m.secondFile, i, j, rfl, ?_, ?_, hpool _ hfirst, hpool _ hsecond, hseed,
      ?_, ?_, ?_, ?_, ?_, ?_, hthreshold⟩
    · rw [hstartI, Nat.add_sub_cancel]
      exact hi
    · rw [hstartJ, Nat.add_sub_cancel]
      exact hj
    · rw [hcoverI, length_take, length_drop]
      exact Nat.min_eq_left (Nat.le_sub_of_add_le' hleft)
    · rw [hcoverJ, length_take, length_drop]
      exact Nat.min_eq_left (Nat.le_sub_of_add_le' hright)
    · rw [hzip]
      exact hrenamed
    · rw [hzip]
      exact hdiffers
    · intro hpath
      have hsame : m.firstFile = m.secondFile :=
        c.pathOf_injective (hpath ▸ c.pathOf_of_cloneInstance hi) (c.pathOf_of_cloneInstance hj)
      have hfar := hapart hsame
      unfold absDiff CandidateMatch.region at hfar
      dsimp only at hfar
      have hpos : 1 ≤ m.len := hmin.trans hseed
      omega
    · rw [hzip]
      exact hsimilarity
  · simp at h

lemma runPoolFast_ok (c : Corpus) (hmin : 1 ≤ minTokens) (limits : Type2Limits)
    {acc : Results ℚ × Type2Diagnostics}
    (hacc : ∀ group ∈ acc.1.groups,
      ∃ file other i j, NearDuplicate c minTokens threshold group file other i j)
    {pool : String × List Nat} (hpool : pool ∈ poolsOf c.prepared) :
    ∀ group ∈ (runPoolFast xxh3_64 order c.inputs c.prepared minTokens threshold limits acc
      pool).1.groups,
      ∃ file other i j, NearDuplicate c minTokens threshold group file other i j := by
  unfold runPoolFast detectPoolFast
  split_ifs
  · exact hacc
  · intro group hgroup
    rcases mem_append.mp hgroup with hgroup | hgroup
    · exact hacc group hgroup
    · obtain ⟨m, hm, hmaterialize⟩ := mem_filterMap.mp hgroup
      have hfound := searchPoolFast_ok c.prepared pool.2 minTokens threshold xxh3_64 order
        acc.1.seenRegions limits m (mem_of_mem_retained hm)
      exact nearDuplicate_of_materialize c hmin ((poolsOf_ok c.prepared).mem_pool pool hpool)
        hfound hmaterialize

/-- **Fuzzy detection is sound.**  For any hash function, iteration order, limits and
reporter, every near-duplicate group of either detector consists of two instances of
`group.tokens ≥ minTokens` tokens in files of one pool, whose tokens agree in shape, rename
identifiers by a bijection over the whole region, are not identical, do not overlap in one
file, and have exactly the reported similarity, which reaches the threshold. -/
theorem fuzzy_sound {σ : Type} (xxh3_64 : List UInt8 → UInt64)
    (order : KeyedList.IterationOrder (Fingerprint × List Occurrence)) (c : Corpus)
    (minTokens : Nat) (hmin : 1 ≤ minTokens) (minSimilarity : ℚ) (hnonneg : 0 ≤ minSimilarity)
    (hle : minSimilarity ≤ 1) (limits : Type2Limits) (reporter : ProgressReporter ℚ σ) (w : σ) :
    (∀ group ∈ (detectPreparedWithLimits xxh3_64 order c.inputs c.prepared minTokens
        minSimilarity limits).groups,
      ∃ file other i j, NearDuplicate c minTokens minSimilarity group file other i j) ∧
    ∀ group ∈ (detectPreparedWithLimitsAndProgressInterval xxh3_64 order c.inputs c.prepared
        reporter minTokens minSimilarity limits w).1.groups,
      ∃ file other i j, NearDuplicate c minTokens minSimilarity group file other i j := by
  rw [detectPrepared_fst, and_self]
  have hthreshold : (Score.normalizeThreshold minSimilarity : ℚ) = minSimilarity := by
    show max 0 (min minSimilarity 1) = minSimilarity
    rw [min_eq_left hle, max_eq_right hnonneg]
  unfold detectPreparedWithLimits
  split_ifs
  · simp
  · rw [hthreshold]
    intro group hgroup
    refine List.foldlRecOn
      (motive := fun acc : Results ℚ × Type2Diagnostics => ∀ group ∈ acc.1.groups,
        ∃ file other i j, NearDuplicate c minTokens minSimilarity group file other i j)
      (poolsOf c.prepared) _ (by simp) ?_ group (mem_sortBy.mp hgroup)
    intro acc hacc pool hpool
    exact runPoolFast_ok xxh3_64 order c hmin limits hacc hpool

/-- Soundness at two renamed statements, which the detector reports although the hash
collides everywhere. -/
theorem fuzzy_sound_renamedStatements :
    let c := Corpus.prepare characterFrontend .exact renamedStatements (by decide)
    let groups := (detectPreparedWithLimits (fun _ => 0) (.insertion _) c.inputs c.prepared 4
      (4 / 5 : ℚ) .default).groups
    groups.length = 1 ∧ ∀ group ∈ groups,
      ∃ file other i j, NearDuplicate c 4 (4 / 5) group file other i j := by
  intro c groups
  refine ⟨by decide +kernel, ?_⟩
  exact (fuzzy_sound (fun _ => 0) (.insertion _) c 4 (by decide) (4 / 5) (by decide +kernel)
    (by decide +kernel) .default
    ⟨fun _ => id, fun _ => id, false⟩ ()).1

end Reposcout.Dup.Fuzzy
