import Reposcout.Dup.Fuzzy.Candidates

/-!
# Observation does not change the candidate search

The verification functions return the same value under every observer, and the two seed
loops, run from the same stores, stay in step: they meet the same seeds, spend the same
budget and leave together.  The observed loop derives the spent budget from a counter it
shares with the earlier buckets of the pool; the two budgets agree because the counter does
not saturate as long as the pairs of all buckets fit in a `u64`.
-/

namespace Reposcout.Dup.Fuzzy

variable {S ω σ : Type} [Score S]

/-! ## Verification under an observer -/

variable (v : VerificationObserver ω) (pairs : List (Token × Token))

lemma scoreSeed_fst (score : S) (mapping : Bijection) (w : ω) :
    (scoreSeed v pairs score mapping w).1 = (scoreSeed noVerification pairs score mapping ()).1 := by
  induction pairs generalizing score mapping w with
  | nil => rfl
  | cons pair rest ih =>
    unfold scoreSeed
    split
    · rfl
    · exact ih _ _ _

lemma grow_fst (sameFile : Bool) (distance : Nat) (threshold : S)
    (back : Nat) (pairs : List (Token × Token)) (g : Growth S) (w : ω) :
    (grow v sameFile distance threshold back pairs g w).1 =
      (grow noVerification sameFile distance threshold back pairs g ()).1 := by
  induction pairs generalizing g w with
  | nil => rfl
  | cons pair rest ih =>
    unfold grow
    split
    · rfl
    · split
      · rfl
      · exact ih _ _

lemma maximalQualifiedMatch_fst (prepared : List PreparedFile)
    (a b : Occurrence) (seedLen : Nat) (threshold : S) (w : ω) :
    (maximalQualifiedMatch v prepared a b seedLen threshold w).1 =
      (maximalQualifiedMatch noVerification prepared a b seedLen threshold ()).1 := by
  unfold maximalQualifiedMatch
  split
  · next aSource bSource _ _ =>
    dsimp only
    split_ifs
    · rfl
    · have hseed := scoreSeed_fst v
        (((aSource.tokens.drop a.start).take seedLen).zip
          ((bSource.tokens.drop b.start).take seedLen)) (Score.zero : S) Bijection.empty w
      revert hseed
      generalize scoreSeed v _ (Score.zero : S) Bijection.empty w = observed
      generalize scoreSeed noVerification _ (Score.zero : S) Bijection.empty () = plain
      rintro hseed
      obtain ⟨result, w'⟩ := observed
      obtain ⟨result', u⟩ := plain
      obtain rfl : result = result' := hseed
      cases result with
      | none => rfl
      | some scored =>
        dsimp only
        split_ifs
        · rfl
        · simp only [grow_fst v]
  · rfl

lemma allExactEq_fst (w : ω) :
    (allExactEq v pairs w).1 = (allExactEq noVerification pairs ()).1 := by
  induction pairs generalizing w with
  | nil => rfl
  | cons pair rest ih =>
    unfold allExactEq
    split_ifs
    · exact ih _
    · rfl

lemma originalsEqual_fst (prepared : List PreparedFile) (r : Region) (w : ω) :
    (originalsEqual v prepared r w).1 = (originalsEqual noVerification prepared r ()).1 :=
  allExactEq_fst v _ w

lemma seedIsCovered_fst (covered : CoveredDiagonals) (a b : Occurrence) (len : Nat) (w : ω) :
    (seedIsCovered v covered a b len w).1 =
      (seedIsCovered noVerification covered a b len ()).1 := by
  unfold seedIsCovered
  dsimp only
  split <;> rfl

/-! ## The two seed loops -/

/-- The loops are in step: same stores, and the shared counter is the budget spent in this
bucket on top of the one the bucket started with. -/
structure InStep (startingSeedPairs seedPairLimit : Nat) (fast : Stores S × Nat)
    (observed : CandidateState S σ) : Prop where
  stores : observed.stores = fast.1
  counter : observed.stats.seedPairsCompleted = startingSeedPairs + fast.2
  budget : fast.2 ≤ seedPairLimit

variable {prepared : List PreparedFile} {minTokens : Nat} {threshold : S}
variable {seedPairLimit matchLimit startingSeedPairs : Nat}

/-- What the two bodies have to agree on after one seed. -/
def Agree (startingSeedPairs seedPairLimit : Nat)
    (fast : (Stores S × Nat) × Option CandidateRun)
    (observed : CandidateState S σ × Option CandidateRun) : Prop :=
  fast.2 = observed.2 ∧ InStep startingSeedPairs seedPairLimit fast.1 observed.1

variable {observed : CandidateState S σ} (progress : CandidateStats → σ → σ)

omit [Score S] in
lemma recordMatch_agrees {fast : Stores S × Nat}
    (h : InStep startingSeedPairs seedPairLimit fast observed) (region : Region) (similarity : S) :
    Agree startingSeedPairs seedPairLimit
      (recordMatchFast prepared seedPairLimit matchLimit fast region similarity)
      (recordMatch progress prepared seedPairLimit matchLimit startingSeedPairs observed region
        similarity) := by
  obtain ⟨st, completed⟩ := fast
  obtain ⟨st', stats, w⟩ := observed
  obtain ⟨rfl : st' = st, hcounter, hbudget⟩ := h
  dsimp only at hcounter hbudget
  unfold recordMatch recordMatchFast
  dsimp only
  rw [originalsEqual_fst (countingVerification _)]
  split_ifs with hseen hexact hfull
  · exact ⟨rfl, rfl, hcounter, hbudget⟩
  · exact ⟨rfl, rfl, hcounter, hbudget⟩
  · have hspent : stats.seedPairsCompleted - startingSeedPairs = completed := by omega
    rw [hspent]
    exact ⟨rfl, rfl, hcounter, hbudget⟩
  · exact ⟨rfl, rfl, hcounter, hbudget⟩

variable {fast : Stores S × Nat}

lemma verifySeed_agrees (h : InStep startingSeedPairs seedPairLimit fast observed)
    (a b : Occurrence) : Agree startingSeedPairs seedPairLimit
      (match (maximalQualifiedMatch noVerification prepared a b minTokens threshold ()).1 with
        | none => (fast, none)
        | some m =>
          recordMatchFast prepared seedPairLimit matchLimit fast (m.region a b) m.similarity)
      (verifySeed progress prepared minTokens threshold seedPairLimit matchLimit
        startingSeedPairs observed a b) := by
  obtain ⟨hst, hcounter, hbudget⟩ := h
  unfold verifySeed
  dsimp only
  rw [maximalQualifiedMatch_fst (countingVerification _)]
  generalize (maximalQualifiedMatch noVerification prepared a b minTokens threshold ()).1 =
    qualified
  cases qualified with
  | none => exact ⟨rfl, hst, hcounter, hbudget⟩
  | some m =>
    apply recordMatch_agrees
    exact ⟨hst, hcounter, hbudget⟩

lemma checkCoverage_agrees (h : InStep startingSeedPairs seedPairLimit fast observed)
    (a b : Occurrence) : Agree startingSeedPairs seedPairLimit
      (if (seedIsCovered noVerification fast.1.coveredDiagonals a b minTokens ()).1 then
        (fast, none)
      else
        match (maximalQualifiedMatch noVerification prepared a b minTokens threshold ()).1 with
        | none => (fast, none)
        | some m =>
          recordMatchFast prepared seedPairLimit matchLimit fast (m.region a b) m.similarity)
      (checkCoverage progress prepared minTokens threshold seedPairLimit matchLimit
        startingSeedPairs observed a b) := by
  obtain ⟨hst, hcounter, hbudget⟩ := h
  unfold checkCoverage
  dsimp only at hst ⊢
  rw [seedIsCovered_fst (countingVerification _), hst]
  split_ifs
  · exact ⟨rfl, rfl, hcounter, hbudget⟩
  · apply verifySeed_agrees
    exact ⟨rfl, hcounter, hbudget⟩

/-- One seed: both bodies take the same branch. -/
lemma candidateStep_agrees (hfit : startingSeedPairs + seedPairLimit ≤ u64Max)
    (h : InStep startingSeedPairs seedPairLimit fast observed) (seed : Occurrence × Occurrence) :
    Agree startingSeedPairs seedPairLimit
      (candidateStepFast prepared minTokens threshold seedPairLimit matchLimit fast seed)
      (candidateStep progress prepared minTokens threshold seedPairLimit matchLimit
        startingSeedPairs observed seed) := by
  obtain ⟨st, completed⟩ := fast
  obtain ⟨st', stats, w⟩ := observed
  obtain ⟨a, b⟩ := seed
  obtain ⟨hst, hcounter, hbudget⟩ := h
  dsimp only at hst hcounter hbudget
  have hspent : stats.seedPairsCompleted - startingSeedPairs = completed := by omega
  unfold candidateStep candidateStepFast
  dsimp only
  rw [hspent]
  by_cases hlimit : completed ≥ seedPairLimit
  · rw [if_pos hlimit, if_pos hlimit]
    exact ⟨rfl, hst, hcounter, hbudget⟩
  rw [if_neg hlimit, if_neg hlimit]
  -- One more pair is spent, and the shared counter has room for it.
  have hfast : satAdd completed 1 = completed + 1 := by unfold satAdd; omega
  have hshared : satAdd stats.seedPairsCompleted 1 = startingSeedPairs + (completed + 1) := by
    unfold satAdd; omega
  have hnext : completed + 1 ≤ seedPairLimit := by omega
  rw [hfast]
  by_cases hoverlap : sameFileSeedOverlaps a b minTokens
  · rw [if_pos hoverlap, hoverlap, Bool.true_or, if_pos rfl]
    exact ⟨rfl, hst, hshared, hnext⟩
  · rw [if_neg hoverlap, Bool.eq_false_iff.mpr hoverlap, Bool.false_or]
    apply checkCoverage_agrees progress (⟨hst, hshared, hnext⟩ :
      InStep startingSeedPairs seedPairLimit (st, completed + 1) _)

/-- A seed that ends the loop reports the budget spent so far. -/
lemma candidateStepFast_leaves {s : Stores S × Nat} {seed : Occurrence × Occurrence}
    {run : CandidateRun}
    (h : candidateStepFast prepared minTokens threshold seedPairLimit matchLimit fast seed =
      (s, some run)) : run.seedPairsCompleted = s.2 := by
  obtain ⟨st, completed⟩ := fast
  unfold candidateStepFast at h
  dsimp only at h
  split_ifs at h
  · obtain ⟨rfl, rfl⟩ : (st, completed) = s ∧ _ = run := by simpa using h
    rfl
  · simp at h
  · split at h
    · simp at h
    · unfold recordMatchFast at h
      dsimp only at h
      split_ifs at h
      · simp at h
      · simp at h
      · obtain ⟨rfl, rfl⟩ : _ = s ∧ _ = run := by simpa using h
        rfl
      · simp at h

/-- **The seed loops agree.**  From the same stores and with room for the budget in the shared
counter, the observed search of a bucket ends in the same stores with the same outcome, and
has counted exactly the pairs of that outcome. -/
lemma detectCandidates_agrees (prepared : List PreparedFile) (minTokens : Nat) (threshold : S)
    (seedPairLimit matchLimit : Nat) (progress : CandidateStats → σ → σ)
    (occurrences : List Occurrence) (s : CandidateState S σ)
    (hfit : s.stats.seedPairsCompleted + seedPairLimit ≤ u64Max) :
    let fast := detectCandidatesFast prepared occurrences minTokens threshold s.stores
      seedPairLimit matchLimit
    let observed := detectCandidates progress prepared occurrences minTokens threshold
      seedPairLimit matchLimit s
    observed.2 = fast.2 ∧ observed.1.stores = fast.1 ∧ observed.1.stats.seedPairsCompleted =
        s.stats.seedPairsCompleted + fast.2.seedPairsCompleted ∧
      fast.2.seedPairsCompleted ≤ seedPairLimit := by
  intro fast observed
  by_cases hfull : s.stores.found.length ≥ matchLimit
  · simp only [fast, observed, detectCandidates, detectCandidatesFast, if_pos hfull]
    exact ⟨trivial, trivial, rfl, Nat.zero_le _⟩
  have hstart : InStep s.stats.seedPairsCompleted seedPairLimit (s.stores, 0) s :=
    ⟨rfl, rfl, Nat.zero_le _⟩
  obtain ⟨hresult, _, hend⟩ := Loop.run_simulates
    (candidateStepFast prepared minTokens threshold seedPairLimit matchLimit)
    (candidateStep progress prepared minTokens threshold seedPairLimit matchLimit
      s.stats.seedPairsCompleted)
    (R := fun _ => InStep s.stats.seedPairsCompleted seedPairLimit)
    (fun seed _ _ _ h => candidateStep_agrees progress hfit h seed)
    (l := bucketSeeds occurrences) hstart
  simp only [fast, observed, detectCandidates, detectCandidatesFast, if_neg hfull]
  rcases hfast : Loop.run
    (candidateStepFast prepared minTokens threshold seedPairLimit matchLimit)
    (bucketSeeds occurrences) (s.stores, 0) with ⟨⟨st, completed⟩, result⟩
  rcases hobserved : Loop.run (candidateStep progress prepared minTokens threshold seedPairLimit
    matchLimit s.stats.seedPairsCompleted) (bucketSeeds occurrences) s with ⟨s', result'⟩
  rw [hfast, hobserved] at hresult hend
  obtain ⟨hstores, hcounter, hbudget⟩ := hend
  obtain rfl : result = result' := hresult
  cases result with
  | none =>
    refine ⟨?_, hstores, hcounter, hbudget⟩
    dsimp only
    rw [hcounter, Nat.add_sub_cancel_left]
  | some run =>
    have hrun : run.seedPairsCompleted = completed :=
      Loop.run_leaves (fun _ _ _ _ _ => candidateStepFast_leaves) hfast
    refine ⟨rfl, hstores, ?_, ?_⟩
    · rw [hrun]; exact hcounter
    · rw [hrun]; exact hbudget

end Reposcout.Dup.Fuzzy
