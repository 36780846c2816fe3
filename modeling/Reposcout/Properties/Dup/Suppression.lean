import Reposcout.Dup.Fuzzy.Candidates

/-!
# Suppression of overlapping matches

The matches are taken longest first, and a match is kept unless it overlaps, on both sides at
once, one that was kept before it for the same two files.  The comparisons stop at their limit, and
what was decided until then stays.
-/

namespace Reposcout.Dup.Fuzzy

open List KeyedList Loop SuppressionState

variable {S σ : Type}

/-- The two files of a match. -/
def CandidateMatch.filePair (m : CandidateMatch S) : ℕ × ℕ := (m.firstFile, m.secondFile)

/-- A match of the same two files, at least as long, that overlaps this one on both sides. -/
def Covers (kept m : CandidateMatch S) : Prop :=
  kept.filePair = m.filePair ∧ candidateMatchesOverlap kept m = true ∧ m.len ≤ kept.len

variable (found : List (CandidateMatch S))

/-- The longest matches come first, whatever the scores. -/
lemma pairwise_sortCandidateMatches [Score S] :
    (sortCandidateMatches found).Pairwise fun a b => b.len ≤ a.len := by
  refine pairwise_sortBy_of ⟨fun _ _ _ hab hbc => hbc.trans hab⟩ ?_ ?_ found
  · intro a b hab
    by_contra hlt
    apply hab
    rw [candidateMatchOrder, Nat.compare_eq_gt.mpr (not_le.mp hlt)]
    rfl
  · intro a b hab
    by_contra hlt
    rw [candidateMatchOrder, Nat.compare_eq_lt.mpr (not_le.mp hlt)] at hab
    exact absurd hab Ordering.noConfusion

/-! ## One candidate -/

variable (progress : SuppressionStats → σ → σ) (retained : List (CandidateMatch S))
variable (candidate : CandidateMatch S)

/-- One comparison is counted within the limit, and ends the loop at an overlap. -/
lemma overlapStep_spec {maxOverlapChecks : ℕ} {s : SuppressionStats × σ}
    (hle : s.1.overlapChecks ≤ maxOverlapChecks) (index : ℕ) :
    let next := overlapStep maxOverlapChecks progress retained candidate s index
    next.1.1.overlapChecks ≤ maxOverlapChecks ∧ next.1.1.matchesCompleted = s.1.matchesCompleted ∧
      (next.2 = none → ∀ kept, retained[index]? = some kept →
        candidateMatchesOverlap kept candidate = false) ∧
      (next.2 = some .redundant → ∃ kept, retained[index]? = some kept ∧
        candidateMatchesOverlap kept candidate = true) := by
  obtain ⟨stats, w⟩ := s
  unfold overlapStep
  dsimp only
  by_cases hlimit : stats.overlapChecks ≥ maxOverlapChecks
  · rw [if_pos hlimit]
    exact ⟨hle, rfl, (fun h => nomatch h), (fun h => nomatch h)⟩
  · rw [if_neg hlimit]
    refine ⟨?_, rfl, ?_, ?_⟩
    · dsimp only
      unfold satAdd
      omega
    · dsimp only
      intro hnone kept hkept
      rw [hkept] at hnone
      by_contra hoverlap
      rw [if_pos (Bool.eq_true_of_not_eq_false hoverlap)] at hnone
      cases hnone
    · dsimp only
      intro hredundant
      cases hkept : retained[index]? with
      | none =>
        rw [hkept] at hredundant
        cases hredundant
      | some kept =>
        rw [hkept] at hredundant
        refine ⟨kept, rfl, ?_⟩
        by_contra hoverlap
        rw [if_neg hoverlap] at hredundant
        cases hredundant

lemma run_overlapStep {maxOverlapChecks : ℕ} (indices : List ℕ) {s s' : SuppressionStats × σ}
    {verdict : Option OverlapVerdict} (hle : s.1.overlapChecks ≤ maxOverlapChecks)
    (h : run (overlapStep maxOverlapChecks progress retained candidate) indices s = (s', verdict)) :
    s'.1.overlapChecks ≤ maxOverlapChecks ∧ s'.1.matchesCompleted = s.1.matchesCompleted ∧
      (verdict = none → ∀ index ∈ indices, ∀ kept, retained[index]? = some kept →
        candidateMatchesOverlap kept candidate = false) ∧
      (verdict = some .redundant → ∃ index ∈ indices, ∃ kept, retained[index]? = some kept ∧
        candidateMatchesOverlap kept candidate = true) := by
  induction indices generalizing s with
  | nil =>
    obtain ⟨rfl, rfl⟩ : s = s' ∧ none = verdict := by simpa [run] using h
    exact ⟨hle, rfl, by simp, by simp⟩
  | cons index rest ih =>
    obtain ⟨hchecks, hcompleted, hnone, hredundant⟩ :=
      overlapStep_spec progress retained candidate hle index
    unfold run at h
    rcases hstep : overlapStep maxOverlapChecks progress retained candidate s index with
      ⟨next, result⟩
    rw [hstep] at h hchecks hcompleted hnone hredundant
    cases result with
    | some found =>
      obtain ⟨rfl, rfl⟩ : next = s' ∧ some found = verdict := by simpa using h
      refine ⟨hchecks, hcompleted, by simp, fun h => ?_⟩
      obtain ⟨kept, hkept⟩ := hredundant h
      exact ⟨index, mem_cons_self, kept, hkept⟩
    | none =>
      obtain ⟨hchecks', hcompleted', hnone', hredundant'⟩ := ih hchecks h
      refine ⟨hchecks', hcompleted'.trans hcompleted, ?_, ?_⟩
      · intro hverdict other hother
        rcases mem_cons.mp hother with rfl | hother
        · exact hnone rfl
        · exact hnone' hverdict other hother
      · intro hverdict
        obtain ⟨other, hother, hkept⟩ := hredundant' hverdict
        exact ⟨other, mem_cons_of_mem index hother, hkept⟩

/-! ## The candidates so far -/

structure Suppressed (maxOverlapChecks : ℕ) (done dropped : List (CandidateMatch S))
    (s : SuppressionState S σ) : Prop where
  perm : (s.retained ++ dropped).Perm done
  sublist : s.retained.Sublist done
  apart : s.retained.Pairwise fun a b =>
    a.filePair = b.filePair → candidateMatchesOverlap a b = false
  covered : ∀ m ∈ dropped, ∃ kept ∈ s.retained, Covers kept m
  /-- The index of a pair of files names the kept matches of that pair. -/
  index : ∀ pair i, i ∈ (get? pair s.byPair).getD [] ↔
    ∃ m, s.retained[i]? = some m ∧ m.filePair = pair
  checks : s.stats.overlapChecks ≤ maxOverlapChecks
  completed : s.stats.matchesCompleted = done.length

lemma suppressed_start (maxOverlapChecks : ℕ) (w : σ) :
    Suppressed maxOverlapChecks [] [] (⟨[], [], {}, w⟩ : SuppressionState S σ) where
  perm := Perm.refl []
  sublist := Sublist.refl []
  apart := Pairwise.nil
  covered := nofun
  index := by simp
  checks := Nat.zero_le _
  completed := rfl

lemma getElem?_concat {α : Type} {l : List α} {a b : α} {i : ℕ} :
    (l ++ [a])[i]? = some b ↔ l[i]? = some b ∨ (i = l.length ∧ a = b) := by
  rcases Nat.lt_trichotomy i l.length with hlt | rfl | hgt
  · rw [getElem?_append_left hlt]
    exact (or_iff_left fun h => hlt.ne h.1).symm
  · simp
  · rw [getElem?_eq_none (by rw [length_append, length_singleton]; omega), getElem?_eq_none hgt.le]
    exact iff_of_false (fun h => nomatch h) fun h => h.elim (fun h => nomatch h) fun h => hgt.ne' h.1

variable {maxOverlapChecks : ℕ} {done dropped : List (CandidateMatch S)}

lemma Suppressed.exists_index {s : SuppressionState S σ}
    (h : Suppressed maxOverlapChecks done dropped s) {kept : CandidateMatch S}
    (hkept : kept ∈ s.retained) {pair : ℕ × ℕ} (hpair : kept.filePair = pair) :
    ∃ i ∈ (get? pair s.byPair).getD [], s.retained[i]? = some kept := by
  obtain ⟨i, hi⟩ := mem_iff_getElem?.mp hkept
  exact ⟨i, (h.index pair i).mpr ⟨kept, hi, hpair⟩, hi⟩

variable {s s' : SuppressionState S σ}

/-- **One candidate is kept or dropped**, unless the limit of comparisons is reached. -/
lemma Suppressed.step {result : Option Unit} (h : Suppressed maxOverlapChecks done dropped s)
    (progress : SuppressionStats → σ → σ) (candidate : CandidateMatch S)
    (hlong : ∀ m ∈ done, candidate.len ≤ m.len) (hlen : done.length + 1 ≤ u64Max)
    (hstep : suppressionStep maxOverlapChecks progress s candidate = (s', result)) :
    (result = some () ∧ Suppressed maxOverlapChecks done dropped s') ∨ (result = none ∧ ∃ dropped',
        Suppressed maxOverlapChecks (done ++ [candidate]) dropped' s') := by
  unfold suppressionStep at hstep
  dsimp only at hstep
  rcases hrun : run (overlapStep maxOverlapChecks progress s.retained candidate)
    ((get? (candidate.firstFile, candidate.secondFile) s.byPair).getD [])
    (s.stats, s.observed) with ⟨⟨stats, w⟩, verdict⟩
  rw [hrun] at hstep
  obtain ⟨hchecks, hcompleted, hnone, hredundant⟩ :=
    run_overlapStep progress s.retained candidate _ h.checks hrun
  have hcount : satAdd stats.matchesCompleted 1 = (done ++ [candidate]).length := by
    rw [hcompleted, h.completed, satAdd_eq hlen, length_append, length_singleton]
  match verdict with
  | some .limitReached =>
    obtain ⟨rfl, rfl⟩ : _ = s' ∧ some () = result := by simpa using hstep
    refine .inl ⟨rfl, ?_⟩
    exact ⟨h.perm, h.sublist, h.apart, h.covered, h.index, hchecks, hcompleted.trans h.completed⟩
  | some .redundant =>
    obtain ⟨rfl, rfl⟩ : _ = s' ∧ none = result := by simpa using hstep
    refine .inr ⟨rfl, dropped ++ [candidate], ?_⟩
    obtain ⟨i, hi, kept, hkept, hoverlap⟩ := hredundant rfl
    obtain ⟨m, hm, hpair⟩ := (h.index _ i).mp hi
    obtain rfl : kept = m := Option.some.inj (hkept.symm.trans hm)
    have hmem : kept ∈ s.retained := mem_of_getElem? hkept
    refine ⟨?_, h.sublist.trans (sublist_append_left done [candidate]), h.apart, ?_, h.index,
      hchecks, hcount⟩
    · dsimp only [complete]
      rw [← append_assoc]
      exact h.perm.append_right [candidate]
    · intro m hm
      rcases mem_append.mp hm with hm | hm
      · exact h.covered m hm
      · rw [mem_singleton.mp hm]
        exact ⟨kept, hmem, hpair, hoverlap, hlong kept (h.sublist.subset hmem)⟩
  | none =>
    obtain ⟨rfl, rfl⟩ : _ = s' ∧ none = result := by simpa using hstep
    refine .inr ⟨rfl, dropped, ?_⟩
    refine ⟨?_, h.sublist.append (Sublist.refl [candidate]), ?_, ?_, ?_, hchecks, hcount⟩
    · dsimp only [complete]
      rw [append_assoc]
      exact ((perm_append_comm.append_left s.retained).trans
        (append_assoc s.retained dropped [candidate] ▸ h.perm.append_right [candidate]))
    · dsimp only [complete]
      rw [pairwise_append]
      refine ⟨h.apart, pairwise_singleton _ _, ?_⟩
      intro kept hkept m hm
      rw [mem_singleton.mp hm]
      intro hpair
      obtain ⟨i, hi, hget⟩ := h.exists_index hkept hpair
      exact hnone rfl i hi kept hget
    · intro m hm
      obtain ⟨kept, hkept, hcovers⟩ := h.covered m hm
      exact ⟨kept, mem_append_left [candidate] hkept, hcovers⟩
    · intro pair i
      dsimp only [complete]
      rw [get?_alter]
      simp only [getElem?_concat]
      split_ifs with hpair
      · rw [hpair, Option.getD_some, mem_append, mem_singleton, h.index]
        constructor
        · rintro (⟨m, hm, hmpair⟩ | rfl)
          · exact ⟨m, .inl hm, hmpair⟩
          · exact ⟨candidate, .inr ⟨rfl, rfl⟩, rfl⟩
        · rintro ⟨m, hm | ⟨rfl, rfl⟩, hmpair⟩
          · exact .inl ⟨m, hm, hmpair⟩
          · exact .inr rfl
      · rw [h.index]
        constructor
        · rintro ⟨m, hm, hmpair⟩
          exact ⟨m, .inl hm, hmpair⟩
        · rintro ⟨m, hm | ⟨rfl, rfl⟩, hmpair⟩
          · exact ⟨m, hm, hmpair⟩
          · exact absurd hmpair.symm hpair

/-! ## All candidates -/

/-- The loop goes through a first part of the candidates. It ends at the last one, or at the limit
before a next one. -/
lemma Suppressed.run {result : Option Unit} (h : Suppressed maxOverlapChecks done dropped s)
    (progress : SuppressionStats → σ → σ) (rest : List (CandidateMatch S))
    (hsorted : (done ++ rest).Pairwise fun a b => b.len ≤ a.len)
    (hlen : (done ++ rest).length ≤ u64Max)
    (hrun : run (suppressionStep maxOverlapChecks progress) rest s = (s', result)) :
    ∃ completed skipped dropped', done ++ rest = completed ++ skipped ∧
      Suppressed maxOverlapChecks completed dropped' s' ∧ (result = some () ↔ skipped ≠ []) := by
  induction rest generalizing done dropped s with
  | nil =>
    obtain ⟨rfl, rfl⟩ : s = s' ∧ none = result := by simpa [run] using hrun
    exact ⟨done, [], dropped, rfl, h, by simp⟩
  | cons candidate rest ih =>
    have hlong : ∀ m ∈ done, candidate.len ≤ m.len := fun m hm =>
      (pairwise_append.mp hsorted).2.2 m hm candidate mem_cons_self
    have hroom : done.length + 1 ≤ u64Max := by
      rw [length_append, length_cons] at hlen
      omega
    unfold run at hrun
    rcases hstep : suppressionStep maxOverlapChecks progress s candidate with ⟨next, outcome⟩
    rw [hstep] at hrun
    rcases h.step progress candidate hlong hroom hstep with ⟨rfl, hnext⟩ | ⟨rfl, dropped', hnext⟩
    · obtain ⟨rfl, rfl⟩ : next = s' ∧ some () = result := by simpa using hrun
      exact ⟨done, candidate :: rest, dropped, rfl, hnext,
        iff_of_true rfl (cons_ne_nil candidate rest)⟩
    · rw [append_cons] at hsorted hlen ⊢
      exact ih hnext hsorted hlen hrun

structure SuppressionReport (found : List (CandidateMatch S)) (maxOverlapChecks : ℕ)
    (outcome : SuppressionOutcome S) : Prop where
  /-- The completed matches are the first ones, and each is kept or dropped. -/
  completed : ∃ completed skipped dropped, found = completed ++ skipped ∧
    (outcome.retained ++ dropped).Perm completed ∧
    (∀ m ∈ dropped, ∃ kept ∈ outcome.retained, Covers kept m) ∧
    outcome.stats.matchesCompleted = completed.length ∧
    outcome.matchesSkipped = skipped.length ∧
    (outcome.limitReached = true ↔ skipped ≠ [])
  /-- No two kept matches of the same files overlap on both sides at once. -/
  apart : outcome.retained.Pairwise fun a b =>
    a.filePair = b.filePair → candidateMatchesOverlap a b = false
  checks : outcome.stats.overlapChecks ≤ maxOverlapChecks
  total : outcome.stats.matchesCompleted + outcome.matchesSkipped = found.length
  limit : outcome.limitReached = true ↔ outcome.stats.matchesCompleted < found.length

lemma suppressionReport (hsorted : found.Pairwise fun a b => b.len ≤ a.len)
    (hlen : found.length ≤ u64Max) (maxOverlapChecks : ℕ) (progress : SuppressionStats → σ → σ)
    (w : σ) : SuppressionReport found maxOverlapChecks
      (suppressSortedOverlappingMatches found maxOverlapChecks progress w).1 := by
  rcases hrun : run (suppressionStep maxOverlapChecks progress) found ⟨[], [], {}, w⟩ with
    ⟨s, result⟩
  obtain ⟨completed, skipped, dropped, hsplit, hs, hresult⟩ :=
    (suppressed_start maxOverlapChecks w).run progress found hsorted hlen hrun
  rw [nil_append] at hsplit
  have hlength : found.length = completed.length + skipped.length := by
    rw [hsplit, length_append]
  have hcompleted := hs.completed
  have hnonempty : skipped ≠ [] ↔ 0 < skipped.length := length_pos_iff.symm
  unfold suppressSortedOverlappingMatches
  rw [hrun]
  match result with
  | some () =>
    have hskipped : skipped ≠ [] := hresult.mp rfl
    have hpos := hnonempty.mp hskipped
    exact ⟨⟨completed, skipped, dropped, hsplit, hs.perm, hs.covered, hcompleted,
      by dsimp only; omega, iff_of_true rfl hskipped⟩, hs.apart, hs.checks,
      by dsimp only; omega, iff_of_true rfl (by dsimp only; omega)⟩
  | none =>
    have hskipped : skipped = [] := by
      by_contra hne
      exact nomatch hresult.mpr hne
    rw [hskipped, length_nil] at hlength
    exact ⟨⟨completed, skipped, dropped, hsplit, hs.perm, hs.covered, hcompleted,
      by dsimp only; rw [hskipped]; rfl, iff_of_false Bool.false_ne_true (not_not.mpr hskipped)⟩,
      hs.apart, hs.checks, by dsimp only; omega,
      iff_of_false Bool.false_ne_true (by dsimp only; omega)⟩

/-- **Suppression of overlapping matches.**  For every list of matches and every limit of
comparisons, with or without progress: no two kept matches of the same files overlap on both sides
at once, every completed match that is dropped overlaps a kept one of its files that is at least as
long, the comparisons stay within the limit, and what is not completed is counted as skipped
exactly when the limit ended the loop. The length of a list is a machine word. -/
theorem suppression_report [Score S] (found : List (CandidateMatch S))
    (hlen : found.length ≤ u64Max) (maxOverlapChecks : ℕ) :
    SuppressionReport (sortCandidateMatches found) maxOverlapChecks
        (suppressOverlappingMatchesWithLimit found maxOverlapChecks) ∧
      ∀ (σ : Type) (progress : SuppressionStats → σ → σ) (w : σ),
        SuppressionReport (sortCandidateMatches found) maxOverlapChecks
          (suppressSortedOverlappingMatches (sortCandidateMatches found) maxOverlapChecks progress
            w).1 := by
  have hsorted := pairwise_sortCandidateMatches found
  have hlength : (sortCandidateMatches found).length ≤ u64Max := by
    rw [sortCandidateMatches, length_sortBy]
    exact hlen
  exact ⟨suppressionReport _ hsorted hlength maxOverlapChecks _ (), fun _ progress w =>
    suppressionReport _ hsorted hlength maxOverlapChecks progress w⟩

/-- Two matches of the same files whose first sides are the same. -/
def sharedFirstSide : List (CandidateMatch ℚ) :=
  [⟨0, 0, 1, 0, 10, 1, 9 / 10⟩, ⟨0, 0, 1, 20, 10, 1, 9 / 10⟩]

theorem suppression_report_sharedFirstSide :
    (suppressOverlappingMatchesWithLimit sharedFirstSide 0).stats.matchesCompleted +
        (suppressOverlappingMatchesWithLimit sharedFirstSide 0).matchesSkipped = 2 ∧
      (suppressOverlappingMatchesWithLimit sharedFirstSide 0).limitReached = true := by
  have hreport := (suppression_report sharedFirstSide (by decide) 0).1
  refine ⟨hreport.total.trans (length_sortBy _ sharedFirstSide), ?_⟩
  decide +kernel

/-- Kept matches may overlap on one side. -/
theorem not_apart_sharedFirstSide : ¬∀ (found : List (CandidateMatch ℚ)) (maxOverlapChecks : ℕ),
      (suppressOverlappingMatchesWithLimit found maxOverlapChecks).retained.Pairwise fun a b =>
        a.filePair = b.filePair → tokenRangesOverlap a.firstStart a.len b.firstStart b.len = false ∧
            tokenRangesOverlap a.secondStart a.len b.secondStart b.len = false := by
  intro h
  have hapart := h sharedFirstSide 10
  revert hapart
  decide +kernel

end Reposcout.Dup.Fuzzy
