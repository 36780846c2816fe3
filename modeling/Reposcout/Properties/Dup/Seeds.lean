import Mathlib.Data.UInt
import Mathlib.Tactic.Ring
import Reposcout.Dup.Fuzzy.Index
import Reposcout.Framework.Windows

/-!
# Window hashes and the pairs of a bucket

The rolled hash of a window is the hash of its tokens, modulo `2 ^ 64`.

How many pairs of occurrences the two detectors look at, and that a bucket of at most
`maxPreviousPerWindow + 1` occurrences is not sampled: every pair of it is looked at, once.
-/

namespace Reposcout.Dup

open List

section

open RollingHash (window)
open scoped UInt64.CommRing

/-- The square-and-multiply loop computes a power. -/
lemma rollingPowerLoop_eq (fuel : ℕ) (base power : UInt64) (exponent : ℕ) (h : exponent ≤ fuel) :
    rollingPowerLoop fuel base power exponent = power * base ^ exponent := by
  induction fuel generalizing base power exponent with
  | zero =>
    obtain rfl : exponent = 0 := Nat.le_zero.mp h
    rw [rollingPowerLoop, pow_zero, mul_one]
  | succ fuel ih =>
    rw [rollingPowerLoop]
    by_cases hzero : exponent = 0
    · rw [if_pos hzero, hzero, pow_zero, mul_one]
    · rw [if_neg hzero, ih _ _ _ (by omega), ← pow_two, ← pow_mul]
      have hsplit := Nat.div_add_mod exponent 2
      by_cases hodd : exponent % 2 = 1
      · rw [if_pos hodd, mul_assoc, ← pow_succ']
        rw [hodd] at hsplit
        rw [hsplit]
      · rw [if_neg hodd]
        rw [show exponent % 2 = 0 by omega, Nat.add_zero] at hsplit
        rw [hsplit]

lemma rollingPower_eq (width : ℕ) : rollingPower width = rollingBase ^ (width - 1) := by
  rw [rollingPower, rollingPowerLoop_eq _ _ _ _ (Nat.le_refl _), one_mul]

/-- **The rolled hashes** of a list are the hashes of its windows, from left to right. -/
lemma rolledHashes_eq {hashes : List UInt64} {width : ℕ} (hwidth : 0 < width)
    (h : width ≤ hashes.length) :
    rolledHashes hashes width =
      (List.range (hashes.length - width + 1)).map fun start =>
        windowHash (window hashes width start) := by
  obtain ⟨n, rfl⟩ := Nat.exists_eq_add_of_lt hwidth
  rw [Nat.zero_add] at h ⊢
  have hroll := RollingHash.scanl_roll_eq rollingBase n hashes h
  rw [show hashes.length - (n + 1) + 1 = hashes.length - n by omega]
  rw [rolledHashes, rollingPower_eq, Nat.add_sub_cancel]
  exact hroll

end

variable (right maximum : ℕ)

lemma length_predecessorIndices :
    (predecessorIndices right maximum).length = min right maximum := by
  simp only [predecessorIndices, length_append, length_range, length_range']
  split_ifs
  · omega
  · omega

lemma predecessorIndicesChecked_eq :
    predecessorIndicesChecked right maximum = some (predecessorIndices right maximum) := by
  simp only [predecessorIndicesChecked, predecessorIndices, checkedSub]
  by_cases hmany : right > maximum
  · rw [if_pos hmany, if_pos hmany, if_pos (by omega), Option.map_some]
  · rw [if_neg hmany, if_neg hmany, Option.map_some]

/-- The early anchors are in front of the recent occurrences. -/
lemma pairwise_predecessorIndices : (predecessorIndices right maximum).Pairwise (· < ·) := by
  refine pairwise_append.mpr ⟨pairwise_lt_range, pairwise_lt_range', fun i hi j hj => ?_⟩
  have hearly := mem_range.mp hi
  have hrecent := (mem_range'_1.mp hj).1
  split_ifs at hrecent
  · omega
  · omega

/-- Without sampling every predecessor is looked at. -/
lemma mem_predecessorIndices {right maximum i : ℕ} (h : right ≤ maximum) :
    i ∈ predecessorIndices right maximum ↔ i < right := by
  simp only [predecessorIndices, mem_append, mem_range, mem_range'_1, if_neg (not_lt.mpr h)]
  omega

variable {occurrences : List Occurrence}

lemma length_pairsOf {right : ℕ} (h : right < occurrences.length) :
    ((predecessorIndices right maxPreviousPerWindow).filterMap fun left =>
      match occurrences[left]?, occurrences[right]? with
      | some a, some b => some (a, b)
      | _, _ => none).length = min right maxPreviousPerWindow := by
  rw [length_filterMap_eq_countP, countP_eq_length.mpr, length_predecessorIndices]
  intro left hleft
  have hlt := lt_of_mem_predecessorIndices hleft
  rw [getElem?_eq_getElem h, getElem?_eq_getElem (hlt.trans h)]
  rfl

lemma length_bucketSeeds (occurrences : List Occurrence) : (bucketSeeds occurrences).length =
      ((List.range' 1 (occurrences.length - 1)).map fun right =>
        min right maxPreviousPerWindow).sum := by
  rw [bucketSeeds, length_flatMap]
  congr 1
  apply map_congr_left
  intro right hright
  have hbounds := mem_range'_1.mp hright
  exact length_pairsOf (by omega)

/-- The closed form of the number of pairs. -/
lemma sum_min_range' (rights maximum : ℕ) :
    ((List.range' 1 rights).map fun right => min right maximum).sum =
      if rights ≤ maximum then rights * (rights + 1) / 2
      else maximum * (maximum + 1) / 2 + (rights - maximum) * maximum := by
  induction rights with
  | zero => simp
  | succ n ih =>
    rw [range'_1_concat, map_append, sum_append, ih, map_singleton, sum_singleton, Nat.add_comm 1 n]
    by_cases hsmall : n + 1 ≤ maximum
    · rw [if_pos hsmall, if_pos (by omega), Nat.min_eq_left (by omega)]
      have hstep : (n + 1) * (n + 1 + 1) = n * (n + 1) + (n + 1) * 2 := by ring
      rw [hstep, Nat.add_mul_div_right _ _ Nat.two_pos]
    · rw [if_neg hsmall, Nat.min_eq_right (by omega)]
      by_cases heq : n = maximum
      · subst heq
        rw [if_pos (Nat.le_refl n), Nat.add_sub_cancel_left, one_mul]
      · rw [if_neg (by omega), show n + 1 - maximum = n - maximum + 1 by omega, Nat.succ_mul,
          Nat.add_assoc]

namespace Fuzzy

/-- **The planned number of pairs** is the number of pairs the search looks at. -/
lemma boundedSeedPairCount_eq (occurrences : List Occurrence) :
    boundedSeedPairCount occurrences.length = min (bucketSeeds occurrences).length u64Max := by
  rw [length_bucketSeeds, sum_min_range']
  rfl

/-- **The sampled predecessors** of an occurrence are as many as allowed, and the planned number
of pairs is what the loops over them visit, as far as a `u64` holds it. -/
theorem predecessor_sampling :
    (∀ right maximum, predecessorIndicesChecked right maximum =
        some (predecessorIndices right maximum) ∧
      (predecessorIndices right maximum).length = min right maximum ∧
      (predecessorIndices right maximum).Pairwise (· < ·) ∧
      ∀ i ∈ predecessorIndices right maximum, i < right) ∧
    ∀ occurrences : List Occurrence,
      (bucketSeeds occurrences).length = ((List.range' 1 (occurrences.length - 1)).map fun right =>
        min right maxPreviousPerWindow).sum ∧
      boundedSeedPairCount occurrences.length = min (bucketSeeds occurrences).length u64Max :=
  ⟨fun right maximum => ⟨predecessorIndicesChecked_eq right maximum,
      length_predecessorIndices right maximum, pairwise_predecessorIndices right maximum,
      fun _ => lt_of_mem_predecessorIndices⟩,
    fun occurrences => ⟨length_bucketSeeds occurrences, boundedSeedPairCount_eq occurrences⟩⟩

/-- More pairs than a `u64` counts. -/
theorem not_boundedSeedPairCount_eq_sum :
    ¬ ∀ n ≤ u64Max, boundedSeedPairCount n = ((List.range' 1 (n - 1)).map fun right =>
      min right maxPreviousPerWindow).sum := by
  intro h
  have hpairs := h (2 ^ 60) (by decide)
  rw [sum_min_range'] at hpairs
  revert hpairs
  decide

end Fuzzy

lemma bucketSeeds_pos (h : 2 ≤ occurrences.length) :
    0 < (bucketSeeds occurrences).length := by
  rw [length_bucketSeeds]
  obtain ⟨n, hn⟩ : ∃ n, occurrences.length - 1 = n + 1 := ⟨occurrences.length - 2, by omega⟩
  rw [hn, range'_succ, map_cons, sum_cons]
  simp only [maxPreviousPerWindow]
  omega

/-- In a bucket that is not sampled every pair is looked at. -/
lemma mem_bucketSeeds
    (hsmall : occurrences.length ≤ maxPreviousPerWindow + 1) {left right : ℕ} (hlt : left < right)
    {a b : Occurrence} (ha : occurrences[left]? = some a) (hb : occurrences[right]? = some b) :
    (a, b) ∈ bucketSeeds occurrences := by
  obtain ⟨hright, -⟩ := List.getElem?_eq_some_iff.mp hb
  apply mem_flatMap.mpr
  refine ⟨right, mem_range'_1.mpr ⟨by omega, by omega⟩, mem_filterMap.mpr ⟨left, ?_, ?_⟩⟩
  · exact (mem_predecessorIndices (by omega)).mpr hlt
  · rw [ha, hb]

/-- Of two occurrences in a bucket that is not sampled one is looked at with the other. -/
lemma mem_bucketSeeds_or (hsmall : occurrences.length ≤ maxPreviousPerWindow + 1) {a b : Occurrence}
    (ha : a ∈ occurrences) (hb : b ∈ occurrences) (hne : a ≠ b) :
    (a, b) ∈ bucketSeeds occurrences ∨ (b, a) ∈ bucketSeeds occurrences := by
  obtain ⟨i, hi⟩ := mem_iff_getElem?.mp ha
  obtain ⟨j, hj⟩ := mem_iff_getElem?.mp hb
  rcases Nat.lt_trichotomy i j with hlt | rfl | hgt
  · exact .inl (mem_bucketSeeds hsmall hlt hi hj)
  · exact absurd (Option.some.inj (hi.symm.trans hj)) hne
  · exact .inr (mem_bucketSeeds hsmall hgt hj hi)

end Reposcout.Dup
