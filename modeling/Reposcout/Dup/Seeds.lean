import Reposcout.Dup.Groups

/-!
# Seeds and regions

What the two detectors share below their matching rules: occurrences of a window, the
bounded enumeration of the pairs of one bucket, and pairs of token ranges.  The source keeps
a private copy of each of these in both detectors.
-/

/-!
## Covered token ranges of one file-pair diagonal

`MergedIntervals` keeps merged half-open ranges, ordered by start.
-/

namespace Reposcout.Dup

/-- `by_start`: the ranges as `(start, end)` entries in increasing order of `start`. -/
structure MergedIntervals where
  byStart : List (Nat × Nat)
  deriving Inhabited

namespace MergedIntervals

/-- `MergedIntervals::default()`. -/
def empty : MergedIntervals := ⟨[]⟩

/-- `by_start.range(..=start).next_back()`. -/
def predecessor (m : MergedIntervals) (start : Nat) : Option (Nat × Nat) :=
  (m.byStart.filter (fun r => r.1 ≤ start)).getLast?

def covers (m : MergedIntervals) (start stop : Nat) : Bool :=
  match m.predecessor start with
  | some (_, coveredEnd) => coveredEnd ≥ stop
  | none => false

/-- The merging loop: absorb the following ranges while they start inside the merged one. -/
def absorb (mergedEnd : Nat) : List (Nat × Nat) → Nat × List (Nat × Nat)
  | [] => (mergedEnd, [])
  | (nextStart, nextEnd) :: rest =>
    if nextStart > mergedEnd then (mergedEnd, (nextStart, nextEnd) :: rest)
    else absorb (max mergedEnd nextEnd) rest

def insert (m : MergedIntervals) (start stop : Nat) : MergedIntervals :=
  let (mergedStart, mergedEnd, remaining) : Nat × Nat × List (Nat × Nat) :=
    match m.predecessor start with
    | some (previousStart, previousEnd) =>
      if previousEnd ≥ start then
        (previousStart, max stop previousEnd, m.byStart.filter (fun r => r.1 ≠ previousStart))
      else (start, stop, m.byStart)
    | none => (start, stop, m.byStart)
  let (finalEnd, rest) := absorb mergedEnd (remaining.filter (fun r => mergedStart ≤ r.1))
  ⟨remaining.filter (fun r => r.1 < mergedStart) ++ (mergedStart, finalEnd) :: rest⟩

end MergedIntervals

open List

def maxPreviousPerWindow : Nat := 64

structure Occurrence where
  file : Nat
  start : Nat
  deriving DecidableEq

/-- A pair of equal token ranges: `len` tokens from `aStart` in `aFile` and from `bStart` in
`bFile`. -/
structure Region where
  aFile : Nat
  aStart : Nat
  bFile : Nat
  bStart : Nat
  len : Nat
  deriving DecidableEq

/-- The lexicographically smaller side comes first. -/
def canonicalRegionKey (r : Region) : Region :=
  if r.aFile < r.bFile ∨ (r.aFile = r.bFile ∧ r.aStart ≤ r.bStart) then r
  else ⟨r.bFile, r.bStart, r.aFile, r.aStart, r.len⟩

/-- `a.start.abs_diff(b.start)`. -/
def absDiff (a b : Nat) : Nat := (a - b) + (b - a)

def sameFileSeedOverlaps (a b : Occurrence) (len : Nat) : Bool :=
  a.file = b.file && absDiff a.start b.start < len

/-- `tokens.get(start..start + len)`. -/
def slice? (tokens : List Token) (start len : Nat) : Option (List Token) :=
  if start + len ≤ tokens.length then some ((tokens.drop start).take len) else none

/-- The seed pairs of one bucket in the order the loops visit them: every occurrence after
the first, against its sampled predecessors. -/
def bucketSeeds (occurrences : List Occurrence) : List (Occurrence × Occurrence) :=
  (List.range' 1 (occurrences.length - 1)).flatMap fun right =>
    (predecessorIndices right maxPreviousPerWindow).filterMap fun left =>
      match occurrences[left]?, occurrences[right]? with
      | some a, some b => some (a, b)
      | _, _ => none

lemma mem_of_mem_bucketSeeds {occurrences : List Occurrence} {a b : Occurrence}
    (h : (a, b) ∈ bucketSeeds occurrences) : a ∈ occurrences ∧ b ∈ occurrences := by
  obtain ⟨right, _, h⟩ := mem_flatMap.mp h
  obtain ⟨left, _, h⟩ := mem_filterMap.mp h
  split at h
  · next a' b' ha hb =>
    obtain ⟨rfl, rfl⟩ : a' = a ∧ b' = b := by simpa using h
    exact ⟨mem_of_getElem? ha, mem_of_getElem? hb⟩
  · simp at h

end Reposcout.Dup
