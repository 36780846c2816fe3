import Reposcout.Framework.Intervals
import Reposcout.Findings.Build

/-!
# Covered lines and tokens

The union of the source lines and of the token indices that clone instances cover, file by file.
No count here is larger than the largest line, so none saturates.
-/

namespace Reposcout.Dup

open KeyedList

open Intervals (Interval)

/-- `IntervalSet`: merged ranges in order, with the number of their points. -/
structure IntervalSet where
  intervals : List Interval
  covered : ℕ

namespace IntervalSet

/-- `IntervalSet::default()`. -/
def empty : IntervalSet := ⟨[], 0⟩

/-- The merging loop of `insert`: the range with the following ones that it meets, the number of
points left, and the others. -/
def absorb (range : Interval) (covered : ℕ) : List Interval → Interval × ℕ × List Interval
  | [] => (range, covered, [])
  | existing :: rest =>
    if existing.1 ≤ range.2 then
      absorb (min range.1 existing.1, max range.2 existing.2)
        (covered - (existing.2 - existing.1)) rest
    else (range, covered, existing :: rest)

/-- `insert`. The ranges are in order, so those in front of the partition point are a first part of
them. -/
def insert (set : IntervalSet) (range : Interval) : IntervalSet :=
  if range.2 ≤ range.1 then set
  else
    let before := set.intervals.takeWhile fun existing => existing.2 < range.1
    let merged := absorb range set.covered
      (set.intervals.dropWhile fun existing => existing.2 < range.1)
    ⟨before ++ merged.1 :: merged.2.2, merged.2.1 + (merged.1.2 - merged.1.1)⟩

def len (set : IntervalSet) : ℕ := set.covered

end IntervalSet

structure DuplicateCoverage where
  linesByPath : List (PathBuf × IntervalSet)
  tokensByPath : List (PathBuf × IntervalSet)

def insertAt (path : PathBuf) (range : Interval) (sets : List (PathBuf × IntervalSet)) :
    List (PathBuf × IntervalSet) :=
  KeyedList.alter path (fun set => (set.getD .empty).insert range) sets

namespace DuplicateCoverage

/-- `DuplicateCoverage::default()`. -/
def empty : DuplicateCoverage := ⟨[], []⟩

def addInstance (coverage : DuplicateCoverage) (item : CloneInstance) : DuplicateCoverage :=
  let endLine := occupiedEndLine item
  ⟨if item.startLine > 0 ∧ item.startLine ≤ endLine then
      insertAt item.path (item.startLine - 1, endLine) coverage.linesByPath
    else coverage.linesByPath,
    if item.startToken > 0 ∧ item.startToken ≤ item.endToken then
      insertAt item.path (item.startToken - 1, item.endToken) coverage.tokensByPath
    else coverage.tokensByPath⟩

def fromDuplication (duplication : Findings.Duplication) : DuplicateCoverage :=
  ((duplication.exact ++ duplication.near).flatMap CloneGroup.instances).foldl addInstance empty

def totalLines (coverage : DuplicateCoverage) : ℕ :=
  (coverage.linesByPath.map fun set => set.2.len).sum

def totalTokens (coverage : DuplicateCoverage) : ℕ :=
  (coverage.tokensByPath.map fun set => set.2.len).sum

def coveredLines (coverage : DuplicateCoverage) (path : PathBuf) : ℕ :=
  ((get? path coverage.linesByPath).map IntervalSet.len).getD 0

def coveredTokens (coverage : DuplicateCoverage) (path : PathBuf) : ℕ :=
  ((get? path coverage.tokensByPath).map IntervalSet.len).getD 0

/-- The ranges that are left out of `covered_lines_excluding`. -/
def excludedSet (excluded : List LineRange) : IntervalSet :=
  excluded.foldl (fun set range =>
    if range.start > 0 ∧ range.start ≤ range.stop then set.insert (range.start - 1, range.stop)
    else set) .empty

def coveredLinesExcluding (coverage : DuplicateCoverage) (path : PathBuf)
    (excluded : List LineRange) : ℕ :=
  match get? path coverage.linesByPath with
  | none => 0
  | some covered =>
    covered.len - Intervals.overlap covered.intervals (excludedSet excluded).intervals

end DuplicateCoverage

end Reposcout.Dup
