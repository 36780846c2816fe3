import Reposcout.Dup.Groups
import Reposcout.Framework.Intervals

/-!
# The compact duplicate projection

The ranked groups are taken in turn.  The first is selected, and a later one if at least two of its
instances add enough lines in a row that no group selected before covers.
-/

namespace Reposcout.Scan

open Dup Intervals

/-- A group with its rank. The key is the text of its locations. -/
structure DuplicateCandidate (S : Type) where
  group : CloneGroup S
  duplicatedLines : ℕ
  key : List String

structure DuplicateBlock (S : Type) where
  lines : ℕ
  tokens : ℕ
  similarity : S
  copies : ℕ
  duplicatedLines : ℕ
  locations : List String

def maxLocations : ℕ := 10

/-- `instance_line_range`: the lines of an instance, counted from zero. -/
def instanceLineRange (item : CloneInstance) : Option Interval :=
  let endLine := occupiedEndLine item
  if item.startLine > 0 ∧ item.startLine ≤ endLine then some (item.startLine - 1, endLine) else none

/-- The loop of `longest_uncovered_run`. -/
def longestUncoveredLoop (range : Interval) (cursor longest : ℕ) : List Interval → ℕ
  | [] => max longest (range.2 - cursor)
  | existing :: rest =>
    if existing.2 ≤ cursor then longestUncoveredLoop range cursor longest rest
    else if existing.1 ≥ range.2 then max longest (range.2 - cursor)
    else
      let longest :=
        if existing.1 > cursor then max longest (min existing.1 range.2 - cursor) else longest
      let cursor := max cursor existing.2
      if cursor ≥ range.2 then longest else longestUncoveredLoop range cursor longest rest

def longestUncoveredRun (range : Interval) (covered : List Interval) : ℕ :=
  longestUncoveredLoop range range.1 0 covered

/-- The merging loop of `insert_line_range`: the range with the following ones that it meets, and
what is left. -/
def mergeLineRange (range : Interval) : List Interval → Interval × List Interval
  | [] => (range, [])
  | existing :: rest =>
    if existing.1 ≤ range.2 then
      mergeLineRange (min range.1 existing.1, max range.2 existing.2) rest
    else (range, existing :: rest)

/-- `insert_line_range`. The ranges are in order, so those in front of the partition point are a
first part of them. -/
def insertLineRange (covered : List Interval) (range : Interval) : List Interval :=
  let merged := mergeLineRange range (covered.dropWhile fun existing => existing.2 < range.1)
  covered.takeWhile (fun existing => existing.2 < range.1) ++ merged.1 :: merged.2

section

variable {S : Type}

/-- The filter of `contributes_new_duplicate_lines`. -/
def hasNewLines (selected : List (PathBuf × List Interval)) (minNewLines : ℕ)
    (item : CloneInstance) : Bool :=
  match instanceLineRange item with
  | some range =>
    longestUncoveredRun range ((KeyedList.get? item.path selected).getD []) ≥ minNewLines
  | none => false

def contributesNewDuplicateLines (group : CloneGroup S)
    (selected : List (PathBuf × List Interval)) (minNewLines : ℕ) : Bool :=
  ((group.instances.filter (hasNewLines selected minNewLines)).take 2).length ≥ 2

def coverInstance (selected : List (PathBuf × List Interval)) (item : CloneInstance) :
    List (PathBuf × List Interval) :=
  match instanceLineRange item with
  | some range =>
    KeyedList.alter item.path (fun covered => insertLineRange (covered.getD []) range) selected
  | none => selected

def DuplicateCandidate.block (candidate : DuplicateCandidate S) : DuplicateBlock S where
  lines := candidate.group.lines
  tokens := candidate.group.tokens
  similarity := candidate.group.similarity
  copies := candidate.group.instances.length
  duplicatedLines := candidate.duplicatedLines
  locations := candidate.key.take maxLocations

variable (top minNewLines : ℕ) (included : CloneGroup S → Bool)

/-- The loop of `top_duplicate_blocks_where`, with the coverage of the selected groups and their
blocks. -/
def topDuplicateBlocksLoop (selected : List (PathBuf × List Interval))
    (blocks : List (DuplicateBlock S)) : List (DuplicateCandidate S) → List (DuplicateBlock S)
  | [] => blocks
  | candidate :: rest =>
    if blocks.length ≥ top then blocks
    else if !included candidate.group then topDuplicateBlocksLoop selected blocks rest
    else if !blocks.isEmpty &&
        !contributesNewDuplicateLines candidate.group selected minNewLines then
      topDuplicateBlocksLoop selected blocks rest
    else
      topDuplicateBlocksLoop (candidate.group.instances.foldl coverInstance selected)
        (blocks ++ [candidate.block]) rest

def topDuplicateBlocksWhere (candidates : List (DuplicateCandidate S)) : List (DuplicateBlock S) :=
  topDuplicateBlocksLoop top minNewLines included [] [] candidates

end

end Reposcout.Scan
