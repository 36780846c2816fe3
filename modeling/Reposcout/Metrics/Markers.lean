import Reposcout.Findings.Build

/-!
# Annotation markers

Every marker of the configuration is looked for in the comments of a file, or in all of its text
if there is no syntax tree.  An occurrence is known by its line, its column, the hash of the line
without its indentation, and its number among the occurrences of the marker on lines of that hash.

Offsets count characters.  `hash` is the formatted `xxh3_64`.
-/

namespace Reposcout.Metrics

open KeyedList

open Findings (MarkerOccurrence)

/-! ## Syntax trees -/

/-- A node of a syntax tree, with the range of its text. -/
inductive SyntaxNode where
  | node (kind : String) (start stop : ℕ) (children : List SyntaxNode)

def isCommentKind (kind : String) : Bool :=
  kind = "comment" || "_comment".toList.isSuffixOf kind.toList

mutual

def collectCommentRanges : SyntaxNode → List (ℕ × ℕ)
  | .node kind start stop children =>
    if isCommentKind kind then [(start, stop)] else collectChildren children

def collectChildren : List SyntaxNode → List (ℕ × ℕ)
  | [] => []
  | child :: rest => collectCommentRanges child ++ collectChildren rest

end

/-! ## Positions -/

/-- `match_indices`: the offsets of a pattern, without overlaps; `skip` characters belong to the
last match. -/
def matchIndices (pattern : List Char) : ℕ → ℕ → List Char → List ℕ
  | _, _, [] => []
  | offset, skip + 1, _ :: rest => matchIndices pattern (offset + 1) skip rest
  | offset, 0, c :: rest =>
    if pattern.isPrefixOf (c :: rest) then
      offset :: matchIndices pattern (offset + 1) (pattern.length - 1) rest
    else matchIndices pattern (offset + 1) 0 rest

/-- `is_word_byte`: a byte outside of ASCII is none. -/
def isWordChar (c : Char) : Bool := c.isAlphanum || c = '_'

def wordPositions (content marker : List Char) : List ℕ :=
  (matchIndices marker 0 0 content).filter fun position =>
    (position = 0 || !(content[position - 1]?.any isWordChar)) &&
      !(content[position + marker.length]?.any isWordChar)

/-- The offsets at which lines start. -/
def lineStarts (content : List Char) : List ℕ :=
  0 :: (content.zipIdx.filter fun item => item.1 = '\n').map fun item => item.2 + 1

def lineIndex (content : List Char) (position : ℕ) : ℕ :=
  ((lineStarts content).takeWhile fun start => start ≤ position).length - 1

def lineStart (content : List Char) (position : ℕ) : ℕ :=
  (lineStarts content).getD (lineIndex content position) 0

/-- The words of the line of a position, behind one another. -/
def normalizedLine (content : List Char) (position : ℕ) : String :=
  let start := lineStart content position
  let line := (content.drop start).take (position - start) ++
    (content.drop position).takeWhile (· ≠ '\n')
  " ".intercalate (((line.splitOnP isWhitespace).filter (· ≠ [])).map String.ofList)

/-! ## The scan -/

structure MarkerScan where
  counts : List (String × ℕ)
  occurrences : List MarkerOccurrence

/-- `MarkerScan::default`. -/
def MarkerScan.empty : MarkerScan := ⟨[], []⟩

/-- How often a marker was found on lines of a hash. -/
abbrev Ordinals := List ((String × String) × ℕ)

/-- The state of the loop over the markers. -/
structure ScanState where
  counts : List (String × ℕ) := []
  occurrences : List MarkerOccurrence := []
  ordinals : Ordinals := []

variable (hash : String → String) (content : List Char)

def recordPosition (marker : String) (found : List MarkerOccurrence × Ordinals) (position : ℕ) :
    List MarkerOccurrence × Ordinals :=
  let contextHash := hash (normalizedLine content position)
  let occurrence := (get? (marker, contextHash) found.2).getD 0 + 1
  (found.1 ++ [{
      marker
      line := lineIndex content position + 1
      column := position - lineStart content position + 1
      contextHash
      occurrence }],
    KeyedList.alter (marker, contextHash) (fun _ => occurrence) found.2)

def markerPositions (ranges : List (ℕ × ℕ)) (marker : String) : List ℕ :=
  ranges.flatMap fun range =>
    (wordPositions ((content.drop range.1).take (range.2 - range.1)) marker.toList).map
      fun position => range.1 + position

/-- The body of the loop over the markers. -/
def scanMarker (ranges : List (ℕ × ℕ)) (state : ScanState) (marker : String) : ScanState :=
  if marker = "" then state
  else
    let positions := markerPositions content ranges marker
    let found := positions.foldl (recordPosition hash content marker)
      (state.occurrences, state.ordinals)
    { counts :=
        if positions = [] then state.counts
        else KeyedList.alter marker (fun _ => positions.length) state.counts
      occurrences := found.1
      ordinals := found.2 }

def occurrenceKey (occurrence : MarkerOccurrence) : ℕ ×ₗ ℕ ×ₗ String :=
  toLex (occurrence.line, toLex (occurrence.column, occurrence.marker))

def scanRanges (markers : List String) (ranges : List (ℕ × ℕ)) : MarkerScan :=
  let state := markers.foldl (scanMarker hash content ranges) {}
  { counts := sortBy (compareOn Prod.fst) state.counts
    occurrences := sortBy (compareOn occurrenceKey) state.occurrences }

def scanDetailed (markers : List String) : MarkerScan :=
  scanRanges hash content markers [(0, content.length)]

def scanDetailedInTree (markers : List String) (tree : SyntaxNode) : MarkerScan :=
  scanRanges hash content markers
    (sortBy (compareOn Prod.fst) (collectCommentRanges tree))

end Reposcout.Metrics
