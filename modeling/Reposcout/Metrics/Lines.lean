import Reposcout.Framework.Utf8
import Reposcout.Metrics.Complexity

/-!
# Lines

The lines of a file are counted as source, comments and blank lines.  With a syntax tree the
ranges of its comments decide; a scanner that knows of quotes does without.
-/

namespace Reposcout.Metrics.Lines

structure LineStats where
  loc : ℕ := 0
  sloc : ℕ := 0
  commentLines : ℕ := 0
  blankLines : ℕ := 0
  approximate : Bool := false
  deriving DecidableEq

structure LangInfo where
  /-- There is a grammar for it. -/
  firstClass : Bool
  lineComments : List String
  blockComments : List (String × String)

def classifyLine (stats : LineStats) (hasCode hasComment : Bool) : LineStats :=
  if hasCode then { stats with sloc := stats.sloc + 1 }
  else if hasComment then { stats with commentLines := stats.commentLines + 1 }
  else { stats with blankLines := stats.blankLines + 1 }

/-! ## With a syntax tree -/

mutual

/-- `collect_comment_ranges`, which goes through the children from the last to the first. -/
def collectCommentRanges : Cst → List (ℕ × ℕ)
  | .node _ kind _ _ span _ children =>
    if Complexity.kindContains kind "comment" then [(span.startByte, span.endByte)]
    else collectChildren children

def collectChildren : List Cst → List (ℕ × ℕ)
  | [] => []
  | child :: rest => collectChildren rest ++ collectCommentRanges child

end

/-- The state of the loop over the characters of a line: the ranges from `range_index` on, and
what was seen of the line. -/
structure CharState where
  ranges : List (ℕ × ℕ)
  hasCode : Bool := false
  hasComment : Bool := false

/-- The body of the loop over the characters of a line. -/
def visitChar (state : CharState) (item : ℕ × Char) : CharState :=
  let (position, ch) := item
  if isWhitespace ch then state
  else
    let ranges := state.ranges.dropWhile fun range => range.2 ≤ position
    if ranges.head?.any fun range => range.1 ≤ position && position < range.2 then
      { state with ranges, hasComment := true }
    else { state with ranges, hasCode := true }

/-- The state of the loop over the lines. -/
structure MeasureState where
  stats : LineStats := {}
  lineStart : ℕ := 0
  ranges : List (ℕ × ℕ)

/-- `strip_suffix('\n')`. -/
def stripNewline (chunk : List Char) : List Char :=
  if chunk.getLast? = some '\n' then chunk.dropLast else chunk

/-- The body of the loop over the lines. -/
def measureLine (state : MeasureState) (chunk : List Char) : MeasureState :=
  let stats := { state.stats with loc := state.stats.loc + 1 }
  let seen := (charOffsets state.lineStart (stripNewline chunk)).foldl visitChar
    { ranges := state.ranges }
  { stats := classifyLine stats seen.hasCode seen.hasComment
    lineStart := state.lineStart + utf8Length chunk
    ranges := seen.ranges }

/-- `measure_from_tree`, from the comment ranges on. -/
def measureFromRanges (content : String) (ranges : List (ℕ × ℕ)) : LineStats :=
  ((splitInclusive content.toList).foldl measureLine
    { ranges := KeyedList.sortBy (compareOn fun range => toLex range) ranges }).stats

def measureFromTree (content : String) (tree : Cst) : LineStats :=
  measureFromRanges content (collectCommentRanges tree)

/-! ## Without a syntax tree -/

def bytesOf (text : String) : List UInt8 := Utf8.encode text.toList

def isAsciiWhitespace (byte : UInt8) : Bool := byte ∈ [32, 9, 10, 12, 13]

/-- The bytes of the three quotes. -/
def quotes : List UInt8 := [39, 34, 96]

def startsWithAt (bytes : List UInt8) (index : ℕ) (starts : List String) : Bool :=
  starts.any fun start => (bytesOf start).isPrefixOf (bytes.drop index)

def blockAt (bytes : List UInt8) (index : ℕ) (blocks : List (String × String)) :
    Option (String × String) :=
  blocks.find? fun block => (bytesOf block.1).isPrefixOf (bytes.drop index)

def windowPosition (needle : List UInt8) : List UInt8 → Option ℕ
  | [] => if needle = [] then some 0 else none
  | byte :: rest =>
    if needle.isPrefixOf (byte :: rest) then some 0
    else (windowPosition needle rest).map (· + 1)

def findBytes (haystack : List UInt8) (start : ℕ) (needle : List UInt8) : Option ℕ :=
  if needle = [] ∨ haystack.length < start then none
  else (windowPosition needle (haystack.drop start)).map (start + ·)

/-- The loop of `consume_quoted`: the number of bytes up to the end of the quotation, and whether
it is closed. -/
def quotedLength (quote : UInt8) : Bool → List UInt8 → ℕ × Bool
  | _, [] => (0, false)
  | escaped, byte :: rest =>
    let next :=
      if escaped then quotedLength quote false rest
      else if byte = 92 then quotedLength quote true rest
      else if byte = quote then (0, true)
      else quotedLength quote false rest
    (next.1 + 1, next.2)

def consumeQuoted (bytes : List UInt8) (index : ℕ) (quote : UInt8) : ℕ × Bool :=
  let (length, closed) := quotedLength quote false (bytes.drop index)
  (index + length, closed)

/-- The state of the loop over the bytes of a line.  What is open at its end is open on the next
line. -/
structure LineScan where
  index : ℕ := 0
  blockClose : Option String := none
  multilineQuote : Option UInt8 := none
  hasCode : Bool := false
  hasComment : Bool := false
  deriving DecidableEq

/-- A round of the loop goes on or breaks. -/
inductive Round where
  | next (scan : LineScan)
  | stop (scan : LineScan)

/-- The body of the loop over the bytes of a line, outside of comments and quotations. -/
def scanByte (lang : LangInfo) (bytes : List UInt8) (scan : LineScan) (byte : UInt8) : Round :=
  if isAsciiWhitespace byte then .next { scan with index := scan.index + 1 }
  else if startsWithAt bytes scan.index lang.lineComments then
    .stop { scan with hasComment := true }
  else
    match blockAt bytes scan.index lang.blockComments with
    | some (opening, close) =>
      let index := scan.index + (bytesOf opening).length
      match findBytes bytes index (bytesOf close) with
      | some offset =>
        .next { scan with hasComment := true, index := offset + (bytesOf close).length }
      | none => .stop { scan with hasComment := true, index, blockClose := some close }
    | none =>
      if byte ∈ quotes then
        let (index, closed) := consumeQuoted bytes (scan.index + 1) byte
        if !closed && byte = 96 then
          .stop { scan with hasCode := true, index, multilineQuote := some byte }
        else .next { scan with hasCode := true, index }
      else .next { scan with hasCode := true, index := scan.index + 1 }

/-- The body of the loop over the bytes of a line. -/
def scanRound (lang : LangInfo) (bytes : List UInt8) (scan : LineScan) (byte : UInt8) : Round :=
  match scan.blockClose, scan.multilineQuote with
  | some close, _ =>
    match findBytes bytes scan.index (bytesOf close) with
    | some offset =>
      .next { scan with
        hasComment := true
        index := offset + (bytesOf close).length
        blockClose := none }
    | none => .stop { scan with hasComment := true }
  | none, some quote =>
    let (index, closed) := consumeQuoted bytes scan.index quote
    if closed then .next { scan with hasCode := true, index, multilineQuote := none }
    else .stop { scan with hasCode := true, index }
  | none, none => scanByte lang bytes scan byte

/-- The loop over the bytes of a line, if it ends within so many rounds. -/
def scanLoop (lang : LangInfo) (bytes : List UInt8) : ℕ → LineScan → Option LineScan
  | rounds, scan =>
    match bytes[scan.index]? with
    | none => some scan
    | some byte =>
      match rounds, scanRound lang bytes scan byte with
      | _, .stop scan => some scan
      | rounds + 1, .next scan => scanLoop lang bytes rounds scan
      | 0, .next _ => none

/-- The state of the loop over the lines. -/
structure FallbackState where
  stats : LineStats := {}
  blockClose : Option String := none
  multilineQuote : Option UInt8 := none

/-- The body of the loop over the lines. -/
def fallbackLine (lang : LangInfo) (rounds : ℕ) (state : FallbackState) (line : List Char) :
    Option FallbackState :=
  let stats := { state.stats with loc := state.stats.loc + 1 }
  if isBlank line then
    some { state with stats := { stats with blankLines := stats.blankLines + 1 } }
  else
    (scanLoop lang (Utf8.encode line) rounds
      { blockClose := state.blockClose, multilineQuote := state.multilineQuote }).map fun scan =>
        { stats := classifyLine stats scan.hasCode scan.hasComment
          blockClose := scan.blockClose
          multilineQuote := scan.multilineQuote }

/-- `measure_fallback`, if no line takes more than so many rounds. -/
def measureFallback (rounds : ℕ) (lang : LangInfo) (content : String) : Option LineStats :=
  ((textLines content).foldlM (fallbackLine lang rounds) {}).map FallbackState.stats

def measure (rounds : ℕ) (lang : LangInfo) (content : String) (tree : Option Cst) :
    Option LineStats :=
  match lang.firstClass, tree with
  | true, some tree => some (measureFromTree content tree)
  | _, _ =>
    (measureFallback rounds lang content).map fun stats =>
      { stats with approximate := lang.lineComments ≠ [] || lang.blockComments ≠ [] }

end Reposcout.Metrics.Lines
