import Reposcout.Dup.Token

/-!
# Reading a captured diff

`hunks::parse` reads a unified diff piece by piece, with a line counter for each side; the texts of
the hunks are cut out, and their lines split into blocks, at the end.
-/

/-!
## The hunks of a review brief

The lines of a unified-diff hunk and its change blocks, and what the brief reads of one line: its
indentation, its tokens and which of them are names.
-/

namespace Reposcout.Query.ReviewContext.Brief

/-- One diff line; `number` is the base line for `-` lines and the head line otherwise. -/
structure Line where
  tag : Char
  text : String
  number : ℕ
  deriving DecidableEq

/-- A half-open range of indices. -/
structure Span where
  start : ℕ
  stop : ℕ
  deriving DecidableEq

def Span.indices (span : Span) : List ℕ := List.range' span.start (span.stop - span.start)

/-- Consecutive removed lines followed by consecutive added lines, as ranges into the lines of the
hunk. -/
structure Block where
  removed : Span
  added : Span
  deriving DecidableEq

structure Hunk where
  change : ℕ
  lines : List Line
  blocks : List Block
  deriving DecidableEq

/-! ## Lines -/

/-- `indent`: the leading whitespace. -/
def indent (text : String) : List Char := text.toList.takeWhile isWhitespace

def lineTokens (classes : CharClasses) (text : String) : List Dup.Lexeme :=
  Dup.tokenizeUnscoped classes text

/-! ## Names -/

def keywords : List String :=
  ["Err", "False", "Infinity", "NULL", "NaN", "None", "Ok", "Self", "Some", "True", "and", "any",
    "arguments", "as", "assert", "async", "await", "break", "case", "catch", "chan", "class",
    "classmethod", "const", "continue", "crate", "def", "default", "defer", "del", "delete", "do",
    "elif", "else", "enum", "except", "export", "extends", "false", "final", "finally", "fn",
    "for", "from", "func", "function", "globalThis", "go", "goto", "if", "impl", "implements",
    "import", "in", "instanceof", "interface", "is", "lambda", "let", "loop", "match", "mod",
    "move", "mut", "never", "new", "nil", "nonlocal", "not", "null", "nullptr", "object", "of",
    "or", "override", "package", "pass", "private", "property", "protected", "pub", "public",
    "raise", "readonly", "ref", "return", "satisfies", "select", "self", "static", "staticmethod",
    "struct", "super", "switch", "this", "throw", "throws", "trait", "true", "try", "type",
    "typeof", "undefined", "unknown", "unless", "unsafe", "until", "use", "var", "void", "when",
    "where", "while", "window", "with", "yield"]

def identifier (classes : CharClasses) (token : String) : Bool :=
  token.toList.head?.any (fun c => classes.alphabetic c || c = '_' || c = '$') &&
    token.toList.all (fun c => classes.alphanumeric c || c = '_' || c = '$') &&
    !keywords.contains token

/-- `boundary`, between two neighbouring characters of a token; outside of the token there is
none. -/
def boundary (classes : CharClasses) : Option Char → Option Char → Bool
  | some before, some after =>
    !classes.alphanumeric before || !classes.alphanumeric after ||
      (classes.lowercase before && classes.uppercase after) ||
      classes.numeric before != classes.numeric after
  | _, _ => true

/-- A hunk of a captured diff; `raw` has the header line and every following line verbatim. -/
structure ParsedHunk extends Hunk where
  oldStart : ℕ
  oldLines : ℕ
  newStart : ℕ
  newLines : ℕ
  raw : String

/-! ## Headers -/

/-- `str::parse::<usize>`, for numbers that are not too large. -/
def parseUsize (text : List Char) : Option ℕ :=
  let digits := if text.head? = some '+' then text.tail else text
  if digits ≠ [] ∧ digits.all Char.isDigit = true then some (Nat.ofDigitChars 10 digits 0) else none

/-- A start and a count, which is one where it is left out. -/
def parseRange (value : List Char) : Option (ℕ × ℕ) :=
  match splitOnce [','] value with
  | some (start, lines) => do return (← parseUsize start, ← parseUsize lines)
  | none => do return (← parseUsize value, 1)

/-- `header_ranges`: `-a,b +c,d @@ context`. -/
def headerRanges (header : List Char) : Option ((ℕ × ℕ) × ℕ × ℕ) := do
  let (ranges, _) ← splitOnce " @@".toList header
  let (old, new) ← splitOnce [' '] ranges
  let old ← parseRange (← stripStart "-" old)
  let new ← parseRange (← stripStart "+" new)
  return (old, new)

/-! ## Blocks -/

def tagCount (tag : Char) (lines : List Line) : ℕ :=
  (lines.takeWhile fun line => line.tag = tag).length

/-- The loop of `blocks` at an index, with the lines from there on.  A round passes a line at
least. -/
def blocksFrom : ℕ → ℕ → List Line → List Block
  | 0, _, _ => []
  | _ + 1, _, [] => []
  | fuel + 1, index, line :: rest =>
    if line.tag = ' ' then blocksFrom fuel (index + 1) rest
    else
      let removed := tagCount '-' (line :: rest)
      let added := tagCount '+' ((line :: rest).drop removed)
      ⟨⟨index, index + removed⟩, ⟨index + removed, index + removed + added⟩⟩ ::
        blocksFrom fuel (index + removed + added) ((line :: rest).drop (removed + added))

def blocks (lines : List Line) : List Block := blocksFrom lines.length 0 lines

/-! ## Pieces -/

/-- What the loop of `parse` keeps: the offset of the next piece, the next line of the two sides,
and the hunks so far with their offsets. -/
structure ParseState where
  offset : ℕ
  old : ℕ
  new : ℕ
  starts : List ℕ
  hunks : List ParsedHunk

/-- `piece.strip_suffix('\n').unwrap_or(piece)`. -/
def stripNewline (piece : List Char) : List Char :=
  if piece.getLast? = some '\n' then piece.dropLast else piece

def pushLine (line : Line) (hunk : ParsedHunk) : ParsedHunk :=
  { hunk with lines := hunk.lines ++ [line] }

/-- A line of the last hunk: context, removed or added. -/
def parseLine (state : ParseState) : List Char → ParseState
  | [] => state
  | tag :: body =>
    if tag = '-' then
      { state with
        old := state.old + 1
        hunks := state.hunks.modifyLast (pushLine ⟨tag, String.ofList body, state.old⟩) }
    else if tag = '+' then
      { state with
        new := state.new + 1
        hunks := state.hunks.modifyLast (pushLine ⟨tag, String.ofList body, state.new⟩) }
    else if tag = ' ' then
      { state with
        old := state.old + 1
        new := state.new + 1
        hunks := state.hunks.modifyLast (pushLine ⟨tag, String.ofList body, state.new⟩) }
    else state

/-- One round of the loop of `parse`. -/
def parsePiece (change : ℕ) (state : ParseState) (piece : List Char) : ParseState :=
  let start := state.offset
  let text := stripNewline piece
  let state := { state with offset := state.offset + piece.length }
  match stripStart "@@ " text with
  | some header =>
    match headerRanges header with
    | some ((oldStart, oldLines), (newStart, newLines)) =>
      { state with
        old := oldStart
        new := newStart
        starts := state.starts ++ [start]
        hunks := state.hunks ++ [⟨⟨change, [], []⟩, oldStart, oldLines, newStart, newLines, ""⟩] }
    | none => state
  | none => if state.hunks = [] then state else parseLine state text

/-- `&diff[start..end]`. -/
def sliceText (text : List Char) (start stop : ℕ) : List Char :=
  (text.drop start).take (stop - start)

/-- The hunk with its text and its blocks. -/
def finishHunk (diff : List Char) (hunk : ParsedHunk) (range : ℕ × ℕ) : ParsedHunk :=
  { hunk with
    raw := String.ofList (sliceText diff range.1 range.2)
    blocks := blocks hunk.lines }

/-- `parse`: the hunks of one captured unified diff in order.  There are as many starts as
hunks. -/
def parse (change : ℕ) (diff : List Char) : List ParsedHunk :=
  let state := (splitInclusive diff).foldl (parsePiece change) ⟨0, 0, 0, [], []⟩
  let ends := state.starts.drop 1 ++ [diff.length]
  state.hunks.zipWith (finishHunk diff) (state.starts.zip ends)

end Reposcout.Query.ReviewContext.Brief
