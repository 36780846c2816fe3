import Reposcout.TaskDiagnostics.Record

/-!
# Diagnostics in plain text

A line is a diagnostic if a location is found in it: `File "path", line row`, `path(row,column):`
or `path:row:column`, with or without an arrow before it.
-/

namespace Reposcout.TaskDiagnostics.TextFormat

/-- `parse::<u32>`. -/
def parseU32 (text : List Char) : Option ℕ :=
  let digits := if text.head? = some '+' then text.tail else text
  let value := Nat.ofDigitChars 10 digits 0
  if digits ≠ [] ∧ digits.all Char.isDigit = true ∧ value < 2 ^ 32 then some value else none

/-- `parse::<u32>().ok().filter(|n| *n > 0)`. -/
def parsePositive (text : List Char) : Option ℕ := (parseU32 text).filter (0 < ·)

def number (value : List Char) : Option (ℕ × List Char) :=
  let digits := value.takeWhile Char.isDigit
  if digits = [] then none
  else (parsePositive digits).map fun n => (n, value.drop digits.length)

/-- `text.trim_matches('"')`. -/
def trimQuotes (text : List Char) : List Char :=
  trimEndMatches (· = '"') (text.dropWhile (· = '"'))

/-- What stands before and behind each colon. -/
def colons : List Char → List (List Char × List Char)
  | [] => []
  | c :: rest =>
    (if c = ':' then [([], rest)] else []) ++
      (colons rest).map fun parts => (c :: parts.1, parts.2)

/-- One turn of the loop over the colons of a line. -/
def colonLocation (front rest : List Char) : Option (List Char × ℕ × Option ℕ) := do
  let (row, rest) ← number rest
  if rest ≠ [] ∧ rest.head? ≠ some ':' ∧ rest.head? ≠ some ' ' then none
  else
    let column := ((stripStart ":" rest).bind number).map Prod.fst
    let path := trimText front
    if path = [] ∨ (' ' ∈ path ∧ path.head? ≠ some '"') then none
    else some (trimQuotes path, row, column)

/-- The text before the first parenthesis of a line, and what stands between it and the next
`):`. -/
def parenthesized (line : List Char) : Option (List Char × List Char) := do
  let (path, rest) ← splitOnce ['('] line
  let (position, _) ← splitOnce "):".toList rest
  some (path, position)

/-- What `location` looks for behind an arrow. -/
def plainLocation (line : List Char) : Option (List Char × ℕ × Option ℕ) :=
  match parenthesized line with
  | some (path, position) => do
    let (row, column) ← splitOnce [','] position
    let row ← parsePositive row
    let column ← parsePositive (trimText column)
    some (trimText path, row, some column)
  | none => (colons line).findSome? fun parts => colonLocation parts.1 parts.2

def location (line : List Char) : Option (List Char × ℕ × Option ℕ) :=
  match stripStart "File \"" line with
  | some rest => do
    let (path, rest) ← splitOnce "\", line ".toList rest
    let (row, _) ← number rest
    some (path, row, none)
  | none => plainLocation ((stripStart "--> " line).getD line)

/-- `line.split_whitespace()`. -/
def splitWhitespace (line : List Char) : List (List Char) :=
  (line.splitOnP isWhitespace).filter (· ≠ [])

def severityWord (line : List Char) : Option String :=
  (splitWhitespace line).findSome? fun word =>
    let word := String.ofList (trimEndMatches (· = ':') word)
    if word ∈ ["error", "warning", "note", "info"] then some word else none

def lineRecord (line path : List Char) (row : ℕ) (column : Option ℕ) : TaskDiagnostic :=
  { base path line "partial" with
    line := some row, column := column, severity := severity (severityWord line) }

/-- The loop of `parse`. -/
def parseLines : List (List Char) → ParsedTaskDiagnostics → ParsedTaskDiagnostics
  | [], parsed => parsed
  | rawLine :: rest, parsed =>
    if '\x00' ∈ rawLine then parseLines rest parsed.parseError
    else
      let line := sanitize rawLine (utf8Length rawLine) false
      match location line with
      | none => parseLines rest parsed
      | some (path, row, column) =>
        if parsed.limits.records ≤ parsed.records.length then markRecordLimit parsed
        else parseLines rest (parsed.push (lineRecord line path row column))

def parse (content : String) (parsed : ParsedTaskDiagnostics) : ParsedTaskDiagnostics :=
  parseLines (textLines content) parsed

end Reposcout.TaskDiagnostics.TextFormat
