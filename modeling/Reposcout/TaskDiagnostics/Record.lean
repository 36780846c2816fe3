import Reposcout.Model.Text

/-!
# Task diagnostics

A diagnostic of another tool as it is kept: a location, a severity and a message, each bounded and
without terminal escapes.
-/

namespace Reposcout.TaskDiagnostics

/-! ## Records -/

inductive TaskDiagnosticFormat
  | auto
  | sarif
  | rustcJson
  | text
  deriving DecidableEq

inductive TaskDiagnosticSeverity
  | error
  | warning
  | note
  | info
  | unknown
  deriving DecidableEq

inductive TaskDiagnosticStatus
  | resolved
  | outOfScope
  | unresolved
  deriving DecidableEq

/-- `TaskDiagnostic`, with the fields in the order by which records are compared. -/
structure TaskDiagnostic where
  id : String := ""
  path : Option String := none
  originalPath : Option String := none
  line : Option ℕ := none
  column : Option ℕ := none
  endLine : Option ℕ := none
  endColumn : Option ℕ := none
  severity : TaskDiagnosticSeverity := .unknown
  code : Option String := none
  tool : Option String := none
  message : String := ""
  confidence : String := ""
  status : TaskDiagnosticStatus := .unresolved
  reason : Option String := none
  deriving DecidableEq

structure TaskDiagnosticLimits where
  inputBytes : ℕ
  records : ℕ
  details : ℕ
  deriving DecidableEq

structure TaskDiagnosticEvidence where
  format : TaskDiagnosticFormat := .auto
  status : String := ""
  bytesRead : ℕ := 0
  parsedRecords : ℕ := 0
  deduplicatedRecords : ℕ := 0
  resolvedRecords : ℕ := 0
  unresolvedRecords : ℕ := 0
  outOfScopeRecords : ℕ := 0
  parseErrors : ℕ := 0
  ignoredRecords : ℕ := 0
  inputTruncated : Bool := false
  recordsTruncated : Bool := false
  omittedRecords : ℕ := 0
  omittedRecordsExact : Bool := false
  omittedDetails : ℕ := 0
  diagnostics : List TaskDiagnostic := []
  deriving DecidableEq

structure ParsedTaskDiagnostics where
  records : List TaskDiagnostic
  evidence : TaskDiagnosticEvidence
  limits : TaskDiagnosticLimits
  deriving DecidableEq

/-- `parsed.evidence.parse_errors += 1`. -/
def ParsedTaskDiagnostics.parseError (parsed : ParsedTaskDiagnostics) : ParsedTaskDiagnostics :=
  { parsed with
    evidence := { parsed.evidence with parseErrors := parsed.evidence.parseErrors + 1 } }

/-- `parsed.evidence.ignored_records += 1`. -/
def ParsedTaskDiagnostics.ignored (parsed : ParsedTaskDiagnostics) : ParsedTaskDiagnostics :=
  { parsed with
    evidence := { parsed.evidence with ignoredRecords := parsed.evidence.ignoredRecords + 1 } }

/-- `parsed.records.push(record)`. -/
def ParsedTaskDiagnostics.push (parsed : ParsedTaskDiagnostics) (record : TaskDiagnostic) :
    ParsedTaskDiagnostics :=
  { parsed with records := parsed.records ++ [record] }

def markRecordLimit (parsed : ParsedTaskDiagnostics) : ParsedTaskDiagnostics :=
  { parsed with
    evidence := { parsed.evidence with
      recordsTruncated := true, omittedRecords := 1, omittedRecordsExact := false } }

/-! ## Texts -/

/-- Where a text stands in a terminal escape. -/
inductive Escape
  | outside
  /-- Behind the escape character. -/
  | started
  /-- In a control sequence. -/
  | control
  /-- In an operating system command. -/
  | command
  /-- Behind an escape character in an operating system command. -/
  | ending
  deriving DecidableEq

/-- Where a text stands one character later.  Outside of escapes only the escape character
matters. -/
def Escape.next : Escape → Char → Escape
  | .outside, c => if c = '\x1b' then .started else .outside
  | .started, c => if c = '[' then .control else if c = ']' then .command else .outside
  | .control, c => if '@' ≤ c ∧ c ≤ '~' then .outside else .control
  | .command, c =>
    if c = '\x07' then .outside else if c = '\x1b' then .ending else .command
  | .ending, c => if c = '\\' then .outside else .command

/-- The loop of `sanitize`, with what it has kept and how much. -/
def sanitizeFrom (cap : ℕ) (collapse : Bool) : Escape → List Char → ℕ → List Char → List Char
  | _, result, _, [] => result
  | escape, result, count, c :: rest =>
    if escape ≠ .outside ∨ c = '\x1b' then
      sanitizeFrom cap collapse (escape.next c) result count rest
    else if collapse ∧ isControl c ∧ ¬ isWhitespace c then
      sanitizeFrom cap collapse .outside result count rest
    else
      let c := if collapse ∧ isWhitespace c then ' ' else c
      if collapse ∧ c = ' ' ∧ (result = [] ∨ result.getLast? = some ' ') then
        sanitizeFrom cap collapse .outside result count rest
      else if count = cap then result
      else sanitizeFrom cap collapse .outside (result ++ [c]) (count + 1) rest

def sanitize (value : List Char) (cap : ℕ) (collapse : Bool) : List Char :=
  trimText (sanitizeFrom cap collapse .outside [] 0 value)

def clean (value : List Char) (cap : ℕ) : List Char := sanitize value cap true

/-- `text.truncate(text.floor_char_boundary(bytes.min(text.len())))`. -/
def truncateBytes (bytes : ℕ) : List Char → List Char
  | [] => []
  | c :: rest =>
    if c.utf8Size ≤ bytes then c :: truncateBytes (bytes - c.utf8Size) rest else []

/-! ## New records -/

/-- A path that is too long, or has control characters in it. -/
def isInvalidPath (path : List Char) : Bool := 4096 < utf8Length path || path.any isControl

def base (path message : List Char) (confidence : String) : TaskDiagnostic where
  originalPath := some (String.ofList
    (truncateBytes 4096 (if isInvalidPath path then clean path 4096 else path)))
  message := String.ofList (clean message 512)
  confidence := confidence
  reason := if isInvalidPath path then some "invalid-path" else none

def severity : Option String → TaskDiagnosticSeverity
  | some "error" => .error
  | some "warning" => .warning
  | some "note" | some "help" | some "failure-note" => .note
  | some "info" | some "none" => .info
  | _ => .unknown

end Reposcout.TaskDiagnostics
