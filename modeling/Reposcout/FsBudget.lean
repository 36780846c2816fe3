import Mathlib.Data.List.Basic
import Reposcout.Model.Machine

/-!
# Bounded file reads

Readers of repository files share a budget of files and bytes.  Whatever the file system answers
(the metadata of a path, the result of opening it, the bytes that are there when it is read) is
input: two questions about one file need not have consistent answers.
-/

namespace Reposcout

/-- `ReadBudget`, without its deadline: whether it has passed is asked of the clock. -/
structure ReadBudget where
  maxFileBytes : ℕ
  remainingTotalBytes : ℕ
  remainingFiles : ℕ

namespace ReadBudget

def new (maxFileBytes maxTotalBytes maxFiles : ℕ) : ReadBudget where
  maxFileBytes := max maxFileBytes 1
  remainingTotalBytes := max maxTotalBytes 1
  remainingFiles := max maxFiles 1

def consume (budget : ReadBudget) (bytes : ℕ) : ReadBudget :=
  { budget with
    remainingFiles := budget.remainingFiles - 1
    remainingTotalBytes := budget.remainingTotalBytes - bytes }

end ReadBudget

inductive ReadOutcome where
  | content (text : String)
  | oversized (size : ℕ)
  | budgetExceeded
  | deadlineExceeded
  | notRegularFile
  | unreadable

/-! ## Answers of the file system -/

structure Metadata where
  isFile : Bool
  isSymlink : Bool
  len : ℕ
  deriving DecidableEq

/-- An opened file: its metadata when it is opened and when it is asked again, and the bytes until
its end, absent if reading fails. -/
structure FileHandle where
  opened : Option Metadata
  metadata : Option Metadata
  bytes : Option (List UInt8)
  deriving DecidableEq

inductive OpenResult where
  | handle (file : FileHandle)
  | loop
  | notDirectory
  | failed

inductive PathComponent where
  | normal (name : String)
  | other
  deriving DecidableEq

/-- `file.take(limit).read_to_end`. -/
def FileHandle.readToEnd (file : FileHandle) (limit : ℕ) : Option (List UInt8) :=
  file.bytes.map fun bytes => bytes.take limit

def fromUtf8 (bytes : List UInt8) : Option String := String.fromUTF8? bytes.toByteArray

def decodeContent (bytes : List UInt8) : ReadOutcome :=
  match fromUtf8 bytes with
  | some text => .content text
  | none => .unreadable

/-! ## Reading a path -/

def openNofollow : OpenResult → Except ReadOutcome FileHandle
  | .handle file =>
    if file.opened.any fun metadata => metadata.isFile then .ok file else .error .notRegularFile
  | .loop => .error .notRegularFile
  | .notDirectory | .failed => .error .unreadable

def readRegularFileBytes (opened : OpenResult) (metadataBytes maxFileBytes : ℕ) :
    Except ReadOutcome (List UInt8) :=
  match openNofollow opened with
  | .error .notRegularFile => .error .notRegularFile
  | .error _ => .error .unreadable
  | .ok file =>
    match file.metadata.filter fun metadata => metadata.len > maxFileBytes with
    | some metadata => .error (.oversized metadata.len)
    | none =>
      match file.readToEnd (satAdd maxFileBytes 1) with
      | none => .error .unreadable
      | some bytes =>
        if bytes.length > maxFileBytes then .error (.oversized (max bytes.length metadataBytes))
        else .ok bytes

/-- What the clock and the file system answer to `read_text`. -/
structure TextRead where
  deadlinePassed : Bool
  metadata : Option Metadata
  opened : OpenResult

def readText (budget : ReadBudget) (read : TextRead) : ReadBudget × ReadOutcome :=
  if read.deadlinePassed then (budget, .deadlineExceeded)
  else if budget.remainingFiles = 0 ∨ budget.remainingTotalBytes = 0 then (budget, .budgetExceeded)
  else
    match read.metadata with
    | none => (budget, .unreadable)
    | some metadata =>
      if ¬ metadata.isFile ∨ metadata.isSymlink then (budget, .notRegularFile)
      else if metadata.len > budget.maxFileBytes then (budget, .oversized metadata.len)
      else if metadata.len > budget.remainingTotalBytes then (budget, .budgetExceeded)
      else
        match readRegularFileBytes read.opened metadata.len budget.maxFileBytes with
        | .ok bytes => (budget.consume bytes.length, decodeContent bytes)
        | .error outcome => (budget, outcome)

/-! ## Reading below a root -/

/-- `open_under_root`: the components of a path, each with the answer to opening it. -/
def openUnderRoot : List (PathComponent × OpenResult) → Except ReadOutcome FileHandle
  | [] => .error .notRegularFile
  | (.other, _) :: _ => .error .notRegularFile
  | (.normal _, .handle file) :: rest => if rest = [] then .ok file else openUnderRoot rest
  | (.normal _, .loop) :: _ | (.normal _, .notDirectory) :: _ => .error .notRegularFile
  | (.normal _, .failed) :: _ => .error .unreadable

/-- What the clock and the file system answer to `read_from_root`. -/
structure RootRead where
  components : List (PathComponent × OpenResult)
  deadlinePassed : Bool
  deadlinePassedAfter : Bool

def readFromRoot (budget : ReadBudget) (read : RootRead) : ReadBudget × ReadOutcome :=
  if read.components = [] ∨ (read.components.any fun component => component.1 = .other) then
    (budget, .notRegularFile)
  else if read.deadlinePassed then (budget, .deadlineExceeded)
  else if budget.remainingFiles = 0 ∨ budget.remainingTotalBytes = 0 then (budget, .budgetExceeded)
  else
    match openUnderRoot read.components with
    | .error outcome => (budget, outcome)
    | .ok file =>
      match file.metadata with
      | none => (budget, .unreadable)
      | some metadata =>
        let cap := min budget.maxFileBytes budget.remainingTotalBytes
        if ¬ metadata.isFile then (budget, .notRegularFile)
        else if metadata.len > budget.maxFileBytes then (budget, .oversized metadata.len)
        else if metadata.len > cap then (budget, .budgetExceeded)
        else
          match file.readToEnd (satAdd cap 1) with
          | none => (budget, .unreadable)
          | some bytes =>
            (budget.consume bytes.length,
              if bytes.length > cap then
                if cap < budget.maxFileBytes then .budgetExceeded else .oversized bytes.length
              else if read.deadlinePassedAfter then .deadlineExceeded
              else decodeContent bytes)

/-! ## Runs of reads -/

/-- A read on a shared budget: `read_text`, or a read below a root. The latter never starts if the
path is not below the root or the root cannot be opened. -/
inductive ReadOperation where
  | text (read : TextRead)
  | root (read : Option RootRead)

namespace ReadBudget

def step (budget : ReadBudget) : ReadOperation → ReadBudget × ReadOutcome
  | .text read => readText budget read
  | .root none => (budget, .notRegularFile)
  | .root (some read) => readFromRoot budget read

def run (budget : ReadBudget) : List ReadOperation → ReadBudget × List ReadOutcome
  | [] => (budget, [])
  | operation :: rest =>
    let next := budget.step operation
    let final := next.1.run rest
    (final.1, next.2 :: final.2)

end ReadBudget

def ReadOutcome.returned : ReadOutcome → Option String
  | .content text => some text
  | _ => none

def returnedBytes (outcomes : List ReadOutcome) : ℕ :=
  ((outcomes.filterMap ReadOutcome.returned).map String.utf8ByteSize).sum

def returnedFiles (outcomes : List ReadOutcome) : ℕ :=
  (outcomes.filterMap ReadOutcome.returned).length

end Reposcout
