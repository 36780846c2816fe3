import Mathlib.Data.Rat.Floor
import Reposcout.Dup.Groups
import Reposcout.Findings.Catalog
import Reposcout.Framework.Encoding
import Reposcout.Model.SourceQuery

/-!
# Building a finding catalog

`build` projects the complexity violations and markers of every file, the duplicate groups and
the high-risk files into one sorted catalog.  Findings that belong to a path are filed under a
fingerprint of their kind, path and identity; duplicate groups under the content fingerprint
they carry.

The 128-bit hash behind the path fingerprints is external and a parameter.  Metric values are
exact rationals.
-/

namespace Reposcout.Findings

open Dup

def catalogVersion : Nat := 1

def riskThreshold : ℚ := 7 / 10

structure FunctionComplexity where
  name : String
  line : Nat
  endLine : Nat
  symbolKey : String
  cyclomatic : Nat
  cognitive : Nat
  maxNesting : Nat
  deriving DecidableEq

structure MarkerOccurrence where
  marker : String
  line : Nat
  column : Nat
  contextHash : String
  occurrence : Nat
  deriving DecidableEq

/-- What the catalog reads of a file report; `complexity` is the list of its functions. -/
structure FileReport where
  path : PathBuf
  complexity : Option (List FunctionComplexity)
  markerOccurrences : List MarkerOccurrence

structure Duplication where
  exact : List (CloneGroup ℚ)
  near : List (CloneGroup ℚ)

structure RiskEntry where
  path : String
  score : ℚ
  sloc : Nat
  cyclomatic : Nat
  churnCommits : Nat
  deriving DecidableEq

structure Config where
  maxComplexity : Nat

/-! ## Fingerprints -/

def utf8Bytes (s : String) : List UInt8 := s.toUTF8.data.toList

/-- The bytes that are hashed for a list of parts, each behind its `usize` length. -/
def fingerprintBytes (parts : List String) : List UInt8 :=
  Encoding.prefixedParts 8 (parts.map utf8Bytes)

/-- `format!("{:032x}", hash)`. -/
def hex128 (hash : BitVec 128) : String := String.ofList (Encoding.hexDigits 32 hash.toNat)

def fingerprint (xxh3_128 : List UInt8 → BitVec 128) (parts : List String) : String :=
  hex128 (xxh3_128 (fingerprintBytes parts))

/-- The parts behind the fingerprint of a finding that belongs to the path with this text. -/
def pathParts (kind path identity : String) : List String :=
  [kind ++ ":v1", normalizeSeparators path, identity]

def pathFingerprint (xxh3_128 : List UInt8 → BitVec 128) (kind path identity : String) :
    String :=
  kind ++ ":v1" ++ ":" ++ fingerprint xxh3_128 (pathParts kind path identity)

/-! ## Severity and locations -/

def toAsciiUppercase (s : String) : String := String.ofList (s.toList.map Char.toUpper)

def markerSeverity (marker : String) : String :=
  if toAsciiUppercase marker = "BUG" ∨ toAsciiUppercase marker = "FIXME" then "warning" else "note"

def cloneLocation (i : CloneInstance) : FindingLocation :=
  let endsAtNextLineStart : Bool :=
    i.endColumn = 1 && i.endLine > i.startLine && i.endByte > i.startByte
  { path := i.path
    startLine := i.startLine
    endLine := max (if endsAtNextLineStart then i.endLine - 1 else i.endLine) i.startLine
    startColumn := if i.startColumn > 0 then some i.startColumn else none
    endColumn := if !endsAtNextLineStart && i.endColumn > 0 then some i.endColumn else none }

/-- Round to the nearest integer, ties to even. -/
def roundHalfEven (q : ℚ) : Int :=
  let rest := q - q.floor
  if rest < 1 / 2 then q.floor
  else if rest > 1 / 2 then q.floor + 1
  else if q.floor % 2 = 0 then q.floor else q.floor + 1

/-- `format!("{:.2}", q)`. -/
def formatTwoDecimals (q : ℚ) : String :=
  let hundredths := (roundHalfEven (|q| * 100)).toNat
  let fraction := hundredths % 100
  (if q < 0 then "-" else "") ++ toString (hundredths / 100) ++ "."
    ++ (if fraction < 10 then "0" else "") ++ toString fraction

/-! ## Records -/

section

variable (xxh3_128 : List UInt8 → BitVec 128)

def functionKey (function : FunctionComplexity) : String :=
  if function.symbolKey = "" then function.name else function.symbolKey

def complexityRecord (cfg : Config) (path : PathBuf) (function : FunctionComplexity) :
    FindingRecord ℚ where
  fingerprint := pathFingerprint xxh3_128 "complexity" path.toStringLossy (functionKey function)
  identity := functionKey function
  kind := "complexity"
  severity := "warning"
  message := "Function `" ++ function.name ++ "` has cyclomatic complexity "
    ++ toString function.cyclomatic ++ ", exceeding " ++ toString cfg.maxComplexity
  primaryLocation :=
    { path, startLine := function.line, endLine := max function.endLine function.line }
  relatedLocations := []
  metrics := [("cyclomatic", (function.cyclomatic : ℚ)), ("cognitive", (function.cognitive : ℚ)),
    ("max_nesting", (function.maxNesting : ℚ)), ("threshold", (cfg.maxComplexity : ℚ))]

def markerIdentity (marker : MarkerOccurrence) : String :=
  marker.marker ++ "|" ++ marker.contextHash ++ "|" ++ toString marker.occurrence

def markerRecord (path : PathBuf) (marker : MarkerOccurrence) : FindingRecord ℚ where
  fingerprint := pathFingerprint xxh3_128 "marker" path.toStringLossy (markerIdentity marker)
  identity := markerIdentity marker
  kind := "marker"
  severity := markerSeverity marker.marker
  message := marker.marker ++ " marker"
  primaryLocation :=
    { path, startLine := marker.line, endLine := marker.line, startColumn := some marker.column
      endColumn := some (marker.column + marker.marker.length) }
  relatedLocations := []
  metrics := []

def overLimit (cfg : Config) (file : FileReport) : List FunctionComplexity :=
  (file.complexity.getD []).filter (fun function => function.cyclomatic > cfg.maxComplexity)

def fileRecords (cfg : Config) (file : FileReport) : List (FindingRecord ℚ) :=
  (overLimit cfg file).map (complexityRecord xxh3_128 cfg file.path)
    ++ file.markerOccurrences.map (markerRecord xxh3_128 file.path)

/-- The fingerprint a duplicate group is filed under. -/
def groupFingerprint (kind : String) (group : CloneGroup ℚ) : String :=
  if group.fingerprint = "" then
    "dup:v1:" ++
      fingerprint xxh3_128 ["duplication:v1", kind, group.format, toString group.tokens]
  else group.fingerprint

/-- The finding of a duplicate group, which needs an instance to be located at. -/
def duplicateRecord (kind : String) (group : CloneGroup ℚ) : Option (FindingRecord ℚ) :=
  match group.instances with
  | [] => none
  | primary :: others =>
    let copies := group.instances.length
    let removableLines := satMul group.lines (copies - 1)
    some {
      fingerprint := groupFingerprint xxh3_128 kind group
      identity := group.fingerprint
      kind := "duplication"
      severity := if kind = "exact" then "warning" else "note"
      message := kind ++ " duplicate family with " ++ toString copies ++ " copies and "
        ++ toString removableLines ++ " removable lines"
      primaryLocation := cloneLocation primary
      relatedLocations := others.map cloneLocation
      metrics := [("copies", (copies : ℚ)), ("removable_lines", (removableLines : ℚ)),
        ("tokens", (group.tokens : ℚ)), ("similarity", group.similarity)] }

def riskRecord (risk : RiskEntry) : FindingRecord ℚ where
  fingerprint := pathFingerprint xxh3_128 "risk" risk.path "file"
  identity := "file"
  kind := "risk"
  severity := "warning"
  message := "High-risk file (" ++ formatTwoDecimals risk.score ++ ")"
  primaryLocation := { path := PathBuf.ofString risk.path, startLine := 1, endLine := 1 }
  relatedLocations := []
  metrics := [("score", risk.score), ("sloc", (risk.sloc : ℚ)),
    ("cyclomatic", (risk.cyclomatic : ℚ)), ("churn_commits", (risk.churnCommits : ℚ))]

def highRisks (risks : List RiskEntry) : List RiskEntry :=
  risks.filter (fun risk => risk.score ≥ riskThreshold)

/-! ## The catalog -/

def findingOrder (a b : FindingRecord ℚ) : Ordering :=
  (Ord.compare a.kind b.kind).then <|
    (Ord.compare a.primaryLocation.path b.primaryLocation.path).then <|
      (Ord.compare a.primaryLocation.startLine b.primaryLocation.startLine).then
        (Ord.compare a.fingerprint b.fingerprint)

/-- The records of a catalog in the order in which they are pushed. -/
def records (files : List FileReport) (duplication : Duplication) (risks : List RiskEntry)
    (cfg : Config) : List (FindingRecord ℚ) :=
  files.flatMap (fileRecords xxh3_128 cfg)
    ++ duplication.exact.filterMap (duplicateRecord xxh3_128 "exact")
    ++ duplication.near.filterMap (duplicateRecord xxh3_128 "type2")
    ++ (highRisks risks).map (riskRecord xxh3_128)

def build (files : List FileReport) (duplication : Duplication) (risks : List RiskEntry)
    (cfg : Config) : FindingCatalog ℚ where
  version := catalogVersion
  findings := KeyedList.sortBy findingOrder (records xxh3_128 files duplication risks cfg)

end

end Reposcout.Findings

/-!
## Finding catalogs across renames

A deep review compares the catalog of the base with the current one.  `remapRenames` first moves
the findings of the base to the paths their files were renamed to, and files those that belong to
a path under the fingerprint of the new path.
-/

namespace Reposcout.Findings

/-- A file change of a diff, with the ranges of changed lines on both sides.  `status` is one of
the texts of the diff, such as `renamed`. -/
structure ReviewChangedFile where
  oldPath : Option PathBuf
  path : Option PathBuf
  status : String
  oldRanges : List LineRange
  ranges : List LineRange
  binary : Bool
  deriving DecidableEq

def renamedPaths (file : ReviewChangedFile) : Option (PathBuf × PathBuf) :=
  if file.status = "renamed" then
    match file.oldPath, file.path with
    | some oldPath, some path => some (oldPath, path)
    | _, _ => none
  else none

/-- The renames by their old path; a later one replaces an earlier one. -/
def renames (changedFiles : List ReviewChangedFile) : List (PathBuf × PathBuf) :=
  (changedFiles.filterMap renamedPaths).foldl (fun map rename =>
    KeyedList.alter rename.1 (fun _ => rename.2) map) []

def renamedPath (renames : List (PathBuf × PathBuf)) (path : PathBuf) : PathBuf :=
  (KeyedList.get? path renames).getD path

def remapLocation (renames : List (PathBuf × PathBuf)) (location : FindingLocation) :
    FindingLocation :=
  { location with path := renamedPath renames location.path }

section

variable {K : Type} (xxh3_128 : List UInt8 → BitVec 128)

/-- The body of the loop of `remap_renames`. -/
def remapFinding (renames : List (PathBuf × PathBuf)) (finding : FindingRecord K) :
    FindingRecord K :=
  let finding :=
    { finding with
      primaryLocation := remapLocation renames finding.primaryLocation
      relatedLocations := finding.relatedLocations.map (remapLocation renames) }
  if finding.kind ≠ "duplication" then
    { finding with
      fingerprint :=
        pathFingerprint xxh3_128 finding.kind finding.primaryLocation.path.toStringLossy
          finding.identity }
  else finding

def remapRenames (catalog : FindingCatalog K) (changedFiles : List ReviewChangedFile) :
    FindingCatalog K :=
  let renames := renames changedFiles
  if renames = [] then catalog
  else
    { catalog with
      findings :=
        KeyedList.sortBy (fun a b => Ord.compare a.fingerprint b.fingerprint)
          (catalog.findings.map (remapFinding xxh3_128 renames)) }

end

end Reposcout.Findings
