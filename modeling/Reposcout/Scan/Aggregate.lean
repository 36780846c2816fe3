import Reposcout.Dup.Coverage

/-!
# The duplication of a scan

How much of every analyzed file, of every language and of the production sources is duplicated.
Ratios are exact, and which files are production sources is an input.
-/

namespace Reposcout.Scan.Aggregate

open Dup KeyedList

/-- What the duplication of a file is computed from. -/
structure FileReport where
  path : PathBuf
  language : String
  loc : ℕ

structure FileDuplication where
  path : PathBuf
  format : String
  lines : ℕ
  tokens : ℕ
  duplicatedLines : ℕ
  duplicatedTokens : ℕ
  duplicatedLinesPct : ℚ
  duplicatedTokensPct : ℚ

def percentage (part total : ℕ) : ℚ := if total = 0 then 0 else part / total * 100

def fileDuplication (coverage : DuplicateCoverage) (formats : List (PathBuf × String))
    (file : FileReport) (tokens : ℕ) : FileDuplication :=
  let duplicatedLines := coverage.coveredLines file.path
  let duplicatedTokens := coverage.coveredTokens file.path
  { path := file.path
    format := (get? file.path formats).getD file.language
    lines := file.loc
    tokens
    duplicatedLines
    duplicatedTokens
    duplicatedLinesPct := percentage duplicatedLines file.loc
    duplicatedTokensPct := percentage duplicatedTokens tokens }

def buildFileDuplicationCoverage (files : List FileReport) (coverage : DuplicateCoverage)
    (tokenCounts : List (PathBuf × ℕ)) (formats : List (PathBuf × String)) :
    List FileDuplication :=
  files.filterMap fun file =>
    (get? file.path tokenCounts).map (fileDuplication coverage formats file)

/-! ## Languages -/

structure LanguageDuplication where
  name : String
  files : ℕ
  lines : ℕ
  tokens : ℕ
  duplicatedLines : ℕ
  duplicatedTokens : ℕ
  duplicatedLinesPct : ℚ
  duplicatedTokensPct : ℚ
  exactGroups : ℕ
  nearGroups : ℕ
  deriving DecidableEq

namespace LanguageDuplication

/-- A language without files. -/
def new (name : String) : LanguageDuplication := ⟨name, 0, 0, 0, 0, 0, 0, 0, 0, 0⟩

def addFile (language : LanguageDuplication) (file : FileDuplication) : LanguageDuplication :=
  { language with
    files := language.files + 1
    lines := language.lines + file.lines
    tokens := language.tokens + file.tokens
    duplicatedLines := language.duplicatedLines + file.duplicatedLines
    duplicatedTokens := language.duplicatedTokens + file.duplicatedTokens }

def addGroup (exact : Bool) (language : LanguageDuplication) : LanguageDuplication :=
  if exact then { language with exactGroups := language.exactGroups + 1 }
  else { language with nearGroups := language.nearGroups + 1 }

def withPercentages (language : LanguageDuplication) : LanguageDuplication :=
  { language with
    duplicatedLinesPct := percentage language.duplicatedLines language.lines
    duplicatedTokensPct := percentage language.duplicatedTokens language.tokens }

end LanguageDuplication

/-- The languages of the analyzed files. -/
def languagesOf (fileCoverage : List FileDuplication) : List (String × LanguageDuplication) :=
  fileCoverage.foldl (fun languages file =>
    KeyedList.alter file.format (fun language => (language.getD (.new file.format)).addFile file)
      languages) []

/-- The formats of the analyzed files that a group has instances in. -/
def involvedFormats (fileCoverage : List FileDuplication) (group : CloneGroup ℚ) : List String :=
  let pathFormats := indexBy FileDuplication.path fileCoverage
  (group.instances.filterMap fun item =>
    (get? item.path pathFormats).map FileDuplication.format).dedup

def countGroup (fileCoverage : List FileDuplication) (exact : Bool)
    (languages : List (String × LanguageDuplication)) (group : CloneGroup ℚ) :
    List (String × LanguageDuplication) :=
  let formats := involvedFormats fileCoverage group
  languages.map fun language =>
    if language.1 ∈ formats then (language.1, language.2.addGroup exact) else language

/-- The order of the languages: the most duplicated lines first. -/
def compareLanguages (a b : LanguageDuplication) : Ordering :=
  ((compare b.duplicatedLines a.duplicatedLines).then
    (compare b.duplicatedTokens a.duplicatedTokens)).then (compare a.name b.name)

def duplicationByLanguage (duplication : Findings.Duplication)
    (fileCoverage : List FileDuplication) : List LanguageDuplication :=
  let languages := duplication.exact.foldl (countGroup fileCoverage true) (languagesOf fileCoverage)
  let languages := duplication.near.foldl (countGroup fileCoverage false) languages
  sortBy compareLanguages (languages.map fun language => language.2.withPercentages)

structure DuplicationSummary where
  exactGroups : ℕ
  nearGroups : ℕ
  duplicatedLines : ℕ
  duplicatedPct : ℚ
  analyzedLines : ℕ
  duplicatedTokens : ℕ
  analyzedTokens : ℕ
  duplicatedTokensPct : ℚ
  byLanguage : List LanguageDuplication

/-- `summarize_duplication`, without the rankings. -/
def summarizeDuplication (duplication : Findings.Duplication)
    (fileCoverage : List FileDuplication) (coverage : DuplicateCoverage) : DuplicationSummary :=
  let duplicatedLines := coverage.totalLines
  let duplicatedTokens := coverage.totalTokens
  let analyzedLines := (fileCoverage.map FileDuplication.lines).sum
  let analyzedTokens := (fileCoverage.map FileDuplication.tokens).sum
  { exactGroups := duplication.exact.length
    nearGroups := duplication.near.length
    duplicatedLines
    duplicatedPct := percentage duplicatedLines analyzedLines
    analyzedLines
    duplicatedTokens
    analyzedTokens
    duplicatedTokensPct := percentage duplicatedTokens analyzedTokens
    byLanguage := duplicationByLanguage duplication fileCoverage }

/-! ## Production sources -/

structure ProductionDuplication where
  duplicatedLines : ℕ
  analyzedLines : ℕ
  duplicatedPct : ℚ
  complete : Bool

def testLines (file : FileReport) (regions : List LineRange) : ℕ :=
  min (regions.map fun range => min range.stop file.loc - (range.start - 1)).sum file.loc

def productionDuplication (isSource : PathBuf → Bool) (files : List FileReport)
    (coverage : DuplicateCoverage) (testRegions : List (PathBuf × List LineRange))
    (complete : Bool) : ProductionDuplication :=
  let totals := (files.filter fun file => isSource file.path).foldl (fun totals file =>
    let regions := (get? file.path testRegions).getD []
    (totals.1 + coverage.coveredLinesExcluding file.path regions,
      totals.2 + (file.loc - testLines file regions))) (0, 0)
  { duplicatedLines := totals.1
    analyzedLines := totals.2
    duplicatedPct := percentage totals.1 totals.2
    complete }

end Reposcout.Scan.Aggregate
