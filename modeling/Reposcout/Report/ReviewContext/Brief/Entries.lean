import Reposcout.Query.ReviewContext.Projection
import Reposcout.Report.ReviewContext.Brief.Evidence

/-!
# Entries of a brief

What a brief prints of the evidence, of the usage lines and of the documentation lines under a
selection, and how many of them it reports as counted or omitted.
-/

namespace Reposcout.Report.ReviewContext

open Query.ReviewContext

/-! ## The brief -/

structure ReviewUsageLine where
  change : ReviewChangePaths
  side : String
  path : PathBuf
  line : ℕ
  text : String
  deriving DecidableEq

structure ReviewDocMention where
  path : PathBuf
  line : ℕ
  text : String
  deriving DecidableEq

def changePaths (change : ReviewContextChange) : ReviewChangePaths :=
  ⟨change.base.map fun side => side.path.path, change.head.map fun side => side.path.path⟩

/-- The changes that `classify` gives an entry of their own: those with a hunk that is not only
rewritten, without a diff, added, deleted, or neither renamed nor with a hunk. -/
def classify (changes : List ReviewChangePaths) (hasDiff modeChanged : ℕ → Bool)
    (hunks : List ReviewBriefHunk) : List ℕ :=
  (changes.zipIdx.filter fun change =>
    let renamed := change.1.base.isSome && change.1.head.isSome &&
      (change.1.base ≠ change.1.head || modeChanged change.2)
    let own := hunks.filter fun hunk => hunk.change = change.2
    if (own.any fun hunk => hunk.role ≠ .rewrite) || !hasDiff change.2 ||
        change.1.base.isNone || change.1.head.isNone then true
    else if renamed then false
    else own.isEmpty).map Prod.snd

/-- A report with its brief. No two changes have the same paths, hunks are of the changes, and the
totals count at least the lines that are kept. -/
structure BriefReport where
  report : ReviewContextReport
  hasDiff : ℕ → Bool
  modeChanged : ℕ → Bool
  hunks : List ReviewBriefHunk
  entryChains : List (List PathBuf)
  mentions : List ReviewDocMention
  mentionsTotal : ℕ
  usage : List ReviewUsageLine
  usageTotal : ℕ
  nodup_paths : (report.changes.map changePaths).Nodup
  change_lt : ∀ hunk ∈ hunks, hunk.change < report.changes.length
  mentions_le : mentions.length ≤ mentionsTotal
  usage_le : usage.length ≤ usageTotal

namespace BriefReport

/-- What the projection reads of the brief. -/
def brief (report : BriefReport) : ReviewBrief where
  changes := report.report.changes.map changePaths
  hunks := report.hunks
  entryChanges := classify (report.report.changes.map changePaths) report.hasDiff
    report.modeChanged report.hunks
  mentions := report.mentions.length
  usage := report.usage.map ReviewUsageLine.change

end BriefReport

/-! ## Relations -/

def pathText (path : PathBuf) : List Char := terminalText path.toStringLossy.toList

structure ReferenceGroup where
  target : List Char
  marker : List Char
  sites : List (List Char)

def groupReference (reference : Reference) : List ReferenceGroup → List ReferenceGroup
  | [] => [⟨reference.text.1, sidesMarker reference.sides, [reference.text.2]⟩]
  | group :: rest =>
    if group.target = reference.text.1 ∧ group.marker = sidesMarker reference.sides then
      { group with sites := group.sites ++ [reference.text.2] } :: rest
    else group :: groupReference reference rest

def groupReferences (references : List Reference) : List ReferenceGroup :=
  references.foldl (fun groups reference => groupReference reference groups) []

def ReferenceGroup.line (group : ReferenceGroup) : List Char :=
  "  ".toList ++ group.target ++ group.marker ++ ": ".toList ++ [',', ' '].intercalate group.sites

def typeLine (type : List Char × List String) : List Char :=
  "  type ".toList ++ type.1 ++ sidesMarker type.2

def chainLine (chain : List PathBuf) : List Char :=
  "  entry: ".toList ++ " <- ".toList.intercalate (chain.dropLast.map pathText)

/-- `relations`: the lines of a change with details. -/
def relationLines (entryChains : List (List PathBuf)) (change : ReviewContextChange)
    (evidence : Evidence) : List (List Char) :=
  (groupReferences evidence.references).map ReferenceGroup.line ++ evidence.types.map typeLine ++
    match change.head with
    | none => []
    | some head =>
      (entryChains.filter fun chain => chain.getLast? = some head.path.path && 2 < chain.length).map
        chainLine

/-! ## Importers -/

def maxImporters : ℕ := 6

/-- The importers that a line names, and the number of further ones. -/
structure ImporterLine where
  listed : List (String × List String)
  more : ℕ
  deriving DecidableEq

/-- `importers`, before it is a text: those without a listed reference come first. -/
def importers (evidence : Evidence) : ImporterLine :=
  let callers := evidence.references.map Reference.source
  let sorted := KeyedList.sortBy (fun left right =>
    (compare (callers.contains left.1) (callers.contains right.1)).then (compare left.1 right.1))
    evidence.importers
  ⟨sorted.take maxImporters, sorted.length - maxImporters⟩

/-- `imported by:` with its importers. -/
def ImporterLine.text (report : ReviewContextReport) (line : ImporterLine) : List Char :=
  "  imported by: ".toList ++ [',', ' '].intercalate
    ((line.listed.map fun importer =>
        terminalText importer.1.toList ++
          (if isTest report importer.1 then " [test]".toList else []) ++ sidesMarker importer.2) ++
      if 0 < line.more then ['+' :: Nat.toDigits 10 line.more ++ " more".toList] else [])

/-! ## Entries -/

def usageLines (report : BriefReport) (selection : ReviewBriefSelection)
    (change : ReviewContextChange) : List ReviewUsageLine :=
  KeyedList.sortBy (fun left right =>
      ((compare left.path right.path).then (compare left.side right.side)).then
        (compare left.line right.line))
    ((report.usage.zipIdx.filter fun line =>
      line.2 ∈ selection.usage && line.1.change = changePaths change).map Prod.fst)

/-- What `entry` prints of the evidence and of the usage lines of a change. -/
structure BriefEntry where
  change : ℕ
  relations : List (List Char)
  importers : Option ImporterLine
  usage : List ReviewUsageLine
  deriving DecidableEq

def entry (report : BriefReport) (selection : ReviewBriefSelection) (index : ℕ)
    (change : ReviewContextChange) (evidence : Evidence) : BriefEntry where
  change := index
  relations :=
    if index ∈ selection.details then relationLines report.entryChains change evidence else []
  importers :=
    if index ∈ selection.importers ∧ ¬evidence.importers.isEmpty then some (importers evidence)
    else none
  usage := usageLines report selection change

/-! ## Omissions -/

def collapsed : ℕ := 3

def omittedHunkList (report : BriefReport) (selection : ReviewBriefSelection) (explained : Bool) :
    List (ReviewBriefHunk × ℕ) :=
  report.hunks.zipIdx.filter fun hunk =>
    hunk.1.role = .shown && (hunk.1.explained && selection.level < collapsed) = explained &&
      !(hunk.2 ∈ selection.hunks && hunk.1.change ∈ selection.entries)

def omittedUsage (report : BriefReport) (selection : ReviewBriefSelection) : ℕ :=
  report.usageTotal -
    (report.report.changes.map fun change => (usageLines report selection change).length).sum

/-- The documentation lines that are reported as omitted. -/
def omittedMentions (report : BriefReport) (selection : ReviewBriefSelection) : ℕ :=
  report.mentionsTotal - selection.mentions.card

def omitted (report : BriefReport) (selection : ReviewBriefSelection) : List (List Char) :=
  let entryChanges := report.brief.entryChanges
  ([((omittedHunkList report selection false).length,
      if selection.level < 2 then "hunks (listed at the end)" else "hunks (counted at the end)"),
    ((omittedHunkList report selection true).length,
      if selection.explainedSites then "rule-explained hunks (grouped at the end)"
      else "rule-explained hunks (counted at the end)"),
    (entryChanges.countP fun index => index ∉ selection.entries, "change entries"),
    (entryChanges.countP fun index => index ∈ selection.entries && index ∉ selection.details,
      "change details"),
    (omittedMentions report selection, "doc lines"),
    (omittedUsage report selection, "usage lines")].filter fun count => 0 < count.1).map
      fun count => Nat.toDigits 10 count.1 ++ ' ' :: count.2.toList

/-! ## The output -/

/-- The evidence that is counted and not listed: that of the changes without details. -/
def countedEvidence (report : BriefReport) (selection : ReviewBriefSelection) :
    List (Evidence × ℕ) :=
  (allEvidence report.report).zipIdx.filter fun evidence => evidence.2 ∉ selection.details

/-- The parts of a brief that depend on the selection of the evidence and of the lines. -/
structure BriefSections where
  unlisted : ℕ
  omitted : List (List Char)
  entries : List BriefEntry
  mentions : List ReviewDocMention

def plain (report : BriefReport) (selection : ReviewBriefSelection) : BriefSections where
  unlisted := ((countedEvidence report selection).map fun evidence => evidence.1.count).sum
  omitted := omitted report selection
  entries := (report.brief.entryChanges.filter fun index => index ∈ selection.entries).filterMap
    fun index => do
      let change ← report.report.changes[index]?
      let evidence ← (allEvidence report.report)[index]?
      return entry report selection index change evidence
  mentions := (report.mentions.zipIdx.filter fun mention => mention.2 ∈ selection.mentions).map
    Prod.fst

end Reposcout.Report.ReviewContext
