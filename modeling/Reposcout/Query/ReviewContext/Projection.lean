import Reposcout.Framework.KeyedList
import Reposcout.Framework.Trimming
import Reposcout.Model.Path

/-!
# The projection of a review brief

A brief has mandatory sections, which a rung renders in more or less detail, and optional items in
an order of admission.  The projection picks a rung and the longest prefix of the items that the
bisection finds to fit, and then tries some of the later items one by one.

What a selection renders to and the number of tokens of a text are inputs, and the time a
projection takes is left out.
-/

namespace Reposcout.Query.ReviewContext

/-! ## The brief -/

inductive ReviewHunkRole where
  | rewrite
  | moved
  | shown
  deriving DecidableEq

/-- What the projection reads of a hunk. -/
structure ReviewBriefHunk where
  change : ℕ
  role : ReviewHunkRole
  priority : ℕ
  explained : Bool
  deriving DecidableEq

structure ReviewChangePaths where
  base : Option PathBuf
  head : Option PathBuf
  deriving DecidableEq

/-- What the projection reads of a brief: a mention only counts, and a usage line names a change. -/
structure ReviewBrief where
  changes : List ReviewChangePaths
  hunks : List ReviewBriefHunk
  entryChanges : List ℕ
  mentions : ℕ
  usage : List ReviewChangePaths

inductive BriefItem where
  | examples
  | siteLines
  | explainedSites
  | entry (change : ℕ)
  | details (change : ℕ)
  | hunk (index : ℕ)
  | importers (change : ℕ)
  | mention (index : ℕ)
  | usage (index : ℕ)

def ReviewBrief.changePath (brief : ReviewBrief) (change : ℕ) : Option PathBuf :=
  brief.changes[change]?.bind fun change => change.head.or change.base

/-- The order of `Option<PathBuf>`. -/
def comparePath : Option PathBuf → Option PathBuf → Ordering
  | none, none => .eq
  | none, some _ => .lt
  | some _, none => .gt
  | some left, some right => compare left right

/-- The shown hunks by priority, path and index. -/
def ReviewBrief.shownHunks (brief : ReviewBrief) : List (ReviewBriefHunk × ℕ) :=
  KeyedList.sortBy (fun left right =>
      ((compare left.1.priority right.1.priority).then
        (comparePath (brief.changePath left.1.change) (brief.changePath right.1.change))).then
        (compare left.2 right.2))
    (brief.hunks.zipIdx.filter fun hunk => hunk.1.role = .shown)

def hunkItems : List (ReviewBriefHunk × ℕ) → List ℕ → List BriefItem × List ℕ
  | [], detailed => ([], detailed)
  | hunk :: hunks, detailed =>
    if hunk.1.change ∈ detailed then
      let rest := hunkItems hunks detailed
      (.hunk hunk.2 :: rest.1, rest.2)
    else
      let rest := hunkItems hunks (hunk.1.change :: detailed)
      (.hunk hunk.2 :: .details hunk.1.change :: rest.1, rest.2)

/-- `brief_items`. -/
def ReviewBrief.items (brief : ReviewBrief) : List BriefItem :=
  let hunks := hunkItems brief.shownHunks []
  [.siteLines] ++ brief.entryChanges.map .entry ++ hunks.1 ++ [.examples] ++
    (brief.entryChanges.filter fun change => change ∉ hunks.2).map .details ++
    brief.entryChanges.map .importers ++ (List.range brief.mentions).map .mention ++
    (List.range brief.usage.length).map .usage

def ReviewBrief.itemEntry (brief : ReviewBrief) : BriefItem → Option ℕ
  | .details change => some change
  | .importers change => some change
  | .hunk index => brief.hunks[index]?.map ReviewBriefHunk.change
  | .usage index =>
    brief.usage[index]?.bind fun identity => brief.changes.findIdx? fun change => change = identity
  | _ => none

/-! ## Selections -/

structure ReviewBriefSelection where
  examples : Bool
  siteLines : Bool
  explainedSites : Bool
  entries : Finset ℕ
  details : Finset ℕ
  importers : Finset ℕ
  hunks : Finset ℕ
  mentions : Finset ℕ
  usage : Finset ℕ
  level : ℕ
  deriving DecidableEq

def ReviewBriefSelection.ofLevel (level : ℕ) : ReviewBriefSelection :=
  ⟨false, false, false, ∅, ∅, ∅, ∅, ∅, ∅, level⟩

/-- Put a value into a set or take it out. -/
def toggle (values : Finset ℕ) (value : ℕ) (admitted : Bool) : Finset ℕ :=
  if admitted then insert value values else values.erase value

def ReviewBriefSelection.select (selection : ReviewBriefSelection) (item : BriefItem)
    (admitted : Bool) : ReviewBriefSelection :=
  match item with
  | .examples => { selection with examples := admitted }
  | .siteLines => { selection with siteLines := admitted }
  | .explainedSites => { selection with explainedSites := admitted }
  | .entry change => { selection with entries := toggle selection.entries change admitted }
  | .details change => { selection with details := toggle selection.details change admitted }
  | .hunk index => { selection with hunks := toggle selection.hunks index admitted }
  | .importers change => { selection with importers := toggle selection.importers change admitted }
  | .mention index => { selection with mentions := toggle selection.mentions index admitted }
  | .usage index => { selection with usage := toggle selection.usage index admitted }

def setSelection (level : ℕ) (admitted : List BriefItem) : ReviewBriefSelection :=
  admitted.foldl (fun selection item => selection.select item true) (.ofLevel level)

/-! ## The projection -/

/-- `BRIEF_RUNGS`: collapse levels, and whether omitted hunks are listed by site. -/
def briefRungs : List (ℕ × Bool) := [(3, false), (2, false), (1, false), (0, false), (0, true)]

def briefGreedyAttempts : ℕ := 64

def briefSoftTokens : ℕ := 400

def rungLevel (rung : ℕ) : ℕ := (briefRungs.getD rung (0, true)).1

def rungSites (rung : ℕ) : Bool := (briefRungs.getD rung (0, true)).2

def rungBase (rung : ℕ) : List BriefItem := if rungSites rung then [.explainedSites] else []

/-- What a selection renders to: the text, its soft evidence and its diff. -/
structure BriefParts where
  text : String
  soft : String
  diff : String

structure BriefProjection where
  brief : ReviewBrief
  render : ReviewBriefSelection → BriefParts
  count : String → ℕ
  byteBudget : ℕ

structure RungChoice where
  rung : ℕ
  budget : ℕ
  admitted : ℕ

namespace BriefProjection

variable (projection : BriefProjection)

def briefCost (selection : ReviewBriefSelection) : Option ℕ :=
  let parts := projection.render selection
  if parts.text.utf8ByteSize > projection.byteBudget ∨ ¬ (parts.soft.isEmpty ∨
        projection.count parts.soft ≤ max briefSoftTokens (projection.count parts.diff / 2)) then
    none
  else some (projection.count parts.text)

def briefFits (selection : ReviewBriefSelection) (budget : ℕ) : Bool :=
  let parts := projection.render selection
  if parts.text.utf8ByteSize > projection.byteBudget ∨ projection.count parts.text > budget then
    false
  else
    parts.soft.isEmpty ||
      projection.count parts.soft ≤ max briefSoftTokens (projection.count parts.diff / 2)

/-- The number of items up to and including the first hunk, or the first change entry. -/
def firstAnchor : ℕ :=
  let items := projection.brief.items
  ((items.findIdx? fun item => item matches .hunk _).or
    (items.findIdx? fun item => item matches .entry _)).elim 0 (· + 1)

/-- The number of items before the first hunk that rules explain. -/
def explainedAnchor : Option ℕ :=
  projection.brief.items.findIdx? fun item =>
    match item with
    | .hunk index => (projection.brief.hunks[index]?).any ReviewBriefHunk.explained
    | _ => false

/-- The items of a rung with a prefix of the optional ones. -/
def prefixSelection (rung length : ℕ) : ReviewBriefSelection :=
  setSelection (rungLevel rung) (rungBase rung ++ projection.brief.items.take length)

/-- `rung_starts`, for one rung. -/
def rungStart (rung : ℕ) : Option ℕ :=
  let anchor :=
    if rung = 0 then some 0
    else if rungSites rung then projection.explainedAnchor
    else some projection.firstAnchor
  anchor.bind fun anchor =>
    match projection.briefCost (setSelection (rungLevel rung) (rungBase rung)),
      projection.briefCost (projection.prefixSelection rung anchor) with
    | some empty, some anchored => some (max empty anchored)
    | _, _ => none

def longestPrefix (rung budget : ℕ) : ℕ :=
  PrefixSearch.search (fun length => projection.briefFits (projection.prefixSelection rung length)
    budget) 0 projection.brief.items.length

/-- The entries and hunks of a prefix. -/
def admittedCount (rung length : ℕ) : ℕ :=
  (projection.prefixSelection rung length).entries.card +
    (projection.prefixSelection rung length).hunks.card

/-- The end of `rung_choice`, from the start of the rung. `kept` is the choice just below it. -/
def chooseRung (rung budget : ℕ) (kept : Option RungChoice) : Option RungChoice :=
  if ¬ projection.briefFits (setSelection (rungLevel rung) (rungBase rung)) budget then kept
  else
    let admitted := projection.admittedCount rung (projection.longestPrefix rung budget)
    match kept with
    | some kept => if admitted < kept.admitted then some kept else some ⟨rung, budget, admitted⟩
    | none => some ⟨rung, budget, admitted⟩

def rungChoice : ℕ → ℕ → Option RungChoice
  | 0, budget =>
    match projection.rungStart 0 with
    | none => none
    | some start => if budget < start then none else projection.chooseRung 0 budget none
  | rung + 1, budget =>
    match projection.rungStart (rung + 1) with
    | none => rungChoice rung budget
    | some start =>
      if budget < start then rungChoice rung budget
      else
        projection.chooseRung (rung + 1) budget
          (if start = 0 then none else rungChoice rung (start - 1))

/-- Whether the greedy admissions pass over an item. -/
def passesOver (selection : ReviewBriefSelection) (item : BriefItem) : Bool :=
  let entry := projection.brief.itemEntry item
  (item matches .entry _ | .hunk _) || entry.any (fun change => change ∉ selection.entries) ||
    ((item matches .usage _) && entry.isNone)

/-- `admit_greedily`, with the attempts so far. -/
def selectGreedily (budget : ℕ) : List BriefItem → ℕ → ReviewBriefSelection → ReviewBriefSelection
  | [], _, selection => selection
  | item :: items, attempts, selection =>
    if attempts = briefGreedyAttempts then selection
    else if projection.passesOver selection item then
      selectGreedily budget items attempts selection
    else
      let tried := selection.select item true
      selectGreedily budget items (attempts + 1)
        (if projection.briefFits tried budget then tried else tried.select item false)

/-- `project_brief`. There is no selection if the budget cannot hold the status envelope. -/
def projectBrief (tokenBudget : ℕ) : Option ReviewBriefSelection :=
  (projection.rungChoice (briefRungs.length - 1) tokenBudget).map fun choice =>
    let low := projection.longestPrefix choice.rung choice.budget
    projection.selectGreedily choice.budget (projection.brief.items.drop (low + 1)) 0
      (projection.prefixSelection choice.rung low)

end BriefProjection

end Reposcout.Query.ReviewContext
