import Reposcout.Framework.Matching
import Reposcout.Query.ReviewContext.Brief.Parse

/-!
# Moved and unchanged lines of a review brief

Changed lines that equal their in-place counterpart after rewrites, or recur in another hunk.  The
lines are collected first, then lines of one key are paired across hunks, and a pair survives only
inside a declaration that moved as a whole.

The proofs that a rename is pure and that a declaration keeps its bindings are inputs, and the
deadline is left out.
-/

/-!
## Rename rewrites of a token

The rename rewrites of a brief replace old spellings by new ones in the identifier tokens of
removed lines.  Each replaced part is held by a placeholder from the private-use area until all
rewrites have had their turn, so that no rewrite sees what another one wrote.
-/

namespace Reposcout.Query.ReviewContext.Brief

/-- What the matching of lines reads of a rewrite. -/
structure ReviewRewrite where
  old : String
  new : String
  inside : Bool
  rename : Bool

/-- Old spelling, new spelling, whether it also applies inside longer tokens, and the index of its
rewrite. -/
structure Spelling where
  old : String
  new : String
  inside : Bool
  rule : ℕ

def single (text : String) : Bool := !text.isEmpty && !text.toList.contains ' '

/-- The longest old spelling first. -/
def Spelling.cmp (left right : Spelling) : Ordering :=
  (compare right.old.utf8ByteSize left.old.utf8ByteSize).then (compare left.old right.old)

/-- The rename rewrites of single tokens; of several with one old spelling the first. -/
def collectSpellings (rules : List ReviewRewrite) : List Spelling :=
  rules.zipIdx.foldl (fun list (rule, index) =>
    if rule.rename && single rule.old && single rule.new &&
        !list.any (fun known => known.old = rule.old) then
      list ++ [⟨rule.old, rule.new, rule.inside, index⟩]
    else list) []

def Spellings.new (rules : List ReviewRewrite) : List Spelling :=
  KeyedList.sortBy Spelling.cmp (collectSpellings rules)

/-! ## Rewriting a token -/

/-- The first character of the private-use area, `U+E000`. -/
def privateUse : ℕ := 0xE000

def placeholder (index : ℕ) : Char :=
  let code := privateUse + if index < 2 ^ 32 then index else 0
  if code.isValidChar then Char.ofNat code else Char.ofNat privateUse

/-- Put the mark in the place of each occurrence between word boundaries, and say whether there was
one.  The first argument counts the characters of an occurrence that are still to be skipped, the
second is the character before the rest. -/
def replaceInside (classes : CharClasses) (spelling : List Char) (mark : Char) :
    ℕ → Option Char → List Char → List Char × Bool
  | _, _, [] => ([], false)
  | skip + 1, _, c :: rest => replaceInside classes spelling mark skip (some c) rest
  | 0, before, c :: rest =>
    if spelling.isPrefixOf (c :: rest) then
      let after := ((c :: rest).drop spelling.length).head?
      let next := replaceInside classes spelling mark (spelling.length - 1) (some c) rest
      if boundary classes before (some c) && boundary classes spelling.getLast? after then
        (mark :: next.1, true)
      else (spelling ++ next.1, next.2)
    else
      let next := replaceInside classes spelling mark 0 (some c) rest
      (c :: next.1, next.2)

/-- The loop of `Spellings::removed`: the token with its placeholders, and the rewrites applied. -/
def rewriteToken (classes : CharClasses) :
    ℕ → List Spelling → List Char → List ℕ → List Char × List ℕ
  | _, [], current, applied => (current, applied)
  | index, spelling :: rest, current, applied =>
    if current = spelling.old.toList then ([placeholder index], applied ++ [spelling.rule])
    else if spelling.inside then
      let output := replaceInside classes spelling.old.toList (placeholder index) 0 none current
      rewriteToken classes (index + 1) rest output.1
        (if output.2 then applied ++ [spelling.rule] else applied)
    else rewriteToken classes (index + 1) rest current applied

/-- The new spelling of a placeholder; any other character stands for itself. -/
def restore (spellings : List Spelling) (c : Char) : List Char :=
  if c.toNat < privateUse then [c]
  else
    match spellings[c.toNat - privateUse]? with
    | some spelling => spelling.new.toList
    | none => [c]

def Spellings.removed (classes : CharClasses) (spellings : List Spelling) (token : String) :
    String × List ℕ :=
  if !identifier classes token then (token, [])
  else
    let (current, applied) := rewriteToken classes 0 spellings token.toList []
    if applied.isEmpty then (String.ofList current, [])
    else (String.ofList (current.flatMap (restore spellings)), applied.mergeSort)

open Matching KeyedList

def minRun : ℕ := 3

def minUniqueTokens : ℕ := 8

def maxMatchedLines : ℕ := 200000

/-! ## The data -/

/-- What the brief does with one changed line. -/
inductive Fate where
  | changed
  | unchanged
  | moved

/-- A line of a change's base or head file and a byte on it. -/
structure Site where
  change : ℕ
  line : ℕ
  byte : ℕ
  deriving DecidableEq

structure Rename where
  base : Site
  head : Site
  old : String
  new : String

/-- A removed token rewritten by rename rewrites: its index on the line, both spellings and the
rewrites applied. -/
structure Applied where
  token : ℕ
  old : String
  new : String
  rules : List ℕ
  deriving DecidableEq

structure Entry where
  hunk : ℕ
  change : ℕ
  line : ℕ
  number : ℕ
  removed : Bool
  qualifies : Bool
  blank : Bool
  tokens : ℕ
  key : String
  indent : ℤ
  /-- Byte offset of each token on the line. -/
  starts : List ℕ
  applied : List Applied
  /-- A removed line's text with its applied renames. -/
  rewritten : Option String
  deriving Inhabited

/-- One side of a change: file text, declaration line ranges (one-based, inclusive) and test
evidence. -/
structure SideText where
  text : Option String
  spans : List (ℕ × ℕ)
  test : Bool
  deriving DecidableEq, Inhabited

structure Sides where
  base : SideText
  head : SideText
  deriving Inhabited

/-- Proofs a fold needs: that a rename is pure, and that a declaration (source change, target
change, moved base lines, moved head lines) keeps the meaning of its names outside the folded line
ranges of the target. -/
structure Checks where
  pure : Rename → Bool
  keeps : ℕ → ℕ → List ℕ → List ℕ → List (ℕ × ℕ) → Bool

/-- A hunk with its flags in `skip` and `sensitive`. -/
structure Candidate where
  hunk : Hunk
  skip : Bool
  sensitive : Bool

/-- The arguments of `matches`; its three parallel slices are one list. -/
structure MatchInput where
  classes : CharClasses
  hunks : List Candidate
  sides : List Sides
  rules : List ReviewRewrite
  checks : Checks

structure ReviewBriefMove where
  fromHunk : ℕ
  toHunk : ℕ
  fromLines : ℕ × ℕ
  toLines : ℕ × ℕ

/-- What `matches` returns, by hunk and, for the fates, by line. -/
structure Matches where
  fates : ℕ → ℕ → Fate
  moves : List ReviewBriefMove
  movedSites : ℕ → List (ℕ × ℕ)

/-! ## Collecting the changed lines -/

def appliedRenames (classes : CharClasses) (spellings : List Spelling)
    (tokens : List Dup.Lexeme) : List Applied :=
  tokens.zipIdx.filterMap fun (token, position) =>
    let (new, rules) := Spellings.removed classes spellings token.text
    if rules.isEmpty then none else some ⟨position, token.text, new, rules⟩

/-- The text of a removed line from a byte on, with its applied renames. -/
def rewriteFrom (text : String) (tokens : List Dup.Lexeme) : ℕ → List Applied → List Char
  | cursor, [] => charsIn text cursor (utf8Length text.toList)
  | cursor, applied :: rest =>
    match tokens[applied.token]? with
    | some token =>
      charsIn text cursor token.start ++ applied.new.toList ++
        rewriteFrom text tokens token.stop rest
    | none => rewriteFrom text tokens cursor rest

/-- The texts of a line's tokens after the renames. -/
def renamedTokens (tokens : List Dup.Lexeme) (applied : List Applied) : List String :=
  tokens.zipIdx.map fun (token, position) =>
    match applied.find? fun applied => applied.token = position with
    | some applied => applied.new
    | none => token.text

def entryOf (input : MatchInput) (index : ℕ) (candidate : Candidate) (lineIndex : ℕ)
    (line : Line) : Entry :=
  let tokens := lineTokens input.classes line.text
  let word := tokens.any fun token =>
    token.text.toList.head?.any fun c => input.classes.alphabetic c || c = '_'
  let removed := line.tag = '-'
  let applied :=
    if removed then appliedRenames input.classes (Spellings.new input.rules) tokens else []
  let plain := " ".intercalate (renamedTokens tokens applied)
  let whitespace := indent line.text
  { hunk := index
    change := candidate.hunk.change
    line := lineIndex
    number := line.number
    removed := removed
    qualifies := (word && 2 ≤ tokens.length) || 4 ≤ tokens.length
    blank := isBlank line.text.toList
    tokens := tokens.length
    key := if candidate.sensitive then String.ofList whitespace ++ "\x00" ++ plain else plain
    indent := whitespace.length
    starts := tokens.map Dup.Lexeme.start
    applied := applied
    rewritten :=
      if removed then some (String.ofList (rewriteFrom line.text tokens 0 applied)) else none }

def lineEntry (input : MatchInput) (index : ℕ) (candidate : Candidate) (lineIndex : ℕ) :
    Option Entry :=
  match candidate.hunk.lines[lineIndex]? with
  | some line =>
    if line.tag = ' ' then none else some (entryOf input index candidate lineIndex line)
  | none => none

/-- `pure_pair`: every rename applied to `left` is proven pure with its token at the same position
of `right`. -/
def purePair (checks : Checks) (left right : Entry) : Bool :=
  left.applied.all fun applied =>
    match left.starts[applied.token]?, right.starts[applied.token]? with
    | some base, some head =>
      checks.pure
        { base := ⟨left.change, left.number, base⟩
          head := ⟨right.change, right.number, head⟩
          old := applied.old
          new := applied.new }
    | _, _ => false

/-- Whether two lines at the same position of a block are equal after pure renames. -/
def equalInPlace (input : MatchInput) (index : ℕ) (candidate : Candidate) (pair : ℕ × ℕ) :
    Bool :=
  match lineEntry input index candidate pair.1, lineEntry input index candidate pair.2 with
  | some left, some right =>
    left.key = right.key && left.rewritten = (candidate.hunk.lines[pair.2]?).map Line.text &&
      purePair input.checks left right
  | _, _ => false

def unchangedLines (input : MatchInput) (index : ℕ) (candidate : Candidate) : List ℕ :=
  (candidate.hunk.blocks.flatMap fun block =>
    (block.removed.indices.zip block.added.indices).filter
      (equalInPlace input index candidate)).flatMap fun pair => [pair.1, pair.2]

/-- The changed lines of a hunk that are not unchanged in place. -/
def hunkEntries (input : MatchInput) (index : ℕ) (candidate : Candidate) : List Entry :=
  let unchanged := unchangedLines input index candidate
  ((List.range candidate.hunk.lines.length).filterMap (lineEntry input index candidate)).filter
    fun entry => !unchanged.contains entry.line

def collect (input : MatchInput) : List Entry :=
  input.hunks.zipIdx.flatMap fun (candidate, index) =>
    if candidate.skip then [] else hunkEntries input index candidate

/-- The fates that `collect` leaves. -/
def collectedFates (input : MatchInput) (hunk line : ℕ) : Fate :=
  match input.hunks[hunk]? with
  | some candidate =>
    if !candidate.skip && (unchangedLines input hunk candidate).contains line then .unchanged
    else .changed
  | none => .changed

def changedCount (input : MatchInput) : ℕ :=
  ((input.hunks.filter fun candidate => !candidate.skip).map fun candidate =>
    (candidate.hunk.lines.filter fun line => line.tag ≠ ' ').length).sum

/-! ## Lines that may pair -/

def entryAt (entries : List Entry) (i : ℕ) : Entry := (entries[i]?).getD default

def indices (entries : List Entry) : List ℕ := List.range entries.length

def bucket (entries : List Entry) (key : String) (removed : Bool) : List ℕ :=
  (indices entries).filter fun i =>
    let entry := entryAt entries i
    entry.qualifies && entry.key = key && entry.removed = removed

/-- Whether the key of an entry occurs on the opposite side in another hunk. -/
def candidate (entries : List Entry) (i : ℕ) : Bool :=
  let entry := entryAt entries i
  entry.qualifies &&
    match bucket entries entry.key (!entry.removed) with
    | [] => false
    | other :: others =>
      let first := (entryAt entries other).hunk
      let several := (other :: others).any fun j => (entryAt entries j).hunk ≠ first
      several || first ≠ entry.hunk

/-- Whether an entry is unique on both sides and long. -/
def unique (entries : List Entry) (i : ℕ) : Bool :=
  let entry := entryAt entries i
  candidate entries i && (bucket entries entry.key entry.removed).length = 1 &&
    (bucket entries entry.key (!entry.removed)).length = 1 && minUniqueTokens ≤ entry.tokens

def contiguous (previous entry : Entry) : Bool :=
  previous.hunk = entry.hunk && previous.removed = entry.removed && previous.line + 1 = entry.line

/-- The scan of `eligible`: the current run, the other qualifying lines since its last line, and
the lines found eligible. -/
structure RunScan where
  run : List ℕ
  gap : ℕ
  eligible : List ℕ

def RunScan.flush (entries : List Entry) (scan : RunScan) : RunScan :=
  let long := minRun ≤ scan.run.length
  { scan with
    run := []
    eligible := scan.eligible ++ scan.run.filter fun i => long || unique entries i }

def RunScan.step (entries : List Entry) (scan : RunScan) (i : ℕ) : RunScan :=
  let entry := entryAt entries i
  let scan :=
    if i = 0 || !contiguous (entryAt entries (i - 1)) entry then
      { scan.flush entries with gap := 0 }
    else scan
  if !entry.qualifies then scan
  else if candidate entries i then { scan with gap := 0, run := scan.run ++ [i] }
  else if 1 < scan.gap + 1 then ({ scan with gap := scan.gap + 1 } : RunScan).flush entries
  else { scan with gap := scan.gap + 1 }

def eligible (entries : List Entry) : List ℕ :=
  (((indices entries).foldl (RunScan.step entries) ⟨[], 0, []⟩).flush entries).eligible

/-! ## Pairing lines of one key -/

/-- One turn of `pair`: the earliest unpaired added entry of the lowest other hunk. -/
def pairTurn (entries : List Entry) (state : List ℕ × Partner ℕ) (left : ℕ) :
    List ℕ × Partner ℕ :=
  let hunkOf := fun i => (entryAt entries i).hunk
  match ((state.1.map hunkOf).filter fun hunk => hunk ≠ hunkOf left).min? with
  | none => state
  | some target =>
    match state.1.find? fun right => hunkOf right = target with
    | none => state
    | some right => (state.1.erase right, link state.2 left right)

def pair (entries : List Entry) (removed added : List ℕ) (partner : Partner ℕ) : Partner ℕ :=
  (removed.foldl (pairTurn entries) (added, partner)).2

def eligibleGroup (entries : List Entry) (key : String) (removed : Bool) : List ℕ :=
  let found := eligible entries
  (indices entries).filter fun i =>
    found.contains i && (entryAt entries i).key = key && (entryAt entries i).removed = removed

def eligibleKeys (entries : List Entry) : List String :=
  sortBy compare ((eligible entries).map fun i => (entryAt entries i).key).dedup

def pairAll (entries : List Entry) : Partner ℕ :=
  (eligibleKeys entries).foldl (fun partner key =>
    pair entries (eligibleGroup entries key true) (eligibleGroup entries key false) partner) empty

def partnerOfRemoved (entries : List Entry) (partner : Partner ℕ) (i : ℕ) : Option ℕ :=
  if (entryAt entries i).removed then partnerOf partner i else none

/-- The indentation shifts of the pairs between two hunks. -/
def shiftsBetween (entries : List Entry) (partner : Partner ℕ) (source target : ℕ) : List ℤ :=
  (indices entries).filterMap fun i =>
    match partnerOfRemoved entries partner i with
    | some other =>
      if (entryAt entries i).hunk = source ∧ (entryAt entries other).hunk = target then
        some ((entryAt entries other).indent - (entryAt entries i).indent)
      else none
    | none => none

def sameShift : List ℤ → Bool
  | [] => true
  | first :: rest => rest.all fun shift => shift = first

/-- `consistent_shifts`: pairs between two hunks stay only when their indentation shifts by one
amount. -/
def consistentShifts (entries : List Entry) (partner : Partner ℕ) : Partner ℕ :=
  (indices entries).foldl (fun current i =>
    match partnerOfRemoved entries current i with
    | some other =>
      if sameShift (shiftsBetween entries partner (entryAt entries i).hunk
          (entryAt entries other).hunk) then current
      else unlink current i other
    | none => current) partner

/-! ## Declarations -/

/-- One declaration's non-blank lines, all changed on one side, as entries. -/
structure Declaration where
  change : ℕ
  removed : Bool
  lines : List ℕ
  deriving DecidableEq

def MatchInput.side (input : MatchInput) (change : ℕ) (removed : Bool) : SideText :=
  let sides := (input.sides[change]?).getD default
  if removed then sides.base else sides.head

/-- Whether a file has no text on a line. -/
def blankNumber (lines : List (List Char)) (number : ℕ) : Bool :=
  number = 0 || (lines[number - 1]?).all isBlank

def nonBlankNumbers (text : String) (span : ℕ × ℕ) : List ℕ :=
  (List.range' span.1 (span.2 + 1 - span.1)).filter fun number =>
    !blankNumber (textLines text) number

def entryOfNumber (entries : List Entry) (change : ℕ) (removed : Bool) (number : ℕ) : Option ℕ :=
  (indices entries).reverse.find? fun i =>
    let entry := entryAt entries i
    entry.change = change && entry.removed = removed && entry.number = number

/-- The declaration of a span that has a paired line, when all its non-blank lines are changed. -/
def changedDeclaration (entries : List Entry) (partner : Partner ℕ) (text : String)
    (change : ℕ) (removed : Bool) (span : ℕ × ℕ) : Option Declaration :=
  let paired := (indices entries).any fun i =>
    let entry := entryAt entries i
    entry.change = change && entry.removed = removed && (partnerOf partner i).isSome &&
      span.1 ≤ entry.number && entry.number ≤ span.2
  if paired then
    match (nonBlankNumbers text span).mapM (entryOfNumber entries change removed) with
    | some members => if members.isEmpty then none else some ⟨change, removed, members⟩
    | none => none
  else none

/-- The sides of changes with a paired line, in order. -/
def pairedSides (entries : List Entry) (partner : Partner ℕ) : List (ℕ × Bool) :=
  sortBy (fun left right => (compare left.1 right.1).then (compare left.2 right.2))
    (((indices entries).filter fun i => (partnerOf partner i).isSome).map fun i =>
      ((entryAt entries i).change, (entryAt entries i).removed)).dedup

def changedDeclarations (input : MatchInput) (entries : List Entry) (partner : Partner ℕ) :
    List Declaration :=
  (pairedSides entries partner).flatMap fun (change, removed) =>
    let side := input.side change removed
    match side.text with
    | some text =>
      side.spans.filterMap (changedDeclaration entries partner text change removed)
    | none => []

/-- The first paired line of a declaration: its position and its partner. -/
def firstPaired (partner : Partner ℕ) (declaration : Declaration) : Option (ℕ × ℕ) :=
  declaration.lines.zipIdx.findSome? fun (entry, position) =>
    (partnerOf partner entry).map fun target => (position, target)

/-- The head declarations with an entry, each with the position of the entry in it. -/
def heads (found : List Declaration) (target : ℕ) : List (Declaration × ℕ) :=
  (found.filter fun declaration => !declaration.removed).flatMap fun declaration =>
    (declaration.lines.zipIdx.filter fun member => member.1 = target).map fun member =>
      (declaration, member.2)

/-- Two lines at the same position pair: they are partners, or both are free and equal. -/
def linesPair (input : MatchInput) (entries : List Entry) (partner : Partner ℕ)
    (lines : ℕ × ℕ) : Bool :=
  let left := entryAt entries lines.1
  let right := entryAt entries lines.2
  left.indent = right.indent && (partnerOf partner lines.1 = some lines.2 ||
      ((partnerOf partner lines.1).isNone && (partnerOf partner lines.2).isNone &&
        left.key = right.key)) &&
    purePair input.checks left right

/-- A declaration of the base and the declaration of the head it moved to. -/
structure Move where
  source : Declaration
  destination : Declaration

def Move.lines (move : Move) : List (ℕ × ℕ) := move.source.lines.zip move.destination.lines

/-- Whether a declaration moved as a whole. -/
def accepts (input : MatchInput) (entries : List Entry) (partner : Partner ℕ) (move : Move) :
    Bool :=
  move.destination.lines.length = move.source.lines.length &&
    (input.side move.source.change true).test = (input.side move.destination.change false).test &&
    move.lines.all (linesPair input entries partner)

def acceptedFor (input : MatchInput) (entries : List Entry) (partner : Partner ℕ)
    (found : List Declaration) (source : Declaration) : List Move :=
  match firstPaired partner source with
  | some (position, target) =>
    (heads found target).filterMap fun (destination, offset) =>
      if offset = position ∧ accepts input entries partner ⟨source, destination⟩ = true then
        some ⟨source, destination⟩
      else none
  | none => []

def acceptedMoves (input : MatchInput) (entries : List Entry) (partner : Partner ℕ) :
    List Move :=
  let found := changedDeclarations input entries partner
  (found.filter Declaration.removed).flatMap (acceptedFor input entries partner found)

def numbers (entries : List Entry) (declaration : Declaration) : List ℕ :=
  declaration.lines.map fun i => (entryAt entries i).number

/-- Head line ranges of every accepted destination of a change. -/
def foldedRanges (entries : List Entry) (accepted : List Move) (change : ℕ) : List (ℕ × ℕ) :=
  accepted.filterMap fun move =>
    let lines := numbers entries move.destination
    match lines.min?, lines.max? with
    | some first, some last => if move.destination.change = change then some (first, last) else none
    | _, _ => none

def keepsBindings (input : MatchInput) (entries : List Entry) (accepted : List Move)
    (move : Move) : Bool :=
  input.checks.keeps move.source.change move.destination.change (numbers entries move.source)
    (numbers entries move.destination) (foldedRanges entries accepted move.destination.change)

def foldedMoves (input : MatchInput) (entries : List Entry) (partner : Partner ℕ) : List Move :=
  let accepted := acceptedMoves input entries partner
  accepted.filter (keepsBindings input entries accepted)

/-- Whether a line is in one of the pairs. -/
def inPairs (pairs : List (ℕ × ℕ)) (i : ℕ) : Bool :=
  pairs.any fun pair => pair.1 = i || pair.2 = i

/-- `declarations`: keeps pairs only inside declarations moved as a whole, and pairs the free lines
there, first come, first served. -/
def declarations (input : MatchInput) (entries : List Entry) (partner : Partner ℕ) :
    Partner ℕ :=
  let pairs := (foldedMoves input entries partner).flatMap Move.lines
  let extra := pairs.filter fun pair => (partnerOf partner pair.1).isNone
  linkAll (restrict (inPairs pairs) partner) extra

/-! ## Blank lines between moved lines -/

structure NearestScan where
  previous : Option ℕ
  last : Option ℕ
  nearest : ℕ → Option ℕ

def NearestScan.step (entries : List Entry) (scan : NearestScan) (i : ℕ) : NearestScan :=
  let joined := scan.previous.any fun previous =>
    if previous < i then contiguous (entryAt entries previous) (entryAt entries i)
    else contiguous (entryAt entries i) (entryAt entries previous)
  let last := if joined then scan.last else none
  { previous := some i
    last := if (entryAt entries i).qualifies then some i else last
    nearest := Function.update scan.nearest i last }

def nearest (entries : List Entry) (order : List ℕ) : ℕ → Option ℕ :=
  (order.foldl (NearestScan.step entries) ⟨none, none, fun _ => none⟩).nearest

/-- `sandwich`: blank lines move when every nearest qualifying neighbour on their side does. -/
def sandwich (entries : List Entry) (moved : ℕ → Bool) (i : ℕ) : Bool :=
  let neighbours :=
    [nearest entries (indices entries) i, nearest entries (indices entries).reverse i].filterMap id
  moved i || ((entryAt entries i).blank && !neighbours.isEmpty && neighbours.all moved)

/-! ## The result -/

/-- The paired lines before `declarations`. -/
def pairedByKey (input : MatchInput) : Partner ℕ :=
  consistentShifts (collect input) (pairAll (collect input))

/-- The entries and their partners; above the limit no line is matched. -/
def pairing (input : MatchInput) : List Entry × Partner ℕ :=
  if maxMatchedLines < changedCount input then ([], empty)
  else (collect input, declarations input (collect input) (pairedByKey input))

/-- `spans`: the first and last paired line for each pair of hunks. -/
def spans (entries : List Entry) (partner : Partner ℕ) : List ReviewBriefMove :=
  let lines := (indices entries).foldl (fun spans i =>
    match partnerOfRemoved entries partner i with
    | some other =>
      let entry := entryAt entries i
      let other := entryAt entries other
      KeyedList.alter (entry.hunk, other.hunk) (fun known =>
        let known := known.getD ((entry.number, entry.number), (other.number, other.number))
        ((min known.1.1 entry.number, max known.1.2 entry.number),
          (min known.2.1 other.number, max known.2.2 other.number))) spans
    | none => spans) ([] : List ((ℕ × ℕ) × ((ℕ × ℕ) × (ℕ × ℕ))))
  (sortBy (fun left right =>
    (compare left.1.1 right.1.1).then (compare left.1.2 right.1.2)) lines).map fun item =>
      ⟨item.1.1, item.1.2, item.2.1, item.2.2⟩

/-- The rename rewrites of moved lines that a hunk receives, as rewrite index and head line. -/
def movedSites (entries : List Entry) (partner : Partner ℕ) (hunk : ℕ) : List (ℕ × ℕ) :=
  (sortBy (fun left right => (compare left.1 right.1).then (compare left.2 right.2))
    ((indices entries).flatMap fun i =>
      match partnerOfRemoved entries partner i with
      | some other =>
        if (entryAt entries other).hunk = hunk then
          (entryAt entries i).applied.flatMap fun applied =>
            applied.rules.map fun rule => (rule, (entryAt entries other).number)
        else []
      | none => [])).eraseReps

def fates (input : MatchInput) (hunk line : ℕ) : Fate :=
  let (entries, partner) := pairing input
  let relocated := sandwich entries fun i => (partnerOf partner i).isSome
  if (indices entries).any fun i =>
      (entryAt entries i).hunk = hunk && (entryAt entries i).line = line && relocated i then .moved
  else if maxMatchedLines < changedCount input then .changed
  else collectedFates input hunk line

/-- `matches`. -/
def matchLines (input : MatchInput) : Matches where
  fates := fates input
  moves := spans (pairing input).1 (pairing input).2
  movedSites := movedSites (pairing input).1 (pairing input).2

end Reposcout.Query.ReviewContext.Brief
