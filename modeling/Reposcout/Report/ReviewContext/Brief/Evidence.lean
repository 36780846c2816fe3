import Reposcout.Framework.Encoding
import Reposcout.Model.ReviewContext
import Reposcout.Review.Neighborhood

/-!
# Evidence of the changes

Which relations a brief lists for every change: the references to it, its type relations and its
importers.  A relation is used by the first change that it touches.
-/

/-!
## Commands and site lists of a brief

The words of the commands that a brief prints, and the files it names in little space.
-/

namespace Reposcout.Report.ReviewContext

/-! ## Texts -/

/-- One character of `terminal_text`. -/
def terminalChar (c : Char) : List Char :=
  if c = '\n' then ['\\', 'n']
  else if c = '\r' then ['\\', 'r']
  else if c = '\t' then ['\\', 't']
  else if c = Char.ofNat 8 then ['\\', 'b']
  else if c = Char.ofNat 12 then ['\\', 'f']
  else if isControl c then ['\\', 'u', '{'] ++ Nat.toDigits 16 c.toNat ++ ['}']
  else [c]

def terminalText (value : List Char) : List Char := value.flatMap terminalChar

/-- One character in `$'…'`. -/
def ansiChar (c : Char) : List Char :=
  if c = '\n' then ['\\', 'n']
  else if c = '\t' then ['\\', 't']
  else if c = '\r' then ['\\', 'r']
  else if c = '\\' ∨ c = '\'' then ['\\', c]
  else if isControl c then ['\\', 'U'] ++ Encoding.hexDigits 8 c.toNat
  else [c]

def isWordChar (c : Char) : Bool := c.isAlphanum || "_./@^~:+=,-".toList.contains c

/-- `word.replace('\'', "'\\''")`. -/
def replaceQuotes (word : List Char) : List Char :=
  word.flatMap fun c => if c = '\'' then ['\'', '\\', '\'', '\''] else [c]

/-- `shell`: a word for a ref or path, quoted only when needed. -/
def shell (word : List Char) : List Char :=
  if word.any isControl then ['$', '\''] ++ word.flatMap ansiChar ++ ['\'']
  else if !word.isEmpty && word.all isWordChar then terminalText word
  else terminalText (['\''] ++ replaceQuotes word ++ ['\''])

/-! ## Commands -/

def shortCommit : ℕ := 12

def short (commit : ObjectId) : List Char := commit.text.toList.take shortCommit

def diffCommand (report : ReviewContextReport) : List Char :=
  "git diff --no-indent-heuristic ".toList ++ short report.comparison.baseCommit ++ [' '] ++
    short report.comparison.headCommit

def pathspecWord (path : TreePath) : List Char :=
  ":(top,literal)".toList ++ path.path.toStringLossy.toList

def pathspec (path : TreePath) : List Char := shell (pathspecWord path)

def sidePaths (change : ReviewContextChange) : List TreePath :=
  ([change.base, change.head].filterMap id).map ReviewChangedSide.path

instance : LinearOrder TreePath :=
  LinearOrder.lift' TreePath.path fun a b h => by
    cases a
    cases b
    simp only [TreePath.mk.injEq]
    exact h

/-- The base and head paths of the changes, each once and in order. -/
def changedPaths (report : ReviewContextReport) (changes : List (Fin report.changes.length)) :
    List TreePath :=
  (changes.flatMap fun index => sidePaths (report.changes.get index)).foldl
    (fun paths path => Review.insertOrdered path paths) []

def fetchCommand (report : ReviewContextReport) (changes : List (Fin report.changes.length)) :
    List Char :=
  diffCommand report ++ " -- ".toList ++
    [' '].intercalate ((changedPaths report changes).map pathspec)

/-! ## Sides -/

def sideOf (change : ReviewContextChange) (side : String) : Option ReviewChangedSide :=
  if side = "base" then change.base else change.head

def isTest (report : ReviewContextReport) (path : String) : Bool :=
  report.context.any fun file => file.path = .ofString path && !file.testEvidence.isEmpty

def sidesMarker (sides : List String) : List Char :=
  match sides.contains "base", sides.contains "head" with
  | true, false => " (base only)".toList
  | false, true => " (head only)".toList
  | _, _ => []

def siteInChangedLines (report : ReviewContextReport) (side path : String) (line : ℕ) : Bool :=
  report.changes.any fun change =>
    (sideOf change side).any fun changed =>
      changed.path.path = .ofString path &&
        changed.ranges.any fun range => range.start ≤ line && line ≤ range.stop

/-! ## References -/

/-- The name of a kind, as it is serialized. -/
def kindLabel : CallReferenceKind → List Char
  | .call => "call".toList
  | .reference => "reference".toList

def basisDebug : Option ReviewChangeBasis → List Char
  | none => "None".toList
  | some .changedDefinition => "Some(ChangedDefinition)".toList
  | some .changedFile => "Some(ChangedFile)".toList

def referenceKey (relation : ReviewContextRelation) (symbol : ResolvedCallReference) : List Char :=
  [' '].intercalate [kindLabel symbol.kind, symbol.source.path.toList, symbol.source.name.toList,
    symbol.target.path.toList, symbol.target.name.toList, basisDebug relation.changeBasis]

def referenceText (report : ReviewContextReport) (change : ReviewContextChange)
    (relation : ReviewContextRelation) (symbol : ResolvedCallReference) : List Char × List Char :=
  let changedTarget := [change.base, change.head].any fun side =>
    side.any fun side => side.path.path = .ofString symbol.target.path
  let target := if changedTarget then terminalText symbol.target.name.toList
    else terminalText symbol.target.name.toList ++ " @ ".toList ++
      terminalText symbol.target.path.toList
  (kindLabel symbol.kind ++ " -> ".toList ++ target ++
      (if relation.changeBasis = some .changedFile then " (file-level)".toList else []),
    terminalText symbol.source.path.toList ++ [':'] ++ Nat.toDigits 10 symbol.site.startLine ++
      [' '] ++ terminalText symbol.source.name.toList ++
      (if isTest report symbol.source.path then " [test]".toList else []))

def typeKey (edge : Graph.Symbols.GraphSymbolEdge) : List Char :=
  [' '].intercalate [terminalText edge.source.toList, terminalText edge.relation.toList,
    terminalText edge.target.toList]

structure Reference where
  key : List Char
  sides : List String
  text : List Char × List Char
  source : String
  deriving DecidableEq

structure Evidence where
  importers : List (String × List String)
  references : List Reference
  types : List (List Char × List String)

namespace Evidence

/-- `Evidence::default()`. -/
def empty : Evidence := ⟨[], [], []⟩

def count (evidence : Evidence) : ℕ :=
  evidence.importers.length + evidence.references.length + evidence.types.length

def addReference (key : List Char) (side : String) (text : List Char × List Char)
    (source : String) : List Reference → List Reference
  | [] => [⟨key, [side], text, source⟩]
  | entry :: rest =>
    if entry.key = key then
      { entry with
        sides := Review.insertOrdered side entry.sides
        text := if side = "head" then text else entry.text } :: rest
    else entry :: addReference key side text source rest

/-- List a relation of a change whose path on the side of the relation is given. -/
def addRelation (report : ReviewContextReport) (change : ReviewContextChange) (path : PathBuf)
    (evidence : Evidence) (relation : ReviewContextRelation) : Evidence :=
  match relation.symbol, relation.typeRelation with
  | some symbol, _ =>
    if PathBuf.ofString symbol.target.path ≠ path ∨ PathBuf.ofString symbol.source.path = path ∨
        siteInChangedLines report relation.side symbol.source.path symbol.site.startLine then
      evidence
    else
      { evidence with
        references := addReference (referenceKey relation symbol) relation.side
          (referenceText report change relation symbol) symbol.source.path evidence.references }
  | none, some edge =>
    { evidence with
      types := KeyedList.alter (typeKey edge)
        (fun sides => Review.insertOrdered relation.side (sides.getD [])) evidence.types }
  | none, none =>
    if PathBuf.ofString relation.edge.target = path then
      { evidence with
        importers := KeyedList.alter relation.edge.source
          (fun sides => Review.insertOrdered relation.side (sides.getD [])) evidence.importers }
    else evidence

end Evidence

/-! ## Changes -/

def endsAt (relation : ReviewContextRelation) (path : PathBuf) : Bool :=
  PathBuf.ofString relation.edge.target = path || PathBuf.ofString relation.edge.source = path

/-- `evidence`, with the relations that are used afterwards. -/
def evidence (report : ReviewContextReport) (change : ReviewContextChange) :
    List (ReviewContextRelation × Bool) → Evidence → Evidence × List (ReviewContextRelation × Bool)
  | [], listed => (listed, [])
  | (relation, used) :: rest, listed =>
    match (sideOf change relation.side).map fun side => side.path.path with
    | none =>
      let next := evidence report change rest listed
      (next.1, (relation, used) :: next.2)
    | some path =>
      if used || !endsAt relation path then
        let next := evidence report change rest listed
        (next.1, (relation, used) :: next.2)
      else
        let next := evidence report change rest (listed.addRelation report change path relation)
        (next.1, (relation, true) :: next.2)

def evidences (report : ReviewContextReport) :
    List ReviewContextChange → List (ReviewContextRelation × Bool) → List Evidence
  | [], _ => []
  | change :: rest, relations =>
    let listed := evidence report change relations .empty
    listed.1 :: evidences report rest listed.2

/-- The evidence of all changes, as `plain` collects it. -/
def allEvidence (report : ReviewContextReport) : List Evidence :=
  evidences report report.changes (report.relations.map fun relation => (relation, false))

end Reposcout.Report.ReviewContext
