import Reposcout.Graph.Symbols
import Reposcout.Graph.Topology
import Reposcout.Model.CallGraph
import Reposcout.Model.SourceQuery

/-!
# The report of a review

What a review finds between two commits: the changed files with the ranges that changed, and the
relations around them.  The texts of a brief are made from it.
-/

namespace Reposcout

/-- A path as a tree of Git has it: its names are not empty, and there is no separator and no zero
in them. -/
structure TreePath where
  path : PathBuf
  separated : path.Separated
  zero_notMem : ∀ name ∈ path.components, Char.ofNat 0 ∉ name.toList
  deriving DecidableEq

/-- The name of a commit: forty hexadecimal digits. -/
structure ObjectId where
  text : String
  length_eq : text.toList.length = 40
  digits : (text.toList.all fun c => c.isDigit || ('a' ≤ c && c ≤ 'f')) = true
  deriving DecidableEq

structure ReviewComparison where
  baseCommit : ObjectId
  headCommit : ObjectId
  deriving DecidableEq

/-- A changed file in one of the commits, with its changed lines. -/
structure ReviewChangedSide where
  path : TreePath
  ranges : List LineRange
  deriving DecidableEq

structure ReviewContextChange where
  base : Option ReviewChangedSide
  head : Option ReviewChangedSide
  deriving DecidableEq

inductive ReviewChangeBasis where
  | changedDefinition
  | changedFile
  deriving DecidableEq

/-- An edge between two files of one of the commits, with the reference or the type relation that
it stands for. -/
structure ReviewContextRelation where
  side : String
  kind : String
  edge : Graph.GraphEdge
  changeBasis : Option ReviewChangeBasis
  symbol : Option ResolvedCallReference
  typeRelation : Option Graph.Symbols.GraphSymbolEdge
  deriving DecidableEq

/-- A file around the changes, with what made it a test. -/
structure ReviewContextFile where
  side : String
  path : PathBuf
  roles : List String
  distance : ℕ
  via : Option PathBuf
  testEvidence : List String
  deriving DecidableEq

structure ReviewContextReport where
  comparison : ReviewComparison
  changes : List ReviewContextChange
  relations : List ReviewContextRelation
  context : List ReviewContextFile

end Reposcout
