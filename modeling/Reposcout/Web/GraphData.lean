import Reposcout.Framework.BoundedSearch
import Reposcout.Framework.KeyedList

/-!
# A part of the graph

`projectGraph` shows the files around a focus, or the most connected ones.  The files around a
focus are found breadth first, up to a depth and up to a number of files.
-/

/-!
## What the explorer reads

The dependency graph as the server sends it, and the order in which texts are shown.
-/

namespace Reposcout.Web

/-! ## Order -/

/-- `left.localeCompare(right)`, in the locale of the reader.  Texts that a locale does not tell
apart compare equal. -/
structure Collation where
  localeCompare : String → String → Ordering
  trans : Std.TransCmp localeCompare

instance (locale : Collation) : Std.TransCmp locale.localeCompare := locale.trans

def plainLocale : Collation where
  localeCompare := compareOn fun text => text.toList.map Char.toNat
  trans := inferInstanceAs
    (Std.TransCmp (compareOn fun text : String => text.toList.map Char.toNat))

def codeUnits (c : Char) : List ℕ :=
  if c.toNat < 65536 then [c.toNat]
  else [55296 + (c.toNat - 65536) / 1024, 56320 + (c.toNat - 65536) % 1024]

/-- The order of `sort()` without a comparator. -/
def compareCodeUnits : String → String → Ordering :=
  compareOn fun text => text.toList.flatMap codeUnits

/-! ## The graph -/

structure GraphSymbolReach where
  symbolId : String
  fanIn : ℕ
  fanOut : ℕ
  deriving DecidableEq

structure GraphFile where
  path : String
  fanIn : ℕ := 0
  fanOut : ℕ := 0
  symbolReach : Option GraphSymbolReach := none
  deriving DecidableEq

structure GraphEdge where
  source : String
  target : String
  resolver : String
  deriving DecidableEq

structure GraphSymbol where
  id : String
  name : String
  qualifiedName : String
  path : String
  line : ℕ := 0
  fanIn : ℕ := 0
  fanOut : ℕ := 0
  deriving DecidableEq

structure GraphSymbolEdge where
  source : String
  target : String
  relation : String
  deriving DecidableEq

structure DependencyGraph where
  files : List GraphFile := []
  edgeList : List GraphEdge := []
  symbols : List GraphSymbol := []
  symbolEdges : List GraphSymbolEdge := []
  configFiles : List String := []

def compareGraphEdges (locale : Collation) (left right : GraphEdge) : Ordering :=
  ((locale.localeCompare left.source right.source).then
    (locale.localeCompare left.target right.target)).then
    (locale.localeCompare left.resolver right.resolver)

open KeyedList

inductive GraphDirection
  | dependencies
  | dependents
  | both

structure Selection where
  paths : List String
  truncated : Bool

structure GraphProjection where
  files : List GraphFile
  edges : List GraphEdge
  focus : Option String
  truncated : Bool
  totalFiles : ℕ

def edgeKey (edge : GraphEdge) : String :=
  edge.source ++ "\x00" ++ edge.target ++ "\x00" ++ edge.resolver

/-- The edge between the files of two related symbols. -/
def symbolFileEdge (symbols : List (String × GraphSymbol)) (edge : GraphSymbolEdge) :
    Option GraphEdge := do
  let source ← (get? edge.source symbols).map GraphSymbol.path
  let target ← (get? edge.target symbols).map GraphSymbol.path
  if source = "" ∨ target = "" ∨ source = target then none
  else some ⟨source, target, "symbol-" ++ edge.relation⟩

def structuralFileEdges (locale : Collation) (graph : DependencyGraph) : List GraphEdge :=
  let symbols := indexBy GraphSymbol.id graph.symbols
  let edges := indexBy edgeKey
    (graph.edgeList ++ graph.symbolEdges.filterMap (symbolFileEdge symbols))
  sortBy (compareGraphEdges locale) (edges.map Prod.snd)

def graphFileReach (file : GraphFile) : ℕ :=
  max (file.fanIn + file.fanOut)
    ((file.symbolReach.map GraphSymbolReach.fanIn).getD 0 * 2 +
      (file.symbolReach.map GraphSymbolReach.fanOut).getD 0)

def overviewPaths (locale : Collation) (files : List GraphFile) (limit : ℕ) : Selection :=
  if files.length ≤ limit then ⟨InsertionSet.ofList (files.map GraphFile.path), false⟩
  else
    let ranked := sortBy (fun left right =>
      ((compare (graphFileReach right) (graphFileReach left)).then
        (compare right.fanIn left.fanIn)).then
        (locale.localeCompare left.path right.path)) files
    ⟨InsertionSet.ofList ((ranked.take limit).map GraphFile.path), true⟩

/-! ## The files around a focus -/

/-- The map that `append` fills from the edges, each entry sorted. -/
def neighborMap (locale : Collation) (key value : GraphEdge → String) (edges : List GraphEdge) :
    List (String × List String) :=
  (groupBy key (fun edge => [value edge]) edges).map fun entry =>
    (entry.1, sortBy locale.localeCompare entry.2)

/-- `graphNeighbors`, with the maps that are made from the edges. -/
def graphNeighbors (locale : Collation) (edges : List GraphEdge) (direction : GraphDirection)
    (path : String) : List String :=
  let dependencies := neighborMap locale GraphEdge.source GraphEdge.target edges
  let dependents := neighborMap locale GraphEdge.target GraphEdge.source edges
  match direction with
  | .dependencies => (get? path dependencies).getD []
  | .dependents => (get? path dependents).getD []
  | .both => sortBy locale.localeCompare (InsertionSet.ofList
      ((get? path dependencies).getD [] ++ (get? path dependents).getD []))

/-- The loop of `focusedPaths`, with the queue that it leaves. -/
def focusedRun (locale : Collation) (edges : List GraphEdge) (focus : String)
    (direction : GraphDirection) (depth limit : ℕ) :
    List (String × ℕ) × BreadthFirst.Kept String :=
  BreadthFirst.exploreBounded (graphNeighbors locale edges direction) depth limit focus

def focusedPaths (locale : Collation) (edges : List GraphEdge) (focus : String)
    (direction : GraphDirection) (depth limit : ℕ) : Selection :=
  let kept := (focusedRun locale edges focus direction depth limit).2
  ⟨kept.seen, kept.cut⟩

def projectGraph (locale : Collation) (graph : DependencyGraph) (focus : Option String)
    (direction : GraphDirection) (depth limit : ℕ) : GraphProjection :=
  let boundedLimit := max 1 limit
  let validFocus := focus.filter fun focus => focus ≠ "" ∧ focus ∈ graph.files.map GraphFile.path
  let edges := structuralFileEdges locale graph
  let selected := match validFocus with
    | some focus => focusedPaths locale edges focus direction (max 1 depth) boundedLimit
    | none => overviewPaths locale graph.files boundedLimit
  { files := sortBy (fun left right => locale.localeCompare left.path right.path)
      (graph.files.filter fun file => file.path ∈ selected.paths)
    edges := sortBy (compareGraphEdges locale)
      (edges.filter fun edge => edge.source ∈ selected.paths ∧ edge.target ∈ selected.paths)
    focus := validFocus
    truncated := selected.truncated
    totalFiles := graph.files.length }

end Reposcout.Web
