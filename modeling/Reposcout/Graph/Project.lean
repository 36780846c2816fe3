import Reposcout.Framework.StrongComponents
import Reposcout.Graph.Topology

/-!
# The projected graph

A graph query selects the files within a depth of its focus, and its report shows them with the
edges between them.
-/

namespace Reposcout.Graph

open KeyedList

inductive GraphDirection where
  | dependencies | dependents | both

/-- `as_str`. -/
def GraphDirection.text : GraphDirection → String
  | .dependencies => "dependencies"
  | .dependents => "dependents"
  | .both => "both"

/-- The focus paths are normalised. -/
structure GraphQuery where
  focus : List String
  direction : GraphDirection
  depth : ℕ

structure GraphFile where
  path : String
  language : String
  fanIn : ℕ
  fanOut : ℕ
  dependencies : List String
  dependents : List String
  focusDistance : Option ℕ
  deriving DecidableEq

structure GraphNode where
  path : String
  fanIn : ℕ
  fanOut : ℕ
  deriving DecidableEq

structure DepGraph where
  languages : List String
  nodes : ℕ
  edges : ℕ
  files : List GraphFile
  edgeList : List GraphEdge
  focus : List String
  unmatchedFocus : List String
  direction : String
  depth : Option ℕ
  cycles : List (List String)
  orphans : List String
  topDepended : List GraphNode
  mostDependent : List GraphNode

/-- `graph_focus_matches`: the focus names the file, or a directory above it. -/
def graphFocusMatches (path focus : String) : Bool :=
  focus.isEmpty || path == focus || (focus.toList ++ ['/']).isPrefixOf path.toList

section

variable (topology : Topology)

/-- A file that a focus path names is reached at once. -/
def seedFile (s : List (Option ℕ) × List ℕ) (index : ℕ) : List (Option ℕ) × List ℕ :=
  if (distanceAt s.1 index).isNone then (s.1.set index (some 0), s.2 ++ [index]) else s

/-- The numbers of the files that a focus path names. -/
def focusMatches (focusPath : String) : List ℕ :=
  topology.graphFiles.zipIdx.filterMap fun (path, index) =>
    if graphFocusMatches path focusPath then some index else none

/-- The distances and the queue before the search. -/
def seedFocus (focus : List String) : List (Option ℕ) × List ℕ :=
  focus.foldl (fun s focusPath => (focusMatches topology focusPath).foldl seedFile s)
    (List.replicate topology.graphFiles.length none, [])

/-- The two ends of every edge in the other order. -/
def dependencyLists : List (List ℕ) :=
  (topology.edges.map Prod.swap).foldl addImporter
    (List.replicate topology.graphFiles.length [])

def projectionNeighbors (direction : GraphDirection) (index : ℕ) : List ℕ :=
  let dependencies := ((dependencyLists topology)[index]?).getD []
  let dependents := ((reverseEdges topology)[index]?).getD []
  match direction with
  | .dependencies => dependencies
  | .dependents => dependents
  | .both => dependencies ++ dependents

/-- One turn of the search of `fill_focus_distances`. -/
def visitFocus (direction : GraphDirection) (depth : ℕ) (distances : List (Option ℕ))
    (index : ℕ) : List (Option ℕ) × List ℕ :=
  let distance := (distanceAt distances index).getD 0
  if distance ≥ depth then (distances, [])
  else (projectionNeighbors topology direction index).foldl
    (passDependent (satAdd distance 1)) (distances, [])

/-- `fill_focus_distances`: the queue and the distances at the end of the search. -/
def fillFocusDistances (focus : List String) (direction : GraphDirection) (depth : ℕ) :
    List ℕ × List (Option ℕ) :=
  let seeds := seedFocus topology focus
  BreadthFirst.drain (visitFocus topology direction depth) topology.graphFiles.length seeds.2
    seeds.1

structure ProjectionSelection where
  focus : List String
  unmatchedFocus : List String
  distances : List (Option ℕ)

def selectProjection (query : GraphQuery) : ProjectionSelection :=
  let focus := (sortBy compare query.focus).dedup
  if focus.isEmpty then ⟨focus, [], List.replicate topology.graphFiles.length (some 0)⟩
  else
    ⟨focus, focus.filter fun focusPath => (focusMatches topology focusPath).isEmpty,
      (fillFocusDistances topology focus query.direction query.depth).2⟩

def ProjectionSelection.selected (selection : ProjectionSelection) (index : ℕ) : Bool :=
  (distanceAt selection.distances index).isSome

/-- The names of the selected files. -/
def selectedPaths (selection : ProjectionSelection) : List String :=
  topology.graphFiles.zipIdx.filterMap fun (path, index) =>
    if selection.selected index then some path else none

end

section

variable (topology : Topology) (language : String → String)

/-- `project_files`. Language detection is a parameter. -/
def projectFiles (signals : GraphSignals) (selection : ProjectionSelection) : List GraphFile :=
  let paths := selectedPaths topology selection
  (topology.graphFiles.zipIdx.filter fun (_, index) => selection.selected index).map
    fun (path, index) =>
      let signal := (get? path signals.files).getD ⟨0, 0, [], [], [], []⟩
      let dependencies := signal.dependencies.filter (· ∈ paths)
      let dependents := signal.dependents.filter (· ∈ paths)
      { path
        language := language path
        fanIn := dependents.length
        fanOut := dependencies.length
        dependencies
        dependents
        focusDistance :=
          if selection.focus.isEmpty then none
          else some ((distanceAt selection.distances index).getD 0) }

def projectEdges (selection : ProjectionSelection) : List GraphEdge :=
  (topology.edges.filter fun edge =>
    selection.selected edge.1 && selection.selected edge.2).filterMap fun edge => do
      let source ← topology.graphFiles[edge.1]?
      let target ← topology.graphFiles[edge.2]?
      return ⟨source, target, edgeResolver topology edge⟩

/-- `top_nodes` by a metric. -/
def topNodes (metric : GraphNode → ℕ) (files : List GraphFile) : List GraphNode :=
  let nodes := (files.map fun file => (⟨file.path, file.fanIn, file.fanOut⟩ : GraphNode)).filter
    fun node => metric node > 0
  (sortBy (fun left right =>
    (compare (metric right) (metric left)).then (compare left.path right.path)) nodes).take 10

/-- `project_graph`, without the projection of the symbols and the counters of imports that were not
resolved and files that were not parsed. -/
def projectGraph (signals : GraphSignals) (cycles : List (List String)) (orphans : List String)
    (query : GraphQuery) : DepGraph :=
  let selection := selectProjection topology query
  let paths := selectedPaths topology selection
  let files := projectFiles topology language signals selection
  let edgeList := projectEdges topology selection
  { languages :=
      ((sortBy compare (files.map (·.language))).filter fun name => !name.isEmpty).dedup
    nodes := files.length
    edges := edgeList.length
    files
    edgeList
    focus := selection.focus
    unmatchedFocus := selection.unmatchedFocus
    direction := if query.focus.isEmpty then "all" else query.direction.text
    depth := if query.focus.isEmpty then none else some query.depth
    cycles := cycles.filter fun cycle => cycle.all (· ∈ paths)
    orphans := orphans.filter (· ∈ paths)
    topDepended := topNodes GraphNode.fanIn files
    mostDependent := topNodes GraphNode.fanOut files }

end

/-! ## Import cycles -/

/-- `strongly_connected`: the nodes are read only for their number.  Edges that do not lie inside
are passed over. -/
def stronglyConnected (nodes : List String) (edges : List (ℕ × ℕ)) : List (List ℕ) :=
  let adj := (edges.map Prod.swap).foldl addImporter (List.replicate nodes.length [])
  let radj := edges.foldl addImporter (List.replicate nodes.length [])
  Components.strongComponents (fun node => (adj[node]?).getD []) (fun node => (radj[node]?).getD [])
    (List.range nodes.length)

def graphCycles (files : List String) (edges : List (ℕ × ℕ)) (selfCycles : List String) :
    List (List String) :=
  let components := (stronglyConnected files edges).filter fun component => component.length ≥ 2
  let cycles := components.map fun component =>
    KeyedList.sortBy compare (component.filterMap (files[·]?))
  KeyedList.sortBy compare (cycles ++ selfCycles.map ([·]))

end Reposcout.Graph
