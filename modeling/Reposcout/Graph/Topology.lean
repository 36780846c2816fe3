import Reposcout.Framework.BreadthFirst
import Reposcout.Framework.KeyedList
import Reposcout.Model.Machine
import Reposcout.Model.Path

/-!
# The dependency topology

A topology numbers the scanned source files and lists the resolved imports between them as
pairs of numbers, importer first.  `graphSignals` turns it into a map from each file to its
dependencies and dependents, and `edgeList` into edges between file names.
-/

namespace Reposcout.Graph

open List Option KeyedList

/-- `select_graph_universe`: the keys of the first-class source files, sorted and without
repetition.  Language detection is a parameter. -/
def selectGraphUniverse (firstClass : PathBuf → Bool) (paths : List PathBuf) : List String :=
  (sortBy Ord.compare ((paths.filter firstClass).map PathBuf.key)).dedup

/-- What reachability and its reports read of a topology.  The files are keys of distinct paths,
and the edges lie between them. -/
structure Topology where
  graphFiles : List String
  /-- Importer and imported file. -/
  edges : List (Nat × Nat)
  edgeResolvers : List ((Nat × Nat) × String)
  unresolvedImports : Nat
  unreadableNodes : List Nat
  parseErrors : Nat
  configErrors : Nat
  files_nodup : graphFiles.Nodup
  files_named : ∀ file ∈ graphFiles, (PathBuf.ofString file).key = file
  files_fit : graphFiles.length ≤ u64Max
  edges_inside : ∀ edge ∈ edges, edge.1 < graphFiles.length ∧ edge.2 < graphFiles.length

/-- One file imports the other. -/
def Topology.Imports (topology : Topology) (importer imported : String) : Prop :=
  ∃ edge ∈ topology.edges, topology.graphFiles[edge.1]? = some importer ∧
    topology.graphFiles[edge.2]? = some imported

/-! ## Signals of the files -/

structure GraphFileSignal where
  fanIn : Nat
  fanOut : Nat
  dependencies : List String
  dependents : List String
  dependencyResolvers : List (String × String)
  dependentResolvers : List (String × String)
  deriving DecidableEq

structure GraphSignals where
  languages : List String
  files : List (String × GraphFileSignal)
  unresolvedImports : Nat
  parseErrors : Nat
  configErrors : Nat
  deriving DecidableEq

section

variable (topology : Topology)

def edgeResolver (edge : Nat × Nat) : String :=
  (get? edge topology.edgeResolvers).getD "heuristic"

/-- The files that the edges selected by `here` have at their end `there`, in edge order. -/
def endpoints (here : Nat × Nat → Bool) (there : Nat × Nat → Nat) : List String :=
  topology.edges.filterMap fun edge =>
    if here edge then topology.graphFiles[there edge]? else none

/-- The resolvers of these edges by file; a later edge replaces an earlier one. -/
def endpointResolvers (here : Nat × Nat → Bool) (there : Nat × Nat → Nat) :
    List (String × String) :=
  topology.edges.foldl (fun resolvers edge =>
    match if here edge then topology.graphFiles[there edge]? else none with
    | some file => KeyedList.alter file (fun _ => edgeResolver topology edge) resolvers
    | none => resolvers) []

def graphFileSignal (index : Nat) : GraphFileSignal :=
  let importedHere := fun edge : Nat × Nat => edge.2 == index
  let importerHere := fun edge : Nat × Nat => edge.1 == index
  { fanIn := min (topology.edges.countP importedHere) u64Max
    fanOut := min (topology.edges.countP importerHere) u64Max
    dependencies := sortBy Ord.compare (endpoints topology importerHere Prod.snd)
    dependents := sortBy Ord.compare (endpoints topology importedHere Prod.fst)
    dependencyResolvers := endpointResolvers topology importerHere Prod.snd
    dependentResolvers := endpointResolvers topology importedHere Prod.fst }

/-- `graph_signals`: the source fills one vector per field in a single pass over the edges, each
slot of which is the share of one file. -/
def graphSignals (languages : List String) : GraphSignals where
  languages
  files := topology.graphFiles.zipIdx.map fun (path, index) =>
    (path, graphFileSignal topology index)
  unresolvedImports := topology.unresolvedImports
  parseErrors := topology.parseErrors
  configErrors := topology.configErrors

/-! ## Edges between names -/

structure GraphEdge where
  source : String
  target : String
  resolver : String
  deriving DecidableEq

/-- `project_edges` with every file selected. -/
def edgeList : List GraphEdge :=
  topology.edges.filterMap fun edge => do
    let source ← topology.graphFiles[edge.1]?
    let target ← topology.graphFiles[edge.2]?
    return ⟨source, target, edgeResolver topology edge⟩

end

/-! ## What the two views hold -/

variable {topology : Topology}

lemma mem_edgeList_iff {importer imported : String} :
    (∃ edge ∈ edgeList topology, edge.source = importer ∧ edge.target = imported) ↔
      topology.Imports importer imported := by
  constructor
  · rintro ⟨named, hnamed, rfl, rfl⟩
    obtain ⟨edge, hedge, hsome⟩ := mem_filterMap.mp hnamed
    obtain ⟨source, hsource, hsome⟩ := bind_eq_some_iff.mp hsome
    obtain ⟨target, htarget, hsome⟩ := bind_eq_some_iff.mp hsome
    obtain rfl := some.inj hsome
    exact ⟨edge, hedge, hsource, htarget⟩
  · rintro ⟨edge, hedge, hsource, htarget⟩
    refine ⟨⟨importer, imported, edgeResolver topology edge⟩, ?_, rfl, rfl⟩
    exact mem_filterMap.mpr ⟨edge, hedge, by simp [hsource, htarget]⟩

lemma get?_graphSignals (languages : List String) {index : Nat} {file : String}
    (hfile : topology.graphFiles[index]? = some file) :
    get? file (graphSignals topology languages).files =
      some (graphFileSignal topology index) := by
  have hkeys : KeyedList.keys (graphSignals topology languages).files = topology.graphFiles := by
    unfold KeyedList.keys graphSignals
    rw [List.map_map]
    exact zipIdx_map_fst 0 topology.graphFiles
  refine get?_of_mem (hkeys ▸ topology.files_nodup) ?_
  refine List.mem_map.mpr ⟨(file, index), ?_, rfl⟩
  exact mem_zipIdx_iff_getElem?.mpr hfile

lemma mem_dependents_iff {index : Nat} {importer imported : String}
    (hfile : topology.graphFiles[index]? = some imported) :
    importer ∈ (graphFileSignal topology index).dependents ↔
      topology.Imports importer imported := by
  unfold graphFileSignal endpoints Topology.Imports
  rw [mem_sortBy, mem_filterMap]
  refine exists_congr fun edge => and_congr_right fun hedge => ?_
  by_cases hindex : edge.2 = index
  · simp [hindex, hfile]
  · have hother : topology.graphFiles[edge.2]? ≠ some imported := by
      intro hsame
      obtain ⟨hlt, _⟩ := List.getElem?_eq_some_iff.mp hfile
      have hsame' : index = edge.2 :=
        (getElem?_inj hlt topology.files_nodup).mp (hfile.trans hsame.symm)
      exact hindex hsame'.symm
    simp [hindex, hother]

end Reposcout.Graph

/-!
## The impact of a change

`impactFromTopology` searches the reversed imports breadth first from the changed files and
splits the files it reaches into direct and transitive dependents.
-/

namespace Reposcout.Graph

open KeyedList

structure ImpactAnalysis where
  changedFiles : List String
  graphChangedFiles : List String
  directDependents : List String
  transitiveDependents : List String
  unresolvedImports : Nat
  parseErrors : Nat
  configErrors : Nat
  confidence : String
  deriving DecidableEq

inductive DependentKind where
  | direct | transitive
  deriving DecidableEq

section

variable (topology : Topology)

/-- Look a path up in `node_index`. -/
def nodeIndex (path : String) : Option Nat :=
  (get? path (indexBy Prod.fst topology.graphFiles.zipIdx)).map Prod.snd

/-- Enter the importer of an edge that lies inside. -/
def addImporter (reverse : List (List Nat)) (edge : Nat × Nat) : List (List Nat) :=
  if edge.1 < reverse.length ∧ edge.2 < reverse.length then
    reverse.modify edge.2 (· ++ [edge.1])
  else reverse

/-- The importers of every file. -/
def reverseEdges : List (List Nat) :=
  topology.edges.foldl addImporter (List.replicate topology.graphFiles.length [])

/-- `distance[index]`. -/
def distanceAt (distance : List (Option Nat)) (index : Nat) : Option Nat :=
  (distance[index]?).join

def passDependent (nextDistance : Nat) (s : List (Option Nat) × List Nat) (dependent : Nat) :
    List (Option Nat) × List Nat :=
  if (distanceAt s.1 dependent).isNone then
    (s.1.set dependent (some nextDistance), s.2 ++ [dependent])
  else s

/-- Visit a file whose dependents are reached next. -/
def visitImported (reverse : List (List Nat)) (distance : List (Option Nat)) (imported : Nat) :
    List (Option Nat) × List Nat :=
  let nextDistance := (distanceAt distance imported).getD 0 + 1
  ((reverse[imported]?).getD []).foldl (passDependent nextDistance) (distance, [])

def changedDistances (changedIndices : List Nat) : List (Option Nat) :=
  changedIndices.foldl (fun distance index => distance.set index (some 0))
    (List.replicate topology.graphFiles.length none)

/-- The queue and the distances at the end of the search. -/
def impactSearch (changedIndices : List Nat) : List Nat × List (Option Nat) :=
  BreadthFirst.drain (visitImported (reverseEdges topology)) topology.graphFiles.length
    changedIndices (changedDistances topology changedIndices)

/-- How a file depends on the changed ones. -/
def dependentKind (changedIndices : List Nat) (distance : List (Option Nat)) (index : Nat) :
    Option DependentKind :=
  if index ∈ changedIndices then none
  else
    match distanceAt distance index with
    | some 1 => some .direct
    | some _ => some .transitive
    | none => none

/-- The files of one kind, in topology order. -/
def dependentsOfKind (changedIndices : List Nat) (distance : List (Option Nat))
    (kind : DependentKind) : List String :=
  topology.graphFiles.zipIdx.filterMap fun (path, index) =>
    if dependentKind changedIndices distance index = some kind then some path else none

def impactConfidence (changedFiles graphChangedFiles : List String) : String :=
  if graphChangedFiles = [] then "none"
  else if graphChangedFiles.length = changedFiles.length ∧ topology.unresolvedImports = 0 ∧
      topology.unreadableNodes = [] ∧ topology.parseErrors = 0 ∧ topology.configErrors = 0 then
    "high"
  else "partial"

/-- The numbers of the changed files that are in the topology, in the order in which the source's
hash set yields them. -/
def changedIndices (order : KeyedList.IterationOrder Nat) (changed : List PathBuf) : List Nat :=
  let changedFiles := sortBy Ord.compare (changed.map PathBuf.key)
  order.arrange (changedFiles.filterMap (nodeIndex topology)).dedup

/-- `impact_from_topology` for a set of changed paths. -/
def impactFromTopology (order : KeyedList.IterationOrder Nat) (changed : List PathBuf) :
    ImpactAnalysis :=
  let changedFiles := sortBy Ord.compare (changed.map PathBuf.key)
  let indices := changedIndices topology order changed
  let graphChangedFiles :=
    sortBy Ord.compare (indices.filterMap (topology.graphFiles[·]?))
  let distance := (impactSearch topology indices).2
  { changedFiles
    graphChangedFiles
    directDependents := dependentsOfKind topology indices distance .direct
    transitiveDependents := dependentsOfKind topology indices distance .transitive
    unresolvedImports := topology.unresolvedImports
    parseErrors := topology.parseErrors
    configErrors := topology.configErrors
    confidence := impactConfidence topology changedFiles graphChangedFiles }

end

end Reposcout.Graph
