import Reposcout.Web.GraphData

/-!
# The neighbourhood of a type

`projectTypeNeighborhood` shows the files that are related to a type: in groups by the kind of the
relation, each file in the first group that has it, and all together within a limit.
-/

namespace Reposcout.Web

open KeyedList

/-! ## Groups -/

inductive TypeNeighborhoodFamily
  | types
  | imports
  deriving DecidableEq

inductive TypeNeighborhoodDirection
  | incoming
  | outgoing
  deriving DecidableEq

/-- How a direction is written in an id. -/
def TypeNeighborhoodDirection.text : TypeNeighborhoodDirection → String
  | incoming => "incoming"
  | outgoing => "outgoing"

/-- `TypeNeighborhoodGroup`; a `MutableGroup` has no total yet. -/
structure TypeNeighborhoodGroup where
  id : String
  label : String
  name : String
  family : TypeNeighborhoodFamily
  direction : TypeNeighborhoodDirection
  relation : String
  description : String
  paths : List String := []
  totalMembers : ℕ := 0
  deriving DecidableEq

structure TypeNeighborhoodProjection where
  focus : String
  symbol : GraphSymbol
  files : List String
  edges : List GraphEdge
  groups : List TypeNeighborhoodGroup
  totalFiles : ℕ
  truncated : Bool

def isTypeRelation (relation : String) : Bool :=
  relation ∈ ["extends", "implements", "embeds"]

def relationLabel (relation : String) : String :=
  if relation = "implements" then "Implements" else if relation = "embeds" then "Embeds"
  else "Extends"

def relationshipGroup (focus : String) (symbol : GraphSymbol) (relation : String)
    (direction : TypeNeighborhoodDirection) : TypeNeighborhoodGroup :=
  let label := match direction with
    | .incoming => relationLabel relation
    | .outgoing =>
      if relation = "implements" then "Implemented contracts"
      else if relation = "embeds" then "Embedded contracts" else "Base types"
  let action :=
    if relation = "implements" then "implement" else if relation = "embeds" then "embed"
    else "extend"
  { id := "relationship:" ++ focus ++ ":type:" ++ direction.text ++ ":" ++ relation
    label := label
    name := symbol.name
    family := .types
    direction := direction
    relation := relation
    description := match direction with
      | .incoming => "Declared repository types that explicitly " ++ action ++ " " ++
          symbol.qualifiedName ++ "."
      | .outgoing =>
          symbol.qualifiedName ++ " explicitly " ++ action ++ "s these repository types." }

def importGroup (focus : String) (symbol : GraphSymbol) (direction : TypeNeighborhoodDirection) :
    TypeNeighborhoodGroup where
  id := "relationship:" ++ focus ++ ":import:" ++ direction.text
  label := match direction with
    | .incoming => "Import dependents"
    | .outgoing => "Import dependencies"
  name := symbol.name
  family := .imports
  direction := direction
  relation := "imports"
  description := match direction with
    | .incoming => "Files that directly import " ++ focus ++
        " without a resolved type relationship to " ++ symbol.name ++ "."
    | .outgoing => "Files directly imported by " ++ focus ++ "."

/-- A file with the group that it belongs to, and the edge that relates it to the focus. -/
structure RelatedFile where
  group : TypeNeighborhoodGroup
  path : String
  edge : GraphEdge

def appendGroup (groups : List (String × TypeNeighborhoodGroup)) (related : RelatedFile) :
    List (String × TypeNeighborhoodGroup) :=
  KeyedList.alter related.group.id (fun existing => match existing with
    | some group => { group with paths := group.paths ++ [related.path] }
    | none => { related.group with paths := [related.path] }) groups

/-- `symbolEdgeDirection` and `fileEdgeDirection`. -/
def edgeDirection (source target id : String) : Option TypeNeighborhoodDirection :=
  if target = id then some .incoming else if source = id then some .outgoing else none

/-- `relatedSymbolId` and `relatedFilePath`. -/
def relatedEnd (source target : String) : TypeNeighborhoodDirection → String
  | .incoming => source
  | .outgoing => target

def typeFileEdge (focus relatedPath relation : String) (direction : TypeNeighborhoodDirection) :
    GraphEdge where
  source := match direction with | .incoming => relatedPath | .outgoing => focus
  target := match direction with | .incoming => focus | .outgoing => relatedPath
  resolver := "symbol-" ++ relation

/-- One turn of the loop of `collectTypeGroups`. -/
def typeRelated (symbolsById : List (String × GraphSymbol)) (focus : String)
    (symbol : GraphSymbol) (edge : GraphSymbolEdge) : Option RelatedFile :=
  if isTypeRelation edge.relation = true then do
    let direction ← edgeDirection edge.source edge.target symbol.id
    let related ← get? (relatedEnd edge.source edge.target direction) symbolsById
    if related.path = focus then none
    else some ⟨relationshipGroup focus symbol edge.relation direction, related.path,
      typeFileEdge focus related.path edge.relation direction⟩
  else none

/-- One turn of the loop of `collectImportGroups`. -/
def importRelated (typePaths : List String) (focus : String) (symbol : GraphSymbol)
    (edge : GraphEdge) : Option RelatedFile := do
  let direction ← edgeDirection edge.source edge.target focus
  let relatedPath := relatedEnd edge.source edge.target direction
  if relatedPath = focus ∨ relatedPath ∈ typePaths then none
  else some ⟨importGroup focus symbol direction, relatedPath, edge⟩

/-- `collectTypeGroups`: the groups, and the edges between their files and the focus. -/
def collectTypeGroups (edges : List GraphSymbolEdge) (symbolsById : List (String × GraphSymbol))
    (focus : String) (symbol : GraphSymbol) :
    List (String × TypeNeighborhoodGroup) × List GraphEdge :=
  let related := edges.filterMap (typeRelated symbolsById focus symbol)
  (related.foldl appendGroup [], related.map RelatedFile.edge)

/-- `collectImportGroups`, with the groups that it goes on to fill. -/
def collectImportGroups (edges : List GraphEdge) (groups : List (String × TypeNeighborhoodGroup))
    (typePaths : List String) (focus : String) (symbol : GraphSymbol) :
    List (String × TypeNeighborhoodGroup) × List GraphEdge :=
  let related := edges.filterMap (importRelated typePaths focus symbol)
  (related.foldl appendGroup groups, related.map RelatedFile.edge)

/-! ## Each file in one group -/

/-- `RELATION_ORDER.get(relation) ?? 9`. -/
def relationOrder (relation : String) : ℕ :=
  if relation = "extends" then 0 else if relation = "implements" then 1
  else if relation = "embeds" then 2 else 9

def compareGroups (locale : Collation) (left right : TypeNeighborhoodGroup) : Ordering :=
  (((compare (left.family = .imports : Bool) (right.family = .imports : Bool)).then
    (compare (left.direction = .outgoing : Bool) (right.direction = .outgoing : Bool))).then
    (compare (relationOrder left.relation) (relationOrder right.relation))).then
    (locale.localeCompare left.id right.id)

/-- The paths of one group that `claimPath` lets it have, and all that are claimed then. -/
def claimPaths : List String → List String → List String × List String
  | claimed, [] => ([], claimed)
  | claimed, path :: rest =>
    if path ∈ claimed then claimPaths claimed rest
    else
      let (paths, claimed) := claimPaths (claimed ++ [path]) rest
      (path :: paths, claimed)

def claimGroups : List String → List TypeNeighborhoodGroup →
    List TypeNeighborhoodGroup × List String
  | claimed, [] => ([], claimed)
  | claimed, group :: rest =>
    let (paths, claimed) := claimPaths claimed group.paths
    let (groups, claimed) := claimGroups claimed rest
    ({ group with paths := paths } :: groups, claimed)

def distinctGroups (locale : Collation) (groups : List (String × TypeNeighborhoodGroup)) :
    List TypeNeighborhoodGroup × List String :=
  let ordered := sortBy (compareGroups locale) (groups.map fun entry =>
    { entry.2 with
      paths := sortBy compareCodeUnits (InsertionSet.ofList entry.2.paths) })
  let (distinct, claimed) := claimGroups [] ordered
  ((distinct.filter fun group => group.paths ≠ []).map fun group =>
    { group with totalMembers := group.paths.length }, claimed)

/-! ## Within the limit -/

def importContextLimit : ℕ := 12

def giveFirst : ℕ → List TypeNeighborhoodGroup → List (TypeNeighborhoodGroup × List String) × ℕ
  | budget, [] => ([], budget)
  | 0, candidate :: rest => ((candidate, []) :: (giveFirst 0 rest).1, 0)
  | budget + 1, candidate :: rest =>
    let (given, left) := giveFirst budget rest
    ((candidate, candidate.paths.take 1) :: given, left)

/-- The other paths for each candidate, as long as there is a budget. -/
def giveRest : ℕ → List (TypeNeighborhoodGroup × List String) → List TypeNeighborhoodGroup
  | _, [] => []
  | budget, (candidate, first) :: rest =>
    let more := (candidate.paths.drop 1).take budget
    { candidate with paths := first ++ more } :: giveRest (budget - more.length) rest

def retainCandidate (group : TypeNeighborhoodGroup) : TypeNeighborhoodGroup :=
  if group.family = .imports then { group with paths := group.paths.take importContextLimit }
  else group

def retainGroups (groups : List TypeNeighborhoodGroup) (limit : ℕ) : List TypeNeighborhoodGroup :=
  let maximumGroups := min groups.length ((limit - 1) / 2)
  let candidates := (groups.take maximumGroups).map retainCandidate
  let (given, memberBudget) := giveFirst (limit - 1 - candidates.length) candidates
  (giveRest memberBudget given).filter fun group => group.paths ≠ []

/-! ## The projection -/

/-- How many edges meet each symbol. -/
def incidentCounts (edges : List GraphSymbolEdge) : List (String × ℕ) :=
  edges.foldl (fun incident edge =>
    KeyedList.alter edge.target (fun count => count.getD 0 + 1)
      (KeyedList.alter edge.source (fun count => count.getD 0 + 1) incident)) []

def selectFocusSymbol (symbols : List GraphSymbol) (edges : List GraphSymbolEdge) (focus : String)
    (preferredId : Option String) : Option GraphSymbol :=
  let incident := fun symbol : GraphSymbol =>
    (get? symbol.id (incidentCounts edges)).getD 0
  let candidates := sortBy (fun left right =>
    ((((compare (preferredId = some right.id : Bool) (preferredId = some left.id : Bool)).then
      (compare (incident right) (incident left))).then
      (compare right.fanIn left.fanIn)).then
      (compare right.fanOut left.fanOut)).then
      (compare left.line right.line))
    (symbols.filter fun symbol => symbol.path = focus ∧ 0 < incident symbol)
  candidates.head?

def dedupeEdges (locale : Collation) (edges : List GraphEdge) : List GraphEdge :=
  sortBy (compareGraphEdges locale)
    ((indexBy (fun edge : GraphEdge =>
      edge.source ++ "\x00" ++ edge.target ++ "\x00" ++ edge.resolver) edges).map Prod.snd)

/-- What is shown around a symbol, once the type relations are collected. -/
def neighborhoodOf (locale : Collation) (graph : DependencyGraph) (focus : String) (limit : ℕ)
    (symbol : GraphSymbol) (types : List (String × TypeNeighborhoodGroup) × List GraphEdge) :
    TypeNeighborhoodProjection :=
  let typePaths := InsertionSet.ofList (types.1.flatMap fun entry => entry.2.paths)
  let imports := collectImportGroups graph.edgeList types.1 typePaths focus symbol
  let distinct := distinctGroups locale imports.1
  let totalFiles := 1 + distinct.2.length
  let groups := retainGroups distinct.1 (max 1 limit)
  let retainedPaths := InsertionSet.ofList (focus :: groups.flatMap TypeNeighborhoodGroup.paths)
  { focus := focus
    symbol := symbol
    files := sortBy (fun left right =>
      if left = focus then .lt else if right = focus then .gt
      else locale.localeCompare left right) retainedPaths
    edges := (dedupeEdges locale (types.2 ++ imports.2)).filter fun edge =>
      edge.source ∈ retainedPaths ∧ edge.target ∈ retainedPaths
    groups := groups
    totalFiles := totalFiles
    truncated := retainedPaths.length < totalFiles }

def projectTypeNeighborhood (locale : Collation) (graph : DependencyGraph) (focus : String)
    (limit : ℕ) : Option TypeNeighborhoodProjection := do
  let focusFile ← graph.files.find? fun file => file.path = focus
  let symbol ← selectFocusSymbol graph.symbols graph.symbolEdges focus
    (focusFile.symbolReach.map GraphSymbolReach.symbolId)
  let types := collectTypeGroups graph.symbolEdges
    (indexBy GraphSymbol.id graph.symbols) focus symbol
  if types.1 = [] then none else some (neighborhoodOf locale graph focus limit symbol types)

end Reposcout.Web
