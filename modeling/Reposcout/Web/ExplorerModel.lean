import Reposcout.Web.GraphData

/-!
# Views of the explorer

`buildView` shows a scope: its directories and files as entities, the neighbours of the scope as
external ones, and the edges between two entities as one connection.  At the root the directories
are shown in groups.
-/

/-!
## Paths of the explorer

Paths are texts.  A scope is the path of a directory, and the empty text is the whole project.
-/

namespace Reposcout.Web

/-- `path.split("/")`. -/
def splitPath (path : String) : List String := (path.toList.splitOn '/').map String.ofList

/-- `parts.join("/")`. -/
def joinParts (parts : List String) : String := "/".intercalate parts

/-- `scope ? scope.split("/") : []`. -/
def names (scope : String) : List String := if scope = "" then [] else splitPath scope

/-- The path of a file below the root: it has names only. -/
def IsPath (path : String) : Prop := ∀ part ∈ splitPath path, part ≠ ""

def relativeToScope (path scope : String) : String :=
  if scope = "" then path else String.ofList (path.toList.drop (scope.toList.length + 1))

def pathInScope (path scope : String) : Bool :=
  scope = "" || path = scope || (scope.toList ++ ['/']).isPrefixOf path.toList

def pathParent (path : String) : String := joinParts (splitPath path).dropLast

def joinPath (parent child : String) : String :=
  if parent = "" then child else parent ++ "/" ++ child

/-- `path.split("/").at(-1)`. -/
def pathName (path : String) : String := (splitPath path).getLastD path

def scopeId (path : String) (external : Bool) : String :=
  (if external then "external-scope" else "scope") ++ ":" ++ (if path = "" then "." else path)

def fileId (path : String) (external : Bool) : String :=
  (if external then "external-file" else "file") ++ ":" ++ path

open KeyedList

/-! ## What is shown -/

structure FileReport where
  path : String
  named : IsPath path

structure ScanReport where
  files : List FileReport

inductive ScopeKind
  | project
  | package
  | area
  | directory
  deriving DecidableEq

structure ExplorerScopeSummary where
  id : String
  path : String
  name : String
  scopeKind : ScopeKind
  external : Bool
  files : ℕ
  deriving DecidableEq

structure ExplorerFileSummary where
  id : String
  path : String
  name : String
  parentPath : String
  external : Bool
  deriving DecidableEq

inductive ExplorerEntity
  | scope (summary : ExplorerScopeSummary)
  | file (summary : ExplorerFileSummary)
  deriving DecidableEq

namespace ExplorerEntity

def id : ExplorerEntity → String
  | scope summary => summary.id
  | file summary => summary.id

def path : ExplorerEntity → String
  | scope summary => summary.path
  | file summary => summary.path

def external : ExplorerEntity → Bool
  | scope summary => summary.external
  | file summary => summary.external

def isFile : ExplorerEntity → Bool
  | scope _ => false
  | file _ => true

end ExplorerEntity

structure ExplorerGroup where
  id : String
  path : String
  name : String
  label : String
  members : List ExplorerEntity
  deriving DecidableEq

structure ExplorerConnection where
  id : String
  source : String
  target : String
  count : ℕ
  relation : String
  resolvers : List (String × ℕ)
  fileEdges : List GraphEdge
  deriving DecidableEq

structure ExplorerView where
  scope : ExplorerScopeSummary
  entities : List ExplorerEntity
  groups : List ExplorerGroup
  connections : List ExplorerConnection
  totalEntities : ℕ
  truncated : Bool

structure ModelIndexes where
  graph : DependencyGraph
  structuralEdges : List GraphEdge
  reportFiles : List FileReport
  anchorDirectories : List String

def architectureContainers : List String :=
  ["apps", "crates", "modules", "packages", "plugins", "services"]

def packageManifests : List String :=
  ["cargo.toml", "composer.json", "deno.json", "deno.jsonc", "go.mod", "package.json",
    "pyproject.toml"]

def explorerNodeLimit : ℕ := 100

def anchorDirectories (toLowerCase : String → String) (graph : DependencyGraph)
    (files : List FileReport) : List String :=
  InsertionSet.ofList
    (((files.map FileReport.path ++ graph.configFiles).filter fun path =>
      toLowerCase (pathName path) ∈ packageManifests).map pathParent)

/-- The indexes that `buildRepositoryGraphExplorer` makes. -/
def modelIndexes (locale : Collation) (toLowerCase : String → String) (graph : DependencyGraph)
    (report : ScanReport) : ModelIndexes :=
  let reportFiles :=
    sortBy (fun left right => locale.localeCompare left.path right.path) report.files
  { graph := graph
    structuralEdges := structuralFileEdges locale graph
    reportFiles := reportFiles
    anchorDirectories := anchorDirectories toLowerCase graph reportFiles }

section

variable (locale : Collation) (indexes : ModelIndexes)

/-! ## Scopes -/

def directFiles (scopePath : String) : List FileReport :=
  indexes.reportFiles.filter fun file => pathParent file.path = scopePath

def filesInScope (scopePath : String) : List FileReport :=
  indexes.reportFiles.filter fun file => pathInScope file.path scopePath

def childScope (scopePath : String) (file : FileReport) : Option String :=
  match splitPath (relativeToScope file.path scopePath) with
  | first :: _ :: _ => some (joinPath scopePath first)
  | _ => none

def immediateChildScopes (scopePath : String) : List String :=
  InsertionSet.ofList ((filesInScope indexes scopePath).filterMap (childScope scopePath))

/-- The loop of `collapseScope`. -/
def collapseFrom : ℕ → String → String
  | 0, scope => scope
  | fuel + 1, scope =>
    if scope ∉ indexes.anchorDirectories ∧ directFiles indexes scope = [] then
      match immediateChildScopes indexes scope with
      | [child] => collapseFrom fuel child
      | _ => scope
    else scope

/-- `collapseScope`.  A scope has no more levels below it than the paths have names. -/
def collapseScope (initial : String) : String :=
  collapseFrom indexes ((indexes.reportFiles.map fun file => (splitPath file.path).length).sum)
    initial

/-- The root that a file is in, before it is collapsed. -/
def rootOf (path : String) : Option String :=
  if pathParent path = "" then none
  else
    match splitPath (pathParent path) with
    | first :: second :: _ =>
      some (if first ∈ architectureContainers then first ++ "/" ++ second else first)
    | parts => parts.head?

def rootChildScopes : List String :=
  sortBy compareCodeUnits (InsertionSet.ofList
    ((indexes.reportFiles.filterMap fun file => rootOf file.path).map (collapseScope indexes)))

def visibleChildScopes (scopePath : String) : List String :=
  if scopePath = "" then rootChildScopes indexes
  else
    sortBy compareCodeUnits
      ((immediateChildScopes indexes scopePath).map (collapseScope indexes))

/-! ## Entities -/

def scopeName (scopePath : String) : String :=
  if scopePath = "" then "Project" else pathName scopePath

def scopeKind (scopePath : String) : ScopeKind :=
  if scopePath = "" then .project
  else if scopePath ∈ indexes.anchorDirectories then .package
  else if '/' ∉ scopePath.toList ∨ (splitPath scopePath).headD "" ∈ architectureContainers then
    .area
  else .directory

def summarizeScope (scopePath : String) (external : Bool) : ExplorerScopeSummary where
  id := scopeId scopePath external
  path := scopePath
  name := scopeName scopePath
  scopeKind := scopeKind indexes scopePath
  external := external
  files := (filesInScope indexes scopePath).length

/-- What `summarizeFile` makes of a file that has a report. -/
def fileSummary (path : String) (external : Bool) : ExplorerFileSummary where
  id := fileId path external
  path := path
  name := pathName path
  parentPath := pathParent path
  external := external

def summarizeFile (path : String) (external : Bool) : Except String ExplorerFileSummary :=
  if path ∈ indexes.reportFiles.map FileReport.path then .ok (fileSummary path external)
  else .error ("graph file " ++ path ++ " was not retained in the scan report")

/-- `entities.set(entity.id, entity)`. -/
def setEntity (entities : List (String × ExplorerEntity)) (entity : ExplorerEntity) :
    List (String × ExplorerEntity) :=
  KeyedList.alter entity.id (fun _ => entity) entities

/-- The entity of a directory that is not external. -/
def scopeEntity (scopePath : String) : ExplorerEntity :=
  .scope (summarizeScope indexes scopePath false)

def fileEntity (path : String) : ExplorerEntity := .file (fileSummary path false)

def addScopeContents (scopePath : String) (entities : List (String × ExplorerEntity))
    (collapseChildren : Bool) : List (String × ExplorerEntity) :=
  let childScopes :=
    if collapseChildren then visibleChildScopes indexes scopePath
    else sortBy compareCodeUnits (immediateChildScopes indexes scopePath)
  let entities := (childScopes.map (scopeEntity indexes)).foldl setEntity entities
  ((directFiles indexes scopePath).map fun file => fileEntity file.path).foldl setEntity entities

def compareEntities (left right : ExplorerEntity) : Ordering :=
  ((compare left.external right.external).then (compare left.isFile right.isFile)).then
    (locale.localeCompare left.path right.path)

/-- One turn of the loop of `buildArchitectureGroups`. -/
def addRoot (state : List (String × ExplorerEntity) × List ExplorerGroup) (root : String) :
    List (String × ExplorerEntity) × List ExplorerGroup :=
  let members := addScopeContents indexes root [] false
  if members.length = 0 ∨ (members.length = 1 ∧ root ∉ indexes.anchorDirectories) then
    (setEntity state.1 (scopeEntity indexes root), state.2)
  else
    let scope := summarizeScope indexes root false
    ((members.map Prod.snd).foldl setEntity state.1, state.2 ++ [{
      id := "architecture-group:" ++ root
      path := root
      name := scope.name
      label := match scope.scopeKind with
        | .package => "Package"
        | .area => "Project area"
        | _ => "Directory"
      members := sortBy (compareEntities locale) (members.map Prod.snd) }])

/-- `buildArchitectureGroups`, with the entities that it fills. -/
def buildArchitectureGroups (scopePath : String) :
    List (String × ExplorerEntity) × List ExplorerGroup :=
  if scopePath ≠ "" then ([], [])
  else
    let (entities, groups) :=
      (rootChildScopes indexes).foldl (addRoot locale indexes) ([], [])
    (((directFiles indexes scopePath).map fun file => fileEntity file.path).foldl setEntity
      entities, groups)

/-- The entities and groups of a view, before its edges are looked at. -/
def scopeEntities (scopePath : String) : List (String × ExplorerEntity) × List ExplorerGroup :=
  let (entities, groups) := buildArchitectureGroups locale indexes scopePath
  (if groups = [] then addScopeContents indexes scopePath entities true else entities, groups)

/-! ## Connections -/

def entityForPath (path currentScope : String) (entities : List ExplorerEntity) :
    Option ExplorerEntity :=
  if pathInScope path currentScope then
    entities.find? fun entity => match entity with
      | .file summary => summary.path = path
      | .scope summary => pathInScope path summary.path
  else none

/-- How many names two lists begin with alike. -/
def sharedLength : List String → List String → ℕ
  | current :: currents, outside :: outsides =>
    if current = outside then sharedLength currents outsides + 1 else 0
  | _, _ => 0

def boundaryScopeForPath (currentScope path : String) : String :=
  let directory := pathParent path
  if directory = "" then ""
  else
    let current := names currentScope
    let outside := splitPath directory
    let shared := sharedLength current outside
    if shared = outside.length ∧ shared < current.length then ""
    else joinParts (outside.take (min outside.length (shared + 1)))

/-- `ensureBoundaryEntity`, with the entities that it leaves. -/
def ensureBoundaryEntity (entities : List (String × ExplorerEntity)) (currentScope path : String) :
    Except String (String × List (String × ExplorerEntity)) :=
  let boundaryScope := boundaryScopeForPath currentScope path
  if boundaryScope = "" then do
    let file ← summarizeFile indexes path true
    .ok (file.id, setEntity entities (.file file))
  else
    let id := scopeId boundaryScope true
    if id ∈ KeyedList.keys entities then .ok (id, entities)
    else .ok (id, setEntity entities (.scope (summarizeScope indexes boundaryScope true)))

def mapGraphFiles (scopePath : String) (entities : List (String × ExplorerEntity)) :
    List (String × String) :=
  indexes.graph.files.foldl (fun mapped file =>
    match entityForPath file.path scopePath (entities.map Prod.snd) with
    | some entity => KeyedList.alter file.path (fun _ => entity.id) mapped
    | none => mapped) []

/-- `mappedGraphFiles.get(path) ?? ensureBoundaryEntity(path)`. -/
def endEntity (mapped : List (String × String)) (entities : List (String × ExplorerEntity))
    (scopePath path : String) : Except String (String × List (String × ExplorerEntity)) :=
  match get? path mapped with
  | some id => .ok (id, entities)
  | none => ensureBoundaryEntity indexes entities scopePath path

def meetsScope (scopePath : String) (edge : GraphEdge) : Bool :=
  pathInScope edge.source scopePath || pathInScope edge.target scopePath

/-- The loop over the edges: those between two entities, with the ids of both, and the entities at
the end. -/
def connectEdges (mapped : List (String × String)) (scopePath : String) :
    List (String × ExplorerEntity) → List GraphEdge →
      Except String (List (GraphEdge × String × String) × List (String × ExplorerEntity))
  | entities, [] => .ok ([], entities)
  | entities, edge :: rest =>
    if meetsScope scopePath edge then do
      let (source, entities) ← endEntity indexes mapped entities scopePath edge.source
      let (target, entities) ← endEntity indexes mapped entities scopePath edge.target
      let (connected, entities) ← connectEdges mapped scopePath entities rest
      .ok (if source = target then connected else (edge, source, target) :: connected, entities)
    else connectEdges mapped scopePath entities rest

def edgeRelation (resolver : String) : String :=
  if resolver = "symbol-extends" then "extends"
  else if resolver = "symbol-implements" then "implements"
  else if resolver = "symbol-embeds" then "embeds"
  else if resolver = "php-include" then "includes"
  else if resolver = "rust-mod" ∨ resolver = "rust-path" then "declares-module"
  else if "go-".toList.isPrefixOf resolver.toList then "imports-package"
  else "imports"

/-- File an edge under its two ends. -/
def groupEdge (grouped : List (String × String × String × List GraphEdge))
    (entry : GraphEdge × String × String) : List (String × String × String × List GraphEdge) :=
  KeyedList.alter (entry.2.1 ++ "→" ++ entry.2.2) (fun group => match group with
    | some (source, target, edges) => (source, target, edges ++ [entry.1])
    | none => (entry.2.1, entry.2.2, [entry.1])) grouped

/-- The connection of some edges. -/
def connectionOf (group : String × String × String × List GraphEdge) : ExplorerConnection :=
  let (id, source, target, edges) := group
  let resolverCounts := edges.foldl (fun counts edge =>
    KeyedList.alter edge.resolver (fun count => count.getD 0 + 1) counts) []
  let relations := InsertionSet.ofList (edges.map fun edge => edgeRelation edge.resolver)
  { id := id
    source := source
    target := target
    count := edges.length
    relation := match relations with
      | [relation] => relation
      | _ => "mixed"
    resolvers := sortBy (fun left right =>
      (compare right.2 left.2).then (locale.localeCompare left.1 right.1)) resolverCounts
    fileEdges := sortBy (compareGraphEdges locale) edges }

def aggregateConnections (edges : List (GraphEdge × String × String)) : List ExplorerConnection :=
  sortBy (fun left right =>
    (locale.localeCompare left.source right.source).then
      (locale.localeCompare left.target right.target))
    ((edges.foldl groupEdge []).map (connectionOf locale))

/-! ## Views -/

def rankEntities (entities : List ExplorerEntity) (connections : List ExplorerConnection) :
    List ExplorerEntity :=
  let connectionWeight := connections.foldl (fun weights connection =>
    KeyedList.alter connection.target (fun weight => weight.getD 0 + connection.count)
      (KeyedList.alter connection.source (fun weight => weight.getD 0 + connection.count) weights))
    []
  let weight := fun entity : ExplorerEntity => (get? entity.id connectionWeight).getD 0
  let files := fun entity : ExplorerEntity => match entity with
    | .scope summary => summary.files
    | .file _ => 1
  sortBy (fun left right =>
    (((compare left.external right.external).then (compare (weight right) (weight left))).then
      (compare (files right) (files left))).then (compareEntities locale left right)) entities

/-- What `buildView` has before it is cut to the node limit. -/
structure WholeView where
  entities : List ExplorerEntity
  groups : List ExplorerGroup
  connections : List ExplorerConnection

/-- The first half of `buildView`. -/
def wholeView (scopePath : String) : Except String WholeView := do
  let (entities, groups) := scopeEntities locale indexes scopePath
  let (connected, entities) ← connectEdges indexes (mapGraphFiles indexes scopePath entities)
    scopePath entities indexes.structuralEdges
  .ok ⟨entities.map Prod.snd, groups, aggregateConnections locale connected⟩

def buildView (scopePath : String) : Except String ExplorerView := do
  let whole ← wholeView locale indexes scopePath
  let ranked := rankEntities locale whole.entities whole.connections
  let retained := ranked.take (max 1 (explorerNodeLimit - whole.groups.length))
  let retainedIds := retained.map ExplorerEntity.id
  let retainedGroups := (whole.groups.map fun group =>
    { group with members := group.members.filter fun member => member.id ∈ retainedIds }).filter
    fun group => group.members ≠ []
  .ok {
    scope := summarizeScope indexes scopePath false
    entities := sortBy (compareEntities locale) retained
    groups := retainedGroups
    connections := whole.connections.filter fun connection =>
      connection.source ∈ retainedIds ∧ connection.target ∈ retainedIds
    totalEntities := ranked.length
    truncated := explorerNodeLimit < ranked.length + whole.groups.length }

end

end Reposcout.Web
