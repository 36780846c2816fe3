import Reposcout.Graph.JavaScript
import Reposcout.Model.SyntaxTree

/-!
# Godot projects

A file belongs to the project at the nearest directory above it that has a `project.godot`.  A
resource is named by a path, relative or from the root of the project, or by its UID; a script may
also name a class of its project, or a singleton that the project loads at its start.

The files of each language and what the parser makes of a configuration are inputs, as are the
references of a source file.
-/

namespace Reposcout.Graph

open Js

/-- What detection says about the language of a path. -/
structure GodotLanguages where
  isGodot : String → Bool
  hasUidSidecar : String → Bool
  /-- The path has no language of the graph, or C#. -/
  isOutside : String → Bool

/-- `Facts` of a source file. -/
structure GodotFacts where
  className : Option String
  uid : Option String

/-- `Reference`. -/
inductive GodotReference where
  | resource (path uid : Option String)
  | name (name : String)
  | dynamic

namespace Godot

/-! ## Texts -/

def stripPrefix (text start : String) : Option String :=
  if hasPrefix text start then some (String.ofList (text.toList.drop start.toList.length)) else none

/-- The characters that the escapes of a string stand for, absent for an unhandled escape. -/
def unescape : List Char → Option (List Char)
  | [] => some []
  | '\\' :: c :: rest =>
    let decoded :=
      if c = '\\' || c = '\x27' || c = '\x22' then some c
      else if c = 'n' then some '\n'
      else if c = 'r' then some '\r'
      else if c = 't' then some '\t'
      else none
    decoded.bind fun c => (unescape rest).map (c :: ·)
  | ['\\'] => none
  | c :: rest => (unescape rest).map (c :: ·)

/-- `string`: the value of a string literal. -/
def string (node : Cst) : Option String :=
  if node.kind = "string" ∨ node.kind = "string_literal" then
    let isRaw := hasPrefix node.text "r"
    let raw := ((stripPrefix node.text "r").getD node.text).toList
    raw.head?.bind fun quote =>
      if quote = '\x27' ∨ quote = '\x22' then
        let triple := List.replicate 3 quote
        let delimiter := if triple.isPrefixOf raw then triple else [quote]
        let rest := raw.drop delimiter.length
        if delimiter.isSuffixOf rest then
          let inner := rest.take (rest.length - delimiter.length)
          if isRaw then some (String.ofList inner) else (unescape inner).map String.ofList
        else none
      else none
  else none

def sectionName (node : Cst) : String := (node.namedChildren.head?.map Cst.text).getD ""

def validUid (uid : String) : Bool :=
  (stripPrefix uid "uid://").any fun id =>
    id ≠ "" && id.toList.all fun c => c.isLower || c.isDigit

/-- `text.trim()`. -/
def trim (text : String) : String :=
  String.ofList ((text.toList.dropWhile isWhitespace).reverse.dropWhile isWhitespace).reverse

/-- The loop of `safe_path` over the segments of a path. -/
def walkSegments : List String → List String → Option (List String)
  | parts, [] => some parts
  | parts, part :: rest =>
    if part = "" ∨ part = "." then walkSegments parts rest
    else if part = ".." then if parts = [] then none else walkSegments parts.dropLast rest
    else walkSegments (parts ++ [part]) rest

def safePath (base path : String) : Option String :=
  if path = "" ∨ hasPrefix path "/" ∨ path.toList.any (fun c => c = ':' || c = '\\') ∨
      path.toList.any isControl then none
  else
    (walkSegments ((splitSlash base).filter (· ≠ "")) (splitSlash path)).map ("/".intercalate ·)

end Godot

open Godot

/-! ## The resolver -/

/-- The files under a name of a project. -/
abbrev GodotTable := List ((String × String) × List String)

/-- A set with one more member. -/
def withTarget (target : String) (targets : Option (List String)) : List String :=
  let targets := targets.getD []
  if target ∈ targets then targets else targets ++ [target]

structure GodotResolver where
  projects : List String := []
  names : GodotTable := []
  uids : GodotTable := []
  configFiles : List String := []
  configErrorsByPath : List (String × ℕ) := []

namespace GodotResolver

/-- A step of `max_by_key` on the length: among roots of one length the last one stays. -/
def longer : Option String → String → Option String
  | some best, root => if root.utf8ByteSize < best.utf8ByteSize then some best else some root
  | none, root => some root

def longest (roots : List String) : Option String := roots.foldl longer none

/-- `project`: the nearest root above a path. -/
def project (resolver : GodotResolver) (path : String) : Option String :=
  longest (resolver.projects.filter (pathInScope path))

def addName (resolver : GodotResolver) (project name target : String) : GodotResolver :=
  { resolver with names := KeyedList.alter (project, name) (withTarget target) resolver.names }

/-- The singleton of a property of an `[autoload]` section: its name and its file. -/
def singleton (project : String) (property : Cst) : Option (String × String) := do
  let key ← property.namedChildren[0]?
  let value ← property.namedChildren[1]?.bind string
  let path ← (Godot.stripPrefix value "*").bind fun path => Godot.stripPrefix path "res://"
  let target ← safePath project path
  return (key.text, target)

def singletons (project : String) (root : Cst) : List (String × String) :=
  (root.namedChildren.filter fun node =>
      node.kind = "section" && sectionName node = "autoload").flatMap fun node =>
    (node.namedChildren.filter fun child => child.kind = "property").filterMap (singleton project)

def addAutoloads (resolver : GodotResolver) (project : String) (root : Cst) : GodotResolver :=
  (singletons project root).foldl
    (fun resolver autoload => resolver.addName project autoload.1 autoload.2) resolver

def indexUid (resolver : GodotResolver) (path uid : String) : GodotResolver :=
  if validUid uid then
    match resolver.project path with
    | none => resolver
    | some project =>
      { resolver with uids := KeyedList.alter (project, uid) (withTarget path) resolver.uids }
  else resolver

def recordError (resolver : GodotResolver) (path : String) (errors : ℕ) : GodotResolver :=
  { resolver with
    configErrorsByPath := KeyedList.alter path (fun _ => errors) resolver.configErrorsByPath }

def addProject (resolver : GodotResolver) (config : String) : GodotResolver :=
  { resolver with
    projects := union resolver.projects [pathParent config]
    configFiles := resolver.configFiles ++ [config] }

section

variable (languages : GodotLanguages) (files : List String) (access : ConfigAccess)
  (parse : String → Option (Cst × ℕ))

/-- Where a configuration of a project may be. -/
def candidates : List String :=
  union [] ((files.filter languages.isGodot).flatMap fun path =>
    (directoriesOf path).map fun directory => joinGraphPath directory "project.godot")

def isConfig (config : String) : Bool :=
  (config ∈ files && fileName config = some "project.godot") || access.holds config

def addConfig (resolver : GodotResolver) (config : String) : GodotResolver :=
  if isConfig files access config then
    let resolver := resolver.addProject config
    match access.read config with
    | none => resolver.recordError config 1
    | some content =>
      match parse content with
      | none => resolver.recordError config 1
      | some (root, errors) =>
        let resolver := if errors > 0 then resolver.recordError config errors else resolver
        resolver.addAutoloads (pathParent config) root
  else resolver

def addSidecar (resolver : GodotResolver) (path : String) : GodotResolver :=
  let sidecar := path ++ ".uid"
  if access.holds sidecar then
    let resolver := { resolver with configFiles := resolver.configFiles ++ [sidecar] }
    match access.read sidecar with
    | none => resolver.recordError sidecar 1
    | some uid =>
      if validUid (trim uid) then resolver.indexUid path (trim uid)
      else resolver.recordError sidecar 1
  else resolver

def discover : GodotResolver :=
  let resolver := (candidates languages files).foldl (addConfig files access parse) {}
  (files.filter languages.hasUidSidecar).foldl (addSidecar access) resolver

end

/-- The class of a source file. -/
def addClass (resolver : GodotResolver) (path : String) (facts : GodotFacts) : GodotResolver :=
  match facts.className with
  | none => resolver
  | some name =>
    match resolver.project path with
    | none => resolver
    | some project => resolver.addName project name path

def addSource (resolver : GodotResolver) (source : String × GodotFacts) : GodotResolver :=
  let resolver := resolver.addClass source.1 source.2
  match source.2.uid with
  | none => resolver
  | some uid => resolver.indexUid source.1 uid

def preload (resolver : GodotResolver) (sources : List (String × GodotFacts)) : GodotResolver :=
  sources.foldl addSource resolver

/-! ## Resolution -/

def target (languages : GodotLanguages) (target resolver : String) (nodes : List String) :
    ImportResolution :=
  if target ∈ nodes then .resolved target resolver
  else if languages.isOutside target then .nonGraph
  else .unresolved

def uniqueTarget (languages : GodotLanguages) (targets : List String) (resolver : String)
    (nodes : List String) : ImportResolution :=
  match targets with
  | [only] => target languages only resolver nodes
  | _ => .unresolved

/-- The UID of a reference: its own one, or a path that is one. -/
def uidOf (path uid : Option String) : Option String :=
  uid.or (path.filter fun path => hasPrefix path "uid://")

/-- The end of `resolve_resource`, when no UID is known. -/
def resolvePath (resolver : GodotResolver) (languages : GodotLanguages) (importer : String)
    (path : Option String) (nodes : List String) : ImportResolution :=
  match path.filter fun path => !hasPrefix path "uid://" with
  | none => .unresolved
  | some path =>
    let project := resolver.project importer
    let candidate :=
      match Godot.stripPrefix path "res://" with
      | some path => project.bind fun root => safePath root path
      | none => safePath (pathParent importer) path
    match candidate with
    | none => .unresolved
    | some found =>
      if project ≠ resolver.project found then .unresolved
      else target languages found "godot-resource" nodes

/-- The files that a project has under the UID of a reference. -/
def uidTargets (resolver : GodotResolver) (importer : String) (path uid : Option String) :
    Option (List String) :=
  (uidOf path uid).bind fun uid =>
    (resolver.project importer).bind fun project => KeyedList.get? (project, uid) resolver.uids

def resolveResource (resolver : GodotResolver) (languages : GodotLanguages) (importer : String)
    (path uid : Option String) (nodes : List String) : ImportResolution :=
  match resolver.uidTargets importer path uid with
  | some targets => uniqueTarget languages targets "godot-uid" nodes
  | none => resolver.resolvePath languages importer path nodes

def resolve (resolver : GodotResolver) (languages : GodotLanguages) (importer : String)
    (reference : GodotReference) (nodes : List String) : ImportResolution :=
  match reference with
  | .dynamic => .unresolved
  | .name name =>
    match resolver.project importer with
    | none => .external
    | some project =>
      match KeyedList.get? (project, name) resolver.names with
      | none => .external
      | some targets =>
        if targets = [importer] then .sameFile
        else uniqueTarget languages targets "godot-global" nodes
  | .resource path uid => resolver.resolveResource languages importer path uid nodes

end GodotResolver

end Reposcout.Graph
