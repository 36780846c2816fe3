import Reposcout.Framework.KeyedList

/-!
# Rust modules

The module of a Rust file follows from its path and from the package it is in.  A `use` path is
searched from the crate root, from the current module or from the root of a workspace crate, and
resolves to the file of its longest prefix that names one.

The files are those that are detected as Rust, and the packages are what the Cargo manifests of the
repository say.
-/

namespace Reposcout.Graph

open KeyedList

/-! ## Paths -/

/-- `text.split('/')`. -/
def splitSlash (text : String) : List String := (text.toList.splitOn '/').map String.ofList

def pathParent (rel : String) : String := "/".intercalate (splitSlash rel).dropLast

def normalizePath (path : String) : String :=
  "/".intercalate ((splitSlash path).foldl
    (fun parts seg =>
      if seg = "" ∨ seg = "." then parts else if seg = ".." then parts.dropLast else parts ++ [seg])
    [])

def joinGraphPath (base path : String) : String :=
  if base = "" ∨ base = "." then normalizePath path else normalizePath (base ++ "/" ++ path)

def pathInScope (path directory : String) : Bool :=
  directory = "" || (directory.toList ++ ['/']).isPrefixOf path.toList

def stripGraphPrefix (path root : String) : Option String :=
  if root = "" then some path
  else if (root.toList ++ ['/']).isPrefixOf path.toList then
    some (String.ofList (path.toList.drop (root.toList.length + 1)))
  else none

/-- `Path::file_stem` of a file name. -/
def fileStem (fileName : String) : Option String :=
  if fileName = "" ∨ fileName = "." ∨ fileName = ".." then none
  else
    let parts := (fileName.toList.splitOn '.').map String.ofList
    let before := ".".intercalate parts.dropLast
    if before = "" then some fileName else some before

def fileName (path : String) : Option String :=
  ((splitSlash path).filter fun part => part ≠ "" ∧ part ≠ ".").getLast?.filter (· ≠ "..")

/-! ## The module of a file -/

structure RustFileModule where
  sourceRoot : String
  module : List String

structure RustCrateTarget where
  sourceRoot : String
  rootFile : String

/-- What the module search reads of a `RustPackage`. -/
structure RustPackage where
  directory : String
  names : List String
  libPath : String

/-- The directory of the sources, below that of the package, and whether each file at its top is a
crate root. -/
def sourceDirectory (parts : List String) : String × Bool :=
  match parts.head? with
  | some "src" => ("src", false)
  | some "tests" => ("tests", true)
  | some "examples" => ("examples", true)
  | some "benches" => ("benches", true)
  | _ =>
    match parts.findIdx? (· = "src") with
    | some index => ("/".intercalate (parts.take (index + 1)), false)
    | none => ("", false)

def rustFileModule (path : String) (packages : List RustPackage) : RustFileModule :=
  let packageDirectory :=
    ((packages.find? fun package => pathInScope path package.directory).map
      RustPackage.directory).getD ""
  let relative := (stripGraphPrefix path packageDirectory).getD path
  let source := sourceDirectory (splitSlash relative)
  let sourceRoot := joinGraphPath packageDirectory source.1
  let parts := splitSlash ((stripGraphPrefix path sourceRoot).getD path)
  let directories := parts.dropLast
  let stem := (parts.getLast?.bind fileStem).getD ""
  ⟨sourceRoot,
    if stem = "mod" then directories
    else if (stem = "lib" ∨ stem = "main" ∨ source.2) ∧ directories = [] then []
    else if stem ≠ "" then directories ++ [stem]
    else directories⟩

def rustScopeRank (directory : String) : ℕ := ((splitSlash directory).filter (· ≠ "")).length

def rustModuleFileRank (path : String) : ℕ :=
  match fileName path with
  | some "lib.rs" => 0
  | some "main.rs" => 1
  | some "mod.rs" => 2
  | _ => 3

/-- The name of a module in the index of the modules: its source root and its joined path. -/
def moduleKey (sourceRoot : String) (module : List String) : String × String :=
  (sourceRoot, "::".intercalate module)

/-! ## The resolver -/

structure RustResolver where
  files : List (String × RustFileModule)
  modules : List ((String × String) × List String)
  crates : List (String × RustCrateTarget)
  ambiguousCrates : List String

namespace RustResolver

/-- The files of one module: the root files first, each once. -/
def orderedTargets (targets : List String) : List String :=
  (sortBy (fun left right =>
    (compare (rustModuleFileRank left) (rustModuleFileRank right)).then (compare left right))
    targets).eraseReps

def fromFiles (rustFiles : List String) (packages : List RustPackage) : RustResolver where
  files := rustFiles.map fun path => (path, rustFileModule path packages)
  modules :=
    (groupBy
      (fun path =>
        moduleKey (rustFileModule path packages).sourceRoot (rustFileModule path packages).module)
      (fun path => [path]) rustFiles).map fun entry => (entry.1, orderedTargets entry.2)
  crates := []
  ambiguousCrates := []

/-- Register a library under a crate name. A name that two libraries have stands for neither. -/
def addCrate (target : RustCrateTarget) (resolver : RustResolver) (name : String) :
    RustResolver :=
  if name ∈ resolver.ambiguousCrates then resolver
  else if (get? name resolver.crates).isSome then
    { resolver with
      crates := resolver.crates.filter fun entry => entry.1 ≠ name
      ambiguousCrates := name :: resolver.ambiguousCrates }
  else { resolver with crates := (name, target) :: resolver.crates }

def discover (rustFiles : List String) (packages : List RustPackage) : RustResolver :=
  let packages := sortBy (fun left right =>
    (compare (rustScopeRank right.directory) (rustScopeRank left.directory)).then
      (compare left.directory right.directory)) packages
  packages.foldl
    (fun resolver package =>
      if package.libPath ∈ rustFiles then
        package.names.foldl (addCrate ⟨pathParent package.libPath, package.libPath⟩) resolver
      else resolver)
    (fromFiles rustFiles packages)

end RustResolver

/-! ## Searching a path -/

inductive ImportResolution where
  | resolved (target resolver : String)
  | sameFile
  | nonGraph
  | unresolved
  | external
  deriving DecidableEq

/-- `text.split("::")`. -/
def splitColons : List Char → List (List Char)
  | ':' :: ':' :: chars => [] :: splitColons chars
  | char :: chars =>
    match splitColons chars with
    | [] => [[char]]
    | segment :: segments => (char :: segment) :: segments
  | [] => [[]]

/-- The non-empty parts of a path: `path.split("::").filter(|segment| !segment.is_empty())`.
Leading separators only add empty parts. -/
def pathSegments (path : String) : List String :=
  ((splitColons path.toList).map String.ofList).filter (· ≠ "")

structure RustUseSearch where
  sourceRoot : String
  module : List String
  fileLocalScope : Bool
  resolver : String
  mustResolve : Bool

structure RustUseCursor where
  sourceRoot : String
  module : List String
  segments : List String
  insideInlineModule : Bool

inductive RustUsePreparation where
  | search (search : RustUseSearch)
  | resolution (resolution : ImportResolution)

namespace RustUseCursor

def new (file : RustFileModule) (inlineModules segments : List String) : RustUseCursor :=
  ⟨file.sourceRoot, file.module ++ inlineModules, segments, !inlineModules.isEmpty⟩

def finish (cursor : RustUseCursor) (path resolver : String) (fileLocalScope : Bool) :
    RustUsePreparation :=
  .search
    { sourceRoot := cursor.sourceRoot
      module := cursor.module ++ cursor.segments
      fileLocalScope := fileLocalScope
      resolver := resolver
      mustResolve := resolver = "rust-workspace" || path.startsWith "crate::" ||
        path.startsWith "self::" || path.startsWith "super::" }

/-- Whether the one remaining segment may name an item of the file itself. -/
def itemOfFile (cursor : RustUseCursor) (file : RustFileModule) : Bool :=
  cursor.insideInlineModule && cursor.segments.length = 1 && file.module.isPrefixOf cursor.module

def prepareCrateUse (cursor : RustUseCursor) (file : RustFileModule) (path : String) :
    RustUsePreparation :=
  let cursor := { cursor with segments := cursor.segments.tail, module := [] }
  cursor.finish path "rust-use" (cursor.itemOfFile file)

/-- The loop of `prepare_super_use`. -/
def popSupers : List String → List String → List String × List String
  | module, [] => (module, [])
  | module, segment :: segments =>
    if segment = "super" then popSupers module.dropLast segments else (module, segment :: segments)

def prepareSuperUse (cursor : RustUseCursor) (file : RustFileModule) (path : String) :
    RustUsePreparation :=
  let popped := popSupers cursor.module cursor.segments
  let cursor := { cursor with segments := popped.2, module := popped.1 }
  cursor.finish path "rust-use" (cursor.itemOfFile file)

def prepareSelfUse (cursor : RustUseCursor) (file : RustFileModule) (path : String) :
    RustUsePreparation :=
  let cursor := { cursor with segments := cursor.segments.tail }
  cursor.finish path "rust-use" (cursor.itemOfFile file)

end RustUseCursor

namespace RustResolver

variable (resolver : RustResolver)

def prepareNamedUse (cursor : RustUseCursor) (file : RustFileModule)
    (importerRel path name : String) :
    RustUsePreparation :=
  if name ∈ resolver.ambiguousCrates then .resolution .unresolved
  else
    match get? name resolver.crates with
    | none => { cursor with module := [] }.finish path "rust-use" false
    | some target =>
      let cursor := { cursor with
        segments := cursor.segments.tail, sourceRoot := target.sourceRoot, module := [] }
      if cursor.segments.isEmpty then
        .resolution
          (if target.rootFile = importerRel then .sameFile
          else .resolved target.rootFile "rust-workspace")
      else
        cursor.finish path "rust-workspace"
          (target.rootFile = importerRel && cursor.itemOfFile file)

def prepareUse (importerRel : String) (file : RustFileModule) (path : String)
    (inlineModules segments : List String) : RustUsePreparation :=
  let cursor := RustUseCursor.new file inlineModules segments
  match segments with
  | [] => .resolution .external
  | first :: _ =>
    if first = "crate" then cursor.prepareCrateUse file path
    else if first = "super" then cursor.prepareSuperUse file path
    else if first = "self" then cursor.prepareSelfUse file path
    else resolver.prepareNamedUse cursor file importerRel path first

/-- The file of a module, the importer itself if it is one of several. -/
def moduleTarget (sourceRoot : String) (module : List String) (importerRel : String) :
    Option String :=
  (get? (moduleKey sourceRoot module) resolver.modules).bind fun targets =>
    (targets.find? (· = importerRel)).or targets.head?

/-- The loop of `resolve_module_prefix`, from a length down. -/
def prefixTarget (sourceRoot : String) (module : List String) (importerRel : String) :
    ℕ → Option String
  | 0 => none
  | length + 1 =>
    match resolver.moduleTarget sourceRoot (module.take (length + 1)) importerRel with
    | some target => some target
    | none => prefixTarget sourceRoot module importerRel length

def resolveModulePrefix (sourceRoot : String) (module : List String) (importerRel : String) :
    Option String :=
  resolver.prefixTarget sourceRoot module importerRel module.length

def finishUseResolution (importerRel : String) (search : RustUseSearch) : ImportResolution :=
  match resolver.resolveModulePrefix search.sourceRoot search.module importerRel with
  | some target =>
    if target = importerRel then .sameFile else .resolved target search.resolver
  | none =>
    if search.fileLocalScope then .sameFile
    else if search.mustResolve then .unresolved
    else .external

def resolveUse (importerRel : String) (file : RustFileModule) (path : String)
    (inlineModules : List String) : ImportResolution :=
  let segments := pathSegments path
  if segments = [] then .external
  else
    match resolver.prepareUse importerRel file path inlineModules segments with
    | .search search => resolver.finishUseResolution importerRel search
    | .resolution resolution => resolution

/-- `resolve`, for a `use` path. -/
def resolve (importerRel path : String) (inlineModules : List String) : ImportResolution :=
  match get? importerRel resolver.files with
  | none => .unresolved
  | some file => resolver.resolveUse importerRel file path inlineModules

end RustResolver

end Reposcout.Graph
