import Reposcout.Framework.PathWalk
import Reposcout.Graph.RustModules
import Reposcout.Model.Text

/-!
# Relative imports

An import that is spelled as a path is joined to the directory of its importer and normalised as
text.  The file it names is found among the files of the graph by the rules of its language.

Imports that are not relative go through the configuration files of a repository; what a resolver
makes of them is a function here.
-/

namespace Reposcout.Graph

open KeyedList

/-! ## Texts of paths -/

def goUp (dir : String) (levels : ℕ) : String :=
  if levels = 0 then dir
  else
    let parts := (splitSlash dir).filter (· ≠ "")
    if parts.length ≤ levels then "" else "/".intercalate (parts.take (parts.length - levels))

def extension (path : String) : Option String :=
  (fileName path).bind fun name =>
    let parts := (name.toList.splitOn '.').map String.ofList
    if ".".intercalate parts.dropLast = "" then none else parts.getLast?

def hasPrefix (text start : String) : Bool := start.toList.isPrefixOf text.toList

def stripSuffix (text ending : String) : Option String :=
  if ending.toList.isSuffixOf text.toList then
    some (String.ofList (text.toList.take (text.toList.length - ending.toList.length)))
  else none

/-! ## The imports of a file -/

inductive StaticInclude where
  | literal (path : String)
  | directoryRelative (parents : ℕ) (path : String)
  deriving DecidableEq

inductive RustImport where
  | module (name : String) (path : Option String) (inlineModules : List String)
  | use (path : String) (inlineModules : List String)
  deriving DecidableEq

/-- An `ImportSpecifier` of a kind that can be relative. -/
inductive ImportSpecifier where
  | module (specifier : String)
  | phpInclude (target : StaticInclude)
  | rust (target : RustImport)
  | goPackage (package : String)
  | pythonFrom (module : String) (names : List String)

/-- The languages with such imports. -/
inductive FirstClass where
  | javaScript
  | typeScript
  | tsx
  | python
  | php
  | rust
  | go
  deriving DecidableEq

/-! ## JavaScript -/

def jsExtensions : List String := [".ts", ".tsx", ".mts", ".cts", ".js", ".jsx", ".mjs", ".cjs"]

/-- The extensions of sources that stand behind an extension of the runtime. -/
def runtimeExtensions : List (String × List String) :=
  [(".js", [".ts", ".tsx", ".d.ts", ".js", ".jsx"]),
    (".jsx", [".tsx", ".d.ts", ".jsx"]),
    (".mjs", [".mts", ".d.mts", ".mjs"]),
    (".cjs", [".cts", ".d.cts", ".cjs"])]

/-- The files that `try_resolve_js` tries, in this order. -/
def jsCandidates (base : String) : List String :=
  base ::
    match runtimeExtensions.findSome? fun rule =>
      (stripSuffix base rule.1).map fun stem => rule.2.map (stem ++ ·) with
    | some substitutions => substitutions
    | none => jsExtensions.map (base ++ ·) ++ jsExtensions.map (base ++ "/index" ++ ·)

def tryResolveJs (base : String) (nodes : List String) : Option String :=
  (jsCandidates base).find? (· ∈ nodes)

def isJsNonGraphSpecifier (spec : String) : Bool :=
  let path := ((spec.toList.splitOnP fun c => c = '?' || c = '#').head?).getD spec.toList
  match extension (String.ofList path) with
  | none => false
  | some extension =>
    !(["ts", "tsx", "mts", "cts", "js", "jsx", "mjs", "cjs"].any (eqIgnoreAsciiCase extension))

def resolveRelativeImport (importer specifier : String) (nodes : List String) :
    ImportResolution :=
  let parent := pathParent importer
  let joined := if parent = "" then specifier else parent ++ "/" ++ specifier
  match tryResolveJs (normalizePath joined) nodes with
  | none => .unresolved
  | some target => .resolved target "relative"

structure JsResolver where
  /-- What follows for a specifier that is not relative. -/
  resolveOther : String → String → ImportResolution

/-- Whether a specifier starts with `./` or `../`. -/
def isDotSpecifier (spec : String) : Bool := hasPrefix spec "./" || hasPrefix spec "../"

def JsResolver.resolve (resolver : JsResolver) (importerRel spec : String) (nodes : List String) :
    ImportResolution :=
  if isJsNonGraphSpecifier spec then .nonGraph
  else if isDotSpecifier spec then resolveRelativeImport importerRel spec nodes
  else resolver.resolveOther importerRel spec

/-! ## Python -/

/-- The number of leading dots of a specifier. -/
def pythonLevel (spec : String) : ℕ := (spec.toList.takeWhile (· = '.')).length

/-- The names after the leading dots of a specifier. -/
def pythonRemainder (spec : String) : List String :=
  (((spec.toList.drop (pythonLevel spec)).splitOn '.').map String.ofList).filter (· ≠ "")

def pythonRelativeBase (importerRel spec : String) : String :=
  let remainder := pythonRemainder spec
  let startDir := goUp (pathParent importerRel) (pythonLevel spec - 1)
  if startDir = "" then "/".intercalate remainder
  else if remainder = [] then startDir
  else startDir ++ "/" ++ "/".intercalate remainder

/-- The files of a module, in the order in which they are tried. -/
def pythonCandidates (base : String) : List String := [base ++ ".py", base ++ "/__init__.py"]

def packageFile (base : String) : String :=
  if base = "" then "__init__.py" else base ++ "/__init__.py"

/-- `spec.chars().all(|c| c == '.')`. -/
def isAllDots (spec : String) : Bool := spec.toList.all (· = '.')

/-- The files that `resolve_py` tries, in this order. -/
def relativeCandidates (spec base : String) : List String :=
  if isAllDots spec then [packageFile base] else pythonCandidates base

def resolvePy (importerRel spec : String) (nodes : List String) : Option String :=
  if hasPrefix spec "." then
    (relativeCandidates spec (pythonRelativeBase importerRel spec)).find? (· ∈ nodes)
  else none

structure PythonResolver where
  packageDirectories : List String
  /-- What follows for a specifier that is not relative. -/
  resolveOther : String → String → ImportResolution

namespace PythonResolver

/-- The package directories of `discover`: every directory with a Python file below it. -/
def discoverDirectories (pythonFiles : List String) : List String :=
  pythonFiles.flatMap fun path =>
    let parts := splitSlash path
    (List.range (parts.length - 1)).map fun index => "/".intercalate (parts.take (index + 1))

variable (resolver : PythonResolver)

def resolve (importerRel spec : String) (nodes : List String) : ImportResolution :=
  if hasPrefix spec "." then
    match resolvePy importerRel spec nodes with
    | some target => .resolved target "python-relative"
    | none =>
      if pythonRelativeBase importerRel spec ∈ resolver.packageDirectories then .nonGraph
      else .unresolved
  else resolver.resolveOther importerRel spec

/-- The submodules beside the file of a package, one for each name that has one. -/
def submodules (package : String) (names nodes : List String) : List String :=
  names.filterMap fun name =>
    (pythonCandidates (joinGraphPath package name)).find? (· ∈ nodes)

def resolveFrom (importerRel module : String) (names nodes : List String) :
    List ImportResolution :=
  match resolver.resolve importerRel module nodes with
  | .nonGraph =>
    if names = [] then [.nonGraph]
    else names.map fun name => resolver.resolve importerRel (module ++ "." ++ name) nodes
  | .resolved target name =>
    .resolved target name ::
      ((stripSuffix target "/__init__.py").elim [] fun package =>
        (submodules package names nodes).map (.resolved · name))
  | resolution => [resolution]

end PythonResolver

/-! ## Rust -/

namespace RustResolver

variable (resolver : RustResolver)

def resolveExactModule (sourceRoot : String) (module : List String) (importerRel : String) :
    Option String :=
  (get? (moduleKey sourceRoot module) resolver.modules).bind fun targets =>
    targets.find? (· ≠ importerRel)

/-- `RustResolver::resolve`. -/
def resolveImport (importerRel : String) (target : RustImport) (nodes : List String) :
    ImportResolution :=
  match get? importerRel resolver.files with
  | none => .unresolved
  | some file =>
    match target with
    | .module _ (some path) _ =>
      let target := normalizePath (joinGraphPath (pathParent importerRel) path)
      if target ∈ nodes then .resolved target "rust-path" else .unresolved
    | .module name none inlineModules =>
      match resolver.resolveExactModule file.sourceRoot (file.module ++ inlineModules ++ [name])
        importerRel with
      | none => .unresolved
      | some target => .resolved target "rust-mod"
    | .use path inlineModules => resolver.resolveUse importerRel file path inlineModules

end RustResolver

/-! ## Go -/

def goRepresentativeRank (path directory : String) : Bool × Bool × Bool :=
  let name := (fileName path).getD ""
  let directoryName := (fileName directory).getD ""
  ((stripSuffix name "_test.go").isSome, name != directoryName ++ ".go", name != "doc.go")

/-- The file that stands for the package of a directory. -/
def goRepresentative (directory : String) (paths : List String) : Option String :=
  (sortBy (fun left right =>
    let leftRank := goRepresentativeRank left directory
    let rightRank := goRepresentativeRank right directory
    (compare leftRank.1 rightRank.1).then ((compare leftRank.2.1 rightRank.2.1).then
      ((compare leftRank.2.2 rightRank.2.2).then (compare left right)))) paths).head?

structure GoResolver where
  packages : List (String × String)
  /-- What follows for a package that is not relative. -/
  resolveOther : String → ImportResolution

namespace GoResolver

/-- The packages of `discover`: the representative of each directory with a Go file. -/
def discoverPackages (goFiles : List String) : List (String × String) :=
  (groupBy pathParent (fun path => [path]) goFiles).filterMap fun entry =>
    (goRepresentative entry.1 entry.2).map (entry.1, ·)

def resolve (resolver : GoResolver) (importerRel package : String) : ImportResolution :=
  if isDotSpecifier package then
    let directory := normalizePath (joinGraphPath (pathParent importerRel) package)
    match get? directory resolver.packages with
    | none => .unresolved
    | some target => .resolved target "go-relative"
  else resolver.resolveOther package

end GoResolver

/-! ## PHP -/

/-- The files that `try_resolve_php` tries for a normalised path, in this order. -/
def phpCandidates (base : String) : List String :=
  base :: if extension base = none then [base ++ ".php", base ++ "/index.php"] else []

def tryResolvePhp (base : String) (nodes : List String) : Option String :=
  (phpCandidates (normalizePath base)).find? (· ∈ nodes)

def isComposerAutoloader (path : String) : Bool :=
  let normalized :=
    (path.toList.map fun c => if c = '\\' then '/' else c).dropWhile fun c => c = '.' || c = '/'
  normalized = "vendor/autoload.php".toList ||
    "/vendor/autoload.php".toList.isSuffixOf normalized

def StaticInclude.path : StaticInclude → String
  | literal path => path
  | directoryRelative _ path => path

/-- The paths that `resolve_include` looks at, absent for an absolute path. -/
def includeBases (importerRel : String) : StaticInclude → Option (List String)
  | .literal path =>
    if hasPrefix path "/" then none
    else some [joinGraphPath (pathParent importerRel) path, normalizePath path]
  | .directoryRelative parents path =>
    some [joinGraphPath (goUp (pathParent importerRel) parents) path]

def resolveInclude (importerRel : String) (target : StaticInclude) (nodes : List String) :
    ImportResolution :=
  if isComposerAutoloader target.path then .external
  else
    match includeBases importerRel target with
    | none => .external
    | some bases =>
      let candidates := bases.filterMap (tryResolvePhp · nodes)
      match (sortBy compare candidates).eraseReps with
      | [target] => .resolved target "php-include"
      | _ => .unresolved

/-! ## All languages -/

structure Resolvers where
  javascript : JsResolver
  python : PythonResolver
  rust : RustResolver
  go : GoResolver

def Resolvers.discover (pythonFiles rustFiles goFiles : List String) (packages : List RustPackage)
    (javascript : JsResolver) (python : String → String → ImportResolution)
    (go : String → ImportResolution) : Resolvers where
  javascript := javascript
  python := ⟨PythonResolver.discoverDirectories pythonFiles, python⟩
  rust := RustResolver.discover rustFiles packages
  go := ⟨GoResolver.discoverPackages goFiles, go⟩

def Resolvers.resolveImport (resolvers : Resolvers) (nodes : List String) (language : FirstClass)
    (importer : String) : ImportSpecifier → List ImportResolution
  | .pythonFrom module names => resolvers.python.resolveFrom importer module names nodes
  | .module specifier =>
    if language = .python then [resolvers.python.resolve importer specifier nodes]
    else [resolvers.javascript.resolve importer specifier nodes]
  | .phpInclude target => [resolveInclude importer target nodes]
  | .rust target => [resolvers.rust.resolveImport importer target nodes]
  | .goPackage package => [resolvers.go.resolve importer package]

end Reposcout.Graph
