import Reposcout.Framework.JsonText
import Reposcout.Framework.Worklist
import Reposcout.Graph.Imports

/-!
# Module resolution in JavaScript and TypeScript

Imports that are not relative go through the `tsconfig.json`, `jsconfig.json` and `package.json`
files of a repository.  The configurations are loaded with the files that they extend and refer
to, and the settings of one directory are merged.

`serde_json::from_str` is a parameter.  An object is kept as it is written; what is read of it is
the map of its keys, where a later member replaces an earlier one.
-/

/-!
## Configurations with comments

`tsconfig.json` files hold comments and trailing commas.  Two passes over their bytes put spaces
in place of both before the text is parsed.
-/

namespace Reposcout.Graph.Js

open JsonText

def asBytes (content : String) : List UInt8 := content.toUTF8.data.toList

/-- `in_string` and `escaped`. -/
inductive Quoting
  | outside
  | inside (escaped : Bool)
  deriving DecidableEq

/-- The state behind a byte that is kept. -/
def Quoting.next : Quoting → UInt8 → Quoting
  | outside, byte => if byte = quote then inside false else outside
  | inside true, _ => inside false
  | inside false, byte =>
    if byte = backslash then inside true else if byte = quote then outside else inside false

/-- Where the first pass stands: in its outer loop or in the loop of a comment. -/
inductive Place
  | text (quoting : Quoting)
  | line
  | block

/-- What the loop of a block comment puts in place of a byte. -/
def blankByte (byte : UInt8) : UInt8 := if byte = newline then newline else space

/-- `strip_jsonc_comments` from a place on. -/
def stripCommentsFrom : Place → List UInt8 → List UInt8
  | _, [] => []
  | .text quoting, byte :: rest =>
    if quoting = .outside ∧ byte = slash then
      match rest with
      | [] => [byte]
      | next :: behind =>
        if next = slash then space :: space :: stripCommentsFrom .line behind
        else if next = star then space :: space :: stripCommentsFrom .block behind
        else byte :: stripCommentsFrom (.text .outside) (next :: behind)
    else byte :: stripCommentsFrom (.text (quoting.next byte)) rest
  | .line, byte :: rest =>
    -- the end of the line belongs to the outer loop, which keeps it
    if byte = newline then byte :: stripCommentsFrom (.text .outside) rest
    else space :: stripCommentsFrom .line rest
  | .block, byte :: rest =>
    match rest with
    | [] => [blankByte byte]
    | next :: behind =>
      if byte = star ∧ next = slash then
        space :: space :: stripCommentsFrom (.text .outside) behind
      else blankByte byte :: stripCommentsFrom .block (next :: behind)

def stripJsoncComments (content : List UInt8) : List UInt8 :=
  stripCommentsFrom (.text .outside) content

def isAsciiWhitespace (byte : UInt8) : Bool := byte ∈ [32, 9, 10, 12, 13]

/-- Whether the next byte that is not white closes an array or an object. -/
def closesNext (rest : List UInt8) : Bool :=
  match rest.find? (!isAsciiWhitespace ·) with
  | some byte => byte ∈ [125, 93]
  | none => false

/-- `strip_trailing_commas` from a state on. -/
def stripCommasFrom : Quoting → List UInt8 → List UInt8
  | _, [] => []
  | quoting, byte :: rest =>
    if quoting = .outside ∧ byte = commaByte ∧ closesNext rest then
      space :: stripCommasFrom quoting rest
    else byte :: stripCommasFrom (quoting.next byte) rest

def stripTrailingCommas (content : List UInt8) : List UInt8 := stripCommasFrom .outside content

/-- The bytes that `sanitize_jsonc` decodes. -/
def sanitizedBytes (content : String) : List UInt8 :=
  stripTrailingCommas (stripJsoncComments (asBytes content))

def sanitizeJsonc (content : String) : String :=
  (String.fromUTF8? (sanitizedBytes content).toByteArray).getD ""

open KeyedList

/-! ## Values -/

/-- `serde_json::Value`. -/
inductive Json where
  | null
  | bool (value : Bool)
  | number (text : String)
  | string (value : String)
  | array (values : List Json)
  | object (members : List (String × Json))

namespace Json

def asStr : Json → Option String
  | string value => some value
  | _ => none

def asArray : Json → Option (List Json)
  | array values => some values
  | _ => none

/-- The members of an object by their keys, in the order of the keys. -/
def entries (members : List (String × Json)) : List (String × Json) :=
  sortBy (compareOn Prod.fst)
    (members.foldl (fun map entry => KeyedList.alter entry.1 (fun _ => entry.2) map) [])

def asObject : Json → Option (List (String × Json))
  | object members => some (entries members)
  | _ => none

def get (value : Json) (key : String) : Option Json :=
  value.asObject.bind (get? key)

end Json

/-! ## Patterns -/

/-- The text before the first `*` of a pattern. -/
def patternStart (pattern : String) : List Char := pattern.toList.takeWhile (· ≠ '*')

/-- The text behind the first `*` of a pattern. -/
def patternEnd (pattern : String) : List Char := (pattern.toList.dropWhile (· ≠ '*')).tail

def hasStar (pattern : String) : Bool := '*' ∈ pattern.toList

/-- `match_path_pattern`: what a match captures. -/
def matchPathPattern (pattern spec : String) : Option (Option String) :=
  if hasStar pattern then
    let start := patternStart pattern
    let stop := patternEnd pattern
    let text := spec.toList
    if start.isPrefixOf text && stop.isSuffixOf text && start.length + stop.length ≤ text.length
    then
      some (some (String.ofList
        ((text.take (text.length - stop.length)).drop start.length)))
    else none
  else if pattern = spec then some none
  else none

def applyPathCapture (target : String) : Option String → String
  | none => target
  | some capture =>
    if hasStar target then
      String.ofList (patternStart target ++ capture.toList ++ patternEnd target)
    else target

/-! ## Settings -/

structure PathMapping where
  pattern : String
  targets : List String
  base : String
  deriving DecidableEq

structure TsConfig where
  directory : String
  baseUrl : Option String
  paths : List PathMapping
  deriving DecidableEq

structure PackageMapping where
  pattern : String
  targets : List String
  deriving DecidableEq

structure PackageConfig where
  directory : String
  name : Option String
  hasExports : Bool
  hasImports : Bool
  exports : List PackageMapping
  imports : List PackageMapping
  entrypoints : List String

/-- The first target of a mapping that is a file of the graph. -/
def tsTarget (base : String) (targets : List String) (capture : Option String)
    (nodes : List String) : ImportResolution :=
  match targets.findSome? fun target =>
      tryResolveJs (joinGraphPath base (applyPathCapture target capture)) nodes with
  | some target => .resolved target "tsconfig-paths"
  | none => .unresolved

def resolveTsPaths (paths : List PathMapping) (specifier : String) (nodes : List String) :
    Option ImportResolution :=
  match paths with
  | [] => none
  | mapping :: rest =>
    match matchPathPattern mapping.pattern specifier with
    | none => resolveTsPaths rest specifier nodes
    | some capture => some (tsTarget mapping.base mapping.targets capture nodes)

/-- The loop over the targets of a package mapping. -/
def packageTarget (directory : String) (capture : Option String) (nodes : List String)
    (resolver : String) : List String → ImportResolution
  | [] => .unresolved
  | target :: rest =>
    if !hasPrefix target "./" then .external
    else
      match tryResolveJs (joinGraphPath directory (applyPathCapture target capture)) nodes with
      | some target => .resolved target resolver
      | none => packageTarget directory capture nodes resolver rest

def resolvePackageMappings (package : PackageConfig) (mappings : List PackageMapping)
    (requested : String) (nodes : List String) (resolver : String) : Option ImportResolution :=
  match mappings with
  | [] => none
  | mapping :: rest =>
    match matchPathPattern mapping.pattern requested with
    | none => resolvePackageMappings package rest requested nodes resolver
    | some capture =>
      some (packageTarget package.directory capture nodes resolver mapping.targets)

/-! ## Packages -/

mutual

def packageTargets : Json → List String
  | .string target => [target]
  | .array values => arrayTargets values
  | .object members =>
    let targets := memberTargets members
    ["source", "import", "default", "node", "require", "types"].flatMap fun condition =>
      -- the last member of a key is the one of the map
      ((targets.reverse.find? fun entry => entry.1 = condition).map Prod.snd).getD []
  | _ => []

def arrayTargets : List Json → List String
  | [] => []
  | value :: rest => packageTargets value ++ arrayTargets rest

def memberTargets : List (String × Json) → List (String × List String)
  | [] => []
  | (key, value) :: rest => (key, packageTargets value) :: memberTargets rest

end

def packageExports (value : Json) : List PackageMapping :=
  match value.asObject with
  | some exports =>
    if exports.any fun entry => hasPrefix entry.1 "." then
      (exports.filter fun entry => hasPrefix entry.1 ".").map fun entry =>
        ⟨entry.1, packageTargets entry.2⟩
    else [⟨".", packageTargets value⟩]
  | none => [⟨".", packageTargets value⟩]

/-- The order of the keys of a package map: exact ones first, then longer ones, then by name. -/
def packageOrder (left right : PackageMapping) : Ordering :=
  (compare (hasStar left.pattern) (hasStar right.pattern)).then
    ((compare right.pattern.utf8ByteSize left.pattern.utf8ByteSize).then
      (compare left.pattern right.pattern))

def distinctTargets (mapping : PackageMapping) : PackageMapping :=
  { mapping with
    targets := mapping.targets.foldl
      (fun targets target => if target ∈ targets then targets else targets ++ [target]) [] }

def sortedPackageMappings (mappings : List PackageMapping) : List PackageMapping :=
  sortBy packageOrder (mappings.map distinctTargets)

/-- What `read_package_config` reads of a value. -/
def packageConfig (directory : String) (value : Json) : PackageConfig where
  directory
  name := (value.get "name").bind Json.asStr
  hasExports := (value.get "exports").isSome
  hasImports := (value.get "imports").isSome
  exports := sortedPackageMappings (((value.get "exports").map packageExports).getD [])
  imports :=
    sortedPackageMappings
      (((((value.get "imports").bind Json.asObject).getD []).filter fun entry =>
        hasPrefix entry.1 "#").map fun entry => ⟨entry.1, packageTargets entry.2⟩)
  entrypoints :=
    ["source", "module", "main", "types", "typings"].filterMap fun field =>
      (value.get field).bind Json.asStr

/-! ## Configurations -/

/-- The order of the keys of a `paths` table. -/
def pathOrder (left right : PathMapping) : Ordering := compare left.pattern right.pattern

def sortedPaths (paths : List PathMapping) : List PathMapping := sortBy pathOrder paths

/-- The table of `paths`. -/
def pathMappings (base : String) (paths : List (String × Json)) : List PathMapping :=
  paths.filterMap fun entry =>
    entry.2.asArray.bind fun targets =>
      let targets := targets.filterMap Json.asStr
      if targets ≠ [] then some ⟨entry.1, targets, base⟩ else none

def tsConfig (directory : String) (value : Json) : TsConfig :=
  let compiler := (((value.get "compilerOptions").bind Json.asObject).getD [])
  let baseUrl := ((get? "baseUrl" compiler).bind Json.asStr).map (joinGraphPath directory)
  let paths := ((get? "paths" compiler).bind Json.asObject).getD []
  { directory
    baseUrl
    paths := sortedPaths (pathMappings (baseUrl.getD directory) paths) }

/-! ## Access -/

/-- `ConfigAccess`: the regular files below the root, or those of a snapshot. -/
structure ConfigAccess where
  snapshot : Bool
  /-- Each file with what a read of it gives; a limit or a deadline may refuse the content. -/
  files : List (String × Option String)
  directories : List String

namespace ConfigAccess

/-- `exists`. -/
def holds (access : ConfigAccess) (relative : String) : Bool :=
  relative ∈ KeyedList.keys access.files

def read (access : ConfigAccess) (relative : String) : Option String :=
  (get? relative access.files).join

end ConfigAccess

/-- The start of a reversed text without its leading `.json`s. -/
def trimJson : List Char → List Char
  | 'n' :: 'o' :: 's' :: 'j' :: '.' :: rest => trimJson rest
  | text => text

/-- `trim_end_matches(".json")`. -/
def trimEndJson (text : String) : String := String.ofList (trimJson text.toList.reverse).reverse

def resolveConfigReference (access : ConfigAccess) (directory reference : String) :
    Option String :=
  if !hasPrefix reference "." then none
  else
    let candidate := joinGraphPath directory reference
    if access.snapshot then
      if access.holds candidate then some candidate
      else if extension candidate = none then
        let named := candidate ++ ".json"
        let inside := joinGraphPath (trimEndJson named) "tsconfig.json"
        if access.holds named then some named
        else if access.holds inside then some inside
        else none
      else none
    else
      let candidate :=
        if candidate ∈ access.directories then joinGraphPath candidate "tsconfig.json"
        else if !access.holds candidate && extension candidate = none then candidate ++ ".json"
        else candidate
      if access.holds candidate then some candidate else none

/-! ## Loading -/

/-- The members of two sets, in order and each once. -/
def union (left right : List String) : List String :=
  (sortBy compare (left ++ right)).eraseReps

structure ParsedTsConfig where
  config : TsConfig
  related : List String
  deriving DecidableEq

/-- The references of a configuration that name a file. -/
def references (access : ConfigAccess) (directory : String) (value : Json) : List String :=
  (((value.get "references").bind Json.asArray).getD []).filterMap fun reference =>
    ((reference.get "path").bind Json.asStr).bind (resolveConfigReference access directory)

def extended (access : ConfigAccess) (directory : String) (value : Json) : Option String :=
  ((value.get "extends").bind Json.asStr).bind (resolveConfigReference access directory)

/-- What is made of a value by `read_ts_config`. -/
def parsedTsConfig (access : ConfigAccess) (relative : String) (value : Json) : ParsedTsConfig :=
  let directory := pathParent relative
  { config := tsConfig directory value
    related := union (references access directory value)
      (extended access directory value).toList }

/-- `read_ts_config`: no value stands for a text that does not parse. -/
def readTsConfig (access : ConfigAccess) (parse : String → Option Json) (relative : String) :
    Option (Option ParsedTsConfig) :=
  (access.read relative).map fun content =>
    (parse (sanitizeJsonc content)).map (parsedTsConfig access relative)

/-- The configurations of a `JsResolver`. -/
structure Resolver where
  configs : List (String × TsConfig)
  configFiles : List String
  configErrors : List String
  deriving DecidableEq

/-- Mappings of one pattern and one base. -/
def SameMapping (left right : PathMapping) : Prop :=
  left.pattern = right.pattern ∧ left.base = right.base

instance (left right : PathMapping) : Decidable (SameMapping left right) :=
  inferInstanceAs (Decidable (_ ∧ _))

/-- The settings of a directory with those of one more file. -/
def mergedTsConfig (existing config : TsConfig) : TsConfig :=
  { existing with
    baseUrl := if config.baseUrl.isSome then config.baseUrl else existing.baseUrl
    paths := (sortedPaths (existing.paths ++ config.paths)).destutter
      fun left right => ¬ SameMapping left right }

/-- Whether a configuration has a base or paths. -/
def TsConfig.hasSettings (config : TsConfig) : Bool :=
  config.baseUrl.isSome || !config.paths.isEmpty

namespace Resolver

def mergeTsConfig (resolver : Resolver) (relative : String) (config : TsConfig) : Resolver :=
  { resolver with
    configFiles :=
      if config.hasSettings then resolver.configFiles ++ [relative] else resolver.configFiles
    configs := KeyedList.alter config.directory
      (fun existing => (existing.map (mergedTsConfig · config)).getD config) resolver.configs }

def recordConfigError (resolver : Resolver) (path : String) : Resolver :=
  { resolver with configErrors := resolver.configErrors ++ [path] }

/-- What the loop of `load_ts_configs` makes of a file that was read. -/
def record (resolver : Resolver) (relative : String) : Option (Option ParsedTsConfig) → Resolver
  | some (some parsed) => resolver.mergeTsConfig relative parsed.config
  | some none => resolver.recordConfigError relative
  | none => resolver

end Resolver

/-- What the loop of `load_ts_configs` adds to its candidates. -/
def relatedOf : Option (Option ParsedTsConfig) → List String
  | some (some parsed) => parsed.related
  | _ => []

/-- The loop of `load_ts_configs`. -/
structure Load where
  candidates : List String
  seen : List String
  resolver : Resolver

/-- One pass of the loop, where the candidates are in order. -/
def loadStep (read : String → Option (Option ParsedTsConfig)) (load : Load) : Load :=
  match load.candidates with
  | [] => load
  | relative :: rest =>
    if relative ∈ load.seen then { load with candidates := rest }
    else
      { candidates := union rest (relatedOf (read relative))
        seen := load.seen ++ [relative]
        resolver := load.resolver.record relative (read relative) }

def Load.start (candidates : List String) : Load := ⟨candidates, [], ⟨[], [], []⟩⟩

/-! ## Finding -/

/-- A directory and those above it, where `count` bounds the way up. -/
def upward : ℕ → String → List String
  | 0, directory => [directory]
  | count + 1, directory =>
    directory :: if directory = "" then [] else upward count (pathParent directory)

/-- The directory of a file and those above it. -/
def directoriesOf (path : String) : List String :=
  upward (pathParent path).length (pathParent path)

/-- The configurations of `collect_resolver_candidates`, for the JavaScript files of a graph. -/
def configCandidates (access : ConfigAccess) (files : List String) : List String :=
  union [] (files.flatMap fun path =>
    (directoriesOf path).flatMap fun directory =>
      (["tsconfig.json", "jsconfig.json"].map (joinGraphPath directory)).filter access.holds)

/-- The resolution by the settings of one directory. -/
def TsConfig.answer (config : TsConfig) (specifier : String) (nodes : List String) :
    Option ImportResolution :=
  match resolveTsPaths config.paths specifier nodes with
  | some resolution => some resolution
  | none =>
    config.baseUrl.bind fun base =>
      (tryResolveJs (joinGraphPath base specifier) nodes).map (.resolved · "tsconfig-base-url")

def Resolver.resolveTsConfig (resolver : Resolver) (importer specifier : String)
    (nodes : List String) : Option ImportResolution :=
  (directoriesOf importer).findSome? fun directory =>
    (get? directory resolver.configs).bind fun config => config.answer specifier nodes

end Reposcout.Graph.Js
