import Reposcout.Graph.Calls.Extract

/-!
# Calls and references in Rust

What the walk over the syntax tree of a Rust file pushes: an import for each `use` path and a
relation for each path expression, both with the inline modules around them.  A path with a
capitalised qualifier belongs to a type and counts as a receiver.
-/

namespace Reposcout.Graph.Calls

/-- The node of an expression, as far as its form depends on it. -/
inductive RustNode where
  | identifier (text : String)
  | scopedIdentifier (text : String)
  | fieldExpression (object member : String)
  | other (kind : String)
  deriving DecidableEq

/-- `expression_form`. Which characters are upper case is `char::is_uppercase`. -/
def expressionForm (isUppercase : Char → Bool) (node : RustNode) (inlineModules : List String) :
    ObservedForm :=
  match node with
  | .identifier text => .bare text
  | .scopedIdentifier text =>
    match pathSegments text with
    | [] => .dynamic "invalid-qualified-path"
    | [first] => .bare first
    | first :: second :: rest =>
      let member := (second :: rest).getLastD first
      let qualifier := "::".intercalate (first :: second :: rest).dropLast
      if qualifier = "Self" ∨
          (splitColons qualifier.toList).any (fun segment => segment.head?.any isUppercase) ∨
          qualifier.toList.head? = some '<' then
        .receiver qualifier member
      else .qualified qualifier member inlineModules
  | .fieldExpression object member => .receiver object member
  | .other kind => .dynamic kind

/-- A path of a `use` declaration, with the groups around it joined, and the name it binds. -/
structure RustUse where
  path : String
  localName : String
  span : SourceSpan
  scopeSpan : SourceSpan
  inlineModules : List String

/-- The part of a path after its last separator: `path.rsplit("::").next()`. -/
def lastPart (path : String) : String :=
  String.ofList ((splitColons path.toList.reverse).headD []).reverse

/-- `push_use_binding`. -/
def useBinding (declared : RustUse) : CallImportBinding :=
  { moduleSpecifier := declared.path
    importedName := lastPart declared.path
    localName := declared.localName
    kind := .rustPath
    span := declared.span
    scopeSpan := declared.scopeSpan
    inlineModules := declared.inlineModules }

structure RustExpression where
  kind : CallReferenceKind
  site : SourceSpan
  node : RustNode
  inlineModules : List String

/-- What the walk finds in a Rust file. Each definition is given with the inline modules around it,
which the facts do not record. -/
structure RustSource where
  path : String
  sourceHash : String
  rootSpan : SourceSpan
  fileSpan : SourceSpan
  rootHasError : Bool
  definitionStatus : DefinitionStatus
  definitions : List (DefinitionFact × List String)
  uses : List RustUse
  expressions : List RustExpression
  shadows : List ShadowBinding
  declarationScopes : List (DeclarationKey × SourceSpan)
  hoistedDeclarations : List DeclarationKey
  nodesTruncated : Bool

namespace RustSource

variable (source : RustSource)

/-- The state before any import or relation is pushed. -/
def initialState : State :=
  { language := "Rust"
    path := source.path
    sourceHash := source.sourceHash
    rootSpan := source.rootSpan
    fileSpan := source.fileSpan
    rootHasError := source.rootHasError
    definitions := ⟨source.definitionStatus, source.definitions.map Prod.fst⟩
    imports := []
    observed := []
    shadows := source.shadows
    declarationScopes := source.declarationScopes
    hoistedDeclarations := source.hoistedDeclarations
    directExports := []
    exportAliases := []
    overloadedNames := []
    omittedRelations := 0
    nodesTruncated := source.nodesTruncated
    factsTruncated := false }

def observe (isUppercase : Char → Bool) (expression : RustExpression) : ObservedRelation :=
  ⟨expression.kind, expression.site,
    expressionForm isUppercase expression.node expression.inlineModules⟩

/-- The state at the end of the walk. -/
def state (isUppercase : Char → Bool) : State :=
  (source.expressions.map (observe isUppercase)).foldl State.pushRelation
    ((source.uses.map useBinding).foldl State.pushImport source.initialState)

def facts (isUppercase : Char → Bool) : CallReferenceFacts := (source.state isUppercase).finish

end RustSource

end Reposcout.Graph.Calls

/-!
## Resolving the call references of a repository

The imports and qualifying paths of the files ask for modules, the resolvers of the languages
answer, and the answers bind the relations.
-/

namespace Reposcout.Graph.Calls

/-- What the relations and imports of a file ask for. -/
def requestsOf (file : CallReferenceFacts) : List CallModuleRequest :=
  file.imports.map (importRequest file) ++
    file.relations.filterMap fun relation =>
      relation.candidate.qualifier.bind fun qualifier =>
        -- The module of the import is asked for anyway.
        if importsInScope file relation.candidate.root relation.site = [] then
          some (qualifierRequest file relation qualifier)
        else none

/-- The derived order of `CallModuleRequest`. -/
def requestOrder (left right : CallModuleRequest) : Ordering :=
  (((compare left.sourcePath right.sourcePath).then (compare left.language right.language)).then
    (compare left.moduleSpecifier right.moduleSpecifier)).then
    (compare left.inlineModules right.inlineModules)

def moduleRequests (facts : List CallReferenceFacts) : List CallModuleRequest :=
  KeyedList.sortBy requestOrder (facts.flatMap requestsOf).dedup

/-- The answer of the resolver for a language. That for JavaScript is an input. -/
def resolveModule (rust : RustResolver) (javascript : String → String → ImportResolution)
    (request : CallModuleRequest) : ImportResolution :=
  if request.language = "JavaScript" ∨ request.language = "TypeScript" ∨
      request.language = "TSX" then
    javascript request.sourcePath request.moduleSpecifier
  else if request.language = "Rust" then
    rust.resolve request.sourcePath request.moduleSpecifier request.inlineModules
  else .unresolved

def moduleResolution (request : CallModuleRequest) : ImportResolution → CallModuleResolution
  | .resolved target resolver => ⟨request, some target, some resolver, .resolved⟩
  | .sameFile => ⟨request, none, none, .sameFile⟩
  | .external | .nonGraph => ⟨request, none, none, .external⟩
  | .unresolved => ⟨request, none, none, .unresolved⟩

def moduleResolutions (rust : RustResolver) (javascript : String → String → ImportResolution)
    (calls : List CallReferenceFacts) : List CallModuleResolution :=
  (moduleRequests calls).map fun request =>
    moduleResolution request (resolveModule rust javascript request)

/-- `resolve_call_references`, from the resolvers and the facts of the files. -/
def resolveCallReferences (rust : RustResolver)
    (javascript : String → String → ImportResolution) (calls : List CallReferenceFacts) :
    CallReferenceTopology :=
  resolve calls (moduleResolutions rust javascript calls)

end Reposcout.Graph.Calls
