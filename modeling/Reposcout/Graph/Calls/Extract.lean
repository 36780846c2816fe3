import Reposcout.Graph.Calls.Resolve
import Reposcout.Graph.RustModules

/-!
# Extracting call and reference facts

A walk over the syntax tree of a file collects imports, relations, shadowing names and what it
learns about the declarations.  The facts of the file are what is left of this state at the end of
the walk: each relation gets its form, its owner and whether its root is shadowed.

The walk itself reads the syntax tree and is left out, and so are the counters that only reports
read.
-/

namespace Reposcout.Graph.Calls

open KeyedList

def maxDeclarationsPerFile : ℕ := 8192

def maxImportsPerFile : ℕ := 4096

def maxRelationsPerFile : ℕ := 16384

/-! ## What a walk observes -/

inductive ObservedForm where
  | bare (name : String)
  | qualified (qualifier member : String) (inlineModules : List String)
  | objectMember (object member : String) (isOptional : Bool)
  | receiver (object member : String)
  | dynamic (kind : String)
  deriving DecidableEq

structure ObservedRelation where
  kind : CallReferenceKind
  site : SourceSpan
  form : ObservedForm

structure ShadowBinding where
  name : String
  scope : SourceSpan
  activeFrom : ℕ

abbrev DeclarationKey := ℕ × ℕ

structure State where
  language : String
  path : String
  sourceHash : String
  rootSpan : SourceSpan
  fileSpan : SourceSpan
  rootHasError : Bool
  definitions : DefinitionFacts
  imports : List CallImportBinding
  observed : List ObservedRelation
  shadows : List ShadowBinding
  declarationScopes : List (DeclarationKey × SourceSpan)
  hoistedDeclarations : List DeclarationKey
  directExports : List (DeclarationKey × List String)
  exportAliases : List (String × List String)
  overloadedNames : List String
  omittedRelations : ℕ
  nodesTruncated : Bool
  factsTruncated : Bool

namespace State

def pushImport (state : State) (binding : CallImportBinding) : State :=
  if state.imports.length < maxImportsPerFile then
    { state with imports := state.imports ++ [binding] }
  else { state with factsTruncated := true }

def pushRelation (state : State) (relation : ObservedRelation) : State :=
  if state.observed.length < maxRelationsPerFile then
    { state with observed := state.observed ++ [relation] }
  else { state with omittedRelations := state.omittedRelations + 1, factsTruncated := true }

end State

/-! ## Declarations -/

def declarationKey (definition : DefinitionFact) : DeclarationKey :=
  (definition.declarationSpan.startByte, definition.declarationSpan.endByte)

def identity (path sourceHash : String) (definition : DefinitionFact) : CallSymbolIdentity :=
  ⟨path, sourceHash, definition.symbol.name, definition.symbol.kind, definition.declarationSpan⟩

namespace State

variable (state : State)

/-- The scope of a declaration, the whole file if the walk has set none. -/
def scopeOf (key : DeclarationKey) : SourceSpan :=
  (get? key state.declarationScopes).getD state.rootSpan

/-- The names under which a declaration is exported, with repetitions. -/
def exportsOf (definition : DefinitionFact) : List String :=
  let key := declarationKey definition
  let name := simpleName definition.symbol.name
  let direct := (get? key state.directExports).getD []
  let aliases := get? name state.exportAliases
  let direct :=
    if definition.symbol.exported ∧ state.scopeOf key = state.rootSpan ∧ direct = [] ∧
        aliases = none then [name]
    else direct
  direct ++ aliases.getD []

def declarationOf (definition : DefinitionFact) : CallDeclaration :=
  { symbol := identity state.path state.sourceHash definition
    exportNames := (sortBy compare (state.exportsOf definition)).eraseReps
    scopeSpan := state.scopeOf (declarationKey definition)
    overloaded := simpleName definition.symbol.name ∈ state.overloadedNames }

def finishDeclarations : List CallDeclaration :=
  (state.definitions.definitions.take maxDeclarationsPerFile).map state.declarationOf

def isShadowed (name : String) (site : SourceSpan) : Bool :=
  state.shadows.any fun binding =>
    binding.name = name && binding.scope.Contains site && binding.activeFrom ≤ site.startByte &&
      !state.imports.any fun imported =>
        imported.localName = name && imported.span.startByte = binding.activeFrom &&
          imported.scopeSpan.Contains site

end State

def owner (declarations : List CallDeclaration) (site : SourceSpan) : Option CallSymbolIdentity :=
  (sortBy (fun left right =>
      compare (spanLen left.symbol.declarationSpan) (spanLen right.symbol.declarationSpan))
    (declarations.filter fun declaration =>
      declaration.symbol.declarationSpan.Contains site)).head?.map CallDeclaration.symbol

def declarationShadows (declarations : List CallDeclaration) (name : String) (site : SourceSpan) :
    Bool :=
  declarations.any fun declaration =>
    simpleName declaration.symbol.name = name && declaration.scopeSpan.Contains site

/-! ## Forms -/

def importInScope (imports : List CallImportBinding) (localName : String) (site : SourceSpan) :
    List CallImportBinding :=
  imports.filter fun binding =>
    binding.localName = localName && binding.scopeSpan.Contains site

def classifyBare (name : String) (site : SourceSpan) (kind : CallReferenceKind)
    (imports : List CallImportBinding) (declarations : List CallDeclaration)
    (hoisted : List DeclarationKey) : CallReferenceSyntax × CallTargetCandidate :=
  let inScope := retainNarrowest CallDeclaration.scopeSpan (declarations.filter fun declaration =>
    simpleName declaration.symbol.name = name && declaration.scopeSpan.Contains site)
  let activeTarget := inScope.any fun declaration =>
    targetKindMatches declaration kind && ((declaration.symbol.declarationSpan.startByte,
          declaration.symbol.declarationSpan.endByte) ∈ hoisted ||
        declaration.symbol.declarationSpan.endByte ≤ site.startByte)
  let usesImport := inScope.isEmpty && !(importInScope imports name site).isEmpty
  (if usesImport then .importedBinding else .localDirect,
    { root := name, member := none, qualifier := none, inlineModules := []
      shadowed := !inScope.isEmpty && !activeTarget })

def classifyMember (object member : String) (isOptional : Bool) (site : SourceSpan)
    (imports : List CallImportBinding) : CallReferenceSyntax × CallTargetCandidate :=
  let viaNamespace :=
    (importInScope imports object site).any fun binding => binding.kind = .namespaceImport
  (if viaNamespace && !isOptional then .moduleQualified
    else if isOptional then .dynamic
    else .receiver,
    { root := object, member := some member, qualifier := none, inlineModules := []
      shadowed := false })

def firstPart (path : String) : String := String.ofList ((splitColons path.toList).headD [])

def classify (observed : ObservedRelation) (imports : List CallImportBinding)
    (declarations : List CallDeclaration) (hoisted : List DeclarationKey) :
    CallReferenceSyntax × CallTargetCandidate :=
  match observed.form with
  | .bare name => classifyBare name observed.site observed.kind imports declarations hoisted
  | .qualified qualifier member inlineModules =>
    (.moduleQualified,
      { root := firstPart qualifier, member := some member, qualifier := some qualifier
        inlineModules := inlineModules, shadowed := false })
  | .objectMember object member isOptional =>
    classifyMember object member isOptional observed.site imports
  | .receiver object member =>
    (.receiver,
      { root := object, member := some member, qualifier := none, inlineModules := []
        shadowed := false })
  | .dynamic kind =>
    (.dynamic,
      { root := kind, member := none, qualifier := none, inlineModules := [], shadowed := false })

namespace State

variable (state : State)

def factOf (declarations : List CallDeclaration) (observed : ObservedRelation) :
    CallReferenceFact :=
  let classified := classify observed state.imports declarations state.hoistedDeclarations
  let candidate := classified.2
  let shadowed := candidate.shadowed || state.isShadowed candidate.root observed.site ||
    ((classified.1 = .importedBinding || classified.1 = .moduleQualified) &&
      declarationShadows declarations candidate.root observed.site)
  { kind := observed.kind
    syntaxForm := classified.1
    site := observed.site
    owner := owner declarations observed.site
    candidate := { candidate with shadowed := shadowed } }

def finishRelations (declarations : List CallDeclaration) : List CallReferenceFact :=
  sortBy (fun left right =>
      ((compare left.site.startByte right.site.startByte).then
        (compare left.site.endByte right.site.endByte)).then
        (compare left.kind.rank right.kind.rank))
    (state.observed.map (state.factOf declarations))

/-- The imports in their order in the file. -/
def finishImports : List CallImportBinding :=
  sortBy (fun left right =>
      ((compare left.span.startByte right.span.startByte).then
        (compare left.localName right.localName)).then
        (compare left.moduleSpecifier right.moduleSpecifier))
    state.imports

def finish : CallReferenceFacts :=
  let sorted := { state with imports := state.finishImports }
  let declarations := sorted.finishDeclarations
  let factsTruncated := state.factsTruncated ||
    maxDeclarationsPerFile < state.definitions.definitions.length
  { status :=
      if state.nodesTruncated then .workTruncated
      else if factsTruncated then .factTruncated
      else if state.rootHasError ∨ state.definitions.status = .parseErrors then .parseErrors
      else .available
    language := state.language
    sourcePath := state.path
    sourceHash := state.sourceHash
    declarations := declarations
    imports := sorted.imports
    relations := sorted.finishRelations declarations
    moduleSpan := some state.fileSpan
    coverage := ⟨state.omittedRelations⟩ }

end State

end Reposcout.Graph.Calls
