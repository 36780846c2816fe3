import Reposcout.Model.CallGraph
import Reposcout.Model.Machine

/-!
# Binding calls and references

A site is bound through one of three routes: to a declaration in a scope around it, through the
module of an import, or through the path that qualifies it.  Whatever is missing or ambiguous
leaves the site unresolved, with the reason.
-/

namespace Reposcout.Graph.Calls

open KeyedList

/-! ## Spans and names -/

def spanLen (span : SourceSpan) : ℕ := span.endByte - span.startByte

/-- The last non-empty part of a qualified name: `name.rsplit(['.', ':']).find(..)`, or the name. -/
def simpleName (name : String) : String :=
  ((((name.toList.splitOnP fun c => c = '.' || c = ':').map String.ofList).reverse).find?
    (· ≠ "")).getD name

def targetKindMatches (declaration : CallDeclaration) (kind : CallReferenceKind) : Bool :=
  declaration.symbol.kind = "function" ||
    kind = .reference &&
      declaration.symbol.kind ∈ ["class", "enum", "type", "interface", "trait", "constant"]

def retainNarrowest {α : Type} (scope : α → SourceSpan) (values : List α) : List α :=
  match (values.map fun value => spanLen (scope value)).min? with
  | none => values
  | some shortest => values.filter fun value => spanLen (scope value) = shortest

def retainNarrowestScope (candidates : List CallDeclaration) : List CallDeclaration :=
  retainNarrowest CallDeclaration.scopeSpan candidates

def retainNarrowestImportScope (imports : List CallImportBinding) : List CallImportBinding :=
  retainNarrowest CallImportBinding.scopeSpan imports

/-! ## Indexes -/

def declarationOrder (left right : CallDeclaration) : Ordering :=
  (compare left.symbol.declarationSpan.startByte right.symbol.declarationSpan.startByte).then
    (compare left.symbol.name right.symbol.name)

def declarationIndex (facts : List CallReferenceFacts) : List (String × List CallDeclaration) :=
  (groupBy CallReferenceFacts.sourcePath CallReferenceFacts.declarations facts).map
    fun entry => (entry.1, sortBy declarationOrder entry.2)

def moduleIndex (modules : List CallModuleResolution) :
    List (CallModuleRequest × List CallModuleResolution) :=
  groupBy CallModuleResolution.request (fun module => [module]) modules

/-! ## Modules -/

def uniqueModuleResolution (resolutions : Option (List CallModuleResolution)) :
    Except CallUnresolvedReason CallModuleResolution :=
  match resolutions with
  | none => .error .missingImportResolution
  | some resolutions =>
    let outcomes := resolutions.filter fun resolution =>
      resolution.status = .resolved || resolution.status = .sameFile
    let ordered := sortBy (fun left right =>
      (compare left.targetPath right.targetPath).then (compare left.resolver right.resolver))
      outcomes
    match ordered.eraseRepsBy fun left right =>
      left.targetPath = right.targetPath && left.resolver = right.resolver with
    | [resolution] => .ok resolution
    | [] => .error .missingImportResolution
    | _ => .error .ambiguousTarget

def moduleTargetPath (sourcePath : String) (resolution : CallModuleResolution) :
    Except CallUnresolvedReason String :=
  match resolution.status with
  | .resolved =>
    match resolution.targetPath with
    | some path => .ok path
    | none => .error .missingImportResolution
  | .sameFile => .ok sourcePath
  | .external | .unresolved => .error .missingImportResolution

def importRequest (file : CallReferenceFacts) (binding : CallImportBinding) : CallModuleRequest :=
  ⟨file.sourcePath, file.language, binding.moduleSpecifier, binding.inlineModules⟩

def qualifierRequest (file : CallReferenceFacts) (relation : CallReferenceFact)
    (qualifier : String) : CallModuleRequest :=
  ⟨file.sourcePath, file.language, qualifier, relation.candidate.inlineModules⟩

section

variable (declarations : List (String × List CallDeclaration))
  (modules : List (CallModuleRequest × List CallModuleResolution))

def resolvedModuleTarget (file : CallReferenceFacts) (binding : CallImportBinding) :
    Except CallUnresolvedReason String :=
  match uniqueModuleResolution (get? (importRequest file binding) modules) with
  | .error reason => .error reason
  | .ok resolution => moduleTargetPath file.sourcePath resolution

def importBinding (language : String) (binding : CallImportBinding) :
    Except CallUnresolvedReason String :=
  if language = "JavaScript" ∨ language = "TypeScript" ∨ language = "TSX" then
    match binding.kind with
    | .namedImport => .ok "js-named-import"
    | .defaultImport => .ok "js-default-import"
    | .namespaceImport => .ok "js-namespace-import"
    | .rustPath => .error .unsupportedSyntax
  else if language = "Rust" ∧ binding.kind = .rustPath then
    if binding.localName ≠ binding.importedName then .ok "rust-use-alias" else .ok "rust-use"
  else .error .unsupportedSyntax

def importResolver (binding : CallImportBinding) (file : CallReferenceFacts) :
    Except CallUnresolvedReason String :=
  match uniqueModuleResolution (get? (importRequest file binding) modules) with
  | .error reason => .error reason
  | .ok resolution =>
    match importBinding file.language binding with
    | .error reason => .error reason
    | .ok name => .ok (name ++ "+" ++ resolution.resolver.getD "local-module")

/-! ## Targets -/

def uniqueTarget : List CallDeclaration → Except CallUnresolvedReason CallSymbolIdentity
  | [] => .error .missingTarget
  | [candidate] => .ok candidate.symbol
  | _ => .error .ambiguousTarget

/-- Whether a declaration is a candidate for a name in a file: in another file it has to export the
name. -/
def targetMatches (targetPath targetName sourcePath : String) (kind : CallReferenceKind)
    (declaration : CallDeclaration) : Bool :=
  targetKindMatches declaration kind &&
    if targetPath = sourcePath then simpleName declaration.symbol.name = targetName
    else declaration.exportNames.any fun name => name = targetName

def resolveTarget (targetPath targetName sourcePath : String) (kind : CallReferenceKind) :
    Except CallUnresolvedReason CallSymbolIdentity :=
  match get? targetPath declarations with
  | none => .error .missingTarget
  | some fileDeclarations =>
    let candidates := fileDeclarations.filter (targetMatches targetPath targetName sourcePath kind)
    if candidates.any CallDeclaration.overloaded then .error .ambiguousTarget
    else uniqueTarget candidates

/-! ## Routes -/

/-- Whether a declaration is a candidate for a name at a site of its own file. -/
def localMatches (relation : CallReferenceFact) (declaration : CallDeclaration) : Bool :=
  targetKindMatches declaration relation.kind &&
    simpleName declaration.symbol.name = relation.candidate.root &&
    declaration.scopeSpan.Contains relation.site

def resolveLocal (file : CallReferenceFacts) (relation : CallReferenceFact) :
    Except CallUnresolvedReason (CallSymbolIdentity × String) :=
  match get? file.sourcePath declarations with
  | none => .error .missingTarget
  | some fileDeclarations =>
    let candidates := fileDeclarations.filter (localMatches relation)
    if candidates.any CallDeclaration.overloaded then .error .ambiguousTarget
    else
      match uniqueTarget (retainNarrowestScope candidates) with
      | .error reason => .error reason
      | .ok target => .ok (target, "local-lexical")

def importsInScope (file : CallReferenceFacts) (localName : String) (site : SourceSpan) :
    List CallImportBinding :=
  file.imports.filter fun binding =>
    binding.localName = localName && binding.scopeSpan.Contains site

def uniqueImport : List CallImportBinding → Except CallUnresolvedReason CallImportBinding
  | [] => .error .missingImportResolution
  | [binding] => .ok binding
  | _ => .error .ambiguousTarget

def resolveThrough (file : CallReferenceFacts) (relation : CallReferenceFact)
    (binding : CallImportBinding) (targetName : String) :
    Except CallUnresolvedReason (CallSymbolIdentity × String) :=
  match resolvedModuleTarget modules file binding with
  | .error reason => .error reason
  | .ok targetPath =>
    match resolveTarget declarations targetPath targetName file.sourcePath relation.kind with
    | .error reason => .error reason
    | .ok target =>
      match importResolver modules binding file with
      | .error reason => .error reason
      | .ok resolver => .ok (target, resolver)

def resolveImported (file : CallReferenceFacts) (relation : CallReferenceFact) :
    Except CallUnresolvedReason (CallSymbolIdentity × String) :=
  match uniqueImport (retainNarrowestImportScope
    (importsInScope file relation.candidate.root relation.site)) with
  | .error reason => .error reason
  | .ok binding =>
    resolveThrough declarations modules file relation binding
      (relation.candidate.member.getD binding.importedName)

/-- Whether a name can qualify a site through an import. -/
def canQualify (file : CallReferenceFacts) (binding : CallImportBinding) : Bool :=
  binding.kind = .namespaceImport || file.language = "Rust"

def resolveQualified (file : CallReferenceFacts) (relation : CallReferenceFact) :
    Except CallUnresolvedReason (CallSymbolIdentity × String) :=
  let targetName := relation.candidate.member.getD relation.candidate.root
  match retainNarrowestImportScope
    ((importsInScope file relation.candidate.root relation.site).filter (canQualify file)) with
  | _ :: _ :: _ => .error .ambiguousTarget
  | [binding] => resolveThrough declarations modules file relation binding targetName
  | [] =>
    match relation.candidate.qualifier with
    | none => .error .missingImportResolution
    | some qualifier =>
      match uniqueModuleResolution
        (get? (qualifierRequest file relation qualifier) modules) with
      | .error reason => .error reason
      | .ok resolution =>
        match moduleTargetPath file.sourcePath resolution with
        | .error reason => .error reason
        | .ok targetPath =>
          match resolveTarget declarations targetPath targetName file.sourcePath relation.kind with
          | .error reason => .error reason
          | .ok target =>
            .ok (target, "rust-qualified+" ++ resolution.resolver.getD "local-module")

/-- Why a site cannot be bound at all, before its names are looked at. -/
def refusal (file : CallReferenceFacts) (relation : CallReferenceFact) :
    Option CallUnresolvedReason :=
  match file.status, relation.syntaxForm with
  | .workTruncated, _ => some .workLimit
  | .factTruncated, _ => some .factLimit
  | .parseErrors, _ => some .parseErrors
  | .unsupported, _ => some .unsupportedLanguage
  | _, .dynamic => some .dynamicTarget
  | _, .receiver => some .dynamicReceiver
  | _, _ =>
    if relation.candidate.shadowed then some .shadowedBinding
    else if relation.owner = none ∧ file.moduleSpan = none then some .missingOwner
    else none

def resolveRelation (file : CallReferenceFacts) (relation : CallReferenceFact) :
    Except CallUnresolvedReason (CallSymbolIdentity × String) :=
  match refusal file relation with
  | some reason => .error reason
  | none =>
    match relation.syntaxForm with
    | .localDirect => resolveLocal declarations file relation
    | .importedBinding => resolveImported declarations modules file relation
    | .moduleQualified => resolveQualified declarations modules file relation
    | .receiver | .dynamic => .error .unsupportedSyntax

/-! ## The topology -/

def moduleSource (file : CallReferenceFacts) : Option CallSymbolIdentity :=
  file.moduleSpan.map fun span =>
    ⟨file.sourcePath, file.sourceHash, "(module)", "module", span⟩

def pushUnresolved (topology : CallReferenceTopology) (file : CallReferenceFacts)
    (relation : CallReferenceFact) (reason : CallUnresolvedReason) : CallReferenceTopology :=
  let coverage := { topology.coverage with unresolved := topology.coverage.unresolved + 1 }
  { topology with
    coverage :=
      if reason ∈ [.unsupportedLanguage, .unsupportedSyntax, .dynamicReceiver, .dynamicTarget] then
        { coverage with unsupported := coverage.unsupported + 1 }
      else coverage
    unresolved := topology.unresolved ++
      [⟨file.sourcePath, file.sourceHash, relation.site, relation.kind, relation.syntaxForm,
        relation.candidate, reason⟩] }

/-- The body of the loop of `resolve` for one relation of a file. -/
def examine (file : CallReferenceFacts) (topology : CallReferenceTopology)
    (relation : CallReferenceFact) : CallReferenceTopology :=
  let topology := { topology with
    coverage := { topology.coverage with examined := topology.coverage.examined + 1 } }
  match resolveRelation declarations modules file relation with
  | .error reason => pushUnresolved topology file relation reason
  | .ok (target, resolver) =>
    match relation.owner.or (moduleSource file) with
    | none => pushUnresolved topology file relation .missingOwner
    | some source =>
      { topology with
        edges := topology.edges ++
          [⟨source, target, relation.site, relation.kind, relation.syntaxForm, resolver⟩]
        coverage := { topology.coverage with resolved := topology.coverage.resolved + 1 } }

end

def edgeOrder (left right : ResolvedCallReference) : Ordering :=
  (((((compare left.source.path right.source.path).then
    (compare left.site.startByte right.site.startByte)).then
    (compare left.site.endByte right.site.endByte)).then
    (compare left.kind.rank right.kind.rank)).then
    (compare left.target.path right.target.path)).then
    (compare left.target.name right.target.name)

def unresolvedOrder (left right : UnresolvedCallReference) : Ordering :=
  ((((compare left.sourcePath right.sourcePath).then
    (compare left.site.startByte right.site.startByte)).then
    (compare left.site.endByte right.site.endByte)).then
    (compare left.kind.rank right.kind.rank)).then
    (compare left.reason.rank right.reason.rank)

/-- The files by path. -/
def orderedFacts (facts : List CallReferenceFacts) : List CallReferenceFacts :=
  sortBy (fun left right => compare left.sourcePath right.sourcePath) facts

/-- `resolve`. A count of list elements never saturates, so only the sum of the omitted relations,
which the files report, is one of machine integers. -/
def resolve (facts : List CallReferenceFacts) (modules : List CallModuleResolution) :
    CallReferenceTopology :=
  let declarations := declarationIndex facts
  let modules := moduleIndex modules
  let omitted := (facts.map fun file => file.coverage.omittedRelations).foldl satAdd 0
  let topology := (orderedFacts facts).foldl
    (fun topology file => file.relations.foldl (examine declarations modules file) topology)
    ⟨[], [], ⟨0, 0, 0, 0, omitted⟩⟩
  { topology with
    edges := sortBy edgeOrder topology.edges
    unresolved := sortBy unresolvedOrder topology.unresolved }

end Reposcout.Graph.Calls
