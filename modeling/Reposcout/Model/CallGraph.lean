import Reposcout.Model.Definitions

/-!
# Call and reference facts

What a language frontend reports about the declarations, imports and call sites of one source
file, what the module resolver decides about a module that a site needs, and the edges that binding
the sites yields.
-/

namespace Reposcout

inductive CallReferenceStatus where
  | available
  | parseErrors
  | unsupported
  | workTruncated
  | factTruncated
  | unavailable
  deriving DecidableEq

inductive CallReferenceKind where
  | call
  | reference
  deriving DecidableEq

/-- The position of a kind in the derived order. -/
def CallReferenceKind.rank : CallReferenceKind → ℕ
  | call => 0
  | reference => 1

inductive CallReferenceSyntax where
  | localDirect
  | importedBinding
  | moduleQualified
  | receiver
  | dynamic
  deriving DecidableEq

inductive CallImportKind where
  | namedImport
  | defaultImport
  | namespaceImport
  | rustPath
  deriving DecidableEq

inductive CallResolutionStatus where
  | resolved
  | sameFile
  | external
  | unresolved
  deriving DecidableEq

inductive CallUnresolvedReason where
  | unsupportedLanguage
  | parseErrors
  | workLimit
  | factLimit
  | unsupportedSyntax
  | dynamicReceiver
  | dynamicTarget
  | shadowedBinding
  | missingImportResolution
  | missingTarget
  | ambiguousTarget
  | missingOwner
  deriving DecidableEq

/-- The position of a reason in the derived order. -/
def CallUnresolvedReason.rank : CallUnresolvedReason → ℕ
  | unsupportedLanguage => 0
  | parseErrors => 1
  | workLimit => 2
  | factLimit => 3
  | unsupportedSyntax => 4
  | dynamicReceiver => 5
  | dynamicTarget => 6
  | shadowedBinding => 7
  | missingImportResolution => 8
  | missingTarget => 9
  | ambiguousTarget => 10
  | missingOwner => 11

structure CallSymbolIdentity where
  path : String
  sourceHash : String
  name : String
  kind : String
  declarationSpan : SourceSpan
  deriving DecidableEq

structure CallDeclaration where
  symbol : CallSymbolIdentity
  exportNames : List String
  scopeSpan : SourceSpan
  overloaded : Bool
  deriving DecidableEq

structure CallImportBinding where
  moduleSpecifier : String
  importedName : String
  localName : String
  kind : CallImportKind
  span : SourceSpan
  scopeSpan : SourceSpan
  inlineModules : List String
  deriving DecidableEq

structure CallTargetCandidate where
  root : String
  member : Option String
  qualifier : Option String
  inlineModules : List String
  shadowed : Bool
  deriving DecidableEq

/-- What binding reads of a `CallReferenceFact`. -/
structure CallReferenceFact where
  kind : CallReferenceKind
  syntaxForm : CallReferenceSyntax
  site : SourceSpan
  owner : Option CallSymbolIdentity
  candidate : CallTargetCandidate

/-- What binding reads of a `CallFactCoverage`. -/
structure CallFactCoverage where
  omittedRelations : ℕ
  deriving DecidableEq

structure CallReferenceFacts where
  status : CallReferenceStatus
  language : String
  sourcePath : String
  sourceHash : String
  declarations : List CallDeclaration
  imports : List CallImportBinding
  relations : List CallReferenceFact
  moduleSpan : Option SourceSpan
  coverage : CallFactCoverage

structure CallModuleRequest where
  sourcePath : String
  language : String
  moduleSpecifier : String
  inlineModules : List String
  deriving DecidableEq

structure CallModuleResolution where
  request : CallModuleRequest
  targetPath : Option String
  resolver : Option String
  status : CallResolutionStatus

structure ResolvedCallReference where
  source : CallSymbolIdentity
  target : CallSymbolIdentity
  site : SourceSpan
  kind : CallReferenceKind
  syntaxForm : CallReferenceSyntax
  resolver : String
  deriving DecidableEq

structure UnresolvedCallReference where
  sourcePath : String
  sourceHash : String
  site : SourceSpan
  kind : CallReferenceKind
  syntaxForm : CallReferenceSyntax
  candidate : CallTargetCandidate
  reason : CallUnresolvedReason
  deriving DecidableEq

structure CallResolutionCoverage where
  examined : ℕ
  resolved : ℕ
  unresolved : ℕ
  unsupported : ℕ
  omitted : ℕ
  deriving DecidableEq

structure CallReferenceTopology where
  edges : List ResolvedCallReference
  unresolved : List UnresolvedCallReference
  coverage : CallResolutionCoverage

end Reposcout
