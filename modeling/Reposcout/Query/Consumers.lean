import Reposcout.Model.CallGraph
import Reposcout.Query.Source.Selection

/-!
# The seeds of a consumers query

A target names a declaration by its symbol or by a line inside of it.  What the scan has captured of
the files is an input.
-/

namespace Reposcout.Query

open KeyedList

/-- What is captured of the file of a target, under its path. -/
structure SeedFile where
  path : String
  facts : Option CallReferenceFacts
  definitions : Option (List DefinitionFact)

/-- The source of a definition, if it has one, or else its declaration. -/
def seedSpan (definition : DefinitionFact) : SourceSpan :=
  definition.sourceSpan.getD definition.declarationSpan

/-- `name.rsplit([':', '.']).find(|part| !part.is_empty())`. -/
def lastNamePart (name : String) : Option String :=
  (((name.toList.splitOnP fun c => c = ':' || c = '.').map String.ofList).reverse).find? (· ≠ "")

def aroundLine (definitions : List DefinitionFact) (line : ℕ) (declaration : CallDeclaration) :
    Bool :=
  definitions.any fun definition =>
    definition.declarationSpan = declaration.symbol.declarationSpan &&
      (seedSpan definition).startLine ≤ line && line ≤ (seedSpan definition).endLine

/-- The length that is found for the start of a declaration; of two definitions that start together
the later one counts. -/
def seedLength (definitions : List DefinitionFact) (declaration : CallDeclaration) : Option ℕ :=
  (get? declaration.symbol.declarationSpan.startByte
    (indexBy (fun definition => definition.declarationSpan.startByte) definitions)).map
      fun definition => (seedSpan definition).endByte - (seedSpan definition).startByte

def retainInnermostSeedCandidates (candidates : List CallDeclaration)
    (definitions : List DefinitionFact) : List CallDeclaration :=
  candidates.filter fun declaration =>
    seedLength definitions declaration = (candidates.filterMap (seedLength definitions)).min?

/-- The declarations of a file that a selector matches. -/
def seedCandidates (declarations : List CallDeclaration) (definitions : List DefinitionFact) :
    SourceSelector → List CallDeclaration
  | .symbol name =>
    let named := declarations.filter fun declaration => declaration.symbol.name = name
    if named ≠ [] then named
    else declarations.filter fun declaration => lastNamePart declaration.symbol.name = some name
  | .line line =>
    retainInnermostSeedCandidates (declarations.filter (aroundLine definitions line)) definitions
  | _ => []

def ambiguousSeed (path : String) (found : ℕ) : String :=
  "consumers seed must identify exactly one declaration in " ++ path ++ " (found " ++
    toString found ++ ")"

/-- `resolve_seeds`, for one target. -/
def resolveSeed (file : SeedFile) (target : SourceQueryTarget) : Except String CallSymbolIdentity :=
  match file.facts with
  | none => .error "consumers seed has no captured call facts"
  | some facts =>
    if target.expectedHash.any fun hash => !eqIgnoreAsciiCase facts.sourceHash hash then
      .error ("consumers seed hash mismatch for " ++ file.path)
    else
      match file.definitions with
      | none => .error "consumers seed has no captured definitions"
      | some definitions =>
        match seedCandidates facts.declarations definitions target.selector with
        | [declaration] => .ok declaration.symbol
        | candidates => .error (ambiguousSeed file.path candidates.length)

end Reposcout.Query
