import Mathlib.Data.String.Basic
import Mathlib.Data.Prod.Lex
import Reposcout.Framework.KeyedList

/-!
# Definition facts

What the language frontends report about the declarations of one source file: the symbol, the
span of the declaration, and the span to retrieve as source when there is one.  A definition is
selected by its name or as the innermost declaration around a line.
-/

namespace Reposcout

/-- A half-open byte range with its one-based lines. -/
structure SourceSpan where
  startByte : ℕ
  endByte : ℕ
  startLine : ℕ
  endLine : ℕ
  deriving DecidableEq, Inhabited

/-- `fn contains`. -/
def SourceSpan.Contains (outer inner : SourceSpan) : Prop :=
  outer.startByte ≤ inner.startByte ∧ inner.endByte ≤ outer.endByte

instance (outer inner : SourceSpan) : Decidable (outer.Contains inner) :=
  inferInstanceAs (Decidable (_ ∧ _))

structure SymbolOutline where
  name : String
  kind : String
  signature : String
  line : Nat
  exported : Bool
  reasons : List String
  deriving DecidableEq

structure DefinitionFact where
  symbol : SymbolOutline
  declarationSpan : SourceSpan
  sourceSpan : Option SourceSpan
  deriving DecidableEq

inductive DefinitionStatus where
  | available
  | parseErrors
  | unsupported
  | unavailable
  deriving DecidableEq

structure DefinitionFacts where
  status : DefinitionStatus
  definitions : List DefinitionFact
  deriving DecidableEq

/-- The side of a capture a file was read from. -/
inductive SourceRevision where
  | worktree
  | index
  | tree (reference : String)
  | empty
  deriving DecidableEq, Inhabited

/-- The position of a revision in the derived order. -/
def SourceRevision.rank : SourceRevision → ℕ ×ₗ String
  | worktree => toLex (0, "")
  | index => toLex (1, "")
  | tree reference => toLex (2, reference)
  | empty => toLex (3, "")

instance : LinearOrder SourceRevision :=
  LinearOrder.lift' SourceRevision.rank fun r s h => by
    cases r <;> cases s <;> simp_all [SourceRevision.rank]

/-! ## Selecting definitions -/

/-- The last non-empty part of a qualified name:
`name.rsplit(['.', ':', '\\']).find(|part| !part.is_empty())`. -/
def simpleName (name : String) : Option String :=
  (((name.toList.splitOnP fun c => c = '.' || c = ':' || c = '\\').map String.ofList).reverse).find?
    (· ≠ "")

/-- The definitions of a name: those of exactly this name, otherwise those of this simple
name. -/
def namedMatches (definitions : List DefinitionFact) (name : String) :
    List (DefinitionFact × ℕ) :=
  let exact := definitions.zipIdx.filter fun item => item.1.symbol.name = name
  if exact ≠ [] then exact
  else definitions.zipIdx.filter fun item => simpleName item.1.symbol.name = some name

/-- Later starts first, then earlier ends. -/
def innermostOrder (left right : DefinitionFact × ℕ) : Ordering :=
  (compare right.1.declarationSpan.startByte left.1.declarationSpan.startByte).then
    (compare left.1.declarationSpan.endByte right.1.declarationSpan.endByte)

def sameDeclarationBytes (left right : DefinitionFact × ℕ) : Bool :=
  left.1.declarationSpan.startByte = right.1.declarationSpan.startByte &&
    left.1.declarationSpan.endByte = right.1.declarationSpan.endByte

/-- A group of equal spans is retained if it ends before every earlier one. -/
def retainGroup (state : List (DefinitionFact × ℕ) × Option ℕ)
    (group : List (DefinitionFact × ℕ)) : List (DefinitionFact × ℕ) × Option ℕ :=
  match group with
  | [] => state
  | first :: _ =>
    let stop := first.1.declarationSpan.endByte
    (if state.2.all fun previous => previous > stop then state.1 ++ group else state.1,
      some (state.2.elim stop fun previous => min previous stop))

/-- The sweep for the innermost declarations, in the order of the file. -/
def innermost (items : List (DefinitionFact × ℕ)) : List (DefinitionFact × ℕ) :=
  let groups := (KeyedList.sortBy innermostOrder items).splitBy sameDeclarationBytes
  KeyedList.sortBy (fun left right => compare left.2 right.2)
    (groups.foldl retainGroup ([], none)).1

/-- The declarations around a line. -/
def lineMatches (definitions : List DefinitionFact) (line : ℕ) : List (DefinitionFact × ℕ) :=
  definitions.zipIdx.filter fun item =>
    item.1.declarationSpan.startLine ≤ line && line ≤ item.1.declarationSpan.endLine

end Reposcout
