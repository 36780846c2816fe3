import Reposcout.Model.SourceQuery
import Reposcout.Model.SyntaxTree
import Reposcout.Review.Neighborhood

/-!
# Planning facts of definitions

The types that the signature of a definition names, as far as they are defined in the same scope of
the same file, and what is known to be missing.
-/

namespace Reposcout.Metrics.Planning

open KeyedList

def maxEnvironment : ℕ := 8

def maxSignatureNodes : ℕ := 4096

/-! ## Names -/

def isTypeKind (kind : String) : Bool :=
  kind ∈ ["type", "enum", "class", "interface", "trait"]

def typeBindings (definitions : List DefinitionFact) : List (String × List ℕ) :=
  groupBy (fun definition => definition.1.symbol.name) (fun definition => [definition.2])
    (definitions.zipIdx.filter fun definition =>
      isTypeKind definition.1.symbol.kind && definition.1.sourceSpan.isSome)

/-- `rsplit_once`, the part before the separator. -/
def scopeBefore (separator : List Char) : List Char → Option (List Char)
  | [] => none
  | c :: rest =>
    match scopeBefore separator rest with
    | some scope => some (c :: scope)
    | none => if separator.isPrefixOf (c :: rest) then some [] else none

def siblingName (owner name : String) : String :=
  match scopeBefore "::".toList owner.toList with
  | some scope => String.ofList (scope ++ "::".toList ++ name.toList)
  | none =>
    match scopeBefore ".".toList owner.toList with
    | some scope => String.ofList (scope ++ ".".toList ++ name.toList)
    | none => name

def isPrimitive (name : String) : Bool :=
  name ∈ ["Self", "str", "bool", "char", "u8", "u16", "u32", "u64", "u128", "usize", "i8", "i16",
    "i32", "i64", "i128", "isize", "f32", "f64", "number", "string", "boolean", "void", "unknown",
    "never", "any"]

/-! ## Signatures -/

mutual

/-- `descendant_for_byte_range`: the smallest node around a range. -/
def descendantForByteRange (start stop : ℕ) : Cst → Cst
  | tree@(.node _ _ _ _ _ _ children) => (childForByteRange start stop children).getD tree

/-- The node in the first child that reaches the end of the range, if that child starts before it. -/
def childForByteRange (start stop : ℕ) : List Cst → Option Cst
  | [] => none
  | child :: rest =>
    if child.span.endByte < stop ∨ (if child.span.startByte = child.span.endByte
        then child.span.endByte < start else child.span.endByte ≤ start) then
      childForByteRange start stop rest
    else if start < child.span.startByte then none
    else some (descendantForByteRange start stop child)

end

def isQualifiedType (kind : String) : Bool :=
  kind ∈ ["scoped_type_identifier", "nested_type_identifier", "type_query"]

/-- What the walk over a signature has seen. -/
structure SignatureNames where
  names : List String
  genericNames : List String
  gaps : List String

/-- A type identifier that is not qualified. -/
def SignatureNames.insert (seen : SignatureNames) (name : String) (generic : Bool) :
    SignatureNames :=
  if generic then
    { seen with genericNames := Review.insertOrdered name seen.genericNames }
  else { seen with names := Review.insertOrdered name seen.names }

/-- The walk over a signature with the number of nodes that it may still visit. -/
def walkSignature (body : Option ℕ) : ℕ → List (Cst × Bool) → SignatureNames → SignatureNames
  | _, [], seen => seen
  | 0, _ :: _, seen =>
    { seen with names := [], gaps := seen.gaps ++ ["signature-environment-work-limit"] }
  | left + 1, (current, generic) :: stack, seen =>
    if body = some current.id then walkSignature body left stack seen
    else if isQualifiedType current.kind then
      walkSignature body left stack
        { seen with gaps := seen.gaps ++ ["qualified-signature-type-not-expanded"] }
    else
      let generic := generic || current.kind = "type_parameters"
      let seen := if current.kind = "type_identifier" then seen.insert current.text generic else seen
      walkSignature body left (current.children.map (fun child => (child, generic)) ++ stack) seen

/-! ## Environments -/

/-- The gap for a type that nothing of its scope defines. -/
def unresolvedGap (qualified : String) : String :=
  String.ofList ("unresolved-signature-type:".toList ++ qualified.toList)

/-- The gap for a type that more than one definition has the name of. -/
def ambiguousGap (qualified : String) : String :=
  String.ofList ("ambiguous-signature-type:".toList ++ qualified.toList)

/-- The gap for a type that is one too many. -/
def limitGap : String := "signature-environment-limit"

/-- One name of the signature: an entry of the environment or a gap. -/
def addName (owner : String) (bindings : List (String × List ℕ))
    (state : List DefinitionEnvironment × List String) (name : String) :
    List DefinitionEnvironment × List String :=
  if isPrimitive name then state
  else
    let qualified := siblingName owner name
    match get? qualified bindings with
    | some [index] =>
      if state.1.length < maxEnvironment then
        (state.1 ++ [⟨index, String.ofList ("same-scope signature type ".toList ++
          qualified.toList)⟩], state.2)
      else (state.1, state.2 ++ [limitGap])
    | some _ => (state.1, state.2 ++ [ambiguousGap qualified])
    | none => (state.1, state.2 ++ [unresolvedGap qualified])

/-- `dedup_by_key` behind a first entry. -/
def dedupFrom (first : DefinitionEnvironment) :
    List DefinitionEnvironment → List DefinitionEnvironment
  | [] => [first]
  | second :: rest =>
    if second.definition = first.definition then dedupFrom first rest
    else first :: dedupFrom second rest

/-- `dedup_by_key`. -/
def dedupByDefinition : List DefinitionEnvironment → List DefinitionEnvironment
  | [] => []
  | first :: rest => dedupFrom first rest

def signatureEnvironment (language : String) (tree : Option Cst) (definition : DefinitionFact)
    (bindings : List (String × List ℕ)) : List DefinitionEnvironment × List String :=
  if definition.symbol.kind ∉ ["function", "method"] then
    ([], ["definition-environment-not-expanded"])
  else if language ∉ ["Rust", "TypeScript", "TSX"] then
    ([], ["signature-environment-unsupported-language"])
  else
    match tree with
    | none => ([], ["signature-environment-unavailable"])
    | some root =>
      let span := definition.declarationSpan
      let node := descendantForByteRange span.startByte span.endByte root
      let seen := walkSignature ((node.childByFieldName "body").map Cst.id) maxSignatureNodes
        [(node, false)] ⟨[], [], ["body-dependencies-not-expanded"]⟩
      let state := (seen.names.filter fun name => name ∉ seen.genericNames).foldl
        (addName definition.symbol.name bindings) ([], seen.gaps)
      (dedupByDefinition (sortBy (fun left right => compare left.definition
        right.definition) state.1), (sortBy compare state.2).eraseReps)

end Reposcout.Metrics.Planning
