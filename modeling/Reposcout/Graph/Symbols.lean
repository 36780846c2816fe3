import Reposcout.Framework.KeyedList
import Reposcout.Model.Text
import Mathlib.Data.Prod.Lex

/-!
# Type relationships

Files declare types and name the types they extend, implement or embed.  A name is resolved among
the declarations of its language family: by its qualified name, as an import alias or the namespace
of the file complete it, then by its last part in the same file, in the same scope, and at all.

`lower` is `str::to_lowercase`.
-/

namespace Reposcout.Graph.Symbols

open KeyedList

/-! ## Names -/

/-- The characters that separate the parts of a qualified name. -/
def isSeparator (c : Char) : Bool := c = '\\' || c = ':' || c = '.' || c = '/'

def trimMatches (p : Char → Bool) (chars : List Char) : List Char :=
  ((chars.dropWhile p).reverse.dropWhile p).reverse

/-- `strip_prefix`, or the text itself. -/
def stripStart (start chars : List Char) : List Char :=
  if start.isPrefixOf chars then chars.drop start.length else chars

/-- The marks around a reference: a blank, a parenthesis or a quote. -/
def isMark (c : Char) : Bool :=
  isWhitespace c || c = '(' || c = ')' || c = '\x27' || c = '\x22'

def cleanReference (reference : String) : String :=
  let value := ["dyn ", "impl ", "&mut ", "&", "*", "?"].foldl
    (fun value start => trimMatches isWhitespace (stripStart start.toList value))
    (trimMatches isWhitespace reference.toList)
  String.ofList (trimMatches isMark (value.takeWhile fun c => c ≠ '<' && c ≠ '['))

/-- `replace` of two backslashes by one. -/
def collapseBackslashes : List Char → List Char
  | '\\' :: '\\' :: rest => '\\' :: collapseBackslashes rest
  | c :: rest => c :: collapseBackslashes rest
  | [] => []

/-- `replace` of two colons by a dot. -/
def dotColons : List Char → List Char
  | ':' :: ':' :: rest => '.' :: dotColons rest
  | c :: rest => c :: dotColons rest
  | [] => []

/-- `trim_start_matches` of `global::`, at most so many times. -/
def stripGlobals : ℕ → List Char → List Char
  | 0, chars => chars
  | times + 1, chars =>
    if "global::".toList.isPrefixOf chars then stripGlobals times (chars.drop 8) else chars

variable (lower : String → String)

def normalizeName (family value : String) : String :=
  let chars := collapseBackslashes ((cleanReference value).toList.dropWhile isSeparator)
  if family = "php" then lower (String.ofList chars)
  else if family = "csharp" then String.ofList (dotColons (stripGlobals chars.length chars))
  else String.ofList chars

/-- The non-empty parts of a qualified name. -/
def nameParts (value : String) : List String :=
  ((value.toList.splitOnP isSeparator).map String.ofList).filter (· ≠ "")

def simpleName (value : String) : String := (nameParts value).getLast?.getD value

def firstSegment (value : String) : String := (nameParts value).head?.getD value

def joinQualified (family start rest : String) : String :=
  if start = "" then rest
  else if rest = "" then start
  else
    let separator :=
      if family = "php" then "\\" else if family = "rust" then "::" else if family = "go" then "/"
      else "."
    String.ofList (start.toList.reverse.dropWhile isSeparator).reverse ++ separator ++
      String.ofList (rest.toList.dropWhile isSeparator)

def hasColons : List Char → Bool
  | ':' :: ':' :: _ => true
  | _ :: rest => hasColons rest
  | [] => false

def isQualified (value : String) : Bool :=
  value.toList.head?.any isSeparator || '\\' ∈ value.toList || hasColons value.toList ||
    '.' ∈ value.toList || '/' ∈ value.toList

/-! ## Declarations and relations -/

structure Declaration where
  id : String
  name : String
  qualifiedName : String
  kind : String
  path : String
  language : String
  family : String
  line : ℕ
  scope : String
  deriving DecidableEq

inductive RelationSource where
  | declaration (id : String)
  | reference (reference : String)
  deriving DecidableEq

structure UnresolvedRelation where
  source : RelationSource
  target : String
  relation : String
  path : String
  family : String
  scope : String
  namespaceName : String
  aliases : List (String × String)
  deriving DecidableEq

/-- What a file says about types. -/
structure SourceFacts where
  declarations : List Declaration
  relations : List UnresolvedRelation

/-- A declaration at its index. -/
abbrev Item := Declaration × ℕ

/-! ## Resolving a reference -/

structure Indexes where
  qualified : List ((String × String) × List Item)
  simple : List ((String × String) × List Item)
  byId : List (String × Item)

def Indexes.new (declarations : List Declaration) : Indexes where
  qualified := groupBy
    (fun item : Item => (item.1.family, normalizeName lower item.1.family item.1.qualifiedName))
    (fun item => [item]) declarations.zipIdx
  simple := groupBy
    (fun item : Item => (item.1.family, normalizeName lower item.1.family item.1.name))
    (fun item => [item]) declarations.zipIdx
  byId := indexBy (fun item : Item => item.1.id) declarations.zipIdx

/-- A reference of C# that starts at the global namespace. -/
def isGlobal (family reference : String) : Bool :=
  family = "csharp" &&
    "global::".toList.isPrefixOf (reference.toList.dropWhile isWhitespace)

def aliasedName (relation : UnresolvedRelation) (reference : String) : Option String :=
  let normalized := normalizeName lower relation.family (cleanReference reference)
  let first := firstSegment normalized
  if isGlobal relation.family reference then none
  else
    (get? first relation.aliases).map fun target =>
      let rest := String.ofList
        ((if first.toList.isPrefixOf normalized.toList then
            normalized.toList.drop first.toList.length
          else []).dropWhile isSeparator)
      if rest = "" then target else joinQualified relation.family target rest

def namespacedName (relation : UnresolvedRelation) (reference : String) : Option String :=
  let relative :=
    if relation.family = "csharp" then
      !isGlobal relation.family reference && (aliasedName lower relation reference).isNone
    else !isQualified reference
  if relation.namespaceName ≠ "" ∧ relative then
    some (joinQualified relation.family relation.namespaceName
      (normalizeName lower relation.family (cleanReference reference)))
  else none

/-- The names under which a reference is looked for, in this order. -/
def candidateNames (relation : UnresolvedRelation) (reference : String) : List String :=
  (aliasedName lower relation reference).toList ++
    (namespacedName lower relation reference).toList ++
    [normalizeName lower relation.family (cleanReference reference)]

/-- The search for a qualified name: what is found, absent if the search stops without a result. -/
inductive Search where
  | found (item : Item)
  | stopped
  | missed

/-- The loop over the candidates. -/
def searchQualified (indexes : Indexes) (family : String) (aliased : Bool) : List String → Search
  | [] => .missed
  | candidate :: rest =>
    match get? (family, normalizeName lower family candidate) indexes.qualified with
    | some [item] => .found item
    | some _ =>
      if family = "csharp" then .stopped else searchQualified indexes family aliased rest
    | none =>
      if family = "csharp" ∧ aliased then .stopped
      else searchQualified indexes family aliased rest

/-- Whether a candidate shares its qualified name, which stops the search in C#. -/
def sharesQualifiedName (indexes : Indexes) (family : String) (item : Item) : Bool :=
  ((get? (family, normalizeName lower family item.1.qualifiedName)
    indexes.qualified).getD []).length > 1

/-- The search by the last part of a name: in the file, in the scope, at all. -/
def searchSimple (indexes : Indexes) (relation : UnresolvedRelation) (reference : String) :
    Option (Item × String) :=
  let family := relation.family
  let normalized := normalizeName lower family (cleanReference reference)
  (get? (family, normalizeName lower family (simpleName normalized))
    indexes.simple).bind fun candidates =>
      if family = "csharp" ∧ candidates.any (sharesQualifiedName lower indexes family) then none
      else
        match candidates.filter fun item => item.1.path = relation.path with
        | [item] => some (item, "same-file")
        | _ =>
          match candidates.filter fun item => item.1.scope = relation.scope with
          | [item] => some (item, "same-scope")
          | _ =>
            match candidates with
            | [item] => some (item, "unique-name")
            | _ => none

def resolveReference (indexes : Indexes) (relation : UnresolvedRelation) (reference : String) :
    Option (Item × String) :=
  if cleanReference reference = "" then none
  else
    let aliased := (aliasedName lower relation reference).isSome
    match searchQualified lower indexes relation.family aliased
      (candidateNames lower relation reference) with
    | .found item => some (item, "qualified")
    | .stopped => none
    | .missed =>
      if relation.family = "csharp" ∧ (isQualified reference || aliased) then none
      else searchSimple lower indexes relation reference

/-! ## The topology -/

/-- The source, the target and the kind of an edge. -/
abbrev EdgeKey := String ×ₗ String ×ₗ String

structure GraphSymbol where
  id : String
  name : String
  qualifiedName : String
  kind : String
  path : String
  language : String
  line : ℕ
  fanIn : ℕ
  fanOut : ℕ
  deriving DecidableEq

structure GraphSymbolEdge where
  source : String
  target : String
  relation : String
  resolver : String
  deriving DecidableEq

structure SymbolTopology where
  symbols : List GraphSymbol
  edges : List GraphSymbolEdge
  unresolvedRelations : ℕ
  unresolvedByPath : List (String × ℕ)

/-- How a relation ends. -/
inductive Outcome where
  | unresolved
  | selfReference
  | edge (key : EdgeKey) (resolver : String)
  deriving DecidableEq

def resolverRank (resolver : String) : ℕ :=
  if resolver = "qualified" then 0
  else if resolver = "same-file" then 1
  else if resolver = "same-scope" then 2
  else if resolver = "unique-name" then 3
  else 4

/-- The kind of a relation: C# does not write whether a base is a class or an interface. -/
def relationKind (relation : UnresolvedRelation) (source target : Declaration) : String :=
  if relation.family = "csharp" ∧ relation.relation = "inherits" then
    if source.kind = "interface" then "extends"
    else if target.kind = "interface" then "implements"
    else "extends"
  else relation.relation

def resolveSource (indexes : Indexes) (relation : UnresolvedRelation) : Option Item :=
  match relation.source with
  | .declaration id => get? id indexes.byId
  | .reference reference => (resolveReference lower indexes relation reference).map Prod.fst

/-- The body of the loop over the relations. -/
def outcome (indexes : Indexes) (relation : UnresolvedRelation) : Outcome :=
  match resolveSource lower indexes relation,
    resolveReference lower indexes relation relation.target with
  | some source, some (target, resolver) =>
    if source.2 = target.2 then .selfReference
    else
      .edge (toLex (source.1.id, toLex (target.1.id, relationKind relation source.1 target.1)))
        resolver
  | _, _ => .unresolved

/-- Record an edge: of two resolvers the stronger one stays. -/
def recordEdge (edges : List (EdgeKey × String)) : Outcome → List (EdgeKey × String)
  | .edge key resolver =>
    KeyedList.alter key (fun old =>
      match old with
      | some current => if resolverRank resolver < resolverRank current then resolver else current
      | none => resolver) edges
  | _ => edges

def toEdge (entry : EdgeKey × String) : GraphSymbolEdge where
  source := (ofLex entry.1).1
  target := (ofLex (ofLex entry.1).2).1
  relation := (ofLex (ofLex entry.1).2).2
  resolver := entry.2

/-- The edges, in the order of their keys. -/
def topologyEdges (outcomes : List Outcome) : List GraphSymbolEdge :=
  (sortBy (compareOn Prod.fst) (outcomes.foldl recordEdge [])).map toEdge

def toSymbol (edges : List GraphSymbolEdge) (declaration : Declaration) : GraphSymbol where
  id := declaration.id
  name := declaration.name
  qualifiedName := declaration.qualifiedName
  kind := declaration.kind
  path := declaration.path
  language := declaration.language
  line := declaration.line
  fanIn := edges.countP fun edge => edge.target = declaration.id
  fanOut := edges.countP fun edge => edge.source = declaration.id

def symbolKey (symbol : GraphSymbol) : String ×ₗ ℕ ×ₗ String :=
  toLex (symbol.path, toLex (symbol.line, symbol.qualifiedName))

def topologySymbols (edges : List GraphSymbolEdge) (declarations : List Declaration) :
    List GraphSymbol :=
  sortBy (compareOn symbolKey)
    ((declarations.filter fun declaration =>
      edges.any fun edge => edge.source = declaration.id ∨ edge.target = declaration.id).map
      (toSymbol edges))

/-- The facts of some files, in the order in which they were added. -/
def collected (facts : List SourceFacts) : SourceFacts where
  declarations := facts.flatMap SourceFacts.declarations
  relations := facts.flatMap SourceFacts.relations

def finish (collector : SourceFacts) : SymbolTopology :=
  let indexes := Indexes.new lower collector.declarations
  let outcomes := collector.relations.map fun relation => (relation, outcome lower indexes relation)
  let edges := topologyEdges (outcomes.map Prod.snd)
  let unresolved := outcomes.filter fun item => item.2 = .unresolved
  { symbols := topologySymbols edges collector.declarations
    edges
    unresolvedRelations := unresolved.length
    unresolvedByPath := unresolved.foldl
      (fun counts item => KeyedList.alter item.1.path (fun old => old.getD 0 + 1) counts) [] }

end Reposcout.Graph.Symbols
