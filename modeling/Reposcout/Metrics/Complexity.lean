import Reposcout.Findings.Build
import Reposcout.Metrics.Complexity.Languages
import Reposcout.Model.SyntaxTree

/-!
# Complexity from a syntax tree

Every callable of a file is a scope, and so is what lies outside of all callables.  A scope is
walked on its own: the walk skips the callables inside, and adds up what the nodes on its way
contribute to the cyclomatic and the cognitive complexity.

The walks of the source keep a stack of nodes; here they are recursions over the tree in the same
order.  Halstead numbers and the maintainability index are left out.
-/

namespace Reposcout.Metrics.Complexity

open KeyedList

open Findings (FunctionComplexity)

/-! ## Texts -/

def nodeText (tree : Cst) : List Char := tree.text.toList

def trimmedText (tree : Cst) : List Char := trimText (nodeText tree)

def startsWith (text : List Char) (start : String) : Bool := start.toList.isPrefixOf text

def isIdentifier (classes : CharClasses) : List Char → Bool
  | [] => false
  | first :: rest =>
    (first = '_' || classes.alphabetic first) &&
      rest.all fun c => c = '_' || classes.alphanumeric c

def isIdentifierLike : List Char → Bool
  | [] => false
  | first :: rest =>
    (first = '_' || first.isAlpha) && rest.all fun c => c = '_' || c.isAlphanum

def childCount (tree : Cst) : ℕ := tree.children.length

/-! ## Callables -/

def isFunctionNode (cfg : LangConfig) (tree : Cst) : Bool :=
  tree.isNamed && tree.kind ∈ cfg.functionKinds

def sameNode (tree root : Cst) : Bool :=
  tree.span.startByte = root.span.startByte && tree.span.endByte = root.span.endByte &&
    tree.kind = root.kind

/-! ## Boolean operators -/

/-- The operator that a node spells. -/
def booleanOperatorKind (fc : FirstClass) (tree : Cst) : Option String :=
  let text := trimmedText tree
  if text = "&&".toList then some "&&"
  else if text = "||".toList then some "||"
  else if text = "and".toList ∧
      (fc = .python ∨ tree.kind = "and" ∨ tree.kind = "boolean_operator") then some "and"
  else if text = "or".toList ∧
      (fc = .python ∨ tree.kind = "or" ∨ tree.kind = "boolean_operator") then some "or"
  else if text = "xor".toList ∧ fc = .php then some "xor"
  else none

def isBooleanOperatorToken (fc : FirstClass) (tree : Cst) : Bool :=
  (booleanOperatorKind fc tree).isSome

def isBooleanExpressionKind (kind : String) : Bool :=
  kind ∈ ["binary_expression", "binary_operator", "boolean_operator", "let_chain"]

def isTransparentBooleanGroup (kind : String) : Bool :=
  kind ∈ ["parenthesized_expression", "parenthical_expression"]

/-- The first operator among the children of a boolean expression. -/
def directBooleanOperator (fc : FirstClass) (tree : Cst) : Option String :=
  if isBooleanExpressionKind tree.kind then tree.children.findSome? (booleanOperatorKind fc)
  else none

/-- The climb of `is_boolean_sequence_root`: no enclosing expression takes the operators. -/
def climbsFree (fc : FirstClass) : List Cst → Bool
  | [] => true
  | ancestor :: rest =>
    if isTransparentBooleanGroup ancestor.kind then climbsFree fc rest
    else (directBooleanOperator fc ancestor).isNone

def isBooleanSequenceRoot (fc : FirstClass) (node : Node) : Bool :=
  (directBooleanOperator fc node.tree).isSome && climbsFree fc node.ancestors

mutual

/-- `collect_boolean_ops_in_order`. -/
def collectBooleanOps (fc : FirstClass) : Cst → List String
  | tree@(.node _ _ _ _ _ _ children) =>
    match booleanOperatorKind fc tree with
    | some op => [op]
    | none =>
      if isTransparentBooleanGroup tree.kind || (directBooleanOperator fc tree).isSome then
        collectBooleanOpsList fc children
      else []

def collectBooleanOpsList (fc : FirstClass) : List Cst → List String
  | [] => []
  | child :: rest => collectBooleanOps fc child ++ collectBooleanOpsList fc rest

end

def countOperator (state : ℕ × Option String) (op : String) : ℕ × Option String :=
  if state.2 ≠ some op then (satAdd32 state.1 1, some op) else state

def countBooleanSequences (fc : FirstClass) (tree : Cst) : ℕ :=
  ((collectBooleanOps fc tree).foldl countOperator (0, none)).1

/-! ## Cases -/

/-- The loop of `is_rust_binding_pattern`, at most as often as there are characters. -/
def stripBindingModes : ℕ → List Char → List Char
  | 0, pattern => pattern
  | fuel + 1, pattern =>
    match stripStart "&" pattern with
    | some rest => stripBindingModes fuel (trimStart rest)
    | none =>
      match stripStart "ref " pattern with
      | some rest => stripBindingModes fuel (trimStart rest)
      | none =>
        match stripStart "mut " pattern with
        | some rest => stripBindingModes fuel (trimStart rest)
        | none => pattern

def isRustBindingPattern (classes : CharClasses) (pattern : List Char) : Bool :=
  let pattern := trimText pattern
  let pattern := stripBindingModes pattern.length pattern
  if pattern = ['_'] then true
  else
    let pattern := (stripStart "r#" pattern).getD pattern
    isIdentifier classes pattern &&
      pattern.head?.any fun c => c = '_' || classes.lowercase c

def isPythonCapturePattern (classes : CharClasses) (pattern : List Char) : Bool :=
  let pattern := trimText pattern
  pattern = ['_'] ||
    (pattern ∉ ["True".toList, "False".toList, "None".toList] && isIdentifier classes pattern)

/-- The clause of a language whose clauses are read as text. -/
def isCatchAllText (text : List Char) : Bool :=
  let text := trimStart text
  if startsWith text "default" then true
  else
    match stripStart "case" text with
    | some rest =>
      let pattern := trimStart rest
      startsWith pattern "_" || startsWith pattern "default"
    | none =>
      match splitOnce "=>".toList text with
      | some (pattern, _) => trimText pattern = ['_']
      | none => false

def isGdCatchAll (tree : Cst) : Bool :=
  match tree.namedChildren.filter (·.kind ≠ "body") with
  | [pattern] => trimmedText pattern = ['_'] || pattern.kind = "pattern_binding"
  | _ => false

def isRustCatchAll (classes : CharClasses) (tree : Cst) : Bool :=
  match tree.childByFieldName "pattern" with
  | none => false
  | some pattern =>
    if (pattern.childByFieldName "condition").isSome then false
    else isRustBindingPattern classes (nodeText pattern)

def isPythonCatchAll (classes : CharClasses) (tree : Cst) : Bool :=
  if (tree.childByFieldName "guard").isSome then false
  else
    match tree.namedChildren.find? (·.kind = "case_pattern") with
    | none => false
    | some pattern => isPythonCapturePattern classes (nodeText pattern)

def isCatchAllCase (classes : CharClasses) (fc : FirstClass) (tree : Cst) : Bool :=
  if fc = .gdScript ∧ tree.kind = "pattern_section" then isGdCatchAll tree
  else if fc = .rust ∧ tree.kind = "match_arm" then isRustCatchAll classes tree
  else if fc = .python ∧ tree.kind = "case_clause" then isPythonCatchAll classes tree
  else isCatchAllText (nodeText tree)

/-! ## Decisions -/

def isCyclomaticOperatorToken (fc : FirstClass) (tree : Cst) : Bool :=
  isBooleanOperatorToken fc tree ||
    (fc ∈ [FirstClass.javaScript, .typeScript, .tsx, .php, .csharp] && childCount tree = 0 &&
      trimmedText tree = "??".toList)

def isShortCircuitAssignment (fc : FirstClass) (tree : Cst) : Bool :=
  if fc ∉ [FirstClass.javaScript, .typeScript, .tsx] ∨
      tree.kind ≠ "augmented_assignment_expression" then false
  else
    (tree.childByFieldName "operator").any fun operator =>
      trimmedText operator ∈ ["&&=".toList, "||=".toList, "??=".toList]

def decisionIncrement (classes : CharClasses) (fc : FirstClass) (cfg : LangConfig)
    (tree : Cst) : ℕ :=
  let increment := 0
  let increment :=
    if tree.kind ∈ cfg.decisionKinds then satAdd32 increment 1 else increment
  let increment :=
    if tree.kind ∈ cfg.caseKinds ∧ !isCatchAllCase classes fc tree then satAdd32 increment 1
    else increment
  let increment :=
    if isCyclomaticOperatorToken fc tree then satAdd32 increment 1 else increment
  if isShortCircuitAssignment fc tree then satAdd32 increment 1 else increment

/-! ## Jumps and alternatives -/

def parentKind (node : Node) : Option String := node.ancestors.head?.map Cst.kind

def isElseClause (cfg : LangConfig) (node : Node) : Bool :=
  if node.kind ∈ cfg.elseClauseKinds then true
  else if childCount node.tree = 0 then
    (trimmedText node.tree = "else".toList || trimmedText node.tree = "elif".toList) &&
      !(parentKind node).any fun kind => kind ∈ cfg.elseClauseKinds
  else false

def isElseIfNode (fc : FirstClass) (cfg : LangConfig) (node : Node) : Bool :=
  if node.kind ≠ "if_statement" ∧ node.kind ≠ "if_expression" then false
  else
    node.ancestors.head?.any fun parent =>
      parent.kind ∈ cfg.elseClauseKinds ||
        ((fc = .csharp || fc = .go) && parent.kind = "if_statement" &&
          (parent.childByFieldName "alternative").any fun child => child.id = node.tree.id)

/-- What stands behind a keyword, without blanks and semicolons. -/
def afterKeyword (rest : List Char) : List Char :=
  trimText (trimEndMatches (· = ';') (trimText rest))

def labeledJsJump (text : List Char) (keyword : String) : Bool :=
  ((stripStart keyword text).map afterKeyword).any fun label =>
    label ≠ [] && isIdentifierLike label

def isLabeledJump (fc : FirstClass) (cfg : LangConfig) (tree : Cst) : Bool :=
  if tree.kind ∉ cfg.jumpKinds then false
  else
    let text := trimmedText tree
    match fc with
    | .rust => startsWith text "break '" || startsWith text "continue '"
    | .javaScript | .typeScript | .tsx =>
      labeledJsJump text "break" || labeledJsJump text "continue"
    | .go =>
      startsWith text "goto " ||
        (stripStart "break " text).any (fun label => isIdentifierLike (trimText label)) ||
        (stripStart "continue " text).any fun label => isIdentifierLike (trimText label)
    | .python | .gdScript | .gdShader | .godotResource => false
    | .php =>
      (((stripStart "break" text).or (stripStart "continue" text)).map afterKeyword).any
        fun level => level ≠ [] && level ≠ ['1']
    | .csharp => startsWith text "goto "

/-! ## One scope -/

structure ScopeMetrics where
  decisionPoints : ℕ := 0
  cognitive : ℕ := 0
  maxNesting : ℕ := 0

mutual

/-- The nodes that a walk visits, each with its nesting.  Skipped nodes are left out with all
below them. -/
def visited (skips : Cst → Bool) (nests : Node → Bool) (nesting : ℕ) (ancestors : List Cst) :
    Cst → List (Node × ℕ)
  | tree@(.node _ _ _ _ _ _ children) =>
    if skips tree then []
    else
      (⟨tree, ancestors⟩, nesting) :: visitedList skips nests
          (if nests ⟨tree, ancestors⟩ then satAdd32 nesting 1 else nesting)
          (tree :: ancestors) children

def visitedList (skips : Cst → Bool) (nests : Node → Bool) (nesting : ℕ)
    (ancestors : List Cst) : List Cst → List (Node × ℕ)
  | [] => []
  | child :: rest =>
    visited skips nests nesting ancestors child ++ visitedList skips nests nesting ancestors rest

end

section

variable (classes : CharClasses) (fc : FirstClass) (cfg : LangConfig)

def increasesNesting (node : Node) : Bool :=
  node.kind ∈ cfg.nestingKinds && !isElseIfNode fc cfg node

/-- A walk from `root` does not enter the callables inside. -/
def skipsNested (root tree : Cst) : Bool :=
  !sameNode tree root && isFunctionNode cfg tree

/-- The body of the loop of `analyze_scope`. -/
def addNode (metrics : ScopeMetrics) (visit : Node × ℕ) : ScopeMetrics :=
  let (node, nesting) := visit
  let decisionPoints :=
    satAdd32 metrics.decisionPoints (decisionIncrement classes fc cfg node.tree)
  let cognitive := metrics.cognitive
  let cognitive :=
    if isBooleanSequenceRoot fc node then
      satAdd32 cognitive (countBooleanSequences fc node.tree)
    else cognitive
  let cognitive := if isLabeledJump fc cfg node.tree then satAdd32 cognitive 1 else cognitive
  let cognitive := if isElseClause cfg node then satAdd32 cognitive 1 else cognitive
  let cognitive :=
    if node.kind ∈ cfg.cognitiveStructureKinds ∧ !isElseIfNode fc cfg node then
      satAdd32 cognitive (satAdd32 1 nesting)
    else cognitive
  { decisionPoints, cognitive
    maxNesting :=
      if increasesNesting fc cfg node then max metrics.maxNesting (satAdd32 nesting 1)
      else metrics.maxNesting }

/-- The nodes of a scope, with their nesting. -/
def scopeVisits (root : Node) : List (Node × ℕ) :=
  visited (skipsNested cfg root.tree) (increasesNesting fc cfg) 0 root.ancestors root.tree

/-- `analyze_scope`, without nested functions. -/
def analyzeScope (root : Node) : ScopeMetrics :=
  (scopeVisits fc cfg root).foldl (addNode classes fc cfg) {}

/-! ## Names -/

def namedFieldText (tree : Cst) (field : String) : Option String :=
  ((tree.childByFieldName field).map trimmedText).filter (· ≠ []) |>.map String.ofList

/-- The loop of `first_child_text_of_kind`. -/
def firstChildTextOfKind (tree : Cst) (kind : String) : Option String :=
  (tree.children.find? fun child => child.kind = kind && trimmedText child ≠ []).map fun child =>
    String.ofList (trimmedText child)

def isAnonymousFunctionKind (kind : String) : Bool :=
  kind ∈ ["arrow_function", "closure_expression", "func_literal", "function",
    "function_expression", "generator_function", "anonymous_function", "lambda",
    "lambda_expression", "anonymous_method_expression"]

/-- The loop of `parent_binding_name` over the next ancestors. -/
def bindingName : ℕ → List Cst → Option String
  | 0, _ => none
  | _ + 1, [] => none
  | rounds + 1, current :: rest =>
    if isFunctionKind current.kind then none
    else
      match ["name", "left", "key", "pattern"].findSome? (namedFieldText current) with
      | some name => some name
      | none =>
        let bound :=
          if current.kind ∈ ["assignment", "assignment_expression", "const_declaration",
              "let_declaration", "lexical_declaration", "short_var_declaration",
              "variable_declarator"] then
            ["identifier", "field_identifier", "property_identifier"].findSome?
              (firstChildTextOfKind current)
          else none
        match bound with
        | some name => some name
        | none => bindingName rounds rest

def parentBindingName (node : Node) : Option String := bindingName 4 node.ancestors

def withoutDollar (name : String) : String := String.ofList (name.toList.dropWhile (· = '$'))

def anonymousName (tree : Cst) : String := s!"<anonymous:{tree.span.startLine}>"

/-- The name of the variable that an accessor belongs to. -/
def accessorName (node : Node) : Option String :=
  let accessor := if node.kind = "get_body" then "get" else "set"
  (node.ancestors.findSome? fun candidate =>
    if candidate.kind = "variable_statement" then namedFieldText candidate "name" else none).map
      fun name => name ++ "." ++ accessor

def functionName (node : Node) : String :=
  if node.kind = "constructor_definition" then "_init"
  else
    let accessor :=
      if node.kind = "get_body" ∨ node.kind = "set_body" then accessorName node else none
    match accessor.or (namedFieldText node.tree "name") with
    | some name => name
    | none =>
      if isAnonymousFunctionKind node.kind then
        ((parentBindingName node).map withoutDollar).getD (anonymousName node.tree)
      else
        (["identifier", "field_identifier", "property_identifier",
            "type_identifier"].findSome? (firstChildTextOfKind node.tree)).getD
          (((parentBindingName node).map withoutDollar).getD (anonymousName node.tree))

/-- A kind in which a text occurs. -/
def kindContains (kind part : String) : Bool :=
  kind.toList.tails.any fun rest => part.toList.isPrefixOf rest

def isSymbolContainer (kind : String) : Bool :=
  kindContains kind "class" || kindContains kind "interface" ||
    kind ∈ ["impl_item", "trait_item", "trait_declaration", "struct_item", "enum_item",
      "type_declaration"]

/-- What an ancestor adds to the key of a symbol. -/
def symbolPart (parent : Node) : Option String :=
  if isFunctionNode cfg parent.tree then some (functionName parent)
  else if isSymbolContainer parent.kind then
    ((((parent.tree.childByFieldName "name").or (parent.tree.childByFieldName "type")).map
      trimmedText).filter (· ≠ [])).map String.ofList
  else none

def ancestorNodes : List Cst → List Node
  | [] => []
  | parent :: rest => ⟨parent, rest⟩ :: ancestorNodes rest

def lexicalSymbolBase (node : Node) (name : String) : String :=
  "::".intercalate ((name :: (ancestorNodes node.ancestors).filterMap (symbolPart cfg)).reverse)

/-! ## Direct recursion -/

/-- The parts of a call target between dots and colons. -/
def targetParts (target : List Char) : List (List Char) :=
  target.splitOnP fun c => c = '.' || c = ':'

def callTargetMatches (target : List Char) (name : String) : Bool :=
  let target := trimText target
  if target = name.toList || startsWith target (name ++ "::<") then true
  else ((targetParts target).reverse.find? (· ≠ [])).any fun part => trimText part = name.toList

def recursiveCallMatches (tree : Cst) (name : String) : Bool :=
  if tree.kind ∈ ["member_call_expression", "nullsafe_member_call_expression"] then
    (tree.childByFieldName "object").any (fun object => trimmedText object = "$this".toList) &&
      (tree.childByFieldName "name").any fun target => callTargetMatches (nodeText target) name
  else if tree.kind = "scoped_call_expression" then
    (tree.childByFieldName "scope").any (fun scope =>
      trimmedText scope ∈ ["self".toList, "static".toList]) &&
      (tree.childByFieldName "name").any fun target => callTargetMatches (nodeText target) name
  else if tree.kind ∈ ["call", "call_expression", "function_call_expression",
      "invocation_expression"] then
    ((tree.childByFieldName "function").or tree.namedChildren.head?).any fun target =>
      callTargetMatches (nodeText target) name
  else false

/-- `directly_calls`: the walk is that of the scope. -/
def directlyCalls (root : Node) (name : String) : Bool :=
  if startsWith name.toList "<anonymous:" then false
  else (scopeVisits fc cfg root).any fun visit => recursiveCallMatches visit.1.tree name

/-! ## The file -/

/-- The nodes of callables, by their first byte. -/
def functionNodes (root : Cst) : List Node :=
  sortBy (fun left right => compare left.span.startByte right.span.startByte)
    ((root.nodes []).filter fun node => isFunctionNode cfg node.tree)

/-- The metrics of one callable; `occurrence` tells callables of one key apart. -/
def functionComplexity (node : Node) (baseKey : String) (occurrence : ℕ) : FunctionComplexity :=
  let metrics := analyzeScope classes fc cfg node
  let name := functionName node
  { name
    line := node.span.startLine
    endLine := node.span.endLine
    symbolKey := baseKey ++ "#" ++ toString occurrence
    cyclomatic := satAdd32 1 metrics.decisionPoints
    cognitive := satAdd32 metrics.cognitive (directlyCalls fc cfg node name).toNat
    maxNesting := metrics.maxNesting }

/-- One callable, after the callables and the number of occurrences of their keys so far. -/
def collectFunction (state : List FunctionComplexity × List (String × ℕ)) (node : Node) :
    List FunctionComplexity × List (String × ℕ) :=
  let baseKey := lexicalSymbolBase cfg node (functionName node)
  let occurrence := (get? baseKey state.2).getD 0 + 1
  (state.1 ++ [functionComplexity classes fc cfg node baseKey occurrence],
    KeyedList.alter baseKey (fun _ => occurrence) state.2)

def collectFunctions (root : Cst) : List FunctionComplexity :=
  ((functionNodes cfg root).foldl (collectFunction classes fc cfg) ([], [])).1

/-- What is reported of a file, without Halstead numbers. -/
structure FileComplexity where
  cyclomatic : ℕ
  cognitive : ℕ
  maxNesting : ℕ
  functions : List FunctionComplexity

end

def analyzeAst (classes : CharClasses) (fc : FirstClass) (root : Cst) : FileComplexity :=
  let cfg := config fc
  let topLevel := analyzeScope classes fc cfg ⟨root, []⟩
  let functions := collectFunctions classes fc cfg root
  { cyclomatic :=
      if functions = [] then satAdd32 1 topLevel.decisionPoints
      else functions.foldl (fun total function => satAdd32 total function.cyclomatic)
        topLevel.decisionPoints
    cognitive := functions.foldl (fun total function => satAdd32 total function.cognitive)
      topLevel.cognitive
    maxNesting := functions.foldl (fun deepest function => max deepest function.maxNesting)
      topLevel.maxNesting
    functions := sortBy (fun left right => compare left.line right.line) functions }

end Reposcout.Metrics.Complexity
