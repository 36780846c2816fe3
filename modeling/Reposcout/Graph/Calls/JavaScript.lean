import Reposcout.Graph.Calls.Extract
import Reposcout.Model.SyntaxTree
import Reposcout.Model.Text

/-!
# Calls and references in JavaScript and TypeScript

The walk over the syntax tree of a file, and what it records at each node: imports, export names,
the scopes of declarations, the names that shadow others, and the relations.
-/

namespace Reposcout.Graph.Calls

def maxNodesPerFile : ℕ := 100000

namespace State

def new (language path sourceHash content : String) (root : Cst) (rootHasError : Bool)
    (definitions : DefinitionFacts) : State where
  language
  path
  sourceHash
  rootSpan := root.span
  fileSpan := ⟨0, content.utf8ByteSize, 1, max (textLines content).length 1⟩
  rootHasError
  definitions
  imports := []
  observed := []
  shadows := []
  declarationScopes := []
  hoistedDeclarations := []
  directExports := []
  exportAliases := []
  overloadedNames := []
  omittedRelations := 0
  nodesTruncated := false
  factsTruncated := false

def pushShadow (state : State) (binding : ShadowBinding) : State :=
  { state with shadows := state.shadows ++ [binding] }

def shadowIn (scope : SourceSpan) (state : State) (name : String) : State :=
  state.pushShadow ⟨name, scope, scope.startByte⟩

def setDeclarationScope (state : State) (key : DeclarationKey) (scope : SourceSpan) : State :=
  { state with
    declarationScopes := KeyedList.alter key (fun _ => scope) state.declarationScopes }

def markDeclarationHoisted (state : State) (key : DeclarationKey) : State :=
  { state with hoistedDeclarations := key :: state.hoistedDeclarations }

def addDirectExport (state : State) (key : DeclarationKey) (name : String) : State :=
  { state with
    directExports :=
      KeyedList.alter key (fun names => names.getD [] ++ [name]) state.directExports }

def addExportAlias (state : State) (entry : String × String) : State :=
  { state with
    exportAliases :=
      KeyedList.alter entry.1 (fun names => names.getD [] ++ [entry.2]) state.exportAliases }

def markOverloaded (state : State) (name : String) : State :=
  { state with overloadedNames := name :: state.overloadedNames }

end State

/-! ## Scopes and definitions -/

def enclosingScope (node : Node) : SourceSpan :=
  ((node.ancestors.find? fun parent =>
    parent.kind ∈ ["block", "statement_block", "class_body", "declaration_list", "program",
      "source_file"]).getD node.tree).span

def matchDefinition (node : Node) (definitions : DefinitionFacts) : Option DeclarationKey :=
  (KeyedList.sortBy (fun left right =>
      compare (node.span.startByte - left.declarationSpan.startByte)
        (node.span.startByte - right.declarationSpan.startByte))
    (definitions.definitions.filter fun definition =>
      definition.declarationSpan.startByte ≤ node.span.startByte &&
        definition.declarationSpan.endByte = node.span.endByte)).head?.map declarationKey

def isCallTarget (node : Node) : Bool :=
  node.parent.any fun parent =>
    parent.kind = "call_expression" &&
      (parent.tree.childByFieldName "function").any fun function => function.id = node.tree.id

def isInsideHandledTarget (node : Node) : Bool :=
  (node.ancestors.findSome? fun parent =>
    if parent.kind ∈
        ["member_expression", "subscript_expression", "field_expression", "scoped_identifier"] then
      some true
    else if parent.kind = "call_expression" &&
        (parent.childByFieldName "function").any fun function =>
          function.span.startByte ≤ node.span.startByte &&
            node.span.endByte ≤ function.span.endByte then
      some true
    else if parent.kind ∈
        ["arguments", "binary_expression", "unary_expression", "return_expression",
          "return_statement", "expression_statement"] then
      some false
    else none).getD false

def isDeclarationName (node : Node) : Bool :=
  node.parent.any fun parent =>
    (parent.tree.childByFieldName "name").any (fun name => name.id = node.tree.id) &&
      parent.kind ∈ ["function_item", "function_declaration", "generator_function_declaration",
          "class_declaration", "method_definition", "variable_declarator"]

/-! ## Texts -/

/-- `text.trim_start().starts_with(start)`. -/
def startsTrimmed (text start : String) : Bool :=
  start.toList.isPrefixOf (text.toList.dropWhile isWhitespace)

/-- `text.contains(part)`. -/
def textContains (text part : String) : Bool :=
  text.toList.tails.any fun rest => part.toList.isPrefixOf rest

def stripQuotes (text : String) : Option String :=
  let within (quote : Char) : Option String :=
    match text.toList with
    | first :: rest =>
      if first = quote ∧ rest.getLast? = some quote then some (String.ofList rest.dropLast)
      else none
    | [] => none
  (within '\x22').or (within '\x27')

namespace JavaScript

mutual

def patternNames : Cst → List String
  | .node _ kind _ _ _ text children =>
    if kind = "identifier" ∨ kind = "shorthand_property_identifier_pattern" then [text]
    else if kind = "type_annotation" ∨ kind = "default_type" then []
    else patternNamesList children

def patternNamesList : List Cst → List String
  | [] => []
  | child :: rest => (if child.isNamed then patternNames child else []) ++ patternNamesList rest

end

def patternIdentifiers (root : Cst) : List String :=
  (KeyedList.sortBy compare (patternNames root)).eraseReps

def isCallableVariable (node : Node) : Bool :=
  (node.tree.childByFieldName "value").any fun value =>
    value.kind ∈ ["arrow_function", "function_expression", "generator_function"]

def isVarDeclaration (node : Node) : Bool :=
  node.parent.any fun parent => startsTrimmed parent.text "var "

def functionOrProgramScope (node : Node) : SourceSpan :=
  (node.ancestors.findSome? fun parent =>
    let body :=
      if parent.kind ∈
          ["function_declaration", "generator_function_declaration", "function_expression",
            "generator_function", "arrow_function", "method_definition"] then
        parent.childByFieldName "body"
      else none
    match body with
    | some body => some body.span
    | none => if parent.kind = "program" then some parent.span else none).getD
      (enclosingScope node)

def isNonReferenceIdentifier (node : Node) : Bool :=
  (node.ancestors.findSome? fun parent =>
    if parent.kind ∈ ["import_statement", "import_clause", "import_specifier", "namespace_import",
          "export_specifier", "formal_parameters", "required_parameter", "optional_parameter",
          "rest_pattern", "array_pattern", "object_pattern", "pair_pattern", "type_annotation",
          "type_arguments", "type_parameters", "interface_declaration",
          "type_alias_declaration"] then
      some true
    else if parent.kind ∈ ["arguments", "binary_expression", "unary_expression", "return_statement",
          "expression_statement", "variable_declarator", "pair", "array"] then
      some false
    else none).getD true

/-! ## Imports -/

/-- The names that a child of an import clause binds: the imported name, the local name, the kind
and the span. -/
def clauseBindings (importSpan : SourceSpan) (child : Cst) :
    List (String × String × CallImportKind × SourceSpan) :=
  if child.kind = "identifier" then [("default", child.text, .defaultImport, importSpan)]
  else if child.kind = "namespace_import" then
    match child.namedChildren with
    | [] => []
    | value :: _ => [("*", value.text, .namespaceImport, importSpan)]
  else if child.kind = "named_imports" then
    (child.namedChildren.filter fun specifier => specifier.kind = "import_specifier").filterMap
      fun specifier =>
        (specifier.childByFieldName "name").map fun name =>
          let localName := ((specifier.childByFieldName "alias").map Cst.text).getD name.text
          ((stripQuotes name.text).getD name.text, localName, .namedImport, specifier.span)
  else []

def extractImport (node : Node) (state : State) : State :=
  match ((node.tree.childByFieldName "source").map Cst.text).bind stripQuotes with
  | none => state
  | some module =>
    match node.tree.namedChildren.find? fun child => child.kind = "import_clause" with
    | none => state
    | some clause =>
      (clause.namedChildren.flatMap (clauseBindings node.span)).foldl
        (fun state (importedName, localName, kind, span) =>
          state.pushImport
            { moduleSpecifier := module
              importedName
              localName
              kind
              span
              scopeSpan := state.rootSpan
              inlineModules := [] })
        state

/-! ## Exports -/

/-- The local and the exported name of an export specifier. -/
def specifierAlias (candidate : Cst) : Option (String × String) :=
  if candidate.kind = "export_specifier" then
    let localName :=
      ((candidate.childByFieldName "name").or candidate.namedChildren[0]?).map Cst.text
    let exported :=
      (((candidate.childByFieldName "alias").or candidate.namedChildren[1]?).map Cst.text).or
        localName
    match localName, exported with
    | some localName, some exported =>
      some ((stripQuotes localName).getD localName, (stripQuotes exported).getD exported)
    | _, _ => none
  else none

/-- A value that is exported by its name. -/
def defaultAlias (node : Cst) : Option (String × String) :=
  match node.childByFieldName "value" with
  | some value =>
    if value.kind = "identifier" ∧ startsTrimmed node.text "export default" then
      some (value.text, "default")
    else none
  | none => none

/-- The local names that an export statement gives another name to, or their own. -/
def exportedAliases (node : Cst) : List (String × String) :=
  if (node.childByFieldName "source").isSome then []
  else
    (Cst.reversePreorderList [] node.children).filterMap (fun node => specifierAlias node.tree) ++
      (defaultAlias node).toList

def extractExportAliases (node : Node) (state : State) : State :=
  (exportedAliases node.tree).foldl State.addExportAlias state

/-- The export statement around a declaration, with no block between them. -/
def exportStatement : List Cst → Option Cst
  | [] => none
  | candidate :: rest =>
    if candidate.kind = "export_statement" then some candidate
    else if candidate.kind = "program" ∨ candidate.kind = "statement_block" then none
    else exportStatement rest

/-- The name under which a declaration is exported where it stands. -/
def directExport (node : Node) : Option String :=
  ((exportStatement node.ancestors).map fun candidate =>
    if startsTrimmed candidate.text "export default" then "default"
    else ((node.tree.childByFieldName "name").map Cst.text).getD "").filter (· ≠ "")

/-! ## Declarations -/

def recordVariableShadow (node : Node) (state : State) : State :=
  match node.tree.childByFieldName "name" with
  | none => state
  | some name =>
    let scope := if isVarDeclaration node then functionOrProgramScope node else enclosingScope node
    (patternIdentifiers name).foldl (State.shadowIn scope) state

def declarationScope (node : Node) : SourceSpan :=
  if node.kind = "variable_declarator" ∧ isVarDeclaration node then functionOrProgramScope node
  else enclosingScope node

def recordDeclarationMetadata (node : Node) (state : State) : State :=
  if node.kind = "variable_declarator" ∧ ¬ isCallableVariable node then
    recordVariableShadow node state
  else
    match matchDefinition node state.definitions with
    | none => state
    | some key =>
      let state := state.setDeclarationScope key (declarationScope node)
      let state :=
        if node.kind ∈ ["function_declaration", "generator_function_declaration"] then
          state.markDeclarationHoisted key
        else state
      match directExport node with
      | none => state
      | some name => state.addDirectExport key name

def recordOverload (node : Node) (state : State) : State :=
  match node.tree.childByFieldName "name" with
  | none => state
  | some name => state.markOverloaded name.text

/-! ## Shadowing names -/

def recordParameters (node : Node) (state : State) : State :=
  let scope := ((node.parent.bind fun parent => parent.tree.childByFieldName "body").map
    Cst.span).getD (enclosingScope node)
  (patternIdentifiers node.tree).foldl (State.shadowIn scope) state

def recordArrowParameter (node : Node) (state : State) : State :=
  match node.tree.childByFieldName "parameter" with
  | none => state
  | some parameter => state.shadowIn node.span parameter.text

def recordCatchParameter (node : Node) (state : State) : State :=
  match node.tree.childByFieldName "parameter" with
  | none => state
  | some parameter => (patternIdentifiers parameter).foldl (State.shadowIn node.span) state

def recordLoopBinding (node : Node) (state : State) : State :=
  match ((node.tree.childrenByFieldName "kind").map Cst.text).find? fun kind =>
      kind ∈ ["const", "let", "var", "using"] with
  | none => state
  | some keyword =>
    match node.tree.childByFieldName "left" with
    | none => state
    | some left =>
      let scope := if keyword = "var" then functionOrProgramScope node else node.span
      (patternIdentifiers left).foldl (State.shadowIn scope) state

/-! ## Relations -/

def expressionForm (node : Cst) : ObservedForm :=
  if node.kind = "identifier" then .bare node.text
  else if node.kind = "member_expression" then
    match node.childByFieldName "object", node.childByFieldName "property" with
    | some object, some property =>
      if object.kind = "identifier" then
        .objectMember object.text property.text
          ((node.childByFieldName "optional_chain").isSome || textContains node.text "?.")
      else .dynamic "member-chain"
    | _, _ => .dynamic "member-chain"
  else if node.kind = "subscript_expression" then .dynamic "computed-member"
  else if node.kind = "import" then .dynamic "dynamic-import"
  else .dynamic node.kind

def recordCall (node : Node) (state : State) : State :=
  if (node.tree.childByFieldName "optional_chain").isSome ∨ textContains node.text "?.(" then
    state.pushRelation ⟨.call, node.span, .dynamic "optional-call"⟩
  else
    match node.tree.childByFieldName "function" with
    | none => state
    | some function => state.pushRelation ⟨.call, node.span, expressionForm function⟩

def recordMemberReference (node : Node) (state : State) : State :=
  state.pushRelation ⟨.reference, node.span, expressionForm node.tree⟩

def recordIdentifier (node : Node) (state : State) : State :=
  if isDeclarationName node || isInsideHandledTarget node || isNonReferenceIdentifier node then
    state
  else state.pushRelation ⟨.reference, node.span, .bare node.text⟩

/-! ## The walk -/

/-- The kinds of nodes with `record_declaration_metadata`. -/
def metadataKinds : List String :=
  ["function_declaration", "generator_function_declaration", "class_declaration",
    "enum_declaration", "interface_declaration", "type_alias_declaration", "method_definition",
    "variable_declarator"]

def visit (state : State) (node : Node) : State :=
  if node.kind = "import_statement" then extractImport node state
  else if node.kind = "export_statement" then extractExportAliases node state
  else if node.kind ∈ metadataKinds then recordDeclarationMetadata node state
  else if node.kind = "function_signature" then recordOverload node state
  else if node.kind = "formal_parameters" then recordParameters node state
  else if node.kind = "arrow_function" then recordArrowParameter node state
  else if node.kind = "catch_clause" then recordCatchParameter node state
  else if node.kind = "for_in_statement" then recordLoopBinding node state
  else if node.kind = "call_expression" then recordCall node state
  else if node.kind = "member_expression" ∧ ¬ isCallTarget node then
    recordMemberReference node state
  else if node.kind = "subscript_expression" ∧ ¬ isCallTarget node then
    state.pushRelation ⟨.reference, node.span, .dynamic "computed-member"⟩
  else if node.kind = "identifier" then recordIdentifier node state
  else state

/-- The nodes that the walk visits. -/
def visited (root : Cst) : List Node := (root.preorder []).take maxNodesPerFile

/-- The walk over the nodes of a file. -/
def walk (language path sourceHash content : String) (root : Cst) (rootHasError : Bool)
    (definitions : DefinitionFacts) : State :=
  let state := (visited root).foldl visit
    (.new language path sourceHash content root rootHasError definitions)
  if maxNodesPerFile < (root.preorder []).length then { state with nodesTruncated := true }
  else state

/-- `extract`, for JavaScript and TypeScript. -/
def extract (language path sourceHash content : String) (root : Cst) (rootHasError : Bool)
    (definitions : DefinitionFacts) : CallReferenceFacts :=
  (walk language path sourceHash content root rootHasError definitions).finish

end JavaScript

end Reposcout.Graph.Calls
