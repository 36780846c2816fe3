import Reposcout.Graph.Imports
import Reposcout.Model.SyntaxTree

/-!
# What a Rust source imports

A `use` declaration is expanded into the paths of its leaves: the paths of the lists around a leaf
are collected as one text.  A `mod` item without a body names a module file, by its name or by the
`path` attribute among the named siblings before it.
-/

namespace Reposcout.Graph

/-! ## Use declarations -/

def rustNodeText (node : Cst) : Option String :=
  let text := trimText node.text.toList
  if text = [] then none else some (String.ofList text)

def joinRustPath (front suffix : String) : String :=
  if front = "" then suffix
  else if suffix = "self" then front
  else front ++ "::" ++ suffix

def isPathKind (kind : String) : Bool :=
  kind ∈ ["identifier", "scoped_identifier", "crate", "self", "super"]

mutual

def expandRustUse (front : String) : Cst → List String
  | node@(.node _ kind _ _ _ _ children) =>
    if kind = "scoped_use_list" then
      let nextFront :=
        match (node.childByFieldName "path").bind rustNodeText with
        | none => front
        | some path => joinRustPath front path
      expandField "list" nextFront children
    else if kind = "use_list" then expandNamed front children
    else if kind = "use_as_clause" then expandField "path" front children
    else if kind = "use_wildcard" then
      match (node.childByFieldName "path").bind rustNodeText with
      | none => []
      | some path => [joinRustPath front path]
    else if isPathKind kind then
      match rustNodeText node with
      | none => []
      | some path => [joinRustPath front path]
    else []

def expandField (name front : String) : List Cst → List String
  | [] => []
  | child :: rest =>
    if child.field = some name then expandRustUse front child else expandField name front rest

def expandNamed (front : String) : List Cst → List String
  | [] => []
  | child :: rest =>
    (if child.isNamed then expandRustUse front child else []) ++ expandNamed front rest

end

/-! ## Modules -/

def enclosingInlineRustModules (node : Node) : List String :=
  (node.ancestors.filterMap fun parent =>
    if parent.kind = "mod_item" ∧ (parent.childByFieldName "body").isSome then
      (parent.childByFieldName "name").map Cst.text
    else none).reverse

/-- `strip_static_quotes`: the quotes are ASCII, so the bytes that are compared are characters. -/
def stripStaticQuotes (text : List Char) : Option (List Char) :=
  match text with
  | [] => none
  | [_] => none
  | quote :: rest =>
    if quote ∈ ['\'', '"', '\x60'] ∧ rest.getLast? = some quote then some rest.dropLast else none

/-- What is behind the first sign of an attribute, without the bracket at its end. -/
def attributeValue (text : List Char) : Option (List Char) := do
  let (_, value) ← splitOnce ['='] text
  let value := trimText value
  if value.getLast? = some ']' then some (trimText value.dropLast) else none

/-- `rust_path_attribute`, of the named siblings before the node, the nearest first. -/
def rustPathAttribute : List Cst → Option String
  | [] => none
  | sibling :: rest =>
    if sibling.kind ≠ "attribute_item" then none
    else
      let text := trimText sibling.text.toList
      if "#[path".toList.isPrefixOf text then
        ((attributeValue text).bind stripStaticQuotes).map String.ofList
      else rustPathAttribute rest

/-- `extract_rust_node`, of a node behind its named siblings, the nearest first. -/
def extractRustNode (node : Node) (previous : List Cst) : List RustImport :=
  if node.kind = "mod_item" ∧ (node.childByFieldName "body").isNone then
    match node.tree.childByFieldName "name" with
    | none => []
    | some name =>
      [.module name.text (rustPathAttribute previous) (enclosingInlineRustModules node)]
  else if node.kind = "use_declaration" then
    match node.tree.childByFieldName "argument" with
    | none => []
    | some argument =>
      let paths := KeyedList.sortBy compare (expandRustUse "" argument).dedup
      paths.map fun path => .use path (enclosingInlineRustModules node)
  else []

end Reposcout.Graph
