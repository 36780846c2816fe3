import Reposcout.Model.SourceQuery
import Reposcout.Model.SyntaxTree
import Reposcout.Model.Text

/-!
# Inline tests of Rust files

Which attributes make an item a test, and which lines are compiled for tests only.
-/

namespace Reposcout.Metrics.TestCov

/-! ## Attributes -/

def isIdentifier (text : String) (node : Cst) : Bool :=
  node.kind = "identifier" && node.text = text

mutual

def subtreeEnablesTest (positive : Bool) : Cst → Bool
  | .node _ kind _ _ _ text children =>
    if kind = "identifier" ∧ text = "test" then positive
    else childrenEnableTest positive (kind = "token_tree") false children

/-- The loop over the named children.  `negated` is set behind a `not` that has a next child. -/
def childrenEnableTest (positive inTokenTree negated : Bool) : List Cst → Bool
  | [] => false
  | child :: rest =>
    if child.isNamed then
      if negated then
        subtreeEnablesTest (!positive) child || childrenEnableTest positive inTokenTree false rest
      else if inTokenTree && isIdentifier "not" child && rest.any Cst.isNamed then
        childrenEnableTest positive inTokenTree true rest
      else
        subtreeEnablesTest positive child || childrenEnableTest positive inTokenTree false rest
    else childrenEnableTest positive inTokenTree negated rest

end

def attributeName (node : Cst) : Option String :=
  (node.namedChildren.find? fun child => child.kind ≠ "token_tree").map Cst.text

/-- The names of test functions. -/
def isTestName (name : String) : Bool :=
  name = "test" || "::test".toList.isSuffixOf name.toList

def isTestAttribute (node : Cst) : Bool :=
  match attributeName node with
  | none => false
  | some name =>
    isTestName name || (name = "cfg" &&
      ((node.childByFieldName "arguments").map (subtreeEnablesTest true)).getD false)

def isTestOnlyAttribute (node : Cst) : Bool :=
  match attributeName node with
  | none => false
  | some name =>
    isTestName name || (name = "cfg" &&
      ((node.childByFieldName "arguments").map fun arguments =>
        decide (arguments.text.toList.filter (fun c => !isWhitespace c) =
          "(test)".toList)).getD false)

/-! ## Places -/

/-- A node with the siblings behind it, and its ancestors with theirs. -/
structure Place where
  tree : Cst
  next : List Cst
  ancestors : List (Cst × List Cst)

mutual

/-- The named nodes in the order in which the stack gives them: the last child first. -/
def places (next : List Cst) (ancestors : List (Cst × List Cst)) : Cst → List Place
  | tree@(.node _ _ _ _ _ _ children) =>
    ⟨tree, next, ancestors⟩ :: placesList ((tree, next) :: ancestors) children

def placesList (ancestors : List (Cst × List Cst)) : List Cst → List Place
  | [] => []
  | child :: rest =>
    placesList ancestors rest ++ if child.isNamed then places rest ancestors child else []

end

def hasInlineRustTests (tree : Cst) : Bool :=
  (places [] [] tree).any fun place =>
    place.tree.kind = "attribute" && isTestAttribute place.tree

/-! ## Regions -/

/-- `attributed_item`: the next named sibling of the attribute item that is not one itself. -/
def attributedItem (place : Place) : Option Cst :=
  match place.ancestors with
  | [] => none
  | (parent, next) :: _ =>
    if parent.kind = "attribute_item" then
      (next.filter Cst.isNamed).find? fun sibling => sibling.kind ≠ "attribute_item"
    else none

/-- The loop of `merge_line_ranges`, with the last merged range. -/
def mergeFrom (previous : LineRange) : List LineRange → List LineRange
  | [] => [previous]
  | range :: rest =>
    if range.start ≤ previous.stop + 1 then
      mergeFrom ⟨previous.start, max previous.stop range.stop⟩ rest
    else previous :: mergeFrom range rest

/-- The order of `merge_line_ranges`. -/
def compareRanges : LineRange → LineRange → Ordering :=
  compareLex (compareOn LineRange.start) (compareOn LineRange.stop)

def mergeLineRanges (ranges : List LineRange) : List LineRange :=
  match KeyedList.sortBy compareRanges ranges with
  | [] => []
  | first :: rest => mergeFrom first rest

/-- The lines from a test-only attribute to the end of its item. -/
def testOnlyRange (place : Place) : Option LineRange :=
  if place.tree.kind = "attribute" && isTestOnlyAttribute place.tree then
    (attributedItem place).map fun item =>
      ⟨place.tree.span.startLine, item.span.endLine⟩
  else none

def inlineRustTestRegions (tree : Cst) : List LineRange :=
  mergeLineRanges ((places [] [] tree).filterMap testOnlyRange)

end Reposcout.Metrics.TestCov
