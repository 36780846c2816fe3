import Reposcout.Properties.Metrics.Complexity.BooleanSequences
import Reposcout.Properties.Metrics.Complexity.Scopes

/-!
# Changes inside of a callable

The metrics of a callable are read off its own code: where it stands is nothing to them, and the
code of a callable inside of it neither, but for the texts around that code that are read as a
whole.
-/

namespace Reposcout

open List Option

namespace Cst

mutual

/-- A tree without the places of its nodes. -/
def unplaced : Cst → Cst
  | node id kind field isNamed _ text children =>
    node id kind field isNamed default text (unplacedList children)

def unplacedList : List Cst → List Cst
  | [] => []
  | child :: rest => unplaced child :: unplacedList rest

end

lemma unplacedList_eq_map (trees : List Cst) : unplacedList trees = trees.map unplaced := by
  induction trees with
  | nil => rfl
  | cons child rest ih => rw [unplacedList, map_cons, ih]

section

variable (tree : Cst)

@[simp] lemma id_unplaced : tree.unplaced.id = tree.id := by
  cases tree; rfl

@[simp] lemma kind_unplaced : tree.unplaced.kind = tree.kind := by
  cases tree; rfl

@[simp] lemma field_unplaced : tree.unplaced.field = tree.field := by
  cases tree; rfl

@[simp] lemma isNamed_unplaced : tree.unplaced.isNamed = tree.isNamed := by
  cases tree; rfl

@[simp] lemma text_unplaced : tree.unplaced.text = tree.text := by
  cases tree; rfl

@[simp] lemma children_unplaced : tree.unplaced.children = tree.children.map unplaced := by
  cases tree with
  | node => rw [unplaced, children, children, unplacedList_eq_map]

@[simp] lemma childByFieldName_unplaced (name : String) :
    tree.unplaced.childByFieldName name = (tree.childByFieldName name).map unplaced := by
  simp [childByFieldName, Function.comp_def]

@[simp] lemma namedChildren_unplaced :
    tree.unplaced.namedChildren = tree.namedChildren.map unplaced := by
  simp only [namedChildren, children_unplaced, List.filter_map, Function.comp_def, isNamed_unplaced]

end

end Cst

namespace Metrics.Complexity

open Findings (FunctionComplexity)

variable {classes : CharClasses} {fc : FirstClass} {cfg : LangConfig}

/-! ## What is read of a tree -/

section

variable (tree : Cst)

@[simp] lemma nodeText_unplaced : nodeText tree.unplaced = nodeText tree := by
  rw [nodeText, Cst.text_unplaced, nodeText]

@[simp] lemma trimmedText_unplaced : trimmedText tree.unplaced = trimmedText tree := by
  rw [trimmedText, nodeText_unplaced, trimmedText]

@[simp] lemma childCount_unplaced : childCount tree.unplaced = childCount tree := by
  rw [childCount, Cst.children_unplaced, length_map, childCount]

@[simp] lemma booleanOperatorKind_unplaced :
    booleanOperatorKind fc tree.unplaced = booleanOperatorKind fc tree := by
  simp only [booleanOperatorKind, trimmedText_unplaced, Cst.kind_unplaced]

@[simp] lemma directBooleanOperator_unplaced :
    directBooleanOperator fc tree.unplaced = directBooleanOperator fc tree := by
  simp only [directBooleanOperator, Cst.kind_unplaced, Cst.children_unplaced, findSome?_map,
    Function.comp_def, booleanOperatorKind_unplaced]

@[simp] lemma isCyclomaticOperatorToken_unplaced :
    isCyclomaticOperatorToken fc tree.unplaced = isCyclomaticOperatorToken fc tree := by
  simp only [isCyclomaticOperatorToken, isBooleanOperatorToken, booleanOperatorKind_unplaced,
    childCount_unplaced, trimmedText_unplaced]

@[simp] lemma isShortCircuitAssignment_unplaced :
    isShortCircuitAssignment fc tree.unplaced = isShortCircuitAssignment fc tree := by
  simp [isShortCircuitAssignment, Option.any_map]

@[simp] lemma isLabeledJump_unplaced :
    isLabeledJump fc cfg tree.unplaced = isLabeledJump fc cfg tree := by
  simp [isLabeledJump]

@[simp] lemma isCatchAllCase_unplaced :
    isCatchAllCase classes fc tree.unplaced = isCatchAllCase classes fc tree := by
  have hgd : isGdCatchAll tree.unplaced = isGdCatchAll tree := by
    simp only [isGdCatchAll, Cst.namedChildren_unplaced, List.filter_map, Function.comp_def,
      Cst.kind_unplaced]
    generalize tree.namedChildren.filter (·.kind ≠ "body") = patterns
    rcases patterns with _ | ⟨pattern, _ | ⟨other, rest⟩⟩
    · rfl
    · simp
    · rfl
  have hrust : isRustCatchAll classes tree.unplaced = isRustCatchAll classes tree := by
    simp only [isRustCatchAll, Cst.childByFieldName_unplaced]
    cases tree.childByFieldName "pattern" with
    | none => rfl
    | some pattern => simp
  have hpython : isPythonCatchAll classes tree.unplaced = isPythonCatchAll classes tree := by
    simp only [isPythonCatchAll, Cst.childByFieldName_unplaced, Cst.namedChildren_unplaced,
      find?_map, Function.comp_def, Cst.kind_unplaced, isSome_map]
    cases tree.namedChildren.find? (·.kind = "case_pattern") with
    | none => rfl
    | some pattern => simp
  simp only [isCatchAllCase, hgd, hrust, hpython, Cst.kind_unplaced, nodeText_unplaced]

@[simp] lemma recursiveCallMatches_unplaced :
    recursiveCallMatches tree.unplaced = recursiveCallMatches tree := by
  funext name
  simp only [recursiveCallMatches, Cst.kind_unplaced, Cst.childByFieldName_unplaced,
    Cst.namedChildren_unplaced, head?_map, ← map_or, Option.any_map,
    trimmedText_unplaced, nodeText_unplaced]

end

lemma collectBooleanOpsList_eq_flatMap (trees : List Cst) :
    collectBooleanOpsList fc trees = trees.flatMap (collectBooleanOps fc) := by
  induction trees with
  | nil => rfl
  | cons child rest ih => rw [collectBooleanOpsList, flatMap_cons, ih]

lemma collectBooleanOps_eq_flatMap (tree : Cst) : collectBooleanOps fc tree =
      match booleanOperatorKind fc tree with
      | some op => [op]
      | none =>
        if isTransparentBooleanGroup tree.kind || (directBooleanOperator fc tree).isSome then
          tree.children.flatMap (collectBooleanOps fc)
        else [] := by
  cases tree with
  | node =>
    rw [collectBooleanOps, collectBooleanOpsList_eq_flatMap]
    rfl

lemma collectBooleanOps_unplaced (tree : Cst) :
    collectBooleanOps fc tree.unplaced = collectBooleanOps fc tree := by
  induction tree using Cst.induction_children with
  | step tree ih =>
    have hchildren : tree.unplaced.children.flatMap (collectBooleanOps fc) =
        tree.children.flatMap (collectBooleanOps fc) := by
      rw [Cst.children_unplaced, flatMap_map]
      exact flatMap_congr ih
    rw [collectBooleanOps_eq_flatMap, collectBooleanOps_eq_flatMap tree, hchildren,
      booleanOperatorKind_unplaced, Cst.kind_unplaced, directBooleanOperator_unplaced]

/-- What the walks read of a tree, apart from its children. -/
structure TreeReading where
  id : ℕ
  kind : String
  isNamed : Bool
  catchAll : Bool
  operatorToken : Bool
  shortCircuit : Bool
  /-- The operator of a boolean expression. -/
  operator : Option String
  sequences : ℕ
  labeledJump : Bool
  /-- A bare `else` or `elif`. -/
  keyword : Bool
  /-- The node that is the alternative. -/
  alternative : Option ℕ
  calls : String → Bool

def readTree (classes : CharClasses) (fc : FirstClass) (cfg : LangConfig) (tree : Cst) :
    TreeReading where
  id := tree.id
  kind := tree.kind
  isNamed := tree.isNamed
  catchAll := isCatchAllCase classes fc tree
  operatorToken := isCyclomaticOperatorToken fc tree
  shortCircuit := isShortCircuitAssignment fc tree
  operator := directBooleanOperator fc tree
  sequences := countBooleanSequences fc tree
  labeledJump := isLabeledJump fc cfg tree
  keyword := childCount tree = 0 &&
    (trimmedText tree = "else".toList || trimmedText tree = "elif".toList)
  alternative := (tree.childByFieldName "alternative").map Cst.id
  calls := recursiveCallMatches tree

lemma readTree_unplaced (tree : Cst) :
    readTree classes fc cfg tree.unplaced = readTree classes fc cfg tree := by
  have hsequences : countBooleanSequences fc tree.unplaced = countBooleanSequences fc tree := by
    rw [countBooleanSequences, collectBooleanOps_unplaced, countBooleanSequences]
  simp only [readTree, hsequences, Cst.id_unplaced, Cst.kind_unplaced, Cst.isNamed_unplaced,
    isCatchAllCase_unplaced, isCyclomaticOperatorToken_unplaced, isShortCircuitAssignment_unplaced,
    directBooleanOperator_unplaced, isLabeledJump_unplaced, childCount_unplaced,
    trimmedText_unplaced, Cst.childByFieldName_unplaced, Option.map_map, Function.comp_def,
    recursiveCallMatches_unplaced]

/-! ## What is read of a node -/

/-- `is_boolean_sequence_root`, as it climbs. -/
def climbs : List TreeReading → Bool
  | [] => true
  | read :: rest =>
    if isTransparentBooleanGroup read.kind then climbs rest else read.operator.isNone

lemma climbsFree_eq (ancestors : List Cst) :
    climbsFree fc ancestors = climbs (ancestors.map (readTree classes fc cfg)) := by
  induction ancestors with
  | nil => rfl
  | cons ancestor rest ih =>
    rw [climbsFree, ih, map_cons, climbs]
    rfl

/-- What the walks read of a node. -/
structure Reading where
  callable : Bool
  decisions : ℕ
  sequenceRoot : Bool
  sequences : ℕ
  labeledJump : Bool
  elseClause : Bool
  structural : Bool
  nests : Bool
  calls : String → Bool

section

variable (fc cfg)

def readsElseIf (read : TreeReading) (around : List TreeReading) : Bool :=
  if read.kind ≠ "if_statement" ∧ read.kind ≠ "if_expression" then false
  else
    around.head?.any fun parent =>
      parent.kind ∈ cfg.elseClauseKinds ||
        ((fc = .csharp || fc = .go) && parent.kind = "if_statement" &&
          parent.alternative = some read.id)

def readsElse (read : TreeReading) (around : List TreeReading) : Bool :=
  if read.kind ∈ cfg.elseClauseKinds then true
  else read.keyword && !around.head?.any fun parent => parent.kind ∈ cfg.elseClauseKinds

def readingOf (read : TreeReading) (around : List TreeReading) : Reading where
  callable := read.isNamed && read.kind ∈ cfg.functionKinds
  decisions :=
    let increment := if read.kind ∈ cfg.decisionKinds then satAdd32 0 1 else 0
    let increment :=
      if read.kind ∈ cfg.caseKinds ∧ !read.catchAll then satAdd32 increment 1 else increment
    let increment := if read.operatorToken then satAdd32 increment 1 else increment
    if read.shortCircuit then satAdd32 increment 1 else increment
  sequenceRoot := read.operator.isSome && climbs around
  sequences := read.sequences
  labeledJump := read.labeledJump
  elseClause := readsElse cfg read around
  structural := read.kind ∈ cfg.cognitiveStructureKinds ∧ !readsElseIf fc cfg read around
  nests := read.kind ∈ cfg.nestingKinds && !readsElseIf fc cfg read around
  calls := read.calls

variable (classes)

def reading (place : Node) : Reading :=
  readingOf fc cfg (readTree classes fc cfg place.tree)
    (place.ancestors.map (readTree classes fc cfg))

end

lemma isElseIfNode_eq (place : Node) :
    isElseIfNode fc cfg place = readsElseIf fc cfg (readTree classes fc cfg place.tree)
      (place.ancestors.map (readTree classes fc cfg)) := by
  have hany : ∀ parent : Cst, ((parent.childByFieldName "alternative").any fun child =>
      child.id = place.tree.id) =
        decide ((parent.childByFieldName "alternative").map Cst.id = some place.tree.id) := by
    intro parent
    cases parent.childByFieldName "alternative" <;> simp
  rw [isElseIfNode, readsElseIf, head?_map, Option.any_map]
  simp only [hany]
  rfl

lemma isElseClause_eq (place : Node) :
    isElseClause cfg place = readsElse cfg (readTree classes fc cfg place.tree)
      (place.ancestors.map (readTree classes fc cfg)) := by
  rw [isElseClause, readsElse, head?_map, Option.any_map, parentKind, Option.any_map]
  by_cases hleaf : childCount place.tree = 0
  · simp only [hleaf, readTree, if_true, decide_true, Bool.true_and]
    rfl
  · simp only [hleaf, readTree, if_false, decide_false, Bool.false_and]
    rfl

/-- The body of the loop of `analyze_scope`, on what is read of a node. -/
def addReading (metrics : ScopeMetrics) (visit : Reading × ℕ) : ScopeMetrics :=
  let (read, nesting) := visit
  let cognitive := metrics.cognitive
  let cognitive :=
    if read.sequenceRoot then satAdd32 cognitive read.sequences else cognitive
  let cognitive := if read.labeledJump then satAdd32 cognitive 1 else cognitive
  let cognitive := if read.elseClause then satAdd32 cognitive 1 else cognitive
  { decisionPoints := satAdd32 metrics.decisionPoints read.decisions
    cognitive := if read.structural then satAdd32 cognitive (satAdd32 1 nesting) else cognitive
    maxNesting :=
      if read.nests then max metrics.maxNesting (satAdd32 nesting 1) else metrics.maxNesting }

def readVisit (classes : CharClasses) (fc : FirstClass) (cfg : LangConfig) (visit : Node × ℕ) :
    Reading × ℕ :=
  (reading classes fc cfg visit.1, visit.2)

section

variable (place : Node)

lemma sequenceRoot_reading :
    (reading classes fc cfg place).sequenceRoot = isBooleanSequenceRoot fc place := by
  rw [isBooleanSequenceRoot, @climbsFree_eq classes fc cfg]
  rfl

lemma elseClause_reading :
    (reading classes fc cfg place).elseClause = isElseClause cfg place := by
  rw [@isElseClause_eq classes fc]
  rfl

lemma structural_reading : (reading classes fc cfg place).structural = true ↔
      place.kind ∈ cfg.cognitiveStructureKinds ∧ !isElseIfNode fc cfg place := by
  rw [@isElseIfNode_eq classes]
  exact decide_eq_true_iff

lemma nests_reading :
    (reading classes fc cfg place).nests = increasesNesting fc cfg place := by
  rw [increasesNesting, @isElseIfNode_eq classes]
  rfl

end

lemma addNode_eq (metrics : ScopeMetrics) (visit : Node × ℕ) :
    addNode classes fc cfg metrics visit = addReading metrics (readVisit classes fc cfg visit) := by
  simp only [addNode, addReading, readVisit, sequenceRoot_reading, elseClause_reading,
    structural_reading, nests_reading]
  rfl

/-- The metrics of a scope depend on what is read of its nodes only. -/
lemma analyzeScope_eq (root : Node) : analyzeScope classes fc cfg root =
      ((scopeVisits fc cfg root).map (readVisit classes fc cfg)).foldl addReading {} := by
  rw [analyzeScope, foldl_map]
  congr 1
  funext metrics visit
  exact addNode_eq metrics visit

/-- The name under which a callable can call itself. -/
def recursionName (place : Node) : Option String :=
  if startsWith (functionName place).toList "<anonymous:" then none else some (functionName place)

lemma directlyCalls_eq (root : Node) : directlyCalls fc cfg root (functionName root) =
      (recursionName root).any fun name =>
        ((scopeVisits fc cfg root).map (readVisit classes fc cfg)).any fun visit =>
          visit.1.calls name := by
  rw [directlyCalls, recursionName]
  split
  · rfl
  · rw [any_some, List.any_map]
    rfl

/-! ## Places -/

def locate (node : Node) : List ℕ → Option Node
  | [] => some node
  | index :: path => (node.tree.children[index]?).bind fun child => locate (node.child child) path

lemma locate_append (node : Node) (path path' : List ℕ) :
    locate node (path ++ path') = (locate node path).bind fun place => locate place path' := by
  induction path generalizing node with
  | nil => rfl
  | cons index path ih =>
    rw [cons_append, locate, locate]
    cases node.tree.children[index]? with
    | none => rfl
    | some child => exact ih _

variable {path : List ℕ}

lemma mem_nodes_of_locate : ∀ {node place : Node},
    locate node path = some place → place ∈ node.tree.nodes node.ancestors := by
  induction path with
  | nil =>
    intro node place h
    cases h
    exact Cst.mem_nodes_self _ _
  | cons index path ih =>
    intro node place h
    obtain ⟨child, hchild, hplace⟩ := bind_eq_some_iff.mp h
    rw [Cst.nodes_eq, mem_cons, mem_flatMap]
    exact .inr ⟨child, mem_of_getElem? hchild, ih hplace⟩

/-! ## Nodes that are read the same -/

/-- Two nodes are read the same, and so is all below them but for what is in the hole, which is
callables. -/
structure ReadsSame (classes : CharClasses) (fc : FirstClass) (cfg : LangConfig)
    (hole : List ℕ → Prop) (start start' : Node) : Prop where
  reads : ∀ path, ¬ hole path → (locate start path).map (reading classes fc cfg) =
    (locate start' path).map (reading classes fc cfg)
  callable : ∀ path index, ¬ hole path → hole (path ++ [index]) →
    ∃ place, locate start (path ++ [index]) = some place ∧ isFunctionNode cfg place.tree = true
  callable' : ∀ path index, ¬ hole path → hole (path ++ [index]) →
    ∃ place, locate start' (path ++ [index]) = some place ∧ isFunctionNode cfg place.tree = true

section

variable {hole : List ℕ → Prop} {start start' : Node}

lemma ReadsSame.locate (h : ReadsSame classes fc cfg hole start start')
    {place place' : Node} (hplace : locate start path = some place)
    (hplace' : Complexity.locate start' path = some place') :
    ReadsSame classes fc cfg (fun other => hole (path ++ other)) place place' := by
  have hlocate : ∀ other,
      Complexity.locate place other = Complexity.locate start (path ++ other) := by
    intro other
    rw [locate_append, hplace, bind_some]
  have hlocate' : ∀ other,
      Complexity.locate place' other = Complexity.locate start' (path ++ other) := by
    intro other
    rw [locate_append, hplace', bind_some]
  refine ⟨?_, ?_, ?_⟩
  · intro other hother
    rw [hlocate, hlocate']
    exact h.reads _ hother
  · intro other index hother hindex
    rw [hlocate, ← append_assoc]
    apply h.callable _ _ hother
    rwa [append_assoc]
  · intro other index hother hindex
    rw [hlocate', ← append_assoc]
    apply h.callable' _ _ hother
    rwa [append_assoc]

lemma ReadsSame.root (h : ReadsSame classes fc cfg hole start start') (hroot : ¬ hole []) :
    reading classes fc cfg start = reading classes fc cfg start' :=
  some.inj (h.reads [] hroot)

lemma flatMap_eq_of_getElem? {α β γ : Type} {f : α → List γ} {g : β → List γ} {l : List α}
    {l' : List β} (h : ∀ index : ℕ, (l[index]?).map f = (l'[index]?).map g) :
    l.flatMap f = l'.flatMap g := by
  have hmap : l.map f = l'.map g := by
    apply ext_getElem?
    intro index
    rw [getElem?_map, getElem?_map, h]
  rw [flatMap_def, flatMap_def, hmap]

lemma locate_singleton (node : Node) (index : ℕ) :
    Complexity.locate node [index] = (node.tree.children[index]?).map node.child := by
  rw [Complexity.locate]
  cases node.tree.children[index]? <;> rfl

lemma children_read_same (h : ReadsSame classes fc cfg hole start start') (hroot : ¬ hole [])
    (nesting : ℕ)
    (hchildren : ∀ child ∈ start.tree.children, ∀ {child' : Cst} {index : ℕ}, ¬ hole [index] →
      ReadsSame classes fc cfg (fun path => hole ([index] ++ path)) (start.child child)
        (start'.child child') →
      (visited (isFunctionNode cfg) (increasesNesting fc cfg) nesting
          (start.tree :: start.ancestors) child).map (readVisit classes fc cfg) =
        (visited (isFunctionNode cfg) (increasesNesting fc cfg) nesting
          (start'.tree :: start'.ancestors) child').map (readVisit classes fc cfg)) :
    (start.tree.children.flatMap (visited (isFunctionNode cfg) (increasesNesting fc cfg) nesting
        (start.tree :: start.ancestors))).map (readVisit classes fc cfg) =
      (start'.tree.children.flatMap (visited (isFunctionNode cfg) (increasesNesting fc cfg) nesting
        (start'.tree :: start'.ancestors))).map (readVisit classes fc cfg) := by
  rw [map_flatMap, map_flatMap]
  apply flatMap_eq_of_getElem?
  intro index
  have hindex := locate_singleton start index
  have hindex' := locate_singleton start' index
  by_cases hhole : hole [index]
  · -- what is in the hole is skipped on both sides
    obtain ⟨callable, hcallable, hfunction⟩ := h.callable [] index hroot hhole
    obtain ⟨callable', hcallable', hfunction'⟩ := h.callable' [] index hroot hhole
    obtain ⟨child, hchild, rfl⟩ := map_eq_some_iff.mp (hindex.symm.trans hcallable)
    obtain ⟨child', hchild', rfl⟩ := map_eq_some_iff.mp (hindex'.symm.trans hcallable')
    change isFunctionNode cfg child = true at hfunction
    change isFunctionNode cfg child' = true at hfunction'
    rw [hchild, hchild', map_some, map_some, visited_eq, visited_eq,
      if_pos hfunction, if_pos hfunction']
  · have hread := h.reads [index] hhole
    rw [hindex, hindex'] at hread
    cases hchild : start.tree.children[index]? with
    | none =>
      cases hchild' : start'.tree.children[index]? with
      | none => rfl
      | some child' =>
        rw [hchild, hchild'] at hread
        cases hread.symm
    | some child =>
      cases hchild' : start'.tree.children[index]? with
      | none =>
        rw [hchild, hchild'] at hread
        cases hread
      | some child' =>
        rw [hchild, map_some] at hindex
        rw [hchild', map_some] at hindex'
        rw [map_some, map_some,
          hchildren child (mem_of_getElem? hchild) hhole (h.locate hindex hindex')]

lemma visited_read_same (tree : Cst) :
    ∀ {hole : List ℕ → Prop} {ancestors : List Cst} {place' : Node} (nesting : ℕ), ¬ hole [] →
      ReadsSame classes fc cfg hole ⟨tree, ancestors⟩ place' →
      (visited (isFunctionNode cfg) (increasesNesting fc cfg) nesting ancestors tree).map
          (readVisit classes fc cfg) =
        (visited (isFunctionNode cfg) (increasesNesting fc cfg) nesting place'.ancestors
          place'.tree).map (readVisit classes fc cfg) := by
  induction tree using Cst.induction_children with
  | step tree ih =>
    intro hole ancestors place' nesting hroot h
    have hread := h.root hroot
    have hcallable : isFunctionNode cfg tree = isFunctionNode cfg place'.tree :=
      congrArg Reading.callable hread
    have hnests : increasesNesting fc cfg ⟨tree, ancestors⟩ = increasesNesting fc cfg place' := by
      have hsame := congrArg Reading.nests hread
      rwa [nests_reading, nests_reading] at hsame
    rw [visited_eq, visited_eq, hcallable, childNesting, childNesting, hnests]
    split
    · rfl
    · rw [map_cons, map_cons, readVisit, readVisit, hread]
      congr 1
      apply children_read_same h hroot
      intro child hchild child' index hindex hsame
      exact ih child hchild _ (by rwa [append_nil]) hsame

lemma scopeVisits_read_same {file file' : Cst} (hfile : Separable cfg file)
    (hfile' : Separable cfg file') (hstart : start ∈ file.nodes [])
    (hstart' : start' ∈ file'.nodes [])
    (hfunction : isFunctionNode cfg start.tree = true) (hroot : ¬ hole [])
    (h : ReadsSame classes fc cfg hole start start') :
    (scopeVisits fc cfg start).map (readVisit classes fc cfg) =
      (scopeVisits fc cfg start').map (readVisit classes fc cfg) := by
  have hread := h.root hroot
  have hfunction' : isFunctionNode cfg start'.tree = true :=
    (congrArg Reading.callable hread).symm.trans hfunction
  have hnests : increasesNesting fc cfg start = increasesNesting fc cfg start' := by
    have hsame := congrArg Reading.nests hread
    rwa [nests_reading, nests_reading] at hsame
  rw [scopeVisits_eq fun inner hinner hne =>
      hfile.skipsNested_eq hstart (.inr hfunction) hinner hne,
    scopeVisits_eq fun inner hinner hne =>
      hfile'.skipsNested_eq hstart' (.inr hfunction') hinner hne,
    map_cons, map_cons, readVisit, readVisit, hread, childNesting, childNesting, hnests]
  congr 1
  apply children_read_same h hroot
  intro child _ child' index hindex hsame
  exact visited_read_same child _ (by rwa [append_nil]) hsame

end

structure SameMetrics (function function' : FunctionComplexity) : Prop where
  cyclomatic : function.cyclomatic = function'.cyclomatic
  cognitive : function.cognitive = function'.cognitive
  maxNesting : function.maxNesting = function'.maxNesting

variable {function function' : FunctionComplexity}

lemma sameMetrics_of_visits {place place' : Node}
    (hname : recursionName place = recursionName place')
    (hvisits : (scopeVisits fc cfg place).map (readVisit classes fc cfg) =
      (scopeVisits fc cfg place').map (readVisit classes fc cfg))
    (hreport : Reports classes fc cfg function place)
    (hreport' : Reports classes fc cfg function' place') : SameMetrics function function' := by
  have hscope : analyzeScope classes fc cfg place = analyzeScope classes fc cfg place' := by
    rw [analyzeScope_eq, analyzeScope_eq, hvisits]
  have hcalls : directlyCalls fc cfg place (functionName place) =
      directlyCalls fc cfg place' (functionName place') := by
    rw [@directlyCalls_eq classes, @directlyCalls_eq classes, hname, hvisits]
  obtain ⟨_, _, rfl⟩ := hreport
  obtain ⟨_, _, rfl⟩ := hreport'
  simp only [functionComplexity, hscope, hcalls]
  exact ⟨rfl, rfl, rfl⟩

/-! ## The same code elsewhere -/

/-- The surroundings of two nodes are the same to what is read of them. -/
structure SeenSame (around around' : List TreeReading) : Prop where
  head : around.head? = around'.head?
  climbs : climbs around = climbs around'

section

variable {around around' : List TreeReading}

lemma SeenSame.refl (around : List TreeReading) : SeenSame around around := ⟨rfl, rfl⟩

lemma SeenSame.cons (h : SeenSame around around') (read : TreeReading) :
    SeenSame (read :: around) (read :: around') := by
  refine ⟨rfl, ?_⟩
  rw [Complexity.climbs, Complexity.climbs, h.climbs]

/-- No expression reaches out of what is no group. -/
lemma SeenSame.of_not_group {read : TreeReading}
    (h : isTransparentBooleanGroup read.kind = false) :
    SeenSame (read :: around) (read :: around') := by
  refine ⟨rfl, ?_⟩
  rw [Complexity.climbs, Complexity.climbs, if_neg (by rw [h]; decide), if_neg (by rw [h]; decide)]

lemma SeenSame.readingOf (h : SeenSame around around') (read : TreeReading) :
    readingOf fc cfg read around = readingOf fc cfg read around' := by
  rw [Complexity.readingOf, Complexity.readingOf, readsElse, readsElse, readsElseIf, readsElseIf,
    h.head, h.climbs]

end

lemma readTree_congr {tree tree' : Cst} (h : tree.unplaced = tree'.unplaced) :
    readTree classes fc cfg tree = readTree classes fc cfg tree' := by
  rw [← readTree_unplaced tree, h, readTree_unplaced]

variable {tree' : Cst} {ancestors ancestors' : List Cst}

lemma reading_congr {tree : Cst}
    (htree : readTree classes fc cfg tree = readTree classes fc cfg tree')
    (haround : SeenSame (ancestors.map (readTree classes fc cfg))
      (ancestors'.map (readTree classes fc cfg))) :
    reading classes fc cfg ⟨tree, ancestors⟩ = reading classes fc cfg ⟨tree', ancestors'⟩ := by
  rw [reading, reading, htree]
  exact haround.readingOf _

lemma getElem?_unplaced {trees trees' : List Cst}
    (h : trees.map Cst.unplaced = trees'.map Cst.unplaced) (index : ℕ) :
    (trees[index]?).map Cst.unplaced = (trees'[index]?).map Cst.unplaced := by
  rw [← getElem?_map, h, getElem?_map]

lemma children_congr {tree : Cst} (h : tree.unplaced = tree'.unplaced) :
    tree.children.map Cst.unplaced = tree'.children.map Cst.unplaced := by
  rw [← Cst.children_unplaced, h, Cst.children_unplaced]

variable {index : ℕ}

lemma locate_cons_same {tree : Cst}
    (hindex : (tree.children[index]?).map Cst.unplaced = (tree'.children[index]?).map Cst.unplaced)
    (hbelow : ∀ child child', child.unplaced = child'.unplaced →
      (locate ⟨child, tree :: ancestors⟩ path).map (reading classes fc cfg) =
        (locate ⟨child', tree' :: ancestors'⟩ path).map (reading classes fc cfg)) :
    (locate ⟨tree, ancestors⟩ (index :: path)).map (reading classes fc cfg) =
      (locate ⟨tree', ancestors'⟩ (index :: path)).map (reading classes fc cfg) := by
  rw [locate, locate]
  cases hchild : tree.children[index]? with
  | none =>
    rw [hchild, map_none, eq_comm, map_eq_none_iff] at hindex
    rw [hindex]
    rfl
  | some child =>
    rw [hchild, map_some, eq_comm, map_eq_some_iff] at hindex
    obtain ⟨child', hchild', hsame⟩ := hindex
    rw [hchild']
    exact hbelow child child' hsame.symm

lemma locate_same_code : ∀ {tree tree' : Cst} {ancestors ancestors' : List Cst},
    tree.unplaced = tree'.unplaced → SeenSame (ancestors.map (readTree classes fc cfg))
        (ancestors'.map (readTree classes fc cfg)) →
      (locate ⟨tree, ancestors⟩ path).map (reading classes fc cfg) =
        (locate ⟨tree', ancestors'⟩ path).map (reading classes fc cfg) := by
  induction path with
  | nil =>
    intro tree tree' ancestors ancestors' htree haround
    rw [locate, locate, map_some, map_some, reading_congr (readTree_congr htree) haround]
  | cons index path ih =>
    intro tree tree' ancestors ancestors' htree haround
    apply locate_cons_same (getElem?_unplaced (children_congr htree) index)
    intro child child' hchild
    apply ih hchild
    rw [map_cons, map_cons, readTree_congr htree]
    exact haround.cons _

lemma isFunctionNode_kinds {tree : Cst} (h : isFunctionNode (config fc) tree = true) :
    isTransparentBooleanGroup tree.kind = false ∧ isBooleanExpressionKind tree.kind = false ∧
      tree.kind ≠ "if_statement" ∧ tree.kind ≠ "if_expression" := by
  have hkinds : ∀ kind ∈ (config fc).functionKinds,
      isTransparentBooleanGroup kind = false ∧ isBooleanExpressionKind kind = false ∧
        kind ≠ "if_statement" ∧ kind ≠ "if_expression" := by
    cases fc <;> decide
  exact hkinds tree.kind (of_decide_eq_true ((Bool.and_eq_true _ _).mp h).2)

lemma reading_callable {tree : Cst} (h : isFunctionNode (config fc) tree = true)
    (htree : readTree classes fc (config fc) tree = readTree classes fc (config fc) tree')
    (hkeyword : (readTree classes fc (config fc) tree).keyword = false) :
    reading classes fc (config fc) ⟨tree, ancestors⟩ =
      reading classes fc (config fc) ⟨tree', ancestors'⟩ := by
  obtain ⟨_, hexpression, hstatement, hif⟩ := isFunctionNode_kinds h
  have hoperator : (readTree classes fc (config fc) tree).operator = none := by
    change directBooleanOperator fc tree = none
    rw [directBooleanOperator, if_neg (by rw [hexpression]; decide)]
  have helseIf : ∀ around,
      readsElseIf fc (config fc) (readTree classes fc (config fc) tree) around = false :=
    fun around => if_pos ⟨hstatement, hif⟩
  rw [reading, reading, ← htree, readingOf, readingOf, readsElse, readsElse, hoperator, helseIf,
    helseIf, hkeyword]
  rfl

variable {file' : Cst} {file : Cst}

/-- **The metrics of a callable are those of its own code**, under the name that it has. -/
lemma sameMetrics_of_same_code (hfile : Separable (config fc) file)
    (hfile' : Separable (config fc) file') {place place' : Node} (hplace : place ∈ file.nodes [])
    (hplace' : place' ∈ file'.nodes []) (hfunction : isFunctionNode (config fc) place.tree = true)
    (hkeyword : (readTree classes fc (config fc) place.tree).keyword = false)
    (hcode : place.tree.unplaced = place'.tree.unplaced)
    (hname : recursionName place = recursionName place')
    (hreport : Reports classes fc (config fc) function place)
    (hreport' : Reports classes fc (config fc) function' place') :
    SameMetrics function function' := by
  have hread := @readTree_congr classes fc (config fc) _ _ hcode
  have hsame : ReadsSame classes fc (config fc) (fun _ => False) place place' := by
    refine ⟨?_, fun _ _ _ h => h.elim, fun _ _ _ h => h.elim⟩
    rintro (_ | ⟨index, path⟩) _
    · rw [locate, locate, map_some, map_some, reading_callable hfunction hread hkeyword]
    · apply locate_cons_same (getElem?_unplaced (children_congr hcode) index)
      intro child child' hchild
      apply locate_same_code hchild
      rw [map_cons, map_cons, ← hread]
      exact .of_not_group (isFunctionNode_kinds hfunction).1
  exact sameMetrics_of_visits hname
    (scopeVisits_read_same hfile hfile' hplace hplace' hfunction id hsame) hreport hreport'

/-! ## Changes inside of a callable -/

/-- The two trees differ in the callable at `path` only, but for the places of their nodes and the
texts of those around the callable. -/
inductive EditedInside (cfg : LangConfig) : List ℕ → Cst → Cst → Prop where
  | callable {tree tree' : Cst} : isFunctionNode cfg tree = true →
      isFunctionNode cfg tree' = true → tree.kind = tree'.kind → tree.field = tree'.field →
      EditedInside cfg [] tree tree'
  | child {tree tree' child child' : Cst} {index : ℕ} {path : List ℕ} :
      tree.id = tree'.id → tree.kind = tree'.kind → tree.field = tree'.field →
      tree.isNamed = tree'.isNamed →
      tree.children[index]? = some child → tree'.children[index]? = some child' →
      (∀ other, other ≠ index →
        (tree.children[other]?).map Cst.unplaced = (tree'.children[other]?).map Cst.unplaced) →
      EditedInside cfg path child child' → EditedInside cfg (index :: path) tree tree'

/-- The nodes around the one at `path` are read the same in both trees. -/
def ReadsAround (classes : CharClasses) (fc : FirstClass) (cfg : LangConfig) (path : List ℕ)
    (start start' : Node) : Prop :=
  ∀ other, other <+: path → other ≠ path →
    (locate start other).map (fun place => readTree classes fc cfg place.tree) =
      (locate start' other).map (fun place => readTree classes fc cfg place.tree)

lemma ReadsAround.child {tree tree' child child' : Cst} {ancestors ancestors' : List Cst}
    (h : ReadsAround classes fc cfg (index :: path) ⟨tree, ancestors⟩ ⟨tree', ancestors'⟩)
    (hchild : tree.children[index]? = some child) (hchild' : tree'.children[index]? = some child') :
    ReadsAround classes fc cfg path ⟨child, tree :: ancestors⟩ ⟨child', tree' :: ancestors'⟩ := by
  intro other hother hne
  have hsame := h (index :: other) (cons_prefix_cons.mpr ⟨rfl, hother⟩)
    (fun heq => hne (cons.inj heq).2)
  rw [locate, locate, hchild, hchild'] at hsame
  exact hsame

lemma EditedInside.callables {tree : Cst}
    (hedit : EditedInside cfg path tree tree') : ∀ ancestors ancestors' : List Cst,
      (∃ place, locate ⟨tree, ancestors⟩ path = some place ∧ isFunctionNode cfg place.tree = true) ∧
      ∃ place, locate ⟨tree', ancestors'⟩ path = some place ∧
        isFunctionNode cfg place.tree = true := by
  induction hedit with
  | callable htree htree' => exact fun _ _ => ⟨⟨_, rfl, htree⟩, ⟨_, rfl, htree'⟩⟩
  | @child tree tree' child child' index path _ _ _ _ hchild hchild' _ _ ih =>
    intro ancestors ancestors'
    rw [locate, locate, hchild, hchild']
    exact ih _ _

lemma EditedInside.reads {tree : Cst} (hedit : EditedInside cfg path tree tree') :
    ∀ {ancestors ancestors' : List Cst},
      ReadsAround classes fc cfg path ⟨tree, ancestors⟩ ⟨tree', ancestors'⟩ →
      SeenSame (ancestors.map (readTree classes fc cfg))
        (ancestors'.map (readTree classes fc cfg)) →
      ∀ other, ¬ path <+: other → (locate ⟨tree, ancestors⟩ other).map (reading classes fc cfg) =
          (locate ⟨tree', ancestors'⟩ other).map (reading classes fc cfg) := by
  induction hedit with
  | callable => exact fun _ _ other hnot => absurd nil_prefix hnot
  | @child tree tree' child child' index path _ _ _ _ hchild hchild' hothers _ ih =>
    intro ancestors ancestors' haround hseen
    have htree : readTree classes fc cfg tree = readTree classes fc cfg tree' :=
      some.inj (haround [] nil_prefix (cons_ne_nil _ _).symm)
    have hbelow : SeenSame ((tree :: ancestors).map (readTree classes fc cfg))
        ((tree' :: ancestors').map (readTree classes fc cfg)) := by
      rw [map_cons, map_cons, htree]
      exact hseen.cons _
    rintro (_ | ⟨other, rest⟩) hnot
    · rw [locate, locate, map_some, map_some, reading_congr htree hseen]
    · by_cases hother : other = index
      · subst hother
        have hrest := ih (haround.child hchild hchild') hbelow rest fun h =>
          hnot (cons_prefix_cons.mpr ⟨rfl, h⟩)
        rw [locate, locate, hchild, hchild']
        exact hrest
      · apply locate_cons_same (hothers other hother)
        intro sibling sibling' hsibling
        exact locate_same_code hsibling hbelow

/-- The next index after a place outside leads outside or to the callable. -/
lemma eq_of_prefix_append_singleton {path other : List ℕ} (hother : ¬ path <+: other)
    (h : path <+: other ++ [index]) : path = other ++ [index] := by
  rcases prefix_concat_iff.mp h with h | h
  · exact h
  · exact absurd h hother

lemma EditedInside.readsSame (hedit : EditedInside cfg path file file')
    (haround : ReadsAround classes fc cfg path ⟨file, []⟩ ⟨file', []⟩) :
    ReadsSame classes fc cfg (path <+: ·) ⟨file, []⟩ ⟨file', []⟩ := by
  obtain ⟨hcallable, hcallable'⟩ := hedit.callables [] []
  refine ⟨hedit.reads haround (.refl _), ?_, ?_⟩
  · intro other index hother h
    rwa [← eq_of_prefix_append_singleton hother h]
  · intro other index hother h
    rwa [← eq_of_prefix_append_singleton hother h]

/-- **A change inside of a callable is nothing to the callables around it and beside it**, if the
nodes around it are read the same. -/
lemma sameMetrics_of_editedInside (hfile : Separable cfg file) (hfile' : Separable cfg file')
    (hedit : EditedInside cfg path file file')
    (haround : ReadsAround classes fc cfg path ⟨file, []⟩ ⟨file', []⟩) {place place' : Node}
    {other : List ℕ} (hother : ¬ path <+: other) (hplace : locate ⟨file, []⟩ other = some place)
    (hplace' : locate ⟨file', []⟩ other = some place')
    (hfunction : isFunctionNode cfg place.tree = true)
    (hname : recursionName place = recursionName place')
    (hreport : Reports classes fc cfg function place)
    (hreport' : Reports classes fc cfg function' place') : SameMetrics function function' := by
  have hsame := (hedit.readsSame haround).locate hplace hplace'
  apply sameMetrics_of_visits hname _ hreport hreport'
  apply scopeVisits_read_same hfile hfile' (mem_nodes_of_locate hplace)
    (mem_nodes_of_locate hplace') hfunction _ hsame
  rwa [append_nil]

/-! ## Partition -/

def token (id : ℕ) (kind : String) (field : Option String) (isNamed : Bool) (start : ℕ)
    (text : String) : Cst :=
  .node id kind field isNamed ⟨start, start + text.length, 1, 1⟩ text []

/-- `n=>fact(n)`. -/
def recursiveArrow (start : ℕ) : Cst :=
  .node 10 "arrow_function" (some "value") true ⟨start, start + 10, 1, 1⟩ "n=>fact(n)"
    [token 11 "identifier" (some "parameter") true start "n",
      token 12 "=>" none false (start + 1) "=>",
      .node 13 "call_expression" (some "body") true ⟨start + 3, start + 10, 1, 1⟩ "fact(n)"
        [token 14 "identifier" (some "function") true (start + 3) "fact",
          .node 15 "arguments" (some "arguments") true ⟨start + 7, start + 10, 1, 1⟩ "(n)"
            [token 16 "(" none false (start + 7) "(",
              token 17 "identifier" none true (start + 8) "n",
              token 18 ")" none false (start + 9) ")"]]]

/-- A file with a function that gives the arrow function a name, such as
`function f(){const fact=n=>fact(n)}`. -/
def bindingFile (keyword name : String) : Cst :=
  let declarator := name ++ "=n=>fact(n)"
  let declaration := keyword ++ " " ++ declarator
  let block := "\x7b" ++ declaration ++ "\x7d"
  let file := "function f()" ++ block
  let start := 14 + keyword.length
  let stop := 13 + declaration.length
  .node 0 "program" none true ⟨0, stop + 1, 1, 1⟩ file
    [.node 1 "function_declaration" none true ⟨0, stop + 1, 1, 1⟩ file
      [token 2 "function" none false 0 "function", token 3 "identifier" (some "name") true 9 "f",
        .node 4 "formal_parameters" (some "parameters") true ⟨10, 12, 1, 1⟩ "()"
          [token 5 "(" none false 10 "(", token 6 ")" none false 11 ")"],
        .node 7 "statement_block" (some "body") true ⟨12, stop + 1, 1, 1⟩ block
          [token 8 "\x7b" none false 12 "\x7b",
            .node 9 "lexical_declaration" none true ⟨13, stop, 1, 1⟩ declaration
              [token 19 keyword (some "kind") false 13 keyword,
                .node 20 "variable_declarator" none true ⟨start, stop, 1, 1⟩ declarator
                  [token 21 "identifier" (some "name") true start name,
                    token 22 "=" none false (start + name.length) "=",
                    recursiveArrow (start + name.length + 1)]],
            token 23 "\x7d" none false stop "\x7d"]]]

lemma editedInside_bindingFile (keyword keyword' name name' : String) :
    EditedInside jsConfig [0] (bindingFile keyword name) (bindingFile keyword' name') := by
  refine .child rfl rfl rfl rfl rfl rfl ?_ (.callable rfl rfl rfl rfl)
  rintro (_ | other) hother
  · exact absurd rfl hother
  · rfl

lemma mem_callables_bindingFile {keyword name : String} {place : Node}
    (hplace : locate ⟨bindingFile keyword name, []⟩ [0, 3, 1, 1, 2] = some place)
    (hfunction : isFunctionNode jsConfig place.tree = true) :
    place ∈ callables jsConfig (bindingFile keyword name) :=
  mem_filter.mpr ⟨mem_nodes_of_locate hplace, hfunction⟩

/-- `if`, without its parts. -/
def branch : Cst := .node 1 "if_statement" none true default "" []

/-- A file of so many branches. -/
def branches (count : ℕ) : Cst :=
  .node 0 "program" none true default "" (List.replicate count branch)

variable (count : ℕ)

lemma nodes_branches : (branches count).nodes [] =
      ⟨branches count, []⟩ :: List.replicate count ⟨branch, [branches count]⟩ := by
  have hbranch : ∀ ancestors, branch.nodes ancestors = [⟨branch, ancestors⟩] := fun _ => rfl
  have hchildren : (branches count).children = List.replicate count branch := rfl
  rw [Cst.nodes_eq, hchildren, flatMap_replicate, hbranch, flatten_replicate_singleton]

lemma isFunctionNode_branches {count : ℕ} {place : Node}
    (h : place ∈ (branches count).nodes []) : isFunctionNode jsConfig place.tree = false := by
  rw [nodes_branches, mem_cons] at h
  rcases h with rfl | h
  · rfl
  · obtain rfl := eq_of_mem_replicate h
    rfl

lemma separable_branches : Separable jsConfig (branches count) := by
  refine ⟨show "program" ∉ jsConfig.functionKinds by decide, fun place hplace hcallable => ?_⟩
  rw [isFunctionNode_branches hplace] at hcallable
  cases hcallable

lemma le_sum_decisionsAt_branches : count ≤ (((branches count).nodes []).map
      (decisionsAt .ascii .javaScript (config .javaScript))).sum := by
  have hbranch : decisionIncrement .ascii .javaScript (config .javaScript) branch = 1 := by
    decide +kernel
  rw [nodes_branches, map_cons, sum_cons, map_replicate, decisionsAt, decisionsAt,
    hbranch, sum_replicate_nat, Nat.mul_one]
  exact Nat.le_add_left _ _

end Metrics.Complexity

end Reposcout
