import Reposcout.Model.Definitions

/-!
# Concrete syntax trees

What the grammars give: nodes of a kind, with the fields under which their parents have them.  A
`Node` is a tree in its place, with its ancestors.
-/

namespace Reposcout

open List

/-- A node of a syntax tree.  `field` is the name under which its parent has it, if any. -/
inductive Cst where
  | node (id : ℕ) (kind : String) (field : Option String) (isNamed : Bool) (span : SourceSpan)
      (text : String) (children : List Cst)

namespace Cst

def id : Cst → ℕ
  | node id .. => id

def kind : Cst → String
  | node _ kind .. => kind

def field : Cst → Option String
  | node _ _ field .. => field

def isNamed : Cst → Bool
  | node _ _ _ isNamed .. => isNamed

def span : Cst → SourceSpan
  | node _ _ _ _ span .. => span

/-- `source_text`. -/
def text : Cst → String
  | node _ _ _ _ _ text _ => text

def children : Cst → List Cst
  | node _ _ _ _ _ _ children => children

def childrenByFieldName (tree : Cst) (name : String) : List Cst :=
  tree.children.filter fun child => child.field = some name

def childByFieldName (tree : Cst) (name : String) : Option Cst :=
  tree.children.find? fun child => child.field = some name

def namedChildren (tree : Cst) : List Cst := tree.children.filter isNamed

end Cst

/-- A node of a tree, with its ancestors from its parent to the root. -/
structure Node where
  tree : Cst
  ancestors : List Cst

namespace Node

def parent (node : Node) : Option Node :=
  match node.ancestors with
  | [] => none
  | parent :: rest => some ⟨parent, rest⟩

def kind (node : Node) : String := node.tree.kind

def span (node : Node) : SourceSpan := node.tree.span

def text (node : Node) : String := node.tree.text

def child (node : Node) (tree : Cst) : Node := ⟨tree, node.tree :: node.ancestors⟩

def childByFieldName (node : Node) (name : String) : Option Node :=
  (node.tree.childByFieldName name).map node.child

def namedChildren (node : Node) : List Node := node.tree.namedChildren.map node.child

end Node

namespace Cst

mutual

/-- The named nodes of a tree, each before those below it. -/
def preorder (ancestors : List Cst) : Cst → List Node
  | tree@(node _ _ _ _ _ _ children) =>
    ⟨tree, ancestors⟩ :: preorderList (tree :: ancestors) children

def preorderList (ancestors : List Cst) : List Cst → List Node
  | [] => []
  | child :: rest =>
    (if child.isNamed then preorder ancestors child else []) ++ preorderList ancestors rest

end

mutual

def nodes (ancestors : List Cst) : Cst → List Node
  | tree@(node _ _ _ _ _ _ children) =>
    ⟨tree, ancestors⟩ :: nodesList (tree :: ancestors) children

def nodesList (ancestors : List Cst) : List Cst → List Node
  | [] => []
  | child :: rest => nodes ancestors child ++ nodesList ancestors rest

end

mutual

/-- The named nodes of a tree, each before those below it, the last child first. -/
def reversePreorder (ancestors : List Cst) : Cst → List Node
  | tree@(node _ _ _ _ _ _ children) =>
    ⟨tree, ancestors⟩ :: reversePreorderList (tree :: ancestors) children

def reversePreorderList (ancestors : List Cst) : List Cst → List Node
  | [] => []
  | child :: rest =>
    reversePreorderList ancestors rest ++
      if child.isNamed then reversePreorder ancestors child else []

end

@[elab_as_elim]
lemma induction_children {motive : Cst → Prop}
    (step : ∀ tree : Cst, (∀ child ∈ tree.children, motive child) → motive tree) (tree : Cst) :
    motive tree := by
  suffices h : motive tree ∧ ∀ child ∈ tree.children, motive child from h.1
  refine Cst.rec (motive_1 := fun tree => motive tree ∧ ∀ child ∈ tree.children, motive child)
    (motive_2 := fun trees => ∀ child ∈ trees, motive child) ?_ ?_ ?_ tree
  · intro id kind field isNamed span text children h
    exact ⟨step _ h, h⟩
  · exact nofun
  · rintro first rest hfirst hrest child hchild
    rcases mem_cons.mp hchild with rfl | hchild
    · exact hfirst.1
    · exact hrest child hchild

variable (ancestors : List Cst)

lemma nodesList_eq_flatMap (trees : List Cst) :
    nodesList ancestors trees = trees.flatMap (nodes ancestors) := by
  induction trees with
  | nil => rfl
  | cons child rest ih => rw [nodesList, flatMap_cons, ih]

lemma nodes_eq (tree : Cst) : tree.nodes ancestors =
      ⟨tree, ancestors⟩ :: tree.children.flatMap (nodes (tree :: ancestors)) := by
  cases tree with
  | node => rw [nodes, nodesList_eq_flatMap, children]

/-! ## Places -/

mutual

lemma ancestors_of_mem_nodes {ancestors : List Cst} :
    ∀ {tree : Cst} {place : Node}, place ∈ tree.nodes ancestors →
      place = ⟨tree, ancestors⟩ ∨ ∃ path, place.ancestors = path ++ tree :: ancestors
  | .node _ _ _ _ _ _ _, place, h => by
    rw [nodes, mem_cons] at h
    rcases h with h | h
    · exact .inl h
    · exact .inr (ancestors_of_mem_nodesList h)

lemma ancestors_of_mem_nodesList {ancestors : List Cst} :
    ∀ {trees : List Cst} {place : Node}, place ∈ nodesList ancestors trees →
      ∃ path, place.ancestors = path ++ ancestors
  | [], _, h => nomatch h
  | child :: rest, place, h => by
    rw [nodesList, mem_append] at h
    rcases h with h | h
    · rcases ancestors_of_mem_nodes h with rfl | ⟨path, hpath⟩
      · exact ⟨[], rfl⟩
      · exact ⟨path ++ [child], by rw [hpath, append_assoc, singleton_append]⟩
    · exact ancestors_of_mem_nodesList h

end

lemma mem_nodes_self (tree : Cst) : ⟨tree, ancestors⟩ ∈ tree.nodes ancestors := by
  cases tree with
  | node => exact mem_cons_self

mutual

lemma mem_nodes_of_ancestor {ancestors : List Cst} {path rest : List Cst} {parent : Cst} :
    ∀ {tree : Cst} {place : Node}, place ∈ tree.nodes ancestors →
      place.ancestors = path ++ parent :: rest → ancestors.length ≤ rest.length →
      ⟨parent, rest⟩ ∈ tree.nodes ancestors ∧ place ∈ parent.nodes rest
  | .node id kind field isNamed span text children, place, h, hpath, hlength => by
    have hplace := h
    rw [nodes, mem_cons] at h
    rcases h with rfl | h
    · have hsame := congrArg List.length hpath
      rw [length_append, length_cons] at hsame
      change ancestors.length = _ at hsame
      omega
    · by_cases hhere : ancestors.length = rest.length
      · obtain ⟨front, hfront⟩ := ancestors_of_mem_nodesList h
        rw [hpath] at hfront
        obtain ⟨_, hcons⟩ := append_inj' hfront (by simp [hhere])
        cases hcons
        exact ⟨mem_nodes_self _ _, hplace⟩
      · have hinside := mem_nodesList_of_ancestor h hpath (by rw [length_cons]; omega)
        refine ⟨?_, hinside.2⟩
        exact mem_cons_of_mem _ hinside.1

lemma mem_nodesList_of_ancestor {ancestors : List Cst} {path rest : List Cst} {parent : Cst} :
    ∀ {trees : List Cst} {place : Node}, place ∈ nodesList ancestors trees →
      place.ancestors = path ++ parent :: rest → ancestors.length ≤ rest.length →
      ⟨parent, rest⟩ ∈ nodesList ancestors trees ∧ place ∈ parent.nodes rest
  | [], _, h, _, _ => nomatch h
  | child :: others, place, h, hpath, hlength => by
    rw [nodesList, mem_append] at h
    rw [nodesList, mem_append]
    rcases h with h | h
    · have hinside := mem_nodes_of_ancestor h hpath hlength
      exact ⟨.inl hinside.1, hinside.2⟩
    · have hinside := mem_nodesList_of_ancestor h hpath hlength
      exact ⟨.inr hinside.1, hinside.2⟩

end

lemma mem_nodes_trans {tree : Cst} : ∀ {ancestors : List Cst} {root place : Node},
    root ∈ tree.nodes ancestors → place ∈ root.tree.nodes root.ancestors →
      place ∈ tree.nodes ancestors := by
  induction tree using Cst.induction_children with
  | step tree ih =>
    intro ancestors root place hroot hplace
    rw [nodes_eq, mem_cons, mem_flatMap] at hroot
    rcases hroot with rfl | ⟨child, hchild, hroot⟩
    · exact hplace
    · rw [nodes_eq, mem_cons, mem_flatMap]
      exact .inr ⟨child, hchild, ih child hchild hroot hplace⟩

end Cst

end Reposcout
