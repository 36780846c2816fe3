import Mathlib.Data.List.Infix
import Mathlib.Data.List.Nodup

/-!
# Trees with named children

A tree has values at its leaves, and every node has its children under their names, as a directory
has its files.  A walk visits a tree from its root and does not enter what it is told to skip; the
leaves that it reaches are those no part of whose path is skipped.
-/

inductive NamedTree (κ α : Type) where
  | leaf (value : α)
  | node (children : List (κ × NamedTree κ α))

namespace NamedTree

open List

variable {κ α β : Type}

def isNode : NamedTree κ α → Bool
  | leaf _ => false
  | node _ => true

/-- A path with what is there, moved below a name. -/
def under (name : κ) (entry : List κ × β) : List κ × β := (name :: entry.1, entry.2)

mutual

def leaves : NamedTree κ α → List (List κ × α)
  | leaf value => [([], value)]
  | node children => leavesOf children

/-- The leaves of some children under their paths. -/
def leavesOf : List (κ × NamedTree κ α) → List (List κ × α)
  | [] => []
  | (name, tree) :: rest => tree.leaves.map (under name) ++ leavesOf rest

end

mutual

/-- The nodes and leaves of a tree that are not below a skipped one, each before what is below
it. -/
def walk (skip : List κ → Bool → Bool) : NamedTree κ α → List (List κ × Option α)
  | leaf value => [([], some value)]
  | node children => ([], none) :: walkOf skip children

/-- The same for some children; `skip` is told whether there is a node at a path. -/
def walkOf (skip : List κ → Bool → Bool) : List (κ × NamedTree κ α) → List (List κ × Option α)
  | [] => []
  | (name, tree) :: rest =>
    (if skip [name] tree.isNode then []
      else (walk (fun path => skip (name :: path)) tree).map (under name)) ++ walkOf skip rest

end

mutual

def graft (f : α → NamedTree κ β) : NamedTree κ α → NamedTree κ β
  | leaf value => f value
  | node children => node (graftOf f children)

def graftOf (f : α → NamedTree κ β) : List (κ × NamedTree κ α) → List (κ × NamedTree κ β)
  | [] => []
  | (name, tree) :: rest => (name, tree.graft f) :: graftOf f rest

end

/-! ## Paths of which a part is skipped -/

/-- Whether some beginning of a path is skipped, where every proper beginning is a node. -/
def skipsPart (skip : List κ → Bool → Bool) (isNode : Bool) : List κ → Bool
  | [] => false
  | [name] => skip [name] isNode
  | name :: next :: rest =>
    skip [name] true || skipsPart (fun path => skip (name :: path)) isNode (next :: rest)

lemma skipsPart_cons (skip : List κ → Bool → Bool) (isNode : Bool) (name : κ) {rest : List κ}
    (h : rest ≠ []) :
    skipsPart skip isNode (name :: rest) =
      (skip [name] true || skipsPart (fun path => skip (name :: path)) isNode rest) := by
  cases rest with
  | nil => exact absurd rfl h
  | cons next rest => rw [skipsPart]

/-- What `skipsPart` looks for. -/
lemma skipsPart_iff {skip : List κ → Bool → Bool} {isNode : Bool} {path : List κ} :
    skipsPart skip isNode path = true ↔ ∃ part rest, path = part ++ rest ∧ part ≠ [] ∧
        skip part (isNode || !rest.isEmpty) = true := by
  induction path generalizing skip with
  | nil =>
    simp only [skipsPart, Bool.false_eq_true, false_iff]
    rintro ⟨part, rest, happend, hne, -⟩
    exact hne (append_eq_nil_iff.mp happend.symm).1
  | cons name path ih =>
    cases path with
    | nil =>
      simp only [skipsPart]
      constructor
      · intro h
        exact ⟨[name], [], rfl, by simp, by simpa using h⟩
      · rintro ⟨part, rest, happend, hne, h⟩
        obtain ⟨rfl, rfl⟩ | ⟨rfl, rfl⟩ := append_eq_singleton_iff.mp happend.symm
        · exact absurd rfl hne
        · simpa using h
    | cons next path =>
      rw [skipsPart, Bool.or_eq_true, ih]
      constructor
      · rintro (h | ⟨part, rest, happend, hne, h⟩)
        · exact ⟨[name], next :: path, rfl, by simp, by simpa using h⟩
        · exact ⟨name :: part, rest, by rw [happend, cons_append], by simp, h⟩
      · rintro ⟨part, rest, happend, hne, h⟩
        obtain ⟨first, part, rfl⟩ := exists_cons_of_ne_nil hne
        obtain ⟨rfl, htail⟩ := cons.inj happend
        by_cases hpart : part = []
        · subst hpart
          obtain rfl : next :: path = rest := htail
          exact .inl (by simpa using h)
        · exact .inr ⟨part, rest, htail, hpart, h⟩

lemma skipsPart_skipsPart (skip : List κ → Bool → Bool) (isNode : Bool) (path : List κ) :
    skipsPart (fun part isNode => skipsPart skip isNode part) isNode path =
      skipsPart skip isNode path := by
  rw [Bool.eq_iff_iff, skipsPart_iff]
  constructor
  · rintro ⟨part, rest, rfl, -, h⟩
    obtain ⟨first, second, rfl, hne, hskip⟩ := skipsPart_iff.mp h
    refine skipsPart_iff.mpr ⟨first, second ++ rest, append_assoc .., hne, ?_⟩
    convert hskip using 2
    cases isNode <;> cases second <;> cases rest <;> simp
  · intro h
    obtain ⟨part, rest, rfl, hne, hskip⟩ := skipsPart_iff.mp h
    exact ⟨part ++ rest, [], by simp, by simp [hne], by simpa using h⟩

/-! ## What a walk reaches -/

/-- The leaves among the entries of a walk. -/
def reached (entries : List (List κ × Option α)) : List (List κ × α) :=
  entries.filterMap fun entry => entry.2.map fun value => (entry.1, value)

@[simp] lemma reached_nil : reached ([] : List (List κ × Option α)) = [] := rfl

@[simp] lemma reached_append (entries others : List (List κ × Option α)) :
    reached (entries ++ others) = reached entries ++ reached others := by
  simp [reached]

lemma reached_under (name : κ) (entries : List (List κ × Option α)) :
    reached (entries.map (under name)) = (reached entries).map (under name) := by
  simp only [reached, filterMap_map, map_filterMap]
  apply filterMap_congr
  rintro ⟨path, value⟩ -
  cases value <;> rfl

lemma filter_under (p : List κ → Bool) (name : κ) (entries : List (List κ × α)) :
    (entries.map (under name)).filter (fun entry => p entry.1) =
      (entries.filter fun entry => p (name :: entry.1)).map (under name) := by
  rw [List.filter_map]
  rfl

/-- The path of a leaf below a node is not empty. -/
lemma ne_nil_of_mem_leavesOf : ∀ {children : List (κ × NamedTree κ α)} {entry : List κ × α},
    entry ∈ leavesOf children → entry.1 ≠ []
  | (name, tree) :: rest, entry, h => by
    rcases mem_append.mp h with h | h
    · obtain ⟨inner, -, rfl⟩ := List.mem_map.mp h
      exact cons_ne_nil _ _
    · exact ne_nil_of_mem_leavesOf h

mutual

/-- **The leaves that a walk reaches.** -/
lemma reached_walk (skip : List κ → Bool → Bool) : ∀ tree : NamedTree κ α,
    reached (tree.walk skip) = tree.leaves.filter fun entry => !skipsPart skip false entry.1
  | leaf value => by simp [walk, leaves, reached, skipsPart]
  | node children => by
    have h := reached_walkOf skip children
    exact h

lemma reached_walkOf (skip : List κ → Bool → Bool) : ∀ children : List (κ × NamedTree κ α),
    reached (walkOf skip children) =
      (leavesOf children).filter fun entry => !skipsPart skip false entry.1
  | [] => rfl
  | (name, tree) :: rest => by
    have htree := reached_walk (fun path => skip (name :: path)) tree
    have hrest := reached_walkOf skip rest
    have hfirst : reached (if skip [name] tree.isNode then []
          else (walk (fun path => skip (name :: path)) tree).map (under name)) =
        (tree.leaves.map (under name)).filter fun entry => !skipsPart skip false entry.1 := by
      rw [filter_under (fun path => !skipsPart skip false path)]
      cases tree with
      | leaf value =>
        have hnode : (leaf value : NamedTree κ α).isNode = false := rfl
        rw [hnode, walk, leaves]
        by_cases hskip : skip [name] false = true <;> simp [reached, skipsPart, hskip, under]
      | node children =>
        -- the path of a leaf below a node goes on
        have hparts : ∀ entry ∈ (node children).leaves, skipsPart skip false (name :: entry.1) =
            (skip [name] true || skipsPart (fun path => skip (name :: path)) false entry.1) := by
          intro entry hentry
          exact skipsPart_cons skip false name (ne_nil_of_mem_leavesOf hentry)
        rw [filter_congr fun entry hentry => by rw [hparts entry hentry]]
        have hnode : (node children).isNode = true := rfl
        rw [hnode]
        by_cases hskip : skip [name] true = true
        · simp [hskip]
        · rw [if_neg hskip, reached_under, htree]
          simp [hskip]
    rw [walkOf, leavesOf, reached_append, filter_append, hfirst, hrest]

end

/-! ## Grafting -/

def graftedLeaves (f : α → NamedTree κ β) (entry : List κ × α) : List (List κ × β) :=
  (f entry.2).leaves.map fun inner => (entry.1 ++ inner.1, inner.2)

mutual

/-- **The leaves of a grafted tree.** -/
lemma leaves_graft (f : α → NamedTree κ β) : ∀ tree : NamedTree κ α,
    (tree.graft f).leaves = tree.leaves.flatMap (graftedLeaves f)
  | leaf value => by simp [graft, leaves, graftedLeaves]
  | node children => by
    exact leavesOf_graftOf f children

lemma leavesOf_graftOf (f : α → NamedTree κ β) : ∀ children : List (κ × NamedTree κ α),
    leavesOf (graftOf f children) = (leavesOf children).flatMap (graftedLeaves f)
  | [] => rfl
  | (name, tree) :: rest => by
    have hunder : ∀ entry : List κ × α, (graftedLeaves f entry).map (under name) =
        graftedLeaves f (under name entry) := by
      intro entry
      simp only [graftedLeaves, List.map_map]
      rfl
    rw [graftOf, leavesOf, leavesOf, leaves_graft f tree, leavesOf_graftOf f rest,
      flatMap_append, map_flatMap, flatMap_map]
    simp only [hunder]

end

end NamedTree
