import Reposcout.Metrics.Complexity

/-!
# Scopes partition a file

Every node of a file is visited by the walk of exactly one scope: that of its innermost callable,
or of the file.  So the decisions of the file are those of its scopes.
-/

namespace Reposcout.Metrics.Complexity

open List

open Findings (FunctionComplexity)

variable {fc : FirstClass} {cfg : LangConfig}

/-! ## Walks -/

section

variable {skips skips' : Cst → Bool} {nests : Node → Bool}

lemma visitedList_eq_flatMap (nesting : ℕ) (ancestors : List Cst) (trees : List Cst) :
    visitedList skips nests nesting ancestors trees =
      trees.flatMap (visited skips nests nesting ancestors) := by
  induction trees with
  | nil => rfl
  | cons child rest ih => rw [visitedList, flatMap_cons, ih]

def childNesting (nests : Node → Bool) (nesting : ℕ) (node : Node) : ℕ :=
  if nests node then satAdd32 nesting 1 else nesting

lemma visited_eq (nesting : ℕ) (ancestors : List Cst) (tree : Cst) :
    visited skips nests nesting ancestors tree =
      if skips tree then []
      else (⟨tree, ancestors⟩, nesting) :: tree.children.flatMap
        (visited skips nests (childNesting nests nesting ⟨tree, ancestors⟩)
          (tree :: ancestors)) := by
  cases tree with
  | node => rw [visited, visitedList_eq_flatMap, childNesting, Cst.children]

variable {tree : Cst}

/-- A walk depends on what it skips inside of the tree only. -/
lemma visited_congr : ∀ {nesting : ℕ} {ancestors : List Cst},
    (∀ place ∈ tree.nodes ancestors, skips place.tree = skips' place.tree) →
      visited skips nests nesting ancestors tree = visited skips' nests nesting ancestors tree := by
  induction tree using Cst.induction_children with
  | step tree ih =>
    intro nesting ancestors h
    have hbelow : ∀ child ∈ tree.children, ∀ place ∈ child.nodes (tree :: ancestors),
        skips place.tree = skips' place.tree := by
      intro child hchild place hplace
      apply h
      rw [Cst.nodes_eq]
      exact mem_cons_of_mem _ (mem_flatMap.mpr ⟨child, hchild, hplace⟩)
    rw [visited_eq, visited_eq, h ⟨tree, ancestors⟩ (Cst.mem_nodes_self _ _)]
    congr 2
    exact flatMap_congr fun child hchild => ih child hchild (hbelow child hchild)

/-- Which nodes a walk visits does not depend on the nesting. -/
lemma map_fst_visited : ∀ (nesting nesting' : ℕ) (ancestors : List Cst),
    (visited skips nests nesting ancestors tree).map Prod.fst =
      (visited skips nests nesting' ancestors tree).map Prod.fst := by
  induction tree using Cst.induction_children with
  | step tree ih =>
    intro nesting nesting' ancestors
    rw [visited_eq, visited_eq]
    split
    · rfl
    · rw [map_cons, map_cons, map_flatMap, map_flatMap]
      congr 1
      exact flatMap_congr fun child hchild => ih child hchild _ _ _

end

/-! ## Scopes -/

/-- A file whose callables can be told from the callables around them. -/
structure Separable (cfg : LangConfig) (file : Cst) : Prop where
  /-- The root of a syntax tree is the file. -/
  file_kind : file.kind ∉ cfg.functionKinds
  no_twin : ∀ place ∈ file.nodes [], isFunctionNode cfg place.tree = true →
    ∀ ancestor ∈ place.ancestors, isFunctionNode cfg ancestor = true →
      sameNode place.tree ancestor = false

instance (file : Cst) : Decidable (Separable cfg file) :=
  decidable_of_iff (file.kind ∉ cfg.functionKinds ∧
      ∀ place ∈ file.nodes [], isFunctionNode cfg place.tree = true →
        ∀ ancestor ∈ place.ancestors, isFunctionNode cfg ancestor = true →
          sameNode place.tree ancestor = false)
    ⟨fun h => ⟨h.1, h.2⟩, fun h => ⟨h.1, h.2⟩⟩

def callables (cfg : LangConfig) (file : Cst) : List Node :=
  (file.nodes []).filter fun place => isFunctionNode cfg place.tree

def scopeNodes (fc : FirstClass) (cfg : LangConfig) (root : Node) : List Node :=
  (scopeVisits fc cfg root).map Prod.fst

/-- The innermost callable among a node and its ancestors. -/
def innermost (cfg : LangConfig) : List Cst → Option Node
  | [] => none
  | tree :: rest => if isFunctionNode cfg tree then some ⟨tree, rest⟩ else innermost cfg rest

/-- The callable to which a node belongs. -/
def ownerOf (cfg : LangConfig) (place : Node) : Option Node :=
  innermost cfg (place.tree :: place.ancestors)

def ownNodes (fc : FirstClass) (cfg : LangConfig) (ancestors : List Cst) (tree : Cst) : List Node :=
  (visited (isFunctionNode cfg) (increasesNesting fc cfg) 0 ancestors tree).map Prod.fst

lemma ownNodes_eq (ancestors : List Cst) (tree : Cst) : ownNodes fc cfg ancestors tree =
      if isFunctionNode cfg tree then []
      else ⟨tree, ancestors⟩ ::
        tree.children.flatMap (ownNodes fc cfg (tree :: ancestors)) := by
  rw [ownNodes, visited_eq]
  split
  · rfl
  · rw [map_cons, map_flatMap]
    congr 1
    exact flatMap_congr fun child _ => map_fst_visited _ _ _

/-- A node and what below it is in no other callable. -/
def bodyNodes (fc : FirstClass) (cfg : LangConfig) (root : Node) : List Node :=
  root :: root.tree.children.flatMap (ownNodes fc cfg (root.tree :: root.ancestors))

variable {root : Node}

/-- Below the root of a scope the callables are skipped, and nothing else. -/
lemma scopeVisits_eq
    (hskips : ∀ place ∈ root.tree.nodes root.ancestors,
    place ≠ root → skipsNested cfg root.tree place.tree = isFunctionNode cfg place.tree) :
    scopeVisits fc cfg root = (root, 0) :: root.tree.children.flatMap
      (visited (isFunctionNode cfg) (increasesNesting fc cfg)
        (childNesting (increasesNesting fc cfg) 0 root) (root.tree :: root.ancestors)) := by
  have hself : skipsNested cfg root.tree root.tree = false := by
    simp [skipsNested, sameNode]
  rw [scopeVisits, visited_eq, hself, if_neg Bool.false_ne_true]
  congr 1
  refine flatMap_congr fun child hchild => visited_congr fun place hplace => ?_
  apply hskips
  · rw [Cst.nodes_eq]
    exact mem_cons_of_mem _ (mem_flatMap.mpr ⟨child, hchild, hplace⟩)
  · rintro rfl
    have hlength : place.ancestors.length = (place.tree :: place.ancestors).length ∨
        (place.tree :: place.ancestors).length < place.ancestors.length := by
      rcases Cst.ancestors_of_mem_nodes hplace with h | ⟨path, hpath⟩
      · exact .inl (congrArg (fun node => node.ancestors.length) h)
      · right
        have := congrArg length hpath
        simp only [length_append, length_cons] at this ⊢
        omega
    rw [length_cons] at hlength
    omega

section

variable {file : Cst}

lemma Separable.file_not_callable (h : Separable cfg file) : isFunctionNode cfg file = false := by
  rw [isFunctionNode, decide_eq_false h.file_kind, Bool.and_false]

/-- A node that is no twin of a callable below it is the root of a scope. -/
lemma Separable.skipsNested_eq (h : Separable cfg file) (hroot : root ∈ file.nodes [])
    (hscope : root = ⟨file, []⟩ ∨ isFunctionNode cfg root.tree = true) {place : Node}
    (hplace : place ∈ root.tree.nodes root.ancestors) (hne : place ≠ root) :
    skipsNested cfg root.tree place.tree = isFunctionNode cfg place.tree := by
  by_cases hcallable : isFunctionNode cfg place.tree = true
  · rw [skipsNested, hcallable, Bool.and_true]
    rcases hscope with rfl | hscope
    · have hkind : place.tree.kind ≠ file.kind := by
        intro heq
        apply h.file_kind
        rw [← heq]
        exact of_decide_eq_true ((Bool.and_eq_true _ _).mp hcallable).2
      rw [sameNode, decide_eq_false hkind, Bool.and_false]
      rfl
    · obtain ⟨path, hpath⟩ := (Cst.ancestors_of_mem_nodes hplace).resolve_left hne
      have hfile : place ∈ file.nodes [] := Cst.mem_nodes_trans hroot hplace
      rw [h.no_twin place hfile hcallable root.tree (by rw [hpath]; simp) hscope]
      rfl
  · rw [Bool.not_eq_true] at hcallable
    rw [skipsNested, hcallable, Bool.and_false]

lemma Separable.scopeNodes_eq (h : Separable cfg file) (hroot : root ∈ file.nodes [])
    (hscope : root = ⟨file, []⟩ ∨ isFunctionNode cfg root.tree = true) :
    scopeNodes fc cfg root = bodyNodes fc cfg root := by
  rw [scopeNodes, scopeVisits_eq fun place hplace hne => h.skipsNested_eq hroot hscope hplace hne,
    map_cons, map_flatMap, bodyNodes]
  congr 1
  exact flatMap_congr fun child _ => map_fst_visited _ _ _

end

/-! ## The partition -/

lemma append_append_perm {α : Type} (a b c d : List α) :
    ((a ++ b) ++ (c ++ d)).Perm ((a ++ c) ++ (b ++ d)) := by
  rw [append_assoc, append_assoc]
  apply Perm.append_left
  rw [← append_assoc, ← append_assoc]
  exact perm_append_comm.append_right d

lemma ownNodes_perm (tree : Cst) : ∀ ancestors : List Cst, (ownNodes fc cfg ancestors tree ++
      ((tree.nodes ancestors).filter fun place => isFunctionNode cfg place.tree).flatMap
        (bodyNodes fc cfg)).Perm (tree.nodes ancestors) := by
  induction tree using Cst.induction_children with
  | step tree ih =>
    intro ancestors
    -- the same for the children, put together
    have hchildren : ∀ children : List Cst, (∀ child ∈ children, child ∈ tree.children) →
        (children.flatMap (ownNodes fc cfg (tree :: ancestors)) ++
          ((children.flatMap (Cst.nodes (tree :: ancestors))).filter fun place =>
            isFunctionNode cfg place.tree).flatMap (bodyNodes fc cfg)).Perm
          (children.flatMap (Cst.nodes (tree :: ancestors))) := by
      intro children
      induction children with
      | nil => exact fun _ => .refl _
      | cons child rest ihrest =>
        intro hall
        obtain ⟨hchild, hrest⟩ := forall_mem_cons.mp hall
        rw [flatMap_cons, flatMap_cons, filter_append, flatMap_append]
        exact (append_append_perm _ _ _ _).trans
          ((ih child hchild (tree :: ancestors)).append (ihrest hrest))
    have hbelow := hchildren tree.children fun _ h => h
    rw [ownNodes_eq, Cst.nodes_eq, filter_cons]
    by_cases hcallable : isFunctionNode cfg tree = true
    · rw [if_pos hcallable, if_pos hcallable, nil_append, flatMap_cons, bodyNodes, cons_append]
      exact hbelow.cons _
    · rw [if_neg hcallable, if_neg hcallable, cons_append]
      exact hbelow.cons _

/-- **Every node is in one scope.** -/
lemma scopes_perm {file : Cst} (h : Separable cfg file) :
    (scopeNodes fc cfg ⟨file, []⟩ ++ (callables cfg file).flatMap (scopeNodes fc cfg)).Perm
      (file.nodes []) := by
  have hfile : scopeNodes fc cfg ⟨file, []⟩ = ownNodes fc cfg [] file := by
    rw [h.scopeNodes_eq (Cst.mem_nodes_self [] file) (.inl rfl), ownNodes_eq,
      if_neg (by rw [h.file_not_callable]; decide), bodyNodes]
  have hcallables : (callables cfg file).flatMap (scopeNodes fc cfg) =
      (callables cfg file).flatMap (bodyNodes fc cfg) := by
    refine flatMap_congr fun root hroot => ?_
    obtain ⟨hmem, hcallable⟩ := mem_filter.mp hroot
    exact h.scopeNodes_eq hmem (.inr hcallable)
  rw [hfile, hcallables]
  exact ownNodes_perm file []

lemma innermost_append {path rest : List Cst}
    (hpath : ∀ tree ∈ path, isFunctionNode cfg tree = false) :
    innermost cfg (path ++ rest) = innermost cfg rest := by
  induction path with
  | nil => rfl
  | cons tree path ih =>
    obtain ⟨htree, hpath⟩ := forall_mem_cons.mp hpath
    rw [cons_append, innermost, if_neg (by rw [htree]; decide), ih hpath]

lemma of_mem_ownNodes : ∀ {ancestors : List Cst} {place : Node},
    place ∈ ownNodes fc cfg ancestors tree → ∃ path,
      place.tree :: place.ancestors = path ++ ancestors ∧
        ∀ other ∈ path, isFunctionNode cfg other = false := by
  induction tree using Cst.induction_children with
  | step tree ih =>
    intro ancestors place hplace
    rw [ownNodes_eq] at hplace
    split at hplace
    · cases hplace
    next hcallable =>
      rw [Bool.not_eq_true] at hcallable
      rw [mem_cons, mem_flatMap] at hplace
      rcases hplace with rfl | ⟨child, hchild, hplace⟩
      · exact ⟨[tree], rfl, by simpa using hcallable⟩
      · obtain ⟨path, hpath, hall⟩ := ih child hchild hplace
        refine ⟨path ++ [tree], by rw [hpath, append_assoc, singleton_append], ?_⟩
        intro other hother
        rcases mem_append.mp hother with hother | hother
        · exact hall other hother
        · rw [mem_singleton.mp hother]
          exact hcallable

/-- A scope visits nodes of its own callable only. -/
lemma ownerOf_of_mem_scopeNodes {file : Cst} (h : Separable cfg file) {root place : Node}
    (hroot : root ∈ file.nodes [])
    (hscope : root = ⟨file, []⟩ ∨ isFunctionNode cfg root.tree = true)
    (hplace : place ∈ scopeNodes fc cfg root) : ownerOf cfg place = ownerOf cfg root := by
  rw [h.scopeNodes_eq hroot hscope, bodyNodes, mem_cons, mem_flatMap] at hplace
  rcases hplace with rfl | ⟨child, _, hplace⟩
  · rfl
  · obtain ⟨path, hpath, hall⟩ := of_mem_ownNodes hplace
    rw [ownerOf, hpath, innermost_append hall, ownerOf]

/-! ## Sums -/

lemma foldl_satAdd32 {α : Type} (f : α → ℕ) (l : List α) (count : ℕ) :
    l.foldl (fun total item => satAdd32 total (f item)) (min count u32Max) =
      min (count + (l.map f).sum) u32Max := by
  induction l generalizing count with
  | nil => rfl
  | cons item rest ih =>
    rw [foldl_cons, satAdd32_min, ih, map_cons, sum_cons, Nat.add_assoc]

section

variable {classes : CharClasses}

/-- What a node adds to the cognitive complexity of its scope. -/
def cognitiveIncrement (fc : FirstClass) (cfg : LangConfig) (visit : Node × ℕ) : ℕ :=
  (if isBooleanSequenceRoot fc visit.1 then countBooleanSequences fc visit.1.tree else 0) +
    (isLabeledJump fc cfg visit.1.tree).toNat + (isElseClause cfg visit.1).toNat +
    if visit.1.kind ∈ cfg.cognitiveStructureKinds ∧ !isElseIfNode fc cfg visit.1 then
      satAdd32 1 visit.2
    else 0

variable (visits : List (Node × ℕ)) (metrics : ScopeMetrics)

lemma foldl_addNode_decisionPoints :
    (visits.foldl (addNode classes fc cfg) metrics).decisionPoints =
      visits.foldl (fun total visit =>
        satAdd32 total (decisionIncrement classes fc cfg visit.1.tree)) metrics.decisionPoints := by
  induction visits generalizing metrics with
  | nil => rfl
  | cons visit rest ih => rw [foldl_cons, foldl_cons, ih, addNode]

lemma addNode_cognitive (visit : Node × ℕ) (metrics : ScopeMetrics) {count : ℕ}
    (hcount : metrics.cognitive = min count u32Max) :
    (addNode classes fc cfg metrics visit).cognitive =
      min (count + cognitiveIncrement fc cfg visit) u32Max := by
  have hadd : ∀ (p : Prop) [Decidable p] (total amount : ℕ),
      (if p then satAdd32 (min total u32Max) amount else min total u32Max) =
        min (total + if p then amount else 0) u32Max := by
    intro p _ total amount
    split
    · exact satAdd32_min total amount
    · rfl
  have hflag : ∀ flag : Bool, (if flag = true then 1 else 0) = flag.toNat := by decide
  simp only [addNode, hcount, hadd, hflag, cognitiveIncrement, Nat.add_assoc]

lemma foldl_addNode_cognitive {count : ℕ} (hcount : metrics.cognitive = min count u32Max) :
    (visits.foldl (addNode classes fc cfg) metrics).cognitive =
      min (count + (visits.map (cognitiveIncrement fc cfg)).sum) u32Max := by
  induction visits generalizing metrics count with
  | nil => exact hcount
  | cons visit rest ih =>
    rw [foldl_cons, ih _ (addNode_cognitive visit metrics hcount), map_cons,
      sum_cons, Nat.add_assoc]

def decisionsAt (classes : CharClasses) (fc : FirstClass) (cfg : LangConfig) (place : Node) : ℕ :=
  decisionIncrement classes fc cfg place.tree

lemma decisionPoints_analyzeScope (root : Node) :
    (analyzeScope classes fc cfg root).decisionPoints =
      min ((scopeNodes fc cfg root).map (decisionsAt classes fc cfg)).sum u32Max := by
  have h := foldl_satAdd32 (fun visit : Node × ℕ => decisionsAt classes fc cfg visit.1)
    (scopeVisits fc cfg root) 0
  rw [Nat.zero_min, Nat.zero_add] at h
  rw [analyzeScope, foldl_addNode_decisionPoints, scopeNodes, map_map]
  exact h

lemma cognitive_analyzeScope (root : Node) : (analyzeScope classes fc cfg root).cognitive =
      min ((scopeVisits fc cfg root).map (cognitiveIncrement fc cfg)).sum u32Max := by
  have h := @foldl_addNode_cognitive fc cfg classes (scopeVisits fc cfg root) {} 0 rfl
  rw [Nat.zero_add] at h
  exact h

/-! ## The file -/

def Reports (classes : CharClasses) (fc : FirstClass) (cfg : LangConfig)
    (function : FunctionComplexity) (node : Node) : Prop :=
  ∃ key occurrence, function = functionComplexity classes fc cfg node key occurrence

lemma forall₂_foldl_collectFunction (nodes : List Node) (state : List FunctionComplexity ×
    List (String × ℕ)) {before : List Node}
    (hstate : Forall₂ (Reports classes fc cfg) state.1 before) :
    Forall₂ (Reports classes fc cfg)
      (nodes.foldl (collectFunction classes fc cfg) state).1 (before ++ nodes) := by
  induction nodes generalizing state before with
  | nil => rwa [append_nil]
  | cons node rest ih =>
    have hstep := ih (collectFunction classes fc cfg state node)
      (rel_append hstate (.cons ⟨_, _, rfl⟩ .nil) : Forall₂ _ _ (before ++ [node]))
    rwa [append_assoc, singleton_append] at hstep

lemma forall₂_collectFunctions (file : Cst) : Forall₂ (Reports classes fc cfg)
      (collectFunctions classes fc cfg file) (functionNodes cfg file) :=
  forall₂_foldl_collectFunction (functionNodes cfg file) ([], []) .nil

lemma functionNodes_perm (file : Cst) : (functionNodes cfg file).Perm (callables cfg file) :=
  KeyedList.sortBy_perm _ _

def scopeDecisions (classes : CharClasses) (fc : FirstClass) (cfg : LangConfig) (root : Node) :
    ℕ :=
  ((scopeNodes fc cfg root).map (decisionsAt classes fc cfg)).sum

lemma satAdd32_min_right (total amount : ℕ) :
    satAdd32 total (min amount u32Max) = satAdd32 total amount := by
  unfold satAdd32
  omega

lemma cyclomatic_functionComplexity (node : Node) (key : String) (occurrence : ℕ) :
    (functionComplexity classes fc cfg node key occurrence).cyclomatic =
      min (1 + scopeDecisions classes fc cfg node) u32Max := by
  simp only [functionComplexity, decisionPoints_analyzeScope, satAdd32_min_right]
  rfl

lemma foldl_cyclomatic {functions : List FunctionComplexity} {nodes : List Node}
    (h : Forall₂ (Reports classes fc cfg) functions nodes)
    (count : ℕ) :
    functions.foldl (fun total function => satAdd32 total function.cyclomatic)
        (min count u32Max) =
      min (count + (nodes.map fun node => 1 + scopeDecisions classes fc cfg node).sum) u32Max := by
  induction h generalizing count with
  | nil => rfl
  | cons hfirst _ ih =>
    obtain ⟨key, occurrence, rfl⟩ := hfirst
    rw [foldl_cons, cyclomatic_functionComplexity, satAdd32_min_right, satAdd32_min, ih,
      map_cons, sum_cons, Nat.add_assoc]

lemma sum_map_flatMap {α β : Type} (f : α → List β) (g : β → ℕ) (l : List α) :
    ((l.flatMap f).map g).sum = (l.map fun item => ((f item).map g).sum).sum := by
  induction l with
  | nil => rfl
  | cons item rest ih =>
    rw [flatMap_cons, map_append, sum_append, ih, map_cons, sum_cons]

lemma sum_scopeDecisions {file : Cst} (h : Separable cfg file) :
    scopeDecisions classes fc cfg ⟨file, []⟩ +
        ((callables cfg file).map (scopeDecisions classes fc cfg)).sum =
      ((file.nodes []).map (decisionsAt classes fc cfg)).sum := by
  have hperm := ((@scopes_perm fc cfg file h).map (decisionsAt classes fc cfg)).sum_eq
  rw [map_append, sum_append, sum_map_flatMap] at hperm
  exact hperm

/-- **The cyclomatic complexity of a file.** -/
lemma cyclomatic_analyzeAst {file : Cst} (h : Separable (config fc) file) :
    (analyzeAst classes fc file).cyclomatic =
      min (((file.nodes []).map (decisionsAt classes fc (config fc))).sum +
        max 1 (callables (config fc) file).length) u32Max := by
  have hfunctions := @forall₂_collectFunctions fc (config fc) classes file
  have hperm := @functionNodes_perm (config fc) file
  have hlength := hfunctions.length_eq.trans hperm.length_eq
  have hsum : ((functionNodes (config fc) file).map fun node =>
      1 + scopeDecisions classes fc (config fc) node).sum = (callables (config fc) file).length +
          ((callables (config fc) file).map (scopeDecisions classes fc (config fc))).sum := by
    rw [(hperm.map _).sum_eq]
    induction callables (config fc) file with
    | nil => rfl
    | cons node rest ih =>
      rw [map_cons, sum_cons, ih, length_cons, map_cons, sum_cons]
      omega
  have htotal := @sum_scopeDecisions fc (config fc) classes file h
  have htop := @decisionPoints_analyzeScope fc (config fc) classes ⟨file, []⟩
  change _ = min (scopeDecisions classes fc (config fc) ⟨file, []⟩) u32Max at htop
  simp only [analyzeAst]
  rw [htop]
  split
  next hnone =>
    rw [hnone, length_nil, eq_comm, length_eq_zero_iff] at hlength
    rw [hlength, map_nil, sum_nil, Nat.add_zero] at htotal
    rw [hlength, ← htotal, satAdd32_min_right, satAdd32, Nat.add_comm]
    rfl
  next hsome =>
    have hpos : 0 < (callables (config fc) file).length := by
      rw [← hlength]
      exact length_pos_iff.mpr hsome
    rw [foldl_cyclomatic hfunctions, hsum, Nat.max_eq_right hpos]
    omega

end

end Reposcout.Metrics.Complexity
