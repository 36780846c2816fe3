import Mathlib.Data.List.SplitBy
import Reposcout.Metrics.Complexity

/-!
# Boolean operators are counted once

Root detection climbs the tree and collection descends it.  Both follow the same nodes, the
boolean expressions and the groups around them, so every operator of an expression is collected
by exactly one root.
-/

namespace Reposcout.Metrics.Complexity

open List Option

variable {fc : FirstClass}

/-! ## The vocabulary -/

def SpellsOperator (fc : FirstClass) (tree : Cst) : Prop :=
  (booleanOperatorKind fc tree).isSome

/-- A boolean expression has an operator among its children. -/
def BooleanExpression (fc : FirstClass) (tree : Cst) : Prop :=
  (directBooleanOperator fc tree).isSome

/-- A boolean expression or a group around one, through which operators are collected. -/
def Flattens (fc : FirstClass) (tree : Cst) : Prop :=
  isTransparentBooleanGroup tree.kind = true ∨ BooleanExpression fc tree

structure OperatorToken (fc : FirstClass) (place : Node) : Prop where
  spells : SpellsOperator fc place.tree
  outermost : ∀ ancestor ∈ place.ancestors, ¬ SpellsOperator fc ancestor

mutual

/-- The nodes whose operators `collectBooleanOps` lists: an operator stands for itself, an
expression or a group for what is below it, and anything else for nothing. -/
def operatorNodes (fc : FirstClass) (ancestors : List Cst) : Cst → List Node
  | tree@(.node _ _ _ _ _ _ children) =>
    if (booleanOperatorKind fc tree).isSome then [⟨tree, ancestors⟩]
    else if isTransparentBooleanGroup tree.kind || (directBooleanOperator fc tree).isSome then
      operatorNodesList fc (tree :: ancestors) children
    else []

def operatorNodesList (fc : FirstClass) (ancestors : List Cst) : List Cst → List Node
  | [] => []
  | child :: rest => operatorNodes fc ancestors child ++ operatorNodesList fc ancestors rest

end

def listedOperators (fc : FirstClass) (root : Node) : List Node :=
  operatorNodes fc root.ancestors root.tree

variable {tree : Cst}

lemma flattens_iff :
    (isTransparentBooleanGroup tree.kind || (directBooleanOperator fc tree).isSome) = true ↔
      Flattens fc tree := by
  rw [Bool.or_eq_true]
  exact Iff.rfl

lemma not_group_of_booleanExpression (h : BooleanExpression fc tree) :
    isTransparentBooleanGroup tree.kind = false := by
  unfold BooleanExpression directBooleanOperator at h
  split at h
  next hkind =>
    simp only [isBooleanExpressionKind, decide_eq_true_eq, mem_cons, not_mem_nil, or_false] at hkind
    rcases hkind with hkind | hkind | hkind | hkind <;> rw [hkind] <;> decide
  next => cases h

/-- Callables take no operators from outside. -/
lemma not_flattens_of_function (h : isFunctionNode (config fc) tree = true) :
    ¬ Flattens fc tree := by
  have hkinds : ∀ kind ∈ (config fc).functionKinds,
      isTransparentBooleanGroup kind = false ∧ isBooleanExpressionKind kind = false := by
    cases fc <;> decide
  obtain ⟨_, hkind⟩ := (Bool.and_eq_true _ _).mp h
  obtain ⟨hgroup, hexpression⟩ := hkinds tree.kind (of_decide_eq_true hkind)
  rintro (h | h)
  · exact absurd h (by rw [hgroup]; decide)
  · unfold BooleanExpression directBooleanOperator at h
    rw [hexpression, if_neg Bool.false_ne_true] at h
    cases h

/-! ## What a root lists -/

mutual

lemma collectBooleanOps_eq {ancestors : List Cst} : ∀ tree : Cst, collectBooleanOps fc tree =
      (operatorNodes fc ancestors tree).filterMap fun place => booleanOperatorKind fc place.tree
  | .node id kind field isNamed span text children => by
    rw [collectBooleanOps, operatorNodes]
    cases hop : booleanOperatorKind fc (.node id kind field isNamed span text children) with
    | some op => simp [hop]
    | none =>
      dsimp only
      split
      · exact collectBooleanOpsList_eq children
      · rfl

lemma collectBooleanOpsList_eq {ancestors : List Cst} : ∀ trees : List Cst,
    collectBooleanOpsList fc trees =
      (operatorNodesList fc ancestors trees).filterMap fun place =>
        booleanOperatorKind fc place.tree
  | [] => rfl
  | child :: rest => by
    rw [collectBooleanOpsList, operatorNodesList, filterMap_append,
      collectBooleanOps_eq child, collectBooleanOpsList_eq rest]

end

mutual

lemma operatorNodes_sublist {ancestors : List Cst} : ∀ tree : Cst,
    (operatorNodes fc ancestors tree).Sublist (tree.nodes ancestors)
  | .node id kind field isNamed span text children => by
    rw [operatorNodes, Cst.nodes]
    split
    · exact singleton_sublist.mpr mem_cons_self
    · split
      · exact (operatorNodesList_sublist children).cons _
      · exact nil_sublist _

lemma operatorNodesList_sublist {ancestors : List Cst} : ∀ trees : List Cst,
    (operatorNodesList fc ancestors trees).Sublist (Cst.nodesList ancestors trees)
  | [] => Sublist.refl _
  | child :: rest => by
    exact (operatorNodes_sublist child).append (operatorNodesList_sublist rest)

end

/-- The nodes from a place up to some ancestors are flattened, and none spells an operator. -/
def ThroughExpressions (fc : FirstClass) (ancestors : List Cst) (place : Node) : Prop :=
  ∃ path, place.ancestors = path ++ ancestors ∧
    ∀ tree ∈ path, Flattens fc tree ∧ ¬ SpellsOperator fc tree

variable {place : Node}

lemma throughExpressions_cons_iff {ancestors : List Cst}
    (hbelow : ∃ path, place.ancestors = path ++ tree :: ancestors) :
    ThroughExpressions fc ancestors place ↔ Flattens fc tree ∧ ¬ SpellsOperator fc tree ∧
        ThroughExpressions fc (tree :: ancestors) place := by
  obtain ⟨front, hfront⟩ := hbelow
  constructor
  · rintro ⟨path, hpath, hall⟩
    have hsame : path ++ ancestors = (front ++ [tree]) ++ ancestors := by
      rw [← hpath, hfront, append_assoc, singleton_append]
    obtain rfl := append_cancel_right hsame
    obtain ⟨hflattens, hspells⟩ := hall tree (by simp)
    exact ⟨hflattens, hspells, front, hfront,
      fun other hother => hall other (mem_append_left _ hother)⟩
  · rintro ⟨hflattens, hspells, path, hpath, hall⟩
    refine ⟨path ++ [tree], by rw [hpath, append_assoc, singleton_append], ?_⟩
    intro other hother
    rcases mem_append.mp hother with hother | hother
    · exact hall other hother
    · rw [mem_singleton.mp hother]
      exact ⟨hflattens, hspells⟩

mutual

lemma mem_operatorNodes_iff {ancestors : List Cst} : ∀ tree : Cst,
    place ∈ operatorNodes fc ancestors tree ↔
      place ∈ tree.nodes ancestors ∧ SpellsOperator fc place.tree ∧
        ThroughExpressions fc ancestors place
  | .node id kind field isNamed span text children => by
    have hself : ThroughExpressions fc ancestors
        ⟨.node id kind field isNamed span text children, ancestors⟩ :=
      ⟨[], rfl, nofun⟩
    rw [operatorNodes, Cst.nodes, mem_cons]
    split
    next hspells =>
      rw [mem_singleton]
      constructor
      · rintro rfl
        exact ⟨.inl rfl, hspells, hself⟩
      · rintro ⟨rfl | hbelow, _, hthrough⟩
        · rfl
        · rw [throughExpressions_cons_iff (Cst.ancestors_of_mem_nodesList hbelow)] at hthrough
          exact absurd hspells hthrough.2.1
    next hspells =>
      have hbelow_iff : ∀ hbelow : place ∈ Cst.nodesList
          (.node id kind field isNamed span text children :: ancestors) children,
          ThroughExpressions fc ancestors place ↔
            Flattens fc (.node id kind field isNamed span text children) ∧
              ThroughExpressions fc (.node id kind field isNamed span text children :: ancestors)
                place := by
        intro hbelow
        rw [throughExpressions_cons_iff (Cst.ancestors_of_mem_nodesList hbelow)]
        exact and_congr_right fun _ => and_iff_right hspells
      split
      next hflattens =>
        rw [mem_operatorNodesList_iff children]
        constructor
        · rintro ⟨hbelow, hop, hthrough⟩
          exact ⟨.inr hbelow, hop, (hbelow_iff hbelow).mpr ⟨flattens_iff.mp hflattens, hthrough⟩⟩
        · rintro ⟨rfl | hbelow, hop, hthrough⟩
          · exact absurd hop hspells
          · exact ⟨hbelow, hop, ((hbelow_iff hbelow).mp hthrough).2⟩
      next hflattens =>
        constructor
        · exact nofun
        · rintro ⟨rfl | hbelow, hop, hthrough⟩
          · exact absurd hop hspells
          · exact absurd (flattens_iff.mpr ((hbelow_iff hbelow).mp hthrough).1) hflattens

lemma mem_operatorNodesList_iff {ancestors : List Cst} : ∀ trees : List Cst,
    place ∈ operatorNodesList fc ancestors trees ↔
      place ∈ Cst.nodesList ancestors trees ∧ SpellsOperator fc place.tree ∧
        ThroughExpressions fc ancestors place
  | [] => ⟨nofun, fun h => nomatch h.1⟩
  | child :: rest => by
    rw [operatorNodesList, Cst.nodesList, mem_append, mem_append,
      mem_operatorNodes_iff child, mem_operatorNodesList_iff rest, or_and_right]

end

/-! ## Roots -/

lemma climbsFree_eq_false_iff {ancestors : List Cst} :
    climbsFree fc ancestors = false ↔ ∃ groups expression rest,
      ancestors = groups ++ expression :: rest ∧
        (∀ group ∈ groups, isTransparentBooleanGroup group.kind = true) ∧
        BooleanExpression fc expression := by
  induction ancestors with
  | nil => simp [climbsFree]
  | cons ancestor above ih =>
    rw [climbsFree]
    split
    next hgroup =>
      rw [ih]
      constructor
      · rintro ⟨groups, expression, rest, rfl, hgroups, hexpression⟩
        exact ⟨ancestor :: groups, expression, rest, rfl,
          forall_mem_cons.mpr ⟨hgroup, hgroups⟩, hexpression⟩
      · rintro ⟨groups, expression, rest, heq, hgroups, hexpression⟩
        cases groups with
        | nil =>
          cases heq
          exact absurd hgroup (by rw [not_group_of_booleanExpression hexpression]; decide)
        | cons group groups =>
          obtain ⟨rfl, habove⟩ := cons.inj heq
          exact ⟨groups, expression, rest, habove, (forall_mem_cons.mp hgroups).2, hexpression⟩
    next hgroup =>
      rw [← Bool.not_eq_true, isNone_iff_eq_none, ← Ne, ne_none_iff_isSome]
      constructor
      · exact fun hexpression => ⟨[], ancestor, above, rfl, by simp, hexpression⟩
      · rintro ⟨groups, expression, rest, heq, hgroups, hexpression⟩
        cases groups with
        | nil =>
          cases heq
          exact hexpression
        | cons group groups =>
          cases heq
          exact absurd ((forall_mem_cons.mp hgroups).1) hgroup

variable {root : Node}

lemma isBooleanSequenceRoot_iff : isBooleanSequenceRoot fc root = true ↔
      BooleanExpression fc root.tree ∧ climbsFree fc root.ancestors = true :=
  by rw [isBooleanSequenceRoot, Bool.and_eq_true]; exact Iff.rfl

variable {rest : List Cst}

lemma not_climbsFree_of_flattens {ancestors path : List Cst} {expression : Cst}
    (heq : ancestors = path ++ expression :: rest) (hpath : ∀ tree ∈ path, Flattens fc tree)
    (hexpression : BooleanExpression fc expression) : climbsFree fc ancestors = false := by
  induction path generalizing ancestors with
  | nil =>
    exact climbsFree_eq_false_iff.mpr ⟨[], expression, rest, heq, by simp, hexpression⟩
  | cons tree path ih =>
    subst heq
    obtain ⟨htree, hrest⟩ := forall_mem_cons.mp hpath
    by_cases hgroup : isTransparentBooleanGroup tree.kind = true
    · rw [cons_append, climbsFree, if_pos hgroup]
      exact ih rfl hrest
    · exact climbsFree_eq_false_iff.mpr
        ⟨[], tree, path ++ expression :: rest, rfl, by simp, htree.resolve_left hgroup⟩

lemma maximal_of_root (hroot : isBooleanSequenceRoot fc root = true)
    {path : List Cst} {expression : Cst} (heq : root.ancestors = path ++ expression :: rest)
    (hpath : ∀ tree ∈ path, Flattens fc tree) : ¬ BooleanExpression fc expression := by
  intro hexpression
  have hclimb := (isBooleanSequenceRoot_iff.mp hroot).2
  rw [not_climbsFree_of_flattens heq hpath hexpression] at hclimb
  cases hclimb

/-- Two roots that list one operator are one. -/
lemma root_unique {first second : Node} (hfirst : isBooleanSequenceRoot fc first = true)
    (hsecond : isBooleanSequenceRoot fc second = true)
    (hbelow : ∃ path, place.ancestors = path ++ first.tree :: first.ancestors ∧
      ∀ tree ∈ path, Flattens fc tree)
    (hbelow' : ∃ path, place.ancestors = path ++ second.tree :: second.ancestors ∧
      ∀ tree ∈ path, Flattens fc tree) : first = second := by
  -- the one nearer to the operator would be part of the other
  have hnearer : ∀ {near far : Node} {path path' : List Cst},
      isBooleanSequenceRoot fc near = true → isBooleanSequenceRoot fc far = true →
      path ++ near.tree :: near.ancestors = path' ++ far.tree :: far.ancestors →
      (∀ tree ∈ path', Flattens fc tree) → path.length ≤ path'.length → near = far := by
    intro near far path path' hnear hfar heq hpath' hlength
    rcases append_eq_append_iff.mp heq with ⟨middle, rfl, hmiddle⟩ | ⟨middle, rfl, hmiddle⟩
    · cases middle with
      | nil =>
        obtain ⟨htree, hancestors⟩ := cons.inj hmiddle
        exact congrArg₂ Node.mk htree hancestors
      | cons tree middle =>
        obtain ⟨_, hancestors⟩ := cons.inj hmiddle
        exact absurd (isBooleanSequenceRoot_iff.mp hfar).1
          (maximal_of_root hnear hancestors fun tree' htree' =>
            hpath' tree' (mem_append_right _ (mem_cons_of_mem _ htree')))
    · obtain rfl : middle = [] := by
        rw [length_append] at hlength
        exact length_eq_zero_iff.mp (by omega)
      obtain ⟨htree, hancestors⟩ := cons.inj hmiddle
      exact congrArg₂ Node.mk htree.symm hancestors.symm
  obtain ⟨path, heq, hpath⟩ := hbelow
  obtain ⟨path', heq', hpath'⟩ := hbelow'
  rcases Nat.le_total path.length path'.length with hlength | hlength
  · exact hnearer hfirst hsecond (heq.symm.trans heq') hpath' hlength
  · exact (hnearer hsecond hfirst (heq'.symm.trans heq) hpath hlength).symm

lemma exists_root : ∀ (ancestors : List Cst) (expression : Cst),
    BooleanExpression fc expression → ∃ path top above,
      expression :: ancestors = path ++ top :: above ∧ (∀ tree ∈ path, Flattens fc tree) ∧
        isBooleanSequenceRoot fc ⟨top, above⟩ = true := by
  intro ancestors
  induction hlength : ancestors.length using Nat.strongRecOn generalizing ancestors with
  | ind length ih =>
    intro expression hexpression
    by_cases hclimb : climbsFree fc ancestors = true
    · exact ⟨[], expression, ancestors, rfl, by simp,
        isBooleanSequenceRoot_iff.mpr ⟨hexpression, hclimb⟩⟩
    · obtain ⟨groups, next, rest, rfl, hgroups, hnext⟩ :=
        climbsFree_eq_false_iff.mp (Bool.not_eq_true _ ▸ hclimb)
      obtain ⟨path, top, above, heq, hpath, hroot⟩ :=
        ih rest.length (by rw [← hlength]; simp; omega) rest rfl next hnext
      refine ⟨expression :: groups ++ path, top, above, ?_, ?_, hroot⟩
      · rw [heq, append_assoc, cons_append]
      · intro tree htree
        rcases mem_append.mp htree with htree | htree
        · rcases mem_cons.mp htree with rfl | htree
          · exact .inr hexpression
          · exact .inl (hgroups tree htree)
        · exact hpath tree htree

lemma below_of_mem_listedOperators (hplace : place ∈ listedOperators fc root) (hne : place ≠ root) :
    ∃ path, place.ancestors = path ++ root.tree :: root.ancestors ∧
      ∀ tree ∈ path, Flattens fc tree := by
  obtain ⟨hmem, _, hthrough⟩ := (mem_operatorNodes_iff root.tree).mp hplace
  rcases Cst.ancestors_of_mem_nodes hmem with heq | hbelow
  · exact absurd heq hne
  · obtain ⟨_, _, path, hpath, hall⟩ := (throughExpressions_cons_iff hbelow).mp hthrough
    exact ⟨path, hpath, fun tree htree => (hall tree htree).1⟩

lemma not_root_of_parent {parent : Cst}
    (hparent : place.ancestors = parent :: rest) (hexpression : BooleanExpression fc parent) :
    isBooleanSequenceRoot fc place ≠ true := by
  intro hroot
  exact maximal_of_root hroot (hparent.trans (nil_append _).symm) (by simp) hexpression

/-- **One root for every operator.**  An operator of a boolean expression is listed by exactly one
root of the tree. -/
lemma existsUnique_root (hplace : place ∈ tree.nodes [])
    (htoken : OperatorToken fc place) {parent : Cst} (hparent : place.ancestors = parent :: rest)
    (hexpression : BooleanExpression fc parent) :
    ∃! root, root ∈ tree.nodes [] ∧ isBooleanSequenceRoot fc root = true ∧
      place ∈ listedOperators fc root := by
  obtain ⟨path, top, above, heq, hpath, hroot⟩ := exists_root rest parent hexpression
  have hancestors : place.ancestors = path ++ top :: above := hparent.trans heq
  obtain ⟨htop, hbelow⟩ :=
    Cst.mem_nodes_of_ancestor hplace hancestors (Nat.zero_le above.length)
  have hspells : ∀ ancestor ∈ path ++ [top], ¬ SpellsOperator fc ancestor := by
    intro ancestor hancestor
    apply htoken.outermost
    rw [hancestors]
    rcases mem_append.mp hancestor with h | h
    · exact mem_append_left _ h
    · exact mem_append_right _ (mem_singleton.mp h ▸ mem_cons_self)
  have hthrough : ThroughExpressions fc above place := by
    refine ⟨path ++ [top], by rw [hancestors, append_assoc, singleton_append], ?_⟩
    intro ancestor hancestor
    refine ⟨?_, hspells ancestor hancestor⟩
    rcases mem_append.mp hancestor with h | h
    · exact hpath ancestor h
    · rw [mem_singleton.mp h]
      exact .inr (isBooleanSequenceRoot_iff.mp hroot).1
  refine ⟨⟨top, above⟩,
    ⟨htop, hroot, (mem_operatorNodes_iff top).mpr ⟨hbelow, htoken.spells, hthrough⟩⟩, ?_⟩
  rintro other ⟨_, hother, hlisted⟩
  have hne : place ≠ other := fun h => not_root_of_parent hparent hexpression (h ▸ hother)
  exact root_unique hother hroot (below_of_mem_listedOperators hlisted hne)
    ⟨path, hancestors, hpath⟩

/-! ## Runs of operators -/

lemma foldl_countOperator_replicate (op : String) (length count : ℕ) :
    (List.replicate length op).foldl countOperator (count, some op) = (count, some op) := by
  induction length with
  | zero => rfl
  | succ length ih =>
    have hstep : countOperator (count, some op) op = (count, some op) :=
      if_neg (not_not.mpr rfl)
    rw [replicate_succ, foldl_cons, hstep, ih]

lemma foldl_countOperator_runs (runs : List (List String)) (count : ℕ)
    (previous : Option String) (hnil : [] ∉ runs)
    (hrun : ∀ run ∈ runs, run.IsChain fun left right => (left == right) = true)
    (hchange : runs.IsChain fun run next =>
      ∃ ha hb, (run.getLast ha == next.head hb) = false)
    (hprevious : ∀ run ∈ runs.head?, ∀ op ∈ run.head?, previous ≠ some op) :
    (runs.flatten.foldl countOperator (min count u32Max, previous)).1 =
      min (count + runs.length) u32Max := by
  induction runs generalizing count previous with
  | nil => rfl
  | cons run runs ih =>
    cases run with
    | nil => exact absurd mem_cons_self hnil
    | cons op rest =>
      obtain ⟨hfirst, hrest⟩ := forall_mem_cons.mp hrun
      obtain ⟨hne, hchange'⟩ := isChain_cons.mp hchange
      have hsame : rest = List.replicate rest.length op := by
        simp only [beq_iff_eq] at hfirst
        exact isChain_cons_eq_iff_eq_replicate.mp hfirst
      have hall : ∀ other ∈ op :: rest, other = op := by
        rw [hsame]
        intro other hother
        rcases mem_cons.mp hother with rfl | hother
        · rfl
        · exact eq_of_mem_replicate hother
      have hlast : ∀ h, (op :: rest).getLast h = op := fun h => hall _ (getLast_mem h)
      have hstep : countOperator (min count u32Max, previous) op =
          (min (count + 1) u32Max, some op) := by
        have hdifferent := hprevious (op :: rest) rfl op rfl
        rw [countOperator, if_pos hdifferent, satAdd32_min]
      rw [flatten_cons, foldl_append, foldl_cons, hstep, hsame,
        foldl_countOperator_replicate, ih (count + 1) (some op)
          (fun h => hnil (mem_cons_of_mem _ h)) hrest hchange' ?_, length_cons]
      · congr 1
        omega
      · intro next hnext other hother
        obtain ⟨ha, hb, hdiffer⟩ := hne next hnext
        rw [hlast ha, beq_eq_false_iff_ne] at hdiffer
        intro heq
        apply hdiffer
        rw [some.inj heq]
        exact (head_of_mem_head? hother).symm

/-- The sequences of an expression are the maximal runs of equal operators. -/
lemma countBooleanSequences_eq (tree : Cst) : countBooleanSequences fc tree =
      min ((collectBooleanOps fc tree).splitBy (· == ·)).length u32Max := by
  obtain ⟨hflatten, hnil, hrun, hchange⟩ :=
    splitBy_eq_iff.mp (rfl : (collectBooleanOps fc tree).splitBy (· == ·) = _)
  have h := foldl_countOperator_runs _ 0 none hnil hrun hchange
    (fun _ _ op _ => (some_ne_none op).symm)
  rw [← hflatten, Nat.zero_min, Nat.zero_add] at h
  exact h

/-! ## The sequences of a tree -/

lemma separated (hroot : isBooleanSequenceRoot fc root = true)
    (hplace : place ∈ listedOperators fc root) (hne : place ≠ root) {path : List Cst}
    {other : Cst} (heq : place.ancestors = path ++ other :: rest) (hother : ¬ Flattens fc other) :
    ∃ front, root.ancestors = front ++ other :: rest := by
  obtain ⟨below, hbelow, hall⟩ := below_of_mem_listedOperators hplace hne
  have hexpression := (isBooleanSequenceRoot_iff.mp hroot).1
  rcases append_eq_append_iff.mp (heq.symm.trans hbelow) with
    ⟨middle, rfl, hmiddle⟩ | ⟨middle, rfl, hmiddle⟩
  · cases middle with
    | nil =>
      cases hmiddle
      exact absurd (.inr hexpression) hother
    | cons tree middle =>
      cases hmiddle
      exact absurd (hall other (mem_append_right _ mem_cons_self)) hother
  · cases middle with
    | nil =>
      cases hmiddle
      exact absurd (.inr hexpression) hother
    | cons tree middle =>
      obtain ⟨_, hancestors⟩ := cons.inj hmiddle
      exact ⟨middle, hancestors⟩

structure SequenceRoot (fc : FirstClass) (root : Node) : Prop where
  operators : collectBooleanOps fc root.tree =
    (listedOperators fc root).filterMap fun place => booleanOperatorKind fc place.tree
  in_order : (listedOperators fc root).Sublist (root.tree.nodes root.ancestors)
  /-- Listed are the operators that the root reaches through expressions and groups only. -/
  listed_iff : ∀ place, place ∈ listedOperators fc root ↔
    place ∈ root.tree.nodes root.ancestors ∧ SpellsOperator fc place.tree ∧
      ThroughExpressions fc root.ancestors place
  maximal : ∀ path expression rest, root.ancestors = path ++ expression :: rest →
    (∀ tree ∈ path, Flattens fc tree) → ¬ BooleanExpression fc expression
  increment : countBooleanSequences fc root.tree =
    min ((collectBooleanOps fc root.tree).splitBy (· == ·)).length u32Max
  /-- The root of an operator below anything that is not flattened is below it, too. -/
  separate : ∀ place ∈ listedOperators fc root, place ≠ root → ∀ path other rest,
    place.ancestors = path ++ other :: rest → ¬ Flattens fc other →
      ∃ front, root.ancestors = front ++ other :: rest

lemma sequenceRoot (hroot : isBooleanSequenceRoot fc root = true) :
    SequenceRoot fc root where
  operators := collectBooleanOps_eq root.tree
  in_order := operatorNodes_sublist root.tree
  listed_iff _ := mem_operatorNodes_iff root.tree
  maximal _ _ _ heq hpath := maximal_of_root hroot heq hpath
  increment := countBooleanSequences_eq root.tree
  separate _ hplace hne _ _ _ heq hother := separated hroot hplace hne heq hother

/-- **Boolean operators are counted once.**  Every operator of a boolean expression is listed by
exactly one root; a root lists the operators of a maximal expression in source order and counts
their runs; and what is neither an expression nor a group, callables among it, separates. -/
theorem boolean_operators_counted_once (fc : FirstClass) (tree : Cst) :
    (∀ place ∈ tree.nodes [], OperatorToken fc place →
      ∀ parent rest, place.ancestors = parent :: rest → BooleanExpression fc parent →
        ∃! root, root ∈ tree.nodes [] ∧ isBooleanSequenceRoot fc root = true ∧
          place ∈ listedOperators fc root) ∧
    (∀ root ∈ tree.nodes [], isBooleanSequenceRoot fc root = true → SequenceRoot fc root) ∧
    (∀ callable, isFunctionNode (config fc) callable = true → ¬ Flattens fc callable) :=
  ⟨fun _ hplace htoken _ _ hparent hexpression =>
      existsUnique_root hplace htoken hparent hexpression,
    fun _ _ hroot => sequenceRoot hroot,
    fun _ hfunction => not_flattens_of_function hfunction⟩

end Reposcout.Metrics.Complexity
