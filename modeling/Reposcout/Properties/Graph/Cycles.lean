import Reposcout.Graph.Project
import Reposcout.Properties.Graph.Impact

/-!
# The cycles are the strong components

Both adjacency lists hold the edges that lie inside, so the two searches find the classes of
mutual reachability.  The reported cycles are the paths of the larger classes.
-/

namespace Reposcout.Graph

open BreadthFirst Components List KeyedList

variable {nodes files : List String} {edges : List (ℕ × ℕ)}

/-- A path of edges that lie inside leads from one node to the other. -/
def Reaches (count : ℕ) (edges : List (ℕ × ℕ)) : ℕ → ℕ → Prop :=
  Relation.ReflTransGen fun v w => (v, w) ∈ edges ∧ v < count ∧ w < count

/-- Each node is reached from the other. -/
def StronglyLinked (count : ℕ) (edges : List (ℕ × ℕ)) (v w : ℕ) : Prop :=
  Reaches count edges v w ∧ Reaches count edges w v

/-- **The components** are nonempty, partition the nodes, and two nodes share one exactly when
each is reached from the other. -/
lemma stronglyConnected_ok (nodes : List String) (edges : List (ℕ × ℕ)) :
    (stronglyConnected nodes edges).flatten.Perm (range nodes.length) ∧
      ∀ component ∈ stronglyConnected nodes edges, component ≠ [] ∧
        ∀ v ∈ component, ∀ w, w ∈ component ↔ StronglyLinked nodes.length edges v w := by
  have hnext := fun v w => ((mem_foldl_addImporter nodes.length (edges.map Prod.swap)).2 w v).trans
    (and_congr (mem_map_swap _ _ _) and_comm)
  have hprevious := fun v w => (mem_foldl_addImporter nodes.length edges).2 w v
  have hjoined : StronglyLinked nodes.length edges = Mutual fun node =>
      (((edges.map Prod.swap).foldl addImporter (replicate nodes.length []))[node]?).getD
        [] := by
    unfold StronglyLinked Reaches Mutual Components.Joined
    simp only [hnext]
  obtain ⟨hperm, hstrong⟩ := @strongComponents_ok ℕ _ _ _ (range nodes.length)
    nodup_range
    (fun v _ w hw => mem_range.mpr ((hnext v w).mp hw).2.2)
    (fun v _ w hw => mem_range.mpr ((hprevious v w).mp hw).2.1)
    (fun v w => (hprevious v w).trans (hnext w v).symm)
  refine ⟨hperm, fun component hcomponent => ?_⟩
  rw [hjoined]
  exact ⟨(hstrong component hcomponent).ne_nil, (hstrong component hcomponent).mem_iff⟩

/-- The paths of a component of two or more nodes, each once and sorted. -/
structure IsCycle (files : List String) (edges : List (ℕ × ℕ)) (cycle : List String) : Prop where
  two_le : 2 ≤ cycle.length
  nodup : cycle.Nodup
  sorted : cycle.Pairwise fun a b => compare a b ≠ .gt
  component : ∃ v < files.length, ∀ path, path ∈ cycle ↔
    ∃ w, files[w]? = some path ∧ StronglyLinked files.length edges v w

section

def cyclePaths (files : List String) (component : List ℕ) : List String :=
  sortBy compare (component.filterMap (files[·]?))

variable {component : List ℕ}

lemma mem_cyclePaths {path : String} :
    path ∈ cyclePaths files component ↔ ∃ w ∈ component, files[w]? = some path := by
  unfold cyclePaths
  rw [mem_sortBy, mem_filterMap]

lemma inside_of_mem (h : component ∈ stronglyConnected files edges) {v : ℕ}
    (hv : v ∈ component) : v < files.length := by
  have hperm := (stronglyConnected_ok files edges).1
  exact mem_range.mp (hperm.mem_iff.mp (mem_flatten.mpr ⟨component, h, hv⟩))

/-- Different components share no node. -/
lemma disjoint_stronglyConnected (nodes : List String) (edges : List (ℕ × ℕ)) :
    (∀ component ∈ stronglyConnected nodes edges, component.Nodup) ∧
      (stronglyConnected nodes edges).Pairwise Disjoint :=
  nodup_flatten.mp
    ((stronglyConnected_ok nodes edges).1.nodup_iff.mpr nodup_range)

lemma index_eq (hfiles : files.Nodup) {v w : ℕ} {path : String} (hv : files[v]? = some path)
    (hw : files[w]? = some path) : v = w :=
  (getElem?_inj (List.getElem?_eq_some_iff.mp hv).1 hfiles).mp (hv.trans hw.symm)

lemma nodup_cyclePaths (hfiles : files.Nodup)
    (hcomponent : component ∈ stronglyConnected files edges) :
    (cyclePaths files component).Nodup := by
  refine (sortBy_perm _ _).nodup_iff.mpr (Nodup.filterMap ?_
    ((disjoint_stronglyConnected files edges).1 component hcomponent))
  exact fun v w path hv hw => index_eq hfiles hv hw

lemma isCycle_cyclePaths (hfiles : files.Nodup)
    (hcomponent : component ∈ stronglyConnected files edges) (htwo : 2 ≤ component.length) :
    IsCycle files edges (cyclePaths files component) where
  two_le := by
    have hlength : (component.filterMap (files[·]?)).length = component.length :=
      filterMap_length_eq_length.mpr fun v hv => by
        rw [getElem?_eq_getElem (inside_of_mem hcomponent hv)]
        rfl
    unfold cyclePaths
    rw [length_sortBy, hlength]
    exact htwo
  nodup := nodup_cyclePaths hfiles hcomponent
  sorted := pairwise_sortBy compare _
  component := by
    obtain ⟨v, hv⟩ := exists_mem_of_length_pos (Nat.lt_of_lt_of_le Nat.zero_lt_two htwo)
    refine ⟨v, inside_of_mem hcomponent hv, fun path => mem_cyclePaths.trans ?_⟩
    have hmem := ((stronglyConnected_ok files edges).2 component hcomponent).2 v hv
    simp only [hmem, and_comm]

/-- Sorted lists without repetition are equal if they have the same members. -/
lemma eq_of_sorted {left right : List String} (hleft : left.Nodup) (hright : right.Nodup)
    (hsorted : left.Pairwise fun a b => compare a b ≠ .gt)
    (hsorted' : right.Pairwise fun a b => compare a b ≠ .gt)
    (hmem : ∀ path, path ∈ left ↔ path ∈ right) : left = right := by
  refine Perm.eq_of_pairwise (fun a b _ _ hab hba => ?_) hsorted hsorted'
    ((perm_ext_iff_of_nodup hleft hright).mpr hmem)
  cases hcompare : compare a b with
  | eq => exact Std.LawfulEqCmp.eq_of_compare hcompare
  | gt => exact absurd hcompare hab
  | lt => exact absurd (Std.OrientedCmp.gt_of_lt hcompare) hba

lemma exists_cyclePaths_eq (hfiles : files.Nodup) {cycle : List String}
    (h : IsCycle files edges cycle) : ∃ component ∈ stronglyConnected files edges,
      2 ≤ component.length ∧ cyclePaths files component = cycle := by
  obtain ⟨v, hv, hpaths⟩ := h.component
  obtain ⟨hperm, hclasses⟩ := stronglyConnected_ok files edges
  obtain ⟨component, hcomponent, hmem⟩ :=
    mem_flatten.mp (hperm.mem_iff.mpr (mem_range.mpr hv))
  have hmembers : ∀ path, path ∈ cyclePaths files component ↔ path ∈ cycle := by
    intro path
    rw [mem_cyclePaths, hpaths]
    have hlinked := (hclasses component hcomponent).2 v hmem
    simp only [hlinked, and_comm]
  have hsame : cyclePaths files component = cycle :=
    eq_of_sorted (nodup_cyclePaths hfiles hcomponent) h.nodup (pairwise_sortBy compare _)
      h.sorted hmembers
  refine ⟨component, hcomponent, ?_, hsame⟩
  have hlength : (cyclePaths files component).length ≤ component.length := by
    unfold cyclePaths
    rw [length_sortBy]
    exact length_filterMap_le _ _
  exact Nat.le_trans (hsame ▸ h.two_le) hlength

/-- Components of one file or more have different paths. -/
lemma pairwise_cyclePaths (hfiles : files.Nodup) :
    (stronglyConnected files edges).Pairwise fun left right =>
      cyclePaths files left ≠ cyclePaths files right := by
  refine (disjoint_stronglyConnected files edges).2.imp_of_mem ?_
  intro left right hleft hright hdisjoint hsame
  obtain ⟨v, hv⟩ :=
    exists_mem_of_ne_nil left ((stronglyConnected_ok files edges).2 left hleft).1
  have hget := getElem?_eq_getElem (inside_of_mem hleft hv)
  have hpath := hsame ▸ mem_cyclePaths.mpr ⟨v, hv, hget⟩
  obtain ⟨w, hw, hget'⟩ := mem_cyclePaths.mp hpath
  exact hdisjoint hv (index_eq hfiles hget hget' ▸ hw)

/-- The cycles are the strong components of two files or more and the given self cycles. -/
lemma graphCycles_ok (hfiles : files.Nodup) {selfCycles : List String}
    (hself : selfCycles.Nodup) :
    let cycles := graphCycles files edges selfCycles
    cycles.Nodup ∧ cycles.Pairwise (fun a b => compare a b ≠ .gt) ∧ ∀ cycle, cycle ∈ cycles ↔
        IsCycle files edges cycle ∨ ∃ path ∈ selfCycles, cycle = [path] := by
  intro cycles
  have hcycles : ∀ cycle, cycle ∈ ((stronglyConnected files edges).filter
      (·.length ≥ 2)).map (cyclePaths files) ↔ IsCycle files edges cycle := by
    intro cycle
    simp only [mem_map, mem_filter, decide_eq_true_eq]
    constructor
    · rintro ⟨component, ⟨hcomponent, htwo⟩, rfl⟩
      exact isCycle_cyclePaths hfiles hcomponent htwo
    · intro h
      obtain ⟨component, hcomponent, htwo, hsame⟩ := exists_cyclePaths_eq hfiles h
      exact ⟨component, ⟨hcomponent, htwo⟩, hsame⟩
  refine ⟨?_, pairwise_sortBy compare _, fun cycle => ?_⟩
  · refine (sortBy_perm _ _).nodup_iff.mpr (nodup_append.mpr ⟨?_, ?_, ?_⟩)
    · exact pairwise_map.mpr ((pairwise_cyclePaths hfiles).filter _)
    · exact hself.map fun a b hab => (cons.inj hab).1
    · rintro cycle hcycle other hother rfl
      obtain ⟨path, -, rfl⟩ := mem_map.mp hother
      exact absurd ((hcycles _).mp hcycle).two_le (by simp)
  · refine mem_sortBy.trans (mem_append.trans (or_congr (hcycles cycle) ?_))
    rw [mem_map]
    exact exists_congr fun path => and_congr_right fun _ => eq_comm

/-- **Strong components and cycles**: the components partition the nodes by mutual reachability, and
the cycles are those of two files or more with the given self cycles, each once and sorted. -/
theorem components_and_cycles (files : List String) (edges : List (ℕ × ℕ))
    (selfCycles : List String) :
    ((stronglyConnected files edges).flatten.Perm (List.range files.length) ∧
      ∀ component ∈ stronglyConnected files edges, component ≠ [] ∧
        ∀ v ∈ component, ∀ w, w ∈ component ↔ StronglyLinked files.length edges v w) ∧
      (files.Nodup → selfCycles.Nodup → (graphCycles files edges selfCycles).Nodup ∧
        (graphCycles files edges selfCycles).Pairwise (fun a b => compare a b ≠ .gt) ∧
        ∀ cycle, cycle ∈ graphCycles files edges selfCycles ↔
          IsCycle files edges cycle ∨ ∃ path ∈ selfCycles, cycle = [path]) :=
  ⟨stronglyConnected_ok files edges, fun hfiles hself => graphCycles_ok hfiles hself⟩

theorem components_and_cycles_importCycle :
    (graphCycles importCycle.graphFiles importCycle.edges ["d.rs"]).Nodup ∧
      graphCycles importCycle.graphFiles importCycle.edges ["d.rs"] =
        [["a.rs", "b.rs", "c.rs"], ["d.rs"]] :=
  ⟨((components_and_cycles importCycle.graphFiles importCycle.edges ["d.rs"]).2 (by decide)
    (by decide)).1, by decide +kernel⟩

/-! ## Cycles and dependents -/

variable {topology : Topology} {order : KeyedList.IterationOrder ℕ} {a b : String} {i j : ℕ}

lemma reachIn_iff_reaches :
    (∃ n, ReachIn (NumberStep topology) (· ∈ [j]) n i) ↔
      Reaches topology.graphFiles.length topology.edges i j := by
  constructor
  · rintro ⟨n, h⟩
    induction h with
    | refl hstart => rw [mem_singleton.mp hstart]; exact .refl
    | tail _ hstep ih => exact ih.head ⟨hstep, topology.edges_inside _ hstep⟩
  · intro h
    induction h using Relation.ReflTransGen.head_induction_on with
    | refl => exact ⟨0, .refl (mem_singleton_self j)⟩
    | head hstep _ ih =>
      obtain ⟨n, hn⟩ := ih
      exact ⟨n + 1, hn.tail hstep.1⟩

/-- A file is affected by a change of another one if imports lead from it to the other. -/
lemma mem_affected_singleton_iff (ha : topology.graphFiles[i]? = some a)
    (hb : topology.graphFiles[j]? = some b) : a ∈ affected topology order [b] ↔
      Reaches topology.graphFiles.length topology.edges i j := by
  have hseeds : ∀ seed ∈ [b], seed ∈ topology.graphFiles := by
    intro seed hseed
    rw [mem_singleton.mp hseed]
    exact mem_of_getElem? hb
  have hindices : ∀ index, index ∈ [j] ↔ ∃ seed ∈ [b], topology.graphFiles[index]? = some seed := by
    intro index
    simp only [mem_singleton, exists_eq_left]
    exact ⟨fun h => h ▸ hb, fun h => index_unique h hb⟩
  rw [mem_affected_iff hseeds, ← reachIn_iff_reaches]
  exact exists_congr fun n => ((number_matches hseeds hindices).reachIn_iff ha).symm

/-- **Two files share a cycle** exactly when a change of each affects the other. -/
theorem share_cycle_iff_affected (topology : Topology) (order : KeyedList.IterationOrder ℕ)
    {selfCycles : List String} (hself : selfCycles.Nodup) {a b : String}
    (ha : a ∈ topology.graphFiles) (hb : b ∈ topology.graphFiles) (hne : a ≠ b) :
    (∃ cycle ∈ graphCycles topology.graphFiles topology.edges selfCycles, a ∈ cycle ∧ b ∈ cycle) ↔
      a ∈ affected topology order [b] ∧ b ∈ affected topology order [a] := by
  obtain ⟨i, hi⟩ := mem_iff_getElem?.mp ha
  obtain ⟨j, hj⟩ := mem_iff_getElem?.mp hb
  obtain ⟨hperm, hclasses⟩ := stronglyConnected_ok topology.graphFiles topology.edges
  obtain ⟨-, -, hcycles⟩ := @graphCycles_ok _ topology.edges topology.files_nodup _ hself
  rw [mem_affected_singleton_iff hi hj, mem_affected_singleton_iff hj hi]
  constructor
  · rintro ⟨cycle, hcycle, hac, hbc⟩
    rcases (hcycles cycle).mp hcycle with h | ⟨path, -, rfl⟩
    · obtain ⟨v, -, hpaths⟩ := h.component
      obtain ⟨i', hi', hvi⟩ := (hpaths a).mp hac
      obtain ⟨j', hj', hvj⟩ := (hpaths b).mp hbc
      rw [index_unique hi hi', index_unique hj hj']
      exact ⟨hvi.2.trans hvj.1, hvj.2.trans hvi.1⟩
    · exact absurd ((mem_singleton.mp hac).trans (mem_singleton.mp hbc).symm) hne
  · intro hlinked
    obtain ⟨component, hcomponent, hmem⟩ :=
      mem_flatten.mp (hperm.mem_iff.mpr (mem_range.mpr (lt_of_file hi)))
    have hmem' := ((hclasses component hcomponent).2 i hmem j).mpr hlinked
    have htwo : 2 ≤ component.length := by
      have hij : i ≠ j := fun h => hne (Option.some_inj.mp (hi.symm.trans (h ▸ hj)))
      have hsub : [i, j] ⊆ component := by simp [hmem, hmem']
      exact (subperm_of_subset (by simp [hij]) hsub).length_le
    exact ⟨_, (hcycles _).mpr (.inl (isCycle_cyclePaths topology.files_nodup hcomponent htwo)),
      mem_cyclePaths.mpr ⟨i, hmem, hi⟩, mem_cyclePaths.mpr ⟨j, hmem', hj⟩⟩

theorem share_cycle_iff_affected_importCycle :
    (∃ cycle ∈ graphCycles importCycle.graphFiles importCycle.edges ["d.rs"],
        "a.rs" ∈ cycle ∧ "c.rs" ∈ cycle) ↔
      "a.rs" ∈ affected importCycle (.insertion ℕ) ["c.rs"] ∧
        "c.rs" ∈ affected importCycle (.insertion ℕ) ["a.rs"] :=
  share_cycle_iff_affected importCycle _ (by decide) (by decide) (by decide) (by decide)

end

end Reposcout.Graph
