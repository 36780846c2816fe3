import Reposcout.WorkScope

/-!
# What a work scope promises

The components of a work scope are the weakly connected components of the dependency graph, each
section counts exactly what it leaves out, and all sections together stay within one budget of
paths.
-/

namespace Reposcout.Scope

open Context Graph List Option KeyedList Components

/-! ## Weak components -/

def Imports (graph : GraphSignals) (importer imported : String) : Prop :=
  imported ∈ KeyedList.keys graph.files ∧
    ∃ signal, get? importer graph.files = some signal ∧ imported ∈ signal.dependencies

structure Mirrors (graph : GraphSignals) : Prop where
  nodup : (KeyedList.keys graph.files).Nodup
  mirror : ∀ importer signal imported signal', get? importer graph.files = some signal →
    get? imported graph.files = some signal' →
    (imported ∈ signal.dependencies ↔ importer ∈ signal'.dependents)

/-- Imports lead from one file to the other, in either direction. -/
def WeaklyConnected (graph : GraphSignals) : String → String → Prop :=
  Relation.ReflTransGen fun file other => Imports graph file other ∨ Imports graph other file

variable {graph : GraphSignals}

lemma isSome_get?_iff {path : String} :
    (get? path graph.files).isSome ↔ path ∈ keys graph.files := by
  rw [isSome_iff_ne_none, Ne, get?_eq_none_iff, not_not]

lemma mem_neighbours_iff (h : Mirrors graph) {file other : String} :
    other ∈ neighbours graph file ↔ Imports graph file other ∨ Imports graph other file := by
  unfold neighbours Imports
  cases hfile : get? file graph.files with
  | none =>
    have hnot : file ∉ keys graph.files := get?_eq_none_iff.mp hfile
    simp [hnot]
  | some signal =>
    have hmem : file ∈ keys graph.files := isSome_get?_iff.mp (by rw [hfile]; rfl)
    rw [mem_filter, mem_append, isSome_get?_iff]
    constructor
    · rintro ⟨hdepends | hdepended, hother⟩
      · exact .inl ⟨hother, signal, rfl, hdepends⟩
      · obtain ⟨signal', hsignal'⟩ := isSome_iff_exists.mp (isSome_get?_iff.mpr hother)
        exact .inr ⟨hmem, signal', hsignal', (h.mirror _ _ _ _ hsignal' hfile).mpr hdepended⟩
    · rintro (⟨hother, _, hsome, hdepends⟩ | ⟨_, signal', hsignal', hdepends⟩)
      · exact ⟨.inl (some.inj hsome ▸ hdepends), hother⟩
      · refine ⟨.inr ((h.mirror _ _ _ _ hsignal' hfile).mp hdepends), ?_⟩
        exact isSome_get?_iff.mp (by rw [hsignal']; rfl)

lemma undirected_neighbours (h : Mirrors graph) :
    Undirected (neighbours graph) (orderedPaths graph) where
  nodup := (sortBy_perm compare _).nodup_iff.mpr h.nodup
  closed := by
    intro file _ other hother
    unfold orderedPaths
    rw [mem_sortBy]
    unfold neighbours at hother
    cases hfile : get? file graph.files with
    | none =>
      rw [hfile] at hother
      cases hother
    | some signal =>
      rw [hfile] at hother
      exact isSome_get?_iff.mp (mem_filter.mp hother).2
  symm := by
    intro file _ other hother
    rw [mem_neighbours_iff h] at hother ⊢
    exact hother.symm

lemma joined_iff (h : Mirrors graph) {file other : String} :
    Joined (neighbours graph) file other ↔ WeaklyConnected graph file other := by
  have hstep : (fun v w => w ∈ neighbours graph v) =
      fun file other => Imports graph file other ∨ Imports graph other file :=
    funext fun file => funext fun other => propext (mem_neighbours_iff h)
  unfold Components.Joined WeaklyConnected
  rw [hstep]

structure WeakComponents (graph : GraphSignals) (seeds : List String)
    (components : List ComponentFacts) : Prop where
  /-- Every file is in exactly one component. -/
  partitions : (components.map (·.paths)).flatten.Perm (KeyedList.keys graph.files)
  nonempty : ∀ component ∈ components, component.paths ≠ []
  connected : ∀ component ∈ components, ∀ file ∈ component.paths, ∀ other,
    other ∈ component.paths ↔ WeaklyConnected graph file other
  seeded : ∀ component ∈ components,
    component.seedPaths = component.paths.filter fun path => path ∈ seeds

lemma weakComponents_components (h : Mirrors graph)
    (seeds : List String) : WeakComponents graph seeds (components graph seeds) := by
  obtain ⟨hperm, hcomponent⟩ := Components.components_ok (undirected_neighbours h)
  have hmem : ∀ component ∈ components graph seeds,
      ∃ found ∈ Components.components (neighbours graph) (orderedPaths graph),
        componentFacts seeds found = component := by
    intro component hcomponent
    unfold components at hcomponent
    rw [mem_sortBy] at hcomponent
    exact List.mem_map.mp hcomponent
  refine ⟨?_, fun component hmember => ?_, fun component hmember file hfile other => ?_,
    fun component hmember => ?_⟩
  · have hsorted : ((components graph seeds).map (·.paths)).flatten.Perm
        (((Components.components (neighbours graph) (orderedPaths graph)).map
          (componentFacts seeds)).map (·.paths)).flatten :=
      ((sortBy_perm componentOrder _).map _).flatten
    have hfound : ((((Components.components (neighbours graph) (orderedPaths graph)).map
        (componentFacts seeds)).map (·.paths))).flatten.Perm
        (Components.components (neighbours graph) (orderedPaths graph)).flatten := by
      induction Components.components (neighbours graph) (orderedPaths graph) with
      | nil => exact .refl _
      | cons found rest ih => exact ((sortBy_perm compare found).append ih)
    exact (hsorted.trans hfound).trans (hperm.trans (sortBy_perm compare _))
  · obtain ⟨found, hfound, rfl⟩ := hmem component hmember
    intro hnil
    apply (hcomponent found hfound).ne_nil
    exact Perm.eq_nil (hnil ▸ (sortBy_perm compare found).symm)
  · obtain ⟨found, hfound, rfl⟩ := hmem component hmember
    simp only [componentFacts, mem_sortBy] at hfile ⊢
    rw [(hcomponent found hfound).mem_iff file hfile other, joined_iff h]
  · obtain ⟨found, _, rfl⟩ := hmem component hmember
    rfl

lemma WeakComponents.sum_sizes {seeds : List String}
    {components : List ComponentFacts} (h : WeakComponents graph seeds components) :
    (components.map (·.paths.length)).sum = graph.files.length := by
  have hlength := h.partitions.length_eq
  rw [length_flatten, List.map_map, KeyedList.keys, length_map] at hlength
  exact hlength

/-! ## The order of the components -/

instance : Std.TransCmp componentOrder :=
  haveI : Std.TransCmp fun left right : ComponentFacts =>
      compare right.seedPaths.length left.seedPaths.length :=
    @Std.TransCmp.opposite _ (compareOn fun facts : ComponentFacts => facts.seedPaths.length) _
  haveI : Std.TransCmp fun left right : ComponentFacts =>
      compare right.paths.length left.paths.length :=
    @Std.TransCmp.opposite _ (compareOn fun facts : ComponentFacts => facts.paths.length) _
  inferInstanceAs (Std.TransCmp (compareLex
    (fun left right : ComponentFacts => compare right.seedPaths.length left.seedPaths.length)
    (compareLex
      (fun left right : ComponentFacts => compare right.paths.length left.paths.length)
      (compareOn fun facts : ComponentFacts => facts.paths.head?))))

/-- A component with more seeds comes before one with fewer. -/
lemma seeded_first (graph : GraphSignals) (seeds : List String) :
    (components graph seeds).Pairwise fun left right =>
      right.seedPaths.length ≤ left.seedPaths.length := by
  refine (pairwise_sortBy componentOrder _).imp fun {left right} horder => ?_
  by_contra hlt
  apply horder
  have hgt : compare right.seedPaths.length left.seedPaths.length = .gt :=
    Nat.compare_eq_gt.mpr (Nat.lt_of_not_le hlt)
  simp [componentOrder, hgt]

/-- A property that no element has unless all earlier ones have it holds of a front. -/
lemma filter_prefix {α : Type} {p : α → Bool} {l : List α}
    (h : l.Pairwise fun left right => p right = true → p left = true) : l.filter p <+: l := by
  induction l with
  | nil => exact prefix_refl []
  | cons first rest ih =>
    obtain ⟨hfirst, hrest⟩ := pairwise_cons.mp h
    by_cases hp : p first = true
    · rw [filter_cons_of_pos hp, prefix_cons_inj]
      exact ih hrest
    · have hnone : rest.filter p = [] := by
        rw [filter_eq_nil_iff]
        exact fun other hother hpother => hp (hfirst other hother hpother)
      rw [filter_cons_of_neg hp, hnone]
      exact nil_prefix

lemma listedComponents_initial (graph : GraphSignals) (seeds : List String) :
    listedComponents (components graph seeds) <+: components graph seeds := by
  apply (List.take_prefix _ _).trans
  apply filter_prefix
  refine (seeded_first graph seeds).imp fun {left right} hseeds hright => ?_
  rw [Bool.or_eq_true, decide_eq_true_eq] at hright ⊢
  apply hright.imp_right
  intro hsome hnone
  rw [hnone, length_nil, Nat.le_zero, length_eq_zero_iff] at hseeds
  exact hsome hseeds

/-! ## The budget -/

variable (budget : PathBudget)

lemma PathBudget.take_spec (paths : List String) :
    (budget.take paths).1 <+: paths ∧
      (budget.take paths).1.length + (budget.take paths).2.remaining = budget.remaining := by
  refine ⟨List.take_prefix _ _, ?_⟩
  have hle := length_take_le budget.remaining paths
  simp only [PathBudget.take]
  omega

structure Represents (component : ComponentFacts) (entry : WorkScopeComponent) : Prop where
  files : entry.files = component.paths.length
  seedFiles : entry.seedFiles = component.seedPaths.length
  front : entry.representativePaths <+: component.representatives
  split : component.representatives.length =
    entry.representativePaths.length + entry.representativePathsOmitted

def representativesShown (entries : List WorkScopeComponent) : ℕ :=
  (entries.map (·.representativePaths.length)).sum

lemma projectComponents_spec (components : List ComponentFacts) :
    List.Forall₂ Represents components (projectComponents budget components) ∧
      representativesShown (projectComponents budget components) ≤ budget.remaining := by
  induction components generalizing budget with
  | nil => exact ⟨.nil, Nat.zero_le _⟩
  | cons component rest ih =>
    obtain ⟨hfront, hbudget⟩ := budget.take_spec component.representatives
    obtain ⟨hrest, hshown⟩ := ih (budget.take component.representatives).2
    refine ⟨.cons ⟨rfl, rfl, hfront, ?_⟩ hrest, ?_⟩
    · exact (Nat.add_sub_cancel' hfront.length_le).symm
    · unfold representativesShown at hshown ⊢
      simp only [projectComponents, projectComponent, map_cons, sum_cons]
      omega

lemma length_projectComponents (components : List ComponentFacts) :
    (projectComponents budget components).length = components.length :=
  (projectComponents_spec budget components).1.length_eq.symm

/-! ## The structure -/

structure Describes (graph : GraphSignals) (seeds : List String) (facts : WorkScopeStructure) :
    Prop where
  weak : WeakComponents graph seeds (components graph seeds)
  graph_files : facts.graphFiles = graph.files.length
  sizes : ((components graph seeds).map (·.paths.length)).sum = facts.graphFiles
  total : facts.components = (components graph seeds).length
  largest_le : ∀ component ∈ components graph seeds,
    component.paths.length ≤ facts.largestComponentFiles
  largest : components graph seeds ≠ [] → ∃ component ∈ components graph seeds,
    component.paths.length = facts.largestComponentFiles
  seeded_first : (components graph seeds).Pairwise fun left right =>
    right.seedPaths.length ≤ left.seedPaths.length

/-- What is listed of the structure, with exact counters. -/
structure Lists (components : List ComponentFacts) (facts : WorkScopeStructure) : Prop where
  shown_eq : facts.shown = facts.entries.length
  split : facts.components = facts.shown + facts.omitted
  entries : ∃ listed, listed <+: components ∧ List.Forall₂ Represents listed facts.entries

lemma largest_spec (components : List ComponentFacts) : (∀ component ∈ components,
      component.paths.length ≤ (components.map (·.paths.length)).max?.getD 0) ∧
    (components ≠ [] → ∃ component ∈ components,
      component.paths.length = (components.map (·.paths.length)).max?.getD 0) := by
  cases hmax : (components.map (·.paths.length)).max? with
  | none =>
    rw [max?_eq_none_iff, map_eq_nil_iff] at hmax
    subst hmax
    exact ⟨nofun, fun h => absurd rfl h⟩
  | some largest =>
    obtain ⟨hmem, hle⟩ := max?_eq_some_iff.mp hmax
    refine ⟨fun component hcomponent => hle _ (mem_map.mpr ⟨component, hcomponent, rfl⟩), ?_⟩
    exact fun _ => mem_map.mp hmem

lemma describes_projectStructure (h : Mirrors graph) (seeds : List String) (budget : PathBudget) :
    Describes graph seeds (projectStructure graph seeds budget) where
  weak := weakComponents_components h seeds
  graph_files := rfl
  sizes := (weakComponents_components h seeds).sum_sizes
  total := rfl
  largest_le := (largest_spec _).1
  largest := (largest_spec _).2
  seeded_first := seeded_first graph seeds

lemma lists_projectStructure (graph : GraphSignals) (seeds : List String)
    (budget : PathBudget) :
    Lists (components graph seeds) (projectStructure graph seeds budget) where
  shown_eq := rfl
  split := by
    have hle := (listedComponents_initial graph seeds).length_le
    rw [← length_projectComponents budget] at hle
    exact (Nat.add_sub_cancel' hle).symm
  entries := ⟨listedComponents (components graph seeds), listedComponents_initial graph seeds,
    (projectComponents_spec budget _).1⟩

/-! ## The sections -/

structure FocusExact (context : ContextPlan) (focus : WorkScopeFocus) : Prop where
  total_eq : focus.total =
    (normalizedPaths context.focus).length + (normalizedPaths context.unmatchedFocus).length
  shown_eq : focus.shown = focus.paths.length + focus.unmatchedPaths.length
  split : focus.total = focus.shown + focus.omitted
  front : focus.paths <+: normalizedPaths context.focus
  unmatched_front : focus.unmatchedPaths <+: normalizedPaths context.unmatchedFocus

structure ChangesExact (changed : List PathBuf) (changes : WorkScopeChanges) : Prop where
  total_eq : changes.total = (normalizedPaths changed).length
  shown_eq : changes.shown = changes.paths.length
  split : changes.total = changes.shown + changes.omitted
  front : changes.paths <+: normalizedPaths changed

def focusShown (focus : Option WorkScopeFocus) : ℕ :=
  (focus.map fun focus => focus.paths.length + focus.unmatchedPaths.length).getD 0

def changesShown (changes : Option WorkScopeChanges) : ℕ :=
  (changes.map fun changes => changes.paths.length).getD 0

lemma projectFocus_spec (context : Option ContextPlan) (budget : PathBudget) :
    (∀ focus ∈ (projectFocus context budget).1, ∃ plan ∈ context, FocusExact plan focus) ∧
      focusShown (projectFocus context budget).1 + (projectFocus context budget).2.remaining =
        budget.remaining := by
  unfold projectFocus
  split
  · exact ⟨fun _ h => absurd h (not_mem_none _), Nat.zero_add _⟩
  next plan =>
    split
    · exact ⟨fun _ h => absurd h (not_mem_none _), Nat.zero_add _⟩
    · obtain ⟨hfront, hfirst⟩ := budget.take_spec (normalizedPaths plan.focus)
      obtain ⟨hunmatched, hsecond⟩ :=
        (budget.take (normalizedPaths plan.focus)).2.take_spec (normalizedPaths plan.unmatchedFocus)
      refine ⟨fun focus hfocus => ⟨plan, rfl, ?_⟩, ?_⟩
      · cases hfocus
        refine ⟨rfl, rfl, ?_, hfront, hunmatched⟩
        exact (Nat.add_sub_cancel' (Nat.add_le_add hfront.length_le hunmatched.length_le)).symm
      · simp only [focusShown, focusOf, map_some, getD_some]
        omega

lemma projectChanges_spec (diffScope : Option String) (changed : List PathBuf)
    (budget : PathBudget) :
    (∀ changes ∈ (projectChanges diffScope changed budget).1, ChangesExact changed changes) ∧
      changesShown (projectChanges diffScope changed budget).1 +
        (projectChanges diffScope changed budget).2.remaining = budget.remaining := by
  unfold projectChanges
  split
  · exact ⟨fun _ h => absurd h (not_mem_none _), Nat.zero_add _⟩
  next scope =>
    obtain ⟨hfront, htake⟩ := budget.take_spec (normalizedPaths changed)
    refine ⟨fun changes hchanges => ?_, htake⟩
    cases hchanges
    exact ⟨rfl, rfl, (Nat.add_sub_cancel' hfront.length_le).symm, hfront⟩

/-! ## The whole scope -/

def WorkScope.focus (scope : WorkScope) : Option WorkScopeFocus :=
  scope.seeds.bind (·.focus)

def WorkScope.changes (scope : WorkScope) : Option WorkScopeChanges :=
  scope.seeds.bind (·.changes)

def WorkScope.pathsShown (scope : WorkScope) : ℕ :=
  focusShown scope.focus + changesShown scope.changes +
    (scope.structureFacts.map fun facts => representativesShown facts.entries).getD 0

section

variable {classifier : PathClassifier} {inputs : Inputs}

def afterFocus (inputs : Inputs) : PathBudget :=
  (projectFocus inputs.context ⟨maxPathEntries⟩).2

def afterChanges (inputs : Inputs) : PathBudget :=
  (projectChanges inputs.diffScope inputs.changed (afterFocus inputs)).2

lemma focus_build :
    (build classifier inputs).focus = (projectFocus inputs.context ⟨maxPathEntries⟩).1 := by
  simp only [WorkScope.focus, build]
  split
  · rfl
  next h =>
    rw [Bool.or_eq_true, not_or, not_isSome_iff_eq_none] at h
    exact h.1.symm

lemma changes_build : (build classifier inputs).changes =
      (projectChanges inputs.diffScope inputs.changed (afterFocus inputs)).1 := by
  simp only [WorkScope.changes, build]
  split
  · rfl
  next h =>
    rw [Bool.or_eq_true, not_or, not_isSome_iff_eq_none, not_isSome_iff_eq_none]
      at h
    exact h.2.symm

lemma structureFacts_build :
    (build classifier inputs).structureFacts = inputs.graph.map fun graph =>
      projectStructure graph (graphSeedPaths inputs.context inputs.changed inputs.graph)
        (afterChanges inputs) :=
  rfl

/-- The sections use up the budget in turn. -/
lemma pathsShown_le : (build classifier inputs).pathsShown ≤ maxPathEntries := by
  have hfocus := (projectFocus_spec inputs.context ⟨maxPathEntries⟩).2
  have hchanges := (projectChanges_spec inputs.diffScope inputs.changed (afterFocus inputs)).2
  have hstructure : ((build classifier inputs).structureFacts.map fun facts =>
      representativesShown facts.entries).getD 0 ≤ (afterChanges inputs).remaining := by
    rw [structureFacts_build]
    cases inputs.graph with
    | none => exact Nat.zero_le _
    | some graph => exact (projectComponents_spec _ _).2
  unfold WorkScope.pathsShown
  rw [focus_build, changes_build]
  change focusShown _ + (afterFocus inputs).remaining = maxPathEntries at hfocus
  change changesShown _ + (afterChanges inputs).remaining = _ at hchanges
  omega

end

/-- **The work scope.**  Its components are the weakly connected components of the graph, with the
seeded ones first; every section counts exactly what it leaves out; and all sections together show
no more paths than the budget has. -/
theorem work_scope_exact (classifier : PathClassifier) (inputs : Inputs) : (∀ graph seeds budget,
      Lists (components graph seeds) (projectStructure graph seeds budget) ∧
        (Mirrors graph → Describes graph seeds (projectStructure graph seeds budget))) ∧
    (∀ facts ∈ (build classifier inputs).structureFacts, ∃ graph ∈ inputs.graph,
      ∃ seeds budget, facts = projectStructure graph seeds budget) ∧
    (∀ focus ∈ (build classifier inputs).focus, ∃ plan ∈ inputs.context, FocusExact plan focus) ∧
    (∀ changes ∈ (build classifier inputs).changes, ChangesExact inputs.changed changes) ∧
    (build classifier inputs).pathsShown ≤ maxPathEntries := by
  refine ⟨fun graph seeds budget => ⟨lists_projectStructure graph seeds budget, fun h =>
    describes_projectStructure h seeds budget⟩, fun facts hfacts => ?_, ?_, ?_, pathsShown_le⟩
  · rw [structureFacts_build] at hfacts
    obtain ⟨graph, hgraph, rfl⟩ := map_eq_some_iff.mp hfacts
    exact ⟨graph, hgraph, _, _, rfl⟩
  · rw [focus_build]
    exact (projectFocus_spec inputs.context ⟨maxPathEntries⟩).1
  · rw [changes_build]
    exact (projectChanges_spec inputs.diffScope inputs.changed (afterFocus inputs)).1

end Reposcout.Scope
